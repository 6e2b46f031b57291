/-
From every login to every run.

A session is forked while a login is served and at no other time. So a monitor that asks nothing of the other moments
accepts a whole run if it accepts `handle_login_request` from every state in which the daemon enters it: `history_logins`
is that rule. The states are those of `Asking`, where a connection is open, its line was decoded into the Login, and the
books of the daemon are in order. The rule also carries a property of libpam's state, which the caller has to show is
kept by the greeter's calls and by a login.

What the monitors look at inside of a login is its launch. `serveSession_eq` cuts `serveSession` there: `prepare` is what
comes before, `resume` what comes when the session is over.
-/
import Miqudm.Daemon.Moments
import Miqudm.Daemon.DaemonLedger

namespace Miqudm

open Miqudm.Core Prog

/-! ## Outside of logins -/

def Event.forksSession : Event → Bool
  | .fork .session _ => true
  | _ => false

/-- a part that forks no session -/
def elsewhere : Footprint St Event Halt where
  allow e _ := e.forksSession = false
  halts _ := True
  rel _ _ := True
  refl _ := trivial
  trans _ _ := trivial

theorem not_forksSession_of_calm {e : Event} (h : e.calm) : e.forksSession = false := by
  unfold Event.forksSession
  split
  · exact absurd h Bool.false_ne_true
  · rfl

theorem Scanning.elsewhere {α : Type} {x : Sys α} {g : St → St} (h : Within (scanning g) x) : Within elsewhere x :=
  h.mono (fun _ _ => not_forksSession_of_calm) (fun _ _ => trivial) fun _ _ _ => trivial

theorem Calm.elsewhere {α : Type} {x : Sys α} {g : St → St} (h : Within (calmly g) x) : Within elsewhere x :=
  Scanning.elsewhere (Calm.scanning h)

theorem Quiet.elsewhere {α : Type} {x : Sys α} {g : St → St} (h : Within (quietly g) x) : Within elsewhere x := by
  refine h.mono (fun e s he => ?_) (fun _ => False.elim) fun _ _ _ => trivial
  have he : e.quiet s := he
  unfold Event.quiet at he
  split at he
  · rfl
  · exact not_forksSession_of_calm he

/-! ## Parts by their ends -/

section Ends

variable {E : Env} {α : Type} {x : Sys α} {s : St}

theorem ends_op {e : Event} {f : St → St} {q : Unit → St → Prop}
    (h : ∀ b, q () ((f (s.setRunning b)).tick (s.now + 1))) : Ends (op E e f) s q := by
  refine Ends.seq (q := fun _ t => ∃ b, t = s.setRunning b) ?_ ?_
  · exact ends_get_bind (ends_ite (fun _ => ends_act ⟨false, rfl⟩) fun _ => ends_pure ⟨s.running, rfl⟩)
  · intro _ _ hr
    obtain ⟨b, rfl⟩ := hr
    exact ends_act (h b)

theorem onPam_ends {x : PamM α} {q : α → Libpam → Prop} (hx : Ends x s.pam q) :
    Ends (onPam E x) s fun a t => q a t.pam :=
  Sat.ends (onPam_spec (Q := fun _ a p => q a p) hx) fun _ _ _ h => h

theorem calm_ends {g : St → St} (hx : Within (calmly g) x) (s : St) : Ends x s fun _ t => g s = g t :=
  Sat.ends (hx s) fun _ _ _ h => h.2

theorem aside_ends (hx : Within aside x) (s : St) : Ends x s fun _ t => holdings s = holdings t :=
  Sat.ends (hx s) fun _ _ _ h => h.2

end Ends

/-- a part that leaves a property of libpam's state as it is -/
def KeepsPam (I : Libpam → Prop) {α : Type} (x : Sys α) : Prop := ∀ s, I s.pam → Ends x s fun _ t => I t.pam

section KeepsPam

variable {I : Libpam → Prop} {α β : Type}

theorem keepsPam_pure (a : α) : KeepsPam I (pure a : Sys α) := fun _ h => h

theorem keepsPam_bind {x : Sys β} {f : β → Sys α} (hx : KeepsPam I x) (hf : ∀ b, KeepsPam I (f b)) :
    KeepsPam I (x >>= f) := fun s hs => Ends.seq (hx s hs) fun b t ht => hf b t ht

theorem keepsPam_get_bind {f : St → Sys α} (hf : ∀ s, KeepsPam I (f s)) : KeepsPam I (Prog.get >>= f) :=
  fun s hs => ends_get_bind (hf s s hs)

theorem keepsPam_ite {c : Prop} [Decidable c] {x y : Sys α} (hx : KeepsPam I x) (hy : KeepsPam I y) :
    KeepsPam I (if c then x else y) := fun s hs => ends_ite (fun _ => hx s hs) fun _ => hy s hs

theorem keepsPam_when {c : Prop} [Decidable c] {x : Sys Unit} (hx : KeepsPam I x) : KeepsPam I (Prog.when c x) :=
  keepsPam_ite hx (keepsPam_pure ())

/-- a part that makes no libpam call -/
theorem Aside.keepsPam {x : Sys α} (hx : Within aside x) : KeepsPam I x := by
  intro s hs
  refine Ends.mono (aside_ends hx s) fun _ t ht => ?_
  have hpam : s.pam = t.pam := (holdings_eq ht).1
  exact hpam ▸ hs

theorem keepsPam_onPam {E : Env} {x : PamM α} (hx : ∀ p, I p → Ends x p fun _ p' => I p') : KeepsPam I (onPam E x) :=
  fun s hs => onPam_ends (hx s.pam hs)

end KeepsPam

/-- what is asked of a monitor outside of logins, and of a property of libpam's state -/
structure Outside (E : Env) {κ : Type} (M : Monitor Event St Halt κ) (J : κ → Prop) (I : Libpam → Prop) : Prop where
  /-- while the monitor is in `J` it lets every moment pass that forks no session, and stays there -/
  passes : ∀ k e s, J k → e.forksSession = false → M.good k e s ∧ J (M.step k e)
  stops : ∀ k h, J k → M.stops k h
  greeter : KeepsPam I (startGreeter E)

/-- a Login has been read and decoded: the daemon is about to handle it -/
structure Asking (E : Env) (s : St) (f : Frame) : Prop where
  busy : Busy s f
  home : ∃ l, Home l s
  login : f.req.type = .login
  line : deserialize E.json f.line = .ok f.req

/-! ## The rule -/

section Rule

variable {E : Env} {κ : Type} {M : Monitor Event St Halt κ} {J : κ → Prop} {I : Libpam → Prop} {k : κ} {s : St}

theorem Outside.op (ho : Outside E M J I) (hk : J k) {e : Event} (he : e.forksSession = false) {f : St → St}
    {q : κ → Unit → St → Prop} (h : ∀ k' b, J k' → q k' () ((f (s.setRunning b)).tick (s.now + 1))) :
    Watched M k (op E e f) s q := by
  have hstop := ho.passes k .stop (s.setRunning false) hk rfl
  have act : ∀ k' b, J k' → Watched M k' (Prog.act e fun s => (f s).tick (s.now + 1)) (s.setRunning b) q := by
    intro k' b hk'
    have hgood := ho.passes k' e ((f (s.setRunning b)).tick (s.now + 1)) hk' he
    exact watched_act hgood.1 (h _ b hgood.2)
  refine watched_bind (watched_bind (watched_get (watched_ite (fun _ => watched_act hstop.1 ?_) fun _ => ?_)))
  · exact act _ false hstop.2
  · exact watched_pure (act k s.running hk)

/-- a part that forks no session and makes no libpam call -/
theorem Outside.part (ho : Outside E M J I) (hk : J k) {α : Type} {x : Sys α} (hx : Within elsewhere x)
    {q : α → St → Prop} (hq : Ends x s q) : Watched M k x s (fun k' a t => J k' ∧ q a t) := by
  refine Watched.mono (Watched.and_sat (Within.watched (J := J) hx hk ?_ ?_) hq) fun k' a t h => ⟨h.1.1, h.2⟩
  · exact fun k' e t hk' he _ => ho.passes k' e t hk' he
  · exact fun k' h hk' _ => ho.stops k' h hk'

/-- the monitor and libpam are as between logins -/
def Between (J : κ → Prop) (I : Libpam → Prop) (k : κ) (s : St) : Prop := J k ∧ I s.pam

theorem Outside.keeps (ho : Outside E M J I) (hk : J k) (hI : I s.pam) {x : Sys Unit} (hx : Within elsewhere x)
    (hpam : KeepsPam I x) : Watched M k x s (fun k' _ t => Between J I k' t) := ho.part hk hx (hpam s hI)

theorem reply_elsewhere (resp : IpcMessage) : Within elsewhere (reply E resp) := by
  refine within_bind (within_bind ?_ fun _ => within_act (fun _ => rfl) fun _ => trivial) fun _ => ?_
  · exact Calm.elsewhere (interfere_calm E)
  · exact within_get_bind fun _ => within_ite (within_halt trivial) (within_pure _)

theorem stopGreeter_elsewhere : Within elsewhere (stopGreeter E) :=
  within_bind (within_bind (Calm.elsewhere (interfere_calm E)) fun _ => within_act (fun _ => rfl) fun _ => trivial)
    fun _ => Calm.elsewhere (releaseGreeter_calm E)

theorem stopGreeter_ends (s : St) : Ends (stopGreeter E) s fun _ t => apartGreeter s = apartGreeter t :=
  Ends.seq (ends_op (q := fun _ t => apartGreeter s = apartGreeter t) fun _ => rfl) fun _ t ht =>
    Ends.mono (calm_ends (releaseGreeter_calm E) t) fun _ _ hu => Eq.trans ht hu

theorem reply_ends (resp : IpcMessage) (s : St) : Ends (reply E resp) s fun _ t => apartClock s = apartClock t :=
  Sat.ends (reply_moments E resp s) fun _ _ _ h => h.2

theorem refuse_elsewhere (message : Str) (pam : PamAuth) : Within elsewhere (refuse E message pam) :=
  within_bind (reply_elsewhere _) fun _ => within_bind (Calm.elsewhere (onPam_calm E _)) fun _ => within_pure _

theorem watchGreeter_keepsPam (hgreeter : KeepsPam I (startGreeter E)) : KeepsPam I (watchGreeter E) := by
  refine keepsPam_get_bind fun s => keepsPam_ite ?_ (keepsPam_pure _)
  refine keepsPam_bind (Aside.keepsPam (isRunning_aside E)) fun running => keepsPam_ite ?_ (keepsPam_pure _)
  refine keepsPam_get_bind fun t => keepsPam_bind (Aside.keepsPam (aside_op_id E rfl)) fun _ => ?_
  split
  · exact keepsPam_bind (Aside.keepsPam (aside_op E rfl fun _ => rfl)) fun _ =>
      keepsPam_bind (Aside.keepsPam (aside_op_id E rfl)) fun _ => hgreeter
  · exact keepsPam_pure _

/-! ### The phases of `serveSession` -/

/-- what `serveSession` has in hand when it launches -/
structure Prepared where
  user : UserInfo
  session : SessionInfo
  pamEnvs : List Str
  vt : ℤ

variable (E) in
/-- `serveSession` up to the launch -/
def prepare (req : IpcMessage) (pam : PamAuth) : Sys Prepared := do
  stopGreeter E
  let s ← Prog.get
  rememberLastUser E req
  setActivePam E pam
  let pamEnvs ← onPam E pam.getEnvironmentList
  return ⟨findUser s.cachedUsers req.username, findSession s.cachedSessions req, pamEnvs, s.config.general.vt⟩

variable (E) in
/-- `serveSession` once the session is over, or was not launched -/
def resume : Sys Unit := do
  releaseActivePam E
  if ← readRunning E then startGreeter E

variable (E) in
/-- `serveSession` from the launch on -/
def serve (p : Prepared) : Sys Unit := do
  let launched ← launch E p.user p.session p.pamEnvs p.vt
  Prog.when launched do
    let _ ← waitForExit E
  resume E

/-- **The code is the phases.** -/
theorem serveSession_eq (req : IpcMessage) (pam : PamAuth) : serveSession E req pam = prepare E req pam >>= serve E := by
  simp only [serveSession, prepare, bind_assoc']
  rfl

theorem prepare_elsewhere (req : IpcMessage) (pam : PamAuth) : Within elsewhere (prepare E req pam) :=
  within_bind stopGreeter_elsewhere fun _ => within_get_bind fun _ =>
    within_bind (Calm.elsewhere (rememberLastUser_calm E req)) fun _ =>
    within_bind (Calm.elsewhere (setActivePam_calm E pam)) fun _ =>
    within_bind (Calm.elsewhere (onPam_calm E _)) fun _ => within_pure _

/-- the session that is launched is looked up in the cache, and the caches and the connection stay as they are -/
theorem prepare_ends (req : IpcMessage) (pam : PamAuth) (s : St) : Ends (prepare E req pam) s fun p t =>
    apartLogin s = apartLogin t ∧ p.session = findSession s.cachedSessions req := by
  refine Ends.seq (stopGreeter_ends s) fun _ t ht => ends_get_bind ?_
  have hcached : s.cachedSessions = t.cachedSessions := same_of_erased ht fun _ => rfl
  have ht : apartLogin s = apartLogin t := same_of_erased ht fun _ => rfl
  refine Ends.seq (calm_ends (rememberLastUser_calm E req) t) fun _ u hu => ?_
  have hu : apartLogin s = apartLogin u := Eq.trans ht (same_of_erased hu fun _ => rfl)
  refine Ends.seq (calm_ends (setActivePam_calm E pam) u) fun _ v hv => ?_
  have hv : apartLogin s = apartLogin v := Eq.trans hu (same_of_erased hv fun _ => rfl)
  refine Ends.seq (calm_ends (onPam_calm E _) v) fun pamEnvs w hw => ends_pure ⟨?_, ?_⟩
  · exact Eq.trans hv (same_of_erased hw fun _ => rfl)
  · rw [hcached]

theorem resume_elsewhere : Within elsewhere (resume E) :=
  within_bind (Calm.elsewhere (releaseActivePam_calm E)) fun _ => within_bind (Calm.elsewhere (readRunning_calm E))
    fun _ => within_ite (Quiet.elsewhere (startGreeter_quiet E)) (within_pure _)

/-- a monitor that accepts every login from `J`, and leaves it in `J` -/
def AcceptsLogins (E : Env) (M : Monitor Event St Halt κ) (J : κ → Prop) (I : Libpam → Prop) : Prop :=
  ∀ k s f, J k → I s.pam → Asking E s f →
    Watched M k (handleLoginRequest E f.req) s (fun k' _ t => Between J I k' t)

section Pass

variable (ho : Outside E M J I) (hlogin : AcceptsLogins E M J I)

include ho hlogin

theorem processMessage_between {f : Frame} {l : Ledger Held} (hk : J k) (hI : I s.pam) (hb : Busy s f) (hh : Home l s)
    (hline : deserialize E.json f.line = .ok f.req) :
    Watched M k (processMessage E f.req) s (fun k' _ t => Between J I k' t) := by
  have keeps : ∀ {x : Sys Unit}, Within elsewhere x → Within aside x →
      Watched M k x s (fun k' _ t => Between J I k' t) := fun hx ha => ho.keeps hk hI hx (Aside.keepsPam ha)
  have assign : ∀ {f : St → St}, Within elsewhere (op E .assign f) := by
    intro f
    exact within_bind (Calm.elsewhere (interfere_calm E)) fun _ => within_act (fun _ => rfl) fun _ => trivial
  unfold processMessage
  split
  · exact keeps (reply_elsewhere _) (reply_aside E _)
  · exact keeps (within_bind assign fun _ => within_get_bind fun _ => reply_elsewhere _)
      (within_bind (aside_op E rfl fun _ => rfl) fun _ => within_get_bind fun _ => reply_aside E _)
  · exact keeps (within_bind (Scanning.elsewhere (cacheSessions_scanning E)) fun _ => within_get_bind fun _ =>
      reply_elsewhere _) (within_bind (cacheSessions_aside E) fun _ => within_get_bind fun _ => reply_aside E _)
  · exact keeps (within_bind (Calm.elsewhere (powerCall_calm E _)) fun _ => reply_elsewhere _)
      (within_bind (powerCall_aside E _) fun _ => reply_aside E _)
  · case _ htype => exact hlogin k s f hk hI ⟨hb, ⟨l, hh⟩, htype, hline⟩
  · exact keeps (reply_elsewhere _) (reply_aside E _)

theorem serveLine_between (line rest : Str) {f : Frame} {l : Ledger Held} (hk : J k) (hI : I s.pam) (hb : Busy s f)
    (hh : Home l s) : Watched M k (serveLine E line rest) s (fun k' _ t => Between J I k' t) := by
  refine watched_bind (ho.op hk rfl fun k b hk => ?_)
  have hb := hb.map (fun f => { f with line := line, accumulated := rest }) rfl b (s.now + 1)
  split
  · exact watched_halt (ho.stops _ _ hk)
  · case _ req hreq =>
    refine watched_bind (ho.op hk rfl fun k b' hk => ?_)
    have hb := hb.map (fun f => { f with req := req }) rfl b' (s.now + 1 + 1)
    refine Watched.seq (processMessage_between ho hlogin (f := { f with line, accumulated := rest, req }) hk hI hb
      (hh.of_holdings rfl) hreq) fun k _ t ht => ?_
    exact ho.op ht.1 rfl fun k b hk => ⟨hk, ht.2⟩

theorem readLoop_between : ∀ (chunks : List Str) (accumulated : Str) {k : κ} {s : St} {f : Frame} {l : Ledger Held},
    J k → I s.pam → Busy s f → Home l s →
    Watched M k (readLoop E accumulated chunks) s (fun k' _ t => Between J I k' t) := by
  intro chunks
  induction chunks with
  | nil => exact fun _ _ _ _ _ hk hI _ _ => ho.op hk rfl fun k b hk => ⟨hk, hI⟩
  | cons chunk chunks ih =>
    intro accumulated k s f l hk hI hb hh
    refine watched_ite (fun _ => ho.op hk rfl fun k b hk => ⟨hk, hI⟩) fun _ => ?_
    refine watched_bind (ho.op hk rfl fun k b hk => ?_)
    have hb := hb.map (fun f => f.readChunk chunk) rfl b (s.now + 1)
    split
    · exact ih _ hk hI hb (hh.of_holdings rfl)
    · exact serveLine_between ho hlogin _ _ hk hI hb (hh.of_holdings rfl)

theorem acceptClient_between {l : Ledger Held} (hk : J k) (hI : I s.pam) (hi : Idle s) (hh : Home l s) :
    Watched M k (acceptClient E) s (fun k' _ t => Between J I k' t) := by
  refine watched_bind (watched_get ?_)
  split
  · exact ho.op hk rfl fun k b hk => ⟨hk, hI⟩
  · refine watched_bind (ho.op hk rfl fun k b hk => watched_bind (watched_bind (ho.op hk rfl fun k b' hk => ?_)))
    refine Watched.seq (readLoop_between ho hlogin _ [] (f := { clientFd := s.nextFd }) hk hI ?_ (hh.of_holdings rfl)) ?_
    · refine ⟨rfl, ?_, hi.fd, Int.lt_succ _, hi.socket⟩
      exact congrArg (· ++ [(⟨s.nextFd, .client, false⟩ : Desc)]) hi.fds
    · intro k _ t ht
      exact ho.op ht.1 rfl fun k b hk => ho.op hk rfl fun k b' hk => ⟨hk, ht.2⟩

/-- one turn: a client may be served, then the greeter is looked after -/
theorem turn_between {l : Ledger Held} (hk : J k) (hI : I s.pam) (hi : Idle s) (hh : Home l s) :
    Watched M k (turn E) s (fun k' _ t => Between J I k' t) := by
  have watch : ∀ {k : κ} {s : St}, J k → I s.pam →
      Watched M k (do watchGreeter E; return true) s (fun k' _ t => Between J I k' t) := by
    intro k s hk hI
    refine Watched.seq (ho.keeps hk hI (Quiet.elsewhere (watchGreeter_quiet E)) ?_) fun k _ t ht => watched_pure ht
    exact watchGreeter_keepsPam ho.greeter
  refine watched_bind (ho.op hk rfl fun k b hk => watched_bind (watched_get ?_))
  refine watched_ite (fun _ => watched_pure ⟨hk, hI⟩) fun _ => watched_bind (watched_get ?_)
  refine watched_bind (ho.op hk rfl fun k b' hk => ?_)
  split
  · exact watched_pure ⟨hk, hI⟩
  · exact watched_pure ⟨hk, hI⟩
  · refine Watched.seq (acceptClient_between ho hlogin hk hI ((hi.tick b _).tick b' _) (hh.of_holdings rfl)) ?_
    exact fun k _ t ht => watch ht.1 ht.2
  · exact watch hk hI

/-- the state at the head of the loop -/
structure Ready (J : κ → Prop) (I : Libpam → Prop) (k : κ) (s : St) : Prop where
  between : Between J I k s
  idle : Idle s
  home : ∃ l, Home l s

theorem turn_ready (hr : Ready J I k s) : Watched M k (turn E) s (fun k' _ t => Ready J I k' t) := by
  obtain ⟨⟨hk, hI⟩, hi, l, hh⟩ := hr
  have hidle : Ends (turn E) s fun _ t => Idle t := Sat.ends (turn_moments E hi) fun _ _ _ h => h.2
  have hhome : Ends (turn E) s fun _ t => ∃ l, Home l t := Sat.ends (turn_ledger hh) fun _ _ _ h => ⟨_, h.2⟩
  refine Watched.mono (Watched.and_sat (Watched.and_sat (turn_between ho hlogin hk hI hi hh) hidle) hhome) ?_
  exact fun k' _ t h => ⟨h.1.1, h.1.2, h.2⟩

theorem run_between (n : ℕ) (hr : Ready J I k s) : Watched M k (run E n) s (fun k' _ _ => J k') := by
  have part : ∀ {x : Sys Unit} {k : κ} {s : St}, J k → Within elsewhere x → Watched M k x s (fun k' _ _ => J k') :=
    fun hk hx => Watched.mono (ho.part hk hx (ends_any _ _)) fun _ _ _ h => h.1
  obtain ⟨⟨hk, hI⟩, hi, l, hh⟩ := hr
  refine watched_bind (ho.op hk rfl fun k b hk => ?_)
  have hi : Idle ((s.setRunning true).tick (s.now + 1)) := hi.tick true _
  have hh : Home l ((s.setRunning true).tick (s.now + 1)) := hh.of_holdings rfl
  -- the first greeter
  have hgreeter : Watched M k (startGreeter E) ((s.setRunning true).tick (s.now + 1))
      (fun k _ t => Ready J I k t) := by
    have hidle : Ends (startGreeter E) ((s.setRunning true).tick (s.now + 1)) fun _ t => Idle t :=
      Sat.ends (startGreeter_quiet E _) fun _ _ _ ht => hi.of_login (same_of_erased ht.2 fun _ => rfl)
    have hhome : Ends (startGreeter E) ((s.setRunning true).tick (s.now + 1)) fun _ t => ∃ l, Home l t :=
      Sat.ends hh.startGreeter fun _ _ _ h => ⟨_, h.2⟩
    have hkeeps := ho.keeps hk (s := (s.setRunning true).tick (s.now + 1)) hI (Quiet.elsewhere (startGreeter_quiet E))
      ho.greeter
    exact Watched.mono (Watched.and_sat (Watched.and_sat hkeeps hidle) hhome) fun _ _ _ h => ⟨h.1.1, h.1.2, h.2⟩
  apply Watched.seq hgreeter
  intro k _ t hr
  refine Watched.seq (q := fun k _ t => Ready J I k t) (watched_loop (fun k _ hr => ho.stops k _ hr.between.1)
    (fun k t hr => ?_) n k t hr) fun k _ t hr => ?_
  · exact Watched.mono (turn_ready ho hlogin hr) fun k b t hr => by split <;> exact hr
  -- the end
  refine watched_bind (watched_bind (ho.op hr.between.1 rfl fun k b hk => ?_))
  refine Watched.mono (part hk (Calm.elsewhere (releaseGreeter_calm E))) fun k _ t hk => ?_
  refine Watched.seq (part hk (Calm.elsewhere (terminate_calm E))) fun k _ t hk => ?_
  refine Watched.seq (part hk (Calm.elsewhere (cleanupIpcSocket_calm E))) fun k _ t hk => ?_
  exact ho.op hk rfl fun k b hk => hk

end Pass

/-- **From every login to every run.** A monitor that asks nothing outside of logins, and accepts every login, accepts
every watched run. -/
theorem history_logins (ho : Outside E M J I) (hlogin : AcceptsLogins E M J I) (hk : J k) (hI : I {}) (n : ℕ) :
    M.accepts k (history E n) := by
  have hsetup : Watched M k (init E) (boot E) (fun k ok t => ok = true → Ready J I k t) := by
    have hidle : Ends (init E) (boot E) fun ok t => ok = true → Idle t :=
      Sat.ends (init_moments E) fun _ _ _ h => h.2
    have hhome : Ends (init E) (boot E) fun _ t => ∃ l, Home l t :=
      Sat.ends ((home_boot E).ledger (init_aside E)) fun _ _ _ h => ⟨_, h.2⟩
    have hpam : Ends (init E) (boot E) fun _ t => I t.pam := Aside.keepsPam (init_aside E) (boot E) hI
    refine Watched.mono (ho.part hk (Scanning.elsewhere (init_scanning E)) ((hidle.and hhome).and hpam)) ?_
    exact fun k ok t h hok => ⟨⟨h.1, h.2.2⟩, h.2.1.1 hok, h.2.1.2⟩
  apply Watched.accepts (q := fun _ _ _ => True)
  refine Watched.seq hsetup fun k ok s hr => watched_ite (fun hok => ?_) fun _ => watched_pure trivial
  exact Watched.mono (run_between ho hlogin n (hr hok)) fun _ _ _ _ => trivial

end Rule

end Miqudm
