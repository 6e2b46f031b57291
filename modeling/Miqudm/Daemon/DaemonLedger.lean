/-
The books of the daemon.

`daemonLedger` is the ledger of handles over the daemon's events. It follows two objects at most: the greeter's, which
`m_greeter_pam` holds, and that of a login, which is a local of `handle_login_request` and then `m_active_pam`.
`GreeterBooks rest k s` are the books around the greeter's object over the handles `rest` of others. The parts of the
daemon that make no libpam call and leave both members alone are `aside`; for every other part there is a lemma on how
it keeps the books.

`daemon_books` is the result about whole runs: the ledger accepts every watched run, and at the head of the loop it
holds nothing but the greeter's handle, and nothing when `run` returns.
-/
import Miqudm.Daemon.PamLedger
import Miqudm.Daemon.Login

namespace Miqudm

open Miqudm.Core Prog

/-! ## The ledger over events -/

def Event.use : Event → Use Held
  | .pam call => call.use
  | _ => .pass

def noHandles : ℕ → Option Held := fun _ => none

/-- the ledger of handles, which holds none when `run` returns -/
def daemonLedger : Monitor Event St Halt (Ledger Held) where
  step k e := k.step e.use
  good k e _ := (k.good Held.Settled e.use ∧ Single (k.step e.use)) ∧ (e = .finished → k.held = noHandles)

/-- no libpam call, and not the return of `run` -/
def Event.idle : Event → Bool
  | .pam _ => false
  | .finished => false
  | _ => true

theorem Event.use_of_idle {e : Event} (h : e.idle) : e.use = .pass := by
  cases e <;> first | rfl | cases h

theorem Event.ne_finished {e : Event} (h : e.idle) : e ≠ .finished := by
  intro hr
  subst hr
  cases h

section Counting

variable {l : List (Event × St)} {h : ℕ}

/-- an event in the ledger, by the call it makes -/
theorem count_call (f : Use Held → Bool) (g : PamCall → Bool)
    (hf : ∀ e : Event, f e.use = (e.pamCall?.map g).getD false) (l : List (Event × St)) :
    l.countP (fun p => f p.1.use) = (pamCalls (events l)).countP g := by
  induction l with
  | nil => rfl
  | cons p l ih =>
    rw [List.countP_cons, ih, hf, events_cons]
    cases hcall : p.1.pamCall? with
    | none => simp [pamCalls, hcall]
    | some call => simp [pamCalls, hcall, List.countP_cons]

theorem gives_use (h : ℕ) (e : Event) : e.use.gives h = (e.pamCall?.map (· == PamCall.pamEnd h)).getD false := by
  cases e with
  | pam call => exact PamCall.gives_use h call
  | _ => rfl

/-- what the ledger counts as given back are the calls of `pam_end` -/
theorem givesIn_eq (l : List (Event × St)) (h : ℕ) :
    Ledger.givesIn Event.use h l = (pamCalls (events l)).count (.pamEnd h) :=
  count_call (Use.gives h) (· == .pamEnd h) (gives_use h) l

/-- a started handle is one that the ledger counts as taken -/
theorem takesIn_pos {service user wanted : Str} (hstart : .start service user wanted (some h) ∈ pamCalls (events l)) :
    0 < Ledger.takesIn Event.use h l := by
  obtain ⟨e, he, hcall⟩ := List.mem_filterMap.1 hstart
  obtain ⟨p, hp, rfl⟩ := List.mem_map.1 he
  refine List.countP_pos_iff.2 ⟨p, hp, ?_⟩
  cases hevent : p.1 with
  | pam call =>
    rw [hevent] at hcall
    cases hcall
    simp [Event.use, PamCall.use, Use.takes]
  | _ =>
    rw [hevent] at hcall
    cases hcall

/-- a call in the log, with what comes before and after it -/
theorem split_calls {l : List (Event × St)} {pre post : List PamCall} {c : PamCall}
    (h : pamCalls (events l) = pre ++ c :: post) :
    ∃ l1 s l2, l = l1 ++ (.pam c, s) :: l2 ∧ pamCalls (events l1) = pre ∧ pamCalls (events l2) = post := by
  have hcalls : ∀ l : List (Event × St), pamCalls (events l) = l.filterMap fun p => p.1.pamCall? :=
    fun _ => List.filterMap_map
  rw [hcalls] at h
  obtain ⟨l1, l', rfl, hl1, hl'⟩ := List.filterMap_eq_append_iff.1 h
  obtain ⟨l1', ⟨e, s⟩, l2, rfl, hnone, he, hl2⟩ := List.filterMap_eq_cons_iff.1 hl'
  have he : e = .pam c := by
    cases e <;> cases he
    rfl
  have hl1' : (l1'.filterMap fun p => p.1.pamCall?) = [] := List.filterMap_eq_nil_iff.2 hnone
  refine ⟨l1 ++ l1', s, l2, by rw [he, List.append_assoc], ?_, ?_⟩
  · rw [hcalls, List.filterMap_append, hl1, hl1', List.append_nil]
  · rw [hcalls, hl2]

theorem eq_pamEnd {e : Event} {h : ℕ} (he : e.use = .give h) : e = .pam (.pamEnd h) := by
  cases e with
  | pam call => rw [PamCall.use_give he]
  | _ => cases he

/-- the ledger of handles as the library has it -/
def handleLedger : Monitor Event St Halt (Ledger Held) := Ledger.monitor Event.use Held.Settled Single

theorem handleLedger_accepts {k : Ledger Held} (hl : daemonLedger.accepts k l) : handleLedger.accepts k l := by
  have hgood : ∀ k e s, daemonLedger.good k e s → handleLedger.good k e s := fun _ _ _ h => h.1
  have hstep : ∀ k e, daemonLedger.step k e = handleLedger.step k e := fun _ _ => rfl
  exact Monitor.accepts_of_good hstep hgood hl

theorem handleLedger_after (k : Ledger Held) (l : List (Event × St)) :
    handleLedger.after k l = daemonLedger.after k l := rfl

end Counting

/-! ## Parts that make no libpam call -/

/-- what the books are about -/
def holdings (s : St) : Libpam × Option PamAuth × Option PamAuth := (s.pam, s.greeterPam, s.activePam)

theorem holdings_eq {s t : St} (h : holdings s = holdings t) :
    s.pam = t.pam ∧ s.greeterPam = t.greeterPam ∧ s.activePam = t.activePam :=
  ⟨congrArg Prod.fst h, congrArg (fun c => c.2.1) h, congrArg (fun c => c.2.2) h⟩

def aside : Footprint St Event Halt where
  allow e _ := e.idle
  halts _ := True
  rel s t := holdings s = holdings t
  refl _ := rfl
  trans := Eq.trans

section Aside

variable (E : Env)

theorem aside_op {e : Event} (he : e.idle) {f : St → St}
    (hf : ∀ s, holdings ((f s).tick (s.now + 1)) = holdings s) : Within aside (op E e f) :=
  within_bind (within_get_bind fun _ => within_ite (within_act (fun _ => rfl) fun _ => rfl) (within_pure ())) fun _ =>
    within_act (fun _ => he) fun s => (hf s).symm

theorem aside_op_id {e : Event} (he : e.idle) : Within aside (op E e id) := aside_op E he fun _ => rfl

theorem reply_aside (resp : IpcMessage) : Within aside (reply E resp) :=
  within_bind (aside_op_id E rfl) fun _ => within_get_bind fun _ => within_ite (within_halt trivial) (within_pure _)

theorem readRunning_aside : Within aside (readRunning E) :=
  within_bind (aside_op_id E rfl) fun _ => within_get_bind fun _ => within_pure _

theorem isRunning_aside : Within aside (isRunning E) :=
  within_get_bind fun _ => within_ite (within_pure _) (within_bind (aside_op_id E rfl) fun _ => within_pure _)

theorem killBoth_aside (pid : ℤ) (sig : Signal) : Within aside (killBoth E pid sig) :=
  within_bind (aside_op_id E rfl) fun _ => aside_op_id E rfl

theorem fork_aside (what : ChildKind) (child : St → ChildAnswers → Child) : Within aside (fork E what child) :=
  within_get_bind fun _ => within_bind (aside_op_id E rfl) fun _ => within_pure _

theorem powerCall_aside (action : Str) : Within aside (powerCall E action) :=
  within_ite (within_get_bind fun _ => within_bind (aside_op_id E rfl) fun _ => within_pure _) (within_pure _)

theorem createDirectories_aside (path : Str) : Within aside (createDirectories E path) :=
  within_get_bind fun _ => aside_op E rfl fun _ => rfl

theorem makeRuntimeDir_aside (pw : Option Passwd) : Within aside (makeRuntimeDir E pw) := by
  unfold makeRuntimeDir
  split
  · exact within_get_bind fun _ => within_bind (within_when (createDirectories_aside E _)) fun _ => within_pure _
  · exact within_bind (createDirectories_aside E _) fun _ => within_pure _

theorem awaitGreeter_aside : ∀ n, Within aside (awaitGreeter E n) := by
  intro n
  induction n with
  | zero => exact within_pure _
  | succ n ih =>
    exact within_get_bind fun _ => within_bind (aside_op_id E rfl) fun _ =>
      within_ite (within_bind (aside_op_id E rfl) fun _ => ih) (aside_op E rfl fun _ => rfl)

theorem stopGreeterProcess_aside (pid : ℤ) : Within aside (stopGreeterProcess E pid) :=
  within_bind (killBoth_aside E _ _) fun _ => within_bind (awaitGreeter_aside E 20) fun _ => within_get_bind fun _ =>
    within_ite (within_bind (killBoth_aside E _ _) fun _ => within_get_bind fun _ =>
      within_bind (aside_op_id E rfl) fun _ => aside_op E rfl fun _ => rfl) (within_pure _)

theorem rememberLastUser_aside (req : IpcMessage) : Within aside (rememberLastUser E req) :=
  within_get_bind fun _ => within_ite (within_bind (aside_op E rfl fun _ => rfl) fun _ =>
    within_get_bind fun _ => aside_op E rfl fun _ => rfl) (within_pure _)

theorem launch_aside (user : UserInfo) (session : SessionInfo) (pamEnvs : List Str) (vt : ℤ) :
    Within aside (launch E user session pamEnvs vt) := by
  refine within_bind (aside_op_id E rfl) fun _ => within_bind (isRunning_aside E) fun _ => within_ite (within_pure _) ?_
  apply within_bind (fork_aside E _ _)
  intro r
  split
  · exact within_pure _
  · exact within_bind (aside_op E rfl fun _ => rfl) fun _ => within_pure _

theorem waitLoop_aside (pid : ℤ) : ∀ n, Within aside (waitLoop E pid n) := by
  intro n
  induction n with
  | zero =>
    exact within_bind (aside_op_id E rfl) fun _ => within_get_bind fun _ => within_bind (aside_op_id E rfl) fun _ =>
      within_bind (aside_op E rfl fun _ => rfl) fun _ => within_pure _
  | succ n ih => exact within_bind (aside_op_id E rfl) fun _ => within_bind (aside_op_id E rfl) fun _ => ih

theorem waitForExit_aside : Within aside (waitForExit E) :=
  within_get_bind fun _ => within_ite (within_pure _) (waitLoop_aside E _ _)

theorem terminateLoop_aside : ∀ n, Within aside (terminateLoop E n) := by
  intro n
  induction n with
  | zero => exact within_pure _
  | succ n ih =>
    exact within_bind (isRunning_aside E) fun _ =>
      within_ite (within_bind (aside_op_id E rfl) fun _ => ih) (within_pure _)

theorem terminate_aside : Within aside (terminate E) := by
  refine within_get_bind fun s => within_ite ?_ (within_pure _)
  refine within_bind (killBoth_aside E _ _) fun _ => within_bind (terminateLoop_aside E 20) fun gone => ?_
  refine within_bind (within_when ?_) fun _ => aside_op E rfl fun _ => rfl
  refine within_bind (isRunning_aside E) fun _ => within_when (within_bind (killBoth_aside E _ _) fun _ => ?_)
  exact within_get_bind fun _ => aside_op_id E rfl

theorem close_aside (fd : ℤ) : Within aside (close E fd) := aside_op E rfl fun _ => rfl

theorem unlink_aside (path : Str) : Within aside (unlink E path) := aside_op E rfl fun _ => rfl

theorem cleanupIpcSocket_aside : Within aside (cleanupIpcSocket E) :=
  within_get_bind fun _ => within_bind (within_when (within_bind (close_aside E _) fun _ =>
    aside_op E rfl fun _ => rfl)) fun _ => within_ite (unlink_aside E _) (within_pure _)

theorem cacheSessions_aside : Within aside (cacheSessions E) :=
  within_cacheSessions E trivial fun _ => aside_op E rfl fun _ => rfl

theorem init_aside : Within aside (init E) := by
  have abandons : ∀ fd, Within aside (abandonSocket E fd) := fun fd =>
    within_bind (close_aside E fd) fun _ => within_bind (aside_op E rfl fun _ => rfl) fun _ => within_pure _
  refine within_bind (within_loadConfig E trivial (aside_op E rfl fun _ => rfl)) fun _ => ?_
  refine within_bind (aside_op E rfl fun _ => rfl) fun _ => ?_
  refine within_bind (cacheSessions_aside E) fun _ => within_get_bind fun _ => ?_
  refine within_bind (aside_op E rfl fun _ => rfl) fun _ => within_bind (createDirectories_aside E _) fun _ => ?_
  apply within_bind (unlink_aside E _)
  intro _
  refine within_bind (within_get_bind fun _ => within_bind (aside_op E rfl fun s => ?_) fun _ => within_pure _) ?_
  · split_ifs <;> rfl
  refine fun _ => within_ite (within_get_bind fun _ => within_get_bind fun _ => ?_) (within_pure _)
  refine within_bind (aside_op E rfl fun _ => rfl) fun _ => within_ite (abandons _) ?_
  exact within_get_bind fun _ => within_bind (aside_op_id E rfl) fun _ => within_ite (abandons _) (within_pure _)

variable {E}

/-- the ledger does not look at a part that is aside -/
theorem aside_ledger {α : Type} {x : Sys α} (hx : Within aside x) {k : Ledger Held} (hk : Single k) (s : St) :
    Watched daemonLedger k x s (fun k' _ t => k' = k ∧ holdings s = holdings t) := by
  refine Within.watched (J := (· = k)) hx rfl (fun k' e t hk' he _ => ?_) fun _ _ _ _ => trivial
  have hidle : e.idle := he
  have hstep : k'.step e.use = k := by rw [Event.use_of_idle hidle, hk']; rfl
  refine ⟨⟨⟨?_, ?_⟩, fun h => absurd h (Event.ne_finished hidle)⟩, hstep⟩
  · rw [Event.use_of_idle hidle]
    trivial
  · rw [hstep]
    exact hk

end Aside

/-! ## Parts that call libpam -/

def greeterService : Str := lit "miqudm-greeter"

def loginService : Str := lit "miqudm"

/-- the books around the greeter's object, if there is one -/
def GreeterBooks (rest : ℕ → Option Held) (k : Ledger Held) (s : St) : Prop :=
  Books rest greeterService k (s.greeterPam.getD {}) s.pam

section Books

variable {E : Env} {rest : ℕ → Option Held} {wanted : Str} {k : Ledger Held} {self : PamAuth} {s : St}

theorem onPam_ledger {α : Type} {x : PamM α} {R : Ledger Held → α → Libpam → Prop} (hk : Single k)
    (h : Watched pamLedger k x s.pam R) :
    Watched daemonLedger k (onPam E x) s (fun k a t => R k a t.pam ∧ apartPam s = apartPam t) := by
  refine Watched.and_sat ?_ (Sat.mono (onPam_calm E x s) (fun _ _ _ h => h.2) fun _ _ _ _ => trivial)
  have run : ∀ u : St, u.pam = s.pam → Watched daemonLedger k (Prog.zoom St.pam
      (fun p s => { s with pam := p }.tick (s.now + 1)) Event.pam x : Sys α) u (fun k a t => R k a t.pam) := by
    intro u hu
    exact watched_zoom (i := id) (hu ▸ h) (fun _ _ => rfl) (fun _ _ _ h => ⟨h, fun h => by cases h⟩) fun _ _ _ h => h
  refine watched_bind (watched_bind (watched_get (watched_ite (fun _ => ?_) fun _ => watched_pure (run s rfl))))
  exact watched_act ⟨⟨trivial, hk⟩, fun h => by cases h⟩ (run (s.setRunning false) rfl)

theorem Books.of_core (hb : Books rest wanted k self s.pam) (hcore : self.core = (none, false, false)) :
    Books rest wanted k {} s.pam := hb.idle hb.spare {} (congrArg Prod.fst hcore) rfl

theorem end_ledger (hb : Books rest wanted k self s.pam) :
    Watched daemonLedger k (onPam E (self.end_ E.pam)) s (fun k r t => Books rest wanted k r t.pam ∧
      Books rest wanted k {} t.pam ∧ apartPam s = apartPam t) :=
  Watched.mono (onPam_ledger hb.single (end_books hb)) fun _ _ _ h => ⟨h.1.1, h.1.1.of_core h.1.2, h.2⟩

theorem destroy_ledger {old : Option PamAuth} (hb : Books rest wanted k (old.getD {}) s.pam) :
    Watched daemonLedger k (destroy E old) s (fun k _ t => Books rest wanted k {} t.pam ∧ apartPam s = apartPam t) := by
  cases old with
  | none => exact watched_pure ⟨hb, rfl⟩
  | some pam => exact Watched.seq (end_ledger hb) fun _ _ _ h => watched_pure h.2

theorem releasePam_ledger (hb : Books rest wanted k self s.pam) :
    Watched daemonLedger k (releasePam E self) s
      (fun k _ t => Books rest wanted k {} t.pam ∧ apartPam s = apartPam t) := by
  apply Watched.seq (onPam_ledger hb.single (closeSession_books hb))
  intro k ⟨_, pam⟩ t ⟨hb, ht⟩
  apply Watched.seq (onPam_ledger hb.single (deleteCredentials_books hb))
  intro k ⟨_, pam⟩ u ⟨hb, hu⟩
  apply Watched.seq (end_ledger hb)
  intro k pam v hv
  refine Watched.seq (end_ledger hv.1) fun k _ w hw => watched_pure ⟨hw.2.1, ?_⟩
  calc apartPam s = apartPam t := ht
    _ = apartPam u := hu
    _ = apartPam v := hv.2.2
    _ = apartPam w := hw.2.2

/-! ### The greeter -/

/-- an operation that no ledger looks at -/
theorem op_ledger {e : Event} (he : e.idle) (hk : Single k) {f : St → St} {q : Ledger Held → Unit → St → Prop}
    (h : ∀ b, q k () ((f (s.setRunning b)).tick (s.now + 1))) : Watched daemonLedger k (op E e f) s q := by
  have huse : e.use = .pass := Event.use_of_idle he
  have hstep : k.step e.use = k := by rw [huse]; rfl
  refine watched_op E ⟨⟨trivial, hk⟩, fun h => by cases h⟩ rfl fun b => ⟨⟨⟨?_, ?_⟩, ?_⟩, ?_⟩
  · rw [huse]
    trivial
  · rw [hstep]
    exact hk
  · exact fun h => absurd h (Event.ne_finished he)
  · rw [show daemonLedger.step k e = k from hstep]
    exact h b

theorem GreeterBooks.of_holdings {t : St} (hb : GreeterBooks rest k s) (h : holdings s = holdings t) :
    GreeterBooks rest k t := by
  obtain ⟨hpam, hgreeter, -⟩ := holdings_eq h
  rw [GreeterBooks, ← hpam, ← hgreeter]
  exact hb

theorem renewGreeterPam_ledger (hb : GreeterBooks rest k s) :
    Watched daemonLedger k (renewGreeterPam E) s (fun k _ t => Books rest greeterService k {} t.pam ∧
      s.activePam = t.activePam) := by
  refine watched_bind (watched_get (watched_bind (op_ledger rfl hb.single fun b => ?_)))
  refine Watched.mono (destroy_ledger hb) fun k _ t ht => ⟨ht.1, ?_⟩
  exact same_of_erased (p := St.activePam) ht.2 fun _ => rfl

theorem setGreeterPam_ledger (hb : Books rest greeterService k self s.pam) :
    Watched daemonLedger k (setGreeterPam E self) s (fun k _ t => t.greeterPam = some self ∧
      Books rest greeterService k self t.pam ∧ s.activePam = t.activePam) :=
  op_ledger rfl hb.single fun _ => ⟨rfl, hb, rfl⟩

theorem setEnv_ledger (hb : Books rest wanted k self s.pam) (name value : Str) :
    Watched daemonLedger k (onPam E (self.setEnv E.pam name value)) s (fun k _ t => Books rest wanted k self t.pam ∧
      apartPam s = apartPam t) :=
  onPam_ledger hb.single (setEnv_books hb name value)

theorem openGreeterPam_ledger (hb : Books rest greeterService k self s.pam) (vt : ℤ) :
    Watched daemonLedger k (openGreeterPam E self vt) s (fun k _ t => GreeterBooks rest k t ∧
      s.activePam = t.activePam) := by
  apply Watched.seq (setEnv_ledger hb _ _)
  intro k _ t ⟨hb, ht⟩
  apply Watched.seq (setEnv_ledger hb _ _)
  intro k _ u ⟨hb, hu⟩
  apply Watched.seq (setEnv_ledger hb _ _)
  intro k _ v ⟨hb, hv⟩
  apply Watched.seq (setEnv_ledger hb _ _)
  intro k _ w ⟨hb, hw⟩
  have hw : apartPam s = apartPam w :=
    calc apartPam s = apartPam t := ht
      _ = apartPam u := hu
      _ = apartPam v := hv
      _ = apartPam w := hw
  have hw : s.activePam = w.activePam := same_of_erased hw fun _ => rfl
  apply Watched.seq (onPam_ledger hb.single (establishCredentials_books hb))
  intro k ⟨_, pam⟩ x ⟨hb, hx⟩
  have hx : s.activePam = x.activePam := hw.trans (same_of_erased hx fun _ => rfl)
  apply Watched.seq (setGreeterPam_ledger hb)
  intro k _ y ⟨_, hb, hy⟩
  apply Watched.seq (onPam_ledger hb.single (openSession_books hb))
  intro k ⟨_, pam⟩ z ⟨hb, hz⟩
  have hz : s.activePam = z.activePam := (hx.trans hy).trans (same_of_erased hz fun _ => rfl)
  refine Watched.mono (setGreeterPam_ledger hb) fun k _ a ⟨hpam, hb, ha⟩ => ⟨?_, hz.trans ha⟩
  rw [GreeterBooks, hpam]
  exact hb

/-- **Starting a greeter keeps the books.** The old object is ended before the new handle is started. -/
theorem startGreeter_ledger (hb : GreeterBooks rest k s) :
    Watched daemonLedger k (startGreeter E) s (fun k _ t => GreeterBooks rest k t ∧ s.activePam = t.activePam) := by
  refine watched_bind (watched_get (watched_ite (fun _ => watched_pure ⟨hb, rfl⟩) fun _ => ?_))
  apply Watched.seq (renewGreeterPam_ledger hb)
  intro k _ t ⟨hb, ht⟩
  apply Watched.seq (onPam_ledger hb.single (start_books hb hb.spare _))
  intro k ⟨ok, pam⟩ u ⟨hb, hu⟩
  have hu : s.activePam = u.activePam := ht.trans (same_of_erased hu fun _ => rfl)
  apply Watched.seq (setGreeterPam_ledger hb)
  intro k _ v ⟨hpam, hb, hv⟩
  have hb' : GreeterBooks rest k v := by
    rw [GreeterBooks, hpam]
    exact hb
  refine Watched.seq (q := fun k _ t => GreeterBooks rest k t ∧ s.activePam = t.activePam)
    (watched_when (fun _ => ?_) fun _ => ⟨hb', hu.trans hv⟩) fun k _ w ⟨hb, hw⟩ => ?_
  · refine Watched.mono (openGreeterPam_ledger hb _) fun k _ w hw => ⟨hw.1, ?_⟩
    calc s.activePam = u.activePam := hu
      _ = v.activePam := hv
      _ = w.activePam := hw.2
  -- the directory, the fork and the pid
  · refine Watched.mono (aside_ledger (within_bind (makeRuntimeDir_aside E _) fun runtimeDir =>
      within_bind (fork_aside E .greeter _) fun r => ?_) hb.single w) fun k' _ x ⟨hk, hx⟩ => ?_
    · split
      · exact within_pure _
      · exact aside_op E rfl fun _ => rfl
    · rw [hk]
      exact ⟨hb.of_holdings hx, hw.trans (holdings_eq hx).2.2⟩

theorem releaseGreeterPam_ledger (hb : GreeterBooks rest k s) :
    Watched daemonLedger k (releaseGreeterPam E) s (fun k _ t => GreeterBooks rest k t ∧ t.greeterPam = none ∧
      s.activePam = t.activePam) := by
  refine watched_bind (watched_get ?_)
  split
  · case _ pam hpam =>
    have hb : Books rest greeterService k pam s.pam := by
      rw [GreeterBooks, hpam] at hb
      exact hb
    refine Watched.seq (releasePam_ledger hb) fun k _ t ⟨hb, ht⟩ => op_ledger rfl hb.single fun _ => ?_
    exact ⟨hb, rfl, same_of_erased (p := St.activePam) ht fun _ => rfl⟩
  · case _ hpam => exact watched_pure ⟨hb, hpam, rfl⟩

theorem releaseGreeter_ledger (hb : GreeterBooks rest k s) :
    Watched daemonLedger k (releaseGreeter E) s (fun k _ t => GreeterBooks rest k t ∧ t.greeterPam = none ∧
      s.activePam = t.activePam) := by
  refine watched_bind (watched_get (watched_bind ?_))
  apply Watched.mono (aside_ledger (within_when (stopGreeterProcess_aside E _)) hb.single s)
  intro k' _ t ⟨hk, ht⟩
  rw [hk]
  apply Watched.seq (releaseGreeterPam_ledger (hb.of_holdings ht))
  intro k _ u ⟨hb, hnone, hu⟩
  exact op_ledger rfl hb.single fun _ => ⟨hb, hnone, (holdings_eq ht).2.2.trans hu⟩

/-! ### Two objects -/

theorem spare_hold {wanted' : Str} (hne : wanted ≠ wanted') (self : PamAuth) :
    Spare (self.hold noHandles wanted) wanted' := by
  have hold : ∀ {h b}, self.hold noHandles wanted h = some b → self.pamHandle = some h ∧ b.wanted = wanted := by
    intro h b hb
    cases hself : self.pamHandle with
    | none =>
      rw [PamAuth.hold_of_none hself] at hb
      cases hb
    | some n =>
      rw [PamAuth.hold_of_some hself, Function.update_apply] at hb
      split_ifs at hb with heq
      · rw [← Option.some_inj.1 hb, heq]
        exact ⟨rfl, rfl⟩
      · cases hb
  refine ⟨fun h h' b b' hb hb' _ => ?_, fun h b hb => by rw [(hold hb).2]; exact hne⟩
  exact Option.some_inj.1 ((hold hb).1.symm.trans (hold hb').1)

/-- the books of a guest beside the object of the house -/
theorem Books.guest {p : Libpam} (hb : Books noHandles wanted k self p) {wanted' : Str} (hne : wanted ≠ wanted') :
    Books (self.hold noHandles wanted) wanted' k {} p where
  next := hb.next
  held := hb.held
  free := by simp
  fresh := fun h hh => by rw [← hb.held]; exact hb.isFresh h hh
  spare := spare_hold hne self

/-- the two objects change places -/
theorem Books.swap {p : Libpam} {other : PamAuth} {wanted' : Str} (hne : wanted ≠ wanted')
    (hb : Books (self.hold noHandles wanted) wanted' k other p) :
    Books (other.hold noHandles wanted') wanted k self p := by
  have hrest : ∀ h, self.pamHandle = some h → self.hold noHandles wanted h = some (self.status wanted) := by
    intro h hh
    rw [PamAuth.hold_of_some hh, Function.update_self]
  have hapart : ∀ h, self.pamHandle = some h → other.pamHandle ≠ some h := by
    intro h hh hh'
    exact absurd ((hrest h hh).symm.trans (hb.free h hh').1) (by simp)
  have hother : ∀ h, other.pamHandle ≠ some h → other.hold noHandles wanted' h = none := by
    intro h hh
    cases hoth : other.pamHandle with
    | none => rw [PamAuth.hold_of_none hoth, noHandles]
    | some n =>
      rw [PamAuth.hold_of_some hoth, Function.update_of_ne (by rintro rfl; exact hh hoth), noHandles]
  refine ⟨hb.next, ?_, fun h hh => ⟨hother h (hapart h hh), ?_⟩, fun h hh => hother h fun hh' => ?_,
    spare_hold hne.symm other⟩
  · rw [hb.held]
    cases hself : self.pamHandle with
    | none => simp only [PamAuth.hold, hself]
    | some h =>
      cases hoth : other.pamHandle with
      | none => simp only [PamAuth.hold, hself, hoth]
      | some h' =>
        simp only [PamAuth.hold, hself, hoth]
        exact Function.update_comm (fun e => hapart h hself (by rw [hoth, e])) _ _ _
  · by_contra hlt
    exact absurd ((hrest h hh).symm.trans (hb.fresh h (by omega))) (by simp)
  · exact absurd (hb.free h hh').2 (by omega)

/-- the guest has left -/
theorem Books.alone {p : Libpam} {wanted' : Str} (hne : wanted ≠ wanted')
    (hb : Books (self.hold noHandles wanted) wanted' k {} p) : Books noHandles wanted k self p := hb.swap hne

theorem services_ne : greeterService ≠ loginService := by decide

/-! ### A login -/

theorem tryStep_ledger {step : PamM (Bool × PamAuth)} {failure : Str} {next : PamAuth → Sys (Option Str × PamAuth)}
    (hk : Single k) (hstep : Watched pamLedger k step s.pam (fun k r p => Books rest wanted k r.2 p))
    (hnext : ∀ pam k t, Books rest wanted k pam t.pam →
      Watched daemonLedger k (next pam) t (fun k r u => Books rest wanted k r.2 u.pam)) :
    Watched daemonLedger k (tryStep E step failure next) s (fun k r t => Books rest wanted k r.2 t.pam) := by
  apply Watched.seq (onPam_ledger hk hstep)
  intro k ⟨ok, pam⟩ t h
  obtain ⟨hb, -⟩ := h
  exact watched_ite (fun _ => watched_pure hb) fun _ => hnext pam k t hb

theorem setLoginEnv_ledger (hb : Books rest wanted k self s.pam) (req : IpcMessage) :
    Watched daemonLedger k (setLoginEnv E req self) s (fun k _ t => Books rest wanted k self t.pam) := by
  have set : ∀ {k s} name value, Books rest wanted k self s.pam → Watched daemonLedger k
      (onPam E (self.setEnv E.pam name value)) s (fun k _ t => Books rest wanted k self t.pam) :=
    fun name value hb => Watched.mono (setEnv_ledger hb name value) fun _ _ _ h => h.1
  refine watched_bind (watched_get (Watched.seq (set _ _ hb) fun k _ t hb => ?_))
  apply Watched.seq (set _ _ hb)
  intro k _ t hb
  apply Watched.seq (set _ _ hb)
  intro k _ t hb
  refine Watched.seq (set _ _ hb) fun k _ t hb => watched_ite (fun _ => ?_) fun _ => watched_pure hb
  apply Watched.seq (set _ _ hb)
  intro k _ t hb
  exact Watched.seq (set _ _ hb) fun k _ t hb => watched_pure hb

/-- **An attempt keeps the books.** Its handle, with its flags, is that of the object it hands over. -/
theorem attempt_ledger (hb : Books rest loginService k {} s.pam) (req : IpcMessage) :
    Watched daemonLedger k (attempt E req) s (fun k r t => Books rest loginService k r.2 t.pam ∧
      apartPam s = apartPam t) := by
  refine Watched.and_sat ?_ (Sat.mono (attempt_calm E req s) (fun _ _ _ h => h.2) fun _ _ _ _ => trivial)
  apply tryStep_ledger hb.single (start_books hb hb.spare _)
  intro pam k t hb
  apply tryStep_ledger hb.single (authenticate_books hb _)
  intro pam k t hb
  apply tryStep_ledger hb.single (checkAccount_books hb)
  intro pam k t hb
  apply tryStep_ledger hb.single (establishCredentials_books hb)
  intro pam k t hb
  apply Watched.seq (setLoginEnv_ledger hb req)
  intro k _ t hb
  exact tryStep_ledger hb.single (openSession_books hb) fun pam k t hb => watched_pure hb

theorem refuse_ledger (hb : Books rest wanted k self s.pam) (message : Str) :
    Watched daemonLedger k (refuse E message self) s (fun k _ t => Books rest wanted k {} t.pam ∧
      s.greeterPam = t.greeterPam ∧ s.activePam = t.activePam) := by
  apply Watched.seq (aside_ledger (reply_aside E _) hb.single s)
  intro k' _ t ⟨hk, ht⟩
  obtain ⟨hpam, hgreeter, hactive⟩ := holdings_eq ht
  rw [hpam] at hb
  rw [hk]
  refine Watched.seq (end_ledger hb) fun k _ u hu => watched_pure ⟨hu.2.1, ?_, ?_⟩
  · exact hgreeter.trans (same_of_erased hu.2.2 fun _ => rfl)
  · exact hactive.trans (same_of_erased hu.2.2 fun _ => rfl)

/-- between logins: the only handle is the greeter's -/
structure Home (k : Ledger Held) (s : St) : Prop where
  books : GreeterBooks noHandles k s
  active : s.activePam = none

theorem Home.of_holdings {t : St} (hh : Home k s) (h : holdings s = holdings t) : Home k t :=
  ⟨hh.books.of_holdings h, (holdings_eq h).2.2 ▸ hh.active⟩

/-- a part that is aside, between logins -/
theorem Home.ledger (hh : Home k s) {α : Type} {x : Sys α} (hx : Within aside x) :
    Watched daemonLedger k x s (fun k _ t => Home k t) :=
  Watched.mono (aside_ledger hx hh.books.single s) fun k' _ t ⟨hk, ht⟩ => by
    rw [hk]
    exact hh.of_holdings ht

theorem Home.startGreeter (hh : Home k s) : Watched daemonLedger k (startGreeter E) s (fun k _ t => Home k t) :=
  Watched.mono (startGreeter_ledger hh.books) fun _ _ _ h => ⟨h.1, h.2 ▸ hh.active⟩

/-- the object of a login becomes `m_active_pam`; there is no old one to destroy -/
theorem setActivePam_ledger (hb : Books rest wanted k self s.pam) (hactive : s.activePam = none) :
    Watched daemonLedger k (setActivePam E self) s (fun k _ t => Books rest wanted k self t.pam ∧
      t.activePam = some self ∧ s.greeterPam = t.greeterPam) := by
  refine watched_bind (watched_get (watched_bind (op_ledger rfl hb.single fun b => ?_)))
  rw [hactive]
  exact watched_pure ⟨hb, rfl, rfl⟩

theorem releaseActivePam_ledger (hb : Books noHandles wanted k self s.pam) (hactive : s.activePam = some self)
    (hgreeter : s.greeterPam = none) :
    Watched daemonLedger k (releaseActivePam E) s (fun k _ t => Home k t) := by
  refine watched_bind (watched_get ?_)
  rw [hactive]
  refine Watched.seq (releasePam_ledger hb) fun k _ t ⟨hb, ht⟩ => op_ledger rfl hb.single fun _ => ?_
  have hnone : t.greeterPam = none := (same_of_erased (p := St.greeterPam) ht fun _ => rfl).symm.trans hgreeter
  refine ⟨?_, rfl⟩
  show Books noHandles greeterService k (t.greeterPam.getD {}) t.pam
  rw [hnone]
  exact hb.idle ⟨by simp [noHandles], by simp [noHandles]⟩ {} rfl rfl

/-- the session of a login whose object is `self`, up to the end of that object: the greeter's object goes first -/
theorem serveSession_ledger
    (hb : Books ((s.greeterPam.getD {}).hold noHandles greeterService) loginService k self s.pam)
    (hactive : s.activePam = none) (req : IpcMessage) :
    Watched daemonLedger k (serveSession E req self) s (fun k _ t => Home k t) := by
  have hgreeter : GreeterBooks (self.hold noHandles loginService) k s := hb.swap services_ne
  refine watched_bind (watched_bind (op_ledger rfl hb.single fun b => ?_))
  refine Watched.mono (releaseGreeter_ledger hgreeter) ?_
  intro k _ t ⟨hgreeter, hnone, ht⟩
  have hb : Books noHandles loginService k self t.pam := by
    rw [GreeterBooks, hnone] at hgreeter
    exact (hgreeter.alone services_ne.symm)
  have hactive : t.activePam = none := ht ▸ hactive
  refine watched_bind (watched_get (Watched.seq (aside_ledger (rememberLastUser_aside E req) hb.single t)
    fun k' _ u ⟨hk, hu⟩ => ?_))
  rw [hk]
  obtain ⟨hpam, hgreeter, hactive'⟩ := holdings_eq hu
  rw [hpam] at hb
  apply Watched.seq (setActivePam_ledger hb (hactive' ▸ hactive))
  intro k _ v ⟨hb, hactive, hv⟩
  have hnone : v.greeterPam = none := hv ▸ hgreeter ▸ hnone
  apply Watched.seq (onPam_ledger hb.single (getEnvironmentList_books hb))
  intro k pamEnvs w ⟨hb, hw⟩
  have hnone : w.greeterPam = none := (same_of_erased (p := St.greeterPam) hw fun _ => rfl).symm.trans hnone
  have hactive : w.activePam = some self := (same_of_erased (p := St.activePam) hw fun _ => rfl).symm.trans hactive
  -- the session runs and ends
  apply Watched.seq (aside_ledger (launch_aside E _ _ pamEnvs _) hb.single w)
  intro k' launched x ⟨hk, hx⟩
  refine Watched.seq (aside_ledger (within_when (c := launched = true) (within_bind (waitForExit_aside E)
    fun _ => within_pure ())) (hk ▸ hb.single) x) fun k'' _ y ⟨hk', hy⟩ => ?_
  obtain ⟨hpam, hgreeter, hactive'⟩ := holdings_eq (hx.trans hy)
  rw [hpam, ← hk, ← hk'] at hb
  apply Watched.seq (releaseActivePam_ledger hb (hactive' ▸ hactive) (hgreeter ▸ hnone))
  intro k _ z hh
  apply Watched.seq (hh.ledger (readRunning_aside E))
  intro k running a hh
  exact watched_ite (fun _ => hh.startGreeter) fun _ => watched_pure hh

theorem handleLoginRequest_ledger (hh : Home k s) (req : IpcMessage) :
    Watched daemonLedger k (handleLoginRequest E req) s (fun k _ t => Home k t) := by
  rw [handleLoginRequest_eq]
  apply Watched.seq (attempt_ledger (hh.books.guest services_ne) req)
  intro k ⟨failure, pam⟩ t ⟨hb, ht⟩
  have hgreeter : s.greeterPam = t.greeterPam := same_of_erased ht fun _ => rfl
  have hactive : t.activePam = none := (same_of_erased (p := St.activePam) ht fun _ => rfl).symm.trans hh.active
  rw [hgreeter] at hb
  cases failure with
  | some message =>
    refine Watched.mono (refuse_ledger hb message) fun k _ u ⟨hb, hu, hu'⟩ => ⟨?_, hu' ▸ hactive⟩
    rw [GreeterBooks, ← hu]
    exact hb.alone services_ne
  | none =>
    apply Watched.seq (aside_ledger (reply_aside E _) hb.single t)
    intro k' _ u ⟨hk, hu⟩
    obtain ⟨hpam, hgreeter, hactive'⟩ := holdings_eq hu
    rw [hk]
    rw [hpam, hgreeter] at hb
    exact serveSession_ledger hb (hactive' ▸ hactive) req

theorem processMessage_ledger (hh : Home k s) (req : IpcMessage) :
    Watched daemonLedger k (processMessage E req) s (fun k _ t => Home k t) := by
  unfold processMessage
  split
  · exact hh.ledger (reply_aside E _)
  · exact hh.ledger (within_bind (aside_op E rfl fun _ => rfl) fun _ => within_get_bind fun _ => reply_aside E _)
  · exact hh.ledger (within_bind (cacheSessions_aside E) fun _ => within_get_bind fun _ => reply_aside E _)
  · exact hh.ledger (within_bind (powerCall_aside E _) fun _ => reply_aside E _)
  · exact handleLoginRequest_ledger hh req
  · exact hh.ledger (reply_aside E _)

/-! ### Connections and the loop -/

theorem readLoop_ledger : ∀ (chunks : List Str) (accumulated : Str) {k : Ledger Held} {s : St}, Home k s →
    Watched daemonLedger k (readLoop E accumulated chunks) s (fun k _ t => Home k t) := by
  have step : ∀ {e f} {k : Ledger Held} {s : St}, e.idle → (∀ s, holdings ((f s).tick (s.now + 1)) = holdings s) →
      Home k s → Watched daemonLedger k (op E e f) s (fun k _ t => Home k t) :=
    fun he hf hh => hh.ledger (aside_op E he hf)
  intro chunks
  induction chunks with
  | nil => exact fun _ _ _ hh => step rfl (fun _ => rfl) hh
  | cons chunk chunks ih =>
    intro accumulated k s hh
    apply watched_ite (fun _ => step rfl (fun _ => rfl) hh)
    intro _
    refine Watched.seq (step rfl (fun _ => rfl) hh) fun k _ t hh => ?_
    split
    · exact ih _ hh
    · refine Watched.seq (step rfl (fun _ => rfl) hh) fun k _ t hh => ?_
      split
      · exact watched_halt trivial
      · refine Watched.seq (step rfl (fun _ => rfl) hh) fun k _ t hh => ?_
        apply Watched.seq (processMessage_ledger hh _)
        intro k _ t hh
        exact step rfl (fun _ => rfl) hh

theorem acceptClient_ledger (hh : Home k s) :
    Watched daemonLedger k (acceptClient E) s (fun k _ t => Home k t) := by
  refine watched_bind (watched_get ?_)
  split
  · exact hh.ledger (aside_op_id E rfl)
  · refine Watched.seq (hh.ledger (aside_op E rfl fun _ => rfl)) fun k _ t hh => ?_
    refine watched_bind (Watched.seq (hh.ledger (aside_op E rfl fun _ => rfl)) fun k _ t hh => ?_)
    apply Watched.seq (readLoop_ledger _ [] hh)
    intro k _ t hh
    refine Watched.mono (hh.ledger (aside_op E rfl fun _ => rfl)) fun k _ t hh => ?_
    exact hh.ledger (close_aside E _)

theorem watchGreeter_ledger (hh : Home k s) :
    Watched daemonLedger k (watchGreeter E) s (fun k _ t => Home k t) := by
  refine watched_bind (watched_get (watched_ite (fun _ => ?_) fun _ => watched_pure hh))
  apply Watched.seq (hh.ledger (isRunning_aside E))
  intro k running t hh
  refine watched_ite (fun _ => watched_bind (watched_get ?_)) fun _ => watched_pure hh
  apply Watched.seq (hh.ledger (aside_op_id E rfl))
  intro k _ u hh
  split
  · refine Watched.seq (hh.ledger (aside_op E rfl fun _ => rfl)) fun k _ v hh => ?_
    exact Watched.seq (hh.ledger (aside_op_id E rfl)) fun k _ w hh => hh.startGreeter
  · exact watched_pure hh

theorem turn_ledger (hh : Home k s) : Watched daemonLedger k (turn E) s (fun k _ t => Home k t) := by
  have watch : ∀ {k : Ledger Held} {s : St}, Home k s →
      Watched daemonLedger k (do watchGreeter E; return true) s (fun k _ t => Home k t) :=
    fun hh => Watched.seq (watchGreeter_ledger hh) fun k _ t hh => watched_pure hh
  apply Watched.seq (hh.ledger (aside_op_id E rfl))
  intro k _ t hh
  refine watched_bind (watched_get (watched_ite (fun _ => watched_pure hh) fun _ => watched_bind (watched_get ?_)))
  apply Watched.seq (hh.ledger (aside_op_id E rfl))
  intro k _ u hh
  split
  · exact watched_pure hh
  · exact watched_pure hh
  · exact Watched.seq (acceptClient_ledger hh) fun k _ t hh => watch hh
  · exact watch hh

theorem home_boot (E : Env) : Home {} (boot E) where
  books := ⟨rfl, rfl, by simp [boot], fun _ _ => rfl, ⟨by simp [noHandles], by simp [noHandles]⟩⟩
  active := rfl

/-- **The books of whole runs.** Every watched run keeps them, and nothing is held when `run` returns. -/
theorem main_ledger (E : Env) (n : ℕ) : Watched daemonLedger {} (main E n) (boot E) (fun _ _ _ => True) := by
  apply Watched.seq ((home_boot E).ledger (init_aside E))
  intro k ok s hh
  refine watched_ite (fun _ => ?_) fun _ => watched_pure trivial
  refine Watched.seq (hh.ledger (aside_op E rfl fun _ => rfl)) fun k _ s hh => ?_
  apply Watched.seq hh.startGreeter
  intro k _ s hh
  refine Watched.seq (watched_loop (I := Home) (q := fun k _ t => Home k t) (fun _ _ _ => trivial)
    (fun k t hh => ?_) n k s hh) fun k _ s hh => ?_
  · exact Watched.mono (turn_ledger hh) fun k b t hh => by split <;> exact hh
  refine watched_bind (Watched.seq (hh.ledger (aside_op_id E rfl)) fun k _ s hh => ?_)
  apply Watched.mono (releaseGreeter_ledger hh.books)
  intro k _ s ⟨hb, hnone, _⟩
  have hheld : k.held = noHandles := hb.held_of_none (by rw [hnone]; rfl)
  apply Watched.seq (aside_ledger (terminate_aside E) hb.single s)
  intro k' _ t ⟨hk, _⟩
  apply Watched.seq (aside_ledger (cleanupIpcSocket_aside E) (hk ▸ hb.single) t)
  intro k'' _ u ⟨hk', _⟩
  rw [hk', hk]
  exact watched_op E ⟨⟨trivial, hb.single⟩, fun h => by cases h⟩ rfl fun b =>
    ⟨⟨⟨trivial, hb.single⟩, fun _ => hheld⟩, trivial⟩

end Books

end Miqudm
