/-
The run as a transition system.

`Kept` is a view of the state: the flag `m_running`, where the daemon listens, what it was configured with, the
directories and the files. `Kept.step` is all that one event of `run`, after its entry, can do to it: only the signal
handler clears the flag, only a greeter being started makes directories, only a login writes a file, and nothing changes
the rest. Every part of `run` follows this system (`processMessage_inner`, `watchGreeter_mild`, `turn_follows`,
`shutdown_follows`), and `run` as a whole does after its entry (`run_follows`); the parts within a turn also show none of
the events of the loop itself.
-/
import Miqudm.Daemon.Login

namespace Miqudm

open Miqudm.Core Prog

/-! ## The system -/

/-- what the run keeps, or changes in known ways only -/
structure Kept where
  running : Bool
  socketPath : Str
  greeterCommand : Str
  greeterUser : Str
  loadedPath : Str
  dirs : List Str
  files : Files

def St.kept (s : St) : Kept :=
  ⟨s.running, s.socketPath, s.config.general.greeterCommand, s.config.general.greeterUser, s.config.loadedPath, s.dirs, s.files⟩

def sharedRuntimeDir : Str := lit "/run/miqudm/runtime"

/-- no account was found for the greeter at the instant `n` -/
def NoAccount (E : Env) (greeterUser : Str) (n : ℕ) : Prop := (resolveGreeterUser (E.passwd n) greeterUser).1 = none

/-- the runtime directories of greeters: the shared one is for a greeter without an account -/
inductive RuntimeDir (E : Env) (greeterUser : Str) : Str → Prop where
  | shared {n : ℕ} (h : NoAccount E greeterUser n) : RuntimeDir E greeterUser sharedRuntimeDir
  | ofUser (uid : UInt32) : RuntimeDir E greeterUser (lit "/run/user/" ++ decimal uid.toNat)

/-- one event of the run -/
def Kept.step (E : Env) (k : Kept) (e : Event) (k' : Kept) : Prop :=
  match e with
  | .bind _ _ => False
  | .stop => k' = { k with running := false }
  | .createDirectories path made =>
    (RuntimeDir E k.greeterUser path ∧ made <+: ancestors path) ∧ k' = { k with dirs := k.dirs ++ made }
  | .save path => path = Config.savePath { loadedPath := k.loadedPath } [] ∧
    (k' = k ∨ ∃ text, k' = { k with files := writeFile k.files path text })
  | _ => k' = k

/-- an event within a turn of the loop -/
def Event.inner : Event → Bool
  | .poll _ => false
  | .accept _ => false
  | .read _ => false
  | .received _ => false
  | .served => false
  | .head => false
  | .finished => false
  | _ => true

def Kept.innerStep (E : Env) (k : Kept) (e : Event) (k' : Kept) : Prop := k.step E e k' ∧ e.inner

/-- an event within a turn that writes no file and does not look at the flag -/
def Event.mild (e : Event) : Bool :=
  match e with
  | .save _ => false
  | .readRunning => false
  | e => e.inner

def Kept.mildStep (E : Env) (k : Kept) (e : Event) (k' : Kept) : Prop := k.step E e k' ∧ e.mild

theorem Event.inner_of_mild {e : Event} (h : e.mild) : e.inner := by
  cases e <;> first | rfl | exact h

/-- an event that changes nothing of the view -/
def Event.still : Event → Bool
  | .stop => false
  | .createDirectories _ _ => false
  | .save _ => false
  | .bind _ _ => false
  | _ => true

theorem Kept.step_of_still {E : Env} {e : Event} (he : e.still) (k : Kept) : k.step E e k := by
  cases e <;> first | rfl | cases he

section Parts

variable {E : Env} {α : Type} {x : Sys α}

theorem Mild.inner (h : Follows St.kept (Kept.mildStep E) x) : Follows St.kept (Kept.innerStep E) x :=
  h.mono fun _ _ _ h => ⟨h.1, Event.inner_of_mild h.2⟩

theorem Inner.outer (h : Follows St.kept (Kept.innerStep E) x) : Follows St.kept (Kept.step E) x := h.mono fun _ _ _ h => h.1

variable (E)

/-- an operation from a known state: the signal handler may take the first step -/
theorem op_trail {T : Kept → Event → Kept → Prop} (hstop : ∀ k, T k .stop { k with running := false }) {e : Event}
    {f : St → St} {s : St} (hf : ∀ b, T (s.setRunning b).kept e (f (s.setRunning b)).kept) :
    Sat (op E e f) s (fun l _ t => Trail St.kept T s.kept l t) (fun l _ t => Trail St.kept T s.kept l t) := by
  simp only [op, interfere, sat_bind, sat_get, sat_ite, sat_act, sat_pure]
  constructor
  · exact fun _ => ⟨hstop s.kept, hf false, rfl⟩
  · exact fun _ => ⟨hf s.running, rfl⟩

theorem op_follows {T : Kept → Event → Kept → Prop} (hstop : ∀ k, T k .stop { k with running := false }) {e : Event}
    {f : St → St} (hf : ∀ s, T s.kept e (f s).kept) : Follows St.kept T (op E e f) :=
  fun _ => op_trail E hstop fun _ => hf _

theorem mild_stop (k : Kept) : k.mildStep E .stop { k with running := false } := ⟨rfl, rfl⟩

theorem op_mild {e : Event} (he : e.mild) (hstill : e.still) {f : St → St} (hf : ∀ s, (f s).kept = s.kept) :
    Follows St.kept (Kept.mildStep E) (op E e f) :=
  op_follows E (mild_stop E) fun s => ⟨hf s ▸ Kept.step_of_still hstill _, he⟩

theorem op_id_mild {e : Event} (he : e.mild) (hstill : e.still) : Follows St.kept (Kept.mildStep E) (op E e id) :=
  op_mild E he hstill fun _ => rfl

theorem assign_mild {f : St → St} (hf : ∀ s, (f s).kept = s.kept) : Follows St.kept (Kept.mildStep E) (op E .assign f) :=
  op_mild E rfl rfl hf

theorem onPam_mild (x : PamM α) : Follows St.kept (Kept.mildStep E) (onPam E x) := by
  apply follows_bind
  · exact follows_get_bind fun s => follows_ite (follows_act fun s => mild_stop E s.kept) (follows_pure _)
  · exact fun _ => follows_zoom x (fun _ _ => rfl) fun _ _ => ⟨rfl, rfl⟩

theorem reply_mild (resp : IpcMessage) : Follows St.kept (Kept.mildStep E) (reply E resp) :=
  follows_bind (op_id_mild E rfl rfl) fun _ => follows_get_bind fun _ => follows_ite (follows_halt _) (follows_pure _)

theorem readRunning_inner : Follows St.kept (Kept.innerStep E) (readRunning E) :=
  follows_bind (op_follows E (fun _ => ⟨rfl, rfl⟩) fun _ => ⟨rfl, rfl⟩) fun _ => follows_get_bind fun _ => follows_pure _

theorem isRunning_mild : Follows St.kept (Kept.mildStep E) (isRunning E) :=
  follows_get_bind fun _ => follows_ite (follows_pure _)
    (follows_bind (op_id_mild E rfl rfl) fun _ => follows_pure _)

theorem fork_mild (what : ChildKind) (child : St → ChildAnswers → Child) :
    Follows St.kept (Kept.mildStep E) (fork E what child) :=
  follows_get_bind fun _ => follows_bind (op_id_mild E rfl rfl) fun _ => follows_pure _

theorem killBoth_mild (pid : ℤ) (sig : Signal) : Follows St.kept (Kept.mildStep E) (killBoth E pid sig) :=
  follows_bind (op_id_mild E rfl rfl) fun _ => op_id_mild E rfl rfl

theorem powerCall_mild (action : Str) : Follows St.kept (Kept.mildStep E) (powerCall E action) :=
  follows_ite (follows_get_bind fun _ => follows_bind (op_id_mild E rfl rfl) fun _ => follows_pure _) (follows_pure _)

/-- a mild part from a known state -/
def Leads (x : Sys α) (s : St) : Prop :=
  Sat x s (fun l _ t => Trail St.kept (Kept.mildStep E) s.kept l t) (fun l _ t => Trail St.kept (Kept.mildStep E) s.kept l t)

variable {E}

theorem leads_then {β : Type} {x : Sys β} {f : β → Sys α} {s : St} {c : St → Prop}
    (hx : Sat x s (fun l _ t => Trail St.kept (Kept.mildStep E) s.kept l t ∧ c t)
      (fun l _ t => Trail St.kept (Kept.mildStep E) s.kept l t))
    (hf : ∀ b t, c t → Leads E (f b) t) : Leads E (x >>= f) s := by
  apply (sat_bind x f).2
  apply Sat.mono hx
  · intro l b t h
    exact Sat.mono (hf b t h.2) (fun _ _ _ h' => h.1.append h') (fun _ _ _ h' => h.1.append h')
  · exact fun _ _ _ h => h

theorem Leads.bind {β : Type} {x : Sys β} {f : β → Sys α} {s : St} (hx : Leads E x s)
    (hf : ∀ b, Follows St.kept (Kept.mildStep E) (f b)) : Leads E (x >>= f) s :=
  leads_then (c := fun _ => True) (Sat.mono hx (fun _ _ _ h => ⟨h, trivial⟩) fun _ _ _ h => h) fun b t _ => hf b t

variable (E)

theorem createDirectories_mild {path : Str} {s : St} (h : RuntimeDir E s.config.general.greeterUser path) :
    Leads E (createDirectories E path) s := by
  apply (sat_bind _ _).2
  apply op_trail E (mild_stop E)
  intro b
  exact ⟨⟨⟨h, List.takeWhile_prefix _⟩, rfl⟩, rfl⟩

/-! ## Releasing PAM objects -/

theorem releasePam_mild (pam : PamAuth) : Follows St.kept (Kept.mildStep E) (releasePam E pam) :=
  follows_bind (onPam_mild E _) fun ⟨_, _⟩ => follows_bind (onPam_mild E _) fun ⟨_, _⟩ =>
    follows_bind (onPam_mild E _) fun _ => follows_bind (onPam_mild E _) fun _ => follows_pure _

theorem destroy_mild (old : Option PamAuth) : Follows St.kept (Kept.mildStep E) (destroy E old) := by
  cases old with
  | none => exact follows_pure _
  | some pam => exact follows_bind (onPam_mild E _) fun _ => follows_pure _

theorem releaseGreeterPam_mild : Follows St.kept (Kept.mildStep E) (releaseGreeterPam E) := by
  apply follows_get_bind
  intro s
  split
  · exact follows_bind (releasePam_mild E _) fun _ => assign_mild E fun _ => rfl
  · exact follows_pure _

theorem releaseActivePam_mild : Follows St.kept (Kept.mildStep E) (releaseActivePam E) := by
  apply follows_get_bind
  intro s
  split
  · exact follows_bind (releasePam_mild E _) fun _ => assign_mild E fun _ => rfl
  · exact follows_pure _

/-! ## The greeter -/

theorem renewGreeterPam_mild : Follows St.kept (Kept.mildStep E) (renewGreeterPam E) :=
  follows_get_bind fun _ => follows_bind (assign_mild E fun _ => rfl) fun _ => destroy_mild E _

theorem setGreeterPam_mild (pam : PamAuth) : Follows St.kept (Kept.mildStep E) (setGreeterPam E pam) :=
  assign_mild E fun _ => rfl

theorem openGreeterPam_mild (pam : PamAuth) (vt : ℤ) : Follows St.kept (Kept.mildStep E) (openGreeterPam E pam vt) :=
  follows_bind (onPam_mild E _) fun _ => follows_bind (onPam_mild E _) fun _ =>
    follows_bind (onPam_mild E _) fun _ => follows_bind (onPam_mild E _) fun _ =>
    follows_bind (onPam_mild E _) fun ⟨_, _⟩ => follows_bind (setGreeterPam_mild E _) fun _ =>
    follows_bind (onPam_mild E _) fun ⟨_, _⟩ => setGreeterPam_mild E _

/-- the runtime directory of an account, or the shared one when there is none -/
theorem makeRuntimeDir_mild {pw : Option Passwd} {s : St}
    (hpw : pw = none → ∃ n, NoAccount E s.config.general.greeterUser n) : Leads E (makeRuntimeDir E pw) s := by
  cases pw with
  | some pw =>
    apply (sat_bind _ _).2
    refine Leads.bind ?_ fun _ => follows_pure _
    apply (sat_ite _ _ _).2
    exact ⟨fun _ => createDirectories_mild E (.ofUser _), fun _ => follows_pure _ _⟩
  | none =>
    obtain ⟨n, hn⟩ := hpw rfl
    exact Leads.bind (createDirectories_mild E (.shared hn)) fun _ => follows_pure _

theorem startGreeter_mild : Follows St.kept (Kept.mildStep E) (startGreeter E) := by
  intro s
  -- the configuration is the one the account was looked up with
  have part : ∀ {α β : Type} {x : Sys α} {f : α → Sys β} {t : St}, Follows St.kept (Kept.mildStep E) x →
      Within (calmly apartRuntime) x → apartRuntime s = apartRuntime t →
      (∀ a u, apartRuntime s = apartRuntime u → Leads E (f a) u) → Leads E (x >>= f) t := by
    intro α β x f t hx hcalm ht hf
    refine leads_then (c := fun u => apartRuntime s = apartRuntime u) ?_ hf
    apply Sat.mono (Sat.and (hx t) (hcalm t))
    · exact fun _ _ _ h => ⟨h.1, Eq.trans ht h.2.2⟩
    · exact fun _ _ _ h => h.1
  apply (sat_bind _ _).2
  apply (sat_ite _ _ _).2
  refine ⟨fun _ => follows_pure _ _, fun _ => ?_⟩
  refine part (renewGreeterPam_mild E) (Calm.wider (renewGreeterPam_calm E) fun _ => rfl) rfl fun _ t ht => ?_
  refine part (onPam_mild E _) (Calm.wider (onPam_calm E _) fun _ => rfl) ht fun ⟨ok, pam⟩ t ht => ?_
  refine part (setGreeterPam_mild E _) (Calm.wider (setGreeterPam_calm E pam) fun _ => rfl) ht fun _ t ht => ?_
  refine part (follows_when (openGreeterPam_mild E _ _))
    (Calm.wider (within_when (openGreeterPam_calm E pam _)) fun _ => rfl) ht fun _ t ht => ?_
  have hconfig : s.config = t.config := same_of_erased ht fun _ => rfl
  refine Leads.bind (makeRuntimeDir_mild E fun hpw => ⟨s.now, ?_⟩) fun runtimeDir => ?_
  · rw [NoAccount, ← hconfig]
    exact hpw
  · apply follows_bind (fork_mild E _ _)
    intro r
    cases r with
    | none => exact follows_pure _
    | some pid => exact assign_mild E fun _ => rfl

theorem awaitGreeter_mild : ∀ n, Follows St.kept (Kept.mildStep E) (awaitGreeter E n) := by
  intro n
  induction n with
  | zero => exact follows_pure _
  | succ n ih =>
    exact follows_get_bind fun _ => follows_bind (op_id_mild E rfl rfl) fun _ =>
      follows_ite (follows_bind (op_id_mild E rfl rfl) fun _ => ih) (assign_mild E fun _ => rfl)

theorem stopGreeterProcess_mild (pid : ℤ) : Follows St.kept (Kept.mildStep E) (stopGreeterProcess E pid) :=
  follows_bind (killBoth_mild E _ _) fun _ => follows_bind (awaitGreeter_mild E 20) fun _ =>
    follows_get_bind fun _ => follows_ite (follows_bind (killBoth_mild E _ _) fun _ => follows_get_bind fun _ =>
      follows_bind (op_id_mild E rfl rfl) fun _ => assign_mild E fun _ => rfl) (follows_pure _)

theorem releaseGreeter_mild : Follows St.kept (Kept.mildStep E) (releaseGreeter E) :=
  follows_get_bind fun _ => follows_bind (follows_when (stopGreeterProcess_mild E _)) fun _ =>
    follows_bind (releaseGreeterPam_mild E) fun _ => op_id_mild E rfl rfl

theorem stopGreeter_mild : Follows St.kept (Kept.mildStep E) (stopGreeter E) :=
  follows_bind (op_id_mild E rfl rfl) fun _ => releaseGreeter_mild E

theorem watchGreeter_mild : Follows St.kept (Kept.mildStep E) (watchGreeter E) := by
  refine follows_get_bind fun s => follows_ite ?_ (follows_pure _)
  refine follows_bind (isRunning_mild E) fun running => follows_ite (follows_get_bind fun t => ?_) (follows_pure _)
  apply follows_bind (op_id_mild E rfl rfl)
  intro _
  split
  · exact follows_bind (assign_mild E fun _ => rfl) fun _ => follows_bind (op_id_mild E rfl rfl) fun _ =>
      startGreeter_mild E
  · exact follows_pure _

/-! ## A login and its session -/

theorem setLoginEnv_mild (req : IpcMessage) (pam : PamAuth) :
    Follows St.kept (Kept.mildStep E) (setLoginEnv E req pam) :=
  follows_get_bind fun _ => follows_bind (onPam_mild E _) fun _ => follows_bind (onPam_mild E _) fun _ =>
    follows_bind (onPam_mild E _) fun _ => follows_bind (onPam_mild E _) fun _ =>
    follows_ite (follows_bind (onPam_mild E _) fun _ => follows_bind (onPam_mild E _) fun _ => follows_pure _)
      (follows_pure _)

theorem attempt_mild (req : IpcMessage) : Follows St.kept (Kept.mildStep E) (attempt E req) := by
  have step : ∀ {step : PamM (Bool × PamAuth)} {failure : Str} {next : PamAuth → Sys (Option Str × PamAuth)},
      (∀ pam, Follows St.kept (Kept.mildStep E) (next pam)) →
      Follows St.kept (Kept.mildStep E) (tryStep E step failure next) :=
    fun hnext => follows_bind (onPam_mild E _) fun ⟨_, pam⟩ => follows_ite (follows_pure _) (hnext pam)
  exact step fun pam => step fun pam => step fun pam => step fun pam =>
    follows_bind (setLoginEnv_mild E req pam) fun _ => step fun pam => follows_pure _

/-- the configuration in memory changes before the file does -/
theorem rememberLastUser_inner (req : IpcMessage) : Follows St.kept (Kept.innerStep E) (rememberLastUser E req) := by
  refine follows_get_bind fun s => follows_ite ?_ (follows_pure _)
  refine follows_bind (Mild.inner (assign_mild E fun _ => rfl)) fun _ => ?_
  intro t
  apply (sat_bind _ _).2
  apply op_trail E fun _ => ⟨rfl, rfl⟩
  intro b
  refine ⟨⟨rfl, ?_⟩, rfl⟩
  simp only [Config.save]
  split_ifs
  · exact Or.inr ⟨_, rfl⟩
  · exact Or.inl rfl

theorem setActivePam_mild (pam : PamAuth) : Follows St.kept (Kept.mildStep E) (setActivePam E pam) :=
  follows_get_bind fun _ => follows_bind (assign_mild E fun _ => rfl) fun _ => destroy_mild E _

theorem launch_mild (user : UserInfo) (session : SessionInfo) (pamEnvs : List Str) (vt : ℤ) :
    Follows St.kept (Kept.mildStep E) (launch E user session pamEnvs vt) := by
  refine follows_bind (op_id_mild E rfl rfl) fun _ => follows_bind (isRunning_mild E) fun running => ?_
  refine follows_ite (follows_pure _) (follows_bind (fork_mild E _ _) fun r => ?_)
  cases r with
  | none => exact follows_pure _
  | some pid => exact follows_bind (assign_mild E fun _ => rfl) fun _ => follows_pure _

theorem waitLoop_mild (pid : ℤ) : ∀ n, Follows St.kept (Kept.mildStep E) (waitLoop E pid n) := by
  intro n
  induction n with
  | zero =>
    exact follows_bind (op_id_mild E rfl rfl) fun _ => follows_get_bind fun _ =>
      follows_bind (op_id_mild E rfl rfl) fun _ => follows_bind (assign_mild E fun _ => rfl) fun _ => follows_pure _
  | succ n ih => exact follows_bind (op_id_mild E rfl rfl) fun _ => follows_bind (op_id_mild E rfl rfl) fun _ => ih

theorem waitForExit_mild : Follows St.kept (Kept.mildStep E) (waitForExit E) :=
  follows_get_bind fun _ => follows_ite (follows_pure _) (waitLoop_mild E _ _)

theorem serveSession_inner (req : IpcMessage) (pam : PamAuth) :
    Follows St.kept (Kept.innerStep E) (serveSession E req pam) := by
  refine follows_bind (Mild.inner (stopGreeter_mild E)) fun _ => follows_get_bind fun s => ?_
  apply follows_bind (rememberLastUser_inner E req)
  intro _
  apply follows_bind (Mild.inner (setActivePam_mild E pam))
  intro _
  apply follows_bind (Mild.inner (onPam_mild E _))
  intro pamEnvs
  apply follows_bind (Mild.inner (launch_mild E _ _ _ _))
  intro launched
  refine follows_bind (Mild.inner (follows_when (follows_bind (waitForExit_mild E) fun _ => follows_pure _))) fun _ => ?_
  apply follows_bind (Mild.inner (releaseActivePam_mild E))
  intro _
  exact follows_bind (readRunning_inner E) fun _ => follows_ite (Mild.inner (startGreeter_mild E)) (follows_pure _)

theorem loginStep_inner {step : PamM (Bool × PamAuth)} {failure : Str} {next : PamAuth → Sys Unit}
    (hnext : ∀ pam, Follows St.kept (Kept.innerStep E) (next pam)) :
    Follows St.kept (Kept.innerStep E) (loginStep E step failure next) :=
  follows_bind (Mild.inner (onPam_mild E step)) fun ⟨_, pam⟩ =>
    follows_ite (Mild.inner (follows_bind (reply_mild E _) fun _ => follows_bind (onPam_mild E _) fun _ =>
      follows_pure _)) (hnext pam)

theorem handleLoginRequest_inner (req : IpcMessage) :
    Follows St.kept (Kept.innerStep E) (handleLoginRequest E req) := by
  refine loginStep_inner E fun pam => loginStep_inner E fun pam => loginStep_inner E fun pam =>
    loginStep_inner E fun pam => ?_
  refine follows_bind (Mild.inner (setLoginEnv_mild E req pam)) fun _ => loginStep_inner E fun pam => ?_
  exact follows_bind (Mild.inner (reply_mild E _)) fun _ => serveSession_inner E req pam

theorem cacheSessions_mild : Follows St.kept (Kept.mildStep E) (cacheSessions E) := by
  refine follows_get_bind fun _ => ?_
  split
  · exact follows_halt _
  · exact assign_mild E fun _ => rfl

/-- **A request.** -/
theorem processMessage_inner (req : IpcMessage) : Follows St.kept (Kept.innerStep E) (processMessage E req) := by
  unfold processMessage
  split
  · exact Mild.inner (reply_mild E _)
  · exact Mild.inner (follows_bind (assign_mild E fun _ => rfl) fun _ => follows_get_bind fun _ => reply_mild E _)
  · exact Mild.inner (follows_bind (cacheSessions_mild E) fun _ => follows_get_bind fun _ => reply_mild E _)
  · exact Mild.inner (follows_bind (powerCall_mild E _) fun _ => reply_mild E _)
  · exact handleLoginRequest_inner E req
  · exact Mild.inner (reply_mild E _)

/-! ## Connections and the loop -/

theorem outer_op {e : Event} (hstill : e.still) {f : St → St} (hf : ∀ s, (f s).kept = s.kept) :
    Follows St.kept (Kept.step E) (op E e f) :=
  op_follows E (fun _ => rfl) fun s => hf s ▸ Kept.step_of_still hstill _

theorem serveLine_follows (line rest : Str) : Follows St.kept (Kept.step E) (serveLine E line rest) := by
  refine follows_bind (outer_op E rfl fun _ => rfl) fun _ => ?_
  split
  · exact follows_halt _
  · exact follows_bind (outer_op E rfl fun _ => rfl) fun _ => follows_bind (Inner.outer (processMessage_inner E _))
      fun _ => outer_op E rfl fun _ => rfl

theorem readLoop_follows : ∀ (chunks : List Str) (accumulated : Str),
    Follows St.kept (Kept.step E) (readLoop E accumulated chunks) := by
  intro chunks
  induction chunks with
  | nil => exact fun _ => outer_op E rfl fun _ => rfl
  | cons chunk chunks ih =>
    intro accumulated
    refine follows_ite (outer_op E rfl fun _ => rfl) (follows_bind (outer_op E rfl fun _ => rfl) fun _ => ?_)
    split
    · exact ih _
    · exact serveLine_follows E _ _

theorem handleClientConnection_follows (fd : ℤ) (chunks : List Str) :
    Follows St.kept (Kept.step E) (handleClientConnection E fd chunks) :=
  follows_bind (outer_op E rfl fun _ => rfl) fun _ => follows_bind (readLoop_follows E chunks []) fun _ =>
    outer_op E rfl fun _ => rfl

theorem acceptClient_follows : Follows St.kept (Kept.step E) (acceptClient E) := by
  apply follows_get_bind
  intro s
  split
  · exact outer_op E rfl fun _ => rfl
  · exact follows_bind (outer_op E rfl fun _ => rfl) fun _ => follows_bind (handleClientConnection_follows E _ _)
      fun _ => outer_op E rfl fun _ => rfl

/-- **One turn of the loop.** -/
theorem turn_follows : Follows St.kept (Kept.step E) (turn E) := by
  have watch : Follows St.kept (Kept.step E) (do watchGreeter E; return true) :=
    follows_bind (Inner.outer (Mild.inner (watchGreeter_mild E))) fun _ => follows_pure _
  refine follows_bind (outer_op E rfl fun _ => rfl) fun _ => follows_get_bind fun s => follows_ite (follows_pure _) ?_
  refine follows_get_bind fun t => follows_bind (outer_op E rfl fun _ => rfl) fun _ => ?_
  split
  · exact follows_pure _
  · exact follows_pure _
  · exact follows_bind (acceptClient_follows E) fun _ => watch
  · exact watch

/-! ## The whole run -/

theorem terminateLoop_mild : ∀ n, Follows St.kept (Kept.mildStep E) (terminateLoop E n) := by
  intro n
  induction n with
  | zero => exact follows_pure _
  | succ n ih =>
    exact follows_bind (isRunning_mild E) fun _ => follows_ite (follows_bind (op_id_mild E rfl rfl) fun _ => ih)
      (follows_pure _)

theorem terminate_mild : Follows St.kept (Kept.mildStep E) (terminate E) := by
  have ending : ∀ pid, Follows St.kept (Kept.mildStep E) (do
      killBoth E pid .sigkill
      op E (.waitDone pid (E.waitEnd (← Prog.get).now)) id) :=
    fun pid => follows_bind (killBoth_mild E _ _) fun _ => follows_get_bind fun _ => op_id_mild E rfl rfl
  refine follows_get_bind fun s => follows_ite ?_ (follows_pure _)
  refine follows_bind (killBoth_mild E _ _) fun _ => follows_bind (terminateLoop_mild E 20) fun gone => ?_
  refine follows_bind (follows_when (follows_bind (isRunning_mild E) fun running => follows_when (ending _))) ?_
  exact fun _ => assign_mild E fun _ => rfl

theorem cleanupIpcSocket_mild : Follows St.kept (Kept.mildStep E) (cleanupIpcSocket E) :=
  follows_get_bind fun _ => follows_bind (follows_when (follows_bind (op_mild E rfl rfl fun _ => rfl) fun _ =>
    assign_mild E fun _ => rfl)) fun _ => follows_ite (op_mild E rfl rfl fun _ => rfl) (follows_pure _)

theorem shutdown_follows : Follows St.kept (Kept.step E) (do
    stopGreeter E
    terminate E
    cleanupIpcSocket E
    op E .finished id) := by
  have outer : ∀ {β : Type} {y : Sys β}, Follows St.kept (Kept.mildStep E) y → Follows St.kept (Kept.step E) y :=
    fun h => Inner.outer (Mild.inner h)
  exact follows_bind (outer (stopGreeter_mild E)) fun _ => follows_bind (outer (terminate_mild E)) fun _ =>
    follows_bind (outer (cleanupIpcSocket_mild E)) fun _ => outer_op E rfl fun _ => rfl

/-- at its entry `run` sets the flag -/
def Kept.runStep (k : Kept) (e : Event) (k' : Kept) : Prop :=
  k.step E e k' ∨ (e = .assign ∧ k' = { k with running := true })

/-- **A run.** -/
theorem run_follows (n : ℕ) : Follows St.kept (Kept.runStep E) (run E n) := by
  have outer : ∀ {β : Type} {y : Sys β}, Follows St.kept (Kept.step E) y → Follows St.kept (Kept.runStep E) y :=
    fun h => h.mono fun _ _ _ h => Or.inl h
  refine follows_bind (op_follows E (fun _ => Or.inl rfl) fun s => Or.inr ⟨rfl, rfl⟩) fun _ => ?_
  apply follows_bind (outer (Inner.outer (Mild.inner (startGreeter_mild E))))
  intro _
  exact follows_bind (outer (follows_loop (turn_follows E) n)) fun _ => outer (shutdown_follows E)

end Parts

end Miqudm
