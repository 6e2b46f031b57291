/-
Where the password of a login is while its session runs.

The password comes with the line that is read, is decoded into the request, and is copied into the `PamUserData` of the
conversation. That copy is wiped and gone before the modules of the next step run. The buffer, the line and the request
are locals of `handle_client_connection`, which waits for the session inside `handle_login_request`, and nothing
overwrites them.

`residue_iff`: at every moment of a running session the request is still in scope, with the line it was decoded from,
and no `PamUserData` is; so nothing holds the password if and only if there is none. `secret_remains` is a run in which
it is there.
-/
import Miqudm.Daemon.Logins

namespace Miqudm.Residue

open Miqudm.Core Prog

/-! ## What holds the password -/

/-- the texts the request has passed through that are in scope: the locals of the connection, and the passwords of the
`PamUserData` objects -/
def inScope (s : St) (f : Frame) : List Str :=
  [f.buffer, f.accumulated, f.line, f.req.password] ++ s.pam.objects.map Prod.snd

/-- no text in scope has the bytes of the password -/
def Wiped (s : St) (f : Frame) : Prop := ∀ text ∈ inScope s f, ¬ (f.req.password ≠ [] ∧ f.req.password <:+: text)

theorem wiped_iff (s : St) (f : Frame) : Wiped s f ↔ f.req.password = [] := by
  constructor
  · intro h
    by_contra hne
    exact h f.req.password (by simp [inScope]) ⟨hne, List.infix_rfl⟩
  · exact fun h _ _ hholds => hholds.1 h

/-! ## The objects of the conversation -/

/-- no `PamUserData` is alive -/
def NoUserData (p : Libpam) : Prop := p.objects = []

/-- a part of `PamAuth` that leaves no object behind -/
def Tidy {α : Type} (x : PamM α) : Prop := ∀ p, NoUserData p → Ends x p fun _ p' => NoUserData p'

section Methods

variable {α β : Type}

theorem tidy_pure (a : α) : Tidy (pure a) := fun _ h => h

theorem tidy_bind {x : PamM β} {f : β → PamM α} (hx : Tidy x) (hf : ∀ b, Tidy (f b)) : Tidy (x >>= f) :=
  fun p hp => Ends.seq (hx p hp) fun b p' hp' => hf b p' hp'

theorem tidy_get_bind {f : Libpam → PamM α} (hf : ∀ p, Tidy (f p)) : Tidy (Prog.get >>= f) :=
  fun p hp => ends_get_bind (hf p p hp)

theorem tidy_ite {c : Prop} [Decidable c] {x y : PamM α} (hx : Tidy x) (hy : Tidy y) : Tidy (if c then x else y) :=
  fun p hp => ends_ite (fun _ => hx p hp) fun _ => hy p hp

/-- a call of libpam -/
theorem tidy_act {c : PamCall} {f : Libpam → Libpam} (hf : ∀ p, (f p).objects = p.objects) : Tidy (Prog.act c f) :=
  fun p hp => ends_act ((hf p).trans hp)

variable (E : PamEnv) (self : PamAuth)

theorem pamRun_tidy (fn : PamFn) (h : ℕ) : Tidy (pamRun E fn h) :=
  tidy_get_bind fun _ => tidy_bind (tidy_act fun _ => rfl) fun _ => tidy_pure _

theorem runStep_tidy (fn : PamFn) (noted : PamAuth) : Tidy (self.runStep E fn noted) := by
  unfold PamAuth.runStep
  split
  · exact tidy_pure _
  · exact tidy_bind (pamRun_tidy E fn _) fun _ => tidy_ite (tidy_pure _) (tidy_pure _)

theorem undoStep_tidy (pending : Bool) (fn : PamFn) (cleared : PamAuth) :
    Tidy (self.undoStep E pending fn cleared) := by
  unfold PamAuth.undoStep
  split
  · exact tidy_pure _
  · exact tidy_ite (tidy_pure _) (tidy_bind (pamRun_tidy E fn _) fun _ => tidy_ite (tidy_pure _) (tidy_pure _))

theorem end_tidy : Tidy (self.end_ E) := by
  have close : ∀ self : PamAuth, Tidy (self.closeOpened E) := fun self =>
    tidy_ite (tidy_bind (undoStep_tidy E self _ _ _) fun _ => tidy_pure _) (tidy_pure _)
  have delete : ∀ self : PamAuth, Tidy (self.deleteSet E) := fun self =>
    tidy_ite (tidy_bind (undoStep_tidy E self _ _ _) fun _ => tidy_pure _) (tidy_pure _)
  unfold PamAuth.end_
  split
  · exact tidy_pure _
  · refine tidy_bind (tidy_bind (close self) fun self => tidy_bind (delete self) fun _ => ?_) fun _ => tidy_pure _
    exact tidy_bind (tidy_act fun _ => rfl) fun _ => tidy_pure _

theorem start_tidy (username serviceName : Str) : Tidy (self.start E username serviceName) := by
  have call : ∀ service user wanted, Tidy (pamStart E service user wanted) := fun _ _ _ =>
    tidy_get_bind fun _ => tidy_ite (tidy_bind (tidy_act fun _ => rfl) fun _ => tidy_pure _)
      (tidy_bind (tidy_act fun _ => rfl) fun _ => tidy_pure _)
  have handle : Tidy (PamAuth.startHandle E username serviceName) :=
    tidy_bind (call _ _ _) fun ⟨_, _⟩ => tidy_ite (call _ _ _) (tidy_pure _)
  exact tidy_bind (end_tidy E self) fun _ => tidy_bind handle fun ⟨_, _⟩ => tidy_ite (tidy_pure _) (tidy_pure _)

theorem setEnv_tidy (name value : Str) : Tidy (self.setEnv E name value) := by
  unfold PamAuth.setEnv
  split
  · exact tidy_pure _
  · exact tidy_bind (tidy_get_bind fun _ => tidy_bind (tidy_act fun _ => rfl) fun _ => tidy_pure _) fun _ => tidy_pure _

theorem getEnvironmentList_tidy : Tidy self.getEnvironmentList := by
  unfold PamAuth.getEnvironmentList
  split
  · exact tidy_pure _
  · exact tidy_get_bind fun _ => tidy_bind (tidy_act fun _ => rfl) fun _ => tidy_pure _

/-- **The object of the conversation** lives no longer than `authenticate`. -/
theorem authenticate_tidy (password : Str) : Tidy (self.authenticate E password) := by
  intro p hp
  unfold PamAuth.authenticate
  split
  · exact ends_pure hp
  · case _ h _ =>
    -- from here on the object is the only one there is
    have only : ∀ {c : PamCall} {f : Libpam → Libpam} {d : ℕ} {p : Libpam}, (∀ p, (f p).objects = p.objects) →
        (∀ o ∈ p.objects, o.1 = d) → Ends (Prog.act c f : PamM Unit) p fun _ p' => ∀ o ∈ p'.objects, o.1 = d :=
      fun hf hp => ends_act (by rw [hf]; exact hp)
    have free : ∀ {d : ℕ} {p : Libpam}, (∀ o ∈ p.objects, o.1 = d) →
        Ends (freeUserData d) p fun _ p' => NoUserData p' := by
      intro d p hp
      refine ends_act (List.filter_eq_nil_iff.2 fun o ho => ?_)
      simpa using hp o ho
    refine Ends.seq (q := fun d p => ∀ o ∈ p.objects, o.1 = d) ?_ fun d p hp => ?_
    · refine ends_get_bind (Ends.seq (ends_act (q := fun _ p' => ∀ o ∈ p'.objects, o.1 = p.nextObject) ?_) ?_)
      · intro o ho
        rw [show p.objects = [] from hp] at ho
        rw [List.mem_singleton.1 ho]
      · exact fun _ _ hp => ends_pure hp
    refine Ends.seq (q := fun _ p => ∀ o ∈ p.objects, o.1 = d) ?_ fun ret p hp => ends_ite (fun _ => ?_) fun _ => ?_
    · exact ends_get_bind (Ends.seq (only (fun _ => rfl) hp) fun _ _ hp => ends_pure hp)
    · exact Ends.seq (free hp) fun _ _ hp => ends_pure hp
    · refine ends_get_bind (Ends.seq (q := fun _ p => ∀ o ∈ p.objects, o.1 = d) ?_ fun ret p hp => ?_)
      · exact ends_get_bind (Ends.seq (only (fun _ => rfl) hp) fun _ _ hp => ends_pure hp)
      refine Ends.seq (q := fun _ p => ∀ o ∈ p.objects, o.1 = d) (ends_when (fun _ => ends_act ?_) fun _ => hp) ?_
      · intro o ho
        obtain ⟨o', ho', rfl⟩ := List.mem_map.1 ho
        split_ifs
        · rfl
        · exact hp o' ho'
      · intro _ p hp
        refine Ends.seq (free hp) fun _ _ hp => ends_ite (fun _ => ends_pure hp) fun _ => ends_pure hp

end Methods

/-! ## The parts of the daemon -/

section Parts

variable {E : Env}

theorem onPam_keeps {α : Type} {x : PamM α} (hx : Tidy x) : KeepsPam NoUserData (onPam E x) := keepsPam_onPam hx

theorem releasePam_keeps (pam : PamAuth) : KeepsPam NoUserData (releasePam E pam) :=
  keepsPam_bind (onPam_keeps (undoStep_tidy E.pam _ _ _ _)) fun ⟨_, pam⟩ =>
    keepsPam_bind (onPam_keeps (undoStep_tidy E.pam pam _ _ _)) fun ⟨_, pam⟩ =>
    keepsPam_bind (onPam_keeps (end_tidy E.pam pam)) fun pam =>
    keepsPam_bind (onPam_keeps (end_tidy E.pam pam)) fun _ => keepsPam_pure _

theorem destroy_keeps (old : Option PamAuth) : KeepsPam NoUserData (destroy E old) := by
  cases old with
  | none => exact keepsPam_pure _
  | some pam => exact keepsPam_bind (onPam_keeps (end_tidy E.pam pam)) fun _ => keepsPam_pure _

/-- an operation that is no call of libpam -/
theorem op_keeps {e : Event} {f : St → St} (hf : ∀ s, (f s).pam = s.pam) : KeepsPam NoUserData (op E e f) :=
  fun s hs => ends_op fun b => by
    show NoUserData (f (s.setRunning b)).pam
    rw [hf]
    exact hs

theorem releaseGreeterPam_keeps : KeepsPam NoUserData (releaseGreeterPam E) := by
  apply keepsPam_get_bind
  intro s
  split
  · exact keepsPam_bind (releasePam_keeps _) fun _ => op_keeps fun _ => rfl
  · exact keepsPam_pure _

theorem releaseActivePam_keeps : KeepsPam NoUserData (releaseActivePam E) := by
  apply keepsPam_get_bind
  intro s
  split
  · exact keepsPam_bind (releasePam_keeps _) fun _ => op_keeps fun _ => rfl
  · exact keepsPam_pure _

theorem setActivePam_keeps (pam : PamAuth) : KeepsPam NoUserData (setActivePam E pam) :=
  keepsPam_get_bind fun _ => keepsPam_bind (op_keeps fun _ => rfl) fun _ => destroy_keeps _

theorem startGreeter_keeps : KeepsPam NoUserData (startGreeter E) := by
  have setEnv : ∀ pam name value, KeepsPam NoUserData (onPam E (PamAuth.setEnv E.pam pam name value)) :=
    fun pam name value => onPam_keeps (setEnv_tidy E.pam pam name value)
  have openPam : ∀ pam vt, KeepsPam NoUserData (openGreeterPam E pam vt) := fun pam vt =>
    keepsPam_bind (setEnv _ _ _) fun _ => keepsPam_bind (setEnv _ _ _) fun _ => keepsPam_bind (setEnv _ _ _) fun _ =>
    keepsPam_bind (setEnv _ _ _) fun _ => keepsPam_bind (onPam_keeps (runStep_tidy E.pam _ _ _)) fun ⟨_, pam⟩ =>
    keepsPam_bind (op_keeps fun _ => rfl) fun _ => keepsPam_bind (onPam_keeps (runStep_tidy E.pam pam _ _)) fun ⟨_, _⟩ =>
    op_keeps fun _ => rfl
  refine keepsPam_get_bind fun s => keepsPam_ite (keepsPam_pure _) ?_
  refine keepsPam_bind (keepsPam_get_bind fun _ => keepsPam_bind (op_keeps fun _ => rfl) fun _ => destroy_keeps _) ?_
  intro _
  refine keepsPam_bind (onPam_keeps (start_tidy E.pam _ _ _)) fun ⟨ok, pam⟩ => ?_
  refine keepsPam_bind (op_keeps fun _ => rfl) fun _ => keepsPam_bind (keepsPam_when (openPam _ _)) fun _ => ?_
  refine keepsPam_bind (Aside.keepsPam (makeRuntimeDir_aside E _)) fun _ => ?_
  apply keepsPam_bind (Aside.keepsPam (fork_aside E _ _))
  intro r
  split
  · exact keepsPam_pure _
  · exact op_keeps fun _ => rfl

theorem stopGreeter_keeps : KeepsPam NoUserData (stopGreeter E) :=
  keepsPam_bind (op_keeps fun _ => rfl) fun _ => keepsPam_get_bind fun _ =>
    keepsPam_bind (Aside.keepsPam (within_when (stopGreeterProcess_aside E _))) fun _ =>
    keepsPam_bind releaseGreeterPam_keeps fun _ => op_keeps fun _ => rfl

theorem attempt_keeps (req : IpcMessage) : KeepsPam NoUserData (attempt E req) := by
  have step : ∀ {step : PamM (Bool × PamAuth)} {failure : Str} {next : PamAuth → Sys (Option Str × PamAuth)},
      Tidy step → (∀ pam, KeepsPam NoUserData (next pam)) → KeepsPam NoUserData (tryStep E step failure next) :=
    fun hstep hnext => keepsPam_bind (onPam_keeps hstep) fun ⟨_, pam⟩ => keepsPam_ite (keepsPam_pure _) (hnext pam)
  have set : ∀ pam name value, KeepsPam NoUserData (onPam E (PamAuth.setEnv E.pam pam name value)) :=
    fun pam name value => onPam_keeps (setEnv_tidy E.pam pam name value)
  refine step (start_tidy E.pam _ _ _) fun pam => step (authenticate_tidy E.pam pam _) fun pam =>
    step (runStep_tidy E.pam pam _ _) fun pam => step (runStep_tidy E.pam pam _ _) fun pam => ?_
  refine keepsPam_bind ?_ fun _ => step (runStep_tidy E.pam pam _ _) fun _ => keepsPam_pure _
  exact keepsPam_get_bind fun _ => keepsPam_bind (set _ _ _) fun _ => keepsPam_bind (set _ _ _) fun _ =>
    keepsPam_bind (set _ _ _) fun _ => keepsPam_bind (set _ _ _) fun _ => keepsPam_ite (keepsPam_bind (set _ _ _) fun _ =>
    keepsPam_bind (set _ _ _) fun _ => keepsPam_pure _) (keepsPam_pure _)

theorem prepare_keeps (req : IpcMessage) (pam : PamAuth) : KeepsPam NoUserData (prepare E req pam) :=
  keepsPam_bind stopGreeter_keeps fun _ => keepsPam_get_bind fun _ =>
    keepsPam_bind (Aside.keepsPam (rememberLastUser_aside E req)) fun _ => keepsPam_bind (setActivePam_keeps pam) fun _ =>
    keepsPam_bind (onPam_keeps (getEnvironmentList_tidy pam)) fun _ => keepsPam_pure _

theorem resume_keeps : KeepsPam NoUserData (resume E) :=
  keepsPam_bind releaseActivePam_keeps fun _ => keepsPam_bind (Aside.keepsPam (readRunning_aside E)) fun _ =>
    keepsPam_ite startGreeter_keeps (keepsPam_pure _)

theorem refuse_keeps (message : Str) (pam : PamAuth) : KeepsPam NoUserData (refuse E message pam) :=
  keepsPam_bind (Aside.keepsPam (reply_aside E _)) fun _ => keepsPam_bind (onPam_keeps (end_tidy E.pam pam)) fun _ =>
    keepsPam_pure _

end Parts

/-! ## The monitor -/

section Session

variable (E : Env)

/-- the connection of a Login is open, with the line that the Login was decoded from -/
def Decoded (s : St) : Prop := ∃ f, s.frame = some f ∧ f.req.type = .login ∧ deserialize E.json f.line = .ok f.req

/-- all that is left of the Login -/
def Holding (s : St) : Prop := Decoded E s ∧ NoUserData s.pam

/-- the session that is running, from its fork until a waitpid has reported its end -/
def runningStep (k : Option ℤ) : Event → Option ℤ
  | .fork .session (some (pid, _)) => some pid
  | .waitDone pid _ => if k = some pid then none else k
  | _ => k

/-- there is one session at a time, and while it is running all that is left of its Login is there -/
def residue : Monitor Event St Halt (Option ℤ) where
  step := runningStep
  good k e s := (k.isSome → e.forksSession = false) ∧ ((runningStep k e).isSome → Holding E s)

variable {E} {k : Option ℤ} {s : St}

theorem residue_outside : Outside E (residue E) (· = none) NoUserData where
  passes k e s hk he := by
    have hstep : runningStep k e = none := by
      unfold runningStep
      split
      · cases he
      · split_ifs <;> first | rfl | exact hk
      · exact hk
    refine ⟨⟨fun _ => he, fun h => ?_⟩, hstep⟩
    rw [hstep] at h
    cases h
  stops _ _ _ := trivial
  greeter := startGreeter_keeps

/-- an operation that touches neither the connection nor libpam -/
theorem residue_op (hh : Holding E s) {e : Event} (he : k.isSome → e.forksSession = false) {f : St → St}
    {q : Option ℤ → Unit → St → Prop}
    (h : ∀ b, Holding E ((f (s.setRunning b)).tick (s.now + 1)) ∧
      q (runningStep k e) () ((f (s.setRunning b)).tick (s.now + 1))) : Watched (residue E) k (op E e f) s q :=
  watched_op E ⟨fun _ => rfl, fun _ => hh⟩ rfl fun b => ⟨⟨he, fun _ => (h b).1⟩, (h b).2⟩

theorem Holding.of_calm {t : St} (hh : Holding E s) (h : apartClock s = apartClock t) : Holding E t := by
  have hframe : s.frame = t.frame := same_of_erased h fun _ => rfl
  have hpam : s.pam = t.pam := same_of_erased h fun _ => rfl
  rw [Holding, Decoded, ← hframe, ← hpam]
  exact hh

/-- what `launch` leaves: a session that is tracked, if there is one -/
def Launched (E : Env) (launched : Bool) (k : Option ℤ) (s : St) : Prop :=
  Holding E s ∧ k = if launched then some s.sessionPid else none

theorem launch_residue (hh : Holding E s) (user : UserInfo) (session : SessionInfo) (pamEnvs : List Str) (vt : ℤ) :
    Watched (residue E) none (launch E user session pamEnvs vt) s (fun k launched t =>
      Launched E launched k t ∧ (launched = true → 0 < t.sessionPid)) := by
  refine watched_bind (residue_op hh (fun h => by cases h) fun b => ⟨hh, ?_⟩)
  have hh : Holding E ((s.setRunning b).tick (s.now + 1)) := hh
  refine Watched.seq (residue_outside.part rfl (Calm.elsewhere (isRunning_calm E)) (calm_ends (isRunning_calm E) _)) ?_
  intro k running t hr
  obtain ⟨rfl, ht⟩ := hr
  have hh := hh.of_calm ht
  refine watched_ite (fun _ => watched_pure ⟨⟨hh, rfl⟩, fun h => by cases h⟩) fun _ => ?_
  refine watched_bind (watched_bind (watched_get (watched_bind
    (residue_op hh (fun h => by cases h) fun b => ⟨hh, watched_pure ?_⟩))))
  have hh : Holding E ((t.setRunning b).tick (t.now + 1)) := hh
  cases E.fork t.now with
  | none => exact watched_pure ⟨⟨hh, rfl⟩, fun h => by cases h⟩
  | some pid => exact watched_bind (residue_op hh (fun _ => rfl) fun b' => ⟨hh, watched_pure ⟨⟨hh, rfl⟩, fun _ => pid.2⟩⟩)

/-- the wait for the session -/
theorem waitLoop_residue (pid : ℤ) : ∀ n s, Holding E s → Watched (residue E) (some pid) (waitLoop E pid n) s
    (fun k _ t => k = none ∧ Holding E t) := by
  intro n
  induction n with
  | zero =>
    intro s hh
    refine watched_bind (residue_op hh (fun _ => rfl) fun b => ⟨hh, watched_bind (watched_get ?_)⟩)
    have hh : Holding E ((s.setRunning b).tick (s.now + 1)) := hh
    refine watched_bind (residue_op hh (fun _ => rfl) fun b' => ⟨hh, ?_⟩)
    have hstep : ∀ status, runningStep (some pid) (.waitDone pid status) = none := fun _ => if_pos rfl
    rw [show runningStep (some pid) (.waiting pid) = some pid from rfl, hstep]
    have hh : Holding E ((((s.setRunning b).tick (s.now + 1)).setRunning b').tick (s.now + 2)) := hh
    exact watched_bind (residue_op hh (fun _ => rfl) fun b' => ⟨hh, watched_pure ⟨rfl, hh⟩⟩)
  | succ n ih =>
    intro s hh
    refine watched_bind (residue_op hh (fun _ => rfl) fun b => ⟨hh, ?_⟩)
    have hh : Holding E ((s.setRunning b).tick (s.now + 1)) := hh
    exact watched_bind (residue_op hh (fun _ => rfl) fun b' => ⟨hh, ih _ hh⟩)

theorem waitForExit_residue (hh : Holding E s) (hpid : 0 < s.sessionPid) :
    Watched (residue E) (some s.sessionPid) (waitForExit E) s (fun k _ t => k = none ∧ Holding E t) := by
  refine watched_bind (watched_get (watched_ite (fun h => ?_) fun _ => waitLoop_residue _ _ s hh))
  exact absurd hpid (Int.not_lt.2 h)

/-- **The session of a login.** -/
theorem serveSession_residue (hd : Decoded E s) (hp : NoUserData s.pam) (req : IpcMessage) (pam : PamAuth) :
    Watched (residue E) none (serveSession E req pam) s (fun k _ t => Between (· = none) NoUserData k t) := by
  rw [serveSession_eq]
  have hends := (prepare_ends (E := E) req pam s).and (prepare_keeps req pam s hp)
  refine Watched.seq (residue_outside.part rfl (prepare_elsewhere req pam) hends) ?_
  intro k p t h
  obtain ⟨rfl, ⟨ht, -⟩, hpam⟩ := h
  -- the session runs, and all that is left of the Login is there
  have hframe : s.frame = t.frame := same_of_erased ht fun _ => rfl
  have hholding : Holding E t := by
    rw [Holding, Decoded, ← hframe]
    exact ⟨hd, hpam⟩
  apply Watched.seq (launch_residue hholding p.user p.session p.pamEnvs p.vt)
  intro k launched u h
  obtain ⟨⟨hu, hk⟩, hpid⟩ := h
  have hwait : Watched (residue E) k (Prog.when launched do
      let _ ← waitForExit E) u (fun k _ t => k = none ∧ Holding E t) := by
    cases launched with
    | false => exact watched_pure ⟨hk, hu⟩
    | true =>
      obtain rfl : k = some u.sessionPid := hk
      exact Watched.seq (waitForExit_residue hu (hpid rfl)) fun k _ t h => watched_pure h
  apply Watched.seq hwait
  intro k _ v h
  obtain ⟨rfl, -, hpam⟩ := h
  exact residue_outside.keeps rfl hpam resume_elsewhere resume_keeps

theorem handleLoginRequest_residue {f : Frame} (ha : Asking E s f) (hp : NoUserData s.pam) :
    Watched (residue E) none (handleLoginRequest E f.req) s (fun k _ t => Between (· = none) NoUserData k t) := by
  rw [handleLoginRequest_eq]
  have hends := (calm_ends (attempt_calm E f.req) s).and (attempt_keeps f.req s hp)
  refine Watched.seq (residue_outside.part rfl (Calm.elsewhere (attempt_calm E f.req)) hends) ?_
  intro k r t h
  obtain ⟨failure, pam⟩ := r
  obtain ⟨rfl, ht, hp⟩ := h
  cases failure with
  | some message => exact residue_outside.keeps rfl hp (refuse_elsewhere message pam) (refuse_keeps message pam)
  | none =>
    refine Watched.seq (residue_outside.part rfl (reply_elsewhere _) (reply_ends _ t)) ?_
    intro k _ u h
    obtain ⟨rfl, hu⟩ := h
    have hpam : t.pam = u.pam := same_of_erased hu fun _ => rfl
    have hu : apartPam s = apartPam u := Eq.trans ht (same_of_erased hu fun _ => rfl)
    have hframe : s.frame = u.frame := same_of_erased hu fun _ => rfl
    exact serveSession_residue ⟨f, hframe ▸ ha.busy.frame, ha.login, ha.line⟩ (hpam ▸ hp) f.req pam

/-- until a waitpid has reported the end of the session, what is left of its Login is there -/
theorem holding_of_running {pid : ℤ} {l l' : List (Event × St)} : (residue E).accepts (some pid) (l ++ l') →
    (∀ q ∈ l, ∀ status, q.1 ≠ .waitDone pid status) → ∀ q ∈ l, Holding E q.2 := by
  induction l with
  | nil => simp
  | cons q l ih =>
    intro haccepts hrunning
    rw [List.forall_mem_cons] at hrunning ⊢
    obtain ⟨⟨hone, hholding⟩, haccepts⟩ := haccepts
    have hstep : runningStep (some pid) q.1 = some pid := by
      unfold runningStep
      split
      · case _ h =>
        rw [h] at hone
        exact absurd (hone rfl) (by simp [Event.forksSession])
      · case _ pid' status h =>
        refine if_neg fun heq => ?_
        rw [← Option.some_inj.1 heq] at h
        exact hrunning.1 status h
      · rfl
    rw [hstep] at hholding
    exact ⟨hholding rfl, ih (hstep ▸ haccepts) hrunning.2⟩

end Session

/-- **What is left while the session runs.** At every moment of every run from the fork of a session until a waitpid
reports its end, the request is in scope with the line it was decoded from, and no `PamUserData` is alive; so nothing in
scope has the password exactly if the password is empty. -/
theorem residue_iff (E : Env) (n : ℕ) {pre mid post : List (Event × St)} {pid : Pid} {child : Child} {u : St}
    (hsplit : history E n = pre ++ (.fork .session (some (pid, child)), u) :: (mid ++ post))
    (hrunning : ∀ q ∈ mid, ∀ status, q.1 ≠ .waitDone pid status) :
    ∀ p ∈ (.fork .session (some (pid, child)), u) :: mid, ∃ f, p.2.frame = some f ∧ f.req.type = .login ∧
      deserialize E.json f.line = .ok f.req ∧ p.2.pam.objects = [] ∧ (Wiped p.2 f ↔ f.req.password = []) := by
  have haccepts : (residue E).accepts none (history E n) :=
    history_logins residue_outside (fun k s f hk hp ha => hk ▸ handleLoginRequest_residue ha hp) rfl rfl n
  rw [hsplit, Monitor.accepts_append, Monitor.accepts_cons] at haccepts
  obtain ⟨-, ⟨-, hfork⟩, hmid⟩ := haccepts
  have hall : ∀ p ∈ (.fork .session (some (pid, child)), u) :: mid, Holding E p.2 := by
    rw [List.forall_mem_cons]
    exact ⟨hfork rfl, holding_of_running hmid hrunning⟩
  intro p hp
  obtain ⟨⟨f, hf, hlogin, hline⟩, hobjects⟩ := hall p hp
  exact ⟨f, hf, hlogin, hline, hobjects, wiped_iff p.2 f⟩

/-! ## Witnesses -/

/-- a login with the password -/
def demo (password : String) : Env :=
  machine [greeterAccount, alice] [] { loginOf "alice" with password := lit password }

/-- a session is forked, and when the daemon waits for it the request with the password is in scope -/
def waitsWith (password : Str) : List (Event × St) → Bool
  | (.fork .session (some _), _) :: (.assign, _) :: (.waiting _, w) :: _ =>
    (w.frame.map fun f => f.req.password) = some password
  | _ => false

theorem demo_waits (password : String) {m : ℕ} (h : waitsWith (lit password) ((history (demo password) 1).drop m) = true) :
    ∃ pre post pid child u v pid' w f,
      history (demo password) 1 =
        pre ++ (.fork .session (some (pid, child)), u) :: ([(.assign, v), (.waiting pid', w)] ++ post) ∧
      w.frame = some f ∧ f.req.password = lit password := by
  have hsplit := List.take_append_drop m (history (demo password) 1)
  unfold waitsWith at h
  split at h
  · case _ r u v pid' w post hdrop =>
    obtain ⟨pid, child⟩ := r
    obtain ⟨f, hf, hpassword⟩ := Option.map_eq_some_iff.1 (of_decide_eq_true h)
    refine ⟨(history (demo password) 1).take m, post, pid, child, u, v, pid', w, f, ?_, hf, hpassword⟩
    rw [hdrop] at hsplit
    exact hsplit.symm
  · cases h

/-- nothing in between says that the session has ended -/
theorem running_of_waits (v : St) (pid : ℤ) (w : St) :
    ∀ q ∈ [(Event.assign, v), (.waiting pid, w)], ∀ pid' status, q.1 ≠ .waitDone pid' status := by
  simp

/-- a login without a password: nothing has it while the daemon waits for the session -/
theorem residue_iff_empty : ∃ p ∈ history (demo "") 1, ∃ pid f, p.1 = .waiting pid ∧ p.2.frame = some f ∧
    Wiped p.2 f := by
  obtain ⟨pre, post, pid, child, u, v, pid', w, f, hsplit, hf, hpassword⟩ :=
    demo_waits "" (m := 103) (by decide +kernel)
  have hmem : (Event.waiting pid', w) ∈ [(Event.assign, v), (.waiting pid', w)] := by simp
  obtain ⟨g, hg, -, -, -, hwiped⟩ := residue_iff (demo "") 1 hsplit
    (fun q hq status => running_of_waits v pid' w q hq pid status) _ (List.mem_cons_of_mem _ hmem)
  obtain rfl : f = g := Option.some_inj.1 (hf.symm.trans hg)
  refine ⟨(.waiting pid', w), ?_, pid', f, rfl, hf, hwiped.2 hpassword⟩
  rw [hsplit]
  simp

/-- the request still has the password while the daemon waits for the session -/
theorem secret_remains : ¬ ∀ (E : Env) (n : ℕ) (pre mid post : List (Event × St)) (pid : Pid) (child : Child) (u : St),
    history E n = pre ++ (.fork .session (some (pid, child)), u) :: (mid ++ post) →
    (∀ q ∈ mid, ∀ status, q.1 ≠ .waitDone pid status) →
    ∀ p ∈ (.fork .session (some (pid, child)), u) :: mid, ∀ f, p.2.frame = some f → Wiped p.2 f := by
  intro h
  obtain ⟨pre, post, pid, child, u, v, pid', w, f, hsplit, hf, hpassword⟩ :=
    demo_waits "secret" (m := 104) (by decide +kernel)
  have hmem : (Event.waiting pid', w) ∈ [(Event.assign, v), (.waiting pid', w)] := by simp
  have hwiped := h (demo "secret") 1 pre _ post pid child u hsplit
    (fun q hq status => running_of_waits v pid' w q hq pid status) _ (List.mem_cons_of_mem _ hmem) f hf
  refine hwiped f.req.password (by simp [inScope]) ⟨?_, List.infix_rfl⟩
  rw [hpassword]
  decide

end Miqudm.Residue
