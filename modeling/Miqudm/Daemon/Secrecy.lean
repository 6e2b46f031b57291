/-
What a password has an influence on.

An onlooker sees everything of a run but the passwords: the replies, the calls of libpam with their results, every child
with its arguments, environment and credentials, the configuration files, the signals and the pauses. Hidden from him are
what libpam is answered in `pam_authenticate`, the `PamUserData` objects, and the texts that hold a request
(`St.masked`, `Event.masked`).

`E.hearing texts` are the same surroundings with other texts of the clients. `passwords_unseen`: when these differ in the
passwords of requests only, the onlooker sees the same run. So beyond what libpam makes of it, which the surroundings fix,
the daemon does not let anything depend on a password; that it is empty is taken to be known.
-/
import Miqudm.Core.Alike
import Miqudm.Daemon.Daemon

namespace Miqudm.Secrecy

open Miqudm.Core Prog

/-! ## What an onlooker sees -/

def mask (req : IpcMessage) : IpcMessage := { req with password := [] }

/-- the texts of a connection are hidden, and so is the password of its request -/
def maskFrame (f : Frame) : Frame := { f with buffer := [], accumulated := [], line := [], req := mask f.req }

def maskPam (p : Libpam) : Libpam := { p with objects := p.objects.map fun o => (o.1, []) }

def maskCall : PamCall → PamCall
  | .run (.authenticate _) h ok => .run (.authenticate none) h ok
  | call => call

def maskState (s : St) : St := { s with pam := maskPam s.pam, frame := s.frame.map maskFrame }

def maskEvent : Event → Event
  | .pam call => .pam (maskCall call)
  | .read _ => .read []
  | .received req => .received (mask req)
  | e => e

def onlooker : Observer St Event := ⟨maskState, maskEvent⟩

def pamOnlooker : Observer Libpam PamCall := ⟨maskPam, maskCall⟩

/-! ## libpam -/

section Pam

variable (E : PamEnv)

theorem pamStart_alike (service user wanted : Str) :
    Alike pamOnlooker (pamStart E service user wanted) (pamStart E service user wanted) :=
  alike_read (fun _ => rfl) fun _ => alike_ite
    (alike_bind (alike_act fun _ => rfl) fun _ => alike_pure _)
    (alike_bind (alike_act fun _ => rfl) fun _ => alike_pure _)

theorem pamSetConv_alike (h data : ℕ) : Alike pamOnlooker (pamSetConv E h data) (pamSetConv E h data) :=
  alike_read (fun _ => rfl) fun _ => alike_bind (alike_act fun _ => rfl) fun _ => alike_pure _

theorem pamRun_alike {fn fn' : PamFn} (hfn : ∀ h ok, maskCall (.run fn h ok) = maskCall (.run fn' h ok)) (h : ℕ) :
    Alike pamOnlooker (pamRun E fn h) (pamRun E fn' h) := by
  refine alike_read (fun _ => rfl) fun p => alike_bind (alike_acts (k := fun q => q.onHandle h fun hd => { hd with
    env := (E.modules p.calls).foldl putEntry hd.env }) (hfn _ _) (fun _ => rfl) fun _ => rfl) ?_
  exact fun _ => alike_pure _

/-- the functions that are not told the password -/
theorem untold_alike {fn : PamFn} (h : ℕ) : Alike pamOnlooker (pamRun E fn h) (pamRun E fn h) :=
  pamRun_alike E (fun _ _ => rfl) h

theorem told_alike (password password' : Option Str) (h : ℕ) :
    Alike pamOnlooker (pamRun E (.authenticate password) h) (pamRun E (.authenticate password') h) := by
  apply pamRun_alike
  exact fun _ _ => rfl

theorem pamPutenv_alike (h : ℕ) (entry : Str) : Alike pamOnlooker (pamPutenv E h entry) (pamPutenv E h entry) :=
  alike_read (fun _ => rfl) fun _ => alike_bind (alike_act fun _ => rfl) fun _ => alike_pure _

theorem pamGetenvlist_alike (h : ℕ) : Alike pamOnlooker (pamGetenvlist h) (pamGetenvlist h) :=
  alike_read (fun _ => rfl) fun _ => alike_bind (alike_act fun _ => rfl) fun _ => alike_pure _

theorem pamEnd_alike (h : ℕ) : Alike pamOnlooker (pamEnd h) (pamEnd h) := alike_act fun _ => rfl

/-- the objects are numbered alike -/
theorem newUserData_alike (password password' : Str) :
    Alike pamOnlooker (newUserData password) (newUserData password') := by
  refine alike_read (fun _ => rfl) fun p => alike_bind (alike_acts (k := fun q => { q with
    nextObject := p.nextObject + 1, objects := (p.nextObject, []) :: q.objects }) rfl (fun _ => rfl) fun _ => rfl) ?_
  exact fun _ => alike_pure _

theorem wipeUserData_alike (d : ℕ) : Alike pamOnlooker (wipeUserData d) (wipeUserData d) := by
  have hwiped : ∀ p : Libpam, maskPam { p with objects := p.objects.map fun o => if o.1 = d then (d, []) else o } =
      maskPam p := by
    intro p
    refine congrArg (fun objects => { p with objects := objects }) ?_
    rw [List.map_map]
    refine List.map_congr_left fun o _ => ?_
    by_cases ho : o.1 = d <;> simp [ho]
  exact alike_acts (k := id) rfl hwiped hwiped

theorem freeUserData_alike (d : ℕ) : Alike pamOnlooker (freeUserData d) (freeUserData d) := by
  refine alike_act fun p => ?_
  have hobjects : ((p.objects.filter fun o => o.1 ≠ d).map fun o => (o.1, ([] : Str))) =
      (p.objects.map fun o => (o.1, [])).filter fun o => o.1 ≠ d := by
    rw [List.filter_map]
    rfl
  exact congrArg (fun objects => { p with objects := objects }) hobjects

end Pam

section PamAuth

variable (E : PamEnv) (self : PamAuth)

theorem runStep_alike (fn : PamFn) (noted : PamAuth) :
    Alike pamOnlooker (self.runStep E fn noted) (self.runStep E fn noted) := by
  unfold PamAuth.runStep
  split
  · exact alike_pure _
  · exact alike_bind (untold_alike E _) fun _ => alike_ite (alike_pure _) (alike_pure _)

theorem undoStep_alike (pending : Bool) (fn : PamFn) (cleared : PamAuth) :
    Alike pamOnlooker (self.undoStep E pending fn cleared) (self.undoStep E pending fn cleared) := by
  unfold PamAuth.undoStep
  split
  · exact alike_pure _
  · exact alike_ite (alike_pure _) (alike_bind (untold_alike E _) fun _ => alike_ite (alike_pure _) (alike_pure _))

theorem end_alike : Alike pamOnlooker (self.end_ E) (self.end_ E) := by
  have hclose : Alike pamOnlooker (self.closeOpened E) (self.closeOpened E) :=
    alike_ite (alike_bind (undoStep_alike E self _ _ _) fun _ => alike_pure _) (alike_pure _)
  have hdelete : ∀ self : PamAuth, Alike pamOnlooker (self.deleteSet E) (self.deleteSet E) := fun self =>
    alike_ite (alike_bind (undoStep_alike E self _ _ _) fun _ => alike_pure _) (alike_pure _)
  unfold PamAuth.end_
  split
  · exact alike_pure _
  · refine alike_bind (alike_bind hclose fun self => alike_bind (hdelete self) fun self => ?_) fun _ => alike_pure _
    exact alike_bind (pamEnd_alike _) fun _ => alike_pure _

theorem start_alike (username serviceName : Str) :
    Alike pamOnlooker (self.start E username serviceName) (self.start E username serviceName) := by
  have handle : Alike pamOnlooker (PamAuth.startHandle E username serviceName)
      (PamAuth.startHandle E username serviceName) :=
    alike_bind (pamStart_alike E _ _ _) fun _ => alike_ite (pamStart_alike E _ _ _) (alike_pure _)
  exact alike_bind (end_alike E self) fun self => alike_bind handle fun _ => alike_ite (alike_pure _) (alike_pure _)

/-- **Where the password goes.** -/
theorem authenticate_alike {password password' : Str} (h : password = [] ↔ password' = []) :
    Alike pamOnlooker (self.authenticate E password) (self.authenticate E password') := by
  unfold PamAuth.authenticate
  split
  · exact alike_pure _
  · refine alike_bind (newUserData_alike _ _) fun d => alike_bind (pamSetConv_alike E _ _) fun ret => ?_
    refine alike_ite (alike_bind (freeUserData_alike _) fun _ => alike_pure _) ?_
    refine alike_get_bind fun p q _ => alike_bind (told_alike E _ _ _) fun ret => ?_
    refine alike_bind (alike_tests (not_congr h) (wipeUserData_alike _) (alike_pure _)) fun _ => ?_
    exact alike_bind (freeUserData_alike _) fun _ => alike_ite (alike_pure _) (alike_pure _)

theorem getEnvironmentList_alike : Alike pamOnlooker self.getEnvironmentList self.getEnvironmentList := by
  unfold PamAuth.getEnvironmentList
  split
  · exact alike_pure _
  · exact pamGetenvlist_alike _

theorem setEnv_alike (name value : Str) :
    Alike pamOnlooker (self.setEnv E name value) (self.setEnv E name value) := by
  unfold PamAuth.setEnv
  split
  · exact alike_pure _
  · exact alike_bind (pamPutenv_alike E _ _) fun _ => alike_pure _

end PamAuth

/-! ## The daemon hearing other texts -/

/-- the same surroundings with other clients -/
def hearing (E : Env) (texts : ℕ → Option (List Str)) : Env := { E with accept := texts }

/-- the onlooker cannot tell which texts the clients send -/
abbrev Blind (E : Env) (texts : ℕ → Option (List Str)) {α : Type} (x : Env → Sys α) : Prop :=
  Alike onlooker (x E) (x (hearing E texts))

section Parts

variable (E : Env) (texts : ℕ → Option (List Str))

theorem interfere_blind : Blind E texts interfere :=
  alike_read (fun _ => rfl) fun _ => alike_ite (alike_act fun _ => rfl) (alike_pure ())

theorem ops_blind {e e' : Event} {f g k : St → St} (he : maskEvent e = maskEvent e')
    (hf : ∀ s, maskState (f s) = k (maskState s)) (hg : ∀ s, maskState (g s) = k (maskState s)) :
    Alike onlooker (op E e f) (op (hearing E texts) e' g) := by
  refine alike_bind (interfere_blind E texts) fun _ =>
    alike_acts (k := fun s => (k s).tick (s.now + 1)) he (fun s => ?_) fun s => ?_
  · exact congrArg (St.tick · (s.now + 1)) (hf s)
  · exact congrArg (St.tick · (s.now + 1)) (hg s)

theorem op_blind {e : Event} {f : St → St} (hf : ∀ s, maskState (f s) = f (maskState s)) :
    Blind E texts fun E => op E e f := ops_blind E texts rfl hf hf

theorem onPam_blind {α : Type} {x y : PamM α} (h : Alike pamOnlooker x y) :
    Alike onlooker (onPam E x) (onPam (hearing E texts) y) := by
  refine alike_bind (interfere_blind E texts) fun _ => alike_zoom h ?_ ?_ ?_
  · exact fun s t hst => congrArg St.pam hst
  · exact fun e e' he => congrArg Event.pam he
  · intro p q s t hpq hst
    have hpq : maskPam p = maskPam q := hpq
    have hst : maskState s = maskState t := hst
    show St.tick { maskState s with pam := maskPam p } ((maskState s).now + 1) =
      St.tick { maskState t with pam := maskPam q } ((maskState t).now + 1)
    rw [hpq, hst]

/-- what a child does with the state is not for the onlooker to see, but it does not use what is hidden -/
theorem fork_blind {what : ChildKind} {child child' : St → ChildAnswers → Child}
    (hseen : ∀ s, child' (maskState s) = child' s) (hsame : ∀ s, child' s = child s) :
    Alike onlooker (fork E what child) (fork (hearing E texts) what child') := by
  refine alike_read (fun s => ?_) fun s => alike_bind ?_ fun _ => alike_pure _
  · have hs : child' (onlooker.state s) = child' s := hseen s
    rw [hs]
    rfl
  · rw [hsame s]
    exact op_blind E texts fun _ => rfl

theorem reply_blind (resp : IpcMessage) : Blind E texts fun E => reply E resp :=
  alike_bind (op_blind E texts fun _ => rfl) fun _ => alike_read (fun _ => rfl) fun _ =>
    alike_ite (alike_halt _) (alike_pure _)

theorem cacheSessions_blind : Blind E texts cacheSessions := by
  refine alike_read (fun _ => rfl) fun s => ?_
  have hlisting : (hearing E texts).listing = E.listing := rfl
  rw [hlisting]
  cases scanAll (E.listing s.now) with
  | none => exact alike_halt _
  | some sessions => exact op_blind E texts fun _ => rfl

theorem readRunning_blind : Blind E texts readRunning :=
  alike_bind (op_blind E texts fun _ => rfl) fun _ => alike_read (fun _ => rfl) fun _ => alike_pure _

theorem createDirectories_blind (path : Str) : Blind E texts fun E => createDirectories E path :=
  alike_read (fun _ => rfl) fun _ => op_blind E texts fun _ => rfl

theorem close_blind (fd : ℤ) : Blind E texts fun E => close E fd := op_blind E texts fun _ => rfl

theorem unlink_blind (path : Str) : Blind E texts fun E => unlink E path := op_blind E texts fun _ => rfl

/-! ### Children -/

theorem isRunning_blind : Blind E texts isRunning :=
  alike_read (fun _ => rfl) fun _ => alike_ite (alike_pure _)
    (alike_bind (op_blind E texts fun _ => rfl) fun _ => alike_pure _)

theorem killBoth_blind (pid : ℤ) (sig : Signal) : Blind E texts fun E => killBoth E pid sig :=
  alike_bind (op_blind E texts fun _ => rfl) fun _ => op_blind E texts fun _ => rfl

theorem terminateLoop_blind : ∀ n, Blind E texts fun E => terminateLoop E n := by
  intro n
  induction n with
  | zero => exact alike_pure _
  | succ n ih =>
    exact alike_bind (isRunning_blind E texts) fun _ =>
      alike_ite (alike_bind (op_blind E texts fun _ => rfl) fun _ => ih) (alike_pure _)

theorem terminate_blind : Blind E texts terminate := by
  refine alike_read (fun _ => rfl) fun s => alike_ite ?_ (alike_pure _)
  refine alike_bind (killBoth_blind E texts _ _) fun _ => alike_bind (terminateLoop_blind E texts 20) fun gone => ?_
  refine alike_bind (alike_when ?_) fun _ => op_blind E texts fun _ => rfl
  refine alike_bind (isRunning_blind E texts) fun _ => alike_when ?_
  exact alike_bind (killBoth_blind E texts _ _) fun _ => alike_read (fun _ => rfl) fun _ =>
    op_blind E texts fun _ => rfl

theorem waitLoop_blind (pid : ℤ) : ∀ n, Blind E texts fun E => waitLoop E pid n := by
  intro n
  induction n with
  | zero =>
    refine alike_bind (op_blind E texts fun _ => rfl) fun _ => alike_read (fun _ => rfl) fun _ => ?_
    exact alike_bind (op_blind E texts fun _ => rfl) fun _ => alike_bind (op_blind E texts fun _ => rfl) fun _ =>
      alike_pure _
  | succ n ih =>
    exact alike_bind (op_blind E texts fun _ => rfl) fun _ => alike_bind (op_blind E texts fun _ => rfl) fun _ => ih

theorem waitForExit_blind : Blind E texts waitForExit :=
  alike_read (fun _ => rfl) fun _ => alike_ite (alike_pure _) (waitLoop_blind E texts _ _)

theorem launch_blind (user : UserInfo) (session : SessionInfo) (pamEnvs : List Str) (vt : ℤ) :
    Blind E texts fun E => launch E user session pamEnvs vt := by
  refine alike_bind (op_blind E texts fun _ => rfl) fun _ => alike_bind (isRunning_blind E texts) fun _ => ?_
  refine alike_ite (alike_pure _) (alike_bind (fork_blind E texts (fun _ => rfl) fun _ => rfl) fun r => ?_)
  cases r with
  | none => exact alike_pure _
  | some pid => exact alike_bind (op_blind E texts fun _ => rfl) fun _ => alike_pure _

/-! ### PAM objects and the greeter -/

theorem releasePam_blind (pam : PamAuth) : Blind E texts fun E => releasePam E pam :=
  alike_bind (onPam_blind E texts (undoStep_alike _ _ _ _ _)) fun _ =>
    alike_bind (onPam_blind E texts (undoStep_alike _ _ _ _ _)) fun _ =>
    alike_bind (onPam_blind E texts (end_alike _ _)) fun _ =>
    alike_bind (onPam_blind E texts (end_alike _ _)) fun _ => alike_pure _

theorem destroy_blind (old : Option PamAuth) : Blind E texts fun E => destroy E old := by
  cases old with
  | some pam => exact alike_bind (onPam_blind E texts (end_alike _ _)) fun _ => alike_pure _
  | none => exact alike_pure _

theorem renewGreeterPam_blind : Blind E texts renewGreeterPam :=
  alike_read (fun _ => rfl) fun _ => alike_bind (op_blind E texts fun _ => rfl) fun _ => destroy_blind E texts _

theorem setGreeterPam_blind (pam : PamAuth) : Blind E texts fun E => setGreeterPam E pam :=
  op_blind E texts fun _ => rfl

theorem openGreeterPam_blind (pam : PamAuth) (vt : ℤ) : Blind E texts fun E => openGreeterPam E pam vt :=
  alike_bind (onPam_blind E texts (setEnv_alike _ _ _ _)) fun _ =>
    alike_bind (onPam_blind E texts (setEnv_alike _ _ _ _)) fun _ =>
    alike_bind (onPam_blind E texts (setEnv_alike _ _ _ _)) fun _ =>
    alike_bind (onPam_blind E texts (setEnv_alike _ _ _ _)) fun _ =>
    alike_bind (onPam_blind E texts (runStep_alike _ _ _ _)) fun _ => alike_bind (setGreeterPam_blind E texts _) fun _ =>
    alike_bind (onPam_blind E texts (runStep_alike _ _ _ _)) fun _ => setGreeterPam_blind E texts _

theorem makeRuntimeDir_blind (pw : Option Passwd) : Blind E texts fun E => makeRuntimeDir E pw := by
  cases pw with
  | some pw =>
    exact alike_read (fun _ => rfl) fun _ => alike_bind (alike_when (createDirectories_blind E texts _)) fun _ =>
      alike_pure _
  | none => exact alike_bind (createDirectories_blind E texts _) fun _ => alike_pure _

theorem startGreeter_blind : Blind E texts startGreeter := by
  refine alike_read (fun _ => rfl) fun s => alike_ite (alike_pure _) ?_
  refine alike_bind (renewGreeterPam_blind E texts) fun _ => ?_
  refine alike_bind (onPam_blind E texts (start_alike _ _ _ _)) fun ⟨ok, pam⟩ => ?_
  refine alike_bind (setGreeterPam_blind E texts _) fun _ => ?_
  refine alike_bind (alike_when (openGreeterPam_blind E texts _ _)) fun _ => ?_
  refine alike_bind (makeRuntimeDir_blind E texts _) fun runtimeDir => ?_
  refine alike_bind (fork_blind E texts (fun _ => rfl) fun _ => rfl) fun r => ?_
  cases r with
  | none => exact alike_pure _
  | some pid => exact op_blind E texts fun _ => rfl

theorem awaitGreeter_blind : ∀ n, Blind E texts fun E => awaitGreeter E n := by
  intro n
  induction n with
  | zero => exact alike_pure _
  | succ n ih =>
    refine alike_read (fun _ => rfl) fun s => alike_bind (op_blind E texts fun _ => rfl) fun _ => ?_
    exact alike_ite (alike_bind (op_blind E texts fun _ => rfl) fun _ => ih) (op_blind E texts fun _ => rfl)

theorem stopGreeter_blind : Blind E texts stopGreeter := by
  have process : ∀ pid, Blind E texts fun E => stopGreeterProcess E pid := fun pid =>
    alike_bind (killBoth_blind E texts _ _) fun _ => alike_bind (awaitGreeter_blind E texts 20) fun _ =>
      alike_read (fun _ => rfl) fun _ => alike_ite (alike_bind (killBoth_blind E texts _ _) fun _ =>
        alike_read (fun _ => rfl) fun _ => alike_bind (op_blind E texts fun _ => rfl) fun _ =>
          op_blind E texts fun _ => rfl) (alike_pure _)
  have release : Blind E texts releaseGreeterPam := by
    refine alike_read (fun _ => rfl) fun s => ?_
    cases s.greeterPam with
    | some pam => exact alike_bind (releasePam_blind E texts pam) fun _ => op_blind E texts fun _ => rfl
    | none => exact alike_pure _
  refine alike_bind (op_blind E texts fun _ => rfl) fun _ => alike_read (fun _ => rfl) fun s => ?_
  exact alike_bind (alike_when (process _)) fun _ => alike_bind release fun _ => op_blind E texts fun _ => rfl

theorem watchGreeter_blind : Blind E texts watchGreeter := by
  refine alike_read (fun _ => rfl) fun s => alike_ite ?_ (alike_pure _)
  refine alike_bind (isRunning_blind E texts) fun _ => alike_ite ?_ (alike_pure _)
  refine alike_read (fun _ => rfl) fun t => alike_bind (op_blind E texts fun _ => rfl) fun _ => ?_
  have hanswer : (hearing E texts).waitpid t.now = E.waitpid t.now := rfl
  rw [hanswer]
  cases E.waitpid t.now with
  | reaped status =>
    exact alike_bind (op_blind E texts fun _ => rfl) fun _ => alike_bind (op_blind E texts fun _ => rfl) fun _ =>
      startGreeter_blind E texts
  | running => exact alike_pure _
  | failed => exact alike_pure _

/-! ### Requests -/

theorem handlePowerAction_blind (req : IpcMessage) : Blind E texts fun E => handlePowerAction E req := by
  refine alike_bind (alike_ite ?_ (alike_pure _)) fun _ => reply_blind E texts _
  exact alike_read (fun _ => rfl) fun _ => alike_bind (op_blind E texts fun _ => rfl) fun _ => alike_pure _

theorem rememberLastUser_blind (req : IpcMessage) : Blind E texts fun E => rememberLastUser E req :=
  alike_read (fun _ => rfl) fun _ => alike_ite (alike_bind (op_blind E texts fun _ => rfl) fun _ =>
    alike_read (fun _ => rfl) fun _ => op_blind E texts fun _ => rfl) (alike_pure _)

theorem serveSession_blind (req : IpcMessage) (pam : PamAuth) : Blind E texts fun E => serveSession E req pam := by
  have setActive : Blind E texts fun E => setActivePam E pam :=
    alike_read (fun _ => rfl) fun _ => alike_bind (op_blind E texts fun _ => rfl) fun _ => destroy_blind E texts _
  have release : Blind E texts releaseActivePam := by
    refine alike_read (fun _ => rfl) fun s => ?_
    cases s.activePam with
    | some pam => exact alike_bind (releasePam_blind E texts pam) fun _ => op_blind E texts fun _ => rfl
    | none => exact alike_pure _
  refine alike_bind (stopGreeter_blind E texts) fun _ => alike_read (fun _ => rfl) fun s => ?_
  refine alike_bind (rememberLastUser_blind E texts req) fun _ => alike_bind setActive fun _ => ?_
  refine alike_bind (onPam_blind E texts (getEnvironmentList_alike _)) fun pamEnvs => ?_
  refine alike_bind (launch_blind E texts _ _ _ _) fun launched => ?_
  refine alike_bind (alike_when (alike_bind (waitForExit_blind E texts) fun _ => alike_pure _)) fun _ => ?_
  refine alike_bind release fun _ => alike_bind (readRunning_blind E texts) fun _ => ?_
  exact alike_ite (startGreeter_blind E texts) (alike_pure _)

theorem setLoginEnv_blind (req : IpcMessage) (pam : PamAuth) : Blind E texts fun E => setLoginEnv E req pam :=
  alike_read (fun _ => rfl) fun _ => alike_bind (onPam_blind E texts (setEnv_alike _ _ _ _)) fun _ =>
    alike_bind (onPam_blind E texts (setEnv_alike _ _ _ _)) fun _ =>
    alike_bind (onPam_blind E texts (setEnv_alike _ _ _ _)) fun _ =>
    alike_bind (onPam_blind E texts (setEnv_alike _ _ _ _)) fun _ => alike_ite
      (alike_bind (onPam_blind E texts (setEnv_alike _ _ _ _)) fun _ =>
        alike_bind (onPam_blind E texts (setEnv_alike _ _ _ _)) fun _ => alike_pure _) (alike_pure _)

theorem loginStep_blind {step step' : PamM (Bool × PamAuth)} {failure : Str} {next next' : PamAuth → Sys Unit}
    (hstep : Alike pamOnlooker step step') (hnext : ∀ pam, Alike onlooker (next pam) (next' pam)) :
    Alike onlooker (loginStep E step failure next) (loginStep (hearing E texts) step' failure next') :=
  alike_bind (onPam_blind E texts hstep) fun ⟨_, pam⟩ => alike_ite
    (alike_bind (reply_blind E texts _) fun _ => alike_bind (onPam_blind E texts (end_alike _ _)) fun _ =>
      alike_pure _) (hnext pam)

end Parts

/-! ## Requests that differ in the password -/

/-- the same request with another password, where both are empty or neither is -/
inductive SameButPassword (req : IpcMessage) : IpcMessage → Prop where
  | intro (password : Str) (hempty : req.password = [] ↔ password = []) :
    SameButPassword req { req with password := password }

section Requests

variable {E : Env} {texts : ℕ → Option (List Str)} {req req' : IpcMessage}

/-- **A login.** Only PAM is told the password. -/
theorem handleLoginRequest_blind (h : SameButPassword req req') :
    Alike onlooker (handleLoginRequest E req) (handleLoginRequest (hearing E texts) req') := by
  obtain ⟨password, hempty⟩ := h
  refine loginStep_blind E texts (start_alike _ _ _ _) fun pam => ?_
  refine loginStep_blind E texts (authenticate_alike _ _ hempty) fun pam => ?_
  refine loginStep_blind E texts (runStep_alike _ _ _ _) fun pam => ?_
  refine loginStep_blind E texts (runStep_alike _ _ _ _) fun pam => ?_
  refine alike_bind (setLoginEnv_blind E texts req pam) fun _ => ?_
  refine loginStep_blind E texts (runStep_alike _ _ _ _) fun pam => alike_bind (reply_blind E texts _) fun _ => ?_
  exact serveSession_blind E texts req pam

theorem processMessage_blind (h : SameButPassword req req') :
    Alike onlooker (processMessage E req) (processMessage (hearing E texts) req') := by
  have hlogin : Alike onlooker (handleLoginRequest E req) (handleLoginRequest (hearing E texts) req') :=
    handleLoginRequest_blind h
  obtain ⟨password, hempty⟩ := h
  unfold processMessage
  dsimp only
  cases req.type with
  | ping => exact reply_blind E texts _
  | getUsers =>
    exact alike_bind (op_blind E texts fun _ => rfl) fun _ => alike_read (fun _ => rfl) fun _ => reply_blind E texts _
  | getSessions =>
    exact alike_bind (cacheSessions_blind E texts) fun _ => alike_read (fun _ => rfl) fun _ => reply_blind E texts _
  | powerAction => exact handlePowerAction_blind E texts req
  | login => exact hlogin
  | unknown => exact reply_blind E texts _
  | response => exact reply_blind E texts _
  | sessionStatus => exact reply_blind E texts _

end Requests

/-! ## Texts that differ in passwords -/

/-- what two lines decode to is the same but for the password -/
inductive SameDecoded : Except Thrown IpcMessage → Except Thrown IpcMessage → Prop where
  | message {req req' : IpcMessage} (h : SameButPassword req req') : SameDecoded (.ok req) (.ok req')
  | exception (what : Thrown) : SameDecoded (.error what) (.error what)

/-- two clients write texts that arrive in as many parts, and whose lines decode to the same but for the password; the
first of each pair is what has been read already -/
inductive Similar (J : JsonCpp) : Str → List Str → Str → List Str → Prop where
  | ended {read read' : Str} : Similar J read [] read' []
  | closed {read read' : Str} {chunks chunks' : List Str} : Similar J read ([] :: chunks) read' ([] :: chunks')
  | more {read read' chunk chunk' : Str} {chunks chunks' : List Str} (hchunk : chunk ≠ []) (hchunk' : chunk' ≠ [])
    (hline : splitFirst '\n' (read ++ cstr chunk) = none) (hline' : splitFirst '\n' (read' ++ cstr chunk') = none)
    (rest : Similar J (read ++ cstr chunk) chunks (read' ++ cstr chunk') chunks') :
    Similar J read (chunk :: chunks) read' (chunk' :: chunks')
  | line {read read' chunk chunk' line line' rest rest' : Str} {chunks chunks' : List Str} (hchunk : chunk ≠ [])
    (hchunk' : chunk' ≠ []) (hline : splitFirst '\n' (read ++ cstr chunk) = some (line, rest))
    (hline' : splitFirst '\n' (read' ++ cstr chunk') = some (line', rest'))
    (hdecoded : SameDecoded (deserialize J line) (deserialize J line')) :
    Similar J read (chunk :: chunks) read' (chunk' :: chunks')

/-- the clients of an instant -/
inductive SimilarClients (J : JsonCpp) : Option (List Str) → Option (List Str) → Prop where
  | none : SimilarClients J none none
  | some {chunks chunks' : List Str} (h : Similar J [] chunks [] chunks') :
    SimilarClients J (some chunks) (some chunks')

section Connections

variable {E : Env} {texts : ℕ → Option (List Str)}

/-- a change of the locals of the connection -/
theorem frame_blind {e e' : Event} {g g' k : Frame → Frame} (he : maskEvent e = maskEvent e')
    (hg : ∀ f, maskFrame (g f) = k (maskFrame f)) (hg' : ∀ f, maskFrame (g' f) = k (maskFrame f)) :
    Alike onlooker (op E e fun s => { s with frame := s.frame.map g })
      (op (hearing E texts) e' fun s => { s with frame := s.frame.map g' }) := by
  have hmask : ∀ {g : Frame → Frame}, (∀ f, maskFrame (g f) = k (maskFrame f)) → ∀ s : St,
      maskState { s with frame := s.frame.map g } = { maskState s with frame := (maskState s).frame.map k } := by
    intro g hg s
    have hframe : (s.frame.map g).map maskFrame = (s.frame.map maskFrame).map k := by
      rw [Option.map_map, Option.map_map, show maskFrame ∘ g = k ∘ maskFrame from funext hg]
    exact congrArg (fun frame => { maskState s with frame := frame }) hframe
  exact ops_blind E texts (k := fun s => { s with frame := s.frame.map k }) he (hmask hg) (hmask hg')

theorem serveLine_blind {line line' rest rest' : Str}
    (h : SameDecoded (deserialize E.json line) (deserialize E.json line')) :
    Alike onlooker (serveLine E line rest) (serveLine (hearing E texts) line' rest') := by
  have hjson : (hearing E texts).json = E.json := rfl
  refine alike_bind (frame_blind (k := id) rfl (fun _ => rfl) fun _ => rfl) fun _ => ?_
  rw [hjson]
  generalize deserialize E.json line = decoded at h ⊢
  generalize deserialize E.json line' = decoded' at h ⊢
  cases h with
  | exception what => exact alike_halt _
  | @message req req' h =>
    have hprocess : Alike onlooker (processMessage E req) (processMessage (hearing E texts) req') :=
      processMessage_blind h
    obtain ⟨password, hempty⟩ := h
    refine alike_bind (frame_blind (k := fun f => { f with req := mask req }) rfl (fun _ => rfl) fun _ => rfl) ?_
    exact fun _ => alike_bind hprocess fun _ => op_blind E texts fun _ => rfl

/-- **The loop.** -/
theorem readLoop_blind {read read' : Str} {chunks chunks' : List Str}
    (h : Similar E.json read chunks read' chunks') :
    Alike onlooker (readLoop E read chunks) (readLoop (hearing E texts) read' chunks') := by
  induction h with
  | ended => exact op_blind E texts fun _ => rfl
  | closed =>
    rw [readLoop, readLoop, if_pos rfl, if_pos rfl]
    exact op_blind E texts fun _ => rfl
  | more hchunk hchunk' hline hline' _ ih =>
    rw [readLoop, readLoop, if_neg hchunk, if_neg hchunk', hline, hline']
    exact alike_bind (frame_blind (k := id) rfl (fun _ => rfl) fun _ => rfl) fun _ => ih
  | line hchunk hchunk' hline hline' hdecoded =>
    rw [readLoop, readLoop, if_neg hchunk, if_neg hchunk', hline, hline']
    exact alike_bind (frame_blind (k := id) rfl (fun _ => rfl) fun _ => rfl) fun _ => serveLine_blind hdecoded

theorem acceptClient_blind (h : ∀ k, SimilarClients E.json (E.accept k) (texts k)) :
    Blind E texts acceptClient := by
  refine alike_read (fun _ => rfl) fun s => ?_
  have hclients := h s.now
  have hheard : (hearing E texts).accept s.now = texts s.now := rfl
  rw [hheard]
  generalize E.accept s.now = client at hclients ⊢
  generalize texts s.now = client' at hclients ⊢
  cases hclients with
  | none => exact op_blind E texts fun _ => rfl
  | some hsimilar =>
    refine alike_bind (op_blind E texts fun _ => rfl) fun _ => alike_bind ?_ fun _ => close_blind E texts _
    refine alike_bind (op_blind E texts fun _ => rfl) fun _ => alike_bind (readLoop_blind hsimilar) fun _ => ?_
    exact op_blind E texts fun _ => rfl

end Connections

/-! ## Runs -/

section Runs

variable (E : Env) (texts : ℕ → Option (List Str))

theorem setupIpcSocket_blind : Blind E texts setupIpcSocket := by
  have abandon : ∀ fd, Blind E texts fun E => abandonSocket E fd := fun fd =>
    alike_bind (close_blind E texts fd) fun _ => alike_bind (op_blind E texts fun _ => rfl) fun _ => alike_pure _
  refine alike_read (fun _ => rfl) fun s => alike_bind (op_blind E texts fun _ => rfl) fun _ => ?_
  refine alike_bind (createDirectories_blind E texts _) fun _ => alike_bind (unlink_blind E texts _) fun _ => ?_
  refine alike_bind (alike_read (fun _ => rfl) fun t => alike_bind ?_ fun _ => alike_pure _) fun created => ?_
  · refine op_blind E texts fun u => ?_
    cases E.socket t.now <;> rfl
  refine alike_ite (alike_read (fun _ => rfl) fun t => ?_) (alike_pure _)
  refine alike_read (fun _ => rfl) fun u => alike_bind (op_blind E texts fun _ => rfl) fun _ => ?_
  refine alike_ite (abandon _) (alike_read (fun _ => rfl) fun v => alike_bind (op_blind E texts fun _ => rfl) ?_)
  exact fun _ => alike_ite (abandon _) (alike_pure _)

theorem loadConfig_blind : Blind E texts loadConfig :=
  alike_read (fun _ => rfl) fun _ => alike_ite (alike_halt _) (op_blind E texts fun _ => rfl)

theorem init_blind : Blind E texts init :=
  alike_bind (loadConfig_blind E texts) fun _ => alike_bind (op_blind E texts fun _ => rfl) fun _ =>
    alike_bind (cacheSessions_blind E texts) fun _ => setupIpcSocket_blind E texts

theorem cleanupIpcSocket_blind : Blind E texts cleanupIpcSocket :=
  alike_read (fun _ => rfl) fun _ => alike_bind (alike_when (alike_bind (close_blind E texts _) fun _ =>
    op_blind E texts fun _ => rfl)) fun _ => alike_ite (unlink_blind E texts _) (alike_pure _)

variable {E texts}

theorem turn_blind (h : ∀ k, SimilarClients E.json (E.accept k) (texts k)) : Blind E texts turn := by
  refine alike_bind (op_blind E texts fun _ => rfl) fun _ => alike_read (fun _ => rfl) fun s => ?_
  refine alike_ite (alike_pure _) (alike_read (fun _ => rfl) fun t => ?_)
  refine alike_bind (op_blind E texts fun _ => rfl) fun _ => ?_
  have hanswer : (hearing E texts).poll t.now = E.poll t.now := rfl
  rw [hanswer]
  cases E.poll t.now with
  | interrupted => exact alike_pure _
  | failed => exact alike_pure _
  | ready =>
    exact alike_bind (acceptClient_blind h) fun _ => alike_bind (watchGreeter_blind E texts) fun _ => alike_pure _
  | quiet => exact alike_bind (watchGreeter_blind E texts) fun _ => alike_pure _

theorem main_blind (h : ∀ k, SimilarClients E.json (E.accept k) (texts k)) (n : ℕ) :
    Blind E texts fun E => main E n := by
  refine alike_bind (init_blind E texts) fun ok => alike_ite ?_ (alike_pure _)
  refine alike_bind (op_blind E texts fun _ => rfl) fun _ => alike_bind (startGreeter_blind E texts) fun _ => ?_
  refine alike_bind (alike_loop (turn_blind h) n) fun _ => alike_bind (stopGreeter_blind E texts) fun _ => ?_
  refine alike_bind (terminate_blind E texts) fun _ => alike_bind (cleanupIpcSocket_blind E texts) fun _ => ?_
  exact op_blind E texts fun _ => rfl

end Runs

/-- **A password is seen by PAM alone.** Take the same run with clients whose requests have other passwords. As long as
libpam answers in the same way, the onlooker sees the same: the replies, the calls and what they return, the children and
all they are started with, the files, the end. -/
theorem passwords_unseen (E : Env) (texts : ℕ → Option (List Str)) (n : ℕ)
    (h : ∀ k, SimilarClients E.json (E.accept k) (texts k)) :
    onlooker.log (history E n) = onlooker.log (history (hearing E texts) n) ∧
      (main E n (boot E)).fin = (main (hearing E texts) n (boot (hearing E texts))).fin := by
  have hrun := main_blind h n (boot E) (boot (hearing E texts)) rfl
  exact ⟨hrun.log, hrun.fin⟩

/-! ## Witness -/

def guess : IpcMessage := { loginOf "alice" with password := lit "123456" }

def demo : Env := { machine [greeterAccount, alice] [] (loginOf "alice") with
  json := { write := compact
            parse := fun raw =>
              if raw = compact (loginOf "alice").toJson then .root (loginOf "alice").toJson
              else if raw = compact guess.toJson then .root guess.toJson
              else .failed (lit "syntax error") } }

/-- whoever looks on does not learn whether it was the password or a guess that PAM has accepted -/
theorem passwords_unseen_guess : onlooker.log (history demo 2) =
    onlooker.log (history (hearing demo fun _ => some [compact guess.toJson ++ lit "\n"]) 2) := by
  have hread : ∀ req ∈ [loginOf "alice", guess], compact req.toJson ++ lit "\n" ≠ [] ∧
      splitFirst '\n' ([] ++ cstr (compact req.toJson ++ lit "\n")) = some (compact req.toJson, []) := by
    decide +kernel
  obtain ⟨hlogin, hlogin'⟩ := hread (loginOf "alice") (by simp)
  obtain ⟨hguess, hguess'⟩ := hread guess (by simp)
  refine (passwords_unseen demo _ 2 fun k => .some (.line hlogin hguess hlogin' hguess' ?_)).1
  exact .message (.intro _ (by decide))

end Miqudm.Secrecy
