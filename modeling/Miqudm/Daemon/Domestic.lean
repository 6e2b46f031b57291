/-
What the daemon does by itself, and what it does with its children.

A domestic event starts and signals no process, touches no socket and tells nobody anything: the calls of PAM,
directories being made, a member being assigned, the configuration being saved. `domestic` is the footprint of the parts
that show only such events and leave the children and the sockets as they are (`St.outward`). The parts that deal with
children show events of processes besides; they leave the sockets and the connection alone, which is `offline`.
-/
import Miqudm.Daemon.Login

namespace Miqudm

open Miqudm.Core Prog

def Event.domestic : Event → Bool
  | .stop => true
  | .pam _ => true
  | .createDirectories _ _ => true
  | .assign => true
  | .save _ => true
  | _ => false

/-- the children, the sockets and the connection -/
structure Outward where
  greeterPid : ℤ
  sessionPid : ℤ
  fds : List Desc
  nextFd : ℤ
  serverSocketFd : ℤ
  frame : Option Frame

def St.outward (s : St) : Outward := ⟨s.greeterPid, s.sessionPid, s.fds, s.nextFd, s.serverSocketFd, s.frame⟩

def domestic : Footprint St Event Halt where
  allow e _ := e.domestic
  halts _ := False
  rel s t := s.outward = t.outward
  refl _ := rfl
  trans := Eq.trans

section Parts

variable (E : Env)

theorem domestic_op {e : Event} (he : e.domestic) {f : St → St} (hf : ∀ s, (f s).outward = s.outward) :
    Within domestic (op E e f) := by
  have hinterfere : Within domestic (interfere E) :=
    within_get_bind fun _ => within_ite (within_act (fun _ => rfl) fun _ => rfl) (within_pure ())
  exact within_bind hinterfere fun _ => within_act (fun _ => he) fun s => (hf s).symm

theorem domestic_onPam {α : Type} (x : PamM α) : Within domestic (onPam E x) :=
  within_bind (within_get_bind fun _ => within_ite (within_act (fun _ => rfl) fun _ => rfl) (within_pure ())) fun _ =>
    within_zoom x (fun _ _ _ => rfl) fun _ _ => rfl

/-! ## Directories and the configuration -/

theorem createDirectories_domestic (path : Str) : Within domestic (createDirectories E path) :=
  within_get_bind fun _ => domestic_op E rfl fun _ => rfl

theorem makeRuntimeDir_domestic (pw : Option Passwd) : Within domestic (makeRuntimeDir E pw) := by
  cases pw with
  | some pw =>
    exact within_get_bind fun _ => within_bind (within_when (createDirectories_domestic E _)) fun _ => within_pure _
  | none => exact within_bind (createDirectories_domestic E _) fun _ => within_pure _

theorem rememberLastUser_domestic (req : IpcMessage) : Within domestic (rememberLastUser E req) :=
  within_get_bind fun _ => within_ite (within_bind (domestic_op E rfl fun _ => rfl) fun _ =>
    within_get_bind fun _ => domestic_op E rfl fun _ => rfl) (within_pure _)

/-! ## PAM objects -/

theorem releasePam_domestic (pam : PamAuth) : Within domestic (releasePam E pam) :=
  within_bind (domestic_onPam E _) fun ⟨_, _⟩ => within_bind (domestic_onPam E _) fun ⟨_, _⟩ =>
    within_bind (domestic_onPam E _) fun _ => within_bind (domestic_onPam E _) fun _ => within_pure _

theorem destroy_domestic (old : Option PamAuth) : Within domestic (destroy E old) := by
  cases old with
  | some pam => exact within_bind (domestic_onPam E _) fun _ => within_pure _
  | none => exact within_pure _

theorem renewGreeterPam_domestic : Within domestic (renewGreeterPam E) :=
  within_get_bind fun _ => within_bind (domestic_op E rfl fun _ => rfl) fun _ => destroy_domestic E _

theorem setGreeterPam_domestic (pam : PamAuth) : Within domestic (setGreeterPam E pam) :=
  domestic_op E rfl fun _ => rfl

theorem openGreeterPam_domestic (pam : PamAuth) (vt : ℤ) : Within domestic (openGreeterPam E pam vt) :=
  within_bind (domestic_onPam E _) fun _ => within_bind (domestic_onPam E _) fun _ =>
    within_bind (domestic_onPam E _) fun _ => within_bind (domestic_onPam E _) fun _ =>
    within_bind (domestic_onPam E _) fun ⟨_, _⟩ => within_bind (setGreeterPam_domestic E _) fun _ =>
    within_bind (domestic_onPam E _) fun ⟨_, _⟩ => setGreeterPam_domestic E _

theorem releaseGreeterPam_domestic : Within domestic (releaseGreeterPam E) := by
  refine within_get_bind fun s => ?_
  split
  · exact within_bind (releasePam_domestic E _) fun _ => domestic_op E rfl fun _ => rfl
  · exact within_pure _

theorem setActivePam_domestic (pam : PamAuth) : Within domestic (setActivePam E pam) :=
  within_get_bind fun _ => within_bind (domestic_op E rfl fun _ => rfl) fun _ => destroy_domestic E _

theorem releaseActivePam_domestic : Within domestic (releaseActivePam E) := by
  refine within_get_bind fun s => ?_
  split
  · exact within_bind (releasePam_domestic E _) fun _ => domestic_op E rfl fun _ => rfl
  · exact within_pure _

/-! ## The steps of a login -/

theorem setLoginEnv_domestic (req : IpcMessage) (pam : PamAuth) : Within domestic (setLoginEnv E req pam) :=
  within_get_bind fun _ => within_bind (domestic_onPam E _) fun _ => within_bind (domestic_onPam E _) fun _ =>
    within_bind (domestic_onPam E _) fun _ => within_bind (domestic_onPam E _) fun _ =>
    within_ite (within_bind (domestic_onPam E _) fun _ => within_bind (domestic_onPam E _) fun _ => within_pure _)
      (within_pure _)

theorem attempt_domestic (req : IpcMessage) : Within domestic (attempt E req) := by
  have step : ∀ {step : PamM (Bool × PamAuth)} {failure : Str} {next : PamAuth → Sys (Option Str × PamAuth)},
      (∀ pam, Within domestic (next pam)) → Within domestic (tryStep E step failure next) :=
    fun hnext => within_bind (domestic_onPam E _) fun ⟨_, pam⟩ => within_ite (within_pure _) (hnext pam)
  exact step fun pam => step fun pam => step fun pam => step fun pam =>
    within_bind (setLoginEnv_domestic E req pam) fun _ => step fun pam => within_pure _

end Parts

/-! ## Children -/

/-- an event of a part that deals with no client -/
def Event.offline : Event → Bool
  | .unlink _ => false
  | .socket _ => false
  | .bind _ _ => false
  | .listen _ => false
  | .close _ => false
  | .logind _ _ => false
  | .poll _ => false
  | .accept _ => false
  | .read _ => false
  | .received _ => false
  | .served => false
  | .reply _ => false
  | .head => false
  | .finished => false
  | _ => true

theorem Event.offline_of_domestic {e : Event} (h : e.domestic) : e.offline := by
  cases e <;> first | rfl | cases h

/-- the sockets and the connection -/
def Outward.sockets (o : Outward) : List Desc × ℤ × ℤ × Option Frame := (o.fds, o.nextFd, o.serverSocketFd, o.frame)

def offline : Footprint St Event Halt where
  allow e _ := e.offline
  halts _ := False
  rel s t := s.outward.sockets = t.outward.sockets
  refl _ := rfl
  trans := Eq.trans

theorem Domestic.offline {α : Type} {x : Sys α} (h : Within domestic x) : Within offline x :=
  h.mono (fun _ _ => Event.offline_of_domestic) (fun _ => id) fun _ _ => congrArg Outward.sockets

section Children

variable (E : Env)

theorem offline_op {e : Event} (he : e.offline) {f : St → St} (hf : ∀ s, (f s).outward.sockets = s.outward.sockets) :
    Within offline (op E e f) := by
  have hinterfere : Within offline (interfere E) :=
    within_get_bind fun _ => within_ite (within_act (fun _ => rfl) fun _ => rfl) (within_pure ())
  exact within_bind hinterfere fun _ => within_act (fun _ => he) fun s => (hf s).symm

theorem startGreeter_offline : Within offline (startGreeter E) := by
  refine within_get_bind fun s => within_ite (within_pure _) ?_
  refine within_bind (Domestic.offline (renewGreeterPam_domestic E)) fun _ => ?_
  refine within_bind (Domestic.offline (domestic_onPam E _)) fun ⟨ok, pam⟩ => ?_
  refine within_bind (Domestic.offline (setGreeterPam_domestic E pam)) fun _ => ?_
  refine within_bind (Domestic.offline (within_when (openGreeterPam_domestic E pam _))) fun _ => ?_
  refine within_bind (Domestic.offline (makeRuntimeDir_domestic E _)) fun runtimeDir => ?_
  refine within_bind (within_get_bind fun _ => within_bind (offline_op E rfl fun _ => rfl) fun _ => within_pure _) ?_
  intro r
  cases r with
  | none => exact within_pure _
  | some pid => exact offline_op E rfl fun _ => rfl

theorem killBoth_offline (pid : ℤ) (sig : Signal) : Within offline (killBoth E pid sig) :=
  within_bind (offline_op E rfl fun _ => rfl) fun _ => offline_op E rfl fun _ => rfl

theorem awaitGreeter_offline : ∀ n, Within offline (awaitGreeter E n) := by
  intro n
  induction n with
  | zero => exact within_pure _
  | succ n ih =>
    refine within_get_bind fun s => within_bind (offline_op E rfl fun _ => rfl) fun _ => ?_
    exact within_ite (within_bind (offline_op E rfl fun _ => rfl) fun _ => ih) (offline_op E rfl fun _ => rfl)

theorem stopGreeter_offline : Within offline (stopGreeter E) := by
  have process : ∀ pid, Within offline (stopGreeterProcess E pid) := fun pid =>
    within_bind (killBoth_offline E pid _) fun _ => within_bind (awaitGreeter_offline E 20) fun _ =>
      within_get_bind fun _ => within_ite (within_bind (killBoth_offline E pid _) fun _ => within_get_bind fun _ =>
        within_bind (offline_op E rfl fun _ => rfl) fun _ => offline_op E rfl fun _ => rfl) (within_pure _)
  refine within_bind (offline_op E rfl fun _ => rfl) fun _ => within_get_bind fun s => ?_
  refine within_bind (within_when (process _)) fun _ => ?_
  exact within_bind (Domestic.offline (releaseGreeterPam_domestic E)) fun _ => offline_op E rfl fun _ => rfl

theorem isRunning_offline : Within offline (isRunning E) :=
  within_get_bind fun _ => within_ite (within_pure _) (within_bind (offline_op E rfl fun _ => rfl) fun _ =>
    within_pure _)

theorem launch_offline (user : UserInfo) (session : SessionInfo) (pamEnvs : List Str) (vt : ℤ) :
    Within offline (launch E user session pamEnvs vt) := by
  refine within_bind (offline_op E rfl fun _ => rfl) fun _ => within_bind (isRunning_offline E) fun _ => ?_
  refine within_ite (within_pure _) (within_bind (within_get_bind fun _ => within_bind (offline_op E rfl fun _ => rfl)
    fun _ => within_pure _) ?_)
  intro r
  cases r with
  | none => exact within_pure _
  | some pid => exact within_bind (offline_op E rfl fun _ => rfl) fun _ => within_pure _

theorem waitLoop_offline (pid : ℤ) : ∀ n, Within offline (waitLoop E pid n) := by
  intro n
  induction n with
  | zero =>
    exact within_bind (offline_op E rfl fun _ => rfl) fun _ => within_get_bind fun _ =>
      within_bind (offline_op E rfl fun _ => rfl) fun _ => within_bind (offline_op E rfl fun _ => rfl) fun _ =>
      within_pure _
  | succ n ih =>
    exact within_bind (offline_op E rfl fun _ => rfl) fun _ => within_bind (offline_op E rfl fun _ => rfl) fun _ => ih

theorem waitForExit_offline : Within offline (waitForExit E) :=
  within_get_bind fun _ => within_ite (within_pure _) (waitLoop_offline E _ _)

theorem readRunning_offline : Within offline (readRunning E) :=
  within_bind (offline_op E rfl fun _ => rfl) fun _ => within_get_bind fun _ => within_pure _

/-- all that follows the success reply of a login -/
theorem serveSession_offline (req : IpcMessage) (pam : PamAuth) : Within offline (serveSession E req pam) := by
  refine within_bind (stopGreeter_offline E) fun _ => within_get_bind fun s => ?_
  refine within_bind (Domestic.offline (rememberLastUser_domestic E req)) fun _ => ?_
  refine within_bind (Domestic.offline (setActivePam_domestic E pam)) fun _ => ?_
  refine within_bind (Domestic.offline (domestic_onPam E _)) fun pamEnvs => ?_
  refine within_bind (launch_offline E _ _ _ _) fun launched => ?_
  refine within_bind (within_when (within_bind (waitForExit_offline E) fun _ => within_pure _)) fun _ => ?_
  refine within_bind (Domestic.offline (releaseActivePam_domestic E)) fun _ => ?_
  exact within_bind (readRunning_offline E) fun _ => within_ite (startGreeter_offline E) (within_pure _)

theorem watchGreeter_offline : Within offline (watchGreeter E) := by
  refine within_get_bind fun s => within_ite ?_ (within_pure _)
  refine within_bind (isRunning_offline E) fun _ => within_ite (within_get_bind fun _ => ?_) (within_pure _)
  refine within_bind (offline_op E rfl fun _ => rfl) fun _ => ?_
  split
  · exact within_bind (offline_op E rfl fun _ => rfl) fun _ => within_bind (offline_op E rfl fun _ => rfl) fun _ =>
      startGreeter_offline E
  · exact within_pure _

theorem terminate_offline : Within offline (terminate E) := by
  have wait : ∀ n, Within offline (terminateLoop E n) := by
    intro n
    induction n with
    | zero => exact within_pure _
    | succ n ih =>
      exact within_bind (isRunning_offline E) fun _ => within_ite (within_bind (offline_op E rfl fun _ => rfl) fun _ =>
        ih) (within_pure _)
  refine within_get_bind fun s => within_ite ?_ (within_pure _)
  refine within_bind (killBoth_offline E _ _) fun _ => within_bind (wait 20) fun _ => within_bind ?_ fun _ => ?_
  · exact within_when (within_bind (isRunning_offline E) fun _ => within_when (within_bind (killBoth_offline E _ _)
      fun _ => within_get_bind fun _ => offline_op E rfl fun _ => rfl))
  · exact offline_op E rfl fun _ => rfl

end Children

end Miqudm
