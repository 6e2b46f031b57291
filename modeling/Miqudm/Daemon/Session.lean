/-
Launching a user session (`src/daemon/session.cpp`).

`sessionChild` is the code of the forked child: it drops privileges to the user, builds the environment from scratch,
overlays the PAM environment and executes the session; any failing step of the privilege drop ends it. The rest are the
methods of `SessionLauncher` on the member `sessionPid`.
-/
import Miqudm.Daemon.World

namespace Miqudm

open Miqudm.Core

/-- the environment of a session before the overlay -/
def sessionBaseEnv (environ : List (Str × Str)) (user : UserInfo) (session : SessionInfo) (vt : ℤ) : List (Str × Str) :=
  let desktop := if session.desktopNames ≠ [] then session.desktopNames else session.name
  let runtimeDir := lit "/run/user/" ++ decimal user.uid.toNat
  clearenv environ |> setenv (lit "HOME") user.homeDir
    |> setenv (lit "USER") user.username
    |> setenv (lit "LOGNAME") user.username
    |> setenv (lit "SHELL") user.shell
    |> setenv (lit "PATH") (lit "/usr/local/bin:/usr/bin:/bin:/usr/local/sbin:/usr/sbin")
    |> setenv (lit "XDG_DATA_DIRS") (lit "/usr/local/share:/usr/share")
    |> setenv (lit "XDG_CONFIG_DIRS") (lit "/etc/xdg")
    |> setenv (lit "XDG_SESSION_TYPE") (lit "wayland")
    |> setenv (lit "XDG_SESSION_CLASS") (lit "user")
    |> setenv (lit "XDG_SEAT") (lit "seat0")
    |> setenv (lit "XDG_VTNR") (decimal vt)
    |> setenv (lit "XDG_CURRENT_DESKTOP") desktop
    |> setenv (lit "XDG_SESSION_DESKTOP") desktop
    |> setenv (lit "XDG_RUNTIME_DIR") runtimeDir
    |> setenv (lit "DBUS_SESSION_BUS_ADDRESS") (lit "unix:path=" ++ runtimeDir ++ lit "/bus")

def sessionWrapper : Str := lit "/usr/lib/miqudm/wayland-session"

/-- the programs the child tries to execute, in order -/
def sessionCommands (wrapperExists : Bool) (user : UserInfo) (session : SessionInfo) : List (Str × List Str) :=
  (if wrapperExists then
    [(sessionWrapper, [lit "wayland-session", lit "/bin/sh", lit "-c", cstr session.exec])] else []) ++
  [(cstr user.shell, [cstr user.shell, lit "-l", lit "-c", cstr session.exec]),
    (lit "/bin/sh", [lit "sh", lit "-l", lit "-c", cstr session.exec])]

section Launcher

variable (E : Env)

/-- the working directory of a child that calls `chdir(dir)`: a failure is not looked at -/
def chdir (a : ChildAnswers) (dir : Str) : Str := if a.chdir dir then dir else E.cwd

def sessionChild (user : UserInfo) (session : SessionInfo) (pamEnvs : List Str) (vt : ℤ) (s : St) (a : ChildAnswers) :
    Child :=
  let initgroups := some (cstr user.username, user.gid)
  if ¬ a.initgroups then { initgroups, fate := .exit 1 }
  else if ¬ a.setgid then { initgroups, setgid := some user.gid, fate := .exit 1 }
  else if ¬ a.setuid then { initgroups, setgid := some user.gid, setuid := some user.uid, fate := .exit 1 }
  else
    let command := (sessionCommands (s.pathExists E sessionWrapper) user session).find? fun c => a.execl c.1
    { initgroups, setgid := some user.gid, setuid := some user.uid
      fate := match command with
        | none => .exit 127
        | some (path, argv) => .exec {
            path, argv
            cred := ⟨user.uid, user.gid, E.getgrouplist (cstr user.username) user.gid⟩
            env := overlay pamEnvs (sessionBaseEnv E.environ user session vt)
            cwd := chdir E a (if user.homeDir ≠ [] ∧ s.pathExists E user.homeDir then cstr user.homeDir else lit "/")
            fds := keptAcrossExec s.fds } }

/-- `SessionLauncher::is_running`: it reaps a child that has ended, and leaves the pid -/
def isRunning : Sys Bool := do
  let s ← Prog.get
  if s.sessionPid ≤ 0 then return false
  else
    let answer := E.waitpid s.now
    op E (.waitpid s.sessionPid answer) id
    return answer = .running

/-- `SessionLauncher::launch`; its test `m_session_pid > 0 && is_running()` is `isRunning`, false without a pid -/
def launch (user : UserInfo) (session : SessionInfo) (pamEnvs : List Str) (vt : ℤ) : Sys Bool := do
  op E (.launch user session) id
  if ← isRunning E then return false
  else
    match ← fork E .session (sessionChild E user session pamEnvs vt) with
    | none => return false
    | some pid =>
      op E .assign fun s => { s with sessionPid := pid }
      return true

/-- the loop of `wait_for_exit`, interrupted `n` times -/
def waitLoop (pid : ℤ) : ℕ → Sys ℤ
  | 0 => do
    op E (.waiting pid) id
    let status := E.waitEnd (← Prog.get).now
    op E (.waitDone pid status) id
    op E .assign fun s => { s with sessionPid := -1 }
    return match status with
      | some (.exited code) => code
      | some (.signaled sig) => 128 + sig
      | some (.other status) => status
      | none => -1
  | n + 1 => do
    op E (.waiting pid) id
    op E (.waitInterrupted pid) id
    waitLoop pid n

/-- `SessionLauncher::wait_for_exit` -/
def waitForExit : Sys ℤ := do
  let s ← Prog.get
  if s.sessionPid ≤ 0 then return 0
  else waitLoop E s.sessionPid (E.interrupts s.now)

def killBoth (pid : ℤ) (sig : Signal) : Sys Unit := do
  op E (.kill (-pid) sig) id
  op E (.kill pid sig) id

/-- the loop of `terminate` that waits for the session to go: has it gone? -/
def terminateLoop : ℕ → Sys Bool
  | 0 => return false
  | n + 1 => do
    if ← isRunning E then
      op E .sleep id
      terminateLoop n
    else return true

/-- `SessionLauncher::terminate` -/
def terminate : Sys Unit := do
  let s ← Prog.get
  if s.sessionPid > 0 then
    killBoth E s.sessionPid .sigterm
    let gone ← terminateLoop E 20
    Prog.when (¬ gone) do
      let running ← isRunning E
      Prog.when running do
        killBoth E s.sessionPid .sigkill
        op E (.waitDone s.sessionPid (E.waitEnd (← Prog.get).now)) id
    op E .assign fun s => { s with sessionPid := -1 }

end Launcher

end Miqudm
