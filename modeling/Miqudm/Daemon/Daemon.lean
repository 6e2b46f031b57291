/-
The daemon (`src/daemon/daemon.cpp`, and `main` of `main.cpp` after its options).

Each method is a program on the daemon's state, in the order of the source: the socket, `init`, the greeter, the
requests, `run`. `run` is watched for a number of turns of its poll loop. The five PAM steps of a login have one shape,
a method of the `PamAuth` object and an exit with its own message, which is `loginStep`; what follows the success
reply is `serveSession`.
-/
import Miqudm.Daemon.Session

namespace Miqudm

open Miqudm.Core

variable (E : Env)

/-! ## The socket -/

/-- `socket`: a descriptor that stays open across exec, with `fcntl` making it non-blocking -/
def createSocket : Sys Bool := do
  let created := E.socket (← Prog.get).now
  op E (.socket created) fun s =>
    if created then { s with
      fds := s.fds ++ [⟨s.nextFd, .listening, false⟩]
      nextFd := s.nextFd + 1
      serverSocketFd := s.nextFd }
    else { s with serverSocketFd := -1 }
  return created

/-- the exit of `setup_ipc_socket` when the socket cannot be used -/
def abandonSocket (fd : ℤ) : Sys Bool := do
  close E fd
  op E .assign fun s => { s with serverSocketFd := -1 }
  return false

/-- `bind` and `listen` -/
def bindAndListen (path : Str) (fd : ℤ) : Sys Bool := do
  let bound := E.bind (← Prog.get).now
  op E (.bind path bound) fun s => { s with sockets := s.sockets ++ if bound then [path] else [] }
  if ¬ bound then abandonSocket E fd
  else
    let listening := E.listen (← Prog.get).now
    op E (.listen listening) id
    if ¬ listening then abandonSocket E fd else return true

/-- `Daemon::setup_ipc_socket` -/
def setupIpcSocket : Sys Bool := do
  let s ← Prog.get
  let path := getSocketPath (s.pathExists E)
  op E .assign fun s => { s with socketPath := path }
  createDirectories E (parentPath path)
  unlink E path
  if ← createSocket E then bindAndListen E path (← Prog.get).serverSocketFd else return false

/-- `Daemon::cleanup_ipc_socket` -/
def cleanupIpcSocket : Sys Unit := do
  let s ← Prog.get
  Prog.when (s.serverSocketFd ≥ 0) do
    close E s.serverSocketFd
    op E .assign fun s => { s with serverSocketFd := -1 }
  if s.socketPath ≠ [] then unlink E s.socketPath

/-! ## Caches and configuration -/

/-- what can be opened for reading: the files, and the directories, which have no lines -/
def St.readable (s : St) : Files := s.files ++ s.dirs.map fun dir => (dir, [])

/-- `Config::get().load()`; nothing catches what the search for the file throws -/
def loadConfig : Sys Unit := do
  let s ← Prog.get
  if Config.searchThrows (E.statusTold s.now) (s.pathExists E) [] then Prog.halt .filesystemError
  else op E .assign fun s => { s with config := (s.config.load s.readable (s.pathExists E) []).2 }

/-- `m_cached_users = UserScanner::scan_users()` -/
def cacheUsers : Sys Unit :=
  op E .assign fun s => { s with
    cachedUsers := scanUsers (E.passwd s.now) (E.getlogin s.now) E.self.uid E.self.gid (E.isFile s.now) }

/-- `m_cached_sessions = SessionScanner::scan_all()`; nothing catches what the scan throws -/
def cacheSessions : Sys Unit := do
  match scanAll (E.listing (← Prog.get).now) with
  | none => Prog.halt .filesystemError
  | some sessions => op E .assign fun s => { s with cachedSessions := sessions }

/-- `Daemon::init`. Before the socket it also connects to the system bus; the result is not looked at, and the connection
is a state of its own (`Daemon.Logind`, where this call heads what the daemon does with it) -/
def init : Sys Bool := do
  loadConfig E
  cacheUsers E
  cacheSessions E
  setupIpcSocket E

/-! ## The greeter -/

def greeterFallbacks : List Str := [lit "sddm", lit "greeter", lit "miqudm", lit "nobody"]

/-- the account the greeter runs under, with the name that was looked up -/
def resolveGreeterUser (db : List Passwd) (greeterUser : Str) : Option Passwd × Str :=
  let pw := if greeterUser ≠ [] then getpwnam db (cstr greeterUser) else none
  match pw with
  | some pw => (some pw, greeterUser)
  | none => match greeterFallbacks.find? fun candidate => (getpwnam db candidate).isSome with
    | some candidate => (getpwnam db candidate, candidate)
    | none => (none, greeterUser)

def greeterBaseEnv (environ : List (Str × Str)) (pw : Option Passwd) (vt : ℤ) (runtimeDir : Str) : List (Str × Str) :=
  (match pw with
    | some pw => clearenv environ
      |> setenv (lit "HOME") (orEmpty pw.pwDir)
      |> setenv (lit "USER") pw.pwName.chars
      |> setenv (lit "LOGNAME") pw.pwName.chars
      |> setenv (lit "SHELL") (orEmpty pw.pwShell)
    | none => clearenv environ)
  |> setenv (lit "PATH") (lit "/usr/local/bin:/usr/bin:/bin")
  |> setenv (lit "XDG_SESSION_CLASS") (lit "greeter")
  |> setenv (lit "XDG_SESSION_TYPE") (lit "wayland")
  |> setenv (lit "XDG_SEAT") (lit "seat0")
  |> setenv (lit "XDG_VTNR") (decimal vt)
  |> setenv (lit "XDG_RUNTIME_DIR") runtimeDir

/-- what `m_greeter_pam->get_environment_list()` gives in the child -/
def greeterPamEnv (s : St) : List Str :=
  match s.greeterPam with
  | some { pamHandle := some h, .. } => ((s.pam.handle? h).map Handle.env).getD []
  | _ => []

/-- the credentials after the three calls of the greeter child: a failing call changes nothing and is only reported -/
def greeterCred (pw : Option Passwd) (a : ChildAnswers) : Cred :=
  match pw with
  | none => E.self
  | some pw =>
    if pw.pwUid = 0 then E.self
    else {
      uid := if a.setuid then pw.pwUid else E.self.uid
      gid := if a.setgid then pw.pwGid else E.self.gid
      groups := if a.initgroups then E.getgrouplist pw.pwName.chars pw.pwGid else E.self.groups }

/-- an account without a home or a shell: `setenv` reads the null pointer -/
def lacksFields (pw : Passwd) : Bool := pw.pwDir.isNone || pw.pwShell.isNone

/-- the code of the forked greeter child -/
def greeterChild (pw : Option Passwd) (cmd runtimeDir : Str) (s : St) (a : ChildAnswers) : Child :=
  let drops := pw.filter fun pw => pw.pwUid ≠ 0
  let home := orEmpty (pw.bind Passwd.pwDir)
  { initgroups := drops.map fun pw => (pw.pwName.chars, pw.pwGid)
    setgid := drops.map Passwd.pwGid
    setuid := drops.map Passwd.pwUid
    fate :=
      if pw.any lacksFields then .crash
      else if ¬ a.execl (lit "/bin/sh") then .exit 127
      else .exec {
        path := lit "/bin/sh"
        argv := [lit "sh", lit "-c", cstr cmd]
        cred := greeterCred E pw a
        env := overlay (greeterPamEnv s) (greeterBaseEnv E.environ pw s.config.general.vt runtimeDir)
        cwd := chdir E a (if home ≠ [] ∧ s.pathExists E home then home else lit "/tmp")
        fds := keptAcrossExec s.fds } }

/-- release a PAM object the daemon owns: `close_session`, `delete_credentials`, `end`, and the destructor -/
def releasePam (pam : PamAuth) : Sys Unit := do
  let (_, pam) ← onPam E (pam.closeSession E.pam)
  let (_, pam) ← onPam E (pam.deleteCredentials E.pam)
  let pam ← onPam E (pam.end_ E.pam)
  let _ ← onPam E (pam.end_ E.pam)

/-- the destructor of a PAM object that a member no longer points to -/
def destroy (old : Option PamAuth) : Sys Unit :=
  match old with
  | some pam => do
    let _ ← onPam E (pam.end_ E.pam)
  | none => return ()

/-- `m_greeter_pam = std::make_unique<PamAuth>()` -/
def renewGreeterPam : Sys Unit := do
  let old := (← Prog.get).greeterPam
  op E .assign fun s => { s with greeterPam := some {} }
  destroy E old

def setGreeterPam (pam : PamAuth) : Sys Unit := op E .assign fun s => { s with greeterPam := some pam }

/-- the calls on the started greeter PAM object -/
def openGreeterPam (pam : PamAuth) (vt : ℤ) : Sys Unit := do
  let _ ← onPam E (pam.setEnv E.pam (lit "XDG_SESSION_CLASS") (lit "greeter"))
  let _ ← onPam E (pam.setEnv E.pam (lit "XDG_SESSION_TYPE") (lit "wayland"))
  let _ ← onPam E (pam.setEnv E.pam (lit "XDG_SEAT") (lit "seat0"))
  let _ ← onPam E (pam.setEnv E.pam (lit "XDG_VTNR") (decimal vt))
  let (_, pam) ← onPam E (pam.establishCredentials E.pam)
  setGreeterPam E pam
  let (_, pam) ← onPam E (pam.openSession E.pam)
  setGreeterPam E pam

/-- the runtime directory of the greeter, made to exist -/
def makeRuntimeDir (pw : Option Passwd) : Sys Str :=
  match pw with
  | some pw => do
    let runtimeDir := lit "/run/user/" ++ decimal pw.pwUid.toNat
    let s ← Prog.get
    Prog.when (¬ s.pathExists E runtimeDir) (createDirectories E runtimeDir)
    return runtimeDir
  | none => do
    let runtimeDir := lit "/run/miqudm/runtime"
    createDirectories E runtimeDir
    return runtimeDir

/-- `Daemon::start_greeter` -/
def startGreeter : Sys Unit := do
  let s ← Prog.get
  let cmd := s.config.general.greeterCommand
  if s.greeterPid > 0 ∨ cmd = [] then return ()
  else
    let (pw, greeterUser) := resolveGreeterUser (E.passwd s.now) s.config.general.greeterUser
    let userName := match pw with
      | some pw => pw.pwName.chars
      | none => if greeterUser = [] then lit "sddm" else greeterUser
    renewGreeterPam E
    let (ok, pam) ← onPam E (PamAuth.start E.pam {} userName (lit "miqudm-greeter"))
    setGreeterPam E pam
    Prog.when ok (openGreeterPam E pam s.config.general.vt)
    let runtimeDir ← makeRuntimeDir E pw
    match ← fork E .greeter (greeterChild E pw cmd runtimeDir) with
    | none => return ()
    | some pid => op E .assign fun s => { s with greeterPid := pid }

/-- the loop of `stop_greeter` that waits for the greeter to go -/
def awaitGreeter : ℕ → Sys Unit
  | 0 => return ()
  | n + 1 => do
    let s ← Prog.get
    let answer := E.waitpid s.now
    op E (.waitpid s.greeterPid answer) id
    if answer = .running then
      op E .sleep id
      awaitGreeter n
    else op E .assign fun s => { s with greeterPid := -1 }

/-- the part of `stop_greeter` under `if (m_greeter_pid > 0)` -/
def stopGreeterProcess (pid : ℤ) : Sys Unit := do
  killBoth E pid .sigterm
  awaitGreeter E 20
  if (← Prog.get).greeterPid > 0 then
    killBoth E pid .sigkill
    op E (.waitDone pid (E.waitEnd (← Prog.get).now)) id
    op E .assign fun s => { s with greeterPid := -1 }

def releaseGreeterPam : Sys Unit := do
  match (← Prog.get).greeterPam with
  | some pam =>
    releasePam E pam
    op E .assign fun s => { s with greeterPam := none }
  | none => return ()

/-- the body of `stop_greeter` -/
def releaseGreeter : Sys Unit := do
  let s ← Prog.get
  Prog.when (s.greeterPid > 0) (stopGreeterProcess E s.greeterPid)
  releaseGreeterPam E
  op E .sleep id

/-- `Daemon::stop_greeter` -/
def stopGreeter : Sys Unit := do
  op E .stopGreeter id
  releaseGreeter E

/-! ## Requests -/

/-- the call of `LogindManager` that a power action makes, if it names one -/
def powerCall (action : Str) : Sys Bool := do
  if action ∈ [lit "poweroff", lit "reboot", lit "suspend", lit "hibernate"] then
    let ok := E.logind (← Prog.get).now
    op E (.logind action ok) id
    return ok
  else return false

/-- `Daemon::handle_power_action` -/
def handlePowerAction (req : IpcMessage) : Sys Unit := do
  let ok ← powerCall E req.powerAction
  reply E { type := .response, success := ok,
            message := if ok then lit "Power action triggered" else lit "Failed to execute power action" }

/-- the user a login launches: a cached one, or one made up from the request -/
def findUser (cached : List UserInfo) (username : Str) : UserInfo :=
  match cached.find? fun u => u.username = username with
  | some user => user
  | none => { username := username, homeDir := lit "/home/" ++ username, shell := lit "/bin/bash" }

/-- the session a login launches: a cached one, or one made up from the request -/
def findSession (cached : List SessionInfo) (req : IpcMessage) : SessionInfo :=
  match cached.find? fun si => si.id = req.desktopName ∨ si.name = req.desktopName ∨ si.exec = req.sessionExec with
  | some session => session
  | none =>
    let name := if req.desktopName = [] then lit "Wayland" else req.desktopName
    { name := name, exec := if req.sessionExec = [] then lit "miquland" else req.sessionExec, desktopNames := name }

def rememberLastUser (req : IpcMessage) : Sys Unit := do
  if (← Prog.get).config.general.rememberLastUser then
    op E .assign fun s => { s with config := { s.config with general.lastUser := req.username } }
    let s ← Prog.get
    op E (.save (s.config.savePath [])) fun s =>
      { s with files := (s.config.save s.files [] (E.openFile s.now) (E.room s.now)).2 }

def releaseActivePam : Sys Unit := do
  match (← Prog.get).activePam with
  | some pam =>
    releasePam E pam
    op E .assign fun s => { s with activePam := none }
  | none => return ()

/-- `m_active_pam = std::move(pam)` -/
def setActivePam (pam : PamAuth) : Sys Unit := do
  let old := (← Prog.get).activePam
  op E .assign fun s => { s with activePam := some pam }
  destroy E old

/-- `handle_login_request` after its success reply -/
def serveSession (req : IpcMessage) (pam : PamAuth) : Sys Unit := do
  stopGreeter E
  let s ← Prog.get
  let user := findUser s.cachedUsers req.username
  let session := findSession s.cachedSessions req
  rememberLastUser E req
  setActivePam E pam
  let pamEnvs ← onPam E pam.getEnvironmentList
  let launched ← launch E user session pamEnvs s.config.general.vt
  Prog.when launched do
    let _ ← waitForExit E
  releaseActivePam E
  if ← readRunning E then startGreeter E

/-- a PAM step of a login: when it fails, the client is told why and the PAM object is destroyed -/
def loginStep (step : PamM (Bool × PamAuth)) (failure : Str) (next : PamAuth → Sys Unit) : Sys Unit := do
  let (ok, pam) ← onPam E step
  if ¬ ok then
    reply E { type := .response, success := false, message := failure ++ pam.errorMessage }
    let _ ← onPam E (pam.end_ E.pam)
  else next pam

/-- the PAM environment set before the session is opened -/
def setLoginEnv (req : IpcMessage) (pam : PamAuth) : Sys Unit := do
  let vt := (← Prog.get).config.general.vt
  let _ ← onPam E (pam.setEnv E.pam (lit "XDG_SESSION_CLASS") (lit "user"))
  let _ ← onPam E (pam.setEnv E.pam (lit "XDG_SESSION_TYPE") (lit "wayland"))
  let _ ← onPam E (pam.setEnv E.pam (lit "XDG_SEAT") (lit "seat0"))
  let _ ← onPam E (pam.setEnv E.pam (lit "XDG_VTNR") (decimal vt))
  if req.desktopName ≠ [] then
    let _ ← onPam E (pam.setEnv E.pam (lit "XDG_CURRENT_DESKTOP") req.desktopName)
    let _ ← onPam E (pam.setEnv E.pam (lit "XDG_SESSION_DESKTOP") req.desktopName)

/-- `Daemon::handle_login_request` -/
def handleLoginRequest (req : IpcMessage) : Sys Unit :=
  loginStep E (PamAuth.start E.pam {} req.username (lit "miqudm")) (lit "PAM initialization error: ") fun pam =>
  loginStep E (pam.authenticate E.pam req.password) (lit "Authentication failed: ") fun pam =>
  loginStep E (pam.checkAccount E.pam) (lit "Account check failed: ") fun pam =>
  loginStep E (pam.establishCredentials E.pam) (lit "Failed to establish credentials: ") fun pam => do
    setLoginEnv E req pam
    loginStep E (pam.openSession E.pam) (lit "Failed to open session: ") fun pam => do
      reply E { type := .response, success := true, message := lit "Login successful" }
      serveSession E req pam

/-- `Daemon::process_message` -/
def processMessage (req : IpcMessage) : Sys Unit :=
  match req.type with
  | .ping => reply E { type := .response, success := true, message := lit "pong" }
  | .getUsers => do
    cacheUsers E
    reply E { type := .response, success := true, users := (← Prog.get).cachedUsers }
  | .getSessions => do
    cacheSessions E
    reply E { type := .response, success := true, sessions := (← Prog.get).cachedSessions }
  | .powerAction => handlePowerAction E req
  | .login => handleLoginRequest E req
  | _ => reply E { type := .response, success := false, message := lit "Unknown IPC command" }

/-! ## Connections and the loop -/

/-- a read into the buffer, NUL-terminated and appended as a C string -/
def Frame.readChunk (f : Frame) (chunk : Str) : Frame :=
  { f with buffer := chunk ++ nul :: f.buffer.drop (chunk.length + 1), accumulated := f.accumulated ++ cstr chunk }

/-- a line has arrived: it is decoded and processed, or the exception ends the process -/
def serveLine (line rest : Str) : Sys Unit := do
  op E .assign fun s => { s with frame := s.frame.map fun f => { f with line := line, accumulated := rest } }
  match deserialize E.json line with
  | .error what => Prog.halt (.uncaught what)
  | .ok req =>
    op E (.received req) fun s => { s with frame := s.frame.map fun f => { f with req := req } }
    processMessage E req
    op E .served id

/-- the loop of `handle_client_connection` over what the reads deliver; `accumulated` is the local variable -/
def readLoop (accumulated : Str) : List Str → Sys Unit
  | [] => op E (.read []) id
  | chunk :: chunks => do
    if chunk = [] then op E (.read []) id
    else
      op E (.read chunk) fun s => { s with frame := s.frame.map fun f => f.readChunk chunk }
      match splitFirst '\n' (accumulated ++ cstr chunk) with
      | none => readLoop (accumulated ++ cstr chunk) chunks
      | some (line, rest) => serveLine E line rest

/-- `Daemon::handle_client_connection` -/
def handleClientConnection (clientFd : ℤ) (chunks : List Str) : Sys Unit := do
  op E .assign fun s => { s with frame := some { clientFd } }
  readLoop E [] chunks
  op E .assign fun s => { s with frame := none }

/-- a client is waiting: accept it and serve it -/
def acceptClient : Sys Unit := do
  let s ← Prog.get
  match E.accept s.now with
  | none => op E (.accept none) id
  | some chunks =>
    op E (.accept (some s.nextFd)) fun s =>
      { s with fds := s.fds ++ [⟨s.nextFd, .client, false⟩], nextFd := s.nextFd + 1 }
    handleClientConnection E s.nextFd chunks
    close E s.nextFd

/-- the check of `run` for a greeter that died -/
def watchGreeter : Sys Unit := do
  let s ← Prog.get
  if s.greeterPid > 0 then
    if ¬ (← isRunning E) then
      let answer := E.waitpid (← Prog.get).now
      op E (.waitpid s.greeterPid answer) id
      match answer with
      | .reaped _ =>
        op E .assign fun s => { s with greeterPid := -1 }
        op E .sleep id
        startGreeter E
      | _ => return ()

/-- one turn of the loop of `run`: does it go on? -/
def turn : Sys Bool := do
  op E .head id
  if ¬ (← Prog.get).running then return false
  else
    let answer := E.poll (← Prog.get).now
    op E (.poll answer) id
    match answer with
    | .interrupted => return true
    | .failed => return false
    | .ready =>
      acceptClient E
      watchGreeter E
      return true
    | .quiet =>
      watchGreeter E
      return true

/-- `Daemon::run`, its loop watched for `n` turns -/
def run (n : ℕ) : Sys Unit := do
  op E .assign fun s => { s with running := true }
  startGreeter E
  Prog.loop .cut (turn E) n
  stopGreeter E
  terminate E
  cleanupIpcSocket E
  op E .finished id

/-- `main` once `g_daemon` is set -/
def main (n : ℕ) : Sys Unit := do
  if ← init E then run E n

/-- everything a watched run of the daemon goes through: each event with the state right after it -/
def history (n : ℕ) : List (Event × St) := (main E n (boot E)).log

/-! ## A machine for witnesses

Every call succeeds, one client connects in every turn and sends one request, and processes end when they are waited
for. -/

/-- compact JSON text, for strings without characters to escape -/
def compact : Json → Str
  | .null => lit "null"
  | .bool b => if b then lit "true" else lit "false"
  | .int i => decimal i
  | .real r => r.text
  | .str s => lit "\"" ++ s ++ lit "\""
  | .arr elems => lit "[" ++ elemsText elems ++ lit "]"
  | .obj members => lit "\x7b" ++ membersText members ++ lit "\x7d"
where
  elemsText : List Json → Str
    | [] => []
    | [j] => compact j
    | j :: js => compact j ++ lit "," ++ elemsText js
  membersText : List (Str × Json) → Str
    | [] => []
    | [(k, j)] => lit "\"" ++ k ++ lit "\":" ++ compact j
    | (k, j) :: js => lit "\"" ++ k ++ lit "\":" ++ compact j ++ lit "," ++ membersText js

/-- jsoncpp as it behaves on the text of one value -/
def jsonCppFor (j : Json) : JsonCpp where
  parse raw := if raw = compact j then .root j else .failed (lit "syntax error")
  write := compact

/-- a regular account, and the one of the greeter -/
def alice : Passwd :=
  ⟨⟨lit "alice", noNul_alice⟩, 1000, 1000, none, some ⟨lit "/home/alice", noNul_homeAlice⟩, some ⟨lit "/bin/bash", noNul_bash⟩⟩

def greeterAccount : Passwd :=
  ⟨⟨lit "greeter", by decide⟩, 200, 200, none, some ⟨lit "/var/greeter", by decide⟩, some ⟨lit "/bin/sh", by decide⟩⟩

def loginOf (username : String) : IpcMessage :=
  { type := .login, username := lit username, password := lit "secret", sessionExec := lit "miquland",
    desktopName := lit "miquland" }

def machine (users : List Passwd) (sessions : List DirEntry) (req : IpcMessage) : Env where
  pam := { ret := fun _ => pamSuccess, strerror := fun _ => lit "Authentication failure", modules := fun _ => [] }
  json := jsonCppFor req.toJson
  signal := fun _ => false
  passwd := fun _ => users
  getlogin := fun _ => none
  self := ⟨0, 0, [0]⟩
  getgrouplist := fun _ gid => [gid]
  environ := [(lit "LANG", lit "C")]
  cwd := lit "/"
  ignoresSigpipe := false
  dirs := []
  files := []
  pathExists := fun _ _ => false
  statusTold := fun _ _ => true
  isFile := fun _ _ => false
  listing := fun _ path => if path = lit "/usr/share/wayland-sessions" then some { entries := sessions } else none
  mkdir := fun _ _ => true
  socket := fun _ => true
  bind := fun _ => true
  listen := fun _ => true
  poll := fun _ => .ready
  accept := fun _ => some [compact req.toJson ++ lit "\n"]
  peerOpen := fun _ => true
  logind := fun _ => true
  fork := fun n => some ⟨1000 + n, by omega⟩
  child := fun _ =>
    { initgroups := true, setgid := true, setuid := true, chdir := fun _ => true, execl := fun _ => true }
  waitpid := fun _ => .running
  interrupts := fun _ => 0
  waitEnd := fun _ => some (.exited 0)
  openFile := fun _ => true
  room := fun _ => none

end Miqudm
