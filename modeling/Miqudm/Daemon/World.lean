/-
The daemon process and what surrounds it.

`St` is the state of the process: the members of `Daemon` (and of its `SessionLauncher` and of the one `Config`), the
state of libpam, the descriptor table, the directories, socket files and configuration files it has to do with, and the
locals of `handle_client_connection` while it runs. `Env` is everything the surroundings answer, as functions of the
instant `now` at which the process asks (the instants number its operations): the passwd database of that instant,
whether a fork succeeds, what waitpid reports, which bytes a client has sent, whether it still holds its end open.
Results about every `Env` are results about every passwd database and its changes, every outcome of every call and every
behaviour of the clients.

A `Sys` program is a program over this state. Before each of its operations the handler of SIGINT and SIGTERM may run
(`interfere`), which calls `Daemon::stop()`. The process halts when a write meets a closed peer and SIGPIPE has its
default action, or when an exception escapes: one of jsoncpp, or the `filesystem_error` of a session scan or of the
search for the configuration. `cut` only ends the observation of a loop that goes on. The disposition of SIGPIPE is
inherited, as the program never sets it: a service manager may have it ignored, and then the write fails and its result
is not looked at.

What is left out: output to the terminal, chmod and chown, and the lengths of the pauses.
-/
import Miqudm.Daemon.PamAuth
import Miqudm.Common.Ipc
import Miqudm.Common.Config

namespace Miqudm

open Miqudm.Core

/-! ## The surroundings -/

/-- a process id as fork returns it to the parent -/
abbrev Pid := {p : ℤ // 0 < p}

structure Cred where
  uid : UInt32
  gid : UInt32
  groups : List UInt32
deriving DecidableEq, Repr

inductive WaitStatus where
  | exited (code : ℕ)
  | signaled (sig : ℕ)
  | other (status : ℤ)
deriving DecidableEq, Repr

/-- waitpid with WNOHANG: the pid, 0, or -1 -/
inductive WaitAnswer where
  | reaped (status : WaitStatus)
  | running
  | failed
deriving DecidableEq, Repr

inductive PollAnswer where
  | ready
  | quiet
  | interrupted
  | failed
deriving DecidableEq, Repr

/-- what the system calls of a forked child answer -/
structure ChildAnswers where
  initgroups : Bool
  setgid : Bool
  setuid : Bool
  /-- can the directory be entered -/
  chdir : Str → Bool
  /-- can the file be executed -/
  execl : Str → Bool

structure Env where
  pam : PamEnv
  json : JsonCpp
  /-- SIGINT or SIGTERM is delivered -/
  signal : ℕ → Bool
  passwd : ℕ → List Passwd
  getlogin : ℕ → Option CStr
  /-- the credentials the daemon runs with -/
  self : Cred
  getgrouplist : Str → UInt32 → List UInt32
  /-- what it inherits besides: its environment, its working directory, and whether SIGPIPE is ignored -/
  environ : List (Str × Str)
  cwd : Str
  ignoresSigpipe : Bool
  /-- the directories and files at the start -/
  dirs : List Str
  files : Files
  /-- paths the daemon neither creates nor writes -/
  pathExists : ℕ → Str → Bool
  /-- can it be told whether a path exists -/
  statusTold : ℕ → Str → Bool
  isFile : ℕ → Str → Bool
  listing : ℕ → Str → Option Listing
  /-- the directory is there, or it can be made -/
  mkdir : ℕ → Str → Bool
  socket : ℕ → Bool
  bind : ℕ → Bool
  listen : ℕ → Bool
  poll : ℕ → PollAnswer
  /-- a client and the chunks in which its bytes will be read; after the last one it has closed its end -/
  accept : ℕ → Option (List Str)
  peerOpen : ℕ → Bool
  logind : ℕ → Bool
  fork : ℕ → Option Pid
  child : ℕ → ChildAnswers
  waitpid : ℕ → WaitAnswer
  /-- a blocking waitpid on the session: how often it is interrupted, and what it reports then (`none`: an error) -/
  interrupts : ℕ → ℕ
  waitEnd : ℕ → Option WaitStatus
  /-- opening the configuration file for writing, and how many characters reach it -/
  openFile : ℕ → Bool
  room : ℕ → Option ℕ

/-! ## The process -/

inductive Channel where
  | listening
  | client
deriving DecidableEq, Repr

/-- an open descriptor -/
structure Desc where
  fd : ℤ
  what : Channel
  cloexec : Bool
deriving DecidableEq, Repr

/-- the locals of `handle_client_connection` -/
structure Frame where
  clientFd : ℤ
  buffer : Str := []
  accumulated : Str := []
  line : Str := []
  req : IpcMessage := {}
deriving DecidableEq, Repr

structure St where
  now : ℕ := 0
  pam : Libpam := {}
  fds : List Desc := []
  nextFd : ℤ := 3
  dirs : List Str := []
  sockets : List Str := []
  files : Files := []
  config : Config := {}
  running : Bool := false
  socketPath : Str := []
  serverSocketFd : ℤ := -1
  greeterPid : ℤ := -1
  greeterPam : Option PamAuth := none
  activePam : Option PamAuth := none
  /-- the launcher's `m_session_pid` -/
  sessionPid : ℤ := -1
  cachedUsers : List UserInfo := []
  cachedSessions : List SessionInfo := []
  frame : Option Frame := none

def boot (E : Env) : St := { dirs := E.dirs, files := E.files }

/-! ## Children -/

inductive ChildKind where
  | greeter
  | session
deriving DecidableEq, Repr

/-- what an exec'ed program starts with -/
structure Image where
  path : Str
  argv : List Str
  cred : Cred
  env : List (Str × Str)
  cwd : Str
  fds : List Desc
deriving DecidableEq, Repr

inductive Fate where
  | exec (image : Image)
  | exit (code : ℕ)
  /-- a null pointer is read -/
  | crash
deriving DecidableEq, Repr

/-- a forked child: the arguments it hands to the three calls, where it makes them, and how it ends -/
structure Child where
  initgroups : Option (Str × UInt32) := none
  setgid : Option UInt32 := none
  setuid : Option UInt32 := none
  fate : Fate
deriving DecidableEq, Repr

/-- `clearenv` -/
def clearenv (_environ : List (Str × Str)) : List (Str × Str) := []

/-- `setenv(name, value, 1)`: an empty name or one with '=' is refused -/
def setenv (name value : Str) (env : List (Str × Str)) : List (Str × Str) :=
  let name := cstr name
  let value := cstr value
  if name = [] ∨ '=' ∈ name then env
  else if env.any fun v => v.1 = name then env.map fun v => if v.1 = name then (name, value) else v
  else env ++ [(name, value)]

/-- the loop that overlays the PAM environment: an entry without '=' is skipped -/
def overlay (entries : List Str) (env : List (Str × Str)) : List (Str × Str) :=
  entries.foldl (fun env entry => match splitFirst '=' entry with
    | some (k, v) => setenv k v env
    | none => env) env

/-- what is left open across exec -/
def keptAcrossExec (fds : List Desc) : List Desc := fds.filter fun d => ¬ d.cloexec

/-! ## Programs of the daemon -/

inductive Signal where
  | sigterm
  | sigkill
deriving DecidableEq, Repr

inductive Event where
  | stop
  | pam (call : PamCall)
  /-- with those of the path's directories that are there afterwards -/
  | createDirectories (path : Str) (made : List Str)
  | unlink (path : Str)
  | socket (ok : Bool)
  | bind (path : Str) (ok : Bool)
  | listen (ok : Bool)
  | close (fd : ℤ)
  | fork (what : ChildKind) (result : Option (Pid × Child))
  | kill (pid : ℤ) (sig : Signal)
  | waitpid (pid : ℤ) (answer : WaitAnswer)
  /-- `waitpid` on a session is entered, and blocks -/
  | waiting (pid : ℤ)
  /-- a waitpid that blocks: interrupted, or done -/
  | waitInterrupted (pid : ℤ)
  | waitDone (pid : ℤ) (status : Option WaitStatus)
  /-- a member is assigned -/
  | assign
  | sleep
  | logind (method : Str) (ok : Bool)
  | save (path : Str)
  | poll (answer : PollAnswer)
  | accept (fd : Option ℤ)
  | read (chunk : Str)
  /-- `process_message` is entered, and returns -/
  | received (req : IpcMessage)
  | served
  | reply (resp : IpcMessage)
  | stopGreeter
  | launch (user : UserInfo) (session : SessionInfo)
  /-- `m_running` is read -/
  | readRunning
  /-- the head of the loop of `run`, and its return -/
  | head
  | finished
deriving DecidableEq, Repr

inductive Halt where
  | sigpipe
  | uncaught (what : Thrown)
  /-- uncaught as well, from a session scan or the search for the configuration -/
  | filesystemError
  | cut
deriving DecidableEq, Repr

abbrev Sys (α : Type) : Type := Prog St Event Halt α

variable (E : Env)

def St.setRunning (s : St) (running : Bool) : St := { s with running := running }

/-- the signal handler may run: it calls `Daemon::stop()` -/
def interfere : Sys Unit := do
  if E.signal (← Prog.get).now then Prog.act .stop fun s => s.setRunning false

def St.tick (s : St) (now : ℕ) : St := { s with now := now }

/-- one operation of the daemon -/
def op (e : Event) (f : St → St) : Sys Unit := do
  interfere E
  Prog.act e fun s => (f s).tick (s.now + 1)

/-- one call of a `PamAuth` method -/
def onPam {α : Type} (x : PamM α) : Sys α := do
  interfere E
  Prog.zoom St.pam (fun p s => { s with pam := p }.tick (s.now + 1)) Event.pam x

/-- `std::filesystem::exists` -/
def St.pathExists (s : St) (p : Str) : Bool :=
  p ∈ s.dirs || (readFile s.files p).isSome || E.pathExists s.now p

/-- `std::filesystem::create_directories`: from the top down, until one cannot be made; what was made stays -/
def createDirectories (path : Str) : Sys Unit := do
  let s ← Prog.get
  let made := (ancestors path).takeWhile fun dir => dir ∈ s.dirs || E.mkdir s.now dir
  op E (.createDirectories path made) fun s => { s with dirs := s.dirs ++ made }

def unlink (path : Str) : Sys Unit :=
  op E (.unlink path) fun s => { s with sockets := s.sockets.filter fun p => p ≠ path }

def close (fd : ℤ) : Sys Unit :=
  op E (.close fd) fun s => { s with fds := s.fds.filter fun d => d.fd ≠ fd }

/-- `fork`: the child goes its own way from the parent's state -/
def fork (what : ChildKind) (child : St → ChildAnswers → Child) : Sys (Option Pid) := do
  let s ← Prog.get
  op E (.fork what ((E.fork s.now).map fun pid => (pid, child s (E.child s.now)))) id
  return E.fork s.now

/-- write a reply to the client. When the client's end is closed, SIGPIPE ends the process unless it is ignored; then the
write fails with EPIPE, which nothing looks at -/
def reply (resp : IpcMessage) : Sys Unit := do
  op E (.reply resp) id
  if ¬ E.peerOpen (← Prog.get).now ∧ ¬ E.ignoresSigpipe then Prog.halt .sigpipe

/-- read `m_running` -/
def readRunning : Sys Bool := do
  op E .readRunning id
  return (← Prog.get).running

end Miqudm
