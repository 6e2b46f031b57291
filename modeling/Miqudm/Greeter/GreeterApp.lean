/-
The greeter (`src/greeter/greeter_app.cpp`).

The state is what the user interface holds: the two lists, the two selections, which cards are highlighted, the text of
the password field (`none` before the interface is set up) and the status line. `Attempt` is what `attempt_login` makes
of them; it looks only whether the lists are empty before it indexes them, so an index past their end is an outcome of
its own, after which nothing is known (`outOfBounds`). A login takes what the daemon answers: a reply, or none when the
exchange fails. `init` takes what the surroundings answer: the exchanges with the daemon, and what the scanners find
when these do not serve. A `UiEvent` is one thing the user does, which the toolkit hands to one handler; the text of the
field changes by typing and by `clear()` only.
-/
import Miqudm.Greeter.IpcClient

namespace Miqudm

/-! ## The application -/

structure GreeterApp where
  testMode : Bool := false
  users : List UserInfo := []
  sessions : List SessionInfo := []
  selectedUserIdx : ℕ := 0
  selectedSessionIdx : ℤ := 0
  /-- which cards of the grid are highlighted -/
  cards : List Bool := []
  passwordInput : Option Str := none
  statusLabel : Str := []
  closed : Bool := false
  /-- a vector was indexed past its end -/
  outOfBounds : Bool := false
deriving DecidableEq, Repr

namespace GreeterApp

def selectUser (app : GreeterApp) (index : ℕ) : GreeterApp :=
  if index ≥ app.users.length then app
  else { app with
    selectedUserIdx := index
    cards := app.cards.mapIdx fun i _ => i = index
    passwordInput := app.passwordInput.map fun _ => []
    statusLabel := [] }

def selectSession (app : GreeterApp) (index : ℤ) : GreeterApp :=
  if index < 0 ∨ index ≥ app.sessions.length then app
  else { app with selectedSessionIdx := index, statusLabel := [] }

/-- the entry a vector access with an `int` index reads, when the index is in range -/
def selectedSession (app : GreeterApp) : Option SessionInfo :=
  if app.selectedSessionIdx < 0 then none else app.sessions[app.selectedSessionIdx.toNat]?

/-- what `attempt_login` comes to before it asks the daemon -/
inductive Attempt where
  /-- one of the lists is empty -/
  | nothing
  | outOfBounds
  /-- in test mode: the message -/
  | preview (msg : Str)
  | send (req : IpcMessage)
deriving DecidableEq, Repr

def attempt (app : GreeterApp) : Attempt :=
  if app.users = [] ∨ app.sessions = [] then .nothing
  else match app.users[app.selectedUserIdx]?, app.selectedSession with
    | some user, some session =>
      if app.testMode then
        .preview (lit "Test Mode: Authenticated as " ++ user.username ++ lit " (" ++ session.name ++ lit ")")
      else .send (loginRequest user.username (app.passwordInput.getD []) session.exec session.id)
    | _, _ => .outOfBounds

/-- the request `attempt_login` sends, if it sends one -/
def request (app : GreeterApp) : Option IpcMessage :=
  match app.attempt with
  | .send req => some req
  | _ => none

/-- `GreeterApp::attempt_login`, with what the daemon answers to a request -/
def attemptLogin (app : GreeterApp) (answer : IpcMessage → Option IpcMessage) : GreeterApp :=
  match app.attempt with
  | .nothing => app
  | .outOfBounds => { app with outOfBounds := true }
  | .preview msg => { app with statusLabel := msg }
  | .send req =>
    match loginOutcome (answer req) with
    | (false, error) => { app with
      statusLabel := if error = [] then lit "Authentication failed" else error
      passwordInput := app.passwordInput.map fun _ => [] }
    | (true, _) => { app with statusLabel := lit "Login successful. Launching session...", closed := true }

/-! ## The start -/

/-- what surrounds a starting greeter: its two exchanges with the daemon, and what its own scans see -/
structure Surroundings where
  json : JsonCpp
  client : IpcClient
  usersExchange : Exchange
  sessionsExchange : Exchange
  passwd : List Passwd
  getlogin : Option CStr
  uid : UInt32
  gid : UInt32
  isFile : Str → Bool
  listing : Str → Option Listing

/-- an exception that nothing in the greeter catches: one of jsoncpp, or that of its own session scan -/
inductive Uncaught where
  | json (what : Thrown)
  | filesystemError
deriving DecidableEq, Repr

/-- `m_ipc.get_users(m_users) && m_ipc.get_sessions(m_sessions)`, which is not asked in test mode: did it load, and the
two lists -/
def loadIpc (G : Surroundings) (testMode : Bool) : Except Thrown (Bool × List UserInfo × List SessionInfo) := do
  if testMode then return (false, [], [])
  else
    let (ok, users) ← G.client.getUsers G.json G.usersExchange []
    if ok then
      let (ok, sessions) ← G.client.getSessions G.json G.sessionsExchange []
      return (ok, users, sessions)
    else return (false, users, [])

/-- what `setup_ui` makes of the state: a card for every user, with the selected one highlighted, and an empty field -/
def setupUi (app : GreeterApp) : GreeterApp := { app with
  cards := (List.range app.users.length).map fun i => i = app.selectedUserIdx
  passwordInput := some []
  statusLabel := [] }

/-- `SessionScanner::scan_all()` -/
def scanSessions (G : Surroundings) : Except Uncaught (List SessionInfo) :=
  match scanAll G.listing with
  | none => .error .filesystemError
  | some sessions => .ok sessions

/-- `GreeterApp::init`, with an engine and a window -/
def init (G : Surroundings) (testMode : Bool) : Except Uncaught GreeterApp := do
  let (loadedIpc, users, sessions) ← (loadIpc G testMode).mapError .json
  let users := if ¬ loadedIpc ∨ users = [] then scanUsers G.passwd G.getlogin G.uid G.gid G.isFile else users
  let sessions ← if ¬ loadedIpc ∨ sessions = [] then scanSessions G else .ok sessions
  return setupUi { testMode, users, sessions }

/-! ## What the user does -/

inductive UiEvent where
  /-- a character is typed into the password field at a position, or deleted from one -/
  | typed (position : ℕ) (c : Char)
  | erased (position : ℕ)
  /-- a card is clicked -/
  | click (index : ℕ)
  /-- an entry of the session list is picked -/
  | pick (index : ℤ)
  /-- the form is submitted, and the daemon answers -/
  | submit (answer : IpcMessage → Option IpcMessage)

def handle (app : GreeterApp) : UiEvent → GreeterApp
  | .typed position c =>
    { app with passwordInput := app.passwordInput.map fun text => text.take position ++ c :: text.drop position }
  | .erased position => { app with passwordInput := app.passwordInput.map fun text => text.eraseIdx position }
  | .click index => app.selectUser index
  | .pick index => app.selectSession index
  | .submit answer => app.attemptLogin answer

def handleAll (app : GreeterApp) (events : List UiEvent) : GreeterApp := events.foldl handle app

end GreeterApp

end Miqudm
