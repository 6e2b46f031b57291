/-
The client of the greeter (`src/greeter/ipc_client.cpp`).

Every request is an exchange over a connection of its own: connect, write the request, wait for the reply with a
timeout, and read until a line is complete. `Exchange` is what the surroundings answer to one of them. An exception of
the decoder escapes from every method.
-/
import Miqudm.Common.Ipc

namespace Miqudm

/-! ## An exchange -/

/-- what the system calls of one exchange answer -/
structure Exchange where
  socket : Bool
  /-- can the socket at this path be connected to? -/
  connect : Str → Bool
  /-- what write returns: how many characters it took, or -1 -/
  written : ℤ
  /-- does poll report input before this timeout? -/
  poll : ℕ → Bool
  /-- what the reads deliver; after the last one the stream has ended, or a read fails -/
  reads : List Str

/-- `addr.sun_path`: as much of the path as fits -/
def sunPath (socketPath : Str) : Str := (cstr socketPath).take 107

/-- the loop of `send_request`: the text it decodes, if any. A line is decoded as soon as it is complete; when the stream
ends, so is what has arrived. -/
def receive (responseRaw : Str) : List Str → Option Str
  | [] => if responseRaw = [] then none else some responseRaw
  | chunk :: chunks =>
    if chunk = [] then if responseRaw = [] then none else some responseRaw
    else match splitFirst '\n' (responseRaw ++ cstr chunk) with
      | some (line, _) => some line
      | none => receive (responseRaw ++ cstr chunk) chunks

structure IpcClient where
  socketPath : Str
deriving DecidableEq, Repr

namespace IpcClient

/-- the constructor -/
def new (pathExists : Str → Bool) : IpcClient := ⟨getSocketPath pathExists⟩

variable (J : JsonCpp) (client : IpcClient) (X : Exchange)

/-- `IpcClient::send_request`: the result, and `out_resp` -/
def sendRequest (req outResp : IpcMessage) (timeoutMs : ℕ) : Except Thrown (Bool × IpcMessage) :=
  let payload := req.serialize J
  if ¬ X.socket then .ok (false, outResp)
  else if ¬ X.connect (sunPath client.socketPath) then .ok (false, outResp)
  else if X.written < payload.length then .ok (false, outResp)
  else if ¬ X.poll timeoutMs then .ok (false, outResp)
  else match receive [] X.reads with
    | some text => (deserialize J text).map fun resp => (true, resp)
    | none => .ok (false, outResp)

end IpcClient

/-- the request `IpcClient::login` sends -/
def loginRequest (username password sessionExec desktopName : Str) : IpcMessage :=
  { type := .login, username := username, password := password, sessionExec := sessionExec, desktopName := desktopName }

/-- what `IpcClient::login` makes of the reply: success, and the error message -/
def loginOutcome : Option IpcMessage → Bool × Str
  | none => (false, lit "Failed to communicate with miqudm daemon")
  | some resp =>
    if ¬ resp.success then (false, if resp.message ≠ [] then resp.message else lit "Authentication failed")
    else (true, [])

/-! ## The requests of the greeter -/

namespace IpcClient

variable (J : JsonCpp) (client : IpcClient) (X : Exchange)

def ping : Except Thrown Bool := do
  let (ok, resp) ← client.sendRequest J X { type := .ping } {} 500
  return ok && resp.success

/-- `IpcClient::get_users`: the result, and `out_users` -/
def getUsers (outUsers : List UserInfo) : Except Thrown (Bool × List UserInfo) := do
  let (ok, resp) ← client.sendRequest J X { type := .getUsers } {} 1000
  return if ok && resp.success then (true, resp.users) else (false, outUsers)

/-- `IpcClient::get_sessions`: the result, and `out_sessions` -/
def getSessions (outSessions : List SessionInfo) : Except Thrown (Bool × List SessionInfo) := do
  let (ok, resp) ← client.sendRequest J X { type := .getSessions } {} 1000
  return if ok && resp.success then (true, resp.sessions) else (false, outSessions)

/-- `IpcClient::login`: the result, and `out_error_message`, which a success leaves as it was -/
def login (username password sessionExec desktopName outErrorMessage : Str) : Except Thrown (Bool × Str) := do
  let (ok, resp) ← client.sendRequest J X (loginRequest username password sessionExec desktopName) {} 10000
  let (success, error) := loginOutcome (if ok then some resp else none)
  return (success, if success then outErrorMessage else error)

def powerAction (action : Str) : Except Thrown Bool := do
  let (ok, resp) ← client.sendRequest J X { type := .powerAction, powerAction := action } {} 2000
  return ok && resp.success

end IpcClient

end Miqudm
