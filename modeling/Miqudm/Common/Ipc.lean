/-
The IPC messages and their JSON codec (`src/common/ipc.cpp`, `ipc.hpp`).

jsoncpp is a parameter: `JsonCpp.write` is the writer with empty indentation, and `JsonCpp.parse` is `parseFromStream`
with the default builder, which reports an error, throws (past its nesting limit), or yields a root of any JSON type.
The accessors are modelled as jsoncpp documents them: `get` and `isMember` throw on a value that is neither null nor an
object; `asString`, `asBool` and `asUInt64` convert the scalars they accept and throw on the rest. A double is kept as
the three readings these accessors take of it (`JsonReal`).
-/
import Mathlib.Algebra.Group.Int.Defs
import Miqudm.Common.UserScanner
import Miqudm.Common.SessionScanner

namespace Miqudm

/-! ## JSON values -/

/-- a double: its text, whether it counts as true, and its value as a 64-bit integer when it is in range -/
structure JsonReal where
  text : Str
  truthy : Bool
  uint64 : Option UInt64
deriving DecidableEq, Repr

inductive Json where
  | null
  | bool (b : Bool)
  | int (i : ℤ)
  | real (r : JsonReal)
  | str (s : Str)
  | arr (elems : List Json)
  | obj (members : List (Str × Json))

/-- the exceptions jsoncpp throws: `RuntimeError` from the reader, `LogicError` from the accessors -/
inductive Thrown where
  | runtimeError
  | logicError
deriving DecidableEq, Repr

/-- how `parseFromStream` comes out -/
inductive Parsed where
  | root (j : Json)
  | failed (errs : Str)
  | threw

structure JsonCpp where
  parse : Str → Parsed
  write : Json → Str

namespace Json

/-- `Value::find`, under `get` and `isMember` -/
def find (j : Json) (key : Str) : Except Thrown (Option Json) :=
  match j with
  | .null => .ok none
  | .obj members => .ok (members.lookup key)
  | _ => .error .logicError

/-- `Value::get` -/
def get (j : Json) (key : Str) (defaultValue : Json) : Except Thrown Json := do
  return (← j.find key).getD defaultValue

def asString : Json → Except Thrown Str
  | .null => .ok []
  | .bool b => .ok (if b then lit "true" else lit "false")
  | .int i => .ok (decimal i)
  | .real r => .ok r.text
  | .str s => .ok s
  | .arr _ => .error .logicError
  | .obj _ => .error .logicError

def asBool : Json → Except Thrown Bool
  | .null => .ok false
  | .bool b => .ok b
  | .int i => .ok (i ≠ 0)
  | .real r => .ok r.truthy
  | .str _ => .error .logicError
  | .arr _ => .error .logicError
  | .obj _ => .error .logicError

def asUInt64 : Json → Except Thrown UInt64
  | .null => .ok 0
  | .bool b => .ok (if b then 1 else 0)
  | .int i => if 0 ≤ i ∧ i < 2 ^ 64 then .ok (UInt64.ofNat i.toNat) else .error .logicError
  | .real r => match r.uint64 with
    | some n => .ok n
    | none => .error .logicError
  | .str _ => .error .logicError
  | .arr _ => .error .logicError
  | .obj _ => .error .logicError

end Json

/-! ## Messages -/

inductive IpcMessageType where
  | unknown
  | ping
  | getUsers
  | getSessions
  | login
  | powerAction
  | response
  | sessionStatus
deriving DecidableEq, Repr

structure IpcMessage where
  type : IpcMessageType := .unknown
  success : Bool := false
  message : Str := []
  username : Str := []
  password : Str := []
  sessionExec : Str := []
  desktopName : Str := []
  powerAction : Str := []
  users : List UserInfo := []
  sessions : List SessionInfo := []
deriving DecidableEq, Repr

def typeToString : IpcMessageType → Str
  | .ping => lit "ping"
  | .getUsers => lit "get_users"
  | .getSessions => lit "get_sessions"
  | .login => lit "login"
  | .powerAction => lit "power_action"
  | .response => lit "response"
  | .sessionStatus => lit "session_status"
  | .unknown => lit "unknown"

def stringToType (str : Str) : IpcMessageType :=
  if str = lit "ping" then .ping
  else if str = lit "get_users" then .getUsers
  else if str = lit "get_sessions" then .getSessions
  else if str = lit "login" then .login
  else if str = lit "power_action" then .powerAction
  else if str = lit "response" then .response
  else if str = lit "session_status" then .sessionStatus
  else .unknown

def userToJson (u : UserInfo) : Json := .obj [
  (lit "username", .str u.username), (lit "display_name", .str u.displayName), (lit "home_dir", .str u.homeDir),
  (lit "avatar_path", .str u.avatarPath), (lit "uid", .int u.uid.toNat), (lit "gid", .int u.gid.toNat),
  (lit "shell", .str u.shell)]

def sessionToJson (s : SessionInfo) : Json := .obj [
  (lit "id", .str s.id), (lit "name", .str s.name), (lit "exec", .str s.exec), (lit "comment", .str s.comment),
  (lit "desktop_names", .str s.desktopNames), (lit "desktop_file", .str s.desktopFile),
  (lit "is_wayland", .bool s.isWayland)]

/-- a string member that is left out when empty -/
def optional (key val : Str) : List (Str × Json) := if val = [] then [] else [(key, .str val)]

namespace IpcMessage

def toJson (m : IpcMessage) : Json := .obj (
  [(lit "type", .str (typeToString m.type)), (lit "success", .bool m.success), (lit "message", .str m.message)] ++
  optional (lit "username") m.username ++
  optional (lit "password") m.password ++
  optional (lit "session_exec") m.sessionExec ++
  optional (lit "desktop_name") m.desktopName ++
  optional (lit "power_action") m.powerAction ++
  (if m.users = [] then [] else [(lit "users", .arr (m.users.map userToJson))]) ++
  (if m.sessions = [] then [] else [(lit "sessions", .arr (m.sessions.map sessionToJson))]))

/-- `IpcMessage::serialize` -/
def serialize (J : JsonCpp) (m : IpcMessage) : Str := J.write m.toJson ++ lit "\n"

end IpcMessage

/-- `root.get(key, "").asString()` and its like -/
def stringField (j : Json) (key : Str) (defaultValue : Str) : Except Thrown Str := do
  (← j.get key (.str defaultValue)).asString

def boolField (j : Json) (key : Str) (defaultValue : Bool) : Except Thrown Bool := do
  (← j.get key (.bool defaultValue)).asBool

/-- `static_cast<uid_t>(uval.get(key, 0).asUInt64())` -/
def idField (j : Json) (key : Str) : Except Thrown UInt32 := do
  return (← (← j.get key (.int 0)).asUInt64).toUInt32

def jsonToUser (uval : Json) : Except Thrown UserInfo := do
  return {
    username := ← stringField uval (lit "username") []
    displayName := ← stringField uval (lit "display_name") []
    homeDir := ← stringField uval (lit "home_dir") []
    avatarPath := ← stringField uval (lit "avatar_path") []
    uid := ← idField uval (lit "uid")
    gid := ← idField uval (lit "gid")
    shell := ← stringField uval (lit "shell") (lit "/bin/bash") }

def jsonToSession (sval : Json) : Except Thrown SessionInfo := do
  return {
    id := ← stringField sval (lit "id") []
    name := ← stringField sval (lit "name") []
    exec := ← stringField sval (lit "exec") []
    comment := ← stringField sval (lit "comment") []
    desktopNames := ← stringField sval (lit "desktop_names") []
    desktopFile := ← stringField sval (lit "desktop_file") []
    isWayland := ← boolField sval (lit "is_wayland") true }

/-- `if (root.isMember(key) && root[key].isArray()) for (…) push_back(item(…))` -/
def listField {α : Type} (item : Json → Except Thrown α) (root : Json) (key : Str) : Except Thrown (List α) := do
  match ← root.find key with
  | some (.arr elems) => elems.mapM item
  | _ => return []

/-- the decoding of a parsed root -/
def messageOfJson (root : Json) : Except Thrown IpcMessage := do
  return {
    type := stringToType (← stringField root (lit "type") (lit "unknown"))
    success := ← boolField root (lit "success") false
    message := ← stringField root (lit "message") []
    username := ← stringField root (lit "username") []
    password := ← stringField root (lit "password") []
    sessionExec := ← stringField root (lit "session_exec") []
    desktopName := ← stringField root (lit "desktop_name") []
    powerAction := ← stringField root (lit "power_action") []
    users := ← listField jsonToUser root (lit "users")
    sessions := ← listField jsonToSession root (lit "sessions") }

/-- `IpcMessage::deserialize`: a message, or an exception that escapes -/
def deserialize (J : JsonCpp) (rawJson : Str) : Except Thrown IpcMessage :=
  match J.parse rawJson with
  | .failed errs => .ok { message := lit "Failed to parse JSON: " ++ errs }
  | .threw => .error .runtimeError
  | .root root => messageOfJson root

/-! ## The socket path -/

def defaultSocketPath : Str := lit "/run/miqudm/socket"
def fallbackSocketPath : Str := lit "/tmp/miqudm.sock"

/-- `get_socket_path` -/
def getSocketPath (pathExists : Str → Bool) : Str :=
  if pathExists (lit "/run/miqudm") then defaultSocketPath else fallbackSocketPath

end Miqudm
