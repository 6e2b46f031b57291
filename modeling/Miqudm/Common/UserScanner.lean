/-
The user scan (`src/common/user_scanner.hpp`): which accounts of the passwd database the greeter offers, and the uid and
gid a login looks up.

The passwd database is the list of its entries in the order `getpwent` delivers them; `getpwnam` finds the first entry
of a name. Strings of an entry are C strings, and a null pointer is `none`. `scanUsers` takes what the surroundings
answer: the database, `getlogin`, the ids of the calling process, and which paths are regular files.
-/
import Miqudm.Common.Text

namespace Miqudm

/-- an entry of the passwd database (`struct passwd`) -/
structure Passwd where
  pwName : CStr
  pwUid : UInt32
  pwGid : UInt32
  pwGecos : Option CStr
  pwDir : Option CStr
  pwShell : Option CStr
deriving DecidableEq, Repr

def getpwnam (db : List Passwd) (name : Str) : Option Passwd := db.find? fun pw => pw.pwName.chars = name

structure UserInfo where
  username : Str := []
  displayName : Str := []
  homeDir : Str := []
  avatarPath : Str := []
  uid : UInt32 := 0
  gid : UInt32 := 0
  shell : Str := lit "/bin/bash"
deriving DecidableEq, Repr

/-- a C string that may be null, as the empty string when it is -/
def orEmpty (s : Option CStr) : Str := (s.map CStr.chars).getD []

/-- `UserScanner::find_user_avatar`; `isFile` is `exists && is_regular_file` -/
def findUserAvatar (isFile : Str → Bool) (username homeDir : Str) : Str :=
  let face := homeDir ++ lit "/.face"
  let faceIcon := homeDir ++ lit "/.face.icon"
  let actIcon := lit "/var/lib/AccountsService/icons/" ++ username
  if isFile face then face
  else if isFile faceIcon then faceIcon
  else if isFile actIcon then actIcon
  else []

/-- the filter of the scan: an interactive account, not a system one -/
def interactive (pw : Passwd) : Bool :=
  1000 ≤ pw.pwUid ∧ pw.pwUid < 60000 ∧ pw.pwName.chars ≠ lit "nobody" ∧
    ¬ (contains (lit "nologin") (orEmpty pw.pwShell) ∨ contains (lit "false") (orEmpty pw.pwShell))

/-- the GECOS field up to the first comma -/
def displayNameOf (pw : Passwd) : Str :=
  let gecos := orEmpty pw.pwGecos
  let name := match splitFirst ',' gecos with
    | some (before, _) => before
    | none => gecos
  if name = [] then pw.pwName.chars else name

def userInfoOf (isFile : Str → Bool) (pw : Passwd) : UserInfo where
  username := pw.pwName.chars
  displayName := displayNameOf pw
  homeDir := orEmpty pw.pwDir
  avatarPath := findUserAvatar isFile pw.pwName.chars (orEmpty pw.pwDir)
  uid := pw.pwUid
  gid := pw.pwGid
  shell := if orEmpty pw.pwShell = [] then lit "/bin/bash" else orEmpty pw.pwShell

/-- the entry made up from the calling process when no account qualifies -/
def fallbackUser (login : Option CStr) (uid gid : UInt32) : UserInfo :=
  let curUser := match login with
    | some name => name.chars
    | none => lit "user"
  { username := curUser, displayName := curUser, homeDir := lit "/home/" ++ curUser, uid := uid, gid := gid,
    shell := lit "/bin/bash" }

/-- `UserScanner::scan_users` -/
def scanUsers (db : List Passwd) (login : Option CStr) (uid gid : UInt32) (isFile : Str → Bool) : List UserInfo :=
  let users := (db.filter interactive).map (userInfoOf isFile)
  if users = [] then [fallbackUser login uid gid] else users

end Miqudm
