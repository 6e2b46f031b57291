/-
The session scan (`src/common/session_scanner.hpp`): the Wayland sessions a user can pick.

A directory is what its iterator yields, in that order: `none` when it does not exist, is no directory or cannot be
opened. An entry has its path, what `is_regular_file` answers, and its text (`none` when it cannot be opened). Two calls
of the scan are the throwing overloads: `is_regular_file` throws on an entry whose status cannot be told (a loop of
symbolic links), and the increment of the iterator on a read error. Nothing catches what they throw, so a scan is `none`
then.
-/
import Miqudm.Common.Text

namespace Miqudm

structure SessionInfo where
  id : Str := []
  name : Str := []
  exec : Str := []
  comment : Str := []
  desktopNames : Str := []
  desktopFile : Str := []
  isWayland : Bool := true
deriving DecidableEq, Repr

structure DirEntry where
  path : Str
  /-- `entry.is_regular_file()`, `none` when it throws -/
  isRegularFile : Option Bool
  text : Option Str
deriving DecidableEq, Repr

structure Listing where
  entries : List DirEntry
  /-- the increment after the last entry throws -/
  breaksOff : Bool := false
deriving DecidableEq, Repr

/-- the four keys a desktop file may set: the first three keep their first non-empty value -/
def desktopKey (info : SessionInfo) (key val : Str) : SessionInfo :=
  if key = lit "Name" ∧ info.name = [] then { info with name := val }
  else if key = lit "Exec" ∧ info.exec = [] then { info with exec := val }
  else if key = lit "Comment" ∧ info.comment = [] then { info with comment := val }
  else if key = lit "DesktopNames" then { info with desktopNames := val }
  else info

/-- one line of a desktop file; the flag is `in_desktop_entry` -/
def desktopLine (st : Bool × SessionInfo) (raw : Str) : Bool × SessionInfo :=
  let line := trim raw
  if line = [] ∨ line.head? = some '#' then st
  else if line = lit "[Desktop Entry]" then (true, st.2)
  else if line.head? = some '[' then (false, st.2)
  else if st.1 = false then st
  else match splitFirst '=' line with
    | none => st
    | some (key, val) => (st.1, desktopKey st.2 key val)

/-- `SessionScanner::parse_desktop_file` -/
def parseDesktopFile (filePath : Str) (text : Option Str) (isWayland : Bool) : SessionInfo :=
  let start : SessionInfo := { desktopFile := filePath, id := stem filePath, isWayland := isWayland }
  match text with
  | none => start
  | some text =>
    let info := ((lines text).foldl desktopLine (false, start)).2
    let info := if info.name = [] then { info with name := info.id } else info
    if info.desktopNames = [] then { info with desktopNames := info.name } else info

/-- a regular file that `scan_directory` visits: a session with the id or the name of an earlier one is dropped -/
def scanFile (isWayland : Bool) (out : List SessionInfo) (entry : DirEntry) : List SessionInfo :=
  if extension entry.path ≠ lit ".desktop" then out
  else
    let session := parseDesktopFile entry.path entry.text isWayland
    if session.name = [] ∨ session.exec = [] then out
    else if (out.find? fun s => s.id = session.id ∨ s.name = session.name).isSome then out
    else out ++ [session]

/-- one directory entry of `scan_directory` -/
def scanEntry (isWayland : Bool) (out : List SessionInfo) (entry : DirEntry) : Option (List SessionInfo) := do
  if ← entry.isRegularFile then return scanFile isWayland out entry else return out

/-- `SessionScanner::scan_directory`; the iterator is constructed with an error code, so a directory whose first entry
cannot be read has no entries -/
def scanDirectory (listing : Option Listing) (isWayland : Bool) (out : List SessionInfo) : Option (List SessionInfo) :=
  match listing with
  | none => some out
  | some l => do
    let sessions ← l.entries.foldlM (scanEntry isWayland) out
    if l.breaksOff ∧ l.entries ≠ [] then none else some sessions

def fallbackSession : SessionInfo where
  id := lit "miquland"
  name := lit "miquland (Wayland)"
  exec := lit "miquland"
  comment := lit "Default miquland Wayland Compositor"
  desktopNames := lit "miquland"
  isWayland := true

/-- `SessionScanner::scan_all` -/
def scanAll (listing : Str → Option Listing) : Option (List SessionInfo) := do
  let sessions ← scanDirectory (listing (lit "/usr/share/wayland-sessions")) true []
  let sessions ← scanDirectory (listing (lit "/usr/local/share/wayland-sessions")) true sessions
  if sessions = [] then return [fallbackSession] else return sessions

end Miqudm
