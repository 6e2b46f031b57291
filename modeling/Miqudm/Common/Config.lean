/-
The configuration (`src/common/config.cpp`, `config.hpp`): a line-oriented file of two sections, and the record it is
read into and written from. `load` and `save` take the files as they stand; reading and writing them is `readFile` and
`writeFile` on the list of files.
-/
import Miqudm.Common.Text

namespace Miqudm

structure GeneralConfig where
  defaultSession : Str := lit "miquland"
  rememberLastUser : Bool := true
  lastUser : Str := []
  greeterCommand : Str := lit "miquland -s /usr/bin/miqudm-greeter"
  greeterUser : Str := lit "greeter"
  vt : ℤ := 1
  numlock : Bool := false
deriving DecidableEq, Repr

structure AutologinConfig where
  enabled : Bool := false
  user : Str := []
  session : Str := lit "miquland"
deriving DecidableEq, Repr

structure Config where
  general : GeneralConfig := {}
  autologin : AutologinConfig := {}
  loadedPath : Str := []
deriving DecidableEq, Repr

/-- what can be opened for reading, by path: the files with their texts; a directory can be opened as well, and reads as
an empty text -/
abbrev Files := List (Str × Str)

def readFile (files : Files) (path : Str) : Option Str := files.lookup path

def writeFile (files : Files) (path text : Str) : Files := (path, text) :: files.filter fun f => f.1 ≠ path

/-- where `load` looks without a path of its own -/
def configPaths : List Str := [lit "/etc/miqudm/miqudm.conf", lit "/etc/miqudm.conf", lit "/usr/share/miqudm/miqudm.conf"]

namespace Config

def parseBool (val : Str) (defaultVal : Bool) : Bool :=
  let lower := val.map Char.toLower
  if lower ∈ [lit "true", lit "1", lit "yes", lit "on"] then true
  else if lower ∈ [lit "false", lit "0", lit "no", lit "off"] then false
  else defaultVal

/-- `Config::find_config_file` -/
def findConfigFile (pathExists : Str → Bool) (customPath : Str) : Str :=
  if customPath ≠ [] ∧ pathExists customPath then customPath
  else (configPaths.find? fun path => pathExists path).getD []

/-- does `find_config_file` throw? Its `exists` is the overload that does, at a path of which the status cannot be told -/
def searchThrows (statusTold pathExists : Str → Bool) (customPath : Str) : Bool :=
  let paths := (if customPath = [] then [] else [customPath]) ++ configPaths
  (paths.find? fun path => ¬ statusTold path ∨ pathExists path).any fun path => ¬ statusTold path

def setGeneral (g : GeneralConfig) (key val : Str) : GeneralConfig :=
  if key = lit "default_session" then { g with defaultSession := val }
  else if key = lit "remember_last_user" then { g with rememberLastUser := parseBool val true }
  else if key = lit "last_user" then { g with lastUser := val }
  else if key = lit "greeter_command" then { g with greeterCommand := val }
  else if key = lit "greeter_user" then { g with greeterUser := val }
  else if key = lit "vt" then
    match stoi val with
    | some vt => { g with vt := vt }
    | none => g
  else if key = lit "numlock" then { g with numlock := parseBool val false }
  else g

def setAutologin (a : AutologinConfig) (key val : Str) : AutologinConfig :=
  if key = lit "enabled" then { a with enabled := parseBool val false }
  else if key = lit "user" then { a with user := val }
  else if key = lit "session" then { a with session := val }
  else a

/-- one line of the file; the string is `current_section` -/
def loadLine (st : Str × Config) (raw : Str) : Str × Config :=
  let line := trim raw
  if line = [] ∨ line.head? = some '#' ∨ line.head? = some ';' then st
  else if line.head? = some '[' ∧ line.getLast? = some ']' then ((line.drop 1).take (line.length - 2), st.2)
  else match splitFirst '=' line with
    | none => st
    | some (k, v) =>
      let key := trim k
      let val := trim v
      if st.1 = lit "General" ∨ st.1 = [] then (st.1, { st.2 with general := setGeneral st.2.general key val })
      else if st.1 = lit "Autologin" then (st.1, { st.2 with autologin := setAutologin st.2.autologin key val })
      else st

/-- the reading loop of `Config::load` -/
def loadText (c : Config) (text : Str) : Config := ((lines text).foldl loadLine ([], c)).2

/-- `Config::load` -/
def load (c : Config) (files : Files) (pathExists : Str → Bool) (customPath : Str) : Bool × Config :=
  let path := findConfigFile pathExists customPath
  let c := { c with loadedPath := path }
  if path = [] then (false, c)
  else match readFile files path with
    | none => (false, c)
    | some text => (true, loadText c text)

def boolText (b : Bool) : Str := if b then lit "true" else lit "false"

/-- the text `Config::save` writes -/
def saveText (c : Config) : Str :=
  lit "[General]\n" ++
  lit "default_session=" ++ c.general.defaultSession ++ lit "\n" ++
  lit "remember_last_user=" ++ boolText c.general.rememberLastUser ++ lit "\n" ++
  lit "last_user=" ++ c.general.lastUser ++ lit "\n" ++
  lit "greeter_command=" ++ c.general.greeterCommand ++ lit "\n" ++
  lit "greeter_user=" ++ c.general.greeterUser ++ lit "\n" ++
  lit "vt=" ++ decimal c.general.vt ++ lit "\n" ++
  lit "numlock=" ++ boolText c.general.numlock ++ lit "\n\n" ++
  lit "[Autologin]\n" ++
  lit "enabled=" ++ boolText c.autologin.enabled ++ lit "\n" ++
  lit "user=" ++ c.autologin.user ++ lit "\n" ++
  lit "session=" ++ c.autologin.session ++ lit "\n"

/-- the file `Config::save` opens -/
def savePath (c : Config) (customPath : Str) : Str :=
  let path := if customPath ≠ [] then customPath else c.loadedPath
  if path = [] then lit "/etc/miqudm/miqudm.conf" else path

/-- `Config::save`: `opened` says whether the file could be opened for writing, which truncates it; of the text, the
first `room` characters reach the file (`none`: all of them). No write is checked, so the answer is whether it opened -/
def save (c : Config) (files : Files) (customPath : Str) (opened : Bool) (room : Option ℕ) : Bool × Files :=
  if opened then
    (true, writeFile files (c.savePath customPath) (match room with
      | none => c.saveText
      | some n => c.saveText.take n))
  else (false, files)

end Config

end Miqudm
