/-
Text as the program handles it.

A `std::string` is the list of its characters (a byte is the character with its code; results about all lists of
characters cover all byte strings). It may contain any character, NUL included; a C string ends at the first NUL, so
handing a `std::string` to libpam, to the passwd lookups or to the exec family passes `cstr` of it. The functions below
are the `std::string`, `std::filesystem::path` and stream operations that the scanners and the configuration use.
-/
import Mathlib.Tactic.Common
import Mathlib.Data.List.DropRight
import Mathlib.Data.List.Infix

namespace Miqudm

abbrev Str := List Char

instance : LawfulBEq Str := inferInstance

/-- a string literal of the source -/
def lit (s : String) : Str := s.toList

def nul : Char := '\x00'

/-- what a C function sees of `s.c_str()`: the characters up to the first NUL -/
def cstr (s : Str) : Str := s.takeWhile (· ≠ nul)

/-- a C string: text without NUL -/
structure CStr where
  chars : Str
  noNul : nul ∉ chars
deriving DecidableEq, Repr

theorem noNul_alice : nul ∉ lit "alice" := by decide

theorem noNul_homeAlice : nul ∉ lit "/home/alice" := by decide

theorem noNul_bash : nul ∉ lit "/bin/bash" := by decide

theorem cstr_of_noNul {s : Str} (h : nul ∉ s) : cstr s = s := by
  rw [cstr, List.takeWhile_eq_self_iff]
  intro c hc
  have hne : c ≠ nul := fun e => h (e ▸ hc)
  simpa using hne

/-- the characters `find_first_not_of(" \t\r\n")` skips -/
def blank (c : Char) : Bool := c = ' ' ∨ c = '\t' ∨ c = '\r' ∨ c = '\n'

def trim (s : Str) : Str := (s.dropWhile blank).rdropWhile blank

/-- `find(c)` with the two `substr` calls around it: the text before and after the first `c` -/
def splitFirst (c : Char) : Str → Option (Str × Str)
  | [] => none
  | d :: s => if d = c then some ([], s) else (splitFirst c s).map fun p => (d :: p.1, p.2)

/-- the lines `std::getline` delivers, with the line collected so far -/
def linesFrom (cur : Str) : Str → List Str
  | [] => if cur = [] then [] else [cur]
  | c :: s => if c = '\n' then cur :: linesFrom [] s else linesFrom (cur ++ [c]) s

def lines (s : Str) : List Str := linesFrom [] s

/-- `s.find(part) != npos` -/
def contains (part s : Str) : Bool := decide (part <:+: s)

/-- `std::to_string` of an integer -/
def decimal (i : ℤ) : Str := (toString i).toList

/-- the characters C's `isspace` accepts -/
def isSpace (c : Char) : Bool := c = ' ' ∨ (9 ≤ c.toNat ∧ c.toNat ≤ 13)

/-- `std::stoi`: blanks, a sign, digits, the rest ignored; `none` is a thrown exception (no digit, or out of range) -/
def stoi (s : Str) : Option ℤ :=
  let s := s.dropWhile isSpace
  let (neg, s) := match s with
    | '-' :: s => (true, s)
    | '+' :: s => (false, s)
    | s => (false, s)
  let digits := s.takeWhile Char.isDigit
  if digits = [] then none
  else
    let n : ℤ := digits.foldl (fun n c => 10 * n + (c.toNat - '0'.toNat : ℕ)) 0
    let i := if neg then -n else n
    if -2147483648 ≤ i ∧ i ≤ 2147483647 then some i else none

/-! ## Paths -/

/-- `path::filename`: what follows the last separator -/
def filename (p : Str) : Str := p.rtakeWhile (· ≠ '/')

/-- the last dot of a file name, as `path::stem` and `path::extension` use it: not for `.` and `..`, and not at the
start -/
def splitExtension (p : Str) : Str × Str :=
  let f := filename p
  if f = lit "." ∨ f = lit ".." then (f, [])
  else
    let ext := f.rtakeWhile (· ≠ '.')
    let base := f.take (f.length - ext.length - 1)
    if base = [] ∨ ext.length = f.length then (f, []) else (base, '.' :: ext)

def stem (p : Str) : Str := (splitExtension p).1

def extension (p : Str) : Str := (splitExtension p).2

/-- `path::parent_path` of an absolute path -/
def parentPath (p : Str) : Str :=
  let d := (p.take (p.length - (filename p).length)).rdropWhile (· = '/')
  if d = [] then lit "/" else d

/-- the directories `create_directories(p)` makes exist: `p` and everything above it -/
def ancestors (p : Str) : List Str :=
  ((List.range (p.length + 1)).filter fun k => k ≠ 0 ∧ (k = p.length ∨ p[k]? = some '/')).map fun k => p.take k

example : trim (lit " \t a b \r\n") = lit "a b" := by decide
example : lines (lit "a\n\nb") = [lit "a", [], lit "b"] := by decide
example : stem (lit "/usr/share/wayland-sessions/a.b.desktop") = lit "a.b" ∧ extension (lit "x/.desktop") = [] := by
  decide
example : stoi (lit " -12x") = some (-12) ∧ stoi (lit "x") = none := by decide
example : parentPath (lit "/run/miqudm/socket") = lit "/run/miqudm" := by decide
example : ancestors (lit "/run/miqudm/runtime") = [lit "/run", lit "/run/miqudm", lit "/run/miqudm/runtime"] := by
  decide

end Miqudm
