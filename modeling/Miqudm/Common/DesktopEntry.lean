/-
What a desktop file says.

`parse_desktop_file` is a reader of a text in groups (`desktopLine_eq`) that listens inside `[Desktop Entry]` only, so
it is a function of the key lines of those groups, in order (`parseDesktopFile_eq`): `desktopEntry` says which of their
values make the session. The key lines do not depend on comments, on blank lines, on the blanks around a line, or on
what stands in other groups (`parse_spec`).
-/
import Miqudm.Common.ConfigText
import Miqudm.Common.SessionScanner
import Miqudm.Core.Sections

namespace Miqudm

open Miqudm.Core

/-! ## The lines of a desktop file -/

/-- what a line is to `parse_desktop_file`; the section is whether its header is `[Desktop Entry]` -/
def desktopLineOf (raw : Str) : Line Bool (Str × Str) :=
  let line := trim raw
  if line = [] ∨ line.head? = some '#' then .neither
  else if line = lit "[Desktop Entry]" then .header true
  else if line.head? = some '[' then .header false
  else match splitFirst '=' line with
    | none => .neither
    | some (key, val) => .entry (key, val)

/-- the key lines inside `[Desktop Entry]` groups, in order -/
def keyLines (ls : List Str) : List (Str × Str) :=
  ((Line.entries false (ls.map desktopLineOf)).filter fun e => e.1).map fun e => e.2

/-- the effect of a key line on the session -/
def keyStep (info : SessionInfo) (e : Bool × Str × Str) : SessionInfo :=
  if e.1 then desktopKey info e.2.1 e.2.2 else info

theorem desktopLine_eq (st : Bool × SessionInfo) (raw : Str) :
    desktopLine st raw = Line.step keyStep st (desktopLineOf raw) := by
  obtain ⟨inEntry, info⟩ := st
  cases hsplit : splitFirst '=' (trim raw) with
  | none =>
    simp only [desktopLine, desktopLineOf, hsplit]
    split_ifs <;> rfl
  | some p =>
    simp only [desktopLine, desktopLineOf, hsplit]
    cases inEntry <;> split_ifs <;> first | rfl | contradiction

/-- the reading loop, as a fold over the key lines -/
theorem desktopLoop_eq (ls : List Str) (info : SessionInfo) :
    (ls.foldl desktopLine (false, info)).2 = (keyLines ls).foldl (fun i kv => desktopKey i kv.1 kv.2) info := by
  have hlines : ls.foldl desktopLine (false, info) = (ls.map desktopLineOf).foldl (Line.step keyStep) (false, info) := by
    rw [List.foldl_map]
    congr 1
    funext st raw
    exact desktopLine_eq st raw
  rw [hlines, Line.foldl_step, keyLines, List.foldl_map, List.foldl_filter]
  rfl

/-! ## The session a file declares -/

def entryKeys : List Str := [lit "Name", lit "Exec", lit "Comment", lit "DesktopNames"]

/-- the value of a key line, if it is one of `key` -/
def valueOf (key : Str) (kv : Str × Str) : Option Str := if kv.1 = key then some kv.2 else none

/-- the values of a key, in order -/
def valuesOf (key : Str) (kls : List (Str × Str)) : List Str := kls.filterMap (valueOf key)

def firstValue (key : Str) (kls : List (Str × Str)) : Str := ((valuesOf key kls).find? (· ≠ [])).getD []

def lastValue (key : Str) (kls : List (Str × Str)) : Str := ((valuesOf key kls).getLast?).getD []

/-- the session that the key lines of a file declare -/
def desktopEntry (filePath : Str) (isWayland : Bool) (kls : List (Str × Str)) : SessionInfo :=
  let name := firstValue (lit "Name") kls
  let name := if name = [] then stem filePath else name
  let desktopNames := lastValue (lit "DesktopNames") kls
  { id := stem filePath
    name := name
    exec := firstValue (lit "Exec") kls
    comment := firstValue (lit "Comment") kls
    desktopNames := if desktopNames = [] then name else desktopNames
    desktopFile := filePath
    isWayland := isWayland }

section Keys

variable (info : SessionInfo) (kv : Str × Str)

/-- a key line on the session, field by field -/
theorem desktopKey_eq : desktopKey info kv.1 kv.2 = { info with
    name := if info.name = [] then (valueOf (lit "Name") kv).getD info.name else info.name
    exec := if info.exec = [] then (valueOf (lit "Exec") kv).getD info.exec else info.exec
    comment := if info.comment = [] then (valueOf (lit "Comment") kv).getD info.comment else info.comment
    desktopNames := (valueOf (lit "DesktopNames") kv).getD info.desktopNames } := by
  obtain ⟨key, val⟩ := kv
  have hkeys : (entryKeys.map fun k => entryKeys.map fun k' => decide (k = k')) =
      [[true, false, false, false], [false, true, false, false], [false, false, true, false],
        [false, false, false, true]] := by decide
  simp only [entryKeys, List.map_cons, List.map_nil, List.cons.injEq, decide_eq_true_eq, decide_eq_false_iff_not] at hkeys
  obtain ⟨⟨-, hNE, hNC, hND, -⟩, ⟨hEN, -, hEC, hED, -⟩, ⟨hCN, hCE, -, hCD, -⟩, ⟨hDN, hDE, hDC, -, -⟩, -⟩ := hkeys
  by_cases hname : key = lit "Name"
  · subst hname
    simp only [desktopKey, valueOf, hNE, hNC, hND, false_and, if_false, true_and, if_true, Option.getD_some,
      Option.getD_none, ite_self]
    split_ifs <;> rfl
  by_cases hexec : key = lit "Exec"
  · subst hexec
    simp only [desktopKey, valueOf, hEN, hEC, hED, false_and, if_false, true_and, if_true, Option.getD_some,
      Option.getD_none, ite_self]
    split_ifs <;> rfl
  by_cases hcomment : key = lit "Comment"
  · subst hcomment
    simp only [desktopKey, valueOf, hCN, hCE, hCD, false_and, if_false, true_and, if_true, Option.getD_some,
      Option.getD_none, ite_self]
    split_ifs <;> rfl
  · simp only [desktopKey, valueOf, hname, hexec, hcomment, false_and, if_false, Option.getD_none, ite_self]
    split_ifs <;> rfl

end Keys

/-- what the reading loop makes of a session that has only its id yet -/
theorem foldl_desktopKey {info : SessionInfo} (hname : info.name = []) (hexec : info.exec = [])
    (hcomment : info.comment = []) (hnames : info.desktopNames = []) (kls : List (Str × Str)) :
    kls.foldl (fun i kv => desktopKey i kv.1 kv.2) info = { info with
      name := firstValue (lit "Name") kls
      exec := firstValue (lit "Exec") kls
      comment := firstValue (lit "Comment") kls
      desktopNames := lastValue (lit "DesktopNames") kls } := by
  have hfirst : ∀ {key : Str} {field : SessionInfo → Str}, field info = [] →
      (∀ i kv, field (desktopKey i kv.1 kv.2) = if field i = [] then (valueOf key kv).getD (field i) else field i) →
      field (kls.foldl (fun i kv => desktopKey i kv.1 kv.2) info) = firstValue key kls := by
    intro key field hunset h
    rw [foldl_first h, if_pos hunset]
    rfl
  have hstep : ∀ (i : SessionInfo) (kv : Str × Str), (desktopKey i kv.1 kv.2).desktopNames =
      (valueOf (lit "DesktopNames") kv).getD i.desktopNames := fun i kv => by rw [desktopKey_eq]
  have hlast : (kls.foldl (fun i kv => desktopKey i kv.1 kv.2) info).desktopNames =
      ((kls.filterMap (valueOf (lit "DesktopNames"))).getLast?).getD info.desktopNames := foldl_last hstep kls info
  rw [hnames] at hlast
  have hframe : ∀ (l : List (Str × Str)) i, (l.foldl (fun i kv => desktopKey i kv.1 kv.2) i).id = i.id ∧
      (l.foldl (fun i kv => desktopKey i kv.1 kv.2) i).desktopFile = i.desktopFile ∧
      (l.foldl (fun i kv => desktopKey i kv.1 kv.2) i).isWayland = i.isWayland := by
    intro l
    induction l with
    | nil => exact fun _ => ⟨rfl, rfl, rfl⟩
    | cons kv l ih =>
      intro i
      have hi := ih (desktopKey i kv.1 kv.2)
      rw [desktopKey_eq] at hi
      rw [List.foldl_cons, desktopKey_eq]
      exact hi
  obtain ⟨hid, hfile, hwayland⟩ := hframe kls info
  calc kls.foldl (fun i kv => desktopKey i kv.1 kv.2) info
      = { id := _, name := _, exec := _, comment := _, desktopNames := _, desktopFile := _, isWayland := _ } := rfl
    _ = _ := by
      rw [hid, hfile, hwayland, hlast, hfirst hname fun i kv => by rw [desktopKey_eq],
        hfirst hexec fun i kv => by rw [desktopKey_eq], hfirst hcomment fun i kv => by rw [desktopKey_eq]]
      rfl

/-- **The session is what the key lines declare.** -/
theorem parseDesktopFile_eq (filePath text : Str) (isWayland : Bool) :
    parseDesktopFile filePath (some text) isWayland = desktopEntry filePath isWayland (keyLines (lines text)) := by
  simp only [parseDesktopFile, desktopLoop_eq]
  rw [foldl_desktopKey rfl rfl rfl rfl]
  simp only [desktopEntry]
  split_ifs <;> rfl

/-! ## What does not matter -/

/-- are the lines after these inside a `[Desktop Entry]` group? -/
def inDesktopEntry (ls : List Str) : Bool := Line.sectionAfter false (ls.map desktopLineOf)

theorem keyLines_append (pre post : List Str) : keyLines (pre ++ post) = keyLines pre ++
    ((Line.entries (inDesktopEntry pre) (post.map desktopLineOf)).filter fun e => e.1).map fun e => e.2 := by
  rw [keyLines, List.map_append, Line.entries_append, List.filter_append, List.map_append]
  rfl

/-- the blanks around a line do not matter -/
theorem keyLines_of_trim {ls ls' : List Str} (h : ls.map trim = ls'.map trim) : keyLines ls = keyLines ls' := by
  have hline : ∀ l, desktopLineOf (trim l) = desktopLineOf l := fun l => by simp only [desktopLineOf, trim_trim]
  have hmap : ∀ ls : List Str, (ls.map trim).map desktopLineOf = ls.map desktopLineOf := by
    intro ls
    rw [List.map_map]
    exact List.map_congr_left fun l _ => hline l
  rw [keyLines, keyLines, ← hmap ls, h, hmap]

/-- nor does a line that is neither a header nor a key line of a `[Desktop Entry]` group -/
theorem keyLines_insert {pre post : List Str} {l : Str} (hheader : ∀ s, desktopLineOf l ≠ .header s)
    (hl : ∀ a, desktopLineOf l = .entry a → inDesktopEntry pre = false) :
    keyLines (pre ++ l :: post) = keyLines (pre ++ post) := by
  rw [keyLines_append, keyLines_append, List.map_cons]
  cases hline : desktopLineOf l with
  | header s => exact absurd hline (hheader s)
  | neither => rfl
  | entry a =>
    rw [hl a hline]
    rfl

theorem desktopLineOf_comment {l : Str} (h : trim l = [] ∨ (trim l).head? = some '#') : desktopLineOf l = .neither :=
  if_pos h

theorem desktopLineOf_notHeader {l : Str} (h : (trim l).head? ≠ some '[') (s : Bool) : desktopLineOf l ≠ .header s := by
  have hentry : trim l ≠ lit "[Desktop Entry]" := fun e => h (e ▸ rfl)
  simp only [desktopLineOf, if_neg hentry, if_neg h]
  split_ifs
  · simp
  · split <;> simp

/-- the session depends on the values of the four keys -/
theorem desktopEntry_congr {kls kls' : List (Str × Str)} (h : ∀ k ∈ entryKeys, valuesOf k kls = valuesOf k kls')
    (filePath : Str) (isWayland : Bool) : desktopEntry filePath isWayland kls = desktopEntry filePath isWayland kls' := by
  have hfirst : ∀ k ∈ entryKeys, firstValue k kls = firstValue k kls' := fun k hk => by
    rw [firstValue, firstValue, h k hk]
  have hlast : lastValue (lit "DesktopNames") kls = lastValue (lit "DesktopNames") kls' := by
    rw [lastValue, lastValue, h _ (by decide)]
  rw [desktopEntry, desktopEntry, hlast, hfirst (lit "Name") (by decide), hfirst (lit "Exec") (by decide),
    hfirst (lit "Comment") (by decide)]

/-- nor does a key that is none of the four -/
theorem desktopEntry_insert {key : Str} (hkey : key ∉ entryKeys) (filePath : Str) (isWayland : Bool) (val : Str)
    (pre post : List (Str × Str)) :
    desktopEntry filePath isWayland (pre ++ (key, val) :: post) = desktopEntry filePath isWayland (pre ++ post) := by
  apply desktopEntry_congr
  intro k hk
  have hne : key ≠ k := fun e => hkey (e ▸ hk)
  have hnone : valueOf k (key, val) = none := if_neg hne
  rw [valuesOf, valuesOf, List.filterMap_append, List.filterMap_append, List.filterMap_cons_none hnone]

/-- **A desktop file is read by its groups**: the session is what the key lines of the `[Desktop Entry]` groups declare,
and these do not depend on blanks around lines, on comments and blank lines, or on what stands in other groups; nor does
the session on localized keys. -/
theorem parse_spec (filePath : Str) (isWayland : Bool) :
    (∀ text, parseDesktopFile filePath (some text) isWayland = desktopEntry filePath isWayland (keyLines (lines text))) ∧
    (∀ ls ls', ls.map trim = ls'.map trim → keyLines ls = keyLines ls') ∧
    (∀ pre l post, (trim l = [] ∨ (trim l).head? = some '#') → keyLines (pre ++ l :: post) = keyLines (pre ++ post)) ∧
    (∀ pre l post, inDesktopEntry pre = false ∧ (trim l).head? ≠ some '[' →
      keyLines (pre ++ l :: post) = keyLines (pre ++ post)) ∧
    ∀ pre key val post, '[' ∈ key →
      desktopEntry filePath isWayland (pre ++ (key, val) :: post) = desktopEntry filePath isWayland (pre ++ post) := by
  refine ⟨fun text => parseDesktopFile_eq filePath text isWayland, fun ls ls' => keyLines_of_trim, ?_, ?_, ?_⟩
  · intro pre l post hl
    have hneither := desktopLineOf_comment hl
    exact keyLines_insert (by simp [hneither]) (by simp [hneither])
  · intro pre l post hl
    exact keyLines_insert (desktopLineOf_notHeader hl.2) fun _ _ => hl.1
  · intro pre key val post hkey
    have hplain : ∀ k ∈ entryKeys, '[' ∉ k := by decide
    exact desktopEntry_insert (fun hmem => hplain key hmem hkey) filePath isWayland val pre post

end Miqudm
