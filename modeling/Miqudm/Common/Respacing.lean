/-
Blanks around the '=' of a desktop file.

The Desktop Entry format ignores them, and so does the program's own configuration parser; `parse_desktop_file` keeps
them as part of the key and of the value. `Respaced` relates two texts that differ in the spaces and tabs right before
or right after the first '=' of key lines inside `[Desktop Entry]`. Every text with a value for one of the four keys has
two respacings that are different sessions (`respaced_iff`), so only a file that declares nothing is read alike however
it is spaced.
-/
import Miqudm.Common.DesktopEntry

namespace Miqudm

open Miqudm.Core

/-! ## Respacing -/

/-- the blanks a text may be respaced with -/
def gap (c : Char) : Bool := c = ' ' ∨ c = '\t'

/-- the same line with other blanks around its first '=' -/
def RespacedLine (l l' : Str) : Prop :=
  ∃ a ws ws' us us' b : Str, '=' ∉ a ∧ (∀ w ∈ [ws, ws', us, us'], ∀ c ∈ w, gap c = true) ∧
    l = a ++ ws ++ '=' :: (us ++ b) ∧ l' = a ++ ws' ++ '=' :: (us' ++ b)

/-- lines that differ in the blanks around the '=' of key lines inside `[Desktop Entry]`; the flag says whether the first
line is inside such a group -/
inductive RespacedLines : Bool → List Str → List Str → Prop where
  | nil (inEntry : Bool) : RespacedLines inEntry [] []
  | same {inEntry : Bool} {l : Str} {ls ls' : List Str} :
      RespacedLines (Line.sectionAfter inEntry [desktopLineOf l]) ls ls' → RespacedLines inEntry (l :: ls) (l :: ls')
  | key {l l' : Str} {kv : Str × Str} {ls ls' : List Str} :
      desktopLineOf l = .entry kv → RespacedLine l l' → RespacedLines true ls ls' →
        RespacedLines true (l :: ls) (l' :: ls')

def Respaced (text text' : Str) : Prop := RespacedLines false (lines text) (lines text')

/-- no value for any of the four keys, however the key is spaced -/
def Undeclared (text : Str) : Prop :=
  ∀ kv ∈ keyLines (lines text), kv.1.rdropWhile gap ∈ entryKeys → kv.2 = []

/-! ## Blanks at the ends -/

theorem blank_of_gap {c : Char} (h : gap c = true) : blank c = true := by
  simp only [gap, decide_eq_true_eq] at h
  simp only [blank, decide_eq_true_eq]
  exact h.imp_right Or.inl

theorem rdropWhile_append_of_all {p : Char → Bool} {w : Str} (h : ∀ c ∈ w, p c = true) (x : Str) :
    (x ++ w).rdropWhile p = x.rdropWhile p := by
  have hrev : ∀ c ∈ w.reverse, p c = true := fun c hc => h c (List.mem_reverse.1 hc)
  rw [List.rdropWhile, List.reverse_append, List.dropWhile_append_of_pos hrev, List.rdropWhile]

theorem rdropWhile_of_suffix {p : Char → Bool} {x y : Str} (h : x <:+ y) (hy : y.rdropWhile p = y) :
    x.rdropWhile p = x := by
  obtain ⟨z, rfl⟩ := h
  rw [List.rdropWhile_eq_self_iff] at hy ⊢
  intro hx
  have hlast := hy (List.append_ne_nil_of_right_ne_nil z hx)
  rwa [List.getLast_append_of_ne_nil _ hx] at hlast

theorem dropWhile_of_prefix {p : Char → Bool} {x y : Str} (h : x <+: y) (hy : y.dropWhile p = y) :
    x.dropWhile p = x := by
  obtain ⟨z, rfl⟩ := h
  cases x with
  | nil => rfl
  | cons c x =>
    have hc : p c = false := by
      cases hpc : p c with
      | false => rfl
      | true =>
        have hle := (List.dropWhile_suffix (l := x ++ z) p).length_le
        rw [List.cons_append, List.dropWhile_cons_of_pos hpc] at hy
        rw [hy, List.length_cons] at hle
        omega
    exact List.dropWhile_cons_of_neg (by simp [hc])

/-- a key with the blanks that follow it, once the line is trimmed -/
def keyWith (a ws : Str) : Str := if a = [] then [] else a ++ ws

/-- a value with the blanks before it, once the line is trimmed -/
def valueWith (us b : Str) : Str := if b = [] then [] else us ++ b

theorem dropWhile_append_gap {ws : Str} (h : ∀ c ∈ ws, gap c = true) (a : Str) :
    (a ++ ws).dropWhile blank = keyWith (a.dropWhile blank) ws := by
  have hws : ws.dropWhile blank = [] := List.dropWhile_eq_nil_iff.2 fun c hc => blank_of_gap (h c hc)
  rw [List.dropWhile_append, hws, keyWith]
  simp only [List.isEmpty_iff]

theorem rdropWhile_gap_append {us : Str} (h : ∀ c ∈ us, gap c = true) (b : Str) :
    (us ++ b).rdropWhile blank = valueWith us (b.rdropWhile blank) := by
  rw [valueWith]
  split_ifs with hb
  · have hall : ∀ c ∈ us ++ b, blank c = true := by
      intro c hc
      rcases List.mem_append.1 hc with hc | hc
      · exact blank_of_gap (h c hc)
      · exact List.rdropWhile_eq_nil_iff.1 hb c hc
    exact List.rdropWhile_eq_nil_iff.2 hall
  · rw [List.rdropWhile, List.reverse_append, List.dropWhile_append]
    have hne : b.reverse.dropWhile blank ≠ [] := fun e => hb (by rw [List.rdropWhile, e, List.reverse_nil])
    rw [if_neg (by simpa using hne), List.reverse_append, List.reverse_reverse, List.rdropWhile]

/-- a line around its '=', trimmed -/
theorem trim_split (p q : Str) : trim (p ++ '=' :: q) = p.dropWhile blank ++ '=' :: q.rdropWhile blank := by
  have hblank : blank '=' = false := by decide
  have hfront : (p ++ '=' :: q).dropWhile blank = p.dropWhile blank ++ '=' :: q := by
    rw [List.dropWhile_append]
    split_ifs with hp
    · rw [List.isEmpty_iff.1 hp, List.dropWhile_cons_of_neg (by simp [hblank]), List.nil_append]
    · rfl
  calc trim (p ++ '=' :: q)
      = (p.dropWhile blank ++ '=' :: q).rdropWhile blank := by rw [trim, hfront]
    _ = p.dropWhile blank ++ '=' :: q.rdropWhile blank := rdropWhile_append_cons hblank _ _

/-! ## Key lines -/

theorem splitFirst_of_entry {l : Str} {kv : Str × Str} (h : desktopLineOf l = .entry kv) :
    splitFirst '=' (trim l) = some kv := by
  simp only [desktopLineOf] at h
  split_ifs at h
  split at h
  · cases h
  · rename_i hfirst
    cases h
    exact hfirst

/-- what makes a line with '=' a key line -/
theorem desktopLineOf_entry_iff {l k v : Str} (hk : '=' ∉ k) (hl : trim l = k ++ '=' :: v) {kv : Str × Str} :
    desktopLineOf l = .entry kv ↔ (k.head? ≠ some '#' ∧ k.head? ≠ some '[') ∧ kv = (k, v) := by
  have hne : trim l ≠ [] := by simp [hl]
  have hhead : ∀ c, c ≠ '=' → ((trim l).head? = some c ↔ k.head? = some c) := by
    intro c hc
    rw [hl]
    cases k with
    | nil => simp [Ne.symm hc]
    | cons d k => simp
  have hsplit : splitFirst '=' (trim l) = some (k, v) := by rw [hl, splitFirst_of_notMem hk]
  simp only [desktopLineOf, hne, false_or, hhead '#' (by decide), hhead '[' (by decide), hsplit]
  constructor
  · intro h
    split_ifs at h with hcomment hentry hbracket
    · cases h
      exact ⟨⟨hcomment, hbracket⟩, rfl⟩
  · intro hr
    obtain ⟨⟨hcomment, hbracket⟩, rfl⟩ := hr
    have hentry : trim l ≠ lit "[Desktop Entry]" := by
      intro e
      have hbr : (trim l).head? = some '[' := by rw [e]; rfl
      exact hbracket ((hhead '[' (by decide)).1 hbr)
    rw [if_neg hcomment, if_neg hentry, if_neg hbracket]

/-- a key line by its parts: the key and the value between which the blanks may change -/
theorem desktopLineOf_spaced {a ws us b : Str} (ha : '=' ∉ a) (hws : ∀ c ∈ ws, gap c = true)
    (hus : ∀ c ∈ us, gap c = true) {kv : Str × Str} :
    desktopLineOf (a ++ ws ++ '=' :: (us ++ b)) = .entry kv ↔
      ((a.dropWhile blank).head? ≠ some '#' ∧ (a.dropWhile blank).head? ≠ some '[') ∧
        kv = (keyWith (a.dropWhile blank) ws, valueWith us (b.rdropWhile blank)) := by
  have hkey : '=' ∉ keyWith (a.dropWhile blank) ws := by
    intro h
    rw [keyWith] at h
    split_ifs at h
    · cases h
    · rcases List.mem_append.1 h with h | h
      · exact ha ((List.dropWhile_suffix blank).subset h)
      · exact absurd (hws _ h) (by decide)
  have hhead : (keyWith (a.dropWhile blank) ws).head? = (a.dropWhile blank).head? := by
    rw [keyWith]
    split_ifs with hnil
    · rw [hnil]
    · rw [List.head?_append_of_ne_nil _ hnil]
  have htrim : trim (a ++ ws ++ '=' :: (us ++ b)) =
      keyWith (a.dropWhile blank) ws ++ '=' :: valueWith us (b.rdropWhile blank) := by
    rw [trim_split, dropWhile_append_gap hws, rdropWhile_gap_append hus]
  rw [desktopLineOf_entry_iff hkey htrim, hhead]

/-- the key and the value of a line, without the blanks between them -/
def core (kv : Str × Str) : Str × Str := (kv.1.rdropWhile gap, kv.2.dropWhile gap)

theorem core_with {ws us : Str} (hws : ∀ c ∈ ws, gap c = true) (hus : ∀ c ∈ us, gap c = true) (a b : Str) :
    core (keyWith a ws, valueWith us b) = (a.rdropWhile gap, b.dropWhile gap) := by
  have hkey : (keyWith a ws).rdropWhile gap = a.rdropWhile gap := by
    rw [keyWith]
    split_ifs with ha
    · rw [ha]
    · exact rdropWhile_append_of_all hws a
  have hvalue : (valueWith us b).dropWhile gap = b.dropWhile gap := by
    rw [valueWith]
    split_ifs with hb
    · rw [hb]
    · exact List.dropWhile_append_of_pos hus
  rw [core, hkey, hvalue]

/-- respacing a key line leaves a key line with the same key and value -/
theorem RespacedLine.core {l l' : Str} {kv : Str × Str} (h : RespacedLine l l') (hl : desktopLineOf l = .entry kv) :
    ∃ kv', desktopLineOf l' = .entry kv' ∧ core kv' = core kv := by
  obtain ⟨a, ws, ws', us, us', b, ha, hgaps, rfl, rfl⟩ := h
  simp only [List.forall_mem_cons] at hgaps
  obtain ⟨hws, hws', hus, hus', -⟩ := hgaps
  obtain ⟨hhead, rfl⟩ := (desktopLineOf_spaced ha hws hus).1 hl
  refine ⟨_, (desktopLineOf_spaced ha hws' hus').2 ⟨hhead, rfl⟩, ?_⟩
  rw [core_with hws hus, core_with hws' hus']

/-- the key lines from a line on -/
def keyLinesFrom (inEntry : Bool) (ls : List Str) : List (Str × Str) :=
  ((Line.entries inEntry (ls.map desktopLineOf)).filter fun e => e.1).map fun e => e.2

theorem keyLinesFrom_cons (inEntry : Bool) (l : Str) (ls : List Str) :
    keyLinesFrom inEntry (l :: ls) =
      keyLinesFrom inEntry [l] ++ keyLinesFrom (Line.sectionAfter inEntry [desktopLineOf l]) ls := by
  have hsplit : (l :: ls).map desktopLineOf = [desktopLineOf l] ++ ls.map desktopLineOf := rfl
  rw [keyLinesFrom, hsplit, Line.entries_append, List.filter_append, List.map_append]
  rfl

theorem keyLinesFrom_entry {l : Str} {kv : Str × Str} (hl : desktopLineOf l = .entry kv) (ls : List Str) :
    keyLinesFrom true (l :: ls) = kv :: keyLinesFrom true ls := by
  rw [keyLinesFrom_cons, hl]
  have hone : keyLinesFrom true [l] = [kv] := by simp [keyLinesFrom, hl, Line.entries]
  rw [hone]
  rfl

theorem RespacedLines.core {inEntry : Bool} {ls ls' : List Str} (h : RespacedLines inEntry ls ls') :
    (keyLinesFrom inEntry ls').map Miqudm.core = (keyLinesFrom inEntry ls).map Miqudm.core := by
  induction h with
  | nil inEntry => rfl
  | same _ ih => rw [keyLinesFrom_cons, List.map_append, ih, ← List.map_append, ← keyLinesFrom_cons]
  | key hl hline _ ih =>
    obtain ⟨kv', hl', hcore⟩ := hline.core hl
    rw [keyLinesFrom_entry hl, keyLinesFrom_entry hl', List.map_cons, List.map_cons, ih, hcore]

/-! ## A file that declares nothing -/

/-- a value has no blanks at its end -/
theorem rdropWhile_of_mem {text : Str} {kv : Str × Str} (h : kv ∈ keyLines (lines text)) :
    kv.2.rdropWhile blank = kv.2 := by
  obtain ⟨⟨g, kv'⟩, hmem, rfl⟩ := List.mem_map.1 h
  obtain ⟨pre, post, hsplit, -⟩ := Line.mem_entries.1 (List.mem_of_mem_filter hmem)
  have hline : Line.entry kv' ∈ (lines text).map desktopLineOf := by
    rw [hsplit]
    exact List.mem_append_right _ List.mem_cons_self
  obtain ⟨raw, -, hraw⟩ := List.mem_map.1 hline
  have hfirst := splitFirst_of_entry hraw
  have hidem : (trim raw).rdropWhile blank = trim raw := List.rdropWhile_idempotent blank _
  rw [(splitFirst_eq_some hfirst).1, rdropWhile_append_cons (by decide)] at hidem
  exact List.cons.inj (List.append_cancel_left hidem) |>.2

theorem core_snd_eq_nil {text : Str} {kv : Str × Str} (h : kv ∈ keyLines (lines text)) : (core kv).2 = [] ↔ kv.2 = [] := by
  constructor
  · intro hcore
    have hgap : ∀ c ∈ kv.2, gap c = true := List.dropWhile_eq_nil_iff.1 hcore
    rw [← rdropWhile_of_mem h, List.rdropWhile_eq_nil_iff]
    exact fun c hc => blank_of_gap (hgap c hc)
  · intro hnil
    rw [core, hnil]
    rfl

theorem undeclared_iff (text : Str) :
    Undeclared text ↔ ∀ c ∈ (keyLines (lines text)).map core, c.1 ∈ entryKeys → c.2 = [] := by
  rw [List.forall_mem_map]
  constructor
  · exact fun h kv hkv hkey => (core_snd_eq_nil hkv).2 (h kv hkv hkey)
  · exact fun h kv hkv hkey => (core_snd_eq_nil hkv).1 (h kv hkv hkey)

/-- a respacing of a file that declares nothing declares nothing -/
theorem Undeclared.respaced {text text' : Str} (h : Undeclared text) (hr : Respaced text text') : Undeclared text' := by
  rw [undeclared_iff] at h ⊢
  have hcore : (keyLines (lines text')).map core = (keyLines (lines text)).map core := RespacedLines.core hr
  rwa [hcore]

/-- such files are all read alike -/
theorem parse_undeclared {text : Str} (h : Undeclared text) (filePath : Str) (isWayland : Bool) :
    parseDesktopFile filePath (some text) isWayland = desktopEntry filePath isWayland [] := by
  have hvalues : ∀ k ∈ entryKeys, ∀ v ∈ valuesOf k (keyLines (lines text)), v = [] := by
    intro k hk v hv
    obtain ⟨⟨key, val⟩, hmem, hval⟩ := List.mem_filterMap.1 hv
    rw [valueOf] at hval
    split_ifs at hval with hkey
    cases hval
    have hplain : ∀ k ∈ entryKeys, k.rdropWhile gap = k := by decide
    have hkey' : key = k := hkey
    refine h _ hmem ?_
    show key.rdropWhile gap ∈ entryKeys
    rw [hkey', hplain k hk]
    exact hk
  have hfirst : ∀ k ∈ entryKeys, firstValue k (keyLines (lines text)) = [] := by
    intro k hk
    have hnone : (valuesOf k (keyLines (lines text))).find? (· ≠ []) = none := by
      rw [List.find?_eq_none]
      intro v hv
      simp [hvalues k hk v hv]
    rw [firstValue, hnone]
    rfl
  have hlast : lastValue (lit "DesktopNames") (keyLines (lines text)) = [] := by
    rw [lastValue]
    cases hget : (valuesOf (lit "DesktopNames") (keyLines (lines text))).getLast? with
    | none => rfl
    | some v => exact hvalues _ (by decide) v (List.mem_of_getLast? hget)
  rw [parseDesktopFile_eq, desktopEntry, desktopEntry, hlast, hfirst (lit "Name") (by decide),
    hfirst (lit "Exec") (by decide), hfirst (lit "Comment") (by decide)]
  rfl

/-! ## A file that declares something -/

/-- a key line respaced so that an empty value is lost, and any other one follows `us` -/
def form (us : Str) (c : Str × Str) : Str × Str := if c.2 = [] then (keyWith c.1 [' '], []) else (c.1, us ++ c.2)

theorem exists_respacedLine {us : Str} (hus : ∀ c ∈ us, gap c = true) {l : Str} {kv : Str × Str}
    (hl : desktopLineOf l = .entry kv) :
    ∃ l', RespacedLine l l' ∧ desktopLineOf l' = .entry (form us (core kv)) ∧ ('\n' ∉ l → '\n' ∉ l') := by
  have hmem : '=' ∈ l := by
    apply mem_of_mem_trim
    rw [(splitFirst_eq_some (splitFirst_of_entry hl)).1]
    exact List.mem_append_right _ List.mem_cons_self
  obtain ⟨p, q, rfl, hp⟩ := List.eq_append_cons_of_mem hmem
  -- the line without the blanks around its '='
  obtain ⟨a, ws, hpa, hws, hagap⟩ : ∃ a ws, p = a ++ ws ∧ (∀ c ∈ ws, gap c = true) ∧ a.rdropWhile gap = a :=
    ⟨p.rdropWhile gap, p.rtakeWhile gap, (List.rdropWhile_append_rtakeWhile).symm, fun _ => List.mem_rtakeWhile_imp,
      List.rdropWhile_idempotent gap p⟩
  obtain ⟨us₀, b, hqb, hus₀, hbgap⟩ : ∃ us₀ b, q = us₀ ++ b ∧ (∀ c ∈ us₀, gap c = true) ∧ b.dropWhile gap = b :=
    ⟨q.takeWhile gap, q.dropWhile gap, List.takeWhile_append_dropWhile.symm, fun _ => List.mem_takeWhile_imp,
      List.dropWhile_idempotent gap q⟩
  subst hpa hqb
  have ha : '=' ∉ a := fun h => hp (List.mem_append_left _ h)
  obtain ⟨hhead, rfl⟩ := (desktopLineOf_spaced ha hws hus₀).1 hl
  rw [core_with hws hus₀, rdropWhile_of_suffix (List.dropWhile_suffix blank) hagap,
    dropWhile_of_prefix (List.rdropWhile_prefix blank b) hbgap]
  -- the blanks that make the form
  obtain ⟨ws', us', hws', hus', hform⟩ : ∃ ws' us' : Str, (∀ c ∈ ws', gap c = true) ∧ (∀ c ∈ us', gap c = true) ∧
      form us (a.dropWhile blank, b.rdropWhile blank) =
        (keyWith (a.dropWhile blank) ws', valueWith us' (b.rdropWhile blank)) := by
    by_cases hb : b.rdropWhile blank = []
    · exact ⟨[' '], [], by simp [gap], by simp, by rw [form, if_pos hb, valueWith, if_pos hb]⟩
    · refine ⟨[], us, by simp, hus, ?_⟩
      rw [form, if_neg hb, valueWith, if_neg hb, keyWith, List.append_nil]
      split_ifs with hnil
      · rw [hnil]
      · rfl
  refine ⟨a ++ ws' ++ '=' :: (us' ++ b), ⟨a, ws, ws', us₀, us', b, ha, ?_, rfl, rfl⟩, ?_, ?_⟩
  · simp only [List.forall_mem_cons]
    exact ⟨hws, hws', hus₀, hus', by simp⟩
  · exact (desktopLineOf_spaced ha hws' hus').2 ⟨hhead, hform⟩
  · intro hnl hmem'
    have hgap : gap '\n' = false := by decide
    simp only [List.mem_append, List.mem_cons] at hnl hmem'
    rcases hmem' with (h | h) | h | h | h
    · exact hnl (Or.inl (Or.inl h))
    · exact absurd (hws' _ h) (by simp [hgap])
    · exact absurd h (by decide)
    · exact absurd (hus' _ h) (by simp [hgap])
    · exact hnl (Or.inr (Or.inr (Or.inr h)))

/-- the lines of a file, respaced -/
theorem exists_respacedLines {us : Str} (hus : ∀ c ∈ us, gap c = true) (ls : List Str) :
    ∀ inEntry, (∀ l ∈ ls, '\n' ∉ l) →
      ∃ ls', RespacedLines inEntry ls ls' ∧ (∀ l ∈ ls', '\n' ∉ l) ∧
        keyLinesFrom inEntry ls' = (keyLinesFrom inEntry ls).map fun kv => form us (core kv) := by
  induction ls with
  | nil => exact fun inEntry _ => ⟨[], .nil inEntry, by simp, rfl⟩
  | cons l ls ih =>
    intro inEntry hls
    rw [List.forall_mem_cons] at hls
    obtain ⟨ls', hr, hnl, hkeys⟩ := ih (Line.sectionAfter inEntry [desktopLineOf l]) hls.2
    by_cases hkey : inEntry = true ∧ ∃ kv, desktopLineOf l = .entry kv
    · obtain ⟨rfl, kv, hl⟩ := hkey
      obtain ⟨l', hline, hl', hnl'⟩ := exists_respacedLine hus hl
      rw [hl] at hr hkeys
      refine ⟨l' :: ls', .key hl hline hr, List.forall_mem_cons.2 ⟨hnl' hls.1, hnl⟩, ?_⟩
      rw [keyLinesFrom_entry hl', keyLinesFrom_entry hl, List.map_cons]
      exact congrArg _ hkeys
    · have hnone : keyLinesFrom inEntry [l] = [] := by
        rw [keyLinesFrom, List.map_singleton]
        cases hl : desktopLineOf l with
        | header s => rfl
        | neither => rfl
        | entry kv =>
          cases inEntry with
          | false => rfl
          | true => exact absurd ⟨rfl, kv, hl⟩ hkey
      refine ⟨l :: ls', .same hr, List.forall_mem_cons.2 ⟨hls.1, hnl⟩, ?_⟩
      rw [keyLinesFrom_cons, keyLinesFrom_cons inEntry l ls, hnone, hkeys]
      rfl

theorem exists_respaced {us : Str} (hus : ∀ c ∈ us, gap c = true) (text : Str) :
    ∃ text', Respaced text text' ∧ keyLines (lines text') = (keyLines (lines text)).map fun kv => form us (core kv) := by
  obtain ⟨ls', hr, hnl, hkeys⟩ := exists_respacedLines hus (lines text) false fun l hl => notMem_of_mem_lines hl
  refine ⟨unlines ls', ?_, ?_⟩
  · rw [Respaced, lines_unlines hnl]
    exact hr
  · rw [lines_unlines hnl]
    exact hkeys

/-- the values of a key that are left of a respaced file, without their blanks -/
def declared (key : Str) (kls : List (Str × Str)) : List Str :=
  kls.filterMap fun kv => if (core kv).1 = key ∧ (core kv).2 ≠ [] then some (core kv).2 else none

theorem ne_nil_of_mem_declared {key v : Str} {kls : List (Str × Str)} (h : v ∈ declared key kls) : v ≠ [] := by
  obtain ⟨kv, -, hv⟩ := List.mem_filterMap.1 h
  split_ifs at hv with hne
  cases hv
  exact hne.2

theorem valuesOf_form {key : Str} (hkey : key ∈ entryKeys) (us : Str) (kls : List (Str × Str)) :
    valuesOf key (kls.map fun kv => form us (core kv)) = (declared key kls).map (us ++ ·) := by
  have hkeys : ∀ k ∈ entryKeys, k ≠ [] ∧ k.getLast? ≠ some ' ' := by decide
  rw [valuesOf, List.filterMap_map, declared, List.map_filterMap]
  congr 1
  funext kv
  simp only [Function.comp_apply, form, valueOf]
  by_cases hv : (core kv).2 = []
  · have hne : keyWith (core kv).1 [' '] ≠ key := by
      intro e
      rw [keyWith] at e
      split_ifs at e
      · exact (hkeys key hkey).1 e.symm
      · apply (hkeys key hkey).2
        rw [← e]
        simp
    simp [hv, hne]
  · by_cases hk : (core kv).1 = key
    · simp [hv, hk]
    · simp [hv, hk]

theorem firstValue_form {key : Str} (hkey : key ∈ entryKeys) (us : Str) {kls : List (Str × Str)} {v : Str}
    {vs : List Str} (h : declared key kls = v :: vs) : firstValue key (kls.map fun kv => form us (core kv)) = us ++ v := by
  have hne : us ++ v ≠ [] := by
    have hv : v ≠ [] := ne_nil_of_mem_declared (h ▸ List.mem_cons_self)
    simp [hv]
  rw [firstValue, valuesOf_form hkey, h, List.map_cons, List.find?_cons, decide_eq_true hne]
  rfl

theorem lastValue_form {key : Str} (hkey : key ∈ entryKeys) (us : Str) {kls : List (Str × Str)} {v : Str}
    {vs : List Str} (h : declared key kls = vs ++ [v]) : lastValue key (kls.map fun kv => form us (core kv)) = us ++ v := by
  rw [lastValue, valuesOf_form hkey, h, List.map_append, List.map_singleton, List.getLast?_concat, Option.getD_some]

/-- what a file declares comes back with the blank before it -/
theorem firstValue_blank {key : Str} (hkey : key ∈ entryKeys) {kls : List (Str × Str)} (h : declared key kls ≠ []) :
    firstValue key (kls.map fun kv => form [] (core kv)) ≠ [] ∧
      firstValue key (kls.map fun kv => form [' '] (core kv)) =
        ' ' :: firstValue key (kls.map fun kv => form [] (core kv)) := by
  obtain ⟨v, vs, hfirst⟩ := List.exists_cons_of_ne_nil h
  have hv : v ≠ [] := ne_nil_of_mem_declared (hfirst ▸ List.mem_cons_self)
  rw [firstValue_form hkey _ hfirst, firstValue_form hkey _ hfirst]
  exact ⟨hv, rfl⟩

theorem lastValue_blank {key : Str} (hkey : key ∈ entryKeys) {kls : List (Str × Str)} (h : declared key kls ≠ []) :
    lastValue key (kls.map fun kv => form [] (core kv)) ≠ [] ∧
      lastValue key (kls.map fun kv => form [' '] (core kv)) =
        ' ' :: lastValue key (kls.map fun kv => form [] (core kv)) := by
  rcases List.eq_nil_or_concat (declared key kls) with hnil | ⟨vs, v, hlast⟩
  · exact absurd hnil h
  · rw [List.concat_eq_append] at hlast
    have hv : v ≠ [] := ne_nil_of_mem_declared (hlast ▸ List.mem_append_right _ (List.mem_singleton_self v))
    rw [lastValue_form hkey _ hlast, lastValue_form hkey _ hlast]
    exact ⟨hv, rfl⟩

/-- two respacings of a file that declares something are different sessions -/
theorem desktopEntry_form_ne {key : Str} (hkey : key ∈ entryKeys) {kls : List (Str × Str)} (h : declared key kls ≠ [])
    (filePath : Str) (isWayland : Bool) :
    desktopEntry filePath isWayland (kls.map fun kv => form [] (core kv)) ≠
      desktopEntry filePath isWayland (kls.map fun kv => form [' '] (core kv)) := by
  intro heq
  have hself : ∀ x : Str, x ≠ ' ' :: x := fun x e => by simpa using congrArg List.length e
  obtain ⟨hfirst, hfirst'⟩ := firstValue_blank hkey h
  obtain ⟨hlast, hlast'⟩ := lastValue_blank hkey h
  simp only [entryKeys, List.mem_cons, List.not_mem_nil, or_false] at hkey
  rcases hkey with rfl | rfl | rfl | rfl
  · have hname := congrArg SessionInfo.name heq
    simp only [desktopEntry, hfirst', if_neg hfirst, if_neg (List.cons_ne_nil _ _)] at hname
    exact hself _ hname
  · have hexec := congrArg SessionInfo.exec heq
    simp only [desktopEntry, hfirst'] at hexec
    exact hself _ hexec
  · have hcomment := congrArg SessionInfo.comment heq
    simp only [desktopEntry, hfirst'] at hcomment
    exact hself _ hcomment
  · have hnames := congrArg SessionInfo.desktopNames heq
    simp only [desktopEntry, hlast', if_neg hlast, if_neg (List.cons_ne_nil _ _)] at hnames
    exact hself _ hnames

/-- a directory entry whose text may be respaced if it declares nothing -/
def RespacedEntry (e e' : DirEntry) : Prop :=
  e'.path = e.path ∧ e'.isRegularFile = e.isRegularFile ∧
    (e'.text = e.text ∨ ∃ text text', e.text = some text ∧ e'.text = some text' ∧ Respaced text text' ∧ Undeclared text)

theorem RespacedEntry.parse {e e' : DirEntry} (h : RespacedEntry e e') (isWayland : Bool) :
    parseDesktopFile e'.path e'.text isWayland = parseDesktopFile e.path e.text isWayland := by
  obtain ⟨hpath, -, htext | ⟨text, text', htext, htext', hr, hu⟩⟩ := h
  · rw [hpath, htext]
  · rw [hpath, htext, htext', parse_undeclared hu, parse_undeclared (hu.respaced hr)]

/-- a directory whose files are respaced -/
def Listing.respaced (f : DirEntry → DirEntry) (l : Listing) : Listing := { l with entries := l.entries.map f }

theorem scanAll_respaced {f : DirEntry → DirEntry} (hf : ∀ e, RespacedEntry e (f e)) (listing : Str → Option Listing) :
    scanAll (fun dir => (listing dir).map (Listing.respaced f)) = scanAll listing := by
  have hentry : ∀ out e, scanEntry true out (f e) = scanEntry true out e := by
    intro out e
    simp only [scanEntry, scanFile, (hf e).2.1]
    rw [(hf e).1, ← (hf e).1, (hf e).parse true, (hf e).1]
  have hdir : ∀ dir out, scanDirectory ((listing dir).map (Listing.respaced f)) true out =
      scanDirectory (listing dir) true out := by
    intro dir out
    cases listing dir with
    | none => rfl
    | some l =>
      have hfold : (l.entries.map f).foldlM (scanEntry true) out = l.entries.foldlM (scanEntry true) out := by
        rw [List.foldlM_map]
        congr 1
        funext out e
        exact hentry out e
      simp only [Option.map_some, Listing.respaced, scanDirectory, hfold, ne_eq, List.map_eq_nil_iff]
  simp only [scanAll, hdir]

/-- **Blanks around '=' matter as soon as a file declares something**: a file gives the same session under every
respacing exactly if it has no value for any of the four keys; and respacing such files changes no scan. -/
theorem respaced_iff (filePath text : Str) (isWayland : Bool) :
    ((∀ text', Respaced text text' →
        parseDesktopFile filePath (some text') isWayland = parseDesktopFile filePath (some text) isWayland) ↔
      Undeclared text) ∧
    ∀ (f : DirEntry → DirEntry) (listing : Str → Option Listing), (∀ e, RespacedEntry e (f e)) →
      scanAll (fun dir => (listing dir).map (Listing.respaced f)) = scanAll listing := by
  refine ⟨⟨fun h => ?_, fun h text' hr => ?_⟩, fun f listing hf => scanAll_respaced hf listing⟩
  · by_contra hdeclares
    rw [undeclared_iff] at hdeclares
    simp only [List.forall_mem_map, not_forall] at hdeclares
    obtain ⟨kv, hkv, hkey, hne⟩ := hdeclares
    have hdeclared : declared (core kv).1 (keyLines (lines text)) ≠ [] :=
      List.ne_nil_of_mem (List.mem_filterMap.2 ⟨kv, hkv, if_pos ⟨rfl, hne⟩⟩)
    have htight : ∀ c ∈ ([] : Str), gap c = true := by simp
    have hspaced : ∀ c ∈ [' '], gap c = true := by simp [gap]
    obtain ⟨text₁, hr₁, hkeys₁⟩ := exists_respaced htight text
    obtain ⟨text₂, hr₂, hkeys₂⟩ := exists_respaced hspaced text
    apply desktopEntry_form_ne hkey hdeclared filePath isWayland
    calc desktopEntry filePath isWayland ((keyLines (lines text)).map fun kv => form [] (core kv))
        = desktopEntry filePath isWayland (keyLines (lines text₁)) := by rw [hkeys₁]
      _ = parseDesktopFile filePath (some text₁) isWayland := (parseDesktopFile_eq filePath text₁ isWayland).symm
      _ = parseDesktopFile filePath (some text) isWayland := h text₁ hr₁
      _ = parseDesktopFile filePath (some text₂) isWayland := (h text₂ hr₂).symm
      _ = desktopEntry filePath isWayland (keyLines (lines text₂)) := parseDesktopFile_eq filePath text₂ isWayland
      _ = desktopEntry filePath isWayland ((keyLines (lines text)).map fun kv => form [' '] (core kv)) := by rw [hkeys₂]
  · rw [parse_undeclared h, parse_undeclared (h.respaced hr)]

/-! ## A session that disappears -/

def spacedText (key : String) : Str := lit "[Desktop Entry]\nName=Plain\n" ++ lit key ++ lit "=plain\n"

def spacedListing (key : String) (dir : Str) : Option Listing :=
  if dir = lit "/usr/share/wayland-sessions" then
    some { entries := [⟨lit "/usr/share/wayland-sessions/plain.desktop", some true, some (spacedText key)⟩] }
  else none

/-- one blank before an '=', and the session is gone -/
theorem blank_loses_session :
    Respaced (spacedText "Exec") (spacedText "Exec ") ∧
    (scanAll (spacedListing "Exec")).map (List.map SessionInfo.name) = some [lit "Plain"] ∧
    scanAll (spacedListing "Exec ") = some [fallbackSession] ∧
    ¬ ∀ text', Respaced (spacedText "Exec") text' →
      parseDesktopFile (lit "/plain.desktop") (some text') true =
        parseDesktopFile (lit "/plain.desktop") (some (spacedText "Exec")) true := by
  have hrespaced : Respaced (spacedText "Exec") (spacedText "Exec ") := by
    have hexec : lines (spacedText "Exec") = [lit "[Desktop Entry]", lit "Name=Plain", lit "Exec=plain"] := by decide
    have hblank : lines (spacedText "Exec ") = [lit "[Desktop Entry]", lit "Name=Plain", lit "Exec =plain"] := by decide
    rw [Respaced, hexec, hblank]
    have hentry : desktopLineOf (lit "Exec=plain") = .entry (lit "Exec", lit "plain") := by decide
    have hline : RespacedLine (lit "Exec=plain") (lit "Exec =plain") :=
      ⟨lit "Exec", [], [' '], [], [], lit "plain", by decide, by simp [gap], rfl, rfl⟩
    exact .same (.same (.key hentry hline (.nil true)))
  refine ⟨hrespaced, by decide, by decide, fun h => ?_⟩
  have hexec := congrArg SessionInfo.exec (h _ hrespaced)
  exact absurd hexec (by decide)

end Miqudm
