/-
Lines out of a stream that arrives in pieces.

Both ends of a connection collect what they read, each piece as a C string, until a newline is among it. `readLine` is
this loop alone: the pieces it takes, the line, and what has arrived behind it. For a text without newline and NUL the
cuts do not matter: however the text, its newline and anything after it are divided into pieces, the line is the text
(`readLine_framed`), and a stream without newline has none (`readLine_unframed`).
-/
import Miqudm.Common.Text

namespace Miqudm

/-! ## Splitting at a separator -/

/-- more text does not change what came before the first separator -/
theorem splitFirst_of_notMem {c : Char} {a : Str} (h : c ∉ a) (b : Str) :
    splitFirst c (a ++ c :: b) = some (a, b) := by
  induction a with
  | nil => simp [splitFirst]
  | cons d a ih =>
    have hd : d ≠ c := fun e => h (e ▸ List.mem_cons_self)
    have ha : c ∉ a := fun e => h (List.mem_cons_of_mem d e)
    simp [splitFirst, hd, ih ha]

theorem splitFirst_eq_none {c : Char} {a : Str} (h : c ∉ a) : splitFirst c a = none := by
  induction a with
  | nil => rfl
  | cons d a ih =>
    have hd : d ≠ c := fun e => h (e ▸ List.mem_cons_self)
    have ha : c ∉ a := fun e => h (List.mem_cons_of_mem d e)
    simp [splitFirst, hd, ih ha]

/-- what stands before and after the first separator -/
theorem splitFirst_eq_some {c : Char} {s a b : Str} (h : splitFirst c s = some (a, b)) : s = a ++ c :: b ∧ c ∉ a := by
  by_cases hc : c ∈ s
  · obtain ⟨p, q, rfl, hp⟩ := List.eq_append_cons_of_mem hc
    rw [splitFirst_of_notMem hp] at h
    cases h
    exact ⟨rfl, hp⟩
  · rw [splitFirst_eq_none hc] at h
    cases h

theorem notMem_of_splitFirst_none {c : Char} {s : Str} (h : splitFirst c s = none) : c ∉ s := by
  intro hc
  obtain ⟨p, q, rfl, hp⟩ := List.eq_append_cons_of_mem hc
  rw [splitFirst_of_notMem hp] at h
  cases h

/-! ## C strings in pieces -/

theorem mem_of_mem_cstr {c : Char} {s : Str} (h : c ∈ cstr s) : c ∈ s := (List.takeWhile_prefix _).subset h

theorem cstr_append {a b : Str} (h : nul ∉ a) : cstr (a ++ b) = a ++ cstr b := by
  have ha : ∀ c ∈ a, decide (c ≠ nul) = true := by
    intro c hc
    have hne : c ≠ nul := fun e => h (e ▸ hc)
    simpa using hne
  exact List.takeWhile_append_of_pos ha

theorem cstr_cons {c : Char} (hc : c ≠ nul) (b : Str) : cstr (c :: b) = c :: cstr b := by
  have hnul : nul ∉ [c] := by simpa using Ne.symm hc
  exact cstr_append (b := b) hnul

/-! ## The loop -/

/-- the pieces that were read, the line, and what has arrived of the rest -/
def readLine (collected : Str) : List Str → Option (List Str × Str × Str)
  | [] => none
  | chunk :: chunks =>
    if chunk = [] then none
    else match splitFirst '\n' (collected ++ cstr chunk) with
      | some (line, rest) => some ([chunk], line, rest)
      | none => (readLine (collected ++ cstr chunk) chunks).map fun r => (chunk :: r.1, r.2)

/-- the newline that ends a text comes after a piece of the stream, or within it -/
theorem append_eq_line {a b text x : Str} (h : a ++ b = text ++ '\n' :: x) :
    (∃ y, text = a ++ y ∧ b = y ++ '\n' :: x) ∨ ∃ y, a = text ++ '\n' :: y ∧ x = y ++ b := by
  rcases List.append_eq_append_iff.1 h with ⟨y, hy, hb⟩ | ⟨y, hy, hx⟩
  · exact Or.inl ⟨y, hy, hb⟩
  · rcases List.cons_eq_append_iff.1 hx with ⟨rfl, hb⟩ | ⟨z, rfl, hz⟩
    · exact Or.inl ⟨[], by simpa using hy.symm, hb⟩
    · exact Or.inr ⟨z, hy, hz⟩

/-- **The cuts do not matter.** The line is the text up to the newline. -/
theorem readLine_framed {text x : Str} (hline : '\n' ∉ text) (hnul : nul ∉ text) (chunks : List Str) :
    ∀ collected, (∀ chunk ∈ chunks, chunk ≠ []) → '\n' ∉ collected →
      collected ++ chunks.flatten = text ++ '\n' :: x →
      ∃ reads rest, readLine collected chunks = some (reads, text, rest) := by
  induction chunks with
  | nil =>
    intro collected _ hcollected h
    have hmem : '\n' ∈ collected := by
      rw [List.flatten_nil, List.append_nil] at h
      simp [h]
    exact absurd hmem hcollected
  | cons chunk chunks ih =>
    intro collected hne hcollected h
    rw [List.forall_mem_cons] at hne
    rw [List.flatten_cons, ← List.append_assoc] at h
    rw [readLine, if_neg hne.1]
    rcases append_eq_line h with ⟨a, ha, hrest⟩ | ⟨y, hy, -⟩
    · -- the text is not complete yet
      have hno : '\n' ∉ collected ++ chunk := fun e => hline (ha ▸ List.mem_append_left a e)
      have hclean : nul ∉ chunk := fun e => hnul (ha ▸ List.mem_append_left a (List.mem_append_right collected e))
      obtain ⟨reads, rest, hread⟩ := ih (collected ++ chunk) hne.2 hno (by simp [ha, hrest])
      refine ⟨chunk :: reads, rest, ?_⟩
      rw [cstr_of_noNul hclean, splitFirst_eq_none hno]
      simp only [hread, Option.map_some]
    · -- the newline is in this piece, and only what follows it may hold a NUL
      rcases append_eq_line hy with ⟨a, ha, hchunk⟩ | ⟨z, hz, -⟩
      · have hclean : nul ∉ a := fun e => hnul (ha ▸ List.mem_append_right collected e)
        have hcstr : collected ++ cstr chunk = text ++ '\n' :: cstr y := by
          rw [hchunk, cstr_append hclean, cstr_cons (by decide), ha, List.append_assoc]
        refine ⟨[chunk], cstr y, ?_⟩
        rw [hcstr, splitFirst_of_notMem hline]
      · exact absurd (by simp [hz]) hcollected

/-- a stream without newline has no line -/
theorem readLine_unframed (chunks : List Str) :
    ∀ collected, '\n' ∉ collected ++ chunks.flatten → readLine collected chunks = none := by
  induction chunks with
  | nil => exact fun _ _ => rfl
  | cons chunk chunks ih =>
    intro collected h
    have hno : '\n' ∉ collected ++ cstr chunk := by
      intro e
      apply h
      rw [List.flatten_cons, ← List.append_assoc]
      rcases List.mem_append.1 e with hc | hc
      · exact List.mem_append_left _ (List.mem_append_left _ hc)
      · exact List.mem_append_left _ (List.mem_append_right _ (mem_of_mem_cstr hc))
    have hrest : '\n' ∉ (collected ++ cstr chunk) ++ chunks.flatten := by
      intro e
      rcases List.mem_append.1 e with hc | hc
      · exact hno hc
      · apply h
        rw [List.flatten_cons]
        exact List.mem_append_right _ (List.mem_append_right _ hc)
    rw [readLine]
    by_cases hchunk : chunk = []
    · rw [if_pos hchunk]
    · rw [if_neg hchunk, splitFirst_eq_none hno]
      simp only [ih _ hrest, Option.map_none]

example : readLine [] [lit "pi", lit "ng\nmo", lit "re"] = some ([lit "pi", lit "ng\nmo"], lit "ping", lit "mo") := by
  decide

end Miqudm
