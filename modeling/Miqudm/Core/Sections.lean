/-
Texts in sections, and what a reader that folds over their entries makes of them.

A line of such a text is the header of a section, an entry of the section in force, or neither. A reader that keeps the
section in force beside its own state, and moves that state on entries alone, computes a fold over `entries`: the
entries in order, each with its section (`foldl_step`). Two kinds of fields then have closed forms that do not mention
the fold: a field that every assignment overwrites has the last value assigned (`foldl_last`), and a field that only an
assignment to an unset one changes has the first value that sets it (`foldl_first`).

Nothing here depends on what sections, entries and values are.
-/
import Mathlib.Tactic.Common
import Mathlib.Data.List.Basic

namespace Miqudm.Core

/-- what a line is to a reader -/
inductive Line (σ α : Type) where
  | header (s : σ)
  | entry (a : α)
  | neither
deriving DecidableEq, Repr

namespace Line

variable {σ α τ β : Type}

/-! ## Sections and entries -/

/-- the section in force after the lines -/
def sectionAfter (s : σ) : List (Line σ α) → σ
  | [] => s
  | header s' :: ls => sectionAfter s' ls
  | entry _ :: ls => sectionAfter s ls
  | neither :: ls => sectionAfter s ls

/-- the entries in order, each with the section in force -/
def entries (s : σ) : List (Line σ α) → List (σ × α)
  | [] => []
  | header s' :: ls => entries s' ls
  | entry a :: ls => (s, a) :: entries s ls
  | neither :: ls => entries s ls

theorem entries_append (s : σ) (ls ls' : List (Line σ α)) :
    entries s (ls ++ ls') = entries s ls ++ entries (sectionAfter s ls) ls' := by
  induction ls generalizing s with
  | nil => rfl
  | cons l ls ih =>
    cases l with
    | header s' => exact ih s'
    | entry a => exact congrArg ((s, a) :: ·) (ih s)
    | neither => exact ih s

/-- the entries are the entry lines, each with the header before it that is the last -/
theorem mem_entries {s t : σ} {a : α} {ls : List (Line σ α)} :
    (t, a) ∈ entries s ls ↔ ∃ pre post, ls = pre ++ entry a :: post ∧ sectionAfter s pre = t := by
  constructor
  · intro h
    induction ls generalizing s with
    | nil => cases h
    | cons l ls ih =>
      have hrest : ∀ s', (t, a) ∈ entries s' ls → (∀ pre : List (Line σ α), sectionAfter s' pre = sectionAfter s (l :: pre)) →
          ∃ pre post, l :: ls = pre ++ entry a :: post ∧ sectionAfter s pre = t := by
        intro s' h hafter
        obtain ⟨pre, post, hls, hpre⟩ := ih h
        exact ⟨l :: pre, post, by rw [hls]; rfl, by rw [← hafter, hpre]⟩
      cases l with
      | header s' => exact hrest s' h fun _ => rfl
      | entry b =>
        rcases List.mem_cons.1 h with heq | h
        · cases heq
          exact ⟨[], ls, rfl, rfl⟩
        · exact hrest s h fun _ => rfl
      | neither => exact hrest s h fun _ => rfl
  · intro hr
    obtain ⟨pre, post, rfl, rfl⟩ := hr
    rw [entries_append]
    exact List.mem_append_right _ List.mem_cons_self

/-! ## Readers -/

/-- a reader: it keeps the section in force, and `f` moves its state on an entry -/
def step (f : τ → σ × α → τ) (st : σ × τ) : Line σ α → σ × τ
  | header s => (s, st.2)
  | entry a => (st.1, f st.2 (st.1, a))
  | neither => st

/-- **A reader computes a fold over the entries.** -/
theorem foldl_step (f : τ → σ × α → τ) (s : σ) (t : τ) (ls : List (Line σ α)) :
    ls.foldl (step f) (s, t) = (sectionAfter s ls, (entries s ls).foldl f t) := by
  induction ls generalizing s t with
  | nil => rfl
  | cons l ls ih =>
    cases l with
    | header s' => exact ih s' t
    | entry a => exact ih s (f t (s, a))
    | neither => exact ih s t

end Line

/-! ## What a fold leaves in a field -/

section Fields

variable {τ α β : Type} {f : τ → α → τ} {field : τ → β} {val : α → Option β}

/-- **The last assignment wins**: a field that every assignment overwrites. -/
theorem foldl_last (h : ∀ t a, field (f t a) = (val a).getD (field t)) (l : List α) (t : τ) :
    field (l.foldl f t) = ((l.filterMap val).getLast?).getD (field t) := by
  induction l generalizing t with
  | nil => rfl
  | cons a l ih =>
    rw [List.foldl_cons, ih, h]
    cases hval : val a with
    | none => rw [List.filterMap_cons_none hval, Option.getD_none]
    | some v => rw [List.filterMap_cons_some hval, List.getLast?_cons, Option.getD_some, Option.getD_some]

/-- **The first assignment wins**: a field that changes only while it has the value `unset`. -/
theorem foldl_first [DecidableEq β] {unset : β}
    (h : ∀ t a, field (f t a) = if field t = unset then (val a).getD (field t) else field t) (l : List α) (t : τ) :
    field (l.foldl f t) =
      if field t = unset then ((l.filterMap val).find? (· ≠ unset)).getD unset else field t := by
  induction l generalizing t with
  | nil =>
    split_ifs with ht
    · exact ht
    · rfl
  | cons a l ih =>
    rw [List.foldl_cons, ih, h]
    by_cases ht : field t = unset
    · rw [if_pos ht, if_pos ht, ht]
      cases hval : val a with
      | none => rw [List.filterMap_cons_none hval, Option.getD_none, if_pos rfl]
      | some v =>
        rw [List.filterMap_cons_some hval, Option.getD_some]
        by_cases hv : v = unset
        · rw [if_pos hv, List.find?_cons_of_neg (by simpa using hv)]
        · rw [if_neg hv, List.find?_cons_of_pos (by simpa using hv), Option.getD_some]
    · rw [if_neg ht, if_neg ht, if_neg ht]

end Fields

end Miqudm.Core
