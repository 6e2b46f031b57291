/-
What a child reads from its environment.

A child builds its environment with setenv, one variable after the other, and overlays the entries that libpam returns.
`lookup_setenv` says what one call changes, `lookup_overlay` what the overlay does to a variable: the last entry for it
decides, and without one the base does. `told` are the values that an environment of libpam has for a variable; putting
an entry for another variable does not change them (`told_put_other`), and the first entry put for a variable is the one
value it has (`told_put_first`).
-/
import Miqudm.Core.Sections
import Miqudm.Common.Framing
import Miqudm.Daemon.World

namespace Miqudm

open Miqudm.Core

/-- a name that setenv takes as it is -/
structure VarName (name : Str) : Prop where
  nonempty : name ≠ []
  noEquals : '=' ∉ name
  noNul : nul ∉ name

instance (name : Str) : Decidable (VarName name) :=
  decidable_of_iff (name ≠ [] ∧ '=' ∉ name ∧ nul ∉ name) ⟨fun h => ⟨h.1, h.2.1, h.2.2⟩, fun h => ⟨h.1, h.2, h.3⟩⟩

/-! ## setenv -/

theorem lookup_replace (name name' value : Str) (env : List (Str × Str)) :
    (env.map fun v => if v.1 = name then (name, value) else v).lookup name' =
      if name = name' ∧ (env.any fun v => v.1 = name) then some value else env.lookup name' := by
  induction env with
  | nil => simp
  | cons v env ih =>
    rcases v with ⟨k, x⟩
    rw [List.map_cons]
    by_cases hk : k = name
    · subst hk
      by_cases hname : k = name'
      · subst hname
        simp
      · have hne : (name' == k) = false := by simpa using Ne.symm hname
        simp only [if_true, List.lookup_cons, hne, hname, false_and, if_false] at ih ⊢
        exact ih
    · simp only [hk, if_false, List.lookup_cons, List.any_cons, decide_false, Bool.false_or]
      by_cases hname : name' = k
      · have hne : name ≠ k := fun h => hk h.symm
        simp [hname, hne]
      · have hne : (name' == k) = false := by simpa using hname
        rw [hne]
        exact ih

/-- **One setenv.** -/
theorem lookup_setenv {name : Str} (hname : VarName name) (k v : Str) (env : List (Str × Str)) :
    (setenv k v env).lookup name = if cstr k = name then some (cstr v) else env.lookup name := by
  unfold setenv
  simp only []
  by_cases hk : cstr k = name
  · rw [hk, if_pos rfl, if_neg (not_or.2 ⟨hname.nonempty, hname.noEquals⟩)]
    split_ifs with hany
    · rw [lookup_replace, if_pos ⟨rfl, hany⟩]
    · have hnone : env.lookup name = none := by
        rw [List.lookup_eq_none_iff]
        intro p hp
        have hne : p.1 ≠ name := fun h => hany (List.any_eq_true.2 ⟨p, hp, by simpa using h⟩)
        simpa using Ne.symm hne
      rw [List.lookup_append, hnone]
      simp
  · have hne : (name == cstr k) = false := by simpa using Ne.symm hk
    rw [if_neg hk]
    split_ifs
    · rfl
    · rw [lookup_replace, if_neg fun h => hk h.1]
    · rw [List.lookup_append]
      simp [hne]

/-! ## The overlay -/

/-- the name of an entry, as C reads it -/
def entryName (entry : Str) : Str := cstr (entry.takeWhile (· ≠ '='))

/-- what an entry sets the variable to -/
def entryValue (name entry : Str) : Option Str :=
  match splitFirst '=' entry with
  | some (k, v) => if cstr k = name then some (cstr v) else none
  | none => none

/-- the values that the entries have for the variable, in order -/
def told (name : Str) (env : List Str) : List Str := env.filterMap (entryValue name)

/-- **The overlay.** The last entry for a variable decides, and without one the environment below it does. -/
theorem lookup_overlay {name : Str} (hname : VarName name) (entries : List Str) (env : List (Str × Str)) :
    (overlay entries env).lookup name = (told name entries).getLast?.or (env.lookup name) := by
  have hstep : ∀ (env : List (Str × Str)) entry, List.lookup name (match splitFirst '=' entry with
      | some (k, v) => setenv k v env
      | none => env) = ((entryValue name entry).map some).getD (env.lookup name) := by
    intro env entry
    unfold entryValue
    cases hsplit : splitFirst '=' entry with
    | none => rfl
    | some kv =>
      rcases kv with ⟨k, v⟩
      simp only []
      rw [lookup_setenv hname]
      split_ifs <;> rfl
  calc (overlay entries env).lookup name
      = ((entries.filterMap fun entry => (entryValue name entry).map some).getLast?).getD (env.lookup name) :=
        foldl_last hstep entries env
    _ = (((told name entries).map some).getLast?).getD (env.lookup name) := by rw [told, List.map_filterMap]
    _ = (((told name entries).getLast?).map some).getD (env.lookup name) := by rw [List.getLast?_map]
    _ = (told name entries).getLast?.or (env.lookup name) := by cases (told name entries).getLast? <;> rfl

/-! ## putenv -/

theorem takeWhile_name {k : Str} (hk : '=' ∉ k) (v : Str) : (k ++ '=' :: v).takeWhile (· ≠ '=') = k := by
  rw [List.takeWhile_append_of_pos, List.takeWhile_cons_of_neg (by simp), List.append_nil]
  intro c hc
  have hne : c ≠ '=' := fun h => hk (h ▸ hc)
  simpa using hne

theorem entryName_eq {entry k v : Str} (h : splitFirst '=' entry = some (k, v)) : entryName entry = cstr k := by
  obtain ⟨rfl, hk⟩ := splitFirst_eq_some h
  rw [entryName, takeWhile_name hk]

/-- an entry of another name says nothing of the variable -/
theorem entryValue_other {name entry : Str} (h : entryName entry ≠ name) : entryValue name entry = none := by
  unfold entryValue
  cases hsplit : splitFirst '=' entry with
  | none => rfl
  | some kv =>
    rcases kv with ⟨k, v⟩
    rw [entryName_eq hsplit] at h
    exact if_neg h

/-- no entry has the name -/
def Silent (name : Str) (env : List Str) : Prop := ∀ entry ∈ env, entryName entry ≠ name

theorem told_of_silent {name : Str} {env : List Str} (h : Silent name env) : told name env = [] :=
  List.filterMap_eq_nil_iff.2 fun entry he => entryValue_other (h entry he)

theorem mem_putEntry {env : List Str} {entry e : Str} (h : e ∈ putEntry env entry) : e ∈ env ∨ e = entry := by
  unfold putEntry at h
  simp only [] at h
  split_ifs at h
  · obtain ⟨e', he', rfl⟩ := List.mem_map.1 h
    split_ifs
    · exact Or.inr rfl
    · exact Or.inl he'
  · rcases List.mem_append.1 h with h | h
    · exact Or.inl h
    · exact Or.inr (List.mem_singleton.1 h)
  · exact Or.inl (List.mem_filter.1 h).1

theorem Silent.put {name entry : Str} {env : List Str} (h : Silent name env) (hentry : entryName entry ≠ name) :
    Silent name (putEntry env entry) := by
  intro e he
  rcases mem_putEntry he with he | rfl
  · exact h e he
  · exact hentry

/-- **Another variable.** -/
theorem told_put_other {name entry : Str} (hentry : entryName entry ≠ name) (env : List Str) :
    told name (putEntry env entry) = told name env := by
  -- what goes and what comes has the name of the entry
  have hsame : ∀ e : Str, e.takeWhile (· ≠ '=') = entry.takeWhile (· ≠ '=') → entryValue name e = none := by
    intro e he
    apply entryValue_other
    rw [entryName, he]
    exact hentry
  unfold putEntry
  simp only []
  split_ifs with heq hany
  · rw [told, told, List.filterMap_map]
    apply List.filterMap_congr
    intro e _
    simp only [Function.comp_apply]
    split_ifs with he
    · rw [hsame e he, entryValue_other hentry]
    · rfl
  · rw [told, List.filterMap_append, List.filterMap_cons_none (entryValue_other hentry)]
    simp [told]
  · have hself : entry.takeWhile (· ≠ '=') = entry := by
      rw [List.takeWhile_eq_self_iff]
      intro c hc
      have hne : c ≠ '=' := fun h => heq (h ▸ hc)
      simpa using hne
    rw [told, told, List.filterMap_filter]
    apply List.filterMap_congr
    intro e _
    split_ifs with he
    · rfl
    · exact (hsame e (by rw [hself]; simpa using he)).symm

/-- **The first entry for a variable.** -/
theorem told_put_first {name : Str} (hname : VarName name) (value : Str) {env : List Str} (h : Silent name env) :
    told name (putEntry env (name ++ '=' :: value)) = [cstr value] := by
  have hsplit : splitFirst '=' (name ++ '=' :: value) = some (name, value) := splitFirst_of_notMem hname.noEquals value
  have hvalue : entryValue name (name ++ '=' :: value) = some (cstr value) := by
    simp only [entryValue, hsplit, cstr_of_noNul hname.noNul, if_true]
  have hno : ¬ env.any (fun e => e.takeWhile (· ≠ '=') = name) := by
    intro hany
    obtain ⟨e, he, heq⟩ := List.any_eq_true.1 hany
    have heq : e.takeWhile (· ≠ '=') = name := by simpa using heq
    exact h e he (by rw [entryName, heq, cstr_of_noNul hname.noNul])
  have hput : putEntry env (name ++ '=' :: value) = env ++ [name ++ '=' :: value] := by
    unfold putEntry
    simp only [takeWhile_name hname.noEquals]
    rw [if_neg (by simp), if_neg hno]
  calc told name (putEntry env (name ++ '=' :: value))
      = told name (env ++ [name ++ '=' :: value]) := by rw [hput]
    _ = told name env ++ [cstr value] := by simp [told, hvalue]
    _ = [cstr value] := by rw [told_of_silent h, List.nil_append]

end Miqudm
