/-
Accounts of numbered resources.

A resource is taken under a fresh number with a status of `β`, its status changes while it is held, and it is given back
when its status is settled. `Use β` is what an event does to a resource; a `Ledger β` records which numbers are held.
`Ledger.monitor` reads a log of events through a reading `use : η → Use β`.

- `takes_add_held`: in an accepted log the resources taken and those held before are the ones given back and those still
  held;
- `gives_eq_one`: a resource that is taken and no longer held was given back exactly once;
- `settled_before_give`: between the moment a status is unsettled and the return of the resource, an event settled it;
- `lasts_since`: a status was brought about by a change, and has lasted since;
- `taken_with`: a status that no event changed is the one the resource was taken with;
- `held_along`: what the changes of a status keep is kept until the resource is given back.

Nothing here depends on what the events and resources are.
-/
import Miqudm.Core.Prog
import Mathlib.Data.List.Induction
import Mathlib.Logic.Function.Basic

namespace Miqudm.Core

open Prog

/-- what an event does to a numbered resource -/
inductive Use (β : Type) where
  | take (n : ℕ) (status : β)
  | change (n : ℕ) (f : β → β)
  | give (n : ℕ)
  | pass

namespace Use

variable {β : Type}

def takes (n : ℕ) : Use β → Bool
  | take m _ => m = n
  | _ => false

def gives (n : ℕ) : Use β → Bool
  | give m => m = n
  | _ => false

end Use

/-- the numbers below `next` have been used; the held ones have a status -/
structure Ledger (β : Type) where
  next : ℕ := 0
  held : ℕ → Option β := fun _ => none

namespace Ledger

variable {β η σ ε : Type}

def step (k : Ledger β) : Use β → Ledger β
  | .take n b => ⟨n + 1, Function.update k.held n (some b)⟩
  | .change n f => { k with held := Function.update k.held n ((k.held n).map f) }
  | .give n => { k with held := Function.update k.held n none }
  | .pass => k

@[simp] theorem step_take_next (k : Ledger β) (n : ℕ) (b : β) : (k.step (.take n b)).next = n + 1 := rfl

@[simp] theorem step_take (k : Ledger β) (n : ℕ) (b : β) :
    (k.step (.take n b)).held = Function.update k.held n (some b) := rfl

@[simp] theorem step_change (k : Ledger β) (n : ℕ) (f : β → β) :
    (k.step (.change n f)).held = Function.update k.held n ((k.held n).map f) := rfl

@[simp] theorem step_give (k : Ledger β) (n : ℕ) : (k.step (.give n)).held = Function.update k.held n none := rfl

/-- a number is taken only when it is fresh, used only while it is held, and given back only when it is settled -/
def good (settled : β → Prop) (k : Ledger β) : Use β → Prop
  | .take n _ => n = k.next
  | .change n _ => (k.held n).isSome
  | .give n => ∃ b, k.held n = some b ∧ settled b
  | .pass => True

/-- no number from `next` on is held -/
def Fresh (k : Ledger β) : Prop := ∀ n, k.next ≤ n → k.held n = none

theorem fresh_empty : ({} : Ledger β).Fresh := fun _ _ => rfl

theorem fresh_step {settled : β → Prop} {k : Ledger β} (hk : k.Fresh) {u : Use β} (h : k.good settled u) :
    (k.step u).Fresh := by
  intro n hn
  cases u with
  | take m b =>
    have hm : m = k.next := h
    have hlt : m + 1 ≤ n := hn
    rw [step_take, Function.update_of_ne (by omega)]
    exact hk n (by omega)
  | change m f =>
    have hheld : (k.held m).isSome := h
    have hne : n ≠ m := by
      rintro rfl
      rw [hk n hn] at hheld
      exact absurd hheld (by simp)
    rw [step_change, Function.update_of_ne hne]
    exact hk n hn
  | give m =>
    rw [step_give]
    by_cases hne : n = m
    · rw [hne, Function.update_self]
    · rw [Function.update_of_ne hne]
      exact hk n hn
  | pass => exact hk n hn

/-- the ledger as a monitor: `extra` is asked of it after every event -/
def monitor (use : η → Use β) (settled : β → Prop) (extra : Ledger β → Prop) : Monitor η σ ε (Ledger β) where
  step k e := k.step (use e)
  good k e _ := k.good settled (use e) ∧ extra (k.step (use e))

section Balance

variable {use : η → Use β} {settled : β → Prop} {extra : Ledger β → Prop} {k : Ledger β} {l : List (η × σ)}

theorem fresh_after (hk : k.Fresh) (h : (monitor use settled extra : Monitor η σ ε (Ledger β)).accepts k l) :
    ((monitor use settled extra : Monitor η σ ε (Ledger β)).after k l).Fresh := by
  induction l generalizing k with
  | nil => exact hk
  | cons p l ih => exact ih (fresh_step hk h.1.1) h.2

/-- what is asked of the ledger after every event holds at the end -/
theorem extra_after (hk : extra k) (h : (monitor use settled extra : Monitor η σ ε (Ledger β)).accepts k l) :
    extra ((monitor use settled extra : Monitor η σ ε (Ledger β)).after k l) := by
  induction l generalizing k with
  | nil => exact hk
  | cons p l ih => exact ih h.1.2 h.2

def takesIn (use : η → Use β) (n : ℕ) (l : List (η × σ)) : ℕ := l.countP fun p => (use p.1).takes n

def givesIn (use : η → Use β) (n : ℕ) (l : List (η × σ)) : ℕ := l.countP fun p => (use p.1).gives n

/-- one if the number is held -/
def holds (k : Ledger β) (n : ℕ) : ℕ := if (k.held n).isSome then 1 else 0

/-- one event keeps the balance of a number -/
theorem takes_add_held_step (hk : k.Fresh) {u : Use β} (h : k.good settled u) (n : ℕ) :
    (u.takes n).toNat + k.holds n = (u.gives n).toNat + (k.step u).holds n := by
  cases u with
  | take m b =>
    have hm : m = k.next := h
    by_cases hne : m = n
    · have hnone : k.held n = none := hk n (by omega)
      simp [Use.takes, Use.gives, holds, step, hne, hnone]
    · simp [Use.takes, Use.gives, holds, step, hne, Function.update_of_ne (Ne.symm hne)]
  | change m f =>
    by_cases hne : n = m
    · subst hne
      simp [Use.takes, Use.gives, holds, step]
    · simp [Use.takes, Use.gives, holds, step, Function.update_of_ne hne]
  | give m =>
    obtain ⟨b, hb, -⟩ := h
    by_cases hne : m = n
    · subst hne
      simp [Use.takes, Use.gives, holds, step, hb]
    · simp [Use.takes, Use.gives, holds, step, hne, Function.update_of_ne (Ne.symm hne)]
  | pass => rfl

/-- **The books balance.** What was held or taken was given back or is held. -/
theorem takes_add_held (hk : k.Fresh) (h : (monitor use settled extra : Monitor η σ ε (Ledger β)).accepts k l)
    (n : ℕ) : takesIn use n l + k.holds n =
      givesIn use n l + ((monitor use settled extra : Monitor η σ ε (Ledger β)).after k l).holds n := by
  induction l generalizing k with
  | nil => rfl
  | cons p l ih =>
    have hstep := takes_add_held_step hk h.1.1 n
    have hrest := ih (fresh_step hk h.1.1) h.2
    simp only [takesIn, givesIn, List.countP_cons, Monitor.after_cons] at hrest ⊢
    have hnat : ∀ b : Bool, (if b = true then 1 else 0) = b.toNat := by decide
    simp only [hnat, monitor] at hrest ⊢
    omega

/-- the numbers a ledger can still take -/
def open_ (k : Ledger β) (n : ℕ) : ℕ := if n < k.next then 0 else 1

theorem takes_add_open_step {u : Use β} (h : k.good settled u) (n : ℕ) :
    (u.takes n).toNat + (k.step u).open_ n ≤ k.open_ n := by
  cases u with
  | take m b =>
    have hm : m = k.next := h
    rw [open_, open_, step_take_next]
    by_cases hne : m = n
    · have hlt : ¬ n < k.next := by omega
      simp [Use.takes, hne, hlt]
    · simp only [Use.takes, hne, decide_false, Bool.toNat_false, Nat.zero_add]
      by_cases hlt : n < k.next
      · have hlt' : n < m + 1 := by omega
        simp [hlt, hlt']
      · rw [if_neg hlt]
        split_ifs <;> omega
  | change m f => exact Nat.le_of_eq (Nat.zero_add _)
  | give m => exact Nat.le_of_eq (Nat.zero_add _)
  | pass => exact Nat.le_of_eq (Nat.zero_add _)

/-- a number is taken at most once -/
theorem takesIn_le (h : (monitor use settled extra : Monitor η σ ε (Ledger β)).accepts k l) (n : ℕ) :
    takesIn use n l ≤ k.open_ n := by
  induction l generalizing k with
  | nil => exact Nat.zero_le _
  | cons p l ih =>
    have hstep := takes_add_open_step h.1.1 n
    have hrest := ih h.2
    simp only [takesIn, List.countP_cons, monitor] at hrest ⊢
    have hnat : ∀ b : Bool, (if b = true then 1 else 0) = b.toNat := by decide
    rw [hnat]
    omega

/-- a resource that was taken, and is not held at the end, was given back exactly once -/
theorem gives_eq_one (hk : k.Fresh) (h : (monitor use settled extra : Monitor η σ ε (Ledger β)).accepts k l)
    {n : ℕ} (hn : ((monitor use settled extra : Monitor η σ ε (Ledger β)).after k l).held n = none)
    (htake : 0 < takesIn use n l) :
    givesIn use n l = 1 := by
  have hbal := takes_add_held hk h n
  have hle := takesIn_le h n
  have hend : ((monitor use settled extra : Monitor η σ ε (Ledger β)).after k l).holds n = 0 := by simp [holds, hn]
  rw [open_] at hle
  split_ifs at hle with hlt
  · omega
  · have hstart : k.holds n = 0 := by simp [holds, hk n (by omega)]
    omega

/-- a number held at the end and not at the start was taken, and not given back -/
theorem taken_of_held (hk : k.Fresh) (h : (monitor use settled extra : Monitor η σ ε (Ledger β)).accepts k l)
    {n : ℕ} (hstart : k.held n = none)
    (hend : (((monitor use settled extra : Monitor η σ ε (Ledger β)).after k l).held n).isSome) :
    0 < takesIn use n l ∧ givesIn use n l = 0 := by
  have hbal := takes_add_held hk h n
  have hle := takesIn_le h n
  have hzero : k.holds n = 0 := by simp [holds, hstart]
  have hone : ((monitor use settled extra : Monitor η σ ε (Ledger β)).after k l).holds n = 1 := by simp [holds, hend]
  have hopen : k.open_ n ≤ 1 := by
    rw [open_]
    split_ifs <;> omega
  omega

theorem held_step {n : ℕ} (hheld : (k.held n).isSome) {u : Use β} (hu : u ≠ .give n) :
    ((k.step u).held n).isSome := by
  cases u with
  | take m b =>
    rw [step_take]
    by_cases hne : n = m
    · rw [hne, Function.update_self]; rfl
    · rw [Function.update_of_ne hne]; exact hheld
  | change m f =>
    rw [step_change]
    by_cases hne : n = m
    · rw [hne, Function.update_self, Option.isSome_map, ← hne]; exact hheld
    · rw [Function.update_of_ne hne]; exact hheld
  | give m =>
    have hne : n ≠ m := fun e => hu (by rw [e])
    rw [step_give, Function.update_of_ne hne]
    exact hheld
  | pass => exact hheld

/-- what is held and gone at the end was given back -/
theorem give_mem {n : ℕ} (hheld : (k.held n).isSome)
    (hend : ((monitor use settled extra : Monitor η σ ε (Ledger β)).after k l).held n = none) :
    ∃ p ∈ l, use p.1 = .give n := by
  induction l generalizing k with
  | nil => simp [show k.held n = none from hend] at hheld
  | cons p l ih =>
    by_cases hp : use p.1 = .give n
    · exact ⟨p, by simp, hp⟩
    · obtain ⟨q, hq, hgive⟩ := ih (held_step hheld hp) hend
      exact ⟨q, List.mem_cons_of_mem _ hq, hgive⟩

/-- an event on a resource whose status `P` excludes: it settles the status, or leaves it unsettled -/
theorem unsettled_step {P : β → Prop} (hP : ∀ b, settled b → P b) {n : ℕ} {b : β} (hb : k.held n = some b)
    (hbP : ¬ P b) (hk : k.Fresh) {u : Use β} (h : k.good settled u) :
    (∃ f, u = .change n f ∧ P (f b)) ∨ ∃ b', (k.step u).held n = some b' ∧ ¬ P b' := by
  cases u with
  | take m c =>
    have hm : m = k.next := h
    have hlt : ¬ k.next ≤ n := fun hle => by simp [hk n hle] at hb
    exact Or.inr ⟨b, by rw [step_take, Function.update_of_ne (by omega)]; exact hb, hbP⟩
  | change m f =>
    by_cases hne : n = m
    · subst hne
      by_cases hf : P (f b)
      · exact Or.inl ⟨f, rfl, hf⟩
      · exact Or.inr ⟨f b, by simp [hb], hf⟩
    · exact Or.inr ⟨b, by rw [step_change, Function.update_of_ne hne]; exact hb, hbP⟩
  | give m =>
    obtain ⟨c, hc, hs⟩ := h
    have hne : n ≠ m := by
      rintro rfl
      rw [hb] at hc
      exact hbP (hP _ (by rwa [← Option.some_inj.1 hc] at hs))
    exact Or.inr ⟨b, by rw [step_give, Function.update_of_ne hne]; exact hb, hbP⟩
  | pass => exact Or.inr ⟨b, hb, hbP⟩

/-- a status that `P` excludes does not last until the resource is given back: a change of it comes before -/
theorem settled_before_give {P : β → Prop} (hP : ∀ b, settled b → P b) {n : ℕ} {b : β} (hb : k.held n = some b)
    (hbP : ¬ P b) (hk : k.Fresh) (h : (monitor use settled extra : Monitor η σ ε (Ledger β)).accepts k l)
    (hend : ((monitor use settled extra : Monitor η σ ε (Ledger β)).after k l).held n = none) :
    ∃ pre p post f b', l = pre ++ p :: post ∧ use p.1 = .change n f ∧ ¬ P b' ∧ P (f b') ∧
      ∃ q ∈ post, use q.1 = .give n := by
  induction l generalizing k b with
  | nil => simp [show k.held n = none from hend] at hb
  | cons p l ih =>
    have hgood : k.good settled (use p.1) := h.1.1
    rcases unsettled_step hP hb hbP hk hgood with ⟨f, hu, hf⟩ | ⟨b', hb', hbP'⟩
    · have hheld : ((k.step (use p.1)).held n).isSome := by simp [hu, hb]
      exact ⟨[], p, l, f, b, rfl, hu, hbP, hf, give_mem hheld hend⟩
    · obtain ⟨pre, q, post, f, c, rfl, hrest⟩ := ih hb' hbP' (fresh_step hk hgood) h.2 hend
      exact ⟨p :: pre, q, post, f, c, rfl, hrest⟩

/-- what the changes of a status keep is kept for as long as the resource is held -/
theorem held_along {P : β → Prop} {n : ℕ} (hP : ∀ p ∈ l, ∀ f b, use p.1 = .change n f → P b → P (f b))
    (hheld : ∀ p ∈ l, use p.1 ≠ .give n) {b : β} (hb : k.held n = some b) (hPb : P b) (hk : k.Fresh)
    (h : (monitor use settled extra : Monitor η σ ε (Ledger β)).accepts k l) :
    ∃ b', ((monitor use settled extra : Monitor η σ ε (Ledger β)).after k l).held n = some b' ∧ P b' := by
  induction l generalizing k b with
  | nil => exact ⟨b, hb, hPb⟩
  | cons p l ih =>
    rw [List.forall_mem_cons] at hP hheld
    have hgood : k.good settled (use p.1) := h.1.1
    suffices hstep : ∃ c, (k.step (use p.1)).held n = some c ∧ P c by
      obtain ⟨c, hc, hPc⟩ := hstep
      exact ih hP.2 hheld.2 hc hPc (fresh_step hk hgood) h.2
    cases hu : use p.1 with
    | take m c =>
      have hm : m = k.next := by simpa [hu, good] using hgood
      have hlt : ¬ k.next ≤ n := fun hle => by simp [hk n hle] at hb
      exact ⟨b, by rw [step_take, Function.update_of_ne (by omega)]; exact hb, hPb⟩
    | change m f =>
      by_cases hne : n = m
      · subst hne
        exact ⟨f b, by simp [hb], hP.1 f b hu hPb⟩
      · exact ⟨b, by rw [step_change, Function.update_of_ne hne]; exact hb, hPb⟩
    | give m =>
      have hne : n ≠ m := fun e => hheld.1 (by rw [hu, e])
      exact ⟨b, by rw [step_give, Function.update_of_ne hne]; exact hb, hPb⟩
    | pass => exact ⟨b, hb, hPb⟩

/-- a status that `P` holds of at the end, and not from the start, was brought about by a change and has lasted since -/
theorem lasts_since {P : β → Prop} {n : ℕ} (hstart : ∀ b, k.held n = some b → ¬ P b)
    (htake : ∀ p ∈ l, ∀ b, use p.1 = .take n b → ¬ P b) {b : β}
    (hb : ((monitor use settled extra : Monitor η σ ε (Ledger β)).after k l).held n = some b) (hPb : P b) :
    ∃ pre p post f c, l = pre ++ p :: post ∧ use p.1 = .change n f ∧ ¬ P c ∧ P (f c) ∧
      ∀ mid q rest, post = mid ++ q :: rest →
        ∃ c, ((monitor use settled extra : Monitor η σ ε (Ledger β)).after k (pre ++ p :: mid ++ [q])).held n = some c ∧
          P c := by
  induction l using List.reverseRecOn generalizing b with
  | nil => exact absurd hPb (hstart b hb)
  | append_singleton l p ih =>
    have hbefore := fun c hc hPc => ih (fun q hq => htake q (List.mem_append_left _ hq)) (b := c) hc hPc
    set before := (monitor use settled extra : Monitor η σ ε (Ledger β)).after k l with hdef
    have hlast : (monitor use settled extra : Monitor η σ ε (Ledger β)).after k (l ++ [p]) = before.step (use p.1) := by
      rw [Monitor.after_append]
      rfl
    by_cases hlasts : ∃ c, before.held n = some c ∧ P c
    · obtain ⟨c, hc, hPc⟩ := hlasts
      obtain ⟨pre, q, post, f, d, rfl, hq, hd, hfd, hsince⟩ := hbefore c hc hPc
      refine ⟨pre, q, post ++ [p], f, d, by simp, hq, hd, hfd, ?_⟩
      intro mid q' rest hsplit
      rcases List.eq_nil_or_concat rest with rfl | ⟨rest', p', rfl⟩
      · obtain ⟨rfl, hp⟩ := List.append_inj' hsplit rfl
        obtain rfl : p = q' := by simpa using hp
        exact ⟨b, by simpa using hb, hPb⟩
      · have hsplit' : post ++ [p] = (mid ++ q' :: rest') ++ [p'] := by simpa using hsplit
        exact hsince mid q' rest' (List.append_inj' hsplit' rfl).1
    · rw [hlast] at hb
      cases hu : use p.1 with
      | take m c =>
        rw [hu, step_take, Function.update_apply] at hb
        split_ifs at hb with hne
        · subst hne
          exact absurd hPb (Option.some_inj.1 hb ▸ htake p (by simp) c hu)
        · exact absurd ⟨b, hb, hPb⟩ hlasts
      | change m f =>
        rw [hu, step_change, Function.update_apply] at hb
        split_ifs at hb with hne
        · subst hne
          obtain ⟨c, hc, rfl⟩ := Option.map_eq_some_iff.1 hb
          refine ⟨l, p, [], f, c, rfl, hu, fun hPc => hlasts ⟨c, hc, hPc⟩, hPb, ?_⟩
          intro mid q rest hnil
          simp at hnil
        · exact absurd ⟨b, hb, hPb⟩ hlasts
      | give m =>
        rw [hu, step_give, Function.update_apply] at hb
        split_ifs at hb with hne
        exact absurd ⟨b, hb, hPb⟩ hlasts
      | pass =>
        rw [hu] at hb
        exact absurd ⟨b, hb, hPb⟩ hlasts

/-- what is held with a status that no event changed was taken with it -/
theorem taken_with {n : ℕ} (hstart : k.held n = none) (hchange : ∀ p ∈ l, ∀ f, use p.1 ≠ .change n f) {b : β}
    (hb : ((monitor use settled extra : Monitor η σ ε (Ledger β)).after k l).held n = some b) :
    ∃ p ∈ l, use p.1 = .take n b := by
  induction l using List.reverseRecOn generalizing b with
  | nil =>
    rw [Monitor.after_nil, hstart] at hb
    cases hb
  | append_singleton l p ih =>
    rw [List.forall_mem_append] at hchange
    rw [Monitor.after_append] at hb
    have hb : (((monitor use settled extra : Monitor η σ ε (Ledger β)).after k l).step (use p.1)).held n = some b := hb
    have past : ((monitor use settled extra : Monitor η σ ε (Ledger β)).after k l).held n = some b →
        ∃ q ∈ l ++ [p], use q.1 = .take n b := by
      intro hb
      obtain ⟨q, hq, htake⟩ := ih hchange.1 hb
      exact ⟨q, List.mem_append_left _ hq, htake⟩
    cases hu : use p.1 with
    | take m c =>
      rw [hu, step_take, Function.update_apply] at hb
      split_ifs at hb with hne
      · obtain rfl := Option.some_inj.1 hb
        exact ⟨p, by simp, by rw [hu, hne]⟩
      · exact past hb
    | change m f =>
      have hne : n ≠ m := by
        rintro rfl
        exact hchange.2 p (by simp) f hu
      rw [hu, step_change, Function.update_of_ne hne] at hb
      exact past hb
    | give m =>
      rw [hu, step_give, Function.update_apply] at hb
      split_ifs at hb
      exact past hb
    | pass =>
      rw [hu] at hb
      exact past hb

end Balance

end Ledger

end Miqudm.Core
