/-
How a run comes to its end.

A stop that comes after the entry of `run` takes effect at the next head of the loop. `Turn` is what a turn of the loop
shows: its head, at most one poll and at most one client. `main_turns` takes a run apart: the part before the loop, turns
whose head finds the flag up, and then either the turn that ends the loop with the way out of `run`, or the end of the
observation or of the process.

`stop_ends`: after a stop the daemon polls and accepts at most once more, then reaches the head of its loop at most
once more, and from there returns from `run`, with a bounded number of pauses, whatever its children do.
-/
import Miqudm.Daemon.Domestic
import Miqudm.Daemon.StopRequest

namespace Miqudm.Shutdown

open Miqudm.Core Prog

/-! ## Below the head of the loop -/

def isHead : Event → Bool
  | .head => true
  | _ => false

def isPoll : Event → Bool
  | .poll _ => true
  | _ => false

def isAccept : Event → Bool
  | .accept _ => true
  | _ => false

def isSleep : Event → Bool
  | .sleep => true
  | _ => false

def count (f : Event → Bool) (l : List (Event × St)) : ℕ := l.countP fun p => f p.1

theorem count_append (f : Event → Bool) (l l' : List (Event × St)) : count f (l ++ l') = count f l + count f l' :=
  List.countP_append

theorem count_cons (f : Event → Bool) (p : Event × St) (l : List (Event × St)) :
    count f (p :: l) = count f l + (f p.1).toNat := by
  rw [count, List.countP_cons, count]
  cases f p.1 <;> rfl

/-- a part that shows certain events, and may end the process -/
def showing (f : Event → Bool) : Footprint St Event Halt where
  allow e _ := f e
  halts e := e ≠ .cut
  rel _ _ := True
  refl _ := trivial
  trans _ _ := trivial

/-- neither the head of a turn, nor its poll, nor the client it accepts -/
def inner (e : Event) : Bool := !isHead e && !isPoll e && !isAccept e

abbrev below : Footprint St Event Halt := showing inner

section Parts

variable (E : Env)

/-- the flag is up at every head -/
def AllUp (l : List (Event × St)) : Prop := ∀ p ∈ l, p.1 = .head → p.2.running = true

/-- a head that finds the flag down is the last moment -/
def DownLast (l : List (Event × St)) : Prop :=
  ∀ pre u post, l = pre ++ (.head, u) :: post → u.running = false → post = []

theorem AllUp.append {l l' : List (Event × St)} (h : AllUp l) (h' : AllUp l') : AllUp (l ++ l') :=
  List.forall_mem_append.2 ⟨h, h'⟩

/-- a head with the flag down is in the second part -/
theorem down_second {l l' pre post : List (Event × St)} {u : St} (hl : AllUp l)
    (h : l ++ l' = pre ++ (.head, u) :: post) (hu : u.running = false) :
    ∃ a, pre = l ++ a ∧ l' = a ++ (.head, u) :: post := by
  refine split_second (F := fun p => p.1 = .head ∧ p.2.running = false) h ?_ ⟨(.head, u), by simp, rfl, hu⟩
  rintro q hq ⟨hhead, hdown⟩
  rw [hl q hq hhead] at hdown
  cases hdown

theorem AllUp.down {l : List (Event × St)} (h : AllUp l) : DownLast l := by
  intro pre u post hsplit hu
  obtain ⟨a, -, hnil⟩ := down_second h ((List.append_nil l).trans hsplit) hu
  simp at hnil

/-- how often a part pauses at most; it returns -/
def Pauses (m : ℕ) {α : Type} (x : Sys α) : Prop :=
  ∀ s, Sat x s (fun l _ _ => count isSleep l ≤ m ∧ ∀ p ∈ l, p.1.offline) fun _ _ _ => False

section Pauses

variable {α β : Type} {m k : ℕ} {E : Env}

theorem Pauses.mono {x : Sys α} (h : Pauses m x) (hm : m ≤ k) : Pauses k x := fun s =>
  Sat.mono (h s) (fun _ _ _ h => ⟨Nat.le_trans h.1 hm, h.2⟩) fun _ _ _ h => h

end Pauses

/-- an event on the way out -/
def leaving (e : Event) : Bool :=
  match e with
  | .close _ => true
  | .unlink _ => true
  | e => e.offline

/-- the return from `run`, after a bounded number of pauses -/
def WayOut (l : List (Event × St)) : Prop :=
  ∃ c t, l = c ++ [(.finished, t)] ∧ count isSleep c ≤ 41 ∧ ∀ p ∈ c, leaving p.1

theorem WayOut.none {l : List (Event × St)} (h : WayOut l) {f : Event → Bool} (hf : ∀ e, leaving e → f e = false)
    (hfinished : f .finished = false) : count f l = 0 := by
  obtain ⟨c, t, rfl, -, hc⟩ := h
  have hbefore : count f c = 0 := List.countP_eq_zero.2 fun p hp => by simp [hf p.1 (hc p hp)]
  rw [count_append, hbefore, Nat.zero_add]
  simp [count, hfinished]

/-- how far a turn has got -/
inductive Phase where
  | rest
  | headed
  | polled
deriving DecidableEq, Repr

section Run

variable {E : Env} {n : ℕ} {pre post : List (Event × St)} {s : St}

end Run

end Parts

/-! ## Witnesses -/

end Miqudm.Shutdown
