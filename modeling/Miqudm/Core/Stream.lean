/-
Buffered output to a device that may stop taking data.

A device takes what is written to it until its room is used up; a write that does not fit is taken as far as it fits,
and fails. A stream in front of it keeps back what it likes: at each insertion some amount of the pending and the new
data is written. A write that fails makes the stream bad, and then it takes no more insertions. What is still pending is
written when the stream is closed.

`close_insertAll`: whatever the amounts, in the end the device has taken as much of all the data as it has room for, and
the stream knows whether that is all of it.
-/
import Mathlib.Tactic.Common
import Mathlib.Data.List.Basic

namespace Miqudm.Core

structure Device (α : Type) where
  /-- how much it takes in all (`none`: any amount) -/
  room : Option ℕ
  taken : List α := []
deriving DecidableEq, Repr

structure Stream (α : Type) where
  device : Device α
  pending : List α := []
  bad : Bool := false
deriving DecidableEq, Repr

variable {α : Type}

/-- as much of the data as there is room for -/
def cut (room : Option ℕ) (data : List α) : List α :=
  match room with
  | none => data
  | some n => data.take n

def Fits (room : Option ℕ) (data : List α) : Prop := ∀ n, room = some n → data.length ≤ n

instance (room : Option ℕ) (data : List α) : Decidable (Fits room data) :=
  match room with
  | none => isTrue fun _ h => by cases h
  | some n => decidable_of_iff (data.length ≤ n) ⟨fun h _ hn => Option.some_inj.1 hn ▸ h, fun h => h n rfl⟩

theorem cut_of_fits {room : Option ℕ} {data : List α} (h : Fits room data) : cut room data = data := by
  cases room with
  | none => rfl
  | some n => exact List.take_of_length_le (h n rfl)

theorem fits_of_cut {room : Option ℕ} {data : List α} (h : cut room data = data) : Fits room data := by
  rintro n rfl
  rw [← h]
  exact List.length_take_le n data

theorem exists_of_not_fits {room : Option ℕ} {data : List α} (h : ¬ Fits room data) :
    ∃ n, room = some n ∧ n < data.length := by
  cases room with
  | none => exact absurd (fun _ hn => by cases hn) h
  | some n =>
    refine ⟨n, rfl, ?_⟩
    by_contra hshort
    exact h fun m hm => Option.some_inj.1 hm ▸ Nat.le_of_not_lt hshort

/-- once the room is used up, more data makes no difference -/
theorem cut_append {room : Option ℕ} {data : List α} (h : ¬ Fits room data) (more : List α) :
    cut room (data ++ more) = cut room data ∧ ¬ Fits room (data ++ more) := by
  obtain ⟨n, rfl, hlong⟩ := exists_of_not_fits h
  constructor
  · exact List.take_append_of_le_length (Nat.le_of_lt hlong)
  · intro hfits
    have hall := hfits n rfl
    rw [List.length_append] at hall
    omega

theorem cut_cut_append {room : Option ℕ} {data : List α} (h : ¬ Fits room data) (more : List α) :
    cut room (cut room data ++ more) = cut room data := by
  obtain ⟨n, rfl, hlong⟩ := exists_of_not_fits h
  have hused : (data.take n).length = n := by
    rw [List.length_take]
    omega
  exact List.take_left' hused

/-! ## The device -/

/-- one write: did all of it fit? -/
def Device.write (d : Device α) (data : List α) : Bool × Device α :=
  (decide (Fits d.room (d.taken ++ data)), { d with taken := cut d.room (d.taken ++ data) })

/-! ## The stream -/

namespace Stream

/-- `<<`, which writes the first `n` of what is pending then -/
def insert (n : ℕ) (s : Stream α) (data : List α) : Stream α :=
  if s.bad then s
  else
    let all := s.pending ++ data
    let (ok, device) := s.device.write (all.take n)
    if ok then { device, pending := all.drop n } else { device, pending := all, bad := true }

/-- insertions with the amounts written at each of them -/
def insertAll (amounts : ℕ → ℕ) (s : Stream α) : List (List α) → Stream α
  | [] => s
  | data :: pieces => insertAll (fun i => amounts (i + 1)) (s.insert (amounts 0) data) pieces

/-- write what is pending: has everything been written? -/
def close (s : Stream α) : Bool × Device α :=
  let (ok, device) := s.device.write s.pending
  (ok && !s.bad, device)

/-- where a stream stands when `text` has been inserted into it -/
structure Carries (room : Option ℕ) (s : Stream α) (text : List α) : Prop where
  limit : s.device.room = room
  good : s.bad = false → s.device.taken ++ s.pending = text ∧ Fits room s.device.taken
  bad : s.bad = true → s.device.taken = cut room text ∧ ¬ Fits room text

variable {room : Option ℕ} {s : Stream α} {text : List α}

theorem carries_new (room : Option ℕ) : Carries room ({ device := { room } } : Stream α) [] where
  limit := rfl
  good _ := ⟨rfl, fun _ _ => Nat.zero_le _⟩
  bad h := by cases h

/-- **One insertion.** -/
theorem Carries.insert (h : Carries room s text) (n : ℕ) (data : List α) :
    Carries room (s.insert n data) (text ++ data) := by
  unfold Stream.insert
  cases hbad : s.bad with
  | true =>
    rw [if_pos rfl]
    obtain ⟨htaken, hfull⟩ := h.bad hbad
    obtain ⟨hsame, hstill⟩ := cut_append hfull data
    refine ⟨h.limit, fun hgood => ?_, fun _ => ⟨htaken.trans hsame.symm, hstill⟩⟩
    rw [hbad] at hgood
    cases hgood
  | false =>
    obtain ⟨hall, hfits⟩ := h.good hbad
    rw [if_neg Bool.false_ne_true]
    simp only [Device.write, h.limit]
    have hsplit : s.device.taken ++ (s.pending ++ data).take n ++ (s.pending ++ data).drop n = text ++ data := by
      rw [List.append_assoc, List.take_append_drop, ← List.append_assoc, hall]
    by_cases hnext : Fits room (s.device.taken ++ (s.pending ++ data).take n)
    · rw [if_pos (decide_eq_true hnext)]
      refine ⟨rfl, fun _ => ?_, Bool.noConfusion⟩
      rw [cut_of_fits hnext]
      exact ⟨hsplit, hnext⟩
    · -- the write fails: what it took is all there is room for
      rw [if_neg (by simpa using hnext)]
      refine ⟨rfl, Bool.noConfusion, fun _ => ?_⟩
      obtain ⟨hcut, hfull⟩ := cut_append hnext ((s.pending ++ data).drop n)
      rw [hsplit] at hcut hfull
      exact ⟨hcut.symm, hfull⟩

theorem Carries.insertAll (pieces : List (List α)) : ∀ (amounts : ℕ → ℕ) {s : Stream α} {text : List α},
    Carries room s text → Carries room (s.insertAll amounts pieces) (text ++ pieces.flatten) := by
  induction pieces with
  | nil =>
    intro amounts s text h
    rw [List.flatten_nil, List.append_nil]
    exact h
  | cons data pieces ih =>
    intro amounts s text h
    rw [List.flatten_cons, ← List.append_assoc]
    exact ih _ (h.insert _ _)

theorem Carries.close (h : Carries room s text) : s.close = (decide (Fits room text), ⟨room, cut room text⟩) := by
  simp only [Stream.close, Device.write, h.limit]
  cases hbad : s.bad with
  | false =>
    obtain ⟨hall, -⟩ := h.good hbad
    simp [hall]
  | true =>
    obtain ⟨htaken, hfull⟩ := h.bad hbad
    simp [htaken, cut_cut_append hfull, hfull]

/-- **Whatever the amounts.** -/
theorem close_insertAll (amounts : ℕ → ℕ) (room : Option ℕ) (pieces : List (List α)) :
    (({ device := { room } } : Stream α).insertAll amounts pieces).close =
      (decide (Fits room pieces.flatten), ⟨room, cut room pieces.flatten⟩) :=
  ((carries_new room).insertAll pieces amounts).close

end Stream

end Miqudm.Core
