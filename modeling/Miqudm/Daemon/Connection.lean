/-
A connection of the daemon, as one line.

`handle_client_connection` reads until a line is complete and then handles that line alone (`readLoop_of_line`), or finds
the end of the stream and handles nothing (`readLoop_of_none`); which of the two, and which line, is `readLine` of the
chunks. `Hears ms x` says that a program hands exactly the messages `ms` to `process_message`.
-/
import Miqudm.Common.Framing
import Miqudm.Daemon.Moves

namespace Miqudm

open Miqudm.Core Prog

variable (E : Env)

/-! ## The reads and the line -/

/-- the reads of a connection, one after the other -/
def readAll : List Str → Sys Unit
  | [] => return ()
  | chunk :: chunks => do
    op E (.read chunk) fun s => { s with frame := s.frame.map fun f => f.readChunk chunk }
    readAll chunks

/-- the frame of `handle_client_connection` around what it does with the stream -/
def withFrame (clientFd : ℤ) (x : Sys Unit) : Sys Unit := do
  op E .assign fun s => { s with frame := some { clientFd } }
  x
  op E .assign fun s => { s with frame := none }

theorem readLoop_of_line {line rest : Str} : ∀ (chunks : List Str) {collected : Str} {reads : List Str},
    readLine collected chunks = some (reads, line, rest) →
    readLoop E collected chunks = (do readAll E reads; serveLine E line rest) := by
  intro chunks
  induction chunks with
  | nil => exact fun h => by cases h
  | cons chunk chunks ih =>
    intro collected reads h
    rw [readLine] at h
    by_cases hchunk : chunk = []
    · rw [if_pos hchunk] at h
      cases h
    · rw [if_neg hchunk] at h
      rw [readLoop, if_neg hchunk]
      cases hsplit : splitFirst '\n' (collected ++ cstr chunk) with
      | some p =>
        simp only [hsplit, Option.some.injEq, Prod.mk.injEq] at h
        obtain ⟨rfl, rfl, rfl⟩ := h
        rw [readAll, bind_assoc']
        rfl
      | none =>
        simp only [hsplit, Option.map_eq_some_iff, Prod.mk.injEq] at h
        obtain ⟨⟨reads', p⟩, hr, rfl, rfl⟩ := h
        simp only [ih hr, readAll]
        rw [bind_assoc']

theorem readLoop_of_none : ∀ (chunks : List Str) {collected : Str}, readLine collected chunks = none →
    readLoop E collected chunks = (do readAll E (chunks.takeWhile (· ≠ [])); op E (.read []) id) := by
  intro chunks
  induction chunks with
  | nil => exact fun _ => rfl
  | cons chunk chunks ih =>
    intro collected h
    rw [readLine] at h
    by_cases hchunk : chunk = []
    · rw [readLoop, if_pos hchunk, List.takeWhile_cons_of_neg (by simpa using hchunk)]
      rfl
    · rw [if_neg hchunk] at h
      rw [readLoop, if_neg hchunk, List.takeWhile_cons_of_pos (by simpa using hchunk)]
      cases hsplit : splitFirst '\n' (collected ++ cstr chunk) with
      | some p => simp [hsplit] at h
      | none =>
        simp only [hsplit, Option.map_eq_none_iff] at h
        simp only [ih h, readAll]
        rw [bind_assoc']

/-! ## What is handed to `process_message` -/

def Event.request? : Event → Option IpcMessage
  | .received req => some req
  | _ => none

def requests (es : List Event) : List IpcMessage := es.filterMap Event.request?

def Hears (ms : List IpcMessage) {α : Type} (x : Sys α) : Prop :=
  ∀ s, Sat x s (fun l _ _ => requests (events l) = ms) (fun l _ _ => requests (events l) = ms)

section Hears

variable {E} {α β : Type} {ms : List IpcMessage}

theorem requests_append (es es' : List Event) : requests (es ++ es') = requests es ++ requests es' :=
  List.filterMap_append

theorem hears_halt (e : Halt) : Hears [] (halt e : Sys α) := fun _ => rfl

/-- nothing is heard after the first part -/
theorem hears_then {x : Sys β} {f : β → Sys α} (hx : Hears ms x) (hf : ∀ b, Hears [] (f b)) : Hears ms (x >>= f) := by
  intro s
  apply (sat_bind x f).2
  apply Sat.mono (hx s)
  · intro l b t hl
    have hboth : ∀ l', requests (events l') = [] → requests (events (l ++ l')) = ms := by
      intro l' hl'
      rw [events_append, requests_append, hl, hl', List.append_nil]
    exact Sat.mono (hf b t) (fun l' _ _ => hboth l') (fun l' _ _ => hboth l')
  · exact fun _ _ _ h => h

/-- nothing is heard in the first part, which returns -/
theorem hears_after {x : Sys β} {f : β → Sys α} (hr : Returns x) (hx : Hears [] x) (hf : ∀ b, Hears ms (f b)) :
    Hears ms (x >>= f) := by
  intro s
  apply (sat_bind x f).2
  apply Sat.mono (Sat.and (hx s) (hr s))
  · intro l b t hl
    have hboth : ∀ l', requests (events l') = ms → requests (events (l ++ l')) = ms := by
      intro l' hl'
      rw [events_append, requests_append, hl.1, hl', List.nil_append]
    exact Sat.mono (hf b t) (fun l' _ _ => hboth l') (fun l' _ _ => hboth l')
  · exact fun _ _ _ h => h.2.elim

theorem hears_of_inner {x : Sys α} (h : Follows St.kept (Kept.innerStep E) x) : Hears [] x := by
  have hnone : ∀ {l t} {k : Kept}, Trail St.kept (Kept.innerStep E) k l t → requests (events l) = [] := by
    intro l t k htrail
    have hinner := htrail.forall_event (P := fun e => e.inner = true) fun _ _ _ hstep => hstep.2
    apply List.filterMap_eq_nil_iff.2
    intro e he
    obtain ⟨p, hp, rfl⟩ := List.mem_map.1 he
    have hp := hinner p hp
    cases hevent : p.1 with
    | received req =>
      rw [hevent] at hp
      cases hp
    | _ => rfl
  exact fun s => Sat.mono (h s) (fun _ _ _ => hnone) (fun _ _ _ => hnone)

variable (E)

theorem op_returns (e : Event) (f : St → St) : Returns (op E e f) :=
  fun s => Sat.mono (op_spec E e f s) (fun _ _ _ _ => trivial) fun _ _ _ h => h

/-- an operation hears what its event says -/
theorem hears_op (e : Event) (f : St → St) : Hears (e.request?.toList) (op E e f) := by
  intro s
  apply Sat.mono (op_spec E e f s)
  · intro l _ t h
    obtain ⟨pre, rfl, hpre⟩ := h
    have hnone : requests (events pre) = [] := by
      apply List.filterMap_eq_nil_iff.2
      intro e' he'
      obtain ⟨p, hp, rfl⟩ := List.mem_map.1 he'
      rw [hpre p hp]
      rfl
    rw [events_append, requests_append, hnone]
    cases h : e.request? <;> simp [requests, h]
  · exact fun _ _ _ h => h.elim

theorem readAll_returns : ∀ chunks, Returns (readAll E chunks) := by
  intro chunks
  induction chunks with
  | nil => exact returns_pure ()
  | cons chunk chunks ih => exact returns_bind (op_returns E _ _) fun _ => ih

theorem readAll_hears : ∀ chunks, Hears [] (readAll E chunks) := by
  intro chunks
  induction chunks with
  | nil => exact fun _ => rfl
  | cons chunk chunks ih => exact hears_then (hears_op E (.read chunk) _) fun _ => ih

/-- the message a line decodes to, if it does -/
def decoded (line : Str) : List IpcMessage := (deserialize E.json line).toOption.toList

theorem serveLine_hears (line rest : Str) : Hears (decoded E line) (serveLine E line rest) := by
  apply hears_after (op_returns E _ _) (hears_op E .assign _)
  intro _
  cases hline : deserialize E.json line with
  | error what =>
    have hnone : decoded E line = [] := by rw [decoded, hline]; rfl
    rw [hnone]
    exact hears_halt _
  | ok req =>
    have hone : decoded E line = [req] := by rw [decoded, hline]; rfl
    rw [hone]
    apply hears_then (hears_op E (.received req) _)
    intro _
    exact hears_then (hears_of_inner (processMessage_inner E req)) fun _ => hears_op E .served _

theorem withFrame_hears {x : Sys Unit} (hx : Hears ms x) (fd : ℤ) : Hears ms (withFrame E fd x) :=
  hears_after (op_returns E _ _) (hears_op E .assign _) fun _ => hears_then hx fun _ => hears_op E .assign _

end Hears

/-- **A connection whose stream has a line.** Reads, and then that line alone. -/
theorem connection_of_line {chunks reads : List Str} {line rest : Str}
    (h : readLine [] chunks = some (reads, line, rest)) (fd : ℤ) :
    handleClientConnection E fd chunks = withFrame E fd (do readAll E reads; serveLine E line rest) ∧
      Hears (decoded E line) (handleClientConnection E fd chunks) := by
  have heq : handleClientConnection E fd chunks = withFrame E fd (do readAll E reads; serveLine E line rest) := by
    rw [handleClientConnection, readLoop_of_line E chunks h]
    rfl
  refine ⟨heq, ?_⟩
  rw [heq]
  exact withFrame_hears E (hears_after (readAll_returns E _) (readAll_hears E _) fun _ => serveLine_hears E line rest) fd

/-- **A connection whose stream has none.** Reads, and nothing else. -/
theorem connection_of_none {chunks : List Str} (h : readLine [] chunks = none) (fd : ℤ) :
    handleClientConnection E fd chunks =
        withFrame E fd (do readAll E (chunks.takeWhile (· ≠ [])); op E (.read []) id) ∧
      Hears [] (handleClientConnection E fd chunks) := by
  have heq : handleClientConnection E fd chunks =
      withFrame E fd (do readAll E (chunks.takeWhile (· ≠ [])); op E (.read []) id) := by
    rw [handleClientConnection, readLoop_of_none E chunks h]
    rfl
  refine ⟨heq, ?_⟩
  rw [heq]
  exact withFrame_hears E (hears_then (readAll_hears E _) fun _ => hears_op E (.read []) _) fd

end Miqudm
