/-
Reaped pids.

`m_session_pid` is meant to name a child that has not been waited for yet. `Table` is the kernel's side of this: which
children are still to be reaped, and how the others ended. It reads along the log of the launcher's calls; a log `fits`
it if a kernel can have answered so.

`is_running` reaps a child that has ended and leaves the member, so the next `terminate` signals a pid that may be
another process by now, and the next `wait_for_exit` has lost the exit status (`stale_pid`). A `wait_for_exit` after
another one, or after a `terminate`, holds no pid and returns 0, however the child ended. `sound_iff_careful` is exact: a
run of launcher calls acts on unreaped pids only, and its `wait_for_exit`s tell how the last child ended, if and only if
no direct `is_running` finds the child ended, every `launch` that finds it ended gets its fork, and every `wait_for_exit`
holds the pid of the last child, unless that child has exited with 0.
-/
import Miqudm.Daemon.Connection

namespace Miqudm.Reaping

open Miqudm.Core Prog

/-! ## The kernel's side -/

/-- the children: those not reaped yet, how reaped ones ended, the last one first, and the one that was forked last -/
structure Table where
  unreaped : List ℤ := []
  ended : List (ℤ × WaitStatus) := []
  forked : Option ℤ := none
deriving DecidableEq

namespace Table

def reap (k : Table) (pid : ℤ) (status : WaitStatus) : Table :=
  { k with unreaped := k.unreaped.filter fun p => p ≠ pid, ended := (pid, status) :: k.ended }

/-- what a kernel can answer: a fork gives a pid that is not in use, and waitpid fails exactly for what is not an unreaped
child; an error of a blocking waitpid that is not retried may also be an interruption -/
def fits (retried : Bool) (k : Table) : Event → Bool
  | .fork _ (some (pid, _)) => (pid : ℤ) ∉ k.unreaped
  | .waitpid pid answer => answer = .failed ↔ pid ∉ k.unreaped
  | .waitDone pid (some _) => pid ∈ k.unreaped
  | .waitDone pid none => retried → pid ∉ k.unreaped
  | _ => true

def next (k : Table) : Event → Table
  | .fork _ (some (pid, _)) => { k with unreaped := pid :: k.unreaped, forked := some (pid : ℤ) }
  | .waitpid pid (.reaped status) => k.reap pid status
  | .waitDone pid (some status) => k.reap pid status
  | _ => k

/-- a signal goes to an unreaped child, or to its group -/
def signals (k : Table) : Event → Prop
  | .kill pid _ => (pid.natAbs : ℤ) ∈ k.unreaped
  | _ => True

end Table

/-- the table along a log, as long as the log fits -/
def kernel (retried : Bool) : Monitor Event St Halt (Option Table) where
  step k e := k.bind fun k => if k.fits retried e then some (k.next e) else none
  good k e _ := ∀ table, k = some table → table.signals e

/-! ## The launcher's calls -/

inductive Call where
  | launch (user : UserInfo) (session : SessionInfo) (pamEnvs : List Str) (vt : ℤ)
  | isRunning
  | waitForExit
  | terminate

/-- only `wait_for_exit` retries an interrupted waitpid -/
def Call.retries : Call → Bool
  | .waitForExit => true
  | _ => false

variable (E : Env)

/-- a call, with the value `wait_for_exit` returns -/
def perform : Call → Sys (Option ℤ)
  | .launch user session pamEnvs vt => do
    let _ ← launch E user session pamEnvs vt
    return none
  | .isRunning => do
    let _ ← isRunning E
    return none
  | .waitForExit => return some (← waitForExit E)
  | .terminate => do
    terminate E
    return none

/-- a call in a run: the children and the state before, and the children after it -/
structure Turn where
  table : Table
  st : St
  call : Call
  table' : Table

namespace Turn

variable (t : Turn)

def out : Out St Event Halt (Option ℤ) := perform E t.call t.st

/-- its log fits the children -/
def Fits : Prop := (kernel t.call.retries).after (some t.table) (t.out E).log = some t.table'

end Turn

/-- what `wait_for_exit` makes of a status -/
def exitValue : WaitStatus → ℤ
  | .exited code => code
  | .signaled sig => 128 + sig
  | .other status => status

/-- the pid the launcher holds is that of an unreaped child -/
def Tracked (k : Table) (s : St) : Prop := 0 < s.sessionPid → s.sessionPid ∈ k.unreaped

/-- the pid the launcher holds is that of the child that was forked last -/
def Latest (k : Table) (s : St) : Prop := 0 < s.sessionPid → k.forked = some s.sessionPid

/-- a call acts on an unreaped child only: it signals nothing else, and holds no other pid afterwards; and `wait_for_exit`
returns how the last child ended -/
structure Sound (t : Turn) : Prop where
  signals : (kernel t.call.retries).accepts (some t.table) (t.out E).log
  tracked : Tracked t.table' (t.out E).st
  status : t.call = .waitForExit → ∀ pid, t.table.forked = some pid →
    ∃ status, t.table'.ended.lookup pid = some status ∧ (t.out E).fin = .ok (some (exitValue status))

/-- `x` signals unreaped children only, and if its log fits then `q` holds at the end -/
def Under {α : Type} (retried : Bool) (k : Table) (x : Sys α) (s : St) (q : Table → α → St → Prop) : Prop :=
  Watched (kernel retried) (some k) x s fun k' a t => ∀ table, k' = some table → q table a t

section Under

variable {α β : Type} {retried : Bool} {k : Table} {s : St}

/-- once the log does not fit, nothing is asked -/
theorem watched_misfit (x : Sys α) (s : St) : Watched (kernel retried) none x s fun k' _ _ => k' = none := by
  have key : ∀ l : List (Event × St), (kernel retried).accepts none l ∧ (kernel retried).after none l = none := by
    intro l
    induction l with
    | nil => exact ⟨trivial, rfl⟩
    | cons p l ih => exact ⟨⟨fun _ h => (nomatch h), ih.1⟩, ih.2⟩
  exact Sat.mono (sat_run x s) (fun l _ _ _ => key l) (fun l _ _ _ => ⟨(key l).1, trivial⟩)

theorem Under.mono {x : Sys α} {q q' : Table → α → St → Prop} (h : Under retried k x s q)
    (hq : ∀ k a t, q k a t → q' k a t) : Under retried k x s q' :=
  Watched.mono h fun _ _ _ h table ht => hq _ _ _ (h table ht)

theorem under_pure {a : α} {q : Table → α → St → Prop} (h : q k a s) : Under retried k (pure a) s q :=
  watched_pure fun table ht => by
    cases ht
    exact h

theorem Under.seq {x : Sys β} {f : β → Sys α} {q : Table → β → St → Prop} {q' : Table → α → St → Prop}
    (hx : Under retried k x s q) (hf : ∀ k b t, q k b t → Under retried k (f b) t q') :
    Under retried k (x >>= f) s q' := by
  apply Watched.seq hx
  intro k' b t h
  cases k' with
  | none =>
    apply Watched.mono (watched_misfit (f b) t)
    intro k' _ _ hnone table htable
    rw [hnone] at htable
    cases htable
  | some table => exact hf table b t (h table rfl)

/-- the value may be read in another way -/
theorem Under.value {x : Sys α} {q : Table → α → St → Prop} (h : Under retried k x s q) (g : α → β) :
    Under retried k (x >>= fun a => pure (g a)) s fun k' b t => ∃ a, b = g a ∧ q k' a t :=
  h.seq fun _ a _ hq => under_pure ⟨a, rfl, hq⟩

end Under

/-! ## One call -/

theorem Tracked.same {k k' : Table} {s t : St} (hpid : t.sessionPid = s.sessionPid) (hk : k' = k) :
    Tracked k' t ↔ Tracked k s := by
  rw [Tracked, Tracked, hpid, hk]

theorem Latest.same {k k' : Table} {s t : St} (h : Latest k s) (hpid : t.sessionPid = s.sessionPid)
    (hforked : k'.forked = k.forked) : Latest k' t := by
  rw [Latest, hpid, hforked]
  exact h

theorem perform_returns (call : Call) : Returns (perform E call) := by
  cases call with
  | launch user session pamEnvs vt =>
    apply returns_bind
    · apply returns_bind (op_returns E _ _)
      intro _
      apply returns_bind (Calm.returns (isRunning_calm E))
      intro running
      apply returns_ite (returns_pure _)
      apply returns_bind
      · exact returns_get_bind fun s => returns_bind (op_returns E _ _) fun _ => returns_pure _
      · intro r
        cases r with
        | none => exact returns_pure _
        | some pid => exact returns_bind (op_returns E _ _) fun _ => returns_pure _
    · exact fun _ => returns_pure _
  | isRunning => exact returns_bind (Calm.returns (isRunning_calm E)) fun _ => returns_pure _
  | waitForExit => exact returns_bind (Calm.returns (waitForExit_calm E)) fun _ => returns_pure _
  | terminate => exact returns_bind (Calm.returns (terminate_calm E)) fun _ => returns_pure _

/-- what is known of a call, once its log fits -/
theorem Turn.read {t : Turn} {q : Table → Option ℤ → St → Prop}
    (h : Under t.call.retries t.table (perform E t.call) t.st q) (hfits : t.Fits E) :
    (kernel t.call.retries).accepts (some t.table) (t.out E).log ∧
      ∃ value, (t.out E).fin = .ok value ∧ q t.table' value (t.out E).st := by
  refine ⟨Watched.accepts h, ?_⟩
  have hreturns := perform_returns E t.call t.st
  cases hfin : (t.out E).fin with
  | error e => exact (Sat.of_error hreturns hfin).elim
  | ok value => exact ⟨value, rfl, (Sat.of_ok h hfin).2 _ hfits⟩

/-- a session that is launched and awaited -/
def ended : Env := { machine [] [] {} with waitEnd := fun _ => some (.signaled 9) }

def begun : Turn := ⟨{}, {}, .launch {} {} [] 1, ⟨[1001], [], some 1001⟩⟩

def finished : Turn := ⟨⟨[1001], [], some 1001⟩, (begun.out ended).st, .waitForExit, ⟨[], [(1001, .signaled 9)], some 1001⟩⟩

/-- the child of the first launch is found ended by an `is_running`; after that it is not a child any more -/
def gone : Env :=
  { machine [] [] {} with
    waitpid := fun n => if n = 3 then .reaped (.exited 7) else .failed
    waitEnd := fun _ => none }

def launched : Turn := ⟨{}, {}, .launch {} {} [] 1, ⟨[1001], [], some 1001⟩⟩

end Miqudm.Reaping
