/-
The connection to logind (`src/daemon/logind.cpp`).

sd-bus hands out references to the system bus, replies and errors, each under a fresh number, and each of them is to be
released. `LogindManager` has one member, `m_bus`, and its methods are programs on it. `lifetime` is what the one object
of a process goes through: methods in any order, and the destructor.

- `released_once`: whatever is taken from sd-bus is released exactly once;
- `calls_on_bus`: a call is made on the reference that was opened last and not released since, and another one is opened
  only after a release;
- `calls_requested`: of what the daemon does in a run, logind sees the power actions that clients asked for, in their
  order, and as many are reported as done as logind has replied to.
-/
import Miqudm.Core.Ledger
import Miqudm.Core.Tenancy
import Miqudm.Daemon.Service

namespace Miqudm.Logind

open Miqudm.Core Prog

/-! ## sd-bus -/

/-- what sd-bus hands out -/
inductive Thing where
  | bus
  | reply
  | error
deriving DecidableEq, Repr

inductive BusArg where
  | bool (b : Bool)
  | uint (n : UInt32)
deriving DecidableEq, Repr

structure BusCall where
  destination : Str
  path : Str
  interface : Str
  method : Str
  arg : BusArg
deriving DecidableEq, Repr

/-- what `sd_bus_default_system` and `sd_bus_call_method` return at an instant -/
structure BusEnv where
  openBus : ℕ → ℤ
  callMethod : ℕ → ℤ

/-- the member `m_bus`, and the next number sd-bus gives out -/
structure BusSt where
  now : ℕ := 0
  next : ℕ := 0
  bus : Option ℕ := none
deriving DecidableEq, Repr

inductive BusEvent where
  | opened (ret : ℤ) (bus : Option ℕ)
  | called (bus : Option ℕ) (call : BusCall)
  /-- the call returns, with a reply or an error -/
  | returned (ret : ℤ) (what : Thing) (n : ℕ)
  | released (what : Thing) (n : ℕ)
deriving DecidableEq, Repr

abbrev BusM (α : Type) : Type := Prog BusSt BusEvent Empty α

def BusSt.tick (s : BusSt) : BusSt := { s with now := s.now + 1 }

/-- something is handed out -/
def BusSt.hand (s : BusSt) : BusSt := { s with now := s.now + 1, next := s.next + 1 }

variable (B : BusEnv)

/-! ## LogindManager -/

/-- `LogindManager::init` -/
def init : BusM Bool := do
  let s ← Prog.get
  if s.bus.isSome then return true
  else
    let ret := B.openBus s.now
    if ret < 0 then
      Prog.act (.opened ret none) fun s => { s.tick with bus := none }
      return false
    else
      Prog.act (.opened ret (some s.next)) fun s => { s.hand with bus := some s.next }
      return true

/-- `LogindManager::shutdown` -/
def shutdown : BusM Unit := do
  match (← Prog.get).bus with
  | some b => Prog.act (.released .bus b) fun s => { s.tick with bus := none }
  | none => return ()

/-- a method call: the error or the reply is released before it returns -/
def callMethod (call : BusCall) : BusM Bool := do
  if ¬ (← init B) then return false
  else
    Prog.act (.called (← Prog.get).bus call) BusSt.tick
    let s ← Prog.get
    let ret := B.callMethod s.now
    if ret < 0 then
      Prog.act (.returned ret .error s.next) BusSt.hand
      Prog.act (.released .error s.next) BusSt.tick
      return false
    else
      Prog.act (.returned ret .reply s.next) BusSt.hand
      Prog.act (.released .reply s.next) BusSt.tick
      return true

def managerCall (method : Str) (interactive : Bool) : BusCall where
  destination := lit "org.freedesktop.login1"
  path := lit "/org/freedesktop/login1"
  interface := lit "org.freedesktop.login1.Manager"
  method := method
  arg := .bool interactive

/-- `LogindManager::call_manager_method` -/
def callManagerMethod (method : Str) (interactive : Bool) : BusM Bool := callMethod B (managerCall method interactive)

def powerOff (interactive : Bool) : BusM Bool := callManagerMethod B (lit "PowerOff") interactive

def reboot (interactive : Bool) : BusM Bool := callManagerMethod B (lit "Reboot") interactive

def suspend (interactive : Bool) : BusM Bool := callManagerMethod B (lit "Suspend") interactive

def hibernate (interactive : Bool) : BusM Bool := callManagerMethod B (lit "Hibernate") interactive

/-- `LogindManager::switch_to_vt` -/
def switchToVt (vtNumber : UInt32) : BusM Bool := callMethod B {
  destination := lit "org.freedesktop.login1"
  path := lit "/org/freedesktop/login1/seat/seat0"
  interface := lit "org.freedesktop.login1.Seat"
  method := lit "SwitchTo"
  arg := .uint vtNumber }

inductive Method where
  | init
  | shutdown
  | powerOff (interactive : Bool)
  | reboot (interactive : Bool)
  | suspend (interactive : Bool)
  | hibernate (interactive : Bool)
  | switchToVt (vtNumber : UInt32)
deriving DecidableEq, Repr

def perform : Method → BusM Bool
  | .init => init B
  | .shutdown => do
    shutdown
    return true
  | .powerOff interactive => powerOff B interactive
  | .reboot interactive => reboot B interactive
  | .suspend interactive => suspend B interactive
  | .hibernate interactive => hibernate B interactive
  | .switchToVt vtNumber => switchToVt B vtNumber

def performAll : List Method → BusM (List Bool)
  | [] => return []
  | m :: ms => do
    let ok ← perform B m
    let oks ← performAll ms
    return ok :: oks

/-- the methods that are called on the object, and its destructor -/
def lifetime (ms : List Method) : BusM (List Bool) := do
  let oks ← performAll B ms
  shutdown
  return oks

/-- a method that makes no call, or that makes this one -/
theorem perform_cases (m : Method) : m = .init ∨ m = .shutdown ∨ ∃ call, perform B m = callMethod B call := by
  cases m with
  | init => exact Or.inl rfl
  | shutdown => exact Or.inr (Or.inl rfl)
  | _ => exact Or.inr (Or.inr ⟨_, rfl⟩)

/-! ## One reference to the bus -/

/-- the bus as a place for one tenant -/
def BusEvent.deed : BusEvent → Deed ℕ
  | .opened _ (some b) => .enter b
  | .called bus _ => .meet (fun b => bus = some b) some
  | .released .bus n => .meet (· = n) fun _ => none
  | _ => .pass

abbrev oneBus : Monitor BusEvent BusSt Empty (Option ℕ) := Tenancy.monitor BusEvent.deed

section OneBus

variable {s : BusSt}

theorem init_oneBus : Watched oneBus s.bus (init B) s fun k ok t => k = t.bus ∧ (ok = true → t.bus.isSome) := by
  refine watched_bind (watched_get (watched_ite (fun hbus => watched_pure ⟨rfl, fun _ => hbus⟩) fun hbus => ?_))
  have hnone : s.bus = none := Option.not_isSome_iff_eq_none.1 hbus
  refine watched_ite (fun _ => ?_) fun _ => ?_
  · exact watched_bind (watched_act trivial (watched_pure ⟨hnone, fun h => by cases h⟩))
  · exact watched_bind (watched_act hnone (watched_pure ⟨rfl, fun _ => rfl⟩))

theorem shutdown_oneBus : Watched oneBus s.bus shutdown s fun k _ t => k = t.bus ∧ t.bus = none := by
  refine watched_bind (watched_get ?_)
  split
  · rename_i b hbus
    rw [hbus]
    exact watched_act ⟨b, rfl, rfl⟩ ⟨rfl, rfl⟩
  · rename_i hbus
    exact watched_pure ⟨rfl, hbus⟩

theorem callMethod_oneBus (call : BusCall) : Watched oneBus s.bus (callMethod B call) s fun k _ t => k = t.bus := by
  apply Watched.seq (init_oneBus B)
  rintro k ok t ⟨rfl, hok⟩
  refine watched_ite (fun _ => watched_pure rfl) fun hinit => ?_
  obtain ⟨b, hb⟩ := Option.isSome_iff_exists.1 (hok (not_not.1 hinit))
  have hsame : Tenancy.step t.bus (BusEvent.deed (.called t.bus call)) = t.bus := by
    rw [hb]
    rfl
  refine watched_bind (watched_get (watched_bind (watched_act ⟨b, hb, hb⟩ ?_)))
  show Watched oneBus (Tenancy.step t.bus (BusEvent.deed (.called t.bus call))) _ t.tick _
  rw [hsame]
  refine watched_bind (watched_get (watched_ite (fun _ => ?_) fun _ => ?_))
  · exact watched_bind (watched_act trivial (watched_bind (watched_act trivial (watched_pure rfl))))
  · exact watched_bind (watched_act trivial (watched_bind (watched_act trivial (watched_pure rfl))))

theorem perform_oneBus (m : Method) : Watched oneBus s.bus (perform B m) s fun k _ t => k = t.bus := by
  rcases perform_cases B m with rfl | rfl | ⟨call, hcall⟩
  · exact Watched.mono (init_oneBus B) fun _ _ _ h => h.1
  · exact Watched.seq shutdown_oneBus fun _ _ _ h => watched_pure h.1
  · rw [hcall]
    exact callMethod_oneBus B call

theorem performAll_oneBus (ms : List Method) :
    ∀ {s}, Watched oneBus s.bus (performAll B ms) s fun k _ t => k = t.bus := by
  induction ms with
  | nil => exact watched_pure rfl
  | cons m ms ih =>
    intro s
    apply Watched.seq (perform_oneBus B m)
    rintro k ok t rfl
    exact Watched.seq ih fun _ _ _ h => watched_pure h

theorem lifetime_oneBus (ms : List Method) : oneBus.accepts none (lifetime B ms {}).log := by
  apply Watched.accepts (q := fun _ _ _ => True)
  apply Watched.seq (performAll_oneBus B ms (s := {}))
  rintro k oks t rfl
  exact Watched.seq shutdown_oneBus fun _ _ _ _ => watched_pure trivial

end OneBus

/-! ## Whatever is taken is released -/

def BusEvent.use : BusEvent → Use Thing
  | .opened _ (some b) => .take b .bus
  | .opened _ none => .pass
  | .called _ _ => .pass
  | .returned _ what n => .take n what
  | .released _ n => .give n

/-- the books of sd-bus, in which a thing is released by the function for its kind -/
def custody : Monitor BusEvent BusSt Empty (Ledger Thing) where
  step k e := k.step e.use
  good k e _ := k.good (fun _ => True) e.use ∧ ∀ what n, e = .released what n → k.held n = some what

/-- nothing is held but the bus -/
structure Owned (k : Ledger Thing) (s : BusSt) : Prop where
  next : k.next = s.next
  held : k.held = fun n => if s.bus = some n then some .bus else none
  below : ∀ b, s.bus = some b → b < s.next

section Custody

variable {k : Ledger Thing} {s : BusSt}

theorem Owned.fresh (h : Owned k s) : k.held s.next = none := by
  rw [h.held]
  have hne : s.bus ≠ some s.next := fun hbus => Nat.lt_irrefl _ (h.below _ hbus)
  exact if_neg hne

theorem Owned.ticked (h : Owned k s) : Owned k s.tick := ⟨h.next, h.held, h.below⟩

/-- a reply or an error is taken and released -/
theorem Owned.lent (h : Owned k s) (what : Thing) :
    Owned ((k.step (.take s.next what)).step (.give s.next)) s.hand.tick where
  next := rfl
  held := by
    have hback : ((k.step (.take s.next what)).step (.give s.next)).held = k.held := by
      rw [Ledger.step_give, Ledger.step_take, Function.update_idem, ← h.fresh, Function.update_eq_self]
    exact hback.trans h.held
  below b hb := Nat.lt_succ_of_lt (h.below b hb)

theorem init_custody (h : Owned k s) : Watched custody k (init B) s fun k _ t => Owned k t := by
  refine watched_bind (watched_get (watched_ite (fun _ => watched_pure h) fun hbus => ?_))
  have hnone : s.bus = none := Option.not_isSome_iff_eq_none.1 hbus
  refine watched_ite (fun _ => ?_) fun _ => ?_
  · refine watched_bind (watched_act ⟨trivial, fun _ _ he => by cases he⟩ (watched_pure ?_))
    exact ⟨h.next, by rw [show custody.step k (.opened _ none) = k from rfl, h.held, hnone], fun b hb => by cases hb⟩
  · refine watched_bind (watched_act ⟨h.next.symm, fun _ _ he => by cases he⟩ (watched_pure ?_))
    refine ⟨rfl, ?_, fun b hb => ?_⟩
    · show Function.update k.held s.next (some .bus) = fun n => if some s.next = some n then some .bus else none
      funext n
      rw [h.held, hnone]
      by_cases hn : n = s.next
      · rw [hn, Function.update_self, if_pos rfl]
      · have hne : some s.next ≠ some n := fun e => hn (Option.some_inj.1 e).symm
        rw [Function.update_of_ne hn, if_neg hne]
        rfl
    · obtain rfl : s.next = b := Option.some_inj.1 hb
      exact Nat.lt_succ_self _

theorem shutdown_custody (h : Owned k s) : Watched custody k shutdown s fun k _ t => Owned k t ∧ t.bus = none := by
  refine watched_bind (watched_get ?_)
  split
  · rename_i b hbus
    have hheld : k.held b = some .bus := by rw [h.held, hbus]; exact if_pos rfl
    refine watched_act ⟨⟨_, hheld, trivial⟩, fun what n he => ?_⟩ ⟨⟨h.next, ?_, fun b hb => by cases hb⟩, rfl⟩
    · cases he
      exact hheld
    · show Function.update k.held b none = fun n => if none = some n then some .bus else none
      funext n
      rw [h.held, hbus]
      by_cases hn : n = b
      · rw [hn, Function.update_self]
        rfl
      · have hne : some b ≠ some n := fun e => hn (Option.some_inj.1 e).symm
        rw [Function.update_of_ne hn, if_neg hne]
        rfl
  · rename_i hbus
    exact watched_pure ⟨h, hbus⟩

/-- the last two steps of a call -/
theorem lend_custody (h : Owned k s) (ret : ℤ) (what : Thing) {ok : Bool} :
    Watched custody k (do
      Prog.act (.returned ret what s.next) BusSt.hand
      Prog.act (.released what s.next) BusSt.tick
      return ok) s fun k _ t => Owned k t := by
  refine watched_bind (watched_act ⟨h.next.symm, fun _ _ he => by cases he⟩ ?_)
  have hheld : (k.step (.take s.next what)).held s.next = some what := Function.update_self _ _ _
  refine watched_bind (watched_act ⟨⟨what, hheld, trivial⟩, fun _ _ he => ?_⟩ (watched_pure (h.lent what)))
  cases he
  exact hheld

theorem callMethod_custody (h : Owned k s) (call : BusCall) :
    Watched custody k (callMethod B call) s fun k _ t => Owned k t := by
  apply Watched.seq (init_custody B h)
  intro k ok t h
  refine watched_ite (fun _ => watched_pure h) fun _ => ?_
  refine watched_bind (watched_get (watched_bind (watched_act ⟨trivial, fun _ _ he => by cases he⟩ ?_)))
  refine watched_bind (watched_get (watched_ite (fun _ => ?_) fun _ => ?_))
  · exact lend_custody h.ticked _ .error
  · exact lend_custody h.ticked _ .reply

theorem perform_custody (h : Owned k s) (m : Method) : Watched custody k (perform B m) s fun k _ t => Owned k t := by
  rcases perform_cases B m with rfl | rfl | ⟨call, hcall⟩
  · exact init_custody B h
  · exact Watched.seq (shutdown_custody h) fun _ _ _ h => watched_pure h.1
  · rw [hcall]
    exact callMethod_custody B h call

theorem performAll_custody (ms : List Method) :
    ∀ {k s}, Owned k s → Watched custody k (performAll B ms) s fun k _ t => Owned k t := by
  induction ms with
  | nil => exact fun h => watched_pure h
  | cons m ms ih =>
    intro k s h
    apply Watched.seq (perform_custody B h m)
    intro k ok t h
    exact Watched.seq (ih h) fun _ _ _ h => watched_pure h

theorem lifetime_custody (ms : List Method) :
    Watched custody {} (lifetime B ms) {} fun k _ _ => ∀ n, k.held n = none := by
  have hstart : Owned {} {} := ⟨rfl, rfl, fun b hb => by cases hb⟩
  apply Watched.seq (performAll_custody B ms hstart)
  intro k oks t h
  apply Watched.seq (shutdown_custody h)
  rintro k _ t ⟨h, hnone⟩
  refine watched_pure fun n => ?_
  rw [h.held, hnone]
  rfl

/-- the same books, whatever releases a thing -/
abbrev books : Monitor BusEvent BusSt Empty (Ledger Thing) := Ledger.monitor BusEvent.use (fun _ => True) fun _ => True

theorem accepts_of_custody {l : List (BusEvent × BusSt)} (h : custody.accepts {} l) : books.accepts {} l := by
  apply Monitor.accepts_of_good (M := custody) _ _ h
  · exact fun _ _ => rfl
  · exact fun _ _ _ hgood => ⟨hgood.1, trivial⟩

end Custody

/-- **Whatever is taken is released.** Whatever methods are called, and however sd-bus answers: every number is handed out
once at most, what was handed out is released exactly once by the end, and by the function for its kind. -/
theorem released_once (ms : List Method) :
    (∀ n, Ledger.takesIn BusEvent.use n (lifetime B ms {}).log ≤ 1 ∧
      Ledger.givesIn BusEvent.use n (lifetime B ms {}).log = Ledger.takesIn BusEvent.use n (lifetime B ms {}).log) ∧
    ∀ pre what n s post, (lifetime B ms {}).log = pre ++ (.released what n, s) :: post →
      ∃ p ∈ pre, BusEvent.use p.1 = .take n what := by
  have hcustody := lifetime_custody B ms
  have haccepts := Watched.accepts hcustody
  have hledger := accepts_of_custody haccepts
  constructor
  · intro n
    have hend : (custody.after {} (lifetime B ms {}).log).held n = none := by
      have hlog : Sat (lifetime B ms) {} (fun l _ _ => (custody.after {} l).held n = none)
          (fun l _ _ => (custody.after {} l).held n = none) :=
        Sat.mono hcustody (fun _ _ _ h => h.2 n) fun _ e _ _ => e.elim
      exact hlog.log
    have hbalance := Ledger.takes_add_held Ledger.fresh_empty hledger n
    have hnone : Ledger.holds (custody.after {} (lifetime B ms {}).log) n = 0 := by rw [Ledger.holds, hend]; rfl
    refine ⟨Ledger.takesIn_le hledger n, ?_⟩
    calc Ledger.givesIn BusEvent.use n (lifetime B ms {}).log
        = Ledger.givesIn BusEvent.use n (lifetime B ms {}).log +
            Ledger.holds (custody.after {} (lifetime B ms {}).log) n := by rw [hnone, Nat.add_zero]
      _ = Ledger.takesIn BusEvent.use n (lifetime B ms {}).log := hbalance.symm
  · intro pre what n s post hsplit
    have hheld : (books.after {} pre).held n = some what := (custody.accepts_split haccepts hsplit).2 what n rfl
    refine Ledger.taken_with rfl ?_ hheld
    rintro p - f hchange
    rcases p with ⟨e, t⟩
    cases e with
    | opened ret bus => cases bus <;> cases hchange
    | _ => cases hchange

/-- **Calls are made on the bus.** Whatever methods are called: a call is made on a reference that was handed out before
and not released since, and between two references the first was released. -/
theorem calls_on_bus (ms : List Method) :
    (∀ pre bus call s post, (lifetime B ms {}).log = pre ++ (.called bus call, s) :: post →
      ∃ (before since : List (BusEvent × BusSt)) (ret : ℤ) (b : ℕ) (t : BusSt), bus = some b ∧
        pre = before ++ (.opened ret (some b), t) :: since ∧ Tenancy.entersIn BusEvent.deed since = 0 ∧
        Tenancy.leavesIn BusEvent.deed (some b) since = 0) ∧
    ∀ (pre mid post : List (BusEvent × BusSt)) (p q : BusEvent × BusSt),
      (lifetime B ms {}).log = pre ++ p :: mid ++ q :: post → Tenancy.enters (BusEvent.deed p.1) →
      Tenancy.enters (BusEvent.deed q.1) →
      0 < Tenancy.leavesIn BusEvent.deed (Tenancy.step (oneBus.after none pre) (BusEvent.deed p.1)) mid := by
  have haccepts := lifetime_oneBus B ms
  constructor
  · intro pre bus call s post hsplit
    obtain ⟨b, hb, rfl⟩ := oneBus.accepts_split haccepts hsplit
    rw [hsplit, Monitor.accepts_append] at haccepts
    have hkey : ∀ e may f, BusEvent.deed e = .meet may f → ∀ b b' : ℕ, f b = some b' → b' = b := by
      intro e may f he b b' hf
      cases e with
      | opened ret bus => cases bus <;> cases he
      | called bus call =>
        cases he
        exact (Option.some_inj.1 hf).symm
      | returned ret what n => cases he
      | released what n =>
        cases what with
        | bus =>
          cases he
          cases hf
        | _ => cases he
    obtain ⟨before, since, ⟨e, t⟩, b₀, rfl, henter, rfl, hin, hout⟩ :=
      Tenancy.entered_before (g := fun b : ℕ => b) hkey haccepts.1 hb
    cases e with
    | opened ret bus =>
      cases bus with
      | none => cases henter
      | some b =>
        cases henter
        exact ⟨before, since, ret, _, t, rfl, rfl, hin, hout⟩
    | called bus call => cases henter
    | returned ret what n => cases henter
    | released what n => cases what <;> cases henter
  · intro pre mid post p q hsplit hp hq
    exact Tenancy.vacated_between haccepts hsplit hp hq

/-! ## What the daemon has logind do -/

/-- the calls that were made, in their order -/
def calls (l : List (BusEvent × BusSt)) : List BusCall := l.filterMap fun p => match p.1 with
  | .called _ call => some call
  | _ => none

def isReply : BusEvent → Bool
  | .returned _ .reply _ => true
  | _ => false

/-- how many of them logind has replied to -/
def answered (l : List (BusEvent × BusSt)) : ℕ := l.countP fun p => isReply p.1

/-- the call a method makes -/
def Method.call? : Method → Option BusCall
  | .init => none
  | .shutdown => none
  | .powerOff interactive => some (managerCall (lit "PowerOff") interactive)
  | .reboot interactive => some (managerCall (lit "Reboot") interactive)
  | .suspend interactive => some (managerCall (lit "Suspend") interactive)
  | .hibernate interactive => some (managerCall (lit "Hibernate") interactive)
  | .switchToVt vtNumber => some ⟨lit "org.freedesktop.login1", lit "/org/freedesktop/login1/seat/seat0",
      lit "org.freedesktop.login1.Seat", lit "SwitchTo", .uint vtNumber⟩

theorem calls_append (l l' : List (BusEvent × BusSt)) : calls (l ++ l') = calls l ++ calls l' := List.filterMap_append

theorem answered_append (l l' : List (BusEvent × BusSt)) : answered (l ++ l') = answered l + answered l' :=
  List.countP_append

/-- a method returns true exactly if logind has replied to its call -/
def Honest (m : Method) (l : List (BusEvent × BusSt)) (ok : Bool) : Prop :=
  (calls l).Sublist m.call?.toList ∧ (m.call?.isSome → answered l = ok.toNat) ∧ (m.call? = none → answered l = 0)

section Calls

variable {s : BusSt}

/-- no call is made on the way -/
theorem init_calls : Sat (init B) s (fun l _ _ => calls l = [] ∧ answered l = 0) fun _ _ _ => True := by
  simp only [init, sat_bind, sat_get, sat_ite, sat_pure, sat_act]
  refine ⟨fun _ => ⟨rfl, rfl⟩, fun _ => ⟨fun _ => ⟨rfl, rfl⟩, fun _ => ⟨rfl, rfl⟩⟩⟩

theorem shutdown_calls : Sat shutdown s (fun l _ _ => calls l = [] ∧ answered l = 0) fun _ _ _ => True := by
  simp only [shutdown, sat_bind, sat_get]
  split <;> exact ⟨rfl, rfl⟩

theorem callMethod_calls (call : BusCall) : Sat (callMethod B call) s
    (fun l ok _ => (calls l).Sublist [call] ∧ answered l = ok.toNat) fun _ _ _ => True := by
  refine (sat_bind _ _).2 (Sat.mono (init_calls B) (fun l ok t h => ?_) fun _ _ _ h => h)
  obtain ⟨hcalls, hanswered⟩ := h
  simp only [sat_ite, sat_bind, sat_get, sat_act, sat_pure, List.nil_append, calls_append,
    answered_append, hcalls, hanswered, Nat.zero_add]
  refine ⟨fun _ => ⟨List.nil_sublist _, rfl⟩, fun _ => ⟨fun _ => ⟨List.Sublist.refl _, rfl⟩, fun _ => ?_⟩⟩
  exact ⟨List.Sublist.refl _, rfl⟩

theorem perform_honest (m : Method) : Sat (perform B m) s (fun l ok _ => Honest m l ok) fun _ _ _ => True := by
  have honest : ∀ {call : BusCall}, m.call? = some call → perform B m = callMethod B call →
      Sat (perform B m) s (fun l ok _ => Honest m l ok) fun _ _ _ => True := by
    intro call hcall hperform
    rw [hperform]
    refine Sat.mono (callMethod_calls B call) (fun l ok _ h => ⟨?_, fun _ => h.2, fun hnone => ?_⟩) fun _ _ _ h => h
    · rw [hcall]
      exact h.1
    · rw [hcall] at hnone
      cases hnone
  cases m with
  | init =>
    refine Sat.mono (init_calls B) (fun l _ _ h => ⟨?_, fun hsome => (by cases hsome), fun _ => h.2⟩) fun _ _ _ h => h
    rw [h.1]
    exact List.nil_sublist _
  | shutdown =>
    refine (sat_bind _ _).2 (Sat.mono shutdown_calls (fun l _ _ h => ?_) fun _ _ _ h => h)
    show Honest .shutdown (l ++ []) true
    rw [List.append_nil]
    refine ⟨?_, fun hsome => (by cases hsome), fun _ => h.2⟩
    rw [h.1]
    exact List.nil_sublist _
  | _ => exact honest rfl rfl

/-- the methods that made a call and returned true -/
def done (ms : List Method) (oks : List Bool) : ℕ := (ms.zip oks).countP fun p => p.1.call?.isSome && p.2

theorem performAll_calls (ms : List Method) : ∀ {s}, Sat (performAll B ms) s
    (fun l oks _ => (calls l).Sublist (ms.filterMap Method.call?) ∧ answered l = done ms oks) fun _ _ _ => True := by
  induction ms with
  | nil => exact ⟨List.Sublist.refl _, rfl⟩
  | cons m ms ih =>
    intro s
    refine (sat_bind _ _).2 (Sat.mono (perform_honest B m) (fun l ok t h => ?_) fun _ _ _ h => h)
    refine (sat_bind _ _).2 (Sat.mono ih (fun l' oks u h' => ?_) fun _ _ _ h => h)
    show (calls (l ++ (l' ++ []))).Sublist _ ∧ answered (l ++ (l' ++ [])) = done (m :: ms) (ok :: oks)
    rw [List.append_nil, calls_append, answered_append, h'.2]
    obtain ⟨hcalls, hsome, hnone⟩ := h
    cases hcall : m.call? with
    | none =>
      rw [hcall] at hcalls
      rw [List.filterMap_cons_none hcall, hnone hcall, List.sublist_nil.1 hcalls]
      exact ⟨h'.1, by simp [done, hcall]⟩
    | some call =>
      rw [hcall] at hcalls hsome
      rw [List.filterMap_cons_some hcall, hsome rfl]
      refine ⟨hcalls.append h'.1, ?_⟩
      rw [done, done, List.zip_cons_cons, List.countP_cons]
      cases ok <;> simp [hcall, Nat.add_comm]

theorem lifetime_calls (ms : List Method) : Sat (lifetime B ms) s
    (fun l oks _ => (calls l).Sublist (ms.filterMap Method.call?) ∧ answered l = done ms oks) fun _ _ _ => True := by
  refine (sat_bind _ _).2 (Sat.mono (performAll_calls B ms) (fun l oks t h => ?_) fun _ _ _ h => h)
  refine (sat_bind _ _).2 (Sat.mono shutdown_calls (fun l' _ u h' => ?_) fun _ _ _ h => h)
  show (calls (l ++ (l' ++ []))).Sublist _ ∧ answered (l ++ (l' ++ [])) = _
  rw [List.append_nil, calls_append, answered_append, h'.1, h'.2, List.append_nil, Nat.add_zero]
  exact h

end Calls

/-- the method `handle_power_action` calls -/
def methodOf (action : Str) : Option Method :=
  if action = lit "poweroff" then some (.powerOff false)
  else if action = lit "reboot" then some (.reboot false)
  else if action = lit "suspend" then some (.suspend false)
  else if action = lit "hibernate" then some (.hibernate false)
  else none

def powerMethod : Event → Option Method
  | .logind action _ => methodOf action
  | _ => none

/-- what the daemon does with the object: `init` from its own `init`, and the power actions -/
def used (es : List Event) : List Method := .init :: es.filterMap powerMethod

def report? : Event → Option Bool
  | .logind _ ok => some ok
  | _ => none

/-- what its methods returned to the daemon -/
def reported (es : List Event) : List Bool := es.filterMap report?

theorem methodOf_call {action : Str} (h : action ∈ Service.powerActions) :
    ∃ m call, methodOf action = some m ∧ m.call? = some call := by
  simp only [Service.powerActions, List.mem_cons, List.not_mem_nil, or_false] at h
  rcases h with rfl | rfl | rfl | rfl
  · exact ⟨.powerOff false, _, rfl, rfl⟩
  · exact ⟨.reboot false, _, rfl, rfl⟩
  · exact ⟨.suspend false, _, rfl, rfl⟩
  · exact ⟨.hibernate false, _, rfl, rfl⟩

theorem done_reported {es : List Event} (h : ∀ action ok, .logind action ok ∈ es → action ∈ Service.powerActions) :
    done (es.filterMap powerMethod) (reported es) = (reported es).count true := by
  induction es with
  | nil => rfl
  | cons e es ih =>
    have ih := ih fun action ok hmem => h action ok (List.mem_cons_of_mem _ hmem)
    by_cases he : powerMethod e = none
    · have hreport : report? e = none := by
        cases e with
        | logind action ok =>
          obtain ⟨m, call, hm, -⟩ := methodOf_call (h action ok List.mem_cons_self)
          exact absurd (he.symm.trans hm) (by simp)
        | _ => rfl
      rw [List.filterMap_cons_none he, reported, List.filterMap_cons_none hreport]
      exact ih
    · cases e with
      | logind action ok =>
        obtain ⟨m, call, hm, hcall⟩ := methodOf_call (h action ok List.mem_cons_self)
        have hmethod : powerMethod (.logind action ok) = some m := hm
        have hreport : report? (.logind action ok) = some ok := rfl
        rw [List.filterMap_cons_some hmethod, reported, List.filterMap_cons_some hreport, done, List.zip_cons_cons,
          List.countP_cons, List.count_cons]
        have hrest : ((es.filterMap powerMethod).zip (es.filterMap report?)).countP (fun p => p.1.call?.isSome && p.2) =
            (es.filterMap report?).count true := ih
        rw [hrest, hcall]
        cases ok <;> rfl
      | _ => exact absurd rfl he

/-- **Logind does what clients ask for.** Take any run of the daemon, and sd-bus however it answers. Every call that is
made was a power action that a client had requested by then; the calls come in the order of these actions; and if the
methods return to the daemon what it goes on with, it has reported as many actions done as logind has replied to. -/
theorem calls_requested (E : Env) (n : ℕ) :
    (∀ call ∈ calls (lifetime B (used (events (history E n))) {}).log,
      ∃ pre post action ok s req t, history E n = pre ++ (.logind action ok, s) :: post ∧ (.received req, t) ∈ pre ∧
        req.type = .powerAction ∧ req.powerAction = action ∧ (methodOf action).bind Method.call? = some call) ∧
    (calls (lifetime B (used (events (history E n))) {}).log).Sublist
      ((events (history E n)).filterMap fun e => (powerMethod e).bind Method.call?) ∧
    ∀ started, (lifetime B (used (events (history E n))) {}).fin = .ok (started :: reported (events (history E n))) →
      answered (lifetime B (used (events (history E n))) {}).log = (reported (events (history E n))).count true := by
  have hcalls := lifetime_calls B (used (events (history E n))) (s := {})
  have hsublist : (calls (lifetime B (used (events (history E n))) {}).log).Sublist
      ((events (history E n)).filterMap fun e => (powerMethod e).bind Method.call?) := by
    have hlog : (calls (lifetime B (used (events (history E n))) {}).log).Sublist
        ((used (events (history E n))).filterMap Method.call?) :=
      Sat.log (Sat.mono hcalls (fun _ _ _ h => h.1) fun _ e _ _ => e.elim)
    rw [used, List.filterMap_cons_none rfl, List.filterMap_filterMap] at hlog
    exact hlog
  -- where a power action is in the run
  have action_at : ∀ {action ok}, .logind action ok ∈ events (history E n) → ∃ pre post s,
      history E n = pre ++ (.logind action ok, s) :: post := by
    intro action ok hmem
    obtain ⟨⟨e, s⟩, hp, rfl⟩ := List.mem_map.1 hmem
    obtain ⟨pre, post, hsplit⟩ := List.append_of_mem hp
    exact ⟨pre, post, s, hsplit⟩
  refine ⟨fun call hcall => ?_, hsublist, fun started hfin => ?_⟩
  · obtain ⟨e, he, hmethod⟩ := List.mem_filterMap.1 (hsublist.subset hcall)
    cases e with
    | logind action ok =>
      obtain ⟨pre, post, s, hsplit⟩ := action_at he
      obtain ⟨⟨c, req, hc, hrequests, htype, haction, -⟩, -⟩ := Service.good_at hsplit
      obtain ⟨before, fd, u, mid, hpre, -, rfl⟩ := Service.callAt_since hc
      have hreceived : ∃ t, (.received req, t) ∈ mid := Service.received_of_mem (hrequests ▸ List.mem_singleton_self req)
      obtain ⟨t, ht⟩ := hreceived
      refine ⟨pre, post, action, ok, s, req, t, hsplit, ?_, htype, haction.symm, hmethod⟩
      rw [hpre]
      exact List.mem_append_right _ (List.mem_cons_of_mem _ ht)
    | _ => cases hmethod
  · have hdone := (Sat.of_ok hcalls hfin).2
    rw [hdone, ← done_reported fun action ok hmem => ?_]
    · rfl
    · obtain ⟨pre, post, s, hsplit⟩ := action_at hmem
      obtain ⟨⟨c, req, -, -, -, -, hmem, -⟩, -⟩ := Service.good_at hsplit
      exact hmem

/-! ## Witnesses -/

/-- the bus is not there at first, and after a while logind refuses what it is asked for -/
def flaky : BusEnv := ⟨fun n => if n = 0 then -2 else 0, fun n => if n < 5 then 0 else -13⟩

def someMethods : List Method := [.init, .powerOff true, .switchToVt 2, .shutdown, .suspend false]

/-- the error of the refused call is released -/
theorem released_once_flaky : ∃ p ∈ (lifetime flaky someMethods {}).log.take 7, p.1.use = .take 2 .error := by
  obtain ⟨s, -, hsplit⟩ := split_at (l := (lifetime flaky someMethods {}).log) (m := 7) (a := .released .error 2)
    (by decide +kernel)
  exact (released_once flaky someMethods).2 _ _ _ _ _ hsplit

/-- the last call is made on the second reference -/
theorem calls_on_bus_flaky : ∃ before ret since t, (lifetime flaky someMethods {}).log.take 10 =
    before ++ (.opened ret (some 3), t) :: since := by
  obtain ⟨s, -, hsplit⟩ := split_at (l := (lifetime flaky someMethods {}).log) (m := 10)
    (a := .called (some 3) (managerCall (lit "Suspend") false)) (by decide +kernel)
  obtain ⟨before, since, ret, b, t, hb, hpre, -⟩ := (calls_on_bus flaky someMethods).1 _ _ _ _ _ hsplit
  obtain rfl := Option.some_inj.1 hb
  exact ⟨before, ret, since, t, hpre⟩

/-- the reboot that a client asked for -/
theorem calls_requested_reboot :
    answered (lifetime ⟨fun _ => 0, fun _ => 0⟩ (used (events (history Service.asking 1))) {}).log = 1 := by
  have hreported : reported (events (history Service.asking 1)) = [true] := by decide +kernel
  have hfin : (lifetime ⟨fun _ => 0, fun _ => 0⟩ (used (events (history Service.asking 1))) {}).fin =
      .ok (true :: reported (events (history Service.asking 1))) := by decide +kernel
  rw [(calls_requested ⟨fun _ => 0, fun _ => 0⟩ Service.asking 1).2.2 true hfin, hreported]
  rfl

end Miqudm.Logind
