/-
What is owed to libpam.

Every handle that `pam_start` hands out is owed one `pam_end`; credentials that were established are to be deleted
before it, and a session that was opened is to be closed. `pamLedger` is the ledger of handles that reads the libpam
calls: it accepts a log when a fresh handle is started, calls are made on live handles only, and a handle is ended once
it has neither credentials nor a session, and when no two live handles were started for the same service. `audit` also
asks that a session is closed only when there is one, and credentials deleted only when there are some, and leaves open
what is asked of the handles together.

`Accounts` says how the ledger looks around a `PamAuth` object: its handle, with its two flags, over the handles `rest`
of others. Every method keeps the accounts, and `end` leaves nothing but `rest`. `Books` are the accounts in a daemon
that has one handle for a service.
-/
import Miqudm.Core.Ledger
import Miqudm.Daemon.PamSteps

namespace Miqudm

open Miqudm.Core Prog

/-- a live handle: the service that was wanted, and whether it has credentials and a session -/
structure Held where
  wanted : Str
  credentials : Bool := false
  session : Bool := false
deriving DecidableEq, Repr

def Held.Settled (held : Held) : Prop := held.credentials = false ∧ held.session = false

def PamFn.effect (ok : Bool) (held : Held) : PamFn → Held
  | .authenticate _ => held
  | .acctMgmt => held
  | .establishCred => if ok then { held with credentials := true } else held
  | .deleteCred => { held with credentials := false }
  | .openSession => if ok then { held with session := true } else held
  | .closeSession => { held with session := false }

def PamCall.use : PamCall → Use Held
  | .start _ _ wanted (some h) => .take h ⟨wanted, false, false⟩
  | .start _ _ _ none => .pass
  | .setConv h _ _ => .change h id
  | .run fn h ok => .change h fun held => fn.effect ok held
  | .putenv h _ _ => .change h id
  | .getenvlist h => .change h id
  | .pamEnd h => .give h
  | .born _ => .pass
  | .wiped _ => .pass
  | .died _ => .pass

namespace PamCall

variable {c : PamCall} {h : ℕ}

/-- a call on a held handle runs a function with its effect, or changes nothing in its status -/
theorem use_change {f : Held → Held} (hc : c.use = .change h f) :
    (∃ fn ok, c = .run fn h ok ∧ ∀ held, f held = fn.effect ok held) ∨ ∀ held, f held = held := by
  cases c with
  | start service user wanted handle => cases handle <;> cases hc
  | run fn n ok => cases hc; exact Or.inl ⟨fn, ok, rfl, fun _ => rfl⟩
  | setConv n d ok => cases hc; exact Or.inr fun _ => rfl
  | putenv n entry ok => cases hc; exact Or.inr fun _ => rfl
  | getenvlist n => cases hc; exact Or.inr fun _ => rfl
  | _ => cases hc

theorem use_give (hc : c.use = .give h) : c = .pamEnd h := by
  cases c with
  | start service user wanted handle => cases handle <;> cases hc
  | pamEnd n => cases hc; rfl
  | _ => cases hc

theorem gives_use (h : ℕ) (c : PamCall) : c.use.gives h = (c == .pamEnd h) := by
  cases c with
  | start service user wanted handle => cases handle <;> rfl
  | pamEnd n => by_cases hn : n = h <;> simp [PamCall.use, Use.gives, hn]
  | _ => rfl

theorem use_take {held : Held} (hc : c.use = .take h held) :
    ∃ service user wanted, c = .start service user wanted (some h) ∧ held = ⟨wanted, false, false⟩ := by
  cases c with
  | start service user wanted handle =>
    cases handle with
    | none => cases hc
    | some n => cases hc; exact ⟨service, user, wanted, rfl, rfl⟩
  | _ => cases hc

end PamCall

/-- no two live handles were started for the same service -/
def Single (k : Ledger Held) : Prop :=
  ∀ h h' b b', k.held h = some b → k.held h' = some b' → b.wanted = b'.wanted → h = h'

def pamLedger : Monitor PamCall Libpam Empty (Ledger Held) := Ledger.monitor PamCall.use Held.Settled Single

/-- a call with its handle in the right state: there is something to undo, or an end with nothing left to undo -/
def PamCall.Proper (k : Ledger Held) : PamCall → Prop
  | .run .closeSession h _ => ∃ held, k.held h = some held ∧ held.session = true
  | .run .deleteCred h _ => ∃ held, k.held h = some held ∧ held.credentials = true
  | c => k.good Held.Settled c.use

theorem PamCall.Proper.good {k : Ledger Held} {c : PamCall} (hc : c.Proper k) : k.good Held.Settled c.use := by
  unfold PamCall.Proper at hc
  split at hc
  · obtain ⟨held, hheld, -⟩ := hc
    simp [PamCall.use, Ledger.good, hheld]
  · obtain ⟨held, hheld, -⟩ := hc
    simp [PamCall.use, Ledger.good, hheld]
  · exact hc

/-- an event that concerns no handle is always proper -/
theorem PamCall.proper_of_pass {c : PamCall} (hc : c.use = .pass) (k : Ledger Held) : c.Proper k := by
  unfold PamCall.Proper
  split
  · cases hc
  · cases hc
  · rw [hc]
    trivial

/-- the ledger that asks for proper calls, and `extra` of the handles after every call -/
def audit (extra : Ledger Held → Prop) : Monitor PamCall Libpam Empty (Ledger Held) where
  step k c := k.step c.use
  good k c _ := c.Proper k ∧ extra (k.step c.use)

theorem accepts_of_audit {extra : Ledger Held → Prop} {k : Ledger Held} {l : List (PamCall × Libpam)}
    (h : (audit extra).accepts k l) :
    (Ledger.monitor PamCall.use Held.Settled extra : Monitor PamCall Libpam Empty (Ledger Held)).accepts k l := by
  apply Monitor.accepts_of_good (M := audit extra) _ _ h
  · exact fun _ _ => rfl
  · exact fun _ _ _ hgood => ⟨hgood.1.good, hgood.2⟩

namespace PamAuth

def status (wanted : Str) (self : PamAuth) : Held := ⟨wanted, self.credentialsSet, self.sessionOpened⟩

/-- the handles `rest`, and the one of the object -/
def hold (rest : ℕ → Option Held) (wanted : Str) (self : PamAuth) : ℕ → Option Held :=
  match self.pamHandle with
  | none => rest
  | some h => Function.update rest h (some (self.status wanted))

theorem hold_of_none {self : PamAuth} (hh : self.pamHandle = none) (rest : ℕ → Option Held) (wanted : Str) :
    self.hold rest wanted = rest := by rw [hold, hh]

theorem hold_of_some {self : PamAuth} {h : ℕ} (hh : self.pamHandle = some h) (rest : ℕ → Option Held) (wanted : Str) :
    self.hold rest wanted = Function.update rest h (some (self.status wanted)) := by rw [hold, hh]

end PamAuth

/-- the handles of others: one for a service at most, and none for the service `wanted` -/
structure Spare (rest : ℕ → Option Held) (wanted : Str) : Prop where
  single : ∀ h h' b b', rest h = some b → rest h' = some b' → b.wanted = b'.wanted → h = h'
  other : ∀ h b, rest h = some b → b.wanted ≠ wanted

/-- the ledger around an object whose handle was started for `wanted`, when `extra` holds with whatever flags the object
may have -/
structure Accounts (extra : Ledger Held → Prop) (rest : ℕ → Option Held) (wanted : Str) (k : Ledger Held)
    (auth : PamAuth) (p : Libpam) : Prop where
  next : p.nextHandle = k.next
  held : k.held = auth.hold rest wanted
  free : ∀ h, auth.pamHandle = some h → rest h = none ∧ h < k.next
  fresh : ∀ h, k.next ≤ h → rest h = none
  asks : ∀ (k : Ledger Held) (auth : PamAuth), k.held = auth.hold rest wanted → extra k

namespace Accounts

variable {extra : Ledger Held → Prop} {rest : ℕ → Option Held} {wanted : Str} {k : Ledger Held}
  {self self' : PamAuth} {p p' : Libpam}

theorem extra_now (ha : Accounts extra rest wanted k self p) : extra k := ha.asks k self ha.held

theorem isFresh (ha : Accounts extra rest wanted k self p) : k.Fresh := by
  intro n hn
  rw [ha.held, PamAuth.hold]
  cases hself : self.pamHandle with
  | none => exact ha.fresh n hn
  | some h =>
    have hlt := (ha.free h hself).2
    simp only []
    rw [Function.update_of_ne (by omega)]
    exact ha.fresh n hn

/-- the accounts do not depend on the texts of the object, nor on what else libpam does -/
theorem congr (ha : Accounts extra rest wanted k self p) (hp : p'.nextHandle = p.nextHandle)
    (hh : self'.pamHandle = self.pamHandle) (hs : self'.status wanted = self.status wanted) :
    Accounts extra rest wanted k self' p' where
  next := by rw [hp, ha.next]
  held := by rw [ha.held, PamAuth.hold, PamAuth.hold, hh, hs]
  free := by rw [hh]; exact ha.free
  fresh := ha.fresh
  asks := ha.asks

theorem held_self (ha : Accounts extra rest wanted k self p) {h : ℕ} (hh : self.pamHandle = some h) :
    k.held h = some (self.status wanted) := by
  rw [ha.held, PamAuth.hold, hh]
  simp

/-- a call on the handle of the object that changes its status to that of `self'` -/
theorem change (ha : Accounts extra rest wanted k self p) (self' : PamAuth) (p' : Libpam) {h : ℕ}
    (hh : self.pamHandle = some h) (hh' : self'.pamHandle = some h) {f : Held → Held}
    (hf : self'.status wanted = f (self.status wanted)) (hp : p'.nextHandle = p.nextHandle) :
    Accounts extra rest wanted (k.step (.change h f)) self' p' := by
  refine ⟨?_, ?_, ?_, ha.fresh, ha.asks⟩
  · rw [hp]; exact ha.next
  · rw [Ledger.step_change, ha.held_self hh, ha.held, PamAuth.hold, PamAuth.hold, hh, hh']
    simp [hf]
  · intro n hn
    rw [hh'] at hn
    exact ha.free n (by rw [hh, hn])

/-- the end of the object's handle -/
theorem give (ha : Accounts extra rest wanted k self p) (self' : PamAuth) (p' : Libpam) {h : ℕ}
    (hh : self.pamHandle = some h) (hself : self'.pamHandle = none) (hp : p'.nextHandle = p.nextHandle) :
    Accounts extra rest wanted (k.step (.give h)) self' p' := by
  refine ⟨?_, ?_, ?_, ha.fresh, ha.asks⟩
  · rw [hp]; exact ha.next
  · rw [Ledger.step_give, ha.held, PamAuth.hold, PamAuth.hold, hh, hself]
    simp [(ha.free h hh).1]
  · simp [hself]

/-- the start of a handle for an object without one -/
theorem take (ha : Accounts extra rest wanted k self p) (self' : PamAuth) (p' : Libpam) {wanted' : Str}
    (hasks : ∀ (k : Ledger Held) (auth : PamAuth), k.held = auth.hold rest wanted' → extra k)
    (hself : self.pamHandle = none) (hself' : self'.pamHandle = some p.nextHandle)
    (hs : self'.status wanted' = ⟨wanted', false, false⟩) (hp : p'.nextHandle = p.nextHandle + 1) :
    Accounts extra rest wanted' (k.step (.take p.nextHandle ⟨wanted', false, false⟩)) self' p' := by
  have hnext : p.nextHandle = k.next := ha.next
  refine ⟨hp, ?_, ?_, ?_, hasks⟩
  · rw [Ledger.step_take, ha.held, PamAuth.hold, PamAuth.hold, hself, hself', hs]
  · intro n hn
    have he : n = p.nextHandle := by rw [hself'] at hn; exact (Option.some_inj.1 hn).symm
    rw [Ledger.step_take_next]
    exact ⟨ha.fresh n (by omega), by omega⟩
  · intro n hn
    rw [Ledger.step_take_next] at hn
    exact ha.fresh n (by omega)

/-- an object without a handle may be put to another service -/
theorem idle (ha : Accounts extra rest wanted k self p) {wanted' : Str}
    (hasks : ∀ (k : Ledger Held) (auth : PamAuth), k.held = auth.hold rest wanted' → extra k) (self' : PamAuth)
    (hself : self.pamHandle = none) (hself' : self'.pamHandle = none) : Accounts extra rest wanted' k self' p where
  next := ha.next
  held := by rw [ha.held, PamAuth.hold, PamAuth.hold, hself, hself']
  free := by simp [hself']
  fresh := ha.fresh
  asks := hasks

/-- an object without a handle leaves only the others -/
theorem held_of_none (ha : Accounts extra rest wanted k self p) (hself : self.pamHandle = none) : k.held = rest := by
  rw [ha.held, PamAuth.hold, hself]

end Accounts

/-! ## The methods keep the accounts -/

section Methods

variable {E : PamEnv} {extra : Ledger Held → Prop} {rest : ℕ → Option Held} {wanted : Str} {k : Ledger Held}
  {self : PamAuth} {p : Libpam}

/-- a call on the object's handle that only counts -/
theorem call_accounts (ha : Accounts extra rest wanted k self p) {h : ℕ} (hh : self.pamHandle = some h) {c : PamCall}
    (hc : c.use = .change h id) (hproper : k.good Held.Settled c.use → c.Proper k) {f : Libpam → Libpam}
    (hf : ∀ p, (f p).nextHandle = p.nextHandle) :
    Watched (audit extra) k (act c f : PamM Unit) p (fun k _ p => Accounts extra rest wanted k self p) := by
  have hstep : Accounts extra rest wanted (k.step c.use) self (f p) := by
    rw [hc]
    exact ha.change self (f p) hh hh (f := id) rfl (hf p)
  have hgood : k.good Held.Settled c.use := by rw [hc, Ledger.good, ha.held_self hh]; rfl
  exact watched_act ⟨hproper hgood, hstep.extra_now⟩ hstep

/-- an event that concerns no handle -/
theorem pass_accounts (ha : Accounts extra rest wanted k self p) {c : PamCall} (hc : c.use = .pass)
    {f : Libpam → Libpam} (hf : ∀ p, (f p).nextHandle = p.nextHandle) :
    Watched (audit extra) k (act c f : PamM Unit) p (fun k _ p => Accounts extra rest wanted k self p) := by
  have hstep : Accounts extra rest wanted (k.step c.use) self (f p) := by rw [hc]; exact ha.congr (hf p) rfl rfl
  exact watched_act ⟨PamCall.proper_of_pass hc k, hstep.extra_now⟩ hstep

theorem pamSetConv_accounts (ha : Accounts extra rest wanted k self p) {h : ℕ} (hh : self.pamHandle = some h) (d : ℕ) :
    Watched (audit extra) k (pamSetConv E h d) p (fun k _ p => Accounts extra rest wanted k self p) := by
  refine watched_bind (watched_get (Watched.seq (call_accounts ha hh rfl id fun p => rfl) ?_))
  intro k _ p ha
  exact watched_pure ha

theorem pamPutenv_accounts (ha : Accounts extra rest wanted k self p) {h : ℕ} (hh : self.pamHandle = some h)
    (entry : Str) :
    Watched (audit extra) k (pamPutenv E h entry) p (fun k _ p => Accounts extra rest wanted k self p) := by
  refine watched_bind (watched_get (Watched.seq (call_accounts ha hh rfl id fun p => rfl) ?_))
  intro k _ p ha
  exact watched_pure ha

/-- what the function needs to find in the handle -/
def PamFn.needs (held : Held) : PamFn → Prop
  | .closeSession => held.session = true
  | .deleteCred => held.credentials = true
  | _ => True

/-- a function that runs the modules: any object whose flags follow its effect is in the accounts afterwards -/
theorem pamRun_accounts (ha : Accounts extra rest wanted k self p) {h : ℕ} (hh : self.pamHandle = some h) (fn : PamFn)
    (hneeds : fn.needs (self.status wanted)) :
    Watched (audit extra) k (pamRun E fn h) p (fun k ret p => ∀ self' : PamAuth, self'.pamHandle = some h →
      self'.status wanted = fn.effect (ret = pamSuccess) (self.status wanted) →
      Accounts extra rest wanted k self' p) := by
  refine watched_bind (watched_get ?_)
  set ok : Bool := decide (E.ret p.calls = pamSuccess)
  -- the object as the effect would leave it
  let changed : PamAuth := { self with
    credentialsSet := (fn.effect ok (self.status wanted)).credentials
    sessionOpened := (fn.effect ok (self.status wanted)).session }
  have hstatus : changed.status wanted = fn.effect ok (self.status wanted) := by
    cases fn <;> simp only [changed, PamFn.effect, PamAuth.status] <;> split_ifs <;> rfl
  have ha' := ha.change changed
    (p.onHandle h fun hd => { hd with env := (E.modules p.calls).foldl putEntry hd.env }) hh hh
    (f := fun held => fn.effect ok held) hstatus rfl
  have hheld := ha.held_self hh
  have hproper : (PamCall.run fn h ok).Proper k := by
    cases fn with
    | closeSession => exact ⟨_, hheld, hneeds⟩
    | deleteCred => exact ⟨_, hheld, hneeds⟩
    | _ => simp [PamCall.Proper, PamCall.use, Ledger.good, hheld]
  refine watched_bind (watched_act ⟨hproper, ha'.extra_now⟩ (watched_pure ?_))
  intro self' hh' hs'
  exact ha'.congr rfl (by rw [hh', show changed.pamHandle = some h from hh]) (by rw [hs', hstatus])

/-- a step that runs the modules: `noted` is the object after a success -/
theorem runStep_accounts (ha : Accounts extra rest wanted k self p) (fn : PamFn) {noted : PamAuth}
    (hneeds : ∀ held, fn.needs held) (hn : noted.pamHandle = self.pamHandle)
    (hyes : noted.status wanted = fn.effect true (self.status wanted))
    (hno : self.status wanted = fn.effect false (self.status wanted)) :
    Watched (audit extra) k (self.runStep E fn noted) p (fun k r p => Accounts extra rest wanted k r.2 p) := by
  unfold PamAuth.runStep
  split
  · exact watched_pure ha
  case _ h hh =>
    apply Watched.seq (pamRun_accounts ha hh fn (hneeds _))
    intro k ret p ha
    refine watched_ite (fun hret => ?_) (fun hret => ?_)
    · exact watched_pure (ha _ hh (by rw [decide_eq_false hret]; exact hno))
    · exact watched_pure (ha _ (hn.trans hh) (by rw [decide_eq_true (not_not.1 hret)]; exact hyes))

theorem checkAccount_accounts (ha : Accounts extra rest wanted k self p) :
    Watched (audit extra) k (self.checkAccount E) p (fun k r p => Accounts extra rest wanted k r.2 p) :=
  runStep_accounts ha .acctMgmt (fun _ => trivial) rfl rfl rfl

theorem establishCredentials_accounts (ha : Accounts extra rest wanted k self p) :
    Watched (audit extra) k (self.establishCredentials E) p (fun k r p => Accounts extra rest wanted k r.2 p) :=
  runStep_accounts ha .establishCred (fun _ => trivial) rfl rfl rfl

theorem openSession_accounts (ha : Accounts extra rest wanted k self p) :
    Watched (audit extra) k (self.openSession E) p (fun k r p => Accounts extra rest wanted k r.2 p) :=
  runStep_accounts ha .openSession (fun _ => trivial) rfl rfl rfl

/-- a step that undoes something: `cleared` is the object afterwards -/
theorem undoStep_accounts (ha : Accounts extra rest wanted k self p) {pending : Bool} (fn : PamFn) {cleared : PamAuth}
    (hneeds : pending = true → fn.needs (self.status wanted)) (hc : cleared.pamHandle = self.pamHandle)
    (hs : ∀ ok, cleared.status wanted = fn.effect ok (self.status wanted)) :
    Watched (audit extra) k (self.undoStep E pending fn cleared) p (fun k r p =>
      Accounts extra rest wanted k r.2 p) := by
  unfold PamAuth.undoStep
  split
  · exact watched_pure ha
  case _ h hh =>
    refine watched_ite (fun _ => watched_pure ha) (fun hpending => ?_)
    apply Watched.seq (pamRun_accounts ha hh fn (hneeds (not_not.1 hpending)))
    intro k ret p ha
    have hcleared := ha cleared (hc.trans hh) (hs _)
    exact watched_ite (fun _ => watched_pure (hcleared.congr rfl rfl rfl)) (fun _ => watched_pure hcleared)

theorem deleteCredentials_accounts (ha : Accounts extra rest wanted k self p) :
    Watched (audit extra) k (self.deleteCredentials E) p (fun k r p => Accounts extra rest wanted k r.2 p) :=
  undoStep_accounts ha .deleteCred id rfl fun _ => rfl

theorem closeSession_accounts (ha : Accounts extra rest wanted k self p) :
    Watched (audit extra) k (self.closeSession E) p (fun k r p => Accounts extra rest wanted k r.2 p) :=
  undoStep_accounts ha .closeSession id rfl fun _ => rfl

theorem closeOpened_accounts (ha : Accounts extra rest wanted k self p) :
    Watched (audit extra) k (self.closeOpened E) p (fun k r p => Accounts extra rest wanted k r p) :=
  watched_ite (fun _ => Watched.seq (closeSession_accounts ha) fun _ _ _ ha => watched_pure ha)
    (fun _ => watched_pure ha)

theorem deleteSet_accounts (ha : Accounts extra rest wanted k self p) :
    Watched (audit extra) k (self.deleteSet E) p (fun k r p => Accounts extra rest wanted k r p) :=
  watched_ite (fun _ => Watched.seq (deleteCredentials_accounts ha) fun _ _ _ ha => watched_pure ha)
    (fun _ => watched_pure ha)

/-- **The end settles the handle.** `end` deletes the credentials and closes the session before `pam_end`, and leaves
only the handles of others. -/
theorem end_accounts (ha : Accounts extra rest wanted k self p) :
    Watched (audit extra) k (self.end_ E) p (fun k r p => Accounts extra rest wanted k r p ∧
      r.core = (none, false, false)) := by
  refine Watched.and_sat ?_ (Sat.mono PamAuth.end_spec (fun _ _ _ h => h.2) fun _ _ _ _ => trivial)
  unfold PamAuth.end_
  split
  case _ hh => exact watched_pure (ha.idle ha.asks _ hh hh)
  case _ h hh =>
    refine watched_bind (Watched.seq (Watched.and_sat (closeOpened_accounts ha)
      (Sat.mono (PamAuth.closeOpened_spec hh) (fun _ _ _ h => h.2) fun _ _ _ _ => trivial)) ?_)
    intro k self p ⟨ha, hcore⟩
    have hh : self.pamHandle = some h := congrArg Prod.fst hcore
    have hs : self.sessionOpened = false := congrArg (fun c => c.2.2) hcore
    refine Watched.seq (Watched.and_sat (deleteSet_accounts ha)
      (Sat.mono (PamAuth.deleteSet_spec hh) (fun _ _ _ h => h.2) fun _ _ _ _ => trivial)) ?_
    intro k self' p ⟨ha, hcore⟩
    have hh : self'.pamHandle = some h := congrArg Prod.fst hcore
    have hc : self'.credentialsSet = false := congrArg (fun c => c.2.1) hcore
    have hs' : self'.sessionOpened = self.sessionOpened := congrArg (fun c => c.2.2) hcore
    -- the handle has neither credentials nor a session
    have hsettled : k.good Held.Settled (PamCall.pamEnd h).use :=
      ⟨_, ha.held_self hh, hc, hs'.trans hs⟩
    have hgive := fun (r : PamAuth) (hr : r.pamHandle = none) => ha.give r { p with
      calls := p.calls + 1
      handles := p.handles.filter fun hd => hd.id ≠ h } hh hr rfl
    refine watched_bind (watched_act ⟨hsettled, (hgive {} rfl).extra_now⟩ ?_)
    exact watched_pure (watched_pure (hgive _ rfl))

/-- a start for an object without a handle: what it returns fits the object it is put into -/
theorem pamStart_accounts (ha : Accounts extra rest wanted k self p) (hself : self.pamHandle = none) {wanted' : Str}
    (hasks : ∀ (k : Ledger Held) (auth : PamAuth), k.held = auth.hold rest wanted' → extra k) (service user : Str) :
    Watched (audit extra) k (pamStart E service user wanted') p (fun k r p =>
      (r.1 ≠ pamSuccess → Accounts extra rest wanted' k {} p) ∧
      ∀ self' : PamAuth, self'.core = (r.2, false, false) → Accounts extra rest wanted' k self' p) := by
  refine watched_bind (watched_get (watched_ite (fun hret => ?_) (fun hret => ?_)))
  · have htake := fun (self' : PamAuth) (hs : self'.core = (some p.nextHandle, false, false)) =>
      ha.take self' { p with
        calls := p.calls + 1
        nextHandle := p.nextHandle + 1
        handles := ⟨p.nextHandle, cstr user, cstr service, none, []⟩ :: p.handles } hasks hself (congrArg Prod.fst hs)
        (by rw [PamAuth.status, show self'.credentialsSet = false from congrArg (fun c => c.2.1) hs,
          show self'.sessionOpened = false from congrArg (fun c => c.2.2) hs]) rfl
    have hnow := (htake { pamHandle := some p.nextHandle } rfl).extra_now
    refine watched_bind (watched_act ⟨ha.next, hnow⟩ (watched_pure ⟨fun h => absurd hret h, ?_⟩))
    exact htake
  · have hidle : Accounts extra rest wanted' k {} p := ha.idle hasks {} hself rfl
    refine Watched.seq (pass_accounts hidle rfl fun p => rfl) fun k _ p ha => ?_
    exact watched_pure ⟨fun _ => ha, fun self' hs => ha.idle hasks self' rfl (congrArg Prod.fst hs)⟩

/-- `start` gives the object a handle for the service it was asked for, or none -/
theorem start_accounts (ha : Accounts extra rest wanted k self p) {serviceName : Str}
    (hasks : ∀ (k : Ledger Held) (auth : PamAuth), k.held = auth.hold rest serviceName → extra k) (username : Str) :
    Watched (audit extra) k (self.start E username serviceName) p (fun k r p =>
      Accounts extra rest serviceName k r.2 p) := by
  apply Watched.seq (end_accounts ha)
  rintro k self p ⟨ha, hcore⟩
  have hself : self.pamHandle = none := congrArg Prod.fst hcore
  have hc : self.credentialsSet = false := congrArg (fun c => c.2.1) hcore
  have hs : self.sessionOpened = false := congrArg (fun c => c.2.2) hcore
  have last : ∀ {k p} (r : ℤ × Option ℕ), (∀ self' : PamAuth, self'.core = (r.2, false, false) →
      Accounts extra rest serviceName k self' p) → (r.1 ≠ pamSuccess → Accounts extra rest serviceName k {} p) →
      Watched (audit extra) k (do
        let started ← (pure r : PamM (ℤ × Option ℕ))
        if started.1 ≠ pamSuccess then
          return (false, { self with username := username, serviceName := serviceName,
                                     errorMessage := E.strerror started.1, pamHandle := none })
        else return (true, { self with username := username, serviceName := serviceName, pamHandle := started.2 })) p
        (fun k r p => Accounts extra rest serviceName k r.2 p) := by
    intro k p r hr hfail
    refine watched_bind (watched_pure (watched_ite (fun hret => watched_pure ?_) (fun _ => watched_pure ?_)))
    · exact (hfail hret).idle hasks _ rfl rfl
    · exact hr _ (by simp [PamAuth.core, hc, hs])
  refine watched_bind (Watched.seq (pamStart_accounts ha hself hasks serviceName username) ?_)
  rintro k r p ⟨hfail, hr⟩
  refine watched_ite (fun hret => ?_) (fun _ => ?_)
  · apply Watched.mono (pamStart_accounts (hfail hret) rfl hasks (lit "login") username)
    rintro k r p ⟨hfail, hr⟩
    exact last r hr hfail
  · exact watched_pure (last r hr hfail)

theorem setEnv_accounts (ha : Accounts extra rest wanted k self p) (name value : Str) :
    Watched (audit extra) k (self.setEnv E name value) p (fun k _ p => Accounts extra rest wanted k self p) := by
  unfold PamAuth.setEnv
  split
  · exact watched_pure ha
  case _ h hh => exact Watched.seq (pamPutenv_accounts ha hh _) fun k _ p ha => watched_pure ha

theorem getEnvironmentList_accounts (ha : Accounts extra rest wanted k self p) :
    Watched (audit extra) k self.getEnvironmentList p (fun k _ p => Accounts extra rest wanted k self p) := by
  unfold PamAuth.getEnvironmentList
  split
  · exact watched_pure ha
  case _ h hh =>
    refine watched_bind (watched_get (Watched.seq (call_accounts ha hh rfl id fun p => rfl) ?_))
    intro k _ p ha
    exact watched_pure ha

theorem authenticate_accounts (ha : Accounts extra rest wanted k self p) (password : Str) :
    Watched (audit extra) k (self.authenticate E password) p (fun k r p => Accounts extra rest wanted k r.2 p) := by
  unfold PamAuth.authenticate
  split
  · exact watched_pure (ha.congr rfl rfl rfl)
  case _ h hh =>
    have free : ∀ {k p} d, Accounts extra rest wanted k self p →
        Watched (audit extra) k (freeUserData d) p (fun k _ p => Accounts extra rest wanted k self p) :=
      fun d ha => pass_accounts ha rfl fun p => rfl
    refine watched_bind (watched_bind (watched_get
      (Watched.seq (pass_accounts ha rfl fun p => rfl) ?_)))
    intro k _ p ha
    refine watched_pure (Watched.seq (pamSetConv_accounts ha hh _) fun k ret p ha => ?_)
    refine watched_ite (fun _ => ?_) (fun _ => ?_)
    · exact Watched.seq (free _ ha) fun k _ p ha => watched_pure (ha.congr rfl rfl rfl)
    · refine watched_bind (watched_get (watched_bind
        (Watched.mono (pamRun_accounts ha hh (.authenticate _) trivial) ?_)))
      intro k ret p ha
      have ha : Accounts extra rest wanted k self p := ha self hh rfl
      have last : ∀ {k p} d, Accounts extra rest wanted k self p → Watched (audit extra) k (do
          freeUserData d
          if ret ≠ pamSuccess then return (false, { self with errorMessage := E.strerror ret })
          else return (true, self)) p (fun k r p => Accounts extra rest wanted k r.2 p) := by
        intro k p d ha
        apply Watched.seq (free d ha)
        intro k _ p ha
        exact watched_ite (fun _ => watched_pure (ha.congr rfl rfl rfl)) (fun _ => watched_pure ha)
      refine watched_bind (watched_when (fun _ => ?_) (fun _ => last _ ha))
      exact Watched.mono (pass_accounts ha rfl fun p => rfl) fun k _ p ha => last _ ha

end Methods

/-! ## One handle for a service -/

/-- the ledger around an object whose handle was started for `wanted` -/
structure Books (rest : ℕ → Option Held) (wanted : Str) (k : Ledger Held) (auth : PamAuth) (p : Libpam) : Prop where
  next : p.nextHandle = k.next
  held : k.held = auth.hold rest wanted
  free : ∀ h, auth.pamHandle = some h → rest h = none ∧ h < k.next
  fresh : ∀ h, k.next ≤ h → rest h = none
  spare : Spare rest wanted

/-- with the handles of others to spare, an object's handle is the only one for its service -/
theorem Spare.single_hold {rest : ℕ → Option Held} {wanted : Str} (hspare : Spare rest wanted) (k : Ledger Held)
    (self : PamAuth) (hk : k.held = self.hold rest wanted) : Single k := by
  intro h h' b b' hh hh' hw
  rw [hk, PamAuth.hold] at hh hh'
  cases hself : self.pamHandle with
  | none =>
    simp only [hself] at hh hh'
    exact hspare.single h h' b b' hh hh' hw
  | some n =>
    simp only [hself, Function.update_apply] at hh hh'
    split_ifs at hh hh' with h1 h2 h2
    · rw [h1, h2]
    · exact absurd (by rw [← hw, ← Option.some_inj.1 hh]; rfl) (hspare.other h' b' hh')
    · exact absurd (by rw [hw, ← Option.some_inj.1 hh']; rfl) (hspare.other h b hh)
    · exact hspare.single h h' b b' hh hh' hw

namespace Books

variable {rest : ℕ → Option Held} {wanted : Str} {k : Ledger Held} {self : PamAuth} {p : Libpam}

theorem accounts (hb : Books rest wanted k self p) : Accounts Single rest wanted k self p :=
  ⟨hb.next, hb.held, hb.free, hb.fresh, hb.spare.single_hold⟩

theorem of_accounts (hspare : Spare rest wanted) (ha : Accounts Single rest wanted k self p) :
    Books rest wanted k self p := ⟨ha.next, ha.held, ha.free, ha.fresh, hspare⟩

theorem single (hb : Books rest wanted k self p) : Single k := hb.accounts.extra_now

theorem isFresh (hb : Books rest wanted k self p) : k.Fresh := hb.accounts.isFresh

/-- an object without a handle may be put to another service -/
theorem idle (hb : Books rest wanted k self p) {wanted' : Str} (hspare : Spare rest wanted') (self' : PamAuth)
    (hself : self.pamHandle = none) (hself' : self'.pamHandle = none) : Books rest wanted' k self' p :=
  of_accounts hspare (hb.accounts.idle hspare.single_hold self' hself hself')

/-- an object without a handle leaves only the others -/
theorem held_of_none (hb : Books rest wanted k self p) (hself : self.pamHandle = none) : k.held = rest :=
  hb.accounts.held_of_none hself

/-- what keeps the accounts keeps the books -/
theorem watched {α : Type} {x : PamM α} (hspare : Spare rest wanted) {f : α → PamAuth}
    (h : Watched (audit Single) k x p (fun k a p => Accounts Single rest wanted k (f a) p)) :
    Watched pamLedger k x p (fun k a p => Books rest wanted k (f a) p) := by
  have same : ∀ l, (audit Single).after k l = pamLedger.after k l := fun _ => rfl
  apply Sat.mono h
  · intro l a t hl
    exact ⟨accepts_of_audit hl.1, of_accounts hspare (same l ▸ hl.2)⟩
  · intro l e
    exact e.elim

end Books

section Methods

variable {E : PamEnv} {rest : ℕ → Option Held} {wanted : Str} {k : Ledger Held} {self : PamAuth} {p : Libpam}

theorem checkAccount_books (hb : Books rest wanted k self p) :
    Watched pamLedger k (self.checkAccount E) p (fun k r p => Books rest wanted k r.2 p) :=
  Books.watched hb.spare (checkAccount_accounts hb.accounts)

theorem establishCredentials_books (hb : Books rest wanted k self p) :
    Watched pamLedger k (self.establishCredentials E) p (fun k r p => Books rest wanted k r.2 p) :=
  Books.watched hb.spare (establishCredentials_accounts hb.accounts)

theorem openSession_books (hb : Books rest wanted k self p) :
    Watched pamLedger k (self.openSession E) p (fun k r p => Books rest wanted k r.2 p) :=
  Books.watched hb.spare (openSession_accounts hb.accounts)

theorem deleteCredentials_books (hb : Books rest wanted k self p) :
    Watched pamLedger k (self.deleteCredentials E) p (fun k r p => Books rest wanted k r.2 p) :=
  Books.watched hb.spare (deleteCredentials_accounts hb.accounts)

theorem closeSession_books (hb : Books rest wanted k self p) :
    Watched pamLedger k (self.closeSession E) p (fun k r p => Books rest wanted k r.2 p) :=
  Books.watched hb.spare (closeSession_accounts hb.accounts)

theorem end_books (hb : Books rest wanted k self p) :
    Watched pamLedger k (self.end_ E) p (fun k r p => Books rest wanted k r p ∧ r.core = (none, false, false)) := by
  have hend := Books.watched (f := id) hb.spare (Watched.mono (end_accounts (E := E) hb.accounts) fun _ _ _ h => h.1)
  exact Watched.and_sat hend (Sat.mono PamAuth.end_spec (fun _ _ _ h => h.2) fun _ _ _ _ => trivial)

theorem start_books (hb : Books rest wanted k self p) {serviceName : Str} (hspare : Spare rest serviceName)
    (username : Str) :
    Watched pamLedger k (self.start E username serviceName) p (fun k r p => Books rest serviceName k r.2 p) :=
  Books.watched hspare (start_accounts hb.accounts hspare.single_hold username)

theorem setEnv_books (hb : Books rest wanted k self p) (name value : Str) :
    Watched pamLedger k (self.setEnv E name value) p (fun k _ p => Books rest wanted k self p) :=
  Books.watched hb.spare (setEnv_accounts hb.accounts name value)

theorem getEnvironmentList_books (hb : Books rest wanted k self p) :
    Watched pamLedger k self.getEnvironmentList p (fun k _ p => Books rest wanted k self p) :=
  Books.watched hb.spare (getEnvironmentList_accounts hb.accounts)

theorem authenticate_books (hb : Books rest wanted k self p) (password : Str) :
    Watched pamLedger k (self.authenticate E password) p (fun k r p => Books rest wanted k r.2 p) :=
  Books.watched hb.spare (authenticate_accounts hb.accounts password)

end Methods

end Miqudm
