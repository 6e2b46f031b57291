/-
The life of `PamAuth` objects.

Any number of objects, numbered, are constructed, moved, used and destroyed in any order (`lifetime`), with any answers of
libpam. An object that does not exist takes part in no operation. The log shows the libpam calls.

`Owns objs held` says that the live handles of the ledger are those of the objects: an object with a handle is the only
one with it, and its flags are the status of the handle. Every operation keeps this (`op_owned`), so the ledger accepts
every lifetime (`lifetime_owned`), and `libpam_lifecycle` reads the four rules of libpam off it: calls on live handles
only, one end for each start, an end with nothing left to undo, and an undoing only of what was done.
-/
import Miqudm.Daemon.PamLedger

namespace Miqudm.PamObjects

open Miqudm.Core Prog

/-! ## Operations on objects -/

inductive Method where
  | start (username serviceName : Str)
  | authenticate (password : Str)
  | checkAccount
  | establishCredentials
  | openSession
  | closeSession
  | deleteCredentials
  | getEnvironmentList
  | setEnv (name value : Str)
  | end_
deriving DecidableEq, Repr

inductive ObjectOp where
  | construct (i : ℕ)
  /-- the new object `i` is constructed from `j` -/
  | moveConstruct (i j : ℕ)
  | moveAssign (i j : ℕ)
  | call (i : ℕ) (method : Method)
  | destroy (i : ℕ)
deriving DecidableEq, Repr

/-- the objects by their numbers -/
abbrev Objects : Type := ℕ → Option PamAuth

section Run

variable (E : PamEnv)

def Method.run (self : PamAuth) : Method → PamM PamAuth
  | .start username serviceName => do return (← self.start E username serviceName).2
  | .authenticate password => do return (← self.authenticate E password).2
  | .checkAccount => do return (← self.checkAccount E).2
  | .establishCredentials => do return (← self.establishCredentials E).2
  | .openSession => do return (← self.openSession E).2
  | .closeSession => do return (← self.closeSession E).2
  | .deleteCredentials => do return (← self.deleteCredentials E).2
  | .getEnvironmentList => do
    let _ ← self.getEnvironmentList
    return self
  | .setEnv name value => do
    let _ ← self.setEnv E name value
    return self
  | .end_ => self.end_ E

def ObjectOp.run (objs : Objects) : ObjectOp → PamM Objects
  | .construct i =>
    match objs i with
    | some _ => return objs
    | none => return Function.update objs i (some {})
  | .moveConstruct i j =>
    match objs i, objs j with
    | none, some other => return Function.update (Function.update objs i (some other)) j (some PamAuth.movedFrom)
    | _, _ => return objs
  | .moveAssign i j =>
    match objs i, objs j with
    | some self, some other =>
      -- `if (this != &other)`
      if i = j then return objs
      else do
        let (self, other) ← self.moveAssign E other
        return Function.update (Function.update objs i (some self)) j (some other)
    | _, _ => return objs
  | .call i method =>
    match objs i with
    | some self => do return Function.update objs i (some (← method.run E self))
    | none => return objs
  | .destroy i =>
    match objs i with
    | some self => do
      let _ ← self.end_ E
      return Function.update objs i none
    | none => return objs

def lifetime : List ObjectOp → Objects → PamM Objects
  | [], objs => return objs
  | op :: ops, objs => do lifetime ops (← op.run E objs)

end Run

/-! ## Handles and their objects -/

structure Owns (objs : Objects) (held : ℕ → Option Held) : Prop where
  object : ∀ i self h, objs i = some self → self.pamHandle = some h → ∃ wanted, held h = some (self.status wanted)
  holder : ∀ h, (held h).isSome → ∃ i self, objs i = some self ∧ self.pamHandle = some h
  apart : ∀ i j self other h, objs i = some self → objs j = some other → self.pamHandle = some h →
    other.pamHandle = some h → i = j

namespace Owns

variable {objs : Objects} {held rest : ℕ → Option Held} {self other : PamAuth} {i j : ℕ}

theorem nothing : Owns (fun _ => none) (fun _ => none) := ⟨by simp, by simp, by simp⟩

/-- the handles of the other objects -/
theorem without (ho : Owns objs held) (hi : objs i = some self) : ∃ rest wanted, held = self.hold rest wanted ∧
    Owns (Function.update objs i none) rest ∧ ∀ h, self.pamHandle = some h → rest h = none := by
  have elsewhere : ∀ {j self'}, Function.update objs i none j = some self' → j ≠ i ∧ objs j = some self' := by
    intro j self' hj
    rw [Function.update_apply] at hj
    split_ifs at hj with hne
    exact ⟨hne, hj⟩
  cases hself : self.pamHandle with
  | none =>
    refine ⟨held, [], (PamAuth.hold_of_none hself held []).symm, ⟨?_, ?_, ?_⟩, by simp⟩
    · exact fun j self' h hj hh => ho.object j self' h (elsewhere hj).2 hh
    · intro h hh
      obtain ⟨j, self', hj, hself'⟩ := ho.holder h hh
      have hne : j ≠ i := by
        intro hr
        subst hr
        rw [hi, Option.some_inj] at hj
        rw [hj, hself'] at hself
        cases hself
      exact ⟨j, self', by rw [Function.update_of_ne hne, hj], hself'⟩
    · exact fun j j' self' other h hj hj' => ho.apart j j' self' other h (elsewhere hj).2 (elsewhere hj').2
  | some h =>
    obtain ⟨wanted, hheld⟩ := ho.object i self h hi hself
    refine ⟨Function.update held h none, wanted, ?_, ⟨?_, ?_, ?_⟩, by simp⟩
    · rw [PamAuth.hold_of_some hself, Function.update_idem, ← hheld, Function.update_eq_self]
    · intro j self' h' hj hself'
      have hne : h' ≠ h := by
        intro hr
        subst hr
        exact (elsewhere hj).1 (ho.apart j i self' self h' (elsewhere hj).2 hi hself' hself)
      rw [Function.update_of_ne hne]
      exact ho.object j self' h' (elsewhere hj).2 hself'
    · intro h' hh'
      rw [Function.update_apply] at hh'
      split_ifs at hh' with hne
      · cases hh'
      · obtain ⟨j, self', hj, hself'⟩ := ho.holder h' hh'
        have hji : j ≠ i := by
          intro hr
          subst hr
          rw [hi, Option.some_inj] at hj
          rw [← hj, hself, Option.some_inj] at hself'
          exact hne hself'.symm
        exact ⟨j, self', by rw [Function.update_of_ne hji, hj], hself'⟩
    · exact fun j j' self' other h hj hj' => ho.apart j j' self' other h (elsewhere hj).2 (elsewhere hj').2

/-- an object with a handle of its own beside the others -/
theorem with_ (ho : Owns (Function.update objs i none) rest) (hfree : ∀ h, self.pamHandle = some h → rest h = none)
    (wanted : Str) : Owns (Function.update objs i (some self)) (self.hold rest wanted) := by
  -- an object is the one at `i`, or one of the others
  have which : ∀ {j self'}, Function.update objs i (some self) j = some self' →
      (j = i ∧ self' = self) ∨ Function.update objs i none j = some self' := by
    intro j self' hj
    by_cases hne : j = i
    · subst hne
      rw [Function.update_self, Option.some_inj] at hj
      exact Or.inl ⟨rfl, hj.symm⟩
    · rw [Function.update_of_ne hne] at hj
      exact Or.inr (by rw [Function.update_of_ne hne, hj])
  -- the others do not have its handle
  have strange : ∀ {j self' h}, Function.update objs i none j = some self' → self'.pamHandle = some h →
      self.pamHandle ≠ some h := by
    intro j self' h hj hself' hself
    obtain ⟨wanted', hrest⟩ := ho.object j self' h hj hself'
    rw [hfree h hself] at hrest
    cases hrest
  refine ⟨?_, ?_, ?_⟩
  · intro j self' h hj hself'
    rcases which hj with ⟨rfl, rfl⟩ | hj
    · exact ⟨wanted, by rw [PamAuth.hold_of_some hself', Function.update_self]⟩
    · obtain ⟨wanted', hrest⟩ := ho.object j self' h hj hself'
      refine ⟨wanted', ?_⟩
      rw [← hrest, PamAuth.hold]
      cases hself : self.pamHandle with
      | none => rfl
      | some h' =>
        have hne : h ≠ h' := by
          intro hr
          subst hr
          exact strange hj hself' hself
        simp only []
        rw [Function.update_of_ne hne]
  · intro h hh
    have hold : self.pamHandle = some h ∨ (rest h).isSome := by
      rw [PamAuth.hold] at hh
      cases hself : self.pamHandle with
      | none => exact Or.inr (by simpa only [hself] using hh)
      | some h' =>
        simp only [hself, Function.update_apply] at hh
        split_ifs at hh with hne
        · exact Or.inl (by rw [hne])
        · exact Or.inr hh
    rcases hold with hself | hrest
    · exact ⟨i, self, by rw [Function.update_self], hself⟩
    · obtain ⟨j, self', hj, hself'⟩ := ho.holder h hrest
      have hne : j ≠ i := by
        intro hr
        subst hr
        rw [Function.update_self] at hj
        cases hj
      exact ⟨j, self', by rw [Function.update_of_ne hne] at hj ⊢; exact hj, hself'⟩
  · intro j j' self' other h hj hj' hself' hother
    rcases which hj with ⟨rfl, rfl⟩ | hold
    · rcases which hj' with ⟨rfl, rfl⟩ | hold'
      · rfl
      · exact absurd hself' (strange hold' hother)
    · rcases which hj' with ⟨rfl, rfl⟩ | hold'
      · exact absurd hother (strange hold hself')
      · exact ho.apart j j' self' other h hold hold' hself' hother

/-- a new object without a handle -/
theorem add (ho : Owns objs held) (hi : objs i = none) (hself : self.pamHandle = none) :
    Owns (Function.update objs i (some self)) held := by
  rw [← PamAuth.hold_of_none hself held []]
  apply with_
  · rwa [← hi, Function.update_eq_self]
  · simp [hself]

/-- the new object `i` takes the handle of the object `j` -/
theorem move (ho : Owns objs held) (hi : objs i = none) (hj : objs j = some other) :
    Owns (Function.update (Function.update objs i (some other)) j (some PamAuth.movedFrom)) held := by
  have hij : i ≠ j := by
    intro h
    subst h
    rw [hi] at hj
    cases hj
  obtain ⟨rest, wanted, rfl, hrest, hfree⟩ := ho.without hj
  have hempty : Function.update (Function.update objs j none) i none = Function.update objs j none := by
    rw [Function.update_eq_self_iff, Function.update_of_ne hij, hi]
  have hnew : Owns (Function.update (Function.update objs j none) i (some other)) (other.hold rest wanted) :=
    with_ (by rw [hempty]; exact hrest) hfree wanted
  have hgone : Function.update (Function.update objs j none) i (some other) j = none := by
    rw [Function.update_of_ne hij.symm, Function.update_self]
  have hleft : Owns (Function.update (Function.update (Function.update objs j none) i (some other)) j
      (some PamAuth.movedFrom)) (other.hold rest wanted) := hnew.add hgone rfl
  rwa [Function.update_comm hij.symm, Function.update_idem] at hleft

end Owns

/-- the ledger between two operations -/
structure Owned (k : Ledger Held) (objs : Objects) (p : Libpam) : Prop where
  next : p.nextHandle = k.next
  fresh : k.Fresh
  owns : Owns objs k.held

/-- what is asked of the handles together: nothing -/
def anything : Ledger Held → Prop := fun _ => True

namespace Owned

variable {objs : Objects} {k : Ledger Held} {self : PamAuth} {p : Libpam} {rest : ℕ → Option Held} {wanted : Str} {i : ℕ}

/-- the accounts of one of the objects -/
theorem accounts (ho : Owned k objs p) (hi : objs i = some self) : ∃ rest wanted,
    Accounts anything rest wanted k self p ∧ Owns (Function.update objs i none) rest := by
  obtain ⟨rest, wanted, hheld, hrest, hfree⟩ := ho.owns.without hi
  refine ⟨rest, wanted, ⟨ho.next, hheld, ?_, ?_, fun _ _ _ => trivial⟩, hrest⟩
  · intro h hself
    refine ⟨hfree h hself, ?_⟩
    by_contra hle
    have hnone := ho.fresh h (by omega)
    rw [hheld, PamAuth.hold_of_some hself, Function.update_self] at hnone
    cases hnone
  · intro h hle
    cases hself : self.pamHandle with
    | none => rw [← PamAuth.hold_of_none hself rest wanted, ← hheld]; exact ho.fresh h hle
    | some h' =>
      by_cases hne : h = h'
      · rw [hne]
        exact hfree h' hself
      · have hnone := ho.fresh h hle
        rwa [hheld, PamAuth.hold_of_some hself, Function.update_of_ne hne] at hnone

/-- the object is put back -/
theorem of_accounts (ha : Accounts anything rest wanted k self p) (hrest : Owns (Function.update objs i none) rest) :
    Owned k (Function.update objs i (some self)) p :=
  ⟨ha.next, ha.isFresh, ha.held ▸ hrest.with_ (fun h hself => (ha.free h hself).1) wanted⟩

/-- an object without a handle is dropped -/
theorem of_ended (ha : Accounts anything rest wanted k self p) (hself : self.pamHandle = none)
    (hrest : Owns (Function.update objs i none) rest) : Owned k (Function.update objs i none) p :=
  ⟨ha.next, ha.isFresh, (ha.held_of_none hself).symm ▸ hrest⟩

end Owned

/-! ## Every operation keeps the handles with their objects -/

section Operations

variable {E : PamEnv} {objs : Objects} {k : Ledger Held} {self : PamAuth} {p : Libpam} {rest : ℕ → Option Held}
  {wanted : Str}

theorem method_accounts (ha : Accounts anything rest wanted k self p) (method : Method) :
    Watched (audit anything) k (method.run E self) p (fun k self p => ∃ wanted, Accounts anything rest wanted k self p) := by
  cases method with
  | start username serviceName =>
    have hstart : Watched (audit anything) k (self.start E username serviceName) p
        (fun k r p => Accounts anything rest serviceName k r.2 p) := start_accounts ha (fun _ _ _ => trivial) username
    exact Watched.seq hstart fun _ _ _ ha => watched_pure ⟨_, ha⟩
  | authenticate password =>
    exact Watched.seq (authenticate_accounts ha password) fun _ _ _ ha => watched_pure ⟨_, ha⟩
  | checkAccount => exact Watched.seq (checkAccount_accounts ha) fun _ _ _ ha => watched_pure ⟨_, ha⟩
  | establishCredentials =>
    exact Watched.seq (establishCredentials_accounts ha) fun _ _ _ ha => watched_pure ⟨_, ha⟩
  | openSession => exact Watched.seq (openSession_accounts ha) fun _ _ _ ha => watched_pure ⟨_, ha⟩
  | closeSession => exact Watched.seq (closeSession_accounts ha) fun _ _ _ ha => watched_pure ⟨_, ha⟩
  | deleteCredentials =>
    exact Watched.seq (deleteCredentials_accounts ha) fun _ _ _ ha => watched_pure ⟨_, ha⟩
  | getEnvironmentList =>
    exact Watched.seq (getEnvironmentList_accounts ha) fun _ _ _ ha => watched_pure ⟨_, ha⟩
  | setEnv name value =>
    exact Watched.seq (setEnv_accounts ha name value) fun _ _ _ ha => watched_pure ⟨_, ha⟩
  | end_ => exact Watched.mono (end_accounts ha) fun _ _ _ h => ⟨_, h.1⟩

/-- **One operation.** -/
theorem op_owned (ho : Owned k objs p) (op : ObjectOp) :
    Watched (audit anything) k (op.run E objs) p (fun k objs p => Owned k objs p) := by
  cases op with
  | construct i =>
    simp only [ObjectOp.run]
    split
    · exact watched_pure ho
    case _ hi => exact watched_pure ⟨ho.next, ho.fresh, ho.owns.add hi rfl⟩
  | moveConstruct i j =>
    simp only [ObjectOp.run]
    split
    case _ other hi hj => exact watched_pure ⟨ho.next, ho.fresh, ho.owns.move hi hj⟩
    · exact watched_pure ho
  | moveAssign i j =>
    simp only [ObjectOp.run]
    split
    case _ self other hi hj =>
      apply watched_ite
      · exact fun _ => watched_pure ho
      · intro hij
        obtain ⟨rest, wanted, ha, hrest⟩ := ho.accounts hi
        refine watched_bind (Watched.seq (end_accounts ha) ?_)
        intro k ended p ⟨ha, hcore⟩
        have hgone := Owned.of_ended ha (congrArg Prod.fst hcore) hrest
        have hj' : Function.update objs i none j = some other := by rw [Function.update_of_ne (Ne.symm hij), hj]
        have hmoved := hgone.owns.move (i := i) (Function.update_self ..) hj'
        rw [Function.update_idem] at hmoved
        exact watched_pure (watched_pure ⟨hgone.next, hgone.fresh, hmoved⟩)
    · exact watched_pure ho
  | call i method =>
    simp only [ObjectOp.run]
    split
    case _ self hi =>
      obtain ⟨rest, wanted, ha, hrest⟩ := ho.accounts hi
      apply Watched.seq (method_accounts ha method)
      intro k self p ⟨wanted, ha⟩
      exact watched_pure (Owned.of_accounts ha hrest)
    · exact watched_pure ho
  | destroy i =>
    simp only [ObjectOp.run]
    split
    case _ self hi =>
      obtain ⟨rest, wanted, ha, hrest⟩ := ho.accounts hi
      apply Watched.seq (end_accounts ha)
      intro k ended p ⟨ha, hcore⟩
      exact watched_pure (Owned.of_ended ha (congrArg Prod.fst hcore) hrest)
    · exact watched_pure ho

/-- any number of operations -/
theorem lifetime_owned (ops : List ObjectOp) : ∀ {k objs p}, Owned k objs p →
    Watched (audit anything) k (lifetime E ops objs) p (fun k objs p => Owned k objs p) := by
  induction ops with
  | nil => exact fun ho => watched_pure ho
  | cons op ops ih => exact fun ho => Watched.seq (op_owned ho op) fun _ _ _ ho => ih ho

end Operations

/-! ## The rules of libpam -/

/-- the handle a call is made on -/
def on : PamCall → Option ℕ
  | .setConv h _ _ => some h
  | .run _ h _ => some h
  | .putenv h _ _ => some h
  | .getenvlist h => some h
  | .pamEnd h => some h
  | _ => none

/-- `undo` is the function that undoes what `fn` did -/
def Undoes (undo fn : PamFn) : Prop :=
  (undo = .closeSession ∧ fn = .openSession) ∨ (undo = .deleteCred ∧ fn = .establishCred)

/-- what `fn` does is in the status -/
def done (held : Held) : PamFn → Bool
  | .openSession => held.session
  | .establishCred => held.credentials
  | _ => false

section Status

variable {fn undo : PamFn} {held : Held} {h : ℕ} {c : PamCall} {k : Ledger Held}

theorem done_effect (hu : Undoes undo fn) : done (fn.effect true held) fn = true := by
  rcases hu with ⟨rfl, rfl⟩ | ⟨rfl, rfl⟩ <;> rfl

theorem done_undone (hu : Undoes undo fn) (ok : Bool) : done (undo.effect ok held) fn = false := by
  rcases hu with ⟨rfl, rfl⟩ | ⟨rfl, rfl⟩ <;> rfl

theorem done_settled (hs : held.Settled) (fn : PamFn) : done held fn = false := by
  cases fn with
  | establishCred => exact hs.1
  | openSession => exact hs.2
  | _ => rfl

/-- only a success of `fn` does it -/
theorem eq_of_done {f : Held → Held} (hc : c.use = .change h f) (hbefore : done held fn = false)
    (hafter : done (f held) fn = true) : c = .run fn h true := by
  rcases PamCall.use_change hc with ⟨fn', ok, rfl, hf⟩ | hf
  · rw [hf] at hafter
    cases fn' <;> cases fn <;> cases ok <;> simp_all [done, PamFn.effect]
  · rw [hf, hbefore] at hafter
    cases hafter

/-- only `undo` undoes it -/
theorem eq_of_undone (hu : Undoes undo fn) {f : Held → Held} (hc : c.use = .change h f) (hbefore : done held fn = true)
    (hafter : done (f held) fn = false) : ∃ ok, c = .run undo h ok := by
  rcases PamCall.use_change hc with ⟨fn', ok, rfl, hf⟩ | hf
  · rw [hf] at hafter
    refine ⟨ok, ?_⟩
    rcases hu with ⟨rfl, rfl⟩ | ⟨rfl, rfl⟩ <;> cases fn' <;> cases ok <;> simp_all [done, PamFn.effect]
  · rw [hf, hbefore] at hafter
    cases hafter

theorem done_of_proper (hu : Undoes undo fn) {ok : Bool} (hc : (PamCall.run undo h ok).Proper k) :
    ∃ held, k.held h = some held ∧ done held fn = true := by
  rcases hu with ⟨rfl, rfl⟩ | ⟨rfl, rfl⟩ <;> exact hc

/-- a proper call is made on a handle that is held -/
theorem held_of_proper (hc : c.Proper k) (hon : on c = some h) : (k.held h).isSome := by
  have hgood := hc.good
  cases c with
  | start service user wanted handle => cases hon
  | pamEnd n =>
    cases hon
    obtain ⟨held, hheld, -⟩ := hgood
    rw [hheld]
    rfl
  | setConv n d ok => cases hon; exact hgood
  | run fn n ok => cases hon; exact hgood
  | putenv n entry ok => cases hon; exact hgood
  | getenvlist n => cases hon; exact hgood
  | _ => cases hon

end Status

section Logs

variable {l : List (PamCall × Libpam)} {h : ℕ}

/-- the ledger of handles as the library has it -/
abbrev handles : Monitor PamCall Libpam Empty (Ledger Held) := Ledger.monitor PamCall.use Held.Settled anything

theorem split_calls {pre post : List PamCall} {c : PamCall} (hl : calls l = pre ++ c :: post) :
    ∃ l1 p l2, l = l1 ++ (c, p) :: l2 ∧ calls l1 = pre ∧ calls l2 = post := by
  obtain ⟨l1, l', rfl, h1, h'⟩ := List.map_eq_append_iff.1 hl
  obtain ⟨⟨c', p⟩, l2, rfl, rfl, h2⟩ := List.map_eq_cons_iff.1 h'
  exact ⟨l1, p, l2, rfl, h1, h2⟩

/-- what the ledger counts as taken was started -/
theorem started_of_takesIn (htake : 0 < Ledger.takesIn PamCall.use h l) :
    ∃ service user wanted, .start service user wanted (some h) ∈ calls l := by
  obtain ⟨p, hp, htakes⟩ := List.countP_pos_iff.1 htake
  cases hu : p.1.use with
  | take n held =>
    obtain ⟨service, user, wanted, hc, -⟩ := PamCall.use_take hu
    obtain rfl : n = h := by simpa [hu, Use.takes] using htakes
    exact ⟨service, user, wanted, hc ▸ List.mem_map_of_mem hp⟩
  | _ => simp [hu, Use.takes] at htakes

theorem takesIn_of_started {service user wanted : Str} (hstart : .start service user wanted (some h) ∈ calls l) :
    0 < Ledger.takesIn PamCall.use h l := by
  obtain ⟨⟨c, p⟩, hp, rfl⟩ := List.mem_map.1 hstart
  exact List.countP_pos_iff.2 ⟨_, hp, by simp [PamCall.use, Use.takes]⟩

/-- what the ledger counts as given back are the calls of `pam_end` -/
theorem givesIn_eq (l : List (PamCall × Libpam)) (h : ℕ) :
    Ledger.givesIn PamCall.use h l = (calls l).count (.pamEnd h) := by
  simp only [Ledger.givesIn, PamCall.gives_use, calls, List.count, List.countP_map]
  rfl

/-- a call is made on a handle that was started and has not been ended -/
theorem live_on_call (ha : (audit anything).accepts {} l) {pre post : List PamCall} {c : PamCall}
    (hsplit : calls l = pre ++ c :: post) (hon : on c = some h) :
    (∃ service user wanted, .start service user wanted (some h) ∈ pre) ∧ .pamEnd h ∉ pre := by
  obtain ⟨l1, p, l2, hl, rfl, -⟩ := split_calls hsplit
  have hproper := ((audit anything).accepts_split ha hl).1
  have haccepts : handles.accepts {} l := accepts_of_audit ha
  rw [hl, Monitor.accepts_append] at haccepts
  obtain ⟨htake, hgive⟩ := Ledger.taken_of_held Ledger.fresh_empty haccepts.1 rfl (held_of_proper hproper hon)
  refine ⟨started_of_takesIn htake, ?_⟩
  rw [givesIn_eq] at hgive
  exact List.count_eq_zero.1 hgive

/-- what was done on a handle is undone before its end -/
theorem undone_before_end (ha : (audit anything).accepts {} l) {before after post : List PamCall} {undo fn : PamFn}
    (hu : Undoes undo fn) (hsplit : calls l = (before ++ .run fn h true :: after) ++ .pamEnd h :: post) :
    ∃ ok, .run undo h ok ∈ after := by
  obtain ⟨l1, p, l2, hl, hpre, -⟩ := split_calls hsplit
  obtain ⟨l3, q, l4, rfl, -, rfl⟩ := split_calls hpre
  have haccepts : handles.accepts {} l := accepts_of_audit ha
  rw [hl, List.append_assoc, List.cons_append, Monitor.accepts_append, Monitor.accepts_cons] at haccepts
  obtain ⟨h3, hgood, h4⟩ := haccepts
  rw [← List.singleton_append, ← List.append_assoc, Monitor.accepts_append] at h4
  -- the status shows what was done, and is settled at the end
  obtain ⟨held, hheld⟩ := Option.isSome_iff_exists.1 (hgood.1 : (Ledger.held _ h).isSome)
  have hdone : ∀ k : Ledger Held, k.held h = some held →
      (k.step (PamCall.run fn h true).use).held h = some (fn.effect true held) := by
    intro k hk
    simp [PamCall.use, hk]
  obtain ⟨a, r, b, f, held', hab, hchange, hbefore, hafter, -⟩ := Ledger.settled_before_give
    (P := fun held => done held fn = false) (fun _ hs => done_settled hs fn) (hdone _ hheld) (by simp [done_effect hu])
    (Ledger.fresh_step (Ledger.fresh_after Ledger.fresh_empty h3) hgood.1) h4.1
    (by rw [Monitor.after_append]; exact Function.update_self ..)
  obtain ⟨ok, hr⟩ := eq_of_undone hu hchange (by simpa using hbefore) hafter
  refine ⟨ok, hr ▸ List.mem_map_of_mem ?_⟩
  have hmem : r ∈ l4 ++ [(.pamEnd h, p)] := by rw [hab]; simp
  rcases List.mem_append.1 hmem with hmem | hmem
  · exact hmem
  · rw [List.mem_singleton.1 hmem] at hr
    cases hr

/-- what is undone was done, and has not been undone since -/
theorem done_before_undo (ha : (audit anything).accepts {} l) {pre post : List PamCall} {undo fn : PamFn} {ok : Bool}
    (hu : Undoes undo fn) (hsplit : calls l = pre ++ .run undo h ok :: post) :
    ∃ before after, pre = before ++ .run fn h true :: after ∧ ∀ ok, .run undo h ok ∉ after := by
  obtain ⟨l1, p, l2, hl, rfl, -⟩ := split_calls hsplit
  have hproper := ((audit anything).accepts_split ha hl).1
  obtain ⟨held, hheld, hdone⟩ := done_of_proper hu hproper
  have hheld : (handles.after {} l1).held h = some held := hheld
  have htake : ∀ q ∈ l1, ∀ b, q.1.use = .take h b → ¬ done b fn = true := by
    intro q _ b hb
    obtain ⟨_, _, _, -, rfl⟩ := PamCall.use_take hb
    rw [done_settled ⟨rfl, rfl⟩]
    simp
  obtain ⟨a, q, b, f, c, rfl, hchange, hbefore, hafter, hsince⟩ := Ledger.lasts_since
    (P := fun held => done held fn = true) (by simp) htake hheld hdone
  refine ⟨calls a, calls b, ?_, ?_⟩
  · rw [calls_append, calls_cons, eq_of_done hchange (by simpa using hbefore) hafter]
  · intro ok hmem
    obtain ⟨⟨c', p'⟩, hp', rfl⟩ := List.mem_map.1 hmem
    obtain ⟨mid, rest, hb⟩ := List.append_of_mem hp'
    obtain ⟨d, hd, hlast⟩ := hsince mid _ rest hb
    rw [Monitor.after_append] at hd
    have hstep : ∀ k : Ledger Held, (k.step (PamCall.run undo h ok).use).held h = some d → done d fn = false := by
      intro k hk
      rw [PamCall.use, Ledger.step_change, Function.update_self] at hk
      obtain ⟨d', -, rfl⟩ := Option.map_eq_some_iff.1 hk
      exact done_undone hu ok
    exact absurd (hlast.symm.trans (hstep _ hd)) (by simp)

end Logs

/-- **PamAuth respects the life of a handle.** In every lifetime of any number of objects, with any answers of libpam:
1. a call is made on a handle that was started and has not been ended;
2. when no object is left, every started handle has been ended exactly once;
3. when a handle is ended, what was done on it has been undone;
4. it is undone only when it was done and has not been undone since. -/
theorem libpam_lifecycle (E : PamEnv) (ops : List ObjectOp) :
    let run := lifetime E ops (fun _ => none) {}
    let cs := calls run.log
    (∀ pre c post h, cs = pre ++ c :: post → on c = some h →
      (∃ service user wanted, .start service user wanted (some h) ∈ pre) ∧ .pamEnd h ∉ pre) ∧
    (∀ objs, run.fin = .ok objs → (∀ i, objs i = none) →
      ∀ service user wanted h, .start service user wanted (some h) ∈ cs → cs.count (.pamEnd h) = 1) ∧
    (∀ pre post h, cs = pre ++ .pamEnd h :: post → ∀ undo fn, Undoes undo fn →
      ∀ before after, pre = before ++ .run fn h true :: after → ∃ ok, .run undo h ok ∈ after) ∧
    (∀ pre post h ok undo fn, Undoes undo fn → cs = pre ++ .run undo h ok :: post →
      ∃ before after, pre = before ++ .run fn h true :: after ∧ ∀ ok, .run undo h ok ∉ after) := by
  intro run cs
  have howned : Owned {} (fun _ => none) {} := ⟨rfl, Ledger.fresh_empty, Owns.nothing⟩
  have hrun := lifetime_owned (E := E) ops howned
  have haudit : (audit anything).accepts {} run.log := Watched.accepts hrun
  refine ⟨?_, ?_, ?_, ?_⟩
  · exact fun pre c post h hsplit hon => live_on_call haudit hsplit hon
  · intro objs hfin hnone service user wanted h hstart
    have hend : Owned ((audit anything).after {} run.log) objs run.st := (Sat.of_ok hrun hfin).2
    rw [← givesIn_eq]
    apply Ledger.gives_eq_one Ledger.fresh_empty (accepts_of_audit haudit) _ (takesIn_of_started hstart)
    by_contra hheld
    obtain ⟨i, self, hi, -⟩ := hend.owns.holder h (Option.ne_none_iff_isSome.1 hheld)
    rw [hnone i] at hi
    cases hi
  · intro pre post h hsplit undo fn hu before after hpre
    rw [hpre] at hsplit
    exact undone_before_end haudit hu hsplit
  · exact fun pre post h ok undo fn hu hsplit => done_before_undo haudit hu hsplit

/-- a session that is opened on one object, and ended by the object it was moved to -/
example : calls (lifetime { ret := fun _ => pamSuccess, strerror := fun _ => [], modules := fun _ => [] }
    [.construct 0, .call 0 (.start (lit "alice") (lit "miqudm")), .call 0 .openSession, .moveConstruct 1 0, .destroy 0,
      .moveAssign 1 1, .destroy 1] (fun _ => none) {}).log =
    [.start (lit "miqudm") (lit "alice") (lit "miqudm") (some 0), .run .openSession 0 true, .run .closeSession 0 true,
      .pamEnd 0] := by decide +kernel

end Miqudm.PamObjects
