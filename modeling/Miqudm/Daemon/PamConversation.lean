/-
The PAM conversation and the life of its data.

`authenticate` installs a pointer to a local `PamUserData` in its handle, and nothing takes it out again when the local
is gone. So whether the conversation of a later call meets a live object depends on what was called on the handle
before. This file runs any sequence of `PamAuth` operations on any number of objects (`performAll`), with any answers of
libpam: the log shows every operation with the state it starts in, and every libpam call.

`conversation_iff`: every call that may run the conversation meets no object or a live one (`sound`) exactly when no
operation but `authenticate` runs the modules of a handle on which an `authenticate` has installed its conversation
(`Fit`). Between two operations no `PamUserData` object is alive, so a pointer installed by an earlier one is dead.
-/
import Miqudm.Daemon.PamSteps
import Mathlib.Logic.Function.Basic

namespace Miqudm.PamConversation

open Miqudm.Core Prog

/-! ## Operations on `PamAuth` objects -/

inductive PamOp where
  | start (i : ℕ) (username serviceName : Str)
  | authenticate (i : ℕ) (password : Str)
  | checkAccount (i : ℕ)
  | establishCredentials (i : ℕ)
  | openSession (i : ℕ)
  | closeSession (i : ℕ)
  | deleteCredentials (i : ℕ)
  /-- `end`, which is also the destructor -/
  | end_ (i : ℕ)
  /-- the object `i` is move-assigned from `j`; on a new object `i` this is the move construction -/
  | move (i j : ℕ)
deriving DecidableEq, Repr

/-- the objects by their numbers, all of them new at first, and libpam -/
structure PamSt where
  objs : ℕ → PamAuth := fun _ => {}
  libpam : Libpam := {}

inductive PamEvent where
  | called (op : PamOp)
  | call (call : PamCall)
  | returned
deriving DecidableEq, Repr

section Run

variable (E : PamEnv)

/-- the method of the operation, and the objects after it -/
def PamOp.run (objs : ℕ → PamAuth) : PamOp → PamM (ℕ → PamAuth)
  | .start i username serviceName => do
    let (_, self) ← (objs i).start E username serviceName
    return Function.update objs i self
  | .authenticate i password => do
    let (_, self) ← (objs i).authenticate E password
    return Function.update objs i self
  | .checkAccount i => do
    let (_, self) ← (objs i).checkAccount E
    return Function.update objs i self
  | .establishCredentials i => do
    let (_, self) ← (objs i).establishCredentials E
    return Function.update objs i self
  | .openSession i => do
    let (_, self) ← (objs i).openSession E
    return Function.update objs i self
  | .closeSession i => do
    let (_, self) ← (objs i).closeSession E
    return Function.update objs i self
  | .deleteCredentials i => do
    let (_, self) ← (objs i).deleteCredentials E
    return Function.update objs i self
  | .end_ i => do
    let self ← (objs i).end_ E
    return Function.update objs i self
  | .move i j =>
    if i = j then return objs
    else do
      let (self, other) ← (objs i).moveAssign E (objs j)
      return Function.update (Function.update objs i self) j other

def perform (op : PamOp) : Prog PamSt PamEvent Empty Unit := do
  Prog.act (.called op) id
  let objs ← Prog.zoom PamSt.libpam (fun p s => { s with libpam := p }) PamEvent.call (op.run E (← Prog.get).objs)
  Prog.act .returned fun s => { s with objs }

def performAll : List PamOp → Prog PamSt PamEvent Empty Unit
  | [] => return ()
  | op :: ops => do
    perform E op
    performAll ops

end Run

/-! ## The conversation -/

/-- the appdata pointer in the PAM_CONV item of a handle -/
def appdata (p : Libpam) (h : ℕ) : Option ℕ := (p.handle? h).bind Handle.conv

def alive (p : Libpam) (d : ℕ) : Bool := (p.objects.lookup d).isSome

/-- a conversation on the handle meets no object, or a live one -/
def converses (p : Libpam) (h : ℕ) : Bool :=
  match appdata p h with
  | none => true
  | some d => alive p d

/-- a call that may run the conversation does so soundly -/
def sound (p : Libpam) : PamCall → Bool
  | .run _ h _ => converses p h
  | _ => true

/-- the object that the methods of an operation are called on -/
def PamOp.target : PamOp → ℕ
  | .start i _ _ => i
  | .authenticate i _ => i
  | .checkAccount i => i
  | .establishCredentials i => i
  | .openSession i => i
  | .closeSession i => i
  | .deleteCredentials i => i
  | .end_ i => i
  | .move i _ => i

/-- the operation, called on `self`, runs modules with a conversation that it did not install itself -/
def PamOp.relies (self : PamAuth) : PamOp → Bool
  | .start _ _ _ => self.sessionOpened || self.credentialsSet
  | .authenticate _ _ => false
  | .checkAccount _ => true
  | .establishCredentials _ => true
  | .openSession _ => true
  | .closeSession _ => self.sessionOpened
  | .deleteCredentials _ => self.credentialsSet
  | .end_ _ => self.sessionOpened || self.credentialsSet
  | .move i j => i ≠ j && (self.sessionOpened || self.credentialsSet)

/-- an `authenticate` has installed its conversation in the object's handle -/
def prompted (p : Libpam) (self : PamAuth) : Bool := (self.pamHandle.bind (appdata p)).isSome

def Fit (op : PamOp) (s : PamSt) : Prop := prompted s.libpam (s.objs op.target) → op.relies (s.objs op.target) = false

/-! ## What the methods call -/

def AllSound (l : List (PamCall × Libpam)) : Prop := ∀ m ∈ l, sound m.2 m.1 = true

theorem allSound_append (l l' : List (PamCall × Libpam)) : AllSound (l ++ l') ↔ AllSound l ∧ AllSound l' :=
  List.forall_mem_append

section Methods

variable {E : PamEnv} {self : PamAuth} {p p' p'' : Libpam} {h : ℕ} {l l' : List (PamCall × Libpam)}

/-- the modules of the handle `h` are run, if `relies`, with the conversation it has, and it keeps it -/
structure Runs (h : ℕ) (relies : Bool) (p : Libpam) (l : List (PamCall × Libpam)) (p' : Libpam) : Prop where
  sound : AllSound l ↔ (relies = true → converses p h = true)
  appdata : appdata p' h = appdata p h
  objects : p'.objects = p.objects

theorem converses_congr (ha : appdata p' h = appdata p h) (ho : p'.objects = p.objects) :
    converses p' h = converses p h := by
  rw [converses, converses, ha]
  simp only [alive, ho]

theorem Runs.refl (h : ℕ) (p : Libpam) : Runs h false p [] p := ⟨by simp [AllSound], rfl, rfl⟩

theorem Runs.trans {relies relies' : Bool} (hr : Runs h relies p l p') (hr' : Runs h relies' p' l' p'') :
    Runs h (relies || relies') p (l ++ l') p'' where
  sound := by
    rw [allSound_append, hr.sound, hr'.sound, converses_congr hr.appdata hr.objects]
    cases relies <;> cases relies' <;> simp
  appdata := hr'.appdata.trans hr.appdata
  objects := hr'.objects.trans hr.objects

theorem pamRun_runs (fn : PamFn) : Sat (pamRun E fn h) p (fun l _ p' => Runs h true p l p') (fun _ _ _ => True) := by
  simp only [pamRun, sat_bind, sat_get, sat_act, sat_pure, List.nil_append, List.append_nil]
  have happ : ∀ env : Handle → List Str,
      appdata (p.onHandle h fun hd => { hd with env := env hd }) h = appdata p h := by
    intro env
    rw [appdata, Libpam.handle?_onHandle (f := fun hd => { hd with env := env hd }) (fun _ => rfl), appdata]
    cases p.handle? h <;> rfl
  refine ⟨?_, happ _, rfl⟩
  simp only [AllSound, List.mem_singleton, forall_eq, sound, true_implies]
  rw [converses_congr (happ _) rfl]

theorem runStep_runs (hh : self.pamHandle = some h) (fn : PamFn) (noted : PamAuth) :
    Sat (self.runStep E fn noted) p (fun l _ p' => Runs h true p l p') (fun _ _ _ => True) := by
  simp only [PamAuth.runStep, hh, sat_bind]
  refine Sat.mono (pamRun_runs fn) (fun l ret p' hr => ?_) fun _ _ _ _ => trivial
  simp only [sat_ite, sat_pure, List.append_nil]
  exact ⟨fun _ => hr, fun _ => hr⟩

theorem undoStep_runs (hh : self.pamHandle = some h) (pending : Bool) (fn : PamFn) (cleared : PamAuth) :
    Sat (self.undoStep E pending fn cleared) p (fun l _ p' => Runs h pending p l p') (fun _ _ _ => True) := by
  simp only [PamAuth.undoStep, hh]
  cases pending with
  | false => exact Runs.refl h p
  | true =>
    refine (sat_ite _ _ _).2 ⟨fun hn => absurd rfl hn, fun _ => (sat_bind _ _).2 ?_⟩
    refine Sat.mono (pamRun_runs fn) (fun l ret p' hr => ?_) fun _ _ _ _ => trivial
    simp only [sat_ite, sat_pure, List.append_nil]
    exact ⟨fun _ => hr, fun _ => hr⟩

/-- ending a handle runs its modules for what is still to be undone -/
theorem endHandle_runs (hh : self.pamHandle = some h) :
    Sat (self.endHandle E h) p
      (fun l _ p' => (AllSound l ↔ (self.sessionOpened || self.credentialsSet) = true → converses p h = true) ∧
        p'.objects = p.objects)
      (fun _ _ _ => True) := by
  have hclose : Sat (self.closeOpened E) p (fun l r p' => Runs h self.sessionOpened p l p' ∧
      r.core = (some h, self.credentialsSet, false)) (fun _ _ _ => True) := by
    refine Sat.mono (Sat.and (?_ : Sat _ p (fun l _ p' => Runs h self.sessionOpened p l p') (fun _ _ _ => True))
      (PamAuth.closeOpened_spec hh)) (fun _ _ _ h => ⟨h.1, h.2.2⟩) fun _ _ _ _ => trivial
    unfold PamAuth.closeOpened
    refine (sat_ite _ _ _).2 ⟨fun hs => (sat_bind _ _).2 ?_, fun hs => ?_⟩
    · refine Sat.mono (undoStep_runs hh _ _ _) (fun l r p' hr => ?_) fun _ _ _ _ => trivial
      simpa using hr
    · rw [Bool.not_eq_true] at hs
      rw [hs]
      exact Runs.refl h p
  have hdelete : ∀ (self : PamAuth) (p : Libpam), self.pamHandle = some h →
      Sat (self.deleteSet E) p (fun l _ p' => Runs h self.credentialsSet p l p') (fun _ _ _ => True) := by
    intro self p hh
    unfold PamAuth.deleteSet
    refine (sat_ite _ _ _).2 ⟨fun hs => (sat_bind _ _).2 ?_, fun hs => ?_⟩
    · refine Sat.mono (undoStep_runs hh _ _ _) (fun l r p' hr => ?_) fun _ _ _ _ => trivial
      simpa using hr
    · rw [Bool.not_eq_true] at hs
      rw [hs]
      exact Runs.refl h p
  refine (sat_bind _ _).2 (Sat.mono hclose (fun l self' q ⟨hr, hcore⟩ => ?_) fun _ _ _ _ => trivial)
  have hh' : self'.pamHandle = some h := congrArg Prod.fst hcore
  have hc' : self'.credentialsSet = self.credentialsSet := congrArg (fun c => c.2.1) hcore
  refine (sat_bind _ _).2 (Sat.mono (hdelete self' q hh') (fun l' self'' q' hr' => ?_) fun _ _ _ _ => trivial)
  have hboth := hr.trans hr'
  simp only [pamEnd, sat_bind, sat_act, sat_pure, List.append_nil]
  refine ⟨?_, hboth.objects⟩
  rw [← List.append_assoc, allSound_append, hboth.sound, hc']
  exact and_iff_left (by simp [AllSound, sound])

/-- a method called while no `PamUserData` object is alive: its calls are sound exactly if it does not rely on a
conversation installed before -/
structure Rightly (auth : PamAuth) (relies : Bool) (p : Libpam) (l : List (PamCall × Libpam)) (p' : Libpam) : Prop where
  sound : AllSound l ↔ (prompted p auth = true → relies = false)
  objects : p'.objects = []

/-- without objects, a conversation is sound when there is no pointer -/
theorem converses_iff (hp : p.objects = []) (hh : self.pamHandle = some h) :
    converses p h = true ↔ ¬ prompted p self = true := by
  rw [prompted, hh, Option.bind_some, converses]
  cases appdata p h <;> simp [alive, hp]

theorem Rightly.of_runs {relies : Bool} (hp : p.objects = []) (hh : self.pamHandle = some h)
    (hl : AllSound l ↔ (relies = true → converses p h = true)) (ho : p'.objects = p.objects) :
    Rightly self relies p l p' where
  sound := by
    rw [hl, converses_iff hp hh]
    cases relies <;> simp
  objects := ho.trans hp

/-- without a handle nothing is called -/
theorem Rightly.of_none (hp : p.objects = []) (hh : self.pamHandle = none) (relies : Bool) :
    Rightly self relies p [] p := ⟨by simp [AllSound, prompted, hh], hp⟩

theorem runStep_rightly (hp : p.objects = []) (fn : PamFn) (noted : PamAuth) :
    Sat (self.runStep E fn noted) p (fun l _ p' => Rightly self true p l p') (fun _ _ _ => True) := by
  cases hh : self.pamHandle with
  | none =>
    simp only [PamAuth.runStep, hh, sat_pure]
    exact Rightly.of_none hp hh true
  | some h =>
    exact Sat.mono (runStep_runs hh fn noted) (fun _ _ _ hr => Rightly.of_runs hp hh hr.sound hr.objects)
      fun _ _ _ _ => trivial

theorem undoStep_rightly (hp : p.objects = []) (pending : Bool) (fn : PamFn) (cleared : PamAuth) :
    Sat (self.undoStep E pending fn cleared) p (fun l _ p' => Rightly self pending p l p') (fun _ _ _ => True) := by
  cases hh : self.pamHandle with
  | none =>
    rw [PamAuth.undoStep_none hh]
    exact Rightly.of_none hp hh pending
  | some h =>
    exact Sat.mono (undoStep_runs hh pending fn cleared) (fun _ _ _ hr => Rightly.of_runs hp hh hr.sound hr.objects)
      fun _ _ _ _ => trivial

theorem end_rightly (hp : p.objects = []) :
    Sat (self.end_ E) p (fun l _ p' => Rightly self (self.sessionOpened || self.credentialsSet) p l p')
      (fun _ _ _ => True) := by
  cases hh : self.pamHandle with
  | none =>
    rw [PamAuth.end_none hh]
    exact Rightly.of_none hp hh _
  | some h =>
    simp only [PamAuth.end_, hh, sat_bind]
    refine Sat.mono (endHandle_runs hh) (fun l _ p' hr => ?_) fun _ _ _ _ => trivial
    rw [sat_pure, List.append_nil]
    exact Rightly.of_runs hp hh hr.1 hr.2

theorem pamStart_sound (service user wanted : Str) :
    Sat (pamStart E service user wanted) p (fun l _ p' => AllSound l ∧ p'.objects = p.objects) (fun _ _ _ => True) := by
  simp only [pamStart, sat_bind, sat_get, sat_ite, sat_act, sat_pure]
  refine ⟨fun _ => ?_, fun _ => ?_⟩ <;> simp [AllSound, sound]

/-- starting a handle runs no modules and makes no object -/
theorem startHandle_sound (username serviceName : Str) :
    Sat (PamAuth.startHandle E username serviceName) p (fun l _ p' => AllSound l ∧ p'.objects = p.objects)
      (fun _ _ _ => True) := by
  refine (sat_bind _ _).2 (Sat.mono (pamStart_sound _ _ _) ?_ fun _ _ _ _ => trivial)
  rintro l ⟨ret, h⟩ q ⟨hl, ho⟩
  refine (sat_ite _ _ _).2 ⟨fun _ => ?_, fun _ => ?_⟩
  · refine Sat.mono (pamStart_sound _ _ _) (fun l' _ q' ⟨hl', ho'⟩ => ?_) fun _ _ _ _ => trivial
    exact ⟨(allSound_append _ _).2 ⟨hl, hl'⟩, ho'.trans ho⟩
  · exact ⟨by rw [List.append_nil]; exact hl, ho⟩

theorem start_rightly (hp : p.objects = []) (username serviceName : Str) :
    Sat (self.start E username serviceName) p
      (fun l _ p' => Rightly self (self.sessionOpened || self.credentialsSet) p l p') (fun _ _ _ => True) := by
  refine (sat_bind _ _).2 (Sat.mono (end_rightly hp) (fun l _ q hr => ?_) fun _ _ _ _ => trivial)
  refine (sat_bind _ _).2 (Sat.mono (startHandle_sound username serviceName) ?_ fun _ _ _ _ => trivial)
  rintro l' ⟨ret, h⟩ q' ⟨hl', ho⟩
  have hboth : Rightly self (self.sessionOpened || self.credentialsSet) p (l ++ l') q' :=
    ⟨by rw [allSound_append, and_iff_left hl']; exact hr.sound, ho.trans hr.objects⟩
  simp only [sat_ite, sat_pure, List.append_nil]
  exact ⟨fun _ => hboth, fun _ => hboth⟩

/-- one `PamUserData` object is alive, the number `d` -/
def Own (d : ℕ) (p : Libpam) : Prop := ∃ password, p.objects = [(d, password)]

theorem newUserData_sound (hp : p.objects = []) (password : Str) :
    Sat (newUserData password) p (fun l d p' => AllSound l ∧ Own d p') (fun _ _ _ => True) := by
  simp only [newUserData, sat_bind, sat_get, sat_act, sat_pure]
  exact ⟨by simp [AllSound, sound], password, by rw [hp]⟩

theorem wipeUserData_sound {d : ℕ} (hp : Own d p) :
    Sat (wipeUserData d) p (fun l _ p' => AllSound l ∧ Own d p') (fun _ _ _ => True) := by
  obtain ⟨password, hp⟩ := hp
  rw [wipeUserData, sat_act]
  exact ⟨by simp [AllSound, sound], [], by simp [hp]⟩

theorem freeUserData_sound {d : ℕ} (hp : Own d p) :
    Sat (freeUserData d) p (fun l _ p' => AllSound l ∧ p'.objects = []) (fun _ _ _ => True) := by
  obtain ⟨password, hp⟩ := hp
  rw [freeUserData, sat_act]
  exact ⟨by simp [AllSound, sound], by simp [hp]⟩

/-- once the pointer to it is installed, the conversation meets the object -/
theorem pamSetConv_sound {d : ℕ} (hp : Own d p) :
    Sat (pamSetConv E h d) p (fun l ret p' => AllSound l ∧ Own d p' ∧ (ret = pamSuccess → converses p' h = true))
      (fun _ _ _ => True) := by
  obtain ⟨password, hp⟩ := hp
  simp only [pamSetConv, sat_bind, sat_get, sat_act, sat_pure]
  refine ⟨by simp [AllSound, sound], ⟨password, hp⟩, fun hret => ?_⟩
  have happ : ∀ d', appdata (p.onHandle h fun hd => { hd with conv := some d }) h = some d' → d' = d := by
    intro d' hd'
    rw [appdata, Libpam.handle?_onHandle (f := fun hd => { hd with conv := some d }) (fun _ => rfl)] at hd'
    cases hfind : p.handle? h with
    | none => simp [hfind] at hd'
    | some hd => simpa [hfind, eq_comm] using hd'
  simp only [hret, if_true, converses]
  cases hconv : appdata (p.onHandle h fun hd => { hd with conv := some d }) h with
  | none => rfl
  | some d' =>
    rw [happ d' hconv]
    simp [alive, Libpam.onHandle, hp]

/-- `authenticate` converses with its own object, which is gone when it returns -/
theorem authenticate_rightly (hp : p.objects = []) (password : Str) :
    Sat (self.authenticate E password) p (fun l _ p' => Rightly self false p l p') (fun _ _ _ => True) := by
  cases hh : self.pamHandle with
  | none =>
    simp only [PamAuth.authenticate, hh, sat_pure]
    exact Rightly.of_none hp hh false
  | some h =>
    simp only [PamAuth.authenticate, hh]
    refine (sat_bind _ _).2 (Sat.mono (newUserData_sound hp password) (fun l1 d q1 hnew => ?_) fun _ _ _ _ => trivial)
    obtain ⟨hl1, ho1⟩ := hnew
    refine (sat_bind _ _).2 (Sat.mono (pamSetConv_sound ho1) (fun l2 ret q2 hset => ?_) fun _ _ _ _ => trivial)
    obtain ⟨hl2, ho2, hconv⟩ := hset
    have rightly : ∀ {l q}, AllSound l → q.objects = [] → Rightly self false p (l1 ++ (l2 ++ l)) q := fun hl hq =>
      ⟨by simp [allSound_append, hl1, hl2, hl], hq⟩
    refine (sat_ite _ _ _).2 ⟨fun _ => ?_, fun hret => ?_⟩
    · refine (sat_bind _ _).2 (Sat.mono (freeUserData_sound ho2) (fun l3 _ q3 hfree => ?_) fun _ _ _ _ => trivial)
      obtain ⟨hl3, ho3⟩ := hfree
      rw [sat_pure, List.append_nil]
      exact rightly hl3 ho3
    · refine (sat_bind _ _).2 ((sat_get).2 ((sat_bind _ _).2 ?_))
      refine Sat.mono (pamRun_runs _) (fun l3 ret' q3 hr => ?_) fun _ _ _ _ => trivial
      have hl3 : AllSound l3 := hr.sound.2 fun _ => hconv (not_not.1 hret)
      have ho3 : Own d q3 := ho2.imp fun _ h => hr.objects.trans h
      have wiped : Sat (Prog.when (password ≠ []) (wipeUserData d)) q3 (fun l _ p' => AllSound l ∧ Own d p')
          (fun _ _ _ => True) :=
        (sat_when _ _).2 ⟨fun _ => wipeUserData_sound ho3, fun _ => ⟨by simp [AllSound], ho3⟩⟩
      refine (sat_bind _ _).2 (Sat.mono wiped (fun l4 _ q4 hwipe => ?_) fun _ _ _ _ => trivial)
      obtain ⟨hl4, ho4⟩ := hwipe
      refine (sat_bind _ _).2 (Sat.mono (freeUserData_sound ho4) (fun l5 _ q5 hfree => ?_) fun _ _ _ _ => trivial)
      obtain ⟨hl5, ho5⟩ := hfree
      have hall : AllSound (l3 ++ (l4 ++ l5)) := by simp [allSound_append, hl3, hl4, hl5]
      simp only [sat_ite, sat_pure, List.append_nil, List.nil_append]
      exact ⟨fun _ => rightly hall ho5, fun _ => rightly hall ho5⟩

/-- what becomes of the objects does not matter to the calls -/
theorem sat_update {α β : Type} {x : PamM α} {R : List (PamCall × Libpam) → Libpam → Prop}
    (hx : Sat x p (fun l _ p' => R l p') (fun _ _ _ => True)) (f : α → β) :
    Sat (x >>= fun a => pure (f a)) p (fun l _ p' => R l p') (fun _ _ _ => True) := by
  refine (sat_bind _ _).2 (Sat.mono hx (fun l a p' hr => ?_) fun _ _ _ _ => trivial)
  rw [sat_pure, List.append_nil]
  exact hr

/-- **One operation.** -/
theorem run_rightly (hp : p.objects = []) (objs : ℕ → PamAuth) (op : PamOp) :
    Sat (op.run E objs) p (fun l _ p' => Rightly (objs op.target) (op.relies (objs op.target)) p l p')
      (fun _ _ _ => True) := by
  cases op with
  | start i username serviceName => exact sat_update (start_rightly hp username serviceName) _
  | authenticate i password => exact sat_update (authenticate_rightly hp password) _
  | checkAccount i => exact sat_update (runStep_rightly hp _ _) _
  | establishCredentials i => exact sat_update (runStep_rightly hp _ _) _
  | openSession i => exact sat_update (runStep_rightly hp _ _) _
  | closeSession i => exact sat_update (undoStep_rightly hp _ _ _) _
  | deleteCredentials i => exact sat_update (undoStep_rightly hp _ _ _) _
  | end_ i => exact sat_update (end_rightly hp) _
  | move i j =>
    refine (sat_ite _ _ _).2 ⟨fun hij => ?_, fun hij => ?_⟩
    · rw [sat_pure]
      exact ⟨by simp [AllSound, PamOp.relies, hij], hp⟩
    · have hrelies : PamOp.relies (objs i) (.move i j) = ((objs i).sessionOpened || (objs i).credentialsSet) := by
        simp [PamOp.relies, hij]
      rw [show PamOp.target (.move i j) = i from rfl, hrelies]
      exact sat_update (sat_update (end_rightly hp) _) _

end Methods

/-! ## Whole runs -/

def CallsSound (l : List (PamEvent × PamSt)) : Prop := ∀ c s, (.call c, s) ∈ l → sound s.libpam c = true

def StepsFit (l : List (PamEvent × PamSt)) : Prop := ∀ op s, (.called op, s) ∈ l → Fit op s

section Runs

variable (E : PamEnv)

/-- the log of one operation -/
def opLog (op : PamOp) (s t : PamSt) (l : List (PamCall × Libpam)) : List (PamEvent × PamSt) :=
  (.called op, s) :: (l.map fun m => (.call m.1, { s with libpam := m.2 })) ++ [(.returned, t)]

theorem callsSound_opLog (op : PamOp) (s t : PamSt) (l : List (PamCall × Libpam)) :
    CallsSound (opLog op s t l) ↔ AllSound l := by
  constructor
  · intro h m hm
    apply h m.1 { s with libpam := m.2 }
    exact List.mem_append_left _ (List.mem_cons_of_mem _ (List.mem_map_of_mem hm))
  · intro h c u hu
    obtain ⟨m, hm, rfl, rfl⟩ : ∃ m ∈ l, m.1 = c ∧ { s with libpam := m.2 } = u := by simpa [opLog] using hu
    exact h m hm

theorem stepsFit_opLog (op : PamOp) (s t : PamSt) (l : List (PamCall × Libpam)) :
    StepsFit (opLog op s t l) ↔ Fit op s := by
  constructor
  · exact fun h => h op s (by simp [opLog])
  · intro h op' u hu
    obtain ⟨rfl, rfl⟩ : op' = op ∧ u = s := by simpa [opLog] using hu
    exact h

theorem perform_iff {s : PamSt} (hs : s.libpam.objects = []) (op : PamOp) :
    Sat (perform E op) s (fun l _ t => (CallsSound l ↔ StepsFit l) ∧ t.libpam.objects = []) (fun _ _ _ => True) := by
  unfold perform
  simp only [sat_bind, sat_act, sat_get, sat_zoom]
  refine Sat.mono (run_rightly hs s.objs op) (fun l objs p hr => ⟨?_, hr.objects⟩) fun _ _ _ _ => trivial
  calc CallsSound (opLog op s ⟨objs, p⟩ l) ↔ AllSound l := callsSound_opLog op s ⟨objs, p⟩ l
    _ ↔ Fit op s := hr.sound
    _ ↔ StepsFit (opLog op s ⟨objs, p⟩ l) := (stepsFit_opLog op s ⟨objs, p⟩ l).symm

theorem performAll_iff : ∀ (ops : List PamOp) {s : PamSt}, s.libpam.objects = [] →
    Sat (performAll E ops) s (fun l _ _ => CallsSound l ↔ StepsFit l) (fun _ _ _ => True) := by
  intro ops
  induction ops with
  | nil => exact fun _ => by simp [performAll, CallsSound, StepsFit]
  | cons op ops ih =>
    intro s hs
    refine (sat_bind _ _).2 (Sat.mono (perform_iff E hs op) (fun l _ t ⟨hl, ht⟩ => ?_) fun _ _ _ _ => trivial)
    refine Sat.mono (ih ht) (fun l' _ _ hl' => ?_) fun _ _ _ _ => trivial
    have hcalls : CallsSound (l ++ l') ↔ CallsSound l ∧ CallsSound l' := by
      simp only [CallsSound, List.mem_append, or_imp, forall_and]
    have hsteps : StepsFit (l ++ l') ↔ StepsFit l ∧ StepsFit l' := by
      simp only [StepsFit, List.mem_append, or_imp, forall_and]
    rw [hcalls, hsteps, hl, hl']

end Runs

/-- **When the conversation meets a live object.** In every run of `PamAuth` operations, with any answers of libpam: the
calls that may run the conversation are all sound exactly when every operation is fit. -/
theorem conversation_iff (E : PamEnv) (ops : List PamOp) :
    (∀ c s, (.call c, s) ∈ (performAll E ops {}).log → sound s.libpam c = true) ↔
      ∀ op s, (.called op, s) ∈ (performAll E ops {}).log → Fit op s :=
  Sat.log (P := fun l => CallsSound l ↔ StepsFit l) (Sat.mono (performAll_iff E ops (s := {}) rfl) (fun _ _ _ h => h)
    fun _ e _ _ => e.elim)

/-! ## Witnesses -/

/-- libpam in good health -/
def willing : PamEnv := { ret := fun _ => pamSuccess, strerror := fun _ => [], modules := fun _ => [] }

/-- the first three operations of a login -/
def loginOps : List PamOp :=
  [.start 0 (lit "alice") (lit "miqudm"), .authenticate 0 (lit "secret"), .checkAccount 0]

/-- the account check converses with an object that died with `authenticate` -/
theorem conversation_with_the_dead :
    ¬ ∀ c s, (.call c, s) ∈ (performAll willing loginOps {}).log → sound s.libpam c = true := by
  intro h
  have hdead : ((performAll willing loginOps {}).log.any fun m =>
      match m.1 with
      | .call c => sound m.2.libpam c = false
      | _ => false) = true := by decide +kernel
  obtain ⟨⟨e, s⟩, hm, he⟩ := List.any_eq_true.1 hdead
  cases e with
  | call c =>
    have hc : sound s.libpam c = false := by simpa using he
    exact absurd ((h c s hm).symm.trans hc) (by simp)
  | _ => cases he

end Miqudm.PamConversation
