/-
The seat: the display is one greeter's or one session's at a time.

`Seat` is the abstract display manager: who sits at the display, whether a greeter was asked to go and how often it was
then found running, and whether there was a pause since a greeter came or went. `deed` is what the daemon's events are
for the seat: a fork that gives a child seats it, signals and waits meet whoever sits there, a wait that reports its end
vacates the seat. `history_seated` says that every run of the daemon is a run of the seat.

A process is seen to end when a wait reports its end, or fails on a session or on a greeter that was asked to go.

- `seat_rules`: processes are forked for a vacant seat after a pause only; signals go to a greeter that was forked and
  has not been seen to end, SIGKILL after SIGTERM and twenty waits; waits are for whoever sits there; and the daemon does
  not finish before the seat is vacant;
- `children_balance`: the children that were forked are the ones seen to end, and at most one that is still there;
- `closed_when_vacant`: a PAM session is closed when every process that was forked before has been seen to end;
- `paused_between`: between a greeter's fork or its end and the next fork there is a pause.
-/
import Miqudm.Core.Tenancy
import Miqudm.Daemon.Domestic
import Miqudm.Daemon.Supervision

namespace Miqudm.Seating

open Miqudm.Core Prog

/-! ## The abstract display manager -/

/-- who sits at the display -/
structure Occupant where
  what : ChildKind
  pid : ℤ
  /-- once it was asked to go: how many waits have found it running -/
  asked : Option ℕ := none
deriving DecidableEq, Repr

namespace Occupant

/-- signals are for greeters, and SIGKILL is for one that did not go -/
def maySignal (pid : ℤ) (sig : Signal) (o : Occupant) : Prop :=
  o.what = .greeter ∧ (pid = o.pid ∨ pid = -o.pid) ∧ (sig = .sigkill → o.asked = some 20)

def signal (sig : Signal) (o : Occupant) : Occupant :=
  match sig with
  | .sigterm => { o with asked := some 0 }
  | .sigkill => o

/-- what a wait that does not block makes of a greeter; one that was not asked to go is kept when the wait fails -/
def wait (answer : WaitAnswer) (o : Occupant) : Option Occupant :=
  match answer with
  | .reaped _ => none
  | .running => some { o with asked := o.asked.map (· + 1) }
  | .failed => if o.asked.isSome then none else some o

end Occupant

/-- the call closes a PAM session -/
def closes : PamCall → Bool
  | .run .closeSession _ _ => true
  | _ => false

/-- what an event is for the seat; a PAM session is to be closed when the process it was opened for has gone -/
def deed : Event → Deed Occupant
  | .fork what (some r) => .enter { what, pid := r.1 }
  | .fork _ none => .vacant
  | .launch _ _ => .vacant
  | .kill pid sig => .meet (·.maySignal pid sig) fun o => some (o.signal sig)
  | .waitpid pid answer => .meet (fun o => o.what = .greeter ∧ o.pid = pid) (·.wait answer)
  | .waiting pid => .meet (fun o => o.what = .session ∧ o.pid = pid) some
  | .waitInterrupted pid => .meet (fun o => o.what = .session ∧ o.pid = pid) some
  | .waitDone pid _ => .meet (fun o => o.pid = pid ∧ (o.what = .greeter → o.asked = some 20)) fun _ => none
  | .pam call => if closes call then .vacant else .pass
  | .finished => .vacant
  | _ => .pass

structure Seat where
  tenant : Option Occupant := none
  /-- there was a pause since a greeter came or went -/
  rested : Bool := true
deriving DecidableEq, Repr

/-- a greeter goes -/
def Seat.parts (k : Seat) (e : Event) : Bool :=
  (k.tenant.map Occupant.what == some .greeter) && Tenancy.leaves k.tenant (deed e)

def Seat.step (k : Seat) (e : Event) : Seat where
  tenant := Tenancy.step k.tenant (deed e)
  rested := match e with
    | .sleep => true
    | .fork .greeter _ => false
    | _ => k.rested && !k.parts e

@[simp] theorem Seat.step_tenant (k : Seat) (e : Event) : (k.step e).tenant = Tenancy.step k.tenant (deed e) := rfl

/-- a pause lasts until a greeter comes or goes -/
theorem Seat.step_rested {k : Seat} {e : Event} (hwhat : ∀ o, k.tenant = some o → o.what = .session)
    (hrested : k.rested = true) (he : ∀ r, e ≠ .fork .greeter r) : (k.step e).rested = true := by
  have hparts : k.parts e = false := by
    rw [Seat.parts]
    cases htenant : k.tenant with
    | none => rfl
    | some o => simp [hwhat o htenant]
  unfold Seat.step
  dsimp only
  split
  · rfl
  · exact absurd rfl (he _)
  · rw [hrested, hparts]
    rfl

structure Seat.Good (k : Seat) (e : Event) : Prop where
  deed : Tenancy.good k.tenant (deed e)
  rested : ∀ what r, e = .fork what r → k.rested = true

def seating : Monitor Event St Halt Seat where
  step := Seat.step
  good k e _ := k.Good e

/-! ## Events that are no matter of the seat -/

def bystander : Event → Bool
  | .fork _ _ => false
  | .launch _ _ => false
  | .kill _ _ => false
  | .waitpid _ _ => false
  | .waiting _ => false
  | .waitInterrupted _ => false
  | .waitDone _ _ => false
  | .pam call => !closes call
  | .sleep => false
  | .finished => false
  | _ => true

section Bystanders

variable {k : Seat} {e : Event}

theorem deed_bystander (he : bystander e) : deed e = .pass := by
  cases e with
  | fork what r => cases he
  | pam call =>
    have hcall : ¬ closes call := by simpa [bystander] using he
    exact if_neg hcall
  | _ => first | rfl | cases he

theorem good_bystander (he : bystander e) : k.Good e where
  deed := by
    rw [deed_bystander he]
    trivial
  rested := by
    rintro what r rfl
    cases he

/-- an event by which nobody comes or goes -/
theorem step_idle (hdeed : Tenancy.step k.tenant (deed e) = k.tenant) (hsleep : e ≠ .sleep)
    (hfork : ∀ r, e ≠ .fork .greeter r) : k.step e = k := by
  have hparts : k.parts e = false := by
    rw [Seat.parts, Tenancy.leaves, hdeed]
    cases k.tenant <;> simp
  unfold Seat.step
  rw [hdeed]
  split
  · exact absurd rfl hsleep
  · exact absurd rfl (hfork _)
  · simp only [hparts, Bool.not_false, Bool.and_true]

theorem step_bystander (he : bystander e) : k.step e = k := by
  refine step_idle ?_ ?_ ?_
  · rw [deed_bystander he]
    rfl
  · rintro rfl
    cases he
  · rintro r rfl
    cases he

theorem bystander_of_domestic (he : e.domestic) (hcall : ∀ call, e = .pam call → closes call = false) :
    bystander e := by
  cases e with
  | pam call => simp [bystander, hcall call rfl]
  | _ => first | rfl | cases he

/-- when nobody sits there, a PAM session may be closed -/
theorem domestic_vacant (hk : k.tenant = none) (he : e.domestic) : k.Good e ∧ k.step e = k := by
  have hdeed : deed e = .pass ∨ deed e = .vacant := by
    cases e with
    | pam call =>
      simp only [deed]
      split_ifs
      · exact Or.inr rfl
      · exact Or.inl rfl
    | _ => first | exact Or.inl rfl | cases he
  have hstep : Tenancy.step k.tenant (deed e) = k.tenant := by
    rcases hdeed with hdeed | hdeed <;> rw [hdeed] <;> rfl
  refine ⟨⟨?_, ?_⟩, step_idle hstep ?_ ?_⟩
  · rcases hdeed with hdeed | hdeed <;> rw [hdeed]
    · trivial
    · exact hk
  · rintro what r rfl
    cases he
  · rintro rfl
    cases he
  · rintro r rfl
    cases he

theorem bystander_of_setup (he : e.setup) : bystander e := by
  cases e <;> first | rfl | cases he

end Bystanders

/-! ## The seat and the state -/

/-- the greeter that the daemon tracks -/
def tracked (s : St) : Option Occupant := if 0 < s.greeterPid then some { what := .greeter, pid := s.greeterPid } else none

/-- between the operations on processes the seat is as the daemon knows it -/
structure Seated (k : Seat) (s : St) : Prop where
  tenant : k.tenant = tracked s
  session : s.sessionPid ≤ 0

/-- vacant, and processes may be forked -/
structure Open (k : Seat) (s : St) : Prop where
  tenant : k.tenant = none
  rested : k.rested = true
  greeter : s.greeterPid ≤ 0
  session : s.sessionPid ≤ 0

theorem tracked_none {s : St} (h : s.greeterPid ≤ 0) : tracked s = none := if_neg (Int.not_lt.2 h)

theorem tracked_some {s : St} (h : 0 < s.greeterPid) : tracked s = some { what := .greeter, pid := s.greeterPid } :=
  if_pos h

theorem Open.seated {k : Seat} {s : St} (h : Open k s) : Seated k s where
  tenant := h.tenant.trans (tracked_none h.greeter).symm
  session := h.session

/-- a condition that depends on the children alone -/
def Outwardly (c : Seat → St → Prop) : Prop :=
  ∀ k s t, c k s → t.greeterPid = s.greeterPid → t.sessionPid = s.sessionPid → c k t

theorem seated_outwardly : Outwardly Seated := by
  intro k s t h hgreeter hsession
  refine ⟨?_, hsession ▸ h.session⟩
  rw [h.tenant, tracked, tracked, hgreeter]

theorem open_outwardly : Outwardly Open :=
  fun _ _ _ h hgreeter hsession => ⟨h.tenant, h.rested, hgreeter ▸ h.greeter, hsession ▸ h.session⟩

section Parts

variable (E : Env) {k : Seat} {s : St} {c : Seat → St → Prop}

/-- an operation on the seat -/
theorem seat_op {e : Event} {f : St → St} {q : Seat → Unit → St → Prop} (hgood : k.Good e)
    (hq : ∀ b, q (k.step e) () ((f (s.setRunning b)).tick (s.now + 1))) : Watched seating k (op E e f) s q :=
  watched_op E (good_bystander rfl) (step_bystander rfl) fun b => ⟨hgood, hq b⟩

/-- an operation that is no matter of the seat -/
theorem bystander_op (hc : Outwardly c) (hk : c k s) {e : Event} (he : bystander e) {f : St → St}
    (hf : ∀ s, (f s).greeterPid = s.greeterPid ∧ (f s).sessionPid = s.sessionPid) :
    Watched seating k (op E e f) s (fun k' _ t => c k' t) := by
  refine seat_op E (good_bystander he) fun b => ?_
  rw [step_bystander he]
  exact hc _ _ _ hk (hf _).1 (hf _).2

/-- a domestic part while nobody sits there -/
theorem domestic_seated (hc : Outwardly c) (hvacant : ∀ {k s}, c k s → k.tenant = none) (hk : c k s) {α : Type}
    {x : Sys α} (hx : Within domestic x) : Watched seating k x s (fun k' _ t => c k' t) := by
  have hwatched : Watched seating k x s (fun k' _ t => k' = k ∧ s.outward = t.outward) := by
    refine Within.watched hx rfl ?_ fun _ _ _ _ => trivial
    intro k' e t hk' he _
    subst hk'
    exact domestic_vacant (hvacant hk) he
  refine Watched.mono hwatched fun k' _ t h => ?_
  obtain ⟨rfl, hst⟩ := h
  exact hc _ _ _ hk (congrArg Outward.greeterPid hst).symm (congrArg Outward.sessionPid hst).symm

theorem accepts_bystanders {l : List (Event × St)} (h : ∀ p ∈ l, bystander p.1) :
    seating.accepts k l ∧ seating.after k l = k := by
  induction l with
  | nil => exact ⟨trivial, rfl⟩
  | cons p l ih =>
    obtain ⟨hp, hl⟩ := List.forall_mem_cons.1 h
    obtain ⟨haccepts, hafter⟩ := ih hl
    have hstep : seating.step k p.1 = k := step_bystander hp
    refine ⟨⟨good_bystander hp, ?_⟩, ?_⟩
    · rwa [hstep]
    · rwa [Monitor.after_cons, hstep]

/-- no PAM session is closed -/
def Spares (cs : List PamCall) : Prop := ∀ c ∈ cs, closes c = false

/-! ## Logins beside the greeter -/

section Attempts

variable {self : PamAuth} {p : Libpam}

theorem start_spares (username serviceName : Str) : Sat (PamAuth.start E.pam {} username serviceName) p
    (fun l r _ => Spares (calls l) ∧ r.2.sessionOpened = false) (fun _ _ _ => True) := by
  have hnew : ({} : PamAuth).end_ E.pam = pure {} := PamAuth.end_none rfl
  simp only [PamAuth.start, hnew, PamAuth.startHandle, pamStart, sat_bind, sat_ite, sat_get, sat_act, sat_pure]
  simp [Spares, closes]

theorem authenticate_spares (hself : self.sessionOpened = false) (password : Str) :
    Sat (self.authenticate E.pam password) p (fun l r _ => Spares (calls l) ∧ r.2.sessionOpened = false)
      (fun _ _ _ => True) := by
  unfold PamAuth.authenticate
  split
  · exact ⟨nofun, hself⟩
  · simp only [newUserData, pamSetConv, pamRun, wipeUserData, freeUserData, sat_bind, sat_ite, sat_when, sat_get, sat_act,
      sat_pure]
    simp [Spares, closes, hself]

theorem runStep_spares {fn : PamFn} (hfn : ∀ h ok, closes (.run fn h ok) = false) (hself : self.sessionOpened = false)
    (noted : PamAuth) : Sat (self.runStep E.pam fn noted) p (fun l r _ => Spares (calls l) ∧
      (r.1 = false → r.2.sessionOpened = false) ∧ (noted.sessionOpened = false → r.2.sessionOpened = false))
      (fun _ _ _ => True) := by
  unfold PamAuth.runStep
  split
  · exact ⟨nofun, fun _ => hself, fun _ => hself⟩
  · simp [pamRun, sat_bind, sat_ite, Spares, hfn, hself]

theorem setEnv_spares (name value : Str) : Sat (self.setEnv E.pam name value) p
    (fun l _ _ => Spares (calls l)) (fun _ _ _ => True) := by
  unfold PamAuth.setEnv
  split
  · exact nofun
  · simp [pamPutenv, sat_bind, Spares, closes]

/-- without a session that was opened there is none to close -/
theorem end_spares (hself : self.sessionOpened = false) : Sat (self.end_ E.pam) p (fun l _ _ => Spares (calls l))
    (fun _ _ _ => True) := by
  cases hhandle : self.pamHandle with
  | none =>
    rw [PamAuth.end_none hhandle]
    exact nofun
  | some h =>
    simp only [PamAuth.end_, PamAuth.endHandle, PamAuth.closeOpened, PamAuth.deleteSet, PamAuth.deleteCredentials,
      PamAuth.undoStep, hhandle, hself, pamRun, pamEnd, sat_bind, sat_ite, sat_get, sat_act, sat_pure]
    simp [Spares, closes]

/-- a part that closes no session, and whose value is as `K` says -/
def Sparing {α : Type} (K : α → Prop) (x : Sys α) : Prop := ∀ s, Sat x s
  (fun l a _ => Spares (pamCalls (events l)) ∧ K a) (fun _ _ _ => True)

theorem sparing_pure {α : Type} {K : α → Prop} {a : α} (ha : K a) : Sparing K (pure a : Sys α) := fun _ => ⟨nofun, ha⟩

theorem sparing_bind {α β : Type} {K : β → Prop} {K' : α → Prop} {x : Sys β} {f : β → Sys α} (hx : Sparing K x)
    (hf : ∀ b, K b → Sparing K' (f b)) : Sparing K' (x >>= f) := by
  refine fun s => (sat_bind x f).2 (Sat.mono (hx s) (fun l b t hl => ?_) fun _ _ _ h => h)
  refine Sat.mono (hf b hl.2 t) (fun l' a _ hl' => ⟨?_, hl'.2⟩) fun _ _ _ h => h
  simp only [events_append, pamCalls_append]
  exact List.forall_mem_append.2 ⟨hl.1, hl'.1⟩

theorem sparing_onPam {α : Type} {K : α → Prop} {x : PamM α}
    (hx : ∀ p, Sat x p (fun l a _ => Spares (calls l) ∧ K a) fun _ _ _ => True) : Sparing K (onPam E x) :=
  fun s => Sat.mono (onPam_spec (Q := fun cs a _ => Spares cs ∧ K a) (hx s.pam)) (fun _ _ _ h => h) fun _ _ _ _ => trivial

theorem setLoginEnv_sparing (req : IpcMessage) (pam : PamAuth) : Sparing (fun _ => True) (setLoginEnv E req pam) := by
  have set : ∀ name value, Sparing (fun _ => True) (onPam E (pam.setEnv E.pam name value)) := fun name value =>
    sparing_onPam E fun p => Sat.mono (setEnv_spares E name value) (fun _ _ _ h => ⟨h, trivial⟩) fun _ _ _ h => h
  refine fun s => (sat_bind _ _).2 ?_
  refine sparing_bind (set _ _) (fun _ _ => sparing_bind (set _ _) fun _ _ => sparing_bind (set _ _) fun _ _ =>
    sparing_bind (set _ _) fun _ _ => ?_) s
  split
  · exact sparing_bind (set _ _) fun _ _ => sparing_bind (set _ _) fun _ _ => sparing_pure trivial
  · exact sparing_pure trivial

/-- what is left of an attempt that failed has no session to close -/
def Unopened (r : Option Str × PamAuth) : Prop := r.1.isSome → r.2.sessionOpened = false

theorem tryStep_sparing {K : PamAuth → Prop} {step : PamM (Bool × PamAuth)} {failure : Str}
    {next : PamAuth → Sys (Option Str × PamAuth)}
    (hstep : ∀ p, Sat step p (fun l r _ => Spares (calls l) ∧ (r.1 = false → r.2.sessionOpened = false) ∧
      (r.1 = true → K r.2)) fun _ _ _ => True)
    (hnext : ∀ pam, K pam → Sparing Unopened (next pam)) : Sparing Unopened (tryStep E step failure next) := by
  refine sparing_bind (sparing_onPam E hstep) fun ⟨ok, pam⟩ ⟨hfailed, hdone⟩ => ?_
  cases ok with
  | false => exact sparing_pure fun _ => hfailed rfl
  | true => exact hnext pam (hdone rfl)

/-- a PAM object that has opened no session -/
def Sessionless (pam : PamAuth) : Prop := pam.sessionOpened = false

/-- **An attempt closes no session**, and one that failed has opened none. -/
theorem attempt_sparing (req : IpcMessage) : Sparing Unopened (attempt E req) := by
  -- a step that leaves the PAM object without a session, however it ends
  have still : ∀ {x : PamM (Bool × PamAuth)}, (∀ p, Sat x p (fun l r _ => Spares (calls l) ∧ r.2.sessionOpened = false)
      fun _ _ _ => True) → ∀ p, Sat x p (fun l r _ => Spares (calls l) ∧ (r.1 = false → r.2.sessionOpened = false) ∧
      (r.1 = true → r.2.sessionOpened = false)) fun _ _ _ => True := fun hx p =>
    Sat.mono (hx p) (fun _ _ _ h => ⟨h.1, fun _ => h.2, fun _ => h.2⟩) fun _ _ _ h => h
  refine tryStep_sparing E (K := Sessionless) (still fun p => start_spares E _ _) fun pam hpam => ?_
  refine tryStep_sparing E (K := Sessionless) (still fun p => authenticate_spares E hpam _) fun pam hpam => ?_
  have run : ∀ {pam noted : PamAuth} {fn : PamFn}, (∀ h ok, closes (.run fn h ok) = false) →
      pam.sessionOpened = false → noted.sessionOpened = false → ∀ p, Sat (pam.runStep E.pam fn noted) p
      (fun l r _ => Spares (calls l) ∧ r.2.sessionOpened = false) fun _ _ _ => True := fun hfn hpam hnoted p =>
    Sat.mono (runStep_spares E hfn hpam _) (fun _ _ _ h => ⟨h.1, h.2.2 hnoted⟩) fun _ _ _ h => h
  refine tryStep_sparing E (K := Sessionless) (still (run (fun _ _ => rfl) hpam hpam)) fun pam hpam => ?_
  refine tryStep_sparing E (K := Sessionless) (still (run (fun _ _ => rfl) hpam hpam)) fun pam hpam => ?_
  refine sparing_bind (setLoginEnv_sparing E req pam) fun _ _ => ?_
  refine tryStep_sparing E (K := fun _ => True) (fun p => ?_) fun pam _ => sparing_pure fun h => by cases h
  exact Sat.mono (runStep_spares E (fun _ _ => rfl) hpam _) (fun _ _ _ h => ⟨h.1, h.2.1, fun _ => trivial⟩) fun _ _ _ h => h

end Attempts

/-- a domestic part that closes no PAM session, whoever sits there -/
theorem spares_seated (hc : Outwardly c) (hk : c k s) {α : Type} {x : Sys α} {P : α → Prop} (hx : Within domestic x)
    (hspares : Sparing P x) :
    Watched seating k x s (fun k' a t => c k' t ∧ P a) := by
  refine Sat.mono (Sat.and (hx s) (hspares s)) (fun l a t h => ?_) fun l _ _ h => h.1.2.elim
  obtain ⟨⟨hl, hst⟩, hcalls, ha⟩ := h
  have hbystanders : ∀ p ∈ l, bystander p.1 := by
    refine fun p hp => bystander_of_domestic (hl p hp).1 fun call hcall => hcalls call ?_
    exact List.mem_filterMap.2 ⟨p.1, List.mem_map_of_mem hp, by rw [hcall]; rfl⟩
  obtain ⟨haccepts, hafter⟩ := accepts_bystanders (k := k) hbystanders
  rw [hafter]
  exact ⟨haccepts, hc _ _ _ hk (congrArg Outward.greeterPid hst).symm (congrArg Outward.sessionPid hst).symm, ha⟩

/-! ## The greeter -/

/-- **A greeter takes a vacant seat.** -/
theorem startGreeter_seated (hk : Seated k s) (hrested : s.greeterPid ≤ 0 → k.rested = true) :
    Watched seating k (startGreeter E) s (fun k' _ t => Seated k' t) := by
  refine watched_bind (watched_get (watched_ite (fun _ => watched_pure hk) fun hc => ?_))
  have hpid : s.greeterPid ≤ 0 := by
    by_contra hlt
    exact hc (Or.inl (by omega))
  have hopen : Open k s := ⟨hk.tenant.trans (tracked_none hpid), hrested hpid, hpid, hk.session⟩
  have part : ∀ {α : Type} {x : Sys α} {k t}, Open k t → Within domestic x →
      Watched seating k x t (fun k' _ u => Open k' u) := fun h hx => domestic_seated open_outwardly Open.tenant h hx
  apply Watched.seq (part hopen (renewGreeterPam_domestic E))
  intro k _ t hk
  apply Watched.seq (part hk (domestic_onPam E _))
  intro k x t hk
  apply Watched.seq (part hk (setGreeterPam_domestic E x.2))
  intro k _ t hk
  apply Watched.seq (part hk (within_when (openGreeterPam_domestic E x.2 _)))
  intro k _ t hk
  apply Watched.seq (part hk (makeRuntimeDir_domestic E _))
  intro k runtimeDir t hk
  refine watched_bind (watched_bind (watched_get (watched_bind (seat_op E ?_ fun b => watched_pure ?_))))
  · refine ⟨?_, fun _ _ _ => hk.rested⟩
    cases E.fork t.now <;> exact hk.tenant
  · cases hfork : E.fork t.now with
    | none =>
      have htenant : (k.step (.fork .greeter none)).tenant = none := hk.tenant
      exact watched_pure ⟨htenant.trans (tracked_none (s := t) hk.greeter).symm, hk.session⟩
    | some pid =>
      refine seat_op E (good_bystander rfl) fun b' => ?_
      rw [step_bystander rfl]
      exact ⟨(tracked_some (s := { t with greeterPid := pid }) pid.2).symm, hk.session⟩

/-- a greeter that was asked to go, and was found running `m` times -/
structure Asked (pid : ℤ) (m : ℕ) (k : Seat) (s : St) : Prop where
  tenant : k.tenant = some { what := .greeter, pid, asked := some m }
  positive : 0 < pid
  greeter : s.greeterPid = pid
  session : s.sessionPid ≤ 0

/-- nobody sits there -/
structure Empty (k : Seat) (s : St) : Prop where
  tenant : k.tenant = none
  greeter : s.greeterPid ≤ 0
  session : s.sessionPid ≤ 0

theorem empty_outwardly : Outwardly Empty :=
  fun _ _ _ h hgreeter hsession => ⟨h.tenant, hgreeter ▸ h.greeter, hsession ▸ h.session⟩

/-- **The wait for a greeter to go.** It goes, or all the waits have found it running. -/
theorem awaitGreeter_asked (pid : ℤ) : ∀ n m k s, Asked pid m k s →
    Watched seating k (awaitGreeter E n) s (fun k' _ t => Empty k' t ∨ Asked pid (m + n) k' t) := by
  intro n
  induction n with
  | zero => exact fun m k s hk => watched_pure (Or.inr hk)
  | succ n ih =>
    intro m k s hk
    have hmeets : k.Good (.waitpid s.greeterPid (E.waitpid s.now)) :=
      ⟨⟨_, hk.tenant, rfl, hk.greeter.symm⟩, fun _ _ h => by cases h⟩
    refine watched_bind (watched_get (watched_bind (seat_op E hmeets fun b => ?_)))
    cases hanswer : E.waitpid s.now with
    | running =>
      rw [if_pos rfl]
      have htenant : (k.step (.waitpid s.greeterPid .running)).tenant =
          some { what := .greeter, pid, asked := some (m + 1) } := by
        rw [Seat.step_tenant, hk.tenant]
        rfl
      refine watched_bind (seat_op E ⟨trivial, fun _ _ h => by cases h⟩ fun b' => ?_)
      refine Watched.mono (ih (m + 1) _ _ ⟨htenant, hk.positive, hk.greeter, hk.session⟩) fun k' _ t h => ?_
      rwa [Nat.add_assoc, Nat.add_comm 1] at h
    | reaped status =>
      rw [if_neg (by simp)]
      refine seat_op E (good_bystander rfl) fun b' => Or.inl ⟨?_, (by decide : (-1 : ℤ) ≤ 0), hk.session⟩
      rw [step_bystander rfl, Seat.step_tenant, hk.tenant]
      rfl
    | failed =>
      rw [if_neg (by simp)]
      refine seat_op E (good_bystander rfl) fun b' => Or.inl ⟨?_, (by decide : (-1 : ℤ) ≤ 0), hk.session⟩
      rw [step_bystander rfl, Seat.step_tenant, hk.tenant]
      rfl

/-- both signals to a greeter -/
theorem killBoth_asked {pid : ℤ} {o : Occupant} (htenant : k.tenant = some o) (hwhat : o.what = .greeter)
    (hpid : o.pid = pid) (sig : Signal) (hkill : sig = .sigkill → o.asked = some 20) :
    Watched seating k (killBoth E pid sig) s (fun k' _ t => k'.tenant = some (o.signal sig) ∧ s.outward = t.outward) := by
  have hsecond : sig = .sigkill → (o.signal sig).asked = some 20 := by
    rintro rfl
    exact hkill rfl
  have hagain : (o.signal sig).signal sig = o.signal sig := by cases sig <;> rfl
  have hsame : (o.signal sig).what = o.what ∧ (o.signal sig).pid = o.pid := by cases sig <;> exact ⟨rfl, rfl⟩
  have hstep : ∀ {k : Seat} {o : Occupant} (p : ℤ), k.tenant = some o →
      (k.step (.kill p sig)).tenant = some (o.signal sig) := by
    intro k o p h
    rw [Seat.step_tenant, h]
    rfl
  refine watched_bind (seat_op E ⟨⟨o, htenant, hwhat, ?_, hkill⟩, fun _ _ h => by cases h⟩ fun b => ?_)
  · exact Or.inr (by rw [hpid])
  refine seat_op E ⟨⟨_, hstep _ htenant, hsame.1.trans hwhat, ?_, hsecond⟩, fun _ _ h => by cases h⟩ fun b' => ?_
  · exact Or.inl (by rw [hsame.2, hpid])
  · exact ⟨(hstep _ (hstep _ htenant)).trans (congrArg some hagain), rfl⟩

/-- **A greeter leaves the seat.** -/
theorem stopGreeterProcess_empty {pid : ℤ} (hk : Seated k s) (hpid : s.greeterPid = pid) (hpos : 0 < pid) :
    Watched seating k (stopGreeterProcess E pid) s (fun k' _ t => Empty k' t) := by
  have htenant : k.tenant = some { what := .greeter, pid := pid } := by
    rw [hk.tenant, tracked_some (hpid ▸ hpos), hpid]
  apply Watched.seq (killBoth_asked E htenant rfl rfl .sigterm (by simp))
  intro k _ t ⟨htenant, hst⟩
  have hgreeter : t.greeterPid = pid := (congrArg Outward.greeterPid hst).symm.trans hpid
  have hsession : t.sessionPid ≤ 0 := (congrArg Outward.sessionPid hst).symm.trans_le hk.session
  apply Watched.seq (awaitGreeter_asked E pid 20 0 k t ⟨htenant, hpos, hgreeter, hsession⟩)
  intro k _ u hk
  refine watched_bind (watched_get ?_)
  rcases hk with hk | hk
  · have hgone : ¬ u.greeterPid > 0 := Int.not_lt.2 hk.greeter
    rw [if_neg hgone]
    exact watched_pure hk
  · have hthere : u.greeterPid > 0 := by
      rw [hk.greeter]
      exact hpos
    rw [if_pos hthere]
    refine Watched.seq (killBoth_asked E hk.tenant rfl rfl .sigkill fun _ => rfl) ?_
    intro k' _ v ⟨htenant, huv⟩
    refine watched_bind (watched_get (watched_bind (seat_op E ?_ fun b => ?_)))
    · exact ⟨⟨_, htenant, rfl, fun _ => rfl⟩, fun _ _ h => by cases h⟩
    · refine seat_op E (good_bystander rfl) fun b' => ?_
      rw [step_bystander rfl]
      refine ⟨?_, (by decide : (-1 : ℤ) ≤ 0), (congrArg Outward.sessionPid huv).symm.trans_le hk.session⟩
      rw [Seat.step_tenant, htenant]
      rfl

theorem stopGreeter_open (hk : Seated k s) : Watched seating k (stopGreeter E) s (fun k' _ t => Open k' t) := by
  refine Watched.seq (bystander_op E seated_outwardly hk rfl fun _ => ⟨rfl, rfl⟩) fun k _ s hk => ?_
  refine watched_bind (watched_get ?_)
  refine Watched.seq (q := fun k' _ t => Empty k' t) (watched_when (fun hpos => ?_) fun hpos => ?_) ?_
  · exact stopGreeterProcess_empty E hk rfl hpos
  · exact ⟨hk.tenant.trans (tracked_none (Int.not_lt.1 hpos)), Int.not_lt.1 hpos, hk.session⟩
  intro k _ t hk
  apply Watched.seq (domestic_seated empty_outwardly Empty.tenant hk (releaseGreeterPam_domestic E))
  intro k _ t hk
  refine seat_op E ⟨trivial, fun _ _ h => by cases h⟩ fun b => ⟨?_, rfl, hk.greeter, hk.session⟩
  rw [Seat.step_tenant, hk.tenant]
  rfl

/-! ## The session -/

/-- a session sits there -/
structure Taken (pid : ℤ) (k : Seat) (s : St) : Prop where
  tenant : k.tenant = some { what := .session, pid }
  rested : k.rested = true
  greeter : s.greeterPid ≤ 0

theorem Taken.seats {pid : ℤ} {k : Seat} {s : St} (h : Taken pid k s) (o : Occupant) (ho : k.tenant = some o) :
    o.what = .session := by
  rw [h.tenant] at ho
  cases ho
  rfl

theorem Taken.good {pid : ℤ} {k : Seat} {s : St} (hk : Taken pid k s) {e : Event} {p : Occupant → Prop}
    {f : Occupant → Option Occupant} (he : deed e = .meet p f) (hp : p { what := .session, pid })
    (hfork : ∀ what r, e ≠ .fork what r) : k.Good e :=
  ⟨by rw [he]; exact ⟨_, hk.tenant, hp⟩, fun what r h => absurd h (hfork what r)⟩

/-- a wait that does not end leaves the session there -/
theorem Taken.waits {pid : ℤ} {k : Seat} {s : St} (hk : Taken pid k s) {e : Event}
    (he : e = .waiting pid ∨ e = .waitInterrupted pid) : k.Good e := by
  rcases he with rfl | rfl <;> exact hk.good rfl ⟨rfl, rfl⟩ (by simp)

theorem Taken.step {pid : ℤ} {k : Seat} {s t : St} (hk : Taken pid k s) {e : Event}
    (he : e = .waiting pid ∨ e = .waitInterrupted pid) (ht : t.greeterPid = s.greeterPid) : Taken pid (k.step e) t := by
  have htenant : (k.step e).tenant = some { what := .session, pid } := by
    rw [Seat.step_tenant, hk.tenant]
    rcases he with rfl | rfl <;> rfl
  exact ⟨htenant, Seat.step_rested hk.seats hk.rested (by rcases he with rfl | rfl <;> simp), ht ▸ hk.greeter⟩

/-- **The wait for a session.** However often it is interrupted, it ends with the seat vacant. -/
theorem waitLoop_open (pid : ℤ) : ∀ n k s, Taken pid k s →
    Watched seating k (waitLoop E pid n) s (fun k' _ t => Open k' t) := by
  intro n
  induction n with
  | zero =>
    intro k s hk
    refine watched_bind (seat_op E (hk.waits (Or.inl rfl)) fun b => ?_)
    have hk : Taken pid (k.step (.waiting pid)) ((s.setRunning b).tick (s.now + 1)) := hk.step (Or.inl rfl) rfl
    refine watched_bind (watched_get (watched_bind (seat_op E ?_ fun b' => ?_)))
    · exact hk.good rfl ⟨rfl, fun h => by cases h⟩ (by simp)
    refine watched_bind (seat_op E (good_bystander rfl) fun b'' => watched_pure ?_)
    rw [step_bystander rfl]
    refine ⟨?_, ?_, hk.greeter, (by decide : (-1 : ℤ) ≤ 0)⟩
    · rw [Seat.step_tenant, hk.tenant]
      rfl
    · exact Seat.step_rested hk.seats hk.rested (by simp)
  | succ n ih =>
    intro k s hk
    refine watched_bind (seat_op E (hk.waits (Or.inl rfl)) fun b => ?_)
    have hk : Taken pid (k.step (.waiting pid)) ((s.setRunning b).tick (s.now + 1)) := hk.step (Or.inl rfl) rfl
    exact watched_bind (seat_op E (hk.waits (Or.inr rfl)) fun b' => ih _ _ (hk.step (Or.inr rfl) rfl))

theorem isRunning_none (h : s.sessionPid ≤ 0) {q : Seat → Bool → St → Prop} (hq : q k false s) :
    Watched seating k (isRunning E) s q :=
  watched_bind (watched_get (watched_ite (fun _ => watched_pure hq) fun hn => absurd h hn))

/-- **A session takes a vacant seat.** -/
theorem launch_taken (hk : Open k s) (user : UserInfo) (session : SessionInfo) (pamEnvs : List Str) (vt : ℤ) :
    Watched seating k (launch E user session pamEnvs vt) s (fun k' launched t =>
      if launched then 0 < t.sessionPid ∧ Taken t.sessionPid k' t else Open k' t) := by
  refine watched_bind (seat_op E ⟨hk.tenant, fun _ _ h => by cases h⟩ fun b => ?_)
  have vacant : ∀ {k : Seat}, k.tenant = none → ∀ o, k.tenant = some o → o.what = .session := by
    intro k hnone o ho
    rw [hnone] at ho
    cases ho
  have hopen : Open (k.step (.launch user session)) (s.setRunning b) :=
    ⟨hk.tenant, Seat.step_rested (vacant hk.tenant) hk.rested (by simp), hk.greeter, hk.session⟩
  have hstill : ∀ r, ((k.step (.launch user session)).step (.fork .session r)).rested = true :=
    fun r => Seat.step_rested (vacant hopen.tenant) hopen.rested (by simp)
  apply watched_bind
  apply isRunning_none E (show ((id (s.setRunning b)).tick (s.now + 1)).sessionPid ≤ 0 from hk.session)
  rw [if_neg Bool.false_ne_true]
  have hgood : ∀ r, (k.step (.launch user session)).Good (.fork .session r) := by
    refine fun r => ⟨?_, fun _ _ _ => hopen.rested⟩
    cases r <;> exact hopen.tenant
  refine watched_bind (watched_bind (watched_get (watched_bind (seat_op E (hgood _) fun b' => watched_pure ?_))))
  generalize hnow : ((id (s.setRunning b)).tick (s.now + 1)).now = now
  cases E.fork now with
  | none =>
    exact watched_pure ⟨hopen.tenant, hstill _, hk.greeter, hk.session⟩
  | some pid =>
    refine watched_bind (seat_op E (good_bystander rfl) fun b'' => watched_pure ?_)
    rw [step_bystander rfl]
    exact ⟨pid.2, rfl, hstill _, hk.greeter⟩

/-- **Serving a session.** The greeter goes, the session comes and goes, and a greeter may come. -/
theorem serveSession_seated (hk : Seated k s) (req : IpcMessage) (pam : PamAuth) :
    Watched seating k (serveSession E req pam) s (fun k' _ t => Seated k' t) := by
  have part : ∀ {α : Type} {x : Sys α} {k t}, Open k t → Within domestic x →
      Watched seating k x t (fun k' _ u => Open k' u) := fun h hx => domestic_seated open_outwardly Open.tenant h hx
  apply Watched.seq (stopGreeter_open E hk)
  intro k _ t hk
  refine watched_bind (watched_get ?_)
  apply Watched.seq (part hk (rememberLastUser_domestic E req))
  intro k _ u hk
  apply Watched.seq (part hk (setActivePam_domestic E pam))
  intro k _ u hk
  apply Watched.seq (part hk (domestic_onPam E _))
  intro k pamEnvs u hk
  apply Watched.seq (launch_taken E hk _ _ pamEnvs _)
  intro k launched u hk
  refine Watched.seq (q := fun k' _ v => Open k' v) (watched_when (fun hl => ?_) fun hl => ?_) ?_
  · rw [if_pos hl] at hk
    refine watched_bind (watched_bind (watched_get (watched_ite (fun h => ?_) fun _ => ?_)))
    · exact absurd hk.1 (Int.not_lt.2 h)
    · exact Watched.mono (waitLoop_open E _ _ k u hk.2) fun _ _ _ h => watched_pure h
  · rwa [if_neg hl] at hk
  intro k _ u hk
  apply Watched.seq (part hk (releaseActivePam_domestic E))
  intro k _ u hk
  refine Watched.seq (q := fun k' _ v => Open k' v) ?_ fun k running v hk => ?_
  · refine watched_bind (Watched.mono (bystander_op E open_outwardly hk rfl fun _ => ⟨rfl, rfl⟩) fun _ _ _ h => ?_)
    exact watched_bind (watched_get (watched_pure h))
  · exact watched_ite (fun _ => startGreeter_seated E hk.seated fun _ => hk.rested) fun _ => watched_pure hk.seated

/-! ## Requests, connections and the loop -/

theorem reply_seated (hk : Seated k s) (resp : IpcMessage) :
    Watched seating k (reply E resp) s (fun k' _ t => Seated k' t) := by
  refine watched_bind (Watched.mono (bystander_op E seated_outwardly hk rfl fun _ => ⟨rfl, rfl⟩) fun _ _ _ h => ?_)
  exact watched_bind (watched_get (watched_ite (fun _ => watched_halt trivial) fun _ => watched_pure h))

/-- **A request.** -/
theorem processMessage_seated (hk : Seated k s) (req : IpcMessage) :
    Watched seating k (processMessage E req) s (fun k' _ t => Seated k' t) := by
  have cache : ∀ {k : Seat} {s : St} {f : St → St}, Seated k s →
      (∀ s, (f s).greeterPid = s.greeterPid ∧ (f s).sessionPid = s.sessionPid) →
      Watched seating k (op E .assign f) s (fun k' _ t => Seated k' t) :=
    fun hk hf => bystander_op E seated_outwardly hk rfl hf
  unfold processMessage
  split
  · exact reply_seated E hk _
  · exact Watched.seq (cache hk fun _ => ⟨rfl, rfl⟩) fun _ _ _ hk => watched_bind (watched_get (reply_seated E hk _))
  · refine watched_bind (watched_cacheSessions E (fun _ => trivial) fun _ _ => ?_)
    refine Watched.mono (cache hk fun _ => ⟨rfl, rfl⟩) fun _ _ _ hk => watched_bind (watched_get (reply_seated E hk _))
  · refine Watched.seq (q := fun k' _ t => Seated k' t) ?_ fun _ _ _ hk => reply_seated E hk _
    refine watched_ite (fun _ => watched_bind (watched_get (watched_bind ?_))) fun _ => watched_pure hk
    refine Watched.mono (bystander_op E seated_outwardly hk rfl fun _ => ⟨rfl, rfl⟩) fun _ _ _ h => watched_pure h
  · rw [handleLoginRequest_eq]
    apply Watched.seq (spares_seated seated_outwardly hk (attempt_domestic E req) (attempt_sparing E req))
    intro k outcome t ⟨hk, hunopened⟩
    obtain ⟨failure, pam⟩ := outcome
    cases failure with
    | some message =>
      apply Watched.seq (reply_seated E hk _)
      intro k _ u hk
      have hend : Sparing (fun _ => True) (onPam E (pam.end_ E.pam)) := sparing_onPam E fun p =>
        Sat.mono (end_spares E (hunopened rfl)) (fun _ _ _ h => ⟨h, trivial⟩) fun _ _ _ h => h
      exact Watched.seq (spares_seated seated_outwardly hk (domestic_onPam E _) hend) fun _ _ _ hk => watched_pure hk.1
    | none =>
      apply Watched.seq (reply_seated E hk _)
      intro k _ u hk
      exact serveSession_seated E hk req pam
  · exact reply_seated E hk _

theorem serveLine_seated (hk : Seated k s) (line rest : Str) :
    Watched seating k (serveLine E line rest) s (fun k' _ t => Seated k' t) := by
  refine Watched.seq (bystander_op E seated_outwardly hk rfl fun _ => ⟨rfl, rfl⟩) fun k _ t hk => ?_
  split
  · exact watched_halt trivial
  · refine Watched.seq (bystander_op E seated_outwardly hk rfl fun _ => ⟨rfl, rfl⟩) fun k _ t hk => ?_
    apply Watched.seq (processMessage_seated E hk _)
    intro k _ t hk
    exact bystander_op E seated_outwardly hk rfl fun _ => ⟨rfl, rfl⟩

theorem readLoop_seated : ∀ (chunks : List Str) (accumulated : Str) (k : Seat) (s : St), Seated k s →
    Watched seating k (readLoop E accumulated chunks) s (fun k' _ t => Seated k' t) := by
  intro chunks
  induction chunks with
  | nil => exact fun _ k s hk => bystander_op E seated_outwardly hk rfl fun _ => ⟨rfl, rfl⟩
  | cons chunk chunks ih =>
    intro accumulated k s hk
    refine watched_ite (fun _ => bystander_op E seated_outwardly hk rfl fun _ => ⟨rfl, rfl⟩) fun _ => ?_
    refine Watched.seq (bystander_op E seated_outwardly hk rfl fun _ => ⟨rfl, rfl⟩) fun k _ t hk => ?_
    split
    · exact ih _ k t hk
    · exact serveLine_seated E hk _ _

theorem acceptClient_seated (hk : Seated k s) :
    Watched seating k (acceptClient E) s (fun k' _ t => Seated k' t) := by
  have still : ∀ {k t} {e : Event} {f : St → St}, Seated k t → bystander e →
      (∀ s, (f s).greeterPid = s.greeterPid ∧ (f s).sessionPid = s.sessionPid) →
      Watched seating k (op E e f) t (fun k' _ u => Seated k' u) :=
    fun hk he hf => bystander_op E seated_outwardly hk he hf
  refine watched_bind (watched_get ?_)
  split
  · exact still hk rfl fun _ => ⟨rfl, rfl⟩
  · refine Watched.seq (still hk rfl fun _ => ⟨rfl, rfl⟩) fun k _ t hk => ?_
    refine Watched.seq (q := fun k' _ u => Seated k' u) ?_ fun k _ t hk => still hk rfl fun _ => ⟨rfl, rfl⟩
    refine Watched.seq (still hk rfl fun _ => ⟨rfl, rfl⟩) fun k _ t hk => ?_
    exact Watched.seq (readLoop_seated E _ [] k t hk) fun k _ t hk => still hk rfl fun _ => ⟨rfl, rfl⟩

/-- a greeter that died is replaced after a pause -/
theorem watchGreeter_seated (hk : Seated k s) :
    Watched seating k (watchGreeter E) s (fun k' _ t => Seated k' t) := by
  refine watched_bind (watched_get (watched_ite (fun hpid => ?_) fun _ => watched_pure hk))
  refine watched_bind (isRunning_none E hk.session (watched_ite (fun _ => ?_) fun h => absurd (by simp) h))
  have htenant : k.tenant = some { what := .greeter, pid := s.greeterPid } := hk.tenant.trans (tracked_some hpid)
  refine watched_bind (watched_get (watched_bind (seat_op E ⟨⟨_, htenant, rfl, rfl⟩, fun _ _ h => by cases h⟩ ?_)))
  intro b
  have hstep : ∀ answer, (k.step (.waitpid s.greeterPid answer)).tenant =
      Occupant.wait answer { what := .greeter, pid := s.greeterPid } := by
    intro answer
    rw [Seat.step_tenant, htenant]
    rfl
  cases E.waitpid s.now with
  | reaped status =>
    refine watched_bind (seat_op E (good_bystander rfl) fun b' => ?_)
    rw [step_bystander rfl]
    refine watched_bind (seat_op E ⟨trivial, fun _ _ h => by cases h⟩ fun b'' => ?_)
    refine startGreeter_seated E ⟨?_, hk.session⟩ fun _ => rfl
    rw [tracked_none (by exact (by decide : (-1 : ℤ) ≤ 0))]
    exact hstep (.reaped status)
  | running => exact watched_pure ⟨(hstep .running).trans (tracked_some (s := s) hpid).symm, hk.session⟩
  | failed => exact watched_pure ⟨(hstep .failed).trans (tracked_some (s := s) hpid).symm, hk.session⟩

/-- **One turn of the loop.** -/
theorem turn_seated (hk : Seated k s) : Watched seating k (turn E) s (fun k' _ t => Seated k' t) := by
  have watch : ∀ {k u}, Seated k u → Watched seating k (do watchGreeter E; return true) u (fun k' _ t => Seated k' t) :=
    fun hk => Watched.seq (watchGreeter_seated E hk) fun _ _ _ h => watched_pure h
  refine Watched.seq (bystander_op E seated_outwardly hk rfl fun _ => ⟨rfl, rfl⟩) fun k _ t hk => ?_
  refine watched_bind (watched_get (watched_ite (fun _ => watched_pure hk) fun _ => watched_bind (watched_get ?_)))
  refine Watched.seq (bystander_op E seated_outwardly hk rfl fun _ => ⟨rfl, rfl⟩) fun k _ t hk => ?_
  split
  · exact watched_pure hk
  · exact watched_pure hk
  · exact Watched.seq (acceptClient_seated E hk) fun _ _ _ h => watch h
  · exact watch hk

/-! ## The whole run -/

theorem terminate_none (h : s.sessionPid ≤ 0) {q : Seat → Unit → St → Prop} (hq : q k () s) :
    Watched seating k (terminate E) s q :=
  watched_bind (watched_get (watched_ite (fun hpos => absurd h (Int.not_le.2 hpos)) fun _ => watched_pure hq))

theorem cleanupIpcSocket_seated (hc : Outwardly c) (hk : c k s) :
    Watched seating k (cleanupIpcSocket E) s (fun k' _ t => c k' t) := by
  have still : ∀ {k t} {e : Event} {f : St → St}, c k t → bystander e →
      (∀ s, (f s).greeterPid = s.greeterPid ∧ (f s).sessionPid = s.sessionPid) →
      Watched seating k (op E e f) t (fun k' _ u => c k' u) := fun hk he hf => bystander_op E hc hk he hf
  refine watched_bind (watched_get ?_)
  refine Watched.seq (q := fun k' _ t => c k' t) (watched_when (fun _ => ?_) fun _ => hk) fun k _ t hk => ?_
  · exact Watched.seq (still hk rfl fun _ => ⟨rfl, rfl⟩) fun _ _ _ hk => still hk rfl fun _ => ⟨rfl, rfl⟩
  · exact watched_ite (fun _ => still hk rfl fun _ => ⟨rfl, rfl⟩) fun _ => watched_pure hk

theorem run_seated (n : ℕ) (hk : Open k s) : Watched seating k (run E n) s (fun _ _ _ => True) := by
  refine Watched.seq (bystander_op E open_outwardly hk rfl fun _ => ⟨rfl, rfl⟩) fun k _ t hk => ?_
  apply Watched.seq (startGreeter_seated E hk.seated fun _ => hk.rested)
  intro k _ t hk
  refine Watched.seq (watched_loop (I := Seated) (q := fun k _ t => Seated k t) (fun _ _ _ => trivial)
    (fun k s h => Watched.mono (turn_seated E h) fun _ goes _ h => by cases goes <;> exact h) n k t hk) ?_
  intro k _ t hk
  apply Watched.seq (stopGreeter_open E hk)
  intro k _ t hk
  refine watched_bind (terminate_none E hk.session ?_)
  apply Watched.seq (cleanupIpcSocket_seated E open_outwardly hk)
  intro k _ t hk
  exact seat_op E ⟨hk.tenant, fun _ _ h => by cases h⟩ fun _ => trivial

/-- **Every run of the daemon is a run of the seat.** -/
theorem history_seated (n : ℕ) : seating.accepts {} (history E n) := by
  have hinit : Watched seating {} (init E) (boot E) (fun k _ t => k = {} ∧ (t.running = true → (boot E).running = true)) := by
    refine Within.watched (init_setup E) rfl ?_ fun _ _ _ _ => trivial
    intro k e t hk he _
    exact ⟨good_bystander (bystander_of_setup he), (step_bystander (bystander_of_setup he)).trans hk⟩
  apply Watched.accepts (q := fun _ _ _ => True)
  have hcalm := Sat.ends (init_scanning E (boot E)) fun _ _ _ h => h.2
  refine Watched.seq (Watched.and_sat hinit hcalm) fun k ok t h => ?_
  obtain ⟨⟨rfl, -⟩, hst⟩ := h
  refine watched_ite (fun _ => run_seated E n ⟨rfl, rfl, ?_, ?_⟩) fun _ => watched_pure trivial
  · rw [same_of_erased (p := St.greeterPid) hst.symm fun _ => rfl]
    exact (by decide : (-1 : ℤ) ≤ 0)
  · rw [same_of_erased (p := St.sessionPid) hst.symm fun _ => rfl]
    exact (by decide : (-1 : ℤ) ≤ 0)

end Parts

/-! ## Results -/

/-- who sits at the display after these moments -/
def seat (pre : List (Event × St)) : Seat := seating.after {} pre

/-- the same, without the pauses -/
abbrev place : Monitor Event St Halt (Option Occupant) := Tenancy.monitor deed

theorem seat_tenant (pre : List (Event × St)) : (seat pre).tenant = place.after none pre :=
  seating.after_map (fun _ _ => rfl) pre {}

theorem history_place (E : Env) (n : ℕ) : place.accepts none (history E n) :=
  seating.accepts_map (f := Seat.tenant) (fun _ _ => rfl) (fun _ _ _ h => h.deed) (history_seated E n)

/-- nothing that meets an occupant changes which process it is -/
theorem wait_pid {answer : WaitAnswer} {o o' : Occupant} (h : o.wait answer = some o') : o'.pid = o.pid := by
  cases answer with
  | reaped status => cases h
  | running =>
    cases h
    rfl
  | failed =>
    simp only [Occupant.wait] at h
    split_ifs at h
    cases h
    rfl

theorem deed_key (e : Event) (may : Occupant → Prop) (f : Occupant → Option Occupant) (he : deed e = .meet may f)
    (o o' : Occupant) (h : f o = some o') : (o'.what, o'.pid) = (o.what, o.pid) := by
  cases e with
  | kill pid sig =>
    cases he
    cases h
    cases sig <;> rfl
  | waitpid pid answer =>
    cases he
    have hwhat : o'.what = o.what := by
      cases answer with
      | reaped status => cases h
      | running =>
        cases h
        rfl
      | failed =>
        simp only [Occupant.wait] at h
        split_ifs at h
        cases h
        rfl
    rw [hwhat, wait_pid h]
  | waiting pid =>
    cases he
    cases h
    rfl
  | waitInterrupted pid =>
    cases he
    cases h
    rfl
  | waitDone pid status =>
    cases he
    cases h
  | fork what r => cases r <;> cases he
  | pam call =>
    simp only [deed] at he
    split_ifs at he
  | _ => cases he

/-- the process `pid` was forked, and has not been seen to end since; nothing was forked since -/
def Present (pre : List (Event × St)) (what : ChildKind) (pid : ℤ) : Prop :=
  ∃ (before since : List (Event × St)) (t : St) (r : Pid) (child : Child),
    pre = before ++ (.fork what (some (r, child)), t) :: since ∧ (r : ℤ) = pid ∧ Tenancy.entersIn deed since = 0 ∧
      Tenancy.leavesIn deed (some { what, pid }) since = 0

/-- whoever sits there is a process that was forked -/
theorem present_of_tenant {pre : List (Event × St)} (h : place.accepts none pre) {o : Occupant}
    (ho : (seat pre).tenant = some o) : Present pre o.what o.pid := by
  obtain ⟨before, since, p, o₀, rfl, henter, hkey, hin, hout⟩ :=
    Tenancy.entered_before (g := fun o : Occupant => (o.what, o.pid)) deed_key h ((seat_tenant _).symm.trans ho)
  rcases p with ⟨e, t⟩
  cases e with
  | fork what r =>
    cases r with
    | none => cases henter
    | some r =>
      cases henter
      have hwhat : what = o.what := congrArg Prod.fst hkey
      have hpid : (r.1 : ℤ) = o.pid := congrArg Prod.snd hkey
      rw [← hwhat, ← hpid]
      exact ⟨before, since, t, r.1, r.2, rfl, rfl, hin, hout⟩
  | pam call =>
    simp only [deed] at henter
    split_ifs at henter
  | _ => cases henter

/-- the process an event waits for -/
def waitsFor : Event → Option ℤ
  | .waitpid pid _ => some pid
  | .waiting pid => some pid
  | .waitInterrupted pid => some pid
  | .waitDone pid _ => some pid
  | _ => none

/-- at every moment of a run the books of the seat balance -/
theorem seat_books {E : Env} {n : ℕ} {pre post : List (Event × St)} (hsplit : history E n = pre ++ post) :
    Tenancy.entersIn deed pre = Tenancy.leavesIn deed none pre + Tenancy.tenants (seat pre).tenant := by
  have haccepts := history_place E n
  rw [hsplit] at haccepts
  have hbalance := Tenancy.enters_add_tenant ((place.accepts_append _ _ _).1 haccepts).1
  rwa [← seat_tenant] at hbalance

/-- **One after another.** At every moment of a run the children that were forked are those that were seen to end and the
one that is still there, if any; between two of them the first was seen to end; and when `run` returns all of them were. -/
theorem children_balance (E : Env) (n : ℕ) :
    (∀ pre post, history E n = pre ++ post →
      Tenancy.entersIn deed pre = Tenancy.leavesIn deed none pre + Tenancy.tenants (seat pre).tenant) ∧
    (∀ (pre mid post : List (Event × St)) (p q : Event × St), history E n = pre ++ p :: mid ++ q :: post →
      Tenancy.enters (deed p.1) → Tenancy.enters (deed q.1) →
      0 < Tenancy.leavesIn deed (Tenancy.step (seat pre).tenant (deed p.1)) mid) ∧
    ∀ pre post s, history E n = pre ++ (.finished, s) :: post →
      Tenancy.entersIn deed pre = Tenancy.leavesIn deed none pre := by
  refine ⟨fun _ _ => seat_books, ?_, ?_⟩
  · intro pre mid post p q hsplit hp hq
    rw [seat_tenant]
    exact Tenancy.vacated_between (history_place E n) hsplit hp hq
  · intro pre post s hsplit
    have hvacant : (seat pre).tenant = none := (seating.accepts_split (history_seated E n) hsplit).deed
    have hbalance := seat_books hsplit
    rwa [hvacant] at hbalance

/-- **Nobody is left when a PAM session is closed.** Whenever `pam_close_session` is called the seat is vacant, and every
child that was forked before has been seen to end since. -/
theorem closed_when_vacant (E : Env) (n : ℕ) (pre post : List (Event × St)) (h : ℕ) (ok : Bool) (s : St)
    (hsplit : history E n = pre ++ (.pam (.run .closeSession h ok), s) :: post) :
    (seat pre).tenant = none ∧ ∀ (before since : List (Event × St)) (what : ChildKind) (r : Pid × Child) (t : St),
      pre = before ++ (.fork what (some r), t) :: since →
      0 < Tenancy.leavesIn deed (some { what, pid := r.1 }) since := by
  have hvacant : (seat pre).tenant = none := (seating.accepts_split (history_seated E n) hsplit).deed
  refine ⟨hvacant, ?_⟩
  rintro before since what r t rfl
  have haccepts := history_place E n
  rw [hsplit, place.accepts_append, place.accepts_append] at haccepts
  have hsince : place.accepts (some { what, pid := r.1 }) since := haccepts.1.2.2
  have hafter : place.after (some { what, pid := r.1 }) since = none := by
    rw [seat_tenant, place.after_append, place.after_cons] at hvacant
    exact hvacant
  have hbalance := Tenancy.enters_add_tenant hsince
  rw [hafter] at hbalance
  simp only [Tenancy.tenants, Option.isSome_some, Option.isSome_none, Bool.toNat_true, Bool.toNat_false] at hbalance
  omega

/-- without a pause a seat that is not rested stays so -/
theorem pause_of_rested {l : List (Event × St)} : ∀ {k : Seat}, k.rested = false → (seating.after k l).rested = true →
    ∃ t, (.sleep, t) ∈ l := by
  induction l with
  | nil =>
    intro k hk h
    rw [Monitor.after_nil, hk] at h
    cases h
  | cons p l ih =>
    intro k hk h
    by_cases hsleep : p.1 = .sleep
    · exact ⟨p.2, by rw [← hsleep]; exact List.mem_cons_self⟩
    · have hstep : (k.step p.1).rested = false := by
        unfold Seat.step
        dsimp only
        split
        · rename_i he
          exact absurd he hsleep
        · rfl
        · rw [hk, Bool.false_and]
      obtain ⟨t, ht⟩ := ih hstep h
      exact ⟨t, List.mem_cons_of_mem _ ht⟩

/-- **A pause before every process.** Between an attempt to fork a greeter, or a greeter being seen to end, and the next
attempt to fork a process there is a pause. -/
theorem paused_between (E : Env) (n : ℕ) (pre mid post : List (Event × St)) (p q : Event × St)
    (hsplit : history E n = pre ++ p :: mid ++ q :: post)
    (hp : (∃ r, p.1 = .fork .greeter r) ∨ (seat pre).parts p.1 = true) (hq : ∃ what r, q.1 = .fork what r) :
    ∃ t, (.sleep, t) ∈ mid := by
  have hgood : (seat (pre ++ p :: mid)).Good q.1 := seating.accepts_split (history_seated E n) hsplit
  obtain ⟨what, r, hfork⟩ := hq
  have hrested : (seating.after ((seat pre).step p.1) mid).rested = true := by
    have hafter := hgood.rested what r hfork
    rw [seat, Monitor.after_append, Monitor.after_cons] at hafter
    exact hafter
  refine pause_of_rested ?_ hrested
  unfold Seat.step
  dsimp only
  rcases hp with ⟨r', hp⟩ | hparts
  · rw [hp]
  · split
    · rename_i hsleep
      rw [hsleep, Seat.parts, Tenancy.leaves] at hparts
      cases htenant : (seat pre).tenant <;> simp [htenant, deed, Tenancy.step] at hparts
    · rfl
    · rw [hparts, Bool.not_true, Bool.and_false]

/-- **The rules of the seat.** At every moment of every run: a process is forked only while none that was forked before
is left, after a pause; a signal goes to a greeter that was forked and not seen to end since, or to its group, and
SIGKILL only to one that twenty waits after SIGTERM have found running; every wait is for a process that was forked and
not seen to end since; and when `run` returns nobody is left. -/
theorem seat_rules (E : Env) (n : ℕ) (pre post : List (Event × St)) (e : Event) (s : St)
    (hsplit : history E n = pre ++ (e, s) :: post) :
    (∀ what r, e = .fork what r → (seat pre).tenant = none ∧ (seat pre).rested = true) ∧
    (∀ pid sig, e = .kill pid sig → ∃ greeter, Present pre .greeter greeter ∧ (pid = greeter ∨ pid = -greeter) ∧
      (sig = .sigkill → (seat pre).tenant = some { what := .greeter, pid := greeter, asked := some 20 })) ∧
    (∀ pid, waitsFor e = some pid → ∃ what, Present pre what pid) ∧
    (e = .finished → (seat pre).tenant = none) := by
  have hgood : (seat pre).Good e := seating.accepts_split (history_seated E n) hsplit
  have hpre : place.accepts none pre := by
    have haccepts := history_place E n
    rw [hsplit] at haccepts
    exact ((place.accepts_append _ _ _).1 haccepts).1
  refine ⟨?_, ?_, ?_, ?_⟩
  · rintro what r rfl
    refine ⟨?_, hgood.rested what r rfl⟩
    cases r <;> exact hgood.deed
  · rintro pid sig rfl
    obtain ⟨o, ho, hwhat, hpid, hkill⟩ := hgood.deed
    refine ⟨o.pid, hwhat ▸ present_of_tenant hpre ho, hpid, fun hsig => ?_⟩
    have hasked := hkill hsig
    rw [ho]
    cases o
    simp_all
  · intro pid hpid
    cases e with
    | waitpid p answer =>
      cases hpid
      obtain ⟨o, ho, -, rfl⟩ := hgood.deed
      exact ⟨o.what, present_of_tenant hpre ho⟩
    | waiting p =>
      cases hpid
      obtain ⟨o, ho, -, rfl⟩ := hgood.deed
      exact ⟨o.what, present_of_tenant hpre ho⟩
    | waitInterrupted p =>
      cases hpid
      obtain ⟨o, ho, -, rfl⟩ := hgood.deed
      exact ⟨o.what, present_of_tenant hpre ho⟩
    | waitDone p status =>
      cases hpid
      obtain ⟨o, ho, rfl, -⟩ := hgood.deed
      exact ⟨o.what, present_of_tenant hpre ho⟩
    | _ => cases hpid
  · rintro rfl
    exact hgood.deed

/-! ## Witnesses -/

/-- alice logs in, her session ends, and then polling fails; no greeter goes when it is asked to -/
def demo : Env := Ownership.demo

def forks : Event × St → Bool
  | (.fork _ _, _) => true
  | _ => false

def starts : Event × St → Bool
  | (.fork .greeter _, _) => true
  | _ => false

/-- her greeter is killed after twenty waits -/
theorem seat_rules_kill : ∃ pre, Present pre .greeter 1022 ∧
    (seat pre).tenant = some { what := .greeter, pid := 1022, asked := some 20 } := by
  obtain ⟨s, -, hsplit⟩ := split_at (l := history demo 3) (m := 90) (a := .kill (-1022) .sigkill) (by decide +kernel)
  obtain ⟨greeter, hpresent, hpid, hkill⟩ := (seat_rules demo 3 _ _ _ s hsplit).2.1 _ _ rfl
  have hgreeter : greeter = 1022 := by
    obtain ⟨_, _, _, r, _, _, hr, -⟩ := hpresent
    have hpos := r.2
    omega
  subst hgreeter
  exact ⟨_, hpresent, hkill rfl⟩

/-- two greeters and a session, all of them seen to end -/
theorem children_balance_demo : ∃ pre s post, history demo 3 = pre ++ (.finished, s) :: post ∧
    Tenancy.entersIn deed pre = 3 ∧ Tenancy.leavesIn deed none pre = 3 := by
  obtain ⟨s, -, hsplit⟩ := split_at (l := history demo 3) (m := 188) (a := .finished) (by decide +kernel)
  have henters : Tenancy.entersIn deed ((history demo 3).take 188) = 3 := by decide +kernel
  have hbalance := (children_balance demo 3).2.2 _ _ s hsplit
  exact ⟨_, s, _, hsplit, henters, hbalance.symm.trans henters⟩

/-- the fork of the session whose process is 1101 -/
def startsSession : Event × St → Bool
  | (.fork .session (some r), _) => r.1.1 = 1101
  | _ => false

/-- her session's PAM session is closed when its process has been waited for -/
theorem closed_when_vacant_demo : (seat ((history demo 3).take 109)).tenant = none ∧
    0 < Tenancy.leavesIn deed (some { what := .session, pid := 1101 }) (((history demo 3).take 109).drop 105) := by
  obtain ⟨s, -, hsplit⟩ := split_at (l := history demo 3) (m := 109) (a := .pam (.run .closeSession 1 true))
    (by decide +kernel)
  obtain ⟨p, hp, hfork⟩ := split_any (l := (history demo 3).take 109) (m := 104) (f := startsSession) (by decide +kernel)
  obtain ⟨hvacant, hgone⟩ := closed_when_vacant demo 3 _ _ 1 true s hsplit
  refine ⟨hvacant, ?_⟩
  rcases p with ⟨e, t⟩
  cases e with
  | fork what r =>
    cases what with
    | greeter => cases hp
    | session =>
      cases r with
      | none => cases hp
      | some r =>
        have hpid : (r.1 : ℤ) = 1101 := of_decide_eq_true hp
        have hleft := hgone _ _ .session r t hfork
        rwa [hpid] at hleft
  | _ => cases hp

/-- between the fork of her greeter and that of her session -/
theorem paused_between_demo : ∃ t, (.sleep, t) ∈ (history demo 3).take 104 := by
  obtain ⟨q, hq, hsplit⟩ := split_any (l := history demo 3) (m := 104) (f := forks) (by decide +kernel)
  obtain ⟨p, hp, hfirst⟩ := split_any (l := (history demo 3).take 104) (m := 22) (f := starts) (by decide +kernel)
  rw [hfirst] at hsplit
  have hstart : ∃ r, p.1 = .fork .greeter r := by
    rcases p with ⟨e, t⟩
    cases e with
    | fork what r =>
      cases what with
      | greeter => exact ⟨r, rfl⟩
      | session => cases hp
    | _ => cases hp
  have hfork : ∃ what r, q.1 = .fork what r := by
    rcases q with ⟨e, t⟩
    cases e with
    | fork what r => exact ⟨what, r, rfl⟩
    | _ => cases hq
  obtain ⟨t, ht⟩ := paused_between demo 3 _ _ _ p q hsplit (Or.inl hstart) hfork
  refine ⟨t, ?_⟩
  rw [hfirst]
  exact List.mem_append_right _ (List.mem_cons_of_mem _ ht)

end Miqudm.Seating
