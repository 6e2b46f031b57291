/-
What each method of `PamAuth` calls, and how it leaves the object.

The results are about every answer of libpam. `core` is what of an object decides its calls: the handle and the two
flags. A step that runs the modules makes one call and succeeds exactly when the call does (`runStep_spec`);
`authenticate` answers the prompts with the password it was given (`authenticate_spec`); `end` only releases
(`end_spec`).
-/
import Miqudm.Daemon.PamAuth

namespace Miqudm

open Miqudm.Core Prog

/-- the calls of a log -/
def calls {σ : Type} (l : List (PamCall × σ)) : List PamCall := l.map Prod.fst

@[simp] theorem calls_nil {σ : Type} : calls ([] : List (PamCall × σ)) = [] := rfl

@[simp] theorem calls_cons {σ : Type} (p : PamCall × σ) (l : List (PamCall × σ)) : calls (p :: l) = p.1 :: calls l := rfl

@[simp] theorem calls_append {σ : Type} (l l' : List (PamCall × σ)) : calls (l ++ l') = calls l ++ calls l' :=
  List.map_append

/-- a PAM session is open from here on -/
def PamCall.opens : PamCall → Bool
  | .run .openSession _ ok => ok
  | _ => false

/-- the calls that give something back -/
def PamCall.releases : PamCall → Bool
  | .run .closeSession _ _ => true
  | .run .deleteCred _ _ => true
  | .pamEnd _ => true
  | _ => false

theorem PamCall.not_opens_of_releases {c : PamCall} (h : c.releases) : c.opens = false := by
  unfold PamCall.releases at h
  split at h <;> simp_all [PamCall.opens]

/-- a change of a handle is seen when it is looked up -/
theorem Libpam.handle?_onHandle {f : Handle → Handle} (hf : ∀ hd, (f hd).id = hd.id) (p : Libpam) (h : ℕ) :
    (p.onHandle h f).handle? h = (p.handle? h).map f := by
  simp only [Libpam.handle?, Libpam.onHandle, List.find?_map]
  have hid : ((fun hd : Handle => decide (hd.id = h)) ∘ fun hd => if hd.id = h then f hd else hd) =
      fun hd => decide (hd.id = h) := by
    funext hd
    by_cases hhd : hd.id = h <;> simp [hhd, hf]
  rw [hid]
  cases hfind : p.handles.find? fun hd => decide (hd.id = h) with
  | none => rfl
  | some hd =>
    have hhd : hd.id = h := by simpa using List.find?_some hfind
    simp [hhd]

namespace PamAuth

/-- the handle, and whether there are credentials to delete and a session to close -/
def core (self : PamAuth) : Option ℕ × Bool × Bool := (self.pamHandle, self.credentialsSet, self.sessionOpened)

section Methods

variable {E : PamEnv} {self : PamAuth} {p : Libpam} {h : ℕ}

theorem runStep_spec (hh : self.pamHandle = some h) (fn : PamFn) (noted : PamAuth) :
    Sat (self.runStep E fn noted) p
      (fun l r _ => calls l = [.run fn h r.1] ∧ r.2.core = if r.1 then noted.core else self.core)
      (fun _ _ _ => True) := by
  simp only [runStep, hh, pamRun, sat_bind, sat_get, sat_act, sat_pure, sat_ite]
  constructor
  · intro hret
    simp [hret, core, hh]
  · intro hret
    simp [not_not.1 hret]

theorem undoStep_spec (hh : self.pamHandle = some h) (pending : Bool) (fn : PamFn) (cleared : PamAuth) :
    Sat (self.undoStep E pending fn cleared) p
      (fun l r _ => (∀ c ∈ calls l, ∃ ok, c = .run fn h ok) ∧ r.2.core = if pending then cleared.core else self.core)
      (fun _ _ _ => True) := by
  simp only [undoStep, hh, pamRun, sat_bind, sat_get, sat_act, sat_pure, sat_ite]
  have hone : ∀ (b : Bool), ∀ c ∈ calls ([] ++ ([(PamCall.run fn h b, p)] ++ [])), ∃ ok, c = .run fn h ok := by
    intro b c hc
    exact ⟨b, by simpa using hc⟩
  refine ⟨fun hp => ⟨by simp, by simp [hp]⟩, fun hp => ⟨fun _ => ⟨?_, ?_⟩, fun _ => ⟨?_, ?_⟩⟩⟩
  · exact hone _
  · rw [if_pos (not_not.1 hp)]; rfl
  · exact hone _
  · rw [if_pos (not_not.1 hp)]

theorem undoStep_none (hh : self.pamHandle = none) (pending : Bool) (fn : PamFn) (cleared : PamAuth) :
    self.undoStep E pending fn cleared = pure (true, self) := by
  rw [undoStep, hh]

theorem closeSession_spec (hh : self.pamHandle = some h) :
    Sat (self.closeSession E) p (fun l r _ => (∀ c ∈ calls l, c.releases) ∧
      r.2.core = (some h, self.credentialsSet, false)) (fun _ _ _ => True) := by
  refine Sat.mono (undoStep_spec hh _ _ _) (fun l r _ hr => ⟨fun c hc => ?_, ?_⟩) (fun _ _ _ _ => trivial)
  · obtain ⟨ok, rfl⟩ := hr.1 c hc
    rfl
  · rw [hr.2]
    cases hs : self.sessionOpened <;> simp [core, hh, hs]

theorem deleteCredentials_spec (hh : self.pamHandle = some h) :
    Sat (self.deleteCredentials E) p (fun l r _ => (∀ c ∈ calls l, c.releases) ∧
      r.2.core = (some h, false, self.sessionOpened)) (fun _ _ _ => True) := by
  refine Sat.mono (undoStep_spec hh _ _ _) (fun l r _ hr => ⟨fun c hc => ?_, ?_⟩) (fun _ _ _ _ => trivial)
  · obtain ⟨ok, rfl⟩ := hr.1 c hc
    rfl
  · rw [hr.2]
    cases hs : self.credentialsSet <;> simp [core, hh, hs]

theorem closeOpened_spec (hh : self.pamHandle = some h) :
    Sat (self.closeOpened E) p
      (fun l r _ => (∀ c ∈ calls l, c.releases) ∧ r.core = (some h, self.credentialsSet, false)) (fun _ _ _ => True) := by
  unfold closeOpened
  refine (sat_ite _ _ _).2 ⟨fun _ => ?_, fun hs => ?_⟩
  · refine (sat_bind _ _).2 (Sat.mono (closeSession_spec hh) (fun l r _ hr => ?_) (fun _ _ _ _ => trivial))
    exact ⟨by simpa using hr.1, hr.2⟩
  · exact ⟨by simp, by simp [core, hh, hs]⟩

theorem deleteSet_spec (hh : self.pamHandle = some h) :
    Sat (self.deleteSet E) p (fun l r _ => (∀ c ∈ calls l, c.releases) ∧ r.core = (some h, false, self.sessionOpened))
      (fun _ _ _ => True) := by
  unfold deleteSet
  refine (sat_ite _ _ _).2 ⟨fun _ => ?_, fun hs => ?_⟩
  · refine (sat_bind _ _).2 (Sat.mono (deleteCredentials_spec hh) (fun l r _ hr => ?_) (fun _ _ _ _ => trivial))
    exact ⟨by simpa using hr.1, hr.2⟩
  · exact ⟨by simp, by simp [core, hh, hs]⟩

theorem endHandle_spec (hh : self.pamHandle = some h) :
    Sat (self.endHandle E h) p (fun l r _ => (∀ c ∈ calls l, c.releases) ∧ r.core = (none, false, false))
      (fun _ _ _ => True) := by
  refine (sat_bind _ _).2 (Sat.mono (closeOpened_spec hh) (fun l self' p hr => ?_) (fun _ _ _ _ => trivial))
  have hh' : self'.pamHandle = some h := congrArg Prod.fst hr.2
  have hs' : self'.sessionOpened = false := congrArg (fun c => c.2.2) hr.2
  refine (sat_bind _ _).2 (Sat.mono (deleteSet_spec hh') (fun l' self'' p hr' => ?_) (fun _ _ _ _ => trivial))
  have hc'' : self''.credentialsSet = false := congrArg (fun c => c.2.1) hr'.2
  have hs'' : self''.sessionOpened = self'.sessionOpened := congrArg (fun c => c.2.2) hr'.2
  simp only [pamEnd, sat_bind, sat_act, sat_pure]
  refine ⟨fun c hc => ?_, by simp [core, hc'', hs'', hs']⟩
  simp only [calls_append, calls_cons, calls_nil, List.mem_append, List.mem_singleton, List.append_nil] at hc
  rcases hc with hc | hc | rfl
  · exact hr.1 c hc
  · exact hr'.1 c hc
  · rfl

theorem end_spec : Sat (self.end_ E) p (fun l r _ => (∀ c ∈ calls l, c.releases) ∧ r.core = (none, false, false))
    (fun _ _ _ => True) := by
  unfold end_
  split
  case _ hh => simp [core, hh]
  case _ h hh =>
    rw [sat_bind]
    refine Sat.mono (endHandle_spec hh) (fun l r p hr => ?_) (fun _ _ _ _ => trivial)
    have hnone : r.pamHandle = none := congrArg Prod.fst hr.2
    exact ⟨by simpa using hr.1, by simp [core, hnone]⟩

theorem end_none (hh : self.pamHandle = none) :
    self.end_ E = pure { self with sessionOpened := false, credentialsSet := false } := by
  rw [end_, hh]

theorem setEnv_spec (name value : Str) :
    Sat (self.setEnv E name value) p (fun l _ _ => ∀ c ∈ calls l, c.opens = false) (fun _ _ _ => True) := by
  unfold setEnv
  split
  · simp
  · simp [pamPutenv, sat_bind, PamCall.opens]

/-- `start` on a new object: it succeeds exactly when a handle was started, for the name as a C string -/
theorem start_spec (username serviceName : Str) :
    Sat (start E {} username serviceName) p
      (fun l r p' => (∀ c ∈ calls l, c.opens = false) ∧
        (r.1 = true → ∃ service h, (.start service (cstr username) serviceName (some h)) ∈ calls l ∧
          r.2.core = (some h, false, false) ∧ (p'.handle? h).isSome) ∧
        (r.1 = false → r.2.core = (none, false, false)))
      (fun _ _ _ => True) := by
  have hnew : ({} : PamAuth).end_ E = pure {} := end_none rfl
  simp only [start, hnew, startHandle, pamStart, sat_bind, sat_get, sat_ite, sat_act, sat_pure]
  refine ⟨fun h1 => ⟨fun h => absurd h1 h, fun _ => ⟨fun h => absurd h1 h, fun _ => ?_⟩⟩,
    fun h1 => ⟨fun _ => ⟨fun h2 => ⟨fun h => absurd h2 h, fun _ => ?_⟩, fun h2 => ⟨fun _ => ?_, fun h => absurd h2 h⟩⟩,
      fun h => absurd h1 h⟩⟩
  · refine ⟨by simp [PamCall.opens], fun _ => ⟨cstr serviceName, p.nextHandle, by simp, rfl, ?_⟩, by simp⟩
    simp [Libpam.handle?]
  · refine ⟨by simp [PamCall.opens], fun _ => ⟨cstr (lit "login"), p.nextHandle, by simp, rfl, ?_⟩, by simp⟩
    simp [Libpam.handle?]
  · exact ⟨by simp [PamCall.opens], by simp, fun _ => rfl⟩

/-- `authenticate` on a handle of libpam: the modules are run with the given password, and it succeeds when they do -/
theorem authenticate_spec (hh : self.pamHandle = some h) (hp : (p.handle? h).isSome) (password : Str) :
    Sat (self.authenticate E password) p
      (fun l r _ => (∀ c ∈ calls l, c.opens = false) ∧ r.2.core = self.core ∧
        (r.1 = true → (.run (.authenticate (some (cstr password))) h true) ∈ calls l))
      (fun _ _ _ => True) := by
  obtain ⟨hd, hhd⟩ := Option.isSome_iff_exists.1 hp
  -- the appdata of the handle is the object that was just made
  have hanswer : ∀ p' : Libpam, p'.handles = p.handles → p'.objects = (p.nextObject, password) :: p.objects →
      (p'.onHandle h fun hd => { hd with conv := some p.nextObject }).answer h = some (cstr password) := by
    intro p' hhandles hobjects
    have hhd' : p'.handle? h = some hd := by rw [Libpam.handle?, hhandles]; exact hhd
    have hobj : (p'.onHandle h fun hd => { hd with conv := some p.nextObject }).objects = p'.objects := rfl
    rw [Libpam.answer, Libpam.handle?_onHandle (f := fun hd => { hd with conv := some p.nextObject }) (fun _ => rfl),
      hhd', hobj, hobjects]
    simp
  simp only [authenticate, hh, newUserData, pamSetConv, pamRun, wipeUserData, freeUserData, sat_bind, sat_get, sat_act,
    sat_pure, sat_ite, sat_when]
  refine ⟨fun _ => ⟨by simp [PamCall.opens], by simp [core, hh], by simp⟩, fun h1 => ?_⟩
  simp only [not_not.1 h1, if_true]
  rw [hanswer { p with nextObject := p.nextObject + 1, objects := (p.nextObject, password) :: p.objects } rfl rfl]
  refine ⟨fun _ => ⟨fun h2 => ?_, fun h2 => ?_⟩, fun _ => ⟨fun h2 => ?_, fun h2 => ?_⟩⟩
  · exact ⟨by simp [PamCall.opens], by simp [core, hh], by simp⟩
  · exact ⟨by simp [PamCall.opens], trivial, by simp [not_not.1 h2]⟩
  · exact ⟨by simp [PamCall.opens], by simp [core, hh], by simp⟩
  · exact ⟨by simp [PamCall.opens], trivial, by simp [not_not.1 h2]⟩

end Methods

end PamAuth

end Miqudm
