/-
What a session finds in XDG_CURRENT_DESKTOP and XDG_SESSION_DESKTOP.

`launch` sets both to the DesktopNames of the session, or to its name without any, and then overlays the environment of
the PAM handle. But `handle_login_request` has put the same two variables there, with the `desktop_name` of the request,
and that is the id of the entry. The overlay comes last, so the session finds the id: `desktop_iff` says that it finds
what the entry declares if and only if the id happens to be that text (`NamedAlike`). `ubuntu_session` is a run with an
entry for which it is not.

The proof follows the environment of the login's handle: untouched up to `setLoginEnv`, told the id there, and the same
until `getEnvironmentList`, because the greeter's object that is released in between has another handle (the books of
`DaemonLedger`).
-/
import Miqudm.Daemon.Environment
import Miqudm.Daemon.Logins

namespace Miqudm.DesktopNames

open Miqudm.Core Prog

def currentDesktop : Str := lit "XDG_CURRENT_DESKTOP"

def sessionDesktop : Str := lit "XDG_SESSION_DESKTOP"

def desktopVariables : List Str := [currentDesktop, sessionDesktop]

theorem varName_of_mem {x : Str} (hx : x ∈ desktopVariables) : VarName x := by
  rcases List.mem_cons.1 hx with rfl | hx
  · decide
  · rw [List.mem_singleton.1 hx]
    decide

/-- what the desktop entry declares -/
def declared (session : SessionInfo) : Str :=
  if session.desktopNames ≠ [] then session.desktopNames else session.name

/-- the id, or what is declared when there is none, is what is declared -/
def NamedAlike (session : SessionInfo) : Prop :=
  cstr (if session.id = [] then declared session else session.id) = declared session

/-- no PAM module writes the two variables -/
def ModulesLeave (E : PamEnv) : Prop := ∀ n, ∀ entry ∈ E.modules n, entryName entry ∉ desktopVariables

/-! ## The environment of a handle -/

/-- the environment has neither of the two variables -/
def Untold (env : List Str) : Prop := ∀ x ∈ desktopVariables, Silent x env

/-- it has been told the desktop, if there is one to tell -/
def Told (desktop : Str) (env : List Str) : Prop :=
  ∀ x ∈ desktopVariables, told x env = if desktop = [] then [] else [cstr desktop]

/-- a property that entries for other variables leave alone -/
def Apart (P : List Str → Prop) : Prop :=
  ∀ env entry, entryName entry ∉ desktopVariables → P env → P (putEntry env entry)

theorem untold_apart : Apart Untold := fun _ _ hentry h x hx => (h x hx).put fun he => hentry (he ▸ hx)

theorem told_apart (desktop : Str) : Apart (Told desktop) := by
  intro env entry hentry h x hx
  rw [told_put_other fun he => hentry (he ▸ hx)]
  exact h x hx

theorem Apart.modules {P : List Str → Prop} (hP : Apart P) : ∀ (entries env : List Str),
    (∀ entry ∈ entries, entryName entry ∉ desktopVariables) → P env → P (entries.foldl putEntry env) := by
  intro entries
  induction entries with
  | nil => exact fun _ _ h => h
  | cons entry entries ih =>
    intro env hentries h
    rw [List.forall_mem_cons] at hentries
    exact ih _ hentries.2 (hP env entry hentries.1 h)

theorem cstr_cstr (s : Str) : cstr (cstr s) = cstr s := by
  apply cstr_of_noNul
  intro h
  simpa using List.mem_takeWhile_imp h

/-- the entry that `setEnv` hands over -/
theorem setEnv_entry {name : Str} (hname : VarName name) (value : Str) :
    cstr (name ++ lit "=" ++ value) = name ++ '=' :: cstr value := by
  have hentry : name ++ lit "=" ++ value = name ++ '=' :: value := by simp [lit]
  rw [hentry, cstr_append hname.noNul, cstr_cons (by decide)]

theorem entryName_entry {name : Str} (hname : VarName name) (value : Str) : entryName (name ++ '=' :: value) = name := by
  rw [entryName, takeWhile_name hname.noEquals, cstr_of_noNul hname.noNul]

/-- the handle is there, and its environment is as `P` says -/
def EnvAt (h : ℕ) (P : List Str → Prop) (p : Libpam) : Prop := ∃ hd, p.handle? h = some hd ∧ P hd.env

/-- the object has a handle with such an environment -/
def HasEnv (P : List Str → Prop) (pam : PamAuth) (p : Libpam) : Prop := ∃ h, pam.pamHandle = some h ∧ EnvAt h P p

theorem EnvAt.onHandle {h : ℕ} {P Q : List Str → Prop} {p : Libpam} (he : EnvAt h P p) {f : Handle → Handle}
    (hid : ∀ hd, (f hd).id = hd.id) (hf : ∀ hd, P hd.env → Q (f hd).env) : EnvAt h Q (p.onHandle h f) := by
  obtain ⟨hd, hhd, hP⟩ := he
  exact ⟨f hd, by rw [Libpam.handle?_onHandle hid, hhd]; rfl, hf hd hP⟩

section Methods

variable {E : PamEnv} (hE : ModulesLeave E) {self : PamAuth} {p : Libpam} {h : ℕ} {P : List Str → Prop}

include hE in
theorem pamRun_env (hP : Apart P) (he : EnvAt h P p) (fn : PamFn) : Ends (pamRun E fn h) p fun _ p' => EnvAt h P p' := by
  refine ends_get_bind (Ends.seq (ends_act ?_) fun _ _ he => ends_pure he)
  exact he.onHandle (fun _ => rfl) fun hd hhd => hP.modules _ _ (hE p.calls) hhd

include hE in
theorem runStep_env (hP : Apart P) (hh : self.pamHandle = some h) (he : EnvAt h P p) (fn : PamFn) {noted : PamAuth}
    (hn : noted.pamHandle = some h) :
    Ends (self.runStep E fn noted) p fun r p' => r.2.pamHandle = some h ∧ EnvAt h P p' := by
  simp only [PamAuth.runStep, hh]
  refine Ends.seq (pamRun_env hE hP he fn) fun ret p' he' => ends_ite (fun _ => ends_pure ?_) fun _ => ends_pure ?_
  · exact ⟨rfl, he'⟩
  · exact ⟨hn, he'⟩

/-- a handle starts with an empty environment -/
theorem start_empty (username serviceName : Str) : Ends (PamAuth.start E {} username serviceName) p fun r p' =>
    r.1 = true → HasEnv (· = []) r.2 p' := by
  have hstart : ∀ (p : Libpam) service user wanted, Ends (pamStart E service user wanted) p fun r p' =>
      r.1 = pamSuccess → ∃ h, r.2 = some h ∧ EnvAt h (· = []) p' := by
    intro p service user wanted
    refine ends_get_bind (ends_ite (fun hret => ?_) fun hret => ?_)
    · refine Ends.seq (ends_act (q := fun _ p' => EnvAt p.nextHandle (· = []) p') ?_) fun _ p' he => ?_
      · exact ⟨⟨p.nextHandle, cstr user, cstr service, none, []⟩, by simp [Libpam.handle?], rfl⟩
      · exact ends_pure fun _ => ⟨p.nextHandle, rfl, he⟩
    · exact Ends.seq (ends_act (q := fun _ _ => True) trivial) fun _ p' _ => ends_pure fun h => absurd h hret
  have hhandle : Ends (PamAuth.startHandle E username serviceName) p fun r p' =>
      r.1 = pamSuccess → ∃ h, r.2 = some h ∧ EnvAt h (· = []) p' := by
    refine Ends.seq (hstart p _ _ _) ?_
    rintro ⟨ret, handle⟩ p' hr
    exact ends_ite (fun _ => hstart p' _ _ _) fun _ => ends_pure hr
  have hnew : PamAuth.end_ E {} = pure {} := PamAuth.end_none rfl
  simp only [PamAuth.start, hnew]
  refine Ends.seq (ends_pure (q := fun self p' => self = {} ∧ p' = p) ⟨rfl, rfl⟩) ?_
  intro _ _ hs
  obtain ⟨rfl, rfl⟩ := hs
  refine Ends.seq hhandle ?_
  rintro ⟨ret, handle⟩ p' hr
  refine ends_ite (fun _ => ends_pure fun hok => ?_) fun hret => ends_pure fun _ => hr (not_not.1 hret)
  exact absurd hok Bool.false_ne_true

theorem start_env (username serviceName : Str) : Ends (PamAuth.start E {} username serviceName) p fun r p' =>
    r.1 = true → HasEnv Untold r.2 p' := by
  apply Ends.mono (start_empty username serviceName)
  intro r p' hr hok
  obtain ⟨h, hh, hd, hhd, hempty⟩ := hr hok
  refine ⟨h, hh, hd, hhd, fun x _ entry hentry => ?_⟩
  rw [hempty] at hentry
  cases hentry

include hE in
theorem authenticate_env (hP : Apart P) (hh : self.pamHandle = some h) (he : EnvAt h P p) (password : Str) :
    Ends (self.authenticate E password) p fun r p' => r.2.pamHandle = some h ∧ EnvAt h P p' := by
  have act : ∀ {p : Libpam} (c : PamCall) {f : Libpam → Libpam}, (∀ p, (f p).handles = p.handles) → EnvAt h P p →
      Ends (Prog.act c f : PamM Unit) p fun _ p' => EnvAt h P p' := by
    intro p c f hf ⟨hd, hhd, hP⟩
    exact ends_act ⟨hd, by rw [Libpam.handle?, hf]; exact hhd, hP⟩
  simp only [PamAuth.authenticate, hh]
  refine Ends.seq (q := fun _ p => EnvAt h P p) ?_ fun d p he => ?_
  · exact ends_get_bind (Ends.seq (act _ (fun _ => rfl) he) fun _ _ he => ends_pure he)
  refine Ends.seq (q := fun _ p => EnvAt h P p) ?_ fun ret p he => ends_ite (fun _ => ?_) fun _ => ?_
  · refine ends_get_bind (Ends.seq (ends_act ?_) fun _ _ he => ends_pure he)
    apply he.onHandle
    · intro hd
      split_ifs <;> rfl
    · intro hd hhd
      split_ifs <;> exact hhd
  · exact Ends.seq (act _ (fun _ => rfl) he) fun _ p he => ends_pure ⟨rfl, he⟩
  · refine ends_get_bind (Ends.seq (pamRun_env hE hP he _) fun ret p he => ?_)
    refine Ends.seq (ends_when (q := fun _ p => EnvAt h P p) (fun _ => act _ (fun _ => rfl) he) fun _ => he) ?_
    intro _ p he
    refine Ends.seq (act _ (fun _ => rfl) he) fun _ p he => ends_ite (fun _ => ends_pure ?_) fun _ => ends_pure ?_
    · exact ⟨rfl, he⟩
    · exact ⟨hh, he⟩

/-- an entry for another variable -/
theorem setEnv_other (hP : Apart P) (hh : self.pamHandle = some h) (he : EnvAt h P p) {name : Str}
    (hname : VarName name) (hother : name ∉ desktopVariables) (value : Str) :
    Ends (self.setEnv E name value) p fun _ p' => EnvAt h P p' := by
  simp only [PamAuth.setEnv, hh]
  refine Ends.seq (ends_get_bind (Ends.seq (ends_act ?_) fun _ _ he => ends_pure he)) fun _ _ he => ends_pure he
  apply he.onHandle
  · intro hd
    split_ifs <;> rfl
  · intro hd hhd
    split_ifs
    · apply hP _ _ _ hhd
      rw [setEnv_entry hname, entryName_entry hname]
      exact hother
    · exact hhd

/-- what putenv has taken -/
def stored : PamCall → Bool
  | .putenv _ _ ok => ok
  | _ => true

/-- an entry that is taken -/
theorem setEnv_stored {Q : List Str → Prop} (hh : self.pamHandle = some h) (he : EnvAt h P p) {name value : Str}
    (hQ : ∀ env, P env → Q (putEntry env (cstr (name ++ lit "=" ++ value)))) :
    Sat (self.setEnv E name value) p (fun l _ p' => (∀ c ∈ calls l, stored c = true) → EnvAt h Q p')
      (fun _ _ _ => True) := by
  simp only [PamAuth.setEnv, hh, pamPutenv, sat_bind, sat_get, sat_act, sat_pure]
  intro hstored
  have hret : E.ret p.calls = pamSuccess := by simpa [stored] using hstored
  apply he.onHandle
  · intro hd
    split_ifs
    rfl
  · intro hd hhd
    rw [if_pos hret]
    exact hQ hd.env hhd

theorem getEnvironmentList_env (hh : self.pamHandle = some h) (he : EnvAt h P p) :
    Ends self.getEnvironmentList p fun env _ => P env := by
  obtain ⟨hd, hhd, hP⟩ := he
  simp only [PamAuth.getEnvironmentList, hh]
  refine ends_get_bind (Ends.seq (ends_act (q := fun _ _ => True) trivial) fun _ _ _ => ends_pure ?_)
  rw [hhd]
  exact hP

end Methods

/-! ### Another handle -/

section Others

variable {E : PamEnv} {self : PamAuth} {p : Libpam} {h : ℕ}

theorem handle?_onHandle_ne {h' : ℕ} (hne : h' ≠ h) {f : Handle → Handle} (hid : ∀ hd, (f hd).id = hd.id) (p : Libpam) :
    (p.onHandle h' f).handle? h = p.handle? h := by
  simp only [Libpam.handle?, Libpam.onHandle]
  induction p.handles with
  | nil => rfl
  | cons hd hds ih =>
    rw [List.map_cons, List.find?_cons, List.find?_cons, ih]
    by_cases hhd : hd.id = h'
    · have hno : decide (hd.id = h) = false := by simpa [hhd] using hne
      rw [if_pos hhd, hid, hno]
    · rw [if_neg hhd]

/-- a method of an object with another handle neither touches this one nor comes to hold it -/
theorem undoStep_spares (hself : self.pamHandle ≠ some h) (pending : Bool) (fn : PamFn) {cleared : PamAuth}
    (hcleared : cleared.pamHandle ≠ some h) :
    Ends (self.undoStep E pending fn cleared) p fun r p' => p'.handle? h = p.handle? h ∧ r.2.pamHandle ≠ some h := by
  unfold PamAuth.undoStep
  split
  · exact ends_pure ⟨rfl, hself⟩
  · case _ h' hh =>
    have hne : h' ≠ h := fun e => hself (by rw [hh, e])
    refine ends_ite (fun _ => ends_pure ⟨rfl, hself⟩) fun _ => ?_
    refine Ends.seq (q := fun _ p' => p'.handle? h = p.handle? h) ?_ fun ret p' hp' => ?_
    · refine ends_get_bind (Ends.seq (ends_act ?_) fun _ _ hp' => ends_pure hp')
      apply handle?_onHandle_ne hne
      intro hd
      rfl
    · exact ends_ite (fun _ => ends_pure ⟨hp', hcleared⟩) fun _ => ends_pure ⟨hp', hcleared⟩

theorem closeSession_spares (hself : self.pamHandle ≠ some h) :
    Ends (self.closeSession E) p fun r p' => p'.handle? h = p.handle? h ∧ r.2.pamHandle ≠ some h :=
  undoStep_spares hself _ _ hself

theorem deleteCredentials_spares (hself : self.pamHandle ≠ some h) :
    Ends (self.deleteCredentials E) p fun r p' => p'.handle? h = p.handle? h ∧ r.2.pamHandle ≠ some h :=
  undoStep_spares hself _ _ hself

theorem end_spares (hself : self.pamHandle ≠ some h) :
    Ends (self.end_ E) p fun r p' => p'.handle? h = p.handle? h ∧ r.pamHandle ≠ some h := by
  unfold PamAuth.end_
  split
  · exact ends_pure ⟨rfl, hself⟩
  · case _ h' hh =>
    have hne : h' ≠ h := fun e => hself (by rw [hh, e])
    have hclose : Ends (self.closeOpened E) p fun r p' => p'.handle? h = p.handle? h ∧ r.pamHandle ≠ some h :=
      ends_ite (fun _ => Ends.seq (closeSession_spares hself) fun _ _ hr => ends_pure hr) fun _ => ends_pure ⟨rfl, hself⟩
    refine Ends.seq (Ends.seq hclose fun self p1 ⟨hp1, hself⟩ => ?_) fun self p2 hp2 => ends_pure hp2
    have hdelete : Ends (self.deleteSet E) p1 fun r p' => p'.handle? h = p.handle? h ∧ r.pamHandle ≠ some h := by
      refine ends_ite (fun _ => Ends.seq (deleteCredentials_spares hself) fun _ _ hr => ?_) fun _ => ends_pure ⟨hp1, hself⟩
      exact ends_pure ⟨hr.1.trans hp1, hr.2⟩
    refine Ends.seq hdelete fun self p2 ⟨hp2, hself⟩ => ?_
    refine Ends.seq (ends_act (q := fun _ p' => p'.handle? h = p.handle? h) ?_) fun _ p3 hp3 => ends_pure ⟨hp3, by simp⟩
    rw [← hp2]
    -- the handle that goes is another one
    simp only [Libpam.handle?, List.find?_filter]
    congr 1
    funext hd
    by_cases hhd : hd.id = h
    · simp [hhd, Ne.symm hne]
    · simp [hhd]

end Others

/-! ## A login -/

section Login

variable {E : Env} {s : St}

/-- what is known of a part when putenv has taken every entry of it -/
def Stores {α : Type} (x : Sys α) (s : St) (q : α → Libpam → Prop) : Prop :=
  Sat x s (fun l a t => (∀ c ∈ pamCalls (events l), stored c = true) → q a t.pam) (fun _ _ _ => True)

theorem stores_pure {α : Type} {a : α} {q : α → Libpam → Prop} (h : q a s.pam) : Stores (pure a : Sys α) s q :=
  fun _ => h

theorem Stores.seq {α β : Type} {x : Sys β} {f : β → Sys α} {q : β → Libpam → Prop} {q' : α → Libpam → Prop}
    (hx : Stores x s q) (hf : ∀ b t, q b t.pam → Stores (f b) t q') : Stores (x >>= f) s q' := by
  refine (sat_bind x f).2 (Sat.mono hx (fun l b t h => ?_) fun _ _ _ _ => trivial)
  simp only [events_append, pamCalls_append, List.forall_mem_append]
  by_cases hl : ∀ c ∈ pamCalls (events l), stored c = true
  · exact Sat.mono (hf b t (h hl)) (fun _ _ _ h' hall => h' hall.2) fun _ _ _ h => h
  · exact Sat.mono (sat_run (f b) t) (fun _ _ _ _ hall => absurd hall.1 hl) fun _ _ _ _ => trivial

theorem stores_onPam {α : Type} {x : PamM α} {q : α → Libpam → Prop}
    (hx : Sat x s.pam (fun l a p => (∀ c ∈ calls l, stored c = true) → q a p) (fun _ _ _ => True)) :
    Stores (onPam E x) s q :=
  Sat.mono (onPam_spec (Q := fun cs a p => (∀ c ∈ cs, stored c = true) → q a p) hx) (fun _ _ _ h => h)
    fun _ _ _ _ => trivial

theorem stores_of_ends {α : Type} {x : PamM α} {q : α → Libpam → Prop} (hx : Ends x s.pam q) : Stores (onPam E x) s q :=
  stores_onPam (Sat.mono hx (fun _ _ _ h _ => h) fun _ _ _ h => h)

/-- a step of the login: if it succeeds, the object has a handle with such an environment for the next one -/
theorem tryStep_stores {step : PamM (Bool × PamAuth)} {failure : Str} {next : PamAuth → Sys (Option Str × PamAuth)}
    {P Q : List Str → Prop} (hstep : Ends step s.pam fun r p => r.1 = true → HasEnv P r.2 p)
    (hnext : ∀ pam t h, pam.pamHandle = some h → EnvAt h P t.pam →
      Stores (next pam) t fun r p => r.1 = none → HasEnv Q r.2 p) :
    Stores (tryStep E step failure next) s fun r p => r.1 = none → HasEnv Q r.2 p := by
  apply Stores.seq (stores_of_ends hstep)
  intro r t hr
  obtain ⟨ok, pam⟩ := r
  cases ok with
  | false => exact stores_pure fun h => absurd h (by simp)
  | true =>
    obtain ⟨h, hh, he⟩ := hr rfl
    exact hnext pam t h hh he

/-- **What the login tells its handle.** -/
theorem setLoginEnv_stores (req : IpcMessage) {pam : PamAuth} {h : ℕ} (hh : pam.pamHandle = some h)
    (he : EnvAt h Untold s.pam) :
    Stores (setLoginEnv E req pam) s fun _ p => EnvAt h (Told req.desktopName) p := by
  have other : ∀ {name : Str} {s : St}, VarName name → name ∉ desktopVariables → EnvAt h Untold s.pam → ∀ value,
      Stores (onPam E (pam.setEnv E.pam name value)) s fun _ p => EnvAt h Untold p := fun hname hother he value =>
    stores_of_ends (setEnv_other untold_apart hh he hname hother value)
  refine Stores.seq (q := fun _ p => EnvAt h Untold p) (fun _ => he) fun vt t he => ?_
  refine Stores.seq (other (by decide) (by decide) he _) fun _ t he => ?_
  refine Stores.seq (other (by decide) (by decide) he _) fun _ t he => ?_
  refine Stores.seq (other (by decide) (by decide) he _) fun _ t he => ?_
  refine Stores.seq (other (by decide) (by decide) he _) fun _ t he => ?_
  have hcurrent : VarName currentDesktop := by decide
  have hsession : VarName sessionDesktop := by decide
  by_cases hdesktop : req.desktopName = []
  · -- nothing to tell
    rw [if_neg (not_not.2 hdesktop)]
    obtain ⟨hd, hhd, huntold⟩ := he
    refine stores_pure ⟨hd, hhd, fun x hx => ?_⟩
    rw [if_pos hdesktop]
    exact told_of_silent (huntold x hx)
  · rw [if_pos hdesktop]
    have hfirst : ∀ env, Untold env → told currentDesktop (putEntry env (cstr (currentDesktop ++ lit "=" ++
        req.desktopName))) = [cstr req.desktopName] ∧ Silent sessionDesktop (putEntry env (cstr (currentDesktop ++
        lit "=" ++ req.desktopName))) := by
      intro env huntold
      rw [setEnv_entry hcurrent]
      refine ⟨?_, (huntold sessionDesktop (by decide)).put ?_⟩
      · rw [told_put_first hcurrent _ (huntold currentDesktop (by decide)), cstr_cstr]
      · rw [entryName_entry hcurrent]
        decide
    have hsecond : ∀ env, told currentDesktop env = [cstr req.desktopName] ∧ Silent sessionDesktop env →
        Told req.desktopName (putEntry env (cstr (sessionDesktop ++ lit "=" ++ req.desktopName))) := by
      intro env ⟨htold, hsilent⟩ x hx
      rw [if_neg hdesktop, setEnv_entry hsession]
      rcases List.mem_cons.1 hx with rfl | hx
      · rw [told_put_other, htold]
        rw [entryName_entry hsession]
        decide
      · rw [List.mem_singleton.1 hx, told_put_first hsession _ hsilent, cstr_cstr]
    refine Stores.seq (stores_onPam (setEnv_stored (Q := fun env => told currentDesktop env = [cstr req.desktopName] ∧
      Silent sessionDesktop env) hh he hfirst)) fun _ t he => ?_
    exact Stores.seq (stores_onPam (setEnv_stored hh he hsecond)) fun _ t he => stores_pure he

theorem attempt_stores (hE : ModulesLeave E.pam) (req : IpcMessage) (s : St) :
    Stores (attempt E req) s fun r p => r.1 = none → HasEnv (Told req.desktopName) r.2 p := by
  have kept : ∀ {x : PamM (Bool × PamAuth)} {h : ℕ} {P : List Str → Prop} {p : Libpam},
      Ends x p (fun r p' => r.2.pamHandle = some h ∧ EnvAt h P p') →
      Ends x p fun r p' => r.1 = true → HasEnv P r.2 p' := fun hx => Ends.mono hx fun _ _ hr _ => ⟨_, hr⟩
  refine tryStep_stores (start_env _ _) fun pam t h hh he => ?_
  refine tryStep_stores (kept (authenticate_env hE untold_apart hh he _)) fun pam t h hh he => ?_
  refine tryStep_stores (kept (runStep_env hE untold_apart hh he _ hh)) fun pam t h hh he => ?_
  refine tryStep_stores (kept (runStep_env hE untold_apart hh he _ hh)) fun pam t h hh he => ?_
  refine Stores.seq (setLoginEnv_stores req hh he) fun _ t he => ?_
  refine tryStep_stores (kept (runStep_env hE (told_apart _) hh he _ hh)) fun pam t h hh he => ?_
  exact stores_pure fun _ => ⟨h, hh, he⟩

end Login

/-! ## The fork -/

section Fork

variable (E : Env)

/-- the child of a session overlays an environment that was told the desktop of the request -/
def Overlaid : Event → St → Prop
  | .fork .session (some (_, child)), s => ∃ f user pamEnvs vt s' a, s.frame = some f ∧ f.req.type = .login ∧
      child = sessionChild E user (findSession s.cachedSessions f.req) pamEnvs vt s' a ∧
      Told f.req.desktopName pamEnvs
  | _, _ => True

/-- it remembers whether putenv has taken everything -/
def reading : Monitor Event St Halt Bool where
  step k e := k && (e.pamCall?.map stored).getD true
  good k e s := k = true → Overlaid E e s

variable {E}

theorem overlaid_of_not_forks {e : Event} {s : St} (h : e.forksSession = false) : Overlaid E e s := by
  unfold Overlaid
  split
  · cases h
  · trivial

theorem true_of_step {k : Bool} {e : Event} (h : (reading E).step k e = true) : k = true :=
  (Bool.and_eq_true_iff.1 h).1

/-- outside of logins; what was known while everything had been taken still is -/
theorem reading_outside (φ : Prop) : Outside E (reading E) (fun k => k = true → φ) (fun _ => True) where
  passes _ _ _ hk he := ⟨fun _ => overlaid_of_not_forks he, fun h => hk (true_of_step h)⟩
  stops _ _ _ := trivial
  greeter _ _ := ends_any _ _

theorem after_reading (l : List (Event × St)) : ∀ k, (reading E).after k l = true ↔
    k = true ∧ ∀ c ∈ pamCalls (events l), stored c = true := by
  induction l with
  | nil => simp
  | cons p l ih =>
    intro k
    rw [Monitor.after_cons, ih, events_cons]
    cases hcall : p.1.pamCall? with
    | none => simp [reading, pamCalls, hcall]
    | some c => simp [reading, pamCalls, hcall, and_assoc]

variable {k : Bool} {s : St}

/-- a part that forks no session -/
theorem reading_part {α : Type} {x : Sys α} (hx : Within elsewhere x) {q : α → St → Prop} (hq : Ends x s q) :
    Watched (reading E) k x s (fun k' a t => (k' = true → k = true) ∧ q a t) :=
  (reading_outside (k = true)).part id hx hq

theorem Stores.watched {α : Type} {x : Sys α} {q : α → Libpam → Prop} (hx : Stores x s q) {g : St → St}
    (hcalm : Within (calmly g) x) :
    Watched (reading E) k x s (fun k' a t => (k' = true → k = true ∧ q a t.pam) ∧ g s = g t) := by
  have hpart : Watched (reading E) k x s (fun _ _ t => g s = g t) :=
    Watched.mono (reading_part (Calm.elsewhere hcalm) (Sat.ends (hcalm s) fun _ _ _ h => h.2)) fun _ _ _ h => h.2
  refine Sat.mono (Sat.and hpart hx) (fun l a t h => ⟨h.1.1, fun hk' => ?_, h.1.2⟩) fun _ _ _ h => h.1
  obtain ⟨hk, hl⟩ := (after_reading l k).1 hk'
  exact ⟨hk, h.2 hl⟩

theorem launch_overlaid {f : Frame} (hb : Busy s f) (hlogin : f.req.type = .login) {user : UserInfo}
    {session : SessionInfo} {pamEnvs : List Str} (hsession : session = findSession s.cachedSessions f.req)
    (htold : k = true → Told f.req.desktopName pamEnvs) (vt : ℤ) :
    Watched (reading E) k (launch E user session pamEnvs vt) s (fun _ _ _ => True) := by
  have ho : Outside E (reading E) (fun k' => k' = true → k = true) (fun _ => True) := reading_outside _
  refine watched_bind (ho.op id rfl fun k1 b hk1 => ?_)
  have hrunning : Ends (isRunning E) ((s.setRunning b).tick (s.now + 1)) fun _ t => apartClock s = apartClock t :=
    Sat.ends (isRunning_calm E _) fun _ _ _ h => h.2
  refine Watched.seq (ho.part hk1 (Calm.elsewhere (isRunning_calm E)) hrunning) fun k2 running t ⟨hk2, ht⟩ => ?_
  refine watched_ite (fun _ => watched_pure trivial) fun _ => ?_
  -- the fork: the connection and the caches have not changed
  have hinterfere : Ends (interfere E) t fun _ u => apartClock s = apartClock u :=
    Sat.ends (interfere_calm E t) fun _ _ _ h => Eq.trans ht h.2
  refine watched_bind (watched_bind (watched_get (watched_bind (Watched.seq
    (ho.part hk2 (Calm.elsewhere (interfere_calm E)) hinterfere) fun k3 _ u ⟨hk3, hu⟩ => ?_))))
  refine watched_act (fun htrue => ?_) (watched_pure ?_)
  · have hframe : s.frame = u.frame := same_of_erased hu fun _ => rfl
    have hcached : s.cachedSessions = u.cachedSessions := same_of_erased hu fun _ => rfl
    cases hfork : E.fork t.now with
    | none => trivial
    | some pid =>
      refine ⟨f, user, pamEnvs, vt, t, E.child t.now, hframe ▸ hb.frame, hlogin, ?_, htold (hk3 htrue)⟩
      rw [hsession, hcached]
      rfl
  · split
    · exact watched_pure trivial
    · exact watched_bind ((reading_outside True).op (fun _ => trivial) rfl fun _ _ _ => watched_pure trivial)

/-! ## The session of a login -/

/-- an object with another handle is released -/
theorem releasePam_spares {h : ℕ} {pam : PamAuth} (hpam : pam.pamHandle ≠ some h) :
    Ends (releasePam E pam) s fun _ t => t.pam.handle? h = s.pam.handle? h := by
  refine Ends.seq (onPam_ends (closeSession_spares hpam)) ?_
  intro ⟨_, pam⟩ t ⟨ht, hpam⟩
  refine Ends.seq (onPam_ends (deleteCredentials_spares hpam)) ?_
  intro ⟨_, pam⟩ u ⟨hu, hpam⟩
  refine Ends.seq (onPam_ends (end_spares hpam)) fun pam v ⟨hv, hpam⟩ => ?_
  refine Ends.seq (onPam_ends (end_spares hpam)) fun _ w ⟨hw, _⟩ => ends_pure ?_
  calc w.pam.handle? h = v.pam.handle? h := hw
    _ = u.pam.handle? h := hv
    _ = t.pam.handle? h := hu
    _ = s.pam.handle? h := ht

/-- the greeter that is stopped has another handle -/
theorem stopGreeter_spares {h : ℕ} (hgreeter : ∀ g, s.greeterPam = some g → g.pamHandle ≠ some h) :
    Ends (stopGreeter E) s fun _ t => t.pam.handle? h = s.pam.handle? h := by
  refine Ends.seq (aside_ends (aside_op_id E rfl) s) fun _ t ht => ends_get_bind ?_
  have hprocess : Within aside (Prog.when (t.greeterPid > 0) (stopGreeterProcess E t.greeterPid)) :=
    within_when (stopGreeterProcess_aside E _)
  refine Ends.seq (aside_ends hprocess t) fun _ u hu => ?_
  obtain ⟨hpam, hmember, -⟩ := holdings_eq (Eq.trans ht hu)
  refine Ends.seq (q := fun _ t => t.pam.handle? h = s.pam.handle? h) (ends_get_bind ?_) fun _ v hv => ends_op fun _ => hv
  split
  · case _ pam hgreeterPam =>
    have hother : pam.pamHandle ≠ some h := hgreeter pam (hmember.trans hgreeterPam)
    refine Ends.seq (releasePam_spares hother) fun _ v hv => ends_op fun _ => ?_
    exact Eq.trans hv (by rw [hpam])
  · exact ends_pure (by rw [hpam])

theorem EnvAt.of_handle {h : ℕ} {P : List Str → Prop} {p p' : Libpam} (he : EnvAt h P p)
    (hp : p'.handle? h = p.handle? h) : EnvAt h P p' := by
  obtain ⟨hd, hhd, hP⟩ := he
  exact ⟨hd, hp.trans hhd, hP⟩

/-- the environment that is read for the launch is what the login has told its handle -/
theorem prepare_told {req : IpcMessage} {pam : PamAuth} (hpam : HasEnv (Told req.desktopName) pam s.pam)
    (hactive : s.activePam = none)
    (hgreeter : ∀ g, s.greeterPam = some g → ∀ h, pam.pamHandle = some h → g.pamHandle ≠ some h) :
    Ends (prepare E req pam) s fun p _ => Told req.desktopName p.pamEnvs := by
  obtain ⟨h, hh, he⟩ := hpam
  have hspared := stopGreeter_spares (E := E) (h := h) fun g hg => hgreeter g hg h hh
  refine Ends.seq ((stopGreeter_ends s).and hspared) fun _ t ht => ends_get_bind ?_
  have hactive : t.activePam = none := (same_of_erased (p := St.activePam) ht.1 fun _ => rfl).symm.trans hactive
  have he : EnvAt h (Told req.desktopName) t.pam := he.of_handle ht.2
  -- the last user is written down
  refine Ends.seq (aside_ends (rememberLastUser_aside E req) t) fun _ u hu => ?_
  obtain ⟨hpam, -, hmember⟩ := holdings_eq hu
  rw [hpam] at he
  rw [hmember] at hactive
  -- the object becomes the member, and there was none
  have hset : Ends (setActivePam E pam) u fun _ v => EnvAt h (Told req.desktopName) v.pam := by
    refine ends_get_bind (Ends.seq (ends_op (q := fun _ v => EnvAt h (Told req.desktopName) v.pam) fun _ => he) ?_)
    intro _ v hv
    rw [hactive]
    exact ends_pure hv
  refine Ends.seq hset fun _ v he => ?_
  exact Ends.seq (onPam_ends (getEnvironmentList_env hh he)) fun pamEnvs _ htold => ends_pure htold

/-- **The session of a login.** It overlays what the login has told its handle. -/
theorem serveSession_overlaid {f : Frame} (hb : Busy s f) (hlogin : f.req.type = .login) {pam : PamAuth}
    (hpam : k = true → HasEnv (Told f.req.desktopName) pam s.pam) (hactive : s.activePam = none)
    (hgreeter : ∀ g, s.greeterPam = some g → ∀ h, pam.pamHandle = some h → g.pamHandle ≠ some h) :
    Watched (reading E) k (serveSession E f.req pam) s (fun _ _ _ => True) := by
  rw [serveSession_eq]
  have htold : Ends (prepare E f.req pam) s fun p _ => k = true → Told f.req.desktopName p.pamEnvs := by
    by_cases hk : k = true
    · exact Ends.mono (prepare_told (hpam hk) hactive hgreeter) fun _ _ h _ => h
    · exact Ends.mono (ends_any _ _) fun _ _ _ h => absurd h hk
  have hends := (prepare_ends (E := E) f.req pam s).and htold
  refine Watched.seq (reading_part (prepare_elsewhere f.req pam) hends) fun k' p t ⟨hk', ⟨ht, hsession⟩, htold⟩ => ?_
  have hcached : s.cachedSessions = t.cachedSessions := same_of_erased ht fun _ => rfl
  rw [hcached] at hsession
  apply Watched.seq (launch_overlaid (hb.of_login ht) hlogin hsession (fun htrue => htold (hk' htrue)) p.vt)
  -- nothing is forked any more but a greeter
  intro k'' launched u _
  have hwait : Within elsewhere (Prog.when launched do
      let _ ← waitForExit E) :=
    within_when (within_bind (Calm.elsewhere (waitForExit_calm E)) fun _ => within_pure _)
  exact Watched.mono (reading_part (within_bind hwait fun _ => resume_elsewhere) (ends_any _ _)) fun _ _ _ _ => trivial

theorem handleLoginRequest_overlaid (hE : ModulesLeave E.pam) {f : Frame} (ha : Asking E s f) :
    Watched (reading E) k (handleLoginRequest E f.req) s (fun _ _ _ => True) := by
  obtain ⟨l, hhome⟩ := ha.home
  have hbooks : Ends (attempt E f.req) s fun r t => ∃ l', Books ((s.greeterPam.getD {}).hold noHandles greeterService)
      loginService l' r.2 t.pam := Sat.ends (attempt_ledger (hhome.books.guest services_ne) f.req) fun _ _ _ h => ⟨_, h.2.1⟩
  rw [handleLoginRequest_eq]
  apply Watched.seq (Watched.and_sat ((attempt_stores hE f.req s).watched (attempt_calm E f.req)) hbooks)
  intro k' r t h
  obtain ⟨failure, pam⟩ := r
  obtain ⟨⟨hstored, ht⟩, l', hbooks⟩ := h
  cases failure with
  | some message =>
    exact Watched.mono (reading_part (refuse_elsewhere message pam) (ends_any _ _)) fun _ _ _ _ => trivial
  | none =>
    refine Watched.seq (reading_part (reply_elsewhere _) (reply_ends _ t)) fun k'' _ u ⟨hk'', hu⟩ => ?_
    have hpam : t.pam = u.pam := same_of_erased hu fun _ => rfl
    have hu : apartPam s = apartPam u := Eq.trans ht (same_of_erased hu fun _ => rfl)
    have hmember : s.greeterPam = u.greeterPam := same_of_erased hu fun _ => rfl
    apply serveSession_overlaid (ha.busy.of_login (same_of_erased hu fun _ => rfl)) ha.login
    · intro htrue
      rw [← hpam]
      exact (hstored (hk'' htrue)).2 rfl
    · exact (same_of_erased (p := St.activePam) hu fun _ => rfl).symm.trans hhome.active
    · -- the greeter's handle is in the books of others
      intro g hg h hh hsame
      have hfree := (hbooks.free h hh).1
      rw [hmember, hg, Option.getD_some, PamAuth.hold_of_some hsame, Function.update_self] at hfree
      cases hfree

end Fork

/-! ## The variables of the session -/

/-- what `launch` sets out to establish -/
theorem lookup_base {x : Str} (hx : x ∈ desktopVariables) (environ : List (Str × Str)) (user : UserInfo)
    (session : SessionInfo) (vt : ℤ) :
    (sessionBaseEnv environ user session vt).lookup x = some (cstr (declared session)) := by
  have hname := varName_of_mem hx
  have skip : ∀ {k v : Str} {env : List (Str × Str)}, cstr k ∉ desktopVariables →
      (setenv k v env).lookup x = env.lookup x := by
    intro k v env hk
    have hne : cstr k ≠ x := fun h => hk (by rw [h]; exact hx)
    rw [lookup_setenv hname, if_neg hne]
  simp only [sessionBaseEnv]
  rw [skip (by decide), skip (by decide), lookup_setenv hname, lookup_setenv hname]
  rcases List.mem_cons.1 hx with rfl | hx
  · rw [if_neg (by decide), if_pos (by decide)]
    rfl
  · rw [if_pos (by rw [List.mem_singleton.1 hx]; decide)]
    rfl

theorem sessionChild_env {E : Env} {user : UserInfo} {session : SessionInfo} {pamEnvs : List Str} {vt : ℤ} {s : St}
    {a : ChildAnswers} {image : Image} (h : (sessionChild E user session pamEnvs vt s a).fate = .exec image) :
    image.env = overlay pamEnvs (sessionBaseEnv E.environ user session vt) := by
  simp only [sessionChild] at h
  split at h
  · cases h
  split at h
  · cases h
  split at h
  · cases h
  simp only [] at h
  split at h
  · cases h
  · cases h
    rfl

/-- the overlay comes last -/
theorem lookup_image {desktop x : Str} (hx : x ∈ desktopVariables) {pamEnvs : List Str} (htold : Told desktop pamEnvs)
    (environ : List (Str × Str)) (user : UserInfo) (session : SessionInfo) (vt : ℤ) :
    (overlay pamEnvs (sessionBaseEnv environ user session vt)).lookup x =
      some (cstr (if desktop = [] then declared session else desktop)) := by
  rw [lookup_overlay (varName_of_mem hx), htold x hx, lookup_base hx]
  split_ifs <;> rfl

/-- **The declared names, exactly when the id is what is declared.** At every fork of a session of every run in which
putenv has taken every entry so far, for the entry that the daemon launches for the request of its id. -/
theorem desktop_iff (E : Env) (hE : ModulesLeave E.pam) (n : ℕ) {pre post : List (Event × St)} {s : St} {pid : Pid}
    {child : Child} {image : Image} (hsplit : history E n = pre ++ (.fork .session (some (pid, child)), s) :: post)
    (hput : ∀ q ∈ pre, ∀ h entry ok, q.1 = .pam (.putenv h entry ok) → ok = true) (himage : child.fate = .exec image) :
    ∃ f, s.frame = some f ∧ f.req.type = .login ∧ ∀ picked ∈ s.cachedSessions,
      findSession s.cachedSessions f.req = picked → f.req.desktopName = picked.id →
      ((∀ x ∈ desktopVariables, image.env.lookup x = some (declared picked)) ↔ NamedAlike picked) := by
  have haccepts : (reading E).accepts true (history E n) := by
    refine history_logins (reading_outside True) (fun k s f _ _ ha => ?_) (fun _ => trivial) trivial n
    exact Watched.mono (handleLoginRequest_overlaid hE ha) fun _ _ _ _ => ⟨fun _ => trivial, trivial⟩
  have hstored : ∀ c ∈ pamCalls (events pre), stored c = true := by
    intro c hc
    obtain ⟨e, he, hcall⟩ := List.mem_filterMap.1 hc
    obtain ⟨q, hq, rfl⟩ := List.mem_map.1 he
    cases c with
    | putenv h entry ok =>
      refine hput q hq h entry ok ?_
      cases hevent : q.1 with
      | pam c =>
        rw [hevent] at hcall
        exact congrArg Event.pam (Option.some_inj.1 hcall)
      | _ =>
        rw [hevent] at hcall
        cases hcall
    | _ => rfl
  obtain ⟨f, user, pamEnvs, vt, s', a, hframe, hlogin, hchild, htold⟩ :=
    (reading E).accepts_split haccepts hsplit ((after_reading pre true).2 ⟨rfl, hstored⟩)
  refine ⟨f, hframe, hlogin, fun picked _ hpicked hid => ?_⟩
  rw [hchild] at himage
  rw [hpicked] at himage
  rw [hid] at htold
  rw [sessionChild_env himage]
  have hlookup : ∀ x ∈ desktopVariables, (overlay pamEnvs (sessionBaseEnv E.environ user picked vt)).lookup x =
      some (cstr (if picked.id = [] then declared picked else picked.id)) := fun x hx =>
    lookup_image hx htold E.environ user picked vt
  constructor
  · intro h
    have hcurrent := h currentDesktop (by decide)
    rw [hlookup currentDesktop (by decide)] at hcurrent
    exact Option.some_inj.1 hcurrent
  · intro h x hx
    rw [hlookup x hx, h]

/-! ## Witnesses -/

/-- a desktop entry that declares its desktop names -/
def desktopFile (id names : String) : DirEntry where
  path := lit ("/usr/share/wayland-sessions/" ++ id ++ ".desktop")
  isRegularFile := some true
  text := some (lit ("[Desktop Entry]\nName=Session\nExec=run\nDesktopNames=" ++ names ++ "\n"))

/-- a login for the one session there is -/
def demo (id names : String) : Env :=
  machine [greeterAccount, alice] [desktopFile id names]
    { type := .login, username := lit "alice", password := lit "secret", sessionExec := lit "run", desktopName := lit id }

/-- the session of that entry -/
def demoEntry (id names : String) : SessionInfo :=
  parseDesktopFile (desktopFile id names).path (desktopFile id names).text true

theorem demo_modules (id names : String) : ModulesLeave (demo id names).pam := fun _ entry hentry => by cases hentry

/-- a run of that login: the session that is forked, and what it finds -/
theorem demo_fork (id names : String)
    (h : ((history (demo id names) 1).all fun q => match q.1 with
        | .pam (.putenv _ _ ok) => ok
        | _ => true) = true ∧
      ((history (demo id names) 1).any fun p => match p.1 with
        | .fork .session (some (_, ⟨_, _, _, .exec image⟩)) => image.env.lookup currentDesktop = some (lit id) ∧
            demoEntry id names ∈ p.2.cachedSessions ∧ (p.2.frame.map fun f => (findSession p.2.cachedSessions f.req,
              f.req.desktopName)) = some (demoEntry id names, (demoEntry id names).id)
        | _ => false) = true) :
    ∃ (pre post : List (Event × St)) (s : St) (pid : Pid) (child : Child) (image : Image),
      history (demo id names) 1 = pre ++ (.fork .session (some (pid, child)), s) :: post ∧
      (∀ q ∈ pre, ∀ h entry ok, q.1 = .pam (.putenv h entry ok) → ok = true) ∧ child.fate = .exec image ∧
      image.env.lookup currentDesktop = some (lit id) ∧ demoEntry id names ∈ s.cachedSessions ∧
      ∃ f, s.frame = some f ∧ findSession s.cachedSessions f.req = demoEntry id names ∧
        f.req.desktopName = (demoEntry id names).id := by
  obtain ⟨hput, hfork⟩ := h
  obtain ⟨⟨e, s⟩, hp, hfork⟩ := List.any_eq_true.1 hfork
  obtain ⟨pre, post, hsplit⟩ := List.append_of_mem hp
  split at hfork
  · case _ pid initgroups setgid setuid image he =>
    obtain ⟨himage, hmem, hframe⟩ := of_decide_eq_true hfork
    obtain ⟨f, hf, hfields⟩ := Option.map_eq_some_iff.1 hframe
    obtain rfl : e = .fork .session (some (pid, ⟨initgroups, setgid, setuid, .exec image⟩)) := he
    obtain ⟨hfind, hid⟩ := Prod.mk.inj hfields
    refine ⟨pre, post, s, pid, ⟨initgroups, setgid, setuid, .exec image⟩, image, hsplit, ?_, rfl, himage, hmem, f, hf,
      hfind, hid⟩
    intro q hq h entry ok hcall
    have hok := List.all_eq_true.1 hput q (by rw [hsplit]; exact List.mem_append_left _ hq)
    rw [hcall] at hok
    exact hok
  · cases hfork

/-- an entry whose id is what it declares -/
theorem desktop_iff_miquland : ∃ p ∈ history (demo "miquland" "miquland") 1, ∃ pid child image,
    p.1 = .fork .session (some (pid, child)) ∧ child.fate = .exec image ∧
    ∀ x ∈ desktopVariables, image.env.lookup x = some (declared (demoEntry "miquland" "miquland")) := by
  obtain ⟨pre, post, s, pid, child, image, hsplit, hput, himage, -, hmem, f, hf, hfind, hid⟩ :=
    demo_fork "miquland" "miquland" (by decide +kernel)
  obtain ⟨g, hg, -, hiff⟩ := desktop_iff _ (demo_modules _ _) 1 hsplit hput himage
  obtain rfl : f = g := Option.some_inj.1 (hf.symm.trans hg)
  have halike : NamedAlike (demoEntry "miquland" "miquland") := by
    unfold NamedAlike
    decide +kernel
  have hp : (Event.fork .session (some (pid, child)), s) ∈ history (demo "miquland" "miquland") 1 := by
    rw [hsplit]
    simp
  exact ⟨_, hp, pid, child, image, rfl, himage, (hiff _ hmem hfind hid).2 halike⟩

/-- the session of ubuntu.desktop, which declares ubuntu:GNOME, is told ubuntu -/
theorem ubuntu_session : ¬ ∀ (E : Env) (n : ℕ) (pre post : List (Event × St)) (s : St) (pid : Pid) (child : Child)
    (image : Image), ModulesLeave E.pam → history E n = pre ++ (.fork .session (some (pid, child)), s) :: post →
    (∀ q ∈ pre, ∀ h entry ok, q.1 = .pam (.putenv h entry ok) → ok = true) → child.fate = .exec image →
    ∀ f, s.frame = some f → ∀ picked ∈ s.cachedSessions, findSession s.cachedSessions f.req = picked →
      f.req.desktopName = picked.id → ∀ x ∈ desktopVariables, image.env.lookup x = some (declared picked) := by
  intro h
  obtain ⟨pre, post, s, pid, child, image, hsplit, hput, himage, hfound, hmem, f, hf, hfind, hid⟩ :=
    demo_fork "ubuntu" "ubuntu:GNOME" (by decide +kernel)
  have hdeclared := h _ 1 pre post s pid child image (demo_modules _ _) hsplit hput himage f hf _ hmem hfind hid
    currentDesktop (by decide)
  rw [hfound] at hdeclared
  exact absurd hdeclared (by decide +kernel)

end Miqudm.DesktopNames
