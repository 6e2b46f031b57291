/-
A login in two phases.

`handle_login_request` runs five PAM steps, each with an exit of its own, and answers in six places. `attempt` is the
five steps alone: it says why the login failed, if it did, and hands over the PAM object. `conclude` is what follows:
the reply, and then the end of the PAM object or the session. `handleLoginRequest_eq` says that the two phases are the
code. So what is known of `attempt` holds before every reply, and there is one reply to look at.

`attempt_spec` is about the calls: an attempt that succeeds has made the five calls on one handle in order (`Granted`),
one that fails has opened no session.
-/
import Miqudm.Daemon.Frames
import Miqudm.Daemon.PamSteps

namespace Miqudm

open Miqudm.Core Prog

/-! ## The calls and the replies of a log -/

def events (l : List (Event × St)) : List Event := l.map Prod.fst

@[simp] theorem events_nil : events [] = [] := rfl

@[simp] theorem events_cons (p : Event × St) (l : List (Event × St)) : events (p :: l) = p.1 :: events l := rfl

@[simp] theorem events_append (l l' : List (Event × St)) : events (l ++ l') = events l ++ events l' := List.map_append

def Event.pamCall? : Event → Option PamCall
  | .pam call => some call
  | _ => none

def pamCalls (es : List Event) : List PamCall := es.filterMap Event.pamCall?

@[simp] theorem pamCalls_nil : pamCalls [] = [] := rfl

@[simp] theorem pamCalls_append (es es' : List Event) : pamCalls (es ++ es') = pamCalls es ++ pamCalls es' :=
  List.filterMap_append

def Event.reply? : Event → Option IpcMessage
  | .reply resp => some resp
  | _ => none

def replies (es : List Event) : List IpcMessage := es.filterMap Event.reply?

@[simp] theorem replies_nil : replies [] = [] := rfl

@[simp] theorem replies_append (es es' : List Event) : replies (es ++ es') = replies es ++ replies es' :=
  List.filterMap_append

/-- a calm part writes no reply -/
theorem replies_of_calm {l : List (Event × St)} (h : ∀ p ∈ l, p.1.calm) : replies (events l) = [] := by
  apply List.filterMap_eq_nil_iff.2
  intro e he
  obtain ⟨p, hp, rfl⟩ := List.mem_map.1 he
  have hcalm := h p hp
  cases hevent : p.1 with
  | reply resp =>
    rw [hevent] at hcalm
    cases hcalm
  | _ => rfl

variable {E : Env}

/-- a reply that returns is written once, and makes no call -/
theorem reply_spec (resp : IpcMessage) (s : St) :
    Sat (reply E resp) s
      (fun l _ t => replies (events l) = [resp] ∧ pamCalls (events l) = [] ∧ apartClock s = apartClock t)
      (fun _ _ _ => True) := by
  have hop : Sat (op E (.reply resp) id) s (fun l _ t => replies (events l) = [resp] ∧ pamCalls (events l) = [] ∧
      apartClock s = apartClock t) (fun _ _ _ => True) := by
    simp only [op, interfere, sat_bind, sat_get, sat_ite, sat_act, sat_pure]
    exact ⟨fun _ => ⟨rfl, rfl, rfl⟩, fun _ => ⟨rfl, rfl, rfl⟩⟩
  refine (sat_bind _ _).2 (Sat.mono hop (fun l _ t hl => ?_) fun _ _ _ h => h)
  simp only [sat_bind, sat_get, sat_ite, sat_halt, sat_pure, List.append_nil]
  exact ⟨fun _ => trivial, fun _ => hl⟩

/-- what a method of `PamAuth` is known to do, seen from the daemon -/
theorem onPam_spec {α : Type} {x : PamM α} {s : St} {Q : List PamCall → α → Libpam → Prop}
    (h : Sat x s.pam (fun l a p => Q (calls l) a p) (fun _ _ _ => True)) :
    Sat (onPam E x) s (fun l a t => Q (pamCalls (events l)) a t.pam) (fun _ _ _ => False) := by
  have hcalls : ∀ (l : List (PamCall × Libpam)) (u : St), pamCalls (events (l.map fun p =>
      (Event.pam p.1, { u with pam := p.2 }.tick (u.now + 1)))) = calls l := by
    intro l u
    induction l with
    | nil => rfl
    | cons p l ih => exact congrArg (p.1 :: ·) ih
  have run : ∀ u : St, u.pam = s.pam → Sat (Prog.zoom St.pam (fun p s => { s with pam := p }.tick (s.now + 1))
      Event.pam x : Sys α) u (fun l a t => Q (pamCalls (events l)) a t.pam) (fun _ _ _ => False) := by
    intro u hu
    refine (sat_zoom _ _ _ _).2 (Sat.mono (hu ▸ h) (fun l a p hl => ?_) fun _ _ _ _ => trivial)
    rw [hcalls]
    exact hl
  simp only [onPam, interfere, sat_bind, sat_get, sat_ite, sat_act, sat_pure]
  refine ⟨fun _ => Sat.mono (run (s.setRunning false) rfl) (fun l a t h => ?_) fun _ _ _ h => h, fun _ => run s rfl⟩
  exact h

/-! ## The two phases -/

variable (E)

/-- a PAM step: when it fails, why -/
def tryStep (step : PamM (Bool × PamAuth)) (failure : Str) (next : PamAuth → Sys (Option Str × PamAuth)) :
    Sys (Option Str × PamAuth) := do
  let (ok, pam) ← onPam E step
  if ¬ ok then return (some (failure ++ pam.errorMessage), pam) else next pam

/-- the five steps of a login -/
def attempt (req : IpcMessage) : Sys (Option Str × PamAuth) :=
  tryStep E (PamAuth.start E.pam {} req.username (lit "miqudm")) (lit "PAM initialization error: ") fun pam =>
  tryStep E (pam.authenticate E.pam req.password) (lit "Authentication failed: ") fun pam =>
  tryStep E (pam.checkAccount E.pam) (lit "Account check failed: ") fun pam =>
  tryStep E (pam.establishCredentials E.pam) (lit "Failed to establish credentials: ") fun pam => do
    setLoginEnv E req pam
    tryStep E (pam.openSession E.pam) (lit "Failed to open session: ") fun pam => return (none, pam)

/-- the exit of a failed login -/
def refuse (message : Str) (pam : PamAuth) : Sys Unit := do
  reply E { type := .response, success := false, message }
  let _ ← onPam E (pam.end_ E.pam)

/-- the rest of a successful login -/
def welcome (req : IpcMessage) (pam : PamAuth) : Sys Unit := do
  reply E { type := .response, success := true, message := lit "Login successful" }
  serveSession E req pam

def conclude (req : IpcMessage) (r : Option Str × PamAuth) : Sys Unit :=
  match r.1 with
  | some message => refuse E message r.2
  | none => welcome E req r.2

theorem loginStep_eq {req : IpcMessage} {step : PamM (Bool × PamAuth)} {failure : Str} {next : PamAuth → Sys Unit}
    {next' : PamAuth → Sys (Option Str × PamAuth)} (h : ∀ pam, next pam = next' pam >>= conclude E req) :
    loginStep E step failure next = tryStep E step failure next' >>= conclude E req := by
  rw [loginStep, tryStep, bind_assoc']
  congr 1
  funext ⟨ok, pam⟩
  cases ok with
  | false => rfl
  | true => exact h pam

/-- **The code is the two phases.** -/
theorem handleLoginRequest_eq (req : IpcMessage) :
    handleLoginRequest E req = attempt E req >>= conclude E req := by
  refine loginStep_eq E fun pam => loginStep_eq E fun pam => loginStep_eq E fun pam => loginStep_eq E fun pam => ?_
  rw [bind_assoc']
  congr 1
  funext _
  exact loginStep_eq E fun pam => rfl

theorem attempt_calm (req : IpcMessage) : Within (calmly apartPam) (attempt E req) := by
  have step : ∀ {step : PamM (Bool × PamAuth)} {failure : Str} {next : PamAuth → Sys (Option Str × PamAuth)},
      (∀ pam, Within (calmly apartPam) (next pam)) → Within (calmly apartPam) (tryStep E step failure next) :=
    fun hnext => within_bind (onPam_calm E _) fun ⟨_, pam⟩ => within_ite (within_pure _) (hnext pam)
  exact step fun pam => step fun pam => step fun pam => step fun pam =>
    within_bind (setLoginEnv_calm E req pam) fun _ => step fun pam => within_pure _

/-! ## The steps -/

/-- the calls of a successful login: five steps on one handle -/
def fiveSteps (req : IpcMessage) (service : Str) (h : ℕ) : List PamCall := [
  .start service (cstr req.username) (lit "miqudm") (some h),
  .run (.authenticate (some (cstr req.password))) h true,
  .run .acctMgmt h true,
  .run .establishCred h true,
  .run .openSession h true]

/-- the five steps all succeeded, in order, on one handle started for the name in the request -/
def Granted (req : IpcMessage) (es : List Event) : Prop := ∃ service h, (fiveSteps req service h).Sublist (pamCalls es)

/-- without an opened session a login is not granted -/
theorem not_granted {req : IpcMessage} {es : List Event} (h : ∀ c ∈ pamCalls es, c.opens = false) :
    ¬ Granted req es := by
  intro ⟨service, n, hsub⟩
  have hopen := h (.run .openSession n true) (hsub.subset (by simp [fiveSteps]))
  cases hopen

/-- the steps return: a success with calls as `W` asks, a failure without a session opened -/
def Tries (W : List PamCall → Prop) (x : Sys (Option Str × PamAuth)) (s : St) : Prop := Sat x s
  (fun l r _ => (r.1 = none → W (pamCalls (events l))) ∧
    (r.1.isSome → ∀ c ∈ pamCalls (events l), c.opens = false))
  (fun _ _ _ => False)

variable {E}

theorem tries_bind {W : List PamCall → Prop} {α : Type} {x : Sys α} {s : St} {K : List PamCall → α → Libpam → Prop}
    {f : α → Sys (Option Str × PamAuth)}
    (hx : Sat x s (fun l a t => (∀ c ∈ pamCalls (events l), c.opens = false) ∧ K (pamCalls (events l)) a t.pam)
      (fun _ _ _ => False))
    (hf : ∀ cs a t, K cs a t.pam → Tries (fun cs' => W (cs ++ cs')) (f a) t) : Tries W (x >>= f) s := by
  refine (sat_bind x f).2 (Sat.mono hx (fun l a t hl => ?_) fun _ _ _ h => h)
  refine Sat.mono (hf _ a t hl.2) (fun l' r _ hl' => ?_) fun _ _ _ h => h
  simp only [events_append, pamCalls_append]
  exact ⟨hl'.1, fun hr => List.forall_mem_append.2 ⟨hl.1, hl'.2 hr⟩⟩

theorem tryStep_tries {W : List PamCall → Prop} {step : PamM (Bool × PamAuth)} {failure : Str}
    {next : PamAuth → Sys (Option Str × PamAuth)} {s : St} {K : List PamCall → PamAuth → Libpam → Prop}
    (hstep : Sat step s.pam (fun l r p => (∀ c ∈ calls l, c.opens = false) ∧ (r.1 = true → K (calls l) r.2 p))
      (fun _ _ _ => True))
    (hnext : ∀ cs pam t, K cs pam t.pam → Tries (fun cs' => W (cs ++ cs')) (next pam) t) :
    Tries W (tryStep E step failure next) s := by
  refine tries_bind (K := fun cs r p => r.1 = true → K cs r.2 p)
    (onPam_spec (Q := fun cs (r : Bool × PamAuth) p => (∀ c ∈ cs, c.opens = false) ∧ (r.1 = true → K cs r.2 p)) hstep) ?_
  intro cs ⟨ok, pam⟩ t hK
  cases ok with
  | false => exact ⟨fun h => absurd h (by simp), fun _ => by simp⟩
  | true => exact hnext cs pam t (hK rfl)

variable (E)

/-- a part that returns without opening a session -/
def Shut {α : Type} (x : Sys α) : Prop := ∀ s, Sat x s (fun l _ _ => ∀ c ∈ pamCalls (events l), c.opens = false)
  (fun _ _ _ => False)

theorem shut_pure {α : Type} (a : α) : Shut (pure a : Sys α) := fun _ => by simp

theorem shut_bind {α β : Type} {x : Sys β} {f : β → Sys α} (hx : Shut x) (hf : ∀ b, Shut (f b)) : Shut (x >>= f) := by
  refine fun s => (sat_bind x f).2 (Sat.mono (hx s) (fun l b t hl => ?_) fun _ _ _ h => h)
  refine Sat.mono (hf b t) (fun l' _ _ hl' => ?_) fun _ _ _ h => h
  simp only [events_append, pamCalls_append]
  exact List.forall_mem_append.2 ⟨hl, hl'⟩

theorem setLoginEnv_shut (req : IpcMessage) (pam : PamAuth) : Shut (setLoginEnv E req pam) := by
  have set : ∀ name value, Shut (onPam E (pam.setEnv E.pam name value)) := fun name value s =>
    onPam_spec (Q := fun cs _ _ => ∀ c ∈ cs, c.opens = false) (PamAuth.setEnv_spec name value)
  refine fun s => (sat_bind _ _).2 ?_
  refine shut_bind (set _ _) (fun _ => shut_bind (set _ _) fun _ => shut_bind (set _ _) fun _ => shut_bind (set _ _) ?_) s
  intro _
  split
  · exact shut_bind (set _ _) fun _ => shut_bind (set _ _) fun _ => shut_pure _
  · exact shut_pure _

/-- the last step opens the session or fails -/
theorem openSession_tries {pam : PamAuth} {h : ℕ} (hh : pam.pamHandle = some h) {failure : Str} (s : St)
    {W : List PamCall → Prop} (hW : W [.run .openSession h true]) :
    Tries W (tryStep E (pam.openSession E.pam) failure fun pam => return (none, pam)) s := by
  have hstep := onPam_spec (E := E) (s := s) (Q := fun cs r _ => cs = [.run .openSession h r.1])
    (Sat.mono (PamAuth.runStep_spec (E := E.pam) (p := s.pam) hh .openSession { pam with sessionOpened := true })
      (fun _ _ _ h => h.1) fun _ _ _ _ => trivial)
  refine (sat_bind _ _).2 (Sat.mono hstep (fun l r t hl => ?_) fun _ _ _ h => h)
  rcases r with ⟨ok, pam⟩
  cases ok with
  | false =>
    refine ⟨fun h => absurd h (by simp), fun _ => ?_⟩
    simp only [List.append_nil, hl, List.mem_singleton, forall_eq]
    rfl
  | true =>
    refine ⟨fun _ => ?_, fun h => absurd h (by simp)⟩
    simp only [List.append_nil, hl]
    exact hW

/-- **What an attempt is worth.** -/
theorem attempt_spec (req : IpcMessage) (s : St) :
    Tries (fun cs => ∃ service h, (fiveSteps req service h).Sublist cs) (attempt E req) s := by
  have one : ∀ {c : PamCall} {cs}, c ∈ cs → [c].Sublist cs := fun h => List.singleton_sublist.2 h
  refine tryStep_tries (K := fun cs r p => ∃ service h, .start service (cstr req.username) (lit "miqudm") (some h) ∈ cs ∧
      r.core = (some h, false, false) ∧ (p.handle? h).isSome)
    (Sat.mono (PamAuth.start_spec _ _) (fun l r p h => ⟨h.1, h.2.1⟩) fun _ _ _ h => h) ?_
  intro cs1 pam t ⟨service, h, hstart, hcore, hhandle⟩
  have hh : pam.pamHandle = some h := congrArg Prod.fst hcore
  refine tryStep_tries (K := fun cs r _ => .run (.authenticate (some (cstr req.password))) h true ∈ cs ∧
      r.pamHandle = some h) (Sat.mono (PamAuth.authenticate_spec hh hhandle req.password) (fun l r p hr => ?_)
      fun _ _ _ h => h) ?_
  · exact ⟨hr.1, fun hok => ⟨hr.2.2 hok, (congrArg Prod.fst hr.2.1).trans hh⟩⟩
  intro cs2 pam t ⟨hauth, hh⟩
  -- the account and the credentials
  have runs : ∀ (fn : PamFn) {pam noted : PamAuth} {p : Libpam}, fn ≠ .openSession → pam.pamHandle = some h →
      noted.pamHandle = some h →
      Sat (pam.runStep E.pam fn noted) p (fun l r _ => (∀ c ∈ calls l, c.opens = false) ∧
        (r.1 = true → .run fn h true ∈ calls l ∧ r.2.pamHandle = some h)) (fun _ _ _ => True) := by
    intro fn pam noted p hfn hh hn
    refine Sat.mono (PamAuth.runStep_spec hh fn noted) (fun l r _ hr => ⟨fun c hc => ?_, fun hok => ⟨?_, ?_⟩⟩)
      fun _ _ _ h => h
    · rw [hr.1, List.mem_singleton] at hc
      rw [hc]
      cases fn <;> first | rfl | exact absurd rfl hfn
    · simp [hr.1, hok]
    · rw [hok] at hr
      exact (congrArg Prod.fst hr.2).trans hn
  refine tryStep_tries (K := fun cs r _ => PamCall.run .acctMgmt h true ∈ cs ∧ r.pamHandle = some h)
    (runs .acctMgmt (by simp) hh hh) ?_
  intro cs3 pam t ⟨hacct, hh⟩
  refine tryStep_tries (K := fun cs r _ => PamCall.run .establishCred h true ∈ cs ∧ r.pamHandle = some h)
    (runs .establishCred (by simp) hh hh) ?_
  intro cs4 pam t ⟨hcred, hh⟩
  refine tries_bind (K := fun _ _ _ => True)
    (Sat.mono (setLoginEnv_shut E req pam t) (fun _ _ _ h => ⟨h, trivial⟩) fun _ _ _ h => h) fun cs5 _ t _ => ?_
  refine openSession_tries E hh t ⟨service, h, ?_⟩
  exact (one hstart).append ((one hauth).append ((one hacct).append ((one hcred).append
    (List.sublist_append_right cs5 _))))

end Miqudm
