/-
The greeter as a process (`src/greeter/greeter_app.cpp`, `src/greeter/main.cpp`).

`handle` is what the callbacks of `setup_ui` do with what the toolkit reports: the state afterwards, and the `Deed`s,
what is asked for outside the form. A submit and a power button come with what the surroundings answer to their
exchange. What the toolkit does with `quit()`, with a window that is closed and with an exception that leaves a
callback is not part of the program, so nothing here depends on it: a run goes on with whatever is reported.

- `run_refines`: but for the status line, a run does with the form what `handleAll` does with the events it is made of;
- `login_as_shown`: whatever was reported before, a submit reads nothing past the end of a list, and the login it sends
  is the one that the screen shows;
- `asked_as_shown`: a preview never asks the daemon for anything. Without an option it is asked for the two lists, and
  then for nothing but the login that the screen shows and the action of a button that was pressed, one that it
  serves;
- `dismissed_iff`: then the greeter is left when its window is closed or when a login was granted, and by no key;
- `password_wiped`: the copy of the password is wiped, but for an exception of the decoder.
-/
import Miqudm.Daemon.Service
import Miqudm.Greeter.LoginForm

namespace Miqudm.Process

open GreeterApp

/-! ## What the toolkit reports -/

inductive PowerButton where
  | sleep
  | reboot
  | shutdown
deriving DecidableEq, Repr

/-- the action that the callback of a button names -/
def PowerButton.action : PowerButton → Str
  | .sleep => lit "suspend"
  | .reboot => lit "reboot"
  | .shutdown => lit "poweroff"

structure KeyPressEvent where
  keysym : UInt32
  modifiers : UInt32
  pressed : Bool
deriving DecidableEq, Repr

/-- `XKB_KEY_q` -/
def keyQ : UInt32 := 0x71

/-- `XKB_KEY_Escape` -/
def keyEscape : UInt32 := 0xff1b

inductive Input where
  | typed (position : ℕ) (c : Char)
  | erased (position : ℕ)
  | click (index : ℕ)
  | pick (index : ℤ)
  /-- Enter in the password field, or the Sign In button -/
  | submit (X : Exchange)
  | power (button : PowerButton) (X : Exchange)
  | key (ev : KeyPressEvent)
  | close

/-- what a callback asks for outside the form -/
inductive Deed where
  | asked (req : IpcMessage) (X : Exchange)
  /-- the copy of the password is overwritten -/
  | wiped
  /-- a line on the standard output -/
  | printed (msg : Str)
  /-- `m_window->close()` -/
  | closed
  /-- `m_engine->quit()` -/
  | quit
  /-- an exception leaves the callback -/
  | threw (what : Thrown)
  /-- a vector is indexed past its end -/
  | outOfBounds

/-! ## The callbacks -/

def updateStatus (app : GreeterApp) (msg : Str) : GreeterApp := { app with statusLabel := msg }

def powerRequest (action : Str) : IpcMessage := { type := .powerAction, powerAction := action }

section Callbacks

variable (G : Surroundings) (control : UInt32)

/-- `GreeterApp::attempt_login` -/
def attemptLogin (app : GreeterApp) (X : Exchange) : GreeterApp × List Deed :=
  match app.attempt with
  | .nothing => (app, [])
  | .outOfBounds => ({ app with outOfBounds := true }, [.outOfBounds])
  | .preview msg => (updateStatus app msg, [.printed (lit "[miqudm-greeter] " ++ msg)])
  | .send req =>
    let app := updateStatus app (lit "Authenticating...")
    let asked := Deed.asked req X
    let wiped : List Deed := if req.password = [] then [] else [.wiped]
    match G.client.login G.json X req.username req.password req.sessionExec req.desktopName [] with
    | .error what => (app, [asked, .threw what])
    | .ok (false, error) =>
      ({ updateStatus app (if error = [] then lit "Authentication failed" else error) with
        passwordInput := app.passwordInput.map fun _ => [] }, asked :: wiped)
    | .ok (true, _) =>
      ({ updateStatus app (lit "Login successful. Launching session...") with closed := true },
        asked :: wiped ++ [.closed, .quit])

/-- `GreeterApp::handle_power_action`; what the daemon answers is not looked at -/
def handlePowerAction (app : GreeterApp) (action : Str) (X : Exchange) : GreeterApp × List Deed :=
  let app := updateStatus app (lit "Power: " ++ action)
  if app.testMode then (app, [])
  else match G.client.powerAction G.json X action with
    | .error what => (app, [.asked (powerRequest action) X, .threw what])
    | .ok _ => (app, [.asked (powerRequest action) X])

/-- `GreeterApp::handle_key`; `control` is the bit of the control key among the modifiers -/
def handleKey (app : GreeterApp) (ev : KeyPressEvent) : List Deed :=
  if ¬ ev.pressed then []
  else if ev.keysym = keyQ ∧ ev.modifiers &&& control ≠ 0 then if app.testMode then [.quit] else []
  else if ev.keysym = keyEscape then if app.testMode then [.quit] else []
  else []

def handle (app : GreeterApp) : Input → GreeterApp × List Deed
  | .typed position c => (app.handle (.typed position c), [])
  | .erased position => (app.handle (.erased position), [])
  | .click index => (app.selectUser index, [])
  | .pick index => (app.selectSession index, [])
  | .submit X => attemptLogin G app X
  | .power button X => handlePowerAction G app button.action X
  | .key ev => (app, handleKey control app ev)
  | .close => (app, [.quit])

/-- the state, and all deeds, after what the toolkit reports -/
def run (app : GreeterApp) : List Input → GreeterApp × List Deed
  | [] => (app, [])
  | i :: inputs =>
    let rest := run (handle G control app i).1 inputs
    (rest.1, (handle G control app i).2 ++ rest.2)

/-! ## The program -/

/-- the loop over the arguments: is this the test mode? `none` is the help -/
def options (testMode : Bool) : List Str → Option Bool
  | [] => some testMode
  | arg :: args =>
    if arg = lit "-h" ∨ arg = lit "--help" then none
    else if arg = lit "-t" ∨ arg = lit "--test" then options true args
    else options testMode args

/-- what `init` asks the daemon for -/
def initDeeds (testMode : Bool) : List Deed :=
  if testMode then []
  else .asked { type := .getUsers } G.usersExchange :: match G.client.getUsers G.json G.usersExchange [] with
    | .ok (true, _) => [.asked { type := .getSessions } G.sessionsExchange]
    | _ => []

/-- `main`: what it returns, and all deeds. `engine` and `window` say whether these could be created, and `exit` is what
the toolkit's loop returns. -/
def main (engine window : Bool) (exit : ℤ) (args : List Str) (inputs : List Input) : Except Uncaught ℤ × List Deed :=
  match options false args with
  | none => (.ok 0, [])
  | some testMode =>
    if ¬ engine then (.ok 1, [])
    else match GreeterApp.init G testMode with
      | .error what => (.error what, initDeeds G testMode)
      | .ok app =>
        if ¬ window then (.ok 1, initDeeds G testMode)
        else (.ok exit, initDeeds G testMode ++ (run G control app inputs).2)

end Callbacks

/-! ## Runs -/

section Runs

variable {G : Surroundings} {control : UInt32}

theorem run_append (app : GreeterApp) (inputs inputs' : List Input) :
    run G control app (inputs ++ inputs') = ((run G control (run G control app inputs).1 inputs').1,
      (run G control app inputs).2 ++ (run G control (run G control app inputs).1 inputs').2) := by
  induction inputs generalizing app with
  | nil => rfl
  | cons i inputs ih => simp only [List.cons_append, run, ih, List.append_assoc]

/-- a deed is one of an input -/
theorem mem_run {d : Deed} : ∀ {inputs : List Input} {app : GreeterApp}, d ∈ (run G control app inputs).2 ↔
    ∃ earlier i later, inputs = earlier ++ i :: later ∧ d ∈ (handle G control (run G control app earlier).1 i).2 := by
  intro inputs
  induction inputs with
  | nil =>
    intro app
    constructor
    · exact fun h => by cases h
    · rintro ⟨earlier, i, later, h, -⟩
      simp at h
  | cons i inputs ih =>
    intro app
    constructor
    · intro h
      rcases List.mem_append.1 h with h | h
      · exact ⟨[], i, inputs, rfl, h⟩
      · obtain ⟨earlier, j, later, rfl, hd⟩ := ih.1 h
        exact ⟨i :: earlier, j, later, rfl, hd⟩
    · rintro ⟨earlier, j, later, hsplit, hd⟩
      rw [hsplit, run_append]
      exact List.mem_append_right _ (List.mem_append_left _ hd)

/-- where a deed is, the deeds of its input are -/
theorem run_split {a b : List Deed} {d : Deed} : ∀ {inputs : List Input} {app : GreeterApp},
    (run G control app inputs).2 = a ++ d :: b → ∃ earlier i later a' b' rest, inputs = earlier ++ i :: later ∧
      (handle G control (run G control app earlier).1 i).2 = a' ++ d :: b' ∧ b = b' ++ rest := by
  intro inputs
  induction inputs generalizing a with
  | nil =>
    intro app h
    simp [run] at h
  | cons i inputs ih =>
    intro app h
    rcases List.append_eq_append_iff.1 h with ⟨c, rfl, hrest⟩ | ⟨c, hfirst, hrest⟩
    · obtain ⟨earlier, j, later, a', b', rest, rfl, hd, hb⟩ := ih hrest
      exact ⟨i :: earlier, j, later, a', b', rest, rfl, hd, hb⟩
    · cases c with
      | nil =>
        obtain ⟨earlier, j, later, a', b', rest, rfl, hd, hb⟩ := ih (a := []) hrest.symm
        exact ⟨i :: earlier, j, later, a', b', rest, rfl, hd, hb⟩
      | cons d' c =>
        obtain ⟨rfl, hb⟩ := List.cons.inj hrest
        exact ⟨[], i, inputs, a, c, _, rfl, hfirst, hb⟩

/-- what every callback keeps, every run keeps -/
theorem run_keeps {P : GreeterApp → Prop} (h : ∀ app i, P app → P (handle G control app i).1) {inputs : List Input} :
    ∀ {app}, P app → P (run G control app inputs).1 := by
  induction inputs with
  | nil => exact fun happ => happ
  | cons i inputs ih => exact fun happ => ih (h _ i happ)

end Runs

/-! ## What a submit does -/

section Submits

variable {G : Surroundings} {control : UInt32} {app : GreeterApp} {X : Exchange} {req : IpcMessage}

/-- what an exchange answers to a login, if the decoder returns -/
def answerTo (G : Surroundings) (X : Exchange) (req : IpcMessage) : Option IpcMessage :=
  match G.client.sendRequest G.json X req {} 10000 with
  | .ok (true, resp) => some resp
  | _ => none

/-- the copy of the password is wiped, if there is something to wipe -/
def wipe (req : IpcMessage) : List Deed := if req.password = [] then [] else [.wiped]

/-- a submit that sends nothing -/
theorem submit_silent (h : app.request = none) (answer : IpcMessage → Option IpcMessage) :
    (attemptLogin G app X).1 = app.attemptLogin answer ∧
      ∀ d ∈ (attemptLogin G app X).2, (∃ msg, d = .printed msg) ∨ d = .outOfBounds ∧ app.attempt = .outOfBounds := by
  unfold attemptLogin GreeterApp.attemptLogin
  cases hattempt : app.attempt with
  | nothing => exact ⟨rfl, fun d hd => by cases hd⟩
  | outOfBounds => exact ⟨rfl, fun d hd => Or.inr ⟨List.mem_singleton.1 hd, rfl⟩⟩
  | preview msg => exact ⟨rfl, fun d hd => Or.inl ⟨_, List.mem_singleton.1 hd⟩⟩
  | send req =>
    rw [request_eq_some.2 hattempt] at h
    cases h

/-- the request is the one that `IpcClient::login` makes of its fields -/
theorem loginRequest_of_request (h : app.request = some req) :
    loginRequest req.username req.password req.sessionExec req.desktopName = req := by
  obtain ⟨-, user, session, -, -, rfl⟩ := request_spec h
  rfl

/-- a submit whose exchange throws -/
theorem submit_throws (h : app.request = some req) {what : Thrown}
    (hsend : G.client.sendRequest G.json X req {} 10000 = .error what) :
    attemptLogin G app X = (updateStatus app (lit "Authenticating..."), [.asked req X, .threw what]) := by
  simp only [attemptLogin, request_eq_some.1 h, IpcClient.login, loginRequest_of_request h, hsend]
  rfl

/-- a submit whose exchange returns -/
theorem submit_returns (h : app.request = some req) {p : Bool × IpcMessage}
    (hsend : G.client.sendRequest G.json X req {} 10000 = .ok p) :
    attemptLogin G app X = (app.attemptLogin (answerTo G X),
      .asked req X :: wipe req ++ if (loginOutcome (answerTo G X req)).1 then [.closed, .quit] else []) := by
  obtain ⟨ok, resp⟩ := p
  have hanswer : answerTo G X req = if ok then some resp else none := by
    rw [answerTo, hsend]
    cases ok <;> rfl
  have hlogin : G.client.login G.json X req.username req.password req.sessionExec req.desktopName [] =
      .ok ((loginOutcome (if ok then some resp else none)).1,
        if (loginOutcome (if ok then some resp else none)).1 then []
        else (loginOutcome (if ok then some resp else none)).2) := by
    rw [IpcClient.login, loginRequest_of_request h, hsend]
    rfl
  simp only [attemptLogin, GreeterApp.attemptLogin, request_eq_some.1 h, hlogin, hanswer]
  cases loginOutcome (if ok then some resp else none) with
  | mk success error =>
    cases success with
    | true => rfl
    | false => simp only [Bool.false_eq_true, if_false, List.append_nil]; rfl

end Submits

/-! ## The form -/

section Form

variable {G : Surroundings} {control : UInt32}

/-- the state but for the status line -/
def unlabelled (app : GreeterApp) : GreeterApp := { app with statusLabel := [] }

theorem unlabelled_handle (app : GreeterApp) (e : UiEvent) :
    unlabelled ((unlabelled app).handle e) = unlabelled (app.handle e) := by
  cases e with
  | typed position c => rfl
  | erased position => rfl
  | click index =>
    by_cases hindex : index ≥ app.users.length
    · have hsame : app.handle (.click index) = app := if_pos hindex
      have hsame' : (unlabelled app).handle (.click index) = unlabelled app := if_pos hindex
      rw [hsame, hsame']
      rfl
    · have hselect : app.handle (.click index) = _ := if_neg hindex
      have hselect' : (unlabelled app).handle (.click index) = _ := if_neg hindex
      rw [hselect, hselect']
      rfl
  | pick index =>
    by_cases hindex : index < 0 ∨ index ≥ app.sessions.length
    · have hsame : app.handle (.pick index) = app := if_pos hindex
      have hsame' : (unlabelled app).handle (.pick index) = unlabelled app := if_pos hindex
      rw [hsame, hsame']
      rfl
    · have hselect : app.handle (.pick index) = _ := if_neg hindex
      have hselect' : (unlabelled app).handle (.pick index) = _ := if_neg hindex
      rw [hselect, hselect']
      rfl
  | submit answer =>
    have hattempt : (unlabelled app).attempt = app.attempt := rfl
    simp only [GreeterApp.handle, GreeterApp.attemptLogin, hattempt]
    cases app.attempt with
    | send req =>
      dsimp only
      cases loginOutcome (answer req) with
      | mk success error => cases success <;> rfl
    | _ => rfl

theorem handle_congr {app app' : GreeterApp} (h : unlabelled app = unlabelled app') (e : UiEvent) :
    unlabelled (app.handle e) = unlabelled (app'.handle e) := by
  rw [← unlabelled_handle app, h, unlabelled_handle]

theorem handleAll_congr {app app' : GreeterApp} (h : unlabelled app = unlabelled app') (events : List UiEvent) :
    unlabelled (app.handleAll events) = unlabelled (app'.handleAll events) := by
  induction events generalizing app app' with
  | nil => exact h
  | cons e events ih => exact ih (handle_congr h e)

theorem request_congr {app app' : GreeterApp} (h : unlabelled app = unlabelled app') : app.request = app'.request := by
  have hrequest : (unlabelled app).request = (unlabelled app').request := by rw [h]
  exact hrequest

theorem inBounds_of_unlabelled {app app' : GreeterApp} (h : unlabelled app = unlabelled app') (h' : InBounds app') :
    InBounds app := by
  have hbounds : InBounds (unlabelled app') := ⟨h'.users, h'.sessions, h'.user, h'.session⟩
  rw [← h] at hbounds
  exact ⟨hbounds.users, hbounds.sessions, hbounds.user, hbounds.session⟩

/-- the event of the form that an input is; an exchange that throws leaves the form as it is -/
def event? (G : Surroundings) (app : GreeterApp) : Input → Option UiEvent
  | .typed position c => some (.typed position c)
  | .erased position => some (.erased position)
  | .click index => some (.click index)
  | .pick index => some (.pick index)
  | .submit X => match app.request.map fun req => G.client.sendRequest G.json X req {} 10000 with
    | some (.error _) => none
    | _ => some (.submit (answerTo G X))
  | .power _ _ => none
  | .key _ => none
  | .close => none

/-- the events of the form that a run is made of -/
def uiEvents (G : Surroundings) (control : UInt32) (app : GreeterApp) : List Input → List UiEvent
  | [] => []
  | i :: inputs => (event? G app i).toList ++ uiEvents G control (handle G control app i).1 inputs

/-- an input does with the form what its event does -/
theorem handle_refines (app : GreeterApp) (i : Input) :
    unlabelled (handle G control app i).1 = unlabelled (app.handleAll (event? G app i).toList) := by
  cases i with
  | submit X =>
    show unlabelled (attemptLogin G app X).1 = _
    cases hreq : app.request with
    | none =>
      simp only [event?, hreq, Option.map_none]
      rw [(submit_silent hreq (answerTo G X)).1]
      rfl
    | some req =>
      cases hsend : G.client.sendRequest G.json X req {} 10000 with
      | error what =>
        simp only [event?, hreq, Option.map_some, hsend]
        rw [submit_throws hreq hsend]
        rfl
      | ok p =>
        simp only [event?, hreq, Option.map_some, hsend]
        rw [submit_returns hreq hsend]
        rfl
  | power button X =>
    simp only [handle, handlePowerAction]
    split_ifs
    · rfl
    · cases G.client.powerAction G.json X button.action <;> rfl
  | _ => rfl

/-- **The process does what the form does.** Whatever the toolkit reports and the daemon answers, after a run the lists,
the selections, the highlighted card, the field and the window are as after the form's own events; buttons, keys and
exceptions change the status line at most. -/
theorem run_refines (G : Surroundings) (control : UInt32) (app : GreeterApp) (inputs : List Input) :
    unlabelled (run G control app inputs).1 = unlabelled (app.handleAll (uiEvents G control app inputs)) := by
  induction inputs generalizing app with
  | nil => rfl
  | cons i inputs ih =>
    have hsplit : app.handleAll (uiEvents G control app (i :: inputs)) =
        (app.handleAll (event? G app i).toList).handleAll (uiEvents G control (handle G control app i).1 inputs) := by
      rw [uiEvents, handleAll, List.foldl_append]
      rfl
    calc unlabelled (run G control app (i :: inputs)).1
        = unlabelled ((handle G control app i).1.handleAll (uiEvents G control (handle G control app i).1 inputs)) :=
          ih (handle G control app i).1
      _ = unlabelled (app.handleAll (uiEvents G control app (i :: inputs))) := by
          rw [hsplit]
          exact handleAll_congr (handle_refines app i) _

end Form

/-! ## The deeds of an input -/

section Deeds

variable {G : Surroundings} {control : UInt32} {app : GreeterApp} {X : Exchange} {req : IpcMessage} {i : Input}

theorem handle_testMode (app : GreeterApp) (i : Input) : (handle G control app i).1.testMode = app.testMode := by
  have hform : ∀ e, (app.handle e).testMode = app.testMode := by
    intro e
    cases e with
    | typed position c => rfl
    | erased position => rfl
    | click index => simp only [GreeterApp.handle, selectUser]; split_ifs <;> rfl
    | pick index => simp only [GreeterApp.handle, selectSession]; split_ifs <;> rfl
    | submit answer =>
      simp only [GreeterApp.handle, GreeterApp.attemptLogin]
      split
      · rfl
      · rfl
      · rfl
      · split <;> rfl
  have hrefines : (unlabelled (handle G control app i).1).testMode =
      (unlabelled (app.handleAll (event? G app i).toList)).testMode := by rw [handle_refines]
  refine hrefines.trans ?_
  cases event? G app i with
  | none => rfl
  | some e => exact hform e

theorem run_testMode (app : GreeterApp) (inputs : List Input) : (run G control app inputs).1.testMode = app.testMode :=
  run_keeps (P := fun app' => app'.testMode = app.testMode) (fun app' i h => (handle_testMode app' i).trans h) rfl

/-- a submit whose selections are in bounds reads nothing past an end -/
theorem submit_inBounds (h : app.attempt ≠ .outOfBounds) : .outOfBounds ∉ (attemptLogin G app X).2 := by
  intro hd
  cases hreq : app.request with
  | none =>
    rcases (submit_silent hreq fun _ => none).2 _ hd with ⟨msg, hmsg⟩ | ⟨-, hattempt⟩
    · cases hmsg
    · exact h hattempt
  | some req =>
    cases hsend : G.client.sendRequest G.json X req {} 10000 with
    | error what =>
      rw [submit_throws hreq hsend] at hd
      simp at hd
    | ok p =>
      rw [submit_returns hreq hsend, wipe] at hd
      split_ifs at hd <;> simp at hd

theorem asked_of_request (h : app.request = some req) : .asked req X ∈ (attemptLogin G app X).2 := by
  cases hsend : G.client.sendRequest G.json X req {} 10000 with
  | error what =>
    rw [submit_throws h hsend]
    exact List.mem_cons_self
  | ok p =>
    rw [submit_returns h hsend]
    exact List.mem_cons_self

/-- a request comes from a submit or from a power button -/
theorem asked_of_handle (h : .asked req X ∈ (handle G control app i).2) :
    (i = .submit X ∧ app.request = some req) ∨
      ∃ button, i = .power button X ∧ req = powerRequest button.action ∧ app.testMode = false := by
  cases i with
  | submit Y =>
    left
    have h : .asked req X ∈ (attemptLogin G app Y).2 := h
    cases hreq : app.request with
    | none =>
      rcases (submit_silent hreq fun _ => none).2 _ h with ⟨msg, hmsg⟩ | ⟨hmsg, -⟩ <;> cases hmsg
    | some sent =>
      cases hsend : G.client.sendRequest G.json Y sent {} 10000 with
      | error what =>
        rw [submit_throws hreq hsend] at h
        rcases List.mem_cons.1 h with h | h
        · cases h
          exact ⟨rfl, rfl⟩
        · cases List.mem_singleton.1 h
      | ok p =>
        rw [submit_returns hreq hsend] at h
        rcases List.mem_cons.1 h with h | h
        · cases h
          exact ⟨rfl, rfl⟩
        · rcases List.mem_append.1 h with h | h
          · rw [wipe] at h
            split_ifs at h
            · cases h
            · cases List.mem_singleton.1 h
          · split_ifs at h
            · simp at h
            · cases h
  | power button Y =>
    right
    simp only [handle, handlePowerAction] at h
    split_ifs at h with htest
    · cases h
    · have htest : app.testMode = false := Bool.eq_false_iff.2 htest
      have hasked : req = powerRequest button.action ∧ X = Y := by
        cases hsend : G.client.powerAction G.json Y button.action with
        | error what =>
          simp only [hsend, List.mem_cons, Deed.asked.injEq, reduceCtorEq, List.not_mem_nil, or_false] at h
          exact h
        | ok ok =>
          simp only [hsend, List.mem_singleton, Deed.asked.injEq] at h
          exact h
      exact ⟨button, by rw [hasked.2], hasked.1, htest⟩
  | key ev =>
    simp only [handle, handleKey] at h
    split_ifs at h <;> simp at h
  | close => simp [handle] at h
  | _ => simp [handle] at h

/-- the keys that leave a preview: Escape, or q with the control key -/
def Leaves (control : UInt32) (ev : KeyPressEvent) : Prop :=
  ev.pressed = true ∧ (ev.keysym = keyQ ∧ ev.modifiers &&& control ≠ 0 ∨ ev.keysym = keyEscape)

/-- the daemon granted the login that a submit sent -/
def Grants (G : Surroundings) (app : GreeterApp) (X : Exchange) (req : IpcMessage) : Prop :=
  app.request = some req ∧ ∃ resp, G.client.sendRequest G.json X req {} 10000 = .ok (true, resp) ∧ resp.success = true

theorem outcome_answerTo : (loginOutcome (answerTo G X req)).1 = true ↔
    ∃ resp, G.client.sendRequest G.json X req {} 10000 = .ok (true, resp) ∧ resp.success = true := by
  unfold answerTo
  split
  · rename_i resp hsend
    rw [hsend, loginOutcome]
    constructor
    · intro h
      refine ⟨resp, rfl, ?_⟩
      by_contra hfailed
      rw [if_pos hfailed] at h
      cases h
    · rintro ⟨resp', heq, hsuccess⟩
      obtain rfl : resp = resp' := by simpa using heq
      rw [if_neg (not_not_intro hsuccess)]
  · rename_i hnone
    constructor
    · exact fun h => by cases h
    · rintro ⟨resp, hsend, -⟩
      exact absurd hsend (hnone resp)

/-- a submit closes the window, and quits, when its login was granted -/
theorem ends_of_submit {d : Deed} (hd : d = .closed ∨ d = .quit) :
    d ∈ (attemptLogin G app X).2 ↔ ∃ req, Grants G app X req := by
  cases hreq : app.request with
  | none =>
    constructor
    · intro h
      rcases (submit_silent hreq fun _ => none).2 _ h with ⟨msg, rfl⟩ | ⟨rfl, -⟩ <;> rcases hd with hd | hd <;> cases hd
    · rintro ⟨req, hgrants, -⟩
      rw [hreq] at hgrants
      cases hgrants
  | some req =>
    have hgrants : (∃ req, Grants G app X req) ↔ (loginOutcome (answerTo G X req)).1 = true := by
      rw [outcome_answerTo]
      constructor
      · rintro ⟨req', hreq', hsend⟩
        obtain rfl := Option.some_inj.1 (hreq.symm.trans hreq')
        exact hsend
      · exact fun hsend => ⟨req, hreq, hsend⟩
    rw [hgrants]
    cases hsend : G.client.sendRequest G.json X req {} 10000 with
    | error what =>
      rw [submit_throws hreq hsend, outcome_answerTo, hsend]
      rcases hd with rfl | rfl <;> simp
    | ok p =>
      rw [submit_returns hreq hsend]
      have hwipe : d ∉ .asked req X :: wipe req := by
        rw [wipe]
        rcases hd with rfl | rfl <;> split_ifs <;> simp
      constructor
      · intro h
        by_contra hfailed
        rw [if_neg hfailed, List.append_nil] at h
        exact hwipe h
      · intro hgranted
        rw [if_pos hgranted]
        rcases hd with rfl | rfl <;> simp

/-- what makes a callback close the window -/
theorem closed_of_handle (h : .closed ∈ (handle G control app i).2) : ∃ X req, i = .submit X ∧ Grants G app X req := by
  cases i with
  | submit Y =>
    obtain ⟨req, hgrants⟩ := (ends_of_submit (Or.inl rfl)).1 h
    exact ⟨Y, req, rfl, hgrants⟩
  | power button Y =>
    simp only [handle, handlePowerAction] at h
    split_ifs at h
    · cases h
    · cases hpower : G.client.powerAction G.json Y button.action <;> simp [hpower] at h
  | key ev =>
    simp only [handle, handleKey] at h
    split_ifs at h <;> simp at h
  | close => simp [handle] at h
  | _ => cases h

/-- what makes a callback quit -/
theorem quit_of_handle : .quit ∈ (handle G control app i).2 ↔ i = .close ∨
    (app.testMode = true ∧ ∃ ev, i = .key ev ∧ Leaves control ev) ∨ ∃ X req, i = .submit X ∧ Grants G app X req := by
  cases i with
  | submit Y =>
    have hsubmit : .quit ∈ (handle G control app (.submit Y)).2 ↔ ∃ req, Grants G app Y req :=
      ends_of_submit (Or.inr rfl)
    rw [hsubmit]
    constructor
    · rintro ⟨req, hgrants⟩
      exact Or.inr (Or.inr ⟨Y, req, rfl, hgrants⟩)
    · rintro (h | ⟨-, ev, h, -⟩ | ⟨X, req, h, hgrants⟩)
      · cases h
      · cases h
      · cases h
        exact ⟨req, hgrants⟩
  | power button Y =>
    simp only [handle, handlePowerAction]
    split_ifs
    · simp
    · cases G.client.powerAction G.json Y button.action <;> simp
  | key ev =>
    simp only [handle, handleKey, Leaves]
    split_ifs <;> simp_all
  | close => simp [handle]
  | _ => simp [handle]

end Deeds

/-! ## What is shown -/

/-- a login as the screen shows it: for the user of the one card that is highlighted, and the session picked last, with
what was typed, and that since the last event that cleared the field -/
structure AsShown (app screen : GreeterApp) (events : List UiEvent) (req : IpcMessage) : Prop where
  card : ∀ i : ℕ, screen.cards[i]? = some true ↔ i = screen.selectedUserIdx
  login : ∃ user session, app.users[screen.selectedUserIdx]? = some user ∧
    app.sessions[(lastPick app.sessions.length events).toNat]? = some session ∧
    req = loginRequest user.username screen.field session.exec session.id
  typed : List.Subperm req.password (typedChars events)
  since : ∀ earlier e later, events = earlier ++ e :: later → Clears (app.handleAll earlier) e →
    List.Subperm req.password (typedChars later)

section Screens

variable {G : Surroundings} {control : UInt32} {app : GreeterApp} {req : IpcMessage}

theorem init_testMode {testMode : Bool} (h : GreeterApp.init G testMode = .ok app) : app.testMode = testMode := by
  obtain ⟨-, -, -, -, happ, -, -⟩ := init_spec h
  rw [happ]
  rfl

/-- what the form sends after events is what it shows -/
theorem asShown_of_request (hshown : Shown app [] app) (hempty : app.field = []) {screen : GreeterApp}
    {events : List UiEvent} (hscreen : unlabelled screen = unlabelled (app.handleAll events))
    (hreq : screen.request = some req) : AsShown app screen events req := by
  have hform := hshown.handleAll events
  rw [request_congr hscreen] at hreq
  have hparts : screen.selectedUserIdx = (app.handleAll events).selectedUserIdx ∧
      screen.cards = (app.handleAll events).cards ∧ screen.passwordInput = (app.handleAll events).passwordInput := by
    simp only [unlabelled, mk.injEq] at hscreen
    exact ⟨hscreen.2.2.2.1, hscreen.2.2.2.2.2.1, hscreen.2.2.2.2.2.2.1⟩
  obtain ⟨hidx, hcards, hinput⟩ := hparts
  have hfield : screen.field = (app.handleAll events).field := by rw [field, hinput, field]
  obtain ⟨-, user, session, huser, hsession, rfl⟩ := request_spec hreq
  rw [hform.users] at huser
  have hbounds := hform.session
  rw [selectedSession, if_neg (by omega), hform.sessions, hform.pick] at hsession
  exact {
    card := by
      intro i
      have hbound := hform.user
      rw [hcards, hidx, hform.cards]
      simp only [List.getElem?_map, Option.map_eq_some_iff, List.getElem?_eq_some_iff, List.length_range,
        List.getElem_range, decide_eq_true_eq]
      constructor
      · rintro ⟨j, ⟨-, rfl⟩, hj⟩
        exact hj
      · rintro rfl
        exact ⟨_, ⟨hbound, rfl⟩, rfl⟩
    login := ⟨user, session, hidx ▸ huser, hsession, by rw [hfield]; rfl⟩
    typed := by
      have htyped := handleAll_field app events
      rwa [hempty, List.append_nil] at htyped
    since := by
      intro earlier e later hsplit hclears
      have hlater : app.handleAll events = ((app.handleAll earlier).handle e).handleAll later := by
        rw [hsplit, handleAll, List.foldl_append]
        rfl
      have htyped := handleAll_field ((app.handleAll earlier).handle e) later
      rwa [hclears.field, List.append_nil, ← hlater] at htyped }

end Screens

/-! ## Whole runs -/

/-- no argument is an option of the greeter -/
def Plain (args : List Str) : Prop :=
  ∀ arg ∈ args, arg ≠ lit "-h" ∧ arg ≠ lit "--help" ∧ arg ≠ lit "-t" ∧ arg ≠ lit "--test"

theorem options_eq_false : ∀ {args : List Str} {testMode : Bool}, options testMode args = some false ↔
    testMode = false ∧ Plain args := by
  intro args
  induction args with
  | nil => simp [options, Plain]
  | cons arg args ih =>
    intro testMode
    rw [options, Plain, List.forall_mem_cons]
    split_ifs with hhelp htest
    · constructor
      · exact fun h => by cases h
      · rintro ⟨-, ⟨hh, hhh, -⟩, -⟩
        rcases hhelp with hhelp | hhelp
        · exact absurd hhelp hh
        · exact absurd hhelp hhh
    · rw [ih]
      constructor
      · exact fun h => absurd h.1 Bool.noConfusion
      · rintro ⟨-, ⟨-, -, ht, htt⟩, -⟩
        rcases htest with htest | htest
        · exact absurd htest ht
        · exact absurd htest htt
    · rw [ih]
      rw [not_or] at hhelp htest
      constructor
      · exact fun h => ⟨h.1, ⟨hhelp.1, hhelp.2, htest.1, htest.2⟩, h.2⟩
      · exact fun h => ⟨h.1, h.2.2⟩

section Results

variable {G : Surroundings} {control : UInt32} {engine window : Bool} {exit : ℤ} {args : List Str} {inputs : List Input}
  {app : GreeterApp} {req : IpcMessage} {X : Exchange}

theorem main_eq {testMode : Bool} (hargs : options false args = some testMode)
    (hinit : GreeterApp.init G testMode = .ok app) :
    main G control true true exit args inputs = (.ok exit, initDeeds G testMode ++ (run G control app inputs).2) := by
  simp only [main, hargs, hinit, not_true_eq_false, if_false]

/-- the deeds of `init`, and of the run that follows it -/
theorem main_deeds : (main G control engine window exit args inputs).2 = [] ∨
    ∃ testMode, options false args = some testMode ∧
      ((main G control engine window exit args inputs).2 = initDeeds G testMode ∨
        ∃ app, GreeterApp.init G testMode = .ok app ∧
          (main G control engine window exit args inputs).2 = initDeeds G testMode ++ (run G control app inputs).2) := by
  unfold main
  cases hargs : options false args with
  | none => exact Or.inl rfl
  | some testMode =>
    cases engine with
    | false => exact Or.inl rfl
    | true =>
      refine Or.inr ⟨testMode, rfl, ?_⟩
      cases hinit : GreeterApp.init G testMode with
      | error what =>
        simp only [hinit]
        exact Or.inl rfl
      | ok app =>
        simp only [hinit]
        cases window with
        | false => exact Or.inl rfl
        | true => exact Or.inr ⟨app, rfl, rfl⟩

theorem mem_main {d : Deed} (h : d ∈ (main G control engine window exit args inputs).2) :
    ∃ testMode, options false args = some testMode ∧ (d ∈ initDeeds G testMode ∨
      ∃ app, GreeterApp.init G testMode = .ok app ∧ d ∈ (run G control app inputs).2) := by
  rcases main_deeds (G := G) with hnil | ⟨testMode, hargs, hinit | ⟨app, hinit, hrun⟩⟩
  · rw [hnil] at h
    cases h
  · rw [hinit] at h
    exact ⟨testMode, hargs, Or.inl h⟩
  · rw [hrun] at h
    exact ⟨testMode, hargs, (List.mem_append.1 h).imp id fun h => ⟨app, hinit, h⟩⟩

/-- **The greeter logs in whom it shows.** After a start in either mode, and whatever was typed, clicked, picked, pressed
and submitted since, the selections are in bounds of lists that are not empty, and a submit reads nothing past their
ends. A login that it sends is for the user of the one card that is highlighted and for the session that was picked
last, and its password was typed since the last event that cleared the field. -/
theorem login_as_shown {testMode : Bool} (hinit : GreeterApp.init G testMode = .ok app) (inputs : List Input)
    (X : Exchange) : InBounds (run G control app inputs).1 ∧
      .outOfBounds ∉ (attemptLogin G (run G control app inputs).1 X).2 ∧
      ∀ req Y, .asked req Y ∈ (attemptLogin G (run G control app inputs).1 X).2 →
        AsShown app (run G control app inputs).1 (uiEvents G control app inputs) req := by
  obtain ⟨hshown, hempty⟩ := init_shown hinit
  have hscreen := run_refines G control app inputs
  have hbounds := inBounds_of_unlabelled hscreen (hshown.handleAll _).inBounds
  refine ⟨hbounds, fun hd => ?_, fun req Y hd => ?_⟩
  · obtain ⟨user, session, -, -, hattempt⟩ := hbounds.attempt
    exact submit_inBounds (by rw [hattempt]; split_ifs <;> simp) hd
  · have hd : .asked req Y ∈ (handle G control (run G control app inputs).1 (.submit X)).2 := hd
    rcases asked_of_handle hd with ⟨-, hreq⟩ | ⟨button, h, -⟩
    · exact asShown_of_request hshown hempty hscreen hreq
    · cases h

/-- **Nothing is sent but what is shown.** Whatever the arguments, the surroundings and the inputs are, a request is
sent only if no option was given: in a preview the daemon is never asked for anything. And it is one of the two that
ask for the lists, or a login as the screen showed it at that moment, or the action of a button that was pressed; and
the daemon has an answer to each of these actions. -/
theorem asked_as_shown (h : .asked req X ∈ (main G control engine window exit args inputs).2) :
    Plain args ∧ (req = { type := .getUsers } ∧ X = G.usersExchange ∨
      req = { type := .getSessions } ∧ X = G.sessionsExchange ∨
      ∃ app earlier i later, GreeterApp.init G false = .ok app ∧ inputs = earlier ++ i :: later ∧
        (i = .submit X ∧ AsShown app (run G control app earlier).1 (uiEvents G control app earlier) req ∨
          ∃ button, i = .power button X ∧ req = powerRequest button.action ∧ button.action ∈ Service.powerActions)) := by
  obtain ⟨testMode, hargs, hd⟩ := mem_main h
  have hoffline : testMode = false := by
    rcases hd with hd | ⟨app, hinit, hd⟩
    · cases testMode with
      | false => rfl
      | true => cases hd
    · obtain ⟨earlier, i, later, -, hd⟩ := mem_run.1 hd
      have htest : (run G control app earlier).1.testMode = testMode :=
        (run_testMode app earlier).trans (init_testMode hinit)
      rw [← htest]
      rcases asked_of_handle hd with ⟨-, hreq⟩ | ⟨button, -, -, htest⟩
      · exact (request_spec hreq).1
      · exact htest
  subst hoffline
  refine ⟨(options_eq_false.1 hargs).2, ?_⟩
  rcases hd with hd | ⟨app, hinit, hd⟩
  · rw [initDeeds, if_neg Bool.false_ne_true] at hd
    rcases List.mem_cons.1 hd with hd | hd
    · cases hd
      exact Or.inl ⟨rfl, rfl⟩
    · split at hd
      · cases List.mem_singleton.1 hd
        exact Or.inr (Or.inl ⟨rfl, rfl⟩)
      · cases hd
  · obtain ⟨earlier, i, later, hsplit, hd⟩ := mem_run.1 hd
    refine Or.inr (Or.inr ⟨app, earlier, i, later, hinit, hsplit, ?_⟩)
    rcases asked_of_handle hd with ⟨hi, hreq⟩ | ⟨button, hi, hreq, -⟩
    · obtain ⟨hshown, hempty⟩ := init_shown hinit
      exact Or.inl ⟨hi, asShown_of_request hshown hempty (run_refines G control app earlier) hreq⟩
    · refine Or.inr ⟨button, hi, hreq, ?_⟩
      cases button <;> decide

/-- **What ends the greeter.** After a start in either mode, the loop is asked to end exactly by the window being
closed, by the two keys in test mode, and by a submit whose login the daemon granted. So outside test mode no key
leaves the login screen. -/
theorem dismissed_iff {testMode : Bool} (hinit : GreeterApp.init G testMode = .ok app) :
    .quit ∈ (run G control app inputs).2 ↔ ∃ earlier i later, inputs = earlier ++ i :: later ∧
      (i = .close ∨ (testMode = true ∧ ∃ ev, i = .key ev ∧ Leaves control ev) ∨
        ∃ X req, i = .submit X ∧ Grants G (run G control app earlier).1 X req) := by
  have htest : ∀ earlier, (run G control app earlier).1.testMode = testMode := fun earlier =>
    (run_testMode app earlier).trans (init_testMode hinit)
  rw [mem_run]
  constructor
  · rintro ⟨earlier, i, later, hsplit, hd⟩
    rw [quit_of_handle, htest] at hd
    exact ⟨earlier, i, later, hsplit, hd⟩
  · rintro ⟨earlier, i, later, hsplit, hd⟩
    refine ⟨earlier, i, later, hsplit, ?_⟩
    rw [quit_of_handle, htest]
    exact hd

/-- **The password's copy is wiped.** After every login that a run sends, with a password that is not empty, the copy
in `attempt_login` is wiped before anything else is done, exactly if the exchange returns: an exception of the decoder
leaves it. -/
theorem password_wiped {a b : List Deed} (h : (run G control app inputs).2 = a ++ .asked req X :: b)
    (hlogin : req.type = .login) (hpassword : req.password ≠ []) :
    (∃ rest, b = .wiped :: rest) ↔ ∃ p, G.client.sendRequest G.json X req {} 10000 = .ok p := by
  obtain ⟨earlier, i, later, a', b', rest, -, hdeeds, rfl⟩ := run_split h
  have hasked : .asked req X ∈ (handle G control (run G control app earlier).1 i).2 := by
    rw [hdeeds]
    exact List.mem_append_right _ List.mem_cons_self
  rcases asked_of_handle hasked with ⟨rfl, hreq⟩ | ⟨button, -, rfl, -⟩
  · have hdeeds : (attemptLogin G (run G control app earlier).1 X).2 = a' ++ .asked req X :: b' := hdeeds
    -- the request is the first deed, and it comes once
    have first : ∀ {tail : List Deed}, .asked req X :: tail = a' ++ .asked req X :: b' → .asked req X ∉ tail →
      b' = tail := by
      intro tail heq hnot
      cases a' with
      | nil => exact (List.cons.inj heq).2.symm
      | cons d a' => exact absurd ((List.cons.inj heq).2 ▸ List.mem_append_right _ List.mem_cons_self) hnot
    cases hsend : G.client.sendRequest G.json X req {} 10000 with
    | error what =>
      rw [submit_throws hreq hsend] at hdeeds
      obtain rfl := first hdeeds (by simp)
      simp
    | ok p =>
      rw [submit_returns hreq hsend, List.cons_append] at hdeeds
      have hwipe : wipe req = [.wiped] := if_neg hpassword
      rw [hwipe] at hdeeds
      obtain rfl := first hdeeds (by split_ifs <;> simp)
      simp
  · cases hlogin

end Results

/-! ## Witnesses -/

def escape : KeyPressEvent := ⟨keyEscape, 0, true⟩

/-- the Escape key does not leave the login screen -/
theorem dismissed_iff_escape : .quit ∉ (run standalone 4 standaloneForm [.key escape]).2 := by
  rw [dismissed_iff init_standalone]
  rintro ⟨earlier, i, later, hsplit, h⟩
  have hi : i = .key escape := by
    have hmem : i ∈ [Input.key escape] := hsplit ▸ List.mem_append_right _ List.mem_cons_self
    exact List.mem_singleton.1 hmem
  rcases h with h | ⟨h, -⟩ | ⟨X, req, h, -⟩
  · rw [hi] at h
    cases h
  · cases h
  · rw [hi] at h
    cases h

/-- a character is typed before bob is selected, and another one after; the pick names no session -/
def bobTypes : List Input := [.typed 0 'a', .click 1, .typed 0 'b', .pick 7]

/-- only what was typed for bob is sent -/
theorem login_as_shown_bob : AsShown standaloneForm (run standalone 4 standaloneForm bobTypes).1
    (uiEvents standalone 4 standaloneForm bobTypes)
    (loginRequest (lit "bob") (lit "b") (lit "miquland") (lit "miquland")) := by
  have hreq : (run standalone 4 standaloneForm bobTypes).1.request =
      some (loginRequest (lit "bob") (lit "b") (lit "miquland") (lit "miquland")) := by decide +kernel
  exact (login_as_shown init_standalone bobTypes standalone.usersExchange).2.2 _ _ (asked_of_request hreq)

/-- alice types, and submits to a daemon that is not there -/
theorem asked_as_shown_alice : ∃ screen events, AsShown standaloneForm screen events
    (loginRequest (lit "alice") (lit "x") (lit "miquland") (lit "miquland")) := by
  have hreq : (run standalone 4 standaloneForm [.typed 0 'x']).1.request =
      some (loginRequest (lit "alice") (lit "x") (lit "miquland") (lit "miquland")) := by decide +kernel
  have hasked : .asked (loginRequest (lit "alice") (lit "x") (lit "miquland") (lit "miquland")) standalone.usersExchange ∈
      (main standalone 4 true true 0 [] [.typed 0 'x', .submit standalone.usersExchange]).2 := by
    rw [main_eq (show options false [] = some false from rfl) init_standalone]
    exact List.mem_append_right _ (mem_run.2 ⟨[.typed 0 'x'], _, [], rfl, asked_of_request hreq⟩)
  obtain ⟨-, h | h | ⟨app, earlier, i, later, hinit, -, ⟨-, hshown⟩ | ⟨button, -, h, -⟩⟩⟩ := asked_as_shown hasked
  · cases h.1
  · cases h.1
  · cases init_standalone.symm.trans hinit
    exact ⟨_, _, hshown⟩
  · cases h

/-- nobody answers, and the copy is wiped -/
theorem password_wiped_alice : ∃ a rest,
    (run standalone 4 standaloneForm [.typed 0 'x', .submit standalone.usersExchange]).2 =
      a ++ .asked (loginRequest (lit "alice") (lit "x") (lit "miquland") (lit "miquland")) standalone.usersExchange ::
        .wiped :: rest := by
  have hreq : (run standalone 4 standaloneForm [.typed 0 'x']).1.request =
      some (loginRequest (lit "alice") (lit "x") (lit "miquland") (lit "miquland")) := by decide +kernel
  have hasked : .asked (loginRequest (lit "alice") (lit "x") (lit "miquland") (lit "miquland")) standalone.usersExchange ∈
      (run standalone 4 standaloneForm [.typed 0 'x', .submit standalone.usersExchange]).2 :=
    mem_run.2 ⟨[.typed 0 'x'], _, [], rfl, asked_of_request hreq⟩
  obtain ⟨a, b, hsplit⟩ := List.append_of_mem hasked
  obtain ⟨rest, rfl⟩ := (password_wiped hsplit rfl (by decide)).2 ⟨(false, {}), rfl⟩
  exact ⟨a, rest, hsplit⟩

end Miqudm.Process
