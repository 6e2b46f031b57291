/-
The login form.

Whatever the user does after `init`, the form stays coherent: the selections are in bounds of the lists `init` filled
(`InBounds`), so no submit reads past their end; one card is highlighted, the one of the selected user; and the session
is the one that was picked last (`Shown`, kept by every event). The field holds only what was typed since the last event
that cleared it: selecting a user, or a login that failed (`handleAll_field`).
-/
import Miqudm.Common.SessionScan
import Miqudm.Greeter.GreeterApp
import Mathlib.Data.List.Perm.Subperm

namespace Miqudm.GreeterApp

/-! ## What a submit makes of the form -/

/-- there are users and sessions, and the selections are two of them -/
structure InBounds (app : GreeterApp) : Prop where
  users : app.users ≠ []
  sessions : app.sessions ≠ []
  user : app.selectedUserIdx < app.users.length
  session : 0 ≤ app.selectedSessionIdx ∧ app.selectedSessionIdx < app.sessions.length

theorem InBounds.selectedSession {app : GreeterApp} (h : InBounds app) :
    ∃ session, app.selectedSession = some session ∧ app.sessions[app.selectedSessionIdx.toNat]? = some session := by
  have hindex : app.selectedSessionIdx.toNat < app.sessions.length := by
    have := h.session
    omega
  refine ⟨_, ?_, List.getElem?_eq_getElem hindex⟩
  rw [GreeterApp.selectedSession, if_neg (Int.not_lt.2 h.session.1)]
  exact List.getElem?_eq_getElem hindex

/-- within the bounds a submit reads the two entries that are selected -/
theorem InBounds.attempt {app : GreeterApp} (h : InBounds app) : ∃ user session,
    app.users[app.selectedUserIdx]? = some user ∧ app.sessions[app.selectedSessionIdx.toNat]? = some session ∧
    app.attempt = if app.testMode then
        .preview (lit "Test Mode: Authenticated as " ++ user.username ++ lit " (" ++ session.name ++ lit ")")
      else .send (loginRequest user.username (app.passwordInput.getD []) session.exec session.id) := by
  obtain ⟨session, hselected, hsession⟩ := h.selectedSession
  have huser := List.getElem?_eq_getElem h.user
  refine ⟨_, session, huser, hsession, ?_⟩
  rw [GreeterApp.attempt, if_neg (not_or.2 ⟨h.users, h.sessions⟩), huser, hselected]

theorem request_eq_some {app : GreeterApp} {req : IpcMessage} : app.request = some req ↔ app.attempt = .send req := by
  unfold request
  cases app.attempt <;> simp

/-- a request is sent outside test mode, for the entries that are selected -/
theorem request_spec {app : GreeterApp} {req : IpcMessage} (h : app.request = some req) :
    app.testMode = false ∧ ∃ user session, app.users[app.selectedUserIdx]? = some user ∧
      app.selectedSession = some session ∧
      req = loginRequest user.username (app.passwordInput.getD []) session.exec session.id := by
  rw [request_eq_some, attempt] at h
  by_cases hempty : app.users = [] ∨ app.sessions = []
  · rw [if_pos hempty] at h
    cases h
  · rw [if_neg hempty] at h
    cases huser : app.users[app.selectedUserIdx]? with
    | none =>
      rw [huser] at h
      cases h
    | some user =>
      cases hsession : app.selectedSession with
      | none =>
        rw [huser, hsession] at h
        cases h
      | some session =>
        rw [huser, hsession] at h
        dsimp only at h
        split_ifs at h with htest
        exact ⟨Bool.eq_false_iff.2 htest, user, session, rfl, rfl, (Attempt.send.inj h).symm⟩

/-! ## What is shown -/

/-- the session an event picks, if it is one of the list -/
def picked (sessions : ℕ) : UiEvent → Option ℤ
  | .pick index => if 0 ≤ index ∧ index < sessions then some index else none
  | _ => none

/-- the session that was picked last; the first one if none was -/
def lastPick (sessions : ℕ) (events : List UiEvent) : ℤ := ((events.filterMap (picked sessions)).getLast?).getD 0

/-- the form after `events` on the form `start` -/
structure Shown (start : GreeterApp) (events : List UiEvent) (app : GreeterApp) : Prop where
  users : app.users = start.users
  sessions : app.sessions = start.sessions
  user : app.selectedUserIdx < start.users.length
  cards : app.cards = (List.range start.users.length).map fun i => decide (i = app.selectedUserIdx)
  session : 0 ≤ app.selectedSessionIdx ∧ app.selectedSessionIdx < start.sessions.length
  pick : app.selectedSessionIdx = lastPick start.sessions.length events
  sound : app.outOfBounds = false

theorem Shown.inBounds {start app : GreeterApp} {events : List UiEvent} (h : Shown start events app) : InBounds app := by
  have huser : app.selectedUserIdx < app.users.length := h.users ▸ h.user
  have hsession : 0 ≤ app.selectedSessionIdx ∧ app.selectedSessionIdx < app.sessions.length := h.sessions ▸ h.session
  refine ⟨?_, ?_, huser, hsession⟩
  · exact List.ne_nil_of_length_pos (Nat.zero_lt_of_lt huser)
  · apply List.ne_nil_of_length_pos
    omega

theorem lastPick_concat (sessions : ℕ) (events : List UiEvent) (e : UiEvent) :
    lastPick sessions (events ++ [e]) = (picked sessions e).getD (lastPick sessions events) := by
  rw [lastPick, List.filterMap_append]
  cases hpick : picked sessions e with
  | none => simp [hpick, lastPick]
  | some i => simp [hpick]

theorem handleAll_concat (app : GreeterApp) (events : List UiEvent) (e : UiEvent) :
    app.handleAll (events ++ [e]) = (app.handleAll events).handle e := by
  rw [handleAll, List.foldl_append]
  rfl

/-- a login changes neither the lists nor what is selected -/
theorem attemptLogin_frame (app : GreeterApp) (answer : IpcMessage → Option IpcMessage) :
    (app.attemptLogin answer).users = app.users ∧ (app.attemptLogin answer).sessions = app.sessions ∧
      (app.attemptLogin answer).selectedUserIdx = app.selectedUserIdx ∧ (app.attemptLogin answer).cards = app.cards ∧
      (app.attemptLogin answer).selectedSessionIdx = app.selectedSessionIdx := by
  unfold attemptLogin
  split
  · exact ⟨rfl, rfl, rfl, rfl, rfl⟩
  · exact ⟨rfl, rfl, rfl, rfl, rfl⟩
  · exact ⟨rfl, rfl, rfl, rfl, rfl⟩
  · split <;> exact ⟨rfl, rfl, rfl, rfl, rfl⟩

/-- within the bounds a login reads nothing past an end -/
theorem attemptLogin_sound {app : GreeterApp} (h : InBounds app) (answer : IpcMessage → Option IpcMessage) :
    (app.attemptLogin answer).outOfBounds = app.outOfBounds := by
  obtain ⟨user, session, -, -, hattempt⟩ := h.attempt
  rw [attemptLogin, hattempt]
  split_ifs
  · rfl
  · dsimp only
    split <;> rfl

/-- an event that leaves the lists and the selections -/
theorem Shown.same {start app app' : GreeterApp} {events : List UiEvent} {e : UiEvent} (h : Shown start events app)
    (he : picked start.sessions.length e = none) (hsame : app'.users = app.users ∧ app'.sessions = app.sessions ∧
      app'.selectedUserIdx = app.selectedUserIdx ∧ app'.cards = app.cards ∧
      app'.selectedSessionIdx = app.selectedSessionIdx) (hsound : app'.outOfBounds = app.outOfBounds) :
    Shown start (events ++ [e]) app' := by
  obtain ⟨husers, hsessions, huser, hcards, hsession⟩ := hsame
  exact {
    users := husers.trans h.users
    sessions := hsessions.trans h.sessions
    user := huser ▸ h.user
    cards := by rw [hcards, huser, h.cards]
    session := hsession ▸ h.session
    pick := by rw [hsession, lastPick_concat, he, h.pick, Option.getD_none]
    sound := hsound.trans h.sound }

/-- every event keeps the form coherent -/
theorem Shown.handle {start app : GreeterApp} {events : List UiEvent} (h : Shown start events app) (e : UiEvent) :
    Shown start (events ++ [e]) (app.handle e) := by
  cases e with
  | typed position c => exact h.same rfl ⟨rfl, rfl, rfl, rfl, rfl⟩ rfl
  | erased position => exact h.same rfl ⟨rfl, rfl, rfl, rfl, rfl⟩ rfl
  | submit answer => exact h.same rfl (attemptLogin_frame app answer) (attemptLogin_sound h.inBounds answer)
  | click index =>
    by_cases hindex : index ≥ app.users.length
    · have hsame : app.handle (.click index) = app := if_pos hindex
      rw [hsame]
      exact h.same rfl ⟨rfl, rfl, rfl, rfl, rfl⟩ rfl
    · have hselect : app.handle (.click index) = { app with
          selectedUserIdx := index
          cards := app.cards.mapIdx fun i _ => i = index
          passwordInput := app.passwordInput.map fun _ => []
          statusLabel := [] } := if_neg hindex
      rw [hselect]
      rw [h.users] at hindex
      exact {
        users := h.users
        sessions := h.sessions
        user := Nat.lt_of_not_le hindex
        cards := by
          show app.cards.mapIdx (fun i _ => decide (i = index)) = _
          rw [h.cards]
          apply List.ext_getElem
          · simp
          · intro i hi hi'
            simp
        session := h.session
        pick := by
          rw [lastPick_concat]
          exact h.pick
        sound := h.sound }
  | pick index =>
    by_cases hindex : index < 0 ∨ index ≥ app.sessions.length
    · have hsame : app.handle (.pick index) = app := if_pos hindex
      rw [hsame]
      refine h.same ?_ ⟨rfl, rfl, rfl, rfl, rfl⟩ rfl
      rw [h.sessions] at hindex
      exact if_neg (by omega)
    · have hselect : app.handle (.pick index) = { app with selectedSessionIdx := index, statusLabel := [] } :=
        if_neg hindex
      rw [hselect]
      rw [h.sessions] at hindex
      have hbounds : 0 ≤ index ∧ index < start.sessions.length := by omega
      exact {
        users := h.users
        sessions := h.sessions
        user := h.user
        cards := h.cards
        session := hbounds
        pick := by
          rw [lastPick_concat, picked, if_pos hbounds]
          rfl
        sound := h.sound }

theorem Shown.handleAll {start : GreeterApp} (h : Shown start [] start) (events : List UiEvent) :
    Shown start events (start.handleAll events) := by
  induction events using List.reverseRecOn with
  | nil => exact h
  | append_singleton events e ih =>
    rw [handleAll_concat]
    exact ih.handle e

/-- the text of the password field -/
def field (app : GreeterApp) : Str := app.passwordInput.getD []

/-! ## The start -/

theorem scanUsers_ne_nil (db : List Passwd) (login : Option CStr) (uid gid : UInt32) (isFile : Str → Bool) :
    scanUsers db login uid gid isFile ≠ [] := by
  simp only [scanUsers]
  split_ifs with hnil
  · simp
  · exact hnil

/-- what `init` comes to when nothing throws -/
theorem init_spec {G : Surroundings} {testMode : Bool} {app : GreeterApp} (h : init G testMode = .ok app) :
    ∃ loadedIpc users sessions, loadIpc G testMode = .ok (loadedIpc, users, sessions) ∧
      app = setupUi { testMode, users := app.users, sessions := app.sessions } ∧
      app.users = (if ¬ loadedIpc ∨ users = [] then scanUsers G.passwd G.getlogin G.uid G.gid G.isFile else users) ∧
      (if ¬ loadedIpc ∨ sessions = [] then scanAll G.listing = some app.sessions else app.sessions = sessions) := by
  cases hload : loadIpc G testMode with
  | error e =>
    simp only [init, hload] at h
    cases h
  | ok lists =>
    obtain ⟨loadedIpc, users, sessions⟩ := lists
    refine ⟨loadedIpc, users, sessions, rfl, ?_⟩
    by_cases hscan : ¬ loadedIpc ∨ sessions = []
    · rw [if_pos hscan]
      cases hsessions : scanAll G.listing with
      | none =>
        simp only [init, hload, scanSessions, hsessions, Except.mapError, bind, Except.bind, if_pos hscan] at h
        cases h
      | some scanned =>
        simp only [init, hload, scanSessions, hsessions, Except.mapError, bind, Except.bind, if_pos hscan] at h
        cases h
        exact ⟨rfl, rfl, rfl⟩
    · rw [if_neg hscan]
      simp only [init, hload, Except.mapError, bind, Except.bind, if_neg hscan] at h
      cases h
      exact ⟨rfl, rfl, rfl⟩

/-- however the lists are filled, they are not empty; the field is -/
theorem init_shown {G : Surroundings} {testMode : Bool} {app : GreeterApp} (h : init G testMode = .ok app) :
    Shown app [] app ∧ app.field = [] := by
  obtain ⟨loadedIpc, users, sessions, -, happ, husers, hsessions⟩ := init_spec h
  have husers : app.users ≠ [] := by
    rw [husers]
    split_ifs with hscan
    · exact scanUsers_ne_nil _ _ _ _ _
    · exact fun hnil => hscan (Or.inr hnil)
  have hsessions : app.sessions ≠ [] := by
    split_ifs at hsessions with hscan
    · exact (scanResult hsessions).nonempty
    · exact fun hnil => hscan (Or.inr (hsessions.symm.trans hnil))
  rw [happ]
  refine ⟨?_, rfl⟩
  exact {
    users := rfl
    sessions := rfl
    user := List.length_pos_of_ne_nil husers
    cards := rfl
    session := ⟨Int.le_refl 0, Int.natCast_pos.2 (List.length_pos_of_ne_nil hsessions)⟩
    pick := rfl
    sound := rfl }

/-! ## What the field holds -/

/-- the characters that events type -/
def typedChars (events : List UiEvent) : Str := events.filterMap fun e => match e with
  | .typed _ c => some c
  | _ => none

/-- an event that selects a user, or in which a login fails -/
def Clears (app : GreeterApp) : UiEvent → Prop
  | .click index => index < app.users.length
  | .submit answer => ∃ req, app.request = some req ∧ (loginOutcome (answer req)).1 = false
  | _ => False

theorem field_cleared (app : GreeterApp) : (app.passwordInput.map fun _ => ([] : Str)).getD [] = [] := by
  cases app.passwordInput <;> rfl

theorem attemptLogin_field (app : GreeterApp) (answer : IpcMessage → Option IpcMessage) :
    (app.attemptLogin answer).field = app.field ∨ (app.attemptLogin answer).field = [] := by
  unfold attemptLogin
  split
  · exact Or.inl rfl
  · exact Or.inl rfl
  · exact Or.inl rfl
  · split
    · exact Or.inr (field_cleared app)
    · exact Or.inl rfl

/-- an event adds to the field what it types -/
theorem handle_field (app : GreeterApp) (e : UiEvent) :
    List.Subperm (app.handle e).field (typedChars [e] ++ app.field) := by
  cases e with
  | typed position c =>
    cases htext : app.passwordInput with
    | none => simp [handle, field, htext]
    | some text =>
      have hperm : List.Perm (text.take position ++ c :: text.drop position) (c :: text) := by
        have hmiddle : List.Perm (text.take position ++ c :: text.drop position)
            (c :: (text.take position ++ text.drop position)) := List.perm_middle
        rwa [List.take_append_drop] at hmiddle
      simpa [handle, field, htext, typedChars] using hperm.subperm
  | erased position =>
    cases htext : app.passwordInput with
    | none => simp [handle, field, htext]
    | some text => simpa [handle, field, htext, typedChars] using (List.eraseIdx_sublist text position).subperm
  | click index =>
    by_cases hindex : index ≥ app.users.length
    · have hsame : app.handle (.click index) = app := if_pos hindex
      rw [hsame]
      exact List.Subperm.refl _
    · have hempty : (app.handle (.click index)).field = [] := by
        have hselect : app.handle (.click index) = _ := if_neg hindex
        rw [hselect]
        exact field_cleared app
      rw [hempty]
      exact List.nil_subperm
  | pick index =>
    have hsame : (app.handle (.pick index)).field = app.field := by
      simp only [handle, selectSession]
      split_ifs <;> rfl
    rw [hsame]
    exact List.Subperm.refl _
  | submit answer =>
    rcases attemptLogin_field app answer with hsame | hempty
    · show List.Subperm (app.attemptLogin answer).field _
      rw [hsame]
      exact List.Subperm.refl _
    · show List.Subperm (app.attemptLogin answer).field _
      rw [hempty]
      exact List.nil_subperm

theorem handleAll_field (app : GreeterApp) (events : List UiEvent) :
    List.Subperm (app.handleAll events).field (typedChars events ++ app.field) := by
  induction events using List.reverseRecOn with
  | nil => exact List.Subperm.refl _
  | append_singleton events e ih =>
    have hsplit : typedChars (events ++ [e]) = typedChars events ++ typedChars [e] := List.filterMap_append
    rw [handleAll_concat, hsplit]
    have hstep := (handle_field (app.handleAll events) e).trans ((List.subperm_append_left (typedChars [e])).2 ih)
    have hperm : List.Perm (typedChars [e] ++ (typedChars events ++ app.field))
        (typedChars events ++ typedChars [e] ++ app.field) := by
      rw [← List.append_assoc]
      exact List.Perm.append_right _ List.perm_append_comm
    exact hperm.subperm_left.1 hstep

theorem Clears.field {app : GreeterApp} {e : UiEvent} (h : Clears app e) : (app.handle e).field = [] := by
  cases e with
  | typed position c => exact h.elim
  | erased position => exact h.elim
  | pick index => exact h.elim
  | click index =>
    have hselect : app.handle (.click index) = _ := if_neg (Nat.not_le.2 h)
    rw [hselect]
    exact field_cleared app
  | submit answer =>
    obtain ⟨req, hreq, hfailed⟩ := h
    show (app.attemptLogin answer).field = []
    rw [attemptLogin, request_eq_some.1 hreq]
    dsimp only
    split
    · exact field_cleared app
    · case _ hok =>
      rw [hok] at hfailed
      cases hfailed

/-! ## A form for witnesses -/

/-- a greeter without a daemon, on a machine with two accounts -/
def standalone : Surroundings where
  json := ⟨fun _ => .failed [], fun _ => []⟩
  client := ⟨[]⟩
  usersExchange := ⟨false, fun _ => false, -1, fun _ => false, []⟩
  sessionsExchange := ⟨false, fun _ => false, -1, fun _ => false, []⟩
  passwd := [
    ⟨⟨lit "alice", noNul_alice⟩, 1000, 1000, none, some ⟨lit "/home/alice", noNul_homeAlice⟩, some ⟨lit "/bin/bash", noNul_bash⟩⟩,
    ⟨⟨lit "bob", by decide⟩, 1001, 1001, none, some ⟨lit "/home/bob", by decide⟩, some ⟨lit "/bin/bash", noNul_bash⟩⟩]
  getlogin := none
  uid := 200
  gid := 200
  isFile := fun _ => false
  listing := fun _ => none

/-- the form of this greeter -/
def standaloneForm : GreeterApp := setupUi {
  users := scanUsers standalone.passwd standalone.getlogin standalone.uid standalone.gid standalone.isFile
  sessions := [fallbackSession] }

theorem init_standalone : init standalone false = .ok standaloneForm := by
  have hload : loadIpc standalone false = .ok (false, [], []) := by decide
  have hscan : scanSessions standalone = .ok [fallbackSession] := by decide
  unfold init
  rw [hload, hscan]
  rfl

end Miqudm.GreeterApp
