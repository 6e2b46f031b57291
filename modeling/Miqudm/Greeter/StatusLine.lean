/-
What the status line tells after a login.

`Told` are the four texts that a submit can leave on the screen, each with what is then true of the daemon.
`status_told`: whatever a greeter sends for a login, and however its client, other clients and the daemon take turns, the
text is one of these. "Login successful" is shown for a login that went through the five steps of PAM; a text that names
a step, followed by libpam's text for a code that is not success, is shown for one that the daemon refused because this
step failed; otherwise the reply did not come, or not all of it.
-/
import Miqudm.Greeter.SignIn

namespace Miqudm.StatusLine

open Miqudm.Core Agreement RemoteCalls Service LoginGating SignIn GreeterApp

/-- what the screen says after a login, and what is true then -/
inductive Told (E : Env) (n : ℕ) (req : IpcMessage) : Str → Prop where
  | granted {mid : List (Event × St)} {s : St} (hserved : RemoteCalls.Served E n req granted mid s)
      (hgranted : Granted req (events mid)) : Told E n req (lit "Login successful. Launching session...")
  | refused {cause : Cause} {ret : ℤ} {mid : List (Event × St)} {s : St} (hret : ret ≠ pamSuccess)
      (hserved : RemoteCalls.Served E n req (response false (cause.text ++ E.pam.strerror ret)) mid s)
      (hblames : Blames (Call.of mid).pams cause) : Told E n req (cause.text ++ E.pam.strerror ret)
  | unanswered : Told E n req (lit "Failed to communicate with miqudm daemon")
  | torn (errs : Str) : Told E n req (lit "Failed to parse JSON: " ++ errs)

/-- what a login leaves on the status line -/
def statusOf (answer : Option IpcMessage) : Str :=
  match loginOutcome answer with
  | (false, error) => if error = [] then lit "Authentication failed" else error
  | (true, _) => lit "Login successful. Launching session..."

theorem status_of_submit {G : Surroundings} {app : GreeterApp} {X : Exchange} {req : IpcMessage}
    (hreq : app.request = some req) {p : Bool × IpcMessage}
    (hsend : G.client.sendRequest G.json X req {} 10000 = .ok p) :
    (Process.attemptLogin G app X).1.statusLabel = statusOf (Process.answerTo G X req) := by
  rw [Process.submit_returns hreq hsend]
  simp only [GreeterApp.attemptLogin, request_eq_some.1 hreq, statusOf]
  cases loginOutcome (Process.answerTo G X req) with
  | mk success error => cases success <;> rfl

section Status

variable {E : Env} {payload : ℕ → Str} {n : ℕ} {acts : List Action} {t : Net} {G : Surroundings} {control : UInt32}
  {engine window : Bool} {exit : ℤ} {args : List Str} {inputs : List Process.Input} {req : IpcMessage} {X : Exchange}

/-- the daemon's answer to a login, as it is shown -/
theorem told_of_served {resp : IpcMessage} {mid : List (Event × St)} {s : St} (hlogin : req.type = .login)
    (h : RemoteCalls.Served E n req resp mid s) : Told E n req (statusOf (some resp)) := by
  obtain ⟨-, -, -, -, -, -, -, hanswers⟩ := id h
  simp only [Answers, hlogin] at hanswers
  rcases hanswers with rfl | ⟨cause, ret, hret, rfl, hblames⟩
  · exact .granted h (granted_of_served hlogin h)
  · have htext : cause.text ++ E.pam.strerror ret ≠ [] := by
      cases cause <;> exact List.cons_ne_nil _ _
    have hshown : statusOf (some (response false (cause.text ++ E.pam.strerror ret))) =
        cause.text ++ E.pam.strerror ret := by
      simp [statusOf, loginOutcome, response, htext]
    rw [hshown]
    exact .refused hret h hblames

/-- **The status line tells what happened.** For every login that a greeter sends, the text that it shows after the
exchange is that of a granted login, the daemon's reason for refusing it, or that there was no reply or no whole one;
and the first two are true. -/
theorem status_told (hrun : Agreement.run E payload (start (history E n)) acts = some t) (hjson : G.json = E.json)
    (hwired : Wired E payload t (asks (Process.main G control engine window exit args inputs).2))
    (hasked : .asked req X ∈ (Process.main G control engine window exit args inputs).2) (hlogin : req.type = .login) :
    ∃ app earlier later, GreeterApp.init G false = .ok app ∧ inputs = earlier ++ .submit X :: later ∧
      Told E n req (Process.run G control app (earlier ++ [.submit X])).1.statusLabel := by
  obtain ⟨hinv, hheard⟩ := heard_run acts inv_start heard_start hrun
  obtain ⟨c, hsends, hexchange, hreadable⟩ := hwired.of_mem hasked
  obtain ⟨testMode, -, hinit | ⟨app, hinit, hdeed⟩⟩ := Process.mem_main hasked
  · -- the requests of the start are no logins
    rw [Process.initDeeds] at hinit
    split_ifs at hinit
    · cases hinit
    · rcases List.mem_cons.1 hinit with h | h
      · cases h
        cases hlogin
      · split at h
        · cases List.mem_singleton.1 h
          cases hlogin
        · cases h
  subst hexchange
  obtain ⟨earlier, i, later, hsplit, hdeed⟩ := Process.mem_run.1 hdeed
  rcases Process.asked_of_handle hdeed with ⟨rfl, hreq⟩ | ⟨button, -, rfl, -⟩
  swap
  · cases hlogin
  obtain rfl : testMode = false := by
    rw [← Process.init_testMode hinit, ← Process.run_testMode (G := G) app earlier]
    exact (request_spec hreq).1
  refine ⟨app, earlier, later, hinit, hsplit, ?_⟩
  rw [Process.run_append]
  set shown := (Process.attemptLogin G (Process.run G control app earlier).1 (t.client c).talk.exchange).1.statusLabel
    with hshown
  show Told E n req shown
  have hstatus : ∀ {p : Bool × IpcMessage},
      G.client.sendRequest E.json (t.client c).talk.exchange req {} 10000 = .ok p →
      shown = statusOf (if p.1 then some p.2 else none) := by
    intro p hsend
    rw [← hjson] at hsend
    rw [hshown, status_of_submit hreq hsend, Process.answerTo, hsend]
    obtain ⟨ok, resp⟩ := p
    cases ok <;> rfl
  rcases reply_served hinv hheard hsends hreadable G.client 10000 with
    hnone | ⟨resp, mid, s, hread, hserved⟩ | ⟨errs, htorn⟩
  · rw [hstatus hnone]
    exact .unanswered
  · rw [hstatus hread]
    exact told_of_served hlogin hserved
  · rw [hstatus htorn]
    exact .torn errs

end Status

/-! ## Witness -/

def refusal : IpcMessage := response false (lit "Authentication failed: Authentication failure")

/-- `pam_authenticate` is the tenth call, and it fails -/
def host : Env := { SignIn.host with
  json := greeterJson refusal
  pam := { ret := fun k => if k = 9 then 7 else pamSuccess
           strerror := fun _ => lit "Authentication failure"
           modules := fun _ => [] } }

/-- the last input is the only submit -/
theorem earlier_typing {X : Exchange} {earlier later : List Process.Input}
    (h : typing ++ [.submit X] = earlier ++ .submit X :: later) : earlier = typing := by
  rcases List.append_eq_append_iff.1 h with ⟨c, rfl, hc⟩ | ⟨c, hc, hlater⟩
  · cases c with
    | nil => exact List.append_nil _
    | cons i c => simp at hc
  · cases c with
    | nil => exact (List.append_nil _).symm.trans hc.symm
    | cons i c =>
      obtain rfl : Process.Input.submit X = i := (List.cons.inj hlater).1
      have hmem : Process.Input.submit X ∈ typing := hc ▸ List.mem_append_right _ List.mem_cons_self
      simp [typing] at hmem

/-- alice mistypes her password, and reads why she is refused -/
theorem status_told_alice : ∃ mid s, RemoteCalls.Served host 1 Agreement.request refusal mid s ∧
    Blames (Call.of mid).pams .authenticate := by
  have hrun : (Agreement.run host payload (start (history host 1)) (answering refusal 38)).map
      (fun t => ((t.client 0, t.answers 0), (t.client 1, t.answers 1))) =
        some (({}, []), (⟨.leaving, SignIn.told refusal⟩, [refusal])) := by decide +kernel
  obtain ⟨t, hrun, heq⟩ := Option.map_eq_some_iff.1 hrun
  obtain ⟨hfirst, hsecond⟩ := Prod.mk.inj heq
  have hreadable : Readable (greeterJson refusal) [refusal] := by
    refine readable_reply ?_ (apart_of refusal (by decide +kernel) (by decide +kernel))
    unfold JsonCpp.WritesLine
    decide +kernel
  have hsend : (screen refusal).client.sendRequest (screen refusal).json (SignIn.told refusal).exchange
      Agreement.request {} 10000 = .ok (true, refusal) := by decide +kernel
  have hasked : .asked Agreement.request (SignIn.told refusal).exchange ∈
      (Process.main (screen refusal) 4 true true 0 [] (typing ++ [.submit (SignIn.told refusal).exchange])).2 := by
    rw [deeds_typing hsend]
    simp
  obtain ⟨app, earlier, later, hinit, hsplit, htold⟩ := status_told hrun rfl
    (wired_typing rfl (Prod.mk.inj hfirst) (Prod.mk.inj hsecond) hreadable hsend) hasked rfl
  obtain rfl := earlier_typing hsplit
  obtain rfl : standaloneForm = app := Except.ok.inj ((init_screen refusal).symm.trans hinit)
  have hshown :
      (Process.run (screen refusal) 4 standaloneForm
        (typing ++ [.submit (SignIn.told refusal).exchange])).1.statusLabel = refusal.message := by
    rw [Process.run_append, Process.run, Process.run, Process.handle,
      status_of_submit (request_typing refusal) hsend, Process.answerTo, hsend]
    rfl
  rw [hshown] at htold
  generalize htext : refusal.message = text at htold
  cases htold with
  | granted => exact absurd htext (by decide)
  | unanswered => exact absurd htext (by decide)
  | torn errs =>
    have hhead : refusal.message.head? = some 'F' := congrArg List.head? htext
    exact absurd hhead (by decide)
  | @refused cause ret mid s hret hserved hblames =>
    have hcause : cause = .authenticate := by
      have hfailed : refusal.message = cause.text ++ lit "Authentication failure" := htext
      cases cause <;> first | rfl | exact absurd hfailed (by decide)
    rw [← htext] at hserved
    exact ⟨mid, s, hserved, hcause ▸ hblames⟩

end Miqudm.StatusLine
