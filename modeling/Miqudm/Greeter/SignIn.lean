/-
From the login screen to PAM.

A whole greeter beside the daemon: the exchanges of the process are those of clients of the daemon, one connection for
each request, in the order the requests are made (`Wired`). The clients and the daemon take their steps in any order,
and other clients may be there.

`signed_in`: the greeter closes its window only after a login, as its screen showed it, for which the daemon has made
the five steps of PAM with success before it answered; and the users and the sessions of the screen are the scans that
the daemon made for this greeter, or the greeter's own.
-/
import Miqudm.Daemon.LoginGating
import Miqudm.Greeter.Process
import Miqudm.Greeter.RemoteCalls

namespace Miqudm.SignIn

open Miqudm.Core Prog Agreement RemoteCalls Service LoginGating GreeterApp

/-! ## What the daemon did for a login -/

/-- what is being handled was received, and nothing else was since -/
theorem handling_since (es : List Event) : ∀ {req : IpcMessage} {fs : List Event}, handling es = some (req, fs) →
    ∃ a, es = a ++ .received req :: fs ∧ ∀ r, .received r ∉ fs := by
  induction es using List.reverseRecOn with
  | nil => exact fun h => by cases h
  | append_singleton es e ih =>
    intro req fs h
    have hlast : handlingStep (handling es) e = some (req, fs) := by
      rw [← h, handling, handling, List.foldl_append]
      rfl
    cases hbefore : handling es with
    | none =>
      rw [hbefore] at hlast
      cases e with
      | received r =>
        cases hlast
        exact ⟨es, rfl, fun r h => by cases h⟩
      | _ => cases hlast
    | some p =>
      obtain ⟨req', fs'⟩ := p
      rw [hbefore] at hlast
      have more : ∀ {e : Event}, (∀ r, e ≠ .received r) → some (req', fs' ++ [e]) = some (req, fs) →
          ∃ a, es ++ [e] = a ++ .received req :: fs ∧ ∀ r, .received r ∉ fs := by
        intro e he heq
        cases heq
        obtain ⟨a, rfl, hnone⟩ := ih hbefore
        refine ⟨a, by simp, fun r hr => ?_⟩
        rcases List.mem_append.1 hr with hr | hr
        · exact hnone r hr
        · exact he r (List.mem_singleton.1 hr).symm
      cases e with
      | received r =>
        cases hlast
        exact ⟨es, rfl, fun r h => by cases h⟩
      | served => cases hlast
      | _ => exact more (fun r => nofun) hlast

theorem requests_of_received {req : IpcMessage} {mid : List (Event × St)} (h : .received req ∈ events mid) :
    req ∈ (Call.of mid).requests := by
  induction mid using List.reverseRecOn with
  | nil => cases h
  | append_singleton mid p ih =>
    have hstep : Call.of (mid ++ [p]) = (Call.of mid).step p.1 := by simp [Call.of]
    rw [hstep]
    rw [events, List.map_append, List.mem_append] at h
    rcases h with h | h
    · have hkept : req ∈ (Call.of mid).requests := ih h
      cases p.1 <;> first | exact hkept | exact List.mem_append_left _ hkept
    · rw [← List.mem_singleton.1 h]
      exact List.mem_append_right _ (List.mem_singleton_self req)

/-- **A granted login has gone through PAM.** -/
theorem granted_of_served {E : Env} {n : ℕ} {req : IpcMessage} {mid : List (Event × St)} {s : St}
    (hlogin : req.type = .login) (h : RemoteCalls.Served E n req granted mid s) : Granted req (events mid) := by
  obtain ⟨before, post, fd, u, hsplit, -, hrequests, -⟩ := h
  have hgood := gated.accepts_split (Watched.accepts (main_gated E n)) hsplit
  rw [after_eq_handling] at hgood
  have hgated : Gated (handling (events (before ++ (.accept (some fd), u) :: mid))) (.reply granted) := hgood
  cases hhandling : handling (events (before ++ (.accept (some fd), u) :: mid)) with
  | none =>
    rw [hhandling] at hgated
    exact hgated.elim
  | some p =>
    obtain ⟨req', fs⟩ := p
    rw [hhandling] at hgated
    obtain ⟨a, ha, hnone⟩ := handling_since _ hhandling
    have hreceived : ∃ t, (.received req, t) ∈ mid := received_of_mem (hrequests ▸ List.mem_singleton_self req)
    obtain ⟨t, ht⟩ := hreceived
    have hmem : .received req ∈ events mid := List.mem_map_of_mem ht
    have hevents : events (before ++ (.accept (some fd), u) :: mid) =
        events (before ++ [(.accept (some fd), u)]) ++ events mid := by simp
    rw [hevents] at ha
    have found : ∀ c, events mid = c ++ .received req' :: fs → Granted req (events mid) := by
      intro c hc
      have hreq : req' ∈ (Call.of mid).requests := requests_of_received (by rw [hc]; simp)
      rw [hrequests, List.mem_singleton] at hreq
      subst hreq
      obtain ⟨service, handle, hsteps⟩ := (hgated.2 hlogin).1 rfl
      refine ⟨service, handle, hsteps.trans ?_⟩
      rw [hc, pamCalls_append]
      exact List.sublist_append_of_sublist_right (List.Sublist.refl _)
    rcases List.append_eq_append_iff.1 ha with ⟨c, -, hmid⟩ | ⟨c, -, hrest⟩
    · exact found c hmid
    · cases c with
      | nil => exact found [] hrest.symm
      | cons d c =>
        -- the request would have been received while another one is handled
        refine absurd ?_ (hnone req)
        rw [(List.cons.inj hrest).2]
        exact List.mem_append_right _ hmem

/-! ## The greeter as a client -/

def Deed.asked? : Process.Deed → Option (IpcMessage × Exchange)
  | .asked req X => some (req, X)
  | _ => none

/-- the requests of a greeter, in order, with what their exchanges meet -/
def asks (deeds : List Process.Deed) : List (IpcMessage × Exchange) := deeds.filterMap Deed.asked?

/-- the requests are those of the first clients, in order; jsoncpp writes them on a line and reads them back, and it
reads what these clients were sent whole or not at all -/
def Wired (E : Env) (payload : ℕ → Str) (t : Net) (asked : List (IpcMessage × Exchange)) : Prop :=
  ∀ k req X, asked[k]? = some (req, X) →
    Sends E.json (payload k) req ∧ X = (t.client k).talk.exchange ∧ Readable E.json (t.answers k)

theorem Wired.of_mem {E : Env} {payload : ℕ → Str} {t : Net} {deeds : List Process.Deed}
    (h : Wired E payload t (asks deeds))
    {req : IpcMessage} {X : Exchange} (hmem : .asked req X ∈ deeds) :
    ∃ c, Sends E.json (payload c) req ∧ X = (t.client c).talk.exchange ∧ Readable E.json (t.answers c) := by
  have hasks : (req, X) ∈ asks deeds := List.mem_filterMap.2 ⟨.asked req X, hmem, rfl⟩
  obtain ⟨c, hc⟩ := List.mem_iff_getElem?.1 hasks
  exact ⟨c, h c req X hc⟩

section Results

variable {E : Env} {payload : ℕ → Str} {n : ℕ} {acts : List Action} {t : Net} {G : Surroundings} {control : UInt32}
  {engine window : Bool} {exit : ℤ} {args : List Str} {inputs : List Process.Input}

/-- when the daemon's lists are taken, both calls were answered -/
theorem calls_of_loaded {users : List UserInfo} {sessions : List SessionInfo}
    (h : loadIpc G false = .ok (true, users, sessions)) :
    G.client.getUsers G.json G.usersExchange [] = .ok (true, users) ∧
      G.client.getSessions G.json G.sessionsExchange [] = .ok (true, sessions) := by
  rw [loadIpc, if_neg Bool.false_ne_true] at h
  cases husers : G.client.getUsers G.json G.usersExchange [] with
  | error what =>
    rw [husers] at h
    cases h
  | ok p =>
    obtain ⟨ok, users'⟩ := p
    rw [husers] at h
    cases ok with
    | false => cases h
    | true =>
      cases hsessions : G.client.getSessions G.json G.sessionsExchange [] with
      | error what =>
        simp only [hsessions] at h
        cases h
      | ok p =>
        obtain ⟨ok, sessions'⟩ := p
        simp only [hsessions] at h
        cases h
        exact ⟨rfl, rfl⟩

/-- the lists of a screen are the scans that the daemon made when it served this greeter, each on a connection of its
own, or else those that the greeter made itself -/
structure Listed (E : Env) (n : ℕ) (G : Surroundings) (app : GreeterApp) : Prop where
  users : (∃ resp mid s, RemoteCalls.Served E n { type := .getUsers } resp mid s ∧ app.users = scanUsers
      (E.passwd (s.now - 2)) (E.getlogin (s.now - 2)) E.self.uid E.self.gid (E.isFile (s.now - 2))) ∨
    app.users = scanUsers G.passwd G.getlogin G.uid G.gid G.isFile
  sessions : (∃ resp mid s, RemoteCalls.Served E n { type := .getSessions } resp mid s ∧
      scanAll (E.listing (s.now - 2)) = some app.sessions) ∨ scanAll G.listing = some app.sessions

theorem listed_of_init {app : GreeterApp} (hrun : Agreement.run E payload (start (history E n)) acts = some t)
    (hjson : G.json = E.json) (hwired : Wired E payload t (asks (Process.initDeeds G false)))
    (hinit : GreeterApp.init G false = .ok app) : Listed E n G app := by
  obtain ⟨hinv, hheard⟩ := heard_run acts inv_start heard_start hrun
  obtain ⟨loadedIpc, users, sessions, hload, -, husersShown, hsessionsShown⟩ := init_spec hinit
  cases loadedIpc with
  | false =>
    rw [if_pos (Or.inl Bool.false_ne_true)] at husersShown hsessionsShown
    exact ⟨Or.inr husersShown, Or.inr hsessionsShown⟩
  | true =>
    obtain ⟨husers, hsessions⟩ := calls_of_loaded hload
    have hdeeds : Process.initDeeds G false =
        [.asked { type := .getUsers } G.usersExchange, .asked { type := .getSessions } G.sessionsExchange] := by
      simp only [Process.initDeeds, husers, Bool.false_eq_true, if_false]
    obtain ⟨husersSends, husersExchange, husersReadable⟩ :=
      hwired 0 { type := .getUsers } G.usersExchange (by rw [hdeeds]; rfl)
    obtain ⟨hsessionsSends, hsessionsExchange, hsessionsReadable⟩ :=
      hwired 1 { type := .getSessions } G.sessionsExchange (by rw [hdeeds]; rfl)
    rw [hjson, husersExchange] at husers
    rw [hjson, hsessionsExchange] at hsessions
    constructor
    · by_cases hnil : users = []
      · rw [if_pos (Or.inr hnil)] at husersShown
        exact Or.inr husersShown
      · rw [if_neg (by simp [hnil])] at husersShown
        obtain ⟨resp, mid, s, hserved, hscan⟩ := getUsers_served hinv hheard husersReadable husersSends husers
        exact Or.inl ⟨resp, mid, s, hserved, husersShown.trans hscan⟩
    · by_cases hnil : sessions = []
      · rw [if_pos (Or.inr hnil)] at hsessionsShown
        exact Or.inr hsessionsShown
      · rw [if_neg (by simp [hnil])] at hsessionsShown
        obtain ⟨resp, mid, s, hserved, hscan⟩ :=
          getSessions_served hinv hheard hsessionsReadable hsessionsSends hsessions
        exact Or.inl ⟨resp, mid, s, hserved, hsessionsShown ▸ hscan⟩

/-- **From the login screen to PAM.** When a greeter closes its window, then a submit has sent a login as the screen
showed it at that moment: for the user of the highlighted card and the session picked last, with what was typed since
the field was last cleared. And the daemon has served this very request on a connection of its own, and made the five
steps of PAM for it with success before it answered. The lists of the screen are the daemon's scans, or the greeter's
own. -/
theorem signed_in (hrun : Agreement.run E payload (start (history E n)) acts = some t) (hjson : G.json = E.json)
    (hwired : Wired E payload t (asks (Process.main G control engine window exit args inputs).2))
    (hclosed : .closed ∈ (Process.main G control engine window exit args inputs).2) :
    ∃ app earlier X later req mid s, GreeterApp.init G false = .ok app ∧ Listed E n G app ∧
      inputs = earlier ++ .submit X :: later ∧
      Process.AsShown app (Process.run G control app earlier).1 (Process.uiEvents G control app earlier) req ∧
      RemoteCalls.Served E n req granted mid s ∧ Granted req (events mid) := by
  obtain ⟨hinv, hheard⟩ := heard_run acts inv_start heard_start hrun
  have hinitDeeds : ∀ testMode, .closed ∉ Process.initDeeds G testMode := by
    intro testMode h
    rw [Process.initDeeds] at h
    split_ifs at h
    · cases h
    · rcases List.mem_cons.1 h with h | h
      · cases h
      · split at h <;> simp at h
  rcases Process.main_deeds with hnil | ⟨testMode, -, honly | ⟨app, hinit, hdeeds⟩⟩
  · rw [hnil] at hclosed
    cases hclosed
  · rw [honly] at hclosed
    exact absurd hclosed (hinitDeeds testMode)
  · rw [hdeeds] at hclosed hwired
    have hclosed : .closed ∈ (Process.run G control app inputs).2 :=
      (List.mem_append.1 hclosed).resolve_left (hinitDeeds testMode)
    obtain ⟨earlier, i, later, hsplit, hclosed⟩ := Process.mem_run.1 hclosed
    obtain ⟨X, req, rfl, hreq, resp, hsend, hsuccess⟩ := Process.closed_of_handle hclosed
    obtain rfl : testMode = false := by
      rw [← Process.init_testMode hinit, ← Process.run_testMode (G := G) app earlier]
      exact (request_spec hreq).1
    obtain ⟨hshown, hempty⟩ := init_shown hinit
    have hasShown := Process.asShown_of_request hshown hempty (Process.run_refines G control app earlier) hreq
    have hasked : .asked req X ∈ Process.initDeeds G false ++ (Process.run G control app inputs).2 :=
      List.mem_append_right _ (Process.mem_run.2 ⟨earlier, _, later, hsplit, Process.asked_of_request hreq⟩)
    obtain ⟨c, hsends, rfl, hreadable⟩ := hwired.of_mem hasked
    have hlogin : req.type = .login := by
      obtain ⟨user, session, -, -, rfl⟩ := hasShown.login
      rfl
    rw [hjson] at hsend
    obtain ⟨mid, s, hserved⟩ := login_served hinv hheard hreadable hlogin hsends hsend hsuccess
    have hlisted : Listed E n G app := by
      refine listed_of_init hrun hjson (fun k req X hk => hwired k req X ?_) hinit
      rw [asks, List.filterMap_append]
      exact List.getElem?_append_left (List.getElem?_eq_some_iff.1 hk).1 ▸ hk
    exact ⟨app, earlier, _, later, req, mid, s, hinit, hlisted, hsplit, hasShown, hserved,
      granted_of_served hlogin hserved⟩

end Results

/-! ## Witnesses -/

def listing : IpcMessage := { type := .getUsers }

/-- jsoncpp on the requests of the greeter and the reply -/
def greeterJson (reply : IpcMessage) : JsonCpp where
  parse raw :=
    if raw = compact listing.toJson then .root listing.toJson
    else if raw = compact Agreement.request.toJson then .root Agreement.request.toJson
    else if raw = compact reply.toJson then .root reply.toJson
    else .failed (lit "Syntax error")
  write := compact

/-- the first request does not get through, the second one is a login -/
def payload : ℕ → Str
  | 0 => compact listing.toJson ++ lit "\n"
  | _ => compact Agreement.request.toJson ++ lit "\n"

/-- the reply is read at once -/
def told (reply : IpcMessage) : Talk :=
  { connected := true, written := (payload 1).length, ready := true, reads := [compact reply.toJson ++ lit "\n"] }

/-- it takes the daemon some steps to reply -/
def answering (reply : IpcMessage) (steps : ℕ) : List Action :=
  [.connect 1 true, .write 1 (payload 1).length] ++ List.replicate steps .daemon ++
    [.poll 1 true, .read 1 (compact reply.toJson ++ lit "\n")]

def screen (reply : IpcMessage) : Surroundings :=
  { standalone with json := greeterJson reply, usersExchange := ({} : Talk).exchange }

def typing : List Process.Input :=
  [.typed 0 's', .typed 1 'e', .typed 2 'c', .typed 3 'r', .typed 4 'e', .typed 5 't']

theorem init_screen (reply : IpcMessage) : GreeterApp.init (screen reply) false = .ok standaloneForm := by
  have hload : loadIpc (screen reply) false = .ok (false, [], []) := by
    simp [loadIpc, IpcClient.getUsers, IpcClient.sendRequest, screen, standalone, Talk.exchange]
    rfl
  have hscan : scanSessions (screen reply) = .ok [fallbackSession] := by
    show scanSessions standalone = _
    decide
  unfold GreeterApp.init
  rw [hload, hscan]
  rfl

/-- the text of a reply, whole or in part, is no request -/
def Apart (reply : IpcMessage) : Prop :=
  ∀ p, p <+: compact reply.toJson → p ≠ compact listing.toJson ∧ p ≠ compact Agreement.request.toJson

theorem apart_of (reply : IpcMessage) (hlisting : ¬ compact listing.toJson <+: compact reply.toJson)
    (hrequest : ¬ compact Agreement.request.toJson <+: compact reply.toJson) : Apart reply := by
  intro p hp
  constructor
  · rintro rfl
    exact hlisting hp
  · rintro rfl
    exact hrequest hp

theorem readable_reply {reply : IpcMessage} (hline : (greeterJson reply).WritesLine reply.toJson)
    (hapart : Apart reply) : Readable (greeterJson reply) [reply] := by
  intro resp hresp
  rw [List.mem_singleton.1 hresp]
  have hparse : ∀ p, p <+: compact reply.toJson → (greeterJson reply).parse p =
      if p = compact reply.toJson then .root reply.toJson else .failed (lit "Syntax error") := by
    intro p hp
    simp only [greeterJson, (hapart p hp).1, (hapart p hp).2, if_false]
  refine ⟨hline, (hparse _ (List.prefix_refl _)).trans (if_pos rfl), fun p hp hpart => ⟨lit "Syntax error", ?_⟩⟩
  exact (hparse p hp).trans (if_neg hpart)

theorem sends_requests (reply : IpcMessage) : ∀ m ∈ [listing, Agreement.request],
    Sends (greeterJson reply) (compact m.toJson ++ lit "\n") m := by
  have hne : compact Agreement.request.toJson ≠ compact listing.toJson := by decide +kernel
  have hlines : ∀ m ∈ [listing, Agreement.request], '\n' ∉ compact m.toJson ∧ nul ∉ compact m.toJson := by
    decide +kernel
  intro m hm
  refine ⟨rfl, hlines m hm, ?_⟩
  rcases List.mem_cons.1 hm with rfl | hm
  · simp only [greeterJson, if_true]
  · rw [List.mem_singleton.1 hm]
    simp only [greeterJson, hne, if_false, if_true]

theorem request_typing (reply : IpcMessage) :
    (Process.run (screen reply) 4 standaloneForm typing).1.request = some Agreement.request := by rfl

/-- what the greeter does when the submit's exchange returns -/
theorem deeds_typing {reply : IpcMessage} {X : Exchange} {p : Bool × IpcMessage}
    (hsend : (screen reply).client.sendRequest (screen reply).json X Agreement.request {} 10000 = .ok p) :
    (Process.main (screen reply) 4 true true 0 [] (typing ++ [.submit X])).2 =
      [.asked listing (screen reply).usersExchange, .asked Agreement.request X, .wiped] ++
        if (loginOutcome (Process.answerTo (screen reply) X Agreement.request)).1 then [.closed, .quit] else [] := by
  have hlast : (Process.handle (screen reply) 4 (Process.run (screen reply) 4 standaloneForm typing).1 (.submit X)).2 =
      [.asked Agreement.request X, .wiped] ++
        if (loginOutcome (Process.answerTo (screen reply) X Agreement.request)).1 then [.closed, .quit] else [] :=
    congrArg Prod.snd (Process.submit_returns (request_typing reply) hsend)
  have htyping : (Process.run (screen reply) 4 standaloneForm typing).2 = [] := rfl
  have hinit : Process.initDeeds (screen reply) false = [.asked listing (screen reply).usersExchange] := by
    simp [Process.initDeeds, IpcClient.getUsers, IpcClient.sendRequest, screen, standalone, Talk.exchange, listing]
  rw [Process.main_eq (show Process.options false [] = some false from rfl) (init_screen reply), Process.run_append,
    Process.run, hlast, htyping, hinit]
  simp [Process.run]

theorem asks_typing {reply : IpcMessage} {X : Exchange} {p : Bool × IpcMessage}
    (hsend : (screen reply).client.sendRequest (screen reply).json X Agreement.request {} 10000 = .ok p) :
    asks (Process.main (screen reply) 4 true true 0 [] (typing ++ [.submit X])).2 =
      [(listing, (screen reply).usersExchange), (Agreement.request, X)] := by
  rw [deeds_typing hsend]
  split_ifs <;> rfl

/-- two requests, and the second one is answered -/
theorem wired_typing {E : Env} {reply : IpcMessage} {t : Net} {p : Bool × IpcMessage}
    (hjson : E.json = greeterJson reply) (hfirst : t.client 0 = {} ∧ t.answers 0 = [])
    (hsecond : t.client 1 = ⟨.leaving, told reply⟩ ∧ t.answers 1 = [reply])
    (hreadable : Readable (greeterJson reply) [reply])
    (hsend : (screen reply).client.sendRequest (screen reply).json (told reply).exchange Agreement.request {} 10000 =
      .ok p) :
    Wired E payload t
      (asks (Process.main (screen reply) 4 true true 0 [] (typing ++ [.submit (told reply).exchange])).2) := by
  rw [asks_typing hsend]
  intro k req X hk
  rw [hjson]
  rcases k with _ | _ | k
  · cases hk
    refine ⟨sends_requests reply listing (by simp), by rw [hfirst.1]; rfl, ?_⟩
    rw [hfirst.2]
    exact fun resp h => by cases h
  · cases hk
    exact ⟨sends_requests reply Agreement.request (by simp), by rw [hsecond.1], by rw [hsecond.2]; exact hreadable⟩
  · cases hk

def host : Env := { machine [greeterAccount, alice] [] Agreement.request with json := greeterJson granted }

/-- alice signs in -/
theorem signed_in_alice : ∃ req mid s, RemoteCalls.Served host 1 req granted mid s ∧ Granted req (events mid) := by
  have hrun : (Agreement.run host payload (start (history host 1)) (answering granted 47)).map
      (fun t => ((t.client 0, t.answers 0), (t.client 1, t.answers 1))) =
        some (({}, []), (⟨.leaving, told granted⟩, [granted])) := by decide +kernel
  obtain ⟨t, hrun, heq⟩ := Option.map_eq_some_iff.1 hrun
  obtain ⟨hfirst, hsecond⟩ := Prod.mk.inj heq
  have hreadable : Readable (greeterJson granted) [granted] := by
    refine readable_reply ?_ (apart_of granted (by decide +kernel) (by decide +kernel))
    unfold JsonCpp.WritesLine
    decide +kernel
  have hsend : (screen granted).client.sendRequest (screen granted).json (told granted).exchange Agreement.request {}
      10000 = .ok (true, granted) := by decide +kernel
  have hclosed : .closed ∈
      (Process.main (screen granted) 4 true true 0 [] (typing ++ [.submit (told granted).exchange])).2 := by
    rw [deeds_typing hsend, if_pos (Process.outcome_answerTo.2 ⟨granted, hsend, rfl⟩)]
    simp
  obtain ⟨app, earlier, X, later, req, mid, s, -, -, -, -, hserved, hgranted⟩ :=
    signed_in hrun rfl (wired_typing rfl (Prod.mk.inj hfirst) (Prod.mk.inj hsecond) hreadable hsend) hclosed
  exact ⟨req, mid, s, hserved, hgranted⟩

end Miqudm.SignIn
