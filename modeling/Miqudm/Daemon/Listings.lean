/-
The lists a login is resolved in.

`init` scans the users and the sessions. A request for either list scans again, and what its reply shows is what the
daemon keeps; a login scans nothing, and looks its names up in the lists that are kept. `listed` reads the replies of a
run: the lists of the start, each replaced by the last one a client was shown. `resolved_as_listed`: the session a login
launches, and the child that is forked for it, are those that its names stand for in the lists as they were last shown.

Between the scan and the reply the daemon keeps lists that nobody has seen. No login comes in between: the monitor
`shown` mirrors the lists (`Core.Mirror`) over every request, connection and turn.
-/
import Miqudm.Core.Mirror
import Miqudm.Daemon.Logins
import Miqudm.Greeter.LoginForm

namespace Miqudm.Listings

open Miqudm.Core Prog

/-! ## What clients were shown -/

def lists (s : St) : List UserInfo × List SessionInfo := (s.cachedUsers, s.cachedSessions)

def listedStep (k : List UserInfo × List SessionInfo) : Event → List UserInfo × List SessionInfo
  | .reply resp => (if resp.users = [] then k.1 else resp.users, if resp.sessions = [] then k.2 else resp.sessions)
  | _ => k

/-- what `init` scans, after one step for the configuration; nobody is served if the scan for sessions throws -/
def firstLists (E : Env) : List UserInfo × List SessionInfo :=
  (scanUsers (E.passwd 1) (E.getlogin 1) E.self.uid E.self.gid (E.isFile 1), (scanAll (E.listing 2)).getD [])

/-- the lists as clients were last shown them -/
def listed (E : Env) (es : List Event) : List UserInfo × List SessionInfo := es.foldl listedStep (firstLists E)

/-- what is done for a login is done for its names in the lists `k` -/
def Resolved (E : Env) (k : List UserInfo × List SessionInfo) : Event → St → Prop
  | .launch user session, s => ∃ f, s.frame = some f ∧ f.req.type = .login ∧
      user = findUser k.1 f.req.username ∧ session = findSession k.2 f.req
  | .fork .session r, s => ∃ f t pamEnvs vt s', s.frame = some f ∧ f.req.type = .login ∧
      r = (E.fork t).map fun pid => (pid,
        sessionChild E (findUser k.1 f.req.username) (findSession k.2 f.req) pamEnvs vt s' (E.child t))
  | _, _ => True

/-- at every moment in which a session is opened, the lists are the ones shown -/
def shown : Monitor Event St Halt (List UserInfo × List SessionInfo) where
  step := listedStep
  good k e s := (∀ user session, e = .launch user session → lists s = k) ∧ ∀ r, e = .fork .session r → lists s = k

theorem after_eq_listed (E : Env) (l : List (Event × St)) : shown.after (firstLists E) l = listed E (events l) := by
  rw [Monitor.after, listed, events, List.foldl_map]
  rfl

/-- the moment of a login, with the lists that were shown -/
theorem resolved_of_moment {E : Env} {k : List UserInfo × List SessionInfo} {e : Event} {s : St} (h : Moment E e s)
    (hk : shown.good k e s) : Resolved E k e s := by
  cases e with
  | launch user session =>
    obtain ⟨f, hf, hlogin, huser, hsession⟩ := h
    obtain rfl : lists s = k := hk.1 user session rfl
    exact ⟨f, hf, hlogin, huser, hsession⟩
  | fork kind r =>
    cases kind with
    | greeter => trivial
    | session =>
      obtain ⟨-, -, f, hf, hlogin, t, pamEnvs, vt, s', -, hr⟩ := h
      obtain rfl : lists s = k := hk.2 r rfl
      exact ⟨f, t, pamEnvs, vt, s', hf, hlogin, hr⟩
  | _ => trivial

/-! ## Parts that leave the lists alone -/

/-- neither the lists nor what is known of them change -/
def unlisted : Footprint St Event Halt where
  allow e _ := ∀ k, listedStep k e = k
  halts _ := True
  rel s t := lists s = lists t
  refl _ := rfl
  trans := Eq.trans

theorem listedStep_calm {e : Event} (h : e.calm) (k : List UserInfo × List SessionInfo) : listedStep k e = k := by
  cases e <;> first | rfl | cases h

theorem listedStep_bare {resp : IpcMessage} (husers : resp.users = []) (hsessions : resp.sessions = [])
    (k : List UserInfo × List SessionInfo) : listedStep k (.reply resp) = k := by
  simp [listedStep, husers, hsessions]

theorem Calm.unlisted {α : Type} {x : Sys α} {g : St → St} (h : Within (calmly g) x)
    (hg : ∀ s, lists (g s) = lists s) : Within unlisted x :=
  h.mono (fun _ _ => listedStep_calm) (fun _ => False.elim) fun _ _ hst => same_of_erased hst hg

theorem Quiet.unlisted {α : Type} {x : Sys α} {g : St → St} (h : Within (quietly g) x)
    (hg : ∀ s, lists (g s) = lists s) : Within unlisted x := by
  refine h.mono (fun e s he => ?_) (fun _ => False.elim) fun _ _ hst => same_of_erased hst hg
  have he : e.quiet s := he
  unfold Event.quiet at he
  split at he
  · exact fun _ => rfl
  · exact listedStep_calm he

theorem Unlisted.mirrors {α : Type} {x : Sys α} (h : Within unlisted x) : Mirrors lists shown x := by
  refine Within.mirrors h (fun s e t he hst => ?_) (fun _ _ => id) fun _ _ _ => trivial
  exact ⟨⟨fun _ _ _ => Eq.symm hst, fun _ _ => Eq.symm hst⟩, he _⟩

section Parts

variable (E : Env)

theorem unlisted_op {e : Event} {f : St → St} (he : ∀ k, listedStep k e = k) (hf : ∀ s, lists (f s) = lists s) :
    Within unlisted (op E e f) :=
  within_bind (Calm.unlisted (interfere_calm E) fun _ => rfl) fun _ => within_act (fun _ => he) fun s => (hf s).symm

theorem onPam_unlisted {α : Type} (x : PamM α) : Within unlisted (onPam E x) := Calm.unlisted (onPam_calm E x) fun _ => rfl

theorem reply_unlisted {resp : IpcMessage} (husers : resp.users = []) (hsessions : resp.sessions = []) :
    Within unlisted (reply E resp) := by
  refine within_bind (unlisted_op E (listedStep_bare husers hsessions) fun _ => rfl) fun _ => within_get_bind fun _ => ?_
  exact within_ite (within_halt trivial) (within_pure _)

theorem launch_unlisted (user : UserInfo) (session : SessionInfo) (pamEnvs : List Str) (vt : ℤ) :
    Within unlisted (launch E user session pamEnvs vt) := by
  refine within_bind (unlisted_op E (fun _ => rfl) fun _ => rfl) fun _ => ?_
  refine within_bind (Calm.unlisted (isRunning_calm E) fun _ => rfl) fun _ => within_ite (within_pure _) ?_
  apply within_bind (within_get_bind fun _ => within_bind (unlisted_op E (fun _ => rfl) fun _ => rfl) fun _ =>
    within_pure _)
  intro r
  cases r with
  | none => exact within_pure _
  | some pid => exact within_bind (unlisted_op E (fun _ => rfl) fun _ => rfl) fun _ => within_pure _

theorem stopGreeter_unlisted : Within unlisted (stopGreeter E) :=
  within_bind (unlisted_op E (fun _ => rfl) fun _ => rfl) fun _ => Calm.unlisted (releaseGreeter_calm E) fun _ => rfl

theorem serveSession_unlisted (req : IpcMessage) (pam : PamAuth) : Within unlisted (serveSession E req pam) := by
  refine within_bind (stopGreeter_unlisted E) fun _ => within_get_bind fun _ => ?_
  refine within_bind (Calm.unlisted (rememberLastUser_calm E req) fun _ => rfl) fun _ => ?_
  refine within_bind (Calm.unlisted (setActivePam_calm E pam) fun _ => rfl) fun _ => ?_
  refine within_bind (onPam_unlisted E _) fun pamEnvs => within_bind (launch_unlisted E _ _ pamEnvs _) fun launched => ?_
  have hwait : Within unlisted (do let _ ← waitForExit E) :=
    within_bind (Calm.unlisted (waitForExit_calm E) fun _ => rfl) fun _ => within_pure ()
  refine within_bind (within_when hwait) fun _ => ?_
  refine within_bind (Calm.unlisted (releaseActivePam_calm E) fun _ => rfl) fun _ => ?_
  refine within_bind (Calm.unlisted (readRunning_calm E) fun _ => rfl) fun _ => ?_
  exact within_ite (Quiet.unlisted (startGreeter_quiet E) fun _ => rfl) (within_pure _)

theorem loginStep_unlisted {step : PamM (Bool × PamAuth)} {failure : Str} {next : PamAuth → Sys Unit}
    (h : ∀ pam, Within unlisted (next pam)) : Within unlisted (loginStep E step failure next) := by
  refine within_bind (onPam_unlisted E _) fun ⟨ok, pam⟩ => within_ite ?_ (h pam)
  exact within_bind (reply_unlisted E rfl rfl) fun _ => within_bind (onPam_unlisted E _) fun _ => within_pure _

/-- **A login scans nothing.** Whatever it comes to, the lists are kept as they are and shown to nobody. -/
theorem handleLoginRequest_unlisted (req : IpcMessage) : Within unlisted (handleLoginRequest E req) := by
  apply loginStep_unlisted E
  intro pam
  apply loginStep_unlisted E
  intro pam
  apply loginStep_unlisted E
  intro pam
  apply loginStep_unlisted E
  intro pam
  refine within_bind (Calm.unlisted (setLoginEnv_calm E req pam) fun _ => rfl) fun _ => ?_
  apply loginStep_unlisted E
  exact fun pam => within_bind (reply_unlisted E rfl rfl) fun _ => serveSession_unlisted E req pam

/-! ## Requests, connections and the loop -/

/-- the reply that shows what was scanned: the other list stays as it was -/
theorem reply_shown {k : List UserInfo × List SessionInfo} {s : St} {resp : IpcMessage}
    (h : listedStep k (.reply resp) = lists s) :
    Watched shown k (reply E resp) s fun k' _ t => k' = lists t := by
  refine Watched.seq (q := fun k' _ t => k' = lists t) ?_ fun k' _ t hk => ?_
  · refine watched_op E ?_ rfl fun b => ⟨?_, h⟩
    · simp [shown]
    · simp [shown]
  · exact watched_bind (watched_get (watched_ite (fun _ => watched_halt trivial) fun _ => watched_pure hk))

theorem cache_shown {f : St → St} {k : List UserInfo × List SessionInfo} (s : St) {q : St → Prop}
    (hq : ∀ b, q ((f (s.setRunning b)).tick (s.now + 1))) :
    Watched shown k (op E .assign f) s fun k' _ t => k' = k ∧ q t := by
  refine watched_op E ?_ rfl fun b => ⟨?_, rfl, hq b⟩
  · simp [shown]
  · simp [shown]

theorem processMessage_mirrors (req : IpcMessage) : Mirrors lists shown (processMessage E req) := by
  unfold processMessage
  split
  case _ => exact Unlisted.mirrors (reply_unlisted E rfl rfl)
  case _ =>
    intro s
    apply Watched.seq (cache_shown E s (q := fun t => t.cachedUsers ≠ [] ∧ t.cachedSessions = s.cachedSessions) ?_)
    · intro _ _ t ⟨hk, husers, hsessions⟩
      subst hk
      refine watched_bind (watched_get (reply_shown E ?_))
      simp [listedStep, lists, husers, hsessions]
    · exact fun b => ⟨GreeterApp.scanUsers_ne_nil _ _ _ _ _, rfl⟩
  case _ =>
    intro s
    have hcache : Watched shown (lists s) (cacheSessions E) s fun k' _ t =>
        k' = lists s ∧ t.cachedSessions ≠ [] ∧ t.cachedUsers = s.cachedUsers :=
      watched_cacheSessions E (fun _ => trivial) fun _ hscan => cache_shown E s fun _ => ⟨(scanResult hscan).nonempty, rfl⟩
    apply hcache.seq
    intro _ _ t ⟨hk, hsessions, husers⟩
    subst hk
    refine watched_bind (watched_get (reply_shown E ?_))
    simp [listedStep, lists, husers, hsessions]
  case _ =>
    refine Unlisted.mirrors (within_bind (Calm.unlisted (powerCall_calm E _) fun _ => rfl) fun ok => ?_)
    exact reply_unlisted E rfl rfl
  case _ => exact Unlisted.mirrors (handleLoginRequest_unlisted E req)
  case _ => exact Unlisted.mirrors (reply_unlisted E rfl rfl)

theorem op_mirrors {e : Event} {f : St → St} (he : ∀ k, listedStep k e = k) (hf : ∀ s, lists (f s) = lists s) :
    Mirrors lists shown (op E e f) := Unlisted.mirrors (unlisted_op E he hf)

theorem serveLine_mirrors (line rest : Str) : Mirrors lists shown (serveLine E line rest) := by
  refine mirrors_bind (op_mirrors E (fun _ => rfl) fun _ => rfl) fun _ => ?_
  split
  · exact Unlisted.mirrors (within_halt trivial)
  · refine mirrors_bind (op_mirrors E (fun _ => rfl) fun _ => rfl) fun _ => ?_
    exact mirrors_bind (processMessage_mirrors E _) fun _ => op_mirrors E (fun _ => rfl) fun _ => rfl

theorem readLoop_mirrors : ∀ (chunks : List Str) (accumulated : Str), Mirrors lists shown (readLoop E accumulated chunks) := by
  intro chunks
  induction chunks with
  | nil => exact fun _ => op_mirrors E (fun _ => rfl) fun _ => rfl
  | cons chunk chunks ih =>
    intro accumulated
    refine mirrors_ite (op_mirrors E (fun _ => rfl) fun _ => rfl) ?_
    refine mirrors_bind (op_mirrors E (fun _ => rfl) fun _ => rfl) fun _ => ?_
    split
    · exact ih _
    · exact serveLine_mirrors E _ _

theorem acceptClient_mirrors : Mirrors lists shown (acceptClient E) := by
  apply mirrors_get_bind
  intro s
  split
  · exact op_mirrors E (fun _ => rfl) fun _ => rfl
  · refine mirrors_bind (op_mirrors E (fun _ => rfl) fun _ => rfl) fun _ => ?_
    refine mirrors_bind (mirrors_bind (op_mirrors E (fun _ => rfl) fun _ => rfl) fun _ => ?_) fun _ => ?_
    · exact mirrors_bind (readLoop_mirrors E _ []) fun _ => op_mirrors E (fun _ => rfl) fun _ => rfl
    · exact Unlisted.mirrors (Calm.unlisted (close_calm E _) fun _ => rfl)

theorem turn_mirrors : Mirrors lists shown (turn E) := by
  have watch : Mirrors lists shown (do watchGreeter E; return true) :=
    mirrors_bind (Unlisted.mirrors (Quiet.unlisted (watchGreeter_quiet E) fun _ => rfl)) fun _ => mirrors_pure true
  refine mirrors_bind (op_mirrors E (fun _ => rfl) fun _ => rfl) fun _ => ?_
  refine mirrors_get_bind fun _ => mirrors_ite (mirrors_pure _) (mirrors_get_bind fun _ => ?_)
  refine mirrors_bind (op_mirrors E (fun _ => rfl) fun _ => rfl) fun _ => ?_
  split
  · exact mirrors_pure _
  · exact mirrors_pure _
  · exact mirrors_bind (acceptClient_mirrors E) fun _ => watch
  · exact watch

theorem run_mirrors (n : ℕ) : Mirrors lists shown (run E n) := by
  refine mirrors_bind (op_mirrors E (fun _ => rfl) fun _ => rfl) fun _ => ?_
  apply mirrors_bind (Unlisted.mirrors (Quiet.unlisted (startGreeter_quiet E) fun _ => rfl))
  intro _
  apply mirrors_bind (mirrors_loop (fun _ => trivial) (turn_mirrors E) n)
  intro _
  apply mirrors_bind (Unlisted.mirrors (stopGreeter_unlisted E))
  intro _
  apply mirrors_bind (Unlisted.mirrors (Calm.unlisted (terminate_calm E) fun _ => rfl))
  intro _
  apply mirrors_bind (Unlisted.mirrors (Calm.unlisted (cleanupIpcSocket_calm E) fun _ => rfl))
  exact fun _ => op_mirrors E (fun _ => rfl) fun _ => rfl

/-- the first lists are taken before anybody is served -/
theorem init_lists : Prog.Ends (init E) (boot E) fun _ t => lists t = firstLists E := by
  have hload : Prog.Ends (loadConfig E) (boot E) fun _ t => t.now = 1 :=
    ends_get_bind (ends_ite (fun _ => trivial) fun _ => ends_op fun _ => rfl)
  refine Prog.Ends.seq hload fun _ s hs => ?_
  refine Prog.Ends.seq (q := fun _ t => t.now = 2 ∧ t.cachedUsers = (firstLists E).1) (ends_op fun b => ?_) fun _ t ht => ?_
  · simp [St.tick, St.setRunning, firstLists, hs]
  refine Prog.Ends.seq (q := fun _ t => lists t = firstLists E) (ends_get_bind ?_) fun _ u hu => ?_
  · rw [ht.1]
    cases hscan : scanAll (E.listing 2) with
    | none => trivial
    | some sessions =>
      apply ends_op
      intro b
      simp [St.tick, St.setRunning, firstLists, lists, ht.2, hscan]
  apply Prog.Ends.mono (calm_ends (setupIpcSocket_calm E) u)
  intro _ v hv
  rw [← hu]
  exact (same_of_erased hv fun _ => rfl).symm

theorem init_shown (s : St) (k : List UserInfo × List SessionInfo) :
    Watched shown k (init E) s fun k' _ _ => k' = k := by
  refine Watched.mono (Within.watched (J := (· = k)) (init_scanning E) rfl ?_ fun _ _ _ _ => trivial) fun _ _ _ h => h.1
  intro _ e t hk he _
  subst hk
  refine ⟨⟨fun _ _ h => ?_, fun _ h => ?_⟩, listedStep_calm he _⟩
  · subst h
    cases he
  · subst h
    cases he

/-- every watched run opens sessions from the lists that were shown -/
theorem main_shown (n : ℕ) : shown.accepts (firstLists E) (history E n) := by
  refine Watched.accepts (q := fun _ _ _ => True) (Watched.seq ((init_shown E _ _).and_sat (init_lists E)) ?_)
  intro _ ok s ⟨hk, hs⟩
  subst hk
  rw [← hs]
  exact watched_ite (fun _ => Watched.mono (run_mirrors E n s) fun _ _ _ _ => trivial) fun _ => watched_pure trivial

end Parts

/-- **Logins are resolved as listed.** At every launch of a session and every fork of its child, the user and the session
are those that the names of the request stand for in the lists that clients were last shown. -/
theorem resolved_as_listed (E : Env) (n : ℕ) (pre post : List (Event × St)) (e : Event) (s : St)
    (h : history E n = pre ++ (e, s) :: post) : Resolved E (listed E (events pre)) e s := by
  have hmoment : Moment E e s := history_moments E n (e, s) (by rw [h]; simp)
  have hgood := shown.accepts_split (main_shown E n) h
  rw [after_eq_listed] at hgood
  exact resolved_of_moment hmoment hgood

/-! ## Witnesses -/

def asking : IpcMessage := { type := .getUsers }

/-- alice's account is made after the start; a client asks for the users, and then she logs in -/
def demo : Env :=
  { machine [] [] (loginOf "alice") with
    json := { parse := fun raw => if raw = compact asking.toJson then .root asking.toJson
                else (jsonCppFor (loginOf "alice").toJson).parse raw
              write := compact }
    passwd := fun t => if t < 10 then [greeterAccount] else [greeterAccount, alice]
    accept := fun t => some [compact (if t < 30 then asking else loginOf "alice").toJson ++ lit "\n"] }

def launchesAlice : Event × St → Bool
  | (.launch user _, s) => user.uid = 1000 ∧ (s.frame.map fun f => f.req.username) = some (lit "alice")
  | _ => false

/-- the daemon started without her, and her session is launched for the account that the client was shown -/
theorem resolved_as_listed_alice : (firstLists demo).1.map UserInfo.username = [lit "user"] ∧
    ∃ pre post user session s, history demo 2 = pre ++ (.launch user session, s) :: post ∧ user.uid = 1000 ∧
      user = findUser (listed demo (events pre)).1 (lit "alice") := by
  obtain ⟨⟨e, s⟩, halice, hsplit⟩ :=
    split_any (l := history demo 2) (m := 116) (f := launchesAlice) (by decide +kernel)
  have hresolved := resolved_as_listed demo 2 _ _ e s hsplit
  refine ⟨by decide +kernel, (history demo 2).take 116, (history demo 2).drop 117, ?_⟩
  cases e with
  | launch user session =>
    obtain ⟨huid, hname⟩ : user.uid = 1000 ∧ (s.frame.map fun f => f.req.username) = some (lit "alice") :=
      of_decide_eq_true halice
    obtain ⟨f, hf, -, huser, -⟩ := hresolved
    rw [hf] at hname
    rw [show f.req.username = lit "alice" from Option.some_inj.1 hname] at huser
    exact ⟨user, session, s, hsplit, huid, huser⟩
  | _ => cases halice

end Miqudm.Listings
