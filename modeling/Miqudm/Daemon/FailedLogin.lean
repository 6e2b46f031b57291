/-
A failed login leaves the daemon as it was.

Whatever step of a login fails, `handle_login_request` comes back with the daemon's members, its configuration and its
file as before, with one reply, and with the libpam calls of the attempt in balance (`Balanced`). The balance is read
off the ledger of the attempt: it starts with no handle, accepts every call, and ends with no handle.

The result is about every state, reachable or not, and every answer of libpam.
-/
import Miqudm.Daemon.DaemonLedger

namespace Miqudm.FailedLogin

open Miqudm.Core Prog

/-- the calls of an attempt: what was started is ended once, credentials are deleted before, no session is opened -/
structure Balanced (cs : List PamCall) : Prop where
  ended : ∀ service user wanted h, .start service user wanted (some h) ∈ cs → cs.count (.pamEnd h) = 1
  deleted : ∀ pre post h, cs = pre ++ .run .establishCred h true :: post →
    ∃ mid ok rest, post = mid ++ .run .deleteCred h ok :: rest ∧ .pamEnd h ∈ rest
  unopened : ∀ h, .run .openSession h true ∉ cs

/-- the members, the configuration and its file are the same -/
structure Kept (s t : St) : Prop where
  greeterPid : t.greeterPid = s.greeterPid
  greeterPam : t.greeterPam = s.greeterPam
  activePam : t.activePam = s.activePam
  sessionPid : t.sessionPid = s.sessionPid
  cachedUsers : t.cachedUsers = s.cachedUsers
  cachedSessions : t.cachedSessions = s.cachedSessions
  config : t.config = s.config
  files : t.files = s.files

theorem Kept.of_pam {s t : St} (h : apartPam s = apartPam t) : Kept s t where
  greeterPid := same_of_erased h.symm fun _ => rfl
  greeterPam := same_of_erased h.symm fun _ => rfl
  activePam := same_of_erased h.symm fun _ => rfl
  sessionPid := same_of_erased h.symm fun _ => rfl
  cachedUsers := same_of_erased h.symm fun _ => rfl
  cachedSessions := same_of_erased h.symm fun _ => rfl
  config := same_of_erased h.symm fun _ => rfl
  files := same_of_erased h.symm fun _ => rfl

/-! ## The calls in the ledger -/

/-- only the deletion of credentials takes them from a handle -/
theorem eq_deleteCred {e : Event} {h : ℕ} {f : Held → Held} {b : Held} (he : e.use = .change h f)
    (hb : b.credentials = true) (hf : (f b).credentials = false) : ∃ ok, e = .pam (.run .deleteCred h ok) := by
  cases e with
  | pam call =>
    rcases PamCall.use_change he with ⟨fn, ok, rfl, hsame⟩ | hsame
    · rw [hsame] at hf
      cases fn with
      | deleteCred => exact ⟨ok, rfl⟩
      | _ => cases ok <;> simp_all [PamFn.effect]
    · rw [hsame, hb] at hf
      cases hf
  | _ => cases he

/-- **From the ledger to the calls.** A log that the ledger accepts, and that ends as it began, without handles. -/
theorem balanced_of_ledger {k : Ledger Held} {l : List (Event × St)} (hk : k.Fresh) (hl : daemonLedger.accepts k l)
    (hend : (daemonLedger.after k l).held = noHandles) (hshut : ∀ c ∈ pamCalls (events l), c.opens = false) :
    Balanced (pamCalls (events l)) := by
  have hl : (Ledger.monitor Event.use Held.Settled Single).accepts k l := handleLedger_accepts hl
  have hend : ∀ h, ((Ledger.monitor Event.use Held.Settled Single : Monitor Event St Halt _).after k l).held h = none :=
    fun h => congrFun hend h
  refine ⟨fun service user wanted h hstart => ?_, fun pre post h hsplit => ?_, fun h hopen => ?_⟩
  · rw [← givesIn_eq]
    exact Ledger.gives_eq_one hk hl (hend h) (takesIn_pos hstart)
  · obtain ⟨l1, s, l2, rfl, -, hpost⟩ := split_calls hsplit
    rw [Monitor.accepts_append, Monitor.accepts_cons] at hl
    rw [Monitor.after_append, Monitor.after_cons] at hend
    obtain ⟨hl1, hgood, hl2⟩ := hl
    have hfresh := Ledger.fresh_after hk hl1
    -- the handle is held, and has credentials from here on
    obtain ⟨b, hb⟩ := Option.isSome_iff_exists.1 (hgood.1 : (Ledger.held _ h).isSome)
    have hb' : ∀ k' : Ledger Held, k'.held h = some b → (k'.step (Event.pam (.run .establishCred h true)).use).held h =
        some { b with credentials := true } := by
      intro k' hk'
      simp [Event.use, PamCall.use, PamFn.effect, hk']
    obtain ⟨mid, p, rest, f, b', hmid, hchange, hcred, hdeleted, q, hq, hgive⟩ := Ledger.settled_before_give
      (P := fun held : Held => held.credentials = false) (fun _ h => h.1) (hb' _ hb) (by simp)
      (Ledger.fresh_step hfresh hgood.1) hl2 (hend h)
    obtain ⟨ok, hp⟩ := eq_deleteCred hchange (by simpa using hcred) hdeleted
    refine ⟨pamCalls (events mid), ok, pamCalls (events rest), ?_, ?_⟩
    · rw [← hpost, hmid, events_append, pamCalls_append, events_cons, hp]
      rfl
    · exact List.mem_filterMap.2 ⟨q.1, List.mem_map_of_mem hq, by rw [eq_pamEnd hgive]; rfl⟩
  · have hclosed := hshut _ hopen
    cases hclosed

/-! ## The attempt -/

variable (E : Env)

/-- the ledger of an attempt, before it -/
def opening (s : St) : Ledger Held := { next := s.pam.nextHandle }

theorem opening_books (s : St) : Books noHandles loginService (opening s) {} s.pam where
  next := rfl
  held := rfl
  free := by simp
  fresh := fun _ _ => rfl
  spare := ⟨by simp [noHandles], by simp [noHandles]⟩

/-- the exit: one reply, and nothing changes but libpam -/
theorem refuse_spec (message : Str) (pam : PamAuth) (s : St) :
    Sat (refuse E message pam) s
      (fun l _ t => (∃ resp, replies (events l) = [resp] ∧ resp.success = false) ∧
        (∀ c ∈ pamCalls (events l), c.opens = false) ∧ apartPam s = apartPam t)
      (fun _ _ _ => True) := by
  refine (sat_bind _ _).2 (Sat.mono (reply_spec _ s) (fun l _ t ⟨hreply, hcalls, ht⟩ => ?_) fun _ _ _ _ => trivial)
  have hend := onPam_spec (E := E) (s := t) (Q := fun cs _ _ => ∀ c ∈ cs, c.opens = false) (Sat.mono
    (PamAuth.end_spec : Sat (pam.end_ E.pam) t.pam _ _) (fun l _ _ h c hc => PamCall.not_opens_of_releases (h.1 c hc))
    fun _ _ _ h => h)
  refine (sat_bind _ _).2 (Sat.mono (Sat.and hend (onPam_calm E _ t)) ?_ fun _ _ _ _ => trivial)
  rintro l' _ u ⟨hshut, hcalm, hu⟩
  simp only [sat_pure, events_append, events_nil, replies_append, replies_nil, pamCalls_append, pamCalls_nil, hreply,
    hcalls, List.nil_append, List.append_nil]
  rw [replies_of_calm fun p hp => (hcalm p hp).1]
  exact ⟨⟨_, rfl, rfl⟩, hshut, Eq.trans (same_of_erased ht fun _ => rfl) hu⟩

/-- **A failed attempt.** -/
theorem failed_spec (req : IpcMessage) (s : St) :
    Sat (handleLoginRequest E req) s
      (fun l _ t => ¬ Granted req (events l) → Kept s t ∧ (∃ resp, replies (events l) = [resp] ∧ resp.success = false) ∧
        Balanced (pamCalls (events l)))
      (fun _ _ _ => True) := by
  rw [handleLoginRequest_eq]
  refine (sat_bind _ _).2 (Sat.mono (Sat.and (Sat.and (attempt_ledger (opening_books s) req) (attempt_spec E req s))
    (attempt_calm E req s)) ?_ fun _ _ _ _ => trivial)
  rintro l ⟨failure, pam⟩ t ⟨⟨⟨haccepts, hb, ht⟩, hyes, hno⟩, hcalm, -⟩
  cases failure with
  | none =>
    -- all five steps succeeded
    refine Sat.mono (sat_run _ t) (fun l' _ _ _ hnot => ?_) fun _ _ _ _ => trivial
    obtain ⟨service, h, hsub⟩ := hyes rfl
    refine absurd ⟨service, h, ?_⟩ hnot
    rw [events_append, pamCalls_append]
    exact hsub.trans (List.sublist_append_left _ _)
  | some message =>
    refine Sat.mono (Sat.and (refuse_ledger hb message) (refuse_spec E message pam t)) ?_ fun _ _ _ _ => trivial
    rintro l' _ u ⟨⟨haccepts', hb', -⟩, ⟨resp, hreply, hresp⟩, hshut, hu⟩ -
    refine ⟨Kept.of_pam (Eq.trans ht hu), ⟨resp, ?_, hresp⟩, ?_⟩
    · rw [events_append, replies_append, replies_of_calm fun p hp => (hcalm p hp).1, hreply]
      rfl
    · have haccepts := (Monitor.accepts_append _ _ _ _).2 ⟨haccepts, haccepts'⟩
      refine balanced_of_ledger (opening_books s).isFresh haccepts ?_ ?_
      · rw [Monitor.after_append]
        exact hb'.held_of_none rfl
      · rw [events_append, pamCalls_append]
        exact List.forall_mem_append.2 ⟨hno rfl, hshut⟩

/-- **A failed login leaves the daemon as it was.** In every state, for every answer of libpam: when the five steps did
not all succeed and the handling returns, the members, the configuration and its file are the same, the client got one
reply, which tells of failure, and the calls of the attempt are in balance. -/
theorem failed_login (E : Env) (s : St) (req : IpcMessage) (hreturns : (handleLoginRequest E req s).fin = .ok ())
    (hfailed : ¬ Granted req (events (handleLoginRequest E req s).log)) :
    Kept s (handleLoginRequest E req s).st ∧
    (∃ resp, replies (events (handleLoginRequest E req s).log) = [resp] ∧ resp.success = false) ∧
    Balanced (pamCalls (events (handleLoginRequest E req s).log)) :=
  Sat.of_ok (failed_spec E req s) hreturns hfailed

/-! ## Witnesses -/

/-- a login whose session cannot be opened -/
def demo : Env :=
  { machine [alice] [] (loginOf "alice") with
    pam := { ret := fun n => if n = 11 then 14 else 0, strerror := fun _ => lit "Cannot open session",
             modules := fun _ => [] } }

theorem demo_failed : ¬ Granted (loginOf "alice") (events (handleLoginRequest demo (loginOf "alice") {}).log) := by
  have hshut : (pamCalls (events (handleLoginRequest demo (loginOf "alice") {}).log)).all (fun c => ¬ c.opens) =
      true := by decide +kernel
  exact not_granted fun c hc => by simpa using List.all_eq_true.1 hshut c hc

/-- the credentials of the failed login were established, so they are deleted, and its handle is ended -/
theorem failed_login_demo :
    .run .establishCred 0 true ∈ pamCalls (events (handleLoginRequest demo (loginOf "alice") {}).log) ∧
    Balanced (pamCalls (events (handleLoginRequest demo (loginOf "alice") {}).log)) :=
  ⟨by decide +kernel, (failed_login demo {} (loginOf "alice") (by decide +kernel) demo_failed).2.2⟩

end Miqudm.FailedLogin
