/-
Login gating over whole runs.

`handling` reads the events of a run and says which request is being handled, and what happened since it was received.
`Gated` is what this allows of the next event: a launch, a fork of a session, or a greeter being stopped on behalf of a
client only after the success reply of a login whose five PAM steps succeeded (`Admitted`); one reply, which tells of
success exactly when a login was granted; and a return from `process_message` only when what was replied has been done
(`Served`). `gated` is the monitor of these rules, and every watched run keeps them.
-/
import Miqudm.Daemon.Login

namespace Miqudm.LoginGating

open Miqudm.Core Prog

/-! ## What is being handled -/

def handlingStep : Option (IpcMessage × List Event) → Event → Option (IpcMessage × List Event)
  | _, .received req => some (req, [])
  | _, .served => none
  | some (req, es), e => some (req, es ++ [e])
  | none, _ => none

/-- the request that is being handled after the events, and what happened since it was received -/
def handling (es : List Event) : Option (IpcMessage × List Event) := es.foldl handlingStep none

/-- a login whose five steps succeeded has been told so -/
def Admitted (req : IpcMessage) (es : List Event) : Prop :=
  req.type = .login ∧ ∃ a resp b, es = a ++ .reply resp :: b ∧ resp.success = true ∧ Granted req a

/-- a login is told of success exactly when its five steps succeeded, and then and only then the greeter is stopped and
a launch is attempted -/
def Fulfilled (req : IpcMessage) (a : List Event) (resp : IpcMessage) (b : List Event) : Prop :=
  req.type = .login → (resp.success = true ↔ Granted req a) ∧ (resp.success = true ↔ .stopGreeter ∈ b) ∧
    (resp.success = true ↔ ∃ user session, .launch user session ∈ b)

/-- the client has been told one thing, and what it was told was done -/
def Served (req : IpcMessage) (es : List Event) : Prop :=
  ∃ a resp b, es = a ++ .reply resp :: b ∧ replies a = [] ∧ replies b = [] ∧ Fulfilled req a resp b

/-- what is allowed next -/
def Gated : Option (IpcMessage × List Event) → Event → Prop
  | none, .launch _ _ => False
  | none, .fork .session _ => False
  | none, .reply _ => False
  | none, .served => False
  | some _, .received _ => False
  | some (req, es), .launch _ _ => Admitted req es
  | some (req, es), .fork .session _ => Admitted req es
  | some (req, es), .stopGreeter => Admitted req es
  | some (req, es), .reply resp => replies es = [] ∧ (req.type = .login → (resp.success = true ↔ Granted req es))
  | some (req, es), .served => Served req es
  | _, _ => True

/-- where the process may halt: between requests, at the reply, when the client is gone, or before the reply to a request
for the sessions, when their scan throws -/
def Stopped (k : Option (IpcMessage × List Event)) (e : Halt) : Prop :=
  ∀ req es, k = some (req, es) → (e = .sigpipe ∧ ∃ a resp, es = a ++ [.reply resp] ∧ replies a = []) ∨
    (e = .filesystemError ∧ req.type = .getSessions ∧ replies es = [])

def gated : Monitor Event St Halt (Option (IpcMessage × List Event)) where
  step := handlingStep
  good k e _ := Gated k e
  stops := Stopped

theorem after_eq_handling (k : Option (IpcMessage × List Event)) (l : List (Event × St)) :
    gated.after k l = (events l).foldl handlingStep k := by
  rw [Monitor.after, events, List.foldl_map]
  rfl

/-! ## Events without rules -/

/-- an event that the rules say nothing about -/
def plain : Event → Bool
  | .fork .session _ => false
  | .reply _ => false
  | .received _ => false
  | .served => false
  | .stopGreeter => false
  | .launch _ _ => false
  | _ => true

theorem plain_of_quiet {e : Event} {s : St} (h : e.quiet s) : plain e := by
  unfold Event.quiet at h
  split at h
  · rfl
  · unfold plain
    split <;> first | cases h | rfl

theorem gated_of_plain {e : Event} (h : plain e) (k : Option (IpcMessage × List Event)) : Gated k e := by
  unfold Gated
  split <;> first | cases h | trivial

theorem handlingStep_of_plain {e : Event} (h : plain e) (req : IpcMessage) (es : List Event) :
    handlingStep (some (req, es)) e = some (req, es ++ [e]) := by
  cases e <;> first | rfl | cases h

theorem handlingStep_none {e : Event} (h : plain e) : handlingStep none e = none := by
  cases e <;> first | rfl | cases h

theorem replies_of_plain {e : Event} (h : plain e) : replies [e] = [] := by
  cases e <;> first | rfl | cases h

/-- events without rules are only noted -/
theorem after_plain {l : List (Event × St)} (h : ∀ p ∈ l, plain p.1) (req : IpcMessage) :
    ∀ es, gated.after (some (req, es)) l = some (req, es ++ events l) := by
  induction l with
  | nil => simp
  | cons p l ih =>
    intro es
    rw [List.forall_mem_cons] at h
    rw [Monitor.after_cons, show gated.step _ p.1 = _ from handlingStep_of_plain h.1 req es, ih h.2]
    simp

/-- kept by the events without rules -/
def Stable (J : Option (IpcMessage × List Event) → Prop) : Prop := ∀ k e, J k → plain e → J (handlingStep k e)

variable {E : Env} {α : Type}

theorem gated_quiet {J : Option (IpcMessage × List Event) → Prop} (hJ : Stable J) {g : St → St} {x : Sys α}
    (hx : Within (quietly g) x) {k} (hk : J k) (s : St) : Watched gated k x s (fun k _ _ => J k) :=
  Watched.mono (Within.watched hx hk
    (fun k e _ hk he _ => ⟨gated_of_plain (plain_of_quiet he) k, hJ k e hk (plain_of_quiet he)⟩)
    fun _ _ _ h => h.elim) fun _ _ _ h => h.1

theorem gated_calm {J : Option (IpcMessage × List Event) → Prop} (hJ : Stable J) {g : St → St} {x : Sys α}
    (hx : Within (calmly g) x) {k} (hk : J k) (s : St) : Watched gated k x s (fun k _ _ => J k) :=
  gated_quiet hJ (Calm.quiet hx) hk s

/-- an operation: the signal handler may run before it -/
theorem gated_op {J Q : Option (IpcMessage × List Event) → Prop} {k} (hk : J k)
    (hstop : ∀ k, J k → J (handlingStep k .stop)) {e : Event} (he : ∀ k, J k → Gated k e ∧ Q (handlingStep k e))
    (f : St → St) (s : St) : Watched gated k (op E e f) s (fun k _ _ => Q k) := by
  refine watched_bind (watched_bind (watched_get (watched_ite (fun _ => ?_) fun _ => watched_pure ?_)))
  · exact watched_act (gated_of_plain rfl k) (watched_act (he _ (hstop k hk)).1 (he _ (hstop k hk)).2)
  · exact watched_act (he k hk).1 (he k hk).2

theorem stable_none : Stable (· = none) := by
  intro k e h he
  subst h
  exact handlingStep_none he

/-! ## The reply -/

/-- the request waits for its reply -/
def Waiting (req : IpcMessage) (k : Option (IpcMessage × List Event)) : Prop :=
  ∃ es, k = some (req, es) ∧ replies es = []

theorem stable_waiting (req : IpcMessage) : Stable (Waiting req) := by
  intro k e h he
  obtain ⟨es, rfl, hes⟩ := h
  exact ⟨es ++ [e], handlingStep_of_plain he req es, by rw [replies_append, hes, replies_of_plain he]; rfl⟩

/-- the reply `resp` was written after `a`, and `P` holds of what came since -/
def Told (req : IpcMessage) (P : List Event → IpcMessage → List Event → Prop)
    (k : Option (IpcMessage × List Event)) : Prop :=
  ∃ a resp b, k = some (req, a ++ .reply resp :: b) ∧ replies a = [] ∧ replies b = [] ∧ P a resp b

section Told

variable {req : IpcMessage} {P P' : List Event → IpcMessage → List Event → Prop}

/-- one more event -/
theorem Told.step {k e} (h : Told req P k) (he : handlingStep (some (req, [])) e = some (req, [] ++ [e]))
    (hr : replies [e] = []) (hP : ∀ a resp b, P a resp b → P' a resp (b ++ [e])) : Told req P' (handlingStep k e) := by
  obtain ⟨a, resp, b, rfl, ha, hb, hp⟩ := h
  refine ⟨a, resp, b ++ [e], ?_, ha, by rw [replies_append, hb, hr]; rfl, hP a resp b hp⟩
  have hstep : ∀ es, handlingStep (some (req, es)) e = some (req, es ++ [e]) := by
    intro es
    cases e <;> first | rfl | cases he
  rw [hstep, List.append_assoc]
  rfl

theorem stable_told (hP : ∀ a resp b e, plain e → P a resp b → P a resp (b ++ [e])) : Stable (Told req P) :=
  fun _ e hk he => hk.step (handlingStep_of_plain he req []) (replies_of_plain he) fun a resp b => hP a resp b e he

/-- the one reply -/
theorem reply_gated {k} {s : St} {resp : IpcMessage} {es : List Event} (hk : k = some (req, es)) (hes : replies es = [])
    (hlogin : req.type = .login → (resp.success = true ↔ Granted req es)) (hP : ∀ a, (pamCalls a = pamCalls es) →
      P a resp []) : Watched gated k (reply E resp) s (fun k _ _ => Told req P k) := by
  let J : Option (IpcMessage × List Event) → Prop := fun k =>
    ∃ a, k = some (req, a) ∧ replies a = [] ∧ pamCalls a = pamCalls es
  let Q : Option (IpcMessage × List Event) → Prop := fun k =>
    ∃ a, k = some (req, a ++ [.reply resp]) ∧ replies a = [] ∧ pamCalls a = pamCalls es
  have hop : Watched gated k (op E (.reply resp) id) s (fun k _ _ => Q k) := by
    refine gated_op (J := J) ⟨es, hk, hes, rfl⟩ ?_ ?_ id s
    · intro _ hr
      obtain ⟨a, rfl, ha, hcalls⟩ := hr
      exact ⟨a ++ [.stop], rfl, by rw [replies_append, ha]; rfl, by rw [pamCalls_append, hcalls]; exact List.append_nil _⟩
    · intro _ hr
      obtain ⟨a, rfl, ha, hcalls⟩ := hr
      refine ⟨⟨ha, fun h => ?_⟩, a, rfl, ha, hcalls⟩
      rw [hlogin h, Granted, Granted, hcalls]
  apply Watched.seq hop
  intro _ _ t hr
  obtain ⟨a, rfl, ha, hcalls⟩ := hr
  refine watched_bind (watched_get (watched_ite (fun _ => watched_halt ?_) fun _ => watched_pure ?_))
  · intro req' es' heq
    cases heq
    exact Or.inl ⟨rfl, a, resp, rfl, ha⟩
  · exact ⟨a, resp, [], rfl, ha, rfl, hP a hcalls⟩

end Told

/-! ## A login -/

/-- the refused: told no, and nothing done -/
def Refused (req : IpcMessage) (a : List Event) (resp : IpcMessage) (b : List Event) : Prop :=
  resp.success = false ∧ ¬ Granted req a ∧ .stopGreeter ∉ b ∧ ∀ user session, .launch user session ∉ b

/-- the admitted: told yes after five steps, and how far the session has come -/
def Opened (req : IpcMessage) (stopped launched : Bool) (a : List Event) (resp : IpcMessage) (b : List Event) : Prop :=
  req.type = .login ∧ resp.success = true ∧ Granted req a ∧ (stopped → .stopGreeter ∈ b) ∧
    (launched → ∃ user session, .launch user session ∈ b)

section Login

variable {req : IpcMessage} {stopped launched : Bool}

theorem stable_refused : Stable (Told req (Refused req)) := by
  refine stable_told fun a resp b e he ⟨hno, hnot, hstop, hlaunch⟩ => ⟨hno, hnot, ?_, fun user session => ?_⟩
  · rw [List.mem_append, List.mem_singleton]
    intro hr
    rcases hr with h | rfl
    · exact hstop h
    · cases he
  · rw [List.mem_append, List.mem_singleton]
    intro hr
    rcases hr with h | rfl
    · exact hlaunch user session h
    · cases he

theorem Opened.more {a : List Event} {resp : IpcMessage} {b : List Event} (h : Opened req stopped launched a resp b)
    (e : Event) : Opened req stopped launched a resp (b ++ [e]) :=
  ⟨h.1, h.2.1, h.2.2.1, fun hs => List.mem_append_left _ (h.2.2.2.1 hs), fun hl =>
    (h.2.2.2.2 hl).imp fun _ => Exists.imp fun _ => List.mem_append_left _⟩

theorem stable_opened : Stable (Told req (Opened req stopped launched)) :=
  stable_told fun _ _ _ e _ h => h.more e

theorem Told.admitted {k} (h : Told req (Opened req stopped launched) k) :
    ∃ es, k = some (req, es) ∧ Admitted req es := by
  obtain ⟨a, resp, b, rfl, -, -, hlogin, hyes, hgranted, -⟩ := h
  exact ⟨_, rfl, hlogin, a, resp, b, rfl, hyes, hgranted⟩

variable (E)

/-- an operation on behalf of an admitted login -/
theorem opened_op {k} (hk : Told req (Opened req stopped launched) k) {Q : Option (IpcMessage × List Event) → Prop}
    {e : Event} (hgood : ∀ es, Admitted req es → Gated (some (req, es)) e)
    (hQ : ∀ k, Told req (Opened req stopped launched) k → Q (handlingStep k e)) (f : St → St) (s : St) :
    Watched gated k (op E e f) s (fun k _ _ => Q k) := by
  refine gated_op hk (fun k hk => stable_opened k .stop hk rfl) (fun k hk => ⟨?_, hQ k hk⟩) f s
  obtain ⟨es, rfl, hadmitted⟩ := hk.admitted
  exact hgood es hadmitted

theorem launch_gated {k} (hk : Told req (Opened req true false) k) (user : UserInfo) (session : SessionInfo)
    (pamEnvs : List Str) (vt : ℤ) (s : St) :
    Watched gated k (launch E user session pamEnvs vt) s (fun k _ _ => Told req (Opened req true true) k) := by
  refine Watched.seq (opened_op E hk (Q := Told req (Opened req true true)) ?_ ?_ id s) ?_
  · exact fun _ h => h
  · refine fun k hk => hk.step rfl rfl fun a resp b h => ⟨h.1, h.2.1, h.2.2.1, fun hs => ?_, fun _ => ?_⟩
    · exact List.mem_append_left _ (h.2.2.2.1 hs)
    · exact ⟨user, session, by simp⟩
  intro k _ t hk
  apply Watched.seq (gated_calm stable_opened (isRunning_calm E) hk t)
  intro k running t hk
  refine watched_ite (fun _ => watched_pure hk) fun _ => ?_
  -- the fork, and the pid when there is a child
  refine watched_bind (watched_bind (watched_get (Watched.seq (opened_op E hk
    (Q := Told req (Opened req true true)) ?_ ?_ id t) fun k _ t hk => watched_pure ?_)))
  · exact fun _ h => h
  · exact fun k hk => hk.step rfl rfl fun _ _ _ h => h.more _
  · split
    · exact watched_pure hk
    · have hassign : ∀ f, Within (calmly apartAll) (op E .assign f) := fun f => op_calm E (fun _ => rfl) rfl fun _ => rfl
      exact Watched.seq (gated_calm stable_opened (hassign _) hk t) fun k _ t hk => watched_pure hk

theorem serveSession_gated {k} (hk : Told req (Opened req false false) k) (pam : PamAuth) (s : St) :
    Watched gated k (serveSession E req pam) s (fun k _ _ => Told req (Opened req true true) k) := by
  have calm : ∀ {α : Type} {x : Sys α} {g : St → St} {launched : Bool} {k}, Within (calmly g) x →
      Told req (Opened req true launched) k → ∀ t,
        Watched gated k x t (fun k _ _ => Told req (Opened req true launched) k) :=
    fun hx hk t => gated_calm stable_opened hx hk t
  refine watched_bind (Watched.seq (opened_op E hk (Q := Told req (Opened req true false)) ?_ ?_ id s)
    fun k _ t hk => ?_)
  · exact fun _ h => h
  · refine fun k hk => hk.step rfl rfl fun a resp b h => ⟨h.1, h.2.1, h.2.2.1, fun _ => by simp, fun hl => ?_⟩
    exact absurd hl (by decide)
  refine Watched.mono (calm (releaseGreeter_calm E) hk t) fun k _ t hk => watched_bind (watched_get ?_)
  apply Watched.seq (calm (rememberLastUser_calm E req) hk t)
  intro k _ t hk
  apply Watched.seq (calm (setActivePam_calm E pam) hk t)
  intro k _ t hk
  apply Watched.seq (calm (onPam_calm E _) hk t)
  intro k pamEnvs t hk
  apply Watched.seq (launch_gated E hk _ _ pamEnvs _ t)
  intro k launched t hk
  have hwait : Within (calmly apartSession) (do let _ ← waitForExit E) :=
    within_bind (waitForExit_calm E) fun _ => within_pure ()
  apply Watched.seq (calm (within_when hwait) hk t)
  intro k _ t hk
  apply Watched.seq (calm (releaseActivePam_calm E) hk t)
  intro k _ t hk
  apply Watched.seq (calm (readRunning_calm E) hk t)
  intro k running t hk
  exact watched_ite (fun _ => gated_quiet stable_opened (startGreeter_quiet E) hk t) fun _ => watched_pure hk

theorem stable_fulfilled : Stable (Told req (Fulfilled req)) := by
  apply stable_told
  intro a resp b e he h hlogin
  have hstop : Event.stopGreeter ∈ b ++ [e] ↔ Event.stopGreeter ∈ b := by
    rw [List.mem_append, List.mem_singleton, or_iff_left]
    intro hr
    subst hr
    cases he
  have hlaunch : ∀ user session, Event.launch user session ∈ b ++ [e] ↔ Event.launch user session ∈ b := by
    intro user session
    rw [List.mem_append, List.mem_singleton, or_iff_left]
    intro hr
    subst hr
    cases he
  simp only [hstop, hlaunch]
  exact h hlogin

theorem Told.mono {P P' : List Event → IpcMessage → List Event → Prop} {k} (h : Told req P k)
    (hP : ∀ a resp b, P a resp b → P' a resp b) : Told req P' k := by
  obtain ⟨a, resp, b, hk, ha, hb, hp⟩ := h
  exact ⟨a, resp, b, hk, ha, hb, hP a resp b hp⟩

/-- **A login.** The five steps decide what is said, and what is said decides what is done. -/
theorem handleLoginRequest_gated (hlogin : req.type = .login) (s : St) :
    Watched gated (some (req, [])) (handleLoginRequest E req) s (fun k _ _ => Told req (Fulfilled req) k) := by
  rw [handleLoginRequest_eq]
  -- the attempt shows nothing but calls, and what they are worth
  have hattempt : Watched gated (some (req, [])) (attempt E req) s (fun k r _ => ∃ es, k = some (req, es) ∧
      replies es = [] ∧ (r.1 = none ↔ Granted req es)) := by
    have hwaits := gated_calm (stable_waiting req) (attempt_calm E req) ⟨[], rfl, rfl⟩ s
    refine Sat.mono (Sat.and (Sat.and hwaits (attempt_calm E req s)) (attempt_spec E req s)) ?_ fun _ _ _ h => h.2.elim
    intro l ⟨failure, pam⟩ t ⟨⟨⟨haccepts, es, hes, hreplies⟩, hl⟩, hyes, hno⟩
    have hafter := after_plain (fun p hp => plain_of_quiet (s := p.2) (Event.quiet_of_calm (hl.1 p hp).1)) req []
    have hes' : es = events l := by
      rw [hafter] at hes
      exact (congrArg Prod.snd (Option.some_inj.1 hes)).symm
    refine ⟨haccepts, es, hes, hreplies, ?_⟩
    rw [hes']
    cases failure with
    | none => exact ⟨fun _ => hyes rfl, fun _ => rfl⟩
    | some message => exact ⟨fun h => absurd h (by simp), fun h => absurd h (not_granted (hno rfl))⟩
  apply Watched.seq hattempt
  intro _ ⟨failure, pam⟩ t hr
  obtain ⟨es, rfl, hes, hgranted⟩ := hr
  cases failure with
  | some message =>
    have hnot : ¬ Granted req es := fun h => by simpa using hgranted.2 h
    refine Watched.seq (reply_gated (P := Refused req) rfl hes ?_ ?_) fun k _ t hk => ?_
    · exact fun _ => ⟨fun h => absurd h (by simp), fun h => absurd h hnot⟩
    · intro a ha
      exact ⟨rfl, by rwa [Granted, ha], by simp, by simp⟩
    refine Watched.seq (gated_calm stable_refused (onPam_calm E _) hk t) fun k _ t hk => watched_pure ?_
    refine hk.mono fun a resp b h _ => ⟨?_, ?_, ?_⟩
    · simp [h.1, h.2.1]
    · simp [h.1, h.2.2.1]
    · simp [h.1, h.2.2.2]
  | none =>
    have hyes : Granted req es := hgranted.1 rfl
    refine Watched.seq (reply_gated (P := Opened req false false) rfl hes ?_ ?_) fun k _ t hk => ?_
    · exact fun _ => ⟨fun _ => hyes, fun _ => rfl⟩
    · intro a ha
      exact ⟨hlogin, rfl, by rwa [Granted, ha], by simp, by simp⟩
    apply Watched.mono (serveSession_gated E hk pam t)
    intro k _ t hk
    refine hk.mono fun a resp b h _ => ⟨?_, ?_, ?_⟩
    · simp [h.2.1, h.2.2.1]
    · simp [h.2.1, h.2.2.2.1]
    · have hlaunch := h.2.2.2.2 rfl
      simp [h.2.1, hlaunch]

end Login

/-! ## Requests, connections and the loop -/

variable (E)

/-- **A request.** It is told one thing, and only a login is more than that. -/
theorem processMessage_gated (req : IpcMessage) (s : St) :
    Watched gated (some (req, [])) (processMessage E req) s (fun k _ _ => Told req (Fulfilled req) k) := by
  have answer : ∀ {k} (t : St) (resp : IpcMessage), req.type ≠ .login → Waiting req k →
      Watched gated k (reply E resp) t (fun k _ _ => Told req (Fulfilled req) k) := by
    intro k t resp hne ⟨es, hk, hes⟩
    refine Watched.mono (reply_gated (P := fun _ _ _ => True) hk hes (fun h => absurd h hne) fun _ _ => trivial) ?_
    exact fun _ _ _ hk => hk.mono fun _ _ _ _ h => absurd h hne
  have calm : ∀ {α : Type} {x : Sys α} {g : St → St}, Within (calmly g) x →
      Watched gated (some (req, [])) x s (fun k _ _ => Waiting req k) :=
    fun hx => gated_calm (stable_waiting req) hx ⟨[], rfl, rfl⟩ s
  have hcache : ∀ f, Within (calmly apartAll) (op E .assign f) := fun f => op_calm E (fun _ => rfl) rfl fun _ => rfl
  unfold processMessage
  split
  case _ hping => exact answer s _ (by simp [hping]) ⟨[], rfl, rfl⟩
  case _ husers =>
    refine Watched.seq (calm (hcache _)) fun k _ t hk => watched_bind (watched_get ?_)
    exact answer t _ (by simp [husers]) hk
  case _ hsessions =>
    refine watched_bind (watched_cacheSessions E (fun _ => ?_) fun _ _ => ?_)
    · intro req' es heq
      cases heq
      exact Or.inr ⟨rfl, hsessions, rfl⟩
    · refine Watched.mono (calm (hcache _)) fun k _ t hk => watched_bind (watched_get ?_)
      exact answer t _ (by simp [hsessions]) hk
  case _ hpower =>
    apply Watched.seq (calm (powerCall_calm E _))
    intro k ok t hk
    exact answer t _ (by simp [hpower]) hk
  case _ hlogin => exact handleLoginRequest_gated E hlogin s
  case _ hother => exact answer s _ (fun h => hother h) ⟨[], rfl, rfl⟩

theorem serveLine_gated (line rest : Str) (s : St) :
    Watched gated none (serveLine E line rest) s (fun k _ _ => k = none) := by
  have hassign : ∀ f, Within (calmly apartAll) (op E .assign f) := fun f => op_calm E (fun _ => rfl) rfl fun _ => rfl
  apply Watched.seq_at (gated_calm stable_none (hassign _) rfl s)
  intro _ t
  split
  · exact watched_halt fun _ _ h => by cases h
  · case _ req _ =>
    refine Watched.seq_at (gated_op (J := (· = none)) (Q := (· = some (req, []))) rfl ?_ ?_ _ t) ?_
    · intro _ hr
      subst hr
      rfl
    · intro _ hr
      subst hr
      exact ⟨trivial, rfl⟩
    intro _ u
    apply Watched.seq (processMessage_gated E req u)
    intro k _ v hk
    refine gated_op hk (fun k hk => stable_fulfilled k .stop hk rfl) ?_ id v
    intro _ hr
    obtain ⟨a, resp, b, rfl, hserved⟩ := hr
    exact ⟨⟨a, resp, b, rfl, hserved⟩, rfl⟩

theorem readLoop_gated : ∀ (chunks : List Str) (accumulated : Str) (s : St),
    Watched gated none (readLoop E accumulated chunks) s (fun k _ _ => k = none) := by
  have hop : ∀ {e f} (s : St), e.calm → Watched gated none (op E e f) s (fun k _ _ => k = none) :=
    fun s he => gated_calm (g := apartAll) stable_none (op_calm E (fun _ => rfl) he fun _ => rfl) rfl s
  intro chunks
  induction chunks with
  | nil => exact fun _ s => hop s rfl
  | cons chunk chunks ih =>
    intro accumulated s
    refine watched_ite (fun _ => hop s rfl) fun _ => Watched.seq_at (hop s rfl) ?_
    intro _ t
    split
    · exact ih _ t
    · exact serveLine_gated E _ _ t

theorem acceptClient_gated (s : St) : Watched gated none (acceptClient E) s (fun k _ _ => k = none) := by
  have hop : ∀ {e f} (s : St), e.calm → Watched gated none (op E e f) s (fun k _ _ => k = none) :=
    fun s he => gated_calm (g := apartAll) stable_none (op_calm E (fun _ => rfl) he fun _ => rfl) rfl s
  refine watched_bind (watched_get ?_)
  split
  · exact hop s rfl
  · apply Watched.seq_at (hop s rfl)
    intro _ t
    refine watched_bind (Watched.seq_at (hop t rfl) ?_)
    intro _ t
    apply Watched.seq_at (readLoop_gated E _ [] t)
    intro _ t
    apply Watched.mono (hop t rfl)
    intro _ _ t h
    subst h
    exact gated_calm stable_none (close_calm E _) rfl t

/-- an operation between requests -/
theorem idle_op {e : Event} (he : Gated none e) (hstep : handlingStep none e = none) (f : St → St) (s : St) :
    Watched gated none (op E e f) s (fun k _ _ => k = none) := by
  refine gated_op (J := (· = none)) rfl ?_ ?_ f s
  · intro _ h
    subst h
    rfl
  · intro _ h
    subst h
    exact ⟨he, hstep⟩

theorem turn_gated (s : St) : Watched gated none (turn E) s (fun k _ _ => k = none) := by
  have watch : ∀ s, Watched gated none (do watchGreeter E; return true) s (fun k _ _ => k = none) :=
    fun s => Watched.seq (gated_quiet stable_none (watchGreeter_quiet E) rfl s)
      fun _ _ _ h => watched_pure h
  apply Watched.seq_at (idle_op E (by trivial) rfl id s)
  intro _ t
  refine watched_bind (watched_get (watched_ite (fun _ => watched_pure rfl) fun _ => watched_bind (watched_get ?_)))
  apply Watched.seq_at (idle_op E (by trivial) rfl id t)
  intro _ t
  split
  · exact watched_pure rfl
  · exact watched_pure rfl
  · apply Watched.seq_at (acceptClient_gated E t)
    intro _ t
    exact watch t
  · exact watch t

/-- **Every watched run keeps the rules.** -/
theorem main_gated (n : ℕ) : Watched gated none (main E n) (boot E) (fun k _ _ => k = none) := by
  have calm : ∀ {α : Type} {x : Sys α} {g : St → St} (s : St), Within (calmly g) x →
      Watched gated none x s (fun k _ _ => k = none) := fun s hx => gated_calm stable_none hx rfl s
  have hinit : Watched gated none (init E) (boot E) (fun k _ _ => k = none) := by
    refine Watched.mono (Within.watched (J := (· = none)) (init_scanning E) rfl ?_ ?_) fun _ _ _ h => h.1
    · intro k e t hk he _
      have hplain : plain e := plain_of_quiet (Event.quiet_of_calm (s := t) he)
      exact ⟨gated_of_plain hplain k, stable_none k e hk hplain⟩
    · intro _ _ hk _ req es heq
      subst hk
      cases heq
  apply Watched.seq_at hinit
  intro ok s
  refine watched_ite (fun _ => ?_) fun _ => watched_pure rfl
  apply Watched.seq_at (idle_op E (by trivial) rfl _ s)
  intro _ s
  apply Watched.seq (gated_quiet stable_none (startGreeter_quiet E) rfl s)
  intro _ _ s hr
  subst hr
  refine Watched.seq_at (watched_loop (I := fun k _ => k = none) (q := fun k _ _ => k = none) ?_ ?_ n none s
    rfl) ?_
  · intro _ _ hr _ _ h
    subst hr
    cases h
  · intro _ t hr
    subst hr
    exact Watched.mono (turn_gated E t) fun k b u hk => by split <;> exact hk
  intro _ s
  refine watched_bind (Watched.seq_at (idle_op E (by trivial) rfl _ s) ?_)
  intro _ s
  apply Watched.mono (calm s (releaseGreeter_calm E))
  intro _ _ s hr
  subst hr
  apply Watched.seq_at (calm s (terminate_calm E))
  intro _ s
  apply Watched.seq (calm s (cleanupIpcSocket_calm E))
  intro _ _ s hr
  subst hr
  exact idle_op E (by trivial) rfl id s

/-- **Login gating over whole runs.** Every event of a watched run is one that the rules allow after the events before
it; and if the run ends while a request is handled, it is the one reply that its client was no longer there to read, or
no login but a request for the sessions, whose scan threw. -/
theorem login_gating (E : Env) (n : ℕ) :
    (∀ pre e post, events (history E n) = pre ++ e :: post → Gated (handling pre) e) ∧
    ∀ req es, handling (events (history E n)) = some (req, es) →
      ((main E n (boot E)).fin = .error .sigpipe ∧ ∃ a resp, es = a ++ [.reply resp] ∧ replies a = []) ∨
      ((main E n (boot E)).fin = .error .filesystemError ∧ req.type = .getSessions ∧ replies es = []) := by
  have hmain := main_gated E n
  refine ⟨fun pre e post hsplit => ?_, fun req es hes => ?_⟩
  · obtain ⟨l, l', hl, hpre, hpost⟩ := List.map_eq_append_iff.1 hsplit
    obtain ⟨p, l'', rfl, hp, -⟩ := List.map_eq_cons_iff.1 hpost
    have hgood := gated.accepts_split (Watched.accepts hmain) hl
    rw [after_eq_handling, events, hpre, hp] at hgood
    exact hgood
  · have hafter : gated.after none (history E n) = some (req, es) := by rw [after_eq_handling, ← hes]; rfl
    cases hfin : (main E n (boot E)).fin with
    | ok u =>
      have hnone := (Sat.of_ok hmain hfin).2
      exact absurd (hnone.symm.trans hafter) (by simp)
    | error e =>
      rcases (Sat.of_error hmain hfin).2 req es hafter with ⟨rfl, ha⟩ | ⟨rfl, hscan⟩
      · exact Or.inl ⟨rfl, ha⟩
      · exact Or.inr ⟨rfl, hscan⟩

/-! ## Witnesses -/

/-- alice logs in -/
def demo : Env := machine [greeterAccount, alice] [] (loginOf "alice")

def isLaunch : Event → Bool
  | .launch _ _ => true
  | _ => false

/-- her session is launched while an admitted login is handled -/
theorem login_gating_demo : ∃ pre e post, events (history demo 1) = pre ++ e :: post ∧ isLaunch e ∧
    ∃ req es, handling pre = some (req, es) ∧ Admitted req es := by
  have hany : (events (history demo 1)).any isLaunch = true := by decide +kernel
  obtain ⟨e, he, hlaunch⟩ := List.any_eq_true.1 hany
  obtain ⟨pre, post, hsplit⟩ := List.append_of_mem he
  have hgated := (login_gating demo 1).1 pre e post hsplit
  refine ⟨pre, e, post, hsplit, hlaunch, ?_⟩
  cases e with
  | launch user session =>
    cases hhandling : handling pre with
    | none =>
      rw [hhandling] at hgated
      exact hgated.elim
    | some k =>
      rw [hhandling] at hgated
      exact ⟨k.1, k.2, rfl, hgated⟩
  | _ => cases hlaunch

end Miqudm.LoginGating
