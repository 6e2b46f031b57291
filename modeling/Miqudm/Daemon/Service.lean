/-
One connection, one request, one answer.

`Call` is what happened on the connection that is being served: what was read, the request that was decoded from it, the
calls it led to, and the answer. `Answers` is the protocol: what the answer to a request says, given these calls and the
instant of the answer. `service` is the monitor of its rules, and `history_served` says that every run keeps them:

- connections are served one at a time, and polling waits for the end of the one being served;
- a request is the first line that was read, decoded; logind is asked on behalf of a power request only, once, for the
  action it names;
- a request is answered once, by the answer that the protocol prescribes: a list is the scan made right before it was
  sent, a power action is reported as logind answered, and a refused login names the step that failed.
-/
import Miqudm.Common.Framing
import Miqudm.Daemon.Domestic
import Miqudm.Daemon.Refusals
import Miqudm.Daemon.Supervision

namespace Miqudm.Service

open Miqudm.Core Prog

/-! ## The protocol -/

/-- what happened on a connection -/
structure Call where
  reads : List Str := []
  requests : List IpcMessage := []
  pams : List PamCall := []
  powers : List (Str × Bool) := []
  answers : List IpcMessage := []
deriving DecidableEq, Repr

def powerActions : List Str := [lit "poweroff", lit "reboot", lit "suspend", lit "hibernate"]

def response (success : Bool) (message : Str) : IpcMessage := { type := .response, success, message }

def powerReport (ok : Bool) : IpcMessage :=
  response ok (if ok then lit "Power action triggered" else lit "Failed to execute power action")

/-- the answer to a request, at the instant `now` after the operation that sent it; the operation before it was made at
`now - 2` -/
def Answers (E : Env) (now : ℕ) (c : Call) (req resp : IpcMessage) : Prop :=
  match req.type with
  | .ping => resp = response true (lit "pong")
  | .getUsers => resp = { response true [] with
      users := scanUsers (E.passwd (now - 2)) (E.getlogin (now - 2)) E.self.uid E.self.gid (E.isFile (now - 2)) }
  | .getSessions => ∃ sessions, scanAll (E.listing (now - 2)) = some sessions ∧
      resp = { response true [] with sessions := sessions }
  | .powerAction =>
    ∃ ok, resp = powerReport ok ∧ (req.powerAction ∉ powerActions → ok = false) ∧
      c.powers = if req.powerAction ∈ powerActions then [(req.powerAction, ok)] else []
  | .login => resp = granted ∨ ∃ cause ret, ret ≠ pamSuccess ∧
      resp = response false (cause.text ++ E.pam.strerror ret) ∧ Blames c.pams cause
  | _ => resp = response false (lit "Unknown IPC command")

def Call.step (c : Call) : Event → Call
  | .read chunk => { c with reads := c.reads ++ [chunk] }
  | .received req => { c with requests := c.requests ++ [req] }
  | .pam call => { c with pams := c.pams ++ [call] }
  | .logind action ok => { c with powers := c.powers ++ [(action, ok)] }
  | .reply resp => { c with answers := c.answers ++ [resp] }
  | _ => c

/-- the connection that is being served -/
def serving (k : Option Call) (e : Event) : Option Call :=
  match e with
  | .accept (some _) => some {}
  | .close _ => none
  | e => k.map fun c => c.step e

/-- the text up to the first newline of what was read -/
def Call.line (c : Call) : Option Str := (splitFirst '\n' (c.reads.flatMap cstr)).map Prod.fst

def Good (E : Env) (k : Option Call) (e : Event) (s : St) : Prop :=
  match e with
  | .accept _ => k = none
  | .poll _ => k = none
  | .head => k = none
  | .finished => k = none
  | .read _ => ∃ c, k = some c ∧ c.requests = []
  | .received req => ∃ c line, k = some c ∧ c.requests = [] ∧ c.line = some line ∧ deserialize E.json line = .ok req
  | .logind action _ => ∃ c req, k = some c ∧ c.requests = [req] ∧ req.type = .powerAction ∧
      action = req.powerAction ∧ action ∈ powerActions ∧ c.powers = [] ∧ c.answers = []
  | .reply resp => ∃ c req, k = some c ∧ c.requests = [req] ∧ c.answers = [] ∧ Answers E s.now c req resp
  | .served => ∃ c, k = some c ∧ c.answers.length = 1
  | .close _ => ∀ c, k = some c → c.requests.length = c.answers.length
  | _ => True

def service (E : Env) : Monitor Event St Halt (Option Call) where
  step := serving
  good := Good E

/-! ## Parts that deal with no client -/

section Parts

variable (E : Env) {k : Option Call} {s : St}

/-- the calls of PAM are noted, and nothing else is -/
def noted (k : Option Call) (es : List Event) : Option Call :=
  k.map fun c => { c with pams := c.pams ++ pamCalls es }

theorem serving_offline {e : Event} (he : e.offline) : serving k e = noted k [e] := by
  cases k with
  | none => cases e <;> first | rfl | cases he
  | some c =>
    have quiet : e.pamCall? = none → noted (some c) [e] = some c := by
      intro hcall
      simp [noted, pamCalls, hcall]
    cases e <;> first | rfl | exact (quiet rfl).symm | cases he

theorem good_offline {e : Event} (he : e.offline) : Good E k e s := by
  cases e <;> trivial

theorem noted_append (es es' : List Event) : noted (noted k es) es' = noted k (es ++ es') := by
  cases k with
  | none => rfl
  | some c => simp [noted]

theorem offline_log {l : List (Event × St)} : ∀ {k}, (∀ p ∈ l, p.1.offline) →
    (service E).accepts k l ∧ (service E).after k l = noted k (events l) := by
  induction l with
  | nil =>
    intro k _
    exact ⟨trivial, by cases k <;> simp [noted]⟩
  | cons p l ih =>
    intro k hl
    rw [List.forall_mem_cons] at hl
    obtain ⟨haccepts, hafter⟩ := ih (k := serving k p.1) hl.2
    refine ⟨⟨good_offline E hl.1, haccepts⟩, hafter.trans ?_⟩
    rw [serving_offline hl.1, noted_append]
    rfl

/-- a part that deals with no client, with what is known of its calls -/
theorem offline_watched {α : Type} {x : Sys α} (hx : Within offline x) {Q : List PamCall → α → Prop}
    (hQ : Sat x s (fun l a _ => Q (pamCalls (events l)) a) fun _ _ _ => True) :
    Watched (service E) k x s fun k' a _ => ∃ es, k' = noted k es ∧ Q (pamCalls es) a := by
  refine Sat.mono (Sat.and (hx s) hQ) (fun l a t h => ?_) fun l e _ h => ?_
  · obtain ⟨⟨hl, -⟩, hcalls⟩ := h
    obtain ⟨haccepts, hafter⟩ := offline_log E (k := k) fun p hp => (hl p hp).1
    exact ⟨haccepts, events l, hafter, hcalls⟩
  · exact h.1.2.elim

/-- an event that is not noted -/
theorem serving_quiet {e : Event} (he : e.offline) (hcall : e.pamCall? = none) : serving k e = k := by
  rw [serving_offline he]
  cases k with
  | none => rfl
  | some c => simp [noted, pamCalls, hcall]

theorem service_op {e : Event} {f : St → St} {q : Option Call → Unit → St → Prop}
    (hgood : ∀ b, Good E k e ((f (s.setRunning b)).tick (s.now + 1)))
    (hq : ∀ b, q (serving k e) () ((f (s.setRunning b)).tick (s.now + 1))) : Watched (service E) k (op E e f) s q := by
  have hstop : serving k .stop = k := serving_quiet rfl rfl
  exact watched_op E trivial hstop fun b => ⟨hgood b, hq b⟩

/-- an operation that is not noted -/
theorem quiet_op {e : Event} (he : e.offline) (hcall : e.pamCall? = none) {f : St → St}
    {q : Option Call → Unit → St → Prop} (hq : ∀ b, q k () ((f (s.setRunning b)).tick (s.now + 1))) :
    Watched (service E) k (op E e f) s q := by
  refine service_op E (fun _ => good_offline E he) fun b => ?_
  rw [serving_quiet he hcall]
  exact hq b

/-- a part that deals with no client, after the answer or between connections -/
theorem offline_keeps {c : Option Call → Prop} (hc : ∀ k es, c k → c (noted k es)) (hk : c k) {α : Type} {x : Sys α}
    (hx : Within offline x) : Watched (service E) k x s fun k' _ _ => c k' := by
  have htrivial : Sat x s (fun _ _ _ => True) fun _ _ _ => True := ends_any x s
  refine Watched.mono (offline_watched E hx (Q := fun _ _ => True) htrivial) fun k' _ _ h => ?_
  obtain ⟨es, rfl, -⟩ := h
  exact hc k es hk

/-! ## Requests -/

/-- the request was decoded, and nothing was done about it -/
structure Requested (req : IpcMessage) (k : Option Call) (c : Call) : Prop where
  serving : k = some c
  requests : c.requests = [req]
  pams : c.pams = []
  powers : c.powers = []
  answers : c.answers = []

/-- there was one request, and one answer to it -/
def Answered (k : Option Call) : Prop := ∃ c, k = some c ∧ c.requests.length = 1 ∧ c.answers.length = 1

/-- every request was answered -/
def Settled (k : Option Call) : Prop := ∃ c, k = some c ∧ c.requests.length = c.answers.length

theorem answered_noted (k : Option Call) (es : List Event) (h : Answered k) : Answered (noted k es) := by
  obtain ⟨c, rfl, hc⟩ := h
  exact ⟨_, rfl, hc⟩

/-- **The answer.** -/
theorem reply_answered {c : Call} {req resp : IpcMessage} (hk : k = some c) (hrequests : c.requests = [req])
    (hanswers : c.answers = []) (hresp : Answers E (s.now + 1) c req resp) :
    Watched (service E) k (reply E resp) s fun k' _ _ => Answered k' := by
  refine watched_bind (service_op E (fun b => ⟨c, req, hk, hrequests, hanswers, hresp⟩) fun b => ?_)
  refine watched_bind (watched_get (watched_ite (fun _ => watched_halt trivial) fun _ => watched_pure ?_))
  rw [hk]
  refine ⟨c.step (.reply resp), rfl, ?_, ?_⟩
  · exact (congrArg List.length hrequests).trans rfl
  · show (c.answers ++ [resp]).length = 1
    rw [hanswers]
    rfl

theorem handlePowerAction_answered {c : Call} {req : IpcMessage} (hk : Requested req k c)
    (htype : req.type = .powerAction) :
    Watched (service E) k (handlePowerAction E req) s fun k' _ _ => Answered k' := by
  have answer : ∀ {k : Option Call} {c' : Call} {ok : Bool} {t : St}, k = some c' → c'.requests = [req] →
      c'.answers = [] → c'.powers = (if req.powerAction ∈ powerActions then [(req.powerAction, ok)] else []) →
      (req.powerAction ∉ powerActions → ok = false) →
      Watched (service E) k (reply E (powerReport ok)) t fun k' _ _ => Answered k' := by
    intro k c' ok t hk' hrequests hanswers hpowers hnone
    refine reply_answered E hk' hrequests hanswers ?_
    simp only [Answers, htype]
    exact ⟨ok, rfl, hnone, hpowers⟩
  refine watched_bind (watched_ite (fun hmem => ?_) fun hmem => ?_)
  · have hlogind : ∀ ok t, Good E k (.logind req.powerAction ok) t := fun ok t =>
      ⟨c, req, hk.serving, hk.requests, htype, rfl, hmem, hk.powers, hk.answers⟩
    refine watched_bind (watched_get (watched_bind (service_op E (fun b => hlogind _ _) fun b => watched_pure ?_)))
    rw [hk.serving]
    refine answer rfl hk.requests hk.answers ?_ fun h => absurd hmem h
    rw [if_pos (show req.powerAction ∈ powerActions from hmem)]
    show c.powers ++ _ = _
    rw [hk.powers]
    rfl
  · refine watched_pure (answer hk.serving hk.requests hk.answers ?_ fun _ => rfl)
    exact hk.powers.trans (if_neg hmem).symm

theorem handleLoginRequest_answered {c : Call} {req : IpcMessage} (hk : Requested req k c) (htype : req.type = .login) :
    Watched (service E) k (handleLoginRequest E req) s fun k' _ _ => Answered k' := by
  rw [handleLoginRequest_eq]
  have hexplained := Sat.mono (attempt_explained E req s) (fun _ _ _ h => h) fun _ _ _ _ => trivial
  refine Watched.seq (offline_watched E (Domestic.offline (attempt_domestic E req))
    (Q := fun cs r => ∀ message, r.1 = some message → ∃ cause ret, ret ≠ pamSuccess ∧
      message = cause.text ++ E.pam.strerror ret ∧ Blames cs cause) hexplained) ?_
  intro k' r t h
  obtain ⟨es, rfl, hmessage⟩ := h
  have hserving : noted k es = some { c with pams := c.pams ++ pamCalls es } := by
    rw [hk.serving]
    rfl
  rcases r with ⟨failure, pam⟩
  cases failure with
  | some message =>
    obtain ⟨cause, ret, hret, rfl, hblames⟩ := hmessage message rfl
    refine Watched.seq (reply_answered E hserving hk.requests hk.answers ?_) fun k _ u hk => ?_
    · simp only [Answers, htype]
      refine Or.inr ⟨cause, ret, hret, rfl, ?_⟩
      rw [hk.pams]
      exact hblames
    · refine offline_keeps E answered_noted hk ?_
      exact within_bind (Domestic.offline (domestic_onPam E _)) fun _ => within_pure _
  | none =>
    refine Watched.seq (reply_answered E hserving hk.requests hk.answers ?_) fun k _ u hk => ?_
    · simp only [Answers, htype]
      exact Or.inl rfl
    · exact offline_keeps E answered_noted hk (serveSession_offline E req pam)

/-- **A request is answered, and rightly.** -/
theorem processMessage_answered {c : Call} {req : IpcMessage} (hk : Requested req k c) :
    Watched (service E) k (processMessage E req) s fun k' _ _ => Answered k' := by
  unfold processMessage
  split
  · rename_i htype
    exact reply_answered E hk.serving hk.requests hk.answers (by simp only [Answers, htype]; rfl)
  · rename_i htype
    refine watched_bind (quiet_op E rfl rfl fun b => watched_bind (watched_get ?_))
    exact reply_answered E hk.serving hk.requests hk.answers (by simp only [Answers, htype]; rfl)
  · rename_i htype
    refine watched_bind (watched_cacheSessions E (fun _ => trivial) fun sessions hscan => ?_)
    refine quiet_op E rfl rfl fun b => watched_bind (watched_get ?_)
    refine reply_answered E hk.serving hk.requests hk.answers ?_
    simp only [Answers, htype]
    exact ⟨sessions, hscan, rfl⟩
  · rename_i htype
    exact handlePowerAction_answered E hk htype
  · rename_i htype
    exact handleLoginRequest_answered E hk htype
  · rename_i hping husers hsessions hpower hlogin
    refine reply_answered E hk.serving hk.requests hk.answers ?_
    unfold Answers
    split
    · exact absurd ‹_› hping
    · exact absurd ‹_› husers
    · exact absurd ‹_› hsessions
    · exact absurd ‹_› hpower
    · exact absurd ‹_› hlogin
    · rfl

/-! ## Connections and the loop -/

/-- the connection is open, and no line has been read yet -/
structure Reading (accumulated : Str) (k : Option Call) : Prop where
  call : ∃ c, k = some c ∧ c.requests = [] ∧ c.pams = [] ∧ c.powers = [] ∧ c.answers = [] ∧
    c.reads.flatMap cstr = accumulated

theorem serveLine_answered {accumulated line rest : Str} (hk : Reading accumulated k)
    (hline : splitFirst '\n' accumulated = some (line, rest)) :
    Watched (service E) k (serveLine E line rest) s fun k' _ _ => Settled k' := by
  obtain ⟨c, rfl, hrequests, hpams, hpowers, hanswers, hreads⟩ := hk.call
  refine watched_bind (quiet_op E rfl rfl fun b => ?_)
  cases hdecode : deserialize E.json line with
  | error what => exact watched_halt trivial
  | ok req =>
    refine watched_bind (service_op E (fun b => ⟨c, line, rfl, hrequests, ?_, hdecode⟩) fun b => ?_)
    · rw [Call.line, hreads, hline]
      rfl
    · have hrequested : Requested req (serving (some c) (.received req)) (c.step (.received req)) :=
        ⟨rfl, congrArg (· ++ [req]) hrequests, hpams, hpowers, hanswers⟩
      apply Watched.seq (processMessage_answered E hrequested)
      intro k _ t hk
      obtain ⟨c', rfl, hone, hanswered⟩ := hk
      exact service_op E (fun b => ⟨c', rfl, hanswered⟩) fun b => ⟨c', rfl, hone.trans hanswered.symm⟩

theorem readLoop_answered : ∀ (chunks : List Str) (accumulated : Str) (k : Option Call) (s : St), Reading accumulated k →
    Watched (service E) k (readLoop E accumulated chunks) s fun k' _ _ => Settled k' := by
  have eof : ∀ (accumulated : Str) (k : Option Call) (s : St), Reading accumulated k →
      Watched (service E) k (op E (.read []) id) s fun k' _ _ => Settled k' := by
    intro accumulated k s hk
    obtain ⟨c, rfl, hrequests, -, -, hanswers, -⟩ := hk.call
    refine service_op E (fun b => ⟨c, rfl, hrequests⟩) fun b => ⟨c.step (.read []), rfl, ?_⟩
    show c.requests.length = c.answers.length
    rw [hrequests, hanswers]
  intro chunks
  induction chunks with
  | nil => exact fun accumulated k s hk => eof accumulated k s hk
  | cons chunk chunks ih =>
    intro accumulated k s hk
    refine watched_ite (fun _ => eof accumulated k s hk) fun _ => ?_
    obtain ⟨c, rfl, hrequests, hpams, hpowers, hanswers, hreads⟩ := hk.call
    refine watched_bind (service_op E (fun b => ⟨c, rfl, hrequests⟩) fun b => ?_)
    have hmore : Reading (accumulated ++ cstr chunk) (serving (some c) (.read chunk)) := by
      refine ⟨c.step (.read chunk), rfl, hrequests, hpams, hpowers, hanswers, ?_⟩
      show (c.reads ++ [chunk]).flatMap cstr = _
      rw [List.flatMap_append, hreads, List.flatMap_singleton]
    split
    · exact ih _ _ _ hmore
    · rename_i line rest hline
      exact serveLine_answered E hmore hline

theorem acceptClient_served (hk : k = none) : Watched (service E) k (acceptClient E) s fun k' _ _ => k' = none := by
  subst hk
  refine watched_bind (watched_get ?_)
  split
  · exact service_op E (fun _ => rfl) fun _ => rfl
  · refine watched_bind (service_op E (fun _ => rfl) fun _ => ?_)
    have hreading : Reading [] (serving none (.accept (some s.nextFd))) := ⟨{}, rfl, rfl, rfl, rfl, rfl, rfl⟩
    refine Watched.seq (q := fun k' _ _ => Settled k') ?_ fun k _ t hk => ?_
    swap
    · obtain ⟨c, rfl, hsettled⟩ := hk
      exact service_op E (fun _ _ h => by cases h; exact hsettled) fun _ => rfl
    refine watched_bind (quiet_op E rfl rfl fun _ => ?_)
    apply Watched.seq (readLoop_answered E _ [] _ _ hreading)
    intro k _ t hk
    exact quiet_op E rfl rfl fun _ => hk

theorem none_noted (k : Option Call) (es : List Event) (h : k = none) : noted k es = none := by
  rw [h]
  rfl

theorem turn_served (hk : k = none) : Watched (service E) k (turn E) s fun k' _ _ => k' = none := by
  subst hk
  have watch : ∀ t, Watched (service E) none (do watchGreeter E; return true) t fun k' _ _ => k' = none := fun t =>
    Watched.seq (offline_keeps E none_noted rfl (watchGreeter_offline E)) fun _ _ _ h => watched_pure h
  refine watched_bind (service_op E (fun _ => rfl) fun _ => watched_bind (watched_get ?_))
  refine watched_ite (fun _ => watched_pure rfl) fun _ => watched_bind (watched_get ?_)
  refine watched_bind (service_op E (fun _ => rfl) fun _ => ?_)
  split
  · exact watched_pure rfl
  · exact watched_pure rfl
  · apply Watched.seq (acceptClient_served E rfl)
    intro k _ t hk
    subst hk
    exact watch t
  · exact watch _

/-! ## The whole run -/

/-- an event between connections that opens none -/
theorem setup_served {e : Event} (he : e.setup) : (∀ s, Good E none e s) ∧ serving none e = none := by
  have hclose : ∀ fd s, Good E none (.close fd) s := by
    rintro fd s c ⟨⟩
  cases e <;> first | exact ⟨fun _ => trivial, rfl⟩ | exact ⟨hclose _, rfl⟩ | cases he

theorem run_served (n : ℕ) : Watched (service E) none (run E n) s fun _ _ _ => True := by
  have apart : ∀ {α : Type} {x : Sys α} {t : St}, Within offline x →
      Watched (service E) none x t fun k' _ _ => k' = none := fun hx => offline_keeps E none_noted rfl hx
  refine watched_bind (quiet_op E rfl rfl fun _ => ?_)
  refine Watched.seq_at (apart (startGreeter_offline E)) fun _ t => ?_
  have hloop : Watched (service E) none (Prog.loop .cut (turn E) n) t fun k' _ _ => k' = none := by
    refine watched_loop (I := fun k _ => k = none) (fun _ _ _ => trivial) (fun k s hk => ?_) n none t rfl
    exact Watched.mono (turn_served E hk) fun k goes t h => by cases goes <;> exact h
  refine Watched.seq_at hloop fun _ t => ?_
  refine Watched.seq_at (apart (stopGreeter_offline E)) fun _ t => ?_
  refine Watched.seq_at (apart (terminate_offline E)) fun _ t => ?_
  have closing : ∀ {e : Event} {f : St → St} {t : St}, e.setup → Watched (service E) none (op E e f) t
      fun k' _ _ => k' = none := fun he => service_op E (fun _ => (setup_served E he).1 _) fun _ => (setup_served E he).2
  have hcleanup : Watched (service E) none (cleanupIpcSocket E) t fun k' _ _ => k' = none := by
    refine watched_bind (watched_get ?_)
    have hclosed : Watched (service E) none (Prog.when (t.serverSocketFd ≥ 0) do
        close E t.serverSocketFd
        op E .assign fun s => { s with serverSocketFd := -1 }) t fun k' _ _ => k' = none :=
      watched_when (fun _ => Watched.seq_at (closing rfl) fun _ _ => closing rfl) fun _ => rfl
    exact Watched.seq_at hclosed fun _ t => watched_ite (fun _ => closing rfl) fun _ => watched_pure rfl
  exact Watched.seq_at hcleanup fun _ t => service_op E (fun _ => rfl) fun _ => trivial

/-- **Every run serves its clients by the protocol.** -/
theorem history_served (n : ℕ) : (service E).accepts none (history E n) := by
  apply Watched.accepts (q := fun _ _ _ => True)
  have hinit : Watched (service E) none (init E) (boot E) fun k _ _ => k = none := by
    refine Watched.mono (Within.watched (J := (· = none)) (init_setup E) rfl ?_ fun _ _ _ _ => trivial) fun _ _ _ h => h.1
    rintro k e t rfl he _
    exact ⟨(setup_served E he).1 t, (setup_served E he).2⟩
  refine Watched.seq_at hinit fun ok t => ?_
  exact watched_ite (fun _ => run_served E n) fun _ => watched_pure trivial

end Parts

/-! ## Connections -/

/-- inside a connection -/
def Inside (e : Event) : Prop :=
  match e with
  | .accept (some _) => False
  | .close _ => False
  | _ => True

/-- what happened on a connection since it was accepted -/
def Call.of (mid : List (Event × St)) : Call := (events mid).foldl Call.step {}

/-- the connection that is being served after a part of a run -/
def callAt (pre : List (Event × St)) : Option Call := (events pre).foldl serving none

theorem after_eq_callAt (E : Env) (pre : List (Event × St)) : (service E).after none pre = callAt pre :=
  List.foldl_map.symm

theorem serving_inside {e : Event} (he : Inside e) (k : Option Call) : serving k e = k.map fun c => c.step e := by
  unfold serving
  split <;> first | rfl | exact he.elim

/-- a connection that is being served was accepted, and not closed since -/
theorem callAt_since {pre : List (Event × St)} : ∀ {c : Call}, callAt pre = some c →
    ∃ before fd s mid, pre = before ++ (.accept (some fd), s) :: mid ∧ (∀ p ∈ mid, Inside p.1) ∧ c = Call.of mid := by
  induction pre using List.reverseRecOn with
  | nil => exact fun h => by cases h
  | append_singleton pre p ih =>
    intro c h
    have hlast : callAt (pre ++ [p]) = serving (callAt pre) p.1 := by simp [callAt]
    rw [hlast] at h
    by_cases hinside : Inside p.1
    · rw [serving_inside hinside, Option.map_eq_some_iff] at h
      obtain ⟨c', hc', rfl⟩ := h
      obtain ⟨before, fd, s, mid, rfl, hmid, rfl⟩ := ih hc'
      refine ⟨before, fd, s, mid ++ [p], by simp, ?_, by simp [Call.of]⟩
      exact List.forall_mem_append.2 ⟨hmid, by simpa using hinside⟩
    · obtain ⟨e, s⟩ := p
      cases e with
      | accept fd =>
        cases fd with
        | none => exact absurd trivial hinside
        | some fd =>
          obtain rfl := Option.some_inj.1 h
          exact ⟨pre, fd, s, [], rfl, by simp, rfl⟩
      | close fd => cases h
      | _ => exact absurd trivial hinside

/-- the requests of a connection were received on it -/
theorem received_of_mem {mid : List (Event × St)} {req : IpcMessage} (h : req ∈ (Call.of mid).requests) :
    ∃ t, (.received req, t) ∈ mid := by
  have key : ∀ (l : List (Event × St)) (c : Call), req ∈ ((events l).foldl Call.step c).requests →
      req ∈ c.requests ∨ ∃ t, (.received req, t) ∈ l := by
    intro l
    induction l with
    | nil => exact fun c h => Or.inl h
    | cons p l ih =>
      intro c h
      rcases ih (c.step p.1) h with h | ⟨t, ht⟩
      · have hsame : (c.step p.1).requests = c.requests ∨
            ∃ r, p.1 = .received r ∧ (c.step p.1).requests = c.requests ++ [r] := by
          cases p.1 with
          | received r => exact Or.inr ⟨r, rfl, rfl⟩
          | _ => exact Or.inl rfl
        rcases hsame with hsame | ⟨r, hp, hmore⟩
        · exact Or.inl (hsame ▸ h)
        · rw [hmore, List.mem_append, List.mem_singleton] at h
          rcases h with h | rfl
          · exact Or.inl h
          · exact Or.inr ⟨p.2, by rw [← hp]; exact List.mem_cons_self⟩
      · exact Or.inr ⟨t, List.mem_cons_of_mem _ ht⟩
  exact (key mid {} h).resolve_left List.not_mem_nil

/-- at most one request and one answer, and the request is what the line says -/
structure Call.Regular (E : Env) (c : Call) : Prop where
  requests : c.requests.length ≤ 1
  answers : c.answers.length ≤ 1
  decoded : ∀ req ∈ c.requests, ∃ line, c.line = some line ∧ deserialize E.json line = .ok req

theorem good_regular {E : Env} (k : Option Call) (e : Event) (s : St) (hk : ∀ c, k = some c → c.Regular E)
    (hgood : Good E k e s) : ∀ c, serving k e = some c → c.Regular E := by
  intro c hc
  by_cases hinside : Inside e
  · rw [serving_inside hinside, Option.map_eq_some_iff] at hc
    obtain ⟨c', rfl, rfl⟩ := hc
    have h := hk c' rfl
    cases e with
    | read chunk =>
      obtain ⟨_, ⟨⟩, hnone⟩ := hgood
      exact ⟨h.requests, h.answers, fun req hreq => absurd (hnone ▸ hreq) List.not_mem_nil⟩
    | received req =>
      obtain ⟨_, line, ⟨⟩, hnone, hline, hdecode⟩ := hgood
      have hrequests : (c'.step (.received req)).requests = [req] := congrArg (· ++ [req]) hnone
      refine ⟨by rw [hrequests]; rfl, h.answers, fun req' hreq => ⟨line, hline, ?_⟩⟩
      rw [hrequests, List.mem_singleton] at hreq
      rw [hreq]
      exact hdecode
    | reply resp =>
      obtain ⟨_, req, ⟨⟩, -, hnone, -⟩ := hgood
      have hanswers : (c'.step (.reply resp)).answers = [resp] := congrArg (· ++ [resp]) hnone
      exact ⟨h.requests, by rw [hanswers]; rfl, h.decoded⟩
    | _ => exact ⟨h.requests, h.answers, h.decoded⟩
  · cases e with
    | accept fd =>
      cases fd with
      | none => exact absurd trivial hinside
      | some fd =>
        obtain rfl := Option.some_inj.1 hc
        exact ⟨Nat.zero_le 1, Nat.zero_le 1, by simp⟩
    | close fd => cases hc
    | _ => exact absurd trivial hinside

section Results

variable {E : Env} {n : ℕ} {pre post : List (Event × St)} {e : Event} {s : St}

/-- what the protocol says of a moment of a run -/
theorem good_at (h : history E n = pre ++ (e, s) :: post) :
    Good E (callAt pre) e s ∧ ∀ c, callAt pre = some c → c.Regular E := by
  have haccepts := history_served E n
  have hgood := (service E).accepts_split haccepts h
  rw [h, Monitor.accepts_append] at haccepts
  have hregular := (service E).accepts_keeps (J := fun k => ∀ c, k = some c → Call.Regular E c) good_regular
    (fun _ h => by cases h) haccepts.1
  rw [after_eq_callAt] at hgood hregular
  exact ⟨hgood, hregular⟩

/-- **The machine is powered down on request only.** When logind is asked for an action, the request of the connection
that is being served names that action; logind was not asked on this connection before, and the request is not answered
yet. -/
theorem logind_on_request {action : Str} {ok : Bool} (h : history E n = pre ++ (.logind action ok, s) :: post) :
    ∃ before fd t mid line req, pre = before ++ (.accept (some fd), t) :: mid ∧ (∀ p ∈ mid, Inside p.1) ∧
      (Call.of mid).line = some line ∧ deserialize E.json line = .ok req ∧ (Call.of mid).requests = [req] ∧
      req.type = .powerAction ∧ req.powerAction = action ∧ action ∈ powerActions ∧ (Call.of mid).powers = [] ∧
      (Call.of mid).answers = [] := by
  obtain ⟨⟨c, req, hc, hrequests, htype, rfl, hmem, hpowers, hanswers⟩, hregular⟩ := good_at h
  obtain ⟨before, fd, t, mid, hpre, hmid, rfl⟩ := callAt_since hc
  obtain ⟨line, hline, hdecode⟩ := (hregular _ hc).decoded req (by simp [hrequests])
  exact ⟨before, fd, t, mid, line, req, hpre, hmid, hline, hdecode, hrequests, htype, rfl, hmem, hpowers, hanswers⟩

/-- a connection that was accepted and not closed since is being served, and no other one is accepted -/
theorem callAt_open {before : List (Event × St)} {fd : ℤ} {t : St} (mid : List (Event × St)) :
    ∀ {post}, history E n = before ++ (.accept (some fd), t) :: mid ++ post → (∀ p ∈ mid, ∀ fd, p.1 ≠ .close fd) →
      (∀ p ∈ mid, Inside p.1) ∧ callAt (before ++ (.accept (some fd), t) :: mid) = some (Call.of mid) := by
  induction mid using List.reverseRecOn with
  | nil =>
    intro post _ _
    refine ⟨by simp, ?_⟩
    rw [callAt, events, List.map_append, List.foldl_append]
    rfl
  | append_singleton mid p ih =>
    intro post h hmid
    rw [List.forall_mem_append] at hmid
    have hsplit : history E n = (before ++ (.accept (some fd), t) :: mid) ++ (p.1, p.2) :: post := by
      rw [h]
      simp
    obtain ⟨hinside, hcall⟩ := ih hsplit hmid.1
    have hp : Inside p.1 := by
      have hgood := (good_at hsplit).1
      rw [hcall] at hgood
      have hclose := hmid.2 p (by simp)
      rcases p with ⟨e, u⟩
      cases e with
      | accept fd => cases hgood
      | close fd => exact absurd rfl (hclose fd)
      | _ => trivial
    refine ⟨List.forall_mem_append.2 ⟨hinside, by simpa using hp⟩, ?_⟩
    have hlast : callAt (before ++ (.accept (some fd), t) :: mid ++ [p]) = serving (some (Call.of mid)) p.1 := by
      rw [← hcall]
      simp [callAt]
    rw [← List.cons_append, ← List.append_assoc, hlast, serving_inside hp]
    simp [Call.of]

/-- **No request is left without an answer.** While a connection is open, no other one is accepted and nothing is polled
for; when it is closed, it has had either no request and no answer, or one of each. -/
theorem connection_settled {before mid : List (Event × St)} {fd fd' : ℤ} {t : St}
    (h : history E n = before ++ (.accept (some fd), t) :: mid ++ (.close fd', s) :: post)
    (hmid : ∀ p ∈ mid, ∀ fd, p.1 ≠ .close fd) :
    (∀ p ∈ mid, (∀ fd, p.1 ≠ .accept fd) ∧ ∀ answer, p.1 ≠ .poll answer) ∧
    ((Call.of mid).requests = [] ∧ (Call.of mid).answers = [] ∨
      ∃ req resp, (Call.of mid).requests = [req] ∧ (Call.of mid).answers = [resp]) := by
  constructor
  · intro p hp
    obtain ⟨a, b, rfl⟩ := List.append_of_mem hp
    have hsplit : history E n =
        (before ++ (.accept (some fd), t) :: a) ++ (p.1, p.2) :: (b ++ (.close fd', s) :: post) := by
      rw [h]
      simp
    have hcall := (callAt_open a hsplit fun q hq => hmid q (by simp [hq])).2
    have hgood := (good_at hsplit).1
    rw [hcall] at hgood
    constructor
    · intro fd he
      rw [he] at hgood
      cases hgood
    · intro answer he
      rw [he] at hgood
      cases hgood
  · have hcall := (callAt_open mid h hmid).2
    obtain ⟨hgood, hregular⟩ := good_at h
    have hlength := hgood _ hcall
    have hmost := (hregular _ hcall).requests
    cases hrequests : (Call.of mid).requests with
    | nil =>
      rw [hrequests] at hlength
      exact Or.inl ⟨rfl, List.length_eq_zero_iff.1 hlength.symm⟩
    | cons req rest =>
      rw [hrequests, List.length_cons] at hlength hmost
      obtain rfl : rest = [] := List.length_eq_zero_iff.1 (by omega)
      obtain ⟨resp, hanswers⟩ := List.length_eq_one_iff.1 hlength.symm
      exact Or.inr ⟨req, resp, rfl, hanswers⟩

end Results

/-! ## Witnesses -/

/-- a client asks for a reboot -/
def asking : Env := machine [greeterAccount] [] { type := .powerAction, powerAction := lit "reboot" }

def closes : Event → Bool
  | .close _ => true
  | _ => false

theorem logind_on_request_reboot : ∃ mid req, (Call.of mid).requests = [req] ∧ req.powerAction = lit "reboot" ∧
    (Call.of mid).answers = [] := by
  obtain ⟨s, -, hsplit⟩ := split_at (l := history asking 1) (m := 31) (a := .logind (lit "reboot") true) (by decide +kernel)
  obtain ⟨-, -, -, mid, -, req, -, -, -, -, hrequests, -, haction, -, -, hanswers⟩ := logind_on_request hsplit
  exact ⟨mid, req, hrequests, haction, hanswers⟩

theorem connection_settled_reboot : ∃ req resp, (Call.of (((history asking 1).drop 27).take 8)).requests = [req] ∧
    (Call.of (((history asking 1).drop 27).take 8)).answers = [resp] := by
  obtain ⟨t, -, haccept⟩ := split_at (l := history asking 1) (m := 26) (a := .accept (some 4)) (by decide +kernel)
  obtain ⟨s, -, hclose⟩ := split_at (l := (history asking 1).drop 27) (m := 8) (a := .close 4) (by decide +kernel)
  have hopen : ∀ p ∈ ((history asking 1).drop 27).take 8, closes p.1 = false := by decide +kernel
  have hsplit : history asking 1 = ((history asking 1).take 26 ++ (.accept (some 4), t) ::
      ((history asking 1).drop 27).take 8) ++ (.close 4, s) :: ((history asking 1).drop 27).drop 9 := by
    rw [List.append_assoc, List.cons_append, ← hclose]
    exact haccept
  have hmid : ∀ p ∈ ((history asking 1).drop 27).take 8, ∀ fd, p.1 ≠ .close fd := by
    intro p hp fd he
    have hp := hopen p hp
    rw [he] at hp
    cases hp
  have hne : (Call.of (((history asking 1).drop 27).take 8)).requests ≠ [] := by decide +kernel
  exact ((connection_settled hsplit hmid).2).resolve_left fun h => hne h.1

end Miqudm.Service
