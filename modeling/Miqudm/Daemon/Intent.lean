/-
What the daemon is on its way to start.

`Intent` is read off the events of a run: `start_greeter` is on its way when `run` is entered, when a greeter is found
dead and when a session has gone; a session is on its way when PAM has opened it and the reply is written. Reading
`m_running` at the head of the loop, or the fork itself, is the end of it, and a `poll` that fails leads out of the loop
for good. `history_intends` says that every run forks nothing but what it is on its way to start, and a greeter only
with a greeter command.

A `Passive` part reads no flag, polls, replies and forks nothing: it does not change what is on its way
(`keeps_passive`), and from `.idle` it takes PAM or a dead greeter to set something on its way (`Event.rouses`).
-/
import Miqudm.Daemon.Domestic
import Miqudm.Daemon.Supervision

namespace Miqudm

open Miqudm.Core Prog

/-! ## The monitor -/

inductive Intent where
  | idle
  /-- `start_greeter` will be reached -/
  | greeter
  /-- PAM has opened the session of a login, and the client is not told yet -/
  | granted
  /-- the launch of a session will be reached -/
  | session
  /-- the loop is left -/
  | leaving
deriving DecidableEq, Repr

def Intent.step : Intent → Event → Intent
  | .leaving, _ => .leaving
  | _, .readRunning => .greeter
  | _, .head => .idle
  | _, .poll .failed => .leaving
  | .idle, .waitpid _ (.reaped _) => .greeter
  | .idle, .pam call => if call.opens then .granted else .idle
  | .granted, .reply _ => .session
  | .greeter, .fork .greeter _ => .idle
  | .session, .fork .session _ => .idle
  | k, _ => k

/-- a fork is on its way, that of a greeter for a command -/
structure Intent.Good (k : Intent) (e : Event) (s : St) : Prop where
  greeter : ∀ r, e = .fork .greeter r → k = .greeter ∧ s.config.general.greeterCommand ≠ []
  session : ∀ r, e = .fork .session r → k = .session

def intending : Monitor Event St Halt Intent where
  step := Intent.step
  good := Intent.Good
  stops _ _ := True

/-- nothing is forked or told, the flag is not read and nothing is waited for -/
def Event.passive : Event → Bool
  | .fork _ _ => false
  | .readRunning => false
  | .head => false
  | .poll _ => false
  | .reply _ => false
  | _ => true

/-- a greeter is found dead, or PAM opens a session -/
def Event.rouses : Event → Bool
  | .waitpid _ (.reaped _) => true
  | .pam call => call.opens
  | _ => false

section Events

variable {k : Intent} {e : Event} {s : St}

theorem Intent.good_of_passive (he : e.passive) : k.Good e s where
  greeter r h := by subst h; cases he
  session r h := by subst h; cases he

theorem Intent.good_poll {answer : PollAnswer} : k.Good (.poll answer) s where
  greeter r h := by cases h
  session r h := by cases h

theorem Intent.good_reply {resp : IpcMessage} : k.Good (.reply resp) s where
  greeter r h := by cases h
  session r h := by cases h

/-- what is on its way stays so -/
theorem Intent.step_passive (hk : k ≠ .idle) (he : e.passive) : k.step e = k := by
  unfold Intent.step
  split <;> first | rfl | exact absurd rfl hk | exact absurd he Bool.false_ne_true

theorem Intent.step_calm (he : e.passive) (hrouses : e.rouses = false) : k.step e = k := by
  by_cases hidle : k = .idle
  · subst hidle
    unfold Intent.step
    split <;> first
      | contradiction
      | rfl
      | exact absurd he Bool.false_ne_true
      | exact absurd hrouses.symm Bool.false_ne_true
      | exact if_neg (ne_true_of_eq_false hrouses)
  · exact Intent.step_passive hidle he

theorem Intent.stays (hk : k ≠ .leaving) (he : e.passive) : k.step e ≠ .leaving := by
  by_cases hidle : k = .idle
  · subst hidle
    unfold Intent.step
    split <;> first
      | contradiction
      | exact hk
      | exact absurd he Bool.false_ne_true
      | exact Intent.noConfusion
      | (split_ifs <;> exact Intent.noConfusion)
  · rwa [Intent.step_passive hidle he]

end Events

/-! ## Parts that change nothing -/

def passively : Footprint St Event Halt where
  allow e _ := e.passive
  halts _ := True
  rel _ _ := True
  refl _ := trivial
  trans _ _ := trivial

section Parts

variable (E : Env) {α : Type} {x : Sys α} {k : Intent} {s : St}

theorem Domestic.passive (h : Within domestic x) : Within passively x := by
  refine h.mono (fun e _ he => ?_) (fun _ h => h.elim) fun _ _ _ => trivial
  cases e <;> first | rfl | cases he

theorem Mild.passive {g : St → St} (h : Follows St.kept (Kept.mildStep E) x) (hcalm : Within (calmly g) x) :
    Within passively x := by
  have passive : ∀ {e : Event}, e.mild → e.calm → e.passive := by
    intro e hmild he
    cases e <;> first | rfl | exact absurd hmild Bool.false_ne_true | exact absurd he Bool.false_ne_true
  refine fun s => Sat.mono (Sat.and (h s) (hcalm s)) (fun l _ t ⟨htrail, hl, _⟩ => ?_) fun _ _ _ ⟨_, _, h⟩ => h.elim
  refine ⟨fun p hp => ⟨?_, trivial⟩, trivial⟩
  exact passive (Trail.forall_event (P := fun e => e.mild) (fun _ _ _ h => h.2) htrail p hp) (hl p hp).1

theorem keeps_passive (h : Within passively x) (hk : k ≠ .idle) : Watched intending k x s (fun k' _ _ => k' = k) := by
  refine Watched.mono (Within.watched (J := fun k' => k' = k) h rfl ?_ fun _ _ _ _ => trivial) fun _ _ _ h => h.1
  rintro _ e t rfl he -
  exact ⟨Intent.good_of_passive he, Intent.step_passive hk he⟩

theorem stays_passive (h : Within passively x) (hk : k ≠ .leaving) :
    Watched intending k x s (fun k' _ _ => k' ≠ .leaving) := by
  refine Watched.mono (Within.watched (J := fun k' => k' ≠ .leaving) h hk ?_ fun _ _ _ _ => trivial) fun _ _ _ h => h.1
  exact fun _ _ _ hk he _ => ⟨Intent.good_of_passive he, Intent.stays hk he⟩

/-- without a fork, anything may be on its way -/
theorem intends_calm {g : St → St} (h : Within (calmly g) x) : Watched intending k x s (fun _ _ _ => True) := by
  refine Watched.mono (Within.watched (J := fun _ => True) h trivial ?_ fun _ _ _ _ => trivial) fun _ _ _ _ => trivial
  refine fun k e t _ he _ => ⟨⟨fun r h => ?_, fun r h => ?_⟩, trivial⟩
  · subst h
    cases he
  · subst h
    cases he

theorem intends_op {e : Event} {f : St → St} {q : Intent → Unit → St → Prop}
    (h : ∀ b, k.Good e ((f (s.setRunning b)).tick (s.now + 1)) ∧ q (k.step e) () ((f (s.setRunning b)).tick (s.now + 1))) :
    Watched intending k (op E e f) s q := by
  refine watched_bind (watched_bind (watched_get (watched_ite (fun _ => ?_) fun _ => watched_pure ?_)))
  · refine watched_act (Intent.good_of_passive rfl) (watched_act (M := intending) ?_ ?_)
    · rw [show intending.step k .stop = k from Intent.step_calm rfl rfl]
      exact (h false).1
    · rw [show intending.step k .stop = k from Intent.step_calm rfl rfl]
      exact (h false).2
  · exact watched_act (h s.running).1 (h s.running).2

theorem keeps_op {e : Event} (he : e.passive) (hrouses : e.rouses = false) (f : St → St) :
    Watched intending k (op E e f) s (fun k' _ _ => k' = k) :=
  intends_op E fun _ => ⟨Intent.good_of_passive he, Intent.step_calm he hrouses⟩

theorem reply_intends {c : Intent} (hc : k.step (.reply {}) = c) (resp : IpcMessage) :
    Watched intending k (reply E resp) s (fun k' _ _ => k' = c) := by
  have hstep : k.step (.reply resp) = c := by rw [← hc]; cases k <;> rfl
  refine watched_bind (intends_op E fun _ => ⟨Intent.good_reply, watched_bind (watched_get ?_)⟩)
  exact watched_ite (fun _ => watched_halt trivial) fun _ => watched_pure hstep

/-! ## PAM -/

/-- the calls of PAM, and whether one opens a session -/
theorem after_domestic : ∀ {l : List (Event × St)}, (∀ p ∈ l, p.1.domestic) → intending.accepts .idle l ∧
    intending.after .idle l = if (pamCalls (events l)).any PamCall.opens then .granted else .idle := by
  have later : ∀ {l : List (Event × St)}, (∀ p ∈ l, p.1.domestic) →
      intending.accepts .granted l ∧ intending.after .granted l = .granted := by
    intro l hl
    induction l with
    | nil => exact ⟨trivial, rfl⟩
    | cons p l ih =>
      rw [List.forall_mem_cons] at hl
      have hpassive : p.1.passive := by
        obtain ⟨e, t⟩ := p
        cases e <;> first | rfl | cases hl.1
      rw [Monitor.accepts_cons, Monitor.after_cons,
        show intending.step .granted p.1 = .granted from Intent.step_passive (by decide) hpassive]
      exact ⟨⟨Intent.good_of_passive hpassive, (ih hl.2).1⟩, (ih hl.2).2⟩
  intro l hl
  induction l with
  | nil => exact ⟨trivial, rfl⟩
  | cons p l ih =>
    rw [List.forall_mem_cons] at hl
    rw [Monitor.accepts_cons, Monitor.after_cons]
    obtain ⟨e, t⟩ := p
    cases e with
    | pam call =>
      cases hopens : call.opens with
      | true =>
        rw [show intending.step .idle (.pam call) = .granted from if_pos hopens]
        refine ⟨⟨Intent.good_of_passive rfl, (later hl.2).1⟩, (later hl.2).2.trans ?_⟩
        simp [pamCalls, Event.pamCall?, hopens]
      | false =>
        rw [show intending.step .idle (.pam call) = .idle from if_neg (by simp [hopens])]
        refine ⟨⟨Intent.good_of_passive rfl, (ih hl.2).1⟩, (ih hl.2).2.trans ?_⟩
        simp [pamCalls, Event.pamCall?, hopens]
    | stop => exact ⟨⟨Intent.good_of_passive rfl, (ih hl.2).1⟩, (ih hl.2).2⟩
    | createDirectories path made => exact ⟨⟨Intent.good_of_passive rfl, (ih hl.2).1⟩, (ih hl.2).2⟩
    | assign => exact ⟨⟨Intent.good_of_passive rfl, (ih hl.2).1⟩, (ih hl.2).2⟩
    | save path => exact ⟨⟨Intent.good_of_passive rfl, (ih hl.2).1⟩, (ih hl.2).2⟩
    | _ => cases hl.1

theorem idle_of_shut (h : Within domestic x) (hshut : Shut x) :
    Watched intending .idle x s (fun k' _ _ => k' = .idle) := by
  refine Sat.mono (Sat.and (h s) (hshut s)) (fun l _ _ ⟨hl, hcalls⟩ => ?_) fun _ _ _ ⟨_, h⟩ => h.elim
  obtain ⟨haccepts, hafter⟩ := after_domestic fun p hp => (hl.1 p hp).1
  refine ⟨haccepts, hafter.trans (if_neg ?_)⟩
  simpa using hcalls

theorem end_shut (pam : PamAuth) : Shut (onPam E (pam.end_ E.pam)) := fun s =>
  onPam_spec (Q := fun cs _ _ => ∀ c ∈ cs, c.opens = false) (Sat.mono (PamAuth.end_spec : Sat (pam.end_ E.pam) s.pam _ _)
    (fun _ _ _ h c hc => PamCall.not_opens_of_releases (h.1 c hc)) fun _ _ _ h => h)

/-- the steps of a login: only when all succeed, a session is granted -/
theorem attempt_intends (req : IpcMessage) : Watched intending .idle (attempt E req) s
    (fun k' r _ => k' = if r.1 = none then .granted else .idle) := by
  refine Sat.mono (Sat.and (attempt_domestic E req s) (attempt_spec E req s)) (fun l r _ ⟨hl, hgranted, hfailed⟩ => ?_)
    fun _ _ _ ⟨_, h⟩ => h.elim
  obtain ⟨haccepts, hafter⟩ := after_domestic fun p hp => (hl.1 p hp).1
  refine ⟨haccepts, hafter.trans ?_⟩
  obtain ⟨failure, pam⟩ := r
  cases failure with
  | none =>
    obtain ⟨service, h, hsub⟩ := hgranted rfl
    have hopen : (pamCalls (events l)).any PamCall.opens = true :=
      List.any_eq_true.2 ⟨.run .openSession h true, hsub.subset (by simp [fiveSteps]), rfl⟩
    simp [hopen]
  | some message =>
    have hshut := hfailed rfl
    rw [if_neg (by simpa using hshut), if_neg (by simp)]

/-! ## The parts of a run -/

/-- at most a greeter is on its way -/
def Intent.loose (k : Intent) : Prop := k = .idle ∨ k = .greeter

theorem Intent.loose_step (hk : k.loose) {e : Event} (he : e.passive) (hopens : ∀ call, e ≠ .pam call) :
    (k.step e).loose := by
  rcases hk with rfl | rfl
  · unfold Intent.step
    split <;> first
      | contradiction
      | exact Or.inl rfl
      | exact Or.inr rfl
      | exact absurd he Bool.false_ne_true
      | exact absurd rfl (hopens _)
  · exact Or.inr (Intent.step_passive (by decide) he)

theorem startGreeter_intends : Watched intending .greeter (startGreeter E) s (fun k' _ _ => k'.loose) := by
  have part : ∀ {β : Type} {y : Sys β} {t : St}, Within domestic y → Within (calmly apartRuntime) y →
      apartRuntime s = apartRuntime t →
      Watched intending .greeter y t (fun k' _ u => k' = .greeter ∧ apartRuntime s = apartRuntime u) := by
    intro β y t hy hcalm ht
    apply Watched.and_sat (keeps_passive (Domestic.passive hy) (by decide))
    exact Sat.ends (hcalm.after ht) fun _ _ _ h => h.2
  refine watched_bind (watched_get (watched_ite (fun _ => watched_pure (Or.inr rfl)) fun hc => ?_))
  have hcommand : s.config.general.greeterCommand ≠ [] := fun h => hc (Or.inr h)
  refine Watched.seq (part (renewGreeterPam_domestic E) (Calm.wider (renewGreeterPam_calm E) fun _ => rfl) rfl) ?_
  rintro _ _ t ⟨rfl, ht⟩
  refine Watched.seq (part (domestic_onPam E _) (Calm.wider (onPam_calm E _) fun _ => rfl) ht) ?_
  rintro _ ⟨ok, pam⟩ t ⟨rfl, ht⟩
  refine Watched.seq (part (setGreeterPam_domestic E pam) (Calm.wider (setGreeterPam_calm E pam) fun _ => rfl) ht) ?_
  rintro _ _ t ⟨rfl, ht⟩
  refine Watched.seq (part (within_when (openGreeterPam_domestic E pam _))
    (Calm.wider (within_when (openGreeterPam_calm E pam _)) fun _ => rfl) ht) ?_
  rintro _ _ t ⟨rfl, ht⟩
  refine Watched.seq (part (makeRuntimeDir_domestic E _) (Calm.wider (makeRuntimeDir_calm E _) fun _ => rfl) ht) ?_
  rintro _ runtimeDir t ⟨rfl, ht⟩
  -- the fork, and the pid when there is a child
  have hconfig : s.config = t.config := same_of_erased ht fun _ => rfl
  refine watched_bind (watched_bind (watched_get (watched_bind (intends_op E fun b => ⟨⟨fun _ _ => ?_, ?_⟩, ?_⟩))))
  · exact ⟨rfl, hconfig ▸ hcommand⟩
  · exact fun _ h => by cases h
  · refine watched_pure ?_
    show Watched intending .idle _ _ _
    split
    · exact watched_pure (show Intent.idle.loose from Or.inl rfl)
    · exact Watched.mono (keeps_op E rfl rfl _) fun _ _ _ h => Or.inl h

theorem launch_intends (user : UserInfo) (session : SessionInfo) (pamEnvs : List Str) (vt : ℤ) :
    Watched intending .session (launch E user session pamEnvs vt) s (fun k' _ _ => k' ≠ .leaving) := by
  refine Watched.seq_at (keeps_op E rfl rfl _) fun _ t => ?_
  refine Watched.seq_at (keeps_passive (Mild.passive E (isRunning_mild E) (isRunning_calm E)) (by decide)) fun _ t => ?_
  refine watched_ite (fun _ => watched_pure (by decide)) fun _ => ?_
  refine watched_bind (watched_bind (watched_get (watched_bind (intends_op E fun b => ⟨⟨?_, fun _ _ => rfl⟩, ?_⟩))))
  · exact fun _ h => by cases h
  · refine watched_pure ?_
    split
    · exact watched_pure (show Intent.idle ≠ .leaving by decide)
    · refine Watched.seq_at (keeps_op E rfl rfl _) fun _ t => watched_pure (show Intent.idle ≠ .leaving by decide)

theorem readRunning_intends (hk : k ≠ .leaving) :
    Watched intending k (readRunning E) s (fun k' _ _ => k' = .greeter) := by
  have hstep : k.step .readRunning = .greeter := by
    cases k <;> first | rfl | exact absurd rfl hk
  refine watched_bind (intends_op E fun b => ⟨⟨?_, ?_⟩, watched_bind (watched_get (watched_pure hstep))⟩)
  · exact fun _ h => by cases h
  · exact fun _ h => by cases h

theorem serveSession_intends (req : IpcMessage) (pam : PamAuth) :
    Watched intending .session (serveSession E req pam) s (fun k' _ _ => k'.loose) := by
  have domestic : ∀ {β : Type} {y : Sys β} {t : St}, Within domestic y →
      Watched intending .session y t (fun k' _ _ => k' = .session) := fun hy => keeps_passive (Domestic.passive hy) (by decide)
  refine watched_bind (Watched.seq_at (keeps_op E rfl rfl _) fun _ t => ?_)
  refine Watched.mono (keeps_passive (Mild.passive E (releaseGreeter_mild E) (releaseGreeter_calm E)) (by decide)) ?_
  rintro _ _ t rfl
  refine watched_bind (watched_get (watched_bind ?_))
  refine Watched.mono (domestic (rememberLastUser_domestic E req)) ?_
  rintro _ _ t rfl
  refine Watched.seq_at (domestic (setActivePam_domestic E pam)) fun _ t => ?_
  refine Watched.seq_at (domestic (domestic_onPam E _)) fun pamEnvs t => ?_
  refine Watched.seq (launch_intends E _ _ pamEnvs _) fun k launched t hk => ?_
  refine Watched.seq (q := fun k' _ _ => k' ≠ .leaving) (watched_when (fun _ => ?_) fun _ => hk) fun k _ t hk => ?_
  · refine watched_bind (Watched.mono (stays_passive (Mild.passive E (waitForExit_mild E) (waitForExit_calm E)) hk) ?_)
    exact fun _ _ _ h => watched_pure h
  refine Watched.seq (stays_passive (Domestic.passive (releaseActivePam_domestic E)) hk) fun k _ t hk => ?_
  refine Watched.seq_at (readRunning_intends E hk) fun running t => ?_
  exact watched_ite (fun _ => startGreeter_intends E) fun _ => watched_pure (Or.inr rfl)

theorem processMessage_intends (req : IpcMessage) :
    Watched intending .idle (processMessage E req) s (fun k' _ _ => k'.loose) := by
  have answer : ∀ {t} resp, Watched intending .idle (reply E resp) t (fun k' _ _ => k'.loose) := fun resp =>
    Watched.mono (reply_intends E rfl resp) fun _ _ _ h => Or.inl h
  unfold processMessage
  split
  · exact answer _
  · exact Watched.seq_at (keeps_op E rfl rfl _) fun _ t => watched_bind (watched_get (answer _))
  · refine watched_bind (watched_cacheSessions E (fun _ => trivial) fun sessions _ => ?_)
    refine Watched.mono (keeps_op E rfl rfl _) ?_
    rintro _ _ t rfl
    exact watched_bind (watched_get (answer _))
  · have called : Watched intending .idle (powerCall E req.powerAction) s (fun k' _ _ => k' = .idle) := by
      refine watched_ite (fun _ => ?_) fun _ => watched_pure rfl
      exact watched_bind (watched_get (Watched.seq_at (keeps_op E rfl rfl _) fun _ _ => watched_pure rfl))
    exact Watched.seq_at called fun _ t => answer _
  · rw [handleLoginRequest_eq]
    refine Watched.seq (attempt_intends E req) ?_
    rintro _ ⟨failure, pam⟩ t rfl
    cases failure with
    | some message =>
      have refused : Watched intending .idle (reply E { type := .response, success := false, message := message }) t
          (fun k' _ _ => k' = .idle) := reply_intends E rfl _
      refine Watched.seq_at refused fun _ u => ?_
      refine Watched.seq_at (idle_of_shut (domestic_onPam E _) (end_shut E pam)) fun _ u => watched_pure (Or.inl rfl)
    | none => exact Watched.seq_at (reply_intends E rfl granted) fun _ u => serveSession_intends E req pam
  · exact answer _

theorem readLoop_intends : ∀ (chunks : List Str) (accumulated : Str) (s : St),
    Watched intending .idle (readLoop E accumulated chunks) s (fun k' _ _ => k'.loose) := by
  have eof : ∀ {s}, Watched intending .idle (op E (.read []) id) s (fun k' _ _ => k'.loose) :=
    Watched.mono (keeps_op E rfl rfl _) fun _ _ _ h => Or.inl h
  intro chunks
  induction chunks with
  | nil => exact fun _ _ => eof
  | cons chunk chunks ih =>
    intro accumulated s
    refine watched_ite (fun _ => eof) fun _ => Watched.seq_at (keeps_op E rfl rfl _) fun _ t => ?_
    split
    · exact ih _ t
    · refine Watched.seq_at (keeps_op E rfl rfl _) fun _ t => ?_
      split
      · exact watched_halt trivial
      · refine Watched.seq_at (keeps_op E rfl rfl _) fun _ t => ?_
        refine Watched.seq (processMessage_intends E _) fun k _ t hk => ?_
        exact Watched.mono (keeps_op E rfl rfl _) fun _ _ _ h => h ▸ hk

theorem acceptClient_intends : Watched intending .idle (acceptClient E) s (fun k' _ _ => k'.loose) := by
  have later : ∀ {k : Intent} {t : St} {e : Event} (f : St → St), k.loose → e.passive → e.rouses = false →
      Watched intending k (op E e f) t (fun k' _ _ => k'.loose) := fun f hk he hrouses =>
    Watched.mono (keeps_op E he hrouses f) fun _ _ _ h => h ▸ hk
  refine watched_bind (watched_get ?_)
  split
  · exact later id (Or.inl rfl) rfl rfl
  · refine Watched.seq_at (keeps_op E rfl rfl _) fun _ t => ?_
    refine Watched.seq (q := fun k' _ _ => k'.loose) ?_ fun k _ t hk => later _ hk rfl rfl
    refine Watched.seq_at (keeps_op E rfl rfl _) fun _ t => ?_
    exact Watched.seq (readLoop_intends E _ [] t) fun k _ t hk => later _ hk rfl rfl

theorem watchGreeter_intends (hk : k.loose) : Watched intending k (watchGreeter E) s (fun k' _ _ => k'.loose) := by
  have probe : ∀ {k : Intent} {t : St} (pid : ℤ) (answer : WaitAnswer), k.loose →
      Watched intending k (op E (.waitpid pid answer) id) t (fun k' _ _ => k' = k.step (.waitpid pid answer)) :=
    fun pid answer hk => intends_op E fun _ => ⟨Intent.good_of_passive rfl, rfl⟩
  have hprobe : ∀ {k : Intent} (pid : ℤ) (answer : WaitAnswer), k.loose → (k.step (.waitpid pid answer)).loose :=
    fun pid answer hk => Intent.loose_step hk rfl (by simp)
  refine watched_bind (watched_get (watched_ite (fun _ => ?_) fun _ => watched_pure hk))
  refine Watched.seq (q := fun k' _ _ => k'.loose) ?_ fun k running t hk => ?_
  · refine watched_bind (watched_get (watched_ite (fun _ => watched_pure hk) fun _ => ?_))
    refine Watched.seq (probe _ _ hk) ?_
    rintro _ _ t rfl
    exact watched_pure (hprobe _ _ hk)
  refine watched_ite (fun _ => watched_bind (watched_get (watched_bind (Watched.mono (probe _ _ hk) ?_)))) fun _ =>
    watched_pure hk
  rintro _ _ t rfl
  split
  · case _ status hanswer =>
    have hstep : ∀ pid, k.step (.waitpid pid (.reaped status)) = .greeter := fun _ => by rcases hk with rfl | rfl <;> rfl
    rw [hanswer, hstep]
    refine Watched.seq_at (keeps_op E rfl rfl _) fun _ t => Watched.seq_at (keeps_op E rfl rfl _) fun _ t => ?_
    exact startGreeter_intends E
  · exact watched_pure (hprobe _ _ hk)

theorem turn_intends (hk : k.loose) :
    Watched intending k (turn E) s (fun k' goes _ => if goes then k'.loose else True) := by
  have hhead : k.step .head = .idle := by rcases hk with rfl | rfl <;> rfl
  have watch : ∀ {k u}, k.loose → Watched intending k (do watchGreeter E; return true) u
      (fun k' goes _ => if goes then k'.loose else True) := fun hk =>
    Watched.seq (watchGreeter_intends E hk) fun _ _ _ h => watched_pure h
  refine watched_bind (intends_op E fun b => ⟨⟨?_, ?_⟩, ?_⟩)
  · exact fun _ h => by cases h
  · exact fun _ h => by cases h
  rw [hhead]
  refine watched_bind (watched_get (watched_ite (fun _ => watched_pure trivial) fun _ => ?_))
  refine watched_bind (watched_get (watched_bind (intends_op E fun b => ⟨Intent.good_poll, ?_⟩)))
  split
  · case _ hpoll => rw [hpoll]; exact watched_pure (Or.inl rfl)
  · exact watched_pure trivial
  · case _ hpoll =>
    rw [hpoll]
    exact Watched.seq (acceptClient_intends E) fun _ _ _ hk => watch hk
  · case _ hpoll => rw [hpoll]; exact watch (Or.inl rfl)

/-- **Every fork of every run is on its way.** -/
theorem history_intends (n : ℕ) : intending.accepts .greeter (history E n) := by
  refine Watched.accepts (q := fun _ _ _ => True) ?_
  have hinit : Within passively (init E) := by
    refine (init_setup E).mono (fun e _ he => ?_) (fun _ _ => trivial) fun _ _ _ => trivial
    cases e <;> first | rfl | cases he
  refine Watched.seq_at (keeps_passive hinit (by decide)) fun ok t => ?_
  refine watched_ite (fun _ => ?_) fun _ => watched_pure trivial
  refine Watched.seq_at (keeps_op E rfl rfl _) fun _ t => ?_
  refine Watched.seq (startGreeter_intends E) fun k _ t hk => ?_
  refine Watched.seq (watched_loop (I := fun k _ => k.loose) (q := fun _ _ _ => True) (fun _ _ _ => trivial)
    (fun k s h => turn_intends E h) n k t hk) fun k _ t _ => ?_
  refine watched_bind (Watched.seq (q := fun _ _ _ => True) (intends_op E fun _ => ⟨Intent.good_of_passive rfl, trivial⟩) ?_)
  intro k _ t _
  refine Watched.mono (intends_calm (releaseGreeter_calm E)) fun k _ t _ => ?_
  refine Watched.seq (intends_calm (terminate_calm E)) fun k _ t _ => ?_
  refine Watched.seq (intends_calm (cleanupIpcSocket_calm E)) fun k _ t _ => ?_
  exact intends_op E fun _ => ⟨Intent.good_of_passive rfl, trivial⟩

end Parts

end Miqudm
