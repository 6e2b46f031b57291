/-
What a stop request does.

`Daemon::stop()` clears `m_running` and nothing else; the daemon learns of it when it reads the flag, at the head of the
poll loop and after a session. Before that it may still start a process, and the entry of `run` sets the flag again.

- `Heeded`: the request comes after the flag was found down, or in a run whose `init` fails, or it is `Spared`: `run` has
  been entered, no start is on its way, and up to the next look at the flag no greeter is found dead and no login that
  PAM has granted is answered;
- `stop_request`: after a request that is heeded nothing is started. So it is when the request comes during a session or
  interrupts `poll`;
- `stop_during_session`: a stop during a session sends SIGTERM before the next wait exactly if there is no next wait.
-/
import Miqudm.Daemon.ConfigInForce
import Miqudm.Daemon.Intent
import Miqudm.Daemon.Survival

namespace Miqudm.StopRequest

open Miqudm.Core Prog

/-! ## What the monitor remembers -/

/-- stopped, and about to look at the flag before anything is started -/
structure Bound (k : Watch) : Prop where
  stopped : k.stopped = true
  bound : k.session.isSome ∨ k.still = true ∨ k.told = true

theorem Bound.not_starts {k : Watch} {e : Event} {s : St} (h : Bound k) (hgood : k.Good e s) : e.starts = false := by
  by_contra hstarts
  have hstarts : e.starts = true := by simpa using hstarts
  obtain ⟨htold, hstill⟩ := hgood.starts hstarts
  rcases h.bound with hsession | hs | ht
  · obtain ⟨w, hw⟩ := Option.isSome_iff_exists.1 hsession
    have hwaits := hgood.session w hw
    cases e <;> first | exact hwaits.elim | cases hstarts
  · rw [hstill] at hs
    cases hs
  · rw [htold] at ht
    cases ht

theorem Bound.step {k : Watch} {e : Event} (h : Bound k) : Bound (k.step e) := by
  obtain ⟨hstopped, hbound⟩ := h
  have hlook : Bound k.look := ⟨hstopped, by simp [Watch.look, hstopped]⟩
  unfold Watch.step
  split
  · exact ⟨rfl, hbound⟩
  · exact hlook
  · exact hlook
  · exact ⟨hstopped, Or.inr (Or.inl rfl)⟩
  · exact ⟨hstopped, hbound⟩
  · exact ⟨hstopped, Or.inl rfl⟩
  · exact ⟨hstopped, by simpa using hbound⟩
  · exact ⟨hstopped, by simpa using hbound⟩
  · -- the session has gone, and the flag is read next
    refine ⟨hstopped, Or.inr ?_⟩
    rcases hbound with hsession | hstill | htold
    · simp [hsession]
    · simp [hstill]
    · exact Or.inr htold
  · exact ⟨hstopped, hbound⟩
  · exact ⟨hstopped, hbound⟩
  · exact ⟨hstopped, hbound⟩

theorem bound_stop {k : Watch} (h : k.session.isSome) : Bound (k.step .stop) := ⟨rfl, Or.inl h⟩

theorem session_stop (k : Watch) : (k.step .stop).session = k.session := rfl

/-- **Bound to look at the flag, the daemon starts nothing.** -/
theorem not_starts_of_bound {l : List (Event × St)} {k : Watch} (hk : Bound k) (haccepts : supervision.accepts k l) :
    ∀ p ∈ l, p.1.starts = false :=
  supervision.accepts_forall (fun _ _ _ hk hgood => ⟨hk.not_starts hgood, hk.step⟩) hk haccepts

theorem stopped_step {k : Watch} {e : Event} (h : k.stopped = true) : (k.step e).stopped = true := by
  unfold Watch.step
  split <;> first | exact h | rfl

/-- once stopped, the daemon finds the flag down whenever it reads it -/
theorem down_of_stopped {l : List (Event × St)} {k : Watch} (hk : k.stopped = true) (haccepts : supervision.accepts k l) :
    ∀ p ∈ l, p.1.looks → p.2.running = false := by
  refine supervision.accepts_forall (J := fun k => k.stopped = true) (P := fun e s => e.looks → s.running = false)
    (fun k e s hk hgood => ⟨fun hlooks => ?_, stopped_step hk⟩) hk haccepts
  rw [hgood.looks hlooks, hk]
  rfl

/-- while a session is running the daemon waits for it -/
theorem session_after {l : List (Event × St)} {pid : ℤ} : ∀ {k : Watch} {entered : Bool},
    k.session = some ⟨pid, entered⟩ → supervision.accepts k l → (∀ q ∈ l, ∀ status, q.1 ≠ .waitDone pid status) →
    ∃ entered', (supervision.after k l).session = some ⟨pid, entered'⟩ := by
  induction l with
  | nil => exact fun hk _ _ => ⟨_, hk⟩
  | cons q l ih =>
    intro k entered hk haccepts hnot
    rw [List.forall_mem_cons] at hnot
    have hwaits := haccepts.1.session _ hk
    obtain ⟨e, s⟩ := q
    cases e with
    | stop => exact ih hk haccepts.2 hnot.2
    | assign => exact ih hk haccepts.2 hnot.2
    | waiting p => exact ih (congrArg (Option.map _) hk) haccepts.2 hnot.2
    | waitInterrupted p => exact ih (congrArg (Option.map _) hk) haccepts.2 hnot.2
    | waitDone p status =>
      obtain ⟨rfl, -⟩ := hwaits
      exact absurd rfl (hnot.1 status)
    | _ => exact hwaits.elim

/-- what comes between the launch of a session and the report of its end -/
def awaits (pid : ℤ) : Event → Bool
  | .stop => true
  | .assign => true
  | .waiting p => p = pid
  | .waitInterrupted p => p = pid
  | _ => false

/-- **The daemon waits for its session to the end.** Either it is in waitpid already, and that reports the end at once,
or it enters waitpid. -/
theorem waits_to_end {pid : ℤ} {l : List (Event × St)} : ∀ {k : Watch} {entered : Bool},
    k.session = some ⟨pid, entered⟩ → supervision.accepts k l → (supervision.after k l).session = none →
    ∃ a status u b, l = a ++ (.waitDone pid status, u) :: b ∧ (∀ q ∈ a, awaits pid q.1 = true) ∧
      ((∀ q ∈ a, q.1 = .stop) ∧ entered = true ∨ ∃ a₁ v a₂, a = a₁ ++ (.waiting pid, v) :: a₂) := by
  induction l with
  | nil =>
    intro k entered hk _ hnone
    rw [Monitor.after_nil, hk] at hnone
    cases hnone
  | cons q l ih =>
    intro k entered hk haccepts hnone
    have hwaits := haccepts.1.session _ hk
    -- the wait is entered later
    have later : (supervision.step k q.1).session = some ⟨pid, false⟩ → awaits pid q.1 = true →
        ∃ a status u b, q :: l = a ++ (.waitDone pid status, u) :: b ∧ (∀ q ∈ a, awaits pid q.1 = true) ∧
          ((∀ q ∈ a, q.1 = .stop) ∧ entered = true ∨ ∃ a₁ v a₂, a = a₁ ++ (.waiting pid, v) :: a₂) := by
      intro hstep hq
      obtain ⟨a, status, u, b, rfl, ha, ⟨-, hentered⟩ | ⟨a₁, v, a₂, rfl⟩⟩ := ih hstep haccepts.2 hnone
      · cases hentered
      · exact ⟨q :: _, status, u, b, rfl, List.forall_mem_cons.2 ⟨hq, ha⟩, Or.inr ⟨q :: a₁, v, a₂, rfl⟩⟩
    obtain ⟨e, u⟩ := q
    cases e with
    | stop =>
      obtain ⟨a, status, v, b, rfl, ha, hentry⟩ := ih (k := supervision.step k .stop) hk haccepts.2 hnone
      refine ⟨(.stop, u) :: a, status, v, b, rfl, List.forall_mem_cons.2 ⟨rfl, ha⟩, ?_⟩
      rcases hentry with ⟨hstops, hentered⟩ | ⟨a₁, w, a₂, rfl⟩
      · exact Or.inl ⟨List.forall_mem_cons.2 ⟨rfl, hstops⟩, hentered⟩
      · exact Or.inr ⟨(.stop, u) :: a₁, w, a₂, rfl⟩
    | assign =>
      have hentered : entered = false := hwaits
      exact later (hentered ▸ hk) rfl
    | waiting p =>
      obtain ⟨rfl, -⟩ := hwaits
      obtain ⟨a, status, v, b, rfl, ha, -⟩ := ih (k := supervision.step k (.waiting p)) (congrArg (Option.map _) hk)
        haccepts.2 hnone
      refine ⟨(.waiting p, u) :: a, status, v, b, rfl, List.forall_mem_cons.2 ⟨by simp [awaits], ha⟩, ?_⟩
      exact Or.inr ⟨[], u, a, rfl⟩
    | waitInterrupted p =>
      obtain ⟨rfl, -⟩ := hwaits
      exact later (congrArg (Option.map _) hk) (by simp [awaits])
    | waitDone p status =>
      obtain ⟨rfl, hentered⟩ := hwaits
      exact ⟨[], status, u, l, rfl, by simp, Or.inl ⟨by simp, hentered⟩⟩
    | _ => exact hwaits.elim

/-! ## After a stop -/

/-- the flag is read, and it is down -/
def down (p : Event × St) : Bool := p.1.looks && !p.2.running

theorem setup_of_looks {e : Event} (h : e.looks) : e.setup = false := by
  cases e <;> first | exact absurd h Bool.false_ne_true | rfl

theorem not_starts_of_looks {e : Event} (h : e.looks) : e.starts = false := by
  cases e <;> first | exact absurd h Bool.false_ne_true | rfl

section Run

variable {E : Env} {n : ℕ} {pre post : List (Event × St)} {s : St}

/-- the flag is found down: from then on nothing is started -/
theorem not_starts_of_down {q : Event × St} (hsplit : history E n = pre ++ q :: post) (hdown : down q = true) :
    ∀ p ∈ post, p.1.starts = false := by
  obtain ⟨hlooks, hflag⟩ : q.1.looks = true ∧ q.2.running = false := by simpa [down] using hdown
  obtain ⟨before, t, after, -, -, haccepts, -⟩ := (history_supervised E n).reach hsplit (setup_of_looks hlooks)
  rw [Monitor.accepts_append, Monitor.accepts_cons] at haccepts
  obtain ⟨-, hgood, hpost⟩ := haccepts
  have hstopped : (supervision.after {} after).stopped = true := by
    have h := hgood.looks hlooks
    rw [hflag] at h
    simpa using h.symm
  have hbound : Bound (supervision.step (supervision.after {} after) q.1) := by
    have hlook : Bound (supervision.after {} after).look := ⟨hstopped, by simp [Watch.look, hstopped]⟩
    obtain ⟨e, u⟩ := q
    cases e <;> first | exact absurd hlooks Bool.false_ne_true | exact hlook
  exact not_starts_of_bound hbound hpost

/-- a stop while a session is running is found before anything is started -/
theorem not_starts_of_session (hsplit : history E n = pre ++ (.stop, s) :: post) {a b : List (Event × St)} {pid : Pid}
    {child : Child} {u : St} (hpre : pre = a ++ (.fork .session (some (pid, child)), u) :: b)
    (hrunning : ∀ p ∈ b, ∀ status, p.1 ≠ .waitDone pid status) : ∀ p ∈ post, p.1.starts = false := by
  rw [hpre, List.append_assoc, List.cons_append] at hsplit
  obtain ⟨before, t, after, -, -, haccepts, -⟩ := (history_supervised E n).reach hsplit rfl
  rw [Monitor.accepts_append, Monitor.accepts_cons, Monitor.accepts_append, Monitor.accepts_cons] at haccepts
  obtain ⟨-, -, hb, -, hpost⟩ := haccepts
  obtain ⟨entered, hsession⟩ := session_after rfl hb hrunning
  exact not_starts_of_bound (bound_stop (congrArg Option.isSome hsession)) hpost

/-- a stop that interrupts `poll` is found before anything is started -/
theorem not_starts_of_interrupted {u : St} (hsplit : history E n = pre ++ (.stop, s) :: (.poll .interrupted, u) :: post) :
    ∀ p ∈ post, p.1.starts = false := by
  rw [List.append_cons] at hsplit
  obtain ⟨before, t, after, hpre, -, haccepts, -⟩ := (history_supervised E n).reach hsplit rfl
  rcases List.eq_nil_or_concat after with rfl | ⟨a, q, rfl⟩
  · have hlast := congrArg List.getLast? hpre
    simp at hlast
  · rw [List.concat_eq_append] at hpre haccepts
    rw [← List.cons_append, ← List.append_assoc] at hpre
    obtain rfl : (.stop, s) = q := List.singleton_inj.1 (List.append_inj' hpre rfl).2
    rw [List.append_assoc, Monitor.accepts_append] at haccepts
    exact not_starts_of_bound ⟨rfl, Or.inr (Or.inl rfl)⟩ haccepts.2.2.2

end Run

/-! ## What heeds a stop -/

/-- there is a greeter to start -/
def greets (E : Env) : Prop := (ConfigInForce.loaded E).general.greeterCommand ≠ []

/-- what the daemon was on its way to start after these events -/
def intent (l : List (Event × St)) : Intent := intending.after .greeter l

/-- the daemon will come to a fork whatever is answered -/
def OnWay (E : Env) (k : Intent) : Prop := k = .greeter ∧ greets E ∨ k = .session

/-- an answer that brings a start on its way: a greeter is found dead, or the success reply of a login is written -/
def Commits (E : Env) (k : Intent) (p : Event × St) : Prop :=
  k = .idle ∧ (∃ pid status, p.1 = .waitpid pid (.reaped status)) ∧ greets E ∨
  k = .granted ∧ (∃ resp, p.1 = .reply resp) ∧ Harmless E p

/-- the flag is looked at, or the loop is left -/
def turns (e : Event) : Bool := e.looks || e = .poll .failed

/-- up to the next look at the flag, or a failing `poll`, no answer brings a start on its way -/
def Clear (E : Env) : Intent → List (Event × St) → Prop
  | _, [] => True
  | k, p :: l => turns p.1 = true ∨ ¬ Commits E k p ∧ Clear E (k.step p.1) l

/-- `run` has been entered, no start is on its way, and none gets there before the flag is looked at -/
structure Spared (E : Env) (pre post : List (Event × St)) : Prop where
  entered : ∃ p ∈ pre, p.2.running = true
  idle : ¬ OnWay E (intent pre)
  clear : Clear E (intent pre) post

/-- the answers with which `init` succeeds: it can look for what it needs, and the socket is set up -/
def SetsUp (E : Env) : Prop :=
  Looks E ∧ E.socket 6 = true ∧ E.bind 7 = true ∧ E.listen 8 = true

/-- a stop between these two parts of a run is heeded -/
def Heeded (E : Env) (pre post : List (Event × St)) : Prop :=
  (∃ p ∈ pre, down p = true) ∨ ¬ SetsUp E ∨ Spared E pre post

section Heeded

variable {E : Env} {n : ℕ}

theorem ends_op (e : Event) (f : St → St) (s : St) : Prog.Ends (op E e f) s (fun _ t => t.now = s.now + 1) := by
  simp [Prog.Ends, op, interfere, sat_bind, sat_ite, St.tick, St.setRunning]

/-- a step of known length -/
theorem ends_after {α : Type} {e : Event} {f : St → St} {s : St} {m : ℕ} {x : Unit → Sys α} {q : α → St → Prop}
    (hs : s.now = m) (h : ∀ t, t.now = m + 1 → Prog.Ends (x ()) t q) : Prog.Ends (op E e f >>= x) s q :=
  Prog.Ends.seq (ends_op e f s) fun _ t ht => h t (by rw [ht, hs])

theorem setupIpcSocket_ends {s : St} (hs : s.now = 3) :
    Prog.Ends (setupIpcSocket E) s (fun ok _ => ok = true → E.socket 6 = true ∧ E.bind 7 = true ∧ E.listen 8 = true) := by
  have abandons : ∀ {fd t} {p : Prop}, Prog.Ends (abandonSocket E fd) t (fun ok _ => ok = true → p) := fun {fd t p} =>
    Prog.Ends.seq (ends_op _ _ t) fun _ u _ => Prog.Ends.seq (ends_op _ _ u) fun _ _ _ => ends_pure (by simp)
  refine ends_get_bind (ends_after hs fun t ht => Prog.Ends.seq (q := fun _ u => u.now = 5) ?_ fun _ t ht => ?_)
  · refine ends_get_bind ?_
    exact Prog.Ends.mono (ends_op _ _ t) fun _ u hu => by rw [hu, ht]
  refine ends_after ht fun t ht => Prog.Ends.seq (q := fun ok u => ok = E.socket 6 ∧ u.now = 7) ?_ fun ok t ht => ?_
  · exact ends_get_bind (ends_after ht fun u hu => ends_pure ⟨by rw [ht], hu⟩)
  obtain ⟨rfl, ht⟩ := ht
  refine ends_ite (fun hsocket => ends_get_bind (ends_get_bind (ends_after ht fun u hu => ?_))) fun _ => ends_pure (by simp)
  rw [ht]
  refine ends_ite (fun _ => abandons) fun hbind => ends_get_bind (ends_after hu fun v _ => ?_)
  rw [hu]
  refine ends_ite (fun _ => abandons) fun hlisten => ends_pure fun _ => ⟨hsocket, ?_, ?_⟩
  · simpa using hbind
  · simpa using hlisten

/-- what `init` needs to succeed -/
theorem init_ends : Prog.Ends (init E) (boot E) (fun ok _ => ok = true → SetsUp E) := by
  have hlooks := Sat.ends (init_looks E) (q := fun _ _ => Looks E) fun _ _ _ h => h
  have hsocket : Prog.Ends (init E) (boot E)
      (fun ok _ => ok = true → E.socket 6 = true ∧ E.bind 7 = true ∧ E.listen 8 = true) := by
    have hload : Prog.Ends (loadConfig E) (boot E) (fun _ s => s.now = 1) :=
      ends_get_bind (ends_ite (fun _ => trivial) fun _ => ends_op _ _ _)
    refine Prog.Ends.seq hload fun _ s hs => ends_after hs fun t ht => ?_
    refine Prog.Ends.seq (q := fun _ u => u.now = 3) (ends_get_bind ?_) fun _ u hu => setupIpcSocket_ends hu
    split
    · exact trivial
    · exact Prog.Ends.mono (ends_op _ _ t) fun _ u hu => by rw [hu, ht]
  exact Prog.Ends.mono (Prog.Ends.and hlooks hsocket) fun _ _ h hok => ⟨h.1, h.2 hok⟩

/-- when `init` fails, nothing is started -/
theorem not_starts_of_failure (h : ¬ SetsUp E) : ∀ p ∈ history E n, p.1.starts = false := by
  have setup : ∀ {l : List (Event × St)} {s : St}, (∀ p ∈ l, settingUp.allow p.1 p.2 ∧ settingUp.rel s p.2) →
      ∀ p ∈ l, p.1.starts = false := by
    intro l s hl p hp
    have hsetup : p.1.setup := (hl p hp).1
    obtain ⟨e, t⟩ := p
    cases e <;> first | rfl | cases hsetup
  refine Sat.log (P := fun l : List (Event × St) => ∀ p ∈ l, p.1.starts = false) ((sat_bind _ _).2 ?_)
  refine Sat.mono (Sat.and (init_setup E (boot E)) init_ends) (fun l ok t ⟨hl, hok⟩ => ?_) fun _ _ _ h => setup h.1.1
  refine (sat_ite _ _ _).2 ⟨fun hset => absurd (hok hset) h, fun _ => ?_⟩
  simpa using setup hl.1

/-- without a greeter command no greeter is forked -/
theorem greets_of_fork {r : Option (Pid × Child)} {u : St} (h : (.fork .greeter r, u) ∈ history E n) : greets E := by
  obtain ⟨pre, post, hsplit⟩ := List.append_of_mem h
  have hgood := intending.accepts_split (history_intends E n) hsplit
  obtain ⟨lastUser, hconfig, -⟩ := ConfigInForce.history_runsAs E n pre post _ u hsplit (by simp)
  have hcommand := (hgood.greeter r rfl).2
  rwa [hconfig] at hcommand

/-- a step that commits the daemon to nothing starts nothing, and brings nothing on its way, unless it is the last -/
theorem onWay_step {k : Intent} {e : Event} {u : St} (hk : ¬ OnWay E k) (hgood : k.Good e u)
    (hmem : (e, u) ∈ history E n) (hturns : turns e = false) (hcommits : ¬ Commits E k (e, u)) :
    e.starts = false ∧ (OnWay E (k.step e) → ¬ Harmless E (e, u)) := by
  obtain ⟨hlooks, hfailed⟩ : e.looks = false ∧ e ≠ .poll .failed := by simpa [turns] using hturns
  constructor
  · cases e with
    | fork what r =>
      cases what with
      | greeter => exact absurd (Or.inl ⟨(hgood.greeter r rfl).1, greets_of_fork hmem⟩) hk
      | session => exact absurd (Or.inr (hgood.session r rfl)) hk
    | _ => rfl
  · have hidle : ¬ OnWay E .idle := by simp [OnWay]
    intro hway
    unfold Intent.step at hway
    split at hway
    · simp [OnWay] at hway
    · cases hlooks
    · cases hlooks
    · exact absurd rfl hfailed
    · exact absurd (Or.inl ⟨rfl, ⟨_, _, rfl⟩, by simpa [OnWay] using hway⟩) hcommits
    · split_ifs at hway <;> simp [OnWay] at hway
    · exact fun hwrite => hcommits (Or.inr ⟨rfl, ⟨_, rfl⟩, hwrite⟩)
    · exact absurd hway hidle
    · exact absurd hway hidle
    · exact absurd hway hk

/-- once the loop is left, nothing is started -/
theorem not_starts_of_leaving {l : List (Event × St)} (h : intending.accepts .leaving l) : ∀ p ∈ l, p.1.starts = false := by
  refine intending.accepts_forall (J := fun k => k = .leaving) (P := fun e _ => e.starts = false) ?_ rfl h
  rintro k e s rfl hgood
  refine ⟨?_, rfl⟩
  cases e with
  | fork what r =>
    cases what with
    | greeter => cases (hgood.greeter r rfl).1
    | session => cases hgood.session r rfl
  | _ => rfl

/-- **A clear way to the next look.** Nothing is started if the look finds the flag down. -/
theorem not_starts_of_clear : ∀ {post pre : List (Event × St)} {k : Intent}, history E n = pre ++ post →
    intending.accepts k post → ¬ OnWay E k → Clear E k post → (∀ p ∈ post, p.1.looks → down p = true) →
    ∀ p ∈ post, p.1.starts = false := by
  intro post
  induction post with
  | nil => simp
  | cons q post ih =>
    intro pre k hsplit haccepts hk hclear hdown
    rw [List.forall_mem_cons] at hdown ⊢
    have hmem : q ∈ history E n := by simp [hsplit]
    cases hturns : turns q.1 with
    | true =>
      rcases Bool.or_eq_true_iff.1 hturns with hlooks | hfailed
      · exact ⟨not_starts_of_looks hlooks, not_starts_of_down hsplit (hdown.1 hlooks)⟩
      · have hpoll : q.1 = .poll .failed := by simpa using hfailed
        have hleaving : intending.step k q.1 = .leaving := by rw [hpoll]; cases k <;> rfl
        refine ⟨by rw [hpoll]; rfl, not_starts_of_leaving ?_⟩
        rw [← hleaving]
        exact haccepts.2
    | false =>
      obtain ⟨hcommits, hrest⟩ := hclear.resolve_left (by simp [hturns])
      obtain ⟨hstarts, hstep⟩ := onWay_step hk haccepts.1 hmem hturns hcommits
      refine ⟨hstarts, ?_⟩
      by_cases hway : OnWay E (k.step q.1)
      · -- the reply was not written, and ended the process
        rw [last_of_harm E hsplit (hstep hway)]
        simp
      · rw [List.append_cons] at hsplit
        exact ih hsplit haccepts.2 hway hrest hdown.2

end Heeded

/-- **A stop request.** At every point of every run at which the handler calls `Daemon::stop()`, a request that is heeded
is the end of all starts. After the entry of `run` the next look at the flag finds it down; and nothing is started when a
session is running at that point, or when the request interrupts `poll`. -/
theorem stop_request (E : Env) (n : ℕ) {pre post : List (Event × St)} {s : St}
    (hsplit : history E n = pre ++ (.stop, s) :: post) :
    (Heeded E pre post → ∀ p ∈ post, p.1.starts = false) ∧
    ((∃ p ∈ pre, p.2.running = true) → ∀ p ∈ post, p.1.looks → down p = true) ∧
    (∀ a u b pid child, pre = a ++ (.fork .session (some (pid, child)), u) :: b →
      (∀ p ∈ b, ∀ status, p.1 ≠ .waitDone pid status) → ∀ p ∈ post, p.1.starts = false) ∧
    ∀ u post', post = (.poll .interrupted, u) :: post' → ∀ p ∈ post, p.1.starts = false := by
  have hlooks : (∃ p ∈ pre, p.2.running = true) → ∀ p ∈ post, p.1.looks → down p = true := by
    intro hrun p hp hlooks
    obtain ⟨after, haccepts⟩ := (history_supervised E n).stop hsplit hrun
    rw [Monitor.accepts_append, Monitor.accepts_cons] at haccepts
    have hflag := down_of_stopped rfl haccepts.2.2 p hp hlooks
    simp [down, hlooks, hflag]
  refine ⟨?_, hlooks, ?_, ?_⟩
  · rintro (⟨q, hq, hdown⟩ | hfails | hspared)
    · obtain ⟨a, b, rfl⟩ := List.append_of_mem hq
      rw [List.append_assoc, List.cons_append] at hsplit
      exact fun p hp => not_starts_of_down hsplit hdown p (by simp [hp])
    · exact fun p hp => not_starts_of_failure (n := n) hfails p (by simp [hsplit, hp])
    · have haccepts := history_intends E n
      rw [hsplit, Monitor.accepts_append, Monitor.accepts_cons] at haccepts
      have hstop : (intent pre).step .stop = intent pre := Intent.step_calm rfl rfl
      rw [List.append_cons] at hsplit
      refine not_starts_of_clear hsplit ?_ hspared.idle hspared.clear (hlooks hspared.entered)
      rw [← hstop]
      exact haccepts.2.2
  · exact fun a u b pid child hpre hrunning => not_starts_of_session hsplit hpre hrunning
  · rintro u post' rfl
    rw [List.forall_mem_cons]
    exact ⟨rfl, not_starts_of_interrupted hsplit⟩

/-! ## During a session -/

/-- after a stop, waitpid is not entered on the process before its end without SIGTERM having been sent -/
def TermFirst (pid : ℤ) (post : List (Event × St)) : Prop :=
  ∀ a u b, post = a ++ (.waiting pid, u) :: b → (∀ q ∈ a, ∀ status, q.1 ≠ .waitDone pid status) →
    ∃ q ∈ a, q.1 = .kill pid .sigterm ∨ q.1 = .kill (-pid) .sigterm

/-- **A stop during a session.** After it the daemon does nothing but wait for the session to end; so it sends SIGTERM
before it enters waitpid exactly if it does not enter it: it is in waitpid already, and what that reports is the end. -/
theorem stop_during_session (E : Env) (n : ℕ) {pre mid post : List (Event × St)} {pid : Pid} {child : Child} {s u : St}
    (hsplit : history E n = pre ++ (.fork .session (some (pid, child)), u) :: (mid ++ (.stop, s) :: post))
    (hrunning : ∀ p ∈ mid, ∀ status, p.1 ≠ .waitDone pid status) :
    (TermFirst pid post ↔ ∃ a status v b, post = a ++ (.waitDone pid status, v) :: b ∧ ∀ p ∈ a, p.1 = .stop) ∧
    ∃ a status v b, post = a ++ (.waitDone pid status, v) :: b ∧ ∀ p ∈ a, awaits pid p.1 = true := by
  obtain ⟨before, t, after, -, -, haccepts, hnone⟩ := (history_supervised E n).reach hsplit rfl
  rw [Monitor.accepts_append, Monitor.accepts_cons, Monitor.accepts_append, Monitor.accepts_cons] at haccepts
  rw [Monitor.after_append, Monitor.after_cons, Monitor.after_append, Monitor.after_cons] at hnone
  obtain ⟨-, -, hmid, -, hpost⟩ := haccepts
  obtain ⟨entered, hsession⟩ := session_after rfl hmid hrunning
  obtain ⟨a, status, v, b, rfl, ha, hentry⟩ := waits_to_end ((session_stop _).trans hsession) hpost hnone
  refine ⟨⟨fun hterm => ⟨a, status, v, b, rfl, ?_⟩, ?_⟩, a, status, v, b, rfl, ha⟩
  · rcases hentry with ⟨hstops, -⟩ | ⟨a₁, w, a₂, rfl⟩
    · exact hstops
    · -- nothing comes before the wait that is not part of waiting
      have hfront : ∀ q ∈ a₁, awaits pid q.1 = true := fun q hq => ha q (by simp [hq])
      obtain ⟨q, hq, hkill⟩ := hterm a₁ w (a₂ ++ (.waitDone pid status, v) :: b) (by simp) fun q hq status' hdone => by
        have hawaits := hfront q hq
        rw [hdone] at hawaits
        cases hawaits
      have hawaits := hfront q hq
      rcases hkill with hkill | hkill
      · rw [hkill] at hawaits
        cases hawaits
      · rw [hkill] at hawaits
        cases hawaits
  · rintro ⟨c, status', w, d, hc, hstops⟩ a' u' b' hb' hnot
    -- the wait that is entered comes after the end
    have hfront : ∀ p ∈ c ++ [((.waitDone pid status', w) : Event × St)], ¬ ∃ p' : ℤ, p.1 = .waiting p' := by
      rw [List.forall_mem_append]
      refine ⟨fun p hp => ?_, by simp⟩
      rw [hstops p hp]
      simp
    rw [hc, List.append_cons] at hb'
    obtain ⟨e, rfl, -⟩ := split_second hb' hfront ⟨(.waiting pid, u'), by simp, _, rfl⟩
    exact absurd rfl (hnot (.waitDone pid status', w) (by simp) status')

/-! ## Witnesses -/

/-- the request comes while the daemon polls, and `poll` is interrupted -/
def polling : Env :=
  { machine [greeterAccount] [] {} with poll := fun _ => .interrupted, signal := fun n => n = 25 }

/-- the greeter that was started before is the only process -/
theorem stop_request_polling : ∃ pre s post, history polling 2 = pre ++ (.stop, s) :: post ∧
    (pre.any fun p => p.1.starts) = true ∧ ∀ p ∈ post, p.1.starts = false := by
  obtain ⟨hstop, hnext, hhead, hgreeter, hrunning, hintent⟩ : (history polling 2)[25]?.map Prod.fst = some .stop ∧
      (history polling 2)[26]?.map Prod.fst = some (.poll .interrupted) ∧
      (history polling 2)[27]?.map Prod.fst = some .head ∧
      (((history polling 2).take 25).any fun p => p.1.starts) = true ∧
      (((history polling 2).take 25).any fun p => p.2.running) = true ∧
      intent ((history polling 2).take 25) = .idle := by
    decide +kernel
  obtain ⟨s, -, hsplit⟩ := split_at hstop
  obtain ⟨u, -, hu⟩ := drop_at hnext
  obtain ⟨v, -, hv⟩ := drop_at hhead
  refine ⟨_, s, _, hsplit, hgreeter, (stop_request polling 2 hsplit).1 (Or.inr (Or.inr ⟨?_, ?_, ?_⟩))⟩
  · exact List.any_eq_true.1 hrunning
  · simp [OnWay, hintent]
  · rw [hintent, hu, hv]
    exact Or.inr ⟨by simp [Commits], Or.inl rfl⟩

/-- the request comes before `init` has done anything -/
def early : Env := { machine [greeterAccount] [] {} with signal := fun n => n = 0 }

/-- `run` sets the flag again, and starts the greeter -/
theorem lost_before_run : ¬ ∀ (E : Env) (n : ℕ) pre s post, history E n = pre ++ (.stop, s) :: post →
    ∀ p ∈ post, p.1.starts = false := by
  intro h
  obtain ⟨hstop, hstarts⟩ : (history early 0)[0]?.map Prod.fst = some .stop ∧
      ((history early 0).drop 1).any (fun p => p.1.starts) = true := by decide +kernel
  obtain ⟨s, -, hsplit⟩ := split_at hstop
  have hnone := h early 0 _ s _ hsplit
  obtain ⟨p, hp, hstart⟩ := List.any_eq_true.1 hstarts
  rw [hnone p hp] at hstart
  cases hstart

/-- the session that is started -/
def session? : Event → Option Pid
  | .fork .session (some (pid, _)) => some pid
  | _ => none

theorem session_some {e : Event} {pid : Pid} (h : session? e = some pid) :
    ∃ child, e = .fork .session (some (pid, child)) := by
  unfold session? at h
  split at h
  · cases h
    exact ⟨_, rfl⟩
  · cases h

/-- alice is logged in, and the request comes while the daemon waits for her session -/
def loggedIn (interrupts : ℕ) : Env :=
  { machine [greeterAccount, alice] [] (loginOf "alice") with
    waitpid := fun _ => .failed, interrupts := fun _ => interrupts, signal := fun n => n = 62 }

def alicePid : Pid := ⟨1059, by decide⟩

/-- the moments around the request, `next` being the one after it -/
theorem loggedIn_split {m : ℕ} {next : Event}
    (h : (history (loggedIn m) 1)[62]?.map (fun p => session? p.1) = some (some alicePid) ∧
      (history (loggedIn m) 1)[63]?.map Prod.fst = some .assign ∧
      (history (loggedIn m) 1)[64]?.map Prod.fst = some (.waiting 1059) ∧
      (history (loggedIn m) 1)[65]?.map Prod.fst = some .stop ∧
      (history (loggedIn m) 1)[66]?.map Prod.fst = some next) :
    ∃ child u v x s w, history (loggedIn m) 1 = (history (loggedIn m) 1).take 62 ++
        (.fork .session (some (alicePid, child)), u) ::
          ([(.assign, v), (.waiting 1059, x)] ++ (.stop, s) :: (history (loggedIn m) 1).drop 66) ∧
      (history (loggedIn m) 1).drop 66 = (next, w) :: (history (loggedIn m) 1).drop 67 := by
  obtain ⟨hfork, hassign, hwaiting, hstop, hnext⟩ := h
  obtain ⟨⟨e, u⟩, hm, hpid⟩ := Option.map_eq_some_iff.1 hfork
  obtain ⟨child, rfl⟩ := session_some hpid
  have hfork : (history (loggedIn m) 1)[62]?.map Prod.fst = some (.fork .session (some (alicePid, child))) := by
    rw [hm]
    rfl
  obtain ⟨u, -, hu⟩ := split_at hfork
  obtain ⟨v, -, hv⟩ := drop_at hassign
  obtain ⟨x, -, hx⟩ := drop_at hwaiting
  obtain ⟨s, -, hs⟩ := drop_at hstop
  obtain ⟨w, -, hw⟩ := drop_at hnext
  refine ⟨child, u, v, x, s, w, ?_, hw⟩
  rw [List.cons_append, List.singleton_append, ← hs, ← hx, ← hv]
  exact hu

/-- the session ends when the request comes: the daemon does not wait for it again -/
theorem stop_during_session_ended : TermFirst 1059 ((history (loggedIn 0) 1).drop 66) := by
  obtain ⟨child, u, v, x, s, w, hsplit, hend⟩ :=
    @loggedIn_split 0 (.waitDone 1059 (some (.exited 0))) (by decide +kernel)
  exact (stop_during_session (loggedIn 0) 1 hsplit (by simp)).1.2 ⟨[], _, w, _, hend, by simp⟩

/-- the request interrupts the wait: the daemon waits again, and SIGTERM is not sent -/
theorem session_outlives_stop : ¬ ∀ (E : Env) (n : ℕ) pre mid post (pid : Pid) child s u,
    history E n = pre ++ (.fork .session (some (pid, child)), u) :: (mid ++ (.stop, s) :: post) →
    (∀ p ∈ mid, ∀ status, p.1 ≠ .waitDone pid status) → TermFirst pid post := by
  intro h
  obtain ⟨child, u, v, x, s, w, hsplit, hw⟩ := @loggedIn_split 1 (.waitInterrupted 1059) (by decide +kernel)
  have hwaiting : (history (loggedIn 1) 1)[67]?.map Prod.fst = some (.waiting 1059) := by decide +kernel
  obtain ⟨y, -, hy⟩ := drop_at hwaiting
  have hterm := h (loggedIn 1) 1 _ _ _ alicePid child s u hsplit (by simp)
  rw [hw, hy] at hterm
  obtain ⟨q, hq, hkill⟩ := hterm [(.waitInterrupted 1059, w)] y _ rfl (by simp)
  obtain rfl := List.mem_singleton.1 hq
  simp at hkill

end Miqudm.StopRequest
