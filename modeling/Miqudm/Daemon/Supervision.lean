/-
What `run` supervises: its flag, its two children and the client it talks to.

`Watch` is what the events of a run show, once `run` has been entered: whether `Daemon::stop()` was called and whether
the daemon has looked at `m_running` since, whether the last fork of a greeter gave a child, which session has not been
waited for, and what the client being served was told. `Watch.Good` is what this allows of a moment:
- while a session has not been waited for, the daemon does nothing but wait for it;
- after it has looked at the flag of a stopped daemon it starts no process;
- what it reads in the flag is whether it was stopped;
- a client is told one thing, and sessions are for clients that were told of a granted login;
- at the head of the loop a greeter is tracked exactly if the last fork of one gave a child.
`run_watched` says that every run after its entry keeps these rules, and leaves no session behind.

The invariants between the parts are `Tended` (at the head of the loop), `Free` (processes may be started) and `Cleared`
(the greeter is gone, the session has not come or has gone). Each of them lasts through the parts that start and end no
process (`lasting_mild`) and through single operations without a rule (`lasting_op`).
-/
import Miqudm.Daemon.Moves
import Miqudm.Daemon.Ownership

namespace Miqudm

open Miqudm.Core Prog

/-! ## The monitor -/

/-- a session that has not been waited for -/
structure Pending where
  pid : ℤ
  /-- `waitpid` was entered, and has not reported yet -/
  entered : Bool

/-- what the events since the entry of `run` show -/
structure Watch where
  /-- the handler has called `Daemon::stop()` -/
  stopped : Bool := false
  /-- `m_running` was read since -/
  told : Bool := false
  /-- nothing is started before `m_running` is read -/
  still : Bool := false
  /-- the last fork of a greeter gave a child -/
  greeter : Bool := false
  /-- the session that has not been waited for -/
  session : Option Pending := none
  /-- what the client that was accepted last was told -/
  answer : Option IpcMessage := none

/-- `m_running` is read -/
def Watch.look (k : Watch) : Watch := { k with told := k.told || k.stopped, still := false }

def Watch.step (k : Watch) : Event → Watch
  | .stop => { k with stopped := true }
  | .head => k.look
  | .readRunning => k.look
  | .poll .interrupted => { k with still := true }
  | .fork .greeter r => { k with greeter := r.isSome }
  | .fork .session (some (pid, _)) => { k with session := some ⟨pid, false⟩ }
  | .waiting _ => { k with session := k.session.map fun w => { w with entered := true } }
  | .waitInterrupted _ => { k with session := k.session.map fun w => { w with entered := false } }
  | .waitDone _ _ => { k with still := k.still || k.session.isSome, session := none }
  | .accept (some _) => { k with answer := none }
  | .reply resp => { k with answer := some resp }
  | _ => k

/-- a process is started -/
def Event.starts : Event → Bool
  | .fork _ (some _) => true
  | _ => false

/-- `m_running` is read -/
def Event.looks : Event → Bool
  | .head => true
  | .readRunning => true
  | _ => false

/-- what can come before the end of a session: its waitpid, which is entered before it reports -/
def Event.waits (w : Pending) : Event → Prop
  | .stop => True
  | .assign => w.entered = false
  | .waiting pid => pid = w.pid ∧ w.entered = false
  | .waitInterrupted pid => pid = w.pid ∧ w.entered = true
  | .waitDone pid _ => pid = w.pid ∧ w.entered = true
  | _ => False

/-- a session is on its way -/
def Event.admits : Event → Bool
  | .launch _ _ => true
  | .fork .session _ => true
  | _ => false

/-- the reply to a login whose steps all succeeded -/
def granted : IpcMessage := { type := .response, success := true, message := lit "Login successful" }

structure Watch.Good (k : Watch) (e : Event) (s : St) : Prop where
  session : ∀ w, k.session = some w → e.waits w
  starts : e.starts → k.told = false ∧ k.still = false
  looks : e.looks → s.running = !k.stopped
  head : e = .head → s.running → s.config.general.greeterCommand ≠ [] → (0 < s.greeterPid ↔ k.greeter)
  reply : ∀ resp, e = .reply resp → k.answer = none
  admits : e.admits → k.answer = some granted

def supervision : Monitor Event St Halt Watch where
  step := Watch.step
  good := Watch.Good
  stops k _ := k.session = none

/-- an event with a rule, besides those for the time of a session -/
def Event.ruled : Event → Bool
  | .head => true
  | .readRunning => true
  | .fork _ _ => true
  | .reply _ => true
  | .launch _ _ => true
  | _ => false

/-- an event without a rule, and not noted -/
def Event.plain : Event → Bool
  | .stop => false
  | .head => false
  | .readRunning => false
  | .poll .interrupted => false
  | .fork _ _ => false
  | .accept (some _) => false
  | .reply _ => false
  | .launch _ _ => false
  | _ => true

section Events

variable {k : Watch} {e : Event} {s : St}

theorem good_stop : k.Good .stop s where
  session _ _ := trivial
  starts h := by cases h
  looks h := by cases h
  head h := by cases h
  reply _ h := by cases h
  admits h := by cases h

theorem good_unruled (he : e.ruled = false) (hk : k.session = none) : k.Good e s where
  session pid h := by rw [hk] at h; cases h
  starts h := by cases e <;> first | exact absurd h Bool.false_ne_true | exact absurd he.symm Bool.false_ne_true
  looks h := by cases e <;> first | exact absurd h Bool.false_ne_true | exact absurd he.symm Bool.false_ne_true
  head h := by subst h; cases he
  reply resp h := by subst h; cases he
  admits h := by cases e <;> first | exact absurd h Bool.false_ne_true | exact absurd he.symm Bool.false_ne_true

theorem good_plain (he : e.plain) (hk : k.session = none) : k.Good e s := by
  apply good_unruled _ hk
  cases e <;> first | rfl | cases he

theorem good_fork {what : ChildKind} {r : Option (Pid × Child)} (hk : k.session = none) (htold : k.told = false)
    (hstill : k.still = false) (hanswer : what = .session → k.answer = some granted) : k.Good (.fork what r) s where
  session pid h := by rw [hk] at h; cases h
  starts _ := ⟨htold, hstill⟩
  looks h := by cases h
  head h := by cases h
  reply _ h := by cases h
  admits h := by
    cases what with
    | greeter => cases h
    | session => exact hanswer rfl

theorem good_head (hk : k.session = none) (hrunning : s.running = !k.stopped)
    (hgreeter : s.running → s.config.general.greeterCommand ≠ [] → (0 < s.greeterPid ↔ k.greeter)) :
    k.Good .head s where
  session pid h := by rw [hk] at h; cases h
  starts h := by cases h
  looks _ := hrunning
  head _ := hgreeter
  reply _ h := by cases h
  admits h := by cases h

theorem good_readRunning (hk : k.session = none) (hrunning : s.running = !k.stopped) : k.Good .readRunning s where
  session pid h := by rw [hk] at h; cases h
  starts h := by cases h
  looks _ := hrunning
  head h := by cases h
  reply _ h := by cases h
  admits h := by cases h

theorem good_reply (hk : k.session = none) (hanswer : k.answer = none) (resp : IpcMessage) : k.Good (.reply resp) s where
  session pid h := by rw [hk] at h; cases h
  starts h := by cases h
  looks h := by cases h
  head h := by cases h
  reply _ _ := hanswer
  admits h := by cases h

theorem good_launch (hk : k.session = none) (hanswer : k.answer = some granted) (user : UserInfo)
    (session : SessionInfo) : k.Good (.launch user session) s where
  session pid h := by rw [hk] at h; cases h
  starts h := by cases h
  looks h := by cases h
  head h := by cases h
  reply _ h := by cases h
  admits _ := hanswer

/-- nothing is asked of a wait for the session -/
theorem good_waiting {w : Pending} (hk : k.session = some w) (he : e.waits w) : k.Good e s where
  session w' h := by
    rw [hk] at h
    cases h
    exact he
  starts h := by cases e <;> first | exact False.elim he | cases h
  looks h := by cases e <;> first | exact False.elim he | cases h
  head h := by subst h; cases he
  reply _ h := by subst h; cases he
  admits h := by cases e <;> first | exact False.elim he | cases h

theorem step_plain (he : e.plain) (hk : k.session = none) : k.step e = k := by
  rcases k with ⟨stopped, told, still, greeter, session, answer⟩
  cases hk
  unfold Watch.step
  split
  case h_9 => simp
  all_goals first | rfl | cases he

/-- calm parts within a turn that do not look at the flag show no event of the monitor -/
theorem plain_of_mild (hmild : e.mild) (hcalm : e.calm) : e = .stop ∨ e.plain := by
  cases e with
  | stop => exact Or.inl rfl
  | _ => first | exact Or.inr rfl | exact absurd hcalm Bool.false_ne_true | exact absurd hmild Bool.false_ne_true

end Events

/-! ## The passage of time -/

/-- nothing was started, ended or said; the signal handler may have run -/
structure Passed (k : Watch) (s : St) (k' : Watch) (t : St) : Prop where
  same : k' = { k with stopped := k'.stopped }
  stopped : k.stopped → k'.stopped
  running : s.running = !k.stopped → t.running = !k'.stopped
  command : t.config.general.greeterCommand = s.config.general.greeterCommand

namespace Passed

variable {k k' : Watch} {s t : St}

theorem told (h : Passed k s k' t) : k'.told = k.told := by rw [h.same]

theorem still (h : Passed k s k' t) : k'.still = k.still := by rw [h.same]

theorem greeter (h : Passed k s k' t) : k'.greeter = k.greeter := by rw [h.same]

theorem session (h : Passed k s k' t) : k'.session = k.session := by rw [h.same]

theorem answer (h : Passed k s k' t) : k'.answer = k.answer := by rw [h.same]

end Passed

/-- a condition that lasts: no session is waited for, and nothing but the flag and the pids matters -/
structure Lasting (c : Watch → St → Prop) : Prop where
  session : ∀ {k s}, c k s → k.session = none
  passes : ∀ {k s k' t}, c k s → Passed k s k' t → t.greeterPid = s.greeterPid → t.sessionPid = s.sessionPid → c k' t

/-- with something the monitor remembers -/
theorem Lasting.keeps {c : Watch → St → Prop} (hc : Lasting c) {γ : Type} (p : Watch → γ)
    (hp : ∀ k b, p { k with stopped := b } = p k) (a : γ) : Lasting (fun k s => c k s ∧ p k = a) where
  session h := hc.session h.1
  passes h hpass hg hs := by
    refine ⟨hc.passes h.1 hpass hg hs, ?_⟩
    rw [hpass.same, hp]
    exact h.2

/-- what the conditions look at -/
def St.tracked (s : St) : Bool × Str × ℤ × ℤ :=
  (s.running, s.config.general.greeterCommand, s.greeterPid, s.sessionPid)

section Rules

variable (E : Env) {k : Watch} {s : St} {c : Watch → St → Prop}

theorem supervised_op {e : Event} {f : St → St} {q : Watch → Unit → St → Prop}
    (h : ∀ k' b, Passed k s k' (s.setRunning b) → k'.Good e ((f (s.setRunning b)).tick (s.now + 1)) ∧
      q (k'.step e) () ((f (s.setRunning b)).tick (s.now + 1))) : Watched supervision k (op E e f) s q := by
  have hsignal : Passed k s (k.step .stop) (s.setRunning false) := ⟨rfl, fun _ => rfl, fun _ => rfl, rfl⟩
  have hquiet : Passed k s k (s.setRunning s.running) := ⟨rfl, id, id, rfl⟩
  refine watched_bind (watched_bind (watched_get (watched_ite (fun _ => watched_act good_stop ?_) fun _ => watched_pure ?_)))
  · exact watched_act (h _ _ hsignal).1 (h _ _ hsignal).2
  · exact watched_act (h _ _ hquiet).1 (h _ _ hquiet).2

/-- an operation without a rule -/
theorem lasting_op (hc : Lasting c) (hk : c k s) {e : Event} (he : e.plain) {f : St → St}
    (hf : ∀ s, (f s).tracked = s.tracked) : Watched supervision k (op E e f) s (fun k' _ t => c k' t) := by
  apply supervised_op
  intro k' b hpass
  have hnone : k'.session = none := hpass.session.trans (hc.session hk)
  refine ⟨good_plain he hnone, ?_⟩
  rw [step_plain he hnone]
  have hfb := hf (s.setRunning b)
  simp only [St.tracked, Prod.mk.injEq] at hfb
  obtain ⟨hrunning, hcommand, hgreeter, hsession⟩ := hfb
  refine hc.passes hk ⟨hpass.same, hpass.stopped, fun h => ?_, hcommand⟩ hgreeter hsession
  exact Eq.trans hrunning (hpass.running h)

variable {E}

theorem Kept.step_command {a b : Kept} {e : Event} (h : a.step E e b) : b.greeterCommand = a.greeterCommand := by
  cases e with
  | bind path ok => exact h.elim
  | createDirectories path ok => rw [h.2]
  | save path =>
    rcases h.2 with rfl | ⟨text, rfl⟩
    · rfl
    · rfl
  | _ => cases h; rfl

theorem Kept.step_running {a b : Kept} {e : Event} (h : a.step E e b) (he : e ≠ .stop) : b.running = a.running := by
  cases e with
  | stop => exact absurd rfl he
  | bind path ok => exact h.elim
  | createDirectories path ok => rw [h.2]
  | save path =>
    rcases h.2 with rfl | ⟨text, rfl⟩
    · rfl
    · rfl
  | _ => cases h; rfl

/-- a part that starts and ends nothing -/
theorem passed_mild {α : Type} {x : Sys α} {g : St → St} (hx : Follows St.kept (Kept.mildStep E) x)
    (hcalm : Within (calmly g) x) (hk : k.session = none) :
    Watched supervision k x s (fun k' _ t => Passed k s k' t ∧ g s = g t) := by
  apply Watched.mono (Follows.watched (J := fun k' a => k' = { k with stopped := k'.stopped } ∧ (k.stopped → k'.stopped) ∧
    (s.running = !k.stopped → a.running = !k'.stopped) ∧
    a.greeterCommand = s.config.general.greeterCommand) hx hcalm ⟨rfl, id, id, rfl⟩ ?_ ?_)
  · exact fun k' _ t ⟨⟨hsame, hstopped, hrunning, hcommand⟩, hg⟩ => ⟨⟨hsame, hstopped, hrunning, hcommand⟩, hg⟩
  · intro k' a e t ⟨hsame, hstopped, hrunning, hcommand⟩ ⟨hstep, hmild⟩ hcalm' _
    have hnone : k'.session = none := (by rw [hsame, hk])
    have hcommand := (Kept.step_command hstep).trans hcommand
    rcases plain_of_mild hmild hcalm' with rfl | hplain
    · refine ⟨good_stop, ?_, fun _ => rfl, fun _ => ?_, hcommand⟩
      · show { k' with stopped := true } = _
        rw [hsame]
        rfl
      · rw [show t.kept = _ from hstep]
        rfl
    · have hne : e ≠ .stop := by rintro rfl; cases hplain
      refine ⟨good_plain hplain hnone, ?_⟩
      rw [show supervision.step k' e = k' from step_plain hplain hnone, Kept.step_running hstep hne]
      exact ⟨hsame, hstopped, hrunning, hcommand⟩
  · exact fun _ _ _ _ h => False.elim h

theorem lasting_mild (hc : Lasting c) (hk : c k s) {α : Type} {x : Sys α} {g : St → St}
    (hx : Follows St.kept (Kept.mildStep E) x) (hcalm : Within (calmly g) x)
    (hg : ∀ s, ((g s).greeterPid, (g s).sessionPid) = (s.greeterPid, s.sessionPid)) :
    Watched supervision k x s (fun k' _ t => c k' t) := by
  apply Watched.mono (passed_mild hx hcalm (hc.session hk))
  intro k' _ t ⟨hpass, ht⟩
  have hpids : (s.greeterPid, s.sessionPid) = (t.greeterPid, t.sessionPid) :=
    same_of_erased (p := fun s => (s.greeterPid, s.sessionPid)) ht hg
  exact hc.passes hk hpass (congrArg Prod.fst hpids).symm (congrArg Prod.snd hpids).symm

end Rules

/-! ## The conditions -/

/-- between sessions -/
structure Steady (k : Watch) (s : St) : Prop where
  session : k.session = none
  running : s.running = !k.stopped
  launcher : s.sessionPid ≤ 0

/-- at the head of the loop -/
structure Tended (k : Watch) (s : St) : Prop extends Steady k s where
  told : k.told → k.stopped ∧ s.greeterPid ≤ 0
  greeter : k.told = false → s.config.general.greeterCommand ≠ [] → (0 < s.greeterPid ↔ k.greeter)

/-- in the loop, while processes may be started -/
structure Free (k : Watch) (s : St) : Prop extends Tended k s where
  untold : k.told = false
  still : k.still = false

/-- without a greeter -/
structure Cleared (k : Watch) (s : St) : Prop extends Steady k s where
  untold : k.told = false
  greeter : s.greeterPid ≤ 0

theorem Steady.passed {k k' : Watch} {s t : St} (h : Steady k s) (hpass : Passed k s k' t)
    (hs : t.sessionPid = s.sessionPid) : Steady k' t where
  session := hpass.session.trans h.session
  running := hpass.running h.running
  launcher := by rw [hs]; exact h.launcher

/-- what is asked of the greeter for processes to be started -/
theorem Steady.free {k : Watch} {s : St} (h : Steady k s) (huntold : k.told = false) (hstill : k.still = false)
    (hgreeter : s.config.general.greeterCommand ≠ [] → (0 < s.greeterPid ↔ k.greeter)) : Free k s where
  toSteady := h
  told htold := by rw [huntold] at htold; cases htold
  greeter _ := hgreeter
  untold := huntold
  still := hstill

theorem Steady.not_stopped {k : Watch} {s : St} (h : Steady k s) (hrunning : s.running = true) : k.stopped = false := by
  rw [h.running] at hrunning
  simpa using hrunning

/-- a daemon that was not stopped was not told so -/
theorem Tended.not_told {k : Watch} {s : St} (h : Tended k s) (hrunning : s.running = true) : k.told = false := by
  by_contra htold
  have hstopped := (h.told (by simpa using htold)).1
  rw [h.not_stopped hrunning] at hstopped
  cases hstopped

theorem Tended.passed {k k' : Watch} {s t : St} (h : Tended k s) (hpass : Passed k s k' t)
    (hg : t.greeterPid = s.greeterPid) (hs : t.sessionPid = s.sessionPid) : Tended k' t where
  toSteady := h.toSteady.passed hpass hs
  told := by
    intro htold
    rw [hpass.told] at htold
    rw [hg]
    exact ⟨hpass.stopped (h.told htold).1, (h.told htold).2⟩
  greeter := by
    rw [hpass.told, hpass.command, hpass.greeter, hg]
    exact h.greeter

theorem tended_lasting : Lasting Tended where
  session h := h.session
  passes h hpass hg hs := h.passed hpass hg hs

theorem free_lasting : Lasting Free where
  session h := h.session
  passes h hpass hg hs :=
    { toTended := h.toTended.passed hpass hg hs
      untold := hpass.told.trans h.untold
      still := hpass.still.trans h.still }

theorem cleared_lasting : Lasting Cleared where
  session h := h.session
  passes h hpass hg hs :=
    { toSteady := h.toSteady.passed hpass hs
      untold := hpass.told.trans h.untold
      greeter := by rw [hg]; exact h.greeter }

/-- after a request: the flag was looked at, or processes may still be started -/
def Rested (k : Watch) (s : St) : Prop := Tended k s ∧ k.still = false

theorem rested_lasting : Lasting Rested := tended_lasting.keeps Watch.still (fun _ _ => rfl) false

theorem Free.rested {k : Watch} {s : St} (h : Free k s) : Rested k s := ⟨h.toTended, h.still⟩

section Parts

variable (E : Env) {k : Watch} {s : St}

/-! ## The greeter -/

theorem createDirectories_lasting {c : Watch → St → Prop} (hc : Lasting c) (hk : c k s) (path : Str) :
    Watched supervision k (createDirectories E path) s (fun k' _ t => c k' t) := by
  exact watched_bind (watched_get (lasting_op E hc hk rfl fun _ => rfl))

theorem makeRuntimeDir_lasting {c : Watch → St → Prop} (hc : Lasting c) (hk : c k s) (pw : Option Passwd) :
    Watched supervision k (makeRuntimeDir E pw) s (fun k' _ t => c k' t) := by
  cases pw with
  | some pw =>
    refine watched_bind (watched_get (watched_bind (watched_when (fun _ => ?_) fun _ => watched_pure hk)))
    exact Watched.mono (createDirectories_lasting E hc hk _) fun _ _ _ h => watched_pure h
  | none =>
    exact Watched.seq (createDirectories_lasting E hc hk _) fun _ _ _ h => watched_pure h

/-- **Starting a greeter.** One that is tracked afterwards is the one whose fork gave a child. -/
theorem startGreeter_free (hk : Steady k s) (huntold : k.told = false) (hstill : k.still = false)
    (hgreeter : s.config.general.greeterCommand ≠ [] → 0 < s.greeterPid → k.greeter) :
    Watched supervision k (startGreeter E) s (fun k' _ t => Free k' t) := by
  let ready : Watch → St → Prop := fun k u => Cleared k u ∧ k.still = false
  have hlasting : Lasting ready := cleared_lasting.keeps Watch.still (fun _ _ => rfl) false
  refine watched_bind (watched_get (watched_ite (fun hc => watched_pure ?_) fun hc => ?_))
  · -- a greeter is tracked, or there is none to start
    refine hk.free huntold hstill fun hcommand => ⟨hgreeter hcommand, fun _ => ?_⟩
    exact hc.resolve_right hcommand
  have hpid : s.greeterPid ≤ 0 := by
    by_contra hlt
    exact hc (Or.inl (by omega))
  have hready : ready k s := ⟨⟨hk, huntold, hpid⟩, hstill⟩
  have mild : ∀ {α : Type} {x : Sys α} {g : St → St} {k u}, ready k u → Follows St.kept (Kept.mildStep E) x →
      Within (calmly g) x → (∀ s, ((g s).greeterPid, (g s).sessionPid) = (s.greeterPid, s.sessionPid)) →
      Watched supervision k x u (fun k' _ t => ready k' t) := fun h hx hcalm hg => lasting_mild hlasting h hx hcalm hg
  refine Watched.seq (mild hready (renewGreeterPam_mild E) (renewGreeterPam_calm E) fun _ => rfl) ?_
  intro k _ t hready
  refine Watched.seq (mild hready (onPam_mild E _) (onPam_calm E _) fun _ => rfl) ?_
  intro k ⟨ok, pam⟩ t hready
  refine Watched.seq (mild hready (setGreeterPam_mild E pam) (setGreeterPam_calm E pam) fun _ => rfl) ?_
  intro k _ t hready
  refine Watched.seq (mild hready (follows_when (openGreeterPam_mild E pam _))
    (within_when (openGreeterPam_calm E pam _)) fun _ => rfl) ?_
  intro k _ t hready
  apply Watched.seq (makeRuntimeDir_lasting E hlasting hready _)
  intro k runtimeDir t hready
  -- the fork, and the pid when there is a child
  refine watched_bind (watched_bind (watched_get (watched_bind (supervised_op E ?_))))
  intro k' b hpass
  obtain ⟨hclear, hstill⟩ := hlasting.passes (t := t.setRunning b) hready hpass rfl rfl
  have hpid : t.greeterPid ≤ 0 := hclear.greeter
  refine ⟨good_fork hclear.session hclear.untold hstill (by simp), watched_pure ?_⟩
  cases hfork : E.fork t.now with
  | none =>
    refine watched_pure (Steady.free ⟨hclear.session, hclear.running, hclear.launcher⟩ hclear.untold hstill fun _ => ?_)
    constructor
    · exact fun h => absurd h (Int.not_lt.2 hpid)
    · exact fun h => by cases h
  | some pid =>
    apply supervised_op
    intro k'' b' hpass'
    have hsession := hpass'.session.trans hclear.session
    refine ⟨good_plain rfl hsession, ?_⟩
    rw [step_plain rfl hsession]
    refine Steady.free ⟨hsession, hpass'.running hclear.running, hclear.launcher⟩ ?_ ?_ fun _ => ?_
    · exact hpass'.told.trans hclear.untold
    · exact hpass'.still.trans hstill
    · rw [hpass'.greeter]
      exact ⟨fun _ => rfl, fun _ => pid.2⟩

/-- **Stopping the greeter.** -/
theorem releaseGreeter_cleared (hk : Steady k s) (huntold : k.told = false) :
    Watched supervision k (releaseGreeter E) s
      (fun k' _ t => Cleared k' t ∧ k'.still = k.still ∧ k'.answer = k.answer) := by
  have hgone := Sat.mono (Ownership.releaseGreeter_owned E hk.launcher) (fun _ _ _ h => h.2.2.1) fun _ _ _ _ => trivial
  apply Watched.mono (Watched.and_sat (passed_mild (releaseGreeter_mild E) (releaseGreeter_calm E) hk.session) hgone)
  intro k' _ t ⟨⟨hpass, ht⟩, hpid⟩
  have hsession : s.sessionPid = t.sessionPid := same_of_erased ht fun _ => rfl
  exact ⟨⟨hk.passed hpass hsession.symm, hpass.told.trans huntold, hpid⟩, hpass.still, hpass.answer⟩

/-! ## The session -/

/-- a session that was launched and not waited for -/
structure Awaited (w : Pending) (k : Watch) (s : St) : Prop where
  session : k.session = some w
  running : s.running = !k.stopped
  untold : k.told = false
  greeter : s.greeterPid ≤ 0

/-- an operation while a session is waited for -/
theorem awaited_op {w : Pending} (hk : Awaited w k s) {e : Event} (he : e.waits w) {f : St → St}
    {q : Watch → Unit → St → Prop}
    (h : ∀ k' b, Awaited w k' (s.setRunning b) → q (k'.step e) () ((f (s.setRunning b)).tick (s.now + 1))) :
    Watched supervision k (op E e f) s q := by
  apply supervised_op
  intro k' b hpass
  have hsession := hpass.session.trans hk.session
  refine ⟨good_waiting hsession he, h k' b ⟨hsession, hpass.running hk.running, hpass.told.trans hk.untold, hk.greeter⟩⟩

/-- **Waiting for a session.** However often it is interrupted, the wait goes on until the end of the session. -/
theorem waitLoop_cleared (pid : ℤ) : ∀ n k s, Awaited ⟨pid, false⟩ k s →
    Watched supervision k (waitLoop E pid n) s (fun k' _ t => Cleared k' t) := by
  have enter : ∀ {k s} {x : Unit → Sys ℤ}, Awaited ⟨pid, false⟩ k s →
      (∀ k t, Awaited ⟨pid, true⟩ k t → Watched supervision k (x ()) t (fun k' _ u => Cleared k' u)) →
      Watched supervision k (op E (.waiting pid) id >>= x) s (fun k' _ u => Cleared k' u) := by
    intro k s x hk h
    refine watched_bind (awaited_op E hk (by exact ⟨rfl, rfl⟩) fun k b hk => h _ _ ⟨?_, hk.running, hk.untold, hk.greeter⟩)
    show k.session.map _ = _
    rw [hk.session]
    rfl
  intro n
  induction n with
  | zero =>
    refine fun k s hk => enter hk fun k s hk => ?_
    refine watched_bind (watched_get (watched_bind (awaited_op E hk (by exact ⟨rfl, rfl⟩) fun k' b hk' => ?_)))
    refine watched_bind (supervised_op E fun k'' b' hpass => ?_)
    have hsession : k''.session = none := hpass.session
    refine ⟨good_plain rfl hsession, watched_pure ?_⟩
    rw [step_plain rfl hsession]
    refine ⟨⟨hsession, hpass.running hk'.running, ?_⟩, hpass.told.trans hk'.untold, hk'.greeter⟩
    exact (by decide : (-1 : ℤ) ≤ 0)
  | succ n ih =>
    refine fun k s hk => enter hk fun k s hk => ?_
    refine watched_bind (awaited_op E hk (by exact ⟨rfl, rfl⟩) fun k' b hk' =>
      ih _ _ ⟨?_, hk'.running, hk'.untold, hk'.greeter⟩)
    show k'.session.map _ = _
    rw [hk'.session]
    rfl

/-- cleared, with a client that was told of a granted login -/
def Admitting (k : Watch) (s : St) : Prop := (Cleared k s ∧ k.still = false) ∧ k.answer = some granted

theorem admitting_lasting : Lasting Admitting :=
  (cleared_lasting.keeps Watch.still (fun _ _ => rfl) false).keeps Watch.answer (fun _ _ => rfl) (some granted)

/-- **Launching a session.** It is launched for a client that was told so. -/
theorem launch_awaited (hk : Admitting k s) (user : UserInfo) (session : SessionInfo) (pamEnvs : List Str) (vt : ℤ) :
    Watched supervision k (launch E user session pamEnvs vt) s (fun k' launched t =>
      if launched then 0 < t.sessionPid ∧ Awaited ⟨t.sessionPid, false⟩ k' t else Cleared k' t) := by
  refine watched_bind (supervised_op E fun k b hpass => ?_)
  have hk := admitting_lasting.passes (t := s.setRunning b) hk hpass rfl rfl
  refine ⟨good_launch hk.1.1.session hk.2 _ _, ?_⟩
  refine Watched.seq (lasting_mild (s := (id (s.setRunning b)).tick (s.now + 1)) admitting_lasting
    ⟨⟨⟨⟨hk.1.1.session, hk.1.1.running, hk.1.1.launcher⟩, hk.1.1.untold, hk.1.1.greeter⟩, hk.1.2⟩, hk.2⟩
    (isRunning_mild E) (isRunning_calm E) fun _ => rfl) fun k running t hk => ?_
  refine watched_ite (fun _ => watched_pure ?_) fun _ => ?_
  · exact hk.1.1
  refine watched_bind (watched_bind (watched_get (watched_bind (supervised_op E ?_))))
  intro k b hpass
  have hk := admitting_lasting.passes (t := t.setRunning b) hk hpass rfl rfl
  have hclear := hk.1.1
  refine ⟨good_fork hclear.session hclear.untold hk.1.2 fun _ => hk.2, watched_pure ?_⟩
  cases hfork : E.fork t.now with
  | none => exact watched_pure ⟨⟨hclear.session, hclear.running, hclear.launcher⟩, hclear.untold, hclear.greeter⟩
  | some pid =>
    refine watched_bind (awaited_op E (w := ⟨pid, false⟩) ?_ (by rfl) ?_)
    · exact ⟨rfl, hclear.running, hclear.untold, hclear.greeter⟩
    · exact fun k' b' hk' => watched_pure ⟨pid.2, hk'.session, hk'.running, hk'.untold, hk'.greeter⟩

theorem rememberLastUser_lasting {c : Watch → St → Prop} (hc : Lasting c) (hk : c k s) (req : IpcMessage) :
    Watched supervision k (rememberLastUser E req) s (fun k' _ t => c k' t) := by
  refine watched_bind (watched_get (watched_ite (fun _ => ?_) fun _ => watched_pure hk))
  refine Watched.seq (lasting_op E hc hk (by rfl) fun _ => rfl) fun k _ t hk => ?_
  exact watched_bind (watched_get (lasting_op E hc hk (by rfl) fun _ => rfl))

theorem readRunning_told (hk : Steady k s) : Watched supervision k (readRunning E) s (fun k' running t =>
    Steady k' t ∧ t.greeterPid = s.greeterPid ∧ k'.still = false ∧ k'.told = (k.told || k'.stopped) ∧
      running = !k'.stopped) := by
  refine watched_bind (supervised_op E fun k' b hpass => ?_)
  have hk := hk.passed (t := s.setRunning b) hpass rfl
  refine ⟨good_readRunning hk.session hk.running, watched_bind (watched_get (watched_pure ?_))⟩
  exact ⟨⟨hk.session, hk.running, hk.launcher⟩, rfl, rfl, congrArg (· || k'.stopped) hpass.told, hk.running⟩

/-- **A session.** It comes when the greeter is gone; when it has gone, the flag decides whether a greeter comes. -/
theorem serveSession_rested (hk : Free k s) (hanswer : k.answer = some granted) (req : IpcMessage) (pam : PamAuth) :
    Watched supervision k (serveSession E req pam) s (fun k' _ t => Rested k' t) := by
  have hready := free_lasting.keeps Watch.answer (fun _ _ => rfl) (some granted)
  refine watched_bind (Watched.seq (lasting_op E hready ⟨hk, hanswer⟩ (by rfl) fun _ => rfl) ?_)
  intro k _ t ⟨hk, hanswer⟩
  apply Watched.mono (releaseGreeter_cleared E hk.toSteady hk.untold)
  intro k _ t ⟨hclear, hstill, hans⟩
  have hadmit : Admitting k t := ⟨⟨hclear, hstill.trans (Free.still hk)⟩, hans.trans hanswer⟩
  have mild : ∀ {α : Type} {x : Sys α} {g : St → St} {k u}, Admitting k u → Follows St.kept (Kept.mildStep E) x →
      Within (calmly g) x → (∀ s, ((g s).greeterPid, (g s).sessionPid) = (s.greeterPid, s.sessionPid)) →
      Watched supervision k x u (fun k' _ t => Admitting k' t) := fun h hx hcalm hg =>
    lasting_mild admitting_lasting h hx hcalm hg
  refine watched_bind (watched_get (watched_bind ?_))
  apply Watched.mono (rememberLastUser_lasting E admitting_lasting hadmit req)
  intro k _ u hk
  refine Watched.seq (mild hk (setActivePam_mild E pam) (setActivePam_calm E pam) fun _ => rfl) ?_
  intro k _ u hk
  refine Watched.seq (mild hk (onPam_mild E _) (onPam_calm E _) fun _ => rfl) fun k pamEnvs u hk => ?_
  -- the session comes and goes
  apply Watched.seq (launch_awaited E hk _ _ pamEnvs _)
  intro k launched u hk
  refine Watched.seq (q := fun k' _ v => Cleared k' v) (watched_when (fun hl => ?_) fun hl => ?_) ?_
  · rw [if_pos hl] at hk
    refine watched_bind (watched_bind (watched_get (watched_ite (fun h => ?_) fun _ => ?_)))
    · exact absurd hk.1 (Int.not_lt.2 h)
    · exact Watched.mono (waitLoop_cleared E _ _ k u hk.2) fun _ _ _ h => watched_pure h
  · rwa [if_neg hl] at hk
  intro k _ u hk
  refine Watched.seq (lasting_mild cleared_lasting hk (releaseActivePam_mild E) (releaseActivePam_calm E)
    fun _ => rfl) fun k _ u hk => ?_
  apply Watched.seq (readRunning_told E hk.toSteady)
  intro k running v hr
  obtain ⟨hsteady, hpid, hstill, htold, rfl⟩ := hr
  rw [hk.untold, Bool.false_or] at htold
  have hgone : v.greeterPid ≤ 0 := by rw [hpid]; exact hk.greeter
  refine watched_ite (fun hrunning => ?_) fun hrunning => watched_pure ⟨⟨hsteady, fun h => ?_, fun h => ?_⟩, hstill⟩
  · have huntold : k.told = false := by simpa [htold] using hrunning
    refine Watched.mono (startGreeter_free E hsteady huntold hstill fun _ h => ?_) fun _ _ _ h => h.rested
    exact absurd h (Int.not_lt.2 hgone)
  · exact ⟨htold ▸ h, hgone⟩
  · simp [← htold, h] at hrunning

/-! ## Requests -/

/-- processes may be started, and the client was told nothing yet -/
def Asked (k : Watch) (s : St) : Prop := Free k s ∧ k.answer = none

theorem asked_lasting : Lasting Asked := free_lasting.keeps Watch.answer (fun _ _ => rfl) none

theorem reply_free (hk : Asked k s) (resp : IpcMessage) :
    Watched supervision k (reply E resp) s (fun k' _ t => Free k' t ∧ k'.answer = some resp) := by
  refine watched_bind (supervised_op E fun k' b hpass => ?_)
  obtain ⟨hk, hanswer⟩ := asked_lasting.passes (t := s.setRunning b) hk hpass rfl rfl
  refine ⟨good_reply hk.session hanswer resp, watched_bind (watched_get ?_)⟩
  refine watched_ite (fun _ => watched_halt hk.session) fun _ => watched_pure ?_
  exact ⟨⟨⟨⟨hk.session, hk.running, hk.launcher⟩, hk.told, hk.greeter⟩, hk.untold, hk.still⟩, rfl⟩

/-- **A request.** -/
theorem processMessage_rested (hk : Asked k s) (req : IpcMessage) :
    Watched supervision k (processMessage E req) s (fun k' _ t => Rested k' t) := by
  have answer : ∀ {k u} resp, Asked k u → Watched supervision k (reply E resp) u (fun k' _ t => Rested k' t) :=
    fun resp hk => Watched.mono (reply_free E hk resp) fun _ _ _ h => h.1.rested
  have mild : ∀ {α : Type} {x : Sys α} {g : St → St}, Follows St.kept (Kept.mildStep E) x → Within (calmly g) x →
      (∀ s, ((g s).greeterPid, (g s).sessionPid) = (s.greeterPid, s.sessionPid)) →
      Watched supervision k x s (fun k' _ t => Asked k' t) := fun hx hcalm hg => lasting_mild asked_lasting hk hx hcalm hg
  unfold processMessage
  split
  · exact answer _ hk
  · refine Watched.seq (lasting_op E asked_lasting hk (by rfl) fun _ => rfl) fun _ _ _ hk => ?_
    exact watched_bind (watched_get (answer _ hk))
  · refine watched_bind (watched_cacheSessions E (fun _ => asked_lasting.session hk) fun sessions _ => ?_)
    refine Watched.mono (lasting_op E asked_lasting hk (by rfl) fun _ => rfl) fun _ _ _ hk => ?_
    exact watched_bind (watched_get (answer _ hk))
  · refine Watched.seq (mild (powerCall_mild E _) (powerCall_calm E _) fun _ => rfl) ?_
    exact fun _ _ _ hk => answer _ hk
  · rw [handleLoginRequest_eq]
    refine Watched.seq (mild (attempt_mild E req) (attempt_calm E req) fun _ => rfl) ?_
    intro k ⟨failure, pam⟩ t hk
    cases failure with
    | some message =>
      apply Watched.seq (answer _ hk)
      intro k _ u hk
      refine Watched.seq (lasting_mild rested_lasting hk (onPam_mild E _) (onPam_calm E _) fun _ => rfl) ?_
      exact fun _ _ _ hk => watched_pure hk
    | none =>
      apply Watched.seq (reply_free E hk granted)
      intro k _ u hk
      exact serveSession_rested E hk.1 hk.2 req pam
  · exact answer _ hk

/-! ## Connections and the loop -/

theorem serveLine_rested (hk : Asked k s) (line rest : Str) :
    Watched supervision k (serveLine E line rest) s (fun k' _ t => Rested k' t) := by
  refine Watched.seq (lasting_op E asked_lasting hk (by rfl) fun _ => rfl) fun k _ t hk => ?_
  split
  · exact watched_halt (asked_lasting.session hk)
  · refine Watched.seq (lasting_op E asked_lasting hk (by rfl) fun _ => rfl) fun k _ t hk => ?_
    apply Watched.seq (processMessage_rested E hk _)
    intro k _ t hk
    exact lasting_op E rested_lasting hk (by rfl) fun _ => rfl

theorem readLoop_rested : ∀ (chunks : List Str) (accumulated : Str) (k : Watch) (s : St), Asked k s →
    Watched supervision k (readLoop E accumulated chunks) s (fun k' _ t => Rested k' t) := by
  have eof : ∀ {k s}, Asked k s → Watched supervision k (op E (.read []) id) s (fun k' _ t => Rested k' t) := fun hk =>
    Watched.mono (lasting_op E asked_lasting hk (by rfl) fun _ => rfl) fun _ _ _ h => h.1.rested
  intro chunks
  induction chunks with
  | nil => exact fun _ _ _ hk => eof hk
  | cons chunk chunks ih =>
    intro accumulated k s hk
    apply watched_ite (fun _ => eof hk)
    intro _
    refine Watched.seq (lasting_op E asked_lasting hk (by rfl) fun _ => rfl) fun k _ t hk => ?_
    split
    · exact ih _ k t hk
    · exact serveLine_rested E hk _ _

theorem acceptClient_rested (hk : Free k s) :
    Watched supervision k (acceptClient E) s (fun k' _ t => Rested k' t) := by
  refine watched_bind (watched_get ?_)
  split
  · exact Watched.mono (lasting_op E free_lasting hk (by rfl) fun _ => rfl) fun _ _ _ h => h.rested
  · refine watched_bind (supervised_op E fun k' b hpass => ?_)
    have hk := free_lasting.passes (t := s.setRunning b) hk hpass rfl rfl
    refine ⟨good_unruled rfl hk.session, ?_⟩
    refine Watched.seq (q := fun k' _ t => Rested k' t) ?_ fun k _ t hk => ?_
    · refine Watched.seq (lasting_op E asked_lasting ?_ (by rfl) fun _ => rfl) fun k _ t hk => ?_
      · exact ⟨⟨⟨⟨hk.session, hk.running, hk.launcher⟩, hk.told, hk.greeter⟩, hk.untold, hk.still⟩, rfl⟩
      apply Watched.seq (readLoop_rested E _ [] k t hk)
      intro k _ t hk
      exact lasting_op E rested_lasting hk (by rfl) fun _ => rfl
    · exact lasting_op E rested_lasting hk (by rfl) fun _ => rfl

/-- a greeter that died is replaced; after the flag of a stopped daemon was read none is tracked -/
theorem watchGreeter_tended (hk : Rested k s) :
    Watched supervision k (watchGreeter E) s (fun k' _ t => Tended k' t) := by
  refine watched_bind (watched_get (watched_ite (fun hpid => ?_) fun _ => watched_pure hk.1))
  have huntold : k.told = false := by
    by_contra htold
    have hgone := (hk.1.told (by simpa using htold)).2
    omega
  have hfree : Free k s := ⟨hk.1, huntold, hk.2⟩
  refine Watched.seq (lasting_mild free_lasting hfree (isRunning_mild E) (isRunning_calm E) fun _ => rfl) ?_
  intro k running t hk
  refine watched_ite (fun _ => watched_bind (watched_get (watched_bind ?_))) fun _ => watched_pure hk.toTended
  refine Watched.mono (lasting_op E free_lasting hk (by rfl) fun _ => rfl) fun k _ t hk => ?_
  split
  · have hlasting := cleared_lasting.keeps Watch.still (fun _ _ => rfl) false
    refine Watched.seq (q := fun k' _ u => Cleared k' u ∧ k'.still = false) ?_ fun k _ u hk => ?_
    · apply supervised_op E
      intro k' b hpass
      have hk := free_lasting.passes (t := t.setRunning b) hk hpass rfl rfl
      refine ⟨good_plain rfl hk.session, ?_⟩
      rw [step_plain rfl hk.session]
      exact ⟨⟨⟨hk.session, hk.running, hk.launcher⟩, hk.untold, (by decide : (-1 : ℤ) ≤ 0)⟩, hk.still⟩
    · refine Watched.seq (lasting_op E hlasting hk (by rfl) fun _ => rfl) fun k _ v hk => ?_
      refine Watched.mono (startGreeter_free E hk.1.toSteady hk.1.untold hk.2 fun _ h => ?_) fun _ _ _ h => h.toTended
      exact absurd h (Int.not_lt.2 hk.1.greeter)
  · exact watched_pure hk.toTended

/-- **One turn of the loop.** It ends at the head of the next, or before the shutdown. -/
theorem turn_tended (hk : Tended k s) :
    Watched supervision k (turn E) s (fun k' goes t => if goes then Tended k' t else Steady k' t) := by
  have watch : ∀ {k u}, Rested k u → Watched supervision k (do watchGreeter E; return true) u
      (fun k' goes t => if goes then Tended k' t else Steady k' t) := fun hk =>
    Watched.seq (watchGreeter_tended E hk) fun _ _ _ h => watched_pure h
  refine watched_bind (supervised_op E fun k b hpass => ?_)
  have hk := tended_lasting.passes (t := s.setRunning b) hk hpass rfl rfl
  refine ⟨?_, watched_bind (watched_get (watched_ite (fun _ => ?_) fun hrunning => ?_))⟩
  · exact good_head hk.session hk.running fun hrunning => hk.greeter (hk.not_told hrunning)
  · exact watched_pure ⟨hk.session, hk.running, hk.launcher⟩
  have hrunning : (s.setRunning b).running = true := not_not.1 hrunning
  have huntold : (supervision.step k .head).told = false := by
    show (k.told || k.stopped) = false
    rw [hk.not_told hrunning, hk.not_stopped hrunning]
    rfl
  have hfree : Free (supervision.step k .head) ((id (s.setRunning b)).tick (s.now + 1)) :=
    Steady.free ⟨hk.session, hk.running, hk.launcher⟩ huntold rfl (hk.greeter (hk.not_told hrunning))
  refine watched_bind (watched_get (watched_bind ?_))
  generalize E.poll _ = answer
  have quiet : answer ≠ .interrupted → Watched supervision (supervision.step k .head) (op E (.poll answer) id)
      ((id (s.setRunning b)).tick (s.now + 1)) (fun k' _ t => Free k' t) := fun hne =>
    lasting_op E free_lasting hfree (by cases answer <;> first | rfl | exact absurd rfl hne) fun _ => rfl
  cases answer with
  | ready =>
    refine Watched.mono (quiet (by simp)) fun k _ t hk => watched_bind ?_
    exact Watched.mono (acceptClient_rested E hk) fun _ _ _ h => watch h
  | quiet => exact Watched.mono (quiet (by simp)) fun _ _ _ h => watch h.rested
  | failed => exact Watched.mono (quiet (by simp)) fun _ _ _ h => watched_pure h.toSteady
  | interrupted =>
    apply supervised_op E
    intro k b hpass
    have hk := free_lasting.passes (t := St.setRunning _ b) hfree hpass rfl rfl
    exact ⟨good_unruled rfl hk.session, watched_pure ⟨⟨hk.session, hk.running, hk.launcher⟩, hk.told, hk.greeter⟩⟩

/-! ## The whole run -/

/-- **The shutdown.** -/
theorem shutdown_watched (hk : Steady k s) : Watched supervision k (do
    stopGreeter E
    terminate E
    cleanupIpcSocket E
    op E .finished id) s (fun k' _ _ => k'.session = none) := by
  have hlasting : Lasting (fun k _ => k.session = none) := ⟨id, fun h hpass _ _ => hpass.session.trans h⟩
  have mild : ∀ {α : Type} {x : Sys α} {g : St → St} {k u}, k.session = none → Follows St.kept (Kept.mildStep E) x →
      Within (calmly g) x → Watched supervision k x u (fun k' _ _ => k'.session = none) := fun hk hx hcalm =>
    Watched.mono (passed_mild hx hcalm hk) fun _ _ _ h => h.1.session.trans hk
  refine watched_bind (Watched.seq (lasting_op E hlasting hk.session (by rfl) fun _ => rfl) ?_)
  intro k _ t hk
  apply Watched.mono (mild hk (releaseGreeter_mild E) (releaseGreeter_calm E))
  intro k _ t hk
  apply Watched.seq (mild hk (terminate_mild E) (terminate_calm E))
  intro k _ t hk
  apply Watched.seq (mild hk (cleanupIpcSocket_mild E) (cleanupIpcSocket_calm E))
  intro k _ t hk
  exact lasting_op E hlasting hk (by rfl) fun _ => rfl

/-- `run` after its entry -/
def attend (n : ℕ) : Sys Unit := do
  startGreeter E
  Prog.loop .cut (turn E) n
  stopGreeter E
  terminate E
  cleanupIpcSocket E
  op E .finished id

/-- **What `run` supervises.** Every run after its entry keeps the rules, and leaves no session behind. -/
theorem attend_watched (n : ℕ) (hrunning : s.running = true) (hgreeter : s.greeterPid ≤ 0) (hsession : s.sessionPid ≤ 0) :
    Watched supervision {} (attend E n) s (fun k _ _ => k.session = none) := by
  refine Watched.seq (startGreeter_free E (k := {}) ⟨rfl, hrunning, hsession⟩ rfl rfl fun _ h => ?_) ?_
  · exact absurd h (Int.not_lt.2 hgreeter)
  intro k _ t hk
  refine Watched.seq (watched_loop (I := Tended) (q := fun k _ t => Steady k t)
    (fun _ _ h => h.session) (fun k s h => turn_tended E h) n k t hk.toTended) ?_
  exact fun _ _ _ h => shutdown_watched E h

/-! ## Before the entry -/

/-- an event of `init` -/
def Event.setup : Event → Bool
  | .stop => true
  | .assign => true
  | .createDirectories _ _ => true
  | .unlink _ => true
  | .socket _ => true
  | .bind _ _ => true
  | .listen _ => true
  | .close _ => true
  | _ => false

/-- the events of `init`, which does not set the flag -/
def settingUp : Footprint St Event Halt where
  allow e _ := e.setup
  halts h := h = .filesystemError
  rel s t := t.running = true → s.running = true
  refl _ := id
  trans h h' := fun ht => h (h' ht)

theorem setup_op {e : Event} (he : e.setup) {f : St → St} (hf : ∀ s, (f s).running = s.running) :
    Within settingUp (op E e f) := by
  refine within_bind ?_ fun _ => within_act (fun _ => he) fun s h => (hf s).symm.trans h
  exact within_get_bind fun _ => within_ite (within_act (fun _ => rfl) fun _ h => by cases h) (within_pure ())

theorem init_setup : Within settingUp (init E) := by
  have abandons : ∀ fd, Within settingUp (abandonSocket E fd) := fun fd =>
    within_bind (setup_op E rfl fun _ => rfl) fun _ => within_bind (setup_op E rfl fun _ => rfl) fun _ => within_pure _
  refine within_bind (within_loadConfig E rfl (setup_op E rfl fun _ => rfl)) fun _ => ?_
  refine within_bind (setup_op E rfl fun _ => rfl) fun _ => ?_
  refine within_bind (within_cacheSessions E rfl fun _ => setup_op E rfl fun _ => rfl) fun _ => within_get_bind fun s => ?_
  refine within_bind (setup_op E rfl fun _ => rfl) fun _ => ?_
  refine within_bind (within_get_bind fun _ => setup_op E rfl fun _ => rfl) fun _ => ?_
  refine within_bind (setup_op E rfl fun _ => rfl) fun _ => ?_
  refine within_bind (within_get_bind fun _ => within_bind (setup_op E rfl fun s => ?_) fun _ => within_pure _) ?_
  · split_ifs <;> rfl
  refine fun _ => within_ite (within_get_bind fun _ => within_get_bind fun _ => ?_) (within_pure _)
  refine within_bind (setup_op E rfl fun _ => rfl) fun _ => within_ite (abandons _) (within_get_bind fun _ => ?_)
  exact within_bind (setup_op E rfl fun _ => rfl) fun _ => within_ite (abandons _) (within_pure _)

/-- a log of the daemon: the part up to the entry of `run`, where the flag is down, and what is supervised -/
inductive Supervised : List (Event × St) → Prop where
  | outside {l : List (Event × St)} (hl : ∀ p ∈ l, p.1.setup ∧ p.2.running = false) : Supervised l
  | entered {before after : List (Event × St)} {t : St} (hbefore : ∀ p ∈ before, p.1.setup ∧ p.2.running = false)
      (ht : t.running = true) (haccepts : supervision.accepts {} after)
      (hsession : (supervision.after {} after).session = none) : Supervised (before ++ (.assign, t) :: after)

/-- what the events say of one kind is what the monitor remembers, if those of `init` say nothing -/
theorem view_entered {β : Type} {f : Watch → β} {g : β → Event → β} (hstep : ∀ k e, f (k.step e) = g (f k) e)
    (hsetup : ∀ b e, e.setup → g b e = b) {before after : List (Event × St)} {t : St}
    (hbefore : ∀ q ∈ before, q.1.setup) :
    (events (before ++ (.assign, t) :: after)).foldl g (f {}) = f (supervision.after {} after) := by
  have hfront : ∀ (l : List (Event × St)) (b : β), (∀ q ∈ l, q.1.setup) → (events l).foldl g b = b := by
    intro l b hl
    induction l with
    | nil => rfl
    | cons q l ih =>
      rw [List.forall_mem_cons] at hl
      rw [events_cons, List.foldl_cons, hsetup b q.1 hl.1]
      exact ih hl.2
  rw [events_append, List.foldl_append, hfront before _ hbefore, events_cons, List.foldl_cons, hsetup _ _ rfl]
  exact (supervision.after_view hstep after {}).symm

/-- an event that is not one of `init` is supervised -/
theorem Supervised.reach {l pre post : List (Event × St)} {p : Event × St} (h : Supervised l) (hl : l = pre ++ p :: post)
    (hp : p.1.setup = false) : ∃ before t after, pre = before ++ (.assign, t) :: after ∧
      (∀ q ∈ before, q.1.setup ∧ q.2.running = false) ∧ supervision.accepts {} (after ++ p :: post) ∧
      (supervision.after {} (after ++ p :: post)).session = none := by
  cases h with
  | outside hsetup =>
    have hmem : p ∈ l := by simp [hl]
    rw [(hsetup p hmem).1] at hp
    cases hp
  | @entered before after t hbefore ht haccepts hsession =>
    rw [List.append_cons] at hl
    have hfront : ∀ q ∈ before ++ [((.assign, t) : Event × St)], ¬ q.1.setup = false := by
      rw [List.forall_mem_append]
      refine ⟨fun q hq => ?_, by simp [Event.setup]⟩
      rw [(hbefore q hq).1]
      simp
    obtain ⟨a, rfl, rfl⟩ := split_second hl hfront ⟨p, by simp, hp⟩
    exact ⟨before, t, a, by simp, hbefore, haccepts, hsession⟩

/-- a stop after the entry of `run` is supervised -/
theorem Supervised.stop {l pre post : List (Event × St)} {s : St} (h : Supervised l) (hl : l = pre ++ (.stop, s) :: post)
    (hrun : ∃ q ∈ pre, q.2.running = true) : ∃ after, supervision.accepts {} (after ++ (.stop, s) :: post) := by
  cases h with
  | outside hsetup =>
    obtain ⟨q, hq, hrunning⟩ := hrun
    have hmem : q ∈ l := by simp [hl, hq]
    rw [(hsetup q hmem).2] at hrunning
    cases hrunning
  | @entered before after t hbefore ht haccepts hsession =>
    have hfront : ∀ q ∈ before, ¬ q.2.running = true := fun q hq => by simp [(hbefore q hq).2]
    obtain ⟨q, hq, hrunning⟩ := hrun
    obtain ⟨a, rfl, ha⟩ := split_second hl hfront ⟨q, by simp [hq], hrunning⟩
    cases a with
    | nil => cases ha
    | cons q a =>
      obtain ⟨rfl, rfl⟩ := List.cons.inj ha
      exact ⟨a, haccepts⟩

/-- the entry of `run` -/
theorem entry_spec (s : St) : Sat (op E .assign fun s => { s with running := true }) s
    (fun l _ t => ∃ before, l = before ++ [(.assign, t)] ∧ (∀ p ∈ before, p.1.setup ∧ p.2.running = false) ∧
      t.running = true ∧ t.greeterPid = s.greeterPid ∧ t.sessionPid = s.sessionPid) (fun _ _ _ => False) := by
  simp only [op, interfere, sat_bind, sat_get, sat_ite, sat_act, sat_pure]
  constructor
  · exact fun _ => ⟨[(.stop, s.setRunning false)], rfl, by simp [Event.setup, St.setRunning], rfl, rfl, rfl⟩
  · exact fun _ => ⟨[], rfl, by simp, rfl, rfl, rfl⟩

/-- what is supervised, after the part up to the entry of `run` -/
theorem run_supervised (n : ℕ) {l : List (Event × St)} {s : St} (hl : ∀ p ∈ l, p.1.setup ∧ p.2.running = false)
    (hgreeter : s.greeterPid ≤ 0) (hsession : s.sessionPid ≤ 0) :
    Sat (run E n) s (fun l' _ _ => Supervised (l ++ l')) (fun l' _ _ => Supervised (l ++ l')) := by
  have heq : run E n = (do op E .assign fun s => { s with running := true }; attend E n) := rfl
  rw [heq]
  apply (sat_bind _ _).2
  apply Sat.mono (entry_spec E s)
  · intro l' _ t hr
    obtain ⟨before, rfl, hbefore, hrunning, hg, hs⟩ := hr
    have hlog : ∀ {after}, supervision.accepts {} after → (supervision.after {} after).session = none →
        Supervised (l ++ ((before ++ [(.assign, t)]) ++ after)) := by
      intro after haccepts hnone
      have h := Supervised.entered (List.forall_mem_append.2 ⟨hl, hbefore⟩) hrunning haccepts hnone
      simpa using h
    apply Sat.mono (attend_watched E n hrunning (hg ▸ hgreeter) (hs ▸ hsession))
    · exact fun _ _ _ h => hlog h.1 h.2
    · exact fun _ _ _ h => hlog h.1 h.2
  · exact fun _ _ _ h => h.elim

/-- **Every run is supervised.** -/
theorem history_supervised (n : ℕ) : Supervised (history E n) := by
  apply Sat.log (P := Supervised)
  apply (sat_bind _ _).2
  have before : ∀ {l : List (Event × St)}, (∀ p ∈ l, settingUp.allow p.1 p.2 ∧ settingUp.rel (boot E) p.2) →
      ∀ p ∈ l, p.1.setup ∧ p.2.running = false := by
    intro l hl p hp
    obtain ⟨hsetup, hflag⟩ := hl p hp
    refine ⟨hsetup, Bool.eq_false_iff.2 fun h => ?_⟩
    cases hflag h
  apply Sat.mono (Sat.and (init_setup E (boot E)) (init_scanning E (boot E)))
  · intro l ok s hr
    obtain ⟨⟨hl, -⟩, -, hs⟩ := hr
    have hbefore := before hl
    have hgreeter : s.greeterPid = -1 := same_of_erased (p := St.greeterPid) hs.symm fun _ => rfl
    have hsession : s.sessionPid = -1 := same_of_erased (p := St.sessionPid) hs.symm fun _ => rfl
    apply (sat_ite _ _ _).2
    constructor
    · intro _
      apply run_supervised E n hbefore
      · rw [hgreeter]
        decide
      · rw [hsession]
        decide
    · intro _
      apply Supervised.outside
      simpa using hbefore
  · exact fun _ _ _ h => Supervised.outside (before h.1.1)

end Parts

end Miqudm
