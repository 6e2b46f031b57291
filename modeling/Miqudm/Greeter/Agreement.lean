/-
Clients and the daemon together.

`Net` puts any number of clients beside the daemon. The clients take the steps of `send_request` one by one: connect,
write, poll, read, close. The daemon goes through the moments of one of its runs, and what its surroundings answered
there has to fit the clients: it accepts the connection that has waited longest, reads what its client wrote, and finds
the client's end open or closed as it is. `run` takes the steps in any order, so its lists of actions are all the
interleavings.

`agreement`: a client whose `login` returned false has a session launched for it only if the daemon had written the
success reply, and the client closed its end without having read the line. With the default action of SIGPIPE the write
found that end open, since a write to a closed one ends the daemon; where SIGPIPE is ignored the client may have closed
before. `session_after_timeout` is the window that is left in both cases: the timeout of the client comes, then the
reply, and then the client closes. `session_after_close` is a daemon that ignores SIGPIPE.
-/
import Miqudm.Daemon.Supervision
import Miqudm.Daemon.Survival
import Miqudm.Greeter.Replies

namespace Miqudm.Agreement

open Miqudm.Core Prog

/-! ## Clients -/

/-- how far a client has got with `send_request` -/
inductive Stage where
  | idle
  /-- connected, before the request is written -/
  | connected
  /-- in poll -/
  | waiting
  | reading
  /-- done, before the descriptor is closed -/
  | leaving
  | left
  /-- the process ended on the way -/
  | dead
deriving DecidableEq, Repr

/-- what the system calls of a client have answered so far -/
structure Talk where
  connected : Bool := false
  written : ℤ := 0
  ready : Bool := false
  reads : List Str := []
deriving DecidableEq, Repr

def Talk.exchange (x : Talk) : Exchange where
  socket := true
  connect _ := x.connected
  written := x.written
  poll _ := x.ready
  reads := x.reads

structure Client where
  stage : Stage := .idle
  talk : Talk := {}
deriving DecidableEq, Repr

/-- the client holds its end of a connection open -/
def Client.isOpen (c : Client) : Bool :=
  match c.stage with
  | .idle => false
  | .left => false
  | .dead => false
  | _ => true

/-! ## Clients and the daemon -/

structure Net where
  /-- what the daemon goes through from here on -/
  log : List (Event × St)
  client : ℕ → Client := fun _ => {}
  /-- the connections that were not accepted yet -/
  backlog : List ℕ := []
  serving : Option ℕ := none
  /-- what was written and not read yet -/
  toServer : ℕ → Str := fun _ => []
  toClient : ℕ → Str := fun _ => []
  /-- the replies that the daemon wrote, and those of them that found the client's end open -/
  answers : ℕ → List IpcMessage := fun _ => []
  delivered : ℕ → List IpcMessage := fun _ => []
  /-- a session was launched for the client's request -/
  launched : ℕ → Bool := fun _ => false

inductive Action where
  /-- the next moment of the daemon -/
  | daemon
  | connect (c : ℕ) (ok : Bool)
  /-- what write returns -/
  | write (c : ℕ) (written : ℤ)
  /-- does poll report input before the timeout? -/
  | poll (c : ℕ) (ready : Bool)
  /-- a read; an empty chunk is the end of the stream, or an error -/
  | read (c : ℕ) (chunk : Str)
  | close (c : ℕ)
  /-- the client's process ends, and its descriptors are closed -/
  | die (c : ℕ)
deriving DecidableEq, Repr

section Steps

variable (E : Env) (payload : ℕ → Str)

/-- a session is on its way for the client that is being served -/
def Net.launch (t : Net) : Net :=
  match t.serving with
  | some c => { t with launched := Function.update t.launched c true }
  | none => t

/-- a reply reaches an open end; when the end is closed the write fails, or ends the daemon -/
def Net.answer (t : Net) (c : ℕ) (resp : IpcMessage) : Net :=
  let told := { t with answers := Function.update t.answers c (t.answers c ++ [resp]) }
  if (t.client c).isOpen then { told with
    toClient := Function.update t.toClient c (t.toClient c ++ resp.serialize E.json)
    delivered := Function.update t.delivered c (t.delivered c ++ [resp]) }
  else told

/-- what a moment of the daemon does, if it fits the clients -/
def Net.hear (t : Net) (e : Event) (s : St) : Option Net :=
  match e with
  | .accept (some _) => match t.backlog with
    | c :: backlog => some { t with backlog, serving := some c }
    | [] => none
  | .read chunk => match t.serving with
    | some c =>
      if chunk <+: t.toServer c then
        some { t with toServer := Function.update t.toServer c ((t.toServer c).drop chunk.length) }
      else none
    | none => some t
  | .reply resp => match t.serving with
    | some c => if E.peerOpen s.now = (t.client c).isOpen then some (t.answer E c resp) else none
    | none => some t
  | .launch _ _ => some t.launch
  | .fork .session (some _) => some t.launch
  | .close _ => some { t with serving := none }
  | _ => some t

/-- the client gets on -/
def Net.put (t : Net) (c : ℕ) (stage : Stage) (talk : Talk) : Net :=
  { t with client := Function.update t.client c ⟨stage, talk⟩ }

/-- one step of the daemon or of a client; `payload c` is what the client `c` sends -/
def step (t : Net) : Action → Option Net
  | .daemon => match t.log with
    | (e, s) :: log => ({ t with log } : Net).hear E e s
    | [] => none
  | .connect c ok =>
    let x := (t.client c).talk
    if (t.client c).stage ≠ .idle then none
    else if ok then some { t.put c .connected { x with connected := true } with backlog := t.backlog ++ [c] }
    else some (t.put c .left x)
  | .write c written =>
    let x := { (t.client c).talk with written }
    if (t.client c).stage ≠ .connected ∨ (payload c).length < written then none
    else
      let sent := { t with toServer := Function.update t.toServer c (t.toServer c ++ (payload c).take written.toNat) }
      some (sent.put c (if written < (payload c).length then .leaving else .waiting) x)
  | .poll c ready =>
    let x := { (t.client c).talk with ready }
    if (t.client c).stage ≠ .waiting then none else some (t.put c (if ready then .reading else .leaving) x)
  | .read c chunk =>
    let x := (t.client c).talk
    if (t.client c).stage ≠ .reading ∨ ¬ chunk <+: t.toClient c then none
    else if chunk = [] then some (t.put c .leaving x)
    else
      let x := { x with reads := x.reads ++ [chunk] }
      let taken := { t with toClient := Function.update t.toClient c ((t.toClient c).drop chunk.length) }
      some (taken.put c (if (splitFirst '\n' (x.reads.flatMap cstr)).isSome then .leaving else .reading) x)
  | .close c => if (t.client c).stage ≠ .leaving then none else some (t.put c .left (t.client c).talk)
  | .die c => if (t.client c).isOpen then some (t.put c .dead (t.client c).talk) else none

/-- steps in any order -/
def run (t : Net) (acts : List Action) : Option Net := acts.foldlM (step E payload) t

/-- nobody has connected yet -/
def start (log : List (Event × St)) : Net := { log }

end Steps

/-! ## What the daemon's log says -/

def answerStep (a : Option IpcMessage) : Event → Option IpcMessage
  | .accept (some _) => none
  | .reply resp => some resp
  | _ => a

/-- what the client that was accepted last was told -/
def answer (es : List Event) : Option IpcMessage := es.foldl answerStep none

theorem answer_step (k : Watch) (e : Event) : (k.step e).answer = answerStep k.answer e := by
  cases e with
  | poll a => cases a <;> rfl
  | fork what r => cases what <;> cases r <;> rfl
  | accept fd => cases fd <;> rfl
  | _ => rfl

/-- nobody is told anything before the entry of `run` -/
theorem answer_setup (a : Option IpcMessage) (e : Event) (he : e.setup) : answerStep a e = a := by
  cases e <;> first | rfl | exact absurd he Bool.false_ne_true

/-- one reply for each client, and a session only for one that was told of a granted login -/
theorem log_rules {E : Env} {n : ℕ} {pre post : List (Event × St)} {e : Event} {s : St}
    (hsplit : history E n = pre ++ (e, s) :: post) :
    (∀ resp, e = .reply resp → answer (events pre) = none) ∧ (e.admits → answer (events pre) = some granted) := by
  have hrules : e.setup = false → (∀ resp, e = .reply resp → answer (events pre) = none) ∧
      (e.admits → answer (events pre) = some granted) := by
    intro hsetup
    obtain ⟨before, t, after, rfl, hbefore, haccepts, -⟩ := (history_supervised E n).reach hsplit hsetup
    have hanswer : answer (events (before ++ (.assign, t) :: after)) = (supervision.after {} after).answer :=
      view_entered answer_step answer_setup fun q hq => (hbefore q hq).1
    have hgood := supervision.accepts_split haccepts rfl
    rw [hanswer]
    exact ⟨hgood.reply, hgood.admits⟩
  constructor
  · intro resp he
    exact (hrules (by rw [he]; rfl)).1 resp he
  · intro he
    refine (hrules ?_).2 he
    cases e <;> first | exact absurd he Bool.false_ne_true | rfl

/-! ## The invariant -/

/-- the exchange has got as far as the reply -/
structure Talk.Reached (payload : Str) (x : Talk) : Prop where
  connected : x.connected = true
  written : ¬ x.written < payload.length
  ready : x.ready = true

/-- what was answered to a client fits its stage -/
structure Client.Sound (payload : Str) (c : Client) : Prop where
  chunks : ∀ chunk ∈ c.talk.reads, chunk ≠ []
  connected : c.stage = .connected → c.talk.connected = true
  waiting : c.stage = .waiting → c.talk.connected = true ∧ ¬ c.talk.written < payload.length
  reading : c.stage = .reading → c.talk.Reached payload
  reads : c.talk.reads ≠ [] → c.talk.Reached payload ∧ c.stage ≠ .idle ∧ c.stage ≠ .connected ∧ c.stage ≠ .waiting

/-- what was written to the client found its end open, unless SIGPIPE is ignored -/
def Net.Delivers (E : Env) (t : Net) (c : ℕ) : Prop := E.ignoresSigpipe = false → t.delivered c = t.answers c

structure Inv (E : Env) (payload : ℕ → Str) (n : ℕ) (t : Net) : Prop where
  /-- the client that is being served was told what the daemon has written since it accepted it -/
  past : ∃ pre, history E n = pre ++ t.log ∧
    (t.log ≠ [] → ∀ c, t.serving = some c → t.answers c = (answer (events pre)).toList ∧ t.Delivers E c)
  launched : ∀ c, t.launched c = true → t.answers c = [granted] ∧ t.Delivers E c
  /-- a client that was not accepted was told nothing -/
  fresh : ∀ c, (t.client c).stage = .idle ∨ c ∈ t.backlog → t.answers c = []
  /-- what did not find the client's end open was the last thing written to it -/
  delivered : ∀ c, t.delivered c = t.answers c ∨ t.delivered c = []
  queue : t.backlog.Nodup
  served : ∀ c, t.serving = some c → c ∉ t.backlog
  begun : ∀ c, c ∈ t.backlog ∨ t.serving = some c → (t.client c).stage ≠ .idle
  /-- what was read and what is still to be read is what was written -/
  stream : ∀ c, (t.client c).talk.reads.flatten ++ t.toClient c = (t.delivered c).flatMap fun m => m.serialize E.json
  sound : ∀ c, (t.client c).Sound (payload c)

section Invariant

variable {E : Env} {payload : ℕ → Str} {n : ℕ} {t t' : Net}

theorem inv_start : Inv E payload n (start (history E n)) where
  past := ⟨[], rfl, fun _ _ h => by cases h⟩
  launched _ h := by cases h
  fresh _ _ := rfl
  delivered _ := Or.inl rfl
  queue := List.nodup_nil
  served _ h := by cases h
  begun _ h := by rcases h with h | h <;> cases h
  stream _ := rfl
  sound _ := {
    chunks := fun _ h => by cases h
    connected := fun h => by cases h
    waiting := fun h => by cases h
    reading := fun h => by cases h
    reads := fun h => absurd rfl h }

/-! ## The clients' steps -/

@[simp] theorem put_client_self (t : Net) (c : ℕ) (stage : Stage) (x : Talk) : (t.put c stage x).client c = ⟨stage, x⟩ :=
  Function.update_self _ _ _

@[simp] theorem put_client_ne (t : Net) {c d : ℕ} (h : d ≠ c) (stage : Stage) (x : Talk) :
    (t.put c stage x).client d = t.client d := Function.update_of_ne h _ _

/-- a client gets on: what it reads is taken from what was written to it -/
theorem inv_put (h : Inv E payload n t) {c : ℕ} {stage : Stage} {x : Talk} {toServer toClient : ℕ → Str}
    (hstage : stage ≠ .idle) (hsound : Client.Sound (payload c) ⟨stage, x⟩)
    (hself : x.reads.flatten ++ toClient c = (t.client c).talk.reads.flatten ++ t.toClient c)
    (hother : ∀ d, d ≠ c → toClient d = t.toClient d) :
    Inv E payload n (({ t with toServer, toClient } : Net).put c stage x) where
  past := h.past
  launched := h.launched
  delivered := h.delivered
  queue := h.queue
  served := h.served
  fresh d hd := by
    by_cases hdc : d = c
    · subst hdc
      rw [put_client_self] at hd
      exact h.fresh d (Or.inr (hd.resolve_left hstage))
    · rw [put_client_ne _ hdc] at hd
      exact h.fresh d hd
  begun d hd := by
    by_cases hdc : d = c
    · subst hdc
      rw [put_client_self]
      exact hstage
    · rw [put_client_ne _ hdc]
      exact h.begun d hd
  stream d := by
    by_cases hdc : d = c
    · subst hdc
      rw [put_client_self]
      exact hself.trans (h.stream d)
    · rw [put_client_ne _ hdc]
      exact (congrArg _ (hother d hdc)).trans (h.stream d)
  sound d := by
    by_cases hdc : d = c
    · subst hdc
      rw [put_client_self]
      exact hsound
    · rw [put_client_ne _ hdc]
      exact h.sound d

/-- a connection joins the queue -/
theorem inv_enqueue (h : Inv E payload n t) {c : ℕ} (hqueue : c ∉ t.backlog) (hserving : t.serving ≠ some c)
    (hstage : (t.client c).stage ≠ .idle) (hanswers : t.answers c = []) :
    Inv E payload n { t with backlog := t.backlog ++ [c] } where
  past := h.past
  launched := h.launched
  delivered := h.delivered
  stream := h.stream
  sound := h.sound
  queue := by
    rw [List.nodup_append]
    exact ⟨h.queue, by simp, fun a ha b hb heq => hqueue (List.mem_singleton.1 hb ▸ heq ▸ ha)⟩
  served d hd hmem := by
    rcases List.mem_append.1 hmem with hmem | hmem
    · exact h.served d hd hmem
    · exact hserving (List.mem_singleton.1 hmem ▸ hd)
  fresh d hd := by
    by_cases hdc : d = c
    · exact hdc ▸ hanswers
    · exact h.fresh d (hd.imp_right fun hmem => (List.mem_append.1 hmem).resolve_right (by simpa using hdc))
  begun d hd := by
    by_cases hdc : d = c
    · exact hdc ▸ hstage
    · exact h.begun d (hd.imp_left fun hmem => (List.mem_append.1 hmem).resolve_right (by simpa using hdc))

theorem Client.Sound.no_reads {payload : Str} {c : Client} (h : c.Sound payload)
    (hstage : c.stage = .idle ∨ c.stage = .connected ∨ c.stage = .waiting) : c.talk.reads = [] := by
  by_contra hne
  obtain ⟨-, hidle, hconnected, hwaiting⟩ := h.reads hne
  rcases hstage with hstage | hstage | hstage
  · exact hidle hstage
  · exact hconnected hstage
  · exact hwaiting hstage

/-- without reads, and in a stage that asks for nothing -/
theorem sound_of_no_reads {payload : Str} {stage : Stage} {x : Talk} (hreads : x.reads = [])
    (hconnected : stage = .connected → x.connected = true)
    (hwaiting : stage = .waiting → x.connected = true ∧ ¬ x.written < payload.length)
    (hreading : stage = .reading → x.Reached payload) : Client.Sound payload ⟨stage, x⟩ where
  chunks := by simp [hreads]
  connected := hconnected
  waiting := hwaiting
  reading := hreading
  reads h := absurd hreads h

/-- at the end of an exchange, whatever was read -/
theorem Client.Sound.ended {payload : Str} {c : Client} (h : c.Sound payload) {stage : Stage}
    (hstage : stage = .leaving ∨ stage = .left ∨ stage = .dead) : Client.Sound payload ⟨stage, c.talk⟩ where
  chunks := h.chunks
  connected hs := by rcases hstage with rfl | rfl | rfl <;> cases hs
  waiting hs := by rcases hstage with rfl | rfl | rfl <;> cases hs
  reading hs := by rcases hstage with rfl | rfl | rfl <;> cases hs
  reads hne := ⟨(h.reads hne).1, by rcases hstage with rfl | rfl | rfl <;> simp⟩

theorem inv_connect (h : Inv E payload n t) {c : ℕ} {ok : Bool} (hstep : step E payload t (.connect c ok) = some t') :
    Inv E payload n t' := by
  have hsound := h.sound c
  simp only [step] at hstep
  split_ifs at hstep with hidle hok
  · have hidle : (t.client c).stage = .idle := not_not.1 hidle
    have hreads := hsound.no_reads (Or.inl hidle)
    have hput : Inv E payload n (t.put c .connected { (t.client c).talk with connected := true }) :=
      inv_put h (by simp) (sound_of_no_reads hreads (fun _ => rfl) (by simp) (by simp)) rfl (fun _ _ => rfl)
    obtain rfl := Option.some_inj.1 hstep
    refine inv_enqueue hput (fun hmem => h.begun c (Or.inl hmem) hidle) (fun hs => h.begun c (Or.inr hs) hidle) ?_ ?_
    · rw [put_client_self]
      simp
    · exact h.fresh c (Or.inl hidle)
  · have hidle : (t.client c).stage = .idle := not_not.1 hidle
    obtain rfl := Option.some_inj.1 hstep
    exact inv_put h (by simp) (hsound.ended (by simp)) rfl (fun _ _ => rfl)

theorem inv_write (h : Inv E payload n t) {c : ℕ} {written : ℤ}
    (hstep : step E payload t (.write c written) = some t') : Inv E payload n t' := by
  have hsound := h.sound c
  simp only [step] at hstep
  split_ifs at hstep with hguard hshort
  · obtain ⟨hstage, -⟩ := not_or.1 hguard
    have hreads := hsound.no_reads (Or.inr (Or.inl (not_not.1 hstage)))
    obtain rfl := Option.some_inj.1 hstep
    exact inv_put h (by simp) (sound_of_no_reads hreads (by simp) (by simp) (by simp)) rfl (fun _ _ => rfl)
  · obtain ⟨hstage, -⟩ := not_or.1 hguard
    have hstage := not_not.1 hstage
    have hreads := hsound.no_reads (Or.inr (Or.inl hstage))
    obtain rfl := Option.some_inj.1 hstep
    refine inv_put h (by simp) (sound_of_no_reads hreads (by simp) (fun _ => ?_) (by simp)) rfl (fun _ _ => rfl)
    exact ⟨hsound.connected hstage, hshort⟩

theorem inv_poll (h : Inv E payload n t) {c : ℕ} {ready : Bool} (hstep : step E payload t (.poll c ready) = some t') :
    Inv E payload n t' := by
  have hsound := h.sound c
  simp only [step] at hstep
  split_ifs at hstep with hguard hready
  · have hstage : (t.client c).stage = .waiting := not_not.1 hguard
    have hreads := hsound.no_reads (Or.inr (Or.inr hstage))
    obtain ⟨hconnected, hwritten⟩ := hsound.waiting hstage
    obtain rfl := Option.some_inj.1 hstep
    refine inv_put h (by simp) (sound_of_no_reads hreads (by simp) (by simp) fun _ => ?_) rfl (fun _ _ => rfl)
    exact ⟨hconnected, hwritten, hready⟩
  · have hstage : (t.client c).stage = .waiting := not_not.1 hguard
    have hreads := hsound.no_reads (Or.inr (Or.inr hstage))
    obtain rfl := Option.some_inj.1 hstep
    exact inv_put h (by simp) (sound_of_no_reads hreads (by simp) (by simp) (by simp)) rfl (fun _ _ => rfl)

theorem Client.Sound.more {payload : Str} {c : Client} (h : c.Sound payload) (hreached : c.talk.Reached payload)
    {chunk : Str} (hchunk : chunk ≠ []) {stage : Stage} (hstage : stage = .reading ∨ stage = .leaving) :
    Client.Sound payload ⟨stage, { c.talk with reads := c.talk.reads ++ [chunk] }⟩ where
  chunks d hd := by
    rcases List.mem_append.1 hd with hd | hd
    · exact h.chunks d hd
    · exact List.mem_singleton.1 hd ▸ hchunk
  connected hs := by rcases hstage with rfl | rfl <;> cases hs
  waiting hs := by rcases hstage with rfl | rfl <;> cases hs
  reading _ := ⟨hreached.connected, hreached.written, hreached.ready⟩
  reads _ := ⟨⟨hreached.connected, hreached.written, hreached.ready⟩, by rcases hstage with rfl | rfl <;> simp⟩

theorem inv_read (h : Inv E payload n t) {c : ℕ} {chunk : Str} (hstep : step E payload t (.read c chunk) = some t') :
    Inv E payload n t' := by
  have hsound := h.sound c
  simp only [step] at hstep
  by_cases hguard : (t.client c).stage ≠ .reading ∨ ¬ chunk <+: t.toClient c
  · rw [if_pos hguard] at hstep
    cases hstep
  rw [if_neg hguard] at hstep
  obtain ⟨hstage, hprefix⟩ := not_or.1 hguard
  by_cases hempty : chunk = []
  · rw [if_pos hempty] at hstep
    obtain rfl := Option.some_inj.1 hstep
    exact inv_put h (by simp) (hsound.ended (by simp)) rfl (fun _ _ => rfl)
  · rw [if_neg hempty] at hstep
    obtain rfl := Option.some_inj.1 hstep
    have hreached := hsound.reading (not_not.1 hstage)
    obtain ⟨rest, hrest⟩ := not_not.1 hprefix
    have hself : ((t.client c).talk.reads ++ [chunk]).flatten ++
        Function.update t.toClient c ((t.toClient c).drop chunk.length) c =
        (t.client c).talk.reads.flatten ++ t.toClient c := by
      rw [Function.update_self, ← hrest, List.drop_left]
      simp
    refine inv_put h ?_ (hsound.more hreached hempty ?_) hself fun d hd => Function.update_of_ne hd _ _
    · split_ifs <;> simp
    · split_ifs <;> simp

theorem inv_close (h : Inv E payload n t) {c : ℕ} (hstep : step E payload t (.close c) = some t') :
    Inv E payload n t' := by
  simp only [step] at hstep
  split_ifs at hstep
  obtain rfl := Option.some_inj.1 hstep
  exact inv_put h (by simp) ((h.sound c).ended (by simp)) rfl (fun _ _ => rfl)

theorem inv_die (h : Inv E payload n t) {c : ℕ} (hstep : step E payload t (.die c) = some t') :
    Inv E payload n t' := by
  simp only [step] at hstep
  split_ifs at hstep
  obtain rfl := Option.some_inj.1 hstep
  exact inv_put h (by simp) ((h.sound c).ended (by simp)) rfl (fun _ _ => rfl)

/-! ## The daemon's steps -/

theorem answer_snoc (pre : List (Event × St)) (e : Event) (s : St) :
    answer (events (pre ++ [(e, s)])) = answerStep (answer (events pre)) e := by
  rw [answer, events_append, List.foldl_append]
  rfl

/-- where the daemon is -/
theorem Inv.next (h : Inv E payload n t) {e : Event} {s : St} {log : List (Event × St)} (hlog : t.log = (e, s) :: log) :
    ∃ pre, history E n = pre ++ (e, s) :: log ∧
      ∀ c, t.serving = some c → t.answers c = (answer (events pre)).toList ∧ t.Delivers E c := by
  obtain ⟨pre, hhistory, hanswers⟩ := h.past
  rw [hlog] at hhistory hanswers
  exact ⟨pre, hhistory, hanswers (List.cons_ne_nil _ _)⟩

section Moment

variable {e : Event} {s : St} {log : List (Event × St)}

/-- a moment that tells nobody anything -/
theorem inv_pass (h : Inv E payload n t) (hlog : t.log = (e, s) :: log) (he : ∀ a, answerStep a e = a) :
    Inv E payload n { t with log } where
  past := by
    obtain ⟨pre, hhistory, hanswers⟩ := h.next hlog
    refine ⟨pre ++ [(e, s)], by simpa using hhistory, fun _ c hc => ?_⟩
    rw [answer_snoc, he]
    exact hanswers c hc
  launched := h.launched
  fresh := h.fresh
  delivered := h.delivered
  queue := h.queue
  served := h.served
  begun := h.begun
  stream := h.stream
  sound := h.sound

/-- nobody is being served -/
theorem inv_alone (h : Inv E payload n t) (hlog : t.log = (e, s) :: log) :
    Inv E payload n { t with log, serving := none } where
  past := by
    obtain ⟨pre, hhistory, -⟩ := h.next hlog
    exact ⟨pre ++ [(e, s)], by simpa using hhistory, fun _ c hc => by cases hc⟩
  launched := h.launched
  fresh := h.fresh
  delivered := h.delivered
  queue := h.queue
  served c hc := by cases hc
  begun c hc := h.begun c (Or.inl (hc.resolve_right fun hc => by cases hc))
  stream := h.stream
  sound := h.sound

theorem inv_accept (h : Inv E payload n t) {fd : ℤ} (hlog : t.log = (.accept (some fd), s) :: log) {c : ℕ}
    {backlog : List ℕ} (hbacklog : t.backlog = c :: backlog) :
    Inv E payload n { t with log, backlog, serving := some c } where
  past := by
    obtain ⟨pre, hhistory, -⟩ := h.next hlog
    refine ⟨pre ++ [(.accept (some fd), s)], by simpa using hhistory, fun _ d hd => ?_⟩
    obtain rfl := Option.some_inj.1 hd
    have hnone : t.answers c = [] := h.fresh c (Or.inr (hbacklog ▸ List.mem_cons_self))
    rw [answer_snoc]
    refine ⟨hnone, fun _ => ?_⟩
    rcases h.delivered c with hall | hnothing
    · exact hall
    · exact hnothing.trans hnone.symm
  launched := h.launched
  delivered := h.delivered
  fresh d hd := h.fresh d (hd.imp_right fun hmem => hbacklog ▸ List.mem_cons_of_mem _ hmem)
  queue := (List.nodup_cons.1 (hbacklog ▸ h.queue)).2
  served d hd := Option.some_inj.1 hd ▸ (List.nodup_cons.1 (hbacklog ▸ h.queue)).1
  begun d hd := by
    refine h.begun d (Or.inl ?_)
    rw [hbacklog]
    rcases hd with hd | hd
    · exact List.mem_cons_of_mem _ hd
    · exact Option.some_inj.1 hd ▸ List.mem_cons_self
  stream := h.stream
  sound := h.sound

/-- the client that is about to be told something: it was told nothing, nothing was launched for it, and it is neither idle
nor in the queue -/
structure Unanswered (t : Net) (c : ℕ) : Prop where
  answers : t.answers c = []
  delivered : t.delivered c = []
  launched : ∀ d, t.launched d = true → d ≠ c
  fresh : ∀ d, (t.client d).stage = .idle ∨ d ∈ t.backlog → d ≠ c

theorem Inv.unanswered (h : Inv E payload n t) {resp : IpcMessage} (hlog : t.log = (.reply resp, s) :: log) {c : ℕ}
    (hc : t.serving = some c) : Unanswered t c := by
  obtain ⟨pre, hhistory, hanswers⟩ := h.next hlog
  have hnone : t.answers c = [] := by
    rw [(hanswers c hc).1, (log_rules hhistory).1 resp rfl]
    rfl
  refine ⟨hnone, ?_, ?_, ?_⟩
  · rcases h.delivered c with hall | hnothing
    · exact hall.trans hnone
    · exact hnothing
  · rintro d hd rfl
    have hgranted := (h.launched d hd).1
    rw [hnone] at hgranted
    cases hgranted
  · rintro d hd rfl
    rcases hd with hd | hd
    · exact h.begun d (Or.inr hc) hd
    · exact h.served d hc hd

/-- the reply reaches the client -/
theorem inv_deliver (h : Inv E payload n t) {resp : IpcMessage} (hlog : t.log = (.reply resp, s) :: log) {c : ℕ}
    (hc : t.serving = some c) :
    Inv E payload n { t with
      log
      answers := Function.update t.answers c (t.answers c ++ [resp])
      toClient := Function.update t.toClient c (t.toClient c ++ resp.serialize E.json)
      delivered := Function.update t.delivered c (t.delivered c ++ [resp]) } := by
  obtain ⟨pre, hhistory, -⟩ := h.next hlog
  obtain ⟨hnone, hundelivered, hlaunched, hfresh⟩ := h.unanswered hlog hc
  exact {
    past := by
      refine ⟨pre ++ [(.reply resp, s)], by simpa using hhistory, fun _ d hd => ?_⟩
      obtain rfl := Option.some_inj.1 (hc.symm.trans hd)
      rw [answer_snoc]
      simp [Net.Delivers, hnone, hundelivered, answerStep]
    launched := by
      intro d hd
      simpa only [Net.Delivers, Function.update_of_ne (hlaunched d hd)] using h.launched d hd
    fresh := fun d hd => (Function.update_of_ne (hfresh d hd) _ _).trans (h.fresh d hd)
    delivered := by
      intro d
      by_cases hdc : d = c
      · subst hdc
        simp [hnone, hundelivered]
      · simpa only [Function.update_of_ne hdc] using h.delivered d
    queue := h.queue
    served := h.served
    begun := h.begun
    stream := by
      intro d
      have hstream := h.stream d
      by_cases hdc : d = c
      · subst hdc
        simp only [Function.update_self, List.flatMap_append, ← hstream]
        simp
      · simpa only [Function.update_of_ne hdc] using hstream
    sound := h.sound }

/-- the reply meets a closed end: it is the last moment of all, unless SIGPIPE is ignored -/
theorem inv_miss (h : Inv E payload n t) {resp : IpcMessage} (hlog : t.log = (.reply resp, s) :: log) {c : ℕ}
    (hc : t.serving = some c) (hclosed : E.peerOpen s.now = false) :
    Inv E payload n { t with log, answers := Function.update t.answers c (t.answers c ++ [resp]) } := by
  obtain ⟨pre, hhistory, -⟩ := h.next hlog
  obtain ⟨hnone, hundelivered, hlaunched, hfresh⟩ := h.unanswered hlog hc
  exact {
    past := by
      refine ⟨pre ++ [(.reply resp, s)], by simpa using hhistory, fun hne d hd => ?_⟩
      obtain rfl := Option.some_inj.1 (hc.symm.trans hd)
      rw [answer_snoc]
      refine ⟨by simp [hnone, answerStep], fun hdefault => ?_⟩
      exact absurd (last_of_harm E hhistory (by simp [Harmless, hclosed, hdefault])) hne
    launched := by
      intro d hd
      simpa only [Net.Delivers, Function.update_of_ne (hlaunched d hd)] using h.launched d hd
    fresh := fun d hd => (Function.update_of_ne (hfresh d hd) _ _).trans (h.fresh d hd)
    delivered := by
      intro d
      by_cases hdc : d = c
      · exact Or.inr (hdc ▸ hundelivered)
      · simpa only [Function.update_of_ne hdc] using h.delivered d
    queue := h.queue
    served := h.served
    begun := h.begun
    stream := h.stream
    sound := h.sound }

theorem inv_answer (h : Inv E payload n t) {resp : IpcMessage} (hlog : t.log = (.reply resp, s) :: log) {c : ℕ}
    (hc : t.serving = some c) (hpeer : E.peerOpen s.now = (t.client c).isOpen) :
    Inv E payload n (({ t with log } : Net).answer E c resp) := by
  by_cases hopen : (t.client c).isOpen = true
  · rw [Net.answer, if_pos hopen]
    exact inv_deliver h hlog hc
  · rw [Net.answer, if_neg hopen]
    exact inv_miss h hlog hc (hpeer.trans (Bool.eq_false_iff.2 hopen))

theorem inv_launch (h : Inv E payload n t)
    (hanswers : ∀ c, t.serving = some c → t.answers c = [granted] ∧ t.Delivers E c) :
    Inv E payload n t.launch := by
  cases hc : t.serving with
  | none =>
    have hlaunch : t.launch = t := by simp only [Net.launch, hc]
    rw [hlaunch]
    exact h
  | some c =>
    have hlaunch : t.launch = { t with launched := Function.update t.launched c true } := by simp only [Net.launch, hc]
    rw [hlaunch]
    exact { h with
      launched := by
        intro d hd
        by_cases hdc : d = c
        · exact hdc ▸ hanswers c hc
        · exact h.launched d ((Function.update_of_ne hdc _ _).symm.trans hd) }

/-- a session is only on its way for a client that was told so -/
theorem inv_admit (h : Inv E payload n t) (hlog : t.log = (e, s) :: log) (he : ∀ a, answerStep a e = a)
    (hadmits : e.admits) : Inv E payload n ({ t with log } : Net).launch := by
  obtain ⟨pre, hhistory, hanswers⟩ := h.next hlog
  apply inv_launch (inv_pass h hlog he)
  intro c hc
  obtain ⟨hc, hdelivers⟩ := hanswers c hc
  rw [(log_rules hhistory).2 hadmits] at hc
  exact ⟨hc, hdelivers⟩

theorem inv_hear (h : Inv E payload n t) (hlog : t.log = (e, s) :: log)
    (hstep : ({ t with log } : Net).hear E e s = some t') : Inv E payload n t' := by
  have hquiet : (∀ a, answerStep a e = a) → ({ t with log } : Net) = t' → Inv E payload n t' :=
    fun he ht => ht ▸ inv_pass h hlog he
  cases e with
  | accept fd =>
    cases fd with
    | none => exact hquiet (fun _ => rfl) (Option.some_inj.1 hstep)
    | some fd =>
      cases hbacklog : t.backlog with
      | nil => simp [Net.hear, hbacklog] at hstep
      | cons c backlog =>
        simp only [Net.hear, hbacklog] at hstep
        exact Option.some_inj.1 hstep ▸ inv_accept h hlog hbacklog
  | read chunk =>
    cases hc : t.serving with
    | none =>
      simp only [Net.hear, hc] at hstep
      exact hquiet (fun _ => rfl) (by rw [← Option.some_inj.1 hstep, hc])
    | some c =>
      simp only [Net.hear, hc] at hstep
      split_ifs at hstep
      have hpass := inv_pass h hlog fun _ => rfl
      rw [hc] at hpass
      exact Option.some_inj.1 hstep ▸ { hpass with }
  | reply resp =>
    cases hc : t.serving with
    | none =>
      simp only [Net.hear, hc] at hstep
      exact Option.some_inj.1 hstep ▸ inv_alone h hlog
    | some c =>
      simp only [Net.hear, hc] at hstep
      split_ifs at hstep with hpeer
      rw [← hc] at hstep
      exact Option.some_inj.1 hstep ▸ inv_answer h hlog hc hpeer
  | launch user session => exact Option.some_inj.1 hstep ▸ inv_admit h hlog (fun _ => rfl) rfl
  | fork what r =>
    cases what with
    | greeter => cases r <;> exact hquiet (fun _ => rfl) (Option.some_inj.1 hstep)
    | session =>
      cases r with
      | none => exact hquiet (fun _ => rfl) (Option.some_inj.1 hstep)
      | some pid => exact Option.some_inj.1 hstep ▸ inv_admit h hlog (fun _ => rfl) rfl
  | close fd =>
    have halone := inv_alone h hlog
    exact Option.some_inj.1 hstep ▸ halone
  | _ => exact hquiet (fun _ => rfl) (Option.some_inj.1 hstep)

end Moment

theorem inv_daemon (h : Inv E payload n t) (hstep : step E payload t .daemon = some t') : Inv E payload n t' := by
  cases hlog : t.log with
  | nil => simp [step, hlog] at hstep
  | cons p log =>
    simp only [step, hlog] at hstep
    exact inv_hear h hlog hstep

/-- every step keeps the invariant -/
theorem inv_step (h : Inv E payload n t) {a : Action} (hstep : step E payload t a = some t') : Inv E payload n t' := by
  cases a with
  | daemon => exact inv_daemon h hstep
  | connect c ok => exact inv_connect h hstep
  | write c written => exact inv_write h hstep
  | poll c ready => exact inv_poll h hstep
  | read c chunk => exact inv_read h hstep
  | close c => exact inv_close h hstep
  | die c => exact inv_die h hstep

theorem run_cons {a : Action} {acts : List Action} (hrun : run E payload t (a :: acts) = some t') :
    ∃ t₁, step E payload t a = some t₁ ∧ run E payload t₁ acts = some t' := by
  rw [run, List.foldlM_cons] at hrun
  exact Option.bind_eq_some_iff.1 hrun

/-- and so does every interleaving -/
theorem inv_run : ∀ (acts : List Action) {t t' : Net}, Inv E payload n t → run E payload t acts = some t' →
    Inv E payload n t' := by
  intro acts
  induction acts with
  | nil =>
    intro t t' h hrun
    exact Option.some_inj.1 hrun ▸ h
  | cons a acts ih =>
    intro t t' h hrun
    obtain ⟨t₁, hstep, hrun⟩ := run_cons hrun
    exact ih (inv_step h hstep) hrun

/-! ## A client that has left -/

@[simp] theorem launch_client (t : Net) : t.launch.client = t.client := by
  rw [Net.launch]
  cases t.serving <;> rfl

@[simp] theorem launch_delivered (t : Net) : t.launch.delivered = t.delivered := by
  rw [Net.launch]
  cases t.serving <;> rfl

theorem answer_closed {c : ℕ} (hc : (t.client c).isOpen = false) (d : ℕ) (resp : IpcMessage) :
    (t.answer E d resp).client = t.client ∧ (t.answer E d resp).delivered c = t.delivered c := by
  rw [Net.answer]
  by_cases hd : (t.client d).isOpen = true
  · have hne : c ≠ d := by
      rintro rfl
      rw [hc] at hd
      cases hd
    rw [if_pos hd]
    exact ⟨rfl, Function.update_of_ne hne _ _⟩
  · rw [if_neg hd]
    exact ⟨rfl, rfl⟩

theorem hear_closed {c : ℕ} (hc : (t.client c).isOpen = false) {e : Event} {s : St} (hstep : t.hear E e s = some t') :
    t'.client = t.client ∧ t'.delivered c = t.delivered c := by
  have hsame : t' = t → t'.client = t.client ∧ t'.delivered c = t.delivered c := fun h => h ▸ ⟨rfl, rfl⟩
  have hlaunch : t.launch = t' → t'.client = t.client ∧ t'.delivered c = t.delivered c := by
    rintro rfl
    simp
  cases e with
  | accept fd =>
    cases fd with
    | none => exact hsame (Option.some_inj.1 hstep).symm
    | some fd =>
      simp only [Net.hear] at hstep
      split at hstep
      · exact Option.some_inj.1 hstep ▸ ⟨rfl, rfl⟩
      · cases hstep
  | read chunk =>
    simp only [Net.hear] at hstep
    split at hstep
    · split_ifs at hstep
      exact Option.some_inj.1 hstep ▸ ⟨rfl, rfl⟩
    · exact hsame (Option.some_inj.1 hstep).symm
  | reply resp =>
    simp only [Net.hear] at hstep
    split at hstep
    · split_ifs at hstep
      exact Option.some_inj.1 hstep ▸ answer_closed hc _ resp
    · exact hsame (Option.some_inj.1 hstep).symm
  | launch user session => exact hlaunch (Option.some_inj.1 hstep)
  | fork what r =>
    cases what with
    | greeter => cases r <;> exact hsame (Option.some_inj.1 hstep).symm
    | session =>
      cases r with
      | none => exact hsame (Option.some_inj.1 hstep).symm
      | some pid => exact hlaunch (Option.some_inj.1 hstep)
  | close fd => exact Option.some_inj.1 hstep ▸ ⟨rfl, rfl⟩
  | _ => exact hsame (Option.some_inj.1 hstep).symm

/-- nothing reaches a client that has left -/
theorem step_left {c : ℕ} (hleft : (t.client c).stage = .left) {a : Action} (hstep : step E payload t a = some t') :
    t'.client c = t.client c ∧ t'.delivered c = t.delivered c := by
  have hother : ∀ {d : ℕ} {stage : Stage}, (t.client d).stage = stage → stage ≠ .left → c ≠ d := by
    rintro d stage hd hstage rfl
    exact hstage (hd.symm.trans hleft)
  have hclosed : (t.client c).isOpen = false := by simp only [Client.isOpen, hleft]
  cases a with
  | daemon =>
    cases hlog : t.log with
    | nil => simp [step, hlog] at hstep
    | cons p log =>
      simp only [step, hlog] at hstep
      obtain ⟨hclient, hdelivered⟩ := hear_closed (t := { t with log }) hclosed hstep
      exact ⟨congrFun hclient c, hdelivered⟩
  | connect d ok =>
    simp only [step] at hstep
    split_ifs at hstep with hidle
    · obtain rfl := Option.some_inj.1 hstep
      exact ⟨put_client_ne _ (hother (not_not.1 hidle) (by simp)) _ _, rfl⟩
    · obtain rfl := Option.some_inj.1 hstep
      exact ⟨put_client_ne _ (hother (not_not.1 hidle) (by simp)) _ _, rfl⟩
  | write d written =>
    simp only [step] at hstep
    by_cases hguard : (t.client d).stage ≠ .connected ∨ (payload d).length < written
    · rw [if_pos hguard] at hstep
      cases hstep
    · rw [if_neg hguard] at hstep
      obtain rfl := Option.some_inj.1 hstep
      exact ⟨put_client_ne _ (hother (not_not.1 (not_or.1 hguard).1) (by simp)) _ _, rfl⟩
  | poll d ready =>
    simp only [step] at hstep
    by_cases hguard : (t.client d).stage ≠ .waiting
    · rw [if_pos hguard] at hstep
      cases hstep
    · rw [if_neg hguard] at hstep
      obtain rfl := Option.some_inj.1 hstep
      exact ⟨put_client_ne _ (hother (not_not.1 hguard) (by simp)) _ _, rfl⟩
  | read d chunk =>
    simp only [step] at hstep
    by_cases hguard : (t.client d).stage ≠ .reading ∨ ¬ chunk <+: t.toClient d
    · rw [if_pos hguard] at hstep
      cases hstep
    · rw [if_neg hguard] at hstep
      have hne := hother (not_not.1 (not_or.1 hguard).1) (by simp)
      split_ifs at hstep <;> exact Option.some_inj.1 hstep ▸ ⟨put_client_ne _ hne _ _, rfl⟩
  | close d =>
    simp only [step] at hstep
    split_ifs at hstep with hguard
    obtain rfl := Option.some_inj.1 hstep
    exact ⟨put_client_ne _ (hother (not_not.1 hguard) (by simp)) _ _, rfl⟩
  | die d =>
    simp only [step] at hstep
    split_ifs at hstep with hopen
    obtain rfl := Option.some_inj.1 hstep
    have hne : c ≠ d := by
      rintro rfl
      rw [hclosed] at hopen
      cases hopen
    exact ⟨put_client_ne _ hne _ _, rfl⟩

theorem run_left {c : ℕ} : ∀ (acts : List Action) {t t' : Net}, (t.client c).stage = .left →
    run E payload t acts = some t' → t'.client c = t.client c ∧ t'.delivered c = t.delivered c := by
  intro acts
  induction acts with
  | nil =>
    intro t t' _ hrun
    exact Option.some_inj.1 hrun ▸ ⟨rfl, rfl⟩
  | cons a acts ih =>
    intro t t' hleft hrun
    obtain ⟨t₁, hstep, hrun⟩ := run_cons hrun
    obtain ⟨hclient, hdelivered⟩ := step_left hleft hstep
    obtain ⟨hclient', hdelivered'⟩ := ih (hclient ▸ hleft) hrun
    exact ⟨hclient'.trans hclient, hdelivered'.trans hdelivered⟩

/-! ## The outcome -/

/-- a client that has read the line of the success reply knows of it -/
theorem login_true (h : Inv E payload n t) {c : ℕ} {username password sessionExec desktopName : Str}
    (hJ : E.json.WritesLine granted.toJson) (hparse : E.json.parse (E.json.write granted.toJson) = .root granted.toJson)
    (hpayload : payload c = (loginRequest username password sessionExec desktopName).serialize E.json)
    (hdelivered : t.delivered c = [granted]) (hline : '\n' ∈ (t.client c).talk.reads.flatten) (client : IpcClient)
    (err : Str) :
    client.login E.json (t.client c).talk.exchange username password sessionExec desktopName err = .ok (true, err) := by
  have hsound := h.sound c
  have hreads : (t.client c).talk.reads ≠ [] := by
    intro hnil
    rw [hnil] at hline
    cases hline
  obtain ⟨hreached, -⟩ := hsound.reads hreads
  have hstream := h.stream c
  rw [hdelivered, List.flatMap_singleton] at hstream
  have hall : (t.client c).talk.reads.flatten = granted.serialize E.json ++ [] := by
    have hprefix : (t.client c).talk.reads.flatten <+: granted.serialize E.json := ⟨_, hstream⟩
    rw [List.append_nil]
    exact (List.prefix_concat_iff.1 hprefix).resolve_right fun hpart => hJ.1 (hpart.subset hline)
  obtain ⟨reads, rest, hread⟩ := readLine_serialize hJ hsound.chunks hall
  have hreaches : (t.client c).talk.exchange.Reaches E.json client
      (loginRequest username password sessionExec desktopName) 10000 :=
    ⟨rfl, hreached.connected, hpayload ▸ hreached.written, hreached.ready⟩
  have hdecode : deserialize E.json (E.json.write granted.toJson) = .ok granted := by
    rw [deserialize, hparse]
    exact messageOfJson_toJson granted
  have hreceive : receive [] (t.client c).talk.exchange.reads = some (E.json.write granted.toJson) := by
    rw [← serialize_dropLast]
    exact receive_of_line _ hread
  rw [IpcClient.login, sendRequest_of_reaches hreaches, hreceive, answerOf, hdecode]
  rfl

end Invariant

/-- **A session despite a false answer.** Any number of clients and the daemon run in any order. A session is launched
for a request whose `login` returned false, before that or ever after, only if the daemon wrote the success reply, and
the client closed its end without having read the reply's line. Unless SIGPIPE is ignored, the reply was written while
that end was open. -/
theorem agreement (E : Env) (n : ℕ) (payload : ℕ → Str) (acts : List Action) (t : Net) (c : ℕ) (client : IpcClient)
    (username password sessionExec desktopName err err' : Str) (hJ : E.json.WritesLine granted.toJson)
    (hparse : E.json.parse (E.json.write granted.toJson) = .root granted.toJson)
    (hpayload : payload c = (loginRequest username password sessionExec desktopName).serialize E.json)
    (hrun : run E payload (start (history E n)) acts = some t) (hleft : (t.client c).stage = .left)
    (hfalse : client.login E.json (t.client c).talk.exchange username password sessionExec desktopName err =
      .ok (false, err')) :
    ∀ acts' t', run E payload t acts' = some t' → t'.launched c = true →
      t'.answers c = [granted] ∧ '\n' ∉ (t.client c).talk.reads.flatten ∧
      (E.ignoresSigpipe = false → t.delivered c = [granted]) := by
  intro acts' t' hrun' hlaunched
  have h := inv_run acts inv_start hrun
  have h' := inv_run acts' h hrun'
  have hsame : t'.delivered c = t.delivered c := (run_left acts' hleft hrun').2
  obtain ⟨hanswers, hdelivers⟩ := h'.launched c hlaunched
  refine ⟨hanswers, fun hline => ?_, fun hdefault => ?_⟩
  · have hdelivered : t.delivered c = [granted] := by
      rcases h'.delivered c with hall | hnothing
      · rw [← hsame, hall, hanswers]
      · -- the line was read from what was delivered
        have hstream := h.stream c
        rw [← hsame, hnothing, List.flatMap_nil, List.append_eq_nil_iff] at hstream
        rw [hstream.1] at hline
        cases hline
    have htrue := login_true h hJ hparse hpayload hdelivered hline client err
    rw [hfalse] at htrue
    cases htrue
  · rw [← hsame, hdelivers hdefault, hanswers]

/-! ## Witnesses -/

def request : IpcMessage := loginRequest (lit "alice") (lit "secret") (lit "miquland") (lit "miquland")

/-- jsoncpp on the two messages of the exchange -/
def exchangeJson : JsonCpp where
  parse raw :=
    if raw = compact request.toJson then .root request.toJson
    else if raw = compact granted.toJson then .root granted.toJson
    else .failed (lit "Syntax error")
  write := compact

def busy : Env := { machine [greeterAccount, alice] [] request with json := exchangeJson }

def sent : Str := request.serialize exchangeJson

/-- the client waits too long, and the reply comes before it has closed -/
def timeout : List Action :=
  [.connect 0 true, .write 0 sent.length] ++ List.replicate 46 .daemon ++ [.poll 0 false, .daemon, .close 0]

/-- the daemon goes on -/
def served : List Action := List.replicate 83 .daemon

theorem timeout_run : ∃ t, run busy (fun _ => sent) (start (history busy 1)) timeout = some t ∧
    t.client 0 = ⟨.left, { connected := true, written := sent.length }⟩ ∧
    ∃ t', run busy (fun _ => sent) t served = some t' ∧ t'.launched 0 = true := by
  have hrun : ((run busy (fun _ => sent) (start (history busy 1)) timeout).bind fun t =>
      (run busy (fun _ => sent) t served).map fun t' => (t.client 0, t'.launched 0)) =
      some (⟨.left, { connected := true, written := sent.length }⟩, true) := by decide +kernel
  obtain ⟨t, hrun, hserved⟩ := Option.bind_eq_some_iff.1 hrun
  obtain ⟨t', hserved, heq⟩ := Option.map_eq_some_iff.1 hserved
  obtain ⟨hclient, hlaunched⟩ := Prod.mk.inj heq
  exact ⟨t, hrun, hclient, t', hserved, hlaunched⟩

theorem login_timeout {t : Net} (h : t.client 0 = ⟨.left, { connected := true, written := sent.length }⟩) :
    IpcClient.login exchangeJson ⟨defaultSocketPath⟩ (t.client 0).talk.exchange (lit "alice") (lit "secret")
      (lit "miquland") (lit "miquland") [] = .ok (false, lit "Failed to communicate with miqudm daemon") := by
  rw [h]
  decide +kernel

/-- `login` has returned false, and then the daemon launches the session -/
theorem session_after_timeout : ∃ t, run busy (fun _ => sent) (start (history busy 1)) timeout = some t ∧
    (t.client 0).stage = .left ∧
    IpcClient.login busy.json ⟨defaultSocketPath⟩ (t.client 0).talk.exchange (lit "alice") (lit "secret")
      (lit "miquland") (lit "miquland") [] = .ok (false, lit "Failed to communicate with miqudm daemon") ∧
    ∃ t', run busy (fun _ => sent) t served = some t' ∧ t'.launched 0 = true := by
  obtain ⟨t, hrun, hclient, hserved⟩ := timeout_run
  exact ⟨t, hrun, by rw [hclient], login_timeout hclient, hserved⟩

/-- there the reply was written before the client closed -/
theorem agreement_timeout : ∃ t, run busy (fun _ => sent) (start (history busy 1)) timeout = some t ∧
    t.delivered 0 = [granted] ∧ '\n' ∉ (t.client 0).talk.reads.flatten := by
  obtain ⟨t, hrun, hclient, t', hserved, hlaunched⟩ := timeout_run
  have hline : busy.json.WritesLine granted.toJson := by
    constructor
    · decide
    · decide
  have hparse : busy.json.parse (busy.json.write granted.toJson) = .root granted.toJson := by
    have hne : compact granted.toJson ≠ compact request.toJson := by decide
    simp only [busy, exchangeJson, hne, if_false, if_true]
  obtain ⟨-, hunread, hdelivered⟩ := agreement busy 1 (fun _ => sent) timeout t 0 ⟨defaultSocketPath⟩ _ _ _ _ [] _ hline
    hparse rfl hrun (by rw [hclient]) (login_timeout hclient) served t' hserved hlaunched
  exact ⟨t, hrun, hdelivered rfl, hunread⟩

/-- a daemon that inherited SIGPIPE as ignored, and a client that has closed when the reply comes -/
def ignoring : Env := { busy with ignoresSigpipe := true, peerOpen := fun _ => false }

/-- the write fails, nobody looks at that, and the session is launched -/
theorem session_after_close : ∃ t, run ignoring (fun _ => sent) (start (history ignoring 1))
      ([.connect 0 true, .write 0 sent.length] ++ List.replicate 46 .daemon ++ [.poll 0 false, .close 0]) = some t ∧
    (t.client 0).stage = .left ∧
    ∃ t', run ignoring (fun _ => sent) t (List.replicate 84 .daemon) = some t' ∧
      t'.launched 0 = true ∧ t'.delivered 0 = [] := by
  have hrun : ((run ignoring (fun _ => sent) (start (history ignoring 1))
      ([.connect 0 true, .write 0 sent.length] ++ List.replicate 46 .daemon ++ [.poll 0 false, .close 0])).bind fun t =>
      (run ignoring (fun _ => sent) t (List.replicate 84 .daemon)).map fun t' =>
        ((t.client 0).stage, t'.launched 0, t'.delivered 0)) = some (.left, true, []) := by decide +kernel
  obtain ⟨t, hrun, hserved⟩ := Option.bind_eq_some_iff.1 hrun
  obtain ⟨t', hserved, heq⟩ := Option.map_eq_some_iff.1 hserved
  obtain ⟨hstage, hlaunched⟩ := Prod.mk.inj heq
  obtain ⟨hlaunched, hnone⟩ := Prod.mk.inj hlaunched
  exact ⟨t, hrun, hstage, t', hserved, hlaunched, hnone⟩

end Miqudm.Agreement
