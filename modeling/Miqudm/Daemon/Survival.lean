/-
What ends the daemon before its time.

The daemon leaves the action of SIGPIPE as it was inherited and catches no exception. So once it has found out where its
configuration is, there are three ways: a write to a client that has closed its end, when the action is the default one;
a scan for sessions that throws; and a line that makes the decoder throw. `Harmless` says of a moment that it is neither
of the first two, and `Ends` follows all three through the code: a part that returns had harmless moments only, and a
part that halts did so at a moment that was not, or, all of them harmless, for a reason of `H`.

- `handleClientConnection_ends`: what can end a connection;
- `survives_iff`: with lines that decode, a connection returns, and a watched run after a start that finds what it looks
  for keeps the daemon alive, exactly when all its moments are harmless.

The instant at which a client closes is a parameter (`peerOpen`), so the results cover every such instant.
-/
import Miqudm.Common.JsonShape
import Miqudm.Common.SessionScan
import Miqudm.Daemon.Frames

namespace Miqudm

open Miqudm.Core Prog

/-! ## The line of a client -/

/-- what the reads of a connection deliver: each chunk as a C string, up to the end of the stream -/
def received (chunks : List Str) : Str := (chunks.takeWhile (· ≠ [])).flatMap cstr

/-- the line that is decoded: what comes before the first newline, if there is one -/
def sentLine (chunks : List Str) : Option Str := (splitFirst '\n' (received chunks)).map Prod.fst

theorem received_cons {chunk : Str} (h : chunk ≠ []) (chunks : List Str) :
    received (chunk :: chunks) = cstr chunk ++ received chunks := by
  simp [received, h]

/-- more text does not change what came before the first separator -/
theorem splitFirst_append {c : Char} {a b line rest : Str} (h : splitFirst c a = some (line, rest)) :
    splitFirst c (a ++ b) = some (line, rest ++ b) := by
  induction a generalizing line with
  | nil => cases h
  | cons d a ih =>
    rw [splitFirst] at h
    rw [List.cons_append, splitFirst]
    split_ifs at h ⊢ with hd
    · cases h
      rfl
    · obtain ⟨⟨line', rest'⟩, hsplit, heq⟩ := Option.map_eq_some_iff.1 h
      cases heq
      rw [ih hsplit]
      rfl

/-! ## Moments and endings -/

section Ends

variable (E : Env)

/-- a reply finds its client's end open, unless SIGPIPE is ignored; and for a client that asks for the sessions, they can
be scanned -/
def Harmless (p : Event × St) : Prop :=
  match p.1 with
  | .reply _ => E.ignoresSigpipe = true ∨ E.peerOpen p.2.now = true
  | .received req => req.type = .getSessions → Scannable (E.listing p.2.now)
  | _ => True

def Unharmed (l : List (Event × St)) : Prop := ∀ p ∈ l, Harmless E p

variable {E}

theorem unharmed_append {l l' : List (Event × St)} : Unharmed E (l ++ l') ↔ Unharmed E l ∧ Unharmed E l' :=
  List.forall_mem_append

theorem harmless_of_calm {p : Event × St} (h : p.1.calm) : Harmless E p := by
  unfold Harmless
  split
  · case _ hreply => simp [hreply, Event.calm] at h
  · case _ hreceived => simp [hreceived, Event.calm] at h
  · trivial

/-- where every scan succeeds and no client closes its end -/
theorem harmless_of_open (hscans : ∀ n, Scannable (E.listing n)) (hopen : ∀ n, E.peerOpen n = true) (p : Event × St) :
    Harmless E p := by
  unfold Harmless
  split
  · exact Or.inr (hopen _)
  · exact fun _ => hscans _
  · trivial

/-- what ends the process at a moment that is not harmless -/
def Halt.ofMoment : Event → Halt
  | .reply _ => .sigpipe
  | _ => .filesystemError

def Ends (E : Env) {α : Type} (H : Halt → Prop) (x : Sys α) : Prop := ∀ s, Sat x s (fun l _ _ => Unharmed E l)
  (fun l e _ => ((e = .sigpipe ∨ e = .filesystemError) ∧ ¬ Unharmed E l) ∨ (H e ∧ Unharmed E l))

/-- the last moment, and no other, is not harmless -/
def BreaksOff (E : Env) (l : List (Event × St)) (e : Halt) : Prop :=
  ∃ l' p, l = l' ++ [p] ∧ Unharmed E l' ∧ ¬ Harmless E p ∧ e = Halt.ofMoment p.1

theorem BreaksOff.not_unharmed {l : List (Event × St)} {e : Halt} (h : BreaksOff E l e) : ¬ Unharmed E l := by
  obtain ⟨l', p, rfl, -, hp, -⟩ := h
  exact fun hl => hp (hl p (by simp))

theorem BreaksOff.halt {l : List (Event × St)} {e : Halt} (h : BreaksOff E l e) :
    e = .sigpipe ∨ e = .filesystemError := by
  obtain ⟨l', p, -, -, -, rfl⟩ := h
  cases p.1 <;> simp [Halt.ofMoment]

/-- where every scan succeeds, it can only be a write to a closed peer -/
theorem BreaksOff.sigpipe {l : List (Event × St)} {e : Halt} (h : BreaksOff E l e)
    (hscans : ∀ n, Scannable (E.listing n)) : e = .sigpipe := by
  obtain ⟨l', p, -, -, hp, rfl⟩ := h
  unfold Harmless at hp
  split at hp
  · case _ hreply => rw [hreply, Halt.ofMoment]
  · exact absurd (fun _ => hscans _) hp
  · exact absurd trivial hp

/-- from `s`, the part breaks off at a moment that is not harmless, or halts for a reason of `H` -/
def BreaksAt (E : Env) {α : Type} (H : Halt → Prop) (x : Sys α) (s : St) : Prop :=
  Sat x s (fun l _ _ => Unharmed E l) (fun l e _ => BreaksOff E l e ∨ (H e ∧ Unharmed E l))

def Breaks (E : Env) {α : Type} (H : Halt → Prop) (x : Sys α) : Prop := ∀ s, BreaksAt E H x s

variable {α β : Type} {H : Halt → Prop}

theorem Breaks.ends {x : Sys α} (h : Breaks E H x) : Ends E H x := fun s =>
  Sat.mono (h s) (fun _ _ _ h => h) fun _ _ _ h => h.imp_left fun h => ⟨h.halt, h.not_unharmed⟩

theorem breaks_pure (a : α) : Breaks E H (pure a : Sys α) := fun _ => by simp [BreaksAt, Unharmed]

theorem breaks_halt {e : Halt} (h : H e) : Breaks E H (halt e : Sys α) := fun _ => Or.inr ⟨h, by simp [Unharmed]⟩

theorem breaks_get_bind {f : St → Sys α} (h : ∀ s, Breaks E H (f s)) : Breaks E H (Prog.get >>= f) :=
  fun s => (sat_bind _ _).2 (h s s)

/-- a part after harmless moments -/
theorem BreaksAt.after {x : Sys α} {s : St} (h : BreaksAt E H x s) {l : List (Event × St)} (hl : Unharmed E l) :
    Sat x s (fun l' _ _ => Unharmed E (l ++ l'))
      (fun l' e _ => BreaksOff E (l ++ l') e ∨ (H e ∧ Unharmed E (l ++ l'))) := by
  refine Sat.mono h (fun l' _ _ hl' => unharmed_append.2 ⟨hl, hl'⟩) (fun l' e _ h => ?_)
  rcases h with ⟨before, p, rfl, hbefore, hp⟩ | ⟨he, hl'⟩
  · refine Or.inl ⟨l ++ before, p, ?_, unharmed_append.2 ⟨hl, hbefore⟩, hp⟩
    rw [List.append_assoc]
  · exact Or.inr ⟨he, unharmed_append.2 ⟨hl, hl'⟩⟩

theorem BreaksAt.seq {x : Sys β} {f : β → Sys α} {s : St} (hx : BreaksAt E H x s) (hf : ∀ b, Breaks E H (f b)) :
    BreaksAt E H (x >>= f) s :=
  (sat_bind x f).2 (Sat.mono hx (fun _ b t hl => (hf b t).after hl) fun _ _ _ h => h)

theorem breaks_bind {x : Sys β} {f : β → Sys α} (hx : Breaks E H x) (hf : ∀ b, Breaks E H (f b)) :
    Breaks E H (x >>= f) := fun s => (hx s).seq hf

theorem breaks_ite {c : Prop} [Decidable c] {x y : Sys α} (hx : c → Breaks E H x) (hy : ¬ c → Breaks E H y) :
    Breaks E H (if c then x else y) := by
  split_ifs with hc
  · exact hx hc
  · exact hy hc

theorem breaks_when {c : Prop} [Decidable c] {x : Sys Unit} (hx : Breaks E H x) : Breaks E H (Prog.when c x) :=
  breaks_ite (fun _ => hx) fun _ => breaks_pure ()

theorem breaks_loop {body : Sys Bool} {e : Halt} (he : H e) (h : Breaks E H body) : ∀ n, Breaks E H (loop e body n) := by
  intro n
  induction n with
  | zero => exact breaks_halt he
  | succ n ih => exact breaks_bind h fun b => breaks_ite (fun _ => ih) fun _ => breaks_pure ()

theorem Breaks.mono {H' : Halt → Prop} {x : Sys α} (h : Breaks E H x) (hH : ∀ e, H e → H' e) : Breaks E H' x := fun s =>
  Sat.mono (h s) (fun _ _ _ h => h) fun _ e _ h => h.imp id fun h => ⟨hH e h.1, h.2⟩

/-- a footprint of harmless moments that always returns -/
theorem breaks_of_quiet {g : St → St} {x : Sys α} (h : Within (quietly g) x) : Breaks E H x := by
  refine fun s => Sat.mono (h s) (fun l _ _ hl p hp => ?_) fun _ _ _ h => h.2.elim
  have hquiet : p.1.quiet p.2 := (hl.1 p hp).1
  unfold Event.quiet at hquiet
  split at hquiet
  · case _ hfork => simp [Harmless, hfork]
  · exact harmless_of_calm hquiet

theorem breaks_of_calm {g : St → St} {x : Sys α} (h : Within (calmly g) x) : Breaks E H x := breaks_of_quiet (Calm.quiet h)

theorem breaks_op {e : Event} {f : St → St} (he : ∀ t, Harmless E (e, t)) : Breaks E H (op E e f) :=
  breaks_bind (breaks_of_calm (interfere_calm E)) fun _ _ => by simpa [BreaksAt, Unharmed] using he _

/-- a reply is written, or it ends the process -/
theorem reply_breaks (resp : IpcMessage) : Breaks E H (reply E resp) := by
  refine fun s => (sat_bind _ _).2 (Sat.mono (op_spec E _ _ s) (fun l _ t hl => ?_) fun _ _ _ h => h.elim)
  obtain ⟨pre, rfl, hpre⟩ := hl
  have hbefore : Unharmed E pre := fun p hp => by simp [Harmless, hpre p hp]
  simp only [sat_bind, sat_get, sat_ite, sat_halt, sat_pure, List.append_nil]
  refine ⟨fun hc => Or.inl ⟨pre, _, rfl, hbefore, ?_, rfl⟩, fun hc => unharmed_append.2 ⟨hbefore, ?_⟩⟩
  · simpa [Harmless, and_comm] using hc
  · intro p hp
    rw [List.mem_singleton.1 hp, Harmless]
    by_contra hnot
    exact hc (by simpa [and_comm] using hnot)

/-! ## Requests -/

variable (E)

theorem launch_breaks (user : UserInfo) (session : SessionInfo) (pamEnvs : List Str) (vt : ℤ) :
    Breaks E H (launch E user session pamEnvs vt) := by
  refine breaks_bind (breaks_op fun _ => by trivial) fun _ => ?_
  refine breaks_bind (breaks_of_calm (isRunning_calm E)) fun running => ?_
  apply breaks_ite (fun _ => breaks_pure _)
  intro _
  apply breaks_bind (breaks_get_bind fun s => breaks_bind (breaks_op fun _ => by trivial) fun _ => breaks_pure _)
  intro r
  split
  · exact breaks_pure _
  · exact breaks_bind (breaks_op fun _ => by trivial) fun _ => breaks_pure _

theorem stopGreeter_breaks : Breaks E H (stopGreeter E) :=
  breaks_bind (breaks_op fun _ => by trivial) fun _ => breaks_of_calm (releaseGreeter_calm E)

theorem serveSession_breaks (req : IpcMessage) (pam : PamAuth) : Breaks E H (serveSession E req pam) := by
  refine breaks_bind (stopGreeter_breaks E) fun _ => breaks_get_bind fun s => ?_
  apply breaks_bind (breaks_of_calm (rememberLastUser_calm E req))
  intro _
  apply breaks_bind (breaks_of_calm (setActivePam_calm E pam))
  intro _
  refine breaks_bind (breaks_of_calm (onPam_calm E _)) fun pamEnvs => breaks_bind (launch_breaks E _ _ _ _) fun launched => ?_
  refine breaks_bind (breaks_when (breaks_bind (breaks_of_calm (waitForExit_calm E)) fun _ => breaks_pure _)) fun _ => ?_
  apply breaks_bind (breaks_of_calm (releaseActivePam_calm E))
  intro _
  apply breaks_bind (breaks_of_calm (readRunning_calm E))
  intro running
  exact breaks_ite (fun _ => breaks_of_quiet (startGreeter_quiet E)) fun _ => breaks_pure _

theorem loginStep_breaks {step : PamM (Bool × PamAuth)} {failure : Str} {next : PamAuth → Sys Unit}
    (hnext : ∀ pam, Breaks E H (next pam)) : Breaks E H (loginStep E step failure next) := by
  refine breaks_bind (breaks_of_calm (onPam_calm E step)) fun ⟨ok, pam⟩ => breaks_ite (fun _ => ?_) fun _ => hnext pam
  exact breaks_bind (reply_breaks _) fun _ => breaks_bind (breaks_of_calm (onPam_calm E _)) fun _ => breaks_pure _

theorem handleLoginRequest_breaks (req : IpcMessage) : Breaks E H (handleLoginRequest E req) := by
  refine loginStep_breaks E fun pam => loginStep_breaks E fun pam => loginStep_breaks E fun pam =>
    loginStep_breaks E fun pam => ?_
  refine breaks_bind (breaks_of_calm (setLoginEnv_calm E req pam)) fun _ => loginStep_breaks E fun pam => ?_
  exact breaks_bind (reply_breaks _) fun _ => serveSession_breaks E req pam

theorem processMessage_breaks {req : IpcMessage} {s : St} (h : Harmless E (.received req, s)) :
    BreaksAt E H (processMessage E req) s := by
  unfold processMessage
  split
  · exact reply_breaks _ s
  · exact breaks_bind (breaks_op fun _ => by trivial) (fun _ => breaks_get_bind fun _ => reply_breaks _) s
  · case _ htype =>
    have hscan := (scanAll_isSome _).2 (h htype)
    refine (sat_bind _ _).2 ((sat_bind _ _).2 (sat_get.2 ?_))
    split
    · case _ hnone =>
      rw [hnone] at hscan
      cases hscan
    · case _ sessions _ =>
      have hassign : Breaks E H (op E .assign fun s => { s with cachedSessions := sessions }) :=
        breaks_op fun _ => by trivial
      refine Sat.mono (hassign s) (fun l _ t hl => ?_) fun _ _ _ h => h
      exact (breaks_get_bind (fun _ => reply_breaks _) t).after hl
  · exact breaks_bind (breaks_of_calm (powerCall_calm E _)) (fun _ => reply_breaks _) s
  · exact handleLoginRequest_breaks E req s
  · exact reply_breaks _ s

/-- a request that is not harmless is one for the sessions, and their scan throws -/
theorem processMessage_throws {req : IpcMessage} {s : St} (h : ¬ Harmless E (.received req, s)) :
    processMessage E req s = ⟨[], .error .filesystemError, s⟩ := by
  obtain ⟨htype, hscan⟩ := Classical.not_imp.1 h
  have hnone : scanAll (E.listing s.now) = none := (scanAll_iff _).2 hscan
  simp only [processMessage, htype, cacheSessions, bind, Prog.get, hnone]
  rfl

/-- a request, and what comes after it -/
theorem request_breaks {req : IpcMessage} {f : St → St} {x : Sys α} (hx : Breaks E H x) :
    Breaks E H (do op E (.received req) f; processMessage E req; x) := by
  refine fun s => (sat_bind _ _).2 (Sat.mono (op_spec E _ _ s) (fun l _ t hl => ?_) fun _ _ _ h => h.elim)
  obtain ⟨pre, rfl, hpre⟩ := hl
  have hbefore : Unharmed E pre := fun p hp => by simp [Harmless, hpre p hp]
  by_cases hreq : Harmless E (.received req, t)
  · have hreceived : Unharmed E (pre ++ [(.received req, t)]) :=
      unharmed_append.2 ⟨hbefore, by simpa [Unharmed] using hreq⟩
    exact ((processMessage_breaks E hreq).seq fun _ => hx).after hreceived
  · refine (sat_bind _ _).2 ?_
    rw [Sat, processMessage_throws E hreq]
    exact Or.inl ⟨pre, (.received req, t), by simp, hbefore, hreq, rfl⟩

/-! ## Connections and the loop -/

/-- the exception that the line makes the decoder throw -/
def Refuses (line : Str) (e : Halt) : Prop := ∃ what, deserialize E.json line = .error what ∧ e = .uncaught what

theorem serveLine_breaks (line rest : Str) : Breaks E (Refuses E line) (serveLine E line rest) := by
  apply breaks_bind (breaks_op fun _ => by trivial)
  intro _
  split
  · case _ what hline => exact breaks_halt ⟨what, hline, rfl⟩
  · exact request_breaks E (breaks_op fun _ => by trivial)

theorem readLoop_breaks : ∀ (chunks : List Str) (accumulated : Str),
    Breaks E (fun e => ∃ line, (splitFirst '\n' (accumulated ++ received chunks)).map Prod.fst = some line ∧
      Refuses E line e) (readLoop E accumulated chunks) := by
  intro chunks
  induction chunks with
  | nil => exact fun _ => breaks_op fun _ => by trivial
  | cons chunk chunks ih =>
    intro accumulated
    refine breaks_ite (fun _ => breaks_op fun _ => by trivial) fun hchunk => ?_
    refine breaks_bind (breaks_op fun _ => by trivial) fun _ => ?_
    rw [received_cons hchunk, ← List.append_assoc]
    split
    · exact ih _
    · case _ line rest hsplit =>
      refine (serveLine_breaks E line rest).mono fun e he => ⟨line, ?_, he⟩
      rw [splitFirst_append hsplit]
      rfl

/-- **What ends a connection.** A write to a closed peer, or the exception that the client's line causes. -/
theorem handleClientConnection_breaks (fd : ℤ) (chunks : List Str) :
    Breaks E (fun e => ∃ line, sentLine chunks = some line ∧ Refuses E line e) (handleClientConnection E fd chunks) :=
  breaks_bind (breaks_op fun _ => by trivial) fun _ => breaks_bind (readLoop_breaks E chunks []) fun _ =>
    breaks_op fun _ => by trivial

theorem handleClientConnection_ends (fd : ℤ) (chunks : List Str) :
    Ends E (fun e => ∃ line, sentLine chunks = some line ∧ Refuses E line e) (handleClientConnection E fd chunks) :=
  (handleClientConnection_breaks E fd chunks).ends

/-- an exception that the line of some client causes -/
def AnyRefuses (e : Halt) : Prop :=
  ∃ n chunks line, E.accept n = some chunks ∧ sentLine chunks = some line ∧ Refuses E line e

theorem acceptClient_breaks : Breaks E (AnyRefuses E) (acceptClient E) := by
  apply breaks_get_bind
  intro s
  split
  · exact breaks_op fun _ => by trivial
  · case _ chunks haccept =>
    refine breaks_bind (breaks_op fun _ => by trivial) fun _ => breaks_bind ?_ fun _ => breaks_of_calm (close_calm E _)
    exact (handleClientConnection_breaks E _ chunks).mono fun e ⟨line, hline, he⟩ =>
      ⟨s.now, chunks, line, haccept, hline, he⟩

theorem turn_breaks : Breaks E (AnyRefuses E) (turn E) := by
  have watch : Breaks E (AnyRefuses E) (do watchGreeter E; return true) :=
    breaks_bind (breaks_of_quiet (watchGreeter_quiet E)) fun _ => breaks_pure _
  refine breaks_bind (breaks_op fun _ => by trivial) fun _ => breaks_get_bind fun s => ?_
  refine breaks_ite (fun _ => breaks_pure _) fun _ => ?_
  refine breaks_get_bind fun t => breaks_bind (breaks_op fun _ => by trivial) fun _ => ?_
  split
  · exact breaks_pure _
  · exact breaks_pure _
  · exact breaks_bind (acceptClient_breaks E) fun _ => watch
  · exact watch

/-- **What ends a watched run.** Besides the end of the observation, a moment that is not harmless, or an exception that a
client's line causes; if `init` cannot look for its configuration or for the sessions, it ends at once. -/
theorem main_breaks (n : ℕ) : Sat (main E n) (boot E) (fun l _ _ => Looks E ∧ Unharmed E l)
    (fun l e _ => (¬ Looks E ∧ e = .filesystemError ∧ Unharmed E l) ∨
      (Looks E ∧ (BreaksOff E l e ∨ ((e = .cut ∨ AnyRefuses E e) ∧ Unharmed E l)))) := by
  have hinit : Sat (init E) (boot E) (fun l _ _ => Looks E ∧ Unharmed E l)
      (fun l e _ => ¬ Looks E ∧ e = .filesystemError ∧ Unharmed E l) := by
    have unharmed : ∀ {l : List (Event × St)}, (∀ p ∈ l, p.1.calm) → Unharmed E l := fun hl p hp =>
      harmless_of_calm (hl p hp)
    refine Sat.mono (Sat.and (init_looks E) (init_scanning E (boot E))) ?_ ?_
    · exact fun l _ _ ⟨hlooks, hl⟩ => ⟨hlooks, unharmed fun p hp => (hl.1 p hp).1⟩
    · exact fun l e _ ⟨⟨he, hlooks⟩, hl⟩ => ⟨hlooks, he, unharmed fun p hp => (hl.1 p hp).1⟩
  have hrest : ∀ ok, Breaks E (fun e => e = .cut ∨ AnyRefuses E e) (if ok = true then run E n else pure ()) := by
    refine fun ok => breaks_ite (fun _ => ?_) fun _ => breaks_pure _
    apply breaks_bind (breaks_op fun _ => by trivial)
    intro _
    refine breaks_bind (breaks_of_quiet (startGreeter_quiet E)) fun _ => ?_
    refine breaks_bind (breaks_loop (Or.inl rfl) ((turn_breaks E).mono fun _ => Or.inr) n) fun _ => ?_
    refine breaks_bind (stopGreeter_breaks E) fun _ => breaks_bind (breaks_of_calm (terminate_calm E)) fun _ => ?_
    exact breaks_bind (breaks_of_calm (cleanupIpcSocket_calm E)) fun _ => breaks_op fun _ => by trivial
  refine (sat_bind _ _).2 (Sat.mono hinit (fun l ok t ⟨hlooks, hl⟩ => ?_) fun _ _ _ => Or.inl)
  exact Sat.mono ((hrest ok t).after hl) (fun _ _ _ h => ⟨hlooks, h⟩) fun _ _ _ h => Or.inr ⟨hlooks, h⟩

/-- **A moment that is not harmless is the last of a run.** -/
theorem last_of_harm {n : ℕ} {pre post : List (Event × St)} {p : Event × St} (hsplit : history E n = pre ++ p :: post)
    (hharm : ¬ Harmless E p) : post = [] := by
  have hnot : ∀ {l}, p ∈ l → ¬ Unharmed E l := fun hmem hl => hharm (hl p hmem)
  have hlog : Unharmed E (history E n) ∨ ∃ e, BreaksOff E (history E n) e := by
    refine Sat.log (P := fun l => Unharmed E l ∨ ∃ e, BreaksOff E l e) (Sat.mono (main_breaks E n) (fun _ _ _ h => ?_) ?_)
    · exact Or.inl h.2
    · rintro l e _ (⟨-, -, hl⟩ | ⟨-, hbreaks | ⟨-, hl⟩⟩)
      · exact Or.inl hl
      · exact Or.inr ⟨e, hbreaks⟩
      · exact Or.inl hl
  rcases hlog with hall | ⟨e, l', q, hl', hunharmed, -⟩
  · exact absurd hall (hnot (by rw [hsplit]; simp))
  · rcases List.eq_nil_or_concat post with hnil | ⟨post', r, rfl⟩
    · exact hnil
    · rw [List.concat_eq_append, ← List.cons_append, ← List.append_assoc, hl'] at hsplit
      have hfront := (List.append_inj' hsplit rfl).1
      exact absurd hunharmed (hnot (by rw [hfront]; simp))

/-- a line that decodes makes nothing throw -/
theorem not_refuses {line : Str} (h : Ok (deserialize E.json line)) (e : Halt) : ¬ Refuses E line e := by
  rintro ⟨what, hwhat, -⟩
  obtain ⟨m, hm⟩ := h
  rw [hwhat] at hm
  cases hm

/-- a connection whose line decodes returns exactly when its moments are harmless -/
theorem handleClientConnection_returns {chunks : List Str}
    (hline : ∀ line, sentLine chunks = some line → Ok (deserialize E.json line)) (fd : ℤ) (s : St) :
    (handleClientConnection E fd chunks s).fin = .ok () ↔ Unharmed E (handleClientConnection E fd chunks s).log := by
  have hends := handleClientConnection_ends E fd chunks s
  refine ⟨fun hok => Sat.of_ok hends hok, fun hunharmed => ?_⟩
  cases hfin : (handleClientConnection E fd chunks s).fin with
  | ok u => rfl
  | error e =>
    rcases Sat.of_error hends hfin with ⟨-, hn⟩ | ⟨⟨line, hsent, hrefuses⟩, -⟩
    · exact absurd hunharmed hn
    · exact absurd hrefuses (not_refuses E (hline line hsent) e)

/-- a watched run whose lines decode halts where the observation ends, at a moment that is not harmless, or when `init`
cannot look for what it needs -/
theorem main_halts (hlines : ∀ n chunks line, E.accept n = some chunks → sentLine chunks = some line →
    Ok (deserialize E.json line)) {n : ℕ} {e : Halt} (hfin : (main E n (boot E)).fin = .error e) :
    (e = .filesystemError ∧ ¬ Looks E) ∨
    ((e = .sigpipe ∨ e = .filesystemError) ∧ ¬ Unharmed E (history E n)) ∨
    (e = .cut ∧ Looks E ∧ Unharmed E (history E n)) := by
  rcases Sat.of_error (main_breaks E n) hfin with ⟨hlooks, he, -⟩ | ⟨hlooks, hbreaks | ⟨hcut | hrefuses, hl⟩⟩
  · exact Or.inl ⟨he, hlooks⟩
  · exact Or.inr (Or.inl ⟨hbreaks.halt, hbreaks.not_unharmed⟩)
  · exact Or.inr (Or.inr ⟨hcut, hlooks, hl⟩)
  · obtain ⟨m, chunks, line, haccept, hsent, hrefuses⟩ := hrefuses
    exact absurd hrefuses (not_refuses E (hlines m chunks line haccept hsent) e)

end Ends

namespace Survival

/-- the process was not killed: the run returned, or it is still being watched -/
def Alive (fin : Except Halt Unit) : Prop := ∀ e, fin = .error e → e = .cut

/-- **What the daemon survives.** When the lines of the clients decode, a connection returns to the poll loop exactly when
each reply found its client's end open (or SIGPIPE is ignored) and the sessions could be scanned where a client asked for
them. The daemon is alive after any watched run exactly when `init` could look for the configuration and the sessions, and this
holds of the run. -/
theorem survives_iff (E : Env) (hlines : ∀ n chunks line, E.accept n = some chunks → sentLine chunks = some line →
      (E.json.parse line).Decodable) :
    (∀ fd chunks s, (∀ line, sentLine chunks = some line → (E.json.parse line).Decodable) →
      ((handleClientConnection E fd chunks s).fin = .ok () ↔ Unharmed E (handleClientConnection E fd chunks s).log)) ∧
    ∀ n, Alive (main E n (boot E)).fin ↔ Looks E ∧ Unharmed E (history E n) := by
  have hdecodes : ∀ {line}, (E.json.parse line).Decodable → Ok (deserialize E.json line) :=
    fun h => (deserialize_iff E.json _).2 h
  have hhalts := fun {n e} => main_halts E (n := n) (e := e) fun m chunks line ha hs =>
    hdecodes (hlines m chunks line ha hs)
  refine ⟨fun fd chunks s hline => ?_, fun n => ⟨fun halive => ?_, fun ⟨hlooks, hunharmed⟩ e hfin => ?_⟩⟩
  · exact handleClientConnection_returns E (fun line hsent => hdecodes (hline line hsent)) fd s
  · cases hfin : (main E n (boot E)).fin with
    | ok u => exact Sat.of_ok (main_breaks E n) hfin
    | error e =>
      have hcut := halive e hfin
      subst hcut
      rcases hhalts hfin with ⟨h, -⟩ | ⟨h | h, -⟩ | ⟨-, h⟩
      · cases h
      · cases h
      · cases h
      · exact h
  · rcases hhalts hfin with ⟨-, hn⟩ | ⟨-, hn⟩ | ⟨hcut, -⟩
    · exact absurd hlooks hn
    · exact absurd hunharmed hn
    · exact hcut

/-! ## Witnesses -/

/-- a client that asks for a ping -/
def pinged : Env := machine [] [] { type := .ping }

/-- the same client, gone before the reply -/
def deserted : Env := { pinged with peerOpen := fun _ => false }

theorem pinged_lines : ∀ n chunks line, pinged.accept n = some chunks → sentLine chunks = some line →
    (pinged.json.parse line).Decodable := by
  intro n chunks line haccept hsent
  cases haccept
  have hline : line = compact (IpcMessage.toJson { type := .ping }) := by
    have hsent' : sentLine [compact (IpcMessage.toJson { type := .ping }) ++ lit "\n"] =
        some (compact (IpcMessage.toJson { type := .ping })) := by decide +kernel
    exact (Option.some_inj.1 (hsent'.symm.trans hsent)).symm
  rw [hline]
  exact (deserialize_iff _ _).1 ⟨{ type := .ping }, by decide +kernel⟩

def isReply : Event → Bool
  | .reply _ => true
  | _ => false

/-- a client that waits for its pong: the daemon answers and lives -/
theorem survives_iff_pinged : ((history pinged 2).any fun p => isReply p.1) = true ∧
    Alive (main pinged 2 (boot pinged)).fin := by
  have hscans : ∀ n, Scannable (pinged.listing n) := fun _ => show Scannable (pinged.listing 0) by decide
  refine ⟨by decide +kernel, ((survives_iff pinged pinged_lines).2 2).2 ⟨⟨by decide, by decide⟩, ?_⟩⟩
  exact fun p _ => harmless_of_open hscans (fun _ => rfl) p

/-- a client that is gone before the reply to its well-formed request takes the daemon with it -/
theorem killed_by_client : (∀ n chunks line, deserted.accept n = some chunks → sentLine chunks = some line →
      (deserted.json.parse line).Decodable) ∧
    (main deserted 1 (boot deserted)).fin = .error .sigpipe := by
  refine ⟨pinged_lines, ?_⟩
  decide +kernel

end Survival

end Miqudm
