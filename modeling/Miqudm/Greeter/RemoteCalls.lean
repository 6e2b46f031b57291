/-
Calls over the connection, from end to end.

`Net` puts the greeter's client and the daemon side by side, with any number of other clients and in any order of
steps. `calls_honoured`: when a method of the client returns true, the daemon has done what the method is for. The
lists of users and sessions are scans it made for this very call, a power action was accepted by logind, and the login
was granted. So the reply a client reads is the answer to its own request, whoever else asks at the same time, and
however both streams are cut.

`Heard` is the invariant: what the daemon has read on the connection that it serves, and what it has still to read, is
what this client has written.
-/
import Miqudm.Daemon.Service
import Miqudm.Greeter.Agreement

namespace Miqudm.RemoteCalls

open Miqudm.Core Prog Agreement Service

/-! ## The invariant -/

/-- what a client has written -/
def sent (payload : ℕ → Str) (t : Net) (c : ℕ) : Str := (payload c).take (t.client c).talk.written.toNat

/-- a reply that was written on a connection on which nothing but a part of `text` was read -/
def Given (E : Env) (n : ℕ) (text : Str) (resp : IpcMessage) : Prop :=
  ∃ (pre post : List (Event × St)) (s : St) (call : Call), history E n = pre ++ (.reply resp, s) :: post ∧
    callAt pre = some call ∧ call.reads.flatten <+: text

structure Heard (E : Env) (payload : ℕ → Str) (n : ℕ) (t : Net) : Prop where
  past : ∃ pre, history E n = pre ++ t.log ∧ ∀ c, t.serving = some c →
    ∃ call, callAt pre = some call ∧ call.reads.flatten ++ t.toServer c = sent payload t c
  /-- nothing is written before the connection is there -/
  unsent : ∀ c, (t.client c).stage = .idle ∨ (t.client c).stage = .connected → (t.client c).talk.written = 0
  silent : ∀ c, (t.client c).stage = .idle → t.toServer c = []
  queued : ∀ c ∈ t.backlog, t.toServer c = sent payload t c
  given : ∀ c, ∀ resp ∈ t.answers c, Given E n (payload c) resp
  once : ∀ c, (t.answers c).length ≤ 1

section Invariant

variable {E : Env} {payload : ℕ → Str} {n : ℕ} {t t' : Net}

theorem heard_start : Heard E payload n (start (history E n)) where
  past := ⟨[], rfl, fun _ h => by cases h⟩
  unsent _ _ := rfl
  silent _ _ := rfl
  queued _ h := by cases h
  given _ _ h := by cases h
  once _ := Nat.zero_le 1

theorem sent_unsent {c : ℕ} (h : (t.client c).talk.written = 0) : sent payload t c = [] := by
  rw [sent, h]
  rfl

theorem sent_congr {c : ℕ} (h : (t'.client c).talk.written = (t.client c).talk.written) :
    sent payload t' c = sent payload t c := by
  rw [sent, h, sent]

/-! ## The clients' steps -/

/-- a client gets on, without writing -/
theorem heard_put (h : Heard E payload n t) {c : ℕ} {stage : Stage} {x : Talk} {toClient : ℕ → Str}
    (hwritten : x.written = (t.client c).talk.written) (hstage : stage ≠ .idle)
    (hconnected : stage = .connected → x.written = 0) :
    Heard E payload n (({ t with toClient } : Net).put c stage x) := by
  have hsent : ∀ d, sent payload (({ t with toClient } : Net).put c stage x) d = sent payload t d := by
    intro d
    apply sent_congr
    by_cases hdc : d = c
    · rw [hdc, put_client_self]
      exact hwritten
    · rw [put_client_ne _ hdc]
  refine ⟨?_, fun d hd => ?_, fun d hd => ?_, ?_, h.given, h.once⟩
  · obtain ⟨pre, hhistory, hserving⟩ := h.past
    refine ⟨pre, hhistory, fun d hd => ?_⟩
    rw [hsent]
    exact hserving d hd
  · by_cases hdc : d = c
    · subst hdc
      rw [put_client_self] at hd ⊢
      exact hconnected (hd.resolve_left hstage)
    · rw [put_client_ne _ hdc] at hd ⊢
      exact h.unsent d hd
  · by_cases hdc : d = c
    · subst hdc
      rw [put_client_self] at hd
      exact absurd hd hstage
    · rw [put_client_ne _ hdc] at hd
      exact h.silent d hd
  · intro d hd
    rw [hsent]
    exact h.queued d hd

theorem heard_enqueue (h : Heard E payload n t) {c : ℕ} (hc : t.toServer c = sent payload t c) :
    Heard E payload n { t with backlog := t.backlog ++ [c] } where
  past := h.past
  unsent := h.unsent
  silent := h.silent
  queued d hd := by
    rcases List.mem_append.1 hd with hd | hd
    · exact h.queued d hd
    · rw [List.mem_singleton.1 hd]
      exact hc
  given := h.given
  once := h.once

theorem heard_connect (h : Heard E payload n t) {c : ℕ} {ok : Bool}
    (hstep : step E payload t (.connect c ok) = some t') :
    Heard E payload n t' := by
  simp only [step] at hstep
  split_ifs at hstep with hidle hok
  · have hidle : (t.client c).stage = .idle := not_not.1 hidle
    have hnothing : (t.client c).talk.written = 0 := h.unsent c (Or.inl hidle)
    obtain rfl := Option.some_inj.1 hstep
    have hput : Heard E payload n (t.put c .connected { (t.client c).talk with connected := true }) :=
      heard_put h rfl (by simp) fun _ => hnothing
    apply heard_enqueue hput
    rw [sent_unsent (by rw [put_client_self]; exact hnothing)]
    exact h.silent c hidle
  · obtain rfl := Option.some_inj.1 hstep
    exact heard_put h rfl (by simp) (by simp)

/-- the request joins what the daemon has to read -/
theorem heard_write (h : Heard E payload n t) {c : ℕ} {written : ℤ}
    (hstep : step E payload t (.write c written) = some t') : Heard E payload n t' := by
  simp only [step] at hstep
  by_cases hguard : (t.client c).stage ≠ .connected ∨ (payload c).length < written
  · rw [if_pos hguard] at hstep
    cases hstep
  rw [if_neg hguard] at hstep
  have hconnected := not_not.1 (not_or.1 hguard).1
  have hnothing : sent payload t c = [] := sent_unsent (h.unsent c (Or.inr hconnected))
  obtain rfl := Option.some_inj.1 hstep
  generalize hstage : (if written < (payload c).length then Stage.leaving else Stage.waiting) = stage
  have hlater : stage ≠ .idle ∧ stage ≠ .connected := by
    rw [← hstage]
    split_ifs <;> simp
  set u : Net :=
    ({ t with toServer := Function.update t.toServer c (t.toServer c ++ (payload c).take written.toNat) } : Net).put
      c stage { (t.client c).talk with written } with hu
  have hself : sent payload u c = (payload c).take written.toNat := by
    rw [sent, hu, put_client_self]
  have hother : ∀ d, d ≠ c → sent payload u d = sent payload t d := by
    intro d hd
    apply sent_congr
    rw [hu, put_client_ne _ hd]
  -- what was there before is nothing, so what is there now is what was written
  have hmore : ∀ (d : ℕ) (a : Str), a ++ t.toServer d = sent payload t d → a ++ u.toServer d = sent payload u d := by
    intro d a ha
    by_cases hdc : d = c
    · subst hdc
      rw [hnothing] at ha
      rw [hself]
      show a ++ Function.update t.toServer d _ d = _
      rw [Function.update_self, ← List.append_assoc, ha, List.nil_append]
    · rw [hother d hdc]
      show a ++ Function.update t.toServer c _ d = _
      rw [Function.update_of_ne hdc]
      exact ha
  refine ⟨?_, fun d hd => ?_, fun d hd => ?_, fun d hd => hmore d [] (h.queued d hd), h.given, h.once⟩
  · obtain ⟨pre, hhistory, hserving⟩ := h.past
    refine ⟨pre, hhistory, fun d hd => ?_⟩
    obtain ⟨call, hcall, hreads⟩ := hserving d hd
    exact ⟨call, hcall, hmore d _ hreads⟩
  · by_cases hdc : d = c
    · subst hdc
      rw [hu, put_client_self] at hd
      rcases hd with hd | hd
      · exact absurd hd hlater.1
      · exact absurd hd hlater.2
    · rw [hu, put_client_ne _ hdc] at hd ⊢
      exact h.unsent d hd
  · have hdc : d ≠ c := by
      rintro rfl
      rw [hu, put_client_self] at hd
      exact hlater.1 hd
    rw [hu, put_client_ne _ hdc] at hd
    show Function.update t.toServer c _ d = []
    rw [Function.update_of_ne hdc]
    exact h.silent d hd

theorem heard_read (h : Heard E payload n t) {c : ℕ} {chunk : Str}
    (hstep : step E payload t (.read c chunk) = some t') :
    Heard E payload n t' := by
  simp only [step] at hstep
  by_cases hguard : (t.client c).stage ≠ .reading ∨ ¬ chunk <+: t.toClient c
  · rw [if_pos hguard] at hstep
    cases hstep
  rw [if_neg hguard] at hstep
  by_cases hempty : chunk = []
  · rw [if_pos hempty] at hstep
    obtain rfl := Option.some_inj.1 hstep
    exact heard_put h rfl (by simp) (by simp)
  · rw [if_neg hempty] at hstep
    obtain rfl := Option.some_inj.1 hstep
    refine heard_put h rfl ?_ fun hs => ?_
    · split_ifs <;> simp
    · split_ifs at hs

/-! ## The daemon's steps -/

theorem callAt_snoc (pre : List (Event × St)) (e : Event) (s : St) :
    callAt (pre ++ [(e, s)]) = serving (callAt pre) e := by
  rw [callAt, events_append, List.foldl_append]
  rfl

section Moment

variable {e : Event} {s : St} {log : List (Event × St)}

/-- a moment at which nothing is read, and after which the same client is served, or none -/
theorem heard_pass (h : Heard E payload n t) (hlog : t.log = (e, s) :: log) {o : Option ℕ}
    (hclient : ∀ c, o = some c → t.serving = some c) (he : o ≠ none → Inside e)
    (hreads : ∀ call : Call, (call.step e).reads = call.reads) :
    Heard E payload n { t with log, serving := o } where
  past := by
    obtain ⟨pre, hhistory, hserving⟩ := h.past
    refine ⟨pre ++ [(e, s)], by simp [hhistory, hlog], fun c hc => ?_⟩
    obtain ⟨call, hcall, hsent⟩ := hserving c (hclient c hc)
    have hinside : Inside e := he (by rw [show o = some c from hc]; simp)
    refine ⟨call.step e, ?_, ?_⟩
    · rw [callAt_snoc, hcall, serving_inside hinside, Option.map_some]
    · rw [hreads]
      exact hsent
  unsent := h.unsent
  silent := h.silent
  queued := h.queued
  given := h.given
  once := h.once

theorem heard_accept (h : Heard E payload n t) {fd : ℤ} (hlog : t.log = (.accept (some fd), s) :: log) {c : ℕ}
    {backlog : List ℕ} (hbacklog : t.backlog = c :: backlog) :
    Heard E payload n { t with log, backlog, serving := some c } where
  past := by
    obtain ⟨pre, hhistory, -⟩ := h.past
    refine ⟨pre ++ [(.accept (some fd), s)], by simp [hhistory, hlog], fun d hd => ?_⟩
    obtain rfl := Option.some_inj.1 hd
    rw [callAt_snoc]
    exact ⟨{}, rfl, h.queued c (by simp [hbacklog])⟩
  unsent := h.unsent
  silent := h.silent
  queued d hd := h.queued d (by simp [hbacklog, hd])
  given := h.given
  once := h.once

/-- the daemon reads: the invariant of the clients says that only the client that is served is concerned -/
theorem heard_chunk (hinv : Inv E payload n t) (h : Heard E payload n t) {chunk : Str}
    (hlog : t.log = (.read chunk, s) :: log) {c : ℕ} (hc : t.serving = some c) (hchunk : chunk <+: t.toServer c) :
    Heard E payload n { t with log, toServer := Function.update t.toServer c ((t.toServer c).drop chunk.length) } where
  past := by
    obtain ⟨pre, hhistory, hserving⟩ := h.past
    refine ⟨pre ++ [(.read chunk, s)], by simp [hhistory, hlog], fun d hd => ?_⟩
    obtain rfl := Option.some_inj.1 (hc.symm.trans hd)
    obtain ⟨call, hcall, hsent⟩ := hserving c hc
    obtain ⟨rest, hrest⟩ := hchunk
    refine ⟨call.step (.read chunk), by rw [callAt_snoc, hcall]; rfl, ?_⟩
    show (call.reads ++ [chunk]).flatten ++ Function.update t.toServer c _ c = sent payload t c
    rw [Function.update_self, ← hsent, ← hrest, List.drop_left]
    simp
  unsent := h.unsent
  silent d hd := by
    have hdc : d ≠ c := by
      rintro rfl
      exact hinv.begun d (Or.inr hc) hd
    exact (Function.update_of_ne hdc _ _).trans (h.silent d hd)
  queued d hd := by
    have hdc : d ≠ c := by
      rintro rfl
      exact hinv.served d hc hd
    exact (Function.update_of_ne hdc _ _).trans (h.queued d hd)
  given := h.given
  once := h.once

theorem heard_answer (hinv : Inv E payload n t) (h : Heard E payload n t) {resp : IpcMessage}
    (hlog : t.log = (.reply resp, s) :: log) {c : ℕ} (hc : t.serving = some c) :
    Heard E payload n (({ t with log } : Net).answer E c resp) := by
  have hpass : Heard E payload n { t with log } :=
    heard_pass (o := t.serving) h hlog (fun _ h => h) (fun _ => trivial) fun _ => rfl
  obtain ⟨pre, hhistory, hanswers⟩ := hinv.next hlog
  have hnone : t.answers c = [] := by
    rw [(hanswers c hc).1, (log_rules hhistory).1 resp rfl]
    rfl
  obtain ⟨pre', hhistory', hserving⟩ := h.past
  obtain ⟨call, hcall, hsent⟩ := hserving c hc
  have hgiven : Given E n (payload c) resp := by
    rw [hlog] at hhistory'
    refine ⟨pre', log, s, call, hhistory', hcall, ?_⟩
    exact List.IsPrefix.trans ⟨_, hsent⟩ (List.take_prefix _ _)
  have hself : Function.update t.answers c (t.answers c ++ [resp]) c = [resp] := by
    rw [Function.update_self, hnone, List.nil_append]
  have htold : Heard E payload n { t with log, answers := Function.update t.answers c (t.answers c ++ [resp]) } :=
    { hpass with
      given := by
        intro d resp' hresp'
        replace hresp' : resp' ∈ Function.update t.answers c (t.answers c ++ [resp]) d := hresp'
        by_cases hdc : d = c
        · subst hdc
          rw [hself, List.mem_singleton] at hresp'
          rw [hresp']
          exact hgiven
        · rw [Function.update_of_ne hdc] at hresp'
          exact h.given d resp' hresp'
      once := by
        intro d
        show (Function.update t.answers c (t.answers c ++ [resp]) d).length ≤ 1
        by_cases hdc : d = c
        · subst hdc
          rw [hself]
          rfl
        · rw [Function.update_of_ne hdc]
          exact h.once d }
  simp only [Net.answer]
  split_ifs with hopen
  · exact { htold with }
  · exact htold

theorem heard_launch (h : Heard E payload n t) : Heard E payload n t.launch := by
  cases hc : t.serving with
  | none =>
    have hlaunch : t.launch = t := by simp only [Net.launch, hc]
    rw [hlaunch]
    exact h
  | some c =>
    have hlaunch : t.launch = { t with launched := Function.update t.launched c true } := by simp only [Net.launch, hc]
    rw [hlaunch]
    exact { h with }

theorem heard_hear (hinv : Inv E payload n t) (h : Heard E payload n t) (hlog : t.log = (e, s) :: log)
    (hstep : ({ t with log } : Net).hear E e s = some t') : Heard E payload n t' := by
  have hpass : Inside e → (∀ call : Call, (call.step e).reads = call.reads) → Heard E payload n { t with log } :=
    fun he hreads => heard_pass (o := t.serving) h hlog (fun _ h => h) (fun _ => he) hreads
  cases e with
  | accept fd =>
    cases fd with
    | none => exact Option.some_inj.1 hstep ▸ hpass trivial fun _ => rfl
    | some fd =>
      cases hbacklog : t.backlog with
      | nil => simp [Net.hear, hbacklog] at hstep
      | cons c backlog =>
        simp only [Net.hear, hbacklog] at hstep
        exact Option.some_inj.1 hstep ▸ heard_accept h hlog hbacklog
  | read chunk =>
    cases hc : t.serving with
    | none =>
      simp only [Net.hear, hc] at hstep
      obtain ⟨pre, hhistory, -⟩ := h.past
      rw [← Option.some_inj.1 hstep]
      exact { h with past := ⟨pre ++ [(.read chunk, s)], by simp [hhistory, hlog], fun c h => by cases h⟩ }
    | some c =>
      simp only [Net.hear, hc] at hstep
      split_ifs at hstep with hchunk
      rw [← hc] at hstep
      exact Option.some_inj.1 hstep ▸ heard_chunk hinv h hlog hc hchunk
  | reply resp =>
    cases hc : t.serving with
    | none =>
      simp only [Net.hear, hc] at hstep
      rw [← hc] at hstep
      exact Option.some_inj.1 hstep ▸ hpass trivial fun _ => rfl
    | some c =>
      simp only [Net.hear, hc] at hstep
      split_ifs at hstep
      rw [← hc] at hstep
      exact Option.some_inj.1 hstep ▸ heard_answer hinv h hlog hc
  | launch user session => exact Option.some_inj.1 hstep ▸ heard_launch (hpass trivial fun _ => rfl)
  | fork what r =>
    have hfork := hpass trivial fun _ => rfl
    cases what with
    | greeter => cases r <;> exact Option.some_inj.1 hstep ▸ hfork
    | session =>
      cases r with
      | none => exact Option.some_inj.1 hstep ▸ hfork
      | some pid => exact Option.some_inj.1 hstep ▸ heard_launch hfork
  | close fd =>
    have halone : Heard E payload n { t with log, serving := none } :=
      heard_pass h hlog (fun c hc => by cases hc) (fun h => absurd rfl h) fun _ => rfl
    exact Option.some_inj.1 hstep ▸ halone
  | _ => exact Option.some_inj.1 hstep ▸ hpass trivial fun _ => rfl

end Moment

theorem heard_step (hinv : Inv E payload n t) (h : Heard E payload n t) {a : Action}
    (hstep : step E payload t a = some t') : Heard E payload n t' := by
  cases a with
  | daemon =>
    cases hlog : t.log with
    | nil => simp [step, hlog] at hstep
    | cons p log =>
      simp only [step, hlog] at hstep
      exact heard_hear hinv h hlog hstep
  | connect c ok => exact heard_connect h hstep
  | write c written => exact heard_write h hstep
  | poll c ready =>
    simp only [step] at hstep
    split_ifs at hstep <;> exact Option.some_inj.1 hstep ▸ heard_put h rfl (by simp) (by simp)
  | read c chunk => exact heard_read h hstep
  | close c =>
    simp only [step] at hstep
    split_ifs at hstep
    exact Option.some_inj.1 hstep ▸ heard_put h rfl (by simp) (by simp)
  | die c =>
    simp only [step] at hstep
    split_ifs at hstep
    exact Option.some_inj.1 hstep ▸ heard_put h rfl (by simp) (by simp)

theorem heard_run : ∀ (acts : List Action) {t t' : Net}, Inv E payload n t → Heard E payload n t →
    Agreement.run E payload t acts = some t' → Inv E payload n t' ∧ Heard E payload n t' := by
  intro acts
  induction acts with
  | nil =>
    intro t t' hinv h hrun
    exact Option.some_inj.1 hrun ▸ ⟨hinv, h⟩
  | cons a acts ih =>
    intro t t' hinv h hrun
    obtain ⟨t₁, hstep, hrun⟩ := run_cons hrun
    exact ih (inv_step hinv hstep) (heard_step hinv h hstep) hrun

/-! ## What a client is told -/

/-- the text of a request, and that jsoncpp reads it back -/
structure Sends (J : JsonCpp) (text : Str) (req : IpcMessage) : Prop where
  text : text = req.serialize J
  line : J.WritesLine req.toJson
  parse : J.parse (J.write req.toJson) = .root req.toJson

/-- the line of what was read of a request is the request -/
theorem request_of_part {J : JsonCpp} {text line : Str} {req req' : IpcMessage} {call : Call} (h : Sends J text req)
    (hreads : call.reads.flatten <+: text) (hline : call.line = some line) (hdecode : deserialize J line = .ok req') :
    req' = req := by
  have htext : text = J.write req.toJson ++ ['\n'] := h.text
  have hclean : ∀ chunk ∈ call.reads, cstr chunk = chunk := by
    intro chunk hchunk
    apply cstr_of_noNul
    intro hnul
    have hmem : nul ∈ J.write req.toJson ++ ['\n'] :=
      htext ▸ hreads.subset (List.mem_flatten_of_mem hchunk hnul)
    rcases List.mem_append.1 hmem with hmem | hmem
    · exact h.line.2 hmem
    · exact absurd (List.mem_singleton.1 hmem) (by decide)
  have hflat : call.reads.flatMap cstr = call.reads.flatten := by
    rw [List.flatMap_def, List.map_congr_left hclean, List.map_id']
  obtain ⟨p, hsplit, rfl⟩ := Option.map_eq_some_iff.1 hline
  rw [hflat] at hsplit
  obtain ⟨hread, -⟩ := splitFirst_eq_some (show splitFirst '\n' call.reads.flatten = some (p.1, p.2) from hsplit)
  -- the newline has arrived, so everything has
  have hall : call.reads.flatten = J.write req.toJson ++ ['\n'] := by
    rw [htext] at hreads
    refine (List.prefix_concat_iff.1 hreads).resolve_right fun hpart => h.line.1 (hpart.subset ?_)
    rw [hread]
    simp
  rw [hall, splitFirst_of_notMem h.line.1] at hsplit
  obtain rfl := Option.some_inj.1 hsplit
  rw [deserialize, h.parse] at hdecode
  exact (Except.ok.inj ((messageOfJson_toJson req).symm.trans hdecode)).symm

/-- the daemon accepted a connection, read the request, and answered it at the moment `s`; `mid` is what it did on this
connection before -/
def Served (E : Env) (n : ℕ) (req resp : IpcMessage) (mid : List (Event × St)) (s : St) : Prop :=
  ∃ (before post : List (Event × St)) (fd : ℤ) (u : St),
    history E n = (before ++ (.accept (some fd), u) :: mid) ++ (.reply resp, s) :: post ∧ (∀ p ∈ mid, Inside p.1) ∧
      (Call.of mid).requests = [req] ∧ Answers E s.now (Call.of mid) req resp

theorem served_of_given {text : Str} {req resp : IpcMessage} (h : Given E n text resp)
    (hsends : Sends E.json text req) :
    ∃ mid s, Served E n req resp mid s := by
  obtain ⟨pre, post, s, call, hhistory, hcall, hreads⟩ := h
  obtain ⟨⟨call', req', hcall', hrequests, -, hanswers⟩, hregular⟩ := good_at hhistory
  obtain rfl := Option.some_inj.1 (hcall.symm.trans hcall')
  obtain ⟨line, hline, hdecode⟩ := (hregular call hcall).decoded req' (by simp [hrequests])
  obtain rfl := request_of_part hsends hreads hline hdecode
  obtain ⟨before, fd, u, mid, rfl, hmid, rfl⟩ := callAt_since hcall
  exact ⟨mid, s, before, post, fd, u, hhistory, hmid, hrequests, hanswers⟩

/-- jsoncpp accepts the replies a client was sent, and no part of them -/
def Readable (J : JsonCpp) (answers : List IpcMessage) : Prop :=
  ∀ resp ∈ answers, J.WritesLine resp.toJson ∧ J.AcceptsWhole resp.toJson

/-- a request that could not be delivered, or was not answered -/
def Unanswered (result : Except Thrown (Bool × IpcMessage)) : Prop := result = .ok (false, {})

/-- a reply that arrived in part -/
def Torn (result : Except Thrown (Bool × IpcMessage)) : Prop :=
  ∃ errs, result = .ok (true, { message := lit "Failed to parse JSON: " ++ errs })

/-- a client that reads a part of a reply has no reply, the reply, or a text that is not one -/
theorem sendRequest_reads {J : JsonCpp} {r : IpcMessage} {p : Str} {X : Exchange} (hJ : J.WritesLine r.toJson)
    (hparse : J.AcceptsWhole r.toJson) (hp : p <+: r.serialize J) (hne : ∀ chunk ∈ X.reads, chunk ≠ [])
    (hreads : X.reads.flatten = p) (client : IpcClient) (req : IpcMessage) (timeoutMs : ℕ) :
    Unanswered (client.sendRequest J X req {} timeoutMs) ∨ client.sendRequest J X req {} timeoutMs = .ok (true, r) ∨
      Torn (client.sendRequest J X req {} timeoutMs) := by
  have hwhole : deserialize J (J.write r.toJson) = .ok r := by
    rw [deserialize, hparse.whole]
    exact messageOfJson_toJson r
  have hcases : client.sendRequest J X req {} timeoutMs = .ok (false, {}) ∨
      client.sendRequest J X req {} timeoutMs = answerOf J {} (receive [] X.reads) := sendRequest_cases
  rcases hcases with hnot | hread
  · exact Or.inl hnot
  rw [hread]
  rcases receive_prefix hJ hp hne hreads with ⟨hreceive, -⟩ | ⟨hp, hreceive⟩
  · rw [hreceive, answerOf, hwhole]
    exact Or.inr (Or.inl rfl)
  by_cases hempty : p = []
  · rw [hreceive, if_pos hempty]
    exact Or.inl rfl
  rw [hreceive, if_neg hempty, answerOf]
  by_cases hall : p = J.write r.toJson
  · rw [hall, hwhole]
    exact Or.inr (Or.inl rfl)
  · obtain ⟨errs, hfailed⟩ := hparse.part p hp hall
    rw [deserialize, hfailed]
    exact Or.inr (Or.inr ⟨errs, rfl⟩)

/-- **What a client reads is the daemon's answer to its request**, if it reads a whole reply. -/
theorem reply_served (hinv : Inv E payload n t) (h : Heard E payload n t) {c : ℕ} {req : IpcMessage}
    (hsends : Sends E.json (payload c) req) (hreadable : Readable E.json (t.answers c)) (client : IpcClient)
    (timeoutMs : ℕ) :
    Unanswered (client.sendRequest E.json (t.client c).talk.exchange req {} timeoutMs) ∨
    (∃ resp mid s, client.sendRequest E.json (t.client c).talk.exchange req {} timeoutMs = .ok (true, resp) ∧
      Served E n req resp mid s) ∨
    Torn (client.sendRequest E.json (t.client c).talk.exchange req {} timeoutMs) := by
  have hstream := hinv.stream c
  cases hdelivered : t.delivered c with
  | nil =>
    -- nothing came to the client, so it has read nothing
    rw [hdelivered] at hstream
    have hreads : (t.client c).talk.reads = [] := by
      cases hreads : (t.client c).talk.reads with
      | nil => rfl
      | cons chunk chunks =>
        rw [hreads] at hstream
        have hempty : chunk = [] := by
          have hnil := List.append_eq_nil_iff.1 hstream
          exact (List.append_eq_nil_iff.1 hnil.1).1
        exact absurd hempty ((hinv.sound c).chunks chunk (by simp [hreads]))
    have hcases : client.sendRequest E.json (t.client c).talk.exchange req {} timeoutMs = .ok (false, {}) ∨
        client.sendRequest E.json (t.client c).talk.exchange req {} timeoutMs =
          answerOf E.json {} (receive [] (t.client c).talk.exchange.reads) := sendRequest_cases
    refine Or.inl (hcases.elim id fun hread => ?_)
    rw [Unanswered, hread, show (t.client c).talk.exchange.reads = [] from hreads]
    rfl
  | cons r rest =>
    have hanswers : t.answers c = r :: rest := by
      rcases hinv.delivered c with hall | hnone
      · rw [← hall, hdelivered]
      · rw [hdelivered] at hnone
        cases hnone
    have honce := h.once c
    rw [hanswers] at honce
    obtain rfl : rest = [] := List.length_eq_zero_iff.1 (by simpa using honce)
    rw [hdelivered] at hstream
    obtain ⟨hline, hwhole⟩ := hreadable r (by simp [hanswers])
    have hprefix : (t.client c).talk.reads.flatten <+: r.serialize E.json :=
      ⟨t.toClient c, by simpa using hstream⟩
    refine (sendRequest_reads (X := (t.client c).talk.exchange) hline hwhole hprefix (hinv.sound c).chunks rfl client req
      timeoutMs).imp id (Or.imp (fun hsend => ?_) id)
    obtain ⟨mid, s, hserved⟩ := served_of_given (h.given c r (by simp [hanswers])) hsends
    exact ⟨r, mid, s, hsend, hserved⟩

/-- a success that a client reads is the daemon's answer -/
theorem success_served (hinv : Inv E payload n t) (h : Heard E payload n t) {c : ℕ} {req resp : IpcMessage}
    (hsends : Sends E.json (payload c) req) (hreadable : Readable E.json (t.answers c)) (client : IpcClient)
    {timeoutMs : ℕ} (hsend : client.sendRequest E.json (t.client c).talk.exchange req {} timeoutMs = .ok (true, resp))
    (hsuccess : resp.success = true) : ∃ mid s, Served E n req resp mid s := by
  rcases reply_served hinv h hsends hreadable client timeoutMs with hnone | ⟨r, mid, s, hread, hserved⟩ | ⟨errs, hpart⟩
  · rw [Unanswered, hsend] at hnone
    cases hnone
  · rw [hsend] at hread
    cases hread
    exact ⟨mid, s, hserved⟩
  · rw [hsend] at hpart
    cases hpart
    cases hsuccess

end Invariant

/-- what a method makes of the reply, when it returns -/
theorem reply_of_ok {α β : Type} {x : Except Thrown α} {f : α → β} {b : β} (h : (do let a ← x; return f a) = .ok b) :
    ∃ a, x = .ok a ∧ f a = b := by
  cases x with
  | error what => cases h
  | ok a => exact ⟨a, rfl, Except.ok.inj h⟩

theorem success_of_list {α : Type} {ok : Bool} {resp : IpcMessage} {part : IpcMessage → List α} {before out : List α}
    (h : (if ok && resp.success then (true, part resp) else (false, before)) = (true, out)) :
    (ok = true ∧ resp.success = true) ∧ part resp = out := by
  split_ifs at h with hsuccess
  · exact ⟨Bool.and_eq_true_iff.1 hsuccess, (Prod.mk.inj h).2⟩
  · cases h

section Calls

variable {E : Env} {payload : ℕ → Str} {n : ℕ} {t : Net} {c : ℕ} {client : IpcClient}

/-- a method that returned true was served -/
theorem served_of_true (hinv : Inv E payload n t) (hheard : Heard E payload n t)
    (hreadable : Readable E.json (t.answers c))
    {req resp : IpcMessage} {ok : Bool} {timeoutMs : ℕ} (hsends : Sends E.json (payload c) req)
    (hsend : client.sendRequest E.json (t.client c).talk.exchange req {} timeoutMs = .ok (ok, resp))
    (htrue : ok = true ∧ resp.success = true) : ∃ mid s, Served E n req resp mid s := by
  obtain ⟨rfl, hsuccess⟩ := htrue
  exact success_served hinv hheard hsends hreadable client hsend hsuccess

/-- the users are the scan that the daemon made for the call -/
theorem getUsers_served (hinv : Inv E payload n t) (hheard : Heard E payload n t)
    (hreadable : Readable E.json (t.answers c)) {out users : List UserInfo}
    (hsends : Sends E.json (payload c) { type := .getUsers })
    (husers : client.getUsers E.json (t.client c).talk.exchange out = .ok (true, users)) :
    ∃ resp mid s, Served E n { type := .getUsers } resp mid s ∧ users = scanUsers (E.passwd (s.now - 2))
      (E.getlogin (s.now - 2)) E.self.uid E.self.gid (E.isFile (s.now - 2)) := by
  obtain ⟨⟨ok, resp⟩, hsend, htrue⟩ := reply_of_ok husers
  obtain ⟨hok, rfl⟩ := success_of_list htrue
  obtain ⟨mid, s, hserved⟩ := served_of_true hinv hheard hreadable hsends hsend hok
  obtain ⟨-, -, -, -, -, -, -, hanswers⟩ := id hserved
  exact ⟨resp, mid, s, hserved, congrArg IpcMessage.users hanswers⟩

theorem getSessions_served (hinv : Inv E payload n t) (hheard : Heard E payload n t)
    (hreadable : Readable E.json (t.answers c)) {out sessions : List SessionInfo}
    (hsends : Sends E.json (payload c) { type := .getSessions })
    (hsessions : client.getSessions E.json (t.client c).talk.exchange out = .ok (true, sessions)) :
    ∃ resp mid s, Served E n { type := .getSessions } resp mid s ∧ scanAll (E.listing (s.now - 2)) = some sessions := by
  obtain ⟨⟨ok, resp⟩, hsend, htrue⟩ := reply_of_ok hsessions
  obtain ⟨hok, rfl⟩ := success_of_list htrue
  obtain ⟨mid, s, hserved⟩ := served_of_true hinv hheard hreadable hsends hsend hok
  obtain ⟨-, -, -, -, -, -, -, hanswers⟩ := id hserved
  obtain ⟨sessions, hscan, rfl⟩ := hanswers
  exact ⟨_, mid, s, hserved, hscan⟩

theorem powerAction_served (hinv : Inv E payload n t) (hheard : Heard E payload n t)
    (hreadable : Readable E.json (t.answers c)) {action : Str}
    (hsends : Sends E.json (payload c) { type := .powerAction, powerAction := action })
    (haction : client.powerAction E.json (t.client c).talk.exchange action = .ok true) :
    ∃ resp mid s, Served E n { type := .powerAction, powerAction := action } resp mid s ∧ action ∈ powerActions ∧
      (Call.of mid).powers = [(action, true)] := by
  obtain ⟨⟨ok, resp⟩, hsend, htrue⟩ := reply_of_ok haction
  obtain ⟨hok, hsuccess⟩ := Bool.and_eq_true_iff.1 htrue
  obtain ⟨mid, s, hserved⟩ := served_of_true hinv hheard hreadable hsends hsend ⟨hok, hsuccess⟩
  obtain ⟨-, -, -, -, -, -, -, ok', rfl, hmem, hpowers⟩ := id hserved
  obtain rfl : ok' = true := hsuccess
  have hmem : action ∈ powerActions := by
    by_contra hne
    cases hmem hne
  exact ⟨_, mid, s, hserved, hmem, hpowers.trans (if_pos hmem)⟩

/-- a reply that tells of success is the one that grants the login -/
theorem login_served (hinv : Inv E payload n t) (hheard : Heard E payload n t)
    (hreadable : Readable E.json (t.answers c))
    {req resp : IpcMessage} {timeoutMs : ℕ} (hlogin : req.type = .login) (hsends : Sends E.json (payload c) req)
    (hsend : client.sendRequest E.json (t.client c).talk.exchange req {} timeoutMs = .ok (true, resp))
    (hsuccess : resp.success = true) : ∃ mid s, Served E n req granted mid s := by
  obtain ⟨mid, s, hserved⟩ := success_served hinv hheard hsends hreadable client hsend hsuccess
  obtain ⟨-, -, -, -, -, -, -, hanswers⟩ := id hserved
  simp only [Answers, hlogin] at hanswers
  rcases hanswers with rfl | ⟨cause, ret, -, rfl, -⟩
  · exact ⟨mid, s, hserved⟩
  · cases hsuccess

end Calls

/-- **Calls are honoured.** Any number of clients and the daemon run in any order, and one client makes a call. When the
method returns true, the daemon has served this call on a connection of its own: it was pinged; the list it sent is the
scan of the users, or of the sessions, that it made for this call; logind was asked for the power action once, and
accepted it; the login was granted. -/
theorem calls_honoured (E : Env) (n : ℕ) (payload : ℕ → Str) (acts : List Action) (t : Net) (c : ℕ) (client : IpcClient)
    (hrun : Agreement.run E payload (start (history E n)) acts = some t) (hreadable : Readable E.json (t.answers c)) :
    (Sends E.json (payload c) { type := .ping } → client.ping E.json (t.client c).talk.exchange = .ok true →
      ∃ resp mid s, Served E n { type := .ping } resp mid s) ∧
    (∀ out users, Sends E.json (payload c) { type := .getUsers } →
      client.getUsers E.json (t.client c).talk.exchange out = .ok (true, users) →
      ∃ resp mid s, Served E n { type := .getUsers } resp mid s ∧ users = scanUsers (E.passwd (s.now - 2))
        (E.getlogin (s.now - 2)) E.self.uid E.self.gid (E.isFile (s.now - 2))) ∧
    (∀ out sessions, Sends E.json (payload c) { type := .getSessions } →
      client.getSessions E.json (t.client c).talk.exchange out = .ok (true, sessions) →
      ∃ resp mid s, Served E n { type := .getSessions } resp mid s ∧ scanAll (E.listing (s.now - 2)) = some sessions) ∧
    (∀ action, Sends E.json (payload c) { type := .powerAction, powerAction := action } →
      client.powerAction E.json (t.client c).talk.exchange action = .ok true →
      ∃ resp mid s, Served E n { type := .powerAction, powerAction := action } resp mid s ∧ action ∈ powerActions ∧
        (Call.of mid).powers = [(action, true)]) ∧
    ∀ username password sessionExec desktopName err err',
      Sends E.json (payload c) (loginRequest username password sessionExec desktopName) →
      client.login E.json (t.client c).talk.exchange username password sessionExec desktopName err = .ok (true, err') →
      ∃ mid s, Served E n (loginRequest username password sessionExec desktopName) granted mid s := by
  obtain ⟨hinv, hheard⟩ := heard_run acts inv_start heard_start hrun
  refine ⟨fun hsends hping => ?_, fun out users => getUsers_served hinv hheard hreadable,
    fun out sessions => getSessions_served hinv hheard hreadable, fun action =>
      powerAction_served hinv hheard hreadable,
    fun username password sessionExec desktopName err err' hsends hlogin => ?_⟩
  · obtain ⟨⟨ok, resp⟩, hsend, htrue⟩ := reply_of_ok hping
    obtain ⟨mid, s, hserved⟩ := served_of_true hinv hheard hreadable hsends hsend (Bool.and_eq_true_iff.1 htrue)
    exact ⟨resp, mid, s, hserved⟩
  · obtain ⟨⟨ok, resp⟩, hsend, htrue⟩ := reply_of_ok hlogin
    cases ok with
    | false => cases htrue
    | true =>
      cases hsuccess : resp.success with
      | true => exact login_served hinv hheard hreadable rfl hsends hsend hsuccess
      | false => simp [hsuccess] at htrue

/-! ## Witnesses -/

def rebooting : IpcMessage := { type := .powerAction, powerAction := lit "reboot" }

/-- jsoncpp on the request and the reply -/
def rebootJson : JsonCpp where
  parse raw :=
    if raw = compact rebooting.toJson then .root rebooting.toJson
    else if raw = compact (powerReport true).toJson then .root (powerReport true).toJson
    else .failed (lit "Syntax error")
  write := compact

def rebootable : Env := { machine [greeterAccount] [] rebooting with json := rebootJson }

def rebootText : Str := rebooting.serialize rebootJson

def reportText : Str := (powerReport true).serialize rebootJson

/-- the reply is read in two pieces -/
def reboot : List Action :=
  [.connect 0 true, .write 0 rebootText.length] ++ List.replicate 33 .daemon ++
    [.poll 0 true, .read 0 (reportText.take 20), .read 0 (reportText.drop 20)]

def rebooted : Talk :=
  { connected := true, written := rebootText.length, ready := true, reads := [reportText.take 20, reportText.drop 20] }

theorem readable_report : Readable rebootJson [powerReport true] := by
  intro resp hresp
  rw [List.mem_singleton.1 hresp]
  have hne : ∀ p, p <+: compact (powerReport true).toJson → p ≠ compact rebooting.toJson := by
    rintro p hp rfl
    exact absurd hp (by decide +kernel)
  have hwhole : rebootJson.parse (compact (powerReport true).toJson) = .root (powerReport true).toJson := by
    simp only [rebootJson, hne _ (List.prefix_refl _), if_false, if_true]
  refine ⟨?_, hwhole, fun p hp hpart => ⟨lit "Syntax error", ?_⟩⟩
  · unfold JsonCpp.WritesLine
    decide +kernel
  · have hpart : p ≠ compact (powerReport true).toJson := hpart
    simp only [rebootJson, hne p hp, hpart, if_false]

theorem calls_honoured_reboot : ∃ resp mid s, Served rebootable 1 rebooting resp mid s ∧
    (Call.of mid).powers = [(lit "reboot", true)] := by
  have hrun : (Agreement.run rebootable (fun _ => rebootText) (start (history rebootable 1)) reboot).map
      (fun t => (t.client 0, t.answers 0)) = some (⟨.leaving, rebooted⟩, [powerReport true]) := by decide +kernel
  obtain ⟨t, hrun, heq⟩ := Option.map_eq_some_iff.1 hrun
  obtain ⟨hclient, hanswers⟩ := Prod.mk.inj heq
  have hparse : rebootJson.parse (compact rebooting.toJson) = .root rebooting.toJson := by
    simp only [rebootJson, if_true]
  have hsends : Sends rebootable.json rebootText rebooting :=
    ⟨rfl, by unfold JsonCpp.WritesLine; decide +kernel, hparse⟩
  have hcall : IpcClient.powerAction rebootable.json ⟨defaultSocketPath⟩ (t.client 0).talk.exchange (lit "reboot") =
      .ok true := by
    rw [hclient]
    decide +kernel
  obtain ⟨resp, mid, s, hserved, -, hpowers⟩ := (calls_honoured rebootable 1 _ reboot t 0 ⟨defaultSocketPath⟩ hrun
    (hanswers ▸ readable_report)).2.2.2.1 _ hsends hcall
  exact ⟨resp, mid, s, hserved, hpowers⟩

end Miqudm.RemoteCalls
