/-
Malformed input: which texts the decoder survives, and with it the daemon.

`deserialize` has no guard around jsoncpp's accessors, and the daemon none around `deserialize`. `decodes_iff` says for
which texts this does not matter: those whose parse is `Decodable`. For such a line `process_message` is reached, and, if
the directories can be scanned for sessions, no exception ends the connection; for every other line the process ends
before. `[]` is the shortest text of the second kind.
-/
import Miqudm.Daemon.Survival

namespace Miqudm.MalformedInput

open Miqudm.Core Prog

/-! ## Reaching `process_message` -/

/-- however it ends, the program shows the request -/
def Reaches {α : Type} (req : IpcMessage) (x : Sys α) : Prop := ∀ s, Sat x s
  (fun l _ _ => ∃ p ∈ l, p.1 = .received req) (fun l _ _ => ∃ p ∈ l, p.1 = .received req)

/-- the program throws, and shows no request before -/
def Throws {α : Type} (what : Thrown) (x : Sys α) : Prop := ∀ s, Sat x s (fun _ _ _ => False)
  (fun l e _ => (∀ p ∈ l, ∀ req, p.1 ≠ .received req) ∧ e = .uncaught what)

section Rules

variable {E : Env} {α β : Type} {req : IpcMessage} {what : Thrown} {f : β → Sys α}

theorem reaches_before {x : Sys β} (hx : Reaches req x) : Reaches req (x >>= f) := by
  refine fun s => (sat_bind x f).2 (Sat.mono (hx s) (fun l b t h => ?_) fun _ _ _ h => h)
  have hl : ∀ l' : List (Event × St), ∃ p ∈ l ++ l', p.1 = .received req := fun l' =>
    h.imp fun p hp => ⟨List.mem_append_left l' hp.1, hp.2⟩
  exact Sat.mono (sat_run (f b) t) (fun l' _ _ _ => hl l') fun l' _ _ _ => hl l'

/-- after a calm part -/
theorem reaches_after {g : St → St} {x : Sys β} (hx : Within (calmly g) x) (hf : ∀ b, Reaches req (f b)) :
    Reaches req (x >>= f) := by
  refine fun s => (sat_bind x f).2 (Sat.mono (hx s) (fun l b t _ => ?_) fun _ _ _ h => h.2.elim)
  have later : ∀ l', (∃ p ∈ l', p.1 = .received req) → ∃ p ∈ l ++ l', p.1 = .received req := fun l' h =>
    h.imp fun p hp => ⟨List.mem_append_right l hp.1, hp.2⟩
  exact Sat.mono (hf b t) (fun l' _ _ => later l') fun l' _ _ => later l'

theorem reaches_op (f : St → St) : Reaches req (op E (.received req) f) := fun s =>
  Sat.mono (op_spec E _ f s) (fun l _ t ⟨pre, hl, _⟩ => ⟨(.received req, t), by simp [hl], rfl⟩) fun _ _ _ h => h.elim

theorem throws_before {x : Sys β} (hx : Throws what x) : Throws what (x >>= f) := fun s =>
  (sat_bind x f).2 (Sat.mono (hx s) (fun _ _ _ h => h.elim) fun _ _ _ h => h)

theorem throws_after {g : St → St} {x : Sys β} (hx : Within (calmly g) x) (hf : ∀ b, Throws what (f b)) :
    Throws what (x >>= f) := by
  refine fun s => (sat_bind x f).2 (Sat.mono (hx s) (fun l b t hl => ?_) fun _ _ _ h => h.2.elim)
  refine Sat.mono (hf b t) (fun _ _ _ h => h) fun l' e _ h => ⟨?_, h.2⟩
  refine List.forall_mem_append.2 ⟨fun p hp req hreq => ?_, h.1⟩
  have hcalm : p.1.calm := (hl.1 p hp).1
  rw [hreq] at hcalm
  cases hcalm

theorem throws_halt : Throws what (halt (.uncaught what) : Sys α) := fun _ => ⟨by simp, rfl⟩

end Rules

variable (E : Env)

theorem serveLine_reaches {line : Str} {req : IpcMessage} (h : deserialize E.json line = .ok req) (rest : Str) :
    Reaches req (serveLine E line rest) := by
  refine reaches_after (g := apartAll) (op_calm E (fun _ => rfl) rfl fun _ => rfl) fun _ => ?_
  rw [h]
  exact reaches_before (reaches_op _)

theorem serveLine_throws {line : Str} {what : Thrown} (h : deserialize E.json line = .error what) (rest : Str) :
    Throws what (serveLine E line rest) := by
  refine throws_after (g := apartAll) (op_calm E (fun _ => rfl) rfl fun _ => rfl) fun _ => ?_
  rw [h]
  exact throws_halt

/-- the reads come to the first line, whatever chunks it is cut into -/
theorem readLoop_line {P : Sys Unit → Prop} {line : Str}
    (hstep : ∀ (x : Sys Unit) (f : Unit → Sys Unit), Within (calmly apartAll) x → (∀ u, P (f u)) → P (x >>= f))
    (hline : ∀ rest, P (serveLine E line rest)) :
    ∀ (chunks : List Str) (accumulated : Str), splitFirst '\n' accumulated = none →
      (splitFirst '\n' (accumulated ++ received chunks)).map Prod.fst = some line →
      P (readLoop E accumulated chunks) := by
  intro chunks
  induction chunks with
  | nil =>
    intro accumulated hnone hsent
    simp [received, hnone] at hsent
  | cons chunk chunks ih =>
    intro accumulated hnone hsent
    by_cases hchunk : chunk = []
    · simp [received, hchunk, hnone] at hsent
    · rw [received_cons hchunk, ← List.append_assoc] at hsent
      rw [readLoop, if_neg hchunk]
      refine hstep _ _ (op_calm E (fun _ => rfl) rfl fun _ => rfl) fun _ => ?_
      split
      · case _ hsplit => exact ih _ hsplit hsent
      · case _ line' rest hsplit =>
        rw [splitFirst_append hsplit] at hsent
        cases hsent
        exact hline rest

theorem handleClientConnection_reaches {chunks : List Str} {line : Str} (hsent : sentLine chunks = some line)
    {req : IpcMessage} (h : deserialize E.json line = .ok req) (fd : ℤ) :
    Reaches req (handleClientConnection E fd chunks) := by
  refine reaches_after (g := apartAll) (op_calm E (fun _ => rfl) rfl fun _ => rfl) fun _ => reaches_before ?_
  exact readLoop_line E (fun _ _ => reaches_after) (serveLine_reaches E h) chunks [] rfl hsent

theorem handleClientConnection_throws {chunks : List Str} {line : Str} (hsent : sentLine chunks = some line)
    {what : Thrown} (h : deserialize E.json line = .error what) (fd : ℤ) :
    Throws what (handleClientConnection E fd chunks) := by
  refine throws_after (g := apartAll) (op_calm E (fun _ => rfl) rfl fun _ => rfl) fun _ => throws_before ?_
  exact readLoop_line E (fun _ _ => throws_after) (serveLine_throws E h) chunks [] rfl hsent

/-! ## The results -/

/-- the text is a message of one of the known types -/
def Usable (parsed : Parsed) : Prop := ∃ type, type ≠ .unknown ∧ parsed.Names type

/-- `deserialize` returns a message, of type `unknown` if the text is no usable one -/
def Decodes (J : JsonCpp) (rawJson : Str) : Prop :=
  ∃ m, deserialize J rawJson = .ok m ∧ (¬ Usable (J.parse rawJson) → m.type = .unknown)

theorem decodes_iff_ok (J : JsonCpp) (rawJson : Str) : Decodes J rawJson ↔ Ok (deserialize J rawJson) := by
  refine ⟨fun ⟨m, hm, _⟩ => ⟨m, hm⟩, fun ⟨m, hm⟩ => ⟨m, hm, fun hunusable => ?_⟩⟩
  by_contra htype
  exact hunusable ⟨m.type, htype, deserialize_type hm htype⟩

/-- the process ends by an exception: one of jsoncpp, or one of a scan -/
def Exception : Halt → Prop
  | .uncaught _ => True
  | .filesystemError => True
  | _ => False

/-- `process_message` is reached, and no exception ends the connection -/
def Handled (fd : ℤ) (chunks : List Str) (s : St) : Prop :=
  (∃ p ∈ (handleClientConnection E fd chunks s).log, ∃ req, p.1 = .received req) ∧
  ∀ e, (handleClientConnection E fd chunks s).fin = .error e → ¬ Exception e

theorem handled_iff (hscans : ∀ n, Scannable (E.listing n)) {chunks : List Str} {line : Str}
    (hsent : sentLine chunks = some line) (fd : ℤ) (s : St) :
    Handled E fd chunks s ↔ Ok (deserialize E.json line) := by
  cases hline : deserialize E.json line with
  | ok req =>
    refine ⟨fun _ => ok_ok req, fun _ => ⟨?_, fun e hfin => ?_⟩⟩
    · obtain ⟨p, hp, hreq⟩ := Sat.log (handleClientConnection_reaches E hsent hline fd s)
      exact ⟨p, hp, req, hreq⟩
    · rcases Sat.of_error (handleClientConnection_breaks E fd chunks s) hfin with
        hbreaks | ⟨⟨line', hsent', what, hwhat, -⟩, -⟩
      · rw [hbreaks.sigpipe hscans]
        exact id
      · rw [← Option.some_inj.1 (hsent.symm.trans hsent'), hline] at hwhat
        cases hwhat
  | error what =>
    refine ⟨fun h => ?_, fun h => (not_ok_error _ h).elim⟩
    have hthrows := handleClientConnection_throws E hsent hline fd s
    cases hfin : (handleClientConnection E fd chunks s).fin with
    | ok u => exact (Sat.of_ok hthrows hfin).elim
    | error e =>
      rw [(Sat.of_error hthrows hfin).2] at hfin
      exact absurd trivial (h.2 _ hfin)

/-- **Exactly the decodable texts are survived.** `deserialize` returns, for any text. Where the directories can be scanned
for sessions, `process_message` is reached without an exception, for any line a client sends in any chunks; the connection
returns to the poll loop if the client keeps its end open; and in a watched run whose lines all decode no exception ends
the daemon, once it has found out where its configuration is. -/
theorem decodes_iff (E : Env) :
    (∀ J rawJson, Decodes J rawJson ↔ (J.parse rawJson).Decodable) ∧
    ((∀ n, Scannable (E.listing n)) →
      (∀ fd chunks s line, sentLine chunks = some line → (Handled E fd chunks s ↔ (E.json.parse line).Decodable)) ∧
      (∀ fd chunks s line, sentLine chunks = some line → (∀ n, E.peerOpen n = true) →
        ((handleClientConnection E fd chunks s).fin = .ok () ↔ (E.json.parse line).Decodable)) ∧
      ∀ n, Looks E → (∀ m chunks line, E.accept m = some chunks → sentLine chunks = some line →
          (E.json.parse line).Decodable) → ∀ e, (main E n (boot E)).fin = .error e → ¬ Exception e) := by
  refine ⟨fun J rawJson => (decodes_iff_ok J rawJson).trans (deserialize_iff J rawJson), fun hscans => ⟨?_, ?_, ?_⟩⟩
  · exact fun fd chunks s line hsent => (handled_iff E hscans hsent fd s).trans (deserialize_iff E.json line)
  · intro fd chunks s line hsent hopen
    refine ⟨fun hok => ?_, fun h => ?_⟩
    · -- a connection that throws does not return
      by_contra hnot
      obtain ⟨what, hwhat⟩ : ∃ what, deserialize E.json line = .error what := by
        cases hline : deserialize E.json line with
        | ok req => exact absurd ((deserialize_iff E.json line).1 ⟨req, hline⟩) hnot
        | error what => exact ⟨what, rfl⟩
      exact Sat.of_ok (handleClientConnection_throws E hsent hwhat fd s) hok
    · refine (handleClientConnection_returns E (fun line' hsent' => ?_) fd s).2 fun p _ => ?_
      · rw [← Option.some_inj.1 (hsent.symm.trans hsent')]
        exact (deserialize_iff E.json line).2 h
      · exact harmless_of_open hscans hopen p
  · intro n hlooks hlines e hfin
    have hrefuses : ∀ e, ¬ AnyRefuses E e := fun e ⟨m, chunks, line, haccept, hsent, hrefuses⟩ =>
      not_refuses E ((deserialize_iff E.json line).2 (hlines m chunks line haccept hsent)) e hrefuses
    rcases Sat.of_error (main_breaks E n) hfin with ⟨hnot, -⟩ | ⟨-, hbreaks | ⟨hcut | hthrown, -⟩⟩
    · exact absurd hlooks hnot
    · rw [hbreaks.sigpipe hscans]
      exact id
    · rw [hcut]
      exact id
    · exact absurd hthrown (hrefuses e)

/-! ## Witnesses -/

/-- a client that sends an empty array in two chunks -/
def arrayClient : Env :=
  { machine [] [] {} with json := jsonCppFor (.arr []), accept := fun _ => some [lit "[", lit "]\n"] }

/-- the line `[]` is not decoded, so it is not handled -/
theorem decodes_iff_array : ¬ Handled arrayClient 4 [lit "[", lit "]\n"] (boot arrayClient) := by
  have hscans : ∀ n, Scannable (arrayClient.listing n) := fun _ => show Scannable (arrayClient.listing 0) by decide
  rw [((decodes_iff arrayClient).2 hscans).1 4 _ (boot arrayClient) (lit "[]") (by decide)]
  rintro ⟨members, hmembers, -⟩
  cases hmembers

/-- the two bytes `[]` make the decoder throw, and end the daemon -/
theorem killed_by_array : deserialize (jsonCppFor (.arr [])) (lit "[]") = .error .logicError ∧
    (main arrayClient 1 (boot arrayClient)).fin = .error (.uncaught .logicError) := by
  decide +kernel

end Miqudm.MalformedInput
