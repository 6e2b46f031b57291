/-
What the client makes of a stream.

The receiving loop of `send_request` is the daemon's, with one more exit: when the stream ends without a newline, what
has arrived is decoded. `receive_of_line` and `receive_of_none` say which text that is.

- `framing`: at both ends the cuts of the stream do not matter;
- `truncated_reply`: a reply that did not arrive in full is never taken for a success, because no proper prefix of an
  object is JSON, and the message a failed parse leaves behind has no success.
-/
import Miqudm.Common.RoundTrip
import Miqudm.Daemon.Connection
import Miqudm.Greeter.IpcClient

namespace Miqudm

open Miqudm.Core Prog

/-! ## The text that is decoded -/

theorem receive_of_line {line rest : Str} : ∀ (chunks : List Str) {collected : Str} {reads : List Str},
    readLine collected chunks = some (reads, line, rest) → receive collected chunks = some line := by
  intro chunks
  induction chunks with
  | nil => exact fun h => by cases h
  | cons chunk chunks ih =>
    intro collected reads h
    rw [readLine] at h
    by_cases hchunk : chunk = []
    · rw [if_pos hchunk] at h
      cases h
    · rw [if_neg hchunk] at h
      rw [receive, if_neg hchunk]
      cases hsplit : splitFirst '\n' (collected ++ cstr chunk) with
      | some p =>
        simp only [hsplit, Option.some.injEq, Prod.mk.injEq] at h
        obtain ⟨-, rfl, -⟩ := h
        rfl
      | none =>
        simp only [hsplit, Option.map_eq_some_iff, Prod.mk.injEq] at h
        obtain ⟨⟨reads', p⟩, hr, -, rfl⟩ := h
        simp only [ih hr]

/-- without a newline, all that has arrived -/
theorem receive_of_none : ∀ (chunks : List Str) {collected : Str}, (∀ chunk ∈ chunks, chunk ≠ []) →
    '\n' ∉ collected ++ chunks.flatten → nul ∉ chunks.flatten →
    receive collected chunks =
      if collected ++ chunks.flatten = [] then none else some (collected ++ chunks.flatten) := by
  intro chunks
  induction chunks with
  | nil =>
    intro collected _ _ _
    rw [List.flatten_nil, List.append_nil]
    rfl
  | cons chunk chunks ih =>
    intro collected hne hline hnul
    rw [List.forall_mem_cons] at hne
    rw [List.flatten_cons, ← List.append_assoc] at hline
    rw [List.flatten_cons] at hnul
    have hclean : nul ∉ chunk := fun h => hnul (List.mem_append_left _ h)
    have hnone : '\n' ∉ collected ++ chunk := fun h => hline (List.mem_append_left _ h)
    rw [receive, if_neg hne.1, cstr_of_noNul hclean, splitFirst_eq_none hnone, List.flatten_cons, ← List.append_assoc]
    exact ih hne.2 hline fun h => hnul (List.mem_append_right _ h)

/-- the exchange gets as far as the reply -/
structure Exchange.Reaches (X : Exchange) (J : JsonCpp) (client : IpcClient) (req : IpcMessage) (timeoutMs : ℕ) :
    Prop where
  socket : X.socket = true
  connect : X.connect (sunPath client.socketPath) = true
  written : ¬ X.written < (req.serialize J).length
  poll : X.poll timeoutMs = true

/-- what is read decides -/
def answerOf (J : JsonCpp) (outResp : IpcMessage) : Option Str → Except Thrown (Bool × IpcMessage)
  | some text => (deserialize J text).map fun resp => (true, resp)
  | none => .ok (false, outResp)

section Client

variable {J : JsonCpp} {client : IpcClient} {X : Exchange} {req outResp : IpcMessage} {timeoutMs : ℕ}

theorem sendRequest_of_reaches (h : X.Reaches J client req timeoutMs) :
    client.sendRequest J X req outResp timeoutMs = answerOf J outResp (receive [] X.reads) := by
  simp only [IpcClient.sendRequest, h.socket, h.connect, h.written, h.poll, not_true_eq_false, if_false]
  cases receive [] X.reads <;> rfl

/-- an exchange that gets no reply, or one that is decided by what is read -/
theorem sendRequest_cases : client.sendRequest J X req outResp timeoutMs = .ok (false, outResp) ∨
    client.sendRequest J X req outResp timeoutMs = answerOf J outResp (receive [] X.reads) := by
  by_cases hsocket : X.socket = true
  · by_cases hconnect : X.connect (sunPath client.socketPath) = true
    · by_cases hwritten : X.written < (req.serialize J).length
      · exact Or.inl (by simp [IpcClient.sendRequest, hsocket, hconnect, hwritten])
      · by_cases hpoll : X.poll timeoutMs = true
        · exact Or.inr (sendRequest_of_reaches ⟨hsocket, hconnect, hwritten, hpoll⟩)
        · exact Or.inl (by simp [IpcClient.sendRequest, hsocket, hconnect, hwritten, hpoll])
    · exact Or.inl (by simp [IpcClient.sendRequest, hsocket, hconnect])
  · exact Or.inl (by simp [IpcClient.sendRequest, hsocket])

end Client

/-! ## What jsoncpp is asked for -/

/-- the text of a value is one line, and a C string -/
def JsonCpp.WritesLine (J : JsonCpp) (j : Json) : Prop := '\n' ∉ J.write j ∧ nul ∉ J.write j

/-- the parser accepts the text of a value, and rejects each of its proper prefixes -/
structure JsonCpp.AcceptsWhole (J : JsonCpp) (j : Json) : Prop where
  whole : J.parse (J.write j) = .root j
  part : ∀ p, p <+: J.write j → p ≠ J.write j → ∃ errs, J.parse p = .failed errs

theorem serialize_dropLast (J : JsonCpp) (m : IpcMessage) : (m.serialize J).dropLast = J.write m.toJson :=
  List.dropLast_concat

/-- however the text of a message and what follows it are cut, the line is the text -/
theorem readLine_serialize {J : JsonCpp} {m : IpcMessage} (hJ : J.WritesLine m.toJson) {x : Str} {chunks : List Str}
    (hne : ∀ chunk ∈ chunks, chunk ≠ []) (h : chunks.flatten = m.serialize J ++ x) :
    ∃ reads rest, readLine [] chunks = some (reads, (m.serialize J).dropLast, rest) := by
  rw [serialize_dropLast]
  have hflat : chunks.flatten = J.write m.toJson ++ '\n' :: x := by
    rw [h, IpcMessage.serialize, List.append_assoc]
    rfl
  exact readLine_framed hJ.1 hJ.2 chunks [] hne (by simp) (by simpa using hflat)

namespace Framing

/-- **Framing is independent of how the stream is cut.** Let the bytes of a message and whatever follows them arrive in
pieces of any size. The daemon reads on until the newline and handles one line, the text of the message without its
newline, handing what it decodes to, if it decodes, to `process_message` once; and the client that gets this stream as
its reply returns what that text decodes to. On a stream that ends before a newline the daemon handles nothing. -/
theorem framing (E : Env) (m : IpcMessage) (hJ : E.json.WritesLine m.toJson) :
    (∀ (x : Str) (chunks : List Str), (∀ chunk ∈ chunks, chunk ≠ []) → chunks.flatten = m.serialize E.json ++ x →
      (∃ reads rest, ∀ fd, handleClientConnection E fd chunks =
        withFrame E fd (do readAll E reads; serveLine E (m.serialize E.json).dropLast rest)) ∧
      (∀ fd s, requests (events (handleClientConnection E fd chunks s).log) =
        decoded E (m.serialize E.json).dropLast) ∧
      ∀ (client : IpcClient) (X : Exchange) (req outResp : IpcMessage) (timeoutMs : ℕ),
        X.Reaches E.json client req timeoutMs → X.reads = chunks →
        client.sendRequest E.json X req outResp timeoutMs =
          (deserialize E.json (m.serialize E.json).dropLast).map fun resp => (true, resp)) ∧
    ∀ chunks : List Str, '\n' ∉ chunks.flatten →
      ∀ fd s, requests (events (handleClientConnection E fd chunks s).log) = [] := by
  constructor
  · intro x chunks hne h
    obtain ⟨reads, rest, hread⟩ := readLine_serialize hJ hne h
    refine ⟨⟨reads, rest, fun fd => (connection_of_line E hread fd).1⟩, ?_, ?_⟩
    · exact fun fd s => Sat.log ((connection_of_line E hread fd).2 s)
    · intro client X req outResp timeoutMs hreaches hreads
      rw [sendRequest_of_reaches hreaches, hreads, receive_of_line chunks hread]
      rfl
  · intro chunks hline fd s
    have hnone := readLine_unframed chunks [] (by simpa using hline)
    exact Sat.log ((connection_of_none E hnone fd).2 s)

/-! ## Witnesses -/

def pinging : IpcMessage := { type := .ping }

def pingText : Str := lit "\x7b\"message\":\"\",\"success\":false,\"type\":\"ping\"\x7d"

def pingJson : JsonCpp := jsonCppOn pinging.toJson pingText

def pinged : Env := { machine [] [] pinging with json := pingJson }

/-- a ping cut within its text, with the start of something else behind it -/
theorem framing_ping :
    requests (events (handleClientConnection pinged 5 [pingText.take 7, pingText.drop 7 ++ lit "\n\x7b"]
      (boot pinged)).log) = decoded pinged (pinging.serialize pingJson).dropLast := by
  have hline : pingJson.WritesLine pinging.toJson := by
    constructor
    · decide
    · decide
  exact ((framing pinged pinging hline).1 (lit "\x7b") _ (by decide) (by decide)).2.1 5 (boot pinged)

end Framing

/-! ## Replies that end early -/

section Truncated

variable {J : JsonCpp} {r : IpcMessage} {p : Str} {X : Exchange}

/-- what the reads of a prefix of a reply amount to -/
theorem receive_prefix (hJ : J.WritesLine r.toJson) (hp : p <+: r.serialize J) (hne : ∀ chunk ∈ X.reads, chunk ≠ [])
    (hreads : X.reads.flatten = p) :
    receive [] X.reads = some (J.write r.toJson) ∧ J.write r.toJson <+: p ∨
      p <+: J.write r.toJson ∧ receive [] X.reads = if p = [] then none else some p := by
  rcases List.prefix_concat_iff.1 hp with hall | hp
  · -- the newline has arrived
    left
    have hflat : X.reads.flatten = r.serialize J ++ [] := by rw [hreads, hall, List.append_nil]; rfl
    obtain ⟨reads, rest, hread⟩ := readLine_serialize hJ hne hflat
    rw [serialize_dropLast] at hread
    exact ⟨receive_of_line _ hread, hall ▸ List.prefix_append _ _⟩
  · right
    have hline : '\n' ∉ [] ++ X.reads.flatten := fun h => hJ.1 (hp.subset (hreads ▸ h))
    have hnul : nul ∉ X.reads.flatten := fun h => hJ.2 (hp.subset (hreads ▸ h))
    have hreceive := receive_of_none X.reads hne hline hnul
    rw [List.nil_append, hreads] at hreceive
    exact ⟨hp, hreceive⟩

/-- **A success is the whole reply.** Reading a prefix of a reply throws nothing, and gives a message of success only
when the prefix holds the whole object, and then the reply itself. -/
theorem sendRequest_prefix (hJ : J.WritesLine r.toJson) (hparse : J.AcceptsWhole r.toJson) (hp : p <+: r.serialize J)
    (hne : ∀ chunk ∈ X.reads, chunk ≠ []) (hreads : X.reads.flatten = p) (client : IpcClient) (req : IpcMessage)
    (timeoutMs : ℕ) :
    ∃ ok resp, client.sendRequest J X req {} timeoutMs = .ok (ok, resp) ∧
      ((ok && resp.success) = true → resp = r ∧ J.write r.toJson <+: p) := by
  have hwhole : deserialize J (J.write r.toJson) = .ok r := by
    rw [deserialize, hparse.whole]
    exact messageOfJson_toJson r
  have hcases : client.sendRequest J X req {} timeoutMs = .ok (false, {}) ∨
      client.sendRequest J X req {} timeoutMs = answerOf J {} (receive [] X.reads) := sendRequest_cases
  rcases hcases with hnot | hread
  · exact ⟨false, {}, hnot, fun h => by cases h⟩
  rw [hread]
  rcases receive_prefix hJ hp hne hreads with ⟨hreceive, hp⟩ | ⟨hp, hreceive⟩
  · rw [hreceive, answerOf, hwhole]
    exact ⟨true, r, rfl, fun _ => ⟨rfl, hp⟩⟩
  · by_cases hempty : p = []
    · rw [hreceive, if_pos hempty]
      exact ⟨false, {}, rfl, fun h => by cases h⟩
    · rw [hreceive, if_neg hempty, answerOf]
      by_cases hall : p = J.write r.toJson
      · rw [hall, hwhole]
        exact ⟨true, r, rfl, fun _ => ⟨rfl, List.prefix_refl _⟩⟩
      · -- the parse fails, and leaves a message without success
        obtain ⟨errs, hfailed⟩ := hparse.part p hp hall
        rw [deserialize, hfailed]
        exact ⟨true, { message := lit "Failed to parse JSON: " ++ errs }, rfl, fun h => by cases h⟩

end Truncated

namespace TruncatedReply

/-- a request that answers true or false, of which true is honest -/
def Honest (J : JsonCpp) (r : IpcMessage) (p : Str) (result : Except Thrown Bool) : Prop :=
  ∃ ok, result = .ok ok ∧ (ok = true → r.success = true ∧ J.write r.toJson <+: p)

/-- a request for a list: true comes with the complete list of the reply, false leaves the list alone -/
def HonestList {α : Type} (J : JsonCpp) (r : IpcMessage) (p : Str) (complete before : List α)
    (result : Except Thrown (Bool × List α)) : Prop :=
  ∃ ok after, result = .ok (ok, after) ∧
    (ok = true → r.success = true ∧ J.write r.toJson <+: p ∧ after = complete) ∧ (ok = false → after = before)

/-- **A truncated reply is never taken for success.** Whatever prefix of a reply arrives, in whatever pieces, before the
stream ends or a read fails: no request of the greeter throws, and one that answers true has read the whole object of a
reply with success, and hands over its complete list; one that answers false leaves the caller's list alone. -/
theorem truncated_reply (J : JsonCpp) (r : IpcMessage) (hJ : J.WritesLine r.toJson) (hparse : J.AcceptsWhole r.toJson)
    (p : Str) (hp : p <+: r.serialize J) (client : IpcClient) (X : Exchange) (hne : ∀ chunk ∈ X.reads, chunk ≠ [])
    (hreads : X.reads.flatten = p) :
    Honest J r p (client.ping J X) ∧
    (∀ outUsers, HonestList J r p r.users outUsers (client.getUsers J X outUsers)) ∧
    (∀ outSessions, HonestList J r p r.sessions outSessions (client.getSessions J X outSessions)) ∧
    (∀ username password sessionExec desktopName error,
      Honest J r p ((client.login J X username password sessionExec desktopName error).map Prod.fst)) ∧
    ∀ action, Honest J r p (client.powerAction J X action) := by
  have send := sendRequest_prefix hJ hparse hp hne hreads client
  have honest : ∀ (req : IpcMessage) (timeoutMs : ℕ), Honest J r p (do
      let reply ← client.sendRequest J X req {} timeoutMs
      return reply.1 && reply.2.success) := by
    intro req timeoutMs
    obtain ⟨ok, resp, hsend, hwhole⟩ := send req timeoutMs
    rw [hsend]
    refine ⟨ok && resp.success, rfl, fun h => ?_⟩
    obtain ⟨rfl, hp⟩ := hwhole h
    exact ⟨(Bool.and_eq_true_iff.1 h).2, hp⟩
  have honestList : ∀ {α : Type} (part : IpcMessage → List α) (before : List α) (req : IpcMessage) (timeoutMs : ℕ),
      HonestList J r p (part r) before (do
        let reply ← client.sendRequest J X req {} timeoutMs
        return if reply.1 && reply.2.success then (true, part reply.2) else (false, before)) := by
    intro α part before req timeoutMs
    obtain ⟨ok, resp, hsend, hwhole⟩ := send req timeoutMs
    rw [hsend]
    by_cases h : (ok && resp.success) = true
    · obtain ⟨rfl, hp⟩ := hwhole h
      refine ⟨true, part resp, ?_, fun _ => ⟨(Bool.and_eq_true_iff.1 h).2, hp, rfl⟩, fun h => by cases h⟩
      show Except.ok (if ok && resp.success then _ else _) = _
      rw [if_pos h]
    · refine ⟨false, before, ?_, (fun h => by cases h), fun _ => rfl⟩
      show Except.ok (if ok && resp.success then _ else _) = _
      rw [if_neg h]
  refine ⟨honest _ _, fun _ => honestList _ _ _ _, fun _ => honestList _ _ _ _, ?_, fun action => honest _ _⟩
  intro username password sessionExec desktopName error
  obtain ⟨ok, resp, hsend, hwhole⟩ := send (loginRequest username password sessionExec desktopName) 10000
  rw [IpcClient.login, hsend]
  refine ⟨(loginOutcome (if ok then some resp else none)).1, rfl, fun h => ?_⟩
  have hok : (ok && resp.success) = true := by
    cases ok with
    | false => simp [loginOutcome] at h
    | true =>
      cases hsuccess : resp.success with
      | true => rfl
      | false => simp [loginOutcome, hsuccess] at h
  obtain ⟨rfl, hp⟩ := hwhole hok
  exact ⟨(Bool.and_eq_true_iff.1 hok).2, hp⟩

/-! ## Witnesses -/

theorem jsonCppOn_acceptsWhole (j : Json) (text : Str) : (jsonCppOn j text).AcceptsWhole j where
  whole := jsonCppOn_parse j text
  part _ _ hne := ⟨lit "Syntax error", if_neg hne⟩

/-- a connection that breaks after 40 bytes of the reply -/
def broken : Exchange where
  socket := true
  connect _ := true
  written := 100
  poll _ := true
  reads := [RoundTrip.catalogueText.take 25, (RoundTrip.catalogueText.take 40).drop 25]

theorem truncated_reply_broken : HonestList RoundTrip.catalogueJson RoundTrip.catalogue
    (RoundTrip.catalogueText.take 40) RoundTrip.catalogue.users []
    (IpcClient.getUsers RoundTrip.catalogueJson ⟨defaultSocketPath⟩ broken []) := by
  have hline : RoundTrip.catalogueJson.WritesLine RoundTrip.catalogue.toJson := by
    unfold JsonCpp.WritesLine
    decide +kernel
  have hp : RoundTrip.catalogueText.take 40 <+: RoundTrip.catalogue.serialize RoundTrip.catalogueJson :=
    (List.take_prefix _ _).trans (List.prefix_append _ _)
  exact (truncated_reply RoundTrip.catalogueJson RoundTrip.catalogue hline (jsonCppOn_acceptsWhole _ _) _ hp
    ⟨defaultSocketPath⟩ broken (by decide) (by decide)).2.1 []

end TruncatedReply

end Miqudm
