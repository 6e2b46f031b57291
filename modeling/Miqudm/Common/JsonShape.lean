/-
Which texts `IpcMessage::deserialize` decodes.

`Decodable` describes, by the JSON alone, the documents whose decoding meets no conversion that jsoncpp refuses: an
object (or null) whose text members are scalars, whose `success` is no text, and whose users and sessions, where they
are arrays, are such objects themselves. `deserialize_iff` says that exactly these come back as a message; every other
document makes jsoncpp throw. `deserialize_type` says when the message has a type other than `unknown`.
-/
import Miqudm.Common.Ipc

namespace Miqudm

/-! ## Computations that return -/

def Ok {ε α : Type} (x : Except ε α) : Prop := ∃ a, x = .ok a

section Ok

variable {ε α β : Type}

theorem ok_ok (a : α) : Ok (.ok a : Except ε α) := ⟨a, rfl⟩

theorem not_ok_error (e : ε) : ¬ Ok (.error e : Except ε α) := by
  rintro ⟨a, h⟩
  cases h

/-- a sequence whose second part returns or throws whatever it is given -/
theorem ok_bind {x : Except ε β} {f : β → Except ε α} {P Q : Prop} (hx : Ok x ↔ Q) (hf : ∀ b, Ok (f b) ↔ P) :
    Ok (x >>= f) ↔ Q ∧ P := by
  rw [← hx]
  cases x with
  | error e => exact ⟨fun h => (not_ok_error e h).elim, fun h => (not_ok_error e h.1).elim⟩
  | ok b => exact ⟨fun h => ⟨ok_ok b, (hf b).1 h⟩, fun h => (hf b).2 h.2⟩

theorem ok_bind_pure {x : Except ε β} {g : β → α} {Q : Prop} (hx : Ok x ↔ Q) : Ok (x >>= fun b => pure (g b)) ↔ Q := by
  have hpure : ∀ b, Ok (pure (g b) : Except ε α) ↔ True := fun b => ⟨fun _ => trivial, fun _ => ok_ok (g b)⟩
  rw [ok_bind hx hpure, and_true]

theorem ok_mapM {f : β → Except ε α} (l : List β) : Ok (l.mapM f) ↔ ∀ b ∈ l, Ok (f b) := by
  induction l with
  | nil => simp [ok_ok, pure, Except.pure]
  | cons b l ih =>
    rw [List.mapM_cons, List.forall_mem_cons, ← ih]
    exact ok_bind Iff.rfl fun _ => ok_bind_pure Iff.rfl

/-- what a sequence returns comes from its second part -/
theorem of_bind_ok {x : Except ε β} {f : β → Except ε α} {a : α} (h : x >>= f = .ok a) :
    ∃ b, x = .ok b ∧ f b = .ok a := by
  cases x with
  | error e => cases h
  | ok b => exact ⟨b, rfl, h⟩

/-- every value that is returned has the property -/
def Yields (P : α → Prop) (x : Except ε α) : Prop := ∀ a, x = .ok a → P a

theorem yields_bind {P : α → Prop} {x : Except ε β} {f : β → Except ε α} (hf : ∀ b, Yields P (f b)) :
    Yields P (x >>= f) := by
  intro a ha
  obtain ⟨b, -, hb⟩ := of_bind_ok ha
  exact hf b a hb

theorem yields_pure {P : α → Prop} {a : α} (h : P a) : Yields P (pure a : Except ε α) := by
  rintro b hb
  cases hb
  exact h

end Ok

/-! ## Shapes -/

namespace Json

/-- the values `asString` converts -/
def Textual : Json → Prop
  | arr _ => False
  | obj _ => False
  | _ => True

/-- the values `asBool` converts -/
def Truthy : Json → Prop
  | str _ => False
  | arr _ => False
  | obj _ => False
  | _ => True

/-- the values `asUInt64` converts -/
def Countable : Json → Prop
  | null => True
  | bool _ => True
  | int i => 0 ≤ i ∧ i < 2 ^ 64
  | real r => r.uint64.isSome
  | _ => False

/-- the members of an object; null has none -/
def members? : Json → Option (List (Str × Json))
  | null => some []
  | obj members => some members
  | _ => none

/-- the member `key` is absent, or has the property -/
def Fits (P : Json → Prop) (members : List (Str × Json)) (key : Str) : Prop :=
  ∀ v, members.lookup key = some v → P v

/-- an element of the array `users` -/
def IsUser (j : Json) : Prop := ∃ members, j.members? = some members ∧
  (∀ key ∈ [lit "username", lit "display_name", lit "home_dir", lit "avatar_path", lit "shell"],
    Fits Textual members key) ∧
  ∀ key ∈ [lit "uid", lit "gid"], Fits Countable members key

/-- an element of the array `sessions` -/
def IsSession (j : Json) : Prop := ∃ members, j.members? = some members ∧
  (∀ key ∈ [lit "id", lit "name", lit "exec", lit "comment", lit "desktop_names", lit "desktop_file"],
    Fits Textual members key) ∧
  Fits Truthy members (lit "is_wayland")

/-- if the value is an array, its elements have the property -/
def Elements (P : Json → Prop) (j : Json) : Prop := ∀ elems, j = arr elems → ∀ e ∈ elems, P e

def IsMessage (j : Json) : Prop := ∃ members, j.members? = some members ∧
  (∀ key ∈ [lit "type", lit "message", lit "username", lit "password", lit "session_exec", lit "desktop_name",
    lit "power_action"], Fits Textual members key) ∧
  Fits Truthy members (lit "success") ∧
  Fits (Elements IsUser) members (lit "users") ∧
  Fits (Elements IsSession) members (lit "sessions")

/-! ## The accessors -/

theorem ok_asString (j : Json) : Ok j.asString ↔ j.Textual := by
  cases j <;> simp [asString, Textual, ok_ok, not_ok_error]

theorem ok_asBool (j : Json) : Ok j.asBool ↔ j.Truthy := by
  cases j <;> simp [asBool, Truthy, ok_ok, not_ok_error]

theorem ok_asUInt64 (j : Json) : Ok j.asUInt64 ↔ j.Countable := by
  cases j with
  | int i =>
    simp only [asUInt64, Countable]
    split_ifs with h
    · exact ⟨fun _ => h, fun _ => ok_ok _⟩
    · exact ⟨fun hok => (not_ok_error _ hok).elim, fun hi => absurd hi h⟩
  | real r =>
    simp only [asUInt64, Countable]
    split <;> simp [*, ok_ok, not_ok_error]
  | _ => simp [asUInt64, Countable, ok_ok, not_ok_error]

theorem find_eq (j : Json) (key : Str) : j.find key = match j.members? with
    | some members => .ok (members.lookup key)
    | none => .error .logicError := by
  cases j <;> rfl

section Field

variable {α : Type} {j : Json} {members : List (Str × Json)}

theorem find_of_members (hj : j.members? = some members) (key : Str) : j.find key = .ok (members.lookup key) := by
  rw [find_eq, hj]

theorem find_of_none (hj : j.members? = none) (key : Str) : j.find key = .error .logicError := by
  rw [find_eq, hj]

theorem get_of_members (hj : j.members? = some members) (key : Str) (d : Json) :
    j.get key d = .ok ((members.lookup key).getD d) := by
  rw [get, find_of_members hj]
  rfl

/-- a field with a default that the accessor converts -/
theorem ok_get (hj : j.members? = some members) {P : Json → Prop} {conv : Json → Except Thrown α}
    (hconv : ∀ v, Ok (conv v) ↔ P v) {d : Json} (hd : P d) (key : Str) :
    Ok (j.get key d >>= conv) ↔ Fits P members key := by
  rw [get_of_members hj]
  show Ok (conv _) ↔ _
  rw [hconv, Fits]
  cases members.lookup key with
  | none => simp [hd]
  | some v => simp

theorem ok_stringField (hj : j.members? = some members) (key d : Str) :
    Ok (stringField j key d) ↔ Fits Textual members key := ok_get hj ok_asString (by trivial) key

theorem ok_boolField (hj : j.members? = some members) (key : Str) (d : Bool) :
    Ok (boolField j key d) ↔ Fits Truthy members key := ok_get hj ok_asBool (by trivial) key

theorem ok_idField (hj : j.members? = some members) (key : Str) :
    Ok (idField j key) ↔ Fits Countable members key := by
  have hconv : ∀ v : Json, Ok (do return (← v.asUInt64).toUInt32) ↔ v.Countable :=
    fun v => ok_bind_pure (ok_asUInt64 v)
  exact ok_get hj hconv (d := .int 0) ⟨Int.le_refl 0, by decide⟩ key

theorem ok_listField (hj : j.members? = some members) {P : Json → Prop} {item : Json → Except Thrown α}
    (hitem : ∀ v, Ok (item v) ↔ P v) (key : Str) :
    Ok (listField item j key) ↔ Fits (Elements P) members key := by
  rw [listField, find_of_members hj, Fits]
  simp only [bind, Except.bind]
  split
  · case _ elems h => simp [Elements, ok_mapM, hitem, h]
  · case _ hnot =>
    refine ⟨fun _ v hv elems he => ?_, fun _ => ok_ok _⟩
    exact absurd (he ▸ hv) (hnot elems)

/-- on a value without members the first field throws already -/
theorem not_ok_of_none (hj : j.members? = none) {β : Type} (key d : Str) (f : Str → Except Thrown β) :
    ¬ Ok (stringField j key d >>= f) := by
  have hthrow : stringField j key d = .error .logicError := by
    rw [stringField, get, find_of_none hj]
    rfl
  rw [hthrow]
  exact not_ok_error _

end Field

/-! ## Messages -/

theorem ok_jsonToUser (j : Json) : Ok (jsonToUser j) ↔ j.IsUser := by
  cases hj : j.members? with
  | none => exact ⟨fun h => (not_ok_of_none hj _ _ _ h).elim, by simp [IsUser, hj]⟩
  | some members =>
    have text := ok_stringField hj
    refine Iff.trans (ok_bind (text _ _) fun _ => ok_bind (text _ _) fun _ => ok_bind (text _ _) fun _ =>
      ok_bind (text _ _) fun _ => ok_bind (ok_idField hj _) fun _ => ok_bind (ok_idField hj _) fun _ =>
      ok_bind_pure (text _ _)) ?_
    simp only [IsUser, hj, Option.some_inj, exists_eq_left', List.forall_mem_cons, List.not_mem_nil,
      false_implies, implies_true, and_true]
    exact ⟨fun ⟨a, b, c, d, uid, gid, e⟩ => ⟨⟨a, b, c, d, e⟩, uid, gid⟩,
      fun ⟨⟨a, b, c, d, e⟩, uid, gid⟩ => ⟨a, b, c, d, uid, gid, e⟩⟩

theorem ok_jsonToSession (j : Json) : Ok (jsonToSession j) ↔ j.IsSession := by
  cases hj : j.members? with
  | none => exact ⟨fun h => (not_ok_of_none hj _ _ _ h).elim, by simp [IsSession, hj]⟩
  | some members =>
    have text := ok_stringField hj
    refine Iff.trans (ok_bind (text _ _) fun _ => ok_bind (text _ _) fun _ => ok_bind (text _ _) fun _ =>
      ok_bind (text _ _) fun _ => ok_bind (text _ _) fun _ => ok_bind (text _ _) fun _ =>
      ok_bind_pure (ok_boolField hj _ _)) ?_
    simp only [IsSession, hj, Option.some_inj, exists_eq_left', List.forall_mem_cons, List.not_mem_nil,
      false_implies, implies_true, and_true, and_assoc]

theorem ok_messageOfJson (j : Json) : Ok (messageOfJson j) ↔ j.IsMessage := by
  cases hj : j.members? with
  | none => exact ⟨fun h => (not_ok_of_none hj _ _ _ h).elim, by simp [IsMessage, hj]⟩
  | some members =>
    have text := ok_stringField hj
    refine Iff.trans (ok_bind (text _ _) fun _ => ok_bind (ok_boolField hj _ _) fun _ => ok_bind (text _ _) fun _ =>
      ok_bind (text _ _) fun _ => ok_bind (text _ _) fun _ => ok_bind (text _ _) fun _ => ok_bind (text _ _) fun _ =>
      ok_bind (text _ _) fun _ => ok_bind (ok_listField hj ok_jsonToUser _) fun _ =>
      ok_bind_pure (ok_listField hj ok_jsonToSession _)) ?_
    simp only [IsMessage, hj, Option.some_inj, exists_eq_left', List.forall_mem_cons, List.not_mem_nil,
      false_implies, implies_true, and_true]
    exact ⟨fun ⟨a, ok, b, c, d, e, f, g, lists⟩ => ⟨⟨a, b, c, d, e, f, g⟩, ok, lists⟩,
      fun ⟨⟨a, b, c, d, e, f, g⟩, ok, lists⟩ => ⟨a, ok, b, c, d, e, f, g, lists⟩⟩

/-- the type of a decoded message is the one its text names -/
theorem messageOfJson_type {j : Json} {m : IpcMessage} (h : messageOfJson j = .ok m) :
    ∃ name, stringField j (lit "type") (lit "unknown") = .ok name ∧ m.type = stringToType name := by
  obtain ⟨name, hname, hrest⟩ := of_bind_ok h
  refine ⟨name, hname, ?_⟩
  -- the other fields do not touch the type
  refine (?_ : Yields (fun m : IpcMessage => m.type = stringToType name) _) m hrest
  exact yields_bind fun _ => yields_bind fun _ => yields_bind fun _ => yields_bind fun _ => yields_bind fun _ =>
    yields_bind fun _ => yields_bind fun _ => yields_bind fun _ => yields_bind fun _ => yields_pure rfl

end Json

/-! ## Texts -/

/-- the parse of a text that `deserialize` decodes -/
def Parsed.Decodable : Parsed → Prop
  | .root j => j.IsMessage
  | .failed _ => True
  | .threw => False

/-- the parse of a text that names a type of message -/
def Parsed.Names (type : IpcMessageType) : Parsed → Prop
  | .root j => ∃ members v, j = .obj members ∧ members.lookup (lit "type") = some v ∧
      v.asString = .ok (typeToString type)
  | _ => False

/-- **Exactly the decodable texts come back as a message.** -/
theorem deserialize_iff (J : JsonCpp) (rawJson : Str) :
    Ok (deserialize J rawJson) ↔ (J.parse rawJson).Decodable := by
  unfold deserialize
  cases J.parse rawJson with
  | root j => exact Json.ok_messageOfJson j
  | failed errs => exact ⟨fun _ => trivial, fun _ => ok_ok _⟩
  | threw => exact ⟨fun h => (not_ok_error _ h).elim, False.elim⟩

/-- only the name of a type decodes to it -/
theorem eq_typeToString {name : Str} (h : stringToType name ≠ .unknown) : name = typeToString (stringToType name) := by
  unfold stringToType at h ⊢
  split_ifs at h ⊢ with h1 h2 h3 h4 h5 h6 h7
  · exact h1
  · exact h2
  · exact h3
  · exact h4
  · exact h5
  · exact h6
  · exact h7
  · exact absurd rfl h

/-- a message has another type than `unknown` only if its text is an object that names the type -/
theorem deserialize_type {J : JsonCpp} {rawJson : Str} {m : IpcMessage} (h : deserialize J rawJson = .ok m)
    (htype : m.type ≠ .unknown) : (J.parse rawJson).Names m.type := by
  unfold deserialize at h
  cases hparse : J.parse rawJson with
  | failed errs =>
    rw [hparse] at h
    cases h
    exact absurd rfl htype
  | threw =>
    rw [hparse] at h
    cases h
  | root j =>
    rw [hparse] at h
    obtain ⟨name, hname, hm⟩ := Json.messageOfJson_type h
    rw [hm] at htype ⊢
    have hunknown : stringToType (lit "unknown") = .unknown := by decide
    have heq := eq_typeToString htype
    -- an absent member would decode to `unknown`
    cases j with
    | obj members =>
      rw [stringField, Json.get_of_members (j := .obj members) rfl] at hname
      cases hv : members.lookup (lit "type") with
      | none =>
        rw [hv] at hname
        cases hname
        exact absurd hunknown htype
      | some v =>
        rw [hv] at hname
        exact ⟨members, v, rfl, hv, by rw [← heq]; exact hname⟩
    | null =>
      cases hname
      exact absurd hunknown htype
    | _ => cases hname

end Miqudm
