/-
The codec round trip.

`deserialize` gives back every message that `serialize` has written, whatever the two omission rules leave out. The
texts of a value are all its strings, member names included; jsoncpp is asked to read back a value whose texts are valid
UTF-8 (`JsonCpp.RoundTrips`), and a message whose strings are valid UTF-8 is written as such a value.
-/
import Miqudm.Common.JsonShape

namespace Miqudm

/-! ## Valid UTF-8 -/

/-- the UTF-8 bytes of a text, each as the character with its code -/
def utf8 (t : List Char) : Str := t.flatMap fun c => (String.utf8EncodeChar c).map fun b => Char.ofNat b.toNat

def ValidUtf8 (s : Str) : Prop := ∃ t, utf8 t = s

namespace Json

/-- the strings of a value, member names included -/
def texts : Json → List Str
  | .str s => [s]
  | .arr elems => elemsTexts elems
  | .obj members => membersTexts members
  | _ => []
where
  elemsTexts : List Json → List Str
    | [] => []
    | j :: js => texts j ++ elemsTexts js
  membersTexts : List (Str × Json) → List Str
    | [] => []
    | (k, j) :: js => k :: (texts j ++ membersTexts js)

def Utf8 (j : Json) : Prop := ∀ s ∈ j.texts, ValidUtf8 s

end Json

/-- jsoncpp reads back what it has written of a value whose strings are valid UTF-8 -/
def JsonCpp.RoundTrips (J : JsonCpp) (j : Json) : Prop := j.Utf8 → J.parse (J.write j) = .root j

/-- the strings of a message -/
def IpcMessage.texts (m : IpcMessage) : List Str :=
  [m.message, m.username, m.password, m.sessionExec, m.desktopName, m.powerAction] ++
  m.users.flatMap (fun u => [u.username, u.displayName, u.homeDir, u.avatarPath, u.shell]) ++
  m.sessions.flatMap fun s => [s.id, s.name, s.exec, s.comment, s.desktopNames, s.desktopFile]

def IpcMessage.Utf8 (m : IpcMessage) : Prop := ∀ s ∈ m.texts, ValidUtf8 s

/-! ## What is written is valid -/

/-- the member names and the names of the types are ASCII -/
theorem validUtf8_of_ascii {s : Str} (h : utf8 s = s) : ValidUtf8 s := ⟨s, h⟩

theorem validUtf8_type (t : IpcMessageType) : ValidUtf8 (typeToString t) := by
  cases t <;> exact validUtf8_of_ascii rfl

section Written

open Json

theorem utf8_str {s : Str} : (Json.str s).Utf8 ↔ ValidUtf8 s := by simp [Utf8, texts]

theorem utf8_bool (b : Bool) : (Json.bool b).Utf8 := by simp [Utf8, texts]

theorem utf8_int (i : ℤ) : (Json.int i).Utf8 := by simp [Utf8, texts]

theorem utf8_arr {elems : List Json} : (Json.arr elems).Utf8 ↔ ∀ j ∈ elems, j.Utf8 := by
  have key : ∀ s, s ∈ texts.elemsTexts elems ↔ ∃ j ∈ elems, s ∈ j.texts := by
    intro s
    induction elems with
    | nil => simp [texts.elemsTexts]
    | cons j js ih => simp [texts.elemsTexts, ih]
  simp only [Utf8, texts, key]
  constructor
  · intro h j hj s hs
    exact h s ⟨j, hj, hs⟩
  · intro h s hs
    obtain ⟨j, hj, hsj⟩ := hs
    exact h j hj s hsj

theorem utf8_obj {members : List (Str × Json)} :
    (Json.obj members).Utf8 ↔ ∀ p ∈ members, ValidUtf8 p.1 ∧ p.2.Utf8 := by
  have key : ∀ s, s ∈ texts.membersTexts members ↔ ∃ p ∈ members, s = p.1 ∨ s ∈ p.2.texts := by
    intro s
    induction members with
    | nil => simp [texts.membersTexts]
    | cons p js ih => simp [texts.membersTexts, ih, or_assoc]
  simp only [Utf8, texts, key]
  constructor
  · intro h p hp
    exact ⟨h p.1 ⟨p, hp, Or.inl rfl⟩, fun s hs => h s ⟨p, hp, Or.inr hs⟩⟩
  · intro h s hs
    obtain ⟨p, hp, rfl | hsp⟩ := hs
    · exact (h p hp).1
    · exact (h p hp).2 s hsp

/-- members written one by one -/
theorem utf8_members_cons {key : Str} {j : Json} {members : List (Str × Json)} (hkey : ValidUtf8 key) (hj : j.Utf8)
    (h : ∀ p ∈ members, ValidUtf8 p.1 ∧ p.2.Utf8) : ∀ p ∈ (key, j) :: members, ValidUtf8 p.1 ∧ p.2.Utf8 :=
  List.forall_mem_cons.2 ⟨⟨hkey, hj⟩, h⟩

/-- a member that may be left out -/
theorem utf8_unless {c : Prop} [Decidable c] {key : Str} {j : Json} (hkey : ValidUtf8 key) (hj : j.Utf8) :
    ∀ p ∈ (if c then [] else [(key, j)]), ValidUtf8 p.1 ∧ p.2.Utf8 := by
  split_ifs
  · simp
  · exact utf8_members_cons hkey hj (by simp)

theorem userToJson_utf8 {u : UserInfo}
    (hu : ∀ s ∈ [u.username, u.displayName, u.homeDir, u.avatarPath, u.shell], ValidUtf8 s) : (userToJson u).Utf8 := by
  simp only [List.forall_mem_cons] at hu
  obtain ⟨husername, hdisplay, hhome, havatar, hshell, -⟩ := hu
  apply utf8_obj.2
  apply utf8_members_cons (validUtf8_of_ascii rfl) (utf8_str.2 husername)
  apply utf8_members_cons (validUtf8_of_ascii rfl) (utf8_str.2 hdisplay)
  apply utf8_members_cons (validUtf8_of_ascii rfl) (utf8_str.2 hhome)
  apply utf8_members_cons (validUtf8_of_ascii rfl) (utf8_str.2 havatar)
  apply utf8_members_cons (validUtf8_of_ascii rfl) (utf8_int _)
  apply utf8_members_cons (validUtf8_of_ascii rfl) (utf8_int _)
  exact utf8_members_cons (validUtf8_of_ascii rfl) (utf8_str.2 hshell) (by simp)

theorem sessionToJson_utf8 {s : SessionInfo}
    (hs : ∀ t ∈ [s.id, s.name, s.exec, s.comment, s.desktopNames, s.desktopFile], ValidUtf8 t) :
    (sessionToJson s).Utf8 := by
  simp only [List.forall_mem_cons] at hs
  obtain ⟨hid, hname, hexec, hcomment, hnames, hfile, -⟩ := hs
  apply utf8_obj.2
  apply utf8_members_cons (validUtf8_of_ascii rfl) (utf8_str.2 hid)
  apply utf8_members_cons (validUtf8_of_ascii rfl) (utf8_str.2 hname)
  apply utf8_members_cons (validUtf8_of_ascii rfl) (utf8_str.2 hexec)
  apply utf8_members_cons (validUtf8_of_ascii rfl) (utf8_str.2 hcomment)
  apply utf8_members_cons (validUtf8_of_ascii rfl) (utf8_str.2 hnames)
  apply utf8_members_cons (validUtf8_of_ascii rfl) (utf8_str.2 hfile)
  exact utf8_members_cons (validUtf8_of_ascii rfl) (utf8_bool _) (by simp)

/-- **A message of valid strings is written as a value of valid strings.** -/
theorem toJson_utf8 {m : IpcMessage} (hm : m.Utf8) : m.toJson.Utf8 := by
  simp only [IpcMessage.Utf8, IpcMessage.texts, List.forall_mem_append, List.forall_mem_cons, List.mem_flatMap] at hm
  obtain ⟨⟨⟨hmessage, husername, hpassword, hexec, hdesktop, hpower, -⟩, husers⟩, hsessions⟩ := hm
  have hlist : ∀ {α : Type} (f : α → Json) (l : List α), (∀ a ∈ l, (f a).Utf8) → (Json.arr (l.map f)).Utf8 := by
    intro α f l h
    apply utf8_arr.2
    intro j hj
    obtain ⟨a, ha, rfl⟩ := List.mem_map.1 hj
    exact h a ha
  have husersArr : (Json.arr (m.users.map userToJson)).Utf8 :=
    hlist _ _ fun u hu => userToJson_utf8 fun s hs => husers s ⟨u, hu, hs⟩
  have hsessionsArr : (Json.arr (m.sessions.map sessionToJson)).Utf8 :=
    hlist _ _ fun s hs => sessionToJson_utf8 fun t ht => hsessions t ⟨s, hs, ht⟩
  have hoptional : ∀ {key val : Str}, ValidUtf8 key → ValidUtf8 val →
      ∀ p ∈ optional key val, ValidUtf8 p.1 ∧ p.2.Utf8 := fun hkey hval => utf8_unless hkey (utf8_str.2 hval)
  apply utf8_obj.2
  simp only [List.forall_mem_append]
  refine ⟨⟨⟨⟨⟨⟨⟨?_, ?_⟩, ?_⟩, ?_⟩, ?_⟩, ?_⟩, ?_⟩, ?_⟩
  · apply utf8_members_cons (validUtf8_of_ascii rfl) (utf8_str.2 (validUtf8_type _))
    apply utf8_members_cons (validUtf8_of_ascii rfl) (utf8_bool _)
    exact utf8_members_cons (validUtf8_of_ascii rfl) (utf8_str.2 hmessage) (by simp)
  · exact hoptional (validUtf8_of_ascii rfl) husername
  · exact hoptional (validUtf8_of_ascii rfl) hpassword
  · exact hoptional (validUtf8_of_ascii rfl) hexec
  · exact hoptional (validUtf8_of_ascii rfl) hdesktop
  · exact hoptional (validUtf8_of_ascii rfl) hpower
  · exact utf8_unless (validUtf8_of_ascii rfl) husersArr
  · exact utf8_unless (validUtf8_of_ascii rfl) hsessionsArr

end Written

/-! ## What is written is read back -/

section Fields

variable {members : List (Str × Json)} {key : Str}

/-- a member that is there is converted -/
theorem get_bind {α : Type} {v d : Json} (h : members.lookup key = some v) (f : Json → Except Thrown α) :
    (Json.get (.obj members) key d >>= f) = f v := by
  rw [Json.get_of_members rfl, h]
  rfl

theorem stringField_of_lookup {s d : Str} (h : members.lookup key = some (.str s)) :
    stringField (.obj members) key d = .ok s := get_bind h Json.asString

theorem boolField_of_lookup {b d : Bool} (h : members.lookup key = some (.bool b)) :
    boolField (.obj members) key d = .ok b := get_bind h Json.asBool

/-- the cast to 64 bits and back loses nothing of 32 bits -/
theorem asUInt64_id (n : UInt32) : (Json.int n.toNat).asUInt64 = .ok n.toUInt64 := by
  have hlt : n.toNat < 2 ^ 64 := lt_trans n.toNat_lt (by decide)
  have hrange : (0 : ℤ) ≤ n.toNat ∧ (n.toNat : ℤ) < 2 ^ 64 := by omega
  rw [Json.asUInt64, if_pos hrange]
  simp

theorem idField_of_lookup {n : UInt32} (h : members.lookup key = some (.int n.toNat)) :
    idField (.obj members) key = .ok n := by
  rw [idField, get_bind h, asUInt64_id]
  exact congrArg Except.ok n.toUInt32_toUInt64

/-- an omitted string is the default: both are empty -/
theorem stringField_optional {val : Str} (h : members.lookup key = if val = [] then none else some (.str val)) :
    stringField (.obj members) key [] = .ok val := by
  by_cases hval : val = []
  · rw [if_pos hval] at h
    rw [stringField, Json.get_of_members rfl, h, hval]
    rfl
  · rw [if_neg hval] at h
    exact stringField_of_lookup h

theorem mapM_map {α : Type} {f : α → Json} {item : Json → Except Thrown α} (hitem : ∀ a, item (f a) = .ok a)
    (l : List α) : (l.map f).mapM item = .ok l := by
  induction l with
  | nil => rfl
  | cons a l ih =>
    rw [List.map_cons, List.mapM_cons, hitem, ih]
    rfl

/-- an omitted list is empty, and one that is there is read item by item -/
theorem listField_optional {α : Type} {f : α → Json} {item : Json → Except Thrown α} {l : List α}
    (hitem : ∀ a, item (f a) = .ok a) (h : members.lookup key = if l = [] then none else some (.arr (l.map f))) :
    listField item (.obj members) key = .ok l := by
  rw [listField, Json.find_of_members rfl, h]
  by_cases hl : l = []
  · rw [if_pos hl, hl]
    rfl
  · rw [if_neg hl]
    exact mapM_map hitem l

/-- looking up what may have been left out -/
theorem lookup_unless (c : Prop) [Decidable c] (key k : Str) (j : Json) :
    (if c then [] else [(k, j)]).lookup key = if key = k ∧ ¬ c then some j else none := by
  by_cases hc : c
  · simp [hc]
  · by_cases hk : key = k
    · simp [hc, hk]
    · have hbeq : (key == k) = false := by simpa using hk
      simp [hc, hk, List.lookup_cons, hbeq]

end Fields

theorem stringToType_typeToString (t : IpcMessageType) : stringToType (typeToString t) = t := by cases t <;> rfl

theorem jsonToUser_userToJson (u : UserInfo) : jsonToUser (userToJson u) = .ok u := by
  rw [jsonToUser, userToJson, stringField_of_lookup rfl, stringField_of_lookup rfl, stringField_of_lookup rfl,
    stringField_of_lookup rfl, idField_of_lookup rfl, idField_of_lookup rfl, stringField_of_lookup rfl]
  rfl

theorem jsonToSession_sessionToJson (s : SessionInfo) : jsonToSession (sessionToJson s) = .ok s := by
  rw [jsonToSession, sessionToJson, stringField_of_lookup rfl, stringField_of_lookup rfl, stringField_of_lookup rfl,
    stringField_of_lookup rfl, stringField_of_lookup rfl, stringField_of_lookup rfl, boolField_of_lookup rfl]
  rfl

/-- **The decoder inverts the encoder**, on the JSON values in between. -/
theorem messageOfJson_toJson (m : IpcMessage) : messageOfJson m.toJson = .ok m := by
  obtain ⟨members, hmembers⟩ : ∃ members, m.toJson = .obj members := ⟨_, rfl⟩
  -- the members by name: three are always there, the others when they are not empty
  have htype : members.lookup (lit "type") = some (.str (typeToString m.type)) := by cases hmembers; rfl
  have hsuccess : members.lookup (lit "success") = some (.bool m.success) := by cases hmembers; rfl
  have hmessage : members.lookup (lit "message") = some (.str m.message) := by cases hmembers; rfl
  have husername : members.lookup (lit "username") = if m.username = [] then none else some (.str m.username) := by
    cases hmembers
    simp [List.lookup_append, optional, lookup_unless, List.lookup_cons, lit]
  have hpassword : members.lookup (lit "password") = if m.password = [] then none else some (.str m.password) := by
    cases hmembers
    simp [List.lookup_append, optional, lookup_unless, List.lookup_cons, lit]
  have hexec : members.lookup (lit "session_exec") =
      if m.sessionExec = [] then none else some (.str m.sessionExec) := by
    cases hmembers
    simp [List.lookup_append, optional, lookup_unless, List.lookup_cons, lit]
  have hdesktop : members.lookup (lit "desktop_name") =
      if m.desktopName = [] then none else some (.str m.desktopName) := by
    cases hmembers
    simp [List.lookup_append, optional, lookup_unless, List.lookup_cons, lit]
  have hpower : members.lookup (lit "power_action") =
      if m.powerAction = [] then none else some (.str m.powerAction) := by
    cases hmembers
    simp [List.lookup_append, optional, lookup_unless, List.lookup_cons, lit]
  have husers : members.lookup (lit "users") =
      if m.users = [] then none else some (.arr (m.users.map userToJson)) := by
    cases hmembers
    simp [List.lookup_append, optional, lookup_unless, List.lookup_cons, lit]
  have hsessions : members.lookup (lit "sessions") =
      if m.sessions = [] then none else some (.arr (m.sessions.map sessionToJson)) := by
    cases hmembers
    simp [List.lookup_append, optional, lookup_unless, List.lookup_cons, lit]
  rw [hmembers, messageOfJson, stringField_of_lookup htype, boolField_of_lookup hsuccess,
    stringField_of_lookup hmessage, stringField_optional husername, stringField_optional hpassword,
    stringField_optional hexec, stringField_optional hdesktop, stringField_optional hpower,
    listField_optional jsonToUser_userToJson husers, listField_optional jsonToSession_sessionToJson hsessions]
  show Except.ok { m with type := stringToType (typeToString m.type) } = Except.ok m
  rw [stringToType_typeToString]

/-- jsoncpp on one value and its text -/
def jsonCppOn (j : Json) (text : Str) : JsonCpp where
  parse raw := if raw = text then .root j else .failed (lit "Syntax error")
  write _ := text

theorem jsonCppOn_parse (j : Json) (text : Str) :
    (jsonCppOn j text).parse ((jsonCppOn j text).write j) = .root j := by
  simp only [jsonCppOn, if_true]

namespace RoundTrip

/-- **Codec round trip.** A message whose strings are valid UTF-8 is what `deserialize` makes of the text that
`serialize` gives, without its final newline. -/
theorem round_trip (J : JsonCpp) (m : IpcMessage) (hJ : J.RoundTrips m.toJson) (hm : m.Utf8) :
    deserialize J (m.serialize J).dropLast = .ok m := by
  have htext : (m.serialize J).dropLast = J.write m.toJson := List.dropLast_concat
  rw [htext, deserialize, hJ (toJson_utf8 hm)]
  exact messageOfJson_toJson m

/-! ## Witnesses -/

/-- a reply with a user and a session, and quotation marks in its message -/
def catalogue : IpcMessage :=
  { type := .response, success := true, message := lit "say \"hi\""
    users := [{ username := lit "alice", uid := 4294967295, gid := 0, shell := [] }]
    sessions := [{ id := lit "miquland", isWayland := false }] }

/-- its text: jsoncpp orders the members by name and escapes the quotation marks -/
def catalogueText : Str :=
  lit "\x7b\"message\":\"say \\\"hi\\\"\"," ++
  lit "\"sessions\":[\x7b\"comment\":\"\",\"desktop_file\":\"\",\"desktop_names\":\"\",\"exec\":\"\"," ++
  lit "\"id\":\"miquland\",\"is_wayland\":false,\"name\":\"\"\x7d]," ++
  lit "\"success\":true,\"type\":\"response\"," ++
  lit "\"users\":[\x7b\"avatar_path\":\"\",\"display_name\":\"\",\"gid\":0,\"home_dir\":\"\"," ++
  lit "\"shell\":\"\",\"uid\":4294967295,\"username\":\"alice\"\x7d]\x7d"

def catalogueJson : JsonCpp := jsonCppOn catalogue.toJson catalogueText

theorem catalogue_utf8 : catalogue.Utf8 := by
  have hascii : ∀ s ∈ catalogue.texts, utf8 s = s := by decide
  exact fun s hs => validUtf8_of_ascii (hascii s hs)

theorem round_trip_catalogue :
    deserialize catalogueJson (catalogue.serialize catalogueJson).dropLast = .ok catalogue :=
  round_trip catalogueJson catalogue (fun _ => jsonCppOn_parse _ _) catalogue_utf8

end RoundTrip

end Miqudm
