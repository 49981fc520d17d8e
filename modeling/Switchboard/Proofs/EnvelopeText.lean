import Switchboard.Envelope
import Switchboard.Proofs.Json.RoundTrip

/-!
# Reading the envelopes that were written

Every envelope is read back from its text, whatever its names, numbers and error texts are
(`parse?_text`).
-/

namespace Switchboard

namespace ErrorCode

theorem ofName?_name (code : ErrorCode) : ofName? code.name = some code := by
  cases code <;> rfl

end ErrorCode

namespace Envelope

namespace Kind

theorem ofName?_name (kind : Kind) : ofName? kind.name = some kind := by
  cases kind <;> rfl

end Kind

/-! ## Fields -/

theorem plain_jsonOfNat (depth : Nat) {n : Nat} (hn : n < UInt64.size) :
    Json.Plain depth (jsonOfNat n) := .number depth hn

/-- The text of an envelope is one that a reader of values takes: it has at most one object inside
another. -/
theorem plain_toJson (envelope : Envelope) : Json.Plain 2 envelope.toJson := by
  have hversion : ∀ version : UInt16, version.toNat < UInt64.size := fun version =>
    Nat.lt_trans version.toNat_lt_size (by decide)
  have hmember : ∀ (name : String) (text : Option String),
      ∀ m ∈ optionalMember name text, Json.Plain 1 m.2 := by
    intro name text m hm
    cases text with
    | none => cases hm
    | some s =>
        cases List.mem_singleton.mp hm
        exact .string 1 s
  -- The kind stands in front; the other members depend on it.
  refine .object fun m hm => ?_
  rcases List.mem_cons.mp hm with rfl | hm
  · exact .string 1 _
  cases envelope with
  | hello version cluster clientName =>
      rcases List.mem_cons.mp hm with rfl | hm
      · exact plain_jsonOfNat 1 (hversion version)
      rcases List.mem_cons.mp hm with rfl | hm
      · exact .string 1 cluster
      · exact hmember _ _ m hm
  | welcome connectionId =>
      cases List.mem_singleton.mp hm
      exact .string 1 connectionId
  | request id cluster timeoutMs =>
      rcases List.mem_cons.mp hm with rfl | hm
      · exact plain_jsonOfNat 1 id.value.toNat_lt_size
      rcases List.mem_cons.mp hm with rfl | hm
      · exact .string 1 cluster
      · cases List.mem_singleton.mp hm
        exact plain_jsonOfNat 1 timeoutMs.toNat_lt_size
  | reply id =>
      cases List.mem_singleton.mp hm
      exact plain_jsonOfNat 1 id.value.toNat_lt_size
  | errorReply id error =>
      rcases List.mem_cons.mp hm with rfl | hm
      · exact plain_jsonOfNat 1 id.value.toNat_lt_size
      cases List.mem_singleton.mp hm
      refine .object fun m hm => ?_
      rcases List.mem_cons.mp hm with rfl | hm
      · exact .string 0 _
      · cases List.mem_singleton.mp hm
        exact .string 0 error.message
  | close reason => exact hmember _ _ m hm

theorem readUInt64?_jsonOfNat (n : UInt64) : readUInt64? (some (jsonOfNat n.toNat)) = some n := by
  rw [jsonOfNat, readUInt64?, Json.Numeral.toUInt64?_ofNat n.toNat_lt_size]
  simp [Nat.toUInt64]

theorem readId?_jsonOfNat (id : RequestId) :
    readId? (some (jsonOfNat id.value.toNat)) = some id := by
  rw [readId?, readUInt64?_jsonOfNat, Option.map_some]

theorem readUInt16?_jsonOfNat (version : UInt16) :
    readUInt16? (some (jsonOfNat version.toNat)) = some version := by
  have hwide : version.toNat = version.toUInt64.toNat := by simp
  have hlt : version.toUInt64.toNat < UInt16.size := by
    rw [← hwide]; exact version.toNat_lt_size
  rw [readUInt16?, hwide, readUInt64?_jsonOfNat, Option.bind_some, if_pos hlt]
  simp [Nat.toUInt16]

theorem readError?_toJson (error : ReplyError) :
    readError? (some (.object [("code", error.code.toJson), ("message", .string error.message)])) =
      some error := by
  have hgiven : givenByMembers? ["code", "message"]
      [("code", error.code.toJson), ("message", .string error.message)] =
        some [some error.code.toJson, some (.string error.message)] := by
    simp [givenByMembers?]
  have hcode : readCode? (some error.code.toJson) = some error.code := by
    simp only [readCode?, ErrorCode.toJson, Option.bind_some, ErrorCode.ofJsonWith?,
      ErrorCode.ofName?_name]
  simp [readError?, hgiven, errorOfGiven?, hcode, readText?]

/-! ## Envelopes -/

/-- The values given for the fields of an envelope by its own members. -/
def given : Envelope → List Given
  | hello version cluster clientName =>
      [some (jsonOfNat version.toNat), some (.string cluster), clientName.map Json.string]
  | welcome connectionId => [some (.string connectionId)]
  | request id cluster timeoutMs =>
      [some (jsonOfNat id.value.toNat), some (.string cluster), some (jsonOfNat timeoutMs.toNat)]
  | reply id => [some (jsonOfNat id.value.toNat)]
  | errorReply id error =>
      [some (jsonOfNat id.value.toNat),
        some (.object [("code", error.code.toJson), ("message", .string error.message)])]
  | close reason => [reason.map Json.string]

/-- The members of an envelope give each field once. -/
theorem givenByMembers?_fields (envelope : Envelope) :
    givenByMembers? envelope.kind.fields
        (("type", .string envelope.kind.name) :: envelope.fieldMembers) =
      some envelope.given := by
  cases envelope with
  | hello version cluster clientName =>
      cases clientName <;>
        simp [givenByMembers?, kind, Kind.fields, fieldMembers, optionalMember, given]
  | close reason =>
      cases reason <;>
        simp [givenByMembers?, kind, Kind.fields, fieldMembers, optionalMember, given]
  | _ => simp [givenByMembers?, kind, Kind.fields, fieldMembers, given]

/-- The kind of an envelope is given once. -/
theorem givenByMembers?_type (envelope : Envelope) :
    givenByMembers? ["type"] (("type", .string envelope.kind.name) :: envelope.fieldMembers) =
      some [some (.string envelope.kind.name)] := by
  cases envelope with
  | hello version cluster clientName =>
      cases clientName <;> simp [givenByMembers?, fieldMembers, optionalMember]
  | close reason => cases reason <;> simp [givenByMembers?, fieldMembers, optionalMember]
  | _ => simp [givenByMembers?, fieldMembers]

theorem readOptionalText?_map (text : Option String) :
    readOptionalText? (text.map Json.string) = some text := by
  cases text <;> rfl

/-- The values given for its fields make the envelope. -/
theorem ofGiven?_given (envelope : Envelope) :
    ofGiven? envelope.kind envelope.given = some envelope := by
  cases envelope <;>
    simp [kind, given, ofGiven?, readUInt16?_jsonOfNat, readUInt64?_jsonOfNat, readId?_jsonOfNat,
      readText?, readOptionalText?_map, readError?_toJson]

theorem ofJson?_toJson (envelope : Envelope) : ofJson? envelope.toJson = some envelope := by
  have hkind : kindOfJson? (.string envelope.kind.name) = some envelope.kind :=
    Kind.ofName?_name envelope.kind
  simp only [toJson, ofJson?, givenByMembers?_type, Option.bind_eq_bind, Option.bind_some,
    List.headD_cons, hkind, givenByMembers?_fields, ofGiven?_given]

/-- Every envelope is read back from its text. -/
theorem parse?_text (envelope : Envelope) : parse? envelope.text.toUTF8 = some envelope := by
  have hjson : Json.parse? envelope.text = some envelope.toJson :=
    Json.parse?_render (plain_toJson envelope) (by decide)
  simp only [parse?, Json.fromUTF8?_toUTF8, Option.bind_eq_bind, Option.bind_some, hjson,
    ofJson?_toJson]

end Envelope

end Switchboard
