import Switchboard.Message
import Switchboard.Proofs.Json.RoundTrip
import Mathlib.Data.List.Perm.Basic

/-!
# The layout of an envelope text

What an envelope text says does not depend on how it is laid out. Its members may stand in any
order, with blanks between the tokens and with members that its kind does not declare, and the same
holds of the object in its error (`Relaid`). A declared member that is given more than once
(`Repeats`) makes the text say nothing. `ofFrame_of_relaid` states both for the messages that are
read from frames.
-/

namespace Switchboard

namespace Envelope

/-! ## What is given for a field -/

/-- What the members of an object give for one field. Refused when it is given twice. -/
def given? (members : List (String × Json)) (field : String) : Option Given :=
  match members.filter fun m => m.1 = field with
  | [] => some none
  | [(_, v)] => some (some v)
  | _ => none

theorem givenByMembers?_eq (fields : List String) (members : List (String × Json)) :
    givenByMembers? fields members = fields.mapM (given? members) := rfl

/-- The order of the members that give a field does not matter. -/
theorem given?_congr {ms ms' : List (String × Json)} {field : String}
    (h : (ms.filter fun m => m.1 = field).Perm (ms'.filter fun m => m.1 = field)) :
    given? ms field = given? ms' field := by
  have hlength := h.length_eq
  rw [given?, given?]
  cases hms : ms.filter fun m => m.1 = field with
  | nil =>
      rw [hms] at h
      rw [List.nil_perm.mp h]
  | cons m rest =>
      rw [hms] at h hlength
      cases rest with
      | nil => rw [List.singleton_perm.mp h]
      | cons o rest =>
          -- At least two on either side: refused.
          cases hms' : ms'.filter fun m => m.1 = field with
          | nil => simp [hms'] at hlength
          | cons p rest' =>
              rw [hms'] at hlength
              cases rest' with
              | nil => simp at hlength
              | cons q rest' => rfl

theorem given?_cons_of_ne {ms : List (String × Json)} {name field : String} (v : Json)
    (h : name ≠ field) : given? ((name, v) :: ms) field = given? ms field := by
  rw [given?, given?, List.filter_cons_of_neg (by simpa using h)]

/-- A member gives its field if the members behind it do not. -/
theorem given?_cons_self (ms : List (String × Json)) (field : String) (v : Json) :
    given? ((field, v) :: ms) field =
      (given? ms field).bind fun given => if given.isNone then some (some v) else none := by
  rw [given?, given?, List.filter_cons_of_pos (by simp)]
  generalize (ms.filter fun m => m.1 = field) = those
  rcases those with _ | ⟨m, _ | ⟨o, rest⟩⟩ <;> rfl

/-- A field that is given twice is refused. -/
theorem given?_twice {ms others : List (String × Json)} {field : String} {v w : Json}
    (h : ms.Perm ((field, v) :: (field, w) :: others)) : given? ms field = none := by
  rw [given?_congr (h.filter _)]
  simp [given?]

theorem givenByMembers?_cons (field : String) (fields : List String) (ms : List (String × Json)) :
    givenByMembers? (field :: fields) ms =
      (given? ms field).bind fun given => (givenByMembers? fields ms).map (given :: ·) := by
  rw [givenByMembers?_eq, givenByMembers?_eq, List.mapM_cons]
  cases given? ms field with
  | none => rfl
  | some given => cases fields.mapM (given? ms) <;> rfl

/-- Only the members of the named fields matter. -/
theorem givenByMembers?_congr {fields : List String} {ms ms' : List (String × Json)}
    (h : ∀ f ∈ fields, given? ms f = given? ms' f) :
    givenByMembers? fields ms = givenByMembers? fields ms' := by
  induction fields with
  | nil => rfl
  | cons f fields ih =>
      rw [givenByMembers?_cons, givenByMembers?_cons, h f List.mem_cons_self,
        ih fun g hg => h g (List.mem_cons_of_mem f hg)]

/-- One refused field is enough. -/
theorem givenByMembers?_eq_none {fields : List String} {ms : List (String × Json)} {field : String}
    (hfield : field ∈ fields) (h : given? ms field = none) : givenByMembers? fields ms = none := by
  induction fields with
  | nil => cases hfield
  | cons f fields ih =>
      rw [givenByMembers?_cons]
      rcases List.mem_cons.mp hfield with rfl | hfield
      · rw [h, Option.bind_none]
      · cases given? ms f with
        | none => rfl
        | some given => rw [ih hfield, Option.bind_some, Option.map_none]

/-! ## Envelopes from members -/

/-- What is made of the values given for the fields of a kind is of that kind. -/
theorem kind_of_ofGiven? {kind : Kind} {given : List Given} {envelope : Envelope}
    (h : ofGiven? kind given = some envelope) : envelope.kind = kind := by
  rw [ofGiven?.eq_def] at h
  split at h <;>
    simp only [Option.bind_eq_bind, Option.bind_eq_some_iff, Option.map_eq_some_iff,
      Option.some.injEq, reduceCtorEq] at h
  · obtain ⟨_, _, _, _, _, _, rfl⟩ := h; rfl
  · obtain ⟨_, _, rfl⟩ := h; rfl
  · obtain ⟨_, _, _, _, _, _, rfl⟩ := h; rfl
  · obtain ⟨_, _, rfl⟩ := h; rfl
  · obtain ⟨_, _, _, _, rfl⟩ := h; rfl
  · obtain ⟨_, _, rfl⟩ := h; rfl

/-- The kind that the members of an object name. -/
def kindOf? (ms : List (String × Json)) : Option Kind :=
  (given? ms "type").bind fun given => given.bind kindOfJson?

theorem ofJson?_object (ms : List (String × Json)) :
    ofJson? (.object ms) =
      (kindOf? ms).bind fun kind => (givenByMembers? kind.fields ms).bind (ofGiven? kind) := by
  have htype : givenByMembers? ["type"] ms = (given? ms "type").map fun given => [given] := by
    rw [givenByMembers?_cons]
    cases given? ms "type" <;> rfl
  rw [ofJson?, htype, kindOf?]
  cases given? ms "type" <;> rfl

theorem kindOf?_of_ofJson? {ms : List (String × Json)} {envelope : Envelope}
    (h : ofJson? (.object ms) = some envelope) : kindOf? ms = some envelope.kind := by
  rw [ofJson?_object, Option.bind_eq_some_iff] at h
  obtain ⟨kind, hkind, henvelope⟩ := h
  obtain ⟨given, hgiven, hmake⟩ := Option.bind_eq_some_iff.mp henvelope
  rw [hkind, kind_of_ofGiven? hmake]

theorem kindOf?_congr {ms ms' : List (String × Json)} (h : given? ms "type" = given? ms' "type") :
    kindOf? ms = kindOf? ms' := by
  rw [kindOf?, kindOf?, h]

theorem ofJson?_congr {ms ms' : List (String × Json)} (htype : given? ms "type" = given? ms' "type")
    (hfields : ∀ kind, kindOf? ms = some kind → ∀ f ∈ kind.fields, given? ms f = given? ms' f) :
    ofJson? (.object ms) = ofJson? (.object ms') := by
  rw [ofJson?_object, ofJson?_object, ← kindOf?_congr htype]
  cases hkind : kindOf? ms with
  | none => rfl
  | some kind => rw [Option.bind_some, Option.bind_some, givenByMembers?_congr (hfields kind hkind)]

theorem given?_perm {ms ms' : List (String × Json)} (h : ms.Perm ms') (field : String) :
    given? ms field = given? ms' field :=
  given?_congr (h.filter _)

theorem ofJson?_perm {ms ms' : List (String × Json)} (h : ms.Perm ms') :
    ofJson? (.object ms) = ofJson? (.object ms') :=
  ofJson?_congr (given?_perm h "type") fun _ _ f _ => given?_perm h f

/-- What an error reply says of its error is what the error says. -/
theorem ofJson?_cons_error {ms : List (String × Json)} (hkind : kindOf? ms = some .errorReply)
    (es : List (String × Json)) :
    ofJson? (.object (("error", .object es) :: ms)) =
      (given? ms "id").bind fun id => (given? ms "error").bind fun error =>
        if error.isNone then
          (readId? id).bind fun id => (readError? (some (.object es))).map (errorReply id)
        else none := by
  have hne : ∀ f, f ≠ "error" → given? (("error", .object es) :: ms) f = given? ms f :=
    fun f hf => given?_cons_of_ne _ (Ne.symm hf)
  have hfields : Kind.errorReply.fields = ["id", "error"] := rfl
  rw [ofJson?_object, kindOf?_congr (hne "type" (by decide)), hkind, Option.bind_some, hfields,
    givenByMembers?_cons, givenByMembers?_cons, hne "id" (by decide), given?_cons_self]
  cases given? ms "id" with
  | none => rfl
  | some id =>
      rcases given? ms "error" with _ | _ | error
      · rfl
      · cases hid : readId? id <;>
          cases herror : readError? (some (.object es)) <;>
            simp [givenByMembers?, ofGiven?, hid, herror]
      · rfl

/-! ## Layouts -/

/-- Members that are reordered, and added or left out where their names are not declared. -/
inductive Rearranged (declared : List String) :
    List (String × Json) → List (String × Json) → Prop
  | reorder {ms ms' : List (String × Json)} (h : ms.Perm ms') : Rearranged declared ms ms'
  | add {name : String} (v : Json) (ms : List (String × Json)) (hname : name ∉ declared) :
      Rearranged declared ms ((name, v) :: ms)
  | remove {name : String} (v : Json) (ms : List (String × Json)) (hname : name ∉ declared) :
      Rearranged declared ((name, v) :: ms) ms
  | trans {ms ms' ms'' : List (String × Json)} (h : Rearranged declared ms ms')
      (h' : Rearranged declared ms' ms'') : Rearranged declared ms ms''

/-- The members of an envelope text of one kind in another layout: rearranged, or with the members
of the object in its error rearranged. -/
inductive Relaid (kind : Kind) : List (String × Json) → List (String × Json) → Prop
  | members {ms ms' : List (String × Json)} (h : Rearranged ("type" :: kind.fields) ms ms') :
      Relaid kind ms ms'
  | error {es es' ms : List (String × Json)} (hkind : kind = .errorReply)
      (h : Rearranged ["code", "message"] es es') :
      Relaid kind (("error", .object es) :: ms) (("error", .object es') :: ms)
  | trans {ms ms' ms'' : List (String × Json)} (h : Relaid kind ms ms')
      (h' : Relaid kind ms' ms'') :
      Relaid kind ms ms''

/-- A declared member is given twice, whether it was there once or not at all, and whatever its
values are. -/
inductive Doubled (declared : List String) : List (String × Json) → List (String × Json) → Prop
  | twice (field : String) {v w : Json} {ms others ms' : List (String × Json)}
      (hfield : field ∈ declared) (hbefore : ms.Perm ((field, w) :: others) ∨ ms.Perm others)
      (hafter : ms'.Perm ((field, v) :: (field, w) :: others)) : Doubled declared ms ms'

/-- A member that an envelope text of one kind declares is given twice, or a member that the object
in its error declares. -/
inductive Repeats (kind : Kind) : List (String × Json) → List (String × Json) → Prop
  | members {ms ms' : List (String × Json)} (h : Doubled ("type" :: kind.fields) ms ms') :
      Repeats kind ms ms'
  | error {es es' others ms ms' : List (String × Json)} (hkind : kind = .errorReply)
      (h : Doubled ["code", "message"] es es') (hbefore : ms.Perm (("error", .object es) :: others))
      (hafter : ms'.Perm (("error", .object es') :: others)) : Repeats kind ms ms'

/-- Members that are not declared do not matter, and neither does the order of the others. -/
theorem Rearranged.given?_eq {declared : List String} {ms ms' : List (String × Json)}
    {field : String}
    (h : Rearranged declared ms ms') (hfield : field ∈ declared) :
    given? ms field = given? ms' field := by
  induction h with
  | reorder h => exact given?_perm h field
  | add v ms hname => exact (given?_cons_of_ne v (ne_of_mem_of_not_mem hfield hname).symm).symm
  | remove v ms hname => exact given?_cons_of_ne v (ne_of_mem_of_not_mem hfield hname).symm
  | trans _ _ ih ih' => exact ih.trans ih'

theorem Rearranged.readError?_eq {es es' : List (String × Json)}
    (h : Rearranged ["code", "message"] es es') :
    readError? (some (.object es)) = readError? (some (.object es')) := by
  have hgiven : givenByMembers? ["code", "message"] es = givenByMembers? ["code", "message"] es' :=
    givenByMembers?_congr fun f hf => h.given?_eq hf
  rw [readError?, readError?, hgiven]

/-- Another layout names the same kind and spells the same envelope. -/
theorem Relaid.ofJson?_eq {kind : Kind} {ms ms' : List (String × Json)} (h : Relaid kind ms ms')
    (hkind : kindOf? ms = some kind) :
    kindOf? ms' = some kind ∧ ofJson? (.object ms') = ofJson? (.object ms) := by
  induction h with
  | @members ms ms' h =>
      have htype := h.given?_eq List.mem_cons_self
      refine ⟨(kindOf?_congr htype).symm.trans hkind, (ofJson?_congr htype ?_).symm⟩
      intro other hother f hf
      cases hkind.symm.trans hother
      exact h.given?_eq (List.mem_cons_of_mem _ hf)
  | @error es es' ms hreply h =>
      subst hreply
      -- The error is not what names the kind.
      have hne : ∀ es, given? (("error", .object es) :: ms) "type" = given? ms "type" :=
        fun es => given?_cons_of_ne _ (by decide)
      have hothers : kindOf? ms = some .errorReply := (kindOf?_congr (hne es)).symm.trans hkind
      refine ⟨(kindOf?_congr (hne es')).trans hothers, ?_⟩
      rw [ofJson?_cons_error hothers, ofJson?_cons_error hothers, h.readError?_eq]
  | trans _ _ ih ih' =>
      obtain ⟨hkind', hsame⟩ := ih hkind
      obtain ⟨hkind'', hsame'⟩ := ih' hkind'
      exact ⟨hkind'', hsame'.trans hsame⟩

/-- A member that is given twice is refused, and the other members stay as they were. -/
theorem Doubled.given? {declared : List String} {ms ms' : List (String × Json)}
    (h : Doubled declared ms ms') : ∃ field ∈ declared, Envelope.given? ms' field = none ∧
      ∀ other, other ≠ field → Envelope.given? ms' other = Envelope.given? ms other := by
  cases h with
  | @twice field v w _ others _ hfield hbefore hafter =>
      refine ⟨field, hfield, given?_twice hafter, fun other hother => ?_⟩
      have hothers : Envelope.given? ms other = Envelope.given? others other := by
        rcases hbefore with hbefore | hbefore
        · rw [given?_perm hbefore, given?_cons_of_ne w hother.symm]
        · exact given?_perm hbefore other
      rw [given?_perm hafter, given?_cons_of_ne v hother.symm, given?_cons_of_ne w hother.symm,
        hothers]

/-- With a declared member given twice, a text spells no envelope. -/
theorem Repeats.ofJson?_eq_none {kind : Kind} {ms ms' : List (String × Json)}
    (h : Repeats kind ms ms')
    (hkind : kindOf? ms = some kind) : ofJson? (.object ms') = none := by
  cases h with
  | members h =>
      obtain ⟨field, hfield, htwice, hothers⟩ := h.given?
      -- Without a kind there is no envelope; otherwise the field is one of the kind that is named.
      by_cases htype : "type" = field
      · rw [ofJson?_object, kindOf?, htype, htwice]
        rfl
      · have hsame : kindOf? ms' = some kind := (kindOf?_congr (hothers "type" htype)).trans hkind
        have hdeclared : field ∈ kind.fields :=
          (List.mem_cons.mp hfield).resolve_left (Ne.symm htype)
        rw [ofJson?_object, hsame, Option.bind_some, givenByMembers?_eq_none hdeclared htwice]
        rfl
  | @error es es' others _ _ hreply h hbefore hafter =>
      subst hreply
      obtain ⟨field, hfield, htwice, -⟩ := h.given?
      have hrefused : readError? (some (.object es')) = none := by
        rw [readError?, givenByMembers?_eq_none hfield htwice]
        rfl
      have htype : Envelope.given? ms "type" = Envelope.given? others "type" := by
        rw [given?_perm hbefore, given?_cons_of_ne _ (by decide)]
      rw [ofJson?_perm hafter, ofJson?_cons_error ((kindOf?_congr htype).symm.trans hkind),
        hrefused]
      simp

end Envelope

/-! ## Messages -/

namespace Message

/-- A frame is read by the value that is written in its header. -/
theorem ofFrame_of_written (frame : Frame) {v : Json} (h : Json.Written frame.header v) :
    ofFrame frame = match Envelope.ofJson? v with
      | some envelope => .ok ⟨envelope, frame.payload⟩
      | none => .error .malformedEnvelope := by
  have hparse : Envelope.parse? frame.header = Envelope.ofJson? v := by
    have hbind := congrArg (Option.bind · Envelope.ofJson?) (Json.written_iff.mp h)
    simpa [Envelope.parse?, Option.bind_assoc] using hbind
  cases hspelled : Envelope.ofJson? v <;> simp only [ofFrame, hparse, hspelled]

/-- The layout of a header does not matter: with its members in another order, with other blanks,
and with other members that are not declared, it carries the same message. With a declared member
given twice, the frame is refused, and reading goes on behind it. -/
theorem ofFrame_of_relaid {frame : Frame} {message : Message} {members : List (String × Json)}
    (hframe : ofFrame frame = .ok message) (hheader : Json.Written frame.header (.object members)) :
    (∀ members' header, Envelope.Relaid message.envelope.kind members members' →
        Json.Written header (.object members') →
        ofFrame { frame with header := header } = .ok message) ∧
      (∀ members' repeated header, Envelope.Relaid message.envelope.kind members members' →
        Envelope.Repeats message.envelope.kind members' repeated →
        Json.Written header (.object repeated) →
        ofFrame { frame with header := header } = .error .malformedEnvelope) ∧
      ProtocolError.malformedEnvelope.isRecoverable = true := by
  obtain ⟨henvelope, hpayload⟩ : Envelope.ofJson? (.object members) = some message.envelope ∧
      frame.payload = message.payload := by
    rw [ofFrame_of_written frame hheader] at hframe
    split at hframe
    · rename_i envelope hspelled
      cases hframe
      exact ⟨hspelled, rfl⟩
    · cases hframe
  have hkind := Envelope.kindOf?_of_ofJson? henvelope
  refine ⟨?_, ?_, rfl⟩
  · intro members' header hrelaid hwritten
    have hspelled := (hrelaid.ofJson?_eq hkind).2.trans henvelope
    rw [ofFrame_of_written { frame with header := header } hwritten, hspelled]
    simp only [hpayload]
  · intro members' repeated header hrelaid hrepeats hwritten
    have hspelled := hrepeats.ofJson?_eq_none (hrelaid.ofJson?_eq hkind).1
    rw [ofFrame_of_written { frame with header := header } hwritten, hspelled]

/-- An error reply whose members stand the other way round, with blanks and with two members more,
and one whose message is given twice. -/
theorem ofFrame_of_relaid_errorReply :
    let message := errorReply ⟨7⟩ .noMembers "gone"
    let frame := Frame.new ("\x7b\"type\":\"error_reply\",\"id\":7," ++
      "\"error\":\x7b\"code\":\"NO_MEMBERS\",\"message\":\"gone\"\x7d\x7d").toUTF8 ByteArray.empty
    let other := ("\x7b \"seen\" : null,\n \"error\" :" ++
      "\x7b\"message\":\"gone\",\"code\":\"NO_MEMBERS\",\"hint\":[1.5]\x7d," ++
      "\t\"id\": 7, \"type\":\"error_reply\"\x7d").toUTF8
    let doubled :=
      ("\x7b\"error\":\x7b\"message\":null,\"message\":\"gone\",\"code\":\"NO_MEMBERS\"\x7d," ++
      "\"id\":7,\"type\":\"error_reply\"\x7d").toUTF8
    ofFrame frame = .ok message ∧ ofFrame { frame with header := other } = .ok message ∧
      ofFrame { frame with header := doubled } = .error .malformedEnvelope := by
  intro message frame other doubled
  let kind : String × Json := ("type", .string "error_reply")
  let id : String × Json := ("id", .number (.ofNat 7))
  let code : String × Json := ("code", .string "NO_MEMBERS")
  let note : String × Json := ("message", .string "gone")
  let hint : String × Json := ("hint", .array [.number ⟨false, [1], [5], none⟩])
  have hheader : Json.Written frame.header (.object [kind, id, ("error", .object [code, note])]) :=
    Json.written_of_parse? rfl
  have hframe : ofFrame frame = .ok message := (ofFrame_of_written frame hheader).trans rfl
  have hfront : Envelope.Relaid .errorReply [kind, id, ("error", .object [code, note])]
      [("error", .object [code, note]), id, kind] := .members (.reorder (List.reverse_perm _).symm)
  obtain ⟨hrelaid, hrepeats, -⟩ := ofFrame_of_relaid hframe hheader
  refine ⟨hframe, hrelaid [("seen", .null), ("error", .object [note, code, hint]), id,
    kind] other ?_ ?_, hrepeats [("error", .object [code, note]), id, kind]
      [("error", .object [("message", .null), note, code]), id, kind] doubled hfront ?_ ?_⟩
  · have hnested : Envelope.Rearranged ["code", "message"] [code, note] [note, code, hint] :=
      .trans (.add _ _ (by decide)) (.reorder (List.reverse_perm _).symm)
    exact .trans hfront (.trans (.error rfl hnested) (.members (.add _ _ (by decide))))
  · exact Json.written_of_parse? rfl
  · exact .error rfl (.twice "message" (by decide) (Or.inl (.swap note code [])) .rfl) .rfl .rfl
  · exact Json.written_of_parse? rfl

end Message

end Switchboard
