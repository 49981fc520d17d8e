import Mathlib.Tactic.IntervalCases
import Switchboard.Proofs.Streams

/-!
# How long envelopes are

The length of the text of an envelope, as a sum of the lengths of its names, numbers and texts. A
text is counted as it stands between its quotation marks (`Json.quotedSize`), so that escapes count
in full.
-/

namespace Switchboard

namespace Text

/-- The number of bytes that characters take in UTF-8. -/
def byteCount : List Char → Nat
  | [] => 0
  | c :: cs => c.utf8Size + byteCount cs

theorem byteCount_append (cs ds : List Char) :
    byteCount (cs ++ ds) = byteCount cs + byteCount ds := by
  induction cs with
  | nil => rw [List.nil_append, byteCount, Nat.zero_add]
  | cons c cs ih => rw [List.cons_append, byteCount, ih, byteCount, Nat.add_assoc]

theorem size_toUTF8_ofList (cs : List Char) : (String.ofList cs).toUTF8.size = byteCount cs := by
  rw [String.toUTF8_eq_toByteArray, String.toByteArray_ofList]
  induction cs with
  | nil => rfl
  | cons c cs ih =>
      rw [List.utf8Encode_cons, ByteArray.size_append, ih, List.utf8Encode_singleton,
        List.size_toByteArray, String.length_utf8EncodeChar, byteCount]

end Text

namespace Json

open Text (byteCount byteCount_append)

/-! ## Strings and numbers -/

/-- The number of bytes that a string takes between its quotation marks, these included. -/
def quotedSize (s : String) : Nat := byteCount (quote s)

/-- The number of digits of a number. -/
def digitCount (n : Nat) : Nat := (Nat.toDigits 10 n).length

theorem digitCount_le_twenty (n : UInt64) : digitCount n.toNat ≤ 20 :=
  Numeral.length_toDigits_le_twenty n.toNat_lt_size

theorem quotedSize_eq (s : String) :
    quotedSize s = byteCount (s.toList.flatMap escapeChar) + 2 := by
  have hopen : byteCount ['"'] = 1 := rfl
  have hquote : quote s = ['"'] ++ s.toList.flatMap escapeChar ++ ['"'] := rfl
  rw [quotedSize, hquote, byteCount_append, byteCount_append, hopen]
  omega

/-- Texts that are put together share one pair of quotation marks. -/
theorem quotedSize_append (s t : String) :
    quotedSize (s ++ t) + 2 = quotedSize s + quotedSize t := by
  rw [quotedSize_eq, quotedSize_eq, quotedSize_eq, String.toList_append, List.flatMap_append,
    byteCount_append]
  omega

theorem byteCount_digitChars {ds : List Nat} (hds : ∀ d ∈ ds, d < 10) :
    byteCount (digitChars ds) = ds.length ∧
      byteCount ((digitChars ds).flatMap escapeChar) = ds.length := by
  induction ds with
  | nil => exact ⟨rfl, rfl⟩
  | cons d ds ih =>
      have hone : ∀ d < 10, (Nat.digitChar d).utf8Size = 1 ∧
          byteCount (escapeChar (Nat.digitChar d)) = 1 := by
        intro d hd
        interval_cases d <;> decide
      obtain ⟨hsize, hescaped⟩ := hone d (hds d List.mem_cons_self)
      obtain ⟨ihsize, ihescaped⟩ := ih fun e he => hds e (List.mem_cons_of_mem _ he)
      constructor
      · rw [digitChars, List.map_cons, byteCount, hsize, ← digitChars, ihsize, List.length_cons]
        omega
      · rw [digitChars, List.map_cons, List.flatMap_cons, byteCount_append, hescaped, ← digitChars,
          ihescaped, List.length_cons]
        omega

theorem byteCount_toDigits (n : Nat) : byteCount (Nat.toDigits 10 n) = digitCount n := by
  have hdigits := Numeral.digitChars_whole_ofNat n
  rw [digitCount, ← hdigits, (byteCount_digitChars (Numeral.lt_of_mem_whole_ofNat n)).1, digitChars,
    List.length_map]

/-- The digits of a number need no escapes. -/
theorem quotedSize_toString (n : Nat) : quotedSize (toString n) = digitCount n + 2 := by
  have hlist : (toString n).toList = Nat.toDigits 10 n := Nat.toList_repr
  have hdigits := Numeral.digitChars_whole_ofNat n
  rw [quotedSize_eq, hlist, digitCount, ← hdigits,
    (byteCount_digitChars (Numeral.lt_of_mem_whole_ofNat n)).2, digitChars, List.length_map]

/-- A character that needs no escape takes one byte for each time it stands in a text. -/
theorem quotedSize_replicate {c : Char} (hescape : escapeChar c = [c]) (hsize : c.utf8Size = 1)
    (n : Nat) : quotedSize (String.ofList (List.replicate n c)) = n + 2 := by
  have hcount : byteCount ((List.replicate n c).flatMap escapeChar) = n := by
    induction n with
    | zero => rfl
    | succ n ih =>
        have hone : byteCount [c] = 1 := by rw [byteCount, hsize]; rfl
        rw [List.replicate_succ, List.flatMap_cons, byteCount_append, ih, hescape, hone]
        omega
  rw [quotedSize_eq, String.toList_ofList, hcount]

end Json

namespace Envelope

open Json (quotedSize digitCount)
open Text (byteCount)

/-! ## Envelopes -/

/-- The texts of the fixed names in envelopes. -/
theorem size_names :
    byteCount (Json.quote "type") = 6 ∧ byteCount (Json.quote "id") = 4 ∧
      byteCount (Json.quote "cluster") = 9 ∧ byteCount (Json.quote "timeout_ms") = 12 ∧
      byteCount (Json.quote "error") = 7 ∧ byteCount (Json.quote "code") = 6 ∧
      byteCount (Json.quote "message") = 9 ∧ byteCount (Json.quote "connection_id") = 15 ∧
      byteCount (Json.quote "reason") = 8 := by decide

/-- The texts of the kinds. -/
theorem size_kinds :
    byteCount (Json.quote "welcome") = 9 ∧ byteCount (Json.quote "request") = 9 ∧
      byteCount (Json.quote "reply") = 7 ∧ byteCount (Json.quote "error_reply") = 13 ∧
      byteCount (Json.quote "close") = 7 := by decide

/-- The texts of the punctuation. -/
theorem size_punctuation :
    byteCount ['\x7b'] = 1 ∧ byteCount ['\x7d'] = 1 ∧ byteCount [':'] = 1 ∧ byteCount [','] = 1 ∧
      byteCount [] = 0 := by decide

theorem size_text_welcome (connectionId : String) :
    (welcome connectionId).text.toUTF8.size = 35 + quotedSize connectionId := by
  obtain ⟨htype, -, -, -, -, -, -, hconnection, -⟩ := size_names
  obtain ⟨hwelcome, -⟩ := size_kinds
  obtain ⟨hbegin, hend, hcolon, hcomma, hnil⟩ := size_punctuation
  rw [text, Json.render, Text.size_toUTF8_ofList, toJson, kind, Kind.name, fieldMembers]
  simp only [Json.tokens, Json.memberTokens, List.flatMap_append, List.flatMap_cons,
    List.flatMap_nil, Text.byteCount_append, Json.Token.chars, htype, hconnection, hwelcome, hbegin,
    hend, hcolon, hcomma, hnil, quotedSize]
  omega

theorem size_text_request (id : RequestId) (cluster : String) (timeoutMs : UInt64) :
    (request id cluster timeoutMs).text.toUTF8.size =
      49 + digitCount id.value.toNat + quotedSize cluster + digitCount timeoutMs.toNat := by
  obtain ⟨htype, hid, hcluster, htimeout, -⟩ := size_names
  obtain ⟨-, hrequest, -⟩ := size_kinds
  obtain ⟨hbegin, hend, hcolon, hcomma, hnil⟩ := size_punctuation
  rw [text, Json.render, Text.size_toUTF8_ofList, toJson, kind, Kind.name, fieldMembers]
  simp only [Json.tokens, Json.memberTokens, jsonOfNat, List.flatMap_append, List.flatMap_cons,
    List.flatMap_nil, Text.byteCount_append, Json.Token.chars, Json.Numeral.chars_ofNat,
    Json.byteCount_toDigits, htype, hid, hcluster, htimeout, hrequest, hbegin, hend, hcolon, hcomma,
    hnil, quotedSize]
  omega

theorem size_text_reply (id : RequestId) :
    (reply id).text.toUTF8.size = 22 + digitCount id.value.toNat := by
  obtain ⟨htype, hid, -⟩ := size_names
  obtain ⟨-, -, hreply, -⟩ := size_kinds
  obtain ⟨hbegin, hend, hcolon, hcomma, hnil⟩ := size_punctuation
  rw [text, Json.render, Text.size_toUTF8_ofList, toJson, kind, Kind.name, fieldMembers]
  simp only [Json.tokens, Json.memberTokens, jsonOfNat, List.flatMap_append, List.flatMap_cons,
    List.flatMap_nil, Text.byteCount_append, Json.Token.chars, Json.Numeral.chars_ofNat,
    Json.byteCount_toDigits, htype, hid, hreply, hbegin, hend, hcolon, hcomma, hnil]
  omega

theorem size_text_errorReply (id : RequestId) (error : ReplyError) :
    (errorReply id error).text.toUTF8.size =
      57 + digitCount id.value.toNat + quotedSize error.code.name + quotedSize error.message := by
  obtain ⟨htype, hid, -, -, herror, hcode, hmessage, -⟩ := size_names
  obtain ⟨-, -, -, hreply, -⟩ := size_kinds
  obtain ⟨hbegin, hend, hcolon, hcomma, hnil⟩ := size_punctuation
  rw [text, Json.render, Text.size_toUTF8_ofList, toJson, kind, Kind.name, fieldMembers]
  simp only [Json.tokens, Json.memberTokens, jsonOfNat, ErrorCode.toJson, List.flatMap_append,
    List.flatMap_cons, List.flatMap_nil, Text.byteCount_append, Json.Token.chars,
    Json.Numeral.chars_ofNat, Json.byteCount_toDigits, htype, hid, herror, hcode, hmessage, hreply,
    hbegin, hend, hcolon, hcomma, hnil, quotedSize]
  omega

theorem size_text_close (reason : String) :
    (close (some reason)).text.toUTF8.size = 26 + quotedSize reason := by
  obtain ⟨htype, -, -, -, -, -, -, -, hreason⟩ := size_names
  obtain ⟨-, -, -, -, hclose⟩ := size_kinds
  obtain ⟨hbegin, hend, hcolon, hcomma, hnil⟩ := size_punctuation
  rw [text, Json.render, Text.size_toUTF8_ofList, toJson, kind, Kind.name, fieldMembers]
  simp only [optionalMember, Json.tokens, Json.memberTokens, List.flatMap_append, List.flatMap_cons,
    List.flatMap_nil, Text.byteCount_append, Json.Token.chars, htype, hreason, hclose, hbegin, hend,
    hcolon, hcomma, hnil, quotedSize]
  omega

end Envelope

/-! ## Messages that fit into frames -/

namespace Message

open Json (quotedSize digitCount)

theorem quotedSize_name_le (code : ErrorCode) : quotedSize code.name ≤ 22 := by
  cases code <;> decide

theorem fits_errorReply_iff (id : RequestId) (code : ErrorCode) (text : String) :
    (errorReply id code text).Fits ↔
      57 + digitCount id.value.toNat + quotedSize code.name + quotedSize text ≤ maxHeaderSize := by
  have hsize : (errorReply id code text).envelope.text.toUTF8.size =
      57 + digitCount id.value.toNat + quotedSize code.name + quotedSize text :=
    Envelope.size_text_errorReply id ⟨code, text⟩
  have hpayload : (errorReply id code text).payload.size ≤ maxPayloadSize := Nat.zero_le _
  rw [Fits, hsize]
  exact ⟨fun h => h.2, fun h => ⟨hpayload, h⟩⟩

/-- An error reply with a short text fits, whatever its number and code are. -/
theorem fits_errorReply {text : String} (htext : quotedSize text ≤ 65000) (id : RequestId)
    (code : ErrorCode) : (errorReply id code text).Fits := by
  have hid := Json.digitCount_le_twenty id.value
  have hname := quotedSize_name_le code
  rw [fits_errorReply_iff, maxHeaderSize]
  omega

theorem fits_reply {payload : ByteArray} (hpayload : payload.size ≤ maxPayloadSize)
    (id : RequestId) : (reply id payload).Fits := by
  have hid := Json.digitCount_le_twenty id.value
  have hsize : (reply id payload).envelope.text.toUTF8.size = 22 + digitCount id.value.toNat :=
    Envelope.size_text_reply id
  refine ⟨hpayload, ?_⟩
  rw [hsize, maxHeaderSize]
  omega

theorem fits_request_iff {payload : ByteArray} (hpayload : payload.size ≤ maxPayloadSize)
    (id : RequestId) (cluster : String) (timeoutMs : UInt64) :
    (request id cluster timeoutMs payload).Fits ↔
      49 + digitCount id.value.toNat + quotedSize cluster + digitCount timeoutMs.toNat ≤
        maxHeaderSize := by
  have hsize : (request id cluster timeoutMs payload).envelope.text.toUTF8.size =
      49 + digitCount id.value.toNat + quotedSize cluster + digitCount timeoutMs.toNat :=
    Envelope.size_text_request id cluster timeoutMs
  rw [Fits, hsize]
  exact ⟨fun h => h.2, fun h => ⟨hpayload, h⟩⟩

theorem fits_close {reason : String} (hreason : quotedSize reason ≤ 65000) :
    (close (some reason)).Fits := by
  have hsize : (close (some reason)).envelope.text.toUTF8.size = 26 + quotedSize reason :=
    Envelope.size_text_close reason
  refine ⟨Nat.zero_le _, ?_⟩
  rw [hsize, maxHeaderSize]
  omega

end Message

end Switchboard
