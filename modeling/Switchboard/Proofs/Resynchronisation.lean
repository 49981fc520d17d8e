import Switchboard.Proofs.Decoding

/-!
# Finding the next frame again

A stream may hold frames that are of no use: frames whose header is not an envelope, and frames
whose checksum or body has been altered on the way. A reader reports each of them and goes on behind
it, since such a frame is as long as its preamble says, whatever stands in it
(`Piece.decode_bytes`). It therefore finds every message between them, once and in order
(`drain_pieces`).

This holds of frames of the version that is read here. A frame can be written with any version, and
the reader does not pass over one of another version, altered or not: it stops there
(`unread_blocks`).
-/

namespace Switchboard

namespace Frame

/-- What has become on the way of a frame whose checksum is present: other bytes in the field of the
checksum, in the header or in the payload, as many as before, so that the checksum is wrong. -/
structure Damage (frame : Frame) where
  stored : UInt32
  header : ByteArray
  payload : ByteArray
  size_header : header.size = frame.header.size
  size_payload : payload.size = frame.payload.size
  differs : stored ≠ checksum header payload

namespace Damage

variable {frame : Frame} (damage : frame.Damage)

/-- The bytes of a damaged frame. What stands before the checksum is as it was. -/
def bytes : ByteArray :=
  frame.front ++ bytes32 damage.stored ++ damage.header ++ damage.payload

/-- The frame as its preamble and the altered bytes describe it. -/
def altered : Frame := { frame with header := damage.header, payload := damage.payload }

theorem bytes_eq : damage.bytes = damage.altered.bytesWith damage.stored := by
  simp only [bytes, altered, bytesWith, front, damage.size_header, damage.size_payload]

/-- The alterations leave the frame within the limits. -/
theorem sound_altered (hframe : frame.Sound) : damage.altered.Sound where
  version := hframe.version
  flags := hframe.flags
  payload := by
    rw [altered, damage.size_payload]
    exact hframe.payload
  header := by
    rw [altered, damage.size_header]
    exact hframe.header

theorem verdict_altered (hflag : frame.flags.hasChecksum = true) :
    damage.altered.verdict damage.stored =
      .error (.checksumMismatch damage.stored (checksum damage.header damage.payload)) := by
  have hwrong : (checksum damage.header damage.payload != damage.stored) = true :=
    bne_iff_ne.2 damage.differs.symm
  simp only [verdict, altered, hflag, hwrong, Bool.and_self, if_true]

end Damage

end Frame

/-- A piece of a stream: a message, or a frame that is of no use. -/
inductive Piece where
  /-- The encoding of a message. -/
  | good (message : Message) (bytes : ByteArray) (hencode : message.encode = .ok bytes)
  /-- A frame in order, of the version that is read here, whose header is not an envelope. What
  stands in the field of a checksum that is not marked as present does not matter. -/
  | foreign (frame : Frame) (stored : UInt32) (hsound : frame.Sound)
      (hstored : frame.flags.hasChecksum = true →
        stored = Frame.checksum frame.header frame.payload)
      (hheader : Envelope.parse? frame.header = none)
  /-- A frame with a checksum, of the version that is read here, that has been damaged on the
  way. -/
  | damaged (frame : Frame) (hsound : frame.Sound) (hflag : frame.flags.hasChecksum = true)
      (damage : frame.Damage)

namespace Piece

/-- The bytes that arrive. -/
def bytes : Piece → ByteArray
  | good _ bytes _ => bytes
  | foreign frame stored _ _ _ => frame.bytesWith stored
  | damaged _ _ _ damage => damage.bytes

/-- What a reader makes of a piece. -/
def result : Piece → Except ProtocolError Message
  | good message _ _ => .ok message
  | foreign .. => .error .malformedEnvelope
  | damaged _ _ _ damage =>
      .error (.checksumMismatch damage.stored (Frame.checksum damage.header damage.payload))

/-- What a decoder reports of a piece. -/
def outcome : Piece → Decoder.Outcome Message
  | good message _ _ => .item message
  | foreign .. => .failed .malformedEnvelope
  | damaged _ _ _ damage =>
      .failed (.checksumMismatch damage.stored (Frame.checksum damage.header damage.payload))

/-- Each piece is taken off whole, whatever stands behind it. -/
theorem decode_bytes (piece : Piece) (rest : ByteArray) :
    Message.decode (piece.bytes ++ rest) = .taken piece.result rest := by
  cases piece with
  | good message bytes hencode =>
      have hbytes := Message.bytes_of_encode hencode
      subst hbytes
      exact Message.decode_bytes (Message.fits_of_encode hencode) rest
  | foreign frame stored hsound hstored hheader =>
      have hverdict : frame.verdict stored = .ok frame := by
        unfold Frame.verdict
        cases hflag : frame.flags.hasChecksum with
        | false => rfl
        | true => simp [hstored hflag]
      have hframe := Frame.decode_bytesWith hsound stored rest
      have hmessage : Message.ofFrame frame = .error .malformedEnvelope := by
        simp only [Message.ofFrame, hheader]
      rw [hverdict] at hframe
      simp only [bytes, Message.decode, hframe, result]
      exact congrArg (Frame.Taken.taken · rest) hmessage
  | damaged frame hsound hflag damage =>
      have hframe := Frame.decode_bytesWith (damage.sound_altered hsound) damage.stored rest
      rw [damage.verdict_altered hflag, ← damage.bytes_eq] at hframe
      simp only [bytes, Message.decode, hframe, result]
      rfl

/-- The stream that is made of pieces. -/
def spell (pieces : List Piece) : ByteArray := Reading.joined (pieces.map bytes)

theorem spell_cons (piece : Piece) (pieces : List Piece) :
    spell (piece :: pieces) = piece.bytes ++ spell pieces := rfl

/-- A reader finds the results of the pieces in order, and then reads what stands behind them. -/
theorem readOut_spell (pieces : List Piece) (rest : ByteArray) :
    (Decoder.mk (spell pieces ++ rest)).readOut =
      (Decoder.mk rest).readOut.behind (pieces.map result) := by
  induction pieces with
  | nil =>
      have hempty : spell [] = ByteArray.empty := rfl
      rw [hempty, ByteArray.empty_append]
      rfl
  | cons piece pieces ih =>
      rw [spell_cons, ByteArray.append_assoc, Decoder.readOut_eq, piece.decode_bytes]
      simp only [ih, Reading.behind, List.map_cons, List.nil_append, List.cons_append]

/-- Where the stream ends with a piece, nothing is left. -/
theorem readOut_spell_all (pieces : List Piece) :
    (Decoder.mk (spell pieces)).readOut = ⟨pieces.map result, .ok ByteArray.empty⟩ := by
  have hpieces := readOut_spell pieces ByteArray.empty
  rw [ByteArray.append_empty, Decoder.readOut_eq ⟨ByteArray.empty⟩, Message.decode_empty] at hpieces
  simpa [Reading.behind] using hpieces

/-- What is drained from pieces are their results in order, and then what is drained from the bytes
that stand behind them. -/
theorem drain_spell_append (pieces : List Piece) (rest : ByteArray) :
    (Decoder.mk (spell pieces ++ rest)).drain =
      (pieces.map outcome ++ (Decoder.mk rest).drain.1, (Decoder.mk rest).drain.2) := by
  induction pieces with
  | nil =>
      have hempty : spell [] = ByteArray.empty := rfl
      rw [hempty, ByteArray.empty_append]
      rfl
  | cons piece pieces ih =>
      have hdecode := piece.decode_bytes (spell pieces ++ rest)
      have hresult : Decoder.Outcome.ofResult piece.result = piece.outcome := by
        cases piece <;> rfl
      rw [spell_cons, ByteArray.append_assoc, Decoder.drain_eq, hdecode]
      simp only [ih, hresult, List.map_cons, List.cons_append]

/-- Behind pieces, a frame of another version is where a reader stops, whatever its checksum is. -/
theorem drain_spell_of_version (pieces : List Piece) {frame : Frame}
    (hversion : frame.version ≠ protocolVersion) (stored : UInt32) (rest : ByteArray) :
    (Decoder.mk (spell pieces ++ (frame.bytesWith stored ++ rest))).drain =
      (pieces.map outcome ++ [.failed (.unsupportedVersion frame.version)],
        ⟨frame.bytesWith stored ++ rest⟩) := by
  have hrefused : Message.decode (frame.bytesWith stored ++ rest) =
      .refused (.unsupportedVersion frame.version) := by
    rw [Message.decode, Frame.decode_of_version hversion (Frame.extract_preamble frame stored rest)]
  rw [drain_spell_append, Decoder.drain_eq ⟨frame.bytesWith stored ++ rest⟩, hrefused]

/-- The message that a piece brings, if it brings one. -/
def message? : Piece → Option Message
  | good message _ _ => some message
  | _ => none

end Piece

/-- The message that a decoder has taken, if it has taken one. -/
def Decoder.Outcome.message? : Decoder.Outcome Message → Option Message
  | item message => some message
  | _ => none

theorem Piece.message?_outcome (piece : Piece) : piece.outcome.message? = piece.message? := by
  cases piece <;> rfl

/-- A decoder that holds pieces one behind the other reports each of them once and in order,
whatever stands in the frames that are of no use: the message, that a header is not an envelope, or
that a stored checksum is not the one computed. Nothing is left in its buffer, and the messages that
it has taken are those among the pieces. Where a frame of another version follows them, as it was
written or damaged, it reports that version, and keeps the frame and all that stands behind it. -/
theorem drain_pieces (pieces : List Piece) :
    (Decoder.mk (Piece.spell pieces)).drain = (pieces.map Piece.outcome ++ [.needMore], .new) ∧
      (Decoder.mk (Piece.spell pieces)).drain.1.filterMap Decoder.Outcome.message? =
        pieces.filterMap Piece.message? ∧
      ∀ (frame : Frame) (bytes rest : ByteArray), frame.version ≠ protocolVersion →
        (bytes = frame.bytes ∨ ∃ damage : frame.Damage, bytes = damage.bytes) →
          (Decoder.mk (Piece.spell pieces ++ (bytes ++ rest))).drain =
            (pieces.map Piece.outcome ++ [.failed (.unsupportedVersion frame.version)],
              ⟨bytes ++ rest⟩) := by
  have hdrain : (Decoder.mk (Piece.spell pieces)).drain =
      (pieces.map Piece.outcome ++ [.needMore], .new) := by
    have hempty : (Decoder.mk ByteArray.empty).drain = ([.needMore], ⟨ByteArray.empty⟩) :=
      Decoder.drain_of_needMore Message.decode_empty
    have hpieces := Piece.drain_spell_append pieces ByteArray.empty
    rwa [ByteArray.append_empty, hempty] at hpieces
  refine ⟨hdrain, ?_, ?_⟩
  · rw [hdrain, List.filterMap_append, List.filterMap_map]
    have hmessage : Decoder.Outcome.message? ∘ Piece.outcome = Piece.message? :=
      funext Piece.message?_outcome
    rw [hmessage]
    simp [Decoder.Outcome.message?]
  · rintro frame bytes rest hversion (rfl | ⟨damage, rfl⟩)
    · exact Piece.drain_spell_of_version pieces hversion frame.checksumField rest
    · have hother : damage.altered.version ≠ protocolVersion := hversion
      rw [damage.bytes_eq]
      exact Piece.drain_spell_of_version pieces hother damage.stored rest

/-- A frame with a checksum, of a version that is not read here. -/
def Frame.unread : Frame := ⟨2, FrameFlags.none.withChecksum, ⟨#[0x7b, 0x7d]⟩, ⟨#[7]⟩⟩

/-- Its payload has been altered. -/
def Frame.unreadDamage : Frame.unread.Damage where
  stored := Frame.checksum Frame.unread.header Frame.unread.payload
  header := Frame.unread.header
  payload := ⟨#[8]⟩
  size_header := rfl
  size_payload := rfl
  differs := by decide +kernel

/-- The frame is written, but its checksum is never compared, and the message behind it is not
found. -/
theorem unread_blocks :
    Frame.unread.flags.hasChecksum = true ∧ Frame.unread.encode = .ok Frame.unread.bytes ∧
      (Message.close none).encode = .ok (Message.close none).bytes ∧
      (Decoder.mk (Frame.unreadDamage.bytes ++ (Message.close none).bytes)).drain ≠
        ([.failed (.checksumMismatch Frame.unreadDamage.stored
            (Frame.checksum Frame.unreadDamage.header Frame.unreadDamage.payload)),
          .item (.close none), .needMore], .new) := by
  refine ⟨by decide, Frame.encode_of_fits (by decide) (by decide),
    Message.encode_of_fits (by decide), ?_⟩
  have hother : Frame.unreadDamage.altered.version ≠ protocolVersion := by decide
  have hstop := Piece.drain_spell_of_version [] hother Frame.unreadDamage.stored
    (Message.close none).bytes
  have hnone : Piece.spell [] = ByteArray.empty := rfl
  rw [← Frame.unreadDamage.bytes_eq, hnone, ByteArray.empty_append] at hstop
  rw [hstop]
  intro h
  cases h

end Switchboard
