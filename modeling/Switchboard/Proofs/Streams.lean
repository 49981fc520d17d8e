import Switchboard.Proofs.Framing

/-!
# Streams of messages

The bytes of messages that follow each other are taken apart into the same messages in the same
order, in whatever portions they arrive: whatever part of them is at hand, a reader takes off the
messages that are complete and keeps the rest (`decode_spell`, `Decoder.drain_spell`).
-/

namespace Switchboard

namespace Message

/-- Whether a message fits into a frame. -/
def Fits (message : Message) : Prop :=
  message.payload.size ≤ maxPayloadSize ∧ message.envelope.text.toUTF8.size ≤ maxHeaderSize

instance (message : Message) : Decidable message.Fits := by unfold Fits; infer_instance

/-- The bytes of a message, whether it fits into a frame or not. -/
def bytes (message : Message) : ByteArray := message.toFrame.bytes

theorem encode_of_fits {message : Message} (h : message.Fits) :
    message.encode = .ok message.bytes :=
  Frame.encode_of_fits h.1 h.2

/-- A message that has been encoded fits into a frame. -/
theorem fits_of_encode {message : Message} {bytes : ByteArray} (h : message.encode = .ok bytes) :
    message.Fits := by
  unfold encode Frame.encode at h
  split at h
  · cases h
  · rename_i hpayload
    split at h
    · cases h
    · rename_i hheader
      exact ⟨Nat.le_of_not_lt hpayload, Nat.le_of_not_lt hheader⟩

theorem bytes_of_encode {message : Message} {bytes : ByteArray} (h : message.encode = .ok bytes) :
    bytes = message.bytes := by
  rw [encode_of_fits (fits_of_encode h)] at h
  exact (Except.ok.inj h).symm

/-- A message that does not fit is not encoded. -/
theorem encode_of_not_fits {message : Message} (h : ¬ message.Fits) :
    ∃ fault, message.encode = .error fault := by
  cases hencode : message.encode with
  | error fault => exact ⟨fault, rfl⟩
  | ok bytes => exact absurd (fits_of_encode hencode) h

theorem sound_toFrame {message : Message} (h : message.Fits) : message.toFrame.Sound where
  version := rfl
  flags := if_pos (by decide : FrameFlags.none.withChecksum.bits &&& ~~~FrameFlags.checksumBit = 0)
  payload := h.1
  header := h.2

theorem ofFrame_toFrame (message : Message) : ofFrame message.toFrame = .ok message := by
  have hparse : Envelope.parse? message.toFrame.header = some message.envelope :=
    Envelope.parse?_text message.envelope
  simp only [ofFrame, hparse]
  rfl

/-- A message is taken off whole from the front of a buffer. -/
theorem decode_bytes {message : Message} (h : message.Fits) (rest : ByteArray) :
    decode (message.bytes ++ rest) = .taken (.ok message) rest := by
  have hframe := Frame.decode_bytes (sound_toFrame h) rest
  have hresult : (Except.ok message.toFrame : Except ProtocolError Frame).bind ofFrame =
      .ok message := ofFrame_toFrame message
  simp only [decode, bytes, hframe, hresult]

theorem decode_short {message : Message} (h : message.Fits) {buffer missing rest : ByteArray}
    (hbuffer : buffer ++ missing = message.bytes ++ rest)
    (hshort : buffer.size < message.bytes.size) : decode buffer = .needMore := by
  have hframe := Frame.decode_short (sound_toFrame h) hbuffer hshort
  simp only [decode, hframe]

theorem decode_empty : decode ByteArray.empty = .needMore := by
  have hframe : Frame.decode ByteArray.empty = .needMore := by
    rw [Frame.decode, if_pos (by decide)]
  simp only [decode, hframe]

/-- A message that has been taken off a buffer has a payload within the limit. -/
theorem payload_of_decode {buffer rest : ByteArray} {message : Message}
    (h : decode buffer = .taken (.ok message) rest) : message.payload.size ≤ maxPayloadSize := by
  unfold decode at h
  split at h
  · cases h
  · cases h
  · rename_i result rest' hframe
    injection h with hresult
    cases result with
    | error fault => cases hresult
    | ok frame =>
        have hmessage : ofFrame frame = .ok message := hresult
        unfold ofFrame at hmessage
        split at hmessage
        · cases hmessage
          exact Frame.payload_of_decode hframe
        · cases hmessage

/-! ## Messages that follow each other -/

/-- The bytes of messages that follow each other. -/
def spell : List Message → ByteArray
  | [] => ByteArray.empty
  | message :: messages => message.bytes ++ spell messages

theorem spell_append (messages others : List Message) :
    spell (messages ++ others) = spell messages ++ spell others := by
  induction messages with
  | nil => rw [List.nil_append, spell, ByteArray.empty_append]
  | cons message messages ih => rw [List.cons_append, spell, ih, spell, ByteArray.append_assoc]

theorem spell_singleton (message : Message) : spell [message] = message.bytes := by
  rw [spell, spell, ByteArray.append_empty]

/-- From a part of the bytes of messages, the first message is taken off, or nothing at all. -/
theorem decode_spell {messages : List Message} (hfits : ∀ message ∈ messages, message.Fits)
    {buffer missing : ByteArray} (hbuffer : buffer ++ missing = spell messages) :
    decode buffer = .needMore ∨
      ∃ message others rest, messages = message :: others ∧
        decode buffer = .taken (.ok message) rest ∧ rest ++ missing = spell others := by
  cases messages with
  | nil =>
      have hempty : buffer = ByteArray.empty := (ByteArray.append_eq_empty_iff.mp hbuffer).1
      exact Or.inl (hempty ▸ decode_empty)
  | cons message others =>
      have hmessage : message.Fits := hfits message List.mem_cons_self
      by_cases hshort : buffer.size < message.bytes.size
      · exact Or.inl (decode_short hmessage hbuffer hshort)
      · -- The buffer begins with the whole message.
        have hsplit : buffer = message.bytes ++ buffer.extract message.bytes.size buffer.size := by
          have hwhole := ByteArray.extract_eq_extract_append_extract (a := buffer) (i := 0)
            (k := buffer.size) message.bytes.size (Nat.zero_le _) (Nat.le_of_not_lt hshort)
          have hfront : buffer.extract 0 message.bytes.size = message.bytes := by
            have hleft : (message.bytes ++ spell others).extract 0 message.bytes.size =
                message.bytes := ByteArray.extract_append_eq_left rfl
            have hempty : missing.extract (0 - buffer.size) (message.bytes.size - buffer.size) =
                ByteArray.empty := by
              rw [ByteArray.extract_eq_empty_iff]
              omega
            have hpart : (buffer ++ missing).extract 0 message.bytes.size =
                buffer.extract 0 message.bytes.size ++
                  missing.extract (0 - buffer.size) (message.bytes.size - buffer.size) :=
              ByteArray.extract_append
            rw [hbuffer, spell, hleft, hempty, ByteArray.append_empty] at hpart
            exact hpart.symm
          rw [ByteArray.extract_zero_size, hfront] at hwhole
          exact hwhole
        refine Or.inr ⟨message, others, buffer.extract message.bytes.size buffer.size, rfl, ?_, ?_⟩
        · rw [hsplit]
          have hrest := decode_bytes hmessage (buffer.extract message.bytes.size buffer.size)
          rw [← hsplit] at hrest ⊢
          exact hrest
        · rw [hsplit, spell, ByteArray.append_assoc, ByteArray.append_right_inj] at hbuffer
          exact hbuffer

end Message

/-- A stream falls into what is taken from its front and what is left. -/
theorem extract_append_extract (bytes : ByteArray) (limit : Nat) :
    bytes.extract 0 limit ++ bytes.extract limit bytes.size = bytes := by
  by_cases hlimit : limit ≤ bytes.size
  · rw [← ByteArray.extract_eq_extract_append_extract limit (Nat.zero_le _) hlimit,
      ByteArray.extract_zero_size]
  · have hleft : bytes.extract limit bytes.size = ByteArray.empty :=
      ByteArray.extract_eq_empty_iff.2 (by omega)
    have hall : bytes.extract 0 (max limit bytes.size) = bytes := ByteArray.extract_zero_max_size
    rw [Nat.max_eq_left (by omega)] at hall
    rw [hleft, ByteArray.append_empty, hall]

namespace Decoder

open Message (spell)

/-- What a decoder reports of a result. -/
def Outcome.ofResult : Except ProtocolError Message → Outcome Message
  | .ok message => .item message
  | .error fault => .failed fault

/-- What is drained from a decoder, by what stands at the front of its buffer. -/
theorem drain_eq (decoder : Decoder) :
    decoder.drain = match Message.decode decoder.buffer with
      | .needMore => ([.needMore], decoder)
      | .refused fault => ([.failed fault], decoder)
      | .taken result rest => (.ofResult result :: (drain ⟨rest⟩).1, (drain ⟨rest⟩).2) := by
  rw [drain]
  split
  · rename_i hneed
    rw [hneed]
  · rename_i fault hrefused
    rw [hrefused]
  · rename_i result rest htaken
    cases result <;> simp only [htaken, Outcome.ofResult]

theorem drain_of_needMore {decoder : Decoder} (h : Message.decode decoder.buffer = .needMore) :
    decoder.drain = ([.needMore], decoder) := by
  rw [drain_eq, h]

theorem drain_of_taken {decoder : Decoder} {message : Message} {rest : ByteArray}
    (h : Message.decode decoder.buffer = .taken (.ok message) rest) :
    decoder.drain = (.item message :: (drain ⟨rest⟩).1, (drain ⟨rest⟩).2) := by
  rw [drain_eq, h]
  rfl

/-- A message that has been taken has a payload within the limit. -/
theorem payload_of_nextMessage {decoder next : Decoder} {message : Message}
    (h : decoder.nextMessage = (.item message, next)) : message.payload.size ≤ maxPayloadSize := by
  unfold nextMessage at h
  cases htaken : Message.decode decoder.buffer with
  | needMore =>
      rw [htaken] at h
      cases h
  | refused fault =>
      rw [htaken] at h
      cases h
  | taken result rest =>
      rw [htaken] at h
      cases result with
      | error fault => cases h
      | ok first =>
          cases h
          exact Message.payload_of_decode htaken

/-- From a part of the bytes of messages, the next message is taken off, or nothing at all. -/
theorem nextMessage_spell {messages : List Message} (hfits : ∀ message ∈ messages, message.Fits)
    {decoder : Decoder} {missing : ByteArray}
    (hbuffer : decoder.buffer ++ missing = spell messages) :
    decoder.nextMessage = (.needMore, decoder) ∨
      ∃ message others next, messages = message :: others ∧
        decoder.nextMessage = (.item message, next) ∧ next.buffer ++ missing = spell others := by
  rcases Message.decode_spell hfits hbuffer with
    hneed | ⟨message, others, rest, hcons, htaken, hrest⟩
  · left
    unfold nextMessage
    rw [hneed]
    rfl
  · refine Or.inr ⟨message, others, ⟨rest⟩, hcons, ?_, hrest⟩
    unfold nextMessage
    rw [htaken]
    rfl

/-- From a part of the bytes of messages, a reader takes off some of the messages in order, and
keeps a part of the bytes of the others. -/
theorem drain_spell {messages : List Message} (hfits : ∀ message ∈ messages, message.Fits)
    {decoder : Decoder} {missing : ByteArray}
    (hbuffer : decoder.buffer ++ missing = spell messages) :
    ∃ taken left, messages = taken ++ left ∧
      decoder.drain.1 = taken.map Outcome.item ++ [.needMore] ∧
      decoder.drain.2.buffer ++ missing = spell left := by
  induction messages generalizing decoder with
  | nil =>
      rcases Message.decode_spell hfits hbuffer with hneed | ⟨message, others, rest, hnil, -⟩
      · rw [drain_of_needMore hneed]
        exact ⟨[], [], rfl, rfl, hbuffer⟩
      · cases hnil
  | cons message messages ih =>
      rcases Message.decode_spell hfits hbuffer with
        hneed | ⟨first, others, rest, hcons, htaken, hrest⟩
      · rw [drain_of_needMore hneed]
        exact ⟨[], message :: messages, rfl, rfl, hbuffer⟩
      · cases hcons
        have hbehind : (Decoder.mk rest).buffer ++ missing = spell messages := hrest
        obtain ⟨taken, left, hsplit, hout, hleft⟩ :=
          ih (fun other hother => hfits other (List.mem_cons_of_mem _ hother)) hbehind
        rw [drain_of_taken htaken]
        refine ⟨message :: taken, left, ?_, ?_, hleft⟩
        · rw [hsplit, List.cons_append]
        · rw [hout, List.map_cons, List.cons_append]

/-- From all bytes of messages, a reader takes off all messages, and nothing is left. -/
theorem drain_spell_whole {messages : List Message} (hfits : ∀ message ∈ messages, message.Fits) :
    (Decoder.mk (spell messages)).drain =
      (messages.map Outcome.item ++ [.needMore], ⟨ByteArray.empty⟩) := by
  induction messages with
  | nil => exact drain_of_needMore Message.decode_empty
  | cons message messages ih =>
      have htaken : Message.decode (Decoder.mk (spell (message :: messages))).buffer =
          .taken (.ok message) (spell messages) :=
        Message.decode_bytes (hfits message List.mem_cons_self) _
      rw [drain_of_taken htaken, ih fun other hother => hfits other (List.mem_cons_of_mem _ hother)]
      rfl

end Decoder

end Switchboard
