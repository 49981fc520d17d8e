import Switchboard.Proofs.Streams

/-!
# Decoding

A decoder gives back what has been encoded, whatever names, numbers, texts and bytes a message holds
(`Message.nextMessage_encode`). What is found at the front of a buffer stays what it is when more
bytes arrive (`Frame.decode_append`, `Message.decode_append`). A stream is therefore read the same
in whatever portions it arrives (`Reading.feedAll_eq`), by a reader that stops at the first fault
that is not recoverable; and what such a reader finds at a time is what `Decoder.drain` finds
(`Decoder.drain_eq_readOut`).
-/

namespace Switchboard

/-! ## What has been encoded -/

namespace Message

/-- A message is encoded if and only if its envelope's text and its payload keep to the limits, and
a payload over its limit is reported before a text over its own. A decoder that holds the bytes of a
message and others behind them returns the message and keeps the others. -/
theorem nextMessage_encode (message : Message) (rest : ByteArray) :
    ((∃ bytes, message.encode = .ok bytes) ↔
      message.envelope.text.toUTF8.size ≤ maxHeaderSize ∧ message.payload.size ≤ maxPayloadSize) ∧
    (maxPayloadSize < message.payload.size →
      message.encode = .error (.payloadTooLong message.payload.size maxPayloadSize)) ∧
    (message.payload.size ≤ maxPayloadSize → maxHeaderSize < message.envelope.text.toUTF8.size →
      message.encode = .error (.headerTooLong message.envelope.text.toUTF8.size)) ∧
    ∀ bytes, message.encode = .ok bytes →
      (Decoder.mk (bytes ++ rest)).nextMessage = (.item message, ⟨rest⟩) := by
  refine ⟨⟨?_, ?_⟩, ?_, ?_, ?_⟩
  · rintro ⟨bytes, hencode⟩
    exact (fits_of_encode hencode).symm
  · intro hlimits
    exact ⟨message.bytes, encode_of_fits hlimits.symm⟩
  · intro hpayload
    exact if_pos hpayload
  · intro hpayload hheader
    exact (if_neg (Nat.not_lt.2 hpayload)).trans (if_pos hheader)
  · intro bytes hencode
    have htaken := decode_bytes (fits_of_encode hencode) rest
    rw [← bytes_of_encode hencode] at htaken
    simp only [Decoder.nextMessage, htaken, Decoder.settle]

/-- A message whose texts hold quotation marks, control characters and characters beyond ASCII. -/
def ornate : Message :=
  ⟨.hello 65535 "a\"\\\n\x01\x7f" (some "é€😀"), ⟨#[0, 73, 255]⟩⟩

theorem nextMessage_encode_ornate :
    ∃ bytes, ornate.encode = .ok bytes ∧
      (Decoder.mk (bytes ++ Frame.magic)).nextMessage = (.item ornate, ⟨Frame.magic⟩) := by
  obtain ⟨hencode, -, -, hread⟩ := nextMessage_encode ornate Frame.magic
  obtain ⟨bytes, hbytes⟩ := hencode.2 (by decide)
  exact ⟨bytes, hbytes, hread bytes hbytes⟩

end Message

/-! ## Bytes behind those at hand -/

namespace Frame

/-- The same result with more bytes behind what stays. -/
def Taken.followedBy {α : Type} (more : ByteArray) : Taken α → Taken α
  | .needMore => .needMore
  | .refused fault => .refused fault
  | .taken result rest => .taken result (rest ++ more)

theorem byteAt_append {buffer : ByteArray} (more : ByteArray) {i : Nat} (hi : i < buffer.size) :
    byteAt (buffer ++ more) i = byteAt buffer i := by
  have hlong : i < (buffer ++ more).size := by
    rw [ByteArray.size_append]
    omega
  simp only [byteAt, dif_pos hi, dif_pos hlong]
  exact ByteArray.getElem_append_left hi

theorem read16_append {buffer : ByteArray} (more : ByteArray) {i : Nat} (hi : i + 1 < buffer.size) :
    read16 (buffer ++ more) i = read16 buffer i := by
  simp only [read16, byteAt_append more hi, byteAt_append more (Nat.lt_of_succ_lt hi)]

theorem read32_append {buffer : ByteArray} (more : ByteArray) {i : Nat} (hi : i + 3 < buffer.size) :
    read32 (buffer ++ more) i = read32 buffer i := by
  have hone : i + 1 < buffer.size := by omega
  have htwo : i + 2 < buffer.size := by omega
  simp only [read32, byteAt_append more hi, byteAt_append more hone, byteAt_append more htwo,
    byteAt_append more (Nat.lt_of_succ_lt hone)]

/-- A part of a buffer is the same part when more bytes stand behind the buffer. -/
theorem extract_append_of_le {buffer : ByteArray} (more : ByteArray) {i j : Nat}
    (hj : j ≤ buffer.size) : (buffer ++ more).extract i j = buffer.extract i j := by
  have hempty : more.extract (i - buffer.size) (j - buffer.size) = ByteArray.empty := by
    rw [ByteArray.extract_eq_empty_iff]
    omega
  rw [ByteArray.extract_append, hempty, ByteArray.append_empty]

/-- A preamble announces what it announces, whatever comes behind. -/
theorem readPreamble_append {buffer : ByteArray} (more : ByteArray)
    (hsize : preambleSize ≤ buffer.size) : readPreamble (buffer ++ more) = readPreamble buffer := by
  have hbyte : ∀ i, i < preambleSize → byteAt (buffer ++ more) i = byteAt buffer i :=
    fun i hi => byteAt_append more (Nat.lt_of_lt_of_le hi hsize)
  have hword : ∀ i, i + 1 < preambleSize → read16 (buffer ++ more) i = read16 buffer i :=
    fun i hi => read16_append more (Nat.lt_of_lt_of_le hi hsize)
  have hlong : ∀ i, i + 3 < preambleSize → read32 (buffer ++ more) i = read32 buffer i :=
    fun i hi => read32_append more (Nat.lt_of_lt_of_le hi hsize)
  have hmagic : (buffer ++ more).extract 0 4 = buffer.extract 0 4 :=
    extract_append_of_le more (Nat.le_trans (by decide) hsize)
  simp only [readPreamble, hmagic, hbyte 0 (by decide), hbyte 1 (by decide), hbyte 2 (by decide),
    hbyte 3 (by decide), hword 4 (by decide), hword 6 (by decide), hword 8 (by decide),
    hlong 10 (by decide), hlong 14 (by decide)]

/-- What is decided about the front of a buffer stays decided when more bytes arrive. -/
theorem decode_append {buffer : ByteArray} (more : ByteArray) (h : decode buffer ≠ .needMore) :
    decode (buffer ++ more) = (decode buffer).followedBy more := by
  have hsize : ¬ buffer.size < preambleSize := fun hshort => h (if_pos hshort)
  have hsum : (buffer ++ more).size = buffer.size + more.size := ByteArray.size_append
  have hlong : ¬ (buffer ++ more).size < preambleSize := by omega
  have hpreamble := readPreamble_append more (Nat.le_of_not_lt hsize)
  unfold decode at h ⊢
  rw [if_neg hsize] at h ⊢
  rw [if_neg hlong, hpreamble]
  cases hread : readPreamble buffer with
  | error fault => rfl
  | ok announced =>
      rw [hread] at h
      have hwhole : ¬ buffer.size < announced.totalSize := fun hshort => h (if_pos hshort)
      have hstill : ¬ (buffer ++ more).size < announced.totalSize := by omega
      have hend : announced.totalSize ≤ buffer.size := Nat.le_of_not_lt hwhole
      have hheader := extract_append_of_le more (i := preambleSize)
        (Nat.le_trans (Nat.le_add_right (preambleSize + announced.headerSize) _) hend)
      have hpayload := extract_append_of_le more (i := preambleSize + announced.headerSize) hend
      -- What stays behind the frame ends with the bytes that have arrived.
      have hrest : (buffer ++ more).extract announced.totalSize (buffer ++ more).size =
          buffer.extract announced.totalSize buffer.size ++ more := by
        have hbehind : (buffer ++ more).extract buffer.size (buffer ++ more).size = more :=
          ByteArray.extract_append_eq_right rfl hsum
        rw [ByteArray.extract_eq_extract_append_extract buffer.size hend (by omega), hbehind,
          extract_append_of_le more (Nat.le_refl _)]
      simp only [if_neg hwhole, if_neg hstill, hheader, hpayload, hrest]
      split <;> rfl

/-! ## Which faults are recoverable -/

/-- A preamble that is refused leaves the stream out of step. -/
theorem isRecoverable_of_readPreamble {buffer : ByteArray} {fault : ProtocolError}
    (h : readPreamble buffer = .error fault) : fault.isRecoverable = false := by
  unfold readPreamble at h
  split at h
  · cases h
    rfl
  · split at h
    · cases h
      rfl
    · split at h
      · rename_i hflags
        unfold FrameFlags.ofBits at hflags
        split at hflags
        · cases hflags
        · cases hflags
          cases h
          rfl
      · simp only at h
        split at h
        · cases h
          rfl
        · cases h

theorem isRecoverable_of_refused {buffer : ByteArray} {fault : ProtocolError}
    (h : decode buffer = .refused fault) : fault.isRecoverable = false := by
  unfold decode at h
  split at h
  · cases h
  · split at h
    · rename_i hread
      cases h
      exact isRecoverable_of_readPreamble hread
    · simp only at h
      split at h
      · cases h
      · split at h <;> cases h

theorem isRecoverable_of_taken {buffer rest : ByteArray} {fault : ProtocolError}
    (h : decode buffer = .taken (.error fault) rest) : fault.isRecoverable = true := by
  unfold decode at h
  split at h
  · cases h
  · split at h
    · cases h
    · simp only at h
      split at h
      · cases h
      · split at h
        · cases h
          rfl
        · cases h

end Frame

namespace Message

theorem decode_append {buffer : ByteArray} (more : ByteArray) (h : decode buffer ≠ .needMore) :
    decode (buffer ++ more) = (decode buffer).followedBy more := by
  unfold decode at h ⊢
  cases hframe : Frame.decode buffer with
  | needMore =>
      rw [hframe] at h
      exact absurd rfl h
  | refused fault =>
      rw [Frame.decode_append more (by rw [hframe]; nofun), hframe]
      rfl
  | taken result rest =>
      rw [Frame.decode_append more (by rw [hframe]; nofun), hframe]
      rfl

theorem decode_append_of_refused {buffer : ByteArray} {fault : ProtocolError}
    (h : decode buffer = .refused fault) (more : ByteArray) :
    decode (buffer ++ more) = .refused fault := by
  rw [decode_append more (by simp [h]), h]
  rfl

theorem decode_append_of_taken {buffer rest : ByteArray} {result : Except ProtocolError Message}
    (h : decode buffer = .taken result rest) (more : ByteArray) :
    decode (buffer ++ more) = .taken result (rest ++ more) := by
  rw [decode_append more (by simp [h]), h]
  rfl

theorem isRecoverable_of_refused {buffer : ByteArray} {fault : ProtocolError}
    (h : decode buffer = .refused fault) : fault.isRecoverable = false := by
  unfold decode at h
  split at h
  · cases h
  · rename_i hframe
    cases h
    exact Frame.isRecoverable_of_refused hframe
  · cases h

theorem isRecoverable_of_taken {buffer rest : ByteArray} {fault : ProtocolError}
    (h : decode buffer = .taken (.error fault) rest) : fault.isRecoverable = true := by
  unfold decode at h
  split at h
  · cases h
  · cases h
  · rename_i result rest' hframe
    injection h with hresult hrest
    cases result with
    | error other =>
        cases hresult
        exact Frame.isRecoverable_of_taken hframe
    | ok frame =>
        have hmessage : ofFrame frame = .error fault := hresult
        unfold ofFrame at hmessage
        split at hmessage
        · cases hmessage
        · cases hmessage
          rfl

end Message

/-! ## Readers of a stream -/

/-- What a reader has found in a stream: the messages and the recoverable faults, in order, and how
the stream stands. -/
structure Reading where
  results : List (Except ProtocolError Message)
  /-- The bytes that are left, or the fault at which the reader has stopped. -/
  standing : Except ProtocolError ByteArray

namespace Reading

/-- The reading of a stream that has brought nothing yet. -/
def start : Reading := ⟨[], .ok ByteArray.empty⟩

/-- What has been found before a reading, and then the reading. -/
def behind (results : List (Except ProtocolError Message)) (reading : Reading) : Reading :=
  ⟨results ++ reading.results, reading.standing⟩

end Reading

namespace Decoder

/-- A result that does not end a reading leaves fewer bytes. -/
theorem size_lt_of_nextMessage {decoder next : Decoder} {outcome : Outcome Message}
    (h : decoder.nextMessage = (outcome, next))
    (hgoes : (∃ message, outcome = .item message) ∨
      ∃ fault, outcome = .failed fault ∧ fault.isRecoverable = true) :
    next.buffer.size < decoder.buffer.size := by
  unfold nextMessage at h
  cases htaken : Message.decode decoder.buffer with
  | needMore =>
      rw [htaken] at h
      cases h
      rcases hgoes with ⟨message, hitem⟩ | ⟨fault, hfailed, -⟩
      · cases hitem
      · cases hfailed
  | refused fault =>
      rw [htaken] at h
      cases h
      rcases hgoes with ⟨message, hitem⟩ | ⟨other, hfailed, hrecoverable⟩
      · cases hitem
      · cases hfailed
        rw [Message.isRecoverable_of_refused htaken] at hrecoverable
        cases hrecoverable
  | taken result rest =>
      rw [htaken] at h
      cases result <;> (cases h; exact Message.size_lt_of_decode_eq_taken htaken)

/-- A reader takes messages until more bytes are needed or it meets a fault that is not
recoverable. -/
def readOut (decoder : Decoder) : Reading :=
  match _h : decoder.nextMessage with
  | (.needMore, last) => ⟨[], .ok last.buffer⟩
  | (.item message, next) => (readOut next).behind [.ok message]
  | (.failed fault, next) =>
      if _hfault : fault.isRecoverable then (readOut next).behind [.error fault]
      else ⟨[], .error fault⟩
termination_by decoder.buffer.size
decreasing_by
  · exact size_lt_of_nextMessage _h (Or.inl ⟨message, rfl⟩)
  · exact size_lt_of_nextMessage _h (Or.inr ⟨fault, rfl, _hfault⟩)

/-- What a reader finds, by what stands at the front of its buffer. -/
theorem readOut_eq (decoder : Decoder) :
    decoder.readOut = match Message.decode decoder.buffer with
      | .needMore => ⟨[], .ok decoder.buffer⟩
      | .refused fault => ⟨[], .error fault⟩
      | .taken result rest => (readOut ⟨rest⟩).behind [result] := by
  have hnext : decoder.nextMessage = decoder.settle (Message.decode decoder.buffer) := rfl
  rw [readOut]
  cases htaken : Message.decode decoder.buffer with
  | needMore =>
      rw [htaken] at hnext
      split <;> simp_all [settle]
  | refused fault =>
      have hfault := Message.isRecoverable_of_refused htaken
      rw [htaken] at hnext
      split <;> simp_all [settle]
  | taken result rest =>
      rw [htaken] at hnext
      cases result with
      | ok message => split <;> simp_all [settle]
      | error fault =>
          have hfault := Message.isRecoverable_of_taken htaken
          split <;> simp_all [settle]

end Decoder

/-! ## Portions of a stream -/

namespace Reading

/-- More bytes arrive for a reader that has read out what it had. It goes on unless it has
stopped. -/
def feed (reading : Reading) (chunk : ByteArray) : Reading :=
  match reading.standing with
  | .error _ => reading
  | .ok left => ((Decoder.mk left).extend chunk).readOut.behind reading.results

theorem feed_behind (results : List (Except ProtocolError Message)) (reading : Reading)
    (chunk : ByteArray) :
    (reading.behind results).feed chunk = (reading.feed chunk).behind results := by
  obtain ⟨found, standing⟩ := reading
  cases standing with
  | error fault => rfl
  | ok left => simp only [feed, behind, List.append_assoc]

/-- Bytes that are read out together with those before them are found as if they had come later. -/
theorem readOut_append (buffer more : ByteArray) :
    (Decoder.mk (buffer ++ more)).readOut = (Decoder.mk buffer).readOut.feed more := by
  -- The induction follows the reader: each result leaves a shorter buffer.
  induction hsize : buffer.size using Nat.strongRecOn generalizing buffer with
  | ind size ih =>
      cases htaken : Message.decode buffer with
      | needMore =>
          have hleft : (Decoder.mk buffer).readOut = ⟨[], .ok buffer⟩ := by
            rw [Decoder.readOut_eq, htaken]
          rw [hleft]
          rfl
      | refused fault =>
          have hleft : (Decoder.mk buffer).readOut = ⟨[], .error fault⟩ := by
            rw [Decoder.readOut_eq, htaken]
          rw [hleft, Decoder.readOut_eq, Message.decode_append_of_refused htaken]
          rfl
      | taken result rest =>
          have hleft : (Decoder.mk buffer).readOut = (Decoder.mk rest).readOut.behind [result] := by
            rw [Decoder.readOut_eq, htaken]
          have hshorter : rest.size < size := hsize ▸ Message.size_lt_of_decode_eq_taken htaken
          have hrest := ih rest.size hshorter rest rfl
          rw [hleft, feed_behind, ← hrest, Decoder.readOut_eq,
            Message.decode_append_of_taken htaken]

/-- The stream that is made of portions. -/
def joined : List ByteArray → ByteArray
  | [] => ByteArray.empty
  | chunk :: chunks => chunk ++ joined chunks

theorem feedAll_readOut (buffer : ByteArray) (chunks : List ByteArray) :
    chunks.foldl feed (Decoder.mk buffer).readOut =
      (Decoder.mk (buffer ++ joined chunks)).readOut := by
  induction chunks generalizing buffer with
  | nil => rw [joined, ByteArray.append_empty, List.foldl_nil]
  | cons chunk chunks ih =>
      rw [List.foldl_cons, ← readOut_append, ih, joined, ByteArray.append_assoc]

/-- However a stream is cut into portions, a reader that reads out what it has after each of them
finds the same messages and recoverable faults in the same order, stops at the same fault if it
stops, and else has the same bytes left, as a reader that is given the whole stream at once. -/
theorem feedAll_eq (chunks : List ByteArray) :
    chunks.foldl feed start = start.feed (joined chunks) := by
  have hstart : start = (Decoder.mk ByteArray.empty).readOut := by
    rw [Decoder.readOut_eq, Message.decode_empty]
    rfl
  rw [hstart, feedAll_readOut, readOut_append]

/-- A reading as a decoder reports it: its results one by one, and then why it goes no further. -/
def outcomes (reading : Reading) : List (Decoder.Outcome Message) :=
  reading.results.map (fun
    | .ok message => .item message
    | .error fault => .failed fault) ++
  [match reading.standing with
    | .ok _ => .needMore
    | .error fault => .failed fault]

end Reading

namespace Decoder

/-- What is drained from a decoder is what a reader finds in it, and the decoder keeps what is
left. -/
theorem drain_eq_readOut (decoder : Decoder) :
    decoder.drain.1 = decoder.readOut.outcomes ∧
      ∀ left, decoder.readOut.standing = .ok left → decoder.drain.2 = ⟨left⟩ := by
  induction hsize : decoder.buffer.size using Nat.strongRecOn generalizing decoder with
  | ind size ih =>
      rw [drain]
      split
      · rename_i hneed
        have hread : decoder.readOut = ⟨[], .ok decoder.buffer⟩ := by rw [readOut_eq, hneed]
        rw [hread]
        refine ⟨rfl, fun left hleft => ?_⟩
        cases hleft
        rfl
      · rename_i fault hrefused
        have hread : decoder.readOut = ⟨[], .error fault⟩ := by rw [readOut_eq, hrefused]
        rw [hread]
        exact ⟨rfl, fun left hleft => nomatch hleft⟩
      · rename_i result rest htaken
        have hread : decoder.readOut = (readOut ⟨rest⟩).behind [result] := by
          rw [readOut_eq, htaken]
        have hshorter : rest.size < size := hsize ▸ Message.size_lt_of_decode_eq_taken htaken
        obtain ⟨hresults, hleft⟩ := ih rest.size hshorter ⟨rest⟩ rfl
        rw [hread]
        refine ⟨?_, hleft⟩
        cases result <;> simp only [hresults, Reading.outcomes, Reading.behind, List.map_cons,
          List.nil_append, List.cons_append]

end Decoder

end Switchboard
