import Switchboard.Proofs.Acceptance
import Switchboard.Proofs.Resynchronisation

/-!
# Draining

One call of a decoder either leaves its buffer as it is, or takes off the frame that the preamble at
the front announces, no byte more and no byte less; and of the faults it reports, the recoverable
ones are those behind which a frame is gone (`Decoder.halts_or_consumes`,
`Decoder.isRecoverable_iff_consumes`). A frame has eighteen bytes at least, so that the calls come
to an end, and what `Decoder.drain` returns are their results (`Decoder.exists_drains`).

What a drained decoder keeps is the front of one frame. However much a peer sends, this is less than
the largest frame that a preamble within the limits can announce (`Decoder.buffered_of_chunks`).
-/

namespace Switchboard

namespace Frame

/-- The number of bytes of the frame whose preamble stands at the front of a buffer: the eighteen of
the preamble, and the two lengths that it announces. -/
def announcedSize (buffer : ByteArray) : Nat :=
  18 + (read16 buffer 8).toNat + (read32 buffer 10).toNat

theorem totalSize_of_readPreamble {buffer : ByteArray} {announced : Announced}
    (h : readPreamble buffer = .ok announced) : announced.totalSize = announcedSize buffer := by
  have hfields := announces_of_readPreamble h
  rw [Announced.totalSize, hfields.headerSize, hfields.payloadSize, preambleSize, announcedSize]

/-- The largest frame that a preamble within the limits announces. -/
theorem Announces.totalSize_le {buffer : ByteArray} {announced : Announced}
    (h : Announces buffer announced) : announced.totalSize ≤ 18 + 65535 + 16777216 := by
  have hheader : announced.headerSize ≤ 65535 := by
    rw [h.headerSize]
    exact Nat.le_of_lt_succ (read16 buffer 8).toNat_lt
  have hpayload : announced.payloadSize ≤ 16777216 := h.limit
  simp only [Announced.totalSize, preambleSize]
  omega

/-- What is taken off a buffer is the frame that is announced there. -/
theorem rest_of_decode {buffer rest : ByteArray} {result : Except ProtocolError Frame}
    (h : decode buffer = .taken result rest) :
    announcedSize buffer ≤ buffer.size ∧
      rest = buffer.extract (announcedSize buffer) buffer.size := by
  rw [decode] at h
  split at h
  · cases h
  split at h
  · cases h
  rename_i announced hread
  have htotal := totalSize_of_readPreamble hread
  simp only at h
  split at h
  · cases h
  rename_i hwhole
  rw [htotal] at hwhole h
  refine ⟨Nat.le_of_not_lt hwhole, ?_⟩
  split at h <;> (cases h; rfl)

/-- More bytes are needed if and only if there is no whole preamble, or a preamble in order
announces more bytes than there are. -/
theorem decode_eq_needMore_iff {buffer : ByteArray} :
    decode buffer = .needMore ↔ buffer.size < 18 ∨
      ∃ announced, readPreamble buffer = .ok announced ∧ buffer.size < announced.totalSize := by
  by_cases hshort : buffer.size < preambleSize
  · have hdecode : decode buffer = .needMore := if_pos hshort
    exact iff_of_true hdecode (Or.inl hshort)
  have hlong : ¬ buffer.size < 18 := hshort
  rw [decode, if_neg hshort]
  cases hread : readPreamble buffer with
  | error fault => simp [hlong]
  | ok announced =>
      by_cases hpart : buffer.size < announced.totalSize
      · simp [hpart]
      · simp only [Except.ok.injEq, exists_eq_left', hpart, hlong, or_false, iff_false, if_false]
        split <;> simp

end Frame

namespace Message

theorem decode_eq_needMore_iff {buffer : ByteArray} :
    decode buffer = .needMore ↔ Frame.decode buffer = .needMore := by
  rw [decode]
  cases Frame.decode buffer <;> simp

/-- A message, or a header that is none, goes off the buffer with its frame. -/
theorem rest_of_decode {buffer rest : ByteArray} {result : Except ProtocolError Message}
    (h : decode buffer = .taken result rest) :
    Frame.announcedSize buffer ≤ buffer.size ∧
      rest = buffer.extract (Frame.announcedSize buffer) buffer.size := by
  rw [decode] at h
  split at h
  · cases h
  · cases h
  · rename_i hframe
    cases h
    exact Frame.rest_of_decode hframe

end Message

namespace Decoder

/-! ## One call -/

/-- Results behind which a reader calls again: a message, or a fault that is recoverable. -/
inductive Outcome.GoesOn : Outcome Message → Prop
  | item (message : Message) : GoesOn (.item message)
  | skipped (fault : ProtocolError) (hfault : fault.isRecoverable = true) : GoesOn (.failed fault)

/-- Results at which a reader stops: more bytes are needed, or a fault is not recoverable. -/
inductive Outcome.Halts : Outcome Message → Prop
  | needMore : Halts .needMore
  | broken (fault : ProtocolError) (hfault : fault.isRecoverable = false) : Halts (.failed fault)

/-- The first frame has been taken off: as many bytes as its preamble announces, and all of them
were there. -/
structure Consumes (decoder next : Decoder) : Prop where
  whole : Frame.announcedSize decoder.buffer ≤ decoder.buffer.size
  rest : next.buffer =
    decoder.buffer.extract (Frame.announcedSize decoder.buffer) decoder.buffer.size

/-- A frame has eighteen bytes at least. -/
theorem Consumes.size_add_le {decoder next : Decoder} (h : Consumes decoder next) :
    next.buffer.size + 18 ≤ decoder.buffer.size := by
  have hwhole := h.whole
  rw [h.rest, ByteArray.size_extract]
  rw [Frame.announcedSize] at hwhole ⊢
  omega

theorem not_consumes_self (decoder : Decoder) : ¬ Consumes decoder decoder := fun h => by
  have hsize := h.size_add_le
  omega

/-- One call stops and leaves the decoder as it is, or takes a frame off and goes on. -/
theorem halts_or_consumes (decoder : Decoder) :
    (decoder.nextMessage.1.Halts ∧ decoder.nextMessage.2 = decoder) ∨
      (decoder.nextMessage.1.GoesOn ∧ Consumes decoder decoder.nextMessage.2) := by
  rw [nextMessage]
  cases htaken : Message.decode decoder.buffer with
  | needMore => exact Or.inl ⟨.needMore, rfl⟩
  | refused fault => exact Or.inl ⟨.broken fault (Message.isRecoverable_of_refused htaken), rfl⟩
  | taken result rest =>
      obtain ⟨hwhole, hrest⟩ := Message.rest_of_decode htaken
      have hconsumes : Consumes decoder ⟨rest⟩ := ⟨hwhole, hrest⟩
      cases result with
      | ok message => exact Or.inr ⟨.item message, hconsumes⟩
      | error fault =>
          exact Or.inr ⟨.skipped fault (Message.isRecoverable_of_taken htaken), hconsumes⟩

/-- A fault that a decoder reports is recoverable if and only if the frame has been taken off. -/
theorem isRecoverable_iff_consumes {decoder : Decoder} {fault : ProtocolError}
    (h : decoder.nextMessage.1 = .failed fault) :
    fault.isRecoverable = true ↔ Consumes decoder decoder.nextMessage.2 := by
  rcases halts_or_consumes decoder with ⟨hhalts, hsame⟩ | ⟨hgoes, hconsumes⟩
  · rw [h] at hhalts
    cases hhalts with
    | broken _ hfault => simp [hfault, hsame, not_consumes_self]
  · rw [h] at hgoes
    cases hgoes with
    | skipped _ hfault => exact iff_of_true hfault hconsumes

/-! ## Calls until a reader stops -/

/-- The decoder behind so many calls. -/
def after (decoder : Decoder) (calls : Nat) : Decoder := (fun d => d.nextMessage.2)^[calls] decoder

/-- The result of the call behind so many others. -/
def outcomeAt (decoder : Decoder) (calls : Nat) : Outcome Message :=
  (decoder.after calls).nextMessage.1

/-- `count` calls have gone on and the one behind them stops; draining returns the results of all of
them, and the decoder as the last call has left it. -/
structure Drains (decoder : Decoder) (count : Nat) : Prop where
  goesOn : ∀ calls < count, (decoder.outcomeAt calls).GoesOn
  halts : (decoder.outcomeAt count).Halts
  kept : decoder.after (count + 1) = decoder.after count
  drained : decoder.drain = ((List.range (count + 1)).map decoder.outcomeAt, decoder.after count)

theorem drains_zero {decoder : Decoder} (hhalts : decoder.nextMessage.1.Halts)
    (hsame : decoder.nextMessage.2 = decoder) : Drains decoder 0 where
  goesOn := fun calls hcalls => absurd hcalls (Nat.not_lt_zero calls)
  halts := hhalts
  kept := hsame
  drained := by
    have hone : (List.range (0 + 1)).map decoder.outcomeAt = [decoder.nextMessage.1] := rfl
    rw [hone, drain_eq]
    rw [nextMessage] at hhalts ⊢
    cases htaken : Message.decode decoder.buffer with
    | needMore => rfl
    | refused fault => rfl
    | taken result rest =>
        have hshorter := Message.size_lt_of_decode_eq_taken htaken
        have hrest : decoder.nextMessage.2.buffer = rest := by
          rw [nextMessage, htaken]
          cases result <;> rfl
        rw [← hrest, hsame] at hshorter
        exact absurd hshorter (Nat.lt_irrefl _)

theorem drains_succ {decoder : Decoder} {count : Nat} (hgoes : decoder.nextMessage.1.GoesOn)
    (hnext : Drains decoder.nextMessage.2 count) : Drains decoder (count + 1) where
  goesOn := by
    intro calls hcalls
    cases calls with
    | zero => exact hgoes
    | succ calls => exact hnext.goesOn calls (Nat.lt_of_succ_lt_succ hcalls)
  halts := hnext.halts
  kept := hnext.kept
  drained := by
    have hdrain : decoder.drain =
        (decoder.nextMessage.1 :: decoder.nextMessage.2.drain.1,
          decoder.nextMessage.2.drain.2) := by
      rw [drain_eq]
      rw [nextMessage] at hgoes ⊢
      cases htaken : Message.decode decoder.buffer with
      | needMore =>
          rw [htaken] at hgoes
          cases hgoes
      | refused fault =>
          rw [htaken] at hgoes
          cases hgoes with
          | skipped _ hfault =>
              rw [Message.isRecoverable_of_refused htaken] at hfault
              cases hfault
      | taken result rest => cases result <;> rfl
    have hresults : (List.range (count + 1 + 1)).map decoder.outcomeAt =
        decoder.nextMessage.1 :: (List.range (count + 1)).map decoder.nextMessage.2.outcomeAt := by
      rw [List.range_succ_eq_map, List.map_cons, List.map_map]
      rfl
    rw [hdrain, hnext.drained, hresults]
    rfl

/-- The calls come to an end, behind one frame for every eighteen bytes at most. -/
theorem exists_drains (decoder : Decoder) :
    ∃ count, count ≤ decoder.buffer.size / 18 ∧ Drains decoder count := by
  -- Each frame that is taken off leaves a buffer that is shorter by eighteen bytes or more.
  induction hsize : decoder.buffer.size using Nat.strongRecOn generalizing decoder with
  | ind size ih =>
      rcases halts_or_consumes decoder with ⟨hhalts, hsame⟩ | ⟨hgoes, hconsumes⟩
      · exact ⟨0, Nat.zero_le _, drains_zero hhalts hsame⟩
      · have hshorter := hconsumes.size_add_le
        obtain ⟨count, hcount, hdrains⟩ :=
          ih decoder.nextMessage.2.buffer.size (by omega) decoder.nextMessage.2 rfl
        exact ⟨count + 1, by omega, drains_succ hgoes hdrains⟩

/-- A call that needs more bytes or meets a fault that is not recoverable leaves the buffer as it
is; a call that returns a message or a recoverable fault takes off the bytes of the frame that the
preamble announces, and no others; and a fault is recoverable if and only if the frame has been
taken off. The loop of calls ends on every buffer, behind at most one frame for every eighteen
bytes, and what it finds is what draining returns. -/
theorem draining_realigns (decoder : Decoder) :
    ((decoder.nextMessage.1.Halts ∧ decoder.nextMessage.2 = decoder) ∨
      (decoder.nextMessage.1.GoesOn ∧ Consumes decoder decoder.nextMessage.2)) ∧
    (∀ fault, decoder.nextMessage.1 = .failed fault →
      (fault.isRecoverable = true ↔ Consumes decoder decoder.nextMessage.2)) ∧
    ∃ count, count ≤ decoder.buffer.size / 18 ∧ Drains decoder count :=
  ⟨halts_or_consumes decoder, fun _ => isRecoverable_iff_consumes, exists_drains decoder⟩

/-- A frame under a checksum that is off by one. -/
def offByOne : Frame.checked.Damage where
  stored := Frame.checksum Frame.checked.header Frame.checked.payload + 1
  header := Frame.checked.header
  payload := Frame.checked.payload
  size_header := rfl
  size_payload := rfl
  differs := by simp

/-- The frame is reported and is gone. -/
theorem draining_realigns_offByOne :
    ∃ fault, (Decoder.mk (offByOne.bytes ++ Frame.magic)).nextMessage.1 = .failed fault ∧
      fault.isRecoverable = true ∧
      Consumes ⟨offByOne.bytes ++ Frame.magic⟩
        (Decoder.mk (offByOne.bytes ++ Frame.magic)).nextMessage.2 := by
  have hsound : Frame.checked.Sound := ⟨rfl, rfl, by decide, by decide⟩
  have htaken := (Piece.damaged Frame.checked hsound rfl offByOne).decode_bytes Frame.magic
  have hfailed : (Decoder.mk (offByOne.bytes ++ Frame.magic)).nextMessage.1 =
      .failed (.checksumMismatch offByOne.stored
        (Frame.checksum offByOne.header offByOne.payload)) := by
    rw [nextMessage]
    exact congrArg (fun taken => (settle _ taken).1) htaken
  have hiff := (draining_realigns ⟨offByOne.bytes ++ Frame.magic⟩).2.1 _ hfailed
  exact ⟨_, hfailed, rfl, hiff.mp rfl⟩

/-! ## What a drained decoder keeps -/

/-- Whether a result says that the stream is out of step. -/
def Outcome.isBroken : Outcome Message → Bool
  | .failed fault => !fault.isRecoverable
  | _ => false

/-- A chunk arrives and the decoder is drained: nothing if draining meets a fault that is not
recoverable, else the decoder as it is then. -/
def absorb? (decoder : Decoder) (chunk : ByteArray) : Option Decoder :=
  if (decoder.extend chunk).drain.1.any Outcome.isBroken then none
  else some (decoder.extend chunk).drain.2

theorem decode_of_nextMessage {decoder : Decoder} (h : decoder.nextMessage.1 = .needMore) :
    Message.decode decoder.buffer = .needMore := by
  rw [nextMessage] at h
  cases htaken : Message.decode decoder.buffer with
  | needMore => rfl
  | refused fault =>
      rw [htaken] at h
      cases h
  | taken result rest =>
      rw [htaken] at h
      cases result <;> cases h

/-- A decoder that has been drained without such a fault needs more bytes. -/
theorem decode_of_absorb? {decoder next : Decoder} {chunk : ByteArray}
    (h : decoder.absorb? chunk = some next) : Message.decode next.buffer = .needMore := by
  obtain ⟨count, -, hdrains⟩ := exists_drains (decoder.extend chunk)
  rw [absorb?, hdrains.drained] at h
  split at h
  · cases h
  rename_i hunbroken
  cases h
  apply decode_of_nextMessage
  have hhalts := hdrains.halts
  have hlast : (decoder.extend chunk).outcomeAt count ∈
      (List.range (count + 1)).map (decoder.extend chunk).outcomeAt :=
    List.mem_map_of_mem (List.mem_range.mpr (Nat.lt_succ_self count))
  change (decoder.extend chunk).outcomeAt count = .needMore
  cases hresult : (decoder.extend chunk).outcomeAt count with
  | needMore => rfl
  | item message =>
      rw [hresult] at hhalts
      cases hhalts
  | failed fault =>
      rw [hresult] at hhalts hlast
      cases hhalts with
      | broken _ hfault =>
          refine absurd (List.any_eq_true.mpr ⟨_, hlast, ?_⟩) hunbroken
          rw [Outcome.isBroken, hfault]
          rfl

/-- The front of one frame: less than a preamble, or a preamble in order and less than the frame
that it announces. -/
def KeepsFront (decoder : Decoder) : Prop :=
  18 ≤ decoder.buffered → ∃ announced, Frame.Announces decoder.buffer announced ∧
    decoder.buffered < announced.totalSize

theorem keepsFront_of_decode {decoder : Decoder}
    (h : Message.decode decoder.buffer = .needMore) : decoder.KeepsFront := by
  intro hlong
  rcases Frame.decode_eq_needMore_iff.mp (Message.decode_eq_needMore_iff.mp h) with
    hshort | ⟨announced, hread, hpart⟩
  · exact absurd hshort (Nat.not_lt.mpr hlong)
  · exact ⟨announced, Frame.announces_of_readPreamble hread, hpart⟩

/-- The front of a frame is shorter than the largest frame that can be announced. -/
theorem KeepsFront.buffered_le {decoder : Decoder} (h : decoder.KeepsFront) :
    decoder.buffered ≤ 18 + 65535 + 16777216 - 1 := by
  by_cases hlong : 18 ≤ decoder.buffered
  · obtain ⟨announced, hannounces, hpart⟩ := h hlong
    have hlimit := hannounces.totalSize_le
    omega
  · omega

theorem keepsFront_new : Decoder.new.KeepsFront := keepsFront_of_decode Message.decode_empty

/-- What a decoder keeps that is drained behind each of the chunks in which a stream arrives. -/
theorem keepsFront_of_chunks {chunks : List ByteArray} {decoder next : Decoder}
    (hdecoder : decoder.KeepsFront) (h : chunks.foldlM absorb? decoder = some next) :
    next.KeepsFront := by
  induction chunks generalizing decoder with
  | nil =>
      cases h
      exact hdecoder
  | cons chunk chunks ih =>
      rw [List.foldlM_cons, Option.bind_eq_bind, Option.bind_eq_some_iff] at h
      obtain ⟨middle, hfirst, hothers⟩ := h
      exact ih (keepsFront_of_decode (decode_of_absorb? hfirst)) hothers

/-- A stream arrives in chunks of at most `c` bytes, and as far as `before` goes draining has met no
fault that is not recoverable. What the decoder keeps is then shorter than the largest frame that a
preamble within the limits can announce, when eighteen bytes or more are kept they begin with such a
preamble and the frame it announces is not there whole, and the next chunk, whatever draining finds
in it, adds `c` bytes at most. -/
theorem buffered_of_chunks {c : Nat} {chunks before behind : List ByteArray}
    (hchunks : ∀ chunk ∈ chunks, chunk.size ≤ c) (hcut : chunks = before ++ behind)
    {decoder : Decoder} (hread : before.foldlM absorb? .new = some decoder) :
    decoder.buffered ≤ 18 + 65535 + 16777216 - 1 ∧
      (18 ≤ decoder.buffered → ∃ announced, Frame.Announces decoder.buffer announced ∧
        decoder.buffered < announced.totalSize) ∧
      ∀ chunk ∈ behind.head?, (decoder.extend chunk).buffered ≤ 18 + 65535 + 16777216 - 1 + c := by
  have hkeeps := keepsFront_of_chunks keepsFront_new hread
  refine ⟨hkeeps.buffered_le, hkeeps, ?_⟩
  intro chunk hchunk
  have hmem : chunk ∈ chunks := by
    rw [hcut]
    exact List.mem_append_right _ (List.mem_of_mem_head? hchunk)
  have hsize := hchunks chunk hmem
  have hkept := hkeeps.buffered_le
  rw [buffered, extend, ByteArray.size_append]
  rw [buffered] at hkept
  omega

/-- A preamble that announces the largest frame there can be. -/
def greedy : ByteArray :=
  ⟨#[0x49, 0x52, 0x53, 0x58, 0, 1, 0, 1, 0xff, 0xff, 1, 0, 0, 0, 0, 0, 0, 0]⟩

/-- Behind the preamble of the largest frame a decoder waits, and it takes all that comes. -/
theorem buffered_of_chunks_greedy :
    [greedy].foldlM absorb? .new = some ⟨greedy⟩ ∧ (Decoder.mk greedy).buffered = 18 ∧
      (∃ announced, Frame.Announces greedy announced ∧
        (Decoder.mk greedy).buffered < announced.totalSize) ∧
      ((Decoder.mk greedy).extend greedy).buffered ≤ 18 + 65535 + 16777216 - 1 + 18 := by
  have hneed : Message.decode greedy = .needMore := by
    have hframe : Frame.decode greedy = .needMore := by rfl
    rw [Message.decode, hframe]
  have hdrain : (Decoder.mk greedy).drain = ([.needMore], ⟨greedy⟩) := drain_of_needMore hneed
  have hextend : Decoder.new.extend greedy = ⟨greedy⟩ := rfl
  have hread : [greedy].foldlM absorb? .new = some ⟨greedy⟩ := by
    rw [List.foldlM_cons, absorb?, hextend, hdrain]
    rfl
  have hchunks : ∀ chunk ∈ [greedy, greedy], chunk.size ≤ 18 := by
    intro chunk hchunk
    have hgreedy : chunk = greedy := by simpa using hchunk
    rw [hgreedy]
    exact Nat.le_refl _
  have hcut : [greedy, greedy] = [greedy] ++ [greedy] := rfl
  obtain ⟨-, hfront, hnext⟩ := buffered_of_chunks hchunks hcut hread
  exact ⟨hread, rfl, hfront (Nat.le_refl _), hnext greedy rfl⟩

end Decoder

end Switchboard
