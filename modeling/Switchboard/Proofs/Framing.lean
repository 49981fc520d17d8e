import Switchboard.Message
import Switchboard.Proofs.EnvelopeText

/-!
# Taking off the frames that were written

The fields of a preamble are read as the numbers that were written there. A frame that keeps to the
limits is therefore taken off whole from the front of any buffer that begins with it, whether its
checksum is right or not (`decode_bytesWith`), and as long as a part of it is missing nothing is
taken (`decode_short`).
-/

namespace Switchboard

namespace Frame

/-! ## Numbers in network byte order -/

/-- Eight bits cut out of a word and put back where they were. -/
theorem getLsbD_byte {w : Nat} (n : BitVec w) (k : Nat) {i : Nat} (hi : i < w) :
    ((((n >>> k).setWidth 8).setWidth w) <<< k).getLsbD i =
      (decide (k ≤ i ∧ i < k + 8) && n.getLsbD i) := by
  simp only [BitVec.getLsbD_shiftLeft, BitVec.getLsbD_setWidth, BitVec.getLsbD_ushiftRight, hi]
  by_cases hk : k ≤ i
  · have hsum : k + (i - k) = i := by omega
    have hlt : i - k < w := by omega
    have hbyte : i - k < 8 ↔ i < k + 8 := by omega
    have hnot : ¬ i < k := by omega
    simp [hk, hsum, hlt, hbyte, hnot]
  · have hlt : i < k := by omega
    simp [hk, hlt]

/-- A 16-bit number is put together from its bytes. -/
theorem join16 (n : UInt16) : (n >>> 8).toUInt8.toUInt16 <<< 8 ||| n.toUInt8.toUInt16 = n := by
  apply UInt16.toBitVec_inj.mp
  apply BitVec.eq_of_getLsbD_eq
  intro i hi
  have hhigh := getLsbD_byte n.toBitVec 8 hi
  have hlow := getLsbD_byte n.toBitVec 0 hi
  rw [BitVec.shiftLeft_zero, BitVec.ushiftRight_zero] at hlow
  have hshift : ((8 : UInt16).toBitVec % 16).toNat = 8 := rfl
  simp only [UInt16.toBitVec_or, UInt16.toBitVec_shiftLeft, UInt8.toBitVec_toUInt16,
    UInt16.toBitVec_toUInt8, UInt16.toBitVec_shiftRight, BitVec.getLsbD_or, BitVec.shiftLeft_eq',
    BitVec.ushiftRight_eq', hshift, hhigh, hlow]
  cases n.toBitVec.getLsbD i
  · simp
  · simp only [Bool.and_true, Bool.or_eq_true, decide_eq_true_eq]
    omega

/-- A 32-bit number is put together from its bytes. -/
theorem join32 (n : UInt32) :
    (n >>> 24).toUInt8.toUInt32 <<< 24 ||| (n >>> 16).toUInt8.toUInt32 <<< 16 |||
      (n >>> 8).toUInt8.toUInt32 <<< 8 ||| n.toUInt8.toUInt32 = n := by
  apply UInt32.toBitVec_inj.mp
  apply BitVec.eq_of_getLsbD_eq
  intro i hi
  have hfirst := getLsbD_byte n.toBitVec 24 hi
  have hsecond := getLsbD_byte n.toBitVec 16 hi
  have hthird := getLsbD_byte n.toBitVec 8 hi
  have hlast := getLsbD_byte n.toBitVec 0 hi
  rw [BitVec.shiftLeft_zero, BitVec.ushiftRight_zero] at hlast
  have hshift24 : ((24 : UInt32).toBitVec % 32).toNat = 24 := rfl
  have hshift16 : ((16 : UInt32).toBitVec % 32).toNat = 16 := rfl
  have hshift8 : ((8 : UInt32).toBitVec % 32).toNat = 8 := rfl
  simp only [UInt32.toBitVec_or, UInt32.toBitVec_shiftLeft, UInt8.toBitVec_toUInt32,
    UInt32.toBitVec_toUInt8, UInt32.toBitVec_shiftRight, BitVec.getLsbD_or, BitVec.shiftLeft_eq',
    BitVec.ushiftRight_eq', hshift24, hshift16, hshift8, hfirst, hsecond, hthird, hlast]
  cases n.toBitVec.getLsbD i
  · simp
  · simp only [Bool.and_true, Bool.or_eq_true, decide_eq_true_eq]
    omega

/-! ## Preambles -/

/-- A frame that a writer sends and a reader takes: of this version, with no flag but the one of the
checksum, and within the limits. -/
structure Sound (frame : Frame) : Prop where
  version : frame.version = protocolVersion
  flags : FrameFlags.ofBits frame.flags.bits = .ok frame.flags
  payload : frame.payload.size ≤ maxPayloadSize
  header : frame.header.size ≤ maxHeaderSize

/-- The bytes of a frame, whether it keeps to the limits or not. -/
def bytes (frame : Frame) : ByteArray := frame.preamble ++ frame.header ++ frame.payload

/-- The fourteen bytes of a frame before its checksum. -/
def front (frame : Frame) : ByteArray :=
  magic ++ bytes16 frame.version ++ bytes16 frame.flags.bits ++
    bytes16 frame.header.size.toUInt16 ++ bytes32 frame.payload.size.toUInt32

/-- The bytes of a frame with `stored` in the field of its checksum. -/
def bytesWith (frame : Frame) (stored : UInt32) : ByteArray :=
  frame.front ++ bytes32 stored ++ frame.header ++ frame.payload

theorem bytes_eq_bytesWith (frame : Frame) :
    frame.bytes = frame.bytesWith frame.checksumField := rfl

theorem encode_of_fits {frame : Frame} (hpayload : frame.payload.size ≤ maxPayloadSize)
    (hheader : frame.header.size ≤ maxHeaderSize) : frame.encode = .ok frame.bytes := by
  rw [encode, if_neg (Nat.not_lt.mpr hpayload), if_neg (Nat.not_lt.mpr hheader), bytes]

/-- The eighteen bytes before the header, one by one. -/
theorem front_append_eq (frame : Frame) (stored : UInt32) :
    frame.front ++ bytes32 stored =
      ⟨#[0x49, 0x52, 0x53, 0x58, (frame.version >>> 8).toUInt8, frame.version.toUInt8,
        (frame.flags.bits >>> 8).toUInt8, frame.flags.bits.toUInt8,
        (frame.header.size.toUInt16 >>> 8).toUInt8, frame.header.size.toUInt16.toUInt8,
        (frame.payload.size.toUInt32 >>> 24).toUInt8, (frame.payload.size.toUInt32 >>> 16).toUInt8,
        (frame.payload.size.toUInt32 >>> 8).toUInt8, frame.payload.size.toUInt32.toUInt8,
        (stored >>> 24).toUInt8, (stored >>> 16).toUInt8, (stored >>> 8).toUInt8,
        stored.toUInt8]⟩ := by
  apply ByteArray.ext
  simp only [front, magic, bytes16, bytes32, ByteArray.data_append, List.append_toArray,
    List.cons_append, List.nil_append]

theorem size_front_append (frame : Frame) (stored : UInt32) :
    (frame.front ++ bytes32 stored).size = preambleSize := by
  rw [front_append_eq]
  rfl

theorem size_bytesWith (frame : Frame) (stored : UInt32) :
    (frame.bytesWith stored).size = preambleSize + frame.header.size + frame.payload.size := by
  rw [bytesWith, ByteArray.size_append, ByteArray.size_append, size_front_append]

theorem byteAt_extract (buffer : ByteArray) {n i : Nat} (hi : i < n) :
    byteAt (buffer.extract 0 n) i = byteAt buffer i := by
  have hsize : (buffer.extract 0 n).size = min n buffer.size := by
    rw [ByteArray.size_extract, Nat.sub_zero]
  unfold byteAt
  by_cases h : i < buffer.size
  · have h' : i < (buffer.extract 0 n).size := by omega
    simp only [dif_pos h, dif_pos h', ByteArray.getElem_extract, Nat.zero_add]
  · have h' : ¬ i < (buffer.extract 0 n).size := by omega
    rw [dif_neg h, dif_neg h']

theorem read16_extract (buffer : ByteArray) {n i : Nat} (hi : i + 1 < n) :
    read16 (buffer.extract 0 n) i = read16 buffer i := by
  rw [read16, byteAt_extract buffer (by omega), byteAt_extract buffer hi, read16]

theorem read32_extract (buffer : ByteArray) {n i : Nat} (hi : i + 3 < n) :
    read32 (buffer.extract 0 n) i = read32 buffer i := by
  rw [read32, byteAt_extract buffer (by omega), byteAt_extract buffer (by omega),
    byteAt_extract buffer (by omega), byteAt_extract buffer hi, read32]

/-- The preamble stands at the front of a frame. -/
theorem extract_preamble (frame : Frame) (stored : UInt32) (rest : ByteArray) :
    (frame.bytesWith stored ++ rest).extract 0 preambleSize = frame.front ++ bytes32 stored := by
  rw [bytesWith, ByteArray.append_assoc, ByteArray.append_assoc,
    ByteArray.extract_append_eq_left (size_front_append frame stored).symm]

/-- What the preamble of a frame announces under a checksum. -/
def announced (frame : Frame) (stored : UInt32) : Announced :=
  ⟨frame.flags, frame.header.size, frame.payload.size, stored⟩

/-- A buffer that begins with the preamble of a frame begins with the magic. -/
theorem magic_of_preamble {frame : Frame} {buffer : ByteArray} {stored : UInt32}
    (hpreamble : buffer.extract 0 preambleSize = frame.front ++ bytes32 stored) :
    buffer.extract 0 4 = magic := by
  have hpart : buffer.extract 0 4 = (buffer.extract 0 preambleSize).extract 0 4 := by
    rw [ByteArray.extract_extract]
    rfl
  rw [hpart, hpreamble, front_append_eq]
  rfl

theorem version_of_preamble {frame : Frame} {buffer : ByteArray} {stored : UInt32}
    (hpreamble : buffer.extract 0 preambleSize = frame.front ++ bytes32 stored) :
    read16 buffer 4 = frame.version := by
  rw [← read16_extract buffer (by decide : 4 + 1 < preambleSize), hpreamble, front_append_eq]
  exact join16 frame.version

/-- A frame of another version is refused, whatever stands behind its version. -/
theorem decode_of_version {frame : Frame} (hversion : frame.version ≠ protocolVersion)
    {buffer : ByteArray} {stored : UInt32}
    (hpreamble : buffer.extract 0 preambleSize = frame.front ++ bytes32 stored) :
    decode buffer = .refused (.unsupportedVersion frame.version) := by
  have hlong : ¬ buffer.size < preambleSize := by
    have hsize := congrArg ByteArray.size hpreamble
    rw [size_front_append, ByteArray.size_extract] at hsize
    omega
  have hread : readPreamble buffer = .error (.unsupportedVersion frame.version) := by
    have hmagic := magic_of_preamble hpreamble
    rw [readPreamble, if_neg (not_not.mpr hmagic), version_of_preamble hpreamble, if_pos hversion]
  rw [decode, if_neg hlong, hread]

section

variable {frame : Frame} (hframe : frame.Sound)

include hframe

/-- A buffer that begins with the preamble of a frame announces that frame, with the checksum that
is stored there. -/
theorem readPreamble_eq {buffer : ByteArray} {stored : UInt32}
    (hpreamble : buffer.extract 0 preambleSize = frame.front ++ bytes32 stored) :
    readPreamble buffer = .ok (frame.announced stored) := by
  have hmagic := magic_of_preamble hpreamble
  have hversion := (version_of_preamble hpreamble).trans hframe.version
  have hflags : read16 buffer 6 = frame.flags.bits := by
    rw [← read16_extract buffer (by decide : 6 + 1 < preambleSize), hpreamble, front_append_eq]
    exact join16 frame.flags.bits
  have hheader : (read16 buffer 8).toNat = frame.header.size := by
    rw [← read16_extract buffer (by decide : 8 + 1 < preambleSize), hpreamble, front_append_eq]
    refine (congrArg UInt16.toNat (join16 frame.header.size.toUInt16)).trans ?_
    exact Nat.mod_eq_of_lt (Nat.lt_of_le_of_lt hframe.header (by decide))
  have hpayload : (read32 buffer 10).toNat = frame.payload.size := by
    rw [← read32_extract buffer (by decide : 10 + 3 < preambleSize), hpreamble, front_append_eq]
    refine (congrArg UInt32.toNat (join32 frame.payload.size.toUInt32)).trans ?_
    exact Nat.mod_eq_of_lt (Nat.lt_of_le_of_lt hframe.payload (by decide))
  have hchecksum : read32 buffer 14 = stored := by
    rw [← read32_extract buffer (by decide : 14 + 3 < preambleSize), hpreamble, front_append_eq]
    exact join32 stored
  have hfits : ¬ maxPayloadSize < frame.payload.size := Nat.not_lt.mpr hframe.payload
  rw [readPreamble, if_neg (not_not.mpr hmagic), if_neg (not_not.mpr hversion), hflags,
    hframe.flags]
  simp only [if_neg hfits, hheader, hpayload, hchecksum, announced]

/-! ## Frames -/

omit hframe in
/-- The middle one of three byte strings that follow each other. -/
theorem extract_middle (a b c : ByteArray) {i j : Nat} (hi : i = a.size) (hj : j = i + b.size) :
    (a ++ (b ++ c)).extract i j = b := by
  have hpart := ByteArray.extract_append_size_add (a := a) (b := b ++ c) (i := 0) (j := b.size)
  rw [Nat.add_zero, ByteArray.extract_append_size_left, ByteArray.extract_zero_size] at hpart
  rw [hj, hi, hpart]

omit hframe in
/-- What a reader makes of a frame under a checksum: a checksum that is marked as present and is not
that of the body is reported, and the frame is lost. -/
def verdict (frame : Frame) (stored : UInt32) : Except ProtocolError Frame :=
  if frame.flags.hasChecksum && checksum frame.header frame.payload != stored then
    .error (.checksumMismatch stored (checksum frame.header frame.payload))
  else .ok frame

omit hframe in
theorem verdict_checksumField (frame : Frame) : frame.verdict frame.checksumField = .ok frame := by
  unfold verdict checksumField
  cases frame.flags.hasChecksum with
  | false => rfl
  | true => simp

/-- A frame is taken off whole from the front of a buffer, whether its checksum is right or not. -/
theorem decode_bytesWith (stored : UInt32) (rest : ByteArray) :
    decode (frame.bytesWith stored ++ rest) = .taken (frame.verdict stored) rest := by
  have hsize : (frame.bytesWith stored ++ rest).size =
      preambleSize + frame.header.size + frame.payload.size + rest.size := by
    rw [ByteArray.size_append, size_bytesWith]
  have htotal : (frame.announced stored).totalSize =
      preambleSize + frame.header.size + frame.payload.size := rfl
  have hparts : frame.bytesWith stored ++ rest =
      frame.front ++ bytes32 stored ++ (frame.header ++ (frame.payload ++ rest)) := by
    rw [bytesWith, ByteArray.append_assoc, ByteArray.append_assoc]
  have hpreamble := extract_preamble frame stored rest
  have hheader : (frame.bytesWith stored ++ rest).extract preambleSize
      (preambleSize + frame.header.size) = frame.header := by
    rw [hparts, extract_middle _ _ _ (size_front_append frame stored).symm rfl]
  have hpayload : (frame.bytesWith stored ++ rest).extract (preambleSize + frame.header.size)
      (preambleSize + frame.header.size + frame.payload.size) = frame.payload := by
    have hleft : preambleSize + frame.header.size =
        (frame.front ++ bytes32 stored ++ frame.header).size := by
      rw [ByteArray.size_append, size_front_append]
    rw [hparts, ← ByteArray.append_assoc, extract_middle _ _ _ hleft rfl]
  have hrest : (frame.bytesWith stored ++ rest).extract
      (preambleSize + frame.header.size + frame.payload.size) (frame.bytesWith stored ++
        rest).size = rest :=
    ByteArray.extract_append_eq_right (size_bytesWith frame stored).symm ByteArray.size_append
  have hversion :
      (⟨protocolVersion, frame.flags, frame.header, frame.payload⟩ : Frame) = frame := by
    rw [← hframe.version]
  have hlong : ¬ (frame.bytesWith stored ++ rest).size < preambleSize := by omega
  have hwhole : ¬ (frame.bytesWith stored ++ rest).size <
      preambleSize + frame.header.size + frame.payload.size := by omega
  rw [decode, if_neg hlong, readPreamble_eq hframe hpreamble]
  simp only [htotal, if_neg hwhole, hrest]
  simp only [announced, hheader, hpayload, hversion, verdict]
  split <;> rfl

theorem decode_bytes (rest : ByteArray) :
    decode (frame.bytes ++ rest) = .taken (.ok frame) rest := by
  rw [bytes_eq_bytesWith, decode_bytesWith hframe, verdict_checksumField]

/-- While a part of a frame is missing nothing is taken off. -/
theorem decode_short {buffer missing rest : ByteArray}
    (hbuffer : buffer ++ missing = frame.bytes ++ rest) (hshort : buffer.size < frame.bytes.size) :
    decode buffer = .needMore := by
  rw [bytes_eq_bytesWith] at hbuffer hshort
  by_cases hsize : buffer.size < preambleSize
  · rw [decode, if_pos hsize]
  · have hpreamble : buffer.extract 0 preambleSize =
        frame.front ++ bytes32 frame.checksumField := by
      have hwhole := extract_preamble frame frame.checksumField rest
      have hempty : missing.extract (0 - buffer.size) (preambleSize - buffer.size) =
          ByteArray.empty := by
        rw [ByteArray.extract_eq_empty_iff]
        omega
      rw [← hwhole, ← hbuffer, ByteArray.extract_append, hempty, ByteArray.append_empty]
    have htotal : (frame.announced frame.checksumField).totalSize =
        (frame.bytesWith frame.checksumField).size :=
      (size_bytesWith frame frame.checksumField).symm
    rw [decode, if_neg hsize, readPreamble_eq hframe hpreamble]
    simp only
    rw [if_pos (by rw [htotal]; exact hshort)]

end

/-- A preamble that stands at the front of a buffer field by field, and announces a payload within
the limit. -/
structure Announces (buffer : ByteArray) (announced : Announced) : Prop where
  begins : buffer.extract 0 4 = magic
  version : read16 buffer 4 = protocolVersion
  flags : FrameFlags.ofBits (read16 buffer 6) = .ok announced.flags
  headerSize : announced.headerSize = (read16 buffer 8).toNat
  payloadSize : announced.payloadSize = (read32 buffer 10).toNat
  checksum : announced.checksum = read32 buffer 14
  limit : announced.payloadSize ≤ maxPayloadSize

theorem announces_of_readPreamble {buffer : ByteArray} {announced : Announced}
    (h : readPreamble buffer = .ok announced) : Announces buffer announced := by
  rw [readPreamble] at h
  split at h
  · cases h
  rename_i hmagic
  split at h
  · cases h
  rename_i hversion
  split at h
  · cases h
  rename_i flags hflags
  simp only at h
  split at h
  · cases h
  rename_i hlimit
  cases h
  exact ⟨not_not.mp hmagic, not_not.mp hversion, hflags, rfl, rfl, rfl, Nat.le_of_not_lt hlimit⟩

/-- A frame that has been taken off a buffer has a payload within the limit. -/
theorem payload_of_decode {buffer rest : ByteArray} {frame : Frame}
    (h : decode buffer = .taken (.ok frame) rest) : frame.payload.size ≤ maxPayloadSize := by
  unfold decode at h
  split at h
  · cases h
  · split at h
    · cases h
    · rename_i announced hannounced
      have hlimit := (announces_of_readPreamble hannounced).limit
      simp only at h
      split at h
      · cases h
      · split at h
        · cases h
        · cases h
          simp only [ByteArray.size_extract, Announced.totalSize]
          omega

end Frame

end Switchboard
