import Switchboard.Proofs.Framing

/-!
# The bytes that are accepted

A frame that is taken off a buffer has stood there as it is written: with the preamble that
announces it, its header and its payload, and with any checksum at all if the flags leave the
checksum out (`decode_eq_taken_iff`). The buffers a frame is accepted from are therefore the
encodings of the frames within the limits, up to a checksum nobody looks at
(`decode_accepts_encodings`), and the encoding of a frame is the encoding of no other.
-/

namespace Switchboard

namespace FrameFlags

/-- A word without a bit but the one of the checksum is that bit or nothing. -/
theorem and_not_checksumBit_eq_zero_iff {bits : UInt16} :
    bits &&& ~~~checksumBit = 0 ↔ bits = 0 ∨ bits = 1 := by
  constructor
  · intro hclear
    have hsplit : bits = (bits &&& checksumBit) ||| (bits &&& ~~~checksumBit) := by
      apply UInt16.toBitVec_inj.mp
      ext i hi
      simp
      grind
    rw [hclear, UInt16.or_zero] at hsplit
    have hlow : bits.toNat = bits.toNat % 2 := by
      conv_lhs => rw [hsplit]
      rw [UInt16.toNat_and]
      exact Nat.and_one_is_mod bits.toNat
    have hsmall : bits.toNat = 0 ∨ bits.toNat = 1 := by omega
    apply hsmall.imp <;> exact fun h => UInt16.toNat_inj.mp h
  · rintro (rfl | rfl) <;> decide

/-- Flags are read from their own bits, and from no bits that have no meaning. -/
theorem ofBits_eq_ok_iff {bits : UInt16} {flags : FrameFlags} :
    ofBits bits = .ok flags ↔ flags = ⟨bits⟩ ∧ (bits = 0 ∨ bits = 1) := by
  rw [← and_not_checksumBit_eq_zero_iff, ofBits]
  by_cases hclear : bits &&& ~~~checksumBit = 0
  · simp [hclear, eq_comm]
  · simp [hclear]

end FrameFlags

namespace Frame

/-! ## Numbers are written as they were read -/

/-- Two bytes read as a number are the bytes of that number. -/
theorem bytes16_join (a b : UInt8) : bytes16 (a.toUInt16 <<< 8 ||| b.toUInt16) = ⟨#[a, b]⟩ := by
  have hhigh : ((a.toUInt16 <<< 8 ||| b.toUInt16) >>> 8).toUInt8 = a := by
    apply UInt8.toBitVec_inj.mp
    ext i hi
    simp
    grind
  have hlow : (a.toUInt16 <<< 8 ||| b.toUInt16).toUInt8 = b := by
    apply UInt8.toBitVec_inj.mp
    ext i hi
    simp
  rw [bytes16, hhigh, hlow]

/-- Four bytes read as a number are the bytes of that number. -/
theorem bytes32_join (a b c d : UInt8) :
    bytes32 (a.toUInt32 <<< 24 ||| b.toUInt32 <<< 16 ||| c.toUInt32 <<< 8 ||| d.toUInt32) =
      ⟨#[a, b, c, d]⟩ := by
  -- A byte is cut out by a shift, and the other three have no bit there.
  have hbytes :
      ∀ n, n = a.toUInt32 <<< 24 ||| b.toUInt32 <<< 16 ||| c.toUInt32 <<< 8 ||| d.toUInt32 →
      (n >>> 24).toUInt8 = a ∧ (n >>> 16).toUInt8 = b ∧ (n >>> 8).toUInt8 = c ∧ n.toUInt8 = d := by
    rintro n rfl
    refine ⟨?_, ?_, ?_, ?_⟩ <;> apply UInt8.toBitVec_inj.mp <;> ext i hi <;> simp <;> grind
  obtain ⟨hfirst, hsecond, hthird, hlast⟩ := hbytes _ rfl
  rw [bytes32, hfirst, hsecond, hthird, hlast]

theorem bytes16_read16 {buffer : ByteArray} {i : Nat} (hi : i + 2 ≤ buffer.size) :
    bytes16 (read16 buffer i) = buffer.extract i (i + 2) := by
  have hfirst : i < buffer.size := by omega
  have hsecond : i + 1 < buffer.size := by omega
  rw [read16, bytes16_join, ByteArray.extract_add_two hi]
  simp only [byteAt, dif_pos hfirst, dif_pos hsecond]
  rfl

theorem bytes32_read32 {buffer : ByteArray} {i : Nat} (hi : i + 4 ≤ buffer.size) :
    bytes32 (read32 buffer i) = buffer.extract i (i + 4) := by
  have hfirst : i < buffer.size := by omega
  have hsecond : i + 1 < buffer.size := by omega
  have hthird : i + 2 < buffer.size := by omega
  have hlast : i + 3 < buffer.size := by omega
  rw [read32, bytes32_join, ByteArray.extract_add_four hi]
  simp only [byteAt, dif_pos hfirst, dif_pos hsecond, dif_pos hthird, dif_pos hlast]
  rfl

theorem bytes16_inj {n m : UInt16} : bytes16 n = bytes16 m ↔ n = m := by
  constructor
  · intro h
    simp only [bytes16, ByteArray.mk.injEq, Array.mk.injEq, List.cons.injEq, and_true] at h
    rw [← join16 n, h.1, h.2, join16]
  · rintro rfl
    rfl

/-! ## What stood in the buffer -/

/-- A buffer from which a frame of this version is announced begins with the preamble of that frame,
and the frame is fit to be written. -/
theorem front_of_readPreamble {buffer : ByteArray} {frame : Frame} {stored : UInt32}
    (hsize : preambleSize ≤ buffer.size) (hversion : frame.version = protocolVersion)
    (h : readPreamble buffer = .ok (frame.announced stored)) :
    frame.Sound ∧ buffer.extract 0 preambleSize = frame.front ++ bytes32 stored := by
  have hfields := announces_of_readPreamble h
  have hheader : frame.header.size = (read16 buffer 8).toNat := hfields.headerSize
  have hpayload : frame.payload.size = (read32 buffer 10).toNat := hfields.payloadSize
  have hstored : stored = read32 buffer 14 := hfields.checksum
  have hbits : frame.flags.bits = read16 buffer 6 :=
    congrArg FrameFlags.bits (FrameFlags.ofBits_eq_ok_iff.mp hfields.flags).1
  have hheader16 : frame.header.size.toUInt16 = read16 buffer 8 := by
    rw [hheader]
    exact UInt16.ofNat_toNat
  have hpayload32 : frame.payload.size.toUInt32 = read32 buffer 10 := by
    rw [hpayload]
    exact UInt32.ofNat_toNat
  constructor
  · constructor
    · exact hversion
    · rw [hbits]
      exact hfields.flags
    · exact hfields.limit
    · have hsmall : frame.header.size < 65536 := by
        rw [hheader]
        exact (read16 buffer 8).toNat_lt
      exact Nat.le_of_lt_succ hsmall
  · simp only [preambleSize] at hsize
    -- The fields stand one behind the other.
    rw [front, hversion, ← hfields.version, hbits, hheader16, hpayload32, hstored, ← hfields.begins,
      bytes16_read16 (by omega), bytes16_read16 (by omega), bytes16_read16 (by omega),
      bytes32_read32 (by omega), bytes32_read32 (by omega)]
    simp [preambleSize]

/-- What a reader makes of a frame is the frame if and only if its checksum is right or left out. -/
theorem verdict_eq_ok_iff {frame other : Frame} {stored : UInt32} :
    frame.verdict stored = .ok other ↔
      other = frame ∧ (frame.flags.hasChecksum = true → stored = frame.checksumField) := by
  rw [verdict, checksumField]
  cases frame.flags.hasChecksum with
  | false => simpa using eq_comm
  | true =>
      by_cases hright : checksum frame.header frame.payload = stored
      · rw [← hright]
        simpa using eq_comm
      · have hwrong : stored ≠ checksum frame.header frame.payload := fun h => hright h.symm
        simp [hright, hwrong]

/-- Something is taken off a buffer if and only if a frame that is fit to be written stands at its
front, under any checksum; what is taken is what a reader makes of that frame. -/
theorem decode_eq_taken_iff {buffer rest : ByteArray} {result : Except ProtocolError Frame} :
    decode buffer = .taken result rest ↔
      ∃ frame stored, Sound frame ∧ buffer = frame.bytesWith stored ++ rest ∧
        result = frame.verdict stored := by
  constructor
  · intro h
    rw [decode] at h
    split at h
    · cases h
    rename_i hlong
    split at h
    · cases h
    rename_i announced hread
    simp only at h
    split at h
    · cases h
    rename_i hwhole
    have hsize : preambleSize ≤ buffer.size := Nat.le_of_not_lt hlong
    have htotal : preambleSize + announced.headerSize + announced.payloadSize ≤ buffer.size :=
      Nat.le_of_not_lt hwhole
    -- The frame is cut out of the buffer where its preamble says.
    let frame : Frame := ⟨protocolVersion, announced.flags,
      buffer.extract preambleSize (preambleSize + announced.headerSize),
      buffer.extract (preambleSize + announced.headerSize) announced.totalSize⟩
    have hheader : frame.header.size = announced.headerSize := by
      simp only [frame, ByteArray.size_extract]
      omega
    have hpayload : frame.payload.size = announced.payloadSize := by
      simp only [frame, ByteArray.size_extract, Announced.totalSize]
      omega
    have hframe : readPreamble buffer = .ok (frame.announced announced.checksum) := by
      rw [hread, Frame.announced, hheader, hpayload]
    obtain ⟨hsound, hfront⟩ := front_of_readPreamble hsize rfl hframe
    have htaken : Taken.taken (frame.verdict announced.checksum)
        (buffer.extract announced.totalSize buffer.size) = .taken result rest := by
      rw [← h, verdict]
      split <;> rfl
    cases htaken
    refine ⟨frame, announced.checksum, hsound, ?_, rfl⟩
    have hbody : preambleSize ≤ preambleSize + announced.headerSize := Nat.le_add_right _ _
    have hall : preambleSize + announced.headerSize ≤ announced.totalSize := Nat.le_add_right _ _
    have hend : announced.totalSize ≤ buffer.size := Nat.le_of_not_lt hwhole
    -- Preamble, header, payload and rest, one behind the other, are the whole buffer.
    rw [bytesWith, ← hfront,
      ← ByteArray.extract_eq_extract_append_extract _ (Nat.zero_le _) hbody,
      ← ByteArray.extract_eq_extract_append_extract _ (Nat.zero_le _) hall,
      ← ByteArray.extract_eq_extract_append_extract _ (Nat.zero_le _) hend,
      ByteArray.extract_zero_size]
  · rintro ⟨frame, stored, hsound, rfl, rfl⟩
    exact decode_bytesWith hsound stored rest

/-! ## Encodings -/

/-- Equal but for the four bytes where the checksum of a frame at the front is. -/
def SameButChecksum (a b : ByteArray) : Prop :=
  a.size = b.size ∧ a.extract 0 14 = b.extract 0 14 ∧ a.extract 18 a.size = b.extract 18 b.size

theorem size_front (frame : Frame) : frame.front.size = 14 := by
  have h := size_front_append frame 0
  rw [ByteArray.size_append] at h
  exact Nat.add_right_cancel h

theorem sameButChecksum_bytesWith_iff {frame : Frame} {stored : UInt32} {buffer rest : ByteArray} :
    SameButChecksum buffer (frame.bytesWith stored ++ rest) ↔
      ∃ other, buffer = frame.bytesWith other ++ rest := by
  -- What stands before the checksum and what stands behind it.
  have hparts : ∀ n, frame.bytesWith n ++ rest =
      frame.front ++ (bytes32 n ++ (frame.header ++ (frame.payload ++ rest))) := by
    intro n
    simp only [bytesWith, ByteArray.append_assoc]
  have hsize : ∀ n, (frame.bytesWith n ++ rest).size =
      18 + frame.header.size + frame.payload.size + rest.size := by
    intro n
    rw [ByteArray.size_append, size_bytesWith, preambleSize]
  have hbefore : ∀ n, (frame.bytesWith n ++ rest).extract 0 14 = frame.front := by
    intro n
    rw [hparts, ByteArray.extract_append_eq_left (size_front frame).symm]
  have hbehind : ∀ n, (frame.bytesWith n ++ rest).extract 18 (frame.bytesWith n ++ rest).size =
      frame.header ++ (frame.payload ++ rest) := by
    intro n
    have hfront : (frame.front ++ bytes32 n).size = 18 := size_front_append frame n
    rw [hparts, ← ByteArray.append_assoc]
    exact ByteArray.extract_append_eq_right hfront.symm ByteArray.size_append
  constructor
  · rintro ⟨hlength, hfront, hbody⟩
    rw [hsize] at hlength
    have hlong : 18 ≤ buffer.size := by omega
    refine ⟨read32 buffer 14, ?_⟩
    rw [hparts, ← hbehind stored, ← hbody, ← hbefore stored, ← hfront, bytes32_read32 hlong]
    simp
  · rintro ⟨other, rfl⟩
    exact ⟨by rw [hsize, hsize], by rw [hbefore, hbefore], by rw [hbehind, hbehind]⟩

/-- The encoder's part in `decode_eq_taken_iff`: a frame that is fit to be written stands at the
front of a buffer as it is encoded, or as it is encoded up to a checksum that its flags leave
out. -/
theorem bytesWith_iff_encode {frame : Frame} {buffer rest : ByteArray}
    (hpayload : frame.payload.size ≤ maxPayloadSize) (hheader : frame.header.size ≤ maxHeaderSize) :
    (∃ stored, buffer = frame.bytesWith stored ++ rest ∧
        (frame.flags.hasChecksum = true → stored = frame.checksumField)) ↔
      ∃ bytes, frame.encode = .ok bytes ∧ SameButChecksum buffer (bytes ++ rest) ∧
        (frame.flags.hasChecksum = true → buffer = bytes ++ rest) := by
  rw [encode_of_fits hpayload hheader, bytes_eq_bytesWith]
  constructor
  · rintro ⟨stored, hbuffer, hstored⟩
    refine ⟨_, rfl, sameButChecksum_bytesWith_iff.mpr ⟨stored, hbuffer⟩, ?_⟩
    intro hflag
    rw [hbuffer, hstored hflag]
  · rintro ⟨bytes, hbytes, hsame, hright⟩
    cases hbytes
    cases hflag : frame.flags.hasChecksum with
    | false =>
        obtain ⟨stored, hbuffer⟩ := sameButChecksum_bytesWith_iff.mp hsame
        exact ⟨stored, hbuffer, nofun⟩
    | true => exact ⟨_, hright hflag, fun _ => rfl⟩

theorem sound_iff {frame : Frame} :
    frame.Sound ↔ frame.version = 1 ∧ (frame.flags.bits = 0 ∨ frame.flags.bits = 1) ∧
      frame.header.size ≤ 65535 ∧ frame.payload.size ≤ 16777216 := by
  constructor
  · intro hsound
    exact ⟨hsound.version, (FrameFlags.ofBits_eq_ok_iff.mp hsound.flags).2, hsound.header,
      hsound.payload⟩
  · rintro ⟨hversion, hbits, hheader, hpayload⟩
    exact ⟨hversion, FrameFlags.ofBits_eq_ok_iff.mpr ⟨rfl, hbits⟩, hpayload, hheader⟩

theorem encode_eq_ok_iff {frame : Frame} {bytes : ByteArray} :
    frame.encode = .ok bytes ↔ frame.payload.size ≤ maxPayloadSize ∧
      frame.header.size ≤ maxHeaderSize ∧ bytes = frame.bytes := by
  rw [encode, Frame.bytes]
  by_cases hpayload : maxPayloadSize < frame.payload.size
  · simp [hpayload]
  · by_cases hheader : maxHeaderSize < frame.header.size
    · simp [hpayload, hheader]
    · simpa [hpayload, hheader, Nat.le_of_not_lt] using eq_comm

/-- The fields before the checksum can be read off. -/
theorem front_inj {a b : Frame} (h : a.front = b.front) :
    a.version = b.version ∧ a.flags = b.flags ∧
      a.header.size.toUInt16 = b.header.size.toUInt16 := by
  have hword : ∀ n m : UInt16, (bytes16 n).size = (bytes16 m).size := fun _ _ => rfl
  have hlong : ∀ n m : UInt32, (bytes32 n).size = (bytes32 m).size := fun _ _ => rfl
  obtain ⟨hrest, -⟩ := (ByteArray.append_eq_append_iff_of_size_eq_right (hlong _ _)).mp h
  obtain ⟨hrest, hheader⟩ := (ByteArray.append_eq_append_iff_of_size_eq_right (hword _ _)).mp hrest
  obtain ⟨hrest, hflags⟩ := (ByteArray.append_eq_append_iff_of_size_eq_right (hword _ _)).mp hrest
  obtain ⟨-, hversion⟩ := (ByteArray.append_eq_append_iff_of_size_eq_right (hword _ _)).mp hrest
  have hbits := bytes16_inj.mp hflags
  exact ⟨bytes16_inj.mp hversion, congrArg FrameFlags.mk hbits, bytes16_inj.mp hheader⟩

/-- Two frames with one encoding are one frame, whatever their versions and flags are. -/
theorem encode_inj {a b : Frame} {bytes : ByteArray} (ha : a.encode = .ok bytes)
    (hb : b.encode = .ok bytes) : a = b := by
  obtain ⟨-, haheader, rfl⟩ := encode_eq_ok_iff.mp ha
  obtain ⟨-, hbheader, hbytes⟩ := encode_eq_ok_iff.mp hb
  rw [bytes_eq_bytesWith, bytes_eq_bytesWith, bytesWith, bytesWith, ByteArray.append_assoc,
    ByteArray.append_assoc, ByteArray.append_assoc, ByteArray.append_assoc] at hbytes
  have hfrontSize : a.front.size = b.front.size := by rw [size_front, size_front]
  obtain ⟨hfront, hbody⟩ :=
    (ByteArray.append_eq_append_iff_of_size_eq_left hfrontSize).mp hbytes
  obtain ⟨hversion, hflags, hlength⟩ := front_inj hfront
  -- The length that is written says where the header ends, since it has not been cut off.
  have hsize : a.header.size = b.header.size := by
    have hnat := congrArg UInt16.toNat hlength
    simp only [Nat.toUInt16, UInt16.toNat_ofNat'] at hnat
    simp only [maxHeaderSize] at haheader hbheader
    omega
  have hfield : (bytes32 a.checksumField).size = (bytes32 b.checksumField).size := rfl
  obtain ⟨-, hrest⟩ := (ByteArray.append_eq_append_iff_of_size_eq_left hfield).mp hbody
  obtain ⟨hheader, hpayload⟩ := (ByteArray.append_eq_append_iff_of_size_eq_left hsize).mp hrest
  cases a
  cases b
  rw [Frame.mk.injEq]
  exact ⟨hversion, hflags, hheader, hpayload⟩

/-- A buffer yields a frame and leaves `rest` if and only if the frame is of version 1, has no flag
but the one of the checksum, keeps to both limits, and stands at the front of the buffer as it is
encoded, where the four bytes of the checksum may be any when the flags leave the checksum out, and
only then. A frame that has been accepted with its checksum is encoded again to the bytes it came
in, and no two frames have one encoding. -/
theorem decode_accepts_encodings :
    (∀ (buffer rest : ByteArray) (frame : Frame),
      decode buffer = .taken (.ok frame) rest ↔
        (frame.version = 1 ∧ (frame.flags.bits = 0 ∨ frame.flags.bits = 1) ∧
          frame.header.size ≤ 65535 ∧ frame.payload.size ≤ 16777216) ∧
        ∃ bytes, frame.encode = .ok bytes ∧ SameButChecksum buffer (bytes ++ rest) ∧
          (frame.flags.hasChecksum = true → buffer = bytes ++ rest)) ∧
    (∀ (buffer rest : ByteArray) (frame : Frame),
      decode buffer = .taken (.ok frame) rest → frame.flags.hasChecksum = true →
        ∃ bytes, frame.encode = .ok bytes ∧ buffer = bytes ++ rest) ∧
    ∀ (a b : Frame) (bytes : ByteArray), a.encode = .ok bytes → b.encode = .ok bytes → a = b := by
  have haccept : ∀ (buffer rest : ByteArray) (frame : Frame),
      decode buffer = .taken (.ok frame) rest ↔ frame.Sound ∧
        ∃ bytes, frame.encode = .ok bytes ∧ SameButChecksum buffer (bytes ++ rest) ∧
          (frame.flags.hasChecksum = true → buffer = bytes ++ rest) := by
    intro buffer rest frame
    constructor
    · intro h
      obtain ⟨other, stored, hsound, hbuffer, hverdict⟩ := decode_eq_taken_iff.mp h
      obtain ⟨rfl, hstored⟩ := verdict_eq_ok_iff.mp hverdict.symm
      exact ⟨hsound, (bytesWith_iff_encode hsound.payload hsound.header).mp
        ⟨stored, hbuffer, hstored⟩⟩
    · rintro ⟨hsound, hencode⟩
      obtain ⟨stored, hbuffer, hstored⟩ :=
        (bytesWith_iff_encode hsound.payload hsound.header).mpr hencode
      exact decode_eq_taken_iff.mpr
        ⟨frame, stored, hsound, hbuffer, (verdict_eq_ok_iff.mpr ⟨rfl, hstored⟩).symm⟩
  refine ⟨?_, ?_, fun a b bytes => encode_inj⟩
  · intro buffer rest frame
    rw [← sound_iff]
    exact haccept buffer rest frame
  · intro buffer rest frame h hflag
    obtain ⟨-, bytes, hencode, -, hwhole⟩ := (haccept buffer rest frame).mp h
    exact ⟨bytes, hencode, hwhole hflag⟩

/-- A frame whose flags leave the checksum out. -/
def unchecked : Frame := ⟨1, .none, ⟨#[0x7b, 0x7d]⟩, ⟨#[7]⟩⟩

/-- The same frame with its checksum. -/
def checked : Frame := .new unchecked.header unchecked.payload

/-- Any checksum does for a frame that leaves it out, and the bytes of one that has it are written
again. -/
theorem decode_accepts_encodings_pair :
    decode (unchecked.bytesWith 0xdeadbeef ++ magic) = .taken (.ok unchecked) magic ∧
      unchecked.bytesWith 0xdeadbeef ≠ unchecked.bytes ∧
      checked.flags.hasChecksum = true ∧
      ∃ bytes, checked.encode = .ok bytes ∧ checked.bytes ++ magic = bytes ++ magic := by
  have hfits : unchecked.payload.size ≤ maxPayloadSize ∧ unchecked.header.size ≤ maxHeaderSize := by
    decide
  have hchecked : checked.Sound := ⟨rfl, rfl, hfits.1, hfits.2⟩
  refine ⟨?_, by decide, rfl, ?_⟩
  · apply (decode_accepts_encodings.1 _ _ _).mpr
    exact ⟨by decide, unchecked.bytes, encode_of_fits hfits.1 hfits.2,
      sameButChecksum_bytesWith_iff.mpr ⟨_, rfl⟩, nofun⟩
  · exact decode_accepts_encodings.2.1 _ _ _ (decode_bytes hchecked magic) rfl

end Frame

end Switchboard
