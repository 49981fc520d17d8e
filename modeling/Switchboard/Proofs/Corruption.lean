import Switchboard.Proofs.Acceptance
import Switchboard.Proofs.Resynchronisation
import Mathlib.Data.Nat.Bitwise
import Mathlib.Data.Nat.Digits.Lemmas

/-!
# Frames that were altered on the way

The checksum is linear: shifting the register goes through differences (`Checksum.shift_xor`) and
loses none (`Checksum.shift_injective`). Up to four bytes can therefore be read off the register
that has taken them (`Checksum.foldl_absorb_inj`), and whatever is taken behind them, in both of two
byte strings, keeps two registers apart. Byte strings that differ in at most four bytes that follow
each other have different checksums (`Checksum.ofBytes_ne`), so that a frame in which no more than
that has been altered is reported and never delivered (`Frame.corruption_reported`).

A frame is written with any version, and read with one: `Frame.newer_refused` is an altered frame of
which no checksum is computed.
-/

namespace Switchboard

namespace Checksum

/-! ## Shifts -/

theorem and_one_eq_one_iff {register : UInt32} : register &&& 1 = 1 ↔ register.toNat % 2 = 1 := by
  rw [← UInt32.toNat_inj, UInt32.toNat_and]
  have hone : (1 : UInt32).toNat = 1 := rfl
  rw [hone, Nat.and_one_is_mod]

theorem toNat_shiftRight_one (register : UInt32) : (register >>> 1).toNat = register.toNat / 2 := by
  rw [UInt32.toNat_shiftRight]
  rfl

theorem shift_of_odd {register : UInt32} (h : register.toNat % 2 = 1) :
    shift register = register >>> 1 ^^^ polynomial := if_pos (and_one_eq_one_iff.mpr h)

theorem shift_of_even {register : UInt32} (h : register.toNat % 2 = 0) :
    shift register = register >>> 1 := by
  refine if_neg fun hodd => ?_
  have hone := and_one_eq_one_iff.mp hodd
  omega

/-- Shifting goes through differences. -/
theorem shift_xor (a b : UInt32) : shift (a ^^^ b) = shift a ^^^ shift b := by
  have hsum : (a ^^^ b).toNat % 2 = (a.toNat + b.toNat) % 2 := by
    rw [UInt32.toNat_xor, Nat.xor_mod_two_eq]
  rcases Nat.mod_two_eq_zero_or_one a.toNat with ha | ha <;>
    rcases Nat.mod_two_eq_zero_or_one b.toNat with hb | hb
  · rw [shift_of_even ha, shift_of_even hb, shift_of_even (by omega), UInt32.shiftRight_xor]
  · rw [shift_of_even ha, shift_of_odd hb, shift_of_odd (by omega), UInt32.shiftRight_xor,
      UInt32.xor_assoc]
  · rw [shift_of_odd ha, shift_of_even hb, shift_of_odd (by omega), UInt32.shiftRight_xor,
      UInt32.xor_assoc, UInt32.xor_comm (b >>> 1), ← UInt32.xor_assoc]
  · rw [shift_of_odd ha, shift_of_odd hb, shift_of_even (by omega), UInt32.shiftRight_xor]
    have hcancel : ∀ x y p : UInt32, (x ^^^ p) ^^^ (y ^^^ p) = x ^^^ y := by
      intro x y p
      rw [UInt32.xor_comm y p, UInt32.xor_assoc, ← UInt32.xor_assoc p p, UInt32.xor_self,
        UInt32.zero_xor]
    rw [hcancel]

/-- The polynomial has its highest bit, which a register loses when it is shifted. -/
theorem eq_zero_of_shift_eq_zero {register : UInt32} (h : shift register = 0) : register = 0 := by
  rcases Nat.mod_two_eq_zero_or_one register.toNat with heven | hodd
  · rw [shift_of_even heven, ← UInt32.toNat_inj, toNat_shiftRight_one] at h
    have hzero : register.toNat / 2 = 0 := h
    rw [← UInt32.toNat_inj]
    exact (by omega : register.toNat = 0)
  · rw [shift_of_odd hodd, UInt32.xor_eq_zero_iff, ← UInt32.toNat_inj, toNat_shiftRight_one] at h
    have hpolynomial : polynomial.toNat = 2197175160 := rfl
    have hlt := register.toNat_lt
    omega

theorem shift_injective : Function.Injective shift := by
  intro a b h
  apply UInt32.xor_eq_zero_iff.mp
  apply eq_zero_of_shift_eq_zero
  rw [shift_xor, h, UInt32.xor_self]

theorem shifts_xor (count : Nat) (a b : UInt32) :
    shift^[count] (a ^^^ b) = shift^[count] a ^^^ shift^[count] b := by
  induction count generalizing a b with
  | zero => rfl
  | succ count ih => rw [Function.iterate_succ_apply, Function.iterate_succ_apply,
      Function.iterate_succ_apply, shift_xor, ih]

/-- A register whose low bits are clear moves down through as many shifts. -/
theorem shifts_of_dvd {count : Nat} {register : UInt32} (h : 2 ^ count ∣ register.toNat) :
    (shift^[count] register).toNat = register.toNat / 2 ^ count := by
  induction count generalizing register with
  | zero => simp
  | succ count ih =>
      obtain ⟨n, hn⟩ := h
      have hdouble : register.toNat = 2 * (2 ^ count * n) := by
        rw [hn, Nat.pow_succ']
        ring
      have hhalf : (shift register).toNat = 2 ^ count * n := by
        rw [shift_of_even (by omega), toNat_shiftRight_one]
        omega
      rw [Function.iterate_succ_apply, ih ⟨n, hhalf⟩, hhalf, hn,
        Nat.mul_div_cancel_left _ (Nat.two_pow_pos _),
        Nat.mul_div_cancel_left _ (Nat.two_pow_pos _)]

/-! ## Bytes -/

theorem absorb_eq (register : UInt32) (byte : UInt8) :
    absorb register byte = shift^[8] (register ^^^ byte.toUInt32) := rfl

theorem absorb_injective (byte : UInt8) : Function.Injective (absorb · byte) := by
  intro a b h
  exact (UInt32.xor_left_inj _).mp (shift_injective.iterate 8 h)

/-- The number that bytes spell, the first of them the least significant. -/
def word (bytes : List UInt8) : Nat := Nat.ofDigits 256 (bytes.map UInt8.toNat)

theorem word_lt (bytes : List UInt8) : word bytes < 256 ^ bytes.length := by
  have hlt := Nat.ofDigits_lt_base_pow_length (b := 256) (l := bytes.map UInt8.toNat) (by decide)
    (by
      intro n hn
      obtain ⟨byte, -, rfl⟩ := List.mem_map.mp hn
      exact byte.toNat_lt)
  rwa [List.length_map] at hlt

theorem word_inj {bytes others : List UInt8} (hlength : bytes.length = others.length)
    (h : word bytes = word others) : bytes = others := by
  have hdigits : ∀ list : List UInt8, ∀ n ∈ list.map UInt8.toNat, n < 256 := by
    intro list n hn
    obtain ⟨byte, -, rfl⟩ := List.mem_map.mp hn
    exact byte.toNat_lt
  have hnumbers : bytes.map UInt8.toNat = others.map UInt8.toNat :=
    Nat.ofDigits_inj_of_len_eq (by decide) (by simpa using hlength) (hdigits bytes)
      (hdigits others) h
  exact List.map_injective_iff.mpr (fun _ _ => UInt8.toNat_inj.mp) hnumbers

/-- A byte in front of a number is put in by exclusive or. -/
theorem toUInt32_xor_ofNat (byte : UInt8) (n : Nat) :
    byte.toUInt32 ^^^ UInt32.ofNat (256 * n) = UInt32.ofNat (byte.toNat + 256 * n) := by
  have hbyte : byte.toUInt32 = UInt32.ofNat byte.toNat := by simp
  have hbits : byte.toNat ^^^ 256 * n = byte.toNat + 256 * n := by
    have hlt : byte.toNat < 2 ^ 8 := byte.toNat_lt
    apply Nat.eq_of_testBit_eq
    intro i
    have hhigh : (256 * n).testBit i = (decide (8 ≤ i) && n.testBit (i - 8)) :=
      Nat.testBit_two_pow_mul (i := 8)
    have hsum : (256 * n + byte.toNat).testBit i =
        if i < 8 then byte.toNat.testBit i else n.testBit (i - 8) :=
      Nat.testBit_two_pow_mul_add n hlt i
    rw [Nat.testBit_xor, hhigh, Nat.add_comm byte.toNat, hsum]
    by_cases hi : i < 8
    · have hnot : ¬ 8 ≤ i := Nat.not_le.mpr hi
      simp [hi, hnot]
    · have hle : 8 ≤ i := Nat.le_of_not_lt hi
      have hclear : byte.toNat.testBit i = false :=
        Nat.testBit_lt_two_pow (Nat.lt_of_lt_of_le hlt (Nat.pow_le_pow_right (by decide) hle))
      simp [hi, hle, hclear]
  rw [hbyte, ← UInt32.ofNat_xor, hbits]

/-- Up to four bytes are taken as the word that they spell is, and then shifted through. -/
theorem foldl_absorb_eq {bytes : List UInt8} (h : bytes.length ≤ 4) (register : UInt32) :
    bytes.foldl absorb register =
      shift^[8 * bytes.length] (register ^^^ UInt32.ofNat (word bytes)) := by
  induction bytes generalizing register with
  | nil => simp [word]
  | cons byte bytes ih =>
      have hshort : bytes.length ≤ 3 := Nat.le_of_succ_le_succ h
      have hlt : word bytes < 2 ^ 24 :=
        Nat.lt_of_lt_of_le (word_lt bytes) (Nat.pow_le_pow_right (by decide : 0 < 256) hshort)
      -- What comes behind the byte stands eight places higher, and arrives with the eight shifts.
      have hshifted : shift^[8] (UInt32.ofNat (256 * word bytes)) = UInt32.ofNat (word bytes) := by
        have hword : (UInt32.ofNat (256 * word bytes)).toNat = 2 ^ 8 * word bytes :=
          UInt32.toNat_ofNat_of_lt' (by simp only [UInt32.size]; omega)
        rw [← UInt32.toNat_inj, shifts_of_dvd ⟨_, hword⟩, hword,
          Nat.mul_div_cancel_left _ (by decide)]
        exact (UInt32.toNat_ofNat_of_lt' (by simp only [UInt32.size]; omega)).symm
      have hcons : word (byte :: bytes) = byte.toNat + 256 * word bytes := by
        rw [word, List.map_cons, Nat.ofDigits_cons]
        rfl
      rw [List.foldl_cons, ih (Nat.le_succ_of_le hshort), absorb_eq, ← hshifted, ← shifts_xor,
        UInt32.xor_assoc, toUInt32_xor_ofNat, ← hcons, ← Function.iterate_add_apply,
        List.length_cons, Nat.mul_succ]

/-- Up to four bytes can be read off the register that has taken them. -/
theorem foldl_absorb_inj {bytes others : List UInt8} (hlength : bytes.length = others.length)
    (hfour : bytes.length ≤ 4) {register : UInt32}
    (h : bytes.foldl absorb register = others.foldl absorb register) : bytes = others := by
  rw [foldl_absorb_eq hfour, foldl_absorb_eq (hlength ▸ hfour), hlength] at h
  have hwords := (UInt32.xor_right_inj _).mp (shift_injective.iterate _ h)
  have hsmall : ∀ list : List UInt8, list.length ≤ 4 → word list < UInt32.size := fun list hlist =>
    Nat.lt_of_lt_of_le (word_lt list) (Nat.pow_le_pow_right (by decide : 0 < 256) hlist)
  apply word_inj hlength
  rw [← UInt32.toNat_ofNat_of_lt' (hsmall bytes hfour), hwords,
    UInt32.toNat_ofNat_of_lt' (hsmall others (hlength ▸ hfour))]

theorem foldl_absorb_injective (bytes : List UInt8) :
    Function.Injective (bytes.foldl absorb ·) := by
  induction bytes with
  | nil => exact Function.injective_id
  | cons byte bytes ih => exact ih.comp (absorb_injective byte)

/-! ## Byte strings -/

theorem absorbFrom_eq (bytes : ByteArray) (start : Nat) (register : UInt32) :
    absorbFrom bytes start register = (bytes.data.toList.drop start).foldl absorb register := by
  fun_induction absorbFrom bytes start register with
  | case1 start register hlt ih =>
      have hdrop :
          bytes.data.toList.drop start = bytes[start] :: bytes.data.toList.drop (start + 1) :=
        List.drop_eq_getElem_cons hlt
      rw [ih, hdrop, List.foldl_cons]
  | case2 start register hle =>
      have hdrop : bytes.data.toList.drop start = [] :=
        List.drop_eq_nil_of_le (Nat.le_of_not_lt hle)
      rw [hdrop, List.foldl_nil]

theorem extend_eq (sum : UInt32) (bytes : ByteArray) :
    extend sum bytes =
      bytes.data.toList.foldl absorb (sum ^^^ 0xFFFFFFFF) ^^^ 0xFFFFFFFF := by
  rw [extend, absorbFrom_eq, List.drop_zero]

/-- A checksum can be continued. -/
theorem extend_ofBytes (bytes more : ByteArray) :
    extend (ofBytes bytes) more = ofBytes (bytes ++ more) := by
  have hinvert : ∀ register : UInt32, register ^^^ 0xFFFFFFFF ^^^ 0xFFFFFFFF = register := by
    intro register
    rw [UInt32.xor_assoc, UInt32.xor_self, UInt32.xor_zero]
  rw [ofBytes, ofBytes, extend_eq, extend_eq, extend_eq, hinvert, ByteArray.data_append,
    Array.toList_append, List.foldl_append]

theorem getElem?_eq_byteAt {bytes : ByteArray} {i : Nat} (hi : i < bytes.size) :
    bytes.data.toList[i]? = some (Frame.byteAt bytes i) := by
  rw [Frame.byteAt, dif_pos hi]
  exact List.getElem?_eq_getElem hi

/-- Byte strings of one length that differ in at most four bytes that follow each other have
different checksums. -/
theorem ofBytes_ne {a b : ByteArray} {start : Nat} (hsize : a.size = b.size)
    (hsame : ∀ i, i < start ∨ start + 4 ≤ i → Frame.byteAt a i = Frame.byteAt b i) (hne : a ≠ b) :
    ofBytes a ≠ ofBytes b := by
  intro hsum
  have hlength : a.data.toList.length = b.data.toList.length := hsize
  have hget : ∀ i, i < start ∨ start + 4 ≤ i → a.data.toList[i]? = b.data.toList[i]? := by
    intro i hi
    by_cases hlt : i < a.size
    · rw [getElem?_eq_byteAt hlt, getElem?_eq_byteAt (hsize ▸ hlt), hsame i hi]
    · have hle : a.data.toList.length ≤ i := Nat.le_of_not_lt hlt
      rw [List.getElem?_eq_none hle, List.getElem?_eq_none (hlength ▸ hle)]
  have hfront : a.data.toList.take start = b.data.toList.take start := by
    apply List.ext_getElem?
    intro i
    rw [List.getElem?_take, List.getElem?_take]
    split
    · exact hget i (Or.inl ‹_›)
    · rfl
  have hback : a.data.toList.drop (start + 4) = b.data.toList.drop (start + 4) := by
    apply List.ext_getElem?
    intro i
    rw [List.getElem?_drop, List.getElem?_drop]
    exact hget _ (Or.inr (Nat.le_add_right _ _))
  have hparts : ∀ list : List UInt8,
      list = list.take start ++ ((list.drop start).take 4 ++ list.drop (start + 4)) := by
    intro list
    rw [← List.drop_drop, List.take_append_drop, List.take_append_drop]
  -- The registers agree behind the last byte, so they agree behind the four that may differ.
  have hregister : a.data.toList.foldl absorb (0 ^^^ 0xFFFFFFFF) =
      b.data.toList.foldl absorb (0 ^^^ 0xFFFFFFFF) := by
    rw [ofBytes, ofBytes, extend_eq, extend_eq] at hsum
    exact (UInt32.xor_left_inj _).mp hsum
  rw [hparts a.data.toList, hparts b.data.toList, hfront, hback, List.foldl_append,
    List.foldl_append, List.foldl_append, List.foldl_append] at hregister
  have hmiddle :=
    foldl_absorb_inj (by simp [hlength]) (by simp) (foldl_absorb_injective _ hregister)
  apply hne
  apply ByteArray.ext
  apply Array.toList_inj.mp
  rw [hparts a.data.toList, hfront, hback, hmiddle, ← hparts]

end Checksum

namespace Frame

theorem checksum_eq (header payload : ByteArray) :
    checksum header payload = Checksum.ofBytes (header ++ payload) :=
  Checksum.extend_ofBytes header payload

/-! ## Altered frames -/

/-- Other bytes in place of at most four that follow each other, behind the preamble of a frame: in
its header, in its payload, or across the boundary between them. -/
structure Burst (wire altered : ByteArray) (start : Nat) : Prop where
  size : altered.size = wire.size
  body : preambleSize ≤ start
  same : ∀ i, i < start ∨ start + 4 ≤ i → byteAt altered i = byteAt wire i
  differs : altered ≠ wire

theorem byteAt_of_le {bytes : ByteArray} {i : Nat} (hi : bytes.size ≤ i) : byteAt bytes i = 0 :=
  dif_neg (Nat.not_lt.mpr hi)

/-- The bytes behind a cut, one by one. -/
theorem byteAt_extract_from (buffer : ByteArray) (cut i : Nat) :
    byteAt (buffer.extract cut buffer.size) i = byteAt buffer (cut + i) := by
  have hsize : (buffer.extract cut buffer.size).size = buffer.size - cut := by
    rw [ByteArray.size_extract, Nat.min_self]
  by_cases hi : cut + i < buffer.size
  · have hi' : i < (buffer.extract cut buffer.size).size := by omega
    simp only [byteAt, dif_pos hi, dif_pos hi', ByteArray.getElem_extract]
  · rw [byteAt_of_le (by omega), byteAt_of_le (by omega)]

theorem eq_of_byteAt {a b : ByteArray} (hsize : a.size = b.size)
    (h : ∀ i < a.size, byteAt a i = byteAt b i) : a = b := by
  apply ByteArray.ext_getElem hsize
  intro i hi hi'
  have hbyte := h i hi
  rwa [byteAt, byteAt, dif_pos hi, dif_pos hi'] at hbyte

namespace Burst

variable {wire altered : ByteArray} {start : Nat}

/-- The preamble is as it was. -/
theorem extract_preamble (h : Burst wire altered start) (hwire : preambleSize ≤ wire.size) :
    altered.extract 0 preambleSize = wire.extract 0 preambleSize := by
  have hsize := h.size
  apply eq_of_byteAt (by simp only [ByteArray.size_extract]; omega)
  intro i hi
  rw [ByteArray.size_extract] at hi
  have hlt : i < preambleSize := by omega
  rw [byteAt_extract altered hlt, byteAt_extract wire hlt]
  exact h.same i (Or.inl (Nat.lt_of_lt_of_le hlt h.body))

/-- What stands behind the preamble has another checksum. -/
theorem ofBytes_ne (h : Burst wire altered start) (hwire : preambleSize ≤ wire.size) :
    Checksum.ofBytes (altered.extract preambleSize altered.size) ≠
      Checksum.ofBytes (wire.extract preambleSize wire.size) := by
  have hbody := h.body
  have hsize := h.size
  have hsame : ∀ i, i < start - preambleSize ∨ start - preambleSize + 4 ≤ i →
      byteAt (altered.extract preambleSize altered.size) i =
        byteAt (wire.extract preambleSize wire.size) i := by
    intro i hi
    rw [byteAt_extract_from, byteAt_extract_from]
    exact h.same _ (by omega)
  refine Checksum.ofBytes_ne (by simp only [ByteArray.size_extract]; omega) hsame fun heq => ?_
  apply h.differs
  have hcut : ∀ buffer : ByteArray, preambleSize ≤ buffer.size →
      buffer = buffer.extract 0 preambleSize ++ buffer.extract preambleSize buffer.size :=
    fun buffer _ => (extract_append_extract buffer preambleSize).symm
  rw [hcut altered (by omega), hcut wire hwire, heq, h.extract_preamble hwire]

end Burst

section

variable {frame : Frame} {altered : ByteArray} {start : Nat}

/-- A frame in which no more than a burst has been altered is damaged: its checksum is not that of
what now stands there. -/
theorem exists_damage_of_burst
    (h : Burst (frame.bytesWith (checksum frame.header frame.payload)) altered start) :
    ∃ damage : frame.Damage, damage.stored = checksum frame.header frame.payload ∧
      damage.bytes = altered := by
  have hwire := size_bytesWith frame (checksum frame.header frame.payload)
  have hsize := h.size
  have hlong : preambleSize ≤ (frame.bytesWith (checksum frame.header frame.payload)).size := by
    omega
  let header := altered.extract preambleSize (preambleSize + frame.header.size)
  let payload := altered.extract (preambleSize + frame.header.size) altered.size
  have hbody : altered.extract preambleSize altered.size = header ++ payload :=
    ByteArray.extract_eq_extract_append_extract _ (Nat.le_add_right _ _) (by omega)
  have hbefore : (frame.bytesWith (checksum frame.header frame.payload)).extract preambleSize
      (frame.bytesWith (checksum frame.header frame.payload)).size = frame.header ++
        frame.payload := by
    rw [bytesWith, ByteArray.append_assoc]
    exact ByteArray.extract_append_eq_right (size_front_append _ _).symm ByteArray.size_append
  have hdiffers := h.ofBytes_ne hlong
  rw [hbody, hbefore, ← checksum_eq, ← checksum_eq] at hdiffers
  have hpreamble : altered.extract 0 preambleSize =
      frame.front ++ bytes32 (checksum frame.header frame.payload) := by
    rw [h.extract_preamble hlong]
    have hfront :=
      Frame.extract_preamble frame (checksum frame.header frame.payload) ByteArray.empty
    rwa [ByteArray.append_empty] at hfront
  refine ⟨⟨checksum frame.header frame.payload, header, payload, ?_, ?_, hdiffers.symm⟩, rfl, ?_⟩
  · simp only [header, ByteArray.size_extract]
    omega
  · simp only [payload, ByteArray.size_extract]
    omega
  · rw [Damage.bytes, ← hpreamble, ByteArray.append_assoc, ← hbody, extract_append_extract]

/-- In a frame that was written with its checksum, at most four bytes that follow each other have
been altered, in the header, in the payload or in both. A reader reports the checksum that was
written and another one, and what stands behind the frame stays; if the frame was written with a
version that is not the one read here, the reader refuses that version. In no case does it deliver a
frame. -/
theorem corruption_reported {wire : ByteArray} (hflags : frame.flags = FrameFlags.none.withChecksum)
    (hencode : frame.encode = .ok wire) (hburst : Burst wire altered start) (rest : ByteArray) :
    (frame.version = protocolVersion →
      ∃ computed, computed ≠ checksum frame.header frame.payload ∧
        decode (altered ++ rest) =
          .taken (.error (.checksumMismatch (checksum frame.header frame.payload) computed)) rest) ∧
    (frame.version ≠ protocolVersion →
      decode (altered ++ rest) = .refused (.unsupportedVersion frame.version)) ∧
    ∀ other left, decode (altered ++ rest) ≠ .taken (.ok other) left := by
  obtain ⟨hpayload, hheader, hwire⟩ := encode_eq_ok_iff.mp hencode
  have hflag : frame.flags.hasChecksum = true := by
    rw [hflags]
    rfl
  have hfield : frame.checksumField = checksum frame.header frame.payload := if_pos hflag
  rw [bytes_eq_bytesWith, hfield] at hwire
  obtain ⟨damage, hstored, haltered⟩ := exists_damage_of_burst (hwire ▸ hburst)
  have hsame : frame.version = protocolVersion →
      decode (altered ++ rest) = .taken (.error (.checksumMismatch
        (checksum frame.header frame.payload) (checksum damage.header damage.payload))) rest := by
    intro hversion
    have hsound : frame.Sound := by
      refine ⟨hversion, ?_, hpayload, hheader⟩
      rw [hflags]
      rfl
    rw [← haltered, ← hstored, ← damage.verdict_altered hflag, damage.bytes_eq]
    exact decode_bytesWith (damage.sound_altered hsound) damage.stored rest
  have hother : frame.version ≠ protocolVersion →
      decode (altered ++ rest) = .refused (.unsupportedVersion frame.version) := by
    intro hversion
    have hunread : damage.altered.version ≠ protocolVersion := hversion
    rw [← haltered, damage.bytes_eq]
    exact decode_of_version hunread (extract_preamble damage.altered damage.stored rest)
  refine ⟨fun hversion => ⟨_, hstored ▸ damage.differs.symm, hsame hversion⟩, hother, ?_⟩
  intro other left h
  by_cases hversion : frame.version = protocolVersion
  · rw [hsame hversion] at h
    cases h
  · rw [hother hversion] at h
    cases h

end

/-- Alterations of what stands behind a preamble. -/
theorem Burst.of_body {front body other : ByteArray} {start : Nat}
    (hfront : front.size = preambleSize)
    (hsize : other.size = body.size)
    (hsame : ∀ i, i < start ∨ start + 4 ≤ i → byteAt other i = byteAt body i) (hne : other ≠ body) :
    Burst (front ++ body) (front ++ other) (preambleSize + start) where
  size := by rw [ByteArray.size_append, ByteArray.size_append, hsize]
  body := Nat.le_add_right _ _
  same := by
    intro i hi
    by_cases hlt : i < preambleSize
    · rw [byteAt_append other (hfront ▸ hlt), byteAt_append body (hfront ▸ hlt)]
    · have hbehind :
          ∀ back : ByteArray, byteAt (front ++ back) i = byteAt back (i - preambleSize) := by
        intro back
        have hcut : (front ++ back).extract preambleSize (front ++ back).size = back :=
          ByteArray.extract_append_eq_right hfront.symm ByteArray.size_append
        rw [← hcut, byteAt_extract_from, hcut]
        congr 1
        omega
      rw [hbehind, hbehind]
      exact hsame _ (by omega)
  differs := fun h => hne ((ByteArray.append_right_inj front).mp h)

/-- The header and the payload of `checked`, with the last byte of the one and the first of the
other altered. -/
def bent : ByteArray := ⟨#[0x7b, 0x5d, 8]⟩

theorem burst_bent (frame : Frame) (hheader : frame.header = checked.header)
    (hpayload : frame.payload = checked.payload) :
    Burst frame.bytes (frame.front ++ bytes32 frame.checksumField ++ bent) (preambleSize + 1) := by
  have hbytes : frame.bytes =
      frame.front ++ bytes32 frame.checksumField ++ (checked.header ++ checked.payload) := by
    rw [bytes_eq_bytesWith, bytesWith, hheader, hpayload, ByteArray.append_assoc]
  rw [hbytes]
  refine Burst.of_body (size_front_append _ _) (by decide) ?_ (by decide)
  intro i hi
  by_cases hzero : i = 0
  · rw [hzero]
    decide
  · have hbent : bent.size = 3 := rfl
    have hbody : (checked.header ++ checked.payload).size = 3 := by decide
    rw [byteAt_of_le (by omega), byteAt_of_le (by omega)]

/-- A frame of this version is reported when its header and its payload have been altered where they
meet. -/
theorem corruption_reported_checked :
    checked.encode = .ok checked.bytes ∧
      ∃ computed, computed ≠ checksum checked.header checked.payload ∧
        decode (checked.front ++ bytes32 checked.checksumField ++ bent ++ magic) =
          .taken
            (.error (.checksumMismatch (checksum checked.header checked.payload) computed))
            magic := by
  have hencode : checked.encode = .ok checked.bytes := encode_of_fits (by decide) (by decide)
  exact ⟨hencode, (corruption_reported rfl hencode (burst_bent checked rfl rfl) magic).1 rfl⟩

/-- The frame `checked` with a version that is not read here. -/
def newer : Frame := { checked with version := 2 }

/-- Altered in the same way, a frame of another version is written, but its checksum is not
compared. -/
theorem newer_refused :
    newer.flags = FrameFlags.none.withChecksum ∧ newer.encode = .ok newer.bytes ∧
      Burst newer.bytes (newer.front ++ bytes32 newer.checksumField ++ bent) (preambleSize + 1) ∧
      ∀ stored computed rest,
        decode (newer.front ++ bytes32 newer.checksumField ++ bent) ≠
          .taken (.error (.checksumMismatch stored computed)) rest := by
  refine ⟨rfl, encode_of_fits (by decide) (by decide), burst_bent newer rfl rfl, ?_⟩
  intro stored computed rest h
  have hpreamble : (newer.front ++ bytes32 newer.checksumField ++ bent).extract 0 preambleSize =
      newer.front ++ bytes32 newer.checksumField :=
    ByteArray.extract_append_eq_left (size_front_append _ _).symm
  rw [decode_of_version (by decide) hpreamble] at h
  cases h

end Frame

end Switchboard
