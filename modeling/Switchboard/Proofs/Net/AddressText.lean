import Switchboard.Net.AddressReader
import Switchboard.Proofs.Digits
import Switchboard.Proofs.Framing

/-!
# Reading the addresses that were written

Every socket address is read back from its written form (`SocketAddress.parse?_render`), so that two
addresses are never written alike (`SocketAddress.render_injective`). Each reader takes exactly what
was written of its part and leaves what stands behind it.

An IPv6 address is written in one of three ways. The eight groups stand in full; or a run of zero
groups is left out, which the reader puts back because it knows how many groups there are; or the
last two groups are dotted. The reader tries an IPv4 address at every group, so that a group has to
be told from one by what follows it: a colon, a percent sign or a bracket, but never a point.
-/

namespace Switchboard

namespace Net

open Digits (Ends ends_nil ends_cons span_toDigits)

/-! ## Numbers -/

/-- A number within the limits of a reader is read off its digits. -/
theorem readNumber_toDigits {base n limit : Nat} {maxDigits : Option Nat} (leadingZero : Bool)
    (hlow : 1 < base) (hhigh : base ≤ 16) (hlimit : n ≤ limit)
    (hmax : ∀ most ∈ maxDigits, (Nat.toDigits base n).length ≤ most) {rest : List Char}
    (hrest : Ends base rest) :
    readNumber base maxDigits leadingZero limit (Nat.toDigits base n ++ rest) = some (n, rest) := by
  obtain ⟨ds, hspan, hspelled, hlength⟩ := span_toDigits hlow hhigh n hrest
  have hnonempty : ds.isEmpty = false := by
    simpa using hspelled.nonempty
  have hroom : maxDigits.any (· < ds.length) = false := by
    cases maxDigits with
    | none => rfl
    | some most =>
        have hle := hmax most rfl
        simpa [hlength] using hle
  have hlead : (!leadingZero && ds.head? == some 0 && decide (1 < ds.length)) = false := by
    cases hzero : ds.head? == some 0 with
    | false => simp
    | true =>
        have hsingle := hspelled.lead (by simpa using hzero)
        simp [hsingle]
  simp [readNumber, hspan, hspelled.value_eq, hnonempty, hroom, hlead, Nat.not_lt.mpr hlimit]

theorem readOctet_decimal (n : UInt8) {rest : List Char} (hrest : Ends 10 rest) :
    readOctet (IPv4.decimal n.toNat ++ rest) = some (n, rest) := by
  have hlt : n.toNat < 256 := n.toNat_lt
  have hlength : (Nat.toDigits 10 n.toNat).length ≤ 3 :=
    (Nat.length_toDigits_le_iff (by decide) (by decide)).mpr (by omega)
  have hread : readNumber 10 (some 3) false 255 (Nat.toDigits 10 n.toNat ++ rest) =
      some (n.toNat, rest) := by
    apply readNumber_toDigits false (by decide) (by decide) (by omega) _ hrest
    intro most hmost
    cases hmost
    exact hlength
  simp [readOctet, IPv4.decimal, hread]

/-! ## IPv4 addresses -/

/-- An IPv4 address is read back if no further digit follows it. -/
theorem readIPv4_chars (ip : IPv4) {rest : List Char} (hrest : Ends 10 rest) :
    readIPv4 (ip.chars ++ rest) = some (ip, rest) := by
  have hpoint : ∀ text, Ends 10 ('.' :: text) := fun text => ends_cons rfl
  simp [readIPv4, IPv4.chars, readOctet_decimal, readChar, hpoint, hrest]

/-- No IPv4 address begins where the digits do not end at a point. -/
theorem readIPv4_eq_none {text : List Char} (h : (Digits.span 10 text).2.head? ≠ some '.') :
    readIPv4 text = none := by
  have hrest : ∀ found ∈ readOctet text, readChar '.' found.2 = none := by
    intro found hfound
    simp only [readOctet, Option.mem_def, Option.map_eq_some_iff] at hfound
    obtain ⟨⟨n, rest⟩, hread, rfl⟩ := hfound
    have hbehind : rest = (Digits.span 10 text).2 := by
      simp only [readNumber] at hread
      split_ifs at hread
      cases hread
      rfl
    rw [hbehind]
    cases hcs : (Digits.span 10 text).2 with
    | nil => rfl
    | cons c cs =>
        have hc : c ≠ '.' := by
          rintro rfl
          exact h (by rw [hcs]; rfl)
        simp [readChar, hc]
  cases hoctet : readOctet text with
  | none => simp [readIPv4, hoctet]
  | some found =>
      obtain ⟨a, rest⟩ := found
      simp [readIPv4, hoctet, hrest _ hoctet]

/-! ## Groups -/

/-- What stands behind a row of groups: the gap that a run of zeros leaves, a scope, or the closing
bracket. -/
inductive Behind : List Char → Prop
  | gap (text : List Char) : Behind (':' :: ':' :: text)
  | scope (text : List Char) : Behind ('%' :: text)
  | bracket (text : List Char) : Behind (']' :: text)

/-- The characters that may follow a group. -/
def Closes (text : List Char) : Prop := ∀ c ∈ text.head?, c = ':' ∨ c = '%' ∨ c = ']'

theorem Behind.closes {text : List Char} (h : Behind text) : Closes text := by
  intro c hc
  cases h with
  | gap text => exact Or.inl (Option.some.inj hc).symm
  | scope text => exact Or.inr (Or.inl (Option.some.inj hc).symm)
  | bracket text => exact Or.inr (Or.inr (Option.some.inj hc).symm)

theorem Closes.ends {text : List Char} (h : Closes text) : Ends 16 text := by
  intro c hc
  rcases h c hc with rfl | rfl | rfl <;> rfl

theorem Closes.head?_ne {text : List Char} (h : Closes text) : text.head? ≠ some '.' := by
  intro hpoint
  rcases h '.' hpoint with hc | hc | hc <;> cases hc

theorem point_not_mem_groupChars (g : UInt16) : '.' ∉ IPv6.groupChars g := by
  obtain ⟨ds, hds, hspelled⟩ := Digits.toDigits_spelled (by decide : 1 < 16) g.toNat
  intro hmem
  rw [IPv6.groupChars, hds, List.mem_map] at hmem
  obtain ⟨d, hd, hpoint⟩ := hmem
  have hdigit := Digits.ofChar?_digitChar (hspelled.below d hd) (Nat.le_refl 16)
  rw [hpoint] at hdigit
  cases hdigit

theorem readGroup_groupChars (g : UInt16) {rest : List Char} (hrest : Closes rest) :
    readGroup (IPv6.groupChars g ++ rest) = some (g, rest) := by
  have hlt : g.toNat < 65536 := g.toNat_lt
  have hlength : (Nat.toDigits 16 g.toNat).length ≤ 4 :=
    (Nat.length_toDigits_le_iff (by decide) (by decide)).mpr (by omega)
  have hread : readNumber 16 (some 4) true 0xFFFF (Nat.toDigits 16 g.toNat ++ rest) =
      some (g.toNat, rest) := by
    apply readNumber_toDigits true (by decide) (Nat.le_refl 16) (by omega) _ hrest.ends
    intro most hmost
    cases hmost
    exact hlength
  simp [readGroup, IPv6.groupChars, hread]

/-- A group is not taken for the first part of an IPv4 address. -/
theorem readIPv4_groupChars (g : UInt16) {rest : List Char} (hrest : Closes rest) :
    readIPv4 (IPv6.groupChars g ++ rest) = none := by
  apply readIPv4_eq_none
  exact Digits.head?_span_append_ne (point_not_mem_groupChars g) (hrest.ends.mono (by decide))
    hrest.head?_ne

/-- Groups with a colon before each. -/
def following (gs : List UInt16) : List Char := gs.flatMap fun g => ':' :: IPv6.groupChars g

theorem joinGroups_cons (g : UInt16) (gs : List UInt16) :
    IPv6.joinGroups (g :: gs) = IPv6.groupChars g ++ following gs := by
  induction gs generalizing g with
  | nil => simp [IPv6.joinGroups, following]
  | cons h gs ih => simp [IPv6.joinGroups, following, ih h]

theorem closes_following {rest : List Char} (hrest : Closes rest) (gs : List UInt16) :
    Closes (following gs ++ rest) := by
  cases gs with
  | nil => exact hrest
  | cons g gs =>
      intro c hc
      exact Or.inl (Option.some.inj hc).symm

/-! ## Rows of groups -/

/-- A row of groups ends where something else stands. -/
theorem readGroups_behind {rest : List Char} (hrest : Behind rest) (room index : Nat) :
    readGroups room index rest = ⟨[], false, rest⟩ := by
  cases room with
  | zero => rfl
  | succ room =>
      -- Neither the text itself nor what follows its colon begins with a digit.
      have hnone : ∀ text, Ends 16 text → readIPv4 text = none ∧ readGroup text = none := by
        intro text htext
        have hten := (htext.mono (by decide : 10 ≤ 16)).span_eq
        have hsixteen := htext.span_eq
        constructor
        · simp [readIPv4, readOctet, readNumber, hten]
        · simp [readGroup, readNumber, hsixteen]
      have hself := hnone rest hrest.closes.ends
      by_cases hindex : index = 0
      · simp [readGroups, readSeparator, hindex, hself.1, hself.2]
      · cases hrest with
        | gap text =>
            have hcolon := hnone (':' :: text) (ends_cons rfl)
            simp [readGroups, readSeparator, hindex, readChar, hcolon.1, hcolon.2]
        | scope text => simp [readGroups, readSeparator, hindex, readChar]
        | bracket text => simp [readGroups, readSeparator, hindex, readChar]

/-- A group that another character than a point follows is read as one. -/
theorem readGroups_groupChars {room index : Nat} {text rest : List Char} (g : UInt16)
    (hrest : Closes rest)
    (htext : readSeparator ':' index text = some ((), IPv6.groupChars g ++ rest)) :
    readGroups (room + 1) index text =
      ⟨g :: (readGroups room (index + 1) rest).groups, (readGroups room (index + 1) rest).dotted,
        (readGroups room (index + 1) rest).rest⟩ := by
  simp [readGroups, htext, readIPv4_groupChars g hrest, readGroup_groupChars g hrest]

section

variable {rest : List Char} (hrest : Behind rest)

include hrest

theorem readGroups_following {gs : List UInt16} {room index : Nat} (hindex : index ≠ 0)
    (hroom : gs.length ≤ room) :
    readGroups room index (following gs ++ rest) = ⟨gs, false, rest⟩ := by
  induction gs generalizing room index with
  | nil => exact readGroups_behind hrest room index
  | cons g gs ih =>
      obtain ⟨room, rfl⟩ : ∃ more, room = more + 1 := by
        simp only [List.length_cons] at hroom
        exact ⟨room - 1, by omega⟩
      have htail := ih (Nat.succ_ne_zero index) (Nat.le_of_succ_le_succ hroom)
      have hseparator : readSeparator ':' index (following (g :: gs) ++ rest) =
          some ((), IPv6.groupChars g ++ (following gs ++ rest)) := by
        simp [readSeparator, hindex, following, readChar]
      rw [readGroups_groupChars g (closes_following hrest.closes gs) hseparator, htail]

/-- A row of groups is read back if there is room for it. -/
theorem readGroups_joinGroups {gs : List UInt16} (room : Nat) (hroom : gs.length ≤ room) :
    readGroups room 0 (IPv6.joinGroups gs ++ rest) = ⟨gs, false, rest⟩ := by
  cases gs with
  | nil => exact readGroups_behind hrest room 0
  | cons g gs =>
      obtain ⟨room, rfl⟩ : ∃ more, room = more + 1 := by
        simp only [List.length_cons] at hroom
        exact ⟨room - 1, by omega⟩
      have htail := readGroups_following hrest Nat.one_ne_zero (Nat.le_of_succ_le_succ hroom)
      have hseparator : readSeparator ':' 0 (IPv6.joinGroups (g :: gs) ++ rest) =
          some ((), IPv6.groupChars g ++ (following gs ++ rest)) := by
        simp [readSeparator, joinGroups_cons]
      rw [readGroups_groupChars g (closes_following hrest.closes gs) hseparator, htail]

end

/-! ## The run of zeros -/

/-- A run of neighbouring groups that are all zero. -/
structure IsZeroRun (groups : List UInt16) (run : IPv6.ZeroRun) : Prop where
  fits : run.start + run.length ≤ groups.length
  zero : ∀ i, run.start ≤ i → i < run.start + run.length → groups[i]? = some 0

theorem isZeroRun_empty (groups : List UInt16) : IsZeroRun groups ⟨0, 0⟩ :=
  ⟨Nat.zero_le _, fun _ hlow hhigh => absurd hhigh (Nat.not_lt.mpr hlow)⟩

/-- A run that ends before a zero group goes on with it. -/
theorem IsZeroRun.snoc {groups : List UInt16} {i : Nat} {run : IPv6.ZeroRun}
    (hrun : IsZeroRun groups run) (hend : 0 < run.length → run.start + run.length = i)
    (hi : groups[i]? = some 0) :
    IsZeroRun groups ⟨if run.length = 0 then i else run.start, run.length + 1⟩ := by
  have hlt : i < groups.length := (List.getElem?_eq_some_iff.mp hi).1
  by_cases hempty : run.length = 0
  · simp only [hempty, if_true]
    refine ⟨Nat.succ_le_of_lt hlt, fun j hlow hhigh => ?_⟩
    have hj : j = i := Nat.le_antisymm (Nat.le_of_lt_succ hhigh) hlow
    exact hj ▸ hi
  · have hbound := hend (Nat.pos_of_ne_zero hempty)
    have hnext : run.start + (run.length + 1) = i + 1 := by omega
    simp only [if_neg hempty]
    refine ⟨hnext.trans_le hlt, fun j hlow hhigh => ?_⟩
    by_cases hj : j < run.start + run.length
    · exact hrun.zero j hlow hj
    · have hle : j ≤ i := Nat.le_of_lt_succ (Nat.lt_of_lt_of_eq hhigh hnext)
      have hj : j = i := by omega
      exact hj ▸ hi

/-- The search for the longest run never leaves the runs of zeros. -/
theorem isZeroRun_longestRunFrom {groups done rest : List UInt16} {i : Nat}
    {longest current : IPv6.ZeroRun} (hgroups : groups = done ++ rest) (hi : done.length = i)
    (hlongest : IsZeroRun groups longest) (hcurrent : IsZeroRun groups current)
    (hend : 0 < current.length → current.start + current.length = i) :
    IsZeroRun groups (IPv6.longestRunFrom i longest current rest) := by
  induction rest generalizing done i longest current with
  | nil => exact hlongest
  | cons g rest ih =>
      have hnext : groups = (done ++ [g]) ++ rest := by
        rw [hgroups, List.append_assoc]
        rfl
      have hlength : (done ++ [g]).length = i + 1 := by
        rw [List.length_append, hi]
        rfl
      by_cases hzero : g = 0
      · have hg : groups[i]? = some 0 := by
          rw [hgroups, ← hi, List.getElem?_append_right (Nat.le_refl _), Nat.sub_self, hzero]
          rfl
        have hmore := hcurrent.snoc hend hg
        have hbest : IsZeroRun groups (if longest.length < current.length + 1 then
            ⟨if current.length = 0 then i else current.start, current.length + 1⟩
              else longest) := by
          by_cases hlonger : longest.length < current.length + 1
          · exact (if_pos hlonger).symm ▸ hmore
          · exact (if_neg hlonger).symm ▸ hlongest
        have hbound : (if current.length = 0 then i else current.start) + (current.length + 1) =
            i + 1 := by
          split_ifs with hempty
          · omega
          · have hlast := hend (Nat.pos_of_ne_zero hempty)
            omega
        simp only [IPv6.longestRunFrom, if_pos hzero]
        exact ih hnext hlength hbest hmore fun _ => hbound
      · simp only [IPv6.longestRunFrom, if_neg hzero]
        exact ih hnext hlength hlongest (isZeroRun_empty groups)
          fun hpos => absurd hpos (Nat.lt_irrefl 0)

/-- The groups are those before the run that is left out, its zeros, and those behind it. -/
theorem groups_eq_around_longestRun (groups : List UInt16) :
    groups = groups.take (IPv6.longestRun groups).start ++
      List.replicate (IPv6.longestRun groups).length 0 ++
      groups.drop ((IPv6.longestRun groups).start + (IPv6.longestRun groups).length) := by
  have hrun : IsZeroRun groups (IPv6.longestRun groups) :=
    isZeroRun_longestRunFrom (List.nil_append groups).symm rfl (isZeroRun_empty groups)
      (isZeroRun_empty groups) fun hpos => absurd hpos (Nat.lt_irrefl 0)
  have hzeros : (groups.drop (IPv6.longestRun groups).start).take (IPv6.longestRun groups).length =
      List.replicate (IPv6.longestRun groups).length 0 := by
    apply List.ext_getElem?
    intro j
    rw [List.getElem?_take, List.getElem?_replicate, List.getElem?_drop]
    split_ifs with hj
    · exact hrun.zero _ (Nat.le_add_right _ _) (Nat.add_lt_add_left hj _)
    · rfl
  rw [← hzeros, List.append_assoc, ← List.drop_drop, List.take_append_drop, List.take_append_drop]

/-! ## IPv6 addresses -/

/-- The groups of an IPv4 address are those it was made of. -/
theorem groups_ofGroups (high low : UInt16) : (IPv4.ofGroups high low).groups = [high, low] := by
  simp only [IPv4.groups, IPv4.ofGroups, Frame.join16]

theorem groups_of_mapped? {ip : IPv6} {v4 : IPv4} (h : ip.mapped? = some v4) :
    ip.groups = [0, 0, 0, 0, 0, 0xFFFF] ++ v4.groups := by
  unfold IPv6.mapped? at h
  split_ifs at h with hfront
  cases h
  rw [groups_ofGroups, ← hfront]
  rfl

section

variable {rest : List Char} (hrest : Behind rest)

include hrest

/-- Eight groups are an address. -/
theorem readIPv6_full (ip : IPv6) :
    readIPv6 (IPv6.joinGroups ip.groups ++ rest) = some (ip, rest) := by
  have hhead := readGroups_joinGroups hrest ip.groups.length (Nat.le_refl _)
  have hlength : ip.groups.length = 8 := rfl
  have hgroups : IPv6.ofGroups? ip.groups = some ip := rfl
  rw [hlength] at hhead
  simp [readIPv6, hhead, hlength, hgroups]

/-- Zeros that were left out are put back. -/
theorem readIPv6_gap {before behind : List UInt16} {zeros : Nat} {ip : IPv6} (hzeros : 0 < zeros)
    (hgroups : ip.groups = before ++ List.replicate zeros 0 ++ behind) :
    readIPv6 (IPv6.joinGroups before ++ [':', ':'] ++ IPv6.joinGroups behind ++ rest) =
      some (ip, rest) := by
  have hlength : before.length + zeros + behind.length = 8 := by
    have hall : ip.groups.length = 8 := rfl
    simpa [hgroups, Nat.add_assoc] using hall
  have hbefore : before.length ≤ 8 := by omega
  have hbehind : behind.length ≤ 7 - before.length := by omega
  have hhead := readGroups_joinGroups (.gap (IPv6.joinGroups behind ++ rest)) 8 hbefore
  have htail := readGroups_joinGroups hrest (7 - before.length) hbehind
  have hmissing : 8 - before.length - behind.length = zeros := by omega
  have hip : IPv6.ofGroups? (before ++ (List.replicate zeros 0 ++ behind)) = some ip := by
    rw [← List.append_assoc, ← hgroups]
    rfl
  have hshort : before.length ≠ 8 := by omega
  simp [readIPv6, hhead, hshort, readChar, htail, hmissing, hip]

/-- The dotted form of an address that is mapped into IPv6 is read as its last two groups. -/
theorem readIPv6_mapped {ip : IPv6} {v4 : IPv4} (h : ip.mapped? = some v4) :
    readIPv6 ([':', ':', 'f', 'f', 'f', 'f', ':'] ++ v4.chars ++ rest) = some (ip, rest) := by
  have hhead := readGroups_behind (.gap (['f', 'f', 'f', 'f', ':'] ++ v4.chars ++ rest)) 8 0
  have hdotted : readIPv4 (v4.chars ++ rest) = some (v4, rest) :=
    readIPv4_chars v4 (hrest.closes.ends.mono (by decide))
  have hlast : readGroups 6 1 (':' :: (v4.chars ++ rest)) = ⟨v4.groups, true, rest⟩ := by
    simp [readGroups, readSeparator, readChar, hdotted]
  have hcloses : Closes (':' :: (v4.chars ++ rest)) := fun c hc => Or.inl (Option.some.inj hc).symm
  have htail : readGroups 7 0 ('f' :: 'f' :: 'f' :: 'f' :: ':' :: (v4.chars ++ rest)) =
      ⟨0xFFFF :: v4.groups, true, rest⟩ := by
    rw [readGroups_groupChars 0xFFFF hcloses rfl, hlast]
  have hip : IPv6.ofGroups? (0 :: 0 :: 0 :: 0 :: 0 :: 0xFFFF :: v4.groups) = some ip := by
    have hgroups := groups_of_mapped? h
    simp only [List.cons_append, List.nil_append] at hgroups
    rw [← hgroups]
    rfl
  have hlength : v4.groups.length = 2 := rfl
  simp only [List.cons_append, List.nil_append] at hhead
  simp [readIPv6, hhead, readChar, htail, hlength, hip]

/-- An IPv6 address is read back. -/
theorem readIPv6_chars (ip : IPv6) : readIPv6 (ip.chars ++ rest) = some (ip, rest) := by
  unfold IPv6.chars
  cases hmapped : ip.mapped? with
  | some v4 => exact readIPv6_mapped hrest hmapped
  | none =>
      by_cases hlong : 1 < (IPv6.longestRun ip.groups).length
      · have hgroups := groups_eq_around_longestRun ip.groups
        simp only [if_pos hlong]
        exact readIPv6_gap hrest (Nat.lt_trans Nat.zero_lt_one hlong) hgroups
      · simp only [if_neg hlong]
        exact readIPv6_full hrest ip

end

/-! ## Ports and scopes -/

theorem readPort_decimal (port : UInt16) :
    readPort (':' :: IPv4.decimal port.toNat) = some (port, []) := by
  have hread : readNumber 10 none true 65535 (Nat.toDigits 10 port.toNat ++ []) =
      some (port.toNat, []) := by
    have hlt : port.toNat < 65536 := port.toNat_lt
    apply readNumber_toDigits true (by decide) (by decide) (by omega) _ (ends_nil 10)
    rintro most ⟨⟩
  rw [List.append_nil] at hread
  simp [readPort, readChar, IPv4.decimal, hread]

theorem readScope_decimal (scope : UInt32) (text : List Char) :
    readScope ('%' :: IPv4.decimal scope.toNat ++ ']' :: text) = some (scope, ']' :: text) := by
  have hread : readNumber 10 none true 4294967295 (Nat.toDigits 10 scope.toNat ++ ']' :: text) =
      some (scope.toNat, ']' :: text) := by
    have hlt : scope.toNat < 4294967296 := scope.toNat_lt
    apply readNumber_toDigits true (by decide) (by decide) (by omega) _ (ends_cons rfl)
    rintro most ⟨⟩
  simp [readScope, readChar, IPv4.decimal, hread]

end Net

namespace SocketAddress

open Net

/-- An address in brackets is read back with its scope, zero being the scope that is not written. -/
theorem readV6_chars (ip : IPv6) (port : UInt16) (scope : UInt32) :
    readV6 (v6 ip port scope).chars = some (v6 ip port scope, []) := by
  by_cases hscope : scope = 0
  · have hip := readIPv6_chars (.bracket (':' :: IPv4.decimal port.toNat)) ip
    simp [chars, readV6, readChar, hscope, hip, readScope, readPort_decimal]
  · have hip := readIPv6_chars
      (.scope (IPv4.decimal scope.toNat ++ ']' :: ':' :: IPv4.decimal port.toNat)) ip
    have hread := readScope_decimal scope (':' :: IPv4.decimal port.toNat)
    simp only [List.cons_append] at hread
    simp [chars, readV6, readChar, hscope, hip, hread, readPort_decimal]

theorem readV4_chars (ip : IPv4) (port : UInt16) :
    readV4 (v4 ip port).chars = some (v4 ip port, []) := by
  have hcolon : Digits.Ends 10 (':' :: IPv4.decimal port.toNat) := Digits.ends_cons rfl
  have hip := readIPv4_chars ip hcolon
  simp [chars, readV4, hip, readPort_decimal]

/-- Every address is read back from its written form. -/
theorem parse?_render (address : SocketAddress) : parse? address.render = some address := by
  cases address with
  | v4 ip port => simp [parse?, render, readV4_chars]
  | v6 ip port scope =>
      -- A bracket begins no IPv4 address.
      have hnone : readV4 (v6 ip port scope).chars = none := by
        have hip : readIPv4 (v6 ip port scope).chars = none := by
          apply readIPv4_eq_none
          simp [chars, (Digits.ends_cons rfl : Digits.Ends 10 ('[' :: _)).span_eq]
        simp [readV4, hip]
      simp [parse?, render, hnone, readV6_chars]

/-- Two addresses are never written alike. -/
theorem render_injective {a b : SocketAddress} (h : a.render = b.render) : a = b := by
  have ha := parse?_render a
  rw [h, parse?_render b] at ha
  exact (Option.some.inj ha).symm

end SocketAddress

end Switchboard
