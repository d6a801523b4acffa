import Sm4ns3.BundleVersion
import Sm4ns3.Lib.Numeral

/-!
# The header codecs

Version 1 writes a header octet by octet and joins the octets again as shifted
`int`s (`read_joined`): what fits the octets is read back, and a header that is read
is written as the octets it came from (`make_read_v1`). Version 0 writes the length
as right-justified hexadecimal text: it always fits the eight columns
(`length_make_bundle_header_v0`), and the reader skips the padding and takes every
digit (`extractHex_padded`).
-/

namespace Sm4ns3
namespace BundleParser

open Bytes Cpp Numeral

/-! ## Version 1 -/

/-- The octets as `int`s, shifted and joined: the top bit of the first is the sign. -/
def joined (a b c d : UInt8) : Int32 :=
  (a.toUInt32.toInt32 <<< 24) ||| (b.toUInt32.toInt32 <<< 16) ||| (c.toUInt32.toInt32 <<< 8) |||
    d.toUInt32.toInt32

/-- The sign bit is the top bit of the length again when the `int` is stored as unsigned. -/
theorem joined_toUInt32 (a b c d : UInt8) : (joined a b c d).toUInt32 = be32 a b c d := rfl

theorem read_joined (sendIdLen destIdLen messageCount a b c d : UInt8) (s : StdString) :
    read_bundle_header_v1 (1 :: sendIdLen :: destIdLen :: messageCount :: a :: b :: c :: d :: s) =
      .ok { sendIdLen := sendIdLen.toNat, destIdLen := destIdLen.toNat
            messageCount := messageCount.toNat, remLen := (joined a b c d).toUInt32 } := by
  rw [joined_toUInt32]
  rfl

theorem ofInt_toNat (c : UInt8) : UInt8.ofInt (c.toNat : Int) = c := by
  apply UInt8.toNat_inj.mp
  have hc := c.toNat_lt
  have hfits := toNat_ofInt (n := (c.toNat : Int)) ⟨by omega, by omega⟩
  exact Int.ofNat_inj.mp hfits

theorem exists_octets {s : StdString} (h : s.length = header_length) :
    ∃ version i j k a b c d, s = [version, i, j, k, a, b, c, d] := by
  rcases s with _ | ⟨version, _ | ⟨i, _ | ⟨j, _ | ⟨k, _ | ⟨a, _ | ⟨b, _ | ⟨c, _ | ⟨d, s⟩⟩⟩⟩⟩⟩⟩⟩
  case cons.cons.cons.cons.cons.cons.cons.cons =>
    obtain rfl : s = [] := by
      apply List.eq_nil_of_length_eq_zero
      simpa [header_length] using h
    exact ⟨_, _, _, _, _, _, _, _, rfl⟩
  all_goals simp [header_length] at h

/-- A header that is read from eight octets is written as these octets. -/
theorem make_read_v1 {s : StdString} (hlen : s.length = header_length)
    (hversion : s.head? = some 1) :
    (read_bundle_header_v1 s).map make_bundle_header_v1 = .ok s := by
  obtain ⟨version, i, j, k, a, b, c, d, rfl⟩ := exists_octets hlen
  obtain rfl : version = 1 := by simpa using hversion
  obtain ⟨ha, hb, hc, hd⟩ := octets_be32 a b c d
  rw [read_joined, joined_toUInt32, Except.map, make_bundle_header_v1]
  simp only [ofInt_toNat, ha, hb, hc, hd]

/-! ## Version 0 -/

theorem hexValue_eq_some {c : UInt8} {d : Nat} (h : hexValue c = some d) :
    48 ≤ c.toNat ∧ c.toNat ≤ 57 ∨ 97 ≤ c.toNat ∧ c.toNat ≤ 102 ∨ 65 ≤ c.toNat ∧ c.toNat ≤ 70 := by
  unfold hexValue at h
  simp only [UInt8.le_iff_toNat_le] at h
  split at h
  · rename_i hc
    exact .inl hc
  · split at h
    · rename_i hc
      exact .inr (.inl hc)
    · split at h
      · rename_i hc
        exact .inr (.inr hc)
      · cases h

/-- A hexadecimal digit is no white space, no sign and not the mark of a base. -/
theorem hexValue_plain {c : UInt8} (h : (hexValue c).isSome = true) :
    (c == 32 || (9 ≤ c && c ≤ 13)) = false ∧ c ≠ 45 ∧ c ≠ 43 ∧ c ≠ 120 ∧ c ≠ 88 := by
  obtain ⟨d, hd⟩ := Option.isSome_iff_exists.mp h
  have hc := hexValue_eq_some hd
  refine ⟨?_, ?_, ?_, ?_, ?_⟩
  · rw [Bool.eq_false_iff]
    simp only [ne_eq, Bool.or_eq_true, beq_iff_eq, Bool.and_eq_true, decide_eq_true_eq,
      UInt8.le_iff_toNat_le, ← UInt8.toNat_inj]
    simp only [UInt8.reduceToNat]
    omega
  all_goals
    rintro rfl
    simp only [UInt8.reduceToNat] at hc
    omega

/-- The digit that an octet stands for. -/
def digitValue (c : UInt8) : Nat := (hexValue c).getD 0

theorem hexPrefix_eq {s : StdString} (h : ∀ c ∈ s, (hexValue c).isSome = true) (count n : Nat) :
    hexPrefix s count n = (count + s.length, spelled 16 digitValue n s) := by
  induction s generalizing count n with
  | nil => rfl
  | cons c s ih =>
    obtain ⟨hc, hs⟩ := List.forall_mem_cons.mp h
    obtain ⟨d, hd⟩ := Option.isSome_iff_exists.mp hc
    have hdigit : digitValue c = d := by rw [digitValue, hd, Option.getD_some]
    simp only [hexPrefix, hd, ih hs, spelled_cons, hdigit, List.length_cons, Prod.mk.injEq,
      and_true]
    omega

/-- The reader skips the padding and takes every digit; a number of more than 32 bits is refused. -/
theorem extractHex_padded {s : StdString} (hne : s ≠ [])
    (h : ∀ c ∈ s, (hexValue c).isSome = true) (k : Nat) :
    extractHex (List.replicate k 32 ++ s) =
      if 2 ^ 32 ≤ spelled 16 digitValue 0 s then none
      else some (UInt32.ofNat (spelled 16 digitValue 0 s)) := by
  obtain ⟨c, t, rfl⟩ := List.exists_cons_of_ne_nil hne
  obtain ⟨hc, ht⟩ := List.forall_mem_cons.mp h
  obtain ⟨hblank, hminus, hplus, -⟩ := hexValue_plain hc
  have hdrop : (List.replicate k 32 ++ c :: t).dropWhile
      (fun c => c == 32 || (9 ≤ c && c ≤ 13)) = c :: t := by
    rw [List.dropWhile_append_of_pos, List.dropWhile_cons_of_neg]
    · simpa using hblank
    · intro a ha
      rw [List.eq_of_mem_replicate ha]
      decide
  unfold extractHex
  simp only [hdrop, List.cons.injEq, hminus, hplus, false_and, imp_false, not_false_eq_true,
    implies_true, Bool.false_eq_true, if_false]
  split
  · rename_i s heq
    obtain ⟨-, rfl⟩ := List.cons.inj heq
    exact absurd (ht 120 List.mem_cons_self) (by decide)
  · rename_i s heq
    obtain ⟨-, rfl⟩ := List.cons.inj heq
    exact absurd (ht 88 List.mem_cons_self) (by decide)
  · rw [hexPrefix_eq h, Nat.zero_add]
    simp only [List.length_cons, Nat.add_eq_zero_iff, one_ne_zero, and_false, false_or]

theorem hex_eq (n : Nat) : hex n = numeral 16 (hexDigit false) n := rfl

theorem isSome_of_mem_hex {n : Nat} : ∀ c ∈ hex n, (hexValue c).isSome = true := by
  intro c hc
  rw [hex_eq] at hc
  obtain ⟨d, hd, rfl⟩ := mem_numeral (by decide) hc
  rw [hexValue_hexDigit hd, Option.isSome_some]

theorem spelled_hex (n : Nat) : spelled 16 digitValue 0 (hex n) = n := by
  rw [hex_eq]
  apply spelled_numeral (by decide)
  intro d hd
  rw [digitValue, hexValue_hexDigit hd, Option.getD_some]

/-- Eight columns are enough for 32 bits. -/
theorem length_hex_le (n : UInt32) : (hex n.toNat).length ≤ header_length := by
  have hn := n.toNat_lt
  rw [hex_eq]
  apply length_numeral_le (by decide) (by decide)
  rw [header_length]
  omega

theorem make_bundle_header_v0_eq (header : BundleHeader) :
    make_bundle_header_v0 header =
      List.replicate (header_length - (hex header.remLen.toNat).length) 32 ++
        hex header.remLen.toNat := by
  have hle := length_hex_le header.remLen
  unfold make_bundle_header_v0
  rw [if_neg]
  rw [not_not, List.length_append, List.length_replicate]
  omega

@[simp] theorem length_make_bundle_header_v0 (header : BundleHeader) :
    (make_bundle_header_v0 header).length = header_length := by
  have hle := length_hex_le header.remLen
  rw [make_bundle_header_v0_eq, List.length_append, List.length_replicate]
  omega

/-- Only the length is read back; the text has no counts. -/
theorem read_make_v0 (header : BundleHeader) :
    read_bundle_header_v0 (make_bundle_header_v0 header) = { remLen := header.remLen } := by
  have hn := header.remLen.toNat_lt
  have hread := extractHex_padded (numeral_ne_nil header.remLen.toNat) isSome_of_mem_hex
    (header_length - (hex header.remLen.toNat).length)
  rw [← hex_eq, ← make_bundle_header_v0_eq, spelled_hex, if_neg (by omega),
    UInt32.ofNat_toNat] at hread
  rw [read_bundle_header_v0, hread, Option.getD_some]

/-- Version 1 reads back the headers whose counts are octets and writes back the headers that it
reads; version 0 always fills its eight octets and reads back the length. -/
theorem header_codecs :
    (∀ header : BundleHeader, header.Fits →
      read_bundle_header_v1 (make_bundle_header_v1 header) = .ok header) ∧
    (∀ s : StdString, s.length = header_length → s.head? = some 1 →
      (read_bundle_header_v1 s).map make_bundle_header_v1 = .ok s) ∧
    (∀ header : BundleHeader, (make_bundle_header_v0 header).length = header_length ∧
      (read_bundle_header_v0 (make_bundle_header_v0 header)).remLen = header.remLen) := by
  refine ⟨fun header hfits => read_make_v1 hfits, fun s hlen hversion => make_read_v1 hlen hversion,
    fun header => ⟨length_make_bundle_header_v0 header, ?_⟩⟩
  rw [read_make_v0]

/-- The largest header, and octets whose length has the sign bit set. -/
theorem header_codecs_largest :
    read_bundle_header_v1 (make_bundle_header_v1 ⟨255, 255, 255, 4294967295⟩) =
        .ok ⟨255, 255, 255, 4294967295⟩ ∧
      (read_bundle_header_v1 [1, 2, 3, 4, 128, 0, 0, 5]).map make_bundle_header_v1 =
        .ok [1, 2, 3, 4, 128, 0, 0, 5] :=
  ⟨header_codecs.1 _ ⟨by decide, by decide, by decide⟩,
    header_codecs.2.1 _ (by decide) (by decide)⟩

end BundleParser
end Sm4ns3
