import Mathlib.Data.Nat.Bitwise
import Mathlib.Data.List.Basic
import Mathlib.Data.List.TakeWhile
import Mathlib.Tactic.IntervalCases
import Mathlib.Tactic.Push

/-!
# Byte strings

Strings are lists of octets, as `std::string` is. Besides literals (`str`) and
slices by offset and length, the file has what length-prefixed formats need:
big-endian words of three and four octets with their readers, and the fact
that a block read at its running offset in a concatenation is that block.
Hexadecimal digits are written in either case and read in both.
-/

namespace Bytes

/-- The octets of a string literal. -/
def str (s : String) : List UInt8 := s.toByteArray.data.toList

/-- Distinct literals have distinct octets. -/
@[simp] theorem str_inj {a b : String} : str a = str b ↔ a = b := by
  constructor
  · intro h
    have hdata : a.toByteArray.data = b.toByteArray.data := Array.toList_inj.mp h
    exact String.toByteArray_inj.mp (ByteArray.ext hdata)
  · rintro rfl
    rfl

/-- What `c_str()` hands to a function that takes a C string: the octets up to
the first NUL. -/
def cString (s : List UInt8) : List UInt8 := s.takeWhile fun c => c ≠ 0

theorem cString_eq {s : List UInt8} (h : 0 ∉ s) : cString s = s :=
  List.takeWhile_eq_self_iff.mpr fun _ hc => decide_eq_true fun e => h (e ▸ hc)

theorem not_mem_cString (s : List UInt8) : 0 ∉ cString s := by
  intro h
  have hc := List.mem_takeWhile_imp h
  exact absurd rfl (of_decide_eq_true hc)

theorem cString_eq_iff {s : List UInt8} : cString s = s ↔ 0 ∉ s :=
  ⟨fun h => h ▸ not_mem_cString s, cString_eq⟩

/-- A list of C strings is made of them. -/
theorem map_cString_eq_iff {xs : List (List UInt8)} :
    xs.map cString = xs ↔ ∀ s ∈ xs, 0 ∉ s := by
  induction xs with
  | nil => simp
  | cons s xs ih => rw [List.map_cons, List.cons.injEq, cString_eq_iff, ih, List.forall_mem_cons]

/-- The pieces of a string are parts of it. -/
theorem sublist_of_mem_splitOn {sep : UInt8} {s piece : List UInt8} (h : piece ∈ s.splitOn sep) :
    piece.Sublist s := by
  induction s generalizing piece with
  | nil =>
    obtain rfl : piece = [] := by simpa using h
    exact List.nil_sublist _
  | cons c s ih =>
    rw [List.splitOn_cons_eq_if_modifyHead] at h
    split at h
    · rcases List.mem_cons.mp h with rfl | hmem
      · exact List.nil_sublist _
      · exact (ih hmem).cons c
    · obtain ⟨first, rest, hsplit⟩ := List.exists_cons_of_ne_nil (List.splitOn_ne_nil sep s)
      rw [hsplit, List.modifyHead_cons] at h
      rcases List.mem_cons.mp h with rfl | hmem
      · exact (ih (hsplit ▸ List.mem_cons_self)).cons_cons c
      · exact (ih (hsplit ▸ List.mem_cons_of_mem first hmem)).cons c

theorem subset_of_mem_splitOn {sep : UInt8} {s piece : List UInt8} (h : piece ∈ s.splitOn sep) :
    piece ⊆ s :=
  (sublist_of_mem_splitOn h).subset

/-! ## Order

Strings are compared octet by octet, as `std::map` compares its string keys. -/

theorem lt_irrefl (s : List UInt8) : ¬ s < s :=
  List.lex_irrefl (fun x => UInt8.lt_irrefl x) s

theorem lt_trans {a b c : List UInt8} (hab : a < b) (hbc : b < c) : a < c :=
  List.lex_trans UInt8.lt_trans hab hbc

theorem lt_of_not_lt_of_ne {a b : List UInt8} (h : ¬ a < b) (hne : a ≠ b) : b < a := by
  induction a generalizing b with
  | nil =>
    cases b with
    | nil => exact absurd rfl hne
    | cons y ys => exact absurd List.Lex.nil h
  | cons x xs ih =>
    cases b with
    | nil => exact List.Lex.nil
    | cons y ys =>
      rw [List.cons_lt_cons_iff] at h ⊢
      push Not at h
      rcases em (x = y) with rfl | hxy
      · exact .inr ⟨rfl, ih (h.2 rfl) fun e => hne (e ▸ rfl)⟩
      · exact .inl ((UInt8.lt_or_lt_of_ne hxy).resolve_left h.1)

/-! ## Slices -/

/-- The `len` octets from offset `off` on. -/
def slice (s : List UInt8) (off len : Nat) : List UInt8 := (s.drop off).take len

@[simp] theorem length_slice {s : List UInt8} {off len : Nat} (h : off + len ≤ s.length) :
    (slice s off len).length = len := by
  simp only [slice, List.length_take, List.length_drop]
  omega

/-- A block in the middle of a concatenation is read back at its offset. -/
theorem slice_middle (a b c : List UInt8) : slice (a ++ (b ++ c)) a.length b.length = b := by
  simp [slice]

/-- Only the first `off + len` octets matter to a slice. -/
theorem slice_append_left {s t : List UInt8} {off len : Nat} (h : off + len ≤ s.length) :
    slice (s ++ t) off len = slice s off len := by
  unfold slice
  rw [List.drop_append_of_le_length (by omega), List.take_append_of_le_length]
  simp only [List.length_drop]
  omega

/-- Two slices that follow each other. -/
theorem slice_add (s : List UInt8) (off m n : Nat) :
    slice s off (m + n) = slice s off m ++ slice s (off + m) n := by
  simp only [slice, ← List.drop_drop, List.take_add]

/-- The slices of a string at the running offsets of consecutive lengths. -/
def slices (s : List UInt8) : Nat → List Nat → List (List UInt8)
  | _, [] => []
  | off, len :: lens => slice s off len :: slices s (off + len) lens

/-- Consecutive blocks are read back at their running offsets. -/
theorem slices_flatten (a : List UInt8) (bs : List (List UInt8)) (c : List UInt8) :
    slices (a ++ (bs.flatten ++ c)) a.length (bs.map List.length) = bs := by
  induction bs generalizing a with
  | nil => rfl
  | cons b bs ih =>
    have hnext := ih (a ++ b)
    simp only [List.length_append, List.append_assoc] at hnext
    simp only [List.map_cons, slices, List.flatten_cons, List.append_assoc, slice_middle, hnext]

/-- Joining consecutive slices gives the slice they cover. -/
theorem flatten_slices (s : List UInt8) (off : Nat) (lens : List Nat) :
    (slices s off lens).flatten = slice s off lens.sum := by
  induction lens generalizing off with
  | nil => simp [slices, slice]
  | cons len lens ih =>
    simp only [slices, List.flatten_cons, ih, List.sum_cons, slice_add]

@[simp] theorem length_slices (s : List UInt8) (off : Nat) (lens : List Nat) :
    (slices s off lens).length = lens.length := by
  induction lens generalizing off with
  | nil => rfl
  | cons len lens ih => simp [slices, ih]

/-- The slice with a given number starts where the ones before it end. -/
theorem slices_getElem? (s : List UInt8) (off : Nat) (lens : List Nat) (k : Nat) :
    (slices s off lens)[k]? = lens[k]?.map (slice s (off + (lens.take k).sum)) := by
  induction lens generalizing off k with
  | nil => rfl
  | cons len lens ih =>
    cases k with
    | zero => simp [slices]
    | succ k => simp [slices, ih, Nat.add_assoc]

/-! ## Hexadecimal digits -/

/-- The octet of a hexadecimal digit, in upper or lower case. -/
def hexDigit (upper : Bool) (d : Nat) : UInt8 :=
  if d < 10 then (48 + d).toUInt8 else ((if upper then 55 else 87) + d).toUInt8

def hexValue (c : UInt8) : Option Nat :=
  if 48 ≤ c ∧ c ≤ 57 then some (c.toNat - 48)
  else if 97 ≤ c ∧ c ≤ 102 then some (c.toNat - 87)
  else if 65 ≤ c ∧ c ≤ 70 then some (c.toNat - 55)
  else none

@[simp] theorem hexValue_hexDigit {upper : Bool} {d : Nat} (h : d < 16) :
    hexValue (hexDigit upper d) = some d := by
  cases upper <;> interval_cases d <;> rfl

/-! ## Big-endian words -/

/-- Three octets, most significant first. -/
def be24 (a b c : UInt8) : UInt32 :=
  (a.toUInt32 <<< 16) ||| (b.toUInt32 <<< 8) ||| c.toUInt32

/-- Four octets, most significant first. -/
def be32 (a b c d : UInt8) : UInt32 :=
  (a.toUInt32 <<< 24) ||| (b.toUInt32 <<< 16) ||| (c.toUInt32 <<< 8) ||| d.toUInt32

/-- A shifted word and a lower part do not overlap: joining them adds. -/
theorem shiftLeft_lor {hi lo k : Nat} (h : lo < 2 ^ k) : hi <<< k ||| lo = hi * 2 ^ k + lo := by
  rw [← Nat.shiftLeft_add_eq_or_of_lt h, Nat.shiftLeft_eq]

theorem be24_toNat (a b c : UInt8) :
    (be24 a b c).toNat = a.toNat * 65536 + b.toNat * 256 + c.toNat := by
  have ha := a.toNat_lt
  have hb := b.toNat_lt
  have hc := c.toNat_lt
  have hA : a.toNat <<< 16 % 2 ^ 32 = a.toNat <<< 16 := by
    apply Nat.mod_eq_of_lt
    rw [Nat.shiftLeft_eq]
    omega
  have hB : b.toNat <<< 8 % 2 ^ 32 = b.toNat <<< 8 := by
    apply Nat.mod_eq_of_lt
    rw [Nat.shiftLeft_eq]
    omega
  have hBC : b.toNat <<< 8 ||| c.toNat = b.toNat * 2 ^ 8 + c.toNat := shiftLeft_lor hc
  simp only [be24, UInt32.toNat_or, UInt32.toNat_shiftLeft, UInt8.toNat_toUInt32,
    UInt32.reduceToNat, Nat.reduceMod, hA, hB, Nat.lor_assoc, hBC]
  rw [shiftLeft_lor (by omega)]
  omega

theorem be32_toNat (a b c d : UInt8) :
    (be32 a b c d).toNat =
      a.toNat * 16777216 + b.toNat * 65536 + c.toNat * 256 + d.toNat := by
  have ha := a.toNat_lt
  have hb := b.toNat_lt
  have hc := c.toNat_lt
  have hd := d.toNat_lt
  have hA : a.toNat <<< 24 % 2 ^ 32 = a.toNat <<< 24 := by
    apply Nat.mod_eq_of_lt
    rw [Nat.shiftLeft_eq]
    omega
  have hlow : be32 a b c d = (a.toUInt32 <<< 24) ||| be24 b c d := by
    simp only [be32, be24, UInt32.or_assoc]
  rw [hlow]
  simp only [UInt32.toNat_or, UInt32.toNat_shiftLeft, UInt8.toNat_toUInt32,
    UInt32.reduceToNat, Nat.reduceMod, hA, be24_toNat]
  rw [shiftLeft_lor (by omega)]
  omega

/-- The octet of `n` that starts at bit `k`. -/
theorem toUInt8_shiftRight_toNat (n k : UInt32) (hk : k.toNat < 32) :
    (n >>> k).toUInt8.toNat = n.toNat / 2 ^ k.toNat % 256 := by
  simp [UInt32.toNat_shiftRight, Nat.mod_eq_of_lt hk, Nat.shiftRight_eq_div_pow]

theorem octet24_toNat (n : UInt32) : (n >>> 24).toUInt8.toNat = n.toNat / 2 ^ 24 % 256 :=
  toUInt8_shiftRight_toNat n 24 (by decide)

theorem octet16_toNat (n : UInt32) : (n >>> 16).toUInt8.toNat = n.toNat / 2 ^ 16 % 256 :=
  toUInt8_shiftRight_toNat n 16 (by decide)

theorem octet8_toNat (n : UInt32) : (n >>> 8).toUInt8.toNat = n.toNat / 2 ^ 8 % 256 :=
  toUInt8_shiftRight_toNat n 8 (by decide)

/-- A word below `2 ^ 24` is rebuilt from its three octets. -/
theorem be24_octets {n : UInt32} (h : n.toNat < 2 ^ 24) :
    be24 (n >>> 16).toUInt8 (n >>> 8).toUInt8 n.toUInt8 = n := by
  apply UInt32.toNat_inj.mp
  rw [be24_toNat, octet16_toNat, octet8_toNat, UInt32.toNat_toUInt8]
  omega

/-- Every 32-bit word is rebuilt from its four octets. -/
theorem be32_octets (n : UInt32) :
    be32 (n >>> 24).toUInt8 (n >>> 16).toUInt8 (n >>> 8).toUInt8 n.toUInt8 = n := by
  have hn := n.toNat_lt
  apply UInt32.toNat_inj.mp
  rw [be32_toNat, octet24_toNat, octet16_toNat, octet8_toNat, UInt32.toNat_toUInt8]
  omega

/-- The octets of a word are the octets it was joined from. -/
theorem octets_be24 (a b c : UInt8) :
    (be24 a b c >>> 16).toUInt8 = a ∧ (be24 a b c >>> 8).toUInt8 = b ∧
      (be24 a b c).toUInt8 = c := by
  have ha := a.toNat_lt
  have hb := b.toNat_lt
  have hc := c.toNat_lt
  have hword := be24_toNat a b c
  refine ⟨?_, ?_, ?_⟩ <;> apply UInt8.toNat_inj.mp
  · rw [octet16_toNat]
    omega
  · rw [octet8_toNat]
    omega
  · rw [UInt32.toNat_toUInt8]
    omega

theorem octets_be32 (a b c d : UInt8) :
    (be32 a b c d >>> 24).toUInt8 = a ∧ (be32 a b c d >>> 16).toUInt8 = b ∧
      (be32 a b c d >>> 8).toUInt8 = c ∧ (be32 a b c d).toUInt8 = d := by
  have ha := a.toNat_lt
  have hb := b.toNat_lt
  have hc := c.toNat_lt
  have hd := d.toNat_lt
  have hword := be32_toNat a b c d
  refine ⟨?_, ?_, ?_, ?_⟩ <;> apply UInt8.toNat_inj.mp
  · rw [octet24_toNat]
    omega
  · rw [octet16_toNat]
    omega
  · rw [octet8_toNat]
    omega
  · rw [UInt32.toNat_toUInt8]
    omega

end Bytes
