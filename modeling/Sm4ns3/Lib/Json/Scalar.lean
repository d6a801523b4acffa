import Sm4ns3.Lib.Json.Reader
import Sm4ns3.Lib.Numeral

/-!
# Scalars as tokens

Integers in decimal and strings in quotes, written as jsoncpp writes them, are
tokens that read back: `number_renderInt`, `number_renderUInt`, `quoted_quote`.
How a double is spelled is left to the caller, who says what a token with a
point or an exponent decodes to (`decodeReal`).
-/

namespace Json

open Bytes Numeral

/-! ## Integers -/

/-- Decimal digits, without leading zeros. -/
def decimal (n : Nat) : List UInt8 :=
  if n = 0 then [48] else (Nat.digits 10 n).reverse.map fun d => (48 + d).toUInt8

/-- The number a list of decimal digits spells. -/
def decimalValue (ds : List UInt8) : Nat := ds.foldl (fun n d => n * 10 + (d.toNat - 48)) 0

def renderInt (i : Int) : List UInt8 :=
  if i < 0 then 45 :: decimal i.natAbs else decimal i.toNat

def renderUInt (n : Nat) : List UInt8 := decimal n

/-- Decode a number token: as a double if it has a point, an exponent or a
second sign, or if it is out of the 64-bit range; as a signed integer up to the
largest `int`, else as an unsigned one. -/
def decodeNumber (decodeReal : List UInt8 → Option Double) (tok : List UInt8) : Option Json :=
  let real := (decodeReal tok).map Json.real
  if tok.any (fun c => c == 46 || c == 101 || c == 69 || c == 43) || tok.tail.contains 45 then real
  else if tok.head? = some 45 then
    let n := decimalValue tok.tail
    if tok.tail.isEmpty then none else if n ≤ 2 ^ 63 then some (.int (-n)) else real
  else
    let n := decimalValue tok
    if n < 2 ^ 31 then some (.int n) else if n < 2 ^ 64 then some (.uint n) else real

theorem isDigit_add {d : Nat} (h : d < 10) : isDigit (48 + d).toUInt8 = true := by
  interval_cases d <;> decide

theorem decimal_eq (n : Nat) : decimal n = numeral 10 (fun d => (48 + d).toUInt8) n := rfl

theorem decimal_ne_nil (n : Nat) : decimal n ≠ [] := numeral_ne_nil n

theorem isDigit_decimal (n : Nat) : ∀ c ∈ decimal n, isDigit c = true := by
  intro c hc
  rw [decimal_eq] at hc
  obtain ⟨d, hd, rfl⟩ := mem_numeral (by decide) hc
  exact isDigit_add hd

theorem toNat_digit {d : Nat} (h : d < 10) : ((48 + d).toUInt8).toNat - 48 = d := by
  interval_cases d <;> rfl

theorem decimalValue_decimal (n : Nat) : decimalValue (decimal n) = n := by
  rw [decimal_eq]
  exact spelled_numeral (by decide) (fun _ => toNat_digit) n

theorem isNumberChar_of_isDigit {c : UInt8} (h : isDigit c = true) : isNumberChar c = true := by
  simp [isNumberChar, h]

/-- A digit is no point, exponent mark or sign. -/
theorem isDigit_plain {c : UInt8} (h : isDigit c = true) :
    (c == 46 || c == 101 || c == 69 || c == 43) = false ∧ c ≠ 45 := by
  constructor
  · by_contra hne
    have hc : c = 46 ∨ c = 101 ∨ c = 69 ∨ c = 43 := by
      simpa only [Bool.not_eq_false, Bool.or_eq_true, beq_iff_eq, or_assoc] using hne
    rcases hc with rfl | rfl | rfl | rfl <;> exact absurd h (by decide)
  · rintro rfl
    exact absurd h (by decide)

theorem digits_plain {ds : List UInt8} (h : ∀ c ∈ ds, isDigit c = true) :
    ds.any (fun c => c == 46 || c == 101 || c == 69 || c == 43) = false ∧
      ds.contains 45 = false := by
  constructor
  · exact List.any_eq_false.mpr fun c hc => by simpa using (isDigit_plain (h c hc)).1
  · rw [List.contains_eq_mem, decide_eq_false_iff_not]
    exact fun hmem => (isDigit_plain (h 45 hmem)).2 rfl

theorem decodeNumber_decimal (decodeReal : List UInt8 → Option Double) (n : Nat) :
    decodeNumber decodeReal (decimal n) =
      if n < 2 ^ 31 then some (.int n) else if n < 2 ^ 64 then some (.uint n)
      else (decodeReal (decimal n)).map .real := by
  have hd := isDigit_decimal n
  obtain ⟨hany, -⟩ := digits_plain hd
  have htail : (decimal n).tail.contains 45 = false :=
    (digits_plain fun c hc => hd c (List.mem_of_mem_tail hc)).2
  have hhead : (decimal n).head? ≠ some 45 := by
    intro h
    exact (isDigit_plain (hd 45 (List.mem_of_mem_head? h))).2 rfl
  simp only [decodeNumber, hany, htail, Bool.or_false, Bool.false_eq_true, if_false, hhead,
    decimalValue_decimal]

theorem decodeNumber_neg (decodeReal : List UInt8 → Option Double) {n : Nat} (h : n ≤ 2 ^ 63) :
    decodeNumber decodeReal (45 :: decimal n) = some (.int (-n)) := by
  have hd := isDigit_decimal n
  obtain ⟨hany, hminus⟩ := digits_plain hd
  have hne : (decimal n).isEmpty = false := by
    simpa [List.isEmpty_iff] using decimal_ne_nil n
  unfold decodeNumber
  simp only [List.any_cons, hany, List.tail_cons, hminus, List.head?_cons, hne,
    decimalValue_decimal, h, if_true]
  rfl

/-- A signed integer the reader can produce reads back from its decimal token. -/
theorem number_renderInt (decodeReal : List UInt8 → Option Double) {i : Int}
    (h : canonical (.int i) = true) : Number (decodeNumber decodeReal) (.int i) (renderInt i) := by
  simp only [canonical, Bool.and_eq_true, decide_eq_true_eq] at h
  unfold renderInt
  split
  · rename_i hneg
    refine ⟨by simp, ?_, ?_⟩
    · intro c hc
      rcases List.mem_cons.mp hc with rfl | hc
      · decide
      · exact isNumberChar_of_isDigit (isDigit_decimal _ c hc)
    · rw [decodeNumber_neg _ (by omega)]
      congr 2
      omega
  · refine ⟨decimal_ne_nil _, fun c hc => isNumberChar_of_isDigit (isDigit_decimal _ c hc), ?_⟩
    rw [decodeNumber_decimal, if_pos (by omega)]
    congr 2
    omega

/-- An unsigned integer the reader can produce reads back from its token. -/
theorem number_renderUInt (decodeReal : List UInt8 → Option Double) {n : Nat}
    (h : canonical (.uint n) = true) :
    Number (decodeNumber decodeReal) (.uint n) (renderUInt n) := by
  simp only [canonical, Bool.and_eq_true, decide_eq_true_eq] at h
  refine ⟨decimal_ne_nil _, fun c hc => isNumberChar_of_isDigit (isDigit_decimal _ c hc), ?_⟩
  rw [renderUInt, decodeNumber_decimal, if_neg (by omega), if_pos h.2]

/-! ## Strings -/

/-- One octet of a string body, escaped when it is a quote, a backslash or a
control character. -/
def escapeOctet (c : UInt8) : List UInt8 :=
  if c = 34 then [92, 34]
  else if c = 92 then [92, 92]
  else if c = 8 then [92, 98]
  else if c = 12 then [92, 102]
  else if c = 10 then [92, 110]
  else if c = 13 then [92, 114]
  else if c = 9 then [92, 116]
  else if c < 32 then [92, 117, 48, 48, hexDigit true (c.toNat / 16), hexDigit true (c.toNat % 16)]
  else [c]

def quote (s : List UInt8) : List UInt8 := 34 :: (s.flatMap escapeOctet ++ [34])

theorem unescape_plain {c : UInt8} (h : c ≠ 92) (s : List UInt8) :
    unescape (c :: s) = (unescape s).map (c :: ·) := by
  rw [unescape.eq_def]
  cases hs : unescape s <;> simp [h, hs]

theorem unescape_escape {d c : UInt8} (hd : d ≠ 117) (h : escapeChar d = some c)
    (s : List UInt8) : unescape (92 :: d :: s) = (unescape s).map (c :: ·) := by
  rw [unescape.eq_def]
  simp only [if_true]
  split
  · rename_i heq
    exact absurd (List.cons.inj heq).1 hd
  · rename_i heq
    obtain ⟨rfl, rfl⟩ := List.cons.inj heq
    rw [h]
    cases unescape s <;> rfl
  · rename_i heq
    cases heq

theorem unescape_control {hi lo : Nat} (hhi : hi < 16) (hlo : lo < 16) (s : List UInt8) :
    unescape (92 :: 117 :: 48 :: 48 :: hexDigit true hi :: hexDigit true lo :: s) =
      (unescape s).map (utf8 (hi * 16 + lo) ++ ·) := by
  rw [unescape.eq_def]
  simp only [if_true, show hexValue 48 = some 0 from rfl, hexValue_hexDigit hhi,
    hexValue_hexDigit hlo, Option.bind_eq_bind, Option.bind_some, Nat.zero_mul, Nat.zero_add]
  cases unescape s <;> rfl

theorem scanString_plain {c : UInt8} (hq : c ≠ 34) (h : c ≠ 92) (s : List UInt8) :
    scanString (c :: s) = (scanString s).map fun (body, rest) => (c :: body, rest) := by
  rw [scanString.eq_def]
  simp [hq, h]

theorem scanString_escape (d : UInt8) (s : List UInt8) :
    scanString (92 :: d :: s) = (scanString s).map fun (body, rest) => (92 :: d :: body, rest) := by
  rw [scanString.eq_def]
  simp

theorem hexDigit_plain {n : Nat} (h : n < 16) : hexDigit true n ≠ 34 ∧ hexDigit true n ≠ 92 := by
  interval_cases n <;> decide

/-- An octet is written as a one-letter escape, as a control character or as itself. -/
theorem escapeOctet_cases (c : UInt8) :
    (∃ d, escapeOctet c = [92, d] ∧ d ≠ 117 ∧ escapeChar d = some c) ∨
    (c.toNat < 32 ∧ escapeOctet c =
      [92, 117, 48, 48, hexDigit true (c.toNat / 16), hexDigit true (c.toNat % 16)]) ∨
    (c ≠ 34 ∧ c ≠ 92 ∧ escapeOctet c = [c]) := by
  by_cases hletter : c = 34 ∨ c = 92 ∨ c = 8 ∨ c = 12 ∨ c = 10 ∨ c = 13 ∨ c = 9
  · apply Or.inl
    rcases hletter with rfl | rfl | rfl | rfl | rfl | rfl | rfl <;>
      exact ⟨_, rfl, by decide, rfl⟩
  · simp only [not_or] at hletter
    obtain ⟨h34, h92, h8, h12, h10, h13, h9⟩ := hletter
    rw [escapeOctet, if_neg h34, if_neg h92, if_neg h8, if_neg h12, if_neg h10, if_neg h13,
      if_neg h9]
    by_cases hcontrol : c < 32
    · rw [if_pos hcontrol]
      exact .inr (.inl ⟨UInt8.lt_iff_toNat_lt.mp hcontrol, rfl⟩)
    · rw [if_neg hcontrol]
      exact .inr (.inr ⟨h34, h92, rfl⟩)

theorem unescape_escapeOctet (c : UInt8) (s : List UInt8) :
    unescape (escapeOctet c ++ s) = (unescape s).map (c :: ·) := by
  obtain ⟨d, heq, hd, hchar⟩ | ⟨hc, heq⟩ | ⟨-, hc, heq⟩ := escapeOctet_cases c <;> rw [heq]
  · exact unescape_escape hd hchar s
  · have hutf : utf8 (c.toNat / 16 * 16 + c.toNat % 16) = [c] := by
      rw [Nat.div_add_mod', utf8, if_pos (by omega)]
      simp
    simp only [List.cons_append, List.nil_append]
    rw [unescape_control (by omega) (by omega), hutf]
    rfl
  · exact unescape_plain hc s

theorem scanString_escapeOctet (c : UInt8) (s : List UInt8) :
    scanString (escapeOctet c ++ s) =
      (scanString s).map fun (body, rest) => (escapeOctet c ++ body, rest) := by
  obtain ⟨d, heq, -, -⟩ | ⟨hc, heq⟩ | ⟨hquote, hslash, heq⟩ := escapeOctet_cases c <;> rw [heq]
  · exact scanString_escape d s
  · have hzero := hexDigit_plain (Nat.zero_lt_succ 15)
    have hhi := hexDigit_plain (n := c.toNat / 16) (by omega)
    have hlo := hexDigit_plain (n := c.toNat % 16) (by omega)
    rw [show (48 : UInt8) = hexDigit true 0 from rfl]
    simp only [List.cons_append, List.nil_append, scanString_escape,
      scanString_plain hzero.1 hzero.2, scanString_plain hhi.1 hhi.2,
      scanString_plain hlo.1 hlo.2, Option.map_map]
    rfl
  · exact scanString_plain hquote hslash s

/-- A string is spelled by its quoted form. -/
theorem quoted_quote (s : List UInt8) : Quoted s (quote s) := by
  refine ⟨s.flatMap escapeOctet, rfl, ?_, fun rest => ?_⟩
  · induction s with
    | nil => rfl
    | cons c s ih => rw [List.flatMap_cons, unescape_escapeOctet, ih, Option.map_some]
  · induction s with
    | nil =>
      rw [List.flatMap_nil, List.nil_append, scanString.eq_def]
      rfl
    | cons c s ih =>
      rw [List.flatMap_cons, List.append_assoc, scanString_escapeOctet, ih, Option.map_some]

end Json
