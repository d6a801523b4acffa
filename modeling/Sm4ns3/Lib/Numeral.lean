import Mathlib.Data.Nat.Digits.Lemmas

/-!
# Numerals

A natural number in a base, written with a symbol for each digit, most significant
digit first (`numeral`), and the number that symbols spell when they are read from
the left (`spelled`). `spelled_numeral`: a numeral spells the number it was written
for. `length_numeral_le`: it has no more symbols than the number has digits.
-/

namespace Numeral

variable {α : Type} {b : Nat} {symbol : Nat → α} {digit : α → Nat}

/-- The symbols of the digits of `n`, without leading zeros. -/
def numeral (b : Nat) (symbol : Nat → α) (n : Nat) : List α :=
  if n = 0 then [symbol 0] else (Nat.digits b n).reverse.map symbol

/-- The number that `start` becomes when the symbols are read after it. -/
def spelled (b : Nat) (digit : α → Nat) (start : Nat) (s : List α) : Nat :=
  s.foldl (fun n c => n * b + digit c) start

@[simp] theorem numeral_zero : numeral b symbol 0 = [symbol 0] := if_pos rfl

theorem numeral_of_ne_zero {n : Nat} (h : n ≠ 0) :
    numeral b symbol n = (Nat.digits b n).reverse.map symbol := if_neg h

@[simp] theorem spelled_nil (start : Nat) : spelled b digit start [] = start := rfl

@[simp] theorem spelled_cons (start : Nat) (c : α) (s : List α) :
    spelled b digit start (c :: s) = spelled b digit (start * b + digit c) s := rfl

theorem spelled_append (start : Nat) (s t : List α) :
    spelled b digit start (s ++ t) = spelled b digit (spelled b digit start s) t :=
  List.foldl_append

theorem numeral_ne_nil (n : Nat) : numeral b symbol n ≠ [] := by
  by_cases h : n = 0
  · subst h
    simp
  · rw [numeral_of_ne_zero h]
    simpa [Nat.digits_eq_nil_iff_eq_zero] using h

theorem mem_numeral (hb : 1 < b) {n : Nat} {c : α} (h : c ∈ numeral b symbol n) :
    ∃ d < b, c = symbol d := by
  by_cases hn : n = 0
  · subst hn
    rw [numeral_zero, List.mem_singleton] at h
    exact ⟨0, by omega, h⟩
  · rw [numeral_of_ne_zero hn] at h
    obtain ⟨d, hd, rfl⟩ := List.mem_map.mp h
    exact ⟨d, Nat.digits_lt_base hb (List.mem_reverse.mp hd), rfl⟩

theorem length_numeral_le (hb : 1 < b) {n k : Nat} (hk : 0 < k) (h : n < b ^ k) :
    (numeral b symbol n).length ≤ k := by
  by_cases hn : n = 0
  · subst hn
    rw [numeral_zero, List.length_singleton]
    exact hk
  · rw [numeral_of_ne_zero hn, List.length_map, List.length_reverse]
    exact (Nat.digits_length_le_iff hb n).mpr h

/-- Digits that their symbols stand for are read back as their positional value. -/
theorem spelled_symbols {ds : List Nat} (h : ∀ d ∈ ds, digit (symbol d) = d) :
    spelled b digit 0 (ds.reverse.map symbol) = Nat.ofDigits b ds := by
  induction ds with
  | nil => rfl
  | cons d ds ih =>
    have hd : digit (symbol d) = d := h d List.mem_cons_self
    have hds := ih fun e he => h e (List.mem_cons_of_mem d he)
    rw [List.reverse_cons, List.map_append, spelled_append, hds, List.map_singleton,
      spelled_cons, spelled_nil, hd, Nat.ofDigits_cons, Nat.add_comm, Nat.mul_comm]

/-- What is written in a base is read back in it. -/
theorem spelled_numeral (hb : 1 < b) (h : ∀ d < b, digit (symbol d) = d) (n : Nat) :
    spelled b digit 0 (numeral b symbol n) = n := by
  by_cases hn : n = 0
  · subst hn
    rw [numeral_zero, spelled_cons, spelled_nil, h 0 (by omega), Nat.zero_mul]
  · rw [numeral_of_ne_zero hn, spelled_symbols fun d hd => h d (Nat.digits_lt_base hb hd),
      Nat.ofDigits_digits]

end Numeral
