import Sm4ns3.Message.Serialize

/-!
# The cursor of the decoder

`deserialize_v1` advances one position through the ids and the length table before
it looks at any length. A constant string can be read at its length, where a NUL
stands; so reading `n` octets is defined exactly when the last of them is at most
that NUL (`readId_ok`, `readId_out`, and the same for lengths). `deserialize_v1_eq`
says what is left to do when the variable header was read.
-/

namespace Sm4ns3

open Bytes Cpp Call

/-- A string and the NUL behind it. -/
def terminated (s : StdString) : StdString := s ++ [0]

/-- The octet at a position of a string and its NUL. -/
def octetAt (s : StdString) (i : Nat) : UInt8 := (terminated s).getD i 0

/-- Three octets from a position on, as a length. -/
def lengthAt (s : StdString) (i : Nat) : UInt32 :=
  be24 (octetAt s i) (octetAt s (i + 1)) (octetAt s (i + 2))

/-- `n` lengths from a position on. -/
def lengthsFrom (s : StdString) : Nat → Nat → List UInt32
  | 0, _ => []
  | n + 1, i => lengthAt s i :: lengthsFrom s n (i + 3)

@[simp] theorem length_terminated (s : StdString) : (terminated s).length = s.length + 1 := by
  simp [terminated]

@[simp] theorem length_lengthsFrom (s : StdString) (n i : Nat) :
    (lengthsFrom s n i).length = n := by
  induction n generalizing i with
  | zero => rfl
  | succ n ih => simp [lengthsFrom, ih]

/-- A length of three octets. -/
theorem lengthsFrom_lt (s : StdString) (n i : Nat) :
    ∀ k ∈ lengthsFrom s n i, k.toNat < 2 ^ 24 := by
  induction n generalizing i with
  | zero => intro k hk; cases hk
  | succ n ih =>
    intro k hk
    rcases List.mem_cons.mp hk with h | h
    · rw [h, lengthAt, be24_toNat]
      have ha := (octetAt s i).toNat_lt
      have hb := (octetAt s (i + 1)).toNat_lt
      have hc := (octetAt s (i + 2)).toNat_lt
      omega
    · exact ih (i + 3) k h

/-! ## Reading at a position -/

theorem charAt_ok {s : StdString} {i : Nat} (h : i ≤ s.length) :
    charAt s i = .ok (octetAt s i) := by
  unfold charAt octetAt terminated
  by_cases hi : i < s.length
  · rw [if_pos ⟨by omega, by simpa using hi⟩]
    simp [hi, List.getElem?_append_left]
  · have hlast : i = s.length := by omega
    rw [if_neg (by simpa using hi), if_pos (by rw [hlast])]
    simp [hlast]

theorem charAt_out {s : StdString} {i : Nat} (h : s.length < i) :
    charAt s i = .error (.undefined .outOfRange) := by
  unfold charAt
  rw [if_neg (by simpa using by omega), if_neg (by omega)]

/-- The slice that starts with the octet at a position. -/
theorem slice_terminated_succ {s : StdString} {i n : Nat} (h : i ≤ s.length) :
    slice (terminated s) i (n + 1) = octetAt s i :: slice (terminated s) (i + 1) n := by
  have hi : i < (terminated s).length := by simpa using by omega
  unfold slice octetAt
  rw [List.drop_eq_getElem_cons hi, List.take_succ_cons, List.getD_eq_getElem _ _ hi]

namespace JsonParser

/-! ## Reading the ids and the lengths -/

theorem readId_ok {s : StdString} {n i : Nat} (h : i + n ≤ s.length + 1) (hi : i + n < 2 ^ 31) :
    readId s n i = .ok (slice (terminated s) i n, ((i + n : Nat) : Int)) := by
  induction n generalizing i with
  | zero => simp [readId, slice]
  | succ n ih =>
    have hrest := ih (i := i + 1) (by omega) (by omega)
    rw [slice_terminated_succ (by omega), show i + (n + 1) = i + 1 + n by omega]
    exact readId_succ (charAt_ok (by omega)) (addInt_ok ⟨by omega, by omega⟩)
      (by exact_mod_cast hrest)

theorem readId_out {s : StdString} {n i : Nat} (hi : i ≤ s.length + 1)
    (h : s.length + 1 < i + n) (hn : i + n < 2 ^ 31) :
    readId s n i = .error (.undefined .outOfRange) := by
  induction n generalizing i with
  | zero => omega
  | succ n ih =>
    rw [readId]
    by_cases hlast : i = s.length + 1
    · rw [charAt_out (by omega)]
      rfl
    · have hadd : addInt (i : Int) 1 = .ok ((i + 1 : Nat) : Int) :=
        addInt_ok ⟨by omega, by omega⟩
      rw [charAt_ok (by omega), except_ok_bind, hadd, except_ok_bind,
        ih (by omega) (by omega) (by omega)]
      rfl

theorem readLengths_ok {s : StdString} {n i : Nat} (h : i + 3 * n ≤ s.length + 1)
    (hi : i + 3 * n < 2 ^ 31) :
    readLengths s n i = .ok (lengthsFrom s n i, ((i + 3 * n : Nat) : Int)) := by
  induction n generalizing i with
  | zero => simp [readLengths, lengthsFrom]
  | succ n ih =>
    have hrest := ih (i := i + 3) (by omega) (by omega)
    rw [show i + 3 * (n + 1) = i + 3 + 3 * n by omega]
    refine readLengths_succ (charAt_ok (by omega)) ?_ ?_ (addInt_ok ⟨by omega, by omega⟩)
      (by exact_mod_cast hrest)
    · exact_mod_cast charAt_ok (i := i + 1) (by omega)
    · exact_mod_cast charAt_ok (i := i + 2) (by omega)

theorem readLengths_out {s : StdString} {n i : Nat} (hi : i ≤ s.length + 1)
    (h : s.length + 1 < i + 3 * n) (hn : i + 3 * n < 2 ^ 31) :
    readLengths s n i = .error (.undefined .outOfRange) := by
  induction n generalizing i with
  | zero => omega
  | succ n ih =>
    rw [readLengths]
    -- which of the three octets is the first behind the NUL
    by_cases h₁ : s.length < i
    · rw [charAt_out h₁]
      rfl
    rw [charAt_ok (by omega), except_ok_bind]
    by_cases h₂ : s.length < i + 1
    · have hout : charAt s ((i : Int) + 1) = .error (.undefined .outOfRange) := by
        exact_mod_cast charAt_out h₂
      rw [hout]
      rfl
    have hone : charAt s ((i : Int) + 1) = .ok (octetAt s (i + 1)) := by
      exact_mod_cast charAt_ok (i := i + 1) (by omega)
    rw [hone, except_ok_bind]
    by_cases h₃ : s.length < i + 2
    · have hout : charAt s ((i : Int) + 2) = .error (.undefined .outOfRange) := by
        exact_mod_cast charAt_out h₃
      rw [hout]
      rfl
    have htwo : charAt s ((i : Int) + 2) = .ok (octetAt s (i + 2)) := by
      exact_mod_cast charAt_ok (i := i + 2) (by omega)
    have hadd : addInt (i : Int) 3 = .ok ((i + 3 : Nat) : Int) :=
      addInt_ok ⟨by omega, by omega⟩
    rw [htwo, except_ok_bind, hadd, except_ok_bind, ih (by omega) (by omega) (by omega)]
    rfl

/-! ## Where the cursor stops -/

theorem readId_eq_ok {s t : StdString} {n : Nat} {i j : Int} (hi : i < 2 ^ 31)
    (h : readId s n i = .ok (t, j)) : j = i + n ∧ j < 2 ^ 31 := by
  induction n generalizing i t with
  | zero =>
    cases h
    exact ⟨by omega, hi⟩
  | succ n ih =>
    simp only [readId, except_bind_eq_ok] at h
    obtain ⟨c, -, next, hnext, rest, hrest, h⟩ := h
    obtain ⟨hin, rfl⟩ := addInt_eq_ok hnext
    cases h
    obtain ⟨hj, hlt⟩ := ih hin.2 hrest
    exact ⟨by omega, hlt⟩

theorem readLengths_eq_ok {s : StdString} {ns : List UInt32} {n : Nat} {i j : Int}
    (hi : i < 2 ^ 31) (h : readLengths s n i = .ok (ns, j)) : j = i + 3 * n ∧ j < 2 ^ 31 := by
  induction n generalizing i ns with
  | zero =>
    cases h
    exact ⟨by omega, hi⟩
  | succ n ih =>
    simp only [readLengths, except_bind_eq_ok] at h
    obtain ⟨a, -, b, -, c, -, next, hnext, rest, hrest, h⟩ := h
    obtain ⟨hin, rfl⟩ := addInt_eq_ok hnext
    cases h
    obtain ⟨hj, hlt⟩ := ih hin.2 hrest
    exact ⟨by omega, hlt⟩

end JsonParser

/-! ## The variable header -/

namespace BundleHeader

/-- Where the length table starts. -/
def tableStart (header : BundleHeader) : Nat := header.sendIdLen.toNat + header.destIdLen.toNat

/-- Where the length table ends and the first message starts. -/
def tableEnd (header : BundleHeader) : Nat := header.tableStart + 3 * header.messageCount.toNat

/-- The lengths that the table of a payload spells. -/
def lengths (header : BundleHeader) (payload : StdString) : List UInt32 :=
  lengthsFrom payload header.messageCount.toNat header.tableStart

/-- The send id that a payload spells. -/
def sendId (header : BundleHeader) (payload : StdString) : StdString :=
  slice (terminated payload) 0 header.sendIdLen.toNat

end BundleHeader

namespace JsonParser

variable {J : Jsoncpp} {newBundles : Bool} {header : BundleHeader} {payload : StdString}

/-- With the variable header in range, the messages are added from its end on. -/
theorem deserialize_v1_eq (c : MessageConglomerate) (h : header.tableEnd ≤ payload.length + 1)
    (hsize : header.tableEnd < 2 ^ 31) :
    deserialize_v1 J newBundles header payload c =
      (do
        addMessages J newBundles payload header.tableEnd (header.lengths payload)
        return true) { c with senderId := header.sendId payload } := by
  unfold BundleHeader.tableEnd BundleHeader.tableStart at h hsize
  have hsend : readId payload header.sendIdLen.toNat 0 = .ok (header.sendId payload, _) :=
    readId_ok (i := 0) (by omega) (by omega)
  have hdest := readId_ok (s := payload) (n := header.destIdLen.toNat)
    (i := header.sendIdLen.toNat) (by omega) (by omega)
  have hlens := readLengths_ok (s := payload) (n := header.messageCount.toNat)
    (i := header.tableStart) h hsize
  rw [Nat.zero_add] at hsend
  simp only [deserialize_v1, hsend, eval_ok, pure_bind_apply, modify_bind_apply, hdest]
  rw [← BundleHeader.tableStart, hlens, eval_ok, pure_bind_apply]
  rfl

/-- Behind the NUL the cursor reads out of range. -/
theorem deserialize_v1_out (c : MessageConglomerate) (h : payload.length + 1 < header.tableEnd)
    (hsize : header.tableEnd < 2 ^ 31) :
    ∃ c', deserialize_v1 J newBundles header payload c =
      .error (.undefined .outOfRange) c' := by
  unfold BundleHeader.tableEnd BundleHeader.tableStart at h hsize
  by_cases hsend : payload.length + 1 < header.sendIdLen.toNat
  · refine ⟨c, ?_⟩
    have hout : readId payload header.sendIdLen.toNat 0 = .error (.undefined .outOfRange) :=
      readId_out (i := 0) (by omega) (by omega) (by omega)
    rw [deserialize_v1, hout]
    rfl
  have hread : readId payload header.sendIdLen.toNat 0 = .ok (header.sendId payload, _) :=
    readId_ok (i := 0) (by omega) (by omega)
  rw [Nat.zero_add] at hread
  refine ⟨{ c with senderId := header.sendId payload }, ?_⟩
  simp only [deserialize_v1, hread, eval_ok, pure_bind_apply, modify_bind_apply]
  by_cases hdest : payload.length + 1 < header.tableStart
  · unfold BundleHeader.tableStart at hdest
    rw [readId_out (by omega) (by omega) (by omega)]
    rfl
  unfold BundleHeader.tableStart at hdest
  rw [readId_ok (by omega) (by omega), eval_ok, pure_bind_apply,
    readLengths_out (by omega) (by omega) (by omega)]
  rfl

/-- A payload that is decoded has its table within the range of an `int`. -/
theorem tableEnd_lt_of_deserialize_v1 {c c' : MessageConglomerate} {b : Bool}
    (h : deserialize_v1 J newBundles header payload c = .ok b c') : header.tableEnd < 2 ^ 31 := by
  simp only [deserialize_v1, eval_bind_eq_ok, modify_bind_apply] at h
  obtain ⟨sendId, hsend, destId, hdest, lengths, hlengths, -⟩ := h
  obtain ⟨hi, hlt⟩ := readId_eq_ok (by decide) hsend
  obtain ⟨hj, hlt'⟩ := readId_eq_ok hlt hdest
  obtain ⟨hk, hlt''⟩ := readLengths_eq_ok hlt' hlengths
  unfold BundleHeader.tableEnd BundleHeader.tableStart
  omega

end JsonParser
end Sm4ns3
