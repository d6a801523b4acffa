import Sm4ns3.Lib.Bytes
import Mathlib.Data.List.Basic

/-!
# JSON values

The values a reader produces: signed and unsigned integers are kept apart, an
object is its list of members in key order. `insertMember` writes one member of
such a list, and `canonical` says of a value that every object lists its
members once each in key order and that an integer is unsigned only beyond the
signed 32-bit range. `cut` is the value with every string cut at its first NUL.
-/

/-- An IEEE double by its bit pattern. Nothing here computes with one. -/
structure Double where
  bits : UInt64
  deriving DecidableEq, Repr

/-- Neither an infinity nor a NaN. -/
def Double.isFinite (d : Double) : Bool := d.bits >>> 52 &&& 2047 != 2047

inductive Json where
  | null
  | int (i : Int)
  | uint (n : Nat)
  | real (d : Double)
  | string (s : List UInt8)
  | boolean (b : Bool)
  | array (xs : List Json)
  | object (members : List (List UInt8 × Json))

namespace Json

abbrev Members := List (List UInt8 × Json)

/-! ## Equality -/

mutual
/-- Structural equality. -/
def beq : Json → Json → Bool
  | .null, .null => true
  | .int i, .int j => decide (i = j)
  | .uint m, .uint n => decide (m = n)
  | .real d, .real e => decide (d = e)
  | .string s, .string t => decide (s = t)
  | .boolean a, .boolean b => decide (a = b)
  | .array xs, .array ys => beqElements xs ys
  | .object ms, .object ns => beqMembers ms ns
  | _, _ => false

def beqElements : List Json → List Json → Bool
  | [], [] => true
  | x :: xs, y :: ys => beq x y && beqElements xs ys
  | _, _ => false

def beqMembers : Members → Members → Bool
  | [], [] => true
  | (k, x) :: ms, (l, y) :: ns => decide (k = l) && beq x y && beqMembers ms ns
  | _, _ => false
end

mutual
theorem beq_iff : ∀ a b : Json, beq a b = true ↔ a = b
  | .null, b => by cases b <;> simp [beq]
  | .int i, b => by cases b <;> simp [beq]
  | .uint n, b => by cases b <;> simp [beq]
  | .real d, b => by cases b <;> simp [beq]
  | .string s, b => by cases b <;> simp [beq]
  | .boolean c, b => by cases b <;> simp [beq]
  | .array xs, b => by cases b <;> simp [beq, beqElements_iff xs]
  | .object ms, b => by cases b <;> simp [beq, beqMembers_iff ms]

theorem beqElements_iff : ∀ xs ys : List Json, beqElements xs ys = true ↔ xs = ys
  | [], ys => by cases ys <;> simp [beqElements]
  | x :: xs, ys => by cases ys <;> simp [beqElements, beq_iff x, beqElements_iff xs]

theorem beqMembers_iff : ∀ ms ns : Members, beqMembers ms ns = true ↔ ms = ns
  | [], ns => by cases ns <;> simp [beqMembers]
  | (k, x) :: ms, ns => by
    cases ns <;> simp [beqMembers, beq_iff x, beqMembers_iff ms, Prod.ext_iff, and_assoc]
end

instance : DecidableEq Json := fun a b => decidable_of_iff _ (beq_iff a b)

/-! ## Members of an object -/

/-- Write the member `k`, at its place in key order or over its old value. -/
def insertMember (k : List UInt8) (v : Json) : Members → Members
  | [] => [(k, v)]
  | (l, w) :: ms =>
    if k = l then (k, v) :: ms
    else if k < l then (k, v) :: (l, w) :: ms
    else (l, w) :: insertMember k v ms

@[simp] theorem lookup_insertMember_self (k : List UInt8) (v : Json) (ms : Members) :
    (insertMember k v ms).lookup k = some v := by
  induction ms with
  | nil => simp [insertMember]
  | cons m ms ih =>
    obtain ⟨l, w⟩ := m
    unfold insertMember
    split
    · simp
    · rename_i hne
      have hkl : (k == l) = false := beq_false_of_ne hne
      split
      · simp
      · simp [List.lookup_cons, hkl, ih]

/-- Of two writes of one member the later one counts. -/
theorem insertMember_insertMember (k : List UInt8) (v w : Json) (ms : Members) :
    insertMember k v (insertMember k w ms) = insertMember k v ms := by
  induction ms with
  | nil => simp [insertMember]
  | cons m ms ih =>
    obtain ⟨l, x⟩ := m
    by_cases hkl : k = l
    · simp [insertMember, hkl]
    · by_cases hlt : k < l
      · simp [insertMember, hkl, hlt]
      · simp [insertMember, hkl, hlt, ih]

/-- Keys in increasing order, each once. -/
def KeysSorted (ms : Members) : Prop := ms.Pairwise fun a b => a.1 < b.1

instance (ms : Members) : Decidable (KeysSorted ms) :=
  inferInstanceAs (Decidable (List.Pairwise _ ms))

theorem mem_insertMember {k : List UInt8} {v : Json} {ms : Members} {m : List UInt8 × Json}
    (h : m ∈ insertMember k v ms) : m = (k, v) ∨ m ∈ ms := by
  induction ms with
  | nil => simpa [insertMember] using h
  | cons n ms ih =>
    obtain ⟨l, w⟩ := n
    unfold insertMember at h
    split at h
    · simp only [List.mem_cons] at h ⊢
      tauto
    · split at h
      · simp only [List.mem_cons] at h ⊢
        tauto
      · simp only [List.mem_cons] at h ⊢
        rcases h with h | h
        · exact .inr (.inl h)
        · rcases ih h with h | h
          · exact .inl h
          · exact .inr (.inr h)

/-- Writing a member keeps the key order. -/
theorem KeysSorted.insertMember {ms : Members} (h : KeysSorted ms) (k : List UInt8) (v : Json) :
    KeysSorted (insertMember k v ms) := by
  induction ms with
  | nil => exact List.pairwise_singleton _ _
  | cons m ms ih =>
    obtain ⟨l, w⟩ := m
    obtain ⟨hl, hms⟩ := List.pairwise_cons.mp h
    unfold Json.insertMember
    split
    · rename_i hkl
      subst hkl
      exact List.pairwise_cons.mpr ⟨hl, hms⟩
    · rename_i hne
      split
      · rename_i hlt
        refine List.pairwise_cons.mpr ⟨?_, h⟩
        intro n hn
        rcases List.mem_cons.mp hn with rfl | hn
        · exact hlt
        · exact Bytes.lt_trans hlt (hl n hn)
      · rename_i hge
        have hlk : l < k := Bytes.lt_of_not_lt_of_ne hge hne
        refine List.pairwise_cons.mpr ⟨?_, ih hms⟩
        intro n hn
        rcases mem_insertMember hn with rfl | hn
        · exact hlk
        · exact hl n hn

/-- A member after all others is written at the end. -/
theorem insertMember_concat {ms : Members} {k : List UInt8} (v : Json)
    (h : ∀ m ∈ ms, m.1 < k) : insertMember k v ms = ms ++ [(k, v)] := by
  induction ms with
  | nil => rfl
  | cons m ms ih =>
    obtain ⟨l, w⟩ := m
    have hlt : l < k := h (l, w) List.mem_cons_self
    have hne : k ≠ l := fun e => Bytes.lt_irrefl k (by rwa [← e] at hlt)
    have hge : ¬ k < l := fun hkl => Bytes.lt_irrefl l (Bytes.lt_trans hlt hkl)
    rw [insertMember, if_neg hne, if_neg hge, ih fun n hn => h n (List.mem_cons_of_mem _ hn)]
    rfl

/-- The members of an object whose text lists `ms`: a later one replaces an
earlier one with its key. -/
def ofMembers (ms : Members) : Members := ms.foldl (fun acc m => insertMember m.1 m.2 acc) []

theorem foldl_insertMember {acc ms : Members} (h : KeysSorted (acc ++ ms)) :
    ms.foldl (fun acc m => insertMember m.1 m.2 acc) acc = acc ++ ms := by
  induction ms generalizing acc with
  | nil => simp
  | cons m ms ih =>
    have hlt : ∀ n ∈ acc, n.1 < m.1 := fun n hn =>
      (List.pairwise_append.mp h).2.2 n hn m List.mem_cons_self
    rw [List.foldl_cons, insertMember_concat m.2 hlt, ih (by simpa using h)]
    simp

/-- Members listed in key order are the object's members. -/
theorem ofMembers_eq {ms : Members} (h : KeysSorted ms) : ofMembers ms = ms :=
  foldl_insertMember (by simpa using h)

/-! ## Canonical values -/

mutual
/-- A value as a reader builds it. -/
def canonical : Json → Bool
  | .int i => decide (-2 ^ 63 ≤ i) && decide (i < 2 ^ 31)
  | .uint n => decide (2 ^ 31 ≤ n) && decide (n < 2 ^ 64)
  | .real d => d.isFinite
  | .array xs => canonicalElements xs
  | .object ms => decide (KeysSorted ms) && canonicalMembers ms
  | _ => true

def canonicalElements : List Json → Bool
  | [] => true
  | x :: xs => canonical x && canonicalElements xs

def canonicalMembers : Members → Bool
  | [] => true
  | (_, x) :: ms => canonical x && canonicalMembers ms
end

theorem canonicalElements_iff {xs : List Json} :
    canonicalElements xs = true ↔ ∀ x ∈ xs, canonical x = true := by
  induction xs with
  | nil => simp [canonicalElements]
  | cons x xs ih => simp [canonicalElements, ih]

theorem canonicalMembers_iff {ms : Members} :
    canonicalMembers ms = true ↔ ∀ m ∈ ms, canonical m.2 = true := by
  induction ms with
  | nil => simp [canonicalMembers]
  | cons m ms ih => simp [canonicalMembers, ih]

/-- Writing a canonical member keeps an object canonical. -/
theorem canonical_insertMember {ms : Members} {k : List UInt8} {v : Json}
    (hms : canonical (.object ms) = true) (hv : canonical v = true) :
    canonical (.object (insertMember k v ms)) = true := by
  simp only [canonical, Bool.and_eq_true, decide_eq_true_eq, canonicalMembers_iff] at hms ⊢
  refine ⟨hms.1.insertMember k v, fun m hm => ?_⟩
  rcases mem_insertMember hm with rfl | hm
  · exact hv
  · exact hms.2 m hm

mutual
/-- The numbers of the value are as a reader builds them; its objects may list their members
in any order. -/
def wellNumbered : Json → Bool
  | .array xs => wellNumberedElements xs
  | .object ms => wellNumberedMembers ms
  | v => canonical v

def wellNumberedElements : List Json → Bool
  | [] => true
  | x :: xs => wellNumbered x && wellNumberedElements xs

def wellNumberedMembers : Members → Bool
  | [] => true
  | (_, x) :: ms => wellNumbered x && wellNumberedMembers ms
end

mutual
theorem wellNumbered_of_canonical : ∀ {v : Json}, canonical v = true → wellNumbered v = true
  | .array xs, h => by
    rw [wellNumbered]
    exact wellNumberedElements_of_canonical h
  | .object ms, h => by
    rw [canonical, Bool.and_eq_true] at h
    exact wellNumberedMembers_of_canonical h.2
  | .null, h => h
  | .int _, h => h
  | .uint _, h => h
  | .real _, h => h
  | .string _, h => h
  | .boolean _, h => h

theorem wellNumberedElements_of_canonical : ∀ {xs : List Json},
    canonicalElements xs = true → wellNumberedElements xs = true
  | [], _ => rfl
  | x :: xs, h => by
    rw [canonicalElements, Bool.and_eq_true] at h
    rw [wellNumberedElements, wellNumbered_of_canonical h.1,
      wellNumberedElements_of_canonical h.2]
    rfl

theorem wellNumberedMembers_of_canonical : ∀ {ms : Members},
    canonicalMembers ms = true → wellNumberedMembers ms = true
  | [], _ => rfl
  | (_, x) :: ms, h => by
    rw [canonicalMembers, Bool.and_eq_true] at h
    rw [wellNumberedMembers, wellNumbered_of_canonical h.1, wellNumberedMembers_of_canonical h.2]
    rfl
end

/-! ## Merged members -/

mutual
/-- The value that is read from a text of one whose objects list their members in any order
and any number of times. -/
def merged : Json → Json
  | .array xs => .array (mergedElements xs)
  | .object ms => .object (ofMembers (mergedMembers ms))
  | v => v

def mergedElements : List Json → List Json
  | [] => []
  | x :: xs => merged x :: mergedElements xs

def mergedMembers : Members → Members
  | [] => []
  | (k, x) :: ms => (k, merged x) :: mergedMembers ms
end

mutual
theorem merged_eq : ∀ {v : Json}, canonical v = true → merged v = v
  | .array xs, h => by
    rw [canonical] at h
    rw [merged, mergedElements_eq h]
  | .object ms, h => by
    rw [canonical, Bool.and_eq_true, decide_eq_true_eq] at h
    rw [merged, mergedMembers_eq h.2, ofMembers_eq h.1]
  | .null, _ => rfl
  | .int _, _ => rfl
  | .uint _, _ => rfl
  | .real _, _ => rfl
  | .string _, _ => rfl
  | .boolean _, _ => rfl

theorem mergedElements_eq : ∀ {xs : List Json}, canonicalElements xs = true →
    mergedElements xs = xs
  | [], _ => rfl
  | x :: xs, h => by
    rw [canonicalElements, Bool.and_eq_true] at h
    rw [mergedElements, merged_eq h.1, mergedElements_eq h.2]

theorem mergedMembers_eq : ∀ {ms : Members}, canonicalMembers ms = true → mergedMembers ms = ms
  | [], _ => rfl
  | (k, x) :: ms, h => by
    rw [canonicalMembers, Bool.and_eq_true] at h
    rw [mergedMembers, merged_eq h.1, mergedMembers_eq h.2]
end

/-! ## C strings -/

mutual
/-- The value with its strings and keys as C strings. -/
def cut : Json → Json
  | .string s => .string (Bytes.cString s)
  | .array xs => .array (cutElements xs)
  | .object ms => .object (cutMembers ms)
  | v => v

def cutElements : List Json → List Json
  | [] => []
  | x :: xs => cut x :: cutElements xs

def cutMembers : Members → Members
  | [] => []
  | (k, x) :: ms => (Bytes.cString k, cut x) :: cutMembers ms
end

mutual
/-- A value that was cut has no NUL left. -/
theorem cut_cut : ∀ v : Json, cut (cut v) = cut v
  | .string s => by rw [cut, cut, Bytes.cString_eq (Bytes.not_mem_cString s)]
  | .array xs => by rw [cut, cut, cutElements_cut xs]
  | .object ms => by rw [cut, cut, cutMembers_cut ms]
  | .null => rfl
  | .int _ => rfl
  | .uint _ => rfl
  | .real _ => rfl
  | .boolean _ => rfl

theorem cutElements_cut : ∀ xs : List Json, cutElements (cutElements xs) = cutElements xs
  | [] => rfl
  | x :: xs => by rw [cutElements, cutElements, cut_cut x, cutElements_cut xs]

theorem cutMembers_cut : ∀ ms : Members, cutMembers (cutMembers ms) = cutMembers ms
  | [] => rfl
  | (k, x) :: ms => by
    rw [cutMembers, cutMembers, Bytes.cString_eq (Bytes.not_mem_cString k), cut_cut x,
      cutMembers_cut ms]
end

theorem cutElements_map (xs : List Json) : cutElements xs = xs.map cut := by
  induction xs with
  | nil => rfl
  | cons x xs ih => rw [cutElements, ih, List.map_cons]

theorem cutMembers_insertMember {ms : Members} {k : List UInt8} {v : Json}
    (hms : cutMembers ms = ms) (hk : Bytes.cString k = k) (hv : cut v = v) :
    cutMembers (insertMember k v ms) = insertMember k v ms := by
  induction ms with
  | nil => simp [insertMember, cutMembers, hk, hv]
  | cons m ms ih =>
    obtain ⟨l, w⟩ := m
    simp only [cutMembers, List.cons.injEq] at hms
    unfold insertMember
    split
    · simp [cutMembers, hk, hv, hms.2]
    · split
      · simp only [cutMembers, hk, hv, hms]
      · simp only [cutMembers, hms.1, ih hms.2]

theorem cutMembers_foldl {acc ms : Members} (hacc : cutMembers acc = acc)
    (hms : cutMembers ms = ms) :
    cutMembers (ms.foldl (fun acc m => insertMember m.1 m.2 acc) acc) =
      ms.foldl (fun acc m => insertMember m.1 m.2 acc) acc := by
  induction ms generalizing acc with
  | nil => exact hacc
  | cons m ms ih =>
    simp only [cutMembers, List.cons.injEq, Prod.ext_iff] at hms
    exact ih (cutMembers_insertMember hacc hms.1.1 hms.1.2) hms.2

mutual
/-- Merging the members of a value without NULs makes up none. -/
theorem cut_merged : ∀ {v : Json}, cut v = v → cut (merged v) = merged v
  | .array xs, h => by
    rw [cut, Json.array.injEq] at h
    rw [merged, cut, cutElements_merged h]
  | .object ms, h => by
    rw [cut, Json.object.injEq] at h
    rw [merged, cut, ofMembers, cutMembers_foldl rfl (cutMembers_merged h)]
  | .string _, h => h
  | .null, _ => rfl
  | .int _, _ => rfl
  | .uint _, _ => rfl
  | .real _, _ => rfl
  | .boolean _, _ => rfl

theorem cutElements_merged : ∀ {xs : List Json}, cutElements xs = xs →
    cutElements (mergedElements xs) = mergedElements xs
  | [], _ => rfl
  | x :: xs, h => by
    rw [cutElements, List.cons.injEq] at h
    rw [mergedElements, cutElements, cut_merged h.1, cutElements_merged h.2]

theorem cutMembers_merged : ∀ {ms : Members}, cutMembers ms = ms →
    cutMembers (mergedMembers ms) = mergedMembers ms
  | [], _ => rfl
  | (k, x) :: ms, h => by
    simp only [cutMembers, List.cons.injEq, Prod.mk.injEq] at h
    rw [mergedMembers, cutMembers, h.1.1, cut_merged h.1.2, cutMembers_merged h.2]
end

mutual
/-- Cutting strings changes no number. -/
theorem wellNumbered_cut : ∀ v : Json, wellNumbered (cut v) = wellNumbered v
  | .array xs => wellNumberedElements_cut xs
  | .object ms => wellNumberedMembers_cut ms
  | .string _ => rfl
  | .null => rfl
  | .int _ => rfl
  | .uint _ => rfl
  | .real _ => rfl
  | .boolean _ => rfl

theorem wellNumberedElements_cut : ∀ xs : List Json,
    wellNumberedElements (cutElements xs) = wellNumberedElements xs
  | [] => rfl
  | x :: xs => by
    rw [cutElements, wellNumberedElements, wellNumberedElements, wellNumbered_cut x,
      wellNumberedElements_cut xs]

theorem wellNumberedMembers_cut : ∀ ms : Members,
    wellNumberedMembers (cutMembers ms) = wellNumberedMembers ms
  | [] => rfl
  | (k, x) :: ms => by
    rw [cutMembers, wellNumberedMembers, wellNumberedMembers, wellNumbered_cut x,
      wellNumberedMembers_cut ms]
end

theorem canonical_of_lookup {ms : Members} {k : List UInt8} {v : Json}
    (hms : canonical (.object ms) = true) (h : ms.lookup k = some v) : canonical v = true := by
  simp only [canonical, Bool.and_eq_true, canonicalMembers_iff] at hms
  obtain ⟨front, back, rfl, -⟩ := List.lookup_eq_some_iff.mp h
  exact hms.2 (k, v) (by simp)

theorem canonicalElements_concat {xs : List Json} {x : Json} :
    canonicalElements (xs ++ [x]) = true ↔ canonicalElements xs = true ∧ canonical x = true := by
  simp only [canonicalElements_iff, List.forall_mem_append, List.forall_mem_singleton]

end Json
