import Sm4ns3.Lib.Json.Reader

/-!
# Text that is cut short

What the reader reads from a text it also reads when more text follows, except that a
number at the very end may go on (`readValue_append`). So no proper prefix of an
object's text is read (`parse_truncated`): the whole text would be read with something
left over.
-/

namespace Json

open Bytes

/-! ## Tokens with more text behind them -/

theorem skipSpaces_append_cons {s rest : List UInt8} {c : UInt8} (h : skipSpaces s = c :: rest)
    (more : List UInt8) : skipSpaces (s ++ more) = c :: (rest ++ more) := by
  unfold skipSpaces at h ⊢
  rw [List.dropWhile_append, h]
  rfl

theorem ne_nil_of_skipSpaces {s rest : List UInt8} {c : UInt8} (h : skipSpaces s = c :: rest) :
    s ≠ [] := by
  rintro rfl
  cases h

theorem scanString_append {s body rest : List UInt8} (h : scanString s = some (body, rest))
    (more : List UInt8) : scanString (s ++ more) = some (body, rest ++ more) := by
  fun_induction scanString s generalizing body with
  | case1 => cases h
  | case2 s =>
    cases h
    rw [List.cons_append, scanString.eq_def]
    rfl
  | case3 => cases h
  | case4 d s _ ih =>
    obtain ⟨⟨body', rest'⟩, hscan, heq⟩ := Option.map_eq_some_iff.mp h
    cases heq
    simp [scanString, ih hscan]
  | case5 c s hquote hescape ih =>
    obtain ⟨⟨body', rest'⟩, hscan, heq⟩ := Option.map_eq_some_iff.mp h
    cases heq
    rw [List.cons_append, scanString.eq_def]
    simp [hquote, hescape, ih hscan]

theorem readLiteral_append {lit s rest : List UInt8} {v w : Json}
    (h : readLiteral lit v s = some (w, rest)) (more : List UInt8) :
    readLiteral lit v (s ++ more) = some (w, rest ++ more) := by
  unfold readLiteral at h ⊢
  by_cases hlit : lit <+: s
  · rw [if_pos hlit] at h
    cases h
    rw [if_pos (hlit.trans (List.prefix_append s more)),
      List.drop_append_of_le_length hlit.length_le]
  · rw [if_neg hlit] at h
    cases h

/-- A number token that does not reach the end of the text. -/
theorem number_append {s : List UInt8} (h : s.dropWhile isNumberChar ≠ []) (more : List UInt8) :
    (s ++ more).takeWhile isNumberChar = s.takeWhile isNumberChar ∧
      (s ++ more).dropWhile isNumberChar = s.dropWhile isNumberChar ++ more := by
  have hnot : (s.takeWhile isNumberChar).length ≠ s.length := by
    intro hlen
    have hsplit := congrArg List.length
      (List.takeWhile_append_dropWhile (p := isNumberChar) (l := s))
    rw [List.length_append] at hsplit
    exact h (List.length_eq_zero_iff.mp (by omega))
  constructor
  · rw [List.takeWhile_append, if_neg hnot]
  · rw [List.dropWhile_append, if_neg (by simpa using h)]

/-! ## The reader with more text behind -/

section Append

variable {num : List UInt8 → Option Json}

/-- On a value that is followed by something or is an object. -/
def ValueExtends (num : List UInt8 → Option Json) (fuel fuel' : Nat) : Prop :=
  ∀ {s rest v}, readValue num fuel s = some (v, rest) →
    (rest ≠ [] ∨ (skipSpaces s).head? = some 123) → ∀ more,
      readValue num fuel' (s ++ more) = some (v, rest ++ more)

def ElementsExtend (num : List UInt8 → Option Json) (fuel fuel' : Nat) : Prop :=
  ∀ {s rest xs}, readElements num fuel s = some (xs, rest) → ∀ more,
    readElements num fuel' (s ++ more) = some (xs, rest ++ more)

def MembersExtend (num : List UInt8 → Option Json) (fuel fuel' : Nat) : Prop :=
  ∀ {s rest ms}, readMembers num fuel s = some (ms, rest) → ∀ more,
    readMembers num fuel' (s ++ more) = some (ms, rest ++ more)

theorem readMembers_nil (num : List UInt8 → Option Json) (fuel : Nat) :
    readMembers num fuel [] = none := by
  cases fuel <;> rfl

theorem readElements_nil (num : List UInt8 → Option Json) (fuel : Nat) :
    readElements num fuel [] = none := by
  cases fuel with
  | zero => rfl
  | succ fuel =>
    cases fuel <;> rfl

theorem elementsExtend_succ {fuel fuel' : Nat} (hv : ValueExtends num fuel fuel')
    (he : ElementsExtend num fuel fuel') : ElementsExtend num (fuel + 1) (fuel' + 1) := by
  intro s rest xs h more
  rw [readElements] at h ⊢
  obtain ⟨⟨v, s₁⟩, hread, h⟩ := Option.bind_eq_some_iff.mp h
  dsimp only at h
  cases hs : skipSpaces s₁ with
  | nil =>
    rw [hs] at h
    cases h
  | cons c s₂ =>
    rw [hv hread (.inl (ne_nil_of_skipSpaces hs)) more, Option.bind_eq_bind, Option.bind_some]
    dsimp only
    rw [hs] at h
    rw [skipSpaces_append_cons hs]
    by_cases hcomma : c = 44
    · subst hcomma
      obtain ⟨⟨vs, s₃⟩, hread', h⟩ := Option.bind_eq_some_iff.mp h
      cases h
      simp [he hread' more]
    · by_cases hend : c = 93
      · subst hend
        cases h
        rfl
      · split at h
        · rename_i heq
          exact absurd (List.cons.inj heq).1 hcomma
        · rename_i heq
          exact absurd (List.cons.inj heq).1 hend
        · cases h

/-- A list of members is a key, a colon and a value, and then a comma and more members or the
closing brace. -/
theorem readMembers_succ_eq_some {fuel : Nat} {s rest : List UInt8} {ms : Members} :
    readMembers num (fuel + 1) s = some (ms, rest) ↔
      ∃ s₁ body s₂ k s₃ v s₄, skipSpaces s = 34 :: s₁ ∧ scanString s₁ = some (body, s₂) ∧
        unescape body = some k ∧ skipSpaces s₂ = 58 :: s₃ ∧
        readValue num fuel s₃ = some (v, s₄) ∧
        ((∃ s₅ more, skipSpaces s₄ = 44 :: s₅ ∧ readMembers num fuel s₅ = some (more, rest) ∧
            ms = (k, v) :: more) ∨
          skipSpaces s₄ = 125 :: rest ∧ ms = [(k, v)]) := by
  rw [readMembers]
  constructor
  · intro h
    split at h
    · rename_i s₁ hquote
      obtain ⟨⟨body, s₂⟩, hscan, h⟩ := Option.bind_eq_some_iff.mp h
      obtain ⟨k, hk, h⟩ := Option.bind_eq_some_iff.mp h
      split at h
      · rename_i s₃ hcolon
        obtain ⟨⟨v, s₄⟩, hvalue, h⟩ := Option.bind_eq_some_iff.mp h
        refine ⟨s₁, body, s₂, k, s₃, v, s₄, hquote, hscan, hk, hcolon, hvalue, ?_⟩
        dsimp only at h
        split at h
        · rename_i s₅ hcomma
          obtain ⟨⟨more, s₆⟩, hmore, h⟩ := Option.bind_eq_some_iff.mp h
          cases h
          exact .inl ⟨s₅, more, hcomma, hmore, rfl⟩
        · rename_i s₅ hclose
          cases h
          exact .inr ⟨hclose, rfl⟩
        · cases h
      · cases h
    · cases h
  · intro h
    obtain ⟨s₁, body, s₂, k, s₃, v, s₄, hquote, hscan, hk, hcolon, hvalue, hend⟩ := h
    rcases hend with ⟨s₅, more, hcomma, hmore, rfl⟩ | ⟨hclose, rfl⟩
    · simp [hquote, hscan, hk, hcolon, hvalue, hcomma, hmore]
    · simp [hquote, hscan, hk, hcolon, hvalue, hclose]

theorem membersExtend_succ {fuel fuel' : Nat} (hv : ValueExtends num fuel fuel')
    (hm : MembersExtend num fuel fuel') : MembersExtend num (fuel + 1) (fuel' + 1) := by
  intro s rest ms h more
  obtain ⟨s₁, body, s₂, k, s₃, v, s₄, hquote, hscan, hk, hcolon, hvalue, hend⟩ :=
    readMembers_succ_eq_some.mp h
  have hne : s₄ ≠ [] := by
    rcases hend with ⟨s₅, others, hcomma, -, -⟩ | ⟨hclose, -⟩
    · exact ne_nil_of_skipSpaces hcomma
    · exact ne_nil_of_skipSpaces hclose
  refine readMembers_succ_eq_some.mpr ⟨s₁ ++ more, body, s₂ ++ more, k, s₃ ++ more, v, s₄ ++ more,
    skipSpaces_append_cons hquote more, scanString_append hscan more, hk,
    skipSpaces_append_cons hcolon more, hv hvalue (.inl hne) more, ?_⟩
  rcases hend with ⟨s₅, others, hcomma, hothers, rfl⟩ | ⟨hclose, rfl⟩
  · exact .inl ⟨s₅ ++ more, others, skipSpaces_append_cons hcomma more, hm hothers more, rfl⟩
  · exact .inr ⟨skipSpaces_append_cons hclose more, rfl⟩

/-! ## Values, by their first octet -/

/-- What stands behind an opening bracket: the closing one, or what `read` reads. -/
def readBetween (close : UInt8) (empty : Json) (read : List UInt8 → Option (Json × List UInt8))
    (s : List UInt8) : Option (Json × List UInt8) :=
  match skipSpaces s with
  | [] => read []
  | c :: s => if c = close then some (empty, s) else read (c :: s)

theorem readBetween_append {close : UInt8} {empty : Json}
    {read read' : List UInt8 → Option (Json × List UInt8)} (hnil : read [] = none)
    (hread : ∀ {s rest v}, read s = some (v, rest) → ∀ more,
      read' (s ++ more) = some (v, rest ++ more))
    {s rest : List UInt8} {v : Json} (h : readBetween close empty read s = some (v, rest))
    (more : List UInt8) : readBetween close empty read' (s ++ more) = some (v, rest ++ more) := by
  unfold readBetween at h ⊢
  cases hs : skipSpaces s with
  | nil =>
    rw [hs] at h
    dsimp only at h
    rw [hnil] at h
    cases h
  | cons c s₁ =>
    rw [hs] at h
    rw [skipSpaces_append_cons hs]
    dsimp only at h ⊢
    by_cases hclose : c = close
    · rw [if_pos hclose] at h ⊢
      cases h
      rfl
    · rw [if_neg hclose] at h ⊢
      exact hread h more

theorem readValue_object {fuel : Nat} {s s₁ : List UInt8} (hs : skipSpaces s = 123 :: s₁) :
    readValue num (fuel + 1) s = readBetween 125 (.object [])
      (fun s => (readMembers num fuel s).map fun (ms, rest) => (.object (ofMembers ms), rest))
      s₁ := by
  rw [readValue, hs, readBetween]
  dsimp only
  rw [if_pos rfl]
  cases skipSpaces s₁ with
  | nil => rfl
  | cons c s₂ =>
    by_cases hclose : c = 125
    · subst hclose
      rfl
    · split
      · rename_i heq
        exact absurd (List.cons.inj heq).1 hclose
      · exact (if_neg hclose).symm

theorem readValue_array {fuel : Nat} {s s₁ : List UInt8} (hs : skipSpaces s = 91 :: s₁) :
    readValue num (fuel + 1) s = readBetween 93 (.array [])
      (fun s => (readElements num fuel s).map fun (xs, rest) => (.array xs, rest)) s₁ := by
  rw [readValue, hs, readBetween]
  dsimp only
  rw [if_neg (by decide), if_pos rfl]
  cases skipSpaces s₁ with
  | nil => rfl
  | cons c s₂ =>
    by_cases hclose : c = 93
    · subst hclose
      rfl
    · split
      · rename_i heq
        exact absurd (List.cons.inj heq).1 hclose
      · exact (if_neg hclose).symm

theorem readObject_append {fuel fuel' : Nat} (hm : MembersExtend num fuel fuel')
    {s s₁ rest : List UInt8} {v : Json} (hs : skipSpaces s = 123 :: s₁)
    (h : readValue num (fuel + 1) s = some (v, rest)) (more : List UInt8) :
    readValue num (fuel' + 1) (s ++ more) = some (v, rest ++ more) := by
  rw [readValue_object hs] at h
  rw [readValue_object (skipSpaces_append_cons hs more)]
  refine readBetween_append (by rw [readMembers_nil]; rfl) (fun hread more => ?_) h more
  obtain ⟨⟨ms, s₂⟩, hmembers, heq⟩ := Option.map_eq_some_iff.mp hread
  cases heq
  rw [hm hmembers more]
  rfl

theorem readArray_append {fuel fuel' : Nat} (he : ElementsExtend num fuel fuel')
    {s s₁ rest : List UInt8} {v : Json} (hs : skipSpaces s = 91 :: s₁)
    (h : readValue num (fuel + 1) s = some (v, rest)) (more : List UInt8) :
    readValue num (fuel' + 1) (s ++ more) = some (v, rest ++ more) := by
  rw [readValue_array hs] at h
  rw [readValue_array (skipSpaces_append_cons hs more)]
  refine readBetween_append (by rw [readElements_nil]; rfl) (fun hread more => ?_) h more
  obtain ⟨⟨xs, s₂⟩, helements, heq⟩ := Option.map_eq_some_iff.mp hread
  cases heq
  rw [he helements more]
  rfl

/-- A string, a number that does not end the text, or a literal. -/
theorem readScalar_append {fuel fuel' : Nat} {s s₁ rest : List UInt8} {c : UInt8} {v : Json}
    (hobj : c ≠ 123) (harr : c ≠ 91) (hrest : rest ≠ []) (hs : skipSpaces s = c :: s₁)
    (h : readValue num (fuel + 1) s = some (v, rest)) (more : List UInt8) :
    readValue num (fuel' + 1) (s ++ more) = some (v, rest ++ more) := by
  rw [readValue, hs] at h
  rw [readValue, skipSpaces_append_cons hs]
  dsimp only at h ⊢
  rw [if_neg hobj, if_neg harr] at h ⊢
  by_cases hquote : c = 34
  · rw [if_pos hquote] at h ⊢
    obtain ⟨⟨body, s₂⟩, hscan, h⟩ := Option.bind_eq_some_iff.mp h
    obtain ⟨t, ht, h⟩ := Option.bind_eq_some_iff.mp h
    cases h
    simp [scanString_append hscan, ht]
  rw [if_neg hquote] at h ⊢
  by_cases hnumber : isNumberChar c = true
  · rw [if_pos hnumber] at h ⊢
    obtain ⟨w, hw, heq⟩ := Option.map_eq_some_iff.mp h
    cases heq
    obtain ⟨htake, hdrop⟩ := number_append hrest more
    rw [htake, hdrop, hw]
    rfl
  rw [if_neg hnumber] at h ⊢
  rw [← List.cons_append]
  split at h
  · rename_i hnull
    rw [if_pos hnull]
    exact readLiteral_append h more
  · rename_i hnull
    rw [if_neg hnull]
    split at h
    · rename_i htrue
      rw [if_pos htrue]
      exact readLiteral_append h more
    · rename_i htrue
      rw [if_neg htrue]
      exact readLiteral_append h more

theorem valueExtends_succ {fuel fuel' : Nat} (he : ElementsExtend num fuel fuel')
    (hm : MembersExtend num fuel fuel') : ValueExtends num (fuel + 1) (fuel' + 1) := by
  intro s rest v h hend more
  cases hs : skipSpaces s with
  | nil =>
    rw [readValue, hs] at h
    cases h
  | cons c s₁ =>
    by_cases hobj : c = 123
    · subst hobj
      exact readObject_append hm hs h more
    by_cases harr : c = 91
    · subst harr
      exact readArray_append he hs h more
    have hrest : rest ≠ [] := hend.resolve_right fun hhead => by
      rw [hs] at hhead
      exact hobj (Option.some.inj hhead)
    exact readScalar_append hobj harr hrest hs h more

/-! ## The whole reader -/

/-- More text behind, and more fuel, do not change what is read. -/
theorem readValue_append (num : List UInt8 → Option Json) {fuel fuel' : Nat}
    (hfuel : fuel ≤ fuel') : ValueExtends num fuel fuel' ∧ ElementsExtend num fuel fuel' ∧
      MembersExtend num fuel fuel' := by
  induction fuel generalizing fuel' with
  | zero =>
    refine ⟨fun h => ?_, fun h => ?_, fun h => ?_⟩ <;> cases h
  | succ fuel ih =>
    obtain ⟨k, rfl⟩ : ∃ k, fuel' = k + 1 := ⟨fuel' - 1, by omega⟩
    obtain ⟨hv, he, hm⟩ := ih (Nat.le_of_succ_le_succ hfuel)
    exact ⟨valueExtends_succ he hm, elementsExtend_succ hv he, membersExtend_succ hv hm⟩

/-- The text of an object that is cut short is not read. -/
theorem parse_truncated {ms : Members} {e front back : List UInt8}
    (he : TextMembers num ms e)
    (h : 123 :: (e ++ [125]) = front ++ back) (hback : back ≠ []) : parse num front = none := by
  cases hread : parse num front with
  | none => rfl
  | some w =>
    obtain ⟨⟨v, rest⟩, hv, -⟩ := Option.map_eq_some_iff.mp hread
    have hhead : (skipSpaces front).head? = some 123 := by
      cases front with
      | nil => cases hv
      | cons c front =>
        obtain rfl : (123 : UInt8) = c := (List.cons.inj h).1
        rfl
    have hlen := congrArg List.length h
    rw [List.length_append] at hlen
    have htext : Text num (.object ms) (123 :: (e ++ [125])) :=
      ⟨e, he, [], [], by simp [Spaces], by simp [Spaces], by simp⟩
    obtain ⟨w, hspaces, hwhole⟩ := readValue_text (.object ms) (r := []) htext
      (by intro c s hnil; cases hnil) (le_refl _)
    have hfuel : 2 * front.length + 1 ≤ 2 * (123 :: (e ++ [125])).length + 1 := by omega
    have hmore := (readValue_append num hfuel).1 hv (.inr hhead) back
    rw [List.append_nil] at hwhole
    rw [← h, hwhole] at hmore
    -- the last octet is the closing brace, which is no space
    have hlast : (125 : UInt8) ∈ back := by
      have hget := congrArg List.getLast? h
      rw [List.getLast?_append_of_ne_nil _ hback, ← List.cons_append,
        List.getLast?_concat] at hget
      exact List.mem_of_getLast? hget.symm
    have hrest : w ++ [] = rest ++ back := congrArg Prod.snd (Option.some.inj hmore)
    have hspace := hspaces 125 (by
      rw [← List.append_nil w, hrest]
      exact List.mem_append_right rest hlast)
    cases hspace

end Append
end Json
