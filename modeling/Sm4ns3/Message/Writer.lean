import Sm4ns3.Lib.Json.Truncated
import Sm4ns3.Message.Jsoncpp

/-!
# `JsonSingleLineWriter`

The writer walks the value and appends to one document. It never fails on the
structure of a value; it throws on an integer that `asInt` or `asUInt` refuses.
Strings and keys reach the library as C strings, so what is written is a text of
the value cut at its NULs (`writeValue_text`), and a reader that keeps the
library's promise reads that value back (`Reads.readsBack`).
-/

namespace Sm4ns3

open Bytes Cpp

structure JsonSingleLineWriter where
  yamlCompatiblityEnabled_ : Bool := false
  appendNewline : Bool
  deriving DecidableEq, Repr

namespace JsonSingleLineWriter

variable (J : Jsoncpp) (self : JsonSingleLineWriter)

/-- The separator after a member's name. -/
def colon : StdString := if self.yamlCompatiblityEnabled_ then str ": " else str ":"

mutual
def writeValue : Json → Except Fault StdString
  | .null => .ok (str "null")
  | .int i => (Jsoncpp.asInt i).map J.valueToStringInt
  | .uint n => (Jsoncpp.asUInt n).map J.valueToStringUInt
  | .real d => .ok (J.valueToStringDouble d)
  | .string s => .ok (J.valueToQuotedString (cString s))
  | .boolean b => .ok (if b then str "true" else str "false")
  | .array xs => (writeElements xs).map fun e => str "[" ++ (e ++ str "]")
  | .object ms => (writeMembers ms).map fun e => str "\x7b" ++ (e ++ str "\x7d")

/-- The elements of an array, with a comma before each but the first. -/
def writeElements : List Json → Except Fault StdString
  | [] => .ok []
  | [v] => writeValue v
  | v :: w :: vs => do
    let a ← writeValue v
    let b ← writeElements (w :: vs)
    return a ++ (str "," ++ b)

/-- The members of an object in key order, with a comma before each but the first. -/
def writeMembers : Json.Members → Except Fault StdString
  | [] => .ok []
  | [(name, v)] => (writeValue v).map fun a =>
    J.valueToQuotedString (cString name) ++ (colon self ++ a)
  | (name, v) :: m :: ms => do
    let a ← writeValue v
    let b ← writeMembers (m :: ms)
    return J.valueToQuotedString (cString name) ++ (colon self ++ (a ++ (str "," ++ b)))
end

def write (root : Json) : Except Fault StdString := do
  let document ← writeValue J self root
  return if self.appendNewline then document ++ str "\n" else document

/-! ## What is written is JSON -/

variable {J self}

theorem spaces_nil : Json.Spaces [] := by
  intro c hc
  cases hc

theorem padded_self (core : StdString) : Json.Padded core core :=
  ⟨[], [], spaces_nil, spaces_nil, by simp⟩

theorem asInt_eq_ok {i j : Int} (h : Jsoncpp.asInt i = .ok j) : j = i := by
  unfold Jsoncpp.asInt at h
  split at h
  · exact (Except.ok.inj h).symm
  · cases h

theorem asUInt_eq_ok {m n : Nat} (h : Jsoncpp.asUInt m = .ok n) : n = m := by
  unfold Jsoncpp.asUInt at h
  split at h
  · exact (Except.ok.inj h).symm
  · cases h

/-- White space may stand around the text of a value. -/
theorem text_pad {num : StdString → Option Json} {v : Json} {t a b : StdString}
    (ha : Json.Spaces a) (hb : Json.Spaces b) (h : Json.Text num v t) :
    Json.Text num v (a ++ (t ++ b)) := by
  have pad : ∀ {core}, Json.Padded core t → Json.Padded core (a ++ (t ++ b)) := by
    rintro core ⟨c, d, hc, hd, rfl⟩
    exact ⟨a ++ c, d ++ b, ha.append hc, hd.append hb, by simp⟩
  cases v with
  | null => exact pad h
  | boolean b => cases b <;> exact pad h
  | int i => obtain ⟨tok, hn, hp⟩ := h; exact ⟨tok, hn, pad hp⟩
  | uint n => obtain ⟨tok, hn, hp⟩ := h; exact ⟨tok, hn, pad hp⟩
  | real d => obtain ⟨tok, hn, hp⟩ := h; exact ⟨tok, hn, pad hp⟩
  | string s => obtain ⟨q, hq, hp⟩ := h; exact ⟨q, hq, pad hp⟩
  | array xs => obtain ⟨e, he, hp⟩ := h; exact ⟨e, he, pad hp⟩
  | object ms => obtain ⟨e, he, hp⟩ := h; exact ⟨e, he, pad hp⟩

theorem spaces_singleton {c : UInt8} (h : Json.isSpace c = true) : Json.Spaces [c] := by
  intro d hd
  rwa [List.mem_singleton.mp hd]

/-- A value's text may follow a space, as the colon of a member has one. -/
theorem text_space {num : StdString → Option Json} {v : Json} {t : StdString}
    (h : Json.Text num v t) : Json.Text num v (32 :: t) := by
  have hpad := text_pad (spaces_singleton (c := 32) rfl) spaces_nil h
  simpa using hpad

/-- A line break may follow the text of a value. -/
theorem text_newline {num : StdString → Option Json} {v : Json} {t : StdString}
    (h : Json.Text num v t) : Json.Text num v (t ++ str "\n") :=
  text_pad spaces_nil (spaces_singleton (c := 10) rfl) h

/-- A member's name, its colon and the text of its value. -/
theorem member_text (self : JsonSingleLineWriter) {num : StdString → Option Json} {v : Json}
    {t : StdString} (h : Json.Text num v t) :
    ∃ a, Json.Text num v a ∧ colon self ++ t = 58 :: a := by
  unfold colon
  split
  · exact ⟨32 :: t, text_space h, rfl⟩
  · exact ⟨t, h, rfl⟩

section Text

variable {num : StdString → Option Json}

mutual
theorem writeValue_text (hJ : J.Reads num) : ∀ {v : Json} {t : StdString},
    Json.wellNumbered v = true → writeValue J self v = .ok t →
    Json.Text num (Json.cut v) t
  | .null, t, _, h => by
    cases h
    exact padded_self _
  | .int i, t, hc, h => by
    obtain ⟨j, hj, rfl⟩ := except_map_eq_ok.mp h
    obtain rfl := asInt_eq_ok hj
    exact ⟨_, hJ.int hc, padded_self _⟩
  | .uint n, t, hc, h => by
    obtain ⟨m, hm, rfl⟩ := except_map_eq_ok.mp h
    obtain rfl := asUInt_eq_ok hm
    exact ⟨_, hJ.uint hc, padded_self _⟩
  | .real d, t, hc, h => by
    cases h
    exact ⟨_, hJ.double hc, padded_self _⟩
  | .string s, t, _, h => by
    cases h
    exact ⟨_, hJ.quoted (not_mem_cString s), padded_self _⟩
  | .boolean true, t, _, h => by
    cases h
    exact padded_self _
  | .boolean false, t, _, h => by
    cases h
    exact padded_self _
  | .array xs, t, hc, h => by
    obtain ⟨e, he, rfl⟩ := except_map_eq_ok.mp h
    exact ⟨e, writeElements_text hJ hc he, padded_self _⟩
  | .object ms, t, hc, h => by
    obtain ⟨e, he, rfl⟩ := except_map_eq_ok.mp h
    exact ⟨e, writeMembers_text hJ hc he, padded_self _⟩

theorem writeElements_text (hJ : J.Reads num) : ∀ {xs : List Json} {e : StdString},
    Json.wellNumberedElements xs = true → writeElements J self xs = .ok e →
    Json.TextElements num (Json.cutElements xs) e
  | [], e, _, h => by
    cases h
    exact spaces_nil
  | [v], e, hc, h => by
    rw [Json.wellNumberedElements, Bool.and_eq_true] at hc
    exact writeValue_text hJ hc.1 h
  | v :: w :: vs, e, hc, h => by
    rw [Json.wellNumberedElements, Bool.and_eq_true] at hc
    obtain ⟨a, ha, h⟩ := except_bind_eq_ok.mp h
    obtain ⟨b, hb, h⟩ := except_bind_eq_ok.mp h
    cases h
    exact ⟨a, b, writeValue_text hJ hc.1 ha, writeElements_text hJ hc.2 hb, rfl⟩

theorem writeMembers_text (hJ : J.Reads num) : ∀ {ms : Json.Members} {e : StdString},
    Json.wellNumberedMembers ms = true → writeMembers J self ms = .ok e →
    Json.TextMembers num (Json.cutMembers ms) e
  | [], e, _, h => by
    cases h
    exact spaces_nil
  | [(k, v)], e, hc, h => by
    rw [Json.wellNumberedMembers, Bool.and_eq_true] at hc
    obtain ⟨a, ha, rfl⟩ := except_map_eq_ok.mp h
    obtain ⟨b, hb, hcolon⟩ := member_text self (writeValue_text hJ hc.1 ha)
    exact ⟨_, _, b, hJ.quoted (not_mem_cString k), padded_self _, hb, by rw [hcolon]⟩
  | (k, v) :: m :: ms, e, hc, h => by
    rw [Json.wellNumberedMembers, Bool.and_eq_true] at hc
    obtain ⟨a, ha, h⟩ := except_bind_eq_ok.mp h
    obtain ⟨b, hb, h⟩ := except_bind_eq_ok.mp h
    cases h
    obtain ⟨c, hcv, hcolon⟩ := member_text self (writeValue_text hJ hc.1 ha)
    refine ⟨_, _, c, b, hJ.quoted (not_mem_cString k), padded_self _, hcv,
      writeMembers_text hJ hc.2 hb, ?_⟩
    rw [← List.append_assoc (colon self), hcolon]
    rfl
end

/-- A value that is canonical once it is cut is well numbered. -/
theorem wellNumbered_of_cut {v : Json} (hc : Json.canonical (Json.cut v) = true) :
    Json.wellNumbered v = true := by
  rw [← Json.wellNumbered_cut]
  exact Json.wellNumbered_of_canonical hc

theorem write_text (hJ : J.Reads num) {v : Json} {t : StdString}
    (hc : Json.wellNumbered v = true) (h : self.write J v = .ok t) :
    Json.Text num (Json.cut v) t := by
  obtain ⟨document, hd, h⟩ := except_bind_eq_ok.mp h
  have htext := writeValue_text hJ hc hd
  cases h
  split
  · exact text_newline htext
  · exact htext

end Text

/-! ## When something is written -/

mutual
/-- No integer of the value lies outside the 32-bit range. -/
def narrow : Json → Bool
  | .int i => decide (-2 ^ 31 ≤ i ∧ i < 2 ^ 31)
  | .uint n => decide (n < 2 ^ 32)
  | .array xs => narrowElements xs
  | .object ms => narrowMembers ms
  | _ => true

def narrowElements : List Json → Bool
  | [] => true
  | x :: xs => narrow x && narrowElements xs

def narrowMembers : Json.Members → Bool
  | [] => true
  | (_, x) :: ms => narrow x && narrowMembers ms
end

theorem narrowElements_iff {xs : List Json} :
    narrowElements xs = true ↔ ∀ x ∈ xs, narrow x = true := by
  induction xs with
  | nil => simp [narrowElements]
  | cons x xs ih => simp [narrowElements, ih]

mutual
theorem writeValue_ok : ∀ {v : Json}, narrow v = true → ∃ t, writeValue J self v = .ok t
  | .null, _ => ⟨_, rfl⟩
  | .int i, h => ⟨_, except_map_eq_ok.mpr ⟨i, if_pos (of_decide_eq_true h), rfl⟩⟩
  | .uint n, h => ⟨_, except_map_eq_ok.mpr ⟨n, if_pos (of_decide_eq_true h), rfl⟩⟩
  | .real _, _ => ⟨_, rfl⟩
  | .string _, _ => ⟨_, rfl⟩
  | .boolean _, _ => ⟨_, rfl⟩
  | .array xs, h => by
    rw [narrow] at h
    obtain ⟨e, he⟩ := writeElements_ok h
    exact ⟨_, except_map_eq_ok.mpr ⟨e, he, rfl⟩⟩
  | .object ms, h => by
    rw [narrow] at h
    obtain ⟨e, he⟩ := writeMembers_ok h
    exact ⟨_, except_map_eq_ok.mpr ⟨e, he, rfl⟩⟩

theorem writeElements_ok : ∀ {xs : List Json}, narrowElements xs = true →
    ∃ e, writeElements J self xs = .ok e
  | [], _ => ⟨_, rfl⟩
  | [v], h => by
    rw [narrowElements, Bool.and_eq_true] at h
    exact writeValue_ok h.1
  | v :: w :: vs, h => by
    rw [narrowElements, Bool.and_eq_true] at h
    obtain ⟨a, ha⟩ := writeValue_ok h.1
    obtain ⟨b, hb⟩ := writeElements_ok h.2
    exact ⟨_, except_bind_eq_ok.mpr ⟨a, ha, except_bind_eq_ok.mpr ⟨b, hb, rfl⟩⟩⟩

theorem writeMembers_ok : ∀ {ms : Json.Members}, narrowMembers ms = true →
    ∃ e, writeMembers J self ms = .ok e
  | [], _ => ⟨_, rfl⟩
  | [(k, v)], h => by
    rw [narrowMembers, Bool.and_eq_true] at h
    obtain ⟨a, ha⟩ := writeValue_ok h.1
    exact ⟨_, except_map_eq_ok.mpr ⟨a, ha, rfl⟩⟩
  | (k, v) :: m :: ms, h => by
    rw [narrowMembers, Bool.and_eq_true] at h
    obtain ⟨a, ha⟩ := writeValue_ok h.1
    obtain ⟨b, hb⟩ := writeMembers_ok h.2
    exact ⟨_, except_bind_eq_ok.mpr ⟨a, ha, except_bind_eq_ok.mpr ⟨b, hb, rfl⟩⟩⟩
end

mutual
/-- What is written has no integer that the writer refuses. -/
theorem narrow_of_writeValue : ∀ {v : Json} {t : StdString},
    writeValue J self v = .ok t → narrow v = true
  | .null, _, _ => rfl
  | .int i, _, h => by
    obtain ⟨j, hj, -⟩ := except_map_eq_ok.mp h
    unfold Jsoncpp.asInt at hj
    split at hj
    · exact decide_eq_true ‹_›
    · cases hj
  | .uint n, _, h => by
    obtain ⟨m, hm, -⟩ := except_map_eq_ok.mp h
    unfold Jsoncpp.asUInt at hm
    split at hm
    · exact decide_eq_true ‹_›
    · cases hm
  | .real _, _, _ => rfl
  | .string _, _, _ => rfl
  | .boolean _, _, _ => rfl
  | .array xs, _, h => by
    obtain ⟨e, he, -⟩ := except_map_eq_ok.mp h
    rw [narrow]
    exact narrow_of_writeElements he
  | .object ms, _, h => by
    obtain ⟨e, he, -⟩ := except_map_eq_ok.mp h
    rw [narrow]
    exact narrow_of_writeMembers he

theorem narrow_of_writeElements : ∀ {xs : List Json} {e : StdString},
    writeElements J self xs = .ok e → narrowElements xs = true
  | [], _, _ => rfl
  | [v], _, h => by
    rw [narrowElements, narrow_of_writeValue h]
    rfl
  | v :: w :: vs, _, h => by
    obtain ⟨a, ha, h⟩ := except_bind_eq_ok.mp h
    obtain ⟨b, hb, -⟩ := except_bind_eq_ok.mp h
    rw [narrowElements, narrow_of_writeValue ha, narrow_of_writeElements hb]
    rfl

theorem narrow_of_writeMembers : ∀ {ms : Json.Members} {e : StdString},
    writeMembers J self ms = .ok e → narrowMembers ms = true
  | [], _, _ => rfl
  | [(k, v)], _, h => by
    obtain ⟨a, ha, -⟩ := except_map_eq_ok.mp h
    rw [narrowMembers, narrow_of_writeValue ha]
    rfl
  | (k, v) :: m :: ms, _, h => by
    obtain ⟨a, ha, h⟩ := except_bind_eq_ok.mp h
    obtain ⟨b, hb, -⟩ := except_bind_eq_ok.mp h
    rw [narrowMembers, narrow_of_writeValue ha, narrow_of_writeMembers hb]
    rfl
end

theorem narrow_of_write {v : Json} {t : StdString} (h : self.write J v = .ok t) :
    narrow v = true := by
  obtain ⟨document, hdocument, -⟩ := except_bind_eq_ok.mp h
  exact narrow_of_writeValue hdocument

mutual
/-- Cutting strings changes no integer. -/
theorem narrow_cut : ∀ v : Json, narrow (Json.cut v) = narrow v
  | .string _ => rfl
  | .array xs => by rw [Json.cut, narrow, narrow, narrowElements_cut xs]
  | .object ms => by rw [Json.cut, narrow, narrow, narrowMembers_cut ms]
  | .null => rfl
  | .int _ => rfl
  | .uint _ => rfl
  | .real _ => rfl
  | .boolean _ => rfl

theorem narrowElements_cut : ∀ xs : List Json,
    narrowElements (Json.cutElements xs) = narrowElements xs
  | [] => rfl
  | x :: xs => by
    rw [Json.cutElements, narrowElements, narrowElements, narrow_cut x, narrowElements_cut xs]

theorem narrowMembers_cut : ∀ ms : Json.Members,
    narrowMembers (Json.cutMembers ms) = narrowMembers ms
  | [] => rfl
  | (k, x) :: ms => by
    rw [Json.cutMembers, narrowMembers, narrowMembers, narrow_cut x, narrowMembers_cut ms]
end

mutual
/-- The text of a value depends on how the writer spells the colon alone. -/
theorem writeValue_congr {a b : JsonSingleLineWriter} (h : colon a = colon b) :
    ∀ v : Json, writeValue J a v = writeValue J b v
  | .array xs => by rw [writeValue, writeValue, writeElements_congr h xs]
  | .object ms => by rw [writeValue, writeValue, writeMembers_congr h ms]
  | .null => rfl
  | .int _ => rfl
  | .uint _ => rfl
  | .real _ => rfl
  | .string _ => rfl
  | .boolean _ => rfl

theorem writeElements_congr {a b : JsonSingleLineWriter} (h : colon a = colon b) :
    ∀ xs : List Json, writeElements J a xs = writeElements J b xs
  | [] => rfl
  | [v] => by rw [writeElements, writeElements, writeValue_congr h v]
  | v :: w :: vs => by
    rw [writeElements, writeElements, writeValue_congr h v, writeElements_congr h (w :: vs)]

theorem writeMembers_congr {a b : JsonSingleLineWriter} (h : colon a = colon b) :
    ∀ ms : Json.Members, writeMembers J a ms = writeMembers J b ms
  | [] => rfl
  | [(k, v)] => by rw [writeMembers, writeMembers, writeValue_congr h v, h]
  | (k, v) :: m :: ms => by
    rw [writeMembers, writeMembers, writeValue_congr h v, writeMembers_congr h (m :: ms), h]
end

/-- A writer that ends with a line break writes the same text before it. -/
theorem write_newline {v : Json} {text : StdString}
    (h : ({ appendNewline := false } : JsonSingleLineWriter).write J v = .ok text) :
    ({ appendNewline := true } : JsonSingleLineWriter).write J v = .ok (text ++ str "\n") := by
  have hcolon : colon { appendNewline := true } = colon { appendNewline := false } := rfl
  have hvalue := writeValue_congr (J := J) hcolon v
  obtain ⟨document, hdocument, h⟩ := except_bind_eq_ok.mp h
  cases h
  exact except_bind_eq_ok.mpr ⟨document, hvalue.trans hdocument, rfl⟩

theorem write_ok {v : Json} (h : narrow v = true) : ∃ t, self.write J v = .ok t := by
  obtain ⟨document, hdocument⟩ : ∃ t, writeValue J self v = .ok t := writeValue_ok h
  exact ⟨_, except_bind_eq_ok.mpr ⟨document, hdocument, rfl⟩⟩

/-- The text of an object starts with its brace. -/
theorem write_object_head {ms : Json.Members} {t : StdString}
    (h : self.write J (.object ms) = .ok t) : t.head? = some 123 := by
  obtain ⟨document, hdocument, h⟩ := except_bind_eq_ok.mp h
  rw [writeValue] at hdocument
  obtain ⟨e, -, rfl⟩ := except_map_eq_ok.mp hdocument
  cases h
  split <;> rfl

end JsonSingleLineWriter

/-- The JSON text layer reads back what the writer wrote. -/
def Jsoncpp.ReadsBack (J : Jsoncpp) : Prop :=
  ∀ (writer : JsonSingleLineWriter) {v : Json} {t : StdString},
    Json.canonical (Json.cut v) = true → writer.write J v = .ok t →
    J.parse t = some (Json.cut v)

theorem Jsoncpp.Reads.readsBack {J : Jsoncpp} {num : StdString → Option Json}
    (hJ : J.Reads num) : J.ReadsBack :=
  fun _ _ _ hc h => hJ.parse hc
    (JsonSingleLineWriter.write_text hJ (JsonSingleLineWriter.wellNumbered_of_cut hc) h)

theorem Jsoncpp.reference_readsBack : Jsoncpp.reference.ReadsBack :=
  Jsoncpp.reference_reads.readsBack

/-- The reader refuses the text of an object when the end of it is missing. -/
def Jsoncpp.RefusesTruncated (J : Jsoncpp) : Prop :=
  ∀ (writer : JsonSingleLineWriter) {ms : Json.Members} {front back : StdString},
    writer.appendNewline = false → Json.canonical (Json.cut (.object ms)) = true →
      writer.write J (.object ms) = .ok (front ++ back) → back ≠ [] → J.parse front = none

theorem Jsoncpp.reference_refusesTruncated : Jsoncpp.reference.RefusesTruncated := by
  intro writer ms front back hline hc h hback
  obtain ⟨document, hdocument, h⟩ := except_bind_eq_ok.mp h
  obtain ⟨e, he, rfl⟩ := except_map_eq_ok.mp hdocument
  rw [hline, if_neg (by decide)] at h
  have hnumbers := JsonSingleLineWriter.wellNumbered_of_cut hc
  exact Json.parse_truncated
    (JsonSingleLineWriter.writeMembers_text Jsoncpp.reference_reads hnumbers he)
    (Except.ok.inj h) hback

end Sm4ns3
