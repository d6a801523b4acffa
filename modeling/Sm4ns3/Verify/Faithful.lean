import Sm4ns3.Message.Writer

/-!
# The writer is faithful

The text that the single-line writer returns has no line break, apart from the one that may
end it, and reads as the value that was written. This fails for integers beyond 32 bits,
which are refused, and for strings with a NUL, which are cut (`writer_faithful_iff`).
-/

namespace Sm4ns3

open Bytes Cpp

/-- The text has no line break. -/
def OneLine (t : StdString) : Prop := ∀ c ∈ t, c ≠ 10 ∧ c ≠ 13

theorem OneLine.append {s t : StdString} (hs : OneLine s) (ht : OneLine t) :
    OneLine (s ++ t) := by
  intro c hc
  rcases List.mem_append.mp hc with hc | hc
  · exact hs c hc
  · exact ht c hc

/-- For a given text it is seen octet by octet. -/
theorem oneLine_of_all {t : StdString} (h : t.all (fun c => c != 10 && c != 13) = true) :
    OneLine t := by
  intro c hc
  have hboth := List.all_eq_true.mp h c hc
  rw [Bool.and_eq_true, bne_iff_ne, bne_iff_ne] at hboth
  exact hboth

/-- A number token is on one line. -/
theorem oneLine_number {num : StdString → Option Json} {v : Json} {t : StdString}
    (h : Json.Number num v t) : OneLine t := by
  intro c hc
  have hnumber := h.2.1 c hc
  constructor
  · rintro rfl
    cases hnumber
  · rintro rfl
    cases hnumber

/-- The library writes a string on one line: the line breaks in it are escaped. -/
def Jsoncpp.QuotesOnOneLine (J : Jsoncpp) : Prop :=
  ∀ {s}, 0 ∉ s → OneLine (J.valueToQuotedString s)

/-- The reader accepts every JSON text; of several members of one name the last is kept. -/
def Jsoncpp.Merges (J : Jsoncpp) (num : StdString → Option Json) : Prop :=
  ∀ {v t}, Json.Text num v t → J.parse t = some v.merged

namespace JsonSingleLineWriter

variable {J : Jsoncpp} {num : StdString → Option Json} {self : JsonSingleLineWriter}

theorem oneLine_colon (self : JsonSingleLineWriter) : OneLine self.colon := by
  unfold colon
  split
  · exact oneLine_of_all rfl
  · exact oneLine_of_all rfl

theorem oneLine_comma : OneLine (str ",") := oneLine_of_all rfl

mutual
/-- What is written for a value is on one line. -/
theorem writeValue_oneLine (hJ : J.Reads num) (hq : J.QuotesOnOneLine) :
    ∀ {v : Json} {t : StdString}, v.wellNumbered = true → writeValue J self v = .ok t → OneLine t
  | .null, t, _, h => by
    cases h
    exact oneLine_of_all rfl
  | .boolean true, t, _, h => by
    cases h
    exact oneLine_of_all rfl
  | .boolean false, t, _, h => by
    cases h
    exact oneLine_of_all rfl
  | .int i, t, hv, h => by
    obtain ⟨j, hj, rfl⟩ := except_map_eq_ok.mp h
    obtain rfl := asInt_eq_ok hj
    exact oneLine_number (hJ.int hv)
  | .uint n, t, hv, h => by
    obtain ⟨m, hm, rfl⟩ := except_map_eq_ok.mp h
    obtain rfl := asUInt_eq_ok hm
    exact oneLine_number (hJ.uint hv)
  | .real d, t, hv, h => by
    cases h
    exact oneLine_number (hJ.double hv)
  | .string s, t, _, h => by
    cases h
    exact hq (not_mem_cString s)
  | .array xs, t, hv, h => by
    obtain ⟨e, he, rfl⟩ := except_map_eq_ok.mp h
    have hbrackets : OneLine (str "[") ∧ OneLine (str "]") :=
      ⟨oneLine_of_all rfl, oneLine_of_all rfl⟩
    exact hbrackets.1.append ((writeElements_oneLine hJ hq hv he).append hbrackets.2)
  | .object ms, t, hv, h => by
    obtain ⟨e, he, rfl⟩ := except_map_eq_ok.mp h
    have hbraces : OneLine (str "\x7b") ∧ OneLine (str "\x7d") :=
      ⟨oneLine_of_all rfl, oneLine_of_all rfl⟩
    exact hbraces.1.append ((writeMembers_oneLine hJ hq hv he).append hbraces.2)

theorem writeElements_oneLine (hJ : J.Reads num) (hq : J.QuotesOnOneLine) :
    ∀ {xs : List Json} {e : StdString}, Json.wellNumberedElements xs = true →
      writeElements J self xs = .ok e → OneLine e
  | [], e, _, h => by
    cases h
    intro c hc
    cases hc
  | [v], e, hv, h => by
    rw [Json.wellNumberedElements, Bool.and_eq_true] at hv
    exact writeValue_oneLine hJ hq hv.1 h
  | v :: w :: vs, e, hv, h => by
    rw [Json.wellNumberedElements, Bool.and_eq_true] at hv
    obtain ⟨a, ha, h⟩ := except_bind_eq_ok.mp h
    obtain ⟨b, hb, h⟩ := except_bind_eq_ok.mp h
    cases h
    exact (writeValue_oneLine hJ hq hv.1 ha).append
      (oneLine_comma.append (writeElements_oneLine hJ hq hv.2 hb))

theorem writeMembers_oneLine (hJ : J.Reads num) (hq : J.QuotesOnOneLine) :
    ∀ {ms : Json.Members} {e : StdString}, Json.wellNumberedMembers ms = true →
      writeMembers J self ms = .ok e → OneLine e
  | [], e, _, h => by
    cases h
    intro c hc
    cases hc
  | [(name, v)], e, hv, h => by
    rw [Json.wellNumberedMembers, Bool.and_eq_true] at hv
    obtain ⟨a, ha, rfl⟩ := except_map_eq_ok.mp h
    exact (hq (not_mem_cString name)).append
      ((oneLine_colon self).append (writeValue_oneLine hJ hq hv.1 ha))
  | (name, v) :: m :: ms, e, hv, h => by
    rw [Json.wellNumberedMembers, Bool.and_eq_true] at hv
    obtain ⟨a, ha, h⟩ := except_bind_eq_ok.mp h
    obtain ⟨b, hb, h⟩ := except_bind_eq_ok.mp h
    cases h
    exact (hq (not_mem_cString name)).append ((oneLine_colon self).append
      ((writeValue_oneLine hJ hq hv.1 ha).append
        (oneLine_comma.append (writeMembers_oneLine hJ hq hv.2 hb))))
end

/-- The writer returns one line, ended or not, and the reader makes the value of it. -/
def Faithful (J : Jsoncpp) (self : JsonSingleLineWriter) (v : Json) : Prop :=
  ∃ line text, OneLine line ∧ text = (if self.appendNewline then line ++ str "\n" else line) ∧
    self.write J v = .ok text ∧ J.parse text = some v

/-- The writer is faithful to a value that a reader can produce when its integers fit 32 bits
and its strings have no NULs. -/
theorem writer_faithful_iff (hJ : J.Reads num) (hmerges : J.Merges num)
    (hquotes : J.QuotesOnOneLine) (self : JsonSingleLineWriter) {v : Json}
    (hv : v.canonical = true) :
    self.Faithful J v ↔ narrow v = true ∧ v.cut = v := by
  have hnumbers := Json.wellNumbered_of_canonical hv
  constructor
  · intro h
    obtain ⟨line, text, -, -, hwrite, hparse⟩ := h
    have hread : J.parse text = some v.cut.merged := hmerges (write_text hJ hnumbers hwrite)
    rw [hparse, Option.some.injEq] at hread
    refine ⟨narrow_of_write hwrite, ?_⟩
    rw [hread]
    exact Json.cut_merged (Json.cut_cut v)
  · intro h
    obtain ⟨hnarrow, hcut⟩ := h
    obtain ⟨line, hline⟩ : ∃ line, writeValue J self v = .ok line := writeValue_ok hnarrow
    have hwrite : self.write J v =
        .ok (if self.appendNewline then line ++ str "\n" else line) := by
      rw [write, hline]
      rfl
    have htext := write_text hJ hnumbers hwrite
    rw [hcut] at htext
    exact ⟨line, _, writeValue_oneLine hJ hquotes hnumbers hline, rfl, hwrite, hJ.parse hv htext⟩

end JsonSingleLineWriter

/-! ## The reference instance -/

theorem Jsoncpp.reference_merges :
    Jsoncpp.reference.Merges (Json.decodeNumber Jsoncpp.decodeReal) :=
  Json.parse_merged

theorem oneLine_escapeOctet (c : UInt8) : OneLine (Json.escapeOctet c) := by
  have hdigit : ∀ n < 16, OneLine [hexDigit true n] := by
    intro n hn
    interval_cases n <;> exact oneLine_of_all rfl
  have hcontrol : OneLine [92, 117, 48, 48] := oneLine_of_all rfl
  unfold Json.escapeOctet
  split_ifs with h1 h2 h3 h4 h5 h6 h7 h8
  · exact oneLine_of_all rfl
  · exact oneLine_of_all rfl
  · exact oneLine_of_all rfl
  · exact oneLine_of_all rfl
  · exact oneLine_of_all rfl
  · exact oneLine_of_all rfl
  · exact oneLine_of_all rfl
  · have hlt := c.toNat_lt
    apply hcontrol.append
    apply (hdigit (c.toNat / 16) (by omega)).append
    exact hdigit (c.toNat % 16) (by omega)
  · intro d hd
    obtain rfl := List.mem_singleton.mp hd
    exact ⟨h5, h6⟩

theorem Jsoncpp.reference_quotesOnOneLine : Jsoncpp.reference.QuotesOnOneLine := by
  intro s _
  have hquote : OneLine [34] := oneLine_of_all rfl
  have hbody : OneLine (s.flatMap Json.escapeOctet) := by
    intro c hc
    obtain ⟨d, -, hd⟩ := List.mem_flatMap.mp hc
    exact oneLine_escapeOctet d c hd
  exact hquote.append (hbody.append hquote)

namespace JsonSingleLineWriter

/-- A nested value with a line break in a string. -/
def nested : Json :=
  .object [(str "a", .array [.int 1, .null, .boolean true]), (str "b", .string (str "x\ny"))]

theorem writer_faithful_iff_nested :
    ({ appendNewline := true } : JsonSingleLineWriter).Faithful Jsoncpp.reference nested ↔
      narrow nested = true ∧ nested.cut = nested :=
  writer_faithful_iff Jsoncpp.reference_reads Jsoncpp.reference_merges
    Jsoncpp.reference_quotesOnOneLine _ (by decide)

/-- The first integer beyond 32 bits is not written. -/
theorem writer_not_faithful : (Json.array [.uint 4294967296]).canonical = true ∧
    ¬ ({ appendNewline := false } : JsonSingleLineWriter).Faithful Jsoncpp.reference
      (.array [.uint 4294967296]) := by
  refine ⟨by decide, fun h => ?_⟩
  obtain ⟨line, text, -, -, hwrite, -⟩ := h
  have hnarrow := narrow_of_write hwrite
  exact absurd hnarrow (by decide)

end JsonSingleLineWriter
end Sm4ns3
