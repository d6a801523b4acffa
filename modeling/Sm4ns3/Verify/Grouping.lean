import Sm4ns3.Verify.TraceLines

/-!
# A trace file as a whole

The file is compared with a grouping of its lines: which lines are kept depends on the agents
that the lines before them added, and every kept line is a record of its time (`Grouped`).
Parsing a file of well-formed lines gives this grouping when the tick line of a time stands
before the records of the time (`parse_grouped`).
-/

namespace Sm4ns3

open Bytes Cpp Call

namespace RoadRunnerBaseLine

/-! ## Well-formed lines -/

/-- `time:<d>ms` -/
def StampText (B : LexicalCast) (f : StdString) (time : UInt32) : Prop :=
  ∃ d, f = str "time:" ++ (d ++ str "ms") ∧ 109 ∉ d ∧ B.toUnsigned d = some time

/-- `<label>:<s>` -/
def Labelled (f s : StdString) : Prop := ∃ label, f = label ++ 58 :: s ∧ 58 ∉ label

/-- The text of a line, by its fields. -/
inductive Spells (B : LexicalCast) (line : StdString) : TraceLine → Prop where
  | tick {time : UInt32} {f : StdString} (hfields : line.splitOn 59 = [f])
      (htime : B.toUnsigned f = some time) : Spells B line (.tick time)
  | add {time : UInt32} {agId stamp agent : StdString} {rest : List StdString}
      (hfields : line.splitOn 59 = str "add_agent" :: stamp :: agent :: rest)
      (hstamp : StampText B stamp time) (hagent : Labelled agent agId) :
      Spells B line (.add time agId)
  | update {time : UInt32} {agId stamp agent xField yField xText yText : StdString}
      {x y : Double} {rest : List StdString}
      (hfields : line.splitOn 59 =
        str "update_agent" :: stamp :: agent :: xField :: yField :: rest)
      (hstamp : StampText B stamp time) (hagent : Labelled agent agId)
      (hxField : Labelled xField xText) (hx : B.toDouble xText = some x)
      (hyField : Labelled yField yText) (hy : B.toDouble yText = some y) :
      Spells B line (.update time agId { x := x, y := y })
  | multicast {time : UInt32} {agId stamp agent field recipients mcData : StdString}
      {rest : List StdString}
      (hfields : line.splitOn 59 =
        str "multicast" :: stamp :: agent :: field :: mcData :: rest)
      (hstamp : StampText B stamp time) (hagent : Labelled agent agId)
      (hfield : Labelled field recipients) :
      Spells B line (.multicast time
        { sendAgId := agId
          receiveAgId := (recipients.splitOn 44).filter (!·.isEmpty)
          mcData := mcData })

section Texts

variable {B : LexicalCast} {line : StdString}

/-- A pattern is found where it first stands. -/
theorem find_eq {pattern : StdString} (a b : StdString)
    (h : ∀ i < a.length, ¬ pattern <+: (a ++ (pattern ++ b)).drop i) :
    find (a ++ (pattern ++ b)) pattern = a.length := by
  have hfound : (List.range ((a ++ (pattern ++ b)).length + 1)).find?
      (fun i => pattern.isPrefixOf ((a ++ (pattern ++ b)).drop i)) = some a.length := by
    rw [List.find?_range_eq_some]
    refine ⟨?_, ?_, fun i hi => ?_⟩
    · rw [List.drop_left, List.isPrefixOf_iff_prefix]
      exact List.prefix_append pattern b
    · rw [List.mem_range]
      simp only [List.length_append]
      omega
    · rw [Bool.not_eq_true', ← Bool.not_eq_true, List.isPrefixOf_iff_prefix]
      exact h i hi
  rw [find, hfound, Option.getD_some]

theorem getElem?_of_prefix_drop {pattern s : StdString} {i k : Nat} (h : pattern <+: s.drop i)
    (hk : k < pattern.length) : s[i + k]? = pattern[k]? := by
  obtain ⟨t, ht⟩ := h
  rw [← List.getElem?_drop, ← ht, List.getElem?_append_left hk]

theorem find_colon {label s : StdString} (h : 58 ∉ label) :
    find (label ++ 58 :: s) (str ":") = label.length := by
  rw [← List.singleton_append]
  refine find_eq label s fun i hi hprefix => ?_
  have hchar := getElem?_of_prefix_drop (k := 0) hprefix (by decide)
  rw [Nat.add_zero, List.getElem?_append_left hi, List.getElem?_eq_getElem hi] at hchar
  have hcolon : label[i] = 58 := Option.some.inj hchar
  exact h (hcolon ▸ List.getElem_mem hi)

theorem find_ms {d : StdString} (h : 109 ∉ d) :
    find (str "time:" ++ (d ++ str "ms")) (str "ms") = 5 + d.length := by
  have hsplit : str "time:" ++ (d ++ str "ms") = (str "time:" ++ d) ++ (str "ms" ++ []) := by
    rw [List.append_nil, List.append_assoc]
  have hlength : (str "time:" ++ d).length = 5 + d.length := by
    rw [List.length_append]
    rfl
  rw [hsplit, ← hlength]
  refine find_eq (str "time:" ++ d) [] fun i hi hprefix => ?_
  have hm := getElem?_of_prefix_drop (k := 0) hprefix (by decide)
  have hs := getElem?_of_prefix_drop (k := 1) hprefix (by decide)
  rw [Nat.add_zero, List.getElem?_append_left hi] at hm
  by_cases hfive : i < 5
  · -- the only `m` of `time:` is not followed by an `s`
    rw [List.getElem?_append_left (by exact hfive)] at hm
    have hsecond : ∀ i < 5, (str "time:")[i]? = (str "ms")[0]? → i = 2 := by decide
    obtain rfl := hsecond i hfive hm
    rw [List.getElem?_append_left (by omega), List.getElem?_append_left (by decide)] at hs
    exact absurd hs (by decide)
  · rw [List.getElem?_append_right (by exact Nat.le_of_not_lt hfive)] at hm
    exact h (List.mem_of_getElem? hm)

/-- The time is what stands between. -/
theorem timeOf_stamp {d : StdString} (h : 109 ∉ d)
    (hsize : (str "time:" ++ (d ++ str "ms")).length < 2 ^ 64) :
    timeOf (str "time:" ++ (d ++ str "ms")) = .ok d := by
  have hlength : (str "time:" ++ (d ++ str "ms")).length = 5 + (d.length + 2) := by
    rw [List.length_append, List.length_append]
    rfl
  rw [hlength] at hsize
  have hcount : subSize (subSize (5 + (d.length + 2)) 5)
      (subSize (5 + (d.length + 2)) (5 + d.length)) = d.length := by
    unfold subSize
    omega
  rw [timeOf, find_ms h, hlength, hcount, substr, if_pos (by omega)]
  have hdrop : (str "time:" ++ (d ++ str "ms")).drop 5 = d ++ str "ms" :=
    List.drop_left' rfl
  rw [hdrop, List.take_left]

/-- What follows the colon, when as much as is there is asked for. -/
theorem afterColon_labelled {f s : StdString} (h : Labelled f s) (hsize : f.length < 2 ^ 64)
    {n : Nat} (hn : s.length ≤ n) : afterColon f n = .ok s := by
  obtain ⟨label, rfl, hlabel⟩ := h
  rw [List.length_append, List.length_cons] at hsize
  have hpos : addSize label.length 1 = label.length + 1 := Nat.mod_eq_of_lt (by omega)
  have hdrop : (label ++ 58 :: s).drop (label.length + 1) = s := by
    rw [← List.drop_drop, List.drop_left]
    rfl
  rw [afterColon, find_colon hlabel, hpos, substr, hdrop, List.take_of_length_le hn]
  refine if_pos ?_
  rw [List.length_append, List.length_cons]
  omega

theorem length_field {i : Nat} {f : StdString} (h : (line.splitOn 59)[i]? = some f)
    (hsize : line.length < 2 ^ 64) : f.length < 2 ^ 64 :=
  Nat.lt_of_le_of_lt (sublist_of_mem_splitOn (List.mem_of_getElem? h)).length_le hsize

theorem headed_of_fields (hsize : line.length < 2 ^ 64) {kind : MessageType} {time : UInt32}
    {agId name stamp agent : StdString} {rest : List StdString}
    (hfields : line.splitOn 59 = name :: stamp :: agent :: rest) (hkind : kindOf name = some kind)
    (henough : kind.fields ≤ (line.splitOn 59).length) (hstamp : StampText B stamp time)
    (hagent : Labelled agent agId) : Headed B line kind time agId := by
  have hstampField : (line.splitOn 59)[1]? = some stamp := by rw [hfields]; rfl
  have hagentField : (line.splitOn 59)[2]? = some agent := by rw [hfields]; rfl
  have hstampSize := length_field hstampField hsize
  have hagentSize := length_field hagentField hsize
  refine ⟨⟨name, by rw [hfields]; rfl, hkind⟩, ?_, ⟨agent, hagentField, ?_⟩, henough⟩
  · obtain ⟨d, rfl, hd, htime⟩ := hstamp
    exact ⟨_, d, hstampField, timeOf_stamp hd hstampSize, htime⟩
  · apply afterColon_labelled hagent hagentSize
    obtain ⟨label, rfl, hlabel⟩ := hagent
    rw [find_colon hlabel, subSize]
    rw [List.length_append, List.length_cons] at hagentSize ⊢
    omega

/-- The field behind a label, as the parser takes it. -/
theorem afterColon_field {i : Nat} {f s : StdString} (h : (line.splitOn 59)[i]? = some f)
    (hsize : line.length < 2 ^ 64) (hlabelled : Labelled f s) :
    afterColon f (subSize f.length 1) = .ok s := by
  have hfield := length_field h hsize
  apply afterColon_labelled hlabelled hfield
  obtain ⟨label, rfl, -⟩ := hlabelled
  rw [subSize]
  rw [List.length_append, List.length_cons] at hfield ⊢
  omega

/-- The parser reads a line as it is spelled. -/
theorem Spells.reads {l : TraceLine} (h : Spells B line l) (hsize : line.length < 2 ^ 64) :
    Reads B line l := by
  cases h with
  | tick hfields htime => exact .tick hfields htime
  | add hfields hstamp hagent =>
    refine .add (headed_of_fields hsize hfields rfl ?_ hstamp hagent)
    rw [hfields]
    exact Nat.le_add_left 3 _
  | @update time agId stamp agent xField yField xText yText x y rest hfields hstamp hagent
      hxField hx hyField hy =>
    have hxAt : (line.splitOn 59)[3]? = some xField := by rw [hfields]; rfl
    have hyAt : (line.splitOn 59)[4]? = some yField := by rw [hfields]; rfl
    refine .update (headed_of_fields hsize hfields rfl ?_ hstamp hagent) ?_ ?_
    · rw [hfields]
      exact Nat.le_add_left 5 _
    · exact ⟨xField, xText, hxAt, afterColon_field hxAt hsize hxField, hx⟩
    · exact ⟨yField, yText, hyAt, afterColon_field hyAt hsize hyField, hy⟩
  | @multicast time agId stamp agent field recipients mcData rest hfields hstamp hagent hfield =>
    have hat : (line.splitOn 59)[3]? = some field := by rw [hfields]; rfl
    have hdata : (line.splitOn 59)[4]? = some mcData := by rw [hfields]; rfl
    refine .multicast (headed_of_fields hsize hfields rfl ?_ hstamp hagent) hat
      (afterColon_field hat hsize hfield) hdata
    rw [hfields]
    exact Nat.le_add_left 5 _

end Texts

/-! ## The grouping -/

end RoadRunnerBaseLine

namespace TraceLine

/-- The agent that the line adds. -/
def added : TraceLine → Option StdString
  | .add _ agId => some agId
  | _ => none

/-- The agent of a line that adds it at this time. -/
def addAt (T : UInt32) : TraceLine → Option StdString
  | .add time agId => if time = T then some agId else none
  | _ => none

/-- The first `n` agents that the lines add, in the order of their first lines. -/
def limitOf (n : Nat) (lines : List TraceLine) : List StdString :=
  (lines.filterMap added).eraseDups.take n

section Records

variable (n : Nat) (dc dl : Bool)

/-- Behind these lines a line is kept: its agent is within the limit, the line itself
included, and its kind is not disabled. -/
def keeps (pre : List TraceLine) : TraceLine → Bool
  | .tick _ => true
  | .add time agId => decide (agId ∈ limitOf n (pre ++ [.add time agId]))
  | .update _ agId _ => !dl && decide (agId ∈ limitOf n pre)
  | .multicast _ record => !dc && decide (record.sendAgId ∈ limitOf n pre)

/-- The lines of a file that are kept, when these lines stand before them. -/
def recordsFrom (pre : List TraceLine) : List TraceLine → List TraceLine
  | [] => []
  | l :: ls =>
    if keeps n dc dl pre l then l :: recordsFrom (pre ++ [l]) ls else recordsFrom (pre ++ [l]) ls

/-- The lines of a file that are kept. -/
def recordsOf (lines : List TraceLine) : List TraceLine := recordsFrom n dc dl [] lines

variable {n dc dl}

theorem recordsFrom_concat (pre lines : List TraceLine) (l : TraceLine) :
    recordsFrom n dc dl pre (lines ++ [l]) = recordsFrom n dc dl pre lines ++
      if keeps n dc dl (pre ++ lines) l then [l] else [] := by
  induction lines generalizing pre with
  | nil =>
    rw [List.nil_append, List.append_nil, recordsFrom, recordsFrom]
    split <;> rfl
  | cons l' lines ih =>
    rw [List.cons_append, recordsFrom, recordsFrom, ih, List.append_assoc, List.singleton_append]
    split <;> rfl

theorem recordsOf_concat (lines : List TraceLine) (l : TraceLine) :
    recordsOf n dc dl (lines ++ [l]) = recordsOf n dc dl lines ++
      if keeps n dc dl lines l then [l] else [] :=
  recordsFrom_concat [] lines l

theorem mem_of_mem_recordsOf {lines : List TraceLine} {l : TraceLine}
    (h : l ∈ recordsOf n dc dl lines) : l ∈ lines := by
  induction lines using List.reverseRecOn with
  | nil => cases h
  | append_singleton lines l' ih =>
    rw [recordsOf_concat] at h
    rcases List.mem_append.mp h with hold | hnew
    · exact List.mem_append_left _ (ih hold)
    · split at hnew
      · exact List.mem_append_right _ hnew
      · cases hnew

end Records

/-! ## The limit -/

section Limit

variable {α : Type} [BEq α] [LawfulBEq α]

theorem eraseDups_concat (xs : List α) (x : α) :
    (xs ++ [x]).eraseDups = if x ∈ xs then xs.eraseDups else xs.eraseDups ++ [x] := by
  rw [List.eraseDups_append]
  by_cases hx : x ∈ xs
  · simp [hx, List.removeAll]
  · simp [hx, List.removeAll, List.eraseDups_cons]

theorem nodup_eraseDups (xs : List α) : xs.eraseDups.Nodup := by
  induction xs using List.reverseRecOn with
  | nil => exact List.nodup_nil
  | append_singleton xs x ih =>
    rw [eraseDups_concat]
    split
    · exact ih
    · rename_i hx
      rw [List.nodup_append]
      refine ⟨ih, List.nodup_singleton x, fun y hy z hz heq => ?_⟩
      rw [List.mem_singleton.mp hz] at heq
      exact hx (heq ▸ List.mem_eraseDups.mp hy)

/-- One more element is among the first `n` distinct ones if it is already, or there is room. -/
theorem mem_take_eraseDups_concat {n : Nat} {xs : List α} {x y : α} :
    y ∈ (xs ++ [x]).eraseDups.take n ↔
      y ∈ xs.eraseDups.take n ∨ y = x ∧ (xs.eraseDups.take n).length < n := by
  rw [eraseDups_concat, List.length_take]
  by_cases hx : x ∈ xs
  · rw [if_pos hx]
    constructor
    · exact .inl
    · rintro (hmem | ⟨rfl, hlt⟩)
      · exact hmem
      · rw [List.take_of_length_le (by omega)]
        exact List.mem_eraseDups.mpr hx
  · rw [if_neg hx]
    by_cases hroom : xs.eraseDups.length < n
    · rw [List.take_of_length_le (by simp; omega), List.take_of_length_le (by omega),
        List.mem_append, List.mem_singleton]
      constructor
      · rintro (hmem | heq)
        · exact .inl hmem
        · exact .inr ⟨heq, by omega⟩
      · rintro (hmem | ⟨heq, -⟩)
        · exact .inl hmem
        · exact .inr heq
    · rw [List.take_append_of_le_length (by omega)]
      constructor
      · exact .inl
      · rintro (hmem | ⟨-, hlt⟩)
        · exact hmem
        · omega

end Limit

theorem nodup_limitOf (n : Nat) (lines : List TraceLine) : (limitOf n lines).Nodup :=
  (nodup_eraseDups _).sublist (List.take_sublist _ _)

/-- Lines that add no agent leave the limit. -/
theorem limitOf_concat_none {n : Nat} {lines : List TraceLine} {l : TraceLine}
    (h : l.added = none) : limitOf n (lines ++ [l]) = limitOf n lines := by
  rw [limitOf, List.filterMap_append, List.filterMap_cons_none h, List.filterMap_nil,
    List.append_nil, limitOf]

/-- A line that adds an agent puts it within the limit as long as there is room. -/
theorem mem_limitOf_concat {n : Nat} {lines : List TraceLine} {time : UInt32}
    {agId id : StdString} : id ∈ limitOf n (lines ++ [.add time agId]) ↔
      id ∈ limitOf n lines ∨ id = agId ∧ (limitOf n lines).length < n := by
  rw [limitOf, List.filterMap_append]
  exact mem_take_eraseDups_concat

/-! ## The records of a time -/

section Times

variable {T : UInt32} {l : TraceLine}

theorem addAt_of_time (h : l.time ≠ T) : addAt T l = none := by
  cases l with
  | add time agId => exact if_neg h
  | _ => rfl

/-- What the tick of the line becomes when the line is stored. -/
def stored (tick : TimeTick) : TraceLine → TimeTick
  | .tick _ => {}
  | .add _ agId => { tick with add_agent := tick.add_agent ++ [agId] }
  | .update _ agId pos => { tick with update_agent := tick.update_agent.insert agId pos }
  | .multicast _ record => { tick with multicast := tick.multicast ++ [record] }

end Times

/-- The bare tick of a time appears once, and the records of the time stand behind it. -/
def TicksFirst (lines : List TraceLine) : Prop := ∀ T, TickFirst T lines

/-- At the head of a file, a bare tick stands before everything. -/
theorem ticksFirst_cons {l : TraceLine} {lines : List TraceLine}
    (h : ∀ T, .tick T ∉ lines) : TicksFirst (l :: lines) := by
  intro T pre post hsplit l' hl'
  cases pre with
  | nil => cases hl'
  | cons head pre =>
    rw [List.cons_append] at hsplit
    obtain ⟨-, rfl⟩ := List.cons.inj hsplit
    exact absurd (List.mem_append_right pre List.mem_cons_self) (h T)

end TraceLine

namespace TimeTick

open TraceLine

/-- The tick has exactly the records of the time `T`, in their order; of the positions of an
agent, the last one. -/
structure Holds (tick : TimeTick) (T : UInt32) (records : List TraceLine) : Prop where
  add_agent : tick.add_agent = records.filterMap (addAt T)
  update_agent : ∀ agId, tick.update_agent[agId]? =
    (records.filterMap (updateAt T agId)).getLast?
  multicast : tick.multicast = records.filterMap (multicastAt T)

variable {tick : TimeTick} {T : UInt32} {records : List TraceLine} {l : TraceLine}

theorem holds_of_absent (h : ∀ l ∈ records, l.time ≠ T) : ({} : TimeTick).Holds T records where
  add_agent := by
    rw [List.filterMap_eq_nil_iff.mpr fun l hl => addAt_of_time (h l hl)]
  update_agent agId := by
    rw [List.filterMap_eq_nil_iff.mpr fun l hl => updateAt_of_time (h l hl)]
    exact Std.TreeMap.getElem?_emptyc
  multicast := by
    rw [List.filterMap_eq_nil_iff.mpr fun l hl => multicastAt_of_time (h l hl)]

/-- The tick with what one more line has for it. -/
theorem Holds.concat (h : tick.Holds T records) {tick' : TimeTick}
    (hadd : tick'.add_agent = tick.add_agent ++ (addAt T l).toList)
    (hupdate : ∀ agId, tick'.update_agent[agId]? =
      (updateAt T agId l).or tick.update_agent[agId]?)
    (hmulticast : tick'.multicast = tick.multicast ++ (multicastAt T l).toList) :
    tick'.Holds T (records ++ [l]) where
  add_agent := by
    rw [hadd, h.add_agent, List.filterMap_append]
    cases hl : addAt T l <;> simp [hl]
  update_agent agId := by
    rw [hupdate, h.update_agent, List.filterMap_append]
    cases hl : updateAt T agId l <;> simp [hl]
  multicast := by
    rw [hmulticast, h.multicast, List.filterMap_append]
    cases hl : multicastAt T l <;> simp [hl]

/-- A record of another time is not for the tick. -/
theorem Holds.of_time_ne (h : tick.Holds T records) (hne : l.time ≠ T) :
    tick.Holds T (records ++ [l]) := by
  apply h.concat
  · rw [addAt_of_time hne]
    exact (List.append_nil _).symm
  · intro agId
    rw [updateAt_of_time hne, Option.none_or]
  · rw [multicastAt_of_time hne]
    exact (List.append_nil _).symm

/-- The tick of a line, with the line stored. -/
theorem Holds.stored (h : tick.Holds l.time records)
    (hfirst : ∀ T, l = .tick T → ∀ l' ∈ records, l'.time ≠ T) :
    (stored tick l).Holds l.time (records ++ [l]) := by
  cases l with
  | tick time =>
    exact (holds_of_absent (hfirst time rfl)).concat rfl (fun _ => rfl) rfl
  | add time agId =>
    refine h.concat ?_ (fun _ => rfl) (List.append_nil _).symm
    rw [addAt, TraceLine.time, if_pos rfl]
    rfl
  | update time agId pos =>
    refine h.concat (List.append_nil _).symm (fun id => ?_) (List.append_nil _).symm
    change (tick.update_agent.insert agId pos)[id]? = _
    rw [Std.TreeMap.getElem?_insert, updateAt]
    by_cases hid : agId = id
    · rw [if_pos (by rw [hid]; exact Std.ReflCmp.compare_self), if_pos ⟨rfl, hid⟩]
      rfl
    · rw [if_neg (by rwa [Std.LawfulEqCmp.compare_eq_iff_eq]), if_neg fun hboth => hid hboth.2]
      rfl
  | multicast time record =>
    refine h.concat (List.append_nil _).symm (fun _ => rfl) ?_
    rw [multicastAt, TraceLine.time, if_pos rfl]
    rfl

end TimeTick

/-! ## The parser -/

namespace RoadRunnerBaseLine

open TraceLine

/-- The grouping of the lines of a file: who is within the limit, and the records of each
time. -/
structure Grouped (r : RoadRunnerBaseLine) (n : Nat) (dc dl : Bool) (lines : List TraceLine) :
    Prop where
  agent_limit : ∀ agId, agId ∈ r.agent_limit ↔ agId ∈ limitOf n lines
  agentsList : ∀ agId, agId ∈ r.agentsList ↔ agId ∈ limitOf n lines
  present : ∀ T, T ∈ r.trace_time_ticks ↔ ∃ l ∈ recordsOf n dc dl lines, l.time = T
  holds : ∀ T tick, r.trace_time_ticks[T]? = some tick →
    TimeTick.Holds tick T (recordsOf n dc dl lines)

/-- The parser behind these lines. -/
structure Grouping (n : UInt32) (dc dl : Bool) (lines : List TraceLine) (r : RoadRunnerBaseLine) :
    Prop where
  known : r.KnownTypes
  maxNOFAgents : r.maxNOFAgents = n
  disable_communication : r.disable_communication = dc
  disable_location_update : r.disable_location_update = dl
  grouped : r.Grouped n.toNat dc dl lines

section Parser

variable {B : LexicalCast} {r : RoadRunnerBaseLine} {n : UInt32} {dc dl : Bool}
  {lines : List TraceLine} {l : TraceLine}

theorem Grouped.size (h : r.Grouped n.toNat dc dl lines) :
    r.agent_limit.size = (limitOf n.toNat lines).length := by
  rw [← Std.TreeSet.length_toList]
  apply List.Perm.length_eq
  rw [List.perm_ext_iff_of_nodup (nodup_toList _) (nodup_limitOf _ _)]
  intro agId
  rw [Std.TreeSet.mem_toList, h.agent_limit]

/-- A tick that is not there holds nothing, and nothing is recorded for it. -/
theorem Grouped.holds_getD (h : r.Grouped n.toNat dc dl lines) (T : UInt32) :
    (r.trace_time_ticks[T]?.getD {}).Holds T (recordsOf n.toNat dc dl lines) := by
  cases htick : r.trace_time_ticks[T]? with
  | some tick => exact h.holds T tick htick
  | none =>
    refine TimeTick.holds_of_absent fun l hl htime => ?_
    have hmem := (h.present T).mpr ⟨l, hl, htime⟩
    rw [Std.TreeMap.mem_iff_isSome_getElem?, htick] at hmem
    cases hmem

/-- The parser keeps a line out exactly when the grouping does. -/
theorem Grouping.admits_iff (h : Grouping n dc dl lines r) :
    r.Admits l ↔ keeps n.toNat dc dl lines l = true := by
  cases l with
  | tick time =>
    refine ⟨fun _ => rfl, fun _ kind agId hheader => ?_⟩
    cases hheader
  | add time agId =>
    rw [admits_iff_not_skips rfl, Skips, keeps, decide_eq_true_iff, mem_limitOf_concat,
      h.grouped.agent_limit, h.grouped.size, h.maxNOFAgents]
    constructor
    · intro hskips
      by_cases hmem : agId ∈ limitOf n.toNat lines
      · exact .inl hmem
      · refine .inr ⟨rfl, ?_⟩
        by_contra hfull
        exact hskips ⟨hmem, hfull⟩
    · rintro (hmem | ⟨-, hroom⟩) ⟨hnot, hfull⟩
      · exact hnot hmem
      · exact hfull hroom
  | update time agId pos =>
    rw [admits_iff_not_skips rfl, Skips, keeps, h.grouped.agent_limit, h.disable_location_update]
    simp
  | multicast time record =>
    rw [admits_iff_not_skips rfl, Skips, keeps, h.grouped.agent_limit, h.disable_communication]
    simp

theorem store_trace_time_ticks (l : TraceLine) : (r.store l).trace_time_ticks =
    r.trace_time_ticks.insert l.time (stored (r.trace_time_ticks[l.time]?.getD {}) l) := by
  cases l <;> rfl

/-- Who is within the limit behind one more line. -/
theorem Grouping.limit_concat (h : Grouping n dc dl lines r)
    (hkeeps : keeps n.toNat dc dl lines l = true) (agId : StdString) :
    (agId ∈ (r.store l).agent_limit ↔ agId ∈ limitOf n.toNat (lines ++ [l])) ∧
      (agId ∈ (r.store l).agentsList ↔ agId ∈ limitOf n.toNat (lines ++ [l])) := by
  cases l with
  | add time id =>
    rw [keeps, decide_eq_true_iff, mem_limitOf_concat] at hkeeps
    rw [mem_limitOf_concat, RoadRunnerBaseLine.store, mem_insert_limit, h.grouped.agentsList,
      h.grouped.size, h.maxNOFAgents]
    by_cases hroom : (limitOf n.toNat lines).length < n.toNat
    · rw [if_pos hroom, mem_insert_limit, h.grouped.agent_limit]
      simp only [hroom, and_true, or_comm, and_self]
    · have hid : id ∈ limitOf n.toNat lines := hkeeps.resolve_right fun hboth => hroom hboth.2
      rw [if_neg hroom, h.grouped.agent_limit]
      refine ⟨by simp only [hroom, and_false, or_false], fun hor => ?_, fun hor => ?_⟩
      · rcases hor with rfl | hmem
        · exact .inl hid
        · exact .inl hmem
      · exact .inr (hor.resolve_right fun hboth => hroom hboth.2)
  | _ =>
    rw [limitOf_concat_none rfl]
    exact ⟨h.grouped.agent_limit agId, h.grouped.agentsList agId⟩

/-- A line that is kept out changes nothing. -/
theorem Grouping.skip (h : Grouping n dc dl lines r)
    (hkeeps : keeps n.toNat dc dl lines l = false) : Grouping n dc dl (lines ++ [l]) r := by
  have hlimit : ∀ agId, agId ∈ limitOf n.toNat (lines ++ [l]) ↔ agId ∈ limitOf n.toNat lines := by
    intro agId
    cases l with
    | add time id =>
      rw [keeps, decide_eq_false_iff_not, mem_limitOf_concat] at hkeeps
      have hfull : ¬ (limitOf n.toNat lines).length < n.toNat :=
        fun hroom => hkeeps (.inr ⟨rfl, hroom⟩)
      rw [mem_limitOf_concat]
      exact ⟨fun hor => hor.resolve_right fun hboth => hfull hboth.2, .inl⟩
    | _ => rw [limitOf_concat_none rfl]
  have hrecords : recordsOf n.toNat dc dl (lines ++ [l]) = recordsOf n.toNat dc dl lines := by
    rw [recordsOf_concat, hkeeps, if_neg Bool.false_ne_true, List.append_nil]
  refine { h with grouped := ⟨fun agId => ?_, fun agId => ?_, ?_, ?_⟩ }
  · rw [hlimit, h.grouped.agent_limit]
  · rw [hlimit, h.grouped.agentsList]
  · rw [hrecords]
    exact h.grouped.present
  · rw [hrecords]
    exact h.grouped.holds

/-- A line that is kept is stored as a record of its time. -/
theorem Grouping.store (h : Grouping n dc dl lines r)
    (hkeeps : keeps n.toNat dc dl lines l = true)
    (hfirst : ∀ T, l = .tick T → ∀ l' ∈ lines, l'.time ≠ T) :
    Grouping n dc dl (lines ++ [l]) (r.store l) := by
  have hrecords : recordsOf n.toNat dc dl (lines ++ [l]) =
      recordsOf n.toNat dc dl lines ++ [l] := by
    rw [recordsOf_concat, if_pos hkeeps]
  refine ⟨h.known.of_map (store_MessageMap l), ?_, ?_, ?_,
    fun agId => (h.limit_concat hkeeps agId).1, fun agId => (h.limit_concat hkeeps agId).2,
    fun T => ?_, fun T tick htick => ?_⟩
  · cases l <;> exact h.maxNOFAgents
  · cases l <;> exact h.disable_communication
  · cases l <;> exact h.disable_location_update
  · rw [hrecords, store_trace_time_ticks, Std.TreeMap.mem_insert,
      Std.LawfulEqCmp.compare_eq_iff_eq, h.grouped.present]
    simp [or_comm]
  · rw [store_trace_time_ticks, Std.TreeMap.getElem?_insert] at htick
    rw [hrecords]
    by_cases hT : l.time = T
    · subst hT
      rw [if_pos Std.ReflCmp.compare_self] at htick
      cases htick
      refine (h.grouped.holds_getD l.time).stored fun T hl l' hl' => ?_
      exact hfirst T hl l' (mem_of_mem_recordsOf hl')
    · rw [if_neg (by rwa [Std.LawfulEqCmp.compare_eq_iff_eq])] at htick
      exact (h.grouped.holds T tick htick).of_time_ne hT

theorem grouping_create (protocol : StdString) (n : UInt32) (dc dl : Bool) :
    Grouping n dc dl [] (create protocol n dc dl) := by
  refine ⟨knownTypes_create protocol n dc dl, rfl, rfl, rfl, fun agId => ?_, fun agId => ?_,
    fun T => ?_, fun T tick htick => ?_⟩
  · simp [create, limitOf]
  · simp [create, limitOf]
  · simp [create, recordsOf, recordsFrom]
  · simp [create] at htick

/-- One line more. -/
theorem Grouping.parseLine (h : Grouping n dc dl lines r) {line : StdString}
    (hreads : Reads B line l) (hfirst : ∀ T, l = .tick T → ∀ l' ∈ lines, l'.time ≠ T) :
    ∃ r', parseLine B line r = .ok () r' ∧ Grouping n dc dl (lines ++ [l]) r' := by
  rcases parseLine_of_reads h.known hreads with ⟨hadmits, hrun⟩ | ⟨hadmits, hrun⟩
  · exact ⟨_, hrun, h.store (h.admits_iff.mp hadmits) hfirst⟩
  · rw [h.admits_iff, Bool.not_eq_true] at hadmits
    exact ⟨_, hrun, h.skip hadmits⟩

/-- All lines that follow. -/
theorem Grouping.parseLines {text : List StdString} {post : List TraceLine}
    (hspells : List.Forall₂ (Spells B) text post) (hsize : ∀ line ∈ text, line.length < 2 ^ 64)
    (h : Grouping n dc dl lines r) (hfirst : TicksFirst (lines ++ post)) :
    ∃ r', forEach (RoadRunnerBaseLine.parseLine B) text r = .ok () r' ∧
      Grouping n dc dl (lines ++ post) r' := by
  induction hspells generalizing lines r with
  | nil =>
    rw [List.append_nil]
    exact ⟨r, rfl, h⟩
  | @cons line l text post hline _ ih =>
    have hreads := hline.reads (hsize line List.mem_cons_self)
    obtain ⟨r', hrun, hnext⟩ := h.parseLine hreads fun T hl => hfirst T lines post (by rw [hl])
    rw [List.append_cons] at hfirst ⊢
    obtain ⟨r'', hruns, hend⟩ := ih (fun line hmem => hsize line (List.mem_cons_of_mem _ hmem))
      hnext hfirst
    refine ⟨r'', ?_, hend⟩
    rw [forEach_cons, bind_ok hrun, hruns]

/-- Parsing a file of well-formed lines, each of which fits into a string, gives the grouping of
its lines. -/
theorem parse_grouped {contents protocol : StdString} {lines : List TraceLine}
    (hspells : List.Forall₂ (Spells B) (getlines contents) lines)
    (hsize : ∀ line ∈ getlines contents, line.length < 2 ^ 64) (hfirst : TicksFirst lines) :
    ∃ r, parse B (some contents) (create protocol n dc dl) = .ok () r ∧
      r.Grouped n.toNat dc dl lines := by
  obtain ⟨r, hrun, h⟩ := (grouping_create protocol n dc dl).parseLines hspells hsize hfirst
  exact ⟨r, hrun, h.grouped⟩

end Parser

/-- Two agents at time 0, of which the second is beyond the limit of one. -/
def crowdedTrace : StdString :=
  str "0\nadd_agent;time:0ms;agId:1\nadd_agent;time:0ms;agId:2\n" ++
    str "update_agent;time:0ms;agId:2;x:0.0;y:0.0\nmulticast;time:0ms;sender:1;recipients:2,;hi\n"

theorem parse_grouped_crowded :
    ∃ r, parse LexicalCast.reference (some crowdedTrace) (create (str "80211b") 1 false false) =
        .ok () r ∧
      r.Grouped (1 : UInt32).toNat false false
        [.tick 0, .add 0 (str "1"), .add 0 (str "2"), .update 0 (str "2") ⟨⟨0⟩, ⟨0⟩⟩,
          .multicast 0 ⟨str "1", [str "2"], str "hi"⟩] := by
  have hlines : getlines crowdedTrace = [str "0", str "add_agent;time:0ms;agId:1",
      str "add_agent;time:0ms;agId:2", str "update_agent;time:0ms;agId:2;x:0.0;y:0.0",
      str "multicast;time:0ms;sender:1;recipients:2,;hi"] := by decide +kernel
  have hstamp : StampText LexicalCast.reference (str "time:0ms") 0 :=
    ⟨str "0", rfl, by decide +kernel, by decide +kernel⟩
  have hfirst : Labelled (str "agId:1") (str "1") := ⟨str "agId", rfl, by decide +kernel⟩
  have hsecond : Labelled (str "agId:2") (str "2") := ⟨str "agId", rfl, by decide +kernel⟩
  have hsender : Labelled (str "sender:1") (str "1") := ⟨str "sender", rfl, by decide +kernel⟩
  have hfield : Labelled (str "recipients:2,") (str "2,") :=
    ⟨str "recipients", rfl, by decide +kernel⟩
  have hx : Labelled (str "x:0.0") (str "0.0") := ⟨str "x", rfl, by decide +kernel⟩
  have hy : Labelled (str "y:0.0") (str "0.0") := ⟨str "y", rfl, by decide +kernel⟩
  have hzero : LexicalCast.reference.toDouble (str "0.0") = some ⟨0⟩ := by decide +kernel
  have hrecipients : ((str "2,").splitOn 44).filter (!·.isEmpty) = [str "2"] := by decide +kernel
  rw [← hrecipients]
  refine parse_grouped ?_ (by rw [hlines]; decide +kernel) (ticksFirst_cons (by simp))
  rw [hlines]
  refine .cons (.tick rfl (by decide +kernel)) (.cons (.add rfl hstamp hfirst)
    (.cons (.add rfl hstamp hsecond) (.cons (.update rfl hstamp hsecond hx hzero hy hzero)
      (.cons (.multicast rfl hstamp hsender hfield) .nil))))

end RoadRunnerBaseLine

end Sm4ns3
