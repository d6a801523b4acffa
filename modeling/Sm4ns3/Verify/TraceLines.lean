import Sm4ns3.Verify.Trace

/-!
# Lines of a trace file

A line is a bare tick, or a kind, a time and an agent followed by what the kind needs
(`Reads`). `parseLine` reads such a line, and stores it unless it is not admitted. What it does
with other lines depends on where they go wrong: an unknown kind is read as a multicast, and
missing fields are read all the same (`handled_iff`).
-/

namespace Sm4ns3

open Bytes Cpp Call

/-! ## The grammar -/

/-- The kinds of lines by name. -/
def kindOf (name : StdString) : Option MessageType :=
  if name = str "multicast" then some .MULTICAST
  else if name = str "add_agent" then some .ADD
  else if name = str "update_agent" then some .UPDATE
  else none

/-- The number of fields a kind needs. -/
def MessageType.fields : MessageType → Nat
  | .MULTICAST => 5
  | .ADD => 3
  | .UPDATE => 5

namespace RoadRunnerBaseLine

/-- A line of a kind, with all the fields it needs, the time in the second and the agent in
the third. -/
structure Headed (B : LexicalCast) (line : StdString) (kind : MessageType) (time : UInt32)
    (agId : StdString) : Prop where
  name : ∃ f, (line.splitOn 59)[0]? = some f ∧ kindOf f = some kind
  stamp : ∃ f t, (line.splitOn 59)[1]? = some f ∧ timeOf f = .ok t ∧ B.toUnsigned t = some time
  agent : ∃ f, (line.splitOn 59)[2]? = some f ∧
    afterColon f (subSize f.length (find f (str ":"))) = .ok agId
  enough : kind.fields ≤ (line.splitOn 59).length

/-- The coordinate in a field. -/
def Coordinate (B : LexicalCast) (line : StdString) (i : Nat) (x : Double) : Prop :=
  ∃ f s, (line.splitOn 59)[i]? = some f ∧ afterColon f (subSize f.length 1) = .ok s ∧
    B.toDouble s = some x

/-- What a line says, by its fields. -/
inductive Reads (B : LexicalCast) (line : StdString) : TraceLine → Prop where
  | tick {time : UInt32} {f : StdString} (hfields : line.splitOn 59 = [f])
      (htime : B.toUnsigned f = some time) : Reads B line (.tick time)
  | add {time : UInt32} {agId : StdString} (hhead : Headed B line .ADD time agId) :
      Reads B line (.add time agId)
  | update {time : UInt32} {agId : StdString} {x y : Double}
      (hhead : Headed B line .UPDATE time agId) (hx : Coordinate B line 3 x)
      (hy : Coordinate B line 4 y) : Reads B line (.update time agId { x := x, y := y })
  | multicast {time : UInt32} {agId f recipients mcData : StdString}
      (hhead : Headed B line .MULTICAST time agId) (hfield : (line.splitOn 59)[3]? = some f)
      (hrecipients : afterColon f (subSize f.length 1) = .ok recipients)
      (hdata : (line.splitOn 59)[4]? = some mcData) :
      Reads B line (.multicast time
        { sendAgId := agId
          receiveAgId := (recipients.splitOn 44).filter (!·.isEmpty)
          mcData := mcData })

/-! ## Storing a line -/

/-- Lines of this kind for this agent are kept out: the agent is beyond the limit, or the kind
is disabled. -/
def Skips (r : RoadRunnerBaseLine) (kind : MessageType) (agId : StdString) : Prop :=
  match kind with
  | .ADD => agId ∉ r.agent_limit ∧ ¬ r.agent_limit.size < r.maxNOFAgents.toNat
  | .UPDATE => r.disable_location_update = true ∨ agId ∉ r.agent_limit
  | .MULTICAST => r.disable_communication = true ∨ agId ∉ r.agent_limit

/-- The state with a line stored. -/
def store (r : RoadRunnerBaseLine) : TraceLine → RoadRunnerBaseLine
  | .tick time => { r with
      trace_time_ticks := r.trace_time_ticks.insert time {}
      parsed := r.parsed ++ [.tick time] }
  | .add time agId => { r with
      agent_limit :=
        if r.agent_limit.size < r.maxNOFAgents.toNat then r.agent_limit.insert agId
        else r.agent_limit
      trace_time_ticks := r.trace_time_ticks.insert time
        { r.trace_time_ticks[time]?.getD {} with
          add_agent := (r.trace_time_ticks[time]?.getD {}).add_agent ++ [agId] }
      agentsList := r.agentsList.insert agId }
  | .update time agId pos => { r with
      trace_time_ticks := r.trace_time_ticks.insert time
        { r.trace_time_ticks[time]?.getD {} with
          update_agent := (r.trace_time_ticks[time]?.getD {}).update_agent.insert agId pos }
      parsed := r.parsed ++ [.update time agId pos] }
  | .multicast time record => { r with
      trace_time_ticks := r.trace_time_ticks.insert time
        { r.trace_time_ticks[time]?.getD {} with
          multicast := (r.trace_time_ticks[time]?.getD {}).multicast ++ [record] }
      parsed := r.parsed ++ [.multicast time record] }

/-- The line is not kept out. -/
def Admits (r : RoadRunnerBaseLine) (l : TraceLine) : Prop :=
  ∀ kind agId, l.header = some (kind, agId) → ¬ r.Skips kind agId

/-- What the parser makes of the names of kinds: the three that are known, and the enumerator 0
for any other that it met before. -/
structure KnownTypes (r : RoadRunnerBaseLine) : Prop where
  known : ∀ name kind, kindOf name = some kind → r.MessageMap[name]? = some kind
  unknown : ∀ name, kindOf name = none → r.MessageMap[name]?.getD .MULTICAST = .MULTICAST

/-- The line is stored, or kept out, as the grammar reads it; or it is rejected. -/
def Handles (B : LexicalCast) (r : RoadRunnerBaseLine) (line : StdString) : Prop :=
  (∃ l, Reads B line l ∧ r.Admits l ∧ parseLine B line r = .ok () (r.store l)) ∨
  (∃ kind time agId, Headed B line kind time agId ∧ r.Skips kind agId ∧
    parseLine B line r = .ok () r) ∨
  ∃ what r', parseLine B line r = .error (.exception what) r' ∧
    r'.trace_time_ticks = r.trace_time_ticks ∧ r'.agent_limit = r.agent_limit ∧
    r'.agentsList = r.agentsList

/-- The time in the second field, as far as the parser reads it. -/
def timeField (B : LexicalCast) (tokens : List StdString) : Except Fault UInt32 := do
  lexical_cast B.toUnsigned (← timeOf (← token tokens 1))

/-- A bare tick or none; or a time that is refused; or a kind with all its fields. -/
def Readable (B : LexicalCast) (line : StdString) : Prop :=
  (line.splitOn 59).length = 1 ∨
  (∃ what, timeField B (line.splitOn 59) = .error (.exception what)) ∨
  ∃ f kind, (line.splitOn 59)[0]? = some f ∧ kindOf f = some kind ∧
    kind.fields ≤ (line.splitOn 59).length

/-! ## The names of the kinds -/

theorem kindOf_eq_none {name : StdString} : kindOf name = none ↔
    name ≠ str "multicast" ∧ name ≠ str "add_agent" ∧ name ≠ str "update_agent" := by
  unfold kindOf
  by_cases hmulticast : name = str "multicast"
  · simp [hmulticast]
  · rw [if_neg hmulticast]
    by_cases hadd : name = str "add_agent"
    · simp [hadd]
    · rw [if_neg hadd]
      by_cases hupdate : name = str "update_agent"
      · simp [hupdate]
      · simp [hmulticast, hadd, hupdate]

theorem kindOf_eq_some {name : StdString} {kind : MessageType} (h : kindOf name = some kind) :
    (name, kind) ∈ [(str "multicast", MessageType.MULTICAST), (str "add_agent", .ADD),
      (str "update_agent", .UPDATE)] := by
  unfold kindOf at h
  split at h
  · rename_i hname
    cases h
    rw [hname]
    exact List.mem_cons_self
  · split at h
    · rename_i hname
      cases h
      rw [hname]
      exact List.mem_cons_of_mem _ List.mem_cons_self
    · split at h
      · rename_i hname
        cases h
        rw [hname]
        exact List.mem_cons_of_mem _ (List.mem_cons_of_mem _ List.mem_cons_self)
      · cases h

theorem knownTypes_create (protocol : StdString) (nof_agents : UInt32) (dc dl : Bool) :
    (create protocol nof_agents dc dl).KnownTypes where
  known name kind h := by
    apply Std.TreeMap.getElem?_ofList_of_mem Std.ReflCmp.compare_self (by decide)
    exact kindOf_eq_some h
  unknown name h := by
    have habsent : (create protocol nof_agents dc dl).MessageMap[name]? = none := by
      apply Std.TreeMap.getElem?_ofList_of_contains_eq_false
      obtain ⟨hmulticast, hadd, hupdate⟩ := kindOf_eq_none.mp h
      simp [hmulticast, hadd, hupdate]
    rw [habsent]
    rfl

theorem KnownTypes.insert {r : RoadRunnerBaseLine} (hmap : r.KnownTypes) {name : StdString}
    (hname : r.MessageMap[name]? = none) :
    ({ r with MessageMap := r.MessageMap.insert name .MULTICAST } :
      RoadRunnerBaseLine).KnownTypes where
  known other kind h := by
    have hother := hmap.known other kind h
    have hne : compare name other ≠ .eq := by
      intro heq
      rw [Std.LawfulEqCmp.compare_eq_iff_eq.mp heq, hother] at hname
      cases hname
    change (r.MessageMap.insert name .MULTICAST)[other]? = some kind
    rw [Std.TreeMap.getElem?_insert, if_neg hne, hother]
  unknown other h := by
    change (r.MessageMap.insert name .MULTICAST)[other]?.getD .MULTICAST = .MULTICAST
    rw [Std.TreeMap.getElem?_insert]
    split
    · rfl
    · exact hmap.unknown other h

/-- An unknown name is entered; the map stays as it is for a known one. -/
theorem messageTypeOf_apply {r : RoadRunnerBaseLine} (hmap : r.KnownTypes) (name : StdString) :
    ∃ m, messageTypeOf name r = .ok ((kindOf name).getD .MULTICAST) { r with MessageMap := m } ∧
      (kindOf name ≠ none → m = r.MessageMap) ∧
      KnownTypes { r with MessageMap := m } := by
  rw [messageTypeOf, get_bind_apply]
  cases hkind : kindOf name with
  | some kind =>
    rw [hmap.known name kind hkind]
    exact ⟨r.MessageMap, rfl, fun _ => rfl, hmap⟩
  | none =>
    have hslot := hmap.unknown name hkind
    cases hget : r.MessageMap[name]? with
    | some kind =>
      rw [hget, Option.getD_some] at hslot
      subst hslot
      exact ⟨r.MessageMap, rfl, fun hne => absurd rfl hne, hmap⟩
    | none => exact ⟨_, rfl, fun hne => absurd rfl hne, hmap.insert hget⟩

/-! ## Fields -/

/-- A pattern that is found ends within the string. -/
theorem find_cases (s pattern : StdString) :
    find s pattern = npos ∨ find s pattern + pattern.length ≤ s.length := by
  unfold find
  cases hfound : (List.range (s.length + 1)).find? fun i => pattern.isPrefixOf (s.drop i) with
  | none => exact .inl rfl
  | some i =>
    have hrange := List.mem_range.mp (List.mem_of_find?_eq_some hfound)
    have hat := List.find?_some hfound
    have hprefix := (List.isPrefixOf_iff_prefix.mp hat).length_le
    rw [List.length_drop] at hprefix
    rw [Option.getD_some]
    right
    omega

/-- The text behind the colon, or the whole field, can always be taken. -/
theorem afterColon_ok (f : StdString) (n : Nat) : ∃ s, afterColon f n = .ok s := by
  have hle : addSize (find f (str ":")) 1 ≤ f.length := by
    rcases find_cases f (str ":") with hnone | hfound
    · rw [hnone]
      exact Nat.zero_le _
    · exact Nat.le_trans (Nat.mod_le _ _) hfound
  exact ⟨_, if_pos hle⟩

theorem token_of_some {tokens : List StdString} {i : Nat} {f : StdString}
    (h : tokens[i]? = some f) : token tokens i = .ok f := by
  rw [token, h]

theorem token_none {tokens : List StdString} {i : Nat} (h : tokens[i]? = none) :
    token tokens i = .error (.undefined .outOfRange) := by
  rw [token, h]

theorem token_of_none {tokens : List StdString} {i : Nat} (h : tokens.length ≤ i) :
    token tokens i = .error (.undefined .outOfRange) := token_none (List.getElem?_eq_none h)

/-- The type and the agent of a line of at least three fields. -/
theorem header_fields {tokens : List StdString} (h : 2 < tokens.length) :
    ∃ name agTok agId, tokens[0]? = some name ∧ tokens[2]? = some agTok ∧
      afterColon agTok (subSize agTok.length (find agTok (str ":"))) = .ok agId := by
  obtain ⟨name, hname⟩ : ∃ f, tokens[0]? = some f := ⟨_, List.getElem?_eq_getElem (by omega)⟩
  obtain ⟨agTok, hagTok⟩ : ∃ f, tokens[2]? = some f := ⟨_, List.getElem?_eq_getElem h⟩
  obtain ⟨agId, hagent⟩ := afterColon_ok agTok (subSize agTok.length (find agTok (str ":")))
  exact ⟨name, agTok, agId, hname, hagTok, hagent⟩

/-- The fourth and the fifth field of a line that has them. -/
theorem last_fields {tokens : List StdString} (h : 5 ≤ tokens.length) :
    ∃ f s g, tokens[3]? = some f ∧ afterColon f (subSize f.length 1) = .ok s ∧
      tokens[4]? = some g := by
  obtain ⟨f, hf⟩ : ∃ f, tokens[3]? = some f := ⟨_, List.getElem?_eq_getElem (by omega)⟩
  obtain ⟨g, hg⟩ : ∃ g, tokens[4]? = some g := ⟨_, List.getElem?_eq_getElem (by omega)⟩
  obtain ⟨s, hs⟩ := afterColon_ok f (subSize f.length 1)
  exact ⟨f, s, g, hf, hs, hg⟩

/-! ## The kinds -/

section Kinds

variable {B : LexicalCast} {r : RoadRunnerBaseLine} {line : StdString} {time : UInt32}
  {agId : StdString}

theorem parseAdd_skips (h : r.Skips .ADD agId) : parseAdd time agId r = .ok () r := by
  obtain ⟨hmem, hsize⟩ := h
  rw [parseAdd, get_bind_apply, if_neg hsize]
  dsimp only
  rw [get_bind_apply, if_pos]
  · rfl
  · rw [Std.TreeSet.mem_iff_contains, Bool.not_eq_true] at hmem
    rw [hmem, Bool.not_false]

theorem parseAdd_stores (h : ¬ r.Skips .ADD agId) :
    parseAdd time agId r = .ok () (r.store (.add time agId)) := by
  rw [parseAdd, get_bind_apply, store]
  by_cases hsize : r.agent_limit.size < r.maxNOFAgents.toNat
  · rw [if_pos hsize, if_pos hsize, set_bind_apply]
    dsimp only
    rw [get_bind_apply, if_neg (by simp)]
    rfl
  · have hmem : r.agent_limit.contains agId = true := by
      by_contra hnot
      exact h ⟨by rwa [Std.TreeSet.mem_iff_contains], hsize⟩
    rw [if_neg hsize, if_neg hsize]
    dsimp only
    rw [get_bind_apply, hmem, if_neg (by simp)]
    rfl

/-- With fewer than five fields, the fourth or the fifth is read beyond the end. -/
theorem fields_few {tokens : List StdString} (hfew : tokens.length < 5)
    {k : StdString → StdString → Call RoadRunnerBaseLine Unit} :
    (do
      let tok ← eval (token tokens 3)
      let s ← eval (afterColon tok (subSize tok.length 1))
      let f ← eval (token tokens 4)
      k s f) r = .error (.undefined .outOfRange) r := by
  cases hf : tokens[3]? with
  | none => rw [token_none hf, bind_error (eval_error _ _)]
  | some f =>
    obtain ⟨s, hafter⟩ := afterColon_ok f (subSize f.length 1)
    rw [token_of_some hf, eval_ok, pure_bind_apply, hafter, eval_ok, pure_bind_apply,
      token_of_none (Nat.le_of_lt_succ hfew), bind_error (eval_error _ _)]

theorem parseUpdate_skips {tokens : List StdString} (h : r.Skips .UPDATE agId) :
    parseUpdate B time agId tokens r = .ok () r := unlessSkipped_skipped h

theorem parseUpdate_admitted {tokens : List StdString} (h : ¬ r.Skips .UPDATE agId) :
    parseUpdate B time agId tokens r = updateRecord B time agId tokens r :=
  unlessSkipped_admitted h

/-- An update line with too few fields. -/
theorem parseUpdate_few {tokens : List StdString} (h : ¬ r.Skips .UPDATE agId)
    (hfew : tokens.length < 5) :
    parseUpdate B time agId tokens r = .error (.undefined .outOfRange) r := by
  rw [parseUpdate_admitted h]
  exact fields_few hfew

theorem updateRecord_of_fields {tokens : List StdString} {f g xStr yStr : StdString}
    (hf : tokens[3]? = some f) (hx : afterColon f (subSize f.length 1) = .ok xStr)
    (hg : tokens[4]? = some g) (hy : afterColon g (subSize g.length 1) = .ok yStr) :
    updateRecord B time agId tokens r = (do
      let x ← eval (lexical_cast B.toDouble xStr)
      let y ← eval (lexical_cast B.toDouble yStr)
      modify fun r => store r (.update time agId { x := x, y := y })) r := by
  rw [updateRecord, token_of_some hf, eval_ok, pure_bind_apply, hx, eval_ok, pure_bind_apply,
    token_of_some hg, eval_ok, pure_bind_apply, hy, eval_ok, pure_bind_apply]
  rfl

theorem parseUpdate_stores (h : ¬ r.Skips .UPDATE agId) {x y : Double}
    (hx : Coordinate B line 3 x) (hy : Coordinate B line 4 y) :
    parseUpdate B time agId (line.splitOn 59) r =
      .ok () (r.store (.update time agId { x := x, y := y })) := by
  obtain ⟨f, xStr, hf, hafter, hxPos⟩ := hx
  obtain ⟨g, yStr, hg, hafter', hyPos⟩ := hy
  rw [parseUpdate_admitted h, updateRecord_of_fields hf hafter hg hafter', lexical_cast, hxPos,
    lexical_cast, hyPos]
  rfl

/-- An update line with all its fields is stored, or a coordinate does not convert. -/
theorem parseUpdate_full (h : ¬ r.Skips .UPDATE agId) (hfields : 5 ≤ (line.splitOn 59).length) :
    (∃ x y, Coordinate B line 3 x ∧ Coordinate B line 4 y) ∨
    ∃ what, parseUpdate B time agId (line.splitOn 59) r = .error (.exception what) r := by
  obtain ⟨f, xStr, g, hf, hx, hg⟩ := last_fields hfields
  obtain ⟨yStr, hy⟩ := afterColon_ok g (subSize g.length 1)
  rw [parseUpdate_admitted h, updateRecord_of_fields hf hx hg hy, lexical_cast]
  cases hxPos : B.toDouble xStr with
  | none => exact .inr ⟨_, bind_error (eval_error _ _) _⟩
  | some x =>
    rw [lexical_cast]
    cases hyPos : B.toDouble yStr with
    | none => exact .inr ⟨_, rfl⟩
    | some y => exact .inl ⟨x, y, ⟨f, xStr, hf, hx, hxPos⟩, ⟨g, yStr, hg, hy, hyPos⟩⟩

theorem parseMulticast_skips {tokens : List StdString} (h : r.Skips .MULTICAST agId) :
    parseMulticast time agId tokens r = .ok () r := unlessSkipped_skipped h

theorem parseMulticast_admitted {tokens : List StdString} (h : ¬ r.Skips .MULTICAST agId) :
    parseMulticast time agId tokens r = multicastRecord time agId tokens r :=
  unlessSkipped_admitted h

/-- A multicast line with too few fields. -/
theorem parseMulticast_few {tokens : List StdString} (h : ¬ r.Skips .MULTICAST agId)
    (hfew : tokens.length < 5) :
    parseMulticast time agId tokens r = .error (.undefined .outOfRange) r := by
  rw [parseMulticast_admitted h]
  exact fields_few hfew

theorem parseMulticast_stores (h : ¬ r.Skips .MULTICAST agId) {f recipients mcData : StdString}
    (hf : (line.splitOn 59)[3]? = some f)
    (hrecipients : afterColon f (subSize f.length 1) = .ok recipients)
    (hdata : (line.splitOn 59)[4]? = some mcData) :
    parseMulticast time agId (line.splitOn 59) r = .ok () (r.store (.multicast time
      { sendAgId := agId
        receiveAgId := (recipients.splitOn 44).filter (!·.isEmpty)
        mcData := mcData })) := by
  rw [parseMulticast_admitted h, multicastRecord, token_of_some hf, eval_ok, pure_bind_apply,
    hrecipients, eval_ok, pure_bind_apply, token_of_some hdata, eval_ok, pure_bind_apply]
  rfl

/-- What follows the header of a line. -/
def parseKind (B : LexicalCast) (kind : MessageType) (time : UInt32) (agId : StdString)
    (tokens : List StdString) : Call RoadRunnerBaseLine Unit :=
  match kind with
  | .ADD => parseAdd time agId
  | .UPDATE => parseUpdate B time agId tokens
  | .MULTICAST => parseMulticast time agId tokens

theorem parseKind_skips {kind : MessageType} {tokens : List StdString}
    (h : r.Skips kind agId) : parseKind B kind time agId tokens r = .ok () r := by
  cases kind with
  | ADD => exact parseAdd_skips h
  | UPDATE => exact parseUpdate_skips h
  | MULTICAST => exact parseMulticast_skips h

/-- With too few fields nothing is thrown: they are read behind the end, or not at all. -/
theorem parseKind_few {kind : MessageType} {tokens : List StdString} (hthree : 3 ≤ tokens.length)
    (hfew : tokens.length < kind.fields) {what : String} {r' : RoadRunnerBaseLine} :
    parseKind B kind time agId tokens r ≠ .error (.exception what) r' := by
  by_cases hskips : r.Skips kind agId
  · rw [parseKind_skips hskips]
    intro h
    cases h
  · cases kind with
    | ADD => exact absurd hthree (Nat.not_le_of_lt hfew)
    | UPDATE =>
      rw [parseKind, parseUpdate_few hskips hfew]
      intro h
      cases h
    | MULTICAST =>
      rw [parseKind, parseMulticast_few hskips hfew]
      intro h
      cases h

/-- Nothing is thrown for a multicast line behind its header. -/
theorem parseMulticast_not_thrown {what : String} {r' : RoadRunnerBaseLine} :
    parseMulticast time agId (line.splitOn 59) r ≠ .error (.exception what) r' := by
  intro h
  by_cases hskips : r.Skips .MULTICAST agId
  · rw [parseMulticast_skips hskips] at h
    cases h
  · by_cases hfields : 5 ≤ (line.splitOn 59).length
    · obtain ⟨_, _, _, hf, hrecipients, hdata⟩ := last_fields hfields
      rw [parseMulticast_stores hskips hf hrecipients hdata] at h
      cases h
    · rw [parseMulticast_few hskips (Nat.lt_of_not_le hfields)] at h
      cases h

/-! ## The header -/

theorem safe_substr (s : StdString) (pos n : Nat) : Safe (substr s pos n) := by
  unfold substr
  split
  · exact Safe.ok _
  · exact Safe.exception _

theorem lexical_cast_eq_ok {α : Type} {cast : StdString → Option α} {s : StdString} {x : α} :
    lexical_cast cast s = .ok x ↔ cast s = some x := by
  unfold lexical_cast
  cases cast s with
  | some y => simp
  | none => simp

theorem token_eq_ok {tokens : List StdString} {i : Nat} {f : StdString} :
    token tokens i = .ok f ↔ tokens[i]? = some f := by
  unfold token
  cases tokens[i]? with
  | some g => simp
  | none => simp

theorem timeField_eq_ok {tokens : List StdString} : timeField B tokens = .ok time ↔
    ∃ f t, tokens[1]? = some f ∧ timeOf f = .ok t ∧ B.toUnsigned t = some time := by
  simp only [timeField, except_bind_eq_ok, lexical_cast_eq_ok, token_eq_ok]
  constructor
  · intro h
    obtain ⟨f, hf, t, ht, htime⟩ := h
    exact ⟨f, t, hf, ht, htime⟩
  · intro h
    obtain ⟨f, t, hf, ht, htime⟩ := h
    exact ⟨f, hf, t, ht, htime⟩

/-- A second field either has a time or is refused by an exception. -/
theorem timeField_cases {tokens : List StdString} (hlength : 2 ≤ tokens.length) :
    (∃ time, timeField B tokens = .ok time) ∨
      ∃ what, timeField B tokens = .error (.exception what) := by
  obtain ⟨f, hf⟩ : ∃ f, tokens[1]? = some f := ⟨_, List.getElem?_eq_getElem hlength⟩
  cases htime : timeField B tokens with
  | ok time => exact .inl ⟨time, rfl⟩
  | error e =>
    have hsafe : Safe (timeField B tokens) := by
      rw [timeField, token_of_some hf, except_ok_bind]
      refine (safe_substr _ _ _).bind fun t _ => ?_
      unfold lexical_cast
      split
      · exact Safe.ok _
      · exact Safe.exception _
    obtain ⟨what, rfl⟩ := hsafe.of_error htime
    exact .inr ⟨what, rfl⟩

/-- A time that is refused ends the line. -/
theorem parseMessage_of_time {tokens : List StdString} {e : Fault} (hlength : 2 ≤ tokens.length)
    (htime : timeField B tokens = .error e) : parseMessage B tokens r = .error e r := by
  obtain ⟨name, hname⟩ : ∃ f, tokens[0]? = some f :=
    ⟨_, List.getElem?_eq_getElem (Nat.lt_of_succ_lt hlength)⟩
  obtain ⟨f, hf⟩ : ∃ f, tokens[1]? = some f := ⟨_, List.getElem?_eq_getElem hlength⟩
  rw [timeField, token_of_some hf, except_ok_bind] at htime
  rw [parseMessage, token_of_some hname, eval_ok, pure_bind_apply, token_of_some hf, eval_ok,
    pure_bind_apply]
  cases ht : timeOf f with
  | error e' =>
    rw [ht] at htime
    cases htime
    rfl
  | ok t =>
    rw [ht, except_ok_bind] at htime
    rw [eval_ok, pure_bind_apply, htime]
    rfl

theorem parseMessage_of_header {tokens : List StdString} {name agTok : StdString}
    (hname : tokens[0]? = some name) (htime : timeField B tokens = .ok time)
    (hagTok : tokens[2]? = some agTok)
    (hagent : afterColon agTok (subSize agTok.length (find agTok (str ":"))) = .ok agId) :
    parseMessage B tokens r =
      (messageTypeOf name >>= fun kind => parseKind B kind time agId tokens) r := by
  obtain ⟨f, t, hf, ht, htime⟩ := timeField_eq_ok.mp htime
  rw [parseMessage, token_of_some hname, eval_ok, pure_bind_apply, token_of_some hf, eval_ok,
    pure_bind_apply, ht, eval_ok, pure_bind_apply, lexical_cast_eq_ok.mpr htime, eval_ok,
    pure_bind_apply, token_of_some hagTok, eval_ok, pure_bind_apply, hagent, eval_ok,
    pure_bind_apply]
  rfl

/-- A line with a time but no third field. -/
theorem parseMessage_of_two {tokens : List StdString} (hlength : tokens.length = 2)
    (htime : timeField B tokens = .ok time) :
    parseMessage B tokens r = .error (.undefined .outOfRange) r := by
  obtain ⟨name, hname⟩ : ∃ f, tokens[0]? = some f :=
    ⟨_, List.getElem?_eq_getElem (by omega)⟩
  obtain ⟨f, t, hf, ht, htime⟩ := timeField_eq_ok.mp htime
  rw [parseMessage, token_of_some hname, eval_ok, pure_bind_apply, token_of_some hf, eval_ok,
    pure_bind_apply, ht, eval_ok, pure_bind_apply, lexical_cast_eq_ok.mpr htime, eval_ok,
    pure_bind_apply, token_of_none (Nat.le_of_eq hlength), bind_error (eval_error _ _)]

end Kinds

/-! ## All lines -/

section Lines

variable {B : LexicalCast} {r : RoadRunnerBaseLine} {line : StdString}

theorem parseLine_of_many (h : (line.splitOn 59).length ≠ 1) :
    parseLine B line = parseMessage B (line.splitOn 59) := by
  rw [parseLine]
  exact if_neg h

theorem parseLine_of_one {f : StdString} (h : line.splitOn 59 = [f]) :
    parseLine B line r = (do
      let nextTime ← eval (lexical_cast B.toUnsigned f)
      modify fun r => store r (.tick nextTime)) r := by
  rw [parseLine, if_pos (by rw [h]; rfl), h]
  rfl

/-- A bare tick is stored or refused. -/
theorem handles_tick (h : (line.splitOn 59).length = 1) : Handles B r line := by
  obtain ⟨f, hf⟩ := List.length_eq_one_iff.mp h
  cases htime : B.toUnsigned f with
  | none =>
    refine .inr (.inr ⟨"bad lexical cast", r, ?_, rfl, rfl, rfl⟩)
    rw [parseLine_of_one hf, lexical_cast, htime]
    rfl
  | some time =>
    refine .inl ⟨.tick time, .tick hf htime, ?_, ?_⟩
    · intro kind agId hheader
      cases hheader
    · rw [parseLine_of_one hf, lexical_cast, htime]
      rfl

theorem three_le_fields (kind : MessageType) : 3 ≤ kind.fields := by
  cases kind <;> decide

/-- The header of a line of a known kind with all its fields. -/
theorem headed_of_time {name : StdString} {kind : MessageType} {time : UInt32}
    (hname : (line.splitOn 59)[0]? = some name) (hkind : kindOf name = some kind)
    (hfields : kind.fields ≤ (line.splitOn 59).length)
    (htime : timeField B (line.splitOn 59) = .ok time) :
    ∃ agId, Headed B line kind time agId := by
  have hthree : 2 < (line.splitOn 59).length := Nat.le_trans (three_le_fields kind) hfields
  obtain ⟨-, agTok, agId, -, hagTok, hagent⟩ := header_fields hthree
  exact ⟨agId, ⟨name, hname, hkind⟩, timeField_eq_ok.mp htime, ⟨agTok, hagTok, hagent⟩, hfields⟩

/-- The line is read on behind its header. -/
theorem parseLine_of_headed (hmap : r.KnownTypes) {kind : MessageType} {time : UInt32}
    {agId : StdString} (h : Headed B line kind time agId) :
    parseLine B line r = parseKind B kind time agId (line.splitOn 59) r := by
  obtain ⟨name, hname, hkind⟩ := h.name
  obtain ⟨agTok, hagTok, hagent⟩ := h.agent
  have hthree := Nat.le_trans (three_le_fields kind) h.enough
  obtain ⟨m, hrun, hsame, -⟩ := messageTypeOf_apply hmap name
  obtain rfl : m = r.MessageMap := hsame (by rw [hkind]; exact Option.some_ne_none kind)
  rw [parseLine_of_many (by omega), parseMessage_of_header hname (timeField_eq_ok.mpr h.stamp)
    hagTok hagent, bind_ok hrun, hkind, Option.getD_some]

theorem admits_iff_not_skips {l : TraceLine} {kind : MessageType} {agId : StdString}
    (hheader : l.header = some (kind, agId)) : r.Admits l ↔ ¬ r.Skips kind agId := by
  constructor
  · intro hadmits
    exact hadmits kind agId hheader
  · intro hskips kind' agId' hheader'
    rw [hheader] at hheader'
    cases hheader'
    exact hskips

/-- What the parser does with a line that is read. -/
theorem parseLine_of_reads (hmap : r.KnownTypes) {l : TraceLine} (h : Reads B line l) :
    r.Admits l ∧ parseLine B line r = .ok () (r.store l) ∨
      ¬ r.Admits l ∧ parseLine B line r = .ok () r := by
  have hcases : ∀ {kind time agId}, l.header = some (kind, agId) → Headed B line kind time agId →
      (¬ r.Skips kind agId → parseKind B kind time agId (line.splitOn 59) r =
        .ok () (r.store l)) → r.Admits l ∧ parseLine B line r = .ok () (r.store l) ∨
      ¬ r.Admits l ∧ parseLine B line r = .ok () r := by
    intro kind time agId hheader hhead hstores
    rw [parseLine_of_headed hmap hhead]
    by_cases hskips : r.Skips kind agId
    · exact .inr ⟨fun hadmits => hadmits kind agId hheader hskips, parseKind_skips hskips⟩
    · exact .inl ⟨(admits_iff_not_skips hheader).mpr hskips, hstores hskips⟩
  cases h with
  | tick hfields htime =>
    left
    constructor
    · intro kind agId hheader
      cases hheader
    · rw [parseLine_of_one hfields, lexical_cast, htime]
      rfl
  | add hhead => exact hcases rfl hhead parseAdd_stores
  | update hhead hx hy => exact hcases rfl hhead fun hskips => parseUpdate_stores hskips hx hy
  | multicast hhead hf hrecipients hdata =>
    exact hcases rfl hhead fun hskips => parseMulticast_stores hskips hf hrecipients hdata

/-- A line of a known kind with all its fields. -/
theorem handles_known (hmap : r.KnownTypes) {name : StdString} {kind : MessageType}
    (hname : (line.splitOn 59)[0]? = some name) (hkind : kindOf name = some kind)
    (hfields : kind.fields ≤ (line.splitOn 59).length) : Handles B r line := by
  have hthree := Nat.le_trans (three_le_fields kind) hfields
  rcases timeField_cases (B := B) (Nat.le_of_succ_le hthree) with ⟨time, htime⟩ | ⟨what, htime⟩
  · obtain ⟨agId, hheaded⟩ := headed_of_time hname hkind hfields htime
    have hrun := parseLine_of_headed hmap hheaded
    by_cases hskips : r.Skips kind agId
    · refine .inr (.inl ⟨kind, time, agId, hheaded, hskips, ?_⟩)
      rw [hrun, parseKind_skips hskips]
    · have hstored : ∀ l : TraceLine, l.header = some (kind, agId) → Reads B line l →
          Handles B r line := by
        intro l hheader hreads
        have hadmits := (admits_iff_not_skips hheader).mpr hskips
        rcases parseLine_of_reads hmap hreads with ⟨-, hstores⟩ | ⟨hnot, -⟩
        · exact .inl ⟨l, hreads, hadmits, hstores⟩
        · exact absurd hadmits hnot
      cases kind with
      | ADD => exact hstored _ rfl (.add hheaded)
      | UPDATE =>
        rcases @parseUpdate_full B r line time agId hskips hfields with
          ⟨x, y, hx, hy⟩ | ⟨what, hthrown⟩
        · exact hstored _ rfl (.update hheaded hx hy)
        · refine .inr (.inr ⟨what, r, ?_, rfl, rfl, rfl⟩)
          rw [hrun, parseKind, hthrown]
      | MULTICAST =>
        obtain ⟨f, recipients, mcData, hf, hrecipients, hdata⟩ := last_fields hfields
        exact hstored _ rfl (.multicast hheaded hf hrecipients hdata)
  · refine .inr (.inr ⟨what, r, ?_, rfl, rfl, rfl⟩)
    rw [parseLine_of_many (by omega), parseMessage_of_time (Nat.le_of_succ_le hthree) htime]

/-- A line that is read, but is no bare tick, has a header. -/
theorem headed_of_reads {l : TraceLine} (h : Reads B line l)
    (hmany : (line.splitOn 59).length ≠ 1) :
    ∃ kind time agId, Headed B line kind time agId := by
  cases h with
  | tick hfields htime =>
    rw [hfields] at hmany
    exact absurd rfl hmany
  | add hhead => exact ⟨_, _, _, hhead⟩
  | update hhead => exact ⟨_, _, _, hhead⟩
  | multicast hhead => exact ⟨_, _, _, hhead⟩

/-- A time is read, but the kind is unknown or lacks fields: nothing is thrown. -/
theorem parseLine_not_thrown (hmap : r.KnownTypes) {time : UInt32}
    (hlength : 2 ≤ (line.splitOn 59).length) (htime : timeField B (line.splitOn 59) = .ok time)
    (hkind : ∀ name kind, (line.splitOn 59)[0]? = some name → kindOf name = some kind →
      (line.splitOn 59).length < kind.fields) {what : String} {r' : RoadRunnerBaseLine} :
    parseLine B line r ≠ .error (.exception what) r' := by
  rw [parseLine_of_many (by omega)]
  by_cases htwo : (line.splitOn 59).length = 2
  · rw [parseMessage_of_two htwo htime]
    intro h
    cases h
  · have hthree : 2 < (line.splitOn 59).length := by omega
    obtain ⟨name, agTok, agId, hname, hagTok, hagent⟩ := header_fields hthree
    obtain ⟨m, hrun, -⟩ := messageTypeOf_apply hmap name
    rw [parseMessage_of_header hname htime hagTok hagent, bind_ok hrun]
    cases hknown : kindOf name with
    | none => exact parseMulticast_not_thrown
    | some kind => exact parseKind_few hthree (hkind name kind hname hknown)

/-- Exactly the readable lines are handled as the grammar says. -/
theorem handles_iff (hmap : r.KnownTypes) : Handles B r line ↔ Readable B line := by
  constructor
  · intro h
    by_cases hone : (line.splitOn 59).length = 1
    · exact .inl hone
    · have hne : line.splitOn 59 ≠ [] := List.splitOn_ne_nil _ _
      have hlength : 2 ≤ (line.splitOn 59).length := by
        have hpos := List.length_pos_iff.mpr hne
        omega
      rcases timeField_cases (B := B) hlength with ⟨time, htime⟩ | hthrown
      · right
        right
        have hheaded : (∃ kind time agId, Headed B line kind time agId) →
            ∃ f kind, (line.splitOn 59)[0]? = some f ∧ kindOf f = some kind ∧
              kind.fields ≤ (line.splitOn 59).length := by
          intro hexists
          obtain ⟨kind, time, agId, hhead⟩ := hexists
          obtain ⟨f, hf, hkind⟩ := hhead.name
          exact ⟨f, kind, hf, hkind, hhead.enough⟩
        rcases h with ⟨l, hreads, -⟩ | ⟨kind, time', agId, hhead, -⟩ | ⟨what, r', hthrown, -⟩
        · exact hheaded (headed_of_reads hreads hone)
        · exact hheaded ⟨kind, time', agId, hhead⟩
        · by_contra hnot
          refine parseLine_not_thrown hmap hlength htime (fun f kind hf hkind => ?_) hthrown
          by_contra hge
          exact hnot ⟨f, kind, hf, hkind, Nat.le_of_not_lt hge⟩
      · exact .inr (.inl hthrown)
  · intro h
    rcases h with hone | ⟨what, hthrown⟩ | ⟨name, kind, hname, hkind, hfields⟩
    · exact handles_tick hone
    · refine .inr (.inr ⟨what, r, ?_, rfl, rfl, rfl⟩)
      have hlength : 2 ≤ (line.splitOn 59).length := by
        by_contra hshort
        rw [timeField, token_of_none (by omega)] at hthrown
        cases hthrown
      rw [parseLine_of_many (by omega), parseMessage_of_time hlength hthrown]
    · exact handles_known hmap hname hkind hfields

/-! ## Every state of the parser -/

theorem KnownTypes.of_map {r' : RoadRunnerBaseLine} (h : r.KnownTypes)
    (hmap : r'.MessageMap = r.MessageMap) : r'.KnownTypes where
  known name kind hkind := by rw [hmap, h.known name kind hkind]
  unknown name hkind := by rw [hmap, h.unknown name hkind]

theorem store_MessageMap (l : TraceLine) : (r.store l).MessageMap = r.MessageMap := by
  cases l <;> rfl

/-- However the rest of a line ends, it leaves the kinds as they are. -/
theorem parseKind_MessageMap {kind : MessageType} {time : UInt32} {agId : StdString} :
    (final (parseKind B kind time agId (line.splitOn 59) r)).MessageMap = r.MessageMap := by
  by_cases hskips : r.Skips kind agId
  · rw [parseKind_skips hskips]
    rfl
  · cases kind with
    | ADD =>
      rw [parseKind, parseAdd_stores hskips, final, store_MessageMap]
    | UPDATE =>
      rw [parseKind]
      by_cases hfields : 5 ≤ (line.splitOn 59).length
      · rcases @parseUpdate_full B r line time agId hskips hfields with
          ⟨x, y, hx, hy⟩ | ⟨what, hrun⟩
        · rw [parseUpdate_stores hskips hx hy, final, store_MessageMap]
        · rw [hrun]
          rfl
      · rw [parseUpdate_few hskips (Nat.lt_of_not_le hfields)]
        rfl
    | MULTICAST =>
      rw [parseKind]
      by_cases hfields : 5 ≤ (line.splitOn 59).length
      · obtain ⟨_, _, _, hf, hrecipients, hdata⟩ := last_fields hfields
        rw [parseMulticast_stores hskips hf hrecipients hdata, final, store_MessageMap]
      · rw [parseMulticast_few hskips (Nat.lt_of_not_le hfields)]
        rfl

/-- Whatever lines the parser met, and however they ended, it knows the kinds. -/
theorem parseLine_knownTypes (B : LexicalCast) (line : StdString) :
    Keeps KnownTypes (parseLine B line) := by
  intro r hmap
  by_cases hone : (line.splitOn 59).length = 1
  · obtain ⟨f, hf⟩ := List.length_eq_one_iff.mp hone
    rw [parseLine_of_one hf]
    cases htime : B.toUnsigned f with
    | none =>
      rw [lexical_cast, htime]
      exact hmap
    | some time =>
      rw [lexical_cast, htime]
      exact hmap.of_map rfl
  · have hpos := List.length_pos_iff.mpr (List.splitOn_ne_nil 59 line)
    have hlength : 2 ≤ (line.splitOn 59).length := by omega
    rw [parseLine_of_many hone]
    rcases timeField_cases (B := B) hlength with ⟨time, htime⟩ | ⟨what, htime⟩
    · by_cases htwo : (line.splitOn 59).length = 2
      · rw [parseMessage_of_two htwo htime]
        exact hmap
      · have hthree : 2 < (line.splitOn 59).length := by omega
        obtain ⟨name, agTok, agId, hname, hagTok, hagent⟩ := header_fields hthree
        obtain ⟨m, hrun, -, hmap'⟩ := messageTypeOf_apply hmap name
        rw [parseMessage_of_header hname htime hagTok hagent, bind_ok hrun]
        exact hmap'.of_map parseKind_MessageMap
    · rw [parseMessage_of_time hlength htime]
      exact hmap

/-- Parsing a file, however it ends, leaves the parser in such a state. -/
theorem knownTypes_of_parse (contents : Option StdString) (protocol : StdString)
    (nof_agents : UInt32) (dc dl : Bool) :
    (final (parse B contents (create protocol nof_agents dc dl))).KnownTypes := by
  have hkeeps : Keeps KnownTypes (parse B contents) := by
    unfold parse
    refine (Keeps.modify fun s hs => ?_).bind fun _ => ?_
    · exact hs.of_map rfl
    · cases contents with
      | none => exact fun _ hs => hs
      | some text => exact Keeps.forEach fun line _ => parseLine_knownTypes B line
  exact hkeeps _ (knownTypes_create protocol nof_agents dc dl)

end Lines

/-- The trace program once a line that adds the agent `1` was parsed. -/
def oneAdded : RoadRunnerBaseLine :=
  final (parse LexicalCast.reference (some (str "add_agent;time:0ms;agId:1"))
    (create (str "80211b") 1 false false))

theorem handles_iff_added :
    Handles LexicalCast.reference oneAdded (str "update_agent;time:0ms;agId:1;x:0.0;y:0.0") ↔
      Readable LexicalCast.reference (str "update_agent;time:0ms;agId:1;x:0.0;y:0.0") :=
  handles_iff (knownTypes_of_parse _ _ _ _ _)

/-- A line of a kind that is unknown. -/
def unknownLine : StdString := str "say;time:0ms;sender:1;recipients:2;hello"

/-- It is stored as a multicast. -/
theorem unknown_not_rejected :
    value (parseLine LexicalCast.reference unknownLine oneAdded) = some () ∧
      ((final (parseLine LexicalCast.reference unknownLine
        oneAdded)).trace_time_ticks[(0 : UInt32)]?.map (·.multicast)) = some [
          { sendAgId := str "1", receiveAgId := [str "2"], mcData := str "hello" }] ∧
      ¬ Handles LexicalCast.reference oneAdded unknownLine := by
  refine ⟨by decide +kernel, by decide +kernel, fun h => ?_⟩
  have hreadable := (handles_iff (knownTypes_of_parse _ _ _ _ _)).mp h
  rcases hreadable with hone | ⟨what, htime⟩ | ⟨name, kind, hname, hkind, -⟩
  · exact absurd hone (by decide +kernel)
  · have hok : timeField LexicalCast.reference (unknownLine.splitOn 59) = .ok 0 := by
      decide +kernel
    rw [hok] at htime
    cases htime
  · have hfirst : (unknownLine.splitOn 59)[0]? = some (str "say") := by decide +kernel
    rw [hfirst] at hname
    cases hname
    exact absurd hkind (by decide +revert)

end RoadRunnerBaseLine
end Sm4ns3
