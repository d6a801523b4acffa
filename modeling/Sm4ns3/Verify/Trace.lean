import Sm4ns3.Testing.RrBaseline

/-!
# What is parsed from a trace file

The lines that were stored are the history of `parseLine`. A bare tick clears the records of its
time, so a tick holds the records behind its last bare tick (`Stored`), not all that
the file has for it.
-/

namespace Sm4ns3

open Bytes Cpp Call

/-! ## Lines -/

namespace TraceLine

/-- The time of the line. -/
def time : TraceLine → UInt32
  | .tick time => time
  | .add time _ => time
  | .update time _ _ => time
  | .multicast time _ => time

/-- The kind and the agent of a line, unless it is a bare tick. -/
def header : TraceLine → Option (MessageType × StdString)
  | .tick _ => none
  | .add _ agId => some (.ADD, agId)
  | .update _ agId _ => some (.UPDATE, agId)
  | .multicast _ record => some (.MULTICAST, record.sendAgId)

/-- The agent of the line. -/
def agId (l : TraceLine) : Option StdString := l.header.map Prod.snd

/-- The record of a multicast line of this time. -/
def multicastAt (T : UInt32) : TraceLine → Option TickMulticast
  | .multicast time record => if time = T then some record else none
  | _ => none

/-- The coordinates of an update line of this time for this agent. -/
def updateAt (T : UInt32) (agId : StdString) : TraceLine → Option DPoint
  | .update time id pos => if time = T ∧ id = agId then some pos else none
  | _ => none

/-- The multicast lines of a time, in line order. -/
def multicasts (T : UInt32) (ps : List TraceLine) : List TickMulticast :=
  ps.filterMap (multicastAt T)

/-- The last update line of a time for an agent. -/
def lastUpdate (T : UInt32) (agId : StdString) (ps : List TraceLine) : Option DPoint :=
  (ps.filterMap (updateAt T agId)).getLast?

/-- What was read since the last bare tick of a time. -/
def sinceTick (T : UInt32) (ps : List TraceLine) : List TraceLine :=
  ps.foldl (fun since p => if p = .tick T then [] else since ++ [p]) []

theorem sinceTick_concat (T : UInt32) (ps : List TraceLine) (p : TraceLine) :
    sinceTick T (ps ++ [p]) = if p = .tick T then [] else sinceTick T ps ++ [p] := by
  rw [sinceTick, List.foldl_append]
  rfl

/-- What was read before ends with the bare tick, if there is one. -/
theorem exists_sinceTick (T : UInt32) (ps : List TraceLine) :
    sinceTick T ps = ps ∨ ∃ pre, ps = pre ++ .tick T :: sinceTick T ps := by
  induction ps using List.reverseRecOn with
  | nil => exact .inl rfl
  | append_singleton ps p ih =>
    rw [sinceTick_concat]
    by_cases hp : p = .tick T
    · rw [if_pos hp, hp]
      exact .inr ⟨ps, rfl⟩
    · rw [if_neg hp]
      rcases ih with heq | ⟨pre, heq⟩
      · exact .inl (by rw [heq])
      · refine .inr ⟨pre, ?_⟩
        rw [← List.cons_append, ← List.append_assoc, ← heq]

/-- The bare tick of a time stands before everything else of its time. -/
def TickFirst (T : UInt32) (ps : List TraceLine) : Prop :=
  ∀ pre post, ps = pre ++ .tick T :: post → ∀ p ∈ pre, p.time ≠ T

instance {T : UInt32} {ps : List TraceLine} : Decidable (TickFirst T ps) :=
  decidable_of_iff (∀ k < ps.length, ps[k]? = some (.tick T) → ∀ p ∈ ps.take k, p.time ≠ T) <| by
    constructor
    · rintro h pre post rfl
      have hk := h pre.length (by simp)
      simpa using hk
    · intro h k hk hget
      obtain ⟨hlt, hval⟩ := List.getElem?_eq_some_iff.mp hget
      refine h (ps.take k) (ps.drop (k + 1)) ?_
      rw [← hval, List.cons_getElem_drop_succ, List.take_append_drop]

theorem updateAt_of_time {T : UInt32} {agId : StdString} {p : TraceLine} (h : p.time ≠ T) :
    updateAt T agId p = none := by
  cases p with
  | update time id pos => exact if_neg fun hboth => h hboth.1
  | _ => rfl

theorem multicastAt_of_time {T : UInt32} {p : TraceLine} (h : p.time ≠ T) :
    multicastAt T p = none := by
  cases p with
  | multicast time record => exact if_neg h
  | _ => rfl

theorem multicasts_concat (T : UInt32) (ps : List TraceLine) (p : TraceLine) :
    multicasts T (ps ++ [p]) = multicasts T ps ++ (multicastAt T p).toList := by
  rw [multicasts, List.filterMap_append]
  cases hp : multicastAt T p with
  | none => simp [multicasts, hp]
  | some record => simp [multicasts, hp]

theorem lastUpdate_concat (T : UInt32) (agId : StdString) (ps : List TraceLine) (p : TraceLine) :
    lastUpdate T agId (ps ++ [p]) = (updateAt T agId p).or (lastUpdate T agId ps) := by
  rw [lastUpdate, List.filterMap_append]
  cases hp : updateAt T agId p with
  | none => simp [lastUpdate, hp]
  | some pos => simp [hp]

theorem mem_of_lastUpdate {T : UInt32} {agId : StdString} {ps : List TraceLine} {pos : DPoint}
    (h : lastUpdate T agId ps = some pos) : .update T agId pos ∈ ps := by
  obtain ⟨p, hp, hat⟩ := List.mem_filterMap.mp (List.mem_of_getLast? h)
  cases p with
  | update time id pos' =>
    simp only [updateAt, Option.ite_none_right_eq_some, Option.some.injEq] at hat
    obtain ⟨hboth, rfl⟩ := hat
    obtain ⟨rfl, rfl⟩ := hboth
    exact hp
  | _ => cases hat

/-- Then the records behind the bare tick are all of them. -/
theorem TickFirst.lastUpdate_eq {T : UInt32} {ps : List TraceLine} (h : TickFirst T ps)
    (agId : StdString) : lastUpdate T agId (sinceTick T ps) = lastUpdate T agId ps := by
  rcases exists_sinceTick T ps with heq | ⟨pre, heq⟩
  · rw [heq]
  · have hpre : pre.filterMap (updateAt T agId) = [] := by
      rw [List.filterMap_eq_nil_iff]
      exact fun p hp => updateAt_of_time (h pre _ heq p hp)
    have hall : ps.filterMap (updateAt T agId) = (sinceTick T ps).filterMap (updateAt T agId) := by
      conv_lhs => rw [heq]
      rw [List.filterMap_append, hpre]
      rfl
    rw [lastUpdate, lastUpdate, hall]

end TraceLine

/-! ## What a line does -/

namespace RoadRunnerBaseLine

/-- The state after a line, for one of the things a line can do. -/
inductive LineRead (r : RoadRunnerBaseLine) (line : StdString) : RoadRunnerBaseLine → Prop where
  | tick (T : UInt32) : LineRead r line { r with
      trace_time_ticks := r.trace_time_ticks.insert T {}
      parsed := r.parsed ++ [.tick T] }
  /-- the agent is beyond the limit, or the kind of line is disabled -/
  | skipped (m : Std.TreeMap StdString MessageType) : LineRead r line { r with MessageMap := m }
  | add (m : Std.TreeMap StdString MessageType) (T : UInt32) (agId : StdString)
      (limit : Std.TreeSet StdString)
      (hlimit : limit = r.agent_limit ∧ agId ∈ r.agent_limit ∨
        limit = r.agent_limit.insert agId ∧ r.agent_limit.size < r.maxNOFAgents.toNat) :
      LineRead r line { r with
        MessageMap := m
        agent_limit := limit
        trace_time_ticks := r.trace_time_ticks.insert T
          { r.trace_time_ticks[T]?.getD {} with
            add_agent := (r.trace_time_ticks[T]?.getD {}).add_agent ++ [agId] }
        agentsList := r.agentsList.insert agId }
  | update (m : Std.TreeMap StdString MessageType) (T : UInt32) (agId : StdString) (pos : DPoint)
      (hlimit : agId ∈ r.agent_limit) (hline : agId ⊆ line) : LineRead r line { r with
        MessageMap := m
        trace_time_ticks := r.trace_time_ticks.insert T
          { r.trace_time_ticks[T]?.getD {} with
            update_agent := (r.trace_time_ticks[T]?.getD {}).update_agent.insert agId pos }
        parsed := r.parsed ++ [.update T agId pos] }
  | multicast (m : Std.TreeMap StdString MessageType) (T : UInt32) (record : TickMulticast)
      (hlimit : record.sendAgId ∈ r.agent_limit) : LineRead r line { r with
        MessageMap := m
        trace_time_ticks := r.trace_time_ticks.insert T
          { r.trace_time_ticks[T]?.getD {} with
            multicast := (r.trace_time_ticks[T]?.getD {}).multicast ++ [record] }
        parsed := r.parsed ++ [.multicast T record] }

section Lines

variable {B : LexicalCast} {r r' : RoadRunnerBaseLine} {line : StdString} {u : Unit}

theorem messageTypeOf_eq_ok {messageTypeStr : StdString} {messageType : MessageType}
    (h : messageTypeOf messageTypeStr r = .ok messageType r') :
    ∃ m, r' = { r with MessageMap := m } := by
  rw [messageTypeOf, get_bind_apply] at h
  cases hslot : r.MessageMap[messageTypeStr]? with
  | some known =>
    rw [hslot] at h
    cases h
    exact ⟨r.MessageMap, rfl⟩
  | none =>
    rw [hslot] at h
    cases h
    exact ⟨_, rfl⟩

theorem substr_subset {s t : StdString} {pos n : Nat} (h : substr s pos n = .ok t) : t ⊆ s := by
  unfold substr at h
  split at h
  · cases h
    exact fun c hc => List.mem_of_mem_drop (List.mem_of_mem_take hc)
  · cases h

theorem token_subset {t : StdString} {i : Nat} (h : token (line.splitOn 59) i = .ok t) :
    t ⊆ line := by
  unfold token at h
  split at h
  · rename_i hget
    cases h
    exact subset_of_mem_splitOn (List.mem_of_getElem? hget)
  · cases h

theorem parseAdd_cases {T : UInt32} {agId : StdString} {m : Std.TreeMap StdString MessageType}
    (h : parseAdd T agId { r with MessageMap := m } = .ok u r') : LineRead r line r' := by
  rw [parseAdd, get_bind_apply] at h
  by_cases hsize : r.agent_limit.size < r.maxNOFAgents.toNat
  · rw [if_pos hsize, set_bind_apply] at h
    dsimp only at h
    rw [get_bind_apply, if_neg (by simp)] at h
    cases h
    exact .add m T agId _ (.inr ⟨rfl, hsize⟩)
  · rw [if_neg hsize] at h
    dsimp only at h
    rw [get_bind_apply] at h
    by_cases hmem : r.agent_limit.contains agId = true
    · rw [if_neg (by simp [hmem])] at h
      cases h
      exact .add m T agId _ (.inl ⟨rfl, Std.TreeSet.mem_iff_contains.mpr hmem⟩)
    · rw [Bool.not_eq_true] at hmem
      rw [hmem, if_pos Bool.not_false] at h
      cases h
      exact .skipped m

/-- The records of an agent are read unless their kind is disabled or the agent is beyond
the limit. -/
def unlessSkipped (disabled : RoadRunnerBaseLine → Bool) (agId : StdString)
    (x : Call RoadRunnerBaseLine Unit) : Call RoadRunnerBaseLine Unit := do
  let r ← get
  if disabled r then
    pure ()
  else if !r.agent_limit.contains agId then
    pure ()
  else
    x

/-- What is read of an update line. -/
def updateRecord (B : LexicalCast) (currTime : UInt32) (agId : StdString)
    (tokens : List StdString) : Call RoadRunnerBaseLine Unit := do
  let xTok ← eval (token tokens 3)
  let xStr ← eval (afterColon xTok (subSize xTok.length 1))
  let yTok ← eval (token tokens 4)
  let yStr ← eval (afterColon yTok (subSize yTok.length 1))
  let xPos ← eval (lexical_cast B.toDouble xStr)
  let yPos ← eval (lexical_cast B.toDouble yStr)
  updateTick currTime fun tick => { tick with
    update_agent := tick.update_agent.insert agId { x := xPos, y := yPos } }
  recordParsed (.update currTime agId { x := xPos, y := yPos })

/-- What is read of a multicast line. -/
def multicastRecord (currTime : UInt32) (agId : StdString) (tokens : List StdString) :
    Call RoadRunnerBaseLine Unit := do
  let recipientsTok ← eval (token tokens 3)
  let recipientsStr ← eval (afterColon recipientsTok (subSize recipientsTok.length 1))
  let mcData ← eval (token tokens 4)
  let res : TickMulticast :=
    { sendAgId := agId
      receiveAgId := (recipientsStr.splitOn 44).filter (!·.isEmpty)
      mcData := mcData }
  updateTick currTime fun tick => { tick with multicast := tick.multicast ++ [res] }
  recordParsed (.multicast currTime res)

theorem parseUpdate_eq (T : UInt32) (agId : StdString) (tokens : List StdString) :
    parseUpdate B T agId tokens =
      unlessSkipped disable_location_update agId (updateRecord B T agId tokens) := rfl

theorem parseMulticast_eq (T : UInt32) (agId : StdString) (tokens : List StdString) :
    parseMulticast T agId tokens =
      unlessSkipped disable_communication agId (multicastRecord T agId tokens) := rfl

section Skipped

variable {disabled : RoadRunnerBaseLine → Bool} {agId : StdString}
  {x : Call RoadRunnerBaseLine Unit}

theorem unlessSkipped_skipped (h : disabled r = true ∨ agId ∉ r.agent_limit) :
    unlessSkipped disabled agId x r = .ok () r := by
  rw [unlessSkipped, get_bind_apply]
  by_cases hdisabled : disabled r = true
  · rw [if_pos hdisabled]
    rfl
  · have hmem : agId ∉ r.agent_limit := h.resolve_left hdisabled
    rw [Std.TreeSet.mem_iff_contains, Bool.not_eq_true] at hmem
    rw [if_neg hdisabled, hmem, if_pos Bool.not_false]
    rfl

theorem unlessSkipped_admitted (h : ¬ (disabled r = true ∨ agId ∉ r.agent_limit)) :
    unlessSkipped disabled agId x r = x r := by
  have hdisabled : ¬ disabled r = true := fun hd => h (.inl hd)
  have hmem : r.agent_limit.contains agId = true := by
    by_contra hnot
    exact h (.inr (by rwa [Std.TreeSet.mem_iff_contains]))
  rw [unlessSkipped, get_bind_apply, if_neg hdisabled, hmem, if_neg (by simp)]

theorem unlessSkipped_eq_ok (h : unlessSkipped disabled agId x r = .ok u r') :
    r' = r ∨ agId ∈ r.agent_limit ∧ x r = .ok u r' := by
  by_cases hskipped : disabled r = true ∨ agId ∉ r.agent_limit
  · rw [unlessSkipped_skipped hskipped] at h
    cases h
    exact .inl rfl
  · rw [unlessSkipped_admitted hskipped] at h
    exact .inr ⟨by_contra fun hnot => hskipped (.inr hnot), h⟩

end Skipped

theorem parseUpdate_cases {T : UInt32} {agId : StdString} {tokens : List StdString}
    {m : Std.TreeMap StdString MessageType} (hline : agId ⊆ line)
    (h : parseUpdate B T agId tokens { r with MessageMap := m } = .ok u r') :
    LineRead r line r' := by
  rw [parseUpdate_eq] at h
  obtain rfl | ⟨hmem, h⟩ := unlessSkipped_eq_ok h
  · exact .skipped m
  · simp only [updateRecord, eval_bind_eq_ok] at h
    obtain ⟨-, -, xStr, -, -, -, yStr, -, xPos, -, yPos, -, h⟩ := h
    cases h
    exact .update m T agId _ hmem hline

theorem parseMulticast_cases {T : UInt32} {agId : StdString} {tokens : List StdString}
    {m : Std.TreeMap StdString MessageType}
    (h : parseMulticast T agId tokens { r with MessageMap := m } = .ok u r') :
    LineRead r line r' := by
  rw [parseMulticast_eq] at h
  obtain rfl | ⟨hmem, h⟩ := unlessSkipped_eq_ok h
  · exact .skipped m
  · simp only [multicastRecord, eval_bind_eq_ok] at h
    obtain ⟨-, -, recipientsStr, -, mcData, -, h⟩ := h
    cases h
    exact .multicast m T _ hmem

theorem parseLine_cases (h : parseLine B line r = .ok u r') : LineRead r line r' := by
  unfold parseLine at h
  split at h
  · simp only [eval_bind_eq_ok] at h
    obtain ⟨-, -, T, -, h⟩ := h
    cases h
    exact .tick T
  · simp only [parseMessage, eval_bind_eq_ok] at h
    obtain ⟨messageTypeStr, -, -, -, -, -, currTime, -, agTok, hagTok, agId, hagId, h⟩ := h
    obtain ⟨messageType, r₁, htype, h⟩ := bind_eq_ok h
    obtain ⟨m, rfl⟩ := messageTypeOf_eq_ok htype
    have hline : agId ⊆ line :=
      List.Subset.trans (substr_subset hagId) (token_subset hagTok)
    cases messageType with
    | ADD => exact parseAdd_cases h
    | UPDATE => exact parseUpdate_cases hline h
    | MULTICAST => exact parseMulticast_cases h

end Lines

/-! ## What is stored -/

/-- The ticks hold what was read since the bare tick of their time, the agents of the
lines that were kept are within the limit, and these are the agents to be made. -/
structure Stored (r : RoadRunnerBaseLine) : Prop where
  multicast : ∀ T, (r.trace_time_ticks[T]?.getD {}).multicast =
    TraceLine.multicasts T (TraceLine.sinceTick T r.parsed)
  update : ∀ T (agId : StdString), (r.trace_time_ticks[T]?.getD {}).update_agent[agId]? =
    TraceLine.lastUpdate T agId (TraceLine.sinceTick T r.parsed)
  agents : ∀ agId, agId ∈ r.agentsList ↔ agId ∈ r.agent_limit
  limit : r.agent_limit.size ≤ r.maxNOFAgents.toNat
  kept : ∀ p ∈ r.parsed, ∀ agId ∈ p.agId, agId ∈ r.agent_limit

theorem mem_insert_limit {limit : Std.TreeSet StdString} {agId id : StdString} :
    id ∈ limit.insert agId ↔ id = agId ∨ id ∈ limit := by
  rw [Std.TreeSet.mem_insert, Std.LawfulEqCmp.compare_eq_iff_eq, eq_comm]

theorem nodup_toList (t : Std.TreeSet StdString) : t.toList.Nodup :=
  t.distinct_toList.imp Std.ReflCmp.ne_of_cmp_ne_eq

section Store

variable {r : RoadRunnerBaseLine} {T time : UInt32} {tick : TimeTick}

/-- The tick of a time once a tick was stored. -/
theorem getD_insert :
    (r.trace_time_ticks.insert T tick)[time]?.getD {} =
      if time = T then tick else r.trace_time_ticks[time]?.getD {} := by
  simp only [Std.TreeMap.getElem?_insert, Std.LawfulEqCmp.compare_eq_iff_eq]
  by_cases h : time = T
  · rw [if_pos h, if_pos h.symm]
    rfl
  · rw [if_neg h, if_neg (Ne.symm h)]

/-- A field that the stored tick leaves as it was is the same at every time. -/
theorem getD_insert_field {β : Type} {f : TimeTick → β}
    (h : f tick = f (r.trace_time_ticks[T]?.getD {})) :
    f ((r.trace_time_ticks.insert T tick)[time]?.getD {}) =
      f (r.trace_time_ticks[time]?.getD {}) := by
  rw [getD_insert]
  split
  · rename_i htime
    rw [h, htime]
  · rfl

/-- One more line within the limit. -/
theorem kept_concat {limit : Std.TreeSet StdString} {ps : List TraceLine} {p : TraceLine}
    (hps : ∀ q ∈ ps, ∀ id ∈ q.agId, id ∈ limit) (hp : ∀ id ∈ p.agId, id ∈ limit) :
    ∀ q ∈ ps ++ [p], ∀ id ∈ q.agId, id ∈ limit := by
  intro q hq
  rcases List.mem_append.mp hq with hq | hq
  · exact hps q hq
  · obtain rfl := List.mem_singleton.mp hq
    exact hp

theorem multicasts_sinceTick_concat {p : TraceLine} (h : p ≠ .tick time) :
    TraceLine.multicasts time (TraceLine.sinceTick time (r.parsed ++ [p])) =
      TraceLine.multicasts time (TraceLine.sinceTick time r.parsed) ++
        (TraceLine.multicastAt time p).toList := by
  rw [TraceLine.sinceTick_concat, if_neg h, TraceLine.multicasts_concat]

theorem lastUpdate_sinceTick_concat {p : TraceLine} (h : p ≠ .tick time) (agId : StdString) :
    TraceLine.lastUpdate time agId (TraceLine.sinceTick time (r.parsed ++ [p])) =
      (TraceLine.updateAt time agId p).or
        (TraceLine.lastUpdate time agId (TraceLine.sinceTick time r.parsed)) := by
  rw [TraceLine.sinceTick_concat, if_neg h, TraceLine.lastUpdate_concat]

end Store

/-- The bare tick of a time clears the records of the time. -/
theorem Stored.tick {r : RoadRunnerBaseLine} (hr : r.Stored) (T : UInt32) :
    Stored { r with
      trace_time_ticks := r.trace_time_ticks.insert T {}
      parsed := r.parsed ++ [.tick T] } := by
  have hne : ∀ {time : UInt32}, time ≠ T → TraceLine.tick T ≠ .tick time :=
    fun htime heq => htime (TraceLine.tick.inj heq).symm
  refine ⟨fun time => ?_, fun time id => ?_, hr.agents, hr.limit,
    kept_concat hr.kept fun id hid => by cases hid⟩
  · simp only [getD_insert]
    by_cases htime : time = T
    · subst htime
      rw [if_pos rfl, TraceLine.sinceTick_concat, if_pos rfl]
      rfl
    · rw [if_neg htime, multicasts_sinceTick_concat (hne htime), hr.multicast]
      simp [TraceLine.multicastAt]
  · simp only [getD_insert]
    by_cases htime : time = T
    · subst htime
      rw [if_pos rfl, TraceLine.sinceTick_concat, if_pos rfl]
      rfl
    · rw [if_neg htime, lastUpdate_sinceTick_concat (hne htime), hr.update]
      rfl

/-- One more agent, within the limit or with room for it. -/
theorem Stored.add {r : RoadRunnerBaseLine} (hr : r.Stored) (m : Std.TreeMap StdString MessageType)
    (T : UInt32) (agId : StdString) {limit : Std.TreeSet StdString}
    (hlimit : limit = r.agent_limit ∧ agId ∈ r.agent_limit ∨
      limit = r.agent_limit.insert agId ∧ r.agent_limit.size < r.maxNOFAgents.toNat) :
    Stored { r with
      MessageMap := m
      agent_limit := limit
      trace_time_ticks := r.trace_time_ticks.insert T
        { r.trace_time_ticks[T]?.getD {} with
          add_agent := (r.trace_time_ticks[T]?.getD {}).add_agent ++ [agId] }
      agentsList := r.agentsList.insert agId } := by
  have hmem : ∀ id, id ∈ limit ↔ id = agId ∨ id ∈ r.agent_limit := by
    intro id
    rcases hlimit with ⟨rfl, hagId⟩ | ⟨rfl, -⟩
    · constructor
      · exact .inr
      · rintro (rfl | hid)
        · exact hagId
        · exact hid
    · exact mem_insert_limit
  refine ⟨fun time => ?_, fun time id => ?_, fun id => ?_, ?_, fun p hp id hid => ?_⟩
  · rw [← hr.multicast time]
    apply getD_insert_field (f := TimeTick.multicast)
    rfl
  · rw [← hr.update time id]
    apply congrArg (·[id]?)
    apply getD_insert_field (f := TimeTick.update_agent)
    rfl
  · rw [mem_insert_limit, hmem, hr.agents]
  · rcases hlimit with ⟨rfl, -⟩ | ⟨rfl, hsize⟩
    · exact hr.limit
    · have hle : (r.agent_limit.insert agId).size ≤ r.agent_limit.size + 1 := by
        rw [Std.TreeSet.size_insert]
        split <;> omega
      exact le_trans hle hsize
  · exact (hmem id).mpr (.inr (hr.kept p hp id hid))

/-- A record is stored under its time, behind those that were there. -/
theorem Stored.record {r : RoadRunnerBaseLine} (hr : r.Stored)
    (m : Std.TreeMap StdString MessageType) {p : TraceLine} {tick : TimeTick}
    (hne : ∀ time, p ≠ .tick time)
    (hmulticast : tick.multicast = (r.trace_time_ticks[p.time]?.getD {}).multicast ++
      (TraceLine.multicastAt p.time p).toList)
    (hupdate : ∀ id, tick.update_agent[id]? = (TraceLine.updateAt p.time id p).or
      (r.trace_time_ticks[p.time]?.getD {}).update_agent[id]?)
    (hlimit : ∀ id ∈ p.agId, id ∈ r.agent_limit) :
    Stored { r with
      MessageMap := m
      trace_time_ticks := r.trace_time_ticks.insert p.time tick
      parsed := r.parsed ++ [p] } := by
  refine ⟨fun time => ?_, fun time id => ?_, hr.agents, hr.limit, kept_concat hr.kept hlimit⟩
  · simp only [getD_insert]
    rw [multicasts_sinceTick_concat (hne time), ← hr.multicast time]
    by_cases htime : time = p.time
    · subst htime
      rw [if_pos rfl, hmulticast]
    · rw [if_neg htime, TraceLine.multicastAt_of_time (Ne.symm htime), Option.toList_none,
        List.append_nil]
  · simp only [getD_insert]
    rw [lastUpdate_sinceTick_concat (hne time), ← hr.update time id]
    by_cases htime : time = p.time
    · subst htime
      rw [if_pos rfl, hupdate]
    · rw [if_neg htime, TraceLine.updateAt_of_time (Ne.symm htime), Option.none_or]

/-- Every line keeps it. -/
theorem Stored.lineRead {r r' : RoadRunnerBaseLine} {line : StdString} (hr : r.Stored)
    (h : LineRead r line r') : r'.Stored := by
  cases h with
  | tick T => exact hr.tick T
  | skipped m => exact ⟨hr.multicast, hr.update, hr.agents, hr.limit, hr.kept⟩
  | add m T agId limit hlimit => exact hr.add m T agId hlimit
  | update m T agId pos hlimit hline =>
    refine hr.record (p := .update T agId pos) m (fun _ => TraceLine.noConfusion)
      (List.append_nil _).symm (fun id => ?_) fun id hid => ?_
    · simp only [TraceLine.time, TraceLine.updateAt, true_and, Std.TreeMap.getElem?_insert,
        Std.LawfulEqCmp.compare_eq_iff_eq]
      by_cases hid : agId = id
      · rw [if_pos hid, if_pos hid]
        rfl
      · rw [if_neg hid, if_neg hid]
        rfl
    · obtain rfl : agId = id := Option.some.inj hid
      exact hlimit
  | multicast m T record hlimit =>
    refine hr.record (p := .multicast T record) m (fun _ => TraceLine.noConfusion) ?_
      (fun _ => rfl) fun id hid => ?_
    · rw [TraceLine.time, TraceLine.multicastAt, if_pos rfl]
      rfl
    · obtain rfl : record.sendAgId = id := Option.some.inj hid
      exact hlimit

/-! ## The whole file -/

/-- What parsing leaves alone. -/
structure SameSetup (r r' : RoadRunnerBaseLine) : Prop where
  toBroker : r'.toBroker = r.toBroker
  RRNC : r'.RRNC = r.RRNC
  protocol : r'.protocol = r.protocol
  maxNOFAgents : r'.maxNOFAgents = r.maxNOFAgents

theorem SameSetup.lineRead {r₀ r r' : RoadRunnerBaseLine} {line : StdString}
    (hr : SameSetup r₀ r) (h : LineRead r line r') : SameSetup r₀ r' := by
  cases h <;> exact ⟨hr.toBroker, hr.RRNC, hr.protocol, hr.maxNOFAgents⟩

/-- The ids of the update lines are parts of the file. -/
def NamedIn (contents : StdString) (r : RoadRunnerBaseLine) : Prop :=
  ∀ T (agId : StdString) pos, .update T agId pos ∈ r.parsed → agId ⊆ contents

theorem NamedIn.lineRead {contents line : StdString} {r r' : RoadRunnerBaseLine}
    (hr : NamedIn contents r) (hline : line ⊆ contents) (h : LineRead r line r') :
    NamedIn contents r' := by
  intro T id pos hmem
  cases h with
  | tick T' =>
    rcases List.mem_append.mp hmem with hmem | hmem
    · exact hr T id pos hmem
    · cases List.mem_singleton.mp hmem
  | skipped m => exact hr T id pos hmem
  | add m T' agId limit hlimit => exact hr T id pos hmem
  | update m T' agId pos' hlimit hagId =>
    rcases List.mem_append.mp hmem with hmem | hmem
    · exact hr T id pos hmem
    · cases List.mem_singleton.mp hmem
      exact List.Subset.trans hagId hline
  | multicast m T' record hlimit =>
    rcases List.mem_append.mp hmem with hmem | hmem
    · exact hr T id pos hmem
    · cases List.mem_singleton.mp hmem

theorem getlines_subset {contents line : StdString} (h : line ∈ getlines contents) :
    line ⊆ contents := by
  unfold getlines at h
  extract_lets lines at h
  split at h
  · exact subset_of_mem_splitOn (List.mem_of_mem_dropLast h)
  · exact subset_of_mem_splitOn h

theorem stored_create (protocol : StdString) (nof_agents : UInt32) (dc dl : Bool) :
    (create protocol nof_agents dc dl).Stored where
  multicast T := by simp [create, TraceLine.sinceTick, TraceLine.multicasts]
  update T agId := by simp [create, TraceLine.sinceTick, TraceLine.lastUpdate]
  agents agId := by simp [create]
  limit := by simp [create]
  kept := by simp [create]

/-- A file that is parsed is there, and its records are stored. -/
theorem parse_eq_ok {B : LexicalCast} {contents : Option StdString} {r : RoadRunnerBaseLine}
    {protocol : StdString} {nof_agents : UInt32} {dc dl : Bool} {u : Unit}
    (h : parse B contents (create protocol nof_agents dc dl) = .ok u r) :
    r.Stored ∧ SameSetup (create protocol nof_agents dc dl) r ∧
      ∃ text, contents = some text ∧ NamedIn text r := by
  unfold parse at h
  rw [modify_bind_apply] at h
  cases contents with
  | none => cases h
  | some text =>
    have hinv : r.Stored ∧ SameSetup (create protocol nof_agents dc dl) r ∧ NamedIn text r := by
      refine forEach_invariant (I := fun r => r.Stored ∧
        SameSetup (create protocol nof_agents dc dl) r ∧ NamedIn text r) ?_ ?_ h
      · rintro line hline s t v ⟨hstored, hsame, hnamed⟩ hrun
        have hcases := parseLine_cases hrun
        exact ⟨hstored.lineRead hcases, hsame.lineRead hcases,
          hnamed.lineRead (getlines_subset hline) hcases⟩
      · refine ⟨stored_create protocol nof_agents dc dl, ⟨rfl, rfl, rfl, rfl⟩, ?_⟩
        intro T agId pos hmem
        cases hmem
    exact ⟨hinv.1, hinv.2.1, text, rfl, hinv.2.2⟩

end RoadRunnerBaseLine
end Sm4ns3
