import Sm4ns3.Verify.ArenaRuns
import Sm4ns3.Verify.Schedule

/-!
# A trace in the arena

The trace program makes its agents in the order of their ids, and each call of `pause`
replays one tick of the file: its locations, and then its records. For the arena this is
one command each (`replay_in_arena`), so that what a replay does can be read off the trace.
The records are asked for as `makeOpaqueSend` writes them: in the simulator's name,
whatever sender the trace names, and with each string up to its first NUL.
-/

namespace Sm4ns3

open Bytes Cpp Call JsonParser MessageConglomerate

namespace RoadRunnerBaseLine

/-- What a tick asks of the arena. -/
def tickCommands (tick : TimeTick) : List (Arena.Command StdString Vector (Option Json)) :=
  (if tick.update_agent.isEmpty then []
    else [(Request.allLocations (sentLocations tick.update_agent)).asked]) ++
    tick.multicast.map fun record => (Request.opaqueSend (sentMessage record)).asked

section Tick

variable {W : Ns3} {J : Jsoncpp} {w w' : World}

/-- A request that was met is a step of the arena. -/
theorem arena_step (hW : W.Documented) (hJ : J.ReadsBack) (hw : w.Housed) {request : Request}
    (hrun : returned (request.act W J w) = some w') :
    Arena.step W.initialPosition (w.arena J) request.asked = some (w'.arena J) ∧ w'.Housed := by
  have hone := Request.act_matches hW hJ request w (w.arena J) ⟨rfl, hw⟩
  simp only [hrun] at hone
  generalize Arena.step W.initialPosition (w.arena J) request.asked = o at hone
  cases hone with
  | some hrel => exact ⟨congrArg some hrel.1.symm, hrel.2⟩

theorem arena_located (hW : W.Documented) (hJ : J.ReadsBack) (hw : w.Housed)
    {locations : Std.TreeMap StdString DPoint} (hrun : located locations w = some w') :
    Transition.run (Arena.step W.initialPosition) (w.arena J)
        (if locations.isEmpty then []
          else [(Request.allLocations (sentLocations locations)).asked]) = some (w'.arena J) ∧
      w'.Housed := by
  rw [located] at hrun
  split at hrun
  · rename_i hempty
    cases hrun
    rw [if_pos hempty]
    exact ⟨rfl, hw⟩
  · rename_i hne
    have hact : returned ((Request.allLocations (sentLocations locations)).act W J w) =
        some w' := hrun
    obtain ⟨hstep, hw'⟩ := arena_step hW hJ hw hact
    rw [if_neg hne]
    exact ⟨Transition.run_cons_eq_some.mpr ⟨_, hstep, rfl⟩, hw'⟩

theorem arena_multicasted (hW : W.Documented) (hJ : J.ReadsBack) (hw : w.Housed)
    {records : List TickMulticast}
    (hrun : Transition.run (multicasted W J) w records = some w') :
    Transition.run (Arena.step W.initialPosition) (w.arena J)
        (records.map fun record => (Request.opaqueSend (sentMessage record)).asked) =
      some (w'.arena J) ∧ w'.Housed := by
  induction records generalizing w with
  | nil =>
    cases hrun
    exact ⟨rfl, hw⟩
  | cons record records ih =>
    obtain ⟨w₁, hstep, hrest⟩ := Transition.run_cons_eq_some.mp hrun
    rw [multicasted, Option.ite_none_left_eq_some] at hstep
    obtain ⟨harena, hw₁⟩ := arena_step hW hJ hw hstep.2
    obtain ⟨hrun', hw'⟩ := ih hw₁ hrest
    exact ⟨Transition.run_cons_eq_some.mpr ⟨_, harena, hrun'⟩, hw'⟩

/-- A tick that was handled is its commands. -/
theorem arena_tick (hW : W.Documented) (hJ : J.ReadsBack) (hw : w.Housed) {tick : TimeTick}
    {queued : List Received} (h : List.Forall₂ Received.Names queued (tickMessages J tick))
    (hrun : Transition.run (handled W J) w queued = some w') :
    Transition.run (Arena.step W.initialPosition) (w.arena J) (tickCommands tick) =
      some (w'.arena J) ∧ w'.Housed := by
  rw [run_handled_tick h, Option.bind_eq_some_iff] at hrun
  obtain ⟨w₁, hlocated, hrecords⟩ := hrun
  obtain ⟨hfirst, hw₁⟩ := arena_located hW hJ hw hlocated
  obtain ⟨hrest, hw'⟩ := arena_multicasted hW hJ hw₁ hrecords
  exact ⟨Transition.run_trans hfirst hrest, hw'⟩

end Tick

/-! ## The agents of the trace -/

section Start

variable {W : Ns3} {J : Jsoncpp} {w w' : World}

theorem createAgentOn_nodes {node address : Nat} {agId : StdString} {u : Unit}
    (h : createAgentOn node agId address w = .ok u w') : w'.nodes = w.nodes := by
  cases h
  rfl

theorem createAgents_nodes {nodes iic : List Nat} {ids : List StdString} {u : Unit}
    (h : createAgents nodes ids iic w = .ok u w') : w'.nodes = w.nodes := by
  induction nodes generalizing ids iic w with
  | nil =>
    cases h
    rfl
  | cons node nodes ih =>
    cases ids with
    | nil => cases h
    | cons agId ids =>
      cases iic with
      | nil => cases h
      | cons address iic =>
        obtain ⟨_, w₁, hhead, hrest⟩ := bind_eq_ok h
        exact (ih hrest).trans (createAgentOn_nodes hhead)

theorem mem_zip_range {ids : List StdString} {n node : Nat} {agId : StdString} :
    (node, agId) ∈ (List.range n).zip ids ↔ node < n ∧ ids[node]? = some agId := by
  rw [List.mem_iff_getElem?]
  constructor
  · intro h
    obtain ⟨i, hi⟩ := h
    obtain ⟨hnode, hid⟩ := List.getElem?_zip_eq_some.mp hi
    obtain ⟨hlt, rfl⟩ : i < n ∧ i = node := by
      simpa [List.getElem?_eq_some_iff] using hnode
    exact ⟨hlt, hid⟩
  · intro h
    exact ⟨node, List.getElem?_zip_eq_some.mpr ⟨List.getElem?_range h.1, h.2⟩⟩

/-- The agents that were made for the first nodes entered the arena one after the other. -/
theorem arena_of_made {n : Nat} {ids : List StdString} (hnodup : ids.Nodup)
    (hlength : ids.length = n) (hempty : w.AllAgents = {}) (hnone : w.sent = [])
    (hmobility : ∀ node < n, w.mobility[node]? = some (W.initialPosition node))
    (hnodes : w'.nodes = n) (h : AgentsMade w (List.range n) ids w') :
    w'.Housed ∧ w'.arena J =
      ids.foldl (Arena.enter W.initialPosition) { slot := fun _ => .absent } := by
  have hentry : ∀ (agId : StdString) x, w'.AllAgents[agId]? = some x →
      ∃ node a, node < n ∧ ids[node]? = some agId ∧ x = some a ∧ Made node agId a := by
    intro agId x hx
    rcases h.entry agId x hx with hold | ⟨node, a, hmem, rfl, hmade⟩
    · rw [hempty] at hold
      simp at hold
    · obtain ⟨hlt, hid⟩ := mem_zip_range.mp hmem
      exact ⟨node, a, hlt, hid, rfl, hmade⟩
  have hmanned : w'.Manned := by
    refine manned_of_made hempty List.nodup_range (fun node hnode => ?_) h
    rw [Std.TreeMap.mem_iff_isSome_getElem?, hmobility node (List.mem_range.mp hnode)]
    rfl
  have hhoused : w'.Housed := by
    refine ⟨hmanned, fun agId a node ha hnode => ?_⟩
    obtain ⟨node', a', hlt, -, heq, hmade⟩ := hentry agId _ (World.agent_eq_some.mp ha)
    cases heq
    rw [hmade.node] at hnode
    cases hnode
    rw [hnodes]
    exact hlt
  have hslot : ∀ agId, w'.slot agId =
      (ids.foldl (Arena.enter W.initialPosition)
        ({ slot := fun _ => .absent } : Arena StdString Vector (Option Json))).slot agId := by
    intro agId
    cases hx : w'.AllAgents[agId]? with
    | none =>
      have hnot : agId ∉ ids := by
        intro hmem
        have hentered := h.entered agId (by
          rwa [List.length_range, ← hlength, List.take_length])
        rw [Std.TreeMap.mem_iff_isSome_getElem?, hx] at hentered
        cases hentered
      rw [World.slot_absent hx, Arena.enters_other hnot]
    | some x =>
      obtain ⟨node, a, hlt, hid, rfl, hmade⟩ := hentry agId x hx
      rw [Arena.enters_slot hnodup (fun _ _ => rfl) hid, Nat.zero_add]
      refine World.slot_present hx ?_
      rw [World.position_of_node hx hmade.node, h.mobility, hmobility node hlt]
  refine ⟨hhoused, Arena.ext (funext hslot) ?_ ?_⟩
  · rw [Arena.enters_made, hlength, Nat.zero_add]
    exact hnodes
  · rw [Arena.enters_sent, World.arena, h.sent, hnone]
    rfl

/-- After `start` the ids of the trace have entered in ascending order. -/
theorem arena_of_start {B : LexicalCast} {contents : Option StdString} {protocol : StdString}
    {nof_agents : UInt32} {dc dl b : Bool} {r₀ : RoadRunnerBaseLine}
    (hstart : start B W contents (create protocol nof_agents dc dl) = .ok b r₀) :
    r₀.world.Housed ∧ r₀.world.arena J =
      r₀.agentsList.toList.foldl (Arena.enter W.initialPosition) { slot := fun _ => .absent } := by
  obtain ⟨_, r₁, hparse, h⟩ := bind_eq_ok hstart
  obtain ⟨_, r₂, hnodes, h⟩ := bind_eq_ok h
  cases h
  obtain ⟨hstored, hsame, -⟩ := parse_eq_ok hparse
  obtain ⟨-, w', hcreate, rfl⟩ := createNodes_iff.mp hnodes
  have hworld : r₁.world = {} := by
    rw [hsame.toBroker]
    rfl
  have hlist : r₁.nodesOf = List.range r₁.maxNOFAgents.toNat := by
    rw [nodesOf, hsame.RRNC, hworld]
    simp [create]
  have hmade := createAgents_eq_ok hcreate
  rw [hlist] at hmade
  have hlength : r₁.agentsList.toList.length = r₁.maxNOFAgents.toNat :=
    Nat.le_antisymm hstored.length_agentsList (by simpa using hmade.length)
  refine arena_of_made (nodup_toList _) hlength ?_ ?_ (fun node hnode => ?_) ?_ hmade
  · rw [worldOf, hworld]
  · rw [worldOf, hworld]
  · rw [worldOf, hlist, Registration.insertAll_getElem?, if_pos (List.mem_range.mpr hnode)]
  · rw [createAgents_nodes hcreate, worldOf, hworld]
    exact Nat.zero_add _

end Start

/-! ## All ticks -/

section Ticks

variable {W : Ns3} {J : Jsoncpp} {r₀ r r' : RoadRunnerBaseLine} {T : UInt32}

/-- One call of `pause`. -/
theorem arena_pause (hW : W.Documented) (hJ : J.ReadsBack) (hr : r.Replaying)
    (hhoused : r.world.Housed)
    (hdecodes : ∀ (T : UInt32) tick, r.trace_time_ticks[T]? = some tick → Decodes J tick)
    {u : Unit} (h : pause W J r = .ok u r') :
    ∃ T tick, r.currTick = some T ∧ r.trace_time_ticks[T]? = some tick ∧
      Transition.run (Arena.step W.initialPosition) (r.world.arena J) (tickCommands tick) =
        some (r'.world.arena J) ∧ r'.world.Housed := by
  obtain ⟨T, r₁, id, b, hcurr, -, hpush, -, -, hprocess, rfl⟩ := pause_eq_ok h
  obtain ⟨tick, htick, -, hworld, hnames⟩ := names_of_pushToQueue hr hdecodes hcurr hpush
  have hrun := (processQueue_run _).mp ⟨b, hprocess, rfl⟩
  rw [hworld] at hrun
  obtain ⟨-, hbroker, -⟩ := ended_same { r₁.advanced T with toBroker := b }
  obtain ⟨harena, hhoused'⟩ := arena_tick hW hJ hhoused hnames hrun
  refine ⟨T, tick, hcurr, htick, ?_⟩
  rw [hbroker]
  exact ⟨harena, hhoused'⟩

/-- The entry of the tick that stands at this number. -/
theorem toList_of_keys {k : Nat} {tick : TimeTick}
    (hT : r.trace_time_ticks.keys[k]? = some T) (htick : r.trace_time_ticks[T]? = some tick) :
    r.trace_time_ticks.toList[k]? = some (T, tick) := by
  rw [← Std.TreeMap.map_fst_toList_eq_keys, List.getElem?_map, Option.map_eq_some_iff] at hT
  obtain ⟨entry, hentry, rfl⟩ := hT
  have hvalue := Std.TreeMap.mem_toList_iff_getElem?_eq_some.mp (List.mem_of_getElem? hentry)
  rw [htick] at hvalue
  rw [hentry, Option.some.inj hvalue]

/-- After any number of ticks. -/
theorem arena_replayed (hW : W.Documented) (hJ : J.ReadsBack) (hr : r₀.Replaying)
    (hhoused : r₀.world.Housed) (hstarted : r₀.Started)
    (hdecodes : ∀ (T : UInt32) tick, r₀.trace_time_ticks[T]? = some tick → Decodes J tick)
    {steps : List Unit} (hrun : Transition.run (simulate W J) r₀ steps = some r) :
    Transition.run (Arena.step W.initialPosition) (r₀.world.arena J)
        ((r₀.trace_time_ticks.toList.take steps.length).flatMap fun it => tickCommands it.2) =
      some (r.world.arena J) ∧ r.world.Housed := by
  induction steps using List.reverseRecOn generalizing r with
  | nil =>
    cases hrun
    exact ⟨rfl, hhoused⟩
  | append_singleton steps step ih =>
    obtain ⟨s, hbefore, hstep⟩ := Transition.run_concat_eq_some.mp hrun
    obtain ⟨time, -, -, hpause⟩ := simulate_eq_some hstep
    obtain ⟨hs, hsame, -⟩ := replaying_of_run hJ hr hdecodes hbefore
    obtain ⟨harena, hhoused'⟩ := ih hbefore
    have hs' : Replaying { s with now := time, events := s.events.erase time } :=
      ⟨⟨hs.stored.multicast, hs.stored.update, hs.stored.agents, hs.stored.limit,
        hs.stored.kept⟩, hs.queue, hs.manned, hs.staffed, hs.current⟩
    obtain ⟨T, tick, hcurr, htick, hone, hhoused''⟩ :=
      arena_pause hW hJ hs' hhoused' (fun T tick htick => hdecodes T tick (by
        rw [← hsame.trace_time_ticks]
        exact htick)) hpause
    refine ⟨?_, hhoused''⟩
    have hcurr : s.currTick = some T := hcurr
    have htick : s.trace_time_ticks[T]? = some tick := htick
    rw [hsame.trace_time_ticks] at htick
    -- the tick stands in the trace at the number of the call
    obtain ⟨t0, h0⟩ : ∃ t0, r₀.trace_time_ticks.keys.head? = some t0 := by
      cases hkeys : r₀.trace_time_ticks.keys with
      | nil =>
        have hmem := Std.TreeMap.mem_keys.mpr (hs.current T hcurr)
        rw [hsame.trace_time_ticks, hkeys] at hmem
        cases hmem
      | cons t0 _ => exact ⟨t0, rfl⟩
    have hkey := (replayed_of_run hstarted h0 hbefore).currTick
    rw [hcurr] at hkey
    rw [List.length_append, List.length_singleton, List.take_add_one,
      toList_of_keys hkey.symm htick, Option.toList_some, List.flatMap_append,
      List.flatMap_singleton]
    exact Transition.run_trans harena hone

/-- What a replay has done to the agents after any number of calls of `pause` is what the trace
says: the ids of the file enter, in ascending order, and for each tick in turn its locations
move them and its records are sent, by the agent `987654321` (`tickCommands`). -/
theorem replay_in_arena (hW : W.Documented) (hJ : J.ReadsBack) {B : LexicalCast}
    {contents : Option StdString} {protocol : StdString} {nof_agents : UInt32} {dc dl b : Bool}
    (hstart : start B W contents (create protocol nof_agents dc dl) = .ok b r₀)
    (hticks : TicksFit J r₀) {steps : List Unit}
    (hrun : Transition.run (simulate W J) r₀ steps = some r) :
    Transition.run (Arena.step W.initialPosition)
        (r₀.agentsList.toList.foldl (Arena.enter W.initialPosition) { slot := fun _ => .absent })
        ((r₀.trace_time_ticks.toList.take steps.length).flatMap fun it => tickCommands it.2) =
      some (r.world.arena J) := by
  have hdecodes : ∀ (T : UInt32) tick, r₀.trace_time_ticks[T]? = some tick → Decodes J tick := by
    intro T tick htick
    obtain ⟨hfits, hcoords⟩ := hticks T tick htick
    exact decodes_of_fits (tickMessages_wellFormed hJ hcoords) fun _ _ _ => hfits
  obtain ⟨hhoused, hentered⟩ := arena_of_start (J := J) hstart
  rw [← hentered]
  exact (arena_replayed hW hJ (replaying_of_start hstart).1 hhoused (started_of_start hstart)
    hdecodes hrun).1

theorem replay_in_arena_chat :
    ∃ r, Transition.run (simulate Ns3.reference Jsoncpp.reference) (startedOn chatTrace 2) [()] =
        some r ∧
      Transition.run (Arena.step Ns3.reference.initialPosition)
          ((startedOn chatTrace 2).agentsList.toList.foldl
            (Arena.enter Ns3.reference.initialPosition) { slot := fun _ => .absent })
          (((startedOn chatTrace 2).trace_time_ticks.toList.take [()].length).flatMap
            fun it => tickCommands it.2) =
        some (r.world.arena Jsoncpp.reference) := by
  have hstart : value (start LexicalCast.reference Ns3.reference (some (linesOf chatTrace))
      (create (str "80211b") 2 false false)) = some true := by decide +kernel
  obtain ⟨r, hrun⟩ := Option.isSome_iff_exists.mp
    (by decide +kernel : (Transition.run (simulate Ns3.reference Jsoncpp.reference)
      (startedOn chatTrace 2) [()]).isSome = true)
  have hfit : TicksFit Jsoncpp.reference (startedOn chatTrace 2) :=
    forall_ticks (by decide +kernel)
  have hstarted : start LexicalCast.reference Ns3.reference (some (linesOf chatTrace))
      (create (str "80211b") 2 false false) = .ok true (startedOn chatTrace 2) :=
    eq_ok_of_value hstart
  exact ⟨r, hrun, replay_in_arena Ns3.reference_documented Jsoncpp.reference_readsBack
    hstarted hfit hrun⟩

end Ticks

end RoadRunnerBaseLine
end Sm4ns3
