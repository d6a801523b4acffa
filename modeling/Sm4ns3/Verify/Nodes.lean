import Sm4ns3.Verify.Trace
import Sm4ns3.Verify.Usable

/-!
# The nodes of the trace program

`createNodes` makes one node and one agent for each id within the limit. Each agent has
a node of its own, so moving one leaves the others where they are (`Manned`).
-/

namespace Sm4ns3

open Bytes Cpp Call

namespace World

/-- The agent registered under an id. -/
def agent (w : World) (agId : StdString) : Option Agent := w.AllAgents[agId]?.getD none

theorem agent_eq_some {w : World} {agId : StdString} {a : Agent} :
    w.agent agId = some a ↔ w.AllAgents[agId]? = some (some a) := by
  rw [agent]
  cases w.AllAgents[agId]? with
  | none => simp
  | some x => simp

/-- Where the node of the agent registered under an id is. -/
def position (w : World) (agId : StdString) : Option Vector :=
  (w.agent agId).bind fun a => a.m_node.bind fun node => w.mobility[node]?

/-- Every agent is usable, is registered under its own id, and has a node of its own. -/
structure Manned (w : World) : Prop where
  usable : w.Usable
  named : ∀ agId a, w.agent agId = some a → a.m_AgentId = agId
  apart : ∀ agId agId' a a', w.agent agId = some a → w.agent agId' = some a' →
    a.m_node = a'.m_node → agId = agId'

/-- The same agents are registered, and no mobility model was taken away. -/
structure Follows (w w' : World) : Prop where
  agent : ∀ agId, w'.agent agId = w.agent agId
  mobility : ∀ node ∈ w.mobility, node ∈ w'.mobility

theorem Follows.refl (w : World) : w.Follows w := ⟨fun _ => rfl, fun _ h => h⟩

theorem Follows.trans {w w₁ w₂ : World} (h : w.Follows w₁) (h' : w₁.Follows w₂) : w.Follows w₂ :=
  ⟨fun agId => (h'.agent agId).trans (h.agent agId),
    fun node hnode => h'.mobility node (h.mobility node hnode)⟩

theorem Frame.follows {w w' : World} (h : w.Frame w') : w.Follows w' :=
  ⟨fun agId => by rw [agent, agent, h.agents], h.mobility⟩

theorem Manned.follows {w w' : World} (hw : w.Manned) (h : w.Follows w') : w'.Manned where
  usable agId a ha := by
    rw [← agent_eq_some, h.agent, agent_eq_some] at ha
    exact (hw.usable agId a ha).mono h.mobility
  named agId a ha := hw.named agId a ((h.agent agId).symm.trans ha)
  apart agId agId' a a' ha ha' := hw.apart agId agId' a a' ((h.agent agId).symm.trans ha)
    ((h.agent agId').symm.trans ha')

theorem touch_follows (w : World) (agId : StdString) : w.Follows (Agent.touch w agId) := by
  refine ⟨fun id => ?_, fun node hnode => by rwa [Agent.touch_mobility]⟩
  rw [agent, agent, Agent.touch_getElem?]
  split
  · rfl
  · rfl

end World

namespace RoadRunnerBaseLine

/-! ## Making the agents -/

/-- An agent of `createNodes`, on one of the nodes. -/
structure Made (node : Nat) (agId : StdString) (a : Agent) : Prop where
  id : a.m_AgentId = agId
  node : a.m_node = some node
  socket : a.m_socket.isSome = true
  address : a.iic ≠ []

/-- What the loop of `createNodes` does. -/
structure AgentsMade (w : World) (nodes : List Nat) (ids : List StdString) (w' : World) :
    Prop where
  entry : ∀ (agId : StdString) x, w'.AllAgents[agId]? = some x → w.AllAgents[agId]? = some x ∨
    ∃ node a, (node, agId) ∈ nodes.zip ids ∧ x = some a ∧ Made node agId a
  kept : ∀ agId ∈ w.AllAgents, agId ∈ w'.AllAgents
  entered : ∀ agId ∈ ids.take nodes.length, agId ∈ w'.AllAgents
  length : nodes.length ≤ ids.length
  mobility : w'.mobility = w.mobility
  sent : w'.sent = w.sent

theorem createAgentOn_ok (node : Nat) (agId : StdString) (address : Nat) (w : World) :
    ∃ a w', createAgentOn node agId address w = .ok () w' ∧ Made node agId a ∧
      a.iic = [address] ∧ w'.AllAgents = w.AllAgents.insertIfNew agId (some a) ∧
      w'.mobility = w.mobility ∧ w'.sent = w.sent := by
  refine ⟨{ self := w.agents, m_AgentId := agId, m_node := some node, iic := [address]
            m_socket := some w.sockets, m_isa := some address }, _, rfl, ?_, rfl, rfl, rfl, rfl⟩
  exact ⟨rfl, rfl, rfl, List.cons_ne_nil _ _⟩

theorem createAgents_eq_ok {nodes iic : List Nat} {ids : List StdString} {w w' : World} {u : Unit}
    (h : createAgents nodes ids iic w = .ok u w') : AgentsMade w nodes ids w' := by
  induction nodes generalizing ids iic w with
  | nil =>
    cases h
    exact
      { entry := fun _ _ hx => .inl hx
        kept := fun _ hmem => hmem
        entered := by simp
        length := Nat.zero_le _
        mobility := rfl
        sent := rfl }
  | cons node nodes ih =>
    cases ids with
    | nil => cases h
    | cons agId ids =>
      cases iic with
      | nil => cases h
      | cons address iic =>
        obtain ⟨_, w₁, hhead, hrest⟩ := bind_eq_ok h
        obtain ⟨a, w₁', hhead', hmade, -, hagents, hmobility, hsent⟩ :=
          createAgentOn_ok node agId address w
        rw [hhead] at hhead'
        cases hhead'
        have hdone := ih hrest
        have hkept : ∀ id ∈ w.AllAgents, id ∈ w₁.AllAgents := by
          intro id hmem
          rw [hagents, Std.TreeMap.mem_insertIfNew]
          exact .inr hmem
        refine ⟨fun id x hx => ?_, fun id hmem => hdone.kept id (hkept id hmem), ?_,
          Nat.succ_le_succ hdone.length, hdone.mobility.trans hmobility,
          hdone.sent.trans hsent⟩
        · rcases hdone.entry id x hx with hslot | ⟨node', a', hmem, hslot, hmade'⟩
          · rw [hagents, Std.TreeMap.getElem?_insertIfNew] at hslot
            split at hslot
            · rename_i hid
              obtain rfl := Std.LawfulEqCmp.compare_eq_iff_eq.mp hid.1
              exact .inr ⟨node, a, List.mem_cons_self, (Option.some.inj hslot).symm, hmade⟩
            · exact .inl hslot
          · exact .inr ⟨node', a', List.mem_cons_of_mem _ hmem, hslot, hmade'⟩
        · rw [List.length_cons, List.take_succ_cons]
          refine List.forall_mem_cons.mpr ⟨hdone.kept agId ?_, hdone.entered⟩
          rw [hagents, Std.TreeMap.mem_insertIfNew]
          exact .inl Std.ReflCmp.compare_self

/-- An element of a list without duplicates is paired once. -/
theorem eq_of_mem_zip {α β : Type} {xs : List α} {ys : List β} {x : α} {y y' : β}
    (hnodup : xs.Nodup) (h : (x, y) ∈ xs.zip ys) (h' : (x, y') ∈ xs.zip ys) : y = y' := by
  induction xs generalizing ys with
  | nil => simp at h
  | cons a xs ih =>
    cases ys with
    | nil => simp at h
    | cons b ys =>
      obtain ⟨hnot, hnodup'⟩ := List.nodup_cons.mp hnodup
      rw [List.zip_cons_cons] at h h'
      rcases List.mem_cons.mp h with hfirst | hlater
      · rcases List.mem_cons.mp h' with hfirst' | hlater'
        · cases hfirst
          cases hfirst'
          rfl
        · cases hfirst
          exact absurd (List.of_mem_zip hlater').1 hnot
      · rcases List.mem_cons.mp h' with hfirst' | hlater'
        · cases hfirst'
          exact absurd (List.of_mem_zip hlater).1 hnot
        · exact ih hnodup' hlater hlater'

/-! ## Starting -/

section Start

variable {B : LexicalCast} {W : Ns3} {r r' : RoadRunnerBaseLine}

/-- The state of the trace program between two ticks. -/
structure Replaying (r : RoadRunnerBaseLine) : Prop where
  stored : r.Stored
  queue : r.m_incoming.messageList = []
  manned : r.world.Manned
  staffed : ∀ agId ∈ r.agent_limit, ∃ a, r.world.agent agId = some a
  current : ∀ T, r.currTick = some T → T ∈ r.trace_time_ticks

/-- The nodes of `RRNC` once more were created. -/
def nodesOf (r : RoadRunnerBaseLine) : List Nat :=
  r.RRNC ++ (List.range r.maxNOFAgents.toNat).map (r.world.nodes + ·)

/-- The interfaces of these nodes. -/
def addressesOf (W : Ns3) (r : RoadRunnerBaseLine) : List Nat := W.Assign (W.Install r.nodesOf)

/-- The world once these nodes have mobility models. -/
def worldOf (W : Ns3) (r : RoadRunnerBaseLine) : World :=
  { r.world with
    nodes := r.world.nodes + r.maxNOFAgents.toNat
    mobility := r.nodesOf.foldl (fun m node => m.insert node (W.initialPosition node))
      r.world.mobility }

/-- For a protocol that is known `createNodes` is the loop. -/
theorem createNodes_iff {u : Unit} : createNodes W r = .ok u r' ↔
    (r.protocol = str "80211b" ∨ r.protocol = str "80211p") ∧
      ∃ w', createAgents r.nodesOf r.agentsList.toList (r.addressesOf W) (r.worldOf W) =
        .ok () w' ∧ r' = { r with RRNC := r.nodesOf, world := w' } := by
  unfold createNodes createRRNC
  rw [get_bind_apply, bind_assoc, get_bind_apply, set_bind_apply]
  dsimp only
  rw [raiseIf_bind_eq_ok, get_bind_apply]
  apply and_congr
  · rw [Bool.and_eq_false_iff, decide_eq_false_iff_not, decide_eq_false_iff_not, not_not, not_not]
  · constructor
    · intro h
      obtain ⟨b, hbroker, rfl⟩ := zoom_eq_ok h
      obtain ⟨w', hworld, rfl⟩ := zoom_eq_ok hbroker
      exact ⟨w', hworld, rfl⟩
    · rintro ⟨w', hworld, rfl⟩
      exact zoom_ok (zoom_ok hworld)

theorem createNodes_eq_ok {u : Unit} (h : createNodes W r = .ok u r') :
    ∃ w', (∀ node ∈ r.nodesOf, node ∈ (r.worldOf W).mobility) ∧
      AgentsMade (r.worldOf W) r.nodesOf r.agentsList.toList w' ∧
      r' = { r with RRNC := r.nodesOf, world := w' } := by
  obtain ⟨-, w', hrun, rfl⟩ := createNodes_iff.mp h
  refine ⟨w', fun node hnode => ?_, createAgents_eq_ok hrun, rfl⟩
  exact (Agent.mem_installMobility _ _).mpr (.inl hnode)

theorem nodup_nodes (first n : Nat) : ((List.range n).map (first + ·)).Nodup :=
  List.nodup_range.map fun _ _ h => Nat.add_left_cancel h

/-- All agents made, each on a node of its own. -/
theorem manned_of_made {w w' : World} {nodes : List Nat} {ids : List StdString}
    (hempty : w.AllAgents = {}) (hnodup : nodes.Nodup) (hnodes : ∀ node ∈ nodes, node ∈ w.mobility)
    (h : AgentsMade w nodes ids w') : w'.Manned := by
  have hentry : ∀ agId a, w'.agent agId = some a → ∃ node, (node, agId) ∈ nodes.zip ids ∧
      Made node agId a := by
    intro agId a ha
    rw [World.agent_eq_some] at ha
    rcases h.entry agId _ ha with hold | ⟨node, a', hmem, heq, hmade⟩
    · rw [hempty] at hold
      simp at hold
    · cases heq
      exact ⟨node, hmem, hmade⟩
  refine ⟨fun agId a ha => ?_, fun agId a ha => ?_, fun agId agId' a a' ha ha' hsame => ?_⟩
  · obtain ⟨node, hmem, hmade⟩ := hentry agId a (World.agent_eq_some.mpr ha)
    refine ⟨⟨node, hmade.node, ?_⟩, hmade.socket, hmade.address⟩
    rw [h.mobility]
    exact hnodes node (List.of_mem_zip hmem).1
  · obtain ⟨node, -, hmade⟩ := hentry agId a ha
    exact hmade.id
  · obtain ⟨node, hmem, hmade⟩ := hentry agId a ha
    obtain ⟨node', hmem', hmade'⟩ := hentry agId' a' ha'
    rw [hmade.node, hmade'.node] at hsame
    cases hsame
    exact eq_of_mem_zip hnodup hmem hmem'

/-- There are enough nodes for all agents within the limit. -/
theorem Stored.length_agentsList (h : r.Stored) :
    r.agentsList.toList.length ≤ r.maxNOFAgents.toNat := by
  have hperm : r.agentsList.toList.Perm r.agent_limit.toList := by
    rw [List.perm_ext_iff_of_nodup (nodup_toList _) (nodup_toList _)]
    intro agId
    rw [Std.TreeSet.mem_toList, Std.TreeSet.mem_toList]
    exact h.agents agId
  rw [hperm.length_eq, Std.TreeSet.length_toList]
  exact h.limit

/-- Parsing made no agent, and as many nodes as the limit are created. -/
theorem SameSetup.nodesOf {protocol : StdString} {nof_agents : UInt32} {dc dl : Bool}
    (h : SameSetup (create protocol nof_agents dc dl) r) :
    (r.worldOf W).AllAgents = {} ∧ r.nodesOf.Nodup ∧
      r.nodesOf.length = r.maxNOFAgents.toNat := by
  have hnodes : r.nodesOf = (List.range r.maxNOFAgents.toNat).map (r.world.nodes + ·) := by
    rw [RoadRunnerBaseLine.nodesOf, h.RRNC]
    rfl
  refine ⟨?_, ?_, ?_⟩
  · rw [worldOf, h.toBroker]
    rfl
  · rw [hnodes]
    exact nodup_nodes _ _
  · rw [hnodes, List.length_map, List.length_range]

/-- After `start` every agent within the limit is registered and usable. -/
theorem replaying_of_start {protocol : StdString} {nof_agents : UInt32} {dc dl b : Bool}
    {contents : Option StdString}
    (h : start B W contents (create protocol nof_agents dc dl) = .ok b r) :
    r.Replaying ∧ ∃ text, contents = some text ∧ NamedIn text r := by
  obtain ⟨_, r₁, hparse, h⟩ := bind_eq_ok h
  obtain ⟨_, r₂, hnodes, h⟩ := bind_eq_ok h
  cases h
  obtain ⟨hstored, hsame, text, htext, hnamed⟩ := parse_eq_ok hparse
  obtain ⟨w', hmobility, hmade, rfl⟩ := createNodes_eq_ok hnodes
  obtain ⟨hempty, hnodup, hlength⟩ := hsame.nodesOf (W := W)
  have hmanned := manned_of_made hempty hnodup hmobility hmade
  refine ⟨⟨⟨hstored.multicast, hstored.update, hstored.agents, hstored.limit, hstored.kept⟩,
    ?_, hmanned, fun agId hagId => ?_, fun T hT => ?_⟩, text, htext, hnamed⟩
  · have hqueue : r₁.m_incoming.messageList = [] := by
      rw [hsame.toBroker]
      rfl
    exact hqueue
  · have hmem : agId ∈ r₁.agentsList.toList.take r₁.nodesOf.length := by
      rw [hlength, List.take_of_length_le hstored.length_agentsList, Std.TreeSet.mem_toList]
      exact (hstored.agents agId).mpr hagId
    obtain ⟨x, hx⟩ := Option.isSome_iff_exists.mp
      (Std.TreeMap.mem_iff_isSome_getElem?.mp (hmade.entered agId hmem))
    rcases hmade.entry agId x hx with hold | ⟨node, a, -, rfl, -⟩
    · rw [hempty] at hold
      simp at hold
    · exact ⟨a, World.agent_eq_some.mpr hx⟩
  · exact Std.TreeMap.mem_keys.mp (List.mem_of_head? hT)

end Start

end RoadRunnerBaseLine
end Sm4ns3
