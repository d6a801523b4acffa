import Sm4ns3.Lib.Arena
import Sm4ns3.Lib.Simulation
import Sm4ns3.Verify.Dispatch
import Sm4ns3.Verify.Nodes
import Sm4ns3.Verify.Provenance

/-!
# The agents in their arena

What the handlers do to the agents, without nodes, sockets and addresses: the agents
are an arena (`Sm4ns3.Lib.Arena`), a null agent is a blocked name, and a message is a
command. `World.arena` forgets the rest. It commutes with every message, well-formed
or not, that is handled or not (`arena_commutes`), as long as each agent is housed.
-/

namespace Sm4ns3

open Bytes Cpp Call

/-! ## The abstraction -/

/-- What stands at an id. -/
def World.slot (w : World) (agId : StdString) : Arena.Slot Vector :=
  match w.AllAgents[agId]? with
  | none => .absent
  | some _ =>
    match w.position agId with
    | none => .blocked
    | some place => .present place

/-- The arena of the agents; a packet is what it parses to. -/
def World.arena (J : Jsoncpp) (w : World) : Arena StdString Vector (Option Json) where
  slot := w.slot
  made := w.nodes
  sent := w.sent.map fun s => (s.sender, s.recipient, J.parse s.packet)

/-- The agents are manned, and their nodes were made. -/
structure World.Housed (w : World) : Prop where
  manned : w.Manned
  below : ∀ agId a node, w.agent agId = some a → a.m_node = some node → node < w.nodes

/-- The arena stands for the agents. -/
def Represents (J : Jsoncpp) (w : World) (f : Arena StdString Vector (Option Json)) : Prop :=
  w.arena J = f ∧ w.Housed

/-- The target of an entry of `all_locations`. -/
def target (loc : StdString × DPoint) : StdString × Vector :=
  (loc.1, { x := loc.2.x, y := loc.2.y, z := ⟨0⟩ })

/-- What a routed message parses to. -/
def OpaqueSendMessage.text (osMsg : OpaqueSendMessage) (toId : StdString) : Option Json :=
  some (OpaqueSendHandler.opaqueReceive (cString osMsg.fromId) (cString osMsg.data) (cString toId))

/-- What a request asks of the arena. -/
def Request.asked : Request → Arena.Command StdString Vector (Option Json)
  | .newAgents aInfo => .update aInfo.addAgentIds aInfo.remAgentIds
  | .allLocations aInfo => .move (aInfo.agentLocations.toList.map target)
  | .opaqueSend osMsg => .send osMsg.fromId osMsg.toIds osMsg.text

/-- What a message asks for: nothing unless its type has a handler, which can parse it. -/
def Received.request (J : Jsoncpp) (m : Received) : Handler → Option Request
  | .AgentsInfoHandler =>
    (JsonParser.parseNewAgents J m.messages m.msgNumber).toOption.map .newAgents
  | .AllLocationHandler =>
    (JsonParser.parseAllLocations J m.messages m.msgNumber).toOption.map .allLocations
  | .OpaqueSendHandler =>
    (JsonParser.parseOpaqueSend J m.messages m.msgNumber).toOption.map .opaqueSend
  | _ => none

/-- The command of a message; a tick commands nothing to be moved. -/
def Received.asked (J : Jsoncpp) (m : Received) :
    Option (Arena.Command StdString Vector (Option Json)) :=
  m.handler.bind fun handler =>
    if handler = .NullHandler then some (.move []) else (m.request J handler).map Request.asked

/-! ## Slots -/

namespace World

variable {w w' : World} {agId : StdString}

theorem slot_absent (h : w.AllAgents[agId]? = none) : w.slot agId = .absent := by
  rw [slot, h]

theorem slot_blocked (h : w.Null agId) : w.slot agId = .blocked := by
  have hposition : w.position agId = none := by
    rw [position, agent, h]
    rfl
  rw [slot, h, hposition]

theorem slot_present {a : Agent} {place : Vector} (h : w.AllAgents[agId]? = some (some a))
    (hplace : w.position agId = some place) : w.slot agId = .present place := by
  rw [slot, h, hplace]

theorem position_of_node {a : Agent} {node : Nat} (h : w.AllAgents[agId]? = some (some a))
    (hnode : a.m_node = some node) : w.position agId = w.mobility[node]? := by
  rw [position, agent_eq_some.mpr h, Option.bind_some, hnode, Option.bind_some]

/-- An agent that is housed is somewhere. -/
theorem Housed.slot (hw : w.Housed) {a : Agent} (h : w.AllAgents[agId]? = some (some a)) :
    ∃ node place, a.m_node = some node ∧ w.mobility[node]? = some place ∧
      w.slot agId = .present place := by
  obtain ⟨node, hnode, hmem⟩ := (hw.manned.usable agId a h).movable
  obtain ⟨place, hplace⟩ := Option.isSome_iff_exists.mp
    (Std.TreeMap.mem_iff_isSome_getElem?.mp hmem)
  exact ⟨node, place, hnode, hplace,
    slot_present h ((position_of_node h hnode).trans hplace)⟩

/-- A slot stays as it is where neither the entry nor the node of the agent changes. -/
theorem slot_congr (hentry : w'.AllAgents[agId]? = w.AllAgents[agId]?)
    (hnode : ∀ a node, w.AllAgents[agId]? = some (some a) → a.m_node = some node →
      w'.mobility[node]? = w.mobility[node]?) : w'.slot agId = w.slot agId := by
  have hposition : w'.position agId = w.position agId := by
    rw [position, position, agent, agent, hentry]
    cases hslot : w.AllAgents[agId]? with
    | none => rfl
    | some x =>
      cases x with
      | none => rfl
      | some a =>
        cases hm : a.m_node with
        | none => simp [hm]
        | some node => simp [hm, hnode a node hslot hm]
  rw [slot, slot, hentry, hposition]

end World

/-! ## Operations -/

section Operations

variable {W : Ns3} {J : Jsoncpp} {w w' : World} {f : Arena StdString Vector (Option Json)}

/-- A new agent is at its initial position, and its node is the next one. -/
structure Entering (W : Ns3) (w : World) (agId : StdString) (a : Agent) (w' : World) : Prop where
  made : RoadRunnerBaseLine.Made w.nodes agId a
  entered : ∀ id : StdString, w'.AllAgents[id]? = (w.AllAgents.insertIfNew agId (some a))[id]?
  mobility : w'.mobility = w.mobility.insert w.nodes (W.initialPosition w.nodes)
  nodes : w'.nodes = w.nodes + 1
  sent : w'.sent = w.sent

/-- What `init` does to the world. -/
structure NodeMade (W : Ns3) (w w' : World) : Prop where
  entries : w'.AllAgents = w.AllAgents
  mobility : w'.mobility = w.mobility.insert w.nodes (W.initialPosition w.nodes)
  nodes : w'.nodes = w.nodes + 1
  sent : w'.sent = w.sent

/-- `init` of an agent that was just created. -/
theorem init_new (hW : W.Documented) (self : Nat) (agId : StdString) (w : World) :
    ∃ a w', Agent.init W none { self := self, m_AgentId := agId } w = .ok a w' ∧
      RoadRunnerBaseLine.Made w.nodes agId a ∧ NodeMade W w w' := by
  have haddresses : W.Assign (W.Install [w.nodes]) ≠ [] := by
    rw [← List.length_pos_iff, hW.assign, hW.install]
    exact Nat.succ_pos _
  obtain ⟨address, others, haddress⟩ := List.exists_cons_of_ne_nil haddresses
  simp only [Agent.init, createNode, bind_assoc, get_bind_apply, set_bind_apply, pure_bind_apply,
    List.nil_append, List.head?_cons, installMobility, modify_bind_apply, createSocket, haddress,
    Agent.Bind, Agent.GetAddress, except_ok_bind]
  exact ⟨_, _, rfl, ⟨rfl, rfl, rfl, List.cons_ne_nil _ _⟩, rfl, rfl, rfl, rfl⟩

theorem addAgent_entering (hW : W.Documented) (agId : StdString) (w : World) :
    ∃ a w', AgentsInfoHandler.addAgent W agId w = .ok () w' ∧ Entering W w agId a w' := by
  obtain ⟨a, w₁, hinit, hmade, hnode⟩ := init_new hW w.agents agId { w with agents := w.agents + 1 }
  refine ⟨a, { w₁ with AllAgents := w₁.AllAgents.insertIfNew agId (some a) }, ?_, ?_⟩
  · simp only [AgentsInfoHandler.addAgent, createAgent, bind_assoc, get_bind_apply,
      set_bind_apply, pure_bind_apply, Agent.virtualInit]
    rw [bind_ok hinit]
    rfl
  · exact
      { made := hmade
        entered := fun id => by rw [hnode.entries]
        mobility := hnode.mobility
        nodes := hnode.nodes
        sent := hnode.sent }

/-- The agents after one was entered are housed. -/
theorem Entering.housed {agId : StdString} {a : Agent} (h : Entering W w agId a w')
    (hw : w.Housed) : w'.Housed := by
  have hagent : ∀ id b, w'.agent id = some b →
      w.agent id = some b ∨ id = agId ∧ b = a ∧ w.AllAgents[agId]? = none := by
    intro id b hb
    rw [World.agent_eq_some, h.entered, Std.TreeMap.getElem?_insertIfNew] at hb
    split at hb
    · rename_i hnew
      obtain rfl := Std.LawfulEqCmp.compare_eq_iff_eq.mp hnew.1
      exact .inr ⟨rfl, (Option.some.inj (Option.some.inj hb)).symm,
        Std.TreeMap.getElem?_eq_none hnew.2⟩
    · exact .inl (World.agent_eq_some.mpr hb)
  have hmobility : ∀ node ∈ w.mobility, node ∈ w'.mobility := by
    intro node hnode
    rw [h.mobility, Std.TreeMap.mem_insert]
    exact .inr hnode
  have hnode : w.nodes ∈ w'.mobility := by
    rw [h.mobility, Std.TreeMap.mem_insert]
    exact .inl Std.ReflCmp.compare_self
  -- the new node is the node of no other agent
  have hfresh : ∀ id b, w.agent id = some b → b.m_node ≠ a.m_node := by
    intro id b hb heq
    rw [h.made.node] at heq
    exact Nat.lt_irrefl _ (hw.below id b w.nodes hb heq)
  refine ⟨⟨fun id b hb => ?_, fun id b hb => ?_, fun id id' b b' hb hb' heq => ?_⟩,
    fun id b node hb hb' => ?_⟩
  · rcases hagent id b (World.agent_eq_some.mpr hb) with hold | ⟨-, rfl, -⟩
    · exact (hw.manned.usable id b (World.agent_eq_some.mp hold)).mono hmobility
    · exact ⟨⟨w.nodes, h.made.node, hnode⟩, h.made.socket, h.made.address⟩
  · rcases hagent id b hb with hold | ⟨rfl, rfl, -⟩
    · exact hw.manned.named id b hold
    · exact h.made.id
  · rcases hagent id b hb with hold | ⟨rfl, rfl, -⟩
    · rcases hagent id' b' hb' with hold' | ⟨rfl, rfl, -⟩
      · exact hw.manned.apart id id' b b' hold hold' heq
      · exact absurd heq (hfresh id b hold)
    · rcases hagent id' b' hb' with hold' | ⟨rfl, -, -⟩
      · exact absurd heq.symm (hfresh id' b' hold')
      · rfl
  · rw [h.nodes]
    rcases hagent id b hb with hold | ⟨-, rfl, -⟩
    · exact Nat.lt_succ_of_lt (hw.below id b node hold hb')
    · rw [h.made.node] at hb'
      cases hb'
      exact Nat.lt_succ_self _

/-- The others stay where they are, and so does who has the id already. -/
theorem Entering.slot_kept {agId id : StdString} {a : Agent} (h : Entering W w agId a w')
    (hw : w.Housed) (hid : id ≠ agId ∨ agId ∈ w.AllAgents) : w'.slot id = w.slot id := by
  refine World.slot_congr ?_ fun b node hb hnode => ?_
  · rw [h.entered, Std.TreeMap.getElem?_insertIfNew, if_neg]
    rintro ⟨heq, hnew⟩
    obtain rfl := Std.LawfulEqCmp.compare_eq_iff_eq.mp heq
    exact hid.elim (fun hne => hne rfl) hnew
  · have hbelow := hw.below id b node (World.agent_eq_some.mpr hb) hnode
    rw [h.mobility, Std.TreeMap.getElem?_insert, if_neg]
    simpa using Nat.ne_of_gt hbelow

theorem Entering.arena {agId : StdString} {a : Agent} (h : Entering W w agId a w')
    (hw : w.Housed) : w'.arena J = (w.arena J).enter W.initialPosition agId := by
  have hslots : w'.slot = ((w.arena J).enter W.initialPosition agId).slot := by
    funext id
    by_cases hmem : agId ∈ w.AllAgents
    · rw [h.slot_kept hw (.inr hmem)]
      obtain ⟨x, hx⟩ := Option.isSome_iff_exists.mp (Std.TreeMap.mem_iff_isSome_getElem?.mp hmem)
      cases x with
      | none =>
        have htaken : (w.arena J).slot agId = .blocked := World.slot_blocked hx
        simp only [Arena.enter, htaken]
        rfl
      | some b =>
        obtain ⟨-, place, -, -, htaken⟩ := hw.slot hx
        have htaken : (w.arena J).slot agId = .present place := htaken
        simp only [Arena.enter, htaken]
        rfl
    · have hfree : (w.arena J).slot agId = .absent :=
        World.slot_absent (Std.TreeMap.getElem?_eq_none hmem)
      simp only [Arena.enter, hfree]
      by_cases hid : id = agId
      · subst hid
        rw [Function.update_self]
        have hentry : w'.AllAgents[id]? = some (some a) := by
          rw [h.entered, Std.TreeMap.getElem?_insertIfNew, if_pos]
          exact ⟨Std.ReflCmp.compare_self, hmem⟩
        refine World.slot_present hentry ?_
        rw [World.position_of_node hentry h.made.node, h.mobility, Std.TreeMap.getElem?_insert_self]
        rfl
      · rw [Function.update_of_ne hid]
        exact h.slot_kept hw (.inl hid)
  rw [World.arena, hslots, h.nodes, h.sent]
  rfl

theorem addAgent_matches (hW : W.Documented) (agId : StdString) :
    Transition.Matches (Represents J) (fun w => returned (AgentsInfoHandler.addAgent W agId w))
      fun f => some (f.enter W.initialPosition agId) := by
  rintro w _ ⟨rfl, hw⟩
  obtain ⟨a, w', hrun, hentering⟩ := addAgent_entering hW agId w
  show Option.Rel _ (returned (AgentsInfoHandler.addAgent W agId w)) _
  rw [hrun]
  exact .some ⟨hentering.arena hw, hentering.housed hw⟩

/-- The agents after some left are housed. -/
theorem World.Housed.erase (hw : w.Housed) (agId : StdString) :
    World.Housed { w with AllAgents := w.AllAgents.erase agId } := by
  have hagent : ∀ id b, World.agent { w with AllAgents := w.AllAgents.erase agId } id = some b →
      w.agent id = some b := by
    intro id b hb
    rw [World.agent_eq_some, Std.TreeMap.getElem?_erase] at hb
    split at hb
    · cases hb
    · exact World.agent_eq_some.mpr hb
  exact
    { manned :=
        { usable := fun id b hb => (hw.manned.usable id b (World.agent_eq_some.mp
            (hagent id b (World.agent_eq_some.mpr hb)))).mono fun _ hnode => hnode
          named := fun id b hb => hw.manned.named id b (hagent id b hb)
          apart := fun id id' b b' hb hb' =>
            hw.manned.apart id id' b b' (hagent id b hb) (hagent id' b' hb') }
      below := fun id b node hb => hw.below id b node (hagent id b hb) }

theorem removeAgent_matches (agId : StdString) :
    Transition.Matches (Represents J) (fun w => returned (Agent.RemoveAgent agId w))
      fun f => f.leave agId := by
  rintro w _ ⟨rfl, hw⟩
  show Option.Rel _ (returned (Agent.RemoveAgent agId w)) ((w.arena J).leave agId)
  rw [Agent.RemoveAgent, get_bind_apply, Arena.leave]
  cases hslot : w.AllAgents[agId]? with
  | none =>
    have hfree : (w.arena J).slot agId = .absent := World.slot_absent hslot
    rw [hfree]
    exact .some ⟨rfl, hw⟩
  | some x =>
    cases x with
    | none =>
      have hblocked : (w.arena J).slot agId = .blocked := World.slot_blocked hslot
      rw [hblocked]
      exact .none
    | some a =>
      obtain ⟨-, place, -, -, hpresent⟩ := hw.slot hslot
      have hpresent : (w.arena J).slot agId = .present place := hpresent
      rw [hpresent]
      refine .some ⟨?_, hw.erase agId⟩
      have hslots : World.slot { w with AllAgents := w.AllAgents.erase agId } =
          Function.update w.slot agId .absent := by
        funext id
        by_cases hid : id = agId
        · subst hid
          rw [Function.update_self]
          exact World.slot_absent (by simp)
        · rw [Function.update_of_ne hid]
          refine World.slot_congr ?_ fun _ _ _ _ => rfl
          simp [Std.TreeMap.getElem?_erase, Ne.symm hid]
      rw [World.arena, hslots]
      rfl

/-- Moving the node of one agent moves that agent, and no other. -/
theorem World.Housed.moved (hw : w.Housed) {agId : StdString} {a : Agent} {node : Nat}
    (hslot : w.AllAgents[agId]? = some (some a)) (hnode : a.m_node = some node) (place : Vector) :
    World.slot { w with mobility := w.mobility.insert node place } =
      Function.update w.slot agId (.present place) := by
  funext id
  by_cases hid : id = agId
  · subst hid
    rw [Function.update_self]
    have hentry : ({ w with mobility := w.mobility.insert node place } : World).AllAgents[id]? =
        some (some a) := hslot
    refine World.slot_present hentry ?_
    rw [World.position_of_node hentry hnode, Std.TreeMap.getElem?_insert_self]
  · rw [Function.update_of_ne hid]
    refine World.slot_congr rfl fun b node' hb hnode' => ?_
    have hne : node ≠ node' := by
      rintro rfl
      exact hid (hw.manned.apart id agId b a (World.agent_eq_some.mpr hb)
        (World.agent_eq_some.mpr hslot) (hnode'.trans hnode.symm))
    simp [Std.TreeMap.getElem?_insert, hne]

theorem moveAgent_matches (loc : StdString × DPoint) :
    Transition.Matches (Represents J) (fun w => returned (AllLocationHandler.moveAgent loc w))
      fun f => some (f.move (target loc)) := by
  rintro w _ ⟨rfl, hw⟩
  show Option.Rel _ (returned (AllLocationHandler.moveAgent loc w))
    (some ((w.arena J).move (target loc)))
  rw [AllLocationHandler.moveAgent, get_bind_apply, Arena.move]
  cases hslot : w.AllAgents[loc.1]? with
  | none =>
    have hfree : (w.arena J).slot (target loc).1 = .absent := World.slot_absent hslot
    rw [hfree]
    exact .some ⟨rfl, hw⟩
  | some x =>
    cases x with
    | none =>
      have hblocked : (w.arena J).slot (target loc).1 = .blocked := World.slot_blocked hslot
      rw [hblocked]
      exact .some ⟨rfl, hw⟩
    | some a =>
      obtain ⟨node, place, hnode, hplace, hpresent⟩ := hw.slot hslot
      have hpresent : (w.arena J).slot (target loc).1 = .present place := hpresent
      have hmem : node ∈ w.mobility := by
        rw [Std.TreeMap.mem_iff_isSome_getElem?, hplace]
        rfl
      have hrun : a.SetPosition (target loc).2 w = .ok ()
          { w with mobility := w.mobility.insert node (target loc).2 } :=
        Agent.SetPosition_eq_ok.mpr ⟨node, hnode, hmem, rfl⟩
      have hframe : w.Follows { w with mobility := w.mobility.insert node (target loc).2 } :=
        ⟨fun _ => rfl, fun node' hnode' => Std.TreeMap.mem_insert.mpr (.inr hnode')⟩
      simp only [hpresent]
      rw [show a.SetPosition { x := loc.2.x, y := loc.2.y, z := ⟨0⟩ } w = _ from hrun]
      refine .some ⟨?_, hw.manned.follows hframe, hw.below⟩
      rw [World.arena, hw.moved hslot hnode]
      rfl

theorem World.Housed.touch (hw : w.Housed) (agId : StdString) : (Agent.touch w agId).Housed where
  manned := hw.manned.follows (World.touch_follows w agId)
  below id b node hb hnode := by
    rw [(World.touch_follows w agId).agent] at hb
    have hnodes : (Agent.touch w agId).nodes = w.nodes := by
      unfold Agent.touch
      split <;> rfl
    rw [hnodes]
    exact hw.below id b node hb hnode

/-- Looking an id up blocks it if there is nothing. -/
theorem arena_touch (agId : StdString) : (Agent.touch w agId).arena J = (w.arena J).look agId := by
  cases hslot : w.AllAgents[agId]? with
  | none =>
    have hfree : (w.arena J).slot agId = .absent := World.slot_absent hslot
    have htouch : Agent.touch w agId = { w with AllAgents := w.AllAgents.insert agId none } := by
      rw [Agent.touch, hslot]
    have hslots : (Agent.touch w agId).slot = Function.update w.slot agId .blocked := by
      funext id
      by_cases hid : id = agId
      · subst hid
        rw [Function.update_self]
        exact World.slot_blocked (Agent.touch_null (by rw [hslot]; rfl))
      · rw [Function.update_of_ne hid]
        refine World.slot_congr ?_ fun _ _ _ _ => by rw [Agent.touch_mobility]
        rw [Agent.touch_getElem?, if_neg hid]
    rw [World.arena, hslots, htouch, Arena.look, hfree]
    rfl
  | some x =>
    rw [Agent.touch_of_mem hslot, Arena.look_taken]
    show w.slot agId ≠ .absent
    rw [World.slot, hslot]
    cases w.position agId <;> simp

theorem slot_ne_present {agId : StdString} (h : w.agent agId = none) (place : Vector) :
    (w.arena J).slot agId ≠ .present place := by
  have hposition : w.position agId = none := by
    rw [World.position, h]
    rfl
  show w.slot agId ≠ .present place
  rw [World.slot, hposition]
  cases w.AllAgents[agId]? with
  | none => simp
  | some x => simp

theorem sendToRecipient_matches (hJ : J.ReadsBack) {osMsg : OpaqueSendMessage}
    {sending_agent : Agent} (hid : sending_agent.m_AgentId = osMsg.fromId)
    (hsocket : sending_agent.m_socket.isSome = true) (haddress : sending_agent.iic ≠ [])
    (toId : StdString) :
    Transition.Matches (Represents J)
      (fun w => returned (OpaqueSendHandler.sendToRecipient W J osMsg sending_agent toId w))
      fun f => some (Arena.deliver osMsg.fromId osMsg.text f toId) := by
  rintro w _ ⟨rfl, hw⟩
  show Option.Rel _ (returned (OpaqueSendHandler.sendToRecipient W J osMsg sending_agent toId w))
    (some (Arena.deliver osMsg.fromId osMsg.text (w.arena J) toId))
  cases hslot : w.AllAgents[toId]?.getD none with
  | none =>
    rw [OpaqueSendHandler.sendToRecipient_none hslot,
      Arena.deliver_missing (slot_ne_present hslot)]
    exact .some ⟨arena_touch toId, hw.touch toId⟩
  | some receiving_agent =>
    have hsome := OpaqueSendHandler.some_of_getD hslot
    obtain ⟨-, place, -, -, hpresent⟩ := hw.slot hsome
    have hpresent : (w.arena J).slot toId = .present place := hpresent
    obtain ⟨w', hrun⟩ : ∃ w', OpaqueSendHandler.sendToRecipient W J osMsg sending_agent toId w =
        .ok () w' := (OpaqueSendHandler.sendToRecipient_returns_iff hsome).mpr
      ⟨hsocket, haddress, (hw.manned.usable toId _ hsome).address⟩
    obtain ⟨packet, r, hwrite, hsend⟩ := (OpaqueSendHandler.sendToRecipient_some hsome).mp hrun
    obtain ⟨-, remote, socket, own, -, -, -, rfl⟩ := Agent.SendTo_eq_ok.mp hsend
    rw [hrun]
    refine .some ⟨?_, hw.manned.follows ⟨fun _ => rfl, fun _ h => h⟩, hw.below⟩
    have hrecipient : receiving_agent.m_AgentId = toId :=
      hw.manned.named toId _ (World.agent_eq_some.mpr hsome)
    rw [Arena.deliver_present hpresent]
    simp only [World.arena, List.map_append, List.map_cons, List.map_nil, Agent.sentTo,
      Agent.GetAgentId, hid, hrecipient, OpaqueSendHandler.parse_routed hJ hwrite,
      OpaqueSendMessage.text]
    rfl

end Operations

/-! ## Messages and runs -/

section Messages

variable {W : Ns3} {J : Jsoncpp}

/-- A loop whose iterations match total operations of the arena matches the fold. -/
theorem forEach_matches {α β : Type} {x : α → Call World Unit} {g : α → β}
    {y : Arena StdString Vector (Option Json) → β → Arena StdString Vector (Option Json)}
    (h : ∀ a, Transition.Matches (Represents J) (fun w => returned (x a w))
      fun f => some (y f (g a))) (as : List α) :
    Transition.Matches (Represents J) (fun w => returned (forEach x as w))
      fun f => some ((as.map g).foldl y f) := by
  have hrun : Transition.Matches (Represents J)
      (fun w => Transition.run (fun w a => returned (x a w)) w as)
      fun f => Transition.run (fun f b => some (y f b)) f (as.map g) := .run h as
  intro w f hw
  have hone := hrun w f hw
  simp only [Transition.run_total] at hone
  show Option.Rel _ (returned (forEach x as w)) _
  rwa [returned_forEach]

theorem Request.act_matches (hW : W.Documented) (hJ : J.ReadsBack) (request : Request) :
    Transition.Matches (Represents J) (fun w => returned (request.act W J w))
      fun f => Arena.step W.initialPosition f request.asked := by
  cases request with
  | newAgents aInfo =>
    have hadd := forEach_matches (g := id) (addAgent_matches (J := J) hW) aInfo.addAgentIds
    have hremove := Transition.Matches.run (f := id) (removeAgent_matches (J := J))
      aInfo.remAgentIds
    intro w f hw
    have hboth := hadd.bind hremove w f hw
    simp only [Option.bind_some, List.map_id] at hboth
    show Option.Rel _ (returned ((Request.newAgents aInfo).act W J w)) _
    rw [Request.act, returned_bind]
    simp only [returned_forEach] at hboth ⊢
    exact hboth
  | allLocations aInfo =>
    exact forEach_matches moveAgent_matches _
  | opaqueSend osMsg =>
    rintro w _ ⟨rfl, hw⟩
    show Option.Rel _ (returned ((Request.opaqueSend osMsg).act W J w))
      (Arena.step W.initialPosition (w.arena J) (.send osMsg.fromId osMsg.toIds osMsg.text))
    rw [Request.act, bind_ok (Agent.getAgent_apply _ w)]
    cases hslot : w.AllAgents[osMsg.fromId]?.getD none with
    | none =>
      rw [Arena.step_send_missing (slot_ne_present hslot)]
      exact .some ⟨arena_touch osMsg.fromId, hw.touch osMsg.fromId⟩
    | some sending_agent =>
      have hsome := OpaqueSendHandler.some_of_getD hslot
      obtain ⟨-, place, -, -, hpresent⟩ := hw.slot hsome
      have hpresent : (w.arena J).slot osMsg.fromId = .present place := hpresent
      have husable := hw.manned.usable osMsg.fromId sending_agent hsome
      rw [Arena.step_send_present hpresent, Agent.touch_of_mem hsome]
      have hloop := forEach_matches (g := id) (sendToRecipient_matches (W := W) hJ
        (hw.manned.named _ _ (World.agent_eq_some.mpr hsome)) husable.socket husable.address)
        osMsg.toIds
      simpa using hloop w (w.arena J) ⟨rfl, hw⟩

/-- A message that its parser reads is handled as its request says. -/
theorem dispatched_of_parse {α : Type} {m : Received} {handler : Handler} {w : World}
    {parse : Except Fault α} {f : α → Request} (hhandler : m.handler = some handler)
    (hrun : handler.handle W J m.messages m.msgNumber =
      (eval parse >>= fun a => (f a).act W J)) :
    handled W J w m = (parse.toOption.map f).bind fun request => returned (request.act W J w) := by
  rw [handled_of_handler (by rw [hhandler]; rfl), dispatched, hhandler]
  show returned (handler.handle W J m.messages m.msgNumber w) = _
  rw [hrun]
  cases parse with
  | ok a => rfl
  | error e => rfl

/-- A message is handled exactly as its request says. -/
theorem handled_eq_request {m : Received} {handler : Handler} (hhandler : m.handler = some handler)
    (hnull : handler ≠ .NullHandler) (w : World) :
    handled W J w m = (m.request J handler).bind fun request => returned (request.act W J w) := by
  cases handler with
  | AllLocationHandler => exact dispatched_of_parse hhandler rfl
  | AgentsInfoHandler => exact dispatched_of_parse hhandler rfl
  | NullHandler => exact absurd rfl hnull
  | OpaqueSendHandler => exact dispatched_of_parse hhandler rfl
  | InvalidHandler =>
    rw [handled_of_handler (by rw [hhandler]; rfl), dispatched, hhandler]
    rfl

theorem handled_matches (hW : W.Documented) (hJ : J.ReadsBack) (m : Received) :
    Transition.Matches (Represents J) (fun w => handled W J w m)
      fun f => f.obey W.initialPosition (m.asked J) := by
  intro w f hw
  show Option.Rel _ (handled W J w m) ((m.asked J).bind (Arena.step W.initialPosition f))
  cases hhandler : m.handler with
  | none =>
    rw [handled_of_no_handler hhandler, Received.asked, hhandler]
    exact .none
  | some handler =>
    rw [Received.asked, hhandler, Option.bind_some]
    by_cases hnull : handler = .NullHandler
    · subst hnull
      rw [if_pos rfl, handled_of_handler (by rw [hhandler]; rfl), dispatched, hhandler]
      exact .some hw
    · rw [if_neg hnull, handled_eq_request hhandler hnull]
      cases m.request J handler with
      | none => exact .none
      | some request => exact Request.act_matches hW hJ request w f hw

theorem run_matches (hW : W.Documented) (hJ : J.ReadsBack) (msgs : List Received) :
    Transition.Matches (Represents J) (fun w => Transition.run (handled W J) w msgs) fun f =>
      Transition.run (Arena.obey W.initialPosition) f (msgs.map (Received.asked J)) :=
  .run (handled_matches hW hJ) msgs

/-- Messages do to agents that are housed, as those of `Default` are, what their commands do to
the arena, and are stuck where it is stuck. -/
theorem arena_commutes (hW : W.Documented) (hJ : J.ReadsBack) {w : World} (hw : w.Housed)
    (msgs : List Received) :
    (Transition.run (handled W J) w msgs).map (World.arena J) =
      Transition.run (Arena.obey W.initialPosition) (w.arena J) (msgs.map (Received.asked J)) :=
  (run_matches hW hJ msgs).map_eq (fun _ _ h => h.1) ⟨rfl, hw⟩

/-- A run of messages keeps the agents housed. -/
theorem housed_of_run (hW : W.Documented) (hJ : J.ReadsBack) {w w' : World} (hw : w.Housed)
    {msgs : List Received} (hrun : Transition.run (handled W J) w msgs = some w') :
    w'.Housed := by
  have hone := run_matches hW hJ msgs w (w.arena J) ⟨rfl, hw⟩
  simp only [hrun] at hone
  generalize Transition.run (Arena.obey W.initialPosition) (w.arena J)
    (msgs.map (Received.asked J)) = o at hone
  cases hone with
  | some hrel => exact hrel.2

/-- A world without entries is housed. -/
theorem housed_of_empty {w : World} (hempty : w.AllAgents = {}) : w.Housed where
  manned :=
    { usable := by simp [World.Usable, hempty]
      named := by simp [World.agent, hempty]
      apart := by simp [World.agent, hempty] }
  below := by simp [World.agent, hempty]

/-- New agents are housed. -/
theorem housed_addAgents (hW : W.Documented) {w : World} (hw : w.Housed) (ids : List StdString) :
    ∃ w', forEach (AgentsInfoHandler.addAgent W) ids w = .ok () w' ∧ w'.Housed := by
  induction ids generalizing w with
  | nil => exact ⟨w, rfl, hw⟩
  | cons agId ids ih =>
    obtain ⟨a, w₁, hadd, hentering⟩ := addAgent_entering hW agId w
    obtain ⟨w', hrest, hw'⟩ := ih (hentering.housed hw)
    exact ⟨w', (bind_ok hadd _).trans hrest, hw'⟩

theorem twoAgents_housed : OpaqueSendHandler.twoAgents.Housed := by
  have hempty : World.Housed {} := housed_of_empty rfl
  obtain ⟨w', hrun, hw'⟩ :=
    housed_addAgents Ns3.reference_documented hempty [str "1", str "2"]
  rwa [OpaqueSendHandler.twoAgents, hrun]

theorem arena_commutes_two :
    (Transition.run (handled Ns3.reference Jsoncpp.reference) OpaqueSendHandler.twoAgents
        [⟨OpaqueSendHandler.oneToTwo, 0⟩, oneToNine.toReceived, enterNine.toReceived]).map
          (World.arena Jsoncpp.reference) =
      Transition.run (Arena.obey Ns3.reference.initialPosition)
        (OpaqueSendHandler.twoAgents.arena Jsoncpp.reference)
        ([⟨OpaqueSendHandler.oneToTwo, 0⟩, oneToNine.toReceived, enterNine.toReceived].map
          (Received.asked Jsoncpp.reference)) :=
  arena_commutes Ns3.reference_documented Jsoncpp.reference_readsBack twoAgents_housed _

end Messages

end Sm4ns3
