import Sm4ns3.Message.Handlers
import Sm4ns3.Lib.Registry
import Sm4ns3.Lib.Transition

/-!
# What the handlers do to the agents

A plain agent that `init` has set up can be moved, addressed and can send
(`Usable`). Each operation on the registry and each loop of the handlers gets one
lemma here; `Received` and `handled` are messages and the steps they cause.
-/

namespace Sm4ns3

open Bytes Cpp Call

/-! ## Agents that can be used -/

/-- `w'` has the registry of `w`, and a mobility model wherever `w` has one. -/
structure World.Frame (w w' : World) : Prop where
  agents : w'.AllAgents = w.AllAgents
  mobility : ∀ node ∈ w.mobility, node ∈ w'.mobility

theorem World.Frame.refl (w : World) : w.Frame w := ⟨rfl, fun _ h => h⟩

/-- A property of the registry and the mobility models survives a call that keeps both. -/
theorem keeps_of_frame {α : Type} {I : World → Prop} {x : Call World α}
    (hI : ∀ w w', I w → w.Frame w' → I w') (hx : ∀ w : World, Keeps w.Frame x) : Keeps I x :=
  fun w hw => hI w _ hw (hx w w (World.Frame.refl w))

namespace Agent

/-- The node of the agent has a mobility model. -/
def Movable (w : World) (agent : Agent) : Prop :=
  ∃ node, agent.m_node = some node ∧ node ∈ w.mobility

/-- `sender` has a socket, and both agents have an address. -/
def CanReach (sender agent : Agent) : Prop :=
  sender.m_socket.isSome = true ∧ sender.iic ≠ [] ∧ agent.iic ≠ []

/-- Nothing the handlers dereference is unset. -/
structure Usable (w : World) (agent : Agent) : Prop where
  movable : agent.Movable w
  socket : agent.m_socket.isSome = true
  address : agent.iic ≠ []

theorem Usable.canReach {w : World} {sender agent : Agent} (hs : sender.Usable w)
    (ha : agent.Usable w) : sender.CanReach agent := ⟨hs.socket, hs.address, ha.address⟩

theorem Usable.mono {w w' : World} {agent : Agent} (h : agent.Usable w)
    (hw : ∀ node ∈ w.mobility, node ∈ w'.mobility) : agent.Usable w' :=
  let ⟨node, hnode, hcontains⟩ := h.movable
  ⟨⟨node, hnode, hw node hcontains⟩, h.socket, h.address⟩

theorem GetAddress_ok {agent : Agent} : (∃ address, agent.GetAddress = .ok address) ↔
    agent.iic ≠ [] := by
  unfold GetAddress
  cases agent.iic with
  | nil => simp
  | cons address rest => simp

/-- Moving an agent changes where its node is. -/
theorem SetPosition_eq_ok {w w' : World} {agent : Agent} {value : Vector} {u : Unit} :
    agent.SetPosition value w = .ok u w' ↔
      ∃ node, agent.m_node = some node ∧ node ∈ w.mobility ∧
        w' = { w with mobility := w.mobility.insert node value } := by
  unfold SetPosition
  cases agent.m_node with
  | none => simp
  | some node =>
    simp only [get_bind_apply, Option.some.injEq, exists_eq_left']
    by_cases hnode : node ∈ w.mobility
    · rw [if_pos (Std.TreeMap.mem_iff_contains.mp hnode)]
      constructor
      · rintro h
        cases h
        exact ⟨hnode, rfl⟩
      · rintro ⟨-, rfl⟩
        rfl
    · rw [if_neg (by simpa using hnode)]
      simp [hnode]

theorem SetPosition_frame (w : World) (agent : Agent) (value : Vector) :
    Keeps w.Frame (agent.SetPosition value) := by
  intro w₁ hw
  unfold SetPosition
  cases agent.m_node with
  | none => exact hw
  | some node =>
    simp only [get_bind_apply]
    split
    · exact ⟨hw.agents, fun other hother =>
        Std.TreeMap.mem_insert.mpr (.inr (hw.mobility other hother))⟩
    · exact hw

/-- What `SendTo` records. -/
def sentTo (sender agent : Agent) (socket remote : Nat) (packet : StdString) : Sent where
  sender := sender.m_AgentId
  socket := socket
  recipient := agent.GetAgentId
  remote := remote
  packet := packet

/-- Sending counts and records one packet. -/
theorem SendTo_eq_ok {W : Ns3} {w w' : World} {sender agent : Agent} {packet : StdString}
    {r : Int} :
    sender.SendTo W (some agent) packet w = .ok r w' ↔ r = W.Send packet ∧
      ∃ remote socket own, agent.GetAddress = .ok remote ∧ sender.m_socket = some socket ∧
        sender.GetAddress = .ok own ∧
        w' = { w with
          global_pckt_cnt := w.global_pckt_cnt + 1
          sent := w.sent ++ [sentTo sender agent socket remote packet] } := by
  simp only [SendTo, eval_bind_eq_ok]
  cases sender.m_socket with
  | none => simp
  | some socket =>
    simp only [eval_bind_eq_ok, modify_bind_apply, pure_apply]
    constructor
    · rintro ⟨remote, hremote, own, hown, h⟩
      cases h
      exact ⟨rfl, remote, socket, own, hremote, rfl, hown, rfl⟩
    · rintro ⟨rfl, remote, _, own, hremote, hsocket, hown, rfl⟩
      cases hsocket
      exact ⟨remote, hremote, own, hown, rfl⟩

/-- What each packet put on the air preserves, `SendTo` preserves. -/
theorem SendTo_keeps {W : Ns3} {I : World → Prop} {sender : Agent} {agent : Option Agent}
    {packet : StdString}
    (h : ∀ (w : World) (send : Sent), send.packet = packet → I w → I { w with
      global_pckt_cnt := w.global_pckt_cnt + 1, sent := w.sent ++ [send] }) :
    Keeps I (sender.SendTo W agent packet) := by
  cases agent with
  | none => exact Keeps.pure _
  | some agent =>
    refine (Keeps.eval _).bind fun remote => ?_
    cases sender.m_socket with
    | none => exact Keeps.undefined _
    | some socket =>
      exact (Keeps.eval _).bind fun _ =>
        (Keeps.modify fun w hw => h w _ rfl hw).bind fun _ => Keeps.pure _

theorem SendTo_frame (W : Ns3) (w : World) (sender : Agent) (agent : Option Agent)
    (packet : StdString) : Keeps w.Frame (sender.SendTo W agent packet) :=
  SendTo_keeps fun _ _ _ h => ⟨h.agents, h.mobility⟩

theorem SendTo_ok {W : Ns3} {w : World} {sender agent : Agent} {packet : StdString}
    (h : sender.CanReach agent) : ∃ r w', sender.SendTo W (some agent) packet w = .ok r w' := by
  obtain ⟨socket, hsocket⟩ := Option.isSome_iff_exists.mp h.1
  obtain ⟨own, hown⟩ := GetAddress_ok.mpr h.2.1
  obtain ⟨remote, hremote⟩ := GetAddress_ok.mpr h.2.2
  exact ⟨_, _, SendTo_eq_ok.mpr ⟨rfl, remote, socket, own, hremote, hsocket, hown, rfl⟩⟩

theorem canReach_of_SendTo {W : Ns3} {w w' : World} {sender agent : Agent} {packet : StdString}
    {r : Int} (h : sender.SendTo W (some agent) packet w = .ok r w') : sender.CanReach agent := by
  obtain ⟨-, remote, socket, own, hremote, hsocket, hown, -⟩ := SendTo_eq_ok.mp h
  exact ⟨by rw [hsocket]; rfl, GetAddress_ok.mp ⟨own, hown⟩, GetAddress_ok.mp ⟨remote, hremote⟩⟩

theorem mem_installMobility {W : Ns3} {node : Nat} (nodes : List Nat)
    (mobility : Std.TreeMap Nat Vector) :
    node ∈ nodes.foldl (fun m node => m.insert node (W.initialPosition node)) mobility ↔
      node ∈ nodes ∨ node ∈ mobility := by
  induction nodes generalizing mobility with
  | nil => simp
  | cons first rest ih =>
    rw [List.foldl_cons, ih, Std.TreeMap.mem_insert, Std.LawfulEqCmp.compare_eq_iff_eq,
      List.mem_cons, eq_comm]
    tauto

/-- `agent'` is `agent` with a new node and a socket whose packets it receives; the
registry is not touched. -/
structure SetUp (w : World) (agent agent' : Agent) (w' : World) : Prop where
  self : agent'.self = agent.self
  id : agent'.m_AgentId = agent.m_AgentId
  wfd : agent'.wfd = agent.wfd
  nc : agent'.nc = agent.nc ++ [w.nodes]
  usable : agent'.Usable w'
  frame : w.Frame w'
  agents : w'.agents = w.agents
  callbacks : w'.callbacks = w.callbacks ++
    [{ socket := w.sockets, receiver := agent.self, id := agent.m_AgentId
       address := agent'.iic.head? }]

/-- `init` sets a plain agent up. -/
theorem init_setUp {W : Ns3} (hW : W.Documented) (w : World) (agent : Agent) :
    ∃ agent' w', agent.init W none w = .ok agent' w' ∧ agent.SetUp w agent' w' := by
  obtain ⟨first, rest, hnodes⟩ := List.exists_cons_of_ne_nil
    (List.append_ne_nil_of_right_ne_nil agent.nc (List.cons_ne_nil w.nodes []))
  have haddresses : W.Assign (W.Install (first :: rest)) ≠ [] := by
    rw [← List.length_pos_iff, hW.assign, hW.install]
    exact Nat.succ_pos _
  obtain ⟨address, others, haddress⟩ := List.exists_cons_of_ne_nil haddresses
  unfold init
  simp only [createNode, bind_assoc, get_bind_apply, set_bind_apply, pure_bind_apply, hnodes,
    List.head?_cons, installMobility, modify_bind_apply, createSocket, haddress, Bind, GetAddress,
    except_ok_bind]
  refine ⟨_, _, rfl, ?_⟩
  exact
    { self := rfl
      id := rfl
      wfd := rfl
      nc := hnodes.symm
      usable := ⟨⟨first, rfl, (mem_installMobility _ _).mpr (.inl List.mem_cons_self)⟩, rfl,
        List.cons_ne_nil _ _⟩
      frame := ⟨rfl, fun node hnode => (mem_installMobility _ _).mpr (.inr hnode)⟩
      agents := rfl
      callbacks := rfl }

theorem RemoveAgent_eq_ok {agId : StdString} {w w' : World} {u : Unit} :
    RemoveAgent agId w = .ok u w' ↔
      (w.AllAgents[agId]? = none ∧ w' = w) ∨
        (∃ agent, w.AllAgents[agId]? = some (some agent)) ∧
          w' = { w with AllAgents := w.AllAgents.erase agId } := by
  rw [RemoveAgent, get_bind_apply]
  match hslot : w.AllAgents[agId]? with
  | none => simp [Eq.comm (a := w)]
  | some none => simp
  | some (some agent) => simp [Eq.comm (b := w')]

end Agent

/-! ## The loops of the handlers -/

namespace AgentsInfoHandler

/-- A new agent is entered, unless its id is taken, and receives packets in any case. -/
structure Added (w : World) (agId : StdString) (agent : Agent) (w' : World) : Prop where
  self : agent.self = w.agents
  id : agent.m_AgentId = agId
  usable : agent.Usable w'
  entered : w'.AllAgents = w.AllAgents.insertIfNew agId (some agent)
  mobility : ∀ node ∈ w.mobility, node ∈ w'.mobility
  agents : w'.agents = w.agents + 1
  callbacks : w'.callbacks = w.callbacks ++
    [{ socket := w.sockets, receiver := w.agents, id := agId, address := agent.iic.head? }]

theorem addAgent_added {W : Ns3} (hW : W.Documented) (agId : StdString) (w : World) :
    ∃ agent w', addAgent W agId w = .ok () w' ∧ Added w agId agent w' := by
  obtain ⟨agent, w₁, hinit, hset⟩ := Agent.init_setUp hW
    { w with agents := w.agents + 1 } { self := w.agents, m_AgentId := agId }
  refine ⟨agent, { w₁ with AllAgents := w₁.AllAgents.insertIfNew agId (some agent) }, ?_, ?_⟩
  · simp only [addAgent, createAgent, bind_assoc, get_bind_apply, set_bind_apply, pure_bind_apply,
      Agent.virtualInit]
    rw [bind_ok hinit]
    rfl
  · exact
      { self := hset.self
        id := hset.id
        usable := hset.usable.mono fun _ h => h
        entered := by rw [hset.frame.agents]
        mobility := hset.frame.mobility
        agents := hset.agents
        callbacks := hset.callbacks }

end AgentsInfoHandler

namespace AllLocationHandler

/-- One entry of `all_locations` moves nothing but the agent named, which must have a
mobility model if it is there. -/
theorem moveAgent_eq_ok {loc : StdString × DPoint} {w w' : World} {u : Unit}
    (h : moveAgent loc w = .ok u w') :
    (∀ agent, w.AllAgents[loc.1]? = some (some agent) → agent.Movable w) ∧
      ∃ mobility : Std.TreeMap Nat Vector, (∀ node, node ∈ mobility ↔ node ∈ w.mobility) ∧
        w' = { w with mobility := mobility } := by
  rw [moveAgent, get_bind_apply] at h
  match hslot : w.AllAgents[loc.1]? with
  | none =>
    simp only [hslot] at h
    cases h
    exact ⟨by simp, w.mobility, fun _ => Iff.rfl, rfl⟩
  | some none =>
    simp only [hslot] at h
    cases h
    exact ⟨by simp, w.mobility, fun _ => Iff.rfl, rfl⟩
  | some (some agent) =>
    simp only [hslot] at h
    obtain ⟨node, hnode, hmem, rfl⟩ := Agent.SetPosition_eq_ok.mp h
    refine ⟨?_, _, ?_, rfl⟩
    · intro other hother
      cases hother
      exact ⟨node, hnode, hmem⟩
    · intro other
      rw [Std.TreeMap.mem_insert]
      constructor
      · rintro (hother | hother)
        · obtain rfl := Std.LawfulEqCmp.compare_eq_iff_eq.mp hother
          exact hmem
        · exact hother
      · exact .inr

theorem moveAgent_ok {loc : StdString × DPoint} {w : World}
    (h : ∀ agent, w.AllAgents[loc.1]? = some (some agent) → agent.Movable w) :
    ∃ w', moveAgent loc w = .ok () w' := by
  rw [moveAgent, get_bind_apply]
  match hslot : w.AllAgents[loc.1]? with
  | none => exact ⟨w, by simp⟩
  | some none => exact ⟨w, by simp⟩
  | some (some agent) =>
    obtain ⟨node, hnode, hmem⟩ := h agent hslot
    exact ⟨_, Agent.SetPosition_eq_ok.mpr ⟨node, hnode, hmem, rfl⟩⟩

theorem moveAgent_frame (w : World) (loc : StdString × DPoint) :
    Keeps w.Frame (moveAgent loc) := by
  intro w₁ hw
  rw [moveAgent, get_bind_apply]
  cases w₁.AllAgents[loc.1]? with
  | none => exact hw
  | some x =>
    cases x with
    | none => exact hw
    | some agent => exact Agent.SetPosition_frame w agent _ w₁ hw

end AllLocationHandler

namespace OpaqueSendHandler

/-- A routed message has strings only, so it is written. -/
theorem write_routed (J : Jsoncpp) (writer : JsonSingleLineWriter)
    (fromId data toId : StdString) :
    ∃ packet, writer.write J (opaqueReceive fromId data toId) = .ok packet := ⟨_, rfl⟩

section Recipient

variable {W : Ns3} {J : Jsoncpp} {osMsg : OpaqueSendMessage} {sending_agent : Agent}
  {toId : StdString} {w : World}

/-- A recipient without an agent is looked up and skipped. -/
theorem sendToRecipient_none (h : w.AllAgents[toId]?.getD none = none) :
    sendToRecipient W J osMsg sending_agent toId w = .ok () (Agent.touch w toId) := by
  rw [sendToRecipient, bind_ok (Agent.getAgent_apply toId w), h]
  rfl

/-- A recipient with an agent is sent one packet. -/
theorem sendToRecipient_some {receiving_agent : Agent} {w' : World} {u : Unit}
    (h : w.AllAgents[toId]? = some (some receiving_agent)) :
    sendToRecipient W J osMsg sending_agent toId w = .ok u w' ↔
      ∃ packet r, ({ appendNewline := !NEW_BUNDLES } : JsonSingleLineWriter).write J
          (opaqueReceive osMsg.fromId osMsg.data toId) = .ok packet ∧
        sending_agent.SendTo W (some receiving_agent) packet w = .ok r w' := by
  rw [sendToRecipient, bind_ok (Agent.getAgent_apply toId w), Agent.touch_of_mem h, h]
  simp only [Option.getD_some, eval_bind_eq_ok]
  constructor
  · rintro ⟨packet, hwrite, hsend⟩
    obtain ⟨r, t, hsend, hrest⟩ := bind_eq_ok hsend
    cases hrest
    exact ⟨packet, r, hwrite, hsend⟩
  · rintro ⟨packet, r, hwrite, hsend⟩
    exact ⟨packet, hwrite, bind_ok hsend _⟩

/-- It is served exactly when it can be reached. -/
theorem sendToRecipient_returns_iff {receiving_agent : Agent}
    (h : w.AllAgents[toId]? = some (some receiving_agent)) :
    (∃ w', sendToRecipient W J osMsg sending_agent toId w = .ok () w') ↔
      sending_agent.CanReach receiving_agent := by
  constructor
  · rintro ⟨w', hrun⟩
    obtain ⟨packet, r, -, hsend⟩ := (sendToRecipient_some h).mp hrun
    exact Agent.canReach_of_SendTo hsend
  · intro hreach
    obtain ⟨packet, hwrite⟩ := write_routed J { appendNewline := !NEW_BUNDLES } osMsg.fromId
      osMsg.data toId
    obtain ⟨r, w', hsend⟩ : ∃ r w', sending_agent.SendTo W (some receiving_agent) packet w =
        .ok r w' := Agent.SendTo_ok hreach
    exact ⟨w', (sendToRecipient_some h).mpr ⟨packet, r, hwrite, hsend⟩⟩

theorem sendToRecipient_agents {receiving_agent : Agent} {w' : World} {u : Unit}
    (h : w.AllAgents[toId]? = some (some receiving_agent))
    (hrun : sendToRecipient W J osMsg sending_agent toId w = .ok u w') :
    w'.AllAgents = w.AllAgents := by
  obtain ⟨packet, r, -, hsend⟩ := (sendToRecipient_some h).mp hrun
  exact ((Agent.SendTo_frame W w sending_agent _ packet).ok (World.Frame.refl w) hsend).agents

end Recipient

/-- A slot that does not read as null has an agent. -/
theorem some_of_getD {w : World} {toId : StdString} {agent : Agent}
    (h : w.AllAgents[toId]?.getD none = some agent) :
    w.AllAgents[toId]? = some (some agent) := by
  cases hslot : w.AllAgents[toId]? with
  | none =>
    rw [hslot] at h
    cases h
  | some x =>
    rw [hslot, Option.getD_some] at h
    rw [h]

/-- The body of the loop keeps what looking the recipient up and sending keep. -/
theorem sendToRecipient_keeps {W : Ns3} {J : Jsoncpp} {I : World → Prop}
    (osMsg : OpaqueSendMessage) (sending_agent : Agent) (toId : StdString)
    (hget : Keeps I (Agent.getAgent toId))
    (hsend : ∀ receiving_agent packet,
      ({ appendNewline := !NEW_BUNDLES } : JsonSingleLineWriter).write J
          (opaqueReceive osMsg.fromId osMsg.data toId) = .ok packet →
        Keeps I (sending_agent.SendTo W (some receiving_agent) packet)) :
    Keeps I (sendToRecipient W J osMsg sending_agent toId) := by
  refine hget.bind fun agent => ?_
  cases agent with
  | none => exact Keeps.pure _
  | some receiving_agent =>
    obtain ⟨packet, hwrite⟩ := write_routed J { appendNewline := !NEW_BUNDLES } osMsg.fromId
      osMsg.data toId
    simp only [hwrite, eval_ok, pure_bind_apply]
    exact (hsend receiving_agent packet hwrite).bind fun _ => Keeps.pure _

end OpaqueSendHandler

/-! ## Messages and steps -/

/-- One message of a bundle. -/
structure Received where
  messages : MessageConglomerate
  msgNumber : Int

/-- The world after a message, if its handler returns. -/
def handled (W : Ns3) (J : Jsoncpp) (w : World) (m : Received) : Option World :=
  returned (handleMessage W J m.messages m.msgNumber w)

/-- What a message asks for. -/
inductive Request where
  | newAgents (aInfo : AgentsInfoMessage)
  | allLocations (aInfo : AllLocationsMessage)
  | opaqueSend (osMsg : OpaqueSendMessage)

namespace Request

/-- The message has the type of the request and its parser returns it. -/
def Parses (J : Jsoncpp) (m : Received) : Request → Prop
  | .newAgents aInfo =>
    m.messages.getBaseMessage m.msgNumber = .ok { msg_type := str "new_agents" } ∧
      JsonParser.parseNewAgents J m.messages m.msgNumber = .ok aInfo
  | .allLocations aInfo =>
    m.messages.getBaseMessage m.msgNumber = .ok { msg_type := str "all_locations" } ∧
      JsonParser.parseAllLocations J m.messages m.msgNumber = .ok aInfo
  | .opaqueSend osMsg =>
    m.messages.getBaseMessage m.msgNumber = .ok { msg_type := str "opaque_send" } ∧
      JsonParser.parseOpaqueSend J m.messages m.msgNumber = .ok osMsg

/-- What the handler does once the message is parsed. -/
def act (W : Ns3) (J : Jsoncpp) : Request → Call World Unit
  | .newAgents aInfo => do
    forEach (AgentsInfoHandler.addAgent W) aInfo.addAgentIds
    forEach Agent.RemoveAgent aInfo.remAgentIds
  | .allLocations aInfo => forEach AllLocationHandler.moveAgent aInfo.agentLocations.toList
  | .opaqueSend osMsg => do
    match ← Agent.getAgent osMsg.fromId with
    | none => pure ()
    | some sending_agent =>
      forEach (OpaqueSendHandler.sendToRecipient W J osMsg sending_agent) osMsg.toIds

theorem handleMessage_of_handler {W : Ns3} {J : Jsoncpp} {m : Received} {base : MessageBase}
    {handler : Handler} (hbase : m.messages.getBaseMessage m.msgNumber = .ok base)
    (hhandler : HandlerLookup.getHandler base.msg_type = .ok handler) :
    handleMessage W J m.messages m.msgNumber = handler.handle W J m.messages m.msgNumber := by
  rw [handleMessage, hbase, eval_ok, pure_bind_apply, hhandler, eval_ok, pure_bind_apply]

theorem Parses.handleMessage {J : Jsoncpp} {m : Received} {request : Request}
    (h : request.Parses J m) (W : Ns3) :
    handleMessage W J m.messages m.msgNumber = request.act W J := by
  cases request with
  | newAgents aInfo =>
    rw [handleMessage_of_handler h.1 rfl, Handler.handle, AgentsInfoHandler.handle, h.2, eval_ok,
      pure_bind_apply, act]
  | allLocations aInfo =>
    rw [handleMessage_of_handler h.1 rfl, Handler.handle, AllLocationHandler.handle, h.2, eval_ok,
      pure_bind_apply, act]
  | opaqueSend osMsg =>
    rw [handleMessage_of_handler h.1 rfl, Handler.handle, OpaqueSendHandler.handle, h.2, eval_ok,
      pure_bind_apply]
    rfl

end Request

/-- A message whose handler can parse it. -/
structure WellFormedMessage (J : Jsoncpp) extends Received where
  request : Request
  parses : request.Parses J toReceived

theorem WellFormedMessage.handled_eq {W : Ns3} {J : Jsoncpp} (m : WellFormedMessage J) (w : World) :
    handled W J w m.toReceived = returned (m.request.act W J w) := by
  rw [handled, m.parses.handleMessage W]

end Sm4ns3
