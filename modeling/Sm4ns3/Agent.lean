import Sm4ns3.Message.Messages

/-!
# Agents

`Agent::AllAgents` maps ids to agents, possibly null. An agent owns a node, a
socket and the addresses of the node once `init` (or, in the trace program,
`initSocket`) has run. `World` is the state the agents share: the registry, the
ns-3 objects made so far, and what was sent.

ns-3 is not part of the repository. `Ns3` lists what the program asks of its
helpers and `Ns3.Documented` what their documentation promises; nodes, sockets
and devices are known by number.
-/

namespace Sm4ns3

open Bytes Cpp Call

/-- `ns3::Vector` -/
structure Vector where
  x : Double
  y : Double
  z : Double
  deriving DecidableEq, Repr

structure Ns3 where
  /-- `WifiHelper::Install`: the devices put on the nodes -/
  Install : List Nat → List Nat
  /-- `Ipv4AddressHelper::Assign`: the interfaces of the devices -/
  Assign : List Nat → List Nat
  /-- where `MobilityHelper::Install` puts a node -/
  initialPosition : Nat → Vector
  /-- the result of `Socket::Send` -/
  Send : StdString → Int

/-- One device for each node, one interface for each device. -/
structure Ns3.Documented (W : Ns3) : Prop where
  install : ∀ nodes, (W.Install nodes).length = nodes.length
  assign : ∀ devices, (W.Assign devices).length = devices.length

/-- An instance: a device and an interface have the number of their node. -/
def Ns3.reference : Ns3 where
  Install := id
  Assign := id
  initialPosition _ := { x := ⟨0⟩, y := ⟨0⟩, z := ⟨0⟩ }
  Send packet := packet.length

theorem Ns3.reference_documented : Ns3.reference.Documented where
  install _ := rfl
  assign _ := rfl

inductive AgentRole where
  | WFD_GO
  | WFD_CLIENT
  deriving DecidableEq, Repr

/-- The fields a `WFD_Agent` adds; `none` is an unset one. -/
structure WFD_Fields where
  m_wfd_node : Option Nat := none
  role : Option AgentRole := none
  groupId : Option Nat := none
  deriving DecidableEq, Repr

structure Agent where
  /-- which object this is -/
  self : Nat
  m_AgentId : StdString
  m_node : Option Nat := none
  nc : List Nat := []
  ndc : List Nat := []
  iic : List Nat := []
  m_socket : Option Nat := none
  m_isa : Option Nat := none
  /-- set for a `WFD_Agent` -/
  wfd : Option WFD_Fields := none
  deriving DecidableEq, Repr

/-- `socket->SetRecvCallback(MakeCallback(&Agent::ReceivePacket, this))` -/
structure RecvCallback where
  socket : Nat
  receiver : Nat
  id : StdString
  /-- the address that `Bind` binds the socket to -/
  address : Option Nat
  deriving DecidableEq, Repr

/-- A packet handed to a socket: by which agent, to which one, at which address. -/
structure Sent where
  sender : StdString
  socket : Nat
  recipient : StdString
  remote : Nat
  packet : StdString
  deriving DecidableEq, Repr

structure World where
  AllAgents : Std.TreeMap StdString (Option Agent) := {}
  /-- the next agent, node and socket -/
  agents : Nat := 0
  nodes : Nat := 0
  sockets : Nat := 0
  /-- the position of each node that has a mobility model -/
  mobility : Std.TreeMap Nat Vector := {}
  callbacks : List RecvCallback := []
  wfd_nc : List Nat := []
  wfd_go_nc : Std.TreeMap Nat (List Nat) := {}
  wfd_go_ndc : Std.TreeMap Nat (List Nat) := {}
  wfd_cln_nc : Std.TreeMap Nat (List Nat) := {}
  wfd_cln_ndc : Std.TreeMap Nat (List Nat) := {}
  /-- the nodes that `wfd_internet` was installed on -/
  wfd_stack : List Nat := []
  /-- the interfaces that `wfd_ipAddrs` assigned to each group -/
  wfd_addresses : Std.TreeMap Nat (List Nat) := {}
  global_pckt_cnt : UInt32 := 0
  sent : List Sent := []

/-! ## ns-3 objects -/

/-- `ns3::CreateObject<Agent>(id, broker)` -/
def createAgent (m_AgentId : StdString) (wfd : Option WFD_Fields) : Call World Agent := do
  let w ← get
  set { w with agents := w.agents + 1 }
  return { self := w.agents, m_AgentId := m_AgentId, wfd := wfd }

/-- `ns3::CreateObject<ns3::Node>()` -/
def createNode : Call World Nat := do
  let w ← get
  set { w with nodes := w.nodes + 1 }
  return w.nodes

/-- `ns3::Socket::CreateSocket(node, tid)` with the receive callback of `agent`. -/
def createSocket (node : Option Nat) (agent : Agent) : Call World Nat := do
  match node with
  | none => undefined .nullPointer
  | some _ =>
    let w ← get
    let callback : RecvCallback :=
      { socket := w.sockets, receiver := agent.self, id := agent.m_AgentId
        address := agent.iic.head? }
    set { w with sockets := w.sockets + 1, callbacks := w.callbacks ++ [callback] }
    return w.sockets

/-- `MobilityHelper::Install` -/
def installMobility (W : Ns3) (nodes : List Nat) : Call World Unit :=
  modify fun w => { w with
    mobility := nodes.foldl (fun m node => m.insert node (W.initialPosition node)) w.mobility }

namespace Agent

/-! ## The registry -/

/-- `AllAgents[agId]`: an unknown id is entered with a null agent. -/
def getAgent (agId : StdString) : Call World (Option Agent) := do
  let w ← get
  match w.AllAgents[agId]? with
  | some agent => return agent
  | none =>
    set { w with AllAgents := w.AllAgents.insert agId none }
    return none

/-- `AllAgents.insert(...)`: an entry that exists stays as it is. -/
def AddAgent (agId : StdString) (ag : Agent) : Call World Unit :=
  modify fun w => { w with AllAgents := w.AllAgents.insertIfNew agId (some ag) }

def RemoveAgent (agId : StdString) : Call World Unit := do
  let w ← get
  match w.AllAgents[agId]? with
  | none => pure ()
  | some none => undefined .nullPointer
  | some (some _) => set { w with AllAgents := w.AllAgents.erase agId }

/-- The world in which an unknown id has been looked up. -/
def touch (w : World) (agId : StdString) : World :=
  match w.AllAgents[agId]? with
  | some _ => w
  | none => { w with AllAgents := w.AllAgents.insert agId none }

theorem getAgent_apply (agId : StdString) (w : World) :
    getAgent agId w = .ok (w.AllAgents[agId]?.getD none) (touch w agId) := by
  rw [getAgent, get_bind_apply, touch]
  cases w.AllAgents[agId]? with
  | some agent => rfl
  | none => rfl

@[simp] theorem touch_sent (w : World) (agId : StdString) : (touch w agId).sent = w.sent := by
  unfold touch
  split <;> rfl

@[simp] theorem touch_global_pckt_cnt (w : World) (agId : StdString) :
    (touch w agId).global_pckt_cnt = w.global_pckt_cnt := by
  unfold touch
  split <;> rfl

@[simp] theorem touch_mobility (w : World) (agId : StdString) :
    (touch w agId).mobility = w.mobility := by
  unfold touch
  split <;> rfl

theorem touch_getElem? (w : World) (agId k : StdString) :
    (touch w agId).AllAgents[k]? =
      if k = agId then some (w.AllAgents[k]?.getD none) else w.AllAgents[k]? := by
  unfold touch
  by_cases hk : k = agId
  · subst hk
    cases hslot : w.AllAgents[k]? with
    | none => simp
    | some agent => simp [hslot]
  · cases hslot : w.AllAgents[agId]? with
    | none => simp [Std.TreeMap.getElem?_insert, Ne.symm hk, hk]
    | some agent => simp [hk]

theorem touch_of_mem {w : World} {agId : StdString} {agent : Option Agent}
    (h : w.AllAgents[agId]? = some agent) : touch w agId = w := by
  rw [touch, h]

/-! ## One agent -/

def GetAgentId (agent : Agent) : StdString := agent.m_AgentId

def GetAddress (agent : Agent) : Except Fault Nat :=
  match agent.iic with
  | address :: _ => .ok address
  | [] => .error (.undefined .outOfRange)

def SetPosition (agent : Agent) (value : Vector) : Call World Unit := do
  match agent.m_node with
  | none => undefined .nullPointer
  | some node =>
    let w ← get
    if w.mobility.contains node then
      set { w with mobility := w.mobility.insert node value }
    else
      undefined .nullPointer

/-- `m_socket->Bind(...)` with the agent's own address. -/
def Bind (agent : Agent) : Except Fault Agent := do
  let address ← agent.GetAddress
  throwIf agent.m_socket.isNone "Can't bind socket"
  return { agent with m_isa := some address }

def SendTo (W : Ns3) (sender : Agent) (agent : Option Agent) (packet : StdString) :
    Call World Int := do
  match agent with
  | none => return -1
  | some agent =>
    let remote ← eval agent.GetAddress
    match sender.m_socket with
    | none => undefined .nullPointer
    | some socket =>
      -- the log line reads the sender's own address
      let _ ← eval sender.GetAddress
      let send : Sent :=
        { sender := sender.m_AgentId, socket := socket, recipient := agent.GetAgentId
          remote := remote, packet := packet }
      modify fun w => { w with
        global_pckt_cnt := w.global_pckt_cnt + 1, sent := w.sent ++ [send] }
      return W.Send packet

/-- Used by the trace program, which makes the node and the address itself. -/
def initSocket (agent : Agent) : Call World Agent := do
  let socket ← createSocket agent.m_node agent
  eval { agent with m_socket := some socket, m_isa := none }.Bind

/-- `Agent::init` -/
def init (W : Ns3) (node : Option Nat) (agent : Agent) : Call World Agent := do
  let node ← match node with
    | some node => pure node
    | none => createNode
  let nc := agent.nc ++ [node]
  let ndc := W.Install nc
  installMobility W nc
  let iic := W.Assign ndc
  let m_node := nc.head?
  let agent := { agent with nc := nc, ndc := ndc, iic := iic, m_node := m_node, m_isa := none }
  let socket ← createSocket m_node agent
  eval { agent with m_socket := some socket }.Bind

end Agent

/-! ## WiFi-Direct agents -/

namespace WFD_Agent

/-- `AllAgents.begin()->second->GetAgentId()` -/
def firstAgentId (w : World) : Except Fault StdString :=
  match w.AllAgents.toList with
  | [] => .error (.undefined .endIterator)
  | (_, none) :: _ => .error (.undefined .nullPointer)
  | (_, some agent) :: _ => .ok agent.GetAgentId

/-- The group is always 0 and the first agent is its owner. -/
def figureOutGroup (agent : Agent) (wfd : WFD_Fields) : Call World WFD_Fields := do
  let first ← eval (firstAgentId (← get))
  return { wfd with
    groupId := some 0
    role := some (if agent.GetAgentId = first then .WFD_GO else .WFD_CLIENT) }

/-- `containers[groupId].Add(node)` -/
def addToGroup (containers : Std.TreeMap Nat (List Nat)) (groupId node : Nat) :
    Std.TreeMap Nat (List Nat) :=
  containers.insert groupId (containers[groupId]?.getD [] ++ [node])

/-- `WFD_Agent::init` -/
def init (node : Option Nat) (agent : Agent) (wfd : WFD_Fields) : Call World Agent := do
  let node ← match node with
    | some node => pure node
    | none => createNode
  let wfd ← figureOutGroup agent { wfd with m_wfd_node := some node }
  let groupId := wfd.groupId.getD 0
  let w ← get
  match wfd.role with
  | some .WFD_GO =>
    set { w with wfd_go_nc := addToGroup w.wfd_go_nc groupId node, wfd_nc := w.wfd_nc ++ [node] }
  | _ =>
    set { w with wfd_cln_nc := addToGroup w.wfd_cln_nc groupId node, wfd_nc := w.wfd_nc ++ [node] }
  return { agent with wfd := some wfd }

/-- The network of one group. The addresses go to the owner's device and then to the clients'. -/
def configGroup (W : Ns3) (groupId : Nat) : Call World Unit := do
  let w ← get
  let clients := w.wfd_cln_nc[groupId]?.getD []
  let owners := w.wfd_go_nc[groupId]?.getD []
  match owners with
  | [] => undefined .outOfRange
  | owner :: _ =>
    set { w with
      wfd_cln_nc := w.wfd_cln_nc.insert groupId clients
      wfd_cln_ndc := w.wfd_cln_ndc.insert groupId (W.Install clients)
      wfd_go_ndc := w.wfd_go_ndc.insert groupId (W.Install [owner])
      wfd_stack := w.wfd_stack ++ (owners ++ clients)
      wfd_addresses := w.wfd_addresses.insert groupId
        (W.Assign (W.Install [owner] ++ W.Install clients)) }
    installMobility W (owners ++ clients)

def configAll (W : Ns3) : Call World Unit := do
  let w ← get
  forEach (configGroup W) (List.range w.wfd_go_nc.size)

end WFD_Agent

/-- The virtual call `agent->init()`. -/
def Agent.virtualInit (W : Ns3) (node : Option Nat) (agent : Agent) : Call World Agent :=
  match agent.wfd with
  | none => agent.init W node
  | some wfd => WFD_Agent.init node agent wfd

/-! ## Packets from the network -/

/-- The members that are passed on to Sim Mobility. -/
def forwardedMembers : List StdString :=
  [ str "MESSAGE_TYPE", str "MESSAGE_CAT", str "SENDING_AGENT", str "MULTICAST_DATA"
  , str "RECEIVING_AGENT_ID", str "GLOBAL_PACKET_COUNT", str "TICK_SENT" ]

/-- The message to Sim Mobility about a packet with contents `j_msg`. -/
def forwarded (j_msg : Json) : Except Fault Json := do
  let outgoing ← forwardedMembers.foldlM
    (fun outgoing key => do return outgoing.set key (← j_msg.get key)) Json.null
  return (outgoing.set (str "SENDER") (.string (str "0"))).set
    (str "SENDER_TYPE") (.string (str "NS3_SIMULATOR"))

/-- One packet; an empty one and one that does not parse are dropped. -/
def receiveOne (J : Jsoncpp) (packet : StdString) : Call OngoingSerialization Unit := do
  if packet.isEmpty then
    pure ()
  else
    match JsonParser.parseJSON J packet with
    | none => pure ()
    | some j_msg =>
      let outgoing ← eval (forwarded j_msg)
      set (← eval (JsonParser.makeUnknownJSON J NEW_BUNDLES (← get) outgoing))

/-- `Agent::ReceivePacket` on a socket that holds `packets`; the state is the
broker's outgoing serialization. -/
def Agent.ReceivePacket (J : Jsoncpp) (packets : List StdString) :
    Call OngoingSerialization Unit :=
  forEach (receiveOne J) packets

/-- `AllAgents` holds the agent that the callback was made for. The callback itself keeps a
raw pointer: an agent that is removed, or that an existing entry kept out, is deleted. -/
def World.holds (w : World) (callback : RecvCallback) : Bool :=
  w.AllAgents.toList.any fun entry => entry.2.any fun agent => agent.self == callback.receiver

end Sm4ns3
