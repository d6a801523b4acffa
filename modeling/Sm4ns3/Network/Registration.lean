import Sm4ns3.Broker

/-!
# Registration

Before the simulation starts, the broker connects to Sim Mobility and reads three
bundles in order: a request for its id, the first agents, and an acknowledgement.
In between it answers, makes the agents and initialises them; the application
decides of which class they are, and a WiFi-Direct registration also forms the
groups.
-/

namespace Sm4ns3

open Bytes Cpp Call

/-- Sim Mobility as the broker meets it. -/
structure Peer where
  /-- whether the host is resolved and whether it answers, at each attempt to connect -/
  answers : Nat → Bool × Bool
  /-- the octets it sends during registration -/
  octets : StdString

namespace Registration

/-- At most `timeout` attempts to connect. -/
def doConnect (peer : Peer) : Nat → Nat → Call Broker Bool
  | 0, _ => return false
  | timeout + 1, sec => do
    let (resolved, connected) := peer.answers sec
    if ← Broker.onConn (Connection.connect resolved connected) then
      Broker.onConn
        (Connection.session (modify fun s => { s with input := s.input ++ peer.octets }))
      return true
    else
      doConnect peer timeout (sec + 1)

section Exchange

variable (J : Jsoncpp)

/-- Read a bundle with a single message of this type; `none` stands for the result
`false`. -/
def receiveSingle (expectedType : StdString) : Call Broker (Option MessageConglomerate) := do
  match ← Broker.onConn Connection.receive with
  | none => return none
  | some (head, text) =>
    match JsonParser.deserialize_single J NEW_BUNDLES head text expectedType {} with
    | .error e _ => throw e
    | .ok none _ => return none
    | .ok (some _) conglom => return some conglom

/-- End a bundle and send it. -/
def sendBundle (res : OngoingSerialization) : Call Broker Bool := do
  let (head, text) := (← eval (JsonParser.serialize_end J NEW_BUNDLES res)).getD ({}, [])
  Broker.onConn (Connection.send head text)

def doWhoAreYou : Call Broker Bool := do
  match ← receiveSingle J (str "id_request") with
  | none => return false
  | some conglom =>
    let props ← eval (conglom.getJsonMessage 0)
    raiseIf props.isNull "Can't deserialize binary id_request (in registration)."
    if !(← eval (props.isMember (str "token"))) then
      return false
    else
      let token ← eval (J.asString (← eval (props.get (str "token"))))
      let res ← eval
        (JsonParser.makeIdResponse J NEW_BUNDLES (JsonParser.serialize_begin_default {}) token)
      sendBundle J res

/-- Make one agent of the application's class. -/
def registerAgent (m_application agId : StdString) : Call World Unit := do
  if m_application = str "Default" then
    Agent.AddAgent agId (← createAgent agId none)
  else if m_application = str "stk" then
    Agent.AddAgent agId (← createAgent agId (some {}))
  else
    raise "Invalid m_application."

def doAGENTS_INFO (m_application : StdString) : Call Broker Bool := do
  match ← receiveSingle J (str "new_agents") with
  | none => return false
  | some conglom =>
    let props ← eval (conglom.getJsonMessage 0)
    raiseIf props.isNull "Can't deserialize binary new_agents (in registration)."
    let aInfo ← eval (JsonParser.parseNewAgents J conglom 0)
    if aInfo.addAgentIds.isEmpty then
      return false
    else
      Broker.onWorld (forEach (registerAgent m_application) aInfo.addAgentIds)
      return true

def doREADY : Call Broker Bool := do
  return (← receiveSingle J (str "id_ack")).isSome

end Exchange

section Initialization

variable (W : Ns3) (J : Jsoncpp)

/-- `it->second->init()` for the entry of one id. -/
def initAgent (agId : StdString) : Call World Unit := do
  match (← get).AllAgents[agId]? with
  | some (some agent) =>
    let agent ← agent.virtualInit W none
    modify fun w => { w with AllAgents := w.AllAgents.insert agId (some agent) }
  | _ => undefined .nullPointer

/-- Initialise every agent, in key order. -/
def initAgents : Call World Unit := do
  forEach (initAgent W) (← get).AllAgents.keys

def doInitialization : Call Broker Bool := do
  Broker.onWorld (initAgents W)
  return true

end Initialization

end Registration

/-- A WiFi-Direct registration of a broker. -/
structure WFD_Registration where
  broker : Broker
  WFD_Groups_ : Std.TreeMap StdString WFD_Group := {}
  /-- the group of each agent -/
  WFD_Membership : Std.TreeMap StdString StdString := {}

namespace WFD_Registration

/-- A call on the broker. -/
def onBroker {α : Type} (x : Call Broker α) : Call WFD_Registration α :=
  zoom broker (fun registration b => { registration with broker := b }) x

/-- A call on `new WFD_Registration(this)`. -/
def onNew {α : Type} (x : Call WFD_Registration α) : Call Broker α :=
  zoom (fun b => { broker := b }) (fun _ registration => registration.broker) x

/-- The id of an entry that is not null. -/
def agentId : StdString × Option Agent → Except Fault StdString
  | (_, some agent) => .ok agent.GetAgentId
  | (_, none) => .error (.undefined .nullPointer)

/-- One group of all agents, owned by the first. -/
def doRoleAssignment : Call WFD_Registration Bool := do
  let w := (← get).broker.world
  let GO ← eval (WFD_Agent.firstAgentId w)
  let members ← eval (w.AllAgents.toList.mapM agentId)
  modify fun registration => { registration with
    WFD_Membership := members.foldl (fun m agId => m.insert agId GO) registration.WFD_Membership
    WFD_Groups_ := registration.WFD_Groups_.insert GO
      { groupId := GO, GO := GO, members := members } }
  return true

def doInitialization (W : Ns3) (J : Jsoncpp) : Call WFD_Registration Bool := do
  if !(← doRoleAssignment) then
    return false
  else if !(← onBroker (Registration.doInitialization W)) then
    return false
  else
    let res ← eval (JsonParser.makeGoClient J NEW_BUNDLES (JsonParser.serialize_begin_default {})
      (← get).WFD_Groups_)
    if !(← onBroker (Registration.sendBundle J res)) then
      return false
    else
      onBroker (Broker.onWorld (WFD_Agent.configAll W))
      return true

end WFD_Registration

/-- `Registration::start`, with the application's name and its `doInitialization`. -/
def Registration.start (J : Jsoncpp) (peer : Peer) (m_application : StdString)
    (doInitialization : Call Broker Bool) : Call Broker Bool := do
  if !(← doConnect peer 200 0) then
    return false
  else if !(← doWhoAreYou J) then
    return false
  else if !(← doAGENTS_INFO J m_application) then
    return false
  else if !(← doInitialization) then
    return false
  else if !(← doREADY J) then
    return false
  else
    return true

namespace Broker

variable (W : Ns3) (J : Jsoncpp) (peer : Peer) (application : StdString)

/-- `registration->start()`, for the registration that the application takes. -/
def register : Call Broker Bool :=
  if application = str "Default" then
    Registration.start J peer (str "Default") (Registration.doInitialization W)
  else if application = str "stk" then
    Registration.start J peer (str "stk")
      (WFD_Registration.onNew (WFD_Registration.doInitialization W J))
  else
    raise "Unknown application."

/-- Register for an application, start to receive, and schedule the first round. -/
def start : Call Broker Bool := do
  modify fun b => { b with m_global_tick := 0 }
  if !(← register W J peer application) then
    return false
  else if !(← onConn Connection.isOpen) then
    return false
  else
    onConn Connection.async_receive
    if !(← onConn Connection.isOpen) then
      return false
    else
      modify fun b => { b with scheduled := b.scheduled + 1 }
      return true

end Broker
end Sm4ns3
