import Sm4ns3.Agent

/-!
# Message handlers

`HandlerLookup` finds the handler of a message type. A handler parses the
message itself and acts on the agents.
-/

namespace Sm4ns3

open Bytes Cpp Call

inductive Handler where
  | AllLocationHandler
  | AgentsInfoHandler
  | NullHandler
  | OpaqueSendHandler
  | InvalidHandler
  deriving DecidableEq, Repr

namespace HandlerLookup

def HandlerMap : List (StdString × Handler) :=
  [ (str "all_locations", .AllLocationHandler)
  , (str "new_agents", .AgentsInfoHandler)
  , (str "ticked_simmob", .NullHandler)
  , (str "opaque_send", .OpaqueSendHandler)
  , (str "MULTICAST", .InvalidHandler)
  , (str "UNICAST", .InvalidHandler) ]

def getHandler (msgType : StdString) : Except Fault Handler :=
  match HandlerMap.lookup msgType with
  | some handler => .ok handler
  | none => .error (.exception "Unknown handler for message type.")

end HandlerLookup

section Handle

variable (W : Ns3) (J : Jsoncpp) (messages : MessageConglomerate) (msgNumber : Int)

namespace AgentsInfoHandler

/-- An agent of the plain class, initialised whether or not it can be entered. -/
def addAgent (agId : StdString) : Call World Unit := do
  let agent ← createAgent agId none
  let agent ← agent.virtualInit W none
  Agent.AddAgent agId agent

def handle : Call World Unit := do
  let aInfo ← eval (JsonParser.parseNewAgents J messages msgNumber)
  forEach (addAgent W) aInfo.addAgentIds
  forEach Agent.RemoveAgent aInfo.remAgentIds

end AgentsInfoHandler

namespace AllLocationHandler

/-- Ids that are unknown or have no agent are skipped. -/
def moveAgent (loc : StdString × DPoint) : Call World Unit := do
  let w ← get
  match w.AllAgents[loc.1]? with
  | none => pure ()
  | some none => pure ()
  | some (some agent) => agent.SetPosition { x := loc.2.x, y := loc.2.y, z := ⟨0⟩ }

def handle : Call World Unit := do
  let aInfo ← eval (JsonParser.parseAllLocations J messages msgNumber)
  forEach moveAgent aInfo.agentLocations.toList

end AllLocationHandler

namespace OpaqueSendHandler

/-- The message routed through ns-3. -/
def opaqueReceive (fromId data toId : StdString) : Json :=
  (((Json.null.set (str "msg_type") (.string (str "opaque_receive"))).set
    (str "from_id") (.string fromId)).set
    (str "data") (.string data)).set
    (str "to_id") (.string toId)

/-- The body of the loop over the recipients. -/
def sendToRecipient (osMsg : OpaqueSendMessage) (sending_agent : Agent) (toId : StdString) :
    Call World Unit := do
  match ← Agent.getAgent toId with
  | none => pure ()
  | some receiving_agent =>
    let writer : JsonSingleLineWriter := { appendNewline := !NEW_BUNDLES }
    let packet ← eval (writer.write J (opaqueReceive osMsg.fromId osMsg.data toId))
    let _ ← Agent.SendTo W sending_agent (some receiving_agent) packet

def handle : Call World Unit := do
  let osMsg ← eval (JsonParser.parseOpaqueSend J messages msgNumber)
  match ← Agent.getAgent osMsg.fromId with
  | none => pure ()
  | some sending_agent => forEach (sendToRecipient W J osMsg sending_agent) osMsg.toIds

end OpaqueSendHandler

/-- The virtual call `handler->handle(messages, msgNumber, broker)`. -/
def Handler.handle : Handler → Call World Unit
  | .AllLocationHandler => AllLocationHandler.handle J messages msgNumber
  | .AgentsInfoHandler => AgentsInfoHandler.handle W J messages msgNumber
  | .NullHandler => pure ()
  | .OpaqueSendHandler => OpaqueSendHandler.handle W J messages msgNumber
  | .InvalidHandler => raise ("Attempting to use an invalid message (probably MULTICAST or " ++
      "UNICAST, which were replaced with OPAQUE_SEND and OPAQUE_RECEIVE).")

/-- Find the handler of one message and let it act. -/
def handleMessage : Call World Unit := do
  let base ← eval (messages.getBaseMessage msgNumber)
  let handler ← eval (HandlerLookup.getHandler base.msg_type)
  handler.handle W J messages msgNumber

end Handle

end Sm4ns3
