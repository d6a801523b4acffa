import Sm4ns3.Message.Handlers
import Sm4ns3.Network.Connection

/-!
# The broker

The network thread delivers bundles to `onMessageReceived`; the simulation
thread spins in `pause` until `m_pause` is cleared and then runs one round:
handle the queue, send what the agents posted, send `ticked_client`. Both hold
`mutex_pause`, so a delivery and an iteration of `pause` are single steps here.
-/

namespace Sm4ns3

open Bytes Cpp Call

/-! ## `ThreadSafeQueue` -/

structure ThreadSafeQueue (T : Type) where
  messageList : List T := []
  deriving DecidableEq

namespace ThreadSafeQueue

variable {T : Type}

def push (q : ThreadSafeQueue T) (item : T) : ThreadSafeQueue T :=
  { messageList := q.messageList ++ [item] }

end ThreadSafeQueue

/-! ## State -/

/-- What happened to a broker. -/
inductive Event where
  /-- `processIncoming` took a bundle from the queue -/
  | popped (conglom : MessageConglomerate)
  /-- a JSON message was appended to `m_outgoing` -/
  | posted (json : Json)
  /-- `sendOutgoing` sent a bundle -/
  | outgoing (header : BundleHeader) (body : StdString)
  /-- `pause` sent the `ticked_client` bundle, with the queue as it then was -/
  | ticked (queued : List MessageConglomerate)
  deriving DecidableEq

structure Broker where
  conn : Connection := {}
  m_pause : Bool := true
  m_incoming : ThreadSafeQueue MessageConglomerate := {}
  m_outgoing : OngoingSerialization := {}
  m_global_tick : UInt32 := 0
  world : World := {}
  /-- the number of calls of `pause` that the simulator still has to make -/
  scheduled : Nat := 0
  /-- history, read by no part of the program -/
  trace : List Event := []

/-- `0`, ..., `getCount() - 1` -/
def MessageConglomerate.messageNumbers (c : MessageConglomerate) : List Int :=
  (List.range (c.getCount NEW_BUNDLES).toNat).map Int.ofNat

namespace Broker

/-- The constructor. -/
def make : Broker := { m_outgoing := JsonParser.serialize_begin_default {} }

def record (e : Event) : Call Broker Unit := modify fun b => { b with trace := b.trace ++ [e] }

/-- A call on the connection. -/
def onConn {α : Type} (x : Call Connection α) : Call Broker α :=
  zoom Broker.conn (fun b conn => { b with conn := conn }) x

/-- A call on the agents. -/
def onWorld {α : Type} (x : Call World α) : Call Broker α :=
  zoom Broker.world (fun b world => { b with world := world }) x

/-- A call on the outgoing serialization. -/
def onOutgoing {α : Type} (x : Call OngoingSerialization α) : Call Broker α :=
  zoom Broker.m_outgoing (fun b m_outgoing => { b with m_outgoing := m_outgoing }) x

section Network

variable (J : Jsoncpp)

/-! ## The network thread -/

/-- Whether one of the messages with these numbers is the tick. -/
def containsTick (temp : MessageConglomerate) : List Int → Except Fault Bool
  | [] => .ok false
  | i :: rest => do
    let base ← temp.getBaseMessage i
    if base.msg_type = str "ticked_simmob" then
      return true
    else
      containsTick temp rest

/-- The result says whether the bundle has a tick in it. -/
def parsePacket (header : BundleHeader) (input : StdString) : Call Broker Bool := do
  if input.isEmpty then
    return true
  else
    match JsonParser.deserialize J NEW_BUNDLES header input {} with
    | .error e _ => throw e
    | .ok false _ => return false
    | .ok true temp =>
      let res ← eval (containsTick temp temp.messageNumbers)
      modify fun b => { b with m_incoming := b.m_incoming.push temp }
      return res

def onMessageReceived (header : BundleHeader) (input : StdString) : Call Broker Unit := do
  -- a packet that cannot be parsed is only reported
  let _ ← parsePacket J header input
  modify fun b => { b with m_pause := false }

/-- `Connection::readHandler` -/
def readHandler (e : ErrorCode) : Call Broker Unit := do
  if e ≠ .success && e.message ≠ "End of file" then
    pure ()
  else
    if e ≠ .success then
      onConn (Connection.session (modify Session.closeSocket))
    let conn := (← get).conn
    onMessageReceived J conn.incomingHeader conn.incomingMessage
    onConn Connection.async_receive

end Network

/-! ## The simulation thread -/

section Simulation

variable (W : Ns3) (J : Jsoncpp)

/-- Handle the messages of one bundle. -/
def handleConglomerate (conglom : MessageConglomerate) : Call World Unit :=
  forEach (handleMessage W J conglom) conglom.messageNumbers

/-- Pop and handle bundles. No handler can reach the queue, so the loop ends after
the bundles that were queued when it started. -/
def processQueue : List MessageConglomerate → Call Broker Unit
  | [] => pure ()
  | conglom :: rest => do
    modify fun b => { b with m_incoming := { messageList := rest } }
    record (.popped conglom)
    onWorld (handleConglomerate W J conglom)
    processQueue rest

def processIncoming : Call Broker Unit := do
  processQueue W J (← get).m_incoming.messageList

def sendOutgoing : Call Broker Unit := do
  match ← eval (JsonParser.serialize_end J NEW_BUNDLES (← get).m_outgoing) with
  | none => pure ()
  | some (head, msg) =>
    let _ ← onConn (Connection.send head msg)
    record (.outgoing head msg)
    modify fun b => { b with m_outgoing := JsonParser.serialize_begin_default b.m_outgoing }

/-- The bundle that tells Sim Mobility that the tick is done. -/
def tickedClientBundle : Except Fault (BundleHeader × StdString) := do
  let res ← JsonParser.makeTickedClient J NEW_BUNDLES (JsonParser.serialize_begin_default {})
  return (← JsonParser.serialize_end J NEW_BUNDLES res).getD ({}, [])

def sendTickedClient : Call Broker Unit := do
  let (resHeader, resMsg) ← eval (tickedClientBundle J)
  let _ ← onConn (Connection.send resHeader resMsg)
  record (.ticked (← get).m_incoming.messageList)

/-- One iteration of the loop in `pause`; the result says whether the loop ends. -/
def pause : Call Broker Bool := do
  let b ← get
  if b.m_pause then
    return false
  else
    set { b with m_pause := true, scheduled := b.scheduled - 1 }
    if !(← onConn Connection.isOpen) then
      return true
    else
      processIncoming W J
      sendOutgoing J
      sendTickedClient J
      modify fun b => { b with
        scheduled := b.scheduled + 1, m_global_tick := b.m_global_tick + 1 }
      return true

/-- `JsonParser::makeUnknownJSON(broker->getOutgoing(), json)` -/
def post (json : Json) : Call Broker Unit := do
  let m_outgoing ← eval (JsonParser.makeUnknownJSON J NEW_BUNDLES (← get).m_outgoing json)
  modify fun b => { b with m_outgoing := m_outgoing }
  record (.posted json)

end Simulation

/-! ## Runs -/

/-- One atomic step of the two threads. -/
inductive Step where
  /-- a bundle arrives -/
  | arrive (header : BundleHeader) (input : StdString)
  /-- one iteration of the loop in `pause` -/
  | pause
  /-- an agent appends a message to `m_outgoing` -/
  | post (json : Json)

/-- A step of the program. An arrival may throw: the lock is released and the
program state stays as it is when the exception leaves. A `pause` must be
scheduled, and its handlers return. -/
def step (W : Ns3) (J : Jsoncpp) (b : Broker) : Step → Option Broker
  | .arrive header input =>
    match onMessageReceived J header input b with
    | .ok _ b' => some b'
    | .error (.exception _) b' => some b'
    | .error (.undefined _) _ => none
  | .pause => if b.scheduled = 0 then none else returned (Broker.pause W J b)
  | .post json => returned (Broker.post J json b)

end Broker
end Sm4ns3
