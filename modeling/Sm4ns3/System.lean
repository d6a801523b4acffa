import Sm4ns3.Broker

/-!
# The program and its surroundings

The network thread completes the read that is under way as soon as its octets
are there, and runs its handler. The simulator thread calls `pause`, which spins
until it has run a round, and between two calls delivers packets to the sockets
of the agents. Sim Mobility sends octets, in pieces of any size, and may close
its end. A `System` takes these steps in any order.

A handler that throws on the network thread ends the program, and so does one
that throws in `pause`: no state follows.
-/

namespace Sm4ns3

open Bytes Cpp Call

/-! ## Reads that complete -/

namespace Session

/-- How many octets the read under way waits for. -/
def awaited (s : Session) : Option Nat :=
  match s.pending with
  | [] => none
  | .header :: _ => some header_length
  | .data :: _ => some s.inbound_data_.length

/-- The read under way completes. -/
def complete : Call Session Progress := do
  match (← get).pending with
  | .data :: _ => completeData
  | _ => completeHeader

end Session

namespace Broker

/-- The read under way completes and its handler runs, which starts to read a body or
calls `Connection::readHandler`. Header and body are read into the connection. -/
def completeRead (J : Jsoncpp) : Call Broker Unit := do
  match ← onConn (Connection.session Session.complete) with
  | .reading h => modify fun b => { b with conn := { b.conn with incomingHeader := h } }
  | .called e h t =>
    modify fun b => { b with conn := { b.conn with
      incomingHeader := h.getD b.conn.incomingHeader
      incomingMessage := t.getD b.conn.incomingMessage } }
    readHandler J e

/-- The receive callback of a socket runs `Agent::ReceivePacket` of its agent. -/
def receivePackets (J : Jsoncpp) (callback : RecvCallback) (packets : List StdString) :
    Call Broker Unit := do
  if (← get).world.holds callback then
    onOutgoing (Agent.ReceivePacket J packets)
  else
    undefined .danglingPointer

/-- Octets that Sim Mobility sent have arrived at the socket. -/
def arrived (b : Broker) (octets : StdString) : Broker :=
  { b with conn := { b.conn with
    m_session := b.conn.m_session.map fun s => { s with input := s.input ++ octets } } }

end Broker

/-! ## Steps -/

structure System where
  broker : Broker
  /-- Sim Mobility has closed its end of the connection -/
  closed : Bool := false
  /-- the simulator is inside `pause` -/
  pausing : Bool := false

/-- What can happen next. -/
inductive Action where
  /-- Sim Mobility sends octets -/
  | send (octets : StdString)
  /-- Sim Mobility closes its end -/
  | close
  /-- the read under way completes -/
  | complete
  /-- one iteration of the loop in `pause` -/
  | pause
  /-- ns-3 delivers packets to the socket with this callback -/
  | deliver (callback : RecvCallback) (packets : List StdString)

namespace System

variable (W : Ns3) (J : Jsoncpp)

/-- The read under way has its octets, or will not get them any more. -/
def readable (s : System) : Bool :=
  match s.broker.conn.m_session with
  | none => false
  | some session =>
    match session.awaited with
    | none => false
    | some n => n ≤ session.input.length || s.closed

/-- ns-3 delivers what was sent to the address of a socket, in any order; a packet may also be
lost or delivered twice. -/
def onTheWay (s : System) (callback : RecvCallback) (packets : List StdString) : Bool :=
  s.broker.world.callbacks.contains callback && !packets.isEmpty &&
    packets.all fun packet => s.broker.world.sent.any fun sent =>
      sent.packet == packet && callback.address == some sent.remote

def step (s : System) : Action → Option System
  | .send octets =>
    if s.closed then none else some { s with broker := s.broker.arrived octets }
  | .close => some { s with closed := true }
  | .complete =>
    if s.readable then
      (returned (s.broker.completeRead J)).map fun b => { s with broker := b }
    else none
  | .pause =>
    -- the loop goes on while `m_pause` is set
    (Broker.step W J s.broker .pause).map fun b =>
      { s with broker := b, pausing := s.broker.m_pause }
  | .deliver callback packets =>
    if s.pausing || !s.onTheWay callback packets then none
    else
      (returned (s.broker.receivePackets J callback packets)).map fun b => { s with broker := b }

end System
end Sm4ns3
