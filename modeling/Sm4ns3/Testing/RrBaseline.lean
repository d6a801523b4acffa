import Sm4ns3.Broker

/-!
# The trace program

`RoadRunnerBaseLine` replays a trace file instead of talking to Sim Mobility. It
parses the whole file into one `TimeTick` for each time, makes the agents, and
then, tick by tick, builds the bundle that Sim Mobility would have sent, decodes
it at once and lets the broker handle it.

`boost::lexical_cast` is not part of the repository; what it makes of a text is a
parameter (`none` is `bad_lexical_cast`).
-/

namespace Sm4ns3

open Bytes Cpp Call

structure LexicalCast where
  /-- `lexical_cast<unsigned int>` -/
  toUnsigned : StdString → Option UInt32
  /-- `lexical_cast<double>` -/
  toDouble : StdString → Option Double

/-- An instance for decimal digits, and for doubles as `Jsoncpp.reference` spells them. -/
def LexicalCast.reference : LexicalCast where
  toUnsigned s :=
    if s ≠ [] ∧ s.all Json.isDigit = true ∧ Json.decimalValue s < 2 ^ 32 then
      some (UInt32.ofNat (Json.decimalValue s))
    else none
  toDouble := Jsoncpp.decodeReal

structure TickMulticast where
  sendAgId : StdString
  receiveAgId : List StdString
  mcData : StdString
  deriving DecidableEq, Repr

structure TimeTick where
  add_agent : List StdString := []
  update_agent : Std.TreeMap StdString DPoint := {}
  multicast : List TickMulticast := []

inductive MessageType where
  | MULTICAST
  | ADD
  | UPDATE
  deriving DecidableEq, Repr

/-- What a line of a trace file says. -/
inductive TraceLine where
  | tick (time : UInt32)
  | add (time : UInt32) (agId : StdString)
  | update (time : UInt32) (agId : StdString) (pos : DPoint)
  | multicast (time : UInt32) (record : TickMulticast)
  deriving DecidableEq, Repr

structure RoadRunnerBaseLine extends Broker where
  trace_time_ticks : Std.TreeMap UInt32 TimeTick := {}
  agent_limit : Std.TreeSet StdString := {}
  agentsList : Std.TreeSet StdString := {}
  /-- the times that the iterators `prevTick` and `currTick` point to; `none` is `end()` -/
  prevTick : Option UInt32 := none
  currTick : Option UInt32 := none
  interval : UInt32 := 0
  protocol : StdString
  RRNC : List Nat := []
  MessageMap : Std.TreeMap StdString MessageType
  disable_communication : Bool
  disable_location_update : Bool
  maxNOFAgents : UInt32
  /-- the simulated time in milliseconds, and the times of the calls of `pause` to come -/
  now : Nat := 0
  events : List Nat := []
  /-- the number of calls of `Simulator::Stop` -/
  stopped : Nat := 0
  /-- history, read by no part of the program: the bare ticks, and the updates and multicasts
  that were stored -/
  parsed : List TraceLine := []

namespace RoadRunnerBaseLine

/-- The constructor. -/
def create (protocol : StdString) (nof_agents : UInt32)
    (disable_communication disable_location_update : Bool) : RoadRunnerBaseLine :=
  { Broker.make with
    protocol := protocol
    MessageMap := Std.TreeMap.ofList ([(str "multicast", .MULTICAST), (str "add_agent", .ADD),
      (str "update_agent", .UPDATE)] : List (StdString × MessageType))
    disable_communication := disable_communication
    disable_location_update := disable_location_update
    maxNOFAgents := nof_agents }

/-! ## Strings -/

/-- `std::string::npos` -/
def npos : Nat := 2 ^ 64 - 1

/-- `s.find(pattern)` -/
def find (s pattern : StdString) : Nat :=
  ((List.range (s.length + 1)).find? fun i => pattern.isPrefixOf (s.drop i)).getD npos

/-- A difference of two `size_t`s. -/
def subSize (a b : Nat) : Nat := (a + 2 ^ 64 - b) % 2 ^ 64

/-- A sum of two `size_t`s. -/
def addSize (a b : Nat) : Nat := (a + b) % 2 ^ 64

/-- `s.substr(pos, n)` -/
def substr (s : StdString) (pos n : Nat) : Except Fault StdString :=
  if pos ≤ s.length then .ok ((s.drop pos).take n)
  else .error (.exception "basic_string::substr")

/-- `tokens[i]` -/
def token (tokens : List StdString) (i : Nat) : Except Fault StdString :=
  match tokens[i]? with
  | some token => .ok token
  | none => .error (.undefined .outOfRange)

/-- `boost::lexical_cast` -/
def lexical_cast {α : Type} (cast : StdString → Option α) (s : StdString) : Except Fault α :=
  match cast s with
  | some x => .ok x
  | none => .error (.exception "bad lexical cast")

/-- `"time:10ms"` to `"10"` -/
def timeOf (s : StdString) : Except Fault StdString :=
  substr s 5 (subSize (subSize s.length 5) (subSize s.length (find s (str "ms"))))

/-- What follows the first colon, or everything; `n` is the length asked for. -/
def afterColon (s : StdString) (n : Nat) : Except Fault StdString :=
  substr s (addSize (find s (str ":")) 1) n

/-! ## Parsing a trace file -/

section Parse

variable (B : LexicalCast)

/-- `trace_time_ticks[time]`, changed by `f`; an absent tick is entered first. -/
def updateTick (time : UInt32) (f : TimeTick → TimeTick) : Call RoadRunnerBaseLine Unit :=
  modify fun r => { r with
    trace_time_ticks :=
      r.trace_time_ticks.insert time (f (r.trace_time_ticks[time]?.getD {})) }

def recordParsed (l : TraceLine) : Call RoadRunnerBaseLine Unit :=
  modify fun r => { r with parsed := r.parsed ++ [l] }

/-- `MessageMap[messageTypeStr]`: an unknown type is entered with the enumerator 0,
which is `MULTICAST`. -/
def messageTypeOf (messageTypeStr : StdString) : Call RoadRunnerBaseLine MessageType := do
  let r ← get
  match r.MessageMap[messageTypeStr]? with
  | some messageType => return messageType
  | none =>
    set { r with MessageMap := r.MessageMap.insert messageTypeStr .MULTICAST }
    return .MULTICAST

def parseAdd (currTime : UInt32) (agId : StdString) : Call RoadRunnerBaseLine Unit := do
  let r ← get
  if r.agent_limit.size < r.maxNOFAgents.toNat then
    set { r with agent_limit := r.agent_limit.insert agId }
  if !(← get).agent_limit.contains agId then
    pure ()
  else
    updateTick currTime fun tick => { tick with add_agent := tick.add_agent ++ [agId] }
    modify fun r => { r with agentsList := r.agentsList.insert agId }

def parseUpdate (currTime : UInt32) (agId : StdString) (tokens : List StdString) :
    Call RoadRunnerBaseLine Unit := do
  let r ← get
  if r.disable_location_update then
    pure ()
  else if !r.agent_limit.contains agId then
    pure ()
  else
    let xTok ← eval (token tokens 3)
    let xStr ← eval (afterColon xTok (subSize xTok.length 1))
    let yTok ← eval (token tokens 4)
    let yStr ← eval (afterColon yTok (subSize yTok.length 1))
    let xPos ← eval (lexical_cast B.toDouble xStr)
    let yPos ← eval (lexical_cast B.toDouble yStr)
    updateTick currTime fun tick => { tick with
      update_agent := tick.update_agent.insert agId { x := xPos, y := yPos } }
    recordParsed (.update currTime agId { x := xPos, y := yPos })

def parseMulticast (currTime : UInt32) (agId : StdString) (tokens : List StdString) :
    Call RoadRunnerBaseLine Unit := do
  let r ← get
  if r.disable_communication then
    pure ()
  else if !r.agent_limit.contains agId then
    pure ()
  else
    let recipientsTok ← eval (token tokens 3)
    let recipientsStr ← eval (afterColon recipientsTok (subSize recipientsTok.length 1))
    let tempVec := recipientsStr.splitOn 44
    let mcData ← eval (token tokens 4)
    let res : TickMulticast :=
      { sendAgId := agId, receiveAgId := tempVec.filter (!·.isEmpty), mcData := mcData }
    updateTick currTime fun tick => { tick with multicast := tick.multicast ++ [res] }
    recordParsed (.multicast currTime res)

/-- A line of a message: type, time, agent, and what the type needs. -/
def parseMessage (tokens : List StdString) : Call RoadRunnerBaseLine Unit := do
  let messageTypeStr ← eval (token tokens 0)
  let timeStr ← eval (timeOf (← eval (token tokens 1)))
  let currTime ← eval (lexical_cast B.toUnsigned timeStr)
  let agTok ← eval (token tokens 2)
  let agId ← eval (afterColon agTok (subSize agTok.length (find agTok (str ":"))))
  match ← messageTypeOf messageTypeStr with
  | .ADD => parseAdd currTime agId
  | .UPDATE => parseUpdate B currTime agId tokens
  | .MULTICAST => parseMulticast currTime agId tokens

def parseLine (line : StdString) : Call RoadRunnerBaseLine Unit := do
  let tokens := line.splitOn 59
  if tokens.length = 1 then
    let nextTime ← eval (lexical_cast B.toUnsigned (← eval (token tokens 0)))
    updateTick nextTime fun _ => {}
    recordParsed (.tick nextTime)
  else
    parseMessage B tokens

/-- The lines that `std::getline` reads. -/
def getlines (contents : StdString) : List StdString :=
  let lines := contents.splitOn 10
  if lines.getLast? = some [] then lines.dropLast else lines

/-- The contents are absent when the file cannot be opened. -/
def parse (contents : Option StdString) : Call RoadRunnerBaseLine Unit := do
  modify fun r => { r with trace_time_ticks := {} }
  match contents with
  | none => raise "Input file not found."
  | some contents => forEach (parseLine B) (getlines contents)

end Parse

/-! ## Nodes -/

/-- A call on the broker. -/
def onBroker {α : Type} (x : Call Broker α) : Call RoadRunnerBaseLine α :=
  zoom toBroker (fun r b => { r with toBroker := b }) x

/-- `RRNC.Create(n)` -/
def createRRNC (n : Nat) : Call RoadRunnerBaseLine Unit := do
  let r ← get
  let first := r.world.nodes
  set { r with
    RRNC := r.RRNC ++ (List.range n).map (first + ·)
    world := { r.world with nodes := first + n } }

/-- The agent of one node, with the address of the node's device. -/
def createAgentOn (node : Nat) (it_agent : StdString) (it_ii : Nat) : Call World Unit := do
  let agent ← createAgent it_agent none
  let agent ← { agent with m_node := some node, iic := agent.iic ++ [it_ii] }.initSocket
  Agent.AddAgent it_agent agent

/-- The loop over the nodes; ids and addresses are read in step with it. -/
def createAgents : List Nat → List StdString → List Nat → Call World Unit
  | [], _, _ => pure ()
  | node :: nodes, it_agent :: agents, it_ii :: iic => do
    createAgentOn node it_agent it_ii
    createAgents nodes agents iic
  | _ :: _, _, _ => undefined .endIterator

def createNodes (W : Ns3) : Call RoadRunnerBaseLine Unit := do
  let r ← get
  createRRNC r.maxNOFAgents.toNat
  raiseIf (r.protocol ≠ str "80211b" && r.protocol ≠ str "80211p") "Unknown Wifi Protocol Specified"
  let r ← get
  let rrDevices := W.Install r.RRNC
  let iic := W.Assign rrDevices
  onBroker (Broker.onWorld (do
    installMobility W r.RRNC
    createAgents r.RRNC r.agentsList.toList iic))

/-! ## Ticks -/

section Ticks

variable (W : Ns3) (J : Jsoncpp)

/-- One record of a tick as an `opaque_send`. -/
def pushMulticast (ongoing : OngoingSerialization) (mc : TickMulticast) :
    Except Fault OngoingSerialization :=
  JsonParser.makeOpaqueSend J NEW_BUNDLES ongoing mc.sendAgId mc.receiveAgId mc.mcData
    (str "base64escape") (str "dsrc")

/-- The bundle that Sim Mobility would have sent for a tick. -/
def tickBundle (tick : TimeTick) : Except Fault (BundleHeader × StdString) := do
  let ongoing := JsonParser.serialize_begin {} (str "0") (str "987654321")
  let ongoing ←
    if tick.update_agent.isEmpty then pure ongoing
    else JsonParser.makeAllLocations J NEW_BUNDLES ongoing tick.update_agent
  let ongoing ← tick.multicast.foldlM (pushMulticast J) ongoing
  return (← JsonParser.serialize_end J NEW_BUNDLES ongoing).getD ({}, [])

/-- `it->first` -/
def first (it : Option UInt32) : Except Fault UInt32 :=
  match it with
  | some time => .ok time
  | none => .error (.undefined .endIterator)

/-- `it->second` -/
def second (r : RoadRunnerBaseLine) (it : Option UInt32) : Except Fault TimeTick :=
  match it.bind (r.trace_time_ticks[·]?) with
  | some tick => .ok tick
  | none => .error (.undefined .endIterator)

def pushToQueue : Call RoadRunnerBaseLine Unit := do
  let r ← get
  let tick ← eval (r.second r.currTick)
  let (mHead, mStr) ← eval (tickBundle J tick)
  match JsonParser.deserialize J NEW_BUNDLES mHead mStr {} with
  | .error e _ => throw e
  | .ok _ messages =>
    modify fun r => { r with m_incoming := r.m_incoming.push messages }

/-- `pushToQueue` followed by `processIncoming`. -/
def processTick : Call RoadRunnerBaseLine Unit := do
  pushToQueue J
  onBroker (Broker.processIncoming W J)

/-- `a % b` and `a / b` are undefined for `b = 0`. -/
def checkDivisor (b : Nat) : Except Fault Unit :=
  if b = 0 then .error (.undefined .divisionByZero) else .ok ()

/-- The progress that is printed at every tenth part of the ticks. -/
def progress (absTick : UInt32) (size : Nat) : Except Fault Unit := do
  if 0 < absTick then
    checkDivisor (size / 10)
    if absTick.toNat % (size / 10) = 0 then
      checkDivisor size

/-- The tick after a time. -/
def nextTick (r : RoadRunnerBaseLine) (time : UInt32) : Option UInt32 :=
  r.trace_time_ticks.keys.find? (time < ·)

/-- `prevTick` and `currTick` go on by one tick, and the interval is set unless it was
the last. -/
def advance : Call RoadRunnerBaseLine Unit := do
  let r ← get
  let time ← eval (first r.currTick)
  set { r with
    prevTick := r.currTick
    currTick := r.nextTick time
    interval := match r.nextTick time with
      | some next => next - time
      | none => r.interval }

/-- The tick ID from the interval. -/
def tickId (r : RoadRunnerBaseLine) : Except Fault UInt32 := do
  let time ← first r.prevTick
  checkDivisor r.interval.toNat
  return time / r.interval

/-- `Simulator::Schedule(MilliSeconds(delay), &RoadRunnerBaseLine::pause, this)` -/
def schedule (delay : Nat) : Call RoadRunnerBaseLine Unit :=
  modify fun r => { r with events := r.events ++ [r.now + delay] }

/-- `Simulator::Stop()` -/
def stop : Call RoadRunnerBaseLine Unit := modify fun r => { r with stopped := r.stopped + 1 }

def pause : Call RoadRunnerBaseLine Unit := do
  let r ← get
  let absTick ← eval (first r.currTick)
  eval (progress absTick r.trace_time_ticks.size)
  pushToQueue J
  advance
  let r ← get
  let _ ← eval r.tickId
  -- the profiler logs the number of updates of the tick, before and after
  let _ ← eval (r.second r.prevTick)
  onBroker (Broker.processIncoming W J)
  let r ← get
  if r.currTick ≠ none then
    schedule r.interval.toNat
  else
    stop

/-- The simulator calls `pause` for the earliest event, until it is stopped. -/
def simulate (r : RoadRunnerBaseLine) (_ : Unit) : Option RoadRunnerBaseLine :=
  if r.stopped = 0 then
    r.events.min?.bind fun time =>
      returned (pause W J { r with now := time, events := r.events.erase time })
  else none

end Ticks

/-- Parse the file, make the agents, and schedule the first tick. -/
def start (B : LexicalCast) (W : Ns3) (contents : Option StdString) :
    Call RoadRunnerBaseLine Bool := do
  parse B contents
  createNodes W
  modify fun r => { r with prevTick := none, currTick := r.trace_time_ticks.keys.head? }
  schedule 0
  return true

end RoadRunnerBaseLine
end Sm4ns3
