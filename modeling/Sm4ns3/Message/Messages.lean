import Sm4ns3.Message.Serialize
import Std.Data.TreeMap.Lemmas

/-!
# Messages

The messages the simulator receives (`new_agents`, `all_locations`,
`opaque_send`) with their parsers, and the ones it writes. A maker builds a JSON
object and appends its text to the bundle under construction.
-/

namespace Sm4ns3

open Bytes Cpp

structure AgentsInfoMessage extends MessageBase where
  addAgentIds : List StdString := []
  remAgentIds : List StdString := []
  deriving DecidableEq

structure AllLocationsMessage extends MessageBase where
  agentLocations : Std.TreeMap StdString DPoint := {}

structure OpaqueSendMessage extends MessageBase where
  fromId : StdString
  toIds : List StdString
  broadcast : Bool
  data : StdString
  format : StdString
  tech : StdString
  deriving DecidableEq

structure WFD_Group where
  groupId : StdString
  GO : StdString
  members : List StdString

namespace JsonParser

/-! ## Parsers -/

section Parse

variable (J : Jsoncpp)

/-- Every key is a member of the value. -/
def areMembers (v : Json) : List StdString → Except Fault Bool
  | [] => .ok true
  | key :: keys => do
    if ← v.isMember key then
      areMembers v keys
    else
      return false

/-- The JSON value of a message; it is null for a binary one. -/
def jsonOf (msg : MessageConglomerate) (msgNumber : Int) : Except Fault Json := do
  let jsMsg ← msg.getJsonMessage msgNumber
  throwIf jsMsg.isNull "parse() for binary messages not yet supported."
  return jsMsg

/-- The optional list of ids that `new_agents` has under a key. -/
def parseIds (jsMsg : Json) (key : StdString) (what : String) :
    Except Fault (List StdString) := do
  if ← jsMsg.isMember key then
    let agents ← jsMsg.get key
    throwIf (!agents.isArray) what
    (← agents.elements).mapM J.asString
  else
    return []

def parseNewAgents (msg : MessageConglomerate) (msgNumber : Int) :
    Except Fault AgentsInfoMessage := do
  let base ← msg.getBaseMessage msgNumber
  let jsMsg ← jsonOf msg msgNumber
  let addAgentIds ← parseIds J jsMsg (str "add") "AgentsInfo add should be an array."
  let remAgentIds ← parseIds J jsMsg (str "rem") "AgentsInfo rem should be an array."
  return { base with addAgentIds := addAgentIds, remAgentIds := remAgentIds }

/-- One entry of `locations`. -/
def parseLocation (agInf : Json) : Except Fault (StdString × DPoint) := do
  throwIf (!(← areMembers agInf [str "id", str "x", str "y"]))
    "Badly formatted AllLocations message [2]."
  let agId ← J.asString (← agInf.get (str "id"))
  let x ← J.asDouble (← agInf.get (str "x"))
  let y ← J.asDouble (← agInf.get (str "y"))
  return (agId, { x := x, y := y })

/-- Enter locations into the map; a later entry replaces an earlier one of its id. -/
def enterLocations (res : Std.TreeMap StdString DPoint) (locs : List (StdString × DPoint)) :
    Std.TreeMap StdString DPoint :=
  locs.foldl (fun res loc => res.insert loc.1 loc.2) res

def parseAllLocations (msg : MessageConglomerate) (msgNumber : Int) :
    Except Fault AllLocationsMessage := do
  let base ← msg.getBaseMessage msgNumber
  let jsMsg ← jsonOf msg msgNumber
  let present ← areMembers jsMsg [str "locations"]
  let locations ← jsMsg.get (str "locations")
  throwIf (!(present && locations.isArray)) "Badly formatted AllLocations message [1]."
  let locs ← (← locations.elements).mapM (parseLocation J)
  return { base with agentLocations := enterLocations {} locs }

def parseOpaqueSend (msg : MessageConglomerate) (msgNumber : Int) :
    Except Fault OpaqueSendMessage := do
  let base ← msg.getBaseMessage msgNumber
  let jsMsg ← jsonOf msg msgNumber
  let present ← areMembers jsMsg
    [str "from_id", str "to_ids", str "broadcast", str "data", str "format", str "tech"]
  let toIds ← jsMsg.get (str "to_ids")
  throwIf (!(present && toIds.isArray)) "Badly formatted OPAQUE_SEND message."
  let fromId ← J.asString (← jsMsg.get (str "from_id"))
  let broadcast ← J.asBool (← jsMsg.get (str "broadcast"))
  let data ← J.asString (← jsMsg.get (str "data"))
  let format ← J.asString (← jsMsg.get (str "format"))
  let tech ← J.asString (← jsMsg.get (str "tech"))
  let toIds ← (← toIds.elements).mapM J.asString
  throwIf (broadcast && !toIds.isEmpty)
    "Cannot call opaque_send with both \"broadcast\" as true and a non-empty toIds list."
  return { base with
    fromId := fromId, toIds := toIds, broadcast := broadcast
    data := data, format := format, tech := tech }

end Parse

/-! ## Makers -/

section Make

variable (J : Jsoncpp) (newBundles : Bool) (ongoing : OngoingSerialization)

/-- Write a value on one line and append it to the bundle. -/
def makeJson (res : Json) : Except Fault OngoingSerialization := do
  throwIf PREFER_BINARY_MESSAGES "addX() for binary messages not yet supported."
  let writer : JsonSingleLineWriter := { appendNewline := !newBundles }
  let nextMsg ← writer.write J res
  return addGeneric newBundles ongoing nextMsg

def idResponse (token : StdString) : Json :=
  ((((Json.null.set (str "msg_type") (.string (str "id_response"))).set
    (str "id") (.string (str "987654321"))).set
    (str "token") (.string token)).set
    (str "type") (.string (str "ns-3"))).appendTo
    (str "services") (.string (str "srv_all_locations"))

def makeIdResponse (token : StdString) : Except Fault OngoingSerialization :=
  makeJson J newBundles ongoing (idResponse token)

def tickedClient : Json := Json.null.set (str "msg_type") (.string (str "ticked_client"))

def makeTickedClient : Except Fault OngoingSerialization :=
  makeJson J newBundles ongoing tickedClient

def location (agId : StdString) (loc : DPoint) : Json :=
  ((Json.null.set (str "id") (.string agId)).set (str "x") (.real loc.x)).set
    (str "y") (.real loc.y)

def allLocations (allLocations : Std.TreeMap StdString DPoint) : Json :=
  allLocations.toList.foldl (fun res it => res.appendTo (str "locations") (location it.1 it.2))
    (Json.null.set (str "msg_type") (.string (str "all_locations")))

def makeAllLocations (locations : Std.TreeMap StdString DPoint) :
    Except Fault OngoingSerialization :=
  makeJson J newBundles ongoing (allLocations locations)

/-- The sender's id is not in the message. -/
def opaqueSend (receiveAgentIds : List StdString) (data format tech : StdString) : Json :=
  (receiveAgentIds.foldl (fun res it => res.appendTo (str "to_ids") (.string it))
    (((((Json.null.set (str "msg_type") (.string (str "opaque_send"))).set
      (str "from_id") (.string (str "987654321"))).set
      (str "format") (.string format)).set
      (str "tech") (.string tech)).set
      (str "data") (.string data))).set
    (str "broadcast") (.boolean receiveAgentIds.isEmpty)

def makeOpaqueSend (_sendAgentId : StdString) (receiveAgentIds : List StdString)
    (data format tech : StdString) : Except Fault OngoingSerialization :=
  makeJson J newBundles ongoing (opaqueSend receiveAgentIds data format tech)

def clientGroup (group : WFD_Group) : Json :=
  group.members.foldl (fun clientMsg it => clientMsg.appendTo (str "clients") (.string it))
    (Json.null.set (str "go") (.string group.GO))

def goClient (wfdGroups : Std.TreeMap StdString WFD_Group) : Json :=
  wfdGroups.toList.foldl (fun res it => res.appendTo (str "groups") (clientGroup it.2))
    (Json.null.set (str "msg_type") (.string (str "go_client")))

def makeGoClient (wfdGroups : Std.TreeMap StdString WFD_Group) :
    Except Fault OngoingSerialization :=
  makeJson J newBundles ongoing (goClient wfdGroups)

def makeUnknownJSON (json : Json) : Except Fault OngoingSerialization :=
  makeJson J newBundles ongoing json

end Make

end JsonParser
end Sm4ns3
