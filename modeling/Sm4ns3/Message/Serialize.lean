import Sm4ns3.Message.Conglomerate

/-!
# Bundles of messages

`OngoingSerialization` collects the messages of a bundle; `JsonParser` begins
one, appends messages to it, ends it, and reads a bundle back. `NEW_BUNDLES`
selects the format and is an argument of the functions that test it.
-/

namespace Sm4ns3

open Bytes Cpp Call

structure OngoingSerialization where
  vHead : VaryHeader := {}
  /-- The messages one after another; in version 0 with commas between them. -/
  messages : StdString := []
  deriving DecidableEq, Repr

namespace JsonParser

variable (J : Jsoncpp) (newBundles : Bool)

/-! ## Building a bundle -/

def serialize_begin (ongoing : OngoingSerialization) (sendId destId : StdString) :
    OngoingSerialization :=
  { ongoing with vHead := { sendId := sendId, destId := destId, msgLengths := [] } }

/-- `serialize_begin` with the simulator's own ids. -/
def serialize_begin_default (ongoing : OngoingSerialization) : OngoingSerialization :=
  serialize_begin ongoing (str "987654321") (str "0")

def addGeneric (ongoing : OngoingSerialization) (msg : StdString) : OngoingSerialization :=
  { vHead := { ongoing.vHead with
      msgLengths := ongoing.vHead.msgLengths ++ [UInt32.ofNat msg.length] }
    messages :=
      if newBundles then ongoing.messages ++ msg
      else ongoing.messages ++ ((if ongoing.messages.isEmpty then [] else str ",") ++ msg) }

/-- A message length in three octets. -/
def lengthOctets (n : UInt32) : StdString := [(n >>> 16).toUInt8, (n >>> 8).toUInt8, n.toUInt8]

/-- The header that describes a bundle body of `vHead` and `res`. -/
def bundleHeader (vHead : VaryHeader) (res : StdString) : BundleHeader :=
  { sendIdLen := toInt vHead.sendId.length
    destIdLen := toInt vHead.destId.length
    messageCount := toInt vHead.msgLengths.length
    remLen := UInt32.ofNat res.length }

def serialize_end_v1 (ongoing : OngoingSerialization) :
    Except Fault (BundleHeader × StdString) := do
  let varHeadSize := ongoing.vHead.msgLengths.length * 3 + ongoing.vHead.sendId.length +
    ongoing.vHead.destId.length
  let vHead := ongoing.vHead.sendId ++ (ongoing.vHead.destId ++
    ongoing.vHead.msgLengths.flatMap lengthOctets)
  if vHead.length ≠ varHeadSize then
    throw (.exception "Varying header size not exact; memory corruption may have occurred.")
  let res := vHead ++ ongoing.messages
  return (bundleHeader ongoing.vHead res, res)

/-- `none` stands for the result `false`, which leaves the arguments unwritten. -/
def serialize_end_v0 (ongoing : OngoingSerialization) :
    Except Fault (Option (BundleHeader × StdString)) := do
  let pktHeader := (Json.null.set (str "send_client") (.string ongoing.vHead.sendId)).set
    (str "dest_client") (.string ongoing.vHead.destId)
  let data := str "[" ++ (ongoing.messages ++ str "]")
  match J.parse data with
  | some dataArr =>
    if !dataArr.isArray then
      return none
    let root := (Json.null.set (str "header") pktHeader).set (str "messages") dataArr
    let writer : JsonSingleLineWriter := { appendNewline := !newBundles }
    let res ← writer.write J root
    return some (bundleHeader ongoing.vHead res, res)
  | none => return none

def serialize_end (ongoing : OngoingSerialization) :
    Except Fault (Option (BundleHeader × StdString)) :=
  if newBundles then (serialize_end_v1 ongoing).map some
  else serialize_end_v0 J newBundles ongoing

/-! ## Reading a bundle -/

/-- `n` characters from position `i` on, and the position after them. -/
def readId (msgStr : StdString) : Nat → Int → Except Fault (StdString × Int)
  | 0, i => .ok ([], i)
  | n + 1, i => do
    let c ← charAt msgStr i
    let rest ← readId msgStr n (← addInt i 1)
    return (c :: rest.1, rest.2)

theorem readId_succ {msgStr s : StdString} {n : Nat} {i j k : Int} {c : UInt8}
    (hc : charAt msgStr i = .ok c) (hj : addInt i 1 = .ok j) (h : readId msgStr n j = .ok (s, k)) :
    readId msgStr (n + 1) i = .ok (c :: s, k) := by
  simp only [readId, hc, hj, h, bind, Except.bind, pure, Except.pure]

/-- `n` message lengths from position `i` on, and the position after them. -/
def readLengths (msgStr : StdString) : Nat → Int → Except Fault (List UInt32 × Int)
  | 0, i => .ok ([], i)
  | n + 1, i => do
    let msgSize := be24 (← charAt msgStr i) (← charAt msgStr (i + 1)) (← charAt msgStr (i + 2))
    let rest ← readLengths msgStr n (← addInt i 3)
    return (msgSize :: rest.1, rest.2)

theorem readLengths_succ {msgStr : StdString} {ns : List UInt32} {n : Nat} {i j k : Int}
    {x y z : UInt8} (hx : charAt msgStr i = .ok x) (hy : charAt msgStr (i + 1) = .ok y)
    (hz : charAt msgStr (i + 2) = .ok z) (hj : addInt i 3 = .ok j)
    (h : readLengths msgStr n j = .ok (ns, k)) :
    readLengths msgStr (n + 1) i = .ok (be24 x y z :: ns, k) := by
  simp only [readLengths, hx, hy, hz, hj, h, bind, Except.bind, pure, Except.pure]

/-- Add a message of each length from position `i` on; only the first call passes
the string. The position is advanced in unsigned arithmetic. -/
def addMessages (msgStr : StdString) (i : Int) : List UInt32 → Call MessageConglomerate Unit
  | [] => pure ()
  | it :: rest => do
    MessageConglomerate.addMessage_v1 J newBundles i (toInt it.toNat) msgStr
    addMessages [] (toInt (i + it.toNat)) rest

def deserialize_v1 (header : BundleHeader) (msgStr : StdString) :
    Call MessageConglomerate Bool := do
  let sendId ← eval (readId msgStr header.sendIdLen.toNat 0)
  modify fun res => { res with senderId := sendId.1 }
  let destId ← eval (readId msgStr header.destIdLen.toNat sendId.2)
  let msgLengths ← eval (readLengths msgStr header.messageCount.toNat destId.2)
  addMessages J newBundles msgStr msgLengths.2 msgLengths.1
  return true

/-- Add the elements of the `messages` array. -/
def addElements : List Json → Call MessageConglomerate Unit
  | [] => pure ()
  | msg :: rest => do
    MessageConglomerate.addMessage_v0 J newBundles msg
    addElements rest

def deserialize_v0 (msgStr : StdString) : Call MessageConglomerate Bool := do
  match J.parse msgStr with
  | none => return false
  | some root =>
    -- the test is `!isMember && ...` in the source: a missing section reads as null
    if !(← eval (root.isMember (str "header"))) &&
        (← eval ((← eval (root.get (str "header"))).isMember (str "send_client"))) then
      return false
    let client ← eval ((← eval (root.get (str "header"))).get (str "send_client"))
    let senderId ← eval (J.asString client)
    modify fun res => { res with senderId := senderId }
    if !(← eval (root.isMember (str "messages"))) &&
        (← eval (root.get (str "messages"))).isArray then
      return false
    addElements J newBundles (← eval (← eval (root.get (str "messages"))).elements)
    return true

def deserialize (header : BundleHeader) (msgStr : StdString) : Call MessageConglomerate Bool :=
  if newBundles then deserialize_v1 J newBundles header msgStr
  else deserialize_v0 J newBundles msgStr

theorem deserialize_new (J : Jsoncpp) (header : BundleHeader) (msgStr : StdString) :
    deserialize J NEW_BUNDLES header msgStr = deserialize_v1 J true header msgStr := rfl

/-- `none` stands for the result `false`. -/
def deserialize_single (header : BundleHeader) (msgStr expectedType : StdString) :
    Call MessageConglomerate (Option MessageBase) := do
  if !(← deserialize J newBundles header msgStr) then
    return none
  let remConglom ← get
  if remConglom.getCount newBundles ≠ 1 then
    return none
  let base ← eval (remConglom.getBaseMessage 0)
  if base.msg_type ≠ expectedType then
    return none
  return some base

def parseJSON (input : StdString) : Option Json := J.parse input

end JsonParser
end Sm4ns3
