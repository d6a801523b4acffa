import Sm4ns3.Verify.Agents

/-!
# Routed messages

`OpaqueSendHandler` writes one JSON object for each recipient into a packet;
`Agent::ReceivePacket` parses the packet at the other end and passes a fixed list
of members on to Sim Mobility. The two sides use different names: whatever was
sent, the message passed on has none of its members (`receive_routed`), so it is
never the `opaque_receive` that was meant (`routed_never_delivered`).
-/

namespace Sm4ns3

open Bytes Cpp Call

namespace OpaqueSendHandler

theorem canonical_opaqueReceive (fromId data toId : StdString) :
    (opaqueReceive fromId data toId).canonical = true := by
  unfold opaqueReceive
  refine Json.canonical_set (Json.canonical_set (Json.canonical_set (Json.canonical_set rfl ?_) ?_)
    ?_) ?_ <;> rfl

/-- The text of a routed message reads back as the message, as far as its strings
are C strings. -/
theorem parse_routed {J : Jsoncpp} (hJ : J.ReadsBack) {writer : JsonSingleLineWriter}
    {fromId data toId packet : StdString}
    (h : writer.write J (opaqueReceive fromId data toId) = .ok packet) :
    J.parse packet = some (opaqueReceive (cString fromId) (cString data) (cString toId)) := by
  have hcut : (opaqueReceive fromId data toId).cut =
      opaqueReceive (cString fromId) (cString data) (cString toId) := rfl
  rw [← hcut]
  exact hJ writer (hcut ▸ canonical_opaqueReceive _ _ _) h

/-! ## What is passed on -/

/-- The message passed on for a packet that has none of the `forwardedMembers`. -/
def blank : Json :=
  ((forwardedMembers.foldl (fun outgoing key => outgoing.set key .null) Json.null).set
    (str "SENDER") (.string (str "0"))).set (str "SENDER_TYPE") (.string (str "NS3_SIMULATOR"))

theorem forwarded_opaqueReceive (fromId data toId : StdString) :
    forwarded (opaqueReceive fromId data toId) = .ok blank := rfl

theorem cut_blank : blank.cut = blank := by decide +kernel

theorem canonical_blank : blank.canonical = true := by decide +kernel

/-- `blank` has no integer, so it is written. -/
theorem write_blank (J : Jsoncpp) (writer : JsonSingleLineWriter) :
    ∃ text, writer.write J blank = .ok text := ⟨_, rfl⟩

/-- `o'` is `o` with one message more, whose JSON is `v`. -/
def Appended (J : Jsoncpp) (o o' : OngoingSerialization) (v : Json) : Prop :=
  ∃ text, J.parse text = some v ∧ o' = JsonParser.addGeneric NEW_BUNDLES o text

theorem appended_blank {J : Jsoncpp} (hJ : J.ReadsBack) (o : OngoingSerialization) :
    ∃ o', JsonParser.makeUnknownJSON J NEW_BUNDLES o blank = .ok o' ∧ Appended J o o' blank := by
  obtain ⟨text, htext⟩ := write_blank J { appendNewline := !NEW_BUNDLES }
  have hparse : J.parse text = some blank := by
    have hback := hJ _ (by rw [cut_blank]; exact canonical_blank) htext
    rwa [cut_blank] at hback
  refine ⟨JsonParser.addGeneric NEW_BUNDLES o text, ?_, text, hparse, rfl⟩
  simp [JsonParser.makeUnknownJSON, JsonParser.makeJson, PREFER_BINARY_MESSAGES, htext]

/-- An object's text has its braces. -/
theorem write_routed_ne_nil {J : Jsoncpp} {writer : JsonSingleLineWriter}
    {fromId data toId packet : StdString}
    (h : writer.write J (opaqueReceive fromId data toId) = .ok packet) : packet ≠ [] := by
  rintro rfl
  cases JsonSingleLineWriter.write_object_head h

/-- The receiver of a packet of the handler appends `blank`. -/
theorem receive_routed {J : Jsoncpp} (hJ : J.ReadsBack) {writer : JsonSingleLineWriter}
    {fromId data toId packet : StdString} (o : OngoingSerialization)
    (h : writer.write J (opaqueReceive fromId data toId) = .ok packet) :
    ∃ o', Agent.ReceivePacket J [packet] o = .ok () o' ∧ Appended J o o' blank := by
  obtain ⟨o', hmake, happended⟩ := appended_blank hJ o
  refine ⟨o', ?_, happended⟩
  simp [Agent.ReceivePacket, receiveOne, write_routed_ne_nil h, JsonParser.parseJSON,
    parse_routed hJ h, forwarded_opaqueReceive, hmake, forEach_cons]

/-- The message that should reach Sim Mobility. -/
structure Preserves (fromId data toId : StdString) (v : Json) : Prop where
  msg_type : v.get (str "msg_type") = .ok (.string (str "opaque_receive"))
  from_id : v.get (str "from_id") = .ok (.string fromId)
  to_id : v.get (str "to_id") = .ok (.string toId)
  data : v.get (str "data") = .ok (.string data)

/-- A receiver of the packet appends one message to `o`, and the message is what
was sent. -/
def Delivered (J : Jsoncpp) (o : OngoingSerialization)
    (fromId data toId packet : StdString) : Prop :=
  ∃ o' v, Agent.ReceivePacket J [packet] o = .ok () o' ∧ Appended J o o' v ∧
    Preserves fromId data toId v

/-- Two accounts of what was appended agree. -/
theorem Appended.unique {J : Jsoncpp} {o o' : OngoingSerialization} {v w : Json}
    (hv : Appended J o o' v) (hw : Appended J o o' w) : v = w := by
  obtain ⟨a, ha, rfl⟩ := hv
  obtain ⟨b, hb, hab⟩ := hw
  have htext : a = b := by
    simpa [JsonParser.addGeneric, NEW_BUNDLES] using congrArg OngoingSerialization.messages hab
  rw [htext, hb] at ha
  exact (Option.some.inj ha).symm

theorem not_delivered {J : Jsoncpp} (hJ : J.ReadsBack) {writer : JsonSingleLineWriter}
    {fromId data toId packet : StdString}
    (h : writer.write J (opaqueReceive fromId data toId) = .ok packet)
    (o : OngoingSerialization) (fromId' data' toId' : StdString) :
    ¬ Delivered J o fromId' data' toId' packet := by
  rintro ⟨o', v, hrun, happended, hv⟩
  obtain ⟨o₁, hrun₁, happended₁⟩ := receive_routed hJ o h
  rw [hrun] at hrun₁
  cases hrun₁
  rw [happended.unique happended₁] at hv
  exact absurd hv.msg_type (by decide +kernel)

/-! ## What is sent -/

/-- What was sent since `w`, which all satisfies `P`. -/
def SentSince (w : World) (P : Sent → Prop) (w' : World) : Prop :=
  ∃ new, w'.sent = w.sent ++ new ∧ ∀ s ∈ new, P s

theorem SentSince.refl (w : World) (P : Sent → Prop) : SentSince w P w := ⟨[], by simp⟩

section Sends

variable {w : World} {P : Sent → Prop}

theorem getAgent_keeps (agId : StdString) : Keeps (SentSince w P) (Agent.getAgent agId) := by
  rintro w₁ ⟨new, hsent, hnew⟩
  rw [Agent.getAgent_apply]
  exact ⟨new, by rw [final, Agent.touch_sent, hsent], hnew⟩

theorem SendTo_since {W : Ns3} {sender : Agent} {agent : Option Agent} {packet : StdString}
    (hP : ∀ s : Sent, s.packet = packet → P s) :
    Keeps (SentSince w P) (Agent.SendTo W sender agent packet) := by
  apply Agent.SendTo_keeps
  rintro w₁ send hpacket ⟨new, hsent, hnew⟩
  refine ⟨new ++ [send], by rw [hsent, List.append_assoc], ?_⟩
  intro s hs
  rcases List.mem_append.mp hs with hs | hs
  · exact hnew s hs
  · obtain rfl := List.mem_singleton.mp hs
    exact hP _ hpacket

end Sends

/-- The packet is the text of the message routed to one of the recipients. -/
def Routed (J : Jsoncpp) (osMsg : OpaqueSendMessage) (s : Sent) : Prop :=
  ∃ toId ∈ osMsg.toIds, ∃ writer : JsonSingleLineWriter,
    writer.write J (opaqueReceive osMsg.fromId osMsg.data toId) = .ok s.packet

/-- However it ends, the handler sends routed messages only. -/
theorem handle_sends (W : Ns3) {J : Jsoncpp} {messages : MessageConglomerate} {msgNumber : Int}
    {osMsg : OpaqueSendMessage} (w : World)
    (hparse : JsonParser.parseOpaqueSend J messages msgNumber = .ok osMsg) :
    SentSince w (Routed J osMsg) (final (handle W J messages msgNumber w)) := by
  have hkeeps : Keeps (SentSince w (Routed J osMsg)) (handle W J messages msgNumber) := by
    unfold handle
    rw [hparse, eval_ok, pure_bind_apply]
    refine (getAgent_keeps osMsg.fromId).bind fun agent => ?_
    cases agent with
    | none => exact Keeps.pure _
    | some sending_agent =>
      refine Keeps.forEach fun toId hmem => sendToRecipient_keeps osMsg sending_agent toId
        (getAgent_keeps toId) fun agent packet hwrite => SendTo_since ?_
      rintro s rfl
      exact ⟨toId, hmem, _, hwrite⟩
  exact hkeeps w (SentSince.refl w _)

/-- No packet that the handler sends, delivered unchanged, gives Sim Mobility the
message that was sent. -/
theorem routed_never_delivered (W : Ns3) {J : Jsoncpp} (hJ : J.ReadsBack)
    {messages : MessageConglomerate} {msgNumber : Int} {osMsg : OpaqueSendMessage} (w : World)
    (hparse : JsonParser.parseOpaqueSend J messages msgNumber = .ok osMsg) :
    ∃ new, (final (handle W J messages msgNumber w)).sent = w.sent ++ new ∧
      ∀ s ∈ new, ∀ o, ¬ Delivered J o osMsg.fromId osMsg.data s.recipient s.packet := by
  obtain ⟨new, hsent, hnew⟩ := handle_sends W w hparse
  refine ⟨new, hsent, fun s hs o => ?_⟩
  obtain ⟨toId, -, writer, hwrite⟩ := hnew s hs
  exact not_delivered hJ hwrite o _ _ _

/-! ## An instance -/

/-- The bundle with this one message, as it is received. -/
def bundleWith (message : StdString) : MessageConglomerate :=
  final (JsonParser.deserialize Jsoncpp.reference NEW_BUNDLES { messageCount := 1 }
    (JsonParser.lengthOctets (UInt32.ofNat message.length) ++ message) {})

/-- A bundle with one message from `1` to `2`. -/
def oneToTwo : MessageConglomerate :=
  bundleWith (str ("\x7b\"broadcast\":false,\"data\":\"x\",\"format\":\"\",\"from_id\":\"1\"," ++
    "\"msg_type\":\"opaque_send\",\"tech\":\"\",\"to_ids\":[\"2\"]\x7d"))

/-- The message in it. -/
def oneToTwoMessage : OpaqueSendMessage :=
  { msg_type := str "opaque_send", fromId := str "1", toIds := [str "2"], broadcast := false
    data := str "x", format := [], tech := [] }

/-- The agents `1` and `2`. -/
def twoAgents : World :=
  final (forEach (AgentsInfoHandler.addAgent Ns3.reference) [str "1", str "2"] {})

theorem oneToTwo_parses :
    JsonParser.parseOpaqueSend Jsoncpp.reference oneToTwo 0 = .ok oneToTwoMessage := by
  decide +kernel

theorem routed_never_delivered_one :
    ∃ new, (final (handle Ns3.reference Jsoncpp.reference oneToTwo 0 twoAgents)).sent =
        twoAgents.sent ++ new ∧
      ∀ s ∈ new, ∀ o, ¬ Delivered Jsoncpp.reference o (str "1") (str "x") s.recipient s.packet :=
  routed_never_delivered Ns3.reference Jsoncpp.reference_readsBack twoAgents oneToTwo_parses

/-- Agent `1` sends one packet to agent `2`, and it is not what Sim Mobility gets. -/
theorem routed_lost :
    ∃ w' s, handle Ns3.reference Jsoncpp.reference oneToTwo 0 twoAgents = .ok () w' ∧
      w'.sent = [s] ∧ s.sender = str "1" ∧ s.recipient = str "2" ∧
      ¬ Delivered Jsoncpp.reference {} (str "1") (str "x") (str "2") s.packet := by
  have hrun : value (handle Ns3.reference Jsoncpp.reference oneToTwo 0 twoAgents) = some () := by
    decide +kernel
  have hsent : (final (handle Ns3.reference Jsoncpp.reference oneToTwo 0 twoAgents)).sent.map
      (fun s => (s.sender, s.recipient, (Except.ok s.packet : Except Fault StdString))) =
        [(str "1", str "2", JsonSingleLineWriter.write Jsoncpp.reference
          { appendNewline := !NEW_BUNDLES } (opaqueReceive (str "1") (str "x") (str "2")))] := by
    decide +kernel
  obtain ⟨s, hone, hs⟩ := List.map_eq_singleton_iff.mp hsent
  simp only [Prod.mk.injEq] at hs
  exact ⟨_, s, eq_ok_of_value hrun, hone, hs.1, hs.2.1,
    not_delivered Jsoncpp.reference_readsBack hs.2.2.symm _ _ _ _⟩

end OpaqueSendHandler
end Sm4ns3
