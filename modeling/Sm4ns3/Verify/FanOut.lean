import Sm4ns3.Verify.Nodes
import Sm4ns3.Verify.Routing

/-!
# `opaque_send` sends to every recipient

The loop over the recipients sends one packet to each one that has an agent, in list order
(`sendToRecipients_fanned`). The packet's text names the sender, the recipient and the data
as C strings, so the fan-out is exact for strings without NULs (`fan_out_iff`).
-/

namespace Sm4ns3

open Bytes Cpp Call

namespace World

/-- The same agents are registered and no node was moved. -/
structure Stays (w w' : World) : Prop where
  agent : ∀ agId, w'.agent agId = w.agent agId
  mobility : w'.mobility = w.mobility

theorem Stays.refl (w : World) : w.Stays w := ⟨fun _ => rfl, rfl⟩

theorem Stays.trans {w w₁ w₂ : World} (h : w.Stays w₁) (h' : w₁.Stays w₂) : w.Stays w₂ :=
  ⟨fun agId => (h'.agent agId).trans (h.agent agId), h'.mobility.trans h.mobility⟩

theorem Stays.follows {w w' : World} (h : w.Stays w') : w.Follows w' :=
  ⟨h.agent, fun node hnode => by rwa [h.mobility]⟩

theorem Stays.position {w w' : World} (h : w.Stays w') (agId : StdString) :
    w'.position agId = w.position agId := by
  rw [World.position, World.position, h.agent, h.mobility]

theorem touch_stays (w : World) (agId : StdString) : w.Stays (Agent.touch w agId) :=
  ⟨(touch_follows w agId).agent, Agent.touch_mobility w agId⟩

end World

/-- The packet went from one agent to the other, and its text reads as this value. -/
structure Sent.Routes (J : Jsoncpp) (sending_agent receiving_agent : Agent) (body : Json)
    (s : Sent) : Prop where
  sender : s.sender = sending_agent.m_AgentId
  socket : sending_agent.m_socket = some s.socket
  recipient : s.recipient = receiving_agent.m_AgentId
  remote : receiving_agent.GetAddress = .ok s.remote
  body : J.parse s.packet = some body

namespace OpaqueSendHandler

/-- What the loop over the recipients does: one packet for each occurrence of an id that has
an agent, and nothing else. -/
structure Fanned (J : Jsoncpp) (osMsg : OpaqueSendMessage) (sender : Agent) (w : World)
    (toIds : List StdString) (w' : World) (made : List Sent) : Prop where
  stays : w.Stays w'
  sent : w'.sent = w.sent ++ made
  packets : List.Forall₂ (fun toId s => ∃ agent, w.agent toId = some agent ∧
      s.Routes J sender agent
        (opaqueReceive (cString osMsg.fromId) (cString osMsg.data) (cString toId)))
    (toIds.filter fun toId => (w.agent toId).isSome) made
  count : w'.global_pckt_cnt = w.global_pckt_cnt + UInt32.ofNat made.length

section Loop

variable {W : Ns3} {J : Jsoncpp} {w w₁ w' : World} {osMsg : OpaqueSendMessage} {sender : Agent}
  {toIds rest : List StdString} {made made' : List Sent}

/-- Two parts of the loop make up the whole. -/
theorem Fanned.append (h : Fanned J osMsg sender w toIds w₁ made)
    (h' : Fanned J osMsg sender w₁ rest w' made') :
    Fanned J osMsg sender w (toIds ++ rest) w' (made ++ made') := by
  have hpackets := h'.packets
  simp only [h.stays.agent] at hpackets
  refine ⟨h.stays.trans h'.stays, ?_, ?_, ?_⟩
  · rw [h'.sent, h.sent, List.append_assoc]
  · rw [List.filter_append]
    exact List.rel_append h.packets hpackets
  · rw [h'.count, h.count, List.length_append, UInt32.ofNat_add, UInt32.add_assoc]

/-- One recipient. -/
theorem sendToRecipient_fanned (hJ : J.ReadsBack) (osMsg : OpaqueSendMessage) {toId : StdString}
    (hreach : ∀ agent, w.agent toId = some agent → sender.CanReach agent) :
    ∃ w' made, sendToRecipient W J osMsg sender toId w = .ok () w' ∧
      Fanned J osMsg sender w [toId] w' made := by
  cases hagent : w.agent toId with
  | none =>
    refine ⟨_, [], sendToRecipient_none hagent, World.touch_stays w toId, ?_, ?_, ?_⟩
    · rw [Agent.touch_sent, List.append_nil]
    · simp [hagent]
    · rw [Agent.touch_global_pckt_cnt]
      simp
  | some agent =>
    have hslot := World.agent_eq_some.mp hagent
    obtain ⟨packet, hwrite⟩ := write_routed J { appendNewline := !NEW_BUNDLES } osMsg.fromId
      osMsg.data toId
    obtain ⟨r, w', hsend⟩ : ∃ r w', sender.SendTo W (some agent) packet w = .ok r w' :=
      Agent.SendTo_ok (hreach agent hagent)
    have hrun : sendToRecipient W J osMsg sender toId w = .ok () w' :=
      (sendToRecipient_some hslot).mpr ⟨packet, r, hwrite, hsend⟩
    obtain ⟨-, remote, socket, own, hremote, hsocket, -, rfl⟩ := Agent.SendTo_eq_ok.mp hsend
    refine ⟨_, [Agent.sentTo sender agent socket remote packet], hrun, ⟨fun _ => rfl, rfl⟩, rfl,
      ?_, rfl⟩
    rw [List.filter_cons_of_pos (by rw [hagent]; rfl), List.filter_nil]
    refine .cons ⟨agent, hagent, ?_⟩ .nil
    exact ⟨rfl, hsocket, rfl, hremote, parse_routed hJ hwrite⟩

/-- The loop over all recipients. -/
theorem sendToRecipients_fanned (hJ : J.ReadsBack) (osMsg : OpaqueSendMessage)
    (hreach : ∀ toId ∈ toIds, ∀ agent, w.agent toId = some agent → sender.CanReach agent) :
    ∃ w' made, forEach (sendToRecipient W J osMsg sender) toIds w = .ok () w' ∧
      Fanned J osMsg sender w toIds w' made := by
  induction toIds generalizing w with
  | nil =>
    refine ⟨w, [], rfl, World.Stays.refl w, (List.append_nil _).symm, .nil, ?_⟩
    simp
  | cons toId toIds ih =>
    rw [List.forall_mem_cons] at hreach
    obtain ⟨w₁, made, hhead, hfirst⟩ := sendToRecipient_fanned (W := W) hJ osMsg hreach.1
    have hrest := hreach.2
    simp only [← hfirst.stays.agent] at hrest
    obtain ⟨w', made', htail, hlast⟩ := ih hrest
    exact ⟨w', made ++ made', (bind_ok hhead _).trans htail, hfirst.append hlast⟩

end Loop

/-! ## The handler -/

/-- The body of a packet has the message's sender and data, and names this recipient. -/
structure Addressed (osMsg : OpaqueSendMessage) (toId : StdString) (body : Json) : Prop where
  msg_type : body.get (str "msg_type") = .ok (.string (str "opaque_receive"))
  from_id : body.get (str "from_id") = .ok (.string osMsg.fromId)
  data : body.get (str "data") = .ok (.string osMsg.data)
  to_id : body.get (str "to_id") = .ok (.string toId)

/-- The handler returns. Without a sending agent it sends nothing; otherwise the sending agent
sends one packet for each occurrence of an id that has an agent, in list order, addressed to
this id, and the counter grows by their number. -/
def FansOut (W : Ns3) (J : Jsoncpp) (w : World) (m : Received) (osMsg : OpaqueSendMessage) :
    Prop :=
  ∃ w' made, handle W J m.messages m.msgNumber w = .ok () w' ∧ w'.sent = w.sent ++ made ∧
    w'.global_pckt_cnt = w.global_pckt_cnt + UInt32.ofNat made.length ∧
    (w.agent osMsg.fromId = none → made = []) ∧
    ∀ sender, w.agent osMsg.fromId = some sender →
      List.Forall₂ (fun toId s => ∃ agent body, w.agent toId = some agent ∧
          s.Routes J sender agent body ∧ Addressed osMsg toId body)
        (osMsg.toIds.filter fun toId => (w.agent toId).isSome) made

/-- No packet has a string with a NUL. -/
def Spelled (w : World) (osMsg : OpaqueSendMessage) : Prop :=
  (w.agent osMsg.fromId).isSome = true → ∀ toId ∈ osMsg.toIds, (w.agent toId).isSome = true →
    0 ∉ osMsg.fromId ∧ 0 ∉ osMsg.data ∧ 0 ∉ toId

section Handle

variable {W : Ns3} {J : Jsoncpp} {w : World} {m : Received} {osMsg : OpaqueSendMessage}

/-- A packet is addressed when nothing in it was cut. -/
theorem addressed_iff {toId : StdString} :
    Addressed osMsg toId
        (opaqueReceive (cString osMsg.fromId) (cString osMsg.data) (cString toId)) ↔
      0 ∉ osMsg.fromId ∧ 0 ∉ osMsg.data ∧ 0 ∉ toId := by
  constructor
  · intro h
    exact ⟨cString_eq_iff.mp (Json.string.inj (Except.ok.inj h.from_id)),
      cString_eq_iff.mp (Json.string.inj (Except.ok.inj h.data)),
      cString_eq_iff.mp (Json.string.inj (Except.ok.inj h.to_id))⟩
  · intro h
    obtain ⟨hfrom, hdata, hto⟩ := h
    rw [cString_eq hfrom, cString_eq hdata, cString_eq hto]
    exact ⟨rfl, rfl, rfl, rfl⟩

/-- Without a sending agent nothing is sent. -/
theorem handle_of_none
    (hparse : JsonParser.parseOpaqueSend J m.messages m.msgNumber = .ok osMsg)
    (hsender : w.agent osMsg.fromId = none) :
    handle W J m.messages m.msgNumber w = .ok () (Agent.touch w osMsg.fromId) := by
  rw [World.agent] at hsender
  rw [handle, hparse, eval_ok, pure_bind_apply, bind_ok (Agent.getAgent_apply _ w), hsender]
  rfl

/-- The sending agent sends to all recipients. -/
theorem handle_fanned (hJ : J.ReadsBack)
    (hparse : JsonParser.parseOpaqueSend J m.messages m.msgNumber = .ok osMsg)
    {sender : Agent} (hsender : w.agent osMsg.fromId = some sender)
    (hreach : ∀ toId ∈ osMsg.toIds, ∀ agent, w.agent toId = some agent → sender.CanReach agent) :
    ∃ w' made, handle W J m.messages m.msgNumber w = .ok () w' ∧
      Fanned J osMsg sender w osMsg.toIds w' made := by
  obtain ⟨w', made, hrun, hfanned⟩ := sendToRecipients_fanned (W := W) hJ osMsg hreach
  refine ⟨w', made, ?_, hfanned⟩
  have hslot := World.agent_eq_some.mp hsender
  rw [handle, hparse, eval_ok, pure_bind_apply, bind_ok (Agent.getAgent_apply _ w),
    Agent.touch_of_mem hslot, hslot]
  exact hrun

/-- What fans out is spelled without NULs: the packets were cut at them. -/
theorem FansOut.spelled (hJ : J.ReadsBack)
    (hparse : JsonParser.parseOpaqueSend J m.messages m.msgNumber = .ok osMsg)
    (hreach : ∀ sender, w.agent osMsg.fromId = some sender → ∀ toId ∈ osMsg.toIds, ∀ agent,
      w.agent toId = some agent → sender.CanReach agent)
    (h : FansOut W J w m osMsg) : Spelled w osMsg := by
  intro hsome toId hmem hlive
  obtain ⟨sender, hsender⟩ := Option.isSome_iff_exists.mp hsome
  obtain ⟨w', made, hrun, hfanned⟩ := handle_fanned (W := W) hJ hparse hsender
    (hreach sender hsender)
  obtain ⟨w'', made', hrun', hsent', -, -, hpackets'⟩ := h
  rw [hrun] at hrun'
  cases hrun'
  rw [hfanned.sent] at hsent'
  obtain rfl := List.append_cancel_left hsent'
  have hlisted : toId ∈ osMsg.toIds.filter fun toId => (w.agent toId).isSome :=
    List.mem_filter.mpr ⟨hmem, hlive⟩
  obtain ⟨i, hi, rfl⟩ := List.mem_iff_getElem.mp hlisted
  obtain ⟨hlength, hpacket⟩ := List.forall₂_iff_get.mp hfanned.packets
  obtain ⟨-, hpacket'⟩ := List.forall₂_iff_get.mp (hpackets' sender hsender)
  obtain ⟨agent, -, hroutes⟩ := hpacket i hi (hlength ▸ hi)
  obtain ⟨agent', body, -, hroutes', haddressed⟩ := hpacket' i hi (hlength ▸ hi)
  have hbody := hroutes'.body
  rw [hroutes.body, Option.some.injEq] at hbody
  rw [← hbody] at haddressed
  exact addressed_iff.mp haddressed

/-- An `opaque_send` that is parsed fans out exactly when no packet has a string with a NUL. -/
theorem fan_out_iff (hJ : J.ReadsBack)
    (hparse : JsonParser.parseOpaqueSend J m.messages m.msgNumber = .ok osMsg)
    (hreach : ∀ sender, w.agent osMsg.fromId = some sender → ∀ toId ∈ osMsg.toIds, ∀ agent,
      w.agent toId = some agent → sender.CanReach agent) :
    FansOut W J w m osMsg ↔ Spelled w osMsg := by
  refine ⟨FansOut.spelled hJ hparse hreach, fun h => ?_⟩
  cases hsender : w.agent osMsg.fromId with
  | none =>
    refine ⟨_, [], handle_of_none hparse hsender, ?_, ?_, fun _ => rfl, fun sender hsome => ?_⟩
    · rw [Agent.touch_sent, List.append_nil]
    · rw [Agent.touch_global_pckt_cnt]
      simp
    · rw [hsender] at hsome
      cases hsome
  | some sender =>
    obtain ⟨w', made, hrun, hfanned⟩ := handle_fanned (W := W) hJ hparse hsender
      (hreach sender hsender)
    refine ⟨w', made, hrun, hfanned.sent, hfanned.count, fun hnone => ?_,
      fun sender' hsender' => ?_⟩
    · rw [hsender] at hnone
      cases hnone
    · rw [hsender] at hsender'
      cases hsender'
      have hspelled : ∀ toId ∈ osMsg.toIds.filter fun toId => (w.agent toId).isSome,
          0 ∉ osMsg.fromId ∧ 0 ∉ osMsg.data ∧ 0 ∉ toId := by
        intro toId hlisted
        obtain ⟨hmem, hlive⟩ := List.mem_filter.mp hlisted
        exact h (by rw [hsender]; rfl) toId hmem hlive
      have hboth := (List.forall₂_and_left _ _).mpr ⟨hspelled, hfanned.packets⟩
      refine hboth.imp fun toId s hs => ?_
      obtain ⟨hnul, agent, hagent, hroutes⟩ := hs
      exact ⟨agent, _, hagent, hroutes, addressed_iff.mpr hnul⟩

/-- In a usable world every agent reaches every other. -/
theorem reach_of_usable (hw : w.Usable) (osMsg : OpaqueSendMessage) :
    ∀ sender, w.agent osMsg.fromId = some sender → ∀ toId ∈ osMsg.toIds, ∀ agent,
      w.agent toId = some agent → sender.CanReach agent :=
  fun sender hsender toId _ agent hagent =>
    (hw osMsg.fromId sender (World.agent_eq_some.mp hsender)).canReach
      (hw toId agent (World.agent_eq_some.mp hagent))

end Handle

/-! ## Two messages -/

theorem twoAgents_usable : twoAgents.Usable :=
  Keeps.forEach (fun agId _ => usable_addAgent Ns3.reference_documented agId) {} (by
    intro agId agent hslot
    simp at hslot)

theorem fan_out_iff_one :
    FansOut Ns3.reference Jsoncpp.reference twoAgents ⟨oneToTwo, 0⟩ oneToTwoMessage ↔
      Spelled twoAgents oneToTwoMessage :=
  fan_out_iff Jsoncpp.reference_readsBack oneToTwo_parses (reach_of_usable twoAgents_usable _)

/-- A message from `1` to `2` whose data has a NUL. -/
def oneToTwoNul : Received where
  messages := bundleWith
    (str ("\x7b\"broadcast\":false,\"data\":\"a\\u0000b\",\"format\":\"\",\"from_id\":\"1\"," ++
      "\"msg_type\":\"opaque_send\",\"tech\":\"\",\"to_ids\":[\"2\"]\x7d"))
  msgNumber := 0

def oneToTwoNulMessage : OpaqueSendMessage :=
  { oneToTwoMessage with data := [97, 0, 98] }

theorem oneToTwoNul_parses : JsonParser.parseOpaqueSend Jsoncpp.reference oneToTwoNul.messages
    oneToTwoNul.msgNumber = .ok oneToTwoNulMessage := by
  decide +kernel

/-- The data that arrives ends at the NUL. -/
theorem data_cut :
    ¬ FansOut Ns3.reference Jsoncpp.reference twoAgents oneToTwoNul oneToTwoNulMessage := by
  intro h
  have hspelled := h.spelled Jsoncpp.reference_readsBack oneToTwoNul_parses
    (reach_of_usable twoAgents_usable _)
  have hlive : (twoAgents.agent (str "1")).isSome = true ∧
      (twoAgents.agent (str "2")).isSome = true := by
    decide +kernel
  have hnul := hspelled hlive.1 (str "2") List.mem_cons_self hlive.2
  exact hnul.2.1 (by decide)

end OpaqueSendHandler
end Sm4ns3
