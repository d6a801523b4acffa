import Sm4ns3.Verify.Formats

/-!
# Packets of version 0

A packet is an object whose `header` has a `send_client` and whose `messages` section is an array
(`Packet`). The two tests of `deserialize_v0` for the sections are negated wrongly and refuse
nothing (`deserialize_object`): it never returns false for an object, and so keeps to the packets
only where the sections are there and can be used (`accepts_packets_iff`).
-/

namespace Sm4ns3

open Bytes Cpp Call MessageConglomerate

namespace JsonParser

/-- The members of an object with a sender in its header and an array of messages. -/
structure Packet (ms : Json.Members) (client : Json) (msgs : List Json) : Prop where
  header : ∃ hs, ms.lookup (str "header") = some (.object hs) ∧
    hs.lookup (str "send_client") = some client
  messages : ms.lookup (str "messages") = some (.array msgs)

/-- A packet is decoded to its sender and its messages; anything else is refused, and leaves no
messages. -/
def AcceptsPackets (J : Jsoncpp) (msgStr : StdString) (ms : Json.Members) : Prop :=
  (∃ client msgs res, Packet ms client msgs ∧ deserialize_v0 J false msgStr {} = .ok true res ∧
    J.asString client = .ok res.senderId ∧ res.messages_json = msgs) ∨
  (¬ ∃ client msgs, Packet ms client msgs) ∧
    ∃ res, deserialize_v0 J false msgStr {} = .ok false res ∧ res.messages_json = []

/-- What returns true was a packet, with its sender and its messages, and what is no packet is
refused; a packet may be thrown out by an exception. -/
structure OnlyPackets (J : Jsoncpp) (msgStr : StdString) (ms : Json.Members) : Prop where
  accepted : ∀ res, deserialize_v0 J false msgStr {} = .ok true res →
    ∃ client, Packet ms client res.messages_json ∧ J.asString client = .ok res.senderId
  refused : (¬ ∃ client msgs, Packet ms client msgs) →
    ∃ res, deserialize_v0 J false msgStr {} = .ok false res ∧ res.messages_json = []

/-- A packet with a sender that has a text and messages that have a type. -/
def Usable (J : Jsoncpp) (ms : Json.Members) : Prop :=
  ∃ client msgs, Packet ms client msgs ∧ (∃ senderId, J.asString client = .ok senderId) ∧
    ∀ msg ∈ msgs, ∃ base, ParseJsonMessageBase J msg = .ok base

section Objects

variable {J : Jsoncpp} {msgStr : StdString} {ms : Json.Members}

/-- Both tests refuse nothing: a section that is missing reads as null. -/
theorem deserialize_object (h : J.parse msgStr = some (.object ms)) :
    deserialize_v0 J false msgStr {} = (do
      let client ← eval (((ms.lookup (str "header")).getD .null).get (str "send_client"))
      let senderId ← eval (J.asString client)
      modify fun res => { res with senderId := senderId }
      addElements J false (← eval ((ms.lookup (str "messages")).getD .null).elements)
      return true : Call MessageConglomerate Bool) {} := by
  have hmessages : (!(ms.lookup (str "messages")).isSome &&
      ((ms.lookup (str "messages")).getD .null).isArray) = false := by
    cases ms.lookup (str "messages") <;> rfl
  rw [deserialize_v0, h]
  simp only [Json.isMember, Json.get, eval_ok, pure_bind_apply]
  cases hheader : ms.lookup (str "header") with
  | none =>
    simp only [Option.getD_none, Option.isSome_none, Bool.not_false, eval_ok, pure_bind_apply,
      Bool.and_false, Bool.false_eq_true, if_false, hmessages]
  | some header =>
    simp only [Option.getD_some, Option.isSome_some, Bool.not_true, Bool.false_and,
      Bool.false_eq_true, if_false, hmessages]
    -- a header that is no object throws in the test already, with the same exception
    cases header <;> rfl

/-- No object is refused. -/
theorem never_false (h : J.parse msgStr = some (.object ms)) {res : MessageConglomerate} :
    deserialize_v0 J false msgStr {} ≠ .ok false res := by
  rw [deserialize_object h]
  intro hrun
  simp only [eval_bind_eq_ok, modify_bind_apply] at hrun
  obtain ⟨client, -, senderId, -, msgs, -, hrun⟩ := hrun
  obtain ⟨_, res', -, hreturn⟩ := bind_eq_ok hrun
  cases hreturn

theorem addElements_eq_ok {msgs : List Json} {c c' : MessageConglomerate} {u : Unit}
    (h : addElements J false msgs c = .ok u c') :
    ∀ msg ∈ msgs, ∃ base, ParseJsonMessageBase J msg = .ok base := by
  induction msgs generalizing c with
  | nil => exact List.forall_mem_nil _
  | cons msg msgs ih =>
    obtain ⟨_, c₁, hadd, hrest⟩ := bind_eq_ok h
    simp only [addMessage_v0, raiseIf_false, pure_bind_apply, get_bind_apply, set_bind_apply,
      eval_bind_eq_ok] at hadd
    obtain ⟨base, hbase, -⟩ := hadd
    exact List.forall_mem_cons.mpr ⟨⟨base, hbase⟩, ih hrest⟩

/-- A packet is decoded when its parts can be read. -/
theorem deserialize_packet (h : J.parse msgStr = some (.object ms)) {client : Json}
    {msgs : List Json} (hpacket : Packet ms client msgs) :
    deserialize_v0 J false msgStr {} = (do
      let senderId ← eval (J.asString client)
      modify fun res => { res with senderId := senderId }
      addElements J false msgs
      return true : Call MessageConglomerate Bool) {} := by
  obtain ⟨⟨hs, hheader, hclient⟩, hmessages⟩ := hpacket
  rw [deserialize_object h, hheader, hmessages]
  simp only [Option.getD_some, Json.get, hclient, Json.elements, eval_ok, pure_bind_apply]

/-- The decoder keeps to the packets exactly where there is a packet that can be used. -/
theorem accepts_packets_iff (h : J.parse msgStr = some (.object ms)) :
    AcceptsPackets J msgStr ms ↔ Usable J ms := by
  constructor
  · rintro (⟨client, msgs, res, hpacket, hrun, hsender, -⟩ | ⟨-, res, hrun, -⟩)
    · rw [deserialize_packet h hpacket] at hrun
      simp only [eval_bind_eq_ok, modify_bind_apply] at hrun
      obtain ⟨senderId, -, hrun⟩ := hrun
      obtain ⟨_, res', hadd, -⟩ := bind_eq_ok hrun
      exact ⟨client, msgs, hpacket, ⟨_, hsender⟩, addElements_eq_ok hadd⟩
    · exact absurd hrun (never_false h)
  · rintro ⟨client, msgs, hpacket, ⟨senderId, hsender⟩, hbases⟩
    obtain ⟨bases, hbases⟩ := exists_forall₂ hbases
    have hadd := addElements_ok { senderId := senderId } hbases
    refine .inl ⟨client, msgs,
      { senderId := senderId, messages_json := msgs, message_bases := bases },
      hpacket, ?_, hsender, rfl⟩
    rw [deserialize_packet h hpacket, hsender, eval_ok, pure_bind_apply, modify_bind_apply,
      bind_ok hadd]
    rfl

/-- With exceptions allowed, it keeps to the packets exactly where there is one. -/
theorem only_packets_iff (h : J.parse msgStr = some (.object ms)) :
    OnlyPackets J msgStr ms ↔ ∃ client msgs, Packet ms client msgs := by
  constructor
  · intro honly
    by_contra hnone
    obtain ⟨res, hrun, -⟩ := honly.refused hnone
    exact never_false h hrun
  · rintro ⟨client, msgs, hpacket⟩
    refine ⟨fun res hrun => ?_, fun hnone => absurd ⟨client, msgs, hpacket⟩ hnone⟩
    rw [deserialize_packet h hpacket] at hrun
    simp only [eval_bind_eq_ok, modify_bind_apply] at hrun
    obtain ⟨senderId, hsender, hrun⟩ := hrun
    obtain ⟨_, res', hadd, hreturn⟩ := bind_eq_ok hrun
    cases hreturn
    obtain ⟨bases, hbases⟩ := exists_forall₂ (addElements_eq_ok hadd)
    rw [addElements_ok { senderId := senderId } hbases] at hadd
    cases hadd
    exact ⟨client, hpacket, hsender⟩

end Objects

/-- A packet with one message. -/
def onePacket : StdString :=
  str "\x7b\"header\":\x7b\"send_client\":\"7\"\x7d," ++
    str "\"messages\":[\x7b\"msg_type\":\"ticked\"\x7d]\x7d"

theorem accepts_packets_iff_one :
    ∃ ms, Jsoncpp.reference.parse onePacket = some (.object ms) ∧
      (AcceptsPackets Jsoncpp.reference onePacket ms ↔ Usable Jsoncpp.reference ms) := by
  have hparse : Jsoncpp.reference.parse onePacket = some (.object
      [ (str "header", .object [(str "send_client", .string (str "7"))])
      , (str "messages", .array [.object [(str "msg_type", .string (str "ticked"))]]) ]) := by
    decide +kernel
  exact ⟨_, hparse, accepts_packets_iff hparse⟩

/-- A text with no header is accepted, without a sender. -/
theorem headless_accepted :
    deserialize_v0 Jsoncpp.reference false (str "\x7b\"messages\":[]\x7d") {} = .ok true {} ∧
      Jsoncpp.reference.parse (str "\x7b\"messages\":[]\x7d") =
        some (.object [(str "messages", .array [])]) ∧
      ¬ AcceptsPackets Jsoncpp.reference (str "\x7b\"messages\":[]\x7d")
        [(str "messages", .array [])] := by
  have hparse : Jsoncpp.reference.parse (str "\x7b\"messages\":[]\x7d") =
      some (.object [(str "messages", .array [])]) := by decide +kernel
  refine ⟨?_, hparse, ?_⟩
  · rw [deserialize_object hparse]
    rfl
  · rintro (⟨client, msgs, -, hpacket, -⟩ | ⟨-, res, hrun, -⟩)
    · obtain ⟨hs, hheader, -⟩ := hpacket.header
      cases hheader
    · exact never_false hparse hrun

end JsonParser

end Sm4ns3
