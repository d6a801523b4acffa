import Sm4ns3.Lib.Transition
import Sm4ns3.Broker
import Sm4ns3.Verify.BundleCodec

/-!
# What a step of the broker does

`accepted` is the bundle an arrival puts on the queue. `arrive_cases`,
`pause_cases` and `post_cases` say of each kind of step everything it changes;
the invariants of the runs are derived from them.
-/

namespace Sm4ns3

open Bytes Cpp Call

/-! ## Decoding keeps the conglomerate in step -/

namespace MessageConglomerate

variable {J : Jsoncpp}

theorem addMessages_inStep {newBundles : Bool} {c c' : MessageConglomerate} {msgStr : StdString}
    {i : Int} {ns : List UInt32} {u : Unit} (hc : c.InStep)
    (h : JsonParser.addMessages J newBundles msgStr i ns c = .ok u c') : c'.InStep := by
  induction ns generalizing c msgStr i with
  | nil =>
    cases h
    exact hc
  | cons n ns ih =>
    obtain ⟨_, t, hadd, hrest⟩ := bind_eq_ok h
    exact ih (addMessage_v1_inStep hc hadd) hrest

theorem deserialize_v1_inStep {newBundles : Bool} {c c' : MessageConglomerate}
    {header : BundleHeader} {msgStr : StdString} {b : Bool} (hc : c.InStep)
    (h : JsonParser.deserialize_v1 J newBundles header msgStr c = .ok b c') : c'.InStep := by
  simp only [JsonParser.deserialize_v1, eval_bind_eq_ok, modify_bind_apply] at h
  obtain ⟨sendId, -, destId, -, lens, -, h⟩ := h
  obtain ⟨_, t, hadd, hret⟩ := bind_eq_ok h
  cases hret
  have hc' : InStep { c with senderId := sendId.1 } := hc
  exact addMessages_inStep hc' hadd

/-- The messages of a conglomerate in step can be asked for a tick. -/
theorem containsTick_ok {c : MessageConglomerate} (hc : c.InStep) :
    ∃ r, Broker.containsTick c c.messageNumbers = .ok r := by
  have hnums : ∀ i ∈ c.messageNumbers, ∃ base, c.getBaseMessage i = .ok base := by
    intro i hi
    obtain ⟨k, hk, rfl⟩ := List.mem_map.mp hi
    have hlt := List.mem_range.mp hk
    have hle := toInt_le c.offsets_v1.length
    rw [getCount_new] at hlt
    have hlen : k < c.message_bases.length := by
      have := hc.1
      omega
    exact ⟨_, vectorAt_eq_ok (List.getElem?_eq_getElem hlen)⟩
  generalize c.messageNumbers = nums at hnums ⊢
  induction nums with
  | nil => exact ⟨false, rfl⟩
  | cons i rest ih =>
    obtain ⟨base, hbase⟩ := hnums i List.mem_cons_self
    obtain ⟨r, hr⟩ := ih fun j hj => hnums j (List.mem_cons_of_mem i hj)
    simp only [Broker.containsTick, hbase, except_ok_bind, hr]
    split
    · exact ⟨true, rfl⟩
    · exact ⟨r, rfl⟩

end MessageConglomerate

namespace Broker

/-- The state after `start`: nothing received, nothing sent, waiting. -/
structure Started (b : Broker) : Prop where
  m_pause : b.m_pause = true
  m_incoming : b.m_incoming = {}
  m_outgoing : b.m_outgoing = JsonParser.serialize_begin_default {}
  m_global_tick : b.m_global_tick = 0
  trace : b.trace = []

/-- A broker whose connection is open and whose first round is scheduled. -/
def ready : Broker :=
  { make with conn := { m_session := some { is_open := true } }, scheduled := 1 }

theorem ready_started : ready.Started := ⟨rfl, rfl, rfl, rfl, rfl⟩

theorem ready_open : ready.conn.Open := ⟨_, rfl, rfl⟩

/-- A bundle with a tick. -/
def tickBundle : Step :=
  .arrive { messageCount := 1, remLen := 31 }
    ([0, 0, 28] ++ str "\x7b\"msg_type\":\"ticked_simmob\"\x7d")

section Arrive

variable (J : Jsoncpp)

/-- The bundle that an arrival puts on the queue: one that is not empty and that
`deserialize` accepts. -/
def accepted (header : BundleHeader) (input : StdString) : Option MessageConglomerate :=
  if input.isEmpty then none
  else
    match JsonParser.deserialize J NEW_BUNDLES header input {} with
    | .ok true temp => some temp
    | _ => none

/-- `deserialize` throws. -/
def Throws (header : BundleHeader) (input : StdString) : Prop :=
  input.isEmpty = false ∧
    ∃ what c, JsonParser.deserialize J NEW_BUNDLES header input {} = .error (.exception what) c

/-- The state after a bundle was received and `m_pause` cleared. -/
def received (b : Broker) (item : Option MessageConglomerate) : Broker :=
  { b with
    m_pause := false
    m_incoming := item.elim b.m_incoming b.m_incoming.push }

variable {J}

theorem accepted_inStep {header : BundleHeader} {input : StdString} {c : MessageConglomerate}
    (h : accepted J header input = some c) : c.InStep := by
  unfold accepted at h
  split at h
  · cases h
  · split at h
    · rename_i hrun
      cases h
      exact MessageConglomerate.deserialize_v1_inStep ⟨rfl, rfl⟩ hrun
    · cases h

/-- A received bundle either makes the decoder throw, or is undefined, and changes
nothing; or what it accepts is queued and `m_pause` cleared. -/
theorem onMessageReceived_cases (b : Broker) (header : BundleHeader) (input : StdString) :
    (Throws J header input ∧ accepted J header input = none ∧
      ∃ what, onMessageReceived J header input b = .error (.exception what) b) ∨
    (∃ cause, (∃ c, JsonParser.deserialize J NEW_BUNDLES header input {} =
        .error (.undefined cause) c) ∧
      onMessageReceived J header input b = .error (.undefined cause) b) ∨
    (¬ Throws J header input ∧
      onMessageReceived J header input b = .ok () (b.received (accepted J header input))) := by
  simp only [onMessageReceived, parsePacket]
  by_cases hempty : input.isEmpty
  · right; right
    constructor
    · rintro ⟨hne, -⟩
      rw [hne] at hempty
      cases hempty
    · simp [received, accepted, hempty]
  rw [if_neg hempty]
  have hacc : accepted J header input =
      match JsonParser.deserialize J NEW_BUNDLES header input {} with
      | .ok true temp => some temp
      | _ => none := if_neg hempty
  cases hrun : JsonParser.deserialize J NEW_BUNDLES header input {} with
  | error e c =>
    rw [hrun] at hacc
    cases e with
    | exception what => exact .inl ⟨⟨by simpa using hempty, what, c, hrun⟩, hacc, what, rfl⟩
    | undefined cause => exact .inr (.inl ⟨cause, ⟨c, rfl⟩, rfl⟩)
  | ok r temp =>
    right; right
    rw [hrun] at hacc
    constructor
    · rintro ⟨-, what, c, hthrows⟩
      rw [hrun] at hthrows
      cases hthrows
    · cases r with
      | false =>
        rw [hacc]
        rfl
      | true =>
        obtain ⟨r, hr⟩ := MessageConglomerate.containsTick_ok (accepted_inStep hacc)
        rw [hacc]
        simp only [hr, eval_ok]
        rfl

/-- An arrival either throws and changes nothing, or queues what it accepts and
clears `m_pause`. -/
theorem arrive_cases {W : Ns3} {b b' : Broker} {header : BundleHeader} {input : StdString}
    (h : step W J b (.arrive header input) = some b') :
    (Throws J header input ∧ b' = b ∧ accepted J header input = none) ∨
      (¬ Throws J header input ∧ b' = b.received (accepted J header input)) := by
  simp only [step] at h
  rcases onMessageReceived_cases b header input with
    ⟨hthrows, hnone, what, hrun⟩ | ⟨cause, -, hrun⟩ | ⟨hreturns, hrun⟩
  · rw [hrun] at h
    cases h
    exact .inl ⟨hthrows, rfl, hnone⟩
  · rw [hrun] at h
    cases h
  · rw [hrun] at h
    cases h
    exact .inr ⟨hreturns, rfl⟩

/-- When `deserialize` returns, so does `onMessageReceived`. -/
theorem onMessageReceived_ok (b : Broker) {header : BundleHeader} {input : StdString} {r : Bool}
    {c : MessageConglomerate}
    (h : JsonParser.deserialize J NEW_BUNDLES header input {} = .ok r c) :
    onMessageReceived J header input b = .ok () (b.received (accepted J header input)) := by
  rcases onMessageReceived_cases b header input with
    ⟨⟨-, what, c', hthrows⟩, -, -⟩ | ⟨cause, ⟨c', hundef⟩, -⟩ | ⟨-, hrun⟩
  · rw [h] at hthrows
    cases hthrows
  · rw [h] at hundef
    cases hundef
  · exact hrun

/-- A call that returns leaves the connection as it was. -/
theorem onMessageReceived_conn {b b' : Broker} {header : BundleHeader} {input : StdString}
    {u : Unit} (h : onMessageReceived J header input b = .ok u b') : b'.conn = b.conn := by
  rcases onMessageReceived_cases b header input with
    ⟨-, -, what, hrun⟩ | ⟨cause, -, hrun⟩ | ⟨-, hrun⟩
  · rw [hrun] at h
    cases h
  · rw [hrun] at h
    cases h
  · rw [hrun] at h
    cases h
    rfl

end Arrive

section Pause

variable {W : Ns3} {J : Jsoncpp}

/-- Handling the queue empties it and changes the agents. -/
theorem processQueue_eq_ok {b b' : Broker} {q : List MessageConglomerate} {u : Unit}
    (hq : b.m_incoming.messageList = q) (h : processQueue W J q b = .ok u b') :
    ∃ world, b' = { b with
      world := world, m_incoming := {}, trace := b.trace ++ q.map .popped } := by
  induction q generalizing b with
  | nil =>
    cases h
    refine ⟨b'.world, ?_⟩
    obtain ⟨conn, m_pause, ⟨messageList⟩, m_outgoing, tick, world, scheduled, trace⟩ := b'
    obtain rfl : messageList = [] := hq
    simp
  | cons conglom rest ih =>
    simp only [processQueue, record, modify_bind_apply] at h
    obtain ⟨_, t, hworld, hrest⟩ := bind_eq_ok h
    obtain ⟨w, -, rfl⟩ := zoom_eq_ok hworld
    obtain ⟨world, rfl⟩ := ih rfl hrest
    exact ⟨world, by simp⟩

theorem processIncoming_eq_ok {b b' : Broker} {u : Unit}
    (h : processIncoming W J b = .ok u b') :
    ∃ world, b' = { b with
      world := world, m_incoming := {}
      trace := b.trace ++ b.m_incoming.messageList.map .popped } :=
  processQueue_eq_ok rfl h

/-- The bundle that `sendOutgoing` sends, and begins anew. -/
theorem sendOutgoing_eq_ok {b b' : Broker} {u : Unit} (h : sendOutgoing J b = .ok u b') :
    ∃ conn : Connection, conn.Open ∧ b' = { b with
      conn := conn
      m_outgoing := JsonParser.serialize_begin_default b.m_outgoing
      trace := b.trace ++ [.outgoing
        (JsonParser.bundleHeader b.m_outgoing.vHead (JsonParser.payload b.m_outgoing))
        (JsonParser.payload b.m_outgoing)] } := by
  simp only [sendOutgoing, get_bind_apply, JsonParser.serialize_end, NEW_BUNDLES, if_true,
    JsonParser.serialize_end_v1_eq, Except.map, eval_ok, pure_bind_apply] at h
  obtain ⟨_, t, hsend, h⟩ := bind_eq_ok h
  obtain ⟨conn, hconn, rfl⟩ := zoom_eq_ok hsend
  cases h
  exact ⟨conn, (Connection.send_eq_ok hconn).2, rfl⟩

theorem sendTickedClient_eq_ok {b b' : Broker} {u : Unit}
    (h : sendTickedClient J b = .ok u b') :
    ∃ conn : Connection, conn.Open ∧ b' = { b with
      conn := conn, trace := b.trace ++ [.ticked b.m_incoming.messageList] } := by
  simp only [sendTickedClient, eval_bind_eq_ok] at h
  obtain ⟨⟨resHeader, resMsg⟩, -, h⟩ := h
  obtain ⟨_, t, hsend, h⟩ := bind_eq_ok h
  obtain ⟨conn, hconn, rfl⟩ := zoom_eq_ok hsend
  cases h
  exact ⟨conn, (Connection.send_eq_ok hconn).2, rfl⟩

theorem makeJson_eq_ok {ongoing ongoing' : OngoingSerialization} {json : Json}
    (h : JsonParser.makeJson J NEW_BUNDLES ongoing json = .ok ongoing') :
    ∃ text, ({ appendNewline := false } : JsonSingleLineWriter).write J json = .ok text ∧
      ongoing' = JsonParser.addGeneric true ongoing text := by
  simp only [JsonParser.makeJson, except_bind_eq_ok] at h
  obtain ⟨_, -, text, hwrite, h⟩ := h
  cases h
  exact ⟨text, hwrite, rfl⟩

/-- The state after a round of `pause` that acted on an open connection. -/
def afterRound (b : Broker) (world : World) (conn : Connection) : Broker where
  conn := conn
  m_pause := true
  m_incoming := {}
  m_outgoing := JsonParser.serialize_begin_default b.m_outgoing
  m_global_tick := b.m_global_tick + 1
  world := world
  scheduled := b.scheduled - 1 + 1
  trace := b.trace ++ (b.m_incoming.messageList.map .popped ++
    [ .outgoing (JsonParser.bundleHeader b.m_outgoing.vHead (JsonParser.payload b.m_outgoing))
        (JsonParser.payload b.m_outgoing)
    , .ticked [] ])

/-- An iteration of `pause` finds `m_pause` set and does nothing, or finds the
connection closed and ends the simulation, or runs a round. -/
theorem pause_cases {b b' : Broker} (h : step W J b .pause = some b') :
    (b.m_pause = true ∧ b' = b) ∨
    (b.m_pause = false ∧ ¬ b.conn.Open ∧
      b' = { b with m_pause := true, scheduled := b.scheduled - 1 }) ∨
    (b.m_pause = false ∧ ∃ (world : World) (conn : Connection), conn.Open ∧
      b' = b.afterRound world conn) := by
  simp only [step] at h
  split at h
  · cases h
  obtain ⟨r, hr⟩ := returned_eq_some.mp h
  simp only [Broker.pause, get_bind_apply] at hr
  by_cases hp : b.m_pause = true
  · left
    rw [if_pos hp] at hr
    cases hr
    exact ⟨hp, rfl⟩
  right
  rw [if_neg hp, set_bind_apply] at hr
  have hp' : b.m_pause = false := by simpa using hp
  obtain ⟨is_open, t, hopen, hr⟩ := bind_eq_ok hr
  obtain ⟨conn, hconn, rfl⟩ := zoom_eq_ok hopen
  obtain ⟨rfl, hisopen⟩ := Connection.isOpen_eq_ok hconn
  cases is_open with
  | false =>
    left
    cases hr
    refine ⟨hp', fun hop => ?_, rfl⟩
    rw [Connection.isOpen_of_open hop] at hconn
    cases hconn
  | true =>
    right
    simp only [Bool.not_true, Bool.false_eq_true, if_false] at hr
    obtain ⟨_, b1, h1, hr⟩ := bind_eq_ok hr
    obtain ⟨_, b2, h2, hr⟩ := bind_eq_ok hr
    obtain ⟨_, b3, h3, hr⟩ := bind_eq_ok hr
    obtain ⟨world, rfl⟩ := processIncoming_eq_ok h1
    obtain ⟨conn, -, rfl⟩ := sendOutgoing_eq_ok h2
    obtain ⟨conn, hc, rfl⟩ := sendTickedClient_eq_ok h3
    cases hr
    exact ⟨hp', world, conn, hc, by simp [afterRound]⟩

/-- A post extends the outgoing bundle by one text. -/
theorem post_cases {b b' : Broker} {json : Json} (h : step W J b (.post json) = some b') :
    ∃ text, (({ appendNewline := false } : JsonSingleLineWriter).write J json) = .ok text ∧
      b' = { b with
        m_outgoing := JsonParser.addGeneric true b.m_outgoing text
        trace := b.trace ++ [.posted json] } := by
  obtain ⟨r, hr⟩ := returned_eq_some.mp h
  simp only [post, get_bind_apply, eval_bind_eq_ok, modify_bind_apply] at hr
  obtain ⟨m_outgoing, hmake, hr⟩ := hr
  cases hr
  obtain ⟨text, hwrite, rfl⟩ := makeJson_eq_ok hmake
  exact ⟨text, hwrite, rfl⟩

end Pause

end Broker
end Sm4ns3
