import Sm4ns3.Verify.BrokerSteps
import Sm4ns3.Verify.Registry

/-!
# Dispatch

`processIncoming` hands every message of the queue to the handler of its type. It is
meant to skip a message without one, but the lookup throws where the dispatcher waits
for a null handler, so that one such message ends the run (`dispatch_total_iff`).
-/

namespace Sm4ns3

open Bytes Cpp Call

/-! ## Handlers that return -/

/-- The handler dereferences nothing that is unset: no null agent is removed, and the
registered agents that the message names have what moving and sending use. -/
def Request.Serves (w : World) : Request → Prop
  | .newAgents aInfo => ∀ agId ∈ aInfo.remAgentIds, ¬ w.Null agId
  | .allLocations aInfo => ∀ loc ∈ aInfo.agentLocations.toList, ∀ agent,
      w.AllAgents[loc.1]? = some (some agent) → agent.Movable w
  | .opaqueSend osMsg => ∀ sending_agent,
      w.AllAgents[osMsg.fromId]? = some (some sending_agent) →
        ∀ toId ∈ osMsg.toIds, ∀ receiving_agent,
          w.AllAgents[toId]? = some (some receiving_agent) →
            sending_agent.CanReach receiving_agent

section Serves

variable {W : Ns3} {J : Jsoncpp} {w w' : World}

/-- Adding agents neither makes nor removes a null agent. -/
theorem addAgents_null (hW : W.Documented) (ids : List StdString) (w : World) :
    ∃ w', forEach (AgentsInfoHandler.addAgent W) ids w = .ok () w' ∧
      ∀ id, w'.Null id ↔ w.Null id := by
  induction ids generalizing w with
  | nil => exact ⟨w, rfl, fun _ => Iff.rfl⟩
  | cons agId ids ih =>
    obtain ⟨agent, w₁, hadd, hadded⟩ := AgentsInfoHandler.addAgent_added hW agId w
    obtain ⟨w', hrest, hnull⟩ := ih w₁
    refine ⟨w', (bind_ok hadd _).trans hrest, fun id => (hnull id).trans ?_⟩
    rw [World.Null, World.Null, hadded.entered, Std.TreeMap.getElem?_insertIfNew]
    by_cases hid : agId = id
    · subst hid
      cases hslot : w.AllAgents[agId]? with
      | none => simp [Std.TreeMap.mem_iff_isSome_getElem?, hslot]
      | some x => simp [Std.TreeMap.mem_iff_isSome_getElem?, hslot]
    · simp [hid]

/-- Neither does removing one. -/
theorem removeAgent_null {agId : StdString} {u : Unit}
    (h : Agent.RemoveAgent agId w = .ok u w') (id : StdString) : w'.Null id ↔ w.Null id := by
  rcases Agent.RemoveAgent_eq_ok.mp h with ⟨-, rfl⟩ | ⟨⟨agent, hslot⟩, rfl⟩
  · exact Iff.rfl
  · rw [World.Null, World.Null, Std.TreeMap.getElem?_erase]
    by_cases hid : agId = id
    · subst hid
      simp [hslot]
    · simp [hid]

theorem removeAgents_returns_iff (ids : List StdString) :
    (∃ w', forEach Agent.RemoveAgent ids w = .ok () w') ↔ ∀ id ∈ ids, ¬ w.Null id := by
  induction ids generalizing w with
  | nil => exact ⟨by simp, fun _ => ⟨w, rfl⟩⟩
  | cons agId ids ih =>
    rw [List.forall_mem_cons]
    constructor
    · intro h
      rcases h with ⟨w', hrun⟩
      obtain ⟨u, w₁, hremove, hrest⟩ := bind_eq_ok hrun
      have hnull := removeAgent_null hremove
      refine ⟨?_, fun id hid => (hnull id).not.mp (ih.mp ⟨w', hrest⟩ id hid)⟩
      intro hagId
      rcases Agent.RemoveAgent_eq_ok.mp hremove with ⟨hslot, -⟩ | ⟨⟨agent, hslot⟩, -⟩
      · rw [World.Null, hslot] at hagId
        cases hagId
      · rw [World.Null, hslot] at hagId
        cases hagId
    · intro h
      rcases h with ⟨hagId, hids⟩
      obtain ⟨w₁, hremove⟩ : ∃ w₁, Agent.RemoveAgent agId w = .ok () w₁ := by
        cases hslot : w.AllAgents[agId]? with
        | none => exact ⟨w, Agent.RemoveAgent_eq_ok.mpr (.inl ⟨hslot, rfl⟩)⟩
        | some x =>
          cases x with
          | none => exact absurd hslot hagId
          | some agent => exact ⟨_, Agent.RemoveAgent_eq_ok.mpr (.inr ⟨⟨agent, hslot⟩, rfl⟩)⟩
      have hnull := removeAgent_null hremove
      obtain ⟨w', hrest⟩ := ih.mpr fun id hid => (hnull id).not.mpr (hids id hid)
      exact ⟨w', (bind_ok hremove _).trans hrest⟩

/-- Looking an id up leaves the agents as they are. -/
theorem Agent.touch_some_iff {agId k : StdString} {agent : Agent} :
    (Agent.touch w agId).AllAgents[k]? = some (some agent) ↔
      w.AllAgents[k]? = some (some agent) := by
  rw [Agent.touch_getElem?]
  by_cases hk : k = agId
  · rw [if_pos hk]
    cases w.AllAgents[k]? with
    | none => simp
    | some x => simp
  · rw [if_neg hk]

theorem sendToRecipients_returns_iff {osMsg : OpaqueSendMessage} {sending_agent : Agent}
    (toIds : List StdString) :
    (∃ w', forEach (OpaqueSendHandler.sendToRecipient W J osMsg sending_agent) toIds w =
        .ok () w') ↔
      ∀ toId ∈ toIds, ∀ receiving_agent, w.AllAgents[toId]? = some (some receiving_agent) →
        sending_agent.CanReach receiving_agent := by
  induction toIds generalizing w with
  | nil => exact ⟨by simp, fun _ => ⟨w, rfl⟩⟩
  | cons toId toIds ih =>
    rw [List.forall_mem_cons]
    cases hslot : w.AllAgents[toId]?.getD none with
    | none =>
      have hhead : OpaqueSendHandler.sendToRecipient W J osMsg sending_agent toId w =
          .ok () (Agent.touch w toId) := OpaqueSendHandler.sendToRecipient_none hslot
      rw [forEach_cons, bind_ok hhead, ih]
      simp only [Agent.touch_some_iff]
      refine ⟨fun h => ⟨fun agent hagent => ?_, h⟩, And.right⟩
      rw [hagent] at hslot
      cases hslot
    | some receiving_agent =>
      have hsome := OpaqueSendHandler.some_of_getD hslot
      have hone : (∃ w', OpaqueSendHandler.sendToRecipient W J osMsg sending_agent toId w =
          .ok () w') ↔ sending_agent.CanReach receiving_agent :=
        OpaqueSendHandler.sendToRecipient_returns_iff hsome
      constructor
      · rintro ⟨w', hrun⟩
        obtain ⟨u, w₁, hhead, hrest⟩ := bind_eq_ok hrun
        refine ⟨fun agent hagent => ?_, ?_⟩
        · rw [hsome] at hagent
          cases hagent
          exact hone.mp ⟨w₁, hhead⟩
        · rw [← OpaqueSendHandler.sendToRecipient_agents hsome hhead]
          exact ih.mp ⟨w', hrest⟩
      · rintro ⟨hreach, hrest⟩
        obtain ⟨w₁, hhead⟩ := hone.mpr (hreach receiving_agent hsome)
        rw [← OpaqueSendHandler.sendToRecipient_agents hsome hhead] at hrest
        obtain ⟨w', hrun⟩ := ih.mpr hrest
        exact ⟨w', (bind_ok hhead _).trans hrun⟩

/-- A parsed message is handled exactly when the handler dereferences nothing unset. -/
theorem Request.act_returns_iff (hW : W.Documented) (request : Request) :
    (∃ w', request.act W J w = .ok () w') ↔ request.Serves w := by
  cases request with
  | newAgents aInfo =>
    obtain ⟨w₁, hadd, hnull⟩ := addAgents_null hW aInfo.addAgentIds w
    rw [Request.act, bind_ok hadd, removeAgents_returns_iff, Request.Serves]
    simp only [hnull]
  | allLocations aInfo =>
    refine ⟨fun h => ?_, moveAgents_ok⟩
    obtain ⟨w', hrun⟩ := h
    exact (moveAgents_eq_ok hrun).1
  | opaqueSend osMsg =>
    rw [Request.act, bind_ok (Agent.getAgent_apply _ w), Request.Serves]
    cases hslot : w.AllAgents[osMsg.fromId]? with
    | none => simp
    | some agent =>
      cases agent with
      | none => simp
      | some sending_agent =>
        rw [Agent.touch_of_mem hslot, Option.getD_some]
        simp only [sendToRecipients_returns_iff, Option.some.injEq, forall_eq']

end Serves

/-! ## The messages of a queue -/

/-- The handler of the type of a message, if the type is registered. -/
def Received.handler (m : Received) : Option Handler :=
  match m.messages.getBaseMessage m.msgNumber with
  | .ok base => HandlerLookup.HandlerMap.lookup base.msg_type
  | .error _ => none

/-- What the dispatcher is meant to do with a message: its handler acts, and a message
without a handler is skipped. -/
def dispatched (W : Ns3) (J : Jsoncpp) (w : World) (m : Received) : Option World :=
  match m.handler with
  | none => some w
  | some handler => returned (handler.handle W J m.messages m.msgNumber w)

/-- The messages of the bundles, in order. -/
def queuedMessages (q : List MessageConglomerate) : List Received :=
  q.flatMap fun conglom => conglom.messageNumbers.map fun i => ⟨conglom, i⟩

/-- The handler of the message, if there is one, has nothing to parse or can parse it.
No message of a forbidden type is well-formed. -/
def WellFormedBody (J : Jsoncpp) (m : Received) : Prop :=
  m.handler = none ∨ m.handler = some .NullHandler ∨ ∃ request, Request.Parses J m request

/-- The type is registered and the handler can serve the message. -/
def Handleable (J : Jsoncpp) (w : World) (m : Received) : Prop :=
  m.handler.isSome = true ∧ ∀ request, Request.Parses J m request → request.Serves w

section Dispatch

variable {W : Ns3} {J : Jsoncpp} {w w' : World}

theorem Request.Parses.handler {m : Received} {request : Request} (h : request.Parses J m) :
    m.handler.isSome = true := by
  unfold Received.handler
  cases request with
  | newAgents aInfo => rw [h.1]; rfl
  | allLocations aInfo => rw [h.1]; rfl
  | opaqueSend osMsg => rw [h.1]; rfl

/-- A message with a handler is handed to it. -/
theorem handled_of_handler {m : Received} (h : m.handler.isSome = true) :
    handled W J w m = dispatched W J w m := by
  unfold Received.handler at h
  unfold dispatched Received.handler
  cases hbase : m.messages.getBaseMessage m.msgNumber with
  | error e =>
    rw [hbase] at h
    cases h
  | ok base =>
    rw [hbase] at h
    obtain ⟨handler, hhandler⟩ := Option.isSome_iff_exists.mp h
    have hlookup : HandlerLookup.getHandler base.msg_type = .ok handler := by
      simp only [HandlerLookup.getHandler, hhandler]
    rw [handled, Request.handleMessage_of_handler hbase hlookup]
    simp only [hhandler]

/-- The lookup throws for a message without a handler. -/
theorem handled_of_no_handler {m : Received} (h : m.handler = none) :
    handled W J w m = none := by
  unfold Received.handler at h
  unfold handled handleMessage
  cases hbase : m.messages.getBaseMessage m.msgNumber with
  | error e => rfl
  | ok base =>
    rw [hbase] at h
    have hlookup : HandlerLookup.getHandler base.msg_type =
        .error (.exception "Unknown handler for message type.") := by
      simp only [HandlerLookup.getHandler, h]
    simp only [eval_ok, pure_bind_apply, hlookup]
    rfl

/-- A well-formed message is handled exactly when it is handleable. -/
theorem handled_iff (hW : W.Documented) {m : Received} (hm : WellFormedBody J m) :
    (∃ w', handled W J w m = some w') ↔ Handleable J w m := by
  rcases hm with hnone | hnull | ⟨request, hparses⟩
  · rw [handled_of_no_handler hnone, Handleable, hnone]
    simp
  · have hsome : m.handler.isSome = true := by rw [hnull]; rfl
    have hrun : handled W J w m = some w := by
      rw [handled_of_handler hsome, dispatched, hnull]
      rfl
    refine ⟨fun _ => ⟨hsome, fun request hparses => ?_⟩, fun _ => ⟨w, hrun⟩⟩
    unfold Received.handler at hnull
    cases request with
    | newAgents aInfo => rw [hparses.1] at hnull; cases hnull
    | allLocations aInfo => rw [hparses.1] at hnull; cases hnull
    | opaqueSend osMsg => rw [hparses.1] at hnull; cases hnull
  · have hact : ∀ r : Request, r.Parses J m →
        ((∃ w', handled W J w m = some w') ↔ r.Serves w) := by
      intro r hr
      rw [← Request.act_returns_iff (J := J) hW, handled, hr.handleMessage]
      exact exists_congr fun w' => returned_unit_eq_some
    constructor
    · exact fun h => ⟨hparses.handler, fun r hr => (hact r hr).mp h⟩
    · exact fun h => (hact request hparses).mpr (h.2 request hparses)

/-- Bundles are handled as the messages in them, one after the other. -/
theorem processQueue_run {b : Broker} (q : List MessageConglomerate) :
    (∃ b', Broker.processQueue W J q b = .ok () b' ∧ b'.world = w') ↔
      Transition.run (handled W J) b.world (queuedMessages q) = some w' := by
  induction q generalizing b with
  | nil => simp [Broker.processQueue, queuedMessages]
  | cons conglom rest ih =>
    have hconglom : ∀ w, returned (Broker.handleConglomerate W J conglom w) =
        Transition.run (handled W J) w
          (conglom.messageNumbers.map fun i => (⟨conglom, i⟩ : Received)) := by
      intro w
      rw [Broker.handleConglomerate, returned_forEach, Transition.run_map]
      rfl
    rw [queuedMessages, List.flatMap_cons, Transition.run_append, ← hconglom, ← queuedMessages,
      Option.bind_eq_some_iff]
    simp only [Broker.processQueue, Broker.record, modify_bind_apply]
    constructor
    · intro h
      rcases h with ⟨b', hrun, hw'⟩
      obtain ⟨u, b₁, hworld, hrest⟩ := bind_eq_ok hrun
      obtain ⟨w₁, hhandle, rfl⟩ := zoom_eq_ok hworld
      exact ⟨w₁, returned_eq_some.mpr ⟨u, hhandle⟩, ih.mp ⟨b', hrest, hw'⟩⟩
    · intro h
      rcases h with ⟨w₁, hhandle, hrest⟩
      obtain ⟨u, hhandle⟩ := returned_eq_some.mp hhandle
      let popped : Broker := { b with
        m_incoming := { messageList := rest }, trace := b.trace ++ [.popped conglom] }
      have hworld : Broker.onWorld (Broker.handleConglomerate W J conglom) popped =
          .ok () { popped with world := w₁ } := zoom_ok hhandle
      obtain ⟨b', hrun, hw'⟩ := (ih (b := { popped with world := w₁ })).mpr hrest
      exact ⟨b', (bind_ok hworld _).trans hrun, hw'⟩

/-- The messages are handled, as the dispatcher is meant to, exactly when each is
handleable in its turn. -/
theorem run_handled_iff (hW : W.Documented) {ms : List Received}
    (hms : ∀ m ∈ ms, WellFormedBody J m) :
    (∃ w', Transition.run (handled W J) w ms = some w' ∧
        Transition.run (dispatched W J) w ms = some w') ↔
      Transition.Along (dispatched W J) (Handleable J) w ms := by
  induction ms generalizing w with
  | nil => simp [Transition.Along]
  | cons m ms ih =>
    obtain ⟨hm, hms⟩ := List.forall_mem_cons.mp hms
    constructor
    · intro h
      rcases h with ⟨w', hhandled, hdispatched⟩
      obtain ⟨w₁, hstep, hrest⟩ := Transition.run_cons_eq_some.mp hhandled
      have hhandleable := (handled_iff hW hm).mp ⟨w₁, hstep⟩
      rw [handled_of_handler hhandleable.1] at hstep
      refine ⟨hhandleable, fun t ht => (ih hms).mp ?_⟩
      rw [hstep] at ht
      cases ht
      rw [Transition.run_cons, hstep] at hdispatched
      exact ⟨w', hrest, hdispatched⟩
    · intro h
      rcases h with ⟨hhandleable, hrest⟩
      obtain ⟨w₁, hstep⟩ := (handled_iff hW hm).mpr hhandleable
      have hdispatched := hstep
      rw [handled_of_handler hhandleable.1] at hdispatched
      obtain ⟨w', hrun, hmeant⟩ := (ih hms).mpr (hrest w₁ hdispatched)
      exact ⟨w', Transition.run_cons_eq_some.mpr ⟨w₁, hstep, hrun⟩,
        Transition.run_cons_eq_some.mpr ⟨w₁, hdispatched, hmeant⟩⟩

/-- The queue is emptied, every message handed to the handler of its type and the others
skipped, exactly when no message is of a type that is not registered and none makes
its handler dereference what is unset. -/
theorem dispatch_total_iff (hW : W.Documented) {b : Broker}
    (hbody : ∀ m ∈ queuedMessages b.m_incoming.messageList, WellFormedBody J m) :
    (∃ b', Broker.processIncoming W J b = .ok () b' ∧ b'.m_incoming = {} ∧
        Transition.run (dispatched W J) b.world (queuedMessages b.m_incoming.messageList) =
          some b'.world) ↔
      Transition.Along (dispatched W J) (Handleable J) b.world
        (queuedMessages b.m_incoming.messageList) := by
  rw [← run_handled_iff hW hbody]
  constructor
  · intro h
    rcases h with ⟨b', hrun, _, hdispatched⟩
    exact ⟨b'.world, (processQueue_run _).mp ⟨b', hrun, rfl⟩, hdispatched⟩
  · intro h
    rcases h with ⟨w', hhandled, hdispatched⟩
    obtain ⟨b', hrun, rfl⟩ := (processQueue_run _).mpr hhandled
    refine ⟨b', hrun, ?_, hdispatched⟩
    obtain ⟨world, rfl⟩ := Broker.processIncoming_eq_ok hrun
    rfl

/-- A message of a type that is not registered, anywhere in the queue, ends the handling. -/
theorem processIncoming_unregistered {b : Broker} {m : Received} {before after : List Received}
    (hqueue : queuedMessages b.m_incoming.messageList = before ++ m :: after)
    (h : m.handler = none) : ¬ ∃ b', Broker.processIncoming W J b = .ok () b' := by
  intro hgiven
  rcases hgiven with ⟨b', hrun⟩
  have hhandled := (processQueue_run _).mp ⟨b', hrun, rfl⟩
  rw [hqueue, Transition.run_append, Option.bind_eq_some_iff] at hhandled
  obtain ⟨w, -, hrest⟩ := hhandled
  rw [Transition.run_cons, handled_of_no_handler h] at hrest
  cases hrest

end Dispatch

/-! ## Instances -/

open OpaqueSendHandler (bundleWith twoAgents)

/-- A broker with these agents and this queue. -/
def brokerWith (w : World) (q : List MessageConglomerate) : Broker :=
  { Broker.ready with world := w, m_incoming := { messageList := q } }

theorem brokerWith_queue (w : World) (q : List MessageConglomerate) :
    (brokerWith w q).m_incoming.messageList = q := rfl

theorem brokerWith_world (w : World) (q : List MessageConglomerate) :
    (brokerWith w q).world = w := rfl

theorem queuedMessages_enterThree :
    queuedMessages [enterThree.messages] = [enterThree.toReceived] := by
  have hnumbers : enterThree.messages.messageNumbers = [0] := by decide +kernel
  rw [queuedMessages, List.flatMap_cons, hnumbers]
  rfl

theorem enterThree_handleable : Handleable Jsoncpp.reference twoAgents enterThree.toReceived := by
  refine ⟨enterThree.parses.handler, fun request hparses => ?_⟩
  have htype : enterThree.toReceived.messages.getBaseMessage enterThree.toReceived.msgNumber =
      .ok { msg_type := str "new_agents" } := by decide +kernel
  cases request with
  | newAgents aInfo => exact fun agId _ => twoAgents_exact.not_null agId
  | allLocations aInfo =>
    have heq := htype.symm.trans hparses.1
    exact absurd (congrArg MessageBase.msg_type (Except.ok.inj heq)) (by decide)
  | opaqueSend osMsg =>
    have heq := htype.symm.trans hparses.1
    exact absurd (congrArg MessageBase.msg_type (Except.ok.inj heq)) (by decide)


theorem dispatch_total_iff_one :
    ∃ b', Broker.processIncoming Ns3.reference Jsoncpp.reference
        (brokerWith twoAgents [enterThree.messages]) = .ok () b' ∧ b'.m_incoming = {} ∧
      Transition.run (dispatched Ns3.reference Jsoncpp.reference) twoAgents
        (queuedMessages [enterThree.messages]) = some b'.world := by
  have hbody : ∀ m ∈ queuedMessages [enterThree.messages],
      WellFormedBody Jsoncpp.reference m := by
    intro m hm
    rw [queuedMessages_enterThree] at hm
    obtain rfl := List.mem_singleton.mp hm
    exact .inr (.inr ⟨enterThree.request, enterThree.parses⟩)
  have halong : Transition.Along (dispatched Ns3.reference Jsoncpp.reference)
      (Handleable Jsoncpp.reference) twoAgents (queuedMessages [enterThree.messages]) := by
    rw [queuedMessages_enterThree]
    exact ⟨enterThree_handleable, fun _ _ => trivial⟩
  have hqueue := brokerWith_queue twoAgents [enterThree.messages]
  have hworld := brokerWith_world twoAgents [enterThree.messages]
  generalize brokerWith twoAgents [enterThree.messages] = b at hqueue hworld ⊢
  rw [← hqueue, ← hworld] at halong
  rw [← hqueue] at hbody
  rw [← hqueue, ← hworld]
  exact (dispatch_total_iff Ns3.reference_documented hbody).mpr halong

/-- A bundle with a message of an unknown type. -/
def unknownType : MessageConglomerate := bundleWith (str "\x7b\"msg_type\":\"x\"\x7d")

theorem queuedMessages_unknownType :
    queuedMessages [unknownType, enterThree.messages] =
      [⟨unknownType, 0⟩, enterThree.toReceived] := by
  have hnumbers : unknownType.messageNumbers = [0] := by decide +kernel
  rw [queuedMessages, List.flatMap_cons, hnumbers, ← queuedMessages, queuedMessages_enterThree]
  rfl

theorem unknownType_handler : (⟨unknownType, 0⟩ : Received).handler = none := by
  decide +kernel

/-- The lookup throws for the unknown type, and the agent of the next bundle is not entered. -/
theorem unknown_type_not_skipped :
    (∀ m ∈ queuedMessages [unknownType, enterThree.messages],
        WellFormedBody Jsoncpp.reference m) ∧
      (∃ w', Transition.run (dispatched Ns3.reference Jsoncpp.reference) twoAgents
        (queuedMessages [unknownType, enterThree.messages]) = some w') ∧
      ¬ ∃ b', Broker.processIncoming Ns3.reference Jsoncpp.reference
          (brokerWith twoAgents [unknownType, enterThree.messages]) = .ok () b' := by
  have hparsed : WellFormedBody Jsoncpp.reference enterThree.toReceived :=
    .inr (.inr ⟨enterThree.request, enterThree.parses⟩)
  refine ⟨?_, ?_, ?_⟩
  · rw [queuedMessages_unknownType, List.forall_mem_cons, List.forall_mem_singleton]
    exact ⟨.inl unknownType_handler, hparsed⟩
  · obtain ⟨w', hstep⟩ := (handled_iff Ns3.reference_documented hparsed).mpr
      enterThree_handleable
    rw [handled_of_handler enterThree.parses.handler] at hstep
    have hskip : dispatched Ns3.reference Jsoncpp.reference twoAgents ⟨unknownType, 0⟩ =
        some twoAgents := by
      rw [dispatched, unknownType_handler]
    rw [queuedMessages_unknownType]
    exact ⟨w', Transition.run_cons_eq_some.mpr ⟨twoAgents, hskip,
      Transition.run_cons_eq_some.mpr ⟨w', hstep, rfl⟩⟩⟩
  · have hqueue : queuedMessages
        (brokerWith twoAgents [unknownType, enterThree.messages]).m_incoming.messageList =
          [] ++ ⟨unknownType, 0⟩ :: [enterThree.toReceived] := by
      rw [brokerWith_queue, queuedMessages_unknownType, List.nil_append]
    exact processIncoming_unregistered hqueue unknownType_handler

end Sm4ns3
