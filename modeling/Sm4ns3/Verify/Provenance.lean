import Sm4ns3.Verify.Handshake
import Sm4ns3.Verify.Routing
import Sm4ns3.Verify.SystemRuns

/-!
# Where packets and messages come from

Handlers add to what was sent, and each packet they add is for a message that asks
to send it (`sent_traced`). ns-3 delivers what was sent, so the packets delivered in
a run of the system have an `opaque_send` behind them, too; and as their receivers
pass the same message on for each, the answers to Sim Mobility tell the number of
packets and nothing else (`answers_only_count`).
-/

namespace Sm4ns3

open Bytes Cpp Call

/-! ## Calls that send nothing -/

/-- The call leaves what was sent. -/
def Quiet {α : Type} (x : Call World α) : Prop :=
  ∀ sent, Keeps (fun w : World => w.sent = sent) x

/-- What holds of `sent` survives it. -/
theorem Quiet.keeps {α : Type} {x : Call World α} (hx : Quiet x) {I : World → Prop}
    (hI : ∀ w w', I w → w'.sent = w.sent → I w') : Keeps I x :=
  fun w hw => hI w _ hw (hx w.sent w rfl)

theorem Quiet.bind {α β : Type} {x : Call World α} {f : α → Call World β} (hx : Quiet x)
    (hf : ∀ a, Quiet (f a)) : Quiet (x >>= f) :=
  fun sent => (hx sent).bind fun a => hf a sent

theorem quiet_modify {f : World → World} (h : ∀ w, (f w).sent = w.sent) :
    Quiet (modify f : Call World PUnit) :=
  fun _ => Keeps.modify fun w hw => (h w).trans hw

theorem quiet_createNode : Quiet createNode := fun _ _ hw => hw

theorem quiet_createSocket (node : Option Nat) (agent : Agent) :
    Quiet (createSocket node agent) := by
  intro sent w hw
  unfold createSocket
  cases node with
  | none => exact hw
  | some node => exact hw

theorem quiet_eval {α : Type} (x : Except Fault α) : Quiet (eval x) := fun _ => Keeps.eval x

/-- A new agent is set up. -/
theorem quiet_init (W : Ns3) (agent : Agent) : Quiet (agent.init W none) := by
  unfold Agent.init
  refine quiet_createNode.bind fun node => Quiet.bind ?_ fun _ => ?_
  · exact quiet_modify fun _ => rfl
  · exact (quiet_createSocket _ _).bind fun socket => quiet_eval _

theorem quiet_addAgent (W : Ns3) (agId : StdString) :
    Quiet (AgentsInfoHandler.addAgent W agId) := by
  intro sent w hw
  unfold AgentsInfoHandler.addAgent createAgent
  rw [bind_assoc, get_bind_apply, bind_assoc, set_bind_apply, pure_bind_apply]
  have hinit := quiet_init W { self := w.agents, m_AgentId := agId }
  have hadd : ∀ agent, Quiet (Agent.AddAgent agId agent) := fun agent => quiet_modify fun _ => rfl
  exact (hinit.bind hadd) sent _ hw

theorem quiet_removeAgent (agId : StdString) : Quiet (Agent.RemoveAgent agId) := by
  intro sent w hw
  rw [Agent.RemoveAgent, get_bind_apply]
  cases w.AllAgents[agId]? with
  | none => exact hw
  | some agent =>
    cases agent with
    | none => exact hw
    | some agent => exact hw

theorem quiet_moveAgent (loc : StdString × DPoint) :
    Quiet (AllLocationHandler.moveAgent loc) := by
  intro sent w hw
  rw [AllLocationHandler.moveAgent, get_bind_apply]
  cases w.AllAgents[loc.1]? with
  | none => exact hw
  | some agent =>
    cases agent with
    | none => exact hw
    | some agent =>
      simp only
      unfold Agent.SetPosition
      cases agent.m_node with
      | none => exact hw
      | some node =>
        simp only [get_bind_apply]
        split
        · exact hw
        · exact hw

/-! ## The message behind a packet -/

namespace OpaqueSendHandler

/-- The packet was made for this message. -/
def MadeFor (J : Jsoncpp) (m : Received) (s : Sent) : Prop :=
  m.handler = some .OpaqueSendHandler ∧ ∃ osMsg,
    JsonParser.parseOpaqueSend J m.messages m.msgNumber = .ok osMsg ∧ Routed J osMsg s

variable {W : Ns3} {J : Jsoncpp} {w w' : World}

/-- One message: nothing that was sent is taken back, and what is added was made for it. -/
theorem sent_of_handled {m : Received} (h : handled W J w m = some w') :
    SentSince w (MadeFor J m) w' := by
  rw [handled, returned_unit_eq_some, handleMessage, eval_bind_eq_ok] at h
  obtain ⟨base, hbase, h⟩ := h
  rw [eval_bind_eq_ok] at h
  obtain ⟨handler, hhandler, h⟩ := h
  have hsince : ∀ {x : Call World Unit}, Quiet x → x w = .ok () w' → SentSince w (MadeFor J m) w' :=
    fun hx hrun => ⟨[], by rw [(hx w.sent).ok rfl hrun, List.append_nil], by simp⟩
  cases handler with
  | AllLocationHandler =>
    refine hsince (Quiet.bind (quiet_eval _) fun aInfo => ?_) h
    exact fun sent => Keeps.forEach fun loc _ => quiet_moveAgent loc sent
  | AgentsInfoHandler =>
    refine hsince (Quiet.bind (quiet_eval _) fun aInfo => Quiet.bind (fun sent => ?_)
      fun _ sent => ?_) h
    · exact Keeps.forEach fun agId _ => quiet_addAgent W agId sent
    · exact Keeps.forEach fun agId _ => quiet_removeAgent agId sent
  | NullHandler => exact hsince (fun _ => Keeps.pure ()) h
  | InvalidHandler => cases h
  | OpaqueSendHandler =>
    have hm : m.handler = some .OpaqueSendHandler := by
      rw [HandlerLookup.getHandler] at hhandler
      rw [Received.handler, hbase]
      cases hlookup : HandlerLookup.HandlerMap.lookup base.msg_type with
      | none =>
        rw [hlookup] at hhandler
        cases hhandler
      | some found =>
        rw [hlookup] at hhandler
        cases hhandler
        exact hlookup
    have hparse := h
    rw [Handler.handle, handle, eval_bind_eq_ok] at hparse
    obtain ⟨osMsg, hparse, -⟩ := hparse
    obtain ⟨new, hsent, hnew⟩ := handle_sends W w hparse
    have hfinal : final (handle W J m.messages m.msgNumber w) = w' := by
      rw [show handle W J m.messages m.msgNumber w = .ok () w' from h]
      rfl
    rw [hfinal] at hsent
    exact ⟨new, hsent, fun s hs => ⟨hm, osMsg, hparse, hnew s hs⟩⟩

/-- A run of messages: every packet was made for one of them. -/
theorem sent_traced {msgs : List Received} (h : Transition.run (handled W J) w msgs = some w') :
    SentSince w (fun s => ∃ m ∈ msgs, MadeFor J m s) w' := by
  refine Transition.history
    (R := fun done w' => SentSince w (fun s => ∃ m ∈ done, MadeFor J m s) w')
    (SentSince.refl w _) (fun done w₁ m w₂ h₁ hstep => ?_) h
  obtain ⟨new, hsent, hnew⟩ := h₁
  obtain ⟨more, hsent', hmore⟩ := sent_of_handled hstep
  refine ⟨new ++ more, by rw [hsent', hsent, List.append_assoc], fun s hs => ?_⟩
  rcases List.mem_append.mp hs with hs | hs
  · obtain ⟨m', hm', hmade⟩ := hnew s hs
    exact ⟨m', List.mem_append_left _ hm', hmade⟩
  · exact ⟨m, List.mem_append_right _ List.mem_cons_self, hmore s hs⟩

end OpaqueSendHandler

/-! ## In a run of the system -/

namespace System

open OpaqueSendHandler

variable {W : Ns3} {J : Jsoncpp} {s₀ s s' : System} {past actions : List Action} {action : Action}
  {acts : List (Rounds.Act (BundleHeader × StdString) Json)} {a : Abstract}

/-- What a step does to the agents is what handling messages does. -/
theorem world_step (h : Follows J W s₀ past s acts a) (hstep : step W J s action = some s') :
    ∃ msgs, Transition.run (handled W J) s.broker.world msgs = some s'.broker.world := by
  obtain ⟨session, begun, hlink, -⟩ := h.octets
  cases action with
  | send octets =>
    simp only [step, Option.ite_none_left_eq_some, Option.some.injEq] at hstep
    obtain ⟨-, rfl⟩ := hstep
    exact ⟨[], rfl⟩
  | close =>
    cases hstep
    exact ⟨[], rfl⟩
  | complete =>
    simp only [step, Option.ite_none_right_eq_some, Option.map_eq_some_iff,
      returned_eq_some] at hstep
    obtain ⟨hreadable, b', ⟨u, hrun⟩, rfl⟩ := hstep
    have hpending : session.pending ≠ [] := by
      intro hnil
      simp [readable, hlink.session, Session.awaited, hnil] at hreadable
    obtain ⟨c', -, -, -, -, -, ⟨rfl, -⟩ | ⟨bundle, -, rfl, -⟩⟩ :=
      Broker.completeRead_cases hlink hpending hrun
    · exact ⟨[], rfl⟩
    · exact ⟨[], rfl⟩
  | pause =>
    simp only [step, Option.map_eq_some_iff] at hstep
    obtain ⟨b', hrun, rfl⟩ := hstep
    by_cases hpause : s.broker.m_pause = true
    · rw [Broker.pause_waits hpause h.scheduled] at hrun
      cases hrun
      exact ⟨[], rfl⟩
    · obtain ⟨world, c', -, hworld, rfl, -⟩ :=
        Broker.round_eq_some hlink h.outgoing (by simpa using hpause) hrun
      exact ⟨_, hworld⟩
  | deliver callback packets =>
    simp only [step, Option.ite_none_left_eq_some, Option.map_eq_some_iff,
      returned_eq_some] at hstep
    obtain ⟨-, b', ⟨u, hrun⟩, rfl⟩ := hstep
    obtain rfl := Broker.receivePackets_eq_ok h.outgoing hrun
    exact ⟨[], rfl⟩

/-- What was delivered was sent. -/
theorem delivered_sent (hs : s₀.Ready) (hrun : Transition.run (step W J) s₀ actions = some s) :
    ∀ packet ∈ delivered actions, ∃ sent ∈ s.broker.world.sent, sent.packet = packet := by
  induction actions using List.reverseRecOn generalizing s with
  | nil => simp [delivered]
  | append_singleton past action ih =>
    obtain ⟨t, hpast, hstep⟩ := Transition.run_concat_eq_some.mp hrun
    obtain ⟨acts, a, -, h⟩ := follows_of_run hs hpast
    obtain ⟨msgs, hworld⟩ := world_step h hstep
    obtain ⟨new, hsent, -⟩ := sent_traced hworld
    intro packet hmem
    rw [delivered_concat] at hmem
    rcases List.mem_append.mp hmem with hmem | hmem
    · obtain ⟨sent, hmem', hpacket⟩ := ih hpast packet hmem
      exact ⟨sent, by rw [hsent]; exact List.mem_append_left _ hmem', hpacket⟩
    · cases action with
      | deliver callback packets =>
        have hpackets : packet ∈ packets := by simpa [delivered] using hmem
        simp only [step, Option.ite_none_left_eq_some] at hstep
        obtain ⟨hway, -⟩ := hstep
        simp only [Bool.or_eq_true, Bool.not_eq_true', not_or, Bool.not_eq_false,
          onTheWay_iff] at hway
        obtain ⟨-, -, -, hsent'⟩ := hway
        obtain ⟨sent, hmem', hpacket, -⟩ := hsent' packet hpackets
        exact ⟨sent, by rw [hsent]; exact List.mem_append_left _ hmem', hpacket⟩
      | _ => simp [delivered] at hmem

/-- Every packet that ns-3 delivers was made for a message that asks to send it, in a bundle
that has come and was handled in a round: the agents are as if these bundles had been
handled one after the other. -/
theorem packets_traced (hs : s₀.Ready) (hnone : s₀.broker.world.sent = [])
    (hrun : Transition.run (step W J) s₀ actions = some s) :
    ∃ (bundles : List (BundleHeader × StdString)) (coming : StdString),
      s₀.unread ++ sentOctets actions = (bundles.map Session.frame).flatten ++ coming ∧
      (∀ bundle ∈ bundles, Session.Framed bundle) ∧
      Transition.run (handled W J) s₀.broker.world (queuedMessages (decoded J bundles)) =
        some s.broker.world ∧
      ∀ packet ∈ delivered actions, ∃ bundle ∈ bundles, ∃ conglom,
        Broker.accepted J bundle.1 bundle.2 = some conglom ∧
        ∃ msgNumber ∈ conglom.messageNumbers, ∃ sent : Sent, sent.packet = packet ∧
          MadeFor J ⟨conglom, msgNumber⟩ sent := by
  obtain ⟨acts, a, -, h⟩ := follows_of_run hs hrun
  obtain ⟨session, begun, hlink, hoctets⟩ := h.octets
  obtain ⟨new, hsent, hnew⟩ := sent_traced h.world
  refine ⟨a.taken, (a.waiting.map Session.frame).flatten ++ (begun ++ session.input), ?_,
    fun bundle hbundle => h.framed bundle ?_, h.world, ?_⟩
  · rw [hoctets, ← h.sound.requests, List.map_append, List.flatten_append, List.append_assoc]
  · rw [← h.sound.requests]
    exact List.mem_append_left _ hbundle
  · intro packet hmem
    obtain ⟨sent, hmem', rfl⟩ := delivered_sent hs hrun packet hmem
    rw [hsent, hnone, List.nil_append] at hmem'
    obtain ⟨m, hm, hmade⟩ := hnew sent hmem'
    obtain ⟨conglom, hconglom, hm⟩ := List.mem_flatMap.mp hm
    obtain ⟨bundle, hbundle, haccepted⟩ := List.mem_filterMap.mp hconglom
    obtain ⟨msgNumber, hnumber, rfl⟩ := List.mem_map.mp hm
    exact ⟨bundle, hbundle, conglom, haccepted, msgNumber, hnumber, sent, rfl, hmade⟩

/-- What agent `1` sends to agent `2`. -/
def onePacket : StdString :=
  (JsonSingleLineWriter.write Jsoncpp.reference { appendNewline := false }
    (opaqueReceive (str "1") (str "x") (str "2"))).toOption.getD []

/-- Agent `1` is told to send to agent `2`, and does. -/
def oneSends : List Action :=
  [.send (Session.frame (Registration.bundled (str ("\x7b\"broadcast\":false,\"data\":\"x\"," ++
      "\"format\":\"\",\"from_id\":\"1\",\"msg_type\":\"opaque_send\",\"tech\":\"\"," ++
      "\"to_ids\":[\"2\"]\x7d")))),
    .complete, .complete, .pause,
    .deliver { socket := 1, receiver := 1, id := str "2", address := some 1 } [onePacket]]

theorem packets_traced_one : ∃ s,
    Transition.run (step Ns3.reference Jsoncpp.reference) freshTwo oneSends = some s ∧
    ∃ (bundles : List (BundleHeader × StdString)) (coming : StdString),
      freshTwo.unread ++ sentOctets oneSends = (bundles.map Session.frame).flatten ++ coming ∧
      (∀ bundle ∈ bundles, Session.Framed bundle) ∧
      Transition.run (handled Ns3.reference Jsoncpp.reference) freshTwo.broker.world
        (queuedMessages (decoded Jsoncpp.reference bundles)) = some s.broker.world ∧
      ∀ packet ∈ delivered oneSends, ∃ bundle ∈ bundles, ∃ conglom,
        Broker.accepted Jsoncpp.reference bundle.1 bundle.2 = some conglom ∧
        ∃ msgNumber ∈ conglom.messageNumbers, ∃ sent : Sent, sent.packet = packet ∧
          MadeFor Jsoncpp.reference ⟨conglom, msgNumber⟩ sent := by
  obtain ⟨s, hrun⟩ := Option.isSome_iff_exists.mp
    (by decide +kernel : (Transition.run (step Ns3.reference Jsoncpp.reference) freshTwo
      oneSends).isSome = true)
  have hnone : freshTwo.broker.world.sent = [] := by decide +kernel
  exact ⟨s, hrun, packets_traced freshTwo_ready hnone hrun⟩

/-- The receiver of a packet that was made for a message passes `blank` on. -/
theorem passedOn_madeFor (hJ : J.ReadsBack) {m : Received} {sent : Sent} (h : MadeFor J m sent) :
    Broker.passedOn J sent.packet = some blank := by
  obtain ⟨-, osMsg, -, toId, -, writer, hwrite⟩ := h
  have hne : sent.packet.isEmpty = false := by
    simpa using write_routed_ne_nil hwrite
  rw [Broker.passedOn, hne]
  simp [JsonParser.parseJSON, parse_routed hJ hwrite, forwarded_opaqueReceive, Except.toOption]

theorem passedOn_blank {packets : List StdString}
    (h : ∀ packet ∈ packets, Broker.passedOn J packet = some blank) :
    passedOn J packets = List.replicate packets.length blank := by
  induction packets with
  | nil => rfl
  | cons packet packets ih =>
    obtain ⟨hpacket, hpackets⟩ := List.forall_mem_cons.mp h
    have hrest := ih hpackets
    rw [passedOn] at hrest ⊢
    rw [List.filterMap_cons_some hpacket, hrest, List.length_cons, List.replicate_succ]

/-- The messages in the answers to Sim Mobility are the same one again and again, as often as
packets were delivered before the round: nothing that a packet says gets there. -/
theorem answers_only_count (hJ : J.ReadsBack) (hs : s₀.Ready)
    (hnone : s₀.broker.world.sent = [])
    (hrun : Transition.run (step W J) s₀ actions = some s) :
    ∃ log notes, s.written = s₀.written ++ ((replies J [] log).map Session.frame).flatten ∧
      log.flatMap Prod.snd ++ notes = List.replicate (delivered actions).length blank := by
  obtain ⟨acts, a, -, h⟩ := follows_of_run hs hrun
  refine ⟨a.log, a.notes, h.replied, ?_⟩
  have hnotes : a.log.flatMap Prod.snd ++ a.notes = passedOn J (delivered actions) :=
    h.sound.notes.trans h.noted
  obtain ⟨new, hsent, hnew⟩ := sent_traced h.world
  have hall : ∀ packet ∈ delivered actions, Broker.passedOn J packet = some blank := by
    intro packet hmem
    obtain ⟨sent, hmem', rfl⟩ := delivered_sent hs hrun packet hmem
    rw [hsent, hnone, List.nil_append] at hmem'
    obtain ⟨m, -, hmade⟩ := hnew sent hmem'
    exact passedOn_madeFor hJ hmade
  exact hnotes.trans (passedOn_blank hall)

theorem answers_only_count_one : ∃ s,
    Transition.run (step Ns3.reference Jsoncpp.reference) freshTwo oneSends = some s ∧
    ∃ log notes, s.written = freshTwo.written ++
        ((replies Jsoncpp.reference [] log).map Session.frame).flatten ∧
      log.flatMap Prod.snd ++ notes = List.replicate (delivered oneSends).length blank := by
  obtain ⟨s, hrun⟩ := Option.isSome_iff_exists.mp
    (by decide +kernel : (Transition.run (step Ns3.reference Jsoncpp.reference) freshTwo
      oneSends).isSome = true)
  have hnone : freshTwo.broker.world.sent = [] := by decide +kernel
  exact ⟨s, hrun,
    answers_only_count Jsoncpp.reference_readsBack freshTwo_ready hnone hrun⟩

end System
end Sm4ns3
