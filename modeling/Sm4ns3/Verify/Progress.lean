import Sm4ns3.Verify.ArenaRuns

/-!
# When the program survives

A call that throws or faults ends the program, on either thread. `CanGoOn` says that
nothing that is due next does. As long as Sim Mobility sends bundles that can be
decoded and keeps its end open, no order of steps leads anywhere else, if and only if
their messages can be handled one after the other and no agent is deleted to which a
packet was sent, whose socket would call it all the same (`survives_iff`). For the
program started as `Default` the arena says when the messages can be handled
(`default_survives_iff`).
-/

namespace Sm4ns3

open Bytes Cpp Call

namespace System

open OpaqueSendHandler

/-- Every socket that a packet was sent to has its agent. -/
def ReceiversKept (w : World) : Prop :=
  ∀ sent ∈ w.sent, ∀ callback ∈ w.callbacks, callback.address = some sent.remote →
    w.holds callback = true

/-- Whatever is due next returns. -/
structure CanGoOn (W : Ns3) (J : Jsoncpp) (s : System) : Prop where
  complete : s.readable = true → ∃ s', step W J s .complete = some s'
  pause : ∃ s', step W J s .pause = some s'
  deliver : ∀ callback packets, s.pausing = false → s.onTheWay callback packets = true →
    ∃ s', step W J s (.deliver callback packets) = some s'

variable {W : Ns3} {J : Jsoncpp} {s₀ s : System} {past actions : List Action}
  {acts : List (Rounds.Act (BundleHeader × StdString) Json)} {a : Abstract}
  {bundles : List (BundleHeader × StdString)} {rest : StdString}

/-! ## Reads -/

/-- As long as Sim Mobility does not close its end, it is open. -/
theorem closed_of_run (hrun : Transition.run (step W J) s₀ actions = some s)
    (hnot : Action.close ∉ actions) : s.closed = s₀.closed := by
  induction actions generalizing s₀ with
  | nil =>
    cases hrun
    rfl
  | cons action actions ih =>
    obtain ⟨t, hstep, hrest⟩ := Transition.run_cons_eq_some.mp hrun
    obtain ⟨hne, hnot⟩ := not_or.mp (mt List.mem_cons.mpr hnot)
    refine (ih hrest hnot).trans ?_
    cases action with
    | close => exact absurd rfl hne
    | send octets =>
      simp only [step, Option.ite_none_left_eq_some, Option.some.injEq] at hstep
      obtain ⟨-, rfl⟩ := hstep
      rfl
    | complete =>
      simp only [step, Option.ite_none_right_eq_some, Option.map_eq_some_iff] at hstep
      obtain ⟨-, b, -, rfl⟩ := hstep
      rfl
    | pause =>
      simp only [step, Option.map_eq_some_iff] at hstep
      obtain ⟨b, -, rfl⟩ := hstep
      rfl
    | deliver callback packets =>
      simp only [step, Option.ite_none_left_eq_some, Option.map_eq_some_iff] at hstep
      obtain ⟨-, b, -, rfl⟩ := hstep
      rfl

/-- On an open connection a read that is due has its octets. -/
theorem awaited_of_readable {session : Session} (hsession : s.broker.conn.m_session = some session)
    (hopen : s.closed = false) (hreadable : s.readable = true) :
    ∃ n, session.awaited = some n ∧ n ≤ session.input.length := by
  rw [readable, hsession] at hreadable
  cases hawaited : session.awaited with
  | none => simp [hawaited] at hreadable
  | some n => exact ⟨n, rfl, by simpa [hawaited, hopen] using hreadable⟩

/-- Without octets nothing is awaited that is there. -/
theorem not_awaited {session : Session} {begun : StdString}
    (hlink : Link s.broker.conn session begun) (hbegun : begun = []) (hinput : session.input = [])
    {n : Nat} (hawaited : session.awaited = some n) : ¬ n ≤ session.input.length := by
  have hread := hlink.reading
  have hheader : ∀ header, BundleParser.make_bundle_header_v1 header ≠ [] := by
    intro header hnil
    cases hnil
  cases hread with
  | header hpending =>
    rw [Session.awaited, hpending] at hawaited
    cases hawaited
    rw [hinput]
    decide
  | body => exact absurd hbegun (hheader _)
  | stopped => exact absurd hbegun (hheader _)

/-- While decodable bundles come, cut into pieces anyhow, every read that is due returns. -/
theorem Follows.complete_returns (h : Follows J W s₀ past s acts a)
    (hbundles : ∀ bundle ∈ bundles, Decodable J bundle)
    (hsent : s₀.unread ++ sentOctets past ++ rest = (bundles.map Session.frame).flatten)
    (hopen : s.closed = false) (hreadable : s.readable = true) :
    ∃ s', step W J s .complete = some s' := by
  obtain ⟨session, begun, hlink, hoctets⟩ := h.octets
  rw [hoctets, List.append_assoc, List.append_assoc] at hsent
  obtain ⟨coming, hsplit, hcoming⟩ := Session.frame_selfDelimiting.split h.framed
    (fun bundle hbundle => (hbundles bundle hbundle).framed) hsent
  obtain ⟨n, hawaited, hle⟩ := awaited_of_readable hlink.session hopen hreadable
  cases coming with
  | nil =>
    obtain ⟨hbegun, hrest⟩ := List.append_eq_nil_iff.mp hcoming
    obtain ⟨hinput, -⟩ := List.append_eq_nil_iff.mp hrest
    exact absurd hle (not_awaited hlink hbegun hinput hawaited)
  | cons bundle coming =>
    have hbundle := hbundles bundle (by simp [hsplit])
    obtain ⟨r, conglom, hdecode⟩ := hbundle.decodes
    obtain ⟨b', hrun⟩ :=
      Broker.completeRead_returns hlink hbundle.framed hcoming hawaited hle hdecode
    refine ⟨{ s with broker := b' }, ?_⟩
    simp only [step, hreadable, if_true, returned_unit_eq_some.mpr hrun]
    rfl

/-! ## Deliveries -/

/-- Packets that were made for messages are received. -/
theorem receivePackets_returns (hJ : J.ReadsBack) {packets : List StdString}
    (hmade : ∀ packet ∈ packets, ∃ m sent, sent.packet = packet ∧ MadeFor J m sent)
    (o : OngoingSerialization) : ∃ o', Agent.ReceivePacket J packets o = .ok () o' := by
  induction packets generalizing o with
  | nil => exact ⟨o, rfl⟩
  | cons packet packets ih =>
    obtain ⟨⟨m, sent, rfl, -, osMsg, -, toId, -, writer, hwrite⟩, hrest⟩ :=
      List.forall_mem_cons.mp hmade
    obtain ⟨o₁, hmake, -⟩ := appended_blank hJ o
    have hone : receiveOne J sent.packet o = .ok () o₁ := by
      simp [receiveOne, write_routed_ne_nil hwrite, JsonParser.parseJSON, parse_routed hJ hwrite,
        forwarded_opaqueReceive, hmake]
    obtain ⟨o', hothers⟩ := ih hrest o₁
    exact ⟨o', (bind_ok hone _).trans hothers⟩

/-- A delivery returns when the socket has its agent. -/
theorem Follows.deliver_returns (hJ : J.ReadsBack) (h : Follows J W s₀ past s acts a)
    (hnone : s₀.broker.world.sent = []) {callback : RecvCallback} {packets : List StdString}
    (hpausing : s.pausing = false) (hway : s.onTheWay callback packets = true)
    (hholds : s.broker.world.holds callback = true) :
    ∃ s', step W J s (.deliver callback packets) = some s' := by
  obtain ⟨new, hsent, hnew⟩ := sent_traced h.world
  rw [hnone, List.nil_append] at hsent
  obtain ⟨-, -, hpackets⟩ := onTheWay_iff.mp hway
  have hmade : ∀ packet ∈ packets, ∃ m sent, sent.packet = packet ∧ MadeFor J m sent := by
    intro packet hmem
    obtain ⟨sent, hmem', hpacket, -⟩ := hpackets packet hmem
    rw [hsent] at hmem'
    obtain ⟨m, -, hm⟩ := hnew sent hmem'
    exact ⟨m, sent, hpacket, hm⟩
  obtain ⟨o', hreceive⟩ := receivePackets_returns hJ hmade s.broker.m_outgoing
  have hrun : s.broker.receivePackets J callback packets =
      .ok () { s.broker with m_outgoing := o' } := by
    rw [Broker.receivePackets, get_bind_apply, if_pos hholds, Broker.onOutgoing]
    exact zoom_ok hreceive
  refine ⟨{ s with broker := { s.broker with m_outgoing := o' } }, ?_⟩
  simp only [step, hpausing, hway, Bool.not_true, Bool.or_self, Bool.false_eq_true, if_false,
    returned_unit_eq_some.mpr hrun]
  rfl

/-- Between two calls of `pause` all deliveries return exactly when no agent is missed. -/
theorem Follows.deliveries_return_iff (hJ : J.ReadsBack) (h : Follows J W s₀ past s acts a)
    (hnone : s₀.broker.world.sent = []) (hpausing : s.pausing = false) :
    (∀ callback packets, s.onTheWay callback packets = true →
      ∃ s', step W J s (.deliver callback packets) = some s') ↔ ReceiversKept s.broker.world := by
  constructor
  · intro hreturns sent hsent callback hcallback haddress
    have hway : s.onTheWay callback [sent.packet] = true :=
      onTheWay_iff.mpr ⟨hcallback, List.cons_ne_nil _ _,
        List.forall_mem_singleton.mpr ⟨sent, hsent, rfl, haddress⟩⟩
    obtain ⟨s', hstep⟩ := hreturns callback [sent.packet] hway
    simp only [step, Option.ite_none_left_eq_some, Option.map_eq_some_iff,
      returned_eq_some] at hstep
    obtain ⟨-, b', ⟨u, hrun⟩, -⟩ := hstep
    exact (Broker.receivePackets_holds hrun).1
  · intro hkept callback packets hway
    obtain ⟨hcallback, hne, hpackets⟩ := onTheWay_iff.mp hway
    obtain ⟨packet, hpacket⟩ := List.exists_mem_of_ne_nil packets hne
    obtain ⟨sent, hsent, -, haddress⟩ := hpackets packet hpacket
    exact h.deliver_returns hJ hnone hpausing hway (hkept sent hsent callback hcallback haddress)

/-! ## Rounds -/

/-- An iteration of `pause` returns exactly when the messages that wait can be handled. -/
theorem Follows.pause_returns_iff (h : Follows J W s₀ past s acts a) :
    (∃ s', step W J s .pause = some s') ↔
      (Transition.run (handled W J) s₀.broker.world
        (queuedMessages (decoded J (Rounds.entered acts)))).isSome = true := by
  obtain ⟨session, begun, hlink, -⟩ := h.octets
  rw [← h.sound.requests, decoded_append, queuedMessages_append, Transition.run_append, h.world,
    Option.bind_some, ← h.queue, Option.isSome_iff_exists]
  by_cases hpause : s.broker.m_pause = true
  · rw [h.queue, List.isEmpty_iff.mp (h.waiting.symm.trans hpause)]
    refine iff_of_true ⟨{ s with pausing := true }, ?_⟩ ⟨s.broker.world, rfl⟩
    rw [step, Broker.pause_waits hpause h.scheduled, hpause]
    rfl
  · have hround : s.broker.m_pause = false := by simpa using hpause
    constructor
    · rintro ⟨s', hstep⟩
      simp only [step, Option.map_eq_some_iff] at hstep
      obtain ⟨b', hrun, -⟩ := hstep
      obtain ⟨world, -, -, hworld, -⟩ := Broker.round_eq_some hlink h.outgoing hround hrun
      exact ⟨world, hworld⟩
    · rintro ⟨world, hworld⟩
      obtain ⟨b', hrun⟩ := Broker.round_returns hlink.open hround h.scheduled hworld
      exact ⟨{ s with broker := b', pausing := s.broker.m_pause }, by rw [step, hrun]; rfl⟩

/-! ## Every order of steps -/

/-- The messages can be handled one after the other, and after no number of bundles is an agent
missed that a packet was sent to. -/
structure Survivable (W : Ns3) (J : Jsoncpp) (w : World)
    (bundles : List (BundleHeader × StdString)) : Prop where
  handled : (Transition.run (handled W J) w (queuedMessages (decoded J bundles))).isSome = true
  kept : ∀ taken w', taken <+: bundles →
    Transition.run (Sm4ns3.handled W J) w (queuedMessages (decoded J taken)) = some w' →
      ReceiversKept w'

/-- While Sim Mobility sends decodable bundles that can be survived, nothing that is due fails. -/
theorem canGoOn_of_survivable (hJ : J.ReadsBack) (hs : s₀.Ready) (hopen : s₀.closed = false)
    (hnone : s₀.broker.world.sent = []) (hbundles : ∀ bundle ∈ bundles, Decodable J bundle)
    (hsurvivable : Survivable W J s₀.broker.world bundles) (hnot : Action.close ∉ actions)
    (hsent : s₀.unread ++ sentOctets actions ++ rest = (bundles.map Session.frame).flatten)
    (hrun : Transition.run (step W J) s₀ actions = some s) : s.CanGoOn W J := by
  obtain ⟨acts, a, -, h⟩ := follows_of_run hs hrun
  have hclosed : s.closed = false := (closed_of_run hrun hnot).trans hopen
  obtain ⟨session, begun, -, hoctets⟩ := h.octets
  have hstream := hsent
  rw [hoctets, List.append_assoc] at hstream
  obtain ⟨coming, rfl, -⟩ := Session.frame_selfDelimiting.split h.framed
    (fun bundle hbundle => (hbundles bundle hbundle).framed) hstream
  have htaken : a.taken <+: Rounds.entered acts ++ coming := by
    rw [← h.sound.requests, List.append_assoc]
    exact List.prefix_append _ _
  refine ⟨h.complete_returns hbundles hsent hclosed, h.pause_returns_iff.mpr ?_,
    fun callback packets hpausing => (h.deliveries_return_iff hJ hnone hpausing).mpr
      (hsurvivable.kept a.taken _ htaken h.world) callback packets⟩
  have hworld := hsurvivable.handled
  rw [decoded_append, queuedMessages_append, Transition.run_append] at hworld
  obtain ⟨world, hall⟩ := Option.isSome_iff_exists.mp hworld
  obtain ⟨t, hfirst, -⟩ := Option.bind_eq_some_iff.mp hall
  rw [hfirst]
  rfl

/-- Everything is sent, and then reads complete. -/
def reading (octets : StdString) (k : Nat) : List Action :=
  .send octets :: List.replicate k .complete

theorem sentOctets_reading (octets : StdString) (k : Nat) :
    sentOctets (reading octets k) = octets := by
  have hnothing : sentOctets (List.replicate k .complete) = [] := by
    simp [sentOctets, List.flatMap_replicate]
  rw [reading, sentOctets, List.flatMap_cons, ← sentOctets, hnothing, List.append_nil]

theorem close_not_mem_reading (octets : StdString) (k : Nat) :
    Action.close ∉ reading octets k := by
  simp [reading]

/-- The reads can complete up to any bundle. -/
theorem exists_reading (hs : s₀.Ready) (hopen : s₀.closed = false)
    {taken coming : List (BundleHeader × StdString)}
    (hbundles : ∀ bundle ∈ taken ++ coming, Decodable J bundle) {octets : StdString}
    (hoctets : s₀.unread ++ octets = ((taken ++ coming).map Session.frame).flatten) :
    ∃ k s past acts a, Transition.run (step W J) s₀ (reading octets k) = some s ∧
      Follows J W s₀ past s acts a ∧ Rounds.entered acts = taken ∧ a.log = [] := by
  have hsend : step W J s₀ (.send octets) =
      some { s₀ with broker := s₀.broker.arrived octets } := by
    simp [step, hopen]
  have hall : sentOctets ([] ++ [.send octets]) = octets := by simp [sentOctets]
  obtain ⟨k, s, past, acts, a, hreads, h, hentered, hlog, -⟩ :=
    ((follows_ready hs).send octets).read_until (W := W) hbundles (by rwa [hall])
      (List.nil_prefix (l := taken))
  exact ⟨k, s, past, acts, a, Transition.run_cons_eq_some.mpr ⟨_, hsend, hreads⟩, h, hentered,
    hlog⟩

/-- A round can take just the first bundles, whatever comes behind them. -/
theorem exists_round (hs : s₀.Ready) (hopen : s₀.closed = false)
    {taken coming : List (BundleHeader × StdString)}
    (hbundles : ∀ bundle ∈ taken ++ coming, Decodable J bundle) {octets : StdString}
    (hoctets : s₀.unread ++ octets = ((taken ++ coming).map Session.frame).flatten)
    (hne : taken ≠ []) {w : World} (hworld : Transition.run (handled W J) s₀.broker.world
      (queuedMessages (decoded J taken)) = some w) :
    ∃ k s past acts a, Transition.run (step W J) s₀ (reading octets k ++ [.pause]) = some s ∧
      Follows J W s₀ past s acts a ∧ s.pausing = false ∧ s.broker.world = w := by
  obtain ⟨k, s, past, acts, a, hreads, h, rfl, hlog⟩ :=
    exists_reading (W := W) hs hopen hbundles hoctets
  have htaken : a.taken = [] := by rw [Rounds.Server.taken, hlog, List.flatMap_nil]
  have hwaiting : a.waiting = Rounds.entered acts := by
    rw [← h.sound.requests, htaken, List.nil_append]
  have hround : s.broker.m_pause = false := by
    rw [h.waiting, hwaiting]
    simpa using hne
  have hbefore := h.world
  rw [htaken] at hbefore
  have hsame : s₀.broker.world = s.broker.world := Option.some.inj hbefore
  rw [hsame, ← hwaiting, ← h.queue] at hworld
  obtain ⟨session, begun, hlink, -⟩ := h.octets
  obtain ⟨b', hrun⟩ := Broker.round_returns hlink.open hround h.scheduled hworld
  obtain ⟨world, c', -, hworld', rfl, -⟩ := Broker.round_eq_some hlink h.outgoing hround hrun
  rw [hworld] at hworld'
  cases hworld'
  obtain ⟨a', -, h'⟩ := h.round hround hrun
  exact ⟨k, _, _, _, _,
    Transition.run_concat_eq_some.mpr ⟨s, hreads, by rw [step, hrun]; rfl⟩, h', hround, rfl⟩

/-- The steps that are due return after every run, in whatever order it takes its steps and cuts
what Sim Mobility sends, exactly when the messages can be handled one after the other and no
agent is missed on the way. -/
theorem survives_iff (hJ : J.ReadsBack) (hs : s₀.Ready) (hopen : s₀.closed = false)
    (hnone : s₀.broker.world.sent = []) (hbundles : ∀ bundle ∈ bundles, Decodable J bundle)
    {octets : StdString}
    (hoctets : s₀.unread ++ octets = (bundles.map Session.frame).flatten) :
    (∀ actions s rest, Action.close ∉ actions →
      s₀.unread ++ sentOctets actions ++ rest = (bundles.map Session.frame).flatten →
      Transition.run (step W J) s₀ actions = some s → s.CanGoOn W J) ↔
    Survivable W J s₀.broker.world bundles := by
  refine ⟨fun hsurvives => ⟨?_, ?_⟩, fun hsurvivable actions s rest hnot hsent hrun =>
    canGoOn_of_survivable hJ hs hopen hnone hbundles hsurvivable hnot hsent hrun⟩
  · -- all reads complete before the next round
    have hnothing : bundles ++ [] = bundles := List.append_nil _
    obtain ⟨k, s, past, acts, a, hreads, h, hentered, -⟩ :=
      exists_reading (W := W) hs hopen (hnothing.symm ▸ hbundles) (hnothing.symm ▸ hoctets)
    have hgo := hsurvives _ s [] (close_not_mem_reading octets k)
      (by rw [sentOctets_reading, List.append_nil, hoctets]) hreads
    rw [← hentered]
    exact h.pause_returns_iff.mp hgo.pause
  · -- a round takes just these bundles, and then packets are delivered
    rintro taken w ⟨coming, rfl⟩ hworld
    by_cases hne : taken = []
    · subst hne
      cases hworld
      intro sent hsent
      rw [hnone] at hsent
      cases hsent
    · obtain ⟨k, s, past, acts, a, hrun, h, hpausing, rfl⟩ :=
        exists_round (W := W) hs hopen hbundles hoctets hne hworld
      have hgo := hsurvives _ s [] (by simp [close_not_mem_reading])
        (by rw [sentOctets_other fun _ => Action.noConfusion, sentOctets_reading, List.append_nil,
          hoctets]) hrun
      exact (h.deliveries_return_iff hJ hnone hpausing).mp fun callback packets =>
        hgo.deliver callback packets hpausing

end System

/-! ## The system that was started -/

section Started

open Registration

variable {W : Ns3} {J : Jsoncpp} {peer : Peer} {b b' : Broker}
  {bundles : List (BundleHeader × StdString)} {octets : StdString}

/-- A start as `Default` makes agents that are housed, and sends no packet. -/
theorem Broker.Fresh.started_default (hW : W.Documented) (hfresh : b.Fresh)
    (hnone : b.world.sent = []) (hstart : Broker.start W J peer (str "Default") b = .ok true b') :
    System.Ready { broker := b' } ∧ b'.world.Housed ∧ b'.world.sent = [] := by
  obtain ⟨b₁, hregister⟩ := Broker.start_registers hstart
  obtain ⟨request, agents, ack, sent, addAgentIds, -, ⟨ids, -, -, harena, hhoused⟩, htalks⟩ :=
    register_default (J := J) hW (b := { b with m_global_tick := 0 }) hfresh.empty hregister
  obtain ⟨hready, hworld, -, -⟩ := hfresh.ready_of_talks hregister htalks hstart
  rw [hworld]
  refine ⟨hready, hhoused, ?_⟩
  have hsent : (b₁.world.arena J).sent = (b.world.arena J).sent := by
    rw [harena]
    exact Arena.enters_sent _ ids
  simpa [World.arena, hnone] using hsent

/-- The program started as `Default` survives decodable bundles, whatever the order of its steps
and however they are cut, exactly when each message, where it is due in the arena, is one
that a handler reads and asks no null agent to leave, and after no number of bundles an agent
is missed that a packet was sent to. -/
theorem default_survives_iff (hW : W.Documented) (hJ : J.ReadsBack) (hfresh : b.Fresh)
    (hnone : b.world.sent = []) (hstart : Broker.start W J peer (str "Default") b = .ok true b')
    (hbundles : ∀ bundle ∈ bundles, System.Decodable J bundle)
    (hoctets : System.unread { broker := b' } ++ octets = (bundles.map Session.frame).flatten) :
    (∀ actions s rest, Action.close ∉ actions →
      System.unread { broker := b' } ++ System.sentOctets actions ++ rest =
        (bundles.map Session.frame).flatten →
      Transition.run (System.step W J) { broker := b' } actions = some s → s.CanGoOn W J) ↔
    Transition.Along (Arena.obey W.initialPosition) Arena.Allowed (b'.world.arena J)
      ((queuedMessages (System.decoded J bundles)).map (Received.asked J)) ∧
    ∀ taken w, taken <+: bundles →
      Transition.run (handled W J) b'.world (queuedMessages (System.decoded J taken)) = some w →
        System.ReceiversKept w := by
  obtain ⟨hready, hhoused, hsilent⟩ := hfresh.started_default hW hnone hstart
  rw [← Arena.run_isSome_iff, ← arena_commutes hW hJ hhoused, Option.isSome_map,
    System.survives_iff hJ hready rfl hsilent hbundles hoctets]
  exact ⟨fun h => ⟨h.handled, h.kept⟩, fun h => ⟨h.1, h.2⟩⟩

/-- Agent `1` is told to send to agent `2`. -/
def oneSend : BundleHeader × StdString :=
  bundled (str ("\x7b\"broadcast\":false,\"data\":\"x\",\"format\":\"\",\"from_id\":\"1\"," ++
    "\"msg_type\":\"opaque_send\",\"tech\":\"\",\"to_ids\":[\"2\"]\x7d"))

theorem oneSend_decodable : System.Decodable Jsoncpp.reference oneSend where
  framed := ⟨⟨by decide, by decide, by decide⟩, by decide +kernel, by decide +kernel⟩
  decodes := by
    have hrun : value (JsonParser.deserialize Jsoncpp.reference NEW_BUNDLES oneSend.1 oneSend.2
        {}) = some true := by
      decide +kernel
    exact ⟨true, _, eq_ok_of_value hrun⟩

theorem default_survives_iff_two :
    (∀ actions s rest, Action.close ∉ actions →
      System.unread { broker := plainBroker } ++ System.sentOctets actions ++ rest =
        ([oneSend].map Session.frame).flatten →
      Transition.run (System.step Ns3.reference Jsoncpp.reference) { broker := plainBroker }
        actions = some s → s.CanGoOn Ns3.reference Jsoncpp.reference) ↔
    Transition.Along (Arena.obey Ns3.reference.initialPosition) Arena.Allowed
      (plainBroker.world.arena Jsoncpp.reference)
      ((queuedMessages (System.decoded Jsoncpp.reference [oneSend])).map
        (Received.asked Jsoncpp.reference)) ∧
    ∀ taken w, taken <+: [oneSend] →
      Transition.run (handled Ns3.reference Jsoncpp.reference) plainBroker.world
          (queuedMessages (System.decoded Jsoncpp.reference taken)) = some w →
        System.ReceiversKept w := by
  have hstart : value (Broker.start Ns3.reference Jsoncpp.reference twoAgentsPeer
      (str "Default") Broker.make) = some true := by decide +kernel
  have hdecodable : ∀ bundle ∈ [oneSend], System.Decodable Jsoncpp.reference bundle := by
    intro bundle hbundle
    rw [List.mem_singleton.mp hbundle]
    exact oneSend_decodable
  have hoctets : System.unread { broker := plainBroker } ++ ([oneSend].map Session.frame).flatten =
      ([oneSend].map Session.frame).flatten := by
    decide +kernel
  exact default_survives_iff Ns3.reference_documented Jsoncpp.reference_readsBack
    Broker.make_fresh rfl (eq_ok_of_value hstart) hdecodable hoctets

end Started

end Sm4ns3
