import Sm4ns3.Lib.Rounds
import Sm4ns3.Verify.Handshake
import Sm4ns3.Verify.Routing
import Sm4ns3.Verify.SystemSteps

/-!
# Runs of the system

What the program is for: Sim Mobility's bundles come in and wait, the agents take
notes, and a round handles all bundles that wait and answers them. That is the
server of `Sm4ns3.Lib.Rounds`, and `Follows` says how a run of the system is one of
its runs, down to the octets on both directions of the connection
(`simulates`).
-/

namespace Sm4ns3.System

open Bytes Cpp Call Rounds

/-- The server: its requests are bundles, its notes the messages that are passed on. -/
abbrev Abstract := Server (BundleHeader × StdString) Json

/-- A system that has just registered: nothing came in since, and the first header is awaited. -/
structure Ready (s : System) : Prop where
  started : s.broker.Started
  scheduled : s.broker.scheduled ≠ 0
  link : ∃ session, Link s.broker.conn session []

/-- The octets that were not read. -/
def unread (s : System) : StdString := s.broker.conn.m_session.elim [] Session.input

/-- The octets that were written. -/
def written (s : System) : StdString := s.broker.conn.m_session.elim [] Session.output

/-- The octets that Sim Mobility sends. -/
def sentOctets (actions : List Action) : StdString :=
  actions.flatMap fun
    | .send octets => octets
    | _ => []

/-- The packets that ns-3 delivers. -/
def delivered (actions : List Action) : List StdString :=
  actions.flatMap fun
    | .deliver _ packets => packets
    | _ => []

section Abstraction

variable (J : Jsoncpp)

/-- What the receivers of the packets pass on. -/
def passedOn (packets : List StdString) : List Json := packets.filterMap (Broker.passedOn J)

/-- The bundles that reach the queue. -/
def decoded (bundles : List (BundleHeader × StdString)) : List MessageConglomerate :=
  bundles.filterMap fun bundle => Broker.accepted J bundle.1 bundle.2

/-- What the rounds are answered with, when the messages `all` were passed on before: a bundle
that counts the messages passed on since and has the text of all, and `ticked_client`. -/
def replies : List Json → List (List (BundleHeader × StdString) × List Json) →
    List (BundleHeader × StdString)
  | _, [] => []
  | all, (_, notes) :: log =>
    Broker.outgoingBundle J (all ++ notes) notes :: Broker.tickedBundle J ::
      replies (all ++ notes) log

theorem replies_concat (all : List Json) (log : List (List (BundleHeader × StdString) × List Json))
    (round : List (BundleHeader × StdString) × List Json) :
    replies J all (log ++ [round]) = replies J all log ++
      [Broker.outgoingBundle J (all ++ (log.flatMap Prod.snd ++ round.2)) round.2,
        Broker.tickedBundle J] := by
  induction log generalizing all with
  | nil => simp [replies]
  | cons first log ih => simp [replies, ih]

variable (W : Ns3)

/-- How the system stands to the server after the same history, when it started as `s₀`. -/
structure Follows (s₀ : System) (past : List Action) (s : System)
    (acts : List (Act (BundleHeader × StdString) Json)) (a : Abstract) : Prop where
  reached : Transition.run Rounds.step {} acts = some a
  /-- the octets that came are those of the bundles that entered, of the one that is being
  read, and those that were not read -/
  octets : ∃ session begun, Link s.broker.conn session begun ∧
    s₀.unread ++ sentOctets past =
      ((entered acts).map Session.frame).flatten ++ (begun ++ session.input)
  framed : ∀ bundle ∈ entered acts, Session.Framed bundle
  /-- each note is what a packet made its receiver pass on -/
  noted : noted acts = passedOn J (delivered past)
  /-- the octets written are those of the replies -/
  replied : s.written = s₀.written ++ ((replies J [] a.log).map Session.frame).flatten
  queue : s.broker.m_incoming.messageList = decoded J a.waiting
  waiting : s.broker.m_pause = a.waiting.isEmpty
  /-- the agents are as if the bundles had been handled one after the other -/
  world : Transition.run (handled W J) s₀.broker.world (queuedMessages (decoded J a.taken)) =
    some s.broker.world
  outgoing : s.broker.m_outgoing = Broker.ongoingWith J (a.answered ++ a.notes) a.notes
  tick : s.broker.m_global_tick = UInt32.ofNat a.log.length
  scheduled : s.broker.scheduled ≠ 0

end Abstraction

variable {W : Ns3} {J : Jsoncpp} {s₀ s s' : System} {past : List Action}
  {acts : List (Act (BundleHeader × StdString) Json)} {a : Abstract}

theorem follows_ready (h : s₀.Ready) : Follows J W s₀ [] s₀ [] {} where
  reached := rfl
  octets := by
    obtain ⟨session, hlink⟩ := h.link
    refine ⟨session, [], hlink, ?_⟩
    simp [unread, hlink.session, sentOctets, entered]
  framed := by simp [entered]
  noted := rfl
  replied := by simp [replies]
  queue := by
    rw [h.started.m_incoming]
    rfl
  waiting := h.started.m_pause
  world := rfl
  outgoing := h.started.m_outgoing
  tick := h.started.m_global_tick
  scheduled := h.scheduled

theorem decoded_append (J : Jsoncpp) (bundles more : List (BundleHeader × StdString)) :
    decoded J (bundles ++ more) = decoded J bundles ++ decoded J more :=
  List.filterMap_append ..

theorem queuedMessages_append (q r : List MessageConglomerate) :
    queuedMessages (q ++ r) = queuedMessages q ++ queuedMessages r :=
  List.flatMap_append ..

theorem sentOctets_concat (past : List Action) (action : Action) :
    sentOctets (past ++ [action]) = sentOctets past ++ sentOctets [action] :=
  List.flatMap_append ..

/-- Nothing is sent by another action. -/
theorem sentOctets_other {action : Action} (h : ∀ octets, action ≠ .send octets) :
    sentOctets (past ++ [action]) = sentOctets past := by
  rw [sentOctets_concat]
  cases action with
  | send octets => exact absurd rfl (h octets)
  | _ => exact List.append_nil _

theorem delivered_concat (past : List Action) (action : Action) :
    delivered (past ++ [action]) = delivered past ++ delivered [action] :=
  List.flatMap_append ..

/-- Nothing is delivered by another action. -/
theorem delivered_other {action : Action}
    (h : ∀ callback packets, action ≠ .deliver callback packets) :
    delivered (past ++ [action]) = delivered past := by
  rw [delivered_concat]
  cases action with
  | deliver callback packets => exact absurd rfl (h callback packets)
  | _ => exact List.append_nil _

theorem passedOn_append (J : Jsoncpp) (packets more : List StdString) :
    passedOn J (packets ++ more) = passedOn J packets ++ passedOn J more :=
  List.filterMap_append ..

/-- What can be delivered to a socket was sent to its address. -/
theorem onTheWay_iff {callback : RecvCallback} {packets : List StdString} :
    s.onTheWay callback packets = true ↔ callback ∈ s.broker.world.callbacks ∧ packets ≠ [] ∧
      ∀ packet ∈ packets, ∃ sent ∈ s.broker.world.sent, sent.packet = packet ∧
        callback.address = some sent.remote := by
  simp [onTheWay, and_assoc]

/-! ## One step -/

theorem written_of_link {session : Session} {begun : StdString}
    (h : Link s.broker.conn session begun) : s.written = session.output := by
  rw [written, h.session]
  rfl

/-- Octets arrive at the socket. -/
theorem Follows.send (h : Follows J W s₀ past s acts a) (octets : StdString) :
    Follows J W s₀ (past ++ [.send octets]) { s with broker := s.broker.arrived octets } acts
      a := by
  obtain ⟨session, begun, hlink, hoctets⟩ := h.octets
  have hsession : (s.broker.arrived octets).conn.m_session =
      some { session with input := session.input ++ octets } := by
    simp [Broker.arrived, hlink.session]
  refine ⟨h.reached, ⟨{ session with input := session.input ++ octets }, begun, ?_, ?_⟩, h.framed,
    ?_, ?_, h.queue, h.waiting, h.world, h.outgoing, h.tick, h.scheduled⟩
  · exact ⟨hsession, hlink.is_open, hlink.reading.congr rfl rfl rfl⟩
  · rw [sentOctets_concat, ← List.append_assoc, hoctets]
    simp [sentOctets]
  · rw [delivered_other fun _ _ => Action.noConfusion]
    exact h.noted
  · rw [← h.replied, written, hsession, written_of_link hlink]
    rfl

/-- Nothing happens to the broker. -/
theorem Follows.idle (h : Follows J W s₀ past s acts a) {action : Action}
    (hsend : ∀ octets, action ≠ .send octets)
    (hdeliver : ∀ callback packets, action ≠ .deliver callback packets) (closed pausing : Bool) :
    Follows J W s₀ (past ++ [action]) { s with closed := closed, pausing := pausing } acts a where
  reached := h.reached
  octets := by
    rw [sentOctets_other hsend]
    exact h.octets
  framed := h.framed
  noted := by
    rw [delivered_other hdeliver]
    exact h.noted
  replied := h.replied
  queue := h.queue
  waiting := h.waiting
  world := h.world
  outgoing := h.outgoing
  tick := h.tick
  scheduled := h.scheduled

/-- The read under way completes. -/
theorem Follows.complete (h : Follows J W s₀ past s acts a) {u : Unit} {b' : Broker}
    (hreadable : s.readable = true) (hrun : s.broker.completeRead J = .ok u b') :
    ({ s with broker := b' } : System).unread.length < s.unread.length ∧
      ∃ more b, (entered more).length ≤ 1 ∧ Act.round ∉ more ∧
        Transition.run Rounds.step a more = some b ∧
        Follows J W s₀ (past ++ [.complete]) { s with broker := b' } (acts ++ more) b := by
  obtain ⟨session, begun, hlink, hoctets⟩ := h.octets
  have hpending : session.pending ≠ [] := by
    intro hnil
    simp [readable, hlink.session, Session.awaited, hnil] at hreadable
  have hsent : sentOctets (past ++ [.complete]) = sentOctets past :=
    sentOctets_other fun _ => Action.noConfusion
  have hnoted : delivered (past ++ [.complete]) = delivered past :=
    delivered_other fun _ _ => Action.noConfusion
  obtain ⟨c', session', begun', hlink', hout, hless, hcases⟩ :=
    Broker.completeRead_cases hlink hpending hrun
  rcases hcases with ⟨rfl, hstream⟩ | ⟨bundle, hframed, rfl, hstream⟩
  · refine ⟨by simpa [unread, hlink.session, hlink'.session] using hless, [], a, Nat.zero_le 1,
      List.not_mem_nil, rfl, ?_⟩
    rw [List.append_nil]
    refine ⟨h.reached, ⟨session', begun', hlink', ?_⟩, h.framed, hnoted ▸ h.noted, ?_, h.queue,
      h.waiting, h.world, h.outgoing, h.tick, h.scheduled⟩
    · rw [hsent, hoctets, hstream]
    · rw [← h.replied, written_of_link hlink, ← hout]
      exact written_of_link (s := { s with broker := { s.broker with conn := c' } }) hlink'
  · -- the bundle enters
    refine ⟨by simpa [unread, hlink.session, hlink'.session] using hless, [.enter bundle],
      { a with waiting := a.waiting ++ [bundle] }, Nat.le_refl 1, by simp, rfl, ?_⟩
    have hentered : entered (acts ++ [.enter bundle]) = entered acts ++ [bundle] := by
      rw [entered_append]
      rfl
    refine ⟨Transition.run_trans h.reached rfl, ⟨session', begun', hlink', ?_⟩, ?_, ?_, ?_, ?_, ?_,
      h.world, h.outgoing, h.tick, h.scheduled⟩
    · rw [hsent, hoctets, hstream, hentered]
      simp
    · rw [hentered]
      intro other hother
      rcases List.mem_append.mp hother with hother | hother
      · exact h.framed other hother
      · rwa [List.mem_singleton.mp hother]
    · rw [noted_append, hnoted, ← h.noted]
      exact List.append_nil _
    · rw [← h.replied, written_of_link hlink, ← hout]
      exact written_of_link (s := { s with broker :=
        { s.broker.received (Broker.accepted J bundle.1 bundle.2) with conn := c' } }) hlink'
    · rw [decoded_append, ← h.queue]
      cases hacc : Broker.accepted J bundle.1 bundle.2 with
      | none => simp [Broker.received, decoded, hacc]
      | some conglom => simp [Broker.received, decoded, hacc, ThreadSafeQueue.push]
    · simp [Broker.received]

/-- A round. -/
theorem Follows.round (h : Follows J W s₀ past s acts a) (hpause : s.broker.m_pause = false)
    {b' : Broker} (hrun : Broker.step W J s.broker .pause = some b') :
    ∃ b, Transition.run Rounds.step a [.round] = some b ∧
      Follows J W s₀ (past ++ [.pause]) { s with broker := b', pausing := s.broker.m_pause }
        (acts ++ [.round]) b := by
  obtain ⟨session, begun, hlink, hoctets⟩ := h.octets
  obtain ⟨world, c', session', hworld, rfl, hlink', hin, hout⟩ :=
    Broker.round_eq_some hlink h.outgoing hpause hrun
  have hne : a.waiting.isEmpty = false := h.waiting.symm.trans hpause
  have hstep : Transition.run Rounds.step a [.round] =
      some { waiting := [], notes := [], log := a.log ++ [(a.waiting, a.notes)] } := by
    rw [Transition.run_cons, Rounds.step, hne]
    rfl
  have htaken : Server.taken { a with
      waiting := [], notes := [], log := a.log ++ [(a.waiting, a.notes)] } =
      a.taken ++ a.waiting := by
    simp [Server.taken]
  refine ⟨_, hstep, ⟨Transition.run_trans h.reached hstep, ⟨session', begun, hlink', ?_⟩, ?_, ?_,
    ?_, rfl, rfl, ?_, ?_, ?_, ?_⟩⟩
  · rw [sentOctets_concat, entered_append, hin]
    simpa [sentOctets, entered] using hoctets
  · simpa [entered_append, entered] using h.framed
  · rw [noted_append, delivered_other fun _ _ => Action.noConfusion, ← h.noted]
    exact List.append_nil _
  · rw [written_of_link (s := ⟨s.broker.afterRound world c', s.closed, s.broker.m_pause⟩) hlink',
      hout, ← written_of_link hlink, h.replied, replies_concat]
    simp [Server.answered]
  · rw [htaken, decoded_append, queuedMessages_append]
    refine Transition.run_trans h.world ?_
    rwa [← h.queue]
  · rw [show (s.broker.afterRound world c').m_outgoing =
      JsonParser.serialize_begin_default s.broker.m_outgoing from rfl, h.outgoing,
      Broker.ongoingWith_begin]
    simp [Server.answered]
  · rw [show (s.broker.afterRound world c').m_global_tick = s.broker.m_global_tick + 1 from rfl,
      h.tick, List.length_append, List.length_singleton]
    exact (UInt32.ofNat_add _ 1).symm
  · exact Nat.succ_ne_zero _

/-- A delivery of packets. -/
theorem Follows.deliver (h : Follows J W s₀ past s acts a) {callback : RecvCallback}
    {packets : List StdString} {u : Unit} {b' : Broker}
    (hrun : s.broker.receivePackets J callback packets = .ok u b') :
    ∃ more b, Act.round ∉ more ∧ Transition.run Rounds.step a more = some b ∧
      Follows J W s₀ (past ++ [.deliver callback packets]) { s with broker := b' }
        (acts ++ more) b := by
  obtain ⟨session, begun, hlink, hoctets⟩ := h.octets
  obtain rfl := Broker.receivePackets_eq_ok h.outgoing hrun
  have hnotes := run_notes a (packets.filterMap (Broker.passedOn J))
  refine ⟨_, _, by simp, hnotes, ⟨Transition.run_trans h.reached hnotes,
    ⟨session, begun, hlink, ?_⟩, ?_, ?_, h.replied, h.queue, h.waiting, h.world, ?_, h.tick,
    h.scheduled⟩⟩
  · rw [sentOctets_concat, entered_append, entered_notes, List.append_nil]
    simpa [sentOctets] using hoctets
  · rw [entered_append, entered_notes, List.append_nil]
    exact h.framed
  · rw [noted_append, noted_notes, h.noted, delivered_concat, passedOn_append]
    simp [delivered, passedOn]
  · rw [List.append_assoc]
    rfl

/-! ## Runs -/

variable {actions : List Action}

/-- Every step of the system is one of the server, several, or none; a round is one by itself. -/
theorem Follows.step_cases (h : Follows J W s₀ past s acts a) {action : Action}
    (hstep : step W J s action = some s') :
    ∃ more b, (Act.round ∉ more ∨ more = [.round]) ∧ Transition.run Rounds.step a more = some b ∧
      Follows J W s₀ (past ++ [action]) s' (acts ++ more) b := by
  cases action with
  | send octets =>
    simp only [step, Option.ite_none_left_eq_some, Option.some.injEq] at hstep
    obtain ⟨-, rfl⟩ := hstep
    exact ⟨[], a, .inl List.not_mem_nil, rfl, by simpa using h.send octets⟩
  | close =>
    cases hstep
    refine ⟨[], a, .inl List.not_mem_nil, rfl, ?_⟩
    rw [List.append_nil]
    exact h.idle (fun _ => Action.noConfusion) (fun _ _ => Action.noConfusion) true s.pausing
  | complete =>
    simp only [step, Option.ite_none_right_eq_some, Option.map_eq_some_iff,
      returned_eq_some] at hstep
    obtain ⟨hreadable, b', ⟨u, hrun⟩, rfl⟩ := hstep
    obtain ⟨-, more, b, -, hmore, hfollows⟩ := h.complete hreadable hrun
    exact ⟨more, b, .inl hmore, hfollows⟩
  | pause =>
    simp only [step, Option.map_eq_some_iff] at hstep
    obtain ⟨b', hrun, rfl⟩ := hstep
    by_cases hpause : s.broker.m_pause = true
    · -- the loop goes on
      rw [Broker.pause_waits hpause h.scheduled] at hrun
      cases hrun
      refine ⟨[], a, .inl List.not_mem_nil, rfl, ?_⟩
      rw [List.append_nil]
      exact h.idle (fun _ => Action.noConfusion) (fun _ _ => Action.noConfusion) s.closed
        s.broker.m_pause
    · obtain ⟨b, hround, hfollows⟩ := h.round (by simpa using hpause) hrun
      exact ⟨[.round], b, .inr rfl, hround, hfollows⟩
  | deliver callback packets =>
    simp only [step, Option.ite_none_left_eq_some, Option.map_eq_some_iff,
      returned_eq_some] at hstep
    obtain ⟨-, b', ⟨u, hrun⟩, rfl⟩ := hstep
    obtain ⟨more, b, hmore, hfollows⟩ := h.deliver hrun
    exact ⟨more, b, .inl hmore, hfollows⟩

theorem simulates : Transition.Simulates (step W J) Rounds.step (Follows J W s₀) := by
  intro past s acts a action s' h hstep
  obtain ⟨more, b, -, hfollows⟩ := h.step_cases hstep
  exact ⟨more, b, hfollows⟩

/-- Every run of the system is one of the server. -/
theorem follows_of_run (hs : s₀.Ready)
    (hrun : Transition.run (step W J) s₀ actions = some s) :
    ∃ acts a, Transition.run Rounds.step {} acts = some a ∧ Follows J W s₀ actions s acts a :=
  simulates.run (follows_ready hs) hrun

/-- A round takes bundles, and every bundle that entered was taken or waits. -/
theorem Follows.sound (h : Follows J W s₀ past s acts a) : Rounds.Sound acts a :=
  Rounds.sound_of_run h.reached

/-! ## An instance -/

/-- A system with the agents `1` and `2` that waits for its first bundle. -/
def freshTwo : System :=
  { broker := { Broker.waiting with scheduled := 1, world := OpaqueSendHandler.twoAgents } }

theorem freshTwo_ready : freshTwo.Ready where
  started := ⟨rfl, rfl, rfl, rfl, rfl⟩
  scheduled := Nat.one_ne_zero
  link := ⟨_, rfl, rfl, .header rfl⟩

/-- Agent `3` enters and agent `1` leaves. -/
def threeForOne : BundleHeader × StdString :=
  Registration.bundled
    (str "\x7b\"add\":[\"3\"],\"msg_type\":\"new_agents\",\"rem\":[\"1\"]\x7d")

theorem threeForOne_framed : Session.Framed threeForOne :=
  Registration.framed_of_all (by decide +kernel) _ (List.mem_singleton_self threeForOne)

theorem threeForOne_decodes : ∃ r conglom, JsonParser.deserialize Jsoncpp.reference NEW_BUNDLES
    threeForOne.1 threeForOne.2 {} = .ok r conglom := by
  have hrun : value (JsonParser.deserialize Jsoncpp.reference NEW_BUNDLES threeForOne.1
      threeForOne.2 {}) = some true := by
    decide +kernel
  exact ⟨true, _, eq_ok_of_value hrun⟩

/-- The bundle comes in two pieces and is handled. -/
def inPieces : List Action :=
  [.send ((Session.frame threeForOne).take 5), .pause,
    .send ((Session.frame threeForOne).drop 5), .complete, .complete, .pause]

/-- The bundle comes at once. -/
def atOnce : List Action :=
  [.send (Session.frame threeForOne), .complete, .pause, .complete, .pause, .pause]

/-! ## What comes in -/

/-- While Sim Mobility sends bundles, cut into pieces anyhow, the bundles handled, those
queued and those still to come are what it sends, in order; the agents are as if the
first ones had been handled one after the other. -/
theorem bundles_in_order (hs : s₀.Ready) {bundles : List (BundleHeader × StdString)}
    (hbundles : ∀ bundle ∈ bundles, Session.Framed bundle) {rest : StdString}
    (hsent : s₀.unread ++ sentOctets actions ++ rest = (bundles.map Session.frame).flatten)
    (hrun : Transition.run (step W J) s₀ actions = some s) :
    ∃ handledBundles waiting coming, bundles = handledBundles ++ waiting ++ coming ∧
      Transition.run (handled W J) s₀.broker.world (queuedMessages (decoded J handledBundles)) =
        some s.broker.world ∧
      s.broker.m_incoming.messageList = decoded J waiting ∧
      (s.broker.m_pause = true ↔ waiting = []) ∧
      ∃ session begun, Link s.broker.conn session begun ∧
        begun ++ session.input ++ rest = (coming.map Session.frame).flatten := by
  obtain ⟨acts, a, -, h⟩ := follows_of_run hs hrun
  obtain ⟨session, begun, hlink, hoctets⟩ := h.octets
  rw [hoctets, List.append_assoc] at hsent
  obtain ⟨coming, rfl, hcoming⟩ := Session.frame_selfDelimiting.split h.framed hbundles hsent
  refine ⟨a.taken, a.waiting, coming, ?_, h.world, h.queue, ?_, session, begun, hlink, hcoming⟩
  · rw [h.sound.requests]
  · rw [h.waiting, List.isEmpty_iff]

theorem bundles_in_order_pieces : ∃ s,
    Transition.run (step Ns3.reference Jsoncpp.reference) freshTwo inPieces = some s ∧
      ∃ handledBundles waiting coming, [threeForOne] = handledBundles ++ waiting ++ coming ∧
        Transition.run (handled Ns3.reference Jsoncpp.reference) freshTwo.broker.world
          (queuedMessages (decoded Jsoncpp.reference handledBundles)) = some s.broker.world ∧
        s.broker.m_incoming.messageList = decoded Jsoncpp.reference waiting ∧
        (s.broker.m_pause = true ↔ waiting = []) ∧
        ∃ session begun, Link s.broker.conn session begun ∧
          begun ++ session.input ++ [] = (coming.map Session.frame).flatten := by
  obtain ⟨s, hrun⟩ := Option.isSome_iff_exists.mp
    (by decide +kernel : (Transition.run (step Ns3.reference Jsoncpp.reference) freshTwo
      inPieces).isSome = true)
  have hsent : freshTwo.unread ++ sentOctets inPieces ++ [] =
      ([threeForOne].map Session.frame).flatten := by
    decide +kernel
  exact ⟨s, hrun, bundles_in_order freshTwo_ready (by simpa using threeForOne_framed) hsent hrun⟩

/-! ## What goes out -/

/-- What is written are the answers to rounds, a bundle of messages (see `outgoingBundle`) and a
`ticked_client` for each. Each round has handled at least one bundle, which had come before and
was handled in no other round; the messages are those that packets made their receivers pass on,
in order, each counted in the first answer after it. -/
theorem answers_follow_bundles (hs : s₀.Ready)
    (hrun : Transition.run (step W J) s₀ actions = some s) :
    ∃ log coming notes,
      (∀ round ∈ log, round.1 ≠ [] ∧ ∀ bundle ∈ round.1, Session.Framed bundle) ∧
      s₀.unread ++ sentOctets actions =
        ((log.flatMap Prod.fst).map Session.frame).flatten ++ coming ∧
      log.flatMap Prod.snd ++ notes = passedOn J (delivered actions) ∧
      s.written = s₀.written ++ ((replies J [] log).map Session.frame).flatten ∧
      s.broker.m_global_tick = UInt32.ofNat log.length ∧
      log.length ≤ (log.flatMap Prod.fst).length := by
  obtain ⟨acts, a, -, h⟩ := follows_of_run hs hrun
  obtain ⟨session, begun, hlink, hoctets⟩ := h.octets
  have hsound := h.sound
  refine ⟨a.log, (a.waiting.map Session.frame).flatten ++ (begun ++ session.input), a.notes,
    fun round hround => ⟨hsound.took round hround, fun bundle hbundle => ?_⟩, ?_,
    hsound.notes.trans h.noted, h.replied, h.tick, length_log_le hsound.took⟩
  · refine h.framed bundle ?_
    rw [← hsound.requests]
    exact List.mem_append_left _ (List.mem_flatMap.mpr ⟨round, hround, hbundle⟩)
  · rw [hoctets, ← hsound.requests, List.map_append, List.flatten_append, List.append_assoc]
    rfl

theorem answers_follow_bundles_pieces : ∃ s,
    Transition.run (step Ns3.reference Jsoncpp.reference) freshTwo inPieces = some s ∧
      ∃ log coming notes,
        (∀ round ∈ log, round.1 ≠ [] ∧ ∀ bundle ∈ round.1, Session.Framed bundle) ∧
        freshTwo.unread ++ sentOctets inPieces =
          ((log.flatMap Prod.fst).map Session.frame).flatten ++ coming ∧
        log.flatMap Prod.snd ++ notes = passedOn Jsoncpp.reference (delivered inPieces) ∧
        s.written = freshTwo.written ++
          ((replies Jsoncpp.reference [] log).map Session.frame).flatten ∧
        s.broker.m_global_tick = UInt32.ofNat log.length ∧
        log.length ≤ (log.flatMap Prod.fst).length := by
  obtain ⟨s, hrun⟩ := Option.isSome_iff_exists.mp
    (by decide +kernel : (Transition.run (step Ns3.reference Jsoncpp.reference) freshTwo
      inPieces).isSome = true)
  exact ⟨s, hrun, answers_follow_bundles freshTwo_ready hrun⟩

/-! ## Any order of steps -/

/-- Everything that came was read and handled. -/
structure Drained (s : System) : Prop where
  m_pause : s.broker.m_pause = true
  queue : s.broker.m_incoming.messageList = []
  link : ∃ session, Link s.broker.conn session [] ∧ session.input = []

/-- When no bundle waits and no octet is left, everything is handled. -/
theorem Follows.drained_of_read (h : Follows J W s₀ past s acts a)
    (hpause : s.broker.m_pause = true) {session : Session}
    (hlink : Link s.broker.conn session []) (hinput : session.input = []) : s.Drained := by
  refine ⟨hpause, ?_, session, hlink, hinput⟩
  rw [h.queue, List.isEmpty_iff.mp (h.waiting.symm.trans hpause)]
  rfl

/-- In a drained system the bundles that entered make up the octets that came. -/
theorem Follows.drained (h : Follows J W s₀ past s acts a) (hdrained : s.Drained) :
    s₀.unread ++ sentOctets past = (a.taken.map Session.frame).flatten := by
  obtain ⟨session, begun, hlink, hoctets⟩ := h.octets
  obtain ⟨session', hlink', hempty⟩ := hdrained.link
  have hwaiting : a.waiting = [] := by
    rw [← List.isEmpty_iff, ← h.waiting, hdrained.m_pause]
  have hsame : session = session' := by
    have hsession := hlink.session
    rw [hlink'.session] at hsession
    exact (Option.some.inj hsession).symm
  subst hsame
  have hbegun : begun = [] := by
    have hpending : session.pending = [.header] := by
      obtain ⟨-, -, hreading⟩ := hlink'
      generalize hnil : ([] : StdString) = none at hreading
      cases hreading with
      | header hpending => exact hpending
      | body => cases hnil
      | stopped => cases hnil
    obtain ⟨-, -, hreading⟩ := hlink
    cases hreading with
    | header => rfl
    | body hbody => rw [hpending] at hbody; cases hbody
    | stopped hstopped => rw [hpending] at hstopped; cases hstopped
  rw [hoctets, hbegun, hempty, ← h.sound.requests, hwaiting, List.append_nil, List.append_nil,
    List.append_nil]

/-- Two runs that got the same octets, in pieces and in an order of their own, and have
handled them all, leave the agents in the same state. -/
theorem agents_schedule_independent (hs : s₀.Ready) {actions actions' : List Action}
    {s s' : System} (hrun : Transition.run (step W J) s₀ actions = some s)
    (hrun' : Transition.run (step W J) s₀ actions' = some s')
    (hsame : sentOctets actions = sentOctets actions') (hdrained : s.Drained)
    (hdrained' : s'.Drained) : s.broker.world = s'.broker.world := by
  obtain ⟨acts, a, -, h⟩ := follows_of_run hs hrun
  obtain ⟨acts', a', -, h'⟩ := follows_of_run hs hrun'
  have hframed : ∀ bundle ∈ a.taken, Session.Framed bundle := fun bundle hbundle =>
    h.framed bundle (by rw [← h.sound.requests]; exact List.mem_append_left _ hbundle)
  have hframed' : ∀ bundle ∈ a'.taken, Session.Framed bundle := fun bundle hbundle =>
    h'.framed bundle (by rw [← h'.sound.requests]; exact List.mem_append_left _ hbundle)
  have hoctets := (h.drained hdrained).symm.trans ((congrArg (s₀.unread ++ ·) hsame).trans
    (h'.drained hdrained'))
  have htaken := Session.frame_selfDelimiting.injective hframed hframed' hoctets
  have hworld := h.world
  rw [htaken, h'.world] at hworld
  exact (Option.some.inj hworld).symm

/-- A run that ends with everything handled, seen from the values. -/
theorem drained_of_values (hs : s₀.Ready)
    (h : (Transition.run (step W J) s₀ actions).map (fun s => (s.broker.m_pause,
      s.broker.conn.m_session.map fun session =>
        (session.is_open, session.pending, session.input))) =
          some (true, some (true, [.header], []))) :
    ∃ s, Transition.run (step W J) s₀ actions = some s ∧ s.Drained := by
  obtain ⟨s, hrun, hvalues⟩ := Option.map_eq_some_iff.mp h
  obtain ⟨hpause, hvalues⟩ := Prod.ext_iff.mp hvalues
  obtain ⟨session, hsession, hvalues⟩ := Option.map_eq_some_iff.mp hvalues
  obtain ⟨hopen, hvalues⟩ := Prod.ext_iff.mp hvalues
  obtain ⟨hpending, hinput⟩ := Prod.ext_iff.mp hvalues
  obtain ⟨acts, a, -, hfollows⟩ := follows_of_run hs hrun
  have hlink : Link s.broker.conn session [] := ⟨hsession, hopen, .header hpending⟩
  exact ⟨s, hrun, hfollows.drained_of_read hpause hlink hinput⟩

theorem agents_schedule_independent_pieces : ∃ s s',
    Transition.run (step Ns3.reference Jsoncpp.reference) freshTwo inPieces = some s ∧
      Transition.run (step Ns3.reference Jsoncpp.reference) freshTwo atOnce = some s' ∧
      s.broker.world = s'.broker.world := by
  obtain ⟨s, hrun, hdrained⟩ : ∃ s,
      Transition.run (step Ns3.reference Jsoncpp.reference) freshTwo inPieces = some s ∧
        s.Drained := drained_of_values freshTwo_ready (by decide +kernel)
  obtain ⟨s', hrun', hdrained'⟩ : ∃ s,
      Transition.run (step Ns3.reference Jsoncpp.reference) freshTwo atOnce = some s ∧
        s.Drained := drained_of_values freshTwo_ready (by decide +kernel)
  exact ⟨s, s', hrun, hrun', agents_schedule_independent freshTwo_ready hrun hrun'
    (by decide +kernel) hdrained hdrained'⟩

/-! ## Going on to the end -/

/-- A bundle whose decoding does not throw, be it accepted or not. -/
structure Decodable (J : Jsoncpp) (bundle : BundleHeader × StdString) : Prop where
  framed : Session.Framed bundle
  decodes : ∃ r conglom, JsonParser.deserialize J NEW_BUNDLES bundle.1 bundle.2 {} = .ok r conglom

/-- The bundles that entered are the first of those that were sent. -/
theorem Follows.entered_initial {bundles : List (BundleHeader × StdString)}
    (hbundles : ∀ bundle ∈ bundles, Decodable J bundle) (h : Follows J W s₀ past s acts a)
    (hsent : s₀.unread ++ sentOctets past = (bundles.map Session.frame).flatten) :
    entered acts <+: bundles := by
  obtain ⟨session, begun, -, hoctets⟩ := h.octets
  obtain ⟨coming, hsplit, -⟩ := Session.frame_selfDelimiting.split h.framed
    (fun bundle hbundle => (hbundles bundle hbundle).framed) (hoctets.symm.trans hsent)
  exact ⟨coming, hsplit.symm⟩

/-- Reads complete until these bundles have entered; the ones behind them are left to read. -/
theorem Follows.read_until {taken coming : List (BundleHeader × StdString)}
    (hbundles : ∀ bundle ∈ taken ++ coming, Decodable J bundle)
    (h : Follows J W s₀ past s acts a)
    (hsent : s₀.unread ++ sentOctets past = ((taken ++ coming).map Session.frame).flatten)
    (hinitial : entered acts <+: taken) :
    ∃ k s' past' acts' a', Transition.run (step W J) s (List.replicate k .complete) = some s' ∧
      Follows J W s₀ past' s' acts' a' ∧ entered acts' = taken ∧ a'.log = a.log ∧
      ∃ session begun, Link s'.broker.conn session begun ∧
        begun ++ session.input = (coming.map Session.frame).flatten := by
  -- each read that completes leaves less to read
  induction hn : s.unread.length using Nat.strong_induction_on generalizing s past acts a with
  | _ n ih =>
    obtain ⟨session, begun, hlink, hoctets⟩ := h.octets
    obtain ⟨next, rfl⟩ := hinitial
    have hrest : begun ++ session.input = ((next ++ coming).map Session.frame).flatten := by
      refine List.append_cancel_left (hoctets.symm.trans (hsent.trans ?_))
      rw [List.append_assoc, List.map_append, List.flatten_append]
    cases next with
    | nil =>
      exact ⟨0, s, past, acts, a, rfl, h, (List.append_nil _).symm, rfl, session, begun, hlink,
        hrest⟩
    | cons bundle next =>
      obtain ⟨hframed, r, conglom, hdecode⟩ := hbundles bundle (by simp)
      obtain ⟨m, hawaited, hle⟩ := Broker.awaited_of_frame hlink hframed hrest
      have hstream : begun ++ (session.input ++ []) =
          Session.frame bundle ++ ((next ++ coming).map Session.frame).flatten := by
        rw [List.append_nil]
        exact hrest
      obtain ⟨b', hrun⟩ :=
        Broker.completeRead_returns hlink hframed hstream hawaited hle hdecode
      have hreadable : s.readable = true := by simp [readable, hlink.session, hawaited, hle]
      have hstep : step W J s .complete = some { s with broker := b' } := by
        simp only [step, hreadable, if_true, returned_unit_eq_some.mpr hrun]
        rfl
      obtain ⟨hless, more, a₁, hmore, hnot, hacts, h₁⟩ := h.complete hreadable hrun
      have hsent₁ : s₀.unread ++ sentOctets (past ++ [.complete]) =
          ((entered acts ++ bundle :: next ++ coming).map Session.frame).flatten := by
        rw [sentOctets_other fun _ => Action.noConfusion]
        exact hsent
      have hinitial₁ : entered (acts ++ more) <+: entered acts ++ bundle :: next := by
        refine List.prefix_of_prefix_length_le (h₁.entered_initial hbundles hsent₁)
          (List.prefix_append _ coming) ?_
        rw [entered_append, List.length_append, List.length_append, List.length_cons]
        omega
      obtain ⟨k, s', past', acts', a', hruns, h', hentered, hlog, hlink'⟩ :=
        ih _ (hn ▸ hless) h₁ hsent₁ hinitial₁ rfl
      exact ⟨k + 1, s', past', acts', a', Transition.run_cons_eq_some.mpr ⟨_, hstep, hruns⟩, h',
        hentered, hlog.trans (log_of_run hnot hacts), hlink'⟩

/-- Reads complete until every bundle that was sent has entered. -/
theorem Follows.read_all {bundles : List (BundleHeader × StdString)}
    (hbundles : ∀ bundle ∈ bundles, Decodable J bundle)
    (h : Follows J W s₀ past s acts a)
    (hsent : s₀.unread ++ sentOctets past = (bundles.map Session.frame).flatten) :
    ∃ k s' past' acts' a', Transition.run (step W J) s (List.replicate k .complete) = some s' ∧
      Follows J W s₀ past' s' acts' a' ∧ entered acts' = bundles ∧
      ∃ session, Link s'.broker.conn session [] ∧ session.input = [] := by
  have hnothing : bundles ++ [] = bundles := List.append_nil _
  rw [← hnothing] at hbundles hsent
  obtain ⟨k, s', past', acts', a', hruns, h', hentered, -, session, begun, hlink, hrest⟩ :=
    h.read_until hbundles hsent (by simpa using h.entered_initial hbundles hsent)
  obtain ⟨rfl, hinput⟩ := List.append_eq_nil_iff.mp hrest
  exact ⟨k, s', past', acts', a', hruns, h', hentered, session, hlink, hinput⟩

/-- Whatever was done so far, when Sim Mobility has sent whole bundles whose messages can be
handled, the program goes on by itself and ends with all of them read and handled: no order
of steps has led it astray. -/
theorem always_drains (hs : s₀.Ready) {bundles : List (BundleHeader × StdString)}
    (hbundles : ∀ bundle ∈ bundles, Decodable J bundle)
    (hsent : s₀.unread ++ sentOctets actions = (bundles.map Session.frame).flatten)
    {world : World} (hworld : Transition.run (handled W J) s₀.broker.world
      (queuedMessages (decoded J bundles)) = some world)
    (hrun : Transition.run (step W J) s₀ actions = some s) :
    ∃ k s', Transition.run (step W J) s (List.replicate k .complete ++ [.pause]) = some s' ∧
      s'.Drained ∧ s'.broker.world = world := by
  obtain ⟨acts, a, -, h⟩ := follows_of_run hs hrun
  obtain ⟨k, s₁, past, acts₁, a₁, hreads, h₁, hentered, session, hlink, hinput⟩ :=
    h.read_all hbundles hsent
  rw [← hentered, ← h₁.sound.requests, decoded_append, queuedMessages_append,
    Transition.run_append, h₁.world, Option.bind_some, ← h₁.queue] at hworld
  by_cases hpause : s₁.broker.m_pause = true
  · -- all were handled; the loop goes on
    have hdrained : s₁.Drained := h₁.drained_of_read hpause hlink hinput
    rw [hdrained.queue] at hworld
    refine ⟨k, { s₁ with pausing := true }, ?_, ⟨hpause, hdrained.queue, hdrained.link⟩,
      Option.some.inj hworld⟩
    refine Transition.run_concat_eq_some.mpr ⟨s₁, hreads, ?_⟩
    rw [step, Broker.pause_waits hpause h₁.scheduled, hpause]
    rfl
  · have hround : s₁.broker.m_pause = false := by simpa using hpause
    obtain ⟨b', hpaused⟩ := Broker.round_returns hlink.open hround h₁.scheduled hworld
    obtain ⟨world', c', session', hworld', rfl, hlink', hinput', -⟩ :=
      Broker.round_eq_some hlink h₁.outgoing hround hpaused
    rw [hworld] at hworld'
    cases hworld'
    refine ⟨k, _, Transition.run_concat_eq_some.mpr ⟨s₁, hreads, by rw [step, hpaused]; rfl⟩,
      ⟨rfl, rfl, session', hlink', hinput'.trans hinput⟩, rfl⟩

theorem always_drains_two : ∃ s world,
    Transition.run (step Ns3.reference Jsoncpp.reference) freshTwo
      [.send (Session.frame threeForOne), .complete] = some s ∧
    ∃ k s', Transition.run (step Ns3.reference Jsoncpp.reference) s
        (List.replicate k .complete ++ [.pause]) = some s' ∧
      s'.Drained ∧ s'.broker.world = world := by
  obtain ⟨s, hrun⟩ := Option.isSome_iff_exists.mp
    (by decide +kernel : (Transition.run (step Ns3.reference Jsoncpp.reference) freshTwo
      [.send (Session.frame threeForOne), .complete]).isSome = true)
  have hsent : freshTwo.unread ++ sentOctets [.send (Session.frame threeForOne), .complete] =
      ([threeForOne].map Session.frame).flatten := by
    decide +kernel
  obtain ⟨world, hworld⟩ := Option.isSome_iff_exists.mp
    (by decide +kernel : (Transition.run (handled Ns3.reference Jsoncpp.reference)
      freshTwo.broker.world
      (queuedMessages (decoded Jsoncpp.reference [threeForOne]))).isSome = true)
  have hall : ∀ bundle ∈ [threeForOne], Decodable Jsoncpp.reference bundle := by
    intro bundle hbundle
    rw [List.mem_singleton.mp hbundle]
    exact ⟨threeForOne_framed, threeForOne_decodes⟩
  exact ⟨s, world, hrun, always_drains freshTwo_ready hall hsent hworld hrun⟩

end Sm4ns3.System
