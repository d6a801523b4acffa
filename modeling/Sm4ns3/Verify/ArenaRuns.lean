import Sm4ns3.Verify.AgentArena
import Sm4ns3.Verify.Startup

/-!
# From the start to the arena

A registration as `Default` makes the agents that Sim Mobility announced, in the order
of their ids: for the arena, the names enter. After it every state of the system stands
for the arena after the commands of the bundles that rounds have handled
(`default_refines_arena`).
-/

namespace Sm4ns3

open Bytes Cpp Call

/-! ## Agents that are initialised one after the other -/

/-- The world without the entries of some ids. -/
def World.without (w : World) (ids : List StdString) : World :=
  { w with AllAgents := w.AllAgents.filter fun id _ => !ids.contains id }

theorem World.without_getElem? (w : World) (ids : List StdString) (id : StdString) :
    (w.without ids).AllAgents[id]? = if id ∈ ids then none else w.AllAgents[id]? := by
  rw [World.without, Std.TreeMap.getElem?_filter']
  by_cases hid : id ∈ ids
  · simp [hid]
  · cases w.AllAgents[id]? with
    | none => simp [hid]
    | some x => simp [hid]

/-- An arena stands for worlds that differ in nothing it says. -/
theorem Represents.alike {J : Jsoncpp} {w w' : World} {f : Arena StdString Vector (Option Json)}
    (h : Represents J w f) (hentries : ∀ id : StdString, w'.AllAgents[id]? = w.AllAgents[id]?)
    (hmobility : w'.mobility = w.mobility) (hnodes : w'.nodes = w.nodes)
    (hsent : w'.sent = w.sent) : Represents J w' f := by
  obtain ⟨rfl, hw⟩ := h
  have hagent : ∀ agId, w'.agent agId = w.agent agId := fun agId => by
    rw [World.agent, World.agent, hentries]
  have hslot : w'.slot = w.slot := funext fun agId =>
    World.slot_congr (hentries agId) fun _ _ _ _ => by rw [hmobility]
  refine ⟨?_, hw.manned.follows ⟨hagent, fun node hnode => by rwa [hmobility]⟩, ?_⟩
  · rw [World.arena, hslot, hnodes, hsent]
    rfl
  · intro agId a node ha hnode
    rw [hagent] at ha
    rw [hnodes]
    exact hw.below agId a node ha hnode

namespace Registration

variable {W : Ns3} {J : Jsoncpp} {w : World} {agId : StdString} {ids : List StdString}

/-- The agent that is registered for an id and not initialised yet. -/
def Raw (w : World) (agId : StdString) : Prop :=
  ∃ self, w.AllAgents[agId]? = some (some { self := self, m_AgentId := agId })

/-- As long as those that are left are not looked at, an agent that is initialised enters. -/
theorem initAgent_entering (hW : W.Documented) (hraw : Raw w agId) (hnot : agId ∉ ids) :
    ∃ a w', initAgent W agId w = .ok () w' ∧
      Entering W (w.without (agId :: ids)) agId a (w'.without ids) ∧
      ∀ id, id ≠ agId → w'.AllAgents[id]? = w.AllAgents[id]? := by
  obtain ⟨self, hslot⟩ := hraw
  obtain ⟨a, v, hinit, hmade, hnode⟩ := init_new hW self agId w
  have hself : (v.AllAgents.insert agId (some a))[agId]? = some (some a) :=
    Std.TreeMap.getElem?_insert_self
  have hother : ∀ id, id ≠ agId →
      (v.AllAgents.insert agId (some a))[id]? = w.AllAgents[id]? := by
    intro id hid
    rw [Std.TreeMap.getElem?_insert, if_neg (by simpa using Ne.symm hid), hnode.entries]
  refine ⟨a, { v with AllAgents := v.AllAgents.insert agId (some a) }, ?_, ?_, hother⟩
  · rw [initAgent, get_bind_apply, hslot]
    exact (bind_ok hinit _).trans rfl
  · refine ⟨hmade, fun id => ?_, hnode.mobility, hnode.nodes, hnode.sent⟩
    have hfresh : agId ∉ (w.without (agId :: ids)).AllAgents := by
      rw [Std.TreeMap.mem_iff_isSome_getElem?, World.without_getElem?, if_pos List.mem_cons_self]
      simp
    rw [World.without_getElem?, Std.TreeMap.getElem?_insertIfNew]
    by_cases hid : id = agId
    · subst hid
      rw [if_neg hnot, if_pos ⟨Std.ReflCmp.compare_self, hfresh⟩]
      exact hself
    · have hnew : ¬ (compare agId id = .eq ∧ agId ∉ (w.without (agId :: ids)).AllAgents) :=
        fun h => hid (Std.LawfulEqCmp.compare_eq_iff_eq.mp h.1).symm
      rw [if_neg hnew, World.without_getElem?]
      simp only [List.mem_cons, hid, false_or]
      rw [hother id hid]

theorem initAgents_represents (hW : W.Documented) (hnodup : ids.Nodup)
    (hraw : ∀ id ∈ ids, Raw w id) {f : Arena StdString Vector (Option Json)}
    (hf : Represents J (w.without ids) f) :
    ∃ w', forEach (initAgent W) ids w = .ok () w' ∧
      Represents J w' (ids.foldl (Arena.enter W.initialPosition) f) := by
  induction ids generalizing w f with
  | nil =>
    refine ⟨w, rfl, hf.alike (fun id => ?_) rfl rfl rfl⟩
    rw [World.without_getElem?, if_neg List.not_mem_nil]
  | cons agId ids ih =>
    obtain ⟨hnot, hnodup'⟩ := List.nodup_cons.mp hnodup
    obtain ⟨hhead, hids⟩ := List.forall_mem_cons.mp hraw
    obtain ⟨a, w₁, hinit, hentering, hother⟩ := initAgent_entering hW hhead hnot
    obtain ⟨rfl, hw⟩ := hf
    have hleft : ∀ id ∈ ids, Raw w₁ id := by
      intro id hid
      obtain ⟨self, hslot⟩ := hids id hid
      exact ⟨self, (hother id fun heq => hnot (heq ▸ hid)).trans hslot⟩
    obtain ⟨w', hrest, hw'⟩ := ih hnodup' hleft ⟨hentering.arena hw, hentering.housed hw⟩
    exact ⟨w', (bind_ok hinit _).trans hrest, hw'⟩

/-- The arena that a registration of these ids leaves: they enter in ascending order. -/
def Enters (W : Ns3) (J : Jsoncpp) (w : World) (addAgentIds : List StdString) (w' : World) :
    Prop :=
  ∃ ids : List StdString, (ids.Pairwise fun a b => compare a b = .lt) ∧
    (∀ agId, agId ∈ ids ↔ agId ∈ addAgentIds) ∧
    Represents J w' (ids.foldl (Arena.enter W.initialPosition) (w.arena J))

theorem enters_of_init (hW : W.Documented) (hempty : w.AllAgents = {})
    {addAgentIds : List StdString} {w₁ w₂ : World} {u v : Unit}
    (hreg : forEach (registerAgent (str "Default")) addAgentIds w = .ok u w₁)
    (hinit : initAgents W w₁ = .ok v w₂) : Enters W J w addAgentIds w₂ := by
  obtain ⟨_, hreg', hentered⟩ := registerAgents_ok (.inl ⟨rfl, rfl⟩) addAgentIds w
  rw [hreg] at hreg'
  cases hreg'
  have hkeys : ∀ agId, agId ∈ w₁.AllAgents.keys ↔ agId ∈ addAgentIds := by
    intro agId
    rw [Std.TreeMap.mem_keys]
    exact ⟨fun hmem => (hentered.entry_new hempty hmem).1, hentered.entered agId⟩
  have hraw : ∀ agId ∈ w₁.AllAgents.keys, Raw w₁ agId := fun agId hmem =>
    (hentered.entry_new hempty (Std.TreeMap.mem_keys.mp hmem)).2
  have hfirst : Represents J (w₁.without w₁.AllAgents.keys) (w.arena J) := by
    obtain ⟨agents, entries, rfl⟩ := registerAgents_others (.inl ⟨rfl, rfl⟩) hreg
    refine Represents.alike ⟨rfl, housed_of_empty hempty⟩ (fun id => ?_) rfl rfl rfl
    have hnone : w.AllAgents[id]? = none := by simp [hempty]
    rw [World.without_getElem?, hnone]
    split
    · rfl
    · rename_i hid
      exact Std.TreeMap.getElem?_eq_none fun hmem => hid (Std.TreeMap.mem_keys.mpr hmem)
  obtain ⟨w', hrun, hrepresents⟩ := initAgents_represents hW Std.TreeMap.nodup_keys hraw hfirst
  rw [initAgents, get_bind_apply, hrun] at hinit
  cases hinit
  exact ⟨_, Std.TreeMap.ordered_keys, hkeys, hrepresents⟩

/-- What a registration as `Default` has read, and the agents it has made. -/
theorem register_default (hW : W.Documented) {peer : Peer} {b b' : Broker}
    (hempty : b.world.AllAgents = {})
    (h : Broker.register W J peer (str "Default") b = .ok true b') :
    ∃ request agents ack sent addAgentIds, NewAgents J agents addAgentIds ∧
      Enters W J b.world addAgentIds b'.world ∧
      Talks [request, agents, ack] sent (connectedTo peer b) b' := by
  rw [Broker.register, if_pos rfl] at h
  obtain ⟨-, token, ids, request, agents, ack, response, more, -, hnew, -, -, henters, htalks⟩ :=
    start_talks (P := fun ids _ w' => Enters W J b.world ids w')
      (fun ids b₁ b₂ _ hmade hinit => ⟨[],
        enters_of_init hW hempty hmade (doInitialization_eq_ok hinit),
        doInitialization_talks hinit⟩) h
  exact ⟨request, agents, ack, _, ids, hnew, henters, htalks⟩

end Registration

/-! ## The system that was started -/

section Started

open Registration

variable {W : Ns3} {J : Jsoncpp} {peer : Peer} {b b' : Broker}

/-- From a start as `Default` that returned true to any later state: Sim Mobility's octets are
those of three bundles that register agents, of bundles that rounds have handled, and others
that have not been handled. The agents stand for the arena which the registered ids enter in
ascending order, and in which the messages of the bundles are commands, in order. -/
theorem default_refines_arena (hW : W.Documented) (hJ : J.ReadsBack) (hfresh : b.Fresh)
    (hstart : Broker.start W J peer (str "Default") b = .ok true b')
    {actions : List Action} {s : System}
    (hrun : Transition.run (System.step W J) { broker := b' } actions = some s) :
    ∃ request agents ack addAgentIds handledBundles coming, ∃ ids : List StdString,
      peer.octets ++ System.sentOctets actions =
        (([request, agents, ack] ++ handledBundles).map Session.frame).flatten ++ coming ∧
      (∀ bundle ∈ [request, agents, ack] ++ handledBundles, Session.Framed bundle) ∧
      NewAgents J agents addAgentIds ∧
      (ids.Pairwise fun a b => compare a b = .lt) ∧ (∀ agId, agId ∈ ids ↔ agId ∈ addAgentIds) ∧
      Transition.run (Arena.obey W.initialPosition)
          (ids.foldl (Arena.enter W.initialPosition) (b.world.arena J))
          ((queuedMessages (System.decoded J handledBundles)).map (Received.asked J)) =
        some (s.broker.world.arena J) := by
  obtain ⟨b₁, hregister⟩ := Broker.start_registers hstart
  obtain ⟨request, agents, ack, sent, addAgentIds, hnew, ⟨ids, hsorted, hids, hrepresents⟩,
    htalks⟩ := register_default hW (b := { b with m_global_tick := 0 }) hfresh.empty hregister
  obtain ⟨hready, hworld, hin, -⟩ := hfresh.ready_of_talks hregister htalks hstart
  obtain ⟨acts, a, -, h⟩ := System.follows_of_run hready hrun
  obtain ⟨session, begun, hlink, hoctets⟩ := h.octets
  rw [← hworld] at hrepresents
  obtain ⟨harena, hhoused⟩ := hrepresents
  have habstract := (run_matches hW hJ (queuedMessages (System.decoded J a.taken))).map_eq
    (fun _ _ h => h.1) ⟨rfl, hhoused⟩
  simp only [h.world, Option.map_some] at habstract
  refine ⟨request, agents, ack, addAgentIds, a.taken,
    (a.waiting.map Session.frame).flatten ++ (begun ++ session.input), ids, ?_, ?_, hnew, hsorted,
    hids, ?_⟩
  · rw [hin, List.append_assoc, hoctets, ← h.sound.requests]
    simp
  · intro bundle hmem
    rcases List.mem_append.mp hmem with hmem | hmem
    · exact htalks.framed bundle hmem
    · refine h.framed bundle ?_
      rw [← h.sound.requests]
      exact List.mem_append_left _ hmem
  · rw [habstract, harena]

/-- The broker after a registration of two agents as `Default`. -/
def plainBroker : Broker :=
  final (Broker.start Ns3.reference Jsoncpp.reference twoAgentsPeer (str "Default") Broker.make)

theorem default_refines_arena_two : ∃ s,
    Transition.run (System.step Ns3.reference Jsoncpp.reference) { broker := plainBroker }
      System.oneSends = some s ∧
    ∃ request agents ack addAgentIds handledBundles coming, ∃ ids : List StdString,
      twoAgentsPeer.octets ++ System.sentOctets System.oneSends =
        (([request, agents, ack] ++ handledBundles).map Session.frame).flatten ++ coming ∧
      (∀ bundle ∈ [request, agents, ack] ++ handledBundles, Session.Framed bundle) ∧
      NewAgents Jsoncpp.reference agents addAgentIds ∧
      (ids.Pairwise fun a b => compare a b = .lt) ∧ (∀ agId, agId ∈ ids ↔ agId ∈ addAgentIds) ∧
      Transition.run (Arena.obey Ns3.reference.initialPosition)
          (ids.foldl (Arena.enter Ns3.reference.initialPosition)
            (Broker.make.world.arena Jsoncpp.reference))
          ((queuedMessages (System.decoded Jsoncpp.reference handledBundles)).map
            (Received.asked Jsoncpp.reference)) =
        some (s.broker.world.arena Jsoncpp.reference) := by
  have hstart : value (Broker.start Ns3.reference Jsoncpp.reference twoAgentsPeer
      (str "Default") Broker.make) = some true := by decide +kernel
  obtain ⟨s, hrun⟩ := Option.isSome_iff_exists.mp
    (by decide +kernel : (Transition.run (System.step Ns3.reference Jsoncpp.reference)
      { broker := plainBroker } System.oneSends).isSome = true)
  exact ⟨s, hrun, default_refines_arena Ns3.reference_documented Jsoncpp.reference_readsBack
    Broker.make_fresh (eq_ok_of_value hstart) hrun⟩

end Started

end Sm4ns3
