import Sm4ns3.Verify.Registry

/-!
# Agents that receive packets

`Agent::init` installs the agent as the receiver of its socket, and nothing takes a
receiver away. The receivers stay the registered agents (`LiveReceivers`) as long as
`new_agents` adds only ids that are not registered, each once, and removes no agent that
receives (`live_receivers_iff`).
-/

namespace Sm4ns3

open Bytes Cpp Call

/-- Every agent that receives packets is the one stored under its id, and each id has at
most one. -/
structure LiveReceivers (w : World) : Prop where
  stored : ∀ callback ∈ w.callbacks, ∃ agent,
    w.AllAgents[callback.id]? = some (some agent) ∧ agent.self = callback.receiver
  once : (w.callbacks.map RecvCallback.id).Nodup

/-- Every id is registered with an agent that exists. -/
def AgentsExist (w : World) : Prop :=
  ∀ (id : StdString) x, w.AllAgents[id]? = some x → ∃ agent, x = some agent ∧ agent.self < w.agents

/-- One message handled by `AgentsInfoHandler`. -/
def agentsStep (W : Ns3) (J : Jsoncpp) (w : World) (m : Received) : Option World :=
  returned (AgentsInfoHandler.handle W J m.messages m.msgNumber w)

/-- The ids added are new, each once, and no id removed is one of them or belongs to an
agent that receives packets. -/
structure Replaceable (w : World) (aInfo : AgentsInfoMessage) : Prop where
  once : aInfo.addAgentIds.Nodup
  absent : ∀ id ∈ aInfo.addAgentIds, w.AllAgents[id]? = none
  kept : ∀ id ∈ aInfo.remAgentIds, id ∉ aInfo.addAgentIds ∧
    ∀ callback ∈ w.callbacks, callback.id ≠ id

/-- What the message, if it can be parsed, asks of the agents. -/
def KeepsReceivers (J : Jsoncpp) (w : World) (m : Received) : Prop :=
  ∀ aInfo, JsonParser.parseNewAgents J m.messages m.msgNumber = .ok aInfo → Replaceable w aInfo

section Step

variable {W : Ns3} {J : Jsoncpp} {w w' : World}

open AgentsInfoHandler (Added)

/-! ## Adding agents -/

theorem agentsExist_added {agId : StdString} {agent : Agent} (hw : AgentsExist w)
    (h : Added w agId agent w') : AgentsExist w' := by
  intro id x hx
  rw [h.entered, Std.TreeMap.getElem?_insertIfNew] at hx
  rw [h.agents]
  split at hx
  · cases hx
    exact ⟨agent, rfl, by rw [h.self]; exact Nat.lt_succ_self _⟩
  · obtain ⟨old, hold, hlt⟩ := hw id x hx
    exact ⟨old, hold, Nat.lt_succ_of_lt hlt⟩

/-- The slots after an agent was added. -/
theorem added_getElem? {agId : StdString} {agent : Agent} (h : Added w agId agent w')
    (id : StdString) : w'.AllAgents[id]? =
      if id = agId ∧ w.AllAgents[agId]? = none then some (some agent) else w.AllAgents[id]? := by
  rw [h.entered, Std.TreeMap.getElem?_insertIfNew]
  by_cases hid : id = agId
  · subst hid
    cases hslot : w.AllAgents[id]? with
    | none => simp [Std.TreeMap.mem_iff_isSome_getElem?, hslot]
    | some x => simp [Std.TreeMap.mem_iff_isSome_getElem?, hslot]
  · simp [hid, Ne.symm hid]

/-- The new agent is live exactly when its id was free. -/
theorem live_added_iff {agId : StdString} {agent : Agent} (hw : AgentsExist w)
    (h : Added w agId agent w') :
    LiveReceivers w' ↔ LiveReceivers w ∧ w.AllAgents[agId]? = none := by
  constructor
  · intro hlive
    have hnodup := hlive.once
    rw [h.callbacks, List.map_append, List.nodup_append] at hnodup
    have hne : ∀ callback ∈ w.callbacks, callback.id ≠ agId := fun callback hmem =>
      hnodup.2.2 _ (List.mem_map_of_mem hmem) _ (List.mem_singleton_self agId)
    have hfree : w.AllAgents[agId]? = none := by
      obtain ⟨stored, hstored, hself⟩ := hlive.stored
        { socket := w.sockets, receiver := w.agents, id := agId, address := agent.iic.head? }
        (by rw [h.callbacks]; simp)
      rw [added_getElem? h] at hstored
      by_contra hslot
      rw [if_neg (fun hand => hslot hand.2)] at hstored
      obtain ⟨old, hold, hlt⟩ := hw agId _ hstored
      cases hold
      exact absurd hself (Nat.ne_of_lt hlt)
    refine ⟨⟨fun callback hmem => ?_, hnodup.1⟩, hfree⟩
    obtain ⟨stored, hstored, hself⟩ := hlive.stored callback (by rw [h.callbacks]; simp [hmem])
    rw [added_getElem? h, if_neg (fun hand => hne callback hmem hand.1)] at hstored
    exact ⟨stored, hstored, hself⟩
  · intro hgiven
    rcases hgiven with ⟨hlive, hfree⟩
    have hne : ∀ callback ∈ w.callbacks, callback.id ≠ agId := by
      rintro callback hmem rfl
      obtain ⟨stored, hstored, -⟩ := hlive.stored callback hmem
      rw [hfree] at hstored
      cases hstored
    constructor
    · intro callback hmem
      rw [h.callbacks] at hmem
      rcases List.mem_append.mp hmem with hold | hnew
      · obtain ⟨stored, hstored, hself⟩ := hlive.stored callback hold
        exact ⟨stored, by rw [added_getElem? h, if_neg (fun hand => hne callback hold hand.1),
          hstored], hself⟩
      · obtain rfl := List.mem_singleton.mp hnew
        exact ⟨agent, by rw [added_getElem? h, if_pos ⟨rfl, hfree⟩], h.self⟩
    · rw [h.callbacks, List.map_append, List.nodup_append]
      refine ⟨hlive.once, List.nodup_singleton _, ?_⟩
      intro id hmem other hother
      obtain ⟨callback, hcallback, rfl⟩ := List.mem_map.mp hmem
      obtain rfl := List.mem_singleton.mp hother
      exact hne callback hcallback

/-- Agents are added one after the other. -/
theorem live_addAgents (hW : W.Documented) (hw : AgentsExist w) (ids : List StdString) :
    ∃ w', forEach (AgentsInfoHandler.addAgent W) ids w = .ok () w' ∧ AgentsExist w' ∧
      w'.callbacks.map RecvCallback.id = w.callbacks.map RecvCallback.id ++ ids ∧
      (LiveReceivers w' ↔
        LiveReceivers w ∧ ids.Nodup ∧ ∀ id ∈ ids, w.AllAgents[id]? = none) := by
  induction ids generalizing w with
  | nil => exact ⟨w, rfl, hw, by simp, by simp⟩
  | cons agId ids ih =>
    obtain ⟨agent, w₁, hadd, hadded⟩ := AgentsInfoHandler.addAgent_added hW agId w
    obtain ⟨w', hrest, hexist, hcallbacks, hlive⟩ := ih (agentsExist_added hw hadded)
    refine ⟨w', (bind_ok hadd _).trans hrest, hexist, ?_, ?_⟩
    · rw [hcallbacks, hadded.callbacks]
      simp
    · rw [hlive, live_added_iff hw hadded, List.nodup_cons, List.forall_mem_cons]
      constructor
      · intro h
        rcases h with ⟨⟨hw₀, hfree⟩, hnodup, hids⟩
        refine ⟨hw₀, ⟨fun hmem => ?_, hnodup⟩, hfree, fun id hid => ?_⟩
        · have hnone := hids agId hmem
          rw [added_getElem? hadded, if_pos ⟨rfl, hfree⟩] at hnone
          cases hnone
        · have hnone := hids id hid
          rw [added_getElem? hadded] at hnone
          split at hnone
          · cases hnone
          · exact hnone
      · intro h
        rcases h with ⟨hw₀, ⟨hnot, hnodup⟩, hfree, hids⟩
        refine ⟨⟨hw₀, hfree⟩, hnodup, fun id hid => ?_⟩
        have hne : id ≠ agId := fun heq => hnot (heq ▸ hid)
        rw [added_getElem? hadded, if_neg (fun hand => hne hand.1)]
        exact hids id hid

/-! ## Removing agents -/

/-- Removing an agent leaves its receiver where it is. -/
theorem live_removeAgent (hw : AgentsExist w) (agId : StdString) :
    ∃ w', Agent.RemoveAgent agId w = .ok () w' ∧ AgentsExist w' ∧ w'.callbacks = w.callbacks ∧
      (LiveReceivers w' ↔
        LiveReceivers w ∧ ∀ callback ∈ w.callbacks, callback.id ≠ agId) := by
  cases hslot : w.AllAgents[agId]? with
  | none =>
    refine ⟨w, Agent.RemoveAgent_eq_ok.mpr (.inl ⟨hslot, rfl⟩), hw, rfl, ?_⟩
    refine ⟨fun hlive => ⟨hlive, ?_⟩, And.left⟩
    rintro callback hmem rfl
    obtain ⟨stored, hstored, -⟩ := hlive.stored callback hmem
    rw [hslot] at hstored
    cases hstored
  | some x =>
    obtain ⟨agent, rfl, -⟩ := hw agId x hslot
    have hget : ∀ id, (w.AllAgents.erase agId)[id]? =
        if id = agId then none else w.AllAgents[id]? := by
      intro id
      rw [Std.TreeMap.getElem?_erase]
      by_cases hid : id = agId
      · simp [hid]
      · simp [hid, Ne.symm hid]
    refine ⟨{ w with AllAgents := w.AllAgents.erase agId },
      Agent.RemoveAgent_eq_ok.mpr (.inr ⟨⟨agent, hslot⟩, rfl⟩), ?_, rfl, ?_⟩
    · intro id x hx
      have hx' : (w.AllAgents.erase agId)[id]? = some x := hx
      rw [hget] at hx'
      split at hx'
      · cases hx'
      · exact hw id x hx'
    · constructor
      · intro hlive
        have hstored : ∀ callback ∈ w.callbacks, ∃ stored,
            (if callback.id = agId then none else w.AllAgents[callback.id]?) =
              some (some stored) ∧ stored.self = callback.receiver := by
          intro callback hmem
          rw [← hget]
          exact hlive.stored callback hmem
        refine ⟨⟨fun callback hmem => ?_, hlive.once⟩, fun callback hmem heq => ?_⟩
        · obtain ⟨stored, hsome, hself⟩ := hstored callback hmem
          split at hsome
          · cases hsome
          · exact ⟨stored, hsome, hself⟩
        · obtain ⟨stored, hsome, -⟩ := hstored callback hmem
          rw [if_pos heq] at hsome
          cases hsome
      · intro h
        rcases h with ⟨hlive, hne⟩
        refine ⟨fun callback hmem => ?_, hlive.once⟩
        obtain ⟨stored, hsome, hself⟩ := hlive.stored callback hmem
        refine ⟨stored, ?_, hself⟩
        show (w.AllAgents.erase agId)[callback.id]? = _
        rw [hget, if_neg (hne callback hmem)]
        exact hsome

theorem live_removeAgents (hw : AgentsExist w) (ids : List StdString) :
    ∃ w', forEach Agent.RemoveAgent ids w = .ok () w' ∧ AgentsExist w' ∧
      (LiveReceivers w' ↔ LiveReceivers w ∧
        ∀ id ∈ ids, ∀ callback ∈ w.callbacks, callback.id ≠ id) := by
  induction ids generalizing w with
  | nil => exact ⟨w, rfl, hw, by simp⟩
  | cons agId ids ih =>
    obtain ⟨w₁, hremove, hexist, hcallbacks, hlive⟩ := live_removeAgent hw agId
    obtain ⟨w', hrest, hexist', hlive'⟩ := ih hexist
    refine ⟨w', (bind_ok hremove _).trans hrest, hexist', ?_⟩
    rw [hlive', hlive, hcallbacks, List.forall_mem_cons, and_assoc]

/-! ## Whole messages and runs -/

/-- A message that can be parsed is handled; the receivers stay live exactly when it is
replaceable. -/
theorem agentsStep_ok (hW : W.Documented) (hw : AgentsExist w) {m : Received}
    {aInfo : AgentsInfoMessage}
    (hparse : JsonParser.parseNewAgents J m.messages m.msgNumber = .ok aInfo) :
    ∃ w', agentsStep W J w m = some w' ∧ AgentsExist w' ∧
      (LiveReceivers w' ↔ LiveReceivers w ∧ Replaceable w aInfo) := by
  obtain ⟨w₁, hadd, hexist, hcallbacks, hlive⟩ := live_addAgents hW hw aInfo.addAgentIds
  obtain ⟨w', hremove, hexist', hlive'⟩ := live_removeAgents hexist aInfo.remAgentIds
  have hrun : AgentsInfoHandler.handle W J m.messages m.msgNumber w = .ok () w' := by
    rw [AgentsInfoHandler.handle, hparse, eval_ok, pure_bind_apply, bind_ok hadd, hremove]
  refine ⟨w', returned_eq_some.mpr ⟨(), hrun⟩, hexist', ?_⟩
  -- the receivers after the additions are the old ones and the added ones
  have hreceivers : ∀ id, (∀ callback ∈ w₁.callbacks, callback.id ≠ id) ↔
      id ∉ aInfo.addAgentIds ∧ ∀ callback ∈ w.callbacks, callback.id ≠ id := by
    intro id
    have hmem : (id ∉ w₁.callbacks.map RecvCallback.id) ↔
        id ∉ w.callbacks.map RecvCallback.id ∧ id ∉ aInfo.addAgentIds := by
      rw [hcallbacks, List.mem_append, not_or]
    simp only [List.mem_map, not_exists, not_and] at hmem
    rw [and_comm]
    exact hmem
  rw [hlive', hlive]
  simp only [hreceivers]
  constructor
  · intro h
    rcases h with ⟨⟨hlive₀, honce, habsent⟩, hkept⟩
    exact ⟨hlive₀, honce, habsent, hkept⟩
  · intro h
    rcases h with ⟨hlive₀, honce, habsent, hkept⟩
    exact ⟨⟨hlive₀, honce, habsent⟩, hkept⟩

/-- From a registry of agents that exist, with live receivers: they are live in every
state that a sequence of messages reaches exactly when each message is replaceable in
its turn. -/
theorem live_receivers_iff (hW : W.Documented) (hexist : AgentsExist w)
    (hlive : LiveReceivers w) (msgs : List Received) :
    Transition.Always (agentsStep W J) w msgs LiveReceivers ↔
      Transition.Along (agentsStep W J) (KeepsReceivers J) w msgs := by
  induction msgs generalizing w with
  | nil => exact ⟨fun _ => trivial, fun _ => Transition.Always.nil.mpr hlive⟩
  | cons m msgs ih =>
    rw [Transition.Always.cons]
    cases hparse : JsonParser.parseNewAgents J m.messages m.msgNumber with
    | error e =>
      -- the handler throws, and no further state is reached
      have hnone : agentsStep W J w m = none := by
        rw [agentsStep, AgentsInfoHandler.handle, hparse]
        rfl
      constructor
      · intro _
        refine ⟨fun aInfo hok => ?_, fun t ht => ?_⟩
        · rw [hparse] at hok
          cases hok
        · rw [hnone] at ht
          cases ht
      · intro _
        refine ⟨hlive, fun t ht => ?_⟩
        rw [hnone] at ht
        cases ht
    | ok aInfo =>
      obtain ⟨w', hstep, hexist', hiff⟩ := agentsStep_ok hW hexist hparse
      constructor
      · intro h
        rcases h with ⟨_, hrest⟩
        have halways := hrest w' hstep
        have hlive' : LiveReceivers w' := halways [] w' List.nil_prefix rfl
        refine ⟨fun other hok => ?_, fun t ht => ?_⟩
        · rw [hparse] at hok
          cases hok
          exact (hiff.mp hlive').2
        · rw [hstep] at ht
          cases ht
          exact (ih hexist' hlive').mp halways
      · intro h
        rcases h with ⟨hkeeps, hrest⟩
        have hlive' := hiff.mpr ⟨hlive, hkeeps aInfo hparse⟩
        refine ⟨hlive, fun t ht => ?_⟩
        rw [hstep] at ht
        cases ht
        exact (ih hexist' hlive').mpr (hrest w' hstep)

end Step

/-! ## Instances -/

open OpaqueSendHandler (twoAgents)

theorem twoAgents_receivers : AgentsExist twoAgents ∧ LiveReceivers twoAgents ∧
    twoAgents.callbacks.map RecvCallback.id = [str "1", str "2"] := by
  have hnone : AgentsExist {} := by
    intro id x hx
    simp at hx
  have hempty : LiveReceivers {} := ⟨by simp, List.nodup_nil⟩
  obtain ⟨w', hrun, hexist, hcallbacks, hlive⟩ :=
    live_addAgents Ns3.reference_documented hnone [str "1", str "2"]
  rw [twoAgents, hrun]
  exact ⟨hexist, hlive.mpr ⟨hempty, by decide, by simp⟩, hcallbacks⟩

theorem live_receivers_iff_one :
    Transition.Always (agentsStep Ns3.reference Jsoncpp.reference) twoAgents
      [enterNine.toReceived] LiveReceivers := by
  obtain ⟨hexist, hlive, -⟩ := twoAgents_receivers
  refine (live_receivers_iff Ns3.reference_documented hexist hlive _).mpr
    ⟨fun aInfo hparse => ?_, fun _ _ => trivial⟩
  have hnine : JsonParser.parseNewAgents Jsoncpp.reference enterNine.toReceived.messages
      enterNine.toReceived.msgNumber =
        .ok { msg_type := str "new_agents", addAgentIds := [str "9"] } := by
    decide +kernel
  cases hnine.symm.trans hparse
  refine ⟨List.nodup_singleton _, fun id hid => ?_, fun id hid => ?_⟩
  · obtain rfl := List.mem_singleton.mp hid
    refine Registry.Exact.absent twoAgents_exact ?_
    rw [Set.mem_ofPred_eq]
    decide
  · cases hid

/-- Removing agent `1` leaves it as a receiver. -/
theorem removed_agent_receives :
    ¬ Transition.Always (agentsStep Ns3.reference Jsoncpp.reference) twoAgents
      [enterThree.toReceived] LiveReceivers := by
  intro h
  obtain ⟨hexist, -, hcallbacks⟩ := twoAgents_receivers
  have hthree : JsonParser.parseNewAgents Jsoncpp.reference enterThree.toReceived.messages
      enterThree.toReceived.msgNumber = .ok { msg_type := str "new_agents"
                                              addAgentIds := [str "3"]
                                              remAgentIds := [str "1"] } := by
    decide +kernel
  obtain ⟨w', hstep, -, hiff⟩ := agentsStep_ok Ns3.reference_documented hexist hthree
  have hlive : LiveReceivers w' :=
    h _ w' (List.prefix_refl _) (Transition.run_cons_eq_some.mpr ⟨w', hstep, rfl⟩)
  have hmem : str "1" ∈ twoAgents.callbacks.map RecvCallback.id := by
    rw [hcallbacks]
    exact List.mem_cons_self
  obtain ⟨callback, hcallback, hid⟩ := List.mem_map.mp hmem
  exact ((hiff.mp hlive).2.kept (str "1") (List.mem_singleton_self _)).2 callback hcallback hid

end Sm4ns3
