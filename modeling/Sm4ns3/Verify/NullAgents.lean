import Sm4ns3.Verify.AgentArena
import Sm4ns3.Verify.Receivers

/-!
# Null agents

`AllAgents[agId]` enters a null agent for an id that nobody has, and no handler takes
it out again: the id can neither get an agent nor send or receive. All that this needs
of the other agents is that each is stored under its own id (`World.Named`).
-/

namespace Sm4ns3

open Bytes Cpp Call

/-- Every agent is stored under its own id. -/
def World.Named (w : World) : Prop :=
  ∀ (agId : StdString) a, w.AllAgents[agId]? = some (some a) → a.m_AgentId = agId

/-- In `w'` the id has a null agent still, and nothing was sent from it or to it since `w`. -/
structure CutOff (agId : StdString) (w w' : World) : Prop where
  null : w'.Null agId
  named : w'.Named
  sent : OpaqueSendHandler.SentSince w (fun s => s.sender ≠ agId ∧ s.recipient ≠ agId) w'

section Null

variable {W : Ns3} {J : Jsoncpp} {w w₁ w' : World} {agId : StdString}

/-! ## Names -/

theorem named_addAgent (hW : W.Documented) (id : StdString) :
    Keeps World.Named (AgentsInfoHandler.addAgent W id) := by
  intro w hw
  obtain ⟨agent, w', hrun, hadded⟩ := AgentsInfoHandler.addAgent_added hW id w
  rw [hrun, final]
  intro k a ha
  rw [added_getElem? hadded] at ha
  split at ha
  · rename_i hk
    cases ha
    exact hadded.id.trans hk.1.symm
  · exact hw k a ha

theorem named_removeAgent (id : StdString) : Keeps World.Named (Agent.RemoveAgent id) := by
  intro w hw
  rw [Agent.RemoveAgent, get_bind_apply]
  cases w.AllAgents[id]? with
  | none => exact hw
  | some x =>
    cases x with
    | none => exact hw
    | some agent =>
      intro k a ha
      have hentry : (w.AllAgents.erase id)[k]? = some (some a) := ha
      rw [Std.TreeMap.getElem?_erase] at hentry
      split at hentry
      · cases hentry
      · exact hw k a hentry

theorem World.Named.touch (hw : w.Named) (id : StdString) : (Agent.touch w id).Named :=
  fun k a ha => hw k a (Agent.touch_some_iff.mp ha)

theorem World.Named.frame (hw : w.Named) (h : w.Frame w') : w'.Named := by
  intro k a ha
  rw [h.agents] at ha
  exact hw k a ha

theorem World.Housed.named (hw : w.Housed) : w.Named :=
  fun k a ha => hw.manned.named k a (World.agent_eq_some.mpr ha)

/-! ## One message -/

/-- A call that sends nothing. -/
theorem CutOff.of_quiet {x : Call World Unit} (hquiet : Quiet x)
    (hnull : Keeps (World.Null agId) x) (hnamed : Keeps World.Named x) :
    Keeps (CutOff agId w) x := by
  intro w₁ h
  obtain ⟨new, hsent, hnew⟩ := h.sent
  exact ⟨hnull w₁ h.null, hnamed w₁ h.named, new, (hquiet w₁.sent w₁ rfl).trans hsent, hnew⟩

theorem CutOff.touch (h : CutOff agId w w₁) (id : StdString) :
    CutOff agId w (Agent.touch w₁ id) := by
  obtain ⟨new, hsent, hnew⟩ := h.sent
  have hnull : (final (Agent.getAgent id w₁)).Null agId := getAgent_keeps_null id w₁ h.null
  rw [Agent.getAgent_apply] at hnull
  exact ⟨hnull, h.named.touch id, new, (Agent.touch_sent w₁ id).trans hsent, hnew⟩

/-- A slot with an agent is not the one of the id. -/
theorem CutOff.ne_of_some (h : CutOff agId w w₁) {id : StdString} {a : Agent}
    (ha : w₁.AllAgents[id]? = some (some a)) : a.m_AgentId ≠ agId := by
  rw [h.named id a ha]
  rintro rfl
  rw [h.null] at ha
  cases ha

/-- One recipient: neither it nor the sender is the id. -/
theorem CutOff.sendToRecipient {osMsg : OpaqueSendMessage} {sending_agent : Agent}
    {toId : StdString} {u : Unit} (h : CutOff agId w w₁) (hsender : sending_agent.m_AgentId ≠ agId)
    (hrun : OpaqueSendHandler.sendToRecipient W J osMsg sending_agent toId w₁ = .ok u w') :
    CutOff agId w w' := by
  cases hslot : w₁.AllAgents[toId]?.getD none with
  | none =>
    rw [OpaqueSendHandler.sendToRecipient_none hslot] at hrun
    cases hrun
    exact h.touch toId
  | some receiving_agent =>
    have hsome := OpaqueSendHandler.some_of_getD hslot
    obtain ⟨packet, r, -, hsend⟩ := (OpaqueSendHandler.sendToRecipient_some hsome).mp hrun
    obtain ⟨-, remote, socket, own, -, -, -, rfl⟩ := Agent.SendTo_eq_ok.mp hsend
    obtain ⟨new, hsent, hnew⟩ := h.sent
    refine ⟨h.null, h.named,
      new ++ [Agent.sentTo sending_agent receiving_agent socket remote packet], ?_, ?_⟩
    · rw [hsent, List.append_assoc]
    · rw [List.forall_mem_append, List.forall_mem_singleton]
      exact ⟨hnew, hsender, h.ne_of_some hsome⟩

theorem CutOff.sendToRecipients {osMsg : OpaqueSendMessage} {sending_agent : Agent}
    {toIds : List StdString} {u : Unit} (h : CutOff agId w w₁)
    (hsender : sending_agent.m_AgentId ≠ agId)
    (hrun : forEach (OpaqueSendHandler.sendToRecipient W J osMsg sending_agent) toIds w₁ =
      .ok u w') : CutOff agId w w' := by
  induction toIds generalizing w₁ with
  | nil =>
    cases hrun
    exact h
  | cons toId toIds ih =>
    obtain ⟨_, w₂, hhead, hrest⟩ := bind_eq_ok hrun
    exact ih (h.sendToRecipient hsender hhead) hrest

/-- No request gets the id an agent or a packet. -/
theorem CutOff.act (hW : W.Documented) (h : CutOff agId w w₁) {request : Request} {u : Unit}
    (hrun : request.act W J w₁ = .ok u w') : CutOff agId w w' := by
  cases request with
  | newAgents aInfo =>
    have hadd : Keeps (CutOff agId w)
        (forEach (AgentsInfoHandler.addAgent W) aInfo.addAgentIds) :=
      Keeps.forEach fun id _ => .of_quiet (quiet_addAgent W id) (addAgent_keeps_null hW id)
        (named_addAgent hW id)
    have hremove : Keeps (CutOff agId w) (forEach Agent.RemoveAgent aInfo.remAgentIds) :=
      Keeps.forEach fun id _ => .of_quiet (quiet_removeAgent id) (removeAgent_keeps_null id)
        (named_removeAgent id)
    exact (hadd.bind fun _ => hremove).ok h hrun
  | allLocations aInfo =>
    have hmove : Keeps (CutOff agId w)
        (forEach AllLocationHandler.moveAgent aInfo.agentLocations.toList) :=
      Keeps.forEach fun loc _ => .of_quiet (quiet_moveAgent loc)
        (keeps_of_frame (fun _ _ => World.Null.frame) fun w =>
          AllLocationHandler.moveAgent_frame w loc)
        (keeps_of_frame (fun _ _ => World.Named.frame) fun w =>
          AllLocationHandler.moveAgent_frame w loc)
    exact hmove.ok h hrun
  | opaqueSend osMsg =>
    rw [Request.act, bind_ok (Agent.getAgent_apply _ w₁)] at hrun
    cases hslot : w₁.AllAgents[osMsg.fromId]?.getD none with
    | none =>
      rw [hslot] at hrun
      cases hrun
      exact h.touch osMsg.fromId
    | some sending_agent =>
      have hsome := OpaqueSendHandler.some_of_getD hslot
      rw [hslot, Agent.touch_of_mem hsome] at hrun
      exact h.sendToRecipients (h.ne_of_some hsome) hrun

/-- A message does nothing, or what its request says. -/
theorem handled_cases {m : Received} (h : handled W J w m = some w') :
    w' = w ∨ ∃ request : Request, request.act W J w = .ok () w' := by
  cases hhandler : m.handler with
  | none =>
    rw [handled_of_no_handler hhandler] at h
    cases h
  | some handler =>
    by_cases hnull : handler = .NullHandler
    · subst hnull
      rw [handled_of_handler (by rw [hhandler]; rfl), dispatched, hhandler] at h
      exact .inl (Option.some.inj h).symm
    · rw [handled_eq_request hhandler hnull, Option.bind_eq_some_iff] at h
      obtain ⟨request, -, hrun⟩ := h
      exact .inr ⟨request, returned_unit_eq_some.mp hrun⟩

/-! ## Whole runs -/

theorem CutOff.run (hW : W.Documented) (h : CutOff agId w w₁) {msgs : List Received}
    (hrun : Transition.run (handled W J) w₁ msgs = some w') : CutOff agId w w' := by
  refine Transition.invariant (fun s m t hs hstep => ?_) h hrun
  obtain rfl | ⟨request, hact⟩ := handled_cases hstep
  · exact hs
  · exact hs.act hW hact

/-- An id that was looked up while it was unknown stays without an agent in every run, whatever
messages come, and nothing is sent from it or to it. -/
theorem null_cut_off (hW : W.Documented) (hnamed : w.Named) (hnull : w.Null agId)
    {msgs : List Received} (hrun : Transition.run (handled W J) w msgs = some w') :
    w'.Null agId ∧ ∃ new, w'.sent = w.sent ++ new ∧
      ∀ s ∈ new, s.sender ≠ agId ∧ s.recipient ≠ agId := by
  have hfirst : CutOff agId w w := ⟨hnull, hnamed, .refl w _⟩
  have hlast := hfirst.run hW hrun
  exact ⟨hlast.null, hlast.sent⟩

/-- After a message to `9`, agent `9` gets none of what is sent. -/
theorem null_cut_off_nine : ∃ w w',
    Transition.run (handled Ns3.reference Jsoncpp.reference) OpaqueSendHandler.twoAgents
      [oneToNine.toReceived] = some w ∧
    Transition.run (handled Ns3.reference Jsoncpp.reference) w
      [enterNine.toReceived, oneToNine.toReceived, ⟨OpaqueSendHandler.oneToTwo, 0⟩] = some w' ∧
    w'.Null (str "9") ∧ ∃ new, w'.sent = w.sent ++ new ∧
      ∀ s ∈ new, s.sender ≠ str "9" ∧ s.recipient ≠ str "9" := by
  obtain ⟨w, hfirst, hnull⟩ := Option.map_eq_some_iff.mp
    (by decide +kernel : (Transition.run (handled Ns3.reference Jsoncpp.reference)
      OpaqueSendHandler.twoAgents [oneToNine.toReceived]).map
        (fun w => w.AllAgents[str "9"]?) = some (some none))
  obtain ⟨w', hboth⟩ := Option.isSome_iff_exists.mp
    (by decide +kernel : (Transition.run (handled Ns3.reference Jsoncpp.reference)
      OpaqueSendHandler.twoAgents ([oneToNine.toReceived] ++ [enterNine.toReceived,
        oneToNine.toReceived, ⟨OpaqueSendHandler.oneToTwo, 0⟩])).isSome = true)
  rw [Transition.run_append, hfirst] at hboth
  have hhoused := housed_of_run Ns3.reference_documented Jsoncpp.reference_readsBack
    twoAgents_housed hfirst
  exact ⟨w, w', hfirst, hboth,
    null_cut_off Ns3.reference_documented hhoused.named hnull hboth⟩

end Null

end Sm4ns3
