import Sm4ns3.Verify.Routing
import Std.Data.TreeMap.Lemmas

/-!
# The registry of agents

The abstract registry is a set of ids (`Sm4ns3.Lib.Registry`). Along a run of
messages the map `AllAgents` stays that set exactly as long as every message
`Fits`: looking an unknown id up enters a null agent, which nothing removes
(`keeps_null`), so that one such message spoils the rest of the run.
-/

namespace Sm4ns3

open Bytes Cpp Call

/-- The registry is the set `R`, each id with an agent of that id. -/
def World.Exact (w : World) (R : Set StdString) : Prop :=
  Registry.Exact Agent.GetAgentId (fun agId => w.AllAgents[agId]?) R

/-- An id is registered without an agent. -/
def World.Null (agId : StdString) (w : World) : Prop := w.AllAgents[agId]? = some none

theorem World.Exact.not_null {w : World} {R : Set StdString} (h : w.Exact R) (agId : StdString) :
    ¬ w.Null agId := by
  intro hnull
  obtain ⟨-, agent, hagent, -⟩ := Registry.Exact.of_slot h hnull
  cases hagent

theorem World.Exact.congr {w w' : World} {R : Set StdString} (h : w.Exact R)
    (heq : w'.AllAgents = w.AllAgents) : w'.Exact R :=
  Registry.Exact.congr h fun _ => by rw [heq]

/-- What a message asks of the set of ids. -/
def Request.command : Request → Registry.Command StdString
  | .newAgents aInfo => .update aInfo.addAgentIds aInfo.remAgentIds
  | .allLocations _ => .consult
  | .opaqueSend _ => .consult

/-- An `opaque_send` looks up registered ids only, and no agent that a message names
lacks what its handler uses. -/
def Request.Fits (w : World) : Request → Prop
  | .newAgents _ => True
  | .allLocations aInfo => ∀ loc ∈ aInfo.agentLocations.toList, ∀ agent,
      w.AllAgents[loc.1]? = some (some agent) → agent.Movable w
  | .opaqueSend osMsg => ∃ sending_agent, w.AllAgents[osMsg.fromId]? = some (some sending_agent) ∧
      ∀ toId ∈ osMsg.toIds, ∃ receiving_agent,
        w.AllAgents[toId]? = some (some receiving_agent) ∧ sending_agent.CanReach receiving_agent

/-! ## Adding and removing -/

section Update

variable {W : Ns3} {R : Set StdString}

theorem exact_addAgent (hW : W.Documented) {w : World} (h : w.Exact R) (agId : StdString) :
    ∃ w', AgentsInfoHandler.addAgent W agId w = .ok () w' ∧ w'.Exact (R ∪ {agId}) := by
  obtain ⟨agent, w', hrun, hadded⟩ := AgentsInfoHandler.addAgent_added hW agId w
  refine ⟨w', hrun, Registry.Exact.enter h hadded.id ?_ ?_⟩
  · rw [hadded.entered, Std.TreeMap.getElem?_insertIfNew]
    cases hslot : w.AllAgents[agId]? with
    | none => simp [Std.TreeMap.mem_iff_isSome_getElem?, hslot]
    | some x => simp [Std.TreeMap.mem_iff_isSome_getElem?, hslot]
  · intro k hk
    rw [hadded.entered, Std.TreeMap.getElem?_insertIfNew, if_neg]
    simp [Ne.symm hk]

theorem exact_addAgents (hW : W.Documented) {w : World} (h : w.Exact R) (ids : List StdString) :
    ∃ w', forEach (AgentsInfoHandler.addAgent W) ids w = .ok () w' ∧
      w'.Exact (R ∪ {k | k ∈ ids}) := by
  induction ids generalizing w R with
  | nil => exact ⟨w, rfl, by simpa using h⟩
  | cons agId ids ih =>
    obtain ⟨w₁, hadd, hw₁⟩ := exact_addAgent hW h agId
    obtain ⟨w', hrest, hw'⟩ := ih hw₁
    refine ⟨w', (bind_ok hadd _).trans hrest, ?_⟩
    have hset : R ∪ {k | k ∈ agId :: ids} = R ∪ {agId} ∪ {k | k ∈ ids} := by
      ext k
      simp only [Set.mem_union, Set.mem_ofPred_eq, List.mem_cons, Set.mem_singleton_iff, or_assoc]
    rwa [hset]

theorem exact_removeAgent {w : World} (h : w.Exact R) (agId : StdString) :
    ∃ w', Agent.RemoveAgent agId w = .ok () w' ∧ w'.Exact (R \ {agId}) := by
  cases hslot : w.AllAgents[agId]? with
  | none =>
    exact ⟨w, Agent.RemoveAgent_eq_ok.mpr (.inl ⟨hslot, rfl⟩),
      Registry.Exact.drop h hslot fun _ _ => rfl⟩
  | some x =>
    obtain ⟨-, agent, rfl, -⟩ := Registry.Exact.of_slot h hslot
    refine ⟨_, Agent.RemoveAgent_eq_ok.mpr (.inr ⟨⟨agent, hslot⟩, rfl⟩),
      Registry.Exact.drop h ?_ ?_⟩
    · simp
    · intro k hk
      simp [Std.TreeMap.getElem?_erase, Ne.symm hk]

theorem exact_removeAgents {w : World} (h : w.Exact R) (ids : List StdString) :
    ∃ w', forEach Agent.RemoveAgent ids w = .ok () w' ∧ w'.Exact (R \ {k | k ∈ ids}) := by
  induction ids generalizing w R with
  | nil => exact ⟨w, rfl, by simpa using h⟩
  | cons agId ids ih =>
    obtain ⟨w₁, hremove, hw₁⟩ := exact_removeAgent h agId
    obtain ⟨w', hrest, hw'⟩ := ih hw₁
    refine ⟨w', (bind_ok hremove _).trans hrest, ?_⟩
    have hset : R \ {k | k ∈ agId :: ids} = (R \ {agId}) \ {k | k ∈ ids} := by
      ext k
      simp [and_assoc]
    rwa [hset]

end Update

/-! ## Moving -/

section Move

variable {w : World} {locs : List (StdString × DPoint)}

/-- All agents named are moved if those that are registered can be. -/
theorem moveAgents_ok (h : ∀ loc ∈ locs, ∀ agent,
    w.AllAgents[loc.1]? = some (some agent) → agent.Movable w) :
    ∃ w', forEach AllLocationHandler.moveAgent locs w = .ok () w' := by
  induction locs generalizing w with
  | nil => exact ⟨w, rfl⟩
  | cons loc locs ih =>
    obtain ⟨w₁, hmove⟩ := AllLocationHandler.moveAgent_ok (h loc List.mem_cons_self)
    obtain ⟨-, mobility, hsame, rfl⟩ := AllLocationHandler.moveAgent_eq_ok hmove
    obtain ⟨w', hrest⟩ := ih (w := { w with mobility := mobility }) fun l hl agent hagent =>
      let ⟨node, hnode, hmem⟩ := h l (List.mem_cons_of_mem loc hl) agent hagent
      ⟨node, hnode, (hsame node).mpr hmem⟩
    exact ⟨w', (bind_ok hmove _).trans hrest⟩

/-- Moving agents needs those that are registered movable, and moves nodes only. -/
theorem moveAgents_eq_ok {w' : World} {u : Unit}
    (h : forEach AllLocationHandler.moveAgent locs w = .ok u w') :
    (∀ loc ∈ locs, ∀ agent, w.AllAgents[loc.1]? = some (some agent) → agent.Movable w) ∧
      ∃ mobility : Std.TreeMap Nat Vector, (∀ node, node ∈ mobility ↔ node ∈ w.mobility) ∧
        w' = { w with mobility := mobility } := by
  induction locs generalizing w with
  | nil =>
    cases h
    exact ⟨by simp, _, fun _ => Iff.rfl, rfl⟩
  | cons loc locs ih =>
    obtain ⟨_, w₁, hmove, hrest⟩ := bind_eq_ok h
    obtain ⟨hmovable, mobility, hsame, rfl⟩ := AllLocationHandler.moveAgent_eq_ok hmove
    obtain ⟨hlocs, mobility', hsame', rfl⟩ := ih hrest
    refine ⟨List.forall_mem_cons.mpr ⟨hmovable, fun l hl agent hagent => ?_⟩, mobility',
      fun node => (hsame' node).trans (hsame node), rfl⟩
    obtain ⟨node, hnode, hmem⟩ := hlocs l hl agent hagent
    exact ⟨node, hnode, (hsame node).mp hmem⟩

theorem moveAgents_agents {w' : World} {u : Unit}
    (h : forEach AllLocationHandler.moveAgent locs w = .ok u w') :
    w'.AllAgents = w.AllAgents := by
  obtain ⟨-, mobility, -, rfl⟩ := moveAgents_eq_ok h
  rfl

end Move

/-! ## Null agents stay -/

section Null

variable {W : Ns3} {J : Jsoncpp} {id : StdString}

theorem Agent.touch_null {w : World} {agId : StdString} (h : w.AllAgents[agId]?.getD none = none) :
    (Agent.touch w agId).Null agId := by
  rw [World.Null, Agent.touch_getElem?, if_pos rfl, h]

theorem getAgent_keeps_null (agId : StdString) : Keeps (World.Null id) (Agent.getAgent agId) := by
  intro w hw
  rw [Agent.getAgent_apply, final, World.Null, Agent.touch_getElem?, hw]
  exact ite_self _

theorem addAgent_keeps_null (hW : W.Documented) (agId : StdString) :
    Keeps (World.Null id) (AgentsInfoHandler.addAgent W agId) := by
  intro w hw
  obtain ⟨agent, w', hrun, hadded⟩ := AgentsInfoHandler.addAgent_added hW agId w
  have hmem : id ∈ w.AllAgents := by
    rw [Std.TreeMap.mem_iff_isSome_getElem?, hw]
    rfl
  rw [hrun, final, World.Null, hadded.entered, Std.TreeMap.getElem?_insertIfNew, if_neg]
  · exact hw
  · rintro ⟨heq, hnot⟩
    rw [Std.LawfulEqCmp.compare_eq_iff_eq.mp heq] at hnot
    exact hnot hmem

theorem removeAgent_keeps_null (agId : StdString) :
    Keeps (World.Null id) (Agent.RemoveAgent agId) := by
  intro w hw
  rw [Agent.RemoveAgent, get_bind_apply]
  cases hslot : w.AllAgents[agId]? with
  | none => exact hw
  | some x =>
    cases x with
    | none => exact hw
    | some agent =>
      have hne : agId ≠ id := by
        rintro rfl
        rw [World.Null, hslot] at hw
        cases hw
      show (w.AllAgents.erase agId)[id]? = some none
      rw [Std.TreeMap.getElem?_erase, if_neg (by simpa using hne)]
      exact hw

theorem World.Null.frame {w w' : World} (h : w.Null id) (hw : w.Frame w') : w'.Null id := by
  rw [World.Null, hw.agents]
  exact h

theorem keeps_null_sends {osMsg : OpaqueSendMessage} (sending_agent : Agent)
    (toIds : List StdString) :
    Keeps (World.Null id)
      (forEach (OpaqueSendHandler.sendToRecipient W J osMsg sending_agent) toIds) := by
  refine Keeps.forEach fun toId _ => OpaqueSendHandler.sendToRecipient_keeps osMsg
    sending_agent toId (getAgent_keeps_null toId) fun agent packet _ => ?_
  exact keeps_of_frame (fun _ _ => World.Null.frame)
    fun w => Agent.SendTo_frame W w sending_agent (some agent) packet

/-- A null agent survives every message. -/
theorem keeps_null (hW : W.Documented) (request : Request) :
    Keeps (World.Null id) (request.act W J) := by
  cases request with
  | newAgents aInfo =>
    exact (Keeps.forEach fun agId _ => addAgent_keeps_null hW agId).bind fun _ =>
      Keeps.forEach fun agId _ => removeAgent_keeps_null agId
  | allLocations aInfo =>
    exact Keeps.forEach fun loc _ => keeps_of_frame (fun _ _ => World.Null.frame)
      fun w => AllLocationHandler.moveAgent_frame w loc
  | opaqueSend osMsg =>
    refine (getAgent_keeps_null osMsg.fromId).bind fun agent => ?_
    cases agent with
    | none => exact Keeps.pure ()
    | some sending_agent => exact keeps_null_sends sending_agent osMsg.toIds

end Null

/-! ## Sending -/

section Send

variable {W : Ns3} {J : Jsoncpp} {osMsg : OpaqueSendMessage} {sending_agent : Agent}
  {toIds : List StdString} {w : World}

/-- All recipients are served if they can be reached. -/
theorem sendToRecipients_ok (h : ∀ toId ∈ toIds, ∃ receiving_agent,
    w.AllAgents[toId]? = some (some receiving_agent) ∧ sending_agent.CanReach receiving_agent) :
    ∃ w', forEach (OpaqueSendHandler.sendToRecipient W J osMsg sending_agent) toIds w =
      .ok () w' ∧ w'.AllAgents = w.AllAgents := by
  induction toIds generalizing w with
  | nil => exact ⟨w, rfl, rfl⟩
  | cons toId toIds ih =>
    obtain ⟨⟨receiving_agent, hslot, hreach⟩, hrest⟩ := List.forall_mem_cons.mp h
    obtain ⟨w₁, hhead⟩ :=
      (OpaqueSendHandler.sendToRecipient_returns_iff (W := W) (J := J) hslot).mpr hreach
    have hsame := OpaqueSendHandler.sendToRecipient_agents hslot hhead
    rw [← hsame] at hrest
    obtain ⟨w', hrun, hagents⟩ := ih hrest
    exact ⟨w', (bind_ok hhead _).trans hrun, hagents.trans hsame⟩

/-- Where the loop returns, each recipient could be reached, or looking one up has
entered a null agent. -/
theorem sendToRecipients_eq_ok {w' : World} {u : Unit}
    (h : forEach (OpaqueSendHandler.sendToRecipient W J osMsg sending_agent) toIds w = .ok u w') :
    (∃ id, w'.Null id) ∨ ∀ toId ∈ toIds, ∃ receiving_agent,
      w.AllAgents[toId]? = some (some receiving_agent) ∧
        sending_agent.CanReach receiving_agent := by
  induction toIds generalizing w with
  | nil => exact .inr (by simp)
  | cons toId toIds ih =>
    obtain ⟨_, w₁, hhead, hrest⟩ := bind_eq_ok h
    cases hslot : w.AllAgents[toId]?.getD none with
    | none =>
      rw [OpaqueSendHandler.sendToRecipient_none hslot] at hhead
      cases hhead
      exact .inl ⟨toId, (keeps_null_sends sending_agent toIds).ok (Agent.touch_null hslot) hrest⟩
    | some receiving_agent =>
      have hsome := OpaqueSendHandler.some_of_getD hslot
      have hreach := (OpaqueSendHandler.sendToRecipient_returns_iff hsome).mp ⟨w₁, hhead⟩
      rcases ih hrest with hnull | hall
      · exact .inl hnull
      · rw [OpaqueSendHandler.sendToRecipient_agents hsome hhead] at hall
        exact .inr (List.forall_mem_cons.mpr ⟨⟨receiving_agent, hsome, hreach⟩, hall⟩)

end Send

/-! ## Whole messages and runs -/

section Run

variable {W : Ns3} {J : Jsoncpp} {w : World} {R : Set StdString}

/-- A message that fits is handled as the abstract registry says. -/
theorem Request.act_exact (hW : W.Documented) {request : Request} (hw : w.Exact R)
    (h : request.Fits w) :
    ∃ w', request.act W J w = .ok () w' ∧ w'.Exact (Registry.after R request.command) := by
  cases request with
  | newAgents aInfo =>
    obtain ⟨w₁, hadd, hw₁⟩ := exact_addAgents hW hw aInfo.addAgentIds
    obtain ⟨w', hremove, hw'⟩ := exact_removeAgents hw₁ aInfo.remAgentIds
    exact ⟨w', (bind_ok hadd _).trans hremove, hw'⟩
  | allLocations aInfo =>
    obtain ⟨w', hmove⟩ := moveAgents_ok h
    exact ⟨w', hmove, hw.congr (moveAgents_agents hmove)⟩
  | opaqueSend osMsg =>
    obtain ⟨sending_agent, hsender, hrecipients⟩ := h
    obtain ⟨w', hsend, hagents⟩ : ∃ w', forEach
        (OpaqueSendHandler.sendToRecipient W J osMsg sending_agent) osMsg.toIds w = .ok () w' ∧
          w'.AllAgents = w.AllAgents := sendToRecipients_ok hrecipients
    refine ⟨w', ?_, hw.congr hagents⟩
    rw [Request.act, bind_ok (Agent.getAgent_apply _ w), Agent.touch_of_mem hsender, hsender]
    exact hsend

/-- A message that does not fit leaves a null agent if it returns at all. -/
theorem Request.act_null {request : Request} {w' : World} {u : Unit}
    (hrun : request.act W J w = .ok u w') (h : ¬ request.Fits w) : ∃ id, w'.Null id := by
  cases request with
  | newAgents aInfo => exact absurd trivial h
  | allLocations aInfo => exact absurd (moveAgents_eq_ok hrun).1 h
  | opaqueSend osMsg =>
    rw [Request.act, bind_ok (Agent.getAgent_apply _ w)] at hrun
    cases hslot : w.AllAgents[osMsg.fromId]? with
    | none =>
      rw [hslot] at hrun
      cases hrun
      exact ⟨osMsg.fromId, Agent.touch_null (by rw [hslot]; rfl)⟩
    | some agent =>
      cases agent with
      | none =>
        rw [hslot] at hrun
        cases hrun
        exact ⟨osMsg.fromId, Agent.touch_null (by rw [hslot]; rfl)⟩
      | some sending_agent =>
        rw [hslot, Agent.touch_of_mem hslot] at hrun
        rcases sendToRecipients_eq_ok hrun with hnull | hall
        · exact hnull
        · exact absurd ⟨sending_agent, hslot, hall⟩ h

/-- One message of a run. -/
def handledStep (W : Ns3) (J : Jsoncpp) (w : World) (m : WellFormedMessage J) : Option World :=
  handled W J w m.toReceived

theorem handledStep_eq_some {w' : World} {m : WellFormedMessage J} :
    handledStep W J w m = some w' ↔ m.request.act W J w = .ok () w' := by
  rw [handledStep, m.handled_eq, returned_unit_eq_some]

/-- The ids registered after a run. -/
def registeredAfter (R : Set StdString) (msgs : List (WellFormedMessage J)) : Set StdString :=
  Registry.afterAll R (msgs.map fun m => m.request.command)

/-- Messages that fit are handled one after the other, as the abstract registry says. -/
theorem run_exact (hW : W.Documented) {msgs : List (WellFormedMessage J)} (hw : w.Exact R)
    (h : Transition.Along (handledStep W J) (fun w m => m.request.Fits w) w msgs) :
    ∃ w', Transition.run (handledStep W J) w msgs = some w' ∧
      w'.Exact (registeredAfter R msgs) := by
  induction msgs generalizing w R with
  | nil => exact ⟨w, rfl, hw⟩
  | cons m msgs ih =>
    obtain ⟨hfits, hrest⟩ := h
    obtain ⟨w₁, hact, hw₁⟩ := Request.act_exact hW hw hfits
    have hstep : handledStep W J w m = some w₁ := handledStep_eq_some.mpr hact
    obtain ⟨w', hrun, hw'⟩ := ih hw₁ (hrest w₁ hstep)
    exact ⟨w', Transition.run_cons_eq_some.mpr ⟨w₁, hstep, hrun⟩, hw'⟩

/-- If the last registry has no null agent, every message of the run did fit. -/
theorem fits_of_run (hW : W.Documented) {msgs : List (WellFormedMessage J)} {w' : World}
    (hrun : Transition.run (handledStep W J) w msgs = some w') (h : ∀ id, ¬ w'.Null id) :
    Transition.Along (handledStep W J) (fun w m => m.request.Fits w) w msgs := by
  induction msgs generalizing w with
  | nil => trivial
  | cons m msgs ih =>
    obtain ⟨w₁, hstep, hrest⟩ := Transition.run_cons_eq_some.mp hrun
    refine ⟨?_, fun t ht => ?_⟩
    · by_contra hfits
      obtain ⟨id, hnull⟩ := Request.act_null (handledStep_eq_some.mp hstep) hfits
      refine h id (Transition.invariant (fun s l t hs hl => ?_) hnull hrest)
      exact (keeps_null hW l.request).ok hs (handledStep_eq_some.mp hl)
    · rw [hstep] at ht
      cases ht
      exact ih hrest

/-- From a registry that is the set `R`, a run of messages is handled and ends in the
registry that the set of ids then is, exactly when each message fits. -/
theorem registry_exact_iff (hW : W.Documented) (msgs : List (WellFormedMessage J))
    (hw : w.Exact R) :
    (∃ w', Transition.run (handledStep W J) w msgs = some w' ∧
        w'.Exact (registeredAfter R msgs)) ↔
      Transition.Along (handledStep W J) (fun w m => m.request.Fits w) w msgs := by
  constructor
  · rintro ⟨w', hrun, hw'⟩
    exact fits_of_run hW hrun hw'.not_null
  · exact run_exact hW hw

end Run

/-! ## Instances -/

open OpaqueSendHandler (bundleWith twoAgents)

theorem twoAgents_exact : twoAgents.Exact {agId | agId ∈ [str "1", str "2"]} := by
  have hempty : World.Exact {} ∅ := ⟨by simp, by simp⟩
  obtain ⟨w', hrun, hw'⟩ := exact_addAgents Ns3.reference_documented hempty [str "1", str "2"]
  rw [Set.empty_union] at hw'
  rwa [twoAgents, hrun]

/-- A message that enters agent `3` and drops agent `1`. -/
def enterThree : WellFormedMessage Jsoncpp.reference where
  messages := bundleWith
    (str "\x7b\"add\":[\"3\"],\"msg_type\":\"new_agents\",\"rem\":[\"1\"]\x7d")
  msgNumber := 0
  request := .newAgents
    { msg_type := str "new_agents", addAgentIds := [str "3"], remAgentIds := [str "1"] }
  parses := ⟨by decide +kernel, by decide +kernel⟩

theorem registry_exact_iff_one :
    ∃ w', Transition.run (handledStep Ns3.reference Jsoncpp.reference) twoAgents [enterThree] =
        some w' ∧
      w'.Exact (registeredAfter {agId | agId ∈ [str "1", str "2"]} [enterThree]) :=
  (registry_exact_iff Ns3.reference_documented [enterThree] twoAgents_exact).mpr
    ⟨trivial, fun _ _ => trivial⟩

/-- A message from `1` to `9`, which is not registered. -/
def oneToNine : WellFormedMessage Jsoncpp.reference where
  messages := bundleWith
    (str ("\x7b\"broadcast\":false,\"data\":\"x\",\"format\":\"\",\"from_id\":\"1\"," ++
      "\"msg_type\":\"opaque_send\",\"tech\":\"\",\"to_ids\":[\"9\"]\x7d"))
  msgNumber := 0
  request := .opaqueSend
    { msg_type := str "opaque_send", fromId := str "1", toIds := [str "9"], broadcast := false
      data := str "x", format := [], tech := [] }
  parses := ⟨by decide +kernel, by decide +kernel⟩

/-- A message that enters agent `9`. -/
def enterNine : WellFormedMessage Jsoncpp.reference where
  messages := bundleWith (str "\x7b\"add\":[\"9\"],\"msg_type\":\"new_agents\"\x7d")
  msgNumber := 0
  request := .newAgents { msg_type := str "new_agents", addAgentIds := [str "9"] }
  parses := ⟨by decide +kernel, by decide +kernel⟩

/-- After a message to `9` the agent `9` cannot be entered any more: the messages are
handled, and its slot is null. -/
theorem registry_not_exact :
    (Transition.run (handledStep Ns3.reference Jsoncpp.reference) twoAgents
        [oneToNine, enterNine]).map (fun w => w.AllAgents[str "9"]?) = some (some none) ∧
      ¬ ∃ w', Transition.run (handledStep Ns3.reference Jsoncpp.reference) twoAgents
          [oneToNine, enterNine] = some w' ∧
        w'.Exact (registeredAfter {agId | agId ∈ [str "1", str "2"]} [oneToNine, enterNine]) := by
  have hnull : (Transition.run (handledStep Ns3.reference Jsoncpp.reference) twoAgents
      [oneToNine, enterNine]).map (fun w => w.AllAgents[str "9"]?) = some (some none) := by
    decide +kernel
  refine ⟨hnull, ?_⟩
  rintro ⟨w', hrun, hw'⟩
  rw [hrun] at hnull
  exact hw'.not_null _ (Option.some.inj hnull)

end Sm4ns3
