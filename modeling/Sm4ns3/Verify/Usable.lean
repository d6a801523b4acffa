import Sm4ns3.Network.Registration
import Sm4ns3.Verify.Registry

/-!
# What registration sets up

`Agent::init` gives an agent its node, its socket and its addresses;
`WFD_Agent::init` and `configAll` only fill the shared containers. So after a
registration, and in every state that messages lead to from there, the handlers
can use every agent exactly when the application is `Default`
(`agents_operable_iff`).
-/

namespace Sm4ns3

open Bytes Cpp Call

/-- What the handlers call on an agent finds every field it reads. -/
structure Agent.Operable (W : Ns3) (w : World) (agent : Agent) : Prop where
  m_node : agent.m_node ≠ none
  m_socket : agent.m_socket ≠ none
  iic : agent.iic ≠ []
  setPosition : ∀ value, ∃ w', agent.SetPosition value w = .ok () w'
  getAddress : ∃ address, agent.GetAddress = .ok address
  sendTo : ∀ (agId : StdString) other packet, w.AllAgents[agId]? = some (some other) →
    ∃ r w', agent.SendTo W (some other) packet w = .ok r w'

/-- Every agent that is registered is operable. -/
def World.Operable (W : Ns3) (w : World) : Prop :=
  ∀ (agId : StdString) agent, w.AllAgents[agId]? = some (some agent) → agent.Operable W w

/-- Every agent that is registered is usable. -/
def World.Usable (w : World) : Prop :=
  ∀ (agId : StdString) agent, w.AllAgents[agId]? = some (some agent) → agent.Usable w

theorem World.Usable.operable (W : Ns3) {w : World} (h : w.Usable) : w.Operable W := by
  intro agId agent hagent
  have husable := h agId agent hagent
  obtain ⟨node, hnode, hmem⟩ := husable.movable
  exact
    { m_node := by simp [hnode]
      m_socket := by simpa [Option.isSome_iff_ne_none] using husable.socket
      iic := husable.address
      setPosition := fun _ => ⟨_, Agent.SetPosition_eq_ok.mpr ⟨node, hnode, hmem, rfl⟩⟩
      getAddress := Agent.GetAddress_ok.mpr husable.address
      sendTo := fun id other _ hother =>
        Agent.SendTo_ok (husable.canReach (h id other hother)) }

/-! ## The handlers keep agents usable -/

section Handlers

variable {W : Ns3} {J : Jsoncpp}

theorem World.Usable.frame {w w' : World} (h : w.Usable) (hw : w.Frame w') : w'.Usable := by
  intro agId agent hagent
  rw [hw.agents] at hagent
  exact (h agId agent hagent).mono hw.mobility

theorem usable_getAgent (agId : StdString) : Keeps World.Usable (Agent.getAgent agId) := by
  intro w hw id agent hagent
  rw [Agent.getAgent_apply, final, Agent.touch_getElem?] at hagent
  rw [Agent.getAgent_apply, final]
  refine Agent.Usable.mono (hw id agent ?_) fun node hnode => by rwa [Agent.touch_mobility]
  split at hagent
  · cases hslot : w.AllAgents[id]? with
    | none => simp [hslot] at hagent
    | some x => simpa [hslot] using hagent
  · exact hagent

theorem usable_addAgent (hW : W.Documented) (agId : StdString) :
    Keeps World.Usable (AgentsInfoHandler.addAgent W agId) := by
  intro w hw id agent hagent
  obtain ⟨new, w', hrun, hadded⟩ := AgentsInfoHandler.addAgent_added hW agId w
  rw [hrun, final] at hagent ⊢
  rw [hadded.entered, Std.TreeMap.getElem?_insertIfNew] at hagent
  split at hagent
  · cases hagent
    exact hadded.usable
  · exact (hw id agent hagent).mono hadded.mobility

theorem usable_removeAgent (agId : StdString) : Keeps World.Usable (Agent.RemoveAgent agId) := by
  intro w hw
  rw [Agent.RemoveAgent, get_bind_apply]
  cases w.AllAgents[agId]? with
  | none => exact hw
  | some x =>
    cases x with
    | none => exact hw
    | some _ =>
      intro id agent hagent
      refine (hw id agent ?_).mono fun _ h => h
      have herase : (w.AllAgents.erase agId)[id]? = some (some agent) := hagent
      rw [Std.TreeMap.getElem?_erase] at herase
      split at herase
      · cases herase
      · exact herase

/-- Whatever a message says and however its handler ends. -/
theorem usable_handleMessage (hW : W.Documented) (messages : MessageConglomerate)
    (msgNumber : Int) : Keeps World.Usable (handleMessage W J messages msgNumber) := by
  refine (Keeps.eval _).bind fun base => (Keeps.eval _).bind fun handler => ?_
  cases handler with
  | AllLocationHandler =>
    exact (Keeps.eval _).bind fun aInfo => Keeps.forEach fun loc _ =>
      keeps_of_frame (fun _ _ => World.Usable.frame) fun w =>
        AllLocationHandler.moveAgent_frame w loc
  | AgentsInfoHandler =>
    exact (Keeps.eval _).bind fun aInfo =>
      (Keeps.forEach fun agId _ => usable_addAgent hW agId).bind fun _ =>
        Keeps.forEach fun agId _ => usable_removeAgent agId
  | NullHandler => exact Keeps.pure ()
  | OpaqueSendHandler =>
    refine (Keeps.eval _).bind fun osMsg => (usable_getAgent _).bind fun agent => ?_
    cases agent with
    | none => exact Keeps.pure ()
    | some sending_agent =>
      refine Keeps.forEach fun toId _ => OpaqueSendHandler.sendToRecipient_keeps osMsg
        sending_agent toId (usable_getAgent toId) fun agent packet _ => ?_
      exact keeps_of_frame (fun _ _ => World.Usable.frame)
        fun w => Agent.SendTo_frame W w sending_agent (some agent) packet
  | InvalidHandler => exact fun _ hw => hw

end Handlers

/-! ## What `start` does to the agents -/

namespace Registration

section Start

variable {W : Ns3} {J : Jsoncpp} {peer : Peer} {m_application : StdString} {b b' : Broker}

/-- A guard of `start` has held when `start` returns true. -/
theorem bind_guard {σ : Type} {x y : Call σ Bool} {s u : σ}
    (h : (x >>= fun r => if (!r) = true then pure false else y) s = .ok true u) :
    ∃ t, x s = .ok true t ∧ y t = .ok true u := by
  obtain ⟨r, t, hx, hrest⟩ := bind_eq_ok h
  cases r with
  | false => cases hrest
  | true => exact ⟨t, hx, hrest⟩

theorem onWorld_eq_ok {α : Type} {x : Call World α} {a : α} (h : Broker.onWorld x b = .ok a b') :
    x b.world = .ok a b'.world := by
  obtain ⟨w, hrun, rfl⟩ := zoom_eq_ok h
  exact hrun

theorem world_onConn {α : Type} {w : World} (x : Call Connection α) :
    Keeps (fun b : Broker => b.world = w) (Broker.onConn x) := by
  intro b hb
  unfold Broker.onConn zoom
  cases x b.conn <;> exact hb

theorem world_doConnect {w : World} (timeout sec : Nat) :
    Keeps (fun b : Broker => b.world = w) (doConnect peer timeout sec) := by
  induction timeout generalizing sec with
  | zero => exact Keeps.pure _
  | succ timeout ih =>
    refine (world_onConn _).bind fun connected => ?_
    split
    · exact (world_onConn _).bind fun _ => Keeps.pure _
    · exact ih (sec + 1)

theorem world_receiveSingle {w : World} (expectedType : StdString) :
    Keeps (fun b : Broker => b.world = w) (receiveSingle J expectedType) := by
  refine (world_onConn _).bind fun bundle => ?_
  cases bundle with
  | none => exact Keeps.pure _
  | some bundle =>
    simp only
    split
    · exact fun _ hb => hb
    · exact Keeps.pure _
    · exact Keeps.pure _

theorem world_sendBundle {w : World} (res : OngoingSerialization) :
    Keeps (fun b : Broker => b.world = w) (sendBundle J res) :=
  (Keeps.eval _).bind fun _ => world_onConn _

theorem world_doWhoAreYou {w : World} :
    Keeps (fun b : Broker => b.world = w) (doWhoAreYou J) := by
  refine (world_receiveSingle _).bind fun conglom => ?_
  cases conglom with
  | none => exact Keeps.pure _
  | some conglom =>
    refine (Keeps.eval _).bind fun props => (Keeps.raiseIf _ _).bind fun _ =>
      (Keeps.eval _).bind fun present => ?_
    split
    · exact Keeps.pure _
    · exact (Keeps.eval _).bind fun _ => (Keeps.eval _).bind fun _ => (Keeps.eval _).bind fun _ =>
        world_sendBundle _

theorem world_doREADY {w : World} : Keeps (fun b : Broker => b.world = w) (doREADY J) :=
  (world_receiveSingle _).bind fun _ => Keeps.pure _

/-- The ids that `doAGENTS_INFO` reads are never none at all, and each gets an agent. -/
theorem doAGENTS_INFO_eq_ok (h : doAGENTS_INFO J m_application b = .ok true b') :
    ∃ ids, ids ≠ [] ∧
      forEach (registerAgent m_application) ids b.world = .ok () b'.world := by
  obtain ⟨conglom, b₁, hreceive, h⟩ := bind_eq_ok h
  have hworld : b₁.world = b.world := (world_receiveSingle _).ok rfl hreceive
  cases conglom with
  | none => cases h
  | some conglom =>
    simp only [eval_bind_eq_ok, raiseIf_bind_eq_ok] at h
    obtain ⟨props, -, -, aInfo, -, h⟩ := h
    split at h
    · cases h
    · rename_i hids
      obtain ⟨_, b₂, hrun, h⟩ := bind_eq_ok h
      cases h
      exact ⟨aInfo.addAgentIds, by simpa using hids, hworld ▸ onWorld_eq_ok hrun⟩

theorem doInitialization_eq_ok {r : Bool} (h : doInitialization W b = .ok r b') :
    initAgents W b.world = .ok () b'.world := by
  obtain ⟨_, b₁, hrun, h⟩ := bind_eq_ok h
  cases h
  exact onWorld_eq_ok hrun

/-- The roles are assigned in the registration, not in the broker. -/
theorem doRoleAssignment_eq_ok {r r' : WFD_Registration} {x : Bool}
    (h : WFD_Registration.doRoleAssignment r = .ok x r') : r'.broker = r.broker := by
  simp only [WFD_Registration.doRoleAssignment, get_bind_apply, eval_bind_eq_ok] at h
  obtain ⟨GO, -, members, -, h⟩ := h
  cases h
  rfl

theorem wfd_doInitialization_eq_ok
    (h : WFD_Registration.onNew (WFD_Registration.doInitialization W J) b = .ok true b') :
    ∃ w, initAgents W b.world = .ok () w ∧ WFD_Agent.configAll W w = .ok () b'.world := by
  obtain ⟨registration, hrun, rfl⟩ := zoom_eq_ok h
  obtain ⟨r₁, hassign, hrun⟩ := bind_guard hrun
  obtain ⟨r₂, hinit, hrun⟩ := bind_guard hrun
  obtain ⟨b₂, hinit', rfl⟩ := zoom_eq_ok hinit
  rw [get_bind_apply, eval_bind_eq_ok] at hrun
  obtain ⟨res, -, hrun⟩ := hrun
  obtain ⟨r₃, hsend, hrun⟩ := bind_guard hrun
  obtain ⟨b₃, hsend', rfl⟩ := zoom_eq_ok hsend
  have hworld : b₃.world = b₂.world := (world_sendBundle res).ok rfl hsend'
  obtain ⟨_, r₄, hconfig, hrun⟩ := bind_eq_ok hrun
  obtain ⟨b₄, hconfig', rfl⟩ := zoom_eq_ok hconfig
  cases hrun
  rw [doRoleAssignment_eq_ok hassign] at hinit'
  exact ⟨b₂.world, doInitialization_eq_ok hinit', hworld ▸ onWorld_eq_ok hconfig'⟩

/-- What `start` has done to the agents between connecting and its end. -/
theorem start_eq_ok {doInitialization : Call Broker Bool}
    (h : start J peer m_application doInitialization b = .ok true b') :
    ∃ ids b₁ b₂, ids ≠ [] ∧
      forEach (registerAgent m_application) ids b.world = .ok () b₁.world ∧
      doInitialization b₁ = .ok true b₂ ∧ b'.world = b₂.world := by
  obtain ⟨c₁, hconnect, h⟩ := bind_guard h
  obtain ⟨c₂, hwho, h⟩ := bind_guard h
  obtain ⟨c₃, hagents, h⟩ := bind_guard h
  obtain ⟨c₄, hinit, h⟩ := bind_guard h
  obtain ⟨c₅, hready, h⟩ := bind_guard h
  cases h
  have h₁ : c₁.world = b.world := (world_doConnect 200 0).ok rfl hconnect
  have h₂ : c₂.world = c₁.world := world_doWhoAreYou.ok rfl hwho
  have h₅ : b'.world = c₄.world := world_doREADY.ok rfl hready
  obtain ⟨ids, hids, hrun⟩ := doAGENTS_INFO_eq_ok hagents
  rw [h₂, h₁] at hrun
  exact ⟨ids, c₃, c₄, hids, hrun, hinit, h₅⟩

end Start

/-! ## Making the agents -/

/-- The fields of the application's class. -/
def Creates (m_application : StdString) (wfd : Option WFD_Fields) : Prop :=
  (m_application = str "Default" ∧ wfd = none) ∨ (m_application = str "stk" ∧ wfd = some {})

/-- Every entry has an agent, and the agent satisfies `P`. -/
def Holds (P : Agent → Prop) (w : World) : Prop :=
  ∀ (agId : StdString) x, w.AllAgents[agId]? = some x → ∃ agent, x = some agent ∧ P agent

section Register

variable {m_application : StdString} {wfd : Option WFD_Fields}

theorem registerAgent_ok (h : Creates m_application wfd) (agId : StdString) (w : World) :
    registerAgent m_application agId w = .ok () { w with
      agents := w.agents + 1
      AllAgents := w.AllAgents.insertIfNew agId
        (some { self := w.agents, m_AgentId := agId, wfd := wfd }) } := by
  rcases h with ⟨rfl, rfl⟩ | ⟨rfl, rfl⟩
  · rw [registerAgent, if_pos rfl]
    rfl
  · rw [registerAgent, if_neg (by decide), if_pos rfl]
    rfl

/-- What the loop over the ids of `doAGENTS_INFO` does to the registry. -/
structure Registered (wfd : Option WFD_Fields) (w : World) (ids : List StdString) (w' : World) :
    Prop where
  entry : ∀ agId, w'.AllAgents[agId]? = w.AllAgents[agId]? ∨
    agId ∈ ids ∧ ∃ self, w'.AllAgents[agId]? =
      some (some { self := self, m_AgentId := agId, wfd := wfd })
  kept : ∀ agId ∈ w.AllAgents, agId ∈ w'.AllAgents
  entered : ∀ agId ∈ ids, agId ∈ w'.AllAgents
  callbacks : w'.callbacks = w.callbacks

/-- The loop enters agents of the class, and every id is entered. -/
theorem registerAgents_ok (h : Creates m_application wfd) (ids : List StdString) (w : World) :
    ∃ w', forEach (registerAgent m_application) ids w = .ok () w' ∧ Registered wfd w ids w' := by
  induction ids generalizing w with
  | nil =>
    exact ⟨w, rfl,
      { entry := fun _ => .inl rfl
        kept := fun _ hmem => hmem
        entered := by simp
        callbacks := rfl }⟩
  | cons agId ids ih =>
    obtain ⟨w', hrest, hreg⟩ := ih { w with
      agents := w.agents + 1
      AllAgents := w.AllAgents.insertIfNew agId
        (some { self := w.agents, m_AgentId := agId, wfd := wfd }) }
    refine ⟨w', (bind_ok (registerAgent_ok h agId w) _).trans hrest, ?_, ?_, ?_, hreg.callbacks⟩
    · intro id
      rcases hreg.entry id with hsame | ⟨hmem, hnew⟩
      · simp only [Std.TreeMap.getElem?_insertIfNew] at hsame
        split at hsame
        · rename_i hid
          obtain rfl := Std.LawfulEqCmp.compare_eq_iff_eq.mp hid.1
          exact .inr ⟨List.mem_cons_self, _, hsame⟩
        · exact .inl hsame
      · exact .inr ⟨List.mem_cons_of_mem agId hmem, hnew⟩
    · exact fun id hmem => hreg.kept id (Std.TreeMap.mem_insertIfNew.mpr (.inr hmem))
    · refine List.forall_mem_cons.mpr ⟨hreg.kept agId ?_, hreg.entered⟩
      exact Std.TreeMap.mem_insertIfNew.mpr (.inl Std.ReflCmp.compare_self)

theorem registerAgents_holds {P : Agent → Prop} (h : Creates m_application wfd)
    (hP : ∀ self agId, P { self := self, m_AgentId := agId, wfd := wfd }) {ids : List StdString}
    {w w' : World} {u : Unit} (hw : Holds P w)
    (hrun : forEach (registerAgent m_application) ids w = .ok u w') :
    Holds P w' ∧ ∀ agId ∈ ids, agId ∈ w'.AllAgents := by
  obtain ⟨_, hrun', hreg⟩ := registerAgents_ok h ids w
  rw [hrun] at hrun'
  cases hrun'
  refine ⟨fun agId x hx => ?_, hreg.entered⟩
  rcases hreg.entry agId with hsame | ⟨-, self, hnew⟩
  · exact hw agId x (hsame ▸ hx)
  · rw [hnew] at hx
    cases hx
    exact ⟨_, rfl, hP self agId⟩

end Register

/-! ## Initialising them -/

/-- What the loop that calls `init` does to plain agents. -/
structure Initialized (W : Ns3) (w : World) (ids : List StdString) (w' : World) : Prop where
  mobility : ∀ node ∈ w.mobility, node ∈ w'.mobility
  agents : ∀ agId ∈ ids, ∃ agent agent', w.AllAgents[agId]? = some (some agent) ∧
    w'.AllAgents[agId]? = some (some agent') ∧ agent'.Usable w' ∧
    ∃ v v', agent.init W none v = .ok agent' v' ∧ agent.SetUp v agent' v'
  others : ∀ agId, agId ∉ ids → w'.AllAgents[agId]? = w.AllAgents[agId]?
  callbacks : ∃ made, w'.callbacks = w.callbacks ++ made ∧
    List.Forall₂ (fun agId callback => ∃ agent, w'.AllAgents[agId]? = some (some agent) ∧
      callback.receiver = agent.self ∧ callback.id = agent.m_AgentId) ids made

theorem initAgent_plain {W : Ns3} (hW : W.Documented) {agId : StdString} {w : World}
    {agent : Agent} (hslot : w.AllAgents[agId]? = some (some agent)) (hwfd : agent.wfd = none) :
    ∃ agent' v w', initAgent W agId w = .ok () w' ∧ agent.init W none w = .ok agent' v ∧
      agent.SetUp w agent' v ∧
      w' = { v with AllAgents := v.AllAgents.insert agId (some agent') } := by
  obtain ⟨agent', v, hinit, hset⟩ := Agent.init_setUp hW w agent
  refine ⟨agent', v, _, ?_, hinit, hset, rfl⟩
  have hvirtual : agent.virtualInit W none w = .ok agent' v := by
    rw [Agent.virtualInit, hwfd]
    exact hinit
  rw [initAgent, get_bind_apply, hslot]
  exact (bind_ok hvirtual _).trans rfl

/-- Plain agents are all initialised, each once. -/
theorem initAgents_plain {W : Ns3} (hW : W.Documented) {ids : List StdString}
    (hnodup : ids.Nodup) {w : World}
    (h : ∀ agId ∈ ids, ∃ agent, w.AllAgents[agId]? = some (some agent) ∧ agent.wfd = none) :
    ∃ w', forEach (initAgent W) ids w = .ok () w' ∧ Initialized W w ids w' := by
  induction ids generalizing w with
  | nil =>
    exact ⟨w, rfl,
      { mobility := fun _ hmem => hmem
        agents := by simp
        others := fun _ _ => rfl
        callbacks := ⟨[], by simp, .nil⟩ }⟩
  | cons agId ids ih =>
    obtain ⟨hnot, hnodup'⟩ := List.nodup_cons.mp hnodup
    obtain ⟨⟨agent, hslot, hwfd⟩, hids⟩ := List.forall_mem_cons.mp h
    obtain ⟨agent', v, w₁, hinit, hcall, hset, rfl⟩ := initAgent_plain hW hslot hwfd
    -- the ids that are left have the agents they had
    have hother : ∀ id, id ≠ agId →
        (v.AllAgents.insert agId (some agent'))[id]? = w.AllAgents[id]? := by
      intro id hid
      rw [Std.TreeMap.getElem?_insert, if_neg (by simpa using Ne.symm hid), hset.frame.agents]
    have hne : ∀ id ∈ ids, id ≠ agId := fun id hmem heq => hnot (heq ▸ hmem)
    have hplain : ∀ id ∈ ids, ∃ agent : Agent,
        (v.AllAgents.insert agId (some agent'))[id]? = some (some agent) ∧ agent.wfd = none := by
      intro id hmem
      rw [hother id (hne id hmem)]
      exact hids id hmem
    obtain ⟨w', hrest, hdone⟩ := ih hnodup'
      (w := { v with AllAgents := v.AllAgents.insert agId (some agent') }) hplain
    have hself : w'.AllAgents[agId]? = some (some agent') := by
      rw [hdone.others agId hnot]
      exact Std.TreeMap.getElem?_insert_self
    obtain ⟨made, hmade, hall⟩ := hdone.callbacks
    refine ⟨w', (bind_ok hinit _).trans hrest, ?_, ?_, ?_, ?_⟩
    · exact fun node hnode => hdone.mobility node (hset.frame.mobility node hnode)
    · refine List.forall_mem_cons.mpr ⟨⟨agent, agent', hslot, hself, ?_, w, v, hcall, hset⟩, ?_⟩
      · exact hset.usable.mono hdone.mobility
      · intro id hmem
        obtain ⟨before, after, hbefore, hafter⟩ := hdone.agents id hmem
        exact ⟨before, after, (hother id (hne id hmem)).symm.trans hbefore, hafter⟩
    · intro id hid
      obtain ⟨hneq, hnotin⟩ := not_or.mp (mt List.mem_cons.mpr hid)
      exact (hdone.others id hnotin).trans (hother id hneq)
    · refine ⟨{ socket := w.sockets, receiver := agent.self, id := agent.m_AgentId
                address := agent'.iic.head? } :: made, ?_,
        .cons ⟨agent', hself, hset.self.symm, hset.id.symm⟩ hall⟩
      rw [hmade]
      simp only [hset.callbacks, List.append_assoc, List.singleton_append]

/-- A WiFi-Direct agent: its base class has no node. -/
def Unset (agent : Agent) : Prop := agent.wfd.isSome = true ∧ agent.m_node = none

theorem figureOutGroup_eq_ok {agent : Agent} {wfd wfd' : WFD_Fields} {w w' : World}
    (h : WFD_Agent.figureOutGroup agent wfd w = .ok wfd' w') : w' = w := by
  simp only [WFD_Agent.figureOutGroup, get_bind_apply, eval_bind_eq_ok] at h
  obtain ⟨first, -, h⟩ := h
  cases h
  rfl

/-- `WFD_Agent::init` sets no field of the base class. -/
theorem wfd_init_eq_ok {agent agent' : Agent} {wfd : WFD_Fields} {w w' : World}
    (h : WFD_Agent.init none agent wfd w = .ok agent' w') :
    (∃ wfd', agent' = { agent with wfd := some wfd' }) ∧ w'.AllAgents = w.AllAgents := by
  simp only [WFD_Agent.init, createNode, bind_assoc, get_bind_apply, set_bind_apply,
    pure_bind_apply] at h
  obtain ⟨wfd', w₁, hgroup, h⟩ := bind_eq_ok h
  obtain rfl := figureOutGroup_eq_ok hgroup
  rw [get_bind_apply] at h
  obtain ⟨m_wfd_node, role, groupId⟩ := wfd'
  cases role with
  | none =>
    cases h
    exact ⟨⟨_, rfl⟩, rfl⟩
  | some role =>
    cases role with
    | WFD_GO =>
      cases h
      exact ⟨⟨_, rfl⟩, rfl⟩
    | WFD_CLIENT =>
      cases h
      exact ⟨⟨_, rfl⟩, rfl⟩

theorem initAgent_unset {W : Ns3} {agId : StdString} {w w' : World} {u : Unit}
    (hw : Holds Unset w) (h : initAgent W agId w = .ok u w') :
    Holds Unset w' ∧ ∀ id ∈ w.AllAgents, id ∈ w'.AllAgents := by
  rw [initAgent, get_bind_apply] at h
  cases hslot : w.AllAgents[agId]? with
  | none =>
    rw [hslot] at h
    cases h
  | some x =>
    obtain ⟨agent, rfl, hunset⟩ := hw agId x hslot
    rw [hslot] at h
    obtain ⟨agent', w₁, hinit, h⟩ := bind_eq_ok h
    cases h
    obtain ⟨wfd, hwfd⟩ := Option.isSome_iff_exists.mp hunset.1
    rw [Agent.virtualInit, hwfd] at hinit
    obtain ⟨⟨wfd', rfl⟩, hagents⟩ := wfd_init_eq_ok hinit
    constructor
    · intro id y hy
      simp only [hagents, Std.TreeMap.getElem?_insert] at hy
      split at hy
      · cases hy
        exact ⟨_, rfl, rfl, hunset.2⟩
      · exact hw id y hy
    · intro id hid
      simp only [hagents, Std.TreeMap.mem_insert]
      exact .inr hid

theorem initAgents_unset {W : Ns3} {ids : List StdString} {w w' : World} {u : Unit}
    (hw : Holds Unset w) (h : forEach (initAgent W) ids w = .ok u w') :
    Holds Unset w' ∧ ∀ id ∈ w.AllAgents, id ∈ w'.AllAgents := by
  induction ids generalizing w with
  | nil =>
    cases h
    exact ⟨hw, fun _ hid => hid⟩
  | cons agId ids ih =>
    obtain ⟨_, w₁, hhead, hrest⟩ := bind_eq_ok h
    obtain ⟨hholds, hkeep⟩ := initAgent_unset hw hhead
    obtain ⟨hholds', hkeep'⟩ := ih hholds hrest
    exact ⟨hholds', fun id hid => hkeep' id (hkeep id hid)⟩

/-- `configAll` reads the containers and leaves the agents alone. -/
theorem keeps_configAll (W : Ns3) {agents : Std.TreeMap StdString (Option Agent)} :
    Keeps (fun w : World => w.AllAgents = agents) (WFD_Agent.configAll W) := by
  have hgroup : ∀ groupId, Keeps (fun w : World => w.AllAgents = agents)
      (WFD_Agent.configGroup W groupId) := by
    intro groupId w hw
    rw [WFD_Agent.configGroup, get_bind_apply]
    cases w.wfd_go_nc[groupId]?.getD [] with
    | nil => exact hw
    | cons owner owners => exact hw
  exact Keeps.get.bind fun _ => Keeps.forEach fun groupId _ => hgroup groupId

end Registration

/-! ## Both applications -/

section Applications

variable {W : Ns3} {J : Jsoncpp} {peer : Peer} {application : StdString} {b b' : Broker}

/-- What registration for either application has done to the agents. -/
theorem Broker.start_eq_ok (h : Broker.start W J peer application b = .ok true b') :
    ∃ ids w, ids ≠ [] ∧
      forEach (Registration.registerAgent application) ids b.world = .ok () w ∧
      ((application = str "Default" ∧ Registration.initAgents W w = .ok () b'.world) ∨
        application = str "stk" ∧ ∃ v, Registration.initAgents W w = .ok () v ∧
          WFD_Agent.configAll W v = .ok () b'.world) := by
  rw [Broker.start, modify_bind_apply] at h
  obtain ⟨b₁, hregister, h⟩ := Registration.bind_guard h
  have hworld : b'.world = b₁.world := by
    obtain ⟨b₂, hopen, h⟩ := Registration.bind_guard h
    obtain ⟨_, b₃, hreceive, h⟩ := bind_eq_ok h
    obtain ⟨b₄, hopen', h⟩ := Registration.bind_guard h
    cases h
    have h₂ : b₂.world = b₁.world := (Registration.world_onConn _).ok rfl hopen
    have h₃ : b₃.world = b₂.world := (Registration.world_onConn _).ok rfl hreceive
    have h₄ : b₄.world = b₃.world := (Registration.world_onConn _).ok rfl hopen'
    exact h₄.trans (h₃.trans h₂)
  unfold Broker.register at hregister
  split at hregister
  · rename_i happ
    obtain ⟨ids, c₁, c₂, hids, hrun, hinit, hc⟩ := Registration.start_eq_ok hregister
    exact ⟨ids, c₁.world, hids, happ ▸ hrun, .inl ⟨happ, by
      rw [hworld, hc]
      exact Registration.doInitialization_eq_ok hinit⟩⟩
  · split at hregister
    · rename_i happ
      obtain ⟨ids, c₁, c₂, hids, hrun, hinit, hc⟩ := Registration.start_eq_ok hregister
      obtain ⟨v, hv, hconfig⟩ := Registration.wfd_doInitialization_eq_ok hinit
      rw [← hc, ← hworld] at hconfig
      exact ⟨ids, c₁.world, hids, happ ▸ hrun, .inr ⟨happ, v, hv, hconfig⟩⟩
    · cases hregister

/-- After a registration as `Default` every agent is usable. -/
theorem usable_of_default (hW : W.Documented) (hempty : b.world.AllAgents = {})
    (h : Broker.start W J peer (str "Default") b = .ok true b') : b'.world.Usable := by
  obtain ⟨ids, w, -, hrun, ⟨-, hinit⟩ | ⟨happ, -⟩⟩ := Broker.start_eq_ok h
  · have hstart : Registration.Holds (fun agent => agent.wfd = none) b.world := by
      intro agId x hx
      simp [hempty] at hx
    have hclass : Registration.Creates (str "Default") none := .inl ⟨rfl, rfl⟩
    obtain ⟨hholds, -⟩ := Registration.registerAgents_holds hclass (fun _ _ => rfl) hstart hrun
    rw [Registration.initAgents, get_bind_apply] at hinit
    have hplain : ∀ agId ∈ w.AllAgents.keys, ∃ agent,
        w.AllAgents[agId]? = some (some agent) ∧ agent.wfd = none := by
      intro agId hmem
      rw [Std.TreeMap.mem_keys, Std.TreeMap.mem_iff_isSome_getElem?] at hmem
      obtain ⟨x, hx⟩ := Option.isSome_iff_exists.mp hmem
      obtain ⟨agent, rfl, hwfd⟩ := hholds agId x hx
      exact ⟨agent, hx, hwfd⟩
    obtain ⟨w', hrun', hdone⟩ := Registration.initAgents_plain hW Std.TreeMap.nodup_keys hplain
    rw [hrun'] at hinit
    cases hinit
    intro agId agent hagent
    by_cases hmem : agId ∈ w.AllAgents.keys
    · obtain ⟨-, other, -, hother, husable, -⟩ := hdone.agents agId hmem
      rw [hother] at hagent
      cases hagent
      exact husable
    · rw [hdone.others agId hmem] at hagent
      refine absurd ?_ hmem
      rw [Std.TreeMap.mem_keys, Std.TreeMap.mem_iff_isSome_getElem?, hagent]
      rfl
  · exact absurd happ (by decide)

/-- After a registration as `stk` there is an agent without a node. -/
theorem unset_of_stk (hempty : b.world.AllAgents = {})
    (h : Broker.start W J peer (str "stk") b = .ok true b') :
    ∃ (agId : StdString) (agent : Agent),
      b'.world.AllAgents[agId]? = some (some agent) ∧ agent.m_node = none := by
  obtain ⟨ids, w, hids, hrun, ⟨happ, -⟩ | ⟨-, v, hinit, hconfig⟩⟩ := Broker.start_eq_ok h
  · exact absurd happ (by decide)
  · have hstart : Registration.Holds Registration.Unset b.world := by
      intro agId x hx
      simp [hempty] at hx
    have hclass : Registration.Creates (str "stk") (some {}) := .inr ⟨rfl, rfl⟩
    obtain ⟨hholds, hmem⟩ := Registration.registerAgents_holds hclass (fun _ _ => ⟨rfl, rfl⟩)
      hstart hrun
    rw [Registration.initAgents, get_bind_apply] at hinit
    obtain ⟨hunset, hkeep⟩ := Registration.initAgents_unset hholds hinit
    rw [(Registration.keeps_configAll W).ok rfl hconfig]
    obtain ⟨agId, rest, rfl⟩ := List.exists_cons_of_ne_nil hids
    have hentry := hkeep agId (hmem agId List.mem_cons_self)
    obtain ⟨x, hx⟩ := Option.isSome_iff_exists.mp (Std.TreeMap.mem_iff_isSome_getElem?.mp hentry)
    obtain ⟨agent, rfl, -, hnode⟩ := hunset agId x hx
    exact ⟨agId, agent, hx, hnode⟩

/-- After a registration, in every state that messages lead to, the handlers can use
every agent: exactly when the application is `Default`. -/
theorem agents_operable_iff (hW : W.Documented) (hempty : b.world.AllAgents = {})
    (hstart : Broker.start W J peer application b = .ok true b') (msgs : List Received) :
    Transition.Always (handled W J) b'.world msgs (World.Operable W) ↔
      application = str "Default" := by
  constructor
  · intro halways
    by_contra hne
    have hstk : application = str "stk" := by
      obtain ⟨-, -, -, -, ⟨happ, -⟩ | ⟨happ, -⟩⟩ := Broker.start_eq_ok hstart
      · exact absurd happ hne
      · exact happ
    subst hstk
    obtain ⟨agId, agent, hagent, hnode⟩ := unset_of_stk hempty hstart
    have hoperable := halways [] b'.world List.nil_prefix rfl
    exact (hoperable agId agent hagent).m_node hnode
  · rintro rfl ms w hms hrun
    refine World.Usable.operable W (Transition.invariant (fun s l t hs hl => ?_)
      (usable_of_default hW hempty hstart) hrun)
    obtain ⟨_, ht⟩ := returned_eq_some.mp hl
    exact (usable_handleMessage hW l.messages l.msgNumber).ok hs ht

end Applications

/-- A bundle with this one message, with its header. -/
def framed (message : StdString) : StdString :=
  BundleParser.make_bundle_header_v1
      { messageCount := 1, remLen := UInt32.ofNat (message.length + 3) } ++
    (JsonParser.lengthOctets (UInt32.ofNat message.length) ++ message)

/-- Sim Mobility registers the agents `1` and `2`. -/
def twoAgentsPeer : Peer where
  answers _ := (true, true)
  octets := framed (str "\x7b\"msg_type\":\"id_request\",\"token\":\"t\"\x7d") ++
    (framed (str "\x7b\"add\":[\"1\",\"2\"],\"msg_type\":\"new_agents\"\x7d") ++
      framed (str "\x7b\"msg_type\":\"id_ack\"\x7d"))

theorem agents_operable_iff_two :
    ∃ b', Broker.start Ns3.reference Jsoncpp.reference twoAgentsPeer (str "Default") Broker.make =
        .ok true b' ∧
      Transition.Always (handled Ns3.reference Jsoncpp.reference) b'.world [enterThree.toReceived]
        (World.Operable Ns3.reference) := by
  have hstart : value (Broker.start Ns3.reference Jsoncpp.reference twoAgentsPeer (str "Default")
      Broker.make) = some true := by decide +kernel
  exact ⟨_, eq_ok_of_value hstart, (agents_operable_iff Ns3.reference_documented rfl
    (eq_ok_of_value hstart) _).mpr rfl⟩

/-- After a registration as `stk` an agent has no node, and moving it dereferences a
null pointer. -/
theorem stk_not_operable :
    ∃ b', Broker.start Ns3.reference Jsoncpp.reference twoAgentsPeer (str "stk") Broker.make =
        .ok true b' ∧ ¬ b'.world.Operable Ns3.reference ∧
      ∃ agent, b'.world.AllAgents[str "1"]? = some (some agent) ∧ agent.m_node = none ∧
        ∀ value, agent.SetPosition value b'.world = .error (.undefined .nullPointer) b'.world := by
  have hstart : value (Broker.start Ns3.reference Jsoncpp.reference twoAgentsPeer (str "stk")
      Broker.make) = some true := by decide +kernel
  have hslot : (final (Broker.start Ns3.reference Jsoncpp.reference twoAgentsPeer (str "stk")
      Broker.make)).world.AllAgents[str "1"]?.map (Option.map Agent.m_node) = some (some none) := by
    decide +kernel
  obtain ⟨x, hx, hagent⟩ := Option.map_eq_some_iff.mp hslot
  obtain ⟨agent, rfl, hnode⟩ := Option.map_eq_some_iff.mp hagent
  refine ⟨_, eq_ok_of_value hstart, fun h => (h _ agent hx).m_node hnode, agent, hx, hnode, ?_⟩
  intro value
  rw [Agent.SetPosition, hnode]
  rfl

end Sm4ns3
