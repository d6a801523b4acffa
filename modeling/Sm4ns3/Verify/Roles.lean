import Sm4ns3.Verify.Handshake
import Sm4ns3.Verify.Nodes

/-!
# The WiFi-Direct roles

The owner of the group is found twice: `doRoleAssignment` takes the first entry of the registry,
and in `figureOutGroup` every agent compares its id with that of the first entry. Both are the
least id (`Owner`), as every entry has an agent with the entry's id (`Keyed`), so they agree on
the roles, the group and its members (`RolesAgree`).
-/

namespace Sm4ns3

open Bytes Cpp Call

/-- The role of a registered agent. -/
def World.roleOf (w : World) (agId : StdString) : Option AgentRole :=
  (w.agent agId).bind fun agent => agent.wfd.bind WFD_Fields.role

/-- The object of one group in a `go_client` message. -/
def goGroup (GO : StdString) (members : List StdString) : Json :=
  .object [(str "clients", .array (members.map .string)), (str "go", .string GO)]

/-- The agents of the list are registered under their ids; of these, `GO` alone is the owner of
the one group, for the agents as for the registration, and `members` are its members. -/
structure RolesAgree (addAgentIds : List StdString) (GO : StdString) (members : List StdString)
    (registration : WFD_Registration) : Prop where
  registered : ∀ agId, agId ∈ registration.broker.world.AllAgents ↔ agId ∈ addAgentIds
  keyed : ∀ agId ∈ addAgentIds, ∃ agent,
    registration.broker.world.AllAgents[agId]? = some (some agent) ∧ agent.GetAgentId = agId
  owner : ∀ agId, registration.broker.world.roleOf agId = some .WFD_GO ↔ agId = GO
  clients : ∀ agId ∈ addAgentIds, agId ≠ GO →
    registration.broker.world.roleOf agId = some .WFD_CLIENT
  groups : registration.WFD_Groups_.toList =
    [(GO, { groupId := GO, GO := GO, members := members })]
  message : JsonParser.goClient registration.WFD_Groups_ = .object
    [(str "groups", .array [goGroup GO members]), (str "msg_type", .string (str "go_client"))]
  nodup : members.Nodup
  members : ∀ agId, agId ∈ members ↔ agId ∈ addAgentIds
  membership : ∀ agId, registration.WFD_Membership[agId]? =
    if agId ∈ addAgentIds then some GO else none

/-! ## The message -/

namespace JsonParser

theorem clientGroup_eq {group : WFD_Group} (h : group.members ≠ []) :
    clientGroup group = goGroup group.GO group.members := by
  have habsent : List.lookup (str "clients") [(str "go", Json.string group.GO)] = none := rfl
  exact Json.foldl_appendTo Json.string habsent h

/-- The message about one group. -/
theorem goClient_single {groups : Std.TreeMap StdString WFD_Group} {id : StdString}
    {group : WFD_Group} (h : groups.toList = [(id, group)]) (hmembers : group.members ≠ []) :
    goClient groups = .object
      [(str "groups", .array [goGroup group.GO group.members]),
        (str "msg_type", .string (str "go_client"))] := by
  rw [goClient, h, List.foldl_cons, List.foldl_nil, clientGroup_eq hmembers]
  rfl

end JsonParser

/-! ## The first agent -/

/-- Every entry has a WiFi-Direct agent with the entry's id. -/
def Keyed (w : World) : Prop :=
  ∀ (agId : StdString) x, w.AllAgents[agId]? = some x →
    ∃ agent, x = some agent ∧ agent.GetAgentId = agId ∧ agent.wfd.isSome = true

/-- The least of the registered ids. -/
structure Owner (w : World) (GO : StdString) : Prop where
  mem : GO ∈ w.AllAgents
  least : ∀ agId ∈ w.AllAgents, compare agId GO ≠ .lt

section First

variable {w : World} {GO : StdString}

theorem Keyed.of_mem_toList (h : Keyed w) {p : StdString × Option Agent}
    (hp : p ∈ w.AllAgents.toList) : ∃ agent, p.2 = some agent ∧ agent.GetAgentId = p.1 := by
  obtain ⟨agent, hagent, hid, -⟩ :=
    h p.1 p.2 (Std.TreeMap.mem_toList_iff_getElem?_eq_some.mp hp)
  exact ⟨agent, hagent, hid⟩

/-- The first key is the least. -/
theorem owner_of_toList {x : Option Agent} {rest : List (StdString × Option Agent)}
    (h : w.AllAgents.toList = (GO, x) :: rest) : Owner w GO := by
  have hmem : ∀ agId ∈ w.AllAgents, ∃ y, (agId, y) ∈ (GO, x) :: rest := by
    intro agId hagId
    rw [Std.TreeMap.mem_iff_isSome_getElem?] at hagId
    obtain ⟨y, hy⟩ := Option.isSome_iff_exists.mp hagId
    rw [← h]
    exact ⟨y, Std.TreeMap.mem_toList_iff_getElem?_eq_some.mpr hy⟩
  have hordered : ((GO, x) :: rest).Pairwise fun p q => compare p.1 q.1 = .lt := by
    rw [← h]
    exact Std.TreeMap.ordered_keys_toList
  constructor
  · have hfirst : (GO, x) ∈ w.AllAgents.toList := by
      rw [h]
      exact List.mem_cons_self
    rw [Std.TreeMap.mem_iff_isSome_getElem?,
      Std.TreeMap.mem_toList_iff_getElem?_eq_some.mp hfirst]
    rfl
  · intro agId hagId hlt
    obtain ⟨y, hy⟩ := hmem agId hagId
    rcases List.mem_cons.mp hy with heq | hrest
    · have hself : compare GO GO = .eq := Std.ReflCmp.compare_self
      rw [(Prod.mk.inj heq).1, hself] at hlt
      cases hlt
    · have hgt := Std.OrientedCmp.gt_of_lt ((List.pairwise_cons.mp hordered).1 _ hrest)
      rw [hlt] at hgt
      cases hgt

theorem Owner.unique {agId : StdString} (h : Owner w GO) (h' : Owner w agId) : GO = agId := by
  cases hcompare : compare GO agId with
  | lt => exact absurd hcompare (h'.least GO h.mem)
  | eq => exact Std.LawfulEqCmp.compare_eq_iff_eq.mp hcompare
  | gt => exact absurd (Std.OrientedCmp.lt_of_gt hcompare) (h.least agId h'.mem)

/-- The same ids have the same least. -/
theorem Owner.of_mem {w' : World} (h : Owner w GO)
    (hmem : ∀ agId, agId ∈ w'.AllAgents ↔ agId ∈ w.AllAgents) : Owner w' GO where
  mem := (hmem GO).mpr h.mem
  least agId hagId := h.least agId ((hmem agId).mp hagId)

theorem exists_owner {agId : StdString} (h : agId ∈ w.AllAgents) : ∃ GO, Owner w GO := by
  cases hlist : w.AllAgents.toList with
  | nil =>
    rw [Std.TreeMap.mem_iff_isSome_getElem?] at h
    obtain ⟨x, hx⟩ := Option.isSome_iff_exists.mp h
    have hmem := Std.TreeMap.mem_toList_iff_getElem?_eq_some.mpr hx
    rw [hlist] at hmem
    cases hmem
  | cons p rest => exact ⟨p.1, owner_of_toList hlist⟩

/-- The first entry is that of the least id. -/
theorem Owner.firstAgentId (howner : Owner w GO) (h : Keyed w) :
    WFD_Agent.firstAgentId w = .ok GO := by
  cases hlist : w.AllAgents.toList with
  | nil =>
    have hmem := howner.mem
    rw [← Std.TreeMap.mem_keys, ← Std.TreeMap.map_fst_toList_eq_keys, hlist] at hmem
    cases hmem
  | cons p rest =>
    obtain ⟨agId, x⟩ := p
    obtain ⟨agent, rfl, hid⟩ := h.of_mem_toList (p := (agId, x)) (by
      rw [hlist]
      exact List.mem_cons_self)
    rw [WFD_Agent.firstAgentId, hlist, howner.unique (owner_of_toList hlist)]
    exact congrArg Except.ok hid

end First

/-! ## The registration's roles -/

namespace WFD_Registration

/-- The ids of agents that have the ids of their entries. -/
theorem mapM_agentId {entries : List (StdString × Option Agent)}
    (h : ∀ p ∈ entries, ∃ agent, p.2 = some agent ∧ agent.GetAgentId = p.1) :
    entries.mapM agentId = .ok (entries.map Prod.fst) := by
  induction entries with
  | nil => rfl
  | cons p entries ih =>
    obtain ⟨⟨agent, hagent, hid⟩, hrest⟩ := List.forall_mem_cons.mp h
    obtain ⟨agId, x⟩ := p
    subst hagent
    rw [List.mapM_cons, ih hrest, agentId, hid]
    rfl

theorem membership_getElem? (GO : StdString) (ids : List StdString)
    (m : Std.TreeMap StdString StdString) (agId : StdString) :
    (ids.foldl (fun m agId => m.insert agId GO) m)[agId]? =
      if agId ∈ ids then some GO else m[agId]? := by
  induction ids generalizing m with
  | nil => rw [List.foldl_nil, if_neg List.not_mem_nil]
  | cons id ids ih =>
    rw [List.foldl_cons, ih]
    simp only [Std.TreeMap.getElem?_insert, Std.LawfulEqCmp.compare_eq_iff_eq]
    by_cases hids : agId ∈ ids
    · rw [if_pos hids, if_pos (List.mem_cons_of_mem id hids)]
    · rw [if_neg hids]
      by_cases hid : id = agId
      · rw [if_pos hid, if_pos (by rw [hid]; exact List.mem_cons_self)]
      · rw [if_neg hid, if_neg (by simp [hids, Ne.symm hid])]

/-- A registration with one group. -/
def withGroup (b : Broker) (GO : StdString) (members : List StdString) : WFD_Registration where
  broker := b
  WFD_Membership := members.foldl (fun m agId => m.insert agId GO) {}
  WFD_Groups_ := Std.TreeMap.empty.insert GO { groupId := GO, GO := GO, members := members }

theorem withGroup_groups (b : Broker) (GO : StdString) (members : List StdString) :
    (withGroup b GO members).WFD_Groups_.toList =
      [(GO, { groupId := GO, GO := GO, members := members })] := rfl

/-- The registration after the roles are assigned. -/
theorem doRoleAssignment_ok {b : Broker} {GO : StdString} (hkeyed : Keyed b.world)
    (howner : Owner b.world GO) :
    doRoleAssignment { broker := b } = .ok true (withGroup b GO b.world.AllAgents.keys) := by
  rw [doRoleAssignment, get_bind_apply]
  simp only [howner.firstAgentId hkeyed, mapM_agentId fun p hp => hkeyed.of_mem_toList hp,
    Std.TreeMap.map_fst_toList_eq_keys, eval_ok, pure_bind_apply]
  rfl

end WFD_Registration

/-! ## The agents' roles -/

namespace Registration

section Agents

variable {W : Ns3} {w w' : World} {GO : StdString}

/-- The role by the comparison with the least id. -/
def roleBy (GO agId : StdString) : AgentRole := if agId = GO then .WFD_GO else .WFD_CLIENT

theorem figureOutGroup_ok {agent : Agent} {wfd : WFD_Fields} (hkeyed : Keyed w)
    (howner : Owner w GO) : WFD_Agent.figureOutGroup agent wfd w =
      .ok { wfd with groupId := some 0, role := some (roleBy GO agent.GetAgentId) } w := by
  rw [WFD_Agent.figureOutGroup, get_bind_apply, howner.firstAgentId hkeyed]
  rfl

/-- `WFD_Agent::init` sets the role and leaves the registry. -/
theorem wfd_init_ok (agent : Agent) (wfd : WFD_Fields) (hkeyed : Keyed w) (howner : Owner w GO) :
    ∃ wfd' w', WFD_Agent.init none agent wfd w = .ok { agent with wfd := some wfd' } w' ∧
      wfd'.role = some (roleBy GO agent.GetAgentId) ∧ w'.AllAgents = w.AllAgents := by
  have hkeyed' : Keyed { w with nodes := w.nodes + 1 } := hkeyed
  have howner' : Owner { w with nodes := w.nodes + 1 } GO := ⟨howner.mem, howner.least⟩
  simp only [WFD_Agent.init, createNode, bind_assoc, get_bind_apply, set_bind_apply,
    pure_bind_apply, bind_ok (figureOutGroup_ok hkeyed' howner')]
  unfold roleBy
  split
  · exact ⟨_, _, rfl, rfl, rfl⟩
  · exact ⟨_, _, rfl, rfl, rfl⟩

/-- What initialising the agents of these ids does: their roles are set, the registered ids stay. -/
structure RolesSet (GO : StdString) (ids : List StdString) (w w' : World) : Prop where
  keyed : Keyed w'
  mem : ∀ agId, agId ∈ w'.AllAgents ↔ agId ∈ w.AllAgents
  roles : ∀ agId ∈ ids, w'.roleOf agId = some (roleBy GO agId)
  others : ∀ agId, agId ∉ ids → w'.AllAgents[agId]? = w.AllAgents[agId]?

theorem initAgent_roles {agId : StdString} (hkeyed : Keyed w) (howner : Owner w GO)
    (hmem : agId ∈ w.AllAgents) :
    ∃ w', initAgent W agId w = .ok () w' ∧ RolesSet GO [agId] w w' := by
  rw [Std.TreeMap.mem_iff_isSome_getElem?] at hmem
  obtain ⟨x, hx⟩ := Option.isSome_iff_exists.mp hmem
  obtain ⟨agent, rfl, hid, hwfd⟩ := hkeyed agId x hx
  obtain ⟨wfd, hwfd⟩ := Option.isSome_iff_exists.mp hwfd
  obtain ⟨wfd', v, hinit, hrole, hagents⟩ :=
    wfd_init_ok agent wfd hkeyed howner
  have hvirtual : agent.virtualInit W none w = .ok { agent with wfd := some wfd' } v := by
    rw [Agent.virtualInit, hwfd]
    exact hinit
  have hslot : ∀ id : StdString,
      (v.AllAgents.insert agId (some { agent with wfd := some wfd' }))[id]? =
        if id = agId then some (some { agent with wfd := some wfd' }) else w.AllAgents[id]? := by
    intro id
    simp only [hagents, Std.TreeMap.getElem?_insert, Std.LawfulEqCmp.compare_eq_iff_eq]
    by_cases hsame : id = agId
    · rw [if_pos hsame, if_pos hsame.symm]
    · rw [if_neg hsame, if_neg (Ne.symm hsame)]
  refine ⟨{ v with AllAgents := v.AllAgents.insert agId (some { agent with wfd := some wfd' }) },
    ?_, fun id y hy => ?_, fun id => ?_, fun id hid' => ?_, fun id hid' => ?_⟩
  · rw [initAgent, get_bind_apply, hx]
    exact (bind_ok hvirtual _).trans rfl
  · rw [hslot] at hy
    split at hy
    · rename_i heq
      cases hy
      exact ⟨_, rfl, hid.trans heq.symm, rfl⟩
    · exact hkeyed id y hy
  · rw [Std.TreeMap.mem_iff_isSome_getElem?, Std.TreeMap.mem_iff_isSome_getElem?, hslot]
    split
    · rename_i heq
      rw [heq, hx]
      exact ⟨fun _ => rfl, fun _ => rfl⟩
    · rfl
  · obtain rfl := List.mem_singleton.mp hid'
    have hagent : World.agent { v with
        AllAgents := v.AllAgents.insert id (some { agent with wfd := some wfd' }) } id =
        some { agent with wfd := some wfd' } := by
      rw [World.agent_eq_some, hslot, if_pos rfl]
    rw [World.roleOf, hagent, ← hid]
    exact hrole
  · rw [hslot, if_neg (fun heq => hid' (by rw [heq]; exact List.mem_cons_self))]

/-- Each agent gets its role, whatever was initialised before it. -/
theorem initAgents_roles {ids : List StdString} (hkeyed : Keyed w) (howner : Owner w GO)
    (hmem : ∀ agId ∈ ids, agId ∈ w.AllAgents) :
    ∃ w', forEach (initAgent W) ids w = .ok () w' ∧ RolesSet GO ids w w' := by
  induction ids generalizing w with
  | nil =>
    refine ⟨w, rfl, hkeyed, fun _ => Iff.rfl, fun agId hnil => ?_, fun _ _ => rfl⟩
    cases hnil
  | cons agId ids ih =>
    obtain ⟨hhead, htail⟩ := List.forall_mem_cons.mp hmem
    obtain ⟨w₁, hrun, hset⟩ := initAgent_roles (W := W) hkeyed howner hhead
    obtain ⟨w', hrest, hset'⟩ := ih hset.keyed (howner.of_mem hset.mem)
      fun id hid => (hset.mem id).mpr (htail id hid)
    refine ⟨w', (bind_ok hrun _).trans hrest, hset'.keyed,
      fun id => (hset'.mem id).trans (hset.mem id), fun id hid => ?_, fun id hid => ?_⟩
    · by_cases hids : id ∈ ids
      · exact hset'.roles id hids
      · -- no later agent has this id
        have hsame : w'.agent id = w₁.agent id := by
          rw [World.agent, World.agent, hset'.others id hids]
        have hfirst : id ∈ [agId] := by simpa [hids] using hid
        rw [World.roleOf, hsame]
        exact hset.roles id hfirst
    · obtain ⟨hne, hids⟩ := not_or.mp (mt List.mem_cons.mpr hid)
      rw [hset'.others id hids, hset.others id (mt List.mem_singleton.mp hne)]

end Agents

end Registration

/-! ## Both together -/

section Agree

variable {W : Ns3} {J : Jsoncpp} {addAgentIds members : List StdString} {GO : StdString}

/-- Only the registry and what the registration holds matter. -/
theorem RolesAgree.of_same {r r' : WFD_Registration} (h : RolesAgree addAgentIds GO members r)
    (hagents : r'.broker.world.AllAgents = r.broker.world.AllAgents)
    (hgroups : r'.WFD_Groups_ = r.WFD_Groups_)
    (hmembership : r'.WFD_Membership = r.WFD_Membership) :
    RolesAgree addAgentIds GO members r' := by
  have hroles : ∀ agId, r'.broker.world.roleOf agId = r.broker.world.roleOf agId := by
    intro agId
    rw [World.roleOf, World.agent, hagents]
    rfl
  constructor
  · rw [hagents]
    exact h.registered
  · rw [hagents]
    exact h.keyed
  · intro agId
    rw [hroles]
    exact h.owner agId
  · intro agId hmem hne
    rw [hroles]
    exact h.clients agId hmem hne
  · rw [hgroups]
    exact h.groups
  · rw [hgroups]
    exact h.message
  · exact h.nodup
  · exact h.members
  · rw [hmembership]
    exact h.membership

/-- A call on the broker that leaves the registry leaves the roles. -/
theorem keeps_rolesAgree {α : Type} {x : Call Broker α}
    (hx : ∀ agents, Keeps (fun b : Broker => b.world.AllAgents = agents) x) :
    Keeps (RolesAgree addAgentIds GO members) (WFD_Registration.onBroker x) := by
  intro r hr
  have hfinal := hx r.broker.world.AllAgents r.broker rfl
  unfold WFD_Registration.onBroker zoom
  cases hrun : x r.broker with
  | ok a b =>
    rw [hrun] at hfinal
    exact hr.of_same hfinal rfl rfl
  | error e b =>
    rw [hrun] at hfinal
    exact hr.of_same hfinal rfl rfl

/-- Who is the owner, by the agents' own roles. -/
theorem roleOf_eq_go {w w' : World} (howner : Owner w GO)
    (hset : Registration.RolesSet GO w.AllAgents.keys w w') (agId : StdString) :
    w'.roleOf agId = some .WFD_GO ↔ agId = GO := by
  by_cases hmem : agId ∈ w.AllAgents.keys
  · rw [hset.roles agId hmem, Registration.roleBy]
    by_cases hGO : agId = GO
    · rw [if_pos hGO]
      exact ⟨fun _ => hGO, fun _ => rfl⟩
    · rw [if_neg hGO]
      constructor
      · intro hrole
        cases hrole
      · exact fun heq => absurd heq hGO
  · constructor
    · intro hrole
      have hslot := hset.others agId hmem
      rw [Std.TreeMap.mem_keys] at hmem
      rw [World.roleOf, World.agent, hslot, Std.TreeMap.getElem?_eq_none hmem] at hrole
      cases hrole
    · rintro rfl
      exact absurd (Std.TreeMap.mem_keys.mpr howner.mem) hmem

/-- The registration with its roles, and the broker with the agents' roles. -/
theorem rolesAgree_of_set {w : World} {b : Broker}
    (hkeys : ∀ agId, agId ∈ w.AllAgents ↔ agId ∈ addAgentIds) (howner : Owner w GO)
    (hset : Registration.RolesSet GO w.AllAgents.keys w b.world) :
    RolesAgree addAgentIds GO w.AllAgents.keys
      (WFD_Registration.withGroup b GO w.AllAgents.keys) := by
  have hlisted : ∀ agId, agId ∈ w.AllAgents.keys ↔ agId ∈ addAgentIds := by
    intro agId
    rw [Std.TreeMap.mem_keys, hkeys]
  have hne : w.AllAgents.keys ≠ [] :=
    List.ne_nil_of_mem (Std.TreeMap.mem_keys.mpr howner.mem)
  have hgroups := WFD_Registration.withGroup_groups b GO w.AllAgents.keys
  constructor
  · exact fun agId => (hset.mem agId).trans (hkeys agId)
  · intro agId hmem
    rw [← hkeys, ← hset.mem, Std.TreeMap.mem_iff_isSome_getElem?] at hmem
    obtain ⟨x, hx⟩ := Option.isSome_iff_exists.mp hmem
    obtain ⟨agent, rfl, hid, -⟩ := hset.keyed agId x hx
    exact ⟨agent, hx, hid⟩
  · exact roleOf_eq_go howner hset
  · intro agId hmem hGO
    have hrole := hset.roles agId ((hlisted agId).mpr hmem)
    rwa [Registration.roleBy, if_neg hGO] at hrole
  · exact hgroups
  · exact JsonParser.goClient_single hgroups hne
  · exact Std.TreeMap.nodup_keys
  · exact hlisted
  · intro agId
    rw [WFD_Registration.withGroup, WFD_Registration.membership_getElem?,
      Std.TreeMap.getElem?_emptyc]
    simp only [hlisted]

/-- Once the roles are set, the peer is told and the networks are configured. -/
theorem doInitialization_eq {r r₁ : WFD_Registration} {b : Broker}
    (hassign : WFD_Registration.doRoleAssignment r = .ok true r₁)
    (hinit : Registration.doInitialization W r₁.broker = .ok true b) :
    WFD_Registration.doInitialization W J r = (do
      let res ← eval (JsonParser.makeGoClient J NEW_BUNDLES
        (JsonParser.serialize_begin_default {}) r₁.WFD_Groups_)
      if !(← WFD_Registration.onBroker (Registration.sendBundle J res)) then
        return false
      else
        WFD_Registration.onBroker (Broker.onWorld (WFD_Agent.configAll W))
        return true) { r₁ with broker := b } := by
  have hrun : WFD_Registration.onBroker (Registration.doInitialization W) r₁ =
      .ok true { r₁ with broker := b } := zoom_ok hinit
  rw [WFD_Registration.doInitialization, bind_ok hassign]
  simp only [Bool.not_true, Bool.false_eq_true, if_false]
  rw [bind_ok hrun]
  simp only [Bool.not_true, Bool.false_eq_true, if_false]
  rw [get_bind_apply]

/-- The roles are set for agents that were entered into an empty registry. -/
theorem exists_rolesSet {b : Broker} {w : World} (hempty : w.AllAgents = {})
    (hreg : Registration.Registered (some {}) w addAgentIds b.world) (hne : addAgentIds ≠ []) :
    ∃ GO members r₁ w', WFD_Registration.doRoleAssignment { broker := b } = .ok true r₁ ∧
      r₁.broker = b ∧ Registration.doInitialization W b = .ok true { b with world := w' } ∧
      RolesAgree addAgentIds GO members { r₁ with broker := { b with world := w' } } := by
  have hkeys : ∀ agId, agId ∈ b.world.AllAgents ↔ agId ∈ addAgentIds :=
    fun agId => ⟨fun hmem => (hreg.entry_new hempty hmem).1, hreg.entered agId⟩
  have hkeyed : Keyed b.world := by
    intro agId x hx
    have hmem : agId ∈ b.world.AllAgents := by
      rw [Std.TreeMap.mem_iff_isSome_getElem?, hx]
      rfl
    obtain ⟨-, self, hnew⟩ := hreg.entry_new hempty hmem
    rw [hnew] at hx
    cases hx
    exact ⟨_, rfl, rfl, rfl⟩
  obtain ⟨agId, hagId⟩ := List.exists_mem_of_ne_nil _ hne
  obtain ⟨GO, howner⟩ := exists_owner ((hkeys agId).mpr hagId)
  obtain ⟨w', hrun, hset⟩ := Registration.initAgents_roles (W := W) hkeyed howner
    fun agId hmem => Std.TreeMap.mem_keys.mp hmem
  have hworld : Broker.onWorld (Registration.initAgents W) b = .ok () { b with world := w' } := by
    apply zoom_ok
    rw [Registration.initAgents, get_bind_apply]
    exact hrun
  exact ⟨GO, b.world.AllAgents.keys, _, w', WFD_Registration.doRoleAssignment_ok hkeyed howner,
    rfl, (bind_ok hworld _).trans rfl, rolesAgree_of_set hkeys howner hset⟩

/-- The bundle that `makeGoClient` makes for the groups. -/
def Announces (J : Jsoncpp) (groups : Std.TreeMap StdString WFD_Group)
    (bundle : BundleHeader × StdString) : Prop :=
  ∃ res, JsonParser.makeGoClient J NEW_BUNDLES (JsonParser.serialize_begin_default {}) groups =
      .ok res ∧
    JsonParser.serialize_end J NEW_BUNDLES res = .ok (some bundle)

/-- The peer is sent the groups when `doInitialization` returns true. -/
theorem sent_doInitialization {b : Broker} {w w' : World} {r r₁ : WFD_Registration}
    {sent rest : List (BundleHeader × StdString)}
    (hassign : WFD_Registration.doRoleAssignment { broker := b } = .ok true r₁)
    (hbroker : r₁.broker = b) (h : Exchange w sent rest b)
    (hinit : Registration.doInitialization W b = .ok true { b with world := w' })
    (hrun : WFD_Registration.doInitialization W J { broker := b } = .ok true r) :
    ∃ bundle, Announces J r.WFD_Groups_ bundle ∧ r.broker.conn.sent = sent ++ [bundle] := by
  rw [doInitialization_eq hassign (by rw [hbroker]; exact hinit), eval_bind_eq_ok] at hrun
  obtain ⟨res, hmake, hrun⟩ := hrun
  obtain ⟨r₂, hsend, hrun⟩ := Registration.bind_guard hrun
  obtain ⟨b₂, hsend', rfl⟩ := zoom_eq_ok hsend
  obtain ⟨_, r₃, hconfig, hrun⟩ := bind_eq_ok hrun
  obtain ⟨b₃, hconfig', rfl⟩ := zoom_eq_ok hconfig
  obtain ⟨w₃, -, rfl⟩ := zoom_eq_ok hconfig'
  cases hrun
  have hend := JsonParser.serialize_end_new J res
  rw [Registration.sendBundle_eq hend] at hsend'
  have hexchange : Exchange w' sent rest { b with world := w' } := ⟨h.session, h.sent, rfl⟩
  obtain ⟨b₄, hsend'', h₄⟩ := Registration.send_ok hexchange (Registration.sends_of_send hsend')
  rw [hsend'] at hsend''
  cases hsend''
  exact ⟨_, ⟨res, hmake, hend⟩, h₄.sent⟩

/-- A registration as `stk` with an empty registry, of a list of agents that is not empty: however
`doInitialization` ends, the roles agree; when it returns true, the message about the group was
sent. -/
theorem roles_agree {b : Broker} {w : World} {sent rest : List (BundleHeader × StdString)}
    {bundle : BundleHeader × StdString} (hbundle : Session.Framed bundle)
    (h : Exchange w sent (bundle :: rest) b) (hempty : w.AllAgents = {})
    (hnew : NewAgents J bundle addAgentIds) :
    ∃ b', Registration.doAGENTS_INFO J (str "stk") b = .ok true b' ∧
      (∃ GO members, RolesAgree addAgentIds GO members
        (final (WFD_Registration.doInitialization W J { broker := b' }))) ∧
      ∀ r, WFD_Registration.doInitialization W J { broker := b' } = .ok true r →
        ∃ bundle', Announces J r.WFD_Groups_ bundle' ∧ r.broker.conn.sent = sent ++ [bundle'] := by
  obtain ⟨b', w', hrun, hreg, h'⟩ :=
    Registration.doAGENTS_INFO_ok (.inr ⟨rfl, rfl⟩) hbundle h hnew
  rw [← h'.world] at hreg
  obtain ⟨GO, members, r₁, w'', hassign, hbroker, hinit, hagree⟩ :=
    exists_rolesSet (W := W) hempty hreg hnew.1
  refine ⟨b', hrun, ⟨GO, members, ?_⟩,
    fun r hr => sent_doInitialization hassign hbroker h' hinit hr⟩
  rw [doInitialization_eq hassign (by rw [hbroker]; exact hinit)]
  -- what is left is sending, which leaves the world, and configuring, which leaves the agents
  refine Keeps.bind (Keeps.eval _) (fun res => ?_) _ hagree
  refine (keeps_rolesAgree fun agents b hb => ?_).bind fun written => ?_
  · have hworld : (final (Registration.sendBundle J res b)).world = b.world :=
      Registration.world_sendBundle res b rfl
    change (final (Registration.sendBundle J res b)).world.AllAgents = agents
    rw [hworld]
    exact hb
  · split
    · exact Keeps.pure _
    · refine (keeps_rolesAgree fun agents b hb => ?_).bind fun _ => Keeps.pure _
      have hagents : (final (WFD_Agent.configAll W b.world)).AllAgents = agents :=
        Registration.keeps_configAll W b.world hb
      unfold Broker.onWorld zoom
      cases hconfig : WFD_Agent.configAll W b.world with
      | ok u w =>
        rw [hconfig] at hagents
        exact hagents
      | error e w =>
        rw [hconfig] at hagents
        exact hagents

end Agree

/-- The list of the agents `2`, `1` and `2` again. -/
def repeatedAgents : BundleHeader × StdString :=
  Registration.bundled (str "\x7b\"add\":[\"2\",\"1\",\"2\"],\"msg_type\":\"new_agents\"\x7d")

/-- A broker that has not read the list. -/
def repeatedBroker : Broker :=
  { Broker.make with
    conn := { m_session := some { is_open := true, input := Session.frame repeatedAgents } } }

theorem roles_agree_repeated :
    ∃ b', Registration.doAGENTS_INFO Jsoncpp.reference (str "stk") repeatedBroker = .ok true b' ∧
      (∃ GO members, RolesAgree [str "2", str "1", str "2"] GO members
        (final (WFD_Registration.doInitialization Ns3.reference Jsoncpp.reference
          { broker := b' }))) ∧
      ∀ r, WFD_Registration.doInitialization Ns3.reference Jsoncpp.reference { broker := b' } =
          .ok true r →
        ∃ bundle', Announces Jsoncpp.reference r.WFD_Groups_ bundle' ∧
          r.broker.conn.sent = [] ++ [bundle'] := by
  have hframed : Session.Framed repeatedAgents := by
    have hfields : (0 ≤ repeatedAgents.1.sendIdLen ∧ repeatedAgents.1.sendIdLen ≤ 255) ∧
        (0 ≤ repeatedAgents.1.destIdLen ∧ repeatedAgents.1.destIdLen ≤ 255) ∧
        (0 ≤ repeatedAgents.1.messageCount ∧ repeatedAgents.1.messageCount ≤ 255) ∧
        repeatedAgents.1.remLen.toNat = repeatedAgents.2.length ∧
        1 ≤ repeatedAgents.2.length := by decide +kernel
    obtain ⟨hsend, hdest, hcount, hlen, hpos⟩ := hfields
    exact ⟨⟨hsend, hdest, hcount⟩, hlen, hpos⟩
  have hexchange : Exchange Broker.make.world [] [repeatedAgents] repeatedBroker :=
    ⟨⟨_, rfl, rfl, by simp⟩, rfl, rfl⟩
  have hdecoded : value (JsonParser.deserialize Jsoncpp.reference NEW_BUNDLES repeatedAgents.1
      repeatedAgents.2 {}) = some true := by decide +kernel
  have hids : (JsonParser.parseNewAgents Jsoncpp.reference (final (JsonParser.deserialize
      Jsoncpp.reference NEW_BUNDLES repeatedAgents.1 repeatedAgents.2 {})) 0).map
      AgentsInfoMessage.addAgentIds = .ok [str "2", str "1", str "2"] := by decide +kernel
  obtain ⟨aInfo, hparse, hadd⟩ : ∃ aInfo, JsonParser.parseNewAgents Jsoncpp.reference
      (final (JsonParser.deserialize Jsoncpp.reference NEW_BUNDLES repeatedAgents.1
        repeatedAgents.2 {})) 0 = .ok aInfo ∧
      aInfo.addAgentIds = [str "2", str "1", str "2"] := by
    cases hparse : JsonParser.parseNewAgents Jsoncpp.reference (final (JsonParser.deserialize
        Jsoncpp.reference NEW_BUNDLES repeatedAgents.1 repeatedAgents.2 {})) 0 with
    | error e =>
      rw [hparse] at hids
      cases hids
    | ok aInfo =>
      rw [hparse] at hids
      exact ⟨aInfo, rfl, Except.ok.inj hids⟩
  exact roles_agree hframed hexchange rfl ⟨List.cons_ne_nil _ _, _, aInfo,
    ⟨eq_ok_of_value hdecoded, by decide +kernel, by decide +kernel⟩, hparse, hadd⟩

end Sm4ns3
