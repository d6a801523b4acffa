import Sm4ns3.Verify.Formats
import Sm4ns3.Verify.Roles

/-!
# The networks of a WiFi-Direct registration

Initialised in the order of their ids, the owner comes first: its node goes to the
owners' container of group 0 and the nodes of the others, in order, to the clients'
(`initAgents_clients`). `configAll` then finds one group, and gives it devices, the
internet stack, addresses and mobility (`networks_of_init`). With that, `stk_handshake`
says when a registration as `stk` returns true and what it leaves.
-/

namespace Sm4ns3

open Bytes Cpp Call

/-! ## Making the agents -/

namespace Registration

variable {W : Ns3} {w w' : World} {GO : StdString}

/-- Making agents makes no other object. -/
theorem registerAgents_others {m_application : StdString} {wfd : Option WFD_Fields}
    (h : Creates m_application wfd) {ids : List StdString} {u : Unit}
    (hrun : forEach (registerAgent m_application) ids w = .ok u w') :
    ∃ agents entries, w' = { w with agents := agents, AllAgents := entries } := by
  induction ids generalizing w with
  | nil =>
    cases hrun
    exact ⟨w'.agents, w'.AllAgents, rfl⟩
  | cons agId ids ih =>
    obtain ⟨_, w₁, hhead, hrest⟩ := bind_eq_ok hrun
    rw [registerAgent_ok h] at hhead
    cases hhead
    obtain ⟨agents, entries, rfl⟩ := ih hrest
    exact ⟨agents, entries, rfl⟩

/-! ## Joining the group -/

/-- The fields of an initialised agent with this node. -/
def joinedFields (GO agId : StdString) (node : Nat) : WFD_Fields :=
  { m_wfd_node := some node, role := some (roleBy GO agId), groupId := some 0 }

/-- The containers after the agent has joined. -/
def joined (GO agId : StdString) (w : World) : World :=
  if agId = GO then
    { w with
      nodes := w.nodes + 1
      wfd_go_nc := WFD_Agent.addToGroup w.wfd_go_nc 0 w.nodes
      wfd_nc := w.wfd_nc ++ [w.nodes] }
  else
    { w with
      nodes := w.nodes + 1
      wfd_cln_nc := WFD_Agent.addToGroup w.wfd_cln_nc 0 w.nodes
      wfd_nc := w.wfd_nc ++ [w.nodes] }

theorem wfd_init_joined (agent : Agent) (wfd : WFD_Fields) (hkeyed : Keyed w)
    (howner : Owner w GO) :
    WFD_Agent.init none agent wfd w =
      .ok { agent with wfd := some (joinedFields GO agent.GetAgentId w.nodes) }
        (joined GO agent.GetAgentId w) := by
  have hkeyed' : Keyed { w with nodes := w.nodes + 1 } := hkeyed
  have howner' : Owner { w with nodes := w.nodes + 1 } GO := ⟨howner.mem, howner.least⟩
  simp only [WFD_Agent.init, createNode, bind_assoc, get_bind_apply, set_bind_apply,
    pure_bind_apply, bind_ok (figureOutGroup_ok hkeyed' howner'), joinedFields, joined]
  unfold roleBy
  by_cases hGO : agent.GetAgentId = GO
  · rw [if_pos hGO, if_pos hGO]
    rfl
  · rw [if_neg hGO, if_neg hGO]
    rfl

theorem joined_AllAgents (GO agId : StdString) (w : World) :
    (joined GO agId w).AllAgents = w.AllAgents := by
  unfold joined
  split <;> rfl

/-- What initialising one agent does. -/
structure AgentJoined (GO agId : StdString) (w w' : World) : Prop where
  others : ∃ agents, w' = { joined GO agId w with AllAgents := agents }
  keyed : Keyed w'
  mem : ∀ id, id ∈ w'.AllAgents ↔ id ∈ w.AllAgents
  agent : ∃ agent, w'.AllAgents[agId]? = some (some agent) ∧
    agent.wfd = some (joinedFields GO agId w.nodes)
  slots : ∀ id, id ≠ agId → w'.AllAgents[id]? = w.AllAgents[id]?

theorem initAgent_joined {agId : StdString} (hkeyed : Keyed w) (howner : Owner w GO)
    (hmem : agId ∈ w.AllAgents) :
    ∃ w', initAgent W agId w = .ok () w' ∧ AgentJoined GO agId w w' := by
  have hentry := hmem
  rw [Std.TreeMap.mem_iff_isSome_getElem?] at hentry
  obtain ⟨x, hx⟩ := Option.isSome_iff_exists.mp hentry
  obtain ⟨agent, rfl, hid, hwfd⟩ := hkeyed agId x hx
  obtain ⟨wfd, hwfd⟩ := Option.isSome_iff_exists.mp hwfd
  have hinit := wfd_init_joined agent wfd hkeyed howner
  rw [hid] at hinit
  set agent' : Agent := { agent with wfd := some (joinedFields GO agId w.nodes) } with hagent'
  have hvirtual : agent.virtualInit W none w = .ok agent' (joined GO agId w) := by
    rw [Agent.virtualInit, hwfd]
    exact hinit
  have hslot : ∀ id, (w.AllAgents.insert agId (some agent'))[id]? =
      if id = agId then some (some agent') else w.AllAgents[id]? := by
    intro id
    simp only [Std.TreeMap.getElem?_insert, Std.LawfulEqCmp.compare_eq_iff_eq]
    by_cases hsame : id = agId
    · rw [if_pos hsame, if_pos hsame.symm]
    · rw [if_neg hsame, if_neg (Ne.symm hsame)]
  refine ⟨{ joined GO agId w with AllAgents := w.AllAgents.insert agId (some agent') }, ?_,
    ⟨_, rfl⟩, fun id y hy => ?_, fun id => ?_, ⟨agent', by rw [hslot, if_pos rfl], rfl⟩,
    fun id hne => by rw [hslot, if_neg hne]⟩
  · rw [initAgent, get_bind_apply, hx]
    refine (bind_ok hvirtual _).trans ?_
    rw [← joined_AllAgents GO agId w]
    rfl
  · rw [hslot] at hy
    split at hy
    · rename_i heq
      cases hy
      exact ⟨agent', rfl, hid.trans heq.symm, rfl⟩
    · exact hkeyed id y hy
  · simp only [Std.TreeMap.mem_insert, Std.LawfulEqCmp.compare_eq_iff_eq]
    constructor
    · rintro (rfl | hold)
      · exact hmem
      · exact hold
    · exact .inr

/-- What initialising clients only does. -/
structure ClientsJoined (GO : StdString) (w : World) (ids : List StdString) (w' : World) :
    Prop where
  keyed : Keyed w'
  mem : ∀ agId, agId ∈ w'.AllAgents ↔ agId ∈ w.AllAgents
  nodes : w'.nodes = w.nodes + ids.length
  wfd_nc : w'.wfd_nc = w.wfd_nc ++ List.range' w.nodes ids.length
  owners : w'.wfd_go_nc = w.wfd_go_nc
  clients : w'.wfd_cln_nc[0]?.getD [] = w.wfd_cln_nc[0]?.getD [] ++ List.range' w.nodes ids.length
  groups : ∀ group, group ≠ 0 → w'.wfd_cln_nc[group]? = w.wfd_cln_nc[group]?
  agents : ∀ i agId, ids[i]? = some agId → ∃ agent, w'.AllAgents[agId]? = some (some agent) ∧
    agent.wfd = some (joinedFields GO agId (w.nodes + i))
  others : ∀ agId, agId ∉ ids → w'.AllAgents[agId]? = w.AllAgents[agId]?
  devices : w'.wfd_go_ndc = w.wfd_go_ndc ∧ w'.wfd_cln_ndc = w.wfd_cln_ndc
  addresses : w'.wfd_stack = w.wfd_stack ∧ w'.wfd_addresses = w.wfd_addresses
  mobility : w'.mobility = w.mobility
  sockets : w'.sockets = w.sockets ∧ w'.callbacks = w.callbacks

theorem addToGroup_self (containers : Std.TreeMap Nat (List Nat)) (node : Nat) :
    (WFD_Agent.addToGroup containers 0 node)[0]?.getD [] = containers[0]?.getD [] ++ [node] := by
  rw [WFD_Agent.addToGroup, Std.TreeMap.getElem?_insert_self]
  rfl

theorem addToGroup_other (containers : Std.TreeMap Nat (List Nat)) (node : Nat) {group : Nat}
    (hgroup : group ≠ 0) :
    (WFD_Agent.addToGroup containers 0 node)[group]? = containers[group]? := by
  have hne : ¬ compare 0 group = .eq := by simpa using Ne.symm hgroup
  rw [WFD_Agent.addToGroup, Std.TreeMap.getElem?_insert, if_neg hne]

theorem initAgents_clients {ids : List StdString} (hnodup : ids.Nodup) (hkeyed : Keyed w)
    (howner : Owner w GO) (hids : ∀ agId ∈ ids, agId ∈ w.AllAgents ∧ agId ≠ GO) :
    ∃ w', forEach (initAgent W) ids w = .ok () w' ∧ ClientsJoined GO w ids w' := by
  induction ids generalizing w with
  | nil =>
    exact ⟨w, rfl, hkeyed, fun _ => Iff.rfl, rfl, by simp, rfl, by simp, fun _ _ => rfl, by simp,
      fun _ _ => rfl, ⟨rfl, rfl⟩, ⟨rfl, rfl⟩, rfl, ⟨rfl, rfl⟩⟩
  | cons agId ids ih =>
    obtain ⟨⟨hmem, hne⟩, htail⟩ := List.forall_mem_cons.mp hids
    obtain ⟨hnot, hnodup'⟩ := List.nodup_cons.mp hnodup
    obtain ⟨w₁, hinit, hjoined⟩ := initAgent_joined (W := W) hkeyed howner hmem
    obtain ⟨entries, hw₁⟩ := hjoined.others
    rw [joined, if_neg hne] at hw₁
    obtain ⟨w', hrest, h⟩ := ih hnodup' hjoined.keyed (howner.of_mem hjoined.mem)
      fun id hmem' => ⟨(hjoined.mem id).mpr (htail id hmem').1, (htail id hmem').2⟩
    have hnodes : w₁.nodes = w.nodes + 1 := by rw [hw₁]
    refine ⟨w', (bind_ok hinit _).trans hrest, h.keyed, fun id => (h.mem id).trans (hjoined.mem id),
      ?_, ?_, ?_, ?_, fun group hgroup => ?_, ?_, fun id hnotin => ?_, ?_, ?_, ?_, ?_⟩
    · rw [h.nodes, hnodes, List.length_cons]
      omega
    · rw [h.wfd_nc, hnodes, hw₁]
      simp [List.range'_succ]
    · rw [h.owners, hw₁]
    · rw [h.clients, hnodes, hw₁, addToGroup_self, List.append_assoc]
      rfl
    · rw [h.groups group hgroup, hw₁, addToGroup_other _ _ hgroup]
    · intro i id hi
      cases i with
      | zero =>
        obtain rfl : agId = id := Option.some.inj hi
        obtain ⟨agent, hagent, hfields⟩ := hjoined.agent
        exact ⟨agent, by rw [h.others agId hnot, hagent], hfields⟩
      | succ i =>
        obtain ⟨other, hother, hfields⟩ := h.agents i id hi
        refine ⟨other, hother, hfields.trans ?_⟩
        rw [hnodes, show w.nodes + 1 + i = w.nodes + (i + 1) by omega]
    · obtain ⟨hne', hids'⟩ := not_or.mp (mt List.mem_cons.mpr hnotin)
      rw [h.others id hids', hjoined.slots id hne']
    · rw [h.devices.1, h.devices.2, hw₁]
      exact ⟨rfl, rfl⟩
    · rw [h.addresses.1, h.addresses.2, hw₁]
      exact ⟨rfl, rfl⟩
    · rw [h.mobility, hw₁]
    · rw [h.sockets.1, h.sockets.2, hw₁]
      exact ⟨rfl, rfl⟩

/-! ## The group's networks -/

/-- The group of `GO` and `clients`, the node of the owner first: the containers of nodes and
devices have the one group, its nodes have the internet stack and were placed, and its devices
were assigned addresses, the owner's first. No agent has got a socket. -/
structure Networks (W : Ns3) (w : World) (GO : StdString) (clients : List StdString)
    (w' : World) : Prop where
  keys : w'.AllAgents.keys = GO :: clients
  nodes : w'.nodes = w.nodes + (clients.length + 1)
  agents : ∀ i agId, (GO :: clients)[i]? = some agId → ∃ agent,
    w'.AllAgents[agId]? = some (some agent) ∧ agent.wfd = some (joinedFields GO agId (w.nodes + i))
  owner : ∀ group, w'.wfd_go_nc[group]? = if group = 0 then some [w.nodes] else none
  client : ∀ group, w'.wfd_cln_nc[group]? =
    if group = 0 then some (List.range' (w.nodes + 1) clients.length) else none
  ownerDevices : ∀ group, w'.wfd_go_ndc[group]? =
    if group = 0 then some (W.Install [w.nodes]) else none
  clientDevices : ∀ group, w'.wfd_cln_ndc[group]? =
    if group = 0 then some (W.Install (List.range' (w.nodes + 1) clients.length)) else none
  stack : w'.wfd_stack = w.wfd_stack ++ List.range' w.nodes (clients.length + 1)
  addresses : ∀ group, w'.wfd_addresses[group]? =
    if group = 0 then
      some (W.Assign (W.Install [w.nodes] ++
        W.Install (List.range' (w.nodes + 1) clients.length)))
    else w.wfd_addresses[group]?
  mobility : ∀ node, w'.mobility[node]? =
    if w.nodes ≤ node ∧ node < w'.nodes then some (W.initialPosition node) else w.mobility[node]?
  sockets : w'.sockets = w.sockets ∧ w'.callbacks = w.callbacks

/-- No group yet. -/
structure NoGroups (w : World) : Prop where
  wfd_go_nc : w.wfd_go_nc = {}
  wfd_cln_nc : w.wfd_cln_nc = {}
  wfd_go_ndc : w.wfd_go_ndc = {}
  wfd_cln_ndc : w.wfd_cln_ndc = {}

/-- Ids in ascending order are known from the set of them. -/
theorem ascending_unique {ids ids' : List StdString}
    (h : ids.Pairwise fun a b => compare a b = .lt)
    (h' : ids'.Pairwise fun a b => compare a b = .lt)
    (hmem : ∀ agId, agId ∈ ids ↔ agId ∈ ids') : ids = ids' := by
  have hnodup : ∀ {l : List StdString}, (l.Pairwise fun a b => compare a b = .lt) → l.Nodup := by
    intro l hl
    refine hl.imp fun {a b} hlt heq => ?_
    have hself : compare b b = .eq := Std.ReflCmp.compare_self
    rw [heq, hself] at hlt
    cases hlt
  have hperm : ids.Perm ids' :=
    (List.perm_ext_iff_of_nodup (hnodup h) (hnodup h')).mpr hmem
  refine hperm.eq_of_pairwise (fun a b _ _ hab hba => ?_) h h'
  have hgt := Std.OrientedCmp.gt_of_lt hba
  rw [hab] at hgt
  cases hgt

theorem insertAll_getElem? (f : Nat → Vector) (nodes : List Nat) (m : Std.TreeMap Nat Vector)
    (node : Nat) : (nodes.foldl (fun m node => m.insert node (f node)) m)[node]? =
      if node ∈ nodes then some (f node) else m[node]? := by
  induction nodes generalizing m with
  | nil => rw [List.foldl_nil, if_neg List.not_mem_nil]
  | cons first nodes ih =>
    rw [List.foldl_cons, ih]
    simp only [Std.TreeMap.getElem?_insert, Std.LawfulEqCmp.compare_eq_iff_eq]
    by_cases hnodes : node ∈ nodes
    · rw [if_pos hnodes, if_pos (List.mem_cons_of_mem first hnodes)]
    · rw [if_neg hnodes]
      by_cases hfirst : first = node
      · rw [if_pos hfirst, if_pos (by rw [hfirst]; exact List.mem_cons_self), hfirst]
      · rw [if_neg hfirst, if_neg (by simp [hnodes, Ne.symm hfirst])]

/-- The first key is the owner. -/
theorem owner_of_keys {clients : List StdString} (h : w.AllAgents.keys = GO :: clients) :
    Owner w GO := by
  rw [← Std.TreeMap.map_fst_toList_eq_keys] at h
  cases hlist : w.AllAgents.toList with
  | nil =>
    rw [hlist] at h
    cases h
  | cons p rest =>
    rw [hlist] at h
    obtain rfl : p.1 = GO := (List.cons.inj h).1
    exact owner_of_toList (x := p.2) hlist

/-- What the agents' joining leaves: the owner's node comes first. -/
structure GroupFormed (GO : StdString) (clients : List StdString) (w w' : World) : Prop where
  mem : ∀ agId, agId ∈ w'.AllAgents ↔ agId ∈ w.AllAgents
  nodes : w'.nodes = w.nodes + (clients.length + 1)
  agents : ∀ i agId, (GO :: clients)[i]? = some agId → ∃ agent,
    w'.AllAgents[agId]? = some (some agent) ∧ agent.wfd = some (joinedFields GO agId (w.nodes + i))
  owners : w'.wfd_go_nc = (Std.TreeMap.empty : Std.TreeMap Nat (List Nat)).insert 0 [w.nodes]
  clients : w'.wfd_cln_nc[0]?.getD [] = List.range' (w.nodes + 1) clients.length
  groups : ∀ group, group ≠ 0 → w'.wfd_cln_nc[group]? = none
  devices : w'.wfd_go_ndc = {} ∧ w'.wfd_cln_ndc = {}
  addresses : w'.wfd_stack = w.wfd_stack ∧ w'.wfd_addresses = w.wfd_addresses
  mobility : w'.mobility = w.mobility
  sockets : w'.sockets = w.sockets ∧ w'.callbacks = w.callbacks

/-- The owner joins and the clients after it. -/
theorem groupFormed_of_joined {clients : List StdString} {w₀ w₁ : World} (hnone : NoGroups w)
    (hnot : GO ∉ clients) (howner : AgentJoined GO GO w w₀) (h : ClientsJoined GO w₀ clients w₁) :
    GroupFormed GO clients w w₁ := by
  obtain ⟨entries, hw₀⟩ := howner.others
  rw [joined, if_pos rfl] at hw₀
  have hnodes : w₀.nodes = w.nodes + 1 := by rw [hw₀]
  refine ⟨fun id => (h.mem id).trans (howner.mem id), ?_, ?_, ?_, ?_, fun group hne => ?_, ?_, ?_,
    ?_, ?_⟩
  · rw [h.nodes, hnodes]
    omega
  · intro i agId hi
    cases i with
    | zero =>
      obtain rfl : GO = agId := Option.some.inj hi
      obtain ⟨agent, hagent, hfields⟩ := howner.agent
      exact ⟨agent, (h.others GO hnot).trans hagent, hfields⟩
    | succ i =>
      obtain ⟨agent, hagent, hfields⟩ := h.agents i agId hi
      refine ⟨agent, hagent, hfields.trans ?_⟩
      rw [hnodes, show w.nodes + 1 + i = w.nodes + (i + 1) by omega]
  · rw [h.owners, hw₀, hnone.wfd_go_nc]
    rfl
  · rw [h.clients, hnodes, hw₀, hnone.wfd_cln_nc]
    rfl
  · rw [h.groups group hne, hw₀, hnone.wfd_cln_nc]
    rfl
  · rw [h.devices.1, h.devices.2, hw₀]
    exact ⟨hnone.wfd_go_ndc, hnone.wfd_cln_ndc⟩
  · rw [h.addresses.1, h.addresses.2, hw₀]
    exact ⟨rfl, rfl⟩
  · rw [h.mobility, hw₀]
  · rw [h.sockets.1, h.sockets.2, hw₀]
    exact ⟨rfl, rfl⟩

/-- All agents join the group. -/
theorem initAgents_group {clients : List StdString} (hnone : NoGroups w) (hkeyed : Keyed w)
    (hkeys : w.AllAgents.keys = GO :: clients) :
    ∃ w₁, initAgents W w = .ok () w₁ ∧ GroupFormed GO clients w w₁ := by
  have hnodup := hkeys ▸ Std.TreeMap.nodup_keys (t := w.AllAgents)
  obtain ⟨hnot, hnodup'⟩ := List.nodup_cons.mp hnodup
  have hmem : ∀ agId, agId ∈ GO :: clients → agId ∈ w.AllAgents := by
    intro agId h
    rwa [← hkeys, Std.TreeMap.mem_keys] at h
  have howner := owner_of_keys hkeys
  obtain ⟨w₀, hinit, hjoined⟩ :=
    initAgent_joined (W := W) hkeyed howner (hmem GO List.mem_cons_self)
  obtain ⟨w₁, hrest, h⟩ := initAgents_clients (W := W) hnodup' hjoined.keyed
    (howner.of_mem hjoined.mem) fun id hid =>
      ⟨(hjoined.mem id).mpr (hmem id (List.mem_cons_of_mem GO hid)), fun heq => hnot (heq ▸ hid)⟩
  refine ⟨w₁, ?_, groupFormed_of_joined hnone hnot hjoined h⟩
  rw [initAgents, get_bind_apply, hkeys]
  exact (bind_ok hinit _).trans hrest

/-- The network of the one group. -/
def withNetwork (W : Ns3) (owner : Nat) (clients : List Nat) (w : World) : World :=
  { w with
    wfd_cln_nc := w.wfd_cln_nc.insert 0 clients
    wfd_cln_ndc := w.wfd_cln_ndc.insert 0 (W.Install clients)
    wfd_go_ndc := w.wfd_go_ndc.insert 0 (W.Install [owner])
    wfd_stack := w.wfd_stack ++ ([owner] ++ clients)
    wfd_addresses := w.wfd_addresses.insert 0 (W.Assign (W.Install [owner] ++ W.Install clients))
    mobility := ([owner] ++ clients).foldl (fun m node => m.insert node (W.initialPosition node))
      w.mobility }

/-- `configAll` finds one group. -/
theorem configAll_one {owner : Nat} {clients : List Nat}
    (howners : w.wfd_go_nc = (Std.TreeMap.empty : Std.TreeMap Nat (List Nat)).insert 0 [owner])
    (hclients : w.wfd_cln_nc[0]?.getD [] = clients) :
    WFD_Agent.configAll W w = .ok () (withNetwork W owner clients w) := by
  have hsize : w.wfd_go_nc.size = 1 := by
    rw [howners]
    rfl
  have hgroup : w.wfd_go_nc[0]?.getD [] = [owner] := by
    rw [howners, Std.TreeMap.getElem?_insert_self]
    rfl
  have hone : WFD_Agent.configGroup W 0 w = .ok () (withNetwork W owner clients w) := by
    rw [WFD_Agent.configGroup, get_bind_apply, hgroup, hclients]
    rfl
  rw [WFD_Agent.configAll, get_bind_apply, hsize, List.range_one, forEach_cons, bind_ok hone]
  rfl

/-- An entry for group 0. -/
theorem getElem?_insert_zero {α : Type} (x : α) (m : Std.TreeMap Nat α) (group : Nat) :
    (m.insert 0 x)[group]? = if group = 0 then some x else m[group]? := by
  rw [Std.TreeMap.getElem?_insert]
  by_cases hzero : group = 0
  · subst hzero
    simp
  · have hne : ¬ compare 0 group = .eq := by simpa using Ne.symm hzero
    rw [if_neg hne, if_neg hzero]

theorem getElem?_insert_empty {α : Type} (x : α) (group : Nat) :
    ((∅ : Std.TreeMap Nat α).insert 0 x)[group]? = if group = 0 then some x else none :=
  getElem?_insert_zero x ∅ group

/-- The group that has formed gets its network. -/
theorem networks_of_group {clients : List StdString} {w₁ : World}
    (hkeys : w.AllAgents.keys = GO :: clients) (h : GroupFormed GO clients w w₁) :
    Networks W w GO clients
      (withNetwork W w.nodes (List.range' (w.nodes + 1) clients.length) w₁) := by
  refine ⟨?_, h.nodes, h.agents, fun group => ?_, fun group => ?_, fun group => ?_,
    fun group => ?_, ?_, fun group => ?_, fun node => ?_, h.sockets⟩
  · refine (ascending_unique Std.TreeMap.ordered_keys Std.TreeMap.ordered_keys fun id => ?_).trans
      hkeys
    rw [Std.TreeMap.mem_keys, Std.TreeMap.mem_keys]
    exact h.mem id
  · change w₁.wfd_go_nc[group]? = _
    rw [h.owners]
    exact getElem?_insert_empty _ group
  · rw [withNetwork, getElem?_insert_zero]
    split
    · rfl
    · exact h.groups group ‹_›
  · rw [withNetwork, h.devices.1]
    exact getElem?_insert_empty _ group
  · rw [withNetwork, h.devices.2]
    exact getElem?_insert_empty _ group
  · rw [withNetwork, h.addresses.1]
    rfl
  · rw [withNetwork, h.addresses.2]
    exact getElem?_insert_zero _ _ group
  · rw [withNetwork, insertAll_getElem?, h.mobility, h.nodes]
    refine if_congr ?_ rfl rfl
    simp only [List.singleton_append, List.mem_cons, List.mem_range'_1]
    omega

/-- The agents join the group and its networks are configured. -/
theorem networks_of_init {clients : List StdString} (hnone : NoGroups w) (hkeyed : Keyed w)
    (hkeys : w.AllAgents.keys = GO :: clients) :
    ∃ w₁ w₂, initAgents W w = .ok () w₁ ∧ WFD_Agent.configAll W w₁ = .ok () w₂ ∧
      Networks W w GO clients w₂ := by
  obtain ⟨w₁, hinit, h⟩ := initAgents_group (W := W) hnone hkeyed hkeys
  exact ⟨w₁, _, hinit, configAll_one h.owners h.clients, networks_of_group hkeys h⟩

/-! ## `doInitialization` -/

/-- The one group of these agents; the owner has the least id. -/
def OneGroup (addAgentIds : List StdString) (GO : StdString) (clients : List StdString)
    (groups : Std.TreeMap StdString WFD_Group) : Prop :=
  groups.toList = [(GO, { groupId := GO, GO := GO, members := GO :: clients })] ∧
    (GO :: clients).Pairwise (fun a b => compare a b = .lt) ∧
    ∀ agId, agId ∈ GO :: clients ↔ agId ∈ addAgentIds

/-- The bundle that tells the peer the group. -/
def Announcement (J : Jsoncpp) (addAgentIds : List StdString) (bundle : BundleHeader × StdString) :
    Prop :=
  ∃ GO clients groups, OneGroup addAgentIds GO clients groups ∧ Announces J groups bundle

/-- Agents that were made for an empty registry have their ids. -/
theorem Registered.keyed {w w' : World} {ids : List StdString} (h : Registered (some {}) w ids w')
    (hempty : w.AllAgents = {}) : Keyed w' := by
  intro agId x hx
  have hmem : agId ∈ w'.AllAgents := by
    rw [Std.TreeMap.mem_iff_isSome_getElem?, hx]
    rfl
  obtain ⟨-, self, hnew⟩ := h.entry_new hempty hmem
  rw [hnew] at hx
  cases hx
  exact ⟨_, rfl, rfl, rfl⟩

theorem Announcement.unique {J : Jsoncpp} {addAgentIds : List StdString}
    {bundle bundle' : BundleHeader × StdString} (h : Announcement J addAgentIds bundle)
    (h' : Announcement J addAgentIds bundle') : bundle = bundle' := by
  obtain ⟨GO, clients, groups, ⟨hlist, hsorted, hmem⟩, res, hmake, hend⟩ := h
  obtain ⟨GO', clients', groups', ⟨hlist', hsorted', hmem'⟩, res', hmake', hend'⟩ := h'
  have hsame : GO :: clients = GO' :: clients' :=
    ascending_unique hsorted hsorted' fun agId => (hmem agId).trans (hmem' agId).symm
  obtain ⟨rfl, rfl⟩ := List.cons.inj hsame
  rw [JsonParser.makeGoClient, JsonParser.goClient, hlist] at hmake
  rw [JsonParser.makeGoClient, JsonParser.goClient, hlist', hmake] at hmake'
  cases hmake'
  rw [hend] at hend'
  cases hend'
  rfl

/-- Texts are all that is written about a group. -/
theorem makeGoClient_ok (J : Jsoncpp) {groups : Std.TreeMap StdString WFD_Group} {id : StdString}
    {group : WFD_Group} (h : groups.toList = [(id, group)]) (hmembers : group.members ≠ []) :
    ∃ res, JsonParser.makeGoClient J NEW_BUNDLES (JsonParser.serialize_begin_default {}) groups =
      .ok res := by
  have hnarrow : JsonSingleLineWriter.narrow (JsonParser.goClient groups) = true := by
    have hstrings : JsonSingleLineWriter.narrowElements (group.members.map .string) = true := by
      rw [JsonSingleLineWriter.narrowElements_iff]
      intro v hv
      obtain ⟨agId, -, rfl⟩ := List.mem_map.mp hv
      rfl
    rw [JsonParser.goClient_single h hmembers]
    simp [JsonSingleLineWriter.narrow, JsonSingleLineWriter.narrowMembers,
      JsonSingleLineWriter.narrowElements, goGroup, hstrings]
  obtain ⟨text, hwrite⟩ : ∃ text, ({ appendNewline := false } : JsonSingleLineWriter).write J
      (JsonParser.goClient groups) = .ok text := JsonSingleLineWriter.write_ok hnarrow
  have hmake : JsonParser.makeGoClient J NEW_BUNDLES (JsonParser.serialize_begin_default {})
      groups = .ok
        (JsonParser.addGeneric NEW_BUNDLES (JsonParser.serialize_begin_default {}) text) :=
    makeUnknownJSON_eq hwrite
  exact ⟨_, hmake⟩

/-- The ids in ascending order, when there are any: the first is the owner's. -/
theorem exists_ascending {w' : World} {addAgentIds : List StdString} (hempty : w.AllAgents = {})
    (hids : addAgentIds ≠ []) (hreg : Registered (some {}) w addAgentIds w') :
    ∃ GO clients, w'.AllAgents.keys = GO :: clients ∧
      ∀ agId, agId ∈ GO :: clients ↔ agId ∈ addAgentIds := by
  have hlisted : ∀ agId, agId ∈ w'.AllAgents.keys ↔ agId ∈ addAgentIds := by
    intro agId
    rw [Std.TreeMap.mem_keys]
    exact ⟨fun hmem => (hreg.entry_new hempty hmem).1, hreg.entered agId⟩
  obtain ⟨agId, hagId⟩ := List.exists_mem_of_ne_nil _ hids
  obtain ⟨GO, clients, hkeys⟩ :=
    List.exists_cons_of_ne_nil (List.ne_nil_of_mem ((hlisted agId).mpr hagId))
  exact ⟨GO, clients, hkeys, hkeys ▸ hlisted⟩

/-- The networks do not depend on the agents that were there. -/
theorem Networks.of_others {clients : List StdString} {agents : Nat}
    {entries : Std.TreeMap StdString (Option Agent)}
    (h : Networks W { w with agents := agents, AllAgents := entries } GO clients w') :
    Networks W w GO clients w' :=
  ⟨h.keys, h.nodes, h.agents, h.owner, h.client, h.ownerDevices, h.clientDevices, h.stack,
    h.addresses, h.mobility, h.sockets⟩

section Sending

variable {J : Jsoncpp} {b b' : Broker} {members : List StdString} {res : OngoingSerialization}
  {bundle : BundleHeader × StdString} {w₁ w₂ : World}

/-- After the group was made `doInitialization` sends it and configures the networks. -/
theorem wfd_doInitialization_eq
    (hassign : WFD_Registration.doRoleAssignment { broker := b } =
      .ok true (WFD_Registration.withGroup b GO members))
    (hdone : doInitialization W b = .ok true { b with world := w₁ })
    (hmake : JsonParser.makeGoClient J NEW_BUNDLES (JsonParser.serialize_begin_default {})
      (WFD_Registration.withGroup b GO members).WFD_Groups_ = .ok res) :
    WFD_Registration.doInitialization W J { broker := b } =
      (do
        if !(← WFD_Registration.onBroker (sendBundle J res)) then
          return false
        else
          WFD_Registration.onBroker (Broker.onWorld (WFD_Agent.configAll W))
          return true : Call WFD_Registration Bool)
        { WFD_Registration.withGroup b GO members with broker := { b with world := w₁ } } := by
  rw [doInitialization_eq hassign hdone, hmake, eval_ok, pure_bind_apply]

/-- It returns true exactly when the send does. -/
theorem wfd_doInitialization_iff
    (hassign : WFD_Registration.doRoleAssignment { broker := b } =
      .ok true (WFD_Registration.withGroup b GO members))
    (hdone : doInitialization W b = .ok true { b with world := w₁ })
    (hmake : JsonParser.makeGoClient J NEW_BUNDLES (JsonParser.serialize_begin_default {})
      (WFD_Registration.withGroup b GO members).WFD_Groups_ = .ok res)
    (hend : JsonParser.serialize_end J NEW_BUNDLES res = .ok (some bundle))
    (hconfig : WFD_Agent.configAll W w₁ = .ok () w₂) :
    WFD_Registration.onNew (WFD_Registration.doInitialization W J) b = .ok true b' ↔
      ∃ b₁, Broker.onConn (Connection.send bundle.1 bundle.2) { b with world := w₁ } =
        .ok true b₁ ∧ b' = { b₁ with world := w₂ } := by
  have hsteps := wfd_doInitialization_eq hassign hdone hmake
  constructor
  · intro h
    obtain ⟨registration, hrun, rfl⟩ := zoom_eq_ok h
    rw [hsteps] at hrun
    obtain ⟨r₁, hsend, hrun⟩ := bind_guard hrun
    obtain ⟨b₁, hsend', rfl⟩ := zoom_eq_ok hsend
    obtain ⟨_, r₂, hconfigured, hrun⟩ := bind_eq_ok hrun
    obtain ⟨b₂, hconfigured', rfl⟩ := zoom_eq_ok hconfigured
    obtain ⟨w₃, hconfig', rfl⟩ := zoom_eq_ok hconfigured'
    cases hrun
    rw [sendBundle_eq hend] at hsend'
    have hworld₁ : b₁.world = w₁ := (world_onConn _).ok rfl hsend'
    have hconfig₁ : WFD_Agent.configAll W b₁.world = .ok _ w₃ := hconfig'
    rw [hworld₁, hconfig] at hconfig₁
    cases hconfig₁
    exact ⟨b₁, hsend', rfl⟩
  · rintro ⟨b₁, hsend, rfl⟩
    have hworld₁ : b₁.world = w₁ := (world_onConn _).ok rfl hsend
    rw [← sendBundle_eq hend] at hsend
    rw [← hworld₁] at hconfig
    have hsend' : WFD_Registration.onBroker (sendBundle J res)
        { WFD_Registration.withGroup b GO members with broker := { b with world := w₁ } } =
        .ok true { WFD_Registration.withGroup b GO members with broker := b₁ } :=
      zoom_ok hsend
    have hconfig' : WFD_Registration.onBroker (Broker.onWorld (WFD_Agent.configAll W))
        { WFD_Registration.withGroup b GO members with broker := b₁ } =
        .ok () { WFD_Registration.withGroup b GO members with
          broker := { b₁ with world := w₂ } } :=
      zoom_ok (zoom_ok hconfig)
    refine zoom_ok (t := { WFD_Registration.withGroup b GO members with
      broker := { b₁ with world := w₂ } }) ?_
    rw [hsteps, guard_ok hsend', bind_ok hconfig']
    rfl

end Sending

/-- Up to the sending of the group `doInitialization` returns, and what it does after it. -/
theorem wfd_doInitialization_steps {J : Jsoncpp} {b : Broker} {addAgentIds : List StdString}
    (hempty : w.AllAgents = {}) (hnone : NoGroups w) (hids : addAgentIds ≠ [])
    (hreg : Registered (some {}) w addAgentIds b.world)
    (hothers : ∃ agents entries, b.world = { w with agents := agents, AllAgents := entries }) :
    ∃ GO clients groups bundle w₁ w₂, OneGroup addAgentIds GO clients groups ∧
      Announces J groups bundle ∧ Networks W w GO clients w₂ ∧
      doInitialization W b = .ok true { b with world := w₁ } ∧
      ∀ b', WFD_Registration.onNew (WFD_Registration.doInitialization W J) b = .ok true b' ↔
        ∃ b₁, Broker.onConn (Connection.send bundle.1 bundle.2) { b with world := w₁ } =
          .ok true b₁ ∧ b' = { b₁ with world := w₂ } := by
  have hkeyed := hreg.keyed hempty
  obtain ⟨GO, clients, hkeys, hlisted⟩ := exists_ascending hempty hids hreg
  obtain ⟨agents, entries, hworld⟩ := hothers
  obtain ⟨w₁, w₂, hinit, hconfig, hnetworks⟩ := networks_of_init (W := W)
    (by rw [hworld]; exact ⟨hnone.1, hnone.2, hnone.3, hnone.4⟩) hkeyed hkeys
  have hassign := WFD_Registration.doRoleAssignment_ok hkeyed (owner_of_keys hkeys)
  rw [hkeys] at hassign
  have hdone : doInitialization W b = .ok true { b with world := w₁ } := by
    have hrun : Broker.onWorld (initAgents W) b = .ok () { b with world := w₁ } := zoom_ok hinit
    exact (bind_ok hrun _).trans rfl
  obtain ⟨res, hmake⟩ := makeGoClient_ok J
    (WFD_Registration.withGroup_groups b GO (GO :: clients)) (List.cons_ne_nil GO clients)
  have hend := JsonParser.serialize_end_new J res
  have hascending : (GO :: clients).Pairwise fun a b => compare a b = .lt :=
    hkeys ▸ Std.TreeMap.ordered_keys
  rw [hworld] at hnetworks
  exact ⟨GO, clients, _, _, w₁, w₂, ⟨rfl, hascending, hlisted⟩, ⟨res, hmake, hend⟩,
    hnetworks.of_others, hdone, fun b' => wfd_doInitialization_iff hassign hdone hmake hend hconfig⟩

end Registration
end Sm4ns3
