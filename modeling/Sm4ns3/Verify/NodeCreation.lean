import Sm4ns3.Verify.Multicasts

/-!
# The agents of a trace

`createNodes` goes through the nodes that it made and reads an id and an interface in step
with them. The ids come from `agentsList`, the number of nodes from `maxNOFAgents`: the parser
keeps the list within the limit, but nothing makes it reach the limit (`creates_all_iff`).
-/

namespace Sm4ns3

open Bytes Cpp Call

/-- No device is put on two nodes, no interface given to two devices. -/
structure Ns3.Distinct (W : Ns3) : Prop where
  install : ∀ nodes, nodes.Nodup → (W.Install nodes).Nodup
  assign : ∀ devices, devices.Nodup → (W.Assign devices).Nodup

theorem Ns3.reference_distinct : Ns3.reference.Distinct where
  install _ h := h
  assign _ h := h

namespace RoadRunnerBaseLine

/-! ## The loop over the nodes -/

section Loop

variable {w w' : World} {nodes iic : List Nat} {ids : List StdString} {u : Unit}

/-- With an id and an interface for each node the loop returns. -/
theorem createAgents_ok (hids : nodes.length ≤ ids.length) (hiic : nodes.length ≤ iic.length) :
    ∃ w', createAgents nodes ids iic w = .ok () w' := by
  induction nodes generalizing ids iic w with
  | nil => exact ⟨w, rfl⟩
  | cons node nodes ih =>
    cases ids with
    | nil => simp at hids
    | cons agId ids =>
      cases iic with
      | nil => simp at hiic
      | cons address iic =>
        obtain ⟨-, w₁, hhead, -⟩ := createAgentOn_ok node agId address w
        obtain ⟨w', hrest⟩ := ih (w := w₁) (Nat.le_of_succ_le_succ hids)
          (Nat.le_of_succ_le_succ hiic)
        exact ⟨w', (bind_ok hhead _).trans hrest⟩

/-- An entry that exists stays as it is. -/
theorem createAgents_slot (h : createAgents nodes ids iic w = .ok u w') {agId : StdString}
    {x : Option Agent} (hx : w.AllAgents[agId]? = some x) : w'.AllAgents[agId]? = some x := by
  induction nodes generalizing ids iic w with
  | nil =>
    cases h
    exact hx
  | cons node nodes ih =>
    cases ids with
    | nil => cases h
    | cons id ids =>
      cases iic with
      | nil => cases h
      | cons address iic =>
        obtain ⟨a, w₁, hhead, -, -, hagents, -⟩ := createAgentOn_ok node id address w
        obtain ⟨_, w₁', hhead', hrest⟩ := bind_eq_ok h
        rw [hhead] at hhead'
        cases hhead'
        apply ih hrest
        rw [hagents, Std.TreeMap.getElem?_insertIfNew, if_neg, hx]
        rintro ⟨heq, hnot⟩
        obtain rfl := Std.LawfulEqCmp.compare_eq_iff_eq.mp heq
        exact hnot (Std.TreeMap.mem_iff_isSome_getElem?.mpr (by rw [hx]; rfl))

/-- The agent of an id is on the node, and has the interface, that stand at its place. -/
theorem createAgents_equipped (h : createAgents nodes ids iic w = .ok u w') (hnodup : ids.Nodup)
    (hfresh : ∀ agId ∈ ids, agId ∉ w.AllAgents) {node address : Nat} {agId : StdString}
    (hmem : (node, agId, address) ∈ nodes.zip (ids.zip iic)) :
    ∃ a, w'.agent agId = some a ∧ Made node agId a ∧ a.iic = [address] := by
  induction nodes generalizing ids iic w with
  | nil => simp at hmem
  | cons node₀ nodes ih =>
    cases ids with
    | nil => cases h
    | cons id ids =>
      cases iic with
      | nil => cases h
      | cons address₀ iic =>
        obtain ⟨a, w₁, hhead, hmade, haddress, hagents, -⟩ :=
          createAgentOn_ok node₀ id address₀ w
        obtain ⟨_, w₁', hhead', hrest⟩ := bind_eq_ok h
        rw [hhead] at hhead'
        cases hhead'
        obtain ⟨hnot, hnodup'⟩ := List.nodup_cons.mp hnodup
        rw [List.zip_cons_cons, List.zip_cons_cons] at hmem
        rcases List.mem_cons.mp hmem with hfirst | hlater
        · cases hfirst
          have hslot : w₁.AllAgents[agId]? = some (some a) := by
            rw [hagents, Std.TreeMap.getElem?_insertIfNew, if_pos]
            exact ⟨Std.ReflCmp.compare_self, hfresh agId List.mem_cons_self⟩
          exact ⟨a, World.agent_eq_some.mpr (createAgents_slot hrest hslot), hmade, haddress⟩
        · refine ih hrest hnodup' (fun agId hagId => ?_) hlater
          rw [hagents, Std.TreeMap.mem_insertIfNew]
          rintro (heq | hold)
          · rw [Std.LawfulEqCmp.compare_eq_iff_eq] at heq
            exact hnot (heq ▸ hagId)
          · exact hfresh agId (List.mem_cons_of_mem _ hagId) hold

end Loop

/-! ## All agents of a trace -/

/-- One agent for each id of the list and no others, each on a node and with an interface of
its own. -/
structure Staffed (r r' : RoadRunnerBaseLine) : Prop where
  registered : ∀ agId, agId ∈ r'.world.AllAgents ↔ agId ∈ r.agentsList
  equipped : ∀ agId ∈ r.agentsList, ∃ a node address, r'.world.agent agId = some a ∧
    a.m_AgentId = agId ∧ a.m_node = some node ∧ a.iic = [address]
  apart : ∀ agId agId' a a', r'.world.agent agId = some a → r'.world.agent agId' = some a' →
    a.m_node = a'.m_node ∨ a.iic = a'.iic → agId = agId'

/-- `createNodes` reads no id behind the last one and makes the agents. -/
def CreatesAll (W : Ns3) (r : RoadRunnerBaseLine) : Prop :=
  ∃ r', createNodes W r = .ok () r' ∧ Staffed r r'

section All

variable {B : LexicalCast} {W : Ns3} {r r' : RoadRunnerBaseLine}

/-- Agents on one node, or with one interface, stand at one place in the lists. -/
theorem id_unique {nodes iic : List Nat} {ids : List StdString} (hnodes : nodes.Nodup)
    (hiic : iic.Nodup) {node node' address address' : Nat} {agId agId' : StdString}
    (h : (node, agId, address) ∈ nodes.zip (ids.zip iic))
    (h' : (node', agId', address') ∈ nodes.zip (ids.zip iic))
    (hsame : node = node' ∨ address = address') : agId = agId' := by
  rcases hsame with rfl | rfl
  · exact congrArg Prod.fst (eq_of_mem_zip hnodes h h')
  · have hpair := (List.of_mem_zip h).2
    have hpair' := (List.of_mem_zip h').2
    rw [← List.zip_swap] at hpair hpair'
    obtain ⟨⟨address₁, id₁⟩, hx, hswap⟩ := List.mem_map.mp hpair
    obtain ⟨⟨address₂, id₂⟩, hx', hswap'⟩ := List.mem_map.mp hpair'
    cases hswap
    cases hswap'
    exact eq_of_mem_zip hiic hx hx'

/-- With as many ids as nodes, every id is read together with a node and an interface. -/
theorem exists_mem_zip {nodes iic : List Nat} {ids : List StdString}
    (hids : ids.length ≤ nodes.length) (hiic : ids.length ≤ iic.length) {agId : StdString}
    (hagId : agId ∈ ids) : ∃ node address, (node, agId, address) ∈ nodes.zip (ids.zip iic) := by
  obtain ⟨k, hk, rfl⟩ := List.getElem_of_mem hagId
  refine ⟨nodes[k], iic[k], List.mem_iff_getElem.mpr ⟨k, ?_, ?_⟩⟩
  · simp only [List.length_zip]
    omega
  · simp only [List.getElem_zip]

/-- The loop over as many ids as there are nodes makes an agent for each. -/
theorem staffed_of_createAgents {w w' : World} {u : Unit}
    (h : createAgents r.nodesOf r.agentsList.toList (r.addressesOf W) w = .ok u w')
    (hempty : w.AllAgents = {}) (hnodes : r.nodesOf.Nodup) (hiic : (r.addressesOf W).Nodup)
    (hids : r.agentsList.toList.length ≤ r.nodesOf.length)
    (haddresses : r.agentsList.toList.length ≤ (r.addressesOf W).length) :
    Staffed r { r with RRNC := r.nodesOf, world := w' } := by
  have hmade := createAgents_eq_ok h
  have hequipped : ∀ agId ∈ r.agentsList.toList, ∃ node address a,
      (node, agId, address) ∈ r.nodesOf.zip (r.agentsList.toList.zip (r.addressesOf W)) ∧
        w'.agent agId = some a ∧ Made node agId a ∧ a.iic = [address] := by
    intro agId hagId
    obtain ⟨node, address, hmem⟩ := exists_mem_zip hids haddresses hagId
    obtain ⟨a, ha, hmade, haddress⟩ := createAgents_equipped h (nodup_toList _)
      (fun id _ hid => by simp [hempty] at hid) hmem
    exact ⟨node, address, a, hmem, ha, hmade, haddress⟩
  have hlisted : ∀ agId, agId ∈ w'.AllAgents → agId ∈ r.agentsList.toList := by
    intro agId hagId
    obtain ⟨x, hx⟩ := Option.isSome_iff_exists.mp
      (Std.TreeMap.mem_iff_isSome_getElem?.mp hagId)
    rcases hmade.entry agId x hx with hold | ⟨node, a, hmem, -⟩
    · simp [hempty] at hold
    · exact (List.of_mem_zip hmem).2
  have hslot : ∀ {agId a}, w'.agent agId = some a → agId ∈ w'.AllAgents := by
    intro agId a ha
    rw [Std.TreeMap.mem_iff_isSome_getElem?, World.agent_eq_some.mp ha]
    rfl
  refine ⟨fun agId => ⟨fun hmem => ?_, fun hmem => ?_⟩, fun agId hmem => ?_,
    fun agId agId' a a' ha ha' hsame => ?_⟩
  · exact Std.TreeSet.mem_toList.mp (hlisted agId hmem)
  · obtain ⟨node, address, a, -, ha, -⟩ := hequipped agId (Std.TreeSet.mem_toList.mpr hmem)
    exact hslot ha
  · obtain ⟨node, address, a, -, ha, hmade, haddress⟩ :=
      hequipped agId (Std.TreeSet.mem_toList.mpr hmem)
    exact ⟨a, node, address, ha, hmade.id, hmade.node, haddress⟩
  · obtain ⟨node, address, a₁, hmem, ha₁, hmade, haddress⟩ :=
      hequipped agId (hlisted agId (hslot ha))
    obtain ⟨node', address', a₁', hmem', ha₁', hmade', haddress'⟩ :=
      hequipped agId' (hlisted agId' (hslot ha'))
    obtain rfl := Option.some.inj (ha.symm.trans ha₁)
    obtain rfl := Option.some.inj (ha'.symm.trans ha₁')
    rw [hmade.node, hmade'.node, haddress, haddress'] at hsame
    apply id_unique hnodes hiic hmem hmem'
    rcases hsame with hnode | haddr
    · exact .inl (Option.some.inj hnode)
    · exact .inr (List.cons.inj haddr).1

/-- All agents of a parsed trace are created when the trace names as many as there are nodes. -/
theorem creates_all_iff (hW : W.Documented) (hdistinct : W.Distinct)
    {contents : Option StdString} {protocol : StdString} {nof_agents : UInt32} {dc dl : Bool}
    {u : Unit} (h : parse B contents (create protocol nof_agents dc dl) = .ok u r) :
    CreatesAll W r ↔ (protocol = str "80211b" ∨ protocol = str "80211p") ∧
      r.agentsList.size = nof_agents.toNat := by
  obtain ⟨hstored, hsame, -⟩ := parse_eq_ok h
  obtain ⟨hempty, hnodup, hlength⟩ := hsame.nodesOf (W := W)
  have hprotocol : r.protocol = protocol := hsame.protocol
  have hmax : r.maxNOFAgents = nof_agents := hsame.maxNOFAgents
  have hsize : r.agentsList.toList.length = r.agentsList.size := Std.TreeSet.length_toList
  have hwithin := hstored.length_agentsList
  rw [hmax] at hlength hwithin
  constructor
  · intro hcreates
    obtain ⟨r', hrun, -⟩ := hcreates
    obtain ⟨hknown, w', hagents, -⟩ := createNodes_iff.mp hrun
    rw [hprotocol] at hknown
    have henough := (createAgents_eq_ok hagents).length
    exact ⟨hknown, by omega⟩
  · intro hcond
    obtain ⟨hknown, hcount⟩ := hcond
    have haddresses : (r.addressesOf W).length = r.nodesOf.length := by
      rw [addressesOf, hW.assign, hW.install]
    have hloop : ∃ w', createAgents r.nodesOf r.agentsList.toList (r.addressesOf W)
        (r.worldOf W) = .ok () w' :=
      createAgents_ok (by omega) (by omega)
    obtain ⟨w', hrun⟩ := hloop
    rw [← hprotocol] at hknown
    refine ⟨_, createNodes_iff.mpr ⟨hknown, w', hrun, rfl⟩, ?_⟩
    apply staffed_of_createAgents hrun hempty hnodup
    · exact hdistinct.assign _ (hdistinct.install _ hnodup)
    · omega
    · omega

end All

/-- The trace program once it parsed a file. -/
def parsedFrom (lines : List String) (nof_agents : UInt32) : RoadRunnerBaseLine :=
  final (parse LexicalCast.reference (some (linesOf lines))
    (create (str "80211b") nof_agents false false))

theorem creates_all_iff_pair : CreatesAll Ns3.reference (parsedFrom pairTrace 2) ↔
    (str "80211b" = str "80211b" ∨ str "80211b" = str "80211p") ∧
      (parsedFrom pairTrace 2).agentsList.size = (2 : UInt32).toNat := by
  have hparse : value (parse LexicalCast.reference (some (linesOf pairTrace))
      (create (str "80211b") 2 false false)) = some () := by decide +kernel
  exact creates_all_iff Ns3.reference_documented Ns3.reference_distinct (eq_ok_of_value hparse)

/-- For a limit of three the third id is read behind the two of the trace. -/
theorem creates_not_all :
    parse LexicalCast.reference (some (linesOf pairTrace)) (create (str "80211b") 3 false false) =
        .ok () (parsedFrom pairTrace 3) ∧
      fault (createNodes Ns3.reference (parsedFrom pairTrace 3)) =
        some (.undefined .endIterator) ∧
      ¬ CreatesAll Ns3.reference (parsedFrom pairTrace 3) := by
  have hparse : value (parse LexicalCast.reference (some (linesOf pairTrace))
      (create (str "80211b") 3 false false)) = some () := by decide +kernel
  have hfault : fault (createNodes Ns3.reference (parsedFrom pairTrace 3)) =
      some (.undefined .endIterator) := by decide +kernel
  refine ⟨eq_ok_of_value hparse, hfault, fun hcreates => ?_⟩
  obtain ⟨r', hrun, -⟩ := hcreates
  rw [hrun] at hfault
  cases hfault

end RoadRunnerBaseLine
end Sm4ns3
