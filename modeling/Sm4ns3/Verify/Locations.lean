import Sm4ns3.Verify.Faults
import Sm4ns3.Verify.Makers
import Sm4ns3.Verify.Nodes

/-!
# `all_locations` moves every agent that is listed

The message is refused as a whole, or the loop over the map moves the node of every agent
that is listed to its last entry (`locations_exact_iff`). The loop needs a mobility model for
each of these agents, which the plain agents have and the WiFi-Direct ones do not.
-/

namespace Sm4ns3

open Bytes Cpp Call JsonParser

/-- The last result is that of the first element unless there is a later one. -/
theorem getLast?_filterMap_cons {α β : Type} (f : α → Option β) (x : α) (xs : List α) :
    ((x :: xs).filterMap f).getLast? = ((xs.filterMap f).getLast?).or (f x) := by
  cases hx : f x with
  | none => rw [List.filterMap_cons_none hx, Option.or_none]
  | some y =>
    rw [List.filterMap_cons_some hx, List.getLast?_cons]
    cases (xs.filterMap f).getLast? with
    | none => rfl
    | some z => rfl

/-! ## The map of the entries -/

/-- The last entry of an id. -/
def lastEntry (agId : StdString) (locs : List (StdString × DPoint)) : Option DPoint :=
  (locs.filterMap fun loc => if loc.1 = agId then some loc.2 else none).getLast?

theorem lastEntry_cons (agId : StdString) (loc : StdString × DPoint)
    (locs : List (StdString × DPoint)) : lastEntry agId (loc :: locs) =
      (lastEntry agId locs).or (if loc.1 = agId then some loc.2 else none) :=
  getLast?_filterMap_cons _ loc locs

theorem enterLocations_getElem? (locs : List (StdString × DPoint))
    (res : Std.TreeMap StdString DPoint) (agId : StdString) :
    (enterLocations res locs)[agId]? = (lastEntry agId locs).or res[agId]? := by
  induction locs generalizing res with
  | nil => rfl
  | cons loc locs ih =>
    have hfirst : (res.insert loc.1 loc.2)[agId]? =
        (if loc.1 = agId then some loc.2 else none).or res[agId]? := by
      simp only [Std.TreeMap.getElem?_insert, Std.LawfulEqCmp.compare_eq_iff_eq]
      split
      · rfl
      · rfl
    have hstep : enterLocations res (loc :: locs) =
        enterLocations (res.insert loc.1 loc.2) locs := rfl
    rw [hstep, ih, hfirst, lastEntry_cons, Option.or_assoc]

/-- Among entries with distinct ids an entry is the last of its id. -/
theorem lastEntry_eq_some {locs : List (StdString × DPoint)} (hnodup : (locs.map Prod.fst).Nodup)
    {agId : StdString} {pos : DPoint} : lastEntry agId locs = some pos ↔ (agId, pos) ∈ locs := by
  induction locs generalizing pos with
  | nil => simp [lastEntry]
  | cons loc locs ih =>
    rw [List.map_cons, List.nodup_cons] at hnodup
    obtain ⟨hnot, hrest⟩ := hnodup
    rw [lastEntry_cons, List.mem_cons]
    by_cases hid : loc.1 = agId
    · subst hid
      have habsent : ∀ p, (loc.1, p) ∉ locs := fun p hp => hnot (List.mem_map.mpr ⟨_, hp, rfl⟩)
      have hnone : lastEntry loc.1 locs = none := by
        rw [Option.eq_none_iff_forall_not_mem]
        exact fun p hp => habsent p ((ih hrest).mp hp)
      rw [hnone, if_pos rfl, Option.none_or, Option.some.injEq]
      constructor
      · rintro rfl
        exact .inl rfl
      · rintro (heq | hmem)
        · rw [← heq]
        · exact absurd hmem (habsent pos)
    · rw [if_neg hid, Option.or_none, ih hrest]
      constructor
      · exact .inr
      · rintro (heq | hmem)
        · rw [← heq] at hid
          exact absurd rfl hid
        · exact hmem

/-- The order of entries with distinct ids does not matter. -/
theorem lastEntry_perm {locs locs' : List (StdString × DPoint)} (h : locs'.Perm locs)
    (hnodup : (locs.map Prod.fst).Nodup) (agId : StdString) :
    lastEntry agId locs' = lastEntry agId locs := by
  have hnodup' : (locs'.map Prod.fst).Nodup := (h.map Prod.fst).nodup_iff.mpr hnodup
  apply Option.ext
  intro pos
  rw [lastEntry_eq_some hnodup', lastEntry_eq_some hnodup, h.mem_iff]

/-! ## The loop -/

namespace World

/-- Where `SetPosition` puts an agent. -/
def placeOf (pos : DPoint) : Vector := { x := pos.x, y := pos.y, z := ⟨0⟩ }

/-- Where an entry moves a node: to its place if the node is that of the agent. -/
def movesNode (w : World) (node : Nat) (loc : StdString × DPoint) : Option Vector :=
  (w.agent loc.1).bind fun a => if a.m_node = some node then some (placeOf loc.2) else none

theorem movesNode_eq_some {w : World} {node : Nat} {loc : StdString × DPoint} {v : Vector} :
    w.movesNode node loc = some v ↔
      ∃ a, w.agent loc.1 = some a ∧ a.m_node = some node ∧ placeOf loc.2 = v := by
  rw [movesNode, Option.bind_eq_some_iff]
  simp only [Option.ite_none_right_eq_some, Option.some.injEq]

theorem movesNode_congr {w w' : World} (h : w'.AllAgents = w.AllAgents) :
    w'.movesNode = w.movesNode := by
  funext node loc
  rw [movesNode, movesNode, agent, agent, h]

end World

section Loop

variable {w w' : World}

theorem moveAgent_mobility {loc : StdString × DPoint} {u : Unit}
    (h : AllLocationHandler.moveAgent loc w = .ok u w') (node : Nat) :
    w'.AllAgents = w.AllAgents ∧
      w'.mobility[node]? = (w.movesNode node loc).or w.mobility[node]? := by
  rw [AllLocationHandler.moveAgent, get_bind_apply] at h
  rw [World.movesNode, World.agent]
  cases hslot : w.AllAgents[loc.1]? with
  | none =>
    rw [hslot] at h
    cases h
    exact ⟨rfl, rfl⟩
  | some x =>
    rw [hslot] at h
    cases x with
    | none =>
      cases h
      exact ⟨rfl, rfl⟩
    | some a =>
      obtain ⟨own, hown, -, rfl⟩ := Agent.SetPosition_eq_ok.mp h
      refine ⟨rfl, ?_⟩
      simp only [Std.TreeMap.getElem?_insert, Std.LawfulEqCmp.compare_eq_iff_eq, hown,
        Option.getD_some, Option.bind_some, Option.some.injEq]
      split
      · rfl
      · rfl

/-- A node is where the last entry of an agent on it says, or where it was. -/
theorem moveAgents_mobility {locs : List (StdString × DPoint)} {u : Unit}
    (h : forEach AllLocationHandler.moveAgent locs w = .ok u w') (node : Nat) :
    w'.mobility[node]? =
      ((locs.filterMap (w.movesNode node)).getLast?).or w.mobility[node]? := by
  induction locs generalizing w with
  | nil =>
    cases h
    rfl
  | cons loc locs ih =>
    obtain ⟨_, w₁, hmove, hrest⟩ := bind_eq_ok h
    obtain ⟨hagents, hnode⟩ := moveAgent_mobility hmove node
    rw [ih hrest, hnode, World.movesNode_congr hagents, getLast?_filterMap_cons, Option.or_assoc]

end Loop

/-! ## The entries of a message -/

/-- The entry has an id and two coordinates, which can be converted. -/
def IsEntry (J : Jsoncpp) (agInf : Json) (loc : StdString × DPoint) : Prop :=
  ∃ ms id x y, agInf = .object ms ∧ ms.lookup (str "id") = some id ∧
    ms.lookup (str "x") = some x ∧ ms.lookup (str "y") = some y ∧ J.asString id = .ok loc.1 ∧
    J.asDouble x = .ok loc.2.x ∧ J.asDouble y = .ok loc.2.y

/-- The message has an array of such entries. -/
def HasEntries (J : Jsoncpp) (ms : Json.Members) (locs : List (StdString × DPoint)) : Prop :=
  ∃ xs, ms.lookup (str "locations") = some (.array xs) ∧ List.Forall₂ (IsEntry J) xs locs

section Entries

variable {J : Jsoncpp} {messages : MessageConglomerate} {msgNumber : Int} {base : MessageBase}
  {ms : Json.Members}

theorem areMembers_object (ms : Json.Members) (keys : List StdString) :
    areMembers (.object ms) keys = .ok (keys.all fun key => (ms.lookup key).isSome) := by
  induction keys with
  | nil => rfl
  | cons key keys ih =>
    rw [areMembers, Json.isMember, except_ok_bind]
    cases hslot : ms.lookup key with
    | none => simp [hslot, pure, Except.pure]
    | some v => simp [hslot, ih]

theorem parseLocation_iff {agInf : Json} {loc : StdString × DPoint} :
    parseLocation J agInf = .ok loc ↔ IsEntry J agInf loc := by
  constructor
  · intro h
    rw [parseLocation, except_bind_eq_ok] at h
    obtain ⟨present, hpresent, h⟩ := h
    obtain ⟨_, hthrow, hrest⟩ := except_bind_eq_ok.mp h
    rw [throwIf_eq_ok, Bool.not_eq_false'] at hthrow
    subst hthrow
    cases agInf with
    | object ms =>
      rw [areMembers_object] at hpresent
      have hall := List.all_eq_true.mp (Except.ok.inj hpresent)
      have hmember : ∀ key ∈ [str "id", str "x", str "y"], ∃ v, ms.lookup key = some v :=
        fun key hkey => Option.isSome_iff_exists.mp (hall key hkey)
      obtain ⟨id, hid⟩ := hmember (str "id") (by simp)
      obtain ⟨x, hx⟩ := hmember (str "x") (by simp)
      obtain ⟨y, hy⟩ := hmember (str "y") (by simp)
      simp only [Json.get, hid, hx, hy, Option.getD_some, except_ok_bind] at hrest
      obtain ⟨agId, hagId, hrest⟩ := except_bind_eq_ok.mp hrest
      obtain ⟨xPos, hxPos, hrest⟩ := except_bind_eq_ok.mp hrest
      obtain ⟨yPos, hyPos, hrest⟩ := except_bind_eq_ok.mp hrest
      cases hrest
      exact ⟨ms, id, x, y, rfl, hid, hx, hy, hagId, hxPos, hyPos⟩
    | _ => cases hpresent
  · intro h
    obtain ⟨ms, id, x, y, rfl, hid, hx, hy, hagId, hxPos, hyPos⟩ := h
    rw [parseLocation, areMembers_object]
    simp only [List.all_cons, List.all_nil, hid, hx, hy, Option.isSome_some, Bool.and_self,
      except_ok_bind, Bool.not_true, throwIf_false, Json.get, Option.getD_some, hagId, hxPos, hyPos]
    rfl

/-- The parser accepts the message that has entries, and enters them. -/
theorem parseAllLocations_iff (hbase : messages.getBaseMessage msgNumber = .ok base)
    (hjson : messages.getJsonMessage msgNumber = .ok (.object ms)) {aInfo : AllLocationsMessage} :
    parseAllLocations J messages msgNumber = .ok aInfo ↔ ∃ locs, HasEntries J ms locs ∧
      aInfo = { base with agentLocations := enterLocations {} locs } := by
  rw [parseAllLocations, hbase, except_ok_bind, jsonOf_ok hjson, except_ok_bind,
    areMembers_object, except_ok_bind, Json.get, except_ok_bind]
  constructor
  · intro h
    obtain ⟨_, hthrow, h⟩ := except_bind_eq_ok.mp h
    rw [throwIf_eq_ok, Bool.not_eq_false', Bool.and_eq_true] at hthrow
    obtain ⟨hpresent, harray⟩ := hthrow
    simp only [List.all_cons, List.all_nil, Bool.and_true] at hpresent
    obtain ⟨v, hv⟩ := Option.isSome_iff_exists.mp hpresent
    rw [hv, Option.getD_some] at harray h
    cases v with
    | array xs =>
      rw [Json.elements, except_ok_bind] at h
      obtain ⟨locs, hlocs, h⟩ := except_bind_eq_ok.mp h
      cases h
      refine ⟨locs, ⟨xs, hv, ?_⟩, rfl⟩
      exact (except_mapM_eq_ok.mp hlocs).imp fun _ _ => parseLocation_iff.mp
    | _ => cases harray
  · intro h
    obtain ⟨locs, hentries, rfl⟩ := h
    obtain ⟨xs, hv, hall⟩ := hentries
    have hlocs : xs.mapM (parseLocation J) = .ok locs :=
      except_mapM_eq_ok.mpr (hall.imp fun _ _ => parseLocation_iff.mpr)
    simp only [List.all_cons, List.all_nil, hv, Option.isSome_some, Bool.and_self,
      Option.getD_some, Json.isArray, Bool.not_true, throwIf_false, except_ok_bind, Json.elements,
      hlocs]
    rfl

end Entries

/-! ## The handler -/

namespace AllLocationHandler

/-- Where the agent of an id belongs after these entries. -/
def placeAfter (w : World) (locs : List (StdString × DPoint)) (agId : StdString) :
    Option Vector :=
  (lastEntry agId locs).elim (w.position agId) fun pos => some (World.placeOf pos)

/-- A message without entries is refused and changes nothing. One with entries puts every
agent where its last entry says, leaves the others and the registry alone, and does not depend
on the order of entries with distinct ids. -/
structure ExactOrRefused (J : Jsoncpp) (w : World) (m : Received) (ms : Json.Members) : Prop where
  refused : (¬ ∃ locs, HasEntries J ms locs) →
    ∃ what, handle J m.messages m.msgNumber w = .error (.exception what) w
  moved : ∀ locs, HasEntries J ms locs → ∃ w', handle J m.messages m.msgNumber w = .ok () w' ∧
    w'.AllAgents = w.AllAgents ∧
    ∀ agId a, w.agent agId = some a → w'.position agId = placeAfter w locs agId
  permuted : ∀ (m' : Received) base ms' locs locs',
    m'.messages.getBaseMessage m'.msgNumber = .ok base →
    m'.messages.getJsonMessage m'.msgNumber = .ok (.object ms') →
    HasEntries J ms locs → HasEntries J ms' locs' → locs'.Perm locs →
    (locs.map Prod.fst).Nodup →
    handle J m'.messages m'.msgNumber w = handle J m.messages m.msgNumber w

/-- Every agent that is listed has a mobility model, and agents on one node belong to one
place. -/
structure Placeable (w : World) (locs : List (StdString × DPoint)) : Prop where
  movable : ∀ agId a pos, lastEntry agId locs = some pos → w.agent agId = some a → a.Movable w
  together : ∀ agId agId' a a', w.agent agId = some a → w.agent agId' = some a' →
    a.m_node = a'.m_node → placeAfter w locs agId = placeAfter w locs agId'

section Handle

variable {J : Jsoncpp} {w w' : World} {m : Received} {base : MessageBase} {ms : Json.Members}
  {locs : List (StdString × DPoint)}

theorem handle_entries (hbase : m.messages.getBaseMessage m.msgNumber = .ok base)
    (hjson : m.messages.getJsonMessage m.msgNumber = .ok (.object ms))
    (h : HasEntries J ms locs) :
    handle J m.messages m.msgNumber = forEach moveAgent (enterLocations {} locs).toList := by
  have hparse := (parseAllLocations_iff hbase hjson).mpr ⟨locs, h, rfl⟩
  rw [handle, hparse, eval_ok, pure_bind_apply]

theorem mem_toList_enterLocations {agId : StdString} {pos : DPoint} :
    (agId, pos) ∈ (enterLocations {} locs).toList ↔ lastEntry agId locs = some pos := by
  rw [Std.TreeMap.mem_toList_iff_getElem?_eq_some, enterLocations_getElem?]
  simp

theorem position_of_moved (h : forEach moveAgent (enterLocations {} locs).toList w = .ok () w')
    (hplace : Placeable w locs) {agId : StdString} {a : Agent} (ha : w.agent agId = some a) :
    w'.position agId = placeAfter w locs agId := by
  have hagents := moveAgents_agents h
  have ha' : w'.agent agId = some a := by rw [World.agent, hagents, ← ha, World.agent]
  rw [World.position, ha', Option.bind_some]
  cases hnode : a.m_node with
  | none =>
    have hnone : lastEntry agId locs = none := by
      rw [Option.eq_none_iff_forall_not_mem]
      intro pos hpos
      obtain ⟨node, hsome, -⟩ := hplace.movable agId a pos hpos ha
      rw [hnode] at hsome
      cases hsome
    rw [placeAfter, hnone, World.position, ha, Option.bind_some, hnode]
    rfl
  | some node =>
    rw [Option.bind_some, moveAgents_mobility h node]
    cases hlast : ((enterLocations {} locs).toList.filterMap (w.movesNode node)).getLast? with
    | none =>
      rw [List.getLast?_eq_none_iff, List.filterMap_eq_nil_iff] at hlast
      have hnone : lastEntry agId locs = none := by
        rw [Option.eq_none_iff_forall_not_mem]
        intro pos hpos
        have hmoves := hlast (agId, pos) (mem_toList_enterLocations.mpr hpos)
        rw [World.movesNode_eq_some.mpr ⟨a, ha, hnode, rfl⟩] at hmoves
        cases hmoves
      rw [placeAfter, hnone, World.position, ha, Option.bind_some, hnode]
      rfl
    | some v =>
      obtain ⟨loc, hloc, hmoves⟩ := List.mem_filterMap.mp (List.mem_of_getLast? hlast)
      obtain ⟨a', ha', hnode', rfl⟩ := World.movesNode_eq_some.mp hmoves
      have hentry : lastEntry loc.1 locs = some loc.2 := mem_toList_enterLocations.mp hloc
      rw [hplace.together agId loc.1 a a' ha ha' (hnode.trans hnode'.symm), placeAfter, hentry]
      rfl

/-- An `all_locations` is handled exactly, or refused as a whole, when every agent it lists can
be moved and agents on one node belong to one place. -/
theorem locations_exact_iff (hbase : m.messages.getBaseMessage m.msgNumber = .ok base)
    (hjson : m.messages.getJsonMessage m.msgNumber = .ok (.object ms)) :
    ExactOrRefused J w m ms ↔ ∀ locs, HasEntries J ms locs → Placeable w locs := by
  constructor
  · intro h locs hentries
    obtain ⟨w', hrun, hagents, hplaced⟩ := h.moved locs hentries
    rw [handle_entries hbase hjson hentries] at hrun
    constructor
    · intro agId a pos hpos ha
      exact (moveAgents_eq_ok hrun).1 (agId, pos) (mem_toList_enterLocations.mpr hpos) a
        (World.agent_eq_some.mp ha)
    · intro agId agId' a a' ha ha' hnode
      have hsame : ∀ id, w'.agent id = w.agent id := by
        intro id
        rw [World.agent, hagents, World.agent]
      rw [← hplaced agId a ha, ← hplaced agId' a' ha', World.position, World.position, hsame,
        hsame, ha, ha', Option.bind_some, Option.bind_some, hnode]
  · intro h
    refine ⟨fun hnone => ?_, fun locs hentries => ?_, ?_⟩
    · have hsafe : Safe (parseAllLocations J m.messages m.msgNumber) :=
        safe_parseAllLocations m.messages m.msgNumber
      cases hparse : parseAllLocations J m.messages m.msgNumber with
      | ok aInfo =>
        obtain ⟨locs, hentries, -⟩ := (parseAllLocations_iff hbase hjson).mp hparse
        exact absurd ⟨locs, hentries⟩ hnone
      | error e =>
        obtain ⟨what, rfl⟩ := hsafe.of_error hparse
        refine ⟨what, ?_⟩
        rw [handle, hparse]
        rfl
    · have hplace := h locs hentries
      obtain ⟨w', hrun⟩ : ∃ w',
          forEach moveAgent (enterLocations {} locs).toList w = .ok () w' := by
        apply moveAgents_ok
        intro loc hloc a ha
        exact hplace.movable loc.1 a loc.2 (mem_toList_enterLocations.mp hloc)
          (World.agent_eq_some.mpr ha)
      refine ⟨w', ?_, moveAgents_agents hrun, fun agId a ha => position_of_moved hrun hplace ha⟩
      rw [handle_entries hbase hjson hentries]
      exact hrun
    · intro m' base' ms' locs locs' hbase' hjson' hentries hentries' hperm hnodup
      have hlist : (enterLocations {} locs').toList = (enterLocations {} locs).toList := by
        apply Std.TreeMap.Equiv.toList_eq
        apply Std.TreeMap.Equiv.of_forall_constGet?_eq
        intro agId
        rw [enterLocations_getElem?, enterLocations_getElem?, lastEntry_perm hperm hnodup]
      rw [handle_entries hbase' hjson' hentries', handle_entries hbase hjson hentries, hlist]

end Handle

/-! ## Two worlds -/

open OpaqueSendHandler (bundleWith twoAgents)

/-- The members of a message that puts agent `1` at the origin. -/
def toOrigin : Json.Members :=
  [(str "locations", .array [.object
      [(str "id", .string (str "1")), (str "x", .real ⟨0⟩), (str "y", .real ⟨0⟩)]]),
    (str "msg_type", .string (str "all_locations"))]

/-- The message as it is received. -/
def toOriginReceived : Received where
  messages := bundleWith (str ("\x7b\"locations\":[\x7b\"id\":\"1\",\"x\":0.0,\"y\":0.0\x7d]," ++
    "\"msg_type\":\"all_locations\"\x7d"))
  msgNumber := 0

theorem toOrigin_base : toOriginReceived.messages.getBaseMessage toOriginReceived.msgNumber =
    .ok { msg_type := str "all_locations" } := by
  decide +kernel

theorem toOrigin_json : toOriginReceived.messages.getJsonMessage toOriginReceived.msgNumber =
    .ok (.object toOrigin) := by
  decide +kernel

theorem locations_exact_iff_origin :
    ExactOrRefused Jsoncpp.reference twoAgents toOriginReceived toOrigin ↔
      ∀ locs, HasEntries Jsoncpp.reference toOrigin locs → Placeable twoAgents locs :=
  locations_exact_iff toOrigin_base toOrigin_json

/-- The agents of a registration as `stk` have no node. -/
def stkAgents : World :=
  (final (Broker.start Ns3.reference Jsoncpp.reference twoAgentsPeer (str "stk")
    Broker.make)).world

/-- Moving one of them dereferences a null pointer. -/
theorem locations_not_exact :
    toOriginReceived.messages.getJsonMessage toOriginReceived.msgNumber =
        .ok (.object toOrigin) ∧
      ¬ ExactOrRefused Jsoncpp.reference stkAgents toOriginReceived toOrigin := by
  refine ⟨toOrigin_json, fun h => ?_⟩
  have hfault : fault (handle Jsoncpp.reference toOriginReceived.messages
      toOriginReceived.msgNumber stkAgents) = some (.undefined .nullPointer) := by
    decide +kernel
  by_cases hentries : ∃ locs, HasEntries Jsoncpp.reference toOrigin locs
  · obtain ⟨locs, hentries⟩ := hentries
    obtain ⟨w', hrun, -⟩ := h.moved locs hentries
    rw [hrun] at hfault
    cases hfault
  · obtain ⟨what, hrun⟩ := h.refused hentries
    rw [hrun] at hfault
    cases hfault

end AllLocationHandler
end Sm4ns3
