import Sm4ns3.Verify.Dispatch
import Sm4ns3.Verify.FanOut
import Sm4ns3.Verify.Locations
import Sm4ns3.Verify.TickBundle

/-!
# Handling the bundle of a tick

In a manned world the `all_locations` of a tick puts each agent that it names where it
says and leaves the others (`moveAgents_moved`), and the `opaque_send` of a record sends
one packet to each recipient that is registered, in order (`multicasted_sent`). A record
without recipients ends the handling.
-/

namespace Sm4ns3

open Bytes Cpp Call JsonParser MessageConglomerate

/-! ## Moving the agents -/

namespace World

/-- The agents named are where the locations say, and the others where they were. -/
structure Moved (w : World) (locs : List (StdString × DPoint)) (w' : World) : Prop where
  follows : w.Follows w'
  sent : w'.sent = w.sent
  named : ∀ agId pos, (agId, pos) ∈ locs → (w.agent agId).isSome = true →
    w'.position agId = some (placeOf pos)
  others : ∀ agId, agId ∉ locs.map Prod.fst → w'.position agId = w.position agId

end World

section Moves

variable {w : World}

/-- Agents with a node of their own can be placed. -/
theorem placeable_of_manned (hw : w.Manned) (locs : List (StdString × DPoint)) :
    AllLocationHandler.Placeable w locs := by
  constructor
  · intro agId a pos _ ha
    exact (hw.usable agId a (World.agent_eq_some.mp ha)).movable
  · intro agId agId' a a' ha ha' hnode
    rw [hw.apart agId agId' a a' ha ha' hnode]

/-- The locations put each agent where its location says. -/
theorem moveAgents_moved (hw : w.Manned) (locs : List (StdString × DPoint)) :
    ∃ w', forEach AllLocationHandler.moveAgent (enterLocations {} locs).toList w = .ok () w' ∧
      w.Moved (enterLocations {} locs).toList w' := by
  have hplace := placeable_of_manned hw locs
  obtain ⟨w', hrun⟩ : ∃ w', forEach AllLocationHandler.moveAgent
      (enterLocations {} locs).toList w = .ok () w' := by
    apply moveAgents_ok
    intro loc hloc a ha
    exact (hw.usable loc.1 a ha).movable
  have hplaced : ∀ agId a, w.agent agId = some a →
      w'.position agId = AllLocationHandler.placeAfter w locs agId :=
    fun _ _ ha => AllLocationHandler.position_of_moved hrun hplace ha
  obtain ⟨-, mobility, hsame, rfl⟩ := moveAgents_eq_ok hrun
  refine ⟨_, hrun, ⟨fun _ => rfl, fun node => (hsame node).mpr⟩, rfl, ?_, ?_⟩
  · intro agId pos hmem hsome
    obtain ⟨a, ha⟩ := Option.isSome_iff_exists.mp hsome
    rw [hplaced agId a ha, AllLocationHandler.placeAfter,
      AllLocationHandler.mem_toList_enterLocations.mp hmem]
    rfl
  · intro agId hnot
    have hnone : lastEntry agId locs = none := by
      rw [Option.eq_none_iff_forall_not_mem]
      intro pos hpos
      exact hnot (List.mem_map.mpr
        ⟨(agId, pos), AllLocationHandler.mem_toList_enterLocations.mpr hpos, rfl⟩)
    cases ha : w.agent agId with
    | none =>
      have hagent : World.agent { w with mobility := mobility } agId = none := ha
      rw [World.position, World.position, ha, hagent]
      rfl
    | some a =>
      rw [hplaced agId a ha, AllLocationHandler.placeAfter, hnone]
      rfl

end Moves

namespace RoadRunnerBaseLine

/-! ## The locations of a tick -/

/-- The `all_locations` of a tick as it is parsed. -/
def sentLocations (locations : Std.TreeMap StdString DPoint) : AllLocationsMessage where
  msg_type := str "all_locations"
  agentLocations := enterLocations {} (locations.toList.map fun it => (cString it.1, it.2))

theorem nodup_ids (locations : Std.TreeMap StdString DPoint) :
    (locations.toList.map Prod.fst).Nodup := by
  rw [Std.TreeMap.map_fst_toList_eq_keys]
  exact Std.TreeMap.nodup_keys

theorem mem_ids {locations : Std.TreeMap StdString DPoint} {agId : StdString} :
    agId ∈ locations.toList.map Prod.fst ↔ ∃ pos, locations[agId]? = some pos := by
  rw [Std.TreeMap.map_fst_toList_eq_keys, Std.TreeMap.mem_keys,
    Std.TreeMap.mem_iff_isSome_getElem?, Option.isSome_iff_exists]

/-- Without NULs in the ids the locations are parsed as they were written. -/
theorem sentLocations_getElem? {locations : Std.TreeMap StdString DPoint}
    (h : ∀ agId ∈ locations, 0 ∉ agId) (agId : StdString) :
    (sentLocations locations).agentLocations[agId]? = locations[agId]? := by
  have hcut : locations.toList.map (fun it => (cString it.1, it.2)) = locations.toList := by
    conv_rhs => rw [← List.map_id locations.toList]
    refine List.map_congr_left fun it hit => ?_
    have hmem : it.1 ∈ locations := by
      rw [Std.TreeMap.mem_iff_isSome_getElem?,
        Std.TreeMap.mem_toList_iff_getElem?_eq_some.mp hit]
      rfl
    rw [cString_eq (h it.1 hmem)]
    rfl
  rw [sentLocations, hcut, enterLocations_getElem?]
  apply Option.ext
  intro pos
  rw [Std.TreeMap.getElem?_emptyc, Option.or_none, lastEntry_eq_some (nodup_ids locations),
    Std.TreeMap.mem_toList_iff_getElem?_eq_some]

end RoadRunnerBaseLine

/-! ## Sending to the recipients -/

/-- A send that is asked for. -/
structure Delivery where
  sender : StdString
  recipient : StdString
  data : StdString
  deriving DecidableEq, Repr

/-- The packet went from the sender to the recipient and has the data. -/
structure Sent.Carries (J : Jsoncpp) (d : Delivery) (s : Sent) : Prop where
  sender : s.sender = d.sender
  recipient : s.recipient = d.recipient
  data : ∃ v, J.parse s.packet = some v ∧ v.get (str "data") = .ok (.string d.data)

/-- What a record asks for: one send to each recipient that is registered. -/
def World.deliveries (w : World) (record : TickMulticast) : List Delivery :=
  (record.receiveAgId.filter fun toId => (w.agent toId).isSome).map fun toId =>
    { sender := record.sendAgId, recipient := toId, data := record.mcData }

theorem World.Follows.deliveries {w w' : World} (h : w.Follows w') :
    w'.deliveries = w.deliveries := by
  funext record
  simp only [World.deliveries, h.agent]

section Sends

variable {W : Ns3} {J : Jsoncpp} {w : World}

/-- The loop sends to the recipients in order. -/
theorem sendToRecipients_sent (hJ : J.ReadsBack) (hw : w.Manned) (osMsg : OpaqueSendMessage)
    {sending_agent : Agent} (hsender : w.agent sending_agent.m_AgentId = some sending_agent)
    (toIds : List StdString) :
    ∃ w' made, forEach (OpaqueSendHandler.sendToRecipient W J osMsg sending_agent) toIds w =
        .ok () w' ∧ w.Stays w' ∧ w'.sent = w.sent ++ made ∧
      List.Forall₂ (Sent.Carries J) (w.deliveries
        { sendAgId := sending_agent.m_AgentId, receiveAgId := toIds
          mcData := cString osMsg.data }) made := by
  have hreach : ∀ toId ∈ toIds, ∀ agent, w.agent toId = some agent →
      sending_agent.CanReach agent := fun toId _ agent hagent =>
    (hw.usable _ _ (World.agent_eq_some.mp hsender)).canReach
      (hw.usable _ _ (World.agent_eq_some.mp hagent))
  obtain ⟨w', made, hrun, hfanned⟩ :=
    OpaqueSendHandler.sendToRecipients_fanned (W := W) hJ osMsg hreach
  refine ⟨w', made, hrun, hfanned.stays, hfanned.sent, ?_⟩
  rw [World.deliveries, List.forall₂_map_left_iff]
  refine hfanned.packets.imp fun toId s hs => ?_
  obtain ⟨agent, hagent, hsent⟩ := hs
  exact ⟨hsent.sender, hsent.recipient.trans (hw.named toId agent hagent), _, hsent.body, rfl⟩

end Sends

namespace RoadRunnerBaseLine

/-! ## The records of a tick -/

/-- The `opaque_send` of a record as it is parsed. -/
def sentMessage (record : TickMulticast) : OpaqueSendMessage where
  msg_type := str "opaque_send"
  fromId := str "987654321"
  toIds := record.receiveAgId.map cString
  broadcast := false
  data := cString record.mcData
  format := cString (str "base64escape")
  tech := cString (str "dsrc")

/-- A record as its `opaque_send` reads: the sender is the simulator, and the strings are
cut at their NULs. -/
def asRead (record : TickMulticast) : TickMulticast where
  sendAgId := str "987654321"
  receiveAgId := record.receiveAgId.map cString
  mcData := cString record.mcData

section Records

variable {W : Ns3} {J : Jsoncpp} {w : World}

/-- What the `opaque_send` of a record does: without recipients it is refused. -/
def multicasted (W : Ns3) (J : Jsoncpp) (w : World) (record : TickMulticast) : Option World :=
  if record.receiveAgId = [] then none
  else returned ((Request.opaqueSend (sentMessage record)).act W J w)

/-- What is sent for a record, if an agent has the id of the simulator. -/
def sendsOf (w : World) (record : TickMulticast) : List Delivery :=
  if (w.agent (str "987654321")).isSome then w.deliveries (asRead record) else []

theorem sendsOf_follows {w' : World} (h : w.Follows w') : sendsOf w' = sendsOf w := by
  funext record
  rw [sendsOf, sendsOf, h.agent, h.deliveries]

theorem multicasted_sent (hJ : J.ReadsBack) (hw : w.Manned) {record : TickMulticast}
    (hne : record.receiveAgId ≠ []) :
    ∃ w' made, multicasted W J w record = some w' ∧ w.Stays w' ∧ w'.sent = w.sent ++ made ∧
      List.Forall₂ (Sent.Carries J) (sendsOf w record) made := by
  rw [multicasted, if_neg hne, sendsOf]
  have hget := Agent.getAgent_apply (str "987654321") w
  cases hagent : w.agent (str "987654321") with
  | none =>
    have hrun : (Request.opaqueSend (sentMessage record)).act W J w =
        .ok () (Agent.touch w (str "987654321")) := by
      rw [World.agent] at hagent
      rw [Request.act, show (sentMessage record).fromId = str "987654321" from rfl, bind_ok hget,
        hagent]
      rfl
    refine ⟨_, [], returned_unit_eq_some.mpr hrun, World.touch_stays _ _, ?_, .nil⟩
    rw [Agent.touch_sent, List.append_nil]
  | some sending_agent =>
    have hid := hw.named _ _ hagent
    have hsender : w.agent sending_agent.m_AgentId = some sending_agent := by
      rw [hid, hagent]
    obtain ⟨w', made, hrun, hstays, hsent, hall⟩ :=
      sendToRecipients_sent (W := W) hJ hw (sentMessage record) hsender (sentMessage record).toIds
    have hact : (Request.opaqueSend (sentMessage record)).act W J w = .ok () w' := by
      rw [World.agent] at hagent
      rw [Request.act, show (sentMessage record).fromId = str "987654321" from rfl, bind_ok hget,
        hagent, Agent.touch_of_mem (World.agent_eq_some.mp (hid ▸ hsender))]
      exact hrun
    refine ⟨w', made, returned_unit_eq_some.mpr hact, hstays, hsent, ?_⟩
    rw [hid] at hall
    have hdata : cString (sentMessage record).data = cString record.mcData :=
      cString_eq (not_mem_cString _)
    rw [hdata] at hall
    exact hall

/-- The records are sent in line order, unless one has no recipient. -/
theorem multicasts_sent (hJ : J.ReadsBack) (hw : w.Manned) {records : List TickMulticast}
    (hne : ∀ record ∈ records, record.receiveAgId ≠ []) :
    ∃ w' made, Transition.run (multicasted W J) w records = some w' ∧ w.Stays w' ∧
      w'.sent = w.sent ++ made ∧
      List.Forall₂ (Sent.Carries J) (records.flatMap (sendsOf w)) made := by
  induction records generalizing w with
  | nil => exact ⟨w, [], rfl, World.Stays.refl w, (List.append_nil _).symm, .nil⟩
  | cons record records ih =>
    obtain ⟨hhead, hrest⟩ := List.forall_mem_cons.mp hne
    obtain ⟨w₁, made₁, hstep, hstays, hsent, hall⟩ := multicasted_sent (W := W) hJ hw hhead
    obtain ⟨w', made, hrun, hstays', hsent', hall'⟩ := ih (hw.follows hstays.follows) hrest
    refine ⟨w', made₁ ++ made, Transition.run_cons_eq_some.mpr ⟨w₁, hstep, hrun⟩,
      hstays.trans hstays', ?_, ?_⟩
    · rw [hsent', hsent, List.append_assoc]
    · rw [sendsOf_follows hstays.follows] at hall'
      rw [List.flatMap_cons]
      exact List.rel_append hall hall'

theorem recipients_of_run {w' : World} {records : List TickMulticast}
    (h : Transition.run (multicasted W J) w records = some w') :
    ∀ record ∈ records, record.receiveAgId ≠ [] := by
  induction records generalizing w with
  | nil => simp
  | cons record records ih =>
    obtain ⟨w₁, hstep, hrest⟩ := Transition.run_cons_eq_some.mp h
    refine List.forall_mem_cons.mpr ⟨fun hnil => ?_, ih hrest⟩
    rw [multicasted, if_pos hnil] at hstep
    cases hstep

end Records

end RoadRunnerBaseLine

/-! ## The messages of the bundle -/

/-- The number names this message of the bundle. -/
structure Received.Names (m : Received) (msg : Message) : Prop where
  base : m.messages.getBaseMessage m.msgNumber = .ok { msg_type := msg.msg_type }
  json : m.messages.getJsonMessage m.msgNumber = .ok msg.value

theorem queuedMessages_names {c : MessageConglomerate} {msgs : List Message}
    (hc : c.Holds true msgs) : List.Forall₂ Received.Names (queuedMessages [c]) msgs := by
  have hnumbers : queuedMessages [c] =
      (List.range msgs.length).map fun k : Nat => (⟨c, (k : Int)⟩ : Received) := by
    rw [queuedMessages, List.flatMap_cons, List.flatMap_nil, List.append_nil,
      MessageConglomerate.messageNumbers, show NEW_BUNDLES = true from rfl, hc.count,
      Int.toNat_natCast, List.map_map]
    rfl
  rw [hnumbers, List.forall₂_map_left_iff, List.forall₂_iff_get]
  refine ⟨List.length_range, fun k hk hk' => ?_⟩
  have hget : msgs[k]? = some (msgs.get ⟨k, hk'⟩) := List.getElem?_eq_getElem hk'
  have hnumber : (List.range msgs.length).get ⟨k, hk⟩ = k := List.getElem_range hk
  rw [hnumber]
  exact ⟨hc.base k _ hget, hc.json k _ hget⟩

namespace RoadRunnerBaseLine

section Handled

variable {W : Ns3} {J : Jsoncpp} {w w' : World} {tick : TimeTick} {m : Received}

/-- What the `all_locations` of a tick does, if there is one. -/
def located (locations : Std.TreeMap StdString DPoint) (w : World) : Option World :=
  if locations.isEmpty then some w
  else returned (forEach AllLocationHandler.moveAgent
    (sentLocations locations).agentLocations.toList w)

theorem handled_locations (hempty : tick.update_agent.isEmpty = false)
    (hm : m.Names (locationsMessage J tick.update_agent)) :
    handled W J w m = located tick.update_agent w := by
  have hjson := hm.json
  rw [locationsMessage, writtenMessage, allLocations_eq hempty, cut_locationsOf] at hjson
  have hparses : Request.Parses J m (.allLocations (sentLocations tick.update_agent)) :=
    ⟨hm.base, parseAllLocations_made hm.base hjson⟩
  rw [handled, hparses.handleMessage, located, hempty, if_neg Bool.false_ne_true]
  rfl

theorem handled_multicast {record : TickMulticast} (hm : m.Names (multicastMessage J record)) :
    handled W J w m = multicasted W J w record := by
  have hbase : m.messages.getBaseMessage m.msgNumber =
      .ok { msg_type := str "opaque_send" } := hm.base
  have hjson : m.messages.getJsonMessage m.msgNumber =
      .ok (opaqueSend (record.receiveAgId.map cString) (cString record.mcData)
        (cString (str "base64escape")) (cString (str "dsrc"))) := hm.json
  by_cases hnil : record.receiveAgId = []
  · rw [hnil, List.map_nil] at hjson
    have hparse := parseOpaqueSend_made_nil (J := J) hbase hjson
    have hhandler : HandlerLookup.getHandler (str "opaque_send") = .ok .OpaqueSendHandler := rfl
    rw [multicasted, if_pos hnil, handled, Request.handleMessage_of_handler hbase hhandler,
      Handler.handle, OpaqueSendHandler.handle, hparse]
    rfl
  · have hparses : Request.Parses J m (.opaqueSend (sentMessage record)) :=
      ⟨hbase, parseOpaqueSend_made (by simpa using hnil) hbase hjson⟩
    rw [multicasted, if_neg hnil, handled, hparses.handleMessage]

theorem run_handled_multicasts {ms : List Received} {records : List TickMulticast}
    (h : List.Forall₂ Received.Names ms (records.map (multicastMessage J))) :
    Transition.run (handled W J) w ms = Transition.run (multicasted W J) w records := by
  induction records generalizing ms w with
  | nil =>
    cases h
    rfl
  | cons record records ih =>
    cases h with
    | cons hm hms =>
      rw [Transition.run_cons, Transition.run_cons, handled_multicast hm]
      exact congrArg _ (funext fun w₁ => ih hms)

/-- The messages of a tick: the locations first, if there are any, then the records. -/
theorem run_handled_tick {ms : List Received}
    (h : List.Forall₂ Received.Names ms (tickMessages J tick)) :
    Transition.run (handled W J) w ms = (located tick.update_agent w).bind fun w₁ =>
      Transition.run (multicasted W J) w₁ tick.multicast := by
  rw [tickMessages] at h
  by_cases hempty : tick.update_agent.isEmpty = true
  · rw [if_pos hempty, List.nil_append] at h
    rw [located, if_pos hempty, Option.bind_some, run_handled_multicasts h]
  · rw [if_neg hempty, List.singleton_append] at h
    rw [Bool.not_eq_true] at hempty
    cases h with
    | cons hm hms =>
      rw [Transition.run_cons, handled_locations hempty hm]
      exact congrArg _ (funext fun w₁ => run_handled_multicasts hms)

/-- The locations of a tick are always handled. -/
theorem located_moved (hw : w.Manned) (locations : Std.TreeMap StdString DPoint) :
    ∃ w', located locations w = some w' ∧
      w.Moved (sentLocations locations).agentLocations.toList w' := by
  by_cases hempty : locations.isEmpty = true
  · have hnil : (sentLocations locations).agentLocations.toList = [] := by
      rw [← Std.TreeMap.isEmpty_toList, List.isEmpty_iff] at hempty
      rw [sentLocations, hempty]
      rfl
    refine ⟨w, by rw [located, if_pos hempty], World.Follows.refl w, rfl, ?_, fun _ _ => rfl⟩
    rw [hnil]
    intro _ _ hmem
    cases hmem
  · obtain ⟨w', hrun, hmoved⟩ := moveAgents_moved hw
      (locations.toList.map fun it => (cString it.1, it.2))
    exact ⟨w', (if_neg hempty).trans (returned_unit_eq_some.mpr hrun), hmoved⟩

/-- The message is an `all_locations`. -/
def IsLocations (m : Received) : Prop :=
  m.messages.getBaseMessage m.msgNumber = .ok { msg_type := str "all_locations" }

/-- From the moment when the locations of a tick are handled nobody moves any more. -/
theorem located_stays (hJ : J.ReadsBack) (hw : w.Manned) {queued ms : List Received}
    (h : List.Forall₂ Received.Names queued (tickMessages J tick)) (hms : ms <+: queued)
    (hall : ∀ m ∈ queued, IsLocations m → m ∈ ms)
    (hrun : Transition.run (handled W J) w ms = some w') :
    ∃ w₁, located tick.update_agent w = some w₁ ∧ w₁.Stays w' := by
  obtain ⟨w₁, hlocated, hmoved⟩ := located_moved hw tick.update_agent
  refine ⟨w₁, hlocated, ?_⟩
  have hrecords : ∀ (ms : List Received) (queued : List Received),
      List.Forall₂ Received.Names queued (tick.multicast.map (multicastMessage J)) →
        ms <+: queued → Transition.run (handled W J) w₁ ms = some w' → w₁.Stays w' := by
    intro ms queued hqueued hpre hrun
    obtain ⟨k, hk⟩ : ∃ k, ms = queued.take k := ⟨_, List.prefix_iff_eq_take.mp hpre⟩
    have htake := List.forall₂_take k hqueued
    rw [← hk, ← List.map_take] at htake
    rw [run_handled_multicasts htake] at hrun
    obtain ⟨w₂, made, hrun', hstays, -⟩ := multicasts_sent (W := W) hJ
      (hw.follows hmoved.follows) (recipients_of_run hrun)
    rw [hrun] at hrun'
    cases hrun'
    exact hstays
  rw [tickMessages] at h
  by_cases hempty : tick.update_agent.isEmpty = true
  · rw [if_pos hempty, List.nil_append] at h
    rw [located, if_pos hempty] at hlocated
    cases hlocated
    exact hrecords ms queued h hms hrun
  · rw [if_neg hempty, List.singleton_append] at h
    rw [Bool.not_eq_true] at hempty
    cases h with
    | @cons m _ rest _ hm hrest =>
      cases ms with
      | nil => cases hall m List.mem_cons_self hm.base
      | cons m' ms =>
        obtain ⟨rfl, hpre⟩ := List.cons_prefix_cons.mp hms
        rw [Transition.run_cons, handled_locations hempty hm, hlocated] at hrun
        exact hrecords ms rest hrest hpre hrun

end Handled

end RoadRunnerBaseLine
end Sm4ns3
