import Sm4ns3.Verify.Multicasts

/-!
# Recorded positions

Once the locations of a tick are handled, every agent is where the last update line of
the tick's time puts it, and an agent without such a line is where it was
(`positions_as_recorded`).
-/

namespace Sm4ns3

open Bytes Cpp Call JsonParser MessageConglomerate
open Broker (textOf)

namespace RoadRunnerBaseLine

/-- The JSON layer preserves the coordinates of every tick, whose locations fit one message
and whose messages can be counted. -/
structure LocationsFit (J : Jsoncpp) (tick : TimeTick) : Prop where
  preserved : tick.update_agent.isEmpty = false → J.PreservesLocations tick.update_agent
  short : tick.update_agent.isEmpty = false →
    (textOf J (allLocations tick.update_agent)).length < 2 ^ 24
  count : (tickMessages J tick).length < 2 ^ 31

section Positions

variable {W : Ns3} {J : Jsoncpp} {r rq : RoadRunnerBaseLine} {w w' : World} {tick : TimeTick}
  {T : UInt32} {queued : List Received}

theorem LocationsFit.decodes (hJ : J.ReadsBack) (htr : J.RefusesTruncated)
    (h : LocationsFit J tick) : Decodes J tick :=
  decodes_of_fits (tickMessages_wellFormed hJ h.preserved) fun _ _ hrun =>
    fits_of_deserialize htr h.count h.short hrun

/-- The locations of the tick that is held put every agent where its last update line says. -/
theorem position_of_located {text : StdString} (hr : r.Replaying) (hnamed : NamedIn text r)
    (htext : 0 ∉ text) (htick : r.trace_time_ticks[T]? = some tick)
    (hfirst : TraceLine.TickFirst T r.parsed)
    (hlocated : located tick.update_agent r.world = some w)
    {agId : StdString} {a : Agent} (ha : r.world.agent agId = some a) :
    w.position agId = (TraceLine.lastUpdate T agId r.parsed).elim (r.world.position agId)
      (fun pos => some (World.placeOf pos)) := by
  have hheld : ∀ id, tick.update_agent[id]? = TraceLine.lastUpdate T id r.parsed := by
    intro id
    rw [← hfirst.lastUpdate_eq, ← hr.stored.update, htick]
    rfl
  have hnul : ∀ id ∈ tick.update_agent, 0 ∉ id := by
    intro id hid hzero
    obtain ⟨pos, hpos⟩ := Option.isSome_iff_exists.mp
      (Std.TreeMap.mem_iff_isSome_getElem?.mp hid)
    rw [hheld] at hpos
    exact htext (hnamed T id pos (TraceLine.mem_of_lastUpdate hpos) hzero)
  obtain ⟨w₁, hlocated', hmoved⟩ := located_moved hr.manned tick.update_agent
  rw [hlocated] at hlocated'
  cases hlocated'
  have hparsed := sentLocations_getElem? hnul agId
  rw [hheld] at hparsed
  cases hpos : TraceLine.lastUpdate T agId r.parsed with
  | some pos =>
    rw [hpos] at hparsed
    refine hmoved.named agId pos (Std.TreeMap.mem_toList_iff_getElem?_eq_some.mpr hparsed) ?_
    rw [ha]
    rfl
  | none =>
    refine hmoved.others agId ?_
    rw [mem_ids, hparsed, hpos]
    simp

/-- Handling goes as far as the `all_locations` of the tick, if there is one. -/
def LocationsHandled (queued handledFirst : List Received) : Prop :=
  handledFirst <+: queued ∧ ∀ m ∈ queued, IsLocations m → m ∈ handledFirst

theorem not_isLocations_multicast {m : Received} {record : TickMulticast}
    (hm : m.Names (multicastMessage J record)) : ¬ IsLocations m := by
  intro h
  have hbase : m.messages.getBaseMessage m.msgNumber =
      .ok { msg_type := str "opaque_send" } := hm.base
  rw [IsLocations, hbase] at h
  have htype := congrArg MessageBase.msg_type (Except.ok.inj h)
  exact absurd htype (by decide)

/-- Handling gets that far. -/
theorem exists_locationsHandled (hw : w.Manned)
    (h : List.Forall₂ Received.Names queued (tickMessages J tick)) :
    ∃ ms w', LocationsHandled queued ms ∧ Transition.run (handled W J) w ms = some w' := by
  have hrecords : ∀ rest, List.Forall₂ Received.Names rest
      (tick.multicast.map (multicastMessage J)) → ∀ m ∈ rest, ¬ IsLocations m := by
    intro rest hrest
    rw [List.forall₂_map_right_iff] at hrest
    have hboth := hrest.imp fun m record hm => And.intro (not_isLocations_multicast hm) hm
    exact ((List.forall₂_and_left _ _).mp hboth).1
  rw [tickMessages] at h
  by_cases hempty : tick.update_agent.isEmpty = true
  · rw [if_pos hempty, List.nil_append] at h
    exact ⟨[], w, ⟨List.nil_prefix, fun m hm hloc => absurd hloc (hrecords queued h m hm)⟩, rfl⟩
  · rw [if_neg hempty, List.singleton_append] at h
    rw [Bool.not_eq_true] at hempty
    cases h with
    | @cons m _ rest _ hm hrest =>
      obtain ⟨w', hlocated, -⟩ := located_moved hw tick.update_agent
      refine ⟨[m], w', ⟨?_, fun m' hm' hloc => ?_⟩, ?_⟩
      · exact List.cons_prefix_cons.mpr ⟨rfl, List.nil_prefix⟩
      · rcases List.mem_cons.mp hm' with rfl | hm'
        · exact List.mem_cons_self
        · exact absurd hloc (hrecords rest hrest m' hm')
      · rw [Transition.run_cons, handled_locations hempty hm, hlocated]
        rfl

/-- The bundle's messages are handled as far as its `all_locations`, and from then on every
agent is where its last update line of the time says, or where it was before. -/
def MovesAsRecorded (W : Ns3) (J : Jsoncpp) (r rq : RoadRunnerBaseLine) (T : UInt32) : Prop :=
  (∃ ms w, LocationsHandled (queuedMessages rq.m_incoming.messageList) ms ∧
    Transition.run (handled W J) r.world ms = some w) ∧
  ∀ ms w, LocationsHandled (queuedMessages rq.m_incoming.messageList) ms →
    Transition.run (handled W J) r.world ms = some w →
      ∀ agId a, r.world.agent agId = some a →
        w.position agId = (TraceLine.lastUpdate T agId r.parsed).elim (r.world.position agId)
          (fun pos => some (World.placeOf pos))

/-- Every tick that the run reaches moves the agents as the file says. -/
theorem positions_as_recorded (hJ : J.ReadsBack) (htr : J.RefusesTruncated) {B : LexicalCast}
    {text : StdString} (htext : 0 ∉ text) {protocol : StdString} {nof_agents : UInt32}
    {dc b : Bool} {r₀ : RoadRunnerBaseLine}
    (hstart : start B W (some text) (create protocol nof_agents dc false) = .ok b r₀)
    (hticks : ∀ (T : UInt32) tick, r₀.trace_time_ticks[T]? = some tick → LocationsFit J tick)
    {steps : List Unit} (hrun : Transition.run (simulate W J) r₀ steps = some r)
    (hcurr : r.currTick = some T) (hfirst : TraceLine.TickFirst T r.parsed) {u : Unit}
    (hpush : pushToQueue J r = .ok u rq) : MovesAsRecorded W J r rq T := by
  have hdecodes : ∀ (T : UInt32) tick, r₀.trace_time_ticks[T]? = some tick → Decodes J tick :=
    fun T tick htick => (hticks T tick htick).decodes hJ htr
  obtain ⟨hready, text', htext', hnamed⟩ := replaying_of_start hstart
  cases htext'
  obtain ⟨hr, hsame, -⟩ := replaying_of_run hJ hready hdecodes hrun
  rw [← hsame.trace_time_ticks] at hdecodes
  obtain ⟨tick, htick, -, -, hnames⟩ := names_of_pushToQueue hr hdecodes hcurr hpush
  refine ⟨exists_locationsHandled hr.manned hnames, fun ms w hms hhandled agId a ha => ?_⟩
  obtain ⟨w₁, hlocated, hstays⟩ := located_stays hJ hr.manned hnames hms.1 hms.2 hhandled
  rw [hstays.position]
  have hnamed' : NamedIn text r := by
    intro T id pos hmem
    rw [hsame.parsed] at hmem
    exact hnamed T id pos hmem
  exact position_of_located hr hnamed' htext htick hfirst hlocated ha

end Positions

instance {J : Jsoncpp} {tick : TimeTick} : Decidable (LocationsFit J tick) :=
  decidable_of_iff ((tick.update_agent.isEmpty = false → J.PreservesLocations tick.update_agent) ∧
    (tick.update_agent.isEmpty = false →
      (textOf J (allLocations tick.update_agent)).length < 2 ^ 24) ∧
    (tickMessages J tick).length < 2 ^ 31)
    ⟨fun h => ⟨h.1, h.2.1, h.2.2⟩, fun h => ⟨h.preserved, h.short, h.count⟩⟩

theorem positions_as_recorded_chat :
    ∃ r rq, Transition.run (simulate Ns3.reference Jsoncpp.reference) (startedOn chatTrace 2) [()] =
        some r ∧ pushToQueue Jsoncpp.reference r = .ok () rq ∧
      MovesAsRecorded Ns3.reference Jsoncpp.reference r rq 10 := by
  have hstart : value (start LexicalCast.reference Ns3.reference (some (linesOf chatTrace))
      (create (str "80211b") 2 false false)) = some true := by decide +kernel
  have hstate : (Transition.run (simulate Ns3.reference Jsoncpp.reference)
      (startedOn chatTrace 2) [()]).map (fun r => (r.currTick, value (pushToQueue
        Jsoncpp.reference r), decide (TraceLine.TickFirst 10 r.parsed))) =
          some (some 10, some (), true) := by decide +kernel
  obtain ⟨r, hrun, hstate⟩ := Option.map_eq_some_iff.mp hstate
  obtain ⟨hcurr, hstate⟩ := Prod.ext_iff.mp hstate
  obtain ⟨hpush, hfirst⟩ := Prod.ext_iff.mp hstate
  have hfit : ∀ (T : UInt32) tick, (startedOn chatTrace 2).trace_time_ticks[T]? = some tick →
      LocationsFit Jsoncpp.reference tick :=
    forall_ticks (by decide +kernel)
  exact ⟨r, _, hrun, eq_ok_of_value hpush, positions_as_recorded Jsoncpp.reference_readsBack
    Jsoncpp.reference_refusesTruncated (by decide +kernel) (eq_ok_of_value hstart) hfit hrun hcurr
    (of_decide_eq_true hfirst) (eq_ok_of_value hpush)⟩

end RoadRunnerBaseLine
end Sm4ns3
