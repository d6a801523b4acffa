import Sm4ns3.Verify.Replay

/-!
# Recorded multicasts

The multicast lines of a time are to be sent when its tick is replayed. Three things
come between: a record without recipients ends the handling of the tick, the sender of
every record is replaced by the simulator, and a bare tick line clears the records that
were read before it (`multicasts_delivered_iff`).
-/

namespace Sm4ns3

open Bytes Cpp Call JsonParser MessageConglomerate
open Broker (textOf)

/-- A packet carries one delivery. -/
theorem Sent.Carries.unique {J : Jsoncpp} {d d' : Delivery} {s : Sent} (h : s.Carries J d)
    (h' : s.Carries J d') : d = d' := by
  obtain ⟨v, hparse, hdata⟩ := h.data
  obtain ⟨v', hparse', hdata'⟩ := h'.data
  rw [hparse] at hparse'
  cases hparse'
  rw [hdata] at hdata'
  have hsame : d.data = d'.data := Json.string.inj (Except.ok.inj hdata')
  obtain ⟨sender, recipient, data⟩ := d
  obtain ⟨sender', recipient', data'⟩ := d'
  obtain rfl : data = data' := hsame
  obtain rfl : sender = sender' := h.sender.symm.trans h'.sender
  obtain rfl : recipient = recipient' := h.recipient.symm.trans h'.recipient
  rfl

namespace RoadRunnerBaseLine

/-- The tick that is replayed sends what the recorded lines of its time ask for, in line
order, and nothing else. -/
def Delivers (W : Ns3) (J : Jsoncpp) (r : RoadRunnerBaseLine) (T : UInt32) : Prop :=
  ∃ r' made, processTick W J r = .ok () r' ∧ r'.world.sent = r.world.sent ++ made ∧
    List.Forall₂ (Sent.Carries J)
      ((TraceLine.multicasts T r.parsed).flatMap r.world.deliveries) made

/-- The record with the simulator as its sender. -/
def fromSimulator (record : TickMulticast) : TickMulticast :=
  { record with sendAgId := str "987654321" }

/-- The records that the tick still holds have recipients; a record of the time with a
registered recipient is from the simulator; and the records held, cut at their NULs, name
the registered recipients and the data that all records of the time name. -/
structure Deliverable (w : World) (T : UInt32) (ps : List TraceLine) : Prop where
  recipients : ∀ record ∈ TraceLine.multicasts T (TraceLine.sinceTick T ps), record.receiveAgId ≠ []
  sender : ∀ record ∈ TraceLine.multicasts T ps, w.deliveries record ≠ [] →
    record.sendAgId = str "987654321"
  kept : (w.agent (str "987654321")).isSome = true →
    (TraceLine.multicasts T (TraceLine.sinceTick T ps)).flatMap
        (fun record => w.deliveries (asRead record)) =
      (TraceLine.multicasts T ps).flatMap fun record => w.deliveries (fromSimulator record)

section Deliveries

variable {W : Ns3} {J : Jsoncpp} {r : RoadRunnerBaseLine} {w : World} {tick : TimeTick}
  {T : UInt32}

/-- Processing a tick within the limits. -/
theorem processTick_ok (hr : r.Replaying) (hcurr : r.currTick = some T)
    (htick : r.trace_time_ticks[T]? = some tick)
    (hmsgs : ∀ m ∈ tickMessages J tick, m.WellFormed J) (hfits : TickFits J tick) (w' : World) :
    (∃ r', processTick W J r = .ok () r' ∧ r'.world = w') ↔
      (located tick.update_agent r.world).bind (fun w₁ =>
        Transition.run (multicasted W J) w₁ tick.multicast) = some w' := by
  obtain ⟨c, hholds, hpush⟩ := pushToQueue_ok (second_eq_ok.mpr ⟨T, hcurr, htick⟩) hmsgs hfits
  have hqueue : (r.m_incoming.push c).messageList = [c] := by
    rw [ThreadSafeQueue.push, hr.queue, List.nil_append]
  have hnames : List.Forall₂ Received.Names (queuedMessages (r.m_incoming.push c).messageList)
      (tickMessages J tick) := by
    rw [hqueue]
    exact queuedMessages_names hholds
  rw [← run_handled_tick hnames, processTick, bind_ok hpush]
  constructor
  · intro h
    obtain ⟨r', hprocess, rfl⟩ := h
    obtain ⟨b, hbroker, rfl⟩ := zoom_eq_ok hprocess
    exact (processQueue_run (b := { r.toBroker with m_incoming := r.m_incoming.push c }) _).mp
      ⟨b, hbroker, rfl⟩
  · intro h
    obtain ⟨b, hprocess, hb⟩ := (processQueue_run (b :=
      { r.toBroker with m_incoming := r.m_incoming.push c }) _).mpr h
    exact ⟨_, zoom_ok hprocess, hb⟩

/-- A tick is processed when every record has a recipient, and then the records are sent. -/
theorem delivers_iff_sends (hJ : J.ReadsBack) (hr : r.Replaying) (hcurr : r.currTick = some T)
    (htick : r.trace_time_ticks[T]? = some tick)
    (hmsgs : ∀ m ∈ tickMessages J tick, m.WellFormed J) (hfits : TickFits J tick) :
    Delivers W J r T ↔ (∀ record ∈ tick.multicast, record.receiveAgId ≠ []) ∧
      tick.multicast.flatMap (sendsOf r.world) =
        (TraceLine.multicasts T r.parsed).flatMap r.world.deliveries := by
  obtain ⟨w₁, hlocated, hmoved⟩ := located_moved hr.manned tick.update_agent
  have hprocess := fun w' => processTick_ok (W := W) hr hcurr htick hmsgs hfits w'
  simp only [hlocated, Option.bind_some] at hprocess
  -- what is sent when every record has a recipient
  have hsends : (∀ record ∈ tick.multicast, record.receiveAgId ≠ []) →
      ∃ r' made, processTick W J r = .ok () r' ∧ r'.world.sent = r.world.sent ++ made ∧
        List.Forall₂ (Sent.Carries J) (tick.multicast.flatMap (sendsOf r.world)) made := by
    intro hne
    obtain ⟨w', made, hrun, -, hsent, hall⟩ :=
      multicasts_sent (W := W) hJ (hr.manned.follows hmoved.follows) hne
    obtain ⟨r', hprocessed, rfl⟩ := (hprocess w').mpr hrun
    rw [sendsOf_follows hmoved.follows] at hall
    rw [hmoved.sent] at hsent
    exact ⟨r', made, hprocessed, hsent, hall⟩
  constructor
  · intro h
    obtain ⟨r', made, hprocessed, hsent, hall⟩ := h
    have hne := recipients_of_run ((hprocess r'.world).mp ⟨r', hprocessed, rfl⟩)
    refine ⟨hne, ?_⟩
    obtain ⟨r'', made', hprocessed', hsent', hall'⟩ := hsends hne
    rw [hprocessed] at hprocessed'
    cases hprocessed'
    rw [hsent] at hsent'
    obtain rfl := List.append_cancel_left hsent'
    exact List.left_unique_forall₂' (fun _ _ _ hd hd' => hd.unique hd') hall' hall
  · intro h
    rw [Delivers, ← h.2]
    exact hsends h.1

theorem deliveries_ne_nil_iff {record : TickMulticast} :
    w.deliveries record ≠ [] ↔ ∃ toId ∈ record.receiveAgId, (w.agent toId).isSome = true := by
  rw [World.deliveries, Ne, List.map_eq_nil_iff, List.filter_eq_nil_iff]
  push Not
  rfl

theorem deliveries_fromSimulator {record : TickMulticast}
    (h : w.deliveries record ≠ [] → record.sendAgId = str "987654321") :
    w.deliveries record = w.deliveries (fromSimulator record) := by
  by_cases hnil : w.deliveries record = []
  · have hnil' : w.deliveries (fromSimulator record) = [] := by
      by_contra hne
      have hlisted := deliveries_ne_nil_iff.mp hne
      have hasked : w.deliveries record ≠ [] := deliveries_ne_nil_iff.mpr hlisted
      exact hasked hnil
    rw [hnil, hnil']
  · rw [fromSimulator, ← h hnil]

/-- What is sent is what is asked for. -/
theorem sends_eq_iff {stored all : List TickMulticast}
    (hstaffed : ∀ record ∈ all, (w.agent record.sendAgId).isSome = true) :
    stored.flatMap (sendsOf w) = all.flatMap w.deliveries ↔
      (∀ record ∈ all, w.deliveries record ≠ [] → record.sendAgId = str "987654321") ∧
        ((w.agent (str "987654321")).isSome = true →
          stored.flatMap (fun record => w.deliveries (asRead record)) =
            all.flatMap fun record => w.deliveries (fromSimulator record)) := by
  have hsends : (w.agent (str "987654321")).isSome = true → sendsOf w =
      fun record => w.deliveries (asRead record) := by
    intro hsome
    funext record
    rw [sendsOf, if_pos hsome]
  constructor
  · intro h
    have hsender : ∀ record ∈ all, w.deliveries record ≠ [] →
        record.sendAgId = str "987654321" := by
      intro record hmem hne
      obtain ⟨d, hd⟩ := List.exists_mem_of_ne_nil _ hne
      have hsent : d ∈ stored.flatMap (sendsOf w) := by
        rw [h]
        exact List.mem_flatMap.mpr ⟨record, hmem, hd⟩
      obtain ⟨other, -, hd'⟩ := List.mem_flatMap.mp hsent
      obtain ⟨toId, -, rfl⟩ := List.mem_map.mp hd
      rw [sendsOf] at hd'
      split at hd'
      · obtain ⟨toId', -, heq⟩ := List.mem_map.mp hd'
        exact (congrArg Delivery.sender heq).symm
      · cases hd'
    refine ⟨hsender, fun hsome => ?_⟩
    rw [← hsends hsome, h]
    exact List.flatMap_congr fun record hmem => deliveries_fromSimulator (hsender record hmem)
  · intro h
    obtain ⟨hsender, hkept⟩ := h
    by_cases hsome : (w.agent (str "987654321")).isSome = true
    · rw [hsends hsome, hkept hsome]
      exact List.flatMap_congr fun record hmem =>
        (deliveries_fromSimulator (hsender record hmem)).symm
    · have hnone : stored.flatMap (sendsOf w) = [] := by
        rw [List.flatMap_eq_nil_iff]
        intro record _
        rw [sendsOf, if_neg hsome]
      have hnone' : all.flatMap w.deliveries = [] := by
        rw [List.flatMap_eq_nil_iff]
        intro record hmem
        by_contra hne
        rw [← hsender record hmem hne] at hsome
        exact hsome (hstaffed record hmem)
      rw [hnone, hnone']

theorem mem_parsed_of_multicasts {record : TickMulticast} {ps : List TraceLine}
    (h : record ∈ TraceLine.multicasts T ps) : .multicast T record ∈ ps := by
  obtain ⟨p, hp, hat⟩ := List.mem_filterMap.mp h
  cases p with
  | multicast time record' =>
    simp only [TraceLine.multicastAt, Option.ite_none_right_eq_some, Option.some.injEq] at hat
    obtain ⟨rfl, rfl⟩ := hat
    exact hp
  | _ => cases hat

/-- A tick that is replayed delivers its records exactly when they are deliverable. -/
theorem delivers_iff (hJ : J.ReadsBack) (hr : r.Replaying) (hcurr : r.currTick = some T)
    (hticks : ∀ (T : UInt32) tick, r.trace_time_ticks[T]? = some tick → TickFits J tick ∧
      (tick.update_agent.isEmpty = false → J.PreservesLocations tick.update_agent)) :
    Delivers W J r T ↔ Deliverable r.world T r.parsed := by
  obtain ⟨tick, htick⟩ := Option.isSome_iff_exists.mp
    (Std.TreeMap.mem_iff_isSome_getElem?.mp (hr.current T hcurr))
  obtain ⟨hfits, hcoords⟩ := hticks T tick htick
  have hstored : tick.multicast = TraceLine.multicasts T (TraceLine.sinceTick T r.parsed) := by
    rw [← hr.stored.multicast, htick]
    rfl
  have hstaffed : ∀ record ∈ TraceLine.multicasts T r.parsed,
      (r.world.agent record.sendAgId).isSome = true := by
    intro record hmem
    have hlimit := hr.stored.kept _ (mem_parsed_of_multicasts hmem) record.sendAgId rfl
    obtain ⟨a, ha⟩ := hr.staffed _ hlimit
    rw [ha]
    rfl
  rw [delivers_iff_sends hJ hr hcurr htick (tickMessages_wellFormed hJ hcoords) hfits, hstored,
    sends_eq_iff hstaffed]
  constructor
  · intro h
    exact ⟨h.1, h.2.1, h.2.2⟩
  · intro h
    exact ⟨h.recipients, h.sender, h.kept⟩

/-- Without NULs, the records held are all records of the time when no line before the last
bare tick line named a registered recipient. -/
theorem kept_iff {ps : List TraceLine} (hnul : ∀ record ∈ TraceLine.multicasts T ps,
    (∀ toId ∈ record.receiveAgId, 0 ∉ toId) ∧ 0 ∉ record.mcData) :
    (TraceLine.multicasts T (TraceLine.sinceTick T ps)).flatMap
        (fun record => w.deliveries (asRead record)) =
      ((TraceLine.multicasts T ps).flatMap fun record => w.deliveries (fromSimulator record)) ↔
    ∀ pre, ps = pre ++ .tick T :: TraceLine.sinceTick T ps →
      ∀ record ∈ TraceLine.multicasts T pre, w.deliveries record = [] := by
  have hread : ∀ record ∈ TraceLine.multicasts T ps, asRead record = fromSimulator record := by
    intro record hmem
    obtain ⟨hids, hdata⟩ := hnul record hmem
    rw [asRead, fromSimulator, map_cString_eq_iff.mpr hids, cString_eq hdata]
  have hnone : ∀ record, w.deliveries (fromSimulator record) = [] ↔ w.deliveries record = [] := by
    intro record
    simp only [World.deliveries, fromSimulator, List.map_eq_nil_iff]
  rcases TraceLine.exists_sinceTick T ps with hall | ⟨pre, hpre⟩
  · -- no bare tick line: every record is held
    constructor
    · intro _ pre hpre
      rw [hall] at hpre
      have hlength := congrArg List.length hpre
      simp only [List.length_append, List.length_cons] at hlength
      omega
    · intro _
      rw [hall]
      exact List.flatMap_congr fun record hmem => by rw [hread record hmem]
  · have hsplit : TraceLine.multicasts T ps =
        TraceLine.multicasts T pre ++ TraceLine.multicasts T (TraceLine.sinceTick T ps) := by
      conv_lhs => rw [hpre]
      rw [TraceLine.multicasts, List.filterMap_append]
      rfl
    have hheld : (TraceLine.multicasts T (TraceLine.sinceTick T ps)).flatMap
          (fun record => w.deliveries (asRead record)) =
        (TraceLine.multicasts T (TraceLine.sinceTick T ps)).flatMap
          fun record => w.deliveries (fromSimulator record) := by
      refine List.flatMap_congr fun record hmem => ?_
      rw [hread record (by rw [hsplit]; exact List.mem_append_right _ hmem)]
    rw [hheld, hsplit, List.flatMap_append, List.self_eq_append_left,
      List.flatMap_eq_nil_iff]
    simp only [hnone]
    constructor
    · intro h pre' hpre'
      obtain rfl := List.append_cancel_right (hpre'.symm.trans hpre)
      exact h
    · intro h
      exact h pre hpre

/-- The messages of every tick are within the limits, and the JSON layer preserves the
coordinates. -/
def TicksFit (J : Jsoncpp) (r : RoadRunnerBaseLine) : Prop :=
  ∀ (T : UInt32) tick, r.trace_time_ticks[T]? = some tick → TickFits J tick ∧
    (tick.update_agent.isEmpty = false → J.PreservesLocations tick.update_agent)

/-- Every tick that the run reaches delivers the records of the file exactly when they are
deliverable. -/
theorem multicasts_delivered_iff (hJ : J.ReadsBack) {B : LexicalCast}
    {contents : Option StdString} {protocol : StdString} {nof_agents : UInt32} {dl b : Bool}
    {r₀ : RoadRunnerBaseLine}
    (hstart : start B W contents (create protocol nof_agents false dl) = .ok b r₀)
    (hticks : TicksFit J r₀) {steps : List Unit}
    (hrun : Transition.run (simulate W J) r₀ steps = some r) (hcurr : r.currTick = some T) :
    Delivers W J r T ↔ Deliverable r.world T r.parsed := by
  have hdecodes : ∀ (T : UInt32) tick, r₀.trace_time_ticks[T]? = some tick → Decodes J tick := by
    intro T tick htick
    obtain ⟨hfits, hcoords⟩ := hticks T tick htick
    exact decodes_of_fits (tickMessages_wellFormed hJ hcoords) fun _ _ _ => hfits
  obtain ⟨hr, hsame, -⟩ := replaying_of_run hJ (replaying_of_start hstart).1 hdecodes hrun
  refine delivers_iff hJ hr hcurr ?_
  rw [hsame.trace_time_ticks]
  exact hticks

end Deliveries

/-! ## Two traces -/

/-- A file of these lines. -/
def linesOf (lines : List String) : StdString := lines.flatMap fun line => str line ++ [10]

/-- The trace program after `start`, with the reference instances. -/
def startedOn (lines : List String) (nof_agents : UInt32) : RoadRunnerBaseLine :=
  final (start LexicalCast.reference Ns3.reference (some (linesOf lines))
    (create (str "80211b") nof_agents false false))

instance {J : Jsoncpp} {tick : TimeTick} : Decidable (TickFits J tick) :=
  decidable_of_iff ((∀ m ∈ tickMessages J tick, m.text.length < 2 ^ 24) ∧
    10 + 3 * (tickMessages J tick).length + (messagesText (tickMessages J tick)).length < 2 ^ 31)
    ⟨fun h => ⟨h.1, h.2⟩, fun h => ⟨h.short, h.total⟩⟩

instance {J : Jsoncpp} {locations : Std.TreeMap StdString DPoint} :
    Decidable (J.PreservesLocations locations) :=
  inferInstanceAs (Decidable (_ = _))

/-- What holds of every tick is seen from the values. -/
theorem forall_ticks {P : TimeTick → Prop} {r : RoadRunnerBaseLine}
    (h : ∀ tick ∈ r.trace_time_ticks.toList.map Prod.snd, P tick) (T : UInt32) (tick : TimeTick)
    (htick : r.trace_time_ticks[T]? = some tick) : P tick :=
  h tick (List.mem_map.mpr
    ⟨(T, tick), Std.TreeMap.mem_toList_iff_getElem?_eq_some.mpr htick, rfl⟩)

/-- The simulator itself is among the agents and talks to another one. -/
def chatTrace : List String :=
  ["add_agent;time:0ms;agId:987654321", "add_agent;time:0ms;agId:2", "0",
    "multicast;time:0ms;sender:987654321;recipients:2;hello", "10",
    "update_agent;time:10ms;agId:2;x:0.0;y:0.0",
    "multicast;time:10ms;sender:987654321;recipients:2,2;again"]

theorem multicasts_delivered_iff_chat :
    ∃ r, Transition.run (simulate Ns3.reference Jsoncpp.reference) (startedOn chatTrace 2) [()] =
        some r ∧
      (Delivers Ns3.reference Jsoncpp.reference r 10 ↔ Deliverable r.world 10 r.parsed) := by
  have hstart : value (start LexicalCast.reference Ns3.reference (some (linesOf chatTrace))
      (create (str "80211b") 2 false false)) = some true := by decide +kernel
  have hcurr : (Transition.run (simulate Ns3.reference Jsoncpp.reference)
      (startedOn chatTrace 2) [()]).map (fun r => r.currTick) = some (some 10) := by decide +kernel
  obtain ⟨r, hrun, hcurr⟩ := Option.map_eq_some_iff.mp hcurr
  have hfit : TicksFit Jsoncpp.reference (startedOn chatTrace 2) :=
    forall_ticks (by decide +kernel)
  exact ⟨r, hrun, multicasts_delivered_iff Jsoncpp.reference_readsBack (eq_ok_of_value hstart)
    hfit hrun hcurr⟩

/-- Two agents, neither of which has the id of the simulator. -/
def pairTrace : List String :=
  ["add_agent;time:0ms;agId:1", "add_agent;time:0ms;agId:2", "0",
    "multicast;time:0ms;sender:1;recipients:2;hello"]

/-- The first tick of a trace is not delivered: the record is sent in the name of the
simulator, who is no agent. -/
theorem multicasts_not_delivered :
    ∃ r, start LexicalCast.reference Ns3.reference (some (linesOf pairTrace))
        (create (str "80211b") 2 false false) = .ok true r ∧
      TicksFit Jsoncpp.reference r ∧ r.currTick = some 0 ∧
      ¬ Delivers Ns3.reference Jsoncpp.reference r 0 := by
  have hstart : value (start LexicalCast.reference Ns3.reference (some (linesOf pairTrace))
      (create (str "80211b") 2 false false)) = some true := by decide +kernel
  have hfit : TicksFit Jsoncpp.reference (startedOn pairTrace 2) :=
    forall_ticks (by decide +kernel)
  have hcurr : (startedOn pairTrace 2).currTick = some 0 := by decide +kernel
  have hready : (startedOn pairTrace 2).Replaying :=
    (replaying_of_start (eq_ok_of_value hstart)).1
  refine ⟨startedOn pairTrace 2, eq_ok_of_value hstart, hfit, hcurr, fun hdelivers => ?_⟩
  have hdeliverable := (delivers_iff Jsoncpp.reference_readsBack hready hcurr hfit).mp hdelivers
  have hrecord : ∀ record ∈ TraceLine.multicasts 0 (startedOn pairTrace 2).parsed,
      record.sendAgId ≠ str "987654321" ∧ (startedOn pairTrace 2).world.deliveries record ≠ [] := by
    decide +kernel
  have hne : TraceLine.multicasts 0 (startedOn pairTrace 2).parsed ≠ [] := by decide +kernel
  obtain ⟨record, hmem⟩ := List.exists_mem_of_ne_nil _ hne
  exact (hrecord record hmem).1 (hdeliverable.sender record hmem (hrecord record hmem).2)

end RoadRunnerBaseLine
end Sm4ns3
