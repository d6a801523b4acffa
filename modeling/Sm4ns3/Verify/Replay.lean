import Sm4ns3.Verify.TickHandling

/-!
# Replaying a trace

`pause` replays the ticks one after the other. What the ticks hold and who is registered
is the same in every state that it leads to (`replaying_of_run`).
-/

namespace Sm4ns3

open Bytes Cpp Call JsonParser MessageConglomerate

namespace RoadRunnerBaseLine

/-! ## One tick -/

/-- The same trace. -/
structure SameTrace (r r' : RoadRunnerBaseLine) : Prop where
  trace_time_ticks : r'.trace_time_ticks = r.trace_time_ticks
  parsed : r'.parsed = r.parsed
  agent_limit : r'.agent_limit = r.agent_limit
  agentsList : r'.agentsList = r.agentsList
  maxNOFAgents : r'.maxNOFAgents = r.maxNOFAgents

theorem SameTrace.refl (r : RoadRunnerBaseLine) : SameTrace r r := ⟨rfl, rfl, rfl, rfl, rfl⟩

theorem SameTrace.trans {r r₁ r₂ : RoadRunnerBaseLine} (h : SameTrace r r₁)
    (h' : SameTrace r₁ r₂) : SameTrace r r₂ :=
  ⟨h'.trace_time_ticks.trans h.trace_time_ticks, h'.parsed.trans h.parsed,
    h'.agent_limit.trans h.agent_limit, h'.agentsList.trans h.agentsList,
    h'.maxNOFAgents.trans h.maxNOFAgents⟩

theorem Stored.same {r r' : RoadRunnerBaseLine} (hr : r.Stored) (h : SameTrace r r') :
    r'.Stored where
  multicast T := by rw [h.trace_time_ticks, h.parsed, hr.multicast]
  update T agId := by rw [h.trace_time_ticks, h.parsed, hr.update]
  agents agId := by rw [h.agentsList, h.agent_limit, hr.agents]
  limit := by rw [h.agent_limit, h.maxNOFAgents]; exact hr.limit
  kept := by rw [h.parsed, h.agent_limit]; exact hr.kept

/-- A tick that is decoded is decoded to its messages. -/
def Decodes (J : Jsoncpp) (tick : TimeTick) : Prop :=
  ∀ b c, deserialize J NEW_BUNDLES
      (bundleHeader (tickOngoing J tick).vHead (payload (tickOngoing J tick)))
      (payload (tickOngoing J tick)) {} = .ok b c → c.Holds true (tickMessages J tick)

section Tick

variable {W : Ns3} {J : Jsoncpp} {r r' : RoadRunnerBaseLine} {tick : TimeTick} {T : UInt32}

theorem decodes_of_fits (hmsgs : ∀ m ∈ tickMessages J tick, m.WellFormed J)
    (hfits : ∀ b c, deserialize J NEW_BUNDLES
      (bundleHeader (tickOngoing J tick).vHead (payload (tickOngoing J tick)))
      (payload (tickOngoing J tick)) {} = .ok b c → TickFits J tick) : Decodes J tick := by
  intro b c hrun
  obtain ⟨c', hrun', hholds⟩ := deserialize_tick hmsgs (hfits b c hrun)
  rw [hrun] at hrun'
  cases hrun'
  exact hholds

theorem second_eq_ok {it : Option UInt32} : r.second it = .ok tick ↔
    ∃ T, it = some T ∧ r.trace_time_ticks[T]? = some tick := by
  rw [second]
  cases it with
  | none => simp
  | some T =>
    cases htick : r.trace_time_ticks[T]? with
    | none => simp [htick]
    | some tick' => simp [htick]

/-- The messages that `pushToQueue` gives the broker. -/
theorem names_of_pushToQueue (hr : r.Replaying)
    (hdecodes : ∀ (T : UInt32) tick, r.trace_time_ticks[T]? = some tick → Decodes J tick)
    (hcurr : r.currTick = some T) {u : Unit} (h : pushToQueue J r = .ok u r') :
    ∃ tick, r.trace_time_ticks[T]? = some tick ∧ SameTrace r r' ∧ r'.world = r.world ∧
      List.Forall₂ Received.Names (queuedMessages r'.m_incoming.messageList)
        (tickMessages J tick) := by
  have hmem := hr.current T hcurr
  obtain ⟨tick, htick⟩ := Option.isSome_iff_exists.mp
    (Std.TreeMap.mem_iff_isSome_getElem?.mp hmem)
  obtain ⟨tick', b, c, htick', hrun, rfl⟩ := pushToQueue_eq_ok h
  rw [second_eq_ok.mpr ⟨T, hcurr, htick⟩] at htick'
  cases htick'
  refine ⟨tick, htick, ⟨rfl, rfl, rfl, rfl, rfl⟩, rfl, ?_⟩
  have hqueue : (r.m_incoming.push c).messageList = [c] := by
    rw [ThreadSafeQueue.push, hr.queue, List.nil_append]
  rw [hqueue]
  exact queuedMessages_names (hdecodes T tick htick b c hrun)

/-- The state once the iterators went on from a tick. -/
def advanced (r : RoadRunnerBaseLine) (time : UInt32) : RoadRunnerBaseLine :=
  { r with
    prevTick := r.currTick
    currTick := r.nextTick time
    interval := match r.nextTick time with
      | some next => next - time
      | none => r.interval }

theorem advanced_interval_some {r : RoadRunnerBaseLine} {time next : UInt32}
    (h : r.nextTick time = some next) : (r.advanced time).interval = next - time := by
  simp only [advanced, h]

/-- The last tick leaves the interval of the tick before. -/
theorem advanced_interval_none {r : RoadRunnerBaseLine} {time : UInt32}
    (h : r.nextTick time = none) : (r.advanced time).interval = r.interval := by
  simp only [advanced, h]

/-- The state once the next call of `pause` is scheduled, or the simulator stopped. -/
def ended (r : RoadRunnerBaseLine) : RoadRunnerBaseLine :=
  if r.currTick ≠ none then { r with events := r.events ++ [r.now + r.interval.toNat] }
  else { r with stopped := r.stopped + 1 }

theorem ended_eq_ok {u : Unit} (h : (do
    let r ← get
    if r.currTick ≠ none then
      schedule r.interval.toNat
    else
      stop : Call RoadRunnerBaseLine Unit) r = .ok u r') : r' = r.ended := by
  rw [get_bind_apply] at h
  rw [ended]
  by_cases hnext : r.currTick ≠ none
  · rw [if_pos hnext] at h ⊢
    cases h
    rfl
  · rw [if_neg hnext] at h ⊢
    cases h
    rfl

/-- What a call of `pause` that returns has done. -/
theorem pause_eq_ok {u : Unit} (h : pause W J r = .ok u r') :
    ∃ T r₁ id b, r.currTick = some T ∧ progress T r.trace_time_ticks.size = .ok () ∧
      pushToQueue J r = .ok () r₁ ∧ r₁.currTick = some T ∧ (r₁.advanced T).tickId = .ok id ∧
      Broker.processIncoming W J r₁.toBroker = .ok () b ∧
      r' = ({ r₁.advanced T with toBroker := b } : RoadRunnerBaseLine).ended := by
  simp only [pause, get_bind_apply, eval_bind_eq_ok] at h
  obtain ⟨T, hfirst, _, hprogress, h⟩ := h
  obtain ⟨_, r₁, hpush, h⟩ := bind_eq_ok h
  obtain ⟨_, r₂, hadvance, h⟩ := bind_eq_ok h
  simp only [get_bind_apply, eval_bind_eq_ok] at h
  obtain ⟨id, hid, _, -, h⟩ := h
  obtain ⟨_, r₃, hprocess, h⟩ := bind_eq_ok h
  obtain ⟨b, hbroker, rfl⟩ := zoom_eq_ok hprocess
  have hended := ended_eq_ok h
  simp only [advance, get_bind_apply, eval_bind_eq_ok] at hadvance
  obtain ⟨T', hfirst', hadvance⟩ := hadvance
  cases hadvance
  have hcurr : r.currTick = some T := by
    rcases hcase : r.currTick with _ | T₀
    · rw [hcase] at hfirst
      cases hfirst
    · rw [hcase] at hfirst
      cases hfirst
      rfl
  obtain ⟨-, -, c, -, -, rfl⟩ := pushToQueue_eq_ok hpush
  have htime : T' = T := by
    rw [hcurr] at hfirst'
    exact (Except.ok.inj hfirst').symm
  subst htime
  exact ⟨T', _, id, b, hcurr, hprogress, hpush, hcurr, hid, hbroker, hended⟩

end Tick

/-! ## All ticks -/

section Ticks

variable {W : Ns3} {J : Jsoncpp} {r r' : RoadRunnerBaseLine} {w w' : World} {tick : TimeTick}
  {T : UInt32}

/-- Handling the messages of a tick keeps the agents. -/
theorem follows_of_tick (hJ : J.ReadsBack) (hw : w.Manned) {queued : List Received}
    (h : List.Forall₂ Received.Names queued (tickMessages J tick))
    (hrun : Transition.run (handled W J) w queued = some w') : w.Follows w' := by
  rw [run_handled_tick h, Option.bind_eq_some_iff] at hrun
  obtain ⟨w₁, hlocated, hrun⟩ := hrun
  obtain ⟨w₁', hlocated', hmoved⟩ := located_moved hw tick.update_agent
  rw [hlocated] at hlocated'
  cases hlocated'
  obtain ⟨w₂, made, hrun', hstays, -⟩ := multicasts_sent (W := W) hJ (hw.follows hmoved.follows)
    (recipients_of_run hrun)
  rw [hrun] at hrun'
  cases hrun'
  exact hmoved.follows.trans hstays.follows

theorem ended_same (r : RoadRunnerBaseLine) : SameTrace r r.ended ∧
    r.ended.toBroker = r.toBroker ∧ r.ended.currTick = r.currTick ∧
    r.ended.prevTick = r.prevTick ∧ r.ended.interval = r.interval ∧ r.ended.now = r.now := by
  unfold ended
  split <;> exact ⟨⟨rfl, rfl, rfl, rfl, rfl⟩, rfl, rfl, rfl, rfl, rfl⟩

theorem mem_nextTick {next : UInt32} (h : r.nextTick T = some next) :
    next ∈ r.trace_time_ticks :=
  Std.TreeMap.mem_keys.mp (List.mem_of_find?_eq_some h)

/-- The state between two ticks, after a tick that was replayed. -/
theorem Replaying.pause (hJ : J.ReadsBack) (hr : r.Replaying)
    (hdecodes : ∀ (T : UInt32) tick, r.trace_time_ticks[T]? = some tick → Decodes J tick)
    {u : Unit} (h : pause W J r = .ok u r') :
    r'.Replaying ∧ SameTrace r r' ∧ r.world.Follows r'.world := by
  obtain ⟨T, r₁, id, b, hcurr, -, hpush, hcurr₁, -, hprocess, rfl⟩ := pause_eq_ok h
  obtain ⟨tick, htick, hsame, hworld, hnames⟩ := names_of_pushToQueue hr hdecodes hcurr hpush
  have hrun := (processQueue_run _).mp ⟨b, hprocess, rfl⟩
  have hfollows : r.world.Follows b.world :=
    follows_of_tick hJ hr.manned hnames (hworld ▸ hrun)
  obtain ⟨hended, hbroker, hnext, -⟩ :=
    ended_same { r₁.advanced T with toBroker := b }
  have hadvanced : SameTrace r₁ { r₁.advanced T with toBroker := b } := ⟨rfl, rfl, rfl, rfl, rfl⟩
  have htrace := hsame.trans (hadvanced.trans hended)
  refine ⟨⟨hr.stored.same htrace, ?_, ?_, fun agId hagId => ?_, fun T' hT' => ?_⟩, htrace, ?_⟩
  · rw [hbroker]
    obtain ⟨world, rfl⟩ := Broker.processIncoming_eq_ok hprocess
    rfl
  · rw [hbroker]
    exact hr.manned.follows hfollows
  · rw [htrace.agent_limit] at hagId
    rw [hbroker]
    obtain ⟨a, ha⟩ := hr.staffed agId hagId
    exact ⟨a, (hfollows.agent agId).trans ha⟩
  · rw [hnext] at hT'
    rw [hended.trace_time_ticks]
    exact mem_nextTick hT'
  · rw [hbroker]
    exact hfollows

theorem simulate_eq_some {step : Unit} (h : simulate W J r step = some r') :
    ∃ time, r.stopped = 0 ∧ r.events.min? = some time ∧
      pause W J { r with now := time, events := r.events.erase time } = .ok () r' := by
  unfold simulate at h
  split at h
  · rename_i hstopped
    obtain ⟨time, hmin, hpause⟩ := Option.bind_eq_some_iff.mp h
    exact ⟨time, hstopped, hmin, returned_unit_eq_some.mp hpause⟩
  · cases h

/-- The state between two ticks, after any number of ticks. -/
theorem replaying_of_run (hJ : J.ReadsBack) (hr : r.Replaying)
    (hdecodes : ∀ (T : UInt32) tick, r.trace_time_ticks[T]? = some tick → Decodes J tick)
    {steps : List Unit} (h : Transition.run (simulate W J) r steps = some r') :
    r'.Replaying ∧ SameTrace r r' ∧ r.world.Follows r'.world := by
  refine Transition.invariant (I := fun s => s.Replaying ∧ SameTrace r s ∧
    r.world.Follows s.world) (fun s step t hs ht => ?_)
    ⟨hr, SameTrace.refl r, World.Follows.refl r.world⟩ h
  obtain ⟨hs, hsame, hfollows⟩ := hs
  obtain ⟨time, -, -, hpause⟩ := simulate_eq_some ht
  have hs' : Replaying { s with now := time, events := s.events.erase time } :=
    ⟨⟨hs.stored.multicast, hs.stored.update, hs.stored.agents, hs.stored.limit, hs.stored.kept⟩,
      hs.queue, hs.manned, hs.staffed, hs.current⟩
  obtain ⟨ht, hsame', hfollows'⟩ := hs'.pause hJ (fun T tick htick => hdecodes T tick (by
    rw [← hsame.trace_time_ticks]
    exact htick)) hpause
  exact ⟨ht, hsame.trans ⟨hsame'.trace_time_ticks, hsame'.parsed, hsame'.agent_limit,
    hsame'.agentsList, hsame'.maxNOFAgents⟩, hfollows.trans hfollows'⟩

end Ticks

end RoadRunnerBaseLine
end Sm4ns3
