import Sm4ns3.Verify.Faults
import Sm4ns3.Verify.Schedule

/-!
# Divisions and iterators in a replay

`pause` divides by a tenth of the number of ticks and by the interval, and dereferences both
iterators. With ten ticks or more none of it can fail; with fewer something does unless the
first tick ends the replay before (`replay_sound_iff`).
-/

namespace Sm4ns3

open Bytes Cpp Call JsonParser

namespace RoadRunnerBaseLine

/-! ## One call -/

section One

variable {W : Ns3} {J : Jsoncpp} {r r₁ r' : RoadRunnerBaseLine} {T : UInt32}

/-- The call does not end by a division by zero or at the end of an iterator. -/
def Sound (result : EStateM.Result Fault RoadRunnerBaseLine Unit) : Prop :=
  ∀ cause, OfReplay cause → fault result ≠ some (.undefined cause)

theorem progress_ok {size : Nat} (h : T = 0 ∨ 10 ≤ size) : progress T size = .ok () := by
  unfold progress
  by_cases hzero : T = 0
  · rw [if_neg (by simp [hzero])]
    rfl
  · have hsize : 10 ≤ size := h.resolve_left hzero
    rw [if_pos (UInt32.pos_iff_ne_zero.mpr hzero), checkDivisor, if_neg (by omega),
      except_ok_bind]
    split
    · exact if_neg (by omega)
    · rfl

theorem progress_error {size : Nat} (hzero : T ≠ 0) (hsize : size < 10) :
    progress T size = .error (.undefined .divisionByZero) := by
  unfold progress
  rw [if_pos (UInt32.pos_iff_ne_zero.mpr hzero), checkDivisor, if_pos (by omega)]
  rfl

theorem fault_pause_of_none (h : r.currTick = none) :
    fault (pause W J r) = some (.undefined .endIterator) := by
  rw [pause, get_bind_apply, h, first, bind_error (eval_error _ _)]
  rfl

theorem fault_pause_of_progress (hT : r.currTick = some T) (hzero : T ≠ 0)
    (hsize : r.trace_time_ticks.size < 10) :
    fault (pause W J r) = some (.undefined .divisionByZero) := by
  rw [pause, get_bind_apply, hT, first, eval_ok, pure_bind_apply, progress_error hzero hsize,
    bind_error (eval_error _ _)]
  rfl

theorem fault_pause_of_push (hT : r.currTick = some T)
    (hprogress : T = 0 ∨ 10 ≤ r.trace_time_ticks.size) {e : Fault}
    (hpush : pushToQueue J r = .error e r') : pause W J r = .error e r' := by
  rw [pause, get_bind_apply, hT, first, eval_ok, pure_bind_apply, progress_ok hprogress, eval_ok,
    pure_bind_apply, bind_error hpush]

/-- What `pause` does behind the first call of the profiler. -/
def handleTick (W : Ns3) (J : Jsoncpp) : Call RoadRunnerBaseLine Unit := do
  onBroker (Broker.processIncoming W J)
  let r ← get
  if r.currTick ≠ none then
    schedule r.interval.toNat
  else
    stop

theorem handleTick_avoids : Avoids OfReplay (handleTick W J) := by
  unfold handleTick
  refine (Avoids.zoom processIncoming_avoids).bind fun _ _ _ _ => Avoids.get.bind fun _ r _ _ => ?_
  split
  · exact Avoids.modify _
  · exact Avoids.modify _

theorem advance_ok (hT : r.currTick = some T) : advance r = .ok () (r.advanced T) := by
  have hfirst : first r.currTick = .ok T := by
    rw [hT]
    rfl
  rw [advance, get_bind_apply, hfirst]
  rfl

/-- `pushToQueue` leaves the replay as it is. -/
theorem kept_of_push {u : Unit} (h : pushToQueue J r = .ok u r₁) :
    r₁.currTick = r.currTick ∧ r₁.trace_time_ticks = r.trace_time_ticks ∧
      r₁.interval = r.interval := by
  obtain ⟨-, -, c, -, -, rfl⟩ := pushToQueue_eq_ok h
  exact ⟨rfl, rfl, rfl⟩

theorem tickId_eq {s : RoadRunnerBaseLine} (hprev : s.prevTick = some T) :
    s.tickId = if s.interval = 0 then .error (.undefined .divisionByZero)
      else .ok (T / s.interval) := by
  rw [tickId, hprev]
  change (checkDivisor s.interval.toNat >>= fun _ => pure (T / s.interval)) = _
  rw [checkDivisor]
  by_cases hzero : s.interval = 0
  · rw [if_pos hzero, if_pos (by rw [hzero]; rfl)]
    rfl
  · have hnat : s.interval.toNat ≠ 0 := fun h => hzero (UInt32.toNat.inj h)
    rw [if_neg hzero, if_neg hnat]
    rfl

/-- The call once the tick is queued: the iterators go on, and the interval divides. -/
theorem pause_pushed (hT : r.currTick = some T)
    (hprogress : T = 0 ∨ 10 ≤ r.trace_time_ticks.size)
    (hpush : pushToQueue J r = .ok () r₁) :
    pause W J r = (do
      let _ ← eval (r₁.advanced T).tickId
      let _ ← eval ((r₁.advanced T).second (r₁.advanced T).prevTick)
      handleTick W J) (r₁.advanced T) := by
  obtain ⟨hcurr, -⟩ := kept_of_push hpush
  rw [pause, get_bind_apply, hT, first, eval_ok, pure_bind_apply, progress_ok hprogress, eval_ok,
    pure_bind_apply, bind_ok hpush, bind_ok (advance_ok (hcurr.trans hT)), get_bind_apply]
  rfl

theorem fault_pause_of_interval (hT : r.currTick = some T)
    (hprogress : T = 0 ∨ 10 ≤ r.trace_time_ticks.size)
    (hpush : pushToQueue J r = .ok () r₁) (hinterval : (r₁.advanced T).interval = 0) :
    fault (pause W J r) = some (.undefined .divisionByZero) := by
  obtain ⟨hcurr, -⟩ := kept_of_push hpush
  have hprev : (r₁.advanced T).prevTick = some T := hcurr.trans hT
  rw [pause_pushed hT hprogress hpush, tickId_eq hprev, if_pos hinterval,
    bind_error (eval_error _ _)]
  rfl

theorem deserialize_avoids (header : BundleHeader) (body : StdString) :
    Avoids OfReplay (deserialize J NEW_BUNDLES header body) := by
  rw [deserialize_new]
  exact deserialize_v1_avoids true header body

/-- `pushToQueue` can only fail on the current tick, or while it decodes. -/
theorem pushToQueue_sound (hT : r.currTick = some T) (hmem : T ∈ r.trace_time_ticks) :
    Sound (pushToQueue J r) := by
  obtain ⟨tick, htick⟩ := Option.isSome_iff_exists.mp
    (Std.TreeMap.mem_iff_isSome_getElem?.mp hmem)
  have hsecond : r.second r.currTick = .ok tick := second_eq_ok.mpr ⟨T, hT, htick⟩
  obtain ⟨⟨header, body⟩, hbundle⟩ : ∃ bundle, tickBundle J tick = .ok bundle :=
    ⟨_, tickBundle_eq⟩
  intro cause hcause h
  rw [pushToQueue, get_bind_apply, hsecond, eval_ok, pure_bind_apply, hbundle, eval_ok,
    pure_bind_apply] at h
  dsimp only at h
  have havoids := deserialize_avoids (J := J) header body {} cause
  cases hrun : deserialize J NEW_BUNDLES header body {} with
  | ok b c =>
    rw [hrun] at h
    cases h
  | error e c =>
    rw [hrun] at h
    obtain rfl : e = .undefined cause := Option.some.inj h
    exact havoids c hcause hrun

/-- The call once the interval was found to divide. -/
theorem pause_handled (hT : r.currTick = some T) (hmem : T ∈ r.trace_time_ticks)
    (hprogress : T = 0 ∨ 10 ≤ r.trace_time_ticks.size)
    (hpush : pushToQueue J r = .ok () r₁) (hinterval : (r₁.advanced T).interval ≠ 0) :
    pause W J r = handleTick W J (r₁.advanced T) := by
  obtain ⟨hcurr, hticks, -⟩ := kept_of_push hpush
  have hprev : (r₁.advanced T).prevTick = some T := hcurr.trans hT
  obtain ⟨tick, htick⟩ := Option.isSome_iff_exists.mp
    (Std.TreeMap.mem_iff_isSome_getElem?.mp hmem)
  have hsecond : (r₁.advanced T).second (r₁.advanced T).prevTick = .ok tick := by
    refine second_eq_ok.mpr ⟨T, hprev, ?_⟩
    change r₁.trace_time_ticks[T]? = some tick
    rw [hticks, htick]
  rw [pause_pushed hT hprogress hpush, tickId_eq hprev, if_neg hinterval, eval_ok,
    pure_bind_apply, hsecond, eval_ok, pure_bind_apply]

theorem pause_sound (hT : r.currTick = some T) (hmem : T ∈ r.trace_time_ticks)
    (hprogress : T = 0 ∨ 10 ≤ r.trace_time_ticks.size)
    (hinterval : ∀ r₁, pushToQueue J r = .ok () r₁ → (r₁.advanced T).interval ≠ 0) :
    Sound (pause W J r) := by
  intro cause hcause
  cases hpush : pushToQueue J r with
  | error e r₁ =>
    have hsound := pushToQueue_sound (J := J) hT hmem cause hcause
    rw [hpush] at hsound
    rw [fault_pause_of_push hT hprogress hpush]
    exact hsound
  | ok _ r₁ =>
    rw [pause_handled hT hmem hprogress hpush (hinterval r₁ hpush)]
    intro h
    cases hrun : handleTick W J (r₁.advanced T) with
    | ok _ r' =>
      rw [hrun] at h
      cases h
    | error e r' =>
      rw [hrun] at h
      obtain rfl : e = .undefined cause := Option.some.inj h
      exact handleTick_avoids _ cause r' hcause hrun

/-- Then the call returns when the tick is queued and handled. -/
theorem pause_of_processTick (hT : r.currTick = some T) (hmem : T ∈ r.trace_time_ticks)
    (hprogress : T = 0 ∨ 10 ≤ r.trace_time_ticks.size)
    (hinterval : ∀ r₁, pushToQueue J r = .ok () r₁ → (r₁.advanced T).interval ≠ 0)
    (h : processTick W J r = .ok () r') : ∃ r'', pause W J r = .ok () r'' := by
  obtain ⟨_, r₁, hpush, hbroker⟩ := bind_eq_ok h
  obtain ⟨b, hprocess, -⟩ := zoom_eq_ok hbroker
  have hzoom : onBroker (Broker.processIncoming W J) (r₁.advanced T) =
      .ok () { r₁.advanced T with toBroker := b } := zoom_ok hprocess
  rw [pause_handled hT hmem hprogress hpush (hinterval r₁ hpush), handleTick, bind_ok hzoom,
    get_bind_apply]
  split
  · exact ⟨_, rfl⟩
  · exact ⟨_, rfl⟩

theorem processTick_of_pause {u : Unit} (h : pause W J r = .ok u r') :
    ∃ r'', processTick W J r = .ok () r'' := by
  obtain ⟨T, r₁, id, b, -, -, hpush, -, -, hprocess, -⟩ := pause_eq_ok h
  exact ⟨_, (bind_ok hpush _).trans (zoom_ok hprocess)⟩

end One

/-! ## The whole replay -/

section Replay

variable {B : LexicalCast} {W : Ns3} {J : Jsoncpp} {r₀ r : RoadRunnerBaseLine} {t0 T : UInt32}
  {k : Nat}

/-- No call of `pause` that the simulator makes divides by zero or dereferences an iterator at
the end. -/
def SoundReplay (W : Ns3) (J : Jsoncpp) (r₀ : RoadRunnerBaseLine) : Prop :=
  ∀ steps r time, Transition.run (simulate W J) r₀ steps = some r → r.stopped = 0 →
    r.events.min? = some time → Sound (pause W J (r.atEvent time))

/-- The interval is not 0 once the iterators went on, unless there is only one tick. -/
theorem interval_ne_zero {s : RoadRunnerBaseLine} (hr : Replayed r₀ r t0 k)
    (hT : r.currTick = some T) (hticks : s.trace_time_ticks = r.trace_time_ticks)
    (hinterval : s.interval = r.interval) (hsize : 2 ≤ r₀.trace_time_ticks.size) :
    (s.advanced T).interval ≠ 0 := by
  have hkey : r₀.trace_time_ticks.keys[k]? = some T := hr.currTick.symm.trans hT
  have hnext : s.nextTick T = r₀.trace_time_ticks.keys[k + 1]? := by
    rw [nextTick, hticks, hr.ticks]
    exact nextTick_eq hkey
  cases hlater : r₀.trace_time_ticks.keys[k + 1]? with
  | some next =>
    rw [advanced_interval_some (hnext.trans hlater)]
    intro hdiff
    have hlt := lt_of_keys hkey hlater
    have hsum := toNat_sub hlt
    have hnat : T.toNat < next.toNat := hlt
    simp only [hdiff, UInt32.toNat_zero] at hsum
    omega
  | none =>
    rw [advanced_interval_none (hnext.trans hlater)]
    intro hzero
    have hold : r.interval = 0 := hinterval.symm.trans hzero
    rw [List.getElem?_eq_none_iff] at hlater
    rw [← Std.TreeMap.length_keys] at hsize
    have hk := (List.getElem?_eq_some_iff.mp hkey).1
    obtain ⟨j, rfl⟩ := Nat.exists_eq_succ_of_ne_zero (n := k) (by omega)
    obtain ⟨T₁, hT₁⟩ : ∃ T₁, r₀.trace_time_ticks.keys[j]? = some T₁ :=
      ⟨_, List.getElem?_eq_getElem (Nat.lt_of_succ_lt hk)⟩
    obtain ⟨hlt, hsum⟩ := hr.interval T₁ T ((hr.prevTick j rfl).trans hT₁) hT
    have hnat : T₁.toNat < T.toNat := hlt
    simp only [hold, UInt32.toNat_zero] at hsum
    omega

theorem mem_of_currTick (hr : Replayed r₀ r t0 k) (hT : r.currTick = some T) :
    T ∈ r.trace_time_ticks := by
  rw [hr.ticks]
  exact Std.TreeMap.mem_keys.mp (List.mem_of_getElem? (hr.currTick.symm.trans hT))

/-- A call in a state of the replay is sound when the divisors are not 0. -/
theorem sound_of_replayed (hr : Replayed r₀ r t0 k) (hT : r.currTick = some T) (time : Nat)
    (hprogress : T = 0 ∨ 10 ≤ r₀.trace_time_ticks.size)
    (hsize : 2 ≤ r₀.trace_time_ticks.size ∨ value (pushToQueue J (r.atEvent time)) = none) :
    Sound (pause W J (r.atEvent time)) := by
  have hmem := mem_of_currTick hr hT
  apply pause_sound (r := r.atEvent time) hT hmem
  · change T = 0 ∨ 10 ≤ r.trace_time_ticks.size
    rw [hr.ticks]
    exact hprogress
  · intro r₁ hpush
    obtain ⟨-, hticks, hinterval⟩ := kept_of_push hpush
    rcases hsize with hsize | hnone
    · exact interval_ne_zero hr hT hticks hinterval hsize
    · rw [hpush] at hnone
      cases hnone

/-- There are ten ticks; or the first tick has the time 0 and cannot be queued, or, when it is
not the only one, cannot be handled. -/
def Survives (W : Ns3) (J : Jsoncpp) (r₀ : RoadRunnerBaseLine) : Prop :=
  10 ≤ r₀.trace_time_ticks.size ∨ r₀.currTick = some 0 ∧
    (value (pushToQueue J (r₀.atEvent 0)) = none ∨
      2 ≤ r₀.trace_time_ticks.size ∧ value (processTick W J (r₀.atEvent 0)) = none)

theorem Survives.sound (hstarted : r₀.Started) (h : Survives W J r₀) : SoundReplay W J r₀ := by
  intro steps r time hrun hstopped hmin
  rcases h with hten | ⟨hcurr, hfails⟩
  · obtain ⟨t0, h0⟩ : ∃ t0, r₀.trace_time_ticks.keys.head? = some t0 := by
      rw [← Std.TreeMap.length_keys] at hten
      cases hkeys : r₀.trace_time_ticks.keys with
      | nil => simp [hkeys] at hten
      | cons t ts => exact ⟨t, rfl⟩
    have hr := replayed_of_run hstarted h0 hrun
    have hk : steps.length < r₀.trace_time_ticks.keys.length := by
      by_contra hge
      rw [hr.stopped, if_neg hge] at hstopped
      cases hstopped
    have hT := hr.currTick
    rw [List.getElem?_eq_getElem hk] at hT
    exact sound_of_replayed hr hT time (.inr hten) (.inl (by omega))
  · have h0 : r₀.trace_time_ticks.keys.head? = some 0 := hstarted.currTick.symm.trans hcurr
    cases steps with
    | nil =>
      cases hrun
      have htime : time = 0 := by
        rw [hstarted.events] at hmin
        simpa using hmin.symm
      subst htime
      apply sound_of_replayed (replayed_zero hstarted h0) hcurr 0 (.inl rfl)
      rcases hfails with hnone | ⟨hsize, -⟩
      · exact .inr hnone
      · exact .inl hsize
    | cons step rest =>
      -- the first call does not return
      obtain ⟨r₁, hstep, -⟩ := Transition.run_cons_eq_some.mp hrun
      obtain ⟨time', -, hmin', hpause⟩ := simulate_eq_some hstep
      have htime : time' = 0 := by
        rw [hstarted.events] at hmin'
        simpa using hmin'.symm
      subst htime
      rcases hfails with hnone | ⟨-, hnone⟩
      · obtain ⟨T, r₂, -, -, -, -, hpush, -⟩ := pause_eq_ok hpause
        rw [atEvent, hpush] at hnone
        cases hnone
      · obtain ⟨r₂, hprocess⟩ := processTick_of_pause hpause
        rw [atEvent, hprocess] at hnone
        cases hnone

/-- With a single tick the interval is never set. -/
theorem interval_of_one {r₁ : RoadRunnerBaseLine} (hstarted : r₀.Started)
    (h0 : r₀.trace_time_ticks.keys.head? = some 0)
    (hpush : pushToQueue J (r₀.atEvent 0) = .ok () r₁) (hsize : r₀.trace_time_ticks.size < 2) :
    (r₁.advanced 0).interval = 0 := by
  obtain ⟨-, hticks, hinterval⟩ := kept_of_push hpush
  have hnext : r₁.nextTick 0 = none := by
    rw [nextTick, hticks]
    change r₀.nextTick 0 = none
    rw [List.head?_eq_getElem?] at h0
    rw [nextTick_eq h0, List.getElem?_eq_none_iff, Std.TreeMap.length_keys]
    omega
  rw [advanced_interval_none hnext]
  exact hinterval.trans hstarted.interval

/-- With fewer than ten ticks the second call fails. -/
theorem not_sound_of_second {r' : RoadRunnerBaseLine} (hstarted : r₀.Started)
    (h0 : r₀.trace_time_ticks.keys.head? = some 0) (hsize : 2 ≤ r₀.trace_time_ticks.size)
    (hfew : r₀.trace_time_ticks.size < 10)
    (hprocess : processTick W J (r₀.atEvent 0) = .ok () r') : ¬ SoundReplay W J r₀ := by
  have hcurr : r₀.currTick = some 0 := hstarted.currTick.trans h0
  have hmin : r₀.events.min? = some 0 := by rw [hstarted.events, List.min?_singleton]
  have hzero := replayed_zero hstarted h0
  have hreturns : ∃ r₁, pause W J (r₀.atEvent 0) = .ok () r₁ := by
    have hmem := mem_of_currTick hzero hcurr
    apply pause_of_processTick (r := r₀.atEvent 0) hcurr hmem (.inl rfl) _ hprocess
    intro r₁ hpush
    obtain ⟨-, hticks, hinterval⟩ := kept_of_push hpush
    exact interval_ne_zero hzero hcurr hticks hinterval hsize
  obtain ⟨r₁, hpause⟩ := hreturns
  have hrun : Transition.run (simulate W J) r₀ [()] = some r₁ := by
    rw [Transition.run_cons, simulate, if_pos hstarted.stopped, hmin, Option.bind_some]
    exact congrArg (fun result => (returned result).bind fun r => some r) hpause
  obtain ⟨-, hone⟩ := hzero.pause h0 hcurr hmin hpause
  have hlength : 1 < r₀.trace_time_ticks.keys.length := by
    rw [Std.TreeMap.length_keys]
    omega
  obtain ⟨T, hT⟩ : ∃ T, r₀.trace_time_ticks.keys[0 + 1]? = some T :=
    ⟨_, List.getElem?_eq_getElem hlength⟩
  have hpos : 0 < T := by
    rw [List.head?_eq_getElem?] at h0
    exact lt_of_keys h0 hT
  have hcurr₁ : r₁.currTick = some T := hone.currTick.trans hT
  have hstopped : r₁.stopped = 0 := by rw [hone.stopped, if_pos hlength]
  have hmin₁ := congrArg List.min? (hone.event hcurr₁)
  rw [List.min?_singleton] at hmin₁
  intro hsound
  have hfault : fault (pause W J (r₁.atEvent (T.toNat - (0 : UInt32).toNat))) =
      some (.undefined .divisionByZero) := by
    apply fault_pause_of_progress (r := r₁.atEvent _) hcurr₁ (UInt32.pos_iff_ne_zero.mp hpos)
    change r₁.trace_time_ticks.size < 10
    rw [hone.ticks]
    exact hfew
  exact hsound [()] r₁ _ hrun hstopped hmin₁ _ (.inl rfl) hfault

/-- No call of the replay divides by zero or leaves the ticks exactly when there are ten ticks,
or the first call fails before. -/
theorem replay_sound_iff {contents : Option StdString} {protocol : StdString}
    {nof_agents : UInt32} {dc dl b : Bool}
    (hstart : start B W contents (create protocol nof_agents dc dl) = .ok b r₀) :
    SoundReplay W J r₀ ↔ Survives W J r₀ := by
  have hstarted := started_of_start hstart
  refine ⟨fun h => ?_, Survives.sound hstarted⟩
  by_cases hten : 10 ≤ r₀.trace_time_ticks.size
  · exact .inl hten
  · have hfew : r₀.trace_time_ticks.size < 10 := Nat.lt_of_not_le hten
    have hmin : r₀.events.min? = some 0 := by rw [hstarted.events, List.min?_singleton]
    have hfirst := h [] r₀ 0 rfl hstarted.stopped hmin
    cases hcurr : r₀.currTick with
    | none =>
      have hfault : fault (pause W J (r₀.atEvent 0)) = some (.undefined .endIterator) :=
        fault_pause_of_none hcurr
      exact absurd hfault (hfirst _ (.inr rfl))
    | some T =>
      have hzero : T = 0 := by
        by_contra hne
        have hfault : fault (pause W J (r₀.atEvent 0)) = some (.undefined .divisionByZero) :=
          fault_pause_of_progress hcurr hne hfew
        exact hfirst _ (.inl rfl) hfault
      subst hzero
      have h0 : r₀.trace_time_ticks.keys.head? = some 0 := hstarted.currTick.symm.trans hcurr
      refine .inr ⟨hcurr, ?_⟩
      cases hpush : pushToQueue J (r₀.atEvent 0) with
      | error e r₁ => exact .inl rfl
      | ok _ r₁ =>
        have hsize : 2 ≤ r₀.trace_time_ticks.size := by
          by_contra hone
          have hfault := fault_pause_of_interval (W := W) (r := r₀.atEvent 0) hcurr (.inl rfl)
            hpush (interval_of_one hstarted h0 hpush (by omega))
          exact hfirst _ (.inl rfl) hfault
        refine .inr ⟨hsize, ?_⟩
        cases hprocess : processTick W J (r₀.atEvent 0) with
        | error e r' => rfl
        | ok _ r' => exact absurd h (not_sound_of_second hstarted h0 hsize hfew hprocess)

end Replay

theorem replay_sound_iff_ten :
    SoundReplay Ns3.reference Jsoncpp.reference (startedOn tenTicks 0) ↔
      Survives Ns3.reference Jsoncpp.reference (startedOn tenTicks 0) := by
  have hstart : value (start LexicalCast.reference Ns3.reference (some (linesOf tenTicks))
      (create (str "80211b") 0 false false)) = some true := by decide +kernel
  exact replay_sound_iff (eq_ok_of_value hstart)

/-- With one tick the interval is 0 when it divides. -/
theorem replay_not_sound :
    start LexicalCast.reference Ns3.reference (some (linesOf ["0"]))
        (create (str "80211b") 0 false false) = .ok true (startedOn ["0"] 0) ∧
      ¬ SoundReplay Ns3.reference Jsoncpp.reference (startedOn ["0"] 0) := by
  have hstart : value (start LexicalCast.reference Ns3.reference (some (linesOf ["0"]))
      (create (str "80211b") 0 false false)) = some true := by decide +kernel
  have hfault : fault (pause Ns3.reference Jsoncpp.reference ((startedOn ["0"] 0).atEvent 0)) =
      some (.undefined .divisionByZero) := by decide +kernel
  refine ⟨eq_ok_of_value hstart, fun h => ?_⟩
  have hstarted : (startedOn ["0"] 0).Started := started_of_start (eq_ok_of_value hstart)
  have hmin : (startedOn ["0"] 0).events.min? = some 0 := by
    rw [hstarted.events, List.min?_singleton]
  exact h [] _ 0 rfl hstarted.stopped hmin _ (.inl rfl) hfault

end RoadRunnerBaseLine
end Sm4ns3
