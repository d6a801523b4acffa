import Sm4ns3.Verify.Multicasts

/-!
# The schedule of a replay

`pause` schedules its own next call. After `k` calls that return, the event that is left is
the one of tick `k`, at as many milliseconds as its time is behind the first (`Replayed`), so
the calls are those of `timetable` (`replay_schedule`).
-/

namespace Sm4ns3

open Bytes Cpp Call

/-- In a sorted list the first element behind an element is the next one. -/
theorem find?_of_sorted {α : Type} [LT α] [DecidableLT α] [Std.Asymm (α := α) (· < ·)]
    {xs : List α} (hsorted : xs.Pairwise (· < ·)) {k : Nat} {x : α} (h : xs[k]? = some x) :
    xs.find? (fun y => decide (x < y)) = xs[k + 1]? := by
  induction xs generalizing k with
  | nil => simp at h
  | cons y ys ih =>
    obtain ⟨hfirst, hrest⟩ := List.pairwise_cons.mp hsorted
    cases k with
    | zero =>
      obtain rfl : y = x := by simpa using h
      rw [List.find?_cons_of_neg (by simpa using fun hlt => Std.Asymm.asymm y y hlt hlt)]
      cases ys with
      | nil => rfl
      | cons z zs =>
        rw [List.find?_cons_of_pos (by simpa using hfirst z List.mem_cons_self)]
        rfl
    | succ k =>
      rw [List.getElem?_cons_succ] at h
      have hlt : y < x := hfirst x (List.mem_of_getElem? h)
      rw [List.find?_cons_of_neg (by simpa using Std.Asymm.asymm y x hlt), ih hrest h]
      rfl

namespace RoadRunnerBaseLine

/-! ## Before the first call -/

/-- Nothing is scheduled. -/
structure Idle (r : RoadRunnerBaseLine) : Prop where
  events : r.events = []
  stopped : r.stopped = 0
  now : r.now = 0
  interval : r.interval = 0

theorem Idle.lineRead {r r' : RoadRunnerBaseLine} {line : StdString} (hr : r.Idle)
    (h : LineRead r line r') : r'.Idle := by
  cases h <;> exact ⟨hr.events, hr.stopped, hr.now, hr.interval⟩

theorem idle_of_parse {B : LexicalCast} {contents : Option StdString} {r r' : RoadRunnerBaseLine}
    {u : Unit} (hr : r.Idle) (h : parse B contents r = .ok u r') : r'.Idle := by
  unfold parse at h
  rw [modify_bind_apply] at h
  cases contents with
  | none => cases h
  | some text =>
    refine forEach_invariant (I := Idle) (fun line _ s t v hs hrun => ?_) ?_ h
    · exact hs.lineRead (parseLine_cases hrun)
    · exact ⟨hr.events, hr.stopped, hr.now, hr.interval⟩

/-- The state after `start`. -/
structure Started (r : RoadRunnerBaseLine) : Prop where
  prevTick : r.prevTick = none
  currTick : r.currTick = r.trace_time_ticks.keys.head?
  events : r.events = [0]
  stopped : r.stopped = 0
  interval : r.interval = 0

theorem started_of_start {B : LexicalCast} {W : Ns3} {contents : Option StdString}
    {protocol : StdString} {nof_agents : UInt32} {dc dl b : Bool} {r : RoadRunnerBaseLine}
    (h : start B W contents (create protocol nof_agents dc dl) = .ok b r) : r.Started := by
  obtain ⟨_, r₁, hparse, h⟩ := bind_eq_ok h
  obtain ⟨_, r₂, hnodes, h⟩ := bind_eq_ok h
  cases h
  have hidle : r₁.Idle := idle_of_parse ⟨rfl, rfl, rfl, rfl⟩ hparse
  obtain ⟨w', -, -, rfl⟩ := createNodes_eq_ok hnodes
  refine ⟨rfl, rfl, ?_, hidle.stopped, hidle.interval⟩
  change r₁.events ++ [r₁.now + 0] = [0]
  rw [hidle.events, hidle.now]
  rfl

/-! ## The calls -/

/-- The state in which the simulator calls `pause` for an event. -/
def atEvent (r : RoadRunnerBaseLine) (time : Nat) : RoadRunnerBaseLine :=
  { r with now := time, events := r.events.erase time }

/-- A call of `pause`, labelled with its simulated time and the tick that it replays. -/
def call (W : Ns3) (J : Jsoncpp) (r : RoadRunnerBaseLine) (label : Nat × UInt32) :
    Option RoadRunnerBaseLine :=
  if r.events.min? = some label.1 ∧ r.currTick = some label.2 then simulate W J r () else none

/-- Each tick at its time after the first. -/
def timetable (t0 : UInt32) (keys : List UInt32) : List (Nat × UInt32) :=
  keys.map fun T => (T.toNat - t0.toNat, T)

/-- The state after `k` calls that returned. -/
structure Replayed (r₀ r : RoadRunnerBaseLine) (t0 : UInt32) (k : Nat) : Prop where
  ticks : r.trace_time_ticks = r₀.trace_time_ticks
  prevTick : ∀ j, k = j + 1 → r.prevTick = r₀.trace_time_ticks.keys[j]?
  currTick : r.currTick = r₀.trace_time_ticks.keys[k]?
  events : r.events = ((timetable t0 r₀.trace_time_ticks.keys)[k]?).toList.map Prod.fst
  stopped : r.stopped = if k < r₀.trace_time_ticks.keys.length then 0 else 1
  interval : ∀ T T', r.prevTick = some T → r.currTick = some T' →
    T < T' ∧ T.toNat + r.interval.toNat = T'.toNat

section Calls

variable {W : Ns3} {J : Jsoncpp} {r₀ r r' : RoadRunnerBaseLine} {t0 T : UInt32} {k : Nat}

theorem keys_sorted (r : RoadRunnerBaseLine) : r.trace_time_ticks.keys.Pairwise (· < ·) :=
  Std.TreeMap.ordered_keys.imp Std.compare_eq_lt.mp

theorem lt_of_keys {T' : UInt32} (hT : r.trace_time_ticks.keys[k]? = some T)
    (hT' : r.trace_time_ticks.keys[k + 1]? = some T') : T < T' := by
  obtain ⟨hk, hkT⟩ := List.getElem?_eq_some_iff.mp hT
  obtain ⟨hk', hkT'⟩ := List.getElem?_eq_some_iff.mp hT'
  rw [← hkT, ← hkT']
  exact List.pairwise_iff_getElem.mp (keys_sorted r) k (k + 1) hk hk' (Nat.lt_succ_self k)

/-- The first key is the smallest. -/
theorem le_of_mem_keys (h0 : r.trace_time_ticks.keys.head? = some t0)
    (hT : T ∈ r.trace_time_ticks.keys) : t0 ≤ T := by
  have hsorted := keys_sorted r
  cases hkeys : r.trace_time_ticks.keys with
  | nil =>
    rw [hkeys] at hT
    cases hT
  | cons t ts =>
    rw [hkeys] at h0 hT hsorted
    obtain rfl := Option.some.inj h0
    rcases List.mem_cons.mp hT with rfl | hlater
    · exact Std.le_refl T
    · exact Std.le_of_lt ((List.pairwise_cons.mp hsorted).1 T hlater)

theorem nextTick_eq (h : r.trace_time_ticks.keys[k]? = some T) :
    r.nextTick T = r.trace_time_ticks.keys[k + 1]? :=
  find?_of_sorted (keys_sorted r) h

theorem replayed_zero (hstart : r₀.Started) (h0 : r₀.trace_time_ticks.keys.head? = some t0) :
    Replayed r₀ r₀ t0 0 := by
  obtain ⟨ts, hkeys⟩ : ∃ ts, r₀.trace_time_ticks.keys = t0 :: ts :=
    ⟨_, List.eq_cons_of_mem_head? h0⟩
  refine ⟨rfl, fun j hj => ?_, ?_, ?_, ?_, fun T T' hprev => ?_⟩
  · cases hj
  · rw [hstart.currTick, List.head?_eq_getElem?]
  · rw [hstart.events, hkeys]
    simp [timetable]
  · rw [hstart.stopped, hkeys]
    rfl
  · rw [hstart.prevTick] at hprev
    cases hprev

/-- The event that is left belongs to the tick that `currTick` points to. -/
theorem Replayed.event (hr : Replayed r₀ r t0 k) (hT : r.currTick = some T) :
    r.events = [T.toNat - t0.toNat] := by
  rw [hr.currTick] at hT
  rw [hr.events, timetable, List.getElem?_map, hT]
  rfl

theorem Replayed.lt (hr : Replayed r₀ r t0 k) (hT : r.currTick = some T) :
    k < r₀.trace_time_ticks.keys.length := by
  rw [hr.currTick] at hT
  exact (List.getElem?_eq_some_iff.mp hT).1

theorem toNat_sub {T T' : UInt32} (h : T < T') : T.toNat + (T' - T).toNat = T'.toNat := by
  have hlt : T.toNat < T'.toNat := h
  rw [UInt32.toNat_sub_of_le T' T (Nat.le_of_lt h)]
  omega

/-- The end of the call for tick `k`. -/
theorem replayed_ended {s : RoadRunnerBaseLine} (h0 : r₀.trace_time_ticks.keys.head? = some t0)
    (hT : r₀.trace_time_ticks.keys[k]? = some T) (hticks : s.trace_time_ticks = r₀.trace_time_ticks)
    (hprev : s.prevTick = some T) (hcurr : s.currTick = r₀.trace_time_ticks.keys[k + 1]?)
    (hinterval : ∀ T', s.currTick = some T' → s.interval = T' - T) (hevents : s.events = [])
    (hnow : s.now = T.toNat - t0.toNat) (hstopped : s.stopped = 0) :
    Replayed r₀ s.ended t0 (k + 1) := by
  obtain ⟨hsame, -, hcurr', hprev', hinterval', -⟩ := ended_same s
  have hlaw : ∀ T₁ T', s.ended.prevTick = some T₁ → s.ended.currTick = some T' →
      T₁ < T' ∧ T₁.toNat + s.ended.interval.toNat = T'.toNat := by
    intro T₁ T' hT₁ hT'
    rw [hprev', hprev] at hT₁
    obtain rfl := Option.some.inj hT₁
    rw [hcurr'] at hT'
    rw [hinterval', hinterval T' hT']
    rw [hcurr] at hT'
    have hlt := lt_of_keys hT hT'
    exact ⟨hlt, toNat_sub hlt⟩
  refine ⟨hsame.trace_time_ticks.trans hticks, fun j hj => ?_, hcurr'.trans hcurr, ?_, ?_, hlaw⟩
  · obtain rfl : k = j := Nat.succ.inj hj
    rw [hprev', hprev, hT]
  · rw [timetable, List.getElem?_map, ← hcurr]
    cases hnext : s.currTick with
    | none =>
      rw [ended, if_neg (by simp [hnext])]
      exact hevents
    | some T' =>
      obtain ⟨-, hsum⟩ := hlaw T T' (hprev'.trans hprev) (hcurr'.trans hnext)
      have hle : t0.toNat ≤ T.toNat := le_of_mem_keys h0 (List.mem_of_getElem? hT)
      rw [hinterval'] at hsum
      have htime : s.now + s.interval.toNat = T'.toNat - t0.toNat := by omega
      rw [ended, if_pos (by simp [hnext])]
      change s.events ++ [s.now + s.interval.toNat] = _
      rw [hevents, htime]
      rfl
  · cases hnext : s.currTick with
    | none =>
      rw [hcurr, List.getElem?_eq_none_iff] at hnext
      rw [if_neg (by omega), ended, if_neg (by rw [hcurr, List.getElem?_eq_none hnext]; simp)]
      change s.stopped + 1 = 1
      rw [hstopped]
    | some T' =>
      rw [ended, if_pos (by simp [hnext])]
      rw [hcurr] at hnext
      rw [if_pos (List.getElem?_eq_some_iff.mp hnext).1]
      exact hstopped

/-- One more call. -/
theorem Replayed.pause (h0 : r₀.trace_time_ticks.keys.head? = some t0)
    (hr : Replayed r₀ r t0 k) (hT : r.currTick = some T) {time : Nat}
    (hmin : r.events.min? = some time) {u : Unit} (h : pause W J (r.atEvent time) = .ok u r') :
    time = T.toNat - t0.toNat ∧ Replayed r₀ r' t0 (k + 1) := by
  have hevents := hr.event hT
  have htime : time = T.toNat - t0.toNat := by
    rw [hevents] at hmin
    simpa using hmin.symm
  obtain ⟨T', r₁, id, b, hcurr, -, hpush, -, -, -, rfl⟩ := pause_eq_ok h
  obtain ⟨-, -, c, -, -, rfl⟩ := pushToQueue_eq_ok hpush
  obtain rfl : T = T' := Option.some.inj (hT.symm.trans hcurr)
  have hkey : r₀.trace_time_ticks.keys[k]? = some T := hr.currTick.symm.trans hT
  have hnext : r.nextTick T = r₀.trace_time_ticks.keys[k + 1]? := by
    rw [nextTick, hr.ticks]
    exact nextTick_eq hkey
  refine ⟨htime, replayed_ended h0 hkey hr.ticks hT hnext (fun T' hT' => ?_) ?_ htime ?_⟩
  · exact advanced_interval_some hT'
  · change r.events.erase time = []
    rw [hevents, htime]
    exact List.erase_cons_head _ _
  · change r.stopped = 0
    rw [hr.stopped, if_pos (hr.lt hT)]

/-! ## Runs -/

/-- A run of the simulator makes one call for each step. -/
theorem replayed_of_run (hstart : r₀.Started) (h0 : r₀.trace_time_ticks.keys.head? = some t0)
    {steps : List Unit} (h : Transition.run (simulate W J) r₀ steps = some r) :
    Replayed r₀ r t0 steps.length := by
  refine Transition.history (R := fun steps r => Replayed r₀ r t0 steps.length)
    (replayed_zero hstart h0) (fun steps s step s' hs hstep => ?_) h
  obtain ⟨time, -, hmin, hpause⟩ := simulate_eq_some hstep
  obtain ⟨T, -, -, -, hcurr, -⟩ := pause_eq_ok hpause
  rw [List.length_append]
  exact (hs.pause h0 hcurr hmin hpause).2

theorem call_eq_some {label : Nat × UInt32} : call W J r label = some r' ↔
    r.events.min? = some label.1 ∧ r.currTick = some label.2 ∧ simulate W J r () = some r' := by
  rw [call]
  by_cases hlabel : r.events.min? = some label.1 ∧ r.currTick = some label.2
  · rw [if_pos hlabel]
    exact ⟨fun h => ⟨hlabel.1, hlabel.2, h⟩, fun h => h.2.2⟩
  · rw [if_neg hlabel]
    constructor
    · intro h
      cases h
    · intro h
      exact absurd ⟨h.1, h.2.1⟩ hlabel

/-- Without the labels the calls are a run of the simulator. -/
theorem run_simulate {calls : List (Nat × UInt32)}
    (h : Transition.run (call W J) r₀ calls = some r) :
    Transition.run (simulate W J) r₀ (calls.map fun _ => ()) = some r := by
  refine Transition.history (R := fun calls r =>
    Transition.run (simulate W J) r₀ (calls.map fun _ => ()) = some r)
    rfl (fun calls s label s' hs hstep => ?_) h
  rw [List.map_append]
  exact Transition.run_concat_eq_some.mpr ⟨s, hs, (call_eq_some.mp hstep).2.2⟩

/-- The next call, in a state that `k` calls led to. -/
theorem Replayed.call (hr : Replayed r₀ r t0 k) {label : Nat × UInt32}
    (h : call W J r label = some r') :
    (timetable t0 r₀.trace_time_ticks.keys)[k]? = some label := by
  obtain ⟨hmin, hcurr, -⟩ := call_eq_some.mp h
  rw [hr.event hcurr, List.min?_singleton] at hmin
  rw [hr.currTick] at hcurr
  rw [timetable, List.getElem?_map, hcurr, Option.map_some, Option.some.inj hmin]

/-- Every run of the simulator has its labels, and they stand at the beginning of the timetable. -/
theorem run_call (hstart : r₀.Started) (h0 : r₀.trace_time_ticks.keys.head? = some t0)
    {steps : List Unit} (h : Transition.run (simulate W J) r₀ steps = some r) :
    Transition.run (call W J) r₀ ((timetable t0 r₀.trace_time_ticks.keys).take steps.length) =
      some r := by
  refine (Transition.history (R := fun steps r => Replayed r₀ r t0 steps.length ∧
      Transition.run (call W J) r₀
        ((timetable t0 r₀.trace_time_ticks.keys).take steps.length) = some r)
    ⟨replayed_zero hstart h0, rfl⟩ (fun steps s step s' hs hstep => ?_) h).2
  obtain ⟨hreplayed, hrun⟩ := hs
  obtain ⟨time, -, hmin, hpause⟩ := simulate_eq_some hstep
  obtain ⟨T, -, -, -, hcurr, -⟩ := pause_eq_ok hpause
  have hcall : call W J s (time, T) = some s' := call_eq_some.mpr ⟨hmin, hcurr, hstep⟩
  rw [List.length_append]
  refine ⟨(hreplayed.pause h0 hcurr hmin hpause).2, ?_⟩
  rw [List.length_singleton, List.take_add_one, hreplayed.call hcall, Option.toList_some]
  exact Transition.run_concat_eq_some.mpr ⟨s, hrun, hcall⟩

/-- There is at most one call for each tick. -/
theorem length_le_of_run (hstart : r₀.Started)
    (h0 : r₀.trace_time_ticks.keys.head? = some t0) {steps : List Unit}
    (h : Transition.run (simulate W J) r₀ steps = some r) :
    steps.length ≤ r₀.trace_time_ticks.keys.length := by
  induction steps using List.reverseRecOn generalizing r with
  | nil => exact Nat.zero_le _
  | append_singleton steps step ih =>
    obtain ⟨s, hrun, hstep⟩ := Transition.run_concat_eq_some.mp h
    obtain ⟨time, -, -, hpause⟩ := simulate_eq_some hstep
    obtain ⟨T, -, -, -, hcurr, -⟩ := pause_eq_ok hpause
    rw [List.length_append]
    exact (replayed_of_run hstart h0 hrun).lt hcurr

/-- No call of `pause` that the simulator makes faults or throws. -/
def PausesReturn (W : Ns3) (J : Jsoncpp) (r₀ : RoadRunnerBaseLine) : Prop :=
  ∀ steps r time, Transition.run (simulate W J) r₀ steps = some r → r.stopped = 0 →
    r.events.min? = some time → ∃ r', pause W J (r.atEvent time) = .ok () r'

/-- The first call for a tick that is still to come is made. -/
theorem exists_run (hstart : r₀.Started) (h0 : r₀.trace_time_ticks.keys.head? = some t0)
    (hpauses : PausesReturn W J r₀) (hk : k ≤ r₀.trace_time_ticks.keys.length) :
    ∃ r, Transition.run (simulate W J) r₀ (List.replicate k ()) = some r := by
  induction k with
  | zero => exact ⟨r₀, rfl⟩
  | succ k ih =>
    obtain ⟨r, hrun⟩ := ih (Nat.le_of_succ_le hk)
    have hreplayed := replayed_of_run hstart h0 hrun
    rw [List.length_replicate] at hreplayed
    have hcurr := hreplayed.currTick
    rw [List.getElem?_eq_getElem hk] at hcurr
    have hstopped : r.stopped = 0 := by rw [hreplayed.stopped, if_pos (Nat.lt_of_succ_le hk)]
    have hmin := congrArg List.min? (hreplayed.event hcurr)
    rw [List.min?_singleton] at hmin
    obtain ⟨r', hpause⟩ := hpauses _ r _ hrun hstopped hmin
    refine ⟨r', ?_⟩
    rw [List.replicate_succ', Transition.run_concat_eq_some]
    refine ⟨r, hrun, ?_⟩
    rw [simulate, if_pos hstopped, hmin, Option.bind_some, returned_unit_eq_some]
    exact hpause

/-- The replay is that of the timetable: its calls are made and no others, the last one stops
the simulator, and no difference of ticks wraps. -/
structure KeepsTimetable (W : Ns3) (J : Jsoncpp) (r₀ : RoadRunnerBaseLine) (t0 : UInt32) :
    Prop where
  first : r₀.trace_time_ticks.keys.head? = some t0
  increasing : r₀.trace_time_ticks.keys.Pairwise (· < ·)
  all : ∃ r, Transition.run (call W J) r₀ (timetable t0 r₀.trace_time_ticks.keys) = some r ∧
    r.events = []
  only : ∀ steps r, Transition.run (simulate W J) r₀ steps = some r → ∃ calls,
    calls <+: timetable t0 r₀.trace_time_ticks.keys ∧ calls.length = steps.length ∧
      Transition.run (call W J) r₀ calls = some r
  stopped : ∀ calls r, Transition.run (call W J) r₀ calls = some r →
    r.stopped = if calls.length < r₀.trace_time_ticks.size then 0 else 1
  interval : ∀ calls r T T', Transition.run (call W J) r₀ calls = some r →
    r.prevTick = some T → r.currTick = some T' →
      T < T' ∧ T.toNat + r.interval.toNat = T'.toNat

end Calls

/-- A replay of which no call faults or throws keeps its timetable. -/
theorem replay_schedule {B : LexicalCast} {W : Ns3} {J : Jsoncpp} {contents : Option StdString}
    {protocol : StdString} {nof_agents : UInt32} {dc dl b : Bool} {r₀ : RoadRunnerBaseLine}
    (hstart : start B W contents (create protocol nof_agents dc dl) = .ok b r₀)
    (hpauses : PausesReturn W J r₀) : ∃ t0, KeepsTimetable W J r₀ t0 := by
  have hstarted := started_of_start hstart
  obtain ⟨t0, h0⟩ : ∃ t0, r₀.trace_time_ticks.keys.head? = some t0 := by
    have hmin : r₀.events.min? = some 0 := by rw [hstarted.events, List.min?_singleton]
    obtain ⟨r', hpause⟩ := hpauses [] r₀ 0 rfl hstarted.stopped hmin
    obtain ⟨T, -, -, -, hcurr, -⟩ := pause_eq_ok hpause
    exact ⟨T, hstarted.currTick.symm.trans hcurr⟩
  have hlength : (timetable t0 r₀.trace_time_ticks.keys).length =
      r₀.trace_time_ticks.keys.length := List.length_map _
  refine ⟨t0, ⟨h0, keys_sorted r₀, ?_, fun steps r h => ?_, fun calls r h => ?_,
    fun calls r T T' h => ?_⟩⟩
  · obtain ⟨r, hrun⟩ := exists_run hstarted h0 hpauses (Nat.le_refl _)
    have hreplayed := replayed_of_run hstarted h0 hrun
    have hcalls := run_call hstarted h0 hrun
    rw [List.length_replicate] at hreplayed hcalls
    rw [← hlength, List.take_length] at hcalls
    refine ⟨r, hcalls, ?_⟩
    rw [hreplayed.events, ← hlength, List.getElem?_length]
    rfl
  · refine ⟨_, List.take_prefix steps.length _, ?_, run_call hstarted h0 h⟩
    rw [List.length_take, hlength, Nat.min_eq_left (length_le_of_run hstarted h0 h)]
  · have hreplayed := replayed_of_run hstarted h0 (run_simulate h)
    rw [List.length_map] at hreplayed
    rw [hreplayed.stopped, Std.TreeMap.length_keys]
  · exact (replayed_of_run hstarted h0 (run_simulate h)).interval T T'

/-- A run that ends with the simulator stopped shows that every call returned. -/
theorem pausesReturn_of_run {W : Ns3} {J : Jsoncpp} {r₀ r : RoadRunnerBaseLine} {n : Nat}
    (h : Transition.run (simulate W J) r₀ (List.replicate n ()) = some r)
    (hstopped : r.stopped ≠ 0) : PausesReturn W J r₀ := by
  intro steps s time hrun hs hmin
  have hsteps : steps = List.replicate steps.length () :=
    List.eq_replicate_of_mem fun _ _ => rfl
  rw [hsteps] at hrun
  by_cases hlt : steps.length < n
  · obtain ⟨m, rfl⟩ := Nat.exists_eq_add_of_lt hlt
    rw [Nat.add_assoc, ← List.replicate_append_replicate, Transition.run_append, hrun,
      Option.bind_some, List.replicate_succ, Transition.run_cons_eq_some] at h
    obtain ⟨s', hstep, -⟩ := h
    obtain ⟨time', -, hmin', hpause⟩ := simulate_eq_some hstep
    obtain rfl := Option.some.inj (hmin.symm.trans hmin')
    exact ⟨s', hpause⟩
  · obtain ⟨m, hm⟩ := Nat.exists_eq_add_of_le (Nat.le_of_not_lt hlt)
    rw [hm, ← List.replicate_append_replicate, Transition.run_append, h, Option.bind_some] at hrun
    cases m with
    | zero =>
      cases hrun
      exact absurd hs hstopped
    | succ m =>
      rw [List.replicate_succ, Transition.run_cons, simulate, if_neg hstopped] at hrun
      cases hrun

/-- Ten ticks with uneven gaps. -/
def tenTicks : List String := ["0", "10", "20", "35", "36", "50", "60", "61", "62", "100"]

theorem replay_schedule_ten :
    ∃ t0, KeepsTimetable Ns3.reference Jsoncpp.reference (startedOn tenTicks 0) t0 := by
  have hstart : value (start LexicalCast.reference Ns3.reference (some (linesOf tenTicks))
      (create (str "80211b") 0 false false)) = some true := by decide +kernel
  have hend : (Transition.run (simulate Ns3.reference Jsoncpp.reference) (startedOn tenTicks 0)
      (List.replicate 10 ())).map (fun r => r.stopped) = some 1 := by decide +kernel
  obtain ⟨r, hrun, hstopped⟩ := Option.map_eq_some_iff.mp hend
  exact replay_schedule (eq_ok_of_value hstart)
    (pausesReturn_of_run hrun (by rw [hstopped]; exact Nat.one_ne_zero))

end RoadRunnerBaseLine
end Sm4ns3
