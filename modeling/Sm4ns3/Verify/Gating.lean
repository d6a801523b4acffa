import Sm4ns3.Verify.BrokerSteps

/-!
# The queue and the clock of the broker

Over every interleaving of arrivals, rounds and posts: no bundle that was
decoded is lost, repeated or left behind (`incoming_preserved`), and under the
condition `Gated` the clock follows Sim Mobility (`ticks_le`).
-/

namespace Sm4ns3.Broker

open Bytes Cpp Call

/-! ## The queue -/

/-- The bundles that `processIncoming` took from the queue, in order. -/
def popped (trace : List Event) : List MessageConglomerate :=
  trace.filterMap fun
    | .popped conglom => some conglom
    | _ => none

/-- The bundles that arrived, were not empty and were decoded, in order. -/
def arrivals (J : Jsoncpp) (steps : List Step) : List MessageConglomerate :=
  steps.filterMap fun
    | .arrive header input => accepted J header input
    | _ => none

/-- What couples the history, the queue and the flag. -/
structure QueueInv (J : Jsoncpp) (steps : List Step) (b : Broker) : Prop where
  history : popped b.trace ++ b.m_incoming.messageList = arrivals J steps
  waiting : b.m_incoming.messageList ≠ [] → b.m_pause = false
  drained : ∀ queued, Event.ticked queued ∈ b.trace → queued = []
  is_open : b.conn.Open

@[simp] theorem popped_append (s t : List Event) : popped (s ++ t) = popped s ++ popped t :=
  List.filterMap_append ..

@[simp] theorem popped_map (cs : List MessageConglomerate) : popped (cs.map .popped) = cs := by
  induction cs with
  | nil => rfl
  | cons c cs ih => exact congrArg (c :: ·) ih

theorem arrivals_concat (J : Jsoncpp) (steps : List Step) (header : BundleHeader)
    (input : StdString) :
    arrivals J (steps ++ [.arrive header input]) =
      arrivals J steps ++ (accepted J header input).toList := by
  rw [arrivals, List.filterMap_append]
  cases h : accepted J header input <;> simp [arrivals, h]

theorem queueInv_step {W : Ns3} {J : Jsoncpp} {steps : List Step} {b b' : Broker} {l : Step}
    (hb : QueueInv J steps b) (h : step W J b l = some b') : QueueInv J (steps ++ [l]) b' := by
  cases l with
  | arrive header input =>
    rcases arrive_cases h with ⟨-, rfl, hnone⟩ | ⟨-, rfl⟩
    · exact
        { history := by rw [arrivals_concat, hnone]; simpa using hb.history
          waiting := hb.waiting
          drained := hb.drained
          is_open := hb.is_open }
    · exact
        { history := by
            rw [arrivals_concat, ← hb.history]
            cases accepted J header input <;> simp [received, ThreadSafeQueue.push]
          waiting := fun _ => rfl
          drained := hb.drained
          is_open := hb.is_open }
  | pause =>
    have harr : arrivals J (steps ++ [.pause]) = arrivals J steps := by simp [arrivals]
    rcases pause_cases h with ⟨-, rfl⟩ | ⟨-, hclosed, -⟩ | ⟨-, world, conn, hopen, rfl⟩
    · exact { hb with history := by rw [harr]; exact hb.history }
    · exact absurd hb.is_open hclosed
    · exact
        { history := by
            rw [harr, ← hb.history]
            simp [afterRound, popped]
          waiting := fun hne => absurd rfl hne
          drained := by
            intro queued hq
            simp only [afterRound, List.mem_append, List.mem_map, List.mem_cons, reduceCtorEq,
              and_false, exists_false, Event.ticked.injEq, List.not_mem_nil, or_false,
              false_or] at hq
            rcases hq with hq | hq
            · exact hb.drained queued hq
            · exact hq
          is_open := hopen }
  | post json =>
    have harr : arrivals J (steps ++ [.post json]) = arrivals J steps := by simp [arrivals]
    obtain ⟨text, -, rfl⟩ := post_cases h
    exact
      { history := by rw [harr, ← hb.history]; simp [popped]
        waiting := hb.waiting
        drained := by
          intro queued hq
          simp only [List.mem_append, List.mem_singleton, reduceCtorEq, or_false] at hq
          exact hb.drained queued hq
        is_open := hb.is_open }

/-- In every state of every run on an open connection: the bundles handled and
the bundles queued are those that arrived, in order; a queued bundle will be
handled by the next round; and no round ticks with a bundle in the queue. -/
theorem incoming_preserved {W : Ns3} {J : Jsoncpp} {b b' : Broker} {steps : List Step}
    (hb : b.Started) (hopen : b.conn.Open)
    (hrun : Transition.run (step W J) b steps = some b') :
    popped b'.trace ++ b'.m_incoming.messageList = arrivals J steps ∧
      (b'.m_incoming.messageList ≠ [] → b'.m_pause = false) ∧
      ∀ queued, Event.ticked queued ∈ b'.trace → queued = [] := by
  have hstart : QueueInv J [] b :=
    { history := by simp [hb.trace, hb.m_incoming, popped, arrivals]
      waiting := by simp [hb.m_incoming]
      drained := by simp [hb.trace]
      is_open := hopen }
  have hinv := Transition.history hstart (fun _ _ _ _ => queueInv_step) hrun
  exact ⟨hinv.history, hinv.waiting, hinv.drained⟩

/-- A bundle from `0` without a message. -/
def emptyBundle : Step := .arrive { sendIdLen := 1, remLen := 1 } (str "0")

theorem incoming_preserved_two :
    ∃ b', Transition.run (step Ns3.reference Jsoncpp.reference) ready
        [emptyBundle, .pause, emptyBundle] = some b' ∧
      popped b'.trace ++ b'.m_incoming.messageList =
        arrivals Jsoncpp.reference [emptyBundle, .pause, emptyBundle] ∧
      (b'.m_incoming.messageList ≠ [] → b'.m_pause = false) ∧
      ∀ queued, Event.ticked queued ∈ b'.trace → queued = [] := by
  obtain ⟨b', hb'⟩ := Option.isSome_iff_exists.mp
    (by decide +kernel : (Transition.run (step Ns3.reference Jsoncpp.reference) ready
      [emptyBundle, .pause, emptyBundle]).isSome = true)
  exact ⟨b', hb', incoming_preserved ready_started ready_open hb'⟩

/-! ## The clock -/

/-- The number of `ticked_client` bundles sent. -/
def ticksSent (trace : List Event) : Nat :=
  trace.countP fun
    | .ticked _ => true
    | _ => false

/-- The bundle is decoded and has a `ticked_simmob` message. -/
def carriesTick (J : Jsoncpp) (header : BundleHeader) (input : StdString) : Bool :=
  (accepted J header input).any fun c =>
    c.message_bases.any fun base => base.msg_type = str "ticked_simmob"

/-- The number of bundles with a tick that arrived. -/
def tickBundles (J : Jsoncpp) (steps : List Step) : Nat :=
  steps.countP fun
    | .arrive header input => carriesTick J header input
    | _ => false

/-- A bundle without a tick arrives only while the broker runs, or is rejected by
an exception. -/
def Gated (J : Jsoncpp) (b : Broker) : Step → Prop
  | .arrive header input =>
    carriesTick J header input = true ∨ Throws J header input ∨ b.m_pause = false
  | _ => True

/-- A broker that runs has received a tick it did not answer yet. -/
structure ClockInv (J : Jsoncpp) (steps : List Step) (b : Broker) : Prop where
  ahead : ticksSent b.trace + (if b.m_pause then 0 else 1) ≤ tickBundles J steps
  counted : b.m_global_tick = UInt32.ofNat (ticksSent b.trace)

@[simp] theorem ticksSent_append (s t : List Event) :
    ticksSent (s ++ t) = ticksSent s + ticksSent t :=
  List.countP_append ..

theorem ticksSent_popped (cs : List MessageConglomerate) : ticksSent (cs.map .popped) = 0 := by
  simp [ticksSent, List.countP_map]

theorem tickBundles_concat (J : Jsoncpp) (steps : List Step) (l : Step) :
    tickBundles J (steps ++ [l]) = tickBundles J steps + tickBundles J [l] :=
  List.countP_append ..

theorem clockInv_step {W : Ns3} {J : Jsoncpp} {steps : List Step} {b b' : Broker} {l : Step}
    (hb : ClockInv J steps b) (hl : Gated J b l) (h : step W J b l = some b') :
    ClockInv J (steps ++ [l]) b' := by
  obtain ⟨hahead, hcounted⟩ := hb
  have hmono : tickBundles J steps ≤ tickBundles J (steps ++ [l]) := by
    rw [tickBundles_concat]
    omega
  cases l with
  | arrive header input =>
    rcases arrive_cases h with ⟨-, rfl, -⟩ | ⟨hreturns, rfl⟩
    · exact ⟨hahead.trans hmono, hcounted⟩
    · refine ⟨?_, hcounted⟩
      simp only [received, Bool.false_eq_true, if_false]
      rcases hl with htick | hthrows | hrun
      · -- the tick that is received now
        have hone : tickBundles J [.arrive header input] = 1 := by simp [tickBundles, htick]
        rw [tickBundles_concat, hone]
        split at hahead <;> omega
      · exact absurd hthrows hreturns
      · rw [hrun] at hahead
        simp only [Bool.false_eq_true, if_false] at hahead
        omega
  | pause =>
    rcases pause_cases h with ⟨-, rfl⟩ | ⟨hrun, -, rfl⟩ | ⟨hrun, world, conn, -, rfl⟩
    · exact ⟨hahead.trans hmono, hcounted⟩
    · rw [hrun] at hahead
      simp only [Bool.false_eq_true, if_false] at hahead
      exact ⟨by simp only [if_true]; omega, hcounted⟩
    · -- the round answers a tick that was received
      rw [hrun] at hahead
      simp only [Bool.false_eq_true, if_false] at hahead
      have hticks : ticksSent (b.afterRound world conn).trace = ticksSent b.trace + 1 := by
        rw [afterRound, ticksSent_append, ticksSent_append, ticksSent_popped]
        rfl
      refine ⟨?_, ?_⟩
      · rw [hticks]
        simp only [afterRound, if_true]
        omega
      · rw [hticks]
        simp only [afterRound, hcounted]
        exact (UInt32.ofNat_add _ 1).symm
  | post json =>
    obtain ⟨text, -, rfl⟩ := post_cases h
    have hticks : ticksSent (b.trace ++ [.posted json]) = ticksSent b.trace := by
      rw [ticksSent_append]
      rfl
    exact ⟨by simp only [hticks]; omega, by simp only [hticks]; exact hcounted⟩

/-- In every run whose bundles without a tick arrive only while the broker runs,
every state reached has sent at most one `ticked_client` for each bundle with a
tick that arrived before it. -/
theorem ticks_le {W : Ns3} {J : Jsoncpp} {b : Broker} {steps : List Step} (hb : b.Started)
    (hgated : Transition.Along (step W J) (Gated J) b steps) {past : List Step} {b' : Broker}
    (hpast : past <+: steps) (hrun : Transition.run (step W J) b past = some b') :
    ticksSent b'.trace ≤ tickBundles J past ∧
      b'.m_global_tick = UInt32.ofNat (ticksSent b'.trace) := by
  have hstart : ClockInv J [] b :=
    { ahead := by simp [hb.trace, hb.m_pause, ticksSent]
      counted := by simp [hb.trace, hb.m_global_tick, ticksSent] }
  have hinv := Transition.history_along hstart (fun _ _ _ _ => clockInv_step)
    (hgated.of_prefix hpast) hrun
  exact ⟨(Nat.le_add_right _ _).trans hinv.ahead, hinv.counted⟩

theorem ticks_le_one :
    ∃ b', Transition.run (step Ns3.reference Jsoncpp.reference) ready [tickBundle, .pause] =
        some b' ∧
      ticksSent b'.trace ≤ tickBundles Jsoncpp.reference [tickBundle, .pause] ∧
      b'.m_global_tick = UInt32.ofNat (ticksSent b'.trace) := by
  obtain ⟨b', hb'⟩ := Option.isSome_iff_exists.mp
    (by decide +kernel : (Transition.run (step Ns3.reference Jsoncpp.reference) ready
      [tickBundle, .pause]).isSome = true)
  have hgated : Transition.Along (step Ns3.reference Jsoncpp.reference) (Gated Jsoncpp.reference)
      ready [tickBundle, .pause] :=
    ⟨.inl (by decide +kernel), fun _ _ => ⟨trivial, fun _ _ => trivial⟩⟩
  exact ⟨b', hb', ticks_le ready_started hgated (List.prefix_refl _) hb'⟩

/-- A bundle without a tick sets the clock going. -/
theorem tick_without_bundle :
    ∃ b', Transition.run (step Ns3.reference Jsoncpp.reference) ready [emptyBundle, .pause] =
        some b' ∧
      ¬ ticksSent b'.trace ≤ tickBundles Jsoncpp.reference [emptyBundle, .pause] := by
  have hrun : ((Transition.run (step Ns3.reference Jsoncpp.reference) ready
      [emptyBundle, .pause]).map fun b => ticksSent b.trace) = some 1 := by decide +kernel
  have hnone : tickBundles Jsoncpp.reference [emptyBundle, .pause] = 0 := by decide +kernel
  obtain ⟨b', hb', hsent⟩ := Option.map_eq_some_iff.mp hrun
  exact ⟨b', hb', by rw [hsent, hnone]; decide⟩

end Sm4ns3.Broker
