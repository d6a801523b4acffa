import Sm4ns3.Verify.SystemRuns

/-!
# In lock step

Every bundle clears `m_pause`, and a round takes all bundles that wait. A Sim Mobility
that does not go on to the next bundle before the answer to the last one keeps the two
simulators in step nevertheless: each round takes one bundle, and at tick `n` the agents
are as after the first `n` bundles, however these were cut and the steps ordered
(`lock_step`).
-/

namespace Sm4ns3.System

open Bytes Cpp Call Rounds

variable {W : Ns3} {J : Jsoncpp} {s₀ s s' : System} {past actions : List Action} {action : Action}
  {acts : List (Act (BundleHeader × StdString) Json)} {a : Abstract}
  {bundles : List (BundleHeader × StdString)}

/-- The octets of the bundles that were answered at a tick, and of the next one. -/
def upToTick (bundles : List (BundleHeader × StdString)) (tick : Nat) : StdString :=
  ((bundles.take (tick + 1)).map Session.frame).flatten

/-- Sim Mobility sends these bundles in pieces, and begins none before the tick that answers
the one before it. -/
structure Waits (W : Ns3) (J : Jsoncpp) (bundles : List (BundleHeader × StdString)) (s₀ : System)
    (actions : List Action) : Prop where
  begun : s₀.unread <+: upToTick bundles 0
  sends : ∀ i octets s, actions[i]? = some (.send octets) →
    Transition.run (step W J) s₀ (actions.take i) = some s →
    s₀.unread ++ sentOctets (actions.take i) ++ octets <+:
      upToTick bundles s.broker.m_global_tick.toNat

theorem Waits.of_concat (h : Waits W J bundles s₀ (past ++ [action])) :
    Waits W J bundles s₀ past where
  begun := h.begun
  sends := by
    intro i octets s hi hrun
    have hlt : i < past.length := (List.getElem?_eq_some_iff.mp hi).1
    have htake : (past ++ [action]).take i = past.take i :=
      List.take_append_of_le_length (Nat.le_of_lt hlt)
    have hsame : (past ++ [action])[i]? = past[i]? := List.getElem?_append_left hlt
    rw [← htake] at hrun ⊢
    exact h.sends i octets s (hsame.trans hi) hrun

/-- What is sent last waits for the tick of the state that it is sent in. -/
theorem Waits.last {octets : StdString} (h : Waits W J bundles s₀ (past ++ [.send octets]))
    (hrun : Transition.run (step W J) s₀ past = some s) :
    s₀.unread ++ sentOctets past ++ octets <+: upToTick bundles s.broker.m_global_tick.toNat := by
  have htake : (past ++ [Action.send octets]).take past.length = past := List.take_left
  have hlast := h.sends past.length octets s (by simp) (by rwa [htake])
  rwa [htake] at hlast

theorem upToTick_mono (bundles : List (BundleHeader × StdString)) {m n : Nat} (h : m ≤ n) :
    upToTick bundles m <+: upToTick bundles n := by
  obtain ⟨more, hmore⟩ : bundles.take (m + 1) <+: bundles.take (n + 1) :=
    List.take_prefix_take_left (Nat.succ_le_succ h)
  refine ⟨(more.map Session.frame).flatten, ?_⟩
  rw [upToTick, upToTick, ← hmore, List.map_append, List.flatten_append]

/-! ## One round, one bundle -/

/-- The rounds so far took one bundle each, and Sim Mobility is at most one bundle ahead. -/
structure InStep (bundles : List (BundleHeader × StdString)) (s₀ : System) (past : List Action)
    (a : Abstract) : Prop where
  sent : s₀.unread ++ sentOctets past <+: upToTick bundles a.log.length
  ones : ∀ round ∈ a.log, round.1.length = 1

/-- The bundles that entered are the first ones. -/
theorem Follows.entered_first (h : Follows J W s₀ past s acts a)
    (hbundles : ∀ bundle ∈ bundles, Session.Framed bundle) (hin : InStep bundles s₀ past a) :
    ∃ next, bundles.take (a.log.length + 1) = entered acts ++ next := by
  obtain ⟨session, begun, -, hoctets⟩ := h.octets
  obtain ⟨more, hmore⟩ := hin.sent
  rw [hoctets, List.append_assoc] at hmore
  obtain ⟨next, hnext, -⟩ := Session.frame_selfDelimiting.split h.framed
    (fun bundle hbundle => hbundles bundle (List.mem_of_mem_take hbundle)) hmore
  exact ⟨next, hnext⟩

/-- No more than one bundle entered that is not answered. -/
theorem Follows.length_entered_le (h : Follows J W s₀ past s acts a)
    (hbundles : ∀ bundle ∈ bundles, Session.Framed bundle) (hin : InStep bundles s₀ past a) :
    (entered acts).length ≤ a.log.length + 1 := by
  obtain ⟨next, hnext⟩ := h.entered_first hbundles hin
  have hlen := congrArg List.length hnext
  rw [List.length_take, List.length_append] at hlen
  omega

/-- The tick does not wrap around: it is the number of rounds. -/
theorem Follows.tick_toNat (h : Follows J W s₀ past s acts a)
    (hbundles : ∀ bundle ∈ bundles, Session.Framed bundle) (hfew : bundles.length < 2 ^ 32)
    (hin : InStep bundles s₀ past a) : s.broker.m_global_tick.toNat = a.log.length := by
  obtain ⟨next, hnext⟩ := h.entered_first hbundles hin
  have hlen := congrArg List.length hnext
  have htaken : a.taken.length = a.log.length := length_taken hin.ones
  have hall := congrArg List.length h.sound.requests
  rw [List.length_take, List.length_append] at hlen
  rw [List.length_append] at hall
  have hlt : a.log.length < 2 ^ 32 := by omega
  rw [h.tick]
  simpa using hlt

theorem length_log_le_of_run {more : List (Act (BundleHeader × StdString) Json)} {b : Abstract}
    (hmore : Act.round ∉ more ∨ more = [.round])
    (hrun : Transition.run Rounds.step a more = some b) : a.log.length ≤ b.log.length := by
  rcases hmore with hnot | rfl
  · rw [log_of_run hnot hrun]
  · rw [log_of_round hrun, List.length_append]
    exact Nat.le_add_right _ _

/-- While Sim Mobility waits, the system is in step. -/
theorem simulates_inStep (hbundles : ∀ bundle ∈ bundles, Session.Framed bundle)
    (hfew : bundles.length < 2 ^ 32) :
    Transition.Simulates (step W J) Rounds.step fun past s acts a =>
      Follows J W s₀ past s acts a ∧ Transition.run (step W J) s₀ past = some s ∧
        (Waits W J bundles s₀ past → InStep bundles s₀ past a) := by
  rintro past s acts a action s' ⟨h, hrun, hin⟩ hstep
  obtain ⟨more, b, hmore, hacts, h'⟩ := h.step_cases hstep
  refine ⟨more, b, hacts, h', Transition.run_concat_eq_some.mpr ⟨s, hrun, hstep⟩, fun hwaits => ?_⟩
  have hbefore := hin hwaits.of_concat
  have hgrows := upToTick_mono bundles (length_log_le_of_run hmore hacts)
  refine ⟨?_, h.sound.takes_one hbefore.ones (h.length_entered_le hbundles hbefore) hmore hacts⟩
  cases action with
  | send octets =>
    have hlast := hwaits.last hrun
    rw [h.tick_toNat hbundles hfew hbefore] at hlast
    rw [sentOctets_concat, ← List.append_assoc]
    simpa [sentOctets] using hlast.trans hgrows
  | _ =>
    rw [sentOctets_other fun _ => Action.noConfusion]
    exact hbefore.sent.trans hgrows

theorem inStep_first (hwaits : Waits W J bundles s₀ []) : InStep bundles s₀ [] {} :=
  ⟨by simpa [sentOctets] using hwaits.begun, by simp⟩

/-- While Sim Mobility waits for each answer, every round takes one bundle, at most one more
waits, the tick is the number of bundles answered, and the agents are as if the bundles up
to the tick had been handled one after the other. -/
theorem lock_step (hs : s₀.Ready) (hbundles : ∀ bundle ∈ bundles, Session.Framed bundle)
    (hfew : bundles.length < 2 ^ 32) (hwaits : Waits W J bundles s₀ actions)
    (hrun : Transition.run (step W J) s₀ actions = some s) :
    ∃ log waiting coming, bundles = log.flatMap Prod.fst ++ waiting ++ coming ∧
      (∀ round ∈ log, round.1.length = 1) ∧ waiting.length ≤ 1 ∧
      s.broker.m_global_tick.toNat = log.length ∧
      s.broker.m_incoming.messageList = decoded J waiting ∧
      s.written = s₀.written ++ ((replies J [] log).map Session.frame).flatten ∧
      Transition.run (handled W J) s₀.broker.world
        (queuedMessages (decoded J (bundles.take s.broker.m_global_tick.toNat))) =
          some s.broker.world := by
  have hfirst : Waits W J bundles s₀ [] := ⟨hwaits.begun, by simp⟩
  obtain ⟨acts, a, -, h, -, hin⟩ := (simulates_inStep hbundles hfew).run
    ⟨follows_ready hs, rfl, fun _ => inStep_first hfirst⟩ hrun
  have hin := hin hwaits
  have htick := h.tick_toNat hbundles hfew hin
  have htaken : a.taken.length = a.log.length := length_taken hin.ones
  have hentered := h.length_entered_le hbundles hin
  obtain ⟨next, hnext⟩ := h.entered_first hbundles hin
  have hsplit : bundles = a.taken ++ a.waiting ++ (next ++ bundles.drop (a.log.length + 1)) := by
    rw [h.sound.requests, ← List.append_assoc, ← hnext, List.take_append_drop]
  have hwaiting := congrArg List.length h.sound.requests
  rw [List.length_append] at hwaiting
  refine ⟨a.log, a.waiting, _, hsplit, hin.ones, by omega, htick, h.queue, h.replied, ?_⟩
  have hup : bundles.take s.broker.m_global_tick.toNat = a.taken := by
    rw [htick, ← htaken, hsplit, List.append_assoc, List.take_left]
  rw [hup]
  exact h.world

/-- Agent `1` enters again and agent `3` leaves. -/
def oneForThree : BundleHeader × StdString :=
  Registration.bundled
    (str "\x7b\"add\":[\"1\"],\"msg_type\":\"new_agents\",\"rem\":[\"3\"]\x7d")

/-- A bundle, and the next one after the answer. -/
def oneByOne : List Action :=
  [.send (Session.frame threeForOne), .complete, .complete, .pause,
    .send (Session.frame oneForThree)]

theorem oneByOne_waits :
    Waits Ns3.reference Jsoncpp.reference [threeForOne, oneForThree] freshTwo oneByOne where
  begun := by decide +kernel
  sends := by
    intro i octets s hi hrun
    have hlt : i < 5 := (List.getElem?_eq_some_iff.mp hi).1
    have hanswered : (Transition.run (step Ns3.reference Jsoncpp.reference) freshTwo
        (oneByOne.take 4)).map (fun s => s.broker.m_global_tick.toNat) = some 1 := by
      decide +kernel
    interval_cases i
    · cases hi
      cases hrun
      decide +kernel
    · cases hi
    · cases hi
    · cases hi
    · cases hi
      rw [hrun] at hanswered
      have hone : s.broker.m_global_tick.toNat = 1 := Option.some.inj hanswered
      rw [hone]
      decide +kernel

theorem lock_step_two : ∃ s,
    Transition.run (step Ns3.reference Jsoncpp.reference) freshTwo oneByOne = some s ∧
    ∃ log waiting coming, [threeForOne, oneForThree] = log.flatMap Prod.fst ++ waiting ++ coming ∧
      (∀ round ∈ log, round.1.length = 1) ∧ waiting.length ≤ 1 ∧
      s.broker.m_global_tick.toNat = log.length ∧
      s.broker.m_incoming.messageList = decoded Jsoncpp.reference waiting ∧
      s.written =
        freshTwo.written ++ ((replies Jsoncpp.reference [] log).map Session.frame).flatten ∧
      Transition.run (handled Ns3.reference Jsoncpp.reference) freshTwo.broker.world
        (queuedMessages (decoded Jsoncpp.reference
          ([threeForOne, oneForThree].take s.broker.m_global_tick.toNat))) =
            some s.broker.world := by
  obtain ⟨s, hrun⟩ := Option.isSome_iff_exists.mp
    (by decide +kernel : (Transition.run (step Ns3.reference Jsoncpp.reference) freshTwo
      oneByOne).isSome = true)
  have hframed : ∀ bundle ∈ [threeForOne, oneForThree], Session.Framed bundle :=
    Registration.framed_of_all (by decide +kernel)
  exact ⟨s, hrun, lock_step freshTwo_ready hframed (by decide) oneByOne_waits hrun⟩

end Sm4ns3.System
