import Sm4ns3.Lib.Simulation

/-!
# A server that works in rounds

Requests come in and wait, and notes are taken. A round takes all the requests
that wait, of which there must be one, and is answered with the notes taken
since the round before. The log keeps what each round took and what it was
answered with; `sound_of_run` says how it relates to what happened.
-/

namespace Rounds

variable {Request Note : Type}

structure Server (Request Note : Type) where
  waiting : List Request := []
  notes : List Note := []
  log : List (List Request × List Note) := []

/-- What happens to a server. -/
inductive Act (Request Note : Type) where
  | enter (request : Request)
  | note (note : Note)
  | round

def step (s : Server Request Note) : Act Request Note → Option (Server Request Note)
  | .enter request => some { s with waiting := s.waiting ++ [request] }
  | .note note => some { s with notes := s.notes ++ [note] }
  | .round =>
    if s.waiting.isEmpty then none
    else some { waiting := [], notes := [], log := s.log ++ [(s.waiting, s.notes)] }

/-- The requests that entered, in order. -/
def entered (acts : List (Act Request Note)) : List Request :=
  acts.filterMap fun
    | .enter request => some request
    | _ => none

/-- The notes taken, in order. -/
def noted (acts : List (Act Request Note)) : List Note :=
  acts.filterMap fun
    | .note note => some note
    | _ => none

/-- The requests that rounds took. -/
def Server.taken (s : Server Request Note) : List Request := s.log.flatMap Prod.fst

/-- The notes that rounds were answered with. -/
def Server.answered (s : Server Request Note) : List Note := s.log.flatMap Prod.snd

@[simp] theorem entered_append (acts more : List (Act Request Note)) :
    entered (acts ++ more) = entered acts ++ entered more :=
  List.filterMap_append ..

@[simp] theorem noted_append (acts more : List (Act Request Note)) :
    noted (acts ++ more) = noted acts ++ noted more :=
  List.filterMap_append ..

/-- Every request is taken once, in order, or waits; every note answers one round or
none yet; and no round took nothing. -/
structure Sound (acts : List (Act Request Note)) (s : Server Request Note) : Prop where
  requests : s.taken ++ s.waiting = entered acts
  notes : s.answered ++ s.notes = noted acts
  took : ∀ round ∈ s.log, round.1 ≠ []

theorem Sound.step {acts : List (Act Request Note)} {s t : Server Request Note}
    {act : Act Request Note} (hs : Sound acts s) (h : step s act = some t) :
    Sound (acts ++ [act]) t := by
  cases act with
  | enter request =>
    cases h
    refine ⟨?_, ?_, hs.took⟩
    · rw [entered_append, ← hs.requests, List.append_assoc]
      rfl
    · rw [noted_append, ← hs.notes]
      exact (List.append_nil _).symm
  | note note =>
    cases h
    refine ⟨?_, ?_, hs.took⟩
    · rw [entered_append, ← hs.requests]
      exact (List.append_nil _).symm
    · rw [noted_append, ← hs.notes, List.append_assoc]
      rfl
  | round =>
    simp only [Rounds.step] at h
    split at h
    · cases h
    · rename_i hne
      cases h
      refine ⟨?_, ?_, fun round hround => ?_⟩
      · rw [entered_append, ← hs.requests]
        simp [Server.taken, entered]
      · rw [noted_append, ← hs.notes]
        simp [Server.answered, noted]
      · rcases List.mem_append.mp hround with hround | hround
        · exact hs.took round hround
        · rw [List.mem_singleton.mp hround]
          simpa using hne

/-- After every run. -/
theorem sound_of_run {acts : List (Act Request Note)} {s : Server Request Note}
    (h : Transition.run step {} acts = some s) : Sound acts s :=
  Transition.history ⟨rfl, rfl, by simp⟩ (fun _ _ _ _ => Sound.step) h

/-- Without a round the log stays as it is. -/
theorem log_of_run {s t : Server Request Note} {acts : List (Act Request Note)}
    (hnot : Act.round ∉ acts) (h : Transition.run step s acts = some t) : t.log = s.log := by
  induction acts generalizing s with
  | nil =>
    cases h
    rfl
  | cons act acts ih =>
    obtain ⟨s', hstep, hrest⟩ := Transition.run_cons_eq_some.mp h
    obtain ⟨hne, hnot⟩ := not_or.mp (mt List.mem_cons.mpr hnot)
    rw [ih hnot hrest]
    cases act with
    | enter request =>
      cases hstep
      rfl
    | note note =>
      cases hstep
      rfl
    | round => exact absurd rfl hne

/-- What a round adds to the log. -/
theorem log_of_round {s t : Server Request Note} (h : Transition.run step s [.round] = some t) :
    t.log = s.log ++ [(s.waiting, s.notes)] := by
  obtain ⟨s', hstep, hrest⟩ := Transition.run_cons_eq_some.mp h
  cases hrest
  simp only [step, Option.ite_none_left_eq_some, Option.some.injEq] at hstep
  obtain ⟨-, rfl⟩ := hstep
  rfl

/-- Notes taken one after the other. -/
theorem run_notes (s : Server Request Note) (ns : List Note) :
    Transition.run step s (ns.map .note) = some { s with notes := s.notes ++ ns } := by
  induction ns generalizing s with
  | nil => simp
  | cons n ns ih =>
    rw [List.map_cons, Transition.run_cons, step, Option.bind_some, ih]
    simp

@[simp] theorem entered_notes (ns : List Note) :
    entered (ns.map (.note : Note → Act Request Note)) = [] := by
  simp [entered, List.filterMap_map]

@[simp] theorem noted_notes (ns : List Note) :
    noted (ns.map (.note : Note → Act Request Note)) = ns := by
  induction ns with
  | nil => rfl
  | cons n ns ih => exact congrArg (n :: ·) ih

/-- No more rounds than requests: each took one that no other took. -/
theorem length_log_le {log : List (List Request × List Note)}
    (h : ∀ round ∈ log, round.1 ≠ []) : log.length ≤ (log.flatMap Prod.fst).length := by
  induction log with
  | nil => exact Nat.zero_le _
  | cons round log ih =>
    obtain ⟨hround, hlog⟩ := List.forall_mem_cons.mp h
    have hpos : 0 < round.1.length := List.length_pos_iff.mpr hround
    have hrest := ih hlog
    rw [List.length_cons, List.flatMap_cons, List.length_append]
    omega

/-! ## Rounds that take one request -/

/-- When every round took one request, as many were taken as there were rounds. -/
theorem length_taken {log : List (List Request × List Note)}
    (h : ∀ round ∈ log, round.1.length = 1) : (log.flatMap Prod.fst).length = log.length := by
  induction log with
  | nil => rfl
  | cons round log ih =>
    obtain ⟨hround, hlog⟩ := List.forall_mem_cons.mp h
    rw [List.flatMap_cons, List.length_append, hround, ih hlog, List.length_cons, Nat.add_comm]

/-- The next round takes one request, too, when no more than one entered that was not taken by
a round of its own. -/
theorem Sound.takes_one {acts : List (Act Request Note)} {s t : Server Request Note}
    (hs : Sound acts s) (hones : ∀ round ∈ s.log, round.1.length = 1)
    (hfew : (entered acts).length ≤ s.log.length + 1) {more : List (Act Request Note)}
    (hmore : Act.round ∉ more ∨ more = [.round])
    (h : Transition.run Rounds.step s more = some t) :
    ∀ round ∈ t.log, round.1.length = 1 := by
  rcases hmore with hnot | rfl
  · rwa [log_of_run hnot h]
  · rw [log_of_round h]
    intro round hround
    rcases List.mem_append.mp hround with hround | hround
    · exact hones round hround
    · obtain rfl := List.mem_singleton.mp hround
      have hwaits : s.waiting ≠ [] := by
        intro hnil
        obtain ⟨s', hstep, -⟩ := Transition.run_cons_eq_some.mp h
        simp [Rounds.step, hnil] at hstep
      have hpos : 0 < s.waiting.length := List.length_pos_iff.mpr hwaits
      have htaken : s.taken.length = s.log.length := length_taken hones
      have hall := congrArg List.length hs.requests
      rw [List.length_append] at hall
      show s.waiting.length = 1
      omega

end Rounds
