import Sm4ns3.Lib.Transition

/-!
# Simulation of runs

A transition function is simulated by another one, its specification, when each
of its transitions is matched by a run of the specification, of any length. The
relation kept may speak of the labels taken so far, as in `history`; what the
specification was asked to do is part of the conclusion.
-/

namespace Transition

variable {State Label Spec Act : Type} {step : State → Label → Option State}
  {spec : Spec → Act → Option Spec}

/-- A run that goes on where another one ended. -/
theorem run_trans {s t u : State} {ls ms : List Label} (h : run step s ls = some t)
    (h' : run step t ms = some u) : run step s (ls ++ ms) = some u := by
  rw [run_append, h]
  exact h'

/-- Each transition is matched by a run that extends the relation. -/
def Simulates (step : State → Label → Option State) (spec : Spec → Act → Option Spec)
    (R : List Label → State → List Act → Spec → Prop) : Prop :=
  ∀ ls s acts a l t, R ls s acts a → step s l = some t →
    ∃ more b, run spec a more = some b ∧ R (ls ++ [l]) t (acts ++ more) b

/-- A simulation matches whole runs. -/
theorem Simulates.run {R : List Label → State → List Act → Spec → Prop}
    (hsim : Simulates step spec R) {s t : State} {a : Spec} {ls : List Label}
    (hs : R [] s [] a) (h : run step s ls = some t) :
    ∃ acts b, Transition.run spec a acts = some b ∧ R ls t acts b := by
  refine history (R := fun ls t => ∃ acts b, Transition.run spec a acts = some b ∧ R ls t acts b)
    ⟨[], a, rfl, hs⟩ (fun ms t l t' ht hstep => ?_) h
  obtain ⟨acts, b, hrun, hR⟩ := ht
  obtain ⟨more, b', hmore, hR'⟩ := hsim ms t acts b l t' hR hstep
  exact ⟨acts ++ more, b', run_trans hrun hmore, hR'⟩

/-! ## Transitions in step with one another -/

/-- In related states both are stuck, or both go on to related states. -/
def Matches (R : State → Spec → Prop) (x : State → Option State) (y : Spec → Option Spec) : Prop :=
  ∀ s a, R s a → Option.Rel R (x s) (y a)

namespace Matches

variable {R : State → Spec → Prop}

theorem bind {x x' : State → Option State} {y y' : Spec → Option Spec} (h : Matches R x y)
    (h' : Matches R x' y') : Matches R (fun s => (x s).bind x') fun a => (y a).bind y' := by
  intro s a hs
  have hfirst := h s a hs
  show Option.Rel R ((x s).bind x') ((y a).bind y')
  generalize x s = o, y a = o' at hfirst
  cases hfirst with
  | none => exact .none
  | some hR => exact h' _ _ hR

/-- Transitions that match make runs that match. -/
theorem run {f : Label → Act} (h : ∀ l, Matches R (fun s => step s l) fun a => spec a (f l))
    (ls : List Label) :
    Matches R (fun s => Transition.run step s ls) fun a => Transition.run spec a (ls.map f) := by
  induction ls with
  | nil => exact fun _ _ hs => .some hs
  | cons l ls ih => exact (h l).bind ih

/-- Where the relation says of which state another one is the abstraction, the abstraction
of what is reached is what the specification reaches. -/
theorem map_eq {abstract : State → Spec} (hR : ∀ s a, R s a → abstract s = a)
    {x : State → Option State} {y : Spec → Option Spec} (h : Matches R x y) {s : State} {a : Spec}
    (hs : R s a) : (x s).map abstract = y a := by
  have hone := h s a hs
  generalize x s = o, y a = o' at hone
  cases hone with
  | none => rfl
  | some hrel => exact congrArg some (hR _ _ hrel)

end Matches

/-- A run that is never stuck. -/
theorem run_total (f : State → Label → State) (s : State) (ls : List Label) :
    Transition.run (fun s l => some (f s l)) s ls = some (ls.foldl f s) := by
  induction ls generalizing s with
  | nil => rfl
  | cons l ls ih => exact ih (f s l)

end Transition
