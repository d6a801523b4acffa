import Mathlib.Data.List.Induction

/-!
# Runs of a partial transition function

`run step s ls` takes one transition for each label of `ls` and is `none` when
one of them cannot be taken. `invariant` is the usual induction. `history` is
the same induction for a property that also speaks of the labels taken so far,
`Always` is a property of every state a run passes through, and `Along` a
condition on every transition of a run, in the state where it is taken.
-/

namespace Transition

variable {State Label : Type}

/-- One transition for each label, in order. -/
def run (step : State → Label → Option State) : State → List Label → Option State
  | s, [] => some s
  | s, l :: ls => (step s l).bind fun s' => run step s' ls

variable {step : State → Label → Option State}

@[simp] theorem run_nil (s : State) : run step s [] = some s := rfl

theorem run_cons (s : State) (l : Label) (ls : List Label) :
    run step s (l :: ls) = (step s l).bind fun s' => run step s' ls := rfl

theorem run_cons_eq_some {s u : State} {l : Label} {ls : List Label} :
    run step s (l :: ls) = some u ↔ ∃ t, step s l = some t ∧ run step t ls = some u := by
  simp [run_cons, Option.bind_eq_some_iff]

theorem run_append (s : State) (ls ms : List Label) :
    run step s (ls ++ ms) = (run step s ls).bind fun t => run step t ms := by
  induction ls generalizing s with
  | nil => rfl
  | cons l ls ih =>
    rw [List.cons_append, run_cons, run_cons]
    cases step s l with
    | none => rfl
    | some t => exact ih t

theorem run_map {Other : Type} (f : Other → Label) (s : State) (ls : List Other) :
    run step s (ls.map f) = run (fun s l => step s (f l)) s ls := by
  induction ls generalizing s with
  | nil => rfl
  | cons l ls ih =>
    rw [List.map_cons, run_cons, run_cons]
    cases step s (f l) with
    | none => rfl
    | some t => exact ih t

theorem run_concat_eq_some {s u : State} {ls : List Label} {l : Label} :
    run step s (ls ++ [l]) = some u ↔ ∃ t, run step s ls = some t ∧ step t l = some u := by
  simp [run_append, run_cons, Option.bind_eq_some_iff]

/-- A property that every transition preserves holds after every run. -/
theorem invariant {I : State → Prop}
    (hstep : ∀ s l t, I s → step s l = some t → I t) {s u : State} {ls : List Label}
    (hs : I s) (h : run step s ls = some u) : I u := by
  induction ls generalizing s with
  | nil =>
    cases h
    exact hs
  | cons l ls ih =>
    obtain ⟨t, ht, hrest⟩ := run_cons_eq_some.mp h
    exact ih (hstep s l t hs ht) hrest

/-- A relation between the labels taken and the state reached holds after
every run when it holds at the start and each transition extends it. -/
theorem history {R : List Label → State → Prop} {s u : State} {ls : List Label}
    (hs : R [] s) (hstep : ∀ ms t l t', R ms t → step t l = some t' → R (ms ++ [l]) t')
    (h : run step s ls = some u) : R ls u := by
  induction ls using List.reverseRecOn generalizing u with
  | nil =>
    cases h
    exact hs
  | append_singleton ls l ih =>
    obtain ⟨t, ht, hlast⟩ := run_concat_eq_some.mp h
    exact hstep ls t l u (ih ht) hlast

/-- Every state that a prefix of `ls` reaches satisfies `P`. -/
def Always (step : State → Label → Option State) (s : State) (ls : List Label)
    (P : State → Prop) : Prop :=
  ∀ ms t, ms <+: ls → run step s ms = some t → P t

theorem Always.nil {s : State} {P : State → Prop} : Always step s [] P ↔ P s := by
  constructor
  · exact fun h => h [] s (List.prefix_refl _) rfl
  · intro hs ms t hms ht
    obtain rfl := List.prefix_nil.mp hms
    cases ht
    exact hs

/-- Along a nonempty run: the first state, and every state after the first
transition, when it can be taken. -/
theorem Always.cons {s : State} {l : Label} {ls : List Label} {P : State → Prop} :
    Always step s (l :: ls) P ↔ P s ∧ ∀ t, step s l = some t → Always step t ls P := by
  constructor
  · intro h
    refine ⟨h [] s (List.nil_prefix) rfl, fun t ht ms u hms hu => ?_⟩
    exact h (l :: ms) u (List.cons_prefix_cons.mpr ⟨rfl, hms⟩)
      (run_cons_eq_some.mpr ⟨t, ht, hu⟩)
  · rintro ⟨hs, hrest⟩ ms u hms hu
    cases ms with
    | nil =>
      cases hu
      exact hs
    | cons m ms =>
      obtain ⟨rfl, hpre⟩ := List.cons_prefix_cons.mp hms
      obtain ⟨t, ht, hu⟩ := run_cons_eq_some.mp hu
      exact hrest t ht ms u hpre hu

/-- Every transition of `ls` meets the condition `C` in the state where it is taken. -/
def Along (step : State → Label → Option State) (C : State → Label → Prop) :
    State → List Label → Prop
  | _, [] => True
  | s, l :: ls => C s l ∧ ∀ t, step s l = some t → Along step C t ls

theorem Along.of_prefix {C : State → Label → Prop} {s : State} {ms ls : List Label}
    (h : Along step C s ls) (hpre : ms <+: ls) : Along step C s ms := by
  induction ms generalizing s ls with
  | nil => trivial
  | cons m ms ih =>
    cases ls with
    | nil => cases List.prefix_nil.mp hpre
    | cons l ls =>
      obtain ⟨rfl, hrest⟩ := List.cons_prefix_cons.mp hpre
      exact ⟨h.1, fun t ht => ih (h.2 t ht) hrest⟩

/-- The condition holds of a transition after any part of the run. -/
theorem Along.of_concat {C : State → Label → Prop} {s t : State} {ls : List Label} {l : Label}
    (h : Along step C s (ls ++ [l])) (ht : run step s ls = some t) : C t l := by
  induction ls generalizing s with
  | nil =>
    cases ht
    exact h.1
  | cons m ms ih =>
    obtain ⟨u, hu, hrest⟩ := run_cons_eq_some.mp ht
    exact ih (h.2 u hu) hrest

/-- A run goes through exactly when each transition can be taken where it is due. -/
theorem run_isSome_iff {C : State → Label → Prop}
    (hC : ∀ s l, (step s l).isSome = true ↔ C s l) {s : State} {ls : List Label} :
    (run step s ls).isSome = true ↔ Along step C s ls := by
  induction ls generalizing s with
  | nil => exact ⟨fun _ => trivial, fun _ => rfl⟩
  | cons l ls ih =>
    rw [run_cons, Along, ← hC]
    cases step s l with
    | none => simp
    | some t => simpa using ih

/-- `history` for runs whose transitions meet a condition. -/
theorem history_along {C : State → Label → Prop} {R : List Label → State → Prop} {s u : State}
    {ls : List Label} (hs : R [] s)
    (hstep : ∀ ms t l t', R ms t → C t l → step t l = some t' → R (ms ++ [l]) t')
    (hC : Along step C s ls) (h : run step s ls = some u) : R ls u := by
  induction ls using List.reverseRecOn generalizing u with
  | nil =>
    cases h
    exact hs
  | append_singleton ls l ih =>
    obtain ⟨t, ht, hlast⟩ := run_concat_eq_some.mp h
    exact hstep ls t l u (ih (hC.of_prefix (List.prefix_append ls [l])) ht) (hC.of_concat ht) hlast

end Transition
