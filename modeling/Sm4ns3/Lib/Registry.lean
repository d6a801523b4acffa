import Mathlib.Data.Set.Insert

/-!
# Registries

A registry maps keys to objects that carry their own key. A slot may also hold
nothing (`some none`), as a map of pointers can hold a null. `Exact` says that
the registry holds the keys of a set, each with an object of that key, and has no
empty slot: the set is all there is to know about it.
-/

namespace Registry

variable {K V : Type}

/-- What the commands do to the set of keys. -/
inductive Command (K : Type) where
  /-- enter the keys of one list, then drop those of the other -/
  | update (add rem : List K)
  /-- look keys up -/
  | consult
  deriving DecidableEq, Repr

/-- The set of keys after a command. -/
def after (R : Set K) : Command K → Set K
  | .update add rem => (R ∪ {k | k ∈ add}) \ {k | k ∈ rem}
  | .consult => R

/-- The set of keys after a list of commands. -/
def afterAll (R : Set K) (cs : List (Command K)) : Set K := cs.foldl after R

@[simp] theorem afterAll_nil (R : Set K) : afterAll R [] = R := rfl

@[simp] theorem afterAll_cons (R : Set K) (c : Command K) (cs : List (Command K)) :
    afterAll R (c :: cs) = afterAll (after R c) cs := rfl

variable (key : V → K)

/-- The slots of the keys of `R` hold an object of that key; the others are absent. -/
structure Exact (slot : K → Option (Option V)) (R : Set K) : Prop where
  holds : ∀ {k}, k ∈ R → ∃ v, slot k = some (some v) ∧ key v = k
  absent : ∀ {k}, k ∉ R → slot k = none

variable {key} {slot slot' : K → Option (Option V)} {R : Set K}

namespace Exact

/-- A slot that is present belongs to a key of the set and is not empty. -/
theorem of_slot (h : Exact key slot R) {k : K} {x : Option V} (hx : slot k = some x) :
    k ∈ R ∧ ∃ v, x = some v ∧ key v = k := by
  have hmem : k ∈ R := by
    by_contra hk
    rw [h.absent hk] at hx
    cases hx
  obtain ⟨v, hv, hkey⟩ := h.holds hmem
  rw [hv] at hx
  exact ⟨hmem, v, (Option.some.inj hx).symm, hkey⟩

theorem congr (h : Exact key slot R) (heq : ∀ k, slot' k = slot k) : Exact key slot' R := by
  rwa [funext heq]

/-- Enter an object of the key `a` unless the slot is present. -/
theorem enter (h : Exact key slot R) {a : K} {v : V} (hv : key v = a)
    (hself : slot' a = some ((slot a).getD (some v))) (hother : ∀ k, k ≠ a → slot' k = slot k) :
    Exact key slot' (R ∪ {a}) where
  holds := by
    intro k hk
    by_cases hka : k = a
    · subst hka
      cases hs : slot k with
      | none => exact ⟨v, by rw [hself, hs]; rfl, hv⟩
      | some x =>
        obtain ⟨-, u, rfl, hu⟩ := h.of_slot hs
        exact ⟨u, by rw [hself, hs]; rfl, hu⟩
    · rw [hother k hka]
      exact h.holds (hk.resolve_right hka)
  absent := by
    intro k hk
    rw [Set.mem_union, not_or] at hk
    rw [hother k hk.2]
    exact h.absent hk.1

/-- Drop a key. -/
theorem drop (h : Exact key slot R) {a : K} (hself : slot' a = none)
    (hother : ∀ k, k ≠ a → slot' k = slot k) : Exact key slot' (R \ {a}) where
  holds := by
    rintro k ⟨hk, hka⟩
    rw [hother k hka]
    exact h.holds hk
  absent := by
    intro k hk
    by_cases hka : k = a
    · rw [hka, hself]
    · rw [hother k hka]
      exact h.absent fun hmem => hk ⟨hmem, hka⟩

end Exact
end Registry
