import Mathlib.Data.List.Basic

/-!
# Self-delimiting items

Items are written one after another. When each item is known from the head of
any stream that begins with it, a stream is cut into items in one way only: what
was read of it are its first items, and what is left are the frames of the others.
-/

variable {Item Octet : Type}

/-- The items that satisfy `Ok` are known from the heads of their streams. -/
structure SelfDelimiting (frame : Item → List Octet) (Ok : Item → Prop) : Prop where
  head : ∀ {x y : Item} {r r' : List Octet}, Ok x → Ok y → frame x ++ r = frame y ++ r' → x = y
  nonempty : ∀ {x : Item}, Ok x → frame x ≠ []

namespace SelfDelimiting

variable {frame : Item → List Octet} {Ok : Item → Prop}

/-- Items read from the head of a stream are its first ones. -/
theorem split (h : SelfDelimiting frame Ok) {xs ys : List Item} {r : List Octet}
    (hxs : ∀ x ∈ xs, Ok x) (hys : ∀ y ∈ ys, Ok y)
    (heq : (xs.map frame).flatten ++ r = (ys.map frame).flatten) :
    ∃ zs, ys = xs ++ zs ∧ r = (zs.map frame).flatten := by
  induction xs generalizing ys with
  | nil => exact ⟨ys, rfl, heq⟩
  | cons x xs ih =>
    obtain ⟨hx, hxs⟩ := List.forall_mem_cons.mp hxs
    rw [List.map_cons, List.flatten_cons, List.append_assoc] at heq
    cases ys with
    | nil =>
      have hnil := (List.append_eq_nil_iff.mp heq).1
      exact absurd hnil (h.nonempty hx)
    | cons y ys =>
      obtain ⟨hy, hrest⟩ := List.forall_mem_cons.mp hys
      rw [List.map_cons, List.flatten_cons] at heq
      obtain rfl : x = y := h.head hx hy heq
      obtain ⟨zs, rfl, hr⟩ := ih hxs hrest (List.append_cancel_left heq)
      exact ⟨zs, rfl, hr⟩

/-- A stream is that of one list of items only. -/
theorem injective (h : SelfDelimiting frame Ok) {xs ys : List Item} (hxs : ∀ x ∈ xs, Ok x)
    (hys : ∀ y ∈ ys, Ok y) (heq : (xs.map frame).flatten = (ys.map frame).flatten) : xs = ys := by
  obtain ⟨zs, rfl, hnil⟩ := h.split hxs hys ((List.append_nil _).trans heq)
  cases zs with
  | nil => exact (List.append_nil xs).symm
  | cons z zs =>
    rw [List.map_cons, List.flatten_cons] at hnil
    have hz := (List.append_eq_nil_iff.mp hnil.symm).1
    exact absurd hz (h.nonempty (hys z (by simp)))

end SelfDelimiting
