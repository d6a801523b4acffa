import Mathlib.Data.List.Forall2
import Sm4ns3.Lib.Transition

/-!
# Calls that return, throw or are undefined

A call runs on a state and returns a value, throws an exception, or does
something the language leaves undefined; without a state it is an `Except`. An
exception keeps the state as it was when it was thrown: nothing is rolled back.
`Call.Returns P x Q` is total correctness (from a state of `P` the call returns, and `Q`
holds after);
`Call.Keeps I x` says that the call keeps an invariant however it ends. Both have a
rule for each way calls are put together, the loop over a list included.
`Call.Defined x s` says that the call does nothing undefined, `Call.Avoids S x` that it does
nothing undefined of certain causes.
-/

namespace Cpp

/-- What the language leaves undefined. -/
inductive Undefined where
  | nullPointer
  | outOfRange
  | overflow
  | divisionByZero
  | endIterator
  | danglingPointer
  deriving DecidableEq, Repr

/-- How a call ends other than by returning. -/
inductive Fault where
  | exception (what : String)
  | undefined (cause : Undefined)
  deriving DecidableEq, Repr

abbrev Call (σ α : Type) := EStateM Fault σ α

variable {σ τ α β : Type}

/-! ## Computations without a state -/

/-- `if (c) { throw std::runtime_error(what); }` -/
def throwIf (c : Bool) (what : String) : Except Fault Unit :=
  if c then .error (.exception what) else .ok ()

theorem except_bind_eq_ok {x : Except Fault α} {f : α → Except Fault β} {b : β} :
    (x >>= f) = .ok b ↔ ∃ a, x = .ok a ∧ f a = .ok b := by
  cases x with
  | ok a => simp [bind, Except.bind]
  | error e => simp [bind, Except.bind]

theorem except_map_eq_ok {x : Except Fault α} {f : α → β} {b : β} :
    x.map f = .ok b ↔ ∃ a, x = .ok a ∧ f a = b := by
  cases x with
  | ok a => simp [Except.map]
  | error e => simp [Except.map]

@[simp] theorem except_ok_bind (a : α) (f : α → Except Fault β) : (.ok a >>= f) = f a := rfl

@[simp] theorem except_pure_bind (a : α) (f : α → Except Fault β) :
    ((pure a : Except Fault α) >>= f) = f a := rfl

/-- A loop whose steps all return. -/
theorem except_mapM_map {γ : Type} {f : β → Except Fault γ} {g : α → β} {k : α → γ}
    (h : ∀ a, f (g a) = .ok (k a)) (as : List α) : (as.map g).mapM f = .ok (as.map k) := by
  induction as with
  | nil => rfl
  | cons a as ih =>
    rw [List.map_cons, List.mapM_cons, h, except_ok_bind, ih]
    rfl

@[simp] theorem throwIf_false (what : String) : throwIf false what = .ok () := rfl

@[simp] theorem throwIf_eq_ok {c : Bool} {what : String} {u : Unit} :
    throwIf c what = .ok u ↔ c = false := by
  cases c <;> simp [throwIf]

/-- The computation does nothing undefined; it may throw. -/
def Safe (x : Except Fault α) : Prop := ∀ cause, x ≠ .error (.undefined cause)

namespace Safe

theorem ok (a : α) : Safe (.ok a) := by
  intro cause h
  cases h

theorem exception (what : String) : Safe (.error (.exception what) : Except Fault α) := by
  intro cause h
  cases h

theorem throwIf (c : Bool) (what : String) : Safe (throwIf c what) := by
  cases c with
  | true => exact exception what
  | false => exact ok ()

theorem bind {x : Except Fault α} {f : α → Except Fault β} (hx : Safe x)
    (hf : ∀ a, x = .ok a → Safe (f a)) : Safe (x >>= f) := by
  cases x with
  | ok a => exact hf a rfl
  | error e =>
    intro cause h
    cases h
    exact hx cause rfl

theorem mapM {f : α → Except Fault β} (h : ∀ a, Safe (f a)) (as : List α) : Safe (as.mapM f) := by
  induction as with
  | nil => exact ok []
  | cons a as ih =>
    rw [List.mapM_cons]
    exact (h a).bind fun b _ => ih.bind fun bs _ => ok (b :: bs)

/-- What does not return has thrown. -/
theorem of_error {x : Except Fault α} {e : Fault} (hx : Safe x) (h : x = .error e) :
    ∃ what, e = .exception what := by
  cases e with
  | exception what => exact ⟨what, rfl⟩
  | undefined cause => exact absurd h (hx cause)

end Safe

/-- Whatever the computation does undefined, it is none of these causes. -/
def SafeFrom (S : Undefined → Prop) (x : Except Fault α) : Prop :=
  ∀ cause, S cause → x ≠ .error (.undefined cause)

namespace SafeFrom

variable {S : Undefined → Prop}

theorem of_safe {x : Except Fault α} (hx : Safe x) : SafeFrom S x := fun cause _ => hx cause

theorem undefined {cause : Undefined} (h : ¬ S cause) :
    SafeFrom S (.error (.undefined cause) : Except Fault α) := by
  intro cause' hcause heq
  cases heq
  exact h hcause

theorem bind {x : Except Fault α} {f : α → Except Fault β} (hx : SafeFrom S x)
    (hf : ∀ a, x = .ok a → SafeFrom S (f a)) : SafeFrom S (x >>= f) := by
  cases x with
  | ok a => exact hf a rfl
  | error e =>
    intro cause hcause h
    cases h
    exact hx cause hcause rfl

end SafeFrom

/-- A loop returns when each step does. -/
theorem except_mapM_eq_ok {f : α → Except Fault β} {as : List α} {bs : List β} :
    as.mapM f = .ok bs ↔ List.Forall₂ (fun a b => f a = .ok b) as bs := by
  induction as generalizing bs with
  | nil =>
    rw [List.mapM_nil, List.forall₂_nil_left_iff]
    exact ⟨fun h => (Except.ok.inj h).symm, fun h => by rw [h]; rfl⟩
  | cons a as ih =>
    rw [List.mapM_cons]
    constructor
    · intro h
      obtain ⟨b, hb, h⟩ := except_bind_eq_ok.mp h
      obtain ⟨bs', hbs, h⟩ := except_bind_eq_ok.mp h
      cases h
      exact .cons hb (ih.mp hbs)
    · intro h
      cases h with
      | cons hb hbs =>
        rw [hb, except_ok_bind, ih.mpr hbs]
        rfl

namespace Call

/-- Throw `std::runtime_error(what)`. -/
def raise (what : String) : Call σ α := throw (.exception what)

/-- `throwIf`, in a computation with a state. -/
def raiseIf (c : Bool) (what : String) : Call σ Unit := if c then raise what else pure ()

/-- Do something undefined. -/
def undefined (cause : Undefined) : Call σ α := throw (.undefined cause)

/-- A computation without a state, inside one that has one. -/
def eval : Except Fault α → Call σ α
  | .ok a => pure a
  | .error e => throw e

/-- Run a call on one component of the state. -/
def zoom (get : σ → τ) (put : σ → τ → σ) (x : Call τ α) : Call σ α := fun s =>
  match x (get s) with
  | .ok a t => .ok a (put s t)
  | .error e t => .error e (put s t)

/-- The loop `for (x : xs) f(x)`. -/
def forEach (f : β → Call σ Unit) : List β → Call σ Unit
  | [] => pure ()
  | x :: xs => do
    f x
    forEach f xs

/-! ## What a call does on a state -/

@[simp] theorem pure_apply (a : α) (s : σ) : (pure a : Call σ α) s = .ok a s := rfl

@[simp] theorem get_apply (s : σ) : (get : Call σ σ) s = .ok s s := rfl

@[simp] theorem set_apply (s t : σ) : (set t : Call σ PUnit) s = .ok ⟨⟩ t := rfl

@[simp] theorem modify_apply (f : σ → σ) (s : σ) :
    (modify f : Call σ PUnit) s = .ok ⟨⟩ (f s) := rfl

@[simp] theorem raise_apply (what : String) (s : σ) :
    (raise what : Call σ α) s = .error (.exception what) s := rfl

@[simp] theorem undefined_apply (cause : Undefined) (s : σ) :
    (undefined cause : Call σ α) s = .error (.undefined cause) s := rfl

@[simp] theorem eval_ok (a : α) : (eval (.ok a) : Call σ α) = pure a := rfl

@[simp] theorem eval_error (e : Fault) (s : σ) :
    (eval (.error e) : Call σ α) s = .error e s := rfl

@[simp] theorem raiseIf_false (what : String) : (raiseIf false what : Call σ Unit) = pure () := rfl

@[simp] theorem raiseIf_true (what : String) : (raiseIf true what : Call σ Unit) = raise what := rfl

theorem bind_apply (x : Call σ α) (f : α → Call σ β) (s : σ) :
    (x >>= f) s = match x s with
      | .ok a t => f a t
      | .error e t => .error e t := by
  simp only [bind, EStateM.bind]
  cases x s <;> rfl

/-- Step past a call that returns. -/
theorem bind_ok {x : Call σ α} {s t : σ} {a : α} (h : x s = .ok a t) (f : α → Call σ β) :
    (x >>= f) s = f a t := by
  rw [bind_apply, h]

/-- A call that does not return ends the computation. -/
theorem bind_error {x : Call σ α} {s t : σ} {e : Fault} (h : x s = .error e t)
    (f : α → Call σ β) : (x >>= f) s = .error e t := by
  rw [bind_apply, h]

/-- What ran when a composed call returned. -/
theorem bind_eq_ok {x : Call σ α} {f : α → Call σ β} {s u : σ} {b : β}
    (h : (x >>= f) s = .ok b u) : ∃ a t, x s = .ok a t ∧ f a t = .ok b u := by
  rw [bind_apply] at h
  cases hx : x s with
  | ok a t => exact ⟨a, t, rfl, by rw [hx] at h; exact h⟩
  | error e t => rw [hx] at h; cases h

theorem bind_eq_ok_iff {x : Call σ α} {f : α → Call σ β} {s u : σ} {b : β} :
    (x >>= f) s = .ok b u ↔ ∃ a t, x s = .ok a t ∧ f a t = .ok b u :=
  ⟨bind_eq_ok, by
    rintro ⟨_, _, hx, hf⟩
    exact (bind_ok hx f).trans hf⟩

@[simp] theorem pure_bind_apply (a : α) (f : α → Call σ β) : (pure a >>= f) = f a := rfl

@[simp] theorem get_bind_apply (f : σ → Call σ β) (s : σ) : (get >>= f) s = f s s :=
  bind_ok (get_apply s) f

@[simp] theorem set_bind_apply (t : σ) (f : PUnit → Call σ β) (s : σ) :
    (set t >>= f) s = f ⟨⟩ t := bind_ok (set_apply s t) f

@[simp] theorem modify_bind_apply (g : σ → σ) (f : PUnit → Call σ β) (s : σ) :
    (modify g >>= f) s = f ⟨⟩ (g s) := bind_ok (modify_apply g s) f

theorem raiseIf_bind_eq_ok {c : Bool} {what : String} {f : Unit → Call σ β} {s t : σ} {b : β} :
    (raiseIf c what >>= f) s = .ok b t ↔ c = false ∧ f () s = .ok b t := by
  cases c with
  | false => simp
  | true => simp [bind_apply]

theorem eval_bind_eq_ok {x : Except Fault α} {f : α → Call σ β} {s t : σ} {b : β} :
    (eval x >>= f) s = .ok b t ↔ ∃ a, x = .ok a ∧ f a s = .ok b t := by
  cases x with
  | ok a => simp
  | error e => simp [bind_apply]

theorem zoom_ok {get : σ → τ} {put : σ → τ → σ} {x : Call τ α} {s : σ} {a : α} {t : τ}
    (h : x (get s) = .ok a t) : zoom get put x s = .ok a (put s t) := by
  simp only [zoom, h]

theorem zoom_error {get : σ → τ} {put : σ → τ → σ} {x : Call τ α} {s : σ} {e : Fault} {t : τ}
    (h : x (get s) = .error e t) : zoom get put x s = .error e (put s t) := by
  simp only [zoom, h]

theorem zoom_eq_ok {get : σ → τ} {put : σ → τ → σ} {x : Call τ α} {s s' : σ} {a : α}
    (h : zoom get put x s = .ok a s') : ∃ t, x (get s) = .ok a t ∧ s' = put s t := by
  simp only [zoom] at h
  cases hx : x (get s) with
  | ok b t =>
    rw [hx] at h
    cases h
    exact ⟨t, rfl, rfl⟩
  | error e t => rw [hx] at h; cases h

@[simp] theorem forEach_nil (f : β → Call σ Unit) : forEach f [] = pure () := rfl

theorem forEach_cons (f : β → Call σ Unit) (x : β) (xs : List β) :
    forEach f (x :: xs) = (f x >>= fun _ => forEach f xs) := rfl

/-- The loop rule for loops that return. -/
theorem forEach_invariant {I : σ → Prop} {f : β → Call σ Unit} {xs : List β}
    (h : ∀ x ∈ xs, ∀ s t u, I s → f x s = .ok u t → I t) {s t : σ} {u : Unit} (hs : I s)
    (hrun : forEach f xs s = .ok u t) : I t := by
  induction xs generalizing s with
  | nil =>
    cases hrun
    exact hs
  | cons x xs ih =>
    obtain ⟨v, s', hhead, hrest⟩ := bind_eq_ok hrun
    refine ih (fun y hy => h y (List.mem_cons_of_mem x hy)) ?_ hrest
    exact h x List.mem_cons_self s s' v hs hhead

/-! ## Outcomes -/

/-- The state a call leaves behind, however it ended. -/
def final : EStateM.Result Fault σ α → σ
  | .ok _ t => t
  | .error _ t => t

/-- The value of a call that returned. -/
def value : EStateM.Result Fault σ α → Option α
  | .ok a _ => some a
  | .error _ _ => none

/-- How a call that did not return ended. -/
def fault : EStateM.Result Fault σ α → Option Fault
  | .ok _ _ => none
  | .error e _ => some e

/-- The state after a call that returned. -/
def returned : EStateM.Result Fault σ α → Option σ
  | .ok _ t => some t
  | .error _ _ => none

theorem returned_eq_some {r : EStateM.Result Fault σ α} {t : σ} :
    returned r = some t ↔ ∃ a, r = .ok a t := by
  cases r with
  | ok a s => simp [returned]
  | error e s => simp [returned]

theorem returned_unit_eq_some {r : EStateM.Result Fault σ Unit} {t : σ} :
    returned r = some t ↔ r = .ok () t := by
  rw [returned_eq_some, Unique.exists_iff]

theorem eq_ok_of_value {r : EStateM.Result Fault σ α} {a : α} (h : value r = some a) :
    r = .ok a (final r) := by
  cases r with
  | ok b t =>
    cases h
    rfl
  | error e t => cases h

theorem eq_error_of_fault {r : EStateM.Result Fault σ α} {e : Fault} (h : fault r = some e) :
    r = .error e (final r) := by
  cases r with
  | ok b t => cases h
  | error e t =>
    cases h
    rfl

/-- One call after another. -/
theorem returned_bind (x : Call σ Unit) (y : Call σ α) (s : σ) :
    returned ((x >>= fun _ => y) s) = (returned (x s)).bind fun t => returned (y t) := by
  rw [bind_apply]
  cases x s with
  | ok a t => rfl
  | error e t => rfl

/-- A loop that returns is a run of its iterations. -/
theorem returned_forEach (f : β → Call σ Unit) (xs : List β) (s : σ) :
    returned (forEach f xs s) = Transition.run (fun s x => returned (f x s)) s xs := by
  induction xs generalizing s with
  | nil => rfl
  | cons x xs ih =>
    rw [forEach_cons, bind_apply, Transition.run_cons]
    cases f x s with
    | ok a t => exact ih t
    | error e t => rfl

/-! ## Definedness -/

/-- The call does nothing undefined; it may throw. -/
def Defined (x : Call σ α) (s : σ) : Prop := ∀ cause t, x s ≠ .error (.undefined cause) t

theorem Defined.of_ok {x : Call σ α} {s t : σ} {a : α} (h : x s = .ok a t) : Defined x s := by
  intro cause u hrun
  rw [h] at hrun
  cases hrun

/-- After a call that returns, what follows decides. -/
theorem defined_bind_ok {x : Call σ α} {f : α → Call σ β} {s t : σ} {a : α} (h : x s = .ok a t) :
    Defined (x >>= f) s ↔ Defined (f a) t := by
  unfold Defined
  rw [bind_ok h]

/-- A call that does not return decides alone. -/
theorem defined_bind_error {x : Call σ α} {f : α → Call σ β} {s t : σ} {e : Fault}
    (h : x s = .error e t) : Defined (x >>= f) s ↔ Defined x s := by
  unfold Defined
  rw [bind_error h, h]
  constructor <;> intro hx cause u hrun <;> cases hrun <;> exact hx cause t rfl

/-! ## Causes -/

/-- Whatever the call does undefined, it is none of these causes. -/
def Avoids (S : Undefined → Prop) (x : Call σ α) : Prop :=
  ∀ s cause t, S cause → x s ≠ .error (.undefined cause) t

namespace Avoids

variable {S : Undefined → Prop}

theorem pure (a : α) : Avoids S (pure a : Call σ α) := by
  intro s cause t _ h
  cases h

theorem get : Avoids S (get : Call σ σ) := by
  intro s cause t _ h
  cases h

theorem set (s : σ) : Avoids S (set s : Call σ PUnit) := by
  intro s cause t _ h
  cases h

theorem modify (f : σ → σ) : Avoids S (modify f : Call σ PUnit) := by
  intro s cause t _ h
  cases h

theorem raise (what : String) : Avoids S (Call.raise what : Call σ α) := by
  intro s cause t _ h
  cases h

theorem raiseIf (c : Bool) (what : String) : Avoids S (Call.raiseIf c what : Call σ Unit) := by
  cases c with
  | true => exact raise what
  | false => exact pure ()

theorem undefined {cause : Undefined} (hcause : ¬ S cause) :
    Avoids S (Call.undefined cause : Call σ α) := by
  intro s cause' t hcause' h
  cases h
  exact hcause hcause'

theorem eval {x : Except Fault α} (hx : SafeFrom S x) : Avoids S (Call.eval x : Call σ α) := by
  intro s cause t hcause h
  cases x with
  | ok a => cases h
  | error e =>
    cases h
    exact hx cause hcause rfl

theorem bind {x : Call σ α} {f : α → Call σ β} (hx : Avoids S x)
    (hf : ∀ s a t, x s = .ok a t → Avoids S (f a)) : Avoids S (x >>= f) := by
  intro s cause t hcause h
  rw [bind_apply] at h
  cases hrun : x s with
  | ok a s' =>
    rw [hrun] at h
    exact hf s a s' hrun s' cause t hcause h
  | error e s' =>
    rw [hrun] at h
    cases h
    exact hx s cause t hcause hrun

theorem zoom {get : σ → τ} {put : σ → τ → σ} {x : Call τ α} (hx : Avoids S x) :
    Avoids S (Call.zoom get put x) := by
  intro s cause t hcause h
  cases hrun : x (get s) with
  | ok a s' =>
    rw [zoom_ok hrun] at h
    cases h
  | error e s' =>
    rw [zoom_error hrun] at h
    cases h
    exact hx (get s) cause s' hcause hrun

/-- The loop rule. -/
theorem forEach {f : β → Call σ Unit} (h : ∀ x, Avoids S (f x)) (xs : List β) :
    Avoids S (Call.forEach f xs) := by
  induction xs with
  | nil => exact pure ()
  | cons x xs ih => exact (h x).bind fun _ _ _ _ => ih

end Avoids

/-! ## Total correctness -/

/-- From a state of `P` the call returns, in a state that satisfies `Q`. -/
def Returns (P : σ → Prop) (x : Call σ α) (Q : α → σ → Prop) : Prop :=
  ∀ s, P s → ∃ a t, x s = .ok a t ∧ Q a t

theorem Returns.bind {P : σ → Prop} {Q : α → σ → Prop} {R : β → σ → Prop} {x : Call σ α}
    {f : α → Call σ β} (hx : Returns P x Q) (hf : ∀ a, Returns (Q a) (f a) R) :
    Returns P (x >>= f) R := by
  intro s hs
  obtain ⟨a, t, hrun, hq⟩ := hx s hs
  obtain ⟨b, u, hrun', hr⟩ := hf a t hq
  exact ⟨b, u, (bind_ok hrun f).trans hrun', hr⟩

theorem Returns.mono {P P' : σ → Prop} {Q Q' : α → σ → Prop} {x : Call σ α}
    (hx : Returns P x Q) (hP : ∀ s, P' s → P s) (hQ : ∀ a s, Q a s → Q' a s) :
    Returns P' x Q' := by
  intro s hs
  obtain ⟨a, t, hrun, hq⟩ := hx s (hP s hs)
  exact ⟨a, t, hrun, hQ a t hq⟩

/-- The loop rule: an invariant each iteration returns with. -/
theorem Returns.forEach {I : σ → Prop} {f : β → Call σ Unit} {xs : List β}
    (h : ∀ x ∈ xs, Returns I (f x) fun _ => I) :
    Returns I (Call.forEach f xs) fun _ => I := by
  induction xs with
  | nil => exact fun s hs => ⟨(), s, rfl, hs⟩
  | cons x xs ih =>
    rw [forEach_cons]
    exact (h x List.mem_cons_self).bind fun _ =>
      ih fun y hy => h y (List.mem_cons_of_mem x hy)

/-! ## Invariants -/

/-- However the call ends, it keeps the invariant. -/
def Keeps (I : σ → Prop) (x : Call σ α) : Prop := ∀ s, I s → I (final (x s))

theorem Keeps.ok {I : σ → Prop} {x : Call σ α} {s t : σ} {a : α} (hx : Keeps I x) (hs : I s)
    (h : x s = .ok a t) : I t := by
  have hfinal := hx s hs
  rwa [h] at hfinal

theorem Keeps.pure {I : σ → Prop} (a : α) : Keeps I (pure a : Call σ α) := fun _ hs => hs

theorem Keeps.get {I : σ → Prop} : Keeps I (get : Call σ σ) := fun _ hs => hs

theorem Keeps.undefined {I : σ → Prop} (cause : Undefined) :
    Keeps I (Call.undefined cause : Call σ α) := fun _ hs => hs

theorem Keeps.raiseIf {I : σ → Prop} (c : Bool) (what : String) :
    Keeps I (Call.raiseIf c what) := by
  cases c <;> exact fun _ hs => hs

theorem Keeps.modify {I : σ → Prop} {f : σ → σ} (h : ∀ s, I s → I (f s)) :
    Keeps I (modify f : Call σ PUnit) := h

theorem Keeps.eval {I : σ → Prop} (x : Except Fault α) : Keeps I (Call.eval x : Call σ α) := by
  intro s hs
  cases x with
  | ok a => exact hs
  | error e => exact hs

theorem Keeps.bind {I : σ → Prop} {x : Call σ α} {f : α → Call σ β} (hx : Keeps I x)
    (hf : ∀ a, Keeps I (f a)) : Keeps I (x >>= f) := by
  intro s hs
  have hfinal := hx s hs
  rw [bind_apply]
  cases h : x s with
  | ok a t =>
    rw [h] at hfinal
    exact hf a t hfinal
  | error e t =>
    rw [h] at hfinal
    exact hfinal

/-- The loop rule. -/
theorem Keeps.forEach {I : σ → Prop} {f : β → Call σ Unit} {xs : List β}
    (h : ∀ x ∈ xs, Keeps I (f x)) : Keeps I (Call.forEach f xs) := by
  induction xs with
  | nil => exact Keeps.pure ()
  | cons x xs ih =>
    rw [forEach_cons]
    exact (h x List.mem_cons_self).bind fun _ =>
      ih fun y hy => h y (List.mem_cons_of_mem x hy)

end Call
end Cpp
