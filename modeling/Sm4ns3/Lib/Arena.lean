import Mathlib.Logic.Function.Basic
import Sm4ns3.Lib.Transition

/-!
# Arenas

In an arena stand things that have names; they can be moved, and send texts to one
another. A name is absent, or stands for a thing at some place, or it is blocked: it
was looked up while it was absent, and is taken by nothing since. The arena is stuck
where a blocked name is asked to leave, and where something is no command; otherwise it
obeys (`run_isSome_iff`).
-/

/-- What a name stands for. -/
inductive Arena.Slot (Place : Type) where
  | absent
  | blocked
  | present (place : Place)
  deriving DecidableEq, Repr

@[ext]
structure Arena (Name Place Text : Type) where
  slot : Name → Arena.Slot Place
  /-- how many things were made -/
  made : Nat := 0
  /-- the texts sent: by whom and to whom -/
  sent : List (Name × Name × Text) := []

namespace Arena

variable {Name Place Text : Type} [DecidableEq Name] (start : Nat → Place)

/-- A thing is made, and takes the name if the name is absent. -/
def enter (s : Arena Name Place Text) (name : Name) : Arena Name Place Text where
  slot := match s.slot name with
    | .absent => Function.update s.slot name (.present (start s.made))
    | _ => s.slot
  made := s.made + 1
  sent := s.sent

/-- The thing of this name leaves; a blocked name cannot be asked to. -/
def leave (s : Arena Name Place Text) (name : Name) : Option (Arena Name Place Text) :=
  match s.slot name with
  | .absent => some s
  | .blocked => none
  | .present _ => some { s with slot := Function.update s.slot name .absent }

def move (s : Arena Name Place Text) (target : Name × Place) : Arena Name Place Text :=
  match s.slot target.1 with
  | .present _ => { s with slot := Function.update s.slot target.1 (.present target.2) }
  | _ => s

/-- A name is looked up. -/
def look (s : Arena Name Place Text) (name : Name) : Arena Name Place Text :=
  match s.slot name with
  | .absent => { s with slot := Function.update s.slot name .blocked }
  | _ => s

/-- The recipient is looked up, and sent its text if it is there. -/
def deliver (sender : Name) (text : Name → Text) (s : Arena Name Place Text) (recipient : Name) :
    Arena Name Place Text :=
  match s.slot recipient with
  | .present _ => { s with sent := s.sent ++ [(sender, recipient, text recipient)] }
  | _ => s.look recipient

inductive Command (Name Place Text : Type) where
  | update (join part : List Name)
  | move (targets : List (Name × Place))
  | send (sender : Name) (recipients : List Name) (text : Name → Text)

def step (s : Arena Name Place Text) :
    Command Name Place Text → Option (Arena Name Place Text)
  | .update join part => Transition.run leave (join.foldl (enter start) s) part
  | .move targets => some (targets.foldl move s)
  | .send sender recipients text =>
    match s.slot sender with
    | .present _ => some (recipients.foldl (deliver sender text) s)
    | _ => some (s.look sender)

/-- What is not a command cannot be obeyed. -/
def obey (s : Arena Name Place Text) (command : Option (Command Name Place Text)) :
    Option (Arena Name Place Text) :=
  command.bind (step start s)

variable {start} {s t : Arena Name Place Text} {name : Name}

/-! ## Things that enter one after the other -/

/-- Entering counts a thing each time. -/
theorem enters_made (s : Arena Name Place Text) (names : List Name) :
    (names.foldl (enter start) s).made = s.made + names.length := by
  induction names generalizing s with
  | nil => rfl
  | cons name names ih =>
    have henter : (s.enter start name).made = s.made + 1 := rfl
    rw [List.foldl_cons, ih, henter, List.length_cons, Nat.add_right_comm, Nat.add_assoc]

theorem enters_sent (s : Arena Name Place Text) (join : List Name) :
    (join.foldl (enter start) s).sent = s.sent := by
  induction join generalizing s with
  | nil => rfl
  | cons name join ih => exact ih (s.enter start name)

theorem enters_other {names : List Name} (h : name ∉ names) :
    (names.foldl (enter start) s).slot name = s.slot name := by
  induction names generalizing s with
  | nil => rfl
  | cons other names ih =>
    obtain ⟨hne, hnot⟩ := not_or.mp (mt List.mem_cons.mpr h)
    rw [List.foldl_cons, ih hnot, enter]
    cases s.slot other with
    | absent => exact Function.update_of_ne hne _ _
    | _ => rfl

/-- The first of some names to enter is at the place of its number. -/
theorem enters_slot {names : List Name} {i : Nat} (hnodup : names.Nodup)
    (habsent : ∀ name ∈ names, s.slot name = .absent) (hi : names[i]? = some name) :
    (names.foldl (enter start) s).slot name = .present (start (s.made + i)) := by
  induction names generalizing s i with
  | nil => cases hi
  | cons first names ih =>
    obtain ⟨hnot, hnodup'⟩ := List.nodup_cons.mp hnodup
    obtain ⟨hfirst, hrest⟩ := List.forall_mem_cons.mp habsent
    have henter : (s.enter start first).slot =
        Function.update s.slot first (.present (start s.made)) := by
      simp only [enter, hfirst]
    rw [List.foldl_cons]
    cases i with
    | zero =>
      obtain rfl : first = name := by simpa using hi
      rw [enters_other hnot, henter, Function.update_self]
      rfl
    | succ i =>
      have hleft : ∀ other ∈ names, (s.enter start first).slot other = .absent := by
        intro other hother
        have hne : other ≠ first := by
          rintro rfl
          exact hnot hother
        rw [henter, Function.update_of_ne hne]
        exact hrest other hother
      rw [ih hnodup' hleft (by simpa using hi)]
      show Slot.present (start (s.made + 1 + i)) = _
      rw [Nat.add_right_comm, Nat.add_assoc]

/-! ## Senders and recipients that are there, and others -/

theorem look_taken (h : s.slot name ≠ .absent) :
    s.look name = s := by
  unfold look
  cases hslot : s.slot name with
  | absent => exact absurd hslot h
  | _ => rfl

theorem deliver_present {recipient : Name} {place : Place}
    (h : s.slot recipient = .present place) (sender : Name) (text : Name → Text) :
    s.deliver sender text recipient =
      { s with sent := s.sent ++ [(sender, recipient, text recipient)] } := by
  simp only [deliver, h]

theorem deliver_missing {recipient : Name}
    (h : ∀ place, s.slot recipient ≠ .present place) (sender : Name) (text : Name → Text) :
    s.deliver sender text recipient = s.look recipient := by
  unfold deliver
  cases hslot : s.slot recipient with
  | present place => exact absurd hslot (h place)
  | _ => rfl

theorem step_send_present {sender : Name} {place : Place}
    (h : s.slot sender = .present place) (recipients : List Name) (text : Name → Text) :
    step start s (.send sender recipients text) =
      some (recipients.foldl (deliver sender text) s) := by
  simp only [step, h]

theorem step_send_missing {sender : Name}
    (h : ∀ place, s.slot sender ≠ .present place) (recipients : List Name) (text : Name → Text) :
    step start s (.send sender recipients text) = some (s.look sender) := by
  cases hslot : s.slot sender with
  | present place => exact absurd hslot (h place)
  | _ => simp only [step, hslot]

/-! ## Commands that can be obeyed -/

/-- The names that a command asks to leave. -/
def Command.leaving : Command Name Place Text → List Name
  | .update _ part => part
  | _ => []

/-- It is a command, and asks no blocked name to leave. -/
def Allowed (s : Arena Name Place Text) (command : Option (Command Name Place Text)) : Prop :=
  ∃ c, command = some c ∧ ∀ name ∈ c.leaving, s.slot name ≠ .blocked

/-- Entering blocks nothing. -/
theorem enter_blocked_iff (other : Name) :
    (s.enter start other).slot name = .blocked ↔ s.slot name = .blocked := by
  unfold enter
  cases hother : s.slot other with
  | absent =>
    by_cases hne : name = other
    · subst hne
      simp [hother]
    · simp [hne]
  | _ => exact Iff.rfl

theorem enters_blocked_iff (join : List Name) :
    (join.foldl (enter start) s).slot name = .blocked ↔ s.slot name = .blocked := by
  induction join generalizing s with
  | nil => exact Iff.rfl
  | cons other join ih => exact ih.trans (enter_blocked_iff other)

/-- Names can leave one after the other exactly when none of them is blocked. -/
theorem leaves_isSome_iff (part : List Name) :
    (Transition.run leave s part).isSome = true ↔ ∀ other ∈ part, s.slot other ≠ .blocked := by
  induction part generalizing s with
  | nil => simp
  | cons first part ih =>
    rw [Transition.run_cons, List.forall_mem_cons]
    cases hfirst : s.slot first with
    | absent => simpa [leave, hfirst] using ih
    | blocked => simp [leave, hfirst]
    | present place =>
      have hleft : ∀ other, Function.update s.slot first .absent other ≠ .blocked ↔
          s.slot other ≠ .blocked := by
        intro other
        by_cases hne : other = first
        · simp [hne, hfirst]
        · simp [hne]
      simp only [leave, hfirst, Option.bind_some, ih, hleft]
      simp

/-- A command is obeyed exactly when it is allowed. -/
theorem obey_isSome_iff (command : Option (Command Name Place Text)) :
    (s.obey start command).isSome = true ↔ s.Allowed command := by
  cases command with
  | none => simp [obey, Allowed]
  | some command =>
    simp only [obey, Option.bind_some, Allowed, Option.some.injEq, exists_eq_left']
    cases command with
    | update join part =>
      show (Transition.run leave (join.foldl (enter start) s) part).isSome = true ↔ _
      rw [leaves_isSome_iff]
      simp only [ne_eq, enters_blocked_iff]
      rfl
    | move targets => simp [step, Command.leaving]
    | send sender recipients text =>
      simp only [step, Command.leaving]
      cases s.slot sender <;> simp

/-- The arena is never stuck exactly when every command is allowed where it is due. -/
theorem run_isSome_iff {commands : List (Option (Command Name Place Text))} :
    (Transition.run (obey start) s commands).isSome = true ↔
      Transition.Along (obey start) Allowed s commands :=
  Transition.run_isSome_iff fun _ => obey_isSome_iff

end Arena
