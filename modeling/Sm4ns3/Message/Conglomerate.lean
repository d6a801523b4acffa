import Sm4ns3.Message.Writer

/-!
# `MessageConglomerate`

A received bundle: for version 0 a list of JSON values, for version 1 one
string and the offset and length of each message in it. Messages are added one
at a time; adding one also reads its `msg_type`.
-/

namespace Sm4ns3

open Bytes Cpp Call

structure MessageBase where
  msg_type : StdString := []
  deriving DecidableEq, Repr

structure DPoint where
  x : Double
  y : Double
  deriving DecidableEq, Repr

structure MessageConglomerate where
  senderId : StdString := []
  messages_json : List Json := []
  messages_v1 : StdString := []
  offsets_v1 : List (Int × Int) := []
  message_bases : List MessageBase := []
  deriving DecidableEq

/-! ## Reading strings and vectors by position -/

/-- A sum of two `int`s; signed overflow is undefined. -/
def addInt (a b : Int) : Except Fault Int :=
  if -2 ^ 31 ≤ a + b ∧ a + b < 2 ^ 31 then .ok (a + b) else .error (.undefined .overflow)

/-- `s[i]` of a constant string: the NUL at its end can be read too. -/
def charAt (s : StdString) (i : Int) : Except Fault UInt8 :=
  if 0 ≤ i ∧ i.toNat < s.length then .ok (s.getD i.toNat 0)
  else if i = s.length then .ok 0
  else .error (.undefined .outOfRange)

/-- The characters of `s` from `&s[offset]` to `&s[offset + length]`. -/
def charRange (s : StdString) (offset length : Int) : Except Fault StdString :=
  if 0 ≤ offset ∧ 0 ≤ length ∧ offset + length ≤ s.length then
    .ok (slice s offset.toNat length.toNat)
  else .error (.undefined .outOfRange)

/-- `std::vector::at` -/
def vectorAt {α : Type} (xs : List α) (i : Int) : Except Fault α :=
  if 0 ≤ i then
    match xs[i.toNat]? with
    | some x => .ok x
    | none => .error (.exception "vector::_M_range_check")
  else .error (.exception "vector::_M_range_check")

theorem toInt_lt (n : Int) : toInt n < 2 ^ 31 := by
  have h := Int.bmod_lt (x := n) (m := 2 ^ 32) (by decide)
  unfold toInt
  omega

theorem toInt_le (n : Nat) : toInt n ≤ n := by
  have h := Int.bmod_def (n : Int) (2 ^ 32)
  unfold toInt
  omega

theorem toInt_eq {n : Int} (h : -2 ^ 31 ≤ n ∧ n < 2 ^ 31) : toInt n = n := by
  unfold toInt
  exact Int.bmod_eq_of_le (by omega) (by omega)

theorem addInt_ok {a b : Int} (h : -2 ^ 31 ≤ a + b ∧ a + b < 2 ^ 31) :
    addInt a b = .ok (a + b) := if_pos h

theorem addInt_eq_ok {a b n : Int} (h : addInt a b = .ok n) :
    (-2 ^ 31 ≤ a + b ∧ a + b < 2 ^ 31) ∧ n = a + b := by
  unfold addInt at h
  split at h
  · exact ⟨‹_›, (Except.ok.inj h).symm⟩
  · cases h

@[simp] theorem charAt_middle (a s : StdString) (c : UInt8) :
    charAt (a ++ c :: s) (a.length : Int) = .ok c := by
  unfold charAt
  rw [if_pos ⟨by omega, by simp⟩]
  simp

@[simp] theorem charRange_middle (a b c : StdString) :
    charRange (a ++ (b ++ c)) (a.length : Int) (b.length : Int) = .ok b := by
  unfold charRange
  rw [if_pos ⟨by omega, by omega, by simp⟩]
  exact congrArg _ (slice_middle a b c)

theorem slice_of_charRange {s t : StdString} {offset length : Nat}
    (h : charRange s offset length = .ok t) :
    offset + length ≤ s.length ∧ slice s offset length = t := by
  unfold charRange at h
  split at h
  · exact ⟨by omega, Except.ok.inj h⟩
  · cases h

theorem vectorAt_eq_ok {α : Type} {xs : List α} {i : Nat} {x : α} (h : xs[i]? = some x) :
    vectorAt xs (i : Int) = .ok x := by
  simp [vectorAt, h]

namespace MessageConglomerate

/-! ## Adding a message -/

section Add

variable (J : Jsoncpp) (newBundles : Bool)

def ParseJsonMessageBase (root : Json) : Except Fault MessageBase := do
  if !(← root.isMember (str "msg_type")) then
    throw (.exception "Base message is missing required parameter 'msg_type'.")
  return { msg_type := ← J.asString (← root.get (str "msg_type")) }

/-- `messages_json.push_back(msg); message_bases.push_back(base)` -/
def push (c : MessageConglomerate) (msg : Json) (base : MessageBase) : MessageConglomerate :=
  { c with messages_json := c.messages_json ++ [msg], message_bases := c.message_bases ++ [base] }

def addMessage_v0 (msg : Json) : Call MessageConglomerate Unit := do
  raiseIf newBundles "Error, attempting to construct v0 MessageConglomerate."
  let c ← get
  set (c.push msg {})
  let base ← eval (ParseJsonMessageBase J msg)
  set (c.push msg base)

/-- Save the message string, once. -/
def saveString (msgStr : StdString) : Call MessageConglomerate Unit := do
  if msgStr.isEmpty then
    pure ()
  else
    let c ← get
    raiseIf (!c.messages_v1.isEmpty) "Can't overwrite the message string once set."
    set { c with messages_v1 := msgStr }

/-- Parse the message just added by what its first character says of its format. -/
def parseAdded (offset length : Int) : Call MessageConglomerate Unit := do
  let c ← get
  set (c.push .null {})
  let first ← eval (charAt c.messages_v1 offset)
  if first = 0xBB then
    raise "Base (v1) message binary format not yet supported."
  else if first = 123 then
    match J.parse (← eval (charRange c.messages_v1 offset length)) with
    | none => raise "Parsing JSON message base failed."
    | some msg =>
      set (c.push msg {})
      let base ← eval (ParseJsonMessageBase J msg)
      set (c.push msg base)
  else
    raise "Unable to determine v1 message format (binary or JSON)."

def addMessage_v1 (offset length : Int) (msgStr : StdString) : Call MessageConglomerate Unit := do
  raiseIf (!newBundles) "Error, attempting to construct v1 MessageConglomerate."
  let c ← get
  raiseIf (c.offsets_v1.isEmpty && msgStr.isEmpty)
    "Error; msgString must be non-empty for the first message."
  saveString msgStr
  let c ← get
  raiseIf (offset < 0) "Can't add message: total length exceeds length of message string."
  let total ← eval (addInt offset length)
  raiseIf (toInt c.messages_v1.length < total)
    "Can't add message: total length exceeds length of message string."
  set { c with offsets_v1 := c.offsets_v1 ++ [(offset, length)] }
  parseAdded J offset length

end Add

/-! ## What adding a message does -/

section Spec

variable {J : Jsoncpp}

/-- Each message has one entry in each of the three vectors. -/
def InStep (c : MessageConglomerate) : Prop :=
  c.offsets_v1.length = c.message_bases.length ∧ c.messages_json.length = c.message_bases.length

theorem parseAdded_push {c c' : MessageConglomerate} {offset length : Int} {u : Unit}
    (h : parseAdded J offset length c = .ok u c') : ∃ v base, c' = c.push v base := by
  simp only [parseAdded, get_bind_apply, set_bind_apply, eval_bind_eq_ok] at h
  obtain ⟨first, -, h⟩ := h
  by_cases hbin : first = 187
  · simp [hbin] at h
  by_cases hobj : first = 123
  · rw [if_neg hbin, if_pos hobj, eval_bind_eq_ok] at h
    obtain ⟨raw, -, h⟩ := h
    cases hv : J.parse raw with
    | none => simp [hv] at h
    | some v =>
      simp only [hv, set_bind_apply, eval_bind_eq_ok] at h
      obtain ⟨base, -, h⟩ := h
      cases h
      exact ⟨v, base, rfl⟩
  · simp [hbin, hobj] at h

/-- Whatever its arguments, a call of `addMessage` that returns adds one message. -/
theorem addMessage_v1_inStep {newBundles : Bool} {c c' : MessageConglomerate}
    {offset length : Int} {msgStr : StdString} {u : Unit} (hc : c.InStep)
    (h : addMessage_v1 J newBundles offset length msgStr c = .ok u c') : c'.InStep := by
  simp only [addMessage_v1, raiseIf_bind_eq_ok, get_bind_apply] at h
  obtain ⟨-, -, h⟩ := h
  obtain ⟨_, t, hsave, h⟩ := bind_eq_ok h
  rw [get_bind_apply, raiseIf_bind_eq_ok, eval_bind_eq_ok] at h
  obtain ⟨-, total, -, h⟩ := h
  rw [raiseIf_bind_eq_ok, set_bind_apply] at h
  obtain ⟨v, base, rfl⟩ := parseAdded_push h.2
  obtain ⟨hoff, hjson⟩ := hc
  have hfields : t.offsets_v1 = c.offsets_v1 ∧ t.messages_json = c.messages_json ∧
      t.message_bases = c.message_bases := by
    unfold saveString at hsave
    split at hsave
    · cases hsave
      exact ⟨rfl, rfl, rfl⟩
    · rw [get_bind_apply, raiseIf_bind_eq_ok] at hsave
      cases hsave.2
      exact ⟨rfl, rfl, rfl⟩
  simp [InStep, push, hfields, hoff, hjson]

/-- The `length` octets at `offset` of `raw` are the text of `v`, an object text
with the properties `base`. -/
structure MessageAt (J : Jsoncpp) (raw : StdString) (offset length : Nat) (v : Json)
    (base : MessageBase) : Prop where
  bound : (offset + length : Int) ≤ toInt raw.length
  first : charAt raw offset = .ok 123
  parse : J.parse (slice raw offset length) = some v
  base : ParseJsonMessageBase J v = .ok base

/-- The string is given with the first message and only then. -/
def Accepts (c : MessageConglomerate) (msgStr : StdString) : Prop :=
  ¬ (c.offsets_v1 = [] ∧ msgStr = []) ∧ (msgStr ≠ [] → c.messages_v1 = [])

/-- The string the conglomerate works on once `msgStr` is passed. -/
def underlying (c : MessageConglomerate) (msgStr : StdString) : StdString :=
  if msgStr = [] then c.messages_v1 else msgStr

/-- The conglomerate with one more message. -/
def added (c : MessageConglomerate) (raw : StdString) (offset length : Nat) (v : Json)
    (base : MessageBase) : MessageConglomerate :=
  { c with
    messages_v1 := raw
    offsets_v1 := c.offsets_v1 ++ [((offset : Int), (length : Int))]
    messages_json := c.messages_json ++ [v]
    message_bases := c.message_bases ++ [base] }

theorem charRange_nat {s : StdString} {offset length : Nat}
    (h : (offset + length : Int) ≤ toInt s.length) :
    charRange s offset length = .ok (slice s offset length) := by
  have hle := toInt_le s.length
  exact if_pos ⟨by omega, by omega, by omega⟩

theorem saveString_eq_ok {c c' : MessageConglomerate} {msgStr : StdString} {u : Unit} :
    saveString msgStr c = .ok u c' ↔
      (msgStr ≠ [] → c.messages_v1 = []) ∧ c' = { c with messages_v1 := c.underlying msgStr } := by
  unfold saveString underlying
  cases msgStr with
  | nil => simp [Eq.comm (a := c)]
  | cons x s =>
    simp [raiseIf_bind_eq_ok, Eq.comm (b := c')]

theorem parseAdded_eq_ok {c c' : MessageConglomerate} {offset length : Nat}
    (h : (offset + length : Int) ≤ toInt c.messages_v1.length) :
    parseAdded J offset length c = .ok () c' ↔
      ∃ v base, MessageAt J c.messages_v1 offset length v base ∧ c' = c.push v base := by
  simp only [parseAdded, get_bind_apply, set_bind_apply, eval_bind_eq_ok]
  constructor
  · rintro ⟨first, hfirst, hrest⟩
    by_cases hbin : first = 187
    · simp [hbin] at hrest
    by_cases hobj : first = 123
    · subst hobj
      rw [if_neg hbin, if_pos rfl, charRange_nat h] at hrest
      cases hv : J.parse (slice c.messages_v1 offset length) with
      | none => simp [hv] at hrest
      | some v =>
        simp only [eval_ok, pure_bind_apply, hv, set_bind_apply, eval_bind_eq_ok] at hrest
        obtain ⟨base, hbase, hrest⟩ := hrest
        cases hrest
        exact ⟨v, base, ⟨h, hfirst, hv, hbase⟩, rfl⟩
    · simp [hbin, hobj] at hrest
  · rintro ⟨v, base, hm, rfl⟩
    refine ⟨123, hm.first, ?_⟩
    rw [if_neg (by decide), if_pos rfl, charRange_nat h]
    simp only [eval_ok, pure_bind_apply, hm.parse, set_bind_apply, hm.base, set_apply]

/-- A message is added when the string is given at the right time and the octets
named are a message; nothing but that message changes. -/
theorem addMessage_v1_eq_ok {c c' : MessageConglomerate} {offset length : Nat}
    {msgStr : StdString} {u : Unit} :
    addMessage_v1 J true offset length msgStr c = .ok u c' ↔
      c.Accepts msgStr ∧ ∃ v base, MessageAt J (c.underlying msgStr) offset length v base ∧
        c' = c.added (c.underlying msgStr) offset length v base := by
  simp only [addMessage_v1, raiseIf_bind_eq_ok, get_bind_apply,
    bind_eq_ok_iff (x := saveString _), saveString_eq_ok, eval_bind_eq_ok, set_bind_apply]
  constructor
  · rintro ⟨-, hfirst, -, t, ⟨hsave, rfl⟩, -, total, htotal, hbound, hrest⟩
    obtain ⟨-, rfl⟩ := addInt_eq_ok htotal
    have hle : (offset + length : Int) ≤ toInt (c.underlying msgStr).length := by
      simpa using hbound
    obtain ⟨v, base, hm, rfl⟩ := (parseAdded_eq_ok (by exact hle)).mp hrest
    exact ⟨⟨by simpa using hfirst, hsave⟩, v, base, hm, rfl⟩
  · rintro ⟨⟨hfirst, hsave⟩, v, base, hm, rfl⟩
    have hlt := toInt_lt (c.underlying msgStr).length
    have hbound := hm.bound
    refine ⟨rfl, by simpa using hfirst, (), _, ⟨hsave, rfl⟩, by simp, _,
      addInt_ok ⟨by omega, by omega⟩, by simpa using hbound, ?_⟩
    exact (parseAdded_eq_ok (by exact hbound)).mpr ⟨v, base, hm, rfl⟩
end Spec

/-! ## Reading the messages back -/

def getCount (newBundles : Bool) (c : MessageConglomerate) : Int :=
  if newBundles then toInt c.offsets_v1.length else toInt c.messages_json.length

theorem getCount_new (c : MessageConglomerate) :
    c.getCount NEW_BUNDLES = toInt c.offsets_v1.length := if_pos rfl

def getBaseMessage (c : MessageConglomerate) (msgNumber : Int) : Except Fault MessageBase :=
  vectorAt c.message_bases msgNumber

def getJsonMessage (c : MessageConglomerate) (msgNumber : Int) : Except Fault Json :=
  vectorAt c.messages_json msgNumber

def getRawMessage (newBundles : Bool) (c : MessageConglomerate) (msgNumber : Int) :
    Except Fault (Int × Int) :=
  if newBundles then vectorAt c.offsets_v1 msgNumber
  else .error (.exception "Error, attempting to retrieve v1 MessageConglomerate [1].")

def getUnderlyingString (newBundles : Bool) (c : MessageConglomerate) : Except Fault StdString :=
  if newBundles then .ok c.messages_v1
  else .error (.exception "Error, attempting to retrieve v1 MessageConglomerate [2].")

end MessageConglomerate
end Sm4ns3
