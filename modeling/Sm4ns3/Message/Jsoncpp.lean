import Sm4ns3.BundleVersion
import Sm4ns3.Lib.Json.Scalar

/-!
# The JSON library the program links

jsoncpp is not part of the repository. `Jsoncpp` lists what the program calls:
`Json::Reader::parse`, the rendering of scalars, and the conversions of a value
of another type, which differ between versions of the library (`none` is a
thrown exception). Reading a member, writing one and converting a value of the
right type are the same everywhere and are defined here.

`Jsoncpp.Reads` states what the library's documentation promises: a scalar is
rendered as a token that reads back, and the reader accepts every JSON text.
`Jsoncpp.reference` is an instance built on the reader of `Sm4ns3.Lib.Json`,
and `reference_reads` shows that it keeps the promise.
-/

open Cpp Sm4ns3

/-! ## Members and elements of a value -/

namespace Json

/-- `value.isNull()` -/
def isNull : Json → Bool
  | .null => true
  | _ => false

/-- `value.isArray()` -/
def isArray : Json → Bool
  | .array _ => true
  | _ => false

/-- `value.isMember(key)`; only null and objects can be asked. -/
def isMember (v : Json) (key : StdString) : Except Fault Bool :=
  match v with
  | .object ms => .ok (ms.lookup key).isSome
  | .null => .ok false
  | _ => .error (.exception "requires objectValue")

/-- `value[key]`; a missing member reads as null. -/
def get (v : Json) (key : StdString) : Except Fault Json :=
  match v with
  | .object ms => .ok ((ms.lookup key).getD .null)
  | .null => .ok .null
  | _ => .error (.exception "requires objectValue")

/-- `value[key] = x` on a local object. -/
def set (v : Json) (key : StdString) (x : Json) : Json :=
  match v with
  | .object ms => .object (insertMember key x ms)
  | _ => .object [(key, x)]

/-- `value[key].append(x)` on a local object. -/
def appendTo (v : Json) (key : StdString) (x : Json) : Json :=
  match v with
  | .object ms =>
    match ms.lookup key with
    | some (.array xs) => .object (insertMember key (.array (xs ++ [x])) ms)
    | _ => .object (insertMember key (.array [x]) ms)
  | _ => .object [(key, .array [x])]

/-- `value[0]`, ..., `value[value.size() - 1]`; an object has a size and no
element at an index. -/
def elements : Json → Except Fault (List Json)
  | .array xs => .ok xs
  | .object (_ :: _) => .error (.exception "requires arrayValue")
  | _ => .ok []

theorem canonical_set {v x : Json} {key : StdString} (hv : v.canonical = true)
    (hx : x.canonical = true) : (v.set key x).canonical = true := by
  cases v with
  | object ms => exact canonical_insertMember hv hx
  | _ => simpa [set, canonical, canonicalMembers, KeysSorted] using hx

theorem canonical_appendTo {v x : Json} {key : StdString} (hv : v.canonical = true)
    (hx : x.canonical = true) : (v.appendTo key x).canonical = true := by
  have hone : (Json.array [x]).canonical = true := by
    simpa [canonical, canonicalElements] using hx
  cases v with
  | object ms =>
    simp only [appendTo]
    split
    · rename_i xs hlookup
      have hxs : canonicalElements xs = true := canonical_of_lookup hv hlookup
      exact canonical_insertMember hv (canonicalElements_concat.mpr ⟨hxs, hx⟩)
    · exact canonical_insertMember hv hone
  | _ => simpa [appendTo, canonical, canonicalMembers, KeysSorted] using hone

theorem foldl_appendTo_array {α : Type} (f : α → Json) (key : StdString) (ms : Members)
    (ys : List Json) (xs : List α) :
    xs.foldl (fun (res : Json) x => res.appendTo key (f x))
        (.object (insertMember key (.array ys) ms)) =
      .object (insertMember key (.array (ys ++ xs.map f)) ms) := by
  induction xs generalizing ys with
  | nil => simp
  | cons x xs ih =>
    have hstep : (Json.object (insertMember key (.array ys) ms)).appendTo key (f x) =
        .object (insertMember key (.array (ys ++ [f x])) ms) := by
      simp [appendTo, insertMember_insertMember]
    rw [List.foldl_cons, hstep, ih]
    simp

/-- Values appended to an absent member make it their array. -/
theorem foldl_appendTo {α : Type} (f : α → Json) {key : StdString} {ms : Members}
    (h : ms.lookup key = none) {xs : List α} (hxs : xs ≠ []) :
    xs.foldl (fun (res : Json) x => res.appendTo key (f x)) (.object ms) =
      .object (insertMember key (.array (xs.map f)) ms) := by
  cases xs with
  | nil => exact absurd rfl hxs
  | cons x xs =>
    have hstep : (Json.object ms).appendTo key (f x) =
        .object (insertMember key (.array [f x]) ms) := by
      simp [appendTo, h]
    rw [List.foldl_cons, hstep, foldl_appendTo_array]
    rfl

end Json

namespace Sm4ns3

structure Jsoncpp where
  /-- `Json::Reader::parse` -/
  parse : StdString → Option Json
  /-- `Json::valueToString(Int)` -/
  valueToStringInt : Int → StdString
  /-- `Json::valueToString(UInt)` -/
  valueToStringUInt : Nat → StdString
  /-- `Json::valueToString(double)` -/
  valueToStringDouble : Double → StdString
  /-- `Json::valueToQuotedString` -/
  valueToQuotedString : StdString → StdString
  /-- `asString` of a value that is no string -/
  coerceString : Json → Option StdString
  /-- `asBool` of a value that is no boolean -/
  coerceBool : Json → Option Bool
  /-- `asDouble` of a value that is no double -/
  coerceDouble : Json → Option Double

namespace Jsoncpp

/-- What the library promises; `num` decodes its number tokens. -/
structure Reads (J : Jsoncpp) (num : StdString → Option Json) : Prop where
  parse : ∀ {v t}, Json.canonical v = true → Json.Text num v t → J.parse t = some v
  int : ∀ {i}, Json.canonical (.int i) = true → Json.Number num (.int i) (J.valueToStringInt i)
  uint : ∀ {n}, Json.canonical (.uint n) = true → Json.Number num (.uint n) (J.valueToStringUInt n)
  double : ∀ {d}, Json.canonical (.real d) = true →
    Json.Number num (.real d) (J.valueToStringDouble d)
  quoted : ∀ {s}, 0 ∉ s → Json.Quoted s (J.valueToQuotedString s)

/-! ## Conversions -/

section Conversions

variable (J : Jsoncpp)

/-- `value.asInt()` of a signed integer -/
def asInt (i : Int) : Except Fault Int :=
  if -2 ^ 31 ≤ i ∧ i < 2 ^ 31 then .ok i
  else .error (.exception "LargestInt out of Int range")

/-- `value.asUInt()` of an unsigned integer -/
def asUInt (n : Nat) : Except Fault Nat :=
  if n < 2 ^ 32 then .ok n else .error (.exception "LargestUInt out of UInt range")

/-- `value.asString()` -/
def asString : Json → Except Fault StdString
  | .string s => .ok s
  | v =>
    match J.coerceString v with
    | some s => .ok s
    | none => .error (.exception "Type is not convertible to string")

/-- `value.asBool()` -/
def asBool : Json → Except Fault Bool
  | .boolean b => .ok b
  | v =>
    match J.coerceBool v with
    | some b => .ok b
    | none => .error (.exception "Type is not convertible to bool")

/-- `value.asDouble()` -/
def asDouble : Json → Except Fault Double
  | .real d => .ok d
  | v =>
    match J.coerceDouble v with
    | some d => .ok d
    | none => .error (.exception "Type is not convertible to double")

@[simp] theorem asString_string (s : StdString) : J.asString (.string s) = .ok s := rfl

@[simp] theorem asBool_boolean (b : Bool) : J.asBool (.boolean b) = .ok b := rfl

@[simp] theorem asDouble_real (d : Double) : J.asDouble (.real d) = .ok d := rfl

end Conversions

/-! ## A reference instance -/

/-- A double is spelled by its bit pattern with a point: `0.0` for positive
zero, as the library does. -/
def renderReal (d : Double) : StdString := Json.renderUInt d.bits.toNat ++ [46, 48]

def decodeReal (tok : StdString) : Option Double :=
  if tok.drop (tok.length - 2) = [46, 48] then
    some ⟨UInt64.ofNat (Json.decimalValue (tok.take (tok.length - 2)))⟩
  else none

def reference : Jsoncpp where
  parse := Json.parse (Json.decodeNumber decodeReal)
  valueToStringInt := Json.renderInt
  valueToStringUInt := Json.renderUInt
  valueToStringDouble := renderReal
  valueToQuotedString := Json.quote
  coerceString
    | .null => some []
    | _ => none
  coerceBool _ := none
  coerceDouble _ := none

theorem number_renderReal (d : Double) :
    Json.Number (Json.decodeNumber decodeReal) (.real d) (renderReal d) := by
  have hdigits : ∀ c ∈ Json.renderUInt d.bits.toNat, Json.isDigit c = true := Json.isDigit_decimal _
  refine ⟨by simp [renderReal], ?_, ?_⟩
  · intro c hc
    rcases List.mem_append.mp hc with h | h
    · exact Json.isNumberChar_of_isDigit (hdigits c h)
    · rcases List.mem_cons.mp h with rfl | h
      · decide
      · obtain rfl := List.mem_singleton.mp h
        decide
  · have hpoint :
        (renderReal d).any (fun c => c == 46 || c == 101 || c == 69 || c == 43) = true := by
      simp [renderReal]
    have hvalue : decodeReal (renderReal d) = some d := by
      simp [decodeReal, renderReal, Json.renderUInt, Json.decimalValue_decimal]
    simp [Json.decodeNumber, hpoint, hvalue]

theorem reference_reads : reference.Reads (Json.decodeNumber decodeReal) where
  parse := Json.parse_text
  int := Json.number_renderInt decodeReal
  uint := Json.number_renderUInt decodeReal
  double := fun _ => number_renderReal _
  quoted := fun _ => Json.quoted_quote _

end Jsoncpp
end Sm4ns3
