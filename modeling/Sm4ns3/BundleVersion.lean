import Sm4ns3.Lib.Bytes
import Sm4ns3.Lib.Call
import Mathlib.Data.Nat.Digits.Defs

/-!
# Bundle headers

Every bundle starts with a header of eight octets: the version, three one-octet
counts and a 32-bit length in version 1, the length as right-justified
hexadecimal text in version 0. `NEW_BUNDLES` selects the version in the
program; the functions here that depend on it take it as an argument.
-/

namespace Sm4ns3

open Bytes Cpp

/-- `std::string`. -/
abbrev StdString := List UInt8

/-- Conversion to `int`: two's complement, as on the platforms ns-3 runs on. -/
@[irreducible] def toInt (n : Int) : Int := Int.bmod n (2 ^ 32)

/-- Whether new bundles are in use. -/
def NEW_BUNDLES : Bool := true

/-- Whether binary messages are preferred. -/
def PREFER_BINARY_MESSAGES : Bool := false

def header_length : Nat := 8

structure BundleHeader where
  sendIdLen : Int := 0
  destIdLen : Int := 0
  messageCount : Int := 0
  remLen : UInt32 := 0
  deriving DecidableEq, Repr

structure VaryHeader where
  sendId : StdString := []
  destId : StdString := []
  msgLengths : List UInt32 := []
  deriving DecidableEq, Repr

namespace BundleParser

/-! ## Version 1 -/

def make_bundle_header_v1 (header : BundleHeader) : StdString :=
  [ 1
  , UInt8.ofInt header.sendIdLen
  , UInt8.ofInt header.destIdLen
  , UInt8.ofInt header.messageCount
  , (header.remLen >>> 24).toUInt8
  , (header.remLen >>> 16).toUInt8
  , (header.remLen >>> 8).toUInt8
  , header.remLen.toUInt8 ]

/-- The callers pass exactly `header_length` octets; on a shorter string the
function reads out of range. -/
def read_bundle_header_v1 : StdString → Except Fault BundleHeader
  | version :: sendIdLen :: destIdLen :: messageCount :: a :: b :: c :: d :: _ =>
    if version ≠ 1 then .error (.exception "Invalid header version.")
    else .ok
      { sendIdLen := sendIdLen.toNat
        destIdLen := destIdLen.toNat
        messageCount := messageCount.toNat
        -- the octets are shifted as `int`s and the sum becomes unsigned: the same 32 bits
        remLen := be32 a b c d }
  | _ => .error (.undefined .outOfRange)

/-! ## Version 0 -/

/-- `std::hex << n`. -/
def hex (n : Nat) : StdString :=
  if n = 0 then [48] else (Nat.digits 16 n).reverse.map (hexDigit false)

/-- `std::setw(header_length) << std::hex << remLen`; the text is right-justified. -/
def make_bundle_header_v0 (header : BundleHeader) : StdString :=
  let digits := hex header.remLen.toNat
  let text := List.replicate (header_length - digits.length) 32 ++ digits
  if text.length ≠ header_length then [] else text

/-- The digits at the head of the text and the number they spell. -/
def hexPrefix : StdString → Nat → Nat → Nat × Nat
  | [], count, n => (count, n)
  | c :: s, count, n =>
    match hexValue c with
    | some d => hexPrefix s (count + 1) (n * 16 + d)
    | none => (count, n)

/-- `is >> std::hex >> remLen`: white space, a sign and `0x` may come first; no
digits and a number out of range both fail. -/
def extractHex (s : StdString) : Option UInt32 :=
  let s := s.dropWhile fun c => c == 32 || (9 ≤ c && c ≤ 13)
  let (negative, s) := match s with
    | 45 :: s => (true, s)
    | 43 :: s => (false, s)
    | s => (false, s)
  let s := match s with
    | 48 :: 120 :: s => s
    | 48 :: 88 :: s => s
    | s => s
  let (count, n) := hexPrefix s 0 0
  if count = 0 ∨ 2 ^ 32 ≤ n then none
  else some (if negative then 0 - UInt32.ofNat n else UInt32.ofNat n)

def read_bundle_header_v0 (header : StdString) : BundleHeader :=
  { remLen := (extractHex header).getD 0 }

/-! ## Either version -/

def make_bundle_header (newBundles : Bool) (header : BundleHeader) : StdString :=
  if newBundles then make_bundle_header_v1 header else make_bundle_header_v0 header

def read_bundle_header (newBundles : Bool) (header : StdString) : Except Fault BundleHeader :=
  if newBundles then read_bundle_header_v1 header else .ok (read_bundle_header_v0 header)

end BundleParser

/-! ## The version 1 codec -/

/-- The counts of the header fit the octets they are written to. -/
structure BundleHeader.Fits (header : BundleHeader) : Prop where
  sendIdLen : 0 ≤ header.sendIdLen ∧ header.sendIdLen ≤ 255
  destIdLen : 0 ≤ header.destIdLen ∧ header.destIdLen ≤ 255
  messageCount : 0 ≤ header.messageCount ∧ header.messageCount ≤ 255

theorem toNat_ofInt {n : Int} (h : 0 ≤ n ∧ n ≤ 255) : ((UInt8.ofInt n).toNat : Int) = n := by
  obtain ⟨k, rfl⟩ := Int.eq_ofNat_of_zero_le h.1
  have hk : k < 256 := by omega
  simp [UInt8.ofInt, UInt8.toNat_ofNat']
  omega

namespace BundleParser

@[simp] theorem length_make_bundle_header_v1 (header : BundleHeader) :
    (make_bundle_header_v1 header).length = header_length := rfl

/-- The header that is read when this one was written: each count is one octet. -/
def narrowed (header : BundleHeader) : BundleHeader :=
  { sendIdLen := (UInt8.ofInt header.sendIdLen).toNat
    destIdLen := (UInt8.ofInt header.destIdLen).toNat
    messageCount := (UInt8.ofInt header.messageCount).toNat
    remLen := header.remLen }

theorem read_make (header : BundleHeader) :
    read_bundle_header_v1 (make_bundle_header_v1 header) = .ok (narrowed header) := by
  simp only [make_bundle_header_v1, read_bundle_header_v1, ne_eq, not_true_eq_false, if_false,
    be32_octets, narrowed]

/-- A header whose counts fit their octets is read back. -/
theorem read_make_v1 {header : BundleHeader} (h : header.Fits) :
    read_bundle_header_v1 (make_bundle_header_v1 header) = .ok header := by
  rw [read_make, narrowed, toNat_ofInt h.sendIdLen, toNat_ofInt h.destIdLen,
    toNat_ofInt h.messageCount]

end BundleParser
end Sm4ns3
