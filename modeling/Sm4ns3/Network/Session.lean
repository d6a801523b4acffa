import Sm4ns3.BundleVersion

/-!
# Sessions

A session reads and writes bundles on a socket: a header of eight octets, then
the body it announces. The socket is two byte streams: what was written to it,
and what the peer sent and was not read yet. A read of `n` octets takes the next
`n`, or fails at the end of the stream; an asynchronous one is under way
(`pending`) until it completes.
-/

namespace Sm4ns3

open Bytes Cpp Call

/-- `boost::system::error_code` -/
inductive ErrorCode where
  | success
  | eof
  | invalid_argument
  | other (text : String)
  deriving DecidableEq, Repr

def ErrorCode.message : ErrorCode → String
  | .success => "Success"
  | .eof => "End of file"
  | .invalid_argument => "Invalid argument"
  | .other text => text

/-- What an asynchronous read under way reads. -/
inductive AsyncRead where
  | header
  | data
  deriving DecidableEq, Repr

structure Session where
  is_open : Bool := false
  output : StdString := []
  input : StdString := []
  pending : List AsyncRead := []
  outbound_header_ : StdString := []
  inbound_header_ : StdString := []
  inbound_data_ : StdString := []
  deriving DecidableEq, Repr

/-- What a completion handler of the session did: it started to read the body
announced by a header, or called the user's handler, with the header and body
it had read till then. -/
inductive Progress where
  | reading (h : BundleHeader)
  | called (e : ErrorCode) (h : Option BundleHeader) (t : Option StdString)
  deriving DecidableEq, Repr

namespace Session

def isOpen (s : Session) : Bool := s.is_open

def closeSocket (s : Session) : Session := { s with is_open := false }

/-- `boost::asio::read` of `n` octets. -/
def readExactly (n : Nat) : Call Session (Except ErrorCode StdString) := do
  let s ← get
  if n ≤ s.input.length then
    set { s with input := s.input.drop n }
    return .ok (s.input.take n)
  else
    set { s with input := [] }
    return .error .eof

/-- `std::vector<char>::resize` -/
def resize (data : StdString) (n : Nat) : StdString :=
  data.take n ++ List.replicate (n - data.length) 0

/-! ## Synchronous reads and writes -/

def write (header : BundleHeader) (t : StdString) : Call Session Bool := do
  let outbound_header_ := BundleParser.make_bundle_header NEW_BUNDLES header
  modify fun s => { s with outbound_header_ := outbound_header_ }
  if outbound_header_.isEmpty then
    return false
  else
    let s ← get
    raiseIf (!s.is_open) "write: Bad file descriptor"
    set { s with output := s.output ++ (outbound_header_ ++ t) }
    return toInt (outbound_header_ ++ t).length ≠ 0

/-- `none` stands for the result `false`; the callers then use neither argument. -/
def read : Call Session (Option (BundleHeader × StdString)) := do
  match ← readExactly header_length with
  | .error _ => return none
  | .ok inbound_header_ =>
    modify fun s => { s with inbound_header_ := inbound_header_ }
    let h ← eval (BundleParser.read_bundle_header NEW_BUNDLES inbound_header_)
    if h.remLen = 0 then
      return none
    else
      match ← readExactly h.remLen.toNat with
      | .error _ => return none
      | .ok t =>
        modify fun s => { s with inbound_data_ := t }
        return if t.isEmpty then none else some (h, t)

/-! ## Asynchronous reads -/

/-- Start to read a header; the handler is called when the bundle has been read. -/
def async_read : Call Session Unit :=
  modify fun s => { s with pending := s.pending ++ [.header] }

def handle_read_header (e : ErrorCode) : Call Session Progress := do
  if e ≠ .success then
    return .called e none none
  else
    let h ← eval (BundleParser.read_bundle_header NEW_BUNDLES (← get).inbound_header_)
    if h.remLen = 0 then
      return .called .invalid_argument (some h) none
    else
      modify fun s => { s with
        inbound_data_ := resize s.inbound_data_ h.remLen.toNat
        pending := s.pending ++ [.data] }
      return .reading h

def handle_read_data (e : ErrorCode) : Call Session Progress := do
  if e ≠ .success then
    return .called e none none
  else
    return .called .success none (some (← get).inbound_data_)

/-- The pending read of a header completes. -/
def completeHeader : Call Session Progress := do
  modify fun s => { s with pending := s.pending.erase .header }
  match ← readExactly header_length with
  | .error e => handle_read_header e
  | .ok octets =>
    modify fun s => { s with inbound_header_ := octets }
    handle_read_header .success

/-- The pending read of a body completes. -/
def completeData : Call Session Progress := do
  modify fun s => { s with pending := s.pending.erase .data }
  match ← readExactly (← get).inbound_data_.length with
  | .error e => handle_read_data e
  | .ok octets =>
    modify fun s => { s with inbound_data_ := octets }
    handle_read_data .success

end Session
end Sm4ns3
