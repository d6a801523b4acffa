import Sm4ns3.Network.Session

/-!
# The connection to Sim Mobility
-/

namespace Sm4ns3

open Cpp Call

structure Connection where
  m_session : Option Session := none
  incomingHeader : BundleHeader := {}
  incomingMessage : StdString := []
  /-- history: the bundles written so far -/
  sent : List (BundleHeader × StdString) := []
  deriving DecidableEq, Repr

namespace Connection

/-- A call through `m_session`, which is null before `connect`. -/
def session {α : Type} (x : Call Session α) : Call Connection α := fun c =>
  match c.m_session with
  | none => .error (.undefined .nullPointer) c
  | some s =>
    match x s with
    | .ok a s => .ok a { c with m_session := some s }
    | .error e s => .error e { c with m_session := some s }

/-- One attempt; whether the host is known and whether it answers is up to the network. -/
def connect (resolved connected : Bool) : Call Connection Bool := do
  modify fun c => { c with m_session := some (c.m_session.getD {}) }
  raiseIf (!resolved) "Couldn't resolve server."
  session (modify fun s => { s with is_open := s.is_open || connected })
  return connected

def isOpen : Call Connection Bool := session do
  return (← get).isOpen

def receive : Call Connection (Option (BundleHeader × StdString)) := session Session.read

def async_receive : Call Connection Unit := do
  let is_open ← isOpen
  raiseIf (!is_open) "Connection is down, reading will Fail"
  modify fun c => { c with incomingMessage := [] }
  session Session.async_read

def send (header : BundleHeader) (text : StdString) : Call Connection Bool := do
  let written ← session (Session.write header text)
  if written then
    modify fun c => { c with sent := c.sent ++ [(header, text)] }
  return written

theorem session_eq_ok {α : Type} {x : Call Session α} {c c' : Connection} {a : α}
    (h : session x c = .ok a c') :
    ∃ s s', c.m_session = some s ∧ x s = .ok a s' ∧ c' = { c with m_session := some s' } := by
  cases hs : c.m_session with
  | none =>
    rw [session, hs] at h
    cases h
  | some s =>
    rw [session, hs] at h
    cases hx : x s with
    | error e s' =>
      simp only [hx] at h
      cases h
    | ok r s' =>
      simp only [hx] at h
      cases h
      exact ⟨s, s', rfl, hx, rfl⟩

/-- The session exists and its socket is open. -/
def Open (c : Connection) : Prop := ∃ s, c.m_session = some s ∧ s.is_open = true

theorem isOpen_of_open {c : Connection} (h : c.Open) : isOpen c = .ok true c := by
  obtain ⟨s, hs, hopen⟩ := h
  obtain ⟨m_session, incomingHeader, incomingMessage, sent⟩ := c
  cases hs
  simp [isOpen, session, Session.isOpen, hopen]

/-- Asking changes nothing. -/
theorem isOpen_eq_ok {c c' : Connection} {b : Bool} (h : isOpen c = .ok b c') :
    c' = c ∧ (b = true → c.Open) := by
  obtain ⟨m_session, incomingHeader, incomingMessage, sent⟩ := c
  cases m_session with
  | none => cases h
  | some s =>
    cases h
    exact ⟨rfl, fun hb => ⟨s, rfl, hb⟩⟩

/-- Writing leaves the socket as it was, and needs it open. -/
theorem write_eq_ok {s s' : Session} {header : BundleHeader} {text : StdString} {b : Bool}
    (h : Session.write header text s = .ok b s') :
    s.is_open = true ∧ s' = { s with
      outbound_header_ := BundleParser.make_bundle_header_v1 header
      output := s.output ++ (BundleParser.make_bundle_header_v1 header ++ text) } := by
  simp only [Session.write, modify_bind_apply, BundleParser.make_bundle_header, NEW_BUNDLES,
    if_true] at h
  rw [if_neg (by simp [BundleParser.make_bundle_header_v1]), get_bind_apply, raiseIf_bind_eq_ok,
    set_bind_apply] at h
  cases h.2
  exact ⟨by simpa using h.1, rfl⟩

theorem send_eq_ok {c c' : Connection} {header : BundleHeader} {text : StdString} {b : Bool}
    (h : send header text c = .ok b c') : c.Open ∧ c'.Open := by
  obtain ⟨written, t, hwrite, h⟩ := bind_eq_ok h
  obtain ⟨s, s', hs, hsession, rfl⟩ := session_eq_ok hwrite
  obtain ⟨hopen, rfl⟩ := write_eq_ok hsession
  refine ⟨⟨s, hs, hopen⟩, ?_⟩
  cases written with
  | false =>
    cases h
    exact ⟨_, rfl, hopen⟩
  | true =>
    cases h
    exact ⟨_, rfl, hopen⟩

end Connection
end Sm4ns3
