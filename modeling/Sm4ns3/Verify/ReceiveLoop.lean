import Sm4ns3.Verify.BrokerSteps

/-!
# The receive loop

asio completes the pending read and calls `readHandler` with its outcome.
`alive_deliver_iff`: the loop survives a completion exactly when it reports no
error, so a sequence of completions keeps it alive exactly when none does.
-/

namespace Sm4ns3.Broker

open Bytes Cpp Call

/-- The outcome of an asynchronous read, with what it wrote to `incomingHeader` and
`incomingMessage`. -/
structure Completion where
  error : ErrorCode
  header : Option BundleHeader
  message : Option StdString
  deriving DecidableEq, Repr

/-- The read is no longer pending, and what it read is in place. -/
def complete (c : Completion) (conn : Connection) : Connection :=
  { conn with
    m_session := conn.m_session.map fun s => { s with pending := s.pending.tail }
    incomingHeader := c.header.getD conn.incomingHeader
    incomingMessage := c.message.getD conn.incomingMessage }

/-- asio delivers a completion. -/
def deliver (J : Jsoncpp) (c : Completion) : Call Broker Unit := do
  modify fun b => { b with conn := complete c b.conn }
  readHandler J c.error

/-- A read that reports success has read a bundle that `deserialize` returns on. -/
def Decodable (J : Jsoncpp) (c : Completion) : Prop :=
  c.error = .success → ∃ h t r conglom, c.header = some h ∧ c.message = some t ∧
    JsonParser.deserialize J NEW_BUNDLES h t {} = .ok r conglom

/-- The socket is open and one read is pending. -/
def Receiving (conn : Connection) : Prop :=
  ∃ s, conn.m_session = some s ∧ s.is_open = true ∧ s.pending.length = 1

/-- The socket is closed. -/
def Closed (conn : Connection) : Prop := ∃ s, conn.m_session = some s ∧ s.is_open = false

/-- The loop goes on, or has ended in a way that `pause` notices. -/
def Alive (b : Broker) : Prop := Receiving b.conn ∨ (Closed b.conn ∧ b.m_pause = false)

/-- Each completion of the sequence is handled without an exception and leaves the
loop alive. -/
def KeepsAlive (J : Jsoncpp) : Broker → List Completion → Prop
  | _, [] => True
  | b, c :: cs => ∃ b', deliver J c b = .ok () b' ∧ b'.Alive ∧ KeepsAlive J b' cs

section Deliver

variable {J : Jsoncpp} {b : Broker} {c : Completion}

/-- A new read on an open socket. -/
theorem async_receive_open {conn : Connection} {s : Session} (hs : conn.m_session = some s)
    (hopen : s.is_open = true) (hpending : s.pending = []) :
    ∃ conn', Connection.async_receive conn = .ok () conn' ∧ Receiving conn' := by
  unfold Connection.async_receive
  rw [bind_ok (Connection.isOpen_of_open ⟨s, hs, hopen⟩)]
  refine ⟨{ conn with incomingMessage := [], m_session := some { s with pending := [.header] } },
    ?_, _, rfl, hopen, rfl⟩
  simp [Connection.session, hs, Session.async_read, hpending]

theorem pending_nil {s : Session} (h : s.pending.length = 1) : s.pending.tail = [] := by
  rw [← List.length_eq_zero_iff, List.length_tail, h]

/-- Without an error the bundle is handled and the next read started. -/
theorem readHandler_success :
    readHandler J .success b =
      (onMessageReceived J b.conn.incomingHeader b.conn.incomingMessage >>= fun _ =>
        onConn Connection.async_receive) b := by
  simp [readHandler]

/-- At the end of the stream the socket is closed first. -/
theorem readHandler_eof {e : ErrorCode} (he : e ≠ .success) (heof : e.message = "End of file") :
    readHandler J e b =
      (onConn (Connection.session (modify Session.closeSocket)) >>= fun _ => do
        let conn := (← get).conn
        onMessageReceived J conn.incomingHeader conn.incomingMessage
        onConn Connection.async_receive) b := by
  simp [readHandler, he, heof]

/-- A successful completion is followed by the next read. -/
theorem deliver_success (hb : Receiving b.conn) (hc : c.error = .success) (hd : Decodable J c) :
    ∃ b', deliver J c b = .ok () b' ∧ Receiving b'.conn := by
  obtain ⟨s, hs, hopen, hpending⟩ := hb
  obtain ⟨h, t, r, conglom, hh, ht, hrun⟩ := hd hc
  have hsession : (complete c b.conn).m_session = some { s with pending := s.pending.tail } := by
    simp [complete, hs]
  have hheader : (complete c b.conn).incomingHeader = h := by simp [complete, hh]
  have hmessage : (complete c b.conn).incomingMessage = t := by simp [complete, ht]
  obtain ⟨conn', hrecv, hok⟩ := async_receive_open hsession hopen (pending_nil hpending)
  have hreceived := onMessageReceived_ok { b with conn := complete c b.conn } hrun
  refine ⟨{ received { b with conn := complete c b.conn } (accepted J h t) with conn := conn' },
    ?_, hok⟩
  rw [deliver, modify_bind_apply, hc, readHandler_success, hheader, hmessage, bind_ok hreceived]
  exact zoom_ok hrecv

/-- After an end of file the socket is closed, and reading on throws. -/
theorem deliver_eof (hc : c.error ≠ .success) (heof : c.error.message = "End of file")
    (u : Unit) (b' : Broker) : deliver J c b ≠ .ok u b' := by
  intro h
  rw [deliver, modify_bind_apply, readHandler_eof hc heof] at h
  obtain ⟨_, b₁, hclose, h⟩ := bind_eq_ok h
  obtain ⟨conn₁, hsession, rfl⟩ := zoom_eq_ok hclose
  rw [get_bind_apply] at h
  obtain ⟨_, b₂, hreceived, h⟩ := bind_eq_ok h
  obtain ⟨conn₃, hrecv, rfl⟩ := zoom_eq_ok h
  rw [onMessageReceived_conn hreceived] at hrecv
  obtain ⟨is_open, conn₄, hopen, hrecv⟩ := bind_eq_ok hrecv
  rw [raiseIf_bind_eq_ok] at hrecv
  obtain ⟨s, hs, hopen⟩ := (Connection.isOpen_eq_ok hopen).2 (by simpa using hrecv.1)
  obtain ⟨s₁, s₂, hs₁, hmodify, rfl⟩ := Connection.session_eq_ok hsession
  cases hmodify
  cases hs
  cases hopen

/-- After any other error nothing happens: the socket stays open without a read. -/
theorem deliver_other (hb : Receiving b.conn) (hc : c.error ≠ .success)
    (hother : c.error.message ≠ "End of file") :
    ∃ b', deliver J c b = .ok () b' ∧ ¬ b'.Alive := by
  obtain ⟨s, hs, hopen, hpending⟩ := hb
  have hnil := pending_nil hpending
  refine ⟨{ b with conn := complete c b.conn }, ?_, ?_⟩
  · unfold deliver readHandler
    rw [modify_bind_apply, if_pos (by simp [hc, hother])]
    rfl
  · rintro (⟨s', hs', -, hpending'⟩ | ⟨⟨s', hs', hclosed⟩, -⟩)
    · simp only [complete, hs, Option.map_some, Option.some.injEq] at hs'
      subst hs'
      simp [hnil] at hpending'
    · simp only [complete, hs, Option.map_some, Option.some.injEq] at hs'
      subst hs'
      rw [hopen] at hclosed
      cases hclosed

/-- The loop survives a completion exactly when it reports no error. -/
theorem alive_deliver_iff (hb : Receiving b.conn) (hd : Decodable J c) :
    (∃ b', deliver J c b = .ok () b' ∧ b'.Alive) ↔ c.error = .success := by
  constructor
  · rintro ⟨b', hrun, halive⟩
    by_contra hc
    by_cases heof : c.error.message = "End of file"
    · exact deliver_eof hc heof () b' hrun
    · obtain ⟨b₁, hrun₁, hdead⟩ := deliver_other hb hc heof
      rw [hrun] at hrun₁
      cases hrun₁
      exact hdead halive
  · intro hc
    obtain ⟨b', hrun, hrecv⟩ := deliver_success hb hc hd
    exact ⟨b', hrun, .inl hrecv⟩

end Deliver

/-- From an open socket with one read pending, a sequence of completions is
handled without an exception and never ends the loop unnoticed exactly when each
of them reports success. -/
theorem receive_loop_alive_iff (J : Jsoncpp) (b : Broker) (cs : List Completion)
    (hb : Receiving b.conn) (hcs : ∀ c ∈ cs, Decodable J c) :
    KeepsAlive J b cs ↔ ∀ c ∈ cs, c.error = .success := by
  induction cs generalizing b with
  | nil => simp [KeepsAlive]
  | cons c cs ih =>
    have hd : Decodable J c := hcs c List.mem_cons_self
    have hrest : ∀ d ∈ cs, Decodable J d := fun d hmem => hcs d (List.mem_cons_of_mem c hmem)
    rw [List.forall_mem_cons]
    constructor
    · rintro ⟨b', hrun, halive, hkeeps⟩
      have hc : c.error = .success := (alive_deliver_iff hb hd).mp ⟨b', hrun, halive⟩
      obtain ⟨b₁, hrun₁, hrecv⟩ := deliver_success hb hc hd
      rw [hrun] at hrun₁
      cases hrun₁
      exact ⟨hc, (ih b' hrecv hrest).mp hkeeps⟩
    · rintro ⟨hc, herrors⟩
      obtain ⟨b', hrun, hrecv⟩ := deliver_success hb hc hd
      exact ⟨b', hrun, .inl hrecv, (ih b' hrecv hrest).mpr herrors⟩

/-- A broker whose connection waits for a bundle. -/
def waiting : Broker :=
  { make with conn := { m_session := some { is_open := true, pending := [.header] } } }

theorem waiting_receiving : Receiving waiting.conn := ⟨_, rfl, rfl, rfl⟩

/-- A read that got a bundle with a tick. -/
def tickRead : Completion where
  error := .success
  header := some { messageCount := 1, remLen := 31 }
  message := some ([0, 0, 28] ++ str "\x7b\"msg_type\":\"ticked_simmob\"\x7d")

/-- The peer closed the connection. -/
def endOfFile : Completion := { error := .eof, header := none, message := none }

/-- A header with a body length of zero. -/
def zeroRemLen : Completion := { error := .invalid_argument, header := some {}, message := none }

theorem tickRead_decodable : Decodable Jsoncpp.reference tickRead := by
  intro _
  have hrun : value (JsonParser.deserialize Jsoncpp.reference NEW_BUNDLES
      { messageCount := 1, remLen := 31 }
      ([0, 0, 28] ++ str "\x7b\"msg_type\":\"ticked_simmob\"\x7d") {}) = some true := by
    decide +kernel
  exact ⟨_, _, true, _, rfl, rfl, eq_ok_of_value hrun⟩

theorem receive_loop_alive_iff_two :
    KeepsAlive Jsoncpp.reference waiting [tickRead, tickRead] := by
  have htick : ∀ c ∈ [tickRead, tickRead], c = tickRead := by simp
  refine (receive_loop_alive_iff Jsoncpp.reference waiting _ waiting_receiving fun c hc => ?_).mpr
    fun c hc => ?_
  · exact htick c hc ▸ tickRead_decodable
  · exact congrArg Completion.error (htick c hc)

/-- Both kinds of error end the loop: an end of file with an exception, and a
body length of zero with an open socket on which no read is pending. -/
theorem receive_loop_dead_ends :
    (¬ KeepsAlive Jsoncpp.reference waiting [endOfFile] ∧
      ∃ b', deliver Jsoncpp.reference endOfFile waiting =
        .error (.exception "Connection is down, reading will Fail") b') ∧
    ¬ KeepsAlive Jsoncpp.reference waiting [zeroRemLen] ∧
      ∃ b', deliver Jsoncpp.reference zeroRemLen waiting = .ok () b' ∧
        b'.conn.m_session = some { is_open := true, pending := [] } ∧ b'.m_pause = true := by
  have heof : ∃ b', deliver Jsoncpp.reference endOfFile waiting =
      .error (.exception "Connection is down, reading will Fail") b' := ⟨_, rfl⟩
  have hzero : ∃ b', deliver Jsoncpp.reference zeroRemLen waiting = .ok () b' ∧
      b'.conn.m_session = some { is_open := true, pending := [] } ∧ b'.m_pause = true :=
    ⟨_, rfl, rfl, rfl⟩
  refine ⟨⟨?_, heof⟩, ?_, hzero⟩
  · rintro ⟨b', hrun, -⟩
    obtain ⟨b₁, hrun₁⟩ := heof
    rw [hrun₁] at hrun
    cases hrun
  · rintro ⟨b', hrun, halive, -⟩
    obtain ⟨b₁, hrun₁, hsession, hpause⟩ := hzero
    rw [hrun₁] at hrun
    cases hrun
    rcases halive with ⟨s, hs, -, hpending⟩ | ⟨⟨s, hs, hopen⟩, -⟩
    · rw [hsession] at hs
      cases hs
      cases hpending
    · rw [hsession] at hs
      cases hs
      cases hopen

end Sm4ns3.Broker
