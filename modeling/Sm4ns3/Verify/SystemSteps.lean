import Sm4ns3.Lib.SelfDelimiting
import Sm4ns3.System
import Sm4ns3.Verify.Decoder
import Sm4ns3.Verify.Dispatch
import Sm4ns3.Verify.Framing
import Sm4ns3.Verify.Headers
import Sm4ns3.Verify.Outgoing
import Sm4ns3.Verify.ReceiveLoop

/-!
# What a step of the system does

`Link` is the state of the connection between two steps: what has been read of the
next bundle, and what is awaited. `completeRead_cases` says of a read that completes
that it takes octets from the stream and either goes on or ends a bundle; when it calls
`readHandler` it is a completion of the receive loop (`completeRead_called`).
`receivePackets_eq_ok` says what a delivery appends, and `round_eq_some` what a round does.
-/

namespace Sm4ns3

open Bytes Cpp Call

/-! ## Frames -/

namespace BundleParser

/-- The octets of a header that was read. -/
theorem make_of_read {octets : StdString} {header : BundleHeader}
    (hlen : octets.length = header_length) (h : read_bundle_header_v1 octets = .ok header) :
    make_bundle_header_v1 header = octets := by
  have hversion : octets.head? = some 1 := by
    obtain ⟨version, i, j, k, a, b, c, d, rfl⟩ := exists_octets hlen
    simp only [read_bundle_header_v1] at h
    split at h
    · cases h
    · rename_i hversion
      exact congrArg some (Decidable.not_not.mp hversion)
  have hback := make_read_v1 hlen hversion
  rw [h] at hback
  exact Except.ok.inj hback

/-- A header is known from its octets. -/
theorem header_of_octets {header header' : BundleHeader} (hfits : header.Fits)
    (hfits' : header'.Fits) (h : make_bundle_header_v1 header = make_bundle_header_v1 header') :
    header = header' := by
  have hread := read_make_v1 hfits
  rw [h, read_make_v1 hfits'] at hread
  exact (Except.ok.inj hread).symm

/-- The octets of a header tell whether it announces a body. -/
theorem remLen_ne_of_octets {header header' : BundleHeader} (hne : header'.remLen ≠ 0)
    (h : make_bundle_header_v1 header = make_bundle_header_v1 header') : header.remLen ≠ 0 := by
  have hread := read_make header
  rw [h, read_make] at hread
  have hsame : (narrowed header').remLen = (narrowed header).remLen :=
    congrArg BundleHeader.remLen (Except.ok.inj hread)
  simp only [narrowed] at hsame
  rwa [← hsame]

end BundleParser

namespace Session

/-- A bundle is known from the head of the stream. -/
theorem frame_selfDelimiting : SelfDelimiting frame Framed where
  head := by
    intro x y r r' hx hy heq
    rw [frame, frame, List.append_assoc, List.append_assoc] at heq
    obtain ⟨hhead, hrest⟩ := List.append_inj heq rfl
    have hheader := BundleParser.header_of_octets hx.fits hy.fits hhead
    have hlen : x.2.length = y.2.length := by
      rw [← hx.length, ← hy.length, hheader]
    exact Prod.ext hheader (List.append_inj hrest hlen).1
  nonempty := by
    intro x _ hnil
    cases (List.append_eq_nil_iff.mp hnil).1

/-- A read has its octets, or the stream ends. -/
theorem readExactly_cases (n : Nat) (s : Session) :
    readExactly n s = .ok (.error .eof) { s with input := [] } ∨
    ∃ octets rest, octets.length = n ∧ s.input = octets ++ rest ∧
      readExactly n s = .ok (.ok octets) { s with input := rest } := by
  simp only [readExactly, get_bind_apply]
  by_cases hn : n ≤ s.input.length
  · right
    rw [if_pos hn]
    exact ⟨s.input.take n, s.input.drop n, List.length_take_of_le hn,
      (List.take_append_drop n s.input).symm, rfl⟩
  · left
    rw [if_neg hn]
    rfl

end Session

/-! ## The connection between two steps -/

/-- What has been read of the next bundle. -/
inductive Reading (c : Connection) (s : Session) : StdString → Prop where
  /-- a header is awaited -/
  | header (pending : s.pending = [.header]) : Reading c s []
  /-- the body that the header announced is awaited -/
  | body (pending : s.pending = [.data]) (fits : c.incomingHeader.Fits)
      (length : s.inbound_data_.length = c.incomingHeader.remLen.toNat)
      (announced : c.incomingHeader.remLen ≠ 0) :
      Reading c s (BundleParser.make_bundle_header_v1 c.incomingHeader)
  /-- the header announced no body: nothing is read any more -/
  | stopped (pending : s.pending = []) (nothing : c.incomingHeader.remLen = 0) :
      Reading c s (BundleParser.make_bundle_header_v1 c.incomingHeader)

theorem Reading.congr {c c' : Connection} {s s' : Session} {begun : StdString}
    (h : Reading c s begun) (hpending : s'.pending = s.pending)
    (hdata : s'.inbound_data_ = s.inbound_data_) (hheader : c'.incomingHeader = c.incomingHeader) :
    Reading c' s' begun := by
  cases h with
  | header pending => exact .header (hpending.trans pending)
  | body pending fits length announced =>
    rw [← hheader] at fits length announced ⊢
    exact .body (hpending.trans pending) fits (by rw [hdata, length]) announced
  | stopped pending nothing =>
    rw [← hheader] at nothing ⊢
    exact .stopped (hpending.trans pending) nothing

/-- The connection is open on the session, which has read `begun` of the next bundle. -/
structure Link (c : Connection) (s : Session) (begun : StdString) : Prop where
  session : c.m_session = some s
  is_open : s.is_open = true
  reading : Reading c s begun

theorem Link.open {c : Connection} {s : Session} {begun : StdString} (h : Link c s begun) :
    c.Open := ⟨s, h.session, h.is_open⟩

namespace Session

variable {s s' : Session} {progress : Progress}

/-- With the octets of its header in the stream, a bundle is begun. -/
theorem complete_header {bundle : BundleHeader × StdString} {rest : StdString}
    (hb : Framed bundle) (hpending : s.pending = [.header])
    (h : s.input = BundleParser.make_bundle_header_v1 bundle.1 ++ rest) :
    ∃ s', complete s = .ok (.reading bundle.1) s' := by
  have hhead := readExactly_append (s := { s with pending := s.pending.erase .header }) h
  rw [BundleParser.length_make_bundle_header_v1] at hhead
  have hrun : complete s = completeHeader s := by
    unfold complete
    rw [get_bind_apply, hpending]
  rw [hrun, completeHeader, modify_bind_apply, bind_ok hhead]
  simp only [modify_bind_apply, handle_read_header]
  rw [if_neg (by simp), get_bind_apply]
  simp only [hb.read_header, eval_ok, pure_bind_apply]
  rw [if_neg hb.remLen_ne]
  exact ⟨_, rfl⟩

/-- The read of a header ends at the end of the stream, or with a header. -/
theorem complete_header_cases (hpending : s.pending = [.header])
    (h : complete s = .ok progress s') :
    (progress = .called .eof none none ∧ s' = { s with pending := [], input := [] }) ∨
    ∃ octets rest header, octets.length = header_length ∧ s.input = octets ++ rest ∧
      BundleParser.read_bundle_header_v1 octets = .ok header ∧
      ((header.remLen = 0 ∧ progress = .called .invalid_argument (some header) none ∧
          s' = { s with pending := [], input := rest, inbound_header_ := octets }) ∨
        (header.remLen ≠ 0 ∧ progress = .reading header ∧
          s' = { s with
            pending := [.data], input := rest, inbound_header_ := octets
            inbound_data_ := resize s.inbound_data_ header.remLen.toNat })) := by
  unfold complete at h
  rw [get_bind_apply, hpending] at h
  simp only [completeHeader, modify_bind_apply, hpending, List.erase_cons_head] at h
  rcases readExactly_cases header_length { s with pending := [] } with
    hread | ⟨octets, rest, hlen, hinput, hread⟩
  · left
    rw [bind_ok hread] at h
    cases h
    exact ⟨rfl, rfl⟩
  · right
    rw [bind_ok hread] at h
    simp only [modify_bind_apply, handle_read_header, ne_eq, not_true_eq_false, if_false,
      get_bind_apply, BundleParser.read_bundle_header, NEW_BUNDLES, if_true,
      eval_bind_eq_ok] at h
    obtain ⟨header, hheader, h⟩ := h
    refine ⟨octets, rest, header, hlen, hinput, hheader, ?_⟩
    by_cases hzero : header.remLen = 0
    · rw [if_pos hzero] at h
      cases h
      exact .inl ⟨hzero, rfl, rfl⟩
    · rw [if_neg hzero] at h
      cases h
      exact .inr ⟨hzero, rfl, rfl⟩

/-- The read of a body ends at the end of the stream, or with the body. -/
theorem complete_data_cases (hpending : s.pending = [.data]) (h : complete s = .ok progress s') :
    (progress = .called .eof none none ∧ s' = { s with pending := [], input := [] }) ∨
    ∃ t rest, t.length = s.inbound_data_.length ∧ s.input = t ++ rest ∧
      progress = .called .success none (some t) ∧
      s' = { s with pending := [], input := rest, inbound_data_ := t } := by
  unfold complete at h
  rw [get_bind_apply, hpending] at h
  simp only [completeData, modify_bind_apply, hpending, List.erase_cons_head,
    get_bind_apply] at h
  rcases readExactly_cases s.inbound_data_.length { s with pending := [] } with
    hread | ⟨t, rest, hlen, hinput, hread⟩
  · left
    rw [bind_ok hread] at h
    cases h
    exact ⟨rfl, rfl⟩
  · right
    rw [bind_ok hread] at h
    cases h
    exact ⟨t, rest, hlen, hinput, rfl, rfl⟩

/-- When the handler of the user is called, no read is under way. -/
theorem complete_called {e : ErrorCode} {header : Option BundleHeader} {t : Option StdString}
    (hone : s.pending.length = 1) (h : complete s = .ok (.called e header t) s') :
    s'.pending = [] ∧ s'.is_open = s.is_open := by
  obtain ⟨read, hpending⟩ := List.length_eq_one_iff.mp hone
  cases read with
  | header =>
    rcases complete_header_cases hpending h with
      ⟨-, rfl⟩ | ⟨octets, rest, header', -, -, -, ⟨-, -, rfl⟩ | ⟨-, hreading, -⟩⟩
    · exact ⟨rfl, rfl⟩
    · exact ⟨rfl, rfl⟩
    · cases hreading
  | data =>
    rcases complete_data_cases hpending h with ⟨-, rfl⟩ | ⟨body, rest, -, -, -, rfl⟩
    · exact ⟨rfl, rfl⟩
    · exact ⟨rfl, rfl⟩

end Session

namespace Broker

variable {W : Ns3} {J : Jsoncpp} {b b' : Broker} {s : Session} {begun : StdString} {u : Unit}

/-- At the end of the stream `readHandler` does not return. -/
theorem readHandler_eof_ne_ok (hs : b.conn.m_session = some s) :
    readHandler J .eof b ≠ .ok u b' := by
  have hdeliver := deliver_eof (J := J) (c := endOfFile) (b := { b with conn := { b.conn with
    m_session := some { s with pending := .header :: s.pending } } }) (by decide) rfl u b'
  have hsame : complete endOfFile { b.conn with
      m_session := some { s with pending := .header :: s.pending } } = b.conn := by
    simp [complete, endOfFile, ← hs]
  rw [deliver, modify_bind_apply] at hdeliver
  simp only [hsame] at hdeliver
  exact hdeliver

/-- After another error nothing happens. -/
theorem readHandler_other {e : ErrorCode} (he : e ≠ .success) (hother : e.message ≠ "End of file")
    (b : Broker) : readHandler J e b = .ok () b := by
  unfold readHandler
  rw [if_pos (by simp [he, hother])]
  rfl

theorem onMessageReceived_eq_ok {header : BundleHeader} {input : StdString}
    (h : onMessageReceived J header input b = .ok u b') :
    b' = b.received (accepted J header input) := by
  rcases onMessageReceived_cases (J := J) b header input with
    ⟨-, -, what, hrun⟩ | ⟨cause, -, hrun⟩ | ⟨-, hrun⟩
  · rw [hrun] at h
    cases h
  · rw [hrun] at h
    cases h
  · rw [hrun] at h
    cases h
    rfl

/-- On an open socket the next read is started. -/
theorem async_receive_eq {c : Connection} {s : Session} (hs : c.m_session = some s)
    (hopen : s.is_open = true) :
    Connection.async_receive c = .ok () { c with
      m_session := some { s with pending := s.pending ++ [.header] }, incomingMessage := [] } := by
  unfold Connection.async_receive
  rw [bind_ok (Connection.isOpen_of_open ⟨s, hs, hopen⟩)]
  simp [Connection.session, hs, Session.async_read]

/-- The call of the session, and what is done with its outcome. -/
theorem completeRead_eq_ok (hs : b.conn.m_session = some s)
    (h : completeRead J b = .ok u b') :
    ∃ progress s', Session.complete s = .ok progress s' ∧
      (∀ header, progress = .reading header →
        b' = { b with conn := { b.conn with m_session := some s', incomingHeader := header } }) ∧
      ∀ e header t, progress = .called e header t →
        readHandler J e { b with conn := { b.conn with
          m_session := some s'
          incomingHeader := header.getD b.conn.incomingHeader
          incomingMessage := t.getD b.conn.incomingMessage } } = .ok u b' := by
  obtain ⟨progress, b₁, hcomplete, h⟩ := bind_eq_ok h
  obtain ⟨conn, hconn, rfl⟩ := zoom_eq_ok hcomplete
  obtain ⟨s₁, s', hs₁, hsession, rfl⟩ := Connection.session_eq_ok hconn
  rw [hs] at hs₁
  cases hs₁
  refine ⟨progress, s', hsession, ?_, ?_⟩
  · rintro header rfl
    cases h
    rfl
  · rintro e header t rfl
    exact h

theorem onConn_complete (hs : b.conn.m_session = some s) {progress : Progress} {s' : Session}
    (hcomplete : Session.complete s = .ok progress s') :
    onConn (Connection.session Session.complete) b =
      .ok progress { b with conn := { b.conn with m_session := some s' } } := by
  apply zoom_ok
  rw [Connection.session, hs]
  simp only [hcomplete]

/-- What a read reports to `readHandler`, with the header that was read before its body. -/
def reported (conn : Connection) (e : ErrorCode) (header : Option BundleHeader)
    (t : Option StdString) : Completion where
  error := e
  header := some (header.getD conn.incomingHeader)
  message := t

/-- A read that ends with a call of `readHandler` is a completion of the receive loop. -/
theorem completeRead_called (hs : b.conn.m_session = some s) (hone : s.pending.length = 1)
    {e : ErrorCode} {header : Option BundleHeader} {t : Option StdString} {s' : Session}
    (hcomplete : Session.complete s = .ok (.called e header t) s') :
    completeRead J b = deliver J (reported b.conn e header t)
      { b with conn := { b.conn with m_session := some { s' with pending := s.pending } } } := by
  have hpending : s.pending.tail = s'.pending := by
    rw [pending_nil hone, (Session.complete_called hone hcomplete).1]
  rw [completeRead, bind_ok (onConn_complete hs hcomplete), deliver, modify_bind_apply]
  simp only [complete, reported, Option.map_some, hpending, Option.getD_some]
  rfl

/-- So the loop survives it exactly when it reports no error. -/
theorem completeRead_alive_iff (hs : b.conn.m_session = some s) (hopen : s.is_open = true)
    (hone : s.pending.length = 1) {e : ErrorCode} {header : Option BundleHeader}
    {t : Option StdString} {s' : Session}
    (hcomplete : Session.complete s = .ok (.called e header t) s')
    (hdecodable : Decodable J (reported b.conn e header t)) :
    (∃ b', completeRead J b = .ok () b' ∧ b'.Alive) ↔ e = .success := by
  rw [completeRead_called hs hone hcomplete]
  have hopen' := (Session.complete_called hone hcomplete).2.trans hopen
  exact alive_deliver_iff ⟨_, rfl, hopen', hone⟩ hdecodable

/-- Octets were taken from the stream. Either no bundle ends with them, or one does and is
received, and the next header is awaited. -/
def ReadOn (J : Jsoncpp) (b : Broker) (s : Session) (begun : StdString) (b' : Broker) : Prop :=
  ∃ c' s' begun', Link c' s' begun' ∧ s'.output = s.output ∧
    s'.input.length < s.input.length ∧
    ((b' = { b with conn := c' } ∧ begun ++ s.input = begun' ++ s'.input) ∨
      ∃ bundle, Session.Framed bundle ∧
        b' = { b.received (accepted J bundle.1 bundle.2) with conn := c' } ∧
        begun ++ s.input = Session.frame bundle ++ (begun' ++ s'.input))

theorem completeRead_header (hs : b.conn.m_session = some s) (hopen : s.is_open = true)
    (hheader : s.pending = [.header]) (h : completeRead J b = .ok u b') :
    ReadOn J b s [] b' := by
  obtain ⟨progress, s', hcomplete, hreading, hcalled⟩ := completeRead_eq_ok hs h
  rcases Session.complete_header_cases hheader hcomplete with
    ⟨rfl, -⟩ | ⟨octets, rest, header, hlen, hinput, hoctets, hrest⟩
  · exact absurd (hcalled _ _ _ rfl) (readHandler_eof_ne_ok rfl)
  have hmake := BundleParser.make_of_read hlen hoctets
  have hstream : [] ++ s.input = BundleParser.make_bundle_header_v1 header ++ rest := by
    rw [hmake, List.nil_append, hinput]
  have hless : rest.length < s.input.length := by
    rw [hinput, List.length_append, hlen, header_length]
    omega
  rcases hrest with ⟨hzero, rfl, hs'⟩ | ⟨hne, rfl, hs'⟩
  · have hback := hcalled _ _ _ rfl
    rw [readHandler_other (by decide) (by decide)] at hback
    cases hback
    have hlink' : Link { b.conn with
          m_session := some s', incomingHeader := header
          incomingMessage := b.conn.incomingMessage } s'
        (BundleParser.make_bundle_header_v1 header) :=
      ⟨rfl, by rw [hs']; exact hopen, .stopped (by rw [hs']) hzero⟩
    refine ⟨_, s', _, hlink', by rw [hs'], by rw [hs']; exact hless, .inl ⟨rfl, ?_⟩⟩
    rw [hstream, hs']
  · have hlink' : Link { b.conn with m_session := some s', incomingHeader := header } s'
        (BundleParser.make_bundle_header_v1 header) :=
      ⟨rfl, by rw [hs']; exact hopen, .body (by rw [hs'])
        (BundleParser.fits_of_read hoctets) (by rw [hs', Session.length_resize]) hne⟩
    refine ⟨_, s', _, hlink', by rw [hs'], by rw [hs']; exact hless,
      .inl ⟨hreading header rfl, ?_⟩⟩
    rw [hstream, hs']

theorem completeRead_body (hs : b.conn.m_session = some s) (hopen : s.is_open = true)
    (hbody : s.pending = [.data]) (hfits : b.conn.incomingHeader.Fits)
    (hlen : s.inbound_data_.length = b.conn.incomingHeader.remLen.toNat)
    (hne : b.conn.incomingHeader.remLen ≠ 0) (h : completeRead J b = .ok u b') :
    ReadOn J b s (BundleParser.make_bundle_header_v1 b.conn.incomingHeader) b' := by
  obtain ⟨progress, s', hcomplete, -, hcalled⟩ := completeRead_eq_ok hs h
  rcases Session.complete_data_cases hbody hcomplete with
    ⟨rfl, -⟩ | ⟨t, rest, ht, hinput, rfl, hs'⟩
  · exact absurd (hcalled _ _ _ rfl) (readHandler_eof_ne_ok rfl)
  have hback := hcalled _ _ _ rfl
  rw [readHandler_success] at hback
  obtain ⟨_, b₂, hreceived, hasync⟩ := bind_eq_ok hback
  obtain rfl := onMessageReceived_eq_ok hreceived
  obtain ⟨conn, hconn, rfl⟩ := zoom_eq_ok hasync
  have hopen' : s'.is_open = true := by rw [hs']; exact hopen
  have hpos : 0 < t.length := by
    rw [ht, hlen]
    exact Nat.pos_of_ne_zero fun hzero => hne (UInt32.toNat_inj.mp hzero)
  rw [async_receive_eq (s := s') rfl hopen'] at hconn
  cases hconn
  refine ⟨_, { s' with pending := s'.pending ++ [.header] }, [], ⟨rfl, hopen', .header ?_⟩,
    by rw [hs'], ?_, .inr ⟨(b.conn.incomingHeader, t), ⟨hfits, ?_, hpos⟩, rfl, ?_⟩⟩
  · rw [hs']
    rfl
  · rw [hs', hinput, List.length_append]
    exact Nat.lt_add_of_pos_left hpos
  · exact hlen.symm.trans ht.symm
  · rw [hs', Session.frame, List.append_assoc, hinput]
    rfl

/-- A read that completes is one of a header or of a body. -/
theorem completeRead_cases (hlink : Link b.conn s begun) (hpending : s.pending ≠ [])
    (h : completeRead J b = .ok u b') : ReadOn J b s begun b' := by
  obtain ⟨hs, hopen, hread⟩ := hlink
  cases hread with
  | header hheader => exact completeRead_header hs hopen hheader h
  | body hbody hfits hlen hne => exact completeRead_body hs hopen hbody hfits hlen hne h
  | stopped hstopped _ => exact absurd hstopped hpending

/-- With a whole bundle in the stream, or the rest of the one begun, the octets that are awaited
are there. -/
theorem awaited_of_frame (hlink : Link b.conn s begun) {bundle : BundleHeader × StdString}
    {rest : StdString} (hframed : Session.Framed bundle)
    (hstream : begun ++ s.input = Session.frame bundle ++ rest) :
    ∃ n, s.awaited = some n ∧ n ≤ s.input.length := by
  have hread := hlink.reading
  rw [Session.frame, List.append_assoc] at hstream
  cases hread with
  | header hpending =>
    refine ⟨header_length, by rw [Session.awaited, hpending], ?_⟩
    rw [← List.nil_append s.input, hstream, List.length_append,
      BundleParser.length_make_bundle_header_v1]
    omega
  | body hpending hfits hlen hne =>
    obtain ⟨hhead, hinput⟩ := List.append_inj hstream rfl
    have hheader := BundleParser.header_of_octets hfits hframed.fits hhead
    refine ⟨s.inbound_data_.length, by rw [Session.awaited, hpending], ?_⟩
    rw [hinput, hlen, hheader, hframed.length, List.length_append]
    omega
  | stopped hpending hzero =>
    have hhead := (List.append_inj hstream rfl).1
    exact absurd hzero (BundleParser.remLen_ne_of_octets hframed.remLen_ne hhead)

/-- With the octets of the next bundle that are awaited, the read under way completes, and it
returns if the bundle can be decoded. -/
theorem completeRead_returns (hlink : Link b.conn s begun) {bundle : BundleHeader × StdString}
    {more rest : StdString} (hframed : Session.Framed bundle)
    (hstream : begun ++ (s.input ++ more) = Session.frame bundle ++ rest) {n : Nat}
    (hawaited : s.awaited = some n) (hle : n ≤ s.input.length) {r : Bool}
    {conglom : MessageConglomerate}
    (hdecode : JsonParser.deserialize J NEW_BUNDLES bundle.1 bundle.2 {} = .ok r conglom) :
    ∃ b', completeRead J b = .ok () b' := by
  have hread := hlink.reading
  rw [Session.frame, List.append_assoc] at hstream
  cases hread with
  | header hpending =>
    rw [Session.awaited, hpending] at hawaited
    cases hawaited
    obtain ⟨input', hinput⟩ : BundleParser.make_bundle_header_v1 bundle.1 <+: s.input :=
      List.prefix_of_prefix_length_le ⟨_, hstream.symm⟩ (List.prefix_append _ _)
        (by rwa [BundleParser.length_make_bundle_header_v1])
    obtain ⟨s', hcomplete⟩ := Session.complete_header hframed hpending hinput.symm
    rw [completeRead, bind_ok (onConn_complete hlink.session hcomplete)]
    exact ⟨_, rfl⟩
  | body hpending hfits hlen hne =>
    rw [Session.awaited, hpending] at hawaited
    cases hawaited
    obtain ⟨hhead, hrest⟩ := List.append_inj hstream rfl
    have hheader := BundleParser.header_of_octets hfits hframed.fits hhead
    have hdata : s.inbound_data_.length = bundle.2.length := by
      rw [hlen, hheader, hframed.length]
    obtain ⟨input', hinput⟩ : bundle.2 <+: s.input :=
      List.prefix_of_prefix_length_le ⟨_, hrest.symm⟩ (List.prefix_append _ _) (hdata ▸ hle)
    obtain ⟨s', hcomplete, -⟩ := Session.completeData_frame hinput.symm hdata
    have hrun : Session.complete s = .ok (.called .success none (some bundle.2)) s' := by
      unfold Session.complete
      rw [get_bind_apply, hpending]
      exact hcomplete
    have hone : s.pending.length = 1 := by rw [hpending]; rfl
    have hdecodable : Decodable J (reported b.conn .success none (some bundle.2)) :=
      fun _ => ⟨b.conn.incomingHeader, bundle.2, r, conglom, rfl, rfl, by rwa [hheader]⟩
    obtain ⟨b', hdelivered, -⟩ :=
      (completeRead_alive_iff hlink.session hlink.is_open hone hrun hdecodable).mpr rfl
    exact ⟨b', hdelivered⟩
  | stopped hpending hzero =>
    have hhead := (List.append_inj hstream rfl).1
    exact absurd hzero (BundleParser.remLen_ne_of_octets hframed.remLen_ne hhead)

/-! ## Deliveries -/

section Deliveries

variable (J)

/-- The outgoing serialization when these messages were appended in all, `notes` of
them since the last round. -/
def ongoingWith (all notes : List Json) : OngoingSerialization where
  vHead :=
    { sendId := str "987654321"
      destId := str "0"
      msgLengths := lengthTable (notes.map (toMessage J)) }
  messages := messagesText (all.map (toMessage J))

/-- What the receiver of a packet passes on. -/
def passedOn (packet : StdString) : Option Json :=
  if packet.isEmpty then none
  else (JsonParser.parseJSON J packet).bind fun j_msg => (forwarded j_msg).toOption

variable {J}

theorem ongoingWith_begin (all notes : List Json) :
    JsonParser.serialize_begin_default (ongoingWith J all notes) = ongoingWith J all [] := rfl

theorem ongoingWith_note {json : Json} {text : StdString}
    (h : ({ appendNewline := false } : JsonSingleLineWriter).write J json = .ok text)
    (all notes : List Json) :
    JsonParser.addGeneric true (ongoingWith J all notes) text =
      ongoingWith J (all ++ [json]) (notes ++ [json]) := by
  have htext : textOf J json = text := by simp [textOf, h]
  simp [ongoingWith, JsonParser.addGeneric, lengthTable, messagesText, toMessage, htext]

theorem receiveOne_eq_ok {packet : StdString} {all notes : List Json}
    {o : OngoingSerialization} (h : receiveOne J packet (ongoingWith J all notes) = .ok u o) :
    o = ongoingWith J (all ++ (passedOn J packet).toList)
      (notes ++ (passedOn J packet).toList) := by
  unfold receiveOne at h
  unfold passedOn
  by_cases hempty : packet.isEmpty
  · rw [if_pos hempty] at h ⊢
    cases h
    simp
  · rw [if_neg hempty] at h ⊢
    cases hparse : JsonParser.parseJSON J packet with
    | none =>
      rw [hparse] at h
      cases h
      simp
    | some j_msg =>
      rw [hparse] at h
      simp only [eval_bind_eq_ok, get_bind_apply] at h
      obtain ⟨json, hjson, ongoing, hmake, h⟩ := h
      cases h
      obtain ⟨text, hwrite, rfl⟩ := makeJson_eq_ok hmake
      rw [Option.bind_some, hjson]
      exact ongoingWith_note hwrite all notes

/-- A delivery that returns went to an agent that exists. -/
theorem receivePackets_holds {callback : RecvCallback} {packets : List StdString}
    (h : receivePackets J callback packets b = .ok u b') :
    b.world.holds callback = true ∧ onOutgoing (Agent.ReceivePacket J packets) b = .ok u b' := by
  rw [receivePackets, get_bind_apply] at h
  split at h
  · exact ⟨‹_›, h⟩
  · cases h

/-- A delivery appends what its packets make the receiver pass on. -/
theorem receivePackets_eq_ok {callback : RecvCallback} {packets : List StdString}
    {all notes : List Json} (hb : b.m_outgoing = ongoingWith J all notes)
    (h : receivePackets J callback packets b = .ok u b') :
    b' = { b with
      m_outgoing := ongoingWith J (all ++ packets.filterMap (passedOn J))
        (notes ++ packets.filterMap (passedOn J)) } := by
  obtain ⟨-, hreceived⟩ := receivePackets_holds h
  rw [onOutgoing] at hreceived
  obtain ⟨o, hreceive, rfl⟩ := zoom_eq_ok hreceived
  rw [hb] at hreceive
  have hall : o = ongoingWith J (all ++ packets.filterMap (passedOn J))
      (notes ++ packets.filterMap (passedOn J)) := by
    clear hb h hreceived
    induction packets generalizing all notes with
    | nil =>
      cases hreceive
      simp
    | cons packet packets ih =>
      obtain ⟨_, o₁, hone, hrest⟩ := bind_eq_ok hreceive
      rw [receiveOne_eq_ok hone] at hrest
      rw [ih hrest]
      cases hpassed : passedOn J packet <;> simp [hpassed]
  rw [hall]

end Deliveries

/-! ## Rounds -/

section Rounds

/-- A send writes a frame and leaves the rest of the session as it was. -/
theorem send_eq_written {header : BundleHeader} {text : StdString} {written : Bool}
    (h : onConn (Connection.send header text) b = .ok written b')
    (hs : b.conn.m_session = some s) :
    ∃ octets sent, b' = { b with conn := { b.conn with
      sent := sent
      m_session := some { s with
        outbound_header_ := octets, output := s.output ++ Session.frame (header, text) } } } := by
  obtain ⟨conn, hsend, rfl⟩ := zoom_eq_ok h
  obtain ⟨wrote, conn₁, hwrite, hsend⟩ := bind_eq_ok hsend
  obtain ⟨s₁, s₂, hs₁, hsession, rfl⟩ := Connection.session_eq_ok hwrite
  rw [hs] at hs₁
  cases hs₁
  obtain ⟨-, rfl⟩ := Connection.write_eq_ok hsession
  cases wrote with
  | false =>
    cases hsend
    exact ⟨_, _, rfl⟩
  | true =>
    cases hsend
    exact ⟨_, _, rfl⟩

variable (J)

/-- The bundle that ends with the messages since the last round: the header counts these, and the
text still has `all` that were passed on so far. -/
def outgoingBundle (all notes : List Json) : BundleHeader × StdString :=
  let ongoing := ongoingWith J all notes
  (JsonParser.bundleHeader ongoing.vHead (JsonParser.payload ongoing), JsonParser.payload ongoing)

/-- The bundle that ends a round. -/
def tickedBundle : BundleHeader × StdString :=
  match tickedClientBundle J with
  | .ok bundle => bundle
  | .error _ => ({}, [])

variable {J}

theorem tickedClientBundle_eq : tickedClientBundle J = .ok (tickedBundle J) := by
  obtain ⟨bundle, h⟩ : ∃ bundle, tickedClientBundle J = .ok bundle := ⟨_, rfl⟩
  rw [tickedBundle, h]

/-- A send on an open socket returns. -/
theorem send_returns (b : Broker) (header : BundleHeader) (text : StdString)
    (hopen : b.conn.Open) :
    ∃ written b', onConn (Connection.send header text) b = .ok written b' ∧ b'.conn.Open := by
  obtain ⟨s, hs, hsession⟩ := hopen
  obtain ⟨written, s', hwrite, hopen', -⟩ := Session.write_frame hsession (header, text)
  have hrun : Connection.session (Session.write header text) b.conn =
      .ok written { b.conn with m_session := some s' } := by
    rw [Connection.session, hs]
    simp only [hwrite]
  have hsend : Connection.send header text b.conn = .ok written (if written then
      { b.conn with m_session := some s', sent := b.conn.sent ++ [(header, text)] }
      else { b.conn with m_session := some s' }) := by
    rw [Connection.send, bind_ok hrun]
    cases written <;> rfl
  refine ⟨written, _, zoom_ok hsend, s', ?_, hopen'⟩
  cases written <;> rfl

theorem sendOutgoing_returns (b : Broker) (hopen : b.conn.Open) :
    ∃ b', sendOutgoing J b = .ok () b' ∧ b'.conn.Open := by
  obtain ⟨written, b', hsend, hopen'⟩ := send_returns b
    (JsonParser.bundleHeader b.m_outgoing.vHead (JsonParser.payload b.m_outgoing))
    (JsonParser.payload b.m_outgoing) hopen
  simp only [sendOutgoing, get_bind_apply, JsonParser.serialize_end, NEW_BUNDLES, if_true,
    JsonParser.serialize_end_v1_eq, Except.map, eval_ok, pure_bind_apply]
  rw [bind_ok hsend]
  exact ⟨_, rfl, hopen'⟩

theorem sendTickedClient_returns (b : Broker) (hopen : b.conn.Open) :
    ∃ b', sendTickedClient J b = .ok () b' := by
  obtain ⟨written, b', hsend, -⟩ := send_returns b (tickedBundle J).1 (tickedBundle J).2 hopen
  simp only [sendTickedClient, tickedClientBundle_eq, eval_ok, pure_bind_apply]
  rw [bind_ok hsend]
  exact ⟨_, rfl⟩

/-- Without a bundle the loop goes on. -/
theorem pause_waits (hpause : b.m_pause = true) (hsched : b.scheduled ≠ 0) :
    step W J b .pause = some b := by
  rw [step, if_neg hsched]
  refine returned_eq_some.mpr ⟨false, ?_⟩
  simp only [Broker.pause, get_bind_apply]
  rw [if_pos hpause]
  rfl

/-- A round returns when the messages of the queue are handled. -/
theorem round_returns (hopen : b.conn.Open) (hrun : b.m_pause = false) (hsched : b.scheduled ≠ 0)
    {world : World} (hworld : Transition.run (handled W J) b.world
      (queuedMessages b.m_incoming.messageList) = some world) :
    ∃ b', step W J b .pause = some b' := by
  let b₀ : Broker := { b with m_pause := true, scheduled := b.scheduled - 1 }
  have hisopen : onConn Connection.isOpen b₀ = .ok true b₀ :=
    zoom_ok (Connection.isOpen_of_open hopen)
  obtain ⟨b₁, h₁, -⟩ := (processQueue_run (b := b₀) _).mpr hworld
  have hopen₁ : b₁.conn.Open := by
    obtain ⟨world', rfl⟩ := processIncoming_eq_ok (b := b₀) h₁
    exact hopen
  obtain ⟨b₂, h₂, hopen₂⟩ := sendOutgoing_returns (J := J) b₁ hopen₁
  obtain ⟨b₃, h₃⟩ := sendTickedClient_returns (J := J) b₂ hopen₂
  refine ⟨{ b₃ with scheduled := b₃.scheduled + 1, m_global_tick := b₃.m_global_tick + 1 }, ?_⟩
  rw [step, if_neg hsched]
  refine returned_eq_some.mpr ⟨true, ?_⟩
  simp only [Broker.pause, get_bind_apply]
  rw [if_neg (by simp [hrun]), set_bind_apply, bind_ok hisopen]
  simp only [Bool.not_true, Bool.false_eq_true, if_false]
  rw [bind_ok (show processIncoming W J b₀ = .ok () b₁ from h₁), bind_ok h₂, bind_ok h₃]
  rfl

/-- A round handles the bundles of the queue one after the other and writes two. -/
theorem round_eq_some {all notes : List Json} (hlink : Link b.conn s begun)
    (hb : b.m_outgoing = ongoingWith J all notes) (hrun : b.m_pause = false)
    (h : step W J b .pause = some b') :
    ∃ world c' s', Transition.run (handled W J) b.world
        (queuedMessages b.m_incoming.messageList) = some world ∧
      b' = b.afterRound world c' ∧ Link c' s' begun ∧ s'.input = s.input ∧
      s'.output = s.output ++
        (Session.frame (outgoingBundle J all notes) ++ Session.frame (tickedBundle J)) := by
  simp only [step] at h
  split at h
  · cases h
  obtain ⟨r, hr⟩ := returned_eq_some.mp h
  simp only [Broker.pause, get_bind_apply] at hr
  rw [if_neg (by simp [hrun]), set_bind_apply] at hr
  obtain ⟨is_open, b₀, hopen, hr⟩ := bind_eq_ok hr
  obtain ⟨conn, hconn, rfl⟩ := zoom_eq_ok hopen
  rw [Connection.isOpen_of_open hlink.open] at hconn
  cases hconn
  simp only [Bool.not_true, Bool.false_eq_true, if_false] at hr
  obtain ⟨_, b₁, h₁, hr⟩ := bind_eq_ok hr
  obtain ⟨_, b₂, h₂, hr⟩ := bind_eq_ok hr
  obtain ⟨_, b₃, h₃, hr⟩ := bind_eq_ok hr
  cases hr
  have hworld := (processQueue_run _).mp ⟨b₁, h₁, rfl⟩
  obtain ⟨world, rfl⟩ := processIncoming_eq_ok h₁
  simp only [sendOutgoing, get_bind_apply, JsonParser.serialize_end, NEW_BUNDLES, if_true,
    JsonParser.serialize_end_v1_eq, Except.map, eval_ok, pure_bind_apply] at h₂
  obtain ⟨_, b₄, hsend, h₂⟩ := bind_eq_ok h₂
  obtain ⟨octets, sent, rfl⟩ := send_eq_written hsend hlink.session
  cases h₂
  simp only [sendTickedClient, tickedClientBundle_eq, eval_ok, pure_bind_apply] at h₃
  obtain ⟨_, b₅, hsend', h₃⟩ := bind_eq_ok h₃
  obtain ⟨octets', sent', rfl⟩ := send_eq_written hsend' rfl
  cases h₃
  have hout : (JsonParser.bundleHeader b.m_outgoing.vHead (JsonParser.payload b.m_outgoing),
      JsonParser.payload b.m_outgoing) = outgoingBundle J all notes := by
    rw [hb, outgoingBundle]
  rw [hout]
  let s' : Session := { s with
    outbound_header_ := octets'
    output := s.output ++ Session.frame (outgoingBundle J all notes) ++
      Session.frame (tickedBundle J) }
  refine ⟨world, { b.conn with sent := sent', m_session := some s' }, s', hworld, ?_,
    ⟨rfl, hlink.is_open, hlink.reading.congr rfl rfl rfl⟩, rfl, List.append_assoc ..⟩
  simp [afterRound, s']

end Rounds

end Broker
end Sm4ns3
