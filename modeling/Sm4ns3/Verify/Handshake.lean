import Sm4ns3.Verify.Framing
import Sm4ns3.Verify.Narrowing
import Sm4ns3.Verify.OpaqueRoundTrip
import Sm4ns3.Verify.Usable

/-!
# The registration handshake

`Exchange` is the state of the broker between two steps of the handshake: what it
has sent, and which bundles of the peer it has not read. Each step of
`Registration.start` succeeds exactly when the next bundle is the one it expects,
and leads from one exchange to the next.
-/

namespace Sm4ns3

open Bytes Cpp Call

/-! ## The bundles of the handshake -/

/-- The bundle is decoded to one message, of this type. -/
structure Single (J : Jsoncpp) (bundle : BundleHeader × StdString) (msg_type : StdString)
    (c : MessageConglomerate) : Prop where
  decoded : JsonParser.deserialize J NEW_BUNDLES bundle.1 bundle.2 {} = .ok true c
  count : c.getCount NEW_BUNDLES = 1
  base : c.getBaseMessage 0 = .ok { msg_type := msg_type }

/-- The first message has a token, and this is its text. -/
def HasToken (J : Jsoncpp) (c : MessageConglomerate) (token : StdString) : Prop :=
  ∃ props value, c.getJsonMessage 0 = .ok props ∧ props.isMember (str "token") = .ok true ∧
    props.get (str "token") = .ok value ∧ J.asString value = .ok token

def IdRequest (J : Jsoncpp) (bundle : BundleHeader × StdString) (token : StdString) : Prop :=
  ∃ c, Single J bundle (str "id_request") c ∧ HasToken J c token

def IdResponse (J : Jsoncpp) (bundle : BundleHeader × StdString) (token : StdString) : Prop :=
  ∃ c, Single J bundle (str "id_response") c ∧ HasToken J c token

/-- A list of agents to add, which is not empty. -/
def NewAgents (J : Jsoncpp) (bundle : BundleHeader × StdString) (addAgentIds : List StdString) :
    Prop :=
  addAgentIds ≠ [] ∧ ∃ c aInfo, Single J bundle (str "new_agents") c ∧
    JsonParser.parseNewAgents J c 0 = .ok aInfo ∧ aInfo.addAgentIds = addAgentIds

def IdAck (J : Jsoncpp) (bundle : BundleHeader × StdString) : Prop :=
  ∃ c, Single J bundle (str "id_ack") c

/-- The bundle that `makeIdResponse` makes for a token. -/
def ResponseTo (J : Jsoncpp) (token : StdString) (bundle : BundleHeader × StdString) : Prop :=
  ∃ res, JsonParser.makeIdResponse J NEW_BUNDLES (JsonParser.serialize_begin_default {}) token =
      .ok res ∧
    JsonParser.serialize_end J NEW_BUNDLES res = .ok (some bundle)

theorem deserialize_single_eq_ok {J : Jsoncpp} {bundle : BundleHeader × StdString}
    {msg_type : StdString} {base : MessageBase} {c : MessageConglomerate} :
    JsonParser.deserialize_single J NEW_BUNDLES bundle.1 bundle.2 msg_type {} =
        .ok (some base) c ↔
      Single J bundle msg_type c ∧ base = { msg_type := msg_type } := by
  unfold JsonParser.deserialize_single
  rw [bind_eq_ok_iff]
  constructor
  · intro hrest
    rcases hrest with ⟨decoded, t, hrun, h⟩
    cases decoded with
    | false => cases h
    | true =>
      simp only [Bool.not_true, Bool.false_eq_true, if_false, get_bind_apply] at h
      by_cases hcount : t.getCount NEW_BUNDLES = 1
      · rw [if_neg (not_not_intro hcount), eval_bind_eq_ok] at h
        obtain ⟨⟨type⟩, hbase, h⟩ := h
        by_cases htype : type = msg_type
        · subst htype
          rw [if_neg (not_not_intro rfl)] at h
          cases h
          exact ⟨⟨hrun, hcount, hbase⟩, rfl⟩
        · rw [if_pos htype] at h
          cases h
      · rw [if_pos hcount] at h
        cases h
  · intro hrest
    rcases hrest with ⟨hsingle, hbase⟩
    refine ⟨true, c, hsingle.decoded, ?_⟩
    simp only [Bool.not_true, Bool.false_eq_true, if_false, get_bind_apply]
    rw [if_neg (not_not_intro hsingle.count), eval_bind_eq_ok]
    refine ⟨_, hsingle.base, ?_⟩
    rw [if_neg (not_not_intro rfl), hbase]
    rfl

theorem canonical_idResponse (token : StdString) :
    (JsonParser.idResponse token).canonical = true := by
  unfold JsonParser.idResponse
  exact Json.canonical_appendTo (Json.canonical_set (Json.canonical_set (Json.canonical_set
    (Json.canonical_set rfl rfl) rfl) rfl) rfl) rfl

/-- A response that fits its length is decoded to one `id_response` with the token, up
to a NUL in it. -/
theorem ResponseTo.idResponse {J : Jsoncpp} (hJ : J.ReadsBack) {token : StdString}
    {bundle : BundleHeader × StdString} (h : ResponseTo J token bundle)
    (hshort : (Broker.textOf J (JsonParser.idResponse token)).length < 2 ^ 24) :
    IdResponse J bundle (cString token) := by
  obtain ⟨res, hmake, hend⟩ := h
  obtain ⟨text, hwrite, rfl⟩ := Broker.makeJson_eq_ok hmake
  have htext : Broker.textOf J (JsonParser.idResponse token) = text := by
    rw [Broker.textOf, hwrite]
  rw [JsonParser.serialize_end_new] at hend
  cases hend
  have hformed : (writtenMessage J (JsonParser.idResponse token)
      (str "id_response")).WellFormed J :=
    writtenMessage_wellFormed rfl rfl (parse_textOf hJ rfl (canonical_idResponse (cString token)))
      rfl rfl
  obtain ⟨c, hrun, hcount, hbase, hjson⟩ := deserialize_single_message hformed hshort
  refine ⟨c, ⟨?_, hcount, hbase⟩, _, .string (cString token), hjson, rfl, rfl, rfl⟩
  rw [← htext, JsonParser.deserialize_new]
  exact hrun

/-- The first message has one token. -/
theorem HasToken.unique {J : Jsoncpp} {c : MessageConglomerate} {token token' : StdString}
    (h : HasToken J c token) (h' : HasToken J c token') : token = token' := by
  obtain ⟨props, value, hprops, -, hget, htoken⟩ := h
  obtain ⟨props', value', hprops', -, hget', htoken'⟩ := h'
  rw [hprops] at hprops'
  cases hprops'
  rw [hget] at hget'
  cases hget'
  rw [htoken] at htoken'
  cases htoken'
  rfl

/-- A bundle is decoded to one message. -/
theorem Single.unique {J : Jsoncpp} {bundle : BundleHeader × StdString}
    {msg_type msg_type' : StdString} {c c' : MessageConglomerate} (h : Single J bundle msg_type c)
    (h' : Single J bundle msg_type' c') : c = c' := by
  have hdecoded := h'.decoded
  rw [h.decoded] at hdecoded
  cases hdecoded
  rfl

/-- There is one token in each request. -/
theorem IdRequest.unique {J : Jsoncpp} {bundle : BundleHeader × StdString}
    {token token' : StdString} (h : IdRequest J bundle token)
    (h' : IdRequest J bundle token') : token = token' := by
  obtain ⟨c, hc, htoken⟩ := h
  obtain ⟨c', hc', htoken'⟩ := h'
  obtain rfl := hc.unique hc'
  exact htoken.unique htoken'

/-- There is one token in each response. -/
theorem IdResponse.unique {J : Jsoncpp} {bundle : BundleHeader × StdString}
    {token token' : StdString} (h : IdResponse J bundle token)
    (h' : IdResponse J bundle token') : token = token' := by
  obtain ⟨c, hc, htoken⟩ := h
  obtain ⟨c', hc', htoken'⟩ := h'
  obtain rfl := hc.unique hc'
  exact htoken.unique htoken'

/-- There is one response to each token. -/
theorem ResponseTo.unique {J : Jsoncpp} {token : StdString}
    {bundle response : BundleHeader × StdString} (h : ResponseTo J token bundle)
    (h' : ResponseTo J token response) : bundle = response := by
  obtain ⟨res, hmake, hend⟩ := h
  obtain ⟨res', hmake', hend'⟩ := h'
  rw [hmake] at hmake'
  cases hmake'
  rw [hend] at hend'
  cases hend'
  rfl

/-- The token has no NUL, and the response with it fits its length. -/
structure Carried (J : Jsoncpp) (token : StdString) : Prop where
  noNul : 0 ∉ token
  short : (Broker.textOf J (JsonParser.idResponse token)).length < 2 ^ 24

/-- A response that is decoded fits its length: a part of its text is refused. -/
theorem ResponseTo.short {J : Jsoncpp} (hJ : J.RefusesTruncated) {token token' : StdString}
    {bundle : BundleHeader × StdString} (h : ResponseTo J token bundle)
    (hresponse : IdResponse J bundle token') :
    (Broker.textOf J (JsonParser.idResponse token)).length < 2 ^ 24 := by
  obtain ⟨res, hmake, hend⟩ := h
  obtain ⟨text, hwrite, rfl⟩ := Broker.makeJson_eq_ok hmake
  have htext : Broker.textOf J (JsonParser.idResponse token) = text := by
    rw [Broker.textOf, hwrite]
  rw [JsonParser.serialize_end_new] at hend
  cases hend
  obtain ⟨c, hc, -⟩ := hresponse
  have hrun := hc.decoded
  rw [JsonParser.deserialize_new] at hrun
  obtain ⟨k, v, hk, hparse⟩ := parse_of_deserialize_single hrun
  by_contra hlong
  obtain ⟨ms, hobject⟩ : ∃ ms, JsonParser.idResponse token = .object ms := ⟨_, rfl⟩
  have hcanonical : (JsonParser.idResponse token).cut.canonical = true :=
    canonical_idResponse (cString token)
  have hnone := parse_take_textOf hJ hobject rfl hcanonical
    (lt_of_lt_of_le hk (Nat.not_lt.mp hlong))
  rw [htext, hparse] at hnone
  cases hnone

/-- The response carries the token exactly when the token has no NUL and the response fits
its length. -/
theorem ResponseTo.carries_iff {J : Jsoncpp} (hJ : J.ReadsBack) (htr : J.RefusesTruncated)
    {token : StdString} {bundle : BundleHeader × StdString} (h : ResponseTo J token bundle) :
    IdResponse J bundle token ↔ Carried J token := by
  constructor
  · intro hresponse
    have hshort := h.short htr hresponse
    exact ⟨cString_eq_iff.mp ((h.idResponse hJ hshort).unique hresponse), hshort⟩
  · intro hcarried
    have hresponse := h.idResponse hJ hcarried.short
    rwa [cString_eq hcarried.noNul] at hresponse

/-! ## Between two steps -/

/-- The connection is open, `sent` was sent on it, and `bundles` are left to read. -/
structure Exchange (w : World) (sent bundles : List (BundleHeader × StdString)) (b : Broker) :
    Prop where
  session : ∃ s, b.conn.m_session = some s ∧ s.is_open = true ∧
    s.input = (bundles.map Session.frame).flatten
  sent : b.conn.sent = sent
  world : b.world = w

namespace Registration

/-- One of the attempts from `sec` on succeeds. An attempt that cannot resolve the
host throws, and none is made after it. -/
def Answered (peer : Peer) (timeout sec : Nat) : Prop :=
  ∃ k < timeout, peer.answers (sec + k) = (true, true) ∧
    ∀ j < k, (peer.answers (sec + j)).1 = true

/-- The broker after an attempt that succeeded. -/
def connectedTo (peer : Peer) (b : Broker) : Broker :=
  let s := b.conn.m_session.getD {}
  { b with conn := { b.conn with
    m_session := some { s with is_open := true, input := s.input ++ peer.octets } } }

theorem doConnect_answer {peer : Peer} {timeout sec : Nat} (b : Broker)
    (h : peer.answers sec = (true, true)) :
    doConnect peer (timeout + 1) sec b = .ok true (connectedTo peer b) := by
  have hconnect : Broker.onConn (Connection.connect true true) b = .ok true { b with
      conn := { b.conn with m_session := some { b.conn.m_session.getD {} with
        is_open := (b.conn.m_session.getD {}).is_open || true } } } := rfl
  rw [doConnect, h]
  rw [Bool.or_true] at hconnect
  exact (bind_ok hconnect _).trans rfl

theorem answered_succ {peer : Peer} {timeout sec : Nat}
    (h : peer.answers sec = (true, false)) :
    Answered peer (timeout + 1) sec ↔ Answered peer timeout (sec + 1) := by
  constructor
  · rintro ⟨k, hk, hyes, hbefore⟩
    cases k with
    | zero =>
      rw [Nat.add_zero, h] at hyes
      cases hyes
    | succ k =>
      refine ⟨k, by omega, by rwa [Nat.add_right_comm, Nat.add_assoc], fun j hj => ?_⟩
      have hnext := hbefore (j + 1) (by omega)
      rwa [Nat.add_right_comm, Nat.add_assoc]
  · rintro ⟨k, hk, hyes, hbefore⟩
    refine ⟨k + 1, by omega, by rwa [Nat.add_comm k, ← Nat.add_assoc], fun j hj => ?_⟩
    cases j with
    | zero => rw [Nat.add_zero, h]
    | succ j =>
      rw [Nat.add_comm j, ← Nat.add_assoc]
      exact hbefore j (by omega)

theorem doConnect_eq_true {peer : Peer} {timeout sec : Nat} {b b' : Broker} :
    doConnect peer timeout sec b = .ok true b' ↔
      Answered peer timeout sec ∧ b' = connectedTo peer b := by
  induction timeout generalizing sec b with
  | zero =>
    constructor
    · intro h
      cases h
    · rintro ⟨⟨k, hk, -⟩, -⟩
      omega
  | succ timeout ih =>
    rw [doConnect]
    rcases hanswer : peer.answers sec with ⟨resolved, connected⟩
    cases resolved with
    | false =>
      constructor
      · intro h
        cases h
      · rintro ⟨⟨k, hk, hyes, hbefore⟩, -⟩
        cases k with
        | zero =>
          rw [Nat.add_zero, hanswer] at hyes
          cases hyes
        | succ k =>
          have hfirst := hbefore 0 (by omega)
          rw [Nat.add_zero, hanswer] at hfirst
          cases hfirst
    | true =>
      cases connected with
      | true =>
        have hyes : Answered peer (timeout + 1) sec :=
          ⟨0, by omega, hanswer, fun j hj => by omega⟩
        have hrun : doConnect peer (timeout + 1) sec b = .ok true (connectedTo peer b) :=
          doConnect_answer b hanswer
        rw [doConnect, hanswer] at hrun
        rw [hrun]
        constructor
        · intro h
          cases h
          exact ⟨hyes, rfl⟩
        · rintro ⟨-, rfl⟩
          rfl
      | false =>
        rw [answered_succ hanswer]
        exact ih

/-! ## Reading a bundle -/

section Receive

variable {J : Jsoncpp} {w : World} {sent bundles rest : List (BundleHeader × StdString)}
  {bundle : BundleHeader × StdString} {msg_type : StdString} {c : MessageConglomerate}
  {b b' : Broker}

/-- A read leaves the socket open. -/
theorem keeps_open_read : Keeps (fun s : Session => s.is_open = true) Session.read := by
  have hexactly : ∀ n, Keeps (fun s : Session => s.is_open = true) (Session.readExactly n) := by
    intro n s hs
    rw [Session.readExactly, get_bind_apply]
    split <;> exact hs
  refine (hexactly _).bind fun octets => ?_
  cases octets with
  | error e => exact Keeps.pure _
  | ok octets =>
    apply Keeps.bind
    · exact Keeps.modify fun _ hs => hs
    refine fun _ => (Keeps.eval _).bind fun header => ?_
    split
    · exact Keeps.pure _
    · refine (hexactly _).bind fun t => ?_
      cases t with
      | error e => exact Keeps.pure _
      | ok t =>
        apply Keeps.bind
        · exact Keeps.modify fun _ hs => hs
        exact fun _ => Keeps.pure _

theorem receive_cons (hbundle : Session.Framed bundle) (h : Exchange w sent (bundle :: rest) b) :
    ∃ b', Broker.onConn Connection.receive b = .ok (some bundle) b' ∧ Exchange w sent rest b' := by
  obtain ⟨s, hsession, hopen, hinput⟩ := h.session
  obtain ⟨s', hread, hrest⟩ := Session.read_frame hbundle hinput
  have hopen' : s'.is_open = true := keeps_open_read.ok hopen hread
  refine ⟨{ b with conn := { b.conn with m_session := some s' } }, ?_,
    ⟨⟨s', rfl, hopen', hrest⟩, h.sent, h.world⟩⟩
  apply zoom_ok
  rw [Connection.receive, Connection.session, hsession]
  simp only [hread]

theorem receive_nil (h : Exchange w sent [] b) :
    Broker.onConn Connection.receive b ≠ .ok (some bundle) b' := by
  intro hrun
  obtain ⟨conn, hreceive, -⟩ := zoom_eq_ok hrun
  obtain ⟨s, s', hsession, hread, -⟩ := Connection.session_eq_ok hreceive
  obtain ⟨t, hsession', -, hinput⟩ := h.session
  rw [hsession'] at hsession
  cases hsession
  rw [Session.read, Session.readExactly, bind_assoc, get_bind_apply, hinput] at hread
  cases hread

theorem receiveSingle_cons (hbundle : Session.Framed bundle)
    (h : Exchange w sent (bundle :: rest) b) (hc : Single J bundle msg_type c) :
    ∃ b', receiveSingle J msg_type b = .ok (some c) b' ∧ Exchange w sent rest b' := by
  obtain ⟨b', hreceive, h'⟩ := receive_cons hbundle h
  refine ⟨b', ?_, h'⟩
  rw [receiveSingle, bind_ok hreceive]
  simp only [deserialize_single_eq_ok.mpr ⟨hc, rfl⟩, pure_apply]

theorem receiveSingle_eq_some (hbundles : ∀ bundle ∈ bundles, Session.Framed bundle)
    (h : Exchange w sent bundles b) (hrun : receiveSingle J msg_type b = .ok (some c) b') :
    ∃ bundle rest, bundles = bundle :: rest ∧ Single J bundle msg_type c ∧
      Exchange w sent rest b' := by
  obtain ⟨received, b₁, hreceive, hrest⟩ := bind_eq_ok hrun
  cases received with
  | none => cases hrest
  | some received =>
    cases bundles with
    | nil => exact absurd hreceive (receive_nil h)
    | cons bundle rest =>
      obtain ⟨b₂, hreceive', h₂⟩ := receive_cons (hbundles bundle List.mem_cons_self) h
      rw [hreceive] at hreceive'
      cases hreceive'
      refine ⟨_, rest, rfl, ?_⟩
      rcases hsingle : JsonParser.deserialize_single J NEW_BUNDLES received.1 received.2
        msg_type {} with ⟨base, conglom⟩ | ⟨e, conglom⟩
      · cases base with
        | none =>
          simp only [hsingle] at hrest
          cases hrest
        | some base =>
          simp only [hsingle] at hrest
          cases hrest
          exact ⟨(deserialize_single_eq_ok.mp hsingle).1, h₂⟩
      · simp only [hsingle] at hrest
        cases hrest

end Receive

/-! ## The steps -/

section Steps

variable {J : Jsoncpp} {w : World} {sent bundles rest : List (BundleHeader × StdString)}
  {bundle response : BundleHeader × StdString} {token : StdString}
  {addAgentIds : List StdString} {b b' : Broker}

/-- `Session::write` says that it has written the bundle. -/
def Sends (bundle : BundleHeader × StdString) : Prop := toInt (Session.frame bundle).length ≠ 0

theorem makeIdResponse_ok (J : Jsoncpp) (token : StdString) :
    ∃ res, JsonParser.makeIdResponse J NEW_BUNDLES (JsonParser.serialize_begin_default {}) token =
      .ok res := ⟨_, rfl⟩

/-- A send on the open connection. -/
theorem send_ok (h : Exchange w sent bundles b) (hsends : Sends bundle) :
    ∃ b', Broker.onConn (Connection.send bundle.1 bundle.2) b = .ok true b' ∧
      Exchange w (sent ++ [bundle]) bundles b' := by
  obtain ⟨s, hsession, hopen, hinput⟩ := h.session
  obtain ⟨s', hwrite⟩ := Session.write_eq_true.mpr ⟨hopen, hsends⟩
  obtain ⟨-, hs'⟩ := Connection.write_eq_ok hwrite
  have hrun : Connection.session (Session.write bundle.1 bundle.2) b.conn =
      .ok true { b.conn with m_session := some s' } := by
    rw [Connection.session, hsession]
    simp only [hwrite]
  refine ⟨{ b with conn := { b.conn with
    m_session := some s', sent := b.conn.sent ++ [bundle] } }, ?_, ?_⟩
  · apply zoom_ok
    rw [Connection.send, bind_ok hrun]
    rfl
  · refine ⟨⟨s', rfl, ?_, ?_⟩, ?_, h.world⟩
    · rw [hs']
      exact hopen
    · rw [hs']
      exact hinput
    · rw [h.sent]

/-- A send that returns true. -/
theorem sends_of_send
    (hrun : Broker.onConn (Connection.send bundle.1 bundle.2) b = .ok true b') :
    Sends bundle := by
  obtain ⟨conn, hsend, -⟩ := zoom_eq_ok hrun
  obtain ⟨written, conn', hwritten, hret⟩ := bind_eq_ok hsend
  obtain ⟨s, s', -, hwrite, -⟩ := Connection.session_eq_ok hwritten
  cases written with
  | false => cases hret
  | true => exact (Session.write_eq_true.mp ⟨s', hwrite⟩).2

theorem sendBundle_eq {res : OngoingSerialization}
    (hend : JsonParser.serialize_end J NEW_BUNDLES res = .ok (some bundle)) (b : Broker) :
    sendBundle J res b = Broker.onConn (Connection.send bundle.1 bundle.2) b := by
  rw [sendBundle, hend]
  rfl

theorem doWhoAreYou_ok (hbundle : Session.Framed bundle)
    (h : Exchange w sent (bundle :: rest) b) (hrequest : IdRequest J bundle token)
    (hresponse : ResponseTo J token response) (hsends : Sends response) :
    ∃ b', doWhoAreYou J b = .ok true b' ∧ Exchange w (sent ++ [response]) rest b' := by
  obtain ⟨c, hc, props, value, hprops, hmember, hget, htoken⟩ := hrequest
  obtain ⟨res, hmake, hend⟩ := hresponse
  obtain ⟨b₁, hreceive, h₁⟩ := receiveSingle_cons hbundle h hc
  obtain ⟨b₂, hsend, h₂⟩ := send_ok h₁ hsends
  have hnull : props.isNull = false := by
    cases props with
    | null => cases hmember
    | _ => rfl
  refine ⟨b₂, ?_, h₂⟩
  rw [doWhoAreYou, bind_ok hreceive]
  simp only [hprops, hnull, hmember, hget, htoken, hmake, eval_ok, raiseIf_false, pure_bind_apply,
    Bool.not_true, Bool.false_eq_true, if_false]
  rw [sendBundle_eq hend]
  exact hsend

theorem doWhoAreYou_eq_true (hbundles : ∀ bundle ∈ bundles, Session.Framed bundle)
    (h : Exchange w sent bundles b) (hrun : doWhoAreYou J b = .ok true b') :
    ∃ bundle rest token response, bundles = bundle :: rest ∧ IdRequest J bundle token ∧
      ResponseTo J token response ∧ Sends response ∧ Exchange w (sent ++ [response]) rest b' := by
  obtain ⟨received, b₁, hreceive, hrun⟩ := bind_eq_ok hrun
  cases received with
  | none => cases hrun
  | some c =>
    obtain ⟨bundle, rest, rfl, hc, h₁⟩ := receiveSingle_eq_some hbundles h hreceive
    simp only [eval_bind_eq_ok, raiseIf_bind_eq_ok] at hrun
    obtain ⟨props, hprops, -, present, hmember, hrun⟩ := hrun
    cases present with
    | false => cases hrun
    | true =>
      simp only [Bool.not_true, Bool.false_eq_true, if_false, eval_bind_eq_ok] at hrun
      obtain ⟨value, hget, token, htoken, res, hmake, hrun⟩ := hrun
      have hend := JsonParser.serialize_end_new J res
      rw [sendBundle_eq hend] at hrun
      have hsends := sends_of_send hrun
      obtain ⟨b₂, hsend, h₂⟩ := send_ok h₁ hsends
      rw [hrun] at hsend
      cases hsend
      exact ⟨bundle, rest, token, _, rfl, ⟨c, hc, props, value, hprops, hmember, hget, htoken⟩,
        ⟨res, hmake, hend⟩, hsends, h₂⟩

/-- The agents of the list are made, each of the application's class. -/
theorem doAGENTS_INFO_ok {m_application : StdString} {wfd : Option WFD_Fields}
    (hclass : Creates m_application wfd) (hbundle : Session.Framed bundle)
    (h : Exchange w sent (bundle :: rest) b) (hnew : NewAgents J bundle addAgentIds) :
    ∃ b' w', doAGENTS_INFO J m_application b = .ok true b' ∧
      Registered wfd w addAgentIds w' ∧ Exchange w' sent rest b' := by
  obtain ⟨hne, c, aInfo, hc, hparse, rfl⟩ := hnew
  obtain ⟨b₁, hreceive, h₁⟩ := receiveSingle_cons hbundle h hc
  obtain ⟨w', hrun, hreg⟩ := registerAgents_ok hclass aInfo.addAgentIds w
  have hworld : Broker.onWorld (forEach (registerAgent m_application) aInfo.addAgentIds) b₁ =
      .ok () { b₁ with world := w' } := by
    apply zoom_ok
    rw [h₁.world]
    exact hrun
  obtain ⟨props, hprops, hnull⟩ : ∃ props, c.getJsonMessage 0 = .ok props ∧
      props.isNull = false := by
    rw [JsonParser.parseNewAgents, except_bind_eq_ok] at hparse
    obtain ⟨base, -, hparse⟩ := hparse
    obtain ⟨jsMsg, hjson, -⟩ := except_bind_eq_ok.mp hparse
    rw [JsonParser.jsonOf, except_bind_eq_ok] at hjson
    obtain ⟨props, hprops, hthrow⟩ := hjson
    obtain ⟨_, hnull, -⟩ := except_bind_eq_ok.mp hthrow
    exact ⟨props, hprops, throwIf_eq_ok.mp hnull⟩
  have hids : aInfo.addAgentIds.isEmpty = false := by simpa using hne
  refine ⟨{ b₁ with world := w' }, w', ?_, hreg, ⟨h₁.session, h₁.sent, rfl⟩⟩
  rw [doAGENTS_INFO, bind_ok hreceive]
  simp only [hprops, hnull, hparse, hids, eval_ok, raiseIf_false, pure_bind_apply,
    Bool.false_eq_true, if_false]
  exact (bind_ok hworld _).trans rfl

theorem doAGENTS_INFO_eq_true (hbundles : ∀ bundle ∈ bundles, Session.Framed bundle)
    (h : Exchange w sent bundles b) (hrun : doAGENTS_INFO J (str "Default") b = .ok true b') :
    ∃ bundle rest addAgentIds w', bundles = bundle :: rest ∧ NewAgents J bundle addAgentIds ∧
      Registered none w addAgentIds w' ∧ Exchange w' sent rest b' := by
  obtain ⟨received, b₁, hreceive, hrest⟩ := bind_eq_ok hrun
  cases received with
  | none => cases hrest
  | some c =>
    obtain ⟨bundle, rest, rfl, hc, -⟩ := receiveSingle_eq_some hbundles h hreceive
    simp only [eval_bind_eq_ok, raiseIf_bind_eq_ok] at hrest
    obtain ⟨props, -, -, aInfo, hparse, hrest⟩ := hrest
    split at hrest
    · cases hrest
    · rename_i hids
      have hnew : NewAgents J bundle aInfo.addAgentIds :=
        ⟨by simpa using hids, c, aInfo, hc, hparse, rfl⟩
      obtain ⟨b₂, w', hrun', hreg, h₂⟩ :=
        doAGENTS_INFO_ok (.inl ⟨rfl, rfl⟩) (hbundles bundle List.mem_cons_self) h hnew
      rw [hrun] at hrun'
      cases hrun'
      exact ⟨bundle, rest, _, w', rfl, hnew, hreg, h₂⟩

theorem doREADY_ok (hbundle : Session.Framed bundle) (h : Exchange w sent (bundle :: rest) b)
    (hack : IdAck J bundle) : ∃ b', doREADY J b = .ok true b' ∧ Exchange w sent rest b' := by
  obtain ⟨c, hc⟩ := hack
  obtain ⟨b', hreceive, h'⟩ := receiveSingle_cons hbundle h hc
  exact ⟨b', (bind_ok hreceive _).trans rfl, h'⟩

theorem doREADY_eq_true (hbundles : ∀ bundle ∈ bundles, Session.Framed bundle)
    (h : Exchange w sent bundles b) (hrun : doREADY J b = .ok true b') :
    ∃ bundle rest, bundles = bundle :: rest ∧ IdAck J bundle ∧ Exchange w sent rest b' := by
  obtain ⟨received, b₁, hreceive, hret⟩ := bind_eq_ok hrun
  cases received with
  | none => cases hret
  | some c =>
    cases hret
    obtain ⟨bundle, rest, hbundle, hc, h'⟩ := receiveSingle_eq_some hbundles h hreceive
    exact ⟨bundle, rest, hbundle, ⟨c, hc⟩, h'⟩

theorem doInitialization_ok {W : Ns3} (hW : W.Documented) (h : Exchange w sent bundles b)
    (hplain : ∀ agId ∈ w.AllAgents.keys, ∃ agent, w.AllAgents[agId]? = some (some agent) ∧
      agent.wfd = none) :
    ∃ b' w', doInitialization W b = .ok true b' ∧ Initialized W w w.AllAgents.keys w' ∧
      Exchange w' sent bundles b' := by
  obtain ⟨w', hrun, hdone⟩ := initAgents_plain hW Std.TreeMap.nodup_keys hplain
  have hworld : Broker.onWorld (initAgents W) b = .ok () { b with world := w' } := by
    apply zoom_ok
    rw [h.world, initAgents, get_bind_apply]
    exact hrun
  exact ⟨_, w', (bind_ok hworld _).trans rfl, hdone, ⟨h.session, h.sent, rfl⟩⟩

end Steps

/-! ## The handshake -/

/-- The peer asks for the id with this token, sends these agents, and acknowledges. -/
def Handshake (J : Jsoncpp) (bundles : List (BundleHeader × StdString)) (token : StdString)
    (addAgentIds : List StdString) : Prop :=
  ∃ request agents ack rest, bundles = request :: agents :: ack :: rest ∧
    IdRequest J request token ∧ NewAgents J agents addAgentIds ∧ IdAck J ack

/-- The agents are those of the list. Each is what one call of `init` makes of a new
agent, which adds one node to it and registers one callback. -/
structure RegisteredOnce (W : Ns3) (w : World) (addAgentIds : List StdString) (w' : World) :
    Prop where
  keys : ∀ agId, agId ∈ w'.AllAgents ↔ agId ∈ addAgentIds
  agents : ∀ agId ∈ addAgentIds, ∃ agent, w'.AllAgents[agId]? = some (some agent) ∧
    agent.m_AgentId = agId ∧ agent.nc.length = 1 ∧
    ∃ self v v', Agent.init W none { self := self, m_AgentId := agId } v = .ok agent v'
  callbacks : ∃ made, w'.callbacks = w.callbacks ++ made ∧ (made.map RecvCallback.id).Nodup ∧
    (∀ agId, agId ∈ made.map RecvCallback.id ↔ agId ∈ addAgentIds) ∧
    ∀ callback ∈ made, ∃ agent, w'.AllAgents[callback.id]? = some (some agent) ∧
      callback.receiver = agent.self

theorem Registered.entry_new {w w' : World} {ids : List StdString} {wfd : Option WFD_Fields}
    (h : Registered wfd w ids w') (hempty : w.AllAgents = {}) {agId : StdString}
    (hmem : agId ∈ w'.AllAgents) : agId ∈ ids ∧
      ∃ self, w'.AllAgents[agId]? =
        some (some { self := self, m_AgentId := agId, wfd := wfd }) := by
  rcases h.entry agId with hsame | hnew
  · rw [Std.TreeMap.mem_iff_isSome_getElem?, hsame, hempty] at hmem
    simp at hmem
  · exact hnew

/-- The callbacks that were made are those of the agents, in their order. -/
theorem Initialized.made {W : Ns3} {w w' : World} {ids : List StdString}
    (h : Initialized W w ids w') (hnamed : ∀ agId ∈ ids, ∀ agent,
      w'.AllAgents[agId]? = some (some agent) → agent.m_AgentId = agId) :
    ∃ made, w'.callbacks = w.callbacks ++ made ∧ made.map RecvCallback.id = ids ∧
      ∀ callback ∈ made, ∃ agent, w'.AllAgents[callback.id]? = some (some agent) ∧
        callback.receiver = agent.self := by
  obtain ⟨made, hmade, hall⟩ := h.callbacks
  have howner : List.Forall₂ (fun agId callback => agId = RecvCallback.id callback ∧
      ∃ agent, w'.AllAgents[agId]? = some (some agent) ∧ callback.receiver = agent.self)
      ids made := by
    have hmem := (List.forall₂_and_left _ _).mpr ⟨fun agId hagId => hagId, hall⟩
    apply hmem.imp
    rintro agId callback ⟨hmem, agent, hagent, hreceiver, hid⟩
    exact ⟨by rw [hid, hnamed agId hmem agent hagent], agent, hagent, hreceiver⟩
  refine ⟨made, hmade, ?_, ?_⟩
  · have heq : List.Forall₂ (· = ·) ids (made.map RecvCallback.id) :=
      List.forall₂_map_right_iff.mpr (howner.imp fun _ _ h => h.1)
    rw [List.forall₂_eq_eq_eq] at heq
    exact heq.symm
  · have hflip : List.Forall₂ (fun callback _ => (∃ agent,
        w'.AllAgents[RecvCallback.id callback]? = some (some agent) ∧
          callback.receiver = agent.self) ∧ True) made ids := by
      apply List.Forall₂.flip
      apply howner.imp
      rintro agId callback ⟨rfl, howned⟩
      exact ⟨howned, trivial⟩
    exact ((List.forall₂_and_left _ _).mp hflip).1

/-- Agents entered into an empty registry and initialised. -/
theorem registeredOnce_of_initialized {W : Ns3} {w w₁ w' : World} {addAgentIds : List StdString}
    (hempty : w.AllAgents = {}) (hreg : Registered none w addAgentIds w₁)
    (hdone : Initialized W w₁ w₁.AllAgents.keys w') : RegisteredOnce W w addAgentIds w' := by
  have hkeys : ∀ agId, agId ∈ w₁.AllAgents.keys ↔ agId ∈ addAgentIds := by
    intro agId
    rw [Std.TreeMap.mem_keys]
    exact ⟨fun hmem => (hreg.entry_new hempty hmem).1, hreg.entered agId⟩
  have hagents : ∀ agId ∈ addAgentIds, ∃ agent, w'.AllAgents[agId]? = some (some agent) ∧
      agent.m_AgentId = agId ∧ agent.nc.length = 1 ∧
      ∃ self v v', Agent.init W none { self := self, m_AgentId := agId } v = .ok agent v' := by
    intro agId hmem
    obtain ⟨before, agent, hbefore, hagent, -, v, v', hinit, hset⟩ :=
      hdone.agents agId ((hkeys agId).mpr hmem)
    obtain ⟨-, self, hnew⟩ := hreg.entry_new hempty (hreg.entered agId hmem)
    rw [hnew] at hbefore
    cases hbefore
    exact ⟨agent, hagent, hset.id, by rw [hset.nc]; rfl, self, v, v', hinit⟩
  refine ⟨fun agId => ⟨fun hmem => ?_, fun hmem => ?_⟩, hagents, ?_⟩
  · by_contra hnot
    have hsame := hdone.others agId (mt (hkeys agId).mp hnot)
    rw [Std.TreeMap.mem_iff_isSome_getElem?, hsame, ← Std.TreeMap.mem_iff_isSome_getElem?] at hmem
    exact hnot (hreg.entry_new hempty hmem).1
  · obtain ⟨agent, hagent, -⟩ := hagents agId hmem
    rw [Std.TreeMap.mem_iff_isSome_getElem?, hagent]
    rfl
  · have hnamed : ∀ agId ∈ w₁.AllAgents.keys, ∀ agent,
        w'.AllAgents[agId]? = some (some agent) → agent.m_AgentId = agId := by
      intro agId hmem agent hagent
      obtain ⟨other, hother, hid, -⟩ := hagents agId ((hkeys agId).mp hmem)
      rw [hagent] at hother
      cases hother
      exact hid
    obtain ⟨made, hmade, hids, howned⟩ := hdone.made hnamed
    refine ⟨made, by rw [hmade, hreg.callbacks], ?_, ?_, howned⟩
    · rw [hids]
      exact Std.TreeMap.nodup_keys
    · intro agId
      rw [hids]
      exact hkeys agId

section Start

variable {W : Ns3} {J : Jsoncpp} {peer : Peer} {bundles : List (BundleHeader × StdString)}
  {b b' : Broker}

/-- A guard of `start` holds. -/
theorem guard_ok {σ : Type} {x y : Call σ Bool} {s t : σ} (h : x s = .ok true t) :
    (x >>= fun r => if (!r) = true then pure false else y) s = y t :=
  (bind_ok h _).trans rfl

theorem exchange_connected (hpeer : peer.octets = (bundles.map Session.frame).flatten)
    (hfresh : (b.conn.m_session.getD {}).input = []) :
    Exchange b.world b.conn.sent bundles (connectedTo peer b) := by
  refine ⟨⟨_, rfl, rfl, ?_⟩, rfl, rfl⟩
  rw [hfresh, hpeer, List.nil_append]

/-- What a registration that returned true has gone through. -/
structure Completed (W : Ns3) (J : Jsoncpp) (peer : Peer)
    (bundles : List (BundleHeader × StdString)) (b b' : Broker) (token : StdString)
    (response : BundleHeader × StdString) (addAgentIds : List StdString) : Prop where
  handshake : Handshake J bundles token addAgentIds
  responds : ResponseTo J token response
  /-- the response is sent when the second bundle has not been read -/
  answered : ∃ b₁ b₂, doConnect peer 200 0 b = .ok true b₁ ∧ doWhoAreYou J b₁ = .ok true b₂ ∧
    Exchange b.world (b.conn.sent ++ [response]) bundles.tail b₂
  sent : b'.conn.sent = b.conn.sent ++ [response]
  agents : RegisteredOnce W b.world addAgentIds b'.world

theorem start_eq_true (hW : W.Documented)
    (hpeer : peer.octets = (bundles.map Session.frame).flatten)
    (hbundles : ∀ bundle ∈ bundles, Session.Framed bundle)
    (hfresh : (b.conn.m_session.getD {}).input = []) (hempty : b.world.AllAgents = {})
    (h : start J peer (str "Default") (doInitialization W) b = .ok true b') :
    Answered peer 200 0 ∧ ∃ token response addAgentIds, Sends response ∧
      Completed W J peer bundles b b' token response addAgentIds := by
  obtain ⟨b₁, hconnect, h⟩ := bind_guard h
  obtain ⟨b₂, hwho, h⟩ := bind_guard h
  obtain ⟨b₃, hagents, h⟩ := bind_guard h
  obtain ⟨b₄, hinit, h⟩ := bind_guard h
  obtain ⟨b₅, hready, h⟩ := bind_guard h
  cases h
  obtain ⟨hanswered, rfl⟩ := doConnect_eq_true.mp hconnect
  obtain ⟨request, rest₁, token, response, rfl, hrequest, hresponse, hsends, h₂⟩ :=
    doWhoAreYou_eq_true hbundles (exchange_connected hpeer hfresh) hwho
  have hbundles₁ := (List.forall_mem_cons.mp hbundles).2
  obtain ⟨agents, rest₂, addAgentIds, w₁, rfl, hnew, hreg, h₃⟩ :=
    doAGENTS_INFO_eq_true hbundles₁ h₂ hagents
  have hbundles₂ := (List.forall_mem_cons.mp hbundles₁).2
  obtain ⟨b₄', w', hinit', hdone, h₄⟩ := doInitialization_ok hW h₃ (by
    intro agId hmem
    obtain ⟨-, self, hnew⟩ := hreg.entry_new hempty (Std.TreeMap.mem_keys.mp hmem)
    exact ⟨_, hnew, rfl⟩)
  rw [hinit] at hinit'
  cases hinit'
  obtain ⟨ack, rest₃, rfl, hack, h₅⟩ := doREADY_eq_true hbundles₂ h₄ hready
  refine ⟨hanswered, token, response, addAgentIds, hsends, ?_⟩
  exact
    { handshake := ⟨request, agents, ack, rest₃, rfl, hrequest, hnew, hack⟩
      responds := hresponse
      answered := ⟨_, b₂, hconnect, hwho, h₂⟩
      sent := h₅.sent
      agents := by
        rw [h₅.world]
        exact registeredOnce_of_initialized hempty hreg hdone }

theorem start_ok {token : StdString} {response : BundleHeader × StdString}
    {addAgentIds : List StdString} (hW : W.Documented)
    (hpeer : peer.octets = (bundles.map Session.frame).flatten)
    (hbundles : ∀ bundle ∈ bundles, Session.Framed bundle)
    (hfresh : (b.conn.m_session.getD {}).input = []) (hempty : b.world.AllAgents = {})
    (hanswered : Answered peer 200 0) (hhandshake : Handshake J bundles token addAgentIds)
    (hresponse : ResponseTo J token response) (hsends : Sends response) :
    ∃ b', start J peer (str "Default") (doInitialization W) b = .ok true b' := by
  obtain ⟨request, agents, ack, rest, rfl, hrequest, hnew, hack⟩ := hhandshake
  obtain ⟨hframed, hbundles₁⟩ := List.forall_mem_cons.mp hbundles
  obtain ⟨hframed₁, hbundles₂⟩ := List.forall_mem_cons.mp hbundles₁
  obtain ⟨hframed₂, -⟩ := List.forall_mem_cons.mp hbundles₂
  obtain ⟨b₂, hwho, h₂⟩ := doWhoAreYou_ok hframed (exchange_connected hpeer hfresh) hrequest
    hresponse hsends
  obtain ⟨b₃, w₁, hagents, hreg, h₃⟩ :=
    doAGENTS_INFO_ok (.inl ⟨rfl, rfl⟩) hframed₁ h₂ hnew
  obtain ⟨b₄, w', hinit, -, h₄⟩ := doInitialization_ok hW h₃ (by
    intro agId hmem
    obtain ⟨-, self, hnew⟩ := hreg.entry_new hempty (Std.TreeMap.mem_keys.mp hmem)
    exact ⟨_, hnew, rfl⟩)
  obtain ⟨b₅, hready, -⟩ := doREADY_ok hframed₂ h₄ hack
  refine ⟨b₅, ?_⟩
  rw [start, guard_ok (doConnect_eq_true.mpr ⟨hanswered, rfl⟩), guard_ok hwho, guard_ok hagents,
    guard_ok hinit, guard_ok hready]
  rfl

/-- The handshake, as it is meant: a registration as `Default` returns true exactly when
the peer answers and its first three bundles are the handshake; one bundle was then sent,
the response with the token of the request, and the agents of the list are set up. -/
def HandshakeMet (W : Ns3) (J : Jsoncpp) (peer : Peer) (bundles : List (BundleHeader × StdString))
    (b : Broker) : Prop :=
  ((∃ b', start J peer (str "Default") (doInitialization W) b = .ok true b') ↔
    Answered peer 200 0 ∧ ∃ token addAgentIds, Handshake J bundles token addAgentIds) ∧
  ∀ b', start J peer (str "Default") (doInitialization W) b = .ok true b' →
    ∃ token response addAgentIds, Completed W J peer bundles b b' token response addAgentIds ∧
      IdResponse J response token

/-- A registration as `Default` returns true exactly when the peer answers and its first
three bundles are the handshake. -/
theorem start_iff (hW : W.Documented)
    (hpeer : peer.octets = (bundles.map Session.frame).flatten)
    (hbundles : ∀ bundle ∈ bundles, Session.Framed bundle)
    (hfresh : (b.conn.m_session.getD {}).input = []) (hempty : b.world.AllAgents = {})
    (hsends : ∀ request ∈ bundles.head?, ∀ token response, IdRequest J request token →
      ResponseTo J token response → Sends response) :
    (∃ b', start J peer (str "Default") (doInitialization W) b = .ok true b') ↔
      Answered peer 200 0 ∧ ∃ token addAgentIds, Handshake J bundles token addAgentIds := by
  constructor
  · rintro ⟨b', h⟩
    obtain ⟨hanswered, token, response, addAgentIds, -, hdone⟩ :=
      start_eq_true hW hpeer hbundles hfresh hempty h
    exact ⟨hanswered, token, addAgentIds, hdone.handshake⟩
  · rintro ⟨hanswered, token, addAgentIds, hhandshake⟩
    obtain ⟨res, hmake⟩ := makeIdResponse_ok J token
    have hresponse : ResponseTo J token _ := ⟨res, hmake, JsonParser.serialize_end_new J res⟩
    have hrequest : ∃ request ∈ bundles.head?, IdRequest J request token := by
      obtain ⟨request, agents, ack, rest, rfl, hrequest, -⟩ := hhandshake
      exact ⟨request, rfl, hrequest⟩
    obtain ⟨request, hhead, hrequest⟩ := hrequest
    exact start_ok hW hpeer hbundles hfresh hempty hanswered hhandshake hresponse
      (hsends request hhead token _ hrequest hresponse)

/-- There is one token in each handshake. -/
theorem Handshake.unique {token token' : StdString} {addAgentIds addAgentIds' : List StdString}
    (h : Handshake J bundles token addAgentIds) (h' : Handshake J bundles token' addAgentIds') :
    token = token' := by
  obtain ⟨request, agents, ack, rest, rfl, hrequest, -⟩ := h
  obtain ⟨request', agents', ack', rest', hbundles, hrequest', -⟩ := h'
  cases hbundles
  exact hrequest.unique hrequest'

/-- Where a registration returns true, its token is carried. -/
theorem carried_of_met (hJ : J.ReadsBack) (htr : J.RefusesTruncated) {token : StdString}
    {addAgentIds : List StdString} (h : HandshakeMet W J peer bundles b)
    (hstart : start J peer (str "Default") (doInitialization W) b = .ok true b')
    (hhandshake : Handshake J bundles token addAgentIds) : Carried J token := by
  obtain ⟨token', response, addAgentIds', hdone, hresponse⟩ := h.2 b' hstart
  obtain rfl := hhandshake.unique hdone.handshake
  exact (hdone.responds.carries_iff hJ htr).mp hresponse

/-- A registration as `Default` goes as it is meant exactly when the token of a handshake
that takes place has no NUL and its response fits its length. -/
theorem registration_handshake_iff (hW : W.Documented) (hJ : J.ReadsBack)
    (htr : J.RefusesTruncated)
    (hpeer : peer.octets = (bundles.map Session.frame).flatten)
    (hbundles : ∀ bundle ∈ bundles, Session.Framed bundle)
    (hfresh : (b.conn.m_session.getD {}).input = []) (hempty : b.world.AllAgents = {})
    (hsends : ∀ request ∈ bundles.head?, ∀ token response, IdRequest J request token →
      ResponseTo J token response → Sends response) :
    HandshakeMet W J peer bundles b ↔
      (Answered peer 200 0 → ∀ token addAgentIds, Handshake J bundles token addAgentIds →
        Carried J token) := by
  have hiff := start_iff hW hpeer hbundles hfresh hempty hsends
  constructor
  · intro h hanswered token addAgentIds hhandshake
    obtain ⟨b', hstart⟩ := hiff.mpr ⟨hanswered, token, addAgentIds, hhandshake⟩
    exact carried_of_met hJ htr h hstart hhandshake
  · intro hcarried
    refine ⟨hiff, fun b' hstart => ?_⟩
    obtain ⟨hanswered, token, response, addAgentIds, -, hdone⟩ :=
      start_eq_true hW hpeer hbundles hfresh hempty hstart
    exact ⟨token, response, addAgentIds, hdone, (hdone.responds.carries_iff hJ htr).mpr
      (hcarried hanswered token addAgentIds hdone.handshake)⟩

/-- A registration that returned true has sent its response. -/
theorem sends_of_start (hW : W.Documented)
    (hpeer : peer.octets = (bundles.map Session.frame).flatten)
    (hbundles : ∀ bundle ∈ bundles, Session.Framed bundle)
    (hfresh : (b.conn.m_session.getD {}).input = []) (hempty : b.world.AllAgents = {})
    (h : start J peer (str "Default") (doInitialization W) b = .ok true b') :
    ∀ request ∈ bundles.head?, ∀ token response, IdRequest J request token →
      ResponseTo J token response → Sends response := by
  intro request hhead token response hrequest hresponse
  obtain ⟨-, token', response', addAgentIds, hsends, hdone⟩ :=
    start_eq_true hW hpeer hbundles hfresh hempty h
  obtain ⟨request', agents, ack, rest, rfl, hrequest', -⟩ := hdone.handshake
  cases hhead
  obtain rfl := hrequest.unique hrequest'
  rwa [hresponse.unique hdone.responds]

end Start

/-- The bundle of one message. -/
def bundled (message : StdString) : BundleHeader × StdString :=
  ({ messageCount := 1, remLen := UInt32.ofNat (message.length + 3) },
    JsonParser.lengthOctets (UInt32.ofNat message.length) ++ message)

/-- The bundles of a handshake with this text of a token, for the agents `1` and `2`. -/
def handshakeBundles (token : String) : List (BundleHeader × StdString) :=
  [ bundled (str "\x7b\"msg_type\":\"id_request\",\"token\":\"" ++ str token ++ str "\"\x7d")
  , bundled (str "\x7b\"add\":[\"1\",\"2\"],\"msg_type\":\"new_agents\"\x7d")
  , bundled (str "\x7b\"msg_type\":\"id_ack\"\x7d") ]

/-- A list of bundles whose headers say what their bodies are. -/
def allFramed (bundles : List (BundleHeader × StdString)) : Bool :=
  bundles.all fun bundle =>
    (0 ≤ bundle.1.sendIdLen && bundle.1.sendIdLen ≤ 255) &&
    (0 ≤ bundle.1.destIdLen && bundle.1.destIdLen ≤ 255) &&
    (0 ≤ bundle.1.messageCount && bundle.1.messageCount ≤ 255) &&
    bundle.1.remLen.toNat == bundle.2.length && 1 ≤ bundle.2.length

theorem framed_of_all {bundles : List (BundleHeader × StdString)}
    (h : allFramed bundles = true) : ∀ bundle ∈ bundles, Session.Framed bundle := by
  intro bundle hmem
  have hframed := List.all_eq_true.mp h bundle hmem
  simp only [Bool.and_eq_true, decide_eq_true_eq, beq_iff_eq] at hframed
  obtain ⟨⟨⟨⟨hsend, hdest⟩, hcount⟩, hlen⟩, hpos⟩ := hframed
  exact ⟨⟨hsend, hdest, hcount⟩, hlen, hpos⟩

/-- Sim Mobility at the first attempt, with these bundles. -/
def peerOf (bundles : List (BundleHeader × StdString)) : Peer where
  answers _ := (true, true)
  octets := (bundles.map Session.frame).flatten

theorem registration_handshake_iff_two :
    HandshakeMet Ns3.reference Jsoncpp.reference (peerOf (handshakeBundles "t"))
        (handshakeBundles "t") Broker.make ↔
      (Answered (peerOf (handshakeBundles "t")) 200 0 → ∀ token addAgentIds,
        Handshake Jsoncpp.reference (handshakeBundles "t") token addAgentIds →
        Carried Jsoncpp.reference token) := by
  have hstart : value (start Jsoncpp.reference (peerOf (handshakeBundles "t")) (str "Default")
      (doInitialization Ns3.reference) Broker.make) = some true := by decide +kernel
  have hframed : ∀ bundle ∈ handshakeBundles "t", Session.Framed bundle :=
    framed_of_all (by decide +kernel)
  exact registration_handshake_iff Ns3.reference_documented Jsoncpp.reference_readsBack
    Jsoncpp.reference_refusesTruncated rfl hframed rfl rfl
    (sends_of_start Ns3.reference_documented rfl hframed rfl rfl (eq_ok_of_value hstart))

/-- The request for the token `a`, NUL, `b`. -/
def nulRequest : BundleHeader × StdString :=
  bundled (str "\x7b\"msg_type\":\"id_request\",\"token\":\"" ++ str "a\\u0000b" ++
    str "\"\x7d")

theorem nulRequest_token : IdRequest Jsoncpp.reference nulRequest [97, 0, 98] := by
  have hdecoded : value (JsonParser.deserialize Jsoncpp.reference NEW_BUNDLES nulRequest.1
      nulRequest.2 {}) = some true := by decide +kernel
  refine ⟨_, ⟨eq_ok_of_value hdecoded, ?_, ?_⟩, .object
    [ (str "msg_type", .string (str "id_request"))
    , (str "token", .string [97, 0, 98]) ], .string [97, 0, 98], ?_, rfl, rfl, rfl⟩
  · decide +kernel
  · decide +kernel
  · decide +kernel

/-- The request has the token `a`, NUL, `b`; the response has the token `a`. -/
theorem registration_cuts_token :
    (∀ bundle ∈ handshakeBundles "a\\u0000b", Session.Framed bundle) ∧
      (∃ b', start Jsoncpp.reference (peerOf (handshakeBundles "a\\u0000b")) (str "Default")
        (doInitialization Ns3.reference) Broker.make = .ok true b') ∧
      ¬ HandshakeMet Ns3.reference Jsoncpp.reference (peerOf (handshakeBundles "a\\u0000b"))
        (handshakeBundles "a\\u0000b") Broker.make := by
  have hstart : value (start Jsoncpp.reference (peerOf (handshakeBundles "a\\u0000b"))
      (str "Default") (doInitialization Ns3.reference) Broker.make) = some true := by
    decide +kernel
  have hrun : start Jsoncpp.reference (peerOf (handshakeBundles "a\\u0000b")) (str "Default")
      (doInitialization Ns3.reference) Broker.make = .ok true _ := eq_ok_of_value hstart
  refine ⟨framed_of_all (by decide +kernel), ⟨_, hrun⟩, fun h => ?_⟩
  obtain ⟨token, response, addAgentIds, hdone, -⟩ := h.2 _ hrun
  have hcarried : Carried Jsoncpp.reference token :=
    carried_of_met Jsoncpp.reference_readsBack Jsoncpp.reference_refusesTruncated h hrun
      hdone.handshake
  obtain ⟨request, agents, ack, rest, hbundles, hrequest, -⟩ := hdone.handshake
  cases hbundles
  obtain rfl := nulRequest_token.unique hrequest
  exact absurd hcarried.noNul (by decide)

end Registration
end Sm4ns3
