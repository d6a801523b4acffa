import Sm4ns3.Verify.Networks
import Sm4ns3.Verify.SystemRuns

/-!
# From the start of the broker to any later state

`Talks` says of a part of the registration which bundles it reads and which it sends;
the parts are put together by `Talks.trans`. After a start that returned true the
system is ready, so that the whole of the conversation with Sim Mobility is known
(`whole_conversation`): what the registration read and sent comes first, then what the
rounds did.
-/

namespace Sm4ns3

open Bytes Cpp Call

namespace Session

/-- What `read` takes from the stream is one bundle. -/
theorem read_eq_some {s s' : Session} {bundle : BundleHeader × StdString}
    (h : read s = .ok (some bundle) s') :
    Framed bundle ∧ s.input = frame bundle ++ s'.input ∧ s'.is_open = s.is_open ∧
      s'.output = s.output ∧ s'.pending = s.pending := by
  unfold read at h
  rcases readExactly_cases header_length s with hread | ⟨octets, rest, hlen, hinput, hread⟩
  · rw [bind_ok hread] at h
    cases h
  rw [bind_ok hread] at h
  simp only [modify_bind_apply, eval_bind_eq_ok] at h
  obtain ⟨header, hheader, h⟩ := h
  split at h
  · cases h
  rename_i hannounced
  rcases readExactly_cases header.remLen.toNat
    { s with input := rest, inbound_header_ := octets } with
      hbody | ⟨t, rest', ht, hrest, hbody⟩
  · rw [bind_ok hbody] at h
    cases h
  rw [bind_ok hbody] at h
  simp only [modify_bind_apply] at h
  split at h
  · cases h
  cases h
  have hpos : 0 < t.length := by
    rw [ht]
    exact Nat.pos_of_ne_zero fun hzero => hannounced (UInt32.toNat_inj.mp hzero)
  refine ⟨⟨BundleParser.fits_of_read hheader, ht.symm, hpos⟩, ?_, rfl, rfl, rfl⟩
  rw [frame, BundleParser.make_of_read hlen hheader, List.append_assoc, hinput]
  exact congrArg (octets ++ ·) hrest

end Session

/-! ## What a part of the registration reads and sends -/

/-- Between the two brokers these bundles were read and these sent; besides the
connection at most the agents changed. -/
structure Talks (received sent : List (BundleHeader × StdString)) (b b' : Broker) : Prop where
  session : ∀ s, b.conn.m_session = some s → ∃ s', b'.conn.m_session = some s' ∧
    s'.is_open = s.is_open ∧ s'.pending = s.pending ∧
    s.input = (received.map Session.frame).flatten ++ s'.input ∧
    s'.output = s.output ++ (sent.map Session.frame).flatten
  framed : ∀ bundle ∈ received, Session.Framed bundle
  history : b'.conn.sent = b.conn.sent ++ sent
  others : ∃ conn world, b' = { b with conn := conn, world := world }

namespace Talks

variable {received received' sent sent' : List (BundleHeader × StdString)} {b b₁ b' : Broker}

theorem trans (h : Talks received sent b b₁) (h' : Talks received' sent' b₁ b') :
    Talks (received ++ received') (sent ++ sent') b b' where
  session := by
    intro s hs
    obtain ⟨s₁, hs₁, hopen₁, hpending₁, hin₁, hout₁⟩ := h.session s hs
    obtain ⟨s', hs', hopen', hpending', hin', hout'⟩ := h'.session s₁ hs₁
    refine ⟨s', hs', hopen'.trans hopen₁, hpending'.trans hpending₁, ?_, ?_⟩
    · rw [hin₁, hin', List.map_append, List.flatten_append, List.append_assoc]
    · rw [hout', hout₁, List.map_append, List.flatten_append, List.append_assoc]
  framed := by
    intro bundle hmem
    rcases List.mem_append.mp hmem with hmem | hmem
    · exact h.framed bundle hmem
    · exact h'.framed bundle hmem
  history := by rw [h'.history, h.history, List.append_assoc]
  others := by
    obtain ⟨conn, world, rfl⟩ := h.others
    obtain ⟨conn', world', rfl⟩ := h'.others
    exact ⟨conn', world', rfl⟩

theorem onWorld {α : Type} {x : Call World α} {a : α} (h : Broker.onWorld x b = .ok a b') :
    Talks [] [] b b' := by
  obtain ⟨world, -, rfl⟩ := zoom_eq_ok h
  exact ⟨fun s hs => ⟨s, hs, rfl, rfl, rfl, (List.append_nil _).symm⟩,
    fun _ hmem => absurd hmem List.not_mem_nil, (List.append_nil _).symm, b.conn, world, rfl⟩

theorem receive {bundle : BundleHeader × StdString}
    (h : Broker.onConn Connection.receive b = .ok (some bundle) b') : Talks [bundle] [] b b' := by
  obtain ⟨conn, hreceive, rfl⟩ := zoom_eq_ok h
  obtain ⟨s, s', hs, hread, rfl⟩ := Connection.session_eq_ok hreceive
  obtain ⟨hframed, hinput, hopen, hout, hpending⟩ := Session.read_eq_some hread
  constructor
  · intro s₀ hs₀
    rw [hs] at hs₀
    cases hs₀
    exact ⟨s', rfl, hopen, hpending, by simpa using hinput, by simpa using hout⟩
  · intro other hmem
    rwa [List.mem_singleton.mp hmem]
  · exact (List.append_nil _).symm
  · exact ⟨_, b.world, rfl⟩

theorem send {bundle : BundleHeader × StdString}
    (h : Broker.onConn (Connection.send bundle.1 bundle.2) b = .ok true b') :
    Talks [] [bundle] b b' := by
  obtain ⟨conn, hsend, rfl⟩ := zoom_eq_ok h
  obtain ⟨written, c₁, hwritten, hret⟩ := bind_eq_ok hsend
  obtain ⟨s, s', hs, hwrite, rfl⟩ := Connection.session_eq_ok hwritten
  obtain ⟨-, rfl⟩ := Connection.write_eq_ok hwrite
  cases written with
  | false => cases hret
  | true =>
    cases hret
    constructor
    · intro s₀ hs₀
      rw [hs] at hs₀
      cases hs₀
      exact ⟨_, rfl, rfl, rfl, rfl, by simp [Session.frame]⟩
    · exact fun _ hmem => absurd hmem List.not_mem_nil
    · rfl
    · exact ⟨_, b.world, rfl⟩

end Talks

/-! ## The parts -/

namespace Registration

variable {W : Ns3} {J : Jsoncpp} {b b' : Broker}

theorem receiveSingle_talks {msg_type : StdString} {c : MessageConglomerate}
    (h : receiveSingle J msg_type b = .ok (some c) b') :
    ∃ bundle, Single J bundle msg_type c ∧ Talks [bundle] [] b b' := by
  obtain ⟨received, b₁, hreceive, h⟩ := bind_eq_ok h
  cases received with
  | none => cases h
  | some bundle =>
    rcases hsingle : JsonParser.deserialize_single J NEW_BUNDLES bundle.1 bundle.2
      msg_type {} with ⟨base, conglom⟩ | ⟨e, conglom⟩
    · cases base with
      | none =>
        simp only [hsingle] at h
        cases h
      | some base =>
        simp only [hsingle] at h
        cases h
        exact ⟨bundle, (deserialize_single_eq_ok.mp hsingle).1, Talks.receive hreceive⟩
    · simp only [hsingle] at h
      cases h

theorem doWhoAreYou_talks (h : doWhoAreYou J b = .ok true b') :
    ∃ request token response, IdRequest J request token ∧ ResponseTo J token response ∧
      Talks [request] [response] b b' := by
  obtain ⟨received, b₁, hreceive, h⟩ := bind_eq_ok h
  cases received with
  | none => cases h
  | some c =>
    obtain ⟨request, hc, htalks⟩ := receiveSingle_talks hreceive
    simp only [eval_bind_eq_ok, raiseIf_bind_eq_ok] at h
    obtain ⟨props, hprops, -, present, hmember, h⟩ := h
    cases present with
    | false => cases h
    | true =>
      simp only [Bool.not_true, Bool.false_eq_true, if_false, eval_bind_eq_ok] at h
      obtain ⟨value, hget, token, htoken, res, hmake, h⟩ := h
      have hend := JsonParser.serialize_end_new J res
      rw [sendBundle_eq hend] at h
      exact ⟨request, token, _, ⟨c, hc, props, value, hprops, hmember, hget, htoken⟩,
        ⟨res, hmake, hend⟩, htalks.trans (Talks.send h)⟩

theorem doAGENTS_INFO_talks {m_application : StdString}
    (h : doAGENTS_INFO J m_application b = .ok true b') :
    ∃ agents addAgentIds, NewAgents J agents addAgentIds ∧
      forEach (registerAgent m_application) addAgentIds b.world = .ok () b'.world ∧
      Talks [agents] [] b b' := by
  obtain ⟨received, b₁, hreceive, h⟩ := bind_eq_ok h
  have hworld : b₁.world = b.world := (world_receiveSingle _).ok rfl hreceive
  cases received with
  | none => cases h
  | some c =>
    obtain ⟨agents, hc, htalks⟩ := receiveSingle_talks hreceive
    simp only [eval_bind_eq_ok, raiseIf_bind_eq_ok] at h
    obtain ⟨props, -, -, aInfo, hparse, h⟩ := h
    split at h
    · cases h
    rename_i hids
    obtain ⟨_, b₂, hrun, h⟩ := bind_eq_ok h
    cases h
    refine ⟨agents, aInfo.addAgentIds, ⟨by simpa using hids, c, aInfo, hc, hparse, rfl⟩, ?_,
      htalks.trans (Talks.onWorld hrun)⟩
    rw [← hworld]
    exact onWorld_eq_ok hrun

theorem doREADY_talks (h : doREADY J b = .ok true b') :
    ∃ ack, IdAck J ack ∧ Talks [ack] [] b b' := by
  obtain ⟨received, b₁, hreceive, h⟩ := bind_eq_ok h
  cases received with
  | none => cases h
  | some c =>
    cases h
    obtain ⟨ack, hc, htalks⟩ := receiveSingle_talks hreceive
    exact ⟨ack, ⟨c, hc⟩, htalks⟩

theorem doInitialization_talks {r : Bool} (h : doInitialization W b = .ok r b') :
    Talks [] [] b b' := by
  obtain ⟨_, b₁, hrun, h⟩ := bind_eq_ok h
  cases h
  exact Talks.onWorld hrun

/-- The peer is told the group, and nothing is read. -/
theorem wfd_doInitialization_talks {w : World} {addAgentIds : List StdString}
    (hempty : w.AllAgents = {}) (hnone : NoGroups w) (hids : addAgentIds ≠ [])
    (hmade : forEach (registerAgent (str "stk")) addAgentIds w = .ok () b.world)
    (h : WFD_Registration.onNew (WFD_Registration.doInitialization W J) b = .ok true b') :
    ∃ GO clients bundle, Announcement J addAgentIds bundle ∧
      (∀ agId, agId ∈ GO :: clients ↔ agId ∈ addAgentIds) ∧
      Networks W w GO clients b'.world ∧ Talks [] [bundle] b b' := by
  obtain ⟨w', hmade', hreg⟩ := registerAgents_ok (.inr ⟨rfl, rfl⟩) addAgentIds w
  rw [hmade] at hmade'
  cases hmade'
  obtain ⟨GO, clients, groups, bundle, w₁, w₂, hgroup, hannounces, hnetworks, hinit, hsteps⟩ :=
    wfd_doInitialization_steps (W := W) (J := J) hempty hnone hids hreg
      (registerAgents_others (.inr ⟨rfl, rfl⟩) hmade)
  obtain ⟨b₁, hsend, rfl⟩ := (hsteps b').mp h
  refine ⟨GO, clients, bundle, ⟨GO, clients, groups, hgroup, hannounces⟩, hgroup.2.2, hnetworks, ?_⟩
  have htalks := (doInitialization_talks hinit).trans (Talks.send hsend)
  obtain ⟨conn, world, rfl⟩ := htalks.others
  exact ⟨htalks.session, htalks.framed, htalks.history, conn, w₂, rfl⟩

/-- The steps of `start` between connecting and its end. -/
theorem start_talks {peer : Peer} {m_application : StdString}
    {doInitialization : Call Broker Bool}
    {P : List StdString → List (BundleHeader × StdString) → World → Prop}
    (hinitialized : ∀ addAgentIds b₁ b₂, addAgentIds ≠ [] →
      forEach (registerAgent m_application) addAgentIds b.world = .ok () b₁.world →
      doInitialization b₁ = .ok true b₂ →
      ∃ more, P addAgentIds more b₂.world ∧ Talks [] more b₁ b₂)
    (h : start J peer m_application doInitialization b = .ok true b') :
    Answered peer 200 0 ∧ ∃ token addAgentIds request agents ack response more,
      IdRequest J request token ∧ NewAgents J agents addAgentIds ∧ IdAck J ack ∧
      ResponseTo J token response ∧ P addAgentIds more b'.world ∧
      Talks [request, agents, ack] (response :: more) (connectedTo peer b) b' := by
  obtain ⟨b₁, hconnect, h⟩ := bind_guard h
  obtain ⟨b₂, hwho, h⟩ := bind_guard h
  obtain ⟨b₃, hagents, h⟩ := bind_guard h
  obtain ⟨b₄, hinit, h⟩ := bind_guard h
  obtain ⟨b₅, hready, h⟩ := bind_guard h
  cases h
  obtain ⟨hanswered, rfl⟩ := doConnect_eq_true.mp hconnect
  have hworld : b₂.world = (connectedTo peer b).world := world_doWhoAreYou.ok rfl hwho
  obtain ⟨request, token, response, hrequest, hresponse, htalks₁⟩ := doWhoAreYou_talks hwho
  obtain ⟨agents, addAgentIds, hnew, hmade, htalks₂⟩ := doAGENTS_INFO_talks hagents
  rw [hworld] at hmade
  obtain ⟨more, hmore, htalks₃⟩ := hinitialized addAgentIds b₃ b₄ hnew.1 hmade hinit
  obtain ⟨ack, hack, htalks₄⟩ := doREADY_talks hready
  have hlast : b'.world = b₄.world := world_doREADY.ok rfl hready
  refine ⟨hanswered, token, addAgentIds, request, agents, ack, response, more, hrequest, hnew,
    hack, hresponse, hlast ▸ hmore, ?_⟩
  simpa using (htalks₁.trans htalks₂).trans (htalks₃.trans htalks₄)

/-- What a registration reads and sends. -/
def Registers (J : Jsoncpp) (application : StdString)
    (received sent : List (BundleHeader × StdString)) : Prop :=
  ∃ token addAgentIds request agents ack response,
    received = [request, agents, ack] ∧ IdRequest J request token ∧
    NewAgents J agents addAgentIds ∧ IdAck J ack ∧ ResponseTo J token response ∧
    ((application = str "Default" ∧ sent = [response]) ∨
      application = str "stk" ∧ ∃ bundle, Announcement J addAgentIds bundle ∧
        sent = [response, bundle])

theorem register_talks {peer : Peer} {application : StdString} (hempty : b.world.AllAgents = {})
    (hnone : NoGroups b.world) (h : Broker.register W J peer application b = .ok true b') :
    ∃ received sent, Registers J application received sent ∧
      Talks received sent (connectedTo peer b) b' := by
  unfold Broker.register at h
  split at h
  · rename_i happ
    obtain ⟨-, token, ids, request, agents, ack, response, more, hrequest, hnew, hack, hresponse,
      rfl, htalks⟩ := start_talks (P := fun _ more _ => more = [])
        (fun _ _ _ _ _ hinit => ⟨[], rfl, doInitialization_talks hinit⟩) h
    exact ⟨_, _, ⟨token, ids, request, agents, ack, response, rfl, hrequest, hnew, hack,
      hresponse, .inl ⟨happ, rfl⟩⟩, htalks⟩
  · split at h
    · rename_i happ
      obtain ⟨-, token, ids, request, agents, ack, response, more, hrequest, hnew, hack, hresponse,
        ⟨bundle, hannounced, rfl⟩, htalks⟩ := start_talks
          (P := fun ids more _ => ∃ bundle, Announcement J ids bundle ∧ more = [bundle])
          (fun ids b₁ b₂ hids hmade hinit => by
            obtain ⟨-, -, bundle, hannounced, -, -, htalks⟩ :=
              wfd_doInitialization_talks hempty hnone hids hmade hinit
            exact ⟨_, ⟨bundle, hannounced, rfl⟩, htalks⟩) h
      exact ⟨_, _, ⟨token, ids, request, agents, ack, response, rfl, hrequest, hnew, hack,
        hresponse, .inr ⟨happ, bundle, hannounced, rfl⟩⟩, htalks⟩
    · cases h

/-! ## WiFi-Direct -/

section Stk

variable {peer : Peer} {bundles : List (BundleHeader × StdString)}

/-- `start` as `stk`. -/
def stkStart (W : Ns3) (J : Jsoncpp) (peer : Peer) : Call Broker Bool :=
  start J peer (str "stk") (WFD_Registration.onNew (WFD_Registration.doInitialization W J))

/-- What a registration as `stk` leaves: two bundles were sent, the response and the group, and
the agents of the group have their networks. -/
structure StkCompleted (W : Ns3) (J : Jsoncpp) (bundles : List (BundleHeader × StdString))
    (b b' : Broker) (token : StdString) (addAgentIds : List StdString) : Prop where
  handshake : Handshake J bundles token addAgentIds
  sent : ∃ response announcement, ResponseTo J token response ∧
    Announcement J addAgentIds announcement ∧ b'.conn.sent = b.conn.sent ++ [response, announcement]
  networks : ∃ GO clients, (∀ agId, agId ∈ GO :: clients ↔ agId ∈ addAgentIds) ∧
    Networks W b.world GO clients b'.world

theorem stkStart_eq_true (hpeer : peer.octets = (bundles.map Session.frame).flatten)
    (hbundles : ∀ bundle ∈ bundles, Session.Framed bundle)
    (hfresh : (b.conn.m_session.getD {}).input = []) (hempty : b.world.AllAgents = {})
    (hnone : NoGroups b.world) (h : stkStart W J peer b = .ok true b') :
    Answered peer 200 0 ∧ ∃ token addAgentIds, StkCompleted W J bundles b b' token addAgentIds := by
  obtain ⟨hanswered, token, ids, request, agents, ack, response, more, hrequest, hnew, hack,
    hresponse, ⟨GO, clients, bundle, hannounced, hids, hnetworks, rfl⟩, htalks⟩ := start_talks
      (P := fun ids more w' => ∃ GO clients bundle, Announcement J ids bundle ∧
        (∀ agId, agId ∈ GO :: clients ↔ agId ∈ ids) ∧ Networks W b.world GO clients w' ∧
        more = [bundle])
      (fun ids b₁ b₂ hids hmade hinit => by
        obtain ⟨GO, clients, bundle, hannounced, hmem, hnetworks, htalks⟩ :=
          wfd_doInitialization_talks hempty hnone hids hmade hinit
        exact ⟨_, ⟨GO, clients, bundle, hannounced, hmem, hnetworks, rfl⟩, htalks⟩) h
  obtain ⟨s', -, -, -, hinput, -⟩ := htalks.session _ rfl
  rw [hfresh, List.nil_append, hpeer] at hinput
  obtain ⟨rest, hrest, -⟩ := Session.frame_selfDelimiting.split htalks.framed hbundles hinput.symm
  exact ⟨hanswered, token, ids, ⟨request, agents, ack, rest, hrest, hrequest, hnew, hack⟩,
    ⟨response, bundle, hresponse, hannounced, htalks.history⟩, GO, clients, hids, hnetworks⟩

theorem stkStart_ok {token : StdString} {response : BundleHeader × StdString}
    {addAgentIds : List StdString} (hpeer : peer.octets = (bundles.map Session.frame).flatten)
    (hbundles : ∀ bundle ∈ bundles, Session.Framed bundle)
    (hfresh : (b.conn.m_session.getD {}).input = []) (hempty : b.world.AllAgents = {})
    (hnone : NoGroups b.world) (hanswered : Answered peer 200 0)
    (hhandshake : Handshake J bundles token addAgentIds) (hresponse : ResponseTo J token response)
    (hsends : Sends response)
    (hannounces : ∀ bundle, Announcement J addAgentIds bundle → Sends bundle) :
    ∃ b', stkStart W J peer b = .ok true b' := by
  obtain ⟨request, agents, ack, rest, rfl, hrequest, hnew, hack⟩ := hhandshake
  obtain ⟨hframed, hbundles₁⟩ := List.forall_mem_cons.mp hbundles
  obtain ⟨hframed₁, hbundles₂⟩ := List.forall_mem_cons.mp hbundles₁
  obtain ⟨hframed₂, -⟩ := List.forall_mem_cons.mp hbundles₂
  obtain ⟨b₂, hwho, h₂⟩ := doWhoAreYou_ok hframed (exchange_connected hpeer hfresh) hrequest
    hresponse hsends
  obtain ⟨b₃, w₁, hagents, hreg, h₃⟩ :=
    doAGENTS_INFO_ok (.inr ⟨rfl, rfl⟩) hframed₁ h₂ hnew
  obtain ⟨_, _, -, hmade, -⟩ := doAGENTS_INFO_talks hagents
  have hothers := registerAgents_others (.inr ⟨rfl, rfl⟩) hmade
  rw [h₂.world] at hothers
  rw [← h₃.world] at hreg
  obtain ⟨GO, clients, groups, bundle, w', w₂, hgroup, hannounced, -, -, hsteps⟩ :=
    wfd_doInitialization_steps (W := W) (J := J) hempty hnone hnew.1 hreg hothers
  have hexchange : Exchange w' (b.conn.sent ++ [response]) (ack :: rest)
      { b₃ with world := w' } := ⟨h₃.session, h₃.sent, rfl⟩
  obtain ⟨b₄, hsend, h₄⟩ := send_ok hexchange
    (hannounces bundle ⟨GO, clients, groups, hgroup, hannounced⟩)
  have hinit := (hsteps { b₄ with world := w₂ }).mpr ⟨b₄, hsend, rfl⟩
  have h₅ : Exchange w₂ _ (ack :: rest) { b₄ with world := w₂ } := ⟨h₄.session, h₄.sent, rfl⟩
  obtain ⟨b₅, hready, -⟩ := doREADY_ok hframed₂ h₅ hack
  refine ⟨b₅, ?_⟩
  rw [stkStart, start, guard_ok (doConnect_eq_true.mpr ⟨hanswered, rfl⟩), guard_ok hwho,
    guard_ok hagents, guard_ok hinit, guard_ok hready]
  rfl

/-- A registration as `stk` returns true exactly when the peer answers and its first three bundles
are the handshake; it has then sent the response and the group of the agents, whose owner is the
one with the least id, and has made their networks. -/
theorem stk_handshake (hpeer : peer.octets = (bundles.map Session.frame).flatten)
    (hbundles : ∀ bundle ∈ bundles, Session.Framed bundle)
    (hfresh : (b.conn.m_session.getD {}).input = []) (hempty : b.world.AllAgents = {})
    (hnone : NoGroups b.world)
    (hsends : ∀ token addAgentIds, Handshake J bundles token addAgentIds →
      (∀ response, ResponseTo J token response → Sends response) ∧
        ∀ bundle, Announcement J addAgentIds bundle → Sends bundle) :
    ((∃ b', stkStart W J peer b = .ok true b') ↔
      Answered peer 200 0 ∧ ∃ token addAgentIds, Handshake J bundles token addAgentIds) ∧
    ∀ b', stkStart W J peer b = .ok true b' →
      ∃ token addAgentIds, StkCompleted W J bundles b b' token addAgentIds := by
  refine ⟨⟨?_, ?_⟩, ?_⟩
  · rintro ⟨b', h⟩
    obtain ⟨hanswered, token, ids, hdone⟩ :=
      stkStart_eq_true hpeer hbundles hfresh hempty hnone h
    exact ⟨hanswered, token, ids, hdone.handshake⟩
  · rintro ⟨hanswered, token, ids, hhandshake⟩
    obtain ⟨res, hmake⟩ := makeIdResponse_ok J token
    obtain ⟨hresponses, hannounces⟩ := hsends token ids hhandshake
    have hresponse : ResponseTo J token _ := ⟨res, hmake, JsonParser.serialize_end_new J res⟩
    exact stkStart_ok hpeer hbundles hfresh hempty hnone hanswered hhandshake hresponse
      (hresponses _ hresponse) hannounces
  · intro b' h
    exact (stkStart_eq_true hpeer hbundles hfresh hempty hnone h).2

theorem newAgents_unique {agents : BundleHeader × StdString} {ids ids' : List StdString}
    (h : NewAgents J agents ids) (h' : NewAgents J agents ids') : ids = ids' := by
  obtain ⟨-, c, aInfo, hc, hparse, rfl⟩ := h
  obtain ⟨-, c', aInfo', hc', hparse', rfl⟩ := h'
  have hdecoded := hc.decoded
  rw [hc'.decoded] at hdecoded
  cases hdecoded
  rw [hparse] at hparse'
  cases hparse'
  rfl

theorem stk_handshake_two :
    ((∃ b', stkStart Ns3.reference Jsoncpp.reference (peerOf (handshakeBundles "t"))
        Broker.make = .ok true b') ↔
      Answered (peerOf (handshakeBundles "t")) 200 0 ∧ ∃ token addAgentIds,
        Handshake Jsoncpp.reference (handshakeBundles "t") token addAgentIds) ∧
    ∀ b', stkStart Ns3.reference Jsoncpp.reference (peerOf (handshakeBundles "t"))
        Broker.make = .ok true b' →
      ∃ token addAgentIds, StkCompleted Ns3.reference Jsoncpp.reference (handshakeBundles "t")
        Broker.make b' token addAgentIds := by
  have hframed : ∀ bundle ∈ handshakeBundles "t", Session.Framed bundle :=
    framed_of_all (by decide +kernel)
  have hnone : NoGroups Broker.make.world := ⟨rfl, rfl, rfl, rfl⟩
  have hstart : value (stkStart Ns3.reference Jsoncpp.reference (peerOf (handshakeBundles "t"))
      Broker.make) = some true := by decide +kernel
  have hlengths : ∀ bundle ∈ (final (stkStart Ns3.reference Jsoncpp.reference
      (peerOf (handshakeBundles "t")) Broker.make)).conn.sent,
        toInt (Session.frame bundle).length ≠ 0 := by decide +kernel
  refine stk_handshake rfl hframed rfl rfl hnone fun token ids hhandshake => ?_
  -- the bundles are those that were sent in the run
  obtain ⟨-, token', ids', hdone⟩ := stkStart_eq_true rfl hframed rfl rfl hnone
    (eq_ok_of_value hstart)
  obtain ⟨response', announcement', hresponse', hannounced', hsent⟩ := hdone.sent
  obtain ⟨request, agents, ack, rest, hbundles, hrequest, hnew, -⟩ := hhandshake
  obtain ⟨request', agents', ack', rest', hbundles', hrequest', hnew', -⟩ := hdone.handshake
  rw [hbundles] at hbundles'
  cases hbundles'
  obtain rfl := hrequest.unique hrequest'
  obtain rfl := newAgents_unique hnew hnew'
  rw [hsent] at hlengths
  refine ⟨fun response hresponse => ?_, fun bundle hannounced => ?_⟩
  · rw [hresponse.unique hresponse']
    exact hlengths _ (by simp)
  · rw [hannounced.unique hannounced']
    exact hlengths _ (by simp)

end Stk

end Registration

/-! ## The system that is started -/

/-- A broker that has not connected yet. -/
structure Broker.Fresh (b : Broker) : Prop where
  started : b.Started
  closed : b.conn.m_session = none
  empty : b.world.AllAgents = {}
  groups : Registration.NoGroups b.world

theorem Broker.make_fresh : make.Fresh :=
  ⟨⟨rfl, rfl, rfl, rfl, rfl⟩, rfl, rfl, rfl, rfl, rfl, rfl⟩

section Conversation

variable {W : Ns3} {J : Jsoncpp} {peer : Peer} {application : StdString} {b b' : Broker}

theorem Broker.onConn_isOpen (h : b.conn.Open) : onConn Connection.isOpen b = .ok true b :=
  zoom_ok (Connection.isOpen_of_open h)

/-- A start that returned true has registered. -/
theorem Broker.start_registers (h : Broker.start W J peer application b = .ok true b') :
    ∃ b₁, Broker.register W J peer application { b with m_global_tick := 0 } = .ok true b₁ := by
  rw [Broker.start, modify_bind_apply] at h
  obtain ⟨b₁, hregister, -⟩ := Registration.bind_guard h
  exact ⟨b₁, hregister⟩

/-- After the start the first header is awaited, behind what the registration has read. -/
theorem Broker.Fresh.ready_of_talks (hfresh : b.Fresh) {b₁ : Broker}
    {received sent : List (BundleHeader × StdString)}
    (hregister : Broker.register W J peer application { b with m_global_tick := 0 } = .ok true b₁)
    (htalks : Talks received sent (Registration.connectedTo peer { b with m_global_tick := 0 }) b₁)
    (h : Broker.start W J peer application b = .ok true b') :
    System.Ready { broker := b' } ∧ b'.world = b₁.world ∧
      peer.octets = (received.map Session.frame).flatten ++ System.unread { broker := b' } ∧
      System.written { broker := b' } = (sent.map Session.frame).flatten := by
  rw [Broker.start, modify_bind_apply, Registration.guard_ok hregister] at h
  obtain ⟨s, hs, hopen, hpending, hinput, houtput⟩ := htalks.session _ rfl
  simp only [hfresh.closed, Option.getD_none, List.nil_append] at hpending hinput houtput
  have hreceiving : onConn Connection.async_receive b₁ = .ok () { b₁ with conn := { b₁.conn with
      m_session := some { s with pending := s.pending ++ [.header] }, incomingMessage := [] } } :=
    zoom_ok (async_receive_eq hs hopen)
  have hstill : ({ s with pending := s.pending ++ [.header] } : Session).is_open = true := hopen
  rw [Registration.guard_ok (onConn_isOpen ⟨s, hs, hopen⟩), bind_ok hreceiving,
    Registration.guard_ok (onConn_isOpen ⟨_, rfl, hstill⟩)] at h
  cases h
  obtain ⟨conn, world, rfl⟩ := htalks.others
  refine ⟨⟨?_, Nat.succ_ne_zero _, ?_⟩, rfl, hinput, houtput⟩
  · exact ⟨hfresh.started.m_pause, hfresh.started.m_incoming, hfresh.started.m_outgoing, rfl,
      hfresh.started.trace⟩
  · exact ⟨_, rfl, hstill, .header (by rw [hpending]; rfl)⟩

theorem Broker.Fresh.ready (hfresh : b.Fresh)
    (h : Broker.start W J peer application b = .ok true b') :
    ∃ received sent, Registration.Registers J application received sent ∧
      (∀ bundle ∈ received, Session.Framed bundle) ∧ System.Ready { broker := b' } ∧
      peer.octets = (received.map Session.frame).flatten ++ System.unread { broker := b' } ∧
      System.written { broker := b' } = (sent.map Session.frame).flatten := by
  obtain ⟨b₁, hregister⟩ := Broker.start_registers h
  obtain ⟨received, sent, hregisters, htalks⟩ :=
    Registration.register_talks (b := { b with m_global_tick := 0 }) hfresh.empty hfresh.groups
      hregister
  obtain ⟨hready, -, hin, hout⟩ := hfresh.ready_of_talks hregister htalks h
  exact ⟨received, sent, hregisters, htalks.framed, hready, hin, hout⟩

/-- From a start that returned true to any later state, whatever happens in between: what was
read are the three bundles of the registration, those that rounds have handled, those queued
and the one that is being read; what was written are the bundles of the registration and the
answers to the rounds; and the agents are those of the registration after the bundles that were
handled. -/
theorem whole_conversation (hfresh : b.Fresh)
    (hstart : Broker.start W J peer application b = .ok true b') {actions : List Action}
    {s : System} (hrun : Transition.run (System.step W J) { broker := b' } actions = some s) :
    ∃ received sent log waiting session begun,
      Registration.Registers J application received sent ∧
      (∀ bundle ∈ received ++ log.flatMap Prod.fst ++ waiting, Session.Framed bundle) ∧
      Link s.broker.conn session begun ∧
      peer.octets ++ System.sentOctets actions =
        ((received ++ log.flatMap Prod.fst ++ waiting).map Session.frame).flatten ++
          (begun ++ session.input) ∧
      s.written = ((sent ++ System.replies J [] log).map Session.frame).flatten ∧
      s.broker.m_incoming.messageList = System.decoded J waiting ∧
      Transition.run (handled W J) b'.world
        (queuedMessages (System.decoded J (log.flatMap Prod.fst))) = some s.broker.world := by
  obtain ⟨received, sent, hregisters, hframed, hready, hin, hout⟩ := hfresh.ready hstart
  obtain ⟨acts, a, -, h⟩ := System.follows_of_run hready hrun
  obtain ⟨session, begun, hlink, hoctets⟩ := h.octets
  have hrequests : a.log.flatMap Prod.fst ++ a.waiting = Rounds.entered acts := h.sound.requests
  refine ⟨received, sent, a.log, a.waiting, session, begun, hregisters, ?_, hlink, ?_, ?_, h.queue,
    h.world⟩
  · intro bundle hmem
    rw [List.append_assoc, hrequests] at hmem
    rcases List.mem_append.mp hmem with hmem | hmem
    · exact hframed bundle hmem
    · exact h.framed bundle hmem
  · rw [List.append_assoc, hrequests, hin, List.append_assoc, hoctets, List.map_append,
      List.flatten_append, List.append_assoc]
  · rw [h.replied, hout, List.map_append, List.flatten_append]

/-- The broker after a registration of two agents as `stk`. -/
def startedBroker : Broker :=
  final (Broker.start Ns3.reference Jsoncpp.reference twoAgentsPeer (str "stk")
    Broker.make)

theorem whole_conversation_two : ∃ s,
    Transition.run (System.step Ns3.reference Jsoncpp.reference) { broker := startedBroker }
      System.inPieces = some s ∧
    ∃ received sent log waiting session begun,
      Registration.Registers Jsoncpp.reference (str "stk") received sent ∧
      (∀ bundle ∈ received ++ log.flatMap Prod.fst ++ waiting, Session.Framed bundle) ∧
      Link s.broker.conn session begun ∧
      twoAgentsPeer.octets ++ System.sentOctets System.inPieces =
        ((received ++ log.flatMap Prod.fst ++ waiting).map Session.frame).flatten ++
          (begun ++ session.input) ∧
      s.written =
        ((sent ++ System.replies Jsoncpp.reference [] log).map Session.frame).flatten ∧
      s.broker.m_incoming.messageList = System.decoded Jsoncpp.reference waiting ∧
      Transition.run (handled Ns3.reference Jsoncpp.reference) startedBroker.world
        (queuedMessages (System.decoded Jsoncpp.reference (log.flatMap Prod.fst))) =
          some s.broker.world := by
  have hstart : value (Broker.start Ns3.reference Jsoncpp.reference twoAgentsPeer
      (str "stk") Broker.make) = some true := by decide +kernel
  obtain ⟨s, hrun⟩ := Option.isSome_iff_exists.mp
    (by decide +kernel : (Transition.run (System.step Ns3.reference Jsoncpp.reference)
      { broker := startedBroker } System.inPieces).isSome = true)
  exact ⟨s, hrun, whole_conversation Broker.make_fresh (eq_ok_of_value hstart) hrun⟩

end Conversation
end Sm4ns3
