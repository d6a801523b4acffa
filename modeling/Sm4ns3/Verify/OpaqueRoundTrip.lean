import Sm4ns3.Verify.Makers
import Sm4ns3.Verify.Outgoing
import Sm4ns3.Verify.Decoder

/-!
# Making and parsing an `opaque_send`

`makeOpaqueSend` ignores the sender it is given and writes no `to_ids` for an empty
list, which the parser then misses. `opaque_round_trip_iff` says which messages come
back as they were made.
-/

namespace Sm4ns3

open Bytes Cpp Call JsonParser MessageConglomerate
open Broker (textOf makeJson_eq_ok)

/-! ## Bundles with one message -/

section Single

variable {J : Jsoncpp} {text : StdString} {c : MessageConglomerate}

/-- The bundle that is begun by default and given one text. -/
def singleBundle (text : StdString) : OngoingSerialization :=
  addGeneric true (serialize_begin_default {}) text

theorem length_varHead_singleBundle (text : StdString) :
    (varHead (singleBundle text).vHead).length = 13 := by
  rw [length_varHead]
  rfl

theorem singleBundle_messages (text : StdString) : (singleBundle text).messages = text := rfl

/-- Where the one message is looked for. -/
theorem singleBundle_header (text res : StdString) :
    (bundleHeader (singleBundle text).vHead res).tableEnd = 13 ∧
      ∃ n, (bundleHeader (singleBundle text).vHead res).lengths res = [n] := by
  have hnine : toInt 9 = 9 := toInt_eq ⟨by decide, by decide⟩
  have hone : toInt 1 = 1 := toInt_eq ⟨by decide, by decide⟩
  have hsend : (bundleHeader (singleBundle text).vHead res).sendIdLen = 9 := hnine
  have hdest : (bundleHeader (singleBundle text).vHead res).destIdLen = 1 := hone
  have hcount : (bundleHeader (singleBundle text).vHead res).messageCount = 1 := hone
  constructor
  · rw [BundleHeader.tableEnd, BundleHeader.tableStart, hsend, hdest, hcount]
    rfl
  · exact ⟨_, by rw [BundleHeader.lengths, hcount]; rfl⟩

/-- A bundle with one message is decoded by parsing at most `2 ^ 24 - 1` octets. -/
theorem parse_of_deserialize_single
    (h : deserialize_v1 J true
      (bundleHeader (singleBundle text).vHead (payload (singleBundle text)))
      (payload (singleBundle text)) {} = .ok true c) :
    ∃ k v, k < 2 ^ 24 ∧ J.parse (text.take k) = some v := by
  obtain ⟨hend, n, hn⟩ := singleBundle_header text (payload (singleBundle text))
  obtain ⟨-, -, ms, hms, -⟩ := (deserialize_v1_eq_ok (by rw [hend]; decide)).mp h
  have hlt : n.toNat < 2 ^ 24 := lengthsFrom_lt _ _ _ n (by
    show n ∈ (bundleHeader (singleBundle text).vHead (payload (singleBundle text))).lengths _
    rw [hn]
    exact List.mem_singleton_self n)
  rw [hn, hend] at hms
  cases ms with
  | nil => exact hms.elim
  | cons m ms =>
    have hparse := hms.1.parse
    refine ⟨n.toNat, m.1, hlt, ?_⟩
    rw [slice, payload, ← length_varHead_singleBundle text, List.drop_left,
      singleBundle_messages] at hparse
    exact hparse

/-- A well-formed message that fits the length table is decoded. -/
theorem deserialize_single_message {m : Message} (hm : m.WellFormed J)
    (hshort : m.text.length < 2 ^ 24) :
    ∃ c, deserialize_v1 J true
        (bundleHeader (singleBundle m.text).vHead (payload (singleBundle m.text)))
        (payload (singleBundle m.text)) {} = .ok true c ∧
      c.getCount NEW_BUNDLES = 1 ∧ c.getBaseMessage 0 = .ok { msg_type := m.msg_type } ∧
      c.getJsonMessage 0 = .ok m.value := by
  have hlen := length_varHead_singleBundle m.text
  have htext : (singleBundle m.text).messages = messagesText [m] ++ [] := by
    simp [singleBundle_messages, messagesText]
  have hmsgs : ∀ m' ∈ [m], m'.WellFormed J ∧ m'.text.length < 2 ^ 24 :=
    List.forall_mem_singleton.mpr ⟨hm, hshort⟩
  have hfit : (((varHead (singleBundle m.text).vHead).length + (messagesText [m]).length : Nat) :
      Int) ≤ toInt (payload (singleBundle m.text)).length := by
    rw [payload, List.length_append, hlen, singleBundle_messages,
      show messagesText [m] = m.text by simp [messagesText], toInt_eq ⟨by omega, by omega⟩]
  obtain ⟨c, hrun, -, hholds⟩ := deserialize_messages hmsgs
    (rfl : (singleBundle m.text).vHead.msgLengths = _) htext (by rw [hlen]; decide)
    fun _ => hfit
  exact ⟨c, hrun, hholds.count, hholds.base 0 m rfl, hholds.json 0 m rfl⟩

/-- A message that the program writes, as it is decoded: its strings are cut at their
NULs. -/
def writtenMessage (J : Jsoncpp) (json : Json) (msg_type : StdString) : Message where
  text := textOf J json
  value := json.cut
  msg_type := msg_type

theorem write_textOf {json : Json} (hnarrow : JsonSingleLineWriter.narrow json = true) :
    ({ appendNewline := false } : JsonSingleLineWriter).write J json = .ok (textOf J json) := by
  obtain ⟨text, htext⟩ : ∃ t, ({ appendNewline := false } : JsonSingleLineWriter).write J json =
      .ok t := JsonSingleLineWriter.write_ok hnarrow
  rw [textOf, htext]

theorem parse_textOf (hJ : J.ReadsBack) {json : Json}
    (hnarrow : JsonSingleLineWriter.narrow json = true) (hcanonical : json.cut.canonical = true) :
    J.parse (textOf J json) = some json.cut :=
  hJ _ hcanonical (write_textOf hnarrow)

/-- A text that lacks its end is refused. -/
theorem parse_take_textOf (hJ : J.RefusesTruncated) {json : Json} {ms : Json.Members}
    (hobject : json = .object ms) (hnarrow : JsonSingleLineWriter.narrow json = true)
    (hcanonical : json.cut.canonical = true) {k : Nat} (hk : k < (textOf J json).length) :
    J.parse ((textOf J json).take k) = none := by
  have hwrite : ({ appendNewline := false } : JsonSingleLineWriter).write J json =
      .ok ((textOf J json).take k ++ (textOf J json).drop k) := by
    rw [List.take_append_drop, write_textOf hnarrow]
  have hback : (textOf J json).drop k ≠ [] := by
    rw [Ne, List.drop_eq_nil_iff]
    exact Nat.not_le.mpr hk
  generalize (textOf J json).take k = front at hwrite ⊢
  generalize (textOf J json).drop k = back at hwrite hback
  subst hobject
  exact hJ _ rfl hcanonical hwrite hback

theorem writtenMessage_wellFormed {json : Json} {ms cut : Json.Members} {msg_type : StdString}
    (hobject : json = .object ms) (hnarrow : JsonSingleLineWriter.narrow json = true)
    (hparse : J.parse (textOf J json) = some json.cut) (hcut : json.cut = .object cut)
    (htype : cut.lookup (str "msg_type") = some (.string msg_type)) :
    (writtenMessage J json msg_type).WellFormed J := by
  have hwrite : ({ appendNewline := false } : JsonSingleLineWriter).write J json =
      .ok (textOf J json) := write_textOf hnarrow
  refine ⟨?_, hparse, cut, hcut, htype⟩
  rw [hobject] at hwrite
  rw [writtenMessage, hobject]
  exact JsonSingleLineWriter.write_object_head hwrite

end Single

/-! ## The round trip -/

section RoundTrip

variable {J : Jsoncpp} {sendAgentId data format tech : StdString}
  {receiveAgentIds : List StdString}

/-- The message made of these arguments, put into a bundle, decoded and parsed, has them
again. -/
def OpaqueRoundTrip (J : Jsoncpp) (sendAgentId : StdString) (receiveAgentIds : List StdString)
    (data format tech : StdString) : Prop :=
  ∃ ongoing header body c osMsg,
    makeOpaqueSend J NEW_BUNDLES (serialize_begin_default {}) sendAgentId receiveAgentIds data
        format tech = .ok ongoing ∧
      serialize_end J NEW_BUNDLES ongoing = .ok (some (header, body)) ∧
      deserialize J NEW_BUNDLES header body {} = .ok true c ∧
      parseOpaqueSend J c 0 = .ok osMsg ∧ osMsg.fromId = sendAgentId ∧
      osMsg.toIds = receiveAgentIds ∧ osMsg.broadcast = receiveAgentIds.isEmpty ∧
      osMsg.data = data ∧ osMsg.format = format ∧ osMsg.tech = tech

/-- The sender is the simulator, there is a recipient, the strings are C strings, and
the message fits its length. -/
structure ComesBack (J : Jsoncpp) (sendAgentId : StdString) (receiveAgentIds : List StdString)
    (data format tech : StdString) : Prop where
  sender : sendAgentId = str "987654321"
  recipients : receiveAgentIds ≠ []
  short : (textOf J (opaqueSend receiveAgentIds data format tech)).length < 2 ^ 24
  ids : ∀ id ∈ receiveAgentIds, 0 ∉ id
  data : 0 ∉ data
  format : 0 ∉ format
  tech : 0 ∉ tech

/-- An `opaque_send` is an object of the type `opaque_send`. -/
theorem opaqueSend_object (receiveAgentIds : List StdString) (data format tech : StdString) :
    ∃ ms, opaqueSend receiveAgentIds data format tech = .object ms ∧
      ms.lookup (str "msg_type") = some (.string (str "opaque_send")) := by
  by_cases h : receiveAgentIds = []
  · subst h
    exact ⟨_, opaqueSend_nil data format tech, rfl⟩
  · exact ⟨_, opaqueSend_eq h data format tech, rfl⟩

/-- The message as it is decoded: its strings are cut at their NULs. -/
def opaqueMessage (J : Jsoncpp) (receiveAgentIds : List StdString)
    (data format tech : StdString) : Message where
  text := textOf J (opaqueSend receiveAgentIds data format tech)
  value := opaqueSend (receiveAgentIds.map cString) (cString data) (cString format) (cString tech)
  msg_type := str "opaque_send"

theorem opaqueMessage_eq : opaqueMessage J receiveAgentIds data format tech =
    writtenMessage J (opaqueSend receiveAgentIds data format tech) (str "opaque_send") := by
  rw [opaqueMessage, writtenMessage, cut_opaqueSend]

theorem opaqueMessage_wellFormed (hJ : J.ReadsBack) :
    (opaqueMessage J receiveAgentIds data format tech).WellFormed J := by
  obtain ⟨ms, hobject, -⟩ := opaqueSend_object receiveAgentIds data format tech
  obtain ⟨cut, hcut, htype⟩ := opaqueSend_object (receiveAgentIds.map cString) (cString data)
    (cString format) (cString tech)
  rw [← cut_opaqueSend] at hcut
  rw [opaqueMessage_eq]
  apply writtenMessage_wellFormed hobject (narrow_opaqueSend _ _ _ _) _ hcut htype
  apply parse_textOf hJ (narrow_opaqueSend _ _ _ _)
  rw [cut_opaqueSend]
  exact canonical_opaqueSend _ _ _ _

theorem makeOpaqueSend_eq :
    makeOpaqueSend J NEW_BUNDLES (serialize_begin_default {}) sendAgentId receiveAgentIds data
        format tech =
      .ok (singleBundle (opaqueMessage J receiveAgentIds data format tech).text) := by
  rw [makeOpaqueSend, makeJson, show PREFER_BINARY_MESSAGES = false from rfl, throwIf_false,
    except_ok_bind, show (!NEW_BUNDLES) = false from rfl]
  dsimp only
  rw [write_textOf (narrow_opaqueSend _ _ _ _)]
  rfl

/-- The text of a message that does not fit its length is parsed in part, which the
reader refuses. -/
theorem opaque_short (hJ : J.RefusesTruncated)
    (h : OpaqueRoundTrip J sendAgentId receiveAgentIds data format tech) :
    (opaqueMessage J receiveAgentIds data format tech).text.length < 2 ^ 24 := by
  obtain ⟨ongoing, header, body, c, osMsg, hmake, hend, hrun, -⟩ := h
  rw [makeOpaqueSend_eq] at hmake
  cases hmake
  rw [serialize_end_new] at hend
  cases hend
  rw [deserialize_new] at hrun
  obtain ⟨k, v, hk, hparse⟩ := parse_of_deserialize_single hrun
  by_contra hlong
  obtain ⟨ms, hobject, -⟩ := opaqueSend_object receiveAgentIds data format tech
  have hcanonical := canonical_opaqueSend (receiveAgentIds.map cString) (cString data)
    (cString format) (cString tech)
  rw [← cut_opaqueSend] at hcanonical
  have hnone := parse_take_textOf hJ hobject (narrow_opaqueSend _ _ _ _) hcanonical
    (lt_of_lt_of_le hk (Nat.not_lt.mp hlong))
  rw [opaqueMessage, hnone] at hparse
  cases hparse

/-- What a message that fits its length is parsed as. -/
theorem opaque_parsed (hJ : J.ReadsBack)
    (hshort : (opaqueMessage J receiveAgentIds data format tech).text.length < 2 ^ 24) :
    ∃ header body c,
      serialize_end J NEW_BUNDLES
          (singleBundle (opaqueMessage J receiveAgentIds data format tech).text) =
        .ok (some (header, body)) ∧
      deserialize J NEW_BUNDLES header body {} = .ok true c ∧
      parseOpaqueSend J c 0 =
        if receiveAgentIds = [] then .error (.exception "Badly formatted OPAQUE_SEND message.")
        else .ok { msg_type := str "opaque_send", fromId := str "987654321"
                   toIds := receiveAgentIds.map cString, broadcast := false
                   data := cString data, format := cString format, tech := cString tech } := by
  have hformed : (opaqueMessage J receiveAgentIds data format tech).WellFormed J :=
    opaqueMessage_wellFormed hJ
  obtain ⟨c, hrun, -, hbase, hjson⟩ := deserialize_single_message hformed hshort
  refine ⟨_, _, c, serialize_end_new J _, by rw [deserialize_new]; exact hrun, ?_⟩
  by_cases hids : receiveAgentIds = []
  · subst hids
    rw [if_pos rfl]
    exact parseOpaqueSend_made_nil hbase hjson
  · rw [if_neg hids]
    exact parseOpaqueSend_made (by simpa using hids) hbase hjson

theorem comesBack_of_opaqueRoundTrip (hJ : J.ReadsBack) (htr : J.RefusesTruncated)
    (h : OpaqueRoundTrip J sendAgentId receiveAgentIds data format tech) :
    ComesBack J sendAgentId receiveAgentIds data format tech := by
  have hshort := opaque_short htr h
  obtain ⟨header', body', c', hend', hrun', hparse'⟩ := opaque_parsed hJ hshort
  obtain ⟨ongoing, header, body, c, osMsg, hmake, hend, hrun, hparse, hfrom, hto, hbroadcast,
    hdata, hformat, htech⟩ := h
  rw [makeOpaqueSend_eq] at hmake
  cases hmake
  rw [hend'] at hend
  cases hend
  rw [hrun'] at hrun
  cases hrun
  rw [hparse'] at hparse
  by_cases hids : receiveAgentIds = []
  · rw [if_pos hids] at hparse
    cases hparse
  · rw [if_neg hids] at hparse
    cases hparse
    exact
      { sender := hfrom.symm
        recipients := hids
        ids := map_cString_eq_iff.mp hto
        data := cString_eq_iff.mp hdata
        format := cString_eq_iff.mp hformat
        tech := cString_eq_iff.mp htech
        short := hshort }

/-- An `opaque_send` comes back as it was made exactly when it is from the simulator to
somebody, has no NUL and fits its length. -/
theorem opaque_round_trip_iff (hJ : J.ReadsBack) (htr : J.RefusesTruncated) :
    OpaqueRoundTrip J sendAgentId receiveAgentIds data format tech ↔
      ComesBack J sendAgentId receiveAgentIds data format tech := by
  constructor
  · exact comesBack_of_opaqueRoundTrip hJ htr
  · intro h
    obtain ⟨header, body, c, hend, hrun, hparse⟩ := opaque_parsed hJ h.short
    rw [if_neg h.recipients] at hparse
    have hbroadcast : false = receiveAgentIds.isEmpty := by simpa using h.recipients
    exact ⟨_, header, body, c, _, makeOpaqueSend_eq, hend, hrun, hparse, h.sender.symm,
      map_cString_eq_iff.mpr h.ids, hbroadcast, cString_eq_iff.mpr h.data,
      cString_eq_iff.mpr h.format, cString_eq_iff.mpr h.tech⟩

theorem opaque_round_trip_iff_one :
    OpaqueRoundTrip Jsoncpp.reference (str "987654321") [str "1", str "2"] (str "x") [] [] :=
  (opaque_round_trip_iff Jsoncpp.reference_readsBack Jsoncpp.reference_refusesTruncated).mpr
    { sender := rfl
      recipients := List.cons_ne_nil _ _
      ids := by decide
      data := by decide
      format := by decide
      tech := by decide
      short := by decide +kernel }

/-- Another sender is replaced, and a message to nobody is refused. -/
theorem opaque_not_back :
    ¬ OpaqueRoundTrip Jsoncpp.reference (str "1") [str "2"] (str "x") [] [] ∧
      ¬ OpaqueRoundTrip Jsoncpp.reference (str "987654321") [] (str "x") [] [] := by
  constructor
  · intro h
    have hback := comesBack_of_opaqueRoundTrip Jsoncpp.reference_readsBack
      Jsoncpp.reference_refusesTruncated h
    exact absurd hback.sender (by decide)
  · intro h
    have hback := comesBack_of_opaqueRoundTrip Jsoncpp.reference_readsBack
      Jsoncpp.reference_refusesTruncated h
    exact hback.recipients rfl

end RoundTrip

end Sm4ns3
