import Sm4ns3.Verify.BrokerSteps
import Sm4ns3.Verify.Faults

/-!
# The decoder on arbitrary input

Nothing here assumes that a payload was written by the encoder. `deserialize_v1_eq_ok`
says when a payload is decoded and to what, and `deserialize_v1_defined` when the
decoder stays within the payload and the range of an `int`. The results are that the
decoder is sound (`decoder_sound`), when its cursor is in bounds
(`decoder_in_bounds_iff`), and that it throws at every payload that it does not decode
(`bad_bundle_thrown`).
-/

namespace Sm4ns3

open Bytes Cpp Call JsonParser MessageConglomerate

/-! ## What is decoded -/

/-- A table that has entries and is in range is not that of an empty payload. -/
theorem payload_ne_nil {header : BundleHeader} {payload : StdString}
    (hin : header.tableEnd ≤ payload.length + 1) (hne : header.lengths payload ≠ []) :
    payload ≠ [] := by
  intro hnil
  have hpos := List.length_pos_iff.mpr hne
  rw [BundleHeader.lengths, length_lengthsFrom] at hpos
  rw [hnil, List.length_nil] at hin
  unfold BundleHeader.tableEnd at hin
  omega

/-- A payload is decoded when its variable header is in range and the octets at the
running offsets of its length table are messages. -/
theorem deserialize_v1_eq_ok {J : Jsoncpp} {header : BundleHeader} {payload : StdString}
    {c : MessageConglomerate} {b : Bool} (hsize : header.tableEnd < 2 ^ 31) :
    deserialize_v1 J true header payload {} = .ok b c ↔
      b = true ∧ header.tableEnd ≤ payload.length + 1 ∧
        ∃ ms, MessagesAt J payload header.tableEnd
            ((header.lengths payload).map UInt32.toNat) ms ∧
          c = addedAll { senderId := header.sendId payload }
            (if header.lengths payload = [] then [] else payload) header.tableEnd
            ((header.lengths payload).map UInt32.toNat) ms := by
  by_cases hin : header.tableEnd ≤ payload.length + 1
  · have hraw : header.lengths payload ≠ [] → payload ≠ [] := payload_ne_nil hin
    have hlt := lengthsFrom_lt payload header.messageCount.toNat header.tableStart
    rw [deserialize_v1_eq _ hin hsize, bind_eq_ok_iff]
    constructor
    · intro hgiven
      rcases hgiven with ⟨_, t, hadd, hret⟩
      obtain ⟨ms, hms, rfl⟩ := (addMessages_eq_ok hraw hlt).mp hadd
      cases hret
      exact ⟨rfl, hin, ms, hms, rfl⟩
    · intro hgiven
      rcases hgiven with ⟨hb, _, ms, hms, hc⟩
      subst hb hc
      exact ⟨(), _, (addMessages_eq_ok hraw hlt).mpr ⟨ms, hms, rfl⟩, rfl⟩
  · obtain ⟨c', hout⟩ : ∃ c', deserialize_v1 J true header payload {} =
        .error (.undefined .outOfRange) c' := deserialize_v1_out {} (by omega) hsize
    rw [hout]
    constructor
    · intro h; cases h
    · intro h; exact absurd h.2.1 hin

theorem BundleHeader.Fits.tableEnd_lt {header : BundleHeader} (h : header.Fits) :
    header.tableEnd < 2 ^ 31 := by
  obtain ⟨hsend, hdest, hcount⟩ := h
  unfold BundleHeader.tableEnd BundleHeader.tableStart
  omega

/-- A header that was read has counts of an octet each. -/
theorem BundleParser.fits_of_read {octets : StdString} {header : BundleHeader}
    (h : read_bundle_header_v1 octets = .ok header) : header.Fits := by
  unfold read_bundle_header_v1 at h
  split at h
  · rename_i version sendIdLen destIdLen messageCount a b c d rest
    split at h
    · cases h
    · cases h
      have hsend := sendIdLen.toNat_lt
      have hdest := destIdLen.toNat_lt
      have hcount := messageCount.toNat_lt
      exact ⟨by simp; omega, by simp; omega, by simp; omega⟩
  · cases h

/-! ## Soundness -/

/-- What a decoded bundle says of its payload. -/
structure Decoded (J : Jsoncpp) (header : BundleHeader) (payload : StdString)
    (c : MessageConglomerate) : Prop where
  count : c.getCount NEW_BUNDLES = header.messageCount
  inStep : c.offsets_v1.length = c.message_bases.length ∧
    c.messages_json.length = c.message_bases.length
  /-- the octets that were read may end with the NUL behind the payload -/
  sender : c.senderId = (payload ++ [0]).take header.sendIdLen.toNat
  sender_inside : header.sendIdLen.toNat ≤ payload.length →
    c.senderId = payload.take header.sendIdLen.toNat
  first : ∀ offset length, c.offsets_v1[0]? = some (offset, length) →
    offset = header.sendIdLen + header.destIdLen + 3 * header.messageCount
  contiguous : ∀ (k : Nat) offset length offset' length',
    c.offsets_v1[k]? = some (offset, length) → c.offsets_v1[k + 1]? = some (offset', length') →
    offset' = offset + length
  table : ∀ (k : Nat) offset length, c.offsets_v1[k]? = some (offset, length) →
    length = (lengthAt payload (header.tableStart + 3 * k)).toNat
  inside : ∀ (k : Nat) offset length, c.offsets_v1[k]? = some (offset, length) →
    0 ≤ offset ∧ 0 ≤ length ∧ offset + length ≤ payload.length
  message : ∀ (k : Nat) offset length, c.offsets_v1[k]? = some (offset, length) →
    ∃ text v msg_type base, charRange payload offset length = .ok text ∧
      J.parse text = some v ∧ c.getJsonMessage k = .ok v ∧
      v.get (str "msg_type") = .ok msg_type ∧ J.asString msg_type = .ok base.msg_type ∧
      c.getBaseMessage k = .ok base

theorem lengthsFrom_getElem? (s : StdString) (n i k : Nat) :
    (lengthsFrom s n i)[k]? = if k < n then some (lengthAt s (i + 3 * k)) else none := by
  induction n generalizing i k with
  | zero => simp [lengthsFrom]
  | succ n ih =>
    cases k with
    | zero => simp [lengthsFrom]
    | succ k =>
      simp only [lengthsFrom, List.getElem?_cons_succ, ih, Nat.add_lt_add_iff_right]
      rw [show i + 3 + 3 * k = i + 3 * (k + 1) by omega]

namespace MessageConglomerate

/-- The message with a given number is the one at its running offset. -/
theorem MessagesAt.getElem? {J : Jsoncpp} {raw : StdString} {i k n : Nat} {lens : List Nat}
    {ms : List (Json × MessageBase)} (h : MessagesAt J raw i lens ms) (hk : lens[k]? = some n) :
    ∃ m, ms[k]? = some m ∧ MessageAt J raw (i + (lens.take k).sum) n m.1 m.2 := by
  induction lens generalizing i k ms with
  | nil => cases hk
  | cons len lens ih =>
    cases ms with
    | nil => exact h.elim
    | cons m ms =>
      cases k with
      | zero =>
        cases hk
        exact ⟨m, rfl, by simpa using h.1⟩
      | succ k =>
        obtain ⟨m', hm', hat⟩ := ih h.2 hk
        refine ⟨m', hm', ?_⟩
        rwa [List.take_succ_cons, List.sum_cons, ← Nat.add_assoc]

/-- The type of a message is its member `msg_type`. -/
theorem get_of_ParseJsonMessageBase {J : Jsoncpp} {v : Json} {base : MessageBase}
    (h : ParseJsonMessageBase J v = .ok base) :
    ∃ x, v.get (str "msg_type") = .ok x ∧ J.asString x = .ok base.msg_type := by
  unfold ParseJsonMessageBase at h
  obtain ⟨present, -, h⟩ := except_bind_eq_ok.mp h
  cases present with
  | false => cases h
  | true =>
    obtain ⟨x, hx, h⟩ := except_bind_eq_ok.mp h
    obtain ⟨t, ht, h⟩ := except_bind_eq_ok.mp h
    cases h
    exact ⟨x, hx, ht⟩

/-- A range that was recorded has a length of the table and a message. -/
theorem MessagesAt.range {J : Jsoncpp} {raw : StdString} {i k : Nat} {lens : List Nat}
    {ms : List (Json × MessageBase)} (h : MessagesAt J raw i lens ms) {offset length : Int}
    (hk : (offsetsFrom i lens)[k]? = some (offset, length)) :
    ∃ (n : Nat) (m : Json × MessageBase), lens[k]? = some n ∧ ms[k]? = some m ∧
      offset = (i + (lens.take k).sum : Nat) ∧ length = (n : Int) ∧
      MessageAt J raw (i + (lens.take k).sum) n m.1 m.2 := by
  rw [offsetsFrom_getElem?, Option.map_eq_some_iff] at hk
  obtain ⟨n, hn, heq⟩ := hk
  obtain ⟨m, hm, hat⟩ := h.getElem? hn
  cases heq
  exact ⟨n, m, hn, hm, rfl, rfl, hat⟩

/-- A range starts where the one before it ends. -/
theorem offsetsFrom_contiguous {i k : Nat} {lens : List Nat} {offset length offset' length' : Int}
    (hk : (offsetsFrom i lens)[k]? = some (offset, length))
    (hk' : (offsetsFrom i lens)[k + 1]? = some (offset', length')) : offset' = offset + length := by
  rw [offsetsFrom_getElem?, Option.map_eq_some_iff] at hk hk'
  obtain ⟨n, hn, heq⟩ := hk
  obtain ⟨n', -, heq'⟩ := hk'
  cases heq
  cases heq'
  have hsum : (lens.take (k + 1)).sum = (lens.take k).sum + n := by
    rw [List.take_add_one, hn]
    simp
  rw [hsum]
  push_cast
  ring

/-- The message of a range, and its type. -/
theorem MessagesAt.message {J : Jsoncpp} {raw : StdString} {i k : Nat} {lens : List Nat}
    {ms : List (Json × MessageBase)} (h : MessagesAt J raw i lens ms) {offset length : Int}
    (hk : (offsetsFrom i lens)[k]? = some (offset, length)) :
    ∃ (m : Json × MessageBase) (text : StdString) (msg_type : Json), ms[k]? = some m ∧
      charRange raw offset length = .ok text ∧ J.parse text = some m.1 ∧
      m.1.get (str "msg_type") = .ok msg_type ∧ J.asString msg_type = .ok m.2.msg_type := by
  obtain ⟨n, m, -, hm, rfl, rfl, hat⟩ := h.range hk
  obtain ⟨x, hx, htype⟩ := get_of_ParseJsonMessageBase hat.base
  exact ⟨m, _, x, hm, charRange_nat hat.bound, hat.parse, hx, htype⟩

end MessageConglomerate

/-- Whatever the decoder accepts it has decoded faithfully. -/
theorem decoded_of_deserialize {J : Jsoncpp} {header : BundleHeader} {payload : StdString}
    {c : MessageConglomerate} {b : Bool} (hfits : header.Fits)
    (h : deserialize_v1 J NEW_BUNDLES header payload {} = .ok b c) :
    Decoded J header payload c := by
  rw [show NEW_BUNDLES = true from rfl] at h
  obtain ⟨-, -, ms, hms, rfl⟩ := (deserialize_v1_eq_ok hfits.tableEnd_lt).mp h
  set lens := (header.lengths payload).map UInt32.toNat with hlens
  have hcount : lens.length = header.messageCount.toNat := by
    simp [hlens, BundleHeader.lengths]
  have hmsLen : ms.length = lens.length := hms.length_eq
  have hpos := hfits.messageCount
  have hoffsets : ∀ raw, (addedAll { senderId := header.sendId payload } raw header.tableEnd lens
      ms).offsets_v1 = offsetsFrom header.tableEnd lens := fun _ => List.nil_append _
  constructor
  · rw [getCount_new, hoffsets, length_offsetsFrom, hcount, toInt_eq ⟨by omega, by omega⟩]
    omega
  · simp [addedAll, hmsLen]
  · rfl
  · intro hle
    show slice (terminated payload) 0 _ = _
    simp [slice, terminated, List.take_append_of_le_length hle]
  · intro offset length hk
    rw [hoffsets] at hk
    obtain ⟨n, m, -, -, rfl, -, -⟩ := hms.range hk
    obtain ⟨hsend, hdest, -⟩ := hfits
    simp only [BundleHeader.tableEnd, BundleHeader.tableStart]
    simp
    omega
  · intro k offset length offset' length' hk hk'
    rw [hoffsets] at hk hk'
    exact offsetsFrom_contiguous hk hk'
  · intro k offset length hk
    rw [hoffsets] at hk
    obtain ⟨n, m, hn, -, -, rfl, -⟩ := hms.range hk
    rw [hlens, List.getElem?_map, BundleHeader.lengths, lengthsFrom_getElem?] at hn
    split at hn
    · cases hn
      rfl
    · cases hn
  · intro k offset length hk
    rw [hoffsets] at hk
    obtain ⟨n, m, -, -, rfl, rfl, hat⟩ := hms.range hk
    have hbound := hat.bound
    have hle := toInt_le payload.length
    omega
  · intro k offset length hk
    rw [hoffsets] at hk
    obtain ⟨m, text, x, hm, htext, hparse, hx, htype⟩ := hms.message hk
    exact ⟨text, m.1, x, m.2, htext, hparse, vectorAt_eq_ok (by simp [addedAll, hm]), hx, htype,
      vectorAt_eq_ok (by simp [addedAll, hm])⟩

/-- A packet is queued whole or not at all. -/
theorem parsePacket_atomic {J : Jsoncpp} (header : BundleHeader) (input : StdString) (b : Broker) :
    (∃ c, deserialize J NEW_BUNDLES header input {} = .ok true c ∧
        (final (Broker.parsePacket J header input b)).m_incoming = b.m_incoming.push c) ∨
      (final (Broker.parsePacket J header input b)).m_incoming = b.m_incoming := by
  unfold Broker.parsePacket
  by_cases hempty : input.isEmpty
  · rw [if_pos hempty]
    exact .inr rfl
  rw [if_neg hempty]
  cases hrun : deserialize J NEW_BUNDLES header input {} with
  | error e c => exact .inr rfl
  | ok r temp =>
    cases r with
    | false => exact .inr rfl
    | true =>
      cases hres : Broker.containsTick temp temp.messageNumbers with
      | error e =>
        simp only [hres]
        exact .inr rfl
      | ok res =>
        simp only [hres]
        exact .inl ⟨temp, rfl, rfl⟩

/-- What is decoded from any payload is what the payload says, and a received packet
adds that one bundle to the queue or leaves the queue alone. -/
theorem decoder_sound {J : Jsoncpp} {header : BundleHeader} {payload : StdString}
    {c : MessageConglomerate} (hcounts : header.Fits)
    (h : deserialize_v1 J NEW_BUNDLES header payload {} = .ok true c) :
    Decoded J header payload c ∧
      ∀ header' input b,
        (∃ c', deserialize J NEW_BUNDLES header' input {} = .ok true c' ∧
          (final (Broker.parsePacket J header' input b)).m_incoming = b.m_incoming.push c') ∨
        (final (Broker.parsePacket J header' input b)).m_incoming = b.m_incoming :=
  ⟨decoded_of_deserialize hcounts h, parsePacket_atomic⟩

/-- The header and the payload of a bundle with a tick. -/
def tickHeader : BundleHeader := { messageCount := 1, remLen := 31 }

def tickPayload : StdString := [0, 0, 28] ++ str "\x7b\"msg_type\":\"ticked_simmob\"\x7d"

theorem tickPayload_decoded :
    value (deserialize_v1 Jsoncpp.reference NEW_BUNDLES tickHeader tickPayload {}) = some true := by
  decide +kernel

theorem decoder_sound_tick :
    Decoded Jsoncpp.reference tickHeader tickPayload
        (final (deserialize_v1 Jsoncpp.reference NEW_BUNDLES tickHeader tickPayload {})) ∧
      ∀ header' input b,
        (∃ c', deserialize Jsoncpp.reference NEW_BUNDLES header' input {} = .ok true c' ∧
          (final (Broker.parsePacket Jsoncpp.reference header' input b)).m_incoming =
            b.m_incoming.push c') ∨
        (final (Broker.parsePacket Jsoncpp.reference header' input b)).m_incoming =
          b.m_incoming :=
  decoder_sound ⟨by decide, by decide, by decide⟩ (eq_ok_of_value tickPayload_decoded)

/-! ## Bounds -/

/-- A length of the table takes the running offset out of the range of an `int`, and
what stands before it are messages. -/
def Overflows (J : Jsoncpp) (raw : StdString) : Nat → List Nat → Prop
  | _, [] => False
  | i, n :: ns => 2 ^ 31 ≤ i + n ∨
      ((∃ m : Json × MessageBase, MessageAt J raw i n m.1 m.2) ∧ Overflows J raw (i + n) ns)

namespace MessageConglomerate

variable {J : Jsoncpp} {c : MessageConglomerate} {msgStr : StdString}

/-- Within the string, parsing the message added reads nothing out of range. -/
theorem parseAdded_defined {offset length : Nat}
    (h : (offset + length : Int) ≤ toInt c.messages_v1.length) :
    Defined (parseAdded J offset length) c := by
  have hle := toInt_le c.messages_v1.length
  intro cause t hrun
  simp only [parseAdded, get_bind_apply, set_bind_apply, charAt_ok (s := c.messages_v1)
    (i := offset) (by omega), eval_ok, pure_bind_apply, charRange_nat h] at hrun
  split at hrun
  · cases hrun
  · split at hrun
    · cases hv : J.parse (slice c.messages_v1 offset length) with
      | none =>
        simp only [hv] at hrun
        cases hrun
      | some v =>
        simp only [hv, set_bind_apply] at hrun
        cases hbase : ParseJsonMessageBase J v with
        | ok base =>
          simp only [hbase, eval_ok, pure_bind_apply] at hrun
          cases hrun
        | error e =>
          simp only [hbase, bind_error (eval_error e _)] at hrun
          cases hrun
          exact safe_parseJsonMessageBase v cause hbase
    · cases hrun

/-- With the string given at the right time, what is left is to check the range and to
parse. -/
theorem addMessage_v1_eq {offset length : Nat} (hacc : c.Accepts msgStr) :
    addMessage_v1 J true offset length msgStr c = (do
      let total ← eval (addInt offset length)
      raiseIf (toInt (c.underlying msgStr).length < total)
        "Can't add message: total length exceeds length of message string."
      set { c with
        messages_v1 := c.underlying msgStr
        offsets_v1 := c.offsets_v1 ++ [((offset : Int), (length : Int))] }
      parseAdded J offset length) { c with messages_v1 := c.underlying msgStr } := by
  have hsave : saveString msgStr c = .ok () { c with messages_v1 := c.underlying msgStr } :=
    saveString_eq_ok.mpr ⟨hacc.2, rfl⟩
  have hfirst : (c.offsets_v1.isEmpty && msgStr.isEmpty) = false := by
    simpa using hacc.1
  have hpos : decide ((offset : Int) < 0) = false := by simp
  rw [addMessage_v1, Bool.not_true, raiseIf_false, pure_bind_apply, get_bind_apply, hfirst,
    raiseIf_false, pure_bind_apply, bind_ok hsave, get_bind_apply, hpos, raiseIf_false,
    pure_bind_apply]

/-- Only the sum of the offset and the length can overflow. -/
theorem addMessage_v1_defined {offset length : Nat} (hacc : c.Accepts msgStr) :
    Defined (addMessage_v1 J true offset length msgStr) c ↔ offset + length < 2 ^ 31 := by
  unfold Defined
  rw [addMessage_v1_eq hacc]
  by_cases hsum : offset + length < 2 ^ 31
  · rw [addInt_ok ⟨by omega, by omega⟩, eval_ok, pure_bind_apply]
    refine iff_of_true ?_ hsum
    by_cases hbound : toInt (c.underlying msgStr).length < (offset + length : Int)
    · rw [decide_eq_true hbound, raiseIf_true]
      intro cause t hrun
      cases hrun
    · rw [decide_eq_false hbound, raiseIf_false, pure_bind_apply, set_bind_apply]
      exact parseAdded_defined (by simpa using hbound)
  · have hover : addInt (offset : Int) length = .error (.undefined .overflow) :=
      if_neg (by omega)
    rw [hover]
    exact iff_of_false (fun h => h .overflow _ (bind_error (eval_error _ _) _)) hsum

/-- Adding the messages of a length table is defined unless a length overflows. -/
theorem addMessages_defined {i : Nat} {ns : List UInt32}
    (hacc : ns ≠ [] → c.Accepts msgStr) (hns : ∀ n ∈ ns, n.toNat < 2 ^ 24) :
    Defined (addMessages J true msgStr i ns) c ↔
      ¬ Overflows J (c.underlying msgStr) i (ns.map UInt32.toNat) := by
  induction ns generalizing c msgStr i with
  | nil =>
    refine iff_of_true ?_ (fun h => h)
    exact Defined.of_ok rfl
  | cons n ns ih =>
    have hn : n.toNat < 2 ^ 24 := hns n List.mem_cons_self
    have hrest : ∀ k ∈ ns, k.toNat < 2 ^ 24 := fun k hk => hns k (List.mem_cons_of_mem n hk)
    have haccept := hacc (List.cons_ne_nil n ns)
    have hdef : Defined (addMessage_v1 J true i n.toNat msgStr) c ↔ i + n.toNat < 2 ^ 31 :=
      addMessage_v1_defined haccept
    rw [List.map_cons, Overflows, addMessages, toInt_length hn]
    cases hrun : addMessage_v1 J true i n.toNat msgStr c with
    | ok u t =>
      -- the message is added, and the rest of the table decides
      have hsum := hdef.mp (Defined.of_ok hrun)
      obtain ⟨-, v, base, hm, rfl⟩ := addMessage_v1_eq_ok.mp hrun
      have hnext : toInt ((i : Int) + (n.toNat : Int)) = ((i + n.toNat : Nat) : Int) := by
        rw [toInt_eq ⟨by omega, by omega⟩]
        rfl
      rw [defined_bind_ok hrun, hnext, ih (fun _ => ⟨by simp [added], by simp⟩) hrest]
      have hraw : (c.added (c.underlying msgStr) i n.toNat v base).underlying [] =
          c.underlying msgStr := rfl
      rw [hraw, not_or]
      constructor
      · intro hover
        exact ⟨by omega, fun h => hover h.2⟩
      · intro hgiven h
        rcases hgiven with ⟨_, hover⟩
        exact hover ⟨⟨(v, base), hm⟩, h⟩
    | error e t =>
      rw [defined_bind_error hrun, hdef, not_or]
      constructor
      · intro hsum
        refine ⟨by omega, fun h => ?_⟩
        obtain ⟨⟨m, hm⟩, -⟩ := h
        have hok : addMessage_v1 J true i n.toNat msgStr c = .ok () _ :=
          addMessage_v1_eq_ok.mpr ⟨haccept, m.1, m.2, hm, rfl⟩
        rw [hrun] at hok
        cases hok
      · intro h
        omega

end MessageConglomerate

/-- The decoder stays within the payload and the range of an `int` exactly when the
variable header is in range and no length of the table overflows. -/
theorem deserialize_v1_defined {J : Jsoncpp} {header : BundleHeader} {payload : StdString}
    (hsize : header.tableEnd < 2 ^ 31) :
    Defined (deserialize_v1 J true header payload) {} ↔
      header.tableEnd ≤ payload.length + 1 ∧
        ¬ Overflows J payload header.tableEnd ((header.lengths payload).map UInt32.toNat) := by
  by_cases hin : header.tableEnd ≤ payload.length + 1
  · have hlt := lengthsFrom_lt payload header.messageCount.toNat header.tableStart
    have hne : header.lengths payload ≠ [] → payload ≠ [] := payload_ne_nil hin
    have hadd : Defined (addMessages J true payload header.tableEnd (header.lengths payload))
          { senderId := header.sendId payload } ↔
        ¬ Overflows J payload header.tableEnd ((header.lengths payload).map UInt32.toNat) := by
      by_cases hnil : header.lengths payload = []
      · rw [hnil]
        exact iff_of_true (Defined.of_ok rfl) fun h => h
      · have hstr : underlying { senderId := header.sendId payload } payload = payload :=
          if_neg (hne hnil)
        have hacc : Accepts { senderId := header.sendId payload } payload :=
          ⟨fun h => hne hnil h.2, fun _ => rfl⟩
        have hiff := addMessages_defined (J := J) (i := header.tableEnd) (fun _ => hacc) hlt
        rwa [hstr] at hiff
    unfold Defined at hadd ⊢
    rw [deserialize_v1_eq _ hin hsize]
    refine ⟨fun h => ⟨hin, hadd.mp fun cause t hrun => ?_⟩, fun h cause t hrun => ?_⟩
    · exact h cause t (bind_error hrun _)
    · rw [bind_apply] at hrun
      cases hcall : addMessages J true payload header.tableEnd (header.lengths payload)
          { senderId := header.sendId payload } with
      | ok u t' =>
        simp only [hcall] at hrun
        cases hrun
      | error e t' =>
        simp only [hcall] at hrun
        cases hrun
        exact hadd.mpr h.2 cause t hcall
  · obtain ⟨c', hout⟩ : ∃ c', deserialize_v1 J true header payload {} =
        .error (.undefined .outOfRange) c' := deserialize_v1_out {} (by omega) hsize
    refine iff_of_false (fun h => h _ _ hout) (fun h => hin h.1)

namespace BundleHeader

/-- The payload ends before the messages that its length table announces. -/
def TooShort (header : BundleHeader) (payload : StdString) : Prop :=
  payload.length < header.tableEnd + ((header.lengths payload).map UInt32.toNat).sum

/-- The ids and the length table are within the payload, but for the last octet of a
table, which may be the NUL behind it. -/
def InRange (header : BundleHeader) (payload : StdString) : Prop :=
  header.tableEnd ≤ payload.length ∨
    (header.tableEnd = payload.length + 1 ∧ 0 < header.messageCount)

end BundleHeader

/-- Decoding reads the payload, with its NUL, at positions in range, hands ranges in
range to the reader and computes offsets that an `int` can hold; otherwise it is
undefined. A payload that is too short is not accepted. -/
structure DecoderInBounds (J : Jsoncpp) (header : BundleHeader) (payload : StdString) : Prop where
  defined : Defined (deserialize_v1 J NEW_BUNDLES header payload) {}
  rejected : header.TooShort payload →
    ∀ c, deserialize_v1 J NEW_BUNDLES header payload {} ≠ .ok true c

/-- A payload that is too short can be accepted only if its ids end with the NUL. -/
theorem tableEnd_of_tooShort {J : Jsoncpp} {header : BundleHeader} {payload : StdString}
    {c : MessageConglomerate} (hfits : header.Fits) (hshort : header.TooShort payload)
    (h : deserialize_v1 J true header payload {} = .ok true c) :
    header.tableEnd = payload.length + 1 ∧ header.messageCount = 0 := by
  obtain ⟨-, hin, ms, hms, -⟩ := (deserialize_v1_eq_ok hfits.tableEnd_lt).mp h
  unfold BundleHeader.TooShort at hshort
  by_cases hnil : (header.lengths payload).map UInt32.toNat = []
  · have hcount : header.messageCount.toNat = 0 := by
      have hlen := congrArg List.length hnil
      simpa [BundleHeader.lengths] using hlen
    have hpos := hfits.messageCount
    rw [hnil, List.sum_nil, Nat.add_zero] at hshort
    omega
  · have hbound := hms.bound hnil
    have hle := toInt_le payload.length
    omega

/-- For every header that can be read, the decoder is in bounds exactly when the ids
and the length table are, and no length of the table overflows. -/
theorem decoder_in_bounds_iff {J : Jsoncpp} {octets payload : StdString} {header : BundleHeader}
    (hread : BundleParser.read_bundle_header_v1 octets = .ok header) :
    DecoderInBounds J header payload ↔ header.InRange payload ∧
      ¬ Overflows J payload header.tableEnd ((header.lengths payload).map UInt32.toNat) := by
  have hfits := BundleParser.fits_of_read hread
  have hsize := hfits.tableEnd_lt
  have hpos := hfits.messageCount
  constructor
  · intro hgiven
    rcases hgiven with ⟨hdefined, hrejected⟩
    obtain ⟨hin, hover⟩ := (deserialize_v1_defined hsize).mp hdefined
    refine ⟨?_, hover⟩
    by_cases hle : header.tableEnd ≤ payload.length
    · exact .inl hle
    refine .inr ⟨by omega, ?_⟩
    -- without a message the payload would be accepted, an octet short of its ids
    by_contra hcount
    have hzero : header.messageCount.toNat = 0 := by omega
    have hnil : header.lengths payload = [] := by
      rw [BundleHeader.lengths, hzero]
      rfl
    refine hrejected ?_ _ ((deserialize_v1_eq_ok hsize).mpr ⟨rfl, hin, [], ?_, rfl⟩)
    · unfold BundleHeader.TooShort
      omega
    · rw [hnil]
      trivial
  · intro hgiven
    rcases hgiven with ⟨hrange, hover⟩
    have hin : header.tableEnd ≤ payload.length + 1 := by
      rcases hrange with h | h
      · omega
      · omega
    refine ⟨(deserialize_v1_defined hsize).mpr ⟨hin, hover⟩, fun hshort c hrun => ?_⟩
    obtain ⟨hend, hcount⟩ := tableEnd_of_tooShort hfits hshort hrun
    rcases hrange with h | h
    · omega
    · omega

theorem decoder_in_bounds_iff_tick :
    DecoderInBounds Jsoncpp.reference tickHeader tickPayload ↔
      tickHeader.InRange tickPayload ∧ ¬ Overflows Jsoncpp.reference tickPayload
        tickHeader.tableEnd ((tickHeader.lengths tickPayload).map UInt32.toNat) :=
  @decoder_in_bounds_iff _ [1, 0, 0, 1, 0, 0, 0, 31] _ _ rfl

/-- A header that announces a send id of 255 octets, before a payload of one. -/
theorem decoder_reads_out_of_range : ∃ header,
    BundleParser.read_bundle_header_v1 [1, 255, 0, 0, 0, 0, 0, 1] = .ok header ∧
      header.remLen.toNat = ([0] : StdString).length ∧
      ¬ DecoderInBounds Jsoncpp.reference header [0] := by
  refine ⟨{ sendIdLen := 255, remLen := 1 }, rfl, rfl, fun h => ?_⟩
  obtain ⟨c', hout⟩ : ∃ c', deserialize_v1 Jsoncpp.reference NEW_BUNDLES
      { sendIdLen := 255, remLen := 1 } [0] {} = .error (.undefined .outOfRange) c' :=
    deserialize_v1_out {} (by decide) (by decide)
  exact h.defined _ _ hout

/-! ## Bad bundles -/

namespace Broker

/-- The decoder says that it failed, its callers pass that on and return, and nothing is
queued. -/
structure Reported (J : Jsoncpp) (header : BundleHeader) (payload : StdString) (b : Broker) :
    Prop where
  deserialize : ∃ c, JsonParser.deserialize J NEW_BUNDLES header payload {} = .ok false c
  parsePacket : ∃ b', parsePacket J header payload b = .ok false b' ∧
    b'.m_incoming = b.m_incoming
  onMessageReceived : ∃ b', onMessageReceived J header payload b = .ok () b' ∧
    b'.m_incoming = b.m_incoming

/-- The result of `deserialize_v1` is never false. -/
theorem deserialize_ne_false {J : Jsoncpp} (header : BundleHeader) (payload : StdString)
    (c c' : MessageConglomerate) :
    JsonParser.deserialize J NEW_BUNDLES header payload c ≠ .ok false c' := by
  intro h
  rw [show JsonParser.deserialize J NEW_BUNDLES header payload =
    deserialize_v1 J true header payload from rfl] at h
  simp only [deserialize_v1, eval_bind_eq_ok, modify_bind_apply] at h
  obtain ⟨sendId, -, destId, -, lens, -, h⟩ := h
  obtain ⟨_, t, -, hret⟩ := bind_eq_ok h
  cases hret

/-- No bundle whose decoding does not succeed is reported: unless it is empty, the
exception, or what is undefined, leaves `onMessageReceived`. -/
theorem bad_bundle_thrown {J : Jsoncpp} {header : BundleHeader} {payload : StdString} (b : Broker)
    (h : ∀ c, JsonParser.deserialize J NEW_BUNDLES header payload {} ≠ .ok true c) :
    ¬ Reported J header payload b ∧
      (payload ≠ [] → ∃ e, onMessageReceived J header payload b = .error e b) := by
  constructor
  · intro hreported
    obtain ⟨c, hfalse⟩ := hreported.deserialize
    exact deserialize_ne_false header payload {} c hfalse
  · intro hne
    rcases onMessageReceived_cases (J := J) b header payload with
      ⟨-, -, what, hrun⟩ | ⟨cause, -, hrun⟩ | ⟨hreturns, -⟩
    · exact ⟨_, hrun⟩
    · exact ⟨_, hrun⟩
    · cases hrun : JsonParser.deserialize J NEW_BUNDLES header payload {} with
      | ok r c =>
        cases r with
        | false => exact absurd hrun (deserialize_ne_false header payload {} c)
        | true => exact absurd hrun (h c)
      | error e c =>
        cases e with
        | exception what =>
          exact absurd ⟨by simpa using hne, what, c, hrun⟩ hreturns
        | undefined cause =>
          refine ⟨.undefined cause, ?_⟩
          have hempty : payload.isEmpty = false := by simpa using hne
          simp only [onMessageReceived, parsePacket, hempty, hrun]
          rfl

/-- One message of one octet, which is no JSON. -/
theorem bad_message : ∃ what c, JsonParser.deserialize Jsoncpp.reference NEW_BUNDLES
    { messageCount := 1, remLen := 4 } [0, 0, 1, 120] {} = .error (.exception what) c := by
  have hfault : fault (JsonParser.deserialize Jsoncpp.reference NEW_BUNDLES
      { messageCount := 1, remLen := 4 } [0, 0, 1, 120] {}) =
      some (.exception "Unable to determine v1 message format (binary or JSON).") := by
    decide +kernel
  exact ⟨_, _, eq_error_of_fault hfault⟩

theorem bad_bundle_thrown_one :
    ¬ Reported Jsoncpp.reference { messageCount := 1, remLen := 4 } [0, 0, 1, 120] ready ∧
      (([0, 0, 1, 120] : StdString) ≠ [] → ∃ e, onMessageReceived Jsoncpp.reference
        { messageCount := 1, remLen := 4 } [0, 0, 1, 120] ready = .error e ready) := by
  obtain ⟨what, t, hrun⟩ := bad_message
  refine bad_bundle_thrown ready fun c hc => ?_
  rw [hrun] at hc
  cases hc

/-- The exception leaves `onMessageReceived`. -/
theorem bad_message_thrown :
    (∀ c, JsonParser.deserialize Jsoncpp.reference NEW_BUNDLES
        { messageCount := 1, remLen := 4 } [0, 0, 1, 120] {} ≠ .ok true c) ∧
      ¬ Reported Jsoncpp.reference { messageCount := 1, remLen := 4 } [0, 0, 1, 120] ready := by
  obtain ⟨what, t, hrun⟩ := bad_message
  constructor
  · intro c hc
    rw [hrun] at hc
    cases hc
  · intro h
    obtain ⟨c, hc⟩ := h.deserialize
    rw [hrun] at hc
    cases hc

end Broker
end Sm4ns3
