import Sm4ns3.Verify.Cursor

/-!
# The version 1 bundle body

`payload` is what `serialize_end_v1` writes and `MessagesAt` says which octets
`deserialize_v1` takes for which message. `deserialize_payload`: reading a
payload succeeds exactly when the octets at the running offsets of its length
table are messages, and yields those messages. `messagesAt_flatten`: that is so
when the texts follow each other without a gap.
-/

namespace Sm4ns3

open Bytes Cpp Call

/-! ## Adding the messages of a length table -/

namespace MessageConglomerate

variable {J : Jsoncpp}

/-- The octets at the running offsets of `lens` are the messages `ms`. -/
def MessagesAt (J : Jsoncpp) (raw : StdString) : Nat → List Nat → List (Json × MessageBase) → Prop
  | _, [], [] => True
  | i, n :: ns, m :: ms => MessageAt J raw i n m.1 m.2 ∧ MessagesAt J raw (i + n) ns ms
  | _, _, _ => False

/-- The running offsets of consecutive lengths, each with its length. -/
def offsetsFrom : Nat → List Nat → List (Int × Int)
  | _, [] => []
  | i, n :: ns => ((i : Int), (n : Int)) :: offsetsFrom (i + n) ns

/-- The conglomerate with a list of further messages. -/
def addedAll (c : MessageConglomerate) (raw : StdString) (i : Nat) (lens : List Nat)
    (ms : List (Json × MessageBase)) : MessageConglomerate :=
  { c with
    messages_v1 := raw
    offsets_v1 := c.offsets_v1 ++ offsetsFrom i lens
    messages_json := c.messages_json ++ ms.map Prod.fst
    message_bases := c.message_bases ++ ms.map Prod.snd }

theorem added_addedAll (c : MessageConglomerate) (raw : StdString) (i n : Nat) (lens : List Nat)
    (m : Json × MessageBase) (ms : List (Json × MessageBase)) :
    (c.added raw i n m.1 m.2).addedAll raw (i + n) lens ms =
      c.addedAll raw i (n :: lens) (m :: ms) := by
  simp [added, addedAll, offsetsFrom]

theorem toInt_length {n : UInt32} (h : n.toNat < 2 ^ 24) : toInt n.toNat = n.toNat :=
  toInt_eq ⟨by omega, by omega⟩

/-- One message, and the position for the next. -/
theorem addMessages_cons_eq_ok {c c' : MessageConglomerate} {msgStr : StdString} {i : Nat}
    {n : UInt32} {ns : List UInt32} (hn : n.toNat < 2 ^ 24) :
    JsonParser.addMessages J true msgStr i (n :: ns) c = .ok () c' ↔
      c.Accepts msgStr ∧ ∃ m : Json × MessageBase,
        MessageAt J (c.underlying msgStr) i n.toNat m.1 m.2 ∧
        JsonParser.addMessages J true [] (i + n.toNat : Nat) ns
          (c.added (c.underlying msgStr) i n.toNat m.1 m.2) = .ok () c' := by
  simp only [JsonParser.addMessages, bind_eq_ok_iff, toInt_length hn, addMessage_v1_eq_ok]
  constructor
  · rintro ⟨-, t, ⟨hacc, v, base, hm, rfl⟩, hrest⟩
    have hlt := toInt_lt (c.underlying msgStr).length
    have hbound := hm.bound
    rw [toInt_eq ⟨by omega, by omega⟩] at hrest
    exact ⟨hacc, (v, base), hm, by exact_mod_cast hrest⟩
  · rintro ⟨hacc, m, hm, hrest⟩
    have hlt := toInt_lt (c.underlying msgStr).length
    have hbound := hm.bound
    refine ⟨(), _, ⟨hacc, m.1, m.2, hm, rfl⟩, ?_⟩
    rw [toInt_eq ⟨by omega, by omega⟩]
    exact_mod_cast hrest

/-- The string is taken with the first message and is there for the others. -/
theorem addMessages_iff {c c' : MessageConglomerate} {msgStr : StdString} {i : Nat}
    {ns : List UInt32} (hacc : ns ≠ [] → c.Accepts msgStr) (hns : ∀ n ∈ ns, n.toNat < 2 ^ 24) :
    JsonParser.addMessages J true msgStr i ns c = .ok () c' ↔
      ∃ ms, MessagesAt J (c.underlying msgStr) i (ns.map UInt32.toNat) ms ∧
        c' = c.addedAll (if ns = [] then c.messages_v1 else c.underlying msgStr) i
          (ns.map UInt32.toNat) ms := by
  induction ns generalizing c msgStr i with
  | nil =>
    constructor
    · intro h
      cases h
      exact ⟨[], trivial, by simp [addedAll, offsetsFrom]⟩
    · rintro ⟨ms, hms, rfl⟩
      cases ms with
      | nil => simp [JsonParser.addMessages, addedAll, offsetsFrom]
      | cons m ms => exact hms.elim
  | cons n ns ih =>
    have hn : n.toNat < 2 ^ 24 := hns n List.mem_cons_self
    have hrest : ∀ k ∈ ns, k.toNat < 2 ^ 24 := fun k hk => hns k (List.mem_cons_of_mem n hk)
    have hnext : ∀ m : Json × MessageBase,
        JsonParser.addMessages J true [] (i + n.toNat : Nat) ns
            (c.added (c.underlying msgStr) i n.toNat m.1 m.2) = .ok () c' ↔
          ∃ ms, MessagesAt J (c.underlying msgStr) (i + n.toNat) (ns.map UInt32.toNat) ms ∧
            c' = c.addedAll (c.underlying msgStr) i (n.toNat :: ns.map UInt32.toNat) (m :: ms) := by
      intro m
      have hstored : (c.added (c.underlying msgStr) i n.toNat m.1 m.2).underlying [] =
          c.underlying msgStr := rfl
      have hsame : (c.added (c.underlying msgStr) i n.toNat m.1 m.2).messages_v1 =
          c.underlying msgStr := rfl
      rw [ih (fun _ => ⟨by simp [added], by simp⟩) hrest, hstored, hsame]
      simp only [ite_self, added_addedAll]
    rw [addMessages_cons_eq_ok hn, if_neg (List.cons_ne_nil n ns)]
    constructor
    · rintro ⟨-, m, hm, h⟩
      obtain ⟨ms, hms, rfl⟩ := (hnext m).mp h
      exact ⟨m :: ms, ⟨hm, hms⟩, rfl⟩
    · rintro ⟨ms, hms, rfl⟩
      cases ms with
      | nil => exact hms.elim
      | cons m ms => exact ⟨hacc (by simp), m, hms.1, (hnext m).mpr ⟨ms, hms.2, rfl⟩⟩

/-- All messages of a fresh conglomerate. -/
theorem addMessages_eq_ok {c' : MessageConglomerate} {senderId raw : StdString} {i : Nat}
    {ns : List UInt32} (hraw : ns ≠ [] → raw ≠ []) (hns : ∀ n ∈ ns, n.toNat < 2 ^ 24) :
    JsonParser.addMessages J true raw i ns { senderId := senderId } = .ok () c' ↔
      ∃ ms, MessagesAt J raw i (ns.map UInt32.toNat) ms ∧
        c' = addedAll { senderId := senderId } (if ns = [] then [] else raw) i
          (ns.map UInt32.toNat) ms := by
  have hstr : underlying { senderId := senderId } raw = raw := by
    by_cases hempty : raw = []
    · rw [hempty]
      rfl
    · exact if_neg hempty
  rw [addMessages_iff (fun hne => ⟨by simp [hraw hne], fun _ => rfl⟩) hns, hstr]

end MessageConglomerate

/-! ## The body of a bundle -/

namespace JsonParser

open MessageConglomerate

variable {J : Jsoncpp}

/-- The octets before the first message. -/
def varHead (vHead : VaryHeader) : StdString :=
  vHead.sendId ++ (vHead.destId ++ vHead.msgLengths.flatMap lengthOctets)

/-- The body that `serialize_end_v1` writes. -/
def payload (ongoing : OngoingSerialization) : StdString :=
  varHead ongoing.vHead ++ ongoing.messages

theorem length_flatMap_lengthOctets (lens : List UInt32) :
    (lens.flatMap lengthOctets).length = lens.length * 3 := by
  induction lens with
  | nil => rfl
  | cons n ns ih =>
    simp only [List.flatMap_cons, List.length_append, ih, List.length_cons]
    simp only [lengthOctets, List.length_cons, List.length_nil]
    omega

theorem length_varHead (vHead : VaryHeader) :
    (varHead vHead).length =
      vHead.sendId.length + (vHead.destId.length + vHead.msgLengths.length * 3) := by
  simp only [varHead, List.length_append, length_flatMap_lengthOctets]

theorem serialize_end_v1_eq (ongoing : OngoingSerialization) :
    serialize_end_v1 ongoing =
      .ok (bundleHeader ongoing.vHead (payload ongoing), payload ongoing) := by
  have hlen := length_varHead ongoing.vHead
  simp only [varHead] at hlen
  unfold serialize_end_v1
  rw [if_neg (by rw [not_not, hlen]; omega)]
  rfl

/-! ## Reading the variable header -/

theorem serialize_end_new (J : Jsoncpp) (ongoing : OngoingSerialization) :
    serialize_end J NEW_BUNDLES ongoing =
      .ok (some (bundleHeader ongoing.vHead (payload ongoing), payload ongoing)) := by
  rw [serialize_end, show NEW_BUNDLES = true from rfl, if_pos rfl, serialize_end_v1_eq]
  rfl

theorem octetAt_middle (a s : StdString) (x : UInt8) : octetAt (a ++ x :: s) a.length = x := by
  simp [octetAt, terminated]

/-- A length table is read back at its offset. -/
theorem lengthsFrom_middle (a : StdString) (ns : List UInt32) (c : StdString)
    (hns : ∀ n ∈ ns, n.toNat < 2 ^ 24) :
    lengthsFrom (a ++ (ns.flatMap lengthOctets ++ c)) ns.length a.length = ns := by
  induction ns generalizing a with
  | nil => rfl
  | cons n ns ih =>
    obtain ⟨x, y, z, hoct, hbe⟩ : ∃ x y z, lengthOctets n = [x, y, z] ∧ be24 x y z = n :=
      ⟨_, _, _, rfl, be24_octets (hns n List.mem_cons_self)⟩
    have hstr : a ++ ((n :: ns).flatMap lengthOctets ++ c) =
        (a ++ [x, y, z]) ++ (ns.flatMap lengthOctets ++ c) := by
      rw [List.flatMap_cons, hoct]
      simp
    have hrest := ih (a ++ [x, y, z]) fun k hk => hns k (List.mem_cons_of_mem n hk)
    have hx := octetAt_middle a (y :: z :: (ns.flatMap lengthOctets ++ c)) x
    have hy := octetAt_middle (a ++ [x]) (z :: (ns.flatMap lengthOctets ++ c)) y
    have hz := octetAt_middle (a ++ [x, y]) (ns.flatMap lengthOctets ++ c) z
    simp only [List.length_append, List.length_cons, List.length_nil, Nat.zero_add,
      List.append_assoc, List.cons_append, List.nil_append] at hstr hrest hx hy hz
    simp only [hstr, List.length_cons, lengthsFrom, lengthAt, hx, hy, hz, hbe, hrest]

/-- Reading the body of a bundle: the variable header is read back, and the
messages are added from its end on. -/
theorem deserialize_v1_payload {ongoing : OngoingSerialization} (c : MessageConglomerate)
    (hns : ∀ n ∈ ongoing.vHead.msgLengths, n.toNat < 2 ^ 24)
    (hsize : (varHead ongoing.vHead).length < 2 ^ 31) :
    deserialize_v1 J true (bundleHeader ongoing.vHead (payload ongoing)) (payload ongoing) c =
      (do
        addMessages J true (payload ongoing) (varHead ongoing.vHead).length ongoing.vHead.msgLengths
        return true) { c with senderId := ongoing.vHead.sendId } := by
  obtain ⟨⟨sendId, destId, ns⟩, messages⟩ := ongoing
  have hlen := length_varHead ⟨sendId, destId, ns⟩
  simp only at hlen hns hsize
  set header := bundleHeader ⟨sendId, destId, ns⟩ (payload ⟨⟨sendId, destId, ns⟩, messages⟩)
  have hsendLen : header.sendIdLen.toNat = sendId.length := by
    simp only [header, bundleHeader, toInt_eq (n := sendId.length) ⟨by omega, by omega⟩,
      Int.toNat_natCast]
  have hdestLen : header.destIdLen.toNat = destId.length := by
    simp only [header, bundleHeader, toInt_eq (n := destId.length) ⟨by omega, by omega⟩,
      Int.toNat_natCast]
  have hcount : header.messageCount.toNat = ns.length := by
    simp only [header, bundleHeader, toInt_eq (n := ns.length) ⟨by omega, by omega⟩,
      Int.toNat_natCast]
  have hend : header.tableEnd = (varHead ⟨sendId, destId, ns⟩).length := by
    rw [hlen, BundleHeader.tableEnd, BundleHeader.tableStart, hsendLen, hdestLen, hcount]
    omega
  have hsend : header.sendId (payload ⟨⟨sendId, destId, ns⟩, messages⟩) = sendId := by
    rw [BundleHeader.sendId, hsendLen]
    simp [slice, terminated, payload, varHead]
  have hlens : header.lengths (payload ⟨⟨sendId, destId, ns⟩, messages⟩) = ns := by
    have hstr : payload ⟨⟨sendId, destId, ns⟩, messages⟩ =
        (sendId ++ destId) ++ (ns.flatMap lengthOctets ++ messages) := by
      simp [payload, varHead]
    have htable := lengthsFrom_middle (sendId ++ destId) ns messages hns
    rwa [← hstr, List.length_append, ← hsendLen, ← hdestLen, ← hcount] at htable
  have hbody : (payload ⟨⟨sendId, destId, ns⟩, messages⟩).length =
      (varHead ⟨sendId, destId, ns⟩).length + messages.length := List.length_append ..
  have hfit : header.tableEnd ≤ (payload ⟨⟨sendId, destId, ns⟩, messages⟩).length + 1 := by
    rw [hend, hbody]
    omega
  rw [deserialize_v1_eq c hfit (by omega), hend, hsend, hlens]

/-- Reading a body into a fresh conglomerate succeeds exactly when the octets at
the running offsets of the length table are messages. -/
theorem deserialize_payload {ongoing : OngoingSerialization} {b : Bool}
    {c' : MessageConglomerate}
    (hns : ∀ n ∈ ongoing.vHead.msgLengths, n.toNat < 2 ^ 24)
    (hsize : (varHead ongoing.vHead).length < 2 ^ 31) :
    deserialize_v1 J true (bundleHeader ongoing.vHead (payload ongoing)) (payload ongoing) {} =
        .ok b c' ↔
      b = true ∧ ∃ ms, MessagesAt J (payload ongoing) (varHead ongoing.vHead).length
          (ongoing.vHead.msgLengths.map UInt32.toNat) ms ∧
        c' = addedAll { senderId := ongoing.vHead.sendId }
          (if ongoing.vHead.msgLengths = [] then [] else payload ongoing)
          (varHead ongoing.vHead).length (ongoing.vHead.msgLengths.map UInt32.toNat) ms := by
  have hraw : ongoing.vHead.msgLengths ≠ [] → payload ongoing ≠ [] := by
    intro hne hnil
    have hpos := List.length_pos_iff.mpr hne
    have hhead := length_varHead ongoing.vHead
    rw [payload, List.append_eq_nil_iff] at hnil
    rw [hnil.1, List.length_nil] at hhead
    omega
  rw [deserialize_v1_payload _ hns hsize, bind_eq_ok_iff]
  constructor
  · rintro ⟨_, t, hadd, hres⟩
    obtain ⟨ms, hms, rfl⟩ := (addMessages_eq_ok hraw hns).mp hadd
    cases hres
    exact ⟨rfl, ms, hms, rfl⟩
  · rintro ⟨rfl, ms, hms, rfl⟩
    exact ⟨(), _, (addMessages_eq_ok hraw hns).mpr ⟨ms, hms, rfl⟩, rfl⟩

end JsonParser

/-! ## Messages and their texts -/

namespace MessageConglomerate

variable {J : Jsoncpp}

/-- `text` is an object text of the value and properties `m`. -/
structure IsMessage (J : Jsoncpp) (text : StdString) (m : Json × MessageBase) : Prop where
  first : text.head? = some 123
  parse : J.parse text = some m.1
  base : ParseJsonMessageBase J m.1 = .ok m.2

/-- Texts that follow each other without a gap are found at their running offsets. -/
theorem messagesAt_flatten {texts : List StdString} {ms : List (Json × MessageBase)}
    (h : List.Forall₂ (IsMessage J) texts ms) (a rest : StdString)
    (hsize : ((a ++ texts.flatten).length : Int) ≤ toInt (a ++ (texts.flatten ++ rest)).length) :
    MessagesAt J (a ++ (texts.flatten ++ rest)) a.length (texts.map List.length) ms := by
  induction h generalizing a with
  | nil => trivial
  | @cons text m texts ms hm _ ih =>
    have hstr : a ++ ((text :: texts).flatten ++ rest) =
        a ++ (text ++ (texts.flatten ++ rest)) := by simp
    have hstr' : a ++ ((text :: texts).flatten ++ rest) =
        (a ++ text) ++ (texts.flatten ++ rest) := by simp
    have hlen : (a ++ (text :: texts).flatten).length =
        a.length + (text.length + texts.flatten.length) := by simp
    have hlen' : ((a ++ text) ++ texts.flatten).length =
        a.length + (text.length + texts.flatten.length) := by simp
    rw [hlen] at hsize
    refine ⟨⟨?_, ?_, ?_, hm.base⟩, ?_⟩
    · push_cast at hsize
      omega
    · obtain ⟨s, rfl⟩ : ∃ s, text = 123 :: s := List.head?_eq_some_iff.mp hm.first
      rw [hstr]
      exact charAt_middle a _ 123
    · rw [hstr, slice_middle]
      exact hm.parse
    · have hnext := ih (a ++ text) (by rw [hlen', ← hstr']; exact hsize)
      rw [← hstr', List.length_append] at hnext
      exact hnext

/-- The last message ends within the string. -/
theorem MessagesAt.bound {raw : StdString} {i : Nat} {lens : List Nat}
    {ms : List (Json × MessageBase)} (h : MessagesAt J raw i lens ms) (hne : lens ≠ []) :
    ((i + lens.sum : Nat) : Int) ≤ toInt raw.length := by
  induction lens generalizing i ms with
  | nil => exact absurd rfl hne
  | cons n ns ih =>
    cases ms with
    | nil => exact h.elim
    | cons m ms =>
      cases ns with
      | nil => simpa using h.1.bound
      | cons k ks =>
        have hrest := ih h.2 (by simp)
        rw [List.sum_cons, ← Nat.add_assoc]
        exact hrest

theorem MessagesAt.length_eq {raw : StdString} {i : Nat} {lens : List Nat}
    {ms : List (Json × MessageBase)} (h : MessagesAt J raw i lens ms) :
    ms.length = lens.length := by
  induction lens generalizing i ms with
  | nil =>
    cases ms with
    | nil => rfl
    | cons m ms => exact h.elim
  | cons n ns ih =>
    cases ms with
    | nil => exact h.elim
    | cons m ms => exact congrArg (· + 1) (ih h.2)

@[simp] theorem length_offsetsFrom (i : Nat) (lens : List Nat) :
    (offsetsFrom i lens).length = lens.length := by
  induction lens generalizing i with
  | nil => rfl
  | cons n ns ih => simp [offsetsFrom, ih]

theorem offsetsFrom_getElem? (i : Nat) (lens : List Nat) (k : Nat) :
    (offsetsFrom i lens)[k]? =
      lens[k]?.map fun n : Nat => (((i + (lens.take k).sum : Nat) : Int), (n : Int)) := by
  induction lens generalizing i k with
  | nil => rfl
  | cons n ns ih =>
    cases k with
    | zero => simp [offsetsFrom]
    | succ k => simp [offsetsFrom, ih, Nat.add_assoc]

end MessageConglomerate
/-! ## Lists of messages -/

/-- A message of a bundle: its text, the value of the text and its type. -/
structure Message where
  text : StdString
  value : Json
  msg_type : StdString

/-- An object text that the reader parses to an object with a string `msg_type`. -/
structure Message.WellFormed (J : Jsoncpp) (m : Message) : Prop where
  first : m.text.head? = some 123
  parse : J.parse m.text = some m.value
  msg_type : ∃ ms, m.value = .object ms ∧ ms.lookup (str "msg_type") = some (.string m.msg_type)

/-- The length table of a list of messages. -/
def lengthTable (msgs : List Message) : List UInt32 :=
  msgs.map fun m => UInt32.ofNat m.text.length

/-- The texts of a list of messages, one after another. -/
def messagesText (msgs : List Message) : StdString := (msgs.map Message.text).flatten

/-- Read through its accessors, `c` holds the messages `msgs` in order. -/
structure MessageConglomerate.Holds (newBundles : Bool) (c : MessageConglomerate)
    (msgs : List Message) : Prop where
  count : c.getCount newBundles = msgs.length
  raw : ∀ (k : Nat) m, msgs[k]? = some m → ∃ body offset length,
    c.getUnderlyingString newBundles = .ok body ∧
    c.getRawMessage newBundles k = .ok (offset, length) ∧
    charRange body offset length = .ok m.text
  json : ∀ (k : Nat) m, msgs[k]? = some m → c.getJsonMessage k = .ok m.value
  base : ∀ (k : Nat) m, msgs[k]? = some m → c.getBaseMessage k = .ok { msg_type := m.msg_type }

theorem Message.WellFormed.isMessage {J : Jsoncpp} {m : Message} (h : m.WellFormed J) :
    MessageConglomerate.IsMessage J m.text (m.value, { msg_type := m.msg_type }) where
  first := h.first
  parse := h.parse
  base := by
    obtain ⟨ms, hv, hlookup⟩ := h.msg_type
    simp [MessageConglomerate.ParseJsonMessageBase, hv, Json.isMember, Json.get, hlookup, bind,
      Except.bind, pure, Except.pure]

/-- The length table holds the lengths of texts that fit it. -/
theorem map_toNat_lengths {texts : List StdString} (h : ∀ t ∈ texts, t.length < 2 ^ 24) :
    (texts.map fun t => UInt32.ofNat t.length).map UInt32.toNat = texts.map List.length := by
  rw [List.map_map]
  refine List.map_congr_left fun t ht => ?_
  have hlt := h t ht
  rw [Function.comp_apply, UInt32.toNat_ofNat', Nat.mod_eq_of_lt (by omega)]

theorem lengths_lt {texts : List StdString} (h : ∀ t ∈ texts, t.length < 2 ^ 24) :
    ∀ n ∈ texts.map fun t => UInt32.ofNat t.length, n.toNat < 2 ^ 24 := by
  intro n hn
  obtain ⟨t, ht, rfl⟩ := List.mem_map.mp hn
  have hlt := h t ht
  rw [UInt32.toNat_ofNat']
  omega

theorem lengthTable_eq (msgs : List Message) :
    lengthTable msgs = (msgs.map Message.text).map fun t => UInt32.ofNat t.length := by
  rw [List.map_map]
  rfl

theorem lengthTable_toNat {msgs : List Message} (h : ∀ m ∈ msgs, m.text.length < 2 ^ 24) :
    (lengthTable msgs).map UInt32.toNat = (msgs.map Message.text).map List.length := by
  rw [lengthTable_eq]
  exact map_toNat_lengths (List.forall_mem_map.mpr h)

theorem lengthTable_lt {msgs : List Message} (h : ∀ m ∈ msgs, m.text.length < 2 ^ 24) :
    ∀ n ∈ lengthTable msgs, n.toNat < 2 ^ 24 := by
  rw [lengthTable_eq]
  exact lengths_lt (List.forall_mem_map.mpr h)

theorem sum_textLengths (msgs : List Message) :
    ((msgs.map Message.text).map List.length).sum = (messagesText msgs).length :=
  (List.length_flatten ..).symm

theorem forall₂_of_wellFormed {J : Jsoncpp} {msgs : List Message}
    (h : ∀ m ∈ msgs, m.WellFormed J) :
    List.Forall₂ (MessageConglomerate.IsMessage J) (msgs.map Message.text)
      (msgs.map fun m => (m.value, { msg_type := m.msg_type })) := by
  rw [List.forall₂_map_left_iff, List.forall₂_map_right_iff, List.forall₂_same]
  exact fun m hm => (h m hm).isMessage

section Messages

open MessageConglomerate JsonParser

variable {J : Jsoncpp} {ongoing : OngoingSerialization} {msgs : List Message}

theorem getRawMessage_addedAll {senderId raw : StdString} {i k n : Nat} {lens : List Nat}
    {ms : List (Json × MessageBase)} (h : lens[k]? = some n) :
    (addedAll { senderId := senderId } raw i lens ms).getRawMessage true k =
      .ok (((i + (lens.take k).sum : Nat) : Int), (n : Int)) := by
  refine vectorAt_eq_ok ?_
  simp only [addedAll, List.nil_append, offsetsFrom_getElem?, h]
  rfl

theorem getCount_addedAll {senderId raw : StdString} {i : Nat} {lens : List Nat}
    {ms : List (Json × MessageBase)} (h : lens.length < 2 ^ 31) :
    (addedAll { senderId := senderId } raw i lens ms).getCount true = lens.length := by
  simp only [getCount, if_true, addedAll, List.nil_append, length_offsetsFrom]
  exact toInt_eq ⟨by omega, by omega⟩

/-- A conglomerate that was given the messages in order holds them. -/
theorem holds_addedAll {senderId raw : StdString} {i : Nat} (hcount : msgs.length < 2 ^ 31)
    (hraw : msgs ≠ [] → slices raw i ((msgs.map Message.text).map List.length) =
      msgs.map Message.text)
    (hfit : msgs ≠ [] → i + ((msgs.map Message.text).map List.length).sum ≤ raw.length) :
    (addedAll { senderId := senderId } raw i
      ((msgs.map Message.text).map List.length)
      (msgs.map fun m => (m.value, { msg_type := m.msg_type }))).Holds true msgs where
  count := by
    rw [getCount_addedAll (by simpa using hcount), List.length_map, List.length_map]
  raw k m hk := by
    have hne : msgs ≠ [] := by
      rintro rfl
      cases hk
    have hle := hfit hne
    have hlen : ((msgs.map Message.text).map List.length)[k]? = some m.text.length := by simp [hk]
    have htext := slices_getElem? raw i ((msgs.map Message.text).map List.length) k
    rw [hraw hne, hlen, List.getElem?_map, hk] at htext
    have hsum : (((msgs.map Message.text).map List.length).take k).sum + m.text.length ≤
        ((msgs.map Message.text).map List.length).sum := by
      have hsplit := List.sum_take_add_sum_drop ((msgs.map Message.text).map List.length) (k + 1)
      rw [List.take_add_one, hlen] at hsplit
      simp only [Option.toList_some, List.sum_append, List.sum_singleton] at hsplit
      omega
    refine ⟨raw, _, _, rfl, getRawMessage_addedAll hlen, ?_⟩
    unfold charRange
    rw [if_pos ⟨by omega, by omega, by omega⟩]
    exact congrArg _ (Option.some.inj htext).symm
  json k m hk := vectorAt_eq_ok (by simp [addedAll, hk])
  base k m hk := vectorAt_eq_ok (by simp [addedAll, hk])

/-- A payload that starts with the texts of messages and has their lengths in its table is
decoded to them. -/
theorem deserialize_texts {texts : List StdString} {ms : List (Json × MessageBase)}
    {rest : StdString} (hall : List.Forall₂ (IsMessage J) texts ms)
    (hshort : ∀ t ∈ texts, t.length < 2 ^ 24)
    (htable : ongoing.vHead.msgLengths = texts.map fun t => UInt32.ofNat t.length)
    (htext : ongoing.messages = texts.flatten ++ rest)
    (hhead : (varHead ongoing.vHead).length < 2 ^ 31)
    (hfit : texts ≠ [] →
      (((varHead ongoing.vHead).length + texts.flatten.length : Nat) : Int) ≤
        toInt (payload ongoing).length) :
    deserialize_v1 J true (bundleHeader ongoing.vHead (payload ongoing)) (payload ongoing) {} =
      .ok true (addedAll { senderId := ongoing.vHead.sendId }
        (if texts = [] then [] else payload ongoing) (varHead ongoing.vHead).length
        (texts.map List.length) ms) := by
  have hpay : payload ongoing = varHead ongoing.vHead ++ (texts.flatten ++ rest) := by
    rw [payload, htext]
  have hat : MessagesAt J (payload ongoing) (varHead ongoing.vHead).length
      (texts.map List.length) ms := by
    cases hall with
    | nil => trivial
    | cons hmsg hmsgs =>
      rw [hpay]
      refine messagesAt_flatten (.cons hmsg hmsgs) _ rest ?_
      rw [List.length_append, ← hpay]
      exact hfit (List.cons_ne_nil _ _)
  have hrun := (deserialize_payload (J := J) (htable ▸ lengths_lt hshort) hhead).mpr
    ⟨rfl, ms, by rw [htable, map_toNat_lengths hshort]; exact hat, rfl⟩
  rw [htable, map_toNat_lengths hshort] at hrun
  simpa only [List.map_eq_nil_iff] using hrun

/-- A payload that starts with the texts of `msgs` and has their length table is
decoded to them. -/
theorem deserialize_messages {rest : StdString}
    (hmsgs : ∀ m ∈ msgs, m.WellFormed J ∧ m.text.length < 2 ^ 24)
    (htable : ongoing.vHead.msgLengths = lengthTable msgs)
    (htext : ongoing.messages = messagesText msgs ++ rest)
    (hhead : (varHead ongoing.vHead).length < 2 ^ 31)
    (hfit : msgs ≠ [] →
      (((varHead ongoing.vHead).length + (messagesText msgs).length : Nat) : Int) ≤
        toInt (payload ongoing).length) :
    ∃ c, deserialize_v1 J true (bundleHeader ongoing.vHead (payload ongoing)) (payload ongoing) {} =
      .ok true c ∧ c.senderId = ongoing.vHead.sendId ∧ c.Holds true msgs := by
  have hcount : msgs.length < 2 ^ 31 := by
    have hlen := length_varHead ongoing.vHead
    rw [htable, lengthTable, List.length_map] at hlen
    omega
  have hpay : payload ongoing = varHead ongoing.vHead ++ (messagesText msgs ++ rest) := by
    rw [payload, htext]
  have hrun := deserialize_texts (forall₂_of_wellFormed fun m hm => (hmsgs m hm).1)
    (List.forall_mem_map.mpr fun m hm => (hmsgs m hm).2) (htable.trans (lengthTable_eq msgs))
    htext hhead fun hne => hfit (by simpa using hne)
  refine ⟨_, hrun, rfl, holds_addedAll hcount (fun hne => ?_) (fun hne => ?_)⟩
  · rw [if_neg (by simpa using hne), hpay]
    exact slices_flatten _ _ _
  · rw [if_neg (by simpa using hne), sum_textLengths, hpay]
    simp

/-- A conglomerate that holds the messages has their lengths, and their texts at the
running offsets. -/
theorem texts_of_holds {senderId raw : StdString} {i : Nat} {lens : List Nat}
    {ms : List (Json × MessageBase)} (hlen : lens.length = msgs.length)
    (hc : (addedAll { senderId := senderId } raw i lens ms).Holds true msgs) :
    lens = (msgs.map Message.text).map List.length ∧
      slices raw i lens = msgs.map Message.text := by
  have hone : ∀ (k n : Nat) (m : Message), lens[k]? = some n → msgs[k]? = some m →
      n = m.text.length ∧ slice raw (i + (lens.take k).sum) n = m.text := by
    intro k n m hn hm
    obtain ⟨body, offset, length, hbody, hraw, hrange⟩ := hc.raw k m hm
    obtain rfl : raw = body := Except.ok.inj hbody
    rw [getRawMessage_addedAll hn] at hraw
    cases hraw
    obtain ⟨hle, hslice⟩ := slice_of_charRange hrange
    refine ⟨?_, hslice⟩
    rw [← hslice, length_slice hle]
  have hboth : ∀ k : Nat, lens[k]? = ((msgs.map Message.text).map List.length)[k]? ∧
      (slices raw i lens)[k]? = (msgs.map Message.text)[k]? := by
    intro k
    rw [slices_getElem?]
    cases hn : lens[k]? with
    | none =>
      have hk : msgs[k]? = none := by
        rw [List.getElem?_eq_none_iff] at hn ⊢
        omega
      simp [hk]
    | some n =>
      obtain ⟨m, hm⟩ : ∃ m, msgs[k]? = some m := by
        have hlt := (List.getElem?_eq_some_iff.mp hn).1
        exact ⟨_, List.getElem?_eq_getElem (by omega)⟩
      obtain ⟨hsize, htext⟩ := hone k n m hn hm
      subst hsize
      simp [hm, htext]
  exact ⟨List.ext_getElem? fun k => (hboth k).1, List.ext_getElem? fun k => (hboth k).2⟩

/-- A payload with the length table of `msgs` that is decoded to them starts with
their texts. -/
theorem messages_of_deserialize {c : MessageConglomerate} {b : Bool}
    (hlt : ∀ m ∈ msgs, m.text.length < 2 ^ 24)
    (htable : ongoing.vHead.msgLengths = lengthTable msgs)
    (hhead : (varHead ongoing.vHead).length < 2 ^ 31)
    (h : deserialize_v1 J true (bundleHeader ongoing.vHead (payload ongoing)) (payload ongoing) {} =
      .ok b c) (hc : c.Holds true msgs) (hne : msgs ≠ []) :
    messagesText msgs <+: ongoing.messages ∧
      (((varHead ongoing.vHead).length + (messagesText msgs).length : Nat) : Int) ≤
        toInt (payload ongoing).length := by
  have hlens := lengthTable_toNat hlt
  have hsum := sum_textLengths msgs
  obtain ⟨-, ms, hms, rfl⟩ := (deserialize_payload (htable ▸ lengthTable_lt hlt) hhead).mp h
  have htable' : ongoing.vHead.msgLengths ≠ [] := by simpa [htable, lengthTable] using hne
  rw [if_neg htable'] at hc
  rw [htable, hlens] at hms hc
  have hbound := hms.bound (by simpa using hne)
  rw [hsum] at hbound
  refine ⟨?_, hbound⟩
  have htexts := congrArg List.flatten (texts_of_holds (by simp) hc).2
  rw [flatten_slices, hsum, payload] at htexts
  rw [messagesText, ← htexts]
  unfold slice
  rw [List.drop_left]
  exact List.take_prefix _ _

end Messages
end Sm4ns3
