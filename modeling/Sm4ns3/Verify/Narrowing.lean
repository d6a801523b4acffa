import Sm4ns3.Verify.BundleRoundTrip
import Sm4ns3.Verify.Decoder
import Sm4ns3.Network.Session

/-!
# Bundles that do not fit version 1

The three counts of the header are narrowed to an octet and a length of the table to
three, on the sending side without a check. `recovered_iff` says what survives that: at
most 255 messages after a send id of at most 255 octets, if the octets of the table
and of the messages are found where the narrowed header looks for them.
-/

namespace Sm4ns3

open Bytes Cpp Call JsonParser MessageConglomerate

/-! ## The table of a payload -/

theorem lengthOctets_be24 (a b c : UInt8) : lengthOctets (be24 a b c) = [a, b, c] := by
  obtain ⟨ha, hb, hc⟩ := octets_be24 a b c
  rw [lengthOctets, ha, hb, hc]

/-- The octets that spell a table. -/
theorem flatMap_lengthsFrom {s : StdString} {n i : Nat} (h : i + 3 * n ≤ s.length + 1) :
    (lengthsFrom s n i).flatMap lengthOctets = slice (terminated s) i (3 * n) := by
  induction n generalizing i with
  | zero => simp [lengthsFrom, slice]
  | succ n ih =>
    rw [lengthsFrom, List.flatMap_cons, lengthAt, lengthOctets_be24, ih (by omega),
      show 3 * (n + 1) = 3 * n + 1 + 1 + 1 by omega, slice_terminated_succ (by omega),
      slice_terminated_succ (by omega), slice_terminated_succ (by omega)]
    rfl

theorem slice_terminated {s : StdString} {i n : Nat} (h : i + n ≤ s.length) :
    slice (terminated s) i n = slice s i n := slice_append_left h

/-! ## What the receiver makes of a bundle -/

/-- The length table and the texts of a list of messages. -/
def tableAndTexts (msgs : List Message) : StdString :=
  (lengthTable msgs).flatMap lengthOctets ++ messagesText msgs

/-- The body of the bundle of a list of messages. -/
def bundleBody (sendId destId : StdString) (msgs : List Message) : StdString :=
  sendId ++ (destId ++ tableAndTexts msgs)

/-- The header and the body, read on the other side, give back the send id and the
messages. -/
def Recovered (J : Jsoncpp) (sendId : StdString) (msgs : List Message) (header : BundleHeader)
    (body : StdString) : Prop :=
  ∃ received c, BundleParser.read_bundle_header_v1 (BundleParser.make_bundle_header_v1 header) =
      .ok received ∧
    deserialize_v1 J NEW_BUNDLES received body {} = .ok true c ∧ c.senderId = sendId ∧
    c.Holds NEW_BUNDLES msgs

/-- The send id and the number of messages fit an octet, the messages fit their length,
and the length table and the texts stand where the narrowed length of the destination
id points to, within what an `int` can count. -/
def Survives (sendId destId : StdString) (msgs : List Message) : Prop :=
  sendId.length ≤ 255 ∧ msgs.length ≤ 255 ∧
    (msgs = [] ∨ (∀ m ∈ msgs, m.text.length < 2 ^ 24) ∧
      tableAndTexts msgs <+: (destId ++ tableAndTexts msgs).drop (destId.length % 256) ∧
      ((sendId.length + destId.length % 256 + (tableAndTexts msgs).length : Nat) : Int) ≤
        toInt (bundleBody sendId destId msgs).length)

theorem serialize_end_v1_bundleOf (sendId destId : StdString) (msgs : List Message) :
    serialize_end_v1 (bundleOf NEW_BUNDLES sendId destId (msgs.map Message.text)) =
      .ok (bundleHeader { sendId := sendId, destId := destId, msgLengths := lengthTable msgs }
        (bundleBody sendId destId msgs), bundleBody sendId destId msgs) := by
  rw [show NEW_BUNDLES = true from rfl, bundleOf_eq, serialize_end_v1_eq]
  simp [payload, varHead, bundleBody, tableAndTexts]

/-- A count is narrowed to its last octet. -/
theorem toNat_ofInt_toInt (n : Nat) : (UInt8.ofInt (toInt n)).toNat = n % 256 := by
  have hmod : toInt n % 256 = (n % 256 : Nat) := by
    have hdef := Int.bmod_emod (x := (n : Int)) (m := 2 ^ 32)
    unfold toInt
    omega
  simp [UInt8.ofInt, hmod]
  omega

/-- The header that is received for a bundle of messages. -/
theorem narrowed_bundleHeader (sendId destId body : StdString) (msgs : List Message) :
    BundleParser.narrowed (bundleHeader
        { sendId := sendId, destId := destId, msgLengths := lengthTable msgs } body) =
      { sendIdLen := (sendId.length % 256 : Nat)
        destIdLen := (destId.length % 256 : Nat)
        messageCount := (msgs.length % 256 : Nat)
        remLen := UInt32.ofNat body.length } := by
  simp only [BundleParser.narrowed, bundleHeader, toNat_ofInt_toInt, lengthTable, List.length_map]

theorem length_tableAndTexts (msgs : List Message) :
    (tableAndTexts msgs).length = 3 * msgs.length + (messagesText msgs).length := by
  rw [tableAndTexts, List.length_append, length_flatMap_lengthOctets, lengthTable,
    List.length_map]
  omega

/-- What follows the send id and part of the destination id. -/
theorem drop_bundleBody (sendId destId : StdString) (msgs : List Message) (n : Nat) :
    (bundleBody sendId destId msgs).drop (sendId.length + n) =
      (destId ++ tableAndTexts msgs).drop n := by
  rw [bundleBody, ← List.drop_drop, List.drop_left]

/-- What the header received says of the body: its counts are the last octets of the
numbers that were written. -/
structure Narrowed (received : BundleHeader) (sendId destId : StdString) (msgs : List Message) :
    Prop where
  start : received.tableStart = sendId.length % 256 + destId.length % 256
  tableEnd : received.tableEnd = received.tableStart + 3 * (msgs.length % 256)
  sendId : ∀ body, received.sendId body = slice (terminated body) 0 (sendId.length % 256)
  lengths : ∀ body, received.lengths body =
    lengthsFrom body (msgs.length % 256) received.tableStart

theorem narrowed_narrowed (sendId destId body : StdString) (msgs : List Message) :
    Narrowed (BundleParser.narrowed (bundleHeader
      { sendId := sendId, destId := destId, msgLengths := lengthTable msgs } body))
      sendId destId msgs := by
  rw [narrowed_bundleHeader]
  constructor
  · simp only [BundleHeader.tableStart, Int.toNat_natCast]
  · simp only [BundleHeader.tableEnd, Int.toNat_natCast]
  · intro body
    simp only [BundleHeader.sendId, Int.toNat_natCast]
  · intro body
    simp only [BundleHeader.lengths, Int.toNat_natCast]

section Recovered

variable {J : Jsoncpp} {sendId destId body : StdString} {msgs : List Message}
  {received : BundleHeader}

theorem length_bundleBody (sendId destId : StdString) (msgs : List Message) :
    (bundleBody sendId destId msgs).length =
      sendId.length + (destId.length + (tableAndTexts msgs).length) := by
  rw [bundleBody, List.length_append, List.length_append]

/-! ### From what was decoded -/

/-- The send id that is read has as many octets as its narrowed count says. -/
theorem Narrowed.length_sendId (hnarrow : Narrowed received sendId destId msgs)
    (h : received.sendId (bundleBody sendId destId msgs) = sendId) :
    sendId.length = sendId.length % 256 := by
  have hle : 0 + sendId.length % 256 ≤
      (terminated (bundleBody sendId destId msgs)).length := by
    rw [length_terminated, length_bundleBody]
    omega
  have hlen := length_slice hle
  rwa [← hnarrow.sendId, h] at hlen

theorem Narrowed.length_lengths (hnarrow : Narrowed received sendId destId msgs)
    (body : StdString) : (received.lengths body).length = msgs.length % 256 := by
  rw [hnarrow.lengths, length_lengthsFrom]

/-- Lengths that were read fit three octets, so those of the messages do. -/
theorem lengths_of_sizes (hsizes : (received.lengths body).map UInt32.toNat =
      (msgs.map Message.text).map List.length) :
    (∀ m ∈ msgs, m.text.length < 2 ^ 24) ∧ received.lengths body = lengthTable msgs := by
  have hshort : ∀ m ∈ msgs, m.text.length < 2 ^ 24 := by
    intro m hm
    have hmem : m.text.length ∈ (received.lengths body).map UInt32.toNat := by
      rw [hsizes]
      exact List.mem_map_of_mem (List.mem_map_of_mem hm)
    obtain ⟨n, hn, heq⟩ := List.mem_map.mp hmem
    rw [← heq]
    exact lengthsFrom_lt body _ _ n hn
  refine ⟨hshort, ?_⟩
  rw [← lengthTable_toNat hshort] at hsizes
  exact List.map_injective_iff.mpr (fun _ _ h => UInt32.toNat_inj.mp h) hsizes

/-- The octets that the table and the texts were read from. -/
theorem Narrowed.slice_tableAndTexts (hnarrow : Narrowed received sendId destId msgs)
    (hcount : msgs.length % 256 = msgs.length)
    (htable : received.lengths body = lengthTable msgs)
    (hfit : received.tableEnd + (messagesText msgs).length ≤ body.length)
    (htexts : slice body received.tableEnd (messagesText msgs).length = messagesText msgs) :
    slice body received.tableStart (tableAndTexts msgs).length = tableAndTexts msgs := by
  have hend := hnarrow.tableEnd
  rw [hcount] at hend
  have hwithin : received.tableStart + 3 * msgs.length ≤ body.length := by omega
  have hoctets : (lengthTable msgs).flatMap lengthOctets =
      slice body received.tableStart (3 * msgs.length) := by
    rw [← htable, hnarrow.lengths, hcount, flatMap_lengthsFrom (hwithin.trans (Nat.le_succ _)),
      slice_terminated hwithin]
  rw [length_tableAndTexts, slice_add, ← hend, htexts, tableAndTexts, hoctets]

/-- What is decoded to the messages has them where the narrowed header points to. -/
theorem survives_of_deserialize (hnarrow : Narrowed received sendId destId msgs)
    {c : MessageConglomerate}
    (hrun : deserialize_v1 J true received (bundleBody sendId destId msgs) {} = .ok true c)
    (hsender : c.senderId = sendId) (hholds : c.Holds true msgs) :
    Survives sendId destId msgs := by
  have hstart := hnarrow.start
  have hend := hnarrow.tableEnd
  have hlensLen := hnarrow.length_lengths (bundleBody sendId destId msgs)
  obtain ⟨-, hin, ms, hms, rfl⟩ := (deserialize_v1_eq_ok (by omega)).mp hrun
  have hsendLen := hnarrow.length_sendId hsender
  have hcount : msgs.length % 256 = msgs.length := by
    have hlt : ((received.lengths (bundleBody sendId destId msgs)).map
        UInt32.toNat).length < 2 ^ 31 := by
      rw [List.length_map]
      omega
    have hget := hholds.count
    rw [getCount_addedAll hlt, List.length_map, hlensLen] at hget
    exact Int.ofNat_inj.mp hget
  refine ⟨by omega, by omega, ?_⟩
  by_cases hne : msgs = []
  · exact .inl hne
  have hpos := List.length_pos_iff.mpr hne
  have hstored : received.lengths (bundleBody sendId destId msgs) ≠ [] := by
    intro hnil
    rw [hnil, List.length_nil] at hlensLen
    omega
  rw [if_neg hstored] at hholds
  obtain ⟨hsizes, hslices⟩ :=
    texts_of_holds (by rw [List.length_map, hlensLen, hcount]) hholds
  obtain ⟨hshort, htable⟩ := lengths_of_sizes hsizes
  have hsum : ((received.lengths (bundleBody sendId destId msgs)).map UInt32.toNat).sum =
      (messagesText msgs).length := by
    rw [hsizes]
    exact (List.length_flatten ..).symm
  have hbound := hms.bound (by simpa using hstored)
  rw [hsum] at hbound
  have hfit : received.tableEnd + (messagesText msgs).length ≤
      (bundleBody sendId destId msgs).length :=
    Int.ofNat_le.mp (hbound.trans (toInt_le _))
  have htexts := congrArg List.flatten hslices
  rw [flatten_slices, hsum] at htexts
  have hoctets := hnarrow.slice_tableAndTexts hcount htable hfit htexts
  rw [← hsendLen] at hstart
  refine .inr ⟨hshort, ?_, ?_⟩
  · rw [← drop_bundleBody sendId, ← hstart, ← hoctets, slice]
    exact List.take_prefix _ _
  · have hposition : sendId.length + destId.length % 256 + (tableAndTexts msgs).length =
        received.tableEnd + (messagesText msgs).length := by
      rw [length_tableAndTexts]
      clear hbound
      omega
    rw [hposition]
    exact hbound

/-! ### From where the octets stand -/

/-- The table and the texts stand where the header says that the table starts. -/
structure Placed (received : BundleHeader) (msgs : List Message) (front rest body : StdString) :
    Prop where
  body : body = front ++ ((lengthTable msgs).flatMap lengthOctets ++ (messagesText msgs ++ rest))
  start : front.length = received.tableStart
  tableEnd : received.tableEnd = received.tableStart + 3 * msgs.length

section Placed

variable {front rest : StdString}

/-- What survives is placed. -/
theorem Narrowed.placed (hnarrow : Narrowed received sendId destId msgs)
    (hsendId : sendId.length ≤ 255) (hcount : msgs.length ≤ 255)
    (hinitial : tableAndTexts msgs <+:
      (destId ++ tableAndTexts msgs).drop (destId.length % 256)) :
    ∃ front rest, Placed received msgs front rest (bundleBody sendId destId msgs) := by
  obtain ⟨rest, hrest⟩ := hinitial
  have hlen := length_bundleBody sendId destId msgs
  have hstart : received.tableStart = sendId.length + destId.length % 256 := by
    have hnarrowed := hnarrow.start
    omega
  refine ⟨(bundleBody sendId destId msgs).take received.tableStart, rest, ?_, ?_, ?_⟩
  · have hdrop : (bundleBody sendId destId msgs).drop received.tableStart =
        tableAndTexts msgs ++ rest := by
      rw [hrest, hstart, drop_bundleBody]
    rw [← List.append_assoc _ (messagesText msgs), ← tableAndTexts, ← hdrop,
      List.take_append_drop]
  · rw [List.length_take]
    omega
  · rw [hnarrow.tableEnd, Nat.mod_eq_of_lt (by omega)]

theorem Placed.length_table (h : Placed received msgs front rest body) :
    (front ++ (lengthTable msgs).flatMap lengthOctets).length = received.tableEnd := by
  rw [List.length_append, h.start, length_flatMap_lengthOctets, lengthTable, List.length_map,
    h.tableEnd, Nat.mul_comm]

theorem Placed.texts_behind (h : Placed received msgs front rest body) :
    body = (front ++ (lengthTable msgs).flatMap lengthOctets) ++
      ((msgs.map Message.text).flatten ++ rest) := by
  rw [List.append_assoc]
  exact h.body

/-- The table that is read is the one that was written. -/
theorem Placed.lengths (h : Placed received msgs front rest body)
    (hshort : ∀ m ∈ msgs, m.text.length < 2 ^ 24)
    (hread : received.lengths body = lengthsFrom body msgs.length received.tableStart) :
    received.lengths body = lengthTable msgs := by
  have htable := lengthsFrom_middle front (lengthTable msgs) (messagesText msgs ++ rest)
    (lengthTable_lt hshort)
  rwa [← h.body, h.start, lengthTable, List.length_map, ← lengthTable, ← hread] at htable

/-- The texts are read as the messages. -/
theorem Placed.messagesAt (h : Placed received msgs front rest body)
    (hmsgs : ∀ m ∈ msgs, m.WellFormed J)
    (hbound : ((received.tableEnd + (messagesText msgs).length : Nat) : Int) ≤
      toInt body.length) :
    MessagesAt J body received.tableEnd ((msgs.map Message.text).map List.length)
      (msgs.map fun m => (m.value, { msg_type := m.msg_type })) := by
  have hall : List.Forall₂ (IsMessage J) (msgs.map Message.text)
      (msgs.map fun m => (m.value, { msg_type := m.msg_type })) := by
    rw [List.forall₂_map_left_iff, List.forall₂_map_right_iff, List.forall₂_same]
    exact fun m hm => (hmsgs m hm).isMessage
  have hsize : (((front ++ (lengthTable msgs).flatMap lengthOctets) ++
      (msgs.map Message.text).flatten).length : Int) ≤
      toInt ((front ++ (lengthTable msgs).flatMap lengthOctets) ++
        ((msgs.map Message.text).flatten ++ rest)).length := by
    rw [List.length_append, h.length_table, ← h.texts_behind]
    exact hbound
  have hfound := messagesAt_flatten hall _ rest hsize
  rwa [h.length_table, ← h.texts_behind] at hfound

/-- The texts are kept as the messages. -/
theorem Placed.holds (h : Placed received msgs front rest body) (hcount : msgs.length ≤ 255)
    (htable : received.lengths body = lengthTable msgs) (senderId : StdString) :
    (addedAll { senderId := senderId } (if received.lengths body = [] then [] else body)
      received.tableEnd ((msgs.map Message.text).map List.length)
      (msgs.map fun m => (m.value, { msg_type := m.msg_type }))).Holds true msgs := by
  refine holds_addedAll (by omega) (fun hne => ?_) (fun hne => ?_)
  · have hstored : received.lengths body ≠ [] := by simpa [htable, lengthTable] using hne
    rw [if_neg hstored, ← h.length_table]
    nth_rewrite 1 [h.texts_behind]
    exact slices_flatten _ _ _
  · have hstored : received.lengths body ≠ [] := by simpa [htable, lengthTable] using hne
    have hbodyLen := congrArg List.length h.texts_behind
    rw [if_neg hstored, ← h.length_table, ← List.length_flatten]
    simp only [List.length_append] at hbodyLen ⊢
    omega

end Placed

/-- Messages that stand where the narrowed header points to are decoded. -/
theorem deserialize_of_survives (hnarrow : Narrowed received sendId destId msgs)
    (hmsgs : ∀ m ∈ msgs, m.WellFormed J) (h : Survives sendId destId msgs) :
    ∃ c, deserialize_v1 J true received (bundleBody sendId destId msgs) {} = .ok true c ∧
      c.senderId = sendId ∧ c.Holds true msgs := by
  obtain ⟨hsendLe, hcountLe, hrest⟩ := h
  have hstart := hnarrow.start
  have hend := hnarrow.tableEnd
  have hlens := hnarrow.lengths (bundleBody sendId destId msgs)
  have hlen := length_bundleBody sendId destId msgs
  have htextLen := length_tableAndTexts msgs
  have hin : received.tableEnd ≤ (bundleBody sendId destId msgs).length + 1 := by omega
  have hsender : received.sendId (bundleBody sendId destId msgs) = sendId := by
    rw [hnarrow.sendId, slice_terminated (by omega), Nat.mod_eq_of_lt (by omega)]
    simp [slice, bundleBody]
  rw [Nat.mod_eq_of_lt (by omega : msgs.length < 256)] at hlens hend
  rcases hrest with hnil | ⟨hshort, hinitial, hbound⟩
  · subst hnil
    refine ⟨_, (deserialize_v1_eq_ok (by omega)).mpr ⟨rfl, hin, [], ?_, rfl⟩, hsender, ?_⟩
    · rw [hlens]
      trivial
    · rw [hlens]
      exact @holds_addedAll [] _ _ _ (by simp) (by simp) (by simp)
  · obtain ⟨front, rest, hplaced⟩ := hnarrow.placed hsendLe hcountLe hinitial
    have htable := hplaced.lengths hshort hlens
    have hsizes : (received.lengths (bundleBody sendId destId msgs)).map UInt32.toNat =
        (msgs.map Message.text).map List.length := by
      rw [htable, lengthTable_toNat hshort]
    have hposition : received.tableEnd + (messagesText msgs).length =
        sendId.length + destId.length % 256 + (tableAndTexts msgs).length := by
      clear hbound
      omega
    have hat := hplaced.messagesAt hmsgs (hposition ▸ hbound)
    refine ⟨_, (deserialize_v1_eq_ok (by omega)).mpr ⟨rfl, hin, _, by rw [hsizes]; exact hat, rfl⟩,
      hsender, ?_⟩
    rw [hsizes]
    exact hplaced.holds hcountLe htable _

end Recovered

/-! ## What is reported -/

/-- What survives is exactly what the receiver recovers. -/
theorem recovered_iff {J : Jsoncpp} {sendId destId : StdString} {msgs : List Message}
    (hmsgs : ∀ m ∈ msgs, m.WellFormed J) :
    Recovered J sendId msgs
        (bundleHeader { sendId := sendId, destId := destId, msgLengths := lengthTable msgs }
          (bundleBody sendId destId msgs)) (bundleBody sendId destId msgs) ↔
      Survives sendId destId msgs := by
  have hnarrow := narrowed_narrowed sendId destId (bundleBody sendId destId msgs) msgs
  constructor
  · intro hgiven
    rcases hgiven with ⟨received, c, hread, hrun, hsender, hholds⟩
    rw [BundleParser.read_make] at hread
    cases hread
    exact survives_of_deserialize hnarrow hrun hsender hholds
  · intro h
    obtain ⟨c, hrun, hsender, hholds⟩ := deserialize_of_survives hnarrow hmsgs h
    exact ⟨_, c, BundleParser.read_make _, hrun, hsender, hholds⟩

/-- The session writes the header and the text and says so. -/
theorem Session.write_eq_true {s : Session} {header : BundleHeader} {text : StdString} :
    (∃ s', Session.write header text s = .ok true s') ↔ s.is_open = true ∧
      toInt (BundleParser.make_bundle_header_v1 header ++ text).length ≠ 0 := by
  have hne : (BundleParser.make_bundle_header_v1 header).isEmpty = false := rfl
  rw [Session.write, show BundleParser.make_bundle_header NEW_BUNDLES header =
    BundleParser.make_bundle_header_v1 header from rfl]
  simp only [modify_bind_apply, hne, Bool.false_eq_true, if_false, get_bind_apply,
    raiseIf_bind_eq_ok, set_bind_apply, pure_apply]
  constructor
  · intro h
    rcases h with ⟨s', hopen, hret⟩
    refine ⟨by simpa using hopen, fun hzero => ?_⟩
    rw [hzero] at hret
    cases hret
  · intro h
    rcases h with ⟨hopen, hcount⟩
    exact ⟨_, by simpa using hopen, by rw [decide_eq_true hcount]⟩

/-- Where serializing, the header and the write all succeed, what was sent is recovered. -/
def NotCorrupt (J : Jsoncpp) (s : Session) (sendId destId : StdString) (msgs : List Message) :
    Prop :=
  ∀ header body s',
    serialize_end_v1 (bundleOf NEW_BUNDLES sendId destId (msgs.map Message.text)) =
      .ok (header, body) →
    BundleParser.make_bundle_header_v1 header ≠ [] → Session.write header body s = .ok true s' →
    Recovered J sendId msgs header body

/-- A bundle is sent and corrupt unless the socket is closed, the whole length is a
multiple of `2 ^ 32`, which the result of the write takes for nothing written, or the
messages survive the narrowing. -/
theorem not_corrupt_iff {J : Jsoncpp} {s : Session} {sendId destId : StdString}
    {msgs : List Message} (hmsgs : ∀ m ∈ msgs, m.WellFormed J) :
    NotCorrupt J s sendId destId msgs ↔
      s.is_open = false ∨
        toInt (header_length + (bundleBody sendId destId msgs).length : Nat) = 0 ∨
        Survives sendId destId msgs := by
  rw [← recovered_iff hmsgs]
  constructor
  · intro h
    by_cases hopen : s.is_open = true
    · by_cases hcount :
          toInt (header_length + (bundleBody sendId destId msgs).length : Nat) = 0
      · exact .inr (.inl hcount)
      · have hwhole : toInt (BundleParser.make_bundle_header_v1 (bundleHeader
            { sendId := sendId, destId := destId, msgLengths := lengthTable msgs }
            (bundleBody sendId destId msgs)) ++ bundleBody sendId destId msgs).length ≠ 0 := by
          rw [List.length_append, BundleParser.length_make_bundle_header_v1]
          exact hcount
        obtain ⟨s', hwrite⟩ := Session.write_eq_true.mpr ⟨hopen, hwhole⟩
        exact .inr (.inr (h _ _ s' (serialize_end_v1_bundleOf sendId destId msgs)
          (List.cons_ne_nil _ _) hwrite))
    · exact .inl (by simpa using hopen)
  · intro h header body s' hend _ hwrite
    rw [serialize_end_v1_bundleOf] at hend
    cases hend
    obtain ⟨hopen, hcount⟩ := Session.write_eq_true.mp ⟨s', hwrite⟩
    rw [List.length_append, BundleParser.length_make_bundle_header_v1] at hcount
    rcases h with h | h | h
    · rw [hopen] at h
      cases h
    · exact absurd h hcount
    · exact h

theorem not_corrupt_iff_tick :
    NotCorrupt Jsoncpp.reference { is_open := true } (str "0") (str "987654321")
        [tickedSimmob] ↔
      true = false ∨
        toInt (header_length +
          (bundleBody (str "0") (str "987654321") [tickedSimmob]).length : Nat) = 0 ∨
        Survives (str "0") (str "987654321") [tickedSimmob] :=
  not_corrupt_iff fun m hm => by
    obtain rfl : m = tickedSimmob := by simpa using hm
    exact tickedSimmob_wellFormed

/-- The count of 256 messages is written as zero. -/
theorem many_messages_corrupt :
    ¬ NotCorrupt Jsoncpp.reference { is_open := true } (str "0") (str "987654321")
      (List.replicate 256 tickedSimmob) := by
  intro h
  have hmsgs : ∀ m ∈ List.replicate 256 tickedSimmob, m.WellFormed Jsoncpp.reference := by
    intro m hm
    rw [List.eq_of_mem_replicate hm]
    exact tickedSimmob_wellFormed
  obtain ⟨s', hwrite⟩ : ∃ s', Session.write (bundleHeader
      { sendId := str "0", destId := str "987654321"
        msgLengths := lengthTable (List.replicate 256 tickedSimmob) }
      (bundleBody (str "0") (str "987654321") (List.replicate 256 tickedSimmob)))
      (bundleBody (str "0") (str "987654321") (List.replicate 256 tickedSimmob))
      { is_open := true } = .ok true s' :=
    Session.write_eq_true.mpr ⟨rfl, by decide +kernel⟩
  have hsurvives := (recovered_iff hmsgs).mp
    (h _ _ s' (serialize_end_v1_bundleOf _ _ _) (List.cons_ne_nil _ _) hwrite)
  have hcount := hsurvives.2.1
  rw [List.length_replicate] at hcount
  omega

end Sm4ns3
