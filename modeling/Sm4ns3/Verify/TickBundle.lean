import Sm4ns3.Verify.BundleRoundTrip
import Sm4ns3.Verify.OpaqueRoundTrip
import Sm4ns3.Verify.Nodes

/-!
# The bundle of a tick

`pushToQueue` writes the updates and the records of a tick as messages, `tickMessages`,
and decodes them at once. Within the limits of the format the broker is given these
messages (`pushToQueue_ok`). A multicast beyond them is parsed in part, which the reader
refuses, so that what `pushToQueue` returns with was within the limits
(`fits_of_deserialize`).
-/

namespace Sm4ns3

open Bytes Cpp Call JsonParser MessageConglomerate
open Broker (textOf)

/-- The JSON layer preserves the coordinates of these locations. -/
def Jsoncpp.PreservesLocations (J : Jsoncpp) (locations : Std.TreeMap StdString DPoint) : Prop :=
  J.parse (textOf J (allLocations locations)) = some (allLocations locations).cut

/-- Finite coordinates are read back. -/
theorem Jsoncpp.ReadsBack.preservesLocations {J : Jsoncpp} (hJ : J.ReadsBack)
    {locations : Std.TreeMap StdString DPoint} (hne : locations.isEmpty = false)
    (h : ∀ it ∈ locations.toList, it.2.x.isFinite = true ∧ it.2.y.isFinite = true) :
    J.PreservesLocations locations := by
  rw [PreservesLocations, allLocations_eq hne]
  refine parse_textOf hJ (narrow_locationsOf _) ?_
  rw [cut_locationsOf]
  refine canonical_locationsOf fun it hit => ?_
  obtain ⟨it, hmem, rfl⟩ := List.mem_map.mp hit
  exact h it hmem

namespace RoadRunnerBaseLine

/-! ## The messages of a tick -/

/-- The `all_locations` of a tick. -/
def locationsMessage (J : Jsoncpp) (locations : Std.TreeMap StdString DPoint) : Message :=
  writtenMessage J (allLocations locations) (str "all_locations")

/-- The `opaque_send` of a record. -/
def multicastMessage (J : Jsoncpp) (record : TickMulticast) : Message :=
  opaqueMessage J record.receiveAgId record.mcData (str "base64escape") (str "dsrc")

/-- The messages of a tick, as they are decoded. -/
def tickMessages (J : Jsoncpp) (tick : TimeTick) : List Message :=
  (if tick.update_agent.isEmpty then [] else [locationsMessage J tick.update_agent]) ++
    tick.multicast.map (multicastMessage J)

theorem tickMessages_cases {J : Jsoncpp} {tick : TimeTick} {m : Message}
    (h : m ∈ tickMessages J tick) :
    (tick.update_agent.isEmpty = false ∧ m = locationsMessage J tick.update_agent) ∨
      ∃ record ∈ tick.multicast, m = multicastMessage J record := by
  rcases List.mem_append.mp h with h | h
  · by_cases hempty : tick.update_agent.isEmpty = true
    · rw [if_pos hempty] at h
      cases h
    · rw [if_neg hempty] at h
      exact .inl ⟨by simpa using hempty, List.mem_singleton.mp h⟩
  · obtain ⟨record, hrecord, rfl⟩ := List.mem_map.mp h
    exact .inr ⟨record, hrecord, rfl⟩

/-- The bundle of a tick while it is built. -/
def tickOngoing (J : Jsoncpp) (tick : TimeTick) : OngoingSerialization :=
  bundleOf true (str "0") (str "987654321") ((tickMessages J tick).map Message.text)

/-- Every message of the tick fits its length, and the bundle an `int`. -/
structure TickFits (J : Jsoncpp) (tick : TimeTick) : Prop where
  short : ∀ m ∈ tickMessages J tick, m.text.length < 2 ^ 24
  total : 10 + 3 * (tickMessages J tick).length + (messagesText (tickMessages J tick)).length <
    2 ^ 31

section Bundle

variable {J : Jsoncpp} {tick : TimeTick}

theorem makeJson_written (ongoing : OngoingSerialization) {json : Json}
    (hnarrow : JsonSingleLineWriter.narrow json = true) :
    makeJson J NEW_BUNDLES ongoing json = .ok (addGeneric true ongoing (textOf J json)) := by
  rw [makeJson, show PREFER_BINARY_MESSAGES = false from rfl, throwIf_false, except_ok_bind,
    show (!NEW_BUNDLES) = false from rfl]
  dsimp only
  rw [write_textOf hnarrow]
  rfl

theorem pushMulticasts_eq (records : List TickMulticast) (ongoing : OngoingSerialization) :
    records.foldlM (pushMulticast J) ongoing =
      .ok ((records.map fun record => (multicastMessage J record).text).foldl
        (addGeneric true) ongoing) := by
  induction records generalizing ongoing with
  | nil => rfl
  | cons record records ih =>
    have hhead : pushMulticast J ongoing record =
        .ok (addGeneric true ongoing (multicastMessage J record).text) :=
      makeJson_written ongoing (narrow_opaqueSend _ _ _ _)
    rw [List.foldlM_cons, hhead, except_ok_bind, ih, List.map_cons, List.foldl_cons]

/-- The bundle of a tick is made of its messages. -/
theorem tickBundle_eq : tickBundle J tick =
    .ok (bundleHeader (tickOngoing J tick).vHead (payload (tickOngoing J tick)),
      payload (tickOngoing J tick)) := by
  have hmulticast : (tick.multicast.map (multicastMessage J)).map Message.text =
      tick.multicast.map fun record => (multicastMessage J record).text := by
    rw [List.map_map]
    rfl
  have hrest : ∀ ongoing, (do
      let ongoing ← tick.multicast.foldlM (pushMulticast J) ongoing
      return (← serialize_end J NEW_BUNDLES ongoing).getD ({}, [])) =
        let last := (tick.multicast.map fun record => (multicastMessage J record).text).foldl
          (addGeneric true) ongoing
        .ok (bundleHeader last.vHead (payload last), payload last) := by
    intro ongoing
    rw [pushMulticasts_eq, except_ok_bind, serialize_end_new]
    rfl
  rw [tickOngoing, bundleOf, tickMessages, List.map_append, List.foldl_append, hmulticast,
    tickBundle]
  by_cases hempty : tick.update_agent.isEmpty = true
  · rw [if_pos hempty, if_pos hempty, except_pure_bind]
    exact hrest _
  · have hlocations : makeAllLocations J NEW_BUNDLES
        (serialize_begin {} (str "0") (str "987654321")) tick.update_agent =
          .ok (addGeneric true (serialize_begin {} (str "0") (str "987654321"))
            (locationsMessage J tick.update_agent).text) := by
      apply makeJson_written
      rw [Bool.not_eq_true] at hempty
      rw [allLocations_eq hempty]
      exact narrow_locationsOf _
    rw [if_neg hempty, if_neg hempty, hlocations, except_ok_bind]
    exact hrest _

theorem tickOngoing_eq : tickOngoing J tick =
    { vHead := { sendId := str "0", destId := str "987654321"
                 msgLengths := lengthTable (tickMessages J tick) }
      messages := messagesText (tickMessages J tick) } :=
  bundleOf_eq _ _ _

theorem length_varHead_tick :
    (varHead (tickOngoing J tick).vHead).length = 10 + 3 * (tickMessages J tick).length := by
  rw [length_varHead, tickOngoing_eq, lengthTable, List.length_map]
  have hsend : (str "0").length = 1 := rfl
  have hdest : (str "987654321").length = 9 := rfl
  rw [hsend, hdest]
  omega

theorem length_payload_tick : (payload (tickOngoing J tick)).length =
    10 + 3 * (tickMessages J tick).length + (messagesText (tickMessages J tick)).length := by
  rw [payload, List.length_append, length_varHead_tick, tickOngoing_eq]

theorem locationsMessage_wellFormed {locations : Std.TreeMap StdString DPoint}
    (hne : locations.isEmpty = false) (h : J.PreservesLocations locations) :
    (locationsMessage J locations).WellFormed J := by
  have heq := allLocations_eq hne
  have hcut : (allLocations locations).cut =
      locationsOf (locations.toList.map fun it => (cString it.1, it.2)) := by
    rw [heq, cut_locationsOf]
  exact writtenMessage_wellFormed heq (heq ▸ narrow_locationsOf _) h hcut rfl

theorem tickMessages_wellFormed (hJ : J.ReadsBack)
    (h : tick.update_agent.isEmpty = false → J.PreservesLocations tick.update_agent) :
    ∀ m ∈ tickMessages J tick, m.WellFormed J := by
  intro m hm
  obtain ⟨hlocated, rfl⟩ | ⟨record, -, rfl⟩ := tickMessages_cases hm
  · exact locationsMessage_wellFormed hlocated (h hlocated)
  · exact opaqueMessage_wellFormed hJ

/-- A tick within the limits is decoded to its messages. -/
theorem deserialize_tick (hmsgs : ∀ m ∈ tickMessages J tick, m.WellFormed J)
    (hfits : TickFits J tick) :
    ∃ c, deserialize J NEW_BUNDLES
        (bundleHeader (tickOngoing J tick).vHead (payload (tickOngoing J tick)))
        (payload (tickOngoing J tick)) {} = .ok true c ∧ c.Holds true (tickMessages J tick) := by
  have htotal := hfits.total
  have htext : (tickOngoing J tick).messages = messagesText (tickMessages J tick) ++ [] := by
    rw [tickOngoing_eq, List.append_nil]
  have hfit : (((varHead (tickOngoing J tick).vHead).length +
      (messagesText (tickMessages J tick)).length : Nat) : Int) ≤
        toInt (payload (tickOngoing J tick)).length := by
    rw [length_payload_tick, length_varHead_tick, toInt_eq ⟨by omega, by omega⟩]
  obtain ⟨c, hrun, -, hholds⟩ := deserialize_messages
    (fun m hm => ⟨hmsgs m hm, hfits.short m hm⟩)
    (congrArg (fun o => o.vHead.msgLengths) tickOngoing_eq) htext
    (by rw [length_varHead_tick]; omega) fun _ => hfit
  exact ⟨c, by rw [deserialize_new]; exact hrun, hholds⟩

/-! ## Beyond the limits -/

/-- What three octets hold of a length. -/
def lowOctets (n : UInt32) : UInt32 := UInt32.ofNat (n.toNat % 2 ^ 24)

theorem toNat_lowOctets (n : UInt32) : (lowOctets n).toNat = n.toNat % 2 ^ 24 := by
  rw [lowOctets, UInt32.toNat_ofNat']
  omega

theorem lengthOctets_lowOctets (n : UInt32) : lengthOctets (lowOctets n) = lengthOctets n := by
  have hfirst : (lowOctets n >>> 16).toUInt8 = (n >>> 16).toUInt8 := by
    apply UInt8.toNat_inj.mp
    rw [octet16_toNat, octet16_toNat, toNat_lowOctets]
    omega
  have hsecond : (lowOctets n >>> 8).toUInt8 = (n >>> 8).toUInt8 := by
    apply UInt8.toNat_inj.mp
    rw [octet8_toNat, octet8_toNat, toNat_lowOctets]
    omega
  have hthird : (lowOctets n).toUInt8 = n.toUInt8 := by
    apply UInt8.toNat_inj.mp
    rw [UInt32.toNat_toUInt8, UInt32.toNat_toUInt8, toNat_lowOctets]
    omega
  rw [lengthOctets, lengthOctets, hfirst, hsecond, hthird]

/-- Lengths that do not fit three octets are read without what is above them. -/
theorem messagesAt_of_deserialize {ongoing : OngoingSerialization} {b : Bool}
    {c : MessageConglomerate} (hsize : (varHead ongoing.vHead).length < 2 ^ 31)
    (h : deserialize_v1 J true (bundleHeader ongoing.vHead (payload ongoing)) (payload ongoing)
      {} = .ok b c) :
    ∃ ms, MessagesAt J (payload ongoing) (varHead ongoing.vHead).length
      (ongoing.vHead.msgLengths.map fun n => n.toNat % 2 ^ 24) ms := by
  obtain ⟨⟨sendId, destId, ns⟩, messages⟩ := ongoing
  have htable : (ns.map lowOctets).flatMap lengthOctets = ns.flatMap lengthOctets := by
    rw [List.flatMap_map]
    exact List.flatMap_congr fun n _ => lengthOctets_lowOctets n
  have hhead : varHead ⟨sendId, destId, ns.map lowOctets⟩ = varHead ⟨sendId, destId, ns⟩ := by
    rw [varHead, varHead, htable]
  have hpayload : payload ⟨⟨sendId, destId, ns.map lowOctets⟩, messages⟩ =
      payload ⟨⟨sendId, destId, ns⟩, messages⟩ := by
    rw [payload, payload, hhead]
  have hheader : ∀ body, bundleHeader ⟨sendId, destId, ns.map lowOctets⟩ body =
      bundleHeader ⟨sendId, destId, ns⟩ body := by
    intro body
    rw [bundleHeader, bundleHeader, List.length_map]
  have hlow : ∀ n ∈ ns.map lowOctets, n.toNat < 2 ^ 24 := by
    intro n hn
    obtain ⟨n, -, rfl⟩ := List.mem_map.mp hn
    rw [toNat_lowOctets]
    omega
  dsimp only at h hsize ⊢
  rw [← hpayload, ← hheader] at h
  obtain ⟨-, ms, hms, -⟩ := (deserialize_payload hlow (by dsimp only; rwa [hhead])).mp h
  refine ⟨ms, ?_⟩
  dsimp only at hms
  rw [hpayload, hhead, List.map_map] at hms
  rw [show (fun n : UInt32 => n.toNat % 2 ^ 24) = UInt32.toNat ∘ lowOctets from
    funext fun n => (toNat_lowOctets n).symm]
  exact hms

/-- Texts that are found at their running offsets have their length when what they start
with is refused. -/
theorem short_of_messagesAt {texts : List StdString} {a : StdString}
    {ms : List (Json × MessageBase)}
    (h : MessagesAt J (a ++ texts.flatten) a.length (texts.map fun t => t.length % 2 ^ 24) ms)
    (htexts : ∀ t ∈ texts, 2 ^ 24 ≤ t.length → ∀ k < t.length, J.parse (t.take k) = none) :
    ∀ t ∈ texts, t.length < 2 ^ 24 := by
  induction texts generalizing a ms with
  | nil => simp
  | cons text texts ih =>
    obtain ⟨htext, hrest⟩ := List.forall_mem_cons.mp htexts
    cases ms with
    | nil => exact h.elim
    | cons m ms =>
      obtain ⟨hfirst, hnext⟩ := h
      have hshort : text.length < 2 ^ 24 := by
        by_contra hlong
        have hk : text.length % 2 ^ 24 < text.length := by omega
        have hslice : slice (a ++ (text :: texts).flatten) a.length (text.length % 2 ^ 24) =
            text.take (text.length % 2 ^ 24) := by
          rw [slice, List.drop_left, List.flatten_cons, List.take_append_of_le_length (by omega)]
        have hparse := hfirst.parse
        rw [hslice, htext (by omega) _ hk] at hparse
        cases hparse
      have hat : MessagesAt J (a ++ text ++ texts.flatten) (a ++ text).length
          (texts.map fun t => t.length % 2 ^ 24) ms := by
        rw [List.length_append, List.append_assoc, ← List.flatten_cons]
        dsimp only at hnext
        rwa [Nat.mod_eq_of_lt hshort] at hnext
      exact List.forall_mem_cons.mpr ⟨hshort, ih hat hrest⟩

/-- A tick that is decoded was within the limits. -/
theorem fits_of_deserialize (hJ : J.RefusesTruncated)
    (hcount : (tickMessages J tick).length < 2 ^ 31)
    (hlocations : tick.update_agent.isEmpty = false →
      (textOf J (allLocations tick.update_agent)).length < 2 ^ 24)
    {b : Bool} {c : MessageConglomerate}
    (h : deserialize J NEW_BUNDLES
      (bundleHeader (tickOngoing J tick).vHead (payload (tickOngoing J tick)))
      (payload (tickOngoing J tick)) {} = .ok b c) : TickFits J tick := by
  rw [deserialize_new] at h
  have hend : (varHead (tickOngoing J tick).vHead).length < 2 ^ 31 := by
    have hlt := tableEnd_lt_of_deserialize_v1 h
    have hsend : toInt (str "0").length = 1 := toInt_eq (n := 1) ⟨by decide, by decide⟩
    have hdest : toInt (str "987654321").length = 9 := toInt_eq (n := 9) ⟨by decide, by decide⟩
    have hmsgs : toInt (tickMessages J tick).length = (tickMessages J tick).length :=
      toInt_eq ⟨by omega, by omega⟩
    rw [tickOngoing_eq, BundleHeader.tableEnd, BundleHeader.tableStart] at hlt
    simp only [bundleHeader, lengthTable, List.length_map, hsend, hdest, hmsgs] at hlt
    rw [length_varHead_tick]
    omega
  obtain ⟨ms, hms⟩ := messagesAt_of_deserialize hend h
  have hlengths : (tickOngoing J tick).vHead.msgLengths.map (fun n => n.toNat % 2 ^ 24) =
      ((tickMessages J tick).map Message.text).map fun t => t.length % 2 ^ 24 := by
    rw [tickOngoing_eq, lengthTable, List.map_map, List.map_map]
    refine List.map_congr_left fun m _ => ?_
    simp only [Function.comp_apply, UInt32.toNat_ofNat']
    omega
  have hpayload : payload (tickOngoing J tick) = varHead (tickOngoing J tick).vHead ++
      ((tickMessages J tick).map Message.text).flatten := by
    rw [payload, tickOngoing_eq, messagesText]
  rw [hlengths, hpayload] at hms
  have hshort : ∀ t ∈ (tickMessages J tick).map Message.text, t.length < 2 ^ 24 := by
    refine short_of_messagesAt hms fun t ht hlong k hk => ?_
    obtain ⟨m, hm, rfl⟩ := List.mem_map.mp ht
    obtain ⟨hlocated, rfl⟩ | ⟨record, -, rfl⟩ := tickMessages_cases hm
    · exact absurd (hlocations hlocated) (Nat.not_lt.mpr hlong)
    · obtain ⟨obj, hobject, -⟩ := opaqueSend_object record.receiveAgId record.mcData
        (str "base64escape") (str "dsrc")
      refine parse_take_textOf hJ hobject (narrow_opaqueSend _ _ _ _) ?_ hk
      rw [cut_opaqueSend]
      exact canonical_opaqueSend _ _ _ _
  refine ⟨fun m hm => hshort _ (List.mem_map_of_mem hm), ?_⟩
  by_cases hnil : tickMessages J tick = []
  · rw [hnil]
    decide
  · have hmod : (((tickMessages J tick).map Message.text).map fun t => t.length % 2 ^ 24).sum =
        (messagesText (tickMessages J tick)).length := by
      rw [messagesText, List.length_flatten]
      refine congrArg List.sum (List.map_congr_left fun t ht => ?_)
      exact Nat.mod_eq_of_lt (hshort t ht)
    have hbound := hms.bound (by simpa using hnil)
    rw [hmod, length_varHead_tick] at hbound
    have hlt := toInt_lt (varHead (tickOngoing J tick).vHead ++
      ((tickMessages J tick).map Message.text).flatten).length
    omega

/-! ## `pushToQueue` -/

theorem pushToQueue_iff {r r' : RoadRunnerBaseLine} {u : Unit} {header : BundleHeader}
    {body : StdString} (hcurrent : r.second r.currTick = .ok tick)
    (hbundle : tickBundle J tick = .ok (header, body)) :
    pushToQueue J r = .ok u r' ↔ ∃ b c, deserialize J NEW_BUNDLES header body {} = .ok b c ∧
      r' = { r with m_incoming := r.m_incoming.push c } := by
  rw [pushToQueue, get_bind_apply, hcurrent, eval_ok, pure_bind_apply, hbundle, eval_ok,
    pure_bind_apply]
  dsimp only
  cases hrun : deserialize J NEW_BUNDLES header body {} with
  | ok b c =>
    constructor
    · intro h
      cases h
      exact ⟨b, c, rfl, rfl⟩
    · intro h
      obtain ⟨_, _, heq, rfl⟩ := h
      cases heq
      rfl
  | error e c =>
    constructor
    · intro h
      cases h
    · intro h
      obtain ⟨_, _, heq, -⟩ := h
      cases heq

/-- `pushToQueue` changes the queue and nothing else. -/
theorem pushToQueue_eq_ok {r r' : RoadRunnerBaseLine} {u : Unit} (h : pushToQueue J r = .ok u r') :
    ∃ tick b c, r.second r.currTick = .ok tick ∧ deserialize J NEW_BUNDLES
        (bundleHeader (tickOngoing J tick).vHead (payload (tickOngoing J tick)))
        (payload (tickOngoing J tick)) {} = .ok b c ∧
      r' = { r with m_incoming := r.m_incoming.push c } := by
  obtain ⟨tick, hcurrent⟩ : ∃ tick, r.second r.currTick = .ok tick := by
    rw [pushToQueue, get_bind_apply, eval_bind_eq_ok] at h
    obtain ⟨tick, hcurrent, -⟩ := h
    exact ⟨tick, hcurrent⟩
  exact ⟨tick, by simpa [hcurrent] using (pushToQueue_iff hcurrent tickBundle_eq).mp h⟩

/-- The broker is given the messages of the tick. -/
theorem pushToQueue_ok {r : RoadRunnerBaseLine} (hcurrent : r.second r.currTick = .ok tick)
    (hmsgs : ∀ m ∈ tickMessages J tick, m.WellFormed J) (hfits : TickFits J tick) :
    ∃ c, c.Holds true (tickMessages J tick) ∧
      pushToQueue J r = .ok () { r with m_incoming := r.m_incoming.push c } := by
  obtain ⟨c, hrun, hholds⟩ := deserialize_tick hmsgs hfits
  exact ⟨c, hholds, (pushToQueue_iff hcurrent tickBundle_eq).mpr ⟨true, c, hrun, rfl⟩⟩

end Bundle

end RoadRunnerBaseLine
end Sm4ns3
