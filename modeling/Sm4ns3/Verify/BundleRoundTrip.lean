import Sm4ns3.Verify.BundleCodec

/-!
# Round trip of a version 1 bundle
-/

namespace Sm4ns3

open Bytes Cpp Call JsonParser

/-- `serialize_begin` on a fresh object, then `addGeneric` for each text. -/
def JsonParser.bundleOf (newBundles : Bool) (sendId destId : StdString)
    (texts : List StdString) : OngoingSerialization :=
  texts.foldl (addGeneric newBundles) (serialize_begin {} sendId destId)

/-- Adding texts extends the length table and the text and nothing else. -/
theorem foldl_addGeneric (ongoing : OngoingSerialization) (texts : List StdString) :
    texts.foldl (addGeneric true) ongoing =
      { vHead := { ongoing.vHead with
          msgLengths := ongoing.vHead.msgLengths ++ texts.map fun t => UInt32.ofNat t.length }
        messages := ongoing.messages ++ texts.flatten } := by
  induction texts generalizing ongoing with
  | nil => simp
  | cons text texts ih =>
    rw [List.foldl_cons, ih]
    simp [addGeneric]

theorem bundleOf_eq (sendId destId : StdString) (msgs : List Message) :
    bundleOf true sendId destId (msgs.map Message.text) =
      { vHead := { sendId := sendId, destId := destId, msgLengths := lengthTable msgs }
        messages := messagesText msgs } := by
  rw [bundleOf, foldl_addGeneric]
  simp [serialize_begin, lengthTable, messagesText]

/-- Counts that fit an octet give a header that fits. -/
theorem bundleHeader_fits {vHead : VaryHeader} (hsend : vHead.sendId.length ≤ 255)
    (hdest : vHead.destId.length ≤ 255) (hcount : vHead.msgLengths.length ≤ 255)
    (res : StdString) : (bundleHeader vHead res).Fits := by
  have fits : ∀ n : Nat, n ≤ 255 → 0 ≤ toInt n ∧ toInt n ≤ 255 := by
    intro n hn
    rw [toInt_eq ⟨by omega, by omega⟩]
    omega
  constructor
  · simpa only [bundleHeader] using fits _ hsend
  · simpa only [bundleHeader] using fits _ hdest
  · simpa only [bundleHeader] using fits _ hcount

/-- A bundle built from well-formed messages, its header sent through the wire
format, is decoded to the sender and the messages it was built from. -/
theorem bundle_round_trip {J : Jsoncpp} {sendId destId : StdString} {msgs : List Message}
    (hsend : sendId.length ≤ 255) (hdest : destId.length ≤ 255) (hcount : msgs.length ≤ 255)
    (hmsgs : ∀ m ∈ msgs, m.WellFormed J ∧ 1 ≤ m.text.length ∧ m.text.length ≤ 2 ^ 24 - 1)
    (htotal : sendId.length + destId.length + 3 * msgs.length + (messagesText msgs).length
      < 2 ^ 31) :
    ∃ header body, serialize_end_v1 (bundleOf NEW_BUNDLES sendId destId (msgs.map Message.text)) =
        .ok (header, body) ∧
      ∃ received, BundleParser.read_bundle_header_v1 (BundleParser.make_bundle_header_v1 header) =
          .ok received ∧
        ∃ conglom, deserialize_v1 J NEW_BUNDLES received body {} = .ok true conglom ∧
          conglom.senderId = sendId ∧ conglom.Holds NEW_BUNDLES msgs := by
  rw [show NEW_BUNDLES = true from rfl, bundleOf_eq]
  set ongoing : OngoingSerialization :=
    { vHead := { sendId := sendId, destId := destId, msgLengths := lengthTable msgs }
      messages := messagesText msgs } with hongoing
  have htable : (lengthTable msgs).length = msgs.length := List.length_map ..
  have hhead : (varHead ongoing.vHead).length =
      sendId.length + (destId.length + msgs.length * 3) := by
    rw [length_varHead, ← htable]
  have hbody : (payload ongoing).length =
      (varHead ongoing.vHead).length + (messagesText msgs).length := List.length_append ..
  refine ⟨_, _, serialize_end_v1_eq ongoing, bundleHeader ongoing.vHead (payload ongoing), ?_, ?_⟩
  · exact BundleParser.read_make_v1 (bundleHeader_fits hsend hdest (by rw [htable]; exact hcount) _)
  · refine deserialize_messages ?_ rfl (List.append_nil _).symm (by omega) ?_
    · exact fun m hm => ⟨(hmsgs m hm).1, by have := hmsgs m hm; omega⟩
    · intro _
      rw [toInt_eq ⟨by omega, by omega⟩, hbody]

/-- The tick that Sim Mobility sends. -/
def tickedSimmob : Message where
  text := str "\x7b\"msg_type\":\"ticked_simmob\"\x7d"
  value := .object [(str "msg_type", .string (str "ticked_simmob"))]
  msg_type := str "ticked_simmob"

theorem tickedSimmob_wellFormed : tickedSimmob.WellFormed Jsoncpp.reference where
  first := rfl
  parse := by decide +kernel
  msg_type := ⟨_, rfl, rfl⟩

theorem bundle_round_trip_ticks :
    ∃ header body, serialize_end_v1 (bundleOf NEW_BUNDLES (str "0") (str "987654321")
        ([tickedSimmob, tickedSimmob].map Message.text)) = .ok (header, body) ∧
      ∃ received, BundleParser.read_bundle_header_v1 (BundleParser.make_bundle_header_v1 header) =
          .ok received ∧
        ∃ conglom, deserialize_v1 Jsoncpp.reference NEW_BUNDLES received body {} =
            .ok true conglom ∧
          conglom.senderId = str "0" ∧
          conglom.Holds NEW_BUNDLES [tickedSimmob, tickedSimmob] :=
  bundle_round_trip (by decide) (by decide) (by decide)
    (fun m hm => by
      obtain rfl : m = tickedSimmob := by simpa using hm
      exact ⟨tickedSimmob_wellFormed, by decide, by decide⟩)
    (by decide)

end Sm4ns3
