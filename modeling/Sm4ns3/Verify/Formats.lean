import Sm4ns3.Message.Messages
import Sm4ns3.Verify.BundleRoundTrip
import Sm4ns3.Verify.Outgoing

/-!
# The two bundle formats

Version 0 joins the texts of the messages with commas, reads the array that this makes,
wraps it into one document and writes that; version 1 puts the texts behind a table of
their lengths. What is decoded is the same but for the sender: version 0 hands its id to
the writer, which takes it up to the first NUL, and version 1 sends its octets.
-/

namespace Sm4ns3

open Bytes Cpp Call JsonParser MessageConglomerate
open Broker (textOf)

/-- An object with a `msg_type` whose text the length table can hold; a reader builds the
values that are written. -/
structure Sendable (J : Jsoncpp) (v : Json) : Prop where
  object : ∃ ms, v = .object ms
  canonical : v.cut.canonical = true
  msg_type : ∃ base, ParseJsonMessageBase J v.cut = .ok base
  written : ({ appendNewline := false } : JsonSingleLineWriter).write J v = .ok (textOf J v)
  short : (textOf J v).length < 2 ^ 24

/-- A fresh bundle with these messages. -/
def bundleOfValues (J : Jsoncpp) (newBundles : Bool) (sendId destId : StdString)
    (vs : List Json) : Except Fault OngoingSerialization :=
  vs.foldlM (makeUnknownJSON J newBundles) (serialize_begin {} sendId destId)

/-- The bundle of the messages is built, ended and decoded to `c`. -/
def DecodedAs (J : Jsoncpp) (newBundles : Bool) (sendId destId : StdString) (vs : List Json)
    (c : MessageConglomerate) : Prop :=
  ∃ ongoing header body, bundleOfValues J newBundles sendId destId vs = .ok ongoing ∧
    serialize_end J newBundles ongoing = .ok (some (header, body)) ∧
    deserialize J newBundles header body {} = .ok true c

/-- The conglomerate has these messages, from `sendId`. -/
structure Carries (J : Jsoncpp) (newBundles : Bool) (sendId : StdString) (vs : List Json)
    (c : MessageConglomerate) : Prop where
  sender : c.senderId = sendId
  count : c.getCount newBundles = toInt vs.length
  json : c.messages_json = vs.map Json.cut
  bases : List.Forall₂ (fun v base => ParseJsonMessageBase J (Json.cut v) = .ok base) vs
    c.message_bases

section Formats

variable {J : Jsoncpp} {sendId destId : StdString} {vs : List Json}

theorem makeUnknownJSON_eq {newBundles : Bool} {ongoing : OngoingSerialization} {v : Json}
    {text : StdString}
    (h : ({ appendNewline := !newBundles } : JsonSingleLineWriter).write J v = .ok text) :
    makeUnknownJSON J newBundles ongoing v = .ok (addGeneric newBundles ongoing text) := by
  rw [makeUnknownJSON, makeJson, show PREFER_BINARY_MESSAGES = false from rfl, throwIf_false,
    except_ok_bind]
  dsimp only
  rw [h]
  rfl

/-- A bundle of values is the bundle of their texts. -/
theorem foldlM_makeUnknownJSON {newBundles : Bool} {text : Json → StdString}
    (h : ∀ v ∈ vs, ({ appendNewline := !newBundles } : JsonSingleLineWriter).write J v =
      .ok (text v)) (ongoing : OngoingSerialization) :
    vs.foldlM (makeUnknownJSON J newBundles) ongoing =
      .ok ((vs.map text).foldl (addGeneric newBundles) ongoing) := by
  induction vs generalizing ongoing with
  | nil => rfl
  | cons v vs ih =>
    obtain ⟨hv, hvs⟩ := List.forall_mem_cons.mp h
    rw [List.foldlM_cons, makeUnknownJSON_eq hv, except_ok_bind, ih hvs]
    rfl

/-! ## Version 1 -/

theorem isMessage_of_sendable (hJ : J.ReadsBack) {v : Json} (hv : Sendable J v) {base : MessageBase}
    (hbase : ParseJsonMessageBase J v.cut = .ok base) : IsMessage J (textOf J v) (v.cut, base) where
  first := by
    obtain ⟨ms, rfl⟩ := hv.object
    exact JsonSingleLineWriter.write_object_head hv.written
  parse := hJ _ hv.canonical hv.written
  base := hbase

theorem exists_forall₂ {α β : Type} {R : α → β → Prop} {xs : List α} (h : ∀ x ∈ xs, ∃ y, R x y) :
    ∃ ys, List.Forall₂ R xs ys := by
  induction xs with
  | nil => exact ⟨[], .nil⟩
  | cons x xs ih =>
    obtain ⟨⟨y, hy⟩, hxs⟩ := List.forall_mem_cons.mp h
    obtain ⟨ys, hys⟩ := ih hxs
    exact ⟨y :: ys, .cons hy hys⟩

theorem exists_bases (h : ∀ v ∈ vs, Sendable J v) : ∃ bases,
    List.Forall₂ (fun v base => ParseJsonMessageBase J (Json.cut v) = .ok base) vs bases :=
  exists_forall₂ fun v hv => (h v hv).msg_type

theorem forall₂_isMessage (hJ : J.ReadsBack) (h : ∀ v ∈ vs, Sendable J v)
    {bases : List MessageBase}
    (hbases : List.Forall₂ (fun v base => ParseJsonMessageBase J (Json.cut v) = .ok base)
      vs bases) :
    List.Forall₂ (IsMessage J) (vs.map (textOf J)) ((vs.map Json.cut).zip bases) := by
  induction hbases with
  | nil => exact .nil
  | cons hbase _ ih =>
    obtain ⟨hv, hvs⟩ := List.forall_mem_cons.mp h
    exact .cons (isMessage_of_sendable hJ hv hbase) (ih hvs)

theorem carries_new (hJ : J.ReadsBack) (hvs : ∀ v ∈ vs, Sendable J v)
    (htotal : sendId.length + destId.length + 3 * vs.length +
      ((vs.map (textOf J)).flatten).length < 2 ^ 31) :
    ∃ c, DecodedAs J true sendId destId vs c ∧ Carries J true sendId vs c := by
  obtain ⟨bases, hbases⟩ := exists_bases hvs
  have hlenBases := hbases.length_eq
  have hbundle : bundleOfValues J true sendId destId vs = .ok
      { vHead := { sendId := sendId, destId := destId
                   msgLengths := (vs.map (textOf J)).map fun t => UInt32.ofNat t.length }
        messages := (vs.map (textOf J)).flatten } := by
    rw [bundleOfValues, foldlM_makeUnknownJSON fun v hv => (hvs v hv).written, foldl_addGeneric]
    rfl
  have hshort : ∀ t ∈ vs.map (textOf J), t.length < 2 ^ 24 := by
    intro t ht
    obtain ⟨v, hv, rfl⟩ := List.mem_map.mp ht
    exact (hvs v hv).short
  obtain ⟨ongoing, hongoing⟩ : ∃ ongoing : OngoingSerialization, ongoing =
      { vHead := { sendId := sendId, destId := destId
                   msgLengths := (vs.map (textOf J)).map fun t => UInt32.ofNat t.length }
        messages := (vs.map (textOf J)).flatten } := ⟨_, rfl⟩
  have hsize : (payload ongoing).length < 2 ^ 31 := by
    rw [payload, List.length_append, length_varHead, hongoing]
    simp only [List.length_map]
    omega
  rw [← hongoing] at hbundle
  have htable : ongoing.vHead.msgLengths =
      (vs.map (textOf J)).map fun t => UInt32.ofNat t.length := by rw [hongoing]
  have htext : ongoing.messages = (vs.map (textOf J)).flatten ++ [] := by
    rw [hongoing, List.append_nil]
  have hpay : (varHead ongoing.vHead).length + ((vs.map (textOf J)).flatten).length =
      (payload ongoing).length := by
    rw [payload, List.length_append, htext, List.append_nil]
  have hrun := deserialize_texts (forall₂_isMessage hJ hvs hbases) hshort htable htext
    (by omega) fun _ => by rw [hpay, toInt_eq ⟨by omega, by omega⟩]
  have hids : ongoing.vHead.sendId = sendId := by rw [hongoing]
  rw [hids, ← deserialize_new] at hrun
  refine ⟨_, ⟨ongoing, _, _, hbundle, serialize_end_new J ongoing, hrun⟩, rfl, ?_, ?_, ?_⟩
  · have hcount : ((vs.map (textOf J)).map List.length).length = vs.length := by simp
    rw [getCount_addedAll (by rw [hcount]; omega), hcount, toInt_eq ⟨by omega, by omega⟩]
  · have hfst : ((vs.map Json.cut).zip bases).map Prod.fst = vs.map Json.cut :=
      List.map_fst_zip (by rw [List.length_map, hlenBases])
    rw [addedAll, hfst]
    rfl
  · have hsnd : ((vs.map Json.cut).zip bases).map Prod.snd = bases :=
      List.map_snd_zip (by rw [List.length_map, hlenBases])
    rw [addedAll, hsnd]
    exact hbases

/-! ## Version 0 -/

/-- Texts with commas between them. -/
def joinTexts : List StdString → StdString
  | [] => []
  | t :: ts => t ++ ts.flatMap fun u => str "," ++ u

theorem foldl_addGeneric_old (ongoing : OngoingSerialization) (texts : List StdString)
    (h : ongoing.messages ≠ []) :
    (texts.foldl (addGeneric false) ongoing).messages =
      ongoing.messages ++ texts.flatMap fun u => str "," ++ u := by
  induction texts generalizing ongoing with
  | nil => simp
  | cons text texts ih =>
    have hne : (addGeneric false ongoing text).messages =
        ongoing.messages ++ (str "," ++ text) := by
      simp [addGeneric, h]
    rw [List.foldl_cons, ih _ (by rw [hne]; simp [h]), hne]
    simp

theorem foldl_addGeneric_ids (newBundles : Bool) (ongoing : OngoingSerialization)
    (texts : List StdString) :
    (texts.foldl (addGeneric newBundles) ongoing).vHead.sendId = ongoing.vHead.sendId ∧
      (texts.foldl (addGeneric newBundles) ongoing).vHead.destId = ongoing.vHead.destId := by
  induction texts generalizing ongoing with
  | nil => exact ⟨rfl, rfl⟩
  | cons text texts ih =>
    rw [List.foldl_cons]
    exact ih _

/-- The messages of a fresh version 0 bundle. -/
theorem messages_old (ids : StdString × StdString) {texts : List StdString}
    (h : ∀ t ∈ texts, t ≠ []) :
    (texts.foldl (addGeneric false) (serialize_begin {} ids.1 ids.2)).messages =
      joinTexts texts := by
  cases texts with
  | nil => rfl
  | cons text texts =>
    have hfirst : (addGeneric false (serialize_begin {} ids.1 ids.2) text).messages = text := by
      simp [addGeneric, serialize_begin]
    rw [List.foldl_cons, foldl_addGeneric_old _ _ (by
      rw [hfirst]
      exact h text List.mem_cons_self), hfirst, joinTexts]

/-- Joined texts spell the elements of an array. -/
theorem textElements_join {num : StdString → Option Json} {xs : List Json} {texts : List StdString}
    (h : List.Forall₂ (Json.Text num) xs texts) : Json.TextElements num xs (joinTexts texts) := by
  induction h with
  | nil => exact JsonSingleLineWriter.spaces_nil
  | @cons x t xs texts hx hrest ih =>
    cases hrest with
    | nil =>
      rw [joinTexts, List.flatMap_nil, List.append_nil]
      exact hx
    | @cons y u ys us hy hys =>
      refine ⟨t, joinTexts (u :: us), hx, ih, ?_⟩
      simp [joinTexts]
      rfl

/-- The array that a version 0 bundle makes of its messages. -/
theorem parse_joined {num : StdString → Option Json} (hJ : J.Reads num)
    (hvs : ∀ v ∈ vs, Sendable J v) :
    J.parse (str "[" ++ (joinTexts (vs.map fun v => textOf J v ++ str "\n") ++ str "]")) =
      some (.array (vs.map Json.cut)) := by
  have hcanonical : Json.canonical (.array (vs.map Json.cut)) = true := by
    rw [Json.canonical, Json.canonicalElements_iff]
    intro x hx
    obtain ⟨v, hv, rfl⟩ := List.mem_map.mp hx
    exact (hvs v hv).canonical
  have htexts : List.Forall₂ (Json.Text num) (vs.map Json.cut)
      (vs.map fun v => textOf J v ++ str "\n") := by
    rw [List.forall₂_map_left_iff, List.forall₂_map_right_iff, List.forall₂_same]
    intro v hv
    exact JsonSingleLineWriter.text_newline
      (JsonSingleLineWriter.write_text hJ
        (JsonSingleLineWriter.wellNumbered_of_cut (hvs v hv).canonical) (hvs v hv).written)
  exact hJ.parse hcanonical
    ⟨_, textElements_join htexts, JsonSingleLineWriter.padded_self _⟩

/-- The document that version 0 sends. -/
def document (sendId destId : StdString) (xs : List Json) : Json :=
  .object
    [ (str "header", .object
        [(str "dest_client", .string destId), (str "send_client", .string sendId)])
    , (str "messages", .array xs) ]

theorem write_document (xs : List Json)
    (h : JsonSingleLineWriter.narrowElements xs = true) :
    ∃ res, ({ appendNewline := true } : JsonSingleLineWriter).write J
      (document sendId destId xs) = .ok res := by
  refine JsonSingleLineWriter.write_ok ?_
  simp [document, JsonSingleLineWriter.narrow, JsonSingleLineWriter.narrowMembers, h]

theorem canonical_document {xs : List Json} (h : Json.canonicalElements xs = true) :
    (document sendId destId xs).canonical = true := by
  have hkeys : Json.KeysSorted
      [ (str "header", .object
          [(str "dest_client", .string destId), (str "send_client", .string sendId)])
      , (str "messages", .array xs) ] := by
    rw [Json.KeysSorted, List.pairwise_pair]
    exact (by decide : str "header" < str "messages")
  have hkeys' : Json.KeysSorted
      [(str "dest_client", .string destId), (str "send_client", .string sendId)] := by
    rw [Json.KeysSorted, List.pairwise_pair]
    exact (by decide : str "dest_client" < str "send_client")
  simp [document, Json.canonical, Json.canonicalMembers, h, hkeys, hkeys']

theorem cut_document (xs : List Json) :
    (document sendId destId xs).cut =
      document (cString sendId) (cString destId) (xs.map Json.cut) := by
  rw [← Json.cutElements_map]
  rfl

/-- The elements of the array are added in order. -/
theorem addElements_ok {xs : List Json} {bases : List MessageBase} (c : MessageConglomerate)
    (h : List.Forall₂ (fun v base => ParseJsonMessageBase J v = .ok base) xs bases) :
    addElements J false xs c = .ok () { c with
      messages_json := c.messages_json ++ xs, message_bases := c.message_bases ++ bases } := by
  induction h generalizing c with
  | nil => simp [addElements]
  | @cons v base xs bases hbase _ ih =>
    have hadd : addMessage_v0 J false v c = .ok () (c.push v base) := by
      simp only [addMessage_v0, raiseIf_false, pure_bind_apply, get_bind_apply, set_bind_apply,
        hbase, eval_ok, set_apply]
    rw [addElements, bind_ok hadd, ih]
    simp [push]

/-- What is decoded from the document. -/
theorem deserialize_document {res : StdString} {xs : List Json} {bases : List MessageBase}
    (hparse : J.parse res = some (document sendId destId xs))
    (h : List.Forall₂ (fun v base => ParseJsonMessageBase J v = .ok base) xs bases) :
    deserialize_v0 J false res {} =
      .ok true { senderId := sendId, messages_json := xs, message_bases := bases } := by
  have hadd := addElements_ok { senderId := sendId } h
  rw [deserialize_v0, hparse]
  show ((addElements J false xs >>= fun _ => pure true) { senderId := sendId }) = _
  rw [bind_ok hadd]
  rfl

/-- Messages that are cut are written, read and cut like those that were. -/
theorem cut_elements (hvs : ∀ v ∈ vs, Sendable J v) :
    JsonSingleLineWriter.narrowElements (vs.map Json.cut) = true ∧
      Json.canonicalElements (vs.map Json.cut) = true ∧
      (vs.map Json.cut).map Json.cut = vs.map Json.cut := by
  refine ⟨?_, ?_, ?_⟩
  · rw [JsonSingleLineWriter.narrowElements_iff]
    intro x hx
    obtain ⟨v, hv, rfl⟩ := List.mem_map.mp hx
    rw [JsonSingleLineWriter.narrow_cut]
    exact JsonSingleLineWriter.narrow_of_write (hvs v hv).written
  · rw [Json.canonicalElements_iff]
    intro x hx
    obtain ⟨v, hv, rfl⟩ := List.mem_map.mp hx
    exact (hvs v hv).canonical
  · rw [List.map_map]
    exact List.map_congr_left fun v _ => Json.cut_cut v

/-- The document that is written is read with its ids cut. -/
theorem parse_document {num : StdString → Option Json} (hJ : J.Reads num)
    (hvs : ∀ v ∈ vs, Sendable J v) {res : StdString}
    (hres : ({ appendNewline := true } : JsonSingleLineWriter).write J
      (document sendId destId (vs.map Json.cut)) = .ok res) :
    J.parse res = some (document (cString sendId) (cString destId) (vs.map Json.cut)) := by
  obtain ⟨-, hcanonical, hcuts⟩ := cut_elements hvs
  have hdocument : (document sendId destId (vs.map Json.cut)).cut =
      document (cString sendId) (cString destId) (vs.map Json.cut) := by
    rw [cut_document, hcuts]
  have hback := hJ.readsBack _ (by rw [hdocument]; exact canonical_document hcanonical) hres
  rwa [hdocument] at hback

/-- The old format sends the document of the array that its messages are parsed to. -/
theorem serialize_end_old {ongoing : OngoingSerialization} {xs : List Json} {res : StdString}
    (harray : J.parse (str "[" ++ (ongoing.messages ++ str "]")) = some (.array xs))
    (hres : ({ appendNewline := true } : JsonSingleLineWriter).write J
      (document ongoing.vHead.sendId ongoing.vHead.destId xs) = .ok res) :
    serialize_end J false ongoing = .ok (some (bundleHeader ongoing.vHead res, res)) := by
  have hroot : ((Json.null.set (str "header") ((Json.null.set (str "send_client")
      (.string ongoing.vHead.sendId)).set (str "dest_client")
        (.string ongoing.vHead.destId))).set (str "messages") (.array xs)) =
      document ongoing.vHead.sendId ongoing.vHead.destId xs := rfl
  rw [serialize_end, if_neg (by decide), serialize_end_v0]
  simp only [harray, Json.isArray, Bool.not_true, Bool.false_eq_true, if_false, hroot,
    Bool.not_false, hres]
  rfl

/-- In version 0 the sender is what the writer keeps of it. -/
theorem carries_old {num : StdString → Option Json} (hJ : J.Reads num)
    (hvs : ∀ v ∈ vs, Sendable J v) :
    ∃ c, DecodedAs J false sendId destId vs c ∧ Carries J false (cString sendId) vs c := by
  obtain ⟨bases, hbases⟩ := exists_bases hvs
  have hwritten : ∀ v ∈ vs, ({ appendNewline := !false } : JsonSingleLineWriter).write J v =
      .ok (textOf J v ++ str "\n") := fun v hv =>
    JsonSingleLineWriter.write_newline (hvs v hv).written
  have hbundle := foldlM_makeUnknownJSON hwritten (serialize_begin {} sendId destId)
  have hne : ∀ t ∈ vs.map fun v => textOf J v ++ str "\n", t ≠ [] := by
    intro t ht
    obtain ⟨v, -, rfl⟩ := List.mem_map.mp ht
    exact List.append_ne_nil_of_right_ne_nil _ (by decide)
  have hmessages := messages_old (sendId, destId) hne
  obtain ⟨hid, hid'⟩ := foldl_addGeneric_ids false (serialize_begin {} sendId destId)
    (vs.map fun v => textOf J v ++ str "\n")
  have harray := parse_joined hJ hvs
  rw [← hmessages] at harray
  generalize (vs.map fun v => textOf J v ++ str "\n").foldl (addGeneric false)
    (serialize_begin {} sendId destId) = ongoing at *
  obtain ⟨res, hres⟩ : ∃ res, ({ appendNewline := true } : JsonSingleLineWriter).write J
    (document sendId destId (vs.map Json.cut)) = .ok res := write_document _ (cut_elements hvs).1
  have hend : serialize_end J false ongoing = .ok (some (bundleHeader ongoing.vHead res, res)) := by
    apply serialize_end_old harray
    rw [hid, hid']
    exact hres
  have hcut : List.Forall₂ (fun v base => ParseJsonMessageBase J v = .ok base)
      (vs.map Json.cut) bases := List.forall₂_map_left_iff.mpr hbases
  refine ⟨_, ⟨ongoing, _, _, hbundle, hend,
    deserialize_document (parse_document hJ hvs hres) hcut⟩, rfl, ?_, rfl, hbases⟩
  rw [getCount, if_neg (by decide), List.length_map]

/-! ## Agreement -/

/-- Messages of the same values have the same bases. -/
theorem bases_unique {bases bases' : List MessageBase}
    (h : List.Forall₂ (fun v base => ParseJsonMessageBase J (Json.cut v) = .ok base) vs bases)
    (h' : List.Forall₂ (fun v base => ParseJsonMessageBase J (Json.cut v) = .ok base) vs bases') :
    bases = bases' := by
  induction h generalizing bases' with
  | nil =>
    cases h'
    rfl
  | cons hbase _ ih =>
    cases h' with
    | cons hbase' hrest' =>
      rw [hbase] at hbase'
      cases hbase'
      rw [ih hrest']

/-- A bundle is decoded to one conglomerate. -/
theorem DecodedAs.unique {newBundles : Bool} {c c' : MessageConglomerate}
    (h : DecodedAs J newBundles sendId destId vs c)
    (h' : DecodedAs J newBundles sendId destId vs c') : c = c' := by
  obtain ⟨ongoing, header, body, hbundle, hend, hrun⟩ := h
  obtain ⟨ongoing', header', body', hbundle', hend', hrun'⟩ := h'
  rw [hbundle] at hbundle'
  cases hbundle'
  rw [hend] at hend'
  cases hend'
  rw [hrun] at hrun'
  cases hrun'
  rfl

/-- Both formats are decoded, to the same sender, count and messages. -/
def FormatsAgree (J : Jsoncpp) (sendId destId : StdString) (vs : List Json) : Prop :=
  ∃ old new, DecodedAs J false sendId destId vs old ∧ DecodedAs J true sendId destId vs new ∧
    old.senderId = new.senderId ∧ old.getCount false = new.getCount true ∧
    ∀ i, old.getBaseMessage i = new.getBaseMessage i ∧
      old.getJsonMessage i = new.getJsonMessage i

/-- Whether the formats agree is up to the senders that they carry. -/
theorem agree_iff_sender {senderId senderId' : StdString} {old new : MessageConglomerate}
    (hold : DecodedAs J false sendId destId vs old) (hnew : DecodedAs J true sendId destId vs new)
    (holdCarries : Carries J false senderId vs old)
    (hnewCarries : Carries J true senderId' vs new) :
    FormatsAgree J sendId destId vs ↔ senderId = senderId' := by
  constructor
  · rintro ⟨old', new', hold', hnew', hsender, -⟩
    obtain rfl := hold.unique hold'
    obtain rfl := hnew.unique hnew'
    rw [← holdCarries.sender, ← hnewCarries.sender]
    exact hsender
  · intro hsender
    refine ⟨old, new, hold, hnew, ?_, ?_, fun i => ⟨?_, ?_⟩⟩
    · rw [holdCarries.sender, hnewCarries.sender]
      exact hsender
    · rw [holdCarries.count, hnewCarries.count]
    · rw [getBaseMessage, getBaseMessage, bases_unique holdCarries.bases hnewCarries.bases]
    · rw [getJsonMessage, getJsonMessage, holdCarries.json, hnewCarries.json]

/-- The two senders, as the formats carry them. -/
theorem agree_iff_cString {num : StdString → Option Json} (hJ : J.Reads num)
    (hvs : ∀ v ∈ vs, Sendable J v)
    (htotal : sendId.length + destId.length + 3 * vs.length +
      ((vs.map (textOf J)).flatten).length < 2 ^ 31) :
    FormatsAgree J sendId destId vs ↔ cString sendId = sendId := by
  obtain ⟨old, hold, holdCarries⟩ : ∃ c, DecodedAs J false sendId destId vs c ∧
      Carries J false (cString sendId) vs c := carries_old hJ hvs
  obtain ⟨new, hnew, hnewCarries⟩ : ∃ c, DecodedAs J true sendId destId vs c ∧
      Carries J true sendId vs c := carries_new hJ.readsBack hvs htotal
  exact agree_iff_sender hold hnew holdCarries hnewCarries

/-- The messages of one list, sent in either format, are decoded to the same bundle
exactly when the sender has no NUL. -/
theorem formats_agree_iff {num : StdString → Option Json} (hJ : J.Reads num)
    (hvs : ∀ v ∈ vs, Sendable J v)
    (htotal : sendId.length + destId.length + 3 * vs.length +
      ((vs.map (textOf J)).flatten).length < 2 ^ 31) :
    FormatsAgree J sendId destId vs ↔ 0 ∉ sendId := by
  rw [agree_iff_cString hJ hvs htotal, cString_eq_iff]

end Formats

/-- An object with only a type. -/
theorem sendable_type (msg_type : String) :
    let v := Json.object [(str "msg_type", .string (str msg_type))]
    0 ∉ str msg_type → (textOf Jsoncpp.reference v).length < 2 ^ 24 →
      Sendable Jsoncpp.reference v := by
  intro v hnul hshort
  have hcut : v.cut = v := by
    simp only [v, Json.cut, Json.cutMembers, cString_eq hnul]
    rfl
  exact
    { object := ⟨_, rfl⟩
      canonical := by
        rw [hcut]
        rfl
      msg_type := ⟨{ msg_type := str msg_type }, by rw [hcut]; rfl⟩
      written := rfl
      short := hshort }

/-- The two ticks of the broker. -/
theorem sendable_ticks :
    ∀ v ∈ [tickedSimmob.value, tickedClient], Sendable Jsoncpp.reference v :=
  List.forall_mem_cons.mpr
    ⟨sendable_type "ticked_simmob" (by decide) (by decide +kernel), List.forall_mem_singleton.mpr
      (sendable_type "ticked_client" (by decide) (by decide +kernel))⟩

theorem formats_agree_iff_ticks :
    FormatsAgree Jsoncpp.reference (str "0") (str "987654321")
      [tickedSimmob.value, tickedClient] ↔ 0 ∉ str "0" :=
  formats_agree_iff Jsoncpp.reference_reads sendable_ticks (by decide +kernel)

/-- A sender of three octets, the second of them NUL. -/
theorem formats_disagree :
    (∀ v ∈ [tickedSimmob.value, tickedClient], Sendable Jsoncpp.reference v) ∧
      ¬ FormatsAgree Jsoncpp.reference [49, 0, 50] (str "987654321")
        [tickedSimmob.value, tickedClient] := by
  refine ⟨sendable_ticks, fun hagree => ?_⟩
  have hsender : cString [49, 0, 50] = [49, 0, 50] :=
    (agree_iff_cString Jsoncpp.reference_reads sendable_ticks (by decide +kernel)).mp hagree
  exact absurd hsender (by decide)

end Sm4ns3
