import Sm4ns3.Message.Messages

/-!
# What the makers build

`opaqueSend_eq` and `allLocations_eq` write out the messages that two of the makers
build in a loop; the parsers of these messages get back what they were built from.
-/

namespace Sm4ns3

open Bytes Cpp Call

/-! ## What the makers build -/

namespace JsonParser

/-- An `opaque_send` to somebody. -/
theorem opaqueSend_eq {receiveAgentIds : List StdString} (h : receiveAgentIds ≠ [])
    (data format tech : StdString) :
    opaqueSend receiveAgentIds data format tech = .object
      [ (str "broadcast", .boolean false), (str "data", .string data)
      , (str "format", .string format), (str "from_id", .string (str "987654321"))
      , (str "msg_type", .string (str "opaque_send")), (str "tech", .string tech)
      , (str "to_ids", .array (receiveAgentIds.map .string)) ] := by
  have habsent : List.lookup (str "to_ids") [(str "data", Json.string data),
      (str "format", .string format), (str "from_id", .string (str "987654321")),
      (str "msg_type", .string (str "opaque_send")), (str "tech", .string tech)] = none := rfl
  have hfold := Json.foldl_appendTo Json.string habsent h
  have hbroadcast : receiveAgentIds.isEmpty = false := by simpa using h
  unfold opaqueSend
  rw [hbroadcast]
  exact congrArg (fun v => v.set (str "broadcast") (.boolean false)) hfold

/-- An `opaque_send` to nobody has no `to_ids`. -/
theorem opaqueSend_nil (data format tech : StdString) :
    opaqueSend [] data format tech = .object
      [ (str "broadcast", .boolean true), (str "data", .string data)
      , (str "format", .string format), (str "from_id", .string (str "987654321"))
      , (str "msg_type", .string (str "opaque_send")), (str "tech", .string tech) ] := rfl

/-- Cutting the message at its NULs cuts the strings it is made of. -/
theorem cut_opaqueSend (receiveAgentIds : List StdString) (data format tech : StdString) :
    (opaqueSend receiveAgentIds data format tech).cut =
      opaqueSend (receiveAgentIds.map cString) (cString data) (cString format)
        (cString tech) := by
  by_cases h : receiveAgentIds = []
  · subst h
    rfl
  · have hids : ∀ ids : List StdString,
        Json.cutElements (ids.map Json.string) = (ids.map cString).map Json.string := by
      intro ids
      induction ids with
      | nil => rfl
      | cons id ids ih => exact congrArg (Json.string (cString id) :: ·) ih
    have hne : receiveAgentIds.map cString ≠ [] := by simpa using h
    rw [opaqueSend_eq h, opaqueSend_eq hne, ← hids]
    rfl

theorem canonical_opaqueSend (receiveAgentIds : List StdString) (data format tech : StdString) :
    (opaqueSend receiveAgentIds data format tech).canonical = true := by
  unfold opaqueSend
  refine Json.canonical_set ?_ rfl
  apply List.foldlRecOn (motive := fun v : Json => v.canonical = true)
  · rfl
  · exact fun v hv id _ => Json.canonical_appendTo hv rfl

theorem narrow_opaqueSend (receiveAgentIds : List StdString) (data format tech : StdString) :
    JsonSingleLineWriter.narrow (opaqueSend receiveAgentIds data format tech) = true := by
  by_cases h : receiveAgentIds = []
  · subst h
    rfl
  · have hids : JsonSingleLineWriter.narrowElements (receiveAgentIds.map Json.string) = true := by
      rw [JsonSingleLineWriter.narrowElements_iff]
      intro x hx
      obtain ⟨id, -, rfl⟩ := List.mem_map.mp hx
      rfl
    rw [opaqueSend_eq h]
    simp only [JsonSingleLineWriter.narrow, JsonSingleLineWriter.narrowMembers, hids,
      Bool.and_true]

/-- An `all_locations` with these locations. -/
def locationsOf (locs : List (StdString × DPoint)) : Json := .object
  [ (str "locations", .array (locs.map fun it => location it.1 it.2))
  , (str "msg_type", .string (str "all_locations")) ]

/-- The locations of somebody. -/
theorem allLocations_eq {locations : Std.TreeMap StdString DPoint}
    (h : locations.isEmpty = false) : allLocations locations = locationsOf locations.toList := by
  have hne : locations.toList ≠ [] := by
    intro hnil
    rw [← Std.TreeMap.isEmpty_toList, hnil] at h
    cases h
  have habsent : List.lookup (str "locations")
      [(str "msg_type", Json.string (str "all_locations"))] = none := rfl
  exact Json.foldl_appendTo (fun it : StdString × DPoint => location it.1 it.2) habsent hne

theorem cut_locationsOf (locs : List (StdString × DPoint)) :
    (locationsOf locs).cut = locationsOf (locs.map fun it => (cString it.1, it.2)) := by
  have hlocs : Json.cutElements (locs.map fun it => location it.1 it.2) =
      (locs.map fun it : StdString × DPoint => (cString it.1, it.2)).map
        fun it => location it.1 it.2 := by
    rw [Json.cutElements_map, List.map_map, List.map_map]
    rfl
  rw [locationsOf, locationsOf, ← hlocs]
  rfl

theorem narrow_locationsOf (locs : List (StdString × DPoint)) :
    JsonSingleLineWriter.narrow (locationsOf locs) = true := by
  have hlocs : JsonSingleLineWriter.narrowElements (locs.map fun it => location it.1 it.2) =
      true := by
    rw [JsonSingleLineWriter.narrowElements_iff]
    intro x hx
    obtain ⟨it, -, rfl⟩ := List.mem_map.mp hx
    rfl
  rw [locationsOf, JsonSingleLineWriter.narrow, JsonSingleLineWriter.narrowMembers,
    JsonSingleLineWriter.narrow, hlocs]
  rfl

theorem canonical_locationsOf {locs : List (StdString × DPoint)}
    (h : ∀ it ∈ locs, it.2.x.isFinite = true ∧ it.2.y.isFinite = true) :
    (locationsOf locs).canonical = true := by
  have hlocs : Json.canonicalElements (locs.map fun it => location it.1 it.2) = true := by
    rw [Json.canonicalElements_iff]
    intro v hv
    obtain ⟨it, hmem, rfl⟩ := List.mem_map.mp hv
    exact Json.canonical_set (Json.canonical_set (Json.canonical_set rfl rfl) (h it hmem).1)
      (h it hmem).2
  rw [locationsOf, Json.canonical, Json.canonicalMembers, Json.canonical, hlocs]
  rfl

/-! ## What the parsers make of it -/

section Parsers

variable {J : Jsoncpp} {messages : MessageConglomerate} {msgNumber : Int} {base : MessageBase}

theorem jsonOf_ok {ms : Json.Members}
    (h : messages.getJsonMessage msgNumber = .ok (.object ms)) :
    jsonOf messages msgNumber = .ok (.object ms) := by
  rw [jsonOf, h]
  rfl

/-- The parser of what was made for somebody: the sender's id is the simulator's. -/
theorem parseOpaqueSend_made {receiveAgentIds : List StdString} {data format tech : StdString}
    (h : receiveAgentIds ≠ []) (hbase : messages.getBaseMessage msgNumber = .ok base)
    (hjson : messages.getJsonMessage msgNumber =
      .ok (opaqueSend receiveAgentIds data format tech)) :
    parseOpaqueSend J messages msgNumber = .ok { base with
      fromId := str "987654321", toIds := receiveAgentIds, broadcast := false
      data := data, format := format, tech := tech } := by
  rw [opaqueSend_eq h] at hjson
  have hids : (receiveAgentIds.map Json.string).mapM J.asString = .ok receiveAgentIds := by
    have hmap := except_mapM_map (f := J.asString) (g := Json.string) (k := id) (fun _ => rfl)
      receiveAgentIds
    rwa [List.map_id] at hmap
  rw [parseOpaqueSend, hbase, except_ok_bind, jsonOf_ok hjson, except_ok_bind]
  show (do
    let toIds ← (receiveAgentIds.map Json.string).mapM J.asString
    throwIf (false && !toIds.isEmpty)
      "Cannot call opaque_send with both \"broadcast\" as true and a non-empty toIds list."
    pure _) = _
  rw [hids]
  rfl

/-- What was made for nobody is refused. -/
theorem parseOpaqueSend_made_nil {data format tech : StdString}
    (hbase : messages.getBaseMessage msgNumber = .ok base)
    (hjson : messages.getJsonMessage msgNumber = .ok (opaqueSend [] data format tech)) :
    parseOpaqueSend J messages msgNumber =
      .error (.exception "Badly formatted OPAQUE_SEND message.") := by
  rw [opaqueSend_nil] at hjson
  rw [parseOpaqueSend, hbase, except_ok_bind, jsonOf_ok hjson, except_ok_bind]
  rfl

/-- The parser enters the locations one after the other. -/
theorem parseAllLocations_made {locs : List (StdString × DPoint)}
    (hbase : messages.getBaseMessage msgNumber = .ok base)
    (hjson : messages.getJsonMessage msgNumber = .ok (locationsOf locs)) :
    parseAllLocations J messages msgNumber =
      .ok { base with agentLocations := enterLocations {} locs } := by
  have hlocs : (locs.map fun it : StdString × DPoint =>
      location it.1 it.2).mapM (parseLocation J) = .ok locs := by
    have hmap := except_mapM_map (f := parseLocation J)
      (g := fun it : StdString × DPoint => location it.1 it.2) (k := id) (fun _ => rfl) locs
    rwa [List.map_id] at hmap
  rw [parseAllLocations, hbase, except_ok_bind, jsonOf_ok hjson, except_ok_bind]
  show (do
    let locs ← (locs.map fun it : StdString × DPoint =>
      location it.1 it.2).mapM (parseLocation J)
    pure _) = _
  rw [hlocs]
  rfl

end Parsers

end JsonParser
end Sm4ns3
