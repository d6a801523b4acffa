import Mathlib.Data.List.Infix
import Sm4ns3.Verify.BrokerSteps

/-!
# What the broker sends

`serialize_begin` empties the length table and leaves the text, so the bundle of
a round starts with the text of all earlier rounds. `ongoingOf` is the outgoing
serialization that a history of posts and rounds leads to, and
`outgoing_delivered_iff` says which runs deliver every message all the same.
-/

namespace Sm4ns3.Broker

open Bytes Cpp Call JsonParser

/-- The messages appended since the last `sendOutgoing`. -/
def sinceOutgoing (trace : List Event) : List Json :=
  trace.foldl (fun acc e =>
    match e with
    | .posted json => acc ++ [json]
    | .outgoing _ _ => []
    | _ => acc) []

/-- All messages appended. -/
def allPosted (trace : List Event) : List Json :=
  trace.filterMap fun
    | .posted json => some json
    | _ => none

section Messages

variable (J : Jsoncpp)

/-- The text that `makeUnknownJSON` appends. -/
def textOf (json : Json) : StdString :=
  match ({ appendNewline := false } : JsonSingleLineWriter).write J json with
  | .ok text => text
  | .error _ => []

def typeOf : Json → StdString
  | .object ms =>
    match ms.lookup (str "msg_type") with
    | some (.string t) => t
    | _ => []
  | _ => []

def toMessage (json : Json) : Message where
  text := textOf J json
  value := json
  msg_type := typeOf json

/-- A JSON object with a string `msg_type` whose text the reader parses back and
the length table can hold. -/
structure Postable (json : Json) : Prop where
  object : ∃ ms t, json = .object ms ∧ ms.lookup (str "msg_type") = some (.string t)
  written : ∃ text, ({ appendNewline := false } : JsonSingleLineWriter).write J json = .ok text
  parsed : J.parse (textOf J json) = some json
  short : (textOf J json).length < 2 ^ 24

/-- The outgoing serialization after a history. -/
def ongoingOf (trace : List Event) : OngoingSerialization where
  vHead :=
    { sendId := str "987654321"
      destId := str "0"
      msgLengths := lengthTable ((sinceOutgoing trace).map (toMessage J)) }
  messages := messagesText ((allPosted trace).map (toMessage J))

variable {J}

theorem Postable.wellFormed {json : Json} (h : Postable J json) :
    (toMessage J json).WellFormed J where
  first := by
    obtain ⟨ms, t, rfl, -⟩ := h.object
    obtain ⟨text, hwrite⟩ := h.written
    have htext : textOf J (.object ms) = text := by simp [textOf, hwrite]
    obtain ⟨document, hdoc, hret⟩ := except_bind_eq_ok.mp hwrite
    obtain ⟨e, -, rfl⟩ := except_map_eq_ok.mp hdoc
    cases hret
    rw [toMessage, htext]
    rfl
  parse := h.parsed
  msg_type := by
    obtain ⟨ms, t, rfl, hlookup⟩ := h.object
    exact ⟨ms, rfl, by simp [toMessage, typeOf, hlookup]⟩

end Messages

/-! ## Histories -/

theorem sinceOutgoing_posted (trace : List Event) (json : Json) :
    sinceOutgoing (trace ++ [.posted json]) = sinceOutgoing trace ++ [json] := by
  simp [sinceOutgoing]

theorem allPosted_posted (trace : List Event) (json : Json) :
    allPosted (trace ++ [.posted json]) = allPosted trace ++ [json] := by
  simp [allPosted]

theorem ongoingOf_popped (J : Jsoncpp) (trace : List Event) (cs : List MessageConglomerate) :
    ongoingOf J (trace ++ cs.map .popped) = ongoingOf J trace := by
  have hsince : sinceOutgoing (trace ++ cs.map .popped) = sinceOutgoing trace := by
    rw [sinceOutgoing, List.foldl_append, ← sinceOutgoing]
    induction cs with
    | nil => rfl
    | cons c cs ih => exact ih
  have hall : allPosted (trace ++ cs.map .popped) = allPosted trace := by
    simp [allPosted, List.filterMap_map]
  rw [ongoingOf, ongoingOf, hsince, hall]

theorem ongoingOf_round (J : Jsoncpp) (trace : List Event) (header : BundleHeader)
    (body : StdString) (queued : List MessageConglomerate) :
    ongoingOf J (trace ++ [.outgoing header body, .ticked queued]) =
      serialize_begin_default (ongoingOf J trace) := by
  simp [ongoingOf, sinceOutgoing, allPosted, serialize_begin_default, serialize_begin,
    lengthTable]

theorem ongoingOf_posted {J : Jsoncpp} {trace : List Event} {json : Json} {text : StdString}
    (h : ({ appendNewline := false } : JsonSingleLineWriter).write J json = .ok text) :
    ongoingOf J (trace ++ [.posted json]) = addGeneric true (ongoingOf J trace) text := by
  have htext : textOf J json = text := by simp [textOf, h]
  simp [ongoingOf, sinceOutgoing_posted, allPosted_posted, addGeneric, lengthTable, messagesText,
    toMessage, htext]

/-- Every bundle sent is the serialization its past leads to. -/
def SentOngoing (J : Jsoncpp) (trace : List Event) : Prop :=
  ∀ past header body, past ++ [.outgoing header body] <+: trace →
    body = payload (ongoingOf J past) ∧ header = bundleHeader (ongoingOf J past).vHead body

theorem SentOngoing.concat {J : Jsoncpp} {trace : List Event} (h : SentOngoing J trace) {e : Event}
    (he : ∀ header body, e = .outgoing header body →
      body = payload (ongoingOf J trace) ∧
        header = bundleHeader (ongoingOf J trace).vHead body) :
    SentOngoing J (trace ++ [e]) := by
  intro past header body hpre
  rcases List.prefix_concat_iff.mp hpre with heq | hpre
  · obtain ⟨rfl, hlast⟩ := List.append_inj' heq rfl
    exact he header body (List.singleton_inj.mp hlast).symm
  · exact h past header body hpre

theorem SentOngoing.popped {J : Jsoncpp} {trace : List Event} (h : SentOngoing J trace)
    (cs : List MessageConglomerate) : SentOngoing J (trace ++ cs.map .popped) := by
  induction cs using List.reverseRecOn with
  | nil => simpa using h
  | append_singleton cs c ih =>
    rw [List.map_append, ← List.append_assoc]
    refine SentOngoing.concat ih ?_
    rintro header body ⟨⟩

/-- The serialization in progress and every bundle sent are those of the history. -/
structure OutgoingInv (J : Jsoncpp) (b : Broker) : Prop where
  ongoing : b.m_outgoing = ongoingOf J b.trace
  sent : SentOngoing J b.trace

theorem outgoingInv_step {W : Ns3} {J : Jsoncpp} {b b' : Broker} {l : Step}
    (hb : OutgoingInv J b) (h : step W J b l = some b') : OutgoingInv J b' := by
  cases l with
  | arrive header input =>
    rcases arrive_cases h with ⟨-, rfl, -⟩ | ⟨-, rfl⟩
    · exact hb
    · exact ⟨hb.ongoing, hb.sent⟩
  | pause =>
    rcases pause_cases h with ⟨-, rfl⟩ | ⟨-, -, rfl⟩ | ⟨-, world, conn, -, rfl⟩
    · exact hb
    · exact ⟨hb.ongoing, hb.sent⟩
    · have hpops := hb.sent.popped b.m_incoming.messageList
      constructor
      · simp only [afterRound]
        rw [← List.append_assoc, ongoingOf_round, ongoingOf_popped, hb.ongoing]
      · simp only [afterRound, hb.ongoing]
        rw [← List.append_assoc, List.append_cons]
        refine SentOngoing.concat (SentOngoing.concat hpops ?_) ?_
        · rintro header body ⟨⟩
          rw [ongoingOf_popped]
          exact ⟨rfl, rfl⟩
        · rintro header body ⟨⟩
  | post json =>
    obtain ⟨text, hwrite, rfl⟩ := post_cases h
    constructor
    · simp only [hb.ongoing]
      exact (ongoingOf_posted hwrite).symm
    · refine SentOngoing.concat hb.sent ?_
      rintro header body ⟨⟩

/-! ## What is delivered -/

/-- The bundle is decoded to the given messages, in order. -/
def DecodesTo (J : Jsoncpp) (header : BundleHeader) (body : StdString) (msgs : List Json) :
    Prop :=
  ∃ c, deserialize_v1 J NEW_BUNDLES header body {} = .ok true c ∧
    c.Holds NEW_BUNDLES (msgs.map (toMessage J))

/-- Every bundle sent delivers the messages appended since the one before. -/
def Delivered (J : Jsoncpp) (trace : List Event) : Prop :=
  ∀ past header body, past ++ [.outgoing header body] <+: trace →
    DecodesTo J header body (sinceOutgoing past)

/-- The messages appended are well formed, and each round stays within the limits
of version 1. -/
structure WithinLimits (J : Jsoncpp) (trace : List Event) : Prop where
  postable : ∀ json, Event.posted json ∈ trace → Postable J json
  round : ∀ past header body, past ++ [.outgoing header body] <+: trace →
    (sinceOutgoing past).length ≤ 255 ∧
      (messagesText ((sinceOutgoing past).map (toMessage J))).length < 2 ^ 31

/-- The text of all messages appended so far starts with the text of those appended
since the last round, and the body has a length that an `int` can hold. -/
def Unspoiled (J : Jsoncpp) (past : List Event) : Prop :=
  sinceOutgoing past = [] ∨
    (messagesText ((sinceOutgoing past).map (toMessage J)) <+:
        messagesText ((allPosted past).map (toMessage J)) ∧
      ((10 + 3 * (sinceOutgoing past).length +
          (messagesText ((sinceOutgoing past).map (toMessage J))).length : Nat) : Int) ≤
        toInt (10 + 3 * (sinceOutgoing past).length +
          (messagesText ((allPosted past).map (toMessage J))).length : Nat))

theorem mem_sinceOutgoing {trace : List Event} {json : Json} (h : json ∈ sinceOutgoing trace) :
    Event.posted json ∈ trace := by
  induction trace using List.reverseRecOn with
  | nil => cases h
  | append_singleton trace e ih =>
    rw [sinceOutgoing, List.foldl_append, ← sinceOutgoing] at h
    cases e with
    | posted j =>
      rcases List.mem_append.mp h with h | h
      · exact List.mem_append_left _ (ih h)
      · rw [List.mem_singleton.mp h]
        simp
    | popped c => exact List.mem_append_left _ (ih h)
    | outgoing header body => cases h
    | ticked queued => exact List.mem_append_left _ (ih h)

/-- One bundle is decoded to its messages exactly when its past left it unspoiled. -/
theorem decodesTo_iff {J : Jsoncpp} {past : List Event}
    (hpost : ∀ json ∈ sinceOutgoing past, Postable J json)
    (hcount : (sinceOutgoing past).length ≤ 255) :
    DecodesTo J (bundleHeader (ongoingOf J past).vHead (payload (ongoingOf J past)))
        (payload (ongoingOf J past)) (sinceOutgoing past) ↔ Unspoiled J past := by
  set msgs := (sinceOutgoing past).map (toMessage J) with hmsgs
  have hlen : (varHead (ongoingOf J past).vHead).length = 10 + 3 * (sinceOutgoing past).length := by
    rw [length_varHead]
    simp only [ongoingOf, lengthTable, List.length_map]
    have hids : (str "987654321").length = 9 ∧ (str "0").length = 1 := by decide
    omega
  have hpay : (payload (ongoingOf J past)).length = 10 + 3 * (sinceOutgoing past).length +
      (messagesText ((allPosted past).map (toMessage J))).length := by
    rw [payload, List.length_append, hlen]
    rfl
  have hwell : ∀ m ∈ msgs, m.WellFormed J ∧ m.text.length < 2 ^ 24 := by
    intro m hm
    obtain ⟨json, hjson, rfl⟩ := List.mem_map.mp hm
    exact ⟨(hpost json hjson).wellFormed, (hpost json hjson).short⟩
  have hnil : sinceOutgoing past = [] ↔ msgs = [] := by simp [hmsgs]
  constructor
  · rintro ⟨c, hrun, hholds⟩
    by_cases hne : sinceOutgoing past = []
    · exact .inl hne
    · right
      rw [← hpay, ← hlen]
      exact messages_of_deserialize (fun m hm => (hwell m hm).2) rfl (by omega) hrun hholds
        (fun h => hne (hnil.mpr h))
  · intro h
    obtain ⟨rest, hrest⟩ :
        messagesText msgs <+: messagesText ((allPosted past).map (toMessage J)) := by
      rcases h with h | h
      · rw [hnil.mp h]
        exact List.nil_prefix
      · exact h.1
    have hfit : msgs ≠ [] → (((varHead (ongoingOf J past).vHead).length +
        (messagesText msgs).length : Nat) : Int) ≤ toInt (payload (ongoingOf J past)).length := by
      intro hne
      rcases h with h | h
      · exact absurd (hnil.mp h) hne
      · rw [hlen, hpay]
        exact h.2
    obtain ⟨c, hrun, -, hholds⟩ := deserialize_messages hwell rfl hrest.symm (by omega) hfit
    exact ⟨c, hrun, hholds⟩

/-- A run delivers every message exactly when every bundle it sent was unspoiled. -/
theorem outgoing_delivered_iff {W : Ns3} {J : Jsoncpp} {b b' : Broker} {steps : List Step}
    (hb : b.Started) (hrun : Transition.run (step W J) b steps = some b')
    (hlimits : WithinLimits J b'.trace) :
    Delivered J b'.trace ↔
      ∀ past header body, past ++ [.outgoing header body] <+: b'.trace → Unspoiled J past := by
  have hstart : OutgoingInv J b := by
    constructor
    · rw [hb.m_outgoing, hb.trace]
      rfl
    · rw [hb.trace]
      intro past header body hpre
      simp at hpre
  have hinv := Transition.invariant (fun _ _ _ => outgoingInv_step) hstart hrun
  have hone : ∀ past header body, past ++ [.outgoing header body] <+: b'.trace →
      (DecodesTo J header body (sinceOutgoing past) ↔ Unspoiled J past) := by
    intro past header body hpre
    obtain ⟨rfl, rfl⟩ := hinv.sent past header body hpre
    refine decodesTo_iff (fun json hjson => hlimits.postable json ?_)
      (hlimits.round past _ _ hpre).1
    exact hpre.subset (List.mem_append_left _ (mem_sinceOutgoing hjson))
  constructor
  · exact fun h past header body hpre => (hone past header body hpre).mp (h past header body hpre)
  · exact fun h past header body hpre => (hone past header body hpre).mpr (h past header body hpre)

/-! ## A run of two rounds -/

def messageA : Json := .object [(str "msg_type", .string (str "a"))]

def messageB : Json := .object [(str "msg_type", .string (str "b"))]

/-- One message before each of two rounds. -/
def twoRounds : List Step :=
  [.post messageA, tickBundle, .pause, .post messageB, tickBundle, .pause]

/-- The conglomerate of `tickBundle`. -/
def tickConglomerate : MessageConglomerate where
  messages_json := [.object [(str "msg_type", .string (str "ticked_simmob"))]]
  messages_v1 := [0, 0, 28] ++ str "\x7b\"msg_type\":\"ticked_simmob\"\x7d"
  offsets_v1 := [(3, 28)]
  message_bases := [{ msg_type := str "ticked_simmob" }]

/-- The history up to the bundle of the first round, and from there to that of the second. -/
def firstPast : List Event := [.posted messageA, .popped tickConglomerate]

def sentAfter (past : List Event) : Event :=
  .outgoing (bundleHeader (ongoingOf Jsoncpp.reference past).vHead
    (payload (ongoingOf Jsoncpp.reference past))) (payload (ongoingOf Jsoncpp.reference past))

def secondPast : List Event :=
  firstPast ++ [sentAfter firstPast, .ticked [], .posted messageB, .popped tickConglomerate]

theorem twoRounds_run : ∃ b', Transition.run (step Ns3.reference Jsoncpp.reference) ready
    twoRounds = some b' ∧ b'.trace = secondPast ++ [sentAfter secondPast, .ticked []] := by
  have hrun : ((Transition.run (step Ns3.reference Jsoncpp.reference) ready twoRounds).map
      fun b => b.trace) = some (secondPast ++ [sentAfter secondPast, .ticked []]) := by
    decide +kernel
  exact Option.map_eq_some_iff.mp hrun

theorem postable_messageA : Postable Jsoncpp.reference messageA :=
  ⟨⟨_, _, rfl, rfl⟩, ⟨str "\x7b\"msg_type\":\"a\"\x7d", by decide +kernel⟩, by decide +kernel,
    by decide +kernel⟩

theorem postable_messageB : Postable Jsoncpp.reference messageB :=
  ⟨⟨_, _, rfl, rfl⟩, ⟨str "\x7b\"msg_type\":\"b\"\x7d", by decide +kernel⟩, by decide +kernel,
    by decide +kernel⟩

theorem twoRounds_withinLimits :
    WithinLimits Jsoncpp.reference (secondPast ++ [sentAfter secondPast, .ticked []]) where
  postable := by
    intro json hjson
    simp only [secondPast, firstPast, sentAfter, List.cons_append, List.nil_append, List.mem_cons,
      Event.posted.injEq, reduceCtorEq, List.not_mem_nil, or_false, false_or] at hjson
    rcases hjson with rfl | rfl
    · exact postable_messageA
    · exact postable_messageB
  round := by
    intro past header body hpre
    have hmem : past ∈ (secondPast ++ [sentAfter secondPast, .ticked []]).inits :=
      (List.mem_inits _ _).mpr ((List.prefix_append _ _).trans hpre)
    have hall : ∀ past ∈ (secondPast ++ [sentAfter secondPast, Event.ticked []]).inits,
        (sinceOutgoing past).length ≤ 255 ∧
          (messagesText ((sinceOutgoing past).map (toMessage Jsoncpp.reference))).length <
            2 ^ 31 := by
      decide +kernel
    exact hall past hmem

theorem outgoing_delivered_iff_two : ∃ b', Transition.run (step Ns3.reference Jsoncpp.reference)
      ready twoRounds = some b' ∧
    (Delivered Jsoncpp.reference b'.trace ↔
      ∀ past header body, past ++ [.outgoing header body] <+: b'.trace →
        Unspoiled Jsoncpp.reference past) := by
  obtain ⟨b', hrun, htrace⟩ := twoRounds_run
  exact ⟨b', hrun, outgoing_delivered_iff ready_started hrun (htrace ▸ twoRounds_withinLimits)⟩

/-- The second bundle carries the text of the first: it is not decoded to its message. -/
theorem outgoing_stale : ∃ b', Transition.run (step Ns3.reference Jsoncpp.reference) ready
      twoRounds = some b' ∧
    WithinLimits Jsoncpp.reference b'.trace ∧ ¬ Delivered Jsoncpp.reference b'.trace := by
  obtain ⟨b', hrun, htrace⟩ := twoRounds_run
  refine ⟨b', hrun, htrace ▸ twoRounds_withinLimits, fun hdelivered => ?_⟩
  rw [htrace] at hdelivered
  have hsecond := hdelivered secondPast _ _ (List.prefix_append_right_inj _ |>.mpr
    (List.prefix_append [sentAfter secondPast] [.ticked []]))
  have hsince : sinceOutgoing secondPast = [messageB] := by decide +kernel
  have hspoiled : ¬ Unspoiled Jsoncpp.reference secondPast := by
    unfold Unspoiled
    decide +kernel
  refine hspoiled ((decodesTo_iff ?_ ?_).mp hsecond)
  · rw [hsince]
    intro json hjson
    rw [List.mem_singleton.mp hjson]
    exact postable_messageB
  · rw [hsince]
    decide

end Sm4ns3.Broker
