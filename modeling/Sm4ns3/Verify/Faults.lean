import Sm4ns3.Broker

/-!
# How handling a tick can end

Reading JSON throws but does nothing undefined. Decoding and handling a bundle can read behind
a string, overflow an `int` and dereference a null pointer; they do not divide and do not move
an iterator.
-/

namespace Sm4ns3

open Bytes Cpp Call MessageConglomerate JsonParser

/-! ## Reading JSON -/

section Reading

variable {J : Jsoncpp}

theorem safe_isMember (v : Json) (key : StdString) : Safe (v.isMember key) := by
  cases v with
  | object ms => exact Safe.ok _
  | null => exact Safe.ok _
  | _ => exact Safe.exception _

theorem safe_get (v : Json) (key : StdString) : Safe (v.get key) := by
  cases v with
  | object ms => exact Safe.ok _
  | null => exact Safe.ok _
  | _ => exact Safe.exception _

theorem safe_areMembers (v : Json) (keys : List StdString) : Safe (areMembers v keys) := by
  induction keys with
  | nil => exact Safe.ok true
  | cons key keys ih =>
    refine (safe_isMember v key).bind fun present _ => ?_
    cases present with
    | true => exact ih
    | false => exact Safe.ok false

theorem safe_asString (v : Json) : Safe (J.asString v) := by
  unfold Jsoncpp.asString
  split
  · exact Safe.ok _
  · split
    · exact Safe.ok _
    · exact Safe.exception _

theorem safe_asDouble (v : Json) : Safe (J.asDouble v) := by
  unfold Jsoncpp.asDouble
  split
  · exact Safe.ok _
  · split
    · exact Safe.ok _
    · exact Safe.exception _

theorem safe_elements (v : Json) : Safe v.elements := by
  cases v with
  | object ms =>
    cases ms with
    | nil => exact Safe.ok _
    | cons m ms => exact Safe.exception _
  | _ => exact Safe.ok _

theorem safe_parseLocation (agInf : Json) : Safe (parseLocation J agInf) := by
  unfold parseLocation
  refine (safe_areMembers _ _).bind fun _ _ => (Safe.throwIf _ _).bind fun _ _ => ?_
  refine (safe_get _ _).bind fun _ _ => (safe_asString _).bind fun _ _ => ?_
  refine (safe_get _ _).bind fun _ _ => (safe_asDouble _).bind fun _ _ => ?_
  exact (safe_get _ _).bind fun _ _ => (safe_asDouble _).bind fun _ _ => Safe.ok _

theorem safe_asBool (v : Json) : Safe (J.asBool v) := by
  unfold Jsoncpp.asBool
  split
  · exact Safe.ok _
  · split
    · exact Safe.ok _
    · exact Safe.exception _

theorem safe_vectorAt {α : Type} (xs : List α) (i : Int) : Safe (vectorAt xs i) := by
  unfold vectorAt
  split
  · split
    · exact Safe.ok _
    · exact Safe.exception _
  · exact Safe.exception _

theorem safe_parseJsonMessageBase (v : Json) : Safe (ParseJsonMessageBase J v) := by
  unfold ParseJsonMessageBase
  refine (safe_isMember _ _).bind fun present _ => ?_
  cases present with
  | true => exact (safe_get _ _).bind fun _ _ => (safe_asString _).bind fun _ _ => Safe.ok _
  | false => exact Safe.exception _

theorem safe_jsonOf (messages : MessageConglomerate) (msgNumber : Int) :
    Safe (jsonOf messages msgNumber) := by
  unfold jsonOf
  refine (safe_vectorAt _ _).bind fun _ _ => ?_
  exact (Safe.throwIf _ _).bind fun _ _ => Safe.ok _

theorem safe_parseIds (jsMsg : Json) (key : StdString) (what : String) :
    Safe (parseIds J jsMsg key what) := by
  unfold parseIds
  refine (safe_isMember _ _).bind fun present _ => ?_
  cases present with
  | true =>
    refine (safe_get _ _).bind fun _ _ => (Safe.throwIf _ _).bind fun _ _ => ?_
    exact (safe_elements _).bind fun xs _ => Safe.mapM safe_asString xs
  | false => exact Safe.ok _

theorem safe_parseNewAgents (messages : MessageConglomerate) (msgNumber : Int) :
    Safe (parseNewAgents J messages msgNumber) := by
  unfold parseNewAgents
  refine (safe_vectorAt _ _).bind fun _ _ => (safe_jsonOf _ _).bind fun _ _ => ?_
  exact (safe_parseIds _ _ _).bind fun _ _ => (safe_parseIds _ _ _).bind fun _ _ => Safe.ok _

theorem safe_parseAllLocations (messages : MessageConglomerate) (msgNumber : Int) :
    Safe (parseAllLocations J messages msgNumber) := by
  unfold parseAllLocations
  refine (safe_vectorAt _ _).bind fun _ _ => (safe_jsonOf _ _).bind fun _ _ => ?_
  refine (safe_areMembers _ _).bind fun _ _ => (safe_get _ _).bind fun locations _ => ?_
  refine (Safe.throwIf _ _).bind fun _ _ => (safe_elements _).bind fun xs _ => ?_
  exact (Safe.mapM safe_parseLocation xs).bind fun _ _ => Safe.ok _

theorem safe_parseOpaqueSend (messages : MessageConglomerate) (msgNumber : Int) :
    Safe (parseOpaqueSend J messages msgNumber) := by
  unfold parseOpaqueSend
  refine (safe_vectorAt _ _).bind fun _ _ => (safe_jsonOf _ _).bind fun _ _ => ?_
  refine (safe_areMembers _ _).bind fun _ _ => (safe_get _ _).bind fun _ _ => ?_
  refine (Safe.throwIf _ _).bind fun _ _ => ?_
  refine (safe_get _ _).bind fun _ _ => (safe_asString _).bind fun _ _ => ?_
  refine (safe_get _ _).bind fun _ _ => (safe_asBool _).bind fun _ _ => ?_
  refine (safe_get _ _).bind fun _ _ => (safe_asString _).bind fun _ _ => ?_
  refine (safe_get _ _).bind fun _ _ => (safe_asString _).bind fun _ _ => ?_
  refine (safe_get _ _).bind fun _ _ => (safe_asString _).bind fun _ _ => ?_
  refine (safe_elements _).bind fun xs _ => (Safe.mapM safe_asString xs).bind fun _ _ => ?_
  exact (Safe.throwIf _ _).bind fun _ _ => Safe.ok _

end Reading

/-! ## Writing JSON -/

namespace JsonSingleLineWriter

variable {J : Jsoncpp} {self : JsonSingleLineWriter}

theorem safe_map {α β : Type} {x : Except Fault α} (f : α → β) (hx : Safe x) : Safe (x.map f) := by
  cases x with
  | ok a => exact Safe.ok (f a)
  | error e =>
    intro cause h
    cases h
    exact hx cause rfl

mutual
theorem safe_writeValue : ∀ v : Json, Safe (writeValue J self v)
  | .null => Safe.ok _
  | .int i => by
    rw [writeValue, Jsoncpp.asInt]
    apply safe_map
    split
    · exact Safe.ok _
    · exact Safe.exception _
  | .uint n => by
    rw [writeValue, Jsoncpp.asUInt]
    apply safe_map
    split
    · exact Safe.ok _
    · exact Safe.exception _
  | .real _ => Safe.ok _
  | .string _ => Safe.ok _
  | .boolean _ => Safe.ok _
  | .array xs => by
    rw [writeValue]
    exact safe_map _ (safe_writeElements xs)
  | .object ms => by
    rw [writeValue]
    exact safe_map _ (safe_writeMembers ms)

theorem safe_writeElements : ∀ xs : List Json, Safe (writeElements J self xs)
  | [] => Safe.ok _
  | [v] => by
    rw [writeElements]
    exact safe_writeValue v
  | v :: w :: vs => by
    rw [writeElements]
    exact (safe_writeValue v).bind fun _ _ => (safe_writeElements (w :: vs)).bind fun _ _ =>
      Safe.ok _

theorem safe_writeMembers : ∀ ms : Json.Members, Safe (writeMembers J self ms)
  | [] => Safe.ok _
  | [(name, v)] => by
    rw [writeMembers]
    exact safe_map _ (safe_writeValue v)
  | (name, v) :: m :: ms => by
    rw [writeMembers]
    exact (safe_writeValue v).bind fun _ _ => (safe_writeMembers (m :: ms)).bind fun _ _ =>
      Safe.ok _
end

theorem safe_write (root : Json) : Safe (self.write J root) := by
  unfold write
  exact (safe_writeValue root).bind fun _ _ => Safe.ok _

end JsonSingleLineWriter

/-! ## Decoding and handling -/

/-- What only a division or an iterator can do. -/
def OfReplay (cause : Undefined) : Prop := cause = .divisionByZero ∨ cause = .endIterator

theorem not_ofReplay {cause : Undefined} (h : cause = .nullPointer ∨ cause = .outOfRange ∨
    cause = .overflow) : ¬ OfReplay cause := by
  intro hreplay
  rcases hreplay with rfl | rfl <;> simp at h

section Decoding

variable {J : Jsoncpp}

theorem charAt_safeFrom (s : StdString) (i : Int) : SafeFrom OfReplay (charAt s i) := by
  unfold charAt
  split
  · exact .of_safe (Safe.ok _)
  · split
    · exact .of_safe (Safe.ok _)
    · exact .undefined (not_ofReplay (.inr (.inl rfl)))

theorem charRange_safeFrom (s : StdString) (offset length : Int) :
    SafeFrom OfReplay (charRange s offset length) := by
  unfold charRange
  split
  · exact .of_safe (Safe.ok _)
  · exact .undefined (not_ofReplay (.inr (.inl rfl)))

theorem addInt_safeFrom (a b : Int) : SafeFrom OfReplay (addInt a b) := by
  unfold addInt
  split
  · exact .of_safe (Safe.ok _)
  · exact .undefined (not_ofReplay (.inr (.inr rfl)))

theorem readId_safeFrom (msgStr : StdString) (n : Nat) (i : Int) :
    SafeFrom OfReplay (readId msgStr n i) := by
  induction n generalizing i with
  | zero => exact .of_safe (Safe.ok _)
  | succ n ih =>
    rw [readId]
    refine (charAt_safeFrom _ _).bind fun _ _ => (addInt_safeFrom _ _).bind fun j _ => ?_
    exact (ih j).bind fun _ _ => .of_safe (Safe.ok _)

theorem readLengths_safeFrom (msgStr : StdString) (n : Nat) (i : Int) :
    SafeFrom OfReplay (readLengths msgStr n i) := by
  induction n generalizing i with
  | zero => exact .of_safe (Safe.ok _)
  | succ n ih =>
    rw [readLengths]
    refine (charAt_safeFrom _ _).bind fun _ _ => (charAt_safeFrom _ _).bind fun _ _ => ?_
    refine (charAt_safeFrom _ _).bind fun _ _ => (addInt_safeFrom _ _).bind fun j _ => ?_
    exact (ih j).bind fun _ _ => .of_safe (Safe.ok _)

theorem parseAdded_avoids (offset length : Int) :
    Avoids OfReplay (parseAdded J offset length) := by
  unfold parseAdded
  refine Avoids.get.bind fun _ c _ _ => (Avoids.set _).bind fun _ _ _ _ => ?_
  refine (Avoids.eval (charAt_safeFrom _ _)).bind fun _ first _ _ => ?_
  by_cases hbinary : first = 0xBB
  · rw [if_pos hbinary]
    exact Avoids.raise _
  · rw [if_neg hbinary]
    by_cases hjson : first = 123
    · rw [if_pos hjson]
      refine (Avoids.eval (charRange_safeFrom _ _ _)).bind fun _ text _ _ => ?_
      cases J.parse text with
      | none => exact Avoids.raise _
      | some msg =>
        refine (Avoids.set _).bind fun _ _ _ _ => ?_
        refine (Avoids.eval (.of_safe (safe_parseJsonMessageBase msg))).bind fun _ _ _ _ => ?_
        exact Avoids.set _
    · rw [if_neg hjson]
      exact Avoids.raise _

theorem saveString_avoids (msgStr : StdString) : Avoids OfReplay (saveString msgStr) := by
  unfold saveString
  split
  · exact Avoids.pure ()
  · refine Avoids.get.bind fun _ _ _ _ => (Avoids.raiseIf _ _).bind fun _ _ _ _ => ?_
    exact Avoids.set _

theorem addMessage_v1_avoids (newBundles : Bool) (offset length : Int) (msgStr : StdString) :
    Avoids OfReplay (addMessage_v1 J newBundles offset length msgStr) := by
  unfold addMessage_v1
  refine (Avoids.raiseIf _ _).bind fun _ _ _ _ => Avoids.get.bind fun _ _ _ _ => ?_
  refine (Avoids.raiseIf _ _).bind fun _ _ _ _ => (saveString_avoids _).bind fun _ _ _ _ => ?_
  refine Avoids.get.bind fun _ _ _ _ => (Avoids.raiseIf _ _).bind fun _ _ _ _ => ?_
  refine (Avoids.eval (addInt_safeFrom _ _)).bind fun _ _ _ _ => ?_
  refine (Avoids.raiseIf _ _).bind fun _ _ _ _ => (Avoids.set _).bind fun _ _ _ _ => ?_
  exact parseAdded_avoids _ _

theorem addMessages_avoids (newBundles : Bool) (msgStr : StdString) (i : Int)
    (lengths : List UInt32) : Avoids OfReplay (addMessages J newBundles msgStr i lengths) := by
  induction lengths generalizing msgStr i with
  | nil => exact Avoids.pure ()
  | cons it rest ih => exact (addMessage_v1_avoids _ _ _ _).bind fun _ _ _ _ => ih _ _

theorem deserialize_v1_avoids (newBundles : Bool) (header : BundleHeader) (msgStr : StdString) :
    Avoids OfReplay (deserialize_v1 J newBundles header msgStr) := by
  unfold deserialize_v1
  refine (Avoids.eval (readId_safeFrom _ _ _)).bind fun _ _ _ _ => ?_
  refine (Avoids.modify _).bind fun _ _ _ _ => ?_
  refine (Avoids.eval (readId_safeFrom _ _ _)).bind fun _ _ _ _ => ?_
  refine (Avoids.eval (readLengths_safeFrom _ _ _)).bind fun _ _ _ _ => ?_
  exact (addMessages_avoids _ _ _ _).bind fun _ _ _ _ => Avoids.pure true

end Decoding

section Handling

variable {W : Ns3} {J : Jsoncpp}

theorem GetAddress_safeFrom (agent : Agent) : SafeFrom OfReplay agent.GetAddress := by
  unfold Agent.GetAddress
  split
  · exact .of_safe (Safe.ok _)
  · exact .undefined (not_ofReplay (.inr (.inl rfl)))

theorem Bind_safeFrom (agent : Agent) : SafeFrom OfReplay agent.Bind := by
  unfold Agent.Bind
  refine (GetAddress_safeFrom agent).bind fun _ _ => ?_
  exact .of_safe ((Safe.throwIf _ _).bind fun _ _ => Safe.ok _)

theorem getAgent_avoids (agId : StdString) : Avoids OfReplay (Agent.getAgent agId) := by
  intro w cause t _ h
  rw [Agent.getAgent_apply] at h
  cases h

theorem createSocket_avoids (node : Option Nat) (agent : Agent) :
    Avoids OfReplay (createSocket node agent) := by
  unfold createSocket
  cases node with
  | none => exact Avoids.undefined (not_ofReplay (.inl rfl))
  | some node =>
    refine Avoids.get.bind fun _ _ _ _ => (Avoids.set _).bind fun _ _ _ _ => ?_
    exact Avoids.pure _

theorem createNode_avoids : Avoids OfReplay createNode :=
  Avoids.get.bind fun _ _ _ _ => (Avoids.set _).bind fun _ _ _ _ => Avoids.pure _

theorem init_avoids (node : Option Nat) (agent : Agent) :
    Avoids OfReplay (agent.init W node) := by
  have hrest : ∀ (nc : List Nat) (m_node : Option Nat) (unbound : Agent)
      (bound : Nat → Agent), Avoids OfReplay (do
        installMobility W nc
        let socket ← createSocket m_node unbound
        eval (bound socket).Bind) := by
    intro nc m_node unbound bound
    refine (Avoids.modify _).bind fun _ _ _ _ => ?_
    refine (createSocket_avoids _ _).bind fun _ _ _ _ => ?_
    exact Avoids.eval (Bind_safeFrom _)
  unfold Agent.init
  cases node with
  | none => exact createNode_avoids.bind fun _ _ _ _ => hrest _ _ _ _
  | some node => exact (Avoids.pure node).bind fun _ _ _ _ => hrest _ _ _ _

theorem addAgent_avoids (agId : StdString) :
    Avoids OfReplay (AgentsInfoHandler.addAgent W agId) := by
  have hcreate : Avoids OfReplay (createAgent agId none) :=
    Avoids.get.bind fun _ _ _ _ => (Avoids.set _).bind fun _ _ _ _ => Avoids.pure _
  unfold AgentsInfoHandler.addAgent
  refine hcreate.bind fun w agent w' hrun => ?_
  have hplain : agent.wfd = none := by
    cases hrun
    rfl
  rw [Agent.virtualInit, hplain]
  exact (init_avoids none agent).bind fun _ _ _ _ => Avoids.modify _

theorem RemoveAgent_avoids (agId : StdString) : Avoids OfReplay (Agent.RemoveAgent agId) := by
  unfold Agent.RemoveAgent
  refine Avoids.get.bind fun _ w _ _ => ?_
  split
  · exact Avoids.pure ()
  · exact Avoids.undefined (not_ofReplay (.inl rfl))
  · exact Avoids.set _

theorem SetPosition_avoids (agent : Agent) (value : Vector) :
    Avoids OfReplay (agent.SetPosition value) := by
  unfold Agent.SetPosition
  cases agent.m_node with
  | none => exact Avoids.undefined (not_ofReplay (.inl rfl))
  | some node =>
    refine Avoids.get.bind fun _ w _ _ => ?_
    split
    · exact Avoids.set _
    · exact Avoids.undefined (not_ofReplay (.inl rfl))

theorem moveAgent_avoids (loc : StdString × DPoint) :
    Avoids OfReplay (AllLocationHandler.moveAgent loc) := by
  unfold AllLocationHandler.moveAgent
  refine Avoids.get.bind fun _ w _ _ => ?_
  split
  · exact Avoids.pure ()
  · exact Avoids.pure ()
  · exact SetPosition_avoids _ _

theorem SendTo_avoids (sender : Agent) (agent : Option Agent) (packet : StdString) :
    Avoids OfReplay (Agent.SendTo W sender agent packet) := by
  unfold Agent.SendTo
  cases agent with
  | none => exact Avoids.pure _
  | some agent =>
    refine (Avoids.eval (GetAddress_safeFrom agent)).bind fun _ _ _ _ => ?_
    cases sender.m_socket with
    | none => exact Avoids.undefined (not_ofReplay (.inl rfl))
    | some socket =>
      refine (Avoids.eval (GetAddress_safeFrom sender)).bind fun _ _ _ _ => ?_
      exact (Avoids.modify _).bind fun _ _ _ _ => Avoids.pure _

theorem sendToRecipient_avoids (osMsg : OpaqueSendMessage) (sending_agent : Agent)
    (toId : StdString) :
    Avoids OfReplay (OpaqueSendHandler.sendToRecipient W J osMsg sending_agent toId) := by
  unfold OpaqueSendHandler.sendToRecipient
  refine (getAgent_avoids toId).bind fun _ receiver _ _ => ?_
  cases receiver with
  | none => exact Avoids.pure ()
  | some receiving_agent =>
    refine (Avoids.eval (.of_safe (JsonSingleLineWriter.safe_write _))).bind fun _ _ _ _ => ?_
    exact (SendTo_avoids _ _ _).bind fun _ _ _ _ => Avoids.pure ()

theorem handle_avoids (handler : Handler) (messages : MessageConglomerate) (msgNumber : Int) :
    Avoids OfReplay (handler.handle W J messages msgNumber) := by
  cases handler with
  | AllLocationHandler =>
    refine (Avoids.eval (.of_safe (safe_parseAllLocations _ _))).bind fun _ _ _ _ => ?_
    exact Avoids.forEach moveAgent_avoids _
  | AgentsInfoHandler =>
    refine (Avoids.eval (.of_safe (safe_parseNewAgents _ _))).bind fun _ _ _ _ => ?_
    refine (Avoids.forEach addAgent_avoids _).bind fun _ _ _ _ => ?_
    exact Avoids.forEach RemoveAgent_avoids _
  | NullHandler => exact Avoids.pure ()
  | OpaqueSendHandler =>
    refine (Avoids.eval (.of_safe (safe_parseOpaqueSend _ _))).bind fun _ osMsg _ _ => ?_
    refine (getAgent_avoids osMsg.fromId).bind fun _ sender _ _ => ?_
    cases sender with
    | none => exact Avoids.pure ()
    | some sending_agent => exact Avoids.forEach (sendToRecipient_avoids osMsg sending_agent) _
  | InvalidHandler => exact Avoids.raise _

theorem safe_getHandler (msgType : StdString) : Safe (HandlerLookup.getHandler msgType) := by
  unfold HandlerLookup.getHandler
  split
  · exact Safe.ok _
  · exact Safe.exception _

theorem handleMessage_avoids (messages : MessageConglomerate) (msgNumber : Int) :
    Avoids OfReplay (handleMessage W J messages msgNumber) := by
  unfold handleMessage
  refine (Avoids.eval (.of_safe (safe_vectorAt _ _))).bind fun _ _ _ _ => ?_
  refine (Avoids.eval (.of_safe (safe_getHandler _))).bind fun _ handler _ _ => ?_
  exact handle_avoids handler messages msgNumber

theorem processQueue_avoids (queue : List MessageConglomerate) :
    Avoids OfReplay (Broker.processQueue W J queue) := by
  induction queue with
  | nil => exact Avoids.pure ()
  | cons conglom rest ih =>
    refine (Avoids.modify _).bind fun _ _ _ _ => (Avoids.modify _).bind fun _ _ _ _ => ?_
    refine Avoids.bind ?_ fun _ _ _ _ => ih
    exact Avoids.zoom (Avoids.forEach (handleMessage_avoids conglom) _)

/-- Handling what is queued does nothing that only a division or an iterator can do. -/
theorem processIncoming_avoids : Avoids OfReplay (Broker.processIncoming W J) :=
  Avoids.get.bind fun _ _ _ _ => processQueue_avoids _

end Handling

end Sm4ns3
