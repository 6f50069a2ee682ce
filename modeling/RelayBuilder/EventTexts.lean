import RelayBuilder.DeadConnections
import RelayBuilder.JsonText

/-!
# The texts of live events

`distribute_event` does not serialize an EVENT message. It puts the subscription id and the text of
the event between the other parts of the message as they are. The text of the event may be any text
that denotes an object.

## Main definitions

* `eventMessage`: the value that an EVENT message should denote

## Main results

* `document_eventJson_iff`: the text denotes the message when nothing in the id has to be escaped
* `sentText_iff`: so do the texts that `distribute_event` sends
-/

namespace RelayBuilder

open Interleave JsonText SubscriptionRegistry

/-- The value of an EVENT message with an event that denotes an object. -/
def eventMessage (sub : SubscriptionId) (members : List (String × Json)) : Json :=
  .array [.string "EVENT", .string sub, .object members]

variable {sub : SubscriptionId} {json : String} {members : List (String × Json)}

theorem toList_eventJson (sub : SubscriptionId) (json : String) : (eventJson sub json).toList =
    '[' :: ('"' :: "EVENT".toList ++ '"' :: ',' :: '"' :: sub.toList ++ '"' :: ',' :: json.toList) ++
      [']'] := by
  have hopen : "[\"EVENT\",\"".toList = '[' :: '"' :: "EVENT".toList ++ ['"', ',', '"'] := by decide
  have hbetween : "\",".toList = ['"', ','] := by decide
  have hclose : "]".toList = [']'] := by decide
  simp only [eventJson, String.toList_append, hopen, hbetween, hclose, List.append_assoc,
    List.cons_append, List.nil_append]

theorem chars_event : Chars "EVENT".toList "EVENT".toList :=
  chars_self (unescaped_of_all (by decide))

/-- An id with nothing to escape gives the text of the message. -/
theorem document_eventJson (hsub : ∀ c ∈ sub.toList, Unescaped c)
    (hjson : Document json.toList (.object members)) :
    Document (eventJson sub json).toList (eventMessage sub members) := by
  have hevent : Document ('"' :: "EVENT".toList ++ ['"']) (.string "EVENT") := by
    have h := (Value.string chars_event).document
    rwa [String.ofList_toList] at h
  have hid : Document ('"' :: sub.toList ++ ['"']) (.string sub) := by
    have h := (Value.string (chars_self hsub)).document
    rwa [String.ofList_toList] at h
  have hitems := Items.cons hevent (.cons hid (.one hjson))
  rw [toList_eventJson]
  have harray := (Value.array hitems).document
  simp only [List.append_assoc, List.cons_append, List.nil_append] at harray ⊢
  exact harray

/-- A text that denotes the message has an id with nothing to escape, whatever follows the id. -/
theorem unescaped_of_document
    (h : Document (eventJson sub json).toList (eventMessage sub members)) :
    ∀ c ∈ sub.toList, Unescaped c := by
  obtain ⟨before, items, after, hbefore, hitems, -, heq⟩ := h.array_inv
  rw [toList_eventJson] at heq
  simp only [List.append_assoc, List.cons_append] at heq
  obtain rfl := spaces_eq_nil hbefore (by decide) heq.symm
  cases hitems with
  | cons hevent hrest =>
    cases hrest with
    | cons hid hrest =>
      obtain ⟨space₁, name, space₂, hspace₁, hname, hspace₂, rfl⟩ := hevent.string_inv
      obtain ⟨space₃, chars, space₄, hspace₃, hchars, -, rfl⟩ := hid.string_inv
      simp only [List.append_assoc, List.cons_append, List.nil_append, List.cons.injEq,
        true_and] at heq
      obtain rfl := spaces_eq_nil hspace₁ (by decide) heq.symm
      simp only [List.nil_append, List.cons.injEq, true_and] at heq
      obtain rfl := chars_event.unique_end hname heq
      simp only [List.append_cancel_left_eq, List.cons.injEq, true_and] at heq
      obtain rfl := spaces_eq_nil hspace₂ (by decide) heq.symm
      simp only [List.nil_append, List.cons.injEq, true_and] at heq
      obtain rfl := spaces_eq_nil hspace₃ (by decide) heq.symm
      simp only [List.nil_append, List.cons.injEq, true_and] at heq
      exact hchars.plain_of_self heq.symm

/-- **When the text denotes the message**: when no character of the id has to be escaped. -/
theorem document_eventJson_iff (hjson : Document json.toList (.object members)) :
    Document (eventJson sub json).toList (eventMessage sub members) ↔
      ∀ c ∈ sub.toList, Unescaped c :=
  ⟨unescaped_of_document, fun hsub => document_eventJson hsub hjson⟩

/-! ### What is sent -/

variable {s s' : SubscriptionRegistry} {κ : Key} {data : ConnectionSubscriptions}

/-- What a subscription is sent, when its connection is there and takes it. -/
theorem sent_of_deliver {sdk : Sdk} {event : Event} (hdata : s.connection? κ.1 = some data)
    (h : deliver sdk event κ s = (false, s')) :
    (s'.channels data.sender.channel).sent = (s.channels data.sender.channel).sent ++
      [data.sender.packetWithJson (.event κ.2 event) (eventJson κ.2 (sdk.asJson event))] := by
  rw [deliver, hdata] at h
  dsimp only at h
  split at h
  · next ch hsend =>
    obtain ⟨-, rfl⟩ := Prod.mk.inj h
    rw [SubscriptionRegistry.setChannel, (Channel.trySend_ok hsend).2]
    simp
  · cases h

/-- **The text of a live event is the serialization of its message** just when no character of the
subscription id has to be escaped. -/
theorem deliveredText_iff (sdk : Sdk) (event : Event) {members : List (String × Json)}
    (hjson : Document (sdk.asJson event).toList (.object members))
    (hdata : s.connection? κ.1 = some data) (h : deliver sdk event κ s = (false, s')) :
    ∃ packet text, (s'.channels data.sender.channel).sent =
        (s.channels data.sender.channel).sent ++ [packet] ∧
      packet.message = .event κ.2 event ∧ packet.json = some text ∧
      (Document text.toList (eventMessage κ.2 members) ↔ ∀ c ∈ κ.2.toList, Unescaped c) :=
  ⟨_, _, sent_of_deliver hdata h, rfl, rfl, document_eventJson_iff hjson⟩

/-! ### A note -/

/-- A member of an object, without spaces. -/
private def member (name value : List Char) : List Char := '"' :: name ++ '"' :: ':' :: value

private theorem member_denotes {name value s : List Char} {v : Json} (hname : Chars name s)
    (hvalue : Value value v) : Member (member name value) (String.ofList s, v) := by
  have h : Member ([] ++ '"' :: name ++ '"' :: [] ++ ':' :: value) (String.ofList s, v) :=
    .intro nofun hname nofun hvalue.document
  rwa [List.nil_append, List.append_assoc] at h

private def noteId : List Char := List.replicate 63 '0' ++ ['7']

private def noteAuthor : List Char := List.replicate 63 '0' ++ ['1']

private def noteSig : List Char := List.replicate 128 'f'

/-- The text of a note. -/
private def noteJson : String :=
  String.ofList <| '{' :: (member ['i', 'd'] ('"' :: noteId ++ ['"']) ++ ',' ::
    (member "pubkey".toList ('"' :: noteAuthor ++ ['"']) ++ ',' ::
    (member "created_at".toList ['0'] ++ ',' ::
    (member "kind".toList ['1'] ++ ',' ::
    (member "tags".toList ['[', ']'] ++ ',' ::
    (member "content".toList ('"' :: "hello".toList ++ ['"']) ++ ',' ::
    member "sig".toList ('"' :: noteSig ++ ['"']))))))) ++ ['}']

private def noteMembers : List (String × Json) :=
  [("id", .string (String.ofList noteId)), ("pubkey", .string (String.ofList noteAuthor)),
    ("created_at", .number "0"), ("kind", .number "1"), ("tags", .array []),
    ("content", .string "hello"), ("sig", .string (String.ofList noteSig))]

private theorem string_denotes {s : List Char} (h : s.all (Unescaped ·) = true) :
    Value ('"' :: s ++ ['"']) (.string (String.ofList s)) :=
  .string (chars_self (unescaped_of_all h))

private theorem digit_denotes {c : Char} (h : c = '0' ∨ c = '1') :
    Value [c] (.number (String.ofList [c])) := by
  refine .number ⟨[], [c], [], [], rfl, .inl rfl, ?_, .inl rfl, .inl rfl⟩
  obtain rfl | rfl := h
  · exact .inl rfl
  · exact .inr ⟨⟨List.cons_ne_nil _ _, List.forall_mem_singleton.mpr rfl⟩, by decide⟩

private theorem noteJson_denotes : Document noteJson.toList (.object noteMembers) := by
  have hname (s : List Char) (h : s.all (Unescaped ·) = true) : Chars s s :=
    chars_self (unescaped_of_all h)
  rw [noteJson, String.toList_ofList]
  refine (Value.object ?_).document
  refine .cons (member_denotes (hname _ (by decide)) (string_denotes (by decide))) ?_
  refine .cons (member_denotes (hname _ (by decide)) (string_denotes (by decide))) ?_
  refine .cons (member_denotes (hname _ (by decide)) (digit_denotes (.inl rfl))) ?_
  refine .cons (member_denotes (hname _ (by decide)) (digit_denotes (.inr rfl))) ?_
  refine .cons (member_denotes (hname _ (by decide)) (@Value.emptyArray [] nofun)) ?_
  refine .cons (member_denotes (hname _ (by decide)) (string_denotes (by decide))) ?_
  refine .one (member_denotes (hname _ (by decide)) (string_denotes ?_))
  refine List.all_eq_true.mpr fun c hc => ?_
  rw [List.eq_of_mem_replicate hc]
  decide

/-- A library that knows the text of the note. -/
private def noteSdk : Sdk := ⟨Filter.matchEvent, fun _ => noteJson, .insertion⟩

/-- Alice subscribes to notes. -/
private def subscribeAlice (sub : SubscriptionId) : List (Move RegistryOp) :=
  [callAlone (registerAt "alice" 0 .default) 0 1,
    callAlone (.addSubscription "alice" sub [Filter.kind 1]) 1 10].flatten

theorem plain_id_denotes :
    ∃ c s' packet text, (registryPool none unread).play (fun _ => RegistryOp.code noteSdk)
        (oneByOne fun _ _ => True) (subscribeAlice "feed") = some c ∧
      deliver noteSdk (Event.note 7) ("alice", "feed") c.state = (false, s') ∧
      (s'.channels 0).sent = (c.state.channels 0).sent ++ [packet] ∧ packet.json = some text ∧
      Document text.toList (eventMessage "feed" noteMembers) := by
  obtain ⟨c, data, s', hplay, hdata, hchannel, hdeliver⟩ : ∃ c data s',
      (registryPool none unread).play (fun _ => RegistryOp.code noteSdk)
        (oneByOne fun _ _ => True) (subscribeAlice "feed") = some c ∧
      c.state.connection? "alice" = some data ∧ data.sender.channel = 0 ∧
      deliver noteSdk (Event.note 7) ("alice", "feed") c.state = (false, s') :=
    ⟨_, _, _, rfl, rfl, rfl, rfl⟩
  obtain ⟨packet, text, hsent, -, htext, hiff⟩ :=
    deliveredText_iff noteSdk (Event.note 7) noteJson_denotes (κ := ("alice", "feed")) hdata
      hdeliver
  rw [hchannel] at hsent
  exact ⟨c, s', packet, text, hplay, hdeliver, hsent, htext, hiff.mpr (unescaped_of_all (by decide))⟩

/-- An id that is a quotation mark: the text that is sent does not denote the message. -/
theorem quoted_id_does_not_denote :
    ∃ c o packet text, (registryPool none unread).play (fun _ => RegistryOp.code noteSdk)
        (oneByOne fun _ _ => True) (subscribeAlice "\"") = some c ∧
      (distributeEventIndexed noteSdk (Event.note 7) .default).run c.state = some o ∧
      Document (noteSdk.asJson (Event.note 7)).toList (.object noteMembers) ∧
      (o.state.channels 0).sent = [packet] ∧ packet.message = .event "\"" (Event.note 7) ∧
      packet.json = some text ∧ ¬ Document text.toList (eventMessage "\"" noteMembers) := by
  obtain ⟨c, o, hplay, ho, hsent⟩ : ∃ c o,
      (registryPool none unread).play (fun _ => RegistryOp.code noteSdk)
        (oneByOne fun _ _ => True) (subscribeAlice "\"") = some c ∧
      (distributeEventIndexed noteSdk (Event.note 7) .default).run c.state = some o ∧
      (o.state.channels 0).sent =
        [⟨.event "\"" (Event.note 7), 0, some (eventJson "\"" noteJson)⟩] :=
    ⟨_, _, rfl, rfl, rfl⟩
  refine ⟨c, o, _, _, hplay, ho, noteJson_denotes, hsent, rfl, rfl, fun h => ?_⟩
  exact absurd (unescaped_of_document h '"' (by decide)) not_unescaped_quote

end RelayBuilder
