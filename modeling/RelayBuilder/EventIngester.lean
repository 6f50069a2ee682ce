import RelayBuilder.RelayMiddleware

/-!
# The ingestion of a message

`event_ingester.rs` makes a message of the client's text: the library parses it, the signature of
an event is verified, and the message is rebuilt constructor by constructor, so that it owns its
parts. Everything downstream sees the rebuilt message only.

A NEG-OPEN is rebuilt with no id size and an empty initial message, whatever the client sent. All
other messages come out as they were parsed.

## Main definitions

* `ParsedMessage`: a message with all the fields that the library parses
* `EventIngester.processSingleMessage`
* `EventIngester.Preserves`: what is returned for a text is what was parsed from it

## Main results

* `EventIngester.toStatic_eq_self_iff`: which messages are rebuilt as they are
* `EventIngester.preserves_iff`
-/

namespace RelayBuilder

/-- An event as a client sends it, with its signature. -/
structure SignedEvent where
  event : Event
  sig : BitVec 512
  deriving DecidableEq

/-- `ClientMessage` with all its fields. -/
inductive ParsedMessage where
  | event (event : SignedEvent)
  | req (subscriptionId : SubscriptionId) (filters : List Filter)
  | close (subscriptionId : SubscriptionId)
  | auth (event : SignedEvent)
  | count (subscriptionId : SubscriptionId) (filter : Filter)
  | negOpen (subscriptionId : SubscriptionId) (filter : Filter) (idSize : Option UInt8)
    (initialMessage : String)
  | negMsg (subscriptionId : SubscriptionId) (message : String)
  | negClose (subscriptionId : SubscriptionId)
  deriving DecidableEq

/-- What the handlers of the relay read of a message. -/
def ParsedMessage.received : ParsedMessage → ClientMessage
  | .event e => .event e.event
  | .req sub filters => .req sub filters
  | .close sub => .close sub
  | .auth e => .auth e.event
  | .count sub filter => .count sub filter
  | .negOpen sub filter _ initialMessage => .negOpen sub filter initialMessage
  | .negMsg sub message => .negMsg sub message
  | .negClose sub => .negClose sub

/-- `IngesterError`. -/
inductive IngesterError where
  | invalidUtf8
  | jsonParseError (message : String)
  | signatureVerificationFailed (eventId : EventId)
  | messageTooLarge
  deriving DecidableEq

/-- What the ingester uses of `nostr-sdk`. -/
structure IngestSdk where
  /-- `ClientMessage::from_json`. -/
  fromJson : String → Except String ParsedMessage
  /-- `Event::verify`. -/
  verify : SignedEvent → Except String Unit

namespace EventIngester

/-- The message that owns its parts, rebuilt from the one that was parsed. -/
def toStatic : ParsedMessage → ParsedMessage
  | .event event => .event event
  | .req sub filters => .req sub filters
  | .close sub => .close sub
  | .auth event => .auth event
  | .count sub filter => .count sub filter
  | .negOpen sub filter _ _ => .negOpen sub filter none ""
  | .negMsg sub message => .negMsg sub message
  | .negClose sub => .negClose sub

/-- The check of an EVENT. -/
def verifySignature (sdk : IngestSdk) : ParsedMessage → Except IngesterError Unit
  | .event event =>
    match sdk.verify event with
    | .ok () => .ok ()
    | .error _ => .error (.signatureVerificationFailed event.event.id)
  | _ => .ok ()

/-- `process_single_message`. -/
def processSingleMessage (sdk : IngestSdk) (text : String) :
    Except IngesterError ParsedMessage :=
  if text.isEmpty then .error (.jsonParseError "Empty message")
  else
    match sdk.fromJson text with
    | .error e => .error (.jsonParseError e)
    | .ok msg =>
      match verifySignature sdk msg with
      | .error e => .error e
      | .ok () => .ok (toStatic msg)

/-- The message that `text` stands for, if it is to be accepted. -/
def Accepts (sdk : IngestSdk) (text : String) (msg : ParsedMessage) : Prop :=
  text ≠ "" ∧ sdk.fromJson text = .ok msg ∧ ∀ event, msg = .event event → sdk.verify event = .ok ()

/-- What is returned is what was parsed, for a text that is to be accepted and for no other. -/
def Preserves (sdk : IngestSdk) (text : String) : Prop :=
  ∀ msg, processSingleMessage sdk text = .ok msg ↔ Accepts sdk text msg

/-- A NEG-OPEN with a field that is lost. -/
def Loses (msg : ParsedMessage) : Prop :=
  ∃ sub filter idSize initialMessage, msg = .negOpen sub filter idSize initialMessage ∧
    (idSize ≠ none ∨ initialMessage ≠ "")

variable {sdk : IngestSdk} {text : String}

theorem verifySignature_eq_ok_iff {msg : ParsedMessage} :
    verifySignature sdk msg = .ok () ↔
      ∀ event, msg = .event event → sdk.verify event = .ok () := by
  cases msg with
  | event event =>
    refine ⟨fun h event' hevent => ?_, fun h => ?_⟩
    · obtain rfl := ParsedMessage.event.inj hevent
      rw [verifySignature] at h
      split at h
      · assumption
      · cases h
    · rw [verifySignature, h event rfl]
  | req | close | auth | count | negOpen | negMsg | negClose =>
    exact iff_of_true rfl fun _ h => nomatch h

/-- What is returned, is a parsed message as it is rebuilt. -/
theorem processSingleMessage_eq_ok_iff {msg : ParsedMessage} :
    processSingleMessage sdk text = .ok msg ↔
      ∃ parsed, Accepts sdk text parsed ∧ toStatic parsed = msg := by
  rw [processSingleMessage]
  by_cases hempty : text = ""
  · rw [if_pos (by rw [hempty]; rfl)]
    exact iff_of_false (fun h => nomatch h) fun ⟨_, haccepts, _⟩ => haccepts.1 hempty
  · rw [if_neg fun h => hempty (String.isEmpty_iff.mp h)]
    match hparsed : sdk.fromJson text with
    | .error e =>
      refine iff_of_false (fun h => nomatch h) fun ⟨_, haccepts, _⟩ => ?_
      cases hparsed.symm.trans haccepts.2.1
    | .ok parsed =>
      have hunique {parsed' : ParsedMessage} (h : Accepts sdk text parsed') : parsed' = parsed :=
        Except.ok.inj (h.2.1.symm.trans hparsed)
      dsimp only
      match hverified : verifySignature sdk parsed with
      | .error e =>
        refine iff_of_false (fun h => nomatch h) fun ⟨parsed', haccepts, _⟩ => ?_
        obtain rfl := hunique haccepts
        cases hverified.symm.trans (verifySignature_eq_ok_iff.mpr haccepts.2.2)
      | .ok () =>
        refine ⟨fun h => ⟨parsed, ⟨hempty, hparsed, ?_⟩, Except.ok.inj h⟩, fun h => ?_⟩
        · exact verifySignature_eq_ok_iff.mp hverified
        · obtain ⟨parsed', haccepts, rfl⟩ := h
          rw [hunique haccepts]

theorem toStatic_eq_self_iff {msg : ParsedMessage} : toStatic msg = msg ↔ ¬ Loses msg := by
  cases msg with
  | negOpen sub filter idSize initialMessage =>
    refine ⟨fun h => ?_, fun h => ?_⟩
    · obtain ⟨-, -, rfl, rfl⟩ := ParsedMessage.negOpen.inj h
      rintro ⟨_, _, _, _, hmsg, hlost⟩
      obtain ⟨-, -, rfl, rfl⟩ := ParsedMessage.negOpen.inj hmsg
      exact hlost.elim (· rfl) (· rfl)
    · have hkept : ¬ (idSize ≠ none ∨ initialMessage ≠ "") := fun hlost =>
        h ⟨sub, filter, idSize, initialMessage, rfl, hlost⟩
      obtain ⟨hidSize, hinitial⟩ := not_or.mp hkept
      rw [not_not.mp hidSize, not_not.mp hinitial]
      rfl
  | event | req | close | auth | count | negMsg | negClose =>
    exact iff_of_true rfl fun ⟨_, _, _, _, h, _⟩ => nomatch h

/-- What is lost of a message, is lost of all that it is rebuilt from. -/
theorem toStatic_toStatic (msg : ParsedMessage) : toStatic (toStatic msg) = toStatic msg := by
  cases msg <;> rfl

/-- **Which messages the ingestion preserves**: all but a NEG-OPEN with an id size or with an
initial message. -/
theorem preserves_iff (sdk : IngestSdk) (text : String) :
    Preserves sdk text ↔ ∀ msg, Accepts sdk text msg → ¬ Loses msg := by
  refine ⟨fun h msg haccepts => ?_, fun h msg => ?_⟩
  · have hreturned := (h msg).mpr haccepts
    obtain ⟨parsed, -, rfl⟩ := processSingleMessage_eq_ok_iff.mp hreturned
    exact toStatic_eq_self_iff.mp (toStatic_toStatic parsed)
  · rw [processSingleMessage_eq_ok_iff]
    refine ⟨fun ⟨parsed, haccepts, hmsg⟩ => ?_, fun haccepts => ⟨msg, haccepts, ?_⟩⟩
    · rw [← hmsg, toStatic_eq_self_iff.mpr (h parsed haccepts)]
      exact haccepts
    · exact toStatic_eq_self_iff.mpr (h msg haccepts)

/-- The text of a NEG-OPEN for all events, with the message of a client that has none. -/
def negOpenText : String := "[\"NEG-OPEN\",\"sync\",\x7b\x7d,\"6100\"]"

/-- A library that parses this text and no other. -/
def exampleSdk : IngestSdk where
  fromJson text :=
    if text = negOpenText then .ok (.negOpen "sync" Filter.new none "6100") else .error "invalid"
  verify _ := .ok ()

/-- The initial message of a NEG-OPEN is lost. -/
theorem negOpen_loses_initial_message : ¬ Preserves exampleSdk negOpenText := fun h => by
  have haccepts : Accepts exampleSdk negOpenText (.negOpen "sync" Filter.new none "6100") :=
    ⟨by decide, rfl, fun _ h => nomatch h⟩
  have hreturned : processSingleMessage exampleSdk negOpenText =
      .ok (.negOpen "sync" Filter.new none "") := rfl
  have hsame := Except.ok.inj (hreturned.symm.trans ((h _).mpr haccepts))
  exact absurd (ParsedMessage.negOpen.inj hsame).2.2.2 (by decide)

end EventIngester

end RelayBuilder
