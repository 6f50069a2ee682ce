import RelayBuilder.EventAnswers

/-!
# The answers to failures

`ErrorHandlingMiddleware` looks at a message before it hands it on. If the rest of the chain fails
with an error of the framework, it tells the client, under the id that it found in the message or
under the one that the error brings. A message without an id, and an error of any other kind, is
only written to the log, and the chain outside of it is told that all is well in any case.

## Main definitions

* `ClientMessage.replyId`: the event or the subscription that a message is about
* `Error.names?`: the event or the subscription that an error names itself
* `TellsOf`: the messages that tell of an error, a NOTICE or a refusal
* `Puts`: a history that puts one message into the channel, and nothing else

## Main results

* `runs_errorHandling`: what the middleware does after the rest of the chain, in all cases
* `failure_answered`: which failures are answered, and how
-/

namespace RelayBuilder

open Interleave Script ErrorHandlingMiddleware

/-- The event or the subscription that a message is about. -/
def ClientMessage.replyId : ClientMessage → ClientMessageId
  | .event e | .auth e => .event e.id
  | .req sub _ | .close sub | .count sub _ | .negOpen sub _ _ | .negMsg sub _ | .negClose sub =>
    .subscription sub

def ClientMessage.IsCount (message : ClientMessage) : Prop :=
  ∃ sub filter, message = .count sub filter

/-- The event or the subscription that an error names itself. -/
def Error.names? : Error → Option ClientMessageId
  | .eventError _ id => some (.event id)
  | .subscriptionError _ sub => some (.subscription sub)
  | _ => none

/-- A NOTICE, or an OK that is false for the event, or a CLOSED for the subscription. -/
inductive TellsOf : ClientMessageId → RelayMessage → Prop where
  | notice (id : ClientMessageId) (text : String) : TellsOf id (.notice text)
  | ok (id : EventId) (text : String) : TellsOf (.event id) (.ok id false text)
  | closed (sub : SubscriptionId) (text : String) : TellsOf (.subscription sub) (.closed sub text)

/-- The history puts one message into the channel of the sender, and does nothing else. -/
def Puts (sender : MessageSender) (reply : RelayMessage) (t : RelayHistory) : Prop :=
  t = [⟨.trySend sender.channel (sender.packet reply), .ok ()⟩]

variable {ctx : InboundContext} {message : ClientMessage} {t t' : RelayHistory}
  {r : Except Failure Unit}

theorem clientMessageId_eq_none_iff : clientMessageId message = none ↔ message.IsCount := by
  cases message <;> simp [clientMessageId, ClientMessage.IsCount]

/-- The id that is looked up is that of the event or of the subscription. -/
theorem clientMessageId_of_not_isCount (h : ¬ message.IsCount) :
    clientMessageId message = some message.replyId := by
  cases message with
  | count sub filter => exact absurd ⟨sub, filter, rfl⟩ h
  | _ => rfl

theorem tellsOf_refusal (id : ClientMessageId) (text : String) : TellsOf id (refusal id text) := by
  cases id with
  | event id => exact .ok id text
  | subscription sub => exact .closed sub text

/-- The message for an error tells of what the error names, and else of what it is asked to. -/
theorem tellsOf_errorMessage (id : ClientMessageId) (e : Error) :
    TellsOf (e.names?.getD id) (errorMessage id e) := by
  cases e with
  | notice text => exact .notice id text
  | eventError text eventId => exact .ok eventId _
  | subscriptionError text sub => exact .closed sub _
  | _ => exact tellsOf_refusal id _

/-- A NOTICE goes out for an error that is one, and for no other. -/
theorem errorMessage_eq_notice_iff (id : ClientMessageId) (e : Error) (text : String) :
    errorMessage id e = .notice text ↔ e = .notice text := by
  cases e <;> cases id <;> simp [errorMessage, refusal]

/-- What the middleware does after the rest of the chain: it answers an error of the framework if
the message has an id, and the chain outside of it is told that all is well. -/
theorem runs_errorHandling (hmessage : ctx.message = some message) {inner : Except Failure Unit}
    (hinner : Runs (ctx.next (some message)) t inner) :
    Runs (processInbound ctx) (t ++ t') r ↔ r = .ok () ∧
      match inner, clientMessageId message with
      | .error (.error e), some id => ∃ sent,
          t' = [⟨.trySend ctx.sender.channel (ctx.sender.packet (errorMessage id e)), sent⟩]
      | _, _ => t' = [] := by
  rw [processInbound, hmessage]
  dsimp only [Script.bind_eq]
  rw [hinner.bind_iff, Option.bind_some]
  cases inner with
  | ok u => exact runs_done.trans and_comm
  | error failure =>
    cases failure with
    | other text => exact runs_done.trans and_comm
    | error e =>
      cases clientMessageId message with
      | none => exact runs_done.trans and_comm
      | some id =>
        refine runs_request_bind.trans ?_
        constructor
        · rintro ⟨sent, t'', ht', hdone⟩
          obtain ⟨rfl, rfl⟩ := runs_done.mp hdone
          exact ⟨rfl, sent, ht'⟩
        · rintro ⟨hr, sent, ht'⟩
          exact ⟨sent, [], ht', runs_done.mpr ⟨rfl, hr⟩⟩

/-- **Which failures are answered, and how.** For every client message, every chain inside the
middleware and every way in which it fails, with room in the channel: an error of the framework,
of any kind, is answered with exactly one message unless the message is a COUNT. This is a NOTICE
for an error that is one, and else an OK that is false or a CLOSED, for the event or the
subscription that the error names, and for that of the message if it names none. An error of any
other kind is not answered. In all cases the chain outside is told that all is well. -/
theorem failure_answered (hmessage : ctx.message = some message) {failure : Failure}
    (hinner : Runs (ctx.next (some message)) t (.error failure))
    (hroom : Room ctx.sender.channel t') (h : Runs (processInbound ctx) (t ++ t') r) :
    r = .ok () ∧ match failure with
      | .error e => ¬ message.IsCount → ∃ reply, Puts ctx.sender reply t' ∧
          TellsOf (e.names?.getD message.replyId) reply ∧
          ∀ text, reply = .notice text ↔ e = .notice text
      | .other _ => t' = [] := by
  obtain ⟨hr, ht'⟩ := (runs_errorHandling hmessage hinner).mp h
  refine ⟨hr, ?_⟩
  cases failure with
  | other text => exact ht'
  | error e =>
    intro hcount
    rw [clientMessageId_of_not_isCount hcount] at ht'
    obtain ⟨sent, rfl⟩ := ht'
    obtain rfl := hroom _ sent (List.mem_singleton_self _)
    exact ⟨_, rfl, tellsOf_errorMessage _ e, errorMessage_eq_notice_iff _ e⟩

/-- A message in a chain that fails at once. -/
def failingContext (message : ClientMessage) (failure : Failure) : InboundContext :=
  ⟨some message, ⟨0, 2⟩, .default, fun _ => .done (.error failure)⟩

/-- A REQ that needs authentication is refused with one message about its subscription. -/
theorem req_refused_once : ∃ reply,
    Puts ⟨0, 2⟩ reply [⟨.trySend 0 ⟨.closed "feed" "auth-required: log in", 2, none⟩, .ok ()⟩] ∧
      TellsOf (.subscription "feed") reply ∧ ∀ text, reply ≠ .notice text := by
  let t := [(⟨.trySend 0 ⟨.closed "feed" "auth-required: log in", 2, none⟩, .ok ()⟩ : Asked)]
  have hroom : Room 0 t := fun packet r hr => by cases List.mem_singleton.mp hr; rfl
  have hrun : Runs (processInbound
      (failingContext (.req "feed" []) (.error (.authRequired "log in")))) ([] ++ t) (.ok ()) :=
    .ask _ (.done _)
  obtain ⟨-, h⟩ := failure_answered rfl (.done _) hroom hrun
  obtain ⟨reply, hputs, htells, hnotice⟩ := h fun ⟨_, _, heq⟩ => nomatch heq
  exact ⟨reply, hputs, htells, fun text heq => nomatch (hnotice text).mp heq⟩

/-- Some failures are not answered: those with an error that is not one of the framework. -/
theorem other_failure_not_answered : ¬ ∀ (ctx : InboundContext) (message : ClientMessage)
    (failure : Failure) (t t' : RelayHistory) (r : Except Failure Unit),
    ctx.message = some message → Runs (ctx.next (some message)) t (.error failure) →
    Room ctx.sender.channel t' → Runs (processInbound ctx) (t ++ t') r →
    ∃ reply, Puts ctx.sender reply t' ∧ TellsOf message.replyId reply := by
  intro h
  obtain ⟨reply, hputs, -⟩ := h (failingContext (.req "feed" []) (.other "Timeout")) _ _ [] [] _ rfl
    (.done _) (fun _ _ hr => nomatch hr) (.done _)
  cases hputs

/-- A COUNT is not answered, although `RelayMiddleware` fails it with a text for the client. -/
theorem count_not_answered (hmessage : ctx.message = some message) (hcount : message.IsCount)
    {failure : Failure} (hinner : Runs (ctx.next (some message)) t (.error failure))
    (h : Runs (processInbound ctx) (t ++ t') r) : r = .ok () ∧ t' = [] := by
  obtain ⟨hr, ht'⟩ := (runs_errorHandling hmessage hinner).mp h
  rw [clientMessageId_eq_none_iff.mpr hcount] at ht'
  cases failure <;> exact ⟨hr, ht'⟩

end RelayBuilder
