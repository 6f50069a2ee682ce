import RelayBuilder.SubscriptionCoordinator

/-!
# The inbound chain

The messages of a client, the chain of middlewares that they pass from the outermost to the
innermost, and the `RelayMiddleware` of `relay_middleware.rs` that handles them. A middleware may
do something before and after it hands the message on, or not hand it on at all.

## Main definitions

* `ClientMessage`, `InboundContext`, `processInboundChain`
* `RelayMiddleware.handleEvent`, `handleSubscription`, `handleNegOpen`, `processInbound`
-/

namespace RelayBuilder

open Interleave

/-- The messages of a client to a relay. -/
inductive ClientMessage where
  | event (event : Event)
  | req (subscriptionId : SubscriptionId) (filters : List Filter)
  | close (subscriptionId : SubscriptionId)
  | auth (event : Event)
  | count (subscriptionId : SubscriptionId) (filter : Filter)
  | negOpen (subscriptionId : SubscriptionId) (filter : Filter) (initialMessage : String)
  | negMsg (subscriptionId : SubscriptionId) (message : String)
  | negClose (subscriptionId : SubscriptionId)
  deriving DecidableEq

/-- What a middleware gets with a message. The message may have been taken by then. -/
structure InboundContext where
  message : Option ClientMessage
  sender : MessageSender
  /-- The scope of the connection. -/
  subdomain : Scope
  /-- The rest of the chain. -/
  next : Option ClientMessage → Relay (Except Failure Unit)

/-- `process_inbound` of a middleware. -/
abbrev InboundMiddleware := InboundContext → Relay (Except Failure Unit)

/-- `process_inbound_chain`. The outermost middleware stands first, and a middleware sends from
the position that counts the ones inside it. -/
def processInboundChain (channel : ChannelRef) (subdomain : Scope) :
    List InboundMiddleware → Option ClientMessage → Relay (Except Failure Unit)
  | [], _ => pure (.ok ())
  | middleware :: inner, message => middleware
    ⟨message, ⟨channel, inner.length⟩, subdomain, processInboundChain channel subdomain inner⟩

namespace RelayMiddleware

/-- `Vec::swap_remove`: the last element takes the place of the one removed. -/
def swapRemove {α : Type} (l : List α) (idx : ℕ) : List α :=
  match l.getLast? with
  | none => l
  | some last => (l.set idx last).dropLast

/-- Execute a command. Its error is reported as one of the database. -/
def execute (kinds : KindRanges) (command : StoreCommand) : Relay (Except Error Unit) :=
  (SubscriptionCoordinator.saveAndBroadcast kinds command).mapError fun e => .database e.display

/-- The commands of an event processor: the first `SaveSignedEvent` is executed first, and
answers to the client. -/
def executeAll (kinds : KindRanges) (sender : MessageSender) (commands : List StoreCommand) :
    Relay (Except Error Unit) :=
  match commands.findIdx? StoreCommand.isSaveSignedEvent with
  | none => Script.forEach (execute kinds) commands
  | some idx =>
    match (commands[idx]?).map (StoreCommand.setMessageSender sender) with
    | some (.ok command) => (execute kinds command).andThen fun _ =>
      Script.forEach (execute kinds) (swapRemove commands idx)
    | some (.error e) => pure (.error e)
    | none => pure (.ok ())

/-- `handle_event`. -/
def handleEvent (kinds : KindRanges) (sender : MessageSender) (event : Event) :
    Relay (Except Error Unit) := do
  let context ← Script.request RelayCall.eventContext
  (Script.request (RelayCall.handleEvent event context)).andThen fun commands => do
    match ← Script.request RelayCall.subscriptionCoordinator with
    | none => pure (.error (.internal "No subscription coordinator available"))
    | some _ => executeAll kinds sender commands

/-- `handle_subscription`. -/
def handleSubscription (subdomain : Scope) (sub : SubscriptionId) (filters : List Filter) :
    Relay (Except Error Unit) := do
  let context ← Script.request RelayCall.eventContext
  (Script.request (RelayCall.verifyFilters filters context)).andThen fun _ =>
    (Script.request (RelayCall.reserveQuotaSlot sub)).andThen fun _ => do
      match ← Script.request RelayCall.subscriptionCoordinator with
      | none => pure (.error (.internal "No subscription coordinator available"))
      | some coordinator => coordinator.handleReq sub filters subdomain

/-- An internal error with a text of another library. -/
def internalError (before text : String) : Error := .internal (before ++ text)

/-- Build an instance over the items and reconcile it with the first message. -/
def reconcileItems (items : List (EventId × Timestamp)) (initialMessage : String) :
    Relay (Except Error (List UInt8)) :=
  (Script.forEach (fun item => (Script.request (RelayCall.storageInsert item)).mapError
    (internalError "Failed to add item to storage: ")) items).andThen fun _ =>
  ((Script.request (RelayCall.storageSeal items)).mapError
    (internalError "Failed to seal storage: ")).andThen fun _ =>
  ((Script.request (RelayCall.negentropyOwned items 60000)).mapError
    (internalError "Failed to create negentropy instance: ")).andThen fun _ =>
  ((Script.request (RelayCall.hexDecode initialMessage)).mapError
    (internalError "Failed to decode initial message: ")).andThen fun bytes =>
  (Script.request (RelayCall.reconcile items bytes)).mapError
    (internalError "Failed to reconcile negentropy: ")

/-- Send the answer of a reconciliation. -/
def sendNegMsg (sender : MessageSender) (sub : SubscriptionId) (bytes : List UInt8) :
    Relay (Except Error Unit) := do
  let text ← Script.request (RelayCall.hexEncode bytes)
  (sender.send (.negMsg sub text)).mapError
    (internalError "Failed to send negentropy response: ")

/-- `handle_neg_open`. -/
def handleNegOpen (sender : MessageSender) (subdomain : Scope) (sub : SubscriptionId)
    (filter : Filter) (initialMessage : String) : Relay (Except Error Unit) :=
  (RelayDatabase.negentropyItems filter subdomain).andThen fun items =>
    (reconcileItems items initialMessage).andThen fun bytes =>
      (sendNegMsg sender sub bytes).andThen fun _ => do
        Script.request (RelayCall.addNegentropySubscription sub items)
        pure (.ok ())

/-- `handle_neg_msg`. -/
def handleNegMsg (sender : MessageSender) (sub : SubscriptionId) (message : String) :
    Relay (Except Error Unit) := do
  if ← Script.request (RelayCall.hasNegentropySubscription sub) then
    ((Script.request (RelayCall.hexDecode message)).mapError
      (internalError "Failed to decode message: ")).andThen fun bytes =>
    ((Script.request (RelayCall.reconcileSubscription sub bytes)).mapError
      (internalError "Failed to reconcile negentropy: ")).andThen fun bytes =>
    sendNegMsg sender sub bytes
  else pure (.error (.notice ("Negentropy subscription " ++ sub ++ " not found")))

/-- `handle_neg_close`. -/
def handleNegClose (sub : SubscriptionId) : Relay (Except Error Unit) := do
  let _ ← Script.request (RelayCall.removeNegentropySubscription sub)
  pure (.ok ())

/-- Answer an error of a negentropy message, and hand on. -/
def orNegErr (ctx : InboundContext) (sub : SubscriptionId) (p : Relay (Except Error Unit)) :
    Relay (Except Failure Unit) := do
  match ← p with
  | .ok () => ctx.next none
  | .error e => do
    let _ ← ctx.sender.send (.negErr sub ("Error: " ++ e.display))
    ctx.next none

/-- Hand on, or fail with the error. -/
def orFail (ctx : InboundContext) (p : Relay (Except Error Unit)) : Relay (Except Failure Unit) :=
  (p.mapError Failure.error).andThen fun _ => ctx.next none

/-- `process_inbound`. The message is taken, so what stands inside gets none. -/
def processInbound (kinds : KindRanges) : InboundMiddleware := fun ctx =>
  match ctx.message with
  | none => ctx.next none
  | some (.event event) => orFail ctx (handleEvent kinds ctx.sender event)
  | some (.req sub filters) => orFail ctx (handleSubscription ctx.subdomain sub filters)
  | some (.close sub) => do
    let _ ← Script.request (RelayCall.releaseQuotaSlot sub)
    match ← Script.request RelayCall.subscriptionCoordinator with
    | some coordinator => do
      coordinator.removeSubscription sub
      ctx.next none
    | none => ctx.next none
  | some (.negOpen sub filter initialMessage) =>
    orNegErr ctx sub (handleNegOpen ctx.sender ctx.subdomain sub filter initialMessage)
  | some (.negMsg sub message) => orNegErr ctx sub (handleNegMsg ctx.sender sub message)
  | some (.negClose sub) => orFail ctx (handleNegClose sub)
  | some (.auth _) => ctx.next none
  | some (.count _ _) =>
    pure (.error (.error (.notice "Message type not supported: COUNT")))

end RelayMiddleware

/-! ### The other middlewares -/

/-- A middleware that only hands on: `IdentityMiddleware`, and what the logger and the metrics do
with a message. -/
def passOn : InboundMiddleware := fun ctx => ctx.next ctx.message

/-- What an error is answered with. -/
inductive ClientMessageId where
  | event (id : EventId)
  | subscription (id : SubscriptionId)
  deriving DecidableEq

namespace ErrorHandlingMiddleware

/-- The id that a message is answered by, if it has one. -/
def clientMessageId : ClientMessage → Option ClientMessageId
  | .event event => some (.event event.id)
  | .req sub _ | .close sub | .negOpen sub _ _ | .negMsg sub _ | .negClose sub =>
    some (.subscription sub)
  | .auth event => some (.event event.id)
  | .count _ _ => none

/-- A refusal with a prefix, for an event or for a subscription. -/
def refusal (id : ClientMessageId) (text : String) : RelayMessage :=
  match id with
  | .event id => .ok id false text
  | .subscription sub => .closed sub text

/-- The message for an error. -/
def errorMessage (id : ClientMessageId) : Error → RelayMessage
  | .notice message => .notice message
  | .eventError message eventId => .ok eventId false ("error: " ++ message)
  | .subscriptionError message sub => .closed sub ("error: " ++ message)
  | .authRequired message => refusal id ("auth-required: " ++ message)
  | .restricted message => refusal id ("restricted: " ++ message)
  | .duplicate message => refusal id ("duplicate: " ++ message)
  | e => refusal id ("error: " ++ e.display)

/-- `process_inbound`: an error of the framework is answered, any other is only logged. -/
def processInbound : InboundMiddleware := fun ctx => do
  match ← ctx.next ctx.message with
  | .ok () => pure (.ok ())
  | .error (.error e) =>
    match ctx.message.bind clientMessageId with
    | some id => do
      let _ ← ctx.sender.send (errorMessage id e)
      pure (.ok ())
    | none => pure (.ok ())
  | .error (.other _) => pure (.ok ())

end ErrorHandlingMiddleware

/-! ### Errors on their way out -/

/-- For messages that satisfy `P`, and when the message is taken, the middleware only hands on. -/
def HandsOn (P : ClientMessage → Prop) (middleware : InboundMiddleware) : Prop :=
  ∀ ctx, (∀ message ∈ ctx.message, P message) → middleware ctx = ctx.next ctx.message

theorem handsOn_passOn (P : ClientMessage → Prop) : HandsOn P passOn := fun _ _ => rfl

variable {P : ClientMessage → Prop} {outer between inside : List InboundMiddleware}
  {message : ClientMessage}

theorem processInboundChain_append (channel : ChannelRef) (subdomain : Scope)
    (h : ∀ m ∈ outer, HandsOn P m) (rest : List InboundMiddleware)
    {message : Option ClientMessage} (hP : ∀ m ∈ message, P m) :
    processInboundChain channel subdomain (outer ++ rest) message =
      processInboundChain channel subdomain rest message := by
  induction outer with
  | nil => rfl
  | cons m outer ih =>
    rw [List.cons_append, processInboundChain, h m (List.mem_cons_self ..) _ hP]
    exact ih fun m' hm' => h m' (List.mem_cons_of_mem _ hm')

/-- For messages that satisfy `P`, the middleware only hands on, or it is
`ErrorHandlingMiddleware`. -/
def HandsOnOrAnswers (P : ClientMessage → Prop) (middleware : InboundMiddleware) : Prop :=
  HandsOn P middleware ∨ middleware = ErrorHandlingMiddleware.processInbound

/-- Nothing happens to a message that was taken. -/
theorem processInboundChain_none (channel : ChannelRef) (subdomain : Scope)
    (h : ∀ m ∈ inside, HandsOnOrAnswers P m) :
    processInboundChain channel subdomain inside none = Script.done (.ok ()) := by
  induction inside with
  | nil => rfl
  | cons m inside ih =>
    have hrest := ih fun m' hm' => h m' (List.mem_cons_of_mem _ hm')
    rw [processInboundChain]
    obtain hm | rfl := h m (List.mem_cons_self ..)
    · exact (hm _ fun _ h => absurd h (Option.not_mem_none _)).trans hrest
    · rw [ErrorHandlingMiddleware.processInbound]
      simp only [hrest]
      rfl

theorem processInboundChain_handsOn (channel : ChannelRef) (subdomain : Scope)
    (h : ∀ m ∈ inside, HandsOn P m) :
    processInboundChain channel subdomain inside none = Script.done (.ok ()) :=
  processInboundChain_none channel subdomain fun m hm => .inl (h m hm)

/-- A message that the rest of the chain never fails. -/
theorem processInboundChain_succeeds (channel : ChannelRef) (subdomain : Scope)
    (h : ∀ m ∈ outer, HandsOnOrAnswers P m) (hP : P message) {rest : List InboundMiddleware}
    {p : Relay Unit} (hrest : processInboundChain channel subdomain rest (some message) =
      p.bind fun _ => Script.done (.ok ())) :
    processInboundChain channel subdomain (outer ++ rest) (some message) =
      p.bind fun _ => Script.done (.ok ()) := by
  induction outer with
  | nil => exact hrest
  | cons m outer ih =>
    have ih := ih fun m' hm' => h m' (List.mem_cons_of_mem _ hm')
    rw [List.cons_append, processInboundChain]
    obtain hm | rfl := h m (List.mem_cons_self ..)
    · refine (hm _ fun m' hm' => ?_).trans ih
      cases hm'
      exact hP
    · rw [ErrorHandlingMiddleware.processInbound]
      simp only [ih, Script.bind_eq, Script.bind_assoc, Script.done_bind]
      rfl

/-- What becomes of the result of a message: an error is answered. -/
def ErrorHandlingMiddleware.answer (sender : MessageSender) (id : ClientMessageId) :
    Except Error Unit → Relay (Except Failure Unit)
  | .ok () => pure (.ok ())
  | .error e => do
    let _ ← sender.send (errorMessage id e)
    pure (.ok ())

/-- A message that `RelayMiddleware` fails with the error of `p`, in a chain where
`ErrorHandlingMiddleware` stands further out and the others hand it on. -/
theorem processInboundChain_answer {kinds : KindRanges} (channel : ChannelRef) (subdomain : Scope)
    (ho : ∀ m ∈ outer, HandsOn P m) (hb : ∀ m ∈ between, HandsOn P m)
    (hi : ∀ m ∈ inside, HandsOn P m) (hP : P message) {id : ClientMessageId}
    (hid : ErrorHandlingMiddleware.clientMessageId message = some id)
    {p : MessageSender → Relay (Except Error Unit)}
    (hp : ∀ sender next, RelayMiddleware.processInbound kinds
      ⟨some message, sender, subdomain, next⟩ =
        RelayMiddleware.orFail ⟨some message, sender, subdomain, next⟩ (p sender)) :
    processInboundChain channel subdomain
        (outer ++ ErrorHandlingMiddleware.processInbound ::
          (between ++ RelayMiddleware.processInbound kinds :: inside)) (some message) =
      (p ⟨channel, inside.length⟩).bind (ErrorHandlingMiddleware.answer
        ⟨channel, (between ++ RelayMiddleware.processInbound kinds :: inside).length⟩ id) := by
  have hmem : ∀ m ∈ some message, P m := fun m hm => by
    cases hm
    exact hP
  rw [processInboundChain_append channel subdomain ho _ hmem, processInboundChain,
    ErrorHandlingMiddleware.processInbound]
  dsimp only
  rw [processInboundChain_append channel subdomain hb _ hmem, processInboundChain, hp,
    RelayMiddleware.orFail]
  dsimp only
  rw [processInboundChain_handsOn channel subdomain hi, Option.bind_some, hid]
  simp only [Script.andThen, Script.mapError, Script.bind_eq, Script.bind_assoc, Script.done_bind]
  congr 1
  funext result
  cases result <;> rfl

end RelayBuilder
