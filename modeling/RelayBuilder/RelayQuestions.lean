import RelayBuilder.Connection

/-!
# What the relay's own middlewares ask

`RelayMiddleware` asks its services, sends EVENT messages through the sender of the coordinator
and all other messages through its own, and hands no message on. `ErrorHandlingMiddleware` only
sends. `RelayAsks` says that a kind of questions has all of these.

## Main results

* `aroundNext_relay`, `aroundNext_errorHandling`
-/

namespace RelayBuilder

open Interleave Script

/-- A question to a service: neither a message to a client, nor about authentication. -/
def RelayCall.IsService : RelayCall → Prop
  | .trySend _ _ | .verify _ | .challenge | .getChallengeEvent | .setAuthenticated _
  | .authedPubkey => False
  | _ => True

/-- The message is no EVENT. -/
def RelayMessage.NotEvent : RelayMessage → Prop
  | .event _ _ => False
  | _ => True

/-- The kind `P` has the questions of `RelayMiddleware`, as long as the answers are allowed. -/
structure RelayAsks (allowed : (call : RelayCall) → call.Answer → Prop) (P : RelayCall → Prop) :
    Prop where
  service : ∀ call, call.IsService → P call
  send : ∀ (sender : MessageSender) message, message.NotEvent →
    P (.trySend sender.channel (sender.packet message)) ∧
      P (.trySend sender.channel (sender.packetBypass message))
  event : ∀ coordinator, allowed .subscriptionCoordinator (some coordinator) → ∀ sub event,
    P (.trySend coordinator.outgoingSender.channel
      (coordinator.outgoingSender.packetBypass (.event sub event)))

/-- The middleware asks such questions itself, and hands its message or none on. -/
def AroundNext (allowed : (call : RelayCall) → call.Answer → Prop) (P : RelayCall → Prop)
    (middleware : InboundMiddleware) : Prop :=
  ∀ ctx, Around allowed P (fun message => message = ctx.message ∨ message = none) ctx.next
    (middleware ctx)

variable {allowed : (call : RelayCall) → call.Answer → Prop} {P : RelayCall → Prop}

theorem aroundNext_passOn : AroundNext allowed P passOn := fun _ => .tail (.inl rfl)

/-- Middlewares that do so with the messages they accept, around the rest of a chain. -/
theorem around_chain (accepts : Option ClientMessage → Prop) (hnone : accepts none)
    {outer : List InboundMiddleware} (h : ∀ m ∈ outer, ∀ ctx, accepts ctx.message →
      Around allowed P (fun message => message = ctx.message ∨ message = none) ctx.next (m ctx))
    (channel : ChannelRef) (subdomain : Scope) (rest : List InboundMiddleware)
    {message : Option ClientMessage} (hmessage : accepts message) :
    Around allowed P (fun m => m = message ∨ m = none)
      (processInboundChain channel subdomain rest)
      (processInboundChain channel subdomain (outer ++ rest) message) := by
  induction outer generalizing message with
  | nil => exact .tail (.inl rfl)
  | cons m outer ih =>
    have hrest := fun m' hm' => h m' (List.mem_cons_of_mem _ hm')
    rw [List.cons_append, processInboundChain]
    refine (h m (List.mem_cons_self ..) _ hmessage).trans fun message' hmessage' => ?_
    obtain rfl | rfl := hmessage'
    · exact ih hrest hmessage
    · exact (ih hrest hnone).mono_calls fun _ h => .inr (h.elim id id)

theorem around_orFail {ctx : InboundContext} {p : Relay (Except Error Unit)}
    (hp : p.EveryAsk allowed P) :
    Around allowed P (fun message => message = ctx.message ∨ message = none) ctx.next
      (RelayMiddleware.orFail ctx p) := by
  refine (Around.of_everyAsk hp.mapError).bind fun r => ?_
  cases r with
  | ok _ => exact .tail (.inr rfl)
  | error e => exact .done _

theorem notEvent_errorMessage (id : ClientMessageId) (e : Error) :
    (ErrorHandlingMiddleware.errorMessage id e).NotEvent := by
  cases id <;> cases e <;> trivial

variable (h : RelayAsks allowed P)

include h

theorem everyAsk_service {call : RelayCall} (hc : call.IsService) :
    (request call : Relay _).EveryAsk allowed P :=
  everyAsk_request (h.service call hc)

theorem everyAsk_send (sender : MessageSender) (message : RelayMessage)
    (hm : message.NotEvent) :
    (sender.send message).EveryAsk allowed P :=
  (everyAsk_request (h.send sender message hm).1).mapError

theorem everyAsk_sendBypass (sender : MessageSender) {message : RelayMessage}
    (hm : message.NotEvent) : (sender.sendBypass message).EveryAsk allowed P :=
  (everyAsk_request (h.send sender message hm).2).mapError

/-! ### The database -/

theorem everyAsk_saveEvent (event : Event) (scope : Scope) :
    (RelayDatabase.saveEvent event scope).EveryAsk allowed P := by
  refine (everyAsk_service h (by trivial)).bind fun view => ?_
  cases view with
  | error e => trivial
  | ok _ =>
    refine (everyAsk_service h (by trivial)).bind fun r => ?_
    cases r <;> trivial

theorem everyAsk_delete (filter : Filter) (scope : Scope) :
    (RelayDatabase.delete filter scope).EveryAsk allowed P := by
  refine (everyAsk_service h (by trivial)).bind fun view => ?_
  cases view with
  | error e => trivial
  | ok _ => exact everyAsk_service h (by trivial)

theorem everyAsk_queryAll (scope : Scope) (filters : List Filter) (all : Events) :
    (RelayDatabase.queryAll scope filters all).EveryAsk allowed P := by
  induction filters generalizing all with
  | nil => trivial
  | cons filter filters ih =>
    refine (everyAsk_service h (by trivial)).bind fun r => ?_
    match r with
    | .ok events => exact (everyAsk_service h (by trivial)).bind fun all => ih all
    | .error .notSupported => trivial
    | .error (.backend text) =>
      dsimp only
      split
      · exact ih _
      · trivial

theorem everyAsk_query (filters : List Filter) (scope : Scope) :
    (RelayDatabase.query filters scope).EveryAsk allowed P := by
  refine (everyAsk_service h (by trivial)).bind fun view => ?_
  cases view with
  | error e => trivial
  | ok _ => exact everyAsk_queryAll h scope filters []

theorem everyAsk_negentropyItems (filter : Filter) (scope : Scope) :
    (RelayDatabase.negentropyItems filter scope).EveryAsk allowed P := by
  refine (everyAsk_service h (by trivial)).bind fun view => ?_
  cases view with
  | error e => trivial
  | ok _ =>
    refine (everyAsk_service h (by trivial)).bind fun r => ?_
    match r with
    | .ok items => trivial
    | .error text =>
      dsimp only
      split <;> trivial

/-! ### The coordinator -/

theorem everyAsk_respond (handler : Option OneshotRef) (result : Except Error Unit) :
    (SubscriptionCoordinator.respond handler result).EveryAsk allowed P := by
  cases handler with
  | none => trivial
  | some tx => exact everyAsk_service h (by trivial)

theorem everyAsk_respondSaved (event : Event) (saveResult : Except Error Unit)
    (handler : Option ResponseHandler) :
    (SubscriptionCoordinator.respondSaved event saveResult handler).EveryAsk allowed P := by
  match handler with
  | none => trivial
  | some (.oneshot tx) => exact everyAsk_service h (by trivial)
  | some (.messageSender sender) =>
    have hm : (SubscriptionCoordinator.okMessage event saveResult).NotEvent := by
      cases saveResult <;> trivial
    exact (everyAsk_sendBypass h sender hm).bind fun _ => trivial

theorem everyAsk_signAndSave (event : UnsignedEvent) (scope : Scope) :
    (SubscriptionCoordinator.signAndSave event scope).EveryAsk allowed P := by
  refine EveryAsk.bind (everyAsk_service h (by trivial)).mapError fun queued => ?_
  cases queued with
  | error e => trivial
  | ok _ =>
    refine (everyAsk_service h (by trivial)).bind fun answer => ?_
    match answer with
    | none | some (.error _) | some (.ok none) => trivial
    | some (.ok (some (.saveUnsignedEvent ..))) | some (.ok (some (.deleteEvents ..))) => trivial
    | some (.ok (some (.saveSignedEvent event' scope' _))) =>
      exact (everyAsk_saveEvent h event' scope').mapError

theorem everyAsk_saveAndBroadcast (kinds : KindRanges) (command : StoreCommand) :
    (SubscriptionCoordinator.saveAndBroadcast kinds command).EveryAsk allowed P := by
  match command with
  | .deleteEvents filter scope handler =>
    exact (everyAsk_delete h filter scope).mapError.bind fun r =>
      (everyAsk_respond h handler _).bind fun _ => trivial
  | .saveSignedEvent event scope handler =>
    refine (everyAsk_saveEvent h event scope).mapError.bind fun saved =>
      (everyAsk_respondSaved h event saved handler).bind fun _ => EveryAsk.bind ?_ fun _ => trivial
    cases saved with
    | error e => trivial
    | ok _ => exact everyAsk_service h (by trivial)
  | .saveUnsignedEvent event scope handler =>
    rw [SubscriptionCoordinator.saveAndBroadcast]
    split
    · exact (everyAsk_service h (by trivial)).mapError.andThen fun _ =>
        (everyAsk_respond h handler _).bind fun _ => trivial
    · exact (everyAsk_signAndSave h event scope).andThen fun _ =>
        (everyAsk_respond h handler _).bind fun _ => trivial

theorem everyAsk_removeSubscription (coordinator : SubscriptionCoordinator)
    (sub : SubscriptionId) : (coordinator.removeSubscription sub).EveryAsk allowed P :=
  (everyAsk_service h (by trivial)).bind fun _ => trivial

theorem everyAsk_filterPage (paging : SubscriptionCoordinator.Paging) (events kept : Events) :
    (SubscriptionCoordinator.filterPage paging events kept).EveryAsk allowed P := by
  induction events generalizing paging kept with
  | nil => trivial
  | cons event events ih =>
    rw [SubscriptionCoordinator.filterPage]
    split
    · exact ih _ _
    · refine EveryAsk.bind ((everyAsk_service h (by trivial)).bind fun context => ?_)
        fun visible => ih _ _
      refine (everyAsk_service h (by trivial)).bind fun r => ?_
      cases r <;> trivial

theorem everyAsk_sendPage {coordinator : SubscriptionCoordinator}
    (hc : allowed .subscriptionCoordinator (some coordinator)) (sub : SubscriptionId) (limit : ℕ)
    (paging : SubscriptionCoordinator.Paging) (events : Events) :
    (SubscriptionCoordinator.sendPage coordinator.outgoingSender sub limit paging events).EveryAsk
      allowed P := by
  induction events generalizing paging with
  | nil => trivial
  | cons event events ih =>
    rw [SubscriptionCoordinator.sendPage]
    split
    · trivial
    · exact (everyAsk_request (h.event coordinator hc sub event)).mapError.bind fun _ => ih _

theorem everyAsk_processFilter {coordinator : SubscriptionCoordinator}
    (hc : allowed .subscriptionCoordinator (some coordinator)) (sub : SubscriptionId)
    (scope : Scope) (limit : ℕ) (filter : Filter) (attempts : ℕ)
    (paging : SubscriptionCoordinator.Paging) :
    (coordinator.processFilter sub scope limit filter attempts paging).EveryAsk allowed P := by
  induction attempts generalizing filter paging with
  | zero => trivial
  | succ attempts ih =>
    refine (everyAsk_query h _ _).bind fun r => ?_
    match r with
    | .error e => exact (everyAsk_service h (by trivial)).bind fun _ => trivial
    | .ok [] => trivial
    | .ok (event :: events) =>
      refine (everyAsk_filterPage h _ _ _).bind fun kept => ?_
      refine (everyAsk_sendPage h hc _ _ _ _).bind fun paging => ?_
      split
      · trivial
      · split
        · trivial
        · exact ih _ _

theorem everyAsk_handleReq {coordinator : SubscriptionCoordinator}
    (hc : allowed .subscriptionCoordinator (some coordinator)) (sub : SubscriptionId)
    (filters : List Filter) (scope : Scope) :
    (coordinator.handleReq sub filters scope).EveryAsk allowed P := by
  have hfilters : ∀ limit filters sent,
      (coordinator.processFilters sub scope limit filters sent).EveryAsk allowed P := by
    intro limit filters
    induction filters with
    | nil => exact fun _ => trivial
    | cons filter filters ih =>
      exact fun sent => (everyAsk_processFilter h hc _ _ _ _ _ _).andThen fun _ => ih _
  refine EveryAsk.andThen ((hfilters _ _ _).andThen fun _ => ?_) fun _ => ?_
  · refine (everyAsk_send h _ (.endOfStoredEvents sub) trivial).bind fun r => ?_
    cases r with
    | ok _ => trivial
    | error e => exact (everyAsk_service h (by trivial)).bind fun _ => trivial
  · exact (everyAsk_removeSubscription h _ _).bind fun _ => everyAsk_service h (by trivial)

/-! ### The middlewares -/

theorem everyAsk_execute (kinds : KindRanges) (command : StoreCommand) :
    (RelayMiddleware.execute kinds command).EveryAsk allowed P :=
  (everyAsk_saveAndBroadcast h kinds command).mapError

theorem everyAsk_handleEvent (kinds : KindRanges) (sender : MessageSender) (event : Event) :
    (RelayMiddleware.handleEvent kinds sender event).EveryAsk allowed P := by
  refine (everyAsk_service h (by trivial)).bind fun context =>
    (everyAsk_service h (by trivial)).andThen fun commands => ?_
  refine (everyAsk_service h (by trivial)).bind fun coordinator => ?_
  cases coordinator with
  | none => trivial
  | some coordinator =>
    change (RelayMiddleware.executeAll kinds sender commands).EveryAsk allowed P
    rw [RelayMiddleware.executeAll]
    split
    · exact .forEach (everyAsk_execute h kinds) _
    · split
      · exact (everyAsk_execute h kinds _).andThen fun _ => .forEach (everyAsk_execute h kinds) _
      · trivial
      · trivial

theorem everyAsk_handleSubscription (subdomain : Scope) (sub : SubscriptionId)
    (filters : List Filter) :
    (RelayMiddleware.handleSubscription subdomain sub filters).EveryAsk allowed P := by
  refine (everyAsk_service h (by trivial)).bind fun context =>
    (everyAsk_service h (by trivial)).andThen fun _ =>
    (everyAsk_service h (by trivial)).andThen fun _ => ?_
  refine everyAsk_request_bind (h.service _ trivial) fun coordinator hc => ?_
  cases coordinator with
  | none => trivial
  | some coordinator => exact everyAsk_handleReq h hc sub filters subdomain

theorem everyAsk_sendNegMsg (sender : MessageSender) (sub : SubscriptionId) (bytes : List UInt8) :
    (RelayMiddleware.sendNegMsg sender sub bytes).EveryAsk allowed P :=
  (everyAsk_service h (by trivial)).bind fun text =>
    (everyAsk_send h sender (.negMsg sub text) trivial).mapError

theorem everyAsk_handleNegOpen (sender : MessageSender) (subdomain : Scope) (sub : SubscriptionId)
    (filter : Filter) (initialMessage : String) :
    (RelayMiddleware.handleNegOpen sender subdomain sub filter initialMessage).EveryAsk
      allowed P := by
  refine (everyAsk_negentropyItems h _ _).andThen fun items => EveryAsk.andThen ?_ fun bytes =>
    (everyAsk_sendNegMsg h _ _ _).andThen fun _ =>
    (everyAsk_service h (by trivial)).bind fun _ => trivial
  exact (EveryAsk.forEach (fun item => (everyAsk_service h (by trivial)).mapError) _).andThen
    fun _ => (everyAsk_service h (by trivial)).mapError.andThen
    fun _ => (everyAsk_service h (by trivial)).mapError.andThen
    fun _ => (everyAsk_service h (by trivial)).mapError.andThen
    fun _ => (everyAsk_service h (by trivial)).mapError

theorem everyAsk_handleNegMsg (sender : MessageSender) (sub : SubscriptionId) (message : String) :
    (RelayMiddleware.handleNegMsg sender sub message).EveryAsk allowed P := by
  refine (everyAsk_service h (by trivial)).bind fun found => ?_
  split
  · exact (everyAsk_service h (by trivial)).mapError.andThen fun _ =>
      (everyAsk_service h (by trivial)).mapError.andThen fun _ => everyAsk_sendNegMsg h _ _ _
  · trivial

theorem around_orNegErr {ctx : InboundContext} (sub : SubscriptionId)
    {p : Relay (Except Error Unit)} (hp : p.EveryAsk allowed P) :
    Around allowed P (fun message => message = ctx.message ∨ message = none) ctx.next
      (RelayMiddleware.orNegErr ctx sub p) := by
  refine (Around.of_everyAsk hp).bind fun r => ?_
  cases r with
  | ok _ => exact .tail (.inr rfl)
  | error e =>
    exact (Around.of_everyAsk (everyAsk_send h ctx.sender
      (.negErr sub ("Error: " ++ e.display)) trivial)).bind fun _ => .tail (.inr rfl)

/-- `RelayMiddleware` asks questions of the kind, and hands none of its messages on. -/
theorem aroundNext_relay (kinds : KindRanges) :
    AroundNext allowed P (RelayMiddleware.processInbound kinds) := by
  rintro ⟨message, sender, subdomain, next⟩
  match message with
  | none => exact .tail (.inr rfl)
  | some (.event event) => exact around_orFail (everyAsk_handleEvent h kinds sender event)
  | some (.req sub filters) =>
    exact around_orFail (everyAsk_handleSubscription h subdomain sub filters)
  | some (.close sub) =>
    refine (Around.of_everyAsk (everyAsk_service h (by trivial))).bind fun _ =>
      (Around.of_everyAsk (everyAsk_service h (by trivial))).bind fun coordinator => ?_
    cases coordinator with
    | none => exact .tail (.inr rfl)
    | some coordinator =>
      exact (Around.of_everyAsk (everyAsk_removeSubscription h coordinator sub)).bind fun _ =>
        .tail (.inr rfl)
  | some (.negOpen sub filter initialMessage) =>
    exact around_orNegErr h sub (everyAsk_handleNegOpen h sender subdomain sub filter initialMessage)
  | some (.negMsg sub message) => exact around_orNegErr h sub (everyAsk_handleNegMsg h sender sub _)
  | some (.negClose sub) =>
    exact around_orFail ((everyAsk_service h (by trivial)).bind fun _ => trivial)
  | some (.auth event) => exact .tail (.inr rfl)
  | some (.count sub filter) => exact .done _

omit h in
/-- `ErrorHandlingMiddleware` hands its message on, and sends its answer. -/
theorem aroundNext_errorHandling_of_send
    (hsend : ∀ (sender : MessageSender) (message : RelayMessage), message.NotEvent →
      P (.trySend sender.channel (sender.packet message))) :
    AroundNext allowed P ErrorHandlingMiddleware.processInbound := by
  refine fun ctx => .call (.inl rfl) fun r => ?_
  match r with
  | .ok _ | .error (.other _) => exact .done _
  | .error (.error e) =>
    dsimp only
    split
    · refine Around.bind (.of_everyAsk (EveryAsk.mapError (everyAsk_request ?_))) fun _ => .done _
      exact hsend ctx.sender _ (notEvent_errorMessage _ e)
    · exact .done _

theorem aroundNext_errorHandling :
    AroundNext allowed P ErrorHandlingMiddleware.processInbound :=
  aroundNext_errorHandling_of_send fun sender message hm => (h.send sender message hm).1

end RelayBuilder
