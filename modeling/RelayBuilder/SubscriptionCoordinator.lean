import RelayBuilder.RelayDatabase
import RelayBuilder.SubscriptionIndex

/-!
# The subscription coordinator

The functions of `subscription_coordinator.rs`: executing store commands, answering a REQ from the
store before it becomes a subscription, and the buffer of replaceable events that the relay makes
itself. The task of the buffer inserts what comes out of its queue and flushes once a second.

## Main definitions

* `ReplaceableEventsBuffer`, its `insert` and `flush`
* `SubscriptionCoordinator.saveAndBroadcast`, `processHistoricalEvents`, `handleReq`
-/

namespace RelayBuilder

open Interleave

/-! ### Signing -/

namespace CryptoHelper

/-- What `run_sign_processor` answers to one command of a batch. It has no answer to a command
that is not a `SaveUnsignedEvent`. -/
def signedResponse (signEvent : UnsignedEvent → Except String Event) :
    StoreCommand → Option (Except Error (Option StoreCommand))
  | .saveUnsignedEvent event scope _ => some <|
    match signEvent event with
    | .ok signed => .ok (some (.saveSignedEvent signed scope none))
    | .error e => .error (.internal ("Failed to sign event: " ++ e))
  | _ => none

/-- `sign_store_command` with a `SaveUnsignedEvent`. -/
def signStoreCommand (event : UnsignedEvent) (scope : Scope) : Relay (Except Error Unit) :=
  (Script.request (RelayCall.queueForSigning event scope)).mapError fun _ =>
    .internal "Signing processor unavailable"

end CryptoHelper

/-! ### The buffer of replaceable events -/

/-- The buffer, by author, kind and scope. -/
abbrev ReplaceableEventsBuffer := AList fun _ : PublicKey × Kind × Scope => UnsignedEvent

namespace ReplaceableEventsBuffer

/-- `insert`: only replaceable and addressable events are buffered. -/
def insert (kinds : KindRanges) (buffer : ReplaceableEventsBuffer) (event : UnsignedEvent)
    (scope : Scope) : ReplaceableEventsBuffer :=
  if !kinds.isReplaceable event.kind && !kinds.isAddressable event.kind then buffer
  else AList.insert (event.pubkey, event.kind, scope) event buffer

/-- The body of the loop of `flush`. Whatever goes wrong is logged, and the next event is taken. -/
def flushEvent (event : UnsignedEvent) (scope : Scope) : Relay Unit := do
  match ← CryptoHelper.signStoreCommand event scope with
  | .error _ => pure ()
  | .ok () =>
    match ← Script.request (RelayCall.awaitSigned event scope) with
    | some (.ok (some (.saveSignedEvent event scope _))) =>
      match ← RelayDatabase.saveEvent event scope with
      | .ok () => Script.request (RelayCall.distributeEvent event scope)
      | .error _ => pure ()
    | _ => pure ()

/-- `flush`: drain the buffer, in the order of the map. -/
def flush (order : HashOrder) (buffer : ReplaceableEventsBuffer) :
    Relay ReplaceableEventsBuffer := do
  (order.iter buffer.entries).forM fun entry => flushEvent entry.2 entry.1.2.2
  pure ∅

end ReplaceableEventsBuffer

namespace SubscriptionCoordinator

/-! ### Executing commands -/

/-- A `SaveUnsignedEvent` of a kind that is neither replaceable nor addressable: it is signed and
saved here. -/
def signAndSave (event : UnsignedEvent) (scope : Scope) : Relay (Except Error Unit) := do
  match ← CryptoHelper.signStoreCommand event scope with
  | .error e => pure (.error (.internal ("Failed to sign event: " ++ e.display)))
  | .ok () =>
    match ← Script.request (RelayCall.awaitSigned event scope) with
    | some (.ok (some (.saveSignedEvent event scope _))) =>
      (RelayDatabase.saveEvent event scope).mapError fun e =>
        .internal ("Failed to save event: " ++ e)
    | some (.ok (some _)) => pure (.ok ())
    | some (.ok none) => pure (.error (.internal "Event signed but not returned"))
    | some (.error e) => pure (.error (.internal ("Failed to sign event: " ++ e.display)))
    | none => pure (.error (.internal "Signing processor dropped response channel"))

/-- `response_handler.send`, if there is a handler. -/
def respond (handler : Option OneshotRef) (result : Except Error Unit) : Relay Unit :=
  match handler with
  | some tx => Script.request (RelayCall.respond tx result)
  | none => pure ()

/-- The answer to a client whose event was saved, or was not. -/
def okMessage (event : Event) : Except Error Unit → RelayMessage
  | .ok () => .ok event.id true ""
  | .error e => .ok event.id false e.display

/-- Tell whoever waits for it whether the event was saved. -/
def respondSaved (event : Event) (saveResult : Except Error Unit) :
    Option ResponseHandler → Relay Unit
  | some (.messageSender sender) => do
    let _ ← sender.sendBypass (okMessage event saveResult)
  | some (.oneshot tx) =>
    Script.request (RelayCall.respond tx
      (saveResult.mapError fun _ => .internal "Failed to save event"))
  | none => pure ()

/-- If the save was successful, distribute the event to subscribers. -/
def distributeSaved (event : Event) (scope : Scope) : Except Error Unit → Relay Unit
  | .ok () => Script.request (RelayCall.distributeEvent event scope)
  | .error _ => pure ()

/-- `save_and_broadcast`. -/
def saveAndBroadcast (kinds : KindRanges) : StoreCommand → Relay (Except Error Unit)
  | .saveUnsignedEvent event scope handler =>
    if kinds.isReplaceable event.kind || kinds.isAddressable event.kind then
      ((Script.request (RelayCall.queueReplaceable event scope)).mapError fun e =>
        Error.internal ("Failed to queue replaceable event: " ++ e)).andThen fun _ => do
          respond handler (.ok ())
          pure (.ok ())
    else
      (signAndSave event scope).andThen fun _ => do
        respond handler (.ok ())
        pure (.ok ())
  | .saveSignedEvent event scope handler => do
    let saveResult ← (RelayDatabase.saveEvent event scope).mapError Error.internal
    respondSaved event saveResult handler
    distributeSaved event scope saveResult
    pure saveResult
  | .deleteEvents filter scope handler => do
    let deleteResult ← (RelayDatabase.delete filter scope).mapError Error.internal
    respond handler (deleteResult.mapError fun _ => .internal "Failed to delete events")
    pure deleteResult

/-! ### Subscriptions -/

/-- `remove_subscription`. A failure is only logged. -/
def removeSubscription (coordinator : SubscriptionCoordinator) (sub : SubscriptionId) :
    Relay Unit := do
  let _ ← Script.request (RelayCall.removeSubscription coordinator.connectionId sub)

/-- `add_subscription`: an existing subscription with the id is removed first. -/
def addSubscription (coordinator : SubscriptionCoordinator) (sub : SubscriptionId)
    (filters : List Filter) : Relay (Except Error Unit) := do
  coordinator.removeSubscription sub
  Script.request (RelayCall.addSubscription coordinator.connectionId sub filters)

/-! ### Answering a REQ -/

/-- How many pages of one filter are asked for at most. -/
def maxAttempts : ℕ := 50

/-- The limit of every filter of a REQ: the smallest limit that a filter names, but not above that
of the relay. -/
def smallestLimit (coordinator : SubscriptionCoordinator) (filters : List Filter) : ℕ :=
  min ((filters.filterMap (·.limit)).min?.getD coordinator.maxLimit) coordinator.maxLimit

/-- The variables of the loops of `process_historical_events`. -/
structure Paging where
  sentEvents : List EventId
  filterSent : ℕ
  lastTimestamp : Option Timestamp
  deriving DecidableEq

/-- Whether an event may be seen, with the latest context. An error hides it. -/
def filterFn (event : Event) : Relay Bool := do
  let context ← Script.request RelayCall.eventContext
  match ← Script.request (RelayCall.canSeeEvent event context) with
  | .ok visible => pure visible
  | .error _ => pure false

/-- The loop over a page: skip what was sent, note the oldest timestamp, keep what may be seen. -/
def filterPage (paging : Paging) : Events → Events → Relay (Events × Paging)
  | [], kept => pure (kept, paging)
  | event :: events, kept =>
    if event.id ∈ paging.sentEvents then filterPage paging events kept
    else do
      let oldest := match paging.lastTimestamp with
        | none => event.createdAt
        | some t => if event.createdAt < t then event.createdAt else t
      let paging := { paging with lastTimestamp := some oldest }
      let visible ← filterFn event
      filterPage paging events (if visible then kept ++ [event] else kept)

/-- The loop that sends a page, from the newest event on, up to the limit. -/
def sendPage (sender : MessageSender) (sub : SubscriptionId) (limit : ℕ) (paging : Paging) :
    Events → Relay Paging
  | [] => pure paging
  | event :: events =>
    if paging.filterSent ≥ limit then pure paging
    else do
      let _ ← sender.sendBypass (.event sub event)
      sendPage sender sub limit { paging with
        sentEvents := paging.sentEvents ++ [event.id]
        filterSent := paging.filterSent + 1 } events

/-- The pages of one filter, as long as there are attempts left. -/
def processFilter (coordinator : SubscriptionCoordinator) (sub : SubscriptionId) (scope : Scope)
    (limit : ℕ) (filter : Filter) : ℕ → Paging → Relay (Except Error Paging)
  | 0, paging => pure (.ok paging)
  | attempts + 1, paging => do
    match ← RelayDatabase.query [filter] scope with
    | .error e => do
      let text ← Script.request (RelayCall.debugText (.error e))
      pure (.error (.notice ("Failed to fetch events: " ++ text)))
    | .ok [] => pure (.ok paging)
    | .ok events => do
      let (kept, paging) ← filterPage paging events []
      let paging ← sendPage coordinator.outgoingSender sub limit paging
        (kept.mergeSort fun a b => b.createdAt ≤ a.createdAt)
      if paging.filterSent ≥ limit then pure (.ok paging)
      else
        match paging.lastTimestamp with
        | none => pure (.ok paging)
        | some t =>
          processFilter coordinator sub scope limit { filter with «until» := some (t - 1) }
            attempts paging

/-- The loop over the filters. What was sent for one filter is not sent again for another. -/
def processFilters (coordinator : SubscriptionCoordinator) (sub : SubscriptionId) (scope : Scope)
    (limit : ℕ) : List Filter → List EventId → Relay (Except Error Unit)
  | [], _ => pure (.ok ())
  | filter :: filters, sent =>
    (processFilter coordinator sub scope limit filter maxAttempts ⟨sent, 0, none⟩).andThen
      fun paging => processFilters coordinator sub scope limit filters paging.sentEvents

/-- `process_historical_events`. -/
def processHistoricalEvents (coordinator : SubscriptionCoordinator) (sub : SubscriptionId)
    (filters : List Filter) (scope : Scope) : Relay (Except Error Unit) :=
  let limit := coordinator.smallestLimit filters
  (processFilters coordinator sub scope limit
    (filters.map fun filter => { filter with limit := some limit }) []).andThen fun _ => do
      match ← coordinator.outgoingSender.send (.endOfStoredEvents sub) with
      | .ok () => pure (.ok ())
      | .error e => do
        let text ← Script.request (RelayCall.debugText (.other e))
        pure (.error (.internal ("Failed to send EOSE: " ++ text)))

/-- `handle_req`: the stored events first, then the subscription. -/
def handleReq (coordinator : SubscriptionCoordinator) (sub : SubscriptionId)
    (filters : List Filter) (scope : Scope) : Relay (Except Error Unit) :=
  (coordinator.processHistoricalEvents sub filters scope).andThen fun _ =>
    coordinator.addSubscription sub filters

end SubscriptionCoordinator

end RelayBuilder
