import RelayBuilder.Interleave.Script
import RelayBuilder.MessageSender

/-!
# What the relay asks of its services

The functions of the coordinator and of the middlewares are scripts. They ask the store, the
signing task, the channels, the registry, the event processor and the state of the connection,
and `RelayCall` lists the questions. What comes back is up to the service, which may fail, may be
shared with other tasks, and may be code of the relay's user.

## Main definitions

* `StoreCommand`, what an event processor wants done
* `RelayCall` and `RelayCall.Answer`, and `Relay α`, the scripts over them
-/

namespace RelayBuilder

open Interleave

/-- An event that is not signed yet, so it has no id. -/
structure UnsignedEvent where
  pubkey : PublicKey
  createdAt : Timestamp
  kind : Kind
  tags : List Tag
  content : String
  deriving DecidableEq

/-- The ranges of kinds, as `nostr-sdk` draws them. -/
structure KindRanges where
  isReplaceable : Kind → Bool
  isAddressable : Kind → Bool

/-- The ranges of NIP-01, to evaluate examples with. -/
def KindRanges.nip01 : KindRanges where
  isReplaceable kind := kind == 0 || kind == 3 || (10000 ≤ kind && kind < 20000)
  isAddressable kind := 30000 ≤ kind && kind < 40000

/-! ### Commands -/

/-- The sending end of a oneshot channel. -/
abbrev OneshotRef := ℕ

inductive ResponseHandler where
  | oneshot (tx : OneshotRef)
  | messageSender (sender : MessageSender)
  deriving DecidableEq

/-- Commands that can be executed against the database. -/
inductive StoreCommand where
  | saveUnsignedEvent (event : UnsignedEvent) (scope : Scope) (responseHandler : Option OneshotRef)
  | saveSignedEvent (event : Event) (scope : Scope) (responseHandler : Option ResponseHandler)
  | deleteEvents (filter : Filter) (scope : Scope) (responseHandler : Option OneshotRef)
  deriving DecidableEq

namespace StoreCommand

/-- The command is a `SaveSignedEvent`. -/
def isSaveSignedEvent : StoreCommand → Bool
  | saveSignedEvent .. => true
  | _ => false

/-- `StoreCommand::set_message_sender`. -/
def setMessageSender (messageSender : MessageSender) : StoreCommand → Except Error StoreCommand
  | saveSignedEvent event scope _ =>
    .ok (.saveSignedEvent event scope (some (.messageSender messageSender)))
  | _ => .error (.internal "set_message_sender called with non-SaveSignedEvent command")

end StoreCommand

/-! ### The services -/

/-- Why the store refused an event. -/
inductive RejectedReason where
  | ephemeral
  | duplicate
  | deleted
  | expired
  | replaced
  | invalidDelete
  deriving DecidableEq

inductive SaveEventStatus where
  | success
  | rejected (reason : RejectedReason)
  deriving DecidableEq

/-- An error of the store, with its text. -/
inductive DatabaseError where
  | backend (text : String)
  | notSupported
  deriving DecidableEq

/-- A collection of events of the store, in its order. -/
abbrev Events := List Event

/-- What an event processor sees of a connection. -/
structure EventContext where
  authedPubkey : Option PublicKey
  subdomain : Scope
  relayPubkey : PublicKey
  deriving DecidableEq

/-- A failure of a middleware: an error of the framework, or another one with its text. -/
inductive Failure where
  | error (error : Error)
  | other (text : String)
  deriving DecidableEq

/-- The coordinator of a connection. Its database, its signing task and its registry are asked by
name. -/
structure SubscriptionCoordinator where
  connectionId : ConnectionId
  outgoingSender : MessageSender
  maxLimit : ℕ
  deriving DecidableEq

/-- The questions that the relay asks. -/
inductive RelayCall where
  /-- `NostrLmdb::scoped`. -/
  | scopedView (scope : Scope)
  | saveEvent (event : Event) (scope : Scope)
  | delete (filter : Filter) (scope : Scope)
  | query (filter : Filter) (scope : Scope)
  /-- `Events::extend`: the collection with the events of an answer. -/
  | extend (all events : Events)
  | negentropyItems (filter : Filter) (scope : Scope)
  /-- Put an event into the queue of the replaceable events buffer. -/
  | queueReplaceable (event : UnsignedEvent) (scope : Scope)
  /-- Put an event into the queue of the signing task. -/
  | queueForSigning (event : UnsignedEvent) (scope : Scope)
  /-- Wait for what the signing task makes of an event. -/
  | awaitSigned (event : UnsignedEvent) (scope : Scope)
  | respond (tx : OneshotRef) (result : Except Error Unit)
  | trySend (channel : ChannelRef) (packet : Packet)
  | distributeEvent (event : Event) (scope : Scope)
  | addSubscription (id : ConnectionId) (sub : SubscriptionId) (filters : List Filter)
  | removeSubscription (id : ConnectionId) (sub : SubscriptionId)
  | handleEvent (event : Event) (context : EventContext)
  | verifyFilters (filters : List Filter) (context : EventContext)
  | canSeeEvent (event : Event) (context : EventContext)
  /-- `Event::verify`: the id and the signature. -/
  | verify (event : Event)
  /-- The challenge that is pending. -/
  | challenge
  /-- `get_challenge_event`: the pending challenge, or a new one. -/
  | getChallengeEvent
  | setAuthenticated (pubkey : PublicKey)
  /-- The authenticated key in the state of the connection. -/
  | authedPubkey
  /-- The latest event context of the connection. -/
  | eventContext
  /-- The coordinator of the connection, once it is set up. -/
  | subscriptionCoordinator
  | reserveQuotaSlot (sub : SubscriptionId)
  | releaseQuotaSlot (sub : SubscriptionId)
  | hexDecode (text : String)
  | hexEncode (bytes : List UInt8)
  /-- Insert an item into a new negentropy storage. -/
  | storageInsert (item : EventId × Timestamp)
  /-- Seal a new negentropy storage that holds the items. -/
  | storageSeal (items : List (EventId × Timestamp))
  /-- `Negentropy::owned` of a sealed storage. -/
  | negentropyOwned (items : List (EventId × Timestamp)) (frameLimit : ℕ)
  /-- Reconcile a new instance over the items with a message. -/
  | reconcile (items : List (EventId × Timestamp)) (message : List UInt8)
  | addNegentropySubscription (sub : SubscriptionId) (items : List (EventId × Timestamp))
  /-- Whether the connection has a negentropy subscription. -/
  | hasNegentropySubscription (sub : SubscriptionId)
  | reconcileSubscription (sub : SubscriptionId) (message : List UInt8)
  | removeNegentropySubscription (sub : SubscriptionId)
  /-- The text of a failure for debugging, with its backtrace if there is one. -/
  | debugText (failure : Failure)
  /-- The clock. -/
  | now

/-- The answers to a question. -/
abbrev RelayCall.Answer : RelayCall → Type
  | scopedView _ => Except String Unit
  | saveEvent _ _ => Except String SaveEventStatus
  | delete _ _ => Except String Unit
  | query _ _ => Except DatabaseError Events
  | extend _ _ => Events
  | negentropyItems _ _ => Except String (List (EventId × Timestamp))
  | queueReplaceable _ _ => Except String Unit
  | queueForSigning _ _ => Except String Unit
  | awaitSigned _ _ => Option (Except Error (Option StoreCommand))
  | respond _ _ => Unit
  | trySend _ _ => Except Channel.TrySendError Unit
  | distributeEvent _ _ => Unit
  | addSubscription _ _ _ => Except Error Unit
  | removeSubscription _ _ => Except Error Unit
  | handleEvent _ _ => Except Error (List StoreCommand)
  | verifyFilters _ _ => Except Error Unit
  | canSeeEvent _ _ => Except Error Bool
  | verify _ => Bool
  | challenge => Option String
  | getChallengeEvent => String
  | setAuthenticated _ => Unit
  | authedPubkey => Option PublicKey
  | eventContext => EventContext
  | subscriptionCoordinator => Option SubscriptionCoordinator
  | reserveQuotaSlot _ => Except Error Unit
  | releaseQuotaSlot _ => Bool
  | hexDecode _ => Except String (List UInt8)
  | hexEncode _ => String
  | storageInsert _ => Except String Unit
  | storageSeal _ => Except String Unit
  | negentropyOwned _ _ => Except String Unit
  | reconcile _ _ => Except String (List UInt8)
  | addNegentropySubscription _ _ => Unit
  | hasNegentropySubscription _ => Bool
  | reconcileSubscription _ _ => Except String (List UInt8)
  | removeNegentropySubscription _ => Bool
  | debugText _ => String
  | now => Timestamp

/-- A program of the relay. -/
abbrev Relay := Script RelayCall RelayCall.Answer

/-- What a program of the relay asked, and what it was answered. -/
abbrev RelayHistory := Script.History RelayCall.Answer

/-- One question with its answer. -/
abbrev Asked := (call : RelayCall) × call.Answer

/-- Services that work, over an empty store, to evaluate examples with. The signing task makes
notes. -/
def RelayCall.succeed : (call : RelayCall) → call.Answer
  | scopedView _ | delete _ _ | queueReplaceable _ _ | queueForSigning _ _ | trySend _ _
  | addSubscription _ _ _ | removeSubscription _ _ | verifyFilters _ _ | reserveQuotaSlot _
  | storageInsert _ | storageSeal _ | negentropyOwned _ _ => .ok ()
  | respond _ _ | distributeEvent _ _ | addNegentropySubscription _ _ => ()
  | saveEvent _ _ => .ok .success
  | query _ _ | negentropyItems _ _ => .ok []
  | extend all events => all ++ events
  | awaitSigned _ scope => some (.ok (some (.saveSignedEvent (Event.note 7) scope none)))
  | handleEvent event context => .ok [.saveSignedEvent event context.subdomain none]
  | canSeeEvent _ _ => .ok true
  | challenge => none
  | getChallengeEvent => "17"
  | setAuthenticated _ => ()
  | authedPubkey => none
  | eventContext => ⟨none, .default, 0⟩
  | subscriptionCoordinator => some ⟨"alice", ⟨0, 0⟩, 500⟩
  | hexDecode _ | reconcile _ _ | reconcileSubscription _ _ => .ok []
  | verify _ | releaseQuotaSlot _ | hasNegentropySubscription _
  | removeNegentropySubscription _ => true
  | hexEncode _ | debugText _ => ""
  | now => 0

@[simp] theorem isOk_ok {ε α : Type} {a : α} : (Except.ok a : Except ε α).isOk = true := rfl

@[simp] theorem isOk_error {ε α : Type} {e : ε} : (Except.error e : Except ε α).isOk = false := rfl

/-! ### Sending -/

/-- The text of an error of `MessageSender::send`. -/
def Channel.TrySendError.text : Channel.TrySendError → String
  | full => "Channel full - client too slow"
  | disconnected => "Channel disconnected"

namespace MessageSender

/-- Put a packet into the channel. -/
def put (sender : MessageSender) (packet : Packet) : Relay (Except String Unit) :=
  (Script.request (RelayCall.trySend sender.channel packet)).mapError Channel.TrySendError.text

/-- `MessageSender::send`. -/
def send (sender : MessageSender) (message : RelayMessage) : Relay (Except String Unit) :=
  sender.put (sender.packet message)

/-- `MessageSender::send_bypass`. -/
def sendBypass (sender : MessageSender) (message : RelayMessage) : Relay (Except String Unit) :=
  sender.put (sender.packetBypass message)

end MessageSender

end RelayBuilder
