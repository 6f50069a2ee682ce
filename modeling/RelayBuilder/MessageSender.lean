import RelayBuilder.Nostr

/-!
# Messages to a client

The bounded channel behind a connection, and the `MessageSender` that the other components put
messages into it with. A channel is kept as the list of everything that was ever put into it, and
how much of that the client has taken out, so what was sent does not get lost from sight.
-/

namespace RelayBuilder

/-- The errors of the framework, without their backtraces. -/
inductive Error where
  | internal (message : String)
  | database (message : String)
  | notice (message : String)
  | webSocket (message : String)
  | protocol (message : String)
  | authRequired (message : String)
  | restricted (message : String)
  | duplicate (message : String)
  | eventError (message : String) (eventId : EventId)
  | subscriptionError (message : String) (subscriptionId : SubscriptionId)
  deriving DecidableEq

/-- The text of an error, as it is shown to a client. -/
def Error.display : Error → String
  | internal message => "Internal error: " ++ message
  | database message => "Database error: " ++ message
  | notice message => "Notice: " ++ message
  | webSocket message => "WebSocket error: " ++ message
  | protocol message => "Protocol error: " ++ message
  | authRequired message => "Auth required: " ++ message
  | restricted message => "Restricted: " ++ message
  | duplicate message => "Duplicate: " ++ message
  | eventError message _ => "Event error: " ++ message
  | subscriptionError message _ => "Subscription error: " ++ message

/-- The messages of a relay to a client. -/
inductive RelayMessage where
  | event (subscriptionId : SubscriptionId) (event : Event)
  | endOfStoredEvents (subscriptionId : SubscriptionId)
  | ok (eventId : EventId) (status : Bool) (message : String)
  | notice (message : String)
  | closed (subscriptionId : SubscriptionId) (message : String)
  | auth (challenge : String)
  | count (subscriptionId : SubscriptionId) (count : ℕ)
  | negMsg (subscriptionId : SubscriptionId) (message : String)
  | negErr (subscriptionId : SubscriptionId) (message : String)
  deriving DecidableEq

/-- What travels through a channel: a message, the position of the middleware it comes from, and
its text if that is known already. -/
structure Packet where
  message : RelayMessage
  position : ℕ
  json : Option String
  deriving DecidableEq

/-- A bounded channel. -/
structure Channel where
  capacity : ℕ
  sent : List Packet
  received : ℕ
  connected : Bool
  deriving DecidableEq

namespace Channel

/-- Nothing was sent. -/
def new (capacity : ℕ) : Channel := ⟨capacity, [], 0, true⟩

/-- `flume::TrySendError`. -/
inductive TrySendError where
  | full
  | disconnected
  deriving DecidableEq

/-- There is room for another packet, and somebody to take it. -/
def HasRoom (ch : Channel) : Prop :=
  ch.connected = true ∧ ch.sent.length - ch.received < ch.capacity

instance (ch : Channel) : Decidable ch.HasRoom := inferInstanceAs (Decidable (_ ∧ _))

/-- `flume::Sender::try_send`. -/
def trySend (ch : Channel) (packet : Packet) : Except TrySendError Channel :=
  if ch.connected = false then .error .disconnected
  else if ch.sent.length - ch.received < ch.capacity then
    .ok { ch with sent := ch.sent ++ [packet] }
  else .error .full

/-- The client takes the next packet, if there is one. -/
def receive (ch : Channel) : Channel :=
  if ch.received < ch.sent.length then { ch with received := ch.received + 1 } else ch

/-- The client is gone. -/
def disconnect (ch : Channel) : Channel := { ch with connected := false }

theorem trySend_ok {ch ch' : Channel} {packet : Packet} (h : ch.trySend packet = .ok ch') :
    ch.HasRoom ∧ ch' = { ch with sent := ch.sent ++ [packet] } := by
  rw [trySend] at h
  split at h
  · cases h
  · split at h
    · rename_i hconnected hroom
      cases h
      exact ⟨⟨by simpa using hconnected, hroom⟩, rfl⟩
    · cases h

theorem trySend_of_hasRoom {ch : Channel} (h : ch.HasRoom) (packet : Packet) :
    ch.trySend packet = .ok { ch with sent := ch.sent ++ [packet] } := by
  rw [trySend, if_neg (by simp [h.1]), if_pos h.2]

end Channel

abbrev ChannelRef := ℕ

/-- `MessageSender`: the sending end of a channel, held by the middleware at a position. -/
structure MessageSender where
  channel : ChannelRef
  position : ℕ
  deriving DecidableEq

namespace MessageSender

/-- What `send` puts into the channel. -/
def packet (sender : MessageSender) (message : RelayMessage) : Packet :=
  ⟨message, sender.position, none⟩

/-- What `send_with_json` puts into the channel. -/
def packetWithJson (sender : MessageSender) (message : RelayMessage) (json : String) : Packet :=
  ⟨message, sender.position, some json⟩

/-- What `send_bypass` puts into the channel: the message skips the sender's own middleware. -/
def packetBypass (sender : MessageSender) (message : RelayMessage) : Packet :=
  ⟨message, if sender.position > 0 then sender.position - 1 else 0, none⟩

end MessageSender

end RelayBuilder
