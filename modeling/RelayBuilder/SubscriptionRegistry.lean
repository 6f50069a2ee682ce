import RelayBuilder.MessageSender
import RelayBuilder.SubscriptionIndex

/-!
# The subscription registry

The registry of `subscription_registry.rs`. It keeps the subscriptions of each connection in a
map behind an asynchronous lock, and the filters of all connections of a scope in the index of
that scope. A task that has looked a connection up holds an `Arc` to its subscriptions, which stay
on the heap when the connection is removed from the map.

A method is a `Prog` with one action for each access to a map or to the metrics and each time the
lock is taken or released. What happens inside an index is a program of that index, zoomed.

## Main definitions

* `SubscriptionRegistry`, and `SubscriptionRegistry.new`
* `registerConnection`, `addSubscription`, `removeSubscription`, `cleanupConnection`,
  `distributeEventIndexed` and `ConnectionHandle.drop`
-/

namespace RelayBuilder

open Interleave

/-- An `Arc` to the subscriptions of a connection: the id it was registered under, and the number
of the registration. -/
structure ConnRef where
  id : ConnectionId
  number : ℕ
  deriving DecidableEq

/-- The subscriptions of a connection. `locked` says that the write lock is held. -/
structure ConnectionSubscriptions where
  subscriptions : AList fun _ : SubscriptionId => List Filter
  locked : Bool
  sender : MessageSender
  authPubkey : Option PublicKey
  subdomain : Scope
  deriving DecidableEq

/-- What the metrics handler was told: how many subscriptions were added and removed. -/
structure SubscriptionMetrics where
  increments : ℕ
  decrements : ℕ
  deriving DecidableEq

/-- What `register_connection` returns. The source keeps only the id; `registration` names the
registration the handle was returned for, and no program reads it. -/
structure ConnectionHandle where
  id : ConnectionId
  registration : ConnRef
  deriving DecidableEq

/-- The state of the registry, the heap of the registrations so far, and the channels. An index is
never removed from its map, so its scope names it. -/
structure SubscriptionRegistry where
  connections : AList fun _ : ConnectionId => ConnRef
  indexes : AList fun _ : Scope => SubscriptionIndex
  metricsHandler : Option SubscriptionMetrics
  conns : ConnRef → Option ConnectionSubscriptions
  registered : ℕ
  channels : ChannelRef → Channel

/-- What a task takes the lock of a connection's subscriptions for. -/
inductive LockUse where
  | insert
  | remove (sub : SubscriptionId)
  | list
  deriving DecidableEq

/-- What a task accesses in one action. -/
inductive RegistryLock where
  | connections
  | insertConnection (id : ConnectionId)
  | removeConnection (id : ConnectionId)
  | subscriptions (conn : ConnRef) (use : LockUse)
  | release (conn : ConnRef)
  | indexes
  | index (scope : Scope) (lock : IndexLock)
  | metrics
  | deliver (id : ConnectionId)
  | channel (ch : ChannelRef)
  deriving DecidableEq

/-- What the registry takes from its libraries. -/
structure Sdk where
  matchEvent : Filter → Event → Bool
  asJson : Event → String
  order : HashOrder

namespace SubscriptionRegistry

def new (metricsHandler : Option SubscriptionMetrics) (channels : ChannelRef → Channel) :
    SubscriptionRegistry where
  connections := ∅
  indexes := ∅
  metricsHandler := metricsHandler
  conns := fun _ => none
  registered := 0
  channels := channels

/-! ### Components of the state -/

/-- The index of a scope, empty before it is created. -/
def indexOf (s : SubscriptionRegistry) (scope : Scope) : SubscriptionIndex :=
  (s.indexes.lookup scope).getD SubscriptionIndex.new

def setIndex (s : SubscriptionRegistry) (scope : Scope) (index : SubscriptionIndex) :
    SubscriptionRegistry :=
  { s with indexes := s.indexes.insert scope index }

/-- The current registration of an id. -/
def connection? (s : SubscriptionRegistry) (id : ConnectionId) : Option ConnectionSubscriptions :=
  (s.connections.lookup id).bind s.conns

/-- Change what is behind an `Arc`. -/
def updateConn (s : SubscriptionRegistry) (conn : ConnRef)
    (f : ConnectionSubscriptions → ConnectionSubscriptions) : SubscriptionRegistry :=
  { s with conns := fun conn' => if conn' = conn then (s.conns conn').map f else s.conns conn' }

def setChannel (s : SubscriptionRegistry) (ref : ChannelRef) (ch : Channel) :
    SubscriptionRegistry :=
  { s with channels := fun ref' => if ref' = ref then ch else s.channels ref' }

/-- A program of the index of a scope. -/
def onIndex {α : Type} (scope : Scope) (p : Prog IndexLock SubscriptionIndex α) :
    Prog RegistryLock SubscriptionRegistry α :=
  p.zoom (.index scope) (·.indexOf scope) fun index s => s.setIndex scope index

/-- The write lock of the subscriptions is free. -/
def unlocked (conn : ConnRef) (s : SubscriptionRegistry) : Bool :=
  (s.conns conn).all (!·.locked)

/-! ### Metrics -/

/-- `increment_active_subscriptions`, if there is a handler. -/
def incrementActiveSubscriptions : Prog RegistryLock SubscriptionRegistry PUnit :=
  .atomic .metrics fun s => (⟨⟩, { s with
    metricsHandler := s.metricsHandler.map fun m => { m with increments := m.increments + 1 } })

/-- `decrement_active_subscriptions`, if there is a handler. -/
def decrementActiveSubscriptions (count : ℕ) : Prog RegistryLock SubscriptionRegistry PUnit :=
  .atomic .metrics fun s => (⟨⟩, { s with
    metricsHandler := s.metricsHandler.map fun m => { m with decrements := m.decrements + count } })

/-! ### Connections and subscriptions -/

/-- Put a new registration under an id, in the place of an earlier one. -/
def register (connectionId : ConnectionId) (sender : MessageSender)
    (authPubkey : Option PublicKey) (subdomain : Scope) (s : SubscriptionRegistry) :
    ConnectionHandle × SubscriptionRegistry :=
  let conn : ConnRef := ⟨connectionId, s.registered⟩
  (⟨connectionId, conn⟩,
    { s with
      connections := s.connections.insert connectionId conn
      conns := fun conn' =>
        if conn' = conn then some ⟨∅, false, sender, authPubkey, subdomain⟩ else s.conns conn'
      registered := s.registered + 1 })

/-- `register_connection`. -/
def registerConnection (connectionId : ConnectionId) (sender : MessageSender)
    (authPubkey : Option PublicKey) (subdomain : Scope) :
    Prog RegistryLock SubscriptionRegistry ConnectionHandle :=
  .atomic (.insertConnection connectionId) (register connectionId sender authPubkey subdomain)

/-- Take the write lock, insert the filters and keep the lock. Returns whether the subscription is
new, and the scope of the connection. -/
def insertSubscription (conn : ConnRef) (subscriptionId : SubscriptionId) (filters : List Filter)
    (s : SubscriptionRegistry) : Option (Bool × Scope) × SubscriptionRegistry :=
  ((s.conns conn).map fun data =>
      ((data.subscriptions.lookup subscriptionId).isNone, data.subdomain),
    s.updateConn conn fun data =>
      { data with subscriptions := data.subscriptions.insert subscriptionId filters, locked := true })

def release (conn : ConnRef) : Prog RegistryLock SubscriptionRegistry PUnit :=
  .atomic (.release conn) fun s => (⟨⟩, s.updateConn conn fun data => { data with locked := false })

/-- `add_subscription`. The lock is held to the end. -/
def addSubscription (connectionId : ConnectionId) (subscriptionId : SubscriptionId)
    (filters : List Filter) : Prog RegistryLock SubscriptionRegistry (Except Error PUnit) := do
  let connection ← .atomic .connections fun s => (s.connections.lookup connectionId, s)
  match connection with
  | none => pure (.error (.internal "Connection not found"))
  | some conn => do
    let inserted ← .await (.subscriptions conn .insert) (unlocked conn)
      (insertSubscription conn subscriptionId filters)
    match inserted with
    | none => pure (.ok ⟨⟩)
    | some (isNew, scope) => do
      .atomic .indexes fun s => (PUnit.unit, s.setIndex scope (s.indexOf scope))
      onIndex scope (SubscriptionIndex.addSubscription (connectionId, subscriptionId) filters)
      if isNew then incrementActiveSubscriptions else pure ⟨⟩
      release conn
      pure (.ok ⟨⟩)

/-- Take the write lock and remove the subscription. The lock is kept if there was one, and
released at once if not. Returns whether there was one, and the scope of the connection. -/
def takeSubscription (conn : ConnRef) (subscriptionId : SubscriptionId) (s : SubscriptionRegistry) :
    Option (Bool × Scope) × SubscriptionRegistry :=
  ((s.conns conn).map fun data =>
      ((data.subscriptions.lookup subscriptionId).isSome, data.subdomain),
    s.updateConn conn fun data =>
      if (data.subscriptions.lookup subscriptionId).isSome then
        { data with subscriptions := data.subscriptions.erase subscriptionId, locked := true }
      else data)

/-- Remove a subscription from the index of a scope, if there is one. -/
def removeFromIndex (order : HashOrder) (scope : Scope) (keys : List Key) :
    Prog RegistryLock SubscriptionRegistry PUnit := do
  let exists_ ← .atomic .indexes fun s => ((s.indexes.lookup scope).isSome, s)
  if exists_ then keys.forM fun κ => onIndex scope (SubscriptionIndex.removeSubscription order κ)
  else pure ⟨⟩

/-- `remove_subscription`. -/
def removeSubscription (order : HashOrder) (connectionId : ConnectionId)
    (subscriptionId : SubscriptionId) :
    Prog RegistryLock SubscriptionRegistry (Except Error PUnit) := do
  let connection ← .atomic .connections fun s => (s.connections.lookup connectionId, s)
  match connection with
  | none => pure (.error (.internal "Connection not found"))
  | some conn => do
    let removed ← .await (.subscriptions conn (.remove subscriptionId)) (unlocked conn)
      (takeSubscription conn subscriptionId)
    match removed with
    | some (true, scope) => do
      removeFromIndex order scope [(connectionId, subscriptionId)]
      decrementActiveSubscriptions 1
      release conn
      pure (.ok ⟨⟩)
    | _ => pure (.ok ⟨⟩)

/-- The ids of a connection's subscriptions and its scope, read under the read lock. -/
def cleanupInfo (order : HashOrder) (conn : ConnRef) (s : SubscriptionRegistry) :
    Option (List SubscriptionId × Scope) :=
  (s.conns conn).map fun data => (order.iter data.subscriptions.keys, data.subdomain)

/-- The rest of `cleanup_connection`, when the connection was looked at. -/
def finishCleanup (order : HashOrder) (connectionId : ConnectionId)
    (info : Option (List SubscriptionId × Scope)) :
    Prog RegistryLock SubscriptionRegistry PUnit := do
  .atomic (.removeConnection connectionId) fun s =>
    (PUnit.unit, { s with connections := s.connections.erase connectionId })
  match info with
  | none => pure ⟨⟩
  | some (ids, scope) => do
    removeFromIndex order scope (ids.map fun id => (connectionId, id))
    if ids.length > 0 then decrementActiveSubscriptions ids.length else pure ⟨⟩

/-- `cleanup_connection`. -/
def cleanupConnection (order : HashOrder) (connectionId : ConnectionId) :
    Prog RegistryLock SubscriptionRegistry PUnit := do
  let connection ← .atomic .connections fun s => (s.connections.lookup connectionId, s)
  match connection with
  | none => finishCleanup order connectionId none
  | some conn => do
    let info ← .await (.subscriptions conn .list) (unlocked conn) fun s =>
      (cleanupInfo order conn s, s)
    finishCleanup order connectionId info

/-- `ConnectionHandle::drop`, and the task it spawns if the id is still registered. -/
def dropHandle (order : HashOrder) (handle : ConnectionHandle) :
    Prog RegistryLock SubscriptionRegistry PUnit := do
  let registered ← .atomic .connections fun s => ((s.connections.lookup handle.id).isSome, s)
  if registered then cleanupConnection order handle.id else pure ⟨⟩

/-! ### Distributing an event -/

/-- The text of an EVENT message around the text of the event. -/
def eventJson (subscriptionId : SubscriptionId) (json : String) : String :=
  "[\"EVENT\",\"" ++ subscriptionId ++ "\"," ++ json ++ "]"

/-- Look the connection of a match up and send the event to it. Returns whether the connection is
dead. The text of the event is known whenever there is a match, so `send_with_json` is used. -/
def deliver (sdk : Sdk) (event : Event) (κ : Key) (s : SubscriptionRegistry) :
    Bool × SubscriptionRegistry :=
  match s.connection? κ.1 with
  | none => (false, s)
  | some data =>
    match (s.channels data.sender.channel).trySend (data.sender.packetWithJson
      (.event κ.2 event) (eventJson κ.2 (sdk.asJson event))) with
    | .ok ch => (false, s.setChannel data.sender.channel ch)
    | .error _ => (true, s)

/-- Send the event to the matching subscriptions. Returns the dead connections. -/
def deliverAll (sdk : Sdk) (event : Event) (matching : List Key) :
    Prog RegistryLock SubscriptionRegistry (List ConnectionId) :=
  matching.foldlM (fun dead κ => do
    let isDead ← .atomic (.deliver κ.1) (deliver sdk event κ)
    pure (if isDead then dead ++ [κ.1] else dead)) []

/-- `distribute_event_indexed`. The scope of the connection is only asserted in debug builds. -/
def distributeEventIndexed (sdk : Sdk) (event : Event) (scope : Scope) :
    Prog RegistryLock SubscriptionRegistry PUnit := do
  let exists_ ← .atomic .indexes fun s => ((s.indexes.lookup scope).isSome, s)
  if exists_ then do
    let matching ← onIndex scope (SubscriptionIndex.distributeEvent sdk.matchEvent event)
    let dead ← deliverAll sdk event matching
    dead.forM (cleanupConnection sdk.order)
  else pure ⟨⟩

end SubscriptionRegistry

/-- The methods of the registry, and what a client does at the other end of its channel. -/
inductive RegistryOp where
  | registerConnection (id : ConnectionId) (sender : MessageSender) (auth : Option PublicKey)
    (subdomain : Scope)
  | addSubscription (id : ConnectionId) (sub : SubscriptionId) (filters : List Filter)
  | removeSubscription (id : ConnectionId) (sub : SubscriptionId)
  | cleanupConnection (id : ConnectionId)
  | dropHandle (handle : ConnectionHandle)
  | distributeEvent (event : Event) (scope : Scope)
  | receive (ch : ChannelRef)
  | disconnect (ch : ChannelRef)

/-- What a method returns: an error, or the handle of a registration. -/
abbrev RegistryResult := Except Error (Option ConnectionHandle)

/-- The program of a method. -/
def RegistryOp.code (sdk : Sdk) : RegistryOp → Prog RegistryLock SubscriptionRegistry RegistryResult
  | .registerConnection id sender auth subdomain => do
    let handle ← SubscriptionRegistry.registerConnection id sender auth subdomain
    pure (.ok (some handle))
  | .addSubscription id sub filters => do
    let result ← SubscriptionRegistry.addSubscription id sub filters
    pure (result.map fun _ => none)
  | .removeSubscription id sub => do
    let result ← SubscriptionRegistry.removeSubscription sdk.order id sub
    pure (result.map fun _ => none)
  | .cleanupConnection id => do
    SubscriptionRegistry.cleanupConnection sdk.order id
    pure (.ok none)
  | .dropHandle handle => do
    SubscriptionRegistry.dropHandle sdk.order handle
    pure (.ok none)
  | .distributeEvent event scope => do
    SubscriptionRegistry.distributeEventIndexed sdk event scope
    pure (.ok none)
  | .receive ch => .atomic (.channel ch) fun s =>
    (.ok none, s.setChannel ch (s.channels ch).receive)
  | .disconnect ch => .atomic (.channel ch) fun s =>
    (.ok none, s.setChannel ch (s.channels ch).disconnect)

end RelayBuilder
