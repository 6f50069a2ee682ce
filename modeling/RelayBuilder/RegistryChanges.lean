import RelayBuilder.RegistryHandles

/-!
# What the methods of the registry change

Every method is made of a few kinds of actions. If a relation between states admits these, then it
holds between the states before and after each action of a method, whatever the other tasks do
meanwhile.

## Main definitions

* `sender?`: what the packets for a connection id are sent through
* `Admits`: the relation admits the actions that the methods have in common

## Main results

* `Admits.addSubscription`, `Admits.removeSubscription`, `Admits.cleanupConnection` and
  `Admits.dropHandle`
-/

namespace RelayBuilder

open Interleave

namespace SubscriptionRegistry

/-! ### Senders -/

section

variable {s s' : SubscriptionRegistry} {id id' : ConnectionId}

/-- What the packets for a connection id are sent through. -/
def sender? (s : SubscriptionRegistry) (id : ConnectionId) : Option MessageSender :=
  (s.connection? id).map (·.sender)

/-- The registrations in the map are found under their own ids. -/
def Named (s : SubscriptionRegistry) : Prop :=
  ∀ id conn, s.connections.lookup id = some conn → conn.id = id

theorem Named.congr (h : Named s) (hconnections : s'.connections = s.connections) : Named s' := by
  rwa [Named, hconnections]

theorem sender?_congr (hconnections : s'.connections = s.connections) (hconns : s'.conns = s.conns)
    (id : ConnectionId) : s'.sender? id = s.sender? id := by
  rw [sender?, sender?, SubscriptionRegistry.connection?, SubscriptionRegistry.connection?,
    hconnections, hconns]

theorem sender?_updateConn (conn : ConnRef)
    {f : ConnectionSubscriptions → ConnectionSubscriptions}
    (hf : ∀ data, (f data).sender = data.sender) (id : ConnectionId) :
    (s.updateConn conn f).sender? id = s.sender? id := by
  simp only [sender?, SubscriptionRegistry.connection?, SubscriptionRegistry.updateConn]
  cases s.connections.lookup id with
  | none => rfl
  | some conn' =>
    rw [Option.bind_some, Option.bind_some]
    split
    · next heq =>
      rw [heq, Option.map_map]
      exact congrArg (fun g => Option.map g (s.conns conn)) (funext hf)
    · rfl

theorem Named.erase (h : Named s) (id : ConnectionId) :
    Named { s with connections := s.connections.erase id } := by
  intro id' conn hconn
  by_cases hid : id' = id
  · subst hid
    rw [AList.lookup_erase] at hconn
    cases hconn
  · rw [AList.lookup_erase_ne hid] at hconn
    exact h id' conn hconn

theorem sender?_erase (s : SubscriptionRegistry) (id id' : ConnectionId) :
    sender? { s with connections := s.connections.erase id } id' =
      if id' = id then none else s.sender? id' := by
  simp only [sender?, SubscriptionRegistry.connection?]
  by_cases hid : id' = id
  · subst hid
    rw [AList.lookup_erase, if_pos rfl]
    rfl
  · rw [AList.lookup_erase_ne hid, if_neg hid]

theorem Named.register (h : Named s) (id : ConnectionId) (sender : MessageSender)
    (auth : Option PublicKey) (subdomain : Scope) :
    Named (register id sender auth subdomain s).2 := by
  intro id' conn hconn
  by_cases hid : id' = id
  · subst hid
    rw [SubscriptionRegistry.register, AList.lookup_insert, Option.some.injEq] at hconn
    rw [← hconn]
  · rw [SubscriptionRegistry.register, AList.lookup_insert_ne hid] at hconn
    exact h id' conn hconn

theorem sender?_register (h : Named s) (id : ConnectionId) (sender : MessageSender)
    (auth : Option PublicKey) (subdomain : Scope) (id' : ConnectionId) :
    (register id sender auth subdomain s).2.sender? id' =
      if id' = id then some sender else s.sender? id' := by
  simp only [sender?, SubscriptionRegistry.connection?, SubscriptionRegistry.register]
  by_cases hid : id' = id
  · subst hid
    rw [AList.lookup_insert, Option.bind_some, if_pos rfl, if_pos rfl]
    rfl
  · rw [AList.lookup_insert_ne hid, if_neg hid]
    cases hconn : s.connections.lookup id' with
    | none => rfl
    | some conn =>
      rw [Option.bind_some, Option.bind_some, if_neg]
      rintro rfl
      exact hid (h id' _ hconn).symm

end

/-! ### Methods -/

/-- A change of neither the connections nor the indexes nor the channels. -/
structure SameParts (s s' : SubscriptionRegistry) : Prop extends SameConnections s s' where
  indexes : s'.indexes = s.indexes
  channels : s'.channels = s.channels

/-- Actions that are admitted: those that change nothing but the metrics, those that change the
subscriptions of a connection or its lock, and the creation of an index. -/
structure Admits (G : SubscriptionRegistry → SubscriptionRegistry → Prop) : Prop where
  same : ∀ s s', SameParts s s' → G s s'
  updateConn : ∀ s conn f, (∀ data : ConnectionSubscriptions, (f data).sender = data.sender) →
    G s (s.updateConn conn f)
  create : ∀ s scope, G s (s.setIndex scope (s.indexOf scope))

namespace Admits

variable {G : SubscriptionRegistry → SubscriptionRegistry → Prop} {α : Type} {id : ConnectionId}
  {sub : SubscriptionId} {order : HashOrder}

theorem read (h : Admits G) {l : RegistryLock} {ready : SubscriptionRegistry → Bool}
    {f : SubscriptionRegistry → α} : Acts G (Prog.await l ready fun s => (f s, s)) :=
  acts_await fun s => ⟨rfl, h.same s s ⟨.refl s, rfl, rfl⟩⟩

theorem incrementActiveSubscriptions (h : Admits G) :
    Acts G SubscriptionRegistry.incrementActiveSubscriptions :=
  acts_atomic fun s => ⟨rfl, h.same s _ ⟨⟨rfl, rfl, rfl⟩, rfl, rfl⟩⟩

theorem decrementActiveSubscriptions (h : Admits G) (count : ℕ) :
    Acts G (SubscriptionRegistry.decrementActiveSubscriptions count) :=
  acts_atomic fun s => ⟨rfl, h.same s _ ⟨⟨rfl, rfl, rfl⟩, rfl, rfl⟩⟩

theorem release (h : Admits G) (conn : ConnRef) : Acts G (SubscriptionRegistry.release conn) :=
  acts_atomic fun s => ⟨rfl, h.updateConn s conn _ fun _ => rfl⟩

/-- `add_subscription`, from what the addition to an index does. -/
theorem addSubscription (h : Admits G) (filters : List Filter)
    (hindex : ∀ scope,
      Acts G (onIndex scope (SubscriptionIndex.addSubscription (id, sub) filters))) :
    Acts G (SubscriptionRegistry.addSubscription id sub filters) := by
  refine h.read.bind fun connection => ?_
  cases connection with
  | none => exact acts_done _
  | some conn =>
    have hinsert : Acts G (Prog.await (.subscriptions conn .insert) (unlocked conn)
        (insertSubscription conn sub filters)) :=
      acts_await fun s => ⟨rfl, h.updateConn s conn _ fun _ => rfl⟩
    refine hinsert.bind fun inserted => ?_
    match inserted with
    | none => exact acts_done _
    | some (isNew, scope) =>
      have hcreate : Acts G (Prog.atomic RegistryLock.indexes
          fun s : SubscriptionRegistry => (PUnit.unit, s.setIndex scope (s.indexOf scope))) :=
        Triple.atomic (stable_const True) (fun _ => stable_const True) fun s hwf _ =>
          ⟨IndexesWellFormed.setIndex hwf (hwf scope), h.create s scope, trivial⟩
      refine hcreate.bind fun _ => (hindex scope).bind fun _ => ?_
      have hrelease : Acts G ((SubscriptionRegistry.release conn).bind fun _ =>
          Prog.done (Except.ok PUnit.unit : Except Error PUnit)) :=
        (h.release conn).bind fun _ => acts_done _
      cases isNew with
      | true => exact h.incrementActiveSubscriptions.bind fun _ => hrelease
      | false => exact hrelease

theorem removeFromIndex (h : Admits G) {scope : Scope} {keys : List Key}
    (hindex : ∀ κ ∈ keys, Acts G (onIndex scope (SubscriptionIndex.removeSubscription order κ))) :
    Acts G (SubscriptionRegistry.removeFromIndex order scope keys) := by
  refine h.read.bind fun exists_ => ?_
  cases exists_ with
  | false => exact acts_done _
  | true =>
    simp only [↓reduceIte]
    induction keys with
    | nil => exact acts_done _
    | cons κ keys ih =>
      obtain ⟨hκ, hkeys⟩ := List.forall_mem_cons.mp hindex
      exact hκ.bind fun _ => ih hkeys

/-- `remove_subscription`, from what the removal from an index does. -/
theorem removeSubscription (h : Admits G)
    (hindex : ∀ scope, Acts G (onIndex scope
      (SubscriptionIndex.removeSubscription order (id, sub)))) :
    Acts G (SubscriptionRegistry.removeSubscription order id sub) := by
  refine h.read.bind fun connection => ?_
  cases connection with
  | none => exact acts_done _
  | some conn =>
    have htake : Acts G (Prog.await (.subscriptions conn (.remove sub)) (unlocked conn)
        (takeSubscription conn sub)) := by
      refine acts_await fun s => ⟨rfl, h.updateConn s conn _ fun data => ?_⟩
      split <;> rfl
    refine htake.bind fun removed => ?_
    match removed with
    | none => exact acts_done _
    | some (false, scope) => exact acts_done _
    | some (true, scope) =>
      refine (h.removeFromIndex fun κ hκ => ?_).bind fun _ =>
        (h.decrementActiveSubscriptions 1).bind fun _ => (h.release conn).bind fun _ => acts_done _
      rw [List.mem_singleton.mp hκ]
      exact hindex scope

/-- `cleanup_connection`, from what it does to the map of connections and to an index. -/
theorem cleanupConnection (h : Admits G)
    (herase : ∀ s : SubscriptionRegistry, G s { s with connections := s.connections.erase id })
    (hindex : ∀ scope sub, Acts G (onIndex scope
      (SubscriptionIndex.removeSubscription order (id, sub)))) :
    Acts G (SubscriptionRegistry.cleanupConnection order id) := by
  have hfinish (info : Option (List SubscriptionId × Scope)) :
      Acts G (finishCleanup order id info) := by
    refine Acts.bind (acts_atomic fun s => ⟨rfl, herase s⟩) fun _ => ?_
    match info with
    | none => exact acts_done _
    | some (ids, scope) =>
      refine (h.removeFromIndex fun κ hκ => ?_).bind fun _ => ?_
      · obtain ⟨sub, -, rfl⟩ := List.mem_map.mp hκ
        exact hindex scope sub
      · split
        · exact h.decrementActiveSubscriptions _
        · exact acts_done _
  refine h.read.bind fun connection => ?_
  cases connection with
  | none => exact hfinish none
  | some conn => exact h.read.bind fun info => hfinish info

theorem dropHandle (h : Admits G) {handle : ConnectionHandle}
    (hcleanup : Acts G (SubscriptionRegistry.cleanupConnection order handle.id)) :
    Acts G (SubscriptionRegistry.dropHandle order handle) := by
  refine h.read.bind fun registered => ?_
  cases registered with
  | true => exact hcleanup
  | false => exact acts_done _

end Admits

end SubscriptionRegistry

end RelayBuilder
