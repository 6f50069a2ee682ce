import RelayBuilder.Interleave.Succession
import RelayBuilder.RegistryMethods
import RelayBuilder.RelayPool

/-!
# The registry and its channels

A channel is kept as the list of all that was ever put into it. Nothing that the relay does takes
anything out of this list, so what was sent to a connection is still there at the end of a run. Most
programs of the registry do not even add to it, and those that add or remove a subscription do not
look at the channels either.

## Main definitions

* `SentGrows`, `OnlySends`

## Main results

* `every_code`: whatever a script asks, the channels keep what they have
* `respects_addSubscription`, `respects_removeSubscription`
-/

namespace RelayBuilder

open Interleave Script

namespace SubscriptionRegistry

variable {s s' : SubscriptionRegistry} {sdk : Sdk}

/-- Whatever was put into a channel stays there. -/
def SentGrows (s s' : SubscriptionRegistry) : Prop :=
  ∀ ch, (s.channels ch).sent <+: (s'.channels ch).sent

theorem SentGrows.refl (s : SubscriptionRegistry) : SentGrows s s := fun _ => List.prefix_rfl

theorem SentGrows.trans {a b c : SubscriptionRegistry} (h : SentGrows a b) (h' : SentGrows b c) :
    SentGrows a c := fun ch => (h ch).trans (h' ch)

theorem sentGrows_of_same (h : SameChannels s s') : SentGrows s s' := fun ch => by
  rw [congrFun h ch]

theorem sentGrows_put (s : SubscriptionRegistry) (ch : ChannelRef) (packet : Packet) :
    SentGrows s (s.setChannel ch
      { s.channels ch with sent := (s.channels ch).sent ++ [packet] }) := by
  intro ch'
  rw [setChannel]
  dsimp only
  split
  · next h =>
    rw [h]
    exact List.prefix_append _ _
  · exact List.prefix_rfl

theorem sentGrows_deliver (event : Event) (κ : Key) (s : SubscriptionRegistry) :
    SentGrows s (deliver sdk event κ s).2 := by
  rw [deliver]
  split
  · exact .refl s
  · split
    · next ch hch =>
      obtain ⟨-, rfl⟩ := Channel.trySend_ok hch
      exact sentGrows_put s _ _
    · exact .refl s

theorem sentGrows_trySendTo (ch : ChannelRef) (packet : Packet) (s : SubscriptionRegistry) :
    SentGrows s (trySendTo ch packet s).2 := by
  rw [trySendTo]
  split
  · next ch' hch =>
    obtain ⟨-, rfl⟩ := Channel.trySend_ok hch
    exact sentGrows_put s _ _
  · exact .refl s

/-! ### Programs that leave the channels alone -/

theorem every_onIndex {α : Type} (scope : Scope) (p : Prog IndexLock SubscriptionIndex α) :
    (onIndex scope p).Every SameChannels :=
  Prog.every_zoom (T := SameChannels) (RegistryLock.index scope) (indexOf · scope)
    (fun index s => s.setIndex scope index) (fun _ _ => rfl) p

theorem every_release (conn : ConnRef) : (release conn).Every SameChannels :=
  Prog.every_atomic _ fun _ => rfl

theorem every_addSubscription (id : ConnectionId) (sub : SubscriptionId) (filters : List Filter) :
    (addSubscription id sub filters).Every SameChannels := by
  refine Prog.Every.bind (Prog.every_atomic _ fun _ => rfl) fun connection => ?_
  cases connection with
  | none => exact Prog.every_done _
  | some conn =>
    refine Prog.Every.bind (fun _ => ⟨rfl, trivial⟩) fun inserted => ?_
    cases inserted with
    | none => exact Prog.every_done _
    | some p =>
      obtain ⟨isNew, scope⟩ := p
      have hrest : ((release conn).bind fun _ => Prog.done (Except.ok PUnit.unit) :
          Prog RegistryLock SubscriptionRegistry (Except Error PUnit)).Every SameChannels :=
        (every_release conn).bind fun _ => Prog.every_done _
      refine Prog.Every.bind (Prog.every_atomic _ fun _ => rfl) fun _ =>
        (every_onIndex scope _).bind fun _ => ?_
      cases isNew with
      | true => exact Prog.Every.bind (Prog.every_atomic _ fun _ => rfl) fun _ => hrest
      | false => exact hrest

theorem every_removeFromIndex (order : HashOrder) (scope : Scope) (keys : List Key) :
    (removeFromIndex order scope keys).Every SameChannels := by
  refine Prog.Every.bind (Prog.every_atomic _ fun _ => rfl) fun exists_ => ?_
  cases exists_ with
  | true => exact Prog.Every.forM (fun κ => every_onIndex scope _) keys
  | false => exact Prog.every_done _

theorem every_removeSubscription (order : HashOrder) (id : ConnectionId) (sub : SubscriptionId) :
    (removeSubscription order id sub).Every SameChannels := by
  refine Prog.Every.bind (Prog.every_atomic _ fun _ => rfl) fun connection => ?_
  cases connection with
  | none => exact Prog.every_done _
  | some conn =>
    refine Prog.Every.bind (fun _ => ⟨rfl, trivial⟩) fun removed => ?_
    cases removed with
    | none => exact Prog.every_done _
    | some p =>
      obtain ⟨isSome, scope⟩ := p
      cases isSome with
      | false => exact Prog.every_done _
      | true =>
        exact (every_removeFromIndex order scope _).bind fun _ =>
          Prog.Every.bind (Prog.every_atomic _ fun _ => rfl) fun _ =>
            (every_release conn).bind fun _ => Prog.every_done _

theorem every_cleanupConnection (order : HashOrder) (id : ConnectionId) :
    (cleanupConnection order id).Every SameChannels := by
  have hfinish (info : Option (List SubscriptionId × Scope)) :
      (finishCleanup order id info).Every SameChannels := by
    refine Prog.Every.bind (Prog.every_atomic _ fun _ => rfl) fun _ => ?_
    cases info with
    | none => exact Prog.every_done _
    | some p =>
      obtain ⟨ids, scope⟩ := p
      refine (every_removeFromIndex order scope _).bind fun _ => ?_
      split
      · exact Prog.every_atomic _ fun _ => rfl
      · exact Prog.every_done _
  refine Prog.Every.bind (Prog.every_atomic _ fun _ => rfl) fun connection => ?_
  cases connection with
  | none => exact hfinish none
  | some conn => exact Prog.Every.bind (fun _ => ⟨rfl, trivial⟩) hfinish

theorem every_distributeEventIndexed (event : Event) (scope : Scope) :
    (distributeEventIndexed sdk event scope).Every SentGrows := by
  have hsame {α : Type} {p : Prog RegistryLock SubscriptionRegistry α} (h : p.Every SameChannels) :
      p.Every SentGrows := Prog.Every.mono h fun _ _ => sentGrows_of_same
  refine Prog.Every.bind (Prog.every_atomic _ fun s => .refl s) fun exists_ => ?_
  cases exists_ with
  | false => exact Prog.every_done _
  | true =>
    refine (hsame (every_onIndex scope _)).bind fun matching => Prog.Every.bind ?_ fun dead =>
      hsame (Prog.Every.forM (every_cleanupConnection sdk.order) dead)
    exact Prog.Every.foldlM (fun dead κ => Prog.Every.bind
      (Prog.every_atomic _ fun s => sentGrows_deliver event κ s) fun _ => Prog.every_done _)
      matching []

/-! ### Programs that take no notice of the channels -/

theorem OnlyChannels.refl (s : SubscriptionRegistry) : OnlyChannels s s := ⟨.refl s, rfl⟩

theorem OnlyChannels.updateConn (h : OnlyChannels s s') (conn : ConnRef)
    (f : ConnectionSubscriptions → ConnectionSubscriptions) :
    OnlyChannels (s.updateConn conn f) (s'.updateConn conn f) := by
  refine ⟨⟨h.connections, ?_, h.registered⟩, h.indexes⟩
  rw [SubscriptionRegistry.updateConn, SubscriptionRegistry.updateConn, h.conns]

theorem OnlyChannels.setIndex (h : OnlyChannels s s') (scope : Scope) (index : SubscriptionIndex) :
    OnlyChannels (s.setIndex scope index) (s'.setIndex scope index) := by
  refine ⟨⟨h.connections, h.conns, h.registered⟩, ?_⟩
  rw [SubscriptionRegistry.setIndex, SubscriptionRegistry.setIndex, h.indexes]

theorem OnlyChannels.indexOf (h : OnlyChannels s s') (scope : Scope) :
    s'.indexOf scope = s.indexOf scope := by
  rw [SubscriptionRegistry.indexOf, SubscriptionRegistry.indexOf, h.indexes]

theorem respects_onIndex {α : Type} (scope : Scope) (p : Prog IndexLock SubscriptionIndex α) :
    (onIndex scope p).Respects OnlyChannels :=
  Prog.respects_zoom (fun _ _ h => h.indexOf scope) (fun _ _ index h => h.setIndex scope index) p

theorem respects_release (conn : ConnRef) : (release conn).Respects OnlyChannels :=
  Prog.respects_atomic fun _ _ h => ⟨rfl, h.updateConn conn _⟩

theorem respects_connections (id : ConnectionId) :
    (Prog.atomic RegistryLock.connections fun s : SubscriptionRegistry =>
      (s.connections.lookup id, s)).Respects OnlyChannels :=
  Prog.respects_atomic fun s s' h => ⟨by rw [h.connections], h⟩

theorem respects_subscriptions {α : Type} (conn : ConnRef) {use : LockUse}
    (value : Option ConnectionSubscriptions → α)
    (f : ConnectionSubscriptions → ConnectionSubscriptions) :
    (Prog.await (RegistryLock.subscriptions conn use) (unlocked conn) fun s =>
      (value (s.conns conn), s.updateConn conn f)).Respects OnlyChannels := by
  refine Prog.respects_await fun s s' h => ⟨?_, ?_, h.updateConn conn f⟩
  · rw [unlocked, unlocked, h.conns]
  · rw [h.conns]

theorem respects_addSubscription (id : ConnectionId) (sub : SubscriptionId)
    (filters : List Filter) : (addSubscription id sub filters).Respects OnlyChannels := by
  refine Prog.Respects.bind (respects_connections id) fun connection => ?_
  cases connection with
  | none => trivial
  | some conn =>
    refine Prog.Respects.bind (respects_subscriptions conn
      (Option.map fun data => ((data.subscriptions.lookup sub).isNone, data.subdomain)) _)
      fun inserted => ?_
    cases inserted with
    | none => trivial
    | some p =>
      obtain ⟨isNew, scope⟩ := p
      have hrest : ((release conn).bind fun _ => Prog.done (Except.ok PUnit.unit) :
          Prog RegistryLock SubscriptionRegistry (Except Error PUnit)).Respects OnlyChannels :=
        (respects_release conn).bind fun _ => trivial
      refine Prog.Respects.bind (Prog.respects_atomic fun s s' h => ⟨rfl, ?_⟩) fun _ =>
        (respects_onIndex scope _).bind fun _ => ?_
      · rw [h.indexOf]
        exact h.setIndex scope _
      cases isNew with
      | true =>
        refine Prog.Respects.bind (Prog.respects_atomic fun s s' h => ⟨rfl, ?_⟩) fun _ => hrest
        exact ⟨⟨h.connections, h.conns, h.registered⟩, h.indexes⟩
      | false => exact hrest

theorem respects_removeFromIndex (order : HashOrder) (scope : Scope) (keys : List Key) :
    (removeFromIndex order scope keys).Respects OnlyChannels := by
  refine Prog.Respects.bind (Prog.respects_atomic fun s s' h => ⟨?_, h⟩) fun exists_ => ?_
  · rw [h.indexes]
  · cases exists_ with
    | true => exact Prog.Respects.forM (fun κ => respects_onIndex scope _) keys
    | false => trivial

theorem respects_removeSubscription (order : HashOrder) (id : ConnectionId)
    (sub : SubscriptionId) : (removeSubscription order id sub).Respects OnlyChannels := by
  refine Prog.Respects.bind (respects_connections id) fun connection => ?_
  cases connection with
  | none => trivial
  | some conn =>
    refine Prog.Respects.bind (respects_subscriptions conn
      (Option.map fun data => ((data.subscriptions.lookup sub).isSome, data.subdomain)) _)
      fun removed => ?_
    cases removed with
    | none => trivial
    | some p =>
      obtain ⟨isSome, scope⟩ := p
      cases isSome with
      | false => trivial
      | true =>
        have hrest : ((release conn).bind fun _ => Prog.done (Except.ok PUnit.unit) :
            Prog RegistryLock SubscriptionRegistry (Except Error PUnit)).Respects OnlyChannels :=
          (respects_release conn).bind fun _ => trivial
        refine Prog.Respects.bind (respects_removeFromIndex order scope _) fun _ =>
          Prog.Respects.bind (Prog.respects_atomic fun s s' h => ⟨rfl, ?_⟩) fun _ => hrest
        exact ⟨⟨h.connections, h.conns, h.registered⟩, h.indexes⟩

/-- Something was put into channels, and nothing else has changed. -/
structure OnlySends (s s' : SubscriptionRegistry) : Prop extends OnlyChannels s s' where
  sent : SentGrows s s'

theorem OnlySends.refl (s : SubscriptionRegistry) : OnlySends s s := ⟨.refl s, .refl s⟩

theorem OnlySends.trans {a b c : SubscriptionRegistry} (h : OnlySends a b) (h' : OnlySends b c) :
    OnlySends a c := ⟨h.toOnlyChannels.trans h'.toOnlyChannels, h.sent.trans h'.sent⟩

theorem onlySends_trySendTo (ch : ChannelRef) (packet : Packet) (s : SubscriptionRegistry) :
    OnlySends s (trySendTo ch packet s).2 := by
  refine ⟨?_, sentGrows_trySendTo ch packet s⟩
  rw [trySendTo]
  split
  · exact ⟨⟨rfl, rfl, rfl⟩, rfl⟩
  · exact .refl s

end SubscriptionRegistry

open SubscriptionRegistry RelayState

section Answers

variable {Δ : Type} {sdk : Sdk}

/-- What every action of a program of the registry does. -/
theorem every_onRegistry {α : Type} {p : Prog RegistryLock SubscriptionRegistry α}
    {T : SubscriptionRegistry → SubscriptionRegistry → Prop}
    {S : RelayState Δ → RelayState Δ → Prop} (h : p.Every T)
    (hS : ∀ t s, T t.registry s → S t { t with registry := s }) : (onRegistry p).Every S :=
  Prog.Every.zoom _ _ _ hS h

/-- No answer takes anything out of a channel. -/
theorem every_code (sdk : Sdk) (services : Services Δ) (call : RelayCall) :
    (call.code sdk services).Every fun t t' => SentGrows t.registry t'.registry := by
  have hregistry {α : Type} {p : Prog RegistryLock SubscriptionRegistry α} (h : p.Every SentGrows) :
      (onRegistry p : Prog RelayLock (RelayState Δ) α).Every
        fun t t' => SentGrows t.registry t'.registry := every_onRegistry h fun _ _ h => h
  cases call with
  | trySend channel packet =>
    exact hregistry (Prog.every_atomic _ (sentGrows_trySendTo channel packet))
  | distributeEvent event scope =>
    exact (hregistry (every_distributeEventIndexed event scope)).bind fun _ => Prog.every_done _
  | addSubscription id sub filters =>
    exact (hregistry (Prog.Every.mono (every_addSubscription id sub filters)
      fun _ _ => sentGrows_of_same)).bind fun _ => Prog.every_done _
  | removeSubscription id sub =>
    exact (hregistry (Prog.Every.mono (every_removeSubscription sdk.order id sub)
      fun _ _ => sentGrows_of_same)).bind fun _ => Prog.every_done _
  | _ => exact Prog.every_atomic _ fun t => .refl t.registry

/-- What the relay asks for without the methods of the registry. -/
def RelayCall.LeavesRegistry : RelayCall → Prop
  | .distributeEvent _ _ | .addSubscription _ _ _ | .removeSubscription _ _ => False
  | _ => True

theorem every_leavesRegistry (sdk : Sdk) (services : Services Δ) {call : RelayCall}
    (hcall : call.LeavesRegistry) :
    (call.code sdk services).Every fun t t' => OnlySends t.registry t'.registry := by
  cases call with
  | trySend channel packet =>
    exact every_onRegistry (Prog.every_atomic _ (onlySends_trySendTo channel packet))
      fun _ _ h => h
  | distributeEvent | addSubscription | removeSubscription => exact hcall.elim
  | _ => exact Prog.every_atomic _ fun t => .refl t.registry

end Answers

end RelayBuilder
