import RelayBuilder.IndexContents
import RelayBuilder.SubscriptionRegistry

/-!
# The methods of the registry alone

What each method of the registry does when it runs alone. The indexes of all scopes are described
by one function `H` from a scope, a connection and a subscription to the filters that the index
holds: `Live H s`. The connections map, the registrations and the channels are small enough to be
described as they are.

## Main results

* `addSubscription_alone`, `removeSubscription_alone`, `cleanupConnection_alone`,
  `distributeEventIndexed_alone`
* `addSubscription_unseen`
-/

namespace RelayBuilder

open Interleave

/-- A subscription in the index of a scope. -/
abbrev ScopedKey := Scope × Key

namespace SubscriptionRegistry

variable {H : ScopedKey → Option (List Filter)} {s s' : SubscriptionRegistry} {scope : Scope}
  {κ : Key}
  {α : Type}

/-- The indexes hold exactly the filters `H`. -/
def Live (H : ScopedKey → Option (List Filter)) (s : SubscriptionRegistry) : Prop :=
  ∀ scope, (s.indexOf scope).Contents fun κ => H (scope, κ)

/-- The registrations in the map are on the heap under their own ids. -/
structure WellFormed (s : SubscriptionRegistry) : Prop where
  current : ∀ id conn, s.connections.lookup id = some conn →
    conn.id = id ∧ ∃ data, s.conns conn = some data
  fresh : ∀ conn data, s.conns conn = some data → conn.number < s.registered

/-- No lock is held. -/
def Idle (s : SubscriptionRegistry) : Prop :=
  ∀ conn data, s.conns conn = some data → data.locked = false

/-- The connections and their subscriptions are the same. -/
structure SameConnections (s s' : SubscriptionRegistry) : Prop where
  connections : s'.connections = s.connections
  conns : s'.conns = s.conns
  registered : s'.registered = s.registered

/-- Of the indexes only that of a scope has changed, and the connections are the same. -/
structure OnlyIndex (scope : Scope) (s s' : SubscriptionRegistry) : Prop extends
    SameConnections s s' where
  indexes : ∀ scope', scope' ≠ scope → s'.indexes.lookup scope' = s.indexes.lookup scope'

/-- The channels are left alone. -/
def SameChannels (s s' : SubscriptionRegistry) : Prop := s'.channels = s.channels

theorem SameConnections.refl (s : SubscriptionRegistry) : SameConnections s s := ⟨rfl, rfl, rfl⟩

theorem SameConnections.trans {a b c : SubscriptionRegistry} (h : SameConnections a b)
    (h' : SameConnections b c) : SameConnections a c :=
  ⟨h'.connections.trans h.connections, h'.conns.trans h.conns,
    h'.registered.trans h.registered⟩

theorem OnlyIndex.refl (scope : Scope) (s : SubscriptionRegistry) : OnlyIndex scope s s :=
  ⟨.refl s, fun _ _ => rfl⟩

theorem OnlyIndex.trans {a b c : SubscriptionRegistry} (h : OnlyIndex scope a b)
    (h' : OnlyIndex scope b c) : OnlyIndex scope a c :=
  ⟨h.toSameConnections.trans h'.toSameConnections,
    fun x hx => (h'.indexes x hx).trans (h.indexes x hx)⟩

theorem SameConnections.connection? (h : SameConnections s s') (id : ConnectionId) :
    s'.connection? id = s.connection? id := by
  rw [SubscriptionRegistry.connection?, SubscriptionRegistry.connection?, h.connections, h.conns]

theorem SameConnections.wellFormed (h : SameConnections s s') (hwf : WellFormed s) :
    WellFormed s' := by
  refine ⟨fun id conn => ?_, fun conn data => ?_⟩
  · rw [h.connections, h.conns]
    exact hwf.current id conn
  · rw [h.conns, h.registered]
    exact hwf.fresh conn data

theorem SameConnections.idle (h : SameConnections s s') (hidle : Idle s) : Idle s' := by
  rw [Idle, h.conns]
  exact hidle

@[simp] theorem indexOf_setIndex (s : SubscriptionRegistry) (scope : Scope)
    (index : SubscriptionIndex) : (s.setIndex scope index).indexOf scope = index := by
  simp [indexOf, setIndex]

theorem onlyIndex_setIndex (s : SubscriptionRegistry) (scope : Scope) (index : SubscriptionIndex) :
    OnlyIndex scope s (s.setIndex scope index) :=
  ⟨⟨rfl, rfl, rfl⟩, fun _ h => AList.lookup_insert_ne h⟩

theorem unlocked_of_idle (h : Idle s) (conn : ConnRef) : unlocked conn s = true := by
  rw [unlocked]
  cases hdata : s.conns conn with
  | none => rfl
  | some data => simp [h conn data hdata]

/-! ### Programs of an index -/

/-- A program of an index, as a program of the registry. -/
theorem alone_onIndex {p : Prog IndexLock SubscriptionIndex α} {Q : α → SubscriptionIndex → Prop}
    (h : p.Alone (fun _ _ => True) Q (s.indexOf scope)) :
    (onIndex scope p).Alone SameChannels
      (fun a s' => Q a (s'.indexOf scope) ∧ OnlyIndex scope s s') s :=
  h.zoom (fun t index => indexOf_setIndex t scope index) (fun _ _ _ => rfl) (OnlyIndex.refl scope)
    (fun _ _ _ => OnlyIndex.trans) fun t index => onlyIndex_setIndex t scope index

/-- What the indexes hold, after a change of one of them. -/
theorem Live.onlyIndex (h : Live H s) {H' : ScopedKey → Option (List Filter)}
    (hs : OnlyIndex scope s s')
    (hindex : (s'.indexOf scope).Contents fun κ => H' (scope, κ))
    (hother : ∀ scope' κ, scope' ≠ scope → H' (scope', κ) = H (scope', κ)) : Live H' s' := by
  intro scope'
  by_cases hne : scope' = scope
  · rw [hne]
    exact hindex
  · have hsame : s'.indexOf scope' = s.indexOf scope' := by
      rw [indexOf, indexOf, hs.indexes scope' hne]
    rw [hsame]
    simpa only [hother scope' _ hne] using h scope'

theorem update_scoped (H : ScopedKey → Option (List Filter)) (scope : Scope) (κ : Key)
    (fs : Option (List Filter)) :
    (fun κ' => Function.update H (scope, κ) fs (scope, κ')) =
      Function.update (fun κ' => H (scope, κ')) κ fs := by
  funext κ'
  by_cases h : κ' = κ
  · subst h
    simp
  · simp [Function.update_of_ne h, Function.update_of_ne (fun heq => h (Prod.mk.inj heq).2)]

theorem alone_onIndex_addSubscription (h : Live H s) (scope : Scope) (κ : Key)
    (filters : List Filter) :
    (onIndex scope (SubscriptionIndex.addSubscription κ filters)).Alone SameChannels
      (fun _ s' => Live (Function.update H (scope, κ) (some ((H (scope, κ)).getD [] ++ filters))) s' ∧
        OnlyIndex scope s s') s := by
  refine (alone_onIndex ((h scope).addSubscription_alone κ filters)).post fun _ s' ⟨hc, hs⟩ =>
    ⟨h.onlyIndex hs ?_ fun scope' κ' hne => ?_, hs⟩
  · rw [update_scoped]
    exact hc
  · exact Function.update_of_ne (fun heq => hne (Prod.mk.inj heq).1) _ _

theorem alone_onIndex_removeSubscription (h : Live H s) (order : HashOrder) (scope : Scope)
    (κ : Key) :
    (onIndex scope (SubscriptionIndex.removeSubscription order κ)).Alone SameChannels
      (fun _ s' => Live (Function.update H (scope, κ) none) s' ∧ OnlyIndex scope s s') s := by
  refine (alone_onIndex ((h scope).removeSubscription_alone order κ)).post fun _ s' ⟨hc, hs⟩ =>
    ⟨h.onlyIndex hs ?_ fun scope' κ' hne => ?_, hs⟩
  · rw [update_scoped]
    exact hc
  · exact Function.update_of_ne (fun heq => hne (Prod.mk.inj heq).1) _ _

/-- Nothing is left of the given subscriptions in the index of a scope. -/
def clearing (H : ScopedKey → Option (List Filter)) (scope : Scope) (keys : List Key) :
    ScopedKey → Option (List Filter) :=
  fun k => if k.1 = scope ∧ k.2 ∈ keys then none else H k

theorem clearing_nil (H : ScopedKey → Option (List Filter)) (scope : Scope) :
    clearing H scope [] = H := by
  funext k
  simp [clearing]

theorem clearing_append (H : ScopedKey → Option (List Filter)) (scope : Scope) (keys : List Key)
    (κ : Key) :
    clearing H scope (keys ++ [κ]) = Function.update (clearing H scope keys) (scope, κ) none := by
  funext k
  by_cases hk : k = (scope, κ)
  · subst hk
    simp [clearing]
  · rw [Function.update_of_ne hk]
    have hne : k.1 = scope → k.2 ≠ κ := fun h h' => hk (Prod.ext h h')
    by_cases hscope : k.1 = scope
    · simp [clearing, hscope, hne hscope]
    · simp [clearing, hscope]

/-- In a scope without an index nothing is left of any subscription. -/
theorem Live.clearing_of_lookup (h : Live H s) (hnone : s.indexes.lookup scope = none)
    (keys : List Key) : Live (clearing H scope keys) s := by
  refine fun scope' => ⟨(h scope').wellFormed, fun κ => ?_⟩
  by_cases hk : scope' = scope ∧ κ ∈ keys
  · obtain rfl := hk.1
    have hindex : s.indexOf scope' = SubscriptionIndex.new := by simp [indexOf, hnone]
    rw [clearing, if_pos hk, hindex]
    exact SubscriptionIndex.absent_new κ
  · rw [clearing, if_neg hk]
    exact (h scope').entry κ

/-- The subscriptions are removed from the index of the scope, if there is one. -/
theorem removeFromIndex_alone (h : Live H s) (order : HashOrder) (scope : Scope)
    (keys : List Key) :
    (removeFromIndex order scope keys).Alone SameChannels
      (fun _ s' => Live (clearing H scope keys) s' ∧ SameConnections s s') s := by
  rw [removeFromIndex]
  refine Prog.Alone.bind (M := fun b s' => b = (s.indexes.lookup scope).isSome ∧ s = s')
    (Prog.Alone.atomic rfl ⟨rfl, rfl⟩) ?_
  rintro _ _ ⟨rfl, rfl⟩
  cases hindex : s.indexes.lookup scope with
  | none => exact ⟨h.clearing_of_lookup hindex keys, .refl s⟩
  | some index =>
    refine Prog.Alone.post (Prog.Alone.forM (J := fun rest s' => ∃ done, done ++ rest = keys ∧
      Live (clearing H scope done) s' ∧ SameConnections s s') ?_
      ⟨[], rfl, by rwa [clearing_nil], .refl s⟩) ?_
    · rintro κ rest s' ⟨done, hdone, hlive, hsame⟩
      refine (alone_onIndex_removeSubscription hlive order scope κ).post fun _ s'' ⟨hlive', hs⟩ =>
        ⟨done ++ [κ], by simp [← hdone], ?_, hsame.trans hs.toSameConnections⟩
      rwa [clearing_append]
    · rintro _ s' ⟨done, hdone, hlive, hsame⟩
      rw [List.append_nil] at hdone
      exact ⟨hdone ▸ hlive, hsame⟩

/-! ### The methods -/

/-- Change the subscriptions of a registration. -/
def setSubscriptions (s : SubscriptionRegistry) (conn : ConnRef)
    (f : (AList fun _ : SubscriptionId => List Filter) →
      AList fun _ : SubscriptionId => List Filter) : SubscriptionRegistry :=
  s.updateConn conn fun data => { data with subscriptions := f data.subscriptions }

theorem Live.updateConn (h : Live H s) (conn : ConnRef)
    (f : ConnectionSubscriptions → ConnectionSubscriptions) : Live H (s.updateConn conn f) := h

/-- After the release only the subscriptions have changed. -/
theorem SameConnections.release {conn : ConnRef} (hidle : Idle s)
    {f : (AList fun _ : SubscriptionId => List Filter) →
      AList fun _ : SubscriptionId => List Filter}
    {u : ConnectionSubscriptions → ConnectionSubscriptions}
    (hu : ∀ data, s.conns conn = some data →
      u data = { data with subscriptions := f data.subscriptions, locked := true })
    (h : SameConnections (s.updateConn conn u) s') :
    SameConnections (s.setSubscriptions conn f)
      (s'.updateConn conn fun data => { data with locked := false }) := by
  refine ⟨h.connections, ?_, h.registered⟩
  funext conn'
  have hconns : s'.conns conn' = if conn' = conn then (s.conns conn').map u else s.conns conn' := by
    rw [h.conns]
    rfl
  by_cases hconn : conn' = conn
  · subst hconn
    rw [if_pos rfl] at hconns
    cases hdata : s.conns conn' with
    | none => simp [SubscriptionRegistry.updateConn, setSubscriptions, hconns, hdata]
    | some data =>
      have hlocked := hidle conn' data hdata
      simp [SubscriptionRegistry.updateConn, setSubscriptions, hconns, hdata, hu data hdata,
        ← hlocked]
  · rw [if_neg hconn] at hconns
    simp [SubscriptionRegistry.updateConn, setSubscriptions, hconn, hconns]

/-- The end of a method that has taken the lock of a connection. -/
theorem release_alone {conn : ConnRef} {Q : SubscriptionRegistry → Prop}
    (h : Q (s.updateConn conn fun data => { data with locked := false })) {β : Type} (b : β) :
    ((release conn).bind fun _ => Prog.done b).Alone SameChannels (fun r s' => r = b ∧ Q s') s :=
  Prog.Alone.bind (M := fun _ s' => Q s') (Prog.Alone.atomic rfl h) fun _ _ h => ⟨rfl, h⟩

theorem alone_read {l : RegistryLock} {f : SubscriptionRegistry → α} :
    (Prog.atomic l fun s => (f s, s)).Alone SameChannels (fun a s' => f s = a ∧ s = s') s :=
  Prog.Alone.atomic rfl ⟨rfl, rfl⟩

theorem addSubscription_alone_none {id : ConnectionId} (hnone : s.connections.lookup id = none)
    (sub : SubscriptionId) (filters : List Filter) :
    (addSubscription id sub filters).Alone SameChannels
      (fun r s' => r = .error (.internal "Connection not found") ∧ s = s') s := by
  rw [addSubscription]
  refine Prog.Alone.bind alone_read ?_
  rintro _ _ ⟨rfl, rfl⟩
  rw [hnone]
  exact ⟨rfl, rfl⟩

/-- **`add_subscription` alone** stores the filters, and appends them in the index of the scope of
the connection. -/
theorem addSubscription_alone (h : Live H s) (hidle : Idle s) {id : ConnectionId} {conn : ConnRef}
    {data : ConnectionSubscriptions} (hconn : s.connections.lookup id = some conn)
    (hdata : s.conns conn = some data) (sub : SubscriptionId) (filters : List Filter) :
    (addSubscription id sub filters).Alone SameChannels (fun r s' => r = .ok ⟨⟩ ∧
      SameConnections (s.setSubscriptions conn (·.insert sub filters)) s' ∧
        Live (Function.update H (data.subdomain, id, sub)
          (some ((H (data.subdomain, id, sub)).getD [] ++ filters))) s') s := by
  rw [addSubscription]
  refine Prog.Alone.bind alone_read ?_
  rintro _ _ ⟨rfl, rfl⟩
  rw [hconn]
  let u (data : ConnectionSubscriptions) : ConnectionSubscriptions :=
    { data with subscriptions := data.subscriptions.insert sub filters, locked := true }
  refine Prog.Alone.bind (M := fun i s' =>
      i = some ((data.subscriptions.lookup sub).isNone, data.subdomain) ∧ s' = s.updateConn conn u)
    (Prog.Alone.await (unlocked_of_idle hidle conn) rfl
      ⟨by simp [insertSubscription, hdata], rfl⟩) ?_
  rintro _ s₁ ⟨rfl, hs₁⟩
  have hlive₁ : Live H s₁ := hs₁ ▸ h
  refine Prog.Alone.bind (M := fun _ s₂ => Live H s₂ ∧ SameConnections s₁ s₂)
    (Prog.Alone.atomic rfl ⟨?_, (onlyIndex_setIndex s₁ _ _).toSameConnections⟩) ?_
  · exact hlive₁.onlyIndex (onlyIndex_setIndex s₁ _ _) (by simpa using hlive₁ data.subdomain)
      fun _ _ _ => rfl
  rintro _ s₂ ⟨hlive₂, hsame₂⟩
  refine (alone_onIndex_addSubscription hlive₂ data.subdomain (id, sub) filters).bind
    fun _ s₃ ⟨hlive₃, hsame₃⟩ => ?_
  have hrest : ∀ s₄, Live (Function.update H (data.subdomain, id, sub)
        (some ((H (data.subdomain, id, sub)).getD [] ++ filters))) s₄ → SameConnections s₃ s₄ →
      ((release conn).bind fun _ => Prog.done (Except.ok PUnit.unit)).Alone SameChannels
        (fun (r : Except Error PUnit) s' => r = .ok ⟨⟩ ∧
          SameConnections (s.setSubscriptions conn (·.insert sub filters)) s' ∧
          Live (Function.update H (data.subdomain, id, sub)
            (some ((H (data.subdomain, id, sub)).getD [] ++ filters))) s') s₄ := by
    intro s₄ hlive₄ hsame₄
    have hall : SameConnections (s.updateConn conn u) s₄ :=
      hs₁ ▸ (hsame₂.trans hsame₃.toSameConnections).trans hsame₄
    exact release_alone (Q := fun s' =>
      SameConnections (s.setSubscriptions conn (·.insert sub filters)) s' ∧ Live _ s')
      ⟨hall.release hidle fun _ _ => rfl, hlive₄⟩ _
  cases (data.subscriptions.lookup sub).isNone with
  | true =>
    exact Prog.Alone.bind (M := fun _ s₄ => Live _ s₄ ∧ SameConnections s₃ s₄)
      (Prog.Alone.atomic rfl ⟨hlive₃, rfl, rfl, rfl⟩) fun _ s₄ h => hrest s₄ h.1 h.2
  | false => exact hrest s₃ hlive₃ (.refl s₃)

/-- A subscription that the index of its scope does not know has seen nothing when it is added. -/
theorem addSubscription_unseen (h : Live H s) (hidle : Idle s) {id : ConnectionId} {conn : ConnRef}
    {data : ConnectionSubscriptions} (hconn : s.connections.lookup id = some conn)
    (hdata : s.conns conn = some data) {sub : SubscriptionId}
    (hnone : H (data.subdomain, id, sub) = none) (filters : List Filter) (x : EventId) :
    (addSubscription id sub filters).Alone SameChannels
      (fun _ s' => (s'.indexOf data.subdomain).Unseen (id, sub) x) s := by
  rw [addSubscription]
  refine Prog.Alone.bind alone_read ?_
  rintro _ _ ⟨rfl, rfl⟩
  rw [hconn]
  let M (i : Option (Bool × Scope)) (s' : SubscriptionRegistry) : Prop :=
    i = some ((data.subscriptions.lookup sub).isNone, data.subdomain) ∧ Live H s'
  refine Prog.Alone.bind (M := M) (Prog.Alone.await (unlocked_of_idle hidle conn) rfl
    ⟨by simp [insertSubscription, hdata], h⟩) ?_
  rintro _ s₁ ⟨rfl, hlive₁⟩
  refine Prog.Alone.bind (M := fun _ s₂ => (s₂.indexOf data.subdomain).Contents
    fun κ => H (data.subdomain, κ)) (Prog.Alone.atomic rfl ?_) fun _ s₂ hs₂ => ?_
  · rw [indexOf_setIndex]
    exact hlive₁ data.subdomain
  refine (alone_onIndex (hs₂.addSubscription_unseen hnone filters x)).bind fun _ s₃ ⟨h₃, _⟩ => ?_
  have hrest (s₄ : SubscriptionRegistry) (h₄ : (s₄.indexOf data.subdomain).Unseen (id, sub) x) :
      ((release conn).bind fun _ => Prog.done (Except.ok PUnit.unit)).Alone SameChannels
        (fun (_ : Except Error PUnit) s' => (s'.indexOf data.subdomain).Unseen (id, sub) x) s₄ :=
    (release_alone (Q := fun s' => (s'.indexOf data.subdomain).Unseen (id, sub) x) h₄ _).post
      fun _ _ h => h.2
  cases (data.subscriptions.lookup sub).isNone with
  | true =>
    exact Prog.Alone.bind (M := fun _ s₄ => (s₄.indexOf data.subdomain).Unseen (id, sub) x)
      (Prog.Alone.atomic rfl h₃) fun _ s₄ h => hrest s₄ h
  | false => exact hrest s₃ h₃

theorem clearing_singleton (H : ScopedKey → Option (List Filter)) (scope : Scope) (κ : Key) :
    clearing H scope [κ] = Function.update H (scope, κ) none := by
  have h := clearing_append H scope [] κ
  rwa [List.nil_append, clearing_nil] at h

theorem removeSubscription_alone_none {order : HashOrder} {id : ConnectionId}
    (hnone : s.connections.lookup id = none) (sub : SubscriptionId) :
    (removeSubscription order id sub).Alone SameChannels
      (fun r s' => r = .error (.internal "Connection not found") ∧ s = s') s := by
  rw [removeSubscription]
  refine Prog.Alone.bind alone_read ?_
  rintro _ _ ⟨rfl, rfl⟩
  rw [hnone]
  exact ⟨rfl, rfl⟩

/-- **`remove_subscription` alone** removes what is stored, and if that was something, all that the
index of the scope of the connection holds for it. -/
theorem removeSubscription_alone (h : Live H s) (hidle : Idle s) (order : HashOrder)
    {id : ConnectionId} {conn : ConnRef} {data : ConnectionSubscriptions}
    (hconn : s.connections.lookup id = some conn) (hdata : s.conns conn = some data)
    (sub : SubscriptionId) :
    (removeSubscription order id sub).Alone SameChannels (fun r s' => r = .ok ⟨⟩ ∧
      SameConnections (s.setSubscriptions conn (·.erase sub)) s' ∧
        Live (if sub ∈ data.subscriptions.keys then
          Function.update H (data.subdomain, id, sub) none else H) s') s := by
  rw [removeSubscription]
  refine Prog.Alone.bind alone_read ?_
  rintro _ _ ⟨rfl, rfl⟩
  rw [hconn]
  let u (data : ConnectionSubscriptions) : ConnectionSubscriptions :=
    if (data.subscriptions.lookup sub).isSome then
      { data with subscriptions := data.subscriptions.erase sub, locked := true }
    else data
  refine Prog.Alone.bind (M := fun i s' =>
      i = some ((data.subscriptions.lookup sub).isSome, data.subdomain) ∧ s' = s.updateConn conn u)
    (Prog.Alone.await (unlocked_of_idle hidle conn) rfl ⟨by simp [takeSubscription, hdata], rfl⟩) ?_
  rintro _ s₁ ⟨rfl, hs₁⟩
  have hlive₁ : Live H s₁ := hs₁ ▸ h
  have hmem : (data.subscriptions.lookup sub).isSome ↔ sub ∈ data.subscriptions.keys :=
    AList.lookup_isSome
  cases hfound : (data.subscriptions.lookup sub).isSome with
  | true =>
    rw [if_pos (hmem.mp hfound)]
    refine (removeFromIndex_alone hlive₁ order data.subdomain [(id, sub)]).bind
      fun _ s₂ ⟨hlive₂, hsame₂⟩ => ?_
    rw [clearing_singleton] at hlive₂
    refine Prog.Alone.bind (M := fun _ s₃ => Live _ s₃ ∧ SameConnections s₂ s₃)
      (Prog.Alone.atomic rfl ⟨hlive₂, rfl, rfl, rfl⟩) fun _ s₃ ⟨hlive₃, hsame₃⟩ => ?_
    have hall : SameConnections (s.updateConn conn u) s₃ := hs₁ ▸ hsame₂.trans hsame₃
    refine release_alone (Q := fun s' =>
      SameConnections (s.setSubscriptions conn (·.erase sub)) s' ∧ Live _ s')
      ⟨hall.release hidle fun data' hdata' => ?_, hlive₃⟩ _
    rw [hdata, Option.some.injEq] at hdata'
    subst hdata'
    exact if_pos hfound
  | false =>
    have hnotmem : sub ∉ data.subscriptions.keys := fun hk => by simp [hmem.mpr hk] at hfound
    rw [if_neg hnotmem]
    refine ⟨rfl, ?_, hlive₁⟩
    have hconns : (s.setSubscriptions conn (·.erase sub)).conns = s₁.conns := by
      rw [hs₁]
      funext conn'
      by_cases hc : conn' = conn
      · subst hc
        have herase : data.subscriptions.erase sub = data.subscriptions :=
          AList.ext (List.kerase_of_notMem_keys hnotmem)
        simp [setSubscriptions, updateConn, hdata, u, hfound, herase]
      · simp [setSubscriptions, updateConn, hc]
    rw [hs₁] at hconns ⊢
    exact ⟨rfl, hconns.symm, rfl⟩

/-- The connection has left the map. -/
structure Removed (id : ConnectionId) (s s' : SubscriptionRegistry) : Prop where
  connections : s'.connections = s.connections.erase id
  conns : s'.conns = s.conns
  registered : s'.registered = s.registered

theorem Removed.sameConnections {id : ConnectionId} {s'' : SubscriptionRegistry}
    (h : Removed id s s') (h' : SameConnections s' s'') : Removed id s s'' :=
  ⟨h'.connections.trans h.connections, h'.conns.trans h.conns, h'.registered.trans h.registered⟩

/-- The subscriptions of a connection, as the index of its scope knows them. -/
def keysOf (id : ConnectionId) (data : ConnectionSubscriptions) : List Key :=
  data.subscriptions.keys.map fun sub => (id, sub)

/-- What the indexes hold after the subscriptions of the current registration are removed. -/
def cleared (H : ScopedKey → Option (List Filter)) (s : SubscriptionRegistry) (id : ConnectionId) :
    ScopedKey → Option (List Filter) :=
  match s.connection? id with
  | none => H
  | some data => clearing H data.subdomain (keysOf id data)

theorem clearing_congr {keys keys' : List Key} (h : ∀ κ, κ ∈ keys ↔ κ ∈ keys') :
    clearing H scope keys = clearing H scope keys' := by
  funext k
  simp only [clearing, h]

theorem finishCleanup_alone_none (h : Live H s) (order : HashOrder) (id : ConnectionId) :
    (finishCleanup order id none).Alone SameChannels
      (fun _ s' => Removed id s s' ∧ Live H s') s :=
  Prog.Alone.bind (M := fun _ s' => Removed id s s' ∧ Live H s')
    (Prog.Alone.atomic rfl ⟨⟨rfl, rfl, rfl⟩, h⟩) fun _ _ h => h

theorem finishCleanup_alone (h : Live H s) (order : HashOrder) (id : ConnectionId)
    (ids : List SubscriptionId) (scope : Scope) :
    (finishCleanup order id (some (ids, scope))).Alone SameChannels
      (fun _ s' => Removed id s s' ∧ Live (clearing H scope (ids.map fun sub => (id, sub))) s') s := by
  rw [finishCleanup]
  refine Prog.Alone.bind (M := fun _ s₁ => Removed id s s₁ ∧ Live H s₁)
    (Prog.Alone.atomic rfl ⟨⟨rfl, rfl, rfl⟩, h⟩) fun _ s₁ ⟨hremoved, hlive⟩ => ?_
  refine (removeFromIndex_alone hlive order scope _).bind fun _ s₂ ⟨hlive₂, hsame₂⟩ => ?_
  have hremoved₂ := hremoved.sameConnections hsame₂
  split
  · exact Prog.Alone.atomic rfl ⟨hremoved₂.sameConnections ⟨rfl, rfl, rfl⟩, hlive₂⟩
  · exact ⟨hremoved₂, hlive₂⟩

/-- **`cleanup_connection` alone** removes the connection from the map, and from the index of its
scope all that belongs to the subscriptions it has. -/
theorem cleanupConnection_alone (h : Live H s) (hidle : Idle s) (order : HashOrder)
    (id : ConnectionId) :
    (cleanupConnection order id).Alone SameChannels
      (fun _ s' => Removed id s s' ∧ Live (cleared H s id) s') s := by
  rw [cleanupConnection]
  refine Prog.Alone.bind alone_read ?_
  rintro _ _ ⟨rfl, rfl⟩
  cases hconn : s.connections.lookup id with
  | none =>
    have hcleared : cleared H s id = H := by simp [cleared, connection?, hconn]
    rw [hcleared]
    exact finishCleanup_alone_none h order id
  | some conn =>
    refine Prog.Alone.bind (M := fun i s' => cleanupInfo order conn s = i ∧ s = s')
      (Prog.Alone.await (unlocked_of_idle hidle conn) rfl ⟨rfl, rfl⟩) ?_
    rintro _ _ ⟨rfl, rfl⟩
    cases hdata : s.conns conn with
    | none =>
      have hcleared : cleared H s id = H := by simp [cleared, connection?, hconn, hdata]
      have hinfo : cleanupInfo order conn s = none := by simp [cleanupInfo, hdata]
      rw [hcleared, hinfo]
      exact finishCleanup_alone_none h order id
    | some data =>
      have hcleared : cleared H s id = clearing H data.subdomain
          ((order.iter data.subscriptions.keys).map fun sub => (id, sub)) := by
        simp only [cleared, connection?, hconn, hdata, Option.bind_some]
        exact clearing_congr fun κ => by simp [keysOf, order.mem_iter]
      have hinfo : cleanupInfo order conn s =
          some (order.iter data.subscriptions.keys, data.subdomain) := by simp [cleanupInfo, hdata]
      rw [hcleared, hinfo]
      exact finishCleanup_alone h order id _ _

/-! ### Distribution -/

/-- What `distribute_event` may do to the channels: it puts the event into the channel of a
connection that is registered with the scope. -/
def DeliversTo (sdk : Sdk) (event : Event) (scope : Scope) (s s' : SubscriptionRegistry) : Prop :=
  ∀ ref, s'.channels ref = s.channels ref ∨ ∃ (κ : Key) (data : ConnectionSubscriptions),
    s.connection? κ.1 = some data ∧ data.sender.channel = ref ∧ data.subdomain = scope ∧
    s'.channels ref = { s.channels ref with
      sent := (s.channels ref).sent ++ [data.sender.packetWithJson (.event κ.2 event)
        (eventJson κ.2 (sdk.asJson event))] }

variable {sdk : Sdk} {event : Event}

theorem SameChannels.deliversTo (h : SameChannels s s') : DeliversTo sdk event scope s s' :=
  fun ref => .inl (congrFun h ref)

/-- The connections and the indexes are the same. -/
structure OnlyChannels (s s' : SubscriptionRegistry) : Prop extends SameConnections s s' where
  indexes : s'.indexes = s.indexes

theorem OnlyChannels.trans {a b c : SubscriptionRegistry} (h : OnlyChannels a b)
    (h' : OnlyChannels b c) : OnlyChannels a c :=
  ⟨h.toSameConnections.trans h'.toSameConnections, h'.indexes.trans h.indexes⟩

theorem OnlyChannels.live (hs : OnlyChannels s s') (h : Live H s) : Live H s' := fun scope => by
  rw [indexOf, hs.indexes]
  exact h scope

theorem deliver_onlyChannels (sdk : Sdk) (event : Event) (κ : Key) (s : SubscriptionRegistry) :
    OnlyChannels s (deliver sdk event κ s).2 := by
  rw [deliver]
  split
  · exact ⟨⟨rfl, rfl, rfl⟩, rfl⟩
  · split
    · exact ⟨⟨rfl, rfl, rfl⟩, rfl⟩
    · exact ⟨⟨rfl, rfl, rfl⟩, rfl⟩

theorem deliver_deliversTo
    (hscope : ∀ data, s.connection? κ.1 = some data → data.subdomain = scope) :
    DeliversTo sdk event scope s (deliver sdk event κ s).2 := by
  intro ref
  rw [deliver]
  split
  · exact .inl rfl
  · rename_i data hdata
    split
    · rename_i ch hch
      by_cases href : ref = data.sender.channel
      · obtain ⟨-, rfl⟩ := Channel.trySend_ok hch
        subst href
        exact .inr ⟨κ, data, hdata, rfl, hscope data hdata, by simp [setChannel]⟩
      · exact .inl (by simp [setChannel, href])
    · exact .inl rfl

theorem deliverAll_alone {matching : List Key}
    (hscope : ∀ κ ∈ matching, ∀ data, s.connection? κ.1 = some data → data.subdomain = scope) :
    (deliverAll sdk event matching).Alone (DeliversTo sdk event scope)
      (fun _ s' => OnlyChannels s s') s := by
  refine Prog.Alone.post (Prog.Alone.foldlM (J := fun rest (_ : List ConnectionId) s' =>
    OnlyChannels s s' ∧ ∀ κ ∈ rest, κ ∈ matching) (fun κ rest dead s₁ ⟨hs₁, hrest⟩ => ?_)
    ⟨⟨⟨rfl, rfl, rfl⟩, rfl⟩, fun _ h => h⟩) fun _ _ h => h.1
  refine Prog.Alone.bind (M := fun _ s₂ => OnlyChannels s s₂)
    (Prog.Alone.atomic (deliver_deliversTo fun data hdata => ?_)
      (hs₁.trans (deliver_onlyChannels sdk event κ s₁)))
    fun _ s₂ hs₂ => ⟨hs₂, fun κ' h => hrest κ' (List.mem_cons_of_mem _ h)⟩
  rw [hs₁.connection?] at hdata
  exact hscope κ (hrest κ (List.mem_cons_self ..)) data hdata

/-- What an invariant has to say for `distribute_event` to keep it: the indexes hold filters of a
connection only in the scope it is registered with, and a cleanup keeps it. -/
structure KeptByDistribution
    (Inv : (ScopedKey → Option (List Filter)) → SubscriptionRegistry → Prop) :
    Prop where
  live : ∀ {H s}, Inv H s → Live H s
  idle : ∀ {H s}, Inv H s → Idle s
  inScope : ∀ {H s}, Inv H s → ∀ scope κ data, (H (scope, κ)).getD [] ≠ [] →
    s.connection? κ.1 = some data → data.subdomain = scope
  same : ∀ {H s s'}, Inv H s → SameConnections s s' → Live H s' → Inv H s'
  cleanup : ∀ {H s s' id}, Inv H s → Removed id s s' → Live (cleared H s id) s' →
    Inv (cleared H s id) s'

/-- **`distribute_event` alone** sends only to connections that are registered with the scope. -/
theorem distributeEventIndexed_alone
    {Inv : (ScopedKey → Option (List Filter)) → SubscriptionRegistry → Prop}
    (hInv : KeptByDistribution Inv)
    (h : Inv H s) (event : Event) (scope : Scope) :
    (distributeEventIndexed sdk event scope).Alone (DeliversTo sdk event scope)
      (fun _ s' => ∃ H', Inv H' s') s := by
  rw [distributeEventIndexed]
  refine Prog.Alone.bind (alone_read.conseq (fun _ _ h => SameChannels.deliversTo h)
    fun _ _ h => h) ?_
  rintro _ _ ⟨rfl, rfl⟩
  split
  · refine Prog.Alone.bind ((alone_onIndex ((hInv.live h scope).distributeEvent_alone
      sdk.matchEvent event)).conseq (fun _ _ h => SameChannels.deliversTo h) fun _ _ h => h)
      fun matching s₁ ⟨⟨hcontents, _, hsound⟩, hs₁⟩ => ?_
    have hlive₁ : Live H s₁ := (hInv.live h).onlyIndex hs₁ hcontents fun _ _ _ => rfl
    have h₁ : Inv H s₁ := hInv.same h hs₁.toSameConnections hlive₁
    refine (deliverAll_alone fun κ hκ data hdata => ?_).bind fun dead s₂ hs₂ => ?_
    · obtain ⟨f, hf, -⟩ := hsound κ hκ
      exact hInv.inScope h₁ scope κ data (List.ne_nil_of_mem hf) hdata
    · refine Prog.Alone.forM (J := fun _ s' => ∃ H', Inv H' s') (fun id _ s₃ ⟨H₃, h₃⟩ => ?_)
        ⟨H, hInv.same h₁ hs₂.toSameConnections (hs₂.live hlive₁)⟩
      exact (cleanupConnection_alone (hInv.live h₃) (hInv.idle h₃) sdk.order id).conseq
        (fun _ _ h => SameChannels.deliversTo h)
        fun _ s₄ ⟨hremoved, hlive₄⟩ => ⟨_, hInv.cleanup h₃ hremoved hlive₄⟩
  · exact ⟨H, h⟩

end SubscriptionRegistry

end RelayBuilder
