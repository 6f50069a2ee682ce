import RelayBuilder.Interleave.Contracts
import RelayBuilder.RegistryActions
import RelayBuilder.RegistryRuns

/-!
# Handles of earlier registrations

A handle knows its registration by the id alone, so what its drop removes is whatever the id is
registered with at that time. This is the registration of the handle itself as long as no handle
is dropped while another registration of its id is current, and no id is registered while a
dropped handle of that id is being cleaned up.

## Main results

* `dropHandle_spares_others`: in every interleaving that respects this, a dropped handle leaves all
  other registrations alone; and otherwise it does not
-/

namespace RelayBuilder

open Interleave

namespace SubscriptionRegistry

variable {s s' : SubscriptionRegistry} {id : ConnectionId} {α β : Type}

/-- What a cleanup of a connection id may change. -/
structure CleanupEffect (id : ConnectionId) (s s' : SubscriptionRegistry) : Prop where
  others : ∀ id', id' ≠ id → s'.connections.lookup id' = s.connections.lookup id'
  current : s'.connections.lookup id = s.connections.lookup id ∨ s'.connections.lookup id = none
  conns : s'.conns = s.conns
  grows : IndexesGrow s s'
  view : ∀ scope κ, κ.1 ≠ id → SubscriptionIndex.SameView κ (s.indexOf scope) (s'.indexOf scope)

/-- No connection is registered, though some may leave. -/
structure NoneRegistered (s s' : SubscriptionRegistry) : Prop where
  grows : IndexesGrow s s'
  current : ∀ id, s'.connections.lookup id = s.connections.lookup id ∨
    s'.connections.lookup id = none

theorem CleanupEffect.refl (id : ConnectionId) (s : SubscriptionRegistry) : CleanupEffect id s s :=
  ⟨fun _ _ => rfl, .inl rfl, rfl, .refl s, fun _ _ _ => .refl _ _⟩

theorem CleanupEffect.trans {a b c : SubscriptionRegistry} (h : CleanupEffect id a b)
    (h' : CleanupEffect id b c) : CleanupEffect id a c := by
  refine ⟨fun id' hid => (h'.others id' hid).trans (h.others id' hid), ?_, h'.conns.trans h.conns,
    h.grows.trans h'.grows, fun scope κ hκ => (h.view scope κ hκ).trans (h'.view scope κ hκ)⟩
  rcases h'.current with heq | hnone
  · rw [heq]
    exact h.current
  · exact .inr hnone

theorem CleanupEffect.noneRegistered (h : CleanupEffect id s s') : NoneRegistered s s' := by
  refine ⟨h.grows, fun id' => ?_⟩
  by_cases hid : id' = id
  · rw [hid]
    exact h.current
  · exact .inl (h.others id' hid)

theorem IndexAction.cleanupEffect {scope : Scope} {touches : Key → Prop}
    (h : IndexAction scope touches s s') (hid : ∀ κ, touches κ → κ.1 = id) :
    CleanupEffect id s s' := by
  refine ⟨fun id' _ => ?_, .inl ?_, ?_, h.grows, fun scope' κ hκ =>
    h.view scope' κ fun _ ht => hκ (hid κ ht)⟩
  all_goals rw [h.rest]

/-- A program all of whose actions are `G`-changes, whatever the other tasks do. -/
abbrev Acts (G : SubscriptionRegistry → SubscriptionRegistry → Prop)
    (p : Prog RegistryLock SubscriptionRegistry α) : Prop :=
  Triple IndexesWellFormed IndexesGrow G (fun _ => True) p fun _ _ => True

variable {G G' : SubscriptionRegistry → SubscriptionRegistry → Prop}

theorem Acts.mono {p : Prog RegistryLock SubscriptionRegistry α} (h : Acts G p)
    (hG : ∀ s s', G s s' → G' s s') : Acts G' p :=
  h.conseq (fun _ _ h => h) (fun _ _ _ => hG _ _) (fun _ _ h => h) fun _ _ _ h => h

theorem Acts.bind {p : Prog RegistryLock SubscriptionRegistry α}
    {k : α → Prog RegistryLock SubscriptionRegistry β} (hp : Acts G p) (hk : ∀ a, Acts G (k a)) :
    Acts G (p.bind k) :=
  Triple.bind IndexesGrow.refl hp hk

theorem acts_done (a : α) : Acts G (Prog.done a) := fun _ _ _ _ _ _ => trivial

/-- An action that does not change the indexes. -/
theorem acts_await {l : RegistryLock} {ready : SubscriptionRegistry → Bool}
    {f : SubscriptionRegistry → α × SubscriptionRegistry}
    (h : ∀ s, (f s).2.indexes = s.indexes ∧ G s (f s).2) : Acts G (Prog.await l ready f) :=
  Triple.await (stable_const True) (fun _ => stable_const True) fun s hwf _ _ =>
    ⟨hwf.of_eq (h s).1, (h s).2, trivial⟩

theorem acts_atomic {l : RegistryLock} {f : SubscriptionRegistry → α × SubscriptionRegistry}
    (h : ∀ s, (f s).2.indexes = s.indexes ∧ G s (f s).2) : Acts G (Prog.atomic l f) :=
  acts_await h

theorem Acts.forM {f : β → Prog RegistryLock SubscriptionRegistry PUnit} (h : ∀ b, Acts G (f b))
    (xs : List β) : Acts G (xs.forM f) :=
  Triple.forM (J := fun _ _ => True) IndexesGrow.refl (stable_const True) (fun b _ => h b) xs

theorem Acts.foldlM {f : α → β → Prog RegistryLock SubscriptionRegistry α}
    (h : ∀ a b, Acts G (f a b)) (xs : List β) (a : α) : Acts G (xs.foldlM f a) :=
  Triple.foldlM (J := fun _ _ _ => True) IndexesGrow.refl (fun _ => stable_const True)
    (fun b _ a => h a b) xs a

/-! ### The cleanup -/

theorem acts_removeFromIndex (order : HashOrder) (scope : Scope) (id : ConnectionId)
    (subs : List SubscriptionId) :
    Acts (CleanupEffect id) (removeFromIndex order scope (subs.map fun sub => (id, sub))) := by
  refine (removeFromIndex_triple order scope (fun _ => False) _).conseq
    (fun _ _ h => ⟨h, fun _ h => h.elim⟩) (fun _ _ _ h => h.cleanupEffect fun κ hκ => ?_)
    (fun _ _ _ _ h => h.elim) fun _ _ _ _ => trivial
  obtain ⟨_, _, rfl⟩ := List.mem_map.mp hκ
  rfl

theorem acts_read {l : RegistryLock} {ready : SubscriptionRegistry → Bool}
    {f : SubscriptionRegistry → α} :
    Acts (CleanupEffect id) (Prog.await l ready fun s => (f s, s)) :=
  acts_await fun s => ⟨rfl, .refl id s⟩

theorem acts_decrement (id : ConnectionId) (n : ℕ) :
    Acts (CleanupEffect id) (decrementActiveSubscriptions n) :=
  acts_atomic fun _ => ⟨rfl, fun _ _ => rfl, .inl rfl, rfl, .refl _, fun _ _ _ => .refl _ _⟩

theorem acts_finishCleanup (order : HashOrder) (id : ConnectionId)
    (info : Option (List SubscriptionId × Scope)) :
    Acts (CleanupEffect id) (finishCleanup order id info) := by
  refine Acts.bind (acts_atomic fun s => ⟨rfl, fun id' hid => AList.lookup_erase_ne hid,
    .inr (AList.lookup_erase ..), rfl, .refl _, fun _ _ _ => .refl _ _⟩) fun _ => ?_
  match info with
  | none => exact acts_done _
  | some (ids, scope) =>
    refine (acts_removeFromIndex order scope id ids).bind fun _ => ?_
    split
    · exact acts_decrement _ _
    · exact acts_done _

theorem acts_cleanupConnection (order : HashOrder) (id : ConnectionId) :
    Acts (CleanupEffect id) (cleanupConnection order id) := by
  refine acts_read.bind fun connection => ?_
  cases connection with
  | none => exact acts_finishCleanup order id none
  | some conn => exact acts_read.bind fun info => acts_finishCleanup order id info

theorem acts_dropHandle (order : HashOrder) (handle : ConnectionHandle) :
    Acts (CleanupEffect handle.id) (dropHandle order handle) := by
  refine acts_read.bind fun registered => ?_
  cases registered with
  | true => exact acts_cleanupConnection order handle.id
  | false => exact acts_done _

/-! ### The other methods -/

/-- A program of an index. -/
theorem acts_onIndex {scope : Scope} {p : Prog IndexLock SubscriptionIndex α}
    {touches drops : Key → Prop} {marks : EventId → Prop} {Q : α → SubscriptionIndex → Prop}
    (h : Triple SubscriptionIndex.WellFormed SubscriptionIndex.Grows
      (SubscriptionIndex.Effect touches drops marks) (fun _ => True) p Q) :
    Acts (IndexAction scope touches) (onIndex scope p) := fun _ hwf _ =>
  (onIndex_ensures (h _ (hwf scope) trivial) fun _ _ hgrows => hgrows scope).conseq
    (fun _ _ h => h) (fun _ _ _ h => h) fun _ _ _ _ => trivial

theorem IndexAction.noneRegistered {scope : Scope} {touches : Key → Prop}
    (h : IndexAction scope touches s s') : NoneRegistered s s' :=
  ⟨h.grows, fun id => .inl (by rw [h.rest])⟩

theorem noneRegistered_of_eq (hindexes : s'.indexes = s.indexes)
    (hconnections : s'.connections = s.connections) : NoneRegistered s s' :=
  ⟨.of_eq hindexes, fun id => .inl (by rw [hconnections])⟩

theorem foreign_of_grows {κ : Key} {index index' : SubscriptionIndex}
    (h : index.Grows index') : SubscriptionIndex.Foreign κ False index index' :=
  ⟨h, fun h => h.elim⟩

theorem acts_addSubscription (id : ConnectionId) (sub : SubscriptionId) (filters : List Filter) :
    Acts NoneRegistered (addSubscription id sub filters) := by
  refine Acts.bind (acts_atomic fun _ => ⟨rfl, noneRegistered_of_eq rfl rfl⟩) fun connection => ?_
  cases connection with
  | none => exact acts_done _
  | some conn =>
    refine Acts.bind (acts_await fun _ => ⟨rfl, noneRegistered_of_eq rfl rfl⟩) fun inserted => ?_
    match inserted with
    | none => exact acts_done _
    | some (isNew, scope) =>
      have hcreate : Acts NoneRegistered (Prog.atomic RegistryLock.indexes
          fun s : SubscriptionRegistry => (PUnit.unit, s.setIndex scope (s.indexOf scope))) :=
        Triple.atomic (stable_const True) (fun _ => stable_const True) fun s hwf _ =>
          ⟨IndexesWellFormed.setIndex hwf (hwf scope),
            (indexAction_create s scope fun _ => False).noneRegistered, trivial⟩
      refine hcreate.bind fun _ => ?_
      refine ((acts_onIndex ((SubscriptionIndex.addSubscription_triple (id, sub) False []
        filters).conseq (fun _ _ => foreign_of_grows) (fun _ _ _ h => h)
          (fun _ _ _ h => h.elim) fun _ _ _ h => h)).mono fun _ _ =>
            IndexAction.noneRegistered).bind fun _ => ?_
      have hrelease : Acts NoneRegistered ((release conn).bind fun _ =>
          Prog.done (Except.ok PUnit.unit : Except Error PUnit)) :=
        Acts.bind (acts_atomic fun _ => ⟨rfl, noneRegistered_of_eq rfl rfl⟩) fun _ => acts_done _
      cases isNew with
      | true =>
        exact Acts.bind (acts_atomic fun _ => ⟨rfl, noneRegistered_of_eq rfl rfl⟩) fun _ => hrelease
      | false => exact hrelease

theorem acts_removeSubscription (order : HashOrder) (id : ConnectionId) (sub : SubscriptionId) :
    Acts NoneRegistered (removeSubscription order id sub) := by
  refine Acts.bind (acts_atomic fun _ => ⟨rfl, noneRegistered_of_eq rfl rfl⟩) fun connection => ?_
  cases connection with
  | none => exact acts_done _
  | some conn =>
    refine Acts.bind (acts_await fun _ => ⟨rfl, noneRegistered_of_eq rfl rfl⟩) fun removed => ?_
    match removed with
    | none => exact acts_done _
    | some (false, scope) => exact acts_done _
    | some (true, scope) =>
      refine Acts.bind ((acts_removeFromIndex order scope id [sub]).mono fun _ _ =>
        CleanupEffect.noneRegistered) fun _ => ?_
      refine Acts.bind ((acts_decrement id 1).mono fun _ _ =>
        CleanupEffect.noneRegistered) fun _ => ?_
      exact Acts.bind (acts_atomic fun _ => ⟨rfl, noneRegistered_of_eq rfl rfl⟩) fun _ =>
        acts_done _

/-- A distribution changes no subscription of an index. -/
theorem acts_distributeEvent (sdk : Sdk) (event : Event) (scope : Scope) :
    Acts (IndexAction scope SubscriptionIndex.nothing)
      (onIndex scope (SubscriptionIndex.distributeEvent sdk.matchEvent event)) :=
  acts_onIndex ((SubscriptionIndex.distributeEvent_triple sdk.matchEvent ("", "") False
    event []).conseq (fun _ _ h => ⟨foreign_of_grows h, fun h => h.elim⟩) (fun _ _ _ h => h)
      (fun _ _ _ => ⟨fun h => h.elim, fun h => h.elim⟩) fun _ _ _ h => h)

theorem acts_distributeEventIndexed (sdk : Sdk) (event : Event) (scope : Scope) :
    Acts NoneRegistered (distributeEventIndexed sdk event scope) := by
  refine Acts.bind (acts_atomic fun _ => ⟨rfl, noneRegistered_of_eq rfl rfl⟩) fun exists_ => ?_
  cases exists_ with
  | false => exact acts_done _
  | true =>
    refine ((acts_distributeEvent sdk event scope).mono fun _ _ =>
      IndexAction.noneRegistered).bind fun matching => ?_
    refine Acts.bind (Acts.foldlM (fun dead κ => Acts.bind (acts_atomic fun s => ?_)
      fun _ => acts_done _) matching []) fun dead => Acts.forM (fun id =>
        (acts_cleanupConnection sdk.order id).mono fun _ _ => CleanupEffect.noneRegistered) dead
    have hsame := deliver_onlyChannels sdk event κ s
    exact ⟨hsame.indexes, noneRegistered_of_eq hsame.indexes hsame.connections⟩

end SubscriptionRegistry

open SubscriptionRegistry

/-- What the actions of a call change: a dropped handle changes what belongs to its id, and only
`register_connection` registers its id. -/
def RegistryOp.HandleEffect : RegistryOp → SubscriptionRegistry → SubscriptionRegistry → Prop
  | .registerConnection id _ _ _ => fun s s' => IndexesGrow s s' ∧
    ∀ id', id' ≠ id → s'.connections.lookup id' = s.connections.lookup id'
  | .dropHandle handle => CleanupEffect handle.id
  | _ => NoneRegistered

theorem RegistryOp.HandleEffect.grows {op : RegistryOp} {s s' : SubscriptionRegistry}
    (h : op.HandleEffect s s') : IndexesGrow s s' := by
  cases op with
  | registerConnection id sender auth subdomain => exact h.1
  | dropHandle handle => exact CleanupEffect.grows h
  | _ => exact NoneRegistered.grows h

theorem RegistryOp.acts_code (sdk : Sdk) (op : RegistryOp) :
    Acts op.HandleEffect (op.code sdk) := by
  cases op with
  | registerConnection id sender auth subdomain =>
    exact Acts.bind (acts_atomic fun s => ⟨rfl, .of_eq rfl, fun id' hid =>
      AList.lookup_insert_ne hid⟩) fun _ => acts_done _
  | addSubscription id sub filters =>
    exact (acts_addSubscription id sub filters).bind fun _ => acts_done _
  | removeSubscription id sub =>
    exact (acts_removeSubscription sdk.order id sub).bind fun _ => acts_done _
  | cleanupConnection id =>
    exact ((acts_cleanupConnection sdk.order id).mono fun _ _ =>
      CleanupEffect.noneRegistered).bind fun _ => acts_done _
  | dropHandle handle => exact (acts_dropHandle sdk.order handle).bind fun _ => acts_done _
  | distributeEvent event scope =>
    exact (acts_distributeEventIndexed sdk event scope).bind fun _ => acts_done _
  | receive ch => exact acts_atomic fun _ => ⟨rfl, noneRegistered_of_eq rfl rfl⟩
  | disconnect ch => exact acts_atomic fun _ => ⟨rfl, noneRegistered_of_eq rfl rfl⟩

/-! ### Dropping a handle -/

namespace SubscriptionRegistry

variable {s s' : SubscriptionRegistry} {handle : ConnectionHandle}
  {H : ScopedKey → Option (List Filter)}

/-- All registrations but `conn` are left alone: their place in the map, their subscriptions, and
what the indexes hold for them. -/
def Spares (conn : ConnRef) (s s' : SubscriptionRegistry) : Prop :=
  ∀ id conn', s.connections.lookup id = some conn' → conn' ≠ conn →
    s'.connections.lookup id = some conn' ∧ s'.conns conn' = s.conns conn' ∧
      ∀ scope sub, SubscriptionIndex.SameView (id, sub) (s.indexOf scope) (s'.indexOf scope)

/-- No other registration of the handle's id is current. -/
def OwnsId (handle : ConnectionHandle) (s : SubscriptionRegistry) : Prop :=
  s.connections.lookup handle.id = none ∨
    s.connections.lookup handle.id = some handle.registration

instance (handle : ConnectionHandle) (s : SubscriptionRegistry) : Decidable (OwnsId handle s) :=
  inferInstanceAs (Decidable (_ ∨ _))

theorem OwnsId.noneRegistered (h : OwnsId handle s) (hs : NoneRegistered s s') :
    OwnsId handle s' := by
  rcases hs.current handle.id with heq | hnone
  · rwa [OwnsId, heq]
  · exact .inl hnone

theorem CleanupEffect.spares (h : CleanupEffect handle.id s s') (hown : OwnsId handle s) :
    Spares handle.registration s s' := by
  intro id conn' hconn hne
  have hid : id ≠ handle.id := by
    rintro rfl
    rcases hown with hnone | hsome
    · rw [hconn] at hnone
      cases hnone
    · rw [hconn, Option.some.injEq] at hsome
      exact hne hsome
  exact ⟨(h.others id hid).trans hconn, by rw [h.conns], fun scope sub => h.view scope _ hid⟩

/-- A handle that is dropped while its id is registered removes what it is registered with. -/
theorem dropHandle_alone (h : Settled H s) (order : HashOrder) (handle : ConnectionHandle) :
    (dropHandle order handle).Alone SameChannels
      (fun _ s' => s'.connections.lookup handle.id = none) s := by
  rw [dropHandle]
  refine Prog.Alone.bind alone_read ?_
  rintro _ _ ⟨rfl, rfl⟩
  cases hconn : s.connections.lookup handle.id with
  | none => exact hconn
  | some conn =>
    refine (cleanupConnection_alone h.live h.idle order handle.id).post ?_
    rintro _ s' ⟨hremoved, -⟩
    rw [hremoved.connections]
    exact AList.lookup_erase ..

/-- Dropped alone, a handle leaves all other registrations alone if and only if none of them is
registered under its id. -/
theorem dropHandle_spares_iff (h : Settled H s) (order : HashOrder) (handle : ConnectionHandle) :
    ∃ o, (dropHandle order handle).run s = some o ∧
      (Spares handle.registration s o.state ↔ OwnsId handle s) := by
  obtain ⟨o, ho, hnone⟩ := (dropHandle_alone h order handle).run
  have hwf : IndexesWellFormed s := fun scope => (h.live scope).wellFormed
  obtain ⟨-, -, heff⟩ := (acts_dropHandle order handle s hwf trivial).run IndexesGrow.refl hwf
    (fun _ _ _ h => h) (CleanupEffect.refl _) (fun _ _ _ => CleanupEffect.trans) ho
  refine ⟨o, ho, fun hspares => ?_, heff.spares⟩
  cases hconn : s.connections.lookup handle.id with
  | none => exact .inl hconn
  | some conn =>
    by_cases hown : conn = handle.registration
    · exact .inr (hconn.trans (congrArg some hown))
    · rw [(hspares handle.id conn hconn hown).1] at hnone
      cases hnone

end SubscriptionRegistry

/-- The id that a call registers. -/
def RegistryOp.registeredId? : RegistryOp → Option ConnectionId
  | .registerConnection id _ _ _ => some id
  | _ => none

/-- The handle that a call drops. -/
def RegistryOp.droppedHandle? : RegistryOp → Option ConnectionHandle
  | .dropHandle handle => some handle
  | _ => none

/-- No handle is dropped while another registration of its id is current, and no id is registered
while the drop of a handle of that id is under way. -/
def dropsInTime (c : Config RegistryOp RegistryLock SubscriptionRegistry RegistryResult) :
    Move RegistryOp → Prop
  | .start op => ∀ handle ∈ op.droppedHandle?, OwnsId handle c.state
  | .step i => ∀ call ∈ c.calls[i]?, ∀ id ∈ call.op.registeredId?, ∀ call' ∈ c.calls,
    call'.result? = none → ∀ handle ∈ call'.op.droppedHandle?, handle.id ≠ id

instance (c : Config RegistryOp RegistryLock SubscriptionRegistry RegistryResult)
    (m : Move RegistryOp) : Decidable (dropsInTime c m) :=
  match m with
  | .start op => inferInstanceAs (Decidable (∀ handle ∈ op.droppedHandle?, OwnsId handle c.state))
  | .step i => inferInstanceAs (Decidable (∀ call ∈ c.calls[i]?, ∀ id ∈ call.op.registeredId?,
    ∀ call' ∈ c.calls, call'.result? = none → ∀ handle ∈ call'.op.droppedHandle?, handle.id ≠ id))

/-- While a drop is under way, no other registration of its id is current. -/
structure DropsOwn (c : Config RegistryOp RegistryLock SubscriptionRegistry RegistryResult) :
    Prop where
  ensured : Ensured IndexesWellFormed IndexesGrow RegistryOp.HandleEffect (fun _ _ => True) c
  owns : ∀ call ∈ c.calls, call.result? = none → ∀ handle ∈ call.op.droppedHandle?,
    OwnsId handle c.state

theorem DropsOwn.move {sdk : Sdk}
    {c c' : Config RegistryOp RegistryLock SubscriptionRegistry RegistryResult}
    {m : Move RegistryOp} (h : DropsOwn c) (hok : dropsInTime c m)
    (hn : c.next (fun _ => RegistryOp.code sdk) m = some c') : DropsOwn c' := by
  refine ⟨h.ensured.move IndexesGrow.refl (fun _ _ _ => IndexesGrow.trans)
    (fun _ _ _ => RegistryOp.HandleEffect.grows) (fun _ op => op.acts_code sdk) hn, ?_⟩
  obtain ⟨op, rfl, rfl⟩ | ⟨i, op, l, r, e, n, rfl, hi, hr, rfl⟩ := Config.next_cases hn
  · intro call hcall hflight handle hhandle
    rcases List.mem_append.mp hcall with hcall | hcall
    · exact h.owns call hcall hflight handle hhandle
    · rw [List.mem_singleton.mp hcall] at hhandle
      exact hok handle hhandle
  · have heff : op.HandleEffect c.state (e c.state) := h.ensured.guarantee IndexesGrow.refl hi hn
    have hkeep : ∀ call ∈ c.calls, call.result? = none → ∀ handle ∈ call.op.droppedHandle?,
        OwnsId handle (e c.state) := by
      intro call hcall hflight handle hhandle
      have hown := h.owns call hcall hflight handle hhandle
      cases op with
      | registerConnection id sender auth subdomain =>
        have hne := hok _ hi id rfl call hcall hflight handle hhandle
        rw [OwnsId, heff.2 handle.id hne]
        exact hown
      | dropHandle handle' => exact hown.noneRegistered (CleanupEffect.noneRegistered heff)
      | _ => exact hown.noneRegistered heff
    intro call hcall hflight handle hhandle
    rcases List.mem_or_eq_of_mem_set hcall with hcall | rfl
    · exact hkeep call hcall hflight handle hhandle
    · exact hkeep _ (List.mem_of_getElem? hi) rfl handle hhandle

/-- **A dropped handle leaves other registrations alone**: in every interleaving in which no handle
is dropped while another registration of its id is current, and no id is registered while the drop
of a handle of it is under way. A handle that is dropped alone leaves them alone only then. -/
theorem dropHandle_spares_others (sdk : Sdk) (metricsHandler : Option SubscriptionMetrics)
    (channels : ChannelRef → Channel) :
    (∀ c, Run (fun _ => RegistryOp.code sdk) dropsInTime (registryPool metricsHandler channels) c →
      ∀ i handle p c', c.calls[i]? = some ⟨.dropHandle handle, p⟩ →
        c.next (fun _ => RegistryOp.code sdk) (.step i) = some c' →
        Spares handle.registration c.state c'.state) ∧
    ∀ H s handle, Settled H s → ∃ o, (dropHandle sdk.order handle).run s = some o ∧
      (Spares handle.registration s o.state ↔ OwnsId handle s) := by
  refine ⟨fun c hrun i handle p c' hi hn => ?_, fun H s handle h =>
    dropHandle_spares_iff h sdk.order handle⟩
  have hinitial : DropsOwn (registryPool metricsHandler channels) :=
    ⟨.initial fun _ => SubscriptionIndex.wellFormed_new, fun _ h => absurd h List.not_mem_nil⟩
  have h := hrun.invariant hinitial fun _ _ _ h hok hn => h.move hok hn
  have heff : CleanupEffect handle.id c.state c'.state := h.ensured.guarantee IndexesGrow.refl hi hn
  refine heff.spares (h.owns _ (List.mem_of_getElem? hi) ?_ handle rfl)
  cases p with
  | done a => simp [Config.next, hi] at hn
  | act l r e n => rfl

/-- The handle of the `number`-th registration. -/
def handleOf (id : ConnectionId) (number : ℕ) : ConnectionHandle := ⟨id, id, number⟩

/-- A handle that is dropped instead of a cleanup, while another connection is registered; and a
handle of a registration that was replaced. -/
theorem dropHandle_spares_others_fallback :
    (∃ c c' : Config RegistryOp RegistryLock SubscriptionRegistry RegistryResult,
      (registryPool none unread).play (fun _ => RegistryOp.code .sample) dropsInTime
        [callAlone (registerAt "alice" 0 .default) 0 1, callAlone (registerAt "bob" 1 .default) 1 1,
          callAlone (.addSubscription "bob" "feed" [Filter.kind 1]) 2 10,
          callAlone (.dropHandle (handleOf "alice" 0)) 3 3].flatten = some c ∧
      c.next (fun _ => RegistryOp.code .sample) (.step 3) = some c' ∧
      Spares ⟨"alice", 0⟩ c.state c'.state) ∧
    ∃ o, (dropHandle .insertion (handleOf "alice" 0)).run
        (register "alice" ⟨1, 0⟩ none .default
          (register "alice" ⟨0, 0⟩ none .default (new none unread)).2).2 = some o ∧
      (Spares ⟨"alice", 0⟩ (register "alice" ⟨1, 0⟩ none .default
          (register "alice" ⟨0, 0⟩ none .default (new none unread)).2).2 o.state ↔
        OwnsId (handleOf "alice" 0) (register "alice" ⟨1, 0⟩ none .default
          (register "alice" ⟨0, 0⟩ none .default (new none unread)).2).2) := by
  refine ⟨?_, (dropHandle_spares_others .sample none unread).2 _ _ (handleOf "alice" 0)
    (((settled_new none unread).register _ _ _ _).register _ _ _ _)⟩
  obtain ⟨c, c', p, hplay, hi, hnext⟩ :
      ∃ (c c' : Config RegistryOp RegistryLock SubscriptionRegistry RegistryResult)
        (p : Prog RegistryLock SubscriptionRegistry RegistryResult),
      (registryPool none unread).play (fun _ => RegistryOp.code .sample) dropsInTime
        [callAlone (registerAt "alice" 0 .default) 0 1, callAlone (registerAt "bob" 1 .default) 1 1,
          callAlone (.addSubscription "bob" "feed" [Filter.kind 1]) 2 10,
          callAlone (.dropHandle (handleOf "alice" 0)) 3 3].flatten = some c ∧
      c.calls[3]? = some ⟨.dropHandle (handleOf "alice" 0), p⟩ ∧
      c.next (fun _ => RegistryOp.code .sample) (.step 3) = some c' := ⟨_, _, _, rfl, rfl, rfl⟩
  exact ⟨c, c', hplay, hnext, (dropHandle_spares_others .sample none unread).1 c
    (Config.run_of_play hplay) 3 _ p c' hi hnext⟩

/-- The handle of a registration that was cleaned up removes the next registration of the id. -/
theorem dropHandle_removes_later :
    ∃ c c' : Config RegistryOp RegistryLock SubscriptionRegistry RegistryResult,
      (registryPool none unread).play (fun _ => RegistryOp.code .sample) anyMove
        [callAlone (registerAt "alice" 0 .default) 0 1, callAlone (.cleanupConnection "alice") 1 4,
          callAlone (registerAt "alice" 1 .default) 2 1,
          callAlone (.addSubscription "alice" "feed" [Filter.kind 1]) 3 10,
          callAlone (.dropHandle (handleOf "alice" 0)) 4 3].flatten = some c ∧
      c.Returned 0 (registerAt "alice" 0 .default) (.ok (some (handleOf "alice" 0))) ∧
      c.state.connections.lookup "alice" = some ⟨"alice", 1⟩ ∧
      c.next (fun _ => RegistryOp.code .sample) (.step 4) = some c' ∧
      ¬ Spares (handleOf "alice" 0).registration c.state c'.state := by
  obtain ⟨c, c', hplay, hhandle, hconn, hnext, hnone⟩ :
      ∃ c c' : Config RegistryOp RegistryLock SubscriptionRegistry RegistryResult,
      (registryPool none unread).play (fun _ => RegistryOp.code .sample) anyMove
        [callAlone (registerAt "alice" 0 .default) 0 1, callAlone (.cleanupConnection "alice") 1 4,
          callAlone (registerAt "alice" 1 .default) 2 1,
          callAlone (.addSubscription "alice" "feed" [Filter.kind 1]) 3 10,
          callAlone (.dropHandle (handleOf "alice" 0)) 4 3].flatten = some c ∧
      c.Returned 0 (registerAt "alice" 0 .default) (.ok (some (handleOf "alice" 0))) ∧
      c.state.connections.lookup "alice" = some ⟨"alice", 1⟩ ∧
      c.next (fun _ => RegistryOp.code .sample) (.step 4) = some c' ∧
      c'.state.connections.lookup "alice" = none := ⟨_, _, rfl, rfl, rfl, rfl, rfl⟩
  refine ⟨c, c', hplay, hhandle, hconn, hnext, fun hspares => ?_⟩
  rw [(hspares "alice" ⟨"alice", 1⟩ hconn (by decide)).1] at hnone
  cases hnone

end RelayBuilder
