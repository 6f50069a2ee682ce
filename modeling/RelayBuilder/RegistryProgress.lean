import RelayBuilder.IndexContents
import RelayBuilder.Interleave.Locks
import RelayBuilder.RegistryRuns

/-!
# The methods of the registry come to their end

An add and a removal keep the lock of a connection while they work on the index and the metrics. A
method that wants the lock meanwhile waits for it. No method waits while it has a lock, so the
methods do not block each other.

## Main definitions

* `isLocked`: the lock of a connection, as a lock in the sense of `Prog.TakesLocks`

## Main results

* `RegistryOp.code_takesLocks`
* `methods_end`: every call ends, in every interleaving
-/

namespace RelayBuilder

open Interleave

namespace SubscriptionRegistry

variable {s s' : SubscriptionRegistry} {α : Type}

/-- The write lock of a connection's subscriptions is held. -/
def isLocked (conn : ConnRef) (s : SubscriptionRegistry) : Bool :=
  (s.conns conn).any (·.locked)

/-- No lock is taken. -/
def LocksNothing (s s' : SubscriptionRegistry) : Prop :=
  ∀ conn, isLocked conn s' = true → isLocked conn s = true

theorem LocksNothing.of_conns (h : s'.conns = s.conns) : LocksNothing s s' := by
  intro conn hlocked
  rwa [isLocked, h] at hlocked

theorem unlocked_eq (conn : ConnRef) (s : SubscriptionRegistry) :
    unlocked conn s = !isLocked conn s := by
  rw [unlocked, isLocked]
  cases s.conns conn with
  | none => rfl
  | some data => simp

/-- Changing one connection leaves the locks of the others. -/
theorem isLocked_updateConn_of_ne {conn conn' : ConnRef} (h : conn' ≠ conn)
    (f : ConnectionSubscriptions → ConnectionSubscriptions) :
    isLocked conn' (s.updateConn conn f) = isLocked conn' s := by
  simp [isLocked, updateConn, h]

theorem isLocked_updateConn_self (conn : ConnRef)
    (f : ConnectionSubscriptions → ConnectionSubscriptions) :
    isLocked conn (s.updateConn conn f) = (s.conns conn).any fun data => (f data).locked := by
  simp only [isLocked, updateConn, if_true, Option.any_map]

/-! ### Parts of the methods -/

/-- A program that never waits and takes no lock. -/
def LockFree (p : Prog RegistryLock SubscriptionRegistry α) : Prop :=
  p.NeverWaits ∧ p.Every LocksNothing

theorem LockFree.takesLocks {p : Prog RegistryLock SubscriptionRegistry α} (h : LockFree p) :
    p.TakesLocks isLocked :=
  h.1.takesLocks h.2

theorem lockFree_done (a : α) : LockFree (.done a) := ⟨trivial, trivial⟩

theorem LockFree.bind {β : Type} {p : Prog RegistryLock SubscriptionRegistry α}
    {k : α → Prog RegistryLock SubscriptionRegistry β} (hp : LockFree p)
    (hk : ∀ a, LockFree (k a)) : LockFree (p.bind k) :=
  ⟨hp.1.bind fun a => (hk a).1, hp.2.bind fun a => (hk a).2⟩

theorem lockFree_atomic (l : RegistryLock) {f : SubscriptionRegistry → α × SubscriptionRegistry}
    (h : ∀ s, LocksNothing s (f s).2) : LockFree (.atomic l f) :=
  ⟨Prog.neverWaits_atomic _ _, Prog.every_atomic l h⟩

/-- An action that leaves all registrations alone. -/
theorem lockFree_of_conns (l : RegistryLock) {f : SubscriptionRegistry → α × SubscriptionRegistry}
    (h : ∀ s, (f s).2.conns = s.conns) : LockFree (.atomic l f) :=
  lockFree_atomic l fun s => .of_conns (h s)

theorem lockFree_forM {β : Type} {f : β → Prog RegistryLock SubscriptionRegistry PUnit}
    (hf : ∀ b, LockFree (f b)) (xs : List β) : LockFree (xs.forM f) :=
  ⟨.forM (fun b => (hf b).1) xs, .forM (fun b => (hf b).2) xs⟩

theorem lockFree_foldlM {β : Type} {f : α → β → Prog RegistryLock SubscriptionRegistry α}
    (hf : ∀ a b, LockFree (f a b)) (xs : List β) (a : α) : LockFree (xs.foldlM f a) :=
  ⟨.foldlM (fun a b => (hf a b).1) xs a, .foldlM (fun a b => (hf a b).2) xs a⟩

theorem lockFree_onIndex (scope : Scope) {p : Prog IndexLock SubscriptionIndex α}
    (hp : p.NeverWaits) : LockFree (onIndex scope p) :=
  ⟨hp.zoom _ _ _, Prog.every_zoom _ _ _ (fun _ _ => .of_conns rfl) p⟩

theorem lockFree_removeFromIndex (order : HashOrder) (scope : Scope) (keys : List Key) :
    LockFree (removeFromIndex order scope keys) := by
  refine (lockFree_of_conns _ fun _ => rfl).bind fun exists_ => ?_
  cases exists_ with
  | true =>
    exact lockFree_forM (fun κ => lockFree_onIndex scope
      (SubscriptionIndex.neverWaits_removeSubscription order κ)) keys
  | false => exact lockFree_done _

theorem lockFree_incrementActiveSubscriptions : LockFree incrementActiveSubscriptions :=
  lockFree_of_conns _ fun _ => rfl

theorem lockFree_decrementActiveSubscriptions (count : ℕ) :
    LockFree (decrementActiveSubscriptions count) :=
  lockFree_of_conns _ fun _ => rfl

theorem lockFree_release (conn : ConnRef) : LockFree (release conn) := by
  refine lockFree_atomic _ fun s conn' hlocked => ?_
  by_cases h : conn' = conn
  · subst h
    dsimp only at hlocked
    rw [isLocked_updateConn_self] at hlocked
    simp at hlocked
  · dsimp only at hlocked
    rwa [isLocked_updateConn_of_ne h] at hlocked

/-- The lock is free after its release. -/
theorem release_holds (conn : ConnRef) {β : Type}
    (k : PUnit → Prog RegistryLock SubscriptionRegistry β) :
    ((release conn).bind k).Holds isLocked conn := by
  refine Prog.holds_atomic _ (fun s => ?_) k
  dsimp only
  rw [isLocked_updateConn_self]
  simp

/-- An action that waits for the lock of a connection, and what follows it. -/
theorem takesLocks_subscriptions (conn : ConnRef) (use : LockUse) {β : Type}
    {f : SubscriptionRegistry → α × SubscriptionRegistry}
    {k : α → Prog RegistryLock SubscriptionRegistry β}
    (hother : ∀ s conn', conn' ≠ conn → (f s).2.conns conn' = s.conns conn')
    (hheld : ∀ s, isLocked conn (f s).2 = true →
      isLocked conn s = true ∨ (k (f s).1).Holds isLocked conn)
    (hk : ∀ a, (k a).TakesLocks isLocked) :
    ((Prog.await (.subscriptions conn use) (unlocked conn) f).bind k).TakesLocks isLocked := by
  refine Prog.takesLocks_await conn (unlocked_eq conn) (fun s conn' hne hlocked => ?_) hheld hk
  rwa [isLocked, hother s conn' hne] at hlocked

/-- What is left of a program that has the lock of a connection. -/
def HoldsLock (conn : ConnRef) (p : Prog RegistryLock SubscriptionRegistry α) : Prop :=
  p.TakesLocks isLocked ∧ p.Holds isLocked conn

theorem LockFree.bind_holdsLock {conn : ConnRef} {β : Type}
    {p : Prog RegistryLock SubscriptionRegistry α}
    {k : α → Prog RegistryLock SubscriptionRegistry β} (hp : LockFree p)
    (hk : ∀ a, HoldsLock conn (k a)) : HoldsLock conn (p.bind k) :=
  ⟨hp.takesLocks.bind fun a => (hk a).1, hp.1.bind_holds fun a => (hk a).2⟩

theorem holdsLock_release (conn : ConnRef) (a : α) :
    HoldsLock conn ((release conn).bind fun _ => .done a) :=
  ⟨((lockFree_release conn).bind fun _ => lockFree_done a).takesLocks, release_holds conn _⟩

theorem updateConn_conns_of_ne {conn conn' : ConnRef} (h : conn' ≠ conn)
    (f : ConnectionSubscriptions → ConnectionSubscriptions) :
    (s.updateConn conn f).conns conn' = s.conns conn' := if_neg h

/-! ### The methods -/

variable {id : ConnectionId} {sub : SubscriptionId} {order : HashOrder}

theorem takesLocks_addSubscription (id : ConnectionId) (sub : SubscriptionId)
    (filters : List Filter) : (addSubscription id sub filters).TakesLocks isLocked := by
  refine (lockFree_of_conns _ fun _ => rfl).takesLocks.bind fun connection => ?_
  cases connection with
  | none => trivial
  | some conn =>
    -- the rest of the method, when the filters were inserted
    have hwork (isNew : Bool) (scope : Scope) : HoldsLock conn
        (((Prog.atomic (.indexes : RegistryLock) fun s : SubscriptionRegistry =>
          (PUnit.unit, s.setIndex scope (s.indexOf scope))).bind fun _ =>
            (onIndex scope (SubscriptionIndex.addSubscription (id, sub) filters)).bind fun _ =>
              if isNew then incrementActiveSubscriptions.bind fun _ =>
                (release conn).bind fun _ => .done (.ok ⟨⟩)
              else (release conn).bind fun _ => .done (.ok ⟨⟩)) :
          Prog RegistryLock SubscriptionRegistry (Except Error PUnit)) := by
      refine (lockFree_of_conns _ fun _ => rfl).bind_holdsLock fun _ => ?_
      refine (lockFree_onIndex scope
        (SubscriptionIndex.neverWaits_addSubscription _ _)).bind_holdsLock fun _ => ?_
      split
      · exact lockFree_incrementActiveSubscriptions.bind_holdsLock fun _ => holdsLock_release conn _
      · exact holdsLock_release conn _
    refine takesLocks_subscriptions conn .insert (fun s conn' hne => updateConn_conns_of_ne hne _)
      (fun s hlocked => ?_) fun inserted => ?_
    · right
      cases hdata : s.conns conn with
      | none =>
        rw [insertSubscription, isLocked_updateConn_self, hdata] at hlocked
        cases hlocked
      | some data =>
        rw [insertSubscription, hdata]
        exact (hwork _ _).2
    · obtain _ | ⟨isNew, scope⟩ := inserted
      · trivial
      · exact (hwork isNew scope).1

theorem takesLocks_removeSubscription (order : HashOrder) (id : ConnectionId)
    (sub : SubscriptionId) : (removeSubscription order id sub).TakesLocks isLocked := by
  refine (lockFree_of_conns _ fun _ => rfl).takesLocks.bind fun connection => ?_
  cases connection with
  | none => trivial
  | some conn =>
    -- the rest of the method, when there was such a subscription
    have hwork (scope : Scope) : HoldsLock conn
        (((removeFromIndex order scope [(id, sub)]).bind fun _ =>
          (decrementActiveSubscriptions 1).bind fun _ =>
            (release conn).bind fun _ => .done (.ok ⟨⟩)) :
          Prog RegistryLock SubscriptionRegistry (Except Error PUnit)) :=
      (lockFree_removeFromIndex order scope _).bind_holdsLock fun _ =>
        (lockFree_decrementActiveSubscriptions 1).bind_holdsLock fun _ => holdsLock_release conn _
    refine takesLocks_subscriptions conn (.remove sub)
      (fun s conn' hne => updateConn_conns_of_ne hne _) (fun s hlocked => ?_) fun removed => ?_
    · rw [takeSubscription, isLocked_updateConn_self] at hlocked
      cases hdata : s.conns conn with
      | none =>
        rw [hdata] at hlocked
        cases hlocked
      | some data =>
        rw [hdata, Option.any_some] at hlocked
        by_cases hsub : (data.subscriptions.lookup sub).isSome = true
        · right
          rw [takeSubscription, hdata, Option.map_some, hsub]
          exact (hwork _).2
        · left
          rw [if_neg hsub] at hlocked
          rwa [isLocked, hdata]
    · obtain _ | ⟨_ | _, scope⟩ := removed
      · trivial
      · trivial
      · exact (hwork scope).1

theorem lockFree_finishCleanup (order : HashOrder) (id : ConnectionId)
    (info : Option (List SubscriptionId × Scope)) : LockFree (finishCleanup order id info) := by
  refine (lockFree_of_conns _ fun _ => rfl).bind fun _ => ?_
  obtain _ | ⟨ids, scope⟩ := info
  · exact lockFree_done _
  · refine (lockFree_removeFromIndex order scope _).bind fun _ => ?_
    split
    · exact lockFree_decrementActiveSubscriptions _
    · exact lockFree_done _

theorem takesLocks_cleanupConnection (order : HashOrder) (id : ConnectionId) :
    (cleanupConnection order id).TakesLocks isLocked := by
  refine (lockFree_of_conns _ fun _ => rfl).takesLocks.bind fun connection => ?_
  cases connection with
  | none => exact (lockFree_finishCleanup order id none).takesLocks
  | some conn =>
    exact takesLocks_subscriptions conn .list (fun _ _ _ => rfl) (fun _ hlocked => .inl hlocked)
      fun info => (lockFree_finishCleanup order id info).takesLocks

theorem takesLocks_dropHandle (order : HashOrder) (handle : ConnectionHandle) :
    (dropHandle order handle).TakesLocks isLocked := by
  refine (lockFree_of_conns _ fun _ => rfl).takesLocks.bind fun registered => ?_
  cases registered with
  | true => exact takesLocks_cleanupConnection order handle.id
  | false => trivial

theorem lockFree_registerConnection (id : ConnectionId) (sender : MessageSender)
    (auth : Option PublicKey) (scope : Scope) :
    LockFree (registerConnection id sender auth scope) := by
  refine lockFree_atomic _ fun s conn hlocked => ?_
  simp only [register, isLocked] at hlocked ⊢
  split at hlocked
  · cases hlocked
  · exact hlocked

theorem deliver_conns (sdk : Sdk) (event : Event) (κ : Key) (s : SubscriptionRegistry) :
    (deliver sdk event κ s).2.conns = s.conns := by
  rw [deliver]
  split
  · rfl
  · split <;> rfl

theorem takesLocks_distributeEventIndexed (sdk : Sdk) (event : Event) (scope : Scope) :
    (distributeEventIndexed sdk event scope).TakesLocks isLocked := by
  refine (lockFree_of_conns _ fun _ => rfl).takesLocks.bind fun exists_ => ?_
  cases exists_ with
  | false => trivial
  | true =>
    refine (lockFree_onIndex scope
      (SubscriptionIndex.neverWaits_distributeEvent event)).takesLocks.bind fun matching => ?_
    have hdeliver : LockFree (deliverAll sdk event matching) :=
      lockFree_foldlM (fun dead κ => (lockFree_of_conns _ (deliver_conns sdk event κ)).bind
        fun _ => lockFree_done _) matching []
    refine hdeliver.takesLocks.bind fun dead => ?_
    exact Prog.TakesLocks.forM (takesLocks_cleanupConnection sdk.order) dead

end SubscriptionRegistry

open SubscriptionRegistry

theorem RegistryOp.code_takesLocks (sdk : Sdk) (op : RegistryOp) :
    (op.code sdk).TakesLocks isLocked := by
  cases op with
  | registerConnection id sender auth scope =>
    exact (lockFree_registerConnection id sender auth scope).takesLocks.bind fun _ => trivial
  | addSubscription id sub filters =>
    exact (takesLocks_addSubscription id sub filters).bind fun _ => trivial
  | removeSubscription id sub =>
    exact (takesLocks_removeSubscription sdk.order id sub).bind fun _ => trivial
  | cleanupConnection id => exact (takesLocks_cleanupConnection sdk.order id).bind fun _ => trivial
  | dropHandle handle => exact (takesLocks_dropHandle sdk.order handle).bind fun _ => trivial
  | distributeEvent event scope =>
    exact (takesLocks_distributeEventIndexed sdk event scope).bind fun _ => trivial
  | receive ch => exact (lockFree_of_conns _ fun _ => rfl).takesLocks
  | disconnect ch => exact (lockFree_of_conns _ fun _ => rfl).takesLocks

/-- **No method of the registry blocks another one for ever.** Whatever calls were started and
however they interleaved, one of those that have not ended can act, and all of them end, whichever
acts next, unless further calls are started. -/
theorem methods_end (sdk : Sdk) (metricsHandler : Option SubscriptionMetrics)
    (channels : ChannelRef → Channel)
    (c : Config RegistryOp RegistryLock SubscriptionRegistry RegistryResult)
    (hrun : Run (fun _ => RegistryOp.code sdk) anyMove (registryPool metricsHandler channels) c) :
    c.InevitablyQuiet fun _ => RegistryOp.code sdk :=
  hrun.inevitablyQuiet (fun _ op => op.code_takesLocks sdk) fun _ => rfl

/-- The second of two adds waits for the lock that the first one has taken. -/
theorem methods_end_contended : ∃ c, (registryPool none unread).play
    (fun _ => RegistryOp.code .sample) anyMove
      (callAlone (registerAt "alice" 0 .default) 0 1 ++
        callAlone (.addSubscription "alice" "feed" [Filter.kind 1]) 1 2 ++
        callAlone (.addSubscription "alice" "notes" [Filter.kind 1]) 2 1) = some c ∧
    c.next (fun _ => RegistryOp.code .sample) (.step 2) = none ∧
    c.InevitablyQuiet fun _ => RegistryOp.code .sample := by
  obtain ⟨c, hplay, hblocked⟩ : ∃ c, (registryPool none unread).play
    (fun _ => RegistryOp.code .sample) anyMove
      (callAlone (registerAt "alice" 0 .default) 0 1 ++
        callAlone (.addSubscription "alice" "feed" [Filter.kind 1]) 1 2 ++
        callAlone (.addSubscription "alice" "notes" [Filter.kind 1]) 2 1) = some c ∧
    c.next (fun _ => RegistryOp.code .sample) (.step 2) = none := ⟨_, rfl, rfl⟩
  exact ⟨c, hplay, hblocked, methods_end .sample none unread c (Config.run_of_play hplay)⟩

end RelayBuilder
