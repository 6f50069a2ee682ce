import RelayBuilder.RegistryProtocol

/-!
# Cleanup under interleaving

An add, a removal and a cleanup look a connection up first and take its lock later. In between
the connection may leave the map, or a cleanup may list what the call is about to change. As long
as a call that finds something under the lock finds the connection registered, and no cleanup
about to remove it, the books stay balanced: no index keeps anything of a connection that is not
in the map, and the metrics count what is there.

## Main definitions

* `wellTimed`: the locks are taken in time
* `CleanedUp`: what is to hold when no call is in flight, and of the metrics always

## Main results

* `cleanup_exact`: in every interleaving whose locks are taken in time
-/

namespace RelayBuilder

open Interleave SubscriptionRegistry

/-- An action that registers an id is the first one that does. -/
def RegistryLock.Registers (s : SubscriptionRegistry) : RegistryLock → Prop
  | .insertConnection id => NeverRegistered id s
  | _ => True

/-- An action that finds something under the lock of a connection finds the connection registered,
and no cleanup about to remove it. -/
def RegistryLock.InTime (c : Config RegistryOp RegistryLock SubscriptionRegistry RegistryResult) :
    RegistryLock → Prop
  | .subscriptions conn use => use.Finds conn c.state →
    c.state.connections.lookup conn.id = some conn ∧
      ∀ call ∈ c.calls, call.label? ≠ some (.removeConnection conn.id)
  | _ => True

/-- Each connection id is registered once, and the locks are taken in time. -/
def wellTimed (c : Config RegistryOp RegistryLock SubscriptionRegistry RegistryResult) :
    Move RegistryOp → Prop
  | .start _ => True
  | .step i => ∀ call ∈ c.calls[i]?, ∀ l ∈ call.label?, l.Registers c.state ∧ l.InTime c

/-- Nothing was decremented that was not incremented, and when no call is in flight, the indexes
hold nothing of a connection that is not in the map, and the metrics count what is there. -/
structure CleanedUp (c : Config RegistryOp RegistryLock SubscriptionRegistry RegistryResult) :
    Prop where
  decrements_le : ∀ m ∈ c.state.metricsHandler, m.decrements ≤ m.increments
  absent : c.Quiet → ∀ scope κ, c.state.connections.lookup κ.1 = none →
    SubscriptionIndex.Absent κ (c.state.indexOf scope)
  counted : c.Quiet → ∀ m ∈ c.state.metricsHandler,
    m.increments = m.decrements + c.state.totalSubscriptions

/-- **Cleanup is exact when the locks are taken in time**: in every interleaving of the methods in
which each connection id is registered once, and an add, a removal or a cleanup that finds
something under the lock of a connection finds the connection registered and no cleanup about to
remove it. -/
theorem cleanup_exact (sdk : Sdk) (metricsHandler : Option SubscriptionMetrics)
    (channels : ChannelRef → Channel) (hzero : ∀ m ∈ metricsHandler, m = ⟨0, 0⟩)
    (c : Config RegistryOp RegistryLock SubscriptionRegistry RegistryResult)
    (hrun : Run (fun _ => RegistryOp.code sdk) wellTimed (registryPool metricsHandler channels) c) :
    CleanedUp c := by
  have hinitial : ledgerProtocol.Holds Fitting (registryPool metricsHandler channels) [] :=
    Protocol.Holds.initial (ledger_new metricsHandler channels hzero)
  have hallowed : ∀ (c : Config RegistryOp RegistryLock SubscriptionRegistry RegistryResult) γ i l,
      ledgerProtocol.Holds Fitting c γ → wellTimed c (.step i) → c.At i l →
      ledgerProtocol.allowed γ i c.state l := by
    rintro c γ i l h hok ⟨call, hcall, hlabel⟩
    obtain ⟨hregisters, hintime⟩ := hok call hcall l hlabel
    cases l with
    | insertConnection id => exact hregisters
    | subscriptions conn use =>
      intro hfinds
      obtain ⟨hcurrent, hspared⟩ := hintime hfinds
      refine ⟨hcurrent, fun j id ids scope hj => ?_⟩
      rintro rfl
      obtain ⟨call', hcall', hfit⟩ := h.call hj
      exact hspared call' (List.mem_of_getElem? hcall') (hfit.doomed _ ids scope rfl)
    | _ => trivial
  obtain ⟨γ, hholds, -⟩ := hinitial.run hrun
    (fun c γ op h _ => ⟨.idle, Ledger.start h.inv, keeps_code sdk op c.state⟩) hallowed
  have hquiet : c.Quiet → ∀ (i : ℕ) g, γ[i]? = some g → g = .idle := by
    intro hquiet i g hi
    obtain ⟨⟨op, p⟩, hcall, hfit⟩ := hholds.call hi
    have hended := hquiet _ (List.mem_of_getElem? hcall)
    cases p with
    | done a => exact hfit.ended a rfl
    | act l r e n => exact absurd rfl hended
  refine ⟨fun m hm => Ledger.decrements_le hholds.inv hm, fun h => ?_, fun h => ?_⟩
  · exact (Ledger.quiet hholds.inv (hquiet h)).1
  · exact (Ledger.quiet hholds.inv (hquiet h)).2

/-! ### Late calls -/

instance (id : ConnectionId) (s : SubscriptionRegistry) : Decidable (NeverRegistered id s) :=
  inferInstanceAs (Decidable (∀ n < s.registered, s.conns ⟨id, n⟩ = none))

instance (s : SubscriptionRegistry) (l : RegistryLock) : Decidable (l.Registers s) :=
  match l with
  | .insertConnection id => inferInstanceAs (Decidable (NeverRegistered id s))
  | .connections | .removeConnection _ | .subscriptions _ _ | .release _ | .indexes | .index _ _
  | .metrics | .deliver _ | .channel _ => inferInstanceAs (Decidable True)

instance (conn : ConnRef) (s : SubscriptionRegistry) (use : LockUse) :
    Decidable (use.Finds conn s) :=
  match use with
  | .insert => inferInstanceAs (Decidable True)
  | .remove sub =>
    inferInstanceAs (Decidable (∃ data ∈ s.conns conn, sub ∈ data.subscriptions.keys))
  | .list => inferInstanceAs (Decidable (∃ data ∈ s.conns conn, data.subscriptions.keys ≠ []))

instance (c : Config RegistryOp RegistryLock SubscriptionRegistry RegistryResult)
    (l : RegistryLock) : Decidable (l.InTime c) :=
  match l with
  | .subscriptions conn use => inferInstanceAs (Decidable (use.Finds conn c.state →
    c.state.connections.lookup conn.id = some conn ∧
      ∀ call ∈ c.calls, call.label? ≠ some (.removeConnection conn.id)))
  | .connections | .insertConnection _ | .removeConnection _ | .release _ | .indexes | .index _ _
  | .metrics | .deliver _ | .channel _ => inferInstanceAs (Decidable True)

instance (c : Config RegistryOp RegistryLock SubscriptionRegistry RegistryResult)
    (m : Move RegistryOp) : Decidable (wellTimed c m) :=
  match m with
  | .start _ => inferInstanceAs (Decidable True)
  | .step i => inferInstanceAs (Decidable (∀ call ∈ c.calls[i]?, ∀ l ∈ call.label?,
    l.Registers c.state ∧ l.InTime c))

/-- The subscription that a call adds. -/
def RegistryOp.addedKey? : RegistryOp → Option Key
  | .addSubscription id sub _ => some (id, sub)
  | _ => none

/-- Each connection id is registered once, and each subscription is added once. -/
def onceEach (c : Config RegistryOp RegistryLock SubscriptionRegistry RegistryResult) :
    Move RegistryOp → Prop
  | .start op => ∀ κ ∈ op.addedKey?, ∀ call ∈ c.calls, call.op.addedKey? ≠ some κ
  | .step i => ∀ call ∈ c.calls[i]?, ∀ l ∈ call.label?, l.Registers c.state

instance (c : Config RegistryOp RegistryLock SubscriptionRegistry RegistryResult)
    (m : Move RegistryOp) : Decidable (onceEach c m) :=
  match m with
  | .start op => inferInstanceAs (Decidable (∀ κ ∈ op.addedKey?, ∀ call ∈ c.calls,
    call.op.addedKey? ≠ some κ))
  | .step i => inferInstanceAs (Decidable (∀ call ∈ c.calls[i]?, ∀ l ∈ call.label?,
    l.Registers c.state))

/-- Two cleanups of a connection with a subscription, one after another. -/
theorem cleanup_exact_twice : ∃ c, (registryPool (some ⟨0, 0⟩) unread).play
    (fun _ => RegistryOp.code .sample) wellTimed
      [callAlone (registerAt "alice" 0 .default) 0 1,
        callAlone (.addSubscription "alice" "feed" [Filter.kind 1]) 1 10,
        callAlone (.cleanupConnection "alice") 2 9,
        callAlone (.cleanupConnection "alice") 3 2].flatten = some c ∧ CleanedUp c := by
  obtain ⟨c, hplay⟩ : ∃ c, (registryPool (some ⟨0, 0⟩) unread).play
    (fun _ => RegistryOp.code .sample) wellTimed
      [callAlone (registerAt "alice" 0 .default) 0 1,
        callAlone (.addSubscription "alice" "feed" [Filter.kind 1]) 1 10,
        callAlone (.cleanupConnection "alice") 2 9,
        callAlone (.cleanupConnection "alice") 3 2].flatten = some c := ⟨_, rfl⟩
  exact ⟨c, hplay, cleanup_exact .sample (some ⟨0, 0⟩) unread (by simp) c
    (Config.run_of_play hplay)⟩

/-- A subscription is added to a connection that was cleaned up after it was looked up. -/
theorem late_add_leaks :
    ¬ ∀ (sdk : Sdk) (metricsHandler : Option SubscriptionMetrics) (channels : ChannelRef → Channel),
      (∀ m ∈ metricsHandler, m = ⟨0, 0⟩) →
      ∀ c, Run (fun _ => RegistryOp.code sdk) onceEach (registryPool metricsHandler channels) c →
        CleanedUp c := by
  intro hall
  obtain ⟨c, hplay, hended, hmetrics, hempty⟩ :
      ∃ c, (registryPool (some ⟨0, 0⟩) unread).play (fun _ => RegistryOp.code .sample) onceEach
        [callAlone (registerAt "alice" 0 .default) 0 1,
          callAlone (.addSubscription "alice" "feed" [Filter.kind 1]) 1 1,
          callAlone (.cleanupConnection "alice") 2 4,
          List.replicate 9 (.step 1)].flatten = some c ∧
      (c.calls.all fun call => call.result?.isSome) = true ∧
      c.state.metricsHandler = some ⟨1, 0⟩ ∧ c.state.connections = ∅ :=
    ⟨_, rfl, rfl, rfl, rfl⟩
  have hquiet : c.Quiet := fun call hcall =>
    Option.isSome_iff_ne_none.mp (List.all_eq_true.mp hended call hcall)
  have hcounted := (hall .sample (some ⟨0, 0⟩) unread (by simp) c
    (Config.run_of_play hplay)).counted hquiet ⟨1, 0⟩ hmetrics
  rw [totalSubscriptions, hempty] at hcounted
  cases hcounted

end RelayBuilder
