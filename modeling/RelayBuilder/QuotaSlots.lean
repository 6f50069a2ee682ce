import RelayBuilder.Requests
import RelayBuilder.ProtectedEvents

/-!
# Quota slots and live subscriptions

A connection keeps its subscriptions in two places. Its state holds the ids that use up its quota,
and the registry holds the subscriptions themselves. A REQ reserves the slot first and registers
the subscription last, a CLOSE undoes both, and a broadcast that finds the channel of the connection
full takes all of its subscriptions out of the registry.

So every registered subscription has a slot, and the number of slots is bounded. But a slot need
not have a subscription: a REQ that fails on the way keeps it, and a broadcast leaves all of them.

## Main definitions

* `SubscriptionState.liveIds`, `Meanwhile`
* `QuotaRun`: the REQ and CLOSE messages of a connection, with broadcasts at any point

## Main results

* `slots_cap_subscriptions`: the cap
* `slots_in_step`: when the slots are those of the subscriptions
-/

namespace RelayBuilder

open Interleave Script

namespace SubscriptionState

/-- What the registry holds for the connection. -/
def own (s : SubscriptionState) : Option (AList fun _ : SubscriptionId => List Filter) :=
  s.coordinator.bind fun coordinator => s.registered coordinator.connectionId

/-- The ids that are registered for the connection. -/
def liveIds (s : SubscriptionState) : Finset SubscriptionId :=
  (s.own.map fun subscriptions => subscriptions.keys.toFinset).getD ∅

/-- There is a slot for a subscription: it has one, or there is a free one. -/
def HasSlot (s : SubscriptionState) (sub : SubscriptionId) : Prop :=
  sub ∈ s.quota ∨ ∀ max ∈ s.maxSubscriptions, s.quota.card < max

/-- What other tasks do to the state of a connection: nothing, or its subscriptions are dropped, if
that may happen. Other connections come and go. -/
structure Meanwhile (mayDrop : Prop) (s s' : SubscriptionState) : Prop where
  quota : s'.quota = s.quota
  maxSubscriptions : s'.maxSubscriptions = s.maxSubscriptions
  coordinator : s'.coordinator = s.coordinator
  own : s'.own = s.own ∨ mayDrop ∧ s'.own = none

/-- The questions are answered from the state, and other tasks go on before each of them. -/
def liveAnswers (mayDrop : Prop) : Script.Answers RelayCall.Answer SubscriptionState :=
  fun q s r s' => ∃ s₁, Meanwhile mayDrop s s₁ ∧ answers q s₁ r s'

variable {mayDrop : Prop} {s s' s'' : SubscriptionState} {sub : SubscriptionId}

theorem Meanwhile.refl (s : SubscriptionState) : Meanwhile mayDrop s s := ⟨rfl, rfl, rfl, .inl rfl⟩

theorem Meanwhile.trans (h : Meanwhile mayDrop s s') (h' : Meanwhile mayDrop s' s'') :
    Meanwhile mayDrop s s'' where
  quota := h'.quota.trans h.quota
  maxSubscriptions := h'.maxSubscriptions.trans h.maxSubscriptions
  coordinator := h'.coordinator.trans h.coordinator
  own := by
    obtain hown' | ⟨hdrop, hnone⟩ := h'.own
    · rw [hown']
      exact h.own
    · exact .inr ⟨hdrop, hnone⟩

theorem Meanwhile.liveIds_subset (h : Meanwhile mayDrop s s') : s'.liveIds ⊆ s.liveIds := by
  obtain hown | ⟨-, hnone⟩ := h.own
  · rw [liveIds, liveIds, hown]
  · rw [liveIds, hnone]
    exact Finset.empty_subset _

theorem Meanwhile.own_eq (h : Meanwhile mayDrop s s') (hdrop : ¬ mayDrop) : s'.own = s.own :=
  h.own.resolve_right fun h => hdrop h.1

theorem Meanwhile.liveIds_eq (h : Meanwhile mayDrop s s') (hdrop : ¬ mayDrop) :
    s'.liveIds = s.liveIds := by
  rw [liveIds, liveIds, h.own_eq hdrop]

theorem own_eq {coordinator : SubscriptionCoordinator} (h : s.coordinator = some coordinator) :
    s.own = s.registered coordinator.connectionId := by
  rw [own, h, Option.bind_some]

theorem liveIds_of_own {subscriptions : AList fun _ : SubscriptionId => List Filter}
    (h : s.own = some subscriptions) : s.liveIds = subscriptions.keys.toFinset := by
  rw [liveIds, h]
  rfl

theorem liveIds_of_none (h : s.own = none) : s.liveIds = ∅ := by
  rw [liveIds, h]
  rfl

/-! ### What the questions do -/

/-- `reserve_quota_slot` finds a slot, or refuses. -/
theorem reserveQuotaSlot_cases (s : SubscriptionState) (sub : SubscriptionId) :
    (s.HasSlot sub ∧ s.reserveQuotaSlot sub = .ok (s.reserve sub)) ∨
      (sub ∉ s.quota ∧ ∃ e, s.reserveQuotaSlot sub = .error e) := by
  rw [reserveQuotaSlot]
  split
  · next hmem =>
    exact .inl ⟨.inl hmem, by rw [reserve, Finset.insert_eq_of_mem hmem]⟩
  · next hmem =>
    split
    · next max hmax =>
      split
      · exact .inr ⟨hmem, _, rfl⟩
      · next hfull =>
        refine .inl ⟨.inr fun max' hmax' => ?_, rfl⟩
        obtain rfl := Option.some.inj (hmax.symm.trans hmax')
        exact Nat.lt_of_not_le hfull
    · next hmax =>
      refine .inl ⟨.inr fun max' hmax' => ?_, rfl⟩
      cases hmax.symm.trans hmax'

theorem answers_removeSubscription {coordinator : SubscriptionCoordinator}
    {r : Except Error Unit} (hc : s.coordinator = some coordinator)
    (h : answers (.removeSubscription coordinator.connectionId sub) s r s') :
    s'.quota = s.quota ∧ s'.maxSubscriptions = s.maxSubscriptions ∧
      s'.coordinator = s.coordinator ∧ s'.own = s.own.map (·.erase sub) := by
  rw [own_eq hc]
  simp only [answers] at h
  cases hs : s.registered coordinator.connectionId with
  | none =>
    rw [hs] at h
    obtain ⟨-, rfl⟩ := h
    exact ⟨rfl, rfl, rfl, (own_eq hc).trans hs⟩
  | some subscriptions =>
    rw [hs] at h
    obtain ⟨-, rfl⟩ := h
    exact ⟨rfl, rfl, rfl, (own_eq (s := s.setRegistered _ _) hc).trans (if_pos rfl)⟩

theorem answers_addSubscription {coordinator : SubscriptionCoordinator} {filters : List Filter}
    {r : Except Error Unit} (hc : s.coordinator = some coordinator)
    (h : answers (.addSubscription coordinator.connectionId sub filters) s r s') :
    s'.quota = s.quota ∧ s'.maxSubscriptions = s.maxSubscriptions ∧
      s'.coordinator = s.coordinator ∧ s'.own = s.own.map (·.insert sub filters) := by
  rw [own_eq hc]
  simp only [answers] at h
  cases hs : s.registered coordinator.connectionId with
  | none =>
    rw [hs] at h
    obtain ⟨-, rfl⟩ := h
    exact ⟨rfl, rfl, rfl, (own_eq hc).trans hs⟩
  | some subscriptions =>
    rw [hs] at h
    obtain ⟨-, rfl⟩ := h
    exact ⟨rfl, rfl, rfl, (own_eq (s := s.setRegistered _ _) hc).trans (if_pos rfl)⟩

theorem keys_erase (subscriptions : AList fun _ : SubscriptionId => List Filter)
    (sub : SubscriptionId) :
    (subscriptions.erase sub).keys.toFinset = subscriptions.keys.toFinset.erase sub := by
  ext sub'
  rw [List.mem_toFinset, Finset.mem_erase, List.mem_toFinset]
  exact AList.mem_erase

theorem keys_insert (subscriptions : AList fun _ : SubscriptionId => List Filter)
    (sub : SubscriptionId) (filters : List Filter) :
    (subscriptions.insert sub filters).keys.toFinset =
      insert sub subscriptions.keys.toFinset := by
  ext sub'
  rw [List.mem_toFinset, Finset.mem_insert, List.mem_toFinset]
  exact AList.mem_insert _

theorem Meanwhile.reserve (h : Meanwhile mayDrop s s') (sub : SubscriptionId) :
    Meanwhile mayDrop (s.reserve sub) (s'.reserve sub) where
  quota := congrArg (insert sub) h.quota
  maxSubscriptions := h.maxSubscriptions
  coordinator := h.coordinator
  own := h.own

theorem Meanwhile.hasSlot (h : Meanwhile mayDrop s s') (hslot : s'.HasSlot sub) :
    s.HasSlot sub := by
  rwa [HasSlot, h.quota, h.maxSubscriptions] at hslot

/-! ### What a broadcast does -/

section Broadcast

variable {H : ScopedKey → Option (List Filter)} {registry : SubscriptionRegistry}

/-- The indexes hold filters of a connection only in the scope that it is registered with. -/
def InScope (H : ScopedKey → Option (List Filter))
    (registry : SubscriptionRegistry) : Prop :=
  ∀ scope κ data, (H (scope, κ)).getD [] ≠ [] → registry.connection? κ.1 = some data →
    data.subdomain = scope

/-- Connections that are not as they were have been dropped. -/
def OnlyDrops (registry registry' : SubscriptionRegistry) : Prop :=
  ∀ id, registry'.connection? id = registry.connection? id ∨ registry'.connection? id = none

theorem getD_cleared (id : ConnectionId) (k : ScopedKey)
    (h : (SubscriptionRegistry.cleared H registry id k).getD [] ≠ []) : (H k).getD [] ≠ [] := by
  rw [SubscriptionRegistry.cleared] at h
  cases hconn : registry.connection? id with
  | none =>
    rw [hconn] at h
    exact h
  | some data =>
    rw [hconn] at h
    simp only [SubscriptionRegistry.clearing] at h
    split at h
    · exact absurd rfl h
    · exact h

theorem keptByDistribution_onlyDrops (registry : SubscriptionRegistry) :
    SubscriptionRegistry.KeptByDistribution fun H registry' =>
      SubscriptionRegistry.Settled H registry' ∧ InScope H registry' ∧
        OnlyDrops registry registry' where
  live h := h.1.live
  idle h := h.1.idle
  inScope h := h.2.1
  same h hsame hlive := by
    refine ⟨h.1.same hsame hlive, fun scope κ data hk hdata => ?_, fun id => ?_⟩
    · rw [hsame.connection?] at hdata
      exact h.2.1 scope κ data hk hdata
    · rw [hsame.connection?]
      exact h.2.2 id
  cleanup h hremoved hlive := by
    refine ⟨h.1.removed hremoved hlive, fun scope κ data hk hdata => ?_, fun id' => ?_⟩
    · rw [SubscriptionRegistry.connection?_removed hremoved] at hdata
      split at hdata
      · cases hdata
      · exact h.2.1 scope κ data (getD_cleared _ _ hk) hdata
    · rw [SubscriptionRegistry.connection?_removed hremoved]
      split
      · exact .inr rfl
      · exact h.2.2 id'

/-- **A broadcast, alone,** is one of the things that may happen to a connection meanwhile. -/
theorem distributeEvent_meanwhile {sdk : Sdk} (hsettled : SubscriptionRegistry.Settled H registry)
    (hscope : InScope H registry) (hof : s.Of registry) (event : Event) (scope : Scope) :
    (SubscriptionRegistry.distributeEventIndexed sdk event scope).Alone
      (SubscriptionRegistry.DeliversTo sdk event scope)
      (fun _ registry' => ∃ s', Meanwhile True s s' ∧ s'.Of registry') registry := by
  refine (SubscriptionRegistry.distributeEventIndexed_alone (keptByDistribution_onlyDrops registry)
    ⟨hsettled, hscope, fun _ => .inl rfl⟩ event scope).post ?_
  rintro _ registry' ⟨H', -, -, hdrops⟩
  let s₁ : SubscriptionState := { s with
    registered := fun id =>
      (registry'.connection? id).map ConnectionSubscriptions.subscriptions }
  refine ⟨s₁, ⟨rfl, rfl, rfl, ?_⟩, fun _ => rfl⟩
  match hcoordinator : s.coordinator with
  | none =>
    have hnone : s₁.own = none := by rw [own, show s₁.coordinator = none from hcoordinator]; rfl
    exact .inr ⟨trivial, hnone⟩
  | some coordinator =>
    have hown := own_eq (s := s₁) hcoordinator
    rw [hown, own_eq hcoordinator, hof]
    obtain hsame | hnone := hdrops coordinator.connectionId
    · exact .inl (congrArg (Option.map ConnectionSubscriptions.subscriptions) hsame)
    · exact .inr ⟨trivial, congrArg (Option.map ConnectionSubscriptions.subscriptions) hnone⟩

end Broadcast

end SubscriptionState

open SubscriptionState

/-- The question is neither about a slot nor about a subscription. -/
def RelayCall.KeepsSubscriptions : RelayCall → Prop
  | .reserveQuotaSlot _ | .releaseQuotaSlot _ | .addSubscription _ _ _
  | .removeSubscription _ _ => False
  | _ => True

variable {mayDrop : Prop} {s s' s'' : SubscriptionState} {sub : SubscriptionId}
  {filters : List Filter} {scope : Scope} {t t' : RelayHistory}

theorem answers_keepsSubscriptions (call : RelayCall) {r : call.Answer}
    (hcall : call.KeepsSubscriptions) (h : liveAnswers mayDrop call s r s') :
    Meanwhile mayDrop s s' := by
  obtain ⟨s₁, hs₁, hr⟩ := h
  have heq : s' = s₁ := by
    cases call with
    | reserveQuotaSlot | releaseQuotaSlot | addSubscription | removeSubscription =>
      exact hcall.elim
    | subscriptionCoordinator => exact hr.2
    | _ => exact hr
  rwa [heq]

/-- A script that only asks other questions leaves the subscriptions to the other tasks. -/
theorem exec_keepsSubscriptions {α : Type} {p : Relay α} {a : α}
    (hexec : Exec (liveAnswers mayDrop) p s t a s')
    (ht : ∀ asked ∈ t, asked.1.KeepsSubscriptions) : Meanwhile mayDrop s s' := by
  induction hexec with
  | done a s => exact .refl s
  | ask r hr _ ih =>
    obtain ⟨hasked, ht⟩ := List.forall_mem_cons.mp ht
    exact (answers_keepsSubscriptions _ hasked hr).trans (ih ht)

/-! ### REQ and CLOSE -/

theorem Asked.Fetches.keepsSubscriptions {asked : Asked} (h : asked.Fetches) :
    asked.1.KeepsSubscriptions := by
  obtain ⟨call, r⟩ := asked
  cases call with
  | reserveQuotaSlot | releaseQuotaSlot | addSubscription | removeSubscription => exact h.elim
  | _ => trivial

/-- Answering from the store leaves the subscriptions alone, and when it fails, a query failed or
EOSE was refused. -/
theorem ensures_processHistoricalEvents (coordinator : SubscriptionCoordinator)
    (sub : SubscriptionId) (filters : List Filter) (scope : Scope) :
    (coordinator.processHistoricalEvents sub filters scope).Ensures fun t r =>
      (∀ asked ∈ t, asked.1.KeepsSubscriptions) ∧
        (r.isOk = false → QueryFailed t ∨ .endOfStoredEvents sub ∈ refused t) := by
  refine ensures_bind.mpr ((fetchesOnly_processFilters _ _ _ _ _ _).mono fun t r hfetched => ?_)
  have hkeeps : ∀ asked ∈ t, asked.1.KeepsSubscriptions :=
    fun asked hasked => (hfetched.every asked hasked).keepsSubscriptions
  match r with
  | .error e =>
    refine ensures_done.mpr ⟨by rwa [List.append_nil], fun _ => .inl ?_⟩
    rw [List.append_nil]
    exact hfetched.failed.mpr rfl
  | .ok () =>
    refine ensures_ask.mpr fun sent => ?_
    match sent with
    | .ok () =>
      refine ensures_done.mpr ⟨?_, nofun⟩
      exact List.forall_mem_append.mpr ⟨hkeeps, List.forall_mem_singleton.mpr trivial⟩
    | .error e =>
      refine ensures_request_bind.mpr fun text => ensures_done.mpr ⟨?_, fun _ => .inr ?_⟩
      · exact List.forall_mem_append.mpr ⟨hkeeps, List.forall_mem_cons.mpr
          ⟨trivial, List.forall_mem_singleton.mpr trivial⟩⟩
      · exact mem_refused.mpr ⟨_, _, e, List.mem_append_right t (List.mem_cons_self ..), rfl⟩

theorem FailsReserved.of_subset (h : FailsReserved sub t) (hsub : t ⊆ t') :
    FailsReserved sub t' := by
  obtain hnone | ⟨asked, hasked, hfailed⟩ | hrefused := h
  · exact .inl (hsub hnone)
  · exact .inr (.inl ⟨asked, hsub hasked, hfailed⟩)
  · obtain ⟨ch, packet, e, hasked, hpacket⟩ := mem_refused.mp hrefused
    exact .inr (.inr (mem_refused.mpr ⟨ch, packet, e, hsub hasked, hpacket⟩))

/-- A subscription is registered: its id is added to those of the connection, unless they are
dropped meanwhile. -/
structure Registers (mayDrop : Prop) (sub : SubscriptionId) (s s' : SubscriptionState) : Prop where
  quota : s'.quota = s.quota
  maxSubscriptions : s'.maxSubscriptions = s.maxSubscriptions
  coordinator : s'.coordinator = s.coordinator
  connected : s.coordinator ≠ none
  liveIds_subset : s'.liveIds ⊆ insert sub s.liveIds
  kept : ¬ mayDrop → s.own ≠ none → s'.own ≠ none ∧ s'.liveIds = insert sub s.liveIds

theorem exec_addSubscription_live {coordinator : SubscriptionCoordinator} {r : Except Error Unit}
    (hc : s.coordinator = some coordinator)
    (hexec : Exec (liveAnswers mayDrop) (coordinator.addSubscription sub filters) s t r s') :
    Registers mayDrop sub s s' := by
  obtain ⟨r₀, s₁, t₁, rfl, ⟨s₂, hs₂, h₁⟩, h⟩ := exec_request_bind.mp hexec
  obtain ⟨r₁, s₃, t₃, rfl, ⟨s₄, hs₄, h₃⟩, h⟩ := exec_ask.mp h
  obtain ⟨rfl, rfl, rfl⟩ := exec_done.mp h
  have hc₂ := hs₂.coordinator.trans hc
  obtain ⟨hquota₁, hmax₁, hcoordinator₁, hown₁⟩ := answers_removeSubscription hc₂ h₁
  have hc₄ := hs₄.coordinator.trans (hcoordinator₁.trans hc₂)
  obtain ⟨hquota₃, hmax₃, hcoordinator₃, hown₃⟩ := answers_addSubscription hc₄ h₃
  refine ⟨hquota₃.trans (hs₄.quota.trans (hquota₁.trans hs₂.quota)),
    hmax₃.trans (hs₄.maxSubscriptions.trans (hmax₁.trans hs₂.maxSubscriptions)),
    hcoordinator₃.trans (hs₄.coordinator.trans (hcoordinator₁.trans hs₂.coordinator)),
    fun hnone => (nomatch hc.symm.trans hnone), ?_, fun hdrop hown => ?_⟩
  · have hadd : s'.liveIds ⊆ insert sub s₄.liveIds := by
      cases hown₄ : s₄.own with
      | none =>
        rw [hown₄] at hown₃
        rw [liveIds_of_none hown₃]
        exact Finset.empty_subset _
      | some subscriptions =>
        rw [hown₄] at hown₃
        rw [liveIds_of_own hown₃, liveIds_of_own hown₄, keys_insert]
    have hremove : s₁.liveIds ⊆ s₂.liveIds := by
      cases hown₂ : s₂.own with
      | none =>
        rw [hown₂] at hown₁
        rw [liveIds_of_none hown₁]
        exact Finset.empty_subset _
      | some subscriptions =>
        rw [hown₂] at hown₁
        rw [liveIds_of_own hown₁, liveIds_of_own hown₂, keys_erase]
        exact Finset.erase_subset _ _
    exact hadd.trans (Finset.insert_subset_insert _
      ((hs₄.liveIds_subset.trans hremove).trans hs₂.liveIds_subset))
  · obtain ⟨subscriptions, hsome⟩ := Option.ne_none_iff_exists'.mp hown
    have hown₂ := (hs₂.own_eq hdrop).trans hsome
    rw [hown₂] at hown₁
    have hown₄ := (hs₄.own_eq hdrop).trans hown₁
    rw [hown₄] at hown₃
    refine ⟨fun hnone => (nomatch hown₃.symm.trans hnone), ?_⟩
    rw [liveIds_of_own hown₃, liveIds_of_own hsome, keys_insert, keys_erase]
    ext sub'
    by_cases hsub : sub' = sub <;> simp [hsub]

/-- What a REQ does to the slots and the subscriptions: nothing, if it is refused before it has a
slot; it keeps the slot, if it fails after that; or it registers the subscription. -/
inductive ReqOutcome (mayDrop : Prop) (sub : SubscriptionId) (s : SubscriptionState)
    (t : RelayHistory) (s' : SubscriptionState) : Prop where
  | untouched (h : Meanwhile mayDrop s s')
  | keepsSlot (hslot : s.HasSlot sub) (hfails : FailsReserved sub t)
    (h : Meanwhile mayDrop (s.reserve sub) s')
  | registers (hslot : s.HasSlot sub) {s₁ : SubscriptionState}
    (h : Meanwhile mayDrop (s.reserve sub) s₁) (hregisters : Registers mayDrop sub s₁ s')

theorem exec_handleSubscription_live {r : Except Error Unit}
    (hexec : Exec (liveAnswers mayDrop)
      (RelayMiddleware.handleSubscription scope sub filters) s t r s') :
    ReqOutcome mayDrop sub s t s' ∧
      (sub ∈ s.quota → ∀ sub' e, (⟨.reserveQuotaSlot sub', .error e⟩ : Asked) ∉ t) := by
  obtain ⟨context, s₁, t₁, rfl, h₁, h⟩ := exec_request_bind.mp hexec
  have hs₁ : Meanwhile mayDrop s s₁ := answers_keepsSubscriptions .eventContext trivial h₁
  obtain ⟨verified, s₂, t₂, rfl, h₂, h⟩ := exec_request_bind.mp h
  have hs₂ := hs₁.trans (answers_keepsSubscriptions (.verifyFilters _ _) trivial h₂)
  cases verified with
  | error e =>
    obtain ⟨rfl, rfl, rfl⟩ := exec_done.mp h
    exact ⟨.untouched hs₂, fun _ _ _ => by simp⟩
  | ok _ =>
    obtain ⟨reservation, s₃, t₃, rfl, ⟨s₄, hs₄, h₃⟩, h⟩ := exec_request_bind.mp h
    replace hs₄ := hs₂.trans hs₄
    simp only [answers] at h₃
    obtain ⟨hslot, heq⟩ | ⟨hnot, e, heq⟩ := reserveQuotaSlot_cases s₄ sub
    · rw [heq] at h₃
      obtain ⟨rfl, rfl⟩ := h₃
      replace hslot := hs₄.hasSlot hslot
      have hreserved := hs₄.reserve sub
      obtain ⟨coordinator, s₅, t₅, rfl, h₅, h⟩ := exec_request_bind.mp h
      replace hreserved :=
        hreserved.trans (answers_keepsSubscriptions .subscriptionCoordinator trivial h₅)
      obtain ⟨s₆, hs₆, rfl, rfl⟩ := h₅
      cases hcoordinator : s₅.coordinator with
      | none =>
        rw [hcoordinator] at h
        obtain ⟨rfl, rfl, rfl⟩ := exec_done.mp h
        exact ⟨.keepsSlot hslot (.inl (by simp)) hreserved, fun _ _ _ => by simp⟩
      | some coordinator =>
        rw [hcoordinator] at h
        obtain ⟨t₇, result, s₇, t₈, rfl, h₇, h⟩ := exec_bind.mp h
        obtain ⟨hkeeps, hfails⟩ := ensures_processHistoricalEvents _ _ _ _ _ _ h₇.runs
        have hs₇ := exec_keepsSubscriptions h₇ hkeeps
        have hnot₇ : ∀ sub' e, (⟨.reserveQuotaSlot sub', .error e⟩ : Asked) ∉ t₇ :=
          fun _ _ hmem => hkeeps _ hmem
        cases result with
        | error e =>
          obtain ⟨rfl, rfl, rfl⟩ := exec_done.mp h
          refine ⟨.keepsSlot hslot (FailsReserved.of_subset (.inr (hfails rfl)) ?_)
            (hreserved.trans hs₇), fun _ _ _ => by simp [hnot₇]⟩
          exact fun asked hasked => by simp [hasked]
        | ok _ =>
          have hregisters := exec_addSubscription_live (hs₇.coordinator.trans hcoordinator) h
          refine ⟨.registers hslot (hreserved.trans hs₇) hregisters, fun _ sub' e => ?_⟩
          obtain ⟨r₀, s₈, t₉, rfl, -, h₉⟩ := exec_request_bind.mp h
          obtain ⟨r₁, s₉, t₁₀, rfl, -, h₁₀⟩ := exec_ask.mp h₉
          obtain ⟨rfl, -, -⟩ := exec_done.mp h₁₀
          simp [hnot₇]
    · rw [heq] at h₃
      obtain ⟨rfl, rfl⟩ := h₃
      obtain ⟨rfl, rfl, rfl⟩ := exec_done.mp h
      exact ⟨.untouched hs₄, fun hmem => absurd (hs₄.quota ▸ hmem) hnot⟩

/-- What `process_inbound` does with a CLOSE, before it hands on. -/
def closeSubscription (sub : SubscriptionId) : Relay Unit := do
  let _ ← Script.request (RelayCall.releaseQuotaSlot sub)
  match ← Script.request RelayCall.subscriptionCoordinator with
  | some coordinator => coordinator.removeSubscription sub
  | none => pure ()

theorem processInbound_close (kinds : KindRanges) (sender : MessageSender) (subdomain : Scope)
    (next : Option ClientMessage → Relay (Except Failure Unit)) :
    RelayMiddleware.processInbound kinds ⟨some (.close sub), sender, subdomain, next⟩ =
      (closeSubscription sub).bind fun _ => next none := by
  rw [RelayMiddleware.processInbound, closeSubscription]
  simp only [bind_eq, bind_assoc]
  congr 1
  funext _
  congr 1
  funext coordinator
  cases coordinator <;> rfl

/-- What a CLOSE does to the slots and the subscriptions. -/
structure CloseOutcome (mayDrop : Prop) (sub : SubscriptionId) (s s' : SubscriptionState) :
    Prop where
  quota : s'.quota = s.quota.erase sub
  maxSubscriptions : s'.maxSubscriptions = s.maxSubscriptions
  coordinator : s'.coordinator = s.coordinator
  liveIds_subset : s'.liveIds ⊆ s.liveIds.erase sub
  kept : ¬ mayDrop → (s'.own = none ↔ s.own = none) ∧ s'.liveIds = s.liveIds.erase sub

theorem exec_closeSubscription {r : Unit}
    (hexec : Exec (liveAnswers mayDrop) (closeSubscription sub) s t r s') :
    CloseOutcome mayDrop sub s s' := by
  obtain ⟨released, s₁, t₁, rfl, ⟨s₂, hs₂, -, rfl⟩, h⟩ := exec_request_bind.mp hexec
  obtain ⟨coordinator, s₃, t₃, rfl, h₃, h⟩ := exec_request_bind.mp h
  have hs₃ := answers_keepsSubscriptions .subscriptionCoordinator trivial h₃
  obtain ⟨s₄, hs₄, rfl, rfl⟩ := h₃
  have hquota₃ : s₃.quota = s.quota.erase sub := by rw [hs₃.quota, ← hs₂.quota]
  have hmax₃ := hs₃.maxSubscriptions.trans hs₂.maxSubscriptions
  have hcoordinator₃ := hs₃.coordinator.trans hs₂.coordinator
  have hsubset₃ : s₃.liveIds ⊆ s.liveIds := hs₃.liveIds_subset.trans hs₂.liveIds_subset
  have hown₃ : ¬ mayDrop → s₃.own = s.own :=
    fun hdrop => (hs₃.own_eq hdrop).trans (hs₂.own_eq hdrop)
  match hcoordinator : s₃.coordinator with
  | none =>
    rw [hcoordinator] at h
    obtain ⟨rfl, -, rfl⟩ := exec_done.mp h
    have hnone : s'.own = none := by rw [own, hcoordinator, Option.bind_none]
    refine ⟨hquota₃, hmax₃, hcoordinator₃, ?_, fun hdrop => ⟨by rw [hown₃ hdrop], ?_⟩⟩
    · rw [liveIds_of_none hnone]
      exact Finset.empty_subset _
    · rw [liveIds_of_none hnone, liveIds_of_none ((hown₃ hdrop).symm.trans hnone),
        Finset.erase_empty]
  | some coordinator =>
    rw [hcoordinator] at h
    obtain ⟨r₀, s₅, t₅, rfl, ⟨s₆, hs₆, h₅⟩, h⟩ := exec_request_bind.mp h
    obtain ⟨rfl, -, rfl⟩ := exec_done.mp h
    obtain ⟨hquota₅, hmax₅, hcoordinator₅, hown₅⟩ :=
      answers_removeSubscription (hs₆.coordinator.trans hcoordinator) h₅
    refine ⟨(hquota₅.trans hs₆.quota).trans hquota₃,
      (hmax₅.trans hs₆.maxSubscriptions).trans hmax₃,
      (hcoordinator₅.trans hs₆.coordinator).trans hcoordinator₃, ?_, fun hdrop => ?_⟩
    · refine Finset.Subset.trans ?_ (Finset.erase_subset_erase sub
        (hs₆.liveIds_subset.trans hsubset₃))
      cases hown₆ : s₆.own with
      | none =>
        rw [hown₆] at hown₅
        rw [liveIds_of_none hown₅]
        exact Finset.empty_subset _
      | some subscriptions =>
        rw [hown₆] at hown₅
        rw [liveIds_of_own hown₅, liveIds_of_own hown₆, keys_erase]
    · have hown₆ := (hs₆.own_eq hdrop).trans (hown₃ hdrop)
      cases hown : s.own with
      | none =>
        rw [hown₆, hown] at hown₅
        exact ⟨iff_of_true hown₅ rfl, by
          rw [liveIds_of_none hown₅, liveIds_of_none hown, Finset.erase_empty]⟩
      | some subscriptions =>
        rw [hown₆, hown] at hown₅
        exact ⟨iff_of_false (fun hnone => nomatch hown₅.symm.trans hnone) nofun, by
          rw [liveIds_of_own hown₅, liveIds_of_own hown, keys_erase]⟩

/-! ### The chain -/

/-- A middleware that hands its message on or drops it, and touches neither the slots nor the
subscriptions. -/
abbrev LeavesSubscriptions (middleware : InboundMiddleware) : Prop :=
  AroundNext anyAnswer RelayCall.KeepsSubscriptions middleware

theorem leavesSubscriptions_errorHandling :
    LeavesSubscriptions ErrorHandlingMiddleware.processInbound :=
  aroundNext_errorHandling_of_send fun _ _ _ => trivial

variable {outer inside : List InboundMiddleware} {channel : ChannelRef} {subdomain : Scope}
  {message : Option ClientMessage} {r : Except Failure Unit} {kinds : KindRanges}

/-- Such middlewares around the rest of a chain. -/
theorem around_leavesSubscriptions (h : ∀ m ∈ outer, LeavesSubscriptions m) (channel : ChannelRef)
    (subdomain : Scope) (rest : List InboundMiddleware) (message : Option ClientMessage) :
    Around anyAnswer RelayCall.KeepsSubscriptions (fun m => m = message ∨ m = none)
      (processInboundChain channel subdomain rest)
      (processInboundChain channel subdomain (outer ++ rest) message) :=
  around_chain (fun _ => True) trivial (fun m hm ctx _ => h m hm ctx) channel subdomain rest trivial

/-- A relation that the questions of other middlewares keep, and that composes. -/
structure SubscriptionRule (mayDrop : Prop)
    (R : SubscriptionState → RelayHistory → SubscriptionState → Prop) : Prop where
  nil : ∀ s, R s [] s
  append : ∀ s t s' t' s'', R s t s' → R s' t' s'' → R s (t ++ t') s''
  ask : ∀ (call : RelayCall) s (r : call.Answer) s', call.KeepsSubscriptions →
    Meanwhile mayDrop s s' → R s [⟨call, r⟩] s'

variable {R : SubscriptionState → RelayHistory → SubscriptionState → Prop}

/-- The middlewares inside keep it. -/
theorem SubscriptionRule.inner (hR : SubscriptionRule mayDrop R)
    (hi : ∀ m ∈ inside, LeavesSubscriptions m)
    (hexec : Exec (liveAnswers mayDrop) (processInboundChain channel subdomain inside message)
      s t r s') : R s t s' := by
  have haround := around_leavesSubscriptions hi channel subdomain [] message
  rw [List.append_nil] at haround
  refine haround.exec (R := R) (fun _ _ _ _ _ => trivial) hR.nil hR.append
    (fun call s r s' hcall hr => hR.ask call s r s' hcall (answers_keepsSubscriptions _ hcall hr))
    (fun _ s t r s' _ h => ?_) hexec
  obtain ⟨rfl, -, rfl⟩ := exec_done.mp h
  exact hR.nil s'

/-- The whole chain keeps it, if `RelayMiddleware` does. -/
theorem SubscriptionRule.chain (hR : SubscriptionRule mayDrop R)
    (ho : ∀ m ∈ outer, LeavesSubscriptions m) (hi : ∀ m ∈ inside, LeavesSubscriptions m)
    (hrelay : ∀ s t r s', Exec (liveAnswers mayDrop) (processInboundChain channel subdomain
      (RelayMiddleware.processInbound kinds :: inside) message) s t r s' → R s t s')
    (hexec : Exec (liveAnswers mayDrop) (processInboundChain channel subdomain
      (outer ++ RelayMiddleware.processInbound kinds :: inside) message) s t r s') : R s t s' := by
  refine (around_leavesSubscriptions ho channel subdomain _ message).exec (R := R)
    (fun _ _ _ _ _ => trivial) hR.nil hR.append
    (fun call s r s' hcall hr => hR.ask call s r s' hcall (answers_keepsSubscriptions _ hcall hr))
    (fun message' s t r s' hmessage' h => ?_) hexec
  obtain rfl | rfl := hmessage'
  · exact hrelay s t r s' h
  · exact hR.inner hi h

/-- A REQ in the chain. -/
theorem SubscriptionRule.req (hR : SubscriptionRule mayDrop R)
    (ho : ∀ m ∈ outer, LeavesSubscriptions m) (hi : ∀ m ∈ inside, LeavesSubscriptions m)
    (hreq : ∀ s t s', ReqOutcome mayDrop sub s t s' →
      (sub ∈ s.quota → ∀ sub' e, (⟨.reserveQuotaSlot sub', .error e⟩ : Asked) ∉ t) → R s t s')
    (hexec : Exec (liveAnswers mayDrop) (processInboundChain channel subdomain
      (outer ++ RelayMiddleware.processInbound kinds :: inside) (some (.req sub filters)))
      s t r s') : R s t s' := by
  refine hR.chain ho hi (fun s t r s' h => ?_) hexec
  obtain ⟨t₁, result, s₁, t₂, rfl, h₁, h₂⟩ := exec_bind.mp h
  obtain ⟨t₃, result', s₃, t₄, rfl, h₃, h₄⟩ := exec_bind.mp h₁
  obtain ⟨rfl, rfl, rfl⟩ := exec_done.mp h₄
  rw [List.append_nil]
  obtain ⟨houtcome, hnever⟩ := exec_handleSubscription_live h₃
  refine hR.append _ _ _ _ _ (hreq _ _ _ houtcome hnever) ?_
  match result' with
  | .ok () => exact hR.inner hi h₂
  | .error e =>
    obtain ⟨rfl, -, rfl⟩ := exec_done.mp h₂
    exact hR.nil _

/-- A CLOSE in the chain. -/
theorem SubscriptionRule.close (hR : SubscriptionRule mayDrop R)
    (ho : ∀ m ∈ outer, LeavesSubscriptions m) (hi : ∀ m ∈ inside, LeavesSubscriptions m)
    (hclose : ∀ s t s', CloseOutcome mayDrop sub s s' → R s t s')
    (hexec : Exec (liveAnswers mayDrop) (processInboundChain channel subdomain
      (outer ++ RelayMiddleware.processInbound kinds :: inside) (some (.close sub)))
      s t r s') : R s t s' := by
  refine hR.chain ho hi (fun s t r s' h => ?_) hexec
  rw [processInboundChain, processInbound_close] at h
  obtain ⟨t₁, result, s₁, t₂, rfl, h₁, h₂⟩ := exec_bind.mp h
  exact hR.append _ _ _ _ _ (hclose _ _ _ (exec_closeSubscription h₁)) (hR.inner hi h₂)

/-! ### The cap -/

/-- Every subscription has a slot, and there are at most so many slots. -/
structure Capped (max : ℕ) (s : SubscriptionState) : Prop where
  maxSubscriptions : s.maxSubscriptions = some max
  liveIds : s.liveIds ⊆ s.quota
  card : s.quota.card ≤ max

theorem Capped.meanwhile {max : ℕ} (h : Capped max s) (h' : Meanwhile mayDrop s s') :
    Capped max s' where
  maxSubscriptions := h'.maxSubscriptions.trans h.maxSubscriptions
  liveIds := by
    rw [h'.quota]
    exact h'.liveIds_subset.trans h.liveIds
  card := by
    rw [h'.quota]
    exact h.card

theorem Capped.reserve {max : ℕ} (h : Capped max s) (hslot : s.HasSlot sub) :
    Capped max (s.reserve sub) where
  maxSubscriptions := h.maxSubscriptions
  liveIds := h.liveIds.trans (Finset.subset_insert _ _)
  card := by
    obtain hmem | hfree := hslot
    · rw [SubscriptionState.reserve, Finset.insert_eq_of_mem hmem]
      exact h.card
    · exact (Finset.card_insert_le _ _).trans (hfree max h.maxSubscriptions)

theorem Capped.registers {max : ℕ} (h : Capped max s) (hmem : sub ∈ s.quota)
    (h' : Registers mayDrop sub s s') : Capped max s' where
  maxSubscriptions := h'.maxSubscriptions.trans h.maxSubscriptions
  liveIds := by
    rw [h'.quota]
    exact h'.liveIds_subset.trans (Finset.insert_subset hmem h.liveIds)
  card := by
    rw [h'.quota]
    exact h.card

theorem Capped.close {max : ℕ} (h : Capped max s) (h' : CloseOutcome mayDrop sub s s') :
    Capped max s' where
  maxSubscriptions := h'.maxSubscriptions.trans h.maxSubscriptions
  liveIds := by
    rw [h'.quota]
    exact h'.liveIds_subset.trans (Finset.erase_subset_erase sub h.liveIds)
  card := by
    rw [h'.quota]
    exact (Finset.card_le_card (Finset.erase_subset _ _)).trans h.card

theorem ReqOutcome.capped {max : ℕ} (h : ReqOutcome mayDrop sub s t s') (hs : Capped max s) :
    Capped max s' := by
  cases h with
  | untouched h => exact hs.meanwhile h
  | keepsSlot hslot _ h => exact (hs.reserve hslot).meanwhile h
  | registers hslot h hregisters =>
    refine ((hs.reserve hslot).meanwhile h).registers ?_ hregisters
    rw [h.quota]
    exact Finset.mem_insert_self _ _

/-- A slot stays with its subscription. -/
theorem ReqOutcome.quota_subset (h : ReqOutcome mayDrop sub s t s') : s.quota ⊆ s'.quota := by
  cases h with
  | untouched h => rw [h.quota]
  | keepsSlot _ _ h =>
    rw [h.quota]
    exact Finset.subset_insert _ _
  | registers _ h hregisters =>
    rw [hregisters.quota, h.quota]
    exact Finset.subset_insert _ _

/-- What a message keeps of the cap. A subscription that has a slot is not refused another. -/
theorem subscriptionRule_capped (mayDrop : Prop) (max : ℕ) (sub : SubscriptionId) :
    SubscriptionRule mayDrop fun s t s' => Capped max s → Capped max s' ∧
      (sub ∈ s.quota → sub ∈ s'.quota ∧
        ∀ sub' e, (⟨.reserveQuotaSlot sub', .error e⟩ : Asked) ∉ t) where
  nil s hs := ⟨hs, fun hmem => ⟨hmem, fun _ _ => List.not_mem_nil⟩⟩
  append s t s' t' s'' h h' hs := by
    obtain ⟨hs', hmem'⟩ := h hs
    obtain ⟨hs'', hmem''⟩ := h' hs'
    refine ⟨hs'', fun hmem => ⟨(hmem'' (hmem' hmem).1).1, fun sub' e hasked => ?_⟩⟩
    obtain hasked | hasked := List.mem_append.mp hasked
    · exact (hmem' hmem).2 sub' e hasked
    · exact (hmem'' (hmem' hmem).1).2 sub' e hasked
  ask call s r s' hcall h hs := by
    refine ⟨hs.meanwhile h, fun hmem => ⟨h.quota ▸ hmem, fun sub' e hasked => ?_⟩⟩
    cases List.mem_singleton.mp hasked
    exact hcall

/-- The same for a message that closes a subscription. -/
theorem subscriptionRule_closeCapped (mayDrop : Prop) (max : ℕ) :
    SubscriptionRule mayDrop fun s _ s' => Capped max s → Capped max s' where
  nil _ hs := hs
  append _ _ _ _ _ h h' hs := h' (h hs)
  ask _ _ _ _ _ h hs := hs.meanwhile h

/-! ### Runs -/

/-- The REQ and CLOSE messages of a connection, one after another, while other tasks go on. A REQ
is only counted if it is answered so that it is allowed. -/
inductive QuotaRun (mayDrop : Prop) (process : Option ClientMessage → Relay (Except Failure Unit))
    (allowed : SubscriptionId → SubscriptionState → RelayHistory → Prop) (s₀ : SubscriptionState) :
    SubscriptionState → Prop where
  | start : QuotaRun mayDrop process allowed s₀ s₀
  | meanwhile {s s' : SubscriptionState} (h : QuotaRun mayDrop process allowed s₀ s)
    (h' : Meanwhile mayDrop s s') : QuotaRun mayDrop process allowed s₀ s'
  | req {s s' : SubscriptionState} {sub : SubscriptionId} {filters : List Filter}
    {t : RelayHistory} {r : Except Failure Unit} (h : QuotaRun mayDrop process allowed s₀ s)
    (h' : Exec (liveAnswers mayDrop) (process (some (.req sub filters))) s t r s')
    (hallowed : allowed sub s t) : QuotaRun mayDrop process allowed s₀ s'
  | close {s s' : SubscriptionState} {sub : SubscriptionId} {t : RelayHistory}
    {r : Except Failure Unit} (h : QuotaRun mayDrop process allowed s₀ s)
    (h' : Exec (liveAnswers mayDrop) (process (some (.close sub))) s t r s') :
    QuotaRun mayDrop process allowed s₀ s'

variable {s₀ : SubscriptionState} {allowed : SubscriptionId → SubscriptionState → RelayHistory → Prop}

theorem QuotaRun.capped {max : ℕ} (ho : ∀ m ∈ outer, LeavesSubscriptions m)
    (hi : ∀ m ∈ inside, LeavesSubscriptions m) (h₀ : Capped max s₀)
    (hrun : QuotaRun mayDrop (processInboundChain channel subdomain
      (outer ++ RelayMiddleware.processInbound kinds :: inside)) allowed s₀ s) : Capped max s := by
  induction hrun with
  | start => exact h₀
  | meanwhile _ h' ih => exact ih.meanwhile h'
  | @req s s' sub filters t r _ h' _ ih =>
    exact ((subscriptionRule_capped mayDrop max sub).req ho hi (fun s t s' houtcome hnever hs =>
      ⟨houtcome.capped hs, fun hmem => ⟨houtcome.quota_subset hmem, hnever hmem⟩⟩) h' ih).1
  | close _ h' ih =>
    exact (subscriptionRule_closeCapped mayDrop max).close ho hi
      (fun _ _ _ houtcome hs => hs.close houtcome) h' ih

/-- **The cap holds.** In every run of REQ and CLOSE messages, with any failures and any broadcasts
meanwhile, at most `max` subscriptions are registered, each of them holds a slot, at most `max`
slots are held, and a REQ for an id that holds a slot is not refused for quota. -/
theorem slots_cap_subscriptions (kinds : KindRanges) (channel : ChannelRef) (subdomain : Scope)
    (outer inside : List InboundMiddleware) (ho : ∀ m ∈ outer, LeavesSubscriptions m)
    (hi : ∀ m ∈ inside, LeavesSubscriptions m) (max : ℕ) (s₀ s : SubscriptionState)
    (hmax : s₀.maxSubscriptions = some max) (hquota : s₀.quota = ∅) (hlive : s₀.liveIds = ∅)
    (hrun : QuotaRun True (processInboundChain channel subdomain
      (outer ++ RelayMiddleware.processInbound kinds :: inside)) (fun _ _ _ => True) s₀ s) :
    s.liveIds.card ≤ max ∧ s.liveIds ⊆ s.quota ∧ s.quota.card ≤ max ∧
      ∀ sub ∈ s.quota, ∀ filters t r s', Exec (liveAnswers True)
        (processInboundChain channel subdomain
          (outer ++ RelayMiddleware.processInbound kinds :: inside) (some (.req sub filters)))
        s t r s' → ∀ sub' e, (⟨.reserveQuotaSlot sub', .error e⟩ : Asked) ∉ t := by
  have h₀ : Capped max s₀ := by
    refine ⟨hmax, ?_, ?_⟩
    · rw [hlive]
      exact Finset.empty_subset _
    · rw [hquota, Finset.card_empty]
      exact Nat.zero_le max
  have hcapped := hrun.capped ho hi h₀
  refine ⟨(Finset.card_le_card hcapped.liveIds).trans hcapped.card, hcapped.liveIds, hcapped.card,
    fun sub hsub filters t r s' h => ?_⟩
  exact (((subscriptionRule_capped True max sub).req ho hi (fun s t s' houtcome hnever hs =>
    ⟨houtcome.capped hs, fun hmem => ⟨houtcome.quota_subset hmem, hnever hmem⟩⟩) h hcapped).2
    hsub).2

/-! ### In step -/

/-- The slots are those of the subscriptions, and the registry knows the connection. -/
structure InStep (s : SubscriptionState) : Prop where
  quota : s.quota = s.liveIds
  known : s.coordinator ≠ none → s.own ≠ none

theorem InStep.meanwhile (h : InStep s) (h' : Meanwhile False s s') : InStep s' where
  quota := by rw [h'.quota, h'.liveIds_eq id, h.quota]
  known hc := by
    rw [h'.own_eq id]
    exact h.known (h'.coordinator ▸ hc)

theorem InStep.close (h : InStep s) (h' : CloseOutcome False sub s s') : InStep s' where
  quota := by rw [h'.quota, (h'.kept id).2, h.quota]
  known hc := fun hnone => h.known (h'.coordinator ▸ hc) ((h'.kept id).1.mp hnone)

/-- A REQ that is refused before it has a slot, that had it before, or that succeeds. -/
theorem ReqOutcome.inStep (h : ReqOutcome False sub s t s') (hs : InStep s)
    (hallowed : sub ∈ s.quota ∨ ¬ FailsReserved sub t) : InStep s' := by
  cases h with
  | untouched h => exact hs.meanwhile h
  | keepsSlot _ hfails h =>
    have hmem := hallowed.resolve_right fun hnot => hnot hfails
    have hreserve : s.reserve sub = s := by
      rw [SubscriptionState.reserve, Finset.insert_eq_of_mem hmem]
    rw [hreserve] at h
    exact hs.meanwhile h
  | @registers _ s₁ h hregisters =>
    have hknown : s₁.own ≠ none := by
      rw [h.own_eq id]
      exact hs.known (h.coordinator ▸ hregisters.connected)
    obtain ⟨hown, hlive⟩ := hregisters.kept id hknown
    refine ⟨?_, fun _ => hown⟩
    rw [hregisters.quota, h.quota, hlive, h.liveIds_eq id]
    exact congrArg (insert sub) hs.quota

/-- What a REQ keeps, if it may fail only for an id that has a slot. -/
theorem subscriptionRule_inStep (sub : SubscriptionId) :
    SubscriptionRule False fun s t s' => s.quota ⊆ s'.quota ∧
      (sub ∈ s.quota ∨ ¬ FailsReserved sub t → InStep s → InStep s') where
  nil s := ⟨fun _ h => h, fun _ hs => hs⟩
  append s t s' t' s'' h h' := by
    refine ⟨h.1.trans h'.1, fun hallowed hs => h'.2 ?_ (h.2 ?_ hs)⟩
    · exact hallowed.imp (fun hmem => h.1 hmem) fun hnot hfails =>
        hnot (hfails.of_subset (List.subset_append_right _ _))
    · exact hallowed.imp_right fun hnot hfails =>
        hnot (hfails.of_subset (List.subset_append_left _ _))
  ask call s r s' _ h := by
    refine ⟨?_, fun _ hs => hs.meanwhile h⟩
    rw [h.quota]

theorem subscriptionRule_closeInStep :
    SubscriptionRule False fun s _ s' => InStep s → InStep s' where
  nil _ hs := hs
  append _ _ _ _ _ h h' hs := h' (h hs)
  ask _ _ _ _ _ h hs := hs.meanwhile h

/-- **When slots and subscriptions are in step.** In every run in which no broadcast drops the
connection, and every REQ that fails after its slot was reserved is for an id that had the slot
before, the ids that hold a slot are those that are registered. -/
theorem slots_in_step (kinds : KindRanges) (channel : ChannelRef) (subdomain : Scope)
    (outer inside : List InboundMiddleware) (ho : ∀ m ∈ outer, LeavesSubscriptions m)
    (hi : ∀ m ∈ inside, LeavesSubscriptions m) (s₀ s : SubscriptionState)
    (hquota : s₀.quota = ∅) (hlive : s₀.liveIds = ∅)
    (hknown : s₀.coordinator ≠ none → s₀.own ≠ none)
    (hrun : QuotaRun False (processInboundChain channel subdomain
      (outer ++ RelayMiddleware.processInbound kinds :: inside))
      (fun sub s t => sub ∈ s.quota ∨ ¬ FailsReserved sub t) s₀ s) :
    s.quota = s.liveIds := by
  suffices h : InStep s from h.quota
  induction hrun with
  | start => exact ⟨hquota.trans hlive.symm, hknown⟩
  | meanwhile _ h' ih => exact ih.meanwhile h'
  | @req s s' sub filters t r _ h' hallowed ih =>
    exact ((subscriptionRule_inStep sub).req ho hi (fun s t s' houtcome _ =>
      ⟨houtcome.quota_subset, fun hallowed hs => houtcome.inStep hs hallowed⟩) h').2 hallowed ih
  | close _ h' ih =>
    exact subscriptionRule_closeInStep.close ho hi
      (fun _ _ _ houtcome hs => hs.close houtcome) h' ih

/-! ### Examples -/

/-- What happens when no other task does anything may happen. -/
theorem exec_live {α : Type} {p : Relay α} {a : α}
    (hexec : Exec SubscriptionState.answers p s t a s') : Exec (liveAnswers mayDrop) p s t a s' := by
  induction hexec with
  | done a s => exact .done a s
  | ask r hr _ ih => exact .ask r ⟨_, .refl _, hr⟩ ih

/-- The chain of the examples. -/
abbrev reqChain : Option ClientMessage → Relay (Except Failure Unit) :=
  processInboundChain 0 .default
    ([ErrorHandlingMiddleware.processInbound] ++ RelayMiddleware.processInbound .nip01 :: [])

/-- The connection with one subscription. -/
def feedSubscribed : SubscriptionState :=
  ((exampleSubscriptions.reserve "feed").setRegistered "alice" ∅).setRegistered "alice"
    (AList.insert "feed" [Filter.new] ∅)

/-- The answers to a REQ over an empty store. -/
def feedHistory : RelayHistory :=
  upToQuery (.ok []) [⟨.extend [] [], []⟩,
    ⟨.trySend 0 ⟨.endOfStoredEvents "feed", 0, none⟩, .ok ()⟩,
    ⟨.removeSubscription "alice" "feed", .ok ()⟩,
    ⟨.addSubscription "alice" "feed" [Filter.new], .ok ()⟩]

theorem exec_feed : Exec SubscriptionState.answers (reqChain (some (.req "feed" [Filter.new])))
    exampleSubscriptions feedHistory (.ok ()) feedSubscribed :=
  .ask _ rfl <| .ask _ rfl <| .ask _ ⟨rfl, rfl⟩ <| .ask _ ⟨rfl, rfl⟩ <| .ask _ rfl <|
    .ask _ rfl <| .ask _ rfl <| .ask _ rfl <| .ask _ ⟨rfl, rfl⟩ <| .ask _ ⟨rfl, rfl⟩ <|
    .done _ _

/-- The answers to a REQ when the store fails. -/
theorem exec_failedFeed : Exec SubscriptionState.answers
    (reqChain (some (.req "feed" [Filter.new]))) exampleSubscriptions
    (upToQuery (.error .notSupported)
      [⟨.debugText (.error (.database "Database operation not supported")), "unsupported"⟩,
        ⟨.trySend 0 ⟨.notice "Failed to fetch events: unsupported", 1, none⟩, .ok ()⟩])
    (.ok ()) (exampleSubscriptions.reserve "feed") :=
  .ask _ rfl <| .ask _ rfl <| .ask _ ⟨rfl, rfl⟩ <| .ask _ ⟨rfl, rfl⟩ <| .ask _ rfl <|
    .ask _ rfl <| .ask _ rfl <| .ask _ rfl <| .done _ _

theorem not_failsReserved_feed : ¬ FailsReserved "feed" feedHistory := by
  simp [feedHistory, upToQuery, FailsReserved, Asked.QueryFailed, Asked.refused?,
    exampleSubscriptions]

theorem leavesSubscriptions_example :
    ∀ m ∈ [ErrorHandlingMiddleware.processInbound], LeavesSubscriptions m :=
  List.forall_mem_singleton.mpr leavesSubscriptions_errorHandling

theorem slots_cap_example : feedSubscribed.liveIds.card ≤ 20 ∧
    feedSubscribed.liveIds ⊆ feedSubscribed.quota ∧ feedSubscribed.quota.card ≤ 20 := by
  obtain ⟨hlive, hsubset, hquota, -⟩ := slots_cap_subscriptions .nip01 0 .default
    [ErrorHandlingMiddleware.processInbound] [] leavesSubscriptions_example (List.forall_mem_nil _)
    20 exampleSubscriptions feedSubscribed rfl rfl rfl
    (.req .start (exec_live exec_feed) trivial)
  exact ⟨hlive, hsubset, hquota⟩

theorem slots_in_step_example : feedSubscribed.quota = feedSubscribed.liveIds :=
  slots_in_step .nip01 0 .default [ErrorHandlingMiddleware.processInbound] []
    leavesSubscriptions_example (List.forall_mem_nil _) exampleSubscriptions feedSubscribed rfl rfl
    (fun _ => nofun) (.req .start (exec_live exec_feed) (.inr not_failsReserved_feed))

/-- A REQ whose query fails keeps a slot that has no subscription, and so does a subscription when
a broadcast drops the connection. -/
theorem slots_out_of_step :
    (∃ s, QuotaRun False reqChain (fun _ _ _ => True) exampleSubscriptions s ∧
      s.quota ≠ s.liveIds) ∧
    ∃ s, QuotaRun True reqChain (fun sub _ t => ¬ FailsReserved sub t) exampleSubscriptions s ∧
      s.quota ≠ s.liveIds := by
  constructor
  · exact ⟨exampleSubscriptions.reserve "feed", .req .start (exec_live exec_failedFeed) trivial,
      by decide⟩
  · exact ⟨{ feedSubscribed with registered := fun _ => none },
      .meanwhile (.req .start (exec_live exec_feed) not_failsReserved_feed)
        ⟨rfl, rfl, rfl, .inr ⟨trivial, rfl⟩⟩, by decide⟩

end RelayBuilder
