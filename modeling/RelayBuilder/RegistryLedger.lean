import Mathlib.Algebra.BigOperators.Group.List.Basic
import Mathlib.Tactic.Linarith
import RelayBuilder.Interleave.Protocol
import RelayBuilder.RegistryActions
import RelayBuilder.RegistryRuns

/-!
# The ledger of subscriptions

An add, a removal and a cleanup each go through several structures, and in the middle of a call
these disagree. The `Duty` of a call says what it still has to do: which subscriptions of which
index are in its hands, and how many increments or decrements it owes to the metrics. With the
duties of all calls the books are balanced in every state, and `Ledger` says so.

## Main results

* `Ledger.step`: what an action has to keep
* `Ledger.decrements_le`, `Ledger.quiet`: what the books say
-/

namespace RelayBuilder

open Interleave SubscriptionRegistry

/-- Where a call is. A `busy` call holds the lock of a connection and works on one subscription,
which it adds or removes, and may still owe its count to the metrics. A cleanup is `doomed` when it
has listed the subscriptions of a connection that is still registered, and `closing` when the
connection has left the map. -/
inductive Duty where
  | idle
  | busy (conn : ConnRef) (scope : Scope) (sub : SubscriptionId) (adding owes : Bool)
  | doomed (id : ConnectionId) (ids : List SubscriptionId) (scope : Scope)
  | closing (id : ConnectionId) (ids : List SubscriptionId) (scope : Scope)

namespace Duty

/-- The decrements a call owes to the metrics. -/
def debt : Duty → ℤ
  | busy _ _ _ adding owes => if owes then if adding then -1 else 1 else 0
  | closing _ ids _ => ids.length
  | _ => 0

/-- The connection a call works on. -/
def id? : Duty → Option ConnectionId
  | idle => none
  | busy conn _ _ _ _ => some conn.id
  | doomed id _ _ => some id
  | closing id _ _ => some id

/-- The connection of which a call may change the subscriptions. -/
def claim : Duty → Option ConnectionId
  | doomed id ids _ => if ids = [] then none else some id
  | g => g.id?

/-- The subscriptions in the hands of a call. -/
def Owns (scope : Scope) (κ : Key) : Duty → Prop
  | busy conn scope' sub _ _ => scope = scope' ∧ κ = (conn.id, sub)
  | closing id ids scope' => scope = scope' ∧ κ.1 = id ∧ κ.2 ∈ ids
  | _ => False

/-- What is true of the registry while a call has this duty. -/
def Valid (s : SubscriptionRegistry) : Duty → Prop
  | idle => True
  | busy conn scope sub adding _ => s.connections.lookup conn.id = some conn ∧
    ∃ data, s.conns conn = some data ∧ data.locked = true ∧ data.subdomain = scope ∧
      (adding = true → sub ∈ data.subscriptions.keys)
  | doomed id ids scope => (ids ≠ [] → s.connection? id ≠ none) ∧
    ∀ data, s.connection? id = some data → data.locked = false ∧
      data.subscriptions.keys.Perm ids ∧ (ids ≠ [] → data.subdomain = scope)
  | closing id ids _ => ids ≠ [] ∧ s.connections.lookup id = none ∧
    ∃ conn, conn.id = id ∧ s.conns conn ≠ none

theorem claim_of_owns {g : Duty} {scope : Scope} {κ : Key} (h : g.Owns scope κ) :
    g.claim = some κ.1 := by
  cases g with
  | busy conn scope' sub adding owes =>
    obtain ⟨-, rfl⟩ := h
    rfl
  | closing id ids scope' =>
    obtain ⟨-, rfl, -⟩ := h
    rfl
  | _ => exact h.elim

theorem id?_of_claim {g : Duty} {id : ConnectionId} (h : g.claim = some id) :
    g.id? = some id := by
  cases g with
  | doomed id' ids scope =>
    simp only [claim] at h
    split at h
    · cases h
    · exact h
  | _ => exact h

end Duty

namespace SubscriptionRegistry

variable {s s' : SubscriptionRegistry} {id : ConnectionId} {conn : ConnRef}
  {data : ConnectionSubscriptions} {scope : Scope} {κ : Key}

/-! ### What is counted -/

/-- How many subscriptions an id has. -/
def size (s : SubscriptionRegistry) (id : ConnectionId) : ℕ :=
  ((s.connection? id).map fun data => data.subscriptions.keys.length).getD 0

/-- The number of subscriptions of the connections in the map. -/
def totalSubscriptions (s : SubscriptionRegistry) : ℕ :=
  (s.connections.keys.map s.size).sum

/-- The connection has the subscription, in this scope. -/
def InMap (s : SubscriptionRegistry) (scope : Scope) (κ : Key) : Prop :=
  ∃ data, s.connection? κ.1 = some data ∧ data.subdomain = scope ∧ κ.2 ∈ data.subscriptions.keys

/-- The index of a scope holds some filters for a subscription, and nothing at all unless the
connection has it. -/
structure Settles (s : SubscriptionRegistry) (scope : Scope) (κ : Key) : Prop where
  holds : ∃ fs, SubscriptionIndex.Holds κ fs (s.indexOf scope)
  absent : ¬ s.InMap scope κ → SubscriptionIndex.Absent κ (s.indexOf scope)

theorem settles_of_absent (h : SubscriptionIndex.Absent κ (s.indexOf scope)) :
    s.Settles scope κ :=
  ⟨⟨[], h.holds⟩, fun _ => h⟩

theorem Settles.congr (h : s.Settles scope κ) (hindexes : s'.indexes = s.indexes)
    (hmap : s.InMap scope κ → s'.InMap scope κ) : s'.Settles scope κ := by
  have hindex := indexOf_congr hindexes scope
  refine ⟨?_, fun hnot => ?_⟩
  · rw [hindex]
    exact h.holds
  · rw [hindex]
    exact h.absent fun hin => hnot (hmap hin)

/-- No id is registered twice. -/
def UniqueIds (s : SubscriptionRegistry) : Prop :=
  ∀ conn conn', s.conns conn ≠ none → s.conns conn' ≠ none → conn.id = conn'.id → conn = conn'

end SubscriptionRegistry

open Duty

/-- The books are balanced. -/
structure Ledger (γ : List Duty) (s : SubscriptionRegistry) : Prop where
  wellFormed : WellFormed s
  indexes : IndexesWellFormed s
  unique : UniqueIds s
  valid : ∀ (i : ℕ) g, γ[i]? = some g → g.Valid s
  exclusive : ∀ (i j : ℕ) gi gj id, γ[i]? = some gi → γ[j]? = some gj → gi.claim = some id →
    gj.claim = some id → i = j
  settled : ∀ scope κ, (∀ (i : ℕ) g, γ[i]? = some g → ¬ g.Owns scope κ) → s.Settles scope κ
  balance : ∀ m, s.metricsHandler = some m →
    (m.increments : ℤ) - m.decrements = (γ.map debt).sum + s.totalSubscriptions

variable {γ : List Duty} {s s' : SubscriptionRegistry} {i : ℕ} {g g' : Duty}

theorem ledger_new (metricsHandler : Option SubscriptionMetrics) (channels : ChannelRef → Channel)
    (hmetrics : ∀ m ∈ metricsHandler, m = ⟨0, 0⟩) :
    Ledger [] (new metricsHandler channels) := by
  refine ⟨(settled_new metricsHandler channels).wellFormed, fun _ =>
    SubscriptionIndex.wellFormed_new, fun _ _ h => absurd rfl h, fun i _ h => ?_,
    fun i _ _ _ _ h => ?_, fun scope κ _ => settles_of_absent (SubscriptionIndex.absent_new κ),
    fun m hm => ?_⟩
  · cases h
  · cases h
  · rw [hmetrics m hm]
    simp [totalSubscriptions, new]

/-- A call that is started has no duty yet. -/
theorem Ledger.start (h : Ledger γ s) : Ledger (γ ++ [.idle]) s := by
  have hcases : ∀ (j : ℕ) gj, (γ ++ [Duty.idle])[j]? = some gj → gj = .idle ∨ γ[j]? = some gj := by
    intro j gj hj
    by_cases hlt : j < γ.length
    · rw [List.getElem?_append_left hlt] at hj
      exact .inr hj
    · have hmem := List.mem_of_getElem? hj
      rw [List.getElem?_append_right (Nat.le_of_not_lt hlt)] at hj
      exact .inl (List.mem_singleton.mp (List.mem_of_getElem? hj))
  refine ⟨h.wellFormed, h.indexes, h.unique, fun j gj hj => ?_,
    fun j k gj gk id hj hk hgj hgk => ?_,
    fun scope κ hfree => h.settled scope κ fun j gj hj => ?_, fun m hm => ?_⟩
  · obtain rfl | hj := hcases j gj hj
    · trivial
    · exact h.valid j gj hj
  · obtain rfl | hj := hcases j gj hj
    · cases hgj
    · obtain rfl | hk := hcases k gk hk
      · cases hgk
      · exact h.exclusive j k gj gk id hj hk hgj hgk
  · have hlt : j < γ.length := (List.getElem?_eq_some_iff.mp hj).1
    exact hfree j gj (by rwa [List.getElem?_append_left hlt])
  · rw [h.balance m hm, List.map_append, List.sum_append]
    simp [debt]

/-! ### Sums -/

theorem sum_map_set {l : List Duty} {i : ℕ} (h : l[i]? = some g) (g' : Duty)
    (f : Duty → ℤ) : ((l.set i g').map f).sum + f g = (l.map f).sum + f g' := by
  induction l generalizing i with
  | nil => cases h
  | cons a l ih =>
    cases i with
    | zero =>
      cases h
      simp only [List.set_cons_zero, List.map_cons, List.sum_cons]
      omega
    | succ i =>
      have := ih h
      simp only [List.set_cons_succ, List.map_cons, List.sum_cons]
      omega

theorem sum_map_update {l : List ConnectionId} {f f' : ConnectionId → ℕ} {a : ConnectionId}
    (hnd : l.Nodup) (ha : a ∈ l) (h : ∀ b, b ≠ a → f' b = f b) :
    (l.map f').sum + f a = (l.map f).sum + f' a := by
  induction l with
  | nil => cases ha
  | cons b l ih =>
    obtain ⟨hb, hnd⟩ := List.nodup_cons.mp hnd
    simp only [List.map_cons, List.sum_cons]
    by_cases heq : b = a
    · subst heq
      rw [List.map_congr_left fun c hc => h c fun heq => hb (heq ▸ hc)]
      omega
    · have hal : a ∈ l := (List.mem_cons.mp ha).resolve_left fun h => heq h.symm
      have := ih hnd hal
      rw [h b heq]
      omega

theorem sum_map_erase {l : List ConnectionId} {f : ConnectionId → ℕ} {a : ConnectionId}
    (ha : a ∈ l) : ((l.erase a).map f).sum + f a = (l.map f).sum := by
  have hperm := (List.perm_cons_erase ha).map f
  rw [hperm.sum_eq, List.map_cons, List.sum_cons, Nat.add_comm]

/-- Distinct elements that count at least once are counted. -/
theorem length_le_sum {l keys : List ConnectionId} {f : ConnectionId → ℕ} (hnd : l.Nodup)
    (hsub : l ⊆ keys) (h : ∀ a ∈ l, 1 ≤ f a) : l.length ≤ (keys.map f).sum := by
  induction l generalizing keys with
  | nil => exact Nat.zero_le _
  | cons a l ih =>
    obtain ⟨ha, hnd⟩ := List.nodup_cons.mp hnd
    have hmem : a ∈ keys := hsub (List.mem_cons_self ..)
    have hsub' : l ⊆ keys.erase a := fun b hb => by
      have hne : b ≠ a := by
        rintro rfl
        exact ha hb
      exact (List.mem_erase_of_ne hne).mpr (hsub (List.mem_cons_of_mem _ hb))
    have hle := ih hnd hsub' fun b hb => h b (List.mem_cons_of_mem _ hb)
    have hone := h a (List.mem_cons_self ..)
    have hsum := sum_map_erase (f := f) hmem
    rw [List.length_cons]
    omega

/-! ### Keeping the ledger -/

/-- Nothing has changed for one id. -/
structure SameAt (id : ConnectionId) (s s' : SubscriptionRegistry) : Prop where
  lookup : s'.connections.lookup id = s.connections.lookup id
  conns : ∀ conn, conn.id = id → s'.conns conn = s.conns conn

theorem SameAt.connection? {id : ConnectionId} (h : SameAt id s s') (hwf : WellFormed s) :
    s'.connection? id = s.connection? id := by
  rw [SubscriptionRegistry.connection?, SubscriptionRegistry.connection?, h.lookup]
  cases hconn : s.connections.lookup id with
  | none => rfl
  | some conn => exact h.conns conn (hwf.current id conn hconn).1

theorem Duty.Valid.sameAt (h : g.Valid s) (hwf : WellFormed s)
    (hsame : ∀ id, g.id? = some id → SameAt id s s') : g.Valid s' := by
  cases g with
  | idle => trivial
  | busy conn scope sub adding owes =>
    have hs := hsame conn.id rfl
    obtain ⟨hlookup, hdata⟩ := h
    exact ⟨hs.lookup.trans hlookup, by rwa [hs.conns conn rfl]⟩
  | doomed id ids scope =>
    have hs := hsame id rfl
    rwa [Duty.Valid, hs.connection? hwf]
  | closing id ids scope =>
    have hs := hsame id rfl
    obtain ⟨hids, hlookup, conn, hid, hconn⟩ := h
    exact ⟨hids, hs.lookup.trans hlookup, conn, hid, by rwa [hs.conns conn hid]⟩

/-- What an action of the `i`-th call has to keep, when its duty becomes `g'` after `g`. -/
theorem Ledger.step (h : Ledger γ s) (hi : γ[i]? = some g) (hwf : WellFormed s')
    (hindexes : s'.indexes = s.indexes) (hunique : UniqueIds s')
    (hothers : ∀ (j : ℕ) gj, j ≠ i → γ[j]? = some gj → gj.Valid s') (hvalid : g'.Valid s')
    (hclaim : ∀ id, g'.claim = some id → g.claim = some id ∨
      ∀ (j : ℕ) gj, j ≠ i → γ[j]? = some gj → gj.claim ≠ some id)
    (hsettled : ∀ scope κ, (g.Owns scope κ ∨ s.Settles scope κ) → ¬ g'.Owns scope κ →
      s'.Settles scope κ)
    (hbalance : ∀ m', s'.metricsHandler = some m' → ∃ m, s.metricsHandler = some m ∧
      (m'.increments : ℤ) - m'.decrements - g'.debt - s'.totalSubscriptions =
        m.increments - m.decrements - g.debt - s.totalSubscriptions) :
    Ledger (γ.set i g') s' := by
  have hlt : i < γ.length := (List.getElem?_eq_some_iff.mp hi).1
  have hcases : ∀ (j : ℕ) gj, (γ.set i g')[j]? = some gj →
      (j = i ∧ gj = g') ∨ (j ≠ i ∧ γ[j]? = some gj) := by
    intro j gj hj
    by_cases hij : i = j
    · subst hij
      rw [List.getElem?_set_self hlt, Option.some.injEq] at hj
      exact .inl ⟨rfl, hj.symm⟩
    · rw [List.getElem?_set_ne hij] at hj
      exact .inr ⟨Ne.symm hij, hj⟩
  -- the claims of the others and of `g'` are apart
  have happart : ∀ (j : ℕ) gj id, j ≠ i → γ[j]? = some gj → gj.claim = some id →
      g'.claim ≠ some id := by
    intro j gj id hne hj hgj hg'
    rcases hclaim id hg' with hg | hothers
    · exact hne (h.exclusive j i gj g id hj hi hgj hg)
    · exact hothers j gj hne hj hgj
  refine ⟨hwf, fun scope => indexOf_congr hindexes scope ▸ h.indexes scope, hunique,
    fun j gj hj => ?_, fun j k gj gk id hj hk hgj hgk => ?_, fun scope κ hfree => ?_,
    fun m' hm' => ?_⟩
  · rcases hcases j gj hj with ⟨-, rfl⟩ | ⟨hne, hj⟩
    · exact hvalid
    · exact hothers j gj hne hj
  · rcases hcases j gj hj with ⟨rfl, rfl⟩ | ⟨hne, hj'⟩
    · rcases hcases k gk hk with ⟨rfl, -⟩ | ⟨hne, hk'⟩
      · rfl
      · exact absurd hgj (happart k gk id hne hk' hgk)
    · rcases hcases k gk hk with ⟨rfl, rfl⟩ | ⟨-, hk'⟩
      · exact absurd hgk (happart j gj id hne hj' hgj)
      · exact h.exclusive j k gj gk id hj' hk' hgj hgk
  · refine hsettled scope κ ?_ (hfree i g' (List.getElem?_set_self hlt))
    by_cases hown : g.Owns scope κ
    · exact .inl hown
    · refine .inr (h.settled scope κ fun j gj hj => ?_)
      by_cases hij : j = i
      · subst hij
        rw [hi, Option.some.injEq] at hj
        exact hj ▸ hown
      · exact hfree j gj (by rw [List.getElem?_set_ne (Ne.symm hij)]; exact hj)
  · obtain ⟨m, hm, heq⟩ := hbalance m' hm'
    have hold := h.balance m hm
    have hsum := sum_map_set hi g' debt
    omega

/-- An action on an index, at subscriptions in the hands of the call. -/
theorem Ledger.index (h : Ledger γ s) (hi : γ[i]? = some g) {scope : Scope} {touches : Key → Prop}
    (hwf : IndexesWellFormed s') (haction : IndexAction scope touches s s')
    (htouches : ∀ κ, touches κ → g.Owns scope κ) : Ledger γ s' := by
  have hconnections : s'.connections = s.connections := by rw [haction.rest]
  have hconns : s'.conns = s.conns := by rw [haction.rest]
  have hsame : SameConnections s s' := ⟨hconnections, hconns, by rw [haction.rest]⟩
  have hmetrics : s'.metricsHandler = s.metricsHandler := by rw [haction.rest]
  refine ⟨hsame.wellFormed h.wellFormed, hwf, ?_, fun j gj hj => ?_, h.exclusive,
    fun scope' κ hfree => ?_, fun m hm => ?_⟩
  · rw [UniqueIds, hconns]
    exact h.unique
  · exact (h.valid j gj hj).sameAt h.wellFormed fun id _ =>
      ⟨by rw [hconnections], fun conn _ => by rw [hconns]⟩
  · have hold := h.settled scope' κ hfree
    have hview := haction.view scope' κ fun heq ht => hfree i g hi (heq ▸ htouches κ ht)
    obtain ⟨fs, hfs⟩ := hold.holds
    refine ⟨⟨fs, SubscriptionIndex.Entry.stable (o := some fs) (hwf scope')
      (haction.grows scope') hview hfs⟩, fun hnot => ?_⟩
    refine SubscriptionIndex.Entry.stable (o := none) (hwf scope') (haction.grows scope') hview
      (hold.absent fun ⟨data, hdata, hin⟩ => hnot ⟨data, ?_, hin⟩)
    rwa [hsame.connection?]
  · have hsize : s'.size = s.size := by
      funext id
      rw [size, size, hsame.connection?]
    rw [totalSubscriptions, hconnections, hsize]
    exact h.balance m (hmetrics ▸ hm)

/-! ### The actions -/

variable {conn : ConnRef} {data : ConnectionSubscriptions}

theorem SameAt.updateConn {id : ConnectionId} (hid : id ≠ conn.id)
    (f : ConnectionSubscriptions → ConnectionSubscriptions) :
    SameAt id s (s.updateConn conn f) := by
  refine ⟨rfl, fun conn' hconn' => if_neg ?_⟩
  rintro rfl
  exact hid hconn'.symm

theorem uniqueIds_updateConn (h : UniqueIds s)
    (f : ConnectionSubscriptions → ConnectionSubscriptions) : UniqueIds (s.updateConn conn f) := by
  have hold : ∀ conn', (s.updateConn conn f).conns conn' ≠ none → s.conns conn' ≠ none := by
    intro conn' hne hnone
    by_cases hc : conn' = conn
    · subst hc
      simp [SubscriptionRegistry.updateConn, hnone] at hne
    · simp [SubscriptionRegistry.updateConn, hc, hnone] at hne
  exact fun conn₁ conn₂ h₁ h₂ hid => h conn₁ conn₂ (hold _ h₁) (hold _ h₂) hid

theorem conns_updateConn (hdata : s.conns conn = some data)
    (f : ConnectionSubscriptions → ConnectionSubscriptions) :
    (s.updateConn conn f).conns conn = some (f data) := by
  simp [SubscriptionRegistry.updateConn, hdata]

/-- A change of a connection that no other call works on. -/
theorem Ledger.updateConn (h : Ledger γ s) (hi : γ[i]? = some g)
    (hconn : s.connections.lookup conn.id = some conn) (hdata : s.conns conn = some data)
    (hapart : ∀ (j : ℕ) gj, j ≠ i → γ[j]? = some gj → gj.id? ≠ some conn.id)
    {f : ConnectionSubscriptions → ConnectionSubscriptions}
    (hvalid : g'.Valid (s.updateConn conn f))
    (hclaim : ∀ id, g'.claim = some id → id = conn.id)
    (hsettled : ∀ scope κ, (g.Owns scope κ ∨ s.Settles scope κ) → ¬ g'.Owns scope κ →
      (s.updateConn conn f).Settles scope κ)
    (hdebt : g'.debt + (f data).subscriptions.keys.length =
      g.debt + data.subscriptions.keys.length) :
    Ledger (γ.set i g') (s.updateConn conn f) := by
  have hsize : ∀ id, (s.updateConn conn f).size id =
      if id = conn.id then (f data).subscriptions.keys.length else s.size id := fun id => by
    rw [size, connection?_updateConn h.wellFormed hconn hdata]
    split <;> rfl
  refine h.step hi (h.wellFormed.updateConn conn f) rfl (uniqueIds_updateConn h.unique f)
    (fun j gj hne hj => (h.valid j gj hj).sameAt h.wellFormed fun id hid => ?_) hvalid
    (fun id hid => ?_) hsettled fun m hm => ⟨m, hm, ?_⟩
  · refine SameAt.updateConn ?_ f
    rintro rfl
    exact hapart j gj hne hj hid
  · obtain rfl := hclaim id hid
    exact .inr fun j gj hne hj hgj => hapart j gj hne hj (Duty.id?_of_claim hgj)
  · have hmem : conn.id ∈ s.connections.keys := AList.lookup_isSome.mp (by rw [hconn]; rfl)
    have hsum : (s.connections.keys.map (s.updateConn conn f).size).sum + s.size conn.id =
        (s.connections.keys.map s.size).sum + (s.updateConn conn f).size conn.id :=
      sum_map_update s.connections.keys_nodup hmem fun id hne => by rw [hsize, if_neg hne]
    have hold : s.size conn.id = data.subscriptions.keys.length := by
      rw [size, connection?_of_lookup hconn hdata]
      rfl
    rw [hsize, if_pos rfl, hold] at hsum
    have htotal : (s.updateConn conn f).totalSubscriptions =
      (s.connections.keys.map (s.updateConn conn f).size).sum := rfl
    rw [htotal, totalSubscriptions]
    omega

/-- While a call holds the lock of a connection, no other call works on the connection. -/
theorem Ledger.apart_of_busy (h : Ledger γ s) {scope : Scope} {sub : SubscriptionId}
    {adding owes : Bool} (hi : γ[i]? = some (.busy conn scope sub adding owes)) {j : ℕ} {gj : Duty}
    (hne : j ≠ i) (hj : γ[j]? = some gj) : gj.id? ≠ some conn.id := by
  intro hid
  obtain ⟨hconn, data, hdata, hlocked, -⟩ := h.valid i _ hi
  cases gj with
  | idle => cases hid
  | busy conn' scope' sub' adding' owes' => exact hne (h.exclusive j i _ _ conn.id hj hi hid rfl)
  | doomed id ids scope' =>
    cases hid
    have hfree := ((h.valid j _ hj).2 data (connection?_of_lookup hconn hdata)).1
    rw [hlocked] at hfree
    cases hfree
  | closing id ids scope' => exact hne (h.exclusive j i _ _ conn.id hj hi hid rfl)

/-- The lock of a current connection is free, and no cleanup has listed its subscriptions. -/
structure Free (γ : List Duty) (conn : ConnRef) (s : SubscriptionRegistry) : Prop where
  current : s.connections.lookup conn.id = some conn
  unlocked : unlocked conn s = true
  spared : ∀ (j : ℕ) id ids scope, γ[j]? = some (.doomed id ids scope) → id ≠ conn.id

theorem Ledger.apart_of_free (h : Ledger γ s) (hfree : Free γ conn s) {j : ℕ} {gj : Duty}
    (hj : γ[j]? = some gj) : gj.id? ≠ some conn.id := by
  intro hid
  have hvalid := h.valid j gj hj
  cases gj with
  | idle => cases hid
  | busy conn' scope' sub' adding' owes' =>
    obtain ⟨hconn, data, hdata, hlocked, -⟩ := hvalid
    rw [Option.some.inj hid, hfree.current, Option.some.injEq] at hconn
    subst hconn
    have hunlocked := hfree.unlocked
    simp [SubscriptionRegistry.unlocked, hdata, hlocked] at hunlocked
  | doomed id ids scope' => exact hfree.spared j id ids scope' hj (Option.some.inj hid)
  | closing id ids scope' =>
    have hnone := hvalid.2.1
    rw [Option.some.inj hid, hfree.current] at hnone
    cases hnone

/-- Then the indexes hold some filters for each of its subscriptions. -/
theorem Ledger.holds_of_free (h : Ledger γ s) (hfree : Free γ conn s) (scope : Scope)
    (sub : SubscriptionId) :
    ∃ fs, SubscriptionIndex.Holds (conn.id, sub) fs (s.indexOf scope) :=
  (h.settled scope (conn.id, sub) fun _ _ hj hown =>
    h.apart_of_free hfree hj (Duty.id?_of_claim (Duty.claim_of_owns hown))).holds

/-- `insert` into the subscriptions. -/
theorem Ledger.insertSubscription (h : Ledger γ s) (hi : γ[i]? = some .idle)
    (hfree : Free γ conn s) (hdata : s.conns conn = some data) (sub : SubscriptionId)
    (filters : List Filter) :
    Ledger (γ.set i (.busy conn data.subdomain sub true (data.subscriptions.lookup sub).isNone))
      (insertSubscription conn sub filters s).2 := by
  have hconn? := connection?_updateConn h.wellFormed hfree.current hdata fun data =>
    { data with subscriptions := data.subscriptions.insert sub filters, locked := true }
  refine h.updateConn hi hfree.current hdata (fun j gj _ hj => h.apart_of_free hfree hj)
    ⟨hfree.current, _, conns_updateConn hdata _, rfl, rfl, fun _ => ?_⟩
    (fun id hid => (Option.some.inj hid).symm) (fun scope κ hold _ => ?_) ?_
  · simp [AList.keys_insert]
  · refine (hold.resolve_left id).congr rfl fun ⟨data', hdata', hscope, hsub⟩ => ?_
    rw [InMap, hconn?]
    split
    · rename_i hid
      rw [hid, connection?_of_lookup hfree.current hdata, Option.some.injEq] at hdata'
      subst hdata'
      refine ⟨_, rfl, hscope, ?_⟩
      by_cases heq : κ.2 = sub
      · simp [AList.keys_insert, heq]
      · simp [AList.keys_insert, heq, (List.mem_erase_of_ne heq).mpr hsub]
    · exact ⟨data', hdata', hscope, hsub⟩
  · rw [AList.keys_insert, List.length_cons]
    cases hlookup : data.subscriptions.lookup sub with
    | none =>
      have hnotmem : sub ∉ data.subscriptions.keys := AList.lookup_eq_none.mp hlookup
      rw [List.erase_of_not_mem hnotmem]
      simp [debt]
    | some fs =>
      have hmem : sub ∈ data.subscriptions.keys := AList.lookup_isSome.mp (by rw [hlookup]; rfl)
      have hpos := List.length_pos_of_mem hmem
      rw [List.length_erase_of_mem hmem]
      simp [debt]
      omega

/-- `remove` of a subscription that is there. -/
theorem Ledger.takeSubscription (h : Ledger γ s) (hi : γ[i]? = some .idle)
    (hfree : Free γ conn s) (hdata : s.conns conn = some data) {sub : SubscriptionId}
    (hsub : (data.subscriptions.lookup sub).isSome) :
    Ledger (γ.set i (.busy conn data.subdomain sub false true))
      (takeSubscription conn sub s).2 := by
  have hmem : sub ∈ data.subscriptions.keys := AList.lookup_isSome.mp hsub
  have hconn? := connection?_updateConn h.wellFormed hfree.current hdata fun data =>
    if (data.subscriptions.lookup sub).isSome then
      { data with subscriptions := data.subscriptions.erase sub, locked := true }
    else data
  simp only [hsub, if_true] at hconn?
  refine h.updateConn hi hfree.current hdata (fun j gj _ hj => h.apart_of_free hfree hj)
    ⟨hfree.current, _, conns_updateConn hdata _, ?_, ?_, fun h => nomatch h⟩
    (fun id hid => (Option.some.inj hid).symm) (fun scope κ hold hown => ?_) ?_
  · rw [if_pos hsub]
  · rw [if_pos hsub]
  · refine (hold.resolve_left id).congr rfl fun ⟨data', hdata', hscope, hkey⟩ => ?_
    rw [InMap, hconn?]
    split
    · rename_i hid
      rw [hid, connection?_of_lookup hfree.current hdata, Option.some.injEq] at hdata'
      subst hdata'
      refine ⟨_, rfl, hscope, ?_⟩
      have hne : κ.2 ≠ sub := fun heq => hown ⟨hscope.symm, Prod.ext hid heq⟩
      rw [AList.keys_erase]
      exact (List.mem_erase_of_ne hne).mpr hkey
    · exact ⟨data', hdata', hscope, hkey⟩
  · have hpos := List.length_pos_of_mem hmem
    rw [if_pos hsub, AList.keys_erase, List.length_erase_of_mem hmem]
    simp [debt]
    omega

/-- The lock is released when the subscription is settled. -/
theorem Ledger.release (h : Ledger γ s) {scope : Scope} {sub : SubscriptionId} {adding : Bool}
    (hi : γ[i]? = some (.busy conn scope sub adding false))
    (hsettles : s.Settles scope (conn.id, sub)) :
    Ledger (γ.set i .idle) (s.updateConn conn fun data => { data with locked := false }) := by
  obtain ⟨hconn, data, hdata, -, hscope, -⟩ := h.valid i _ hi
  have hconn? := connection?_updateConn h.wellFormed hconn hdata fun data =>
    { data with locked := false }
  refine h.updateConn hi hconn hdata (fun j gj hne hj => h.apart_of_busy hi hne hj) trivial
    (fun id hid => nomatch hid) (fun scope' κ hold _ => ?_) rfl
  have hold' : s.Settles scope' κ := by
    rcases hold with ⟨rfl, rfl⟩ | hold
    · exact hsettles
    · exact hold
  refine hold'.congr rfl fun ⟨data', hdata', hin⟩ => ?_
  rw [InMap, hconn?]
  split
  · rename_i hid
    rw [hid, connection?_of_lookup hconn hdata, Option.some.injEq] at hdata'
    subst hdata'
    exact ⟨_, rfl, hin⟩
  · exact ⟨data', hdata', hin⟩

/-- An action that only tells the metrics something. -/
theorem Ledger.metrics (h : Ledger γ s) (hi : γ[i]? = some g) {n : ℤ}
    {f : SubscriptionMetrics → SubscriptionMetrics}
    (hf : ∀ m, ((f m).increments : ℤ) - (f m).decrements = m.increments - m.decrements + n)
    (hvalid : g'.Valid s) (hclaim : ∀ id, g'.claim = some id → g.claim = some id)
    (hsettled : ∀ scope κ, g.Owns scope κ → ¬ g'.Owns scope κ → s.Settles scope κ)
    (hdebt : g'.debt = g.debt + n) :
    Ledger (γ.set i g') { s with metricsHandler := s.metricsHandler.map f } := by
  have hvalid' : ∀ g : Duty, g.Valid s →
      g.Valid { s with metricsHandler := s.metricsHandler.map f } :=
    fun g hg => hg.sameAt h.wellFormed fun _ _ => ⟨rfl, fun _ _ => rfl⟩
  have hsettles : ∀ scope κ, s.Settles scope κ →
      Settles { s with metricsHandler := s.metricsHandler.map f } scope κ :=
    fun scope κ hs => hs.congr rfl fun h => h
  refine h.step hi ⟨h.wellFormed.current, h.wellFormed.fresh⟩ rfl h.unique
    (fun j gj _ hj => hvalid' gj (h.valid j gj hj)) (hvalid' g' hvalid)
    (fun id hid => .inl (hclaim id hid)) (fun scope κ hold hown => ?_) fun m hm => ?_
  · exact hsettles scope κ (hold.elim (fun h => hsettled scope κ h hown) id)
  · obtain ⟨m₀, hm₀, rfl⟩ := Option.map_eq_some_iff.mp hm
    refine ⟨m₀, hm₀, ?_⟩
    have htotal : totalSubscriptions { s with metricsHandler := s.metricsHandler.map f } =
      s.totalSubscriptions := rfl
    rw [htotal, hf, hdebt]
    omega

/-- A cleanup has listed the subscriptions of a connection. -/
theorem Ledger.doom (h : Ledger γ s) (hi : γ[i]? = some .idle) {id : ConnectionId}
    {ids : List SubscriptionId} {scope : Scope} (hvalid : (doomed id ids scope).Valid s)
    (hapart : ids ≠ [] → ∀ (j : ℕ) gj, γ[j]? = some gj → gj.id? ≠ some id) :
    Ledger (γ.set i (.doomed id ids scope)) s := by
  refine h.step hi h.wellFormed rfl h.unique (fun j gj _ hj => h.valid j gj hj) hvalid
    (fun id' hid => .inr fun j gj _ hj hgj => ?_)
    (fun scope' κ hold _ => hold.resolve_left fun h => h)
    fun m hm => ⟨m, hm, rfl⟩
  simp only [claim] at hid
  split at hid
  · cases hid
  · rename_i hids
    cases hid
    exact hapart hids j gj hj (Duty.id?_of_claim hgj)

/-- A cleanup removes the connection from the map. -/
theorem Ledger.eraseConnection (h : Ledger γ s) {id : ConnectionId} {ids : List SubscriptionId}
    {scope : Scope} (hi : γ[i]? = some (.doomed id ids scope)) :
    Ledger (γ.set i (if ids = [] then .idle else .closing id ids scope))
      { s with connections := s.connections.erase id } := by
  have hremoved : Removed id s { s with connections := s.connections.erase id } := ⟨rfl, rfl, rfl⟩
  obtain ⟨hsome, hlisted⟩ := h.valid i _ hi
  have hsize : ∀ id', id' ≠ id →
      size { s with connections := s.connections.erase id } id' = s.size id' := fun id' hne => by
    rw [size, size, connection?_removed hremoved, if_neg hne]
  refine h.step hi (h.wellFormed.removed hremoved) rfl h.unique (fun j gj hne hj => ?_) ?_
    (fun id' hid => .inl ?_) (fun scope' κ hold hown => ?_) fun m hm => ⟨m, hm, ?_⟩
  · have hvalid := h.valid j gj hj
    by_cases hid : gj.id? = some id
    · cases gj with
      | idle => cases hid
      | busy conn scope' sub adding owes =>
        obtain ⟨hconn, data, hdata, hlocked, -⟩ := hvalid
        cases hid
        have hfree := (hlisted data (connection?_of_lookup hconn hdata)).1
        rw [hlocked] at hfree
        cases hfree
      | doomed id' ids' scope' =>
        cases hid
        refine ⟨fun hids' => ?_, fun data hdata => ?_⟩
        · obtain ⟨data, hdata⟩ := Option.ne_none_iff_exists'.mp (hvalid.1 hids')
          have hids : ids ≠ [] := by
            rintro rfl
            have hnil := (hlisted data hdata).2.1.symm.trans (hvalid.2 data hdata).2.1
            exact hids' hnil.symm.eq_nil
          exact absurd (h.exclusive j i _ _ id hj hi (if_neg hids') (if_neg hids)) hne
        · rw [connection?_removed hremoved, if_pos rfl] at hdata
          cases hdata
      | closing id' ids' scope' =>
        cases hid
        exact ⟨hvalid.1, AList.lookup_erase .., hvalid.2.2⟩
    · refine hvalid.sameAt h.wellFormed fun id' hid' => ⟨AList.lookup_erase_ne ?_, fun _ _ => rfl⟩
      rintro rfl
      exact hid hid'
  · split
    · trivial
    · rename_i hids
      obtain ⟨data, hdata⟩ := Option.ne_none_iff_exists'.mp (hsome hids)
      obtain ⟨conn, hconn, hconns⟩ := Option.bind_eq_some_iff.mp hdata
      exact ⟨hids, AList.lookup_erase .., conn, (h.wellFormed.current id conn hconn).1,
        by simp [hconns]⟩
  · split at hid
    · cases hid
    · rename_i hids
      simpa [claim, Duty.id?, hids] using hid
  · have hold' := hold.resolve_left (fun h => h)
    by_cases hid : κ.1 = id
    · refine settles_of_absent (hold'.absent fun ⟨data, hdata, hscope, hsub⟩ => hown ?_)
      rw [hid] at hdata
      obtain ⟨-, hperm, hsubdomain⟩ := hlisted data hdata
      have hmem := hperm.mem_iff.mp hsub
      have hids : ids ≠ [] := List.ne_nil_of_mem hmem
      rw [if_neg hids]
      exact ⟨hscope.symm.trans (hsubdomain hids), hid, hmem⟩
    · refine hold'.congr rfl fun ⟨data, hdata, hin⟩ => ⟨data, ?_, hin⟩
      rwa [connection?_removed hremoved, if_neg hid]
  · have hdebt : Duty.debt (if ids = [] then .idle else .closing id ids scope) = ids.length := by
      split
      · rename_i hids
        simp [hids, debt]
      · rfl
    have hmap : ((s.connections.erase id).keys.map
        (size { s with connections := s.connections.erase id })) =
        (s.connections.keys.erase id).map s.size := by
      rw [AList.keys_erase]
      refine List.map_congr_left fun id' hid' => hsize id' ?_
      rintro rfl
      exact (List.Nodup.not_mem_erase s.connections.keys_nodup) hid'
    have htotal : totalSubscriptions { s with connections := s.connections.erase id } =
      ((s.connections.keys.erase id).map s.size).sum := congrArg List.sum hmap
    rw [htotal, hdebt, totalSubscriptions]
    cases hconn : s.connections.lookup id with
    | none =>
      have hids : ids = [] := by
        by_contra hids
        exact hsome hids (by rw [connection?, hconn]; rfl)
      rw [List.erase_of_not_mem (AList.lookup_eq_none.mp hconn), hids]
      rfl
    | some conn =>
      obtain ⟨-, data, hdata⟩ := h.wellFormed.current id conn hconn
      have hconn? := connection?_of_lookup hconn hdata
      have hlen : s.size id = ids.length := by
        rw [size, hconn?, Option.map_some, Option.getD_some, (hlisted data hconn?).2.1.length_eq]
      have hsum := sum_map_erase (f := s.size) (AList.lookup_isSome.mp (by rw [hconn]; rfl) :
        id ∈ s.connections.keys)
      simp only [debt]
      omega

/-- The id was never registered. -/
def NeverRegistered (id : ConnectionId) (s : SubscriptionRegistry) : Prop :=
  ∀ n < s.registered, s.conns ⟨id, n⟩ = none

theorem NeverRegistered.conns {id : ConnectionId} (h : NeverRegistered id s) (hwf : WellFormed s)
    (hid : conn.id = id) : s.conns conn = none := by
  subst hid
  cases hdata : s.conns conn with
  | none => rfl
  | some data =>
    have hnone : s.conns conn = none := h conn.number (hwf.fresh conn data hdata)
    rw [hdata] at hnone
    cases hnone

/-- The first registration of an id. -/
theorem Ledger.register (h : Ledger γ s) (hi : γ[i]? = some .idle) {id : ConnectionId}
    (hnever : NeverRegistered id s) (sender : MessageSender) (auth : Option PublicKey)
    (subdomain : Scope) : Ledger (γ.set i .idle) (register id sender auth subdomain s).2 := by
  have hconns : ∀ conn : ConnRef, conn.id = id → s.conns conn = none := fun conn hid =>
    hnever.conns h.wellFormed hid
  have hlookup : s.connections.lookup id = none := by
    cases hconn : s.connections.lookup id with
    | none => rfl
    | some conn =>
      obtain ⟨hid, data, hdata⟩ := h.wellFormed.current id conn hconn
      rw [hconns conn hid] at hdata
      cases hdata
  have hconn? := connection?_register h.wellFormed id sender auth subdomain
  have hnone : s.connection? id = none := by rw [connection?, hlookup]; rfl
  have hother : ∀ conn : ConnRef, conn.id ≠ id →
      (SubscriptionRegistry.register id sender auth subdomain s).2.conns conn = s.conns conn := by
    intro conn hne
    refine if_neg ?_
    rintro rfl
    exact hne rfl
  refine h.step hi (h.wellFormed.register id sender auth subdomain) rfl
    (fun conn conn' hc hc' hids => ?_) (fun j gj _ hj => ?_) trivial (fun _ h => by cases h)
    (fun scope κ hold _ => ?_) fun m hm => ⟨m, hm, ?_⟩
  · by_cases hid : conn.id = id
    · have hnew : ∀ conn : ConnRef, conn.id = id →
          (SubscriptionRegistry.register id sender auth subdomain s).2.conns conn ≠ none →
          conn = ⟨id, s.registered⟩ := by
        intro conn hid hne
        by_contra hne'
        exact hne ((if_neg hne').trans (hconns conn hid))
      rw [hnew conn hid hc, hnew conn' (hids ▸ hid) hc']
    · rw [hother conn hid] at hc
      rw [hother conn' (hids ▸ hid)] at hc'
      exact h.unique conn conn' hc hc' hids
  · have hvalid := h.valid j gj hj
    by_cases hid : gj.id? = some id
    · cases gj with
      | idle => cases hid
      | busy conn scope sub adding owes =>
        obtain ⟨-, data, hdata, -⟩ := hvalid
        rw [hconns conn (Option.some.inj hid)] at hdata
        cases hdata
      | doomed id' ids scope =>
        cases hid
        have hids : ids = [] := by
          by_contra hids
          exact hvalid.1 hids hnone
        refine ⟨fun hne => absurd hids hne, fun data hdata => ?_⟩
        rw [hconn?, if_pos rfl, Option.some.injEq] at hdata
        subst hdata hids
        exact ⟨rfl, .refl _, fun hne => absurd rfl hne⟩
      | closing id' ids scope =>
        cases hid
        obtain ⟨-, -, conn, hconn, hne⟩ := hvalid
        exact absurd (hconns conn hconn) hne
    · refine hvalid.sameAt h.wellFormed fun id' hid' => ?_
      have hne : id' ≠ id := by
        rintro rfl
        exact hid hid'
      exact ⟨AList.lookup_insert_ne hne, fun conn hconn => hother conn (hconn ▸ hne)⟩
  · refine (hold.resolve_left fun h => h).congr rfl ?_
    rintro ⟨data, hdata, hin⟩
    refine ⟨data, ?_, hin⟩
    rw [hconn?, if_neg, hdata]
    intro hid
    rw [hid, hnone] at hdata
    cases hdata
  · have hnotmem : id ∉ s.connections.keys := AList.lookup_eq_none.mp hlookup
    have hkeys : (SubscriptionRegistry.register id sender auth subdomain s).2.connections.keys =
        id :: s.connections.keys := by
      simp only [SubscriptionRegistry.register, AList.keys_insert]
      rw [List.erase_of_not_mem hnotmem]
    have hsize : ∀ id', (SubscriptionRegistry.register id sender auth subdomain s).2.size id' =
        if id' = id then 0 else s.size id' := fun id' => by
      rw [size, hconn?]
      split <;> rfl
    have htotal : (SubscriptionRegistry.register id sender auth subdomain s).2.totalSubscriptions =
        s.totalSubscriptions := by
      rw [totalSubscriptions, hkeys, List.map_cons, List.sum_cons, hsize, if_pos rfl, Nat.zero_add,
        totalSubscriptions]
      refine congrArg List.sum (List.map_congr_left fun id' hid' => ?_)
      rw [hsize, if_neg]
      rintro rfl
      exact hnotmem hid'
    rw [htotal]

/-- An action that changes nothing but the channels. -/
theorem Ledger.silent (h : Ledger γ s) (hs : s' = { s with channels := s'.channels }) :
    Ledger γ s' := by
  rw [hs]
  exact ⟨⟨h.wellFormed.current, h.wellFormed.fresh⟩, h.indexes, h.unique, h.valid, h.exclusive,
    fun scope κ hfree => (h.settled scope κ hfree).congr rfl fun h => h, h.balance⟩

/-! ### What the books say -/

/-- The connection of which a call has added a subscription that it has not counted yet. -/
def Duty.uncounted? : Duty → Option ConnectionId
  | .busy conn _ _ true true => some conn.id
  | _ => none

theorem Duty.claim_of_uncounted {g : Duty} {id : ConnectionId} (h : g.uncounted? = some id) :
    g.claim = some id := by
  unfold uncounted? at h
  split at h
  · exact h
  · cases h

theorem Duty.uncounted_size {g : Duty} {id : ConnectionId} (h : g.uncounted? = some id)
    (hvalid : g.Valid s) : id ∈ s.connections.keys ∧ 1 ≤ s.size id := by
  unfold uncounted? at h
  split at h
  · rename_i conn scope sub
    cases h
    obtain ⟨hconn, data, hdata, -, -, hsub⟩ := hvalid
    refine ⟨AList.lookup_isSome.mp (by rw [hconn]; rfl), ?_⟩
    rw [size, connection?_of_lookup hconn hdata]
    exact List.length_pos_of_mem (hsub rfl)
  · cases h

theorem neg_uncounted_le_debt (γ : List Duty) :
    -((γ.filterMap Duty.uncounted?).length : ℤ) ≤ (γ.map debt).sum := by
  induction γ with
  | nil => simp
  | cons g γ ih =>
    rw [List.map_cons, List.sum_cons]
    cases hg : g.uncounted? with
    | some id =>
      rw [List.filterMap_cons_some hg, List.length_cons]
      have hdebt : -1 ≤ g.debt := by
        unfold Duty.uncounted? at hg
        split at hg
        · exact le_refl _
        · cases hg
      push_cast
      omega
    | none =>
      rw [List.filterMap_cons_none hg]
      have hdebt : 0 ≤ g.debt := by
        unfold debt
        split
        · rename_i adding owes
          cases adding <;> cases owes <;> first | decide | cases hg
        · exact Int.natCast_nonneg _
        · exact le_refl _
      omega

/-- Never more decrements than increments. -/
theorem Ledger.decrements_le (h : Ledger γ s) {m : SubscriptionMetrics}
    (hm : s.metricsHandler = some m) : m.decrements ≤ m.increments := by
  have hnodup : (γ.filterMap Duty.uncounted?).Nodup := by
    rw [List.Nodup, List.pairwise_filterMap, List.pairwise_iff_getElem]
    rintro i j hi hj hlt id hid id' hid' rfl
    exact absurd (h.exclusive i j _ _ id (List.getElem?_eq_getElem hi) (List.getElem?_eq_getElem hj)
      (Duty.claim_of_uncounted hid) (Duty.claim_of_uncounted hid')) (Nat.ne_of_lt hlt)
  have hsize : ∀ id ∈ γ.filterMap Duty.uncounted?, id ∈ s.connections.keys ∧ 1 ≤ s.size id := by
    intro id hid
    obtain ⟨g, hg, huncounted⟩ := List.mem_filterMap.mp hid
    obtain ⟨i, hi⟩ := List.mem_iff_getElem?.mp hg
    exact Duty.uncounted_size huncounted (h.valid i g hi)
  have hle : (γ.filterMap Duty.uncounted?).length ≤ s.totalSubscriptions :=
    length_le_sum hnodup (fun id hid => (hsize id hid).1) fun id hid => (hsize id hid).2
  have hbalance := h.balance m hm
  have hdebt := neg_uncounted_le_debt γ
  omega

/-- When no call has a duty, what is counted is what is there, and the indexes hold nothing of a
connection that is not in the map. -/
theorem Ledger.quiet (h : Ledger γ s) (hquiet : ∀ (i : ℕ) g, γ[i]? = some g → g = .idle) :
    (∀ scope κ, s.connections.lookup κ.1 = none →
      SubscriptionIndex.Absent κ (s.indexOf scope)) ∧
    ∀ m, s.metricsHandler = some m → m.increments = m.decrements + s.totalSubscriptions := by
  refine ⟨fun scope κ hnone => ?_, fun m hm => ?_⟩
  · refine (h.settled scope κ fun i g hi hown => ?_).absent fun ⟨data, hdata, _⟩ => ?_
    · rw [hquiet i g hi] at hown
      exact hown
    · rw [connection?, hnone] at hdata
      cases hdata
  · have hzero : (γ.map debt).sum = 0 := by
      refine List.sum_eq_zero fun d hd => ?_
      obtain ⟨g, hg, rfl⟩ := List.mem_map.mp hd
      obtain ⟨i, hi⟩ := List.mem_iff_getElem?.mp hg
      rw [hquiet i g hi]
      rfl
    have hbalance := h.balance m hm
    omega

end RelayBuilder
