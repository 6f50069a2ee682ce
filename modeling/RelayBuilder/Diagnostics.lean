import Mathlib.Algebra.BigOperators.Group.Finset.Piecewise
import RelayBuilder.RegistryLedger

/-!
# Diagnostics

The health check of `diagnostics.rs`. Once in a while a task counts what is in the registry and in
its indexes, compares the counts with those of the check before, and warns of scopes whose index
seems to grow or to keep filters of connections that are gone.

The counts are read piece by piece, by a program that may be interleaved with the methods. Between
two calls they are exact.

## Main definitions

* `SubscriptionIndex.stats` and `SubscriptionRegistry.getDiagnostics`
* `logHealthCheck` and `detectAnomalies`
* `SubscriptionRegistry.Accurate`: the counts are those of the connections in the map

## Main results

* `diagnostics_accurate`: between the calls the counts are exact, and no warning is raised
* `healthChecks_reported`: what a sequence of checks reports, whatever is counted
-/

namespace RelayBuilder

open Interleave

/-! ### The counts -/

/-- What is counted in an index. -/
structure IndexStats where
  totalFilters : ℕ
  totalSubscriptions : ℕ
  authorsIndexed : ℕ
  kindsIndexed : ℕ
  eventIdsIndexed : ℕ
  tagsIndexed : ℕ
  trackedEvents : ℕ
  deriving DecidableEq

/-- The body of the loop of `stats`: count a filter that has seen an event. -/
def SubscriptionIndex.countTracked (n : ℕ) (filter : TrackedFilter) :
    Prog IndexLock SubscriptionIndex ℕ := do
  let seen ← .atomic (.filter filter.id) fun s => ((s.filterSeen filter.id).isSome, s)
  pure (if seen then n + 1 else n)

/-- `SubscriptionIndex::stats`. -/
def SubscriptionIndex.stats (order : HashOrder) : Prog IndexLock SubscriptionIndex IndexStats := do
  let tracked ← .atomic .allFilters fun s => (order.iter (s.allFilters.entries.map (·.2)), s)
  let trackedEvents ← tracked.foldlM countTracked 0
  let totalFilters ← .atomic .allFilters fun s => (s.allFilters.entries.length, s)
  let totalSubscriptions ← .atomic .filterGroups fun s => (s.filterGroups.entries.length, s)
  let authorsIndexed ← .atomic .authors fun s => (s.authors.entries.length, s)
  let kindsIndexed ← .atomic .kinds fun s => (s.kinds.entries.length, s)
  let eventIdsIndexed ← .atomic .eventIds fun s => (s.eventIds.entries.length, s)
  let tagsIndexed ← .atomic .tags fun s =>
    ((s.tags.entries.map fun e => e.2.entries.length).sum, s)
  pure { totalFilters, totalSubscriptions, authorsIndexed, kindsIndexed, eventIdsIndexed,
         tagsIndexed, trackedEvents }

/-- What is counted in a scope. -/
structure ScopeDiagnostics where
  scope : Scope
  connectionCount : ℕ
  subscriptionCount : ℕ
  filterCount : ℕ
  trackedEvents : ℕ
  authorsIndexed : ℕ
  kindsIndexed : ℕ
  eventIdsIndexed : ℕ
  tagsIndexed : ℕ
  deriving DecidableEq

structure RegistryDiagnostics where
  totalConnections : ℕ
  scopeDiagnostics : List ScopeDiagnostics
  emptyScopes : List Scope
  deriving DecidableEq

namespace SubscriptionRegistry

/-- The connections in the map with their scopes. -/
def connectionsByScope (order : HashOrder) (s : SubscriptionRegistry) : List (Scope × ConnRef) :=
  (order.iter s.connections.entries).filterMap fun e =>
    (s.conns e.2).map fun data => (data.subdomain, e.2)

/-- The number of subscriptions, read under the read lock. -/
def readSubscriptions (conn : ConnRef) : Prog RegistryLock SubscriptionRegistry ℕ :=
  .await (.subscriptions conn .list) (unlocked conn) fun s =>
    (((s.conns conn).map fun data => data.subscriptions.keys.length).getD 0, s)

/-- Count the subscriptions of a listed connection, if it is in the scope. -/
def countSubscriptions (scope : Scope) (n : ℕ) (c : Scope × ConnRef) :
    Prog RegistryLock SubscriptionRegistry ℕ :=
  if c.1 = scope then do
    let count ← readSubscriptions c.2
    pure (n + count)
  else pure n

/-- The body of the loop of `get_diagnostics` for one scope. -/
def diagnoseScope (order : HashOrder) (connections : List (Scope × ConnRef)) (scope : Scope) :
    Prog RegistryLock SubscriptionRegistry ScopeDiagnostics := do
  let stats ← onIndex scope (SubscriptionIndex.stats order)
  let subscriptionCount ← connections.foldlM (countSubscriptions scope) 0
  pure { scope
         connectionCount := connections.countP (·.1 = scope)
         subscriptionCount
         filterCount := stats.totalFilters
         trackedEvents := stats.trackedEvents
         authorsIndexed := stats.authorsIndexed
         kindsIndexed := stats.kindsIndexed
         eventIdsIndexed := stats.eventIdsIndexed
         tagsIndexed := stats.tagsIndexed }

/-- The loop of `get_diagnostics`. -/
def diagnoseScopes (order : HashOrder) (connections : List (Scope × ConnRef))
    (scopes : List Scope) : Prog RegistryLock SubscriptionRegistry (List ScopeDiagnostics) :=
  scopes.foldlM (fun done scope => do
    let diag ← diagnoseScope order connections scope
    pure (done ++ [diag])) []

/-- `get_diagnostics`. An entry of a map of indexes stands for its `Arc`. -/
def getDiagnostics (order : HashOrder) :
    Prog RegistryLock SubscriptionRegistry RegistryDiagnostics := do
  let scopes ← .atomic .indexes fun s => (order.iter s.indexes.keys, s)
  let connections ← .atomic .connections fun s => (connectionsByScope order s, s)
  let scopeDiagnostics ← diagnoseScopes order connections scopes
  let totalConnections ← .atomic .connections fun s => (s.connections.entries.length, s)
  pure { totalConnections
         scopeDiagnostics
         emptyScopes := scopes.filter fun scope => !connections.any (·.1 = scope) }

end SubscriptionRegistry

/-! ### The health check -/

structure ScopeMetrics where
  filterCount : ℕ
  connectionCount : ℕ
  trackedEvents : ℕ
  deriving DecidableEq

structure IndexMetrics where
  authors : ℕ
  kinds : ℕ
  tags : ℕ
  deriving DecidableEq

/-- What a check keeps of the counts of a scope. -/
def ScopeDiagnostics.metrics (diag : ScopeDiagnostics) : ScopeMetrics :=
  ⟨diag.filterCount, diag.connectionCount, diag.trackedEvents⟩

/-- What the check before has measured. The scopes are named by their debug text. -/
structure PreviousMeasurements where
  totalConnections : ℕ
  totalSubscriptions : ℕ
  scopeMetrics : AList fun _ : String => ScopeMetrics
  indexMetrics : IndexMetrics
  deriving DecidableEq

/-- `PreviousMeasurements::default`. -/
def PreviousMeasurements.default : PreviousMeasurements := ⟨0, 0, ∅, ⟨0, 0, 0⟩⟩

/-- A line of the log about tracked events that grow faster than connections, with the numbers its
rate is computed from, or a line about a scope without connections. -/
inductive GrowthWarning where
  | trackedEvents (eventsDelta connDelta : ℤ)
  | emptyScope (text : String)
  deriving DecidableEq

/-- The line of the log about a scope. -/
structure ScopeLine where
  name : String
  filterCount : ℕ
  connectionCount : ℕ
  trackedEvents : ℕ
  eventsDelta : ℤ
  deriving DecidableEq

/-- What a health check logs. The average number of subscriptions is left out. -/
@[ext]
structure HealthCheck where
  connections : ℕ
  connDelta : ℤ
  subscriptions : ℕ
  subDelta : ℤ
  scopes : List ScopeLine
  authors : ℕ
  authorsDelta : ℤ
  kinds : ℕ
  kindsDelta : ℤ
  tags : ℕ
  tagsDelta : ℤ
  warnings : List GrowthWarning
  deriving DecidableEq

def scopeName : Scope → String
  | .default => "Default"
  | .named name => name

/-- The line about a scope, which had `before` tracked events in the check before. -/
def ScopeDiagnostics.line (diag : ScopeDiagnostics) (before : ℕ) : ScopeLine where
  name := scopeName diag.scope
  filterCount := diag.filterCount
  connectionCount := diag.connectionCount
  trackedEvents := diag.trackedEvents
  eventsDelta := diag.trackedEvents - before

/-- The warning about the tracked events of a scope, by what was kept of it. -/
def growingWarning (connDelta : ℤ) (diag : ScopeDiagnostics) (kept : Option ScopeMetrics) :
    Option GrowthWarning :=
  match kept with
  | none => none
  | some prev =>
    let eventsDelta : ℤ := diag.trackedEvents - prev.trackedEvents
    if eventsDelta > 0 ∧ eventsDelta > connDelta * 100 then
      some (.trackedEvents eventsDelta connDelta)
    else none

/-- The warning about a scope without connections, by what was kept of it. -/
def retainingWarning (scope : Scope) (kept : Option ScopeMetrics) : Option GrowthWarning :=
  match kept with
  | none => none
  | some metrics =>
    if metrics.filterCount > 0 then
      some (.emptyScope ("Scope '" ++ scopeName scope ++ "' has 0 connections but " ++
        toString metrics.filterCount ++ " filters"))
    else none

section

variable (debug : Scope → String)

/-- The tracked events that a scope had in the check before. -/
def PreviousMeasurements.trackedEvents (previous : PreviousMeasurements) (scope : Scope) : ℕ :=
  ((previous.scopeMetrics.lookup (debug scope)).map ScopeMetrics.trackedEvents).getD 0

/-- Log a scope and update the previous metrics. -/
def logScope (logged : List ScopeLine × PreviousMeasurements) (diag : ScopeDiagnostics) :
    List ScopeLine × PreviousMeasurements :=
  (logged.1 ++ [diag.line (logged.2.trackedEvents debug diag.scope)],
    { logged.2 with
      scopeMetrics := logged.2.scopeMetrics.insert (debug diag.scope) diag.metrics })

/-- `detect_anomalies`. -/
def detectAnomalies (d : RegistryDiagnostics) (connDelta : ℤ) (previous : PreviousMeasurements) :
    List GrowthWarning :=
  (if connDelta > 0 then
    d.scopeDiagnostics.filterMap fun diag =>
      growingWarning connDelta diag (previous.scopeMetrics.lookup (debug diag.scope))
  else []) ++
    d.emptyScopes.filterMap fun scope =>
      retainingWarning scope (previous.scopeMetrics.lookup (debug scope))

/-- `log_health_check`. -/
def logHealthCheck (d : RegistryDiagnostics) (previous : PreviousMeasurements) :
    HealthCheck × PreviousMeasurements :=
  let connDelta : ℤ := d.totalConnections - previous.totalConnections
  let totalSubscriptions := (d.scopeDiagnostics.map (·.subscriptionCount)).sum
  let logged := d.scopeDiagnostics.foldl (logScope debug) ([], previous)
  let authors := (d.scopeDiagnostics.map (·.authorsIndexed)).sum
  let kinds := (d.scopeDiagnostics.map (·.kindsIndexed)).sum
  let tags := (d.scopeDiagnostics.map (·.tagsIndexed)).sum
  ({ connections := d.totalConnections
     connDelta
     subscriptions := totalSubscriptions
     subDelta := totalSubscriptions - previous.totalSubscriptions
     scopes := logged.1
     authors
     authorsDelta := authors - previous.indexMetrics.authors
     kinds
     kindsDelta := kinds - previous.indexMetrics.kinds
     tags
     tagsDelta := tags - previous.indexMetrics.tags
     warnings := detectAnomalies debug d connDelta logged.2 },
    { totalConnections := d.totalConnections
      totalSubscriptions
      scopeMetrics := logged.2.scopeMetrics
      indexMetrics := ⟨authors, kinds, tags⟩ })

/-- The checks of `run_diagnostics`, one after another. -/
def healthChecks (ds : List RegistryDiagnostics) : List HealthCheck × PreviousMeasurements :=
  ds.foldl (fun checks d =>
    let check := logHealthCheck debug d checks.2
    (checks.1 ++ [check.1], check.2)) ([], .default)

end

/-! ### Lists -/

/-- A sum over a list, taken apart by a function with values in `ks`. -/
theorem sum_map_fibers {α ι : Type} [DecidableEq ι] (f : α → ι) (g : α → ℕ) {ks : List ι}
    (hks : ks.Nodup) {xs : List α} (h : ∀ x ∈ xs, g x ≠ 0 → f x ∈ ks) :
    (ks.map fun k => ((xs.filter fun x => f x = k).map g).sum).sum = (xs.map g).sum := by
  induction xs with
  | nil => simp
  | cons x xs ih =>
    have hsplit : ∀ k, (((x :: xs).filter fun x => f x = k).map g).sum =
        (if k = f x then g x else 0) + ((xs.filter fun x => f x = k).map g).sum := by
      intro k
      by_cases hk : f x = k
      · simp [hk]
      · simp [hk, Ne.symm hk]
    have hone : (ks.map fun k => if k = f x then g x else 0).sum = g x := by
      rw [← List.sum_toFinset _ hks, Finset.sum_ite_eq']
      split
      · rfl
      · rename_i hx
        by_contra hne
        exact hx (List.mem_toFinset.mpr <| h x List.mem_cons_self (Ne.symm hne))
    simp only [hsplit, List.sum_map_add, List.map_cons, List.sum_cons]
    rw [hone, ih fun y hy => h y (List.mem_cons_of_mem x hy)]

/-- An element of a list is the one that is found by a value that no other element has. -/
theorem find?_of_nodup {α ι : Type} [DecidableEq ι] (f : α → ι) {xs : List α}
    (hnodup : (xs.map f).Nodup) {x : α} (hx : x ∈ xs) : xs.find? (fun y => f y = f x) = some x := by
  induction xs with
  | nil => cases hx
  | cons y ys ih =>
    obtain ⟨hnot, hnodup⟩ := List.nodup_cons.mp hnodup
    rcases List.mem_cons.mp hx with rfl | hx
    · simp
    · have hne : f y ≠ f x := fun h => hnot (h ▸ List.mem_map_of_mem hx)
      simp [hne, ih hnodup hx]

/-! ### The counts of an index -/

namespace SubscriptionIndex

variable {s : SubscriptionIndex}

/-- What is counted in an index that nobody changes. -/
def statsOf (s : SubscriptionIndex) : IndexStats where
  totalFilters := s.allFilters.entries.length
  totalSubscriptions := s.filterGroups.entries.length
  authorsIndexed := s.authors.entries.length
  kindsIndexed := s.kinds.entries.length
  eventIdsIndexed := s.eventIds.entries.length
  tagsIndexed := (s.tags.entries.map fun e => e.2.entries.length).sum
  trackedEvents := s.allFilters.entries.countP fun e => (s.filterSeen e.2.id).isSome

theorem alone_read {α : Type} {l : IndexLock} {f : SubscriptionIndex → α} :
    (Prog.atomic l fun s => (f s, s)).Alone (fun _ _ => True) (fun a s' => a = f s ∧ s = s') s :=
  Prog.Alone.atomic trivial ⟨rfl, rfl⟩

theorem countTracked_alone (n : ℕ) (filter : TrackedFilter) (s : SubscriptionIndex) :
    (countTracked n filter).Alone (fun _ _ => True)
      (fun n' s' => n' = (if (s.filterSeen filter.id).isSome then n + 1 else n) ∧ s = s') s := by
  rw [countTracked]
  refine Prog.Alone.bind alone_read ?_
  rintro _ _ ⟨rfl, rfl⟩
  exact ⟨rfl, rfl⟩

theorem countAllTracked_alone (tracked : List TrackedFilter) (n : ℕ) (s : SubscriptionIndex) :
    (tracked.foldlM countTracked n).Alone (fun _ _ => True)
      (fun n' s' => n' = n + tracked.countP (fun f => (s.filterSeen f.id).isSome) ∧ s = s') s := by
  refine Prog.Alone.post (Prog.Alone.foldlM (J := fun rest n' s' =>
    n' + rest.countP (fun f => (s.filterSeen f.id).isSome) =
      n + tracked.countP (fun f => (s.filterSeen f.id).isSome) ∧ s = s') ?_ ⟨rfl, rfl⟩) ?_
  · rintro f rest m _ ⟨hm, rfl⟩
    refine (countTracked_alone m f _).post ?_
    rintro _ _ ⟨rfl, rfl⟩
    refine ⟨?_, rfl⟩
    rw [← hm, List.countP_cons]
    split <;> omega
  · rintro m _ ⟨hm, rfl⟩
    exact ⟨by simpa using hm, rfl⟩

theorem stats_alone (order : HashOrder) (s : SubscriptionIndex) :
    (stats order).Alone (fun _ _ => True) (fun st s' => st = s.statsOf ∧ s = s') s := by
  rw [stats]
  refine Prog.Alone.bind alone_read ?_
  rintro tracked _ ⟨htracked, rfl⟩
  refine Prog.Alone.bind (countAllTracked_alone tracked 0 _) ?_
  rintro trackedEvents _ ⟨hevents, rfl⟩
  iterate 6
    refine Prog.Alone.bind alone_read ?_
    rintro _ _ ⟨rfl, rfl⟩
  refine ⟨?_, rfl⟩
  have hcount : trackedEvents = s.statsOf.trackedEvents := by
    rw [hevents, htracked, Nat.zero_add, (order.perm _).countP_eq, List.countP_map]
    rfl
  rw [hcount]
  rfl

/-- The filters that an index tracks for a subscription are as many as it holds. -/
theorem Contents.length_owned {H : Key → Option (List Filter)} (h : Contents H s) (κ : Key) :
    (s.allFilters.entries.filter fun e => e.2.parentSubscription = κ).length =
      ((H κ).getD []).length := by
  obtain ⟨ts, hts, hholding⟩ := (h.entry κ).holds
  have hid : ∀ e ∈ s.allFilters.entries, e.2.id = e.1 := fun e he =>
    (h.wellFormed.tracked e.1 e.2 (h.wellFormed.all e.1 e.2
      (AList.mem_lookup_iff.mpr he))).1
  have hnodup : ((s.allFilters.entries.map (·.2)).map TrackedFilter.id).Nodup := by
    have hkeys : s.allFilters.entries.map (TrackedFilter.id ∘ fun e => e.2) =
        s.allFilters.entries.map Sigma.fst := List.map_congr_left hid
    rw [List.map_map, hkeys]
    exact s.allFilters.nodupKeys
  have hperm : ((s.allFilters.entries.filter fun e => e.2.parentSubscription = κ).map (·.2)).Perm
      ts := by
    rw [List.perm_ext_iff_of_nodup ((List.Nodup.of_map _ hnodup).sublist
      (List.filter_sublist.map _)) (List.Nodup.of_map _ hholding.nodup)]
    intro t
    simp only [List.mem_map, List.mem_filter, decide_eq_true_eq]
    constructor
    · rintro ⟨⟨id, t⟩, ⟨he, hparent⟩, rfl⟩
      exact ((hholding.all id t hparent).mp (AList.mem_lookup_iff.mpr he)).1
    · intro ht
      have hparent := (hholding.created t ht).2
      exact ⟨⟨t.id, t⟩, ⟨AList.mem_lookup_iff.mp ((hholding.all t.id t hparent).mpr ⟨ht, rfl⟩),
        hparent⟩, rfl⟩
  rw [← hts, List.length_map, ← hperm.length_eq, List.length_map]

/-- An index tracks as many filters as it holds in all. -/
theorem Contents.length_allFilters {H : Key → Option (List Filter)} (h : Contents H s)
    {keys : List Key} (hkeys : keys.Nodup) (hall : ∀ κ, (H κ).getD [] ≠ [] → κ ∈ keys) :
    s.allFilters.entries.length = (keys.map fun κ => ((H κ).getD []).length).sum := by
  have howned : ∀ κ, ((s.allFilters.entries.filter fun e =>
      e.2.parentSubscription = κ).map fun _ => 1).sum = ((H κ).getD []).length := by
    intro κ
    rw [← h.length_owned κ]
    simp
  have hfibers : (keys.map fun κ => ((s.allFilters.entries.filter fun e =>
      e.2.parentSubscription = κ).map fun _ => 1).sum).sum =
        (s.allFilters.entries.map fun _ => 1).sum := by
    refine sum_map_fibers _ _ hkeys fun e he _ => hall _ fun hnil => ?_
    have hnone := h.length_owned e.2.parentSubscription
    rw [hnil, List.length_nil, List.length_eq_zero_iff, List.filter_eq_nil_iff] at hnone
    exact hnone e he (decide_eq_true rfl)
  simp only [howned] at hfibers
  rw [hfibers]
  simp

end SubscriptionIndex

/-! ### The counts of the registry -/

namespace SubscriptionRegistry

variable {s s' : SubscriptionRegistry} {order : HashOrder} {scope : Scope}

/-- The ids that are registered with a scope. -/
def connectedIn (s : SubscriptionRegistry) (scope : Scope) : List ConnectionId :=
  s.connections.keys.filter fun id => (s.connection? id).any (·.subdomain = scope)

/-- How many filters an id has. -/
def filterCount (s : SubscriptionRegistry) (id : ConnectionId) : ℕ :=
  ((s.connection? id).map fun data =>
    (data.subscriptions.entries.map fun e => e.2.length).sum).getD 0

/-- The connections, their subscriptions and the indexes are the same. -/
structure Unchanged (s s' : SubscriptionRegistry) : Prop extends SameConnections s s' where
  indexOf : ∀ scope, s'.indexOf scope = s.indexOf scope

theorem Unchanged.refl (s : SubscriptionRegistry) : Unchanged s s := ⟨.refl s, fun _ => rfl⟩

theorem Unchanged.trans {a b c : SubscriptionRegistry} (h : Unchanged a b) (h' : Unchanged b c) :
    Unchanged a c :=
  ⟨h.toSameConnections.trans h'.toSameConnections,
    fun scope => (h'.indexOf scope).trans (h.indexOf scope)⟩

/-- A connection that was listed: the entry of the map, and what is behind it. -/
def Listed (s : SubscriptionRegistry) (c : Scope × ConnRef) : Prop :=
  ∃ data, s.connection? c.2.id = some data ∧ s.conns c.2 = some data ∧ data.subdomain = c.1

theorem entry_listed (h : WellFormed s) {e : Sigma fun _ : ConnectionId => ConnRef}
    (he : e ∈ s.connections.entries) :
    e.2.id = e.1 ∧ ∃ data, s.conns e.2 = some data ∧ s.connection? e.1 = some data := by
  have hlookup : s.connections.lookup e.1 = some e.2 := AList.mem_lookup_iff.mpr he
  obtain ⟨hid, data, hdata⟩ := h.current e.1 e.2 hlookup
  exact ⟨hid, data, hdata, connection?_of_lookup hlookup hdata⟩

theorem listed_of_mem (h : WellFormed s) {c : Scope × ConnRef}
    (hc : c ∈ connectionsByScope order s) : s.Listed c := by
  rw [connectionsByScope, List.mem_filterMap] at hc
  obtain ⟨e, he, hc⟩ := hc
  obtain ⟨hid, data, hdata, hconn⟩ := entry_listed h (order.mem_iter.mp he)
  rw [hdata, Option.map_some, Option.some.injEq] at hc
  subst hc
  exact ⟨data, hid ▸ hconn, hdata, rfl⟩

/-- The listed connections of a scope are those that are registered with it. -/
theorem listed_perm (h : WellFormed s) (order : HashOrder) (scope : Scope) :
    (((connectionsByScope order s).filter (·.1 = scope)).map (·.2.id)).Perm
      (s.connectedIn scope) := by
  have hentries : ∀ es : List (Sigma fun _ : ConnectionId => ConnRef),
      (∀ e ∈ es, e ∈ s.connections.entries) →
      (((es.filterMap fun e => (s.conns e.2).map fun data => (data.subdomain, e.2)).filter
        (·.1 = scope)).map (·.2.id)) =
        (es.map Sigma.fst).filter fun id => (s.connection? id).any (·.subdomain = scope) := by
    intro es hes
    induction es with
    | nil => rfl
    | cons e es ih =>
      obtain ⟨hid, data, hdata, hconn⟩ := entry_listed h (hes e List.mem_cons_self)
      have htail := ih fun e' he' => hes e' (List.mem_cons_of_mem e he')
      by_cases hscope : data.subdomain = scope
      · simp [hdata, hconn, hscope, hid, htail]
      · simp [hdata, hconn, hscope, htail]
  rw [connectedIn, AList.keys, List.keys, ← hentries s.connections.entries fun _ he => he]
  exact (((order.perm s.connections.entries).filterMap _).filter _).map _

theorem readSubscriptions_alone (hidle : Idle s) {c : Scope × ConnRef} (hc : s.Listed c) :
    (readSubscriptions c.2).Alone (fun _ _ => True) (fun n s' => n = s.size c.2.id ∧ s = s') s := by
  obtain ⟨data, hconn, hdata, -⟩ := hc
  refine Prog.Alone.await (unlocked_of_idle hidle c.2) trivial ⟨?_, rfl⟩
  rw [size, hconn, hdata]

theorem countAllSubscriptions_alone (hidle : Idle s) (connections : List (Scope × ConnRef))
    (hlisted : ∀ c ∈ connections, s.Listed c) (scope : Scope) :
    (connections.foldlM (countSubscriptions scope) 0).Alone (fun _ _ => True)
      (fun n s' => n = (((connections.filter (·.1 = scope)).map (·.2.id)).map s.size).sum ∧
        s = s') s := by
  refine Prog.Alone.post (Prog.Alone.foldlM (J := fun rest n s' =>
    (∀ c ∈ rest, s.Listed c) ∧ n + (((rest.filter (·.1 = scope)).map (·.2.id)).map s.size).sum =
      (((connections.filter (·.1 = scope)).map (·.2.id)).map s.size).sum ∧ s = s') ?_
    ⟨hlisted, Nat.zero_add _, rfl⟩) ?_
  · rintro c rest n _ ⟨hrest, hn, rfl⟩
    rw [countSubscriptions]
    have hrest' : ∀ c ∈ rest, s.Listed c := fun c' hc' => hrest c' (List.mem_cons_of_mem c hc')
    by_cases hc : c.1 = scope
    · rw [if_pos hc]
      refine Prog.Alone.bind (readSubscriptions_alone hidle (hrest c List.mem_cons_self)) ?_
      rintro _ _ ⟨rfl, rfl⟩
      refine ⟨hrest', ?_, rfl⟩
      rw [← hn]
      simp [hc, Nat.add_assoc]
    · rw [if_neg hc]
      refine ⟨hrest', ?_, rfl⟩
      rw [← hn]
      simp [hc]
  · rintro n _ ⟨-, hn, rfl⟩
    exact ⟨hn, rfl⟩

theorem mem_connectedIn {id : ConnectionId} : id ∈ s.connectedIn scope ↔
    ∃ data, s.connection? id = some data ∧ data.subdomain = scope := by
  rw [connectedIn, List.mem_filter, Option.any_eq_true]
  constructor
  · rintro ⟨-, data, hconn, hscope⟩
    exact ⟨data, hconn, of_decide_eq_true hscope⟩
  · rintro ⟨data, hconn, hscope⟩
    refine ⟨?_, data, hconn, decide_eq_true hscope⟩
    obtain ⟨conn, hlookup, -⟩ := Option.bind_eq_some_iff.mp hconn
    exact AList.lookup_isSome.mp (Option.isSome_of_eq_some hlookup)

/-- The subscriptions of the connections of a scope. -/
def keysIn (s : SubscriptionRegistry) (scope : Scope) : List Key :=
  (s.connectedIn scope).flatMap fun id => ((s.connection? id).map (keysOf id)).getD []

theorem nodup_keysIn (s : SubscriptionRegistry) (scope : Scope) : (s.keysIn scope).Nodup := by
  refine List.nodup_flatMap.mpr ⟨fun id _ => ?_, ?_⟩
  · cases s.connection? id with
    | none => exact List.nodup_nil
    | some data =>
      exact data.subscriptions.nodupKeys.map fun _ _ h => (Prod.mk.injEq _ _ _ _ ▸ h).2
  · have hnodup : (s.connectedIn scope).Nodup := s.connections.nodupKeys.filter _
    refine hnodup.imp fun {id id'} hne κ hκ hκ' => hne ?_
    have hfst : ∀ id, κ ∈ ((s.connection? id).map (keysOf id)).getD [] → κ.1 = id := by
      intro id h
      cases hconn : s.connection? id with
      | none => simp [hconn] at h
      | some data =>
        simp only [hconn, Option.map_some, Option.getD_some, keysOf, List.mem_map] at h
        obtain ⟨sub, -, rfl⟩ := h
        rfl
    rw [← hfst id hκ, hfst id' hκ']

theorem mem_keysIn {κ : Key} (h : (s.stored (scope, κ)).getD [] ≠ []) : κ ∈ s.keysIn scope := by
  cases hconn : s.connection? κ.1 with
  | none => simp [stored, hconn] at h
  | some data =>
    by_cases hscope : data.subdomain = scope
    · have hmem : κ.2 ∈ data.subscriptions.keys := by
        by_contra hnot
        have hnone : data.subscriptions.lookup κ.2 = none := AList.lookup_eq_none.mpr hnot
        simp [stored, hconn, hscope, hnone] at h
      refine List.mem_flatMap.mpr ⟨κ.1, mem_connectedIn.mpr ⟨data, hconn, hscope⟩, ?_⟩
      rw [hconn]
      exact List.mem_map.mpr ⟨κ.2, hmem, rfl⟩
    · simp [stored, hconn, hscope] at h

/-- The filters that are stored for the connections of a scope, counted in two ways. -/
theorem sum_stored (s : SubscriptionRegistry) (scope : Scope) :
    ((s.keysIn scope).map fun κ => ((s.stored (scope, κ)).getD []).length).sum =
      ((s.connectedIn scope).map s.filterCount).sum := by
  rw [keysIn, List.map_flatMap, List.flatMap_def, List.sum_flatten, List.map_map]
  refine congrArg List.sum (List.map_congr_left fun id hid => ?_)
  obtain ⟨data, hconn, hscope⟩ := mem_connectedIn.mp hid
  simp only [Function.comp_apply, filterCount, hconn, Option.map_some, Option.getD_some, keysOf,
    AList.keys, List.keys, List.map_map]
  refine congrArg List.sum (List.map_congr_left fun e he => ?_)
  have hlookup : data.subscriptions.lookup e.1 = some e.2 := AList.mem_lookup_iff.mpr he
  simp [stored, hconn, hscope, hlookup]

/-- The index of a scope tracks the filters of the connections of the scope. -/
theorem Live.length_allFilters (h : Live s.stored s) (scope : Scope) :
    (s.indexOf scope).allFilters.entries.length =
      ((s.connectedIn scope).map s.filterCount).sum := by
  rw [← sum_stored]
  exact (h scope).length_allFilters (nodup_keysIn s scope) fun _ => mem_keysIn

/-- A scope without an index has no filters. -/
theorem Live.mem_indexes (h : Live s.stored s) {id : ConnectionId}
    (hid : id ∈ s.connectedIn scope) (hcount : s.filterCount id ≠ 0) : scope ∈ s.indexes.keys := by
  by_contra hnot
  have hlength := h.length_allFilters scope
  rw [indexOf, AList.lookup_eq_none.mpr hnot] at hlength
  have hzero := List.sum_eq_zero_iff_forall_eq_nat.mp hlength.symm
  exact hcount (hzero _ (List.mem_map_of_mem hid))

/-- All filters are in the index of some scope. -/
theorem Live.sum_filterCount (h : Live s.stored s) (hwf : WellFormed s) :
    (s.indexes.keys.map fun scope => ((s.connectedIn scope).map s.filterCount).sum).sum =
      (s.connections.keys.map s.filterCount).sum := by
  have hscope : ∀ id ∈ s.connections.keys, ∃ data, s.connection? id = some data := by
    intro id hid
    obtain ⟨conn, hconn⟩ := Option.isSome_iff_exists.mp (AList.lookup_isSome.mpr hid)
    obtain ⟨-, data, hdata⟩ := hwf.current id conn hconn
    exact ⟨data, connection?_of_lookup hconn hdata⟩
  rw [← sum_map_fibers (fun id => ((s.connection? id).map (·.subdomain)).getD .default)
    s.filterCount s.indexes.nodupKeys]
  · refine congrArg List.sum (List.map_congr_left fun scope _ => ?_)
    refine congrArg (fun ids => (List.map s.filterCount ids).sum) ?_
    refine List.filter_congr fun id hid => ?_
    obtain ⟨data, hconn⟩ := hscope id hid
    simp [hconn]
  · intro id hid hcount
    obtain ⟨data, hconn⟩ := hscope id hid
    rw [hconn]
    exact h.mem_indexes (mem_connectedIn.mpr ⟨data, hconn, rfl⟩) hcount

/-- What is counted in a scope is what the connections of the scope have. -/
structure ScopeAccurate (s : SubscriptionRegistry) (diag : ScopeDiagnostics) : Prop where
  connections : diag.connectionCount = (s.connectedIn diag.scope).length
  subscriptions : diag.subscriptionCount = ((s.connectedIn diag.scope).map s.size).sum
  filters : diag.filterCount = ((s.connectedIn diag.scope).map s.filterCount).sum
  trackedEvents : diag.trackedEvents ≤ diag.filterCount

/-- What is counted is what is there: the connections in the map, and scope by scope what the
connections of the scope have. No filter is left out, and the scopes that are called empty are
those with an index and without a connection. -/
structure Accurate (s : SubscriptionRegistry) (d : RegistryDiagnostics) : Prop where
  connections : d.totalConnections = s.connections.keys.length
  scopes : (d.scopeDiagnostics.map (·.scope)).Perm s.indexes.keys
  scope : ∀ diag ∈ d.scopeDiagnostics, s.ScopeAccurate diag
  filters : (d.scopeDiagnostics.map (·.filterCount)).sum =
    (s.connections.keys.map s.filterCount).sum
  emptyScopes : ∀ scope, scope ∈ d.emptyScopes ↔ scope ∈ s.indexes.keys ∧ s.connectedIn scope = []

theorem Unchanged.listed (h : Unchanged s s') {c : Scope × ConnRef} (hc : s.Listed c) :
    s'.Listed c := by
  obtain ⟨data, hconn, hdata, hscope⟩ := hc
  exact ⟨data, (h.connection? _).trans hconn, h.conns ▸ hdata, hscope⟩

theorem Unchanged.size (h : Unchanged s s') : s'.size = s.size := by
  funext id
  rw [SubscriptionRegistry.size, SubscriptionRegistry.size, h.connection?]

theorem diagnoseScope_alone (h : Live s.stored s) (hwf : WellFormed s) (hidle : Idle s)
    (hs : Unchanged s s') (scope : Scope) :
    (diagnoseScope order (connectionsByScope order s) scope).Alone (fun _ _ => True)
      (fun diag s'' => diag.scope = scope ∧ s.ScopeAccurate diag ∧ Unchanged s s'') s' := by
  rw [diagnoseScope]
  refine Prog.Alone.bind ((alone_onIndex (SubscriptionIndex.stats_alone order _)).conseq
    (fun _ _ _ => trivial) fun _ _ h => h) ?_
  rintro _ s₁ ⟨⟨rfl, hindex⟩, honly⟩
  have hs₁ : Unchanged s s₁ := by
    refine ⟨hs.toSameConnections.trans honly.toSameConnections, fun scope' => ?_⟩
    by_cases hscope : scope' = scope
    · rw [hscope, ← hindex, hs.indexOf]
    · rw [SubscriptionRegistry.indexOf, honly.indexes scope' hscope]
      exact hs.indexOf scope'
  refine Prog.Alone.bind (countAllSubscriptions_alone (hs₁.idle hidle) _
    (fun c hc => hs₁.listed (listed_of_mem hwf hc)) scope) ?_
  rintro _ _ ⟨rfl, rfl⟩
  have hperm := listed_perm hwf order scope
  have hfilters := h.length_allFilters scope
  refine ⟨rfl, ⟨?_, ?_, ?_, ?_⟩, hs₁⟩
  · rw [← hperm.length_eq, List.length_map, ← List.countP_eq_length_filter]
  · rw [hs₁.size]
    exact (hperm.map s.size).sum_eq
  · rw [hs.indexOf]
    exact hfilters
  · exact List.countP_le_length

theorem diagnoseScopes_alone (h : Live s.stored s) (hwf : WellFormed s) (hidle : Idle s)
    (scopes : List Scope) :
    (diagnoseScopes order (connectionsByScope order s) scopes).Alone (fun _ _ => True)
      (fun ds s' => ds.map (·.scope) = scopes ∧ (∀ diag ∈ ds, s.ScopeAccurate diag) ∧
        Unchanged s s') s := by
  refine Prog.Alone.post (Prog.Alone.foldlM (J := fun rest done s' =>
    done.map (·.scope) ++ rest = scopes ∧ (∀ diag ∈ done, s.ScopeAccurate diag) ∧
      Unchanged s s') ?_ ⟨rfl, fun _ hdiag => absurd hdiag List.not_mem_nil, .refl s⟩) ?_
  · rintro scope rest done s' ⟨hdone, haccurate, hs'⟩
    refine Prog.Alone.bind (diagnoseScope_alone h hwf hidle hs' scope) ?_
    rintro diag s'' ⟨hscope, hdiag, hs''⟩
    refine ⟨?_, fun diag' hmem => ?_, hs''⟩
    · rw [← hdone, List.map_append, List.append_assoc, List.map_singleton, hscope]
      rfl
    · rcases List.mem_append.mp hmem with hmem | hmem
      · exact haccurate diag' hmem
      · rw [List.mem_singleton.mp hmem]
        exact hdiag
  · rintro done s' ⟨hdone, h⟩
    exact ⟨by rw [← hdone, List.append_nil], h⟩

/-- **The counts are exact** when nobody else is at work. -/
theorem getDiagnostics_alone (h : Live s.stored s) (hwf : WellFormed s) (hidle : Idle s)
    (order : HashOrder) :
    (getDiagnostics order).Alone (fun _ _ => True)
      (fun d s' => s.Accurate d ∧ Unchanged s s') s := by
  rw [getDiagnostics]
  refine Prog.Alone.bind (Prog.Alone.atomic
    (Q := fun scopes s' => scopes = order.iter s.indexes.keys ∧ s = s') trivial ⟨rfl, rfl⟩) ?_
  rintro scopes _ ⟨hscopes, rfl⟩
  refine Prog.Alone.bind (Prog.Alone.atomic
    (Q := fun cs s' => cs = connectionsByScope order s ∧ s = s') trivial ⟨rfl, rfl⟩) ?_
  rintro _ _ ⟨rfl, rfl⟩
  refine Prog.Alone.bind (diagnoseScopes_alone h hwf hidle scopes) ?_
  rintro ds s' ⟨hds, haccurate, hs'⟩
  refine Prog.Alone.bind (Prog.Alone.atomic
    (Q := fun n s'' => n = s'.connections.entries.length ∧ s' = s'') trivial ⟨rfl, rfl⟩) ?_
  rintro _ _ ⟨rfl, rfl⟩
  have hperm : (ds.map (·.scope)).Perm s.indexes.keys := by
    rw [hds, hscopes]
    exact order.perm _
  refine ⟨⟨?_, hperm, haccurate, ?_, fun scope => ?_⟩, hs'⟩
  · rw [hs'.connections]
    exact (List.length_map _).symm
  · rw [← h.sum_filterCount hwf, ← (hperm.map _).sum_eq, List.map_map]
    exact congrArg List.sum (List.map_congr_left fun diag hdiag => (haccurate diag hdiag).filters)
  · have hempty : s.connectedIn scope = [] ↔
        ∀ c ∈ connectionsByScope order s, c.1 ≠ scope := by
      rw [← List.length_eq_zero_iff, ← (listed_perm hwf order scope).length_eq,
        List.length_map, List.length_eq_zero_iff, List.filter_eq_nil_iff]
      simp
    rw [List.mem_filter, hempty, hscopes, order.mem_iter]
    simp

end SubscriptionRegistry


/-! ### One check -/

section

variable {debug : Scope → String} {previous : PreviousMeasurements} {d : RegistryDiagnostics}
  {diags : List ScopeDiagnostics} {lines : List ScopeLine} {before : List RegistryDiagnostics}

/-- What is kept of a scope after some scopes were listed, if the scopes are listed once each. -/
theorem lookup_logScopes (hdebug : Function.Injective debug) (scope : Scope) :
    (diags.foldl (logScope debug) (lines, previous)).2.scopeMetrics.lookup (debug scope) =
      ((diags.reverse.find? (·.scope = scope)).map ScopeDiagnostics.metrics).or
        (previous.scopeMetrics.lookup (debug scope)) := by
  induction diags generalizing lines previous with
  | nil => rfl
  | cons diag diags ih =>
    rw [List.foldl_cons, logScope, ih, List.reverse_cons, List.find?_append, Option.map_or,
      Option.or_assoc]
    congr 1
    by_cases hscope : diag.scope = scope
    · subst hscope
      simp
    · have hne : debug scope ≠ debug diag.scope := fun h => hscope (hdebug h).symm
      simp [hscope, AList.lookup_insert_ne hne]

/-- Scopes that are listed once each are compared with the check before. -/
theorem logScopes_lines (hdebug : Function.Injective debug)
    (hnodup : (diags.map (·.scope)).Nodup) :
    (diags.foldl (logScope debug) (lines, previous)).1 =
      lines ++ diags.map fun diag => diag.line (previous.trackedEvents debug diag.scope) := by
  induction diags generalizing lines previous with
  | nil => simp
  | cons diag diags ih =>
    obtain ⟨hnot, hnodup⟩ := List.nodup_cons.mp hnodup
    rw [List.foldl_cons, logScope, ih hnodup, List.append_assoc]
    congr 1
    rw [List.map_cons, List.singleton_append]
    congr 1
    refine List.map_congr_left fun diag' hdiag' => ?_
    have hne : debug diag'.scope ≠ debug diag.scope := by
      intro h
      have hmem := List.mem_map_of_mem (f := fun diag => diag.scope) hdiag'
      rw [hdebug h] at hmem
      exact hnot hmem
    rw [PreviousMeasurements.trackedEvents, PreviousMeasurements.trackedEvents,
      AList.lookup_insert_ne hne]

/-- **Nothing ever grows.** What was kept of a scope is overwritten before it is compared with, so
there are warnings about empty scopes only. -/
theorem warnings_logHealthCheck (hdebug : Function.Injective debug)
    (hnodup : (d.scopeDiagnostics.map (·.scope)).Nodup) :
    (logHealthCheck debug d previous).1.warnings = d.emptyScopes.filterMap fun scope =>
      retainingWarning scope (((d.scopeDiagnostics.reverse.find? (·.scope = scope)).map
        ScopeDiagnostics.metrics).or (previous.scopeMetrics.lookup (debug scope))) := by
  have hgrowing : ∀ connDelta : ℤ, d.scopeDiagnostics.filterMap (fun diag =>
      growingWarning connDelta diag ((d.scopeDiagnostics.foldl (logScope debug)
        ([], previous)).2.scopeMetrics.lookup (debug diag.scope))) = [] := by
    intro connDelta
    refine List.filterMap_eq_nil_iff.mpr fun diag hdiag => ?_
    have hfind := find?_of_nodup (·.scope) (List.map_reverse ▸ List.nodup_reverse.mpr hnodup)
      (List.mem_reverse.mpr hdiag)
    rw [lookup_logScopes hdebug, hfind, Option.map_some, Option.some_or, growingWarning]
    refine if_neg fun h => ?_
    have hpos : (diag.trackedEvents : ℤ) - diag.trackedEvents > 0 := h.1
    omega
  rw [logHealthCheck, detectAnomalies]
  simp only [hgrowing, ite_self, List.nil_append]
  simp only [lookup_logScopes hdebug]

/-- Exact counts give no reason for a warning. -/
theorem SubscriptionRegistry.Accurate.noWarnings {s : SubscriptionRegistry} (h : s.Accurate d)
    (hdebug : Function.Injective debug) (previous : PreviousMeasurements) :
    (logHealthCheck debug d previous).1.warnings = [] := by
  have hnodup : (d.scopeDiagnostics.map (·.scope)).Nodup :=
    h.scopes.nodup_iff.mpr s.indexes.nodupKeys
  rw [warnings_logHealthCheck hdebug hnodup]
  refine List.filterMap_eq_nil_iff.mpr fun scope hscope => ?_
  obtain ⟨hindex, hempty⟩ := (h.emptyScopes scope).mp hscope
  obtain ⟨diag, hdiag, rfl⟩ := List.mem_map.mp (h.scopes.mem_iff.mpr hindex)
  have hzero : diag.filterCount = 0 := by
    rw [(h.scope diag hdiag).filters, hempty]
    rfl
  rw [find?_of_nodup (·.scope) (List.map_reverse ▸ List.nodup_reverse.mpr hnodup)
    (List.mem_reverse.mpr hdiag), Option.map_some, Option.some_or, retainingWarning]
  exact if_neg (hzero ▸ Nat.lt_irrefl 0)

/-! ### A sequence of checks -/

/-- The counts of a scope when a check listed it last. -/
def lastListed (before : List RegistryDiagnostics) (scope : Scope) : Option ScopeDiagnostics :=
  (before.flatMap (·.scopeDiagnostics)).reverse.find? (·.scope = scope)

/-- A total over the scopes. -/
def total (count : ScopeDiagnostics → ℕ) (d : RegistryDiagnostics) : ℕ :=
  (d.scopeDiagnostics.map count).sum

/-- What the check before has counted, and nothing before the first check. -/
def lastCounted (before : List RegistryDiagnostics) (count : RegistryDiagnostics → ℕ) : ℕ :=
  (before.getLast?.map count).getD 0

/-- What a check is to report after the checks `before`: totals with their changes since the check
before, every scope with the change of its tracked events since a check listed it last, and the
scopes without connections that had filters when a check, maybe this one, listed them last. -/
def healthCheck (before : List RegistryDiagnostics) (d : RegistryDiagnostics) : HealthCheck where
  connections := d.totalConnections
  connDelta := d.totalConnections - lastCounted before (·.totalConnections)
  subscriptions := total (·.subscriptionCount) d
  subDelta := total (·.subscriptionCount) d - lastCounted before (total (·.subscriptionCount))
  scopes := d.scopeDiagnostics.map fun diag =>
    diag.line (((lastListed before diag.scope).map (·.trackedEvents)).getD 0)
  authors := total (·.authorsIndexed) d
  authorsDelta := total (·.authorsIndexed) d - lastCounted before (total (·.authorsIndexed))
  kinds := total (·.kindsIndexed) d
  kindsDelta := total (·.kindsIndexed) d - lastCounted before (total (·.kindsIndexed))
  tags := total (·.tagsIndexed) d
  tagsDelta := total (·.tagsIndexed) d - lastCounted before (total (·.tagsIndexed))
  warnings := d.emptyScopes.filterMap fun scope =>
    retainingWarning scope ((lastListed (before ++ [d]) scope).map ScopeDiagnostics.metrics)

/-- The measurements that are kept are those of the checks so far. -/
structure Remembers (debug : Scope → String) (before : List RegistryDiagnostics)
    (previous : PreviousMeasurements) : Prop where
  connections : previous.totalConnections = lastCounted before (·.totalConnections)
  subscriptions : previous.totalSubscriptions = lastCounted before (total (·.subscriptionCount))
  scopes : ∀ scope, previous.scopeMetrics.lookup (debug scope) =
    (lastListed before scope).map ScopeDiagnostics.metrics
  authors : previous.indexMetrics.authors = lastCounted before (total (·.authorsIndexed))
  kinds : previous.indexMetrics.kinds = lastCounted before (total (·.kindsIndexed))
  tags : previous.indexMetrics.tags = lastCounted before (total (·.tagsIndexed))

theorem remembers_default (debug : Scope → String) : Remembers debug [] .default :=
  ⟨rfl, rfl, fun _ => rfl, rfl, rfl, rfl⟩

theorem lastListed_append (before : List RegistryDiagnostics) (d : RegistryDiagnostics)
    (scope : Scope) : lastListed (before ++ [d]) scope =
      (d.scopeDiagnostics.reverse.find? (·.scope = scope)).or (lastListed before scope) := by
  simp [lastListed, List.flatMap_append]

theorem lastCounted_append (before : List RegistryDiagnostics) (d : RegistryDiagnostics)
    (count : RegistryDiagnostics → ℕ) : lastCounted (before ++ [d]) count = count d := by
  simp [lastCounted]

/-- One check reports what it is to report, and remembers what it has counted. -/
theorem Remembers.logHealthCheck (h : Remembers debug before previous)
    (hdebug : Function.Injective debug) (hnodup : (d.scopeDiagnostics.map (·.scope)).Nodup) :
    (logHealthCheck debug d previous).1 = healthCheck before d ∧
      Remembers debug (before ++ [d]) (logHealthCheck debug d previous).2 := by
  have hscopes : ∀ scope, ((d.scopeDiagnostics.reverse.find? (·.scope = scope)).map
      ScopeDiagnostics.metrics).or (previous.scopeMetrics.lookup (debug scope)) =
        (lastListed (before ++ [d]) scope).map ScopeDiagnostics.metrics := by
    intro scope
    rw [h.scopes, lastListed_append, Option.map_or]
  constructor
  · refine HealthCheck.ext rfl ?_ rfl ?_ ?_ rfl ?_ rfl ?_ rfl ?_ ?_
    · exact congrArg (fun n : ℕ => (d.totalConnections : ℤ) - n) h.connections
    · exact congrArg (fun n : ℕ => (total (·.subscriptionCount) d : ℤ) - n) h.subscriptions
    · refine (logScopes_lines hdebug hnodup).trans ?_
      refine List.map_congr_left fun diag _ => ?_
      rw [PreviousMeasurements.trackedEvents, h.scopes, Option.map_map]
      rfl
    · exact congrArg (fun n : ℕ => (total (·.authorsIndexed) d : ℤ) - n) h.authors
    · exact congrArg (fun n : ℕ => (total (·.kindsIndexed) d : ℤ) - n) h.kinds
    · exact congrArg (fun n : ℕ => (total (·.tagsIndexed) d : ℤ) - n) h.tags
    · rw [warnings_logHealthCheck hdebug hnodup]
      simp only [hscopes]
      rfl
  · refine ⟨?_, ?_, fun scope => ?_, ?_, ?_, ?_⟩
    · rw [lastCounted_append]
      rfl
    · rw [lastCounted_append]
      rfl
    · exact (lookup_logScopes hdebug scope).trans (hscopes scope)
    · rw [lastCounted_append]
      rfl
    · rw [lastCounted_append]
      rfl
    · rw [lastCounted_append]
      rfl

/-- What the checks are to report, one after another. -/
def reports : List RegistryDiagnostics → List RegistryDiagnostics → List HealthCheck
  | _, [] => []
  | before, d :: ds => healthCheck before d :: reports (before ++ [d]) ds

/-- **What a sequence of health checks reports**, whatever was counted: every change is against
the last check that counted the same thing, and the only warnings are about scopes without
connections. However the indexes grow, nothing is said about it. -/
theorem healthChecks_reported (hdebug : Function.Injective debug) (ds : List RegistryDiagnostics)
    (hnodup : ∀ d ∈ ds, (d.scopeDiagnostics.map (·.scope)).Nodup) :
    (healthChecks debug ds).1 = reports [] ds := by
  have hrun : ∀ (before : List RegistryDiagnostics) (done : List HealthCheck)
      (previous : PreviousMeasurements), Remembers debug before previous →
      (ds.foldl (fun checks d =>
        let check := logHealthCheck debug d checks.2
        (checks.1 ++ [check.1], check.2)) (done, previous)).1 = done ++ reports before ds := by
    induction ds with
    | nil =>
      intro before done previous _
      exact (List.append_nil done).symm
    | cons d ds ih =>
      intro before done previous h
      obtain ⟨hcheck, hnext⟩ := h.logHealthCheck hdebug (hnodup d List.mem_cons_self)
      rw [List.foldl_cons, ih (fun d' hd' => hnodup d' (List.mem_cons_of_mem d hd')) _ _ _ hnext,
        List.append_assoc, reports, hcheck]
      rfl
  exact hrun [] [] .default (remembers_default debug)

/-- **The diagnostics are exact.** In every run of calls one after another in which
`add_subscription` replaces nothing, the diagnostics that are collected between the calls leave
the registry as it is and count what the connections in the map have, and a health check raises
no warning, whatever was measured before. -/
theorem diagnostics_accurate (sdk : Sdk) (metricsHandler : Option SubscriptionMetrics)
    (channels : ChannelRef → Channel) (hdebug : Function.Injective debug)
    {c : Config RegistryOp RegistryLock SubscriptionRegistry RegistryResult}
    (hrun : Run (fun _ => RegistryOp.code sdk) (oneByOne SubscriptionRegistry.replacesNothing)
      (registryPool metricsHandler channels) c) (hquiet : c.Quiet) :
    ∃ o, (SubscriptionRegistry.getDiagnostics sdk.order).run c.state = some o ∧
      c.state.Accurate o.value ∧ c.state.Unchanged o.state ∧
      ∀ previous, (logHealthCheck debug o.value previous).1.warnings = [] := by
  obtain ⟨H, hsettled, hH⟩ := (oneByOne_run
    (I := fun s => ∃ H, SubscriptionRegistry.Settled H s ∧ H = s.stored)
    (G := fun op => op.Guarantee sdk)
    (fun _ op _ ⟨_, hs, hP⟩ hcond => op.code_alone SubscriptionRegistry.agree_kept hs hP hcond)
    ⟨_, SubscriptionRegistry.settled_new metricsHandler channels, rfl⟩ hrun).1 hquiet
  obtain ⟨o, ho, haccurate, hunchanged⟩ := (SubscriptionRegistry.getDiagnostics_alone
    (hH ▸ hsettled.live) hsettled.wellFormed hsettled.idle sdk.order).run
  exact ⟨o, ho, haccurate, hunchanged, haccurate.noWarnings hdebug⟩

end

/-- The debug texts of scopes, up to the hash of a name. -/
def Scope.debugText : Scope → String
  | .default => "Default"
  | .named name => "Named \x7b name: \"" ++ name ++ "\" \x7d"

theorem Scope.debugText_injective : Function.Injective Scope.debugText := by
  intro scope scope' h
  have hlist := congrArg String.toList h
  rcases scope with _ | name <;> rcases scope' with _ | name' <;>
    simp only [debugText, String.toList_append] at hlist
  · rfl
  · cases (congrArg List.head? hlist)
  · cases (congrArg List.head? hlist)
  · rw [String.toList_inj.mp (List.append_cancel_left (List.append_cancel_right hlist))]

/-- Two filters of one connection. -/
theorem diagnostics_accurate_twoFilters :
    ∃ c, (registryPool none unread).play (fun _ => RegistryOp.code .sample)
        (oneByOne SubscriptionRegistry.replacesNothing)
        [callAlone (registerAt "alice" 0 .default) 0 1,
          callAlone (.addSubscription "alice" "feed" [Filter.kind 1, Filter.kind 2]) 1 14].flatten =
            some c ∧
      ∃ o, (SubscriptionRegistry.getDiagnostics .insertion).run c.state = some o ∧
        c.state.Accurate o.value := by
  obtain ⟨c, hplay, hquiet⟩ : ∃ c, (registryPool none unread).play
      (fun _ => RegistryOp.code .sample) (oneByOne SubscriptionRegistry.replacesNothing)
        [callAlone (registerAt "alice" 0 .default) 0 1,
          callAlone (.addSubscription "alice" "feed" [Filter.kind 1, Filter.kind 2]) 1 14].flatten =
            some c ∧ decide c.Quiet = true := ⟨_, rfl, rfl⟩
  obtain ⟨o, ho, haccurate, -⟩ := diagnostics_accurate .sample none unread
    Scope.debugText_injective (Config.run_of_play hplay) (of_decide_eq_true hquiet)
  exact ⟨c, hplay, o, ho, haccurate⟩

/-- A scope with one connection more and many more tracked events. -/
def grown (connections trackedEvents : ℕ) : RegistryDiagnostics :=
  ⟨connections, [⟨.default, connections, 1, 1, trackedEvents, 0, 0, 0, 0⟩], []⟩

/-- A thousand times as many tracked events. -/
theorem healthChecks_reported_grown :
    (healthChecks Scope.debugText [grown 1 1, grown 2 1000]).1 =
      reports [] [grown 1 1, grown 2 1000] ∧
      ((healthChecks Scope.debugText [grown 1 1, grown 2 1000]).1.map (·.warnings)) = [[], []] :=
  ⟨healthChecks_reported Scope.debugText_injective _ (by decide), by decide⟩

end RelayBuilder
