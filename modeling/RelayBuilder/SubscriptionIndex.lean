import RelayBuilder.Buckets
import RelayBuilder.Nostr
import RelayBuilder.Interleave.Program

/-!
# The subscription index

The inverted index of `subscription_index.rs`. A filter is filed under one of its fields, an event
looks up the filters filed under its own fields, and cells that hold the last event seen by a
filter and by a subscription's group of filters keep an event from being handed out twice.

The index is shared by tasks. Every field sits behind its own lock, and no lock is held while a
task waits for another one, so a method is a `Prog` with one action for each time a lock is taken.
What a task reaches through an `Arc` lives on a heap of the state, since a task may still hold it
after it was removed from the maps.

## Main definitions

* `SubscriptionIndex`, and `SubscriptionIndex.new`
* `SubscriptionIndex.addSubscription`, `removeSubscription`, `distributeEvent`
-/

namespace RelayBuilder

open Interleave

abbrev FilterId := ℕ

/-- An `Arc` to a filter group. -/
abbrev GroupRef := ℕ

/-- A subscription of a connection. -/
abbrev Key := ConnectionId × SubscriptionId

instance : LawfulBEq Key := inferInstance

/-- The order in which hash sets and hash maps yield their elements: some permutation of them. -/
structure HashOrder where
  iter : {α : Type} → List α → List α
  perm : ∀ {α : Type} (l : List α), (iter l).Perm l

/-- The order of insertion. -/
def HashOrder.insertion : HashOrder := ⟨id, fun _ => .refl _⟩

theorem HashOrder.mem_iter (o : HashOrder) {α : Type} {l : List α} {a : α} :
    a ∈ o.iter l ↔ a ∈ l :=
  (o.perm l).mem_iff

inductive IndexedField where
  | eventId
  | author
  | kind
  | tag (name : SingleLetterTag)
  deriving DecidableEq

/-- A filter of a subscription. The cell with the last event it saw is `filterSeen`. -/
structure TrackedFilter where
  filter : Filter
  parentSubscription : Key
  indexedField : Option IndexedField
  id : FilterId
  deriving DecidableEq

/-- The filters of one subscription. -/
structure FilterGroup where
  connectionId : ConnectionId
  subscriptionId : SubscriptionId
  lastSeenEventId : Option EventId
  filterIds : List FilterId
  deriving DecidableEq

namespace FilterGroup

/-- The subscription that owns the group. -/
def key (g : FilterGroup) : Key := (g.connectionId, g.subscriptionId)

def new (κ : Key) : FilterGroup := ⟨κ.1, κ.2, none, []⟩

def hasSeenEvent (g : FilterGroup) (id : EventId) : Bool := g.lastSeenEventId == some id

def markEventSeen (g : FilterGroup) (id : EventId) : FilterGroup :=
  { g with lastSeenEventId := some id }

/-- `filter_ids.insert`. -/
def insertFilterId (g : FilterGroup) (id : FilterId) : FilterGroup :=
  { g with filterIds := if id ∈ g.filterIds then g.filterIds else g.filterIds ++ [id] }

end FilterGroup

/-- The state of a `SubscriptionIndex`, and the heap of the filters and groups created so far. The
counter of filter ids has 64 bits in the source; here it does not wrap around. -/
structure SubscriptionIndex where
  authors : Buckets PublicKey TrackedFilter
  kinds : Buckets Kind TrackedFilter
  eventIds : Buckets EventId TrackedFilter
  tags : AList fun _ : String => Buckets String TrackedFilter
  matchAllFilters : List TrackedFilter
  allFilters : AList fun _ : FilterId => TrackedFilter
  filterGroups : AList fun _ : Key => GroupRef
  nextFilterId : FilterId
  filters : FilterId → Option TrackedFilter
  filterSeen : FilterId → Option EventId
  groups : GroupRef → Option FilterGroup
  nextGroup : GroupRef

/-- What a task locks or accesses atomically in one action. -/
inductive IndexLock where
  | authors
  | kinds
  | eventIds
  | tags
  | matchAllFilters
  | allFilters
  | filterGroups
  | nextFilterId
  | filter (id : FilterId)
  | group (g : GroupRef)
  deriving DecidableEq

namespace SubscriptionIndex

def new : SubscriptionIndex where
  authors := ∅
  kinds := ∅
  eventIds := ∅
  tags := ∅
  matchAllFilters := []
  allFilters := ∅
  filterGroups := ∅
  nextFilterId := 1
  filters := fun _ => none
  filterSeen := fun _ => none
  groups := fun _ => none
  nextGroup := 0

/-! ### Cells -/

/-- `TrackedFilter::has_seen_event`. -/
def filterHasSeen (s : SubscriptionIndex) (id : FilterId) (event : EventId) : Bool :=
  s.filterSeen id == some event

/-- `TrackedFilter::mark_event_seen`. -/
def markFilter (s : SubscriptionIndex) (id : FilterId) (event : EventId) : SubscriptionIndex :=
  { s with filterSeen := fun id' => if id' = id then some event else s.filterSeen id' }

/-- Change the group behind an `Arc`. -/
def updateGroup (s : SubscriptionIndex) (g : GroupRef) (f : FilterGroup → FilterGroup) :
    SubscriptionIndex :=
  { s with groups := fun g' => if g' = g then (s.groups g').map f else s.groups g' }

/-! ### Adding a subscription -/

/-- `choose_index_field`: the most selective field that names something. -/
def chooseIndexField (filter : Filter) : Option IndexedField :=
  if filter.ids.any fun ids => !ids.1.isEmpty then some .eventId
  else if filter.authors.any fun authors => !authors.1.isEmpty then some .author
  else if filter.kinds.any fun kinds => !kinds.1.isEmpty then some .kind
  else (filter.genericTags.entries.find? fun entry => !entry.2.1.isEmpty).map fun entry =>
    .tag entry.1

/-- The sections in which a loop over `authors` holds the lock: it lets go after the 1001st
author and after every 1000 from there on. `idx` counts the authors done. -/
def yieldSections {α : Type} (idx : ℕ) : List α → List (List α)
  | [] => [[]]
  | a :: as =>
    if idx > 0 ∧ idx % 1000 = 0 then [a] :: yieldSections (idx + 1) as
    else
      match yieldSections (idx + 1) as with
      | [] => [[a]]
      | section_ :: rest => (a :: section_) :: rest

/-- What `add_filter_to_indexes` and `remove_filter_from_indexes` have in common: lock the index of
the filter's field, and change the buckets of all the values the filter has there. -/
def atIndexedField (filter : TrackedFilter)
    (matchAll : List TrackedFilter → List TrackedFilter)
    (buckets : ∀ {K : Type} [DecidableEq K], List K →
      Buckets K TrackedFilter → Buckets K TrackedFilter)
    (tagBuckets : String → List String →
      (AList fun _ : String => Buckets String TrackedFilter) →
      AList fun _ : String => Buckets String TrackedFilter) :
    Prog IndexLock SubscriptionIndex PUnit :=
  match filter.indexedField with
  | none => .atomic .matchAllFilters fun s =>
    (⟨⟩, { s with matchAllFilters := matchAll s.matchAllFilters })
  | some .eventId =>
    match filter.filter.ids with
    | some ids => .atomic .eventIds fun s => (⟨⟩, { s with eventIds := buckets ids.1 s.eventIds })
    | none => pure ⟨⟩
  | some .author =>
    match filter.filter.authors with
    | some authors => (yieldSections 0 authors.1).forM fun authors =>
      .atomic .authors fun s => (⟨⟩, { s with authors := buckets authors s.authors })
    | none => pure ⟨⟩
  | some .kind =>
    match filter.filter.kinds with
    | some kinds => .atomic .kinds fun s => (⟨⟩, { s with kinds := buckets kinds.1 s.kinds })
    | none => pure ⟨⟩
  | some (.tag name) =>
    match filter.filter.genericTags.lookup name with
    | some values => .atomic .tags fun s =>
      (⟨⟩, { s with tags := tagBuckets name.asStr values.1 s.tags })
    | none => pure ⟨⟩

/-- `add_filter_to_indexes`: push the filter. -/
def addFilterToIndexes (filter : TrackedFilter) : Prog IndexLock SubscriptionIndex PUnit :=
  atIndexedField filter (· ++ [filter]) (Buckets.pushAll filter) (Buckets.pushAll₂ filter)

/-- `filter_groups.entry(..).or_insert_with(..)`. -/
def entryOrNewGroup (κ : Key) (s : SubscriptionIndex) : GroupRef × SubscriptionIndex :=
  match s.filterGroups.lookup κ with
  | some g => (g, s)
  | none => (s.nextGroup,
    { s with
      filterGroups := s.filterGroups.insert κ s.nextGroup
      groups := fun g => if g = s.nextGroup then some (FilterGroup.new κ) else s.groups g
      nextGroup := s.nextGroup + 1 })

/-- `next_filter_id.fetch_add(1)`, and the filter created with that id. -/
def newFilter (κ : Key) (filter : Filter) (s : SubscriptionIndex) :
    TrackedFilter × SubscriptionIndex :=
  let tracked : TrackedFilter :=
    { filter, parentSubscription := κ, indexedField := chooseIndexField filter, id := s.nextFilterId }
  (tracked,
    { s with
      nextFilterId := s.nextFilterId + 1
      filters := fun id => if id = s.nextFilterId then some tracked else s.filters id })

/-- The part of `add_subscription` that is done for each filter. -/
def addFilter (κ : Key) (group : GroupRef) (filter : Filter) :
    Prog IndexLock SubscriptionIndex PUnit := do
  let tracked ← .atomic .nextFilterId (newFilter κ filter)
  .atomic .allFilters fun s =>
    ((), { s with allFilters := s.allFilters.insert tracked.id tracked })
  .atomic (.group group) fun s => ((), s.updateGroup group (·.insertFilterId tracked.id))
  addFilterToIndexes tracked

/-- `SubscriptionIndex::add_subscription`. -/
def addSubscription (κ : Key) (filters : List Filter) :
    Prog IndexLock SubscriptionIndex PUnit := do
  let group ← .atomic .filterGroups (entryOrNewGroup κ)
  filters.forM (addFilter κ group)

/-! ### Removing a subscription -/

/-- `remove_filter_from_indexes`: retain the other filters. -/
def removeFilterFromIndexes (filter : TrackedFilter) : Prog IndexLock SubscriptionIndex PUnit :=
  atIndexedField filter (·.filter (·.id != filter.id)) (Buckets.retainAll (·.id != filter.id))
    (Buckets.retainAll₂ (·.id != filter.id))

/-- The part of `remove_subscription` that is done for each filter id. -/
def removeFilter (filterId : FilterId) : Prog IndexLock SubscriptionIndex PUnit := do
  let filter ← .atomic .allFilters fun s =>
    (s.allFilters.lookup filterId, { s with allFilters := s.allFilters.erase filterId })
  match filter with
  | some filter => removeFilterFromIndexes filter
  | none => pure ⟨⟩

/-- `SubscriptionIndex::remove_subscription`. -/
def removeSubscription (order : HashOrder) (κ : Key) : Prog IndexLock SubscriptionIndex PUnit := do
  let group ← .atomic .filterGroups fun s =>
    (s.filterGroups.lookup κ, { s with filterGroups := s.filterGroups.erase κ })
  match group with
  | some group => do
    let filterIds ← .atomic (.group group) fun s =>
      (((s.groups group).map FilterGroup.filterIds).getD [], s)
    (order.iter filterIds).forM removeFilter
  | none => pure ⟨⟩

/-! ### Distributing an event -/

/-- Append the filters whose id is not among the candidates yet. The ids seen are those of the
candidates. -/
def collect (candidates filters : List TrackedFilter) : List TrackedFilter :=
  filters.foldl (fun candidates f =>
    if candidates.any (·.id == f.id) then candidates else candidates ++ [f]) candidates

/-- What the tag index holds for the tags of an event. -/
def tagCandidates (event : Event) (tags : AList fun _ : String => Buckets String TrackedFilter) :
    List TrackedFilter :=
  event.tags.flatMap fun tag =>
    match SingleLetterTag.parse tag.kind with
    | some letter => tag.values.flatMap fun value => Buckets.bucket₂ tags letter.asStr value
    | none => []

/-- `get_candidate_filters`. -/
def getCandidateFilters (event : Event) :
    Prog IndexLock SubscriptionIndex (List TrackedFilter) := do
  let candidates ← .atomic .matchAllFilters fun s => (collect [] s.matchAllFilters, s)
  let candidates ← .atomic .eventIds fun s => (collect candidates (s.eventIds.bucket event.id), s)
  let candidates ← .atomic .authors fun s => (collect candidates (s.authors.bucket event.pubkey), s)
  let candidates ← .atomic .kinds fun s => (collect candidates (s.kinds.bucket event.kind), s)
  .atomic .tags fun s => (collect candidates (tagCandidates event s.tags), s)

/-- The local variables of `distribute_event`. -/
structure Distribution where
  matchingSubscriptions : List Key
  checkedFilters : List FilterId
  checkedGroups : List Key

def Distribution.new : Distribution := ⟨[], [], []⟩

/-- The part of `distribute_event` that follows the look up of the group. -/
def deliverToGroup (event : Event) (groupKey : Key) (group : GroupRef) (d : Distribution) :
    Prog IndexLock SubscriptionIndex Distribution := do
  let hasSeen ← .atomic (.group group) fun s =>
    ((s.groups group).any (·.hasSeenEvent event.id), s)
  if hasSeen then pure d
  else do
    .atomic (.group group) fun s => ((), s.updateGroup group (·.markEventSeen event.id))
    pure { d with matchingSubscriptions := d.matchingSubscriptions ++ [groupKey] }

/-- The body of the loop of `distribute_event` for one candidate. Yielding to other tasks every
100 filters adds nothing here, since they may run between any two actions. -/
def checkCandidate (matchEvent : Filter → Event → Bool) (event : Event) (d : Distribution)
    (filter : TrackedFilter) : Prog IndexLock SubscriptionIndex Distribution := do
  if filter.id ∈ d.checkedFilters then pure d
  else do
    let d := { d with checkedFilters := d.checkedFilters ++ [filter.id] }
    let hasSeen ← .atomic (.filter filter.id) fun s => (s.filterHasSeen filter.id event.id, s)
    if hasSeen then pure d
    else if matchEvent filter.filter event = false then pure d
    else do
      .atomic (.filter filter.id) fun s => ((), s.markFilter filter.id event.id)
      let groupKey := filter.parentSubscription
      if groupKey ∈ d.checkedGroups then pure d
      else do
        let d := { d with checkedGroups := d.checkedGroups ++ [groupKey] }
        let group ← .atomic .filterGroups fun s => (s.filterGroups.lookup groupKey, s)
        match group with
        | some group => deliverToGroup event groupKey group d
        | none => pure d

/-- `SubscriptionIndex::distribute_event`. -/
def distributeEvent (matchEvent : Filter → Event → Bool) (event : Event) :
    Prog IndexLock SubscriptionIndex (List Key) := do
  let candidates ← getCandidateFilters event
  let d ← candidates.foldlM (checkCandidate matchEvent event) Distribution.new
  pure d.matchingSubscriptions

end SubscriptionIndex

/-- The methods of the index. -/
inductive IndexOp where
  | addSubscription (κ : Key) (filters : List Filter)
  | removeSubscription (κ : Key)
  | distributeEvent (event : Event)

/-- The program of a method. Only `distribute_event` returns subscriptions. -/
def IndexOp.code (matchEvent : Filter → Event → Bool) (order : HashOrder) :
    IndexOp → Prog IndexLock SubscriptionIndex (List Key)
  | .addSubscription κ filters => do
    SubscriptionIndex.addSubscription κ filters
    pure []
  | .removeSubscription κ => do
    SubscriptionIndex.removeSubscription order κ
    pure []
  | .distributeEvent event => SubscriptionIndex.distributeEvent matchEvent event

end RelayBuilder
