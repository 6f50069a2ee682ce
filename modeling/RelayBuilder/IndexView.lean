import RelayBuilder.SubscriptionIndex
import RelayBuilder.Interleave.Triple

/-!
# What the index holds for one subscription

Read through `bucket`, the five indexes are one map from slots to the filters filed there, and a
filter is filed under its own `slots`. The methods of different subscriptions work on one index,
but each only on the filters and the group of its own subscription. So everything is stated for
one subscription `κ`: `SameView κ` says that a change leaves alone what the index holds for `κ`,
`Silent x` that it does not make the event `x` look seen, and `Grows` what every change keeps.

`WellFormed` is the invariant of the shared state, and `Holding κ ts` says exactly what the index
holds for `κ`: the filters `ts`, each once in each of its slots.

## Main results

* `addFilterToIndexes_triple`, `removeFilterFromIndexes_triple`: filing and unfiling by slots
* `HoldingParts.stable`: what is held survives the calls for other subscriptions
-/

namespace RelayBuilder

open Interleave

/-- A place where filters are filed. -/
inductive Slot where
  | matchAll
  | eventId (id : EventId)
  | author (author : PublicKey)
  | kind (kind : Kind)
  | tag (name value : String)
  deriving DecidableEq

/-- Where a filter is filed: under all values of its indexed field. -/
def TrackedFilter.slots (f : TrackedFilter) : List Slot :=
  match f.indexedField with
  | none => [.matchAll]
  | some .eventId => (f.filter.ids.map fun s => s.1.map Slot.eventId).getD []
  | some .author => (f.filter.authors.map fun s => s.1.map Slot.author).getD []
  | some .kind => (f.filter.kinds.map fun s => s.1.map Slot.kind).getD []
  | some (.tag name) =>
    ((f.filter.genericTags.lookup name).map fun s => s.1.map (Slot.tag name.asStr)).getD []

theorem TrackedFilter.nodup_slots (f : TrackedFilter) : f.slots.Nodup := by
  have hmap : ∀ {α : Type} (g : α → Slot) (_ : Function.Injective g) (o : Option (OrdSet α)),
      ((o.map fun s => s.1.map g).getD []).Nodup := by
    intro α g hg o
    cases o with
    | none => exact List.nodup_nil
    | some s => exact s.2.map hg
  rw [slots]
  split
  · exact List.nodup_singleton _
  · exact hmap _ (fun _ _ h => Slot.eventId.inj h) _
  · exact hmap _ (fun _ _ h => Slot.author.inj h) _
  · exact hmap _ (fun _ _ h => Slot.kind.inj h) _
  · exact hmap _ (fun _ _ h => (Slot.tag.inj h).2) _

theorem flatten_yieldSections {α : Type} (idx : ℕ) (as : List α) :
    (SubscriptionIndex.yieldSections idx as).flatten = as := by
  induction as generalizing idx with
  | nil => rfl
  | cons a as ih =>
    have hih := ih (idx + 1)
    rw [SubscriptionIndex.yieldSections]
    split
    · rw [List.flatten_cons, hih]
      rfl
    · split
      · rename_i h
        rw [h] at hih
        rw [← hih]
        rfl
      · rename_i s rest h
        rw [h] at hih
        rw [List.flatten_cons, List.cons_append, ← List.flatten_cons, hih]

namespace SubscriptionIndex

/-- The filters filed in a slot. -/
def bucket (s : SubscriptionIndex) : Slot → List TrackedFilter
  | .matchAll => s.matchAllFilters
  | .eventId id => s.eventIds.bucket id
  | .author author => s.authors.bucket author
  | .kind kind => s.kinds.bucket kind
  | .tag name value => Buckets.bucket₂ s.tags name value

/-- The filters of one subscription filed in a slot. -/
def filed (κ : Key) (s : SubscriptionIndex) (x : Slot) : List TrackedFilter :=
  (s.bucket x).filter (·.parentSubscription = κ)

/-- Everything but the five indexes is the same. -/
structure SameRest (s s' : SubscriptionIndex) : Prop where
  allFilters : s'.allFilters = s.allFilters
  filterGroups : s'.filterGroups = s.filterGroups
  nextFilterId : s'.nextFilterId = s.nextFilterId
  filters : s'.filters = s.filters
  filterSeen : s'.filterSeen = s.filterSeen
  groups : s'.groups = s.groups
  nextGroup : s'.nextGroup = s.nextGroup

/-- `f` was filed in the slots `xs`, and nothing else happened. -/
structure Filed (f : TrackedFilter) (xs : List Slot) (s s' : SubscriptionIndex) : Prop extends
    SameRest s s' where
  bucket : ∀ x, s'.bucket x = s.bucket x ++ if x ∈ xs then [f] else []

/-- `f` was taken out of the slots `xs`, and nothing else happened. -/
structure Unfiled (f : TrackedFilter) (xs : List Slot) (s s' : SubscriptionIndex) : Prop extends
    SameRest s s' where
  bucket : ∀ x, s'.bucket x =
    if x ∈ xs then (s.bucket x).filter (·.id != f.id) else s.bucket x

section Filing

/-! ### Filing and unfiling -/

theorem filed_matchAll (f : TrackedFilter) (s : SubscriptionIndex) :
    Filed f [.matchAll] s { s with matchAllFilters := s.matchAllFilters ++ [f] } := by
  refine ⟨⟨rfl, rfl, rfl, rfl, rfl, rfl, rfl⟩, fun x => ?_⟩
  cases x <;> simp [bucket]

theorem filed_eventIds (f : TrackedFilter) {ids : List EventId} (h : ids.Nodup)
    (s : SubscriptionIndex) :
    Filed f (ids.map .eventId) s { s with eventIds := s.eventIds.pushAll f ids } := by
  refine ⟨⟨rfl, rfl, rfl, rfl, rfl, rfl, rfl⟩, fun x => ?_⟩
  cases x <;> simp [bucket, Buckets.bucket_pushAll f h]

theorem filed_authors (f : TrackedFilter) {authors : List PublicKey} (h : authors.Nodup)
    (s : SubscriptionIndex) :
    Filed f (authors.map .author) s { s with authors := s.authors.pushAll f authors } := by
  refine ⟨⟨rfl, rfl, rfl, rfl, rfl, rfl, rfl⟩, fun x => ?_⟩
  cases x <;> simp [bucket, Buckets.bucket_pushAll f h]

theorem filed_kinds (f : TrackedFilter) {kinds : List Kind} (h : kinds.Nodup)
    (s : SubscriptionIndex) :
    Filed f (kinds.map .kind) s { s with kinds := s.kinds.pushAll f kinds } := by
  refine ⟨⟨rfl, rfl, rfl, rfl, rfl, rfl, rfl⟩, fun x => ?_⟩
  cases x <;> simp [bucket, Buckets.bucket_pushAll f h]

theorem filed_tags (f : TrackedFilter) (name : String) {values : List String} (h : values.Nodup)
    (s : SubscriptionIndex) :
    Filed f (values.map (.tag name)) s
      { s with tags := Buckets.pushAll₂ f name values s.tags } := by
  refine ⟨⟨rfl, rfl, rfl, rfl, rfl, rfl, rfl⟩, fun x => ?_⟩
  cases x with
  | tag name' value =>
    simp only [bucket, Buckets.bucket₂_pushAll₂ f name h, List.mem_map, Slot.tag.injEq]
    congr 1
    by_cases hn : name' = name
    · subst hn
      simp
    · simp [hn, Ne.symm hn]
  | _ => simp [bucket]

theorem unfiled_matchAll (f : TrackedFilter) (s : SubscriptionIndex) :
    Unfiled f [.matchAll] s
      { s with matchAllFilters := s.matchAllFilters.filter (·.id != f.id) } := by
  refine ⟨⟨rfl, rfl, rfl, rfl, rfl, rfl, rfl⟩, fun x => ?_⟩
  cases x <;> simp [bucket]

theorem unfiled_eventIds (f : TrackedFilter) (ids : List EventId) (s : SubscriptionIndex) :
    Unfiled f (ids.map .eventId) s
      { s with eventIds := s.eventIds.retainAll (·.id != f.id) ids } := by
  refine ⟨⟨rfl, rfl, rfl, rfl, rfl, rfl, rfl⟩, fun x => ?_⟩
  cases x <;> simp [bucket, Buckets.bucket_retainAll]

theorem unfiled_authors (f : TrackedFilter) (authors : List PublicKey) (s : SubscriptionIndex) :
    Unfiled f (authors.map .author) s
      { s with authors := s.authors.retainAll (·.id != f.id) authors } := by
  refine ⟨⟨rfl, rfl, rfl, rfl, rfl, rfl, rfl⟩, fun x => ?_⟩
  cases x <;> simp [bucket, Buckets.bucket_retainAll]

theorem unfiled_kinds (f : TrackedFilter) (kinds : List Kind) (s : SubscriptionIndex) :
    Unfiled f (kinds.map .kind) s
      { s with kinds := s.kinds.retainAll (·.id != f.id) kinds } := by
  refine ⟨⟨rfl, rfl, rfl, rfl, rfl, rfl, rfl⟩, fun x => ?_⟩
  cases x <;> simp [bucket, Buckets.bucket_retainAll]

theorem unfiled_tags (f : TrackedFilter) (name : String) (values : List String)
    (s : SubscriptionIndex) :
    Unfiled f (values.map (.tag name)) s
      { s with tags := Buckets.retainAll₂ (·.id != f.id) name values s.tags } := by
  refine ⟨⟨rfl, rfl, rfl, rfl, rfl, rfl, rfl⟩, fun x => ?_⟩
  cases x with
  | tag name' value =>
    simp only [bucket, Buckets.bucket₂_retainAll₂, List.mem_map, Slot.tag.injEq]
    by_cases hn : name' = name
    · subst hn
      simp
    · simp [hn, Ne.symm hn]
  | _ => simp [bucket]

variable {I : SubscriptionIndex → Prop} {R G : SubscriptionIndex → SubscriptionIndex → Prop}
  {f : TrackedFilter} {J : List Slot → SubscriptionIndex → Prop}

/-- A loop over the sections of a list is a loop over the list, as far as the elements still to
come are concerned. -/
theorem sections_triple {α : Type} {p : List α → Prog IndexLock SubscriptionIndex PUnit}
    {g : α → Slot} (hrefl : ∀ s, R s s) (hJ : ∀ xs, Stable I R (J xs))
    (hp : ∀ sec rest, Triple I R G (J (sec.map g ++ rest)) (p sec) fun _ => J rest)
    (secs : List (List α)) :
    Triple I R G (J (secs.flatten.map g)) (secs.forM p) fun _ => J [] := by
  refine Triple.forM (J := fun secs => J (secs.flatten.map g)) hrefl (hJ _)
    (fun sec rest => ?_) secs
  rw [List.flatten_cons, List.map_append]
  exact hp sec _

/-- Visiting the indexes of a filter, by an assertion on the slots that are still to come. `C xs`
says what the visit does to the slots `xs`. -/
theorem atIndexedField_triple {matchAll : List TrackedFilter → List TrackedFilter}
    {buckets : ∀ {K : Type} [DecidableEq K], List K →
      Buckets K TrackedFilter → Buckets K TrackedFilter}
    {tagBuckets : String → List String →
      (AList fun _ : String => Buckets String TrackedFilter) →
      AList fun _ : String => Buckets String TrackedFilter}
    {C : List Slot → SubscriptionIndex → SubscriptionIndex → Prop}
    (hmatchAll : ∀ s, C [.matchAll] s { s with matchAllFilters := matchAll s.matchAllFilters })
    (heventIds : ∀ {ids : List EventId} (_ : ids.Nodup) s,
      C (ids.map .eventId) s { s with eventIds := buckets ids s.eventIds })
    (hauthors : ∀ {authors : List PublicKey} (_ : authors.Nodup) s,
      C (authors.map .author) s { s with authors := buckets authors s.authors })
    (hkinds : ∀ {kinds : List Kind} (_ : kinds.Nodup) s,
      C (kinds.map .kind) s { s with kinds := buckets kinds s.kinds })
    (htags : ∀ (name : String) {values : List String} (_ : values.Nodup) s,
      C (values.map (.tag name)) s { s with tags := tagBuckets name values s.tags })
    (hrefl : ∀ s, R s s) (hJ : ∀ xs, Stable I R (J xs))
    (hstep : ∀ xs rest s s', (xs ++ rest).Nodup → C xs s s' → I s → J (xs ++ rest) s →
      I s' ∧ G s s' ∧ J rest s') :
    Triple I R G (J f.slots) (atIndexedField f matchAll buckets tagBuckets) fun _ => J [] := by
  -- the assertion carries along that no slot comes twice
  have hJ' : ∀ xs, Stable I R fun s => xs.Nodup ∧ J xs s := fun xs =>
    (stable_const _).and (hJ xs)
  have hatomic : ∀ (l : IndexLock) (xs rest : List Slot)
      (u : SubscriptionIndex → SubscriptionIndex),
      ((xs ++ rest).Nodup → ∀ s, C xs s (u s)) →
      Triple I R G (fun s => (xs ++ rest).Nodup ∧ J (xs ++ rest) s)
        (Prog.atomic l fun s => (PUnit.unit, u s)) fun _ s => rest.Nodup ∧ J rest s := by
    intro l xs rest u hu
    refine Triple.atomic (hJ' _) (fun _ => hJ' _) fun s hI ⟨hnd, hJs⟩ => ?_
    obtain ⟨hI', hG, hJs'⟩ := hstep xs rest s (u s) hnd (hu hnd s) hI hJs
    exact ⟨hI', hG, (List.nodup_append.mp hnd).2.1, hJs'⟩
  have hone : ∀ (l : IndexLock) (xs : List Slot) (u : SubscriptionIndex → SubscriptionIndex),
      (xs.Nodup → ∀ s, C xs s (u s)) →
      Triple I R G (fun s => xs.Nodup ∧ J xs s)
        (Prog.atomic l fun s => (PUnit.unit, u s)) fun _ s => ([] : List Slot).Nodup ∧ J [] s := by
    intro l xs u hu
    have := hatomic l xs [] u (by rwa [List.append_nil])
    rwa [List.append_nil] at this
  have hnone : Triple (L := IndexLock) I R G (fun s => ([] : List Slot).Nodup ∧ J [] s)
      (Prog.done PUnit.unit) fun _ s => ([] : List Slot).Nodup ∧ J [] s :=
    Triple.done (Q := fun _ s => ([] : List Slot).Nodup ∧ J [] s) (hJ' [])
  have hmain : Triple I R G (fun s => f.slots.Nodup ∧ J f.slots s)
      (atIndexedField f matchAll buckets tagBuckets)
      fun _ s => ([] : List Slot).Nodup ∧ J [] s := by
    cases hf : f.indexedField with
    | none =>
      simp only [atIndexedField, TrackedFilter.slots, hf]
      exact hone _ _ _ fun _ s => hmatchAll s
    | some field =>
      cases field with
      | eventId =>
        cases hs : f.filter.ids with
        | none =>
          simp only [atIndexedField, TrackedFilter.slots, hf, hs]
          exact hnone
        | some ids =>
          simp only [atIndexedField, TrackedFilter.slots, hf, hs]
          exact hone _ _ _ fun _ s => heventIds ids.2 s
      | author =>
        cases hs : f.filter.authors with
        | none =>
          simp only [atIndexedField, TrackedFilter.slots, hf, hs]
          exact hnone
        | some authors =>
          simp only [atIndexedField, TrackedFilter.slots, hf, hs]
          have := sections_triple (p := fun authors => Prog.atomic .authors fun s =>
              (PUnit.unit, { s with authors := buckets authors s.authors }))
            (J := fun xs s => xs.Nodup ∧ J xs s) hrefl hJ'
            (fun sec rest => hatomic .authors (sec.map Slot.author) rest _ fun hnd s =>
              hauthors (List.nodup_append.mp hnd).1.of_map s) (yieldSections 0 authors.1)
          rwa [flatten_yieldSections] at this
      | kind =>
        cases hs : f.filter.kinds with
        | none =>
          simp only [atIndexedField, TrackedFilter.slots, hf, hs]
          exact hnone
        | some kinds =>
          simp only [atIndexedField, TrackedFilter.slots, hf, hs]
          exact hone _ _ _ fun _ s => hkinds kinds.2 s
      | tag name =>
        cases hs : f.filter.genericTags.lookup name with
        | none =>
          simp only [atIndexedField, TrackedFilter.slots, hf, hs]
          exact hnone
        | some values =>
          simp only [atIndexedField, TrackedFilter.slots, hf, hs]
          exact hone _ _ _ fun _ s => htags _ values.2 s
  exact hmain.conseq (fun _ _ h => h) (fun _ _ _ h => h) (fun _ _ h => ⟨f.nodup_slots, h⟩)
    fun _ _ _ h => h.2

/-- Filing a filter, by an assertion on the slots that are still to come. -/
theorem addFilterToIndexes_triple (hrefl : ∀ s, R s s) (hJ : ∀ xs, Stable I R (J xs))
    (hstep : ∀ xs rest s s', (xs ++ rest).Nodup → Filed f xs s s' → I s → J (xs ++ rest) s →
      I s' ∧ G s s' ∧ J rest s') :
    Triple I R G (J f.slots) (addFilterToIndexes f) fun _ => J [] :=
  atIndexedField_triple (filed_matchAll f) (filed_eventIds f) (filed_authors f) (filed_kinds f)
    (filed_tags f) hrefl hJ hstep

/-- Unfiling a filter, by an assertion on the slots that are still to come. -/
theorem removeFilterFromIndexes_triple (hrefl : ∀ s, R s s) (hJ : ∀ xs, Stable I R (J xs))
    (hstep : ∀ xs rest s s', (xs ++ rest).Nodup → Unfiled f xs s s' → I s → J (xs ++ rest) s →
      I s' ∧ G s s' ∧ J rest s') :
    Triple I R G (J f.slots) (removeFilterFromIndexes f) fun _ => J [] :=
  atIndexedField_triple (unfiled_matchAll f) (fun _ => unfiled_eventIds f _)
    (fun _ => unfiled_authors f _) (fun _ => unfiled_kinds f _)
    (fun name _ _ => unfiled_tags f name _) hrefl hJ hstep

end Filing

/-! ### The shared state -/

/-- The last event seen by the group behind an `Arc`. -/
def groupSeen (s : SubscriptionIndex) (g : GroupRef) : Option EventId :=
  (s.groups g).bind FilterGroup.lastSeenEventId

/-- The invariant of the shared state: what the maps mention was created, under the id and with
the owner it is mentioned with. -/
structure WellFormed (s : SubscriptionIndex) : Prop where
  freshFilter : ∀ id, s.nextFilterId ≤ id → s.filters id = none
  freshGroup : ∀ g, s.nextGroup ≤ g → s.groups g = none
  unseen : ∀ id, s.filters id = none → s.filterSeen id = none
  tracked : ∀ id t, s.filters id = some t →
    t.id = id ∧ t.indexedField = chooseIndexField t.filter
  all : ∀ id t, s.allFilters.lookup id = some t → s.filters id = some t
  bucket : ∀ x t, t ∈ s.bucket x → s.filters t.id = some t
  group : ∀ κ g, s.filterGroups.lookup κ = some g → ∃ grp, s.groups g = some grp ∧ grp.key = κ
  ids : ∀ g grp id, s.groups g = some grp → id ∈ grp.filterIds →
    ∃ t, s.filters id = some t ∧ t.parentSubscription = grp.key

theorem wellFormed_new : WellFormed new := by
  refine ⟨fun _ _ => rfl, fun _ _ => rfl, fun _ _ => rfl, fun _ _ h => ?_, fun _ _ h => ?_,
    fun x t h => ?_, fun _ _ h => ?_, fun _ _ _ h => ?_⟩
  · cases h
  · cases h
  · cases x <;> cases h
  · cases h
  · cases h

/-- What every change keeps: filters stay what they were created as, groups keep their owner. -/
structure Grows (s s' : SubscriptionIndex) : Prop where
  filters : ∀ id t, s.filters id = some t → s'.filters id = some t
  groups : ∀ g grp, s.groups g = some grp → ∃ grp', s'.groups g = some grp' ∧ grp'.key = grp.key

/-- What the index holds for `κ` is the same. -/
structure SameView (κ : Key) (s s' : SubscriptionIndex) : Prop where
  filed : ∀ x, s'.filed κ x = s.filed κ x
  all : ∀ id t, t.parentSubscription = κ →
    (s'.allFilters.lookup id = some t ↔ s.allFilters.lookup id = some t)
  group : s'.filterGroups.lookup κ = s.filterGroups.lookup κ
  ids : ∀ g grp, s.groups g = some grp → grp.key = κ →
    ∃ grp', s'.groups g = some grp' ∧ grp'.key = grp.key ∧ grp'.filterIds = grp.filterIds

/-- No cell came to hold the event `x`. -/
structure Silent (x : EventId) (s s' : SubscriptionIndex) : Prop where
  filter : ∀ id, s'.filterSeen id = some x → s.filterSeen id = some x
  group : ∀ g, s'.groupSeen g = some x → s.groupSeen g = some x

/-- A change by a call that works on the subscriptions `touches`, removes the subscriptions `drops`
and marks the events `marks`. -/
structure Effect (touches drops : Key → Prop) (marks : EventId → Prop)
    (s s' : SubscriptionIndex) : Prop where
  grows : Grows s s'
  view : ∀ κ, ¬ touches κ → SameView κ s s'
  group : ∀ κ g, ¬ drops κ → s.filterGroups.lookup κ = some g →
    s'.filterGroups.lookup κ = some g
  filterSeen : ∀ id, s'.filterSeen id = s.filterSeen id ∨
    ∃ x, marks x ∧ s'.filterSeen id = some x
  groupSeen : ∀ g, s'.groupSeen g = s.groupSeen g ∨ ∃ x, marks x ∧ s'.groupSeen g = some x

/-- No subscription, or no event. -/
abbrev nothing {α : Type} (_ : α) : Prop := False

theorem Grows.refl (s : SubscriptionIndex) : Grows s s :=
  ⟨fun _ _ h => h, fun _ grp h => ⟨grp, h, rfl⟩⟩

theorem Grows.trans {a b c : SubscriptionIndex} (h : Grows a b) (h' : Grows b c) : Grows a c := by
  refine ⟨fun id t ht => h'.filters id t (h.filters id t ht), fun g grp hg => ?_⟩
  obtain ⟨grp₁, h₁, hkey₁⟩ := h.groups g grp hg
  obtain ⟨grp₂, h₂, hkey₂⟩ := h'.groups g grp₁ h₁
  exact ⟨grp₂, h₂, hkey₂.trans hkey₁⟩

theorem SameView.refl (κ : Key) (s : SubscriptionIndex) : SameView κ s s :=
  ⟨fun _ => rfl, fun _ _ _ => Iff.rfl, rfl, fun _ grp h _ => ⟨grp, h, rfl, rfl⟩⟩

theorem SameView.trans {κ : Key} {a b c : SubscriptionIndex} (h : SameView κ a b)
    (h' : SameView κ b c) : SameView κ a c := by
  refine ⟨fun x => (h'.filed x).trans (h.filed x),
    fun id t ht => (h'.all id t ht).trans (h.all id t ht), h'.group.trans h.group,
    fun g grp hg hkey => ?_⟩
  obtain ⟨grp₁, h₁, hkey₁, hids₁⟩ := h.ids g grp hg hkey
  obtain ⟨grp₂, h₂, hkey₂, hids₂⟩ := h'.ids g grp₁ h₁ (hkey₁.trans hkey)
  exact ⟨grp₂, h₂, hkey₂.trans hkey₁, hids₂.trans hids₁⟩

theorem Silent.refl (x : EventId) (s : SubscriptionIndex) : Silent x s s :=
  ⟨fun _ h => h, fun _ h => h⟩

theorem Silent.trans {x : EventId} {a b c : SubscriptionIndex} (h : Silent x a b)
    (h' : Silent x b c) : Silent x a c :=
  ⟨fun id hid => h.filter id (h'.filter id hid), fun g hg => h.group g (h'.group g hg)⟩

section Effects

variable {touches touches' drops drops' : Key → Prop} {marks marks' : EventId → Prop}
  {a b c : SubscriptionIndex}

theorem Effect.refl (touches drops : Key → Prop) (marks : EventId → Prop)
    (s : SubscriptionIndex) : Effect touches drops marks s s :=
  ⟨.refl s, fun κ _ => .refl κ s, fun _ _ _ h => h, fun _ => .inl rfl, fun _ => .inl rfl⟩

theorem Effect.trans (h : Effect touches drops marks a b) (h' : Effect touches drops marks b c) :
    Effect touches drops marks a c := by
  refine ⟨h.grows.trans h'.grows, fun κ hκ => (h.view κ hκ).trans (h'.view κ hκ),
    fun κ g hκ hg => h'.group κ g hκ (h.group κ g hκ hg), fun id => ?_, fun g => ?_⟩
  · rcases h'.filterSeen id with hid' | hid'
    · rw [hid']
      exact h.filterSeen id
    · exact .inr hid'
  · rcases h'.groupSeen g with hg' | hg'
    · rw [hg']
      exact h.groupSeen g
    · exact .inr hg'

theorem Effect.mono (h : Effect touches drops marks a b) (ht : ∀ κ, touches κ → touches' κ)
    (hd : ∀ κ, drops κ → drops' κ) (hm : ∀ x, marks x → marks' x) :
    Effect touches' drops' marks' a b :=
  ⟨h.grows, fun κ hκ => h.view κ fun h' => hκ (ht κ h'),
    fun κ g hκ => h.group κ g fun h' => hκ (hd κ h'),
    fun id => (h.filterSeen id).imp_right fun ⟨x, hx, hid⟩ => ⟨x, hm x hx, hid⟩,
    fun g => (h.groupSeen g).imp_right fun ⟨x, hx, hg⟩ => ⟨x, hm x hx, hg⟩⟩

/-- A call that marks nothing of its own has a smaller effect. -/
theorem Effect.of_nothing (h : Effect nothing nothing nothing a b) :
    Effect touches drops marks a b :=
  h.mono (fun _ h => h.elim) (fun _ h => h.elim) fun _ h => h.elim

/-- A call that marks other events only does not make `x` look seen. -/
theorem Effect.silent (h : Effect touches drops marks a b) (x : EventId) (hx : ¬ marks x) :
    Silent x a b := by
  refine ⟨fun id hid => ?_, fun g hg => ?_⟩
  · rcases h.filterSeen id with heq | ⟨y, hy, heq⟩
    · exact heq ▸ hid
    · rw [hid, Option.some.injEq] at heq
      exact absurd (heq ▸ hy) hx
  · rcases h.groupSeen g with heq | ⟨y, hy, heq⟩
    · exact heq ▸ hg
    · rw [hg, Option.some.injEq] at heq
      exact absurd (heq ▸ hy) hx

end Effects

/-! ### What is held for one subscription -/

/-- What the index holds for `κ`, field by field: `ts` are its filters, `all` those of them in
`all_filters`, `grp` those in its group, and `B` what is filed of them. In the middle of a call
the fields differ. -/
structure HoldingParts (κ : Key) (ts all grp : List TrackedFilter)
    (B : Slot → List TrackedFilter) (s : SubscriptionIndex) : Prop where
  nodup : (ts.map TrackedFilter.id).Nodup
  created : ∀ t ∈ ts, s.filters t.id = some t ∧ t.parentSubscription = κ
  filed : ∀ x, s.filed κ x = B x
  all : ∀ id t, t.parentSubscription = κ →
    (s.allFilters.lookup id = some t ↔ t ∈ all ∧ t.id = id)
  group : ∀ g, s.filterGroups.lookup κ = some g →
    ∃ grp', s.groups g = some grp' ∧ grp'.filterIds = grp.map TrackedFilter.id
  noGroup : s.filterGroups.lookup κ = none → grp = []

/-- The index holds exactly the filters `ts` for `κ`: each is filed once in each of its slots, and
they make up the group of `κ`. -/
def Holding (κ : Key) (ts : List TrackedFilter) (s : SubscriptionIndex) : Prop :=
  HoldingParts κ ts ts ts (fun x => ts.filter (x ∈ ·.slots)) s

/-- The index holds exactly the filters `fs` for `κ`. -/
def Holds (κ : Key) (fs : List Filter) (s : SubscriptionIndex) : Prop :=
  ∃ ts : List TrackedFilter, ts.map TrackedFilter.filter = fs ∧ Holding κ ts s

theorem holding_new (κ : Key) : Holding κ [] new := by
  refine ⟨List.nodup_nil, fun _ h => absurd h List.not_mem_nil, fun x => ?_, fun _ _ _ => ?_,
    fun _ h => ?_, fun _ => rfl⟩
  · cases x <;> rfl
  · simp [new]
  · cases h

theorem holds_new (κ : Key) : Holds κ [] new := ⟨[], rfl, holding_new κ⟩

/-- What is held survives the calls for other subscriptions. -/
theorem HoldingParts.stable {κ : Key} {ts all grp : List TrackedFilter}
    {B : Slot → List TrackedFilter} {s s' : SubscriptionIndex} (hwf : WellFormed s')
    (hgrows : Grows s s') (hview : SameView κ s s') (h : HoldingParts κ ts all grp B s) :
    HoldingParts κ ts all grp B s' := by
  refine ⟨h.nodup, fun t ht => ?_, fun x => (hview.filed x).trans (h.filed x),
    fun id t ht => (hview.all id t ht).trans (h.all id t ht), fun g hg => ?_, fun hnone => ?_⟩
  · obtain ⟨hcreated, hparent⟩ := h.created t ht
    exact ⟨hgrows.filters _ _ hcreated, hparent⟩
  · obtain ⟨grp, hgrp, hids⟩ := h.group g (hview.group ▸ hg)
    obtain ⟨grp', hgrp', hkey'⟩ := hwf.group κ g hg
    obtain ⟨grp₁, hgrp₁, hkey₁⟩ := hgrows.groups g grp hgrp
    rw [hgrp', Option.some.injEq] at hgrp₁
    subst hgrp₁
    obtain ⟨grp₂, hgrp₂, -, hids₂⟩ := hview.ids g grp hgrp (hkey₁.symm.trans hkey')
    exact ⟨grp₂, hgrp₂, hids₂.trans hids⟩
  · exact h.noGroup (hview.group ▸ hnone)

end SubscriptionIndex

end RelayBuilder
