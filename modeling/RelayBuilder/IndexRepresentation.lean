import RelayBuilder.IndexContents
import RelayBuilder.IndexRuns

/-!
# The representation of the index

What the five indexes, `all_filters` and `filter_groups` have to do with each other after calls
that were made one after another. Where a filter is filed follows from what is held for its
subscription; that nothing empty is left behind and that ids are not used again is kept by every
single action.

## Main results

* `Represented`, the representation invariant, and `Contents.represented`
* `calls_represented`: after every sequence of calls the index holds what was added, represented so,
  no id is used twice, and removing every subscription leaves nothing
* `nextFilterId_eq`: the number of ids that were given
-/

namespace RelayBuilder

open Interleave

namespace SubscriptionIndex

variable {s s' : SubscriptionIndex} {κ : Key} {H : Key → Option (List Filter)}

/-! ### No empty bucket -/

/-- No index has an empty bucket, and no tag letter an empty map. -/
structure NoEmptyBuckets (s : SubscriptionIndex) : Prop where
  authors : s.authors.NoEmpty
  kinds : s.kinds.NoEmpty
  eventIds : s.eventIds.NoEmpty
  tags : Buckets.NoEmpty₂ s.tags

/-- A change that leaves no empty bucket if there was none. -/
def KeepsNoEmpty (s s' : SubscriptionIndex) : Prop := NoEmptyBuckets s → NoEmptyBuckets s'

theorem noEmptyBuckets_new : NoEmptyBuckets new :=
  ⟨Buckets.noEmpty_empty, Buckets.noEmpty_empty, Buckets.noEmpty_empty, Buckets.noEmpty₂_empty⟩

/-- The letter chosen for a filter has values. -/
theorem values_ne_nil {filter : Filter} {name : SingleLetterTag} {values : OrdSet String}
    (h : chooseIndexField filter = some (.tag name))
    (hvalues : filter.genericTags.lookup name = some values) : values.1 ≠ [] := by
  rw [chooseIndexField] at h
  split at h
  · cases h
  split at h
  · cases h
  split at h
  · cases h
  obtain ⟨entry, hfind, hname⟩ := Option.map_eq_some_iff.mp h
  obtain rfl : entry.1 = name := by simpa using hname
  have hlookup : filter.genericTags.lookup entry.1 = some entry.2 :=
    AList.mem_lookup_iff.mpr (List.mem_of_find?_eq_some hfind)
  rw [hvalues, Option.some.injEq] at hlookup
  have hne := List.find?_some hfind
  rw [hlookup]
  intro hnil
  simp [hnil] at hne

theorem every_addFilterToIndexes {f : TrackedFilter}
    (hf : f.indexedField = chooseIndexField f.filter) :
    (addFilterToIndexes f).Every KeepsNoEmpty := by
  rw [addFilterToIndexes, atIndexedField]
  split
  · exact Prog.every_atomic _ fun s h => ⟨h.authors, h.kinds, h.eventIds, h.tags⟩
  all_goals split
  · exact Prog.every_atomic _ fun s h => ⟨h.authors, h.kinds, h.eventIds.pushAll _ _, h.tags⟩
  · exact Prog.every_done _
  · exact Prog.Every.forM (fun authors => Prog.every_atomic _ fun s h =>
      ⟨h.authors.pushAll _ _, h.kinds, h.eventIds, h.tags⟩) _
  · exact Prog.every_done _
  · exact Prog.every_atomic _ fun s h => ⟨h.authors, h.kinds.pushAll _ _, h.eventIds, h.tags⟩
  · exact Prog.every_done _
  · rename_i name hname _ values hvalues
    exact Prog.every_atomic _ fun s h => ⟨h.authors, h.kinds, h.eventIds,
      h.tags.pushAll₂ _ _ values.2 (values_ne_nil (hf.symm.trans hname) hvalues)⟩
  · exact Prog.every_done _

theorem every_addSubscription (κ : Key) (filters : List Filter) :
    (addSubscription κ filters).Every KeepsNoEmpty := by
  refine Prog.Every.bind (T := KeepsNoEmpty) (Prog.every_atomic _ fun s h => ?_) fun g =>
    Prog.Every.forM (fun filter => ?_) filters
  · rw [entryOrNewGroup]
    split <;> exact ⟨h.authors, h.kinds, h.eventIds, h.tags⟩
  -- whatever state it is created in, the filter is filed under the field chosen for it
  · refine Prog.every_atomic_bind _ (fun s h => ⟨h.authors, h.kinds, h.eventIds, h.tags⟩)
      fun s => ?_
    refine Prog.Every.bind (T := KeepsNoEmpty)
      (Prog.every_atomic _ fun s h => ⟨h.authors, h.kinds, h.eventIds, h.tags⟩) fun _ => ?_
    refine Prog.Every.bind (T := KeepsNoEmpty)
      (Prog.every_atomic _ fun s h => ⟨h.authors, h.kinds, h.eventIds, h.tags⟩) fun _ => ?_
    exact every_addFilterToIndexes (f := (newFilter κ filter s).1) rfl

theorem every_removeSubscription (order : HashOrder) (κ : Key) :
    (removeSubscription order κ).Every KeepsNoEmpty := by
  refine Prog.Every.bind (Prog.every_atomic _ fun s h => ⟨h.authors, h.kinds, h.eventIds, h.tags⟩)
    fun group => ?_
  cases group with
  | none => exact Prog.every_done _
  | some g =>
    refine Prog.Every.bind (Prog.every_atomic _ fun s h => h) fun ids =>
      Prog.Every.forM (fun id => ?_) _
    refine Prog.Every.bind
      (Prog.every_atomic _ fun s h => ⟨h.authors, h.kinds, h.eventIds, h.tags⟩) fun filter => ?_
    cases filter with
    | none => exact Prog.every_done _
    | some f =>
      exact every_atIndexedField f (fun s h => ⟨h.authors, h.kinds, h.eventIds, h.tags⟩)
        (fun ids s h => ⟨h.authors, h.kinds, h.eventIds.retainAll _ _, h.tags⟩)
        (fun authors s h => ⟨h.authors.retainAll _ _, h.kinds, h.eventIds, h.tags⟩)
        (fun kinds s h => ⟨h.authors, h.kinds.retainAll _ _, h.eventIds, h.tags⟩)
        fun name values s h => ⟨h.authors, h.kinds, h.eventIds, h.tags.retainAll₂ _ _ _⟩

/-- Distributing an event only marks filters and groups as seen. -/
theorem every_distributeEvent {T : SubscriptionIndex → SubscriptionIndex → Prop}
    (hrefl : ∀ s, T s s) (hfilter : ∀ s id e, T s (s.markFilter id e))
    (hgroup : ∀ s g f, T s (s.updateGroup g f)) (matchEvent : Filter → Event → Bool) (e : Event) :
    (distributeEvent matchEvent e).Every T := by
  have hread : ∀ {α : Type} (l : IndexLock) (f : SubscriptionIndex → α),
      (Prog.atomic l fun s => (f s, s)).Every T := fun l f => Prog.every_atomic l hrefl
  refine Prog.Every.bind ?_ fun c => Prog.Every.bind (Prog.Every.foldlM (fun d f => ?_) c _)
    fun _ => Prog.every_done _
  · exact (hread _ _).bind fun _ => (hread _ _).bind fun _ => (hread _ _).bind fun _ =>
      (hread _ _).bind fun _ => hread _ _
  have hdone : ∀ d : Distribution,
      (Prog.done d : Prog IndexLock SubscriptionIndex Distribution).Every T :=
    fun _ => Prog.every_done _
  rw [checkCandidate]
  split
  · exact hdone _
  refine (hread _ _).bind fun hasSeen => ?_
  split
  · exact hdone _
  split
  · exact hdone _
  refine (Prog.every_atomic _ fun s => hfilter s _ _).bind fun _ => ?_
  dsimp only
  split
  · exact hdone _
  refine (hread _ _).bind fun group => ?_
  cases group with
  | none => exact hdone _
  | some g =>
    refine (hread _ _).bind fun seen => ?_
    split
    · exact hdone _
    · exact (Prog.every_atomic _ fun s => hgroup s _ _).bind fun _ => hdone _

/-! ### No id twice -/

/-- So many ids were given meanwhile, and every filter of the later state was there before, under an
id that it had before, or got an id that no filter had before. -/
structure Later (given : ℕ) (s s' : SubscriptionIndex) : Prop where
  counter : s'.nextFilterId = s.nextFilterId + given
  all : ∀ id t, s'.allFilters.lookup id = some t →
    s.allFilters.lookup id = some t ∨ s.nextFilterId ≤ id

theorem Later.refl (s : SubscriptionIndex) : Later 0 s s := ⟨rfl, fun _ _ => .inl⟩

theorem Later.trans {m n : ℕ} {a b c : SubscriptionIndex} (h : Later m a b) (h' : Later n b c) :
    Later (m + n) a c := by
  refine ⟨by rw [h'.counter, h.counter, Nat.add_assoc], fun id t ht => ?_⟩
  rcases h'.all id t ht with hb | hid
  · exact h.all id t hb
  · rw [h.counter] at hid
    exact .inr (Nat.le_of_add_right_le hid)

/-- A change that adds nothing to `all_filters` and gives no id. -/
theorem Later.of_same (hall : s'.allFilters = s.allFilters)
    (hnext : s'.nextFilterId = s.nextFilterId) : Later 0 s s' :=
  ⟨hnext, fun _ _ h => .inl (hall ▸ h)⟩

theorem every_later_atIndexedField (f : TrackedFilter)
    (matchAll : List TrackedFilter → List TrackedFilter)
    (buckets : ∀ {K : Type} [DecidableEq K], List K →
      Buckets K TrackedFilter → Buckets K TrackedFilter)
    (tagBuckets : String → List String →
      (AList fun _ : String => Buckets String TrackedFilter) →
      AList fun _ : String => Buckets String TrackedFilter) :
    (atIndexedField f matchAll buckets tagBuckets).Every (Later 0) :=
  every_atIndexedField f (fun _ => .of_same rfl rfl) (fun _ _ => .of_same rfl rfl)
    (fun _ _ => .of_same rfl rfl) (fun _ _ => .of_same rfl rfl) fun _ _ _ => .of_same rfl rfl

/-- What a program does alone whose actions give no id. -/
theorem later_alone {α : Type} {p : Prog IndexLock SubscriptionIndex α} (hp : p.NeverWaits)
    (h : p.Every (Later 0)) (s : SubscriptionIndex) :
    p.Alone (fun _ _ => True) (fun _ s' => Later 0 s s') s :=
  ((hp.alone_every h s).track Later.refl (fun _ _ _ => Later.trans) fun _ _ h => h).conseq
    (fun _ _ _ => trivial) fun _ _ h => h.2

theorem addFilter_later (κ : Key) (g : GroupRef) (filter : Filter) (s : SubscriptionIndex) :
    (addFilter κ g filter).Alone (fun _ _ => True) (fun _ s' => Later 1 s s') s := by
  refine Prog.Alone.bind (M := fun t s' => t.id = s.nextFilterId ∧ Later 1 s s')
    (Prog.Alone.atomic trivial ⟨rfl, rfl, fun _ _ => .inl⟩) fun f s₁ ⟨hid, h₁⟩ => ?_
  refine Prog.Alone.bind (M := fun _ s' => Later 1 s s') (Prog.Alone.atomic trivial
    ⟨h₁.counter, fun id t ht => ?_⟩) fun _ s₂ h₂ => ?_
  · by_cases hf : id = f.id
    · exact .inr (Nat.le_of_eq (hf.trans hid).symm)
    · rw [AList.lookup_insert_ne hf] at ht
      exact h₁.all id t ht
  refine Prog.Alone.bind (M := fun _ s' => Later 1 s s') (Prog.Alone.atomic trivial
    ⟨h₂.counter, h₂.all⟩) fun _ s₃ h₃ => ?_
  exact (later_alone (neverWaits_atIndexedField f _ _ _)
    (every_later_atIndexedField f _ _ _) s₃).post fun _ _ h => h₃.trans h

theorem addSubscription_later (κ : Key) (filters : List Filter) (s : SubscriptionIndex) :
    (addSubscription κ filters).Alone (fun _ _ => True)
      (fun _ s' => Later filters.length s s') s := by
  refine Prog.Alone.bind (M := fun _ s' => Later 0 s s') (Prog.Alone.atomic trivial ?_)
    fun g s₁ h₁ => ?_
  · rw [entryOrNewGroup]
    split
    · exact .refl s
    · exact .of_same rfl rfl
  -- the loop has given as many ids as it has gone through filters
  · refine (Prog.Alone.forM (J := fun rest s' => ∃ n, n + rest.length = filters.length ∧
      Later n s s') ?_ ⟨0, Nat.zero_add _, h₁⟩).post ?_
    · rintro filter rest s₂ ⟨n, hn, h₂⟩
      refine (addFilter_later κ g filter s₂).post fun _ _ h => ⟨n + 1, ?_, h₂.trans h⟩
      rw [← hn, List.length_cons, Nat.add_assoc, Nat.add_comm 1]
    · rintro _ s' ⟨n, hn, h⟩
      rw [List.length_nil, Nat.add_zero] at hn
      exact hn ▸ h

theorem removeSubscription_later (order : HashOrder) (κ : Key) (s : SubscriptionIndex) :
    (removeSubscription order κ).Alone (fun _ _ => True) (fun _ s' => Later 0 s s') s := by
  refine later_alone (neverWaits_removeSubscription order κ)
    (Prog.Every.bind (Prog.every_atomic _ fun _ => .of_same rfl rfl) fun group => ?_) s
  cases group with
  | none => exact Prog.every_done _
  | some g =>
    refine Prog.Every.bind (Prog.every_atomic _ fun _ => .refl _) fun ids =>
      Prog.Every.forM (fun id => ?_) _
    refine Prog.Every.bind (Prog.every_atomic _ fun s => ⟨rfl, fun id' t ht => .inl ?_⟩)
      fun filter => ?_
    · by_cases hid : id' = id
      · subst hid
        simp at ht
      · rwa [AList.lookup_erase_ne hid] at ht
    · cases filter with
      | none => exact Prog.every_done _
      | some f => exact every_later_atIndexedField f _ _ _

/-! ### The representation invariant -/

/-- The filter id is in the group of `κ`. -/
def InGroup (κ : Key) (id : FilterId) (s : SubscriptionIndex) : Prop :=
  ∃ g grp, s.filterGroups.lookup κ = some g ∧ s.groups g = some grp ∧ id ∈ grp.filterIds

/-- How the maps of an index belong together: the ids in `all_filters` are the ids in the groups,
each in exactly one; a filter is filed exactly once in each slot of its chosen field, and nothing
else is filed; nothing is empty. -/
structure Represented (s : SubscriptionIndex) : Prop where
  tracked : ∀ id t, s.allFilters.lookup id = some t →
    t.id = id ∧ t.indexedField = chooseIndexField t.filter
  oneGroup : ∀ id t, s.allFilters.lookup id = some t → ∃! κ, InGroup κ id s
  grouped : ∀ κ id, InGroup κ id s → ∃ t, s.allFilters.lookup id = some t
  nodupGroup : ∀ κ g grp, s.filterGroups.lookup κ = some g → s.groups g = some grp →
    grp.filterIds.Nodup
  filed : ∀ id t, s.allFilters.lookup id = some t →
    ∀ x, (s.bucket x).count t = if x ∈ t.slots then 1 else 0
  known : ∀ x, ∀ t ∈ s.bucket x, s.allFilters.lookup t.id = some t
  noEmpty : NoEmptyBuckets s

/-- The group of a subscription has the ids of what is held for it. -/
theorem Holding.inGroup {ts : List TrackedFilter} (h : Holding κ ts s) {id : FilterId} :
    InGroup κ id s ↔ id ∈ ts.map TrackedFilter.id := by
  refine ⟨fun ⟨g, grp, hg, hgrp, hid⟩ => ?_, fun hid => ?_⟩
  · obtain ⟨grp', hgrp', hids⟩ := h.group g hg
    rw [hgrp, Option.some.injEq] at hgrp'
    rwa [hgrp', hids] at hid
  · cases hg : s.filterGroups.lookup κ with
    | none =>
      rw [h.noGroup hg] at hid
      cases hid
    | some g =>
      obtain ⟨grp, hgrp, hids⟩ := h.group g hg
      exact ⟨g, grp, hg, hgrp, hids ▸ hid⟩

/-- A filter that is held is filed once in each of its slots. -/
theorem Holding.count_bucket {ts : List TrackedFilter} (h : Holding κ ts s) {t : TrackedFilter}
    (ht : t ∈ ts) (x : Slot) : (s.bucket x).count t = if x ∈ t.slots then 1 else 0 := by
  have hparent : t.parentSubscription = κ := (h.created t ht).2
  have hfiled : (s.bucket x).count t = (s.filed κ x).count t :=
    (List.count_filter (by simp [hparent])).symm
  rw [hfiled, h.filed x]
  have hnd : ts.Nodup := List.Nodup.of_map _ h.nodup
  by_cases hx : x ∈ t.slots
  · rw [if_pos hx, List.count_filter (by simp [hx])]
    exact List.count_eq_one_of_mem hnd ht
  · rw [if_neg hx]
    exact List.count_eq_zero_of_not_mem fun hmem => hx (by simpa using (List.mem_filter.mp hmem).2)

/-- What is held for each subscription determines the whole index. -/
theorem Contents.represented (h : Contents H s) (hempty : NoEmptyBuckets s) : Represented s := by
  have hholding : ∀ κ, ∃ ts, Holding κ ts s := fun κ =>
    have ⟨ts, _, hts⟩ := (h.entry κ).holds
    ⟨ts, hts⟩
  have htracked : ∀ id t, s.allFilters.lookup id = some t →
      t.id = id ∧ t.indexedField = chooseIndexField t.filter := fun id t ht =>
    h.wellFormed.tracked id t (h.wellFormed.all id t ht)
  have hmem : ∀ {κ ts}, Holding κ ts s → ∀ id ∈ ts.map TrackedFilter.id,
      ∃ t ∈ ts, t.parentSubscription = κ ∧ s.allFilters.lookup id = some t := by
    intro κ ts hts id hid
    obtain ⟨t, ht, rfl⟩ := List.mem_map.mp hid
    have hparent := (hts.created t ht).2
    exact ⟨t, ht, hparent, (hts.all t.id t hparent).mpr ⟨ht, rfl⟩⟩
  refine ⟨htracked, fun id t ht => ?_, fun κ id hid => ?_, fun κ g grp hg hgrp => ?_,
    fun id t ht x => ?_, fun x t ht => ?_, hempty⟩
  · obtain ⟨ts, hts⟩ := hholding t.parentSubscription
    obtain ⟨htmem, hid⟩ := (hts.all id t rfl).mp ht
    refine ⟨t.parentSubscription, hts.inGroup.mpr (hid ▸ List.mem_map_of_mem htmem),
      fun κ' hκ' => ?_⟩
    obtain ⟨ts', hts'⟩ := hholding κ'
    obtain ⟨t', -, hparent', ht'⟩ := hmem hts' id (hts'.inGroup.mp hκ')
    rw [ht, Option.some.injEq] at ht'
    rw [ht', hparent']
  · obtain ⟨ts, hts⟩ := hholding κ
    obtain ⟨t, -, -, ht⟩ := hmem hts id (hts.inGroup.mp hid)
    exact ⟨t, ht⟩
  · obtain ⟨ts, hts⟩ := hholding κ
    obtain ⟨grp', hgrp', hids⟩ := hts.group g hg
    rw [hgrp, Option.some.injEq] at hgrp'
    rw [hgrp', hids]
    exact hts.nodup
  · obtain ⟨ts, hts⟩ := hholding t.parentSubscription
    exact hts.count_bucket ((hts.all id t rfl).mp ht).1 x
  · obtain ⟨ts, hts⟩ := hholding t.parentSubscription
    have hfiled : t ∈ s.filed t.parentSubscription x := List.mem_filter.mpr ⟨ht, by simp⟩
    rw [hts.filed x] at hfiled
    exact (hts.all t.id t rfl).mpr ⟨(List.mem_filter.mp hfiled).1, rfl⟩

/-- Nothing is left in any map. -/
structure Cleared (s : SubscriptionIndex) : Prop where
  authors : s.authors = ∅
  kinds : s.kinds = ∅
  eventIds : s.eventIds = ∅
  tags : s.tags = ∅
  matchAllFilters : s.matchAllFilters = []
  allFilters : s.allFilters = ∅
  filterGroups : s.filterGroups = ∅

/-- An index that holds nothing for anybody is empty. -/
theorem Contents.cleared (h : Contents H s) (hempty : NoEmptyBuckets s) (hnone : ∀ κ, H κ = none) :
    Cleared s := by
  have habsent : ∀ κ, Absent κ s := fun κ => by
    have := h.entry κ
    rwa [hnone κ] at this
  have hbucket : ∀ x, s.bucket x = [] := fun x => List.eq_nil_iff_forall_not_mem.mpr fun t ht => by
    obtain ⟨⟨ts, hts, hholds⟩, -⟩ := habsent t.parentSubscription
    have hfiled : t ∈ s.filed t.parentSubscription x := List.mem_filter.mpr ⟨ht, by simp⟩
    rw [hholds.filed x, List.map_eq_nil_iff.mp hts] at hfiled
    cases hfiled
  refine ⟨hempty.authors.eq_empty fun a => hbucket (.author a),
    hempty.kinds.eq_empty fun k => hbucket (.kind k),
    hempty.eventIds.eq_empty fun id => hbucket (.eventId id),
    hempty.tags.eq_empty fun name value => hbucket (.tag name value), hbucket .matchAll,
    AList.ext (List.eq_nil_iff_forall_not_mem.mpr fun ⟨id, t⟩ hmem => ?_),
    AList.ext (List.eq_nil_iff_forall_not_mem.mpr fun ⟨κ, g⟩ hmem => ?_)⟩
  · obtain ⟨⟨ts, hts, hholds⟩, -⟩ := habsent t.parentSubscription
    have ht := (hholds.all id t rfl).mp (AList.mem_lookup_iff.mpr hmem)
    rw [List.map_eq_nil_iff.mp hts] at ht
    exact List.not_mem_nil ht.1
  · have hg : s.filterGroups.lookup κ = some g := AList.mem_lookup_iff.mpr hmem
    rw [(habsent κ).noGroup] at hg
    cases hg

end SubscriptionIndex

/-! ### Sequences of calls -/

open SubscriptionIndex

/-- What a call changes in what is held. -/
def IndexOp.held : IndexOp → (Key → Option (List Filter)) → Key → Option (List Filter)
  | .addSubscription κ filters, H => Function.update H κ (some ((H κ).getD [] ++ filters))
  | .removeSubscription κ, H => Function.update H κ none
  | .distributeEvent _, H => H

/-- How many filters a call adds. -/
def IndexOp.added : IndexOp → ℕ
  | .addSubscription _ filters => filters.length
  | .removeSubscription _ | .distributeEvent _ => 0

/-- How many filters calls add. -/
def addedBy (ops : List IndexOp) : ℕ := ops.foldl (fun n op => n + op.added) 0

/-- What is held after calls on a fresh index. -/
def heldAfter (ops : List IndexOp) : Key → Option (List Filter) :=
  ops.foldl (fun H op => op.held H) fun _ => none

theorem heldAfter_append (ops ops' : List IndexOp) :
    heldAfter (ops ++ ops') = ops'.foldl (fun H op => op.held H) (heldAfter ops) :=
  List.foldl_append ..

/-- Nothing is held for a subscription that was never added. -/
theorem heldAfter_eq_none {κ : Key} {ops : List IndexOp}
    (h : ∀ filters, .addSubscription κ filters ∉ ops) : heldAfter ops κ = none := by
  induction ops using List.reverseRecOn with
  | nil => rfl
  | append_singleton ops op ih =>
    have hold := ih fun filters hmem => h filters (List.mem_append_left _ hmem)
    rw [heldAfter_append, List.foldl_cons, List.foldl_nil]
    cases op with
    | addSubscription κ' filters =>
      have hne : κ ≠ κ' := fun heq =>
        h filters (List.mem_append_right _ (heq ▸ List.mem_singleton_self _))
      rw [IndexOp.held, Function.update_of_ne hne, hold]
    | removeSubscription κ' =>
      by_cases hκ : κ = κ'
      · rw [IndexOp.held, hκ, Function.update_self]
      · rw [IndexOp.held, Function.update_of_ne hκ, hold]
    | distributeEvent e => exact hold

/-- Removing subscriptions leaves nothing for them. -/
theorem held_removeAll (κs : List Key) (H : Key → Option (List Filter)) (κ : Key)
    (h : κ ∈ κs ∨ H κ = none) :
    (κs.map IndexOp.removeSubscription).foldl (fun H op => op.held H) H κ = none := by
  induction κs generalizing H with
  | nil => exact h.resolve_left List.not_mem_nil
  | cons κ' κs ih =>
    refine ih _ ?_
    by_cases hκ : κ = κ'
    · subst hκ
      exact .inr (Function.update_self ..)
    · rcases h with h | h
      · exact .inl ((List.mem_cons.mp h).resolve_left hκ)
      · exact .inr ((Function.update_of_ne hκ _ _).trans h)

variable {matchEvent : Filter → Event → Bool} {order : HashOrder} {H : Key → Option (List Filter)}
  {s s' : SubscriptionIndex}

/-- What the calls so far have led to. -/
structure Kept (H : Key → Option (List Filter)) (s : SubscriptionIndex) : Prop where
  contents : Contents H s
  noEmpty : NoEmptyBuckets s

theorem kept_new : Kept (fun _ => none) new := ⟨contents_new, noEmptyBuckets_new⟩

/-- A call that runs alone. -/
theorem IndexOp.kept_alone (matchEvent : Filter → Event → Bool) (order : HashOrder)
    (h : Kept H s) (op : IndexOp) :
    (op.code matchEvent order).Alone (fun _ _ => True)
      (fun _ s' => Kept (op.held H) s' ∧ Later op.added s s') s := by
  have hall : ∀ {α : Type} {p : Prog IndexLock SubscriptionIndex α}, p.NeverWaits →
      p.Every KeepsNoEmpty →
      p.Alone (fun _ _ => True) (fun _ s' => Contents (op.held H) s') s →
      p.Alone (fun _ _ => True) (fun _ s' => Later op.added s s') s →
      p.Alone (fun _ _ => True) (fun _ s' => Kept (op.held H) s' ∧ Later op.added s s') s := by
    intro α p hp hevery hcontents hlater
    have hempty := (hp.alone_every hevery s).track (T := KeepsNoEmpty) (fun _ h => h)
      (fun _ _ _ h h' hs => h' (h hs)) fun _ _ h => h
    refine ((hempty.conseq (fun _ _ _ => trivial) fun _ _ h => h).and (hcontents.and hlater)).post
      fun _ s' h' => ⟨⟨h'.2.1, h'.1.2 h.noEmpty⟩, h'.2.2⟩
  cases op with
  | addSubscription κ filters =>
    exact (hall (neverWaits_addSubscription κ filters) (every_addSubscription κ filters)
      (h.contents.addSubscription_alone κ filters) (addSubscription_later κ filters s)).bind
      fun _ _ h => h
  | removeSubscription κ =>
    exact (hall (neverWaits_removeSubscription order κ) (every_removeSubscription order κ)
      (h.contents.removeSubscription_alone order κ) (removeSubscription_later order κ s)).bind
      fun _ _ h => h
  | distributeEvent e =>
    refine hall (neverWaits_distributeEvent e) (every_distributeEvent (fun _ h => h)
        (fun _ _ _ h => ⟨h.authors, h.kinds, h.eventIds, h.tags⟩)
        (fun _ _ _ h => ⟨h.authors, h.kinds, h.eventIds, h.tags⟩) matchEvent e)
      ((h.contents.distributeEvent_alone matchEvent e).post fun _ _ h => h.1)
      (later_alone (neverWaits_distributeEvent e) (every_distributeEvent Later.refl
        (fun _ _ _ => .of_same rfl rfl) (fun _ _ _ => .of_same rfl rfl) matchEvent e) s)

/-- Every sequence of calls on a fresh index runs to its end. -/
theorem runCalls_kept (matchEvent : Filter → Event → Bool) (order : HashOrder)
    (ops : List IndexOp) : ∃ results s,
      Prog.runCalls (IndexOp.code matchEvent order) ops new = some (results, s) ∧
        Kept (heldAfter ops) s := by
  induction ops using List.reverseRecOn with
  | nil => exact ⟨[], new, rfl, kept_new⟩
  | append_singleton ops op ih =>
    obtain ⟨results, s, hrun, h⟩ := ih
    obtain ⟨o, ho, hkept, -⟩ := (op.kept_alone matchEvent order h).run
    refine ⟨_, o.state, by rw [Prog.runCalls_append, hrun, Option.bind_some, ho]; rfl, ?_⟩
    rw [heldAfter_append]
    exact hkept

/-- No id that was given to a filter before some calls is given to another filter by them. -/
theorem runCalls_later (before after : List IndexOp) {results : List (List Key)}
    (hbefore : Prog.runCalls (IndexOp.code matchEvent order) before new = some (results, s))
    {results' : List (List Key)}
    (hafter : Prog.runCalls (IndexOp.code matchEvent order) (before ++ after) new =
      some (results', s')) : Later (addedBy after) s s' := by
  induction after using List.reverseRecOn generalizing results' s' with
  | nil =>
    rw [List.append_nil, hbefore, Option.some.injEq, Prod.mk.injEq] at hafter
    rw [← hafter.2]
    exact .refl s
  | append_singleton after op ih =>
    obtain ⟨results₁, s₁, hrun, h⟩ := runCalls_kept matchEvent order (before ++ after)
    obtain ⟨o, ho, -, hlater⟩ := (op.kept_alone matchEvent order h).run
    rw [← List.append_assoc, Prog.runCalls_append, hrun, Option.bind_some, ho, Option.map_some,
      Option.some.injEq, Prod.mk.injEq] at hafter
    rw [← hafter.2, addedBy, List.foldl_concat]
    exact (ih hrun).trans hlater

/-- The next id is one more than the number of filters that were added. So as long as fewer than
`2 ^ 64` were, the counter of the source, which has 64 bits, has the same value. -/
theorem nextFilterId_eq (ops : List IndexOp) {results : List (List Key)}
    (h : Prog.runCalls (IndexOp.code matchEvent order) ops new = some (results, s)) :
    s.nextFilterId = addedBy ops + 1 := by
  rw [(runCalls_later [] ops rfl h).counter, Nat.add_comm]
  rfl

/-- **The representation invariant of the index.** After every sequence of calls on a fresh index
it holds the filters that were added and not removed, and its maps belong together as `Represented`
says; no id that a filter had at some time is given to another filter later; and when all
subscriptions that were added are removed, in any order, nothing is left. -/
theorem calls_represented (matchEvent : Filter → Event → Bool) (order : HashOrder)
    (ops : List IndexOp) : ∃ results s,
      Prog.runCalls (IndexOp.code matchEvent order) ops new = some (results, s) ∧
      Kept (heldAfter ops) s ∧ Represented s ∧
      (∀ before after results₁ s₁, ops = before ++ after →
        Prog.runCalls (IndexOp.code matchEvent order) before new = some (results₁, s₁) →
        ∀ id t, s.allFilters.lookup id = some t →
          s₁.allFilters.lookup id = some t ∨ s₁.filters id = none) ∧
      ∀ κs : List Key, (∀ κ filters, .addSubscription κ filters ∈ ops → κ ∈ κs) →
        ∃ results₂ s₂, Prog.runCalls (IndexOp.code matchEvent order)
          (ops ++ κs.map .removeSubscription) new = some (results₂, s₂) ∧ Cleared s₂ := by
  obtain ⟨results, s, hrun, h⟩ := runCalls_kept matchEvent order ops
  refine ⟨results, s, hrun, h, h.contents.represented h.noEmpty,
    fun before after results₁ s₁ hops hbefore id t ht => ?_, fun κs hκs => ?_⟩
  · obtain ⟨_, _, hrun₁, h₁⟩ := runCalls_kept matchEvent order before
    rw [hbefore, Option.some.injEq, Prod.mk.injEq] at hrun₁
    rw [← hrun₁.2] at h₁
    refine ((runCalls_later before after hbefore (hops ▸ hrun)).all id t ht).imp_right fun hid => ?_
    exact h₁.contents.wellFormed.freshFilter id hid
  · obtain ⟨results₂, s₂, hrun₂, h₂⟩ :=
      runCalls_kept matchEvent order (ops ++ κs.map .removeSubscription)
    refine ⟨results₂, s₂, hrun₂, h₂.contents.cleared h₂.noEmpty fun κ => ?_⟩
    rw [heldAfter_append]
    refine held_removeAll κs _ κ ?_
    by_cases hκ : ∃ filters, IndexOp.addSubscription κ filters ∈ ops
    · obtain ⟨filters, hmem⟩ := hκ
      exact .inl (hκs κ filters hmem)
    · exact .inr (heldAfter_eq_none fun filters hmem => hκ ⟨filters, hmem⟩)

end RelayBuilder
