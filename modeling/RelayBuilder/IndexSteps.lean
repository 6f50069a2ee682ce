import RelayBuilder.IndexView

/-!
# What one action does to the index

One lemma for each kind of action of the index's methods: it keeps the index well formed, and its
effect is confined to the subscription and the event of the method. Everything that is later said
about the calls of other tasks comes from these.
-/

namespace RelayBuilder

open Interleave

namespace SubscriptionIndex

variable {s s' : SubscriptionIndex} {κ : Key} {f : TrackedFilter} {xs : List Slot}

/-! ### Changes of the maps -/

/-- A change of the indexes alone, by what it shows. -/
theorem SameRest.effect {touches : Key → Prop} (h : SameRest s s')
    (hfiled : ∀ κ, ¬ touches κ → ∀ x, s'.filed κ x = s.filed κ x) :
    Effect touches nothing nothing s s' where
  grows := ⟨fun _ _ ht => h.filters ▸ ht, fun _ grp hg => ⟨grp, h.groups ▸ hg, rfl⟩⟩
  view κ hκ := ⟨hfiled κ hκ, fun _ _ _ => by rw [h.allFilters], by rw [h.filterGroups],
    fun _ grp hg _ => ⟨grp, h.groups ▸ hg, rfl, rfl⟩⟩
  group _ _ _ hg := h.filterGroups ▸ hg
  filterSeen id := .inl (by rw [h.filterSeen])
  groupSeen g := .inl (by rw [groupSeen, groupSeen, h.groups])

theorem SameRest.wellFormed (h : SameRest s s') (hwf : WellFormed s)
    (hbucket : ∀ x t, t ∈ s'.bucket x → s.filters t.id = some t) : WellFormed s' where
  freshFilter id hid := by rw [h.filters]; exact hwf.freshFilter id (h.nextFilterId ▸ hid)
  freshGroup g hg := by rw [h.groups]; exact hwf.freshGroup g (h.nextGroup ▸ hg)
  unseen id hid := by rw [h.filterSeen]; exact hwf.unseen id (h.filters ▸ hid)
  tracked id t ht := hwf.tracked id t (h.filters ▸ ht)
  all id t ht := by rw [h.filters]; exact hwf.all id t (h.allFilters ▸ ht)
  bucket x t ht := by rw [h.filters]; exact hbucket x t ht
  group κ g hg := by rw [h.groups]; exact hwf.group κ g (h.filterGroups ▸ hg)
  ids g grp id hg hid := by rw [h.filters]; exact hwf.ids g grp id (h.groups ▸ hg) hid

theorem Filed.filed (h : Filed f xs s s') (x : Slot) : s'.filed κ x =
    s.filed κ x ++ if x ∈ xs ∧ f.parentSubscription = κ then [f] else [] := by
  rw [SubscriptionIndex.filed, h.bucket, List.filter_append]
  by_cases hx : x ∈ xs <;> by_cases hf : f.parentSubscription = κ <;>
    simp [SubscriptionIndex.filed, hx, hf]

theorem Filed.step (h : Filed f xs s s') (hwf : WellFormed s) (hf : s.filters f.id = some f) :
    WellFormed s' ∧ Effect (· = f.parentSubscription) nothing nothing s s' := by
  refine ⟨h.wellFormed hwf fun x t ht => ?_, h.effect fun κ hκ x => ?_⟩
  · rw [h.bucket, List.mem_append] at ht
    rcases ht with ht | ht
    · exact hwf.bucket x t ht
    · by_cases hx : x ∈ xs
      · rw [if_pos hx, List.mem_singleton] at ht
        exact ht ▸ hf
      · rw [if_neg hx] at ht
        exact absurd ht List.not_mem_nil
  · rw [h.filed, if_neg fun hx => hκ hx.2.symm, List.append_nil]

theorem Unfiled.filed (h : Unfiled f xs s s') (x : Slot) : s'.filed κ x =
    if x ∈ xs then (s.filed κ x).filter (·.id != f.id) else s.filed κ x := by
  rw [SubscriptionIndex.filed, h.bucket]
  by_cases hx : x ∈ xs
  · simp [SubscriptionIndex.filed, hx, Bool.and_comm]
  · simp [SubscriptionIndex.filed, hx]

theorem mem_filed {t : TrackedFilter} {x : Slot} :
    t ∈ s.filed κ x ↔ t ∈ s.bucket x ∧ t.parentSubscription = κ := by
  simp [SubscriptionIndex.filed]

theorem Unfiled.step (h : Unfiled f xs s s') (hwf : WellFormed s) (hf : s.filters f.id = some f) :
    WellFormed s' ∧ Effect (· = f.parentSubscription) nothing nothing s s' := by
  refine ⟨h.wellFormed hwf fun x t ht => ?_, h.effect fun κ hκ x => ?_⟩
  · rw [h.bucket] at ht
    by_cases hx : x ∈ xs
    · rw [if_pos hx] at ht
      exact hwf.bucket x t (List.mem_of_mem_filter ht)
    · rw [if_neg hx] at ht
      exact hwf.bucket x t ht
  · rw [h.filed]
    split
    · -- a filter filed under the id of `f` is `f`, and that belongs to another subscription
      refine List.filter_eq_self.mpr fun t ht => bne_iff_ne.mpr fun heq => ?_
      obtain ⟨hmem, hparent⟩ := mem_filed.mp ht
      have hcreated := hwf.bucket x t hmem
      rw [heq, hf, Option.some.injEq] at hcreated
      subst hcreated
      exact hκ hparent.symm
    · rfl

/-- `all_filters.insert`. -/
theorem insertAll_step (hwf : WellFormed s) (hf : s.filters f.id = some f) :
    WellFormed { s with allFilters := s.allFilters.insert f.id f } ∧
      Effect (· = f.parentSubscription) nothing nothing s
        { s with allFilters := s.allFilters.insert f.id f } := by
  refine ⟨⟨hwf.freshFilter, hwf.freshGroup, hwf.unseen, hwf.tracked, fun id t ht => ?_,
    fun x t ht => hwf.bucket x t (by cases x <;> exact ht), hwf.group, hwf.ids⟩,
    ⟨fun _ _ h => h, fun _ grp h => ⟨grp, h, rfl⟩⟩, fun κ hκ => ?_, fun _ _ _ h => h,
    fun _ => .inl rfl, fun _ => .inl rfl⟩
  · by_cases hid : id = f.id
    · subst hid
      rw [AList.lookup_insert, Option.some.injEq] at ht
      exact ht ▸ hf
    · rw [AList.lookup_insert_ne hid] at ht
      exact hwf.all id t ht
  · refine ⟨fun x => by cases x <;> rfl, fun id t ht => ?_, rfl,
      fun _ grp h _ => ⟨grp, h, rfl, rfl⟩⟩
    by_cases hid : id = f.id
    · subst hid
      rw [AList.lookup_insert, Option.some.injEq]
      constructor
      · rintro rfl
        exact absurd ht.symm hκ
      · intro hall
        have hcreated := hwf.all _ _ hall
        rw [hf] at hcreated
        exact Option.some.inj hcreated
    · rw [AList.lookup_insert_ne hid]

/-- `all_filters.remove`. -/
theorem eraseAll_step (hwf : WellFormed s) (hf : s.filters f.id = some f) :
    WellFormed { s with allFilters := s.allFilters.erase f.id } ∧
      Effect (· = f.parentSubscription) nothing nothing s
        { s with allFilters := s.allFilters.erase f.id } := by
  have hlookup : ∀ id t, (s.allFilters.erase f.id).lookup id = some t →
      s.allFilters.lookup id = some t := by
    intro id t ht
    by_cases hid : id = f.id
    · subst hid
      rw [AList.lookup_erase] at ht
      cases ht
    · rwa [AList.lookup_erase_ne hid] at ht
  refine ⟨⟨hwf.freshFilter, hwf.freshGroup, hwf.unseen, hwf.tracked,
    fun id t ht => hwf.all id t (hlookup id t ht),
    fun x t ht => hwf.bucket x t (by cases x <;> exact ht), hwf.group, hwf.ids⟩,
    ⟨fun _ _ h => h, fun _ grp h => ⟨grp, h, rfl⟩⟩, fun κ hκ => ?_, fun _ _ _ h => h,
    fun _ => .inl rfl, fun _ => .inl rfl⟩
  refine ⟨fun x => by cases x <;> rfl, fun id t ht => ⟨hlookup id t, fun hall => ?_⟩, rfl,
    fun _ grp h _ => ⟨grp, h, rfl, rfl⟩⟩
  by_cases hid : id = f.id
  · subst hid
    have hcreated := hwf.all _ _ hall
    rw [hf, Option.some.injEq] at hcreated
    subst hcreated
    exact absurd ht.symm hκ
  · rwa [AList.lookup_erase_ne hid]

/-- `filter_groups.remove`. -/
theorem eraseGroup_step (hwf : WellFormed s) (κ : Key) :
    WellFormed { s with filterGroups := s.filterGroups.erase κ } ∧
      Effect (· = κ) (· = κ) nothing s { s with filterGroups := s.filterGroups.erase κ } := by
  refine ⟨⟨hwf.freshFilter, hwf.freshGroup, hwf.unseen, hwf.tracked, hwf.all,
    fun x t ht => hwf.bucket x t (by cases x <;> exact ht), fun κ' g hg => ?_, hwf.ids⟩,
    ⟨fun _ _ h => h, fun _ grp h => ⟨grp, h, rfl⟩⟩, fun κ' hκ => ?_,
    fun κ' g hκ hg => (AList.lookup_erase_ne hκ).trans hg, fun _ => .inl rfl, fun _ => .inl rfl⟩
  · by_cases hκ : κ' = κ
    · subst hκ
      rw [AList.lookup_erase] at hg
      cases hg
    · rw [AList.lookup_erase_ne hκ] at hg
      exact hwf.group κ' g hg
  · exact ⟨fun x => by cases x <;> rfl, fun _ _ _ => Iff.rfl, AList.lookup_erase_ne hκ,
      fun _ grp h _ => ⟨grp, h, rfl, rfl⟩⟩

/-! ### Changes of the heap -/

/-- `next_filter_id.fetch_add` and the creation of a filter. -/
theorem newFilter_step (hwf : WellFormed s) (κ : Key) (filter : Filter) :
    WellFormed (newFilter κ filter s).2 ∧
      Effect nothing nothing nothing s (newFilter κ filter s).2 := by
  have hfresh : s.filters s.nextFilterId = none := hwf.freshFilter _ (Nat.le_refl _)
  have hfilters : ∀ id t, s.filters id = some t → (newFilter κ filter s).2.filters id = some t := by
    intro id t ht
    have hne : id ≠ s.nextFilterId := by
      rintro rfl
      rw [hfresh] at ht
      cases ht
    simp [newFilter, hne, ht]
  refine ⟨⟨fun id hid => ?_, hwf.freshGroup, fun id hid => hwf.unseen id ?_, fun id t ht => ?_,
    fun id t ht => hfilters _ _ (hwf.all id t ht),
    fun x t ht => hfilters _ _ (hwf.bucket x t (by cases x <;> exact ht)), hwf.group,
    fun g grp id hg hid => ?_⟩, ⟨hfilters, fun _ grp h => ⟨grp, h, rfl⟩⟩, fun κ' _ => ?_,
    fun _ _ _ h => h, fun _ => .inl rfl, fun _ => .inl rfl⟩
  · have hle : s.nextFilterId + 1 ≤ id := hid
    simp only [newFilter]
    rw [if_neg (Nat.ne_of_gt hle)]
    exact hwf.freshFilter id (Nat.le_of_succ_le hle)
  · by_contra hsome
    obtain ⟨t, ht⟩ := Option.ne_none_iff_exists'.mp hsome
    rw [hfilters id t ht] at hid
    cases hid
  · by_cases hid : id = s.nextFilterId
    · subst hid
      simp only [newFilter, if_true, Option.some.injEq] at ht
      subst ht
      exact ⟨rfl, rfl⟩
    · simp only [newFilter, if_neg hid] at ht
      exact hwf.tracked id t ht
  · obtain ⟨t, ht, hparent⟩ := hwf.ids g grp id hg hid
    exact ⟨t, hfilters _ _ ht, hparent⟩
  · exact ⟨fun x => by cases x <;> rfl, fun _ _ _ => Iff.rfl, rfl,
      fun _ grp h _ => ⟨grp, h, rfl, rfl⟩⟩

theorem newFilter_filters (κ : Key) (filter : Filter) (s : SubscriptionIndex) :
    (newFilter κ filter s).2.filters (newFilter κ filter s).1.id =
      some (newFilter κ filter s).1 := by
  simp [newFilter]

/-- `filter_groups.entry(..).or_insert_with(..)`. -/
theorem entryOrNewGroup_step (hwf : WellFormed s) (κ : Key) :
    WellFormed (entryOrNewGroup κ s).2 ∧
      Effect (· = κ) nothing nothing s (entryOrNewGroup κ s).2 := by
  rw [entryOrNewGroup]
  split
  · exact ⟨hwf, .refl _ _ _ s⟩
  rename_i hnone
  have hfresh : s.groups s.nextGroup = none := hwf.freshGroup _ (Nat.le_refl _)
  have hne : ∀ g grp, s.groups g = some grp → g ≠ s.nextGroup := by
    rintro g grp hg rfl
    rw [hfresh] at hg
    cases hg
  refine ⟨⟨hwf.freshFilter, fun g hg => ?_, hwf.unseen, hwf.tracked, hwf.all,
    fun x t ht => hwf.bucket x t (by cases x <;> exact ht), fun κ' g hg => ?_,
    fun g grp id hg hid => ?_⟩, ⟨fun _ _ h => h, fun g grp h => ⟨grp, ?_, rfl⟩⟩, fun κ' hκ => ?_,
    fun κ' g _ hg => ?_, fun _ => .inl rfl, fun g => .inl ?_⟩
  · have hle : s.nextGroup + 1 ≤ g := hg
    show (if g = s.nextGroup then _ else s.groups g) = none
    rw [if_neg (Nat.ne_of_gt hle)]
    exact hwf.freshGroup g (Nat.le_of_succ_le hle)
  · by_cases hκ : κ' = κ
    · subst hκ
      rw [AList.lookup_insert, Option.some.injEq] at hg
      subst hg
      exact ⟨FilterGroup.new κ', if_pos rfl, rfl⟩
    · rw [AList.lookup_insert_ne hκ] at hg
      obtain ⟨grp, hgrp, hkey⟩ := hwf.group κ' g hg
      exact ⟨grp, by simpa [hne g grp hgrp] using hgrp, hkey⟩
  · by_cases hgn : g = s.nextGroup
    · simp only [hgn, if_true, Option.some.injEq] at hg
      subst hg
      exact absurd hid List.not_mem_nil
    · simp only [hgn, if_false] at hg
      exact hwf.ids g grp id hg hid
  · simpa [hne g grp h] using h
  · refine ⟨fun x => by cases x <;> rfl, fun _ _ _ => Iff.rfl, AList.lookup_insert_ne hκ,
      fun g grp h _ => ⟨grp, ?_, rfl, rfl⟩⟩
    simpa [hne g grp h] using h
  · have hne' : κ' ≠ κ := by
      rintro rfl
      rw [hnone] at hg
      cases hg
    exact (AList.lookup_insert_ne hne').trans hg
  · by_cases hgn : g = s.nextGroup
    · simp [groupSeen, hgn, FilterGroup.new, hfresh]
    · simp [groupSeen, hgn]

/-- The group that `entry` returns belongs to `κ`, and `κ` has it. -/
theorem entryOrNewGroup_group (hwf : WellFormed s) (κ : Key) :
    (entryOrNewGroup κ s).2.filterGroups.lookup κ = some (entryOrNewGroup κ s).1 ∧
      ∃ grp, (entryOrNewGroup κ s).2.groups (entryOrNewGroup κ s).1 = some grp ∧ grp.key = κ := by
  rw [entryOrNewGroup]
  split
  · rename_i g hg
    exact ⟨hg, hwf.group κ g hg⟩
  · exact ⟨AList.lookup_insert _, FilterGroup.new κ, if_pos rfl, rfl⟩

/-- A change of one group that keeps its owner. -/
theorem updateGroup_step (marks : EventId → Prop) (hwf : WellFormed s) {g : GroupRef}
    {u : FilterGroup → FilterGroup} (hkey : ∀ grp, (u grp).key = grp.key)
    (hids : ∀ grp, s.groups g = some grp → ∀ id ∈ (u grp).filterIds,
      ∃ t, s.filters id = some t ∧ t.parentSubscription = grp.key)
    (hseen : ∀ grp, (u grp).lastSeenEventId = grp.lastSeenEventId ∨
      ∃ x, marks x ∧ (u grp).lastSeenEventId = some x) :
    WellFormed (s.updateGroup g u) ∧
      Effect (fun κ => ∃ grp, s.groups g = some grp ∧ grp.key = κ ∧
        (u grp).filterIds ≠ grp.filterIds) nothing marks s (s.updateGroup g u) := by
  have hgroups : ∀ g' grp, s.groups g' = some grp →
      (s.updateGroup g u).groups g' = some (if g' = g then u grp else grp) := by
    intro g' grp h
    by_cases hg : g' = g
    · subst hg
      simp [updateGroup, h]
    · simp [updateGroup, hg, h]
  have hback : ∀ g' grp', (s.updateGroup g u).groups g' = some grp' →
      ∃ grp, s.groups g' = some grp ∧ grp' = if g' = g then u grp else grp := by
    intro g' grp' h
    cases hs : s.groups g' with
    | none => simp [updateGroup, hs] at h
    | some grp =>
      rw [hgroups g' grp hs, Option.some.injEq] at h
      exact ⟨grp, rfl, h.symm⟩
  refine ⟨⟨hwf.freshFilter, fun g' hg' => ?_, hwf.unseen, hwf.tracked, hwf.all,
    fun x t ht => hwf.bucket x t (by cases x <;> exact ht), fun κ g' hg' => ?_,
    fun g' grp' id hg' hid => ?_⟩, ⟨fun _ _ h => h, fun g' grp h => ?_⟩, fun κ hκ => ?_,
    fun _ _ _ h => h, fun _ => .inl rfl, fun g' => ?_⟩
  · have hnone := hwf.freshGroup g' hg'
    simp [updateGroup, hnone]
  · obtain ⟨grp, hgrp, hk⟩ := hwf.group κ g' hg'
    refine ⟨_, hgroups g' grp hgrp, ?_⟩
    split
    · exact (hkey grp).trans hk
    · exact hk
  · obtain ⟨grp, hgrp, rfl⟩ := hback g' grp' hg'
    by_cases hg : g' = g
    · subst hg
      rw [if_pos rfl] at hid ⊢
      rw [hkey]
      exact hids grp hgrp id hid
    · rw [if_neg hg] at hid ⊢
      exact hwf.ids g' grp id hgrp hid
  · refine ⟨_, hgroups g' grp h, ?_⟩
    split
    · exact hkey grp
    · rfl
  · refine ⟨fun x => by cases x <;> rfl, fun _ _ _ => Iff.rfl, rfl, fun g' grp h hk => ?_⟩
    refine ⟨_, hgroups g' grp h, ?_⟩
    by_cases hg : g' = g
    · subst hg
      rw [if_pos rfl]
      refine ⟨hkey grp, ?_⟩
      by_contra hne
      exact hκ ⟨grp, h, hk, hne⟩
    · rw [if_neg hg]
      exact ⟨rfl, rfl⟩
  · cases hs : s.groups g' with
    | none => exact .inl (by simp [groupSeen, updateGroup, hs])
    | some grp =>
      rw [groupSeen, groupSeen, hgroups g' grp hs, hs, Option.bind_some, Option.bind_some]
      by_cases hg : g' = g
      · rw [if_pos hg]
        exact hseen grp
      · exact .inl (by rw [if_neg hg])

/-- `filter_ids.insert`. -/
theorem insertFilterId_step (hwf : WellFormed s) {g : GroupRef} {grp : FilterGroup}
    (hg : s.groups g = some grp) (hf : s.filters f.id = some f)
    (hparent : f.parentSubscription = grp.key) :
    WellFormed (s.updateGroup g (·.insertFilterId f.id)) ∧
      Effect (· = grp.key) nothing nothing s (s.updateGroup g (·.insertFilterId f.id)) := by
  have hids : ∀ grp', s.groups g = some grp' → ∀ id ∈ (grp'.insertFilterId f.id).filterIds,
      ∃ t, s.filters id = some t ∧ t.parentSubscription = grp'.key := by
    intro grp' hg' id hid
    rw [hg, Option.some.injEq] at hg'
    subst hg'
    have hcases : id ∈ grp.filterIds ∨ id = f.id := by
      simp only [FilterGroup.insertFilterId] at hid
      split at hid
      · exact .inl hid
      · simpa using hid
    rcases hcases with hid | rfl
    · exact hwf.ids g grp id hg hid
    · exact ⟨f, hf, hparent⟩
  obtain ⟨hwf', heff⟩ := updateGroup_step nothing (u := (·.insertFilterId f.id))
    hwf (g := g) (fun _ => rfl) hids (fun _ => .inl rfl)
  refine ⟨hwf', heff.grows, fun κ hκ => heff.view κ ?_, heff.group, heff.filterSeen,
    heff.groupSeen⟩
  rintro ⟨grp', hg', rfl, -⟩
  rw [hg, Option.some.injEq] at hg'
  exact hκ (congrArg FilterGroup.key hg'.symm)

/-- `FilterGroup::mark_event_seen`. -/
theorem markGroup_step (hwf : WellFormed s) (g : GroupRef) (event : EventId) :
    WellFormed (s.updateGroup g (·.markEventSeen event)) ∧
      Effect nothing nothing (· = event) s (s.updateGroup g (·.markEventSeen event)) := by
  obtain ⟨hwf', heff⟩ := updateGroup_step (· = event) (u := (·.markEventSeen event))
    hwf (g := g) (fun _ => rfl) (fun grp hg id hid => hwf.ids g grp id hg hid)
    (fun _ => .inr ⟨event, rfl, rfl⟩)
  refine ⟨hwf', heff.grows, fun κ _ => heff.view κ ?_, heff.group, heff.filterSeen,
    heff.groupSeen⟩
  rintro ⟨grp, -, -, hne⟩
  exact hne rfl

/-- `TrackedFilter::mark_event_seen`. -/
theorem markFilter_step (hwf : WellFormed s) {id : FilterId} {t : TrackedFilter}
    (hid : s.filters id = some t) (event : EventId) :
    WellFormed (s.markFilter id event) ∧
      Effect nothing nothing (· = event) s (s.markFilter id event) := by
  refine ⟨⟨hwf.freshFilter, hwf.freshGroup, fun id' hid' => ?_, hwf.tracked, hwf.all,
    fun x t ht => hwf.bucket x t (by cases x <;> exact ht), hwf.group, hwf.ids⟩,
    ⟨fun _ _ h => h, fun _ grp h => ⟨grp, h, rfl⟩⟩, fun κ _ => ?_, fun _ _ _ h => h,
    fun id' => ?_, fun _ => .inl rfl⟩
  · have hne : id' ≠ id := by
      rintro rfl
      have hnone : s.filters id' = none := hid'
      rw [hid] at hnone
      cases hnone
    have hunseen := hwf.unseen id' hid'
    simpa [markFilter, hne] using hunseen
  · exact ⟨fun x => by cases x <;> rfl, fun _ _ _ => Iff.rfl, rfl,
      fun _ grp h _ => ⟨grp, h, rfl, rfl⟩⟩
  · by_cases hne : id' = id
    · exact .inr ⟨event, rfl, by simp [markFilter, hne]⟩
    · exact .inl (by simp [markFilter, hne])

end SubscriptionIndex

end RelayBuilder
