import RelayBuilder.IndexSteps

/-!
# Adding and removing a subscription

The contracts of `add_subscription` and `remove_subscription`. They come in one piece for two uses.
As a call of another task, all that matters is the `Effect`. For the subscription itself, `owned`
says that no other call works on it meanwhile, and then the call leaves exactly the filters that
its name promises.

## Main results

* `addSubscription_triple`, `removeSubscription_triple`
-/

namespace RelayBuilder

open Interleave

namespace SubscriptionIndex

variable {s : SubscriptionIndex} {κ : Key} {ts all grp : List TrackedFilter}
  {B : Slot → List TrackedFilter} {f : TrackedFilter}

/-! ### One action on what is held -/

theorem HoldingParts.entryOrNewGroup (h : HoldingParts κ ts all grp B s) :
    HoldingParts κ ts all grp B (entryOrNewGroup κ s).2 := by
  rw [SubscriptionIndex.entryOrNewGroup]
  split
  · exact h
  · rename_i hnone
    refine ⟨h.nodup, h.created, fun x => by rw [← h.filed x]; cases x <;> rfl, h.all,
      fun g hg => ?_, fun hg => ?_⟩
    · rw [AList.lookup_insert, Option.some.injEq] at hg
      subst hg
      exact ⟨FilterGroup.new κ, if_pos rfl, by rw [h.noGroup hnone]; rfl⟩
    · rw [AList.lookup_insert] at hg
      cases hg

theorem HoldingParts.newFilter (hwf : WellFormed s) (h : HoldingParts κ ts all grp B s)
    (filter : Filter) : HoldingParts κ (ts ++ [(newFilter κ filter s).1]) all grp B
      (newFilter κ filter s).2 := by
  have hgrows := (newFilter_step hwf κ filter).2.grows
  refine ⟨?_, fun t ht => ?_, fun x => by rw [← h.filed x]; cases x <;> rfl, h.all, h.group,
    h.noGroup⟩
  · rw [List.map_append, List.nodup_append]
    refine ⟨h.nodup, List.nodup_singleton _, fun id hid id' hid' => ?_⟩
    obtain ⟨t, ht, rfl⟩ := List.mem_map.mp hid
    obtain rfl := List.mem_singleton.mp hid'
    -- the new id was not in use
    intro heq
    have hcreated := (h.created t ht).1
    rw [heq, SubscriptionIndex.newFilter, hwf.freshFilter _ (Nat.le_refl _)] at hcreated
    cases hcreated
  · rcases List.mem_append.mp ht with ht | ht
    · obtain ⟨hcreated, hparent⟩ := h.created t ht
      exact ⟨hgrows.filters _ _ hcreated, hparent⟩
    · obtain rfl := List.mem_singleton.mp ht
      exact ⟨newFilter_filters κ filter s, rfl⟩

theorem HoldingParts.insertAll (hnew : f.id ∉ all.map TrackedFilter.id)
    (hf : f.parentSubscription = κ) (h : HoldingParts κ ts all grp B s) :
    HoldingParts κ ts (all ++ [f]) grp B
      { s with allFilters := s.allFilters.insert f.id f } := by
  refine ⟨h.nodup, h.created, fun x => by rw [← h.filed x]; cases x <;> rfl, fun id t ht => ?_,
    h.group, h.noGroup⟩
  by_cases hid : id = f.id
  · subst hid
    rw [AList.lookup_insert, Option.some.injEq, List.mem_append, List.mem_singleton]
    constructor
    · rintro rfl
      exact ⟨.inr rfl, rfl⟩
    · rintro ⟨hmem | rfl, heq⟩
      · exact absurd (heq ▸ List.mem_map_of_mem hmem) hnew
      · rfl
  · rw [AList.lookup_insert_ne hid, h.all id t ht, List.mem_append, List.mem_singleton]
    constructor
    · rintro ⟨hmem, heq⟩
      exact ⟨.inl hmem, heq⟩
    · rintro ⟨hmem | rfl, heq⟩
      · exact ⟨hmem, heq⟩
      · exact absurd heq.symm hid

theorem HoldingParts.insertFilterId {g : GroupRef} (hg : s.filterGroups.lookup κ = some g)
    (hnew : f.id ∉ grp.map TrackedFilter.id) (h : HoldingParts κ ts all grp B s) :
    HoldingParts κ ts all (grp ++ [f]) B (s.updateGroup g (·.insertFilterId f.id)) := by
  refine ⟨h.nodup, h.created, fun x => by rw [← h.filed x]; cases x <;> rfl, h.all,
    fun g' hg' => ?_, fun hnone => ?_⟩
  · have hsame : g' = g := Option.some.inj (hg'.symm.trans hg)
    subst hsame
    obtain ⟨grp', hgrp', hids⟩ := h.group g' hg
    refine ⟨grp'.insertFilterId f.id, by simp [updateGroup, hgrp'], ?_⟩
    rw [FilterGroup.insertFilterId, hids, if_neg hnew, List.map_append]
    rfl
  · have hnone' : s.filterGroups.lookup κ = none := hnone
    rw [hg] at hnone'
    cases hnone'

theorem HoldingParts.filing {xs : List Slot} {s' : SubscriptionIndex} (hfiled : Filed f xs s s')
    (hf : f.parentSubscription = κ) (h : HoldingParts κ ts all grp B s) :
    HoldingParts κ ts all grp (fun x => B x ++ if x ∈ xs then [f] else []) s' := by
  refine ⟨h.nodup, fun t ht => by rw [hfiled.filters]; exact h.created t ht, fun x => ?_,
    fun id t ht => by rw [hfiled.allFilters]; exact h.all id t ht,
    fun g hg => by rw [hfiled.groups]; exact h.group g (hfiled.filterGroups ▸ hg),
    fun hg => h.noGroup (hfiled.filterGroups ▸ hg)⟩
  rw [hfiled.filed, h.filed]
  simp [hf]

theorem HoldingParts.eraseGroup (h : HoldingParts κ ts all grp B s) :
    HoldingParts κ ts all [] B { s with filterGroups := s.filterGroups.erase κ } := by
  refine ⟨h.nodup, h.created, fun x => by rw [← h.filed x]; cases x <;> rfl, h.all,
    fun g hg => ?_, fun _ => rfl⟩
  rw [AList.lookup_erase] at hg
  cases hg

theorem HoldingParts.eraseAll (id : FilterId) (h : HoldingParts κ ts all grp B s) :
    HoldingParts κ ts (all.filter (·.id ≠ id)) grp B
      { s with allFilters := s.allFilters.erase id } := by
  refine ⟨h.nodup, h.created, fun x => by rw [← h.filed x]; cases x <;> rfl, fun id' t ht => ?_,
    h.group, h.noGroup⟩
  rw [List.mem_filter, decide_eq_true_eq]
  by_cases hid : id' = id
  · subst hid
    rw [AList.lookup_erase]
    constructor
    · intro hnone
      cases hnone
    · rintro ⟨⟨-, hne⟩, heq⟩
      exact absurd heq hne
  · rw [AList.lookup_erase_ne hid, h.all id' t ht]
    constructor
    · rintro ⟨hmem, rfl⟩
      exact ⟨⟨hmem, hid⟩, rfl⟩
    · rintro ⟨⟨hmem, -⟩, heq⟩
      exact ⟨hmem, heq⟩

theorem HoldingParts.unfiling {xs : List Slot} {s' : SubscriptionIndex}
    (hunfiled : Unfiled f xs s s') (h : HoldingParts κ ts all grp B s) :
    HoldingParts κ ts all grp
      (fun x => if x ∈ xs then (B x).filter (·.id != f.id) else B x) s' := by
  refine ⟨h.nodup, fun t ht => by rw [hunfiled.filters]; exact h.created t ht, fun x => ?_,
    fun id t ht => by rw [hunfiled.allFilters]; exact h.all id t ht,
    fun g hg => by rw [hunfiled.groups]; exact h.group g (hunfiled.filterGroups ▸ hg),
    fun hg => h.noGroup (hunfiled.filterGroups ▸ hg)⟩
  rw [hunfiled.filed, h.filed]

/-! ### What survives the other calls -/

/-- What a call that works on `κ` may expect of the others: they let things grow, and if the call
is the only one that works on `κ`, they leave alone what is held for `κ`. -/
structure Foreign (κ : Key) (owned : Prop) (s s' : SubscriptionIndex) : Prop where
  grows : Grows s s'
  view : owned → SameView κ s s'

theorem Foreign.refl (κ : Key) (owned : Prop) (s : SubscriptionIndex) : Foreign κ owned s s :=
  ⟨.refl s, fun _ => .refl κ s⟩

theorem Foreign.trans {owned : Prop} {a b c : SubscriptionIndex} (h : Foreign κ owned a b)
    (h' : Foreign κ owned b c) : Foreign κ owned a c :=
  ⟨h.grows.trans h'.grows, fun ho => (h.view ho).trans (h'.view ho)⟩

/-- The filter was created, for `κ`. -/
def Created (κ : Key) (f : TrackedFilter) (s : SubscriptionIndex) : Prop :=
  s.filters f.id = some f ∧ f.parentSubscription = κ

/-- The group was created, for `κ`. -/
def OwnGroup (κ : Key) (g : GroupRef) (s : SubscriptionIndex) : Prop :=
  ∃ grp, s.groups g = some grp ∧ grp.key = κ

theorem Created.grows {s' : SubscriptionIndex} (h : Created κ f s) (hg : Grows s s') :
    Created κ f s' :=
  ⟨hg.filters _ _ h.1, h.2⟩

theorem OwnGroup.grows {s' : SubscriptionIndex} {g : GroupRef} (h : OwnGroup κ g s)
    (hg : Grows s s') : OwnGroup κ g s' := by
  obtain ⟨grp, hgrp, hkey⟩ := h
  obtain ⟨grp', hgrp', hkey'⟩ := hg.groups g grp hgrp
  exact ⟨grp', hgrp', hkey'.trans hkey⟩

variable {owned : Prop}

theorem stable_created : Stable WellFormed (Foreign κ owned) (Created κ f) :=
  fun _ _ hR _ h => h.grows hR.grows

theorem stable_ownGroup {g : GroupRef} : Stable WellFormed (Foreign κ owned) (OwnGroup κ g) :=
  fun _ _ hR _ h => h.grows hR.grows

theorem stable_holding : Stable WellFormed (Foreign κ owned) fun s =>
    owned → HoldingParts κ ts all grp B s :=
  fun _ _ hR hwf h ho => (h ho).stable hwf hR.grows (hR.view ho)

theorem stable_group {g : Option GroupRef} : Stable WellFormed (Foreign κ owned) fun s =>
    owned → s.filterGroups.lookup κ = g :=
  fun _ _ hR _ h ho => (hR.view ho).group.trans (h ho)

/-! ### Adding -/

/-- In the middle of `add_subscription`, with the group `g` and the filter `f` at hand. -/
def Adding (κ : Key) (owned : Prop) (g : GroupRef) (f : TrackedFilter)
    (ts all grp : List TrackedFilter) (B : Slot → List TrackedFilter) (s : SubscriptionIndex) :
    Prop :=
  (OwnGroup κ g s ∧ Created κ f s) ∧
    ((owned → HoldingParts κ ts all grp B s) ∧ (owned → s.filterGroups.lookup κ = some g))

theorem stable_adding {g : GroupRef} :
    Stable WellFormed (Foreign κ owned) (Adding κ owned g f ts all grp B) :=
  (stable_ownGroup.and stable_created).and (stable_holding.and stable_group)

/-- Between two filters of `add_subscription`: the subscription has the filters `ts`. -/
def Added (κ : Key) (owned : Prop) (g : GroupRef) (ts : List TrackedFilter)
    (s : SubscriptionIndex) : Prop :=
  OwnGroup κ g s ∧ ((owned → Holding κ ts s) ∧ (owned → s.filterGroups.lookup κ = some g))

theorem stable_added {g : GroupRef} :
    Stable WellFormed (Foreign κ owned) (Added κ owned g ts) :=
  stable_ownGroup.and (stable_holding.and stable_group)

/-- The effect of `add_subscription`: on `κ` only, and no event is marked. -/
abbrev AddEffect (κ : Key) : SubscriptionIndex → SubscriptionIndex → Prop :=
  Effect (· = κ) nothing nothing

theorem newId_not_mem (h : ((ts ++ [f]).map TrackedFilter.id).Nodup) :
    f.id ∉ ts.map TrackedFilter.id := by
  rw [List.map_append, List.nodup_append] at h
  exact fun hmem => h.2.2 _ hmem _ (List.mem_singleton_self _) rfl

theorem addFilter_triple (g : GroupRef) (filter : Filter) (ts : List TrackedFilter) :
    Triple WellFormed (Foreign κ owned) (AddEffect κ) (Added κ owned g ts) (addFilter κ g filter)
      fun _ s => ∃ f : TrackedFilter, f.filter = filter ∧ Added κ owned g (ts ++ [f]) s := by
  have hrefl := Foreign.refl κ owned
  -- the filter is created
  refine Triple.bind (M := fun f s => f.filter = filter ∧
      Adding κ owned g f (ts ++ [f]) ts ts (fun x => ts.filter (x ∈ ·.slots)) s) hrefl
    (Triple.atomic stable_added (fun f => (stable_const _).and stable_adding)
      fun s hwf ⟨hg, hholds, hgroup⟩ => ?_) fun f => ?_
  · obtain ⟨hwf', heff⟩ := newFilter_step hwf κ filter
    refine ⟨hwf', heff.of_nothing, rfl,
      ⟨hg.grows heff.grows, newFilter_filters κ filter s, rfl⟩, fun ho => ?_, hgroup⟩
    exact (hholds ho).newFilter hwf filter
  -- it enters the map of all filters
  refine Triple.bind (M := fun _ s => f.filter = filter ∧
      Adding κ owned g f (ts ++ [f]) (ts ++ [f]) ts (fun x => ts.filter (x ∈ ·.slots)) s) hrefl
    (Triple.atomic ((stable_const _).and stable_adding)
      (fun _ => (stable_const _).and stable_adding)
      fun s hwf ⟨hfilter, ⟨hg, hf⟩, hholds, hgroup⟩ => ?_) fun _ => ?_
  · obtain ⟨hwf', heff⟩ := insertAll_step hwf hf.1
    rw [hf.2] at heff
    refine ⟨hwf', heff, hfilter, ⟨hg, hf⟩, fun ho => ?_, hgroup⟩
    exact (hholds ho).insertAll (newId_not_mem (hholds ho).nodup) hf.2
  -- its id enters the group
  refine Triple.bind (M := fun _ s => f.filter = filter ∧
      Adding κ owned g f (ts ++ [f]) (ts ++ [f]) (ts ++ [f]) (fun x => ts.filter (x ∈ ·.slots)) s)
    hrefl (Triple.atomic ((stable_const _).and stable_adding)
      (fun _ => (stable_const _).and stable_adding)
      fun s hwf ⟨hfilter, ⟨⟨grp, hgrp, hkey⟩, hf⟩, hholds, hgroup⟩ => ?_) fun _ => ?_
  · obtain ⟨hwf', heff⟩ := insertFilterId_step hwf hgrp hf.1 (hf.2.trans hkey.symm)
    rw [hkey] at heff
    refine ⟨hwf', heff, hfilter,
      ⟨OwnGroup.grows ⟨grp, hgrp, hkey⟩ heff.grows, hf.grows heff.grows⟩, fun ho => ?_, hgroup⟩
    exact (hholds ho).insertFilterId (hgroup ho) (newId_not_mem (hholds ho).nodup)
  -- it is filed slot by slot: it already is where it need not be filed any more
  have hfile := addFilterToIndexes_triple (f := f) (G := AddEffect κ) (I := WellFormed)
    (J := fun rest s => (f.filter = filter ∧ rest ⊆ f.slots) ∧
      Adding κ owned g f (ts ++ [f]) (ts ++ [f]) (ts ++ [f])
        (fun x => ts.filter (x ∈ ·.slots) ++ if x ∈ f.slots ∧ x ∉ rest then [f] else []) s)
    hrefl (fun _ => (stable_const _).and stable_adding)
    fun xs rest s s' hnd hfiled hwf ⟨⟨hfilter, hsub⟩, ⟨hg, hf⟩, hholds, hgroup⟩ => ?_
  · refine hfile.conseq (fun _ _ h => h) (fun _ _ _ h => h)
      (fun s _ ⟨hfilter, hat, hholds, hgroup⟩ =>
        ⟨⟨hfilter, List.Subset.refl _⟩, hat, fun ho => ?_, hgroup⟩)
      fun _ s _ ⟨⟨hfilter, _⟩, ⟨hg, hf⟩, hholds, hgroup⟩ => ⟨f, hfilter, hg, fun ho => ?_, hgroup⟩
    · simpa using hholds ho
    · have hB : (fun x => (ts ++ [f]).filter (x ∈ ·.slots)) =
          fun x => ts.filter (x ∈ ·.slots) ++ if x ∈ f.slots ∧ x ∉ [] then [f] else [] := by
        funext x
        by_cases hx : x ∈ f.slots <;> simp [hx]
      rw [Holding, hB]
      exact hholds ho
  · obtain ⟨hwf', heff⟩ := hfiled.step hwf hf.1
    rw [hf.2] at heff
    refine ⟨hwf', heff, ⟨hfilter, fun x hx => hsub (List.mem_append_right _ hx)⟩,
      ⟨hg.grows heff.grows, hf.grows heff.grows⟩, fun ho => ?_,
      fun ho => by rw [hfiled.filterGroups]; exact hgroup ho⟩
    have hB : (fun x => ts.filter (x ∈ ·.slots) ++ if x ∈ f.slots ∧ x ∉ rest then [f] else []) =
        fun x => (ts.filter (x ∈ ·.slots) ++ if x ∈ f.slots ∧ x ∉ xs ++ rest then [f] else []) ++
          if x ∈ xs then [f] else [] := by
      funext x
      by_cases hx : x ∈ xs
      · have hrest : x ∉ rest := fun h => (List.nodup_append.mp hnd).2.2 x hx x h rfl
        simp [hx, hrest, hsub (List.mem_append_left _ hx)]
      · simp [hx]
    rw [hB]
    exact (hholds ho).filing hfiled hf.2

/-- **`add_subscription` adds its filters** to those of `κ`, in order. -/
theorem addSubscription_triple (κ : Key) (owned : Prop) (ts : List TrackedFilter)
    (filters : List Filter) :
    Triple WellFormed (Foreign κ owned) (AddEffect κ) (fun s => owned → Holding κ ts s)
      (addSubscription κ filters) fun _ s => owned →
        Holds κ (ts.map TrackedFilter.filter ++ filters) s := by
  have hrefl := Foreign.refl κ owned
  refine Triple.bind (M := fun g => Added κ owned g ts) hrefl
    (Triple.atomic stable_holding (fun _ => stable_added) fun s hwf hholds => ?_) fun g => ?_
  · obtain ⟨hwf', heff⟩ := entryOrNewGroup_step hwf κ
    obtain ⟨hgroup, hg⟩ := entryOrNewGroup_group hwf κ
    exact ⟨hwf', heff, hg, fun ho => (hholds ho).entryOrNewGroup, fun _ => hgroup⟩
  -- the filters still to come complete those that the subscription has by now
  have hloop := Triple.forM (I := WellFormed) (R := Foreign κ owned) (G := AddEffect κ)
    (f := addFilter κ g) (J := fun rest s => ∃ ts', ts'.map TrackedFilter.filter ++ rest =
      ts.map TrackedFilter.filter ++ filters ∧ Added κ owned g ts' s) hrefl
    (fun s s' hR hwf ⟨ts', heq, hadded⟩ => ⟨ts', heq, stable_added s s' hR hwf hadded⟩)
    (fun filter rest s hwf ⟨ts', heq, hadded⟩ => ?_) filters
  · refine hloop.conseq (fun _ _ h => h) (fun _ _ _ h => h) (fun s _ h => ⟨ts, rfl, h⟩)
      fun _ s _ ⟨ts', heq, _, hholds, _⟩ ho => ⟨ts', by simpa using heq, hholds ho⟩
  · refine (addFilter_triple g filter ts' s hwf hadded).conseq (fun _ _ h => h)
      (fun _ _ _ h => h) fun _ s _ ⟨f, hfilter, hadded'⟩ => ⟨ts' ++ [f], ?_, hadded'⟩
    rw [List.map_append, List.map_singleton, hfilter, List.append_assoc, List.singleton_append]
    exact heq

/-! ### Removing -/

/-- The effect of `remove_subscription`: on `κ` only, and no event is marked. -/
abbrev RemoveEffect (κ : Key) : SubscriptionIndex → SubscriptionIndex → Prop :=
  Effect (· = κ) (· = κ) nothing

theorem AddEffect.removes {s' : SubscriptionIndex} (h : AddEffect κ s s') : RemoveEffect κ s s' :=
  h.mono (fun _ h => h) (fun _ h => h.elim) fun _ h => h

/-- The filter with this id was created, for `κ`. -/
def OwnId (κ : Key) (id : FilterId) (s : SubscriptionIndex) : Prop :=
  ∃ f : TrackedFilter, f.id = id ∧ Created κ f s

theorem OwnId.grows {id : FilterId} {s' : SubscriptionIndex} (h : OwnId κ id s)
    (hg : Grows s s') : OwnId κ id s' := by
  obtain ⟨f, hf, hcreated⟩ := h
  exact ⟨f, hf, hcreated.grows hg⟩

theorem stable_ownIds {ids : List FilterId} :
    Stable WellFormed (Foreign κ owned) fun s => ∀ id ∈ ids, OwnId κ id s :=
  fun _ _ hR _ h id hid => (h id hid).grows hR.grows

/-- In the middle of `remove_subscription`: the filters with the ids `rest` are still there. -/
def Removing (κ : Key) (owned : Prop) (ts : List TrackedFilter) (rest : List FilterId)
    (s : SubscriptionIndex) : Prop :=
  (∀ id ∈ rest, OwnId κ id s) ∧ (owned → rest.Nodup ∧ rest ⊆ ts.map TrackedFilter.id) ∧
    (owned → HoldingParts κ ts (ts.filter (·.id ∈ rest)) []
      (fun x => ts.filter fun t => x ∈ t.slots ∧ t.id ∈ rest) s)

theorem stable_removing {rest : List FilterId} :
    Stable WellFormed (Foreign κ owned) (Removing κ owned ts rest) :=
  stable_ownIds.and ((stable_const _).and stable_holding)

theorem removeFilterFromIndexes_contract (ts : List TrackedFilter) {rest : List FilterId}
    (hnew : owned → f.id ∉ rest)
    (hf : owned → f ∈ ts) :
    Triple WellFormed (Foreign κ owned) (RemoveEffect κ)
      (fun s => Created κ f s ∧ (owned → HoldingParts κ ts (ts.filter (·.id ∈ rest)) []
        (fun x => ts.filter fun t => x ∈ t.slots ∧ t.id ∈ f.id :: rest) s))
      (removeFilterFromIndexes f) fun _ s =>
        owned → HoldingParts κ ts (ts.filter (·.id ∈ rest)) []
          (fun x => ts.filter fun t => x ∈ t.slots ∧ t.id ∈ rest) s := by
  -- `B todo` is what is filed while the slots `todo` are still to be visited
  let full : Slot → List TrackedFilter :=
    fun x => ts.filter fun t => x ∈ t.slots ∧ t.id ∈ f.id :: rest
  let B : List Slot → Slot → List TrackedFilter := fun todo x =>
    if x ∈ f.slots ∧ x ∉ todo then (full x).filter (·.id != f.id) else full x
  have hremove := removeFilterFromIndexes_triple (f := f) (G := RemoveEffect κ) (I := WellFormed)
    (J := fun todo s => todo ⊆ f.slots ∧ Created κ f s ∧
      (owned → HoldingParts κ ts (ts.filter (·.id ∈ rest)) [] (B todo) s))
    (Foreign.refl κ owned) (fun _ => (stable_const _).and (stable_created.and stable_holding))
    fun xs todo s s' hnd hunfiled hwf ⟨hsub, hcreated, hholds⟩ => ?_
  · refine hremove.conseq (fun _ _ h => h) (fun _ _ _ h => h)
      (fun s _ ⟨hcreated, hholds⟩ => ⟨List.Subset.refl _, hcreated, fun ho => ?_⟩)
      fun _ s _ ⟨_, _, hholds⟩ ho => ?_
    · have hB : B f.slots = full := by
        funext x
        simp [B]
      rw [hB]
      exact hholds ho
    · have hB : (fun x => ts.filter fun t => x ∈ t.slots ∧ t.id ∈ rest) = B [] := by
        funext x
        have hinj := List.inj_on_of_nodup_map (hholds ho).nodup
        by_cases hx : x ∈ f.slots
        · simp only [B, full, hx, List.not_mem_nil, not_false_eq_true, and_self, if_true,
            List.filter_filter]
          refine List.filter_congr fun t ht => ?_
          by_cases hid : t.id = f.id
          · simp [hid, hnew ho]
          · simp [hid]
        · simp only [B, full, hx, false_and, if_false]
          refine List.filter_congr fun t ht => ?_
          by_cases hid : t.id = f.id
          · have heq : t = f := hinj ht (hf ho) hid
            simp [heq, hx]
          · simp [hid]
      rw [hB]
      exact hholds ho
  · obtain ⟨hwf', heff⟩ := hunfiled.step hwf hcreated.1
    rw [hcreated.2] at heff
    refine ⟨hwf', AddEffect.removes heff, fun x hx => hsub (List.mem_append_right _ hx),
      hcreated.grows heff.grows, fun ho => ?_⟩
    have hB : B todo = fun x =>
        if x ∈ xs then (B (xs ++ todo) x).filter (·.id != f.id) else B (xs ++ todo) x := by
      funext x
      by_cases hx : x ∈ xs
      · have htodo : x ∉ todo := fun h => (List.nodup_append.mp hnd).2.2 x hx x h rfl
        simp [B, hx, htodo, hsub (List.mem_append_left _ hx)]
      · simp [B, hx]
    rw [hB]
    exact (hholds ho).unfiling hunfiled

theorem removeFilter_triple (id : FilterId) (rest : List FilterId) :
    Triple WellFormed (Foreign κ owned) (RemoveEffect κ) (Removing κ owned ts (id :: rest))
      (removeFilter id) fun _ => Removing κ owned ts rest := by
  refine Triple.bind (M := fun o s => (∀ id ∈ rest, OwnId κ id s) ∧
      (owned → (id :: rest).Nodup ∧ id :: rest ⊆ ts.map TrackedFilter.id) ∧
      (∀ f, o = some f → f.id = id ∧ Created κ f s) ∧ (owned → ∃ f ∈ ts, o = some f) ∧
      (owned → HoldingParts κ ts (ts.filter (·.id ∈ rest)) []
        (fun x => ts.filter fun t => x ∈ t.slots ∧ t.id ∈ id :: rest) s))
    (Foreign.refl κ owned) (Triple.atomic stable_removing (fun o => ?_)
      fun s hwf ⟨hids, hrest, hholds⟩ => ?_) fun o => ?_
  · refine stable_ownIds.and ((stable_const _).and (Stable.and ?_
      ((stable_const _).and stable_holding)))
    exact fun s s' hR _ h f hf => ⟨(h f hf).1, (h f hf).2.grows hR.grows⟩
  · obtain ⟨f₀, hid₀, hcreated₀⟩ := hids id (List.mem_cons_self ..)
    obtain ⟨hwf', heff⟩ := eraseAll_step hwf hcreated₀.1
    rw [hcreated₀.2, hid₀] at heff
    rw [hid₀] at hwf'
    refine ⟨hwf', AddEffect.removes heff, fun id' hid' => hids id' (List.mem_cons_of_mem _ hid'),
      hrest,
      fun f hf => ?_, fun ho => ?_, fun ho => ?_⟩
    · -- what is found under the id is the filter that was created with it
      have hcreated := hwf.all id f hf
      rw [← hid₀, hcreated₀.1, Option.some.injEq] at hcreated
      subst hcreated
      exact ⟨hid₀, hcreated₀⟩
    · obtain ⟨t, ht, htid⟩ := List.mem_map.mp ((hrest ho).2 (List.mem_cons_self ..))
      refine ⟨t, ht, ((hholds ho).all id t ((hholds ho).created t ht).2).mpr ⟨?_, htid⟩⟩
      simp [ht, htid]
    · have hnew : id ∉ rest := (List.nodup_cons.mp (hrest ho).1).1
      have hall : (ts.filter (·.id ∈ id :: rest)).filter (·.id ≠ id) =
          ts.filter (·.id ∈ rest) := by
        rw [List.filter_filter]
        refine List.filter_congr fun t _ => ?_
        by_cases htid : t.id = id
        · simp [htid, hnew]
        · simp [htid]
      rw [← hall]
      exact (hholds ho).eraseAll id
  · cases o with
    | none =>
      refine (Triple.done (Q := fun _ => Removing κ owned ts rest) stable_removing).pre
        fun s _ ⟨hids, hrest, _, hfound, _⟩ => ⟨hids, fun ho => ?_, fun ho => ?_⟩ <;>
        obtain ⟨f, -, hf⟩ := hfound ho <;> cases hf
    | some f =>
      intro s hwf ⟨hids, hrest, hf, hfound, hholds⟩
      obtain ⟨hid, hcreated⟩ := hf f rfl
      subst hid
      have hnew : owned → f.id ∉ rest := fun ho => (List.nodup_cons.mp (hrest ho).1).1
      have hmem : owned → f ∈ ts := fun ho => by
        obtain ⟨f', hf', heq⟩ := hfound ho
        exact Option.some.inj heq ▸ hf'
      have hframe := (removeFilterFromIndexes_contract ts hnew hmem).frame
        (A := fun s => ∀ id ∈ rest, OwnId κ id s) stable_ownIds
        fun _ _ _ hG h id hid => (h id hid).grows hG.grows
      refine (hframe s hwf ⟨⟨hcreated, hholds⟩, hids⟩).conseq (fun _ _ h => h)
        (fun _ _ _ h => h) fun _ s _ ⟨hholds, hids⟩ => ⟨hids, fun ho => ?_, hholds⟩
      exact ⟨(List.nodup_cons.mp (hrest ho).1).2,
        fun x hx => (hrest ho).2 (List.mem_cons_of_mem _ hx)⟩

/-- After the group was taken out of the map of groups. -/
def Detached (κ : Key) (owned : Prop) (ts : List TrackedFilter) (o : Option GroupRef)
    (s : SubscriptionIndex) : Prop :=
  (∀ g, o = some g → OwnGroup κ g s) ∧ (o = none → owned → ts = []) ∧
    (owned → ∀ g, o = some g → ∃ grp, s.groups g = some grp ∧ grp.key = κ ∧
      grp.filterIds = ts.map TrackedFilter.id) ∧
    (owned → HoldingParts κ ts ts [] (fun x => ts.filter (x ∈ ·.slots)) s)

theorem stable_detached {o : Option GroupRef} :
    Stable WellFormed (Foreign κ owned) (Detached κ owned ts o) := by
  refine Stable.and (fun s s' hR _ h g hg => (h g hg).grows hR.grows)
    ((stable_const _).and (Stable.and (fun s s' hR _ h ho g hg => ?_) stable_holding))
  obtain ⟨grp, hgrp, hkey, hids⟩ := h ho g hg
  obtain ⟨grp', hgrp', hkey', hids'⟩ := (hR.view ho).ids g grp hgrp hkey
  exact ⟨grp', hgrp', hkey'.trans hkey, hids'.trans hids⟩

/-- With the ids of its group at hand, everything of the subscription is still to be removed. -/
theorem Detached.removing {order : HashOrder} {g : GroupRef} (hwf : WellFormed s)
    (h : Detached κ owned ts (some g) s) :
    Removing κ owned ts
      (order.iter (((s.groups g).map FilterGroup.filterIds).getD [])) s := by
  obtain ⟨hg, -, hids, hholds⟩ := h
  obtain ⟨grp, hgrp, hkey⟩ := hg g rfl
  rw [hgrp]
  have hgrpIds : owned → grp.filterIds = ts.map TrackedFilter.id := fun ho => by
    obtain ⟨grp', hgrp', -, hids'⟩ := hids ho g rfl
    rw [hgrp, Option.some.injEq] at hgrp'
    exact hgrp' ▸ hids'
  refine ⟨fun id hid => ?_, fun ho => ⟨?_, fun id hid => ?_⟩, fun ho => ?_⟩
  · obtain ⟨f, hf, hparent⟩ := hwf.ids g grp id hgrp (order.mem_iter.mp hid)
    have hid' := (hwf.tracked id f hf).1
    exact ⟨f, hid', by rw [hid']; exact hf, hparent.trans hkey⟩
  · refine (order.perm _).nodup_iff.mpr ?_
    show grp.filterIds.Nodup
    rw [hgrpIds ho]
    exact (hholds ho).nodup
  · rw [← hgrpIds ho]
    exact order.mem_iter.mp hid
  · have hmem : ∀ t ∈ ts, t.id ∈ order.iter grp.filterIds := fun t ht =>
      order.mem_iter.mpr (hgrpIds ho ▸ List.mem_map_of_mem ht)
    have hall : ts.filter (·.id ∈ order.iter grp.filterIds) = ts :=
      List.filter_eq_self.mpr fun t ht => decide_eq_true (hmem t ht)
    have hfiled : (fun x => ts.filter fun t => x ∈ t.slots ∧ t.id ∈ order.iter grp.filterIds) =
        fun x => ts.filter (x ∈ ·.slots) := by
      funext x
      exact List.filter_congr fun t ht => by simp [hmem t ht]
    show HoldingParts κ ts (ts.filter (·.id ∈ order.iter grp.filterIds)) []
      (fun x => ts.filter fun t => x ∈ t.slots ∧ t.id ∈ order.iter grp.filterIds) s
    rw [hall, hfiled]
    exact hholds ho

/-- The map of groups is left alone. -/
def SameGroups (s s' : SubscriptionIndex) : Prop := s'.filterGroups = s.filterGroups

theorem every_atIndexedField {T : SubscriptionIndex → SubscriptionIndex → Prop} (f : TrackedFilter)
    {matchAll : List TrackedFilter → List TrackedFilter}
    {buckets : ∀ {K : Type} [DecidableEq K], List K →
      Buckets K TrackedFilter → Buckets K TrackedFilter}
    {tagBuckets : String → List String →
      (AList fun _ : String => Buckets String TrackedFilter) →
      AList fun _ : String => Buckets String TrackedFilter}
    (hmatchAll : ∀ s, T s { s with matchAllFilters := matchAll s.matchAllFilters })
    (heventIds : ∀ ids s, T s { s with eventIds := buckets ids s.eventIds })
    (hauthors : ∀ authors s, T s { s with authors := buckets authors s.authors })
    (hkinds : ∀ kinds s, T s { s with kinds := buckets kinds s.kinds })
    (htags : ∀ name values s, T s { s with tags := tagBuckets name values s.tags }) :
    (atIndexedField f matchAll buckets tagBuckets).Every T := by
  rw [atIndexedField]
  split
  · exact Prog.every_atomic _ hmatchAll
  all_goals split
  · exact Prog.every_atomic _ (heventIds _)
  · exact Prog.every_done _
  · exact Prog.Every.forM (fun authors => Prog.every_atomic _ (hauthors authors)) _
  · exact Prog.every_done _
  · exact Prog.every_atomic _ (hkinds _)
  · exact Prog.every_done _
  · exact Prog.every_atomic _ (htags _ _)
  · exact Prog.every_done _

theorem every_removeFilter (id : FilterId) : (removeFilter id).Every SameGroups := by
  refine Prog.Every.bind (T := SameGroups) (Prog.every_atomic _ fun _ => rfl) fun filter => ?_
  cases filter with
  | none => exact Prog.every_done _
  | some f =>
    exact every_atIndexedField f (fun _ => rfl) (fun _ _ => rfl) (fun _ _ => rfl)
      (fun _ _ => rfl) fun _ _ _ => rfl

/-- Nothing is held for `κ`, not even an empty group. -/
structure Absent (κ : Key) (s : SubscriptionIndex) : Prop where
  holds : Holds κ [] s
  noGroup : s.filterGroups.lookup κ = none

theorem absent_new (κ : Key) : Absent κ new := ⟨holds_new κ, rfl⟩

theorem stable_noGroup :
    Stable WellFormed (Foreign κ owned) fun s => owned → s.filterGroups.lookup κ = none :=
  fun _ _ hR _ h ho => (hR.view ho).group.trans (h ho)

/-- **`remove_subscription` removes everything** that is held for `κ`. -/
theorem removeSubscription_triple (κ : Key) (owned : Prop) (order : HashOrder)
    (ts : List TrackedFilter) :
    Triple WellFormed (Foreign κ owned) (RemoveEffect κ) (fun s => owned → Holding κ ts s)
      (removeSubscription order κ) fun _ s => owned → Absent κ s := by
  have hrefl := Foreign.refl κ owned
  have hfinal : ∀ s, (owned → HoldingParts κ ts [] [] (fun _ => []) s) ∧
      (owned → s.filterGroups.lookup κ = none) → owned → Absent κ s := by
    intro s ⟨h, hnone⟩ ho
    refine ⟨⟨[], rfl, List.nodup_nil, fun _ h => absurd h List.not_mem_nil, fun x => ?_,
      (h ho).all, (h ho).group, fun _ => rfl⟩, hnone ho⟩
    rw [(h ho).filed]
    rfl
  refine Triple.bind (M := fun o s => Detached κ owned ts o s ∧
      (owned → s.filterGroups.lookup κ = none)) hrefl
    (Triple.atomic stable_holding (fun _ => stable_detached.and stable_noGroup)
      fun s hwf hholds => ?_) fun o => ?_
  · obtain ⟨hwf', heff⟩ := eraseGroup_step hwf κ
    refine ⟨hwf', heff, ⟨fun g hg => hwf.group κ g hg, fun hnone ho => (hholds ho).noGroup hnone,
      fun ho g hg => ?_, fun ho => (hholds ho).eraseGroup⟩, fun _ => AList.lookup_erase κ _⟩
    obtain ⟨grp, hgrp, hkey⟩ := hwf.group κ g hg
    obtain ⟨grp', hgrp', hids⟩ := (hholds ho).group g hg
    rw [hgrp, Option.some.injEq] at hgrp'
    subst hgrp'
    exact ⟨grp, hgrp, hkey, hids⟩
  · cases o with
    | none =>
      refine (Triple.done (Q := fun _ s => (owned → HoldingParts κ ts [] [] (fun _ => []) s) ∧
        (owned → s.filterGroups.lookup κ = none)) (stable_holding.and stable_noGroup)).conseq
        (fun _ _ h => h) (fun _ _ _ h => h)
        (fun s _ ⟨⟨_, hnone, _, hholds⟩, hgroup⟩ => ⟨fun ho => ?_, hgroup⟩) fun _ s _ => hfinal s
      obtain rfl := hnone rfl ho
      exact hholds ho
    | some g =>
      have hrest := Triple.bind (M := fun ids => Removing κ owned ts (order.iter ids)) hrefl
        (Triple.atomic (l := .group g) (f := fun s =>
            (((s.groups g).map FilterGroup.filterIds).getD [], s)) stable_detached
          (fun _ => stable_removing) fun s hwf h => ⟨hwf, .refl _ _ _ s, h.removing hwf⟩)
        fun ids => Triple.forM (J := Removing κ owned ts) hrefl stable_removing removeFilter_triple
          (order.iter ids)
      -- the rest leaves the map of groups alone, so the group stays away
      have hevery : ∀ s, WellFormed s → Detached κ owned ts (some g) s → _ := fun s hwf h =>
        (hrest s hwf h).every (Prog.Every.bind (T := SameGroups) (Prog.every_atomic _ fun _ => rfl)
          fun ids => Prog.Every.forM every_removeFilter (order.iter ids))
      refine (Triple.frame hevery stable_noGroup fun s s' _ hG h ho => ?_).conseq
        (fun _ _ h => h) (fun _ _ _ h => h.1) (fun _ _ h => h)
        fun _ s _ ⟨⟨_, _, hholds⟩, hgroup⟩ => hfinal s ⟨fun ho => ?_, hgroup⟩
      · rw [hG.2]
        exact h ho
      · simpa using hholds ho

end SubscriptionIndex

end RelayBuilder
