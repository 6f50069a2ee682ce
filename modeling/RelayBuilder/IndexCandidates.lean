import RelayBuilder.IndexMethods

/-!
# The candidates for an event

`get_candidate_filters` reads the slots that an event is looked up in, one index after the other.
A filter is filed under one field only, the one chosen when it was added, so the candidates cover
all matching filters only if that field and the slots looked up for the event cannot disagree.

## Main results

* `exists_slot_of_match`: a filter that matches is filed in a slot the event is looked up in
* `getCandidateFilters_triple`: the candidates, whatever other calls do between the reads
-/

namespace RelayBuilder

open Interleave

/-- The slots of the tag index that the tags of an event are looked up in. -/
def Event.tagSlots (e : Event) : List Slot :=
  e.tags.flatMap fun tag =>
    match SingleLetterTag.parse tag.kind with
    | some letter => tag.values.map (Slot.tag letter.asStr)
    | none => []

/-- The slots an event is looked up in, in the order of the reads. -/
def Event.lookups (e : Event) : List Slot :=
  [Slot.matchAll] ++ [Slot.eventId e.id] ++ [Slot.author e.pubkey] ++ [Slot.kind e.kind] ++
    e.tagSlots

namespace SubscriptionIndex

/-- A filter that matches an event is filed in a slot that the event is looked up in. -/
theorem exists_slot_of_match {matchEvent : Filter → Event → Bool} (laws : MatchLaws matchEvent)
    {f : TrackedFilter} (hf : f.indexedField = chooseIndexField f.filter) {e : Event}
    (h : matchEvent f.filter e = true) : ∃ x ∈ f.slots, x ∈ e.lookups := by
  have hsome : ∀ {α : Type} {o : Option (OrdSet α)},
      (o.any fun s => !s.1.isEmpty) = true → ∃ s, o = some s ∧ s.1 ≠ [] := by
    intro α o ho
    cases o with
    | none => cases ho
    | some s => exact ⟨s, rfl, by simpa using ho⟩
  rw [TrackedFilter.slots, hf, chooseIndexField]
  split_ifs with hids hauthors hkinds
  · obtain ⟨s, hs, hne⟩ := hsome hids
    exact ⟨.eventId e.id, by simpa [hs] using laws.ids _ _ s h hs hne, by simp [Event.lookups]⟩
  · obtain ⟨s, hs, hne⟩ := hsome hauthors
    exact ⟨.author e.pubkey, by simpa [hs] using laws.authors _ _ s h hs hne,
      by simp [Event.lookups]⟩
  · obtain ⟨s, hs, hne⟩ := hsome hkinds
    exact ⟨.kind e.kind, by simpa [hs] using laws.kinds _ _ s h hs hne, by simp [Event.lookups]⟩
  · cases hfind : f.filter.genericTags.entries.find? fun entry => !entry.2.1.isEmpty with
    | none => exact ⟨.matchAll, by simp, by simp [Event.lookups]⟩
    | some entry =>
      obtain ⟨letter, s⟩ := entry
      have hs : f.filter.genericTags.lookup letter = some s :=
        AList.mem_lookup_iff.mpr (List.mem_of_find?_eq_some hfind)
      obtain ⟨tag, htag, hkind, v, hv, hhead⟩ := laws.tags _ _ letter s h hs
      refine ⟨.tag letter.asStr v, by simp [hs, hv], ?_⟩
      refine List.mem_append_right _ (List.mem_flatMap.mpr ⟨tag, htag, ?_⟩)
      rw [hkind, SingleLetterTag.parse_asStr]
      exact List.mem_map.mpr ⟨v, List.mem_of_mem_head? hhead, rfl⟩

/-! ### Collecting without duplicates -/

theorem collect_cons (c : List TrackedFilter) (f : TrackedFilter) (fs : List TrackedFilter) :
    collect c (f :: fs) = collect (if c.any (·.id == f.id) then c else c ++ [f]) fs := rfl

theorem nodup_collect {c fs : List TrackedFilter} (hc : (c.map TrackedFilter.id).Nodup) :
    ((collect c fs).map TrackedFilter.id).Nodup := by
  induction fs generalizing c with
  | nil => exact hc
  | cons f fs ih =>
    rw [collect_cons]
    refine ih ?_
    split
    · exact hc
    · rename_i hnew
      rw [List.map_append, List.nodup_append]
      refine ⟨hc, List.nodup_singleton _, fun a ha b hb => ?_⟩
      obtain ⟨t, ht, rfl⟩ := List.mem_map.mp ha
      obtain rfl := List.mem_singleton.mp hb
      intro heq
      exact hnew (List.any_eq_true.mpr ⟨t, ht, by simp [heq]⟩)

/-- When ids identify filters, nothing but duplicates is left out. -/
theorem mem_collect {c fs : List TrackedFilter} {filters : FilterId → Option TrackedFilter}
    (hc : ∀ t ∈ c, filters t.id = some t) (hfs : ∀ t ∈ fs, filters t.id = some t)
    {t : TrackedFilter} : t ∈ collect c fs ↔ t ∈ c ∨ t ∈ fs := by
  induction fs generalizing c with
  | nil => simp [collect]
  | cons f fs ih =>
    have hf := hfs f (List.mem_cons_self ..)
    have hfs' : ∀ t ∈ fs, filters t.id = some t := fun t ht => hfs t (List.mem_cons_of_mem _ ht)
    rw [collect_cons, List.mem_cons]
    split
    · rename_i hany
      obtain ⟨t', ht', hid⟩ := List.any_eq_true.mp hany
      have heq : f = t' := by
        have ht'' := hc t' ht'
        rw [beq_iff_eq.mp hid, hf] at ht''
        exact Option.some.inj ht''
      rw [ih hc hfs']
      constructor
      · rintro (h | h)
        · exact .inl h
        · exact .inr (.inr h)
      · rintro (h | rfl | h)
        · exact .inl h
        · exact .inl (heq ▸ ht')
        · exact .inr h
    · have hc' : ∀ t ∈ c ++ [f], filters t.id = some t := by
        intro t ht
        rcases List.mem_append.mp ht with ht | ht
        · exact hc t ht
        · exact List.mem_singleton.mp ht ▸ hf
      rw [ih hc' hfs', List.mem_append, List.mem_singleton, or_assoc]

/-! ### The reads -/

/-- What a call that distributes the event `x` may expect of the others, if no other call works on
`κ` or distributes `x`. -/
structure Other (κ : Key) (x : EventId) (owned : Prop) (s s' : SubscriptionIndex) : Prop extends
    Foreign κ owned s s' where
  silent : owned → Silent x s s'

variable {s : SubscriptionIndex} {κ : Key} {owned : Prop} {ts : List TrackedFilter} {x : EventId}

theorem Other.refl (κ : Key) (x : EventId) (owned : Prop) (s : SubscriptionIndex) :
    Other κ x owned s s :=
  ⟨.refl κ owned s, fun _ => .refl x s⟩

theorem Other.trans {a b c : SubscriptionIndex} (h : Other κ x owned a b)
    (h' : Other κ x owned b c) : Other κ x owned a c :=
  ⟨h.toForeign.trans h'.toForeign, fun ho => (h.silent ho).trans (h'.silent ho)⟩

/-- The candidates `c` after the slots `xs` were read. -/
def Candidates (κ : Key) (owned : Prop) (ts : List TrackedFilter) (xs : List Slot)
    (c : List TrackedFilter) (s : SubscriptionIndex) : Prop :=
  (c.map TrackedFilter.id).Nodup ∧ (∀ t ∈ c, s.filters t.id = some t) ∧
    (owned → Holding κ ts s) ∧ (owned → ∀ t ∈ c, t.parentSubscription = κ → t ∈ ts) ∧
    (owned → ∀ t ∈ ts, (∃ x ∈ t.slots, x ∈ xs) → t ∈ c)

theorem stable_filters {c : List TrackedFilter} :
    Stable WellFormed (Other κ x owned) fun s => ∀ t ∈ c, s.filters t.id = some t :=
  fun _ _ hR _ h t ht => hR.grows.filters _ _ (h t ht)

theorem stable_candidates {xs : List Slot} {c : List TrackedFilter} :
    Stable WellFormed (Other κ x owned) (Candidates κ owned ts xs c) :=
  (stable_const _).and (stable_filters.and
    ((stable_holding.mono fun _ _ h => h.toForeign).and (stable_const _)))

/-- Reading more slots. -/
theorem Candidates.read {xs ys : List Slot} {c : List TrackedFilter} (hwf : WellFormed s)
    (h : Candidates κ owned ts xs c s) :
    Candidates κ owned ts (xs ++ ys) (collect c (ys.flatMap s.bucket)) s := by
  obtain ⟨hnd, hc, hholds, hmine, hcover⟩ := h
  have hread : ∀ t ∈ ys.flatMap s.bucket, s.filters t.id = some t := fun t ht => by
    obtain ⟨y, -, hy⟩ := List.mem_flatMap.mp ht
    exact hwf.bucket y t hy
  refine ⟨nodup_collect hnd, fun t ht => ?_, hholds, fun ho t ht hparent => ?_,
    fun ho t ht ⟨y, hy, hlook⟩ => (mem_collect hc hread).mpr ?_⟩
  · rcases (mem_collect hc hread).mp ht with ht | ht
    · exact hc t ht
    · exact hread t ht
  · rcases (mem_collect hc hread).mp ht with ht | ht
    · exact hmine ho t ht hparent
    · obtain ⟨y, -, hy⟩ := List.mem_flatMap.mp ht
      have hfiled : t ∈ s.filed κ y := mem_filed.mpr ⟨hy, hparent⟩
      rw [(hholds ho).filed] at hfiled
      exact List.mem_of_mem_filter hfiled
  · rcases List.mem_append.mp hlook with hlook | hlook
    · exact .inl (hcover ho t ht ⟨y, hy, hlook⟩)
    · have hfiled : t ∈ s.filed κ y := by
        rw [(hholds ho).filed]
        simp [ht, hy]
      exact .inr (List.mem_flatMap.mpr ⟨y, hlook, (mem_filed.mp hfiled).1⟩)

theorem tagCandidates_eq (e : Event) (s : SubscriptionIndex) :
    tagCandidates e s.tags = e.tagSlots.flatMap s.bucket := by
  rw [tagCandidates, Event.tagSlots, List.flatMap_assoc]
  congr 1
  funext tag
  cases SingleLetterTag.parse tag.kind with
  | none => rfl
  | some letter => simp [List.flatMap_map, bucket]

/-- **The candidates cover what the subscription holds for the event**, although the indexes are
read one after the other while other calls change them. -/
theorem getCandidateFilters_triple (κ : Key) (x : EventId) (owned : Prop)
    (ts : List TrackedFilter) (marks : EventId → Prop) (e : Event) :
    Triple WellFormed (Other κ x owned) (Effect nothing nothing marks)
      (fun s => owned → Holding κ ts s) (getCandidateFilters e)
      (Candidates κ owned ts e.lookups) := by
  have hrefl := Other.refl κ x owned
  have hread : ∀ (l : IndexLock) (xs ys : List Slot) (c : List TrackedFilter)
      (r : SubscriptionIndex → List TrackedFilter), (∀ s, r s = ys.flatMap s.bucket) →
      Triple WellFormed (Other κ x owned) (Effect nothing nothing marks)
        (Candidates κ owned ts xs c) (Prog.atomic l fun s => (collect c (r s), s))
        (Candidates κ owned ts (xs ++ ys)) := by
    intro l xs ys c r hr
    refine Triple.atomic stable_candidates (fun _ => stable_candidates) fun s hwf h => ?_
    refine ⟨hwf, .refl _ _ _ s, ?_⟩
    rw [hr]
    exact h.read hwf
  have hstart : ∀ s, WellFormed s → (owned → Holding κ ts s) → Candidates κ owned ts [] [] s :=
    fun s _ h => ⟨List.nodup_nil, fun _ h => absurd h List.not_mem_nil, h,
      fun _ _ h => absurd h List.not_mem_nil, fun _ _ _ ⟨_, _, h⟩ => absurd h List.not_mem_nil⟩
  refine Triple.bind hrefl ((hread .matchAllFilters [] [.matchAll] [] _ fun s => by
    simp [bucket]).pre hstart) fun c => ?_
  refine Triple.bind hrefl (hread .eventIds _ [.eventId e.id] c _ fun s => by
    simp [bucket]) fun c => ?_
  refine Triple.bind hrefl (hread .authors _ [.author e.pubkey] c _ fun s => by
    simp [bucket]) fun c => ?_
  refine Triple.bind hrefl (hread .kinds _ [.kind e.kind] c _ fun s => by
    simp [bucket]) fun c => ?_
  exact hread .tags _ e.tagSlots c _ fun s => tagCandidates_eq e s

end SubscriptionIndex

end RelayBuilder
