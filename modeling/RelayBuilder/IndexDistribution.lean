import RelayBuilder.IndexCandidates

/-!
# Distributing an event

The contract of `distribute_event`. Deduplication is split over sets that belong to the call and
cells that all calls share. `Mine` is what the loop knows about one subscription `κ`: as long as
no cell of `κ` holds the event before the call and nobody else writes it there, the cells cannot
make the call skip `κ`, so `κ` is returned as soon as a first candidate of it matches.

## Main results

* `distributeEvent_unseen_triple`, `distributeEvent_triple`
-/

namespace RelayBuilder

open Interleave

namespace SubscriptionIndex

variable {matchEvent : Filter → Event → Bool} {e : Event} {κ : Key} {owned : Prop}
  {ts rest todo : List TrackedFilter} {t : TrackedFilter} {d : Distribution}
  {s s' : SubscriptionIndex}

/-- A cell that holds the event `x` belongs to another subscription than `κ`. -/
structure NotSeen (κ : Key) (x : EventId) (s : SubscriptionIndex) : Prop where
  filter : ∀ id, s.filterSeen id = some x → ∃ t, s.filters id = some t ∧ t.parentSubscription ≠ κ
  group : ∀ g, s.groupSeen g = some x → ∃ grp, s.groups g = some grp ∧ grp.key ≠ κ

theorem NotSeen.stable {x : EventId} (hgrows : Grows s s') (hsilent : Silent x s s')
    (h : NotSeen κ x s) : NotSeen κ x s' := by
  refine ⟨fun id hid => ?_, fun g hg => ?_⟩
  · obtain ⟨t, ht, hne⟩ := h.filter id (hsilent.filter id hid)
    exact ⟨t, hgrows.filters id t ht, hne⟩
  · obtain ⟨grp, hgrp, hne⟩ := h.group g (hsilent.group g hg)
    obtain ⟨grp', hgrp', hkey⟩ := hgrows.groups g grp hgrp
    exact ⟨grp', hgrp', hkey ▸ hne⟩

/-- The event `x` is neither the last one that the group of `κ` has seen, nor the last one that any
filter of `κ` has seen. -/
structure Unseen (κ : Key) (x : EventId) (s : SubscriptionIndex) : Prop where
  filter : ∀ id t, s.allFilters.lookup id = some t → t.parentSubscription = κ →
    s.filterSeen id ≠ some x
  group : ∀ g, s.filterGroups.lookup κ = some g → s.groupSeen g ≠ some x

theorem Unseen.stable {x : EventId} (hview : SameView κ s s') (hsilent : Silent x s s')
    (h : Unseen κ x s) : Unseen κ x s' :=
  ⟨fun id t ht hκ hseen => h.filter id t ((hview.all id t hκ).mp ht) hκ (hsilent.filter id hseen),
    fun g hg hseen => h.group g (hview.group ▸ hg) (hsilent.group g hseen)⟩

theorem NotSeen.unseen {x : EventId} (hwf : WellFormed s) (h : NotSeen κ x s) : Unseen κ x s := by
  refine ⟨fun id t ht hκ hseen => ?_, fun g hg hseen => ?_⟩
  · obtain ⟨t', ht', hne⟩ := h.filter id hseen
    rw [hwf.all id t ht, Option.some.injEq] at ht'
    exact hne (ht' ▸ hκ)
  · obtain ⟨grp, hgrp, hne⟩ := h.group g hseen
    obtain ⟨grp', hgrp', hkey⟩ := hwf.group κ g hg
    rw [hgrp, Option.some.injEq] at hgrp'
    exact hne (hgrp' ▸ hkey)

/-- What a round of the loop leaves out of account about `κ`: the candidates `rest` are still to be
checked, and those of `todo` are not yet reflected in `d`. -/
structure Mine (matchEvent : Filter → Event → Bool) (e : Event) (κ : Key)
    (ts rest todo : List TrackedFilter) (d : Distribution) (s : SubscriptionIndex) : Prop where
  holding : Holding κ ts s
  nodup : (rest.map TrackedFilter.id).Nodup
  unchecked : ∀ t ∈ rest, t.id ∉ d.checkedFilters
  mine : ∀ t ∈ rest, t.parentSubscription = κ → t ∈ ts
  unseen : ∀ t ∈ rest, t.parentSubscription = κ → s.filterSeen t.id ≠ some e.id
  matching : κ ∈ d.matchingSubscriptions ↔ κ ∈ d.checkedGroups
  unmarked : κ ∉ d.checkedGroups → ∀ g, s.filterGroups.lookup κ = some g →
    s.groupSeen g ≠ some e.id
  sound : κ ∈ d.checkedGroups → ∃ t ∈ ts, matchEvent t.filter e = true
  complete : MatchLaws matchEvent → ∀ t ∈ ts, matchEvent t.filter e = true →
    κ ∈ d.checkedGroups ∨ t ∈ todo

theorem Mine.stable (hwf : WellFormed s') (hgrows : Grows s s') (hview : SameView κ s s')
    (hsilent : Silent e.id s s') (h : Mine matchEvent e κ ts rest todo d s) :
    Mine matchEvent e κ ts rest todo d s' where
  holding := HoldingParts.stable hwf hgrows hview h.holding
  nodup := h.nodup
  unchecked := h.unchecked
  mine := h.mine
  unseen t ht hparent hseen := h.unseen t ht hparent (hsilent.filter _ hseen)
  matching := h.matching
  unmarked hκ g hg hseen := h.unmarked hκ g (hview.group ▸ hg) (hsilent.group g hseen)
  sound := h.sound
  complete := h.complete

/-- A candidate is taken up. -/
theorem Mine.check (h : Mine matchEvent e κ ts (t :: rest) (t :: rest) d s) :
    Mine matchEvent e κ ts rest (t :: rest)
      { d with checkedFilters := d.checkedFilters ++ [t.id] } s where
  holding := h.holding
  nodup := (List.nodup_cons.mp h.nodup).2
  unchecked t' ht' hmem := by
    rcases List.mem_append.mp hmem with hmem | hmem
    · exact h.unchecked t' (List.mem_cons_of_mem _ ht') hmem
    · have hid : t.id = t'.id := (List.mem_singleton.mp hmem).symm
      exact (List.nodup_cons.mp h.nodup).1 (hid ▸ List.mem_map_of_mem ht')
  mine t' ht' := h.mine t' (List.mem_cons_of_mem _ ht')
  unseen t' ht' := h.unseen t' (List.mem_cons_of_mem _ ht')
  matching := h.matching
  unmarked := h.unmarked
  sound := h.sound
  complete := h.complete

/-- A candidate that adds nothing. -/
theorem Mine.skip (h : Mine matchEvent e κ ts rest (t :: rest) d s)
    (hskip : t ∈ ts → matchEvent t.filter e = true → κ ∈ d.checkedGroups) :
    Mine matchEvent e κ ts rest rest d s where
  holding := h.holding
  nodup := h.nodup
  unchecked := h.unchecked
  mine := h.mine
  unseen := h.unseen
  matching := h.matching
  unmarked := h.unmarked
  sound := h.sound
  complete laws t' ht' hmatch := by
    rcases h.complete laws t' ht' hmatch with hκ | hmem
    · exact .inl hκ
    · rcases List.mem_cons.mp hmem with rfl | hmem
      · exact .inl (hskip ht' hmatch)
      · exact .inr hmem

/-- The filter's cell is marked. The candidates still to be checked have other ids. -/
theorem Mine.markFilter (hwf : WellFormed (s.markFilter t.id e.id))
    (h : Mine matchEvent e κ ts rest todo d s) (hnew : t.id ∈ d.checkedFilters)
    (heff : Effect nothing nothing (· = e.id) s (s.markFilter t.id e.id)) :
    Mine matchEvent e κ ts rest todo d (s.markFilter t.id e.id) where
  holding := HoldingParts.stable hwf heff.grows (heff.view κ id) h.holding
  nodup := h.nodup
  unchecked := h.unchecked
  mine := h.mine
  unseen t' ht' hparent hseen := by
    have hne : t'.id ≠ t.id := fun heq => h.unchecked t' ht' (heq ▸ hnew)
    rw [SubscriptionIndex.markFilter] at hseen
    exact h.unseen t' ht' hparent (by simpa [hne] using hseen)
  matching := h.matching
  unmarked := h.unmarked
  sound := h.sound
  complete := h.complete

/-- A group of another subscription was checked, and perhaps returned. -/
theorem Mine.other (ks : List Key) (h : Mine matchEvent e κ ts rest (t :: rest) d s)
    (hne : t.parentSubscription ≠ κ) (hks : κ ∉ ks) :
    Mine matchEvent e κ ts rest rest
      { d with
        checkedGroups := d.checkedGroups ++ [t.parentSubscription]
        matchingSubscriptions := d.matchingSubscriptions ++ ks } s where
  holding := h.holding
  nodup := h.nodup
  unchecked := h.unchecked
  mine := h.mine
  unseen := h.unseen
  matching := by simp [hks, Ne.symm hne, h.matching]
  unmarked hκ := h.unmarked fun hmem => hκ (List.mem_append_left _ hmem)
  sound hκ := h.sound (by simpa [Ne.symm hne] using hκ)
  complete laws t' ht' hmatch := by
    rcases h.complete laws t' ht' hmatch with hκ | hmem
    · exact .inl (List.mem_append_left _ hκ)
    · rcases List.mem_cons.mp hmem with rfl | hmem
      · exact absurd (h.holding.created t' ht').2 hne
      · exact .inr hmem

/-- The group of `κ` was checked and returned. -/
theorem Mine.deliver (h : Mine matchEvent e κ ts rest (t :: rest) d s)
    (heq : t.parentSubscription = κ) (ht : t ∈ ts) (hmatch : matchEvent t.filter e = true) :
    Mine matchEvent e κ ts rest rest
      { d with
        checkedGroups := d.checkedGroups ++ [t.parentSubscription]
        matchingSubscriptions := d.matchingSubscriptions ++ [t.parentSubscription] } s where
  holding := h.holding
  nodup := h.nodup
  unchecked := h.unchecked
  mine := h.mine
  unseen := h.unseen
  matching := by simp [heq]
  unmarked hκ := absurd (List.mem_append_right _ (List.mem_singleton.mpr heq.symm)) hκ
  sound _ := ⟨t, ht, hmatch⟩
  complete _ _ _ _ := .inl (List.mem_append_right _ (List.mem_singleton.mpr heq.symm))

/-- A group's cell is marked: that of `κ` when `κ` was checked, or that of another subscription. -/
theorem Mine.markGroup {g : GroupRef} (hwf : WellFormed s)
    (hwf' : WellFormed (s.updateGroup g (·.markEventSeen e.id)))
    (h : Mine matchEvent e κ ts rest todo d s)
    (hg : κ ∈ d.checkedGroups ∨ ∃ κ', κ' ≠ κ ∧ OwnGroup κ' g s)
    (heff : Effect nothing nothing (· = e.id) s (s.updateGroup g (·.markEventSeen e.id))) :
    Mine matchEvent e κ ts rest todo d (s.updateGroup g (·.markEventSeen e.id)) where
  holding := HoldingParts.stable hwf' heff.grows (heff.view κ id) h.holding
  nodup := h.nodup
  unchecked := h.unchecked
  mine := h.mine
  unseen := h.unseen
  matching := h.matching
  unmarked hκ g' hg' := by
    obtain hmem | ⟨κ', hne, grp, hgrp, hkey⟩ := hg
    · exact absurd hmem hκ
    · have hne' : g' ≠ g := by
        rintro rfl
        obtain ⟨grp', hgrp', hkey'⟩ := hwf.group κ g' hg'
        rw [hgrp, Option.some.injEq] at hgrp'
        exact hne (hkey.symm.trans (hgrp' ▸ hkey'))
      have hsame : (s.updateGroup g (·.markEventSeen e.id)).groupSeen g' = s.groupSeen g' := by
        simp [groupSeen, updateGroup, hne']
      rw [hsame]
      exact h.unmarked hκ g' hg'
  sound := h.sound
  complete := h.complete

/-- The invariant of the loop: the candidates were created, no subscription is returned twice, and
what is known about `κ` if nobody else works on it. -/
structure Loop (matchEvent : Filter → Event → Bool) (e : Event) (κ : Key) (owned : Prop)
    (ts rest todo : List TrackedFilter) (d : Distribution) (s : SubscriptionIndex) : Prop where
  created : ∀ t ∈ todo, s.filters t.id = some t
  nodup : d.matchingSubscriptions.Nodup
  checked : ∀ k ∈ d.matchingSubscriptions, k ∈ d.checkedGroups
  mine : owned → Mine matchEvent e κ ts rest todo d s

theorem stable_loop : Stable WellFormed (Other κ e.id owned)
    (Loop matchEvent e κ owned ts rest todo d) :=
  fun _ _ hR hwf h => ⟨fun t ht => hR.grows.filters _ _ (h.created t ht), h.nodup, h.checked,
    fun ho => (h.mine ho).stable hwf hR.grows (hR.view ho) (hR.silent ho)⟩

theorem Loop.skip (h : Loop matchEvent e κ owned ts rest (t :: rest) d s)
    (hskip : owned → t ∈ ts → matchEvent t.filter e = true → κ ∈ d.checkedGroups) :
    Loop matchEvent e κ owned ts rest rest d s :=
  ⟨fun t' ht' => h.created t' (List.mem_cons_of_mem _ ht'), h.nodup, h.checked,
    fun ho => (h.mine ho).skip (hskip ho)⟩

/-- The last steps of a round, from a group that was found. -/
theorem deliverToGroup_triple (g : GroupRef) (hnew : t.parentSubscription ∉ d.checkedGroups)
    (hmatch : matchEvent t.filter e = true)
    (ht : owned → t.parentSubscription = κ → t ∈ ts) :
    Triple WellFormed (Other κ e.id owned) (Effect nothing nothing (· = e.id))
      (fun s => Loop matchEvent e κ owned ts rest (t :: rest) d s ∧
        OwnGroup t.parentSubscription g s ∧
        (owned → t.parentSubscription = κ → s.filterGroups.lookup κ = some g))
      (deliverToGroup e t.parentSubscription g
        { d with checkedGroups := d.checkedGroups ++ [t.parentSubscription] })
      fun d' => Loop matchEvent e κ owned ts rest rest d' := by
  have hgroup : Stable WellFormed (Other κ e.id owned) fun s => OwnGroup t.parentSubscription g s :=
    fun _ _ hR _ h => h.grows hR.grows
  have hlookup : Stable WellFormed (Other κ e.id owned) fun s =>
      owned → t.parentSubscription = κ → s.filterGroups.lookup κ = some g :=
    fun _ _ hR _ h ho hκ => (hR.view ho).group.trans (h ho hκ)
  refine Triple.bind (M := fun b s => (owned → t.parentSubscription = κ → b = false) ∧
      Loop matchEvent e κ owned ts rest (t :: rest) d s ∧ OwnGroup t.parentSubscription g s)
    (Other.refl κ e.id owned)
    (Triple.atomic (stable_loop.and (hgroup.and hlookup))
      (fun _ => (stable_const _).and (stable_loop.and hgroup))
      ?_) fun b => ?_
  · rintro s hwf ⟨hloop, hg, hlook⟩
    refine ⟨hwf, .refl _ _ _ s, fun ho hκ => ?_, hloop, hg⟩
    have hunseen := (hloop.mine ho).unmarked (hκ ▸ hnew) g (hlook ho hκ)
    obtain ⟨grp, hgrp, -⟩ := hg
    have hlast : grp.lastSeenEventId ≠ some e.id := by simpa [groupSeen, hgrp] using hunseen
    simpa [hgrp, FilterGroup.hasSeenEvent] using hlast
  · cases b with
    | true =>
      -- only another subscription can have seen the event
      refine (Triple.done (Q := fun d' => Loop matchEvent e κ owned ts rest rest d')
        stable_loop).pre ?_
      rintro s - ⟨hne, hloop, -⟩
      refine ⟨fun t' ht' => hloop.created t' (List.mem_cons_of_mem _ ht'), hloop.nodup,
        fun k hk => List.mem_append_left _ (hloop.checked k hk), fun ho => ?_⟩
      have hmine := (hloop.mine ho).other [] (fun hκ => by cases hne ho hκ)
        List.not_mem_nil
      simpa using hmine
    | false =>
      refine Triple.bind (M := fun _ => Loop matchEvent e κ owned ts rest rest
          { d with
            checkedGroups := d.checkedGroups ++ [t.parentSubscription]
            matchingSubscriptions := d.matchingSubscriptions ++ [t.parentSubscription] })
        (Other.refl κ e.id owned)
        (Triple.atomic ((stable_const _).and (stable_loop.and hgroup)) (fun _ => stable_loop)
          ?_) fun _ => Triple.done stable_loop
      rintro s hwf ⟨-, hloop, hg⟩
      obtain ⟨hwf', heff⟩ := markGroup_step hwf g e.id
      refine ⟨hwf', heff, fun t' ht' => hloop.created t' (List.mem_cons_of_mem _ ht'), ?_,
        fun k hk => ?_, fun ho => ?_⟩
      · rw [List.nodup_append]
        refine ⟨hloop.nodup, List.nodup_singleton _, fun a ha b hb heq => hnew ?_⟩
        obtain rfl := List.mem_singleton.mp hb
        exact heq ▸ hloop.checked a ha
      · rcases List.mem_append.mp hk with hk | hk
        · exact List.mem_append_left _ (hloop.checked k hk)
        · exact List.mem_append_right _ hk
      · by_cases hκ : t.parentSubscription = κ
        · exact ((hloop.mine ho).deliver hκ (ht ho hκ) hmatch).markGroup hwf hwf'
            (.inl (List.mem_append_right _ (List.mem_singleton.mpr hκ.symm))) heff
        · exact ((hloop.mine ho).other [t.parentSubscription] hκ (by simp [Ne.symm hκ])).markGroup
            hwf hwf'
            (.inr ⟨_, hκ, hg⟩) heff

/-- One round of the loop. -/
theorem checkCandidate_triple (t : TrackedFilter) (rest : List TrackedFilter) (d : Distribution) :
    Triple WellFormed (Other κ e.id owned) (Effect nothing nothing (· = e.id))
      (Loop matchEvent e κ owned ts (t :: rest) (t :: rest) d) (checkCandidate matchEvent e d t)
      (Loop matchEvent e κ owned ts rest rest) := by
  have hrefl := Other.refl κ e.id owned
  rw [checkCandidate]
  by_cases hchecked : t.id ∈ d.checkedFilters
  · -- a candidate has its own id, so this does not happen to the candidates of `κ`
    rw [if_pos hchecked]
    refine (Triple.done (Q := Loop matchEvent e κ owned ts rest rest) stable_loop).pre
      fun s _ hloop => ⟨fun t' ht' => hloop.created t' (List.mem_cons_of_mem _ ht'), hloop.nodup,
        hloop.checked, fun ho => ?_⟩
    exact absurd hchecked ((hloop.mine ho).unchecked t (List.mem_cons_self ..))
  rw [if_neg hchecked]
  -- `d₁` has the candidate among the checked filters
  generalize hd₁ : ({ d with checkedFilters := d.checkedFilters ++ [t.id] } : Distribution) = d₁
  have hmem₁ : t.id ∈ d₁.checkedFilters := by simp [← hd₁]
  refine Triple.bind (M := fun b s => (owned → t.parentSubscription = κ → t ∈ ts ∧ b = false) ∧
      Loop matchEvent e κ owned ts rest (t :: rest) d₁ s) hrefl
    (Triple.atomic stable_loop (fun _ => (stable_const _).and stable_loop)
      fun s hwf hloop => ⟨hwf, .refl _ _ _ s, fun ho hκ => ⟨?_, ?_⟩, ?_⟩) fun b => ?_
  · exact (hloop.mine ho).mine t (List.mem_cons_self ..) hκ
  · have hunseen := (hloop.mine ho).unseen t (List.mem_cons_self ..) hκ
    simpa [filterHasSeen] using hunseen
  · subst hd₁
    exact ⟨hloop.created, hloop.nodup, hloop.checked, fun ho => (hloop.mine ho).check⟩
  -- the parent of a filter of `κ` is `κ`
  have hparent : ∀ {s}, Loop matchEvent e κ owned ts rest (t :: rest) d₁ s → owned → t ∈ ts →
      t.parentSubscription = κ := fun hloop ho ht => ((hloop.mine ho).holding.created t ht).2
  have hskip : ∀ A : Prop, (∀ s, A → Loop matchEvent e κ owned ts rest (t :: rest) d₁ s →
        owned → t ∈ ts → matchEvent t.filter e = true → κ ∈ d₁.checkedGroups) →
      Triple (L := IndexLock) WellFormed (Other κ e.id owned) (Effect nothing nothing (· = e.id))
        (fun s => A ∧ Loop matchEvent e κ owned ts rest (t :: rest) d₁ s) (Prog.done d₁)
        (Loop matchEvent e κ owned ts rest rest) := fun A hA =>
    (Triple.done (Q := Loop matchEvent e κ owned ts rest rest) stable_loop).pre
      fun s _ ⟨ha, hloop⟩ => hloop.skip (hA s ha hloop)
  cases b with
  | true =>
    refine hskip _ fun s hfacts hloop ho ht _ => ?_
    cases (hfacts ho (hparent hloop ho ht)).2
  | false =>
    by_cases hmatch : matchEvent t.filter e = true
    · rw [if_neg (by simp), if_neg (by simp [hmatch])]
      refine Triple.bind (M := fun _ s => (owned → t.parentSubscription = κ → t ∈ ts) ∧
          Loop matchEvent e κ owned ts rest (t :: rest) d₁ s) hrefl
        (Triple.atomic ((stable_const _).and stable_loop)
          (fun _ => (stable_const _).and stable_loop) fun s hwf ⟨hfacts, hloop⟩ => ?_) fun _ => ?_
      · obtain ⟨hwf', heff⟩ := markFilter_step hwf (hloop.created t (List.mem_cons_self ..)) e.id
        exact ⟨hwf', heff, fun ho hκ => (hfacts ho hκ).1, fun t' ht' => hloop.created t' ht',
          hloop.nodup, hloop.checked, fun ho => (hloop.mine ho).markFilter hwf' hmem₁ heff⟩
      · show Triple _ _ _ _ (if t.parentSubscription ∈ d₁.checkedGroups then _ else _) _
        by_cases hgroup : t.parentSubscription ∈ d₁.checkedGroups
        · rw [if_pos hgroup]
          exact hskip _ fun s _ hloop ho ht _ => hparent hloop ho ht ▸ hgroup
        · rw [if_neg hgroup]
          intro s₀ hwf₀ ⟨hfacts, hloop₀⟩
          refine Triple.bind (M := fun o s => (∀ g, o = some g → OwnGroup t.parentSubscription g s) ∧
              (owned → t.parentSubscription = κ → s.filterGroups.lookup κ = o) ∧
              Loop matchEvent e κ owned ts rest (t :: rest) d₁ s) hrefl
            (Triple.atomic stable_loop (fun o => ?_) fun s hwf hloop => ?_) (fun o => ?_)
            s₀ hwf₀ hloop₀
          · refine Stable.and (fun s s' hR _ h g hg => (h g hg).grows hR.grows)
              (Stable.and (fun s s' hR _ h ho hκ => ?_) stable_loop)
            exact (hR.view ho).group.trans (h ho hκ)
          · exact ⟨hwf, .refl _ _ _ s, fun g hg => hwf.group _ g hg, fun _ hκ => by rw [hκ], hloop⟩
          · cases o with
            | none =>
              -- `κ` has a group as long as it holds a filter
              refine (Triple.done (Q := Loop matchEvent e κ owned ts rest rest) stable_loop).pre
                fun s _ ⟨_, hlook, hloop⟩ => ⟨fun t' ht' => hloop.created t'
                  (List.mem_cons_of_mem _ ht'), hloop.nodup,
                  fun k hk => List.mem_append_left _ (hloop.checked k hk), fun ho => ?_⟩
              have hne : t.parentSubscription ≠ κ := fun hκ => by
                have hnil := (hloop.mine ho).holding.noGroup (hlook ho hκ)
                have ht := hfacts ho hκ
                rw [hnil] at ht
                exact absurd ht List.not_mem_nil
              have hmine := (hloop.mine ho).other [] hne List.not_mem_nil
              simpa using hmine
            | some g =>
              exact (deliverToGroup_triple g hgroup hmatch hfacts).pre fun s _ ⟨hg, hlook, hloop⟩ =>
                ⟨hloop, hg g rfl, hlook⟩
    · rw [if_neg (by simp), if_pos (by simpa using hmatch)]
      exact hskip _ fun s _ _ _ _ h => absurd h hmatch

/-- **`distribute_event` returns `κ` exactly once if one of its filters matches, and not at all if
none does**, when no other call works on `κ` or distributes the same event meanwhile. -/
theorem distributeEvent_unseen_triple (matchEvent : Filter → Event → Bool) (κ : Key) (owned : Prop)
    (e : Event) (ts : List TrackedFilter) :
    Triple WellFormed (Other κ e.id owned) (Effect nothing nothing (· = e.id))
      (fun s => (owned → Holding κ ts s) ∧ (owned → Unseen κ e.id s))
      (distributeEvent matchEvent e) fun r s => r.Nodup ∧ (owned → Holding κ ts s) ∧
        (owned → κ ∈ r → ∃ t ∈ ts, matchEvent t.filter e = true) ∧
        (owned → MatchLaws matchEvent → (∃ t ∈ ts, matchEvent t.filter e = true) → κ ∈ r) := by
  have hrefl := Other.refl κ e.id owned
  have hunseen : Stable WellFormed (Other κ e.id owned) fun s => owned → Unseen κ e.id s :=
    fun _ _ hR _ h ho => (h ho).stable (hR.view ho) (hR.silent ho)
  have hcandidates := (getCandidateFilters_triple κ e.id owned ts nothing e).frame hunseen
      fun _ _ _ heff h ho => (h ho).stable (heff.view κ id) (heff.silent _ id)
  refine Triple.bind hrefl (hcandidates.conseq (fun _ _ h => h)
    (fun _ _ _ h => h.of_nothing) (fun _ _ h => h)
    fun _ _ _ h => h) fun c => ?_
  refine Triple.bind (M := Loop matchEvent e κ owned ts [] []) hrefl
    ((Triple.foldlM (J := fun rest => Loop matchEvent e κ owned ts rest rest) hrefl
      (fun _ => stable_loop) checkCandidate_triple c Distribution.new).pre fun s hwf h => ?_)
    fun d => ?_
  · obtain ⟨⟨hnd, hc, hholds, hmine, hcover⟩, hunseen⟩ := h
    refine ⟨hc, List.nodup_nil, fun _ h => absurd h List.not_mem_nil, fun ho =>
      ⟨hholds ho, hnd, fun _ _ => List.not_mem_nil, hmine ho, fun t ht hκ hseen => ?_,
        by simp [Distribution.new], fun _ g hg hseen => ?_,
        fun h => absurd h List.not_mem_nil, fun laws t ht hmatch => .inr ?_⟩⟩
    · have hall := ((hholds ho).all t.id t hκ).mpr ⟨hmine ho t ht hκ, rfl⟩
      exact (hunseen ho).filter t.id t hall hκ hseen
    · exact (hunseen ho).group g hg hseen
    · have hfield := (hwf.tracked _ t ((hholds ho).created t ht).1).2
      exact hcover ho t ht (exists_slot_of_match laws hfield hmatch)
  · have hstable : Stable WellFormed (Other κ e.id owned) fun s => owned → Holding κ ts s :=
      stable_holding.mono fun _ _ h => h.toForeign
    refine (Triple.done (Q := fun (r : List Key) s => r.Nodup ∧ (owned → Holding κ ts s) ∧
      (owned → κ ∈ r → ∃ t ∈ ts, matchEvent t.filter e = true) ∧
      (owned → MatchLaws matchEvent → (∃ t ∈ ts, matchEvent t.filter e = true) → κ ∈ r))
      ((stable_const _).and (hstable.and (stable_const _)))).pre
      fun s _ (hloop : Loop matchEvent e κ owned ts [] [] d s) =>
        ⟨hloop.nodup, fun ho => (hloop.mine ho).holding,
          fun ho hκ => (hloop.mine ho).sound ((hloop.mine ho).matching.mp hκ),
          fun ho laws ⟨t, ht, hmatch⟩ => (hloop.mine ho).matching.mpr ?_⟩
    rcases (hloop.mine ho).complete laws t ht hmatch with hκ | hmem
    · exact hκ
    · exact absurd hmem List.not_mem_nil

theorem distributeEvent_triple (matchEvent : Filter → Event → Bool) (κ : Key) (owned : Prop)
    (e : Event) (ts : List TrackedFilter) :
    Triple WellFormed (Other κ e.id owned) (Effect nothing nothing (· = e.id))
      (fun s => (owned → Holding κ ts s) ∧ (owned → NotSeen κ e.id s))
      (distributeEvent matchEvent e) fun r s => r.Nodup ∧ (owned → Holding κ ts s) ∧
        (owned → κ ∈ r → ∃ t ∈ ts, matchEvent t.filter e = true) ∧
        (owned → MatchLaws matchEvent → (∃ t ∈ ts, matchEvent t.filter e = true) → κ ∈ r) :=
  (distributeEvent_unseen_triple matchEvent κ owned e ts).pre fun _ hwf ⟨hholds, hunseen⟩ =>
    ⟨hholds, fun ho => (hunseen ho).unseen hwf⟩

end SubscriptionIndex

end RelayBuilder
