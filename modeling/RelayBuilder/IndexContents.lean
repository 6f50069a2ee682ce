import RelayBuilder.IndexDistribution
import RelayBuilder.Interleave.Alone

/-!
# The contents of an index

`Contents H s` describes a whole index by a function `H` from subscriptions to their filters, where
a subscription that is not known to the index has none at all. A method that runs alone changes it
at its own subscription only, and `distribute_event` returns only subscriptions that have a
matching filter there, whatever it has distributed before.

## Main results

* `Contents.addSubscription_alone`, `Contents.removeSubscription_alone`,
  `Contents.distributeEvent_alone`, `Contents.distributeEvent_complete_alone`
* `Contents.addSubscription_unseen`: a subscription that is added anew has seen no event
-/

namespace RelayBuilder

open Interleave

namespace SubscriptionIndex

/-- The index holds exactly the filters `fs` for `κ`, or nothing at all. -/
def Entry (κ : Key) : Option (List Filter) → SubscriptionIndex → Prop
  | none, s => Absent κ s
  | some fs, s => Holds κ fs s

theorem Entry.holds {κ : Key} {o : Option (List Filter)} {s : SubscriptionIndex}
    (h : Entry κ o s) : Holds κ (o.getD []) s := by
  cases o with
  | none => exact Absent.holds h
  | some fs => exact h

/-- What is held survives the calls for other subscriptions. -/
theorem Entry.stable {κ : Key} {o : Option (List Filter)} {s s' : SubscriptionIndex}
    (hwf : WellFormed s') (hgrows : Grows s s') (hview : SameView κ s s') (h : Entry κ o s) :
    Entry κ o s' := by
  cases o with
  | none =>
    obtain ⟨⟨ts, hts, hholds⟩, hgroup⟩ : Absent κ s := h
    exact ⟨⟨ts, hts, hholds.stable hwf hgrows hview⟩, hview.group.trans hgroup⟩
  | some fs =>
    obtain ⟨ts, hts, hholds⟩ : Holds κ fs s := h
    exact ⟨ts, hts, HoldingParts.stable hwf hgrows hview hholds⟩

/-- The index holds exactly the filters `H κ` for every subscription `κ`. -/
structure Contents (H : Key → Option (List Filter)) (s : SubscriptionIndex) : Prop where
  wellFormed : WellFormed s
  entry : ∀ κ, Entry κ (H κ) s

theorem contents_new : Contents (fun _ => none) new := ⟨wellFormed_new, absent_new⟩

variable {matchEvent : Filter → Event → Bool} {H : Key → Option (List Filter)}
  {s : SubscriptionIndex}
  {α : Type} {touches drops : Key → Prop} {marks : EventId → Prop}

/-- A program that runs alone has its effect as a whole, and leaves the subscriptions it does not
touch as they were. -/
theorem alone_contents {p : Prog IndexLock SubscriptionIndex α} {Q : α → Prop}
    {N : Key → Option (List Filter)} (hp : p.NeverWaits) (h : Contents H s)
    (heff : p.Ensures WellFormed (· = ·) (Effect touches drops marks) (fun a _ => Q a) s)
    (hown : ∀ κ, touches κ → p.Ensures WellFormed (· = ·) (Effect touches drops marks)
      (fun _ s' => Entry κ (N κ) s') s)
    (hother : ∀ κ, ¬ touches κ → N κ = H κ) :
    p.Alone (fun _ _ => True) (fun a s' => Contents N s' ∧ Q a) s := by
  have hrefl : ∀ s : SubscriptionIndex, s = s := fun _ => rfl
  have hwhole := (hp.alone hrefl heff h.wellFormed).track (Effect.refl touches drops marks)
    (fun _ _ _ => Effect.trans) fun _ _ h => h
  have hkeys : p.Alone (Effect touches drops marks)
      (fun _ s' => ∀ κ, touches κ → Entry κ (N κ) s') s := by
    refine Prog.Alone.all hwhole fun κ => ?_
    by_cases hκ : touches κ
    · exact (hp.alone hrefl (hown κ hκ) h.wellFormed).post fun _ _ h' _ => h'.2
    · exact hwhole.post fun _ _ _ h' => absurd h' hκ
  refine (hwhole.and hkeys).conseq (fun _ _ _ => trivial) ?_
  rintro a s' ⟨⟨⟨hwf', hQ⟩, heff'⟩, hkeys'⟩
  refine ⟨⟨hwf', fun κ => ?_⟩, hQ⟩
  by_cases hκ : touches κ
  · exact hkeys' κ hκ
  · rw [hother κ hκ]
    exact (h.entry κ).stable hwf' heff'.grows (heff'.view κ hκ)

/-! ### No method of the index waits -/

theorem neverWaits_atIndexedField (f : TrackedFilter)
    (matchAll : List TrackedFilter → List TrackedFilter)
    (buckets : ∀ {K : Type} [DecidableEq K], List K →
      Buckets K TrackedFilter → Buckets K TrackedFilter)
    (tagBuckets : String → List String →
      (AList fun _ : String => Buckets String TrackedFilter) →
      AList fun _ : String => Buckets String TrackedFilter) :
    (atIndexedField f matchAll buckets tagBuckets).NeverWaits := by
  rw [atIndexedField]
  split
  · exact Prog.neverWaits_atomic _ _
  all_goals split
  all_goals first
    | exact Prog.neverWaits_atomic _ _
    | exact Prog.neverWaits_done _
    | exact Prog.NeverWaits.forM (fun _ => Prog.neverWaits_atomic _ _) _

theorem neverWaits_addSubscription (κ : Key) (filters : List Filter) :
    (addSubscription κ filters).NeverWaits := by
  refine (Prog.neverWaits_atomic _ _).bind fun g => Prog.NeverWaits.forM (fun filter => ?_) _
  exact (Prog.neverWaits_atomic _ _).bind fun _ => (Prog.neverWaits_atomic _ _).bind fun _ =>
    (Prog.neverWaits_atomic _ _).bind fun _ => neverWaits_atIndexedField _ _ _ _

theorem neverWaits_removeSubscription (order : HashOrder) (κ : Key) :
    (removeSubscription order κ).NeverWaits := by
  refine (Prog.neverWaits_atomic _ _).bind fun group => ?_
  cases group with
  | none => exact Prog.neverWaits_done _
  | some g =>
    refine (Prog.neverWaits_atomic _ _).bind fun ids => Prog.NeverWaits.forM (fun id => ?_) _
    refine (Prog.neverWaits_atomic _ _).bind fun filter => ?_
    cases filter with
    | none => exact Prog.neverWaits_done _
    | some f => exact neverWaits_atIndexedField _ _ _ _

theorem neverWaits_getCandidateFilters (e : Event) : (getCandidateFilters e).NeverWaits :=
  (Prog.neverWaits_atomic _ _).bind fun _ => (Prog.neverWaits_atomic _ _).bind fun _ =>
    (Prog.neverWaits_atomic _ _).bind fun _ => (Prog.neverWaits_atomic _ _).bind fun _ =>
      Prog.neverWaits_atomic _ _

theorem neverWaits_checkCandidate (e : Event) (d : Distribution) (f : TrackedFilter) :
    (checkCandidate matchEvent e d f).NeverWaits := by
  have hdone : ∀ d : Distribution,
      (Prog.done d : Prog IndexLock SubscriptionIndex Distribution).NeverWaits :=
    fun _ => Prog.neverWaits_done _
  rw [checkCandidate]
  split
  · exact hdone _
  refine (Prog.neverWaits_atomic _ _).bind fun hasSeen => ?_
  split
  · exact hdone _
  split
  · exact hdone _
  refine (Prog.neverWaits_atomic _ _).bind fun _ => ?_
  dsimp only
  split
  · exact hdone _
  refine (Prog.neverWaits_atomic _ _).bind fun group => ?_
  cases group with
  | none => exact hdone _
  | some g =>
    refine (Prog.neverWaits_atomic _ _).bind fun seen => ?_
    split
    · exact hdone _
    · exact (Prog.neverWaits_atomic _ _).bind fun _ => hdone _

theorem neverWaits_checkCandidates (e : Event) (c : List TrackedFilter) (d : Distribution) :
    ((c.foldlM (checkCandidate matchEvent e) d).bind fun d =>
      .done d.matchingSubscriptions).NeverWaits :=
  (Prog.NeverWaits.foldlM (fun d f => neverWaits_checkCandidate e d f) c d).bind
    fun _ => Prog.neverWaits_done _

theorem neverWaits_distributeEvent (e : Event) :
    (distributeEvent matchEvent e).NeverWaits :=
  (neverWaits_getCandidateFilters e).bind fun c => neverWaits_checkCandidates e c _

/-! ### The methods alone -/

theorem Contents.addSubscription_alone (h : Contents H s) (κ : Key) (filters : List Filter) :
    (addSubscription κ filters).Alone (fun _ _ => True)
      (fun _ s' => Contents (Function.update H κ (some ((H κ).getD [] ++ filters))) s') s := by
  obtain ⟨ts, hts, hholds⟩ := (h.entry κ).holds
  have heff := addSubscription_triple κ False [] filters s h.wellFormed
    fun h => h.elim
  have hown := addSubscription_triple κ True ts filters s h.wellFormed
    fun _ => hholds
  refine (alone_contents (Q := fun _ => True)
    (N := Function.update H κ (some ((H κ).getD [] ++ filters)))
    (neverWaits_addSubscription κ filters) h (heff.conseq ?_ (fun _ _ _ h => h) fun _ _ _ _ => trivial)
    (fun κ' hκ' => ?_) fun κ' hκ' => Function.update_of_ne hκ' _ _).post fun _ _ h => h.1
  · rintro s s' rfl
    exact .refl κ False s
  · obtain rfl : κ' = κ := hκ'
    refine hown.conseq ?_ (fun _ _ _ h => h) fun _ _ _ h => ?_
    · rintro s s' rfl
      exact .refl κ' True s
    · rw [Function.update_self, Entry, ← hts]
      exact h trivial

theorem Contents.removeSubscription_alone (h : Contents H s) (order : HashOrder) (κ : Key) :
    (removeSubscription order κ).Alone (fun _ _ => True)
      (fun _ s' => Contents (Function.update H κ none) s') s := by
  obtain ⟨ts, hts, hholds⟩ := (h.entry κ).holds
  have heff := removeSubscription_triple κ False order [] s h.wellFormed
    fun h => h.elim
  have hown := removeSubscription_triple κ True order ts s h.wellFormed
    fun _ => hholds
  refine (alone_contents (Q := fun _ => True) (N := Function.update H κ none)
    (neverWaits_removeSubscription order κ) h
    (heff.conseq ?_ (fun _ _ _ h => h) fun _ _ _ _ => trivial)
    (fun κ' hκ' => ?_) fun κ' hκ' => Function.update_of_ne hκ' _ _).post fun _ _ h => h.1
  · rintro s s' rfl
    exact .refl κ False s
  · obtain rfl : κ' = κ := hκ'
    refine hown.conseq ?_ (fun _ _ _ h => h) fun _ _ _ h => ?_
    · rintro s s' rfl
      exact .refl κ' True s
    · rw [Function.update_self]
      exact h trivial

/-- A subscription is returned only because one of its filters is a candidate that matches. -/
theorem always_checkCandidate_sound {e : Event} {d : Distribution} {f : TrackedFilter} :
    (checkCandidate matchEvent e d f).Always fun d' => ∀ κ ∈ d'.matchingSubscriptions,
      κ ∈ d.matchingSubscriptions ∨ κ = f.parentSubscription ∧ matchEvent f.filter e = true := by
  rw [checkCandidate]
  split
  · exact fun _ => .inl
  refine (Prog.always_true _).bind fun hasSeen _ => ?_
  split
  · exact fun _ => .inl
  split
  · exact fun _ => .inl
  rename_i hmatch
  refine (Prog.always_true _).bind fun _ _ => ?_
  dsimp only
  split
  · exact fun _ => .inl
  refine (Prog.always_true _).bind fun group _ => ?_
  cases group with
  | none => exact fun _ => .inl
  | some g =>
    refine (Prog.always_true _).bind fun seen _ => ?_
    split
    · exact fun _ => .inl
    refine (Prog.always_true _).bind fun _ _ κ hκ => ?_
    rcases List.mem_append.mp hκ with hκ | hκ
    · exact .inl hκ
    · exact .inr ⟨List.mem_singleton.mp hκ, by simpa using hmatch⟩

theorem always_checkCandidates_sound {e : Event} {c : List TrackedFilter} :
    ((c.foldlM (checkCandidate matchEvent e) Distribution.new).bind fun d =>
      .done d.matchingSubscriptions).Always fun r => ∀ κ ∈ r,
        ∃ t ∈ c, t.parentSubscription = κ ∧ matchEvent t.filter e = true := by
  refine Prog.Always.bind (A := fun d => ∀ κ ∈ d.matchingSubscriptions,
    ∃ t ∈ c, t.parentSubscription = κ ∧ matchEvent t.filter e = true)
    (Prog.Always.foldlM c (fun κ hκ => absurd hκ List.not_mem_nil) fun d hd t ht => ?_)
    fun _ hd κ hκ => hd κ hκ
  refine always_checkCandidate_sound.mono fun d' hd' κ hκ => ?_
  rcases hd' κ hκ with h | ⟨rfl, hmatch⟩
  · exact hd κ h
  · exact ⟨t, ht, rfl, hmatch⟩

theorem Contents.distributeEvent_alone (h : Contents H s)
    (matchEvent : Filter → Event → Bool) (e : Event) :
    (distributeEvent matchEvent e).Alone (fun _ _ => True) (fun r s' => Contents H s' ∧ r.Nodup ∧
      ∀ κ ∈ r, ∃ f ∈ (H κ).getD [], matchEvent f e = true) s := by
  have heff := distributeEvent_triple matchEvent ("", "") False e [] s h.wellFormed
    ⟨fun h => h.elim, fun h => h.elim⟩
  have hcontents := alone_contents (Q := List.Nodup) (N := H) (neverWaits_distributeEvent e) h
    (heff.conseq (S := (· = ·)) ?_ (fun _ _ _ h => h) fun _ _ _ h => h.1)
    (fun _ h => h.elim) fun _ _ => rfl
  · have hsound : ∀ κ, (distributeEvent matchEvent e).Alone (fun _ _ => True)
        (fun r _ => κ ∈ r → ∃ f ∈ (H κ).getD [], matchEvent f e = true) s := by
      intro κ
      obtain ⟨ts, hts, hholds⟩ := (h.entry κ).holds
      have hcandidates :=
        getCandidateFilters_triple κ e.id True ts nothing e s h.wellFormed fun _ => hholds
      refine Prog.Alone.bind (((neverWaits_getCandidateFilters e).alone (Other.refl κ e.id True)
        hcandidates h.wellFormed).conseq (fun _ _ _ => trivial) fun _ _ h => h)
        fun c s' ⟨_, hc⟩ => ?_
      refine ((neverWaits_checkCandidates e c Distribution.new).alone_always
        always_checkCandidates_sound s').post fun r _ hr hκ => ?_
      obtain ⟨t, ht, hparent, hmatch⟩ := hr κ hκ
      exact ⟨t.filter, hts ▸ List.mem_map_of_mem (hc.2.2.2.1 trivial t ht hparent), hmatch⟩
    exact (hcontents.and (Prog.Alone.all hcontents hsound)).post
      fun r s' ⟨⟨hc, hnd⟩, hr⟩ => ⟨hc, hnd, hr⟩
  · rintro s s' rfl
    exact .refl _ _ _ s

/-- A subscription with a matching filter is returned, unless the event is the last one that it has
seen. -/
theorem Contents.distributeEvent_complete_alone (h : Contents H s) (laws : MatchLaws matchEvent)
    {e : Event} {κ : Key} (hunseen : Unseen κ e.id s)
    (hmatch : ∃ f ∈ (H κ).getD [], matchEvent f e = true) :
    (distributeEvent matchEvent e).Alone (fun _ _ => True) (fun r _ => κ ∈ r) s := by
  obtain ⟨ts, hts, hholds⟩ := (h.entry κ).holds
  have hreturned := distributeEvent_unseen_triple matchEvent κ True e ts s h.wellFormed
    ⟨fun _ => hholds, fun _ => hunseen⟩
  refine ((neverWaits_distributeEvent e).alone (Other.refl κ e.id True) hreturned
    h.wellFormed).conseq (fun _ _ _ => trivial) fun r _ hr => hr.2.2.2.2 trivial laws ?_
  obtain ⟨f, hf, hmatch⟩ := hmatch
  obtain ⟨t, ht, rfl⟩ := List.mem_map.mp (hts ▸ hf)
  exact ⟨t, ht, hmatch⟩

/-! ### A new subscription -/

section New

variable {s' : SubscriptionIndex} {κ : Key}

/-- The maps and the counter of the filters are the same. -/
structure SameMaps (s s' : SubscriptionIndex) : Prop where
  nextFilterId : s'.nextFilterId = s.nextFilterId
  allFilters : s'.allFilters = s.allFilters
  filterGroups : s'.filterGroups = s.filterGroups

/-- The group of `κ` is `g`, and the filters of `κ` have ids from `n` on. -/
structure Young (κ : Key) (n : FilterId) (g : GroupRef) (s : SubscriptionIndex) : Prop where
  next : n ≤ s.nextFilterId
  all : ∀ id t, s.allFilters.lookup id = some t → t.parentSubscription = κ → n ≤ id
  group : s.filterGroups.lookup κ = some g

theorem Young.same {n : FilterId} {g : GroupRef} (h : Young κ n g s) (hs : SameMaps s s') :
    Young κ n g s' := by
  refine ⟨?_, ?_, ?_⟩
  · rw [hs.nextFilterId]
    exact h.next
  · rw [hs.allFilters]
    exact h.all
  · rw [hs.filterGroups]
    exact h.group

theorem SameMaps.trans {a b c : SubscriptionIndex} (h : SameMaps a b) (h' : SameMaps b c) :
    SameMaps a c :=
  ⟨h'.nextFilterId.trans h.nextFilterId, h'.allFilters.trans h.allFilters,
    h'.filterGroups.trans h.filterGroups⟩

theorem addFilter_young {n : FilterId} {g : GroupRef} (h : Young κ n g s) (filter : Filter) :
    (addFilter κ g filter).Alone (fun _ _ => True) (fun _ s' => Young κ n g s') s := by
  refine Prog.Alone.bind (M := fun f s' => n ≤ f.id ∧ Young κ n g s') (Prog.Alone.atomic trivial
    ⟨h.next, Nat.le_succ_of_le h.next, h.all, h.group⟩) fun f s₁ ⟨hf, h₁⟩ => ?_
  refine Prog.Alone.bind (M := fun _ s' => Young κ n g s') (Prog.Alone.atomic trivial
    ⟨h₁.next, fun id t ht hκ => ?_, h₁.group⟩) fun _ s₂ h₂ => ?_
  · by_cases hid : id = f.id
    · rwa [hid]
    · rw [AList.lookup_insert_ne hid] at ht
      exact h₁.all id t ht hκ
  refine Prog.Alone.bind (M := fun _ s' => Young κ n g s') (Prog.Alone.atomic trivial
    ⟨h₂.next, h₂.all, h₂.group⟩) fun _ s₃ h₃ => ?_
  have hsame : (addFilterToIndexes f).Every SameMaps :=
    every_atIndexedField f (fun _ => ⟨rfl, rfl, rfl⟩) (fun _ _ => ⟨rfl, rfl, rfl⟩)
      (fun _ _ => ⟨rfl, rfl, rfl⟩) (fun _ _ => ⟨rfl, rfl, rfl⟩) fun _ _ _ => ⟨rfl, rfl, rfl⟩
  have halone := ((neverWaits_atIndexedField f _ _ _).alone_every hsame s₃).track (T := SameMaps)
    (fun _ => ⟨rfl, rfl, rfl⟩) (fun _ _ _ => SameMaps.trans) fun _ _ h => h
  exact halone.conseq (fun _ _ _ => trivial) fun _ _ h => h₃.same h.2

/-- **A subscription that was not there** has seen nothing when it is added, whatever an earlier
one with its key has seen. -/
theorem Contents.addSubscription_unseen (h : Contents H s) (hκ : H κ = none)
    (filters : List Filter) (x : EventId) :
    (addSubscription κ filters).Alone (fun _ _ => True) (fun _ s' => Unseen κ x s') s := by
  obtain ⟨⟨ts, hts, hholds⟩, hgroup⟩ : Absent κ s := by
    have hentry := h.entry κ
    rwa [hκ] at hentry
  have hyoung : (addSubscription κ filters).Alone (fun _ _ => True)
      (fun _ s' => Young κ s.nextFilterId s.nextGroup s') s := by
    refine Prog.Alone.bind (M := fun g s' => g = s.nextGroup ∧
      Young κ s.nextFilterId s.nextGroup s') (Prog.Alone.atomic trivial ?_) ?_
    · have hentry : entryOrNewGroup κ s = (s.nextGroup,
          { s with
            filterGroups := s.filterGroups.insert κ s.nextGroup
            groups := fun g => if g = s.nextGroup then some (FilterGroup.new κ) else s.groups g
            nextGroup := s.nextGroup + 1 }) := by
        rw [entryOrNewGroup, hgroup]
      rw [hentry]
      refine ⟨rfl, le_rfl, fun id t ht hparent => ?_, AList.lookup_insert ..⟩
      -- there were no filters
      obtain ⟨hmem, -⟩ := (hholds.all id t hparent).mp ht
      rw [List.map_eq_nil_iff.mp hts] at hmem
      cases hmem
    · rintro _ s₁ ⟨rfl, h₁⟩
      exact Prog.Alone.forM (J := fun _ s' => Young κ s.nextFilterId s.nextGroup s')
        (fun filter _ s₂ h₂ => addFilter_young h₂ filter) h₁
  have heff := ((neverWaits_addSubscription κ filters).alone (fun s => .refl κ False s)
    (addSubscription_triple κ False [] filters s h.wellFormed fun h => h.elim) h.wellFormed).track
    (T := AddEffect κ) (.refl _ _ _) (fun _ _ _ => Effect.trans) fun _ _ h => h
  refine (hyoung.and heff).post ?_
  rintro _ s' ⟨h', -, heffect⟩
  have hseen (id : FilterId) : s'.filterSeen id = s.filterSeen id := by
    refine (heffect.filterSeen id).resolve_right ?_
    rintro ⟨_, hx, -⟩
    exact hx
  refine ⟨fun id t ht hparent hx => ?_, fun g hg hx => ?_⟩
  · have hnone := h.wellFormed.unseen id (h.wellFormed.freshFilter id (h'.all id t ht hparent))
    rw [hseen, hnone] at hx
    cases hx
  · obtain rfl : g = s.nextGroup := Option.some.inj (hg.symm.trans h'.group)
    have hfresh : s'.groupSeen s.nextGroup = s.groupSeen s.nextGroup := by
      refine (heffect.groupSeen _).resolve_right ?_
      rintro ⟨_, hx, -⟩
      exact hx
    rw [hfresh, groupSeen, h.wellFormed.freshGroup _ le_rfl] at hx
    cases hx

end New

end SubscriptionIndex

end RelayBuilder
