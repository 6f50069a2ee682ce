import RelayBuilder.RegistryActions

/-!
# Subscriptions of which nothing is filed

A distribution returns only owners of filters that it has found in the indexes. While nothing is
filed for a subscription, it cannot be returned, however the filters of other subscriptions come
and go between the look ups. A removal files nothing.

## Main definitions

* `NoneFiled`, and `Vacant`: the same in the indexes of all scopes

## Main results

* `distributeEvent_vacant`: a subscription is returned only if something was filed for it
-/

namespace RelayBuilder

open Interleave

namespace SubscriptionIndex

variable {κ : Key} {s s' : SubscriptionIndex} {f : TrackedFilter} {xs : List Slot}

/-- No filter of the subscription is filed. -/
def NoneFiled (κ : Key) (s : SubscriptionIndex) : Prop := ∀ x, s.filed κ x = []

theorem noneFiled_new (κ : Key) : NoneFiled κ new := fun x => by
  cases x <;> rfl

theorem NoneFiled.sameView (h : NoneFiled κ s) (hview : SameView κ s s') : NoneFiled κ s' :=
  fun x => (hview.filed x).trans (h x)

theorem NoneFiled.unfiled (h : NoneFiled κ s) (hs : Unfiled f xs s s') : NoneFiled κ s' := by
  intro x
  rw [hs.filed, h x]
  exact ite_self _

theorem NoneFiled.not_mem (h : NoneFiled κ s) {x : Slot} {t : TrackedFilter} (ht : t ∈ s.bucket x) :
    t.parentSubscription ≠ κ := by
  intro hκ
  have hmem : t ∈ s.filed κ x := mem_filed.mpr ⟨ht, hκ⟩
  rw [h x] at hmem
  cases hmem

/-- Nothing is filed that was not filed before. -/
def FilesNothing (s s' : SubscriptionIndex) : Prop := ∀ κ, NoneFiled κ s → NoneFiled κ s'

theorem removeSubscription_filesNothing (order : HashOrder) (κ : Key) :
    (removeSubscription order κ).Every FilesNothing := by
  refine Prog.Every.bind (Prog.every_atomic _ fun _ _ h => h) fun group => ?_
  cases group with
  | none => exact Prog.every_done _
  | some group =>
    refine Prog.Every.bind (Prog.every_atomic _ fun _ _ h => h) fun ids => ?_
    refine Prog.Every.forM (fun id => ?_) _
    refine Prog.Every.bind (Prog.every_atomic _ fun _ _ h => h) fun filter => ?_
    cases filter with
    | none => exact Prog.every_done _
    | some f =>
      exact every_atIndexedField f (fun s _ h => h.unfiled (unfiled_matchAll f s))
        (fun ids s _ h => h.unfiled (unfiled_eventIds f ids s))
        (fun authors s _ h => h.unfiled (unfiled_authors f authors s))
        (fun kinds s _ h => h.unfiled (unfiled_kinds f kinds s))
        fun name values s _ h => h.unfiled (unfiled_tags f name values s)

/-- Whatever is collected was found somewhere. -/
theorem mem_or_mem_of_mem_collect {c fs : List TrackedFilter} {t : TrackedFilter}
    (h : t ∈ collect c fs) : t ∈ c ∨ t ∈ fs := by
  induction fs generalizing c with
  | nil => exact .inl h
  | cons f fs ih =>
    rw [collect_cons] at h
    obtain h | h := ih h
    · split at h
      · exact .inl h
      · obtain h | h := List.mem_append.mp h
        · exact .inl h
        · exact .inr (List.mem_cons.mpr (.inl (List.mem_singleton.mp h)))
    · exact .inr (List.mem_cons_of_mem _ h)

end SubscriptionIndex

open SubscriptionIndex

namespace SubscriptionRegistry

variable {κ : Key} {s s' : SubscriptionRegistry} {scope : Scope}

/-- Nothing is filed for the subscription in any scope. -/
def Vacant (κ : Key) (s : SubscriptionRegistry) : Prop := ∀ scope, NoneFiled κ (s.indexOf scope)

theorem Vacant.setIndex (h : Vacant κ s) {index : SubscriptionIndex} (hindex : NoneFiled κ index) :
    Vacant κ (s.setIndex scope index) := by
  intro scope'
  by_cases hscope : scope' = scope
  · subst hscope
    rwa [indexOf_setIndex]
  · rw [indexOf_setIndex_ne hscope]
    exact h scope'

theorem Vacant.congr (h : Vacant κ s) (hindexes : s'.indexes = s.indexes) : Vacant κ s' := by
  intro scope
  rw [indexOf_congr hindexes]
  exact h scope

theorem Vacant.indexAction {touches : Key → Prop} (h : Vacant κ s)
    (hs : IndexAction scope touches s s') (hκ : ¬ touches κ) : Vacant κ s' :=
  fun scope' => (h scope').sameView (hs.view scope' κ fun _ => hκ)

/-! ### Distributing -/

section

variable {R : SubscriptionRegistry → SubscriptionRegistry → Prop}
  {A : SubscriptionRegistry → Prop} {c : List TrackedFilter}

/-- Unless `A` holds, nothing is filed for `κ` and no filter of it was collected. -/
def NotFound (A : SubscriptionRegistry → Prop) (κ : Key) (c : List TrackedFilter)
    (s : SubscriptionRegistry) : Prop :=
  A s ∨ Vacant κ s ∧ ∀ t ∈ c, t.parentSubscription ≠ κ

/-- What is asked of the other tasks: `A` stays, and before `A` nothing is filed for `κ`. -/
structure FilesAfter (A : SubscriptionRegistry → Prop) (κ : Key)
    (s s' : SubscriptionRegistry) : Prop where
  stays : A s → A s'
  vacant : Vacant κ s → A s' ∨ Vacant κ s'

theorem NotFound.stable (hR : ∀ s s', R s s' → FilesAfter A κ s s') (c : List TrackedFilter) :
    Stable (fun _ => True) R (NotFound A κ c) := by
  rintro s s' hs - (h | ⟨h, hc⟩)
  · exact .inl ((hR s s' hs).stays h)
  · exact ((hR s s' hs).vacant h).imp_right fun h' => ⟨h', hc⟩

/-- One look up. -/
theorem look_triple (hR : ∀ s s', R s s' → FilesAfter A κ s s')
    (hA : ∀ s index, A s → A (s.setIndex scope index)) (l : IndexLock)
    {look : SubscriptionIndex → List TrackedFilter}
    (hlook : ∀ index, NoneFiled κ index → ∀ t ∈ look index, t.parentSubscription ≠ κ)
    (c : List TrackedFilter) :
    Triple (fun _ => True) R (fun _ _ => True) (NotFound A κ c)
      (onIndex scope (.atomic l fun index => (collect c (look index), index)))
      (NotFound A κ) := by
  suffices h : Triple (fun _ => True) R (fun _ _ => True) (NotFound A κ c)
      (Prog.atomic (RegistryLock.index scope l) fun s =>
        (collect c (look (s.indexOf scope)), s.setIndex scope (s.indexOf scope)))
      (NotFound A κ) from h
  refine Triple.atomic (NotFound.stable hR c) (NotFound.stable hR) fun s _ h => ?_
  refine ⟨trivial, trivial, ?_⟩
  obtain h | ⟨h, hc⟩ := h
  · exact .inl (hA s _ h)
  · refine .inr ⟨h.setIndex (h scope), fun t ht => ?_⟩
    obtain ht | ht := mem_or_mem_of_mem_collect ht
    · exact hc t ht
    · exact hlook _ (h scope) t ht

/-- The candidates for an event. -/
theorem getCandidateFilters_vacant (hrefl : ∀ s, R s s)
    (hR : ∀ s s', R s s' → FilesAfter A κ s s')
    (hA : ∀ s index, A s → A (s.setIndex scope index)) (e : Event) :
    Triple (fun _ => True) R (fun _ _ => True) (fun s => A s ∨ Vacant κ s)
      (onIndex scope (getCandidateFilters e)) (NotFound A κ) := by
  have hbucket (x : Slot) : ∀ index, NoneFiled κ index → ∀ t ∈ index.bucket x,
      t.parentSubscription ≠ κ := fun index h t ht => h.not_mem ht
  simp only [getCandidateFilters, Prog.bind_eq, onIndex, Prog.zoom_bind]
  refine Triple.bind hrefl ((look_triple hR hA _ (hbucket .matchAll) []).pre fun s _ h => ?_)
    fun c => Triple.bind hrefl (look_triple hR hA _ (hbucket (.eventId e.id)) c)
    fun c => Triple.bind hrefl (look_triple hR hA _ (hbucket (.author e.pubkey)) c)
    fun c => Triple.bind hrefl (look_triple hR hA _ (hbucket (.kind e.kind)) c)
    fun c => look_triple hR hA _ (fun index h t ht => ?_) c
  · exact h.imp_right fun h => ⟨h, fun _ ht => absurd ht List.not_mem_nil⟩
  · rw [tagCandidates_eq, List.mem_flatMap] at ht
    obtain ⟨x, -, ht⟩ := ht
    exact h.not_mem ht

/-- **A subscription is returned only if something was filed for it.** -/
theorem distributeEvent_vacant (hrefl : ∀ s, R s s) (hR : ∀ s s', R s s' → FilesAfter A κ s s')
    (hA : ∀ s index, A s → A (s.setIndex scope index)) (matchEvent : Filter → Event → Bool)
    (e : Event) :
    Triple (fun _ => True) R (fun _ _ => True) (fun s => A s ∨ Vacant κ s)
      (onIndex scope (distributeEvent matchEvent e)) fun matching s => A s ∨ κ ∉ matching := by
  rw [distributeEvent, Prog.bind_eq, onIndex, Prog.zoom_bind]
  refine Triple.bind hrefl (getCandidateFilters_vacant hrefl hR hA e) fun c s _ h => ?_
  obtain h | ⟨-, hc⟩ := h
  · refine (Prog.ensures_of_always (Prog.always_true _) (fun s s' hs => (hR s s' hs).stays)
      (Prog.every_zoom _ _ _ (fun s index h => hA s index h) _) h).conseq (fun _ _ h => h)
        (fun _ _ _ h => h) fun _ _ _ h => .inl h.2
  · refine (Prog.ensures_of_always (B := fun _ => True)
      (always_checkCandidates_sound.zoom _ _ _) (fun _ _ _ h => h)
      (Prog.every_zoom _ _ _ (fun _ _ h => h) _) trivial).conseq (fun _ _ h => h)
        (fun _ _ _ h => h) fun matching _ _ h => .inr fun hκ => ?_
    obtain ⟨t, ht, hparent, -⟩ := h.1 κ hκ
    exact hc t ht hparent

end

end SubscriptionRegistry

end RelayBuilder
