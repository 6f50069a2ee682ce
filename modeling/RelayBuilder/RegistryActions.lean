import RelayBuilder.RegistryMethods

/-!
# Actions of the registry among others

What the parts of the registry's methods do while other tasks work on the same registry: a program
of an index changes only that index, and there only the subscriptions it works on.

## Main results

* `onIndex_ensures`: a contract of an index is one of the registry
* `removeFromIndex_triple`: the loop that removes subscriptions from an index
-/

namespace RelayBuilder

open Interleave

namespace SubscriptionRegistry

variable {s s' : SubscriptionRegistry} {scope : Scope} {κ : Key} {α : Type}

/-- The index of every scope is well formed. -/
def IndexesWellFormed (s : SubscriptionRegistry) : Prop :=
  ∀ scope, (s.indexOf scope).WellFormed

/-- What every action keeps of the indexes. -/
def IndexesGrow (s s' : SubscriptionRegistry) : Prop :=
  ∀ scope, (s.indexOf scope).Grows (s'.indexOf scope)

theorem IndexesGrow.refl (s : SubscriptionRegistry) : IndexesGrow s s := fun _ => .refl _

theorem IndexesGrow.trans {a b c : SubscriptionRegistry} (h : IndexesGrow a b)
    (h' : IndexesGrow b c) : IndexesGrow a c := fun scope => (h scope).trans (h' scope)

theorem indexOf_congr (h : s'.indexes = s.indexes) (scope : Scope) :
    s'.indexOf scope = s.indexOf scope := by
  rw [indexOf, indexOf, h]

theorem IndexesGrow.of_eq (h : s'.indexes = s.indexes) : IndexesGrow s s' := fun scope => by
  rw [indexOf_congr h]
  exact .refl _

theorem IndexesWellFormed.of_eq (h : s'.indexes = s.indexes) (hwf : IndexesWellFormed s) :
    IndexesWellFormed s' := fun scope => by
  rw [indexOf_congr h]
  exact hwf scope

theorem indexOf_setIndex_ne {scope' : Scope} (h : scope' ≠ scope) (s : SubscriptionRegistry)
    (index : SubscriptionIndex) : (s.setIndex scope index).indexOf scope' = s.indexOf scope' := by
  rw [indexOf, indexOf, setIndex, AList.lookup_insert_ne h]

/-- A change of the index of a scope, at the subscriptions `touches`. -/
structure IndexAction (scope : Scope) (touches : Key → Prop) (s s' : SubscriptionRegistry) :
    Prop where
  rest : s' = { s with indexes := s'.indexes }
  grows : IndexesGrow s s'
  view : ∀ scope' κ, (scope' = scope → ¬ touches κ) →
    SubscriptionIndex.SameView κ (s.indexOf scope') (s'.indexOf scope')

theorem IndexAction.mono {touches touches' : Key → Prop} (h : IndexAction scope touches s s')
    (htouches : ∀ κ, touches κ → touches' κ) : IndexAction scope touches' s s' :=
  ⟨h.rest, h.grows, fun scope' κ hκ => h.view scope' κ fun heq ht => hκ heq (htouches κ ht)⟩

theorem indexAction_setIndex {index : SubscriptionIndex} {touches : Key → Prop}
    (hgrows : (s.indexOf scope).Grows index)
    (hview : ∀ κ, ¬ touches κ → SubscriptionIndex.SameView κ (s.indexOf scope) index) :
    IndexAction scope touches s (s.setIndex scope index) := by
  refine ⟨rfl, fun scope' => ?_, fun scope' κ hκ => ?_⟩
  · by_cases h : scope' = scope
    · subst h
      rwa [indexOf_setIndex]
    · rw [indexOf_setIndex_ne h]
      exact .refl _
  · by_cases h : scope' = scope
    · subst h
      rw [indexOf_setIndex]
      exact hview κ (hκ rfl)
    · rw [indexOf_setIndex_ne h]
      exact .refl _ _

theorem IndexesWellFormed.setIndex (h : IndexesWellFormed s) {index : SubscriptionIndex}
    (hindex : index.WellFormed) : IndexesWellFormed (s.setIndex scope index) := fun scope' => by
  by_cases heq : scope' = scope
  · subst heq
    rwa [indexOf_setIndex]
  · rw [indexOf_setIndex_ne heq]
    exact h scope'

/-- The index is created, if it does not exist. -/
theorem indexAction_create (s : SubscriptionRegistry) (scope : Scope) (touches : Key → Prop) :
    IndexAction scope touches s (s.setIndex scope (s.indexOf scope)) :=
  indexAction_setIndex (.refl _) fun _ _ => .refl _ _

/-- A contract of an index is one of the registry. -/
theorem onIndex_ensures {p : Prog IndexLock SubscriptionIndex α}
    {R : SubscriptionIndex → SubscriptionIndex → Prop}
    {R' : SubscriptionRegistry → SubscriptionRegistry → Prop} {touches drops : Key → Prop}
    {marks : EventId → Prop} {Q : α → SubscriptionIndex → Prop}
    (h : p.Ensures SubscriptionIndex.WellFormed R (SubscriptionIndex.Effect touches drops marks) Q
      (s.indexOf scope))
    (hR : ∀ s s', R' s s' → R (s.indexOf scope) (s'.indexOf scope)) :
    (onIndex scope p).Ensures IndexesWellFormed R' (IndexAction scope touches)
      (fun a s => Q a (s.indexOf scope)) s :=
  h.zoom (fun t index => indexOf_setIndex t scope index)
    (fun _ (hwf : IndexesWellFormed _) => hwf scope) hR fun _ _ hwf hindex heff =>
      ⟨IndexesWellFormed.setIndex hwf hindex, indexAction_setIndex heff.grows heff.view⟩

/-- The other tasks keep the indexes well, and leave alone the given subscriptions of a scope. -/
structure Aside (scope : Scope) (own : Key → Prop) (s s' : SubscriptionRegistry) : Prop where
  grows : IndexesGrow s s'
  view : ∀ κ, own κ → SubscriptionIndex.SameView κ (s.indexOf scope) (s'.indexOf scope)

theorem Aside.refl (scope : Scope) (own : Key → Prop) (s : SubscriptionRegistry) :
    Aside scope own s s :=
  ⟨.refl s, fun _ _ => .refl _ _⟩

theorem Aside.foreign {own : Key → Prop} {owned : Prop} (h : Aside scope own s s')
    (hκ : owned → own κ) : SubscriptionIndex.Foreign κ owned (s.indexOf scope) (s'.indexOf scope) :=
  ⟨h.grows scope, fun ho => h.view κ (hκ ho)⟩

/-- In the loop: what is still to be removed is held, the rest is gone. -/
def Clearing (scope : Scope) (own : Key → Prop) (rest : List Key) (s : SubscriptionRegistry) :
    Prop :=
  ∀ κ, own κ → if κ ∈ rest then ∃ fs, SubscriptionIndex.Holds κ fs (s.indexOf scope)
    else SubscriptionIndex.Absent κ (s.indexOf scope)

theorem Clearing.aside {own : Key → Prop} {rest : List Key} (h : Clearing scope own rest s)
    (hwf : IndexesWellFormed s') (haside : Aside scope own s s') : Clearing scope own rest s' := by
  intro κ hκ
  have hold := h κ hκ
  split
  · rename_i hmem
    rw [if_pos hmem] at hold
    obtain ⟨fs, hfs⟩ := hold
    exact ⟨fs, SubscriptionIndex.Entry.stable (o := some fs) (hwf scope) (haside.grows scope)
      (haside.view κ hκ) hfs⟩
  · rename_i hmem
    rw [if_neg hmem] at hold
    exact SubscriptionIndex.Entry.stable (o := none) (hwf scope) (haside.grows scope)
      (haside.view κ hκ) hold

theorem Aside.mono {own own' : Key → Prop} (h : Aside scope own s s')
    (hown : ∀ κ, own' κ → own κ) : Aside scope own' s s' :=
  ⟨h.grows, fun κ hκ => h.view κ (hown κ hκ)⟩

theorem IndexAction.aside {touches own : Key → Prop} (h : IndexAction scope touches s s')
    (hown : ∀ κ, own κ → ¬ touches κ) : Aside scope own s s' :=
  ⟨h.grows, fun κ hκ => h.view scope κ fun _ => hown κ hκ⟩

/-- One round of the loop. -/
theorem removeOne_triple (order : HashOrder) (scope : Scope) (own : Key → Prop) (κ : Key)
    (rest : List Key) :
    Triple IndexesWellFormed (Aside scope own) (IndexAction scope (· = κ))
      (Clearing scope own (κ :: rest))
      (onIndex scope (SubscriptionIndex.removeSubscription order κ))
      fun _ => Clearing scope own rest := by
  intro s hwf h
  obtain ⟨ts, hts⟩ : ∃ ts, own κ → SubscriptionIndex.Holding κ ts (s.indexOf scope) := by
    by_cases hκ : own κ
    · have hold := h κ hκ
      rw [if_pos (List.mem_cons_self ..)] at hold
      obtain ⟨fs, ts, -, hts⟩ := hold
      exact ⟨ts, fun _ => hts⟩
    · exact ⟨[], fun h => absurd h hκ⟩
  have hremove := onIndex_ensures
    (SubscriptionIndex.removeSubscription_triple κ (own κ) order ts _ (hwf scope) hts)
    fun s s' (haside : Aside scope own s s') => haside.foreign id
  -- the others that are held or gone stay so
  have hother : Clearing scope (fun κ' => own κ' ∧ κ' ≠ κ) rest s := by
    intro κ' ⟨hκ', hne⟩
    have hold := h κ' hκ'
    simpa [hne] using hold
  refine (hremove.frame (A := Clearing scope (fun κ' => own κ' ∧ κ' ≠ κ) rest)
    (fun s s' haside hwf' hc => hc.aside hwf' (haside.mono fun _ h => h.1))
    (fun s s' hwf' haction hc => hc.aside hwf' (haction.aside fun _ h => h.2)) hother).post
    fun _ s' _ ⟨habsent, hc⟩ κ' hκ' => ?_
  by_cases hne : κ' = κ
  · subst hne
    split
    · exact ⟨[], SubscriptionIndex.Absent.holds (habsent hκ')⟩
    · exact habsent hκ'
  · exact hc κ' ⟨hκ', hne⟩

/-- Removing subscriptions from an index, if it exists. -/
theorem removeFromIndex_triple (order : HashOrder) (scope : Scope) (own : Key → Prop)
    (keys : List Key) :
    Triple IndexesWellFormed (Aside scope own) (IndexAction scope (· ∈ keys))
      (Clearing scope own keys) (removeFromIndex order scope keys)
      fun _ => Clearing scope own [] := by
  have hrefl := Aside.refl scope own
  have hstable : ∀ rest, Stable IndexesWellFormed (Aside scope own) (Clearing scope own rest) :=
    fun _ _ _ haside hwf h => h.aside hwf haside
  have hloop : Triple IndexesWellFormed (Aside scope own) (IndexAction scope (· ∈ keys))
      (Clearing scope own keys)
      (keys.forM fun κ => onIndex scope (SubscriptionIndex.removeSubscription order κ))
      fun _ => Clearing scope own [] := by
    refine ((Triple.forM (J := fun rest s => rest ⊆ keys ∧ Clearing scope own rest s) hrefl
      ((stable_const _).and (hstable [])) (fun κ rest s hwf ⟨hsub, h⟩ => ?_) keys).pre
        fun _ _ h => ⟨List.Subset.refl _, h⟩).post fun _ _ _ h => h.2
    refine (removeOne_triple order scope own κ rest s hwf h).conseq (fun _ _ h => h)
      (fun _ _ _ h => h.mono ?_) fun _ _ _ h => ⟨fun _ h => hsub (List.mem_cons_of_mem _ h), h⟩
    rintro _ rfl
    exact hsub (List.mem_cons_self ..)
  refine Triple.bind (M := fun exists_ => Clearing scope own (if exists_ then keys else []))
    hrefl (Triple.atomic (hstable _) (fun _ => hstable _) fun s hwf h =>
      ⟨hwf, ⟨rfl, .refl s, fun _ _ _ => .refl _ _⟩, ?_⟩) fun exists_ => ?_
  · -- an index that does not exist holds nothing
    cases hlookup : s.indexes.lookup scope with
    | some index => exact h
    | none =>
      have hempty : s.indexOf scope = SubscriptionIndex.new := by rw [indexOf, hlookup]; rfl
      show Clearing scope own [] s
      intro κ _
      rw [if_neg List.not_mem_nil, hempty]
      exact SubscriptionIndex.absent_new κ
  cases exists_ with
  | true => exact hloop
  | false => exact Triple.done (Q := fun _ => Clearing scope own []) (hstable [])

end SubscriptionRegistry

end RelayBuilder
