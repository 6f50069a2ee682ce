import RelayBuilder.IndexRuns
import RelayBuilder.Interleave.Contracts
import RelayBuilder.Interleave.Protocol

/-!
# Repeated distribution of an event

A filter and a group remember one event each, the last one they saw. So an event that is
distributed again is returned again once another event was returned in between, and
`redelivered_after_another` says that this is the only way: if a subscription is returned for the
same event by two calls, one after the other, then a call for another event that was under way in
between returns it too.

The proof follows the cell of the subscription's group. A call that returns the subscription first
finds another event in the cell and then writes its own (`Stage`). Once the first of the two calls
has written, the cell keeps its event until a call for another event writes over it.

## Main results

* `redelivered_after_another`
* `redelivered`: the same event can be returned twice
-/

namespace RelayBuilder

open Interleave SubscriptionIndex

/-- How far a call has come with the group of `κ`. -/
inductive Stage where
  | idle
  | passed
  | marked
  deriving DecidableEq

/-- The ghost of a call. -/
structure Visit where
  /-- The event that the call distributes. -/
  event : Option EventId
  stage : Stage
  /-- The group was marked after the first of the two calls had started. -/
  late : Prop
  /-- The call did not start before the first of the two calls. -/
  guarded : Prop
  /-- The call removes `κ`, and has not ended. -/
  removing : Prop

variable {κ : Key} {x : EventId} {i n : ℕ} {γ : List Visit} {s s' : SubscriptionIndex} {v : Visit}

/-- A call for another event has marked the group of `κ` after the first call had started. -/
def Overwritten (x : EventId) (γ : List Visit) : Prop :=
  ∃ (k : ℕ) (v : Visit), γ[k]? = some v ∧ v.stage = .marked ∧ v.late ∧ ∃ y, v.event = some y ∧ y ≠ x

/-- The first call, the `i`-th, has marked the group of `κ` with the event `x`. -/
def FirstMarked (x : EventId) (i : ℕ) (γ : List Visit) : Prop :=
  ∃ w : Visit, γ[i]? = some w ∧ w.stage = .marked ∧ w.event = some x

/-- The invariant. The first call is the `i`-th, and the calls from the `n`-th on start after it
has ended. -/
structure RepeatInv (κ : Key) (x : EventId) (i n : ℕ) (γ : List Visit) (s : SubscriptionIndex) :
    Prop where
  wellFormed : WellFormed s
  first : i < n
  undisturbed : i < γ.length → ∀ (k : ℕ) v, γ[k]? = some v → ¬ v.removing
  guarded : ∀ (k : ℕ) v, γ[k]? = some v → (v.guarded ↔ i ≤ k)
  late : ∀ (k : ℕ) v, γ[k]? = some v → v.late → i < γ.length
  after : ∀ (k : ℕ) v, γ[k]? = some v → n ≤ k → FirstMarked x i γ
  marked : FirstMarked x i γ →
    ∃ g, s.filterGroups.lookup κ = some g ∧ (s.groupSeen g = some x ∨ Overwritten x γ)
  passed : ∀ (k : ℕ) v, γ[k]? = some v → n ≤ k → v.event = some x → v.stage ≠ .idle →
    Overwritten x γ

/-- Nothing was called yet. -/
theorem repeatInv_new (κ : Key) (x : EventId) (hlt : i < n) : RepeatInv κ x i n [] new := by
  refine ⟨wellFormed_new, hlt, fun _ _ _ h => ?_, fun _ _ h => ?_, fun _ _ h => ?_, fun _ _ h => ?_,
    fun ⟨_, h, _⟩ => ?_, fun _ _ h => ?_⟩
  all_goals cases h

/-- The protocol: from the first call on, `κ` keeps its group. -/
def repeatProtocol (κ : Key) (x : EventId) (i n : ℕ) :
    Protocol IndexLock SubscriptionIndex Visit where
  inv := RepeatInv κ x i n
  rely v s s' := Grows s s' ∧
    (v.guarded → ∀ g, s.filterGroups.lookup κ = some g → s'.filterGroups.lookup κ = some g)
  allowed _ _ _ _ := True
  rely_refl _ s := ⟨.refl s, fun _ _ h => h⟩
  rely_trans _ _ _ _ h h' := ⟨h.1.trans h'.1, fun hv g hg => h'.2 hv g (h.2 hv g hg)⟩

/-- A change that takes no group away and writes into no cell of the group of `κ`. -/
theorem RepeatInv.of_quiet (h : RepeatInv κ x i n γ s) (hwf : WellFormed s')
    (hgroup : i < γ.length → ∀ g, s.filterGroups.lookup κ = some g →
      s'.filterGroups.lookup κ = some g)
    (hseen : ∀ g, s.filterGroups.lookup κ = some g → s'.groupSeen g = s.groupSeen g) :
    RepeatInv κ x i n γ s' where
  wellFormed := hwf
  first := h.first
  undisturbed := h.undisturbed
  guarded := h.guarded
  late := h.late
  after := h.after
  marked hfirst := by
    obtain ⟨g, hg, hcell⟩ := h.marked hfirst
    obtain ⟨w, hw, -⟩ := hfirst
    exact ⟨g, hgroup (List.getElem?_eq_some_iff.mp hw).1 g hg, by rwa [hseen g hg]⟩
  passed := h.passed

/-- What every effect that takes no group away means for the others. -/
theorem tolerable_of_effect {touches drops : Key → Prop} {marks : EventId → Prop} {j : ℕ}
    (h : RepeatInv κ x i n γ s) (heff : Effect touches drops marks s s')
    (hdrops : i < γ.length → ¬ drops κ) : (repeatProtocol κ x i n).Tolerable j γ s s' := by
  refine fun k v _ hv => ⟨heff.grows, fun hguarded g hg => heff.group κ g (hdrops ?_) hg⟩
  have hk := (h.guarded k v hv).mp hguarded
  exact Nat.lt_of_le_of_lt hk (List.getElem?_eq_some_iff.mp hv).1

/-! ### Moves of a ghost -/

theorem set_cases {k j : ℕ} {v' w : Visit} (h : (γ.set k v')[j]? = some w) :
    j = k ∧ w = v' ∨ j ≠ k ∧ γ[j]? = some w := by
  by_cases hjk : j = k
  · subst hjk
    have hlt : j < γ.length := by simpa using (List.getElem?_eq_some_iff.mp h).1
    rw [List.getElem?_set_self hlt, Option.some.injEq] at h
    exact .inl ⟨rfl, h.symm⟩
  · rw [List.getElem?_set_ne (Ne.symm hjk)] at h
    exact .inr ⟨hjk, h⟩

/-- A call that had not marked the group is not the witness of anything. -/
theorem Overwritten.set {k : ℕ} (v' : Visit) (hv : γ[k]? = some v) (hstage : v.stage ≠ .marked)
    (h : Overwritten x γ) : Overwritten x (γ.set k v') := by
  obtain ⟨j, w, hw, hmarked, hrest⟩ := h
  have hne : k ≠ j := by
    rintro rfl
    rw [hv, Option.some.injEq] at hw
    exact hstage (hw ▸ hmarked)
  exact ⟨j, w, by rwa [List.getElem?_set_ne hne], hmarked, hrest⟩

theorem FirstMarked.set {k : ℕ} (v' : Visit) (hv : γ[k]? = some v) (hstage : v.stage ≠ .marked)
    (h : FirstMarked x i γ) : FirstMarked x i (γ.set k v') := by
  obtain ⟨w, hw, hmarked, hevent⟩ := h
  have hne : k ≠ i := by
    rintro rfl
    rw [hv, Option.some.injEq] at hw
    exact hstage (hw ▸ hmarked)
  exact ⟨w, by rwa [List.getElem?_set_ne hne], hmarked, hevent⟩

/-- A call that has not marked the group moves its ghost. -/
theorem RepeatInv.move (h : RepeatInv κ x i n γ s) {k : ℕ} {v' : Visit} (hv : γ[k]? = some v)
    (hstage : v.stage ≠ .marked) (hremoving : v'.removing → v.removing)
    (hguarded : v'.guarded ↔ v.guarded) (hlate : v'.late → i < γ.length) (hwf : WellFormed s')
    (hmarked : FirstMarked x i (γ.set k v') → ∃ g, s'.filterGroups.lookup κ = some g ∧
      (s'.groupSeen g = some x ∨ Overwritten x (γ.set k v')))
    (hpassed : n ≤ k → v'.event = some x → v'.stage ≠ .idle → Overwritten x γ) :
    RepeatInv κ x i n (γ.set k v') s' := by
  refine ⟨hwf, h.first, fun hi j w hw => ?_, fun j w hw => ?_, fun j w hw hl => ?_,
    fun j w hw hn => ?_, hmarked, fun j w hw hn hevent hw' => ?_⟩
  · rw [List.length_set] at hi
    rcases set_cases hw with ⟨-, rfl⟩ | ⟨-, hw⟩
    · exact fun hr => h.undisturbed hi k v hv (hremoving hr)
    · exact h.undisturbed hi j w hw
  · rcases set_cases hw with ⟨rfl, rfl⟩ | ⟨-, hw⟩
    · exact hguarded.trans (h.guarded j v hv)
    · exact h.guarded j w hw
  · rw [List.length_set]
    rcases set_cases hw with ⟨-, rfl⟩ | ⟨-, hw⟩
    · exact hlate hl
    · exact h.late j w hw hl
  · rcases set_cases hw with ⟨rfl, -⟩ | ⟨-, hw⟩
    · exact (h.after j v hv hn).set _ hv hstage
    · exact (h.after j w hw hn).set _ hv hstage
  · rcases set_cases hw with ⟨rfl, rfl⟩ | ⟨-, hw⟩
    · exact (hpassed hn hevent hw').set _ hv hstage
    · exact (h.passed j w hw hn hevent hw').set _ hv hstage

/-- A ghost that did not become marked does not mark the group for the first call. -/
theorem FirstMarked.of_set {k : ℕ} {v' : Visit} (hstage : v'.stage ≠ .marked)
    (h : FirstMarked x i (γ.set k v')) : FirstMarked x i γ := by
  obtain ⟨w, hw, hmarked, hevent⟩ := h
  rcases set_cases hw with ⟨-, rfl⟩ | ⟨-, hw⟩
  · exact absurd hmarked hstage
  · exact ⟨w, hw, hmarked, hevent⟩

/-- The check of the group passes: if the call is for the same event and after the first one, the
cell was written over. -/
theorem RepeatInv.pass (h : RepeatInv κ x i n γ s) {k : ℕ} (hv : γ[k]? = some v)
    (hidle : v.stage = .idle)
    (hcell : v.guarded → ∃ g, s.filterGroups.lookup κ = some g ∧ s.groupSeen g ≠ v.event) :
    RepeatInv κ x i n (γ.set k { v with stage := .passed }) s := by
  have hstage : v.stage ≠ .marked := by simp [hidle]
  refine h.move hv hstage id Iff.rfl (h.late k v hv) h.wellFormed (fun hf => ?_)
    fun hn hevent _ => ?_
  · obtain ⟨g, hg, hseen⟩ := h.marked (hf.of_set (by simp))
    exact ⟨g, hg, hseen.imp_right fun ho => ho.set _ hv hstage⟩
  · obtain ⟨g, hg, hseen⟩ := h.marked (h.after k v hv hn)
    have hguarded := (h.guarded k v hv).mpr (Nat.le_trans (Nat.le_of_lt h.first) hn)
    obtain ⟨g', hg', hne⟩ := hcell hguarded
    rw [hg, Option.some.injEq] at hg'
    subst hg'
    exact hseen.resolve_left fun heq => hne (heq.trans hevent.symm)

theorem groupSeen_updateGroup_ne {g g' : GroupRef} {u : FilterGroup → FilterGroup}
    (h : g' ≠ g) : (s.updateGroup g u).groupSeen g' = s.groupSeen g' := by
  simp [groupSeen, updateGroup, h]

theorem groupSeen_markEventSeen {g : GroupRef} {grp : FilterGroup} (hg : s.groups g = some grp)
    (y : EventId) : (s.updateGroup g (·.markEventSeen y)).groupSeen g = some y := by
  simp [groupSeen, updateGroup, hg, FilterGroup.markEventSeen]

/-- The group is marked: a call for another event writes over the cell, one for the same event
does not. -/
theorem RepeatInv.mark (h : RepeatInv κ x i n γ s) {k : ℕ} (hv : γ[k]? = some v)
    (hpassed : v.stage = .passed) {y : EventId} (hevent : v.event = some y) {g : GroupRef}
    (hgroup : v.guarded → s.filterGroups.lookup κ = some g) {grp : FilterGroup}
    (hgrp : s.groups g = some grp) :
    RepeatInv κ x i n (γ.set k { v with stage := .marked, late := i < γ.length })
      (s.updateGroup g (·.markEventSeen y)) := by
  have hstage : v.stage ≠ .marked := by simp [hpassed]
  have hlt : k < γ.length := (List.getElem?_eq_some_iff.mp hv).1
  refine h.move hv hstage id Iff.rfl id (markGroup_step h.wellFormed g y).1 (fun hf => ?_)
    fun hn hx _ => h.passed k v hv hn hx (by simp [hpassed])
  obtain ⟨w, hw, hmarked, hwx⟩ := hf
  rcases set_cases hw with ⟨rfl, rfl⟩ | ⟨-, hw⟩
  · -- the first call itself
    obtain rfl : y = x := Option.some.inj (hevent.symm.trans hwx)
    refine ⟨g, hgroup ((h.guarded i v hv).mpr (Nat.le_refl i)), .inl ?_⟩
    exact groupSeen_markEventSeen hgrp y
  · obtain ⟨g₀, hg₀, hseen⟩ := h.marked ⟨w, hw, hmarked, hwx⟩
    refine ⟨g₀, hg₀, ?_⟩
    by_cases hyx : y = x
    · subst hyx
      refine hseen.imp (fun heq => ?_) fun ho => ho.set _ hv hstage
      by_cases hgg : g₀ = g
      · rw [hgg]
        exact groupSeen_markEventSeen hgrp y
      · rwa [groupSeen_updateGroup_ne hgg]
    · exact .inr ⟨k, _, List.getElem?_set_self hlt, rfl, (List.getElem?_eq_some_iff.mp hw).1,
        y, hevent, hyx⟩

/-- A call joins. -/
theorem RepeatInv.start (h : RepeatInv κ x i n γ s) {v : Visit} (hidle : v.stage = .idle)
    (hremoving : i ≤ γ.length → ¬ v.removing) (hquiet : i = γ.length → ∀ w ∈ γ, ¬ w.removing)
    (hguarded : v.guarded ↔ i ≤ γ.length) (hlate : ¬ v.late)
    (hafter : n ≤ γ.length → FirstMarked x i γ) : RepeatInv κ x i n (γ ++ [v]) s := by
  have hcases : ∀ {j w}, (γ ++ [v])[j]? = some w →
      j = γ.length ∧ w = v ∨ j < γ.length ∧ γ[j]? = some w := by
    intro j w hw
    rcases Nat.lt_or_ge j γ.length with hlt | hge
    · rw [List.getElem?_append_left hlt] at hw
      exact .inr ⟨hlt, hw⟩
    · have hj := (List.getElem?_eq_some_iff.mp hw).1
      rw [List.length_append, List.length_singleton] at hj
      obtain rfl : j = γ.length := by omega
      simp only [List.getElem?_append_right (Nat.le_refl _), Nat.sub_self,
        List.getElem?_cons_zero, Option.some.injEq] at hw
      exact .inl ⟨rfl, hw.symm⟩
  have hmono : ∀ {j : ℕ} {w : Visit}, γ[j]? = some w → (γ ++ [v])[j]? = some w := fun {j w} hw => by
    rw [List.getElem?_append_left (List.getElem?_eq_some_iff.mp hw).1]
    exact hw
  have hfirst : FirstMarked x i γ → FirstMarked x i (γ ++ [v]) := fun ⟨w, hw, hrest⟩ =>
    ⟨w, hmono hw, hrest⟩
  have hover : Overwritten x γ → Overwritten x (γ ++ [v]) := fun ⟨j, w, hw, hrest⟩ =>
    ⟨j, w, hmono hw, hrest⟩
  refine ⟨h.wellFormed, h.first, fun hi j w hw => ?_, fun j w hw => ?_, fun j w hw hl => ?_,
    fun j w hw hn => ?_, fun hf => ?_, fun j w hw hn hevent hstage => ?_⟩
  · rw [List.length_append, List.length_singleton] at hi
    rcases hcases hw with ⟨-, rfl⟩ | ⟨hlt, hw⟩
    · exact hremoving (Nat.le_of_lt_succ hi)
    · rcases Nat.lt_or_eq_of_le (Nat.le_of_lt_succ hi) with hi | hi
      · exact h.undisturbed hi j w hw
      · exact hquiet hi w (List.mem_of_getElem? hw)
  · rcases hcases hw with ⟨rfl, rfl⟩ | ⟨-, hw⟩
    · exact hguarded
    · exact h.guarded j w hw
  · rw [List.length_append]
    rcases hcases hw with ⟨-, rfl⟩ | ⟨-, hw⟩
    · exact absurd hl hlate
    · exact Nat.lt_add_right _ (h.late j w hw hl)
  · rcases hcases hw with ⟨rfl, -⟩ | ⟨-, hw⟩
    · exact hfirst (hafter hn)
    · exact hfirst (h.after j w hw hn)
  · obtain ⟨w, hw, hmarked, hevent⟩ := hf
    rcases hcases hw with ⟨-, rfl⟩ | ⟨-, hw⟩
    · simp [hidle] at hmarked
    · obtain ⟨g, hg, hseen⟩ := h.marked ⟨w, hw, hmarked, hevent⟩
      exact ⟨g, hg, hseen.imp_right hover⟩
  · rcases hcases hw with ⟨-, rfl⟩ | ⟨-, hw⟩
    · exact absurd hidle hstage
    · exact hover (h.passed j w hw hn hevent hstage)

/-! ### The calls -/

/-- The id of the event that a call distributes. -/
def IndexOp.event? : IndexOp → Option EventId
  | .distributeEvent e => some e.id
  | .addSubscription _ _ => none
  | .removeSubscription _ => none

/-- What the ghost of a call says about it. A call that has marked the group of `κ` is bound to
return `κ`. -/
structure Fits (κ : Key) (op : IndexOp) (v : Visit)
    (p : Prog IndexLock SubscriptionIndex (List Key)) : Prop where
  event : v.event = op.event?
  removing : ¬ op.Drops κ → ¬ v.removing
  marked : v.stage = .marked → p.Always (κ ∈ ·)
  ended : ∀ r, p = .done r → ¬ v.removing ∧ (v.event ≠ none → κ ∈ r → v.stage = .marked)

variable {matchEvent : Filter → Event → Bool} {order : HashOrder} {e : Event} {k : ℕ}
  {d : Distribution} {rest : Distribution → Prog IndexLock SubscriptionIndex (List Key)}

/-- What the ghost of `distribute_event` says about its local variables. -/
structure Tracks (κ : Key) (e : Event) (v : Visit) (d : Distribution) : Prop where
  event : v.event = some e.id
  removing : ¬ v.removing
  marked : κ ∈ d.matchingSubscriptions ↔ v.stage = .marked
  checked : v.stage ≠ .idle → κ ∈ d.checkedGroups

theorem Tracks.fits (h : Tracks κ e v d) {l : IndexLock} {r : SubscriptionIndex → Bool}
    {f : SubscriptionIndex → SubscriptionIndex}
    {m : SubscriptionIndex → Prog IndexLock SubscriptionIndex (List Key)}
    (hal : κ ∈ d.matchingSubscriptions → (Prog.act l r f m).Always (κ ∈ ·)) :
    Fits κ (.distributeEvent e) v (.act l r f m) :=
  ⟨h.event, fun _ => h.removing, fun hm => hal (h.marked.mpr hm), fun _ hr => nomatch hr⟩

theorem always_deliverToGroup {groupKey : Key} {g : GroupRef}
    (hd : κ ∈ d.matchingSubscriptions) :
    (deliverToGroup e groupKey g d).Always (κ ∈ ·.matchingSubscriptions) := by
  refine (Prog.always_true _).bind fun hasSeen _ => ?_
  cases hasSeen with
  | true => exact hd
  | false => exact (Prog.always_true _).bind fun _ _ => List.mem_append_left _ hd

theorem always_checkCandidate {f : TrackedFilter} (hd : κ ∈ d.matchingSubscriptions) :
    (checkCandidate matchEvent e d f).Always (κ ∈ ·.matchingSubscriptions) := by
  rw [checkCandidate]
  split
  · exact hd
  refine (Prog.always_true _).bind fun hasSeen _ => ?_
  split
  · exact hd
  split
  · exact hd
  refine (Prog.always_true _).bind fun _ _ => ?_
  dsimp only
  split
  · exact hd
  refine (Prog.always_true _).bind fun group _ => ?_
  cases group with
  | none => exact hd
  | some g => exact always_deliverToGroup hd

/-- What `deliverToGroup` leaves in the local variables when it marks a group. -/
def SubscriptionIndex.Distribution.deliver (d : Distribution) (groupKey : Key) : Distribution :=
  { d with matchingSubscriptions := d.matchingSubscriptions ++ [groupKey] }

/-- The group of `κ` is marked by a call that has found another event in it. -/
theorem safe_markGroup {g : GroupRef} (ht : Tracks κ e { v with stage := .marked } (d.deliver κ))
    (hgroup : ∃ grp, s.groups g = some grp) (hpassed : v.stage = .passed)
    (hlookup : v.guarded → s.filterGroups.lookup κ = some g)
    (hrest : ∀ d v s', Tracks κ e v d → Grows s s' →
      (repeatProtocol κ x i n).Safe k (Fits κ (.distributeEvent e)) (rest d) v s') :
    (repeatProtocol κ x i n).Safe k (Fits κ (.distributeEvent e))
      ((Prog.atomic (.group g) fun s => ((), s.updateGroup g (·.markEventSeen e.id))).bind
        fun _ => rest (d.deliver κ)) v s := by
  refine Protocol.Safe.atomic_bind
    ⟨ht.event, fun _ => ht.removing, fun h => ?_, fun _ h => nomatch h⟩
    fun γ s₁ hγ hR hinv _ => ?_
  · cases hpassed.symm.trans h
  · obtain ⟨grp, hgrp⟩ := hgroup
    obtain ⟨grp₁, hgrp₁, -⟩ := hR.1.groups g grp hgrp
    have heff := (markGroup_step hinv.wellFormed g e.id).2
    refine ⟨_, hinv.mark hγ hpassed ht.event (fun h => hR.2 h g (hlookup h)) hgrp₁,
      tolerable_of_effect hinv heff fun _ => id, ?_⟩
    exact hrest _ _ _ ⟨ht.event, ht.removing, ht.marked, ht.checked⟩ (hR.1.trans heff.grows)

/-- The group of another subscription is marked. -/
theorem safe_markGroup_other {groupKey : Key} {g : GroupRef} (ht : Tracks κ e v d)
    (hne : groupKey ≠ κ) (hgroup : ∃ grp, s.groups g = some grp ∧ grp.key = groupKey)
    (hal : ∀ d, κ ∈ d.matchingSubscriptions → (rest d).Always (κ ∈ ·))
    (hrest : ∀ d v s', Tracks κ e v d → Grows s s' →
      (repeatProtocol κ x i n).Safe k (Fits κ (.distributeEvent e)) (rest d) v s') :
    (repeatProtocol κ x i n).Safe k (Fits κ (.distributeEvent e))
      ((Prog.atomic (.group g) fun s => ((), s.updateGroup g (·.markEventSeen e.id))).bind
        fun _ => rest (d.deliver groupKey)) v s := by
  have hmem : κ ∈ (d.deliver groupKey).matchingSubscriptions ↔ κ ∈ d.matchingSubscriptions := by
    simp [Distribution.deliver, Ne.symm hne]
  refine Protocol.Safe.atomic_bind
    (ht.fits fun hd _ => hal _ (hmem.mpr hd))
    fun γ s₁ hγ hR hinv _ => ?_
  obtain ⟨hwf, heff⟩ := markGroup_step hinv.wellFormed g e.id
  refine ⟨v, ?_, tolerable_of_effect hinv heff fun _ => id, hrest _ v _
    ⟨ht.event, ht.removing, hmem.trans ht.marked, ht.checked⟩ (hR.1.trans heff.grows)⟩
  rw [Protocol.set_of_getElem? hγ]
  refine hinv.of_quiet hwf (fun _ g' hg' => hg') fun g' hg' => groupSeen_updateGroup_ne ?_
  rintro rfl
  obtain ⟨grp, hgrp, rfl⟩ := hgroup
  obtain ⟨grp₁, hgrp₁, hkey₁⟩ := hR.1.groups g' grp hgrp
  obtain ⟨grp₂, hgrp₂, hkey₂⟩ := hinv.wellFormed.group κ g' hg'
  rw [hgrp₁, Option.some.injEq] at hgrp₂
  exact hne (hkey₁.symm.trans (hgrp₂ ▸ hkey₂))

/-- A call looks at the group of its candidate. -/
theorem safe_deliverToGroup {groupKey : Key} {g : GroupRef} (ht : Tracks κ e v d)
    (hidle : groupKey = κ → v.stage = .idle) (hchecked : groupKey ∈ d.checkedGroups)
    (hgroup : ∃ grp, s.groups g = some grp ∧ grp.key = groupKey)
    (hlookup : groupKey = κ → v.guarded → s.filterGroups.lookup κ = some g)
    (hal : ∀ d, κ ∈ d.matchingSubscriptions → (rest d).Always (κ ∈ ·))
    (hrest : ∀ d v s', Tracks κ e v d → Grows s s' →
      (repeatProtocol κ x i n).Safe k (Fits κ (.distributeEvent e)) (rest d) v s') :
    (repeatProtocol κ x i n).Safe k (Fits κ (.distributeEvent e))
      ((deliverToGroup e groupKey g d).bind rest) v s := by
  have hbound : κ ∈ d.matchingSubscriptions →
      ((deliverToGroup e groupKey g d).bind rest).Always _ :=
    fun hd => (always_deliverToGroup hd).bind hal
  rw [deliverToGroup, Prog.bind_eq, Prog.bind_assoc] at hbound ⊢
  refine Protocol.Safe.atomic_bind (ht.fits hbound) fun γ s₁ hγ hR hinv _ => ?_
  obtain ⟨grp, hgrp, hkey⟩ := hgroup
  obtain ⟨grp₁, hgrp₁, hkey₁⟩ := hR.1.groups g grp hgrp
  have htol : (repeatProtocol κ x i n).Tolerable k γ s₁ s₁ :=
    fun _ _ _ _ => Protocol.rely_refl _ _ _
  cases hseen : (s₁.groups g).any (·.hasSeenEvent e.id) with
  | true => exact ⟨v, by rwa [Protocol.set_of_getElem? hγ], htol, hrest d v s₁ ht hR.1⟩
  | false =>
    by_cases hκ : groupKey = κ
    · subst hκ
      have hcell : s₁.groupSeen g ≠ some e.id := by
        simpa [groupSeen, hgrp₁, FilterGroup.hasSeenEvent] using hseen
      have hlook : v.guarded → s₁.filterGroups.lookup groupKey = some g := fun h =>
        hR.2 h g (hlookup rfl h)
      refine ⟨{ v with stage := .passed }, hinv.pass hγ (hidle rfl) fun h =>
        ⟨g, hlook h, by rwa [ht.event]⟩, htol, ?_⟩
      exact safe_markGroup
        ⟨ht.event, ht.removing, by simp [Distribution.deliver], fun _ => hchecked⟩
        ⟨grp₁, hgrp₁⟩ rfl hlook
        fun d v s' ht hg => hrest d v s' ht (hR.1.trans hg)
    · refine ⟨v, by rwa [Protocol.set_of_getElem? hγ], htol, ?_⟩
      exact safe_markGroup_other ht hκ ⟨grp₁, hgrp₁, hkey₁.trans hkey⟩ hal
        fun d v s' ht hg => hrest d v s' ht (hR.1.trans hg)

/-- A call checks a candidate. -/
theorem safe_checkCandidate {f : TrackedFilter} (ht : Tracks κ e v d)
    (hf : s.filters f.id = some f)
    (hal : ∀ d, κ ∈ d.matchingSubscriptions → (rest d).Always (κ ∈ ·))
    (hrest : ∀ d v s', Tracks κ e v d → Grows s s' →
      (repeatProtocol κ x i n).Safe k (Fits κ (.distributeEvent e)) (rest d) v s') :
    (repeatProtocol κ x i n).Safe k (Fits κ (.distributeEvent e))
      ((checkCandidate matchEvent e d f).bind rest) v s := by
  have hbound : κ ∈ d.matchingSubscriptions →
      ((checkCandidate matchEvent e d f).bind rest).Always _ :=
    fun hd => (always_checkCandidate hd).bind hal
  have htol : ∀ {γ} s, (repeatProtocol κ x i n).Tolerable k γ s s := fun _ _ _ _ _ =>
    Protocol.rely_refl _ _ _
  have hstay : ∀ {γ s}, γ[k]? = some v → (repeatProtocol κ x i n).inv γ s →
      (repeatProtocol κ x i n).inv (γ.set k v) s := fun hγ hinv => by
    rwa [Protocol.set_of_getElem? hγ]
  rw [checkCandidate] at hbound ⊢
  by_cases hchecked : f.id ∈ d.checkedFilters
  · rw [if_pos hchecked]
    exact hrest d v s ht (.refl s)
  rw [if_neg hchecked, Prog.bind_eq, Prog.bind_assoc] at hbound ⊢
  refine Protocol.Safe.atomic_bind (ht.fits hbound) fun γ s₁ hγ hR hinv _ =>
    ⟨v, hstay hγ hinv, htol s₁, ?_⟩
  replace hbound := fun hd => hbound hd s₁
  by_cases hseen : s₁.filterHasSeen f.id e.id = true
  · simp only [if_pos hseen]
    exact hrest _ v s₁ ⟨ht.event, ht.removing, ht.marked, ht.checked⟩ hR.1
  by_cases hmatch : matchEvent f.filter e = false
  · simp only [if_neg hseen, if_pos hmatch]
    exact hrest _ v s₁ ⟨ht.event, ht.removing, ht.marked, ht.checked⟩ hR.1
  simp only [if_neg hseen, if_neg hmatch, Prog.bind_eq, Prog.bind_assoc,
    Prog.done_bind] at hbound ⊢
  refine Protocol.Safe.atomic_bind (ht.fits hbound) fun γ₂ s₂ hγ₂ hR₂ hinv₂ _ => ?_
  have hgrows₂ := hR.1.trans hR₂.1
  obtain ⟨hwf, heff⟩ := markFilter_step hinv₂.wellFormed (hgrows₂.filters _ _ hf) e.id
  refine ⟨v, hstay hγ₂ (hinv₂.of_quiet hwf (fun _ _ h => h) fun _ _ => rfl),
    tolerable_of_effect hinv₂ heff fun _ => id, ?_⟩
  replace hbound := fun hd => hbound hd s₂
  by_cases hgroups : f.parentSubscription ∈ d.checkedGroups
  · simp only [if_pos hgroups]
    exact hrest _ v _ ⟨ht.event, ht.removing, ht.marked, ht.checked⟩ (hgrows₂.trans heff.grows)
  simp only [if_neg hgroups, Prog.bind_assoc, Prog.done_bind] at hbound ⊢
  have ht' : Tracks κ e v
      { d with
        checkedFilters := d.checkedFilters ++ [f.id]
        checkedGroups := d.checkedGroups ++ [f.parentSubscription] } :=
    ⟨ht.event, ht.removing, ht.marked, fun h => List.mem_append_left _ (ht.checked h)⟩
  refine Protocol.Safe.atomic_bind (ht.fits hbound) fun γ₃ s₃ hγ₃ hR₃ hinv₃ _ =>
    ⟨v, hstay hγ₃ hinv₃, htol s₃, ?_⟩
  have hgrows₃ := (hgrows₂.trans heff.grows).trans hR₃.1
  cases hlookup : s₃.filterGroups.lookup f.parentSubscription with
  | none => exact hrest _ v s₃ ht' hgrows₃
  | some g =>
    refine safe_deliverToGroup ht' (fun hκ => ?_) (List.mem_append_right _ (by simp))
      (hinv₃.wellFormed.group _ g hlookup) (fun hκ _ => hκ ▸ hlookup) hal
      fun d' v' s' ht' hgrows => hrest d' v' s' ht' (hgrows₃.trans hgrows)
    by_contra hstage
    exact hgroups (hκ ▸ ht.checked hstage)

theorem safe_candidates (candidates : List TrackedFilter) (ht : Tracks κ e v d)
    (hc : ∀ t ∈ candidates, s.filters t.id = some t) :
    (repeatProtocol κ x i n).Safe k (Fits κ (.distributeEvent e))
      ((candidates.foldlM (checkCandidate matchEvent e) d).bind fun d =>
        .done d.matchingSubscriptions) v s := by
  induction candidates generalizing d v s with
  | nil =>
    refine Protocol.Safe.done fun γ s' hγ _ hinv => ⟨v, ?_, ht.event, fun _ => ht.removing,
      ht.marked.mpr, fun r hr => ⟨ht.removing, fun _ h => ?_⟩⟩
    · rwa [Protocol.set_of_getElem? hγ]
    · cases hr
      exact ht.marked.mp h
  | cons t rest ih =>
    rw [List.foldlM_cons, Prog.bind_eq, Prog.bind_assoc]
    refine safe_checkCandidate ht (hc t (List.mem_cons_self ..)) (fun d hd => ?_)
      fun d v s' ht hgrows => ih ht fun t' ht' =>
        hgrows.filters _ _ (hc t' (List.mem_cons_of_mem _ ht'))
    have hbound := Prog.Always.foldlM (f := checkCandidate matchEvent e) rest hd
      fun _ hd _ _ => always_checkCandidate hd
    exact hbound.bind fun _ => id

/-- A call that distributes an event joins the protocol. -/
theorem safe_distributeEvent (hidle : v.stage = .idle) (hevent : v.event = some e.id)
    (hremoving : ¬ v.removing) (hwf : WellFormed s) :
    (repeatProtocol κ x i n).Safe k (Fits κ (.distributeEvent e))
      ((IndexOp.distributeEvent e).code matchEvent order) v s := by
  have hstage : v.stage ≠ .marked := by simp [hidle]
  have hcandidates := getCandidateFilters_triple κ e.id False [] nothing e s hwf fun h => h.elim
  refine Protocol.Safe.bind_ensures hcandidates (Other.refl _ _ _) hwf (fun _ _ _ h => h.wellFormed)
    (fun _ _ h => ⟨⟨h.1, fun h => h.elim⟩, fun h => h.elim⟩) (fun γ s₁ s₂ hγ hinv hwf' heff => ?_)
    (fun _ _ _ _ => ⟨hevent, fun _ => hremoving, fun h => absurd h hstage, fun _ h => nomatch h⟩)
    fun c s' hwf' hc => ?_
  · refine ⟨hinv.of_quiet hwf' (fun _ g hg => heff.group κ g id hg) fun g _ => ?_,
      tolerable_of_effect hinv heff fun _ => id⟩
    exact (heff.groupSeen g).resolve_right fun ⟨_, h, _⟩ => h
  · exact safe_candidates c ⟨hevent, hremoving, by simp [Distribution.new, hidle],
      fun h => absurd hidle h⟩ hc.2.1

/-- A call that adds or removes a subscription joins the protocol. -/
theorem safe_of_event_none {op : IndexOp} (hop : op.event? = none) (hidle : v.stage = .idle)
    (hevent : v.event = op.event?) (hremoving : v.removing ↔ op.Drops κ) (hwf : WellFormed s) :
    (repeatProtocol κ x i n).Safe k (Fits κ op) (op.code matchEvent order) v s := by
  have hstage : v.stage ≠ .marked := by simp [hidle]
  have hmarks : ∀ y, ¬ op.Marks y := by
    intro y hy
    cases op with
    | distributeEvent e => cases hop
    | _ => exact hy
  rw [← Prog.bind_done (op.code matchEvent order)]
  refine Protocol.Safe.bind_ensures (IndexOp.effect_triple op s hwf trivial) Grows.refl hwf
    (fun _ _ _ h => h.wellFormed) (fun _ _ h => h.1) (fun γ s₁ s₂ hγ hinv hwf' heff => ?_)
    (fun _ _ _ _ => ⟨hevent, fun h => mt hremoving.mp h, fun h => absurd h hstage,
      fun _ h => nomatch h⟩) fun r s' _ _ => Protocol.Safe.done fun γ s₁ hγ _ hinv => ?_
  · have hdrops : i < γ.length → ¬ op.Drops κ := fun hi h =>
      hinv.undisturbed hi k v hγ (hremoving.mpr h)
    refine ⟨hinv.of_quiet hwf' (fun hi g hg => heff.group κ g (hdrops hi) hg) fun g _ => ?_,
      tolerable_of_effect hinv heff hdrops⟩
    exact (heff.groupSeen g).resolve_right fun ⟨y, hy, _⟩ => hmarks y hy
  · have hstage' : ({ v with removing := False } : Visit).stage ≠ .marked := hstage
    refine ⟨{ v with removing := False }, hinv.move hγ hstage False.elim Iff.rfl (hinv.late k v hγ)
      hinv.wellFormed (fun hf => ?_) fun _ _ h => absurd hidle h, hevent, fun _ => id,
      fun h => absurd h hstage, fun _ _ => ⟨id, fun h => absurd (hevent.trans hop) h⟩⟩
    obtain ⟨g, hg, hseen⟩ := hinv.marked (hf.of_set hstage')
    exact ⟨g, hg, hseen.imp_right fun ho => ho.set _ hγ hstage⟩

/-! ### Runs -/

instance (op : IndexOp) (κ : Key) : Decidable (op.Drops κ) :=
  match op with
  | .addSubscription _ _ => inferInstanceAs (Decidable False)
  | .removeSubscription κ' => inferInstanceAs (Decidable (κ = κ'))
  | .distributeEvent _ => inferInstanceAs (Decidable False)

/-- From the start of the `i`-th call on, no call that removes `κ` is under way. -/
def undisturbed (κ : Key) (i : ℕ) (c : Config IndexOp IndexLock SubscriptionIndex (List Key)) :
    Move IndexOp → Prop
  | .start op => i ≤ c.calls.length → ¬ op.Drops κ ∧
    ∀ call ∈ c.calls, call.op.Drops κ → call.result?.isSome
  | .step _ => True

instance (κ : Key) (i : ℕ) (c : Config IndexOp IndexLock SubscriptionIndex (List Key))
    (m : Move IndexOp) : Decidable (undisturbed κ i c m) :=
  match m with
  | .start op => inferInstanceAs (Decidable (i ≤ c.calls.length → ¬ op.Drops κ ∧
    ∀ call ∈ c.calls, call.op.Drops κ → call.result?.isSome))
  | .step _ => inferInstanceAs (Decidable True)

/-- Every call that starts joins the protocol. -/
theorem join_repeatProtocol {c : Config IndexOp IndexLock SubscriptionIndex (List Key)}
    (h : (repeatProtocol κ x i n).Holds (Fits κ) c γ) {op : IndexOp}
    (hok : undisturbed κ i c (.start op)) (hafter : n ≤ γ.length → FirstMarked x i γ) :
    ∃ v, (repeatProtocol κ x i n).inv (γ ++ [v]) c.state ∧
      (repeatProtocol κ x i n).Safe c.calls.length (Fits κ op) (op.code matchEvent order) v
        c.state := by
  have hinv : RepeatInv κ x i n γ c.state := h.inv
  let v : Visit := ⟨op.event?, .idle, False, i ≤ γ.length, op.Drops κ⟩
  refine ⟨v, hinv.start (v := v) rfl (fun hi => ?_) (fun hi w hw => ?_) Iff.rfl id hafter, ?_⟩
  · exact (hok (h.length ▸ hi)).1
  · obtain ⟨j, hj⟩ := List.mem_iff_getElem?.mp hw
    obtain ⟨call, hcall, hfits⟩ := h.call hj
    by_cases hdrops : call.op.Drops κ
    · have hended := (hok (by rw [hi, h.length])).2 call (List.mem_of_getElem? hcall) hdrops
      obtain ⟨op', p⟩ := call
      cases p with
      | done r => exact (hfits.ended r rfl).1
      | act => cases hended
    · exact hfits.removing hdrops
  · cases op with
    | distributeEvent e => exact safe_distributeEvent rfl rfl id hinv.wellFormed
    | addSubscription κ' fs =>
      exact safe_of_event_none rfl rfl rfl Iff.rfl hinv.wellFormed
    | removeSubscription κ' =>
      exact safe_of_event_none rfl rfl rfl Iff.rfl hinv.wellFormed

/-- The ghosts of a run that starts no call as the `n`-th or later, or only after the first call
has returned `κ`. -/
theorem holds_repeatProtocol {c c' : Config IndexOp IndexLock SubscriptionIndex (List Key)}
    {ok : Config IndexOp IndexLock SubscriptionIndex (List Key) → Move IndexOp → Prop}
    (h : (repeatProtocol κ x i n).Holds (Fits κ) c γ)
    (hrun : Run (fun _ => IndexOp.code matchEvent order) ok c c')
    (hok : ∀ c m, ok c m → undisturbed κ i c m)
    (hafter : ∀ c op γ, (repeatProtocol κ x i n).Holds (Fits κ) c γ → ok c (.start op) →
      n ≤ γ.length → FirstMarked x i γ) :
    ∃ γ', (repeatProtocol κ x i n).Holds (Fits κ) c' γ' ∧
      ∀ (k : ℕ) call, c.calls[k]? = some call → call.result? ≠ none → γ'[k]? = γ[k]? :=
  h.run hrun (fun c γ op h' hstart => join_repeatProtocol h' (hok c _ hstart)
    (hafter c op γ h' hstart)) fun _ _ _ _ _ _ _ => trivial

/-- **At most once, up to one event.** No call returns a subscription twice. If two calls, one after
the other, return `κ` for the same event and `κ` was not removed meanwhile, then a call for another
event that had not ended when the first one started returns `κ` too, or is bound to. -/
theorem redelivered_after_another (matchEvent : Filter → Event → Bool) (order : HashOrder) :
    (∀ c, Run (fun _ => IndexOp.code matchEvent order) anyMove (Config.initial new) c →
      ∀ i op r, c.Returned i op r → r.Nodup) ∧
    ∀ κ c₀ c₁ c₂ e e' r r' j,
      Run (fun _ => IndexOp.code matchEvent order) (undisturbed κ c₀.calls.length)
        (Config.initial new) c₀ →
      Run (fun _ => IndexOp.code matchEvent order) (undisturbed κ c₀.calls.length) c₀ c₁ →
      c₁.Returned c₀.calls.length (.distributeEvent e) r → κ ∈ r →
      Run (fun _ => IndexOp.code matchEvent order) (undisturbed κ c₀.calls.length) c₁ c₂ →
      c₁.calls.length ≤ j → c₂.Returned j (.distributeEvent e') r' → κ ∈ r' → e'.id = e.id →
      ∃ (m : ℕ) (call : Call IndexOp IndexLock SubscriptionIndex (List Key)) (e'' : Event),
        c₂.calls[m]? = some call ∧ call.op = .distributeEvent e'' ∧ e''.id ≠ e.id ∧
          call.prog.Always (κ ∈ ·) ∧ ∀ call₀, c₀.calls[m]? = some call₀ → call₀.result? = none := by
  refine ⟨fun c hrun => (run_of_triples (A := fun _ r => r.Nodup) Grows.refl
    (fun _ _ _ => Grows.trans) (fun op _ _ h => h.grows) (fun _ op => IndexOp.effect_triple op)
    wellFormed_new hrun).2.1, ?_⟩
  intro κ c₀ c₁ c₂ e e' r r' j h₀ h₁ hr hκ h₂ hj hr' hκ' hid
  have hlt : c₀.calls.length < c₁.calls.length := (List.getElem?_eq_some_iff.mp hr).1
  have hinitial : (repeatProtocol κ e.id c₀.calls.length c₁.calls.length).Holds (Fits κ)
      (Config.initial new : Config IndexOp IndexLock SubscriptionIndex (List Key)) [] :=
    Protocol.Holds.initial (repeatInv_new κ e.id hlt)
  -- up to `c₁` no later call has started
  have hbefore : ∀ (c : Config IndexOp IndexLock SubscriptionIndex (List Key)) (op : IndexOp) γ,
      (repeatProtocol κ e.id c₀.calls.length c₁.calls.length).Holds (Fits κ) c γ →
      undisturbed κ c₀.calls.length c (.start op) ∧
        (∀ op', Move.start op = .start op' → c.calls.length < c₁.calls.length) →
      c₁.calls.length ≤ γ.length → FirstMarked e.id c₀.calls.length γ := fun c op γ h hok hle =>
    absurd (hok.2 op rfl) (by rw [← h.length]; exact Nat.not_lt.mpr hle)
  obtain ⟨γ₀, hγ₀, -⟩ := holds_repeatProtocol hinitial (h₀.before (Nat.le_of_lt hlt))
    (fun _ _ h => h.1) hbefore
  obtain ⟨γ₁, hγ₁, hkeep₁⟩ := holds_repeatProtocol hγ₀ (h₁.before (Nat.le_refl _))
    (fun _ _ h => h.1) hbefore
  -- afterwards the first call has returned `κ`
  obtain ⟨hrun₂, hr₂⟩ := h₂.along
    (A := fun c => c.Returned c₀.calls.length (IndexOp.distributeEvent e) r)
    hr fun c m c' h hn => Config.ended_of_next hn h (by simp [Call.result?])
  have hmarked : ∀ (c : Config IndexOp IndexLock SubscriptionIndex (List Key)) γ,
      (repeatProtocol κ e.id c₀.calls.length c₁.calls.length).Holds (Fits κ) c γ →
      c.Returned c₀.calls.length (.distributeEvent e) r → FirstMarked e.id c₀.calls.length γ := by
    intro c γ h hret
    obtain ⟨w, hw, hfits⟩ := h.ghost hret
    exact ⟨w, hw, (hfits.ended r rfl).2 (by simp [hfits.event, IndexOp.event?]) hκ, hfits.event⟩
  obtain ⟨γ₂, hγ₂, hkeep₂⟩ := holds_repeatProtocol hγ₁ hrun₂ (fun _ _ h => h.1)
    fun c op γ h hok _ => hmarked c γ h hok.2
  obtain ⟨w, hw, hfits⟩ := hγ₂.ghost hr'
  have hstage := (hfits.ended r' rfl).2 (by simp [hfits.event, IndexOp.event?]) hκ'
  have hinv : RepeatInv κ e.id c₀.calls.length c₁.calls.length γ₂ c₂.state := hγ₂.inv
  obtain ⟨m, u, hu, humarked, hlate, y, hy, hne⟩ := hinv.passed j w hw hj
    (hfits.event.trans (congrArg some hid)) (by simp [hstage])
  obtain ⟨call, hcall, hcallfits⟩ := hγ₂.call hu
  obtain ⟨e'', hop, hid''⟩ : ∃ e'', call.op = .distributeEvent e'' ∧ e''.id = y := by
    have hevent := hcallfits.event.symm.trans hy
    cases hop : call.op with
    | distributeEvent e'' => exact ⟨e'', rfl, by simpa [hop, IndexOp.event?] using hevent⟩
    | _ => simp [hop, IndexOp.event?] at hevent
  refine ⟨m, call, e'', hcall, hop, hid'' ▸ hne, hcallfits.marked humarked, fun call₀ h => ?_⟩
  by_contra hended
  have hu₀ : γ₀[m]? = some u := by
    rw [← hkeep₁ m call₀ h hended, ← hkeep₂ m call₀ (h₁.ended h hended) hended, hu]
  have hinv₀ : RepeatInv κ e.id c₀.calls.length c₁.calls.length γ₀ c₀.state := hγ₀.inv
  exact absurd (hinv₀.late m u hu₀ hlate) (by rw [hγ₀.length]; exact Nat.lt_irrefl _)

/-- The same event is returned again after another event was. -/
theorem redelivered_after_another_note :
    ∃ c₀ c₁ c₂ : Config IndexOp IndexLock SubscriptionIndex (List Key),
      (Config.initial new).play (fun _ => IndexOp.code Filter.matchEvent .insertion)
        (undisturbed ("alice", "feed") 1)
        (callAlone (.addSubscription ("alice", "feed") [Filter.new]) 0 5) = some c₀ ∧
      c₀.play (fun _ => IndexOp.code Filter.matchEvent .insertion)
        (undisturbed ("alice", "feed") 1)
        (callAlone (.distributeEvent (Event.note 1)) 1 10) = some c₁ ∧
      c₁.play (fun _ => IndexOp.code Filter.matchEvent .insertion)
        (undisturbed ("alice", "feed") 1)
        [callAlone (.distributeEvent (Event.note 2)) 2 10,
          callAlone (.distributeEvent (Event.note 1)) 3 10].flatten = some c₂ ∧
      (∀ i op r, c₂.Returned i op r → r.Nodup) ∧
      ∃ (m : ℕ) (call : Call IndexOp IndexLock SubscriptionIndex (List Key)) (e'' : Event),
        c₂.calls[m]? = some call ∧ call.op = .distributeEvent e'' ∧ e''.id ≠ (Event.note 1).id ∧
          call.prog.Always (("alice", "feed") ∈ ·) ∧
          ∀ call₀, c₀.calls[m]? = some call₀ → call₀.result? = none := by
  obtain ⟨c₀, c₁, c₂, h₀, hlen₀, h₁, hr₁, hlen₁, h₂, hr₂⟩ :
      ∃ c₀ c₁ c₂ : Config IndexOp IndexLock SubscriptionIndex (List Key),
      (Config.initial new).play (fun _ => IndexOp.code Filter.matchEvent .insertion)
        (undisturbed ("alice", "feed") 1)
        (callAlone (.addSubscription ("alice", "feed") [Filter.new]) 0 5) = some c₀ ∧
      c₀.calls.length = 1 ∧
      c₀.play (fun _ => IndexOp.code Filter.matchEvent .insertion)
        (undisturbed ("alice", "feed") 1)
        (callAlone (.distributeEvent (Event.note 1)) 1 10) = some c₁ ∧
      c₁.Returned 1 (.distributeEvent (Event.note 1)) [("alice", "feed")] ∧
      c₁.calls.length = 2 ∧
      c₁.play (fun _ => IndexOp.code Filter.matchEvent .insertion)
        (undisturbed ("alice", "feed") 1)
        [callAlone (.distributeEvent (Event.note 2)) 2 10,
          callAlone (.distributeEvent (Event.note 1)) 3 10].flatten = some c₂ ∧
      c₂.Returned 3 (.distributeEvent (Event.note 1)) [("alice", "feed")] :=
    ⟨_, _, _, rfl, rfl, rfl, rfl, rfl, rfl, rfl⟩
  have hrun₀ := Config.run_of_play h₀
  have hrun₁ := Config.run_of_play h₁
  have hrun₂ := Config.run_of_play h₂
  refine ⟨c₀, c₁, c₂, h₀, h₁, h₂, ?_, ?_⟩
  · exact (redelivered_after_another Filter.matchEvent .insertion).1 c₂
      (((hrun₀.trans hrun₁).trans hrun₂).mono fun _ _ _ => trivial)
  · rw [← hlen₀] at hrun₀ hrun₁ hrun₂ hr₁
    exact (redelivered_after_another Filter.matchEvent .insertion).2 ("alice", "feed") c₀ c₁ c₂
      (Event.note 1) (Event.note 1) _ _ 3 hrun₀ hrun₁ hr₁ (List.mem_singleton_self _) hrun₂
      (hlen₁ ▸ by decide) hr₂ (List.mem_singleton_self _) rfl

/-- The same event can be returned twice: by a call after another event was returned in between,
and by two calls that overlap. -/
theorem redelivered :
    (∃ s, Prog.runCalls (IndexOp.code Filter.matchEvent .insertion)
      [.addSubscription ("alice", "feed") [Filter.new], .distributeEvent (Event.note 1),
        .distributeEvent (Event.note 2), .distributeEvent (Event.note 1)] new =
      some ([[], [("alice", "feed")], [("alice", "feed")], [("alice", "feed")]], s)) ∧
    ∃ c, (Config.initial new).play (fun _ => IndexOp.code Filter.matchEvent .insertion) anyMove
        [callAlone (.addSubscription ("alice", "feed") [Filter.new]) 0 5,
          [.start (.distributeEvent (Event.note 1)), .start (.distributeEvent (Event.note 1))],
          (List.replicate 10 [.step 1, .step 2]).flatten].flatten = some c ∧
      c.Returned 1 (.distributeEvent (Event.note 1)) [("alice", "feed")] ∧
      c.Returned 2 (.distributeEvent (Event.note 1)) [("alice", "feed")] :=
  ⟨⟨_, rfl⟩, _, rfl, rfl, rfl⟩

end RelayBuilder
