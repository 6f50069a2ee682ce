import Mathlib.Data.List.Induction
import RelayBuilder.IndexContents
import RelayBuilder.Interleave.Exclusive

/-!
# Runs of the index

What `distribute_event` returns, in terms of the calls made before it. `filtersAfter κ` is the
specification of the index for one subscription: the filters that the calls so far have left it
with.

## Main results

* `distributeEvent_returns_matching`: one call after another, the index returns exactly the
  subscriptions that own a matching filter
* `distributeEvent_concurrent`: the same for one subscription in any interleaving, when no other
  call on it overlaps and no other call distributes the same event
-/

namespace RelayBuilder

open Interleave SubscriptionIndex

namespace IndexOp

/-- The calls that add to or remove from a subscription. -/
def Touches : IndexOp → Key → Prop
  | .addSubscription κ' _, κ => κ = κ'
  | .removeSubscription κ', κ => κ = κ'
  | .distributeEvent _, _ => False

/-- The calls that remove a subscription. -/
def Drops : IndexOp → Key → Prop
  | .removeSubscription κ', κ => κ = κ'
  | _, _ => False

/-- The calls that distribute an event with this id. -/
def Marks : IndexOp → EventId → Prop
  | .distributeEvent e, x => x = e.id
  | _, _ => False

instance (op : IndexOp) (κ : Key) : Decidable (op.Touches κ) :=
  match op with
  | .addSubscription κ' _ => inferInstanceAs (Decidable (κ = κ'))
  | .removeSubscription κ' => inferInstanceAs (Decidable (κ = κ'))
  | .distributeEvent _ => inferInstanceAs (Decidable False)

instance (op : IndexOp) (x : EventId) : Decidable (op.Marks x) :=
  match op with
  | .distributeEvent e => inferInstanceAs (Decidable (x = e.id))
  | .addSubscription _ _ => inferInstanceAs (Decidable False)
  | .removeSubscription _ => inferInstanceAs (Decidable False)

/-- What a call does to the filters of `κ`. -/
def applyTo (κ : Key) : IndexOp → List Filter → List Filter
  | .addSubscription κ' filters, fs => if κ = κ' then fs ++ filters else fs
  | .removeSubscription κ', fs => if κ = κ' then [] else fs
  | .distributeEvent _, fs => fs

theorem applyTo_of_not_touches {κ : Key} {op : IndexOp} (h : ¬ op.Touches κ) (fs : List Filter) :
    op.applyTo κ fs = fs := by
  cases op with
  | addSubscription κ' filters => exact if_neg h
  | removeSubscription κ' => exact if_neg h
  | distributeEvent e => rfl

end IndexOp

/-- The filters of `κ` after the given calls on a fresh index. -/
def filtersAfter (κ : Key) (ops : List IndexOp) : List Filter :=
  ops.foldl (fun fs op => op.applyTo κ fs) []

theorem filtersAfter_append (κ : Key) (ops : List IndexOp) (op : IndexOp) :
    filtersAfter κ (ops ++ [op]) = op.applyTo κ (filtersAfter κ ops) := by
  simp [filtersAfter]

variable {matchEvent : Filter → Event → Bool} {order : HashOrder} {κ : Key} {x : EventId}
  {fs : List Filter}

namespace IndexOp

/-- **What a call changes**, whatever the other calls do: only what belongs to its subscription, and
it marks only its event. -/
theorem effect_triple (op : IndexOp) :
    Triple WellFormed Grows (Effect op.Touches op.Drops op.Marks) (fun _ => True)
      (op.code matchEvent order) fun r _ => r.Nodup := by
  have hforeign : ∀ κ s s', Grows s s' → Foreign κ False s s' := fun _ _ _ h =>
    ⟨h, fun h => h.elim⟩
  have hnil : ∀ r : List Key, r = [] ∧ True → r.Nodup := by
    rintro _ ⟨rfl, -⟩
    exact List.nodup_nil
  cases op with
  | addSubscription κ filters =>
    have hadd := (addSubscription_triple κ False [] filters).conseq
      (V := fun _ => True) (hforeign κ) (fun _ _ _ h => h) (fun _ _ _ h => h.elim)
      fun _ _ _ _ => trivial
    exact (Triple.returning Grows.refl (stable_const True) hadd ([] : List Key)).post
      fun r _ _ => hnil r
  | removeSubscription κ =>
    have hremove := (removeSubscription_triple κ False order []).conseq
      (V := fun _ => True) (hforeign κ) (fun _ _ _ h => h) (fun _ _ _ h => h.elim)
      fun _ _ _ _ => trivial
    exact (Triple.returning Grows.refl (stable_const True) hremove ([] : List Key)).post
      fun r _ _ => hnil r
  | distributeEvent e =>
    exact (distributeEvent_triple matchEvent ("", "") False e []).conseq
      (V := fun _ => True) (fun s s' h => ⟨hforeign _ s s' h, fun h => h.elim⟩) (fun _ _ _ h => h)
      (fun _ _ _ => ⟨fun h => h.elim, fun h => h.elim⟩) fun _ _ _ h => h.1

/-- The state holds for `κ` the filters `b.1`, and unless `b.2`, the event `x` was not seen. -/
def Own (κ : Key) (x : EventId) (b : List Filter × Bool) (s : SubscriptionIndex) : Prop :=
  Holds κ b.1 s ∧ (b.2 = false → NotSeen κ x s)

/-- What a call does to the filters of `κ` and to whether the event `x` was distributed. -/
def applyOwn (κ : Key) (x : EventId) (op : IndexOp) (b : List Filter × Bool) :
    List Filter × Bool :=
  (op.applyTo κ b.1, b.2 || decide (op.Marks x))

/-- What a call may return, provided that the event was not distributed before: `κ` only if one of
its filters matches, and `κ` if one does and the fields of the filters mean what they say. -/
def Returns (matchEvent : Filter → Event → Bool) (κ : Key) (x : EventId) (op : IndexOp)
    (b : List Filter × Bool) (r : List Key) : Prop :=
  ∀ e, op = .distributeEvent e → e.id = x → b.2 = false → r.Nodup ∧
    (κ ∈ r → ∃ f ∈ b.1, matchEvent f e = true) ∧
    (MatchLaws matchEvent → (∃ f ∈ b.1, matchEvent f e = true) → κ ∈ r)

theorem stable_holds : Stable WellFormed (Other κ x True) (Holds κ fs) := by
  rintro s s' hR hwf ⟨ts, hts, hholds⟩
  exact ⟨ts, hts, HoldingParts.stable hwf hR.grows (hR.view trivial) hholds⟩

theorem stable_own {b : List Filter × Bool} : Stable WellFormed (Other κ x True) (Own κ x b) :=
  stable_holds.and fun _ _ hR _ h hb => (h hb).stable hR.grows (hR.silent trivial)

theorem stable_notSeen {d : Bool} : Stable WellFormed (Other κ x True)
    fun s => d = false → NotSeen κ x s :=
  fun _ _ hR _ h hd => (h hd).stable hR.grows (hR.silent trivial)

theorem exists_map_filter {ts : List TrackedFilter} {e : Event} :
    (∃ f ∈ ts.map TrackedFilter.filter, matchEvent f e = true) ↔
      ∃ t ∈ ts, matchEvent t.filter e = true := by
  simp

/-- A call on `κ`, or one that distributes the event `x`, when no other such call is under way. -/
theorem own_triple (op : IndexOp) (b : List Filter × Bool)
    (hop : op.Touches κ ∨ op.Marks x) :
    Triple WellFormed (Other κ x True) Grows (Own κ x b) (op.code matchEvent order) fun r s =>
      Own κ x (applyOwn κ x op b) s ∧ Returns matchEvent κ x op b r := by
  have hrefl := Other.refl κ x True
  obtain ⟨fs, d⟩ := b
  cases op with
  | addSubscription κ' filters =>
    obtain rfl : κ = κ' := hop.resolve_right id
    intro s hwf ⟨⟨ts, (hts : _ = fs), hholds⟩, hunseen⟩
    have hadd := (addSubscription_triple κ True ts filters).conseq
      (fun _ _ (h : Other κ x True _ _) => h.toForeign) (fun _ _ _ h => h) (fun _ _ h _ => h)
      (U := fun _ => Holds κ (fs ++ filters)) fun _ _ _ h => by rw [← hts]; exact h trivial
    have hframe := hadd.frame (stable_notSeen (d := d))
      fun _ _ _ heff h hd => (h hd).stable heff.grows (heff.silent x id)
    refine ((Triple.returning hrefl (stable_holds.and stable_notSeen) hframe
      ([] : List Key)).conseq (fun _ _ h => h) (fun _ _ _ h => h.grows) (fun _ _ h => h)
      fun r s _ ⟨_, hholds', hunseen'⟩ => ⟨⟨?_, ?_⟩, fun _ h => nomatch h⟩) s hwf ⟨hholds, hunseen⟩
    · simpa [applyOwn, applyTo] using hholds'
    · exact fun hd => hunseen' (Bool.or_eq_false_iff.mp hd).1
  | removeSubscription κ' =>
    obtain rfl : κ = κ' := hop.resolve_right id
    intro s hwf ⟨⟨ts, hts, hholds⟩, hunseen⟩
    have hremove := (removeSubscription_triple κ True order ts).conseq
      (fun _ _ (h : Other κ x True _ _) => h.toForeign) (fun _ _ _ h => h) (fun _ _ h _ => h)
      (U := fun _ => Holds κ []) fun _ _ _ h => (h trivial).holds
    have hframe := hremove.frame (stable_notSeen (d := d))
      fun _ _ _ heff h hd => (h hd).stable heff.grows (heff.silent x id)
    refine ((Triple.returning hrefl (stable_holds.and stable_notSeen) hframe
      ([] : List Key)).conseq (fun _ _ h => h) (fun _ _ _ h => h.grows) (fun _ _ h => h)
      fun r s _ ⟨_, hholds', hunseen'⟩ => ⟨⟨?_, ?_⟩, fun _ h => nomatch h⟩) s hwf ⟨hholds, hunseen⟩
    · simpa [applyOwn, applyTo] using hholds'
    · exact fun hd => hunseen' (Bool.or_eq_false_iff.mp hd).1
  | distributeEvent e =>
    obtain rfl : x = e.id := hop.resolve_left id
    intro s hwf ⟨⟨ts, hts, hholds⟩, hunseen⟩
    have hdist := (distributeEvent_triple matchEvent κ (d = false) e ts).conseq
      (fun _ _ (h : Other κ e.id True _ _) => ⟨⟨h.grows, fun _ => h.view trivial⟩,
        fun _ => h.silent trivial⟩) (fun _ _ _ h => h) (fun _ _ h => h) fun _ _ _ h => h
    have hframe := hdist.frame (A := Holds κ fs) stable_holds fun s s' hwf heff ⟨ts', hts', hh⟩ =>
      ⟨ts', hts', hh.stable hwf heff.grows (heff.view κ id)⟩
    refine (hframe.conseq (fun _ _ h => h) (fun _ _ _ h => h.grows) (fun _ _ h => h)
      fun r s _ ⟨⟨hnd, _, hsound, hcomplete⟩, hholds'⟩ => ⟨⟨?_, ?_⟩, ?_⟩) s hwf
      ⟨⟨fun _ => hholds, hunseen⟩, ts, hts, hholds⟩
    · simpa [applyOwn, applyTo] using hholds'
    · simp [applyOwn, Marks]
    · rintro e' he' - hd
      cases he'
      rw [← hts, exists_map_filter]
      exact ⟨hnd, hsound hd, hcomplete hd⟩

/-- No method of the index waits, so each runs to its end. -/
theorem neverWaits_code (matchEvent : Filter → Event → Bool) (order : HashOrder) (op : IndexOp) :
    (op.code matchEvent order).NeverWaits := by
  cases op with
  | addSubscription κ filters =>
    exact (neverWaits_addSubscription κ filters).bind fun _ => Prog.neverWaits_done _
  | removeSubscription κ =>
    exact (neverWaits_removeSubscription order κ).bind fun _ => Prog.neverWaits_done _
  | distributeEvent e => exact neverWaits_distributeEvent e

end IndexOp

/-! ### One call after another -/

/-- The state of the index after the given calls on a fresh one. -/
structure AfterCalls (ops : List IndexOp) (s : SubscriptionIndex) : Prop where
  wellFormed : WellFormed s
  holds : ∀ κ, Holds κ (filtersAfter κ ops) s
  notSeen : ∀ x, (∀ op ∈ ops, ¬ op.Marks x) → ∀ κ, NotSeen κ x s

theorem notSeen_new (κ : Key) (x : EventId) : NotSeen κ x new :=
  ⟨fun _ h => (nomatch h), fun _ h => (nomatch h)⟩

theorem afterCalls_new : AfterCalls [] new :=
  ⟨wellFormed_new, holds_new, fun x _ κ => notSeen_new κ x⟩

/-- A call that runs alone: its effect, and what it returns about `κ` and `x`. -/
theorem IndexOp.run_spec {op : IndexOp} {s : SubscriptionIndex} (hwf : WellFormed s)
    {o : Prog.Outcome IndexLock SubscriptionIndex (List Key)}
    (ho : (op.code matchEvent order).run s = some o) :
    o.value.Nodup ∧ WellFormed o.state ∧ Effect op.Touches op.Drops op.Marks s o.state :=
  (IndexOp.effect_triple op s hwf trivial).run Grows.refl hwf (fun _ _ _ h => h)
    (Effect.refl _ _ _) (fun _ _ _ => Effect.trans) ho

theorem AfterCalls.run {ops : List IndexOp} {op : IndexOp} {s : SubscriptionIndex}
    (h : AfterCalls ops s) {o : Prog.Outcome IndexLock SubscriptionIndex (List Key)}
    (ho : (op.code matchEvent order).run s = some o) : AfterCalls (ops ++ [op]) o.state := by
  obtain ⟨-, hwf, heff⟩ := IndexOp.run_spec h.wellFormed ho
  refine ⟨hwf, fun κ => ?_, fun x hx κ => ?_⟩
  · rw [filtersAfter_append]
    by_cases hop : op.Touches κ
    · have hown := (IndexOp.own_triple (x := 0) op (filtersAfter κ ops, true) (.inl hop) s
        h.wellFormed ⟨h.holds κ, fun h => nomatch h⟩).run (Other.refl κ 0 True) h.wellFormed
        (fun _ _ _ h => h) Grows.refl (fun _ _ _ => Grows.trans) ho
      exact hown.1.1.1
    · obtain ⟨ts, hts, hholds⟩ := h.holds κ
      rw [IndexOp.applyTo_of_not_touches hop]
      exact ⟨ts, hts, HoldingParts.stable hwf heff.grows (heff.view κ hop) hholds⟩
  · exact (h.notSeen x (fun op' hop' => hx op' (List.mem_append_left _ hop')) κ).stable heff.grows
      (heff.silent x (hx op (List.mem_append_right _ (List.mem_singleton_self _))))

/-- Every sequence of calls on a fresh index runs to its end. -/
theorem runCalls_afterCalls (matchEvent : Filter → Event → Bool) (order : HashOrder)
    (ops : List IndexOp) : ∃ results s,
      Prog.runCalls (IndexOp.code matchEvent order) ops new = some (results, s) ∧
        AfterCalls ops s := by
  induction ops using List.reverseRecOn with
  | nil => exact ⟨[], new, rfl, afterCalls_new⟩
  | append_singleton ops op ih =>
    obtain ⟨results, s, hrun, h⟩ := ih
    obtain ⟨o, ho⟩ := Option.isSome_iff_exists.mp
      ((IndexOp.neverWaits_code matchEvent order op).run_isSome s)
    exact ⟨_, o.state, by rw [Prog.runCalls_append, hrun, Option.bind_some, ho]; rfl, h.run ho⟩

/-- **Indexed distribution equals a linear scan.** After any calls one after another on a fresh
index, distributing an event that was not distributed before returns, without duplicates, exactly
the subscriptions that own a filter that matches it. -/
theorem distributeEvent_returns_matching {matchEvent : Filter → Event → Bool}
    (laws : MatchLaws matchEvent) (order : HashOrder) (ops : List IndexOp) (e : Event)
    (hnew : ∀ e', .distributeEvent e' ∈ ops → e'.id ≠ e.id) :
    ∃ results s o, Prog.runCalls (IndexOp.code matchEvent order) ops new = some (results, s) ∧
      ((IndexOp.distributeEvent e).code matchEvent order).run s = some o ∧ o.value.Nodup ∧
      ∀ κ, κ ∈ o.value ↔ ∃ f ∈ filtersAfter κ ops, matchEvent f e = true := by
  obtain ⟨results, s, hrun, h⟩ := runCalls_afterCalls matchEvent order ops
  obtain ⟨o, ho⟩ := Option.isSome_iff_exists.mp
    ((IndexOp.neverWaits_code matchEvent order (.distributeEvent e)).run_isSome s)
  refine ⟨results, s, o, hrun, ho, (IndexOp.run_spec h.wellFormed ho).1, fun κ => ?_⟩
  have hunmarked : ∀ op ∈ ops, ¬ op.Marks e.id := by
    intro op hop hmarks
    cases op with
    | distributeEvent e' => exact hnew e' hop hmarks.symm
    | _ => exact hmarks
  obtain ⟨⟨-, hreturns⟩, -⟩ := (IndexOp.own_triple (κ := κ) (x := e.id) (.distributeEvent e)
    (filtersAfter κ ops, false) (.inr rfl) s h.wellFormed
    ⟨h.holds κ, fun _ => h.notSeen _ hunmarked κ⟩).run (Other.refl κ e.id True) h.wellFormed
    (fun _ _ _ h => h) Grows.refl (fun _ _ _ => Grows.trans) ho
  obtain ⟨-, hsound, hcomplete⟩ := hreturns e rfl rfl rfl
  exact ⟨hsound, hcomplete laws⟩

/-- A subscription that was removed and added again is found, one that was removed is not. -/
theorem distributeEvent_returns_matching_readded :
    ∃ results s o, Prog.runCalls (IndexOp.code Filter.matchEvent .insertion)
        [.addSubscription ("alice", "feed") [Filter.kind 7, Filter.kind 1],
          .addSubscription ("bob", "feed") [Filter.new], .distributeEvent (Event.note 1),
          .removeSubscription ("bob", "feed"), .removeSubscription ("alice", "feed"),
          .addSubscription ("alice", "feed") [Filter.new]] new = some (results, s) ∧
      ((IndexOp.distributeEvent (Event.note 2)).code Filter.matchEvent .insertion).run s =
        some o ∧ o.value.Nodup ∧
      ∀ κ, κ ∈ o.value ↔ ∃ f ∈ filtersAfter κ
        [.addSubscription ("alice", "feed") [Filter.kind 7, Filter.kind 1],
          .addSubscription ("bob", "feed") [Filter.new], .distributeEvent (Event.note 1),
          .removeSubscription ("bob", "feed"), .removeSubscription ("alice", "feed"),
          .addSubscription ("alice", "feed") [Filter.new]],
        Filter.matchEvent f (Event.note 2) = true :=
  distributeEvent_returns_matching Filter.matchEvent_laws .insertion _ (Event.note 2)
    (by simp [Event.note])

/-! ### Any interleaving -/

/-- The calls that work on the subscription `κ`, or distribute the event `x`. -/
def IndexOp.Concerns (κ : Key) (x : EventId) (op : IndexOp) : Prop := op.Touches κ ∨ op.Marks x

instance (κ : Key) (x : EventId) (op : IndexOp) : Decidable (op.Concerns κ x) :=
  inferInstanceAs (Decidable (_ ∨ _))

/-- One subscription and one event are an object in the sense of `Exclusive`. -/
theorem index_exclusive (matchEvent : Filter → Event → Bool) (order : HashOrder) (κ : Key)
    (x : EventId) : Exclusive (fun _ => IndexOp.code matchEvent order) WellFormed Grows
      (Other κ x True) (IndexOp.Concerns κ x) (IndexOp.Own κ x) (IndexOp.applyOwn κ x)
      (IndexOp.Returns matchEvent κ x) where
  weak_trans _ _ _ := Grows.trans
  frame_refl := Other.refl κ x True
  frame_trans _ _ _ := Other.trans
  weak_of_frame _ _ h := h.grows
  own_frame _ := IndexOp.stable_own
  apply_other op b hop := by
    have htouches : ¬ op.Touches κ := fun h => hop (.inl h)
    have hmarks : ¬ op.Marks x := fun h => hop (.inr h)
    simp [IndexOp.applyOwn, IndexOp.applyTo_of_not_touches htouches, hmarks]
  other _ op hop := (IndexOp.effect_triple op).conseq (fun _ _ h => h)
    (fun _ _ _ h => ⟨⟨h.grows, fun _ => h.view κ fun ht => hop (.inl ht)⟩,
      fun _ => h.silent x fun hm => hop (.inr hm)⟩) (fun _ _ h => h) fun _ _ _ _ => trivial
  own _ op b hop := IndexOp.own_triple op b hop

/-- The value of the object, in terms of the calls. -/
theorem valueAfter_applyOwn (ops : List IndexOp) :
    valueAfter (IndexOp.applyOwn κ x) ([], false) ops =
      (filtersAfter κ ops, decide (∃ op ∈ ops, op.Marks x)) := by
  induction ops using List.reverseRecOn with
  | nil => simp [valueAfter, filtersAfter]
  | append_singleton ops op ih =>
    rw [Exclusive.valueAfter_append, ih, filtersAfter_append]
    simp [valueAfter, IndexOp.applyOwn, or_and_right, exists_or, Bool.decide_or]

/-- **Concurrent distribution loses nothing.** In any interleaving of calls in which no two calls
on `κ` overlap with each other or with the distribution of `e`, and no event is distributed twice,
the call that distributes `e` returns `κ` exactly once if a filter of `κ` matches, and not at all
if none does, whatever the other calls do. -/
theorem distributeEvent_concurrent {matchEvent : Filter → Event → Bool}
    (laws : MatchLaws matchEvent) (order : HashOrder) {κ : Key} {e : Event}
    {c : Config IndexOp IndexLock SubscriptionIndex (List Key)}
    (hrun : Run (fun _ => IndexOp.code matchEvent order) (serial (IndexOp.Concerns κ e.id))
      (Config.initial new) c)
    (hdistinct : ∀ (i j : ℕ) e₁ e₂, c.ops[i]? = some (.distributeEvent e₁) →
      c.ops[j]? = some (.distributeEvent e₂) → e₁.id = e₂.id → i = j)
    {i : ℕ} {r : List Key} (hr : c.Returned i (.distributeEvent e) r) :
    r.count κ = if ∃ f ∈ filtersAfter κ (c.ops.take i), matchEvent f e = true then 1 else 0 := by
  have hinv := Exclusive.run (index_exclusive matchEvent order κ e.id)
    (Exclusive.Inv.initial (b := ([], false)) wellFormed_new
      ⟨holds_new κ, fun _ => notSeen_new κ e.id⟩) hrun
  have hres := hinv.results i _ r hr (.inr rfl) rfl
  rw [valueAfter_applyOwn] at hres
  have hi : c.ops[i]? = some (.distributeEvent e) := Config.getElem?_ops hr
  have hfirst : ¬ ∃ op ∈ c.ops.take i, op.Marks e.id := by
    rintro ⟨op, hop, hmarks⟩
    obtain ⟨j, hj⟩ := List.mem_iff_getElem?.mp hop
    have hji : j < i := by
      have := (List.getElem?_eq_some_iff.mp hj).1
      rw [List.length_take] at this
      omega
    rw [List.getElem?_take_of_lt hji] at hj
    cases op with
    | distributeEvent e' => exact absurd (hdistinct j i e' e hj hi hmarks.symm) (Nat.ne_of_lt hji)
    | _ => exact hmarks
  obtain ⟨hnd, hsound, hcomplete⟩ := hres e rfl rfl (decide_eq_false hfirst)
  by_cases hmatch : ∃ f ∈ filtersAfter κ (c.ops.take i), matchEvent f e = true
  · rw [if_pos hmatch]
    exact List.count_eq_one_of_mem hnd (hcomplete laws hmatch)
  · rw [if_neg hmatch]
    exact List.count_eq_zero_of_not_mem fun hκ => hmatch (hsound hκ)

/-- Two distributions and the addition of another subscription, action by action in turn. -/
def overlapping : List (Move IndexOp) :=
  [Move.start (IndexOp.addSubscription ("alice", "feed") [Filter.kind 1])] ++
    List.replicate 5 (Move.step 0) ++
    [Move.start (IndexOp.distributeEvent (Event.note 1)),
      Move.start (IndexOp.distributeEvent (Event.note 2)),
      Move.start (IndexOp.addSubscription ("bob", "feed") [Filter.kind 1])] ++
    (List.replicate 5 [Move.step 1, Move.step 2, Move.step 3]).flatten ++
    (List.replicate 5 [Move.step 1, Move.step 2]).flatten

theorem distributeEvent_concurrent_overlapping :
    ∃ c, (Config.initial new).play (fun _ => IndexOp.code Filter.matchEvent .insertion)
        (serial (IndexOp.Concerns ("alice", "feed") (Event.note 1).id)) overlapping = some c ∧
      c.Returned 1 (.distributeEvent (Event.note 1)) [("alice", "feed")] ∧
      List.count ("alice", "feed") [("alice", "feed")] =
        if ∃ f ∈ filtersAfter ("alice", "feed") (c.ops.take 1),
          Filter.matchEvent f (Event.note 1) = true then 1 else 0 := by
  obtain ⟨c, hplay, hops, hr⟩ : ∃ c,
      (Config.initial new).play (fun _ => IndexOp.code Filter.matchEvent .insertion)
        (serial (IndexOp.Concerns ("alice", "feed") (Event.note 1).id)) overlapping = some c ∧
      c.ops = [.addSubscription ("alice", "feed") [Filter.kind 1],
        .distributeEvent (Event.note 1), .distributeEvent (Event.note 2),
        .addSubscription ("bob", "feed") [Filter.kind 1]] ∧
      c.Returned 1 (.distributeEvent (Event.note 1)) [("alice", "feed")] := ⟨_, rfl, rfl, rfl⟩
  have hids : ∀ (i : ℕ) e, c.ops[i]? = some (.distributeEvent e) → e.id = BitVec.ofNat 256 i := by
    rw [hops]
    rintro (_ | _ | _ | _ | i) e h <;> simp at h <;> subst h <;> rfl
  refine ⟨c, hplay, hr, distributeEvent_concurrent Filter.matchEvent_laws .insertion
    (Config.run_of_play hplay) (fun i j e₁ e₂ h₁ h₂ hid => ?_) hr⟩
  have hlt : ∀ (i : ℕ) e, c.ops[i]? = some (.distributeEvent e) → i < 4 := fun i e h => by
    have := (List.getElem?_eq_some_iff.mp h).1
    rwa [hops] at this
  rw [hids i e₁ h₁, hids j e₂ h₂] at hid
  have hnat := congrArg BitVec.toNat hid
  simp only [BitVec.toNat_ofNat] at hnat
  have hi := hlt i e₁ h₁
  have hj := hlt j e₂ h₂
  omega

end RelayBuilder
