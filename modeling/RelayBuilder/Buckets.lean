import Mathlib.Data.List.AList

/-!
# Buckets

A map from keys to the lists of what was filed under them, as an inverted index keeps one: filing
appends to the bucket of a key, and a bucket that a removal leaves empty is dropped with its key.
A key without a bucket and a key with an empty one answer a lookup alike, so lookups are described
by `Buckets.bucket` and everything else is a fact about it.

## Main results

* `Buckets.bucket_pushAll`, `Buckets.bucket_retainAll`: what filing and removing under several
  keys leaves under each key
* `NoEmpty.pushAll`, `NoEmpty.retainAll`: neither leaves a key with an empty bucket
-/

/-- A map from keys to buckets. -/
abbrev Buckets (K V : Type) := AList fun _ : K => List V

namespace Buckets

variable {K V : Type} [DecidableEq K]

/-- What was filed under a key. -/
def bucket (m : Buckets K V) (k : K) : List V := (m.lookup k).getD []

/-- File `v` under `k`, last in its bucket. -/
def push (v : V) (m : Buckets K V) (k : K) : Buckets K V := m.insert k (m.bucket k ++ [v])

/-- Keep in the bucket of `k` only what satisfies `p`, and drop the bucket if that is nothing. -/
def retain (p : V → Bool) (m : Buckets K V) (k : K) : Buckets K V :=
  match m.lookup k with
  | none => m
  | some vs => if (vs.filter p).isEmpty then m.erase k else m.insert k (vs.filter p)

/-- File `v` under each of the keys. -/
def pushAll (v : V) (ks : List K) (m : Buckets K V) : Buckets K V := ks.foldl (push v) m

/-- Restrict the bucket of each of the keys. -/
def retainAll (p : V → Bool) (ks : List K) (m : Buckets K V) : Buckets K V :=
  ks.foldl (retain p) m

@[simp] theorem bucket_empty (k : K) : bucket (∅ : Buckets K V) k = [] := rfl

theorem bucket_push (v : V) (m : Buckets K V) (k x : K) :
    (m.push v k).bucket x = if x = k then m.bucket x ++ [v] else m.bucket x := by
  by_cases h : x = k
  · subst h
    simp [bucket, push]
  · simp [bucket, push, AList.lookup_insert_ne h, h]

theorem bucket_retain (p : V → Bool) (m : Buckets K V) (k x : K) :
    (m.retain p k).bucket x = if x = k then (m.bucket x).filter p else m.bucket x := by
  rw [retain]
  cases hk : m.lookup k with
  | none =>
    by_cases h : x = k
    · subst h
      simp [bucket, hk]
    · rw [if_neg h]
  | some vs =>
    by_cases h : x = k
    · subst h
      by_cases he : (vs.filter p).isEmpty
      · simp [bucket, hk, List.isEmpty_iff.mp he]
      · simp [bucket, he, hk]
    · by_cases he : (vs.filter p).isEmpty
      · simp [bucket, he, AList.lookup_erase_ne h, h]
      · simp [bucket, he, AList.lookup_insert_ne h, h]

/-- Filing under several keys. -/
theorem bucket_pushAll (v : V) {ks : List K} (hks : ks.Nodup) (m : Buckets K V) (x : K) :
    (m.pushAll v ks).bucket x = m.bucket x ++ if x ∈ ks then [v] else [] := by
  induction ks generalizing m with
  | nil => simp [pushAll]
  | cons k ks ih =>
    obtain ⟨hk, hks⟩ := List.nodup_cons.mp hks
    have hstep : (m.pushAll v (k :: ks)).bucket x = ((m.push v k).pushAll v ks).bucket x := rfl
    rw [hstep, ih hks, bucket_push]
    by_cases hx : x = k
    · subst hx
      simp [hk]
    · simp [hx]

/-- Removing under several keys. -/
theorem bucket_retainAll (p : V → Bool) (ks : List K) (m : Buckets K V) (x : K) :
    (m.retainAll p ks).bucket x = if x ∈ ks then (m.bucket x).filter p else m.bucket x := by
  induction ks generalizing m with
  | nil => simp [retainAll]
  | cons k ks ih =>
    have hstep : (m.retainAll p (k :: ks)).bucket x = ((m.retain p k).retainAll p ks).bucket x :=
      rfl
    rw [hstep, ih, bucket_retain]
    by_cases hx : x = k
    · subst hx
      by_cases hmem : x ∈ ks <;> simp [hmem]
    · simp [hx]

/-! ### Two levels of keys -/

variable {K' : Type} [DecidableEq K']

/-- What was filed under a pair of keys. -/
def bucket₂ (m : AList fun _ : K' => Buckets K V) (k' : K') (k : K) : List V :=
  ((m.lookup k').getD ∅).bucket k

/-- File `v` under several keys below `k'`. -/
def pushAll₂ (v : V) (k' : K') (ks : List K) (m : AList fun _ : K' => Buckets K V) :
    AList fun _ : K' => Buckets K V :=
  m.insert k' (((m.lookup k').getD ∅).pushAll v ks)

/-- Restrict the buckets of several keys below `k'`, and drop `k'` if no bucket is left there. -/
def retainAll₂ (p : V → Bool) (k' : K') (ks : List K) (m : AList fun _ : K' => Buckets K V) :
    AList fun _ : K' => Buckets K V :=
  match m.lookup k' with
  | none => m
  | some b =>
    if (b.retainAll p ks).entries.isEmpty then m.erase k' else m.insert k' (b.retainAll p ks)

theorem bucket₂_pushAll₂ (v : V) (k' : K') {ks : List K} (hks : ks.Nodup)
    (m : AList fun _ : K' => Buckets K V) (x' : K') (x : K) :
    bucket₂ (pushAll₂ v k' ks m) x' x =
      bucket₂ m x' x ++ if x' = k' ∧ x ∈ ks then [v] else [] := by
  by_cases h : x' = k'
  · subst h
    simp [bucket₂, pushAll₂, bucket_pushAll v hks]
  · simp [bucket₂, pushAll₂, AList.lookup_insert_ne h, h]

theorem bucket₂_retainAll₂ (p : V → Bool) (k' : K') (ks : List K)
    (m : AList fun _ : K' => Buckets K V) (x' : K') (x : K) :
    bucket₂ (retainAll₂ p k' ks m) x' x =
      if x' = k' ∧ x ∈ ks then (bucket₂ m x' x).filter p else bucket₂ m x' x := by
  rw [retainAll₂]
  cases hk : m.lookup k' with
  | none =>
    by_cases h : x' = k'
    · subst h
      simp [bucket₂, hk]
    · simp [h]
  | some b =>
    by_cases h : x' = k'
    · subst h
      have hb : (b.retainAll p ks).bucket x =
          if x ∈ ks then (b.bucket x).filter p else b.bucket x := bucket_retainAll p ks b x
      by_cases he : (b.retainAll p ks).entries.isEmpty
      · have hempty : b.retainAll p ks = ∅ := AList.ext (List.isEmpty_iff.mp he)
        rw [hempty, bucket_empty] at hb
        simp [bucket₂, he, hk, ← hb]
      · simp [bucket₂, he, hk, hb]
    · by_cases he : (b.retainAll p ks).entries.isEmpty
      · simp [bucket₂, he, AList.lookup_erase_ne h, h]
      · simp [bucket₂, he, AList.lookup_insert_ne h, h]

/-! ### Empty buckets -/

/-- No key has an empty bucket. -/
def NoEmpty (m : Buckets K V) : Prop := ∀ k vs, m.lookup k = some vs → vs ≠ []

theorem noEmpty_empty : NoEmpty (∅ : Buckets K V) := fun _ _ h => nomatch h

theorem NoEmpty.push (v : V) {m : Buckets K V} (h : m.NoEmpty) (k : K) : (m.push v k).NoEmpty := by
  intro x vs hx
  by_cases hk : x = k
  · subst hk
    rw [Buckets.push, AList.lookup_insert, Option.some.injEq] at hx
    rw [← hx]
    exact List.append_ne_nil_of_right_ne_nil _ (List.cons_ne_nil v [])
  · rw [Buckets.push, AList.lookup_insert_ne hk] at hx
    exact h x vs hx

theorem NoEmpty.pushAll (v : V) (ks : List K) {m : Buckets K V} (h : m.NoEmpty) :
    (m.pushAll v ks).NoEmpty := by
  induction ks generalizing m with
  | nil => exact h
  | cons k ks ih => exact ih (h.push v k)

theorem NoEmpty.retain (p : V → Bool) {m : Buckets K V} (h : m.NoEmpty) (k : K) :
    (m.retain p k).NoEmpty := by
  rw [Buckets.retain]
  split
  · exact h
  rename_i vs hvs
  split
  · intro x vs' hx
    by_cases hk : x = k
    · subst hk
      simp at hx
    · rw [AList.lookup_erase_ne hk] at hx
      exact h x vs' hx
  · rename_i hne
    intro x vs' hx
    by_cases hk : x = k
    · subst hk
      rw [AList.lookup_insert, Option.some.injEq] at hx
      rw [← hx]
      exact fun hnil => hne (List.isEmpty_iff.mpr hnil)
    · rw [AList.lookup_insert_ne hk] at hx
      exact h x vs' hx

theorem NoEmpty.retainAll (p : V → Bool) (ks : List K) {m : Buckets K V} (h : m.NoEmpty) :
    (m.retainAll p ks).NoEmpty := by
  induction ks generalizing m with
  | nil => exact h
  | cons k ks ih => exact ih (h.retain p k)

/-- Without empty buckets, a map in which nothing is filed is empty. -/
theorem NoEmpty.eq_empty {m : Buckets K V} (h : m.NoEmpty) (hb : ∀ k, m.bucket k = []) :
    m = ∅ := by
  refine AList.ext (List.eq_nil_iff_forall_not_mem.mpr fun ⟨k, vs⟩ hmem => ?_)
  have hk : m.lookup k = some vs := AList.mem_lookup_iff.mpr hmem
  have hvs := hb k
  rw [bucket, hk] at hvs
  exact h k vs hk hvs

/-- No first key has an empty map of buckets, and no pair of keys an empty bucket. -/
def NoEmpty₂ (m : AList fun _ : K' => Buckets K V) : Prop :=
  ∀ k' b, m.lookup k' = some b → b ≠ ∅ ∧ b.NoEmpty

theorem noEmpty₂_empty : NoEmpty₂ (∅ : AList fun _ : K' => Buckets K V) := fun _ _ h => nomatch h

theorem NoEmpty₂.inner {m : AList fun _ : K' => Buckets K V} (h : NoEmpty₂ m) (k' : K') :
    ((m.lookup k').getD ∅).NoEmpty := by
  cases hk : m.lookup k' with
  | none => exact noEmpty_empty
  | some b => exact (h k' b hk).2

theorem NoEmpty₂.pushAll₂ (v : V) (k' : K') {ks : List K} (hks : ks.Nodup) (hne : ks ≠ [])
    {m : AList fun _ : K' => Buckets K V} (h : NoEmpty₂ m) : NoEmpty₂ (pushAll₂ v k' ks m) := by
  intro x' b hx
  by_cases hk : x' = k'
  · subst hk
    rw [Buckets.pushAll₂, AList.lookup_insert, Option.some.injEq] at hx
    refine ⟨fun hempty => ?_, hx ▸ (h.inner x').pushAll v ks⟩
    obtain ⟨k, hmem⟩ := List.exists_mem_of_ne_nil ks hne
    have hbucket := bucket_pushAll v hks ((m.lookup x').getD ∅) k
    rw [hx, hempty, bucket_empty, if_pos hmem] at hbucket
    exact List.append_ne_nil_of_right_ne_nil _ (List.cons_ne_nil v []) hbucket.symm
  · rw [Buckets.pushAll₂, AList.lookup_insert_ne hk] at hx
    exact h x' b hx

theorem NoEmpty₂.retainAll₂ (p : V → Bool) (k' : K') (ks : List K)
    {m : AList fun _ : K' => Buckets K V} (h : NoEmpty₂ m) : NoEmpty₂ (retainAll₂ p k' ks m) := by
  rw [Buckets.retainAll₂]
  split
  · exact h
  rename_i b hb
  split
  · intro x' b' hx
    by_cases hk : x' = k'
    · subst hk
      simp at hx
    · rw [AList.lookup_erase_ne hk] at hx
      exact h x' b' hx
  · rename_i hne
    intro x' b' hx
    by_cases hk : x' = k'
    · subst hk
      rw [AList.lookup_insert, Option.some.injEq] at hx
      rw [← hx]
      exact ⟨fun hempty => hne (by rw [hempty]; rfl), (h x' b hb).2.retainAll p ks⟩
    · rw [AList.lookup_insert_ne hk] at hx
      exact h x' b' hx

theorem NoEmpty₂.eq_empty {m : AList fun _ : K' => Buckets K V} (h : NoEmpty₂ m)
    (hb : ∀ k' k, bucket₂ m k' k = []) : m = ∅ := by
  refine AList.ext (List.eq_nil_iff_forall_not_mem.mpr fun ⟨k', b⟩ hmem => ?_)
  have hk : m.lookup k' = some b := AList.mem_lookup_iff.mpr hmem
  refine (h k' b hk).1 ((h k' b hk).2.eq_empty fun k => ?_)
  have hbk := hb k' k
  rwa [bucket₂, hk, Option.getD_some] at hbk

end Buckets
