import RelayBuilder.Interleave.Alone
import RelayBuilder.Interleave.Exec
import RelayBuilder.Interleave.Guarded

/-!
# One call after another, from some action on

Two calls, each made once. The second may be under way while the first is, but the actions that
matter, from one with a certain label on, are taken only when the first has ended. So the first
call need only tolerate what the second does before that action, and what the second does from then
on it does alone.

## Main definitions

* `Prog.Respects`: the program takes no notice of certain changes
* `Prog.Until`: what a program does before an action that is labelled so
* `succession`: the discipline

## Main results

* `Prog.Alone.ensures`: a program that takes no notice of the others does what it does alone
* `succession_run`
-/

namespace Interleave

variable {Op L L' σ τ α β ρ : Type}

namespace Prog

/-! ### Taking no notice -/

/-- What the program does is the same in related states, and leaves related states. -/
def Respects (R : σ → σ → Prop) : Prog L σ α → Prop
  | done _ => True
  | act _ r e n => ∀ s s', R s s' → r s' = r s ∧ R (e s) (e s') ∧ n s' = n s ∧ (n s).Respects R

variable {R : σ → σ → Prop}

theorem Respects.bind {p : Prog L σ α} {k : α → Prog L σ β} (hp : p.Respects R)
    (hk : ∀ a, (k a).Respects R) : (p.bind k).Respects R := by
  induction p with
  | done a => exact hk a
  | act l r e n ih =>
    intro s s' hs
    obtain ⟨hr, he, hn, hrest⟩ := hp s s' hs
    exact ⟨hr, he, congrArg (Prog.bind · k) hn, ih s hrest⟩

theorem respects_await {l : L} {ready : σ → Bool} {f : σ → α × σ}
    (h : ∀ s s', R s s' → ready s' = ready s ∧ (f s').1 = (f s).1 ∧ R (f s).2 (f s').2) :
    (await l ready f).Respects R := by
  intro s s' hs
  obtain ⟨hr, ha, he⟩ := h s s' hs
  exact ⟨hr, he, congrArg done ha, trivial⟩

theorem respects_atomic {l : L} {f : σ → α × σ}
    (h : ∀ s s', R s s' → (f s').1 = (f s).1 ∧ R (f s).2 (f s').2) : (atomic l f).Respects R :=
  respects_await fun s s' hs => ⟨rfl, h s s' hs⟩

theorem Respects.forM {f : β → Prog L σ PUnit} (hf : ∀ b, (f b).Respects R) (xs : List β) :
    (xs.forM f).Respects R := by
  induction xs with
  | nil => trivial
  | cons x xs ih => exact (hf x).bind fun _ => ih

/-- A program on a component that is the same in related states. -/
theorem respects_zoom {lbl : L → L'} {get : τ → σ} {set : σ → τ → τ} {R : τ → τ → Prop}
    (hget : ∀ t t', R t t' → get t' = get t) (hset : ∀ t t' s, R t t' → R (set s t) (set s t'))
    (p : Prog L σ α) : (p.zoom lbl get set).Respects R := by
  induction p with
  | done a => trivial
  | act l r e n ih =>
    intro t t' ht
    simp only [hget t t' ht, true_and]
    exact ⟨hset t t' _ ht, ih _⟩

/-- A program that takes no notice of what the others do, does what it does when it runs alone. -/
theorem Alone.ensures {G : σ → σ → Prop} {p : Prog L σ α} {Q : α → σ → Prop} {s₀ s : σ}
    (h : p.Alone G Q s₀) (hp : p.Respects R) (htrans : ∀ a b c, R a b → R b c → R a c)
    (hs : R s₀ s) :
    p.Ensures (fun _ => True) R (fun _ _ => True) (fun a s => ∃ s₀, Q a s₀ ∧ R s₀ s) s := by
  induction p generalizing s₀ s with
  | done a => exact fun s' hR _ => ⟨s₀, h, htrans _ _ _ hs hR⟩
  | act l r e n ih =>
    intro s' hR _ _
    obtain ⟨-, he, hn, hrest⟩ := hp s₀ s' (htrans _ _ _ hs hR)
    rw [hn]
    exact ⟨trivial, trivial, ih s₀ h.2.2 hrest he⟩

/-! ### Until an action -/

/-- Whatever the states it finds, the program makes `T`-changes until it is about to take an action
labelled with `stop`. Then what is left of it satisfies `W`. If it ends before, it returns
something that satisfies `E`. -/
def Until (T : σ → σ → Prop) (stop : L → Prop) (W : Prog L σ α → Prop) (E : α → Prop) :
    Prog L σ α → Prop
  | done a => E a
  | act l r e n => stop l ∧ W (act l r e n) ∨
    ¬ stop l ∧ ∀ s, T s (e s) ∧ (n s).Until T stop W E

end Prog

/-- A script whose questions are answered before the action, in front of a program. -/
theorem Script.EveryAsk.until_bind {Q : Type} {A : Q → Type} {T : σ → σ → Prop} {stop : L → Prop}
    {W : Prog L σ β → Prop} {E : β → Prop} {P : Q → Prop} {code : (q : Q) → Prog L σ (A q)}
    {p : Script Q A α} {k : α → Prog L σ β} (h : p.EveryAsk (fun _ _ => True) P)
    (hcode : ∀ q, P q → ∀ k : A q → Prog L σ β, (∀ r, (k r).Until T stop W E) →
      ((code q).bind k).Until T stop W E) (hk : ∀ a, (k a).Until T stop W E) :
    ((p.interpret code).bind k).Until T stop W E := by
  induction p with
  | done a => exact hk a
  | ask q n ih =>
    rw [Script.interpret, Prog.bind_assoc]
    exact hcode q h.1 _ fun r => ih r (h.2 r trivial)

/-! ### The discipline -/

variable {first : Op → Prop} {stop : L → Prop}

/-- A call that is `first` and another one are made at most once each. The other takes an action
labelled with `stop` only when the first has ended. -/
def succession (first : Op → Prop) (stop : L → Prop) (c : Config Op L σ ρ) : Move Op → Prop
  | .start op => ∀ call ∈ c.calls, ¬ (first call.op ↔ first op)
  | .step i => ∀ call ∈ c.calls[i]?, ¬ first call.op → ∀ l ∈ call.label?, stop l →
    ∃ call ∈ c.calls, first call.op ∧ call.result? ≠ none

instance (first : Op → Prop) [DecidablePred first] (stop : L → Prop) [DecidablePred stop]
    (c : Config Op L σ ρ) (m : Move Op) : Decidable (succession first stop c m) :=
  match m with
  | .start op => inferInstanceAs (Decidable (∀ call ∈ c.calls, ¬ (first call.op ↔ first op)))
  | .step i => inferInstanceAs (Decidable (∀ call ∈ c.calls[i]?, ¬ first call.op →
      ∀ l ∈ call.label?, stop l → ∃ call ∈ c.calls, first call.op ∧ call.result? ≠ none))

theorem succession_guarded {admits : L → σ → Bool} {c : Config Op L σ ρ} {m : Move Op}
    (h : succession first stop c m) : succession first stop (c.guarded admits) m := by
  cases m with
  | start op =>
    intro call hcall
    obtain ⟨call', hcall', rfl⟩ := List.mem_map.mp hcall
    exact h call' hcall'
  | step i =>
    intro call hcall hother l hl hstop
    have hi : (c.guarded admits).calls[i]? = some call := hcall
    rw [Config.guarded, List.getElem?_map, Option.map_eq_some_iff] at hi
    obtain ⟨call', hi, rfl⟩ := hi
    rw [Call.label?_guarded] at hl
    obtain ⟨call', hcall', hfirst, hended⟩ := h call' hi hother l hl hstop
    refine ⟨call'.guarded admits, List.mem_map_of_mem hcall', hfirst, ?_⟩
    rwa [Call.result?_guarded]

/-- Either the first call is under way, or to come, and the other one has not taken the action; or
the first has ended, and the other is alone. -/
inductive Succession (T : σ → σ → Prop) (first : Op → Prop) (stop : L → Prop) (P : σ → Prop)
    (Q : ρ → σ → Prop) (E : ρ → Prop) (U : ρ → ρ → σ → Prop) (c : Config Op L σ ρ) : Prop where
  | before (pre : (∀ call ∈ c.calls, ¬ first call.op) → P c.state)
    (own : ∀ call ∈ c.calls, first call.op →
      call.prog.Ensures (fun _ => True) T (fun _ _ => True) Q c.state)
    (other : ∀ call ∈ c.calls, ¬ first call.op → call.prog.Until T stop
      (fun p => ∀ a s, Q a s → p.Ensures (fun _ => True) Eq (fun _ _ => True) (U a) s) E)
  | after (a : ρ) {i j : ℕ} {op op' : Op} {p : Prog L σ ρ} (hi : c.calls[i]? = some ⟨op, .done a⟩)
    (hfirst : first op) (hj : c.calls[j]? = some ⟨op', p⟩) (hother : ¬ first op')
    (other : p.Ensures (fun _ => True) Eq (fun _ _ => True) (U a) c.state)

/-- Each kind of call is made at most once. -/
def OneEach (first : Op → Prop) (c : Config Op L σ ρ) : Prop :=
  c.ops.Pairwise fun op op' => ¬ (first op ↔ first op')

section

variable {T : σ → σ → Prop} {P : σ → Prop} {Q : ρ → σ → Prop} {E : ρ → Prop}
  {U : ρ → ρ → σ → Prop} {c c' : Config Op L σ ρ} {code : ℕ → Op → Prog L σ ρ}

theorem OneEach.next (h : OneEach first c) {m : Move Op} (hok : succession first stop c m)
    (hn : c.next code m = some c') : OneEach first c' := by
  obtain ⟨op, rfl, rfl⟩ | ⟨i, op, l, r, e, n, rfl, hi, -, rfl⟩ := Config.next_cases hn
  · rw [OneEach, Config.ops_start, List.pairwise_append]
    refine ⟨h, List.pairwise_singleton _ _, fun op₁ hop₁ op₂ hop₂ => ?_⟩
    obtain ⟨call, hcall, rfl⟩ := List.mem_map.mp hop₁
    rw [List.mem_singleton.mp hop₂]
    exact hok call hcall
  · have hops : (Config.mk (e c.state) (c.calls.set i ⟨op, n c.state⟩)).ops = c.ops :=
      Config.ops_step hi rfl
    rwa [OneEach, hops]

/-- There is one call of a kind only. -/
theorem OneEach.unique (h : OneEach first c) {i j : ℕ} {call call' : Call Op L σ ρ}
    (hi : c.calls[i]? = some call) (hj : c.calls[j]? = some call')
    (hiff : first call.op ↔ first call'.op) : i = j := by
  have hpair := List.pairwise_iff_getElem.mp h
  obtain ⟨hlt, heq⟩ := List.getElem?_eq_some_iff.mp (Config.getElem?_ops hi)
  obtain ⟨hlt', heq'⟩ := List.getElem?_eq_some_iff.mp (Config.getElem?_ops hj)
  obtain hij | rfl | hij := Nat.lt_trichotomy i j
  · exact absurd (heq ▸ heq' ▸ hiff) (hpair i j hlt hlt' hij)
  · rfl
  · exact absurd (heq ▸ heq' ▸ hiff.symm) (hpair j i hlt' hlt hij)

/-- After an action of a call, all other calls are of the other kind. -/
theorem OneEach.mem_set (h : OneEach first c) {i : ℕ} {op : Op} {p p' : Prog L σ ρ}
    (hi : c.calls[i]? = some ⟨op, p⟩) {call : Call Op L σ ρ}
    (hcall : call ∈ c.calls.set i ⟨op, p'⟩) :
    call = ⟨op, p'⟩ ∨ call ∈ c.calls ∧ ¬ (first call.op ↔ first op) := by
  obtain ⟨j, hj⟩ := List.mem_iff_getElem?.mp hcall
  by_cases hij : i = j
  · subst hij
    rw [List.getElem?_set_self (List.getElem?_eq_some_iff.mp hi).1, Option.some.injEq] at hj
    exact .inl hj.symm
  · rw [List.getElem?_set_ne hij] at hj
    exact .inr ⟨List.mem_of_getElem? hj, fun hiff => hij (h.unique hi hj hiff.symm)⟩

/-- A call that does not act stays as it is. -/
theorem getElem?_set_of_ne {calls : List α} {i k : ℕ} {a b x : α} (hi : calls[i]? = some a)
    (hk : calls[k]? = some b) (hne : a ≠ b) : (calls.set i x)[k]? = some b := by
  have hik : i ≠ k := by
    rintro rfl
    exact hne (Option.some.inj (hi.symm.trans hk))
  rwa [List.getElem?_set_ne hik]

/-- The start of a call. -/
theorem Succession.start (h : Succession T first stop P Q E U c) {op : Op}
    (hok : succession first stop c (.start op))
    (hfirst : first op → ∀ s, P s →
      (code c.calls.length op).Ensures (fun _ => True) T (fun _ _ => True) Q s)
    (hother : ¬ first op → (code c.calls.length op).Until T stop
      (fun p => ∀ a s, Q a s → p.Ensures (fun _ => True) Eq (fun _ _ => True) (U a) s) E) :
    Succession T first stop P Q E U ⟨c.state, c.calls ++ [⟨op, code c.calls.length op⟩]⟩ := by
  cases h with
  | before hpre hown huntil =>
    refine .before (fun hnone => hpre fun call hcall => hnone call (List.mem_append_left _ hcall))
      (fun call hcall hmine => ?_) fun call hcall hmine => ?_
    · obtain hcall | hcall := List.mem_append.mp hcall
      · exact hown call hcall hmine
      · obtain rfl := List.mem_singleton.mp hcall
        refine hfirst hmine c.state (hpre fun call hcall hcall' => ?_)
        exact hok call hcall (iff_of_true hcall' hmine)
    · obtain hcall | hcall := List.mem_append.mp hcall
      · exact huntil call hcall hmine
      · obtain rfl := List.mem_singleton.mp hcall
        exact hother hmine
  | after a hi hf hj ho =>
    -- both calls were made
    by_cases hmine : first op
    · exact absurd (iff_of_true hf hmine) (hok _ (List.mem_of_getElem? hi))
    · exact absurd (iff_of_false ho hmine) (hok _ (List.mem_of_getElem? hj))

/-- An action of a call. -/
theorem Succession.step (h : Succession T first stop P Q E U c) (honce : OneEach first c)
    (hrefl : ∀ s, T s s) (htrans : ∀ a b c, T a b → T b c → T a c)
    (hpre : ∀ s s', T s s' → P s → P s') {i : ℕ} {op : Op} {l : L} {r : σ → Bool} {e : σ → σ}
    {n : σ → Prog L σ ρ} (hi : c.calls[i]? = some ⟨op, .act l r e n⟩) (hr : r c.state = true)
    (hok : succession first stop c (.step i)) :
    Succession T first stop P Q E U ⟨e c.state, c.calls.set i ⟨op, n c.state⟩⟩ := by
  have hlt : i < c.calls.length := (List.getElem?_eq_some_iff.mp hi).1
  have hmem := List.mem_of_getElem? hi
  cases h with
  | before hpre' hown huntil =>
    by_cases hmine : first op
    · obtain ⟨-, -, hrest⟩ := hown _ hmem hmine c.state (hrefl _) trivial hr
      refine .before (fun hnone => ?_) (fun call hcall hcall' => ?_) fun call hcall hcall' => ?_
      · exact absurd hmine (hnone ⟨op, n c.state⟩
          (List.mem_of_getElem? (List.getElem?_set_self hlt)))
      · obtain rfl | ⟨-, hne⟩ := honce.mem_set hi hcall
        · exact hrest
        · exact absurd (iff_of_true hcall' hmine) hne
      · obtain rfl | ⟨hold, -⟩ := honce.mem_set hi hcall
        · exact absurd hmine hcall'
        · exact huntil call hold hcall'
    · obtain ⟨hstop, hW⟩ | ⟨-, hT⟩ := huntil _ hmem hmine
      · -- the first call has ended, and now only this one acts
        obtain ⟨first', hfirst', hf, hended⟩ := hok _ hi hmine l rfl hstop
        obtain ⟨opf, pf⟩ := first'
        obtain ⟨k, hk⟩ := List.mem_iff_getElem?.mp hfirst'
        cases pf with
        | act _ _ _ _ => exact absurd rfl hended
        | done a =>
          have hQ := hown _ hfirst' hf c.state (hrefl _) trivial
          obtain ⟨-, -, hrest⟩ := hW a c.state hQ c.state rfl trivial hr
          exact .after a (getElem?_set_of_ne hi hk fun heq => by cases heq) hf
            (List.getElem?_set_self hlt) hmine hrest
      · refine .before (fun hnone => ?_) (fun call hcall hcall' => ?_) fun call hcall hcall' => ?_
        · refine hpre _ _ (hT c.state).1 (hpre' fun call hcall hcall' => ?_)
          obtain ⟨j, hj⟩ := List.mem_iff_getElem?.mp hcall
          refine hnone call (List.mem_of_getElem? (getElem?_set_of_ne hi hj ?_)) hcall'
          rintro rfl
          exact hmine hcall'
        · obtain rfl | ⟨hold, -⟩ := honce.mem_set hi hcall
          · exact absurd hcall' hmine
          · exact (hown call hold hcall').rely htrans (hT c.state).1
        · obtain rfl | ⟨-, hne⟩ := honce.mem_set hi hcall
          · exact (hT c.state).2
          · exact absurd (iff_of_false hcall' hmine) hne
  | @after a k j opf op' p hk hf hj ho hens =>
    have hmine : ¬ first op := by
      intro hmine
      obtain rfl := honce.unique hi hk (iff_of_true hmine hf)
      rw [hi] at hk
      cases hk
    obtain rfl := honce.unique hi hj (iff_of_false hmine ho)
    rw [hi, Option.some.injEq, Call.mk.injEq] at hj
    obtain ⟨rfl, rfl⟩ := hj
    obtain ⟨-, -, hrest⟩ := hens c.state rfl trivial hr
    exact .after a (getElem?_set_of_ne hi hk fun heq => by cases heq) hf
      (List.getElem?_set_self hlt) hmine hrest

/-- **One call after another.** When both have returned, either the other one has ended before the
action, or it has done what it does alone after the first. -/
theorem succession_run (hrefl : ∀ s, T s s) (htrans : ∀ a b c, T a b → T b c → T a c)
    (hpre : ∀ s s', T s s' → P s → P s')
    (hfirst : ∀ i op, first op → ∀ s, P s →
      (code i op).Ensures (fun _ => True) T (fun _ _ => True) Q s)
    (hother : ∀ i op, ¬ first op → (code i op).Until T stop
      (fun p => ∀ a s, Q a s → p.Ensures (fun _ => True) Eq (fun _ _ => True) (U a) s) E)
    {s : σ} (hs : P s) (hrun : Run code (succession first stop) (Config.initial s) c) {i j : ℕ}
    {op op' : Op} {a b : ρ} (hi : c.Returned i op a) (hop : first op) (hj : c.Returned j op' b)
    (hop' : ¬ first op') : E b ∨ U a b c.state := by
  have hinv : OneEach first c ∧ Succession T first stop P Q E U c := by
    refine hrun.invariant (A := fun c => OneEach first c ∧ Succession T first stop P Q E U c)
      ⟨List.Pairwise.nil, .before (fun _ => hs) (fun _ h => nomatch h) fun _ h => nomatch h⟩
      fun c m c' h hok hn => ⟨h.1.next hok hn, ?_⟩
    obtain ⟨op, rfl, rfl⟩ | ⟨i, op, l, r, e, n, rfl, hi, hr, rfl⟩ := Config.next_cases hn
    · exact h.2.start hok (hfirst _ op) (hother _ op)
    · exact h.2.step h.1 hrefl htrans hpre hi hr hok
  obtain ⟨honce, h⟩ := hinv
  cases h with
  | before _ _ huntil => exact .inl (huntil _ (List.mem_of_getElem? hj) hop')
  | @after a' k l opf op'' p hk hf hl ho hens =>
    obtain rfl := honce.unique hi hk (iff_of_true hop hf)
    obtain rfl := honce.unique hj hl (iff_of_false hop' ho)
    rw [hi, Option.some.injEq, Call.mk.injEq, Prog.done.injEq] at hk
    rw [hj, Option.some.injEq, Call.mk.injEq] at hl
    obtain ⟨-, rfl⟩ := hk
    obtain ⟨-, rfl⟩ := hl
    exact .inr (hens c.state rfl trivial)

end

end Interleave
