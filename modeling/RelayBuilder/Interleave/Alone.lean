import RelayBuilder.Interleave.Pool
import RelayBuilder.Interleave.Triple

/-!
# Calls that run one after another

`p.Alone G Q s` is the total contract of a program that runs alone from `s`: none of its actions
has to wait, each makes a change allowed by the guarantee `G`, and at its end `Q` holds. It is
what is left of `Ensures` when nobody interferes, and it says more, since the program is not kept
waiting.

`oneByOne cond` is the discipline of a pool whose calls are made one after another, each in a
state that admits it.

## Main results

* `Alone.bind`, `Alone.atomic`, `Alone.forM`, `Alone.foldlM`, `Alone.zoom`: the rules
* `Prog.NeverWaits.alone`: a contract with interference is one without
* `oneByOne_run`: an invariant that every call keeps when it runs alone holds between the calls
-/

namespace Interleave

variable {Op L L' σ τ α β γ ρ : Type}

namespace Prog

/-- What `p` does when it runs alone from `s`. -/
def Alone (G : σ → σ → Prop) : Prog L σ α → (α → σ → Prop) → σ → Prop
  | .done a, Q, s => Q a s
  | .act _ r e n, Q, s => r s = true ∧ G s (e s) ∧ Alone G (n s) Q (e s)

variable {G : σ → σ → Prop} {s : σ}

theorem Alone.conseq {G' : σ → σ → Prop} {p : Prog L σ α} {Q Q' : α → σ → Prop}
    (h : p.Alone G Q s) (hG : ∀ s s', G s s' → G' s s') (hQ : ∀ a s, Q a s → Q' a s) :
    p.Alone G' Q' s := by
  induction p generalizing s with
  | done a => exact hQ a s h
  | act l r e n ih => exact ⟨h.1, hG _ _ h.2.1, ih s h.2.2⟩

theorem Alone.post {p : Prog L σ α} {Q Q' : α → σ → Prop} (h : p.Alone G Q s)
    (hQ : ∀ a s, Q a s → Q' a s) : p.Alone G Q' s :=
  h.conseq (fun _ _ h => h) hQ

/-- Two contracts of a program that runs alone are one. -/
theorem Alone.and {G' : σ → σ → Prop} {p : Prog L σ α} {Q Q' : α → σ → Prop} (h : p.Alone G Q s)
    (h' : p.Alone G' Q' s) : p.Alone G (fun a s => Q a s ∧ Q' a s) s := by
  induction p generalizing s with
  | done a => exact ⟨h, h'⟩
  | act l r e n ih => exact ⟨h.1, h.2.1, ih s h.2.2 h'.2.2⟩

/-- Any number of contracts of a program that runs alone are one. -/
theorem Alone.all {ι : Type} {p : Prog L σ α} {M : α → σ → Prop} {Q : ι → α → σ → Prop}
    (hp : p.Alone G M s) (h : ∀ i, p.Alone G (Q i) s) :
    p.Alone G (fun a s => ∀ i, Q i a s) s := by
  induction p generalizing s with
  | done a => exact h
  | act l r e n ih => exact ⟨hp.1, hp.2.1, ih s hp.2.2 fun i => (h i).2.2⟩

/-- The actions of a program that runs alone compose. -/
theorem Alone.track {T : σ → σ → Prop} {p : Prog L σ α} {Q : α → σ → Prop} (h : p.Alone G Q s)
    (hrefl : ∀ s, T s s) (htrans : ∀ a b c, T a b → T b c → T a c) (hG : ∀ s s', G s s' → T s s') :
    p.Alone G (fun a s' => Q a s' ∧ T s s') s := by
  induction p generalizing s with
  | done a => exact ⟨h, hrefl s⟩
  | act l r e n ih =>
    exact ⟨h.1, h.2.1, (ih s h.2.2).post fun _ _ h' => ⟨h'.1, htrans _ _ _ (hG _ _ h.2.1) h'.2⟩⟩

theorem Alone.bind {p : Prog L σ α} {k : α → Prog L σ β} {M : α → σ → Prop} {Q : β → σ → Prop}
    (h : p.Alone G M s) (hk : ∀ a s, M a s → (k a).Alone G Q s) : (p.bind k).Alone G Q s := by
  induction p generalizing s with
  | done a => exact hk a s h
  | act l r e n ih => exact ⟨h.1, h.2.1, ih s h.2.2⟩

theorem Alone.await {l : L} {ready : σ → Bool} {f : σ → α × σ} {Q : α → σ → Prop}
    (hready : ready s = true) (hG : G s (f s).2) (hQ : Q (f s).1 (f s).2) :
    (Prog.await l ready f).Alone G Q s :=
  ⟨hready, hG, hQ⟩

theorem Alone.atomic {l : L} {f : σ → α × σ} {Q : α → σ → Prop} (hG : G s (f s).2)
    (hQ : Q (f s).1 (f s).2) : (Prog.atomic l f).Alone G Q s :=
  Alone.await rfl hG hQ

/-- A loop over a list, by a loop invariant that knows the elements still to come. -/
theorem Alone.forM {f : β → Prog L σ PUnit} {J : List β → σ → Prop} {xs : List β}
    (hf : ∀ x xs s, J (x :: xs) s → (f x).Alone G (fun _ => J xs) s) (h : J xs s) :
    (xs.forM f).Alone G (fun _ => J []) s := by
  induction xs generalizing s with
  | nil => exact h
  | cons x xs ih => exact (hf x xs s h).bind fun _ _ h' => ih h'

/-- A loop with an accumulator, by a loop invariant that knows the elements still to come. -/
theorem Alone.foldlM {f : β → γ → Prog L σ β} {J : List γ → β → σ → Prop} {xs : List γ} {b : β}
    (hf : ∀ x xs b s, J (x :: xs) b s → (f b x).Alone G (J xs) s) (h : J xs b s) :
    (xs.foldlM f b).Alone G (J []) s := by
  induction xs generalizing b s with
  | nil => exact h
  | cons x xs ih => exact (hf x xs b s h).bind fun b' _ h' => ih h'

/-- A program that is never kept waiting runs alone as its contract says. -/
theorem NeverWaits.alone {I : σ → Prop} {R : σ → σ → Prop} {p : Prog L σ α} {Q : α → σ → Prop}
    (hp : p.NeverWaits) (hrefl : ∀ s, R s s) (h : p.Ensures I R G Q s) (hI : I s) :
    p.Alone G (fun a s => I s ∧ Q a s) s := by
  induction p generalizing s with
  | done a => exact ⟨hI, h s (hrefl s) hI⟩
  | act l r e n ih =>
    obtain ⟨hIe, hG, hn⟩ := h s (hrefl s) hI (hp s).1
    exact ⟨(hp s).1, hG, ih s (hp s).2 hn hIe⟩

/-- What every action of a program does, it does when it runs alone. -/
theorem NeverWaits.alone_every {p : Prog L σ α} {T : σ → σ → Prop} (hp : p.NeverWaits)
    (h : p.Every T) (s : σ) : p.Alone T (fun _ _ => True) s := by
  induction p generalizing s with
  | done a => trivial
  | act l r e n ih => exact ⟨(hp s).1, (h s).1, ih s (hp s).2 (h s).2 (e s)⟩

/-- A program that runs alone reaches its end. -/
theorem Alone.run {p : Prog L σ α} {Q : α → σ → Prop} (h : p.Alone G Q s) :
    ∃ o, p.run s = some o ∧ Q o.value o.state := by
  induction p generalizing s with
  | done a => exact ⟨_, rfl, h⟩
  | act l r e n ih =>
    obtain ⟨o, ho, hQ⟩ := ih s h.2.2
    exact ⟨{ o with trace := l :: o.trace }, by rw [run_act, if_pos h.1, ho, Option.map_some], hQ⟩

/-- What a program that runs alone returns is the value of its run. -/
theorem Alone.value {p : Prog L σ α} {Q : α → σ → Prop} (h : p.Alone G Q s) :
    p.Alone G (fun a s' => Q a s' ∧ (p.run s).map (·.value) = some a) s := by
  induction p generalizing s with
  | done a => exact ⟨h, rfl⟩
  | act l r e n ih =>
    refine ⟨h.1, h.2.1, (ih s h.2.2).post fun a s' ⟨hQ, hvalue⟩ => ⟨hQ, ?_⟩⟩
    rw [run_act, if_pos h.1, Option.map_map]
    exact hvalue

/-- What a program returns whatever it finds, it returns when it runs alone. -/
theorem NeverWaits.alone_always {p : Prog L σ α} {A : α → Prop} (hp : p.NeverWaits)
    (h : p.Always A) (s : σ) : p.Alone (fun _ _ => True) (fun a _ => A a) s := by
  induction p generalizing s with
  | done a => exact h
  | act l r e n ih => exact ⟨(hp s).1, trivial, ih s (hp s).2 (h s) (e s)⟩

/-- A program on a component of the state changes only that component: `T` is a relation that
contains such changes. -/
theorem Alone.zoom {p : Prog L σ α} {Q : α → σ → Prop} {lbl : L → L'} {get : τ → σ}
    {set : σ → τ → τ} {G' T : τ → τ → Prop} {t : τ} (hset : ∀ t s, get (set s t) = s)
    (hG : ∀ t s, G (get t) s → G' t (set s t)) (hrefl : ∀ t, T t t)
    (htrans : ∀ a b c, T a b → T b c → T a c) (hT : ∀ t s, T t (set s t))
    (h : p.Alone G Q (get t)) :
    (p.zoom lbl get set).Alone G' (fun a t' => Q a (get t') ∧ T t t') t := by
  induction p generalizing t with
  | done a => exact ⟨h, hrefl t⟩
  | act l r e n ih =>
    refine ⟨h.1, hG _ _ h.2.1, Alone.post (ih (get t) ?_) fun a t' ht' =>
      ⟨ht'.1, htrans _ _ _ (hT t _) ht'.2⟩⟩
    rw [hset]
    exact h.2.2

end Prog

/-- The calls are made one after another, each in a state that admits it. -/
def oneByOne (cond : σ → Op → Prop) (c : Config Op L σ ρ) : Move Op → Prop
  | .start op => c.Quiet ∧ cond c.state op
  | .step _ => True

instance (call : Call Op L σ ρ) : Decidable (call.result? ≠ none) :=
  match call.result? with
  | none => .isFalse fun h => h rfl
  | some _ => .isTrue fun h => nomatch h

instance (c : Config Op L σ ρ) : Decidable c.Quiet :=
  inferInstanceAs (Decidable (∀ call ∈ c.calls, call.result? ≠ none))

instance (cond : σ → Op → Prop) [∀ s op, Decidable (cond s op)] (c : Config Op L σ ρ)
    (m : Move Op) : Decidable (oneByOne cond c m) :=
  match m with
  | .start op => inferInstanceAs (Decidable (c.Quiet ∧ cond c.state op))
  | .step _ => inferInstanceAs (Decidable True)

/-- Between the moves of a pool whose calls are made one after another: either every call has
ended and the invariant holds, or the last call is the only one under way. -/
def BetweenMoves (I : σ → Prop) (G : Op → σ → σ → Prop) (c : Config Op L σ ρ) : Prop :=
  (c.Quiet ∧ I c.state) ∨
    ∃ (i : ℕ) (op : Op) (p : Prog L σ ρ), c.calls[i]? = some ⟨op, p⟩ ∧
      (∀ (j : ℕ) call, j ≠ i → c.calls[j]? = some call → call.result? ≠ none) ∧
      p.Alone (G op) (fun _ => I) c.state

section

variable {code : ℕ → Op → Prog L σ ρ} {cond : σ → Op → Prop} {I : σ → Prop}
  {G : Op → σ → σ → Prop} {c c' : Config Op L σ ρ}

theorem BetweenMoves.move (hcode : ∀ i op s, I s → cond s op →
      (code i op).Alone (G op) (fun _ => I) s)
    (h : BetweenMoves I G c) {m : Move Op} (hok : oneByOne cond c m)
    (hn : c.next code m = some c') : BetweenMoves I G c' := by
  obtain ⟨op, rfl, rfl⟩ | ⟨i, op, l, r, e, n, rfl, hi, hr, rfl⟩ := Config.next_cases hn
  · obtain ⟨hquiet, hcond⟩ := hok
    have hI : I c.state := by
      rcases h with h | ⟨i, op', p, hi, -, hp⟩
      · exact h.2
      · have hended := hquiet _ (List.mem_of_getElem? hi)
        cases p with
        | done a => exact hp
        | act l r e n => exact absurd rfl hended
    refine .inr ⟨c.calls.length, op, code c.calls.length op, by simp, fun j call hj hcall => ?_,
      hcode _ _ _ hI hcond⟩
    have hlt := (List.getElem?_eq_some_iff.mp hcall).1
    rw [List.length_append, List.length_singleton] at hlt
    rw [List.getElem?_append_left (by omega)] at hcall
    exact hquiet _ (List.mem_of_getElem? hcall)
  · rcases h with h | ⟨j, op', p, hj, hothers, hp⟩
    · exact absurd rfl (h.1 _ (List.mem_of_getElem? hi))
    · have hij : i = j := by
        by_contra hne
        exact hothers i _ hne hi rfl
      subst hij
      rw [hi, Option.some.injEq, Call.mk.injEq] at hj
      obtain ⟨rfl, rfl⟩ := hj
      refine .inr ⟨i, op, n c.state,
        List.getElem?_set_self (List.getElem?_eq_some_iff.mp hi).1, fun k call hk hcall => ?_,
        hp.2.2⟩
      rw [List.getElem?_set_ne (Ne.symm hk)] at hcall
      exact hothers k call hk hcall

/-- **One call after another.** If every call that is admitted keeps the invariant when it runs
alone, then in every run the invariant holds between the calls, each action makes a change
allowed by the guarantee of its call, and no call is stuck. -/
theorem oneByOne_run (hcode : ∀ i op s, I s → cond s op →
      (code i op).Alone (G op) (fun _ => I) s) {s : σ} (hs : I s)
    (hrun : Run code (oneByOne cond) (Config.initial s) c) :
    (c.Quiet → I c.state) ∧
      (∀ i op p, c.calls[i]? = some ⟨op, p⟩ → ∀ c', c.next code (.step i) = some c' →
        G op c.state c'.state) ∧
      ∀ i, c.InFlight i → ∃ c', c.next code (.step i) = some c' := by
  have h : BetweenMoves I G c := by
    refine hrun.invariant (.inl ⟨fun call hcall => ?_, hs⟩) fun c m c' h hok hn => h.move hcode hok hn
    cases hcall
  refine ⟨fun hquiet => ?_, fun i op p hi c' hn => ?_, fun i hflight => ?_⟩
  · rcases h with h | ⟨i, op, p, hi, -, hp⟩
    · exact h.2
    · have hended := hquiet _ (List.mem_of_getElem? hi)
      cases p with
      | done a => exact hp
      | act l r e n => exact absurd rfl hended
  · obtain ⟨_, h', -⟩ | ⟨i', op', l, r, e, n, h', hi', -, rfl⟩ := Config.next_cases hn
    · cases h'
    · cases h'
      rcases h with h | ⟨j, op'', p', hj, hothers, hp⟩
      · exact absurd rfl (h.1 _ (List.mem_of_getElem? hi'))
      · have hij : i = j := by
          by_contra hne
          exact hothers i _ hne hi' rfl
        subst hij
        rw [hi, Option.some.injEq, Call.mk.injEq] at hi' hj
        obtain ⟨rfl, rfl⟩ := hi'
        obtain ⟨rfl, rfl⟩ := hj
        exact hp.2.1
  · obtain ⟨call, hi, hnone⟩ := hflight
    rcases h with h | ⟨j, op, p, hj, hothers, hp⟩
    · exact absurd hnone (h.1 _ (List.mem_of_getElem? hi))
    · have hij : i = j := by
        by_contra hne
        exact hothers i _ hne hi hnone
      subst hij
      rw [hi, Option.some.injEq] at hj
      subst hj
      cases p with
      | done a => cases hnone
      | act l r e n =>
        exact ⟨⟨e c.state, c.calls.set i ⟨op, n c.state⟩⟩, by simp [Config.next, hi, hp.1]⟩

end

end Interleave
