import RelayBuilder.Interleave.Pool
import RelayBuilder.Interleave.Triple

/-!
# A call that is made at most once

Some operation is called at most once along a run, and all other calls are bystanders. The only
call of the operation may count on the bystanders' guarantee `frame`, which says more than what it
guarantees itself: the bystanders have to put up with `weak`.

## Main results

* `OnceInv.run`: the contracts hold together along every such run
-/

namespace Interleave

variable {Op L σ ρ : Type}

/-- At most one of the calls is `mine`. -/
def once (mine : Op → Prop) (c : Config Op L σ ρ) : Move Op → Prop
  | .start op => mine op → ∀ call ∈ c.calls, ¬ mine call.op
  | .step _ => True

instance (mine : Op → Prop) [DecidablePred mine] (c : Config Op L σ ρ) (m : Move Op) :
    Decidable (once mine c m) :=
  match m with
  | .start op => inferInstanceAs (Decidable (mine op → ∀ call ∈ c.calls, ¬ mine call.op))
  | .step _ => inferInstanceAs (Decidable True)

/-- Before the call that is `mine`, `Pre` holds. All calls keep their contracts from here on. -/
structure OnceInv (I : σ → Prop) (weak frame : σ → σ → Prop) (mine : Op → Prop) (Pre : σ → Prop)
    (Q : ρ → σ → Prop) (c : Config Op L σ ρ) : Prop where
  inv : I c.state
  before : (∀ call ∈ c.calls, ¬ mine call.op) → Pre c.state
  other : ∀ call ∈ c.calls, ¬ mine call.op →
    call.prog.Ensures I weak frame (fun _ _ => True) c.state
  own : ∀ call ∈ c.calls, mine call.op → call.prog.Ensures I frame weak Q c.state
  unique : ∀ (i j : ℕ) (call call' : Call Op L σ ρ), c.calls[i]? = some call →
    c.calls[j]? = some call' → mine call.op → mine call'.op → i = j

namespace OnceInv

variable {I : σ → Prop} {weak frame : σ → σ → Prop} {mine : Op → Prop} {Pre : σ → Prop}
  {Q : ρ → σ → Prop} {c c' : Config Op L σ ρ} {code : ℕ → Op → Prog L σ ρ}

theorem initial {s : σ} (hs : I s) (hpre : Pre s) :
    OnceInv I weak frame mine Pre Q (Config.initial s : Config Op L σ ρ) := by
  refine ⟨hs, fun _ => hpre, fun _ h => ?_, fun _ h => ?_, fun i _ _ _ h => ?_⟩
  · cases h
  · cases h
  · simp [Config.initial] at h

/-- The start of a call. -/
theorem start (h : OnceInv I weak frame mine Pre Q c) {op : Op} (hok : once mine c (.start op))
    (hother : ¬ mine op → Triple I weak frame (fun _ => True) (code c.calls.length op)
      fun _ _ => True)
    (hown : mine op → Pre c.state → (code c.calls.length op).Ensures I frame weak Q c.state) :
    OnceInv I weak frame mine Pre Q
      ⟨c.state, c.calls ++ [⟨op, code c.calls.length op⟩]⟩ := by
  have hmem : ∀ {call : Call Op L σ ρ}, call ∈ c.calls ++ [⟨op, code c.calls.length op⟩] →
      call ∈ c.calls ∨ call = ⟨op, code c.calls.length op⟩ := fun hcall =>
    (List.mem_append.mp hcall).imp_right List.mem_singleton.mp
  have hold : ∀ (i : ℕ) (call : Call Op L σ ρ),
      (c.calls ++ [⟨op, code c.calls.length op⟩])[i]? = some call →
        c.calls[i]? = some call ∨ i = c.calls.length ∧ call.op = op := by
    intro i call hi
    obtain hlt | hle := Nat.lt_or_ge i c.calls.length
    · rw [List.getElem?_append_left hlt] at hi
      exact .inl hi
    · rw [List.getElem?_append_right hle] at hi
      have hlen := (List.getElem?_eq_some_iff.mp hi).1
      rw [List.length_singleton] at hlen
      refine .inr ⟨by omega, ?_⟩
      rw [List.mem_singleton.mp (List.mem_of_getElem? hi)]
  refine ⟨h.inv, fun hall => ?_, fun call hcall hmine => ?_, fun call hcall hmine => ?_,
    fun i j call call' hi hj hmine hmine' => ?_⟩
  · exact h.before fun call hcall => hall call (List.mem_append_left _ hcall)
  · obtain hcall | rfl := hmem hcall
    · exact h.other call hcall hmine
    · exact hother hmine c.state h.inv trivial
  · obtain hcall | rfl := hmem hcall
    · exact h.own call hcall hmine
    · exact hown hmine (h.before (hok hmine))
  · obtain hi | ⟨rfl, hop⟩ := hold i call hi
    · obtain hj | ⟨rfl, hop⟩ := hold j call' hj
      · exact h.unique i j call call' hi hj hmine hmine'
      · rw [hop] at hmine'
        exact absurd hmine (hok hmine' call (List.mem_of_getElem? hi))
    · obtain hj | ⟨rfl, -⟩ := hold j call' hj
      · rw [hop] at hmine
        exact absurd hmine' (hok hmine call' (List.mem_of_getElem? hj))
      · rfl

/-- One action of a call. -/
theorem step (h : OnceInv I weak frame mine Pre Q c) (hwrefl : ∀ s, weak s s)
    (hfrefl : ∀ s, frame s s) (hwtrans : ∀ a b c, weak a b → weak b c → weak a c)
    (hftrans : ∀ a b c, frame a b → frame b c → frame a c) (hweak : ∀ s s', frame s s' → weak s s')
    (hpre : Stable I frame Pre) {i : ℕ} {op : Op} {l : L} {r : σ → Bool} {e : σ → σ}
    {n : σ → Prog L σ ρ} (hi : c.calls[i]? = some ⟨op, .act l r e n⟩) (hr : r c.state = true) :
    OnceInv I weak frame mine Pre Q ⟨e c.state, c.calls.set i ⟨op, n c.state⟩⟩ := by
  have hmem := List.mem_of_getElem? hi
  have hlt : i < c.calls.length := (List.getElem?_eq_some_iff.mp hi).1
  -- the op of a call does not change
  have hop : ∀ (j : ℕ) (call : Call Op L σ ρ), (c.calls.set i ⟨op, n c.state⟩)[j]? = some call →
      ∃ call₀, c.calls[j]? = some call₀ ∧ call₀.op = call.op := by
    intro j call hj
    by_cases hij : i = j
    · subst hij
      rw [List.getElem?_set_self hlt, Option.some.injEq] at hj
      subst hj
      exact ⟨_, hi, rfl⟩
    · rw [List.getElem?_set_ne hij] at hj
      exact ⟨call, hj, rfl⟩
  have hunique : ∀ (j k : ℕ) (call call' : Call Op L σ ρ),
      (c.calls.set i ⟨op, n c.state⟩)[j]? = some call →
      (c.calls.set i ⟨op, n c.state⟩)[k]? = some call' → mine call.op → mine call'.op → j = k := by
    intro j k call call' hj hk hmine hmine'
    obtain ⟨call₀, hj₀, hop₀⟩ := hop j call hj
    obtain ⟨call₁, hk₁, hop₁⟩ := hop k call' hk
    exact h.unique j k call₀ call₁ hj₀ hk₁ (hop₀ ▸ hmine) (hop₁ ▸ hmine')
  have hset : ∀ {call : Call Op L σ ρ}, call ∈ c.calls.set i ⟨op, n c.state⟩ →
      call = ⟨op, n c.state⟩ ∨ ∃ j, j ≠ i ∧ c.calls[j]? = some call := by
    intro call hcall
    obtain ⟨j, hj⟩ := List.mem_iff_getElem?.mp hcall
    by_cases hij : i = j
    · subst hij
      rw [List.getElem?_set_self hlt, Option.some.injEq] at hj
      exact .inl hj.symm
    · rw [List.getElem?_set_ne hij] at hj
      exact .inr ⟨j, Ne.symm hij, hj⟩
  have hall : (∀ call ∈ c.calls.set i ⟨op, n c.state⟩, ¬ mine call.op) →
      ∀ call ∈ c.calls, ¬ mine call.op := by
    intro hnone call hcall
    obtain ⟨j, hj⟩ := List.mem_iff_getElem?.mp hcall
    by_cases hij : i = j
    · subst hij
      rw [hi, Option.some.injEq] at hj
      subst hj
      exact hnone ⟨op, n c.state⟩ (List.mem_of_getElem? (List.getElem?_set_self hlt))
    · exact hnone call (List.mem_of_getElem? (by rw [List.getElem?_set_ne hij, hj]))
  by_cases hmine : mine op
  · obtain ⟨hI, hguar, hrest⟩ := h.own _ hmem hmine c.state (hfrefl _) h.inv hr
    refine ⟨hI, fun hnone => absurd hmine (hall hnone _ hmem), fun call hcall hother => ?_,
      fun call hcall hown => ?_, hunique⟩
    · obtain rfl | ⟨j, -, hj⟩ := hset hcall
      · exact absurd hmine hother
      · exact (h.other call (List.mem_of_getElem? hj) hother).rely hwtrans hguar
    · obtain rfl | ⟨j, hji, hj⟩ := hset hcall
      · exact hrest
      · exact absurd (h.unique j i call _ hj hi hown hmine) hji
  · obtain ⟨hI, hguar, hrest⟩ := h.other _ hmem hmine c.state (hwrefl _) h.inv hr
    refine ⟨hI, fun hnone => hpre _ _ hguar hI (h.before (hall hnone)),
      fun call hcall hother => ?_, fun call hcall hown => ?_, hunique⟩
    · obtain rfl | ⟨j, -, hj⟩ := hset hcall
      · exact hrest
      · exact (h.other call (List.mem_of_getElem? hj) hother).rely hwtrans (hweak _ _ hguar)
    · obtain rfl | ⟨j, -, hj⟩ := hset hcall
      · exact absurd hown hmine
      · exact (h.own call (List.mem_of_getElem? hj) hown).rely hftrans hguar

/-- **The contracts hold together**, along every run with at most one call that is `mine`. That
call may count on whatever is asked of the state it starts in. -/
theorem run {ok : Config Op L σ ρ → Move Op → Prop} (hok : ∀ c m, ok c m → once mine c m)
    (hwrefl : ∀ s, weak s s) (hfrefl : ∀ s, frame s s)
    (hwtrans : ∀ a b c, weak a b → weak b c → weak a c)
    (hftrans : ∀ a b c, frame a b → frame b c → frame a c) (hweak : ∀ s s', frame s s' → weak s s')
    (hpre : Stable I frame Pre)
    (hother : ∀ i op, ¬ mine op → Triple I weak frame (fun _ => True) (code i op) fun _ _ => True)
    (hown : ∀ c op, ok c (.start op) → mine op → I c.state → Pre c.state →
      (code c.calls.length op).Ensures I frame weak Q c.state) {s : σ} (hs : I s)
    (hs' : Pre s) (hrun : Run code ok (Config.initial s) c) :
    OnceInv I weak frame mine Pre Q c := by
  induction hrun with
  | refl => exact .initial hs hs'
  | tail _ hm hn ih =>
    obtain ⟨op, rfl, rfl⟩ | ⟨i, op, l, r, e, n, rfl, hi, hr, rfl⟩ := Config.next_cases hn
    · exact ih.start (hok _ _ hm) (hother _ op) fun hmine => hown _ op hm hmine ih.inv
    · exact ih.step hwrefl hfrefl hwtrans hftrans hweak hpre hi hr

/-- What a call that is `mine` has returned, and what still holds then. -/
theorem returned (h : OnceInv I weak frame mine Pre Q c) (hfrefl : ∀ s, frame s s) {i : ℕ}
    {op : Op} {a : ρ} (hi : c.Returned i op a) (hmine : mine op) : Q a c.state :=
  h.own _ (List.mem_of_getElem? hi) hmine c.state (hfrefl _) h.inv

end OnceInv

end Interleave
