import RelayBuilder.Interleave.Pool
import RelayBuilder.Interleave.Triple

/-!
# Contracts in a pool

If every call has a contract in the sense of `Triple`, and each tolerates what the others
guarantee, then the contracts hold together in every interleaving.

## Main results

* `run_of_triples`: the invariant, the results and the guarantee of each action
-/

namespace Interleave

variable {Op L σ ρ : Type} {I : σ → Prop} {R : σ → σ → Prop} {G : Op → σ → σ → Prop}
  {A : Op → ρ → Prop}

/-- The invariant holds, and every call keeps its contract from here on. -/
structure Ensured (I : σ → Prop) (R : σ → σ → Prop) (G : Op → σ → σ → Prop) (A : Op → ρ → Prop)
    (c : Config Op L σ ρ) : Prop where
  inv : I c.state
  calls : ∀ call ∈ c.calls, call.prog.Ensures I R (G call.op) (fun a _ => A call.op a) c.state

variable {code : ℕ → Op → Prog L σ ρ} {ok : Config Op L σ ρ → Move Op → Prop}
  {c c' : Config Op L σ ρ}

theorem Ensured.initial {s : σ} (hs : I s) :
    Ensured I R G A (Config.initial s : Config Op L σ ρ) :=
  ⟨hs, fun _ h => absurd h List.not_mem_nil⟩

/-- What an action of a call does is part of its guarantee. -/
theorem Ensured.guarantee (hrefl : ∀ s, R s s) (h : Ensured I R G A c) {i : ℕ} {op : Op}
    {p : Prog L σ ρ} (hi : c.calls[i]? = some ⟨op, p⟩) (hn : c.next code (.step i) = some c') :
    G op c.state c'.state := by
  obtain ⟨_, h', -⟩ | ⟨j, op', l, r, e, n, h', hj, hr, rfl⟩ := Config.next_cases hn
  · cases h'
  · cases h'
    rw [hi, Option.some.injEq, Call.mk.injEq] at hj
    obtain ⟨rfl, rfl⟩ := hj
    exact (h.calls _ (List.mem_of_getElem? hi) c.state (hrefl _) h.inv hr).2.1

/-- A move keeps all contracts. -/
theorem Ensured.move (hrefl : ∀ s, R s s) (htrans : ∀ a b c, R a b → R b c → R a c)
    (hG : ∀ op s s', G op s s' → R s s')
    (hcode : ∀ i op, Triple I R (G op) (fun _ => True) (code i op) fun a _ => A op a)
    (h : Ensured I R G A c) {m : Move Op} (hn : c.next code m = some c') : Ensured I R G A c' := by
  obtain ⟨op, rfl, rfl⟩ | ⟨i, op, l, r, e, n, rfl, hi, hr, rfl⟩ := Config.next_cases hn
  · refine ⟨h.inv, fun call hcall => ?_⟩
    rcases List.mem_append.mp hcall with hcall | hcall
    · exact h.calls call hcall
    · rw [List.mem_singleton.mp hcall]
      exact hcode _ op c.state h.inv trivial
  · obtain ⟨hI, hguar, hrest⟩ := h.calls _ (List.mem_of_getElem? hi) c.state (hrefl _) h.inv hr
    refine ⟨hI, fun call hcall => ?_⟩
    rcases List.mem_or_eq_of_mem_set hcall with hcall | rfl
    · exact (h.calls call hcall).rely htrans (hG _ _ _ hguar)
    · exact hrest

/-- **Contracts compose.** In every interleaving of calls that tolerate each other, the invariant
holds, every call returns what its contract says, and every action keeps to the guarantee of its
call. -/
theorem run_of_triples (hrefl : ∀ s, R s s) (htrans : ∀ a b c, R a b → R b c → R a c)
    (hG : ∀ op s s', G op s s' → R s s')
    (hcode : ∀ i op, Triple I R (G op) (fun _ => True) (code i op) fun a _ => A op a) {s : σ}
    (hs : I s) (hrun : Run code ok (Config.initial s) c) :
    I c.state ∧ (∀ i op a, c.Returned i op a → A op a) ∧
      ∀ i op p c', c.calls[i]? = some ⟨op, p⟩ → c.next code (.step i) = some c' →
        G op c.state c'.state := by
  have h : Ensured I R G A c :=
    hrun.invariant (.initial hs) fun _ _ _ h _ hn => h.move hrefl htrans hG hcode hn
  exact ⟨h.inv, fun i op a hi => h.calls _ (List.mem_of_getElem? hi) c.state (hrefl _) h.inv,
    fun i op p c' hi hn => h.guarantee hrefl hi hn⟩

end Interleave
