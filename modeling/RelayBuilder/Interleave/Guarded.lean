import RelayBuilder.Interleave.Protocol
import RelayBuilder.Interleave.Script

/-!
# Guarded programs

A theorem about runs may assume something of the state in which an action is taken: that a channel
has room whenever somebody sends, say. The contract of a task has no place for it, since it speaks
of every state the other tasks may leave. A *guarded* program has that place. Each of its actions
waits until a guard admits it, so its contract may count on the guard, and a run whose actions are
all admitted is a run of the guarded programs.

## Main definitions

* `Prog.guarded`

## Main results

* `Run.guarded`: such a run is a run of the guarded programs
* `Prog.Ensures.guarded`, `Prog.guarded_bind`, `Script.interpret_guarded`
* `Protocol.Safe.guarded_ensures`: what a call of a protocol does when it is left alone
-/

namespace Interleave

variable {Op L L' σ τ Γ α β ρ : Type}

namespace Prog

/-- The program whose actions wait until they are admitted as well. -/
def guarded (admits : L → σ → Bool) : Prog L σ α → Prog L σ α
  | done a => done a
  | act l r e n => act l (fun s => r s && admits l s) e fun s => (n s).guarded admits

variable {admits : L → σ → Bool}

theorem guarded_bind (p : Prog L σ α) (k : α → Prog L σ β) :
    (p.bind k).guarded admits = (p.guarded admits).bind fun a => (k a).guarded admits := by
  induction p with
  | done a => rfl
  | act l r e n ih => simp only [act_bind, guarded, ih]

theorem guarded_atomic (l : L) (f : σ → α × σ) :
    (atomic l f).guarded admits = await l (admits l) f := by
  simp only [atomic, await, guarded, Bool.true_and]

/-- A guarded program on a component of the state. -/
theorem guarded_zoom {lbl : L → L'} {get : τ → σ} {set : σ → τ → τ} {admits' : L' → τ → Bool}
    (h : ∀ l t, admits' (lbl l) t = admits l (get t)) (p : Prog L σ α) :
    (p.zoom lbl get set).guarded admits' = (p.guarded admits).zoom lbl get set := by
  induction p with
  | done a => rfl
  | act l r e n ih => simp only [zoom, guarded, ih, h]

/-- The actions of the guarded program are those of the program. -/
theorem Every.guarded {T : σ → σ → Prop} {p : Prog L σ α} (h : p.Every T)
    (admits : L → σ → Bool) : (p.guarded admits).Every T := by
  induction p with
  | done a => trivial
  | act l r e n ih => exact fun s => ⟨(h s).1, ih s (h s).2⟩

/-- A contract is one of the guarded program. -/
theorem Ensures.guarded {I : σ → Prop} {R G : σ → σ → Prop} {p : Prog L σ α} {Q : α → σ → Prop}
    {s : σ} (h : p.Ensures I R G Q s) (admits : L → σ → Bool) :
    (p.guarded admits).Ensures I R G Q s := by
  induction p generalizing s with
  | done a => exact h
  | act l r e n ih =>
    intro s' hR hI hr
    obtain ⟨hI', hG, hn⟩ := h s' hR hI (Bool.and_eq_true_iff.mp hr).1
    exact ⟨hI', hG, ih s' hn⟩

end Prog

theorem Script.interpret_guarded {Q : Type} {A : Q → Type} {admits : L → σ → Bool}
    (code : (q : Q) → Prog L σ (A q)) (p : Script Q A α) :
    (p.interpret code).guarded admits = p.interpret fun q => (code q).guarded admits := by
  induction p with
  | done a => rfl
  | ask q n ih => simp only [interpret, Prog.guarded_bind, ih]

/-! ### Runs -/

/-- The call, with a guarded program. -/
def Call.guarded (admits : L → σ → Bool) (call : Call Op L σ ρ) : Call Op L σ ρ :=
  ⟨call.op, call.prog.guarded admits⟩

/-- The configuration, with guarded programs. -/
def Config.guarded (admits : L → σ → Bool) (c : Config Op L σ ρ) : Config Op L σ ρ :=
  ⟨c.state, c.calls.map (Call.guarded admits)⟩

variable {code : ℕ → Op → Prog L σ ρ} {ok ok' : Config Op L σ ρ → Move Op → Prop}
  {admits : L → σ → Bool} {c c' : Config Op L σ ρ}

theorem Call.label?_guarded (call : Call Op L σ ρ) :
    (call.guarded admits).label? = call.label? := by
  obtain ⟨op, p⟩ := call
  cases p <;> rfl

theorem Call.result?_guarded (call : Call Op L σ ρ) :
    (call.guarded admits).result? = call.result? := by
  obtain ⟨op, p⟩ := call
  cases p <;> rfl

theorem Config.Returned.guarded {i : ℕ} {op : Op} {a : ρ} (h : c.Returned i op a) :
    (c.guarded admits).Returned i op a := by
  have hi : c.calls[i]? = some ⟨op, .done a⟩ := h
  rw [Config.Returned, Config.guarded, List.getElem?_map, hi]
  rfl

/-- **A run whose actions are all admitted** is a run of the guarded programs. -/
theorem Run.guarded (h : Run code ok c c')
    (hadmits : ∀ c i l, ok c (.step i) → c.At i l → admits l c.state = true)
    (hok : ∀ c m, ok c m → ok' (c.guarded admits) m) :
    Run (fun i op => (code i op).guarded admits) ok' (c.guarded admits) (c'.guarded admits) := by
  induction h with
  | refl => exact .refl _
  | @tail c' c'' m _ hm hn ih =>
    refine ih.tail (hok _ _ hm) ?_
    obtain ⟨op, rfl, rfl⟩ | ⟨i, op, l, r, e, n, rfl, hi, hr, rfl⟩ := Config.next_cases hn
    · simp [Config.next, Config.guarded, Call.guarded]
    · have hcall : (c'.guarded admits).calls[i]? =
          some ⟨op, .act l (fun s => r s && admits l s) e fun s => (n s).guarded admits⟩ := by
        rw [Config.guarded, List.getElem?_map, hi]
        rfl
      have hready : (r c'.state && admits l c'.state) = true := by
        rw [hr, hadmits _ i l hm ⟨_, hi, rfl⟩]
        rfl
      simp only [Config.next, hcall]
      rw [Config.guarded, if_pos hready, Config.guarded, List.map_set]
      rfl

/-! ### A call of a protocol that is left alone -/

/-- While nobody else acts, a call keeps to its protocol, and its actions need only be admitted. -/
theorem Protocol.Safe.guarded_ensures {P : Protocol L σ Γ} {i : ℕ} {Q : Γ → Prog L σ α → Prop}
    {p : Prog L σ α} {g : Γ} {s : σ} {γ : List Γ}
    (hallowed : ∀ γ s l, admits l s = true → P.allowed γ i s l) (h : P.Safe i Q p g s)
    (hγ : γ[i]? = some g) (hinv : P.inv γ s) :
    (p.guarded admits).Ensures (fun _ => True) Eq (fun _ _ => True)
      (fun a s => ∃ γ g, γ[i]? = some g ∧ P.inv γ s ∧ Q g (.done a)) s := by
  induction p generalizing g s γ with
  | done a =>
    rintro _ rfl -
    obtain ⟨g', hinv', hQ⟩ := h γ s hγ (P.rely_refl _ _) hinv
    exact ⟨_, g', List.getElem?_set_self (List.getElem?_eq_some_iff.mp hγ).1, hinv', hQ⟩
  | act l r e n ih =>
    rintro _ rfl - hr
    obtain ⟨hready, hadmits⟩ := Bool.and_eq_true_iff.mp hr
    obtain ⟨g', hinv', -, hsafe⟩ :=
      h.2 γ s hγ (P.rely_refl _ _) hinv hready (hallowed γ s l hadmits)
    refine ⟨trivial, trivial, ih s hsafe ?_ hinv'⟩
    exact List.getElem?_set_self (List.getElem?_eq_some_iff.mp hγ).1

end Interleave
