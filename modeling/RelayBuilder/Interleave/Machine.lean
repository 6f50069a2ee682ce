import Mathlib.Data.List.Basic

/-!
# Inputs that can be left out

A machine reads inputs one after another. An input has an output and changes the state; a silent
input only changes the state. If some inputs do no more to the state than certain silent ones, they
can be replaced by these, and the outputs for all other inputs stay as they are. Inputs that leave
the state alone can simply be left out.

## Main definitions

* `Machine`, `Machine.outputs`
* `replaced`: the inputs with certain outputs, replaced by silent ones

## Main results

* `Machine.outputs_replaced`
* `Machine.outputs_leftOut`: the case of inputs that change nothing
-/

namespace Interleave

/-- A machine with inputs from `ι`, silent inputs from `κ`, states from `σ` and outputs from `o`. -/
structure Machine (ι κ σ o : Type) where
  step : ι → σ → o × σ
  silent : κ → σ → σ

variable {ι κ σ o : Type}

/-- The inputs of a log. Those with an output that is to be removed are replaced by silent ones. -/
def replaced (removed : o → Bool) (instead : ι → List κ) (log : List (ι × o)) : List (ι ⊕ κ) :=
  log.flatMap fun entry =>
    if removed entry.2 then (instead entry.1).map .inr else [.inl entry.1]

namespace Machine

variable (m : Machine ι κ σ o)

/-- The log of a sequence of inputs: each input with its output. -/
def outputs : List (ι ⊕ κ) → σ → List (ι × o)
  | [], _ => []
  | .inl i :: inputs, s => (i, (m.step i s).1) :: outputs inputs (m.step i s).2
  | .inr k :: inputs, s => outputs inputs (m.silent k s)

/-- The state after silent inputs. -/
def silently (inputs : List κ) (s : σ) : σ := inputs.foldl (fun s k => m.silent k s) s

theorem outputs_silent_append (silents : List κ) (inputs : List (ι ⊕ κ)) (s : σ) :
    m.outputs (silents.map .inr ++ inputs) s = m.outputs inputs (m.silently silents s) := by
  induction silents generalizing s with
  | nil => rfl
  | cons k silents ih => exact ih (m.silent k s)

/-- **Inputs that do no more than silent ones** can be replaced by these. -/
theorem outputs_replaced {removed : o → Bool} {instead : ι → List κ}
    (h : ∀ i s, removed (m.step i s).1 = true → m.silently (instead i) s = (m.step i s).2)
    (inputs : List ι) (s : σ) :
    m.outputs (replaced removed instead (m.outputs (inputs.map .inl) s)) s =
      (m.outputs (inputs.map .inl) s).filter fun entry => !removed entry.2 := by
  induction inputs generalizing s with
  | nil => rfl
  | cons i inputs ih =>
    have ih := ih (m.step i s).2
    rw [List.map_cons, outputs]
    cases hremoved : removed (m.step i s).1 with
    | true =>
      rw [replaced, List.flatMap_cons, if_pos hremoved, ← replaced, outputs_silent_append,
        h i s hremoved, ih, List.filter_cons_of_neg (by simp [hremoved])]
    | false =>
      rw [replaced, List.flatMap_cons, if_neg (by simp [hremoved]), ← replaced,
        List.singleton_append, outputs, ih, List.filter_cons_of_pos (by simp [hremoved])]

/-- Inputs that leave the state alone can be left out. -/
theorem outputs_leftOut {removed : o → Bool}
    (h : ∀ i s, removed (m.step i s).1 = true → (m.step i s).2 = s) (inputs : List ι) (s : σ) :
    m.outputs (replaced removed (fun _ => []) (m.outputs (inputs.map .inl) s)) s =
      (m.outputs (inputs.map .inl) s).filter fun entry => !removed entry.2 := by
  refine m.outputs_replaced (fun i s hremoved => ?_) inputs s
  exact (h i s hremoved).symm

end Machine

end Interleave
