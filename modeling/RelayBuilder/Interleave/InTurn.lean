import RelayBuilder.Interleave.Script

/-!
# Steps in turn

A script that goes through a list, hands every step what the one before made, and stops at the
first failure. And scripts whose questions are answered by other scripts.

## Main definitions

* `Script.inTurn`: the script
* `Script.InTurn`: what happens in it, step by step
* `Script.handle`: the script, with others in place of its questions

## Main results

* `Script.runs_inTurn`: the histories of `inTurn` are those of `InTurn`
* `Script.inTurn_append`: a list in two pieces
-/

namespace Interleave

namespace Script

variable {Q Q' : Type} {A : Q → Type} {A' : Q' → Type} {α β ε ι κ : Type}

/-- The steps of the items, each from the result of the one before, until one fails. -/
def inTurn (step : ι → α → Script Q A (Except ε α)) : List ι → α → Script Q A (Except ε α)
  | [], a => done (.ok a)
  | i :: is, a => (step i a).andThen (inTurn step is)

/-- Every step begins with what the one before left, and the first failure is the result. -/
inductive InTurn (step : ι → α → Script Q A (Except ε α)) :
    List ι → α → History A → Except ε α → Prop where
  | done (a : α) : InTurn step [] a [] (.ok a)
  | fail {i : ι} {a : α} {t : History A} {e : ε} (is : List ι) (h : Runs (step i a) t (.error e)) :
    InTurn step (i :: is) a t (.error e)
  | step {i : ι} {is : List ι} {a a' : α} {t t' : History A} {r : Except ε α}
    (h : Runs (step i a) t (.ok a')) (h' : InTurn step is a' t' r) :
    InTurn step (i :: is) a (t ++ t') r

variable {step : ι → α → Script Q A (Except ε α)} {is : List ι} {a : α} {t : History A}
  {r : Except ε α}

/-- A question on its own. -/
theorem runs_request {q : Q} {t : History A} {r : A q} :
    Runs (request q : Script Q A _) t r ↔ t = [⟨q, r⟩] := by
  refine runs_ask.trans ⟨fun ⟨r', t', ht, h⟩ => ?_, fun h => ⟨r, [], h, .done r⟩⟩
  obtain ⟨rfl, rfl⟩ := runs_done.mp h
  exact ht

/-- What may happen in such a script is what `InTurn` says. -/
theorem runs_inTurn : Runs (inTurn step is a) t r ↔ InTurn step is a t r := by
  constructor
  · intro h
    induction is generalizing a t with
    | nil =>
      obtain ⟨rfl, rfl⟩ := runs_done.mp h
      exact .done a
    | cons i is ih =>
      obtain ⟨t₁, r₁, t₂, rfl, h₁, h₂⟩ := runs_bind.mp h
      match r₁ with
      | .ok a' => exact .step h₁ (ih h₂)
      | .error e =>
        obtain ⟨rfl, rfl⟩ := runs_done.mp h₂
        rw [List.append_nil]
        exact .fail is h₁
  · intro h
    induction h with
    | done a => exact .done _
    | @fail i a t e is h =>
      refine runs_bind.mpr ⟨t, .error e, [], (List.append_nil t).symm, h, .done _⟩
    | @step i is a a' t t' r h _ ih => exact runs_bind.mpr ⟨t, .ok a', t', rfl, h, ih⟩

theorem andThen_assoc {γ : Type} (p : Script Q A (Except ε α)) (k : α → Script Q A (Except ε β))
    (m : β → Script Q A (Except ε γ)) :
    (p.andThen k).andThen m = p.andThen fun a => (k a).andThen m := by
  rw [andThen, andThen, andThen, bind_assoc]
  congr 1
  funext r
  cases r <;> rfl

theorem andThen_done (p : Script Q A (Except ε α)) : (p.andThen fun a => done (.ok a)) = p := by
  rw [andThen]
  refine (congrArg p.bind (funext fun r => ?_)).trans (bind_done p)
  cases r <;> rfl

theorem inTurn_append (step : ι → α → Script Q A (Except ε α)) (is js : List ι) (a : α) :
    inTurn step (is ++ js) a = (inTurn step is a).andThen (inTurn step js) := by
  induction is generalizing a with
  | nil => rfl
  | cons i is ih =>
    rw [List.cons_append, inTurn, inTurn, andThen_assoc]
    congr 1
    funext a'
    exact ih a'

theorem inTurn_concat (step : ι → α → Script Q A (Except ε α)) (is : List ι) (i : ι) (a : α) :
    inTurn step (is ++ [i]) a = (inTurn step is a).andThen (step i) := by
  rw [inTurn_append]
  congr 1
  funext a'
  exact andThen_done (step i a')

/-- Steps of one question each: all of them succeed, or one fails after those before it. -/
theorem InTurn.answered {step : ι → Unit → Script Q A (Except ε Unit)}
    {asked : ι → Except ε Unit → (q : Q) × A q}
    (hstep : ∀ i a t r, Runs (step i a) t r → t = [asked i r]) {a : Unit} {t : History A}
    {r : Except ε Unit} (h : InTurn step is a t r) :
    (r = .ok () ∧ t = is.map fun i => asked i (.ok ())) ∨
      ∃ is₁ i is₂ e, is = is₁ ++ i :: is₂ ∧ r = .error e ∧
        t = is₁.map (fun i => asked i (.ok ())) ++ [asked i (.error e)] := by
  induction h with
  | done a => exact .inl ⟨rfl, rfl⟩
  | @fail i a t e is h => exact .inr ⟨[], i, is, e, rfl, rfl, hstep i a t _ h⟩
  | @step i is a a' t t' r h _ ih =>
    obtain rfl := hstep i a t _ h
    obtain ⟨rfl, rfl⟩ | ⟨is₁, j, is₂, e, rfl, rfl, rfl⟩ := ih
    · exact .inl ⟨rfl, rfl⟩
    · exact .inr ⟨i :: is₁, j, is₂, e, rfl, rfl, rfl⟩

/-! ### Questions answered by scripts -/

/-- The script, when each question is answered by a script of its own. -/
def handle (answer : (q : Q) → Script Q' A' (A q)) : Script Q A α → Script Q' A' α
  | done a => done a
  | ask q n => (answer q).bind fun r => (n r).handle answer

variable (answer : (q : Q) → Script Q' A' (A q))

@[simp] theorem handle_done (a : α) : (done a : Script Q A α).handle answer = done a := rfl

@[simp] theorem handle_request (q : Q) : (request q : Script Q A _).handle answer = answer q :=
  bind_done (answer q)

theorem handle_bind (p : Script Q A α) (k : α → Script Q A β) :
    (p.bind k).handle answer = (p.handle answer).bind fun a => (k a).handle answer := by
  induction p with
  | done a => rfl
  | ask q n ih => simp only [ask_bind, handle, ih, bind_assoc]

theorem handle_andThen (p : Script Q A (Except ε α)) (k : α → Script Q A (Except ε β)) :
    (p.andThen k).handle answer = (p.handle answer).andThen fun a => (k a).handle answer := by
  rw [andThen, handle_bind, andThen]
  congr 1
  funext r
  cases r <;> rfl

end Script

end Interleave
