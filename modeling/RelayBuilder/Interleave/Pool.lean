import Mathlib.Data.List.Basic
import RelayBuilder.Interleave.Program

/-!
# Interleavings

A `Config` is a shared state together with every call that was started so far, finished or not.
A `Move` starts one more call or lets one unfinished call do its next action, so the lists of
moves are exactly the interleavings of the calls at the granularity of their actions.

`Run ok` is the run relation restricted to moves that `ok` admits. A theorem about every
interleaving takes `ok` to be true; a theorem that needs a discipline (these calls do not
overlap, this action is taken only in such a state) states it as `ok`, move by move.
-/

namespace Interleave

variable {Op L σ ρ : Type}

/-- A call: what was called, and what is left of its program. -/
structure Call (Op L σ ρ : Type) where
  op : Op
  prog : Prog L σ ρ

/-- The result of a call that has ended. -/
def Call.result? (c : Call Op L σ ρ) : Option ρ :=
  match c.prog with
  | .done a => some a
  | .act .. => none

/-- The label of the action a call is about to take. -/
def Call.label? (c : Call Op L σ ρ) : Option L :=
  match c.prog with
  | .done _ => none
  | .act l .. => some l

/-- The shared state, and every call started so far in the order of their start. -/
structure Config (Op L σ ρ : Type) where
  state : σ
  calls : List (Call Op L σ ρ)

/-- What the scheduler can do next. -/
inductive Move (Op : Type) where
  | start (op : Op)
  | step (i : ℕ)

/-- A call that runs alone: its start, as the `i`-th call, and its actions. -/
def callAlone (op : Op) (i actions : ℕ) : List (Move Op) :=
  .start op :: List.replicate actions (.step i)

namespace Config

/-- What was called so far. -/
def ops (c : Config Op L σ ρ) : List Op := c.calls.map Call.op

/-- Nothing was called yet. -/
def initial (s : σ) : Config Op L σ ρ := ⟨s, []⟩

/-- The call `i` was started and has not ended. -/
def InFlight (c : Config Op L σ ρ) (i : ℕ) : Prop :=
  ∃ call, c.calls[i]? = some call ∧ call.result? = none

/-- Every call that was started has ended. -/
def Quiet (c : Config Op L σ ρ) : Prop :=
  ∀ call ∈ c.calls, call.result? ≠ none

/-- Call `i` is about to take an action labelled `l`. -/
def At (c : Config Op L σ ρ) (i : ℕ) (l : L) : Prop :=
  ∃ call, c.calls[i]? = some call ∧ call.label? = some l

/-- The configuration after a move, if the move is possible. `code i op` is the program of `op`
when it is the `i`-th call. -/
def next (code : ℕ → Op → Prog L σ ρ) (c : Config Op L σ ρ) :
    Move Op → Option (Config Op L σ ρ)
  | .start op => some ⟨c.state, c.calls ++ [⟨op, code c.calls.length op⟩]⟩
  | .step i =>
    match c.calls[i]? with
    | some ⟨op, .act _ r e n⟩ =>
      if r c.state then some ⟨e c.state, c.calls.set i ⟨op, n c.state⟩⟩ else none
    | _ => none

/-- Call `i` was `op`, and has returned `a`. -/
def Returned (c : Config Op L σ ρ) (i : ℕ) (op : Op) (a : ρ) : Prop :=
  c.calls[i]? = some ⟨op, .done a⟩

theorem returned_iff {c : Config Op L σ ρ} {i : ℕ} {op : Op} {a : ρ} : c.Returned i op a ↔
    c.calls[i]?.map (fun call => (call.op, call.result?)) = some (op, some a) := by
  rw [Returned, Option.map_eq_some_iff]
  refine ⟨fun hi => ⟨_, hi, rfl⟩, ?_⟩
  rintro ⟨⟨op', p⟩, hi, heq⟩
  cases p with
  | act _ _ _ _ => cases heq
  | done a' =>
    cases heq
    exact hi

instance [DecidableEq Op] [DecidableEq ρ] (c : Config Op L σ ρ) (i : ℕ) (op : Op) (a : ρ) :
    Decidable (c.Returned i op a) :=
  decidable_of_iff _ returned_iff.symm

/-- Play a list of moves, as long as they are admitted and possible. -/
def play (code : ℕ → Op → Prog L σ ρ) (ok : Config Op L σ ρ → Move Op → Prop)
    [∀ c m, Decidable (ok c m)] (c : Config Op L σ ρ) : List (Move Op) → Option (Config Op L σ ρ)
  | [] => some c
  | m :: ms => if ok c m then (next code c m).bind fun c' => play code ok c' ms else none

end Config

/-- A run all of whose moves satisfy `ok` in the configuration they are made in. -/
inductive Run (code : ℕ → Op → Prog L σ ρ) (ok : Config Op L σ ρ → Move Op → Prop) :
    Config Op L σ ρ → Config Op L σ ρ → Prop where
  | refl (c) : Run code ok c c
  | tail {c c' c''} {m : Move Op} :
    Run code ok c c' → ok c' m → c'.next code m = some c'' → Run code ok c c''

/-- Any interleaving. -/
def anyMove (_ : Config Op L σ ρ) (_ : Move Op) : Prop := True

instance (c : Config Op L σ ρ) (m : Move Op) : Decidable (anyMove c m) :=
  inferInstanceAs (Decidable True)

section

variable {code : ℕ → Op → Prog L σ ρ} {ok ok' : Config Op L σ ρ → Move Op → Prop}

/-- What a move can be: the start of a call, or one action of a call that is not blocked. -/
theorem Config.next_cases {c c' : Config Op L σ ρ} {m : Move Op} (h : c.next code m = some c') :
    (∃ op, m = .start op ∧ c' = ⟨c.state, c.calls ++ [⟨op, code c.calls.length op⟩]⟩) ∨
      ∃ i op l r e n, m = .step i ∧ c.calls[i]? = some ⟨op, .act l r e n⟩ ∧
        r c.state = true ∧ c' = ⟨e c.state, c.calls.set i ⟨op, n c.state⟩⟩ := by
  cases m with
  | start op => exact .inl ⟨op, rfl, (Option.some.inj h).symm⟩
  | step i =>
    simp only [Config.next] at h
    split at h
    · rename_i op l r e n hi
      by_cases hr : r c.state = true
      · rw [if_pos hr] at h
        exact .inr ⟨i, op, l, r, e, n, rfl, hi, hr, (Option.some.inj h).symm⟩
      · rw [if_neg hr] at h
        cases h
    · cases h

theorem Run.trans {c c' c'' : Config Op L σ ρ} (h : Run code ok c c') (h' : Run code ok c' c'') :
    Run code ok c c'' := by
  induction h' with
  | refl => exact h
  | tail _ hok hn ih => exact ih.tail hok hn

theorem Run.single {c c' : Config Op L σ ρ} {m : Move Op} (hok : ok c m)
    (h : c.next code m = some c') : Run code ok c c' :=
  (Run.refl c).tail hok h

theorem Run.mono {c c' : Config Op L σ ρ} (h : Run code ok c c')
    (himp : ∀ c m, ok c m → ok' c m) : Run code ok' c c' := by
  induction h with
  | refl => exact .refl _
  | tail _ hok hn ih => exact ih.tail (himp _ _ hok) hn

/-- A property of configurations that every admitted move keeps is kept by every run. -/
theorem Run.invariant {A : Config Op L σ ρ → Prop} {c c' : Config Op L σ ρ}
    (h : Run code ok c c') (hA : A c)
    (hmove : ∀ c m c', A c → ok c m → c.next code m = some c' → A c') : A c' := by
  induction h with
  | refl => exact hA
  | tail _ hok hn ih => exact hmove _ _ _ ih hok hn

/-- A property of configurations that every move keeps may be assumed at every move of a run. -/
theorem Run.along {A : Config Op L σ ρ → Prop} {c c' : Config Op L σ ρ} (h : Run code ok c c')
    (hA : A c) (hmove : ∀ c m c', A c → c.next code m = some c' → A c') :
    Run code (fun c m => ok c m ∧ A c) c c' ∧ A c' := by
  induction h with
  | refl => exact ⟨.refl _, hA⟩
  | tail _ hok hn ih => exact ⟨ih.1.tail ⟨hok, ih.2⟩ hn, hmove _ _ _ ih.2 hn⟩

/-- Before the calls of a run are `n`, none was started as the `n`-th. -/
theorem Run.before {c c' : Config Op L σ ρ} (h : Run code ok c c') {n : ℕ}
    (hn : c'.calls.length ≤ n) :
    Run code (fun c m => ok c m ∧ ∀ op, m = .start op → c.calls.length < n) c c' := by
  induction h with
  | refl => exact .refl _
  | tail _ hok hnext ih =>
    obtain ⟨op, rfl, rfl⟩ | ⟨i, op, l, r, e, k, rfl, hi, -, rfl⟩ := Config.next_cases hnext
    · simp only [List.length_append, List.length_singleton] at hn
      exact (ih (by omega)).tail ⟨hok, fun _ _ => by omega⟩ hnext
    · rw [List.length_set] at hn
      exact (ih hn).tail ⟨hok, fun _ h => nomatch h⟩ hnext

/-- Playing a list of moves is a run. -/
theorem Config.run_of_play [∀ c m, Decidable (ok c m)] {c c' : Config Op L σ ρ}
    {ms : List (Move Op)} (h : c.play code ok ms = some c') : Run code ok c c' := by
  induction ms generalizing c with
  | nil =>
    cases h
    exact .refl _
  | cons m ms ih =>
    rw [Config.play] at h
    by_cases hok : ok c m
    · rw [if_pos hok] at h
      obtain ⟨c₁, h₁, h₂⟩ := Option.bind_eq_some_iff.mp h
      exact (Run.single hok h₁).trans (ih h₂)
    · rw [if_neg hok] at h
      cases h

/-! ### Calls along a run -/

@[simp] theorem Config.length_ops (c : Config Op L σ ρ) : c.ops.length = c.calls.length :=
  List.length_map ..

theorem Config.getElem?_ops {c : Config Op L σ ρ} {i : ℕ} {call : Call Op L σ ρ}
    (hi : c.calls[i]? = some call) : c.ops[i]? = some call.op := by
  rw [Config.ops, List.getElem?_map, hi]
  rfl

@[simp] theorem Config.ops_start (c : Config Op L σ ρ) (call : Call Op L σ ρ) :
    (Config.mk c.state (c.calls ++ [call])).ops = c.ops ++ [call.op] := by
  simp [Config.ops]

/-- An action of a call changes nothing of what was called. -/
theorem Config.ops_step {c : Config Op L σ ρ} {i : ℕ} {call call' : Call Op L σ ρ} {s : σ}
    (hi : c.calls[i]? = some call) (hop : call'.op = call.op) :
    (Config.mk s (c.calls.set i call')).ops = c.ops := by
  obtain ⟨hlt, heq⟩ := List.getElem?_eq_some_iff.mp (Config.getElem?_ops hi)
  rw [Config.ops, List.map_set, hop, ← heq]
  exact List.set_getElem_self hlt

/-- A call that has ended stays as it is. -/
theorem Config.ended_of_next {c c' : Config Op L σ ρ} {m : Move Op} (h : c.next code m = some c')
    {i : ℕ} {call : Call Op L σ ρ} (hi : c.calls[i]? = some call) (hr : call.result? ≠ none) :
    c'.calls[i]? = some call := by
  obtain ⟨op, rfl, rfl⟩ | ⟨j, op, l, r, e, n, rfl, hj, -, rfl⟩ := Config.next_cases h
  · have hlt : i < c.calls.length := (List.getElem?_eq_some_iff.mp hi).1
    rw [List.getElem?_append_left hlt]
    exact hi
  · have hij : j ≠ i := by
      rintro rfl
      rw [hi] at hj
      cases hj
      exact hr rfl
    rw [List.getElem?_set_ne hij]
    exact hi

theorem Run.ended {c c' : Config Op L σ ρ} (h : Run code ok c c') {i : ℕ}
    {call : Call Op L σ ρ} (hi : c.calls[i]? = some call) (hr : call.result? ≠ none) :
    c'.calls[i]? = some call := by
  induction h with
  | refl => exact hi
  | tail _ _ hn ih => exact Config.ended_of_next hn ih hr

end

end Interleave
