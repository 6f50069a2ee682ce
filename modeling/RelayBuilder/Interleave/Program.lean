import Mathlib.Logic.Basic

/-!
# Programs of atomic actions

A task of an asynchronous program runs without interruption between two suspension points, and
what it touches in between is protected by a lock or is a single atomic cell. So a task is
modelled as a sequence of *atomic actions* on a state `σ` shared by all tasks: each action waits
until it is `ready`, changes the state by its `effect`, and goes on with a program that may
depend on the state it found.

`Prog L σ α` is the type of these programs, with a label of type `L` on every action and a result
of type `α`. Programs are well founded trees, so every program that is never kept waiting
terminates.

## Main definitions

* `Prog`, and its monad structure: loops are `List.forM` and `List.foldlM`
* `Prog.atomic`, `Prog.await`: one action that returns a value
* `Prog.zoom`: a program on a component, as a program on the whole state
* `Prog.run`: the program alone, from a given state
-/

namespace Interleave

/-- A program of atomic actions, labelled by `L`, on a shared state `σ`, with a result in `α`. -/
inductive Prog (L σ α : Type) where
  | done (a : α)
  | act (label : L) (ready : σ → Bool) (effect : σ → σ) (next : σ → Prog L σ α)

namespace Prog

variable {L L' σ τ α β γ : Type}

/-- Sequencing: every result of the first program is replaced by what follows it. -/
protected def bind : Prog L σ α → (α → Prog L σ β) → Prog L σ β
  | done a, k => k a
  | act l r e n, k => act l r e fun s => (n s).bind k

instance : Monad (Prog L σ) where
  pure := done
  bind := Prog.bind

/-- One action: wait until `ready`, then return the first component of `f` and move to the
second. -/
def await (l : L) (ready : σ → Bool) (f : σ → α × σ) : Prog L σ α :=
  act l ready (fun s => (f s).2) fun s => done (f s).1

/-- One action that never waits. -/
def atomic (l : L) (f : σ → α × σ) : Prog L σ α := await l (fun _ => true) f

/-- A program on a component of the state, as a program on the whole state. -/
def zoom (lbl : L → L') (get : τ → σ) (set : σ → τ → τ) : Prog L σ α → Prog L' τ α
  | done a => done a
  | act l r e n =>
    act (lbl l) (fun t => r (get t)) (fun t => set (e (get t)) t) fun t => zoom lbl get set (n (get t))

@[simp] theorem pure_eq (a : α) : (pure a : Prog L σ α) = done a := rfl

@[simp] theorem bind_eq (p : Prog L σ α) (k : α → Prog L σ β) : p >>= k = p.bind k := rfl

@[simp] theorem done_bind (a : α) (k : α → Prog L σ β) : (done a : Prog L σ α).bind k = k a := rfl

@[simp] theorem act_bind (l : L) (r : σ → Bool) (e : σ → σ) (n : σ → Prog L σ α)
    (k : α → Prog L σ β) : (act l r e n).bind k = act l r e fun s => (n s).bind k := rfl

theorem bind_assoc (p : Prog L σ α) (k : α → Prog L σ β) (m : β → Prog L σ γ) :
    (p.bind k).bind m = p.bind fun a => (k a).bind m := by
  induction p with
  | done a => rfl
  | act l r e n ih => simp only [act_bind, ih]

theorem bind_done (p : Prog L σ α) : p.bind done = p := by
  induction p with
  | done a => rfl
  | act l r e n ih => simp only [act_bind, ih]

instance : LawfulMonad (Prog L σ) :=
  LawfulMonad.mk' (Prog L σ) (fun p => bind_done p) (fun _ _ => rfl) bind_assoc

/-! ### Running alone -/

/-- What a program that ran alone leaves: its result, the state, and the labels of its actions. -/
structure Outcome (L σ α : Type) where
  value : α
  state : σ
  trace : List L

/-- Run a program alone. `none` when an action is not ready, since nobody else can help. -/
def run : Prog L σ α → σ → Option (Outcome L σ α)
  | done a, s => some ⟨a, s, []⟩
  | act l r e n, s =>
    if r s then ((n s).run (e s)).map fun o => { o with trace := l :: o.trace } else none

@[simp] theorem run_done (a : α) (s : σ) : (done a : Prog L σ α).run s = some ⟨a, s, []⟩ := rfl

theorem run_act (l : L) (r : σ → Bool) (e : σ → σ) (n : σ → Prog L σ α) (s : σ) :
    (act l r e n).run s =
      if r s then ((n s).run (e s)).map fun o => { o with trace := l :: o.trace } else none := rfl

@[simp] theorem run_atomic (l : L) (f : σ → α × σ) (s : σ) :
    (atomic l f).run s = some ⟨(f s).1, (f s).2, [l]⟩ := rfl

/-- Calls that run alone one after another: their results, and the state they leave. -/
def runCalls {Op : Type} (code : Op → Prog L σ α) : List Op → σ → Option (List α × σ)
  | [], s => some ([], s)
  | op :: ops, s => ((code op).run s).bind fun o =>
    (runCalls code ops o.state).map fun rest => (o.value :: rest.1, rest.2)

theorem runCalls_append {Op : Type} (code : Op → Prog L σ α) (ops : List Op) (op : Op) (s : σ) :
    runCalls code (ops ++ [op]) s = (runCalls code ops s).bind fun before =>
      ((code op).run before.2).map fun o => (before.1 ++ [o.value], o.state) := by
  induction ops generalizing s with
  | nil =>
    cases h : (code op).run s <;> simp [runCalls, h]
  | cons op' ops ih =>
    rw [List.cons_append, runCalls, runCalls]
    cases (code op').run s with
    | none => rfl
    | some o =>
      rw [Option.bind_some, Option.bind_some, ih]
      cases runCalls code ops o.state with
      | none => rfl
      | some before => cases h : (code op).run before.2 <;> simp [h]

/-- Whatever the states the program finds, its result satisfies `A`. -/
def Always (A : α → Prop) : Prog L σ α → Prop
  | done a => A a
  | act _ _ _ n => ∀ s, (n s).Always A

theorem Always.bind {A : α → Prop} {B : β → Prop} {p : Prog L σ α} {k : α → Prog L σ β}
    (hp : p.Always A) (hk : ∀ a, A a → (k a).Always B) : (p.bind k).Always B := by
  induction p with
  | done a => exact hk a hp
  | act l r e n ih => exact fun s => ih s (hp s)

theorem Always.mono {A B : α → Prop} {p : Prog L σ α} (hp : p.Always A) (hAB : ∀ a, A a → B a) :
    p.Always B := by
  induction p with
  | done a => exact hAB a hp
  | act l r e n ih => exact fun s => ih s (hp s)

theorem always_true (p : Prog L σ α) : p.Always fun _ => True := by
  induction p with
  | done a => trivial
  | act l r e n ih => exact fun s => ih s

theorem Always.foldlM {A : β → Prop} {f : β → γ → Prog L σ β} (xs : List γ) {b : β} (hb : A b)
    (hf : ∀ b, A b → ∀ x ∈ xs, (f b x).Always A) : (xs.foldlM f b).Always A := by
  induction xs generalizing b with
  | nil => exact hb
  | cons x xs ih =>
    exact (hf b hb x (List.mem_cons_self ..)).bind fun b' hb' =>
      ih hb' fun b hb y hy => hf b hb y (List.mem_cons_of_mem _ hy)

/-- Every action of the program, whatever the state it finds, makes a `T`-change. -/
def Every (T : σ → σ → Prop) : Prog L σ α → Prop
  | done _ => True
  | act _ _ e n => ∀ s, T s (e s) ∧ (n s).Every T

theorem Every.bind {T : σ → σ → Prop} {p : Prog L σ α} {k : α → Prog L σ β} (hp : p.Every T)
    (hk : ∀ a, (k a).Every T) : (p.bind k).Every T := by
  induction p with
  | done a => exact hk a
  | act l r e n ih => exact fun s => ⟨(hp s).1, ih s (hp s).2⟩

theorem Every.mono {T T' : σ → σ → Prop} {p : Prog L σ α} (hp : p.Every T)
    (h : ∀ s s', T s s' → T' s s') : p.Every T' := by
  induction p with
  | done a => trivial
  | act l r e n ih => exact fun s => ⟨h _ _ (hp s).1, ih s (hp s).2⟩

theorem every_atomic {T : σ → σ → Prop} (l : L) {f : σ → α × σ} (h : ∀ s, T s (f s).2) :
    (atomic l f).Every T :=
  fun s => ⟨h s, trivial⟩

/-- What follows an action, for what the action can return. -/
theorem every_atomic_bind {T : σ → σ → Prop} (l : L) {f : σ → α × σ} {k : α → Prog L σ β}
    (h : ∀ s, T s (f s).2) (hk : ∀ s, (k (f s).1).Every T) : ((atomic l f).bind k).Every T :=
  fun s => ⟨h s, hk s⟩

theorem every_done {T : σ → σ → Prop} (a : α) : (done a : Prog L σ α).Every T := trivial

theorem Every.forM {T : σ → σ → Prop} {f : β → Prog L σ PUnit} (hf : ∀ b, (f b).Every T)
    (xs : List β) : (xs.forM f).Every T := by
  induction xs with
  | nil => trivial
  | cons x xs ih => exact (hf x).bind fun _ => ih

theorem Every.foldlM {T : σ → σ → Prop} {f : β → γ → Prog L σ β} (hf : ∀ b c, (f b c).Every T)
    (xs : List γ) (b : β) : (xs.foldlM f b).Every T := by
  induction xs generalizing b with
  | nil => trivial
  | cons x xs ih => exact (hf b x).bind fun b' => ih b'

/-! ### Programs on a component -/

section Zoom

variable (lbl : L → L') (get : τ → σ) (set : σ → τ → τ)

theorem zoom_bind (p : Prog L σ α) (k : α → Prog L σ β) :
    (p.bind k).zoom lbl get set = (p.zoom lbl get set).bind fun a => (k a).zoom lbl get set := by
  induction p with
  | done a => rfl
  | act l r e n ih => simp only [act_bind, zoom, ih]

theorem Always.zoom {A : α → Prop} {p : Prog L σ α} (hp : p.Always A) :
    (p.zoom lbl get set).Always A := by
  induction p with
  | done a => exact hp
  | act l r e n ih => exact fun t => ih (get t) (hp (get t))

theorem Every.zoom {T : σ → σ → Prop} {T' : τ → τ → Prop}
    (h : ∀ t s, T (get t) s → T' t (set s t)) {p : Prog L σ α} (hp : p.Every T) :
    (p.zoom lbl get set).Every T' := by
  induction p with
  | done a => trivial
  | act l r e n ih => exact fun t => ⟨h t _ (hp (get t)).1, ih _ (hp (get t)).2⟩

/-- What a program on a component does to the whole state. -/
theorem every_zoom {T : τ → τ → Prop} (h : ∀ t s, T t (set s t)) (p : Prog L σ α) :
    (p.zoom lbl get set).Every T := by
  induction p with
  | done a => trivial
  | act l r e n ih => exact fun t => ⟨h t _, ih _⟩

end Zoom

/-- Every action of the program is ready in every state. -/
def NeverWaits : Prog L σ α → Prop
  | done _ => True
  | act _ r _ n => ∀ s, r s = true ∧ (n s).NeverWaits

theorem NeverWaits.bind {p : Prog L σ α} {k : α → Prog L σ β} (hp : p.NeverWaits)
    (hk : ∀ a, (k a).NeverWaits) : (p.bind k).NeverWaits := by
  induction p with
  | done a => exact hk a
  | act l r e n ih => exact fun s => ⟨(hp s).1, ih s (hp s).2⟩

theorem neverWaits_atomic (l : L) (f : σ → α × σ) : (atomic l f).NeverWaits :=
  fun _ => ⟨rfl, trivial⟩

theorem neverWaits_done (a : α) : (done a : Prog L σ α).NeverWaits := trivial

theorem NeverWaits.forM {f : β → Prog L σ PUnit} (hf : ∀ b, (f b).NeverWaits) (xs : List β) :
    (xs.forM f).NeverWaits := by
  induction xs with
  | nil => trivial
  | cons x xs ih => exact (hf x).bind fun _ => ih

theorem NeverWaits.foldlM {f : β → γ → Prog L σ β} (hf : ∀ b c, (f b c).NeverWaits)
    (xs : List γ) (b : β) : (xs.foldlM f b).NeverWaits := by
  induction xs generalizing b with
  | nil => trivial
  | cons x xs ih => exact (hf b x).bind fun b' => ih b'

theorem NeverWaits.zoom {p : Prog L σ α} (hp : p.NeverWaits) (lbl : L → L') (get : τ → σ)
    (set : σ → τ → τ) : (p.zoom lbl get set).NeverWaits := by
  induction p with
  | done a => trivial
  | act l r e n ih => exact fun t => ⟨(hp (get t)).1, ih _ (hp (get t)).2⟩

/-- A program that never waits runs to its end. -/
theorem NeverWaits.run_isSome {p : Prog L σ α} (hp : p.NeverWaits) (s : σ) :
    (p.run s).isSome := by
  induction p generalizing s with
  | done a => rfl
  | act l r e n ih =>
    rw [run_act, if_pos (hp s).1, Option.isSome_map]
    exact ih s (hp s).2 (e s)

end Prog

end Interleave
