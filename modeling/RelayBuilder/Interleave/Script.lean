import RelayBuilder.Interleave.Program

/-!
# Programs that ask services

A program that does nothing but ask its environment, and compute with the answers. `Script Q A α`
is the type of these programs, where `A q` is the type of the answers to the question `q`. What a
question does is left open: the environment may answer it in any way, at any time, and may change
its mind. So a statement about all histories of a script holds whatever the services do, and
whatever other tasks do to them meanwhile.

A script becomes a program on a state when the questions are given an answer there, at once by
`Script.play`, or by a program of atomic actions by `Script.interpret`.

## Main definitions

* `Script`, and its monad structure: loops are `List.forM` and `List.foldlM`
* `Script.Runs`: a history of a script, with its result
* `Script.play`: the script in an environment that answers from a state

## Main results

* `Script.ensures_bind`, `Script.Ensures.forM`, `Script.Ensures.foldlM`: the rules for what holds
  of all histories
* `Script.stepsOnly_andThen`: the rule for steps that may fail
-/

namespace Interleave

/-- A program that asks questions from `Q`, and goes on with the answers. -/
inductive Script (Q : Type) (A : Q → Type) (α : Type) where
  | done (a : α)
  | ask (q : Q) (next : A q → Script Q A α)

namespace Script

variable {Q : Type} {A : Q → Type} {α β γ ε σ L : Type}

/-- Sequencing: every result of the first program is replaced by what follows it. -/
protected def bind : Script Q A α → (α → Script Q A β) → Script Q A β
  | done a, k => k a
  | ask q n, k => ask q fun r => (n r).bind k

instance : Monad (Script Q A) where
  pure := done
  bind := Script.bind

/-- Ask one question and return its answer. -/
def request (q : Q) : Script Q A (A q) := ask q done

@[simp] theorem pure_eq (a : α) : (pure a : Script Q A α) = done a := rfl

@[simp] theorem bind_eq (p : Script Q A α) (k : α → Script Q A β) : p >>= k = p.bind k := rfl

@[simp] theorem done_bind (a : α) (k : α → Script Q A β) :
    (done a : Script Q A α).bind k = k a := rfl

@[simp] theorem ask_bind (q : Q) (n : A q → Script Q A α) (k : α → Script Q A β) :
    (ask q n).bind k = ask q fun r => (n r).bind k := rfl

@[simp] theorem request_bind (q : Q) (k : A q → Script Q A β) :
    (request q).bind k = ask q k := rfl

theorem bind_assoc (p : Script Q A α) (k : α → Script Q A β) (m : β → Script Q A γ) :
    (p.bind k).bind m = p.bind fun a => (k a).bind m := by
  induction p with
  | done a => rfl
  | ask q n ih => simp only [ask_bind, ih]

theorem bind_done (p : Script Q A α) : p.bind done = p := by
  induction p with
  | done a => rfl
  | ask q n ih => simp only [ask_bind, ih]

instance : LawfulMonad (Script Q A) :=
  LawfulMonad.mk' (Script Q A) (fun p => bind_done p) (fun _ _ => rfl) bind_assoc

/-- Go on with the value of a result, or stop with its error. -/
def andThen (p : Script Q A (Except ε α)) (k : α → Script Q A (Except ε β)) :
    Script Q A (Except ε β) :=
  p.bind fun
    | .ok a => k a
    | .error e => done (.error e)

/-- Change the error of a result. -/
def mapError {ε' : Type} (f : ε → ε') (p : Script Q A (Except ε α)) :
    Script Q A (Except ε' α) :=
  p.bind fun result => done (result.mapError f)

/-- Do one thing after another, until one of them fails. -/
def forEach (f : β → Script Q A (Except ε Unit)) : List β → Script Q A (Except ε Unit)
  | [] => done (.ok ())
  | b :: bs => (f b).andThen fun _ => forEach f bs

/-! ### Histories -/

/-- What was asked, and what was answered. -/
abbrev History (A : Q → Type) := List ((q : Q) × A q)

/-- The program can ask and be answered as in the history, and return the value then. -/
inductive Runs : Script Q A α → History A → α → Prop where
  | done (a : α) : Runs (done a) [] a
  | ask {q : Q} {n : A q → Script Q A α} {t : History A} {a : α} (r : A q)
    (h : Runs (n r) t a) : Runs (ask q n) (⟨q, r⟩ :: t) a

/-- One question, and a history of what follows its answer. -/
theorem Runs.request {q : Q} {k : A q → Script Q A β} {t : History A} {b : β} (r : A q)
    (h : Runs (k r) t b) : Runs ((request q).bind k) (⟨q, r⟩ :: t) b :=
  .ask r h

theorem runs_done {a b : α} {t : History A} :
    Runs (done a : Script Q A α) t b ↔ t = [] ∧ b = a := by
  refine ⟨fun h => ?_, fun ⟨ht, hb⟩ => ?_⟩
  · cases h
    exact ⟨rfl, rfl⟩
  · rw [ht, hb]
    exact .done a

theorem runs_ask {q : Q} {n : A q → Script Q A α} {t : History A} {b : α} :
    Runs (ask q n) t b ↔ ∃ r t', t = ⟨q, r⟩ :: t' ∧ Runs (n r) t' b := by
  refine ⟨fun h => ?_, fun ⟨r, t', ht, h⟩ => ?_⟩
  · cases h with
    | ask r h => exact ⟨r, _, rfl, h⟩
  · rw [ht]
    exact .ask r h

theorem runs_request_bind {q : Q} {k : A q → Script Q A β} {t : History A} {b : β} :
    Runs ((request q).bind k) t b ↔ ∃ r t', t = ⟨q, r⟩ :: t' ∧ Runs (k r) t' b :=
  runs_ask

/-- A history of a sequence is a history of the first program and then one of what follows. -/
theorem runs_bind {p : Script Q A α} {k : α → Script Q A β} {t : History A} {b : β} :
    Runs (p.bind k) t b ↔ ∃ t₁ a t₂, t = t₁ ++ t₂ ∧ Runs p t₁ a ∧ Runs (k a) t₂ b := by
  induction p generalizing t with
  | done a =>
    refine ⟨fun h => ⟨[], a, t, rfl, .done a, h⟩, fun ⟨t₁, a', t₂, ht, h₁, h₂⟩ => ?_⟩
    obtain ⟨rfl, rfl⟩ := runs_done.mp h₁
    rwa [ht]
  | ask q n ih =>
    rw [ask_bind, runs_ask]
    refine ⟨fun ⟨r, t', ht, h⟩ => ?_, fun ⟨t₁, a, t₂, ht, h₁, h₂⟩ => ?_⟩
    · obtain ⟨t₁, a, t₂, ht', h₁, h₂⟩ := (ih r).mp h
      exact ⟨⟨q, r⟩ :: t₁, a, t₂, by rw [ht, ht', List.cons_append], .ask r h₁, h₂⟩
    · obtain ⟨r, t', ht₁, h₁'⟩ := runs_ask.mp h₁
      exact ⟨r, t' ++ t₂, by rw [ht, ht₁, List.cons_append], (ih r).mpr ⟨t', a, t₂, rfl, h₁', h₂⟩⟩

/-- After a history of the first program, a sequence does what follows its result. -/
theorem Runs.bind_iff {p : Script Q A α} {k : α → Script Q A β} {t t' : History A} {a : α} {b : β}
    (h : Runs p t a) : Runs (p.bind k) (t ++ t') b ↔ Runs (k a) t' b := by
  induction h with
  | done a => exact Iff.rfl
  | ask r h ih =>
    refine ⟨fun hrun => ?_, fun hrun => .ask r (ih.mpr hrun)⟩
    obtain ⟨r', t'', heq, hrun⟩ := runs_ask.mp hrun
    cases heq
    exact ih.mp hrun

/-- A history of two steps that both succeed. -/
theorem runs_andThen_ok {p : Script Q A (Except ε α)} {k : α → Script Q A (Except ε β)}
    {t : History A} {b : β} : Runs (p.andThen k) t (.ok b) ↔
      ∃ t₁ a t₂, t = t₁ ++ t₂ ∧ Runs p t₁ (.ok a) ∧ Runs (k a) t₂ (.ok b) := by
  refine runs_bind.trans ⟨fun ⟨t₁, r, t₂, ht, h₁, h₂⟩ => ?_,
    fun ⟨t₁, a, t₂, ht, h₁, h₂⟩ => ⟨t₁, .ok a, t₂, ht, h₁, h₂⟩⟩
  match r with
  | .ok a => exact ⟨t₁, a, t₂, ht, h₁, h₂⟩
  | .error e => cases (runs_done.mp h₂).2

/-- The answers decide the result. -/
theorem Runs.unique {p : Script Q A α} {t : History A} {a b : α} (h : Runs p t a)
    (h' : Runs p t b) : a = b := by
  induction h with
  | done a => exact ((runs_done.mp h').2).symm
  | ask r h ih =>
    obtain ⟨r', t', ht, h'⟩ := runs_ask.mp h'
    cases ht
    exact ih h'

/-- Whatever is answered, the history and the result satisfy `P`. -/
def Ensures (p : Script Q A α) (P : History A → α → Prop) : Prop := ∀ t a, Runs p t a → P t a

theorem ensures_done {a : α} {P : History A → α → Prop} :
    (done a : Script Q A α).Ensures P ↔ P [] a := by
  refine ⟨fun h => h _ _ (.done a), fun h t b hrun => ?_⟩
  obtain ⟨rfl, rfl⟩ := runs_done.mp hrun
  exact h

theorem ensures_ask {q : Q} {n : A q → Script Q A α} {P : History A → α → Prop} :
    (ask q n).Ensures P ↔ ∀ r, (n r).Ensures fun t => P (⟨q, r⟩ :: t) := by
  refine ⟨fun h r t a hrun => h _ _ (.ask r hrun), fun h t a hrun => ?_⟩
  obtain ⟨r, t', rfl, hrun'⟩ := runs_ask.mp hrun
  exact h r t' a hrun'

/-- One question, and what follows its answer. -/
theorem ensures_request_bind {q : Q} {k : A q → Script Q A β} {P : History A → β → Prop} :
    ((request q).bind k).Ensures P ↔ ∀ r, (k r).Ensures fun t => P (⟨q, r⟩ :: t) :=
  ensures_ask

theorem ensures_bind {p : Script Q A α} {k : α → Script Q A β} {P : History A → β → Prop} :
    (p.bind k).Ensures P ↔ p.Ensures fun t a => (k a).Ensures fun t' => P (t ++ t') := by
  refine ⟨fun h t a h₁ t' b h₂ => h _ _ (runs_bind.mpr ⟨t, a, t', rfl, h₁, h₂⟩),
    fun h t b hrun => ?_⟩
  obtain ⟨t₁, a, t₂, rfl, h₁, h₂⟩ := runs_bind.mp hrun
  exact h t₁ a h₁ t₂ b h₂

theorem Ensures.mono {p : Script Q A α} {P P' : History A → α → Prop} (h : p.Ensures P)
    (hP : ∀ t a, P t a → P' t a) : p.Ensures P' :=
  fun t a hrun => hP t a (h t a hrun)

theorem Ensures.and {p : Script Q A α} {P P' : History A → α → Prop} (h : p.Ensures P)
    (h' : p.Ensures P') : p.Ensures fun t a => P t a ∧ P' t a :=
  fun t a hrun => ⟨h t a hrun, h' t a hrun⟩

/-- A loop over a list, by an invariant of the history so far. -/
theorem Ensures.forM {f : β → Script Q A PUnit} {J : History A → Prop} {xs : List β}
    (hJ : ∀ x ∈ xs, ∀ t, J t → (f x).Ensures fun t' _ => J (t ++ t')) {t : History A} (h : J t) :
    (xs.forM f).Ensures fun t' _ => J (t ++ t') := by
  induction xs generalizing t with
  | nil => exact ensures_done.mpr (by rwa [List.append_nil])
  | cons x xs ih =>
    refine ensures_bind.mpr ((hJ x (List.mem_cons_self ..) t h).mono fun t' _ h' => ?_)
    refine (ih (fun y hy => hJ y (List.mem_cons_of_mem _ hy)) h').mono fun t'' _ h'' => ?_
    rwa [← List.append_assoc]

/-- In a loop over a list there is a run of the body for each of its elements. -/
theorem Runs.forM_mem {f : β → Script Q A PUnit} {xs : List β} {t : History A} {u : PUnit}
    (h : Runs (xs.forM f) t u) {x : β} (hx : x ∈ xs) :
    ∃ before during after, t = before ++ during ++ after ∧ Runs (f x) during ⟨⟩ := by
  induction xs generalizing t with
  | nil => cases hx
  | cons y ys ih =>
    obtain ⟨t₁, _, t₂, rfl, h₁, h₂⟩ := runs_bind.mp h
    obtain rfl | hx := List.mem_cons.mp hx
    · exact ⟨[], t₁, t₂, rfl, h₁⟩
    · obtain ⟨before, during, after, rfl, hduring⟩ := ih h₂ hx
      exact ⟨t₁ ++ before, during, after, by simp only [List.append_assoc], hduring⟩

/-- A loop with an accumulator, by an invariant of the history so far. -/
theorem Ensures.foldlM {f : γ → β → Script Q A γ} {J : History A → γ → Prop} {xs : List β} {c : γ}
    (hJ : ∀ x ∈ xs, ∀ t c, J t c → (f c x).Ensures fun t' => J (t ++ t')) {t : History A}
    (h : J t c) : (xs.foldlM f c).Ensures fun t' => J (t ++ t') := by
  induction xs generalizing t c with
  | nil => exact ensures_done.mpr (by rwa [List.append_nil])
  | cons x xs ih =>
    refine ensures_bind.mpr ((hJ x (List.mem_cons_self ..) t c h).mono fun t' c' h' => ?_)
    refine (ih (fun y hy => hJ y (List.mem_cons_of_mem _ hy)) h').mono fun t'' _ h'' => ?_
    rwa [← List.append_assoc]

/-! ### Steps that may fail -/

section Steps

variable {P F P' : ((q : Q) × A q) → Prop} {failed failed' : Prop} {t t' : History A}
  {asked : (q : Q) × A q}

/-- Every question satisfies `P`, and the answer to one is a failure exactly if `failed`. -/
structure Steps (P F : ((q : Q) × A q) → Prop) (failed : Prop) (t : History A) : Prop where
  every : ∀ asked ∈ t, P asked
  failed : (∃ asked ∈ t, F asked) ↔ failed

theorem Steps.nil : Steps P F False ([] : History A) :=
  ⟨fun _ h => (nomatch h), iff_of_false (fun ⟨_, h, _⟩ => nomatch h) id⟩

theorem Steps.append (h : Steps P F failed t) (h' : Steps P F failed' t') :
    Steps P F (failed ∨ failed') (t ++ t') where
  every asked hasked := (List.mem_append.mp hasked).elim (h.every asked) (h'.every asked)
  failed := by
    rw [← h.failed, ← h'.failed]
    simp [or_and_right, exists_or]

theorem Steps.congr (h : Steps P F failed t) (hfailed : failed ↔ failed') :
    Steps P F failed' t :=
  ⟨h.every, h.failed.trans hfailed⟩

theorem Steps.mono (h : Steps P F failed t) (hP : ∀ asked, P asked → P' asked) :
    Steps P' F failed t :=
  ⟨fun asked hasked => hP asked (h.every asked hasked), h.failed⟩

theorem Steps.cons (h : Steps P F failed t) (hasked : P asked)
    (hfailed : F asked ∨ failed ↔ failed') : Steps P F failed' (asked :: t) where
  every := List.forall_mem_cons.mpr ⟨hasked, h.every⟩
  failed := by
    rw [← hfailed, ← h.failed]
    simp

/-- What a script does are such steps, and its result says whether one of them failed. -/
def StepsOnly (P F : ((q : Q) × A q) → Prop) (G : α → Prop) (p : Script Q A α) : Prop :=
  p.Ensures fun t a => Steps P F (G a) t

variable {G : β → Prop}

theorem stepsOnly_done {b : β} (h : ¬ G b) : StepsOnly P F G (done b : Script Q A β) :=
  ensures_done.mpr (Steps.nil.congr (iff_of_false id h))

/-- A question, after which nothing has failed. -/
theorem stepsOnly_request_bind {q : Q} {k : A q → Script Q A β} (hasked : ∀ r, P ⟨q, r⟩)
    (hfailed : ∀ r, ¬ F ⟨q, r⟩) (hk : ∀ r, StepsOnly P F G (k r)) :
    StepsOnly P F G ((request q).bind k) :=
  ensures_request_bind.mpr fun r => (hk r).mono fun _ _ h =>
    h.cons (hasked r) (or_iff_right (hfailed r))

/-- What never fails, and then something else. -/
theorem stepsOnly_bind {p : Script Q A α} {k : α → Script Q A β}
    (hp : StepsOnly P F (fun _ => False) p) (hk : ∀ a, StepsOnly P F G (k a)) :
    StepsOnly P F G (p.bind k) :=
  ensures_bind.mpr (hp.mono fun _ a h => (hk a).mono fun _ _ h' =>
    (h.append h').congr (false_or _).to_iff)

/-- What may fail, and then something else. -/
theorem stepsOnly_andThen {p : Script Q A (Except ε α)} {k : α → Script Q A (Except ε β)}
    (hp : StepsOnly P F (fun r => r.isOk = false) p)
    (hk : ∀ a, StepsOnly P F (fun r => r.isOk = false) (k a)) :
    StepsOnly P F (fun r => r.isOk = false) (p.andThen k) := by
  refine ensures_bind.mpr (hp.mono fun t r h => ?_)
  match r with
  | .ok a =>
    have hok : ¬ (Except.ok a : Except ε α).isOk = false := fun h => nomatch h
    exact (hk a).mono fun _ _ h' => (h.append h').congr (or_iff_right hok)
  | .error e =>
    rw [← List.append_nil t] at h
    exact ensures_done.mpr (h.congr (iff_of_true rfl rfl))

end Steps

/-! ### More questions -/

section Left

variable {Q' : Type} {A' : Q' → Type}

/-- A script, among programs that can also ask the questions of `Q'`. -/
def left : Script Q A α → Script (Q ⊕ Q') (Sum.elim A A') α
  | done a => done a
  | ask q n => ask (.inl q) fun r => (n r).left

/-- An answered question, among those of two kinds. -/
def leftAsked (asked : (q : Q) × A q) : (q : Q ⊕ Q') × Sum.elim A A' q := ⟨.inl asked.1, asked.2⟩

theorem runs_left {p : Script Q A α} {t : History (Sum.elim A A')} {a : α} :
    Runs p.left t a ↔ ∃ t₀, t = t₀.map leftAsked ∧ Runs p t₀ a := by
  constructor
  · intro h
    induction p generalizing t with
    | done a =>
      obtain ⟨rfl, rfl⟩ := runs_done.mp h
      exact ⟨[], rfl, .done a⟩
    | ask q n ih =>
      obtain ⟨r, t', rfl, h'⟩ := runs_ask.mp h
      obtain ⟨t₀, rfl, h₀⟩ := ih r h'
      exact ⟨⟨q, r⟩ :: t₀, rfl, Runs.ask (A := A) (q := q) r h₀⟩
  · rintro ⟨t₀, rfl, h⟩
    induction h with
    | done a => exact .done a
    | @ask q n t a r _ ih => exact Runs.ask (A := Sum.elim A A') (q := .inl q) r ih

theorem left_bind (p : Script Q A α) (k : α → Script Q A β) :
    ((p.bind k).left : Script (Q ⊕ Q') (Sum.elim A A') β) = p.left.bind fun a => (k a).left := by
  induction p with
  | done a => rfl
  | ask q n ih => exact congrArg (ask _) (funext ih)

end Left

/-! ### Environments -/

/-- What a script leaves in an environment with a state. -/
structure Outcome (A : Q → Type) (σ α : Type) where
  value : α
  state : σ
  history : History A

/-- The script in an environment that answers from a state. -/
def play (answer : (q : Q) → σ → A q × σ) : Script Q A α → σ → Outcome A σ α
  | done a, s => ⟨a, s, []⟩
  | ask q n, s =>
    let o := (n (answer q s).1).play answer (answer q s).2
    { o with history := ⟨q, (answer q s).1⟩ :: o.history }

theorem play_bind (answer : (q : Q) → σ → A q × σ) (p : Script Q A α) (k : α → Script Q A β)
    (s : σ) : (p.bind k).play answer s =
      let o := p.play answer s
      let o' := (k o.value).play answer o.state
      { o' with history := o.history ++ o'.history } := by
  induction p generalizing s with
  | done a => rfl
  | ask q n ih =>
    rw [ask_bind, play, ih]
    rfl

/-- The script in an environment that answers every question always alike. -/
def under (answer : (q : Q) → A q) : Script Q A α → History A × α
  | done a => ([], a)
  | ask q n =>
    let o := (n (answer q)).under answer
    (⟨q, answer q⟩ :: o.1, o.2)

theorem runs_under (answer : (q : Q) → A q) (p : Script Q A α) :
    Runs p (p.under answer).1 (p.under answer).2 := by
  induction p with
  | done a => exact .done a
  | ask q n ih => exact .ask _ (ih _)

/-- Everything in the history is answered so. -/
theorem mem_under {answer : (q : Q) → A q} {p : Script Q A α} {q : Q} {r : A q}
    (h : ⟨q, r⟩ ∈ (p.under answer).1) : r = answer q := by
  induction p with
  | done a => cases h
  | ask q' n ih =>
    obtain h | h := List.mem_cons.mp h
    · cases h
      rfl
    · exact ih _ h

/-- The script as a program of atomic actions, when each question is answered by one. -/
def interpret (code : (q : Q) → Prog L σ (A q)) : Script Q A α → Prog L σ α
  | done a => .done a
  | ask q n => (code q).bind fun r => (n r).interpret code

theorem interpret_bind (code : (q : Q) → Prog L σ (A q)) (p : Script Q A α)
    (k : α → Script Q A β) :
    (p.bind k).interpret code = (p.interpret code).bind fun a => (k a).interpret code := by
  induction p with
  | done a => rfl
  | ask q n ih => simp only [ask_bind, interpret, ih, Prog.bind_assoc]

/-- What the answers do to the state, a script does. -/
theorem every_interpret {T : σ → σ → Prop} {code : (q : Q) → Prog L σ (A q)}
    (h : ∀ q, (code q).Every T) (p : Script Q A α) : (p.interpret code).Every T := by
  induction p with
  | done a => trivial
  | ask q n ih => exact (h q).bind ih

end Script

end Interleave
