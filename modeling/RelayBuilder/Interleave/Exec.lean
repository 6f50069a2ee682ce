import RelayBuilder.Interleave.Script

/-!
# Scripts that work on a state

Here the environment of a script has a state. It answers the questions from the state, changes it
meanwhile, and need not be deterministic: `Answers` is a relation. What other tasks do to the state
between two questions can be put into it as well.

## Main definitions

* `Script.Exec`: a script that runs from one state to another
* `Script.Around`: a script that asks questions of a kind, and otherwise calls other scripts

## Main results

* `Script.Around.exec`: what holds of such a script, by the rules for its questions and its calls
-/

namespace Interleave

namespace Script

variable {Q : Type} {A : Q → Type} {α β γ σ ι : Type}

/-- In the first state the question may be answered so, and the second state is left. -/
abbrev Answers (A : Q → Type) (σ : Type) := (q : Q) → σ → A q → σ → Prop

/-- The script runs from one state to another, asking and being answered as in the history. -/
inductive Exec (answers : Answers A σ) : Script Q A α → σ → History A → α → σ → Prop where
  | done (a : α) (s : σ) : Exec answers (done a) s [] a s
  | ask {q : Q} {n : A q → Script Q A α} {s s' s'' : σ} {t : History A} {a : α} (r : A q)
    (h : answers q s r s') (h' : Exec answers (n r) s' t a s'') :
    Exec answers (ask q n) s (⟨q, r⟩ :: t) a s''

variable {answers : Answers A σ}

theorem exec_done {a b : α} {s s' : σ} {t : History A} :
    Exec answers (done a : Script Q A α) s t b s' ↔ t = [] ∧ b = a ∧ s' = s := by
  refine ⟨fun h => ?_, fun ⟨ht, hb, hs⟩ => ?_⟩
  · cases h
    exact ⟨rfl, rfl, rfl⟩
  · rw [ht, hb, hs]
    exact .done a s

theorem exec_ask {q : Q} {n : A q → Script Q A α} {s s'' : σ} {t : History A} {b : α} :
    Exec answers (ask q n) s t b s'' ↔
      ∃ r s' t', t = ⟨q, r⟩ :: t' ∧ answers q s r s' ∧ Exec answers (n r) s' t' b s'' := by
  refine ⟨fun h => ?_, fun ⟨r, s', t', ht, h, h'⟩ => ?_⟩
  · cases h with
    | ask r h h' => exact ⟨r, _, _, rfl, h, h'⟩
  · rw [ht]
    exact .ask r h h'

theorem exec_request_bind {q : Q} {k : A q → Script Q A β} {s s'' : σ} {t : History A} {b : β} :
    Exec answers ((request q).bind k) s t b s'' ↔
      ∃ r s' t', t = ⟨q, r⟩ :: t' ∧ answers q s r s' ∧ Exec answers (k r) s' t' b s'' :=
  exec_ask

theorem exec_bind {p : Script Q A α} {k : α → Script Q A β} {s s'' : σ} {t : History A} {b : β} :
    Exec answers (p.bind k) s t b s'' ↔
      ∃ t₁ a s' t₂, t = t₁ ++ t₂ ∧ Exec answers p s t₁ a s' ∧ Exec answers (k a) s' t₂ b s'' := by
  induction p generalizing s t with
  | done a =>
    refine ⟨fun h => ⟨[], a, s, t, rfl, .done a s, h⟩, fun ⟨t₁, a', s', t₂, ht, h₁, h₂⟩ => ?_⟩
    obtain ⟨rfl, rfl, rfl⟩ := exec_done.mp h₁
    rwa [ht]
  | ask q n ih =>
    rw [ask_bind, exec_ask]
    refine ⟨fun ⟨r, s', t', ht, hr, h⟩ => ?_, fun ⟨t₁, a, s', t₂, ht, h₁, h₂⟩ => ?_⟩
    · obtain ⟨t₁, a, s₁, t₂, ht', h₁, h₂⟩ := (ih r).mp h
      exact ⟨⟨q, r⟩ :: t₁, a, s₁, t₂, by rw [ht, ht', List.cons_append], .ask r hr h₁, h₂⟩
    · obtain ⟨r, s₁, t', ht₁, hr, h₁'⟩ := exec_ask.mp h₁
      exact ⟨r, s₁, t' ++ t₂, by rw [ht, ht₁, List.cons_append], hr,
        (ih r).mpr ⟨t', a, s', t₂, rfl, h₁', h₂⟩⟩

theorem Exec.runs {p : Script Q A α} {s s' : σ} {t : History A} {a : α}
    (h : Exec answers p s t a s') : Runs p t a := by
  induction h with
  | done a s => exact .done a
  | ask r _ _ ih => exact .ask r ih

/-- The answers of an environment where the state decides. -/
def decided (answer : (q : Q) → σ → A q × σ) : Answers A σ := fun q s r s' => answer q s = (r, s')

theorem exec_decided {answer : (q : Q) → σ → A q × σ} {p : Script Q A α} {s s' : σ} {t : History A}
    {a : α} : Exec (decided answer) p s t a s' ↔ p.play answer s = ⟨a, s', t⟩ := by
  induction p generalizing s t with
  | done b =>
    rw [exec_done, play, Outcome.mk.injEq]
    constructor
    · rintro ⟨ht, ha, hs⟩
      exact ⟨ha.symm, hs.symm, ht.symm⟩
    · rintro ⟨ha, hs, ht⟩
      exact ⟨ht.symm, ha.symm, hs.symm⟩
  | ask q n ih =>
    rw [exec_ask, play]
    constructor
    · rintro ⟨r, s₁, t', ht, hr, h⟩
      rw [show answer q s = (r, s₁) from hr, (ih r).mp h, ht]
    · intro h
      obtain ⟨ha, hs, ht⟩ := Outcome.mk.inj h
      refine ⟨_, _, _, ht.symm, rfl, (ih _).mpr ?_⟩
      rw [← ha, ← hs]

/-! ### What a script asks -/

/-- As long as the answers are allowed, every question of the script satisfies `P`. -/
def EveryAsk (allowed : (q : Q) → A q → Prop) (P : Q → Prop) : Script Q A α → Prop
  | done _ => True
  | ask q n => P q ∧ ∀ r, allowed q r → (n r).EveryAsk allowed P

variable {allowed : (q : Q) → A q → Prop} {P P' : Q → Prop} {ε ε' : Type}

theorem everyAsk_request {q : Q} (hq : P q) : (request q : Script Q A _).EveryAsk allowed P :=
  ⟨hq, fun _ _ => trivial⟩

/-- What holds of the questions in all histories, if every question has an answer at all. -/
theorem everyAsk_of_ensures (answer : (q : Q) → A q) {p : Script Q A α}
    (h : p.Ensures fun t _ => ∀ asked ∈ t, P asked.1) : p.EveryAsk allowed P := by
  induction p with
  | done a => trivial
  | ask q n ih =>
    refine ⟨?_, fun r _ => ih r fun t a hrun asked hasked => ?_⟩
    · exact h _ _ (.ask (answer q) (runs_under answer (n (answer q)))) _ (List.mem_cons_self ..)
    · exact h _ _ (.ask r hrun) asked (List.mem_cons_of_mem _ hasked)

theorem EveryAsk.bind {p : Script Q A α} {k : α → Script Q A β} (h : p.EveryAsk allowed P)
    (hk : ∀ a, (k a).EveryAsk allowed P) : (p.bind k).EveryAsk allowed P := by
  induction p with
  | done a => exact hk a
  | ask q n ih => exact ⟨h.1, fun r hr => ih r (h.2 r hr)⟩

/-- One question, and what follows the answers that are allowed. -/
theorem everyAsk_request_bind {q : Q} {k : A q → Script Q A β} (hq : P q)
    (hk : ∀ r, allowed q r → (k r).EveryAsk allowed P) :
    ((request q).bind k).EveryAsk allowed P :=
  ⟨hq, hk⟩

theorem EveryAsk.andThen {p : Script Q A (Except ε α)} {k : α → Script Q A (Except ε β)}
    (h : p.EveryAsk allowed P) (hk : ∀ a, (k a).EveryAsk allowed P) :
    (p.andThen k).EveryAsk allowed P :=
  h.bind fun
    | .ok a => hk a
    | .error _ => trivial

theorem EveryAsk.mapError {p : Script Q A (Except ε α)} {f : ε → ε'}
    (h : p.EveryAsk allowed P) : (p.mapError f).EveryAsk allowed P :=
  h.bind fun _ => trivial

theorem EveryAsk.forEach {f : β → Script Q A (Except ε Unit)} (hf : ∀ b, (f b).EveryAsk allowed P)
    (bs : List β) : (Script.forEach f bs).EveryAsk allowed P := by
  induction bs with
  | nil => trivial
  | cons b bs ih => exact (hf b).andThen fun _ => ih

theorem EveryAsk.mono {p : Script Q A α} (h : p.EveryAsk allowed P) (hP : ∀ q, P q → P' q) :
    p.EveryAsk allowed P' := by
  induction p with
  | done a => trivial
  | ask q n ih => exact ⟨hP q h.1, fun r hr => ih r (h.2 r hr)⟩

theorem EveryAsk.of_allowed {allowed' : (q : Q) → A q → Prop} {p : Script Q A α}
    (h : p.EveryAsk allowed P) (hallowed : ∀ q r, allowed' q r → allowed q r) :
    p.EveryAsk allowed' P := by
  induction p with
  | done a => trivial
  | ask q n ih => exact ⟨h.1, fun r hr => ih r (h.2 r (hallowed q r hr))⟩

/-- A loop over a list. -/
theorem EveryAsk.forM {f : β → Script Q A PUnit} {xs : List β}
    (hf : ∀ x ∈ xs, (f x).EveryAsk allowed P) : (xs.forM f).EveryAsk allowed P := by
  induction xs with
  | nil => trivial
  | cons x xs ih =>
    obtain ⟨hx, hxs⟩ := List.forall_mem_cons.mp hf
    exact hx.bind fun _ => ih hxs

/-- In a history with allowed answers every question satisfies `P`. -/
theorem EveryAsk.runs {p : Script Q A α} (h : p.EveryAsk allowed P) {t : History A} {a : α}
    (hrun : Runs p t a) (hallowed : ∀ asked ∈ t, allowed asked.1 asked.2) :
    ∀ asked ∈ t, P asked.1 := by
  induction hrun with
  | done a => exact fun _ h => nomatch h
  | ask r _ ih =>
    obtain ⟨hr, hrest⟩ := List.forall_mem_cons.mp hallowed
    exact List.forall_mem_cons.mpr ⟨h.1, ih (h.2 r hr) hrest⟩

/-- The same among more questions. -/
theorem EveryAsk.left {Q' : Type} {A' : Q' → Type}
    {allowed' : (q : Q ⊕ Q') → Sum.elim A A' q → Prop} {P' : Q ⊕ Q' → Prop} {p : Script Q A α}
    (h : p.EveryAsk allowed P) (hallowed : ∀ q r, allowed' (.inl q) r → allowed q r)
    (hP : ∀ q, P q → P' (.inl q)) : p.left.EveryAsk allowed' P' := by
  induction p with
  | done a => trivial
  | ask q n ih => exact ⟨hP q h.1, fun r hr => ih r (h.2 r (hallowed q r hr))⟩

/-- The script asks questions that satisfy `P`, and runs the scripts `inner i` with `M i`. -/
inductive Around (allowed : (q : Q) → A q → Prop) (P : Q → Prop) (M : ι → Prop)
    (inner : ι → Script Q A β) : Script Q A α → Prop where
  | done (a : α) : Around allowed P M inner (done a)
  | ask {q : Q} {n : A q → Script Q A α} (hq : P q)
    (h : ∀ r, allowed q r → Around allowed P M inner (n r)) : Around allowed P M inner (ask q n)
  | call {i : ι} {k : β → Script Q A α} (hi : M i) (h : ∀ b, Around allowed P M inner (k b)) :
    Around allowed P M inner ((inner i).bind k)

variable {M : ι → Prop} {inner : ι → Script Q A β}

theorem Around.of_everyAsk {p : Script Q A α} (h : p.EveryAsk allowed P) :
    Around allowed P M inner p := by
  induction p with
  | done a => exact .done a
  | ask q n ih => exact .ask h.1 fun r hr => ih r (h.2 r hr)

theorem Around.bind {p : Script Q A α} {k : α → Script Q A γ} (h : Around allowed P M inner p)
    (hk : ∀ a, Around allowed P M inner (k a)) : Around allowed P M inner (p.bind k) := by
  induction h with
  | done a => exact hk a
  | ask hq _ ih => exact .ask hq ih
  | call hi _ ih =>
    rw [bind_assoc]
    exact .call hi ih

theorem Around.mono {p : Script Q A α} (h : Around allowed P M inner p) (hP : ∀ q, P q → P' q) :
    Around allowed P' M inner p := by
  induction h with
  | done a => exact .done a
  | ask hq _ ih => exact .ask (hP _ hq) ih
  | call hi _ ih => exact .call hi ih

theorem Around.of_allowed {allowed' : (q : Q) → A q → Prop} {p : Script Q A α}
    (h : Around allowed P M inner p) (hallowed : ∀ q r, allowed' q r → allowed q r) :
    Around allowed' P M inner p := by
  induction h with
  | done a => exact .done a
  | ask hq _ ih => exact .ask hq fun r hr => ih r (hallowed _ r hr)
  | call hi _ ih => exact .call hi ih

/-- A script that is just one of the others. -/
theorem Around.tail {i : ι} (hi : M i) : Around allowed P M inner (inner i) := by
  rw [← bind_done (inner i)]
  exact .call hi fun b => .done b

theorem Around.mono_calls {M' : ι → Prop} {p : Script Q A α} (h : Around allowed P M inner p)
    (hM : ∀ i, M i → M' i) : Around allowed P M' inner p := by
  induction h with
  | done a => exact .done a
  | ask hq _ ih => exact .ask hq ih
  | call hi _ ih => exact .call (hM _ hi) ih

/-- If the other scripts run yet others, then so does the whole. -/
theorem Around.trans {ι' δ : Type} {M' : ι' → Prop} {inner' : ι' → Script Q A δ}
    {p : Script Q A α} (h : Around allowed P M inner p)
    (hinner : ∀ i, M i → Around allowed P M' inner' (inner i)) : Around allowed P M' inner' p := by
  induction h with
  | done a => exact .done a
  | ask hq _ ih => exact .ask hq ih
  | call hi _ ih => exact (hinner _ hi).bind ih

/-- If the other scripts ask questions of the kind as well, then so does the whole. -/
theorem Around.everyAsk {p : Script Q A α} (h : Around allowed P M inner p)
    (hinner : ∀ i, M i → (inner i).EveryAsk allowed P) : p.EveryAsk allowed P := by
  induction h with
  | done a => trivial
  | ask hq _ ih => exact ⟨hq, ih⟩
  | call hi _ ih => exact (hinner _ hi).bind ih

/-- A relation between the states and the history, by the rules for the questions and the calls. -/
theorem Around.exec {R : σ → History A → σ → Prop} {p : Script Q A α}
    (h : Around allowed P M inner p) (hallowed : ∀ q s r s', answers q s r s' → allowed q r)
    (hnil : ∀ s, R s [] s)
    (happend : ∀ s t s' t' s'', R s t s' → R s' t' s'' → R s (t ++ t') s'')
    (hask : ∀ q s r s', P q → answers q s r s' → R s [⟨q, r⟩] s')
    (hcall : ∀ i s t b s', M i → Exec answers (inner i) s t b s' → R s t s')
    {s s' : σ} {t : History A} {a : α} (hexec : Exec answers p s t a s') : R s t s' := by
  induction h generalizing s t with
  | done a =>
    obtain ⟨rfl, -, rfl⟩ := exec_done.mp hexec
    exact hnil s'
  | ask hq _ ih =>
    obtain ⟨r, s₁, t', rfl, hr, h'⟩ := exec_ask.mp hexec
    exact happend _ [_] _ _ _ (hask _ _ _ _ hq hr) (ih r (hallowed _ _ _ _ hr) h')
  | call hi _ ih =>
    obtain ⟨t₁, b, s₁, t₂, rfl, h₁, h₂⟩ := exec_bind.mp hexec
    exact happend _ _ _ _ _ (hcall _ _ _ _ _ hi h₁) (ih b h₂)

/-- The same for a script that runs no others. -/
theorem EveryAsk.exec {R : σ → History A → σ → Prop} {p : Script Q A α}
    (h : p.EveryAsk allowed P) (hallowed : ∀ q s r s', answers q s r s' → allowed q r)
    (hnil : ∀ s, R s [] s)
    (happend : ∀ s t s' t' s'', R s t s' → R s' t' s'' → R s (t ++ t') s'')
    (hask : ∀ q s r s', P q → answers q s r s' → R s [⟨q, r⟩] s')
    {s s' : σ} {t : History A} {a : α} (hexec : Exec answers p s t a s') : R s t s' :=
  have haround : Around allowed P (fun _ : Empty => False) (fun _ : Empty => p) p := .of_everyAsk h
  haround.exec hallowed hnil happend hask (fun i => i.elim) hexec

end Script

end Interleave
