import RelayBuilder.Interleave.Program

/-!
# Rely and guarantee

`Triple I R G P p Q` is the contract of one task among others. Starting where the invariant `I`
and the precondition `P` hold, and while the other tasks only make changes allowed by the rely
`R`, each action of `p` keeps `I` and makes a change allowed by the guarantee `G`, and if `p`
ends, its result and the state satisfy `Q`.

The assertions in between have to survive the other tasks, so the rules ask that they be
`Stable`. That is the only place where interference is looked at: a proof of a triple otherwise
reads like a proof about a program that runs alone.

## Main results

* `Triple.bind`, `Triple.atomic`, `Triple.forM`, `Triple.foldlM`: the rules
* `Prog.Ensures.zoom`: a contract on a component is a contract on the whole state
* `Prog.Ensures.run`: the contract of a program that runs alone
-/

namespace Interleave

variable {L L' σ τ α β γ : Type}

/-- `A` survives the changes of the other tasks. -/
def Stable (I : σ → Prop) (R : σ → σ → Prop) (A : σ → Prop) : Prop :=
  ∀ s s', R s s' → I s' → A s → A s'

theorem Stable.and {I : σ → Prop} {R : σ → σ → Prop} {A B : σ → Prop} (hA : Stable I R A)
    (hB : Stable I R B) : Stable I R fun s => A s ∧ B s :=
  fun s s' hR hI h => ⟨hA s s' hR hI h.1, hB s s' hR hI h.2⟩

theorem Stable.mono {I : σ → Prop} {R R' : σ → σ → Prop} {A : σ → Prop} (hA : Stable I R A)
    (hR : ∀ s s', R' s s' → R s s') : Stable I R' A :=
  fun s s' h => hA s s' (hR s s' h)

theorem stable_const {I : σ → Prop} {R : σ → σ → Prop} (A : Prop) : Stable I R fun _ => A :=
  fun _ _ _ _ h => h

namespace Prog

/-- What the program `p` does from `s`, where `s` is the state after its last own action: the
other tasks may move on to any `R`-related state before the next one. -/
def Ensures (I : σ → Prop) (R G : σ → σ → Prop) : Prog L σ α → (α → σ → Prop) → σ → Prop
  | .done a, Q, s => ∀ s', R s s' → I s' → Q a s'
  | .act _ r e n, Q, s =>
    ∀ s', R s s' → I s' → r s' = true → I (e s') ∧ G s' (e s') ∧ Ensures I R G (n s') Q (e s')

variable {I : σ → Prop} {R G : σ → σ → Prop}

theorem Ensures.rely {p : Prog L σ α} {Q : α → σ → Prop} (htrans : ∀ a b c, R a b → R b c → R a c)
    {s s' : σ} (hs : R s s') (h : p.Ensures I R G Q s) : p.Ensures I R G Q s' := by
  cases p with
  | done a => exact fun s'' hR => h s'' (htrans _ _ _ hs hR)
  | act l r e n => exact fun s'' hR => h s'' (htrans _ _ _ hs hR)

theorem Ensures.conseq {S T : σ → σ → Prop} {p : Prog L σ α} {Q U : α → σ → Prop}
    (hR : ∀ s s', S s s' → R s s') (hG : ∀ s s', I s → G s s' → T s s')
    (hQ : ∀ a s, I s → Q a s → U a s) {s : σ} (h : p.Ensures I R G Q s) :
    p.Ensures I S T U s := by
  induction p generalizing s with
  | done a => exact fun s' hs hI => hQ a s' hI (h s' (hR _ _ hs) hI)
  | act l r e n ih =>
    intro s' hs hI hr
    obtain ⟨hI', hG', hn⟩ := h s' (hR _ _ hs) hI hr
    exact ⟨hI', hG _ _ hI hG', ih s' hn⟩

theorem Ensures.post {p : Prog L σ α} {Q U : α → σ → Prop} {s : σ} (h : p.Ensures I R G Q s)
    (hQ : ∀ a s, I s → Q a s → U a s) : p.Ensures I R G U s :=
  h.conseq (fun _ _ h => h) (fun _ _ _ h => h) hQ

/-- Two contracts of one program are one contract. -/
theorem Ensures.and {R₁ R₂ G₁ G₂ : σ → σ → Prop} {p : Prog L σ α} {Q₁ Q₂ : α → σ → Prop} {s : σ}
    (h₁ : p.Ensures I R₁ G₁ Q₁ s) (h₂ : p.Ensures I R₂ G₂ Q₂ s) :
    p.Ensures I (fun s s' => R₁ s s' ∧ R₂ s s') (fun s s' => G₁ s s' ∧ G₂ s s')
      (fun a s => Q₁ a s ∧ Q₂ a s) s := by
  induction p generalizing s with
  | done a => exact fun s' hs hI => ⟨h₁ s' hs.1 hI, h₂ s' hs.2 hI⟩
  | act l r e n ih =>
    intro s' hs hI hr
    obtain ⟨hI', hG₁, hn₁⟩ := h₁ s' hs.1 hI hr
    obtain ⟨-, hG₂, hn₂⟩ := h₂ s' hs.2 hI hr
    exact ⟨hI', ⟨hG₁, hG₂⟩, ih s' hn₁ hn₂⟩

/-- What every action of a program does is part of its guarantee. -/
theorem Ensures.every {p : Prog L σ α} {Q : α → σ → Prop} {T : σ → σ → Prop} {s : σ}
    (h : p.Ensures I R G Q s) (hT : p.Every T) :
    p.Ensures I R (fun s s' => G s s' ∧ T s s') Q s := by
  induction p generalizing s with
  | done a => exact h
  | act l r e n ih =>
    intro s' hR hI hr
    obtain ⟨hI', hG, hn⟩ := h s' hR hI hr
    exact ⟨hI', ⟨hG, (hT s').1⟩, ih s' hn (hT s').2⟩

/-- What every action of a program does is a guarantee, if it keeps the invariant. -/
theorem Every.ensures {p : Prog L σ α} {T : σ → σ → Prop} (hT : p.Every T)
    (hI : ∀ s s', I s → T s s' → I s') (s : σ) : p.Ensures I R T (fun _ _ => True) s := by
  induction p generalizing s with
  | done a => exact fun _ _ _ => trivial
  | act l r e n ih =>
    exact fun s' _ hs' _ => ⟨hI s' _ hs' (hT s').1, (hT s').1, ih s' (hT s').2 _⟩

/-- What always holds of the result, and what neither the others nor the program's own actions
change. -/
theorem ensures_of_always {p : Prog L σ α} {A : α → Prop} {B : σ → Prop} (hA : p.Always A)
    (hB : ∀ s s', R s s' → B s → B s') (hown : p.Every fun s s' => B s → B s') {s : σ} (hs : B s) :
    p.Ensures (fun _ => True) R (fun _ _ => True) (fun a s => A a ∧ B s) s := by
  induction p generalizing s with
  | done a => exact fun s' hR _ => ⟨hA, hB s s' hR hs⟩
  | act l r e n ih =>
    intro s' hR _ _
    exact ⟨trivial, trivial, ih s' (hA s') (hown s').2 ((hown s').1 (hB s s' hR hs))⟩

/-- A contract without an invariant adds to one that has one. -/
theorem Ensures.add {R₁ R₂ G₁ G₂ : σ → σ → Prop} {p : Prog L σ α} {Q₁ Q₂ : α → σ → Prop} {s : σ}
    (h₁ : p.Ensures I R₁ G₁ Q₁ s) (h₂ : p.Ensures (fun _ => True) R₂ G₂ Q₂ s) :
    p.Ensures I (fun s s' => R₁ s s' ∧ R₂ s s') (fun s s' => G₁ s s' ∧ G₂ s s')
      (fun a s => Q₁ a s ∧ Q₂ a s) s := by
  induction p generalizing s with
  | done a => exact fun s' hs hI => ⟨h₁ s' hs.1 hI, h₂ s' hs.2 trivial⟩
  | act l r e n ih =>
    intro s' hs hI hr
    obtain ⟨hI', hG₁, hn₁⟩ := h₁ s' hs.1 hI hr
    obtain ⟨-, hG₂, hn₂⟩ := h₂ s' hs.2 trivial hr
    exact ⟨hI', ⟨hG₁, hG₂⟩, ih s' hn₁ hn₂⟩

/-- A contract for a stronger invariant, which the guarantee keeps. -/
theorem Ensures.inv {J : σ → Prop} {p : Prog L σ α} {Q : α → σ → Prop} (hJ : ∀ s, J s → I s)
    (hkeep : ∀ s s', J s → I s' → G s s' → J s') {s : σ} (h : p.Ensures I R G Q s) :
    p.Ensures J R G Q s := by
  induction p generalizing s with
  | done a => exact fun s' hR hJs => h s' hR (hJ s' hJs)
  | act l r e n ih =>
    intro s' hR hJs hr
    obtain ⟨hI', hG, hn⟩ := h s' hR (hJ s' hJs) hr
    exact ⟨hkeep s' (e s') hJs hI' hG, hG, ih s' hn⟩

/-- What the others do not change need not be part of the invariant. -/
theorem Ensures.within {p : Prog L σ α} {Q : α → σ → Prop} {A : σ → Prop}
    (hA : ∀ s s', R s s' → A s → A s') {s : σ}
    (h : p.Ensures (fun s => I s ∧ A s) R G Q s) (hs : A s) :
    p.Ensures I R G (fun a s => Q a s ∧ A s) s := by
  induction p generalizing s with
  | done a => exact fun s' hR hI => ⟨h s' hR ⟨hI, hA s s' hR hs⟩, hA s s' hR hs⟩
  | act l r e n ih =>
    intro s' hR hI hr
    obtain ⟨⟨hI', hA'⟩, hG, hn⟩ := h s' hR ⟨hI, hA s s' hR hs⟩ hr
    exact ⟨hI', hG, ih s' hn hA'⟩

/-- What neither the others nor the program's own actions change may be carried along. -/
theorem Ensures.frame {p : Prog L σ α} {Q : α → σ → Prop} {A : σ → Prop} (hA : Stable I R A)
    (hG : ∀ s s', I s' → G s s' → A s → A s') {s : σ} (h : p.Ensures I R G Q s) (hs : A s) :
    p.Ensures I R G (fun a s => Q a s ∧ A s) s := by
  induction p generalizing s with
  | done a => exact fun s' hR hI => ⟨h s' hR hI, hA s s' hR hI hs⟩
  | act l r e n ih =>
    intro s' hR hI hr
    obtain ⟨hI', hG', hn⟩ := h s' hR hI hr
    exact ⟨hI', hG', ih s' hn (hG _ _ hI' hG' (hA s s' hR hI hs))⟩

/-- The contract of a program without what is made of its result. -/
theorem Ensures.of_bind_done {f : α → β} {p : Prog L σ α} {Q : β → σ → Prop} {s : σ}
    (h : (p.bind fun a => .done (f a)).Ensures I R G Q s) :
    p.Ensures I R G (fun a => Q (f a)) s := by
  induction p generalizing s with
  | done a => exact h
  | act l r e n ih =>
    intro s' hR hI hr
    obtain ⟨hI', hG, hn⟩ := h s' hR hI hr
    exact ⟨hI', hG, ih s' hn⟩

theorem Ensures.bind {p : Prog L σ α} {k : α → Prog L σ β} {M : α → σ → Prop} {Q : β → σ → Prop}
    (hrefl : ∀ s, R s s) {s : σ} (hp : p.Ensures I R G M s) (hI : I s)
    (hk : ∀ a s, I s → M a s → (k a).Ensures I R G Q s) :
    (p.bind k).Ensures I R G Q s := by
  induction p generalizing s with
  | done a => exact hk a s hI (hp s (hrefl s) hI)
  | act l r e n ih =>
    intro s' hs hI' hr
    obtain ⟨hIe, hG, hn⟩ := hp s' hs hI' hr
    exact ⟨hIe, hG, ih s' hn hIe⟩

/-- A program that runs alone, from its contract. Its actions compose to a `T`-change for every
reflexive and transitive `T` that contains the guarantee. -/
theorem Ensures.run {p : Prog L σ α} {Q : α → σ → Prop} (hrefl : ∀ s, R s s) {s : σ}
    (h : p.Ensures I R G Q s) (hI : I s) {T : σ → σ → Prop} (hT : ∀ s s', I s → G s s' → T s s')
    (hTrefl : ∀ s, T s s) (hTtrans : ∀ a b c, T a b → T b c → T a c) {o : Outcome L σ α}
    (hrun : p.run s = some o) : Q o.value o.state ∧ I o.state ∧ T s o.state := by
  induction p generalizing s o with
  | done a =>
    cases hrun
    exact ⟨h s (hrefl s) hI, hI, hTrefl s⟩
  | act l r e n ih =>
    rw [run_act] at hrun
    by_cases hr : r s = true
    · rw [if_pos hr] at hrun
      obtain ⟨o', ho', rfl⟩ := Option.map_eq_some_iff.mp hrun
      obtain ⟨hIe, hG, hn⟩ := h s (hrefl s) hI hr
      obtain ⟨hQ, hI', hT'⟩ := ih s hn hIe ho'
      exact ⟨hQ, hI', hTtrans _ _ _ (hT _ _ hI hG) hT'⟩
    · rw [if_neg hr] at hrun
      cases hrun

/-- A contract on a component of the state is one on the whole state, when the component is read
and written through `get` and `set`. -/
theorem Ensures.zoom {p : Prog L σ α} {Q : α → σ → Prop} {lbl : L → L'} {get : τ → σ}
    {set : σ → τ → τ} {I' : τ → Prop} {R' G' : τ → τ → Prop}
    (hset : ∀ t s, get (set s t) = s) (hI : ∀ t, I' t → I (get t))
    (hR : ∀ t t', R' t t' → R (get t) (get t'))
    (hG : ∀ t s, I' t → I s → G (get t) s → I' (set s t) ∧ G' t (set s t)) {t : τ}
    (h : p.Ensures I R G Q (get t)) :
    (p.zoom lbl get set).Ensures I' R' G' (fun a t => Q a (get t)) t := by
  induction p generalizing t with
  | done a => exact fun t' ht hI' => h _ (hR _ _ ht) (hI _ hI')
  | act l r e n ih =>
    intro t' ht hI' hr
    obtain ⟨hIe, hGe, hn⟩ := h _ (hR _ _ ht) (hI _ hI') hr
    obtain ⟨hI'', hG'⟩ := hG t' _ hI' hIe hGe
    exact ⟨hI'', hG', ih (get t') (by rw [hset]; exact hn)⟩

end Prog

/-- The contract of a task: see the module docstring. -/
def Triple (I : σ → Prop) (R G : σ → σ → Prop) (P : σ → Prop) (p : Prog L σ α)
    (Q : α → σ → Prop) : Prop :=
  ∀ s, I s → P s → p.Ensures I R G Q s

namespace Triple

variable {I : σ → Prop} {R G : σ → σ → Prop} {P : σ → Prop}

theorem done {Q : α → σ → Prop} {a : α} (hQ : Stable I R (Q a)) :
    Triple (L := L) I R G (Q a) (.done a) Q :=
  fun s _ h s' hR hI => hQ s s' hR hI h

theorem await {Q : α → σ → Prop} {l : L} {ready : σ → Bool} {f : σ → α × σ} (hP : Stable I R P)
    (hQ : ∀ a, Stable I R (Q a))
    (h : ∀ s, I s → P s → ready s = true → I (f s).2 ∧ G s (f s).2 ∧ Q (f s).1 (f s).2) :
    Triple I R G P (Prog.await l ready f) Q := by
  intro s _ hPs s' hR hI hr
  obtain ⟨hI', hG, hQs⟩ := h s' hI (hP s s' hR hI hPs) hr
  exact ⟨hI', hG, fun s'' hR' hI'' => hQ _ _ _ hR' hI'' hQs⟩

theorem atomic {Q : α → σ → Prop} {l : L} {f : σ → α × σ} (hP : Stable I R P)
    (hQ : ∀ a, Stable I R (Q a))
    (h : ∀ s, I s → P s → I (f s).2 ∧ G s (f s).2 ∧ Q (f s).1 (f s).2) :
    Triple I R G P (Prog.atomic l f) Q :=
  await hP hQ fun s hI hPs _ => h s hI hPs

theorem conseq {V : σ → Prop} {S T : σ → σ → Prop} {p : Prog L σ α} {Q U : α → σ → Prop}
    (h : Triple I R G P p Q) (hR : ∀ s s', S s s' → R s s')
    (hG : ∀ s s', I s → G s s' → T s s') (hP : ∀ s, I s → V s → P s)
    (hQ : ∀ a s, I s → Q a s → U a s) : Triple I S T V p U :=
  fun s hI hV => (h s hI (hP s hI hV)).conseq hR hG hQ

theorem pre {P' : σ → Prop} {p : Prog L σ α} {Q : α → σ → Prop} (h : Triple I R G P p Q)
    (hP : ∀ s, I s → P' s → P s) : Triple I R G P' p Q :=
  fun s hI hP' => h s hI (hP s hI hP')

theorem post {p : Prog L σ α} {Q Q' : α → σ → Prop} (h : Triple I R G P p Q)
    (hQ : ∀ a s, I s → Q a s → Q' a s) : Triple I R G P p Q' :=
  fun s hI hP => (h s hI hP).post hQ

theorem frame {p : Prog L σ α} {Q : α → σ → Prop} {A : σ → Prop} (h : Triple I R G P p Q)
    (hA : Stable I R A) (hG : ∀ s s', I s' → G s s' → A s → A s') :
    Triple I R G (fun s => P s ∧ A s) p fun a s => Q a s ∧ A s :=
  fun s hI hP => (h s hI hP.1).frame hA hG hP.2

theorem bind {p : Prog L σ α} {k : α → Prog L σ β} {M : α → σ → Prop} {Q : β → σ → Prop}
    (hrefl : ∀ s, R s s) (hp : Triple I R G P p M) (hk : ∀ a, Triple I R G (M a) (k a) Q) :
    Triple I R G P (p.bind k) Q :=
  fun s hI hP => (hp s hI hP).bind hrefl hI hk

/-- A program whose result is replaced by a fixed one. -/
theorem returning {p : Prog L σ PUnit} {Q : σ → Prop} (hrefl : ∀ s, R s s) (hQ : Stable I R Q)
    (h : Triple I R G P p fun _ => Q) (b : β) :
    Triple I R G P (p.bind fun _ => .done b) fun r s => r = b ∧ Q s :=
  bind hrefl h fun _ => (done (Q := fun r s => r = b ∧ Q s) ((stable_const _).and hQ)).pre
    fun _ _ h => ⟨rfl, h⟩

/-- A loop over a list, by a loop invariant that knows the elements still to come. -/
theorem forM {f : β → Prog L σ PUnit} {J : List β → σ → Prop} (hrefl : ∀ s, R s s)
    (hJ : Stable I R (J [])) (hf : ∀ x xs, Triple I R G (J (x :: xs)) (f x) fun _ => J xs)
    (xs : List β) : Triple I R G (J xs) (xs.forM f) fun _ => J [] := by
  induction xs with
  | nil => exact done (Q := fun _ => J []) hJ
  | cons x xs ih => exact bind hrefl (hf x xs) fun _ => ih

/-- A loop with an accumulator, by a loop invariant that knows the elements still to come. -/
theorem foldlM {f : β → γ → Prog L σ β} {J : List γ → β → σ → Prop} (hrefl : ∀ s, R s s)
    (hJ : ∀ b, Stable I R (J [] b)) (hf : ∀ x xs b, Triple I R G (J (x :: xs) b) (f b x) (J xs))
    (xs : List γ) (b : β) : Triple I R G (J xs b) (xs.foldlM f b) (J []) := by
  induction xs generalizing b with
  | nil => exact done (hJ b)
  | cons x xs ih => exact bind hrefl (hf x xs b) fun b' => ih b'

end Triple

end Interleave
