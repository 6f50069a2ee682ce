import RelayBuilder.Interleave.Pool
import RelayBuilder.Interleave.Triple

/-!
# Protocols

A contract in the sense of `Triple` has one rely and one guarantee for the whole life of a task.
That is too rigid when what a task may do, and what it may count on, changes on the way: when it
takes a lock, or has removed an object that only it still knows.

So each call carries a *ghost* value that says where it is in the protocol. A `Protocol` gives an
invariant over the ghosts of all calls and the state, and for each ghost the changes its owner
tolerates from the others. `Safe` is the contract of one call: each action may move its ghost,
has to keep the invariant, and has to be tolerable for every other call. What a ghost says about
the program that is left of its call is given by `Q`.

## Main results

* `Holds.run`: a protocol that every call joins holds along every run
* `Safe.bind_ensures`: a program with an ordinary contract, inside a call whose ghost stays put
-/

namespace Interleave

variable {Op L σ ρ Γ α β : Type}

/-- What the calls of a pool agree on. -/
structure Protocol (L σ Γ : Type) where
  /-- The invariant over the ghosts of all calls and the state. -/
  inv : List Γ → σ → Prop
  /-- The changes that the owner of a ghost tolerates from the other calls. -/
  rely : Γ → σ → σ → Prop
  /-- What an action labelled so may assume, from the discipline of the run. -/
  allowed : List Γ → ℕ → σ → L → Prop
  rely_refl : ∀ g s, rely g s s
  rely_trans : ∀ g a b c, rely g a b → rely g b c → rely g a c

namespace Protocol

variable (P : Protocol L σ Γ)

/-- The change from `s` to `s'` is tolerable for every call but the `i`-th. -/
def Tolerable (i : ℕ) (γ : List Γ) (s s' : σ) : Prop :=
  ∀ j g, j ≠ i → γ[j]? = some g → P.rely g s s'

/-- The contract of the `i`-th call, with ghost `g` and from the state `s` after its last own
action. At its end the ghost moves once more. -/
def Safe (i : ℕ) (Q : Γ → Prog L σ α → Prop) : Prog L σ α → Γ → σ → Prop
  | .done a, g, s =>
    ∀ γ s', γ[i]? = some g → P.rely g s s' → P.inv γ s' →
      ∃ g', P.inv (γ.set i g') s' ∧ Q g' (.done a)
  | .act l r e n, g, s =>
    Q g (.act l r e n) ∧ ∀ γ s', γ[i]? = some g → P.rely g s s' → P.inv γ s' → r s' = true →
      P.allowed γ i s' l →
      ∃ g', P.inv (γ.set i g') (e s') ∧ P.Tolerable i γ s' (e s') ∧ Safe i Q (n s') g' (e s')

variable {P} {i : ℕ} {Q : Γ → Prog L σ α → Prop}

theorem Safe.rely {p : Prog L σ α} {g : Γ} {s s' : σ} (hs : P.rely g s s') (h : P.Safe i Q p g s) :
    P.Safe i Q p g s' := by
  cases p with
  | done a => exact fun γ s'' hγ hR => h γ s'' hγ (P.rely_trans _ _ _ _ hs hR)
  | act l r e n => exact ⟨h.1, fun γ s'' hγ hR => h.2 γ s'' hγ (P.rely_trans _ _ _ _ hs hR)⟩

/-- A call that ends without another action. -/
theorem Safe.done {a : α} {g : Γ} {s : σ}
    (h : ∀ γ s', γ[i]? = some g → P.rely g s s' → P.inv γ s' →
      ∃ g', P.inv (γ.set i g') s' ∧ Q g' (.done a)) : P.Safe i Q (.done a) g s := h

/-- One action that may move the ghost. -/
theorem Safe.await_bind {l : L} {ready : σ → Bool} {f : σ → β × σ} {k : β → Prog L σ α} {g : Γ}
    {s : σ} (hQ : Q g ((Prog.await l ready f).bind k))
    (h : ∀ γ s', γ[i]? = some g → P.rely g s s' → P.inv γ s' → ready s' = true →
      P.allowed γ i s' l → ∃ g', P.inv (γ.set i g') (f s').2 ∧
        P.Tolerable i γ s' (f s').2 ∧ P.Safe i Q (k (f s').1) g' (f s').2) :
    P.Safe i Q ((Prog.await l ready f).bind k) g s :=
  ⟨hQ, h⟩

theorem Safe.atomic_bind {l : L} {f : σ → β × σ} {k : β → Prog L σ α} {g : Γ}
    {s : σ} (hQ : Q g ((Prog.atomic l f).bind k))
    (h : ∀ γ s', γ[i]? = some g → P.rely g s s' → P.inv γ s' →
      P.allowed γ i s' l → ∃ g', P.inv (γ.set i g') (f s').2 ∧
        P.Tolerable i γ s' (f s').2 ∧ P.Safe i Q (k (f s').1) g' (f s').2) :
    P.Safe i Q ((Prog.atomic l f).bind k) g s :=
  ⟨hQ, fun γ s' hγ hs hinv _ hal => h γ s' hγ hs hinv hal⟩

theorem set_of_getElem? {γ : List Γ} {i : ℕ} {g : Γ} (h : γ[i]? = some g) : γ.set i g = γ := by
  obtain ⟨hlt, rfl⟩ := List.getElem?_eq_some_iff.mp h
  exact List.set_getElem_self hlt

/-- A program with an ordinary contract, inside a call whose ghost stays put meanwhile. -/
theorem Safe.bind_ensures {I : σ → Prop} {R G : σ → σ → Prop} {p : Prog L σ β}
    {k : β → Prog L σ α} {M : β → σ → Prop} {g : Γ} {s : σ} (h : p.Ensures I R G M s)
    (hrefl : ∀ s, R s s) (hI : I s)
    (hinv : ∀ γ s, γ[i]? = some g → P.inv γ s → I s)
    (hrely : ∀ s s', P.rely g s s' → R s s')
    (hguar : ∀ γ s s', γ[i]? = some g → P.inv γ s → I s' → G s s' →
      P.inv γ s' ∧ P.Tolerable i γ s s')
    (hQ : ∀ l r e (m : σ → Prog L σ β), Q g ((Prog.act l r e m).bind k))
    (hk : ∀ b s, I s → M b s → P.Safe i Q (k b) g s) : P.Safe i Q (p.bind k) g s := by
  induction p generalizing s with
  | done b => exact hk b s hI (h s (hrefl s) hI)
  | act l r e n ih =>
    refine ⟨hQ l r e n, fun γ s' hγ hs hinv' hr _ => ?_⟩
    obtain ⟨hIe, hG, hn⟩ := h s' (hrely _ _ hs) (hinv γ s' hγ hinv') hr
    obtain ⟨hinv'', htol⟩ := hguar γ s' _ hγ hinv' hIe hG
    refine ⟨g, ?_, htol, ih s' hn hIe⟩
    rwa [set_of_getElem? hγ]

/-- What is known of a call between two moves: an ended one fits its ghost, an unfinished one
keeps its contract. -/
def Sound (P : Protocol L σ Γ) (i : ℕ) (Q : Γ → Prog L σ α → Prop) (p : Prog L σ α) (g : Γ)
    (s : σ) : Prop :=
  match p with
  | .done a => Q g (.done a)
  | .act .. => P.Safe i Q p g s

theorem Sound.rely {p : Prog L σ α} {g : Γ} {s s' : σ} (hs : P.rely g s s')
    (h : P.Sound i Q p g s) : P.Sound i Q p g s' := by
  cases p with
  | done a => exact h
  | act l r e n => exact Safe.rely hs h

theorem Sound.fits {p : Prog L σ α} {g : Γ} {s : σ} (h : P.Sound i Q p g s) : Q g p := by
  cases p with
  | done a => exact h
  | act l r e n =>
    have hs : P.Safe i Q (.act l r e n) g s := h
    exact hs.1

/-- A contract is sound after the ghost move of the end, if the call has ended. -/
theorem Safe.sound {p : Prog L σ α} {g : Γ} {s : σ} {γ : List Γ} (h : P.Safe i Q p g s)
    (hγ : γ[i]? = some g) (hinv : P.inv γ s) :
    ∃ g', P.inv (γ.set i g') s ∧ P.Sound i Q p g' s := by
  cases p with
  | done a => exact h γ s hγ (P.rely_refl _ _) hinv
  | act l r e n => exact ⟨g, by rwa [set_of_getElem? hγ], h⟩

/-- Every call of the configuration keeps its contract, with the ghosts `γ`. -/
structure Holds (P : Protocol L σ Γ) (Q : Op → Γ → Prog L σ ρ → Prop) (c : Config Op L σ ρ)
    (γ : List Γ) : Prop where
  length : γ.length = c.calls.length
  inv : P.inv γ c.state
  sound : ∀ i call g, c.calls[i]? = some call → γ[i]? = some g →
    P.Sound i (Q call.op) call.prog g c.state

variable {code : ℕ → Op → Prog L σ ρ} {ok : Config Op L σ ρ → Move Op → Prop}
  {Q : Op → Γ → Prog L σ ρ → Prop} {c c' : Config Op L σ ρ} {γ : List Γ}

/-- Nothing was called yet. -/
theorem Holds.initial {s : σ} (h : P.inv [] s) :
    P.Holds Q (Config.initial s : Config Op L σ ρ) [] :=
  ⟨rfl, h, fun i _ _ hi => by simp [Config.initial] at hi⟩

/-- The ghost of a call that was started. -/
theorem Holds.ghost (h : P.Holds Q c γ) {i : ℕ} {call : Call Op L σ ρ}
    (hi : c.calls[i]? = some call) : ∃ g, γ[i]? = some g ∧ Q call.op g call.prog := by
  have hlt : i < γ.length := by
    rw [h.length]
    exact (List.getElem?_eq_some_iff.mp hi).1
  have hg : γ[i]? = some γ[i] := List.getElem?_eq_getElem hlt
  exact ⟨γ[i], hg, (h.sound i call _ hi hg).fits⟩

/-- The call of a ghost. -/
theorem Holds.call (h : P.Holds Q c γ) {i : ℕ} {g : Γ} (hi : γ[i]? = some g) :
    ∃ call, c.calls[i]? = some call ∧ Q call.op g call.prog := by
  have hlt : i < c.calls.length := by
    rw [← h.length]
    exact (List.getElem?_eq_some_iff.mp hi).1
  have hcall : c.calls[i]? = some c.calls[i] := List.getElem?_eq_getElem hlt
  exact ⟨c.calls[i], hcall, (h.sound i _ g hcall hi).fits⟩

/-- The start of a call keeps the contracts of the others. -/
theorem Holds.start (h : P.Holds Q c γ) {op : Op} {g : Γ} (hinv : P.inv (γ ++ [g]) c.state)
    (hsafe : P.Safe c.calls.length (Q op) (code c.calls.length op) g c.state) :
    ∃ g', P.Holds Q ⟨c.state, c.calls ++ [⟨op, code c.calls.length op⟩]⟩ (γ ++ [g']) := by
  have hγ : (γ ++ [g])[c.calls.length]? = some g := by rw [← h.length]; simp
  obtain ⟨g', hinv', hsound⟩ := hsafe.sound hγ hinv
  have hset : (γ ++ [g]).set c.calls.length g' = γ ++ [g'] := by rw [← h.length]; simp
  rw [hset] at hinv'
  refine ⟨g', ⟨by simp [h.length], hinv', fun i call g'' hi hg'' => ?_⟩⟩
  by_cases hlt : i < c.calls.length
  · rw [List.getElem?_append_left hlt] at hi
    rw [List.getElem?_append_left (by rw [h.length]; exact hlt)] at hg''
    exact h.sound i call g'' hi hg''
  · have hlen := (List.getElem?_eq_some_iff.mp hi).1
    have heq : i = c.calls.length := by
      simp only [List.length_append, List.length_singleton] at hlen
      omega
    subst heq
    have hlast : (γ ++ [g'])[c.calls.length]? = some g' := by rw [← h.length]; simp
    rw [hlast, Option.some.injEq] at hg''
    simp only [List.getElem?_append_right (Nat.le_refl _), Nat.sub_self,
      List.getElem?_cons_zero, Option.some.injEq] at hi
    subst hi hg''
    exact hsound

/-- One action of call `i` keeps all contracts, and moves only the ghost of `i`. -/
theorem Holds.step (h : P.Holds Q c γ) {i : ℕ} {op : Op} {l : L} {r : σ → Bool} {e : σ → σ}
    {n : σ → Prog L σ ρ} (hi : c.calls[i]? = some ⟨op, .act l r e n⟩) (hr : r c.state = true)
    (hal : P.allowed γ i c.state l) :
    ∃ g', P.Holds Q ⟨e c.state, c.calls.set i ⟨op, n c.state⟩⟩ (γ.set i g') := by
  obtain ⟨g, hg, -⟩ := h.ghost hi
  obtain ⟨-, hs⟩ : P.Safe i (Q op) (.act l r e n) g c.state := h.sound i _ g hi hg
  obtain ⟨g₁, hinv₁, htol, hsafe⟩ := hs γ c.state hg (P.rely_refl _ _) h.inv hr hal
  have hltγ : i < γ.length := (List.getElem?_eq_some_iff.mp hg).1
  have hlt : i < c.calls.length := (List.getElem?_eq_some_iff.mp hi).1
  obtain ⟨g', hinv, hsound⟩ := hsafe.sound (List.getElem?_set_self hltγ) hinv₁
  rw [List.set_set] at hinv
  refine ⟨g', ⟨by simp [h.length], hinv, fun j call gj hj hgj => ?_⟩⟩
  by_cases hij : i = j
  · subst hij
    rw [List.getElem?_set_self hlt, Option.some.injEq] at hj
    rw [List.getElem?_set_self hltγ, Option.some.injEq] at hgj
    subst hj hgj
    exact hsound
  · rw [List.getElem?_set_ne hij] at hj hgj
    exact (h.sound j call gj hj hgj).rely (htol j gj (Ne.symm hij) hgj)

/-- **A protocol holds along every run** whose moves are admitted, if every call that is started
joins it. A call that has ended keeps its ghost. -/
theorem Holds.run (h : P.Holds Q c γ) (hrun : Run code ok c c')
    (hstart : ∀ c γ op, P.Holds Q c γ → ok c (.start op) → ∃ g, P.inv (γ ++ [g]) c.state ∧
      P.Safe c.calls.length (Q op) (code c.calls.length op) g c.state)
    (hallowed : ∀ c γ i l, P.Holds Q c γ → ok c (.step i) → c.At i l → P.allowed γ i c.state l) :
    ∃ γ', P.Holds Q c' γ' ∧ ∀ (i : ℕ) (call : Call Op L σ ρ), c.calls[i]? = some call →
      call.result? ≠ none → γ'[i]? = γ[i]? := by
  induction hrun with
  | refl => exact ⟨γ, h, fun _ _ _ _ => rfl⟩
  | tail hbefore hok hn ih =>
    obtain ⟨γ', h', hkeep⟩ := ih
    obtain ⟨op, rfl, rfl⟩ | ⟨j, op, l, r, e, n, rfl, hj, hr, rfl⟩ := Config.next_cases hn
    · obtain ⟨g, hinv, hsafe⟩ := hstart _ γ' op h' hok
      obtain ⟨g', h''⟩ := h'.start hinv hsafe
      refine ⟨_, h'', fun i call hi hend => ?_⟩
      have hlt : i < γ'.length := by
        rw [h'.length]
        exact (List.getElem?_eq_some_iff.mp (hbefore.ended hi hend)).1
      rw [List.getElem?_append_left hlt]
      exact hkeep i call hi hend
    · obtain ⟨g', hh⟩ := h'.step hj hr (hallowed _ γ' j l h' hok ⟨_, hj, rfl⟩)
      refine ⟨_, hh, fun i call hi hend => ?_⟩
      have hij : j ≠ i := by
        rintro rfl
        rw [hbefore.ended hi hend, Option.some.injEq] at hj
        subst hj
        exact hend rfl
      rw [List.getElem?_set_ne hij]
      exact hkeep i call hi hend

end Protocol

end Interleave
