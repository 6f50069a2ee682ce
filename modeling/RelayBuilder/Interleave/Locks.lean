import Mathlib.Logic.Hydra
import Mathlib.Tactic.Abel
import RelayBuilder.Interleave.Pool

/-!
# Calls that wait for locks

The actions of a call may wait for locks, which other calls hold meanwhile. If a call never waits
while it holds a lock, then among calls that have not ended there is always one that can act. And
since a program is a well founded tree, a pool in which no further call is started comes to its
end, whatever the scheduler does.

## Main definitions

* `Prog.Holds`: the program does not wait before it has released a lock
* `Prog.TakesLocks`: the program waits only for locks, and holds those that it locks
* `Config.InevitablyQuiet`: every way to go on without further calls ends with all calls ended

## Main results

* `Run.inevitablyQuiet`
-/

namespace Interleave

variable {Op L K σ ρ α β γ : Type} {locked : K → σ → Bool}

namespace Prog

/-- The program goes on without waiting, at least until the lock is free. -/
def Holds (locked : K → σ → Bool) (k : K) : Prog L σ α → Prop
  | done _ => False
  | act _ r e n => ∀ s, r s = true ∧ (locked k (e s) = false ∨ (n s).Holds locked k)

/-- Every action waits for one lock at most, and what it locks is held from then on. -/
def TakesLocks (locked : K → σ → Bool) : Prog L σ α → Prop
  | done _ => True
  | act _ r e n => (∃ lock : Option K, ∀ s, r s = lock.all fun k => !locked k s) ∧
      ∀ s, (r s = true → ∀ k, locked k (e s) = true → locked k s = true ∨ (n s).Holds locked k) ∧
        (n s).TakesLocks locked

theorem Holds.bind {k : K} {p : Prog L σ α} (hp : p.Holds locked k) (q : α → Prog L σ β) :
    (p.bind q).Holds locked k := by
  induction p with
  | done a => exact hp.elim
  | act l r e n ih =>
    intro s
    obtain ⟨hready, hrest⟩ := hp s
    exact ⟨hready, hrest.imp_right (ih s)⟩

/-- What never waits may come before what holds the lock. -/
theorem NeverWaits.bind_holds {k : K} {p : Prog L σ α} (hp : p.NeverWaits) {q : α → Prog L σ β}
    (hq : ∀ a, (q a).Holds locked k) : (p.bind q).Holds locked k := by
  induction p with
  | done a => exact hq a
  | act l r e n ih =>
    intro s
    obtain ⟨hready, hrest⟩ := hp s
    exact ⟨hready, .inr (ih s hrest)⟩

/-- An action that frees the lock, and whatever follows it. -/
theorem holds_atomic {k : K} (l : L) {f : σ → α × σ} (h : ∀ s, locked k (f s).2 = false)
    (q : α → Prog L σ β) : ((atomic l f).bind q).Holds locked k :=
  fun s => ⟨rfl, .inl (h s)⟩

theorem TakesLocks.bind {p : Prog L σ α} {q : α → Prog L σ β} (hp : p.TakesLocks locked)
    (hq : ∀ a, (q a).TakesLocks locked) : (p.bind q).TakesLocks locked := by
  induction p with
  | done a => exact hq a
  | act l r e n ih =>
    obtain ⟨hlock, hrest⟩ := hp
    refine ⟨hlock, fun s => ⟨fun hready k hk => ?_, ih s (hrest s).2⟩⟩
    exact ((hrest s).1 hready k hk).imp_right fun hheld => hheld.bind q

theorem TakesLocks.forM {f : β → Prog L σ PUnit} (hf : ∀ b, (f b).TakesLocks locked)
    (xs : List β) : (xs.forM f).TakesLocks locked := by
  induction xs with
  | nil => trivial
  | cons x xs ih => exact (hf x).bind fun _ => ih

/-- A program that never waits and locks nothing. -/
theorem NeverWaits.takesLocks {p : Prog L σ α} (hp : p.NeverWaits)
    (hlocks : p.Every fun s s' => ∀ k, locked k s' = true → locked k s = true) :
    p.TakesLocks locked := by
  induction p with
  | done a => trivial
  | act l r e n ih =>
    refine ⟨⟨none, fun s => (hp s).1⟩, fun s => ⟨fun _ k hk => ?_, ih s (hp s).2 (hlocks s).2⟩⟩
    exact .inl ((hlocks s).1 k hk)

/-- An action that waits for a lock, and what follows it, which holds the lock if it was taken. -/
theorem takesLocks_await {l : L} {r : σ → Bool} {f : σ → α × σ} {q : α → Prog L σ β} (k : K)
    (hready : ∀ s, r s = !locked k s)
    (hother : ∀ s k', k' ≠ k → locked k' (f s).2 = true → locked k' s = true)
    (hheld : ∀ s, locked k (f s).2 = true → locked k s = true ∨ (q (f s).1).Holds locked k)
    (hq : ∀ a, (q a).TakesLocks locked) : ((await l r f).bind q).TakesLocks locked := by
  refine ⟨⟨some k, fun s => hready s⟩, fun s => ⟨fun _ k' hk' => ?_, hq _⟩⟩
  by_cases hne : k' = k
  · subst hne
    exact hheld s hk'
  · exact .inl (hother s k' hne hk')

/-! ### What is left of a program -/

/-- The programs that may be left after the next action. -/
def After (p' p : Prog L σ α) : Prop := ∃ l r e n s, p = act l r e n ∧ p' = n s

theorem wellFounded_after : WellFounded (@After L σ α) := by
  refine ⟨fun p => ?_⟩
  induction p with
  | done a =>
    refine ⟨_, fun p' h => ?_⟩
    obtain ⟨l, r, e, n, s, h, -⟩ := h
    cases h
  | act l r e n ih =>
    refine ⟨_, fun p' h => ?_⟩
    obtain ⟨l', r', e', n', s, h, rfl⟩ := h
    cases h
    exact ih s

end Prog

namespace Config

variable {code : ℕ → Op → Prog L σ ρ} {c c' : Config Op L σ ρ}

/-- Some call can take its next action. -/
def CanStep (code : ℕ → Op → Prog L σ ρ) (c : Config Op L σ ρ) : Prop :=
  ∃ i c', c.next code (.step i) = some c'

/-- As long as no further call is started, the pool comes to its end in any case, and then every
call has ended. -/
inductive InevitablyQuiet (code : ℕ → Op → Prog L σ ρ) : Config Op L σ ρ → Prop where
  | intro (c : Config Op L σ ρ) (h : c.Quiet ∨ c.CanStep code)
    (rest : ∀ i c', c.next code (.step i) = some c' → InevitablyQuiet code c') :
    InevitablyQuiet code c

/-- What is left of the calls. -/
def programs (c : Config Op L σ ρ) : Multiset (Prog L σ ρ) := (c.calls.map Call.prog : List _)

/-- An action of a call replaces its program by what is left of it. -/
theorem programs_of_step {i : ℕ} (h : c.next code (.step i) = some c') :
    Relation.CutExpand Prog.After c'.programs c.programs := by
  obtain ⟨op, hm, -⟩ | ⟨j, op, l, r, e, n, hm, hj, -, rfl⟩ := Config.next_cases h
  · cases hm
  obtain ⟨hlt, hget⟩ := List.getElem?_eq_some_iff.mp hj
  refine ⟨{n c.state}, .act l r e n, fun p hp => ?_, ?_⟩
  · obtain rfl := Multiset.mem_singleton.mp hp
    exact ⟨l, r, e, n, c.state, rfl, rfl⟩
  · -- both sides are the other programs, the old one and the new one
    have hold : c.calls = c.calls.take j ++ ⟨op, .act l r e n⟩ :: c.calls.drop (j + 1) := by
      rw [← hget, List.getElem_cons_drop, List.take_append_drop]
    have hnew : c.calls.set j ⟨op, n c.state⟩ =
        c.calls.take j ++ ⟨op, n c.state⟩ :: c.calls.drop (j + 1) :=
      List.set_eq_take_append_cons_drop.trans (if_pos hlt)
    rw [programs, programs, hnew]
    conv_rhs => rw [hold]
    simp only [List.map_append, List.map_cons, ← Multiset.coe_add, ← Multiset.cons_coe,
      ← Multiset.singleton_add]
    abel

/-- Without further calls, no pool goes on for ever. -/
theorem wellFounded_step (code : ℕ → Op → Prog L σ ρ) :
    WellFounded fun c' c : Config Op L σ ρ => ∃ i, c.next code (.step i) = some c' := by
  have hirrefl : Std.Irrefl (@Prog.After L σ ρ) := Prog.wellFounded_after.irrefl
  refine Subrelation.wf (r := InvImage (Relation.CutExpand Prog.After) programs) ?_
    (InvImage.wf programs Prog.wellFounded_after.cutExpand)
  rintro c' c ⟨i, hi⟩
  exact programs_of_step hi

end Config

/-! ### Locks in a pool -/

section

variable {code : ℕ → Op → Prog L σ ρ} {ok : Config Op L σ ρ → Move Op → Prop}
  {c c' : Config Op L σ ρ}

/-- Every lock that is not free is held by a call. -/
structure LocksHeld (locked : K → σ → Bool) (c : Config Op L σ ρ) : Prop where
  takes : ∀ call ∈ c.calls, call.prog.TakesLocks locked
  held : ∀ k, locked k c.state = true → ∃ call ∈ c.calls, call.prog.Holds locked k

theorem LocksHeld.next (h : LocksHeld locked c) (hcode : ∀ i op, (code i op).TakesLocks locked)
    {m : Move Op} (hnext : c.next code m = some c') : LocksHeld locked c' := by
  obtain ⟨op, rfl, rfl⟩ | ⟨i, op, l, r, e, n, rfl, hi, hready, rfl⟩ := Config.next_cases hnext
  · refine ⟨fun call hcall => ?_, fun k hk => ?_⟩
    · obtain hcall | hcall := List.mem_append.mp hcall
      · exact h.takes call hcall
      · obtain rfl := List.mem_singleton.mp hcall
        exact hcode _ op
    · obtain ⟨call, hcall, hheld⟩ := h.held k hk
      exact ⟨call, List.mem_append_left _ hcall, hheld⟩
  · have hlt : i < c.calls.length := (List.getElem?_eq_some_iff.mp hi).1
    have hmem : (⟨op, .act l r e n⟩ : Call Op L σ ρ) ∈ c.calls := List.mem_of_getElem? hi
    have hself : (⟨op, n c.state⟩ : Call Op L σ ρ) ∈ c.calls.set i ⟨op, n c.state⟩ :=
      List.mem_set hlt _
    obtain ⟨-, htakes⟩ := h.takes _ hmem
    refine ⟨fun call hcall => ?_, fun k hk => ?_⟩
    · obtain hcall | rfl := List.mem_or_eq_of_mem_set hcall
      · exact h.takes call hcall
      · exact (htakes c.state).2
    · obtain hbefore | hheld := (htakes c.state).1 hready k hk
      · obtain ⟨call, hcall, hheld⟩ := h.held k hbefore
        obtain ⟨j, hj⟩ := List.mem_iff_getElem?.mp hcall
        by_cases hij : i = j
        · -- the call itself has held the lock, and has not released it
          subst hij
          obtain rfl := Option.some.inj (hi.symm.trans hj)
          obtain hfree | hrest := (hheld c.state).2
          · exact absurd hk (by simp [hfree])
          · exact ⟨_, hself, hrest⟩
        · refine ⟨call, List.mem_iff_getElem?.mpr ⟨j, ?_⟩, hheld⟩
          rw [List.getElem?_set_ne hij]
          exact hj
      · exact ⟨_, hself, hheld⟩

/-- **No deadlock**: a call that is blocked waits for a lock, and the call that holds it is not
blocked. -/
theorem LocksHeld.canStep (h : LocksHeld locked c) : c.Quiet ∨ c.CanStep code := by
  by_cases hquiet : c.Quiet
  · exact .inl hquiet
  right
  have hact {call : Call Op L σ ρ} {l : L} {r : σ → Bool} {e : σ → σ} {n : σ → Prog L σ ρ}
      (hcall : call ∈ c.calls) (hprog : call.prog = .act l r e n) (hready : r c.state = true) :
      c.CanStep code := by
    obtain ⟨i, hi⟩ := List.mem_iff_getElem?.mp hcall
    obtain ⟨op, prog⟩ := call
    obtain rfl : prog = .act l r e n := hprog
    refine ⟨i, ⟨e c.state, c.calls.set i ⟨op, n c.state⟩⟩, ?_⟩
    simp [Config.next, hi, hready]
  simp only [Config.Quiet, not_forall, not_not] at hquiet
  obtain ⟨⟨op, prog⟩, hcall, hresult⟩ := hquiet
  cases prog with
  | done a => cases hresult
  | act l r e n =>
    obtain ⟨⟨lock, hlock⟩, -⟩ := h.takes _ hcall
    by_cases hready : r c.state = true
    · exact hact hcall rfl hready
    · cases lock with
      | none => exact absurd (hlock c.state) hready
      | some k =>
        have hk : locked k c.state = true := by
          rw [hlock] at hready
          simpa using hready
        obtain ⟨⟨op', prog'⟩, hcall', hheld⟩ := h.held k hk
        cases prog' with
        | done a => exact hheld.elim
        | act l' r' e' n' => exact hact hcall' rfl (hheld c.state).1

theorem LocksHeld.inevitablyQuiet (hcode : ∀ i op, (code i op).TakesLocks locked)
    (h : LocksHeld locked c) : c.InevitablyQuiet code := by
  induction c using (Config.wellFounded_step code).induction with
  | h c ih =>
    exact .intro c h.canStep fun i c' hstep => ih c' ⟨i, hstep⟩ (h.next hcode hstep)

/-- **A pool of calls that take locks comes to its end.** From every configuration that it reaches,
every call ends, unless further calls are started. -/
theorem Run.inevitablyQuiet (hcode : ∀ i op, (code i op).TakesLocks locked) {s : σ}
    (hfree : ∀ k, locked k s = false) (run : Run code ok (Config.initial s) c) :
    c.InevitablyQuiet code := by
  have hstart : LocksHeld locked (Config.initial s : Config Op L σ ρ) := by
    refine ⟨fun call h => ?_, fun k hk => ?_⟩
    · cases h
    · rw [Config.initial, hfree k] at hk
      cases hk
  have hheld : LocksHeld locked c :=
    run.invariant hstart fun _ _ _ h _ hnext => h.next hcode hnext
  exact hheld.inevitablyQuiet hcode

end

end Interleave
