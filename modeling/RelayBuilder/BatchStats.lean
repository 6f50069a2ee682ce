import Mathlib.Algebra.BigOperators.Group.List.Basic
import Mathlib.Data.List.MinMax
import Mathlib.Tactic.Linarith
import RelayBuilder.Interleave.Protocol

/-!
# Batch statistics

The statistics of `crypto_helper.rs` about the batches that were processed. They are shared by
tasks that process batches, and kept in three atomic cells without a lock: two counters, and a
maximum that is raised in a loop around `compare_exchange_weak`, which may fail for no reason.

Whatever the interleaving and however often the exchange fails, every batch is counted once, under
a number of its own as long as the counters do not wrap around, and the maximum is the size of the
largest batch. The loop ends: a failure that is not spurious has raised the maximum.

## Main definitions

* `BatchStats.recordBatch`
* `StatsExact`: what the cells hold when every call has ended

## Main results

* `recordBatch_exact`
-/

namespace RelayBuilder

open Interleave

/-- The three cells. -/
structure BatchStats where
  batchCount : ℕ
  batchSizeSum : ℕ
  batchSizeMax : ℕ
  deriving DecidableEq

/-- The cell that an action accesses. -/
inductive StatsCell where
  | batchCount
  | batchSizeSum
  | batchSizeMax
  deriving DecidableEq

/-- What is logged about a batch, and whether it is called significantly above average. -/
structure BatchLog where
  operationName : String
  batches : ℕ
  avg : ℕ
  max : ℕ
  totalProcessed : ℕ
  aboveAverage : Bool
  deriving DecidableEq

/-- The end of a call: the number of the batch, whether the loop was left for a reason other than
that no further try was foreseen, and what was logged. -/
structure Recorded where
  batchNum : ℕ
  updated : Bool
  logged : Option BatchLog
  deriving DecidableEq

/-- `fetch_add` on a counter of 64 bits, which wraps around. -/
def fetchAdd (counter n : ℕ) : ℕ := (counter + n) % 2 ^ 64

namespace BatchStats

def new : BatchStats := ⟨0, 0, 0⟩

/-- `compare_exchange_weak` on the maximum. It may fail although it finds the current value. -/
def compareExchangeWeak (spurious : Bool) (current new : ℕ) (s : BatchStats) :
    Except ℕ ℕ × BatchStats :=
  if s.batchSizeMax = current ∧ spurious = false then
    (.ok current, { s with batchSizeMax := new })
  else (.error s.batchSizeMax, s)

/-- The loop that raises the maximum. The list says of each try whether it may succeed, and how
many tries are foreseen. -/
def raiseMax (batchSize : ℕ) : List Bool → ℕ → Prog StatsCell BatchStats Bool
  | tries, currentMax =>
    if currentMax < batchSize then
      match tries with
      | [] => pure false
      | spurious :: tries => do
        let result ← .atomic .batchSizeMax (compareExchangeWeak spurious currentMax batchSize)
        match result with
        | .ok _ => pure true
        | .error x => raiseMax batchSize tries x
    else pure true

/-- `record_batch`. -/
def recordBatch (batchSize totalProcessed : ℕ) (operationName : String) (tries : List Bool) :
    Prog StatsCell BatchStats Recorded := do
  let batchNum ← .atomic .batchCount fun s =>
    (s.batchCount, { s with batchCount := fetchAdd s.batchCount 1 })
  .atomic .batchSizeSum fun s =>
    (PUnit.unit, { s with batchSizeSum := fetchAdd s.batchSizeSum batchSize })
  let currentMax ← .atomic .batchSizeMax fun s => (s.batchSizeMax, s)
  let updated ← raiseMax batchSize tries currentMax
  if batchNum > 0 ∧ batchNum % 100 = 0 then do
    let sum ← .atomic .batchSizeSum fun s => (s.batchSizeSum, s)
    let max ← .atomic .batchSizeMax fun s => (s.batchSizeMax, s)
    let avg := sum / (batchNum + 1)
    pure ⟨batchNum, updated, some { operationName
                                    batches := batchNum + 1
                                    avg
                                    max
                                    totalProcessed
                                    aboveAverage := decide (batchSize > avg * 2) }⟩
  else pure ⟨batchNum, updated, none⟩

end BatchStats

/-- A call of `record_batch`. -/
structure RecordOp where
  batchSize : ℕ
  totalProcessed : ℕ
  operationName : String
  tries : List Bool

def RecordOp.code (op : RecordOp) : Prog StatsCell BatchStats Recorded :=
  BatchStats.recordBatch op.batchSize op.totalProcessed op.operationName op.tries

/-- As many tries are foreseen as the loop may need, besides those that fail for no reason. -/
def RecordOp.Enough (op : RecordOp) : Prop := op.batchSize ≤ op.tries.count false

/-- Every call has enough tries. -/
def enoughTries (_ : Config RecordOp StatsCell BatchStats Recorded) : Move RecordOp → Prop
  | .start op => op.Enough
  | .step _ => True

instance (c : Config RecordOp StatsCell BatchStats Recorded) (m : Move RecordOp) :
    Decidable (enoughTries c m) :=
  match m with
  | .start op => inferInstanceAs (Decidable (op.batchSize ≤ op.tries.count false))
  | .step _ => inferInstanceAs (Decidable True)

/-- What the cells hold when every call has ended, and what the calls have returned. The counters
are those of an unbounded count, up to a multiple of `2 ^ 64`. -/
structure StatsExact (c : Config RecordOp StatsCell BatchStats Recorded) : Prop where
  updated : ∀ i op r, c.Returned i op r → r.updated = true
  batchCount : c.Quiet → c.state.batchCount = c.calls.length % 2 ^ 64
  batchNums : c.Quiet → (c.calls.filterMap fun call => call.result?.map (·.batchNum)).Perm
    ((List.range c.calls.length).map (· % 2 ^ 64))
  batchSizeSum : c.Quiet → c.state.batchSizeSum = (c.ops.map (·.batchSize)).sum % 2 ^ 64
  batchSizeMax : c.Quiet → c.state.batchSizeMax = (c.ops.map (·.batchSize)).foldr max 0
  logged : ∀ i op r, c.Returned i op r → ∀ log ∈ r.logged,
    log.batches = r.batchNum + 1 ∧ r.batchNum % 100 = 0 ∧ op.batchSize ≤ log.max

/-! ### The protocol -/

/-- How far a call has come: how many had drawn a number before it did, whether its batch is in
the sum, and whether the maximum is known to be as large as its batch. -/
structure RecordStage where
  size : ℕ
  num : Option ℕ
  added : Bool
  raised : Bool

/-- The cells hold what the calls have put there so far. -/
structure Counted (γ : List RecordStage) (s : BatchStats) : Prop where
  count : s.batchCount = (γ.filterMap (·.num)).length % 2 ^ 64
  nums : (γ.filterMap (·.num)).Perm (List.range (γ.filterMap (·.num)).length)
  sum : s.batchSizeSum = (γ.map fun g => if g.added then g.size else 0).sum % 2 ^ 64
  le_max : ∀ g ∈ γ, g.raised = true → g.size ≤ s.batchSizeMax
  max_mem : s.batchSizeMax = 0 ∨ ∃ g ∈ γ, g.raised = true ∧ g.size = s.batchSizeMax

/-- Nothing is taken for granted but that the maximum does not fall. -/
def statsProtocol : Protocol StatsCell BatchStats RecordStage where
  inv := Counted
  rely _ s s' := s.batchSizeMax ≤ s'.batchSizeMax
  allowed _ _ _ _ := True
  rely_refl _ _ := Nat.le_refl _
  rely_trans _ _ _ _ := Nat.le_trans

/-- What is left of a call fits its stage. -/
structure AtStage (op : RecordOp) (g : RecordStage) (p : Prog StatsCell BatchStats Recorded) :
    Prop where
  size : g.size = op.batchSize
  ended : ∀ r, p = .done r → g.num.map (· % 2 ^ 64) = some r.batchNum ∧ g.added = true ∧
    g.raised = true ∧ r.updated = true ∧ ∀ log ∈ r.logged,
      log.batches = r.batchNum + 1 ∧ r.batchNum % 100 = 0 ∧ op.batchSize ≤ log.max

variable {γ : List RecordStage} {g g' : RecordStage} {s s' : BatchStats} {i : ℕ} {op : RecordOp}

theorem counted_new : Counted [] .new :=
  ⟨rfl, .refl _, rfl, fun _ h => absurd h List.not_mem_nil, .inl rfl⟩

theorem Counted.perm {γ' : List RecordStage} (h : Counted γ s) (hperm : γ.Perm γ') :
    Counted γ' s := by
  have hnums := hperm.filterMap (·.num)
  refine ⟨?_, ?_, ?_, fun g hg => ?_, ?_⟩
  · rw [h.count, hnums.length_eq]
  · rw [← hnums.length_eq]
    exact hnums.symm.trans h.nums
  · rw [h.sum, (hperm.map _).sum_eq]
  · exact h.le_max g (hperm.mem_iff.mpr hg)
  · obtain hzero | ⟨g, hg, hmax⟩ := h.max_mem
    · exact .inl hzero
    · exact .inr ⟨g, hperm.mem_iff.mp hg, hmax⟩

/-- A call that moves to another stage, whatever the stages of the others are. -/
theorem Counted.move (h : Counted γ s) (hi : γ[i]? = some g)
    (hstep : ∀ rest, γ.Perm (g :: rest) → Counted (g :: rest) s → Counted (g' :: rest) s') :
    Counted (γ.set i g') s' := by
  obtain ⟨hlt, hget⟩ := List.getElem?_eq_some_iff.mp hi
  have hold : γ.Perm (g :: γ.eraseIdx i) := by
    rw [← hget]
    exact (List.getElem_cons_eraseIdx_perm hlt).symm
  exact (hstep _ hold (h.perm hold)).perm (List.set_perm_cons_eraseIdx hlt g').symm

theorem Counted.start (h : Counted γ s) (size : ℕ) :
    Counted (γ ++ [⟨size, none, false, false⟩]) s := by
  refine ⟨?_, ?_, ?_, fun g hg hraised => ?_, ?_⟩
  · simpa using h.count
  · simpa using h.nums
  · simpa using h.sum
  · rcases List.mem_append.mp hg with hg | hg
    · exact h.le_max g hg hraised
    · rw [List.mem_singleton.mp hg] at hraised
      cases hraised
  · rcases h.max_mem with hzero | ⟨g, hg, hmax⟩
    · exact .inl hzero
    · exact .inr ⟨g, List.mem_append_left _ hg, hmax⟩

/-- A call that has not got to the maximum bounds nothing. -/
theorem Counted.le_max_cons {rest : List RecordStage} (h : Counted (g :: rest) s)
    (hg' : g'.raised = false) : ∀ x ∈ g' :: rest, x.raised = true → x.size ≤ s.batchSizeMax := by
  intro x hx hraised
  rcases List.mem_cons.mp hx with rfl | hx
  · rw [hg'] at hraised
    cases hraised
  · exact h.le_max x (List.mem_cons_of_mem g hx) hraised

/-- The maximum comes from another call than one that has not got to it. -/
theorem Counted.max_mem_cons {rest : List RecordStage} (h : Counted (g :: rest) s)
    (hg : g.raised = false) : s.batchSizeMax = 0 ∨
      ∃ x ∈ g' :: rest, x.raised = true ∧ x.size = s.batchSizeMax := by
  rcases h.max_mem with hzero | ⟨x, hx, hraised, hmax⟩
  · exact .inl hzero
  · rcases List.mem_cons.mp hx with rfl | hx
    · rw [hg] at hraised
      cases hraised
    · exact .inr ⟨x, List.mem_cons_of_mem g' hx, hraised, hmax⟩

/-- The next number is drawn. -/
theorem Counted.draw {size : ℕ} {rest : List RecordStage}
    (h : Counted (⟨size, none, false, false⟩ :: rest) s) :
    Counted (⟨size, some (rest.filterMap (·.num)).length, false, false⟩ :: rest)
      { s with batchCount := fetchAdd s.batchCount 1 } := by
  refine ⟨?_, ?_, h.sum, h.le_max_cons rfl, h.max_mem_cons rfl⟩
  · have hcount : s.batchCount = (rest.filterMap (·.num)).length % 2 ^ 64 := h.count
    show fetchAdd s.batchCount 1 = ((rest.filterMap (·.num)).length + 1) % 2 ^ 64
    rw [fetchAdd, hcount, Nat.mod_add_mod]
  · have hnums : (rest.filterMap (·.num)).Perm (List.range (rest.filterMap (·.num)).length) :=
      h.nums
    simp only [List.filterMap_cons, List.length_cons, List.range_succ]
    exact (hnums.cons _).trans (List.perm_append_singleton _ _).symm

/-- The size of the batch is added. -/
theorem Counted.add {size : ℕ} {num : Option ℕ} {rest : List RecordStage}
    (h : Counted (⟨size, num, false, false⟩ :: rest) s) :
    Counted (⟨size, num, true, false⟩ :: rest)
      { s with batchSizeSum := fetchAdd s.batchSizeSum size } := by
  refine ⟨h.count, h.nums, ?_, h.le_max_cons rfl, h.max_mem_cons rfl⟩
  have hsum : s.batchSizeSum =
      (0 + (rest.map fun g => if g.added then g.size else 0).sum) % 2 ^ 64 := h.sum
  rw [Nat.zero_add] at hsum
  rw [List.map_cons, List.sum_cons, if_pos rfl]
  show fetchAdd s.batchSizeSum size = _
  rw [fetchAdd, hsum, Nat.mod_add_mod, Nat.add_comm]

/-- The maximum is read: is it as large as the batch? -/
theorem Counted.read {size : ℕ} {num : Option ℕ} {added : Bool} {rest : List RecordStage}
    (h : Counted (⟨size, num, added, false⟩ :: rest) s) :
    Counted (⟨size, num, added, decide (size ≤ s.batchSizeMax)⟩ :: rest) s := by
  refine ⟨h.count, h.nums, h.sum, fun g hg hraised => ?_, h.max_mem_cons rfl⟩
  rcases List.mem_cons.mp hg with rfl | hg
  · exact of_decide_eq_true hraised
  · exact h.le_max g (List.mem_cons_of_mem _ hg) hraised

/-- The maximum is raised to the size of the batch. -/
theorem Counted.raise {size : ℕ} {num : Option ℕ} {added : Bool} {rest : List RecordStage}
    (h : Counted (⟨size, num, added, false⟩ :: rest) s) (hlt : s.batchSizeMax < size) :
    Counted (⟨size, num, added, true⟩ :: rest) { s with batchSizeMax := size } := by
  refine ⟨h.count, h.nums, h.sum, fun g hg hraised => ?_, .inr ⟨_, List.mem_cons_self, rfl, rfl⟩⟩
  rcases List.mem_cons.mp hg with rfl | hg
  · exact Nat.le_refl _
  · exact Nat.le_trans (h.le_max g (List.mem_cons_of_mem _ hg) hraised) (Nat.le_of_lt hlt)

/-! ### The calls -/

theorem tolerable_stats (hle : s.batchSizeMax ≤ s'.batchSizeMax) :
    statsProtocol.Tolerable i γ s s' :=
  fun _ _ _ _ => hle

theorem atStage_act {l : StatsCell} {r : BatchStats → Bool} {e : BatchStats → BatchStats}
    {n : BatchStats → Prog StatsCell BatchStats Recorded} (hsize : g.size = op.batchSize) :
    AtStage op g (.act l r e n) :=
  ⟨hsize, fun _ h => nomatch h⟩

/-- **The loop ends, and the maximum is as large as the batch.** A failure that is not spurious
finds a maximum above the one that was expected, so it uses up one of the tries that the size of
the batch allows. -/
theorem safe_raiseMax {num : Option ℕ} {added : Bool}
    {k : Bool → Prog StatsCell BatchStats Recorded}
    (hk : ∀ s, statsProtocol.Safe i (AtStage op) (k true) ⟨op.batchSize, num, added, true⟩ s)
    (tries : List Bool) (current : ℕ) (henough : op.batchSize ≤ tries.count false + current)
    (hcurrent : current ≤ s.batchSizeMax) :
    statsProtocol.Safe i (AtStage op) ((BatchStats.raiseMax op.batchSize tries current).bind k)
      ⟨op.batchSize, num, added, decide (op.batchSize ≤ current)⟩ s := by
  induction tries generalizing current s with
  | nil =>
    rw [List.count_nil, Nat.zero_add] at henough
    rw [BatchStats.raiseMax, if_neg (Nat.not_lt.mpr henough), decide_eq_true henough]
    exact hk s
  | cons spurious tries ih =>
    rw [BatchStats.raiseMax]
    by_cases hlt : current < op.batchSize
    · rw [if_pos hlt, decide_eq_false (Nat.not_le.mpr hlt), Prog.bind_eq, Prog.bind_assoc]
      refine Protocol.Safe.atomic_bind ?_ fun γ s' hγ hs hinv _ => ?_
      · exact atStage_act rfl
      have hs' : current ≤ s'.batchSizeMax := Nat.le_trans hcurrent hs
      by_cases hok : s'.batchSizeMax = current ∧ spurious = false
      · rw [BatchStats.compareExchangeWeak, if_pos hok]
        have hraise : s'.batchSizeMax < op.batchSize := hok.1 ▸ hlt
        exact ⟨_, Counted.move hinv hγ fun _ _ h => h.raise hraise,
          tolerable_stats (Nat.le_of_lt hraise), hk _⟩
      · rw [BatchStats.compareExchangeWeak, if_neg hok]
        refine ⟨_, Counted.move hinv hγ fun _ _ h => h.read, tolerable_stats (Nat.le_refl _),
          ih _ ?_ (Nat.le_refl _)⟩
        -- a failure for no reason is not counted, any other one has found more than was expected
        cases spurious with
        | true =>
          rw [List.count_cons_of_ne (by decide)] at henough
          omega
        | false =>
          rw [List.count_cons_self] at henough
          have hne : s'.batchSizeMax ≠ current := fun h => hok ⟨h, rfl⟩
          omega
    · rw [if_neg hlt, decide_eq_true (Nat.not_lt.mp hlt)]
      exact hk s

theorem safe_recordBatch (henough : op.Enough) (s : BatchStats) :
    statsProtocol.Safe i (AtStage op) op.code ⟨op.batchSize, none, false, false⟩ s := by
  refine Protocol.Safe.atomic_bind (atStage_act rfl) fun γ s₁ hγ _ hinv _ =>
    ⟨⟨op.batchSize, some (γ.filterMap (·.num)).length, false, false⟩,
      Counted.move hinv hγ fun _ hperm h => ?_, tolerable_stats (Nat.le_refl _), ?_⟩
  · rw [(hperm.filterMap (·.num)).length_eq]
    exact h.draw
  have hcount := hinv.count
  generalize (γ.filterMap (·.num)).length = n at hcount
  refine Protocol.Safe.atomic_bind (atStage_act rfl) fun γ s₂ hγ _ hinv _ =>
    ⟨_, Counted.move hinv hγ fun _ _ h => h.add, tolerable_stats (Nat.le_refl _), ?_⟩
  refine Protocol.Safe.atomic_bind (atStage_act rfl) fun γ s₃ hγ _ hinv _ =>
    ⟨_, Counted.move hinv hγ fun _ _ h => h.read, tolerable_stats (Nat.le_refl _), ?_⟩
  refine safe_raiseMax (fun s₄ => ?_) op.tries s₃.batchSizeMax (Nat.le_add_right_of_le henough)
    (Nat.le_refl _)
  have hended : ∀ logged : Option BatchLog, (∀ log ∈ logged,
      log.batches = s₁.batchCount + 1 ∧ s₁.batchCount % 100 = 0 ∧ op.batchSize ≤ log.max) →
      AtStage op ⟨op.batchSize, some n, true, true⟩
        (.done ⟨s₁.batchCount, true, logged⟩) := by
    intro logged hlogged
    refine ⟨rfl, fun r hr => ?_⟩
    cases hr
    exact ⟨congrArg some hcount.symm, rfl, rfl, rfl, hlogged⟩
  split
  · rename_i hnum
    refine Protocol.Safe.atomic_bind (atStage_act rfl) fun γ s₅ hγ _ hinv _ =>
      ⟨_, by rwa [Protocol.set_of_getElem? hγ], tolerable_stats (Nat.le_refl _), ?_⟩
    refine Protocol.Safe.atomic_bind (atStage_act rfl) fun γ s₆ hγ _ hinv _ =>
      ⟨_, by rwa [Protocol.set_of_getElem? hγ], tolerable_stats (Nat.le_refl _), ?_⟩
    have hsize : op.batchSize ≤ s₆.batchSizeMax := hinv.le_max _ (List.mem_of_getElem? hγ) rfl
    refine Protocol.Safe.done fun γ s₇ hγ _ hinv => ⟨_, by rwa [Protocol.set_of_getElem? hγ], ?_⟩
    refine hended _ fun log hlog => ?_
    cases hlog
    exact ⟨rfl, hnum.2, hsize⟩
  · refine Protocol.Safe.done fun γ s₇ hγ _ hinv => ⟨_, by rwa [Protocol.set_of_getElem? hγ], ?_⟩
    exact hended none fun _ h => nomatch h

/-! ### Every interleaving -/

/-- An upper bound that is attained, or is zero, is the maximum. -/
theorem foldr_max_eq {m : ℕ} {ns : List ℕ} (hle : ∀ n ∈ ns, n ≤ m) (hmem : m = 0 ∨ m ∈ ns) :
    ns.foldr max 0 = m := by
  have hleast : ns.foldr max 0 ≤ m := List.max_le_of_forall_le ns m hle
  rcases hmem with rfl | hmem
  · exact Nat.le_zero.mp hleast
  · exact Nat.le_antisymm hleast (List.le_max_of_le hmem (Nat.le_refl m))

/-- What the stages say, call by call, is what the calls say. -/
theorem map_stages {α : Type} {c : Config RecordOp StatsCell BatchStats Recorded}
    (hholds : statsProtocol.Holds AtStage c γ) {f : RecordStage → α}
    {f' : Call RecordOp StatsCell BatchStats Recorded → α}
    (hsame : ∀ (i : ℕ) g call, γ[i]? = some g → c.calls[i]? = some call →
      AtStage call.op g call.prog → f g = f' call) : γ.map f = c.calls.map f' := by
  refine List.ext_getElem? fun i => ?_
  rw [List.getElem?_map, List.getElem?_map]
  cases hi : γ[i]? with
  | none =>
    rw [List.getElem?_eq_none_iff, hholds.length, ← List.getElem?_eq_none_iff] at hi
    rw [hi]
    rfl
  | some g =>
    obtain ⟨call, hcall, hstage⟩ := hholds.call hi
    rw [hcall]
    exact congrArg some (hsame i g call hi hcall hstage)

/-- **The statistics are exact** in every interleaving: when every call has ended, the cells hold
the number of batches, the sum of their sizes and the largest size, and the batches are numbered
from zero without a gap. The counters are right up to a multiple of `2 ^ 64`. No call runs out of
tries. -/
theorem recordBatch_exact {c : Config RecordOp StatsCell BatchStats Recorded}
    (hrun : Run (fun _ => RecordOp.code) enoughTries (Config.initial BatchStats.new) c) :
    StatsExact c := by
  obtain ⟨γ, hholds, -⟩ := (Protocol.Holds.initial counted_new :
    statsProtocol.Holds AtStage (Config.initial BatchStats.new) []).run hrun
    (fun c γ op h hok => ⟨⟨op.batchSize, none, false, false⟩, h.inv.start op.batchSize,
      safe_recordBatch hok c.state⟩) fun _ _ _ _ _ _ _ => trivial
  have hsizes : γ.map (·.size) = c.ops.map (·.batchSize) := by
    rw [Config.ops, List.map_map]
    exact map_stages hholds fun _ _ _ _ _ hstage => hstage.size
  -- a call that has ended has gone through all stages
  have hended : c.Quiet → ∀ (i : ℕ) g, γ[i]? = some g → ∃ call r, c.calls[i]? = some call ∧
      call.result? = some r ∧ g.num.map (· % 2 ^ 64) = some r.batchNum ∧ g.added = true ∧
        g.raised = true := by
    intro hquiet i g hi
    obtain ⟨⟨op, p⟩, hcall, hstage⟩ := hholds.call hi
    cases p with
    | done r =>
      obtain ⟨hnum, hadded, hraised, -⟩ := hstage.ended r rfl
      exact ⟨_, r, hcall, rfl, hnum, hadded, hraised⟩
    | act l r e n => exact absurd rfl (hquiet _ (List.mem_of_getElem? hcall))
  have hall : c.Quiet → ∀ g ∈ γ, g.num.isSome ∧ g.added = true ∧ g.raised = true := by
    intro hquiet g hg
    obtain ⟨i, hi⟩ := List.mem_iff_getElem?.mp hg
    obtain ⟨-, r, -, -, hnum, hadded, hraised⟩ := hended hquiet i g hi
    obtain ⟨n, hn, -⟩ := Option.map_eq_some_iff.mp hnum
    exact ⟨hn ▸ rfl, hadded, hraised⟩
  have hnums : c.Quiet → (γ.filterMap (·.num)).map (· % 2 ^ 64) =
      c.calls.filterMap fun call => call.result?.map (·.batchNum) := by
    intro hquiet
    have hmap : (γ.map fun g => g.num.map (· % 2 ^ 64)) =
        c.calls.map fun call => call.result?.map (·.batchNum) := by
      refine map_stages hholds fun i g call hi hcall _ => ?_
      obtain ⟨call', r, hcall', hresult, hnum, -⟩ := hended hquiet i g hi
      obtain rfl := Option.some.inj (hcall'.symm.trans hcall)
      rw [hnum, hresult]
      rfl
    have hid := congrArg (List.filterMap id) hmap
    rw [List.filterMap_map, List.filterMap_map] at hid
    rw [List.map_filterMap]
    exact hid
  have hlength : c.Quiet → (γ.filterMap (·.num)).length = c.calls.length := by
    intro hquiet
    rw [List.filterMap_length_eq_length.mpr fun g hg => (hall hquiet g hg).1, hholds.length]
  refine ⟨fun i op r hr => ?_, fun hquiet => ?_, fun hquiet => ?_, fun hquiet => ?_,
    fun hquiet => ?_, fun i op r hr => ?_⟩
  · obtain ⟨g, -, hstage⟩ := hholds.ghost hr
    exact (hstage.ended r rfl).2.2.2.1
  · rw [hholds.inv.count, hlength hquiet]
  · rw [← hnums hquiet, ← hlength hquiet]
    exact hholds.inv.nums.map _
  · rw [← hsizes, hholds.inv.sum]
    refine congrArg (fun sizes : List ℕ => sizes.sum % 2 ^ 64) (List.map_congr_left fun g hg => ?_)
    exact if_pos (hall hquiet g hg).2.1
  · rw [← hsizes]
    refine (foldr_max_eq (fun n hn => ?_) ?_).symm
    · obtain ⟨g, hg, rfl⟩ := List.mem_map.mp hn
      exact hholds.inv.le_max g hg (hall hquiet g hg).2.2
    · rcases hholds.inv.max_mem with hzero | hattained
      · exact .inl hzero
      · obtain ⟨g, hg, -, hmax⟩ := hattained
        exact .inr (List.mem_map.mpr ⟨g, hg, hmax⟩)
  · obtain ⟨g, -, hstage⟩ := hholds.ghost hr
    exact (hstage.ended r rfl).2.2.2.2

/-- Two batches that meet at the maximum: the exchange of the smaller one fails, once for no reason
and once because the larger one was faster. -/
theorem recordBatch_exact_contended : ∃ c,
    (Config.initial BatchStats.new).play (fun _ => RecordOp.code) enoughTries
      [.start ⟨2, 2, "signing", [true, false, false]⟩,
        .start ⟨5, 7, "signing", List.replicate 5 false⟩,
        .step 0, .step 0, .step 0, .step 1, .step 1, .step 1, .step 0, .step 1, .step 0] = some c ∧
      StatsExact c ∧ c.state = ⟨2, 7, 5⟩ := by
  obtain ⟨c, hplay, hstate⟩ : ∃ c,
      (Config.initial BatchStats.new).play (fun _ => RecordOp.code) enoughTries
      [.start ⟨2, 2, "signing", [true, false, false]⟩,
        .start ⟨5, 7, "signing", List.replicate 5 false⟩,
        .step 0, .step 0, .step 0, .step 1, .step 1, .step 1, .step 0, .step 1, .step 0] = some c ∧
      c.state = ⟨2, 7, 5⟩ := ⟨_, rfl, rfl⟩
  exact ⟨c, hplay, recordBatch_exact (Config.run_of_play hplay), hstate⟩

end RelayBuilder
