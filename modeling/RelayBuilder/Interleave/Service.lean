import RelayBuilder.Interleave.Locks
import RelayBuilder.Interleave.Protocol

/-!
# Services

Callers put requests into bounded queues and wait for their answers. Workers take the requests
from the queues, a batch at a time, answer each of them in the slot that its caller waits for, and
then do something else before they take the next batch.

A caller gets what the work makes of its own request, whatever the interleaving. And no request is
lost: as long as a worker goes on with a queue, every call that uses the queue is answered.

## Main definitions

* `Service.ask`, `Service.serve`: the programs of a caller and of a worker
* `Config.Inevitably`: the pool comes to a configuration of a kind in any case

## Main results

* `Service.run`
-/

namespace Interleave

variable {ι Req Ans τ L Op ρ : Type}

/-- A request, and the slot that its caller waits for. -/
structure Posted (Req : Type) where
  request : Req
  slot : ℕ
  deriving DecidableEq

/-- Where a caller waits for an answer, until it is given or will not be given any more. -/
inductive Slot (Ans : Type) where
  | waiting
  | settled (answer : Option Ans)
  deriving DecidableEq

def Slot.isSettled {Ans : Type} : Slot Ans → Bool
  | .waiting => false
  | .settled _ => true

def Slot.answer {Ans : Type} : Slot Ans → Option Ans
  | .waiting => none
  | .settled answer => answer

/-- Queues of requests, the slots that were opened so far, and what else the workers use. -/
structure Service (ι Req Ans τ : Type) where
  queues : ι → List (Posted Req)
  slots : ℕ → Slot Ans
  opened : ℕ
  rest : τ

/-- What an action accesses. -/
inductive ServiceLock (ι L : Type) where
  | queue (i : ι)
  | slot (k : ℕ)
  | rest (l : L)

/-- As long as no further call is started, the pool comes to a configuration of the kind `A` in any
case. -/
inductive Config.Inevitably {σ : Type} (code : ℕ → Op → Prog L σ ρ) (A : Config Op L σ ρ → Prop) :
    Config Op L σ ρ → Prop where
  | now {c : Config Op L σ ρ} (h : A c) : Inevitably code A c
  | later {c : Config Op L σ ρ} (h : c.CanStep code)
    (rest : ∀ i c', c.next code (.step i) = some c' → Inevitably code A c') : Inevitably code A c

/-- A pool that can go on until it comes to such a configuration does so, since it does not go on
for ever. -/
theorem Config.inevitably {σ : Type} {code : ℕ → Op → Prog L σ ρ} {I A : Config Op L σ ρ → Prop}
    (hstep : ∀ c i c', I c → c.next code (.step i) = some c' → I c')
    (hprogress : ∀ c, I c → A c ∨ c.CanStep code) {c : Config Op L σ ρ} (h : I c) :
    c.Inevitably code A := by
  induction c using (Config.wellFounded_step code).induction with
  | h c ih =>
    rcases hprogress c h with hA | hcan
    · exact .now hA
    · exact .later hcan fun i c' hnext => ih c' ⟨i, hnext⟩ (hstep c i c' h hnext)

namespace Service

/-- No request was made yet. -/
def new (rest : τ) : Service ι Req Ans τ := ⟨fun _ => [], fun _ => .waiting, 0, rest⟩

section Programs

variable [DecidableEq ι]

def setQueue (s : Service ι Req Ans τ) (i : ι) (queue : List (Posted Req)) :
    Service ι Req Ans τ :=
  { s with queues := fun i' => if i' = i then queue else s.queues i' }

/-- Open a slot and put the request into the queue. -/
def post (i : ι) (request : Req) (s : Service ι Req Ans τ) : ℕ × Service ι Req Ans τ :=
  (s.opened,
    { s.setQueue i (s.queues i ++ [⟨request, s.opened⟩]) with opened := s.opened + 1 })

/-- The first request of the queue, if there is one. -/
def receive (i : ι) (s : Service ι Req Ans τ) : Option (Posted Req) × Service ι Req Ans τ :=
  ((s.queues i).head?, s.setQueue i (s.queues i).tail)

def settle (slot : ℕ) (answer : Option Ans) (s : Service ι Req Ans τ) : Service ι Req Ans τ :=
  { s with slots := fun k => if k = slot then .settled answer else s.slots k }

/-- Put a request into a queue as soon as there is room, and wait for what becomes of it. -/
def ask (capacity : ℕ) (i : ι) (request : Req) :
    Prog (ServiceLock ι L) (Service ι Req Ans τ) (Option Ans) := do
  let slot ← .await (.queue i) (fun s => decide ((s.queues i).length < capacity)) (post i request)
  .await (.slot slot) (fun s => (s.slots slot).isSettled) fun s => ((s.slots slot).answer, s)

/-- Take further requests without waiting, `limit` of them at most. -/
def drain (i : ι) : ℕ → List (Posted Req) →
    Prog (ServiceLock ι L) (Service ι Req Ans τ) (List (Posted Req))
  | 0, batch => pure batch
  | limit + 1, batch => do
    let next ← .atomic (.queue i) (receive i)
    match next with
    | none => pure batch
    | some p => drain i limit (batch ++ [p])

variable (work : Req → Option Ans) (epilogue : ι → ℕ → Prog L τ PUnit)

/-- Wait for a request, take what else is there, answer the whole batch, and go on to what is done
after a batch of that size. -/
def serveBatch (i : ι) (limit : ℕ) : Prog (ServiceLock ι L) (Service ι Req Ans τ) PUnit := do
  let first ← .await (.queue i) (fun s => !(s.queues i).isEmpty) (receive i)
  let batch ← drain i limit first.toList
  batch.forM fun p => .atomic (.slot p.slot) fun s => (⟨⟩, s.settle p.slot (work p.request))
  (epilogue i batch.length).zoom .rest Service.rest fun rest s => { s with rest }

/-- The batches of a worker, one after another. A worker that goes on for ever has done a number
of batches after any number of actions, each with a number of requests. -/
def serve (i : ι) (limits : List ℕ) : Prog (ServiceLock ι L) (Service ι Req Ans τ) PUnit :=
  limits.forM (serveBatch work epilogue i)

end Programs

/-! ### The protocol -/

/-- Which side of a queue a call is on. -/
inductive Role (ι : Type) where
  | caller (i : ι)
  | worker (i : ι)

/-- What a call is about: a request that is not made yet, one that was made, or a batch of which
this much is not answered yet. -/
inductive Errand (ι Req : Type) where
  | posting (i : ι)
  | waiting (i : ι) (p : Posted Req)
  | serving (i : ι) (batch : List (Posted Req))
  | ended

/-- How a call begins. -/
def Role.start : Role ι → Errand ι Req
  | .caller i => .posting i
  | .worker i => .serving i []

/-- What a call may be about. -/
def Role.May : Role ι → Errand ι Req → Prop
  | .caller i, .posting i' => i' = i
  | .caller i, .waiting i' _ => i' = i
  | .worker i, .serving i' _ => i' = i
  | _, .ended => True
  | _, _ => False

/-- What a call may have to wait for. A worker that has nothing to answer may wait for a request. -/
def Errand.Awaits (capacity : ℕ) : Errand ι Req → (Service ι Req Ans τ → Bool) → Prop
  | .posting i, ready => ∀ s, (s.queues i).length < capacity → ready s = true
  | .waiting _ p, ready => ∀ s, s.slots p.slot ≠ .waiting → ready s = true
  | .serving i batch, ready => ∀ s, s.queues i ≠ [] ∨ batch ≠ [] → ready s = true
  | .ended, _ => False

/-- A request that was not answered yet is in the queue, or in a batch that a worker has taken. -/
def Pending (γ : List (Errand ι Req)) (s : Service ι Req Ans τ) (i : ι) (p : Posted Req) : Prop :=
  p ∈ s.queues i ∨ ∃ batch, .serving i batch ∈ γ ∧ p ∈ batch

/-- A caller whose slot is open has a request that is pending, and a settled slot holds what the
work makes of the request. -/
structure Kept (work : Req → Option Ans) (γ : List (Errand ι Req)) (s : Service ι Req Ans τ) :
    Prop where
  opened : ∀ i p, Pending γ s i p ∨ .waiting i p ∈ γ → p.slot < s.opened
  fresh : ∀ k, s.opened ≤ k → s.slots k = .waiting
  agree : ∀ i p i' q, Pending γ s i p → .waiting i' q ∈ γ → q.slot = p.slot → q = p
  pending : ∀ i p, .waiting i p ∈ γ → s.slots p.slot = .waiting → Pending γ s i p
  answered : ∀ i p, .waiting i p ∈ γ → ∀ answer, s.slots p.slot = .settled answer →
    answer = work p.request

/-- Nothing is taken for granted but the invariant. -/
def protocol (work : Req → Option Ans) :
    Protocol (ServiceLock ι L) (Service ι Req Ans τ) (Errand ι Req) where
  inv := Kept work
  rely _ _ _ := True
  allowed _ _ _ _ := True
  rely_refl _ _ := trivial
  rely_trans _ _ _ _ _ _ := trivial

/-- What is left of a call fits what it is about. -/
structure Fits (capacity : ℕ) (role : Role ι) (Res : ρ → Prop) (g : Errand ι Req)
    (p : Prog (ServiceLock ι L) (Service ι Req Ans τ) ρ) : Prop where
  role : role.May g
  awaits : ∀ l r e n, p = .act l r e n → g.Awaits capacity r
  ended : ∀ a, p = .done a → g = .ended ∧ Res a

variable {work : Req → Option Ans} {γ rest : List (Errand ι Req)} {g g' : Errand ι Req}
  {s s' : Service ι Req Ans τ} {i : ι} {p : Posted Req} {batch : List (Posted Req)}

theorem kept_new (r : τ) : Kept work ([] : List (Errand ι Req)) (new r) := by
  have hnone : ∀ i (p : Posted Req), ¬ Pending ([] : List (Errand ι Req))
      (new r : Service ι Req Ans τ) i p := by
    rintro i p (h | ⟨_, h, -⟩)
    · cases h
    · cases h
  refine ⟨fun i p h => ?_, fun _ _ => rfl, fun i p _ _ h => absurd h (hnone i p),
    fun _ _ h => ?_, fun _ _ h => ?_⟩
  · rcases h with h | h
    · exact absurd h (hnone i p)
    · cases h
  · cases h
  · cases h

theorem pending_perm {γ' : List (Errand ι Req)} (hperm : γ.Perm γ') :
    Pending γ s i p ↔ Pending γ' s i p := by
  simp only [Pending, hperm.mem_iff]

/-- What changes neither the slots nor what is pending keeps the promise, if no caller waits for
something new. -/
theorem Kept.of_same {γ' : List (Errand ι Req)} (h : Kept work γ s) (hslots : s'.slots = s.slots)
    (hopened : s'.opened = s.opened) (hpending : ∀ i p, Pending γ' s' i p ↔ Pending γ s i p)
    (hwaiting : ∀ i p, .waiting i p ∈ γ' → .waiting i p ∈ γ) : Kept work γ' s' := by
  refine ⟨fun i p hp => ?_, fun k => ?_, fun i p i' q hp hq => ?_, fun i p hp => ?_,
    fun i p hp => ?_⟩
  · rw [hopened]
    exact h.opened i p (hp.imp (hpending i p).mp (hwaiting i p))
  · rw [hslots, hopened]
    exact h.fresh k
  · exact h.agree i p i' q ((hpending i p).mp hp) (hwaiting i' q hq)
  · rw [hslots, hpending]
    exact h.pending i p (hwaiting i p hp)
  · rw [hslots]
    exact h.answered i p (hwaiting i p hp)

theorem Kept.perm {γ' : List (Errand ι Req)} (h : Kept work γ s) (hperm : γ.Perm γ') :
    Kept work γ' s :=
  h.of_same rfl rfl (fun _ _ => (pending_perm hperm).symm) fun _ _ => hperm.mem_iff.mpr

/-- A call that goes on to something else, whatever the others are about. -/
theorem Kept.move {j : ℕ} (h : Kept work γ s) (hj : γ[j]? = some g)
    (hstep : ∀ rest, Kept work (g :: rest) s → Kept work (g' :: rest) s') :
    Kept work (γ.set j g') s' := by
  obtain ⟨hlt, hget⟩ := List.getElem?_eq_some_iff.mp hj
  have hold : γ.Perm (g :: γ.eraseIdx j) := by
    rw [← hget]
    exact (List.getElem_cons_eraseIdx_perm hlt).symm
  exact (hstep _ (h.perm hold)).perm (List.set_perm_cons_eraseIdx hlt g').symm

theorem pending_cons : Pending (g :: rest) s i p ↔
    Pending rest s i p ∨ ∃ batch, g = .serving i batch ∧ p ∈ batch := by
  simp only [Pending, List.mem_cons]
  constructor
  · rintro (h | ⟨batch, rfl | h, hp⟩)
    · exact .inl (.inl h)
    · exact .inr ⟨batch, rfl, hp⟩
    · exact .inl (.inr ⟨batch, h, hp⟩)
  · rintro ((h | ⟨batch, h, hp⟩) | ⟨batch, rfl, hp⟩)
    · exact .inl h
    · exact .inr ⟨batch, .inr h, hp⟩
    · exact .inr ⟨batch, .inl rfl, hp⟩

/-- What a call that holds no batch is about does not matter for what is pending. -/
theorem pending_cons_of_idle (hg : ∀ i batch, g = .serving i batch → batch = []) :
    Pending (g :: rest) s i p ↔ Pending rest s i p := by
  rw [pending_cons, or_iff_left]
  rintro ⟨batch, hserving, hp⟩
  rw [hg i batch hserving] at hp
  cases hp

theorem pending_posting {i' : ι} : Pending (.posting i' :: rest) s i p ↔ Pending rest s i p :=
  pending_cons_of_idle fun _ _ h => by cases h

theorem pending_waiting {i' : ι} {q : Posted Req} :
    Pending (.waiting i' q :: rest) s i p ↔ Pending rest s i p :=
  pending_cons_of_idle fun _ _ h => by cases h

/-- Beside a call that does not wait, those that wait are the others. -/
theorem waiting_mem (hg : ∀ i p, g ≠ .waiting i p) (h : .waiting i p ∈ g :: rest) :
    .waiting i p ∈ g' :: rest := by
  rcases List.mem_cons.mp h with heq | h
  · exact absurd heq.symm (hg i p)
  · exact List.mem_cons_of_mem g' h

/-- A call that ends. -/
theorem Kept.leave (h : Kept work (g :: rest) s)
    (hg : ∀ i batch, g = .serving i batch → batch = []) : Kept work (.ended :: rest) s := by
  refine h.of_same rfl rfl (fun i p => ?_) fun i p => waiting_mem fun _ _ h => by cases h
  rw [pending_cons_of_idle hg, pending_cons_of_idle fun _ _ h => by cases h]

/-- A call that begins. -/
theorem Kept.enter (h : Kept work γ s) (role : Role ι) : Kept work (γ ++ [role.start]) s := by
  have hidle : ∀ i batch, role.start = (.serving i batch : Errand ι Req) → batch = [] := by
    intro i batch heq
    cases role <;> cases heq
    rfl
  have hstart : Kept work (role.start :: γ) s := by
    refine h.of_same rfl rfl (fun i p => pending_cons_of_idle hidle) fun i p hp => ?_
    rcases List.mem_cons.mp hp with heq | hp
    · cases role <;> cases heq
    · exact hp
  exact hstart.perm (List.perm_append_singleton _ _).symm

section

variable [DecidableEq ι]

/-- A request is taken from the queue into the batch. -/
theorem Kept.take (h : Kept work (.serving i batch :: rest) s) :
    Kept work (.serving i (batch ++ (receive i s).1.toList) :: rest) (receive i s).2 := by
  refine h.of_same rfl rfl (fun i' p => ?_) fun i' p => waiting_mem fun _ _ h => by cases h
  rw [pending_cons, pending_cons]
  simp only [Pending, receive, setQueue, Errand.serving.injEq]
  by_cases hi : i' = i
  · subst hi
    cases hqueue : s.queues i' with
    | nil => simp
    | cons q queue =>
      simp only [if_pos, List.tail_cons, List.head?_cons, Option.toList_some, List.mem_cons,
        true_and, exists_eq_left', List.mem_append, List.not_mem_nil, or_false]
      constructor
      · rintro ((h | h) | h | h)
        · exact .inl (.inl (.inr h))
        · exact .inl (.inr h)
        · exact .inr h
        · exact .inl (.inl (.inl h))
      · rintro (((h | h) | h) | h)
        · exact .inr (.inr h)
        · exact .inl (.inl h)
        · exact .inl (.inr h)
        · exact .inr (.inl h)
  · simp [hi, Ne.symm hi]

/-- A request is put into the queue. -/
theorem Kept.post (h : Kept work (.posting i :: rest) s) (request : Req) :
    Kept work (.waiting i ⟨request, s.opened⟩ :: rest) (Service.post i request s).2 := by
  have hpending : ∀ i' p, Pending (.waiting i ⟨request, s.opened⟩ :: rest)
      (Service.post i request s).2 i' p ↔
        Pending (.posting i :: rest) s i' p ∨ i' = i ∧ p = ⟨request, s.opened⟩ := by
    intro i' p
    rw [pending_waiting, pending_posting]
    simp only [Pending, Service.post, setQueue]
    by_cases hi : i' = i
    · subst hi
      simp [or_right_comm]
    · simp [hi]
  have hwaiting : ∀ i' p,
      .waiting i' p ∈ (.waiting i ⟨request, s.opened⟩ :: rest : List (Errand ι Req)) →
        i' = i ∧ p = ⟨request, s.opened⟩ ∨
          .waiting i' p ∈ (.posting i :: rest : List (Errand ι Req)) := by
    intro i' p hp
    rcases List.mem_cons.mp hp with heq | hp
    · cases heq
      exact .inl ⟨rfl, rfl⟩
    · exact .inr (List.mem_cons_of_mem _ hp)
  have hnew : ∀ {i' p}, Pending (.posting i :: rest) s i' p ∨
      .waiting i' p ∈ (.posting i :: rest : List (Errand ι Req)) → p.slot ≠ s.opened :=
    fun hp => Nat.ne_of_lt (h.opened _ _ hp)
  refine ⟨fun i' p hp => ?_, fun k hk => h.fresh k (Nat.le_of_succ_le hk),
    fun i' p i'' q hp hq heq => ?_, fun i' p hp hslot => ?_, fun i' p hp answer hslot => ?_⟩
  · have hcases : p.slot < s.opened ∨ p.slot = s.opened := by
      rcases hp with hp | hp
      · rcases (hpending i' p).mp hp with hp | ⟨-, rfl⟩
        · exact .inl (h.opened i' p (.inl hp))
        · exact .inr rfl
      · rcases hwaiting i' p hp with ⟨-, rfl⟩ | hp
        · exact .inr rfl
        · exact .inl (h.opened i' p (.inr hp))
    show p.slot < s.opened + 1
    omega
  · rcases (hpending i' p).mp hp with hp | ⟨-, rfl⟩ <;> rcases hwaiting i'' q hq with ⟨-, rfl⟩ | hq
    · exact absurd heq.symm (hnew (.inl hp))
    · exact h.agree i' p i'' q hp hq heq
    · rfl
    · exact absurd heq (hnew (.inr hq))
  · rw [hpending]
    rcases hwaiting i' p hp with hp | hp
    · exact .inr hp
    · exact .inl (h.pending i' p hp hslot)
  · rcases hwaiting i' p hp with ⟨-, rfl⟩ | hp
    · have hfresh := h.fresh s.opened (Nat.le_refl _)
      rw [show (Service.post i request s).2.slots = s.slots from rfl, hfresh] at hslot
      cases hslot
    · exact h.answered i' p hp answer hslot

/-- A request is answered. -/
theorem Kept.settle (h : Kept work (.serving i (p :: batch) :: rest) s) :
    Kept work (.serving i batch :: rest) (s.settle p.slot (work p.request)) := by
  have hself : Pending (.serving i (p :: batch) :: rest) s i p :=
    .inr ⟨_, List.mem_cons_self, List.mem_cons_self⟩
  have hpending : ∀ i' q, Pending (.serving i (p :: batch) :: rest) s i' q ↔
      Pending (.serving i batch :: rest) (s.settle p.slot (work p.request)) i' q ∨
        i' = i ∧ q = p := by
    intro i' q
    rw [pending_cons, pending_cons]
    simp only [Pending, Service.settle, Errand.serving.injEq]
    by_cases hi : i' = i
    · subst hi
      simp only [true_and, exists_eq_left', List.mem_cons]
      constructor
      · rintro (h | h | h)
        · exact .inl (.inl h)
        · exact .inr h
        · exact .inl (.inr h)
      · rintro ((h | h) | h)
        · exact .inl h
        · exact .inr (.inr h)
        · exact .inr (.inl h)
    · simp [hi, Ne.symm hi]
  have hwaiting : ∀ i' q, .waiting i' q ∈ (.serving i batch :: rest : List (Errand ι Req)) →
      .waiting i' q ∈ (.serving i (p :: batch) :: rest : List (Errand ι Req)) :=
    fun i' q => waiting_mem fun _ _ h => by cases h
  have hslots : ∀ k, (s.settle p.slot (work p.request)).slots k =
      if k = p.slot then .settled (work p.request) else s.slots k := fun _ => rfl
  refine ⟨fun i' q hq => ?_, fun k hk => ?_, fun i' q i'' q' hq hq' heq => ?_,
    fun i' q hq hslot => ?_, fun i' q hq answer hslot => ?_⟩
  · exact h.opened i' q (hq.imp (fun hq => (hpending i' q).mpr (.inl hq)) (hwaiting i' q))
  · have hlt : p.slot < s.opened := h.opened i p (.inl hself)
    have hk' : s.opened ≤ k := hk
    rw [hslots, if_neg (by omega)]
    exact h.fresh k hk
  · exact h.agree i' q i'' q' ((hpending i' q).mpr (.inl hq)) (hwaiting i'' q' hq') heq
  · rw [hslots] at hslot
    split at hslot
    · cases hslot
    · rename_i hne
      rcases (hpending i' q).mp (h.pending i' q (hwaiting i' q hq) hslot) with hq | ⟨-, rfl⟩
      · exact hq
      · exact absurd rfl hne
  · rw [hslots] at hslot
    split at hslot
    · rename_i heq
      cases hslot
      rw [h.agree i p i' q hself (hwaiting i' q hq) heq]
    · exact h.answered i' q (hwaiting i' q hq) answer hslot

end

/-! ### The calls -/

variable {capacity : ℕ} {role : Role ι} {Res : ρ → Prop} {j : ℕ} {α : Type}

theorem may_ended (role : Role ι) : role.May (.ended : Errand ι Req) := by
  cases role <;> trivial

theorem fits_await {l : ServiceLock ι L} {ready : Service ι Req Ans τ → Bool}
    {f : Service ι Req Ans τ → α × Service ι Req Ans τ}
    {k : α → Prog (ServiceLock ι L) (Service ι Req Ans τ) ρ} (hrole : role.May g)
    (hawaits : g.Awaits capacity ready) :
    Fits capacity role Res g ((Prog.await l ready f).bind k) := by
  refine ⟨hrole, fun l' r e n heq => ?_, fun a heq => ?_⟩
  · obtain ⟨-, rfl, -, -⟩ := Prog.act.inj heq
    exact hawaits
  · cases heq

/-- Any change is tolerable that keeps the promise. -/
theorem tolerable (γ : List (Errand ι Req)) (s s' : Service ι Req Ans τ) :
    (protocol work : Protocol (ServiceLock ι L) _ _).Tolerable j γ s s' :=
  fun _ _ _ _ => trivial

/-- The end of a call. -/
theorem safe_done {a : ρ} (ha : Res a)
    (hg : ∀ i batch, g = .serving i batch → batch = []) (s : Service ι Req Ans τ) :
    (protocol work : Protocol (ServiceLock ι L) _ _).Safe j (Fits capacity role Res) (.done a) g
      s := by
  refine Protocol.Safe.done fun γ s' hγ _ hinv =>
    ⟨.ended, Kept.move hinv hγ fun _ h => h.leave hg, may_ended role, fun _ _ _ _ heq => ?_,
      fun a' heq => ?_⟩
  · cases heq
  · cases heq
    exact ⟨rfl, ha⟩

theorem safe_epilogue {p : Prog L τ PUnit} (hp : p.NeverWaits)
    {k : PUnit → Prog (ServiceLock ι L) (Service ι Req Ans τ) ρ}
    (hk : ∀ s, (protocol work).Safe j (Fits capacity (.worker i) Res) (k ⟨⟩) (.serving i []) s)
    (s : Service ι Req Ans τ) :
    (protocol work).Safe j (Fits capacity (.worker i) Res)
      ((p.zoom .rest Service.rest fun rest s => { s with rest }).bind k) (.serving i []) s := by
  induction p generalizing s with
  | done a => exact hk s
  | act l r e n ih =>
    refine ⟨⟨rfl, fun _ _ _ _ heq => ?_, fun _ heq => ?_⟩, fun γ s₁ hγ _ hinv _ _ =>
      ⟨.serving i [], ?_, tolerable _ _ _, ih _ (hp _).2 _⟩⟩
    · obtain ⟨-, rfl, -, -⟩ := Prog.act.inj heq
      exact fun s _ => (hp _).1
    · cases heq
    · rw [Protocol.set_of_getElem? hγ]
      exact Kept.of_same hinv rfl rfl (fun _ _ => Iff.rfl) fun _ _ h => h

section

variable [DecidableEq ι]

/-- A caller gets what the work makes of its request. -/
theorem safe_ask (request : Req) (f : Option Ans → ρ) (hres : Res (f (work request)))
    (s : Service ι Req Ans τ) :
    (protocol work).Safe j (Fits capacity (.caller i) Res)
      ((ask capacity i request : Prog (ServiceLock ι L) _ _).bind fun a => .done (f a))
      (.posting i) s := by
  rw [ask, Prog.bind_eq, Prog.bind_assoc]
  refine Protocol.Safe.await_bind (fits_await rfl fun s h => decide_eq_true h)
    fun γ s₁ hγ _ hinv _ _ => ⟨_, Kept.move hinv hγ fun _ h => h.post request, tolerable _ _ _, ?_⟩
  refine Protocol.Safe.await_bind (fits_await rfl fun s h => ?_)
    fun γ s₂ hγ _ hinv hready _ => ⟨.ended, ?_, tolerable _ _ _, ?_⟩
  · show (s.slots s₁.opened).isSettled = true
    cases hslot : s.slots s₁.opened with
    | waiting => exact absurd hslot h
    | settled answer => rfl
  · exact Kept.move hinv hγ fun _ h => h.leave fun _ _ h => by cases h
  · have hanswer : (s₂.slots s₁.opened).answer = work request := by
      cases hslot : s₂.slots s₁.opened with
      | waiting =>
        have hsettled : (s₂.slots s₁.opened).isSettled = true := hready
        rw [hslot] at hsettled
        cases hsettled
      | settled answer => exact hinv.answered i _ (List.mem_of_getElem? hγ) answer hslot
    refine safe_done ?_ (fun _ _ h => by cases h) s₂
    show Res (f (s₂.slots s₁.opened).answer)
    rw [hanswer]
    exact hres

theorem safe_drain {k : List (Posted Req) → Prog (ServiceLock ι L) (Service ι Req Ans τ) ρ}
    (hk : ∀ batch s, (protocol work).Safe j (Fits capacity (.worker i) Res) (k batch)
      (.serving i batch) s) (limit : ℕ) (batch : List (Posted Req)) (s : Service ι Req Ans τ) :
    (protocol work).Safe j (Fits capacity (.worker i) Res) ((drain i limit batch).bind k)
      (.serving i batch) s := by
  induction limit generalizing batch s with
  | zero => exact hk batch s
  | succ limit ih =>
    rw [drain, Prog.bind_eq, Prog.bind_assoc]
    refine Protocol.Safe.atomic_bind (fits_await rfl fun _ _ => rfl) fun γ s₁ hγ _ hinv _ =>
      ⟨_, Kept.move hinv hγ fun _ h => h.take, tolerable _ _ _, ?_⟩
    cases (receive i s₁).1 with
    | none =>
      rw [Option.toList_none, List.append_nil]
      exact hk batch _
    | some p => exact ih _ _

theorem safe_settleAll {k : PUnit → Prog (ServiceLock ι L) (Service ι Req Ans τ) ρ}
    (hk : ∀ s, (protocol work).Safe j (Fits capacity (.worker i) Res) (k ⟨⟩) (.serving i []) s)
    (batch : List (Posted Req)) (s : Service ι Req Ans τ) :
    (protocol work).Safe j (Fits capacity (.worker i) Res) ((batch.forM fun p =>
      Prog.atomic (.slot p.slot) fun s => (PUnit.unit, s.settle p.slot (work p.request))).bind k)
      (.serving i batch) s := by
  induction batch generalizing s with
  | nil => exact hk s
  | cons p batch ih =>
    rw [List.forM_eq_forM, List.forM_cons, Prog.bind_eq, Prog.bind_assoc]
    exact Protocol.Safe.atomic_bind (fits_await rfl fun _ _ => rfl) fun γ s₁ hγ _ hinv _ =>
      ⟨_, Kept.move hinv hγ fun _ h => h.settle, tolerable _ _ _, ih _⟩

/-- A worker answers what it takes. -/
theorem safe_serve {epilogue : ι → ℕ → Prog L τ PUnit}
    (hepilogue : ∀ i n, (epilogue i n).NeverWaits) (limits : List ℕ) {a : ρ} (ha : Res a)
    (s : Service ι Req Ans τ) :
    (protocol work).Safe j (Fits capacity (.worker i) Res)
      ((serve work epilogue i limits).bind fun _ => .done a) (.serving i []) s := by
  rw [serve]
  induction limits generalizing s with
  | nil => exact safe_done ha (fun _ _ h => by cases h; rfl) s
  | cons limit limits ih =>
    rw [List.forM_eq_forM, List.forM_cons, serveBatch]
    simp only [Prog.bind_eq, Prog.bind_assoc]
    refine Protocol.Safe.await_bind (fits_await rfl fun s h => ?_) fun γ s₁ hγ _ hinv _ _ =>
      ⟨_, Kept.move hinv hγ fun _ h => h.take, tolerable _ _ _, ?_⟩
    · rcases h with h | h
      · simp [h]
      · exact absurd rfl h
    · exact safe_drain (fun batch s₂ => safe_settleAll (fun s₃ =>
        safe_epilogue (hepilogue i _) (fun s₄ => ih s₄) s₃) batch s₂) _ _ _

end

/-! ### Every interleaving -/

/-- Where a worker goes on, every caller has its answer. -/
def Answered (role : Op → Role ι) (c : Config Op (ServiceLock ι L) (Service ι Req Ans τ) ρ) :
    Prop :=
  ∀ i, (∃ call ∈ c.calls, role call.op = .worker i ∧ call.result? = none) →
    ∀ call ∈ c.calls, role call.op = .caller i → call.result? ≠ none

variable {roleOf : Op → Role ι} {ResOf : Op → ρ → Prop}
  {code : ℕ → Op → Prog (ServiceLock ι L) (Service ι Req Ans τ) ρ}
  {c c' : Config Op (ServiceLock ι L) (Service ι Req Ans τ) ρ}

/-- A call that has what it awaits can act. -/
theorem canStep_of_ready (h : (protocol work).Holds
      (fun op => Fits capacity (roleOf op) (ResOf op)) c γ) {j : ℕ} (hj : γ[j]? = some g)
    (hg : g ≠ .ended)
    (hready : ∀ ready : Service ι Req Ans τ → Bool, g.Awaits capacity ready →
      ready c.state = true) : c.CanStep code := by
  obtain ⟨⟨op, p⟩, hcall, hfits⟩ := h.call hj
  cases p with
  | done a => exact absurd (hfits.ended a rfl).1 hg
  | act l r e n =>
    have hr : r c.state = true := hready r (hfits.awaits l r e n rfl)
    exact ⟨j, ⟨e c.state, c.calls.set j ⟨op, n c.state⟩⟩, by simp [Config.next, hcall, hr]⟩

/-- **No request is lost**: while a worker goes on with a queue and a caller waits there, some call
can act. -/
theorem answered_or_canStep (hcapacity : 0 < capacity) (h : (protocol work).Holds
      (fun op => Fits capacity (roleOf op) (ResOf op)) c γ) :
    Answered roleOf c ∨ c.CanStep code := by
  by_cases hanswered : Answered roleOf c
  · exact .inl hanswered
  right
  simp only [Answered, not_forall, not_not] at hanswered
  obtain ⟨i, ⟨worker, hworker, hworkerRole, hworkerResult⟩, caller, hcaller, hcallerRole,
    hcallerResult⟩ := hanswered
  have herrand : ∀ call ∈ c.calls, call.result? = none → ∃ (j : ℕ) (g : Errand ι Req),
      γ[j]? = some g ∧ g ≠ .ended ∧ (roleOf call.op).May g := by
    rintro ⟨op, p⟩ hcall hresult
    obtain ⟨j, hj⟩ := List.mem_iff_getElem?.mp hcall
    obtain ⟨g, hg, hfits⟩ := h.ghost hj
    refine ⟨j, g, hg, ?_, hfits.role⟩
    rintro rfl
    cases p with
    | done a => cases hresult
    | act l r e n => exact hfits.awaits l r e n rfl
  obtain ⟨jw, gw, hjw, hgw, hmayw⟩ := herrand worker hworker hworkerResult
  obtain ⟨jc, gc, hjc, hgc, hmayc⟩ := herrand caller hcaller hcallerResult
  rw [hworkerRole] at hmayw
  rw [hcallerRole] at hmayc
  -- a worker with something in its queue or its batch is not blocked
  have hwork : c.state.queues i ≠ [] → c.CanStep code := by
    intro hqueue
    cases gw with
    | posting _ | waiting _ _ => exact hmayw.elim
    | ended => exact absurd rfl hgw
    | serving i' batch =>
      obtain rfl : i' = i := hmayw
      exact canStep_of_ready h hjw hgw fun ready hready => hready c.state (.inl hqueue)
  cases gc with
  | serving _ _ => exact hmayc.elim
  | ended => exact absurd rfl hgc
  | posting i' =>
    obtain rfl : i' = i := hmayc
    by_cases hroom : (c.state.queues i').length < capacity
    · exact canStep_of_ready h hjc hgc fun ready hready => hready c.state hroom
    · refine hwork fun hempty => hroom ?_
      rw [hempty]
      exact hcapacity
  | waiting i' p =>
    obtain rfl : i' = i := hmayc
    by_cases hslot : c.state.slots p.slot = .waiting
    · rcases h.inv.pending i' p (List.mem_of_getElem? hjc) hslot with hqueue | ⟨batch, hbatch, hp⟩
      · exact hwork (List.ne_nil_of_mem hqueue)
      · obtain ⟨j, hj⟩ := List.mem_iff_getElem?.mp hbatch
        refine canStep_of_ready h hj (by simp) fun ready hready => hready c.state (.inr ?_)
        exact List.ne_nil_of_mem hp
    · exact canStep_of_ready h hjc hgc fun ready hready => hready c.state hslot

/-- **Every request is answered**, whatever the interleaving: what a call returns is what the work
makes of its own request, and as long as a worker goes on with a queue, the calls that use the
queue come to their end, unless further calls are started. -/
theorem run {ok : Config Op (ServiceLock ι L) (Service ι Req Ans τ) ρ → Move Op → Prop} {r : τ}
    (hcapacity : 0 < capacity)
    (hcode : ∀ j op s, (protocol work).Safe j (Fits capacity (roleOf op) (ResOf op)) (code j op)
      (roleOf op).start s)
    (hrun : Run code ok (Config.initial (new r)) c) :
    (∀ j op a, c.Returned j op a → ResOf op a) ∧ c.Inevitably code (Answered roleOf) := by
  have hstart : (protocol work).Holds (fun op => Fits capacity (roleOf op) (ResOf op))
      (Config.initial (new r) : Config Op (ServiceLock ι L) (Service ι Req Ans τ) ρ) [] :=
    Protocol.Holds.initial (kept_new r)
  obtain ⟨γ, hholds, -⟩ := hstart.run hrun
    (fun c γ op h _ => ⟨(roleOf op).start, h.inv.enter (roleOf op), hcode _ _ _⟩)
    fun _ _ _ _ _ _ _ => trivial
  refine ⟨fun j op a ha => ?_, ?_⟩
  · obtain ⟨g, -, hfits⟩ := hholds.ghost ha
    exact (hfits.ended a rfl).2
  · refine Config.inevitably (I := fun c => ∃ γ, (protocol work).Holds
      (fun op => Fits capacity (roleOf op) (ResOf op)) c γ) ?_ ?_ ⟨γ, hholds⟩
    · rintro c j c' ⟨γ, h⟩ hnext
      obtain ⟨op, hm, -⟩ | ⟨j', op, l, ready, e, n, hm, hj, hready, rfl⟩ := Config.next_cases hnext
      · cases hm
      · obtain ⟨g', h'⟩ := h.step hj hready trivial
        exact ⟨_, h'⟩
    · rintro c ⟨γ, h⟩
      exact answered_or_canStep hcapacity h

end Service

end Interleave
