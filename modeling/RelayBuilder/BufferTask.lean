import RelayBuilder.SubscriptionCoordinator
import RelayBuilder.Interleave.Exec
import Mathlib.Logic.Relation

/-!
# The task of the buffer

`ReplaceableEventsBuffer::start_with_sender`. Events that the relay makes itself are put into a
queue, and `save_and_broadcast` returns `Ok` for them at once. The task takes them out of the queue
into the buffer, and flushes the buffer once a second and when it is cancelled.

Before every question of the task the other tasks may save any number of events, and the token may
be cancelled.

## Main definitions

* `bufferTask`: the loop
* `bufferAnswers`: the queue, the clock and the token answer it
* `NothingLost`: every event that was accepted has been handed to a flush, or was replaced

## Main results

* `bufferTask_hands`: what the task took out of the queue is not lost
* `nothingLost_of_queue_nil`: nothing is lost if nothing is left in the queue
-/

namespace RelayBuilder

open Interleave Script

/-- What the `select!` of the loop may choose. -/
inductive BufferBranch where
  | cancelled
  | received (item : Option (UnsignedEvent × Scope))
  | tick

/-- What the task asks besides what its flushes ask. -/
inductive BufferCall where
  | select
  /-- The end of the task drops the receiver. -/
  | dropReceiver

abbrev BufferCall.Answer : BufferCall → Type
  | select => BufferBranch
  | dropReceiver => Unit

abbrev BufferScript (α : Type) :=
  Script (RelayCall ⊕ BufferCall) (Sum.elim RelayCall.Answer BufferCall.Answer) α

abbrev BufferHistory := History (Sum.elim RelayCall.Answer BufferCall.Answer)

/-- `start_with_sender`, as long as the loop goes round at most so often. It says whether the loop
was left. The map may yield its elements in another order at every flush. -/
def bufferTask (kinds : KindRanges) (order : ℕ → HashOrder) :
    ℕ → ReplaceableEventsBuffer → BufferScript Bool
  | 0, _ => pure false
  | n + 1, buffer => do
    match ← Script.request (Sum.inr BufferCall.select) with
    | .cancelled => do
      let _ ← (buffer.flush (order n)).left
      Script.request (Sum.inr BufferCall.dropReceiver)
      pure true
    | .received (some (event, scope)) =>
      bufferTask kinds order n (buffer.insert kinds event scope)
    | .received none => bufferTask kinds order n buffer
    | .tick => do
      let buffer ← (buffer.flush (order n)).left
      bufferTask kinds order n buffer

/-! ### The queue -/

/-- The queue, whether its receiver and the token are still alive, and the events that were
accepted so far: those for which `save_and_broadcast` returned `Ok`. -/
structure EventQueue where
  items : List (UnsignedEvent × Scope)
  receiving : Bool
  cancelled : Bool
  accepted : List (UnsignedEvent × Scope)

namespace EventQueue

/-- The capacity of the queue. -/
def capacity : ℕ := 10000

def new : EventQueue := ⟨[], true, false, []⟩

/-- The queue answers `save_and_broadcast`. A send waits while the queue is full, and fails once
there is no receiver. -/
def answers : Script.Answers RelayCall.Answer EventQueue
  | .queueReplaceable event scope, s, .ok _, s' => s.receiving = true ∧
    s.items.length < capacity ∧ s' = { s with items := s.items ++ [(event, scope)] }
  | .queueReplaceable _ _, s, .error _, s' => s.receiving = false ∧ s' = s
  | _, s, _, s' => s' = s

/-- Another task saves an event of the relay, or the token is cancelled. -/
inductive Step (kinds : KindRanges) : EventQueue → EventQueue → Prop where
  | save {s s' : EventQueue} {event : UnsignedEvent} {scope : Scope}
    {handler : Option OneshotRef} {t : RelayHistory} {r : Except Error Unit}
    (hkind : kinds.isReplaceable event.kind || kinds.isAddressable event.kind)
    (h : Exec answers (SubscriptionCoordinator.saveAndBroadcast kinds
      (.saveUnsignedEvent event scope handler)) s t r s') :
    Step kinds s
      { s' with accepted := s'.accepted ++ if r = .ok () then [(event, scope)] else [] }
  | cancel (s : EventQueue) : Step kinds s { s with cancelled := true }

abbrev Steps (kinds : KindRanges) : EventQueue → EventQueue → Prop :=
  Relation.ReflTransGen (Step kinds)

end EventQueue

/-- What the `select!` may choose. The queue gives its oldest event; it ends when nobody can send
any more. -/
def BufferBranch.Chosen (s : EventQueue) : BufferBranch → EventQueue → Prop
  | .cancelled, s' => s.cancelled = true ∧ s' = s
  | .received (some item), s' => ∃ items, s.items = item :: items ∧ s' = { s with items := items }
  | .received none, s' => s.items = [] ∧ s' = s
  | .tick, s' => s' = s

/-- The queue, the clock and the token answer the task, after some steps of others. -/
def bufferAnswers (kinds : KindRanges) :
    Script.Answers (Sum.elim RelayCall.Answer BufferCall.Answer) EventQueue
  | .inl _, s, _, s' => EventQueue.Steps kinds s s'
  | .inr .select, s, r, s' => ∃ s₁, EventQueue.Steps kinds s s₁ ∧ BufferBranch.Chosen s₁ r s'
  | .inr .dropReceiver, s, _, s' =>
    ∃ s₁, EventQueue.Steps kinds s s₁ ∧ s' = { s₁ with receiving := false }

/-! ### What is accepted -/

/-- The key under which an event is buffered. -/
def bufferKey (item : UnsignedEvent × Scope) : PublicKey × Kind × Scope :=
  (item.1.pubkey, item.1.kind, item.2)

/-- Events of this kind are buffered. -/
def Buffered (kinds : KindRanges) (item : UnsignedEvent × Scope) : Prop :=
  kinds.isReplaceable item.1.kind || kinds.isAddressable item.1.kind

/-- The body of a flush has signed and saved the event, as far as this succeeded. -/
def Handed (t : BufferHistory) (item : UnsignedEvent × Scope) : Prop :=
  ∃ before during after, t = before ++ during.map leftAsked ++ after ∧
    Runs (ReplaceableEventsBuffer.flushEvent item.1 item.2) during ()

/-- Every event that was accepted has been handed to a flush, or another event with its key was
accepted after it. -/
def NothingLost (accepted : List (UnsignedEvent × Scope)) (t : BufferHistory) : Prop :=
  ∀ before item after, accepted = before ++ item :: after →
    Handed t item ∨ ∃ later ∈ after, bufferKey later = bufferKey item

/-- An event that the task took out of the queue. -/
def BufferAsked.received? : (q : RelayCall ⊕ BufferCall) ×
    Sum.elim RelayCall.Answer BufferCall.Answer q → Option (UnsignedEvent × Scope)
  | ⟨.inr .select, .received item⟩ => item
  | _ => none

/-- The events that the task took out of the queue. -/
def receivedIn (t : BufferHistory) : List (UnsignedEvent × Scope) :=
  t.filterMap BufferAsked.received?

variable {kinds : KindRanges} {order : ℕ → HashOrder} {s s' s'' : EventQueue} {n : ℕ}
  {buffer : ReplaceableEventsBuffer} {t t' : BufferHistory} {item : UnsignedEvent × Scope}

/-- **An event of the relay is accepted** exactly when the queue takes it. -/
theorem exec_saveAndBroadcast {event : UnsignedEvent} {scope : Scope}
    {handler : Option OneshotRef} {t : RelayHistory} {r : Except Error Unit}
    (hkind : kinds.isReplaceable event.kind || kinds.isAddressable event.kind)
    (h : Exec EventQueue.answers (SubscriptionCoordinator.saveAndBroadcast kinds
      (.saveUnsignedEvent event scope handler)) s t r s') :
    (r = .ok () ∧ s' = { s with items := s.items ++ [(event, scope)] }) ∨
      (r ≠ .ok () ∧ s' = s) := by
  rw [SubscriptionCoordinator.saveAndBroadcast, if_pos hkind] at h
  obtain ⟨t₁, r₁, s₁, t₂, rfl, h₁, h₂⟩ := exec_bind.mp h
  obtain ⟨r₀, s₀, t₀, rfl, hqueue, h₀⟩ := exec_request_bind.mp h₁
  obtain ⟨rfl, rfl, rfl⟩ := exec_done.mp h₀
  match r₀ with
  | .error e =>
    obtain ⟨-, rfl, rfl⟩ := exec_done.mp h₂
    exact .inr ⟨nofun, hqueue.2⟩
  | .ok () =>
    obtain ⟨t₃, u, s₃, t₄, rfl, h₃, h₄⟩ := exec_bind.mp h₂
    obtain ⟨-, rfl, rfl⟩ := exec_done.mp h₄
    refine .inl ⟨rfl, ?_⟩
    cases handler with
    | none =>
      obtain ⟨-, -, rfl⟩ := exec_done.mp h₃
      exact hqueue.2.2
    | some tx =>
      obtain ⟨_, _, _, -, rfl, h₅⟩ := exec_request_bind.mp h₃
      obtain ⟨-, -, rfl⟩ := exec_done.mp h₅
      exact hqueue.2.2

/-- While the task is busy, others put accepted events at the end of the queue. -/
theorem EventQueue.Steps.grow (h : EventQueue.Steps kinds s s') :
    ∃ new, s'.items = s.items ++ new ∧ s'.accepted = s.accepted ++ new ∧
      ∀ item ∈ new, Buffered kinds item := by
  induction h with
  | refl => exact ⟨[], (List.append_nil _).symm, (List.append_nil _).symm, fun _ h => nomatch h⟩
  | tail _ hstep ih =>
    obtain ⟨new, hitems, haccepted, hnew⟩ := ih
    cases hstep with
    | cancel => exact ⟨new, hitems, haccepted, hnew⟩
    | @save s₂ event scope _ _ r hkind hexec =>
      obtain ⟨rfl, rfl⟩ | ⟨hr, rfl⟩ := exec_saveAndBroadcast hkind hexec
      · refine ⟨new ++ [(event, scope)], ?_, ?_, ?_⟩
        · rw [hitems, List.append_assoc]
        · rw [haccepted, if_pos rfl, List.append_assoc]
        · exact List.forall_mem_append.mpr ⟨hnew, List.forall_mem_singleton.mpr hkind⟩
      · exact ⟨new, hitems, by rw [if_neg hr, List.append_nil, haccepted], hnew⟩

/-! ### What is received -/

@[simp] theorem receivedIn_append : receivedIn (t ++ t') = receivedIn t ++ receivedIn t' :=
  List.filterMap_append

@[simp] theorem receivedIn_left (t : RelayHistory) :
    receivedIn (t.map leftAsked : BufferHistory) = [] :=
  List.filterMap_eq_nil_iff.mpr fun asked hasked => by
    obtain ⟨_, -, rfl⟩ := List.mem_map.mp hasked
    rfl

theorem receivedIn_cons {q : RelayCall ⊕ BufferCall}
    {r : Sum.elim RelayCall.Answer BufferCall.Answer q} :
    receivedIn (⟨q, r⟩ :: t) = (BufferAsked.received? ⟨q, r⟩).toList ++ receivedIn t := by
  rw [receivedIn, List.filterMap_cons]
  cases BufferAsked.received? ⟨q, r⟩ <;> rfl

/-- What is accepted and what is received at one question of the task. -/
theorem bufferAnswers_fifo {q : RelayCall ⊕ BufferCall}
    {r : Sum.elim RelayCall.Answer BufferCall.Answer q} (h : bufferAnswers kinds q s r s') :
    ∃ new, s'.accepted = s.accepted ++ new ∧
      s.items ++ new = (BufferAsked.received? ⟨q, r⟩).toList ++ s'.items ∧
      ∀ item ∈ new, Buffered kinds item := by
  match q, r with
  | .inl _, _ =>
    obtain ⟨new, hitems, haccepted, hnew⟩ := EventQueue.Steps.grow h
    exact ⟨new, haccepted, hitems.symm, hnew⟩
  | .inr .dropReceiver, _ =>
    obtain ⟨s₁, hsteps, rfl⟩ := h
    obtain ⟨new, hitems, haccepted, hnew⟩ := hsteps.grow
    exact ⟨new, haccepted, hitems.symm, hnew⟩
  | .inr .select, branch =>
    obtain ⟨s₁, hsteps, hchosen⟩ := h
    obtain ⟨new, hitems, haccepted, hnew⟩ := hsteps.grow
    match branch with
    | .cancelled =>
      obtain ⟨-, rfl⟩ := hchosen
      exact ⟨new, haccepted, hitems.symm, hnew⟩
    | .received none =>
      obtain ⟨-, rfl⟩ := hchosen
      exact ⟨new, haccepted, hitems.symm, hnew⟩
    | .received (some item) =>
      obtain ⟨items, hitem, rfl⟩ := hchosen
      exact ⟨new, haccepted, hitems.symm.trans hitem, hnew⟩
    | .tick =>
      obtain rfl := hchosen
      exact ⟨new, haccepted, hitems.symm, hnew⟩

/-- **First in, first out.** What was in the queue and what was accepted since is what the task
took out, in this order, and what is in the queue now. -/
theorem exec_fifo {α : Type} {p : BufferScript α} {a : α}
    (hexec : Exec (bufferAnswers kinds) p s t a s') :
    ∃ new, s'.accepted = s.accepted ++ new ∧ s.items ++ new = receivedIn t ++ s'.items ∧
      ∀ item ∈ new, Buffered kinds item := by
  induction hexec with
  | done a s => exact ⟨[], (List.append_nil _).symm, List.append_nil _, fun _ h => nomatch h⟩
  | @ask q k s s₁ s₂ t a r hr _ ih =>
    obtain ⟨new, haccepted, hitems, hnew⟩ := bufferAnswers_fifo hr
    obtain ⟨new', haccepted', hitems', hnew'⟩ := ih
    refine ⟨new ++ new', ?_, ?_, List.forall_mem_append.mpr ⟨hnew, hnew'⟩⟩
    · rw [haccepted', haccepted, List.append_assoc]
    · rw [receivedIn_cons, ← List.append_assoc, hitems, List.append_assoc, hitems',
        List.append_assoc]

/-! ### What is handed to a flush -/

theorem Handed.append_left (h : Handed t' item) (t : BufferHistory) : Handed (t ++ t') item := by
  obtain ⟨before, during, after, rfl, hrun⟩ := h
  exact ⟨t ++ before, during, after, by simp only [List.append_assoc], hrun⟩

theorem Handed.append_right (h : Handed t item) (t' : BufferHistory) : Handed (t ++ t') item := by
  obtain ⟨before, during, after, rfl, hrun⟩ := h
  exact ⟨before, during, after ++ t', by simp only [List.append_assoc], hrun⟩

theorem Handed.cons {q : RelayCall ⊕ BufferCall}
    {r : Sum.elim RelayCall.Answer BufferCall.Answer q} (h : Handed t item) :
    Handed (⟨q, r⟩ :: t) item :=
  h.append_left [⟨q, r⟩]

/-- A flush hands over every event of the buffer, and leaves it empty. -/
theorem runs_flush {ho : HashOrder} {left : ReplaceableEventsBuffer} {t : RelayHistory}
    (hrun : Runs (buffer.flush ho) t left) : left = ∅ ∧ ∀ item : UnsignedEvent × Scope,
      buffer.lookup (bufferKey item) = some item.1 → Handed (t.map leftAsked) item := by
  obtain ⟨t₁, u, t₂, rfl, hloop, hend⟩ := runs_bind.mp hrun
  obtain ⟨rfl, rfl⟩ := runs_done.mp hend
  refine ⟨rfl, fun item hitem => ?_⟩
  have hmem := ho.mem_iter.mpr (AList.mem_lookup_iff.mp hitem)
  obtain ⟨before, during, after, rfl, hduring⟩ := hloop.forM_mem hmem
  exact ⟨before.map leftAsked, during, after.map leftAsked, by simp, hduring⟩

theorem lookup_insert_self (hitem : Buffered kinds item) :
    (buffer.insert kinds item.1 item.2).lookup (bufferKey item) = some item.1 := by
  rw [ReplaceableEventsBuffer.insert, if_neg]
  · exact AList.lookup_insert _
  · simpa [Buffered, or_iff_not_imp_left] using hitem

/-- An event under another key stays in the buffer. -/
theorem lookup_insert_of_ne {item' : UnsignedEvent × Scope} (h : bufferKey item' ≠ bufferKey item)
    (hlookup : buffer.lookup (bufferKey item) = some item.1) :
    (buffer.insert kinds item'.1 item'.2).lookup (bufferKey item) = some item.1 := by
  rw [ReplaceableEventsBuffer.insert]
  split
  · exact hlookup
  · rw [← hlookup]
    exact AList.lookup_insert_ne (Ne.symm h)

theorem NothingLost.mono {accepted : List (UnsignedEvent × Scope)} (h : NothingLost accepted t)
    (ht : ∀ item, Handed t item → Handed t' item) : NothingLost accepted t' :=
  fun before item after heq => (h before item after heq).imp_left (ht item)

/-- **What the task took out of the queue is not lost.** When the task has ended, whatever was in
the buffer and whatever it received has been handed to a flush, or an event with its key was
received after it. -/
theorem bufferTask_hands (hrun : Runs (bufferTask kinds order n buffer) t true)
    (hkinds : ∀ item ∈ receivedIn t, Buffered kinds item) :
    (∀ item : UnsignedEvent × Scope, buffer.lookup (bufferKey item) = some item.1 →
      Handed t item ∨ ∃ later ∈ receivedIn t, bufferKey later = bufferKey item) ∧
      NothingLost (receivedIn t) t := by
  induction n generalizing buffer t with
  | zero => cases (runs_done.mp hrun).2
  | succ n ih =>
    obtain ⟨branch, t', rfl, hbranch⟩ := runs_request_bind.mp hrun
    match branch with
    | .cancelled =>
      obtain ⟨t₁, left, t₂, rfl, hflush, hend⟩ := runs_bind.mp hbranch
      obtain ⟨t₀, rfl, hflushed⟩ := runs_left.mp hflush
      obtain ⟨u, t₃, rfl, hdone⟩ := runs_request_bind.mp hend
      obtain ⟨rfl, -⟩ := runs_done.mp hdone
      have hnone : receivedIn (⟨.inr .select, .cancelled⟩ ::
          (t₀.map leftAsked ++ [⟨.inr .dropReceiver, u⟩]) : BufferHistory) = [] := by
        show receivedIn (t₀.map leftAsked ++ _) = []
        rw [receivedIn_append, receivedIn_left]
        rfl
      rw [hnone]
      refine ⟨fun item hitem => .inl ?_, fun before item after heq => by simp at heq⟩
      exact (((runs_flush hflushed).2 item hitem).append_right _).cons
    | .received none =>
      obtain ⟨hbuffer, hreceived⟩ := ih hbranch hkinds
      exact ⟨fun item hitem => (hbuffer item hitem).imp_left Handed.cons,
        hreceived.mono fun _ => Handed.cons⟩
    | .received (some item) =>
      obtain ⟨hitem, hlater⟩ := List.forall_mem_cons.mp hkinds
      obtain ⟨hbuffer, hreceived⟩ := ih hbranch hlater
      refine ⟨fun item' hitem' => ?_, fun before item' after heq => ?_⟩
      · by_cases hkey : bufferKey item = bufferKey item'
        · exact .inr ⟨item, List.mem_cons_self, hkey⟩
        · refine (hbuffer item' (lookup_insert_of_ne hkey hitem')).imp Handed.cons ?_
          exact fun ⟨later, hmem, hsame⟩ => ⟨later, List.mem_cons_of_mem _ hmem, hsame⟩
      · match before with
        | [] =>
          obtain ⟨rfl, rfl⟩ := List.cons.inj heq
          exact (hbuffer item (lookup_insert_self hitem)).imp_left Handed.cons
        | first :: before =>
          exact (hreceived before item' after (List.cons.inj heq).2).imp_left Handed.cons
    | .tick =>
      obtain ⟨t₁, left, t₂, rfl, hflush, hrest⟩ := runs_bind.mp hbranch
      obtain ⟨t₀, rfl, hflushed⟩ := runs_left.mp hflush
      have hsame : receivedIn (⟨.inr .select, .tick⟩ :: (t₀.map leftAsked ++ t₂) : BufferHistory) =
          receivedIn t₂ := by
        show receivedIn (t₀.map leftAsked ++ t₂) = receivedIn t₂
        rw [receivedIn_append, receivedIn_left, List.nil_append]
      rw [hsame] at hkinds ⊢
      refine ⟨fun item hitem => .inl ?_, (ih hrest hkinds).2.mono fun _ h => (h.append_left _).cons⟩
      exact (((runs_flush hflushed).2 item hitem).append_right _).cons

/-! ### What is signed -/

/-- An event that is given to be signed is one of these. -/
def SignsFrom (items : List (UnsignedEvent × Scope)) : RelayCall ⊕ BufferCall → Prop
  | .inl (.queueForSigning event scope) => (event, scope) ∈ items
  | _ => True

/-- An event that is received is one of these. -/
def ReceivesFrom (items : List (UnsignedEvent × Scope)) :
    (q : RelayCall ⊕ BufferCall) → Sum.elim RelayCall.Answer BufferCall.Answer q → Prop
  | .inr .select, .received (some item) => item ∈ items
  | _, _ => True

/-- The events in the buffer are among these. -/
def BuffersFrom (items : List (UnsignedEvent × Scope)) (buffer : ReplaceableEventsBuffer) : Prop :=
  ∀ entry ∈ buffer.entries, (entry.2, entry.1.2.2) ∈ items

variable {items : List (UnsignedEvent × Scope)}

theorem buffersFrom_empty : BuffersFrom items ∅ := fun _ h => nomatch h

theorem BuffersFrom.insert (h : BuffersFrom items buffer) (hitem : item ∈ items) :
    BuffersFrom items (buffer.insert kinds item.1 item.2) := by
  rw [ReplaceableEventsBuffer.insert]
  split
  · exact h
  · rw [BuffersFrom, AList.entries_insert]
    refine List.forall_mem_cons.mpr ⟨hitem, fun entry hentry => h entry ?_⟩
    exact (List.kerase_sublist _ _).subset hentry

theorem everyAsk_flushEvent {event : UnsignedEvent} {scope : Scope} (h : (event, scope) ∈ items) :
    (ReplaceableEventsBuffer.flushEvent event scope).EveryAsk (fun _ _ => True)
      fun call => SignsFrom items (.inl call) := by
  have hsign : (CryptoHelper.signStoreCommand event scope).EveryAsk (fun _ _ => True)
      fun call => SignsFrom items (.inl call) := EveryAsk.mapError (everyAsk_request h)
  refine hsign.bind fun r => ?_
  cases r with
  | error e => trivial
  | ok _ =>
    refine everyAsk_request_bind trivial fun signed _ => ?_
    match signed with
    | none | some (.error _) | some (.ok none) | some (.ok (some (.saveUnsignedEvent ..)))
    | some (.ok (some (.deleteEvents ..))) => trivial
    | some (.ok (some (.saveSignedEvent event' scope' _))) =>
      refine EveryAsk.bind (everyAsk_request_bind trivial fun view _ => ?_) fun saved => ?_
      · cases view with
        | error e => trivial
        | ok _ => exact everyAsk_request_bind trivial fun status _ => by cases status <;> trivial
      · cases saved with
        | error e => trivial
        | ok _ => exact everyAsk_request trivial

/-- The task has no event signed that it did not receive. -/
theorem everyAsk_bufferTask (h : BuffersFrom items buffer) :
    (bufferTask kinds order n buffer).EveryAsk (ReceivesFrom items) (SignsFrom items) := by
  induction n generalizing buffer with
  | zero => trivial
  | succ n ih =>
    have hflush : ∀ k : ReplaceableEventsBuffer → BufferScript Bool,
        (k ∅).EveryAsk (ReceivesFrom items) (SignsFrom items) →
        ((buffer.flush (order n)).left.bind k).EveryAsk (ReceivesFrom items) (SignsFrom items) := by
      intro k hk
      have hloop : (((order n).iter buffer.entries).forM fun entry =>
          ReplaceableEventsBuffer.flushEvent entry.2 entry.1.2.2).EveryAsk (fun _ _ => True)
          fun call => SignsFrom items (.inl call) :=
        EveryAsk.forM fun entry hentry =>
          everyAsk_flushEvent (h entry ((order n).mem_iter.mp hentry))
      rw [ReplaceableEventsBuffer.flush, bind_eq, left_bind, bind_assoc]
      exact (hloop.left (fun _ _ _ => trivial) fun _ hq => hq).bind fun _ => hk
    refine everyAsk_request_bind trivial fun branch hbranch => ?_
    match branch with
    | .cancelled => exact hflush _ (everyAsk_request_bind trivial fun _ _ => trivial)
    | .received none => exact ih h
    | .received (some item) => exact ih (h.insert hbranch)
    | .tick => exact hflush _ (ih buffersFrom_empty)

theorem receivesFrom_receivedIn (t : BufferHistory) :
    ∀ asked ∈ t, ReceivesFrom (receivedIn t) asked.1 asked.2 := by
  intro ⟨q, r⟩ hasked
  match q, r with
  | .inl _, _ | .inr .dropReceiver, _ => trivial
  | .inr .select, .cancelled | .inr .select, .tick | .inr .select, .received none => trivial
  | .inr .select, .received (some item) => exact List.mem_filterMap.mpr ⟨_, hasked, rfl⟩

/-- What was handed to a flush was received. -/
theorem Handed.received (h : Handed t item) (hrun : Runs (bufferTask kinds order n ∅) t true) :
    item ∈ receivedIn t := by
  have hsigns := (everyAsk_bufferTask buffersFrom_empty).runs hrun (receivesFrom_receivedIn t)
  obtain ⟨before, during, after, heq, hduring⟩ := h
  obtain ⟨t₁, r, t₂, rfl, hsign, -⟩ := runs_bind.mp hduring
  obtain ⟨r', t₃, rfl, -⟩ := runs_request_bind.mp hsign
  exact hsigns ⟨.inl (.queueForSigning item.1 item.2), r'⟩ (by simp [heq, leftAsked])

/-! ### The end of the task -/

/-- **Nothing is lost if nothing is left in the queue.** In every run in which the task has ended:
if the queue was empty when its receiver was dropped, then every event that was accepted has been
handed to a flush, or was replaced. And if no event was accepted twice, only then. -/
theorem nothingLost_of_queue_nil (kinds : KindRanges) (order : ℕ → HashOrder) (n : ℕ)
    (t : BufferHistory) (s : EventQueue)
    (hexec : Exec (bufferAnswers kinds) (bufferTask kinds order n ∅) .new t true s) :
    (s.items = [] → NothingLost s.accepted t) ∧
      (s.accepted.Nodup → NothingLost s.accepted t → s.items = []) := by
  obtain ⟨new, haccepted, hitems, hnew⟩ := exec_fifo hexec
  have hsplit : s.accepted = receivedIn t ++ s.items := haccepted.trans hitems
  refine ⟨fun hnil => ?_, fun hnodup hlost => ?_⟩
  · rw [hsplit, hnil, List.append_nil]
    refine (bufferTask_hands hexec.runs fun item hitem => hnew item ?_).2
    rw [show new = _ from hitems]
    exact List.mem_append_left _ hitem
  · -- the last event of the queue: nothing was accepted after it, and it was not received
    rcases s.items.eq_nil_or_concat with hnil | ⟨rest, item, hlast⟩
    · exact hnil
    · rw [hsplit, hlast] at hnodup hlost
      obtain hhanded | ⟨_, hlater, _⟩ := hlost (receivedIn t ++ rest) item [] (by simp)
      · have hreceived := hhanded.received hexec.runs
        exact absurd rfl ((List.nodup_append.mp hnodup).2.2 item hreceived item (by simp))
      · cases hlater

/-! ### One event -/

/-- The metadata that a relay publishes about itself. -/
private def relayMetadata : UnsignedEvent := ⟨0, 0, 0, [], "welcome"⟩

/-- The queue after the metadata was accepted. -/
private def metadataQueued : EventQueue :=
  ⟨[(relayMetadata, .default)], true, false, [(relayMetadata, .default)]⟩

private theorem step_metadata : EventQueue.Step .nip01 .new metadataQueued := by
  have hexec : Exec EventQueue.answers (SubscriptionCoordinator.saveAndBroadcast .nip01
      (.saveUnsignedEvent relayMetadata .default none)) .new
      [⟨.queueReplaceable relayMetadata .default, .ok ()⟩] (.ok ())
      { metadataQueued with accepted := [] } := .ask _ ⟨rfl, by decide, rfl⟩ (.done _ _)
  exact .save (by decide) hexec

/-- The metadata is accepted and received, the token is cancelled, and the last flush has the event
signed and saved. -/
theorem nothingLost_metadata : ∃ (t : BufferHistory) (s : EventQueue),
    s.accepted = [(relayMetadata, .default)] ∧ NothingLost s.accepted t := by
  have hexec : Exec (bufferAnswers .nip01) (bufferTask .nip01 (fun _ => .insertion) 2 ∅) .new
      [⟨.inr .select, .received (some (relayMetadata, .default))⟩, ⟨.inr .select, .cancelled⟩,
        ⟨.inl (.queueForSigning relayMetadata .default), .ok ()⟩,
        ⟨.inl (.awaitSigned relayMetadata .default),
          some (.ok (some (.saveSignedEvent (Event.note 7) .default none)))⟩,
        ⟨.inl (.scopedView .default), .ok ()⟩,
        ⟨.inl (.saveEvent (Event.note 7) .default), .ok .success⟩,
        ⟨.inl (.distributeEvent (Event.note 7) .default), ()⟩, ⟨.inr .dropReceiver, ()⟩] true
      ⟨[], false, true, [(relayMetadata, .default)]⟩ :=
    .ask _ ⟨_, .single step_metadata, _, rfl, rfl⟩ <|
      .ask _ ⟨_, .single (.cancel _), rfl, rfl⟩ <| .ask _ .refl <| .ask _ .refl <| .ask _ .refl <|
      .ask _ .refl <| .ask _ .refl <| .ask _ ⟨_, .refl, rfl⟩ <| .done _ _
  exact ⟨_, _, rfl, (nothingLost_of_queue_nil _ _ _ _ _ hexec).1 rfl⟩

/-- The metadata is accepted, and the token is cancelled before the task looks into the queue. -/
theorem queued_event_lost :
    ¬ ∀ (kinds : KindRanges) (order : ℕ → HashOrder) (n : ℕ) (t : BufferHistory) (s : EventQueue),
      Exec (bufferAnswers kinds) (bufferTask kinds order n ∅) .new t true s →
      NothingLost s.accepted t := by
  intro hall
  have hexec : Exec (bufferAnswers .nip01) (bufferTask .nip01 (fun _ => .insertion) 1 ∅) .new
      [⟨.inr .select, .cancelled⟩, ⟨.inr .dropReceiver, ()⟩] true
      ⟨[(relayMetadata, .default)], false, true, [(relayMetadata, .default)]⟩ :=
    .ask _ ⟨_, .tail (.single step_metadata) (.cancel _), rfl, rfl⟩ <|
      .ask _ ⟨_, .refl, rfl⟩ <| .done _ _
  obtain hhanded | ⟨_, hlater, _⟩ := hall _ _ _ _ _ hexec [] (relayMetadata, .default) [] rfl
  · cases hhanded.received hexec.runs
  · cases hlater

end RelayBuilder
