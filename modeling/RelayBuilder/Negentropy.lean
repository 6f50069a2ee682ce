import RelayBuilder.Requests

/-!
# What a negentropy session discloses

A client that opens a negentropy session reconciles its events with those that the store selects
for its filter. `handle_neg_open` asks the store alone. The processor, which checks the filters of
a REQ and every stored event that is sent for it, is not asked. So the session discloses no more
than a REQ exactly if the processor has no objection anyway, or if a step fails.

## Main definitions

* `NegOpenRun`: the ways through `handle_neg_open`
* `DisclosesNoMore`, `NothingToHide`

## Main results

* `disclosesNoMore_iff`
-/

namespace RelayBuilder

open Interleave Script

/-! ### The steps of an opening -/

/-- What is asked to reconcile the items with the first message. -/
def Asked.Computes : Asked → Prop
  | ⟨.storageInsert _, _⟩ | ⟨.storageSeal _, _⟩ | ⟨.negentropyOwned _ _, _⟩ | ⟨.hexDecode _, _⟩
  | ⟨.reconcile _ _, .error _⟩ => True
  | _ => False

/-- What is asked before there is an answer. -/
def Asked.Prepares : Asked → Prop
  | ⟨.scopedView _, _⟩ | ⟨.negentropyItems _ _, _⟩ => True
  | asked => asked.Computes

/-- A step failed. It is no failure of the store if there is nothing in it. -/
def Asked.NegFails : Asked → Prop
  | ⟨.scopedView _, .error _⟩ | ⟨.storageInsert _, .error _⟩ | ⟨.storageSeal _, .error _⟩
  | ⟨.negentropyOwned _ _, .error _⟩ | ⟨.hexDecode _, .error _⟩ | ⟨.reconcile _ _, .error _⟩ => True
  | ⟨.negentropyItems _ _, .error text⟩ => RelayDatabase.isEmptyStore text = false
  | _ => False

/-- The session did not come to an answer. -/
def NegFailed (t : RelayHistory) : Prop := ∃ asked ∈ t, Asked.NegFails asked

variable {t t' : RelayHistory} {asked : Asked} {scope : Scope} {sub : SubscriptionId}
  {filter : Filter} {items : List (EventId × Timestamp)}

@[simp] theorem negFailed_append : NegFailed (t ++ t') ↔ NegFailed t ∨ NegFailed t' := by
  simp [NegFailed, or_and_right, exists_or]

@[simp] theorem negFailed_cons : NegFailed (asked :: t) ↔ asked.NegFails ∨ NegFailed t := by
  simp [NegFailed]

@[simp] theorem not_negFailed_nil : ¬ NegFailed [] := fun ⟨_, h, _⟩ => nomatch h

theorem Asked.Computes.prepares (h : asked.Computes) : asked.Prepares := by
  obtain ⟨call, r⟩ := asked
  cases call with
  | scopedView | negentropyItems => trivial
  | _ => exact h

/-- The items are reconciled in the last step, or a step fails. -/
def Reconciles (items : List (EventId × Timestamp)) (t : RelayHistory) :
    Except Error (List UInt8) → Prop
  | .ok answer => ∃ t₀ bytes, t = t₀ ++ [⟨.reconcile items bytes, .ok answer⟩] ∧
      Steps Asked.Computes Asked.NegFails False t₀
  | .error _ => Steps Asked.Computes Asked.NegFails True t

theorem reconciles_andThen {α : Type} {p : Relay (Except Error α)}
    {k : α → Relay (Except Error (List UInt8))}
    (hp : StepsOnly Asked.Computes Asked.NegFails (fun r => r.isOk = false) p)
    (hk : ∀ a, (k a).Ensures (Reconciles items)) :
    (p.andThen k).Ensures (Reconciles items) := by
  refine ensures_bind.mpr (hp.mono fun t₁ r h => ?_)
  cases r with
  | error e =>
    refine ensures_done.mpr ?_
    rw [List.append_nil]
    exact h.congr (iff_of_true rfl trivial)
  | ok a =>
    refine (hk a).mono fun t₂ result h' => ?_
    cases result with
    | ok answer =>
      obtain ⟨t₀, bytes, rfl, h₀⟩ := h'
      exact ⟨t₁ ++ t₀, bytes, (List.append_assoc ..).symm, (h.append h₀).congr (by simp)⟩
    | error e => exact (h.append h').congr (by simp)

/-- A step that may fail. -/
theorem computes_mapError {ε α : Type} {f : ε → Error} {p : Relay (Except ε α)}
    (h : StepsOnly Asked.Computes Asked.NegFails (fun r => r.isOk = false) p) :
    StepsOnly Asked.Computes Asked.NegFails (fun r => r.isOk = false) (p.mapError f) := by
  refine ensures_bind.mpr (h.mono fun t r ht => ensures_done.mpr ?_)
  rw [List.append_nil]
  cases r <;> exact ht

theorem reconciles_reconcileItems (items : List (EventId × Timestamp)) (initialMessage : String) :
    (RelayMiddleware.reconcileItems items initialMessage).Ensures (Reconciles items) := by
  have hone : ∀ {q : RelayCall} (r : q.Answer), Asked.Computes ⟨q, r⟩ → ∀ {failed : Prop},
      (Asked.NegFails ⟨q, r⟩ ↔ failed) →
        Steps Asked.Computes Asked.NegFails failed [⟨q, r⟩] := fun r hr failed hfailed =>
    Steps.nil.cons hr ((or_iff_left id).trans hfailed)
  refine reconciles_andThen ?_ fun _ => reconciles_andThen (computes_mapError ?_) fun _ =>
    reconciles_andThen (computes_mapError ?_) fun _ =>
      reconciles_andThen (computes_mapError ?_) fun bytes => ?_
  · -- the items are inserted one after the other
    induction items with
    | nil => exact stepsOnly_done (by simp)
    | cons item items ih =>
      refine stepsOnly_andThen (computes_mapError ?_) fun _ => ih
      exact ensures_ask.mpr fun r => ensures_done.mpr
        (hone r (by trivial) (by cases r <;> simp [Asked.NegFails]))
  · exact ensures_ask.mpr fun r => ensures_done.mpr
      (hone r (by trivial) (by cases r <;> simp [Asked.NegFails]))
  · exact ensures_ask.mpr fun r => ensures_done.mpr
      (hone r (by trivial) (by cases r <;> simp [Asked.NegFails]))
  · exact ensures_ask.mpr fun r => ensures_done.mpr
      (hone r (by trivial) (by cases r <;> simp [Asked.NegFails]))
  · refine ensures_request_bind.mpr fun r => ensures_done.mpr ?_
    cases r with
    | ok answer => exact ⟨[], bytes, rfl, .nil⟩
    | error e => exact hone _ (by trivial) (iff_of_true (by trivial) trivial)

/-! ### The ways through an opening -/

/-- The history up to the answer that was computed from these items. They are those of the store, or
there are none. -/
structure Reconciled (filter : Filter) (scope : Scope) (items : List (EventId × Timestamp))
    (t : RelayHistory) : Prop where
  steps : ∃ t₀ bytes answer, t = t₀ ++ [⟨.reconcile items bytes, .ok answer⟩] ∧
    Steps Asked.Prepares Asked.NegFails False t₀
  unique : ∀ items', (⟨.negentropyItems filter scope, .ok items'⟩ : Asked) ∈ t → items' = items
  origin : (⟨.negentropyItems filter scope, .ok items⟩ : Asked) ∈ t ∨ items = []

/-- What `handle_neg_open` does. -/
inductive NegOpenRun (sender : MessageSender) (scope : Scope) (sub : SubscriptionId)
    (filter : Filter) : RelayHistory → Except Error Unit → Prop where
  | failed {t : RelayHistory} (h : Steps Asked.Prepares Asked.NegFails True t) (e : Error) :
    NegOpenRun sender scope sub filter t (.error e)
  | refused {t : RelayHistory} {items : List (EventId × Timestamp)}
    (h : Reconciled filter scope items t) (bytes : List UInt8) (text : String)
    (e : Channel.TrySendError) (error : Error) :
    NegOpenRun sender scope sub filter (t ++ [⟨.hexEncode bytes, text⟩,
      ⟨.trySend sender.channel (sender.packet (.negMsg sub text)), .error e⟩]) (.error error)
  | opened {t : RelayHistory} {items : List (EventId × Timestamp)}
    (h : Reconciled filter scope items t) (bytes : List UInt8) (text : String) :
    NegOpenRun sender scope sub filter (t ++ [⟨.hexEncode bytes, text⟩,
      ⟨.trySend sender.channel (sender.packet (.negMsg sub text)), .ok ()⟩,
      ⟨.addNegentropySubscription sub items, ()⟩]) (.ok ())

/-- What the store answers to the first question. -/
theorem runs_negentropyItems {r : Except Error (List (EventId × Timestamp))}
    (hrun : Runs (RelayDatabase.negentropyItems filter scope) t r) :
    match r with
    | .error _ => Steps Asked.Prepares Asked.NegFails True t
    | .ok items => Steps Asked.Prepares Asked.NegFails False t ∧
      (∀ items', (⟨.negentropyItems filter scope, .ok items'⟩ : Asked) ∈ t → items' = items) ∧
      ((⟨.negentropyItems filter scope, .ok items⟩ : Asked) ∈ t ∨ items = []) := by
  obtain ⟨view, t₁, rfl, h₁⟩ := runs_request_bind.mp hrun
  cases view with
  | error e =>
    obtain ⟨rfl, rfl⟩ := runs_done.mp h₁
    exact Steps.nil.cons trivial (by simp [Asked.NegFails])
  | ok _ =>
    obtain ⟨answer, t₂, rfl, h₂⟩ := runs_request_bind.mp h₁
    have hview : ¬ Asked.NegFails ⟨.scopedView scope, .ok ()⟩ := id
    cases answer with
    | ok items =>
      obtain ⟨rfl, rfl⟩ := runs_done.mp h₂
      refine ⟨(Steps.nil.cons trivial (or_iff_right id)).cons trivial (or_iff_right hview), ?_, ?_⟩
      · simp
      · simp
    | error text =>
      dsimp only at h₂
      split at h₂
      · rename_i hempty
        obtain ⟨rfl, rfl⟩ := runs_done.mp h₂
        refine ⟨(Steps.nil.cons trivial (or_iff_right ?_)).cons trivial (or_iff_right hview), ?_,
          .inr rfl⟩
        · simp [Asked.NegFails, hempty]
        · simp
      · rename_i hempty
        obtain ⟨rfl, rfl⟩ := runs_done.mp h₂
        refine (Steps.nil.cons trivial (iff_of_true (.inl ?_) trivial)).cons trivial
          (or_iff_right hview)
        exact Bool.eq_false_iff.mpr hempty

/-- The ways through `handle_neg_open`. -/
theorem runs_handleNegOpen {sender : MessageSender} {initialMessage : String}
    {r : Except Error Unit}
    (hrun : Runs (RelayMiddleware.handleNegOpen sender scope sub filter initialMessage) t r) :
    NegOpenRun sender scope sub filter t r := by
  obtain ⟨t₁, r₁, t₂, rfl, h₁, h₂⟩ := runs_bind.mp hrun
  have hitems := runs_negentropyItems h₁
  cases r₁ with
  | error e =>
    obtain ⟨rfl, rfl⟩ := runs_done.mp h₂
    rw [List.append_nil]
    exact .failed hitems e
  | ok items =>
    obtain ⟨hsteps, hunique, horigin⟩ := hitems
    obtain ⟨t₃, r₃, t₄, rfl, h₃, h₄⟩ := runs_bind.mp h₂
    have hreconciles := reconciles_reconcileItems items initialMessage t₃ r₃ h₃
    cases r₃ with
    | error e =>
      obtain ⟨rfl, rfl⟩ := runs_done.mp h₄
      rw [List.append_nil]
      exact .failed ((hsteps.append (hreconciles.mono fun _ => Asked.Computes.prepares)).congr
        (false_or _).to_iff) e
    | ok answer =>
      obtain ⟨t₀, bytes, rfl, hcomputed⟩ := hreconciles
      have hreconciled : Reconciled filter scope items
          (t₁ ++ (t₀ ++ [⟨.reconcile items bytes, .ok answer⟩])) := by
        refine ⟨⟨t₁ ++ t₀, bytes, answer, (List.append_assoc ..).symm, ?_⟩, fun items' h => ?_,
          horigin.imp (List.mem_append_left _) id⟩
        · exact (hsteps.append (hcomputed.mono fun _ => Asked.Computes.prepares)).congr
            (false_or _).to_iff
        · obtain h | h := List.mem_append.mp h
          · exact hunique items' h
          · obtain h | h := List.mem_append.mp h
            · exact (hcomputed.every _ h).elim
            · simp at h
      obtain ⟨t₅, r₅, t₆, rfl, h₅, h₆⟩ := runs_bind.mp h₄
      obtain ⟨text, t₇, rfl, h₇⟩ := runs_request_bind.mp h₅
      obtain ⟨t₈, r₈, t₉, rfl, h₈, h₉⟩ := runs_bind.mp h₇
      obtain ⟨rfl, rfl⟩ := runs_done.mp h₉
      obtain ⟨sent, t₁₀, rfl, h₁₀⟩ := runs_request_bind.mp h₈
      obtain ⟨rfl, rfl⟩ := runs_done.mp h₁₀
      cases sent with
      | error e =>
        obtain ⟨rfl, rfl⟩ := runs_done.mp h₆
        simpa using NegOpenRun.refused hreconciled answer text e _
      | ok _ =>
        obtain ⟨⟨⟩, t₁₁, rfl, h₁₁⟩ := runs_request_bind.mp h₆
        obtain ⟨rfl, rfl⟩ := runs_done.mp h₁₁
        simpa using NegOpenRun.opened hreconciled answer text

/-! ### The message on its way through the chain -/

/-- The message is a NEG-OPEN. -/
def ClientMessage.IsNegOpen (message : ClientMessage) : Prop :=
  ∃ sub filter initialMessage, message = .negOpen sub filter initialMessage

/-- An error of an opening is answered with NEG-ERR. -/
def answerNegOpen (sender : MessageSender) (sub : SubscriptionId) :
    Except Error Unit → Relay Unit
  | .ok () => .done ()
  | .error e => (sender.send (.negErr sub ("Error: " ++ e.display))).bind fun _ => .done ()

theorem processInboundChain_negOpen {kinds : KindRanges} (ref : ChannelRef) (scope : Scope)
    {outer inside : List InboundMiddleware}
    (ho : ∀ m ∈ outer, HandsOnOrAnswers ClientMessage.IsNegOpen m)
    (hi : ∀ m ∈ inside, HandsOnOrAnswers ClientMessage.IsNegOpen m) (sub : SubscriptionId)
    (filter : Filter) (initialMessage : String) :
    processInboundChain ref scope (outer ++ RelayMiddleware.processInbound kinds :: inside)
        (some (.negOpen sub filter initialMessage)) =
      ((RelayMiddleware.handleNegOpen ⟨ref, inside.length⟩ scope sub filter initialMessage).bind
        (answerNegOpen ⟨ref, inside.length⟩ sub)).bind fun _ => .done (.ok ()) := by
  refine processInboundChain_succeeds ref scope ho ⟨sub, filter, initialMessage, rfl⟩ ?_
  rw [processInboundChain, RelayMiddleware.processInbound]
  simp only [RelayMiddleware.orNegErr, processInboundChain_none ref scope hi, Script.bind_eq,
    Script.bind_assoc]
  congr 1
  funext result
  cases result <;> rfl

/-! ### What is disclosed -/

/-- What an event processor says to the filters and the events of a connection, with the custom
state and the context that it has. -/
structure ProcessorView where
  verifyFilters : List Filter → Except Error Unit
  canSeeEvent : Event → Except Error Bool

/-- The events of a scope in the store, which knows them by their ids, and those that it selects for
a filter. -/
structure StoredEvents where
  events : List Event
  keyed : ∀ e ∈ events, ∀ e' ∈ events, e.id = e'.id → e = e'
  select : Filter → List Event
  selected : ∀ filter, ∀ e ∈ select filter, e ∈ events

/-- The items for a filter. -/
def StoredEvents.selectedItems (store : StoredEvents) (filter : Filter) : List (EventId × Timestamp) :=
  (store.select filter).map fun e => (e.id, e.createdAt)

theorem StoredEvents.mem_select {store : StoredEvents} {e : Event} {time : Timestamp}
    (he : e ∈ store.events) (h : (e.id, time) ∈ store.selectedItems filter) : e ∈ store.select filter := by
  obtain ⟨e', he', heq⟩ := List.mem_map.mp h
  injection heq with hid
  rwa [store.keyed e he e' (store.selected filter e' he') hid.symm]

/-- The session was not opened, and the client was told so, if its channel took it. -/
def NegRejected (sub : SubscriptionId) (t : RelayHistory) : Prop :=
  (∃ ref packet r, (⟨.trySend ref packet, r⟩ : Asked) ∈ t ∧
    ∃ text, packet.message = .negErr sub text) ∧
  ∀ items, (⟨.addNegentropySubscription sub items, ()⟩ : Asked) ∉ t

/-- The stored events that are reconciled are visible to the connection, and a filter that the
processor rejects is rejected. -/
structure DisclosesNoMore (view : ProcessorView) (store : StoredEvents) (sub : SubscriptionId)
    (filter : Filter) (t : RelayHistory) : Prop where
  visible : ∀ items bytes answer, (⟨.reconcile items bytes, .ok answer⟩ : Asked) ∈ t →
    ∀ e ∈ store.events, ∀ time, (e.id, time) ∈ items → view.canSeeEvent e = .ok true
  rejected : ∀ error, view.verifyFilters [filter] = .error error → NegRejected sub t

/-- Unless a step fails, the processor shows every event that the store selects, and accepts the
filter, or the channel does not take the answer. -/
structure NothingToHide (view : ProcessorView) (store : StoredEvents) (scope : Scope)
    (sub : SubscriptionId) (filter : Filter) (t : RelayHistory) : Prop where
  visible : ¬ NegFailed t → ∀ items, (⟨.negentropyItems filter scope, .ok items⟩ : Asked) ∈ t →
    ∀ e ∈ store.select filter, view.canSeeEvent e = .ok true
  accepted : ∀ error, view.verifyFilters [filter] = .error error →
    NegFailed t ∨ ∃ text, .negMsg sub text ∈ refused t

section Disclosed

variable {view : ProcessorView} {store : StoredEvents}

theorem Reconciled.not_negFailed (h : Reconciled filter scope items t) : ¬ NegFailed t := by
  obtain ⟨t₀, bytes, answer, rfl, h₀⟩ := h.steps
  rw [negFailed_append, negFailed_cons]
  exact fun hfailed => hfailed.elim h₀.failed.mp fun h => h.elim id not_negFailed_nil

/-- Nothing else is reconciled. -/
theorem Reconciled.reconcile_unique (h : Reconciled filter scope items t)
    {items' : List (EventId × Timestamp)} {bytes answer : List UInt8}
    (hasked : (⟨.reconcile items' bytes, .ok answer⟩ : Asked) ∈ t) : items' = items := by
  obtain ⟨t₀, bytes₀, answer₀, rfl, h₀⟩ := h.steps
  obtain hasked | hasked := List.mem_append.mp hasked
  · exact (h₀.every _ hasked).elim
  · have heq := List.mem_singleton.mp hasked
    simp only [Sigma.mk.injEq, RelayCall.reconcile.injEq] at heq
    exact heq.1.1

theorem Reconciled.reconcile_mem (h : Reconciled filter scope items t) :
    ∃ bytes answer, (⟨.reconcile items bytes, .ok answer⟩ : Asked) ∈ t := by
  obtain ⟨t₀, bytes₀, answer₀, rfl, -⟩ := h.steps
  exact ⟨bytes₀, answer₀, by simp⟩

theorem Reconciled.add_not_mem (h : Reconciled filter scope items t)
    (items' : List (EventId × Timestamp)) :
    (⟨.addNegentropySubscription sub items', ()⟩ : Asked) ∉ t := by
  obtain ⟨t₀, bytes₀, answer₀, rfl, h₀⟩ := h.steps
  intro hasked
  obtain hasked | hasked := List.mem_append.mp hasked
  · exact h₀.every _ hasked
  · simp at hasked

/-- What follows the answer that was computed. -/
def Asked.Tells : Asked → Prop
  | ⟨.hexEncode _, _⟩ | ⟨.trySend _ _, _⟩ | ⟨.addNegentropySubscription _ _, _⟩ => True
  | _ => False

theorem not_negFailed_of_tells (h : ∀ asked ∈ t, Asked.Tells asked) : ¬ NegFailed t := by
  rintro ⟨⟨call, r⟩, hasked, hfails⟩
  have := h _ hasked
  cases call <;> first | exact this | exact hfails

/-- The events that are reconciled are those that the store selects, if it has answered. -/
theorem Reconciled.visible_iff (h : Reconciled filter scope items t) (view : ProcessorView)
    (htells : ∀ asked ∈ t', Asked.Tells asked)
    (hstore : ∀ items, (⟨.negentropyItems filter scope, .ok items⟩ : Asked) ∈ t ++ t' →
      items = store.selectedItems filter) :
    (∀ items bytes answer, (⟨.reconcile items bytes, .ok answer⟩ : Asked) ∈ t ++ t' →
        ∀ e ∈ store.events, ∀ time, (e.id, time) ∈ items → view.canSeeEvent e = .ok true) ↔
      (¬ NegFailed (t ++ t') → ∀ items,
        (⟨.negentropyItems filter scope, .ok items⟩ : Asked) ∈ t ++ t' →
          ∀ e ∈ store.select filter, view.canSeeEvent e = .ok true) := by
  have hfailed : ¬ NegFailed (t ++ t') := by
    rw [negFailed_append]
    exact fun h' => h'.elim h.not_negFailed (not_negFailed_of_tells htells)
  refine ⟨fun hvisible _ items' hitems e he => ?_,
    fun hvisible items' bytes answer hasked e he time hmem => ?_⟩
  · obtain ⟨bytes, answer, hasked⟩ := h.reconcile_mem
    refine hvisible items bytes answer (List.mem_append_left _ hasked) e
      (store.selected filter e he) e.createdAt ?_
    have hitems' := (List.mem_append.mp hitems).resolve_right fun h' => htells _ h'
    rw [← h.unique items' hitems', hstore items' hitems]
    exact List.mem_map_of_mem he
  · have hasked' := (List.mem_append.mp hasked).resolve_right fun h' => htells _ h'
    rw [h.reconcile_unique hasked'] at hmem
    obtain hitems | rfl := h.origin
    · have hitems' := List.mem_append_left t' hitems
      rw [hstore items hitems'] at hmem
      exact hvisible hfailed items hitems' e (StoredEvents.mem_select he hmem)
    · cases hmem

/-- The messages that answer an opening. -/
theorem runs_answerNegOpen {sender : MessageSender} {r : Except Error Unit}
    (hrun : Runs (answerNegOpen sender sub r) t ()) :
    (r = .ok () ∧ t = []) ∨ ∃ e answer, r = .error e ∧ t = [⟨.trySend sender.channel
      (sender.packet (.negErr sub ("Error: " ++ e.display))), answer⟩] := by
  cases r with
  | ok _ => exact .inl ⟨rfl, (runs_done.mp hrun).1⟩
  | error e =>
    obtain ⟨t₁, r₁, t₂, rfl, h₁, h₂⟩ := runs_bind.mp hrun
    obtain ⟨rfl, -⟩ := runs_done.mp h₂
    obtain ⟨answer, t₃, rfl, h₃⟩ := runs_request_bind.mp h₁
    obtain ⟨rfl, -⟩ := runs_done.mp h₃
    exact .inr ⟨e, answer, rfl, rfl⟩

/-- An opening and its answer. -/
theorem NegOpenRun.discloses_iff {sender : MessageSender} {r : Except Error Unit}
    (h : NegOpenRun sender scope sub filter t r) (hanswer : Runs (answerNegOpen sender sub r) t' ())
    (hstore : ∀ items, (⟨.negentropyItems filter scope, .ok items⟩ : Asked) ∈ t ++ t' →
      items = store.selectedItems filter) :
    DisclosesNoMore view store sub filter (t ++ t') ↔
      NothingToHide view store scope sub filter (t ++ t') := by
  cases h with
  | failed h e =>
    obtain ⟨h', -⟩ | ⟨e, answer, -, rfl⟩ := runs_answerNegOpen hanswer
    · cases h'
    have hfailed : NegFailed (t ++ [⟨.trySend sender.channel
        (sender.packet (.negErr sub ("Error: " ++ e.display))), answer⟩]) :=
      negFailed_append.mpr (.inl (h.failed.mpr trivial))
    refine iff_of_true
      ⟨fun items bytes result hasked => ?_, fun _ _ => ⟨?_, fun items hasked => ?_⟩⟩
      ⟨fun hno => absurd hfailed hno, fun _ _ => .inl hfailed⟩
    · obtain hasked | hasked := List.mem_append.mp hasked
      · exact (h.every _ hasked).elim
      · simp at hasked
    · exact ⟨_, _, answer, by simp, _, rfl⟩
    · obtain hasked | hasked := List.mem_append.mp hasked
      · exact h.every _ hasked
      · simp at hasked
  | refused h bytes text e error =>
    obtain ⟨h', -⟩ | ⟨e', answer, -, rfl⟩ := runs_answerNegOpen hanswer
    · cases h'
    rw [List.append_assoc] at hstore ⊢
    have hvisible := h.visible_iff view (by simp [Asked.Tells]) hstore
    refine ⟨fun h' => ⟨hvisible.mp h'.visible, fun _ _ => .inr ⟨text, ?_⟩⟩,
      fun h' => ⟨hvisible.mpr h'.visible, fun _ _ => ⟨?_, fun items hasked => ?_⟩⟩⟩
    · simp [Asked.refused?, MessageSender.packet]
    · exact ⟨sender.channel, sender.packet (.negErr sub ("Error: " ++ e'.display)), answer,
        by simp, _, rfl⟩
    · exact h.add_not_mem items (by simpa using hasked)
  | @opened t items h bytes text =>
    obtain ⟨-, rfl⟩ | ⟨e', answer, h', -⟩ := runs_answerNegOpen hanswer
    swap
    · cases h'
    rw [List.append_assoc] at hstore ⊢
    have htells : ∀ asked ∈ [(⟨.hexEncode bytes, text⟩ : Asked), ⟨.trySend sender.channel
        (sender.packet (.negMsg sub text)), .ok ()⟩, ⟨.addNegentropySubscription sub items, ()⟩] ++ [],
        Asked.Tells asked := by simp [Asked.Tells]
    have hvisible := h.visible_iff view htells hstore
    refine ⟨fun h' => ⟨hvisible.mp h'.visible, fun error herror => ?_⟩,
      fun h' => ⟨hvisible.mpr h'.visible, fun error herror => ?_⟩⟩
    · exact ((h'.rejected error herror).2 items (by simp)).elim
    · exfalso
      obtain hfailed | ⟨text', htext⟩ := h'.accepted error herror
      · rw [negFailed_append] at hfailed
        exact hfailed.elim h.not_negFailed (not_negFailed_of_tells htells)
      · obtain ⟨ch, packet, e, hasked, -⟩ := mem_refused.mp htext
        obtain ⟨t₀, bytes₀, answer₀, rfl, h₀⟩ := h.steps
        simp at hasked
        exact h₀.every _ hasked

end Disclosed

/-- **When a negentropy session discloses no more than a REQ.** A NEG-OPEN in a chain whose other
middlewares hand it on: the stored events that are reconciled are visible to the connection, and a
filter that the processor rejects is rejected, exactly if the processor has nothing against the
events that the store selects and against the filter, or a step fails. -/
theorem disclosesNoMore_iff (kinds : KindRanges) (ref : ChannelRef) (scope : Scope)
    (outer inside : List InboundMiddleware)
    (ho : ∀ m ∈ outer, HandsOnOrAnswers ClientMessage.IsNegOpen m)
    (hi : ∀ m ∈ inside, HandsOnOrAnswers ClientMessage.IsNegOpen m) (view : ProcessorView)
    (store : StoredEvents) {sub : SubscriptionId} {filter : Filter} {initialMessage : String}
    {t : RelayHistory} {r : Except Failure Unit}
    (hrun : Runs (processInboundChain ref scope
      (outer ++ RelayMiddleware.processInbound kinds :: inside)
      (some (.negOpen sub filter initialMessage))) t r)
    (hstore : ∀ items, (⟨.negentropyItems filter scope, .ok items⟩ : Asked) ∈ t →
      items = store.selectedItems filter) :
    DisclosesNoMore view store sub filter t ↔ NothingToHide view store scope sub filter t := by
  rw [processInboundChain_negOpen ref scope ho hi] at hrun
  obtain ⟨t₁, ⟨⟩, t₂, rfl, h₁, h₂⟩ := runs_bind.mp hrun
  obtain ⟨rfl, -⟩ := runs_done.mp h₂
  obtain ⟨t₃, r₃, t₄, rfl, h₃, h₄⟩ := runs_bind.mp h₁
  rw [List.append_nil] at hstore ⊢
  exact (runs_handleNegOpen h₃).discloses_iff h₄ hstore

/-! ### Examples -/

/-- A store with one note. -/
def oneNote : StoredEvents where
  events := [Event.note 5]
  keyed e he e' he' _ := by rw [List.mem_singleton.mp he, List.mem_singleton.mp he']
  select _ := [Event.note 5]
  selected _ _ h := h

/-- A session over the note, for which everything succeeds. -/
def oneNoteSession : RelayHistory :=
  [⟨.scopedView .default, .ok ()⟩, ⟨.negentropyItems Filter.new .default, .ok [(5, 0)]⟩,
    ⟨.storageInsert (5, 0), .ok ()⟩, ⟨.storageSeal [(5, 0)], .ok ()⟩,
    ⟨.negentropyOwned [(5, 0)] 60000, .ok ()⟩, ⟨.hexDecode "61", .ok [97]⟩,
    ⟨.reconcile [(5, 0)] [97], .ok [97, 1]⟩, ⟨.hexEncode [97, 1], "6101"⟩,
    ⟨.trySend 0 ⟨.negMsg "sync" "6101", 0, none⟩, .ok ()⟩,
    ⟨.addNegentropySubscription "sync" [(5, 0)], ()⟩]

/-- The chain of a session. -/
abbrev exampleSession : Relay (Except Failure Unit) :=
  processInboundChain 0 .default ([ErrorHandlingMiddleware.processInbound] ++
    RelayMiddleware.processInbound .nip01 :: []) (some (.negOpen "sync" Filter.new "61"))

theorem runs_exampleSession : Runs exampleSession oneNoteSession (.ok ()) :=
  .ask _ <| .ask _ <| .ask _ <| .ask _ <| .ask _ <| .ask _ <| .ask _ <| .ask _ <| .ask _ <|
    .ask _ <| .done _

theorem oneNoteSession_items (items : List (EventId × Timestamp))
    (h : (⟨.negentropyItems Filter.new .default, .ok items⟩ : Asked) ∈ oneNoteSession) :
    items = oneNote.selectedItems Filter.new := by
  have hitems : items = [(5, 0)] := by simpa [oneNoteSession] using h
  exact hitems

/-- A public relay. -/
def showNotes : ProcessorView := ⟨fun _ => .ok (), fun _ => .ok true⟩

theorem public_session_disclosesNoMore :
    DisclosesNoMore showNotes oneNote "sync" Filter.new oneNoteSession := by
  have herror : ∀ m ∈ [ErrorHandlingMiddleware.processInbound],
      HandsOnOrAnswers ClientMessage.IsNegOpen m := fun m hm => .inr (List.mem_singleton.mp hm)
  refine (disclosesNoMore_iff .nip01 0 .default _ [] herror (List.forall_mem_nil _) showNotes oneNote
    runs_exampleSession oneNoteSession_items).mpr
    ⟨fun _ _ _ _ _ => rfl, fun error herror => nomatch herror⟩

/-- A processor that accepts no filter without a kind and hides the note. -/
def hideNotes : ProcessorView := ⟨fun _ => .error (.restricted "kinds only"), fun _ => .ok false⟩

/-- The note is reconciled although it is hidden. -/
theorem hidden_note_reconciled :
    ¬ ∀ (view : ProcessorView) (store : StoredEvents) (t : RelayHistory) (r : Except Failure Unit),
      Runs exampleSession t r →
      (∀ items, (⟨.negentropyItems Filter.new .default, .ok items⟩ : Asked) ∈ t →
        items = store.selectedItems Filter.new) →
      DisclosesNoMore view store "sync" Filter.new t := by
  intro hall
  have h := hall hideNotes oneNote oneNoteSession (.ok ()) runs_exampleSession oneNoteSession_items
  have hseen := h.visible [(5, 0)] [97] [97, 1] (by simp [oneNoteSession]) (Event.note 5)
    (List.mem_singleton_self _) 0 (List.mem_singleton_self _)
  cases hseen

end RelayBuilder
