import RelayBuilder.SubscriptionCoordinator

/-!
# What is saved is broadcast

Two kinds of effects in the histories of the coordinator and of the buffer: the events that were
saved, which are those that the store answered for without an error, and the events that the
registry was told to distribute. A command is executed properly when they are the same events in
the same scopes, one for one.

## Main results

* `broadcasts_iff`: this is so for every command but a `SaveUnsignedEvent` of a kind that is
  neither replaceable nor addressable
-/

namespace RelayBuilder

open Interleave Script

/-- An event that was saved, with its scope. -/
def Asked.saved? : Asked → Option (Event × Scope)
  | ⟨.saveEvent event scope, .ok _⟩ => some (event, scope)
  | _ => none

/-- An event that the registry was told to distribute, with its scope. -/
def Asked.distributed? : Asked → Option (Event × Scope)
  | ⟨.distributeEvent event scope, _⟩ => some (event, scope)
  | _ => none

def savedEvents (t : RelayHistory) : List (Event × Scope) := t.filterMap Asked.saved?

def distributedEvents (t : RelayHistory) : List (Event × Scope) := t.filterMap Asked.distributed?

@[simp] theorem savedEvents_nil : savedEvents [] = [] := rfl

@[simp] theorem distributedEvents_nil : distributedEvents [] = [] := rfl

@[simp] theorem savedEvents_append (t t' : RelayHistory) :
    savedEvents (t ++ t') = savedEvents t ++ savedEvents t' :=
  List.filterMap_append

@[simp] theorem distributedEvents_append (t t' : RelayHistory) :
    distributedEvents (t ++ t') = distributedEvents t ++ distributedEvents t' :=
  List.filterMap_append

/-- Nothing was saved or distributed. -/
structure Quiet (t : RelayHistory) : Prop where
  saved : savedEvents t = []
  distributed : distributedEvents t = []

/-- What was distributed is what was saved. -/
def Paired (t : RelayHistory) : Prop := distributedEvents t = savedEvents t

theorem Quiet.nil : Quiet [] := ⟨rfl, rfl⟩

theorem Quiet.append {t t' : RelayHistory} (h : Quiet t) (h' : Quiet t') : Quiet (t ++ t') :=
  ⟨by rw [savedEvents_append, h.saved, h'.saved, List.nil_append],
    by rw [distributedEvents_append, h.distributed, h'.distributed, List.nil_append]⟩

theorem Quiet.paired {t : RelayHistory} (h : Quiet t) : Paired t :=
  h.distributed.trans h.saved.symm

theorem Paired.append {t t' : RelayHistory} (h : Paired t) (h' : Paired t') : Paired (t ++ t') := by
  rw [Paired, savedEvents_append, distributedEvents_append, h, h']

/-! ### The functions -/

/-- A question that is neither a save nor a distribution. -/
theorem quiet_request {call : RelayCall} (hs : ∀ r, Asked.saved? ⟨call, r⟩ = none)
    (hd : ∀ r, Asked.distributed? ⟨call, r⟩ = none) :
    (request call : Relay _).Ensures fun t _ => Quiet t := by
  refine ensures_ask.mpr fun r => ensures_done.mpr ⟨?_, ?_⟩
  · simp [savedEvents, hs]
  · simp [distributedEvents, hd]

theorem quiet_mapError {ε ε' α : Type} {f : ε → ε'} {p : Relay (Except ε α)}
    (h : p.Ensures fun t _ => Quiet t) : (p.mapError f).Ensures fun t _ => Quiet t :=
  ensures_bind.mpr (h.mono fun t _ ht => ensures_done.mpr (by rwa [List.append_nil]))

theorem quiet_respond (handler : Option OneshotRef) (result : Except Error Unit) :
    (SubscriptionCoordinator.respond handler result).Ensures fun t _ => Quiet t := by
  cases handler with
  | none => exact ensures_done.mpr .nil
  | some tx => exact quiet_request (fun _ => rfl) fun _ => rfl

theorem quiet_delete (filter : Filter) (scope : Scope) :
    (RelayDatabase.delete filter scope).Ensures fun t _ => Quiet t := by
  refine ensures_ask.mpr fun r => ?_
  cases r with
  | error e => exact ensures_done.mpr ⟨rfl, rfl⟩
  | ok _ => exact ensures_ask.mpr fun r => ensures_done.mpr ⟨rfl, rfl⟩

/-- `save_event` saves its event exactly when it succeeds. -/
theorem saveEvent_saves (event : Event) (scope : Scope) :
    (RelayDatabase.saveEvent event scope).Ensures fun t r =>
      distributedEvents t = [] ∧
        savedEvents t = if r = .ok () then [(event, scope)] else [] := by
  refine ensures_ask.mpr fun r => ?_
  cases r with
  | error e => exact ensures_done.mpr ⟨rfl, rfl⟩
  | ok _ =>
    refine ensures_ask.mpr fun r => ?_
    cases r with
    | error e => exact ensures_done.mpr ⟨rfl, rfl⟩
    | ok status => exact ensures_done.mpr ⟨rfl, rfl⟩

theorem quiet_respondSaved (event : Event) (saveResult : Except Error Unit)
    (handler : Option ResponseHandler) :
    (SubscriptionCoordinator.respondSaved event saveResult handler).Ensures
      fun t _ => Quiet t := by
  cases handler with
  | none => exact ensures_done.mpr .nil
  | some handler =>
    cases handler with
    | oneshot tx => exact quiet_request (fun _ => rfl) fun _ => rfl
    | messageSender sender =>
      exact ensures_bind.mpr ((quiet_mapError (quiet_request (fun _ => rfl) fun _ => rfl)).mono
        fun t _ ht => ensures_done.mpr (by rwa [List.append_nil]))

/-- The signed path: an event that is saved is distributed, after its answer. -/
theorem saveSignedEvent_paired (kinds : KindRanges) (event : Event) (scope : Scope)
    (handler : Option ResponseHandler) :
    (SubscriptionCoordinator.saveAndBroadcast kinds
      (.saveSignedEvent event scope handler)).Ensures fun t _ => Paired t := by
  refine ensures_bind.mpr (ensures_bind.mpr ((saveEvent_saves event scope).mono ?_))
  rintro t₁ saved ⟨hd₁, hs₁⟩
  refine ensures_done.mpr (ensures_bind.mpr ((quiet_respondSaved _ _ _).mono fun t₂ _ ht₂ => ?_))
  cases saved with
  | error e =>
    refine ensures_done.mpr ?_
    simp [Paired, hd₁, hs₁, ht₂.saved, ht₂.distributed]
  | ok _ =>
    refine ensures_ask.mpr fun _ => ensures_done.mpr ?_
    simp [Paired, hd₁, hs₁, ht₂.saved, ht₂.distributed]
    rfl

theorem quiet_signStoreCommand (event : UnsignedEvent) (scope : Scope) :
    (CryptoHelper.signStoreCommand event scope).Ensures fun t _ => Quiet t :=
  quiet_mapError (quiet_request (fun _ => rfl) fun _ => rfl)

/-- The buffered path: what a flush saves, it distributes. -/
theorem flushEvent_paired (event : UnsignedEvent) (scope : Scope) :
    (ReplaceableEventsBuffer.flushEvent event scope).Ensures fun t _ => Paired t := by
  refine ensures_bind.mpr ((quiet_signStoreCommand event scope).mono fun t₁ r₁ ht₁ => ?_)
  cases r₁ with
  | error e => exact ensures_done.mpr (ht₁.append .nil).paired
  | ok _ =>
    refine ensures_request_bind.mpr fun answer => ?_
    have hasked : ∀ t, Paired t → Paired (t₁ ++ ⟨.awaitSigned event scope, answer⟩ :: t) :=
      fun t ht => ht₁.paired.append ht
    match answer with
    | none | some (.error _) | some (.ok none) | some (.ok (some (.saveUnsignedEvent ..)))
    | some (.ok (some (.deleteEvents ..))) => exact ensures_done.mpr (hasked [] rfl)
    | some (.ok (some (.saveSignedEvent event' scope' _))) =>
      refine ensures_bind.mpr ((saveEvent_saves event' scope').mono fun t₂ saved ⟨hd, hs⟩ => ?_)
      cases saved with
      | error e => exact ensures_done.mpr (hasked _ (by simp [Paired, hd, hs]))
      | ok _ =>
        refine ensures_ask.mpr fun _ => ensures_done.mpr (hasked _ ?_)
        simp [Paired, hd, hs]
        rfl

theorem flush_paired (order : HashOrder) (buffer : ReplaceableEventsBuffer) :
    (buffer.flush order).Ensures fun t _ => Paired t := by
  refine ensures_bind.mpr (Ensures.mono (P := fun t _ => Paired ([] ++ t)) ?_ fun t _ ht => ?_)
  · exact Ensures.forM (fun entry _ t ht => (flushEvent_paired _ _).mono fun t' _ ht' =>
      ht.append ht') Quiet.nil.paired
  · exact ensures_done.mpr (by simpa using ht)

/-! ### Every command -/

/-- A command for an event that the relay signs itself, of a kind that does not pass through the
buffer. -/
def StoreCommand.SignedDirectly (kinds : KindRanges) : StoreCommand → Prop
  | .saveUnsignedEvent event _ _ =>
    kinds.isReplaceable event.kind = false ∧ kinds.isAddressable event.kind = false
  | _ => False

theorem runs_direct (kinds : KindRanges) {event : UnsignedEvent} {scope : Scope}
    {handler : Option OneshotRef}
    (h : StoreCommand.SignedDirectly kinds (.saveUnsignedEvent event scope handler)) :
    ∃ t r, Runs (SubscriptionCoordinator.saveAndBroadcast kinds
        (.saveUnsignedEvent event scope handler)) t r ∧
      savedEvents t = [(Event.note 7, scope)] ∧ distributedEvents t = [] := by
  rw [SubscriptionCoordinator.saveAndBroadcast, h.1, h.2]
  cases handler with
  | none => exact ⟨_, _, runs_under RelayCall.succeed _, rfl, rfl⟩
  | some tx => exact ⟨_, _, runs_under RelayCall.succeed _, rfl, rfl⟩

/-- **When everything persisted is broadcast.** For every command, and for every flush of the
buffer, what is saved is distributed, each event once and in the scope it was saved in, and
nothing else is, exactly if the command is not one that the relay signs and saves directly. -/
theorem broadcasts_iff (kinds : KindRanges) (command : StoreCommand) :
    ((∀ t r, Runs (SubscriptionCoordinator.saveAndBroadcast kinds command) t r →
        distributedEvents t = savedEvents t) ∧
      ∀ order (buffer : ReplaceableEventsBuffer) t b, Runs (buffer.flush order) t b →
        distributedEvents t = savedEvents t) ↔ ¬ command.SignedDirectly kinds := by
  refine ⟨fun ⟨h, _⟩ hdirect => ?_, fun h => ⟨?_, fun order buffer => flush_paired order buffer⟩⟩
  · match command, hdirect with
    | .saveUnsignedEvent event scope handler, hdirect =>
      obtain ⟨t, r, hrun, hs, hd⟩ := runs_direct kinds hdirect
      have := h t r hrun
      rw [hs, hd] at this
      cases this
  · match command with
    | .saveSignedEvent event scope handler => exact saveSignedEvent_paired kinds event scope handler
    | .deleteEvents filter scope handler =>
      refine ensures_bind.mpr ((quiet_mapError (quiet_delete filter scope)).mono fun t₁ r ht₁ => ?_)
      refine ensures_bind.mpr ((quiet_respond handler _).mono fun t₂ _ ht₂ => ?_)
      exact ensures_done.mpr (ht₁.append (ht₂.append .nil)).paired
    | .saveUnsignedEvent event scope handler =>
      have hbuffered :
          (kinds.isReplaceable event.kind || kinds.isAddressable event.kind) = true := by
        by_contra hkind
        rw [Bool.not_eq_true, Bool.or_eq_false_iff] at hkind
        exact h hkind
      rw [SubscriptionCoordinator.saveAndBroadcast, hbuffered, if_pos rfl]
      refine ensures_bind.mpr ((quiet_mapError (quiet_request (fun _ => rfl) fun _ => rfl)).mono
        fun t₁ r ht₁ => ?_)
      cases r with
      | error e => exact ensures_done.mpr (ht₁.append .nil).paired
      | ok _ =>
        refine ensures_bind.mpr ((quiet_respond handler _).mono fun t₂ _ ht₂ => ?_)
        exact ensures_done.mpr (ht₁.append (ht₂.append .nil)).paired

/-- The note of a relay that is saved, and reaches nobody. -/
theorem note_not_broadcast :
    ¬ ∀ t r, Runs (SubscriptionCoordinator.saveAndBroadcast .nip01
        (.saveUnsignedEvent ⟨1, 0, 1, [], "hello"⟩ .default none)) t r →
      distributedEvents t = savedEvents t := by
  intro h
  have hdirect : StoreCommand.SignedDirectly .nip01
      (.saveUnsignedEvent ⟨1, 0, 1, [], "hello"⟩ .default none) := ⟨by decide, by decide⟩
  obtain ⟨t, r, hrun, hs, hd⟩ := runs_direct .nip01 hdirect
  have := h t r hrun
  rw [hs, hd] at this
  cases this

end RelayBuilder
