import RelayBuilder.Broadcasting
import RelayBuilder.Interleave.InTurn

/-!
# What an acknowledgement says about the store

`save_event` of the store does not fail when it refuses an event: it returns `Ok` with the reason.
`RelayDatabase::save_event` drops the status, so `save_and_broadcast` cannot tell a refused event
from one that is stored.

## Main definitions

* `SaveEventStatus.IsRefusal`: the event is not in the store, and was not merely seen before
* `TellsTruth`: the OK message and the broadcast agree with the store

## Main results

* `tellsTruth_iff`: this is so exactly if the store does not refuse the event
-/

namespace RelayBuilder

open Interleave Script

/-- The store has refused the event: it was deleted, has expired, is superseded by a newer one, or
is an invalid deletion. -/
def SaveEventStatus.IsRefusal : SaveEventStatus → Prop
  | .rejected .deleted | .rejected .expired | .rejected .replaced
  | .rejected .invalidDelete => True
  | .success | .rejected .ephemeral | .rejected .duplicate => False

/-- An OK message for the event is sent. -/
def Acknowledged (sender : MessageSender) (event : Event) (status : Bool) (t : RelayHistory) :
    Prop :=
  ∃ text r, (⟨.trySend sender.channel (sender.packetBypass (.ok event.id status text)), r⟩ :
    Asked) ∈ t

/-- This is what the store has made of the event. -/
def StoreReturned (event : Event) (scope : Scope) (t : RelayHistory) (status : SaveEventStatus) :
    Prop :=
  (⟨.saveEvent event scope, .ok status⟩ : Asked) ∈ t

/-- A refused event is answered with OK false and not distributed. Only an event that was not
refused is answered with OK true, or distributed. -/
structure TellsTruth (sender : MessageSender) (event : Event) (scope : Scope) (t : RelayHistory) :
    Prop where
  refused : ∀ status, StoreReturned event scope t status → status.IsRefusal →
    Acknowledged sender event false t ∧ distributedEvents t = []
  accepted : Acknowledged sender event true t ∨ distributedEvents t ≠ [] →
    ∃ status, StoreReturned event scope t status ∧ ¬ status.IsRefusal

variable {kinds : KindRanges} {event : Event} {scope : Scope} {sender : MessageSender}
  {t : RelayHistory}

/-- `RelayDatabase::save_event` succeeds when the store returns a status, whatever it is. -/
theorem runs_saveEvent {r : Except String Unit}
    (h : Runs (RelayDatabase.saveEvent event scope) t r) :
    (∃ e text, r = .error e ∧ (t = [⟨.scopedView scope, .error text⟩] ∨
        t = [⟨.scopedView scope, .ok ()⟩, ⟨.saveEvent event scope, .error text⟩])) ∨
      ∃ status, r = .ok () ∧
        t = [⟨.scopedView scope, .ok ()⟩, ⟨.saveEvent event scope, .ok status⟩] := by
  obtain ⟨view, t₁, rfl, h₁⟩ := runs_request_bind.mp h
  match view with
  | .error text =>
    obtain ⟨rfl, rfl⟩ := runs_done.mp h₁
    exact .inl ⟨_, text, rfl, .inl rfl⟩
  | .ok () =>
    obtain ⟨saved, t₂, rfl, h₂⟩ := runs_request_bind.mp h₁
    match saved with
    | .error text =>
      obtain ⟨rfl, rfl⟩ := runs_done.mp h₂
      exact .inl ⟨_, text, rfl, .inr rfl⟩
    | .ok status =>
      obtain ⟨rfl, rfl⟩ := runs_done.mp h₂
      exact .inr ⟨status, rfl, rfl⟩

/-- Whoever waits for the answer is sent one OK message. -/
theorem runs_respondSaved {saveResult : Except Error Unit} {u : Unit}
    (h : Runs (SubscriptionCoordinator.respondSaved event saveResult
      (some (.messageSender sender))) t u) :
    ∃ sent, t = [⟨.trySend sender.channel
      (sender.packetBypass (SubscriptionCoordinator.okMessage event saveResult)), sent⟩] := by
  obtain ⟨t₁, _, t₂, rfl, hsend, hend⟩ := runs_bind.mp h
  obtain ⟨rfl, -⟩ := runs_done.mp hend
  obtain ⟨sent, t₃, rfl, hdone⟩ := runs_request_bind.mp hsend
  obtain ⟨rfl, -⟩ := runs_done.mp hdone
  exact ⟨sent, rfl⟩

/-- Without an answer of the store nothing is promised and nothing is distributed. With one the
event is acknowledged and distributed, whatever the answer is. -/
theorem runs_saveSignedEvent {r : Except Error Unit}
    (h : Runs (SubscriptionCoordinator.saveAndBroadcast kinds
      (.saveSignedEvent event scope (some (.messageSender sender)))) t r) :
    ((∀ status, ¬ StoreReturned event scope t status) ∧ ¬ Acknowledged sender event true t ∧
        distributedEvents t = []) ∨
      ∃ status sent, t = [⟨.scopedView scope, .ok ()⟩, ⟨.saveEvent event scope, .ok status⟩,
        ⟨.trySend sender.channel (sender.packetBypass (.ok event.id true "")), sent⟩,
        ⟨.distributeEvent event scope, ()⟩] := by
  obtain ⟨t₁, saveResult, t₂, rfl, hsave, h₁⟩ := runs_bind.mp h
  obtain ⟨t₃, _, t₄, rfl, hrespond, h₂⟩ := runs_bind.mp h₁
  obtain ⟨t₅, _, t₆, rfl, hdistribute, h₃⟩ := runs_bind.mp h₂
  obtain ⟨rfl, -⟩ := runs_done.mp h₃
  obtain ⟨t₇, saved, t₈, rfl, hsaved, h₄⟩ := runs_bind.mp hsave
  obtain ⟨rfl, rfl⟩ := runs_done.mp h₄
  obtain ⟨sent, rfl⟩ := runs_respondSaved hrespond
  obtain ⟨e, text, rfl, htext⟩ | ⟨status, rfl, rfl⟩ := runs_saveEvent hsaved
  · obtain ⟨rfl, -⟩ := runs_done.mp hdistribute
    refine .inl ⟨?_, ?_, ?_⟩ <;> obtain rfl | rfl := htext
    · simp [StoreReturned]
    · simp [StoreReturned]
    · simp [Acknowledged, SubscriptionCoordinator.okMessage, MessageSender.packetBypass,
        Except.mapError]
    · simp [Acknowledged, SubscriptionCoordinator.okMessage, MessageSender.packetBypass,
        Except.mapError]
    · rfl
    · rfl
  · obtain rfl := runs_request.mp hdistribute
    exact .inr ⟨status, sent, rfl⟩

/-- **When an acknowledgement tells the truth.** Whatever the store does: the OK message and the
broadcast agree with it exactly if it does not refuse the event. -/
theorem tellsTruth_iff (kinds : KindRanges) (event : Event) (scope : Scope)
    (sender : MessageSender) (t : RelayHistory) (r : Except Error Unit)
    (hrun : Runs (SubscriptionCoordinator.saveAndBroadcast kinds
      (.saveSignedEvent event scope (some (.messageSender sender)))) t r) :
    TellsTruth sender event scope t ↔
      ∀ status, StoreReturned event scope t status → ¬ status.IsRefusal := by
  obtain ⟨hstore, hok, hdistributed⟩ | ⟨status, sent, ht⟩ := runs_saveSignedEvent hrun
  · refine iff_of_true ⟨fun status h => absurd h (hstore status), fun h => ?_⟩
      fun status h => absurd h (hstore status)
    exact absurd h (not_or.mpr ⟨hok, not_not.mpr hdistributed⟩)
  · have hreturned : StoreReturned event scope t status := by simp [StoreReturned, ht]
    refine ⟨fun htruth status' h hrefusal => ?_,
      fun h => ⟨fun status' h' hrefusal => ?_, fun _ => ⟨status, hreturned, h status hreturned⟩⟩⟩
    · have hnone := (htruth.refused status' h hrefusal).2
      rw [ht] at hnone
      cases hnone
    · exact absurd hrefusal (h status' h')

/-! ### A duplicate, and a note that was deleted -/

/-- The questions about a note, with this answer of the store. -/
private def noteSaved (status : SaveEventStatus) : RelayHistory :=
  [⟨.scopedView .default, .ok ()⟩, ⟨.saveEvent (Event.note 7) .default, .ok status⟩,
    ⟨.trySend 0 ⟨.ok 7 true "", 0, none⟩, .ok ()⟩, ⟨.distributeEvent (Event.note 7) .default, ()⟩]

private theorem runs_noteSaved (status : SaveEventStatus) :
    Runs (SubscriptionCoordinator.saveAndBroadcast .nip01
      (.saveSignedEvent (Event.note 7) .default (some (.messageSender ⟨0, 0⟩))))
      (noteSaved status) (.ok ()) :=
  .ask _ <| .ask _ <| .ask _ <| .ask _ <| .done _

theorem duplicate_tellsTruth :
    TellsTruth ⟨0, 0⟩ (Event.note 7) .default (noteSaved (.rejected .duplicate)) :=
  (tellsTruth_iff _ _ _ _ _ _ (runs_noteSaved _)).mpr fun status h => by
    have hstatus : status = .rejected .duplicate := by simpa [StoreReturned, noteSaved] using h
    exact hstatus ▸ id

/-- The store refuses a note that was deleted; it is acknowledged and distributed all the same. -/
theorem deleted_note_acknowledged :
    ¬ ∀ (kinds : KindRanges) (event : Event) (scope : Scope) (sender : MessageSender)
      (t : RelayHistory) (r : Except Error Unit),
      Runs (SubscriptionCoordinator.saveAndBroadcast kinds
        (.saveSignedEvent event scope (some (.messageSender sender)))) t r →
      TellsTruth sender event scope t := by
  intro hall
  have htruth := hall _ _ _ _ _ _ (runs_noteSaved (.rejected .deleted))
  have hnone := (htruth.refused (.rejected .deleted) (by simp [StoreReturned, noteSaved]) trivial).2
  cases hnone

end RelayBuilder
