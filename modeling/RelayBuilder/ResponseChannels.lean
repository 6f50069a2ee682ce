import RelayBuilder.EventAnswers

/-!
# The replies on a response channel

A store command may carry a response channel: the sending end of a oneshot channel, or a sender of
the client. Whoever waits at the other end is to be told once how the command went. What
`save_and_broadcast` replies is read off its histories. A reply to a client counts when it is sent,
whether or not its channel has room.

## Main definitions

* `replies`: the replies of a history, with the channels they are sent on
* `RepliesOnce`: the only reply is on the response channel, and says how the command went

## Main results

* `repliesOnce_iff`: this is so unless a service fails a `SaveUnsignedEvent`
-/

namespace RelayBuilder

open Interleave Script

/-- Where a reply goes. -/
abbrev Destination := OneshotRef ⊕ ChannelRef

def ResponseHandler.destination : ResponseHandler → Destination
  | oneshot tx => .inl tx
  | messageSender sender => .inr sender.channel

/-- The response channel of a command. -/
def StoreCommand.responseHandler : StoreCommand → Option ResponseHandler
  | saveUnsignedEvent _ _ handler | deleteEvents _ _ handler => handler.map .oneshot
  | saveSignedEvent _ _ handler => handler

/-- A reply, and whether it reports a success. To a client this is an OK message. -/
def Asked.reply? : Asked → Option (Destination × Bool)
  | ⟨.respond tx result, _⟩ => some (.inl tx, result.isOk)
  | ⟨.trySend channel ⟨.ok _ status _, _, _⟩, _⟩ => some (.inr channel, status)
  | _ => none

def replies (t : RelayHistory) : List (Destination × Bool) := t.filterMap Asked.reply?

/-- There is exactly one reply on the response channel of the command and none elsewhere, and it
reports a success exactly if the call returned `Ok`. -/
def RepliesOnce (command : StoreCommand) (t : RelayHistory) (r : Except Error Unit) : Prop :=
  ∀ handler, command.responseHandler = some handler → replies t = [(handler.destination, r.isOk)]

/-- The command is a `SaveUnsignedEvent` with a response channel. -/
def StoreCommand.isUnsignedWithHandler : StoreCommand → Bool
  | saveUnsignedEvent _ _ (some _) => true
  | _ => false

variable {t t' : RelayHistory}

@[simp] theorem replies_nil : replies [] = [] := rfl

@[simp] theorem replies_append : replies (t ++ t') = replies t ++ replies t' :=
  List.filterMap_append

/-! ### The functions -/

/-- The script replies nothing. -/
def RepliesNothing {α : Type} (p : Relay α) : Prop := p.Ensures fun t _ => replies t = []

theorem repliesNothing_request {call : RelayCall} (h : ∀ r, Asked.reply? ⟨call, r⟩ = none) :
    RepliesNothing (request call : Relay _) :=
  ensures_ask.mpr fun r => ensures_done.mpr (List.filterMap_cons_none (h r))

theorem RepliesNothing.bind {α β : Type} {p : Relay α} {k : α → Relay β} (h : RepliesNothing p)
    (hk : ∀ a, RepliesNothing (k a)) : RepliesNothing (p.bind k) :=
  ensures_bind.mpr (h.mono fun t a ht => (hk a).mono fun t' _ ht' => by
    rw [replies_append, ht, ht', List.append_nil])

theorem repliesNothing_done {α : Type} (a : α) : RepliesNothing (done a : Relay α) :=
  ensures_done.mpr rfl

theorem RepliesNothing.mapError {ε ε' α : Type} {p : Relay (Except ε α)} {f : ε → ε'}
    (h : RepliesNothing p) : RepliesNothing (p.mapError f) :=
  h.bind fun _ => repliesNothing_done _

theorem repliesNothing_saveEvent (event : Event) (scope : Scope) :
    RepliesNothing (RelayDatabase.saveEvent event scope) := by
  refine (repliesNothing_request fun _ => rfl).bind fun view => ?_
  cases view with
  | error e => exact repliesNothing_done _
  | ok _ =>
    refine (repliesNothing_request fun _ => rfl).bind fun saved => ?_
    cases saved <;> exact repliesNothing_done _

theorem repliesNothing_delete (filter : Filter) (scope : Scope) :
    RepliesNothing (RelayDatabase.delete filter scope) := by
  refine (repliesNothing_request fun _ => rfl).bind fun view => ?_
  cases view with
  | error e => exact repliesNothing_done _
  | ok _ => exact repliesNothing_request fun _ => rfl

theorem repliesNothing_signAndSave (event : UnsignedEvent) (scope : Scope) :
    RepliesNothing (SubscriptionCoordinator.signAndSave event scope) := by
  refine (repliesNothing_request fun _ => rfl).mapError.bind fun queued => ?_
  cases queued with
  | error e => exact repliesNothing_done _
  | ok _ =>
    refine (repliesNothing_request fun _ => rfl).bind fun answer => ?_
    match answer with
    | none | some (.error _) | some (.ok none) => exact repliesNothing_done _
    | some (.ok (some (.saveUnsignedEvent ..))) | some (.ok (some (.deleteEvents ..))) =>
      exact repliesNothing_done _
    | some (.ok (some (.saveSignedEvent event' scope' _))) =>
      exact (repliesNothing_saveEvent event' scope').mapError

/-- The one reply of a handler, if there is one. -/
def replyOf (handler : Option ResponseHandler) (success : Bool) : List (Destination × Bool) :=
  (handler.map fun handler => (handler.destination, success)).toList

theorem replies_respond (handler : Option OneshotRef) (result : Except Error Unit) :
    (SubscriptionCoordinator.respond handler result).Ensures
      fun t _ => replies t = replyOf (handler.map .oneshot) result.isOk := by
  cases handler with
  | none => exact ensures_done.mpr rfl
  | some tx => exact ensures_ask.mpr fun _ => ensures_done.mpr rfl

theorem replies_respondSaved (event : Event) (saveResult : Except Error Unit)
    (handler : Option ResponseHandler) :
    (SubscriptionCoordinator.respondSaved event saveResult handler).Ensures
      fun t _ => replies t = replyOf handler saveResult.isOk := by
  match handler with
  | none => exact ensures_done.mpr rfl
  | some (.oneshot tx) =>
    refine ensures_ask.mpr fun _ => ensures_done.mpr ?_
    cases saveResult <;> rfl
  | some (.messageSender sender) =>
    refine ensures_bind.mpr (ensures_request_bind.mpr fun sent => ensures_done.mpr
      (ensures_done.mpr ?_))
    cases saveResult <;> rfl

/-- What is replied when something was done for a `SaveUnsignedEvent`: only a success. -/
theorem replies_andRespond {p : Relay (Except Error Unit)} (handler : Option OneshotRef)
    (h : RepliesNothing p) :
    (p.andThen fun _ => do
      SubscriptionCoordinator.respond handler (.ok ())
      pure (.ok ())).Ensures fun t r =>
        replies t = if r.isOk then replyOf (handler.map .oneshot) true else [] := by
  refine ensures_bind.mpr (h.mono fun t₁ r ht₁ => ?_)
  cases r with
  | error e => exact ensures_done.mpr (by rw [List.append_nil, ht₁]; rfl)
  | ok _ =>
    refine ensures_bind.mpr ((replies_respond handler _).mono fun t₂ _ ht₂ => ?_)
    refine ensures_done.mpr ?_
    rw [replies_append, replies_append, ht₁, ht₂]
    exact List.append_nil _

/-- What `save_and_broadcast` replies: a `SaveUnsignedEvent` that fails is not answered. -/
theorem replies_saveAndBroadcast (kinds : KindRanges) (command : StoreCommand) :
    (SubscriptionCoordinator.saveAndBroadcast kinds command).Ensures fun t r =>
      replies t = if command.isUnsignedWithHandler = true ∧ r.isOk = false then []
        else replyOf command.responseHandler r.isOk := by
  match command with
  | .deleteEvents filter scope handler =>
    refine ensures_bind.mpr ((repliesNothing_delete filter scope).mapError.mono fun t₁ r ht₁ => ?_)
    refine ensures_bind.mpr ((replies_respond handler _).mono fun t₂ _ ht₂ => ensures_done.mpr ?_)
    have hsuccess :
        (r.mapError fun _ => Error.internal "Failed to delete events").isOk = r.isOk := by
      cases r <;> rfl
    rw [replies_append, replies_append, ht₁, ht₂, hsuccess, if_neg fun h => nomatch h.1]
    exact List.append_nil _
  | .saveSignedEvent event scope handler =>
    refine ensures_bind.mpr
      ((repliesNothing_saveEvent event scope).mapError.mono fun t₁ saved ht₁ => ?_)
    refine ensures_bind.mpr ((replies_respondSaved event saved handler).mono fun t₂ _ ht₂ => ?_)
    have hdistribute :
        RepliesNothing (SubscriptionCoordinator.distributeSaved event scope saved) := by
      cases saved with
      | error e => exact repliesNothing_done _
      | ok _ => exact repliesNothing_request fun _ => rfl
    refine ensures_bind.mpr (hdistribute.mono fun t₃ _ ht₃ => ensures_done.mpr ?_)
    rw [replies_append, replies_append, replies_append, ht₁, ht₂, ht₃, if_neg fun h => nomatch h.1]
    exact List.append_nil _
  | .saveUnsignedEvent event scope handler =>
    have hand : ∀ t (r : Except Error Unit),
        (replies t = if r.isOk then replyOf (handler.map .oneshot) true else []) →
        replies t = if StoreCommand.isUnsignedWithHandler (.saveUnsignedEvent event scope handler) =
          true ∧ r.isOk = false then [] else replyOf (handler.map .oneshot) r.isOk := by
      intro t r ht
      cases handler <;> cases r <;> simpa [StoreCommand.isUnsignedWithHandler, replyOf] using ht
    rw [SubscriptionCoordinator.saveAndBroadcast]
    split
    · exact (replies_andRespond handler (repliesNothing_request fun _ => rfl).mapError).mono hand
    · exact (replies_andRespond handler (repliesNothing_signAndSave event scope)).mono hand

theorem responseHandler_of_isUnsignedWithHandler {command : StoreCommand}
    (h : command.isUnsignedWithHandler = true) :
    ∃ tx, command.responseHandler = some (.oneshot tx) := by
  cases command with
  | saveUnsignedEvent event scope handler =>
    cases handler with
    | none => cases h
    | some tx => exact ⟨tx, rfl⟩
  | _ => cases h

/-- **When a response channel is answered.** In every run of `save_and_broadcast` there is exactly
one reply on the response channel of the command, a success exactly if the call returns `Ok`,
unless the command is a `SaveUnsignedEvent` with a response channel and a service fails. -/
theorem repliesOnce_iff {kinds : KindRanges} {command : StoreCommand} {t : RelayHistory}
    {r : Except Error Unit}
    (hrun : Runs (SubscriptionCoordinator.saveAndBroadcast kinds command) t r) :
    RepliesOnce command t r ↔ ¬ (command.isUnsignedWithHandler = true ∧ ServiceFailed t) := by
  have hreplies : replies t = if command.isUnsignedWithHandler = true ∧ r.isOk = false then []
      else replyOf command.responseHandler r.isOk :=
    replies_saveAndBroadcast kinds command t r hrun
  rw [(saveAndBroadcast_answers 0 kinds command t r hrun).failed]
  by_cases hunanswered : command.isUnsignedWithHandler = true ∧ r.isOk = false
  · rw [if_pos hunanswered] at hreplies
    refine iff_of_false ?_ (not_not_intro hunanswered)
    intro honce
    obtain ⟨tx, htx⟩ := responseHandler_of_isUnsignedWithHandler hunanswered.1
    have hreply := honce (.oneshot tx) htx
    rw [hreplies] at hreply
    cases hreply
  · rw [if_neg hunanswered] at hreplies
    refine iff_of_true (fun handler hhandler => ?_) hunanswered
    rw [hreplies, hhandler]
    rfl

/-- A relay that saves a note of its own and waits for it: all services work. -/
theorem own_note_replied : RepliesOnce (.saveUnsignedEvent ⟨1, 0, 1, [], "hello"⟩ .default (some 3))
    (under RelayCall.succeed (SubscriptionCoordinator.saveAndBroadcast .nip01
      (.saveUnsignedEvent ⟨1, 0, 1, [], "hello"⟩ .default (some 3)))).1 (.ok ()) := by
  refine (repliesOnce_iff (runs_under RelayCall.succeed _)).mpr ?_
  rintro ⟨-, ⟨call, r⟩, hasked, hfailed⟩
  obtain rfl := mem_under hasked
  cases call <;> exact hfailed

/-- The signing task is gone, and whoever waits for the note is not told. -/
theorem unsigned_note_unanswered : ¬ ∀ (kinds : KindRanges) (command : StoreCommand)
    (t : RelayHistory) (r : Except Error Unit),
    Runs (SubscriptionCoordinator.saveAndBroadcast kinds command) t r →
      RepliesOnce command t r := by
  intro hall
  have hrun : Runs (SubscriptionCoordinator.saveAndBroadcast .nip01
      (.saveUnsignedEvent ⟨1, 0, 1, [], "hello"⟩ .default (some 3)))
      [⟨.queueForSigning ⟨1, 0, 1, [], "hello"⟩ .default, .error "sending on a closed channel"⟩]
      (.error (.internal ("Failed to sign event: " ++
        (Error.internal "Signing processor unavailable").display))) :=
    .ask _ <| .done _
  have hreply := hall _ _ _ _ hrun (.oneshot 3) rfl
  cases hreply

end RelayBuilder
