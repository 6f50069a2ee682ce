import RelayBuilder.RelayMiddleware
import RelayBuilder.Broadcasting

/-!
# The answers to an event

Three places may answer an event: the coordinator, after a `SaveSignedEvent` with a sender, the
`ErrorHandlingMiddleware`, after an error, and nobody. The answers are counted in the histories of
a chain that handles one event: `okMessages` are the OK messages that a channel took.

## Main results

* `answeredOnce_iff`: when an event is answered exactly once, unless a service failed a list of
  commands with a `SaveSignedEvent`
-/

namespace RelayBuilder

open Interleave Script

/-- An OK message that a channel took. -/
def Asked.okMessage? (channel : ChannelRef) : Asked → Option (EventId × Bool)
  | ⟨.trySend ch ⟨.ok id status _, _, _⟩, .ok _⟩ => if ch = channel then some (id, status) else none
  | _ => none

/-- A service that failed a command. -/
def Asked.Failed : Asked → Prop
  | ⟨.scopedView _, .error _⟩ | ⟨.saveEvent _ _, .error _⟩ | ⟨.delete _ _, .error _⟩
  | ⟨.queueReplaceable _ _, .error _⟩ | ⟨.queueForSigning _ _, .error _⟩
  | ⟨.awaitSigned _ _, none⟩ | ⟨.awaitSigned _ _, some (.error _)⟩
  | ⟨.awaitSigned _ _, some (.ok none)⟩ => True
  | _ => False

def okMessages (channel : ChannelRef) (t : RelayHistory) : List (EventId × Bool) :=
  t.filterMap (Asked.okMessage? channel)

def ServiceFailed (t : RelayHistory) : Prop := ∃ asked ∈ t, Asked.Failed asked

/-- The channel took everything. -/
def Room (channel : ChannelRef) (t : RelayHistory) : Prop :=
  ∀ packet r, (⟨.trySend channel packet, r⟩ : Asked) ∈ t → r = .ok ()

/-- The history puts these OK messages into the channel if there is room, and a service fails in it
exactly if `failed`. -/
structure Answers (channel : ChannelRef) (oks : List (EventId × Bool)) (failed : Prop)
    (t : RelayHistory) : Prop where
  oks : Room channel t → okMessages channel t = oks
  failed : ServiceFailed t ↔ failed

variable {channel : ChannelRef} {oks oks' : List (EventId × Bool)} {failed failed' : Prop}
  {t t' : RelayHistory}

@[simp] theorem okMessages_append :
    okMessages channel (t ++ t') = okMessages channel t ++ okMessages channel t' :=
  List.filterMap_append

@[simp] theorem serviceFailed_append :
    ServiceFailed (t ++ t') ↔ ServiceFailed t ∨ ServiceFailed t' := by
  simp [ServiceFailed, or_and_right, exists_or]

@[simp] theorem serviceFailed_cons {asked : Asked} :
    ServiceFailed (asked :: t) ↔ asked.Failed ∨ ServiceFailed t := by
  simp [ServiceFailed]

theorem Room.append (h : Room channel (t ++ t')) : Room channel t ∧ Room channel t' :=
  ⟨fun packet r hr => h packet r (List.mem_append_left _ hr),
    fun packet r hr => h packet r (List.mem_append_right _ hr)⟩

theorem Answers.nil : Answers channel [] False [] :=
  ⟨fun _ => rfl, by simp [ServiceFailed]⟩

theorem Answers.append (h : Answers channel oks failed t) (h' : Answers channel oks' failed' t') :
    Answers channel (oks ++ oks') (failed ∨ failed') (t ++ t') :=
  ⟨fun hroom => by rw [okMessages_append, h.oks hroom.append.1, h'.oks hroom.append.2],
    by rw [serviceFailed_append, h.failed, h'.failed]⟩

theorem Answers.congr (h : Answers channel oks failed t) (hoks : oks = oks')
    (hfailed : failed ↔ failed') : Answers channel oks' failed' t :=
  ⟨fun hroom => (h.oks hroom).trans hoks, h.failed.trans hfailed⟩

/-! ### The functions -/

variable (channel)

/-- A question that sends no OK message. -/
theorem answers_request {call : RelayCall} {F : call.Answer → Prop}
    (hok : ∀ r, Asked.okMessage? channel ⟨call, r⟩ = none)
    (hf : ∀ r, Asked.Failed ⟨call, r⟩ ↔ F r) :
    (request call : Relay _).Ensures fun t r => Answers channel [] (F r) t := by
  refine ensures_ask.mpr fun r => ensures_done.mpr ⟨fun _ => ?_, ?_⟩
  · rw [okMessages, List.filterMap_cons, hok]
    rfl
  · simp [ServiceFailed, hf]

theorem mapError_answers {ε ε' α : Type} {f : ε → ε'} {p : Relay (Except ε α)}
    (h : p.Ensures fun t r => Answers channel oks (r.isOk = false) t) :
    (p.mapError f).Ensures fun t r => Answers channel oks (r.isOk = false) t := by
  refine ensures_bind.mpr (h.mono fun t r ht => ensures_done.mpr ?_)
  rw [List.append_nil]
  cases r <;> exact ht

theorem answers_respond (handler : Option OneshotRef) (result : Except Error Unit) :
    (SubscriptionCoordinator.respond handler result).Ensures
      fun t _ => Answers channel [] False t := by
  cases handler with
  | none => exact ensures_done.mpr .nil
  | some tx => exact answers_request channel (fun _ => rfl) fun _ => Iff.rfl

theorem answers_delete (filter : Filter) (scope : Scope) :
    (RelayDatabase.delete filter scope).Ensures
      fun t r => Answers channel [] (r.isOk = false) t := by
  refine ensures_request_bind.mpr fun view => ?_
  cases view with
  | error e => exact ensures_done.mpr ⟨fun _ => rfl, by simp [ServiceFailed, Asked.Failed]⟩
  | ok _ =>
    refine ensures_ask.mpr fun r => ensures_done.mpr ⟨fun _ => rfl, ?_⟩
    cases r <;> simp [ServiceFailed, Asked.Failed]

theorem answers_saveEvent (event : Event) (scope : Scope) :
    (RelayDatabase.saveEvent event scope).Ensures
      fun t r => Answers channel [] (r.isOk = false) t := by
  refine ensures_request_bind.mpr fun view => ?_
  cases view with
  | error e => exact ensures_done.mpr ⟨fun _ => rfl, by simp [ServiceFailed, Asked.Failed]⟩
  | ok _ =>
    refine ensures_request_bind.mpr fun r => ?_
    cases r with
    | error e => exact ensures_done.mpr ⟨fun _ => rfl, by simp [ServiceFailed, Asked.Failed]⟩
    | ok status => exact ensures_done.mpr ⟨fun _ => rfl, by simp [ServiceFailed, Asked.Failed]⟩

/-- The ids that a command answers to the channel. -/
def StoreCommand.answers (channel : ChannelRef) : StoreCommand → List EventId
  | .saveSignedEvent event _ (some (.messageSender sender)) =>
    if sender.channel = channel then [event.id] else []
  | _ => []

theorem answers_sendOk (sender : MessageSender) (packet : Packet) {id : EventId} {status : Bool}
    {text : String} (h : packet.message = .ok id status text) :
    (sender.put packet).Ensures fun t _ =>
      Answers channel (if sender.channel = channel then [(id, status)] else []) False t := by
  obtain ⟨message, position, json⟩ := packet
  subst h
  refine ensures_request_bind.mpr fun r => ensures_done.mpr ⟨fun hroom => ?_, ?_⟩
  · by_cases hch : sender.channel = channel
    · subst hch
      obtain rfl := hroom _ r (List.mem_cons_self ..)
      simp [okMessages, Asked.okMessage?]
    · cases r <;> simp [okMessages, Asked.okMessage?, hch]
  · simp [ServiceFailed, Asked.Failed]

theorem answers_respondSaved (event : Event) (scope : Scope) (saveResult : Except Error Unit)
    (handler : Option ResponseHandler) :
    (SubscriptionCoordinator.respondSaved event saveResult handler).Ensures fun t _ =>
      Answers channel (((StoreCommand.saveSignedEvent event scope handler).answers channel).map
        (·, saveResult.isOk)) False t := by
  match handler with
  | none => exact ensures_done.mpr .nil
  | some (.oneshot tx) => exact answers_request channel (fun _ => rfl) fun _ => Iff.rfl
  | some (.messageSender sender) =>
    have hmessage : ∃ text, SubscriptionCoordinator.okMessage event saveResult =
        .ok event.id saveResult.isOk text := by
      cases saveResult <;> exact ⟨_, rfl⟩
    obtain ⟨text, htext⟩ := hmessage
    refine ensures_bind.mpr ((answers_sendOk channel sender _ htext).mono fun t _ ht => ?_)
    refine ensures_done.mpr ?_
    rw [List.append_nil]
    refine ht.congr ?_ Iff.rfl
    simp only [StoreCommand.answers]
    split <;> rfl

theorem answers_signAndSave (event : UnsignedEvent) (scope : Scope) :
    (SubscriptionCoordinator.signAndSave event scope).Ensures
      fun t r => Answers channel [] (r.isOk = false) t := by
  have hqueue : (CryptoHelper.signStoreCommand event scope).Ensures
      fun t r => Answers channel [] (r.isOk = false) t :=
    mapError_answers channel (answers_request channel (fun _ => rfl) fun r => by
      cases r <;> simp [Asked.Failed])
  refine ensures_bind.mpr (hqueue.mono fun t₁ r₁ ht₁ => ?_)
  cases r₁ with
  | error e => exact ensures_done.mpr ((ht₁.append .nil).congr rfl (by simp))
  | ok _ =>
    refine ensures_request_bind.mpr fun answer => ?_
    have hasked : ∀ {t oks failed}, Answers channel oks failed t →
        Answers channel oks (Asked.Failed ⟨.awaitSigned event scope, answer⟩ ∨ failed)
          (t₁ ++ ⟨.awaitSigned event scope, answer⟩ :: t) := fun {t oks failed} ht => by
      have hone : Answers channel [] (Asked.Failed ⟨.awaitSigned event scope, answer⟩)
          [⟨.awaitSigned event scope, answer⟩] := ⟨fun _ => rfl, by simp [ServiceFailed]⟩
      exact (ht₁.append (hone.append ht)).congr (by simp) (by simp)
    match answer with
    | none | some (.error _) | some (.ok none) =>
      exact ensures_done.mpr ((hasked .nil).congr rfl (by simp [Asked.Failed]))
    | some (.ok (some (.saveUnsignedEvent ..))) | some (.ok (some (.deleteEvents ..))) =>
      exact ensures_done.mpr ((hasked .nil).congr rfl (by simp [Asked.Failed]))
    | some (.ok (some (.saveSignedEvent event' scope' _))) =>
      refine (mapError_answers channel (answers_saveEvent channel event' scope')).mono
        fun t₂ r₂ ht₂ => ?_
      exact (hasked ht₂).congr rfl (by simp [Asked.Failed])

/-- A command whose response handler is told that it is done. -/
theorem answers_andRespond {p : Relay (Except Error Unit)} (handler : Option OneshotRef)
    (h : p.Ensures fun t r => Answers channel [] (r.isOk = false) t) :
    (p.andThen fun _ => do
      SubscriptionCoordinator.respond handler (.ok ())
      pure (.ok ())).Ensures fun t r => Answers channel [] (r.isOk = false) t := by
  refine ensures_bind.mpr (h.mono fun t₁ r ht₁ => ?_)
  cases r with
  | error e => exact ensures_done.mpr ((ht₁.append .nil).congr rfl (by simp))
  | ok _ =>
    refine ensures_bind.mpr ((answers_respond channel handler _).mono fun t₂ _ ht₂ => ?_)
    exact ensures_done.mpr ((ht₁.append (ht₂.append .nil)).congr rfl (by simp))

/-- A command answers with its own result, and fails exactly if a service does. -/
theorem saveAndBroadcast_answers (kinds : KindRanges) (command : StoreCommand) :
    (SubscriptionCoordinator.saveAndBroadcast kinds command).Ensures fun t r =>
      Answers channel ((command.answers channel).map (·, r.isOk)) (r.isOk = false) t := by
  match command with
  | .deleteEvents filter scope handler =>
    refine ensures_bind.mpr ((mapError_answers channel (answers_delete channel filter scope)).mono
      fun t₁ r ht₁ => ?_)
    refine ensures_bind.mpr ((answers_respond channel handler _).mono fun t₂ _ ht₂ => ?_)
    exact ensures_done.mpr ((ht₁.append (ht₂.append .nil)).congr rfl (by simp))
  | .saveSignedEvent event scope handler =>
    refine ensures_bind.mpr ((mapError_answers channel (answers_saveEvent channel event scope)).mono
      fun t₁ saved ht₁ => ?_)
    refine ensures_bind.mpr ((answers_respondSaved channel event scope saved handler).mono
      fun t₂ _ ht₂ => ?_)
    cases saved with
    | error e => exact ensures_done.mpr ((ht₁.append (ht₂.append .nil)).congr (by simp) (by simp))
    | ok _ =>
      refine ensures_ask.mpr fun r => ensures_done.mpr ?_
      have ht₃ : Answers channel [] False [⟨.distributeEvent event scope, r⟩] :=
        ⟨fun _ => rfl, by simp [ServiceFailed, Asked.Failed]⟩
      exact (ht₁.append (ht₂.append ht₃)).congr (by simp) (by simp)
  | .saveUnsignedEvent event scope handler =>
    rw [SubscriptionCoordinator.saveAndBroadcast]
    split
    · refine answers_andRespond channel handler (mapError_answers channel
        (answers_request channel (fun _ => rfl) fun r => ?_))
      cases r <;> simp [Asked.Failed]
    · exact answers_andRespond channel handler (answers_signAndSave channel event scope)

/-- An event is saved when its command succeeds. -/
theorem saveSignedEvent_saves (kinds : KindRanges) (event : Event) (scope : Scope)
    (handler : Option ResponseHandler) :
    (SubscriptionCoordinator.saveAndBroadcast kinds
      (.saveSignedEvent event scope handler)).Ensures fun t r =>
        r.isOk = true → (event, scope) ∈ savedEvents t := by
  refine ensures_bind.mpr (ensures_bind.mpr ((saveEvent_saves event scope).mono ?_))
  rintro t₁ saved ⟨-, hs₁⟩
  refine ensures_done.mpr (ensures_bind.mpr fun t₂ _ _ => ensures_bind.mpr fun t₃ _ _ => ?_)
  refine ensures_done.mpr fun hok => ?_
  cases saved with
  | error e => cases hok
  | ok _ => simp [hs₁]

/-! ### Lists of commands -/

/-- The result of a command, reported as one of the database. -/
theorem execute_answers (kinds : KindRanges) (command : StoreCommand) :
    (RelayMiddleware.execute kinds command).Ensures fun t r =>
      Answers channel ((command.answers channel).map (·, r.isOk)) (r.isOk = false) t ∧
        (∀ e, r = .error e → ∃ text, e = .database text) ∧
        (r.isOk = true → ∀ event scope handler, command = .saveSignedEvent event scope handler →
          (event, scope) ∈ savedEvents t) := by
  have hsaves : (SubscriptionCoordinator.saveAndBroadcast kinds command).Ensures fun t r =>
      r.isOk = true → ∀ event scope handler, command = .saveSignedEvent event scope handler →
        (event, scope) ∈ savedEvents t := by
    intro t r hrun hok event scope handler hcommand
    subst hcommand
    exact saveSignedEvent_saves kinds event scope handler t r hrun hok
  refine ensures_bind.mpr (((saveAndBroadcast_answers channel kinds command).and hsaves).mono
    fun t r ht => ensures_done.mpr ?_)
  rw [List.append_nil]
  cases r with
  | error e => exact ⟨ht.1, fun _ he => ⟨_, (Except.error.inj he).symm⟩, fun h => nomatch h⟩
  | ok _ => exact ⟨ht.1, fun _ he => (nomatch he), ht.2⟩

/-- Commands in a row: what they answer if none of them fails, or if none of them answers. -/
theorem forEach_execute_answers (kinds : KindRanges) (commands : List StoreCommand) :
    (Script.forEach (RelayMiddleware.execute kinds) commands).Ensures fun t r =>
      (ServiceFailed t ↔ r.isOk = false) ∧
      (∀ e, r = .error e → ∃ text, e = .database text) ∧
      (Room channel t → r.isOk = true ∨ commands.flatMap (StoreCommand.answers channel) = [] →
        okMessages channel t = (commands.flatMap (StoreCommand.answers channel)).map (·, true)) := by
  induction commands with
  | nil =>
    exact ensures_done.mpr ⟨by simp [ServiceFailed], fun _ he => (nomatch he), fun _ _ => rfl⟩
  | cons command commands ih =>
    refine ensures_bind.mpr ((execute_answers channel kinds command).mono fun t₁ r₁ ht₁ => ?_)
    obtain ⟨hanswers, htext, -⟩ := ht₁
    cases r₁ with
    | error e =>
      refine ensures_done.mpr ?_
      rw [List.append_nil]
      refine ⟨hanswers.failed.trans (by simp), fun e' he => htext e' (by cases he; rfl),
        fun hroom h => ?_⟩
      have hnone : (command :: commands).flatMap (StoreCommand.answers channel) = [] :=
        h.resolve_left (by simp)
      rw [hanswers.oks hroom, hnone]
      rw [List.flatMap_cons, List.append_eq_nil_iff] at hnone
      rw [hnone.1]
      rfl
    | ok _ =>
      refine ih.mono fun t₂ r₂ ht₂ => ⟨?_, ht₂.2.1, fun hroom h => ?_⟩
      · rw [serviceFailed_append, hanswers.failed, ht₂.1]
        simp
      · rw [okMessages_append, hanswers.oks hroom.append.1, ht₂.2.2 hroom.append.2,
          List.flatMap_cons, List.map_append]
        · rfl
        · refine h.imp id fun h => ?_
          rw [List.flatMap_cons, List.append_eq_nil_iff] at h
          exact h.2

/-- The last element of a list is just removed. -/
theorem swapRemove_last {α : Type} (before : List α) (a : α) :
    RelayMiddleware.swapRemove (before ++ [a]) before.length = before := by
  simp [RelayMiddleware.swapRemove]

/-- In the place of any other one there is the last. -/
theorem swapRemove_concat {α : Type} (before : List α) (a : α) (after : List α) (last : α) :
    RelayMiddleware.swapRemove (before ++ a :: (after ++ [last])) before.length =
      before ++ last :: after := by
  have hset : ((before ++ a :: after) ++ [last]).set before.length last =
      (before ++ last :: after) ++ [last] := by simp
  rw [RelayMiddleware.swapRemove, show before ++ a :: (after ++ [last]) =
    (before ++ a :: after) ++ [last] by simp, List.getLast?_concat]
  dsimp only
  rw [hset, List.dropLast_concat]

/-- The rest of a list, as `swap_remove` leaves it. -/
theorem swapRemove_perm {α : Type} (before : List α) (a : α) (after : List α) :
    (RelayMiddleware.swapRemove (before ++ a :: after) before.length).Perm (before ++ after) := by
  obtain rfl | ⟨after, last, rfl⟩ := after.eq_nil_or_concat
  · rw [swapRemove_last, List.append_nil]
  · rw [List.concat_eq_append, swapRemove_concat]
    exact List.Perm.append_left before (List.perm_append_singleton last after).symm

/-- The first command that saves a signed event, between the others. -/
inductive FirstSave : List StoreCommand → List StoreCommand → Event → List StoreCommand → Prop where
  | intro {before after : List StoreCommand} (event : Event) (scope : Scope)
    (handler : Option ResponseHandler)
    (h : ∀ command ∈ before, command.isSaveSignedEvent = false) :
    FirstSave (before ++ .saveSignedEvent event scope handler :: after) before event after

theorem FirstSave.head (event : Event) (scope : Scope) (handler : Option ResponseHandler)
    (commands : List StoreCommand) :
    FirstSave (.saveSignedEvent event scope handler :: commands) [] event commands := by
  have hnil : ∀ command ∈ ([] : List StoreCommand), command.isSaveSignedEvent = false :=
    fun _ h => nomatch h
  exact .intro event scope handler hnil

theorem firstSave_or (commands : List StoreCommand) :
    (∀ command ∈ commands, command.isSaveSignedEvent = false) ∨
      ∃ before event after, FirstSave commands before event after := by
  induction commands with
  | nil => exact .inl fun _ h => nomatch h
  | cons command commands ih =>
    match command with
    | .saveSignedEvent event scope handler =>
      exact .inr ⟨[], event, commands, .head event scope handler commands⟩
    | .saveUnsignedEvent .. | .deleteEvents .. =>
      obtain h | ⟨_, event, after, ⟨_, scope, handler, h⟩⟩ := ih
      · exact .inl (List.forall_mem_cons.mpr ⟨rfl, h⟩)
      · exact .inr ⟨_ :: _, event, after, .intro event scope handler
          (List.forall_mem_cons.mpr ⟨rfl, h⟩)⟩

theorem findIdx?_firstSave {before after : List StoreCommand} {command : StoreCommand}
    (h : ∀ c ∈ before, c.isSaveSignedEvent = false) (hc : command.isSaveSignedEvent = true) :
    (before ++ command :: after).findIdx? StoreCommand.isSaveSignedEvent = some before.length := by
  induction before with
  | nil => simp [List.findIdx?_cons, hc]
  | cons c before ih =>
    rw [List.forall_mem_cons] at h
    rw [List.cons_append, List.findIdx?_cons, h.1, ih h.2]
    rfl

/-- Without a `SaveSignedEvent`, the commands are executed as they stand. -/
theorem executeAll_of_not_save (kinds : KindRanges) (sender : MessageSender)
    {commands : List StoreCommand}
    (h : ∀ command ∈ commands, command.isSaveSignedEvent = false) :
    RelayMiddleware.executeAll kinds sender commands =
      Script.forEach (RelayMiddleware.execute kinds) commands := by
  rw [RelayMiddleware.executeAll, List.findIdx?_eq_none_iff.mpr h]

/-- The first `SaveSignedEvent` is executed first, and then what `swap_remove` leaves. -/
theorem executeAll_firstSave (kinds : KindRanges) (sender : MessageSender)
    {before : List StoreCommand} (h : ∀ command ∈ before, command.isSaveSignedEvent = false)
    (event : Event) (scope : Scope) (handler : Option ResponseHandler) (after : List StoreCommand) :
    RelayMiddleware.executeAll kinds sender (before ++ .saveSignedEvent event scope handler :: after) =
      (RelayMiddleware.execute kinds
        (.saveSignedEvent event scope (some (.messageSender sender)))).andThen fun _ =>
        Script.forEach (RelayMiddleware.execute kinds) (RelayMiddleware.swapRemove
          (before ++ .saveSignedEvent event scope handler :: after) before.length) := by
  rw [RelayMiddleware.executeAll, findIdx?_firstSave h rfl]
  simp only [List.getElem?_append_right (le_refl _), Nat.sub_self, List.getElem?_cons_zero,
    Option.map_some, StoreCommand.setMessageSender]

theorem FirstSave.unique {commands before before' after after' : List StoreCommand}
    {event event' : Event} (h : FirstSave commands before event after)
    (h' : FirstSave commands before' event' after') : event = event' ∧ after = after' := by
  obtain ⟨_, scope, handler, hb⟩ := h
  generalize hl : before ++ StoreCommand.saveSignedEvent event scope handler :: after = l at h'
  obtain ⟨_, scope', handler', hb'⟩ := h'
  have hlength : before.length = before'.length := by
    have hfind : (before ++ StoreCommand.saveSignedEvent event scope handler :: after).findIdx?
        StoreCommand.isSaveSignedEvent = some before.length := findIdx?_firstSave hb rfl
    rw [hl, findIdx?_firstSave hb' rfl] at hfind
    exact (Option.some.inj hfind).symm
  obtain ⟨-, htail⟩ := List.append_inj hl hlength
  injection htail with hsave hafter
  injection hsave with hevent
  exact ⟨hevent, hafter⟩

theorem answers_of_not_save {command : StoreCommand} (h : command.isSaveSignedEvent = false) :
    command.answers channel = [] := by
  cases command with
  | saveSignedEvent => cases h
  | saveUnsignedEvent | deleteEvents => rfl

theorem flatMap_answers_of_not_save {commands : List StoreCommand}
    (h : ∀ command ∈ commands, command.isSaveSignedEvent = false) :
    commands.flatMap (StoreCommand.answers channel) = [] :=
  List.flatMap_eq_nil_iff.mpr fun command hc => answers_of_not_save channel (h command hc)

/-- What the commands of an event processor answer: without a `SaveSignedEvent` nothing, and with
one, if no service fails, first that its event was saved. -/
theorem executeAll_answers (kinds : KindRanges) (sender : MessageSender)
    (hsender : sender.channel = channel) (commands : List StoreCommand) :
    (RelayMiddleware.executeAll kinds sender commands).Ensures fun t r =>
      (ServiceFailed t ↔ r.isOk = false) ∧
      (∀ e, r = .error e → ∃ text, e = .database text) ∧
      (Room channel t → (∀ command ∈ commands, command.isSaveSignedEvent = false) →
        okMessages channel t = []) ∧
      (Room channel t → r.isOk = true → ∀ before event after, FirstSave commands before event after →
        (∃ scope, (event, scope) ∈ savedEvents t) ∧
          ∃ others : List EventId, others.Perm (after.flatMap (StoreCommand.answers channel)) ∧
            okMessages channel t = (event.id, true) :: others.map (·, true)) := by
  obtain h | ⟨before, event, after, ⟨_, scope, handler, h⟩⟩ := firstSave_or commands
  · rw [executeAll_of_not_save kinds sender h]
    refine (forEach_execute_answers channel kinds commands).mono fun t r ht => ?_
    refine ⟨ht.1, ht.2.1, fun hroom _ => ?_, fun _ _ before event after hfirst => ?_⟩
    · rw [ht.2.2 hroom (.inr (flatMap_answers_of_not_save channel h)),
        flatMap_answers_of_not_save channel h]
      rfl
    · obtain ⟨_, _, _⟩ := hfirst
      cases h _ (List.mem_append_right _ (List.mem_cons_self ..))
  · rw [executeAll_firstSave kinds sender h]
    have hnosave : ¬ ∀ c ∈ before ++ StoreCommand.saveSignedEvent event scope handler :: after,
        c.isSaveSignedEvent = false :=
      fun hall => nomatch hall _ (List.mem_append_right _ (List.mem_cons_self ..))
    refine ensures_bind.mpr ((execute_answers channel kinds _).mono fun t₁ r₁ ht₁ => ?_)
    obtain ⟨hanswers, htext, hsaved⟩ := ht₁
    cases r₁ with
    | error e =>
      refine ensures_done.mpr ?_
      rw [List.append_nil]
      exact ⟨hanswers.failed.trans (by simp), fun e' he => htext e' (by cases he; rfl),
        fun _ hall => absurd hall hnosave, fun _ hok => nomatch hok⟩
    | ok _ =>
      refine (forEach_execute_answers channel kinds _).mono fun t₂ r₂ ht₂ => ?_
      refine ⟨?_, ht₂.2.1, fun _ hall => absurd hall hnosave,
        fun hroom hok before' event' after' hfirst => ?_⟩
      · rw [serviceFailed_append, hanswers.failed, ht₂.1]
        simp
      · obtain ⟨rfl, rfl⟩ := (FirstSave.intro event scope handler h).unique hfirst
        have hperm := (swapRemove_perm before (.saveSignedEvent event scope handler)
          after).flatMap_right (StoreCommand.answers channel)
        rw [List.flatMap_append, flatMap_answers_of_not_save channel h, List.nil_append] at hperm
        refine ⟨⟨scope, ?_⟩, _, hperm, ?_⟩
        · rw [savedEvents_append]
          exact List.mem_append_left _ (hsaved rfl event scope _ rfl)
        · rw [okMessages_append, hanswers.oks hroom.append.1, ht₂.2.2 hroom.append.2 (.inl hok)]
          simp [StoreCommand.answers, hsender]

/-! ### One event -/

/-- What the event processor made of an event. -/
def Asked.processed? : Asked → Option (Except Error (List StoreCommand))
  | ⟨.handleEvent _ _, answer⟩ => some answer
  | _ => none

/-- The coordinator that a message found. -/
def Asked.coordinator? : Asked → Option (Option SubscriptionCoordinator)
  | ⟨.subscriptionCoordinator, coordinator⟩ => some coordinator
  | _ => none

/-- The first answer of the event processor. -/
def processed (t : RelayHistory) : Option (Except Error (List StoreCommand)) :=
  t.findSome? Asked.processed?

/-- The connection was not set up. -/
def CoordinatorMissing (t : RelayHistory) : Prop := t.findSome? Asked.coordinator? = some none

/-- Exactly one OK message was put into the channel. It is for the event, and if it says that the
event was accepted, the event was saved. -/
def AnsweredOnce (channel : ChannelRef) (event : Event) (t : RelayHistory) : Prop :=
  ∃ status, okMessages channel t = [(event.id, status)] ∧
    (status = true → ∃ saved ∈ savedEvents t, saved.1.id = event.id)

/-- An error of an event processor that refuses the event with an OK message, rather than being
sent as a notice, for a subscription, or for another event. -/
def Error.Refuses (id : EventId) : Error → Prop
  | .notice _ | .subscriptionError _ _ => False
  | .eventError _ eventId => eventId = id
  | _ => True

/-- The first `SaveSignedEvent` among the commands is for the event, and no later one has a sender
of the channel. -/
def SavesOnly (channel : ChannelRef) (event : Event) (commands : List StoreCommand) : Prop :=
  ∃ before saved after, FirstSave commands before saved after ∧ saved.id = event.id ∧
    after.flatMap (StoreCommand.answers channel) = []

/-- When an event is due exactly one answer. -/
def AnswerDue (channel : ChannelRef) (event : Event) (t : RelayHistory) : Prop :=
  match processed t with
  | none => False
  | some (.error e) => e.Refuses event.id
  | some (.ok commands) => CoordinatorMissing t ∨
    ((∀ command ∈ commands, command.isSaveSignedEvent = false) ∧ ServiceFailed t) ∨
    SavesOnly channel event commands

/-- A service failed a command of a list that has a `SaveSignedEvent`. -/
def SaveListFailed (t : RelayHistory) : Prop :=
  ServiceFailed t ∧ ∃ commands, processed t = some (.ok commands) ∧
    ¬ ∀ command ∈ commands, command.isSaveSignedEvent = false

def ClientMessage.IsEvent (message : ClientMessage) : Prop := ∃ event, message = .event event

variable {channel}

theorem answeredOnce_refused {event : Event}
    (h : okMessages channel t = [(event.id, false)]) : AnsweredOnce channel event t :=
  ⟨false, h, fun h => nomatch h⟩

/-- The answer to an error that refuses the event. -/
theorem errorMessage_refuses {e : Error} {id : EventId} (h : e.Refuses id) :
    ∃ text, ErrorHandlingMiddleware.errorMessage (.event id) e = .ok id false text := by
  cases e with
  | notice | subscriptionError => exact h.elim
  | eventError message eventId => exact ⟨_, by rw [← show eventId = id from h]; rfl⟩
  | _ => exact ⟨_, rfl⟩

/-- Any other error is not answered with an OK message for the event. -/
theorem errorMessage_of_not_refuses {e : Error} {id : EventId} (h : ¬ e.Refuses id)
    (status : Bool) (text : String) :
    ErrorHandlingMiddleware.errorMessage (.event id) e ≠ .ok id status text := by
  cases e with
  | notice | subscriptionError => exact fun heq => nomatch heq
  | eventError message eventId =>
    intro heq
    injection heq with hid
    exact h hid
  | _ => exact absurd trivial h

/-- What is in the channel. -/
theorem mem_okMessages {id : EventId} {status : Bool} : (id, status) ∈ okMessages channel t ↔
    ∃ text position json, (⟨.trySend channel ⟨.ok id status text, position, json⟩, .ok ()⟩ : Asked) ∈
      t := by
  refine List.mem_filterMap.trans ⟨fun ⟨⟨call, r⟩, hasked, heq⟩ => ?_,
    fun ⟨text, position, json, hasked⟩ => ⟨_, hasked, if_pos rfl⟩⟩
  cases call with
  | trySend ch packet =>
    obtain ⟨message, position, json⟩ := packet
    cases message with
    | ok id' status' text =>
      cases r with
      | error e => cases heq
      | ok _ =>
        simp only [Asked.okMessage?, Option.ite_none_right_eq_some, Option.some.injEq,
          Prod.mk.injEq] at heq
        obtain ⟨rfl, rfl, rfl⟩ := heq
        exact ⟨text, position, json, hasked⟩
    | _ => cases r <;> cases heq
  | _ => cases heq

/-- An error that refuses the event adds one OK message. -/
theorem answer_refuses {e : Error} {id : EventId} (h : e.Refuses id) (position : ℕ) :
    (ErrorHandlingMiddleware.answer ⟨channel, position⟩ (.event id) (.error e)).Ensures
      fun t _ => Answers channel [(id, false)] False t := by
  obtain ⟨text, htext⟩ := errorMessage_refuses h
  refine ensures_bind.mpr ((answers_sendOk channel ⟨channel, position⟩ _ htext).mono
    fun t _ ht => ensures_done.mpr ?_)
  rw [List.append_nil]
  exact ht.congr (if_pos rfl) Iff.rfl

/-- Any other error adds no OK message with the id of the event. -/
theorem answer_of_not_refuses {e : Error} {id : EventId} (h : ¬ e.Refuses id) (position : ℕ) :
    (ErrorHandlingMiddleware.answer ⟨channel, position⟩ (.event id) (.error e)).Ensures
      fun t _ => ∀ ok ∈ okMessages channel t, ok.1 ≠ id := by
  refine ensures_bind.mpr (ensures_request_bind.mpr fun r => ensures_done.mpr
    (ensures_done.mpr ?_))
  rintro ⟨_, status⟩ hok rfl
  obtain ⟨text, position', json, hasked⟩ := mem_okMessages.mp hok
  obtain ⟨hcall, -⟩ := Sigma.mk.inj (List.mem_singleton.mp hasked)
  injection hcall with _ hpacket
  exact errorMessage_of_not_refuses h status text (congrArg Packet.message hpacket).symm

/-- The histories of `handle_event`: the processor fails, or there is no coordinator, or the
commands are executed. -/
theorem runs_handleEvent {kinds : KindRanges} {sender : MessageSender} {event : Event}
    {r : Except Error Unit} (hrun : Runs (RelayMiddleware.handleEvent kinds sender event) t r) :
    (∃ context e, r = .error e ∧
      t = [⟨.eventContext, context⟩, ⟨.handleEvent event context, .error e⟩]) ∨
    (∃ context commands, r = .error (.internal "No subscription coordinator available") ∧
      t = [⟨.eventContext, context⟩, ⟨.handleEvent event context, .ok commands⟩,
        ⟨.subscriptionCoordinator, none⟩]) ∨
    ∃ context commands coordinator t', Runs (RelayMiddleware.executeAll kinds sender commands) t' r ∧
      t = ⟨.eventContext, context⟩ :: ⟨.handleEvent event context, .ok commands⟩ ::
        ⟨.subscriptionCoordinator, some coordinator⟩ :: t' := by
  obtain ⟨context, _, rfl, h₁⟩ := runs_ask.mp hrun
  obtain ⟨answer, _, rfl, h₂⟩ := runs_ask.mp h₁
  cases answer with
  | error e =>
    obtain ⟨rfl, rfl⟩ := runs_done.mp h₂
    exact .inl ⟨context, e, rfl, rfl⟩
  | ok commands =>
    obtain ⟨coordinator, t', rfl, h₃⟩ := runs_ask.mp h₂
    cases coordinator with
    | none =>
      obtain ⟨rfl, rfl⟩ := runs_done.mp h₃
      exact .inr (.inl ⟨context, commands, rfl, rfl⟩)
    | some coordinator => exact .inr (.inr ⟨context, commands, coordinator, t', h₃, rfl⟩)

/-- The commands are executed, and a failure is answered. -/
theorem answeredOnce_iff_executed {kinds : KindRanges} {event : Event}
    {commands : List StoreCommand} {sender sender' : MessageSender} {result : Except Error Unit}
    {r : Except Failure Unit} {full : RelayHistory}
    (h₁ : Runs (RelayMiddleware.executeAll kinds sender commands) t result)
    (h₂ : Runs (ErrorHandlingMiddleware.answer sender' (.event event.id) result) t' r)
    (hsender : sender.channel = channel) (hsender' : sender'.channel = channel)
    (hprocessed : processed full = some (.ok commands)) (hfound : ¬ CoordinatorMissing full)
    (hfull : ∀ asked ∈ t ++ t', asked ∈ full)
    (hoks : okMessages channel full = okMessages channel (t ++ t'))
    (hfailed : ServiceFailed full ↔ ServiceFailed (t ++ t'))
    (hroom : Room channel full) (hslip : ¬ SaveListFailed full) :
    AnsweredOnce channel event full ↔ AnswerDue channel event full := by
  have hroom' : Room channel (t ++ t') := fun packet r hr => hroom packet r (hfull _ hr)
  obtain ⟨hfails, htext, hnone, hsave⟩ := executeAll_answers channel kinds sender hsender commands
    t result h₁
  have hanswer : Answers channel (if result.isOk then [] else [(event.id, false)]) False t' := by
    cases result with
    | ok _ =>
      obtain ⟨rfl, -⟩ := runs_done.mp h₂
      exact .nil
    | error e =>
      obtain ⟨text, rfl⟩ := htext e rfl
      obtain ⟨ch, position⟩ := sender'
      subst hsender'
      exact answer_refuses (e := .database text) trivial position t' r h₂
  have hservice : ServiceFailed full ↔ result.isOk = false := by
    rw [hfailed, serviceFailed_append, hanswer.failed, or_false, hfails]
  have hdue : AnswerDue channel event full ↔
      ((∀ command ∈ commands, command.isSaveSignedEvent = false) ∧ result.isOk = false) ∨
        SavesOnly channel event commands := by
    rw [AnswerDue, hprocessed]
    simp only [hfound, false_or, hservice]
  rw [hdue, AnsweredOnce, hoks, okMessages_append, hanswer.oks hroom'.append.2]
  by_cases hnosave : ∀ command ∈ commands, command.isSaveSignedEvent = false
  · -- nobody answers but `ErrorHandlingMiddleware`
    have honly : ¬ SavesOnly channel event commands := by
      rintro ⟨before, saved, after, ⟨_, _, _⟩, -⟩
      cases hnosave _ (List.mem_append_right _ (List.mem_cons_self ..))
    rw [hnone hroom'.append.1 hnosave]
    cases result with
    | ok _ => simp [honly]
    | error e =>
      refine iff_of_true ⟨false, rfl, fun h => nomatch h⟩ (.inl ⟨hnosave, rfl⟩)
  · -- no service failed, so the commands answer for themselves
    have hok : result.isOk = true := by
      by_contra h
      exact hslip ⟨hservice.mpr (Bool.not_eq_true _ ▸ h), commands, hprocessed, hnosave⟩
    obtain h | ⟨before, saved, after, hfirst⟩ := firstSave_or commands
    · exact absurd h hnosave
    obtain ⟨⟨scope, hsaved⟩, others, hperm, hoks'⟩ :=
      hsave hroom'.append.1 hok before saved after hfirst
    have honly : SavesOnly channel event commands ↔ saved.id = event.id ∧ others = [] := by
      refine ⟨fun ⟨_, _, _, hfirst', hid, hafter⟩ => ?_, fun ⟨hid, hothers⟩ =>
        ⟨before, saved, after, hfirst, hid, ?_⟩⟩
      · obtain ⟨rfl, rfl⟩ := hfirst.unique hfirst'
        exact ⟨hid, (hafter ▸ hperm).eq_nil⟩
      · exact (hothers ▸ hperm).symm.eq_nil
    have hmem : (saved, scope) ∈ savedEvents full :=
      (List.mem_filterMap.mp hsaved).elim fun asked h => List.mem_filterMap.mpr
        ⟨asked, hfull _ (List.mem_append_left _ h.1), h.2⟩
    rw [hoks', hok, if_pos rfl, List.append_nil, honly]
    refine ⟨fun ⟨status, h, _⟩ => .inr ?_, fun h => ?_⟩
    · obtain ⟨⟨hid, -⟩, hothers⟩ := by simpa using h
      exact ⟨hid, hothers⟩
    · obtain ⟨hid, rfl⟩ := h.resolve_left fun h => hnosave h.1
      exact ⟨true, by rw [hid, List.map_nil], fun _ => ⟨_, hmem, hid⟩⟩

section Chain

variable {outer between inside : List InboundMiddleware}

/-- **When an event is answered exactly once.** A chain with `ErrorHandlingMiddleware` outside
`RelayMiddleware`, whose other middlewares hand events on, puts exactly one OK message into a
channel with room for it, for the event and true only if the event was saved, exactly if the
processor refused the event, or the connection was not set up, or there was no `SaveSignedEvent`
and a command failed, or the first `SaveSignedEvent` is for the event and is the only one that
answers. Lists with a `SaveSignedEvent` and a service that fails are left out. -/
theorem answeredOnce_iff (kinds : KindRanges) (subdomain : Scope)
    (ho : ∀ m ∈ outer, HandsOn ClientMessage.IsEvent m)
    (hb : ∀ m ∈ between, HandsOn ClientMessage.IsEvent m)
    (hi : ∀ m ∈ inside, HandsOn ClientMessage.IsEvent m) (event : Event)
    {t : RelayHistory} {r : Except Failure Unit}
    (hrun : Runs (processInboundChain channel subdomain
      (outer ++ ErrorHandlingMiddleware.processInbound ::
        (between ++ RelayMiddleware.processInbound kinds :: inside)) (some (.event event))) t r)
    (hroom : Room channel t) (hslip : ¬ SaveListFailed t) :
    AnsweredOnce channel event t ↔ AnswerDue channel event t := by
  rw [processInboundChain_answer channel subdomain ho hb hi ⟨event, rfl⟩ rfl
    (p := fun sender => RelayMiddleware.handleEvent kinds sender event) fun _ _ => rfl] at hrun
  obtain ⟨t₁, result, t₂, rfl, h₁, h₂⟩ := runs_bind.mp hrun
  obtain ⟨context, e, rfl, rfl⟩ | ⟨context, commands, rfl, rfl⟩ |
    ⟨context, commands, coordinator, t', hexecuted, rfl⟩ := runs_handleEvent h₁
  · have hdue : AnswerDue channel event ([⟨.eventContext, context⟩,
        ⟨.handleEvent event context, .error e⟩] ++ t₂) ↔ e.Refuses event.id := Iff.rfl
    rw [hdue]
    have hoks : okMessages channel ([⟨.eventContext, context⟩,
        ⟨.handleEvent event context, .error e⟩] ++ t₂) = okMessages channel t₂ := rfl
    refine ⟨fun ⟨status, h, _⟩ => ?_, fun h => ?_⟩
    · by_contra hno
      refine answer_of_not_refuses hno _ t₂ r h₂ (event.id, status) ?_ rfl
      rw [← hoks, h]
      exact List.mem_singleton_self _
    · exact answeredOnce_refused (hoks.trans ((answer_refuses h _ t₂ r h₂).oks hroom.append.2))
  · have hanswers := (answer_refuses (e := .internal _) trivial _ t₂ r h₂).oks hroom.append.2
    exact iff_of_true (answeredOnce_refused hanswers) (.inl rfl)
  · refine answeredOnce_iff_executed hexecuted h₂ rfl rfl rfl (fun h => nomatch h)
      (fun asked h => by simp [h]) rfl ?_ hroom hslip
    simp [Asked.Failed]

end Chain

/-- What a chain of five middlewares does with a note, if all services work. -/
def noteHistory : RelayHistory :=
  (under RelayCall.succeed (processInboundChain 0 .default
    ([passOn] ++ ErrorHandlingMiddleware.processInbound ::
      ([passOn] ++ RelayMiddleware.processInbound .nip01 :: [passOn]))
    (some (.event (Event.note 5))))).1

theorem note_answeredOnce : AnsweredOnce 0 (Event.note 5) noteHistory := by
  have hpass : ∀ m ∈ [passOn], HandsOn ClientMessage.IsEvent m := fun m hm => by
    rw [List.mem_singleton.mp hm]
    exact handsOn_passOn _
  have hroom : Room 0 noteHistory := fun packet r hr => mem_under hr
  have hfailed : ¬ SaveListFailed noteHistory := by
    rintro ⟨⟨⟨call, r⟩, hasked, hfailed⟩, -⟩
    obtain rfl := mem_under hasked
    cases call <;> exact hfailed
  refine (answeredOnce_iff .nip01 .default hpass hpass hpass (Event.note 5)
    (runs_under RelayCall.succeed _) hroom hfailed).mpr (.inr (.inr ?_))
  exact ⟨[], Event.note 5, [], .head .., rfl, rfl⟩

/-- The processor reports an error as a notice, and there is no OK message. -/
theorem notice_not_answered :
    ¬ ∀ event t r, Runs (processInboundChain 0 .default
        [ErrorHandlingMiddleware.processInbound, RelayMiddleware.processInbound .nip01]
        (some (.event event))) t r → Room 0 t → AnsweredOnce 0 event t := by
  intro h
  obtain ⟨status, hoks, -⟩ := h (Event.note 5)
    [⟨.eventContext, ⟨none, .default, 0⟩⟩,
      ⟨.handleEvent (Event.note 5) ⟨none, .default, 0⟩, .error (.notice "closed for today")⟩,
      ⟨.trySend 0 ⟨.notice "closed for today", 1, none⟩, .ok ()⟩] (.ok ())
    (.ask _ (.ask _ (.ask _ (.done _)))) (fun packet r hr => (by simpa using hr : _ ∧ _).2)
  cases hoks

end RelayBuilder
