import RelayBuilder.Interleave.Exec
import RelayBuilder.RelayMiddleware
import RelayBuilder.RegistryRuns
import Mathlib.Data.Finset.Card

/-!
# How a REQ ends

A REQ passes five steps that may fail: its filters are checked, a quota slot is reserved, the
stored events are fetched, EOSE is sent, and the subscription is registered. `ReqRun` lists the
ways through them, on the part of the state that they change. What the client is told is counted
in the histories: `enqueued` are the messages that a channel took.

## Main definitions

* `SubscriptionState`, and its `answers`
* `EndsConsistently`, `EndsWell`

## Main results

* `endsConsistently_iff`: a REQ ends consistently exactly if the services answer so that none of
  the steps that come too early has to be undone
-/

namespace RelayBuilder

open Interleave Script

/-! ### The state -/

/-- The subscriptions of a connection: the slots of its quota, and what the registry holds for each
connection that is registered. -/
structure SubscriptionState where
  quota : Finset SubscriptionId
  maxSubscriptions : Option ℕ
  coordinator : Option SubscriptionCoordinator
  registered : ConnectionId → Option (AList fun _ : SubscriptionId => List Filter)

namespace SubscriptionState

/-- The slot of a subscription is taken. -/
def reserve (s : SubscriptionState) (sub : SubscriptionId) : SubscriptionState :=
  { s with quota := insert sub s.quota }

/-- `reserve_quota_slot`. -/
def reserveQuotaSlot (s : SubscriptionState) (sub : SubscriptionId) :
    Except Error SubscriptionState :=
  if sub ∈ s.quota then .ok s
  else
    match s.maxSubscriptions with
    | some max =>
      if max ≤ s.quota.card then .error (.restricted
        ("Subscription quota exceeded: " ++ toString s.quota.card ++ "/" ++ toString max))
      else .ok (s.reserve sub)
    | none => .ok (s.reserve sub)

/-- The registry holds these subscriptions for a connection. -/
def setRegistered (s : SubscriptionState) (id : ConnectionId)
    (subscriptions : AList fun _ : SubscriptionId => List Filter) : SubscriptionState :=
  { s with registered := fun id' => if id' = id then some subscriptions else s.registered id' }

/-- What the questions do to the state. Whatever is not about it is answered anyhow. -/
def answers : Script.Answers RelayCall.Answer SubscriptionState
  | .reserveQuotaSlot sub, s, r, s' => match s.reserveQuotaSlot sub with
    | .ok s₁ => r = .ok () ∧ s' = s₁
    | .error e => r = .error e ∧ s' = s
  | .releaseQuotaSlot sub, s, r, s' =>
    r = decide (sub ∈ s.quota) ∧ s' = { s with quota := s.quota.erase sub }
  | .subscriptionCoordinator, s, r, s' => r = s.coordinator ∧ s' = s
  | .addSubscription id sub filters, s, r, s' => match s.registered id with
    | some subscriptions =>
      r = .ok () ∧ s' = s.setRegistered id (subscriptions.insert sub filters)
    | none => r = .error (.internal "Connection not found") ∧ s' = s
  | .removeSubscription id sub, s, r, s' => match s.registered id with
    | some subscriptions => r = .ok () ∧ s' = s.setRegistered id (subscriptions.erase sub)
    | none => r = .error (.internal "Connection not found") ∧ s' = s
  | _, s, _, s' => s' = s

variable {s : SubscriptionState} {registry registry' : SubscriptionRegistry}
  {H : ScopedKey → Option (List Filter)}

/-- The registry holds what the state says. -/
def Of (s : SubscriptionState) (registry : SubscriptionRegistry) : Prop :=
  ∀ id, s.registered id = (registry.connection? id).map ConnectionSubscriptions.subscriptions

theorem Of.setRegistered (h : s.Of registry) {id : ConnectionId} {conn : ConnRef}
    {data : ConnectionSubscriptions} (hwf : registry.WellFormed)
    (hconn : registry.connections.lookup id = some conn)
    (hdata : registry.conns conn = some data) {f : (AList fun _ : SubscriptionId => List Filter) →
      AList fun _ : SubscriptionId => List Filter}
    (hsame : (registry.setSubscriptions conn f).SameConnections registry') :
    (s.setRegistered id (f data.subscriptions)).Of registry' := by
  intro id'
  rw [hsame.connection?, SubscriptionRegistry.connection?_setSubscriptions hwf hconn hdata]
  by_cases hid : id' = id
  · rw [if_pos hid]
    exact if_pos hid
  · rw [if_neg hid]
    exact (if_neg hid).trans (h id')

theorem Of.registered_none (h : s.Of registry) {id : ConnectionId}
    (hconn : registry.connections.lookup id = none) : s.registered id = none := by
  simp [h id, SubscriptionRegistry.connection?, hconn]

theorem Of.registered_some (h : s.Of registry) {id : ConnectionId} {conn : ConnRef}
    {data : ConnectionSubscriptions} (hconn : registry.connections.lookup id = some conn)
    (hdata : registry.conns conn = some data) : s.registered id = some data.subscriptions := by
  simp [h id, SubscriptionRegistry.connection?, hconn, hdata]

/-- The registry answers as it is said here, when its methods run alone. -/
theorem addSubscription_answers (h : SubscriptionRegistry.Settled H registry)
    (hs : s.Of registry) (id : ConnectionId) (sub : SubscriptionId) (filters : List Filter) :
    (SubscriptionRegistry.addSubscription id sub filters).Alone SubscriptionRegistry.SameChannels
      (fun r registry' => ∃ s', answers (.addSubscription id sub filters) s r s' ∧
        s'.Of registry') registry := by
  cases hconn : registry.connections.lookup id with
  | none =>
    refine (SubscriptionRegistry.addSubscription_alone_none hconn sub filters).post ?_
    rintro _ _ ⟨rfl, rfl⟩
    refine ⟨s, ?_, hs⟩
    simp [answers, hs.registered_none hconn]
  | some conn =>
    obtain ⟨-, data, hdata⟩ := h.wellFormed.current id conn hconn
    refine (SubscriptionRegistry.addSubscription_alone h.live h.idle hconn hdata sub filters).post ?_
    rintro _ registry' ⟨rfl, hsame, -⟩
    refine ⟨_, ?_, hs.setRegistered h.wellFormed hconn hdata hsame⟩
    simp [answers, hs.registered_some hconn hdata]

/-- The same for `remove_subscription`. -/
theorem removeSubscription_answers (h : SubscriptionRegistry.Settled H registry)
    (hs : s.Of registry) (order : HashOrder) (id : ConnectionId) (sub : SubscriptionId) :
    (SubscriptionRegistry.removeSubscription order id sub).Alone SubscriptionRegistry.SameChannels
      (fun r registry' => ∃ s', answers (.removeSubscription id sub) s r s' ∧
        s'.Of registry') registry := by
  cases hconn : registry.connections.lookup id with
  | none =>
    refine (SubscriptionRegistry.removeSubscription_alone_none hconn sub).post ?_
    rintro _ _ ⟨rfl, rfl⟩
    refine ⟨s, ?_, hs⟩
    simp [answers, hs.registered_none hconn]
  | some conn =>
    obtain ⟨-, data, hdata⟩ := h.wellFormed.current id conn hconn
    refine (SubscriptionRegistry.removeSubscription_alone h.live h.idle order hconn hdata sub).post ?_
    rintro _ registry' ⟨rfl, hsame, -⟩
    refine ⟨_, ?_, hs.setRegistered h.wellFormed hconn hdata hsame⟩
    simp [answers, hs.registered_some hconn hdata]

end SubscriptionState

/-! ### Histories -/

/-- A message that a channel took. -/
def Asked.enqueued? : Asked → Option RelayMessage
  | ⟨.trySend _ packet, .ok _⟩ => some packet.message
  | _ => none

/-- A message that a channel did not take. -/
def Asked.refused? : Asked → Option RelayMessage
  | ⟨.trySend _ packet, .error _⟩ => some packet.message
  | _ => none

/-- The store did not answer a query. An index that names an event that is not there is no
failure. -/
def Asked.QueryFailed : Asked → Prop
  | ⟨.scopedView _, .error _⟩ => True
  | ⟨.query _ _, .error (.backend text)⟩ => RelayDatabase.isNotFound text = false
  | ⟨.query _ _, .error .notSupported⟩ => True
  | _ => False

def enqueued (t : RelayHistory) : List RelayMessage := t.filterMap Asked.enqueued?

def refused (t : RelayHistory) : List RelayMessage := t.filterMap Asked.refused?

def QueryFailed (t : RelayHistory) : Prop := ∃ asked ∈ t, Asked.QueryFailed asked

variable {t t' : RelayHistory} {asked : Asked}

@[simp] theorem enqueued_nil : enqueued [] = [] := rfl

@[simp] theorem refused_nil : refused [] = [] := rfl

@[simp] theorem not_queryFailed_nil : ¬ QueryFailed [] := fun ⟨_, h, _⟩ => nomatch h

@[simp] theorem enqueued_cons :
    enqueued (asked :: t) = asked.enqueued?.toList ++ enqueued t := by
  rw [enqueued, List.filterMap_cons]
  cases asked.enqueued? <;> rfl

@[simp] theorem refused_cons : refused (asked :: t) = asked.refused?.toList ++ refused t := by
  rw [refused, List.filterMap_cons]
  cases asked.refused? <;> rfl

@[simp] theorem queryFailed_cons : QueryFailed (asked :: t) ↔ asked.QueryFailed ∨ QueryFailed t := by
  simp [QueryFailed]

@[simp] theorem enqueued_append : enqueued (t ++ t') = enqueued t ++ enqueued t' :=
  List.filterMap_append

@[simp] theorem refused_append : refused (t ++ t') = refused t ++ refused t' :=
  List.filterMap_append

@[simp] theorem queryFailed_append : QueryFailed (t ++ t') ↔ QueryFailed t ∨ QueryFailed t' := by
  simp [QueryFailed, or_and_right, exists_or]

theorem mem_enqueued {message : RelayMessage} : message ∈ enqueued t ↔
    ∃ ch packet, (⟨.trySend ch packet, .ok ()⟩ : Asked) ∈ t ∧ packet.message = message := by
  refine List.mem_filterMap.trans ⟨fun ⟨⟨call, r⟩, hasked, heq⟩ => ?_,
    fun ⟨ch, packet, hasked, heq⟩ => ⟨_, hasked, congrArg some heq⟩⟩
  cases call with
  | trySend ch packet =>
    cases r with
    | ok _ => exact ⟨ch, packet, hasked, Option.some.inj heq⟩
    | error e => cases heq
  | _ => cases heq

theorem mem_refused {message : RelayMessage} : message ∈ refused t ↔
    ∃ ch packet e, (⟨.trySend ch packet, .error e⟩ : Asked) ∈ t ∧ packet.message = message := by
  refine List.mem_filterMap.trans ⟨fun ⟨⟨call, r⟩, hasked, heq⟩ => ?_,
    fun ⟨ch, packet, e, hasked, heq⟩ => ⟨_, hasked, congrArg some heq⟩⟩
  cases call with
  | trySend ch packet =>
    cases r with
    | ok _ => cases heq
    | error e => exact ⟨ch, packet, e, hasked, Option.some.inj heq⟩
  | _ => cases heq

/-! ### Fetching the stored events -/

/-- What is asked while the stored events are fetched. Only EVENT messages are sent meanwhile. -/
def Asked.Fetches : Asked → Prop
  | ⟨.scopedView _, _⟩ | ⟨.query _ _, _⟩ | ⟨.extend _ _, _⟩ | ⟨.eventContext, _⟩
  | ⟨.canSeeEvent _ _, _⟩ | ⟨.debugText _, _⟩ => True
  | ⟨.trySend _ ⟨.event _ _, _, _⟩, _⟩ => True
  | _ => False

/-- Nothing but the stored events was asked for, and the store failed exactly if `failed`. -/
abbrev Fetched (failed : Prop) (t : RelayHistory) : Prop :=
  Steps Asked.Fetches Asked.QueryFailed failed t

theorem Fetched.queryFailed {failed : Prop} (h : Fetched failed t) : QueryFailed t ↔ failed :=
  h.failed

/-- A script that only fetches, and whose result says whether the store failed. -/
abbrev FetchesOnly {α : Type} (F : α → Prop) (p : Relay α) : Prop :=
  StepsOnly Asked.Fetches Asked.QueryFailed F p

theorem fetchesOnly_queryAll (scope : Scope) (filters : List Filter) (all : Events) :
    FetchesOnly (fun r => r.isOk = false) (RelayDatabase.queryAll scope filters all) := by
  induction filters generalizing all with
  | nil => exact stepsOnly_done (by simp)
  | cons filter filters ih =>
    refine ensures_request_bind.mpr fun r => ?_
    match r with
    | .ok events =>
      refine ensures_request_bind.mpr fun all => (ih all).mono fun _ _ h => ?_
      exact .cons (.cons h trivial (or_iff_right id)) trivial (or_iff_right id)
    | .error .notSupported =>
      exact ensures_done.mpr (Steps.nil.cons trivial (by simp [Asked.QueryFailed]))
    | .error (.backend text) =>
      dsimp only
      split
      · rename_i hfound
        exact (ih _).mono fun _ _ h => h.cons trivial (by simp [Asked.QueryFailed, hfound])
      · rename_i hfound
        exact ensures_done.mpr (Steps.nil.cons trivial (by simp [Asked.QueryFailed, hfound]))

theorem fetchesOnly_query (filters : List Filter) (scope : Scope) :
    FetchesOnly (fun r => r.isOk = false) (RelayDatabase.query filters scope) := by
  refine ensures_request_bind.mpr fun view => ?_
  cases view with
  | error e => exact ensures_done.mpr (Steps.nil.cons trivial (by simp [Asked.QueryFailed]))
  | ok _ =>
    exact (fetchesOnly_queryAll scope filters []).mono fun _ _ h => h.cons trivial (or_iff_right id)

theorem fetchesOnly_filterFn (event : Event) :
    FetchesOnly (fun _ => False) (SubscriptionCoordinator.filterFn event) := by
  refine stepsOnly_request_bind (fun _ => trivial) (fun _ => id) fun context => ?_
  refine stepsOnly_request_bind (fun _ => trivial) (fun _ => id) fun r => ?_
  cases r with
  | ok visible => exact stepsOnly_done id
  | error e => exact stepsOnly_done id

theorem fetchesOnly_filterPage (paging : SubscriptionCoordinator.Paging) (events kept : Events) :
    FetchesOnly (fun _ => False) (SubscriptionCoordinator.filterPage paging events kept) := by
  induction events generalizing paging kept with
  | nil => exact stepsOnly_done id
  | cons event events ih =>
    rw [SubscriptionCoordinator.filterPage]
    split
    · exact ih _ _
    · exact stepsOnly_bind (fetchesOnly_filterFn event) fun visible => ih _ _

theorem fetchesOnly_sendPage (sender : MessageSender) (sub : SubscriptionId) (limit : ℕ)
    (paging : SubscriptionCoordinator.Paging) (events : Events) :
    FetchesOnly (fun _ => False)
      (SubscriptionCoordinator.sendPage sender sub limit paging events) := by
  induction events generalizing paging with
  | nil => exact stepsOnly_done id
  | cons event events ih =>
    rw [SubscriptionCoordinator.sendPage]
    split
    · exact stepsOnly_done id
    · refine stepsOnly_bind ?_ fun _ => ih _
      refine stepsOnly_bind ?_ fun _ => stepsOnly_done id
      exact ensures_ask.mpr fun r => ensures_done.mpr
        (Steps.nil.cons trivial (or_iff_right (by cases r <;> exact id)))

theorem fetchesOnly_processFilter (coordinator : SubscriptionCoordinator) (sub : SubscriptionId)
    (scope : Scope) (limit : ℕ) (filter : Filter) (attempts : ℕ)
    (paging : SubscriptionCoordinator.Paging) :
    FetchesOnly (fun r => r.isOk = false)
      (coordinator.processFilter sub scope limit filter attempts paging) := by
  induction attempts generalizing filter paging with
  | zero => exact stepsOnly_done (by simp)
  | succ attempts ih =>
    refine ensures_bind.mpr ((fetchesOnly_query [filter] scope).mono fun t r h => ?_)
    match r with
    | .error e =>
      refine ensures_request_bind.mpr fun text => ensures_done.mpr ?_
      have hdebug : Fetched False [⟨.debugText (.error e), text⟩] :=
        Steps.nil.cons trivial (or_iff_right id)
      exact (h.append hdebug).congr (by simp)
    | .ok [] => exact ensures_done.mpr (by simpa using h)
    | .ok (event :: events) =>
      refine Ensures.mono (?_ : FetchesOnly (fun r : Except Error _ => r.isOk = false) _)
        fun t' r h' => (h.append h').congr (by simp)
      refine stepsOnly_bind (fetchesOnly_filterPage _ _ _) fun kept => ?_
      refine stepsOnly_bind (fetchesOnly_sendPage _ _ _ _ _) fun paging => ?_
      split
      · exact stepsOnly_done (by simp)
      · split
        · exact stepsOnly_done (by simp)
        · exact ih _ _

theorem fetchesOnly_processFilters (coordinator : SubscriptionCoordinator) (sub : SubscriptionId)
    (scope : Scope) (limit : ℕ) (filters : List Filter) (sent : List EventId) :
    FetchesOnly (fun r => r.isOk = false)
      (coordinator.processFilters sub scope limit filters sent) := by
  induction filters generalizing sent with
  | nil => exact stepsOnly_done (by simp)
  | cons filter filters ih =>
    exact stepsOnly_andThen (fetchesOnly_processFilter _ _ _ _ _ _ _) fun _ => ih _

/-- The only error is a notice. -/
def FailsWithNotice {α : Type} (p : Relay (Except Error α)) : Prop :=
  p.Ensures fun _ r => ∀ e, r = .error e → ∃ text, e = .notice text

theorem failsWithNotice_andThen {α β : Type} {p : Relay (Except Error α)}
    {k : α → Relay (Except Error β)} (hp : FailsWithNotice p) (hk : ∀ a, FailsWithNotice (k a)) :
    FailsWithNotice (p.andThen k) := by
  refine ensures_bind.mpr (hp.mono fun t r h => ?_)
  cases r with
  | ok a => exact hk a
  | error e =>
    obtain ⟨text, rfl⟩ := h e rfl
    exact ensures_done.mpr fun e' he' => ⟨text, (Except.error.inj he').symm⟩

theorem failsWithNotice_ok {α : Type} (a : α) :
    FailsWithNotice (Script.done (.ok a) : Relay (Except Error α)) :=
  ensures_done.mpr fun _ h => nomatch h

theorem failsWithNotice_processFilter (coordinator : SubscriptionCoordinator)
    (sub : SubscriptionId) (scope : Scope) (limit : ℕ) (filter : Filter) (attempts : ℕ)
    (paging : SubscriptionCoordinator.Paging) :
    FailsWithNotice (coordinator.processFilter sub scope limit filter attempts paging) := by
  induction attempts generalizing filter paging with
  | zero => exact failsWithNotice_ok _
  | succ attempts ih =>
    refine ensures_bind.mpr fun t r _ => ?_
    match r with
    | .error e =>
      exact ensures_request_bind.mpr fun text => ensures_done.mpr fun e he =>
        ⟨_, (Except.error.inj he).symm⟩
    | .ok [] => exact failsWithNotice_ok _
    | .ok (event :: events) =>
      refine ensures_bind.mpr fun t kept _ => ensures_bind.mpr fun t paging _ => ?_
      dsimp only
      split
      · exact failsWithNotice_ok _
      · split
        · exact failsWithNotice_ok _
        · exact ih _ _

theorem failsWithNotice_processFilters (coordinator : SubscriptionCoordinator)
    (sub : SubscriptionId) (scope : Scope) (limit : ℕ) (filters : List Filter)
    (sent : List EventId) :
    FailsWithNotice (coordinator.processFilters sub scope limit filters sent) := by
  induction filters generalizing sent with
  | nil => exact failsWithNotice_ok _
  | cons filter filters ih =>
    exact failsWithNotice_andThen (failsWithNotice_processFilter _ _ _ _ _ _ _) fun _ => ih _

/-! ### The ways through a REQ -/

/-- The answers after which the slot of a subscription is reserved, and what follows. -/
abbrev reserved (sub : SubscriptionId) (filters : List Filter) (context : EventContext)
    (coordinator : Option SubscriptionCoordinator) (t : RelayHistory) : RelayHistory :=
  ⟨.eventContext, context⟩ :: ⟨.verifyFilters filters context, .ok ()⟩ ::
    ⟨.reserveQuotaSlot sub, .ok ()⟩ :: ⟨.subscriptionCoordinator, coordinator⟩ :: t

/-- What `handle_subscription` does: how it is answered, with which result, and which state it
leaves. -/
inductive ReqRun (sub : SubscriptionId) (filters : List Filter) (s : SubscriptionState) :
    RelayHistory → Except Error Unit → SubscriptionState → Prop where
  | rejected (context : EventContext) (e : Error) :
    ReqRun sub filters s [⟨.eventContext, context⟩, ⟨.verifyFilters filters context, .error e⟩]
      (.error e) s
  | overQuota (context : EventContext) (text : String) :
    ReqRun sub filters s [⟨.eventContext, context⟩, ⟨.verifyFilters filters context, .ok ()⟩,
      ⟨.reserveQuotaSlot sub, .error (.restricted text)⟩] (.error (.restricted text)) s
  | noCoordinator (context : EventContext) :
    ReqRun sub filters s (reserved sub filters context none [])
      (.error (.internal "No subscription coordinator available")) (s.reserve sub)
  | queryFailed (context : EventContext) (coordinator : SubscriptionCoordinator) {t : RelayHistory}
    (ht : Fetched True t) (text : String) :
    ReqRun sub filters s (reserved sub filters context (some coordinator) t)
      (.error (.notice text)) (s.reserve sub)
  | eoseRefused (context : EventContext) (coordinator : SubscriptionCoordinator) {t : RelayHistory}
    (ht : Fetched False t) (ch : ChannelRef) (packet : Packet)
    (hpacket : packet.message = .endOfStoredEvents sub) (e : Channel.TrySendError)
    (failure : Failure) (text : String) :
    ReqRun sub filters s (reserved sub filters context (some coordinator)
      (t ++ [⟨.trySend ch packet, .error e⟩, ⟨.debugText failure, text⟩]))
      (.error (.internal ("Failed to send EOSE: " ++ text))) (s.reserve sub)
  | notRegistered (context : EventContext) (coordinator : SubscriptionCoordinator)
    (hcoordinator : s.coordinator = some coordinator) {t : RelayHistory} (ht : Fetched False t)
    (ch : ChannelRef) (packet : Packet)
    (hpacket : packet.message = .endOfStoredEvents sub) (r : Except Error Unit)
    (hs : s.registered coordinator.connectionId = none) :
    ReqRun sub filters s (reserved sub filters context (some coordinator)
      (t ++ [⟨.trySend ch packet, .ok ()⟩, ⟨.removeSubscription coordinator.connectionId sub, r⟩,
        ⟨.addSubscription coordinator.connectionId sub filters,
          .error (.internal "Connection not found")⟩]))
      (.error (.internal "Connection not found")) (s.reserve sub)
  | registered (context : EventContext) (coordinator : SubscriptionCoordinator)
    (hcoordinator : s.coordinator = some coordinator) {t : RelayHistory} (ht : Fetched False t)
    (ch : ChannelRef) (packet : Packet) (hpacket : packet.message = .endOfStoredEvents sub)
    (r : Except Error Unit) (subscriptions : AList fun _ : SubscriptionId => List Filter)
    (hs : s.registered coordinator.connectionId = some subscriptions) :
    ReqRun sub filters s (reserved sub filters context (some coordinator)
      (t ++ [⟨.trySend ch packet, .ok ()⟩, ⟨.removeSubscription coordinator.connectionId sub, r⟩,
        ⟨.addSubscription coordinator.connectionId sub filters, .ok ()⟩])) (.ok ())
      (((s.reserve sub).setRegistered coordinator.connectionId (subscriptions.erase sub)).setRegistered
        coordinator.connectionId ((subscriptions.erase sub).insert sub filters))

section Exec

variable {s s' : SubscriptionState} {sub : SubscriptionId} {filters : List Filter}
  {coordinator : SubscriptionCoordinator} {scope : Scope}

/-- Fetching leaves the state alone. -/
theorem exec_fetches {α : Type} {p : Relay α} {a : α}
    (hexec : Exec SubscriptionState.answers p s t a s') (ht : ∀ asked ∈ t, Asked.Fetches asked) :
    s' = s := by
  induction hexec with
  | done a s => rfl
  | @ask q n s s₁ s₂ t a r hr _ ih =>
    rw [ih (List.forall_mem_cons.mp ht).2]
    have hq := (List.forall_mem_cons.mp ht).1
    cases q with
    | scopedView | query | extend | eventContext | canSeeEvent | debugText | trySend => exact hr
    | _ => exact hq.elim

/-- Reserving a slot. The set is the same when the slot was taken before. -/
theorem reserveQuotaSlot_eq (s : SubscriptionState) (sub : SubscriptionId) :
    s.reserveQuotaSlot sub = .ok (s.reserve sub) ∨
      ∃ text, s.reserveQuotaSlot sub = .error (.restricted text) := by
  rw [SubscriptionState.reserveQuotaSlot]
  split
  · rename_i hmem
    left
    rw [SubscriptionState.reserve, Finset.insert_eq_of_mem hmem]
  · split
    · split
      · exact .inr ⟨_, rfl⟩
      · exact .inl rfl
    · exact .inl rfl

/-- Sending a message leaves the state alone. -/
theorem exec_send {sender : MessageSender} {message : RelayMessage} {r : Except String Unit}
    (hexec : Exec SubscriptionState.answers (sender.send message) s t r s') :
    s' = s ∧ ∃ r₀, t = [⟨.trySend sender.channel (sender.packet message), r₀⟩] ∧
      r = r₀.mapError Channel.TrySendError.text := by
  obtain ⟨r₀, s₁, t₁, rfl, hs₁, h₁⟩ := exec_request_bind.mp hexec
  obtain ⟨rfl, rfl, rfl⟩ := exec_done.mp h₁
  exact ⟨hs₁, r₀, rfl, rfl⟩

/-- Registering the subscription, in place of the one that there may be. -/
theorem exec_addSubscription {r : Except Error Unit}
    (hexec : Exec SubscriptionState.answers (coordinator.addSubscription sub filters) s t r s') :
    ∃ r₀, t = [⟨.removeSubscription coordinator.connectionId sub, r₀⟩,
        ⟨.addSubscription coordinator.connectionId sub filters, r⟩] ∧
      match s.registered coordinator.connectionId with
      | some subscriptions => r = .ok () ∧
        s' = (s.setRegistered coordinator.connectionId (subscriptions.erase sub)).setRegistered
          coordinator.connectionId ((subscriptions.erase sub).insert sub filters)
      | none => r = .error (.internal "Connection not found") ∧ s' = s := by
  obtain ⟨r₀, s₁, t₁, rfl, h₀, h₁⟩ := exec_request_bind.mp hexec
  obtain ⟨r₁, s₂, t₂, rfl, h₁, h₂⟩ := exec_ask.mp h₁
  obtain ⟨rfl, rfl, rfl⟩ := exec_done.mp h₂
  refine ⟨r₀, rfl, ?_⟩
  simp only [SubscriptionState.answers] at h₀ h₁
  cases hs : s.registered coordinator.connectionId with
  | none =>
    rw [hs] at h₀
    obtain ⟨-, rfl⟩ := h₀
    rwa [hs] at h₁
  | some subscriptions =>
    rw [hs] at h₀
    obtain ⟨-, rfl⟩ := h₀
    simpa [SubscriptionState.setRegistered] using h₁

/-- The ways through `handle_req`, after the slot was reserved. -/
theorem exec_handleReq {context : EventContext} {r : Except Error Unit}
    (hcoordinator : s.coordinator = some coordinator)
    (hexec : Exec SubscriptionState.answers (coordinator.handleReq sub filters scope)
      (s.reserve sub) t r s') :
    ReqRun sub filters s (reserved sub filters context (some coordinator) t) r s' := by
  obtain ⟨t₁, r₁, s₁, t₂, rfl, h₁, h₂⟩ := exec_bind.mp hexec
  obtain ⟨t₃, r₃, s₃, t₄, rfl, h₃, h₄⟩ := exec_bind.mp h₁
  have hfetched := fetchesOnly_processFilters _ _ _ _ _ _ _ _ h₃.runs
  have hnotice := failsWithNotice_processFilters _ _ _ _ _ _ _ _ h₃.runs
  obtain rfl := exec_fetches h₃ hfetched.every
  cases r₃ with
  | error e =>
    obtain ⟨text, rfl⟩ := hnotice e rfl
    obtain ⟨rfl, rfl, rfl⟩ := exec_done.mp h₄
    obtain ⟨rfl, rfl, rfl⟩ := exec_done.mp h₂
    rw [List.append_nil, List.append_nil]
    exact .queryFailed context coordinator (hfetched.congr (by simp)) text
  | ok _ =>
    have hfetched := hfetched.congr (by simp : _ ↔ False)
    obtain ⟨t₅, r₅, s₅, t₆, rfl, h₅, h₆⟩ := exec_bind.mp h₄
    obtain ⟨rfl, r₀, rfl, rfl⟩ := exec_send h₅
    cases r₀ with
    | error e =>
      obtain ⟨text, s₇, t₇, rfl, rfl, h₇⟩ := exec_request_bind.mp h₆
      obtain ⟨rfl, rfl, rfl⟩ := exec_done.mp h₇
      obtain ⟨rfl, rfl, rfl⟩ := exec_done.mp h₂
      rw [List.append_nil]
      exact .eoseRefused context coordinator hfetched _ _ rfl e _ text
    | ok _ =>
      obtain ⟨rfl, rfl, rfl⟩ := exec_done.mp h₆
      obtain ⟨r₀, rfl, h⟩ := exec_addSubscription h₂
      rw [List.append_assoc]
      have hsame : (s.reserve sub).registered = s.registered := rfl
      rw [hsame] at h
      cases hs : s.registered coordinator.connectionId with
      | none =>
        rw [hs] at h
        obtain ⟨rfl, rfl⟩ := h
        exact .notRegistered context coordinator hcoordinator hfetched _ _ rfl r₀ hs
      | some subscriptions =>
        rw [hs] at h
        obtain ⟨rfl, rfl⟩ := h
        exact .registered context coordinator hcoordinator hfetched _ _ rfl r₀ subscriptions hs

/-- The ways through `handle_subscription`. -/
theorem exec_handleSubscription {r : Except Error Unit}
    (hexec : Exec SubscriptionState.answers
      (RelayMiddleware.handleSubscription scope sub filters) s t r s') :
    ReqRun sub filters s t r s' := by
  obtain ⟨context, s₁, t₁, rfl, rfl, h₁⟩ := exec_request_bind.mp hexec
  obtain ⟨r₂, s₂, t₂, rfl, rfl, h₂⟩ := exec_request_bind.mp h₁
  cases r₂ with
  | error e =>
    obtain ⟨rfl, rfl, rfl⟩ := exec_done.mp h₂
    exact .rejected context e
  | ok _ =>
    obtain ⟨r₃, s₃, t₃, rfl, hr₃, h₃⟩ := exec_request_bind.mp h₂
    simp only [SubscriptionState.answers] at hr₃
    obtain heq | ⟨text, heq⟩ := reserveQuotaSlot_eq s₂ sub
    · rw [heq] at hr₃
      obtain ⟨rfl, rfl⟩ := hr₃
      obtain ⟨r₄, s₄, t₄, rfl, ⟨hr₄, rfl⟩, h₄⟩ := exec_request_bind.mp h₃
      cases r₄ with
      | none =>
        obtain ⟨rfl, rfl, rfl⟩ := exec_done.mp h₄
        exact .noCoordinator context
      | some coordinator => exact exec_handleReq hr₄.symm h₄
    · rw [heq] at hr₃
      obtain ⟨rfl, rfl⟩ := hr₃
      obtain ⟨rfl, rfl, rfl⟩ := exec_done.mp h₃
      exact .overQuota context text

end Exec

/-! ### The end of a REQ -/

/-- The message tells the client that the subscription was refused. A NOTICE names no
subscription. -/
def RelayMessage.refuses (sub : SubscriptionId) : RelayMessage → Bool
  | .closed sub' _ => sub' == sub
  | .notice _ => true
  | _ => false

/-- The registry holds the subscription, with these filters. -/
def SubscriptionState.Registered (s : SubscriptionState) (sub : SubscriptionId)
    (filters : List Filter) : Prop :=
  ∃ coordinator, s.coordinator = some coordinator ∧
    ∃ subscriptions, s.registered coordinator.connectionId = some subscriptions ∧
      subscriptions.lookup sub = some filters

/-- Either EOSE was enqueued and the subscription is registered, or it was refused once, and
nothing has changed. -/
def EndsConsistently (sub : SubscriptionId) (filters : List Filter) (s : SubscriptionState)
    (t : RelayHistory) (s' : SubscriptionState) : Prop :=
  ((enqueued t).count (.endOfStoredEvents sub) = 1 ∧
    (enqueued t).countP (RelayMessage.refuses sub) = 0 ∧ s'.Registered sub filters) ∨
  ((enqueued t).count (.endOfStoredEvents sub) = 0 ∧
    (enqueued t).countP (RelayMessage.refuses sub) = 1 ∧ s'.registered = s.registered ∧
    s'.quota = s.quota)

/-- The error is answered with a refusal of this subscription: it is not about an event, and not
about another subscription. -/
def Error.Concerns (sub : SubscriptionId) : Error → Prop
  | .eventError _ _ => False
  | .subscriptionError _ sub' => sub' = sub
  | _ => True

/-- A step after the reservation of the slot fails. -/
def FailsReserved (sub : SubscriptionId) (t : RelayHistory) : Prop :=
  (⟨.subscriptionCoordinator, none⟩ : Asked) ∈ t ∨ QueryFailed t ∨
    .endOfStoredEvents sub ∈ refused t

/-- How the services answer when nothing has to be undone. The filters are rejected with an error
that concerns the subscription, a step after the reservation fails only if the slot was taken
before, the registry knows the connection, and the channel takes the refusal. -/
@[mk_iff endsWell_iff]
structure EndsWell (sub : SubscriptionId) (s : SubscriptionState) (t : RelayHistory) : Prop where
  verified : ∀ filters context e, (⟨.verifyFilters filters context, .error e⟩ : Asked) ∈ t →
    e.Concerns sub
  reserved : sub ∈ s.quota ∨ ¬ FailsReserved sub t
  registered : ∀ id filters e, (⟨.addSubscription id sub filters, .error e⟩ : Asked) ∉ t
  answered : ∀ message ∈ refused t, message.refuses sub = false

section Ends

variable {s s' : SubscriptionState} {sub : SubscriptionId} {filters : List Filter}

/-- What the answer to an error tells. -/
theorem refuses_errorMessage (sub : SubscriptionId) (e : Error) :
    (ErrorHandlingMiddleware.errorMessage (.subscription sub) e).refuses sub = true ↔
      e.Concerns sub := by
  cases e <;> simp [ErrorHandlingMiddleware.errorMessage, ErrorHandlingMiddleware.refusal,
    RelayMessage.refuses, Error.Concerns]

theorem errorMessage_ne_endOfStoredEvents (sub : SubscriptionId) (id : ClientMessageId)
    (e : Error) :
    ErrorHandlingMiddleware.errorMessage id e ≠ .endOfStoredEvents sub := by
  cases id <;> cases e <;> exact fun h => nomatch h

/-- The question tells the client neither that the stored events are over nor that the subscription
was refused, and it is no failed registration. -/
def Asked.Silent (sub : SubscriptionId) : Asked → Prop
  | ⟨.trySend _ packet, .ok _⟩ =>
    packet.message ≠ .endOfStoredEvents sub ∧ packet.message.refuses sub = false
  | ⟨.trySend _ packet, .error _⟩ => packet.message.refuses sub = false
  | ⟨.addSubscription _ _ _, .error _⟩ => False
  | _ => True

def Silent (sub : SubscriptionId) (t : RelayHistory) : Prop :=
  ∀ asked ∈ t, Asked.Silent sub asked

theorem Silent.enqueued (h : Silent sub t) : ∀ message ∈ enqueued t,
    message ≠ .endOfStoredEvents sub ∧ message.refuses sub = false := by
  intro message hm
  obtain ⟨ch, packet, hasked, rfl⟩ := mem_enqueued.mp hm
  exact h _ hasked

theorem Silent.refused (h : Silent sub t) :
    ∀ message ∈ refused t, message.refuses sub = false := by
  intro message hm
  obtain ⟨ch, packet, e, hasked, rfl⟩ := mem_refused.mp hm
  exact h _ hasked

theorem Silent.count_eose (h : Silent sub t) :
    (RelayBuilder.enqueued t).count (.endOfStoredEvents sub) = 0 :=
  List.count_eq_zero.mpr fun hm => (h.enqueued _ hm).1 rfl

theorem Silent.countP_refuses (h : Silent sub t) :
    (RelayBuilder.enqueued t).countP (RelayMessage.refuses sub) = 0 :=
  List.countP_eq_zero.mpr fun message hm => by simp [(h.enqueued message hm).2]

theorem Asked.Fetches.silent {asked : Asked} (h : asked.Fetches) : Asked.Silent sub asked := by
  obtain ⟨call, r⟩ := asked
  cases call with
  | trySend ch packet =>
    obtain ⟨message, position, json⟩ := packet
    cases message with
    | event sub' event =>
      cases r with
      | ok _ => exact ⟨fun heq => (nomatch heq), rfl⟩
      | error e => exact rfl
    | _ => exact h.elim
  | addSubscription => exact h.elim
  | _ => trivial

theorem Fetched.silent {failed : Prop} (h : Fetched failed t) : Silent sub t :=
  fun asked hasked => (h.every asked hasked).silent

theorem Fetched.eose_not_mem_refused {failed : Prop} (h : Fetched failed t) :
    .endOfStoredEvents sub ∉ refused t := by
  intro hm
  obtain ⟨ch, ⟨message, _, _⟩, e, hasked, rfl⟩ := mem_refused.mp hm
  exact h.every _ hasked

theorem silent_reserved {context : EventContext} {coordinator : Option SubscriptionCoordinator}
    (h : Silent sub t) : Silent sub (reserved sub filters context coordinator t) :=
  List.forall_mem_cons.mpr ⟨trivial, List.forall_mem_cons.mpr ⟨trivial,
    List.forall_mem_cons.mpr ⟨trivial, List.forall_mem_cons.mpr ⟨trivial, h⟩⟩⟩⟩

theorem Silent.append {t' : RelayHistory} (h : Silent sub t) (h' : Silent sub t') :
    Silent sub (t ++ t') :=
  fun asked hasked => (List.mem_append.mp hasked).elim (h asked) (h' asked)

/-- The answer to an error. -/
theorem exec_answer {sender : MessageSender} {id : ClientMessageId} {e : Error}
    {r : Except Failure Unit}
    (hexec : Exec SubscriptionState.answers
      (ErrorHandlingMiddleware.answer sender id (.error e)) s t r s') :
    s' = s ∧ ∃ packet r₀, packet.message = ErrorHandlingMiddleware.errorMessage id e ∧
      t = [⟨.trySend sender.channel packet, r₀⟩] := by
  obtain ⟨t₁, r₁, s₁, t₂, rfl, h₁, h₂⟩ := exec_bind.mp hexec
  obtain ⟨rfl, rfl, rfl⟩ := exec_done.mp h₂
  obtain ⟨rfl, r₀, rfl, -⟩ := exec_send h₁
  exact ⟨rfl, _, r₀, rfl, rfl⟩

/-- A REQ that is answered with an error, before EOSE was enqueued. -/
theorem endsConsistently_error {e : Error} {packet : Packet} {ch : ChannelRef}
    {r : Except Channel.TrySendError Unit}
    (hpacket : packet.message = ErrorHandlingMiddleware.errorMessage (.subscription sub) e)
    (ht : Silent sub t) (hverified : (∀ filters context e,
      (⟨.verifyFilters filters context, .error e⟩ : Asked) ∈ t → e.Concerns sub) ↔ e.Concerns sub)
    (hregistered : s'.registered = s.registered)
    (hquota : s'.quota = s.quota ↔ sub ∈ s.quota ∨ ¬ FailsReserved sub t) :
    EndsConsistently sub filters s (t ++ [⟨.trySend ch packet, r⟩]) s' ↔
      EndsWell sub s (t ++ [⟨.trySend ch packet, r⟩]) := by
  have hne := errorMessage_ne_endOfStoredEvents sub (.subscription sub) e
  have hconcerns := refuses_errorMessage sub e
  rw [← hpacket] at hne hconcerns
  have hfails : FailsReserved sub (t ++ [⟨.trySend ch packet, r⟩]) ↔ FailsReserved sub t := by
    cases r <;> simp [FailsReserved, Asked.refused?, Asked.QueryFailed, hne.symm]
  have hwell : EndsWell sub s (t ++ [⟨.trySend ch packet, r⟩]) ↔
      e.Concerns sub ∧ s'.quota = s.quota ∧ r = .ok () := by
    rw [endsWell_iff, hfails, ← hquota]
    have hadd : ∀ id filters e, (⟨.addSubscription id sub filters, .error e⟩ : Asked) ∉ t :=
      fun _ _ _ hm => ht _ hm
    have hanswered : (∀ message ∈ refused (t ++ [⟨.trySend ch packet, r⟩]),
        message.refuses sub = false) ↔ (e.Concerns sub → r = .ok ()) := by
      rw [← hconcerns]
      cases r with
      | ok _ => simpa [Asked.refused?] using ht.refused
      | error e => simpa [Asked.refused?, or_imp, forall_and] using fun _ => ht.refused
    rw [hanswered]
    simp only [List.mem_append, List.mem_singleton]
    simp [hadd, hverified]
    tauto
  rw [hwell]
  cases r with
  | error e => simp [EndsConsistently, Asked.enqueued?, ht.count_eose, ht.countP_refuses]
  | ok _ =>
    rw [← hconcerns]
    simp [EndsConsistently, Asked.enqueued?, ht.count_eose, ht.countP_refuses, hregistered, hne,
      List.countP_cons]

/-- A REQ ends consistently exactly if it ends well, one way after the other. -/
theorem ReqRun.ends_iff {r : Except Error Unit} (h : ReqRun sub filters s t r s')
    {sender : MessageSender} {t' : RelayHistory} {r' : Except Failure Unit}
    {s'' : SubscriptionState}
    (hexec : Exec SubscriptionState.answers
      (ErrorHandlingMiddleware.answer sender (.subscription sub) r) s' t' r' s'') :
    EndsConsistently sub filters s (t ++ t') s'' ↔ EndsWell sub s (t ++ t') := by
  cases h with
  | rejected context e =>
    obtain ⟨rfl, packet, r₀, hpacket, rfl⟩ := exec_answer hexec
    refine endsConsistently_error hpacket ?_ ⟨fun h => ?_, fun h => ?_⟩ rfl ?_
    · simp [Silent, Asked.Silent]
    · exact h filters context e (by simp)
    · intro _ _ e' hm
      obtain ⟨-, rfl⟩ : _ ∧ e' = e := by simpa using hm
      exact h
    · simp [FailsReserved, Asked.refused?, Asked.QueryFailed]
  | overQuota context text =>
    obtain ⟨rfl, packet, r₀, hpacket, rfl⟩ := exec_answer hexec
    refine endsConsistently_error hpacket ?_ ?_ rfl ?_
    · simp [Silent, Asked.Silent]
    · simp [Error.Concerns]
    · simp [FailsReserved, Asked.refused?, Asked.QueryFailed]
  | noCoordinator context =>
    obtain ⟨rfl, packet, r₀, hpacket, rfl⟩ := exec_answer hexec
    refine endsConsistently_error hpacket ?_ ?_ rfl ?_
    · simp [Silent, Asked.Silent]
    · simp [Error.Concerns]
    · simp [FailsReserved, Asked.refused?, Asked.QueryFailed, SubscriptionState.reserve]
  | queryFailed context coordinator ht text =>
    obtain ⟨rfl, packet, r₀, hpacket, rfl⟩ := exec_answer hexec
    have hverified : ∀ filters context e,
        (⟨.verifyFilters filters context, .error e⟩ : Asked) ∉ _ := fun _ _ _ => ht.every _
    refine endsConsistently_error hpacket (silent_reserved ht.silent) ?_ rfl ?_
    · simp [Error.Concerns, hverified]
    · simp [FailsReserved, Asked.refused?, Asked.QueryFailed, SubscriptionState.reserve,
        ht.queryFailed]
  | eoseRefused context coordinator ht ch packet' hpacket' e failure text =>
    obtain ⟨rfl, packet, r₀, hpacket, rfl⟩ := exec_answer hexec
    have hverified : ∀ filters context e,
        (⟨.verifyFilters filters context, .error e⟩ : Asked) ∉ _ := fun _ _ _ => ht.every _
    refine endsConsistently_error hpacket (silent_reserved (ht.silent.append ?_)) ?_ rfl ?_
    · simp [Asked.Silent, Silent, hpacket', RelayMessage.refuses]
    · simp [Error.Concerns, hverified]
    · simp [FailsReserved, Asked.refused?, Asked.QueryFailed, SubscriptionState.reserve, hpacket']
  | notRegistered context coordinator hcoordinator ht ch packet' hpacket' r₁ hs =>
    obtain ⟨rfl, packet, r₀, hpacket, rfl⟩ := exec_answer hexec
    refine iff_of_false ?_ fun h => h.registered coordinator.connectionId filters
      (.internal "Connection not found") (by simp)
    rintro (⟨-, -, _, hsome, subscriptions, hsubscriptions, -⟩ | ⟨hcount, -⟩)
    · obtain rfl := Option.some.inj (hcoordinator.symm.trans hsome)
      cases hs.symm.trans hsubscriptions
    · refine absurd hcount (Nat.pos_iff_ne_zero.mp (List.count_pos_iff.mpr ?_))
      exact mem_enqueued.mpr ⟨ch, packet', by simp, hpacket'⟩
  | registered context coordinator hcoordinator ht ch packet' hpacket' r₁ subscriptions hs =>
    obtain ⟨rfl, -, rfl⟩ := exec_done.mp hexec
    rw [List.append_nil]
    refine iff_of_true (.inl ⟨?_, ?_, coordinator, hcoordinator,
      (subscriptions.erase sub).insert sub filters, if_pos rfl, AList.lookup_insert _⟩)
      ⟨?_, .inr ?_, ?_, ?_⟩
    · simp [Asked.enqueued?, ht.silent.count_eose, hpacket']
    · simp [Asked.enqueued?, ht.silent.countP_refuses, hpacket', RelayMessage.refuses]
    · have hverified : ∀ filters context e,
          (⟨.verifyFilters filters context, .error e⟩ : Asked) ∉ _ := fun _ _ _ => ht.every _
      simp [hverified]
    · have hcoordinator : (⟨.subscriptionCoordinator, none⟩ : Asked) ∉ _ := ht.every _
      simp [FailsReserved, Asked.refused?, Asked.QueryFailed, ht.queryFailed, hcoordinator,
        ht.eose_not_mem_refused]
    · have hadd : ∀ id filters e, (⟨.addSubscription id sub filters, .error e⟩ : Asked) ∉ _ :=
        fun _ _ _ => ht.every _
      simp [hadd]
    · simpa [Asked.refused?] using ht.silent.refused

end Ends

/-- The message is a REQ. -/
def ClientMessage.IsReq (message : ClientMessage) : Prop :=
  ∃ sub filters, message = .req sub filters

/-- **When a REQ ends consistently.** In a chain where `ErrorHandlingMiddleware` stands outside of
`RelayMiddleware` and the others hand REQs on: either one EOSE is enqueued and the subscription is
registered with its filters, or one CLOSED or NOTICE is and nothing has changed, exactly if the
services answer so that nothing has to be undone. -/
theorem endsConsistently_iff (kinds : KindRanges) (ref : ChannelRef) (subdomain : Scope)
    (outer between inside : List InboundMiddleware)
    (ho : ∀ m ∈ outer, HandsOn ClientMessage.IsReq m)
    (hb : ∀ m ∈ between, HandsOn ClientMessage.IsReq m)
    (hi : ∀ m ∈ inside, HandsOn ClientMessage.IsReq m) {sub : SubscriptionId}
    {filters : List Filter} {s s' : SubscriptionState} {t : RelayHistory}
    {r : Except Failure Unit}
    (hexec : Exec SubscriptionState.answers (processInboundChain ref subdomain
      (outer ++ ErrorHandlingMiddleware.processInbound ::
        (between ++ RelayMiddleware.processInbound kinds :: inside)) (some (.req sub filters)))
      s t r s') :
    EndsConsistently sub filters s t s' ↔ EndsWell sub s t := by
  have hid : ErrorHandlingMiddleware.clientMessageId (.req sub filters) =
      some (.subscription sub) := rfl
  rw [processInboundChain_answer ref subdomain ho hb hi ⟨sub, filters, rfl⟩ hid
    (p := fun _ => RelayMiddleware.handleSubscription subdomain sub filters) fun _ _ => rfl] at hexec
  obtain ⟨t₁, r₁, s₁, t₂, rfl, h₁, h₂⟩ := exec_bind.mp hexec
  exact (exec_handleSubscription h₁).ends_iff h₂

/-! ### Examples -/

/-- A connection without subscriptions. -/
def exampleSubscriptions : SubscriptionState where
  quota := ∅
  maxSubscriptions := some 20
  coordinator := some ⟨"alice", ⟨0, 0⟩, 500⟩
  registered id := if id = "alice" then some ∅ else none

/-- The answers to a REQ up to its query. -/
def upToQuery (r : Except DatabaseError Events) (t : RelayHistory) : RelayHistory :=
  reserved "feed" [Filter.new] ⟨none, .default, 0⟩ exampleSubscriptions.coordinator
    (⟨.scopedView .default, .ok ()⟩ ::
      ⟨.query { Filter.new with limit := some 500 } .default, r⟩ :: t)

/-- A REQ for which everything succeeds, over an empty store. -/
theorem req_endsConsistently :
    ∃ t s', Exec SubscriptionState.answers (processInboundChain 0 .default
        [ErrorHandlingMiddleware.processInbound, RelayMiddleware.processInbound .nip01]
        (some (.req "feed" [Filter.new]))) exampleSubscriptions t (.ok ()) s' ∧
      EndsConsistently "feed" [Filter.new] exampleSubscriptions t s' := by
  let t : RelayHistory := upToQuery (.ok [])
    [⟨.extend [] [], []⟩,
      ⟨.trySend 0 ⟨.endOfStoredEvents "feed", 0, none⟩, .ok ()⟩,
      ⟨.removeSubscription "alice" "feed", .ok ()⟩,
      ⟨.addSubscription "alice" "feed" [Filter.new], .ok ()⟩]
  have hexec : Exec SubscriptionState.answers (processInboundChain 0 .default
      [ErrorHandlingMiddleware.processInbound, RelayMiddleware.processInbound .nip01]
      (some (.req "feed" [Filter.new]))) exampleSubscriptions t (.ok ())
      (((exampleSubscriptions.reserve "feed").setRegistered "alice" ∅).setRegistered "alice"
        (AList.insert "feed" [Filter.new] ∅)) :=
    .ask _ rfl <| .ask _ rfl <| .ask _ ⟨rfl, rfl⟩ <| .ask _ ⟨rfl, rfl⟩ <| .ask _ rfl <|
      .ask _ rfl <| .ask _ rfl <| .ask _ rfl <| .ask _ ⟨rfl, rfl⟩ <| .ask _ ⟨rfl, rfl⟩ <|
      .done _ _
  refine ⟨t, _, hexec, (endsConsistently_iff .nip01 0 .default [] [] [] (List.forall_mem_nil _)
    (List.forall_mem_nil _) (List.forall_mem_nil _) hexec).mpr ?_⟩
  refine ⟨?_, .inr ?_, ?_, ?_⟩
  · simp [t, upToQuery]
  · simp [t, upToQuery, FailsReserved, Asked.QueryFailed, Asked.refused?, exampleSubscriptions]
  · simp [t, upToQuery]
  · simp [t, upToQuery, Asked.refused?]

/-- When the store fails, the client is told so, but the slot that was reserved is kept. -/
theorem failed_query_keeps_slot :
    ¬ ∀ (s s' : SubscriptionState) (t : RelayHistory) (r : Except Failure Unit),
      Exec SubscriptionState.answers (processInboundChain 0 .default
        [ErrorHandlingMiddleware.processInbound, RelayMiddleware.processInbound .nip01]
        (some (.req "feed" [Filter.new]))) s t r s' →
      EndsConsistently "feed" [Filter.new] s t s' := by
  intro hall
  let t : RelayHistory := upToQuery (.error .notSupported)
    [⟨.debugText (.error (.database "Database operation not supported")), "unsupported"⟩,
      ⟨.trySend 0 ⟨.notice "Failed to fetch events: unsupported", 1, none⟩, .ok ()⟩]
  have h := hall exampleSubscriptions (exampleSubscriptions.reserve "feed") t (.ok ()) <|
    .ask _ rfl <| .ask _ rfl <| .ask _ ⟨rfl, rfl⟩ <| .ask _ ⟨rfl, rfl⟩ <| .ask _ rfl <|
      .ask _ rfl <| .ask _ rfl <| .ask _ rfl <| .done _ _
  obtain ⟨hcount, -⟩ | ⟨-, -, -, hquota⟩ := h
  · simp [t, upToQuery, Asked.enqueued?] at hcount
  · simp [SubscriptionState.reserve, exampleSubscriptions] at hquota

end RelayBuilder
