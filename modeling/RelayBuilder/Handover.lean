import RelayBuilder.RegistryChannels
import RelayBuilder.Interleave.Guarded
import RelayBuilder.NewestMatches
import RelayBuilder.RequestOrder

/-!
# A REQ, and an event that is saved meanwhile

`handle_req` fetches the stored events first and registers the subscription then. Somebody else
saves an event while it does so: the event is put into the store, and then distributed to the
subscriptions that are registered. What is fetched may still miss the event, and what is distributed
may already miss the subscription. Here the event is stored before the REQ starts, so it is among
what is fetched, whatever the other call does meanwhile.

## Main definitions

* `Handover`, and `Handover.code`: the two calls
* `Handover.Enqueued`: the client gets the event for the subscription
* `StoreLaws`: what is relied on, of the store and of the event processor
* `Handover.storedFirst`

## Main results

* `enqueued_of_storedFirst`
-/

namespace RelayBuilder

open Interleave Script

open SubscriptionRegistry RelayState

namespace Request

variable {r : Request} {context : EventContext}

/-- What is asked of the store and of the event processor while the stored events are fetched. -/
def Asks (r : Request) (context : EventContext) : RelayCall → Prop
  | .scopedView _ | .eventContext | .debugText _ => True
  | .query _ scope => scope = r.scope
  | .extend all _ => all = []
  | .canSeeEvent _ context' => context' = context
  | .trySend channel _ => channel = r.sender.channel
  | _ => False

/-- The answers that the connection gives. -/
def Answering (context : EventContext) : (call : RelayCall) → call.Answer → Prop
  | .eventContext, context' => context' = context
  | _, _ => True

theorem everyAsk_queryOne (filter : Filter) :
    (RelayDatabase.query [filter] r.scope).EveryAsk (Answering context) (r.Asks context) := by
  refine everyAsk_request_bind trivial fun view _ => ?_
  cases view with
  | error e => trivial
  | ok _ =>
    refine everyAsk_request_bind rfl fun answer _ => ?_
    match answer with
    | .ok events => exact everyAsk_request_bind rfl fun _ _ => trivial
    | .error .notSupported => trivial
    | .error (.backend text) =>
      dsimp only
      split <;> trivial

theorem everyAsk_filterPage (paging : SubscriptionCoordinator.Paging) (events kept : Events) :
    (SubscriptionCoordinator.filterPage paging events kept).EveryAsk (Answering context)
      (r.Asks context) := by
  induction events generalizing paging kept with
  | nil => trivial
  | cons event events ih =>
    rw [SubscriptionCoordinator.filterPage]
    split
    · exact ih _ _
    · refine EveryAsk.bind (everyAsk_request_bind trivial fun context' hcontext => ?_)
        fun visible => ih _ _
      refine everyAsk_request_bind hcontext fun answer _ => ?_
      cases answer <;> trivial

theorem everyAsk_sendPage (sub : SubscriptionId) (limit : ℕ)
    (paging : SubscriptionCoordinator.Paging) (events : Events) :
    (SubscriptionCoordinator.sendPage r.sender sub limit paging events).EveryAsk
      (Answering context) (r.Asks context) := by
  induction events generalizing paging with
  | nil => trivial
  | cons event events ih =>
    rw [SubscriptionCoordinator.sendPage]
    split
    · trivial
    · have hask (packet : Packet) : r.Asks context (.trySend r.sender.channel packet) := rfl
      exact (everyAsk_request (hask _)).mapError.bind fun _ => ih _

theorem everyAsk_processFilter (limit : ℕ) (filter : Filter) (attempts : ℕ)
    (paging : SubscriptionCoordinator.Paging) :
    (r.coordinator.processFilter r.sub r.scope limit filter attempts paging).EveryAsk
      (Answering context) (r.Asks context) := by
  induction attempts generalizing filter paging with
  | zero => trivial
  | succ attempts ih =>
    refine (everyAsk_queryOne filter).bind fun answer => ?_
    match answer with
    | .error e => exact everyAsk_request_bind trivial fun _ _ => trivial
    | .ok [] => trivial
    | .ok (event :: events) =>
      refine (everyAsk_filterPage _ _ _).bind fun kept => ?_
      refine (everyAsk_sendPage _ _ _ _).bind fun paging => ?_
      split
      · trivial
      · split
        · trivial
        · exact ih _ _

theorem everyAsk_processHistoricalEvents :
    (r.coordinator.processHistoricalEvents r.sub r.filters r.scope).EveryAsk (Answering context)
      (r.Asks context) := by
  have hfilters (limit : ℕ) (filters : List Filter) (sent : List EventId) :
      (r.coordinator.processFilters r.sub r.scope limit filters sent).EveryAsk (Answering context)
        (r.Asks context) := by
    induction filters generalizing sent with
    | nil => trivial
    | cons filter filters ih =>
      exact (everyAsk_processFilter limit filter _ _).andThen fun _ => ih _
  refine (hfilters _ _ _).andThen fun _ => ?_
  have hask (packet : Packet) : r.Asks context (.trySend r.sender.channel packet) := rfl
  refine (everyAsk_request (hask _)).mapError.bind fun sent => ?_
  cases sent with
  | ok _ => trivial
  | error e => exact everyAsk_request_bind trivial fun _ _ => trivial

end Request

/-- The question only looks something up, or is about something else than the store. -/
def RelayCall.ReadsStore : RelayCall → Prop
  | .scopedView _ | .query _ _ | .extend _ _ | .eventContext | .canSeeEvent _ _ | .debugText _
  | .respond _ _ => True
  | _ => False

/-! ### The two operations -/

/-- A REQ, and an event that somebody else saves while it is handled. -/
structure Handover where
  request : Request
  event : Event
  kinds : KindRanges
  handler : Option ResponseHandler

/-- The two calls: `handle_req`, and `save_and_broadcast` with the event. -/
inductive HandoverOp where
  | req
  | save
  deriving DecidableEq

/-- What the relay relies on: the store answers a query from what it holds, the library collects the
events of an answer, and the event processor judges an event alike for as long as the context of the
connection is the same. Looking something up changes nothing in the store, and neither does saving
an event that is there. -/
structure StoreLaws {Δ : Type} (sdk : Sdk) (services : Services Δ)
    (contents : Δ → Scope → EventStore) (context : EventContext) (visible : Event → Bool) :
    Prop where
  query : ∀ filter scope δ, (services (.query filter scope) δ).1 =
    .ok ((contents δ scope).query sdk.matchEvent filter)
  extend : ∀ events δ, Collects [] events (services (.extend [] events) δ).1
  eventContext : ∀ δ, (services .eventContext δ).1 = context
  canSeeEvent : ∀ event δ, verdict (services (.canSeeEvent event context) δ).1 = visible event
  reads : ∀ (call : RelayCall) δ, call.ReadsStore → contents (services call δ).2 = contents δ
  saved : ∀ event scope δ, event ∈ (contents δ scope).events →
    contents (services (.saveEvent event scope) δ).2 scope = contents δ scope

namespace Handover

variable {h : Handover} {Δ : Type} {sdk : Sdk} {services : Services Δ}
  {contents : Δ → Scope → EventStore} {context : EventContext} {visible : Event → Bool}

/-- The program of a call. -/
def code (h : Handover) (sdk : Sdk) (services : Services Δ) :
    HandoverOp → Prog RelayLock (RelayState Δ) (Except Error Unit)
  | .req => (h.request.coordinator.handleReq h.request.sub h.request.filters
      h.request.scope).interpret (RelayCall.code sdk services)
  | .save => (SubscriptionCoordinator.saveAndBroadcast h.kinds
      (.saveSignedEvent h.event h.request.scope h.handler)).interpret (RelayCall.code sdk services)

/-- The event was put into the channel of the connection, for the subscription. -/
def Enqueued (h : Handover) (s s' : SubscriptionRegistry) : Prop :=
  ∃ new, (s'.channels h.request.sender.channel).sent =
      (s.channels h.request.sender.channel).sent ++ new ∧
    ∃ packet ∈ new, packet.message = .event h.request.sub h.event

/-- A push into the channel of the connection finds room. -/
def admitsOn (h : Handover) : RegistryLock → SubscriptionRegistry → Bool
  | .channel ch, s => decide (ch = h.request.sender.channel →
      (s.channels h.request.sender.channel).HasRoom)
  | .deliver id, s => decide (id = h.request.key.1 →
      (s.channels h.request.sender.channel).HasRoom)
  | _, _ => true

def admits (h : Handover) : RelayLock → RelayState Δ → Bool
  | .registry l, t => h.admitsOn l t.registry
  | .service, _ => true

/-- Each call is made once, and whatever is pushed into the channel of the connection finds room. -/
def roomy (h : Handover) (c : Config HandoverOp RelayLock (RelayState Δ) (Except Error Unit)) :
    Move HandoverOp → Prop
  | .start op => ∀ call ∈ c.calls, call.op ≠ op
  | .step i => ∀ call ∈ c.calls[i]?, ∀ l ∈ call.label?, h.admits l c.state = true

instance (h : Handover) (c : Config HandoverOp RelayLock (RelayState Δ) (Except Error Unit))
    (m : Move HandoverOp) : Decidable (h.roomy c m) :=
  match m with
  | .start op => inferInstanceAs (Decidable (∀ call ∈ c.calls, call.op ≠ op))
  | .step i => inferInstanceAs (Decidable (∀ call ∈ c.calls[i]?, ∀ l ∈ call.label?,
      h.admits l c.state = true))

/-- The stored answer has the event: it is among the newest events that match a filter and may be
seen, and no page of the search leaves anything out. -/
structure Answerable (h : Handover) (sdk : Sdk) (visible : Event → Bool) (store : EventStore) :
    Prop where
  notCapped : (searchFor h.request.coordinator h.request.filters store sdk.matchEvent
    visible).NotCapped h.request.filters []
  complete : (searchFor h.request.coordinator h.request.filters store sdk.matchEvent
    visible).CompletePages h.request.filters []
  newest : ∃ filter ∈ h.request.filters,
    h.event ∈ ((searchFor h.request.coordinator h.request.filters store sdk.matchEvent
      visible).matchesOf filter).take (h.request.coordinator.smallestLimit h.request.filters)

/-- The store can answer with the event when the REQ starts. -/
def startsAnswerable (h : Handover) (sdk : Sdk) (contents : Δ → Scope → EventStore)
    (visible : Event → Bool) (c : Config HandoverOp RelayLock (RelayState Δ) (Except Error Unit))
    (m : Move HandoverOp) : Prop :=
  m = .start .req → h.Answerable sdk visible (contents c.state.rest h.request.scope)

/-- The event is stored first, and there is room. -/
def storedFirst (h : Handover) (sdk : Sdk) (contents : Δ → Scope → EventStore)
    (visible : Event → Bool) (c : Config HandoverOp RelayLock (RelayState Δ) (Except Error Unit))
    (m : Move HandoverOp) : Prop :=
  h.roomy c m ∧ h.startsAnswerable sdk contents visible c m

theorem Answerable.mem {store : EventStore} (ha : h.Answerable sdk visible store) :
    h.event ∈ store.events := by
  obtain ⟨filter, -, hmem⟩ := ha.newest
  exact (Search.mem_matchesOf.mp (List.mem_of_mem_take hmem)).1

/-! ### The event is stored first -/

/-- A change that leaves the store alone once it has the event, and takes nothing out of a
channel. -/
structure Quiet (h : Handover) (contents : Δ → Scope → EventStore) (t t' : RelayState Δ) :
    Prop where
  same : h.event ∈ (contents t.rest h.request.scope).events →
    contents t'.rest h.request.scope = contents t.rest h.request.scope
  sent : SentGrows t.registry t'.registry

theorem Quiet.refl (t : RelayState Δ) : h.Quiet contents t t := ⟨fun _ => rfl, .refl _⟩

theorem Quiet.trans {t₁ t₂ t₃ : RelayState Δ} (hq : h.Quiet contents t₁ t₂)
    (hq' : h.Quiet contents t₂ t₃) : h.Quiet contents t₁ t₃ := by
  refine ⟨fun he => ?_, hq.sent.trans hq'.sent⟩
  have heq := hq.same he
  rw [← heq] at he
  rw [hq'.same he, heq]

theorem Enqueued.grows {s s' s'' : SubscriptionRegistry} (he : h.Enqueued s s')
    (hs : SentGrows s' s'') : h.Enqueued s s'' := by
  obtain ⟨new, hnew, packet, hpacket, hmessage⟩ := he
  obtain ⟨more, hmore⟩ := hs h.request.sender.channel
  refine ⟨new ++ more, ?_, packet, List.mem_append_left _ hpacket, hmessage⟩
  rw [← hmore, hnew, List.append_assoc]

/-- The answer is that of the store, the library, or the event processor. -/
def Fair (sdk : Sdk) (visible : Event → Bool) (store : EventStore) : Asked → Prop
  | ⟨.query filter _, r⟩ => r = .ok (store.query sdk.matchEvent filter)
  | ⟨.extend all events, collected⟩ => Collects all events collected
  | ⟨.canSeeEvent event _, r⟩ => verdict r = visible event
  | _ => True

/-- What was asked so far for the stored answer, while the store is the same. -/
structure Recorded (h : Handover) (sdk : Sdk) (contents : Δ → Scope → EventStore)
    (visible : Event → Bool) (s : SubscriptionRegistry) (store : EventStore) (t : RelayHistory)
    (st : RelayState Δ) : Prop where
  same : contents st.rest h.request.scope = store
  fair : ∀ asked ∈ t, Fair sdk visible store asked
  sent : ∃ new, (st.registry.channels h.request.sender.channel).sent =
      (s.channels h.request.sender.channel).sent ++ new ∧
    ∀ packet, (h.request.sender.channel, packet) ∈ pushed t → packet ∈ new

variable {s : SubscriptionRegistry} {store : EventStore} {t t' : RelayHistory}
  {st st' : RelayState Δ} {asked : Asked}

theorem answeredFrom_of_fair (hfair : ∀ asked ∈ t, Fair sdk visible store asked) :
    AnsweredFrom store sdk.matchEvent t := by
  intro filter r hmem
  obtain ⟨⟨call, answer⟩, hasked, heq⟩ := List.mem_filterMap.mp hmem
  cases call with
  | query filter' scope =>
    obtain ⟨rfl, rfl⟩ := Prod.mk.inj (Option.some.inj heq)
    exact hfair _ hasked
  | _ => cases heq

/-- A question and its answer, with what becomes of the state. -/
theorem Recorded.append (hr : h.Recorded sdk contents visible s store t st)
    (hsame : contents st'.rest h.request.scope = store) (hfair : Fair sdk visible store asked)
    (hsent : ∃ new, (st'.registry.channels h.request.sender.channel).sent =
        (st.registry.channels h.request.sender.channel).sent ++ new ∧
      ∀ packet, (h.request.sender.channel, packet) ∈ pushed [asked] → packet ∈ new) :
    h.Recorded sdk contents visible s store (t ++ [asked]) st' := by
  obtain ⟨new, hnew, hpushed⟩ := hr.sent
  obtain ⟨more, hmore, hasked⟩ := hsent
  refine ⟨hsame, List.forall_mem_append.mpr ⟨hr.fair, List.forall_mem_singleton.mpr hfair⟩,
    new ++ more, ?_, fun packet hmem => ?_⟩
  · rw [hmore, hnew, List.append_assoc]
  · rw [pushed_append, List.mem_append] at hmem
    exact List.mem_append.mpr (hmem.imp (hpushed packet) (hasked packet))

/-- What the others do meanwhile. -/
theorem Recorded.quiet (hr : h.Recorded sdk contents visible s store t st)
    (he : h.event ∈ store.events) (hq : h.Quiet contents st st') :
    h.Recorded sdk contents visible s store t st' := by
  obtain ⟨new, hnew, hpushed⟩ := hr.sent
  obtain ⟨more, hmore⟩ := hq.sent h.request.sender.channel
  refine ⟨(hq.same (hr.same ▸ he)).trans hr.same, hr.fair, new ++ more, ?_,
    fun packet hmem => List.mem_append_left _ (hpushed packet hmem)⟩
  rw [← hmore, hnew, List.append_assoc]

/-- The contract of a question, while the store is the same. -/
theorem recorded_code (hlaws : StoreLaws sdk services contents context visible)
    (he : h.event ∈ store.events) (call : RelayCall) (t : RelayHistory)
    (hcall : h.request.Asks context call) :
    Triple (fun _ => True) (h.Quiet contents) (fun _ _ => True)
      (h.Recorded sdk contents visible s store t) ((call.code sdk services).guarded h.admits)
      fun r st => Request.Answering context call r ∧
        h.Recorded sdk contents visible s store (t ++ [⟨call, r⟩]) st := by
  have hstable (t : RelayHistory) : Stable (fun _ => True) (h.Quiet contents)
      (h.Recorded sdk contents visible s store t) := fun _ _ hq _ hr => hr.quiet he hq
  -- every question is answered in one action
  have hatomic {l : RelayLock} {f : RelayState Δ → call.Answer × RelayState Δ}
      (hf : call.code sdk services = .atomic l f)
      (hstep : ∀ st, h.Recorded sdk contents visible s store t st → h.admits l st = true →
        Request.Answering context call (f st).1 ∧
          h.Recorded sdk contents visible s store (t ++ [⟨call, (f st).1⟩]) (f st).2) :
      Triple (fun _ => True) (h.Quiet contents) (fun _ _ => True)
        (h.Recorded sdk contents visible s store t) ((call.code sdk services).guarded h.admits)
        fun r st => Request.Answering context call r ∧
          h.Recorded sdk contents visible s store (t ++ [⟨call, r⟩]) st := by
    rw [hf, Prog.guarded_atomic]
    exact Triple.await (hstable t) (fun r => (stable_const _).and (hstable _))
      fun st _ hr hadmits => ⟨trivial, trivial, hstep st hr hadmits⟩
  have hservice (hreads : call.ReadsStore)
      (hf : call.code sdk services = .atomic .service fun st =>
        ((services call st.rest).1, { st with rest := (services call st.rest).2 }))
      (hpushed : ∀ r, Asked.pushed? ⟨call, r⟩ = none)
      (hanswer : ∀ δ, contents δ h.request.scope = store →
        Request.Answering context call (services call δ).1 ∧
          Fair sdk visible store ⟨call, (services call δ).1⟩) :=
    hatomic hf fun st hr _ => by
      obtain ⟨hallowed, hfair⟩ := hanswer st.rest hr.same
      refine ⟨hallowed, hr.append ?_ hfair ⟨[], (List.append_nil _).symm, fun packet hmem => ?_⟩⟩
      · rw [hlaws.reads call _ hreads, hr.same]
      · rw [pushed_cons, hpushed] at hmem
        exact absurd hmem List.not_mem_nil
  cases call with
  | trySend channel packet =>
    obtain rfl : channel = h.request.sender.channel := hcall
    refine hatomic (l := .registry (.channel h.request.sender.channel)) (f := fun st =>
      ((trySendTo h.request.sender.channel packet st.registry).1,
        { st with registry := (trySendTo h.request.sender.channel packet st.registry).2 })) rfl
      fun st hr hadmits => ⟨trivial, hr.append hr.same trivial ⟨[packet], ?_, ?_⟩⟩
    · have hroom : (st.registry.channels h.request.sender.channel).HasRoom :=
        of_decide_eq_true hadmits rfl
      simp [trySendTo, Channel.trySend_of_hasRoom hroom, setChannel]
    · intro packet' hmem
      obtain ⟨-, rfl⟩ := Prod.mk.inj (List.mem_singleton.mp hmem)
      exact List.mem_singleton_self _
  | query filter scope =>
    obtain rfl : scope = h.request.scope := hcall
    refine hservice trivial rfl (fun _ => rfl) fun δ hδ => ⟨trivial, ?_⟩
    rw [← hδ]
    exact hlaws.query filter h.request.scope δ
  | extend all events =>
    obtain rfl : all = [] := hcall
    exact hservice trivial rfl (fun _ => rfl) fun δ _ => ⟨trivial, hlaws.extend events δ⟩
  | canSeeEvent event context' =>
    obtain rfl : context' = context := hcall
    exact hservice trivial rfl (fun _ => rfl) fun δ _ => ⟨trivial, hlaws.canSeeEvent event δ⟩
  | eventContext =>
    exact hservice trivial rfl (fun _ => rfl) fun δ _ => ⟨hlaws.eventContext δ, trivial⟩
  | scopedView | debugText =>
    exact hservice trivial rfl (fun _ => rfl) fun _ _ => ⟨trivial, trivial⟩
  | _ => cases hcall

/-- The stored answer has the event. -/
theorem enqueues_processHistoricalEvents (hwindow : WindowLaws sdk.matchEvent)
    (hlaws : StoreLaws sdk services contents context visible)
    (ha : h.Answerable sdk visible store) (hsame : contents st.rest h.request.scope = store)
    (hs : SentGrows s st.registry) :
    (((h.request.coordinator.processHistoricalEvents h.request.sub h.request.filters
      h.request.scope).interpret (RelayCall.code sdk services)).guarded h.admits).Ensures
        (fun _ => True) (h.Quiet contents) (fun _ _ => True)
        (fun r st => r = .ok () → h.Enqueued s st.registry) st := by
  have hstart : h.Recorded sdk contents visible s store [] st := by
    obtain ⟨new, hnew⟩ := hs h.request.sender.channel
    exact ⟨hsame, fun _ hmem => (by cases hmem), new, hnew.symm, fun _ hmem => (by cases hmem)⟩
  rw [Script.interpret_guarded]
  refine (Request.everyAsk_processHistoricalEvents.history (fun _ => Quiet.refl _)
    (fun t _ _ hq _ hr => hr.quiet ha.mem hq) (recorded_code hlaws ha.mem) [] st trivial
    hstart).post ?_
  rintro _ st' - ⟨t, hruns, hrecorded⟩ rfl
  rw [List.nil_append] at hrecorded
  obtain ⟨filter, hfilter, hmem⟩ := ha.newest
  have hpushed := (sendsNewest_iff hwindow store visible h.request.coordinator h.request.sub
    h.request.filters h.request.scope (answeredFrom_of_fair hrecorded.fair)
    (fun all events collected hmem => hrecorded.fair _ hmem)
    (fun event context r hmem => hrecorded.fair _ hmem) ha.notCapped hruns).1 ha.complete filter
    hfilter h.event hmem
  obtain ⟨new, hnew, hall⟩ := hrecorded.sent
  exact ⟨new, hnew, _, hall _ hpushed, rfl⟩

/-- What was enqueued stays so. -/
theorem enqueued_ensures {α : Type} {p : Prog RelayLock (RelayState Δ) α}
    (hp : p.Every fun t t' => SentGrows t.registry t'.registry) (he : h.Enqueued s st.registry) :
    p.Ensures (fun _ => True) (h.Quiet contents) (fun _ _ => True)
      (fun _ st => h.Enqueued s st.registry) st :=
  (Prog.ensures_of_always (A := fun _ => True) (B := fun st => h.Enqueued s st.registry)
    (Prog.always_true p) (fun _ _ hq he => he.grows hq.sent) (hp.mono fun _ _ hs he => he.grows hs)
      he).post fun _ _ _ h => h.2

/-- What the REQ does, when the store has the event at its start. -/
theorem enqueues_handleReq (hwindow : WindowLaws sdk.matchEvent)
    (hlaws : StoreLaws sdk services contents context visible)
    (ha : h.Answerable sdk visible (contents st.rest h.request.scope))
    (hs : SentGrows s st.registry) :
    ((h.code sdk services .req).guarded h.admits).Ensures (fun _ => True) (h.Quiet contents)
      (fun _ _ => True) (fun r st => r = .ok () → h.Enqueued s st.registry) st := by
  rw [code, SubscriptionCoordinator.handleReq, Script.andThen, Script.interpret_bind,
    Prog.guarded_bind]
  refine Prog.Ensures.bind (fun _ => Quiet.refl _)
    (enqueues_processHistoricalEvents hwindow hlaws ha rfl hs) trivial fun r st' _ hr => ?_
  cases r with
  | error e => exact fun _ _ _ hok => (by cases hok)
  | ok _ =>
    have hgrows := Script.every_interpret (every_code sdk services)
      (h.request.coordinator.addSubscription h.request.sub h.request.filters)
    exact ((enqueued_ensures hgrows (hr rfl)).guarded h.admits).post
      (U := fun (r : Except Error Unit) (st' : RelayState Δ) =>
        r = .ok () → h.Enqueued s st'.registry) fun _ _ _ h _ => h

/-- What is asked when the event is saved, before it is distributed. -/
def SaveAsks (h : Handover) : RelayCall → Prop
  | .scopedView _ | .trySend _ _ | .respond _ _ => True
  | .saveEvent event scope => event = h.event ∧ scope = h.request.scope
  | _ => False

theorem everyAsk_saveEvent :
    ((RelayDatabase.saveEvent h.event h.request.scope).mapError Error.internal).EveryAsk
      (fun _ _ => True) h.SaveAsks := by
  refine (everyAsk_request_bind trivial fun view _ => ?_).mapError
  cases view with
  | error e => trivial
  | ok _ =>
    refine everyAsk_request_bind ⟨rfl, rfl⟩ fun answer _ => ?_
    cases answer <;> trivial

theorem everyAsk_respondSaved (saved : Except Error Unit) :
    (SubscriptionCoordinator.respondSaved h.event saved h.handler).EveryAsk (fun _ _ => True)
      h.SaveAsks := by
  match h.handler with
  | none => trivial
  | some (.oneshot tx) => exact everyAsk_request trivial
  | some (.messageSender sender) =>
    have hask (packet : Packet) : h.SaveAsks (.trySend sender.channel packet) := trivial
    exact (everyAsk_request (hask _)).mapError.bind fun _ => trivial

/-- What the save does to the store, once that has the event. -/
theorem quiet_save (hlaws : StoreLaws sdk services contents context visible) :
    (h.code sdk services .save).Every (h.Quiet contents) := by
  have hasks {call : RelayCall} (hcall : h.SaveAsks call) :
      (call.code sdk services).Every (h.Quiet contents) := by
    cases call with
    | trySend channel packet =>
      exact every_onRegistry (Prog.every_atomic _ (sentGrows_trySendTo channel packet))
        fun _ _ hs => ⟨fun _ => rfl, hs⟩
    | saveEvent event scope =>
      obtain ⟨rfl, rfl⟩ := hcall
      exact Prog.every_atomic _ fun st => ⟨fun he => hlaws.saved _ _ _ he, .refl _⟩
    | scopedView scope =>
      have hreads := hlaws.reads (.scopedView scope)
      exact Prog.every_atomic _ fun st => ⟨fun _ => congrFun (hreads st.rest trivial) _, .refl _⟩
    | respond tx result =>
      have hreads := hlaws.reads (.respond tx result)
      exact Prog.every_atomic _ fun st => ⟨fun _ => congrFun (hreads st.rest trivial) _, .refl _⟩
    | _ => cases hcall
  have hdistribute : (RelayCall.code sdk services
      (.distributeEvent h.event h.request.scope)).Every (h.Quiet contents) :=
    (every_onRegistry (every_distributeEventIndexed h.event h.request.scope)
      fun _ _ hs => ⟨fun _ => rfl, hs⟩).bind fun _ => Prog.every_done _
  have hall : (SubscriptionCoordinator.saveAndBroadcast h.kinds
      (.saveSignedEvent h.event h.request.scope h.handler)).EveryAsk (fun _ _ => True)
        fun call => (call.code sdk services).Every (h.Quiet contents) := by
    refine (everyAsk_saveEvent.mono fun _ => hasks).bind fun saved =>
      ((everyAsk_respondSaved saved).mono fun _ => hasks).bind fun _ => EveryAsk.bind ?_
        fun _ => trivial
    cases saved with
    | error e => trivial
    | ok _ => exact everyAsk_request hdistribute
  exact hall.every_interpret fun _ hcall => hcall

/-- **An event that is stored first** is enqueued with the stored events. -/
theorem enqueued_of_storedFirst (hwindow : WindowLaws sdk.matchEvent)
    (hlaws : StoreLaws sdk services contents context visible)
    {c : Config HandoverOp RelayLock (RelayState Δ) (Except Error Unit)}
    (hrun : Run (fun _ => h.code sdk services) (h.storedFirst sdk contents visible)
      (Config.initial st) c) {i : ℕ} (hi : c.Returned i .req (.ok ())) :
    h.Enqueued st.registry c.state.registry := by
  have hguarded : Run (fun _ op => (h.code sdk services op).guarded h.admits)
      (fun c m => once (· = .req) c m ∧ h.startsAnswerable sdk contents visible c m)
      (Config.initial st) (c.guarded h.admits) := by
    refine hrun.guarded (fun c i l hok ⟨call, hcall, hlabel⟩ => hok.1 call hcall l hlabel)
      fun c m hok => ⟨?_, hok.2⟩
    cases m with
    | step i => trivial
    | start op =>
      rintro rfl call hcall heq
      obtain ⟨call', hcall', rfl⟩ := List.mem_map.mp hcall
      exact hok.1 call' hcall' heq
  have hinv : OnceInv (fun st' : RelayState Δ => SentGrows st.registry st'.registry)
      (fun _ _ => True) (h.Quiet contents) (· = .req) (fun _ => True)
      (fun r st' => r = .ok () → h.Enqueued st.registry st'.registry) (c.guarded h.admits) := by
    refine OnceInv.run (fun _ _ hok => hok.1) (fun _ => trivial) Quiet.refl
      (fun _ _ _ _ _ => trivial) (fun _ _ _ => Quiet.trans) (fun _ _ _ => trivial)
      (fun _ _ _ _ _ => trivial) (fun _ op hop => ?_) (fun c op hok hop hs _ => ?_) (.refl _)
      trivial hguarded
    · cases op with
      | req => exact absurd rfl hop
      | save =>
        intro st' _ _
        exact ((quiet_save hlaws).guarded h.admits).ensures
          (fun _ _ hs hq => hs.trans hq.sent) st'
    · subst hop
      have hcode := (enqueues_handleReq hwindow hlaws (hok.2 rfl) hs).every
        ((Script.every_interpret (every_code sdk services) (h.request.coordinator.handleReq
          h.request.sub h.request.filters h.request.scope)).guarded h.admits)
      exact (hcode.inv (fun _ _ => trivial) fun _ _ hs _ hgrows => hs.trans hgrows.2).conseq
        (fun _ _ hq => hq) (fun _ _ _ _ => trivial) fun _ _ _ hr => hr
  exact hinv.returned Quiet.refl hi.guarded rfl rfl

end Handover

end RelayBuilder
