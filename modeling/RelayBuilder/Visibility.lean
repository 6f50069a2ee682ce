import RelayBuilder.Interleave.Tasks
import RelayBuilder.Authentication
import RelayBuilder.SubscriptionRegistry

/-!
# What may be seen

A connection whose tasks run side by side: its outbound task, its messages on their way through
the inbound chain, and whatever its middlewares do besides. Meanwhile the registry puts events into
the channel, and the state of the connection changes. Every EVENT message that is written has
passed the outbound step of `RelayMiddleware`, which asks the event processor.

## Main definitions

* `ConnectionState`, and its `answers` and `Environment`
* `connectionSystem`
* `WritesVisible`

## Main results

* `writesVisible`: no event is written that the processor did not show, as long as no middleware
  puts a message into the place of one that was dropped
-/

namespace RelayBuilder

open Interleave Script

variable {T : Type}

/-! ### The connection -/

/-- What `can_see_event` may return for an event, the custom state and an event context. -/
abbrev CanSeeEvent (T : Type) := Event → T → EventContext → Except Error Bool → Prop

/-- The part of the state of a connection that decides what may be seen, and its channel. -/
structure ConnectionState (T : Type) where
  customState : T
  eventContext : EventContext
  channel : Channel

namespace ConnectionState

/-- The messages that are ready, up to ten, are taken. There are none when the channel is closed or
the task is cancelled. -/
inductive Takes (s : ConnectionState T) : Option (List Packet) → ConnectionState T → Prop where
  | closed : Takes s none s
  | batch {packets rest : List Packet}
    (h : s.channel.sent.drop s.channel.received = packets ++ rest) (hpackets : packets ≠ [])
    (hlength : packets.length ≤ 10) : Takes s (some packets)
      { s with channel := { s.channel with received := s.channel.received + packets.length } }

/-- What comes of putting a packet into the channel. -/
inductive Sends (s : ConnectionState T) (packet : Packet) :
    Except Channel.TrySendError Unit → ConnectionState T → Prop where
  | sent {channel : Channel} (h : s.channel.trySend packet = .ok channel) :
    Sends s packet (.ok ()) { s with channel := channel }
  | refused {e : Channel.TrySendError} (h : s.channel.trySend packet = .error e) :
    Sends s packet (.error e) s

/-- The coordinator of a connection was given the sender of the innermost middleware. -/
def OwnCoordinator (ref : ChannelRef) : (call : RelayCall) → call.Answer → Prop
  | .subscriptionCoordinator, r => ∀ coordinator ∈ r, coordinator.outgoingSender = ⟨ref, 0⟩
  | _, _ => True

/-- What the questions of the middlewares do to the state of the connection with this channel. -/
def relayAnswers (canSee : CanSeeEvent T) (ref : ChannelRef) :
    Script.Answers RelayCall.Answer (ConnectionState T)
  | .eventContext, s, r, s' => r = s.eventContext ∧ s' = s
  | .canSeeEvent event context, s, r, s' => canSee event s.customState context r ∧ s' = s
  | .setAuthenticated pubkey, s, _, s' =>
    s' = { s with eventContext := { s.eventContext with authedPubkey := some pubkey } }
  | .subscriptionCoordinator, s, r, s' => OwnCoordinator ref .subscriptionCoordinator r ∧ s' = s
  | .trySend ref' packet, s, r, s' =>
    (ref' = ref → s.Sends packet r s') ∧ (ref' ≠ ref → s' = s)
  | _, s, _, s' => s' = s

/-- What the questions of the outbound task do. -/
def outboundAnswers : Script.Answers OutboundCall.Answer (ConnectionState T)
  | .receive, s, r, s' => s.Takes r s'
  | .write _, s, _, s' | .close, s, _, s' => s' = s

def answers (canSee : CanSeeEvent T) (ref : ChannelRef) :
    Script.Answers (Sum.elim RelayCall.Answer OutboundCall.Answer) (ConnectionState T)
  | .inl call, s, r, s' => relayAnswers canSee ref call s r s'
  | .inr call, s, r, s' => outboundAnswers call s r s'

/-- What happens to the connection besides: its custom state and its context change, the registry
sends it an event, and the handler answers a message that it cannot read. -/
inductive Environment (sdk : Sdk) (ref : ChannelRef) (s : ConnectionState T) :
    ConnectionState T → Prop where
  | changed (customState : T) (context : EventContext) :
    Environment sdk ref s { s with customState := customState, eventContext := context }
  | broadcast (event : Event) (sub : SubscriptionId) {channel : Channel}
    (h : s.channel.trySend ((⟨ref, 0⟩ : MessageSender).packetWithJson (.event sub event)
      (SubscriptionRegistry.eventJson sub (sdk.asJson event))) = .ok channel) :
    Environment sdk ref s { s with channel := channel }
  | unreadable (message : RelayMessage) (hm : message.NotEvent) {channel : Channel}
    (h : s.channel.trySend ⟨message, 0, none⟩ = .ok channel) :
    Environment sdk ref s { s with channel := channel }

end ConnectionState

/-- The registry reaches a connection that was registered with the sender of the innermost
middleware by a broadcast, or not at all. -/
theorem deliver_environment (sdk : Sdk) (event : Event) (κ : Key) (registry : SubscriptionRegistry)
    {ref : ChannelRef} (s : ConnectionState T) (hs : s.channel = registry.channels ref)
    (hregistered : ∀ data, registry.connection? κ.1 = some data →
      data.sender.channel = ref → data.sender = ⟨ref, 0⟩) :
    let registry' := (SubscriptionRegistry.deliver sdk event κ registry).2
    registry'.channels ref = s.channel ∨
      ConnectionState.Environment sdk ref s { s with channel := registry'.channels ref } := by
  dsimp only
  rw [SubscriptionRegistry.deliver]
  cases hdata : registry.connection? κ.1 with
  | none => exact .inl hs.symm
  | some data =>
    dsimp only
    cases hsend : (registry.channels data.sender.channel).trySend (data.sender.packetWithJson
        (.event κ.2 event) (SubscriptionRegistry.eventJson κ.2 (sdk.asJson event))) with
    | error e => exact .inl hs.symm
    | ok channel =>
      by_cases hchannel : data.sender.channel = ref
      · have hsender := hregistered data hdata hchannel
        refine .inr ?_
        rw [hsender, ← hs] at hsend
        have := ConnectionState.Environment.broadcast event κ.2 hsend
        simpa [SubscriptionRegistry.setChannel, hsender] using this
      · refine .inl ?_
        simp [SubscriptionRegistry.setChannel, Ne.symm hchannel, hs]

/-! ### The middlewares -/

/-- The question puts no EVENT message into a channel, and no false text. -/
def SendsNoEvent (asJson : RelayMessage → String) : RelayCall → Prop
  | .trySend _ packet => packet.message.NotEvent ∧ packet.Serialized asJson
  | _ => True

/-- The EVENT messages that come out have come in. -/
def CreatesNoEvent (middleware : OutboundMiddleware RelayCall RelayCall.Answer) : Prop :=
  ∀ message t sub event, Runs (middleware message) t (.ok (some (.event sub event))) →
    message = some (.event sub event)

/-- The middleware neither creates nor rewrites EVENT messages. -/
structure LeavesEvents (asJson : RelayMessage → String) (middleware : Middleware) : Prop where
  onConnect : ∀ sender, (middleware.onConnect sender).EveryAsk anyAnswer (SendsNoEvent asJson)
  inbound : ∀ ctx, Around anyAnswer (SendsNoEvent asJson) (fun _ => True) ctx.next
    (middleware.processInbound ctx)
  asks : ∀ message, (middleware.processOutbound message).EveryAsk anyAnswer (SendsNoEvent asJson)
  outbound : CreatesNoEvent middleware.processOutbound

/-- The middleware puts nothing into the place of a message that was dropped. -/
def KeepsDropped (middleware : OutboundMiddleware RelayCall RelayCall.Answer) : Prop :=
  ∀ t result, Runs (middleware none) t (.ok result) → result = none

/-- The middlewares that the builder was given. -/
def given (config : ChainConfig) (custom : List Middleware) : List Middleware :=
  config.metrics.toList ++ config.auth.toList ++ custom

/-! ### The system -/

/-- The scripts that can be started: the outbound task, the messages of the client, `on_connect`,
and whatever a middleware does besides. -/
inductive ConnectionStarts (asJson : RelayMessage → String) (ref : ChannelRef) (subdomain : Scope)
    (chain : List Middleware) : OutboundScript RelayCall RelayCall.Answer Unit → Prop where
  | outbound (n : ℕ) : ConnectionStarts asJson ref subdomain chain
      (outboundTask asJson (chain.map Middleware.processOutbound) n)
  | inbound (message : ClientMessage) : ConnectionStarts asJson ref subdomain chain
      ((inboundChain ref subdomain chain (some message)).bind fun _ => .done ()).left
  | connect : ConnectionStarts asJson ref subdomain chain
      ((onConnectChain ref chain).bind fun _ => .done ()).left
  | other {p : Relay Unit} (hp : p.EveryAsk anyAnswer (SendsNoEvent asJson)) :
    ConnectionStarts asJson ref subdomain chain p.left

/-- The tasks of a connection. -/
def connectionSystem (canSee : CanSeeEvent T) (sdk : Sdk) (asJson : RelayMessage → String)
    (ref : ChannelRef) (subdomain : Scope) (chain : List Middleware) :
    System (Sum.elim RelayCall.Answer OutboundCall.Answer) (ConnectionState T) where
  answers := ConnectionState.answers canSee ref
  starts := ConnectionStarts asJson ref subdomain chain
  environment := ConnectionState.Environment sdk ref

/-! ### What is in the channel -/

/-- A packet that may be in the channel. An EVENT message comes from the innermost middleware, and
with no text but that of a broadcast. -/
structure Packet.Safe (sdk : Sdk) (asJson : RelayMessage → String) (packet : Packet) : Prop where
  event : ∀ sub event, packet.message = .event sub event → packet.position = 0 ∧
    ∀ json ∈ packet.json, json = SubscriptionRegistry.eventJson sub (sdk.asJson event)
  other : packet.message.NotEvent → packet.Serialized asJson

/-- The question puts only such packets into the channel. -/
def SendsSafe (sdk : Sdk) (asJson : RelayMessage → String) (ref : ChannelRef) : RelayCall → Prop
  | .trySend ref' packet => ref' = ref → packet.Safe sdk asJson
  | _ => True

variable {canSee : CanSeeEvent T} {sdk : Sdk} {asJson : RelayMessage → String} {ref : ChannelRef}
  {subdomain : Scope} {chain outer : List Middleware} {kinds : KindRanges}

theorem RelayMessage.NotEvent.ne {message : RelayMessage} (h : message.NotEvent)
    (sub : SubscriptionId) (event : Event) : message ≠ .event sub event := fun heq => by
  rw [heq] at h
  exact h

theorem RelayMessage.event_or_notEvent (message : RelayMessage) :
    (∃ sub event, message = .event sub event) ∨ message.NotEvent := by
  cases message with
  | event sub event => exact .inl ⟨sub, event, rfl⟩
  | _ => exact .inr trivial

theorem safe_of_notEvent {packet : Packet} (hm : packet.message.NotEvent)
    (hs : packet.Serialized asJson) : packet.Safe sdk asJson :=
  ⟨fun sub event heq => absurd heq (hm.ne sub event), fun _ => hs⟩

theorem serialized_of_none {packet : Packet} (h : packet.json = none) :
    packet.Serialized asJson := fun json hjson => by
  rw [h] at hjson
  cases hjson

theorem sendsSafe_of_sendsNoEvent {call : RelayCall} (h : SendsNoEvent asJson call) :
    SendsSafe sdk asJson ref call := by
  cases call with
  | trySend ref' packet => exact fun _ => safe_of_notEvent h.1 h.2
  | _ => trivial

theorem relayAsks_sendsSafe :
    RelayAsks (ConnectionState.OwnCoordinator ref) (SendsSafe sdk asJson ref) where
  service call h := by cases call <;> first | exact h.elim | trivial
  send sender message hm :=
    ⟨fun _ => safe_of_notEvent hm (serialized_of_none rfl),
      fun _ => safe_of_notEvent hm (serialized_of_none rfl)⟩
  event coordinator hc sub event _ := by
    have hposition := congrArg MessageSender.position (hc coordinator rfl)
    refine ⟨fun _ _ _ => ⟨?_, fun _ h => (nomatch h)⟩, fun hm => hm.elim⟩
    rw [MessageSender.packetBypass, hposition]
    rfl

/-- A middleware of the chain: `RelayMiddleware`, or one that leaves EVENT messages alone. -/
def EventChain (asJson : RelayMessage → String) (kinds : KindRanges) (chain : List Middleware) :
    Prop :=
  ∀ m ∈ chain, m = RelayMiddleware.middleware kinds ∨ LeavesEvents asJson m

theorem everyAsk_inboundChain (hchain : EventChain asJson kinds chain)
    (message : Option ClientMessage) : (inboundChain ref subdomain chain message).EveryAsk
      (ConnectionState.OwnCoordinator ref) (SendsSafe sdk asJson ref) := by
  induction chain generalizing message with
  | nil => trivial
  | cons m chain ih =>
    have hrest := ih fun m' hm' => hchain m' (List.mem_cons_of_mem _ hm')
    obtain rfl | hleaves := hchain m (List.mem_cons_self ..)
    · exact (aroundNext_relay relayAsks_sendsSafe kinds _).everyAsk fun message _ => hrest message
    · exact (((hleaves.inbound _).mono fun _ => sendsSafe_of_sendsNoEvent).of_allowed
        fun _ _ _ => trivial).everyAsk fun message _ => hrest message

theorem everyAsk_onConnectChain (hchain : EventChain asJson kinds chain) :
    (onConnectChain ref chain).EveryAsk (ConnectionState.OwnCoordinator ref)
      (SendsSafe sdk asJson ref) := by
  induction chain with
  | nil => trivial
  | cons m chain ih =>
    refine EveryAsk.andThen ?_ fun _ => ih fun m' hm' => hchain m' (List.mem_cons_of_mem _ hm')
    obtain rfl | hleaves := hchain m (List.mem_cons_self ..)
    · trivial
    · exact ((hleaves.onConnect _).mono fun _ => sendsSafe_of_sendsNoEvent).of_allowed
        fun _ _ _ => trivial

theorem everyAsk_relayOutbound (message : Option RelayMessage) :
    (RelayMiddleware.processOutbound message).EveryAsk anyAnswer (SendsNoEvent asJson) := by
  match message with
  | some (.event sub event) =>
    refine everyAsk_request_bind trivial fun context _ =>
      everyAsk_request_bind trivial fun r _ => ?_
    match r with
    | .ok true | .ok false | .error e => trivial
  | none | some (.endOfStoredEvents _) | some (.ok ..) | some (.notice _) | some (.closed ..)
  | some (.auth _) | some (.count ..) | some (.negMsg ..) | some (.negErr ..) => trivial

theorem everyAsk_processOutboundChain (hchain : EventChain asJson kinds chain) (position : ℕ)
    (message : Option RelayMessage) :
    (processOutboundChain position (chain.map Middleware.processOutbound) message).EveryAsk
      anyAnswer (SendsNoEvent asJson) := by
  induction chain with
  | nil => trivial
  | cons m chain ih =>
    have hrest := ih fun m' hm' => hchain m' (List.mem_cons_of_mem _ hm')
    rw [List.map_cons, processOutboundChain]
    split
    · refine hrest.andThen fun message => ?_
      obtain rfl | hleaves := hchain m (List.mem_cons_self ..)
      · exact everyAsk_relayOutbound message
      · exact hleaves.asks message
    · exact hrest

/-! ### What the tasks ask -/

/-- The questions of a task and its answers, as they are in the connection. -/
def TaskAllowed (ref : ChannelRef) : (call : RelayCall ⊕ OutboundCall) →
    Sum.elim RelayCall.Answer OutboundCall.Answer call → Prop
  | .inl call, r => ConnectionState.OwnCoordinator ref call r
  | .inr _, _ => True

/-- What a task puts into the channel is safe. -/
def TaskSendsSafe (sdk : Sdk) (asJson : RelayMessage → String) (ref : ChannelRef) :
    RelayCall ⊕ OutboundCall → Prop
  | .inl call => SendsSafe sdk asJson ref call
  | .inr _ => True

theorem everyAsk_left {α : Type} {p : Relay α}
    (h : p.EveryAsk (ConnectionState.OwnCoordinator ref) (SendsSafe sdk asJson ref)) :
    (p.left : OutboundScript RelayCall RelayCall.Answer α).EveryAsk (TaskAllowed ref)
      (TaskSendsSafe sdk asJson ref) :=
  h.left (fun _ _ hr => hr) fun _ hq => hq

theorem everyAsk_processBatch {chain : List (OutboundMiddleware RelayCall RelayCall.Answer)}
    (hchain : ∀ position message, (processOutboundChain position chain message).EveryAsk anyAnswer
      (SendsNoEvent asJson)) (batch : List Packet) :
    (processBatch chain batch).EveryAsk anyAnswer (SendsNoEvent asJson) := by
  induction batch with
  | nil => trivial
  | cons packet batch ih =>
    refine EveryAsk.bind ((hchain _ _).bind fun result => ?_) fun _ => ih.bind fun _ => trivial
    match result with
    | .error e | .ok none | .ok (some _) => trivial

theorem everyAsk_writeAll (batch : List (RelayMessage × Option String)) :
    (writeAll asJson batch : OutboundScript RelayCall RelayCall.Answer Bool).EveryAsk
      (TaskAllowed ref) (TaskSendsSafe sdk asJson ref) := by
  induction batch with
  | nil => trivial
  | cons processed batch ih =>
    refine everyAsk_request_bind trivial fun r _ => ?_
    match r with
    | .ok _ => exact ih
    | .error e => exact everyAsk_request_bind trivial fun _ _ => trivial

theorem everyAsk_outboundTask (hchain : EventChain asJson kinds chain) (n : ℕ) :
    (outboundTask asJson (chain.map Middleware.processOutbound) n).EveryAsk (TaskAllowed ref)
      (TaskSendsSafe sdk asJson ref) := by
  induction n with
  | zero => trivial
  | succ n ih =>
    refine everyAsk_request_bind trivial fun batch _ => ?_
    match batch with
    | none => exact everyAsk_request_bind trivial fun _ _ => trivial
    | some batch =>
      have hbatch := everyAsk_processBatch (everyAsk_processOutboundChain hchain) batch
      refine (everyAsk_left ((hbatch.mono fun _ => sendsSafe_of_sendsNoEvent).of_allowed
        fun _ _ _ => trivial)).bind fun processed => (everyAsk_writeAll processed).bind fun ok => ?_
      cases ok with
      | true => exact ih
      | false => trivial

theorem everyAsk_starts (hchain : EventChain asJson kinds chain)
    {p : OutboundScript RelayCall RelayCall.Answer Unit}
    (hp : ConnectionStarts asJson ref subdomain chain p) :
    p.EveryAsk (TaskAllowed ref) (TaskSendsSafe sdk asJson ref) := by
  cases hp with
  | outbound n => exact everyAsk_outboundTask hchain n
  | inbound message =>
    exact everyAsk_left ((everyAsk_inboundChain hchain (some message)).bind fun _ => trivial)
  | connect => exact everyAsk_left ((everyAsk_onConnectChain hchain).bind fun _ => trivial)
  | other hp =>
    exact everyAsk_left ((hp.mono fun _ => sendsSafe_of_sendsNoEvent).of_allowed
      fun _ _ _ => trivial)

/-! ### The invariant -/

namespace ConnectionState

/-- Everything in the channel is safe. -/
def Safe (sdk : Sdk) (asJson : RelayMessage → String) (s : ConnectionState T) : Prop :=
  ∀ packet ∈ s.channel.sent, packet.Safe sdk asJson

variable {s s' : ConnectionState T}

theorem Safe.trySend (hs : s.Safe sdk asJson) {packet : Packet} (hp : packet.Safe sdk asJson)
    {channel : Channel} (h : s.channel.trySend packet = .ok channel) :
    ({ s with channel := channel } : ConnectionState T).Safe sdk asJson := by
  obtain ⟨-, rfl⟩ := Channel.trySend_ok h
  refine fun packet' hpacket => (List.mem_append.mp hpacket).elim (hs packet') fun hnew => ?_
  rwa [List.mem_singleton.mp hnew]

theorem Safe.environment (hs : s.Safe sdk asJson) (h : Environment sdk ref s s') :
    s'.Safe sdk asJson := by
  cases h with
  | changed => exact hs
  | broadcast event sub h =>
    refine hs.trySend ⟨fun sub' event' heq => ⟨rfl, fun json hjson => ?_⟩, False.elim⟩ h
    cases heq
    exact (Option.some.inj hjson).symm
  | unreadable message hm h => exact hs.trySend (safe_of_notEvent hm (serialized_of_none rfl)) h

theorem Safe.answers (hs : s.Safe sdk asJson) {call : RelayCall ⊕ OutboundCall}
    (hc : TaskSendsSafe sdk asJson ref call)
    {r : Sum.elim RelayCall.Answer OutboundCall.Answer call}
    (h : ConnectionState.answers canSee ref call s r s') : s'.Safe sdk asJson := by
  match call with
  | .inr .receive =>
    cases h with
    | closed => exact hs
    | batch => exact hs
  | .inr (.write _) | .inr .close =>
    rw [show s' = s from h]
    exact hs
  | .inl call =>
    cases call with
    | trySend ref' packet =>
      by_cases href : ref' = ref
      · cases h.1 href with
        | sent hsend => exact hs.trySend (hc href) hsend
        | refused => exact hs
      · rw [h.2 href]
        exact hs
    | eventContext | canSeeEvent | subscriptionCoordinator =>
      rw [h.2]
      exact hs
    | setAuthenticated =>
      rw [show s' = _ from h]
      exact hs
    | _ =>
      rw [show s' = s from h]
      exact hs

end ConnectionState

/-! ### The passes -/

/-- What the outbound step of `RelayMiddleware` leaves of an EVENT message. -/
theorem runs_relayOutbound_event {sub : SubscriptionId} {event : Event} {t : RelayHistory}
    {result : Option RelayMessage}
    (h : Runs (RelayMiddleware.processOutbound (some (.event sub event))) t (.ok result)) :
    result = none ∨ result = some (.event sub event) ∧ ∃ context,
      t = [⟨.eventContext, context⟩, ⟨.canSeeEvent event context, .ok true⟩] := by
  obtain ⟨context, t₁, rfl, h₁⟩ := runs_request_bind.mp h
  obtain ⟨r, t₂, rfl, h₂⟩ := runs_request_bind.mp h₁
  match r with
  | .ok true =>
    obtain ⟨rfl, heq⟩ := runs_done.mp h₂
    cases heq
    exact .inr ⟨rfl, context, rfl⟩
  | .ok false =>
    obtain ⟨-, heq⟩ := runs_done.mp h₂
    cases heq
    exact .inl rfl
  | .error e => cases (runs_done.mp h₂).2

theorem createsNoEvent_relay : CreatesNoEvent RelayMiddleware.processOutbound := by
  intro message t sub event h
  match message with
  | some (.event sub' event') =>
    obtain hnone | ⟨heq, -⟩ := runs_relayOutbound_event h
    · cases hnone
    · exact heq.symm
  | none | some (.endOfStoredEvents _) | some (.ok ..) | some (.notice _) | some (.closed ..)
  | some (.auth _) | some (.count ..) | some (.negMsg ..) | some (.negErr ..) =>
    cases (runs_done.mp h).2

theorem createsNoEvent_processOutboundChain (hchain : EventChain asJson kinds chain)
    (position : ℕ) :
    CreatesNoEvent (processOutboundChain position (chain.map Middleware.processOutbound)) := by
  induction chain with
  | nil =>
    intro message t sub event h
    exact (Except.ok.inj (runs_done.mp h).2).symm
  | cons m chain ih =>
    have hrest := ih fun m' hm' => hchain m' (List.mem_cons_of_mem _ hm')
    have hm : CreatesNoEvent m.processOutbound := by
      obtain rfl | hleaves := hchain m (List.mem_cons_self ..)
      · exact createsNoEvent_relay
      · exact hleaves.outbound
    intro message t sub event h
    rw [List.map_cons, processOutboundChain] at h
    split at h
    · obtain ⟨t₁, inner, t₂, -, h₁, h₂⟩ := runs_andThen_ok.mp h
      obtain rfl := hm _ _ _ _ h₂
      exact hrest _ _ _ _ h₁
    · exact hrest _ _ _ _ h

/-- An EVENT message that is not dropped was shown first of all, if the other middlewares put
nothing into the place of a message that was dropped. -/
theorem shown_processOutboundChain
    (hdropped : ∀ m ∈ outer, KeepsDropped m.processOutbound) {sub : SubscriptionId} {event : Event}
    {t : RelayHistory} {result : Option RelayMessage}
    (h : Runs (processOutboundChain 0
      ((outer ++ [RelayMiddleware.middleware kinds]).map Middleware.processOutbound)
      (some (.event sub event))) t (.ok result)) :
    result = none ∨ ∃ context t',
      t = ⟨.eventContext, context⟩ :: ⟨.canSeeEvent event context, .ok true⟩ :: t' := by
  induction outer generalizing t result with
  | nil =>
    obtain ⟨t₁, inner, t₂, rfl, h₁, h₂⟩ := runs_andThen_ok.mp h
    obtain ⟨rfl, heq⟩ := runs_done.mp h₁
    cases heq
    obtain hnone | ⟨-, context, rfl⟩ := runs_relayOutbound_event h₂
    · exact .inl hnone
    · exact .inr ⟨context, [], rfl⟩
  | cons m outer ih =>
    rw [List.cons_append, List.map_cons, processOutboundChain, if_pos (Nat.zero_le _)] at h
    obtain ⟨t₁, inner, t₂, rfl, h₁, h₂⟩ := runs_andThen_ok.mp h
    obtain rfl | ⟨context, t', rfl⟩ :=
      ih (fun m' hm' => hdropped m' (List.mem_cons_of_mem _ hm')) h₁
    · exact .inl (hdropped m (List.mem_cons_self ..) _ _ h₂)
    · exact .inr ⟨context, t' ++ t₂, rfl⟩

/-! ### What is written -/

/-- A question to a task of a connection, its answer, and the connection at that moment. -/
abbrev ConnectionMoment (T : Type) :=
  Moment (Sum.elim RelayCall.Answer OutboundCall.Answer) (ConnectionState T)

/-- The first thing that was done is to ask the processor about the event, with the event context
of the connection, and it let the event be seen in the state that the connection had then. -/
def Shown (canSee : CanSeeEvent T) (event : Event) (moments : List (ConnectionMoment T)) : Prop :=
  ∃ m₁ m₂ rest, moments = m₁ :: m₂ :: rest ∧
    m₁.asked = ⟨.inl .eventContext, m₁.state.eventContext⟩ ∧
    m₂.asked = ⟨.inl (.canSeeEvent event m₁.state.eventContext), .ok true⟩ ∧
    canSee event m₂.state.customState m₁.state.eventContext (.ok true)

/-- The text of a message that is no EVENT. -/
def OtherText (asJson : RelayMessage → String) (text : String) : Prop :=
  ∃ message : RelayMessage, message.NotEvent ∧ text = asJson message

/-- The text of an EVENT message, as it is serialized or as the registry puts it together. -/
def EventText (sdk : Sdk) (asJson : RelayMessage → String) (sub : SubscriptionId) (event : Event)
    (text : String) : Prop :=
  text = asJson (.event sub event) ∨
    text = SubscriptionRegistry.eventJson sub (sdk.asJson event)

/-- The pass of a message with this text, in these moments. If the text is that of an event, the
event was shown. -/
structure VisiblePass (canSee : CanSeeEvent T) (sdk : Sdk) (asJson : RelayMessage → String)
    (chain : List Middleware) (moments : List (ConnectionMoment T))
    (pass : Pass RelayCall RelayCall.Answer) (text : String) : Prop where
  asked : moments.map Moment.asked = pass.history.map leftAsked
  through : pass.Through (chain.map Middleware.processOutbound)
  written : pass.text asJson = some text
  visible : OtherText asJson text ∨ ∃ sub event, pass.packet.message = .event sub event ∧
    EventText sdk asJson sub event text ∧ Shown canSee event moments

/-- Whatever the task has written is the text of a message that it had taken before, and that had
passed the chain visibly. -/
def WritesVisible (canSee : CanSeeEvent T) (sdk : Sdk) (asJson : RelayMessage → String)
    (chain : List Middleware) (past : List (ConnectionMoment T)) : Prop :=
  ∀ past₁ m past₂ text r, past = past₁ ++ m :: past₂ → m.asked = ⟨.inr (.write text), r⟩ →
    ∃ before moments after pass, past₁ = before ++ (moments ++ after) ∧
      pass.packet ∈ taken (before.map Moment.asked) ∧
      VisiblePass canSee sdk asJson chain moments pass text

/-- The middlewares of `build_with` around `RelayMiddleware`. -/
def around (config : ChainConfig) (custom : List Middleware) : List Middleware :=
  if config.withoutDefaults then
    .identity :: .identity :: .identity :: config.metrics.getD .identity :: custom
  else
    .identity :: ErrorHandlingMiddleware.middleware :: config.auth.getD .identity ::
      config.metrics.getD .identity :: custom

theorem buildWith_eq (config : ChainConfig) (kinds : KindRanges) (custom : List Middleware) :
    buildWith config kinds custom = around config custom ++ [RelayMiddleware.middleware kinds] := by
  rw [buildWith, around]
  split <;> rfl

/-- A property of the middlewares that were given holds of all around `RelayMiddleware`. -/
theorem forall_mem_around {P : Middleware → Prop} {config : ChainConfig} {custom : List Middleware}
    (h : ∀ m ∈ given config custom, P m) (hidentity : P .identity)
    (herror : P ErrorHandlingMiddleware.middleware) : ∀ m ∈ around config custom, P m := by
  have hoption : ∀ m : Option Middleware, (∀ m' ∈ m.toList, m' ∈ given config custom) →
      P (m.getD .identity) := fun m hm => by
    cases m with
    | none => exact hidentity
    | some m => exact h m (hm m (List.mem_singleton_self m))
  have hmetrics := hoption config.metrics fun m hm => by simp [given] at hm ⊢; simp [hm]
  have hauth := hoption config.auth fun m hm => by simp [given] at hm ⊢; simp [hm]
  have hcustom : ∀ m ∈ custom, P m := fun m hm => h m (List.mem_append_right _ hm)
  rw [around]
  split
  · exact List.forall_mem_cons.mpr ⟨hidentity, List.forall_mem_cons.mpr ⟨hidentity,
      List.forall_mem_cons.mpr ⟨hidentity, List.forall_mem_cons.mpr ⟨hmetrics, hcustom⟩⟩⟩⟩
  · exact List.forall_mem_cons.mpr ⟨hidentity, List.forall_mem_cons.mpr ⟨herror,
      List.forall_mem_cons.mpr ⟨hauth, List.forall_mem_cons.mpr ⟨hmetrics, hcustom⟩⟩⟩⟩

theorem leavesEvents_identity : LeavesEvents asJson .identity where
  onConnect _ := trivial
  inbound _ := .tail trivial
  asks _ := trivial
  outbound _ _ _ _ h := (Except.ok.inj (runs_done.mp h).2).symm

theorem keepsDropped_identity : KeepsDropped Middleware.identity.processOutbound :=
  fun _ _ h => Except.ok.inj (runs_done.mp h).2

theorem leavesEvents_errorHandling : LeavesEvents asJson ErrorHandlingMiddleware.middleware where
  onConnect _ := trivial
  inbound ctx := by
    refine .call trivial fun r => ?_
    match r with
    | .ok _ | .error (.other _) => exact .done _
    | .error (.error e) =>
      dsimp only
      split
      · rename_i id _
        exact .ask ⟨notEvent_errorMessage id e, serialized_of_none rfl⟩ fun _ _ => .done _
      · exact .done _
  asks _ := trivial
  outbound _ _ _ _ h := (Except.ok.inj (runs_done.mp h).2).symm

theorem keepsDropped_errorHandling :
    KeepsDropped ErrorHandlingMiddleware.middleware.processOutbound :=
  fun _ _ h => Except.ok.inj (runs_done.mp h).2

theorem eventChain_buildWith {config : ChainConfig} {custom : List Middleware}
    (h : ∀ m ∈ given config custom, LeavesEvents asJson m) (kinds : KindRanges) :
    EventChain asJson kinds (buildWith config kinds custom) := by
  rw [buildWith_eq]
  intro m hm
  obtain hm | hm := List.mem_append.mp hm
  · exact .inr (forall_mem_around h leavesEvents_identity leavesEvents_errorHandling m hm)
  · exact .inl (List.mem_singleton.mp hm)

theorem answer_nonempty (call : RelayCall ⊕ OutboundCall) :
    Nonempty (Sum.elim RelayCall.Answer OutboundCall.Answer call) := by
  match call with
  | .inl call => exact ⟨call.succeed⟩
  | .inr .receive => exact ⟨(none : Option (List Packet))⟩
  | .inr (.write _) | .inr .close => exact ⟨(.ok () : Except String Unit)⟩

/-- The moments of a task of a connection: its questions were answered, and what was in the channel
was safe. -/
structure Moments (canSee : CanSeeEvent T) (sdk : Sdk) (asJson : RelayMessage → String)
    (ref : ChannelRef) (past : List (ConnectionMoment T)) : Prop where
  answered : ∀ m ∈ past,
    ∃ s', ConnectionState.answers canSee ref m.asked.1 m.state m.asked.2 s'
  safe : ∀ m ∈ past, m.state.Safe sdk asJson

theorem Moments.mono {past past' : List (ConnectionMoment T)}
    (h : Moments canSee sdk asJson ref past) (hsub : ∀ m ∈ past', m ∈ past) :
    Moments canSee sdk asJson ref past' :=
  ⟨fun m hm => h.answered m (hsub m hm), fun m hm => h.safe m (hsub m hm)⟩

/-- What a task took from the channel was safe. -/
theorem Moments.taken {past : List (ConnectionMoment T)} (h : Moments canSee sdk asJson ref past)
    {packet : Packet} (hpacket : packet ∈ taken (past.map Moment.asked)) :
    packet.Safe sdk asJson := by
  obtain ⟨asked, hasked, hmem⟩ := List.mem_flatMap.mp hpacket
  obtain ⟨⟨s, call, r⟩, hm, rfl⟩ := List.mem_map.mp hasked
  obtain ⟨s', hanswer⟩ := h.answered _ hm
  match call, r with
  | .inr .receive, some batch =>
    cases hanswer with
    | batch heq =>
      have hdrop : packet ∈ s.channel.sent.drop s.channel.received := by
        rw [heq]
        exact List.mem_append_left _ hmem
      exact h.safe _ hm packet (List.mem_of_mem_drop hdrop)
  | .inr .receive, none | .inr (.write _), _ | .inr .close, _ | .inl _, _ => cases hmem

/-- A pass that begins with a check was shown. -/
theorem Moments.shown {moments : List (ConnectionMoment T)}
    (h : Moments canSee sdk asJson ref moments) {event : Event} {context : EventContext}
    {t : RelayHistory} (hasked : moments.map Moment.asked =
      (⟨.eventContext, context⟩ :: ⟨.canSeeEvent event context, .ok true⟩ :: t : RelayHistory).map
        leftAsked) : Shown canSee event moments := by
  match moments with
  | [] => cases hasked
  | [_] =>
    injection hasked with _ hasked
    cases hasked
  | ⟨s₁, asked₁⟩ :: ⟨s₂, asked₂⟩ :: rest =>
    injection hasked with h₁ hasked
    injection hasked with h₂ _
    obtain rfl : asked₁ = _ := h₁
    obtain rfl : asked₂ = _ := h₂
    obtain ⟨_, hcontext, -⟩ := h.answered _ (List.mem_cons_self ..)
    obtain ⟨_, hseen, -⟩ := h.answered _ (List.mem_cons_of_mem _ (List.mem_cons_self ..))
    obtain rfl : context = s₁.eventContext := hcontext
    exact ⟨_, _, rest, rfl, rfl, rfl, hseen⟩

/-- The pass of a safe packet is visible. -/
theorem visiblePass {moments : List (ConnectionMoment T)}
    (h : Moments canSee sdk asJson ref moments) {config : ChainConfig} {custom : List Middleware}
    (hgiven : ∀ m ∈ given config custom, LeavesEvents asJson m)
    (hdropped : ∀ m ∈ given config custom, KeepsDropped m.processOutbound)
    {pass : Pass RelayCall RelayCall.Answer} {text : String}
    (hasked : moments.map Moment.asked = pass.history.map leftAsked)
    (hthrough : pass.Through ((buildWith config kinds custom).map Middleware.processOutbound))
    (htext : pass.text asJson = some text) (hsafe : pass.packet.Safe sdk asJson) :
    VisiblePass canSee sdk asJson (buildWith config kinds custom) moments pass text := by
  refine ⟨hasked, hthrough, htext, ?_⟩
  obtain ⟨⟨original, position, json⟩, t, result⟩ := pass
  have hcreates := createsNoEvent_processOutboundChain (eventChain_buildWith hgiven kinds) position
  match result with
  | .error e | .ok none => cases htext
  | .ok (some message) =>
    obtain rfl : (jsonToUse original message json).getD (asJson message) = text :=
      Option.some.inj htext
    obtain ⟨sub, event, rfl⟩ | horiginal := original.event_or_notEvent
    · obtain ⟨hposition, hjson⟩ := hsafe.event sub event rfl
      obtain rfl : position = 0 := hposition
      have hshown : Shown canSee event moments := by
        rw [Pass.Through, buildWith_eq] at hthrough
        obtain hnone | ⟨context, t', rfl⟩ := shown_processOutboundChain
          (forall_mem_around hdropped keepsDropped_identity keepsDropped_errorHandling) hthrough
        · cases hnone
        · exact h.shown hasked
      have hnot : ¬ EventReplaced (.event sub event) message := fun hreplaced => by
        obtain ⟨sub', event', rfl⟩ | hmessage := message.event_or_notEvent
        · cases hcreates _ _ _ _ hthrough
          exact hreplaced rfl
        · cases message <;> first | exact hmessage | exact hreplaced
      rw [jsonToUse_of_not_replaced hnot]
      cases json with
      | some json => exact .inr ⟨sub, event, rfl, .inr (hjson json rfl), hshown⟩
      | none =>
        obtain ⟨sub', event', rfl⟩ | hmessage := message.event_or_notEvent
        · cases hcreates _ _ _ _ hthrough
          exact .inr ⟨sub, event, rfl, .inl rfl, hshown⟩
        · exact .inl ⟨message, hmessage, rfl⟩
    · have hmessage : message.NotEvent := by
        obtain ⟨sub', event', rfl⟩ | hmessage := message.event_or_notEvent
        · exact absurd (Option.some.inj (hcreates _ _ _ _ hthrough)) (horiginal.ne _ _)
        · exact hmessage
      have hnot : ¬ EventReplaced original message := fun hreplaced => by
        cases message <;> cases original <;> first | exact hmessage | exact hreplaced
      rw [jsonToUse_of_not_replaced hnot]
      cases json with
      | some json => exact .inl ⟨original, horiginal, hsafe.other horiginal json rfl⟩
      | none => exact .inl ⟨message, hmessage, rfl⟩

/-- A task that writes is the outbound task. -/
theorem runs_of_writes {p : OutboundScript RelayCall RelayCall.Answer Unit}
    (hp : ConnectionStarts asJson ref subdomain chain p)
    {t : OutboundHistory RelayCall RelayCall.Answer} {u : Unit} (hrun : Runs p t u) {text : String}
    {r : Except String Unit} (hmem : ⟨.inr (.write text), r⟩ ∈ t) :
    ∃ n, Runs (outboundTask asJson (chain.map Middleware.processOutbound) n) t u := by
  cases hp with
  | outbound n => exact ⟨n, hrun⟩
  | inbound | connect | other =>
    obtain ⟨t₀, rfl, -⟩ := runs_left.mp hrun
    exact (write_not_mem_left hmem).elim

/-- **Only visible events are written.** In every situation that can be reached, if the middlewares
around `RelayMiddleware` neither create nor rewrite EVENT messages, and put nothing into the place
of a message that was dropped, then whatever was written of an event was shown by the processor,
with the state of the connection at that moment. -/
theorem writesVisible (canSee : CanSeeEvent T) (sdk : Sdk) (asJson : RelayMessage → String)
    (ref : ChannelRef) (subdomain : Scope) (kinds : KindRanges) {config : ChainConfig}
    {custom : List Middleware} (hgiven : ∀ m ∈ given config custom, LeavesEvents asJson m)
    (hdropped : ∀ m ∈ given config custom, KeepsDropped m.processOutbound)
    {s₀ : ConnectionState T} (hs₀ : s₀.channel.sent = [])
    {c : Situation (Sum.elim RelayCall.Answer OutboundCall.Answer) (ConnectionState T)}
    (h : (connectionSystem canSee sdk asJson ref subdomain
      (buildWith config kinds custom)).Reachable s₀ c) :
    ∀ task ∈ c.tasks,
      WritesVisible canSee sdk asJson (buildWith config kinds custom) task.past := by
  have hchain := eventChain_buildWith hgiven kinds
  have hsafe := (h.invariant (I := ConnectionState.Safe sdk asJson)
    (fun packet hpacket => by rw [hs₀] at hpacket; cases hpacket)
    (fun p hp => everyAsk_starts hchain hp)
    (fun call s r s' _ hr => by
      cases call with
      | inl call => cases call <;> first | exact hr.1 | trivial
      | inr _ => trivial)
    (fun call s r s' hs hc hr => hs.answers hc hr) fun s s' hs h' => hs.environment h').2
  intro task htask past₁ m past₂ text r hpast hm
  obtain ⟨hstarted, hreaches, hanswered⟩ := h.task task htask
  have hmoments : Moments canSee sdk asJson ref task.past := ⟨hanswered, (hsafe task htask).2⟩
  obtain ⟨t', u, hrun⟩ := hreaches.complete answer_nonempty
  rw [hpast, List.map_append, List.map_cons, hm, List.append_assoc] at hrun
  obtain ⟨n, hrun'⟩ := runs_of_writes hstarted hrun
    (List.mem_append_right _ (List.mem_cons_self ..))
  obtain ⟨pass, ⟨u₁, u₂, ht, hthrough, htaken⟩, htext⟩ := runs_outboundTask_write hrun' rfl
  obtain ⟨before, rest, rfl, rfl, hrest⟩ := List.map_eq_append_iff.mp ht
  obtain ⟨moments, after, rfl, hasked, -⟩ := List.map_eq_append_iff.mp hrest
  refine ⟨before, moments, after, pass, rfl, htaken, ?_⟩
  refine visiblePass (hmoments.mono fun m hm => ?_) hgiven hdropped hasked hthrough htext
    ((hmoments.mono fun m hm => ?_).taken htaken)
  · rw [hpast]
    simp [hm]
  · rw [hpast]
    simp [hm]

/-! ### Examples -/

/-- A serialization for one example. -/
def exampleJson : RelayMessage → String
  | .event sub _ => SubscriptionRegistry.eventJson sub "{}"
  | .notice message => "[\"NOTICE\",\"" ++ message ++ "\"]"
  | _ => "[]"

/-- Libraries for one example. -/
def exampleLibraries : Sdk := ⟨Filter.matchEvent, fun _ => "{}", HashOrder.insertion⟩

/-- A processor that always gives the same answer. -/
def seeAll (visible : Bool) : CanSeeEvent Unit := fun _ _ _ r => r = .ok visible

/-- A connection to which nothing was sent. -/
def exampleConnection : ConnectionState Unit := ⟨(), ⟨none, .default, 0⟩, Channel.new 8⟩

/-- A middleware that tells the client about messages that were dropped. -/
def announceDropped : Middleware where
  onConnect _ := pure (.ok ())
  processInbound := passOn
  processOutbound message := pure (.ok (some (message.getD (.notice "hidden"))))

theorem leavesEvents_announceDropped : LeavesEvents asJson announceDropped where
  onConnect _ := trivial
  inbound _ := .tail trivial
  asks _ := trivial
  outbound message t sub event h := by
    have heq := Option.some.inj (Except.ok.inj (runs_done.mp h).2)
    cases message with
    | none => cases heq
    | some message => exact congrArg some heq.symm

/-- The chain of the examples. -/
abbrev exampleChain (custom : List Middleware) : List Middleware :=
  buildWith ⟨false, none, none⟩ .nip01 custom

/-- The text of the event that is broadcast. -/
abbrev exampleText : String := "[\"EVENT\",\"feed\",{}]"

/-- An event is broadcast, and the outbound task writes its text. -/
theorem broadcast_reachable (visible : Bool) (custom : List Middleware)
    (hcustom : visible = true ∧ custom = [] ∨ visible = false ∧ custom = [announceDropped]) :
    ∃ s p past, (connectionSystem (seeAll visible) exampleLibraries exampleJson 0 .default
        (exampleChain custom)).Reachable exampleConnection ⟨s, [⟨p, past, .done ()⟩]⟩ ∧
      past.map Moment.asked = [⟨.inr .receive, some [⟨.event "feed" (Event.note 5), 0,
          some exampleText⟩]⟩,
        ⟨.inl .eventContext, ⟨none, .default, 0⟩⟩,
        ⟨.inl (.canSeeEvent (Event.note 5) ⟨none, .default, 0⟩), .ok visible⟩,
        ⟨.inr (.write exampleText), .ok ()⟩] := by
  have hstep := System.Reachable.initial.step (S := connectionSystem (seeAll visible)
    exampleLibraries exampleJson 0 .default (exampleChain custom)) (.environment
      (.broadcast (s := exampleConnection) (Event.note 5) "feed" rfl))
  let packet : Packet := ⟨.event "feed" (Event.note 5), 0, some exampleText⟩
  have hexec : Exec (ConnectionState.answers (seeAll visible) 0)
      (outboundTask exampleJson ((exampleChain custom).map Middleware.processOutbound) 1)
      { exampleConnection with channel := ⟨8, [packet], 0, true⟩ }
      [⟨.inr .receive, some [packet]⟩, ⟨.inl .eventContext, ⟨none, .default, 0⟩⟩,
        ⟨.inl (.canSeeEvent (Event.note 5) ⟨none, .default, 0⟩), .ok visible⟩,
        ⟨.inr (.write exampleText), .ok ()⟩] ()
      { exampleConnection with channel := ⟨8, [packet], 1, true⟩ } := by
    refine .ask _ (.batch rfl (by simp) (by simp)) ?_
    obtain ⟨rfl, rfl⟩ | ⟨rfl, rfl⟩ := hcustom
    · exact .ask _ ⟨rfl, rfl⟩ (.ask _ ⟨rfl, rfl⟩ (.ask _ rfl (.done _ _)))
    · exact .ask _ ⟨rfl, rfl⟩ (.ask _ ⟨rfl, rfl⟩ (.ask _ rfl (.done _ _)))
  obtain ⟨past, hpast, h⟩ := hstep.exec (.outbound 1) hexec
  exact ⟨_, _, past, h, hpast⟩

theorem broadcast_writesVisible :
    ∃ s p past, past.map Moment.asked = [⟨.inr .receive, some [⟨.event "feed" (Event.note 5), 0,
          some exampleText⟩]⟩,
        ⟨.inl .eventContext, ⟨none, .default, 0⟩⟩,
        ⟨.inl (.canSeeEvent (Event.note 5) ⟨none, .default, 0⟩), .ok true⟩,
        ⟨.inr (.write exampleText), .ok ()⟩] ∧
      (connectionSystem (seeAll true) exampleLibraries exampleJson 0 .default
        (exampleChain [])).Reachable exampleConnection ⟨s, [⟨p, past, .done ()⟩]⟩ ∧
      WritesVisible (seeAll true) exampleLibraries exampleJson (exampleChain []) past := by
  obtain ⟨s, p, past, h, hpast⟩ := broadcast_reachable true [] (.inl ⟨rfl, rfl⟩)
  refine ⟨s, p, past, hpast, h, ?_⟩
  refine writesVisible (seeAll true) exampleLibraries exampleJson 0 .default .nip01 ?_ ?_ rfl h
    ⟨p, past, .done ()⟩ (List.mem_singleton_self _)
  · exact fun m hm => nomatch hm
  · exact fun m hm => nomatch hm

theorem exampleText_ne (message : RelayMessage) (hm : message.NotEvent) :
    exampleText ≠ exampleJson message := by
  intro heq
  have hchar := congrArg (fun text => text.toList[2]?) heq
  cases message with
  | event => exact hm
  | notice text => simp [exampleJson, exampleText] at hchar
  | _ => simp [exampleJson, exampleText] at hchar

/-- The text of an event is written that the processor has just hidden, when a middleware announces
messages that were dropped. -/
theorem hidden_event_disclosed :
    ¬ ∀ (canSee : CanSeeEvent Unit) (sdk : Sdk) (asJson : RelayMessage → String)
      (custom : List Middleware) (s₀ : ConnectionState Unit)
      (c : Situation (Sum.elim RelayCall.Answer OutboundCall.Answer) (ConnectionState Unit)),
      (∀ m ∈ custom, LeavesEvents asJson m) → s₀.channel.sent = [] →
      (connectionSystem canSee sdk asJson 0 .default (exampleChain custom)).Reachable s₀ c →
      ∀ task ∈ c.tasks, WritesVisible canSee sdk asJson (exampleChain custom) task.past := by
  intro hall
  obtain ⟨s, p, past, h, hpast⟩ :=
    broadcast_reachable false [announceDropped] (.inr ⟨rfl, rfl⟩)
  have hwritten : ⟨.inr (.write exampleText), .ok ()⟩ ∈ past.map Moment.asked := by
    rw [hpast]
    simp
  obtain ⟨m, hmem, hm⟩ := List.mem_map.mp hwritten
  obtain ⟨past₁, past₂, rfl⟩ := List.append_of_mem hmem
  obtain ⟨before, moments, after, pass, -, -, hpass⟩ := hall (seeAll false) exampleLibraries
    exampleJson [announceDropped] exampleConnection _
    (fun m hm => List.mem_singleton.mp hm ▸ leavesEvents_announceDropped) rfl h _
    (List.mem_singleton_self _) past₁ m past₂ _ _ rfl hm
  obtain ⟨message, hmessage, heq⟩ | ⟨_, _, -, -, m₁, m₂, rest, -, -, -, hseen⟩ := hpass.visible
  · exact exampleText_ne message hmessage heq
  · cases hseen

end RelayBuilder
