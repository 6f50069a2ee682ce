import RelayBuilder.Interleave.Once
import RelayBuilder.IndexVacancy
import RelayBuilder.RegistryChanges
import RelayBuilder.RelayPool
import RelayBuilder.StoredEvents

/-!
# Stored events, EOSE, and new events

What the client receives for a new subscription: the stored events that the REQ fetches, then EOSE,
and only then the events that are distributed to the subscription. The REQ runs among any other
tasks, which may push messages into the same channel, distribute events and change the registry.
They do not use the subscription's id on this connection.

A distribution reaches the subscription only if its index held one of its filters, and these are
inserted when EOSE is in the channel already.

## Main definitions

* `Request`, its `log` in the channel of the connection, and `Request.InOrder`
* `RelayOp`: the REQ, and what other tasks do meanwhile

## Main results

* `Request.answeredInOrder`
-/

namespace RelayBuilder

open Interleave Script

open SubscriptionRegistry

/-- A REQ of a connection. -/
structure Request where
  coordinator : SubscriptionCoordinator
  sub : SubscriptionId
  filters : List Filter
  scope : Scope

namespace Request

variable {r : Request} {sdk : Sdk} {s s' : SubscriptionRegistry} {κ : Key} {event : Event}
  {packet : Packet} {packets : List Packet} {α : Type}

/-- The key of the subscription. -/
def key (r : Request) : Key := (r.coordinator.connectionId, r.sub)

/-- The sender of the connection. -/
def sender (r : Request) : MessageSender := r.coordinator.outgoingSender

/-- The message is an EVENT of the subscription, or its EOSE. -/
def concerns (r : Request) (packet : Packet) : Bool :=
  match packet.message with
  | .event sub _ => sub == r.sub
  | .endOfStoredEvents sub => sub == r.sub
  | _ => false

/-- What was put into the channel of the connection about the subscription. -/
def log (r : Request) (s : SubscriptionRegistry) : List Packet :=
  (s.channels r.sender.channel).sent.filter r.concerns

/-- EOSE, as the coordinator sends it. -/
def eose (r : Request) : Packet := r.sender.packet (.endOfStoredEvents r.sub)

/-- A stored event, as the coordinator sends it. -/
def stored (r : Request) (event : Event) : Packet := r.sender.packetBypass (.event r.sub event)

/-- An event, as a distribution sends it: with its text. -/
def IsNew (r : Request) (sdk : Sdk) (packet : Packet) : Prop :=
  ∃ event, packet.message = .event r.sub event ∧
    packet.json = some (eventJson r.sub (sdk.asJson event))

/-- Stored events, and new ones after EOSE. -/
def InOrder (r : Request) (sdk : Sdk) (packets : List Packet) : Prop :=
  ∃ events : List Event, packets = events.map r.stored ∨
    ∃ new, packets = events.map r.stored ++ r.eose :: new ∧ ∀ packet ∈ new, r.IsNew sdk packet

/-- EOSE was sent. -/
def Answered (r : Request) (s : SubscriptionRegistry) : Prop := r.eose ∈ r.log s

theorem eose_notMem_stored (events : List Event) : r.eose ∉ events.map r.stored := by
  intro h
  obtain ⟨event, -, heq⟩ := List.mem_map.mp h
  cases congrArg Packet.message heq

theorem InOrder.append_stored (h : r.InOrder sdk packets) (hlog : r.eose ∉ packets)
    (event : Event) :
    r.InOrder sdk (packets ++ [r.stored event]) ∧ r.eose ∉ packets ++ [r.stored event] := by
  obtain ⟨events, rfl | ⟨new, rfl, -⟩⟩ := h
  · have heq : events.map r.stored ++ [r.stored event] = (events ++ [event]).map r.stored := by
      rw [List.map_append, List.map_singleton]
    rw [heq]
    exact ⟨⟨_, .inl rfl⟩, eose_notMem_stored _⟩
  · exact absurd (List.mem_append_right _ (List.mem_cons_self ..)) hlog

theorem InOrder.append_eose (h : r.InOrder sdk packets) (hlog : r.eose ∉ packets) :
    r.InOrder sdk (packets ++ [r.eose]) := by
  obtain ⟨events, rfl | ⟨new, rfl, -⟩⟩ := h
  · exact ⟨events, .inr ⟨[], rfl, fun _ h => (by cases h)⟩⟩
  · exact absurd (List.mem_append_right _ (List.mem_cons_self ..)) hlog

theorem InOrder.append_new (h : r.InOrder sdk packets) (hlog : r.eose ∈ packets)
    (hpacket : r.IsNew sdk packet) : r.InOrder sdk (packets ++ [packet]) := by
  obtain ⟨events, rfl | ⟨new, rfl, hnew⟩⟩ := h
  · exact absurd hlog (eose_notMem_stored events)
  · refine ⟨events, .inr ⟨new ++ [packet], by simp, fun p hp => ?_⟩⟩
    obtain hp | hp := List.mem_append.mp hp
    · exact hnew p hp
    · rwa [List.mem_singleton.mp hp]

/-! ### The invariant -/

/-- Nobody but the connection sends through its channel. -/
structure Wired (r : Request) (s : SubscriptionRegistry) : Prop where
  named : Named s
  alone : ∀ id, ∀ sender ∈ s.sender? id, sender.channel = r.sender.channel → id = r.key.1

/-- What always holds: the messages are in order, and before EOSE nothing is filed for the
subscription. -/
structure Inv (r : Request) (sdk : Sdk) (s : SubscriptionRegistry) : Prop where
  indexes : IndexesWellFormed s
  wired : r.Wired s
  inOrder : r.InOrder sdk (r.log s)
  vacant : r.Answered s ∨ Vacant r.key s

/-- What the tasks put up with. -/
structure Weak (r : Request) (s s' : SubscriptionRegistry) : Prop
    extends FilesAfter r.Answered r.key s s' where
  grows : IndexesGrow s s'

/-- What the REQ may count on: before EOSE, nobody else sends anything about the subscription. -/
structure Frame (r : Request) (s s' : SubscriptionRegistry) : Prop extends r.Weak s s' where
  log : ¬ r.Answered s → r.log s' = r.log s

/-- A change that keeps the messages in order, if something may be filed for the subscription. -/
structure Keeps (r : Request) (sdk : Sdk) (s s' : SubscriptionRegistry) : Prop where
  wired : r.Wired s → r.Wired s'
  grows : IndexesGrow s s'
  log : r.log s' = r.log s ∨
    r.Answered s ∧ ∃ packet, r.IsNew sdk packet ∧ r.log s' = r.log s ++ [packet]

/-- A change that also files nothing for the subscription. -/
structure Spares (r : Request) (sdk : Sdk) (s s' : SubscriptionRegistry) : Prop
    extends r.Keeps sdk s s' where
  vacant : Vacant r.key s → Vacant r.key s'

theorem Weak.refl (s : SubscriptionRegistry) : r.Weak s s := ⟨⟨fun h => h, .inr⟩, .refl s⟩

theorem Weak.trans {a b c : SubscriptionRegistry} (h : r.Weak a b) (h' : r.Weak b c) :
    r.Weak a c := by
  refine ⟨⟨fun ha => h'.stays (h.stays ha), fun hv => ?_⟩, h.grows.trans h'.grows⟩
  obtain hb | hb := h.vacant hv
  · exact .inl (h'.stays hb)
  · exact h'.vacant hb

theorem Frame.refl (s : SubscriptionRegistry) : r.Frame s s := ⟨.refl s, fun _ => rfl⟩

theorem Frame.trans {a b c : SubscriptionRegistry} (h : r.Frame a b) (h' : r.Frame b c) :
    r.Frame a c := by
  refine ⟨h.toWeak.trans h'.toWeak, fun ha => ?_⟩
  have hb : ¬ r.Answered b := by rwa [Answered, h.log ha]
  rw [h'.log hb, h.log ha]

theorem Keeps.answered (h : r.Keeps sdk s s') (hs : r.Answered s) : r.Answered s' := by
  obtain heq | ⟨-, packet, -, heq⟩ := h.log
  · rwa [Answered, heq]
  · rw [Answered, heq]
    exact List.mem_append_left _ hs

theorem Keeps.inv (h : r.Keeps sdk s s') (hs : r.Inv sdk s) (hwf : IndexesWellFormed s')
    (hvacant : r.Answered s ∨ (Vacant r.key s → Vacant r.key s')) : r.Inv sdk s' := by
  refine ⟨hwf, h.wired hs.wired, ?_, ?_⟩
  · obtain heq | ⟨hanswered, packet, hnew, heq⟩ := h.log
    · rw [heq]
      exact hs.inOrder
    · rw [heq]
      exact hs.inOrder.append_new hanswered hnew
  · obtain hs' | hs' := hs.vacant
    · exact .inl (h.answered hs')
    · exact hvacant.imp h.answered fun h => h hs'

theorem Keeps.weak (h : r.Keeps sdk s s')
    (hvacant : r.Answered s ∨ (Vacant r.key s → Vacant r.key s')) : r.Weak s s' :=
  ⟨⟨h.answered, fun hs => hvacant.imp h.answered fun h => h hs⟩, h.grows⟩

theorem Spares.frame (h : r.Spares sdk s s') : r.Frame s s' := by
  refine ⟨h.toKeeps.weak (.inr h.vacant), fun hs => ?_⟩
  obtain heq | ⟨hanswered, -⟩ := h.log
  · exact heq
  · exact absurd hanswered hs

/-! ### Changes that spare the subscription -/

theorem log_congr (h : s'.channels = s.channels) : r.log s' = r.log s := by
  rw [log, log, h]

theorem Wired.congr (h : r.Wired s) (hconnections : s'.connections = s.connections)
    (hconns : s'.conns = s.conns) : r.Wired s' := by
  refine ⟨h.named.congr hconnections, fun id sender hsender => ?_⟩
  rw [sender?_congr hconnections hconns] at hsender
  exact h.alone id sender hsender

theorem spares_of_same (h : SameParts s s') : r.Spares sdk s s' :=
  ⟨⟨fun hw => hw.congr h.connections h.conns, .of_eq h.indexes, .inl (log_congr h.channels)⟩,
    fun hv => hv.congr h.indexes⟩

theorem spares_updateConn (conn : ConnRef)
    {f : ConnectionSubscriptions → ConnectionSubscriptions}
    (hf : ∀ data, (f data).sender = data.sender) : r.Spares sdk s (s.updateConn conn f) := by
  refine ⟨⟨fun hw => ⟨hw.named, fun id sender hsender => ?_⟩, .of_eq rfl, .inl rfl⟩,
    fun hv => hv.congr rfl⟩
  rw [sender?_updateConn conn hf] at hsender
  exact hw.alone id sender hsender

theorem spares_erase (id : ConnectionId) :
    r.Spares sdk s { s with connections := s.connections.erase id } := by
  refine ⟨⟨fun hw => ⟨hw.named.erase id, fun id' sender hsender => ?_⟩, .of_eq rfl, .inl rfl⟩,
    fun hv => hv.congr rfl⟩
  rw [sender?_erase] at hsender
  split at hsender
  · cases hsender
  · exact hw.alone id' sender hsender

theorem spares_register {id : ConnectionId} {sender : MessageSender}
    (hsender : sender.channel = r.sender.channel → id = r.key.1) (auth : Option PublicKey)
    (subdomain : Scope) : r.Spares sdk s (register id sender auth subdomain s).2 := by
  refine ⟨⟨fun hw => ⟨hw.named.register id sender auth subdomain, fun id' sender' hmem => ?_⟩,
    .of_eq rfl, .inl rfl⟩, fun hv => hv.congr rfl⟩
  rw [sender?_register hw.named] at hmem
  split at hmem
  · next hid =>
    cases hmem
    rw [hid]
    exact hsender
  · exact hw.alone id' sender' hmem

/-- What is done to a channel at its other end. -/
theorem spares_setChannel (ch : ChannelRef) {f : Channel → Channel}
    (hf : ∀ channel, (f channel).sent = channel.sent) :
    r.Spares sdk s (s.setChannel ch (f (s.channels ch))) := by
  refine ⟨⟨fun hw => hw.congr rfl rfl, .of_eq rfl, .inl ?_⟩, fun hv => hv.congr rfl⟩
  simp only [Request.log, setChannel]
  split
  · next heq => rw [heq, hf]
  · rfl

theorem keeps_indexAction {scope : Scope} {touches : Key → Prop}
    (h : IndexAction scope touches s s') : r.Keeps sdk s s' := by
  refine ⟨fun hw => hw.congr ?_ ?_, h.grows, .inl (log_congr ?_)⟩
  all_goals rw [h.rest]

theorem spares_indexAction {scope : Scope} {touches : Key → Prop}
    (h : IndexAction scope touches s s') (htouches : ¬ touches r.key) : r.Spares sdk s s' :=
  ⟨keeps_indexAction h, fun hv => hv.indexAction h htouches⟩

theorem admits_spares : Admits (r.Spares sdk) where
  same _ _ h := spares_of_same h
  updateConn _ conn _ hf := spares_updateConn conn hf
  create s scope := by
    have h : IndexAction scope (fun _ => False) s (s.setIndex scope (s.indexOf scope)) :=
      indexAction_setIndex (.refl _) fun _ _ => .refl _ _
    exact spares_indexAction h fun h => h

/-! ### Programs of the registry -/

theorem acts_removeFromIndex (order : HashOrder) (scope : Scope) (κ : Key) :
    Acts (r.Spares sdk) (onIndex scope (SubscriptionIndex.removeSubscription order κ)) := by
  have hacts : Acts (IndexAction scope (· = κ))
      (onIndex scope (SubscriptionIndex.removeSubscription order κ)) :=
    acts_onIndex ((SubscriptionIndex.removeSubscription_triple κ False order []).conseq
      (fun _ _ => foreign_of_grows) (fun _ _ _ h => h) (fun _ _ _ h => h.elim) fun _ _ _ h => h)
  have hvacant : (onIndex scope (SubscriptionIndex.removeSubscription order κ)).Every
      fun s s' => Vacant r.key s → Vacant r.key s' :=
    (SubscriptionIndex.removeSubscription_filesNothing order κ).zoom _ _ _
      fun s index h hs => Vacant.setIndex hs (h _ (hs scope))
  exact fun s hwf _ => ((hacts s hwf trivial).every hvacant).conseq (fun _ _ h => h)
    (fun _ _ _ h => ⟨keeps_indexAction h.1, h.2⟩) fun _ _ _ h => h

theorem acts_cleanupConnection (order : HashOrder) (id : ConnectionId) :
    Acts (r.Spares sdk) (SubscriptionRegistry.cleanupConnection order id) :=
  admits_spares.cleanupConnection (fun _ => spares_erase id)
    fun scope sub => acts_removeFromIndex order scope (id, sub)

theorem acts_removeSubscription (order : HashOrder) (id : ConnectionId) (sub : SubscriptionId) :
    Acts (r.Spares sdk) (SubscriptionRegistry.removeSubscription order id sub) :=
  admits_spares.removeSubscription fun scope => acts_removeFromIndex order scope (id, sub)

theorem acts_addToIndex (κ : Key) (filters : List Filter) (scope : Scope) :
    Acts (IndexAction scope (· = κ))
      (onIndex scope (SubscriptionIndex.addSubscription κ filters)) :=
  acts_onIndex ((SubscriptionIndex.addSubscription_triple κ False [] filters).conseq
    (fun _ _ => foreign_of_grows) (fun _ _ _ h => h) (fun _ _ _ h => h.elim) fun _ _ _ h => h)

/-- Another subscription is added. -/
theorem acts_addSubscription {id : ConnectionId} {sub : SubscriptionId} (hκ : (id, sub) ≠ r.key)
    (filters : List Filter) :
    Acts (r.Spares sdk) (SubscriptionRegistry.addSubscription id sub filters) :=
  admits_spares.addSubscription filters fun scope =>
    (acts_addToIndex (id, sub) filters scope).mono fun _ _ h => spares_indexAction h (Ne.symm hκ)

/-- The subscription itself is added. -/
theorem acts_addOwn (filters : List Filter) :
    Acts (r.Keeps sdk) (SubscriptionRegistry.addSubscription r.key.1 r.key.2 filters) := by
  have hadmits : Admits (r.Keeps sdk) :=
    ⟨fun _ _ h => (spares_of_same h).toKeeps,
      fun _ conn _ hf => (spares_updateConn conn hf).toKeeps,
      fun s scope => (admits_spares.create s scope).toKeeps⟩
  exact hadmits.addSubscription filters fun scope =>
    (acts_addToIndex _ filters scope).mono fun _ _ h => keeps_indexAction h

/-- What spares the subscription keeps the invariant. -/
theorem spares_triple {p : Prog RegistryLock SubscriptionRegistry α} (h : Acts (r.Spares sdk) p) :
    Triple (r.Inv sdk) r.Weak r.Frame (fun _ => True) p fun _ _ => True := fun s hs _ =>
  ((h s hs.indexes trivial).inv (fun _ h => h.indexes) fun _ _ hs hwf hspares =>
    hspares.toKeeps.inv hs hwf (.inr hspares.vacant)).conseq (fun _ _ h => h.grows)
      (fun _ _ _ h => h.frame) fun _ _ _ h => h

/-- After EOSE, something may be filed for the subscription. -/
theorem keeps_triple {p : Prog RegistryLock SubscriptionRegistry α} (h : Acts (r.Keeps sdk) p) :
    Triple (r.Inv sdk) r.Weak r.Weak r.Answered p fun _ => r.Answered := by
  intro s hs hanswered
  have hinv : p.Ensures (fun s => r.Inv sdk s ∧ r.Answered s) IndexesGrow (r.Keeps sdk)
      (fun _ _ => True) s :=
    (h s hs.indexes trivial).inv (fun _ h => h.1.indexes) fun _ _ ⟨hs, ha⟩ hwf hkeeps =>
      ⟨hkeeps.inv hs hwf (.inl ha), hkeeps.answered ha⟩
  exact ((hinv.conseq (fun _ _ h => h.grows) (fun _ _ h hkeeps => hkeeps.weak (.inl h.2))
    fun _ _ _ h => h).within (fun _ _ hweak => hweak.stays) hanswered).conseq (fun _ _ h => h)
      (fun _ _ _ h => h) fun _ _ _ h => h.2

/-! ### Distributing an event -/

/-- A packet was put into a channel. -/
theorem log_put (ch : ChannelRef) (packet : Packet) :
    r.log (s.setChannel ch { s.channels ch with sent := (s.channels ch).sent ++ [packet] }) =
      if ch = r.sender.channel ∧ r.concerns packet = true then r.log s ++ [packet]
      else r.log s := by
  simp only [Request.log, setChannel]
  by_cases hch : ch = r.sender.channel
  · subst hch
    rw [if_pos rfl, List.filter_append, List.filter_singleton]
    by_cases hconcerns : r.concerns packet = true
    · simp [hconcerns]
    · simp [hconcerns]
  · rw [if_neg (Ne.symm hch), if_neg fun h => hch h.1]

/-- What a distribution sends to a subscription, if that is another one or EOSE was sent. -/
theorem spares_deliver (hw : r.Wired s) (h : r.Answered s ∨ κ ≠ r.key) :
    r.Spares sdk s (SubscriptionRegistry.deliver sdk event κ s).2 := by
  rw [SubscriptionRegistry.deliver]
  cases hdata : s.connection? κ.1 with
  | none => exact spares_of_same ⟨.refl s, rfl, rfl⟩
  | some data =>
    dsimp only
    split
    · next ch hch =>
      obtain ⟨-, rfl⟩ := Channel.trySend_ok hch
      refine ⟨⟨fun hw => hw.congr rfl rfl, .of_eq rfl, ?_⟩, fun hv => hv.congr rfl⟩
      rw [log_put]
      split
      · next hpacket =>
        -- only the connection itself sends through its channel
        have hid : κ.1 = r.key.1 := by
          refine hw.alone κ.1 data.sender ?_ hpacket.1
          rw [sender?, hdata]
          rfl
        have hsub : κ.2 = r.sub := by simpa [concerns, MessageSender.packetWithJson] using hpacket.2
        refine .inr ⟨h.resolve_right fun hne => hne (Prod.ext hid hsub), _, ⟨event, ?_, ?_⟩, rfl⟩
        · rw [← hsub]
          rfl
        · rw [← hsub]
          rfl
      · exact .inl rfl
    · exact spares_of_same ⟨.refl s, rfl, rfl⟩

theorem stable_matching (matching : List Key) :
    Stable (r.Inv sdk) r.Weak fun s => r.Answered s ∨ r.key ∉ matching :=
  fun _ _ hs _ h => h.imp_left hs.stays

/-- Before EOSE, the subscription is not among those that an index returns. -/
theorem look_up_triple (event : Event) (scope : Scope) :
    Triple (r.Inv sdk) r.Weak r.Frame (fun _ => True)
      (onIndex scope (SubscriptionIndex.distributeEvent sdk.matchEvent event))
      fun matching s => r.Answered s ∨ r.key ∉ matching := by
  intro s hs _
  have hvacant : (onIndex scope (SubscriptionIndex.distributeEvent sdk.matchEvent event)).Ensures
      (fun _ => True) r.Weak (fun _ _ => True) (fun matching s => r.Answered s ∨ r.key ∉ matching)
      s := distributeEvent_vacant Weak.refl (fun _ _ h => h.toFilesAfter) (fun _ _ h => h)
    sdk.matchEvent event s trivial hs.vacant
  have hboth := (acts_distributeEvent sdk event scope s hs.indexes trivial).add hvacant
  have hspares : ∀ {s s' : SubscriptionRegistry},
      IndexAction scope SubscriptionIndex.nothing s s' ∧ True → r.Spares sdk s s' :=
    fun h => spares_indexAction h.1 fun h => h
  refine (hboth.inv (fun _ h => h.indexes) fun _ _ hs hwf h => ?_).conseq
    (fun _ _ h => ⟨h.grows, h⟩) (fun _ _ _ h => (hspares h).frame) fun _ _ _ h => h.2
  exact (hspares h).toKeeps.inv hs hwf (.inr (hspares h).vacant)

theorem deliverAll_triple (event : Event) (matching : List Key) :
    Triple (r.Inv sdk) r.Weak r.Frame (fun s => r.Answered s ∨ r.key ∉ matching)
      (deliverAll sdk event matching) fun _ _ => True := by
  refine (Triple.foldlM (J := fun rest _ s => r.Answered s ∨ r.key ∉ rest) Weak.refl
    (fun _ => stable_matching []) (fun κ rest dead => ?_) matching []).post fun _ _ _ _ => trivial
  refine Triple.bind Weak.refl (Triple.atomic (Q := fun _ s => r.Answered s ∨ r.key ∉ rest)
    (stable_matching _) (fun _ => stable_matching rest) fun s hs h => ?_)
    fun _ => Triple.done (Q := fun _ s => r.Answered s ∨ r.key ∉ rest) (stable_matching rest)
  have hspares : r.Spares sdk s (SubscriptionRegistry.deliver sdk event κ s).2 := by
    refine spares_deliver hs.wired (h.imp_right fun hnot heq => hnot ?_)
    rw [heq]
    exact List.mem_cons_self ..
  have hwf := hs.indexes.of_eq (deliver_onlyChannels sdk event κ s).indexes
  refine ⟨hspares.toKeeps.inv hs hwf (.inr hspares.vacant), hspares.frame, ?_⟩
  exact h.imp hspares.toKeeps.answered fun hnot hmem => hnot (List.mem_cons_of_mem _ hmem)

theorem distributeEventIndexed_triple (event : Event) (scope : Scope) :
    Triple (r.Inv sdk) r.Weak r.Frame (fun _ => True) (distributeEventIndexed sdk event scope)
      fun _ _ => True := by
  refine Triple.bind Weak.refl (spares_triple admits_spares.read) fun exists_ => ?_
  cases exists_ with
  | false => exact spares_triple (acts_done _)
  | true =>
    refine Triple.bind Weak.refl (look_up_triple event scope) fun matching =>
      Triple.bind Weak.refl (deliverAll_triple event matching) fun dead => ?_
    exact spares_triple (Acts.forM (acts_cleanupConnection sdk.order) dead)

end Request

/-! ### Tasks -/

/-- The question does not concern the subscription. -/
def RelayCall.Spares (r : Request) : RelayCall → Prop
  | .trySend channel packet => channel = r.sender.channel → r.concerns packet = false
  | .addSubscription id sub _ => (id, sub) ≠ r.key
  | _ => True

/-- The method does not concern the subscription. -/
def RegistryOp.Spares (r : Request) : RegistryOp → Prop
  | .registerConnection id sender _ _ => sender.channel = r.sender.channel → id = r.key.1
  | .addSubscription id sub _ => (id, sub) ≠ r.key
  | _ => True

/-- A task of the relay that never concerns the subscription. -/
structure OtherTask (r : Request) where
  script : Relay Unit
  spares : script.EveryAsk (fun _ _ => True) (RelayCall.Spares r)

/-- The REQ, and what the relay and its clients do meanwhile. -/
inductive RelayOp (r : Request) where
  | req
  | task (other : OtherTask r)
  | method (op : RegistryOp) (spares : op.Spares r)

/-- The op is the REQ. -/
def RelayOp.IsReq {r : Request} : RelayOp r → Prop
  | .req => True
  | _ => False

instance {r : Request} : DecidablePred (RelayOp.IsReq (r := r)) := fun
  | .req => isTrue trivial
  | .task _ => isFalse id
  | .method _ _ => isFalse id

/-- The program of an op. -/
def RelayOp.code {r : Request} {Δ : Type} (sdk : Sdk) (services : Services Δ) :
    RelayOp r → Prog RelayLock (RelayState Δ) (Except Error Unit)
  | .req =>
    (r.coordinator.handleReq r.sub r.filters r.scope).interpret (RelayCall.code sdk services)
  | .task other => do
    other.script.interpret (RelayCall.code sdk services)
    pure (.ok ())
  | .method op _ => do
    let result ← RelayState.onRegistry (op.code sdk)
    pure (result.map fun _ => ())

namespace Request

variable {r : Request} {sdk : Sdk} {s s' : SubscriptionRegistry} {Δ α : Type}
  {services : Services Δ}

/-- The contract of a bystander. -/
abbrev Bystands (r : Request) (sdk : Sdk) (p : Prog RelayLock (RelayState Δ) α) : Prop :=
  Triple (fun t => r.Inv sdk t.registry) (fun t t' => r.Weak t.registry t'.registry)
    (fun t t' => r.Frame t.registry t'.registry) (fun _ => True) p fun _ _ => True

/-- The contract of a part of the REQ. -/
abbrev Does (r : Request) (sdk : Sdk) (P : SubscriptionRegistry → Prop)
    (p : Prog RelayLock (RelayState Δ) α) (Q : α → SubscriptionRegistry → Prop) : Prop :=
  Triple (fun t => r.Inv sdk t.registry) (fun t t' => r.Frame t.registry t'.registry)
    (fun t t' => r.Weak t.registry t'.registry) (fun t => P t.registry) p
    fun a t => Q a t.registry

/-- A program of the registry, on the whole state. -/
theorem onRegistry_triple {I P : SubscriptionRegistry → Prop}
    {R G : SubscriptionRegistry → SubscriptionRegistry → Prop}
    {p : Prog RegistryLock SubscriptionRegistry α} {Q : α → SubscriptionRegistry → Prop}
    (h : Triple I R G P p Q) :
    Triple (fun t : RelayState Δ => I t.registry) (fun t t' => R t.registry t'.registry)
      (fun t t' => G t.registry t'.registry) (fun t => P t.registry) (RelayState.onRegistry p)
      fun a t => Q a t.registry := by
  intro t hI hP
  rw [RelayState.onRegistry]
  refine Prog.Ensures.zoom (I := I) (R := R) (G := G) ?_ ?_ ?_ ?_ ?_
  · exact fun _ _ => rfl
  · exact fun _ h => h
  · exact fun _ _ h => h
  · exact fun _ _ _ hI hG => ⟨hI, hG⟩
  · exact h t.registry hI hP

theorem Bystands.bind {β : Type} {p : Prog RelayLock (RelayState Δ) α}
    {k : α → Prog RelayLock (RelayState Δ) β} (hp : r.Bystands sdk p)
    (hk : ∀ a, r.Bystands sdk (k a)) : r.Bystands sdk (p.bind k) :=
  Triple.bind (fun t => Weak.refl t.registry) hp hk

theorem bystands_done (a : α) : r.Bystands sdk (Prog.done a : Prog RelayLock (RelayState Δ) α) :=
  fun _ _ _ _ _ _ => trivial

/-- What is spared by the bystanders outlives a part of the REQ that is a bystander too. -/
theorem Bystands.does {p : Prog RelayLock (RelayState Δ) α} (h : r.Bystands sdk p)
    {A : SubscriptionRegistry → Prop} (hA : ∀ s s', r.Frame s s' → A s → A s') :
    r.Does sdk A p fun _ => A := by
  have hrely := h.conseq (S := fun t t' => r.Frame t.registry t'.registry)
    (fun _ _ h => h.toWeak) (fun _ _ _ h => h) (fun _ _ h => h) fun _ _ _ h => h
  have hframe := hrely.frame (A := fun t => A t.registry) (fun t t' h _ => hA _ _ h)
    fun t t' _ h => hA _ _ h
  exact hframe.conseq (fun _ _ h => h) (fun _ _ _ h => h.toWeak) (fun _ _ h => ⟨trivial, h⟩)
    fun _ _ _ h => h.2

theorem Frame.not_answered (h : r.Frame s s') (hs : ¬ r.Answered s) : ¬ r.Answered s' := by
  rwa [Answered, h.log hs]

/-- A packet about something else. -/
theorem spares_trySendTo {channel : ChannelRef} {packet : Packet}
    (h : channel = r.sender.channel → r.concerns packet = false) :
    r.Spares sdk s (trySendTo channel packet s).2 := by
  rw [trySendTo]
  split
  · next ch hch =>
    obtain ⟨-, rfl⟩ := Channel.trySend_ok hch
    refine ⟨⟨fun hw => hw.congr rfl rfl, .of_eq rfl, .inl ?_⟩, fun hv => hv.congr rfl⟩
    rw [log_put, if_neg]
    rintro ⟨hchannel, hconcerns⟩
    rw [h hchannel] at hconcerns
    cases hconcerns
  · exact spares_of_same ⟨.refl s, rfl, rfl⟩

/-- A question that does not concern the subscription. -/
theorem bystands_code (services : Services Δ) {call : RelayCall} (h : call.Spares r) :
    r.Bystands sdk (call.code sdk services) := by
  have hacts : ∀ {β : Type} {p : Prog RegistryLock SubscriptionRegistry β},
      Acts (r.Spares sdk) p → r.Bystands sdk (RelayState.onRegistry p : Prog _ (RelayState Δ) β) :=
    fun hp => onRegistry_triple (spares_triple hp)
  have hservice : ∀ {β : Type} (f : RelayState Δ → β × RelayState Δ),
      (∀ t, (f t).2.registry = t.registry) → r.Bystands sdk (Prog.atomic RelayLock.service f) := by
    intro β f hf
    refine Triple.atomic (stable_const True) (fun _ => stable_const True) fun t hinv _ => ?_
    rw [hf t]
    exact ⟨hinv, .refl _, trivial⟩
  cases call with
  | trySend channel packet =>
    exact hacts (acts_atomic fun s => ⟨by rw [trySendTo]; split <;> rfl, spares_trySendTo h⟩)
  | distributeEvent event scope =>
    exact Bystands.bind (onRegistry_triple (distributeEventIndexed_triple event scope)) fun _ =>
      bystands_done _
  | addSubscription id sub filters =>
    exact Bystands.bind (hacts (acts_addSubscription h filters)) fun _ => bystands_done _
  | removeSubscription id sub =>
    exact Bystands.bind (hacts (acts_removeSubscription sdk.order id sub)) fun _ =>
      bystands_done _
  | _ => exact hservice _ fun _ => rfl

/-- A method that does not concern the subscription. -/
theorem bystands_method {op : RegistryOp} (h : op.Spares r) :
    r.Bystands sdk (RelayState.onRegistry (op.code sdk) : Prog _ (RelayState Δ) _) := by
  suffices h : Triple (r.Inv sdk) r.Weak r.Frame (fun _ => True) (op.code sdk) fun _ _ => True
    from onRegistry_triple h
  have hacts : ∀ {β : Type} {p : Prog RegistryLock SubscriptionRegistry β} (f : β → RegistryResult),
      Acts (r.Spares sdk) p → Triple (r.Inv sdk) r.Weak r.Frame (fun _ => True)
        (p.bind fun a => Prog.done (f a)) fun _ _ => True :=
    fun f hp => spares_triple (hp.bind fun _ => acts_done _)
  cases op with
  | registerConnection id sender auth subdomain =>
    exact hacts _ (acts_atomic fun s => ⟨rfl, spares_register h auth subdomain⟩)
  | addSubscription id sub filters => exact hacts _ (acts_addSubscription h filters)
  | removeSubscription id sub => exact hacts _ (acts_removeSubscription sdk.order id sub)
  | cleanupConnection id => exact hacts _ (acts_cleanupConnection sdk.order id)
  | dropHandle handle =>
    exact hacts _ (admits_spares.dropHandle (acts_cleanupConnection sdk.order handle.id))
  | distributeEvent event scope =>
    exact Triple.bind Weak.refl (distributeEventIndexed_triple event scope) fun _ =>
      spares_triple (acts_done _)
  | receive ch =>
    refine spares_triple (acts_atomic fun s => ⟨rfl, spares_setChannel ch fun channel => ?_⟩)
    rw [Channel.receive]
    split <;> rfl
  | disconnect ch =>
    exact spares_triple (acts_atomic fun s => ⟨rfl, spares_setChannel ch fun _ => rfl⟩)

/-! ### The REQ -/

/-- What is asked while the stored events are fetched. -/
def Fetches (r : Request) : RelayCall → Prop
  | .scopedView _ | .query _ _ | .extend _ _ => True
  | .eventContext | .canSeeEvent _ _ | .debugText _ => True
  | .trySend channel packet => channel = r.sender.channel ∧ ∃ event, packet = r.stored event
  | _ => False

theorem everyAsk_processFilters (limit : ℕ) (filters : List Filter) :
    (r.coordinator.processFilters r.sub r.scope limit filters []).EveryAsk (fun _ _ => True)
      r.Fetches := by
  refine everyAsk_of_ensures RelayCall.succeed (((fetchesOnly_processFilters r.coordinator r.sub
    r.scope limit filters []).and (counts_processFilters r.coordinator r.sub r.scope limit
      filters [])).mono fun t _ ⟨hfetches, sent, hpushes⟩ => ?_)
  rintro ⟨call, answer⟩ hasked
  have hfetch := hfetches.every _ hasked
  cases call with
  | trySend channel packet =>
    have hmem := mem_pushed hasked
    rw [hpushes] at hmem
    obtain ⟨event, -, heq⟩ := List.mem_map.mp hmem
    obtain ⟨rfl, rfl⟩ := Prod.mk.inj heq
    exact ⟨rfl, event, rfl⟩
  | scopedView | query | eventContext | canSeeEvent | debugText => trivial
  | _ => exact hfetch

/-- A packet about the subscription goes into the channel. -/
theorem Inv.put (h : r.Inv sdk s) {packet : Packet} (hpacket : r.concerns packet = true)
    (horder : r.InOrder sdk (r.log s ++ [packet])) :
    let s' := s.setChannel r.sender.channel { s.channels r.sender.channel with
      sent := (s.channels r.sender.channel).sent ++ [packet] }
    r.Inv sdk s' ∧ r.Weak s s' ∧ r.log s' = r.log s ++ [packet] := by
  intro s'
  have hlog : r.log s' = r.log s ++ [packet] := by
    rw [log_put, if_pos ⟨rfl, hpacket⟩]
  have hstays : r.Answered s → r.Answered s' := fun hs => by
    rw [Answered, hlog]
    exact List.mem_append_left _ hs
  refine ⟨⟨h.indexes, h.wired.congr rfl rfl, ?_, h.vacant.imp hstays fun hv => hv.congr rfl⟩,
    ⟨⟨hstays, fun hv => .inr (hv.congr rfl)⟩, .of_eq rfl⟩, hlog⟩
  rwa [hlog]

/-- A push by the REQ into its channel. -/
theorem does_trySend {packet : Packet} {P : SubscriptionRegistry → Prop}
    {Q : Except Channel.TrySendError Unit → SubscriptionRegistry → Prop}
    (hpacket : r.concerns packet = true) (hP : ∀ s s', r.Frame s s' → P s → P s')
    (hQ : ∀ a s s', r.Frame s s' → Q a s → Q a s')
    (horder : ∀ s, r.Inv sdk s → P s → r.InOrder sdk (r.log s ++ [packet]))
    (hput : ∀ s s', P s → r.log s' = r.log s ++ [packet] → Q (.ok ()) s')
    (hrefused : ∀ s e, P s → Q (.error e) s) :
    r.Does sdk P (RelayCall.code sdk services (.trySend r.sender.channel packet)) Q := by
  refine onRegistry_triple (Triple.atomic (fun s s' hs _ => hP s s' hs)
    (fun a s s' hs _ => hQ a s s' hs) fun s hs hp => ?_)
  rw [trySendTo]
  split
  · next ch hch =>
    obtain ⟨-, rfl⟩ := Channel.trySend_ok hch
    obtain ⟨hinv, hweak, hlog⟩ := hs.put hpacket (horder s hs hp)
    exact ⟨hinv, hweak, hput s _ hp hlog⟩
  · next e _ => exact ⟨hs, .refl s, hrefused s e hp⟩

/-- While the stored events are fetched, EOSE is not sent. -/
theorem does_fetch (limit : ℕ) (filters : List Filter) :
    r.Does sdk (fun s => ¬ r.Answered s)
      ((r.coordinator.processFilters r.sub r.scope limit filters []).interpret
        (RelayCall.code sdk services)) fun _ s => ¬ r.Answered s := by
  refine (everyAsk_processFilters limit filters).triple
    (J := fun t : RelayState Δ => ¬ r.Answered t.registry) (fun t => Frame.refl t.registry)
    (fun _ _ h _ => h.not_answered) fun call hcall => ?_
  have hservice : call.Spares r → r.Does sdk (fun s => ¬ r.Answered s)
      (call.code sdk services) fun _ s => ¬ r.Answered s :=
    fun h => (bystands_code services h).does fun _ _ hs => hs.not_answered
  cases call with
  | trySend channel packet =>
    obtain ⟨rfl, event, rfl⟩ := hcall
    refine does_trySend (by simp [concerns, stored, MessageSender.packetBypass])
      (fun _ _ h => h.not_answered) (fun _ _ _ h => h.not_answered)
      (fun s hs hp => (hs.inOrder.append_stored hp event).1) (fun s s' hp hlog => ?_)
      fun _ _ hp => hp
    rw [Answered, hlog, List.mem_append, List.mem_singleton]
    rintro (hmem | heq)
    · exact hp hmem
    · cases congrArg Packet.message heq
  | scopedView | query | extend | eventContext | canSeeEvent | debugText => exact hservice trivial
  | _ => cases hcall

/-- A part of the REQ that has sent EOSE, if it succeeds. -/
abbrev Answers {ε : Type} (r : Request) (result : Except ε α) (s : SubscriptionRegistry) : Prop :=
  result.isOk = true → r.Answered s

theorem Frame.answers {ε : Type} {result : Except ε α} (h : r.Frame s s')
    (hs : r.Answers result s) : r.Answers result s' :=
  fun hok => h.stays (hs hok)

theorem does_done {a : α} {P : SubscriptionRegistry → Prop} {Q : α → SubscriptionRegistry → Prop}
    (hQ : ∀ s s', r.Frame s s' → Q a s → Q a s') (hP : ∀ s, P s → Q a s) :
    r.Does sdk P (Prog.done a : Prog RelayLock (RelayState Δ) α) Q :=
  fun t _ hp t' h _ => hQ t.registry t'.registry h (hP t.registry hp)

theorem does_error {ε : Type} {P : SubscriptionRegistry → Prop} (e : ε) :
    r.Does sdk P (Prog.done (.error e) : Prog RelayLock (RelayState Δ) (Except ε α)) r.Answers :=
  fun _ _ _ _ _ _ h => by cases h

theorem does_andThen {ε β : Type} {P : SubscriptionRegistry → Prop}
    {M : Except ε α → SubscriptionRegistry → Prop} {p : Relay (Except ε α)}
    {k : α → Relay (Except ε β)} (hp : r.Does sdk P (p.interpret (RelayCall.code sdk services)) M)
    (hk : ∀ a, r.Does sdk (M (.ok a)) ((k a).interpret (RelayCall.code sdk services)) r.Answers) :
    r.Does sdk P ((p.andThen k).interpret (RelayCall.code sdk services)) r.Answers := by
  rw [Script.andThen, Script.interpret_bind]
  refine Triple.bind (fun t => Frame.refl t.registry) hp fun result => ?_
  cases result with
  | ok a => exact hk a
  | error e => exact does_error e

/-- EOSE. -/
theorem does_endOfStoredEvents :
    r.Does sdk (fun s => ¬ r.Answered s)
      ((r.coordinator.outgoingSender.send (.endOfStoredEvents r.sub)).interpret
        (RelayCall.code sdk services)) r.Answers := by
  refine Triple.bind (fun t => Frame.refl t.registry) (does_trySend (Q := r.Answers)
    (by simp [concerns, MessageSender.packet]) (fun _ _ h => h.not_answered)
    (fun _ _ _ h ha hok => h.stays (ha hok)) (fun s hs hp => hs.inOrder.append_eose hp)
    (fun s s' _ hlog _ => ?_) fun _ _ _ h => (by cases h)) fun result => ?_
  · rw [Answered, hlog]
    exact List.mem_append_right _ (List.mem_singleton_self _)
  · cases result with
    | ok _ => exact does_done (fun _ _ h => h.answers) fun _ h _ => h rfl
    | error e => exact does_error _

theorem does_processHistoricalEvents :
    r.Does sdk (fun s => ¬ r.Answered s)
      ((r.coordinator.processHistoricalEvents r.sub r.filters r.scope).interpret
        (RelayCall.code sdk services)) r.Answers := by
  refine does_andThen (does_fetch _ _) fun _ => ?_
  rw [Script.bind_eq, Script.interpret_bind]
  refine Triple.bind (fun t => Frame.refl t.registry) does_endOfStoredEvents fun result => ?_
  cases result with
  | ok _ => exact does_done (fun _ _ h => h.answers) fun _ h _ => h rfl
  | error e =>
    have hdebug : RelayCall.Spares r (.debugText (.other e)) := trivial
    exact Triple.bind (fun t => Frame.refl t.registry)
      ((bystands_code services hdebug).does fun _ _ h => h.answers)
      fun _ => does_error (P := r.Answers (.error e : Except String Unit)) _

/-- The REQ has sent EOSE, if it succeeds. -/
theorem does_handleReq :
    r.Does sdk (fun s => ¬ r.Answered s)
      ((r.coordinator.handleReq r.sub r.filters r.scope).interpret (RelayCall.code sdk services))
      r.Answers := by
  refine does_andThen does_processHistoricalEvents fun _ => ?_
  rw [SubscriptionCoordinator.addSubscription, SubscriptionCoordinator.removeSubscription]
  have hremove : r.Does sdk r.Answered (RelayCall.code sdk services
      (.removeSubscription r.coordinator.connectionId r.sub)) fun _ => r.Answered :=
    Bystands.does (bystands_code services (by trivial)) fun _ _ h => h.stays
  have hadd : r.Does sdk r.Answered (RelayCall.code sdk services
      (.addSubscription r.coordinator.connectionId r.sub r.filters)) fun _ => r.Answered := by
    refine Triple.bind (fun t => Frame.refl t.registry) (onRegistry_triple
      ((keeps_triple (acts_addOwn r.filters)).conseq (fun _ _ h => h.toWeak) (fun _ _ _ h => h)
        (fun _ _ h => h) fun _ _ _ h => h)) fun _ => ?_
    exact does_done (fun _ _ h => h.stays) fun _ h => h
  refine Triple.bind (fun t => Frame.refl t.registry) (hremove.pre fun _ _ h => h rfl) fun _ => ?_
  refine Triple.bind (fun t => Frame.refl t.registry) hadd fun result => ?_
  exact does_done (fun _ _ h => h.answers) fun _ h _ => h

/-! ### The order of the messages -/

/-- The subscription is not known yet: the channel belongs to the connection, no message about the
subscription was sent, and no filter of it is filed. -/
structure Fresh (r : Request) (s : SubscriptionRegistry) : Prop where
  indexes : IndexesWellFormed s
  wired : r.Wired s
  log : r.log s = []
  vacant : Vacant r.key s

theorem Fresh.inv (h : r.Fresh s) : r.Inv sdk s :=
  ⟨h.indexes, h.wired, ⟨[], .inl h.log⟩, .inr h.vacant⟩

theorem bystands_op {op : RelayOp r} (h : ¬ op.IsReq) :
    r.Bystands sdk (op.code sdk services) := by
  cases op with
  | req => exact absurd trivial h
  | task other =>
    have hscript := other.spares.triple (J := fun _ : RelayState Δ => True)
      (fun t => Weak.refl (r := r) t.registry) (stable_const True)
      fun call hcall =>
        (bystands_code services hcall : r.Bystands sdk (call.code sdk services))
    exact Bystands.bind hscript fun _ => bystands_done _
  | method op hop => exact Bystands.bind (bystands_method hop) fun _ => bystands_done _

/-- **Stored events, EOSE, new events.** Whatever the other tasks do meanwhile, the messages about
a new subscription are the stored events that its REQ sends, then EOSE, then events that were
distributed to it. Without the REQ there are none, and a REQ that has succeeded has sent EOSE. -/
theorem answeredInOrder {t : RelayState Δ}
    {c : Config (RelayOp r) RelayLock (RelayState Δ) (Except Error Unit)}
    (hfresh : r.Fresh t.registry)
    (hrun : Run (fun _ => RelayOp.code sdk services) (once RelayOp.IsReq) (Config.initial t) c) :
    r.InOrder sdk (r.log c.state.registry) ∧
      ((∀ call ∈ c.calls, ¬ call.op.IsReq) → r.log c.state.registry = []) ∧
      ∀ i, c.Returned i .req (.ok ()) → r.eose ∈ r.log c.state.registry := by
  have hpre : ∀ s s', r.Frame s s' → r.log s = [] → r.log s' = [] := by
    intro s s' hs hlog
    have hnot : ¬ r.Answered s := by
      rw [Answered, hlog]
      exact List.not_mem_nil
    rw [hs.log hnot, hlog]
  have h : OnceInv (fun t : RelayState Δ => r.Inv sdk t.registry)
      (fun t t' => r.Weak t.registry t'.registry) (fun t t' => r.Frame t.registry t'.registry)
      RelayOp.IsReq (fun t => r.log t.registry = []) (fun result t => r.Answers result t.registry)
      c := by
    refine OnceInv.run (fun _ _ h => h) (fun _ => .refl _) (fun _ => .refl _)
      (fun _ _ _ h h' => h.trans h') (fun _ _ _ h h' => h.trans h') (fun _ _ h => h.toWeak)
      (fun _ _ h _ => hpre _ _ h) (fun _ op h => bystands_op h) (fun c op _ h hinv hlog => ?_)
      hfresh.inv hfresh.log hrun
    cases op with
    | req =>
      refine does_handleReq c.state hinv ?_
      show r.eose ∉ r.log c.state.registry
      rw [hlog]
      exact List.not_mem_nil
    | task _ => exact absurd h id
    | method _ _ => exact absurd h id
  refine ⟨h.inv.inOrder, h.before, fun i hi => ?_⟩
  exact h.returned (fun _ => .refl _) hi trivial rfl

/-- Alice's REQ for her feed, through a channel with room for eight packets. -/
def feedReq : Request := ⟨⟨"alice", ⟨0, 0⟩, 500⟩, "feed", [Filter.kind 1], .default⟩

/-- A store with one note. Everything else works. -/
def oneNote : (call : RelayCall) → call.Answer
  | .query filter _ => .ok (if filter.until.isNone then [Event.note 1] else [])
  | call => call.succeed

/-- A task that distributes a note. -/
def distributes (id : EventId) : OtherTask feedReq :=
  ⟨Script.request (RelayCall.distributeEvent (Event.note id) .default), trivial, fun _ _ => trivial⟩

/-- Alice has connected. -/
def aliceConnected : RelayState Unit :=
  ⟨(register "alice" ⟨0, 0⟩ none .default (SubscriptionRegistry.new none unread)).2, ()⟩

theorem aliceConnected_fresh : feedReq.Fresh aliceConnected.registry := by
  have hs := (settled_new none unread).register "alice" ⟨0, 0⟩ none .default
  have hnamed : Named (SubscriptionRegistry.new none unread) := fun _ _ h => by cases h
  refine ⟨fun scope => (hs.live scope).wellFormed, ⟨hnamed.register _ _ _ _, ?_⟩, rfl, fun scope =>
    SubscriptionIndex.noneFiled_new feedReq.key⟩
  intro id sender hsender _
  rw [aliceConnected, sender?_register hnamed] at hsender
  split at hsender
  · next hid => exact hid
  · cases hsender

/-- One note is distributed while the REQ fetches the stored events, another one after its end. -/
def duringAndAfter : List (Move (RelayOp feedReq)) :=
  callAlone .req 0 5 ++ callAlone (.task (distributes 2)) 1 1 ++ List.replicate 15 (.step 0) ++
    callAlone (.task (distributes 3)) 2 12

theorem answeredInOrder_duringAndAfter : ∃ c, (Config.initial aliceConnected).play
    (fun _ => RelayOp.code .sample fun call t => (oneNote call, t)) (once RelayOp.IsReq)
      duringAndAfter = some c ∧
    (feedReq.log c.state.registry).map (·.message) = [.event "feed" (Event.note 1),
      .endOfStoredEvents "feed", .event "feed" (Event.note 3)] ∧
    feedReq.InOrder .sample (feedReq.log c.state.registry) := by
  have hmessages : ((Config.initial aliceConnected).play
      (fun _ => RelayOp.code .sample fun call t => (oneNote call, t)) (once RelayOp.IsReq)
        duringAndAfter).map (fun c => (feedReq.log c.state.registry).map (·.message)) =
      some [.event "feed" (Event.note 1), .endOfStoredEvents "feed",
        .event "feed" (Event.note 3)] := by decide +kernel
  obtain ⟨c, hplay, hlog⟩ := Option.map_eq_some_iff.mp hmessages
  exact ⟨c, hplay, hlog, (answeredInOrder aliceConnected_fresh (Config.run_of_play hplay)).1⟩

end Request

end RelayBuilder
