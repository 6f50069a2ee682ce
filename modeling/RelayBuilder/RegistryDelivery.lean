import Mathlib.Data.List.NodupEquivFin
import RelayBuilder.IndexDistribution
import RelayBuilder.RegistryChanges
import RelayBuilder.RegistryProtocol
import RelayBuilder.RegistryRuns

/-!
# Delivery among other calls

What a subscription receives of one event, while other tasks work on the same registry. The
subscription is in place from the start on, and no other call removes it, distributes the same event
or takes its channel over. Whenever somebody sends to its connection, the channel has room.

The call that distributes the event is the *carrier*. Its ghost says whether it has sent the event
to the subscription yet. All other calls are bystanders, and an ordinary contract is enough for
most of them.

## Main definitions

* `Receiver`, and `Receiver.InPlace`: a subscription that events are sent to
* `sparing`: the calls that leave a receiver in place
* `deliveryProtocol`

## Main results

* `deliveredOnce`: the subscription gets the event exactly once if a filter matches it, and not at
  all if none does
-/

namespace RelayBuilder

open Interleave

open SubscriptionRegistry

/-- A subscription that events are sent to. -/
structure Receiver where
  id : ConnectionId
  sub : SubscriptionId
  sender : MessageSender
  scope : Scope
  deriving DecidableEq

namespace Receiver

variable {r : Receiver} {sdk : Sdk} {e event : Event} {fs : List Filter} {κ : Key}
  {s s' : SubscriptionRegistry} {scope : Scope} {α β : Type}

def key (r : Receiver) : Key := (r.id, r.sub)

/-- The EVENT message for the subscription. -/
def packet (r : Receiver) (sdk : Sdk) (e : Event) : Packet :=
  r.sender.packetWithJson (.event r.sub e) (eventJson r.sub (sdk.asJson e))

/-- How often the event was put into the channel for the subscription. -/
def received (r : Receiver) (sdk : Sdk) (e : Event) (s : SubscriptionRegistry) : ℕ :=
  (s.channels r.sender.channel).sent.count (r.packet sdk e)

/-- The connection is registered, nobody else sends through its channel, and the index of its scope
holds the filters of the subscription. -/
structure InPlace (r : Receiver) (fs : List Filter) (s : SubscriptionRegistry) : Prop where
  named : Named s
  indexes : IndexesWellFormed s
  sender : s.sender? r.id = some r.sender
  alone : ∀ id, ∀ sender ∈ s.sender? id, sender.channel = r.sender.channel → id = r.id
  filed : (s.indexOf r.scope).Holds r.key fs

/-- A change of the registry that leaves the receiver alone, and sends it nothing of the event. -/
structure Untouched (r : Receiver) (sdk : Sdk) (e : Event) (s s' : SubscriptionRegistry) :
    Prop where
  named : Named s → Named s'
  sender : Named s → ∀ id, s'.sender? id = s.sender? id ∨
    id ≠ r.id ∧ ∀ sender ∈ s'.sender? id, sender.channel ≠ r.sender.channel
  grows : IndexesGrow s s'
  view : SubscriptionIndex.SameView r.key (s.indexOf r.scope) (s'.indexOf r.scope)
  silent : SubscriptionIndex.Silent e.id (s.indexOf r.scope) (s'.indexOf r.scope)
  received : r.received sdk e s' = r.received sdk e s

theorem InPlace.untouched (h : r.InPlace fs s) (hs : r.Untouched sdk e s s')
    (hwf : IndexesWellFormed s') : r.InPlace fs s' := by
  refine ⟨hs.named h.named, hwf, ?_, fun id sender hsender hchannel => ?_, ?_⟩
  · obtain heq | ⟨hne, -⟩ := hs.sender h.named r.id
    · rw [heq, h.sender]
    · exact absurd rfl hne
  · obtain heq | ⟨-, hother⟩ := hs.sender h.named id
    · rw [heq] at hsender
      exact h.alone id sender hsender hchannel
    · exact absurd hchannel (hother sender hsender)
  · exact SubscriptionIndex.Entry.stable (o := some fs) (hwf r.scope) (hs.grows r.scope) hs.view
      h.filed

/-- The channel of the receiver has the same packets. -/
theorem received_congr (h : s'.channels = s.channels) :
    r.received sdk e s' = r.received sdk e s := by
  rw [received, received, h]

/-- A change of the connections alone. -/
theorem untouched_of_eq (hindexes : s'.indexes = s.indexes) (hchannels : s'.channels = s.channels)
    (hnamed : Named s → Named s') (hsender : Named s → ∀ id, s'.sender? id = s.sender? id ∨
      id ≠ r.id ∧ ∀ sender ∈ s'.sender? id, sender.channel ≠ r.sender.channel) :
    r.Untouched sdk e s s' := by
  refine ⟨hnamed, hsender, .of_eq hindexes, ?_, ?_, received_congr hchannels⟩
  · rw [indexOf_congr hindexes]
    exact .refl _ _
  · rw [indexOf_congr hindexes]
    exact .refl _ _

theorem untouched_of_same (h : SameParts s s') : r.Untouched sdk e s s' := by
  exact untouched_of_eq h.indexes h.channels (fun hnamed => hnamed.congr h.connections)
    fun _ id => .inl (sender?_congr h.connections h.conns id)

/-- The subscriptions of a connection change, or its lock. -/
theorem untouched_updateConn (conn : ConnRef)
    {f : ConnectionSubscriptions → ConnectionSubscriptions}
    (hf : ∀ data, (f data).sender = data.sender) :
    r.Untouched sdk e s (s.updateConn conn f) :=
  untouched_of_eq rfl rfl (fun hnamed => hnamed) fun _ id => .inl (sender?_updateConn conn hf id)

/-- Another connection is removed from the map. -/
theorem untouched_erase {id : ConnectionId} (hid : id ≠ r.id) :
    r.Untouched sdk e s { s with connections := s.connections.erase id } := by
  refine untouched_of_eq rfl rfl (fun hnamed => hnamed.erase id) fun _ id' => ?_
  rw [sender?_erase]
  split
  · next h => exact .inr ⟨h ▸ hid, fun _ hsender => by cases hsender⟩
  · exact .inl rfl

/-- Another connection is registered, with a channel of its own. -/
theorem untouched_register {id : ConnectionId} {sender : MessageSender} (hid : id ≠ r.id)
    (hchannel : sender.channel ≠ r.sender.channel) (auth : Option PublicKey) (subdomain : Scope) :
    r.Untouched sdk e s (register id sender auth subdomain s).2 := by
  refine untouched_of_eq rfl rfl (fun hnamed => hnamed.register id sender auth subdomain)
    fun hnamed id' => ?_
  rw [sender?_register hnamed]
  split
  · next h =>
    refine .inr ⟨h ▸ hid, fun sender' hsender => ?_⟩
    cases hsender
    exact hchannel
  · exact .inl rfl

/-- What is done to a channel at its other end. -/
theorem untouched_setChannel (ch : ChannelRef) {f : Channel → Channel}
    (hf : ∀ channel, (f channel).sent = channel.sent) :
    r.Untouched sdk e s (s.setChannel ch (f (s.channels ch))) := by
  refine ⟨fun hnamed => hnamed, fun _ _ => .inl rfl, .of_eq rfl, .refl _ _, .refl _ _, ?_⟩
  simp only [received, setChannel]
  split
  · next heq => rw [heq, hf]
  · rfl

/-! ### Programs of an index -/

/-- A change of the index of a scope, that marks the events `marks`. -/
structure IndexEffect (scope : Scope) (touches : Key → Prop) (marks : EventId → Prop)
    (s s' : SubscriptionRegistry) : Prop extends IndexAction scope touches s s' where
  silent : ∀ scope' x, ¬ marks x →
    SubscriptionIndex.Silent x (s.indexOf scope') (s'.indexOf scope')

theorem indexEffect_setIndex {index : SubscriptionIndex} {touches drops : Key → Prop}
    {marks : EventId → Prop}
    (h : SubscriptionIndex.Effect touches drops marks (s.indexOf scope) index) :
    IndexEffect scope touches marks s (s.setIndex scope index) := by
  refine ⟨indexAction_setIndex h.grows h.view, fun scope' x hx => ?_⟩
  by_cases hscope : scope' = scope
  · subst hscope
    rw [indexOf_setIndex]
    exact h.silent x hx
  · rw [indexOf_setIndex_ne hscope]
    exact .refl _ _

theorem IndexEffect.untouched {touches : Key → Prop} {marks : EventId → Prop}
    (h : IndexEffect scope touches marks s s') (htouches : ¬ touches r.key)
    (hmarks : ¬ marks e.id) : r.Untouched sdk e s s' := by
  refine ⟨fun hnamed => ?_, fun _ id => .inl (sender?_congr ?_ ?_ id), h.grows,
    h.view _ _ fun _ => htouches, h.silent _ _ hmarks, received_congr ?_⟩
  · exact hnamed.congr (by rw [h.rest])
  all_goals rw [h.rest]

/-- A change of an index, at other subscriptions. -/
theorem InPlace.indexAction {touches : Key → Prop} (h : r.InPlace fs s)
    (hs : IndexAction scope touches s s') (htouches : ¬ touches r.key)
    (hwf : IndexesWellFormed s') : r.InPlace fs s' := by
  have hsender : ∀ id, s'.sender? id = s.sender? id :=
    sender?_congr (by rw [hs.rest]) (by rw [hs.rest])
  refine ⟨?_, hwf, ?_, fun id sender hsender' => ?_, ?_⟩
  · rw [Named, hs.rest]
    exact h.named
  · rw [hsender, h.sender]
  · rw [hsender] at hsender'
    exact h.alone id sender hsender'
  · exact SubscriptionIndex.Entry.stable (o := some fs) (hwf r.scope) (hs.grows r.scope)
      (hs.view r.scope r.key fun _ => htouches) h.filed

/-- A program of an index, whatever the other tasks do. -/
theorem acts_onIndex {p : Prog IndexLock SubscriptionIndex α} {touches drops : Key → Prop}
    {marks : EventId → Prop} {P : SubscriptionIndex → Prop} {Q : α → SubscriptionIndex → Prop}
    {κ : Key} (hp : Triple SubscriptionIndex.WellFormed (SubscriptionIndex.Foreign κ False)
      (SubscriptionIndex.Effect touches drops marks) P p Q) (hP : ∀ index, P index)
    (htouches : ¬ touches r.key) (hmarks : ¬ marks e.id) :
    Acts (r.Untouched sdk e) (onIndex scope p) := by
  intro s hwf _
  refine Prog.Ensures.conseq (fun _ _ h => h) (fun _ _ _ h => h) (fun _ _ _ _ => trivial)
    ((hp _ (hwf scope) (hP _)).zoom (fun t index => indexOf_setIndex t scope index)
      (fun t (hwf : IndexesWellFormed t) => hwf scope)
      (fun t t' (hgrows : IndexesGrow t t') => foreign_of_grows (hgrows scope))
      fun t index hwf hindex heff => ⟨IndexesWellFormed.setIndex hwf hindex,
        (indexEffect_setIndex heff).untouched htouches hmarks⟩)

/-! ### The calls that leave a receiver in place -/

theorem admits_untouched : Admits (r.Untouched sdk e) where
  same _ _ h := untouched_of_same h
  updateConn _ conn _ hf := untouched_updateConn conn hf
  create _ _ := (indexEffect_setIndex (SubscriptionIndex.Effect.refl SubscriptionIndex.nothing
    SubscriptionIndex.nothing SubscriptionIndex.nothing _)).untouched (fun h => h) fun h => h

theorem acts_addSubscription {id : ConnectionId} {sub : SubscriptionId} (hκ : (id, sub) ≠ r.key)
    (filters : List Filter) :
    Acts (r.Untouched sdk e) (SubscriptionRegistry.addSubscription id sub filters) :=
  admits_untouched.addSubscription filters fun _ => acts_onIndex
    (SubscriptionIndex.addSubscription_triple (id, sub) False [] filters) (fun _ h => h.elim)
    (fun h => hκ h.symm) fun h => h

/-- The removal of another subscription from an index. -/
theorem acts_removeFromIndex (order : HashOrder) (scope : Scope) (hκ : κ ≠ r.key) :
    Acts (r.Untouched sdk e) (onIndex scope (SubscriptionIndex.removeSubscription order κ)) :=
  acts_onIndex (SubscriptionIndex.removeSubscription_triple κ False order []) (fun _ h => h.elim)
    (fun h => hκ h.symm) fun h => h

theorem acts_removeSubscription (order : HashOrder) {id : ConnectionId} {sub : SubscriptionId}
    (hκ : (id, sub) ≠ r.key) :
    Acts (r.Untouched sdk e) (SubscriptionRegistry.removeSubscription order id sub) :=
  admits_untouched.removeSubscription fun scope => acts_removeFromIndex order scope hκ

theorem acts_cleanupConnection (order : HashOrder) {id : ConnectionId} (hid : id ≠ r.id) :
    Acts (r.Untouched sdk e) (SubscriptionRegistry.cleanupConnection order id) :=
  admits_untouched.cleanupConnection (fun _ => untouched_erase hid) fun scope _ =>
    acts_removeFromIndex order scope fun h => hid (congrArg Prod.fst h)

theorem acts_dropHandle (order : HashOrder) {handle : ConnectionHandle} (hid : handle.id ≠ r.id) :
    Acts (r.Untouched sdk e) (SubscriptionRegistry.dropHandle order handle) :=
  admits_untouched.dropHandle (acts_cleanupConnection order hid)

/-! ### Sending the event -/

/-- The receiver stays in place when only the channels change. -/
theorem InPlace.onlyChannels (h : r.InPlace fs s) (hs : OnlyChannels s s') : r.InPlace fs s' := by
  have hsender := sender?_congr hs.connections hs.conns
  refine ⟨?_, h.indexes.of_eq hs.indexes, ?_, fun id sender hsender' => ?_, ?_⟩
  · rw [Named, hs.connections]
    exact h.named
  · rw [hsender, h.sender]
  · rw [hsender] at hsender'
    exact h.alone id sender hsender'
  · rw [indexOf_congr hs.indexes]
    exact h.filed

theorem InPlace.deliver (h : r.InPlace fs s) (event : Event) (κ : Key) :
    r.InPlace fs (SubscriptionRegistry.deliver sdk event κ s).2 :=
  h.onlyChannels (deliver_onlyChannels sdk event κ s)

/-- What is sent to a connection goes into its channel, if that has room. -/
theorem deliver_of_hasRoom {data : ConnectionSubscriptions} (hdata : s.connection? κ.1 = some data)
    (hroom : (s.channels data.sender.channel).HasRoom) :
    SubscriptionRegistry.deliver sdk event κ s = (false, s.setChannel data.sender.channel
      { s.channels data.sender.channel with
        sent := (s.channels data.sender.channel).sent ++ [data.sender.packetWithJson
          (.event κ.2 event) (eventJson κ.2 (sdk.asJson event))] }) := by
  rw [SubscriptionRegistry.deliver, hdata]
  dsimp only
  rw [Channel.trySend_of_hasRoom hroom]

theorem InPlace.sender_eq (h : r.InPlace fs s) {data : ConnectionSubscriptions}
    (hdata : s.connection? r.id = some data) : data.sender = r.sender := by
  have hsender := h.sender
  rw [sender?, hdata, Option.map_some, Option.some.injEq] at hsender
  exact hsender

/-- A send to the connection of the receiver succeeds. -/
theorem InPlace.deliver_alive (h : r.InPlace fs s)
    (hroom : (s.channels r.sender.channel).HasRoom) (hκ : κ.1 = r.id) :
    (SubscriptionRegistry.deliver sdk event κ s).1 = false := by
  cases hdata : s.connection? κ.1 with
  | none => rw [SubscriptionRegistry.deliver, hdata]
  | some data =>
    have hsender := h.sender_eq (hκ ▸ hdata)
    rw [deliver_of_hasRoom hdata (hsender.symm ▸ hroom)]

/-- The receiver gets the event when it is sent to the receiver, and not otherwise. -/
theorem InPlace.received_deliver (h : r.InPlace fs s)
    (hroom : κ.1 = r.id → (s.channels r.sender.channel).HasRoom) :
    r.received sdk e (SubscriptionRegistry.deliver sdk event κ s).2 =
      r.received sdk e s + if κ = r.key ∧ event = e then 1 else 0 := by
  cases hdata : s.connection? κ.1 with
  | none =>
    have hne : κ ≠ r.key := by
      rintro rfl
      have hsender := h.sender
      rw [sender?, show s.connection? r.id = none from hdata] at hsender
      cases hsender
    rw [SubscriptionRegistry.deliver, hdata, if_neg fun hκ => hne hκ.1, Nat.add_zero]
  | some data =>
    have hmem : data.sender ∈ s.sender? κ.1 := by
      rw [sender?, hdata]
      rfl
    by_cases hchannel : data.sender.channel = r.sender.channel
    · have hid := h.alone κ.1 data.sender hmem hchannel
      have hsender := h.sender_eq (hid ▸ hdata)
      rw [deliver_of_hasRoom hdata (hsender.symm ▸ hroom hid), hsender]
      simp only [received, setChannel, if_true, List.count_append, Nat.add_left_cancel_iff]
      have hiff : r.sender.packetWithJson (.event κ.2 event) (eventJson κ.2 (sdk.asJson event)) =
          r.packet sdk e ↔ κ = r.key ∧ event = e := by
        refine ⟨fun heq => ?_, ?_⟩
        · obtain ⟨hsub, hevent⟩ := RelayMessage.event.inj (congrArg Packet.message heq)
          exact ⟨Prod.ext hid hsub, hevent⟩
        · rintro ⟨rfl, rfl⟩
          rfl
      by_cases hκ : κ = r.key ∧ event = e
      · rw [if_pos hκ, hiff.mpr hκ, List.count_singleton_self]
      · rw [if_neg hκ]
        exact List.count_eq_zero_of_not_mem fun hmem =>
          hκ (hiff.mp (List.mem_singleton.mp hmem).symm)
    · have hne : κ ≠ r.key := by
        rintro rfl
        exact hchannel (congrArg MessageSender.channel (h.sender_eq hdata))
      rw [if_neg fun hκ => hne hκ.1, Nat.add_zero, SubscriptionRegistry.deliver, hdata]
      dsimp only
      split
      · simp only [received, setChannel, if_neg (Ne.symm hchannel)]
      · rfl

/-! ### The protocol -/

/-- The part of a call: a carrier distributes the event, and has sent it to the receiver or has not.
-/
inductive Part where
  | bystander
  | carrier (sent : Bool)
  deriving DecidableEq

variable {n i : ℕ} {γ : List Part} {g g' : Part}

/-- The receiver is in place, and has got `n` and one for each carrier that has sent the event. The
index remembers the event only if there is a carrier, and there is at most one. -/
structure Delivering (r : Receiver) (sdk : Sdk) (e : Event) (fs : List Filter) (n : ℕ)
    (γ : List Part) (s : SubscriptionRegistry) : Prop where
  inPlace : r.InPlace fs s
  received : r.received sdk e s = n + γ.count (.carrier true)
  unseen : (∀ g ∈ γ, g = .bystander) → (s.indexOf r.scope).Unseen r.key e.id
  unique : ∀ (i j : ℕ) (g g' : Part), γ[i]? = some g → γ[j]? = some g' → g ≠ .bystander →
    g' ≠ .bystander → i = j

/-- An action of a call, whose ghost moves. -/
theorem Delivering.set (h : r.Delivering sdk e fs n γ s) (hi : γ[i]? = some g)
    (hplace : r.InPlace fs s') (hkind : g' = .bystander ↔ g = .bystander)
    (hreceived : r.received sdk e s' + [g].count (.carrier true) =
      r.received sdk e s + [g'].count (.carrier true))
    (hunseen : g = .bystander → (s.indexOf r.scope).Unseen r.key e.id →
      (s'.indexOf r.scope).Unseen r.key e.id) : r.Delivering sdk e fs n (γ.set i g') s' := by
  obtain ⟨hlt, hget⟩ := List.getElem?_eq_some_iff.mp hi
  have hold : ∀ (j : ℕ) (g₁ : Part), (γ.set i g')[j]? = some g₁ → g₁ ≠ .bystander →
      ∃ g₀, γ[j]? = some g₀ ∧ g₀ ≠ .bystander := by
    intro j g₁ hj hg₁
    by_cases hij : i = j
    · subst hij
      rw [List.getElem?_set_self hlt, Option.some.injEq] at hj
      subst hj
      exact ⟨g, hi, fun hg => hg₁ (hkind.mpr hg)⟩
    · rw [List.getElem?_set_ne hij] at hj
      exact ⟨g₁, hj, hg₁⟩
  refine ⟨hplace, ?_, fun hall => ?_, fun j k gj gk hj hk hgj hgk => ?_⟩
  · have hmem : g ∈ γ := List.mem_of_getElem? hi
    have hpos : [g].count (Part.carrier true) ≤ γ.count (.carrier true) :=
      (List.singleton_sublist.mpr hmem).count_le _
    rw [List.count_set hlt, hget]
    simp only [List.count_singleton] at hreceived hpos ⊢
    rw [h.received] at hreceived
    omega
  · have hg : g = .bystander := hkind.mp (hall g' (List.mem_set hlt g'))
    refine hunseen hg (h.unseen fun g₀ hg₀ => ?_)
    by_contra hne
    obtain ⟨j, hj⟩ := List.mem_iff_getElem?.mp hg₀
    have hij : i ≠ j := by
      rintro rfl
      rw [hi, Option.some.injEq] at hj
      exact hne (hj ▸ hg)
    exact hne (hall g₀ (List.mem_of_getElem? (by rw [List.getElem?_set_ne hij]; exact hj)))
  · obtain ⟨g₁, hg₁, hne₁⟩ := hold j gj hj hgj
    obtain ⟨g₂, hg₂, hne₂⟩ := hold k gk hk hgk
    exact h.unique j k g₁ g₂ hg₁ hg₂ hne₁ hne₂

/-- The event is sent to the receiver at most once. -/
theorem Delivering.count_le (h : r.Delivering sdk e fs n γ s) :
    γ.count (.carrier true) ≤ 1 := by
  by_contra hlt
  rw [not_le] at hlt
  have hsub : [Part.carrier true, .carrier true].Sublist γ := List.replicate_sublist_iff.mpr hlt
  obtain ⟨f, hf⟩ := List.sublist_iff_exists_orderEmbedding_getElem?_eq.mp hsub
  have h₀ := hf 0
  have h₁ := hf 1
  have heq := h.unique (f 0) (f 1) _ _ h₀.symm h₁.symm (by simp) (by simp)
  exact absurd (f.injective heq) (by simp)

/-- The start of a call. -/
theorem Delivering.start (h : r.Delivering sdk e fs n γ s)
    (hg : g = .bystander ∨ g = .carrier false ∧ ∀ g' ∈ γ, g' = .bystander) :
    r.Delivering sdk e fs n (γ ++ [g]) s := by
  have hcount : [g].count (Part.carrier true) = 0 := by
    obtain rfl | ⟨rfl, -⟩ := hg <;> rfl
  refine ⟨h.inPlace, ?_, fun hall => ?_, fun j k gj gk hj hk hgj hgk => ?_⟩
  · rw [List.count_append, hcount, Nat.add_zero, h.received]
  · exact h.unseen fun g' hg' => hall g' (List.mem_append_left _ hg')
  · obtain rfl | ⟨-, hall⟩ := hg
    · have hlt : ∀ (j : ℕ) (gj : Part), (γ ++ [Part.bystander])[j]? = some gj → gj ≠ .bystander →
          γ[j]? = some gj := by
        intro j gj hj hgj
        obtain hlt | hle := lt_or_ge j γ.length
        · rwa [List.getElem?_append_left hlt] at hj
        · rw [List.getElem?_append_right hle] at hj
          exact absurd (List.mem_singleton.mp (List.mem_of_getElem? hj)) hgj
      exact h.unique j k gj gk (hlt j gj hj hgj) (hlt k gk hk hgk) hgj hgk
    · have hlast : ∀ (j : ℕ) (gj : Part), (γ ++ [g])[j]? = some gj → gj ≠ .bystander →
          j = γ.length := by
        intro j gj hj hgj
        obtain hlt | hle := lt_or_ge j γ.length
        · rw [List.getElem?_append_left hlt] at hj
          exact absurd (hall gj (List.mem_of_getElem? hj)) hgj
        · have hlen := (List.getElem?_eq_some_iff.mp hj).1
          rw [List.length_append, List.length_singleton] at hlen
          omega
      rw [hlast j gj hj hgj, hlast k gk hk hgk]

/-- What a call tolerates from the others. A carrier counts on them to leave the subscription in
the index alone, and not to mark the event. -/
structure Tolerant (r : Receiver) (e : Event) (g : Part) (s s' : SubscriptionRegistry) : Prop where
  grows : IndexesGrow s s'
  other : g ≠ .bystander →
    SubscriptionIndex.Other r.key e.id True (s.indexOf r.scope) (s'.indexOf r.scope)

/-- Calls among which an event is delivered. A send to the connection finds room. -/
def deliveryProtocol (r : Receiver) (sdk : Sdk) (e : Event) (fs : List Filter) (n : ℕ) :
    Protocol RegistryLock SubscriptionRegistry Part where
  inv := r.Delivering sdk e fs n
  rely := r.Tolerant e
  allowed _ _ s l := l = .deliver r.id → (s.channels r.sender.channel).HasRoom
  rely_refl _ _ := ⟨.refl _, fun _ => .refl _ _ _ _⟩
  rely_trans _ _ _ _ h h' := ⟨h.grows.trans h'.grows, fun hg => (h.other hg).trans (h'.other hg)⟩

theorem Untouched.tolerable (h : r.Untouched sdk e s s') :
    (r.deliveryProtocol sdk e fs n).Tolerable i γ s s' := fun _ _ _ _ =>
  ⟨h.grows, fun _ => ⟨⟨h.grows r.scope, fun _ => h.view⟩, fun _ => h.silent⟩⟩

theorem Delivering.untouched (h : r.Delivering sdk e fs n γ s) (hi : γ[i]? = some g)
    (hs : r.Untouched sdk e s s') (hwf : IndexesWellFormed s') :
    r.Delivering sdk e fs n γ s' := by
  have hset : r.Delivering sdk e fs n (γ.set i g) s' :=
    h.set hi (h.inPlace.untouched hs hwf) Iff.rfl (by rw [hs.received])
      fun _ hunseen => hunseen.stable hs.view hs.silent
  rwa [Protocol.set_of_getElem? hi] at hset

end Receiver

/-- What an op distributes, and where. -/
def RegistryOp.distributed? : RegistryOp → Option (Event × Scope)
  | .distributeEvent event scope => some (event, scope)
  | _ => none

namespace Receiver

variable {r : Receiver} {sdk : Sdk} {e event : Event} {fs : List Filter} {κ : Key}
  {s s' : SubscriptionRegistry} {scope : Scope} {α β : Type}
  {n i : ℕ} {γ : List Part} {g g' : Part} {op : RegistryOp}

/-- A filter of the subscription matches the event. -/
def matched (sdk : Sdk) (e : Event) (fs : List Filter) : Bool := fs.any (sdk.matchEvent · e)

/-- The part that a call has. -/
def Plays (r : Receiver) (sdk : Sdk) (e : Event) (fs : List Filter) (op : RegistryOp) :
    Part → Prop
  | .bystander => op.distributed? ≠ some (e, r.scope)
  | .carrier sent => op.distributed? = some (e, r.scope) ∧ (sent = true → matched sdk e fs = true)

/-- A carrier that has ended has sent the event, if it matches. -/
structure Fitting (r : Receiver) (sdk : Sdk) (e : Event) (fs : List Filter) (op : RegistryOp)
    (g : Part) (p : Prog RegistryLock SubscriptionRegistry RegistryResult) : Prop where
  plays : r.Plays sdk e fs op g
  ended : ∀ a sent, p = .done a → g = .carrier sent → sent = matched sdk e fs

/-- The call keeps to the protocol from here on. -/
abbrev Joins (r : Receiver) (sdk : Sdk) (e : Event) (fs : List Filter) (n i : ℕ) (op : RegistryOp)
    (p : Prog RegistryLock SubscriptionRegistry RegistryResult) (g : Part)
    (s : SubscriptionRegistry) : Prop :=
  (r.deliveryProtocol sdk e fs n).Safe i (r.Fitting sdk e fs op) p g s

theorem fitting_act (hg : r.Plays sdk e fs op g) {l : RegistryLock}
    {ready : SubscriptionRegistry → Bool} {effect : SubscriptionRegistry → SubscriptionRegistry}
    {next : SubscriptionRegistry → Prog RegistryLock SubscriptionRegistry RegistryResult} :
    r.Fitting sdk e fs op g (.act l ready effect next) :=
  ⟨hg, fun _ _ h => by cases h⟩

theorem joins_done (hg : r.Plays sdk e fs op g)
    (hended : ∀ sent, g = .carrier sent → sent = matched sdk e fs) (a : RegistryResult) :
    r.Joins sdk e fs n i op (.done a) g s :=
  Protocol.Safe.done fun γ s' hi _ hinv =>
    ⟨g, by rwa [Protocol.set_of_getElem? hi], hg, fun _ sent _ hsent => hended sent hsent⟩

/-- What leaves the receiver alone, whatever the others do. -/
theorem joins_acts {p : Prog RegistryLock SubscriptionRegistry α}
    {k : α → Prog RegistryLock SubscriptionRegistry RegistryResult} (hg : r.Plays sdk e fs op g)
    (hp : Acts (r.Untouched sdk e) p) (hwf : IndexesWellFormed s)
    (hk : ∀ a s, IndexesWellFormed s → r.Joins sdk e fs n i op (k a) g s) :
    r.Joins sdk e fs n i op (p.bind k) g s := by
  refine Protocol.Safe.bind_ensures (hp s hwf trivial) IndexesGrow.refl hwf
    (fun γ s _ (hinv : r.Delivering sdk e fs n γ s) => hinv.inPlace.indexes)
    (fun s s' (h : r.Tolerant e g s s') => h.grows)
    (fun γ s s' hi (hinv : r.Delivering sdk e fs n γ s) hwf' hs => ?_)
    (fun _ _ _ _ => fitting_act hg) fun a s hwf _ => hk a s hwf
  exact ⟨hinv.untouched hi hs hwf', hs.tolerable⟩

/-- A send to a subscription. -/
theorem joins_deliver {k : Bool → Prog RegistryLock SubscriptionRegistry RegistryResult}
    (hg : r.Plays sdk e fs op g) (hkind : g' = .bystander ↔ g = .bystander)
    (hsent : [g'].count (Part.carrier true) =
      [g].count (.carrier true) + if κ = r.key ∧ event = e then 1 else 0)
    (hk : ∀ isDead s, (κ.1 = r.id → isDead = false) → IndexesWellFormed s →
      r.Joins sdk e fs n i op (k isDead) g' s) :
    r.Joins sdk e fs n i op
      ((Prog.atomic (.deliver κ.1) (SubscriptionRegistry.deliver sdk event κ)).bind k) g s := by
  refine Protocol.Safe.atomic_bind (fitting_act hg)
    fun γ s' hi _ (hinv : r.Delivering sdk e fs n γ s') hallowed => ⟨g', ?_, ?_, ?_⟩
  · have hroom : κ.1 = r.id → (s'.channels r.sender.channel).HasRoom :=
      fun hκ => hallowed (congrArg RegistryLock.deliver hκ)
    have honly := deliver_onlyChannels sdk event κ s'
    refine hinv.set hi (hinv.inPlace.deliver event κ) hkind ?_ fun _ hunseen => ?_
    · rw [hinv.inPlace.received_deliver hroom, hsent]
      omega
    · rwa [indexOf_congr honly.indexes]
  · have honly := deliver_onlyChannels sdk event κ s'
    refine fun _ _ _ _ => ⟨.of_eq honly.indexes, fun _ => ?_⟩
    rw [indexOf_congr honly.indexes]
    exact .refl _ _ _ _
  · refine hk _ _ (fun hκ => ?_) (hinv.inPlace.deliver event κ).indexes
    exact hinv.inPlace.deliver_alive (hallowed (congrArg RegistryLock.deliver hκ)) hκ

theorem joins_foldlM {f : α → β → Prog RegistryLock SubscriptionRegistry α}
    {k : α → Prog RegistryLock SubscriptionRegistry RegistryResult} (J : List β → α → Part → Prop)
    (hf : ∀ x rest a g (k' : α → Prog RegistryLock SubscriptionRegistry RegistryResult) s,
      J (x :: rest) a g → IndexesWellFormed s →
      (∀ a' g' s, J rest a' g' → IndexesWellFormed s → r.Joins sdk e fs n i op (k' a') g' s) →
      r.Joins sdk e fs n i op ((f a x).bind k') g s)
    (hk : ∀ a g s, J [] a g → IndexesWellFormed s → r.Joins sdk e fs n i op (k a) g s)
    {xs : List β} {a : α} (h : J xs a g) (hwf : IndexesWellFormed s) :
    r.Joins sdk e fs n i op ((xs.foldlM f a).bind k) g s := by
  induction xs generalizing a g s with
  | nil => exact hk a g s h hwf
  | cons x xs ih =>
    have hassoc : ((x :: xs).foldlM f a).bind k = (f a x).bind fun a' => (xs.foldlM f a').bind k :=
      Prog.bind_assoc _ _ _
    rw [hassoc]
    exact hf x xs a g _ s h hwf fun a' g' s h' hwf' => ih h' hwf'

/-- In the loop over the subscriptions that the index has returned: those in `rest` are still to be
served. -/
structure Sending (r : Receiver) (sdk : Sdk) (e : Event) (fs : List Filter) (op : RegistryOp)
    (event : Event) (rest : List Key) (dead : List ConnectionId) (g : Part) : Prop where
  alive : r.id ∉ dead
  plays : r.Plays sdk e fs op g
  bystander : g = .bystander → event ≠ e
  carrier : ∀ sent, g = .carrier sent → event = e ∧ rest.Nodup ∧ (sent = true → r.key ∉ rest) ∧
    (matched sdk e fs = true ↔ sent = true ∨ r.key ∈ rest)

/-- One round of the loop. -/
theorem joins_deliverOne {dead : List ConnectionId} {rest : List Key}
    {k : List ConnectionId → Prog RegistryLock SubscriptionRegistry RegistryResult}
    (h : r.Sending sdk e fs op event (κ :: rest) dead g)
    (hk : ∀ dead' g' s, r.Sending sdk e fs op event rest dead' g' → IndexesWellFormed s →
      r.Joins sdk e fs n i op (k dead') g' s) :
    r.Joins sdk e fs n i op ((Prog.atomic (.deliver κ.1)
      (SubscriptionRegistry.deliver sdk event κ)).bind fun isDead =>
        k (if isDead then dead ++ [κ.1] else dead)) g s := by
  have halive : ∀ isDead : Bool, (κ.1 = r.id → isDead = false) →
      r.id ∉ (if isDead then dead ++ [κ.1] else dead) := by
    intro isDead hisDead
    cases isDead with
    | false => exact h.alive
    | true =>
      simp only [↓reduceIte, List.mem_append, List.mem_singleton, not_or]
      exact ⟨h.alive, fun hid => absurd (hisDead hid.symm) (by simp)⟩
  by_cases hκ : κ = r.key ∧ event = e
  · -- only a carrier sends the event to the receiver, and it has not done so yet
    cases g with
    | bystander => exact absurd hκ.2 (h.bystander rfl)
    | carrier sent =>
      obtain ⟨hevent, hnodup, hsent, hmatched⟩ := h.carrier sent rfl
      have hmem : r.key ∈ κ :: rest := by rw [hκ.1]; exact List.mem_cons_self ..
      obtain rfl : sent = false := by
        by_contra hne
        exact hsent (by simpa using hne) hmem
      have hmatch : matched sdk e fs = true := hmatched.mpr (.inr hmem)
      have hkind : Part.carrier true = .bystander ↔ Part.carrier false = .bystander := by simp
      refine joins_deliver h.plays hkind (by rw [if_pos hκ]; rfl) fun isDead s hisDead hwf =>
        hk _ _ s ⟨halive isDead hisDead, ⟨h.plays.1, fun _ => hmatch⟩, fun hg => (by cases hg),
          fun sent' hg => ?_⟩ hwf
      rw [List.nodup_cons, hκ.1] at hnodup
      refine ⟨hevent, hnodup.2, fun _ => hnodup.1, iff_of_true hmatch (.inl ?_)⟩
      cases hg
      rfl
  · refine joins_deliver h.plays Iff.rfl (by rw [if_neg hκ]; rfl) fun isDead s hisDead hwf =>
      hk _ _ s ⟨halive isDead hisDead, h.plays, h.bystander, fun sent hg => ?_⟩ hwf
    obtain ⟨hevent, hnodup, hsent, hmatched⟩ := h.carrier sent hg
    have hne : r.key ≠ κ := fun heq => hκ ⟨heq.symm, hevent⟩
    refine ⟨hevent, (List.nodup_cons.mp hnodup).2,
      fun hs hmem => hsent hs (List.mem_cons_of_mem _ hmem), ?_⟩
    rw [hmatched, List.mem_cons, or_iff_right hne]

/-- What is done with what the index has returned. -/
theorem joins_send {matching : List Key}
    {k : PUnit → Prog RegistryLock SubscriptionRegistry RegistryResult}
    (h : r.Sending sdk e fs op event matching [] g) (hwf : IndexesWellFormed s)
    (hk : ∀ g' s, r.Plays sdk e fs op g' → (∀ sent, g' = .carrier sent → sent = matched sdk e fs) →
      IndexesWellFormed s → r.Joins sdk e fs n i op (k ⟨⟩) g' s) :
    r.Joins sdk e fs n i op ((deliverAll sdk event matching).bind fun dead =>
      (dead.forM (SubscriptionRegistry.cleanupConnection sdk.order)).bind k) g s := by
  refine joins_foldlM (r.Sending sdk e fs op event) (fun κ rest dead g k' s h hwf hk' => ?_)
    (fun dead g s h hwf => ?_) h hwf
  · rw [Prog.bind_eq, Prog.bind_assoc]
    exact joins_deliverOne h hk'
  · -- the connection is not among those to be cleaned up
    have hall : Acts (r.Untouched sdk e)
        (dead.forM (SubscriptionRegistry.cleanupConnection sdk.order)) := by
      have halive := h.alive
      clear h
      induction dead with
      | nil => exact acts_done _
      | cons id dead ih =>
        rw [List.mem_cons, not_or] at halive
        exact (acts_cleanupConnection sdk.order (Ne.symm halive.1)).bind fun _ => ih halive.2
    refine joins_acts h.plays hall hwf fun _ s hwf => hk g s h.plays (fun sent hg => ?_) hwf
    obtain ⟨-, -, -, hmatched⟩ := h.carrier sent hg
    rw [Bool.eq_iff_iff, hmatched, or_iff_left List.not_mem_nil]

/-- Nothing is held by an index that does not exist. -/
theorem eq_nil_of_holds_new (h : SubscriptionIndex.new.Holds κ fs) : fs = [] := by
  obtain ⟨ts, rfl, hts⟩ := h
  cases ts with
  | nil => rfl
  | cons t ts =>
    have hall := (hts.all t.id t (hts.created t (List.mem_cons_self ..)).2).mpr
      ⟨List.mem_cons_self .., rfl⟩
    cases hall

/-- The look up of a carrier in the index. -/
theorem joins_match (laws : MatchLaws sdk.matchEvent)
    {k : List Key → Prog RegistryLock SubscriptionRegistry RegistryResult}
    (hplays : r.Plays sdk e fs op (.carrier false)) (hplace : r.InPlace fs s)
    (hunseen : (s.indexOf r.scope).Unseen r.key e.id)
    (hk : ∀ matching s, matching.Nodup → (matched sdk e fs = true ↔ r.key ∈ matching) →
      IndexesWellFormed s → r.Joins sdk e fs n i op (k matching) (.carrier false) s) :
    r.Joins sdk e fs n i op ((onIndex r.scope
      (SubscriptionIndex.distributeEvent sdk.matchEvent e)).bind k) (.carrier false) s := by
  obtain ⟨ts, hts, hholding⟩ := hplace.filed
  have hmatched : matched sdk e fs = true ↔ ∃ t ∈ ts, sdk.matchEvent t.filter e = true := by
    rw [matched, ← hts, List.any_map]
    exact List.any_eq_true
  have hprog := SubscriptionIndex.distributeEvent_unseen_triple sdk.matchEvent r.key True e ts _
    (hplace.indexes r.scope) ⟨fun _ => hholding, fun _ => hunseen⟩
  have hother : (Part.carrier false) ≠ .bystander := fun h => by cases h
  refine Protocol.Safe.bind_ensures (onIndex_ensures hprog
    fun s s' (h : r.Tolerant e (.carrier false) s s') => h.other hother)
    (fun s => ⟨.refl s, fun _ => .refl _ _ _ _⟩) hplace.indexes
    (fun γ s _ (hinv : r.Delivering sdk e fs n γ s) => hinv.inPlace.indexes) (fun _ _ h => h)
    (fun γ s s' hi (hinv : r.Delivering sdk e fs n γ s) hwf' haction => ⟨?_, ?_⟩)
    (fun _ _ _ _ => fitting_act hplays) fun matching s hwf ⟨hnodup, _, hsound, hcomplete⟩ =>
      hk matching s hnodup ?_ hwf
  · have hreceived : r.received sdk e s' = r.received sdk e s :=
      received_congr (by rw [haction.rest])
    have hset := hinv.set hi (hinv.inPlace.indexAction haction (fun h => h) hwf') Iff.rfl
      (by rw [hreceived]) fun hg => absurd hg hother
    rwa [Protocol.set_of_getElem? hi] at hset
  · -- there is no other carrier, and the bystanders rely on little
    intro j g hij hj
    refine ⟨haction.grows, fun hg => absurd (hinv.unique j i g _ hj hi hg hother) hij⟩
  · rw [hmatched]
    exact ⟨hcomplete trivial laws, fun hκ => hsound trivial hκ⟩

/-- `distribute_event_indexed`, of the event or of another one. -/
theorem joins_distributeEventIndexed (laws : MatchLaws sdk.matchEvent)
    {k : PUnit → Prog RegistryLock SubscriptionRegistry RegistryResult}
    (hplays : r.Plays sdk e fs op g) (hbystander : g = .bystander → event.id ≠ e.id)
    (hcarrier : ∀ sent, g = .carrier sent → sent = false ∧ event = e ∧ scope = r.scope ∧
      (s.indexOf r.scope).Unseen r.key e.id)
    (hk : ∀ g' s, r.Plays sdk e fs op g' → (∀ sent, g' = .carrier sent → sent = matched sdk e fs) →
      IndexesWellFormed s → r.Joins sdk e fs n i op (k ⟨⟩) g' s) :
    r.Joins sdk e fs n i op ((distributeEventIndexed sdk event scope).bind k) g s := by
  rw [distributeEventIndexed, Prog.bind_eq, Prog.bind_assoc]
  refine Protocol.Safe.atomic_bind (fitting_act hplays)
    fun γ s' hi hs (hinv : r.Delivering sdk e fs n γ s') _ => ⟨g, ?_, ?_, ?_⟩
  · rwa [Protocol.set_of_getElem? hi]
  · have hsame : r.Untouched sdk e s' s' := untouched_of_same ⟨.refl _, rfl, rfl⟩
    exact Untouched.tolerable hsame
  cases hlookup : s'.indexes.lookup scope with
  | none =>
    refine hk g s' hplays (fun sent hg => ?_) hinv.inPlace.indexes
    -- the index of the receiver does not exist, so the subscription has no filters
    obtain ⟨rfl, -, rfl, -⟩ := hcarrier sent hg
    have hfiled := hinv.inPlace.filed
    rw [indexOf, hlookup, Option.getD_none] at hfiled
    rw [eq_nil_of_holds_new hfiled]
    rfl
  | some index =>
    dsimp only [Option.isSome_some]
    rw [if_pos rfl, Prog.bind_eq, Prog.bind_assoc]
    cases g with
    | bystander =>
      have hother := hbystander rfl
      have hacts : Acts (r.Untouched sdk e)
          (onIndex scope (SubscriptionIndex.distributeEvent sdk.matchEvent event)) := acts_onIndex
        (((SubscriptionIndex.distributeEvent_unseen_triple sdk.matchEvent ("", "") False event
          []).conseq (fun _ _ h => ⟨h, fun h => h.elim⟩) (fun _ _ _ h => h) (fun _ _ h => h)
            fun _ _ _ h => h)) (fun _ => ⟨fun h => h.elim, fun h => h.elim⟩) (fun h => h)
        (Ne.symm hother)
      refine joins_acts hplays hacts hinv.inPlace.indexes fun matching s hwf => ?_
      rw [Prog.bind_eq, Prog.bind_assoc]
      exact joins_send ⟨List.not_mem_nil, hplays, fun _ => ne_of_apply_ne Event.id hother,
        fun _ hg => by cases hg⟩ hwf hk
    | carrier sent =>
      obtain ⟨rfl, rfl, rfl, hunseen⟩ := hcarrier sent rfl
      have hfree := hs.other fun hg => by cases hg
      refine joins_match laws hplays hinv.inPlace
        (hunseen.stable (hfree.view trivial) (hfree.silent trivial))
        fun matching s hnodup hiff hwf => ?_
      rw [Prog.bind_eq, Prog.bind_assoc]
      refine joins_send ⟨List.not_mem_nil, hplays, fun hg => (by cases hg), fun sent hg => ?_⟩
        hwf hk
      cases hg
      refine ⟨rfl, hnodup, fun h => (by cases h), ?_⟩
      rw [hiff, or_iff_right Bool.false_ne_true]

end Receiver

/-- The calls that leave a receiver in place and do not distribute an event with the given id. -/
def RegistryOp.LeavesInPlace (r : Receiver) (x : EventId) : RegistryOp → Prop
  | .registerConnection id sender _ _ => id ≠ r.id ∧ sender.channel ≠ r.sender.channel
  | .addSubscription id sub _ => (id, sub) ≠ r.key
  | .removeSubscription id sub => (id, sub) ≠ r.key
  | .cleanupConnection id => id ≠ r.id
  | .dropHandle handle => handle.id ≠ r.id
  | .distributeEvent event _ => event.id ≠ x
  | .receive _ => True
  | .disconnect _ => True

instance (r : Receiver) (x : EventId) (op : RegistryOp) : Decidable (op.LeavesInPlace r x) :=
  match op with
  | .registerConnection id sender _ _ =>
    inferInstanceAs (Decidable (id ≠ r.id ∧ sender.channel ≠ r.sender.channel))
  | .addSubscription id sub _ => inferInstanceAs (Decidable ((id, sub) ≠ r.key))
  | .removeSubscription id sub => inferInstanceAs (Decidable ((id, sub) ≠ r.key))
  | .cleanupConnection id => inferInstanceAs (Decidable (id ≠ r.id))
  | .dropHandle handle => inferInstanceAs (Decidable (handle.id ≠ r.id))
  | .distributeEvent event _ => inferInstanceAs (Decidable (event.id ≠ x))
  | .receive _ => inferInstanceAs (Decidable True)
  | .disconnect _ => inferInstanceAs (Decidable True)

/-- One call at most distributes the event, all others leave the receiver in place, and a send to
its connection finds room. -/
def sparing (r : Receiver) (e : Event)
    (c : Config RegistryOp RegistryLock SubscriptionRegistry RegistryResult) :
    Move RegistryOp → Prop
  | .start op => op.LeavesInPlace r e.id ∨ op.distributed? = some (e, r.scope) ∧
    ∀ call ∈ c.calls, call.op.distributed? ≠ some (e, r.scope)
  | .step i => ∀ call ∈ c.calls[i]?, call.label? = some (.deliver r.id) →
    (c.state.channels r.sender.channel).HasRoom

instance (r : Receiver) (e : Event)
    (c : Config RegistryOp RegistryLock SubscriptionRegistry RegistryResult)
    (m : Move RegistryOp) : Decidable (sparing r e c m) :=
  match m with
  | .start op => inferInstanceAs (Decidable (op.LeavesInPlace r e.id ∨
    op.distributed? = some (e, r.scope) ∧
      ∀ call ∈ c.calls, call.op.distributed? ≠ some (e, r.scope)))
  | .step i => inferInstanceAs (Decidable (∀ call ∈ c.calls[i]?,
    call.label? = some (.deliver r.id) → (c.state.channels r.sender.channel).HasRoom))

namespace Receiver

variable {r : Receiver} {sdk : Sdk} {e event : Event} {fs : List Filter} {κ : Key}
  {s s' : SubscriptionRegistry} {n i : ℕ} {γ : List Part} {op : RegistryOp}
  {c : Config RegistryOp RegistryLock SubscriptionRegistry RegistryResult}

/-- The calls that leave the receiver in place join as bystanders. -/
theorem joins_bystander (laws : MatchLaws sdk.matchEvent) (h : op.LeavesInPlace r e.id)
    (hwf : IndexesWellFormed s) : r.Joins sdk e fs n i op (op.code sdk) .bystander s := by
  have hplays : r.Plays sdk e fs op .bystander := by
    show op.distributed? ≠ some (e, r.scope)
    cases op with
    | distributeEvent event scope =>
      rintro ⟨⟩
      exact h rfl
    | _ => simp [RegistryOp.distributed?]
  have hend : ∀ {α : Type} {p : Prog RegistryLock SubscriptionRegistry α}
      {f : α → RegistryResult}, Acts (r.Untouched sdk e) p →
      r.Joins sdk e fs n i op (p.bind fun a => .done (f a)) .bystander s := fun hp =>
    joins_acts hplays hp hwf fun a s _ => joins_done hplays (fun _ hg => by cases hg) _
  cases op with
  | registerConnection id sender auth subdomain =>
    exact hend (acts_atomic fun s => ⟨rfl, untouched_register h.1 h.2 auth subdomain⟩)
  | addSubscription id sub filters => exact hend (acts_addSubscription h filters)
  | removeSubscription id sub => exact hend (acts_removeSubscription sdk.order h)
  | cleanupConnection id => exact hend (acts_cleanupConnection sdk.order h)
  | dropHandle handle => exact hend (acts_dropHandle sdk.order h)
  | distributeEvent event scope =>
    refine joins_distributeEventIndexed laws hplays (fun _ => h) (fun _ hg => by cases hg)
      fun g s hg hended _ => joins_done hg hended _
  | receive ch =>
    have hacts : Acts (r.Untouched sdk e) (RegistryOp.code sdk (.receive ch)) := by
      refine acts_atomic fun s => ⟨rfl, untouched_setChannel ch fun channel => ?_⟩
      rw [Channel.receive]
      split <;> rfl
    have hjoins := hend (f := fun result => result) hacts
    rwa [Prog.bind_done] at hjoins
  | disconnect ch =>
    have hacts : Acts (r.Untouched sdk e) (RegistryOp.code sdk (.disconnect ch)) :=
      acts_atomic fun s => ⟨rfl, untouched_setChannel ch fun _ => rfl⟩
    have hjoins := hend (f := fun result => result) hacts
    rwa [Prog.bind_done] at hjoins

/-- The call that distributes the event joins as the carrier. -/
theorem joins_carrier (laws : MatchLaws sdk.matchEvent) (hop : op.distributed? = some (e, r.scope))
    (hunseen : (s.indexOf r.scope).Unseen r.key e.id) :
    r.Joins sdk e fs n i op (op.code sdk) (.carrier false) s := by
  cases op with
  | distributeEvent event scope =>
    cases hop
    refine joins_distributeEventIndexed laws ⟨rfl, fun h => by cases h⟩ (fun hg => by cases hg)
      (fun sent hg => ?_) fun g s hg hended _ => joins_done hg hended _
    cases hg
    exact ⟨rfl, rfl, rfl, hunseen⟩
  | _ => cases hop

/-- Along every run, the protocol holds. -/
theorem delivering_of_run (laws : MatchLaws sdk.matchEvent) (hplace : r.InPlace fs s)
    (hunseen : (s.indexOf r.scope).Unseen r.key e.id)
    (hrun : Run (fun _ => RegistryOp.code sdk) (sparing r e) (Config.initial s) c) :
    ∃ γ, (r.deliveryProtocol sdk e fs (r.received sdk e s)).Holds (r.Fitting sdk e fs) c γ := by
  set P := r.deliveryProtocol sdk e fs (r.received sdk e s)
  have hinitial : P.inv [] s := ⟨hplace, rfl, fun _ => hunseen, fun i _ _ _ hi => by simp at hi⟩
  have hstart : ∀ c γ op, P.Holds (r.Fitting sdk e fs) c γ → sparing r e c (.start op) →
      ∃ g, P.inv (γ ++ [g]) c.state ∧
        P.Safe c.calls.length (r.Fitting sdk e fs op) (op.code sdk) g c.state := by
    intro c γ op h hok
    have hinv : r.Delivering sdk e fs (r.received sdk e s) γ c.state := h.inv
    obtain hspares | ⟨hop, hfirst⟩ := hok
    · exact ⟨.bystander, hinv.start (.inl rfl), joins_bystander laws hspares hinv.inPlace.indexes⟩
    · have hall : ∀ g ∈ γ, g = .bystander := by
        intro g hg
        obtain ⟨j, hj⟩ := List.mem_iff_getElem?.mp hg
        obtain ⟨call, hcall, hfits⟩ := h.call hj
        cases g with
        | bystander => rfl
        | carrier sent => exact absurd hfits.plays.1 (hfirst call (List.mem_of_getElem? hcall))
      exact ⟨.carrier false, hinv.start (.inr ⟨rfl, hall⟩),
        joins_carrier laws hop (hinv.unseen hall)⟩
  have hallowed : ∀ c γ i l, P.Holds (r.Fitting sdk e fs) c γ → sparing r e c (.step i) →
      c.At i l → P.allowed γ i c.state l := by
    rintro c γ i l - hok ⟨call, hcall, hlabel⟩ rfl
    exact hok call hcall hlabel
  obtain ⟨γ, hγ, -⟩ := (Protocol.Holds.initial hinitial).run hrun hstart hallowed
  exact ⟨γ, hγ⟩

/-- **An event is delivered exactly once.** A subscription is in place and has not seen the event.
However the calls interleave that leave it in place, with room in the channel whenever somebody
sends to the connection, it stays in place. It gets the event from the call that distributes it,
once, if one of its filters matches, and not at all if none does. -/
theorem deliveredOnce (laws : MatchLaws sdk.matchEvent) (hplace : r.InPlace fs s)
    (hunseen : (s.indexOf r.scope).Unseen r.key e.id)
    (hrun : Run (fun _ => RegistryOp.code sdk) (sparing r e) (Config.initial s) c) :
    r.InPlace fs c.state ∧ ∃ sent : ℕ, r.received sdk e c.state = r.received sdk e s + sent ∧
      sent ≤ (if ∃ f ∈ fs, sdk.matchEvent f e = true then 1 else 0) ∧
      ∀ i a, c.Returned i (.distributeEvent e r.scope) a →
        sent = if ∃ f ∈ fs, sdk.matchEvent f e = true then 1 else 0 := by
  obtain ⟨γ, h⟩ := delivering_of_run laws hplace hunseen hrun
  have hinv : r.Delivering sdk e fs (r.received sdk e s) γ c.state := h.inv
  have hmatched : matched sdk e fs = true ↔ ∃ f ∈ fs, sdk.matchEvent f e = true :=
    List.any_eq_true
  -- the parts of the calls
  have hpart : ∀ g ∈ γ, ∃ call, r.Fitting sdk e fs (Call.op call) g (Call.prog call) := by
    intro g hg
    obtain ⟨j, hj⟩ := List.mem_iff_getElem?.mp hg
    obtain ⟨call, -, hfits⟩ := h.call hj
    exact ⟨call, hfits⟩
  refine ⟨hinv.inPlace, γ.count (.carrier true), hinv.received, ?_, fun i a hi => ?_⟩
  · by_cases hmem : Part.carrier true ∈ γ
    · obtain ⟨call, hfits⟩ := hpart _ hmem
      rw [if_pos (hmatched.mp (hfits.plays.2 rfl))]
      exact hinv.count_le
    · rw [List.count_eq_zero_of_not_mem hmem]
      exact Nat.zero_le _
  · obtain ⟨g, hg, hfits⟩ := h.ghost hi
    cases g with
    | bystander => exact absurd rfl hfits.plays
    | carrier sent =>
      obtain rfl := hfits.ended a sent rfl rfl
      by_cases hmatch : ∃ f ∈ fs, sdk.matchEvent f e = true
      · rw [if_pos hmatch]
        rw [hmatched.mpr hmatch] at hg
        exact le_antisymm hinv.count_le (List.count_pos_iff.mpr (List.mem_of_getElem? hg))
      · rw [if_neg hmatch]
        refine List.count_eq_zero_of_not_mem fun hmem => hmatch ?_
        obtain ⟨call, hfits⟩ := hpart _ hmem
        exact hmatched.mp (hfits.plays.2 rfl)

/-- A subscription that was added to a connection is in place, if there were no filters of its key
in the index, and the channel is the connection's own. -/
theorem addSubscription_inPlace {H : ScopedKey → Option (List Filter)} {conn : ConnRef}
    {data : ConnectionSubscriptions} (hs : Settled H s)
    (hconn : s.connections.lookup r.id = some conn) (hdata : s.conns conn = some data)
    (hsender : data.sender = r.sender) (hscope : data.subdomain = r.scope)
    (halone : ∀ id, ∀ sender ∈ s.sender? id, sender.channel = r.sender.channel → id = r.id)
    (hnone : H (r.scope, r.key) = none) (fs : List Filter) :
    (SubscriptionRegistry.addSubscription r.id r.sub fs).Alone SameChannels
      (fun _ s' => r.InPlace fs s') s := by
  refine (addSubscription_alone hs.live hs.idle hconn hdata r.sub fs).post
    fun _ s' ⟨_, hsame, hlive⟩ => ?_
  have hsender' : ∀ id, s'.sender? id = s.sender? id := by
    intro id
    rw [sender?_congr hsame.connections hsame.conns, sender?, sender?,
      connection?_setSubscriptions hs.wellFormed hconn hdata]
    split
    · next hid =>
      subst hid
      rw [connection?_of_lookup hconn hdata]
      rfl
    · rfl
  refine ⟨fun id conn' hconn' => ?_, fun scope => (hlive scope).wellFormed, ?_,
    fun id sender hmem => ?_, ?_⟩
  · rw [hsame.connections] at hconn'
    exact (hs.wellFormed.current id conn' hconn').1
  · rw [hsender', sender?, connection?_of_lookup hconn hdata, Option.map_some, hsender]
  · rw [hsender'] at hmem
    exact halone id sender hmem
  · have hentry := (hlive r.scope).entry r.key
    rw [hscope, show (r.id, r.sub) = r.key from rfl, Function.update_self, hnone] at hentry
    exact hentry

/-- Alice's feed, through a channel with room for eight packets. -/
def feed : Receiver := ⟨"alice", "feed", ⟨0, 0⟩, .default⟩

/-- The registry with alice's feed alone. -/
def feedOnly : SubscriptionRegistry :=
  let s := (register "alice" ⟨0, 0⟩ none .default (SubscriptionRegistry.new none unread)).2
  (((SubscriptionRegistry.addSubscription "alice" "feed" [Filter.kind 1]).run s).map
    (·.state)).getD s

theorem feedOnly_inPlace : feed.InPlace [Filter.kind 1] feedOnly := by
  have hs := (settled_new none unread).register "alice" ⟨0, 0⟩ none .default
  have halone : ∀ id, ∀ sender ∈ (register "alice" ⟨0, 0⟩ none .default
      (SubscriptionRegistry.new none unread)).2.sender? id,
      sender.channel = feed.sender.channel → id = feed.id := by
    intro id sender hmem _
    by_contra hid
    have hne : id ≠ "alice" := hid
    simp only [sender?, SubscriptionRegistry.connection?, register,
      AList.lookup_insert_ne hne] at hmem
    cases hmem
  obtain ⟨o, ho, hplace⟩ := (addSubscription_inPlace hs rfl rfl rfl rfl halone rfl
    [Filter.kind 1]).run
  have hstate : feedOnly = o.state := by
    rw [feedOnly]
    exact congrArg (fun x => (Option.map (·.state) x).getD _) ho
  rwa [hstate]

theorem feedOnly_unseen (x : EventId) : (feedOnly.indexOf feed.scope).Unseen feed.key x := by
  constructor
  · rintro id t - - hseen
    cases hseen
  · rintro g hg hseen
    cases hg
    cases hseen

/-- Two events are distributed at the same time, while bob subscribes. -/
def twoEvents : List (Move RegistryOp) :=
  [.start (.distributeEvent (Event.note 1) .default),
    .start (.distributeEvent (Event.note 2) .default)] ++
    callAlone (registerAt "bob" 1 .default) 2 1 ++
    [.start (.addSubscription "bob" "feed" [Filter.kind 1])] ++
    (List.replicate 10 [.step 0, .step 1, .step 3]).flatten ++
    (List.replicate 2 [.step 0, .step 1]).flatten

theorem deliveredOnce_twoEvents : ∃ c, (Config.initial feedOnly).play
    (fun _ => RegistryOp.code .sample) (sparing feed (Event.note 1)) twoEvents = some c ∧
    feed.received .sample (Event.note 1) c.state = 1 := by
  obtain ⟨c, hplay, hreturned⟩ : ∃ c, (Config.initial feedOnly).play
    (fun _ => RegistryOp.code .sample) (sparing feed (Event.note 1)) twoEvents = some c ∧
    c.Returned 0 (.distributeEvent (Event.note 1) .default) (.ok none) := ⟨_, rfl, rfl⟩
  obtain ⟨-, sent, hsent, -, hall⟩ := deliveredOnce Filter.matchEvent_laws feedOnly_inPlace
    (feedOnly_unseen 1) (Config.run_of_play hplay)
  refine ⟨c, hplay, ?_⟩
  rw [hsent, hall 0 _ hreturned, if_pos ⟨_, List.mem_singleton_self _, by decide⟩]
  rfl

end Receiver

end RelayBuilder
