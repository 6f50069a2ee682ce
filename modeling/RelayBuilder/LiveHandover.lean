import RelayBuilder.Handover
import RelayBuilder.Interleave.Succession
import RelayBuilder.RegistryDelivery

/-!
# Between the stored events and the subscription

When an event is distributed after a REQ has returned, the subscription of the REQ is in place and
gets the event, even if it was stored too late for the stored answer. Together with the events that
were stored first, these are the two ways in which a client gets an event that is saved while its
REQ is handled. There is a gap between them: an event that is saved and distributed when the REQ
has asked the store, but has not registered the subscription yet, is lost.

## Main definitions

* `Request.Ready`: where the two calls start
* `Handover.registeredFirst`

## Main results

* `Request.ready_of_agree`
* `Handover.enqueued_of_registeredFirst`
* `Handover.handed_over`: either way the client gets the event
-/

namespace RelayBuilder

open Interleave Script

open SubscriptionRegistry RelayState

namespace Request

variable {r : Request} {s s' : SubscriptionRegistry}

/-- The subscription of the REQ, as a receiver of events. -/
def receiver (r : Request) : Receiver := ⟨r.coordinator.connectionId, r.sub, r.sender, r.scope⟩

/-- The connection is registered, and nobody else sends through its channel. -/
structure Connected (r : Request) (s : SubscriptionRegistry) : Prop where
  registered : ∃ data, s.connection? r.key.1 = some data ∧ data.sender = r.sender ∧
    data.subdomain = r.scope
  alone : ∀ id, ∀ sender ∈ s.sender? id, sender.channel = r.sender.channel → id = r.key.1

/-- No call is under way, and the index holds filters of the subscription only if they are stored
for the connection. -/
structure Ready (r : Request) (s : SubscriptionRegistry) : Prop extends r.Connected s where
  settled : ∃ H, Settled H s ∧ (s.stored (r.scope, r.key) = none → H (r.scope, r.key) = none)

/-- No call is under way, and the index holds nothing of the subscription. -/
structure Vacated (r : Request) (s : SubscriptionRegistry) : Prop extends r.Connected s where
  settled : ∃ H, Settled H s ∧ H (r.scope, r.key) = none

/-- The two calls may start wherever the connections and the indexes agree. -/
theorem ready_of_agree {H : ScopedKey → Option (List Filter)} (h : r.Connected s)
    (hs : Settled H s) (hagree : SubscriptionRegistry.Agree s) : r.Ready s :=
  ⟨h, s.stored, ⟨hs.wellFormed, hs.idle, fun scope => ⟨(hs.live scope).wellFormed, hagree scope⟩⟩,
    fun hnone => hnone⟩

theorem Connected.congr (h : r.Connected s) (hs : SameConnections s s') : r.Connected s' := by
  obtain ⟨data, hdata, hsame⟩ := h.registered
  refine ⟨⟨data, (hs.connection? _).trans hdata, hsame⟩, fun id sender hsender => ?_⟩
  rw [sender?_congr hs.connections hs.conns] at hsender
  exact h.alone id sender hsender

theorem Connected.setSubscriptions (h : r.Connected s) (hwf : WellFormed s) {conn : ConnRef}
    {data : ConnectionSubscriptions} (hconn : s.connections.lookup r.key.1 = some conn)
    (hdata : s.conns conn = some data)
    (f : (AList fun _ : SubscriptionId => List Filter) →
      AList fun _ : SubscriptionId => List Filter) : r.Connected (s.setSubscriptions conn f) := by
  have hconnection := connection?_setSubscriptions hwf hconn hdata f
  have hsender (id : ConnectionId) : (s.setSubscriptions conn f).sender? id = s.sender? id := by
    rw [SubscriptionRegistry.setSubscriptions]
    refine sender?_updateConn conn ?_ id
    exact fun _ => rfl
  obtain ⟨data', hdata', hsame⟩ := h.registered
  obtain rfl : data = data' := by
    rw [connection?_of_lookup hconn hdata] at hdata'
    exact Option.some.inj hdata'
  refine ⟨⟨_, (hconnection _).trans (if_pos rfl), hsame⟩, fun id sender hmem => ?_⟩
  rw [hsender] at hmem
  exact h.alone id sender hmem

theorem Ready.onlyChannels (h : r.Ready s) (hs : OnlyChannels s s') : r.Ready s' := by
  obtain ⟨H, hH, hnone⟩ := h.settled
  refine ⟨h.toConnected.congr hs.toSameConnections, H, hH.onlyChannels hs, ?_⟩
  rwa [SubscriptionRegistry.stored, hs.connection?]

theorem Vacated.onlyChannels (h : r.Vacated s) (hs : OnlyChannels s s') : r.Vacated s' := by
  obtain ⟨H, hH, hnone⟩ := h.settled
  exact ⟨h.toConnected.congr hs.toSameConnections, H, hH.onlyChannels hs, hnone⟩

/-- The removal of the old subscription, if there is one. -/
theorem removeSubscription_vacates (h : r.Ready s) (order : HashOrder) :
    (SubscriptionRegistry.removeSubscription order r.coordinator.connectionId r.sub).Alone
      SameChannels (fun _ s' => r.Vacated s') s := by
  obtain ⟨data, hconnection, -, hscope⟩ := h.registered
  obtain ⟨H, hs, hnone⟩ := h.settled
  obtain ⟨conn, hconn, hdata⟩ := Option.bind_eq_some_iff.mp hconnection
  refine (removeSubscription_alone hs.live hs.idle order hconn hdata r.sub).post
    fun _ s' ⟨_, hsame, hlive⟩ => ?_
  refine ⟨(h.toConnected.setSubscriptions hs.wellFormed hconn hdata _).congr hsame, _,
    hs.setSubscriptions hdata hsame hlive, ?_⟩
  split
  · rw [hscope]
    exact Function.update_self ..
  · next hsub =>
    refine hnone ?_
    rw [SubscriptionRegistry.stored, hconnection, Option.bind_some, if_pos hscope]
    exact AList.lookup_eq_none.mpr hsub

/-- The new subscription is in place, and has not seen anything. -/
theorem addSubscription_registers (h : r.Vacated s) (x : EventId) :
    (SubscriptionRegistry.addSubscription r.coordinator.connectionId r.sub r.filters).Alone
      SameChannels (fun _ s' => r.receiver.InPlace r.filters s' ∧
        (s'.indexOf r.scope).Unseen r.key x) s := by
  obtain ⟨data, hconnection, hsender, hscope⟩ := h.registered
  obtain ⟨H, hs, hnone⟩ := h.settled
  obtain ⟨conn, hconn, hdata⟩ := Option.bind_eq_some_iff.mp hconnection
  have hplace := Receiver.addSubscription_inPlace (r := r.receiver) hs hconn hdata hsender hscope
    h.alone hnone r.filters
  have hunseen := addSubscription_unseen hs.live hs.idle hconn hdata (hscope ▸ hnone) r.filters x
  rw [hscope] at hunseen
  exact hplace.and hunseen

theorem everyAsk_leavesRegistry :
    (r.coordinator.processHistoricalEvents r.sub r.filters r.scope).EveryAsk (fun _ _ => True)
      RelayCall.LeavesRegistry := by
  refine ((everyAsk_processFilters _ _).mono fun call hcall => ?_).andThen fun _ => ?_
  · cases call with
    | distributeEvent | addSubscription | removeSubscription => exact hcall
    | _ => trivial
  · have hask (packet : Packet) :
        RelayCall.LeavesRegistry (.trySend r.sender.channel packet) := trivial
    refine (everyAsk_request (hask _)).mapError.bind fun sent => ?_
    cases sent with
    | ok _ => trivial
    | error e => exact everyAsk_request_bind trivial fun _ _ => trivial

end Request

/-! ### The REQ -/

namespace Handover

variable {h : Handover} {Δ : Type} {sdk : Sdk} {services : Services Δ}
  {s s' : SubscriptionRegistry} {t : RelayState Δ}

/-- The subscription is registered, and has not seen the event. -/
structure Listens (h : Handover) (s : SubscriptionRegistry) : Prop where
  inPlace : h.request.receiver.InPlace h.request.filters s
  unseen : (s.indexOf h.request.scope).Unseen h.request.key h.event.id

theorem Listens.onlyChannels (hl : h.Listens s) (hs : OnlyChannels s s') : h.Listens s' := by
  refine ⟨hl.inPlace.onlyChannels hs, ?_⟩
  rw [hs.indexOf]
  exact hl.unseen

/-- A contract of the registry, for the state of the relay. -/
theorem ensures_onRegistry {α : Type} {p : Prog RegistryLock SubscriptionRegistry α}
    {Q : α → SubscriptionRegistry → Prop} {R : SubscriptionRegistry → SubscriptionRegistry → Prop}
    {S : RelayState Δ → RelayState Δ → Prop}
    (hp : p.Ensures (fun _ => True) R (fun _ _ => True) Q t.registry)
    (hR : ∀ t t', S t t' → R t.registry t'.registry) :
    (onRegistry p).Ensures (fun _ => True) S (fun _ _ => True) (fun a t => Q a t.registry) t :=
  hp.zoom (fun _ _ => rfl) (fun _ _ => trivial) hR fun _ _ _ _ _ => ⟨trivial, trivial⟩

/-- A method of the registry, while the others only send. -/
theorem ensures_method {α β : Type} {G : SubscriptionRegistry → SubscriptionRegistry → Prop}
    {p : Prog RegistryLock SubscriptionRegistry α} {P : SubscriptionRegistry → Prop}
    (hp : p.Alone G (fun _ => P) t.registry) (hrespects : p.Respects OnlyChannels)
    (hP : ∀ s s', P s → OnlyChannels s s' → P s') (f : α → β) :
    ((onRegistry p).bind fun a => Prog.done (f a)).Ensures (fun _ => True)
      (fun t t' : RelayState Δ => OnlySends t.registry t'.registry) (fun _ _ => True)
      (fun _ t => P t.registry) t := by
  refine Prog.Ensures.bind (fun t => OnlySends.refl t.registry) (ensures_onRegistry
    (hp.ensures hrespects (fun _ _ _ => OnlyChannels.trans) (.refl _))
    fun _ _ hr => hr.toOnlyChannels) trivial ?_
  rintro a t' - ⟨s, hs, honly⟩ t'' hs' -
  exact hP _ _ (hP _ _ hs honly) hs'.toOnlyChannels

/-- The end of the REQ: an old subscription is removed, and the new one is added. -/
theorem listens_addSubscription (hready : h.request.Ready t.registry) :
    ((h.request.coordinator.addSubscription h.request.sub h.request.filters).interpret
      (RelayCall.code sdk services)).Ensures (fun _ => True)
        (fun t t' => OnlySends t.registry t'.registry) (fun _ _ => True)
        (fun _ t => h.Listens t.registry) t := by
  have hremove : (RelayCall.code sdk services (.removeSubscription
      h.request.coordinator.connectionId h.request.sub)).Ensures (fun _ => True)
      (fun t t' => OnlySends t.registry t'.registry) (fun _ _ => True)
      (fun _ t => h.request.Vacated t.registry) t :=
    ensures_method (Request.removeSubscription_vacates hready sdk.order)
      (respects_removeSubscription _ _ _) (fun _ _ => Request.Vacated.onlyChannels)
      (Except.map fun _ => ())
  refine Prog.Ensures.bind (fun t => OnlySends.refl t.registry) hremove trivial
    fun _ t' _ hvacated => ?_
  have hadd : (RelayCall.code sdk services (.addSubscription h.request.coordinator.connectionId
      h.request.sub h.request.filters)).Ensures (fun _ => True)
      (fun t t' => OnlySends t.registry t'.registry) (fun _ _ => True)
      (fun _ t => h.Listens t.registry) t' :=
    ensures_method (P := h.Listens) ((Request.addSubscription_registers hvacated h.event.id).post
      fun _ _ hl => ⟨hl.1, hl.2⟩) (respects_addSubscription _ _ _)
      (fun _ _ => Listens.onlyChannels) (Except.map fun _ => ())
  exact Prog.Ensures.bind (fun t => OnlySends.refl t.registry) hadd trivial
    fun _ _ _ hl _ hs _ => hl.onlyChannels hs.toOnlyChannels

/-- A REQ that has succeeded has registered its subscription. -/
def Registered (h : Handover) (s : SubscriptionRegistry) (result : Except Error Unit)
    (t : RelayState Δ) : Prop :=
  result = .ok () → SentGrows s t.registry ∧ h.Listens t.registry

/-- The REQ, while the other call only sends. -/
theorem registers_handleReq (hready : h.request.Ready t.registry) (hs : SentGrows s t.registry) :
    (h.code sdk services .req).Ensures (fun _ => True)
      (fun t t' => OnlySends t.registry t'.registry) (fun _ _ => True) (h.Registered s) t := by
  have hsent : (h.code sdk services .req).Ensures (fun _ => True)
      (fun t t' => OnlySends t.registry t'.registry) (fun _ _ => True)
      (fun _ t => True ∧ SentGrows s t.registry) t :=
    Prog.ensures_of_always (B := fun t => SentGrows s t.registry) (Prog.always_true _)
      (fun _ _ hr hs => hs.trans hr.sent) ((Script.every_interpret (every_code sdk services) _).mono
        fun _ _ hr hs => hs.trans hr) hs
  have hlistens : (h.code sdk services .req).Ensures (fun _ => True)
      (fun t t' => OnlySends t.registry t'.registry) (fun _ _ => True)
      (fun result t => result = .ok () → h.Listens t.registry) t := by
    rw [code, SubscriptionCoordinator.handleReq, Script.andThen, Script.interpret_bind]
    refine Prog.Ensures.bind (fun t => OnlySends.refl t.registry) (Prog.ensures_of_always
      (B := fun t => h.request.Ready t.registry) (Prog.always_true _)
      (fun _ _ hr hready => hready.onlyChannels hr.toOnlyChannels)
      ((Request.everyAsk_leavesRegistry.every_interpret fun _ => every_leavesRegistry sdk
        services).mono fun _ _ hr hready => hready.onlyChannels hr.toOnlyChannels) hready) trivial
      fun result t' _ hready' => ?_
    cases result with
    | error e => exact fun _ _ _ hok => (by cases hok)
    | ok _ =>
      exact (listens_addSubscription hready'.2).post
        (U := fun (result : Except Error Unit) (t : RelayState Δ) =>
          result = .ok () → h.Listens t.registry) fun _ _ _ hl _ => hl
  exact (hlistens.and hsent).conseq (fun _ _ hr => ⟨hr, hr⟩) (fun _ _ _ _ => trivial)
    fun _ _ _ hr hok => ⟨hr.2.2, hr.1 hok⟩

end Handover

namespace Receiver

variable {r : Receiver} {sdk : Sdk} {e : Event} {fs : List Filter} {s : SubscriptionRegistry}
  {admits : RegistryLock → SubscriptionRegistry → Bool}

/-- An event that is distributed while nobody else acts, is delivered if a filter matches it. -/
theorem delivers_alone (laws : MatchLaws sdk.matchEvent)
    (hadmits : ∀ s, admits (.deliver r.id) s = true → (s.channels r.sender.channel).HasRoom)
    (hplace : r.InPlace fs s) (hunseen : (s.indexOf r.scope).Unseen r.key e.id)
    (hmatch : ∃ f ∈ fs, sdk.matchEvent f e = true) :
    ((distributeEventIndexed sdk e r.scope).guarded admits).Ensures (fun _ => True) Eq
      (fun _ _ => True) (fun _ s' => r.received sdk e s' = r.received sdk e s + 1) s := by
  have hmatched : matched sdk e fs = true := List.any_eq_true.mpr hmatch
  set n := r.received sdk e s with hn
  have hinv : r.Delivering sdk e fs n [.carrier false] s := by
    refine Delivering.start (γ := []) ⟨hplace, rfl, fun _ => hunseen, fun i _ _ _ hi => ?_⟩
      (.inr ⟨rfl, fun _ hg => by cases hg⟩)
    simp at hi
  have hsafe : r.Joins sdk e fs n 0 (.distributeEvent e r.scope)
      (RegistryOp.code sdk (.distributeEvent e r.scope)) (.carrier false) s :=
    joins_carrier laws rfl hunseen
  have hallowed (γ : List Part) (s : SubscriptionRegistry) (l : RegistryLock)
      (hl : admits l s = true) : (r.deliveryProtocol sdk e fs n).allowed γ 0 s l := by
    rintro rfl
    exact hadmits s hl
  have hensures := hsafe.guarded_ensures hallowed rfl hinv
  have hcode : ((RegistryOp.code sdk (.distributeEvent e r.scope)).guarded admits) =
      ((distributeEventIndexed sdk e r.scope).guarded admits).bind
        fun _ => Prog.done (.ok none) := Prog.guarded_bind _ _
  rw [hcode] at hensures
  refine hensures.of_bind_done.post fun _ s' _ ⟨γ, g, hg, hinv', hfits⟩ => ?_
  have hdelivering : r.Delivering sdk e fs n γ s' := hinv'
  cases g with
  | bystander => exact absurd rfl hfits.plays
  | carrier sent =>
    obtain rfl := hfits.ended _ sent rfl rfl
    rw [hmatched] at hg
    rw [hdelivering.received, le_antisymm hdelivering.count_le
      (List.count_pos_iff.mpr (List.mem_of_getElem? hg))]

end Receiver

/-! ### The event is stored after -/

namespace Handover

variable {h : Handover} {Δ : Type} {sdk : Sdk} {services : Services Δ}
  {s s' s'' : SubscriptionRegistry} {t : RelayState Δ}

/-- The event is distributed when the REQ has returned, and there is room. -/
def registeredFirst (h : Handover)
    (c : Config HandoverOp RelayLock (RelayState Δ) (Except Error Unit)) (m : Move HandoverOp) :
    Prop :=
  h.roomy c m ∧ succession (· = .req) (· = .registry .indexes) c m

instance (h : Handover) (c : Config HandoverOp RelayLock (RelayState Δ) (Except Error Unit))
    (m : Move HandoverOp) : Decidable (h.registeredFirst c m) :=
  inferInstanceAs (Decidable (_ ∧ _))

theorem enqueued_of_received (hs : SentGrows s s') (hs' : SentGrows s' s'')
    (hreceived : h.request.receiver.received sdk h.event s'' =
      h.request.receiver.received sdk h.event s' + 1) : h.Enqueued s s'' := by
  obtain ⟨old, hold⟩ := hs h.request.sender.channel
  obtain ⟨new, hnew⟩ := hs' h.request.sender.channel
  refine ⟨old ++ new, ?_, h.request.receiver.packet sdk h.event, ?_, rfl⟩
  · rw [← List.append_assoc, hold, hnew]
  · refine List.mem_append_right _ (List.count_pos_iff.mp ?_)
    have hsent : (s''.channels h.request.receiver.sender.channel).sent =
        (s'.channels h.request.receiver.sender.channel).sent ++ new := hnew.symm
    rw [Receiver.received, Receiver.received, hsent, List.count_append] at hreceived
    omega

/-- Before the event is distributed, the other call only sends. -/
theorem until_call {W : Prog RelayLock (RelayState Δ) (Except Error Unit) → Prop}
    {E : Except Error Unit → Prop} {call : RelayCall} (hcall : h.SaveAsks call)
    {k : call.Answer → Prog RelayLock (RelayState Δ) (Except Error Unit)}
    (hk : ∀ r, (k r).Until (fun t t' => OnlySends t.registry t'.registry)
      (· = .registry .indexes) W E) :
    (((call.code sdk services).guarded h.admits).bind k).Until
      (fun t t' => OnlySends t.registry t'.registry) (· = .registry .indexes) W E := by
  cases call with
  | trySend channel packet =>
    exact .inr ⟨fun heq => (by cases heq), fun t => ⟨onlySends_trySendTo _ _ _, hk _⟩⟩
  | scopedView | saveEvent | respond =>
    exact .inr ⟨fun heq => (by cases heq), fun t => ⟨.refl _, hk _⟩⟩
  | _ => cases hcall

theorem until_save {W : Prog RelayLock (RelayState Δ) (Except Error Unit) → Prop}
    (hW : W (((RelayCall.code sdk services (.distributeEvent h.event h.request.scope)).guarded
      h.admits).bind fun _ => Prog.done (.ok ()))) :
    ((h.code sdk services .save).guarded h.admits).Until
      (fun t t' => OnlySends t.registry t'.registry) (· = .registry .indexes) W (· ≠ .ok ()) := by
  rw [code, Script.interpret_guarded, SubscriptionCoordinator.saveAndBroadcast, Script.bind_eq,
    Script.interpret_bind]
  refine everyAsk_saveEvent.until_bind (fun _ hcall _ => until_call hcall) fun saved => ?_
  rw [Script.bind_eq, Script.interpret_bind]
  refine (everyAsk_respondSaved saved).until_bind (fun _ hcall _ => until_call hcall) fun _ => ?_
  cases saved with
  | error e => exact fun heq => by cases heq
  | ok _ => exact .inl ⟨rfl, hW⟩

theorem guarded_onRegistry {α : Type} (p : Prog RegistryLock SubscriptionRegistry α) :
    (onRegistry p : Prog RelayLock (RelayState Δ) α).guarded h.admits =
      onRegistry (p.guarded h.admitsOn) := by
  refine Prog.guarded_zoom ?_ p
  exact fun _ _ => rfl

/-- The distribution of the event, when the REQ has registered its subscription. -/
theorem enqueues_distributeEvent (laws : MatchLaws sdk.matchEvent)
    (hmatch : ∃ f ∈ h.request.filters, sdk.matchEvent f h.event = true)
    (hs : SentGrows s t.registry) (hlistens : h.Listens t.registry) :
    ((RelayCall.code sdk services (.distributeEvent h.event h.request.scope)).guarded
      h.admits).Ensures (fun _ => True) Eq (fun _ _ => True)
        (fun _ t => h.Enqueued s t.registry) t := by
  have hdelivers := Receiver.delivers_alone laws
    (fun s (hs : h.admitsOn (.deliver h.request.receiver.id) s = true) => of_decide_eq_true hs rfl)
    hlistens.inPlace hlistens.unseen hmatch
  have hsent := Prog.ensures_of_always (R := Eq) (B := fun t' => SentGrows t.registry t'.registry)
    (Prog.always_true ((RelayCall.code sdk services
      (.distributeEvent h.event h.request.scope)).guarded h.admits))
    (fun _ _ heq hs => heq ▸ hs) (((every_code sdk services _).guarded _).mono
      fun _ _ hr hs => hs.trans hr) (.refl _)
  have hzoom : (onRegistry (distributeEventIndexed sdk h.event h.request.scope)).guarded h.admits =
      (onRegistry ((distributeEventIndexed sdk h.event h.request.scope).guarded h.admitsOn) :
        Prog RelayLock (RelayState Δ) PUnit) := guarded_onRegistry _
  have hcode : ((RelayCall.code sdk services (.distributeEvent h.event h.request.scope)).guarded
      h.admits).Ensures (fun _ => True) Eq (fun _ _ => True) (fun _ t' =>
        h.request.receiver.received sdk h.event t'.registry =
          h.request.receiver.received sdk h.event t.registry + 1) t := by
    rw [RelayCall.code, Prog.bind_eq, Prog.guarded_bind, hzoom]
    refine Prog.Ensures.bind (fun _ => rfl)
      (ensures_onRegistry hdelivers fun _ _ heq => congrArg RelayState.registry heq) trivial ?_
    rintro _ t' - hreceived _ rfl -
    exact hreceived
  exact (hcode.and hsent).conseq (fun _ _ heq => ⟨heq, heq⟩) (fun _ _ _ _ => trivial)
    fun _ _ _ ⟨hreceived, _, hs'⟩ => enqueued_of_received hs hs' hreceived

/-- **An event that is distributed when the REQ has returned** is enqueued as a live event. -/
theorem enqueued_of_registeredFirst (laws : MatchLaws sdk.matchEvent)
    (hready : h.request.Ready t.registry)
    (hmatch : ∃ f ∈ h.request.filters, sdk.matchEvent f h.event = true)
    {c : Config HandoverOp RelayLock (RelayState Δ) (Except Error Unit)}
    (hrun : Run (fun _ => h.code sdk services) h.registeredFirst (Config.initial t) c) {i j : ℕ}
    (hi : c.Returned i .req (.ok ())) (hj : c.Returned j .save (.ok ())) :
    h.Enqueued t.registry c.state.registry := by
  have hguarded : Run (fun _ op => (h.code sdk services op).guarded h.admits)
      (succession (· = .req) (· = .registry .indexes)) (Config.initial t)
      (c.guarded h.admits) :=
    hrun.guarded (fun c i l hok ⟨call, hcall, hlabel⟩ => hok.1 call hcall l hlabel)
      fun c m hok => succession_guarded hok.2
  have hboth := succession_run (T := fun t t' => OnlySends t.registry t'.registry)
    (P := fun t' => h.request.Ready t'.registry ∧ SentGrows t.registry t'.registry)
    (Q := h.Registered t.registry) (E := (· ≠ .ok ()))
    (U := fun a b t' => a = .ok () → b = .ok () → h.Enqueued t.registry t'.registry)
    (fun _ => .refl _) (fun _ _ _ => OnlySends.trans)
    (fun _ _ hr hpre => ⟨hpre.1.onlyChannels hr.toOnlyChannels, hpre.2.trans hr.sent⟩)
    (fun _ op hop t' hpre => ?_) (fun _ op hop => ?_) ⟨hready, .refl _⟩ hguarded hi.guarded rfl
    hj.guarded (by simp)
  · exact (hboth.resolve_left fun hne => hne rfl) rfl rfl
  · subst hop
    exact (registers_handleReq hpre.1 hpre.2).guarded h.admits
  · cases op with
    | req => exact absurd rfl hop
    | save =>
      refine until_save fun a t' hregistered => ?_
      by_cases hok : a = .ok ()
      · obtain ⟨hs, hlistens⟩ := hregistered hok
        refine Prog.Ensures.bind (fun _ => rfl) (enqueues_distributeEvent laws hmatch hs hlistens)
          trivial ?_
        rintro _ t'' - henqueued _ rfl - - -
        exact henqueued
      · have hevery := (every_code sdk services (.distributeEvent h.event h.request.scope)).guarded
          h.admits
        exact ((hevery.bind fun _ => Prog.every_done _).ensures (fun _ _ _ _ => trivial) t').conseq
          (fun _ _ heq => heq) (fun _ _ _ _ => trivial) fun _ _ _ _ hok' => absurd hok' hok

/-- **Either way the event gets there.** A REQ is handled while somebody saves an event that matches
it. The store has the event when the REQ starts, and can answer with it, or the REQ has returned
when the event is distributed. In both cases pushes into the channel find room. When both calls have
succeeded, the event was put into the channel for the subscription. -/
theorem handed_over {contents : Δ → Scope → EventStore} {context : EventContext}
    {visible : Event → Bool} (laws : MatchLaws sdk.matchEvent) (hwindow : WindowLaws sdk.matchEvent)
    (hlaws : StoreLaws sdk services contents context visible)
    (hready : h.request.Ready t.registry)
    (hmatch : ∃ f ∈ h.request.filters, sdk.matchEvent f h.event = true)
    {c : Config HandoverOp RelayLock (RelayState Δ) (Except Error Unit)}
    (hrun : Run (fun _ => h.code sdk services) (h.storedFirst sdk contents visible)
        (Config.initial t) c ∨
      Run (fun _ => h.code sdk services) h.registeredFirst (Config.initial t) c) {i j : ℕ}
    (hi : c.Returned i .req (.ok ())) (hj : c.Returned j .save (.ok ())) :
    h.Enqueued t.registry c.state.registry := by
  obtain hrun | hrun := hrun
  · exact enqueued_of_storedFirst hwindow hlaws hrun hi
  · exact enqueued_of_registeredFirst laws hready hmatch hrun hi hj

end Handover

/-! ### A note -/

/-- A note of the second nine. -/
def lateNote : Event := { Event.note 1 with createdAt := 9 }

/-- A store that has the note, or does not have it yet. -/
def noteStore : Bool → EventStore
  | true => ⟨[lateNote], List.pairwise_singleton .., List.nodup_singleton _⟩
  | false => ⟨[], .nil, List.nodup_nil⟩

/-- The services around the store. Everybody may see the note. -/
def noteServices : Services Bool
  | .query filter _, saved => (.ok ((noteStore saved).query Filter.matchEvent filter), saved)
  | .extend all events, saved => (extendEvents all events, saved)
  | .saveEvent event scope, _ => ((RelayCall.saveEvent event scope).succeed, true)
  | call, saved => (call.succeed, saved)

theorem noteServices_laws : StoreLaws .sample noteServices (fun saved _ => noteStore saved)
    ⟨none, .default, 0⟩ fun _ => true where
  query _ _ _ := rfl
  extend events _ := collects_extendEvents .nil events
  eventContext _ := rfl
  canSeeEvent _ _ := rfl
  reads call saved h := by
    cases call with
    | saveEvent => exact h.elim
    | _ => rfl
  saved event scope saved h := by
    cases saved with
    | false => cases h
    | true => rfl

namespace Handover

/-- Alice's REQ for her feed, and a note. -/
def feedNote : Handover := ⟨Request.feedReq, lateNote, .nip01, none⟩

/-- Alice has connected, and the note is not there yet. -/
def beforeNote : RelayState Bool := ⟨Request.aliceConnected.registry, false⟩

theorem feedNote_ready : feedNote.request.Ready beforeNote.registry := by
  have hnew := settled_new none unread
  have hs := hnew.register "alice" ⟨0, 0⟩ none .default
  refine Request.ready_of_agree ⟨⟨_, rfl, rfl, rfl⟩, Request.aliceConnected_fresh.wired.alone⟩ hs
    fun scope κ => ?_
  have hnone : beforeNote.registry.stored (scope, κ) = none := by
    rw [SubscriptionRegistry.stored, beforeNote, Request.aliceConnected,
      connection?_register hnew.wellFormed]
    split
    · rw [Option.bind_some]
      split <;> rfl
    · rfl
  rw [hnone]
  exact (hs.live scope).entry κ

/-- The search of somebody who asks when the note is stored. -/
def noteSearch : Search := ⟨noteStore true, Filter.matchEvent, fun _ => true, 500⟩

/-- The second page is asked for up to the second eight. -/
def secondPage : PageState := ⟨some 8, ⟨[1], 1, some 9⟩⟩

theorem feedNote_answerable :
    feedNote.Answerable .sample (fun _ => true) (noteStore true) := by
  have hfirst : noteSearch.next (Filter.kind 1) ⟨none, ⟨[], 0, none⟩⟩ = some secondPage := rfl
  have hsecond : noteSearch.next (Filter.kind 1) secondPage = none := rfl
  refine ⟨Search.notCapped_singleton.mpr (Search.endsWithin_of_next (n := 49) hfirst
    (Search.endsWithin_of_last (n := 48) hsecond)),
    Search.completePages_singleton.mpr fun st hst => ?_, ⟨_, List.mem_singleton_self _, by decide⟩⟩
  obtain rfl | ⟨st', hnext, hst⟩ := Search.mem_states_succ (n := 49).mp hst
  · refine ⟨fun st' _ e he _ hanswer => absurd ?_ hanswer, fun hfull => absurd hfull (by decide)⟩
    obtain rfl := List.mem_singleton.mp he
    decide
  · obtain rfl := Option.some.inj (hfirst.symm.trans hnext)
    obtain rfl | ⟨st', hnext, -⟩ := Search.mem_states_succ (n := 48).mp hst
    · refine ⟨fun st' hnext => ?_, fun hfull => absurd hfull (by decide)⟩
      cases hsecond.symm.trans hnext
    · cases hsecond.symm.trans hnext

/-- The REQ starts when the note is stored. -/
def startsStored (c : Config HandoverOp RelayLock (RelayState Bool) (Except Error Unit)) :
    Move HandoverOp → Prop
  | .start .req => c.state.rest = true
  | _ => True

instance (c : Config HandoverOp RelayLock (RelayState Bool) (Except Error Unit))
    (m : Move HandoverOp) : Decidable (startsStored c m) :=
  match m with
  | .start .req => inferInstanceAs (Decidable (c.state.rest = true))
  | .start .save => inferInstanceAs (Decidable True)
  | .step _ => inferInstanceAs (Decidable True)

theorem storedFirst_of_startsStored
    {c : Config HandoverOp RelayLock (RelayState Bool) (Except Error Unit)} {m : Move HandoverOp}
    (h : feedNote.roomy c m ∧ startsStored c m) :
    feedNote.storedFirst .sample (fun saved _ => noteStore saved) (fun _ => true) c m := by
  refine ⟨h.1, ?_⟩
  rintro rfl
  have hstored : c.state.rest = true := h.2
  rw [hstored]
  exact feedNote_answerable

/-- The note is stored, and distributed while the REQ is handled. -/
def distributedBetween : List (Move HandoverOp) :=
  callAlone .save 0 2 ++ callAlone .req 1 4 ++ [.step 0] ++ List.replicate 18 (.step 1)

/-- The note is stored while the REQ is handled, and distributed afterwards. -/
def storedBetween : List (Move HandoverOp) :=
  callAlone .req 0 4 ++ callAlone .save 1 2 ++ List.replicate 12 (.step 0) ++
    List.replicate 12 (.step 1)

theorem feedNote_handed_over :
    (∃ c ∈ (Config.initial beforeNote).play (fun _ => feedNote.code .sample noteServices)
      (fun c m => feedNote.roomy c m ∧ startsStored c m) distributedBetween,
      feedNote.Enqueued beforeNote.registry c.state.registry) ∧
    ∃ c ∈ (Config.initial beforeNote).play (fun _ => feedNote.code .sample noteServices)
      feedNote.registeredFirst storedBetween,
      feedNote.Enqueued beforeNote.registry c.state.registry := by
  have hstored : ∃ c ∈ (Config.initial beforeNote).play
      (fun _ => feedNote.code .sample noteServices)
      (fun c m => feedNote.roomy c m ∧ startsStored c m) distributedBetween,
      c.Returned 1 .req (.ok ()) ∧ c.Returned 0 .save (.ok ()) := by decide +kernel
  have hregistered : ∃ c ∈ (Config.initial beforeNote).play
      (fun _ => feedNote.code .sample noteServices) feedNote.registeredFirst storedBetween,
      c.Returned 0 .req (.ok ()) ∧ c.Returned 1 .save (.ok ()) := by decide +kernel
  obtain ⟨c, hplay, hreq, hsave⟩ := hstored
  obtain ⟨c', hplay', hreq', hsave'⟩ := hregistered
  have hmatch : ∃ f ∈ feedNote.request.filters, Sdk.sample.matchEvent f feedNote.event = true :=
    ⟨_, List.mem_singleton_self _, by decide⟩
  exact ⟨⟨c, hplay, handed_over Filter.matchEvent_laws windowLaws_matchEvent noteServices_laws
      feedNote_ready hmatch (.inl ((Config.run_of_play hplay).mono fun _ _ =>
        storedFirst_of_startsStored)) hreq hsave⟩,
    ⟨c', hplay', handed_over Filter.matchEvent_laws windowLaws_matchEvent noteServices_laws
      feedNote_ready hmatch (.inr (Config.run_of_play hplay')) hreq' hsave'⟩⟩

/-- The whole note is saved between the query and the subscription. -/
def savedBetween : List (Move HandoverOp) :=
  callAlone .req 0 4 ++ callAlone .save 1 3 ++ List.replicate 12 (.step 0)

/-- The note is neither among the stored events nor is it sent as a new one, though there is room
and no limit keeps it back. -/
theorem note_lost_between : ∃ c ∈ (Config.initial beforeNote).play
      (fun _ => feedNote.code .sample noteServices) feedNote.roomy savedBetween,
    c.Returned 0 .req (.ok ()) ∧ c.Returned 1 .save (.ok ()) ∧
    feedNote.request.Ready beforeNote.registry ∧
    StoreLaws .sample noteServices (fun saved _ => noteStore saved) ⟨none, .default, 0⟩
      (fun _ => true) ∧
    feedNote.Answerable .sample (fun _ => true) (noteStore c.state.rest) ∧
    ¬ feedNote.Enqueued beforeNote.registry c.state.registry := by
  have hlost : ∃ c ∈ (Config.initial beforeNote).play
      (fun _ => feedNote.code .sample noteServices) feedNote.roomy savedBetween,
      c.Returned 0 .req (.ok ()) ∧ c.Returned 1 .save (.ok ()) ∧ c.state.rest = true ∧
      (c.state.registry.channels 0).sent = [⟨.endOfStoredEvents "feed", 0, none⟩] := by
    decide +kernel
  obtain ⟨c, hplay, hreq, hsave, hstored, hsent⟩ := hlost
  refine ⟨c, hplay, hreq, hsave, feedNote_ready, noteServices_laws, ?_, ?_⟩
  · rw [hstored]
    exact feedNote_answerable
  · rintro ⟨new, hnew, packet, hpacket, hmessage⟩
    have heq : new = [⟨.endOfStoredEvents "feed", 0, none⟩] := hnew.symm.trans hsent
    rw [heq, List.mem_singleton] at hpacket
    subst hpacket
    cases hmessage

end Handover

end RelayBuilder
