import RelayBuilder.RegistryRuns

/-!
# Slow and dead receivers

`distribute_event` sends to one connection after another with `try_send`. A connection whose channel
is full or disconnected is noted down, and cleaned up after all others were served. What it leaves
is described for any state of the channels: which packets a channel takes depends on that channel
alone, only the connections with a failed send are removed, and all that belongs to the others stays
as it was.

An index remembers the last event that each filter and each group has seen, so an event that is
distributed twice in a row is not sent again.

## Main definitions

* `Channel.room` and `Channel.sendAll`: what a channel takes
* `matchingIn`, `packetsFor` and `FailedSend`: what a distribution sends, and where it fails
* `ReturnsMatching` and `Distributed`: the effect of a distribution

## Main results

* `distributeEventIndexed_distributed`: the effect, from any settled state
* `distributeEvent_spares_others`: the same after any calls one after another
-/

namespace RelayBuilder

open Interleave

/-! ### Channels -/

namespace Channel

/-- How many packets the channel takes as long as nobody reads: none if it is disconnected. -/
def room (ch : Channel) : ℕ :=
  if ch.connected = true ∧ 0 < ch.capacity then ch.capacity + ch.received - ch.sent.length else 0

/-- The packets are sent one after another: those that there is room for get in. -/
def sendAll (ch : Channel) (packets : List Packet) : Channel :=
  { ch with sent := ch.sent ++ packets.take ch.room }

theorem sendAll_nil (ch : Channel) : ch.sendAll [] = ch := by
  rw [sendAll, List.take_nil, List.append_nil]

theorem room_pos {ch : Channel} (h : 0 < ch.room) : ch.connected = true ∧ 0 < ch.capacity ∧
    ch.room = ch.capacity + ch.received - ch.sent.length := by
  rw [room] at h
  split at h
  · next hopen => exact ⟨hopen.1, hopen.2, if_pos hopen⟩
  · exact absurd h (lt_irrefl 0)

/-- One more packet gets in. -/
theorem trySend_sendAll_of_lt {ch : Channel} {packets : List Packet} (packet : Packet)
    (h : packets.length < ch.room) :
    (ch.sendAll packets).trySend packet = .ok (ch.sendAll (packets ++ [packet])) := by
  obtain ⟨hconnected, hcapacity, hroom⟩ := room_pos (Nat.zero_lt_of_lt h)
  have htake : packets.take ch.room = packets := List.take_of_length_le (le_of_lt h)
  have htake' : (packets ++ [packet]).take ch.room = packets ++ [packet] :=
    List.take_of_length_le (by rw [List.length_append, List.length_singleton]; exact h)
  have hhasRoom : (ch.sendAll packets).HasRoom := by
    refine ⟨hconnected, ?_⟩
    rw [sendAll, htake, List.length_append]
    dsimp only
    omega
  rw [trySend_of_hasRoom hhasRoom, sendAll, sendAll, htake, htake', List.append_assoc]

/-- One packet too many is refused, and changes nothing. -/
theorem trySend_sendAll_of_le {ch : Channel} {packets : List Packet} (packet : Packet)
    (h : ch.room ≤ packets.length) :
    (∃ e, (ch.sendAll packets).trySend packet = .error e) ∧
      ch.sendAll (packets ++ [packet]) = ch.sendAll packets := by
  refine ⟨?_, by rw [sendAll, sendAll, List.take_append_of_le_length h]⟩
  rw [trySend]
  split
  · exact ⟨_, rfl⟩
  · next hconnected =>
    refine ⟨.full, if_neg ?_⟩
    have hopen : ch.connected = true := by simpa [sendAll] using hconnected
    rw [sendAll, List.length_append, List.length_take_of_le h]
    dsimp only
    rw [room]
    split
    · omega
    · next hclosed =>
      have hcapacity : ¬ 0 < ch.capacity := fun h => hclosed ⟨hopen, h⟩
      omega

end Channel

namespace SubscriptionRegistry

variable {sdk : Sdk} {event : Event} {scope : Scope} {H : ScopedKey → Option (List Filter)}
  {s s' s'' : SubscriptionRegistry} {matching before : List Key} {κ : Key} {id : ConnectionId}
  {dead gone : List ConnectionId}

/-! ### What is sent -/

/-- What the index of the scope returns for the event. -/
def matchingIn (sdk : Sdk) (event : Event) (scope : Scope) (s : SubscriptionRegistry) : List Key :=
  (((SubscriptionIndex.distributeEvent sdk.matchEvent event).run (s.indexOf scope)).map
    (·.value)).getD []

/-- The EVENT message for a subscription, if the connection sends to the channel. -/
def packetFor (sdk : Sdk) (event : Event) (s : SubscriptionRegistry) (ref : ChannelRef) (κ : Key) :
    Option Packet :=
  match s.connection? κ.1 with
  | none => none
  | some data =>
    if data.sender.channel = ref then
      some (data.sender.packetWithJson (.event κ.2 event) (eventJson κ.2 (sdk.asJson event)))
    else none

/-- What is sent to a channel: one EVENT message for each of the subscriptions. -/
def packetsFor (sdk : Sdk) (event : Event) (s : SubscriptionRegistry) (matching : List Key)
    (ref : ChannelRef) : List Packet :=
  matching.filterMap (packetFor sdk event s ref)

/-- A send to the connection fails: its channel has no room left when it comes to one of the
subscriptions of the connection. -/
def FailedSend (sdk : Sdk) (event : Event) (s : SubscriptionRegistry) (matching : List Key)
    (id : ConnectionId) : Prop :=
  ∃ before sub after data, matching = before ++ (id, sub) :: after ∧ s.connection? id = some data ∧
    (s.channels data.sender.channel).room ≤
      (packetsFor sdk event s before data.sender.channel).length

theorem not_failedSend_nil : ¬ FailedSend sdk event s [] id := by
  rintro ⟨before, sub, after, data, h, -⟩
  exact List.append_ne_nil_of_right_ne_nil before (List.cons_ne_nil _ _) h.symm

theorem failedSend_concat : FailedSend sdk event s (matching ++ [κ]) id ↔
    FailedSend sdk event s matching id ∨ κ.1 = id ∧ ∃ data, s.connection? id = some data ∧
      (s.channels data.sender.channel).room ≤
        (packetsFor sdk event s matching data.sender.channel).length := by
  refine ⟨fun ⟨before, sub, after, data, h, hdata, hroom⟩ => ?_, ?_⟩
  · obtain rfl | ⟨after, last, rfl⟩ := after.eq_nil_or_concat
    · obtain ⟨rfl, hlast⟩ := List.append_inj' h rfl
      exact .inr ⟨by rw [List.singleton_inj.mp hlast], data, hdata, hroom⟩
    · rw [List.concat_eq_append, ← List.cons_append, ← List.append_assoc] at h
      exact .inl ⟨before, sub, after, data, (List.append_inj' h rfl).1, hdata, hroom⟩
  · rintro (⟨before, sub, after, data, rfl, h⟩ | ⟨rfl, data, h⟩)
    · exact ⟨before, sub, after ++ [κ], data, by simp, h⟩
    · exact ⟨matching, κ.2, [], data, rfl, h⟩

/-- The subscriptions were served, and the connections with a failed send are noted down. -/
structure Delivered (sdk : Sdk) (event : Event) (s : SubscriptionRegistry) (served : List Key)
    (dead : List ConnectionId) (s' : SubscriptionRegistry) : Prop extends OnlyChannels s s' where
  channels : ∀ ref, s'.channels ref =
    (s.channels ref).sendAll (packetsFor sdk event s served ref)
  dead : ∀ id, id ∈ dead ↔ FailedSend sdk event s served id

theorem delivered_nil : Delivered sdk event s [] [] s :=
  ⟨⟨.refl s, rfl⟩, fun _ => (Channel.sendAll_nil _).symm,
    fun _ => iff_of_false List.not_mem_nil not_failedSend_nil⟩

/-- One more subscription is served. -/
theorem Delivered.deliver {served : List Key} (h : Delivered sdk event s served dead s') (κ : Key) :
    Delivered sdk event s (served ++ [κ])
      (if (deliver sdk event κ s').1 then dead ++ [κ.1] else dead) (deliver sdk event κ s').2 := by
  have hconnection := h.connection? κ.1
  have honly := h.toOnlyChannels.trans (deliver_onlyChannels sdk event κ s')
  cases hdata : s.connection? κ.1 with
  | none =>
    have hdeliver : SubscriptionRegistry.deliver sdk event κ s' = (false, s') := by
      rw [SubscriptionRegistry.deliver, hconnection, hdata]
    rw [hdeliver] at honly ⊢
    refine ⟨honly, fun ref => ?_, fun id => (h.dead id).trans (failedSend_concat.trans ?_).symm⟩
    · rw [h.channels ref, packetsFor, packetsFor, List.filterMap_append]
      simp [packetFor, hdata]
    · refine or_iff_left ?_
      rintro ⟨rfl, data, h, -⟩
      rw [hdata] at h
      cases h
  | some data =>
    set packet := data.sender.packetWithJson (.event κ.2 event) (eventJson κ.2 (sdk.asJson event))
      with hpacket
    have hpackets : ∀ ref, packetsFor sdk event s (served ++ [κ]) ref =
        packetsFor sdk event s served ref ++
          if data.sender.channel = ref then [packet] else [] := by
      intro ref
      rw [packetsFor, packetsFor, List.filterMap_append]
      by_cases href : data.sender.channel = ref <;> simp [packetFor, hdata, href, hpacket]
    by_cases hroom : (packetsFor sdk event s served data.sender.channel).length <
        (s.channels data.sender.channel).room
    · have hdeliver : SubscriptionRegistry.deliver sdk event κ s' =
          (false, s'.setChannel data.sender.channel ((s.channels data.sender.channel).sendAll
            (packetsFor sdk event s served data.sender.channel ++ [packet]))) := by
        rw [SubscriptionRegistry.deliver, hconnection, hdata]
        dsimp only
        rw [h.channels, Channel.trySend_sendAll_of_lt _ hroom]
      rw [hdeliver] at honly ⊢
      refine ⟨honly, fun ref => ?_, fun id => (h.dead id).trans (failedSend_concat.trans ?_).symm⟩
      · rw [hpackets, setChannel]
        by_cases href : ref = data.sender.channel
        · subst href
          simp
        · simp [href, Ne.symm href, h.channels]
      · refine or_iff_left ?_
        rintro ⟨rfl, data', hdata', hfull⟩
        rw [hdata] at hdata'
        cases hdata'
        exact absurd hroom (not_lt.mpr hfull)
    · obtain ⟨⟨e, he⟩, hsame⟩ := Channel.trySend_sendAll_of_le packet (not_lt.mp hroom)
      have hdeliver : SubscriptionRegistry.deliver sdk event κ s' = (true, s') := by
        rw [SubscriptionRegistry.deliver, hconnection, hdata]
        dsimp only
        rw [h.channels, he]
      rw [hdeliver] at honly ⊢
      refine ⟨honly, fun ref => ?_, fun id => ?_⟩
      · rw [hpackets, h.channels]
        by_cases href : data.sender.channel = ref
        · subst href
          rw [if_pos rfl, hsame]
        · rw [if_neg href, List.append_nil]
      · rw [if_pos rfl, List.mem_append, h.dead id, List.mem_singleton, failedSend_concat]
        refine or_congr_right ⟨?_, fun hid => hid.1.symm⟩
        rintro rfl
        exact ⟨rfl, data, hdata, not_lt.mp hroom⟩

theorem deliverAll_delivered (matching : List Key) :
    (deliverAll sdk event matching).Alone (fun _ _ => True)
      (fun dead s' => Delivered sdk event s matching dead s') s := by
  refine Prog.Alone.post (Prog.Alone.foldlM (J := fun rest dead s' => ∃ served,
    served ++ rest = matching ∧ Delivered sdk event s served dead s')
    (fun κ rest dead s₁ ⟨served, hserved, h⟩ => ?_) ⟨[], rfl, delivered_nil⟩)
    fun dead s' ⟨served, hserved, h⟩ => ?_
  · exact Prog.Alone.bind (M := fun isDead s₂ => Delivered sdk event s (served ++ [κ])
      (if isDead then dead ++ [κ.1] else dead) s₂) (Prog.Alone.atomic trivial (h.deliver κ))
      fun isDead s₂ h₂ => ⟨served ++ [κ], by rw [List.append_assoc]; exact hserved, h₂⟩
  · rw [List.append_nil] at hserved
    exact hserved ▸ h

/-! ### What is removed -/

/-- These connections are gone, with their subscriptions, and nothing else has changed. -/
structure CleanedUp (H : ScopedKey → Option (List Filter)) (s : SubscriptionRegistry)
    (gone : List ConnectionId) (s' : SubscriptionRegistry) : Prop where
  connections : ∀ id, s'.connections.lookup id =
    if id ∈ gone then none else s.connections.lookup id
  conns : s'.conns = s.conns
  indexes : ∃ H', Settled H' s' ∧ (∀ k : ScopedKey, k.2.1 ∉ gone → H' k = H k) ∧
    ∀ id ∈ gone, ∀ data, s.connection? id = some data → ∀ sub ∈ data.subscriptions.keys,
      H' (data.subdomain, id, sub) = none

theorem CleanedUp.connection? (h : CleanedUp H s gone s') (hid : id ∉ gone) :
    s'.connection? id = s.connection? id := by
  rw [SubscriptionRegistry.connection?, SubscriptionRegistry.connection?, h.connections,
    if_neg hid, h.conns]

theorem cleared_of_ne {k : ScopedKey} (hk : k.2.1 ≠ id) : cleared H s id k = H k := by
  cases hdata : s.connection? id with
  | none => simp only [cleared, hdata]
  | some data =>
    simp only [cleared, hdata]
    refine if_neg ?_
    rintro ⟨-, hkey⟩
    obtain ⟨sub, -, heq⟩ := List.mem_map.mp hkey
    exact hk (congrArg Prod.fst heq).symm

theorem cleared_of_none {k : ScopedKey} (hk : H k = none) : cleared H s id k = none := by
  cases hdata : s.connection? id with
  | none => simpa only [cleared, hdata] using hk
  | some data => simp only [cleared, hdata, clearing, hk, ite_self]

/-- The cleanup of one more connection, which may be gone already. -/
theorem CleanedUp.cleanupConnection (h : CleanedUp H s gone s') (order : HashOrder)
    (id : ConnectionId) :
    (cleanupConnection order id).Alone SameChannels
      (fun _ s'' => CleanedUp H s (gone ++ [id]) s'') s' := by
  obtain ⟨H', hsettled, hsame, hgone⟩ := h.indexes
  refine (cleanupConnection_alone hsettled.live hsettled.idle order id).post
    fun _ s'' ⟨hremoved, hlive⟩ => ⟨fun id' => ?_, hremoved.conns.trans h.conns,
      cleared H' s' id, hsettled.removed hremoved hlive, fun k hk => ?_,
      fun id' hid' data hdata sub hsub => ?_⟩
  · rw [hremoved.connections]
    by_cases hid : id' = id
    · subst hid
      rw [AList.lookup_erase, if_pos (List.mem_append_right _ (List.mem_singleton_self _))]
    · rw [AList.lookup_erase_ne hid, h.connections]
      simp [hid]
  · rw [List.mem_append, List.mem_singleton, not_or] at hk
    rw [cleared_of_ne hk.2, hsame k hk.1]
  · rw [List.mem_append, List.mem_singleton] at hid'
    by_cases hin : id' ∈ gone
    · exact cleared_of_none (hgone id' hin data hdata sub hsub)
    · obtain rfl := hid'.resolve_left hin
      simp only [cleared, h.connection? hin, hdata]
      exact if_pos ⟨rfl, List.mem_map_of_mem hsub⟩

/-- Cleaning up one connection after another. -/
theorem cleanupAll_cleanedUp (order : HashOrder) (hs : Settled H s) (dead : List ConnectionId) :
    (dead.forM (cleanupConnection order)).Alone SameChannels
      (fun _ s' => CleanedUp H s dead s') s := by
  refine Prog.Alone.post (Prog.Alone.forM (J := fun rest s' => ∃ gone, gone ++ rest = dead ∧
    CleanedUp H s gone s') (fun id rest s₁ ⟨gone, hgone, h⟩ => ?_) ⟨[], rfl, ?_⟩)
    fun _ s' ⟨gone, hgone, h⟩ => ?_
  · exact (h.cleanupConnection order id).post fun _ s₂ h₂ =>
      ⟨gone ++ [id], by rw [List.append_assoc]; exact hgone, h₂⟩
  · exact ⟨fun _ => (if_neg List.not_mem_nil).symm, rfl, H, hs, fun _ _ => rfl, nofun⟩
  · rw [List.append_nil] at hgone
    exact hgone ▸ h

/-! ### One distribution -/

/-- The index returns each subscription at most once and only if one of its filters matches, and it
returns each that has such a filter, unless the event is the last one that it has seen. -/
structure ReturnsMatching (sdk : Sdk) (event : Event) (scope : Scope)
    (H : ScopedKey → Option (List Filter)) (s : SubscriptionRegistry) : Prop where
  nodup : (matchingIn sdk event scope s).Nodup
  sound : ∀ κ ∈ matchingIn sdk event scope s,
    ∃ f ∈ (H (scope, κ)).getD [], sdk.matchEvent f event = true
  complete : ∀ κ, (s.indexOf scope).Unseen κ event.id →
    (∃ f ∈ (H (scope, κ)).getD [], sdk.matchEvent f event = true) →
    κ ∈ matchingIn sdk event scope s

/-- What a distribution leaves: every channel has been sent its EVENT messages, whatever became of
the other channels, and the connections with a failed send are removed, with their subscriptions
and what the index of their scope held for these. All other connections are registered as before,
and the indexes hold the same filters for them. -/
structure Distributed (sdk : Sdk) (event : Event) (scope : Scope)
    (H : ScopedKey → Option (List Filter)) (s s' : SubscriptionRegistry) : Prop where
  channels : ∀ ref, s'.channels ref =
    (s.channels ref).sendAll (packetsFor sdk event s (matchingIn sdk event scope s) ref)
  removed : ∀ id, FailedSend sdk event s (matchingIn sdk event scope s) id →
    s'.connections.lookup id = none
  kept : ∀ id, ¬ FailedSend sdk event s (matchingIn sdk event scope s) id →
    s'.connections.lookup id = s.connections.lookup id
  conns : s'.conns = s.conns
  indexes : ∃ H', Live H' s' ∧
    (∀ k : ScopedKey, ¬ FailedSend sdk event s (matchingIn sdk event scope s) k.2.1 →
      H' k = H k) ∧
    ∀ id, FailedSend sdk event s (matchingIn sdk event scope s) id →
      ∀ data, s.connection? id = some data → ∀ sub ∈ data.subscriptions.keys,
        H' (data.subdomain, id, sub) = none

theorem returnsMatching (laws : MatchLaws sdk.matchEvent) (hlive : Live H s) (event : Event)
    (scope : Scope) : ReturnsMatching sdk event scope H s := by
  have halone := ((hlive scope).distributeEvent_alone sdk.matchEvent event)
  obtain ⟨o, ho, hvalue⟩ := halone.run
  have hmatching : matchingIn sdk event scope s = o.value := by rw [matchingIn, ho]; rfl
  refine ⟨hmatching ▸ hvalue.2.1, hmatching ▸ hvalue.2.2, fun κ hunseen hmatch => ?_⟩
  obtain ⟨o', ho', hκ⟩ :=
    ((hlive scope).distributeEvent_complete_alone laws hunseen hmatch).run
  rw [hmatching, ← Option.some.inj (ho'.symm.trans ho)]
  exact hκ

theorem packetsFor_congr (hs : SameConnections s s') (matching : List Key) (ref : ChannelRef) :
    packetsFor sdk event s' matching ref = packetsFor sdk event s matching ref := by
  refine List.filterMap_congr fun κ _ => ?_
  rw [packetFor, packetFor, hs.connection?]

theorem failedSend_congr (hs : SameConnections s s') (hchannels : SameChannels s s') :
    FailedSend sdk event s' matching id ↔ FailedSend sdk event s matching id := by
  simp only [FailedSend, packetsFor_congr hs, hs.connection?, show s'.channels = s.channels from
    hchannels]

/-- **What `distribute_event` leaves**, from any settled state and any state of the channels. -/
theorem distributeEventIndexed_distributed (hs : Settled H s) (event : Event) (scope : Scope) :
    (distributeEventIndexed sdk event scope).Alone (fun _ _ => True)
      (fun _ s' => Distributed sdk event scope H s s' ∧ ∃ H', Settled H' s') s := by
  rw [distributeEventIndexed]
  refine Prog.Alone.bind (alone_read.conseq (fun _ _ _ => trivial) fun _ _ h => h) ?_
  rintro _ _ ⟨rfl, rfl⟩
  have hmatching : ∀ {r}, ((SubscriptionIndex.distributeEvent sdk.matchEvent event).run
      (s.indexOf scope)).map (·.value) = some r → matchingIn sdk event scope s = r :=
    fun h => by rw [matchingIn, h]; rfl
  have hindexed := (hs.live scope).distributeEvent_alone sdk.matchEvent event
  split
  · refine Prog.Alone.bind (((alone_onIndex hindexed.value).track (T := SameChannels) (fun _ => rfl)
      (fun _ _ _ h h' => h'.trans h) fun _ _ h => h).conseq (fun _ _ _ => trivial)
      fun _ _ h => h) ?_
    rintro matching s₁ ⟨⟨⟨⟨hcontents, -, -⟩, hvalue⟩, honly⟩, hchannels₁⟩
    obtain rfl := hmatching hvalue
    have hsame₁ := honly.toSameConnections
    refine (deliverAll_delivered (matchingIn sdk event scope s)).bind fun dead s₂ h₂ => ?_
    have hsame₂ := hsame₁.trans h₂.toSameConnections
    have hdead : ∀ id, id ∈ dead ↔ FailedSend sdk event s (matchingIn sdk event scope s) id :=
      fun id => (h₂.dead id).trans (failedSend_congr hsame₁ hchannels₁)
    have hlive₁ : Live H s₁ := hs.live.onlyIndex honly hcontents fun _ _ _ => rfl
    have hs₂ : Settled H s₂ := hs.same hsame₂ (h₂.toOnlyChannels.live hlive₁)
    refine (((cleanupAll_cleanedUp sdk.order hs₂ dead).track (T := SameChannels) (fun _ => rfl)
      (fun _ _ _ h h' => h'.trans h) fun _ _ h => h).conseq (fun _ _ _ => trivial)
      fun _ _ h => h).post ?_
    rintro _ s₃ ⟨h₃, hchannels₃⟩
    obtain ⟨H', hsettled, hsame, hgone⟩ := h₃.indexes
    refine ⟨⟨fun ref => ?_, fun id hid => ?_, fun id hid => ?_, ?_, H', hsettled.live,
      fun k hk => hsame k ((hdead k.2.1).not.mpr hk), fun id hid data hdata sub hsub => ?_⟩,
      H', hsettled⟩
    · rw [show s₃.channels = s₂.channels from hchannels₃, h₂.channels,
        packetsFor_congr hsame₁, show s₁.channels = s.channels from hchannels₁]
    · rw [h₃.connections, if_pos ((hdead id).mpr hid)]
    · rw [h₃.connections, if_neg ((hdead id).not.mpr hid), hsame₂.connections]
    · exact h₃.conns.trans hsame₂.conns
    · exact hgone id ((hdead id).mpr hid) data (by rw [hsame₂.connection?, hdata]) sub hsub
  · next hnone =>
    -- without an index, nothing is held in the scope
    obtain ⟨o, ho, -, -, hsound⟩ := hindexed.run
    have hempty : matchingIn sdk event scope s = [] := by
      rw [matchingIn, ho]
      refine List.eq_nil_iff_forall_not_mem.mpr fun κ hκ => ?_
      obtain ⟨f, hf, -⟩ := hsound κ hκ
      obtain ⟨entry, hentry, rfl, -⟩ := hs.live.exists_filter (List.ne_nil_of_mem hf)
      exact hnone (Option.isSome_iff_exists.mpr ⟨_, AList.mem_lookup_iff.mpr hentry⟩)
    refine ⟨⟨fun ref => ?_, ?_, fun _ _ => rfl, rfl, H, hs.live, fun _ _ => rfl, ?_⟩, H, hs⟩
    · rw [hempty]
      exact (Channel.sendAll_nil _).symm
    · rw [hempty]
      exact fun id hid => absurd hid not_failedSend_nil
    · rw [hempty]
      exact fun id hid => absurd hid not_failedSend_nil

end SubscriptionRegistry

open SubscriptionRegistry

/-! ### After any calls -/

/-- Between calls that are made one after another, whatever they are, the registry is settled. -/
theorem settled_of_run {sdk : Sdk} {metricsHandler : Option SubscriptionMetrics}
    {channels : ChannelRef → Channel}
    {c : Config RegistryOp RegistryLock SubscriptionRegistry RegistryResult}
    (hrun : Run (fun _ => RegistryOp.code sdk) (oneByOne fun _ _ => True)
      (registryPool metricsHandler channels) c) (hquiet : c.Quiet) : ∃ H, Settled H c.state := by
  have hothers : KeptByOthers (fun _ _ => True) fun _ _ => True :=
    ⟨fun _ _ => trivial, fun _ _ _ => trivial, fun _ _ _ _ _ => trivial, fun _ _ _ _ => trivial,
      fun _ _ _ => trivial⟩
  refine (oneByOne_run (I := fun s => ∃ H, Settled H s) (G := fun _ _ _ => True)
    (fun _ op s ⟨H, hs⟩ _ => ?_) ⟨_, settled_new metricsHandler channels⟩ hrun).1 hquiet
  by_cases hop : ∀ event scope, op ≠ .distributeEvent event scope
  · exact (op.code_alone_others hothers hs trivial trivial hop).conseq (fun _ _ _ => trivial)
      fun _ _ ⟨H', hs', _⟩ => ⟨H', hs'⟩
  · obtain ⟨event, scope, rfl⟩ : ∃ event scope, op = .distributeEvent event scope := by
      simpa using hop
    exact (distributeEventIndexed_distributed hs event scope).bind fun _ _ h => h.2

/-- **Slow and dead receivers do not affect the others.** After any calls one after another, with
any state of the channels, `distribute_event` ends. With the indexes described by `H`, the index of
the scope returns the matching subscriptions, apart from those that have seen the event last, and
what is left is `Distributed`. -/
theorem distributeEvent_spares_others (sdk : Sdk) (laws : MatchLaws sdk.matchEvent)
    (metricsHandler : Option SubscriptionMetrics) (channels channels' : ChannelRef → Channel)
    {c : Config RegistryOp RegistryLock SubscriptionRegistry RegistryResult}
    (hrun : Run (fun _ => RegistryOp.code sdk) (oneByOne fun _ _ => True)
      (registryPool metricsHandler channels) c) (hquiet : c.Quiet) (event : Event) (scope : Scope) :
    ∃ H o, Live H c.state ∧ ReturnsMatching sdk event scope H c.state ∧
      (distributeEventIndexed sdk event scope).run { c.state with channels := channels' } = some o ∧
      Distributed sdk event scope H { c.state with channels := channels' } o.state := by
  obtain ⟨H, hs⟩ := settled_of_run hrun hquiet
  have hs' : Settled H { c.state with channels := channels' } :=
    hs.same ⟨rfl, rfl, rfl⟩ hs.live
  have halone : (distributeEventIndexed sdk event scope).Alone _ _ _ :=
    distributeEventIndexed_distributed hs' event scope
  obtain ⟨o, ho, hdistributed, -⟩ := halone.run
  exact ⟨H, o, hs.live, returnsMatching laws hs.live event scope, ho, hdistributed⟩

/-- Two subscribers of a scope, to distribute a note to. -/
def twoSubscribers : List (Move RegistryOp) :=
  [callAlone (registerAt "alice" 0 .default) 0 1,
    callAlone (.addSubscription "alice" "feed" [Filter.kind 1]) 1 10,
    callAlone (registerAt "bob" 1 .default) 2 1,
    callAlone (.addSubscription "bob" "feed" [Filter.kind 1]) 3 10].flatten

/-- The client of the first channel is gone. -/
def firstGone (ref : ChannelRef) : Channel :=
  if ref = 0 then (Channel.new 8).disconnect else Channel.new 8

theorem distributeEvent_spares_bob :
    ∃ c H o, (registryPool none unread).play (fun _ => RegistryOp.code .sample)
        (oneByOne fun _ _ => True) twoSubscribers = some c ∧
      (distributeEventIndexed .sample (Event.note 1) .default).run
        { c.state with channels := firstGone } = some o ∧
      Distributed .sample (Event.note 1) .default H { c.state with channels := firstGone } o.state ∧
      (o.state.connection? "alice").isNone ∧
      (o.state.channels 1).sent.map (·.message) = [.event "feed" (Event.note 1)] := by
  obtain ⟨c, o', hplay, hquiet, ho', halice, hbob⟩ : ∃ c o',
      (registryPool none unread).play (fun _ => RegistryOp.code .sample)
        (oneByOne fun _ _ => True) twoSubscribers = some c ∧
      decide c.Quiet = true ∧
      (distributeEventIndexed .sample (Event.note 1) .default).run
        { c.state with channels := firstGone } = some o' ∧
      (o'.state.connection? "alice").isNone ∧
      (o'.state.channels 1).sent.map (·.message) = [.event "feed" (Event.note 1)] :=
    ⟨_, _, rfl, rfl, rfl, rfl, rfl⟩
  obtain ⟨H, o, -, -, ho, hdistributed⟩ := distributeEvent_spares_others .sample
    Filter.matchEvent_laws none unread firstGone (Config.run_of_play hplay)
    (of_decide_eq_true hquiet) (Event.note 1) .default
  obtain rfl := Option.some.inj (ho.symm.trans ho')
  exact ⟨c, H, o, hplay, ho, hdistributed, halice, hbob⟩

/-- The same note twice: the second time it is not sent, although it matches and there is room. -/
theorem repeated_note_not_sent :
    ∃ c o, (registryPool none unread).play (fun _ => RegistryOp.code .sample)
        (oneByOne fun _ _ => True)
        [callAlone (registerAt "alice" 0 .default) 0 1,
          callAlone (.addSubscription "alice" "feed" [Filter.kind 1]) 1 10,
          callAlone (.distributeEvent (Event.note 1) .default) 2 12].flatten = some c ∧
      c.Quiet ∧ c.state.stored (.default, "alice", "feed") = some [Filter.kind 1] ∧
      Filter.matchEvent (Filter.kind 1) (Event.note 1) = true ∧
      (c.state.connection? "alice").map (·.sender.channel) = some 0 ∧
      (c.state.channels 0).HasRoom ∧
      (distributeEventIndexed .sample (Event.note 1) .default).run c.state = some o ∧
      (o.state.channels 0).sent = (c.state.channels 0).sent := by
  obtain ⟨c, o, hplay, hquiet, hstored, hchannel, hroom, ho, hsent⟩ : ∃ c o,
      (registryPool none unread).play (fun _ => RegistryOp.code .sample)
        (oneByOne fun _ _ => True)
        [callAlone (registerAt "alice" 0 .default) 0 1,
          callAlone (.addSubscription "alice" "feed" [Filter.kind 1]) 1 10,
          callAlone (.distributeEvent (Event.note 1) .default) 2 12].flatten = some c ∧
      decide c.Quiet = true ∧ c.state.stored (.default, "alice", "feed") = some [Filter.kind 1] ∧
      (c.state.connection? "alice").map (·.sender.channel) = some 0 ∧
      decide (c.state.channels 0).HasRoom = true ∧
      (distributeEventIndexed .sample (Event.note 1) .default).run c.state = some o ∧
      (o.state.channels 0).sent = (c.state.channels 0).sent :=
    ⟨_, _, rfl, rfl, rfl, rfl, rfl, rfl, rfl⟩
  exact ⟨c, o, hplay, of_decide_eq_true hquiet, hstored, by decide, hchannel,
    of_decide_eq_true hroom, ho, hsent⟩

end RelayBuilder
