import RelayBuilder.DeadConnections
import RelayBuilder.EventAnswers
import RelayBuilder.Pagination

/-!
# The size of a connection's channel

`calculate_channel_size` makes the channel of a connection large enough for the worst case, one
subscription that asks for `max_limit` events, and for some control messages: as many times as
there may be subscriptions. But a `max_subscriptions` of zero stands for no limit, and with it the
channel has no room at all; and the product may be larger than a `usize`.

Here nobody reads the channel, and nobody else sends to it. Then it takes messages as long as it
has room, and the pages of `process_historical_events` show how many there are.

## Main definitions

* `RelayConfig`, `RelayConfig.calculateChannelSize`
* `undrainedAnswers`: the channel answers, and nothing else happens to it
* `packetsTo`: what is offered to the channel
* `TakesOneAnswer`: the channel takes every answer to a REQ with one filter

## Main results

* `exec_undrained`: what an undrained channel holds after any script
* `runs_oneFilter`: what is offered for a REQ with one filter
* `takesOneAnswer_iff`
-/

namespace RelayBuilder

open Interleave Script

/-! ### The configuration -/

/-- The limits of `RelayConfig`. -/
structure RelayConfig where
  maxSubscriptions : ℕ
  maxLimit : ℕ
  deriving DecidableEq

/-- `+` of `usize`: nothing if it overflows. -/
def checkedAdd (a b : ℕ) : Option ℕ := if a + b < 2 ^ 64 then some (a + b) else none

/-- `*` of `usize`: nothing if it overflows. -/
def checkedMul (a b : ℕ) : Option ℕ := if a * b < 2 ^ 64 then some (a * b) else none

namespace RelayConfig

/-- `calculate_channel_size`: nothing if it overflows. -/
def calculateChannelSize (config : RelayConfig) : Option ℕ :=
  let overhead := 5
  (checkedAdd config.maxLimit overhead).bind fun limitBasedSize =>
    checkedMul config.maxSubscriptions limitBasedSize

/-- The limit of subscriptions that `build_with` hands to the connections. -/
def subscriptionLimit (config : RelayConfig) : Option ℕ :=
  if config.maxSubscriptions > 0 then some config.maxSubscriptions else none

/-- A product that does not overflow does so in no step, if there is a limit. -/
theorem calculateChannelSize_eq_some_iff {config : RelayConfig} {size : ℕ}
    (hpos : 0 < config.maxSubscriptions) : config.calculateChannelSize = some size ↔
      config.maxSubscriptions * (config.maxLimit + 5) < 2 ^ 64 ∧
        size = config.maxSubscriptions * (config.maxLimit + 5) := by
  have hle : config.maxLimit + 5 ≤ config.maxSubscriptions * (config.maxLimit + 5) :=
    Nat.le_mul_of_pos_left _ hpos
  rw [calculateChannelSize, checkedAdd]
  constructor
  · intro h
    split at h
    · rw [Option.bind_some, checkedMul] at h
      split at h
      · next hmul => exact ⟨hmul, (Option.some.inj h).symm⟩
      · cases h
    · cases h
  · rintro ⟨hmul, rfl⟩
    rw [if_pos (hle.trans_lt hmul), Option.bind_some, checkedMul, if_pos hmul]

/-- Without a limit of subscriptions, the channel has no room. -/
theorem size_of_subscriptionLimit_eq_none {config : RelayConfig} {size : ℕ}
    (hlimit : config.subscriptionLimit = none) (h : config.calculateChannelSize = some size) :
    size = 0 := by
  have hzero : config.maxSubscriptions = 0 := by
    rw [subscriptionLimit] at hlimit
    split at hlimit
    · cases hlimit
    · next h => exact Nat.eq_zero_of_not_pos h
  rw [calculateChannelSize, checkedAdd] at h
  split at h
  · rw [Option.bind_some, checkedMul, hzero, Nat.zero_mul] at h
    exact (Option.some.inj h).symm
  · cases h

end RelayConfig

/-! ### A channel that nobody reads -/

/-- The channel of the connection answers what is sent to it, and nothing else happens to it.
Everything else is answered anyhow. -/
def undrainedAnswers (channel : ChannelRef) : Script.Answers RelayCall.Answer Channel
  | .trySend ref packet, ch, r, ch' =>
    if ref = channel then match ch.trySend packet with
      | .ok ch₁ => r = .ok () ∧ ch' = ch₁
      | .error e => r = .error e ∧ ch' = ch
    else ch' = ch
  | _, ch, _, ch' => ch' = ch

/-- What is offered to the channel, whether or not it takes it. -/
def packetsTo (channel : ChannelRef) (t : RelayHistory) : List Packet :=
  (pushed t).filterMap fun push => if push.1 = channel then some push.2 else none

variable {channel : ChannelRef} {ch ch' : Channel} {before : List Packet} {t t' : RelayHistory}

theorem packetsTo_append :
    packetsTo channel (t ++ t') = packetsTo channel t ++ packetsTo channel t' := by
  rw [packetsTo, pushed_append, List.filterMap_append]
  rfl

theorem packetsTo_trySend (packet : Packet) (r : Except Channel.TrySendError Unit) :
    packetsTo channel [⟨.trySend channel packet, r⟩] = [packet] := by
  simp [packetsTo, Asked.pushed?]

theorem packetsTo_of_ne {ref : ChannelRef} (h : ref ≠ channel) (packet : Packet)
    (r : Except Channel.TrySendError Unit) : packetsTo channel [⟨.trySend ref packet, r⟩] = [] := by
  simp [packetsTo, Asked.pushed?, h]

/-- What one question does to an undrained channel. -/
theorem undrainedAnswers_sendAll {call : RelayCall} {r : call.Answer}
    (h : undrainedAnswers channel call (ch.sendAll before) r ch') :
    ch' = ch.sendAll (before ++ packetsTo channel [⟨call, r⟩]) ∧
      (before.length + (packetsTo channel [⟨call, r⟩]).length ≤ ch.room →
        Room channel [⟨call, r⟩]) := by
  have hnothing (hoffered : packetsTo channel [⟨call, r⟩] = []) (hch : ch' = ch.sendAll before)
      (hroom : Room channel [⟨call, r⟩]) : ch' = ch.sendAll
        (before ++ packetsTo channel [⟨call, r⟩]) ∧
        (before.length + (packetsTo channel [⟨call, r⟩]).length ≤ ch.room →
          Room channel [⟨call, r⟩]) := by
    rw [hoffered, List.append_nil]
    exact ⟨hch, fun _ => hroom⟩
  cases call with
  | trySend ref packet =>
    by_cases href : ref = channel
    · obtain rfl := href
      rw [packetsTo_trySend]
      by_cases hroom : before.length < ch.room
      · simp only [undrainedAnswers, if_true, Channel.trySend_sendAll_of_lt packet hroom] at h
        obtain ⟨rfl, rfl⟩ := h
        refine ⟨rfl, fun _ packet' r' hmem => ?_⟩
        cases List.mem_singleton.mp hmem
        rfl
      · obtain ⟨⟨e, he⟩, hsame⟩ := Channel.trySend_sendAll_of_le packet (not_lt.mp hroom)
        simp only [undrainedAnswers, if_true, he] at h
        refine ⟨h.2.trans hsame.symm, fun hlength => absurd ?_ hroom⟩
        exact Nat.lt_of_succ_le hlength
    · refine hnothing (packetsTo_of_ne href packet r) ?_ fun packet' r' hmem => ?_
      · simpa only [undrainedAnswers, if_neg href] using h
      · cases List.mem_singleton.mp hmem
        exact absurd rfl href
  | _ =>
    refine hnothing rfl h fun packet' r' hmem => ?_
    cases List.mem_singleton.mp hmem

theorem Channel.room_new (size : ℕ) : (Channel.new size).room = size := by
  rw [room, new]
  split
  · rfl
  · next h => exact (Nat.eq_zero_of_not_pos fun hpos => h ⟨rfl, hpos⟩).symm

/-- **An undrained channel** holds what was offered to it, as far as it has room, and refuses
nothing as long as it has. -/
theorem exec_undrained {α : Type} {p : Relay α} {a : α}
    (h : Exec (undrainedAnswers channel) p (ch.sendAll before) t a ch') :
    ch' = ch.sendAll (before ++ packetsTo channel t) ∧
      (before.length + (packetsTo channel t).length ≤ ch.room → Room channel t) := by
  induction p generalizing before t with
  | done b =>
    obtain ⟨rfl, -, rfl⟩ := exec_done.mp h
    exact ⟨by rw [packetsTo, pushed_nil, List.filterMap_nil, List.append_nil],
      fun _ _ _ hmem => nomatch hmem⟩
  | ask call next ih =>
    obtain ⟨r, ch₁, t', rfl, hstep, hrest⟩ := exec_ask.mp h
    obtain ⟨rfl, hroom⟩ := undrainedAnswers_sendAll hstep
    obtain ⟨hch, hroom'⟩ := ih r hrest
    rw [← List.singleton_append, packetsTo_append]
    refine ⟨by rw [hch, List.append_assoc], fun hlength => ?_⟩
    rw [List.length_append] at hroom'
    rw [List.length_append] at hlength
    intro packet r' hmem
    obtain hmem | hmem := List.mem_append.mp hmem
    · exact hroom (by omega) packet r' hmem
    · exact hroom' (by omega) packet r' hmem

/-! ### The answer to a REQ with one filter -/

variable {coordinator : SubscriptionCoordinator} {sub : SubscriptionId} {filter : Filter}
  {scope : Scope} {r : Except Error Unit}

/-- The packets of stored events. -/
def eventPackets (coordinator : SubscriptionCoordinator) (sub : SubscriptionId) (events : Events) :
    List Packet :=
  events.map fun event => coordinator.outgoingSender.packetBypass (.event sub event)

/-- EOSE as a packet. -/
def eosePacket (coordinator : SubscriptionCoordinator) (sub : SubscriptionId) : Packet :=
  coordinator.outgoingSender.packet (.endOfStoredEvents sub)

theorem packetsTo_pushesEvents {sender : MessageSender} {events : Events}
    (h : PushesEvents sender sub events t) : packetsTo sender.channel t =
      events.map fun event => sender.packetBypass (.event sub event) := by
  rw [packetsTo, h, List.filterMap_map]
  simp only [Function.comp_def, if_true, List.filterMap_eq_map']

/-- What is offered for a REQ with one filter: no more events than `max_limit`, and EOSE unless a
query failed. -/
theorem runs_oneFilter (h : Runs (coordinator.processHistoricalEvents sub [filter] scope) t r) :
    ∃ events : Events, events.length ≤ coordinator.maxLimit ∧
      (packetsTo coordinator.outgoingSender.channel t = eventPackets coordinator sub events ∧
          r ≠ .ok () ∨
        packetsTo coordinator.outgoingSender.channel t =
          eventPackets coordinator sub events ++ [eosePacket coordinator sub]) := by
  obtain ⟨t₁, r₁, tail, rfl, h₁, h₂⟩ := runs_bind.mp h
  obtain ⟨t₂, r₂, t₃, rfl, h₃, h₄⟩ := runs_bind.mp h₁
  obtain ⟨events, run⟩ := runs_processFilter h₃
  have hevents := packetsTo_pushesEvents run.pushes
  have hlength : events.length ≤ coordinator.maxLimit := by
    have := run.length_le (Nat.zero_le _)
    rw [Nat.zero_add] at this
    exact this.trans (smallestLimit_le_maxLimit coordinator [filter])
  refine ⟨events, hlength, ?_⟩
  match r₂ with
  | .error e =>
    obtain ⟨rfl, rfl⟩ := runs_done.mp h₄
    obtain ⟨rfl, rfl⟩ := runs_done.mp h₂
    rw [List.append_nil, List.append_nil]
    exact .inl ⟨hevents, nofun⟩
  | .ok paging =>
    obtain ⟨rfl, rfl⟩ := runs_done.mp h₄
    obtain ⟨t₅, sent, t₆, rfl, h₅, h₆⟩ := runs_bind.mp h₂
    obtain ⟨answer, t₇, rfl, h₇⟩ := runs_request_bind.mp h₅
    obtain ⟨rfl, rfl⟩ := runs_done.mp h₇
    have hrest : packetsTo coordinator.outgoingSender.channel t₆ = [] := by
      match answer with
      | .ok () =>
        obtain ⟨rfl, rfl⟩ := runs_done.mp h₆
        rfl
      | .error e =>
        obtain ⟨text, t₈, rfl, h₈⟩ := runs_request_bind.mp h₆
        obtain ⟨rfl, rfl⟩ := runs_done.mp h₈
        rfl
    rw [List.append_nil, packetsTo_append, packetsTo_append, hevents, hrest, List.append_nil,
      packetsTo_trySend]
    exact .inr rfl

/-- Without room, EOSE is refused on an empty store. -/
theorem exec_empty_store (coordinator : SubscriptionCoordinator) (sub : SubscriptionId)
    (filter : Filter) (scope : Scope) : ∃ t r,
      Exec (undrainedAnswers coordinator.outgoingSender.channel)
        (coordinator.processHistoricalEvents sub [filter] scope) (.new 0) t r (.new 0) ∧
      ¬ Room coordinator.outgoingSender.channel t := by
  have hqueried : Exec (undrainedAnswers coordinator.outgoingSender.channel)
      (coordinator.processFilters sub scope (coordinator.smallestLimit [filter])
        [capLimit (coordinator.smallestLimit [filter]) filter] []) (.new 0)
      [⟨.scopedView scope, .ok ()⟩, ⟨.query (capLimit (coordinator.smallestLimit [filter]) filter)
        scope, .ok []⟩, ⟨.extend [] [], []⟩] (.ok ()) (.new 0) :=
    .ask _ rfl <| .ask _ rfl <| .ask _ rfl <| .done _ _
  have hrefused : undrainedAnswers coordinator.outgoingSender.channel
      (.trySend coordinator.outgoingSender.channel (eosePacket coordinator sub)) (.new 0)
      (.error .full) (.new 0) := by
    simp [undrainedAnswers, Channel.trySend, Channel.new]
  refine ⟨_, .error (.internal ("Failed to send EOSE: " ++ "")),
    exec_bind.mpr ⟨_, _, _, _, rfl, hqueried, .ask _ hrefused <| .ask "" rfl <| .done _ _⟩,
    fun hroom => ?_⟩
  cases hroom (eosePacket coordinator sub) (.error .full) (by simp [eosePacket])

/-- The channel of the connection is large enough for one answer: the size does not overflow, and
a channel of this size that is empty and that nobody reads takes every answer to a REQ with one
filter, whatever is stored and may be seen. An answer that succeeds is the events and EOSE. -/
def TakesOneAnswer (config : RelayConfig) : Prop :=
  ∃ size, config.calculateChannelSize = some size ∧
    ∀ (coordinator : SubscriptionCoordinator) (sub : SubscriptionId) (filter : Filter)
      (scope : Scope) (t : RelayHistory) (r : Except Error Unit) (ch : Channel),
      coordinator.maxLimit = config.maxLimit →
      Exec (undrainedAnswers coordinator.outgoingSender.channel)
        (coordinator.processHistoricalEvents sub [filter] scope) (.new size) t r ch →
      Room coordinator.outgoingSender.channel t ∧
        ch.sent = packetsTo coordinator.outgoingSender.channel t ∧
        (r = .ok () → ∃ events,
          ch.sent = eventPackets coordinator sub events ++ [eosePacket coordinator sub])

theorem takesOneAnswer_of_lt {config : RelayConfig} (hpos : 0 < config.maxSubscriptions)
    (hsize : config.maxSubscriptions * (config.maxLimit + 5) < 2 ^ 64) : TakesOneAnswer config := by
  refine ⟨_, (RelayConfig.calculateChannelSize_eq_some_iff hpos).mpr ⟨hsize, rfl⟩,
    fun coordinator sub filter scope t r ch hlimit h => ?_⟩
  have hle : config.maxLimit + 5 ≤ config.maxSubscriptions * (config.maxLimit + 5) :=
    Nat.le_mul_of_pos_left _ hpos
  generalize config.maxSubscriptions * (config.maxLimit + 5) = size at h hle
  rw [← Channel.sendAll_nil (.new size)] at h
  obtain ⟨rfl, hroom⟩ := exec_undrained h
  obtain ⟨events, hlength, hpackets⟩ := runs_oneFilter h.runs
  have hfits : (packetsTo coordinator.outgoingSender.channel t).length ≤ size := by
    obtain ⟨hpackets, -⟩ | hpackets := hpackets
    · rw [hpackets, eventPackets, List.length_map]
      omega
    · rw [hpackets, List.length_append, eventPackets, List.length_map, List.length_singleton]
      omega
  have hsent : ((Channel.new size).sendAll
      ([] ++ packetsTo coordinator.outgoingSender.channel t)).sent =
        packetsTo coordinator.outgoingSender.channel t := by
    rw [Channel.sendAll, Channel.room_new, List.nil_append, List.take_of_length_le hfits]
    rfl
  refine ⟨hroom (by rwa [List.length_nil, Nat.zero_add, Channel.room_new]), hsent, fun hr => ?_⟩
  obtain ⟨-, hne⟩ | hpackets := hpackets
  · exact absurd hr hne
  · exact ⟨events, hsent.trans hpackets⟩

/-- A channel without room refuses EOSE, so it does not take every answer. -/
theorem not_takesOneAnswer_of_size {config : RelayConfig}
    (h : ∀ size, config.calculateChannelSize = some size → size = 0) : ¬ TakesOneAnswer config := by
  rintro ⟨size, hsize, htakes⟩
  obtain rfl := h size hsize
  obtain ⟨t, r, hexec, hrefused⟩ := exec_empty_store ⟨"", ⟨0, 0⟩, config.maxLimit⟩ "" .new .default
  exact hrefused (htakes _ _ _ _ t r _ rfl hexec).1

/-- **When the channel is large enough for one answer.** For every configuration: the size does not
overflow, and an empty channel of this size that nobody reads takes every answer to a REQ with one
filter, exactly if the number of subscriptions is limited and the product fits into a `usize`. -/
theorem takesOneAnswer_iff (config : RelayConfig) : TakesOneAnswer config ↔
    0 < config.maxSubscriptions ∧
      config.maxSubscriptions * (config.maxLimit + 5) < 2 ^ 64 := by
  refine ⟨fun h => ?_, fun h => takesOneAnswer_of_lt h.1 h.2⟩
  by_cases hpos : 0 < config.maxSubscriptions
  · obtain ⟨size, hsize, -⟩ := h
    exact ⟨hpos, ((RelayConfig.calculateChannelSize_eq_some_iff hpos).mp hsize).1⟩
  · refine absurd h (not_takesOneAnswer_of_size fun size => ?_)
    exact RelayConfig.size_of_subscriptionLimit_eq_none (if_neg hpos)

/-- With no limit on subscriptions and the default limit of events, not even EOSE gets through. -/
theorem unlimited_takes_nothing : ¬ TakesOneAnswer ⟨0, 5000⟩ :=
  not_takesOneAnswer_of_size fun _ => RelayConfig.size_of_subscriptionLimit_eq_none rfl

end RelayBuilder
