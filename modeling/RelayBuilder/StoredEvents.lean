import RelayBuilder.Requests
import Mathlib.Logic.Relation

/-!
# Stored events on their way to the client

`process_historical_events` pushes every stored event into the channel of its connection without
waiting, while the client takes messages out at its own pace, and counts it as sent whether the
channel took it or not. Only the push of EOSE is checked.

Here the state is the channel. Before every question the client may have taken messages or left,
and other tasks may have put messages in.

## Main definitions

* `channelAnswers`: the questions, answered by the channel of the connection
* `DeliversStored`: nothing that was counted is missing before EOSE

## Main results

* `counts_processFilter`: what is counted as sent is what was pushed
* `deliversStored_iff`: when an answer that succeeds is complete
-/

namespace RelayBuilder

open Interleave Script

/-- What happens to a channel at its other ends: the client takes a message or leaves, or another
task puts a message in. -/
inductive ChannelStep : Channel → Channel → Prop where
  | receive (ch : Channel) : ChannelStep ch ch.receive
  | disconnect (ch : Channel) : ChannelStep ch ch.disconnect
  | put {ch ch' : Channel} {packet : Packet} (h : ch.trySend packet = .ok ch') :
    ChannelStep ch ch'

/-- Any number of such steps. -/
abbrev ChannelSteps : Channel → Channel → Prop := Relation.ReflTransGen ChannelStep

/-- The channel of the connection answers what is sent to it, after some steps at its other ends.
Everything else is answered anyhow. -/
def channelAnswers (channel : ChannelRef) : Script.Answers RelayCall.Answer Channel
  | .trySend ref packet, ch, r, ch' => ∃ ch₁, ChannelSteps ch ch₁ ∧
    if ref = channel then match ch₁.trySend packet with
      | .ok ch₂ => r = .ok () ∧ ch' = ch₂
      | .error e => r = .error e ∧ ch' = ch₁
    else ch' = ch₁
  | _, ch, _, ch' => ChannelSteps ch ch'

/-- A push into a channel. -/
def Asked.pushed? : Asked → Option (ChannelRef × Packet)
  | ⟨.trySend channel packet, _⟩ => some (channel, packet)
  | _ => none

/-- A push that the channel took. -/
def Asked.acceptedBy? (channel : ChannelRef) : Asked → Option Packet
  | ⟨.trySend ref packet, .ok _⟩ => if ref = channel then some packet else none
  | _ => none

/-- What was pushed, into which channel, and whether or not the channel took it. -/
def pushed (t : RelayHistory) : List (ChannelRef × Packet) := t.filterMap Asked.pushed?

/-- What the channel took. -/
def acceptedBy (channel : ChannelRef) (t : RelayHistory) : List Packet :=
  t.filterMap (Asked.acceptedBy? channel)

variable {t t' : RelayHistory} {channel : ChannelRef} {ch ch' ch'' : Channel}

@[simp] theorem pushed_nil : pushed [] = [] := rfl

@[simp] theorem pushed_append : pushed (t ++ t') = pushed t ++ pushed t' := List.filterMap_append

@[simp] theorem pushed_cons {asked : Asked} :
    pushed (asked :: t) = asked.pushed?.toList ++ pushed t := by
  rw [pushed, List.filterMap_cons]
  cases asked.pushed? <;> rfl

@[simp] theorem acceptedBy_append :
    acceptedBy channel (t ++ t') = acceptedBy channel t ++ acceptedBy channel t' :=
  List.filterMap_append

theorem acceptedBy_cons {asked : Asked} :
    acceptedBy channel (asked :: t) =
      (asked.acceptedBy? channel).toList ++ acceptedBy channel t := by
  rw [acceptedBy, List.filterMap_cons]
  cases asked.acceptedBy? channel <;> rfl

/-! ### What is counted -/

/-- The pushes are those of these events, in this order. -/
def PushesEvents (sender : MessageSender) (sub : SubscriptionId) (events : List Event)
    (t : RelayHistory) : Prop :=
  pushed t = events.map fun event => (sender.channel, sender.packetBypass (.event sub event))

variable {sender : MessageSender} {sub : SubscriptionId}

theorem PushesEvents.nil (h : pushed t = []) : PushesEvents sender sub [] t := h

theorem PushesEvents.append {events events' : List Event} (h : PushesEvents sender sub events t)
    (h' : PushesEvents sender sub events' t') :
    PushesEvents sender sub (events ++ events') (t ++ t') := by
  rw [PushesEvents, pushed_append, h, h', List.map_append]

/-- A script that pushes nothing. -/
abbrev PushesNothing {α : Type} (p : Relay α) : Prop := p.Ensures fun t _ => pushed t = []

theorem pushesNothing_done {α : Type} (a : α) : PushesNothing (Script.done a : Relay α) :=
  ensures_done.mpr rfl

/-- A question that is no push. -/
theorem pushesNothing_request_bind {α : Type} {call : RelayCall} {k : call.Answer → Relay α}
    (hcall : ∀ r, Asked.pushed? ⟨call, r⟩ = none) (hk : ∀ r, PushesNothing (k r)) :
    PushesNothing ((request call).bind k) :=
  ensures_request_bind.mpr fun r => (hk r).mono fun t b h => by
    rw [pushed_cons, hcall r, h]
    rfl

theorem pushesNothing_queryAll (scope : Scope) (filters : List Filter) (all : Events) :
    PushesNothing (RelayDatabase.queryAll scope filters all) := by
  induction filters generalizing all with
  | nil => exact pushesNothing_done _
  | cons filter filters ih =>
    refine pushesNothing_request_bind (fun _ => rfl) fun r => ?_
    match r with
    | .ok events => exact pushesNothing_request_bind (fun _ => rfl) fun all => ih all
    | .error .notSupported => exact pushesNothing_done _
    | .error (.backend text) =>
      dsimp only
      split
      · exact ih _
      · exact pushesNothing_done _

theorem pushesNothing_query (filters : List Filter) (scope : Scope) :
    PushesNothing (RelayDatabase.query filters scope) := by
  refine pushesNothing_request_bind (fun _ => rfl) fun view => ?_
  cases view with
  | error e => exact pushesNothing_done _
  | ok _ => exact pushesNothing_queryAll scope filters []

theorem pushesNothing_filterFn (event : Event) :
    PushesNothing (SubscriptionCoordinator.filterFn event) := by
  refine pushesNothing_request_bind (fun _ => rfl) fun context => ?_
  refine pushesNothing_request_bind (fun _ => rfl) fun r => ?_
  cases r <;> exact pushesNothing_done _

open SubscriptionCoordinator

/-- Filtering a page pushes nothing and counts nothing. -/
theorem counts_filterPage (paging : Paging) (events kept : Events) :
    (filterPage paging events kept).Ensures fun t r =>
      pushed t = [] ∧ r.2.sentEvents = paging.sentEvents := by
  induction events generalizing paging kept with
  | nil => exact ensures_done.mpr ⟨rfl, rfl⟩
  | cons event events ih =>
    rw [filterPage]
    split
    · exact ih paging kept
    · refine ensures_bind.mpr ((pushesNothing_filterFn event).mono fun t visible h => ?_)
      refine (ih _ _).mono fun t' r h' => ⟨?_, h'.2⟩
      rw [pushed_append, h, h'.1, List.append_nil]

/-- Sending a page counts every event that it pushes. -/
theorem counts_sendPage (sender : MessageSender) (sub : SubscriptionId) (limit : ℕ)
    (paging : Paging) (events : Events) :
    (sendPage sender sub limit paging events).Ensures fun t r => ∃ sent,
      PushesEvents sender sub sent t ∧ r.sentEvents = paging.sentEvents ++ sent.map (·.id) := by
  induction events generalizing paging with
  | nil => exact ensures_done.mpr ⟨[], rfl, (List.append_nil _).symm⟩
  | cons event events ih =>
    rw [sendPage]
    split
    · exact ensures_done.mpr ⟨[], rfl, (List.append_nil _).symm⟩
    · refine ensures_ask.mpr fun r => (ih _).mono ?_
      rintro t r' ⟨sent, hsent, hcount⟩
      refine ⟨event :: sent, ?_, ?_⟩
      · rw [PushesEvents, pushed_cons, hsent]
        rfl
      · rw [hcount, List.append_assoc]
        rfl

/-- **What a filter counts as sent** is what it pushed. -/
theorem counts_processFilter (coordinator : SubscriptionCoordinator) (sub : SubscriptionId)
    (scope : Scope) (limit : ℕ) (filter : Filter) (attempts : ℕ) (paging : Paging) :
    (coordinator.processFilter sub scope limit filter attempts paging).Ensures fun t r => ∃ sent,
      PushesEvents coordinator.outgoingSender sub sent t ∧ ∀ paging', r = .ok paging' →
        paging'.sentEvents = paging.sentEvents ++ sent.map (·.id) := by
  induction attempts generalizing filter paging with
  | zero =>
    refine ensures_done.mpr ⟨[], rfl, fun paging' h => ?_⟩
    rw [← Except.ok.inj h, List.map_nil, List.append_nil]
  | succ attempts ih =>
    refine ensures_bind.mpr ((pushesNothing_query [filter] scope).mono fun t r h => ?_)
    match r with
    | .error e =>
      refine ensures_request_bind.mpr fun text => ensures_done.mpr ⟨[], ?_, nofun⟩
      rw [PushesEvents, pushed_append, h]
      rfl
    | .ok [] =>
      refine ensures_done.mpr ⟨[], ?_, fun paging' h => ?_⟩
      · rw [PushesEvents, List.append_nil, h]
        rfl
      · rw [← Except.ok.inj h, List.map_nil, List.append_nil]
    | .ok (event :: events) =>
      refine ensures_bind.mpr ((counts_filterPage paging _ _).mono fun t₁ kept ⟨h₁, hkept⟩ => ?_)
      refine ensures_bind.mpr ((counts_sendPage _ _ _ _ _).mono
        fun t₂ paging₂ ⟨sent, hsent, hcount⟩ => ?_)
      rw [hkept] at hcount
      have hpage : PushesEvents coordinator.outgoingSender sub sent (t ++ (t₁ ++ t₂)) := by
        rw [PushesEvents, pushed_append, pushed_append, h, h₁, hsent]
        rfl
      have hdone : ∃ sent, PushesEvents coordinator.outgoingSender sub sent
          (t ++ (t₁ ++ (t₂ ++ []))) ∧ ∀ paging', (Except.ok paging₂ : Except Error Paging) =
            .ok paging' → paging'.sentEvents = paging.sentEvents ++ sent.map (·.id) := by
        rw [List.append_nil]
        exact ⟨sent, hpage, fun paging' h => Except.ok.inj h ▸ hcount⟩
      split
      · exact ensures_done.mpr hdone
      · split
        · exact ensures_done.mpr hdone
        · refine (ih _ _).mono fun t₃ r ⟨sent', hsent', hcount'⟩ => ⟨sent ++ sent', ?_, ?_⟩
          · have happend := hpage.append hsent'
            rwa [List.append_assoc, List.append_assoc] at happend
          · intro paging' h
            rw [hcount' paging' h, hcount, List.map_append, List.append_assoc]

theorem counts_processFilters (coordinator : SubscriptionCoordinator) (sub : SubscriptionId)
    (scope : Scope) (limit : ℕ) (filters : List Filter) (sentBefore : List EventId) :
    (coordinator.processFilters sub scope limit filters sentBefore).Ensures fun t _ =>
      ∃ sent, PushesEvents coordinator.outgoingSender sub sent t := by
  induction filters generalizing sentBefore with
  | nil => exact ensures_done.mpr ⟨[], rfl⟩
  | cons filter filters ih =>
    refine ensures_bind.mpr ((counts_processFilter coordinator sub scope limit filter maxAttempts
      ⟨sentBefore, 0, none⟩).mono fun t r ⟨sent, hsent, _⟩ => ?_)
    match r with
    | .error e => exact ensures_done.mpr ⟨sent, by rwa [List.append_nil]⟩
    | .ok paging =>
      exact (ih _).mono fun t' _ ⟨sent', hsent'⟩ => ⟨sent ++ sent', hsent.append hsent'⟩

/-! ### The channel -/

theorem ChannelStep.sent_prefix (h : ChannelStep ch ch') : ∃ new, ch'.sent = ch.sent ++ new := by
  cases h with
  | receive =>
    refine ⟨[], ?_⟩
    rw [Channel.receive, List.append_nil]
    split <;> rfl
  | disconnect => exact ⟨[], (List.append_nil _).symm⟩
  | @put _ packet h => exact ⟨[packet], by rw [(Channel.trySend_ok h).2]⟩

/-- A client that has left does not come back. -/
theorem ChannelStep.disconnected (h : ChannelStep ch ch') (hch : ch.connected = false) :
    ch'.connected = false := by
  cases h with
  | receive =>
    rw [Channel.receive]
    split <;> exact hch
  | disconnect => rfl
  | put h => rw [(Channel.trySend_ok h).2, hch]

theorem ChannelSteps.sent_prefix (h : ChannelSteps ch ch') : ∃ new, ch'.sent = ch.sent ++ new := by
  induction h with
  | refl => exact ⟨[], (List.append_nil _).symm⟩
  | tail _ hstep ih =>
    obtain ⟨new, hnew⟩ := ih
    obtain ⟨new', hnew'⟩ := hstep.sent_prefix
    exact ⟨new ++ new', by rw [hnew', hnew, List.append_assoc]⟩

theorem ChannelSteps.disconnected (h : ChannelSteps ch ch') (hch : ch.connected = false) :
    ch'.connected = false := by
  induction h with
  | refl => exact hch
  | tail _ hstep ih => exact hstep.disconnected ih

theorem trySend_disconnected {packet : Packet} (h : ch.trySend packet = .error .disconnected) :
    ch.connected = false := by
  rw [Channel.trySend] at h
  split at h
  · assumption
  · split at h <;> cases h

/-- A push that the channel took found it connected. -/
theorem connected_of_push {packet : Packet} {r : Unit}
    (h : channelAnswers channel (.trySend channel packet) ch (.ok r) ch') :
    ch.connected = true := by
  obtain ⟨ch₁, hsteps, h⟩ := h
  rw [if_pos rfl] at h
  split at h
  · next ch₂ hsend =>
    by_contra hch
    have hleft := hsteps.disconnected (Bool.eq_false_of_not_eq_true hch)
    rw [(Channel.trySend_ok hsend).1.1] at hleft
    cases hleft
  · cases h.1

/-- What a script leaves in the channel: what the channel took from it, in its order, between what
others have put in. -/
structure ChannelRun (channel : ChannelRef) (ch : Channel) (t : RelayHistory) (ch' : Channel) :
    Prop where
  sent : ∃ new, ch'.sent = ch.sent ++ new ∧ (acceptedBy channel t).Sublist new
  disconnected : ch.connected = false → ch'.connected = false
  refused : ∀ packet, (⟨.trySend channel packet, .error .disconnected⟩ : Asked) ∈ t →
    ch'.connected = false

theorem ChannelRun.steps (h : ChannelSteps ch ch') {asked : Asked}
    (hasked : asked.pushed? = none) : ChannelRun channel ch [asked] ch' := by
  obtain ⟨call, r⟩ := asked
  obtain ⟨new, hnew⟩ := h.sent_prefix
  refine ⟨⟨new, hnew, ?_⟩, h.disconnected, fun packet hmem => ?_⟩
  · rw [acceptedBy_cons]
    cases call with
    | trySend => cases hasked
    | _ => exact List.nil_sublist new
  · cases List.mem_singleton.mp hmem
    cases hasked

/-- One push. -/
theorem ChannelRun.push {ref : ChannelRef} {packet : Packet}
    {r : Except Channel.TrySendError Unit}
    (h : channelAnswers channel (.trySend ref packet) ch r ch') :
    ChannelRun channel ch [⟨.trySend ref packet, r⟩] ch' := by
  obtain ⟨ch₁, hsteps, h⟩ := h
  obtain ⟨new, hnew⟩ := hsteps.sent_prefix
  by_cases href : ref = channel
  · rw [if_pos href] at h
    split at h
    · next ch₂ hsend =>
      obtain ⟨rfl, rfl⟩ := h
      obtain ⟨hroom, rfl⟩ := Channel.trySend_ok hsend
      refine ⟨⟨new ++ [packet], ?_, ?_⟩, fun hch => hsteps.disconnected hch, fun _ hmem => ?_⟩
      · rw [hnew, List.append_assoc]
      · rw [acceptedBy_cons, Asked.acceptedBy?, if_pos href]
        exact List.sublist_append_right new [packet]
      · cases List.mem_singleton.mp hmem
    · next e hsend =>
      obtain ⟨rfl, rfl⟩ := h
      refine ⟨⟨new, hnew, List.nil_sublist new⟩, hsteps.disconnected, fun _ hmem => ?_⟩
      cases List.mem_singleton.mp hmem
      exact trySend_disconnected hsend
  · rw [if_neg href] at h
    subst h
    refine ⟨⟨new, hnew, ?_⟩, hsteps.disconnected, fun _ hmem => ?_⟩
    · rw [acceptedBy_cons]
      cases r with
      | ok _ =>
        rw [Asked.acceptedBy?, if_neg href]
        exact List.nil_sublist new
      | error e => exact List.nil_sublist new
    · cases List.mem_singleton.mp hmem
      exact absurd rfl href

theorem ChannelRun.append (h : ChannelRun channel ch t ch') (h' : ChannelRun channel ch' t' ch'') :
    ChannelRun channel ch (t ++ t') ch'' := by
  obtain ⟨new, hnew, hsub⟩ := h.sent
  obtain ⟨new', hnew', hsub'⟩ := h'.sent
  refine ⟨⟨new ++ new', ?_, ?_⟩, fun hch => h'.disconnected (h.disconnected hch),
    fun packet hmem => ?_⟩
  · rw [hnew', hnew, List.append_assoc]
  · rw [acceptedBy_append]
    exact hsub.append hsub'
  · obtain hmem | hmem := List.mem_append.mp hmem
    · exact h'.disconnected (h.refused packet hmem)
    · exact h'.refused packet hmem

theorem exec_channelRun {α : Type} {p : Relay α} {a : α}
    (hexec : Exec (channelAnswers channel) p ch t a ch') : ChannelRun channel ch t ch' := by
  induction hexec with
  | done a ch =>
    exact ⟨⟨[], (List.append_nil _).symm, List.nil_sublist _⟩, id, fun _ h => nomatch h⟩
  | @ask q n ch ch₁ ch₂ t a r hr _ ih =>
    refine ChannelRun.append (t := [⟨q, r⟩]) ?_ ih
    cases q with
    | trySend ref packet => exact .push hr
    | _ => exact .steps hr rfl

/-! ### Complete answers -/

/-- The packet carries an event. -/
def Packet.isEvent (packet : Packet) : Bool :=
  match packet.message with
  | .event _ _ => true
  | _ => false

/-- The packets of the events that were counted as sent. -/
def counted (t : RelayHistory) : List Packet :=
  ((pushed t).map (·.2)).filter Packet.isEvent

/-- An answer that succeeds has put every event that it counted into the channel, in their order
and before EOSE, and it does not succeed when a push was refused. -/
def DeliversStored (sender : MessageSender) (sub : SubscriptionId) (ch : Channel) (t : RelayHistory)
    (r : Except Error Unit) (ch' : Channel) : Prop :=
  (r = .ok () → ∃ new, ch'.sent = ch.sent ++ new ∧
    (counted t ++ [sender.packet (.endOfStoredEvents sub)]).Sublist new) ∧
  (refused t ≠ [] → r ≠ .ok ())

/-- An event was pushed while the channel was full. -/
def MeetsFullChannel (t : RelayHistory) : Prop :=
  ∃ ref packet, Packet.isEvent packet = true ∧ (⟨.trySend ref packet, .error .full⟩ : Asked) ∈ t

theorem mem_pushed {ref : ChannelRef} {packet : Packet} {r : Except Channel.TrySendError Unit}
    (h : (⟨.trySend ref packet, r⟩ : Asked) ∈ t) : (ref, packet) ∈ pushed t :=
  List.mem_filterMap.mpr ⟨_, h, rfl⟩

/-- A channel that refuses nothing takes all that is pushed into it. -/
theorem acceptedBy_of_refused_nil (hpushed : ∀ x ∈ pushed t, x.1 = channel)
    (h : refused t = []) : acceptedBy channel t = (pushed t).map (·.2) := by
  induction t with
  | nil => rfl
  | cons asked t ih =>
    rw [refused_cons, List.append_eq_nil_iff] at h
    rw [pushed_cons, List.forall_mem_append] at hpushed
    rw [acceptedBy_cons, pushed_cons, ih hpushed.2 h.2, List.map_append]
    congr 1
    obtain ⟨call, r⟩ := asked
    cases call with
    | trySend ref packet =>
      cases r with
      | ok _ =>
        have href : ref = channel := hpushed.1 (ref, packet) (List.mem_singleton_self _)
        rw [Asked.acceptedBy?, if_pos href]
        rfl
      | error e => cases h.1
    | _ => rfl

theorem counted_events {events : List Event} (h : PushesEvents sender sub events t) :
    counted t = events.map fun event => sender.packetBypass (.event sub event) := by
  rw [counted, h, List.map_map, List.filter_map]
  congr 1
  exact List.filter_eq_self.mpr fun _ _ => rfl

theorem PushesEvents.toSender {events : List Event} (h : PushesEvents sender sub events t) :
    ∀ x ∈ pushed t, x.1 = sender.channel := by
  intro x hx
  rw [h] at hx
  obtain ⟨event, -, rfl⟩ := List.mem_map.mp hx
  rfl

/-- Every push of the stored events that was refused met a full channel, if the channel still takes
messages afterwards. -/
theorem refused_nil_iff {events : List Event} (h : PushesEvents sender sub events t)
    (hrun : ChannelRun sender.channel ch t ch') (hconnected : ch'.connected = true) :
    refused t = [] ↔ ¬ MeetsFullChannel t := by
  rw [List.eq_nil_iff_forall_not_mem]
  refine ⟨fun hnone ⟨ref, packet, _, hmem⟩ => ?_, fun hnot message hmem => hnot ?_⟩
  · exact hnone packet.message (mem_refused.mpr ⟨ref, packet, .full, hmem, rfl⟩)
  · obtain ⟨ref, packet, e, hasked, rfl⟩ := mem_refused.mp hmem
    have hpushed := mem_pushed hasked
    have href : ref = sender.channel := PushesEvents.toSender h _ hpushed
    rw [h] at hpushed
    obtain ⟨event, -, heq⟩ := List.mem_map.mp hpushed
    obtain ⟨rfl, rfl⟩ := Prod.mk.inj heq
    cases e with
    | full => exact ⟨_, _, rfl, hasked⟩
    | disconnected =>
      rw [hrun.refused _ hasked] at hconnected
      cases hconnected

/-- The last push of an answer that succeeds is EOSE. -/
theorem refused_concat_eose {ref : ChannelRef} {packet : Packet} :
    refused (t ++ ([⟨.trySend ref packet, .ok ()⟩] ++ [])) = refused t := by
  rw [refused_append]
  exact List.append_nil _

theorem counted_concat {ref : ChannelRef} {packet : Packet} (h : packet.isEvent = false) :
    counted (t ++ ([⟨.trySend ref packet, .ok ()⟩] ++ [])) = counted t := by
  rw [counted, pushed_append, List.map_append, List.filter_append]
  simp [Asked.pushed?, h, counted]

theorem meetsFullChannel_concat {ref : ChannelRef} {packet : Packet} :
    MeetsFullChannel (t ++ ([⟨.trySend ref packet, .ok ()⟩] ++ [])) ↔ MeetsFullChannel t := by
  simp [MeetsFullChannel]

/-- Nothing is missing behind an EOSE that the channel took exactly if it took every event. -/
theorem delivers_iff_refused_nil {events : List Event} (h : PushesEvents sender sub events t)
    (hrun : ChannelRun sender.channel ch (t ++ ([⟨.trySend sender.channel
      (sender.packet (.endOfStoredEvents sub)), .ok ()⟩] ++ [])) ch') :
    DeliversStored sender sub ch (t ++ ([⟨.trySend sender.channel
      (sender.packet (.endOfStoredEvents sub)), .ok ()⟩] ++ [])) (.ok ()) ch' ↔
      refused t = [] := by
  rw [DeliversStored, refused_concat_eose, counted_concat rfl]
  refine ⟨fun hdelivers => by_contra fun hne => hdelivers.2 hne rfl, fun hnone => ?_⟩
  refine ⟨fun _ => ?_, fun hne => absurd hnone hne⟩
  obtain ⟨new, hnew, hsub⟩ := hrun.sent
  refine ⟨new, hnew, ?_⟩
  have haccepted := acceptedBy_of_refused_nil (PushesEvents.toSender h) hnone
  have hcounted : counted t = (pushed t).map (·.2) := by
    rw [counted_events h, h, List.map_map]
    rfl
  rw [acceptedBy_append, haccepted, ← hcounted] at hsub
  simpa [acceptedBy, Asked.acceptedBy?] using hsub

/-- **When a successful answer is complete.** In every run, with the client taking messages and
leaving at any time, nothing that was counted as sent is missing behind a successful EOSE exactly
if no event met a full channel, unless a query failed or EOSE was refused. -/
theorem deliversStored_iff (coordinator : SubscriptionCoordinator) (sub : SubscriptionId)
    (filters : List Filter) (scope : Scope) (ch ch' : Channel) (t : RelayHistory)
    (r : Except Error Unit)
    (hexec : Exec (channelAnswers coordinator.outgoingSender.channel)
      (coordinator.processHistoricalEvents sub filters scope) ch t r ch') :
    DeliversStored coordinator.outgoingSender sub ch t r ch' ↔
      (MeetsFullChannel t → QueryFailed t ∨ .endOfStoredEvents sub ∈ refused t) := by
  have hrun := exec_channelRun hexec
  obtain ⟨t₁, r₁, ch₁, t₂, rfl, h₁, h₂⟩ := exec_bind.mp hexec
  have hfetched := fetchesOnly_processFilters _ _ _ _ _ _ _ _ h₁.runs
  obtain ⟨sent, hsent⟩ := counts_processFilters _ _ _ _ _ _ _ _ h₁.runs
  have hrun₁ := exec_channelRun h₁
  match r₁ with
  | .error e =>
    obtain ⟨rfl, rfl, rfl⟩ := exec_done.mp h₂
    refine iff_of_true ⟨nofun, fun _ => nofun⟩ fun _ => .inl ?_
    exact queryFailed_append.mpr (.inl (hfetched.failed.mpr rfl))
  | .ok () =>
    obtain ⟨t₃, sentEose, ch₃, t₄, rfl, h₃, h₄⟩ := exec_bind.mp h₂
    obtain ⟨r₀, ch₅, t₅, rfl, hpush, h₅⟩ := exec_request_bind.mp h₃
    obtain ⟨rfl, rfl, rfl⟩ := exec_done.mp h₅
    match r₀ with
    | .error e =>
      obtain ⟨text, ch₆, t₆, rfl, -, h₆⟩ := exec_request_bind.mp h₄
      obtain ⟨rfl, rfl, rfl⟩ := exec_done.mp h₆
      refine iff_of_true ⟨nofun, fun _ => nofun⟩ fun _ => .inr ?_
      exact mem_refused.mpr ⟨coordinator.outgoingSender.channel,
        coordinator.outgoingSender.packet (.endOfStoredEvents sub), e, by simp, rfl⟩
    | .ok () =>
      obtain ⟨rfl, rfl, rfl⟩ := exec_done.mp h₄
      have hconnected := connected_of_push hpush
      rw [delivers_iff_refused_nil hsent hrun, refused_nil_iff hsent hrun₁ hconnected,
        meetsFullChannel_concat, refused_concat_eose]
      have hqueries : ¬ QueryFailed (t₁ ++ ([⟨.trySend coordinator.outgoingSender.channel
          (coordinator.outgoingSender.packet (.endOfStoredEvents sub)), .ok ()⟩] ++ [])) := by
        rw [queryFailed_append, not_or]
        refine ⟨fun hfailed => ?_, ?_⟩
        · cases hfetched.failed.mp hfailed
        · rw [List.append_nil, queryFailed_cons]
          simp [Asked.QueryFailed]
      exact ⟨fun hnot hfull => absurd hfull hnot,
        fun himp hfull => (himp hfull).elim hqueries (Fetched.eose_not_mem_refused hfetched)⟩

/-! ### One stored event -/

/-- The connection of the examples. -/
private def follower : SubscriptionCoordinator := ⟨"alice", ⟨0, 0⟩, 500⟩

/-- A channel that holds one message already. -/
private def welcomed (capacity : ℕ) : Channel :=
  { Channel.new capacity with sent := [⟨.notice "welcome", 0, none⟩] }

/-- The questions about a store with one event, whose push is answered with `r`. -/
private def oneStored (r : Except Channel.TrySendError Unit) : RelayHistory :=
  [⟨.scopedView .default, .ok ()⟩,
    ⟨.query { Filter.new with limit := some 500 } .default, .ok [Event.note 7]⟩,
    ⟨.extend [] [Event.note 7], [Event.note 7]⟩,
    ⟨.eventContext, ⟨none, .default, 0⟩⟩,
    ⟨.canSeeEvent (Event.note 7) ⟨none, .default, 0⟩, .ok true⟩,
    ⟨.trySend 0 ⟨.event "feed" (Event.note 7), 0, none⟩, r⟩,
    ⟨.scopedView .default, .ok ()⟩,
    ⟨.query { Filter.new with limit := some 500, «until» := some 0 } .default, .ok []⟩,
    ⟨.extend [] [], []⟩,
    ⟨.trySend 0 ⟨.endOfStoredEvents "feed", 0, none⟩, .ok ()⟩]

private theorem exec_oneStored (ch : Channel) {r : Except Channel.TrySendError Unit}
    (hpush : channelAnswers 0 (.trySend 0 ⟨.event "feed" (Event.note 7), 0, none⟩) ch r ch')
    (heose : channelAnswers 0 (.trySend 0 ⟨.endOfStoredEvents "feed", 0, none⟩) ch' (.ok ()) ch'') :
    Exec (channelAnswers 0) (follower.processHistoricalEvents "feed" [Filter.new] .default) ch
      (oneStored r) (.ok ()) ch'' := by
  have hfilter : Exec (channelAnswers 0) (follower.processFilter "feed" .default 500
      { Filter.new with limit := some 500 } (49 + 1) ⟨[], 0, none⟩) ch
      (oneStored r).dropLast (.ok ⟨[7], 1, some 0⟩) ch' := by
    rw [processFilter]
    refine exec_bind.mpr ⟨[_, _, _], .ok [Event.note 7], ch, _, rfl,
      .ask _ .refl <| .ask _ .refl <| .ask _ .refl <| .done _ _, ?_⟩
    refine exec_bind.mpr ⟨[_, _], ([Event.note 7], ⟨[], 0, some 0⟩), ch, _, rfl,
      .ask _ .refl <| .ask _ .refl <| .done _ _, ?_⟩
    dsimp only
    rw [List.mergeSort_singleton]
    exact .ask _ hpush <| .ask _ .refl <| .ask _ .refl <| .ask _ .refl <| .done _ _
  refine exec_bind.mpr ⟨(oneStored r).dropLast, .ok (), ch', _, rfl, ?_, .ask _ heose <| .done _ _⟩
  exact exec_bind.mpr ⟨_, _, _, [], (List.append_nil _).symm, hfilter, .done _ _⟩

/-- With room for the event and for EOSE, nothing is missing. -/
theorem deliversStored_with_room : ∃ ch', DeliversStored ⟨0, 0⟩ "feed" (welcomed 3)
    (oneStored (.ok ())) (.ok ()) ch' := by
  have hexec := exec_oneStored (welcomed 3) ⟨_, .refl, rfl, rfl⟩ ⟨_, .refl, rfl, rfl⟩
  refine ⟨_, (deliversStored_iff follower "feed" [Filter.new] .default _ _ _ _ hexec).mpr ?_⟩
  rintro ⟨ref, packet, -, hmem⟩
  simp [oneStored] at hmem

/-- The event meets a full channel. The client then takes the message that waits there, EOSE goes
through, and the answer succeeds without the event that it counted. -/
theorem full_channel_shortens_answer :
    ¬ ∀ (coordinator : SubscriptionCoordinator) (sub : SubscriptionId) (filters : List Filter)
      (scope : Scope) (ch ch' : Channel) (t : RelayHistory) (r : Except Error Unit),
      Exec (channelAnswers coordinator.outgoingSender.channel)
        (coordinator.processHistoricalEvents sub filters scope) ch t r ch' →
      DeliversStored coordinator.outgoingSender sub ch t r ch' := by
  intro hall
  have hexec := exec_oneStored (welcomed 1) (r := .error .full) ⟨_, .refl, rfl, rfl⟩
    ⟨_, .single (.receive _), rfl, rfl⟩
  have hrefused : .event "feed" (Event.note 7) ∈ refused (oneStored (.error .full)) :=
    mem_refused.mpr ⟨0, ⟨.event "feed" (Event.note 7), 0, none⟩, .full, by simp [oneStored], rfl⟩
  exact (hall follower "feed" [Filter.new] .default _ _ _ _ hexec).2
    (List.ne_nil_of_mem hrefused) rfl

end RelayBuilder
