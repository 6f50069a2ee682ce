import RelayBuilder.EventAnswers
import RelayBuilder.Visibility

/-!
# Expired events

`Nip40ExpirationMiddleware`: it deletes an event that arrives after it has expired, hands it on
all the same, and drops expired events on their way out. The state is what decides about this: the
clock, which does not go back, and the store.

## Main definitions

* `getEventExpiration`, `Nip40ExpirationMiddleware.middleware`
* `StoreState`, and its `answers`

## Main results

* `expired_dropped_iff`: when an expired event is neither kept nor delivered, and refused
* `expired_withheld`: no connection behind the middleware is sent an expired event
-/

namespace RelayBuilder

open Interleave Script

/-! ### The expiration tag -/

/-- `str::parse::<u64>`: decimal digits, which may follow a plus sign, for a number in range. -/
def parseU64 (text : String) : Option ℕ :=
  let digits := if text.toList.head? = some '+' then text.toList.tail else text.toList
  if digits ≠ [] ∧ digits.all Char.isDigit then
    let n := digits.foldl (fun n c => 10 * n + (c.toNat - '0'.toNat)) 0
    if n < 2 ^ 64 then some n else none
  else none

/-- `get_event_expiration`: what the first `expiration` tag says that holds a number. -/
def getEventExpiration (event : Event) : Option Timestamp :=
  event.tags.findSome? fun tag =>
    if tag.kind = "expiration" then tag.values.head?.bind parseU64 else none

/-- Tags of other kinds, without a value or with one that is no number are skipped. -/
theorem getEventExpiration_skip {event : Event} {before after : List Tag} {tag : Tag}
    {value : String} {expiration : Timestamp} (htags : event.tags = before ++ tag :: after)
    (hbefore : ∀ tag ∈ before, tag.kind = "expiration" → tag.values.head?.bind parseU64 = none)
    (hkind : tag.kind = "expiration") (hvalue : tag.values.head? = some value)
    (hparse : parseU64 value = some expiration) : getEventExpiration event = some expiration := by
  rw [getEventExpiration, htags, List.findSome?_append, List.findSome?_eq_none_iff.mpr,
    Option.none_or, List.findSome?_cons, if_pos hkind, hvalue, Option.bind_some, hparse]
  intro tag htag
  split
  · exact hbefore tag htag ‹_›
  · rfl

example : parseU64 "+007" = some 7 := by decide

example : parseU64 "18446744073709551616" = none := by decide

/-- `Filter::new().id(id)`. -/
def Filter.id (eventId : EventId) : Filter :=
  { Filter.new with ids := some ⟨[eventId], List.nodup_singleton _⟩ }

namespace Nip40ExpirationMiddleware

/-- Delete an event that has expired. A failure is only logged. -/
def deleteExpired (kinds : KindRanges) (subdomain : Scope) (event : Event) : Relay Unit :=
  match getEventExpiration event with
  | none => pure ()
  | some expiration => do
    let now ← Script.request RelayCall.now
    if expiration < now then
      match ← Script.request RelayCall.subscriptionCoordinator with
      | none => pure ()
      | some _ => do
        let _ ← SubscriptionCoordinator.saveAndBroadcast kinds
          (.deleteEvents (Filter.id event.id) subdomain none)
    else pure ()

/-- `process_inbound`: the event is handed on, whether it has expired or not. -/
def processInbound (kinds : KindRanges) : InboundMiddleware := fun ctx =>
  match ctx.message with
  | some (.event event) => do
    deleteExpired kinds ctx.subdomain event
    ctx.next ctx.message
  | _ => ctx.next ctx.message

/-- `process_outbound`: an event that has expired is dropped. -/
def processOutbound : OutboundMiddleware RelayCall RelayCall.Answer
  | some (.event sub event) =>
    match getEventExpiration event with
    | none => pure (.ok (some (.event sub event)))
    | some expiration => do
      let now ← Script.request RelayCall.now
      pure (.ok (if expiration < now then none else some (.event sub event)))
  | message => pure (.ok message)

/-- `Nip40ExpirationMiddleware`. -/
def middleware (kinds : KindRanges) : Middleware where
  onConnect _ := pure (.ok ())
  processInbound := processInbound kinds
  processOutbound := processOutbound

end Nip40ExpirationMiddleware

/-! ### The store and the clock -/

structure StoreState where
  now : Timestamp
  stored : Scope → List Event

/-- What the event processor may answer. -/
abbrev EventHandler := Event → EventContext → Except Error (List StoreCommand) → Prop

namespace StoreState

/-- The store took an event, perhaps in place of others. -/
structure Saves (s : StoreState) (event : Event) (scope : Scope) (s' : StoreState) : Prop where
  now : s'.now = s.now
  saved : event ∈ s'.stored scope
  others : ∀ scope', ∀ e ∈ s'.stored scope', e ∈ s.stored scope' ∨ e = event ∧ scope' = scope

/-- The events of a scope that match a filter are gone. -/
def delete (s : StoreState) (matchEvent : Filter → Event → Bool) (filter : Filter)
    (scope : Scope) : StoreState :=
  { s with stored := fun scope' =>
      if scope' = scope then (s.stored scope).filter fun e => !matchEvent filter e
      else s.stored scope' }

/-- What the questions of a connection with this scope do. -/
def answers (matchEvent : Filter → Event → Bool) (handler : EventHandler) (subdomain : Scope) :
    Script.Answers RelayCall.Answer StoreState
  | .now, s, r, s' => s.now ≤ r ∧ s' = { s with now := r }
  | .eventContext, s, r, s' => r.subdomain = subdomain ∧ s' = s
  | .handleEvent event context, s, r, s' => handler event context r ∧ s' = s
  | .saveEvent event scope, s, r, s' =>
    (r = .ok .success → s.Saves event scope s') ∧ (r ≠ .ok .success → s' = s)
  | .delete filter scope, s, r, s' =>
    (r = .ok () → s' = s.delete matchEvent filter scope) ∧ (r ≠ .ok () → s' = s)
  | _, s, _, s' => s' = s

end StoreState

/-! ### The middlewares around it -/

/-- For an event, the middleware only hands on, or it is `ErrorHandlingMiddleware`. -/
def AroundEvents (middleware : Middleware) : Prop :=
  HandsOnOrAnswers ClientMessage.IsEvent middleware.processInbound

/-- The answered question tells the client about the error of a result. -/
def Reports (channel : ChannelRef) (id : EventId) (result : Except Error Unit) (asked : Asked) :
    Prop :=
  ∃ position e r, asked = ⟨.trySend channel
    ⟨ErrorHandlingMiddleware.errorMessage (.event id) e, position, none⟩, r⟩ ∧ result = .error e

section Chain

variable {matchEvent : Filter → Event → Bool} {handler : EventHandler} {subdomain : Scope}
  {channel : ChannelRef} {kinds : KindRanges} {event : Event} {s s' : StoreState}
  {t : RelayHistory} {outer between inside : List Middleware}

theorem aroundEvents_none {chain : List Middleware} (h : ∀ m ∈ chain, AroundEvents m) :
    inboundChain channel subdomain chain none = .done (.ok ()) :=
  processInboundChain_none channel subdomain (List.forall_mem_map.mpr h)

/-- What the middlewares around a chain add when an event passes them: reports of the error that
comes out of it, which is then no error any more. -/
theorem exec_around (ho : ∀ m ∈ outer, AroundEvents m) {rest : List Middleware}
    {r : Except Failure Unit}
    (hexec : Exec (StoreState.answers matchEvent handler subdomain)
      (inboundChain channel subdomain (outer ++ rest) (some (.event event))) s t r s') :
    ∃ t₁ r₁ t₂, t = t₁ ++ t₂ ∧ Exec (StoreState.answers matchEvent handler subdomain)
        (inboundChain channel subdomain rest (some (.event event))) s t₁ r₁ s' ∧
      (r = r₁ ∨ r = .ok ()) ∧ ∀ asked ∈ t₂, ∃ position e answer, r₁ = .error (.error e) ∧
        asked = ⟨.trySend channel ⟨ErrorHandlingMiddleware.errorMessage (.event event.id) e,
          position, none⟩, answer⟩ := by
  induction outer generalizing t r s' with
  | nil => exact ⟨t, r, [], (List.append_nil t).symm, hexec, .inl rfl, fun _ h => nomatch h⟩
  | cons m outer ih =>
    have ho' : ∀ m' ∈ outer, AroundEvents m' := fun m' hm' => ho m' (List.mem_cons_of_mem _ hm')
    obtain hm | hm := ho m (List.mem_cons_self ..)
    · have hnext : inboundChain channel subdomain (m :: outer ++ rest) (some (.event event)) =
          inboundChain channel subdomain (outer ++ rest) (some (.event event)) := by
        refine hm _ fun message hmessage => ?_
        cases hmessage
        exact ⟨event, rfl⟩
      rw [hnext] at hexec
      exact ih ho' hexec
    · rw [inboundChain, List.cons_append, List.map_cons, processInboundChain, hm,
        ErrorHandlingMiddleware.processInbound] at hexec
      obtain ⟨ti, ri, si, te, rfl, hi, he⟩ := exec_bind.mp hexec
      obtain ⟨t₁, r₁, t₂, rfl, h₁, hr, hreports⟩ := ih ho' hi
      cases ri with
      | ok _ =>
        obtain ⟨rfl, rfl, rfl⟩ := exec_done.mp he
        exact ⟨t₁, r₁, t₂, List.append_nil _, h₁, .inr rfl, hreports⟩
      | error failure =>
        cases failure with
        | other text =>
          obtain ⟨rfl, rfl, rfl⟩ := exec_done.mp he
          exact ⟨t₁, r₁, t₂, List.append_nil _, h₁, .inr rfl, hreports⟩
        | error e =>
          obtain ⟨rs, ss, ts, tn, rfl, hs, hn⟩ := exec_bind.mp he
          obtain ⟨rfl, rfl, rfl⟩ := exec_done.mp hn
          obtain ⟨answer, s₂, t₃, rfl, hanswer, hd⟩ := exec_request_bind.mp hs
          obtain rfl : s₂ = si := hanswer
          obtain ⟨rfl, rfl, rfl⟩ := exec_done.mp hd
          have hr₁ : r₁ = .error (.error e) := by
            obtain h | h := hr
            · exact h.symm
            · cases h
          refine ⟨t₁, r₁, t₂ ++ [_], List.append_assoc .., h₁, .inr rfl, fun asked hasked => ?_⟩
          obtain h | h := List.mem_append.mp hasked
          · exact hreports asked h
          · obtain rfl := List.mem_singleton.mp h
            exact ⟨_, e, answer, hr₁, rfl⟩

/-- What `RelayMiddleware` does with an event, when it is the next. -/
theorem inboundChain_relay (hi : ∀ m ∈ inside, AroundEvents m) :
    inboundChain channel subdomain (RelayMiddleware.middleware kinds :: inside)
        (some (.event event)) =
      (RelayMiddleware.handleEvent kinds ⟨channel, inside.length⟩ event).bind fun result =>
        .done (result.mapError Failure.error) := by
  have hnone : inboundChain channel subdomain inside none = .done (.ok ()) := aroundEvents_none hi
  rw [inboundChain] at hnone
  rw [inboundChain, List.map_cons, processInboundChain]
  simp only [RelayMiddleware.middleware, RelayMiddleware.processInbound, RelayMiddleware.orFail,
    hnone, List.length_map, Script.andThen, Script.mapError, Script.bind_assoc, Script.done_bind]
  congr 1
  funext result
  cases result <;> rfl

/-- An event on its way through the chain. It is handled after it was deleted, and the client may
be told of an error then. -/
theorem exec_expirationChain (ho : ∀ m ∈ outer, AroundEvents m)
    (hb : ∀ m ∈ between, AroundEvents m) (hi : ∀ m ∈ inside, AroundEvents m)
    {r : Except Failure Unit}
    (hexec : Exec (StoreState.answers matchEvent handler subdomain)
      (inboundChain channel subdomain (outer ++ Nip40ExpirationMiddleware.middleware kinds ::
        (between ++ RelayMiddleware.middleware kinds :: inside)) (some (.event event))) s t r s') :
    ∃ t₁ s₁ t₂ result t₃, t = t₁ ++ (t₂ ++ t₃) ∧
      Exec (StoreState.answers matchEvent handler subdomain)
        (Nip40ExpirationMiddleware.deleteExpired kinds subdomain event) s t₁ () s₁ ∧
      Exec (StoreState.answers matchEvent handler subdomain)
        (RelayMiddleware.handleEvent kinds ⟨channel, inside.length⟩ event) s₁ t₂ result s' ∧
      ∀ asked ∈ t₃, Reports channel event.id result asked := by
  obtain ⟨ta, ra, tb, rfl, ha, -, hreports⟩ := exec_around ho hexec
  obtain ⟨t₁, ⟨⟩, s₁, tc, rfl, h₁, hc⟩ := exec_bind.mp ha
  obtain ⟨td, rd, te, rfl, hd, hra, hreports'⟩ := exec_around hb hc
  rw [inboundChain_relay hi] at hd
  obtain ⟨t₂, result, s₂, t₄, rfl, h₂, h₄⟩ := exec_bind.mp hd
  obtain ⟨rfl, rfl, rfl⟩ := exec_done.mp h₄
  have herror : ∀ {e}, result.mapError Failure.error = .error (.error e) → result = .error e := by
    intro e h
    cases result with
    | ok _ => cases h
    | error e' =>
      cases h
      rfl
  refine ⟨t₁, s₁, t₂, result, te ++ tb, by simp, h₁, h₂, fun asked hasked => ?_⟩
  obtain h | h := List.mem_append.mp hasked
  · obtain ⟨position, e, answer, he, rfl⟩ := hreports' asked h
    exact ⟨position, e, answer, rfl, herror he⟩
  · obtain ⟨position, e, answer, he, rfl⟩ := hreports asked h
    obtain rfl | rfl := hra
    · exact ⟨position, e, answer, rfl, herror he⟩
    · cases he

/-! ### What the store is asked -/

/-- The answered question belongs to the deletion of these events. -/
def Asked.Deletes (filter : Filter) (scope : Scope) : Asked → Prop
  | ⟨.now, _⟩ | ⟨.subscriptionCoordinator, _⟩ | ⟨.scopedView _, _⟩ => True
  | ⟨.delete filter' scope', _⟩ => filter' = filter ∧ scope' = scope
  | _ => False

/-- The deletion of an event that has expired: it succeeds, or it changes nothing. -/
theorem exec_deleteExpired {expiration : Timestamp}
    (hexpired : getEventExpiration event = some expiration) (hnow : expiration < s.now)
    (hexec : Exec (StoreState.answers matchEvent handler subdomain)
      (Nip40ExpirationMiddleware.deleteExpired kinds subdomain event) s t () s') :
    (∀ asked ∈ t, Asked.Deletes (Filter.id event.id) subdomain asked) ∧
      ((⟨.delete (Filter.id event.id) subdomain, .ok ()⟩ : Asked) ∈ t ∧
          s'.stored = (s.delete matchEvent (Filter.id event.id) subdomain).stored ∨
        (⟨.delete (Filter.id event.id) subdomain, .ok ()⟩ : Asked) ∉ t ∧ s'.stored = s.stored) := by
  rw [Nip40ExpirationMiddleware.deleteExpired, hexpired] at hexec
  obtain ⟨now, _, t₁, rfl, ⟨hle, rfl⟩, h₁⟩ := exec_request_bind.mp hexec
  rw [if_pos (lt_of_lt_of_le hnow hle)] at h₁
  obtain ⟨coordinator, _, t₂, rfl, rfl, h₂⟩ := exec_request_bind.mp h₁
  cases coordinator with
  | none =>
    obtain ⟨rfl, -, rfl⟩ := exec_done.mp h₂
    exact ⟨by simp [Asked.Deletes], .inr ⟨by simp, rfl⟩⟩
  | some coordinator =>
    obtain ⟨t₃, r, s₃, t₄, rfl, h₃, h₄⟩ := exec_bind.mp h₂
    obtain ⟨rfl, -, rfl⟩ := exec_done.mp h₄
    obtain ⟨t₅, r₅, s₅, t₆, rfl, h₅, h₆⟩ := exec_bind.mp h₃
    obtain ⟨rfl, -, rfl⟩ := exec_done.mp h₆
    obtain ⟨t₇, r₇, s₇, t₈, rfl, h₇, h₈⟩ := exec_bind.mp h₅
    obtain ⟨rfl, -, rfl⟩ := exec_done.mp h₈
    obtain ⟨view, _, t₉, rfl, rfl, h₉⟩ := exec_request_bind.mp h₇
    cases view with
    | error e =>
      obtain ⟨rfl, -, rfl⟩ := exec_done.mp h₉
      exact ⟨by simp [Asked.Deletes], .inr ⟨by simp, rfl⟩⟩
    | ok _ =>
      obtain ⟨answer, _, _, rfl, ⟨hdeleted, hkept⟩, h₁₀⟩ := exec_ask.mp h₉
      obtain ⟨rfl, -, rfl⟩ := exec_done.mp h₁₀
      refine ⟨by simp [Asked.Deletes], ?_⟩
      cases answer with
      | ok _ => exact .inl ⟨by simp, by rw [hdeleted rfl]; rfl⟩
      | error e => exact .inr ⟨by simp, by rw [hkept (fun h => nomatch h)]⟩

/-- The answers with which the processor hands over its commands, and what follows. -/
abbrev accepted (event : Event) (context : EventContext) (commands : List StoreCommand)
    (coordinator : Option SubscriptionCoordinator) (t : RelayHistory) : RelayHistory :=
  ⟨.eventContext, context⟩ :: ⟨.handleEvent event context, .ok commands⟩ ::
    ⟨.subscriptionCoordinator, coordinator⟩ :: t

/-- The store was asked to save the event, and did not. -/
inductive NotSaved (event : Event) (scope : Scope) : RelayHistory → Prop where
  | noView (e : String) : NotSaved event scope [⟨.scopedView scope, .error e⟩]
  | failed (e : String) : NotSaved event scope
    [⟨.scopedView scope, .ok ()⟩, ⟨.saveEvent event scope, .error e⟩]

/-- What `handle_event` does when the processor stores what it accepts. -/
inductive EventRun (channel : ChannelRef) (event : Event) (scope : Scope) :
    RelayHistory → Except Error Unit → Prop where
  | rejected (context : EventContext) (e : Error) : EventRun channel event scope
    [⟨.eventContext, context⟩, ⟨.handleEvent event context, .error e⟩] (.error e)
  | noCoordinator (context : EventContext) (commands : List StoreCommand) :
    EventRun channel event scope (accepted event context commands none [])
      (.error (.internal "No subscription coordinator available"))
  | notSaved (context : EventContext) (commands : List StoreCommand)
    (coordinator : SubscriptionCoordinator) {t : RelayHistory} (ht : NotSaved event scope t)
    (text : String) (position : ℕ) (answer : Except Channel.TrySendError Unit) (e : String) :
    EventRun channel event scope (accepted event context commands (some coordinator)
      (t ++ [⟨.trySend channel ⟨.ok event.id false text, position, none⟩, answer⟩]))
      (.error (.database e))
  | saved (context : EventContext) (commands : List StoreCommand)
    (coordinator : SubscriptionCoordinator) (status : SaveEventStatus) (position : ℕ)
    (answer : Except Channel.TrySendError Unit) :
    EventRun channel event scope (accepted event context commands (some coordinator)
      [⟨.scopedView scope, .ok ()⟩, ⟨.saveEvent event scope, .ok status⟩,
        ⟨.trySend channel ⟨.ok event.id true "", position, none⟩, answer⟩,
        ⟨.distributeEvent event scope, ()⟩]) (.ok ())

/-- The processor stores what it accepts. -/
def StoresAccepted (handler : EventHandler) : Prop :=
  ∀ event context commands, handler event context (.ok commands) →
    ∃ responseHandler, commands = [.saveSignedEvent event context.subdomain responseHandler]

/-- The answer to the client, whose sender takes it or not. -/
theorem exec_respondSaved {sender : MessageSender} {saved : Except Error Unit} {u : Unit}
    (hexec : Exec (StoreState.answers matchEvent handler subdomain)
      (SubscriptionCoordinator.respondSaved event saved (some (.messageSender sender))) s t u s') :
    ∃ position answer, t = [⟨.trySend sender.channel
      ⟨SubscriptionCoordinator.okMessage event saved, position, none⟩, answer⟩] := by
  obtain ⟨t₁, r, s₁, t₂, rfl, h₁, h₂⟩ := exec_bind.mp hexec
  obtain ⟨rfl, -, -⟩ := exec_done.mp h₂
  obtain ⟨answer, s₃, t₃, rfl, -, h₃⟩ := exec_request_bind.mp h₁
  obtain ⟨rfl, -, -⟩ := exec_done.mp h₃
  exact ⟨_, answer, rfl⟩

/-- Saving an event for a client. -/
theorem exec_saveFor {sender : MessageSender} {r : Except Error Unit}
    (hexec : Exec (StoreState.answers matchEvent handler subdomain)
      (SubscriptionCoordinator.saveAndBroadcast kinds
        (.saveSignedEvent event subdomain (some (.messageSender sender)))) s t r s') :
    (∃ t₁ text position answer e, NotSaved event subdomain t₁ ∧ r = .error e ∧ t = t₁ ++
        [⟨.trySend sender.channel ⟨.ok event.id false text, position, none⟩, answer⟩]) ∨
    ∃ status position answer, r = .ok () ∧
      t = [⟨.scopedView subdomain, .ok ()⟩, ⟨.saveEvent event subdomain, .ok status⟩,
        ⟨.trySend sender.channel ⟨.ok event.id true "", position, none⟩, answer⟩,
        ⟨.distributeEvent event subdomain, ()⟩] := by
  obtain ⟨t₁, saved, s₁, t₂, rfl, h₁, h₂⟩ := exec_bind.mp hexec
  obtain ⟨t₃, r₃, s₃, t₄, rfl, h₃, h₄⟩ := exec_bind.mp h₁
  obtain ⟨rfl, rfl, rfl⟩ := exec_done.mp h₄
  obtain ⟨t₅, ⟨⟩, s₅, t₆, rfl, h₅, h₆⟩ := exec_bind.mp h₂
  obtain ⟨t₇, ⟨⟩, s₇, t₈, rfl, h₇, h₈⟩ := exec_bind.mp h₆
  obtain ⟨rfl, rfl, rfl⟩ := exec_done.mp h₈
  obtain ⟨position, answer, rfl⟩ := exec_respondSaved h₅
  -- without a view, or when the store fails, nothing follows the answer
  obtain ⟨view, s₉, t₉, rfl, -, h₉⟩ := exec_request_bind.mp h₃
  cases view with
  | error e =>
    obtain ⟨rfl, rfl, -⟩ := exec_done.mp h₉
    obtain ⟨rfl, -, -⟩ := exec_done.mp h₇
    exact .inl ⟨_, _, position, answer, _, .noView e, rfl, rfl⟩
  | ok _ =>
    obtain ⟨status, s₁₀, t₁₀, rfl, -, h₁₀⟩ := exec_request_bind.mp h₉
    cases status with
    | error e =>
      obtain ⟨rfl, rfl, -⟩ := exec_done.mp h₁₀
      obtain ⟨rfl, -, -⟩ := exec_done.mp h₇
      exact .inl ⟨_, _, position, answer, _, .failed e, rfl, rfl⟩
    | ok status =>
      obtain ⟨rfl, rfl, -⟩ := exec_done.mp h₁₀
      obtain ⟨⟨⟩, s₁₁, t₁₁, rfl, -, h₁₁⟩ := exec_ask.mp h₇
      obtain ⟨rfl, -, -⟩ := exec_done.mp h₁₁
      exact .inr ⟨status, position, answer, rfl, rfl⟩

/-- The ways through `handle_event`. -/
theorem exec_handleEvent (hprocessor : StoresAccepted handler) {sender : MessageSender}
    {result : Except Error Unit}
    (hexec : Exec (StoreState.answers matchEvent handler subdomain)
      (RelayMiddleware.handleEvent kinds sender event) s t result s') :
    EventRun sender.channel event subdomain t result := by
  obtain ⟨context, _, _, rfl, ⟨rfl, rfl⟩, h₁⟩ := exec_request_bind.mp hexec
  obtain ⟨answer, _, _, rfl, ⟨hanswer, rfl⟩, h₂⟩ := exec_request_bind.mp h₁
  cases answer with
  | error e =>
    obtain ⟨rfl, rfl, -⟩ := exec_done.mp h₂
    exact .rejected context e
  | ok commands =>
    obtain ⟨responseHandler, rfl⟩ := hprocessor event context commands hanswer
    obtain ⟨coordinator, _, _, rfl, rfl, h₃⟩ := exec_request_bind.mp h₂
    cases coordinator with
    | none =>
      obtain ⟨rfl, rfl, -⟩ := exec_done.mp h₃
      exact .noCoordinator context _
    | some coordinator =>
      obtain ⟨t₄, r₄, s₄, t₅, rfl, h₄, h₅⟩ := exec_bind.mp h₃
      obtain ⟨t₆, r₆, s₆, t₇, rfl, h₆, h₇⟩ := exec_bind.mp h₄
      obtain ⟨rfl, rfl, rfl⟩ := exec_done.mp h₇
      obtain ⟨t₁, text, position, answer, e, ht, rfl, rfl⟩ | ⟨status, position, answer, rfl, rfl⟩ :=
        exec_saveFor h₆
      · obtain ⟨rfl, rfl, -⟩ := exec_done.mp h₅
        simp only [List.append_nil]
        exact .notSaved context _ coordinator ht text position answer _
      · obtain ⟨rfl, rfl, -⟩ := exec_done.mp h₅
        simp only [List.append_nil]
        exact .saved context _ coordinator status position answer

/-- The store is as before, unless it was told to save or to delete and did so. -/
theorem stored_of_exec {α : Type} {p : Relay α} {a : α}
    (hexec : Exec (StoreState.answers matchEvent handler subdomain) p s t a s')
    (hsaved : ∀ event scope, (⟨.saveEvent event scope, .ok .success⟩ : Asked) ∉ t)
    (hdeleted : ∀ filter scope, (⟨.delete filter scope, .ok ()⟩ : Asked) ∉ t) :
    s'.stored = s.stored := by
  induction hexec with
  | done a s => rfl
  | @ask q n s s₁ s₂ t a r hr _ ih =>
    rw [ih (fun event scope h => hsaved event scope (List.mem_cons_of_mem _ h))
      (fun filter scope h => hdeleted filter scope (List.mem_cons_of_mem _ h))]
    cases q with
    | now | eventContext | handleEvent => rw [hr.2]
    | saveEvent event scope =>
      rw [hr.2 fun heq => hsaved event scope (heq ▸ List.mem_cons_self ..)]
    | delete filter scope =>
      rw [hr.2 fun heq => hdeleted filter scope (heq ▸ List.mem_cons_self ..)]
    | _ => rw [show s₁ = s from hr]

/-! ### What the client is told -/

/-- If the question puts something into a channel, it tells the client that the event was refused.
The store does not change. -/
def Asked.Refusal (channel : ChannelRef) (id : EventId) : Asked → Prop
  | ⟨.trySend ch packet, _⟩ => ch = channel ∧ ∃ text, packet.message = .ok id false text
  | ⟨.saveEvent _ _, .ok _⟩ | ⟨.delete _ _, _⟩ | ⟨.distributeEvent _ _, _⟩ => False
  | _ => True

theorem refusal_of_reports {result : Except Error Unit} {e : Error} {id : EventId}
    {asked : Asked} (h : Reports channel id result asked) (hresult : result = .error e)
    (he : e.Refuses id) : Asked.Refusal channel id asked := by
  obtain ⟨position, e', r, rfl, heq⟩ := h
  rw [hresult] at heq
  cases heq
  exact ⟨rfl, errorMessage_refuses he⟩

/-- The ways through `handle_event`, by what the client is told: that the event was accepted,
something else, or that it was refused. -/
theorem EventRun.told {scope : Scope} {result : Except Error Unit}
    (h : EventRun channel event scope t result) :
    (result = .ok () ∧ (∃ status, (⟨.saveEvent event scope, .ok status⟩ : Asked) ∈ t) ∧
      (event.id, false) ∉ okMessages channel t) ∨
    (∃ context e, result = .error e ∧ ¬ e.Refuses event.id ∧
      t = [⟨.eventContext, context⟩, ⟨.handleEvent event context, .error e⟩]) ∨
    ∃ e, result = .error e ∧ e.Refuses event.id ∧
      (∀ asked ∈ t, Asked.Refusal channel event.id asked) ∧
      ∀ context e', (⟨.handleEvent event context, .error e'⟩ : Asked) ∈ t →
        e'.Refuses event.id := by
  cases h with
  | rejected context e =>
    by_cases he : e.Refuses event.id
    · refine .inr (.inr ⟨e, rfl, he, by simp [Asked.Refusal], fun context' e' h => ?_⟩)
      have heq : e' = e := by simp_all
      rwa [heq]
    · exact .inr (.inl ⟨context, e, rfl, he, rfl⟩)
  | noCoordinator context commands =>
    exact .inr (.inr ⟨_, rfl, trivial, by simp [Asked.Refusal], by simp⟩)
  | notSaved context commands coordinator ht text position answer e =>
    refine .inr (.inr ⟨_, rfl, trivial, ?_⟩)
    cases ht <;> exact ⟨by simp [Asked.Refusal], by simp⟩
  | saved context commands coordinator status position answer =>
    refine .inl ⟨rfl, ⟨status, by simp⟩, fun h => ?_⟩
    obtain ⟨text, position', json, hasked⟩ := mem_okMessages.mp h
    simp at hasked

/-- Whatever the channel takes of refusals tells the client that the event was refused. -/
theorem mem_okMessages_of_refusal {id : EventId}
    (h : ∀ asked ∈ t, Asked.Refusal channel id asked) {packet : Packet}
    (hasked : (⟨.trySend channel packet, .ok ()⟩ : Asked) ∈ t) :
    (id, false) ∈ okMessages channel t := by
  obtain ⟨message, position, json⟩ := packet
  obtain ⟨-, text, rfl⟩ := h _ hasked
  exact mem_okMessages.mpr ⟨text, position, json, hasked⟩

theorem not_accepted_of_refusal {id : EventId}
    (h : ∀ asked ∈ t, Asked.Refusal channel id asked) : (id, true) ∉ okMessages channel t := by
  intro hok
  obtain ⟨text, position, json, hasked⟩ := mem_okMessages.mp hok
  obtain ⟨-, text', heq⟩ := h _ hasked
  cases heq

theorem not_told_of_deletes {filter : Filter} {scope : Scope} {packet : Packet}
    {r : Except Channel.TrySendError Unit} (h : ∀ asked ∈ t, Asked.Deletes filter scope asked) :
    (⟨.trySend channel packet, r⟩ : Asked) ∉ t := fun hasked => h _ hasked

/-! ### Neither kept nor delivered -/

/-- No connection with this chain is sent the event any more. -/
def Withheld (matchEvent : Filter → Event → Bool) (handler : EventHandler) (chain : List Middleware)
    (now : Timestamp) (event : Event) : Prop :=
  ∀ subdomain sub s t r s', now ≤ s.now →
    Exec (StoreState.answers matchEvent handler subdomain)
      (processOutboundChain 0 (chain.map Middleware.processOutbound) (some (.event sub event)))
      s t r s' → ∀ message, r ≠ .ok (some message)

/-- The event is not in the store, the client was told that it was refused, and not that it was
accepted, and if it was distributed, no connection is sent it. -/
structure NeitherKeptNorDelivered (matchEvent : Filter → Event → Bool) (handler : EventHandler)
    (subdomain : Scope) (channel : ChannelRef) (chain : List Middleware) (event : Event)
    (s : StoreState) (t : RelayHistory) (s' : StoreState) : Prop where
  notStored : event ∉ s'.stored subdomain
  refused : (event.id, false) ∈ okMessages channel t
  notAccepted : (event.id, true) ∉ okMessages channel t
  withheld : ∀ scope, (⟨.distributeEvent event scope, ()⟩ : Asked) ∈ t →
    Withheld matchEvent handler chain s.now event

/-- The services refuse the event: the store fails to save it, or is not asked to, and if it has the
event, it deletes it. The processor has no objection that is answered by something else than an
OK message for the event, and the channel takes an answer. -/
structure ServicesRefuse (subdomain : Scope) (channel : ChannelRef) (event : Event)
    (s : StoreState) (t : RelayHistory) : Prop where
  notSaved : ∀ status, (⟨.saveEvent event subdomain, .ok status⟩ : Asked) ∉ t
  deleted : event ∈ s.stored subdomain →
    (⟨.delete (Filter.id event.id) subdomain, .ok ()⟩ : Asked) ∈ t
  objects : ∀ context e, (⟨.handleEvent event context, .error e⟩ : Asked) ∈ t →
    e.Refuses event.id
  answered : ∃ packet, (⟨.trySend channel packet, .ok ()⟩ : Asked) ∈ t

/-- The store after an event was deleted and then refused. -/
theorem notStored_iff {s₁ : StoreState} {t₁ t₂ : RelayHistory}
    (hmatch : ∀ eventId e, matchEvent (Filter.id eventId) e = true ↔ e.id = eventId)
    (hdeleted : (⟨.delete (Filter.id event.id) subdomain, .ok ()⟩ : Asked) ∈ t₁ ∧
          s₁.stored = (s.delete matchEvent (Filter.id event.id) subdomain).stored ∨
        (⟨.delete (Filter.id event.id) subdomain, .ok ()⟩ : Asked) ∉ t₁ ∧ s₁.stored = s.stored)
    (hrefusal : ∀ asked ∈ t₂, Asked.Refusal channel event.id asked) :
    event ∉ s₁.stored subdomain ↔ (event ∈ s.stored subdomain →
      (⟨.delete (Filter.id event.id) subdomain, .ok ()⟩ : Asked) ∈ t₁ ++ t₂) := by
  obtain ⟨hmem, hstored⟩ | ⟨hmem, hstored⟩ := hdeleted
  · refine iff_of_true ?_ fun _ => List.mem_append_left _ hmem
    rw [hstored]
    simp [StoreState.delete, hmatch]
  · have hnot : (⟨.delete (Filter.id event.id) subdomain, .ok ()⟩ : Asked) ∉ t₁ ++ t₂ := fun h =>
      (List.mem_append.mp h).elim hmem fun h => hrefusal _ h
    rw [hstored]
    exact ⟨fun hnotin hin => absurd hin hnotin, fun h hin => hnot (h hin)⟩

/-- **When an expired event is neither kept nor delivered.** An event that has expired passes a
chain in which `Nip40ExpirationMiddleware` stands outside `RelayMiddleware`, and the others hand
events on or answer errors. It is not in the store then, and the client was told so, exactly if the
services refuse it. The middleware itself does not keep the event from being stored. -/
theorem expired_dropped_iff (ho : ∀ m ∈ outer, AroundEvents m)
    (hb : ∀ m ∈ between, AroundEvents m) (hi : ∀ m ∈ inside, AroundEvents m)
    (hmatch : ∀ eventId e, matchEvent (Filter.id eventId) e = true ↔ e.id = eventId)
    (hprocessor : StoresAccepted handler) {expiration : Timestamp}
    (hexpired : getEventExpiration event = some expiration) (hnow : expiration < s.now)
    {r : Except Failure Unit}
    (hexec : Exec (StoreState.answers matchEvent handler subdomain)
      (inboundChain channel subdomain (outer ++ Nip40ExpirationMiddleware.middleware kinds ::
        (between ++ RelayMiddleware.middleware kinds :: inside)) (some (.event event))) s t r s') :
    NeitherKeptNorDelivered matchEvent handler subdomain channel
        (outer ++ Nip40ExpirationMiddleware.middleware kinds ::
          (between ++ RelayMiddleware.middleware kinds :: inside)) event s t s' ↔
      ServicesRefuse subdomain channel event s t := by
  obtain ⟨t₁, s₁, t₂, result, t₃, rfl, h₁, h₂, h₃⟩ := exec_expirationChain ho hb hi hexec
  obtain ⟨hdeletes, hdeleted⟩ := exec_deleteExpired hexpired hnow h₁
  have hquiet : okMessages channel t₁ = [] := by
    refine List.eq_nil_iff_forall_not_mem.mpr fun ⟨id, status⟩ hok => ?_
    obtain ⟨text, position, json, hasked⟩ := mem_okMessages.mp hok
    exact not_told_of_deletes hdeletes hasked
  obtain ⟨rfl, ⟨status, hsaved⟩, htold⟩ | ⟨context, e, rfl, he, rfl⟩ | ⟨e, rfl, he, hrefusal, hobjects⟩ :=
    (exec_handleEvent hprocessor h₂).told
  · -- the event was saved, and nothing is reported
    refine iff_of_false (fun h => ?_) fun h => h.notSaved status (by simp [hsaved])
    have hnone : t₃ = [] := List.eq_nil_iff_forall_not_mem.mpr fun asked hasked => by
      obtain ⟨_, _, _, -, h⟩ := h₃ asked hasked
      cases h
    have hrefused := h.refused
    rw [hnone, List.append_nil, okMessages_append, hquiet, List.nil_append] at hrefused
    exact htold hrefused
  · -- the processor objects, but its error is not answered with an OK message for the event
    refine iff_of_false (fun h => ?_) fun h => he (h.objects context e (by simp))
    have hrefused := h.refused
    rw [okMessages_append, hquiet, List.nil_append] at hrefused
    obtain ⟨text, position, json, hasked⟩ := mem_okMessages.mp hrefused
    obtain h | h := List.mem_append.mp hasked
    · simp at h
    · obtain ⟨_, e', _, heq, hresult⟩ := h₃ _ h
      obtain ⟨hcall, -⟩ := Sigma.mk.inj heq
      injection hcall with _ hpacket
      injection hpacket with hmessage
      cases hresult
      exact errorMessage_of_not_refuses he false text hmessage.symm
  · -- everything that follows the deletion is a refusal
    have hall : ∀ asked ∈ t₂ ++ t₃, Asked.Refusal channel event.id asked := fun asked hasked =>
      (List.mem_append.mp hasked).elim (hrefusal asked) fun h =>
        refusal_of_reports (h₃ asked h) rfl he
    have hstored : s'.stored = s₁.stored := stored_of_exec h₂
      (fun event scope h => hrefusal _ h) fun filter scope h => hrefusal _ h
    have hgone := notStored_iff (s := s) hmatch hdeleted hall
    rw [← hstored] at hgone
    refine ⟨fun h => ⟨fun status hasked => ?_, hgone.mp h.notStored, fun context e' hasked => ?_, ?_⟩,
      fun h => ⟨hgone.mpr h.deleted, ?_, ?_, fun scope hasked => ?_⟩⟩
    · exact (List.mem_append.mp hasked).elim (fun h => hdeletes _ h) fun h => hall _ h
    · obtain h | h := List.mem_append.mp hasked
      · exact (hdeletes _ h).elim
      · obtain h | h := List.mem_append.mp h
        · exact hobjects context e' h
        · obtain ⟨_, _, _, heq, -⟩ := h₃ _ h
          cases heq
    · obtain ⟨text, position, json, hasked⟩ := mem_okMessages.mp h.refused
      exact ⟨_, hasked⟩
    · obtain ⟨packet, hasked⟩ := h.answered
      rw [okMessages_append, hquiet, List.nil_append]
      exact mem_okMessages_of_refusal hall ((List.mem_append.mp hasked).resolve_left
        (not_told_of_deletes hdeletes))
    · rw [okMessages_append, hquiet, List.nil_append]
      exact not_accepted_of_refusal hall
    · exact ((List.mem_append.mp hasked).elim (fun h => hdeletes _ h) fun h => hall _ h).elim

end Chain

/-! ### Nobody is sent it -/

/-- What comes out of the middleware is the EVENT message that came in, if anything. -/
structure OnlyFilters (middleware : Middleware) : Prop where
  dropped : KeepsDropped middleware.processOutbound
  event : ∀ t sub event result,
    Runs (middleware.processOutbound (some (.event sub event))) t (.ok result) →
      result = none ∨ result = some (.event sub event)

theorem onlyFilters_identity : OnlyFilters .identity where
  dropped t result h := by
    obtain ⟨-, heq⟩ := runs_done.mp h
    exact Except.ok.inj heq
  event t sub event result h := by
    obtain ⟨-, heq⟩ := runs_done.mp h
    exact .inr (Except.ok.inj heq)

theorem onlyFilters_errorHandling : OnlyFilters ErrorHandlingMiddleware.middleware where
  dropped := onlyFilters_identity.dropped
  event := onlyFilters_identity.event

theorem onlyFilters_relay (kinds : KindRanges) :
    OnlyFilters (RelayMiddleware.middleware kinds) where
  dropped t result h := by
    obtain ⟨-, heq⟩ := runs_done.mp h
    exact Except.ok.inj heq
  event t sub event result h := by
    obtain ⟨context, t₁, rfl, h₁⟩ := runs_request_bind.mp h
    obtain ⟨r, t₂, rfl, h₂⟩ := runs_request_bind.mp h₁
    match r with
    | .ok true =>
      obtain ⟨-, heq⟩ := runs_done.mp h₂
      exact .inr (Except.ok.inj heq)
    | .ok false =>
      obtain ⟨-, heq⟩ := runs_done.mp h₂
      exact .inl (Except.ok.inj heq)
    | .error e => cases (runs_done.mp h₂).2

section Outbound

variable {matchEvent : Filter → Event → Bool} {handler : EventHandler} {event : Event}
  {outer inner : List Middleware}

/-- The clock does not go back. -/
theorem now_le_of_exec {subdomain : Scope} {s s' : StoreState} {t : RelayHistory} {α : Type}
    {p : Relay α} {a : α}
    (hexec : Exec (StoreState.answers matchEvent handler subdomain) p s t a s') :
    s.now ≤ s'.now := by
  induction hexec with
  | done a s => exact le_refl _
  | @ask q n s s₁ s₂ t a r hr _ ih =>
    refine le_trans ?_ ih
    cases q with
    | now =>
      obtain ⟨hle, rfl⟩ := hr
      exact hle
    | eventContext | handleEvent => rw [hr.2]
    | saveEvent event scope =>
      by_cases h : r = .ok .success
      · rw [(hr.1 h).now]
      · rw [hr.2 h]
    | delete filter scope =>
      by_cases h : r = .ok ()
      · rw [hr.1 h]
        exact le_refl _
      · rw [hr.2 h]
    | _ => rw [show s₁ = s from hr]

/-- An EVENT message on its way through middlewares that only filter. -/
theorem onlyFilters_chain (hinner : ∀ m ∈ inner, OnlyFilters m) {sub : SubscriptionId}
    {t : RelayHistory} {result : Option RelayMessage}
    (hrun : Runs (processOutboundChain 0 (inner.map Middleware.processOutbound)
      (some (.event sub event))) t (.ok result)) :
    result = none ∨ result = some (.event sub event) := by
  induction inner generalizing t result with
  | nil =>
    obtain ⟨-, heq⟩ := runs_done.mp hrun
    exact .inr (Except.ok.inj heq)
  | cons m inner ih =>
    rw [List.map_cons, processOutboundChain, if_pos (Nat.zero_le _)] at hrun
    obtain ⟨t₁, message, t₂, rfl, h₁, h₂⟩ := runs_andThen_ok.mp hrun
    have hm := hinner m (List.mem_cons_self ..)
    obtain rfl | rfl := ih (fun m' hm' => hinner m' (List.mem_cons_of_mem _ hm')) h₁
    · exact .inl (hm.dropped _ _ h₂)
    · exact hm.event _ _ _ _ h₂

/-- An expired event does not get past the middleware. -/
theorem exec_expired_dropped {kinds : KindRanges} (houter : ∀ m ∈ outer, OnlyFilters m)
    (hinner : ∀ m ∈ inner, OnlyFilters m) {expiration : Timestamp}
    (hexpired : getEventExpiration event = some expiration) {subdomain : Scope}
    {sub : SubscriptionId} {s s' : StoreState} (hnow : expiration < s.now) {t : RelayHistory}
    {result : Option RelayMessage}
    (hexec : Exec (StoreState.answers matchEvent handler subdomain)
      (processOutboundChain 0 ((outer ++ Nip40ExpirationMiddleware.middleware kinds :: inner).map
        Middleware.processOutbound) (some (.event sub event))) s t (.ok result) s') :
    result = none := by
  induction outer generalizing t result s' with
  | nil =>
    rw [List.nil_append, List.map_cons, processOutboundChain, if_pos (Nat.zero_le _)] at hexec
    obtain ⟨t₁, r₁, s₁, t₂, rfl, h₁, h₂⟩ := exec_bind.mp hexec
    cases r₁ with
    | error e => cases (exec_done.mp h₂).2.1
    | ok passed =>
      obtain rfl | rfl := onlyFilters_chain hinner h₁.runs
      · exact Except.ok.inj (exec_done.mp h₂).2.1
      · simp only [Nip40ExpirationMiddleware.middleware, Nip40ExpirationMiddleware.processOutbound,
          hexpired] at h₂
        obtain ⟨now, _, _, rfl, ⟨hle, rfl⟩, h₃⟩ := exec_request_bind.mp h₂
        have hexpired' : expiration < now :=
          lt_of_lt_of_le hnow (le_trans (now_le_of_exec h₁) hle)
        rw [if_pos hexpired'] at h₃
        exact Except.ok.inj (exec_done.mp h₃).2.1
  | cons m outer ih =>
    rw [List.cons_append, List.map_cons, processOutboundChain, if_pos (Nat.zero_le _)] at hexec
    obtain ⟨t₁, r₁, s₁, t₂, rfl, h₁, h₂⟩ := exec_bind.mp hexec
    cases r₁ with
    | error e => cases (exec_done.mp h₂).2.1
    | ok passed =>
      obtain rfl : passed = none := ih (fun m' hm' => houter m' (List.mem_cons_of_mem _ hm')) h₁
      exact (houter m (List.mem_cons_self ..)).dropped _ _ h₂.runs

/-- **No connection behind the middleware is sent an expired event**, when the other middlewares
only filter EVENT messages. -/
theorem expired_withheld {kinds : KindRanges} (houter : ∀ m ∈ outer, OnlyFilters m)
    (hinner : ∀ m ∈ inner, OnlyFilters m) {expiration now : Timestamp}
    (hexpired : getEventExpiration event = some expiration) (hnow : expiration < now) :
    Withheld matchEvent handler (outer ++ Nip40ExpirationMiddleware.middleware kinds :: inner) now
      event := by
  intro subdomain sub s t r s' hle hexec message hr
  subst hr
  cases exec_expired_dropped houter hinner hexpired (lt_of_lt_of_le hnow hle) hexec

end Outbound

/-! ### Examples -/

/-- A note that has expired in the third second. -/
def expiredNote : Event := { Event.note 5 with tags := [⟨"expiration", ["3"]⟩] }

theorem getEventExpiration_expiredNote : getEventExpiration expiredNote = some 3 := by decide

/-- The clock is at ten, and the note was stored before it expired. -/
def exampleStore : StoreState where
  now := 10
  stored scope := if scope = .default then [expiredNote] else []

/-- A processor that stores everything. -/
def storeAll : EventHandler := fun event context r =>
  r = .ok [.saveSignedEvent event context.subdomain none]

theorem storesAccepted_storeAll : StoresAccepted storeAll := fun _ _ _ h =>
  ⟨none, Except.ok.inj h⟩

theorem matchEvent_id (eventId : EventId) (e : Event) :
    Filter.matchEvent (Filter.id eventId) e = true ↔ e.id = eventId := by
  simp [Filter.matchEvent, Filter.id, Filter.new, Filter.admits]

/-- The chain of the builder's order, without the middlewares that only hand on. -/
def expirationChain : List Middleware :=
  [ErrorHandlingMiddleware.middleware] ++ Nip40ExpirationMiddleware.middleware .nip01 ::
    ([] ++ RelayMiddleware.middleware .nip01 :: [])

/-- The note arrives once more: it is deleted, and the processor accepts it. -/
def arrives (t : RelayHistory) : RelayHistory :=
  [⟨.now, 10⟩, ⟨.subscriptionCoordinator, some ⟨"alice", ⟨0, 0⟩, 500⟩⟩,
    ⟨.scopedView .default, .ok ()⟩, ⟨.delete (Filter.id 5) .default, .ok ()⟩] ++
  accepted expiredNote ⟨none, .default, 0⟩ [.saveSignedEvent expiredNote .default none]
    (some ⟨"alice", ⟨0, 0⟩, 500⟩) (⟨.scopedView .default, .ok ()⟩ :: t)

/-- The store has no room for the note, so it is refused. -/
theorem full_store_drops_expired :
    ∃ t s', Exec (StoreState.answers Filter.matchEvent storeAll .default)
        (inboundChain 0 .default expirationChain (some (.event expiredNote))) exampleStore t
        (.ok ()) s' ∧
      NeitherKeptNorDelivered Filter.matchEvent storeAll .default 0 expirationChain expiredNote
        exampleStore t s' := by
  let failed : Error := .internal "no room"
  let t : RelayHistory := arrives [⟨.saveEvent expiredNote .default, .error "no room"⟩,
    ⟨.trySend 0 ⟨.ok 5 false failed.display, 0, none⟩, .ok ()⟩,
    ⟨.trySend 0 ⟨.ok 5 false ("error: " ++ (Error.database failed.display).display), 2, none⟩,
      .ok ()⟩]
  have hexec : Exec (StoreState.answers Filter.matchEvent storeAll .default)
      (inboundChain 0 .default expirationChain (some (.event expiredNote))) exampleStore t (.ok ())
      ({ exampleStore with now := 10 }.delete Filter.matchEvent (Filter.id 5) .default) :=
    .ask _ ⟨le_refl _, rfl⟩ <| .ask _ rfl <| .ask _ rfl <|
      .ask _ ⟨fun _ => rfl, fun h => absurd rfl h⟩ <|
      .ask _ ⟨rfl, rfl⟩ <| .ask _ ⟨rfl, rfl⟩ <| .ask _ rfl <| .ask _ rfl <|
      .ask _ ⟨fun h => (nomatch h), fun _ => rfl⟩ <| .ask _ rfl <| .ask _ rfl <| .done _ _
  have herror : ∀ m ∈ [ErrorHandlingMiddleware.middleware], AroundEvents m := fun m hm =>
    .inr (congrArg Middleware.processInbound (List.mem_singleton.mp hm))
  refine ⟨t, _, hexec, (expired_dropped_iff herror (List.forall_mem_nil _) (List.forall_mem_nil _)
    matchEvent_id storesAccepted_storeAll getEventExpiration_expiredNote (by decide) hexec).mpr ?_⟩
  refine ⟨?_, fun _ => ?_, ?_, ⟨.ok 5 false failed.display, 0, none⟩, ?_⟩
  · simp [t, arrives]
  · simp [t, arrives, expiredNote, Event.note]
  · simp [t, arrives]
  · simp [t, arrives]

/-- When all services work, the note is deleted, stored again, accepted and distributed. -/
theorem expired_note_stored :
    ¬ ∀ (event : Event) (expiration : Timestamp) (s s' : StoreState) (t : RelayHistory)
      (r : Except Failure Unit), getEventExpiration event = some expiration → expiration < s.now →
      Exec (StoreState.answers Filter.matchEvent storeAll .default)
        (inboundChain 0 .default expirationChain (some (.event event))) s t r s' →
      NeitherKeptNorDelivered Filter.matchEvent storeAll .default 0 expirationChain event s t s' := by
  intro hall
  let deleted : StoreState :=
    { exampleStore with now := 10 }.delete Filter.matchEvent (Filter.id 5) .default
  let stored : StoreState := { deleted with stored := exampleStore.stored }
  have hsaves : deleted.Saves expiredNote .default stored := by
    refine ⟨rfl, List.mem_singleton_self _, fun scope e he => ?_⟩
    by_cases hscope : scope = .default
    · refine .inr ⟨?_, hscope⟩
      simpa [stored, exampleStore, hscope] using he
    · simp [stored, exampleStore, hscope] at he
  let t : RelayHistory := arrives [⟨.saveEvent expiredNote .default, .ok .success⟩,
    ⟨.trySend 0 ⟨.ok 5 true "", 0, none⟩, .ok ()⟩, ⟨.distributeEvent expiredNote .default, ()⟩]
  have hexec : Exec (StoreState.answers Filter.matchEvent storeAll .default)
      (inboundChain 0 .default expirationChain (some (.event expiredNote))) exampleStore t (.ok ())
      stored :=
    .ask _ ⟨le_refl _, rfl⟩ <| .ask _ rfl <| .ask _ rfl <|
      .ask _ ⟨fun _ => rfl, fun h => absurd rfl h⟩ <|
      .ask _ ⟨rfl, rfl⟩ <| .ask _ ⟨rfl, rfl⟩ <| .ask _ rfl <| .ask _ rfl <|
      .ask _ ⟨fun _ => hsaves, fun h => absurd rfl h⟩ <| .ask _ rfl <| .ask _ rfl <| .done _ _
  exact (hall expiredNote 3 exampleStore stored t (.ok ()) getEventExpiration_expiredNote (by decide)
    hexec).notStored hsaves.saved

end RelayBuilder
