import RelayBuilder.RelayQuestions

/-!
# Authentication

The middleware of `nip42_auth.rs`, and the part of the state of a connection that it works on: the
pending challenge, the authenticated key, and the event context that repeats the key for readers
without a lock. Each answered question moves this state, and no other question does.

## Main definitions

* `Nip42Middleware.processInbound`
* `AuthState`, and `AuthState.answers`

## Main results

* `authentication_sound`
-/

namespace RelayBuilder

open Interleave Script

/-! ### The middleware -/

/-- `AuthConfig`. -/
structure AuthConfig where
  relayUrl : String
  validateSubdomains : Bool

/-- What the middleware takes from its libraries: the standardized challenge and relay tags, the
latter without a trailing slash, and the host of a URL. -/
structure AuthSdk where
  challenge : Tag → Option String
  relay : Tag → Option String
  host : String → Option String
  isIpAddr : String → Bool

/-- `Kind::Authentication`. -/
def authenticationKind : Kind := 22242

/-- `str::contains`. -/
def containsText (text part : String) : Bool := decide (part.toList <:+: text.toList)

/-- `trim_end_matches('/')`. -/
def trimEndSlashes (text : String) : String :=
  String.ofList (text.toList.reverse.dropWhile (· == '/')).reverse

/-- `extract_subdomain`. -/
def extractSubdomain (sdk : AuthSdk) (host : String) (baseDomainParts : ℕ) : Option String :=
  let hostWithoutPort := (host.splitOn ":").headD host
  if hostWithoutPort == "localhost" || sdk.isIpAddr hostWithoutPort then none
  else
    let parts := hostWithoutPort.splitOn "."
    if parts.length ≤ baseDomainParts then none
    else some (".".intercalate (parts.take (parts.length - baseDomainParts)))

namespace Nip42Middleware

/-- The part of `validate_relay_url` that compares two hosts. -/
def validateHosts (sdk : AuthSdk) (config : AuthConfig) (clientHost relayHost : String)
    (scope : Scope) : Bool :=
  let clientParts := clientHost.splitOn "."
  let relayParts := relayHost.splitOn "."
  let baseDomainParts := relayParts.length
  let clientBase := ".".intercalate (clientParts.drop (clientParts.length - baseDomainParts))
  if clientBase != ".".intercalate relayParts then false
  else if !config.validateSubdomains then true
  else
    match scope with
    | .named subdomain => extractSubdomain sdk clientHost baseDomainParts == some subdomain
    | .default => (extractSubdomain sdk clientHost baseDomainParts).isNone

/-- `validate_relay_url`. -/
def validateRelayUrl (sdk : AuthSdk) (config : AuthConfig) (clientRelayUrl : String)
    (scope : Scope) : Bool :=
  if containsText clientRelayUrl "localhost" || containsText clientRelayUrl "127.0.0.1" ||
      containsText config.relayUrl "localhost" || containsText config.relayUrl "127.0.0.1" then
    trimEndSlashes clientRelayUrl == trimEndSlashes config.relayUrl
  else
    match sdk.host clientRelayUrl, sdk.host config.relayUrl with
    | some clientHost, some relayHost => validateHosts sdk config clientHost relayHost scope
    | _, _ => false

/-- The challenge in the first challenge tag. -/
def foundChallenge (sdk : AuthSdk) (event : Event) : Option String :=
  event.tags.findSome? sdk.challenge

/-- The URL in the first relay tag. -/
def foundRelay (sdk : AuthSdk) (event : Event) : Option String :=
  event.tags.findSome? sdk.relay

/-- Why the tags of an AUTH event are refused: the message of the answer, and that of the error. -/
def tagRefusal (sdk : AuthSdk) (config : AuthConfig) (scope : Scope) (expected : String)
    (event : Event) : Option (String × String) :=
  match foundChallenge sdk event with
  | none => some ("auth-required: missing challenge tag", "No challenge tag found")
  | some challenge =>
    if challenge != expected then some ("auth-required: challenge mismatch", "Challenge mismatch")
    else
      match foundRelay sdk event with
      | none => some ("auth-required: missing relay tag", "No relay tag found")
      | some url =>
        if !validateRelayUrl sdk config url scope then
          some ("auth-required: relay mismatch", "Relay mismatch")
        else none

/-- Answer with OK false, and fail. -/
def refuse (ctx : InboundContext) (event : Event) (message error : String) :
    Relay (Except Failure Unit) :=
  ((ctx.sender.send (.ok event.id false message)).mapError Failure.other).andThen fun _ =>
    pure (.error (.error (.authRequired error)))

/-- The last check, and the authentication. -/
def finish (ctx : InboundContext) (event : Event) : Relay (Except Failure Unit) := do
  let now ← Script.request RelayCall.now
  if event.createdAt < now - 600 then
    refuse ctx event "auth-required: expired auth event" "Expired auth event"
  else do
    Script.request (RelayCall.setAuthenticated event.pubkey)
    (ctx.sender.send (.ok event.id true "authenticated")).mapError Failure.other

/-- The checks of an AUTH event, against the challenge that was pending. -/
def check (sdk : AuthSdk) (config : AuthConfig) (ctx : InboundContext) (event : Event)
    (expected : String) : Relay (Except Failure Unit) :=
  if event.kind != authenticationKind then
    refuse ctx event "auth-required: invalid event kind" "Invalid event kind"
  else do
    if ← Script.request (RelayCall.verify event) then
      match tagRefusal sdk config ctx.subdomain expected event with
      | some (message, error) => refuse ctx event message error
      | none => finish ctx event
    else refuse ctx event "auth-required: invalid signature" "Invalid signature"

/-- `process_inbound`. -/
def processInbound (sdk : AuthSdk) (config : AuthConfig) : InboundMiddleware := fun ctx =>
  match ctx.message with
  | some (.auth event) => do
    match ← Script.request RelayCall.challenge with
    | none =>
      refuse ctx event "auth-required: no challenge pending" "No challenge found in state"
    | some expected => check sdk config ctx event expected
  | _ => ctx.next ctx.message

/-- `on_connect`: send the challenge. -/
def onConnect (sender : MessageSender) : Relay (Except Failure Unit) := do
  let challenge ← Script.request RelayCall.getChallengeEvent
  (sender.send (.auth challenge)).mapError fun e =>
    Failure.other ("Failed to send challenge: " ++ e)

/-- `Nip42Middleware`. -/
def middleware (sdk : AuthSdk) (config : AuthConfig) : Middleware where
  onConnect := onConnect
  processInbound := processInbound sdk config
  processOutbound message := pure (.ok message)

end Nip42Middleware

/-! ### The state -/

/-- What authentication reads and writes of a connection. -/
structure AuthState where
  challenge : Option String
  authedPubkey : Option PublicKey
  eventContext : EventContext
  deriving DecidableEq

namespace AuthState

/-- The state of a new connection. -/
def new (subdomain : Scope) (relayPubkey : PublicKey) : AuthState where
  challenge := none
  authedPubkey := none
  eventContext := ⟨none, subdomain, relayPubkey⟩

/-- `set_authenticated`. -/
def setAuthenticated (s : AuthState) (pubkey : PublicKey) : AuthState where
  challenge := none
  authedPubkey := some pubkey
  eventContext := { s.eventContext with authedPubkey := some pubkey }

/-- What the questions do to the state. A new challenge is a random number, and any question that
is not about the state is answered anyhow. -/
def answers : Script.Answers RelayCall.Answer AuthState
  | .challenge, s, r, s' => r = s.challenge ∧ s' = s
  | .getChallengeEvent, s, r, s' =>
    s' = { s with challenge := some r } ∧
      match s.challenge with
      | some challenge => r = challenge
      | none => ∃ n : UInt64, r = toString n
  | .setAuthenticated pubkey, s, _, s' => s' = s.setAuthenticated pubkey
  | .authedPubkey, s, r, s' => r = s.authedPubkey ∧ s' = s
  | .eventContext, s, r, s' => r = s.eventContext ∧ s' = s
  | _, s, _, s' => s' = s

/-- The key in the state and the one in the event context are the same. -/
def Consistent (s : AuthState) : Prop := s.authedPubkey = s.eventContext.authedPubkey

end AuthState

/-- A question that leaves the state alone. -/
def RelayCall.KeepsAuth : RelayCall → Prop
  | .getChallengeEvent | .setAuthenticated _ => False
  | _ => True

theorem answers_keepsAuth {call : RelayCall} (h : call.KeepsAuth) {s s' : AuthState}
    {r : call.Answer} (hr : AuthState.answers call s r s') : s' = s := by
  cases call with
  | getChallengeEvent | setAuthenticated => exact h.elim
  | challenge | authedPubkey | eventContext => exact hr.2
  | _ => exact hr

/-! ### Histories -/

/-- What a question makes of the pending challenge. -/
def Asked.pending (pending : Option String) : Asked → Option String
  | ⟨.getChallengeEvent, challenge⟩ => some challenge
  | ⟨.setAuthenticated _, _⟩ => none
  | _ => pending

/-- The challenge that is pending after a history. -/
def pendingAfter (pending : Option String) (t : RelayHistory) : Option String :=
  t.foldl Asked.pending pending

/-- The challenge was issued. -/
def Issued (challenge : String) (t : RelayHistory) : Prop :=
  (⟨.getChallengeEvent, challenge⟩ : Asked) ∈ t

@[simp] theorem pendingAfter_nil (pending : Option String) : pendingAfter pending [] = pending :=
  rfl

theorem pendingAfter_append (pending : Option String) (t t' : RelayHistory) :
    pendingAfter pending (t ++ t') = pendingAfter (pendingAfter pending t) t' :=
  List.foldl_append

/-- A challenge that is pending was issued, if none was pending before. -/
theorem issued_of_pendingAfter {t : RelayHistory} {pending : Option String} {challenge : String}
    (h : pendingAfter pending t = some challenge) :
    pending = some challenge ∨ Issued challenge t := by
  induction t generalizing pending with
  | nil => exact .inl h
  | cons asked t ih =>
    obtain h' | h' := ih h
    · obtain ⟨call, r⟩ := asked
      cases call with
      | getChallengeEvent =>
        obtain rfl := Option.some.inj h'
        exact .inr (List.mem_cons_self ..)
      | setAuthenticated => cases h'
      | _ => exact .inl h'
    · exact .inr (List.mem_cons_of_mem _ h')

/-- Whenever a key is authenticated, a challenge was pending. -/
def Guarded (pending : Option String) (t : RelayHistory) : Prop :=
  ∀ t₁ pubkey u t₂, t = t₁ ++ ⟨.setAuthenticated pubkey, u⟩ :: t₂ →
    pendingAfter pending t₁ ≠ none

theorem Guarded.nil (pending : Option String) : Guarded pending [] := by
  intro t₁ pubkey u t₂ h
  cases t₁ <;> cases h

theorem Guarded.append {pending : Option String} {t t' : RelayHistory} (h : Guarded pending t)
    (h' : Guarded (pendingAfter pending t) t') : Guarded pending (t ++ t') := by
  intro t₁ pubkey u t₂ heq
  obtain ⟨m, rfl, hm⟩ | ⟨m, rfl, hm⟩ := List.append_eq_append_iff.mp heq
  · rw [pendingAfter_append]
    exact h' m pubkey u t₂ hm
  · cases m with
    | nil =>
      rw [List.append_nil] at h'
      exact h' [] pubkey u t₂ hm.symm
    | cons asked m =>
      injection hm with hasked hrest
      subst hasked
      exact h t₁ pubkey u m rfl

theorem guarded_single {pending : Option String} {asked : Asked}
    (h : asked.1.KeepsAuth ∨ asked.1 = .getChallengeEvent) : Guarded pending [asked] := by
  intro t₁ pubkey u t₂ heq
  cases t₁ with
  | nil =>
    injection heq with hasked
    subst hasked
    obtain h | h := h
    · exact h.elim
    · cases h
  | cons a t₁ =>
    injection heq with _ hrest
    cases t₁ <;> cases hrest

/-- The state keeps the challenge that is pending after the history, and whenever a key was
authenticated, a challenge was pending. -/
structure Traced (s : AuthState) (t : RelayHistory) (s' : AuthState) : Prop where
  pending : s'.challenge = pendingAfter s.challenge t
  guarded : Guarded s.challenge t

theorem Traced.nil (s : AuthState) : Traced s [] s := ⟨rfl, .nil _⟩

theorem Traced.append {s s' s'' : AuthState} {t t' : RelayHistory} (h : Traced s t s')
    (h' : Traced s' t' s'') : Traced s (t ++ t') s'' where
  pending := by rw [h'.pending, h.pending, pendingAfter_append]
  guarded := h.guarded.append (h.pending ▸ h'.guarded)

/-! ### What a message does -/

/-- The message is one that a challenge may be issued for: not an AUTH. -/
def Reissues (message : Option ClientMessage) : Prop :=
  ∃ m, message = some m ∧ ∀ event, m ≠ .auth event

/-- What middlewares other than `Nip42Middleware` may ask while they handle a message. -/
def RelayCall.AllowedIn (message : Option ClientMessage) : RelayCall → Prop
  | .setAuthenticated _ => False
  | .getChallengeEvent => Reissues message
  | _ => True

/-- Every check of an AUTH event succeeded, in a connection with these configurations. -/
structure Accepted (sdk : AuthSdk) (configs : List AuthConfig) (scope : Scope) (s : AuthState)
    (t : RelayHistory) (event : Event) : Prop where
  kind : event.kind = authenticationKind
  verified : (⟨.verify event, true⟩ : Asked) ∈ t
  challenge : ∃ challenge, s.challenge = some challenge ∧
    Nip42Middleware.foundChallenge sdk event = some challenge
  relay : ∃ url, Nip42Middleware.foundRelay sdk event = some url ∧
    ∃ config ∈ configs, Nip42Middleware.validateRelayUrl sdk config url scope = true
  recent : ∃ now, (⟨.now, now⟩ : Asked) ∈ t ∧ now ≤ event.createdAt + 600

/-- What a message does to the state: nothing, apart from a new challenge, or an authentication. -/
inductive AuthStep (sdk : AuthSdk) (configs : List AuthConfig) (scope : Scope)
    (message : Option ClientMessage) (s : AuthState) (t : RelayHistory) (s' : AuthState) :
    Prop where
  | unchanged (hkey : s'.authedPubkey = s.authedPubkey)
    (hcontext : s'.eventContext = s.eventContext)
    (hchallenge : ¬ Reissues message → s'.challenge = s.challenge)
  | authenticated (event : Event) (hmessage : message = some (.auth event))
    (haccepted : Accepted sdk configs scope s t event) (hs' : s' = s.setAuthenticated event.pubkey)

variable {sdk : AuthSdk} {configs : List AuthConfig} {scope : Scope}
  {message : Option ClientMessage} {s s' s'' : AuthState} {t t' : RelayHistory}

theorem Accepted.mono {event : Event} (h : Accepted sdk configs scope s t event)
    (ht : ∀ asked ∈ t, asked ∈ t') : Accepted sdk configs scope s t' event where
  kind := h.kind
  verified := ht _ h.verified
  challenge := h.challenge
  relay := h.relay
  recent := h.recent.imp fun _ hnow => ⟨ht _ hnow.1, hnow.2⟩

theorem AuthStep.nil (s : AuthState) : AuthStep sdk configs scope message s [] s :=
  .unchanged rfl rfl fun _ => rfl

theorem AuthStep.append (h : AuthStep sdk configs scope message s t s')
    (h' : AuthStep sdk configs scope message s' t' s'') :
    AuthStep sdk configs scope message s (t ++ t') s'' := by
  have hauth : ∀ event, message = some (.auth event) → ¬ Reissues message :=
    fun event hm ⟨m, hm', hno⟩ => hno event (Option.some.inj (hm'.symm.trans hm))
  cases h with
  | unchanged hkey hcontext hchallenge =>
    cases h' with
    | unchanged hkey' hcontext' hchallenge' =>
      exact .unchanged (hkey'.trans hkey) (hcontext'.trans hcontext)
        fun hm => (hchallenge' hm).trans (hchallenge hm)
    | authenticated event hmessage haccepted hs'' =>
      -- the message is an AUTH, so nothing at all has changed before
      obtain rfl : s' = s := by
        have := hchallenge (hauth event hmessage)
        cases s
        cases s'
        simp_all
      exact .authenticated event hmessage (haccepted.mono fun _ => List.mem_append_right _) hs''
  | authenticated event hmessage haccepted hs' =>
    subst hs'
    cases h' with
    | unchanged hkey' hcontext' hchallenge' =>
      have hchallenge'' := hchallenge' (hauth event hmessage)
      refine .authenticated event hmessage (haccepted.mono fun _ => List.mem_append_left _) ?_
      cases s''
      simp_all [AuthState.setAuthenticated]
    | authenticated event' hmessage' haccepted' hs'' =>
      -- the challenge is spent
      obtain ⟨challenge, hpending, -⟩ := haccepted'.challenge
      cases hpending

/-- A step for no message is one for any message. -/
theorem AuthStep.of_none (h : AuthStep sdk configs scope none s t s') :
    AuthStep sdk configs scope message s t s' := by
  cases h with
  | unchanged hkey hcontext hchallenge =>
    exact .unchanged hkey hcontext fun _ => hchallenge fun ⟨m, hm, _⟩ => nomatch hm
  | authenticated event hmessage => cases hmessage

theorem traced_ask (call : RelayCall) (hc : call.KeepsAuth ∨ call = .getChallengeEvent)
    {r : call.Answer} (hr : AuthState.answers call s r s') : Traced s [⟨call, r⟩] s' := by
  refine ⟨?_, guarded_single hc⟩
  cases call with
  | getChallengeEvent => rw [hr.1]; rfl
  | setAuthenticated => exact hc.elim False.elim fun h => nomatch h
  | challenge | authedPubkey | eventContext => rw [hr.2]; rfl
  | _ => exact congrArg AuthState.challenge hr

/-- One question of a middleware other than `Nip42Middleware`. -/
theorem authStep_ask {call : RelayCall} (hc : call.AllowedIn message) {r : call.Answer}
    (hr : AuthState.answers call s r s') :
    AuthStep sdk configs scope message s [⟨call, r⟩] s' ∧ Traced s [⟨call, r⟩] s' := by
  by_cases hkeeps : call.KeepsAuth
  · obtain rfl := answers_keepsAuth hkeeps hr
    exact ⟨.unchanged rfl rfl fun _ => rfl, traced_ask call (.inl hkeeps) hr⟩
  · cases call with
    | getChallengeEvent =>
      refine ⟨?_, traced_ask _ (.inr rfl) hr⟩
      obtain ⟨rfl, -⟩ := hr
      exact .unchanged rfl rfl fun hno => absurd hc hno
    | setAuthenticated => exact hc.elim
    | _ => exact absurd trivial hkeeps

/-- Any answer is allowed. -/
abbrev anyAnswer (call : RelayCall) (_ : call.Answer) : Prop := True

/-- A script that leaves the state alone. -/
theorem exec_keepsAuth {α : Type} {p : Relay α} (h : p.EveryAsk anyAnswer RelayCall.KeepsAuth)
    {a : α} (hexec : Exec AuthState.answers p s t a s') : s' = s ∧ Traced s t s' := by
  refine h.exec (R := fun s t s' => s' = s ∧ Traced s t s') (fun _ _ _ _ _ => trivial)
    (fun s => ⟨rfl, .nil s⟩) ?_ (fun call s r s' hkeeps hr =>
      ⟨answers_keepsAuth hkeeps hr, traced_ask call (.inl hkeeps) hr⟩) hexec
  rintro s t s' t' s'' ⟨rfl, h⟩ ⟨rfl, h'⟩
  exact ⟨rfl, h.append h'⟩

theorem keepsAuth_refuse (ctx : InboundContext) (event : Event) (text error : String) :
    (Nip42Middleware.refuse ctx event text error).EveryAsk anyAnswer RelayCall.KeepsAuth :=
  (EveryAsk.mapError (everyAsk_request trivial).mapError).andThen fun _ => trivial

/-! ### The messages -/

/-- What a message does, with its history. -/
def Handles (sdk : AuthSdk) (configs : List AuthConfig) (scope : Scope)
    (message : Option ClientMessage) (s : AuthState) (t : RelayHistory) (s' : AuthState) : Prop :=
  AuthStep sdk configs scope message s t s' ∧ Traced s t s'

theorem Handles.append (h : Handles sdk configs scope message s t s')
    (h' : Handles sdk configs scope message s' t' s'') :
    Handles sdk configs scope message s (t ++ t') s'' :=
  ⟨h.1.append h'.1, h.2.append h'.2⟩

theorem handles_keepsAuth {α : Type} {p : Relay α}
    (h : p.EveryAsk anyAnswer RelayCall.KeepsAuth) {a : α}
    (hexec : Exec AuthState.answers p s t a s') : Handles sdk configs scope message s t s' := by
  obtain ⟨rfl, htraced⟩ := exec_keepsAuth h hexec
  exact ⟨.unchanged rfl rfl fun _ => rfl, htraced⟩

/-- The tags are not refused if they carry the challenge and a valid URL. -/
theorem tagRefusal_eq_none {config : AuthConfig} {expected : String} {event : Event}
    (h : Nip42Middleware.tagRefusal sdk config scope expected event = none) :
    Nip42Middleware.foundChallenge sdk event = some expected ∧
      ∃ url, Nip42Middleware.foundRelay sdk event = some url ∧
        Nip42Middleware.validateRelayUrl sdk config url scope = true := by
  rw [Nip42Middleware.tagRefusal] at h
  split at h
  · cases h
  · rename_i challenge hchallenge
    split at h
    · cases h
    · rename_i hexpected
      split at h
      · cases h
      · rename_i url hurl
        split at h
        · cases h
        · rename_i hvalid
          obtain rfl : challenge = expected := by simpa using hexpected
          exact ⟨hchallenge, url, hurl, by simpa using hvalid⟩

/-- Setting the key, while a challenge is pending. -/
theorem traced_setAuthenticated {pubkey : PublicKey} {u : Unit} (h : s.challenge ≠ none) :
    Traced s [⟨.setAuthenticated pubkey, u⟩] (s.setAuthenticated pubkey) := by
  refine ⟨rfl, fun t₁ pubkey' u' t₂ heq => ?_⟩
  cases t₁ with
  | nil => exact h
  | cons asked t₁ =>
    injection heq with _ hrest
    cases t₁ <;> cases hrest

/-- The end of an authentication. -/
theorem handles_finish {ctx : InboundContext} {event : Event} {r : Except Failure Unit}
    (hmessage : message = some (.auth event))
    (haccepted : ∀ now, now ≤ event.createdAt + 600 → (⟨.now, now⟩ : Asked) ∈ t →
      Accepted sdk configs scope s (t' ++ t) event) (hpending : s.challenge ≠ none)
    (hexec : Exec AuthState.answers (Nip42Middleware.finish ctx event) s t r s')
    (htraced : Traced s t' s) : Handles sdk configs scope message s (t' ++ t) s' := by
  obtain ⟨now, s₁, t₁, rfl, hs₁, h⟩ := exec_request_bind.mp hexec
  obtain rfl : s₁ = s := hs₁
  have hnow : Traced s₁ [⟨.now, now⟩] s₁ := traced_ask .now (.inl trivial) rfl
  split at h
  · obtain ⟨rfl, h⟩ := exec_keepsAuth (keepsAuth_refuse _ _ _ _) h
    exact ⟨.unchanged rfl rfl fun _ => rfl, htraced.append (hnow.append h)⟩
  · rename_i hrecent
    obtain ⟨u, s₂, t₂, rfl, hs₂, h⟩ := exec_request_bind.mp h
    obtain rfl : s₂ = s₁.setAuthenticated event.pubkey := hs₂
    obtain ⟨rfl, h⟩ := exec_keepsAuth (EveryAsk.mapError (everyAsk_request trivial).mapError) h
    refine ⟨.authenticated event hmessage (haccepted now
      (Nat.sub_le_iff_le_add.mp (not_lt.mp hrecent)) (List.mem_cons_self ..)) rfl, ?_⟩
    exact htraced.append (hnow.append ((traced_setAuthenticated hpending).append h))

/-- What `Nip42Middleware` does with a message, if the rest of the chain does no harm. -/
theorem handles_nip42 {config : AuthConfig} (hconfig : config ∈ configs) {ctx : InboundContext}
    (hscope : ctx.subdomain = scope)
    (hnext : ∀ s t r s', Exec AuthState.answers (ctx.next ctx.message) s t r s' →
      Handles sdk configs scope ctx.message s t s') {r : Except Failure Unit}
    (hexec : Exec AuthState.answers (Nip42Middleware.processInbound sdk config ctx) s t r s') :
    Handles sdk configs scope ctx.message s t s' := by
  obtain ⟨message, sender, subdomain, next⟩ := ctx
  subst hscope
  match message with
  | some (.auth event) =>
    obtain ⟨challenge, s₁, t₁, rfl, ⟨rfl, rfl⟩, h⟩ := exec_request_bind.mp hexec
    have hfirst : Handles sdk configs subdomain (some (.auth event)) s₁
        [⟨.challenge, s₁.challenge⟩] s₁ :=
      ⟨.unchanged rfl rfl fun _ => rfl, traced_ask .challenge (.inl trivial) ⟨rfl, rfl⟩⟩
    cases hchallenge : s₁.challenge with
    | none =>
      rw [hchallenge] at h
      exact hchallenge ▸ hfirst.append (handles_keepsAuth (keepsAuth_refuse _ _ _ _) h)
    | some expected =>
      rw [hchallenge] at h hfirst
      simp only [Nip42Middleware.check] at h
      split at h
      · exact hfirst.append (handles_keepsAuth (keepsAuth_refuse _ _ _ _) h)
      · rename_i hkind
        obtain ⟨verified, s₂, t₂, rfl, hs₂, h'⟩ := exec_request_bind.mp h
        obtain rfl : s₂ = s₁ := hs₂
        have hsecond : Handles sdk configs subdomain (some (.auth event)) s₂
            [⟨.challenge, some expected⟩, ⟨.verify event, verified⟩] s₂ :=
          hfirst.append
            ⟨.unchanged rfl rfl fun _ => rfl, traced_ask (.verify event) (.inl trivial) rfl⟩
        cases verified with
        | false => exact hsecond.append (handles_keepsAuth (keepsAuth_refuse _ _ _ _) h')
        | true =>
          simp only [if_true] at h'
          split at h'
          · exact hsecond.append (handles_keepsAuth (keepsAuth_refuse _ _ _ _) h')
          · rename_i htags
            obtain ⟨hfound, url, hurl, hvalid⟩ := tagRefusal_eq_none htags
            refine handles_finish rfl (fun now hnow hmem => ?_) (by simp [hchallenge]) h' hsecond.2
            exact ⟨by simpa using hkind, by simp, ⟨expected, hchallenge, hfound⟩,
              ⟨url, hurl, config, hconfig, hvalid⟩, ⟨now, List.mem_append_right _ hmem, hnow⟩⟩
  | none | some (.event _) | some (.req _ _) | some (.close _) | some (.count _ _)
  | some (.negOpen _ _ _) | some (.negMsg _ _) | some (.negClose _) => exact hnext _ _ _ _ hexec

/-! ### The connection -/

/-- A middleware that leaves authentication to `Nip42Middleware`. It may issue challenges, but not
while it handles an AUTH. -/
structure LeavesAuth (middleware : Middleware) : Prop where
  onConnect : ∀ sender, (middleware.onConnect sender).EveryAsk anyAnswer
    fun call => call.KeepsAuth ∨ call = .getChallengeEvent
  inbound : ∀ ctx, Around anyAnswer (RelayCall.AllowedIn ctx.message)
    (fun message => message = ctx.message ∨ message = none) ctx.next (middleware.processInbound ctx)

/-- Every middleware is a `Nip42Middleware` with one of the configurations, or leaves
authentication alone. -/
def AuthChain (sdk : AuthSdk) (configs : List AuthConfig) (chain : List Middleware) : Prop :=
  ∀ m ∈ chain, (∃ config ∈ configs, m = Nip42Middleware.middleware sdk config) ∨ LeavesAuth m

/-- The inbound chain of the middlewares of a connection. -/
def inboundChain (channel : ChannelRef) (subdomain : Scope) (chain : List Middleware) :
    Option ClientMessage → Relay (Except Failure Unit) :=
  processInboundChain channel subdomain (chain.map Middleware.processInbound)

theorem handles_inboundChain {chain : List Middleware} (hchain : AuthChain sdk configs chain)
    (channel : ChannelRef) {r : Except Failure Unit}
    (hexec : Exec AuthState.answers (inboundChain channel scope chain message) s t r s') :
    Handles sdk configs scope message s t s' := by
  induction chain generalizing message s t r s' with
  | nil =>
    obtain ⟨rfl, -, rfl⟩ := exec_done.mp hexec
    exact ⟨.nil s', .nil s'⟩
  | cons m chain ih =>
    have hrest : ∀ message s t r s',
        Exec AuthState.answers (inboundChain channel scope chain message) s t r s' →
          Handles sdk configs scope message s t s' :=
      fun message s t r s' h => ih (fun m' hm' => hchain m' (List.mem_cons_of_mem _ hm')) h
    obtain ⟨config, hconfig, rfl⟩ | hleaves := hchain m (List.mem_cons_self ..)
    · exact handles_nip42 hconfig rfl (fun s t r s' h => hrest _ s t r s' h) hexec
    · let ctx : InboundContext := ⟨message, ⟨channel, (chain.map Middleware.processInbound).length⟩,
        scope, inboundChain channel scope chain⟩
      refine (hleaves.inbound ctx).exec (R := Handles sdk configs scope message)
        (fun _ _ _ _ _ => trivial) (fun s => ⟨.nil s, .nil s⟩)
        (fun s t s' t' s'' h h' => h.append h') (fun call s r s' hc hr => authStep_ask hc hr)
        (fun message' s t r s' hm h => ?_) hexec
      obtain rfl | rfl := hm
      · exact hrest _ s t r s' h
      · have hnone := hrest none s t r s' h
        exact ⟨hnone.1.of_none, hnone.2⟩

/-- What `on_connect` does to the state. -/
structure Connects (s : AuthState) (t : RelayHistory) (s' : AuthState) : Prop where
  key : s'.authedPubkey = s.authedPubkey
  context : s'.eventContext = s.eventContext
  traced : Traced s t s'

theorem Connects.nil (s : AuthState) : Connects s [] s := ⟨rfl, rfl, .nil s⟩

theorem Connects.append (h : Connects s t s') (h' : Connects s' t' s'') :
    Connects s (t ++ t') s'' :=
  ⟨h'.key.trans h.key, h'.context.trans h.context, h.traced.append h'.traced⟩

theorem connects_exec {α : Type} {p : Relay α}
    (h : p.EveryAsk anyAnswer fun call => call.KeepsAuth ∨ call = .getChallengeEvent) {a : α}
    (hexec : Exec AuthState.answers p s t a s') : Connects s t s' := by
  refine h.exec (R := Connects) (fun _ _ _ _ _ => trivial) .nil
    (fun s t s' t' s'' h h' => h.append h') (fun call s r s' hc hr => ?_) hexec
  have htraced := traced_ask call hc hr
  obtain hkeeps | rfl := hc
  · obtain rfl := answers_keepsAuth hkeeps hr
    exact ⟨rfl, rfl, htraced⟩
  · obtain ⟨rfl, -⟩ := hr
    exact ⟨rfl, rfl, htraced⟩

theorem onConnect_nip42 (sender : MessageSender) :
    (Nip42Middleware.onConnect sender).EveryAsk anyAnswer
      fun call => call.KeepsAuth ∨ call = .getChallengeEvent :=
  everyAsk_request_bind (.inr rfl) fun _ _ =>
    EveryAsk.mapError (everyAsk_request (.inl trivial)).mapError

theorem connects_onConnectChain {chain : List Middleware} (hchain : AuthChain sdk configs chain)
    (channel : ChannelRef) : (onConnectChain channel chain).EveryAsk anyAnswer
      fun call => call.KeepsAuth ∨ call = .getChallengeEvent := by
  induction chain with
  | nil => trivial
  | cons m chain ih =>
    refine EveryAsk.andThen ?_ fun _ => ih fun m' hm' => hchain m' (List.mem_cons_of_mem _ hm')
    obtain ⟨config, -, rfl⟩ | hleaves := hchain m (List.mem_cons_self ..)
    · exact onConnect_nip42 _
    · exact hleaves.onConnect _

/-- A connection from its start: `on_connect`, and then the messages of the client one after
another. The history is that of all of them. -/
inductive ConnectionRun (channel : ChannelRef) (subdomain : Scope) (relayPubkey : PublicKey)
    (chain : List Middleware) : List ClientMessage → AuthState → RelayHistory → Prop where
  | connect {t : RelayHistory} {r : Except Failure Unit} {s : AuthState}
    (h : Exec AuthState.answers (onConnectChain channel chain) (.new subdomain relayPubkey) t r s) :
    ConnectionRun channel subdomain relayPubkey chain [] s t
  | message {messages : List ClientMessage} {s s' : AuthState} {t t' : RelayHistory}
    {message : ClientMessage} {r : Except Failure Unit}
    (h : ConnectionRun channel subdomain relayPubkey chain messages s t)
    (h' : Exec AuthState.answers (inboundChain channel subdomain chain (some message)) s t' r s') :
    ConnectionRun channel subdomain relayPubkey chain (messages ++ [message]) s' (t ++ t')

variable {channel : ChannelRef} {relayPubkey : PublicKey} {chain : List Middleware}
  {messages : List ClientMessage}

/-- The invariant of a connection. -/
theorem ConnectionRun.invariant (hchain : AuthChain sdk configs chain)
    (h : ConnectionRun channel scope relayPubkey chain messages s t) :
    s.Consistent ∧ Traced (.new scope relayPubkey) t s := by
  induction h with
  | connect h =>
    have hconnects := connects_exec (connects_onConnectChain hchain channel) h
    refine ⟨?_, hconnects.traced⟩
    rw [AuthState.Consistent, hconnects.key, hconnects.context]
    rfl
  | message _ h' ih =>
    obtain ⟨hstep, htraced⟩ := handles_inboundChain hchain channel h'
    refine ⟨?_, ih.2.append htraced⟩
    cases hstep with
    | unchanged hkey hcontext _ =>
      rw [AuthState.Consistent, hkey, hcontext]
      exact ih.1
    | authenticated event _ _ hs' =>
      subst hs'
      rfl

/-- **Authentication is sound.** In every connection whose chain authenticates through
`Nip42Middleware` only: the key in the state is the one in the event context after every message;
the next message leaves the key, the event context and, if it is an AUTH, the challenge as they
were, or it is an AUTH that passed every check against the pending challenge, which was issued to
this connection; and between two authentications another challenge was issued, the one that was
pending at the second. -/
theorem authentication_sound (hchain : AuthChain sdk configs chain)
    (hrun : ConnectionRun channel scope relayPubkey chain messages s t) :
    s.authedPubkey = s.eventContext.authedPubkey ∧
    (∀ message t' r s',
      Exec AuthState.answers (inboundChain channel scope chain (some message)) s t' r s' →
      (s'.authedPubkey = s.authedPubkey ∧ s'.eventContext = s.eventContext ∧
        ∀ event, message = .auth event → s'.challenge = s.challenge) ∨
      ∃ event, message = .auth event ∧ Accepted sdk configs scope s t' event ∧
        (∀ challenge, s.challenge = some challenge → Issued challenge t) ∧
        s' = s.setAuthenticated event.pubkey) ∧
    ∀ t₁ key u t₂ key' u' t₃,
      t = t₁ ++ ⟨.setAuthenticated key, u⟩ :: (t₂ ++ ⟨.setAuthenticated key', u'⟩ :: t₃) →
      ∃ challenge, pendingAfter none t₂ = some challenge ∧ Issued challenge t₂ := by
  obtain ⟨hconsistent, htraced⟩ := hrun.invariant hchain
  refine ⟨hconsistent, fun message t' r s' h => ?_, fun t₁ key u t₂ key' u' t₃ ht => ?_⟩
  · obtain ⟨hstep, -⟩ := handles_inboundChain hchain channel h
    cases hstep with
    | unchanged hkey hcontext hchallenge =>
      refine .inl ⟨hkey, hcontext, fun event hm => hchallenge ?_⟩
      rintro ⟨m, hm', hno⟩
      exact hno event (Option.some.inj hm' ▸ hm)
    | authenticated event hmessage haccepted hs' =>
      refine .inr ⟨event, Option.some.inj hmessage, haccepted, fun challenge hc => ?_, hs'⟩
      refine (issued_of_pendingAfter (htraced.pending.symm.trans hc)).resolve_left ?_
      exact fun h => nomatch h
  · have hpending : pendingAfter none t₂ ≠ none := by
      have := htraced.guarded (t₁ ++ ⟨.setAuthenticated key, u⟩ :: t₂) key' u' t₃
        (by rw [ht, List.append_assoc, List.cons_append])
      rwa [pendingAfter_append] at this
    obtain ⟨challenge, hchallenge⟩ := Option.ne_none_iff_exists'.mp hpending
    exact ⟨challenge, hchallenge,
      (issued_of_pendingAfter hchallenge).resolve_left fun h => nomatch h⟩

/-! ### The relay's own chain -/

theorem relayAsks_keepsAuth : RelayAsks anyAnswer RelayCall.KeepsAuth where
  service call h := by cases call <;> first | exact h.elim | trivial
  send _ _ _ := ⟨trivial, trivial⟩
  event _ _ _ _ := trivial

theorem leavesAuth_of_aroundNext {m : Middleware}
    (hconnect : ∀ sender, m.onConnect sender = pure (.ok ()))
    (h : AroundNext anyAnswer RelayCall.KeepsAuth m.processInbound) : LeavesAuth m where
  onConnect sender := by
    rw [hconnect]
    trivial
  inbound ctx := (h ctx).mono fun call hkeeps => by
    cases call <;> first | exact hkeeps.elim | trivial

/-- The chains of `build_with` authenticate through `Nip42Middleware` only. -/
theorem authChain_buildWith (sdk : AuthSdk) (config : AuthConfig) (kinds : KindRanges)
    (withoutDefaults : Bool) {custom : List Middleware} (hcustom : AuthChain sdk [config] custom) :
    AuthChain sdk [config] (buildWith
      ⟨withoutDefaults, none, some (Nip42Middleware.middleware sdk config)⟩ kinds custom) := by
  have hidentity : LeavesAuth .identity :=
    leavesAuth_of_aroundNext (fun _ => rfl) aroundNext_passOn
  have herror : LeavesAuth ErrorHandlingMiddleware.middleware :=
    leavesAuth_of_aroundNext (fun _ => rfl) (aroundNext_errorHandling relayAsks_keepsAuth)
  have hrelay : LeavesAuth (RelayMiddleware.middleware kinds) :=
    leavesAuth_of_aroundNext (fun _ => rfl) (aroundNext_relay relayAsks_keepsAuth kinds)
  have hinner : ∀ m ∈ custom ++ [RelayMiddleware.middleware kinds],
      (∃ c ∈ [config], m = Nip42Middleware.middleware sdk c) ∨ LeavesAuth m := fun m hm =>
    (List.mem_append.mp hm).elim (hcustom m) fun h => .inr (List.mem_singleton.mp h ▸ hrelay)
  have hauth : ∃ c ∈ [config], Nip42Middleware.middleware sdk config =
      Nip42Middleware.middleware sdk c := ⟨config, List.mem_singleton_self _, rfl⟩
  cases withoutDefaults with
  | true =>
    exact List.forall_mem_cons.mpr ⟨.inr hidentity, List.forall_mem_cons.mpr ⟨.inr hidentity,
      List.forall_mem_cons.mpr ⟨.inr hidentity, List.forall_mem_cons.mpr ⟨.inr hidentity, hinner⟩⟩⟩⟩
  | false =>
    exact List.forall_mem_cons.mpr ⟨.inr hidentity, List.forall_mem_cons.mpr ⟨.inr herror,
      List.forall_mem_cons.mpr ⟨.inl hauth, List.forall_mem_cons.mpr ⟨.inr hidentity, hinner⟩⟩⟩⟩

/-- An AUTH that passes every check authenticates its key. -/
theorem Nip42Middleware.authenticates (config : AuthConfig) (ctx : InboundContext) (event : Event)
    {expected url : String} {now : Timestamp} (hmessage : ctx.message = some (.auth event))
    (hpending : s.challenge = some expected) (hkind : event.kind = authenticationKind)
    (hfound : foundChallenge sdk event = some expected) (hurl : foundRelay sdk event = some url)
    (hvalid : validateRelayUrl sdk config url ctx.subdomain = true)
    (hnow : now ≤ event.createdAt + 600) :
    Exec AuthState.answers (processInbound sdk config ctx) s
      [⟨.challenge, some expected⟩, ⟨.verify event, true⟩, ⟨.now, now⟩,
        ⟨.setAuthenticated event.pubkey, ()⟩,
        ⟨.trySend ctx.sender.channel (ctx.sender.packet (.ok event.id true "authenticated")), .ok ()⟩]
      (.ok ()) (s.setAuthenticated event.pubkey) := by
  have htags : tagRefusal sdk config ctx.subdomain expected event = none := by
    simp [tagRefusal, hfound, hurl, hvalid]
  have hfinish : Exec AuthState.answers (finish ctx event) s
      [⟨.now, now⟩, ⟨.setAuthenticated event.pubkey, ()⟩,
        ⟨.trySend ctx.sender.channel (ctx.sender.packet (.ok event.id true "authenticated")), .ok ()⟩]
      (.ok ()) (s.setAuthenticated event.pubkey) := by
    refine exec_request_bind.mpr ⟨now, s, _, rfl, rfl, ?_⟩
    rw [if_neg (not_lt.mpr (Nat.sub_le_iff_le_add.mpr hnow))]
    refine exec_request_bind.mpr ⟨(), _, _, rfl, rfl, ?_⟩
    exact exec_ask.mpr ⟨Except.ok (), _, [], rfl, rfl, .done _ _⟩
  rw [processInbound, hmessage]
  refine exec_request_bind.mpr ⟨some expected, s, _, rfl, ⟨hpending.symm, rfl⟩, ?_⟩
  simp only [check, hkind, bne_self_eq_false, Bool.false_eq_true, if_false]
  refine exec_request_bind.mpr ⟨true, s, _, rfl, rfl, ?_⟩
  simp only [if_true, htags]
  exact hfinish

/-- Libraries for one example: the tags are read by their names, and the relay is local. -/
def exampleSdk : AuthSdk where
  challenge tag := if tag.kind = "challenge" then tag.values.head? else none
  relay tag := if tag.kind = "relay" then tag.values.head? else none
  host _ := none
  isIpAddr _ := false

/-- An AUTH event for the challenge `17`. -/
def exampleAuth : Event :=
  ⟨5, 1, 1000, authenticationKind, [⟨"challenge", ["17"]⟩, ⟨"relay", ["ws://localhost:8080"]⟩], ""⟩

theorem foundChallenge_exampleAuth :
    Nip42Middleware.foundChallenge exampleSdk exampleAuth = some "17" := by
  simp [Nip42Middleware.foundChallenge, exampleSdk, exampleAuth]

theorem foundRelay_exampleAuth :
    Nip42Middleware.foundRelay exampleSdk exampleAuth = some "ws://localhost:8080" := by
  simp [Nip42Middleware.foundRelay, exampleSdk, exampleAuth]

theorem exampleAuth_valid : Nip42Middleware.validateRelayUrl exampleSdk
    ⟨"ws://localhost:8080", true⟩ "ws://localhost:8080" .default = true := by
  have hlocal : containsText "ws://localhost:8080" "localhost" = true := by
    simp only [containsText, decide_eq_true_eq]
    exact ⟨"ws://".toList, ":8080".toList, by decide⟩
  simp [Nip42Middleware.validateRelayUrl, hlocal]

theorem authenticates_once :
    ∃ s t, ConnectionRun 0 .default 0 (buildWith ⟨false, none, some
        (Nip42Middleware.middleware exampleSdk ⟨"ws://localhost:8080", true⟩)⟩ .nip01 [])
        [.auth exampleAuth] s t ∧
      s.authedPubkey = some 1 ∧ s.authedPubkey = s.eventContext.authedPubkey := by
  have hchain := authChain_buildWith exampleSdk ⟨"ws://localhost:8080", true⟩ .nip01 false
    (List.forall_mem_nil _)
  have hconnect : ConnectionRun 0 .default 0 (buildWith ⟨false, none, some
      (Nip42Middleware.middleware exampleSdk ⟨"ws://localhost:8080", true⟩)⟩ .nip01 []) []
      ⟨some "17", none, ⟨none, .default, 0⟩⟩
      [⟨.getChallengeEvent, "17"⟩, ⟨.trySend 0 ⟨.auth "17", 2, none⟩, .ok ()⟩] :=
    .connect (exec_ask.mpr ⟨"17", _, _, rfl, ⟨rfl, 17, rfl⟩,
      exec_ask.mpr ⟨Except.ok (), _, [], rfl, rfl, .done _ _⟩⟩)
  have hnow : (1200 : Timestamp) ≤ exampleAuth.createdAt + 600 := by decide
  have hmessage := ConnectionRun.message hconnect (exec_bind.mpr ⟨_, _, _, _,
    (List.append_nil _).symm, Nip42Middleware.authenticates ⟨"ws://localhost:8080", true⟩ _
      exampleAuth rfl rfl rfl foundChallenge_exampleAuth foundRelay_exampleAuth exampleAuth_valid hnow,
    .done _ _⟩)
  exact ⟨_, _, hmessage, rfl, (authentication_sound hchain hmessage).1⟩

end RelayBuilder
