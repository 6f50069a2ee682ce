import RelayBuilder.Authentication

/-!
# Protected events

The middleware of `nip70_protected.rs`. An event with the protected tag only passes if the key in
the state of the connection is its author's, and this key was proved by an AUTH.

## Main definitions

* `Nip70Middleware.processInbound`
* `RelayCall.Harmless`: a question that neither stores nor broadcasts, nor changes a connection
* `ProtectedChain`: a chain with `Nip70Middleware` outside `RelayMiddleware`

## Main results

* `ConnectionRun.proved`: the key in the state was proved by an AUTH
* `protected_sound`
-/

namespace RelayBuilder

open Interleave Script

/-! ### The middleware -/

/-- `find_standardized(TagKind::Protected)` finds something: the library standardizes the first
tag of this kind. -/
def hasProtectedTag (standardizes : Tag → Bool) (event : Event) : Bool :=
  (event.tags.find? fun tag => tag.kind == "-").any standardizes

namespace Nip70Middleware

/-- `process_inbound`. -/
def processInbound (standardizes : Tag → Bool) : InboundMiddleware := fun ctx =>
  match ctx.message with
  | some (.event event) =>
    if !hasProtectedTag standardizes event then ctx.next ctx.message
    else do
      match ← Script.request RelayCall.authedPubkey with
      | none =>
        pure (.error (.error (.authRequired "this event may only be published by its author")))
      | some authPubkey =>
        if authPubkey != event.pubkey then
          (ctx.sender.send (.ok event.id false
            "rejected: this event may only be published by its author")).mapError Failure.other
        else ctx.next ctx.message
  | _ => ctx.next ctx.message

/-- `Nip70Middleware`. -/
def middleware (standardizes : Tag → Bool) : Middleware where
  onConnect _ := pure (.ok ())
  processInbound := processInbound standardizes
  processOutbound message := pure (.ok message)

end Nip70Middleware

/-! ### Harmless questions -/

/-- A question that stores nothing, broadcasts nothing, and changes nothing of a connection. It
may put an answer into the connection's channel. -/
def RelayCall.Harmless : RelayCall → Prop
  | .scopedView _ | .query _ _ | .extend _ _ | .negentropyItems _ _ | .verifyFilters _ _
  | .canSeeEvent _ _ | .verify _ | .challenge | .authedPubkey | .eventContext
  | .subscriptionCoordinator | .hexDecode _ | .hexEncode _ | .hasNegentropySubscription _
  | .debugText _ | .now => True
  | .trySend _ packet => packet.message.NotEvent
  | _ => False

theorem RelayCall.Harmless.keepsAuth {call : RelayCall} (h : call.Harmless) : call.KeepsAuth := by
  cases call <;> first | exact h.elim | trivial

/-- Nothing but harmless questions. -/
def Harmless (t : RelayHistory) : Prop := ∀ asked ∈ t, asked.1.Harmless

/-- The event reached `RelayMiddleware`, which asks the event processor what to do with it. -/
def Reaches (event : Event) (t : RelayHistory) : Prop :=
  ∃ context r, (⟨.handleEvent event context, r⟩ : Asked) ∈ t

/-- What becomes of a protected event: it reaches `RelayMiddleware` if the key is its author's, or
nothing happens. -/
def Outcome (event : Event) (s : AuthState) (t : RelayHistory) (s' : AuthState) : Prop :=
  (Reaches event t ∧ s.authedPubkey = some event.pubkey) ∨ (Harmless t ∧ s' = s)

variable {event : Event} {s s' s'' : AuthState} {t t' : RelayHistory}

theorem Reaches.append_left (h : Reaches event t) (t' : RelayHistory) :
    Reaches event (t ++ t') :=
  h.imp fun _ => Exists.imp fun _ => List.mem_append_left t'

theorem Reaches.append_right (h : Reaches event t') (t : RelayHistory) :
    Reaches event (t ++ t') :=
  h.imp fun _ => Exists.imp fun _ => List.mem_append_right t

theorem Harmless.not_reaches (h : Harmless t) : ¬ Reaches event t :=
  fun ⟨_, _, hmem⟩ => h _ hmem

theorem Outcome.nil (s : AuthState) : Outcome event s [] s :=
  .inr ⟨fun _ h => (nomatch h), rfl⟩

theorem Outcome.ask {call : RelayCall} {r : call.Answer} (hcall : call.Harmless)
    (hr : AuthState.answers call s r s') : Outcome event s [⟨call, r⟩] s' :=
  .inr ⟨fun _ h => List.mem_singleton.mp h ▸ hcall, answers_keepsAuth hcall.keepsAuth hr⟩

theorem Outcome.append (h : Outcome event s t s') (h' : Outcome event s' t' s'') :
    Outcome event s (t ++ t') s'' := by
  obtain ⟨hreaches, hkey⟩ | ⟨hharmless, rfl⟩ := h
  · exact .inl ⟨hreaches.append_left t', hkey⟩
  · refine h'.imp (And.imp_left fun hreaches => hreaches.append_right t)
      (And.imp_left fun hharmless' asked hasked => ?_)
    exact (List.mem_append.mp hasked).elim (hharmless asked) (hharmless' asked)

/-! ### The chain -/

/-- The message is the event, or it was dropped. -/
abbrev IsEvent (event : Event) (message : Option ClientMessage) : Prop :=
  ∀ m ∈ message, m = .event event

theorem isEvent_none (event : Event) : IsEvent event none :=
  fun _ h => absurd h (Option.not_mem_none _)

/-- A middleware that does no harm to an event: it asks harmless questions, and hands the event on
or drops it. -/
def Bystander (event : Event) (middleware : InboundMiddleware) : Prop :=
  ∀ ctx, IsEvent event ctx.message → Around anyAnswer RelayCall.Harmless
    (fun message => message = ctx.message ∨ message = none) ctx.next (middleware ctx)

theorem bystander_passOn (event : Event) : Bystander event passOn := fun _ _ => .tail (.inl rfl)

theorem bystander_errorHandling (event : Event) :
    Bystander event ErrorHandlingMiddleware.processInbound := fun ctx _ =>
  aroundNext_errorHandling_of_send (fun _ _ hm => hm) ctx

theorem bystander_nip42 (sdk : AuthSdk) (config : AuthConfig) (event : Event) :
    Bystander event (Nip42Middleware.processInbound sdk config) := by
  rintro ⟨message, sender, subdomain, next⟩ hmessage
  match message with
  | none => exact .tail (.inl rfl)
  | some message =>
    obtain rfl := hmessage message rfl
    exact .tail (.inl rfl)

variable {outer between inside : List InboundMiddleware} {channel : ChannelRef} {subdomain : Scope}
  {message : Option ClientMessage} {r : Except Failure Unit} {kinds : KindRanges}

/-- Bystanders around the rest of a chain. -/
theorem around_bystanders (h : ∀ m ∈ outer, Bystander event m) (channel : ChannelRef)
    (subdomain : Scope) (rest : List InboundMiddleware) (hmessage : IsEvent event message) :
    Around anyAnswer RelayCall.Harmless (fun m => m = message ∨ m = none)
      (processInboundChain channel subdomain rest)
      (processInboundChain channel subdomain (outer ++ rest) message) :=
  around_chain _ (isEvent_none event) h channel subdomain rest hmessage

/-- Bystanders only leave nothing behind. -/
theorem outcome_bystanders (h : ∀ m ∈ inside, Bystander event m) (hmessage : IsEvent event message)
    (hexec : Exec AuthState.answers (processInboundChain channel subdomain inside message) s t r s') :
    Outcome event s t s' := by
  have haround := around_bystanders h channel subdomain [] hmessage
  rw [List.append_nil] at haround
  refine haround.exec (R := Outcome event) (fun _ _ _ _ _ => trivial) .nil
    (fun _ _ _ _ _ => .append) (fun _ _ _ _ => .ask) (fun _ s t r s' _ h => ?_) hexec
  obtain ⟨rfl, -, rfl⟩ := exec_done.mp h
  exact .nil s'

/-- `RelayMiddleware` asks the event processor about the event. -/
theorem outcome_relay (hinside : ∀ m ∈ inside, Bystander event m) (hmessage : IsEvent event message)
    (hkey : message = some (.event event) → s.authedPubkey = some event.pubkey)
    (hexec : Exec AuthState.answers (processInboundChain channel subdomain
      (RelayMiddleware.processInbound kinds :: inside) message) s t r s') :
    Outcome event s t s' := by
  match message with
  | none => exact outcome_bystanders hinside (isEvent_none event) hexec
  | some message =>
    obtain rfl := hmessage message rfl
    obtain ⟨t₁, r₁, s₁, t₂, rfl, h₁, -⟩ := exec_bind.mp hexec
    obtain ⟨t₃, r₃, s₃, t₄, rfl, h₃, -⟩ := exec_bind.mp h₁
    obtain ⟨context, s₅, t₅, rfl, -, h₅⟩ := exec_request_bind.mp h₃
    obtain ⟨commands, s₆, t₆, rfl, -, -⟩ := exec_request_bind.mp h₅
    exact .inl ⟨⟨context, commands, by simp⟩, hkey rfl⟩

/-- What stands inside `Nip70Middleware`. -/
theorem outcome_inner (hbetween : ∀ m ∈ between, Bystander event m)
    (hinside : ∀ m ∈ inside, Bystander event m) (hmessage : IsEvent event message)
    (hkey : message = some (.event event) → s.authedPubkey = some event.pubkey)
    (hexec : Exec AuthState.answers (processInboundChain channel subdomain
      (between ++ RelayMiddleware.processInbound kinds :: inside) message) s t r s') :
    Outcome event s t s' := by
  refine (around_bystanders hbetween channel subdomain _ hmessage).exec
    (R := fun s t s' => (message = some (.event event) → s.authedPubkey = some event.pubkey) →
      Outcome event s t s') (fun _ _ _ _ _ => trivial) (fun s _ => .nil s)
    (fun s t s' t' s'' h h' hkey => ?_) (fun _ _ _ _ hcall hr _ => .ask hcall hr)
    (fun message' s t r s' hmessage' h hkey => ?_) hexec hkey
  · obtain hreached | ⟨hharmless, rfl⟩ := h hkey
    · exact .inl ⟨hreached.1.append_left t', hreached.2⟩
    · exact Outcome.append (.inr ⟨hharmless, rfl⟩) (h' hkey)
  · obtain rfl | rfl := hmessage'
    · exact outcome_relay hinside hmessage hkey h
    · refine outcome_relay hinside (isEvent_none event) ?_ h
      exact fun h => nomatch h

/-- How `Nip70Middleware` turns an event away: it fails, which is answered further out, or it
answers OK false itself. -/
inductive TurnsAway (event : Event) (sender : MessageSender) :
    RelayHistory → Except Failure Unit → Prop where
  | unauthenticated : TurnsAway event sender [⟨.authedPubkey, none⟩]
    (.error (.error (.authRequired "this event may only be published by its author")))
  | other {key : PublicKey} (hkey : key ≠ event.pubkey)
    {sent : Except Channel.TrySendError Unit} {r : Except Failure Unit} :
    TurnsAway event sender [⟨.authedPubkey, some key⟩, ⟨.trySend sender.channel (sender.packet
      (.ok event.id false "rejected: this event may only be published by its author")), sent⟩] r

variable {standardizes : Tag → Bool}

/-- What `Nip70Middleware` does with a protected event. -/
theorem nip70_cases (hprotected : hasProtectedTag standardizes event = true) {ctx : InboundContext}
    (hmessage : ctx.message = some (.event event))
    (hexec : Exec AuthState.answers (Nip70Middleware.processInbound standardizes ctx) s t r s') :
    (s.authedPubkey = some event.pubkey ∧ ∃ t', t = ⟨.authedPubkey, some event.pubkey⟩ :: t' ∧
      Exec AuthState.answers (ctx.next ctx.message) s t' r s') ∨
    (s.authedPubkey ≠ some event.pubkey ∧ TurnsAway event ctx.sender t r ∧ s' = s) := by
  rw [Nip70Middleware.processInbound, hmessage] at hexec
  simp only [hprotected, Bool.not_true, Bool.false_eq_true, if_false] at hexec
  obtain ⟨key, s₁, t₁, rfl, ⟨rfl, rfl⟩, h⟩ := exec_request_bind.mp hexec
  cases hkey : s₁.authedPubkey with
  | none =>
    rw [hkey] at h
    obtain ⟨rfl, rfl, rfl⟩ := exec_done.mp h
    exact .inr ⟨fun h => (nomatch h), .unauthenticated, rfl⟩
  | some key =>
    rw [hkey] at h
    dsimp only at h
    by_cases heq : key = event.pubkey
    · subst heq
      rw [if_neg (by simp)] at h
      exact .inl ⟨rfl, t₁, rfl, hmessage ▸ h⟩
    · rw [if_pos (by simpa using heq)] at h
      obtain ⟨sent, s₂, t₂, rfl, hs₂, h'⟩ := exec_request_bind.mp h
      obtain rfl : s₂ = s₁ := hs₂
      obtain ⟨rfl, -, rfl⟩ := exec_done.mp h'
      exact .inr ⟨fun h => heq (Option.some.inj h), .other heq, rfl⟩

/-- What the part of the chain from `Nip70Middleware` on does with a protected event. -/
theorem outcome_nip70 (hprotected : hasProtectedTag standardizes event = true)
    (hbetween : ∀ m ∈ between, Bystander event m) (hinside : ∀ m ∈ inside, Bystander event m)
    (hmessage : IsEvent event message)
    (hexec : Exec AuthState.answers (processInboundChain channel subdomain
      (Nip70Middleware.processInbound standardizes ::
        (between ++ RelayMiddleware.processInbound kinds :: inside)) message) s t r s') :
    Outcome event s t s' := by
  match message with
  | none =>
    exact outcome_inner hbetween hinside (isEvent_none event) (fun h => nomatch h) hexec
  | some message =>
    obtain rfl := hmessage message rfl
    obtain ⟨hkey, t', rfl, h⟩ | ⟨_, hturns, rfl⟩ := nip70_cases hprotected rfl hexec
    · have hread : Outcome event s [⟨.authedPubkey, some event.pubkey⟩] s :=
        .ask trivial ⟨hkey.symm, rfl⟩
      exact hread.append (outcome_inner hbetween hinside hmessage (fun _ => hkey) h)
    · refine .inr ⟨?_, rfl⟩
      cases hturns with
      | unauthenticated =>
        exact fun asked hasked => List.mem_singleton.mp hasked ▸ trivial
      | other =>
        refine List.forall_mem_cons.mpr ⟨trivial, fun asked hasked => ?_⟩
        exact List.mem_singleton.mp hasked ▸ trivial

/-- What the chain does with a protected event. -/
theorem outcome_chain (hprotected : hasProtectedTag standardizes event = true)
    (houter : ∀ m ∈ outer, Bystander event m) (hbetween : ∀ m ∈ between, Bystander event m)
    (hinside : ∀ m ∈ inside, Bystander event m) (hmessage : IsEvent event message)
    (hexec : Exec AuthState.answers (processInboundChain channel subdomain
      (outer ++ Nip70Middleware.processInbound standardizes ::
        (between ++ RelayMiddleware.processInbound kinds :: inside)) message) s t r s') :
    Outcome event s t s' := by
  refine (around_bystanders houter channel subdomain _ hmessage).exec (R := Outcome event)
    (fun _ _ _ _ _ => trivial) .nil (fun _ _ _ _ _ => .append) (fun _ _ _ _ => .ask)
    (fun message' s t r s' hmessage' h => ?_) hexec
  obtain rfl | rfl := hmessage'
  · exact outcome_nip70 hprotected hbetween hinside hmessage h
  · exact outcome_nip70 hprotected hbetween hinside (isEvent_none event) h

/-! ### The key in the state -/

/-- An AUTH event was accepted after these messages and this history, for a challenge that had been
issued to the connection. -/
structure AcceptedAfter (sdk : AuthSdk) (configs : List AuthConfig) (channel : ChannelRef)
    (scope : Scope) (relayPubkey : PublicKey) (chain : List Middleware)
    (messages : List ClientMessage) (t t' : RelayHistory) (auth : Event) : Prop where
  accepted : ∃ s, ConnectionRun channel scope relayPubkey chain messages s t ∧
    Accepted sdk configs scope s t' auth
  issued : ∃ challenge, Nip42Middleware.foundChallenge sdk auth = some challenge ∧
    Issued challenge t

/-- Among these messages is an AUTH event that the key signed and that was accepted. -/
def Proved (sdk : AuthSdk) (configs : List AuthConfig) (channel : ChannelRef) (scope : Scope)
    (relayPubkey : PublicKey) (chain : List Middleware) (messages : List ClientMessage)
    (t : RelayHistory) (key : PublicKey) : Prop :=
  ∃ before auth after t₁ t₂ t₃, messages = before ++ .auth auth :: after ∧ t = t₁ ++ (t₂ ++ t₃) ∧
    AcceptedAfter sdk configs channel scope relayPubkey chain before t₁ t₂ auth ∧ auth.pubkey = key

variable {sdk : AuthSdk} {configs : List AuthConfig} {scope : Scope} {relayPubkey : PublicKey}
  {chain : List Middleware} {messages : List ClientMessage} {key : PublicKey}

/-- **The key in the state was proved.** Whenever the state of a connection holds a key, the key
signed an AUTH event that was accepted earlier on this connection, for a challenge issued to it. -/
theorem ConnectionRun.proved (hchain : AuthChain sdk configs chain)
    (hrun : ConnectionRun channel scope relayPubkey chain messages s t)
    (hkey : s.authedPubkey = some key) :
    Proved sdk configs channel scope relayPubkey chain messages t key := by
  induction hrun with
  | connect h =>
    have hconnects := connects_exec (connects_onConnectChain hchain channel) h
    exact absurd (hconnects.key.symm.trans hkey) (fun h => nomatch h)
  | message hrun h' ih =>
    rename_i messages s s' t t' message r
    obtain ⟨hstep, -⟩ := handles_inboundChain hchain channel h'
    cases hstep with
    | unchanged hkey' _ _ =>
      obtain ⟨before, auth, after, t₁, t₂, t₃, rfl, rfl, haccepted, rfl⟩ :=
        ih (hkey'.symm.trans hkey)
      refine ⟨before, auth, after ++ [message], t₁, t₂, t₃ ++ t', ?_, ?_, haccepted, rfl⟩
      · rw [List.append_assoc, List.cons_append]
      · rw [List.append_assoc, List.append_assoc]
    | authenticated auth hmessage haccepted hs' =>
      subst hs'
      obtain rfl := Option.some.inj hmessage
      obtain ⟨challenge, hpending, hfound⟩ := haccepted.challenge
      have hissued := issued_of_pendingAfter
        ((hrun.invariant hchain).2.pending.symm.trans hpending)
      refine ⟨messages, auth, [], t, t', [], rfl, by rw [List.append_nil],
        ⟨⟨s, hrun, haccepted⟩, challenge, hfound, hissued.resolve_left fun h => nomatch h⟩, ?_⟩
      exact Option.some.inj hkey

/-! ### The chain of a connection -/

/-- The middlewares of a chain with `Nip70Middleware` outside `RelayMiddleware`. -/
def protectedChain (standardizes : Tag → Bool) (kinds : KindRanges)
    (outer between inside : List Middleware) : List Middleware :=
  outer ++ Nip70Middleware.middleware standardizes ::
    (between ++ RelayMiddleware.middleware kinds :: inside)

/-- `Nip42Middleware`, or a middleware that leaves authentication alone and does no harm to
events. -/
def LeavesProtected (sdk : AuthSdk) (configs : List AuthConfig) (middleware : Middleware) : Prop :=
  (∃ config ∈ configs, middleware = Nip42Middleware.middleware sdk config) ∨
    (LeavesAuth middleware ∧ ∀ event, Bystander event middleware.processInbound)

theorem LeavesProtected.bystander {m : Middleware} (h : LeavesProtected sdk configs m) (event : Event) :
    Bystander event m.processInbound := by
  obtain ⟨config, -, rfl⟩ | h := h
  · exact bystander_nip42 sdk config event
  · exact h.2 event

theorem LeavesProtected.auth {m : Middleware} (h : LeavesProtected sdk configs m) :
    (∃ config ∈ configs, m = Nip42Middleware.middleware sdk config) ∨ LeavesAuth m :=
  h.imp_right And.left

theorem aroundNext_nip70 (standardizes : Tag → Bool) :
    AroundNext anyAnswer RelayCall.KeepsAuth (Nip70Middleware.processInbound standardizes) := by
  rintro ⟨message, sender, subdomain, next⟩
  match message with
  | some (.event event) =>
    simp only [Nip70Middleware.processInbound]
    split
    · exact Around.tail (.inl rfl)
    · refine Around.ask trivial fun key _ => ?_
      cases key with
      | none => exact .done _
      | some key =>
        dsimp only [Script.done_bind]
        split
        · exact .of_everyAsk (EveryAsk.mapError (everyAsk_request trivial).mapError)
        · exact .tail (.inl rfl)
  | none | some (.auth _) | some (.req _ _) | some (.close _) | some (.count _ _)
  | some (.negOpen _ _ _) | some (.negMsg _ _) | some (.negClose _) => exact .tail (.inl rfl)

variable {outerM betweenM insideM : List Middleware}

theorem authChain_protected
    (hothers : ∀ m ∈ outerM ++ betweenM ++ insideM, LeavesProtected sdk configs m) :
    AuthChain sdk configs (protectedChain standardizes kinds outerM betweenM insideM) := by
  have hnip70 : LeavesAuth (Nip70Middleware.middleware standardizes) :=
    leavesAuth_of_aroundNext (fun _ => rfl) (aroundNext_nip70 standardizes)
  have hrelay : LeavesAuth (RelayMiddleware.middleware kinds) :=
    leavesAuth_of_aroundNext (fun _ => rfl) (aroundNext_relay relayAsks_keepsAuth kinds)
  intro m hm
  have hm' : m ∈ outerM ++ betweenM ++ insideM ∨ m = Nip70Middleware.middleware standardizes ∨
      m = RelayMiddleware.middleware kinds := by
    simp only [protectedChain, List.mem_append, List.mem_cons] at hm ⊢
    tauto
  obtain hm' | rfl | rfl := hm'
  · exact (hothers m hm').auth
  · exact .inr hnip70
  · exact .inr hrelay

/-- **Protected events come only from their authors.** In every connection whose chain places
`Nip70Middleware` outside `RelayMiddleware`, and after any messages: a protected event reaches
`RelayMiddleware` only if its author signed an AUTH event that was accepted earlier on the same
connection, for a challenge issued to it. If it does not, then nothing is stored or broadcast, and
nothing of the connection changes. And if the author is not the authenticated key,
`Nip70Middleware` turns the event away. -/
theorem protected_sound
    (hothers : ∀ m ∈ outerM ++ betweenM ++ insideM, LeavesProtected sdk configs m)
    (hrun : ConnectionRun channel scope relayPubkey
      (protectedChain standardizes kinds outerM betweenM insideM) messages s t)
    (hprotected : hasProtectedTag standardizes event = true) :
    (∀ t' r s', Exec AuthState.answers (inboundChain channel scope
        (protectedChain standardizes kinds outerM betweenM insideM) (some (.event event)))
        s t' r s' →
      (Reaches event t' → Proved sdk configs channel scope relayPubkey
        (protectedChain standardizes kinds outerM betweenM insideM) messages t event.pubkey) ∧
      (¬ Reaches event t' → Harmless t' ∧ s' = s)) ∧
    (s.authedPubkey ≠ some event.pubkey → ∀ ctx : InboundContext,
      ctx.message = some (.event event) → ∀ t' r s',
      Exec AuthState.answers (Nip70Middleware.processInbound standardizes ctx) s t' r s' →
        TurnsAway event ctx.sender t' r) := by
  refine ⟨fun t' r s' hexec => ?_, fun hkey ctx hmessage t' r s' hexec => ?_⟩
  · have hbystander : ∀ l : List Middleware, (∀ m ∈ l, m ∈ outerM ++ betweenM ++ insideM) →
        ∀ m ∈ l.map Middleware.processInbound, Bystander event m := by
      rintro l hl _ hmem
      obtain ⟨m, hm, rfl⟩ := List.mem_map.mp hmem
      exact (hothers m (hl m hm)).bystander event
    rw [inboundChain, protectedChain, List.map_append, List.map_cons, List.map_append,
      List.map_cons] at hexec
    have houtcome := outcome_chain hprotected
      (hbystander outerM fun m hm => by simp [hm]) (hbystander betweenM fun m hm => by simp [hm])
      (hbystander insideM fun m hm => by simp [hm]) (fun m hm => (Option.some.inj hm).symm) hexec
    obtain ⟨hreaches, hkey⟩ | ⟨hharmless, hs'⟩ := houtcome
    · exact ⟨fun _ => hrun.proved (authChain_protected hothers) hkey, fun h => absurd hreaches h⟩
    · exact ⟨fun h => absurd h hharmless.not_reaches, fun _ => ⟨hharmless, hs'⟩⟩
  · obtain ⟨h, -⟩ | ⟨-, h, -⟩ := nip70_cases hprotected hmessage hexec
    · exact absurd h hkey
    · exact h

/-- A protected note of the key that `exampleAuth` proves. -/
def exampleProtected : Event := ⟨6, 1, 1000, 1, [⟨"-", []⟩], "members only"⟩

theorem exampleProtected_tag : hasProtectedTag (fun _ => true) exampleProtected = true := by
  simp [hasProtectedTag, exampleProtected]

/-- A chain that protects events, for a relay at a local address. -/
def exampleProtectedChain : List Middleware :=
  protectedChain (fun _ => true) .nip01
    [Nip42Middleware.middleware exampleSdk ⟨"ws://localhost:8080", true⟩] [] []

theorem run_exampleProtectedChain : ∃ t, ConnectionRun 0 .default 0 exampleProtectedChain
    [.auth exampleAuth] ⟨none, some 1, ⟨some 1, .default, 0⟩⟩ t := by
  have hconnect : ConnectionRun 0 .default 0 exampleProtectedChain []
      ⟨some "17", none, ⟨none, .default, 0⟩⟩
      [⟨.getChallengeEvent, "17"⟩, ⟨.trySend 0 ⟨.auth "17", 2, none⟩, .ok ()⟩] :=
    .connect (exec_ask.mpr ⟨"17", _, _, rfl, ⟨rfl, 17, rfl⟩,
      exec_ask.mpr ⟨Except.ok (), _, [], rfl, rfl, .done _ _⟩⟩)
  have hnow : (1200 : Timestamp) ≤ exampleAuth.createdAt + 600 := by decide
  have hauth := Nip42Middleware.authenticates (s := ⟨some "17", none, ⟨none, .default, 0⟩⟩)
    ⟨"ws://localhost:8080", true⟩ ⟨some (.auth exampleAuth), ⟨0, 2⟩, .default, inboundChain 0 .default
      [Nip70Middleware.middleware fun _ => true, RelayMiddleware.middleware .nip01]⟩ exampleAuth
    rfl rfl rfl foundChallenge_exampleAuth foundRelay_exampleAuth exampleAuth_valid hnow
  exact ⟨_, .message hconnect hauth⟩

theorem protected_note_proved : ∃ t, Proved exampleSdk [⟨"ws://localhost:8080", true⟩] 0 .default 0
    exampleProtectedChain [.auth exampleAuth] t exampleProtected.pubkey := by
  obtain ⟨t, hrun⟩ := run_exampleProtectedChain
  have hothers : ∀ m ∈ [Nip42Middleware.middleware exampleSdk ⟨"ws://localhost:8080", true⟩] ++
      ([] : List Middleware) ++ [], LeavesProtected exampleSdk [⟨"ws://localhost:8080", true⟩] m :=
    fun m hm => .inl ⟨_, List.mem_singleton_self _, by simpa using hm⟩
  have hexec : Exec AuthState.answers (Nip70Middleware.processInbound (fun _ => true)
      ⟨some (.event exampleProtected), ⟨0, 1⟩, .default, inboundChain 0 .default
        [RelayMiddleware.middleware .nip01]⟩) ⟨none, some 1, ⟨some 1, .default, 0⟩⟩
      [⟨.authedPubkey, some 1⟩, ⟨.eventContext, ⟨some 1, .default, 0⟩⟩,
        ⟨.handleEvent exampleProtected ⟨some 1, .default, 0⟩, .error (.internal "busy")⟩]
      (.error (.error (.internal "busy"))) ⟨none, some 1, ⟨some 1, .default, 0⟩⟩ := by
    simp only [Nip70Middleware.processInbound, exampleProtected_tag, Bool.not_true,
      Bool.false_eq_true, if_false]
    refine exec_request_bind.mpr ⟨some 1, _, _, rfl, ⟨rfl, rfl⟩, ?_⟩
    refine exec_request_bind.mpr ⟨⟨some 1, .default, 0⟩, _, _, rfl, ⟨rfl, rfl⟩, ?_⟩
    exact exec_request_bind.mpr ⟨.error (.internal "busy"), _, [], rfl, rfl, .done _ _⟩
  refine ⟨t, ((protected_sound hothers hrun exampleProtected_tag).1 _ _ _ hexec).1 ?_⟩
  exact ⟨_, _, List.mem_cons_of_mem _ (List.mem_cons_of_mem _ (List.mem_singleton_self _))⟩

end RelayBuilder
