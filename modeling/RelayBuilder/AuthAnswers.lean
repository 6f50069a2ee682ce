import RelayBuilder.Authentication
import RelayBuilder.EventAnswers

/-!
# The answers to an AUTH

`Nip42Middleware` answers an AUTH itself. Where it refuses one it also fails, and the
`ErrorHandlingMiddleware` outside of it answers the error once more.

## Main definitions

* `AuthEnv`: the check of signatures, and the clock
* `AuthEnv.Passes`: an AUTH event that passes every check
* `AuthAnsweredOnce`

## Main results

* `authAnsweredOnce_iff`
-/

namespace RelayBuilder

open Interleave Script

/-- What the checks of an AUTH event take from outside: the check of signatures, and the time. -/
structure AuthEnv where
  verifies : Event → Bool
  now : Timestamp

namespace AuthEnv

/-- The answer is that of this environment. -/
def Allows (env : AuthEnv) : Asked → Prop
  | ⟨.verify event, r⟩ => r = env.verifies event
  | ⟨.now, r⟩ => r = env.now
  | _ => True

/-- What the questions do to the state, in this environment. -/
def answers (env : AuthEnv) : Script.Answers RelayCall.Answer AuthState := fun call s r s' =>
  AuthState.answers call s r s' ∧ env.Allows ⟨call, r⟩

/-- The AUTH event passes every check, against the challenge that is pending. -/
def Passes (env : AuthEnv) (sdk : AuthSdk) (config : AuthConfig) (scope : Scope) (s : AuthState)
    (event : Event) : Prop :=
  ∃ expected, s.challenge = some expected ∧ event.kind = authenticationKind ∧
    env.verifies event = true ∧ Nip42Middleware.tagRefusal sdk config scope expected event = none ∧
    env.now ≤ event.createdAt + 600

end AuthEnv

/-- The connection became authenticated by the event. -/
def BecameAuthenticated (event : Event) (s s' : AuthState) : Prop :=
  s' ≠ s ∧ s' = s.setAuthenticated event.pubkey

/-- The channel took exactly one OK for the event, and this says whether the connection became
authenticated. -/
def AuthAnsweredOnce (channel : ChannelRef) (event : Event) (s : AuthState) (t : RelayHistory)
    (s' : AuthState) : Prop :=
  ∃ status, (okMessages channel t).filter (fun ok => ok.1 = event.id) = [(event.id, status)] ∧
    (status = true ↔ BecameAuthenticated event s s')

variable {env : AuthEnv} {sdk : AuthSdk} {config : AuthConfig} {scope : Scope} {event : Event}
  {s s' : AuthState} {t : RelayHistory} {r : Except Failure Unit}

/-- A message that is sent while there is room. -/
theorem exec_send_room {sender : MessageSender} {message : RelayMessage}
    {r : Except String Unit} (h : Exec env.answers (sender.send message) s t r s')
    (hroom : Room sender.channel t) :
    t = [⟨.trySend sender.channel (sender.packet message), .ok ()⟩] ∧ r = .ok () ∧ s' = s := by
  obtain ⟨sent, s₁, t₁, rfl, ⟨rfl, -⟩, h₁⟩ := exec_request_bind.mp h
  obtain ⟨rfl, rfl, rfl⟩ := exec_done.mp h₁
  obtain rfl := hroom _ sent (List.mem_singleton_self _)
  exact ⟨rfl, rfl, rfl⟩

theorem okMessages_send (sender : MessageSender) (id : EventId) (status : Bool) (text : String) :
    okMessages sender.channel [⟨.trySend sender.channel (sender.packet (.ok id status text)),
      .ok ()⟩] = [(id, status)] := by
  simp [okMessages, Asked.okMessage?, MessageSender.packet]

/-- A refusal answers OK false, and fails. -/
theorem exec_refuse {ctx : InboundContext} {text error : String}
    (h : Exec env.answers (Nip42Middleware.refuse ctx event text error) s t r s')
    (hroom : Room ctx.sender.channel t) :
    okMessages ctx.sender.channel t = [(event.id, false)] ∧
      r = .error (.error (.authRequired error)) ∧ s' = s := by
  obtain ⟨t₁, r₁, s₁, t₂, rfl, h₁, h₂⟩ := exec_bind.mp h
  obtain ⟨t₃, r₃, s₃, t₄, rfl, h₃, h₄⟩ := exec_bind.mp h₁
  obtain ⟨rfl, rfl, rfl⟩ := exec_done.mp h₄
  rw [List.append_nil] at hroom ⊢
  obtain ⟨rfl, rfl, rfl⟩ := exec_send_room h₃ hroom.append.1
  obtain ⟨rfl, rfl, rfl⟩ := exec_done.mp h₂
  rw [List.append_nil]
  exact ⟨okMessages_send _ _ _ _, rfl, rfl⟩

/-- What `Nip42Middleware` does with an AUTH: it answers OK true and authenticates, or it answers
OK false and fails. -/
theorem nip42_cases {ctx : InboundContext} (hmessage : ctx.message = some (.auth event))
    (h : Exec env.answers (Nip42Middleware.processInbound sdk config ctx) s t r s')
    (hroom : Room ctx.sender.channel t) :
    (env.Passes sdk config ctx.subdomain s event ∧ r = .ok () ∧
      okMessages ctx.sender.channel t = [(event.id, true)] ∧ BecameAuthenticated event s s') ∨
    (¬ env.Passes sdk config ctx.subdomain s event ∧
      (∃ error, r = .error (.error (.authRequired error))) ∧
      okMessages ctx.sender.channel t = [(event.id, false)] ∧ s' = s) := by
  have hrefused : ∀ (asked : RelayHistory) {text error t'},
      ¬ env.Passes sdk config ctx.subdomain s event →
      Exec env.answers (Nip42Middleware.refuse ctx event text error) s t' r s' →
      okMessages ctx.sender.channel asked = [] → t = asked ++ t' →
      ¬ env.Passes sdk config ctx.subdomain s event ∧
        (∃ error, r = .error (.error (.authRequired error))) ∧
        okMessages ctx.sender.channel t = [(event.id, false)] ∧ s' = s := by
    rintro asked text error t' hno h' hasked rfl
    obtain ⟨hoks, rfl, rfl⟩ := exec_refuse h' hroom.append.2
    exact ⟨hno, ⟨_, rfl⟩, by rw [okMessages_append, hasked, hoks, List.nil_append], rfl⟩
  rw [Nip42Middleware.processInbound, hmessage] at h
  obtain ⟨challenge, s₁, t₁, rfl, ⟨⟨rfl, rfl⟩, -⟩, h₁⟩ := exec_request_bind.mp h
  cases hchallenge : s₁.challenge with
  | none =>
    rw [hchallenge] at h₁
    refine .inr (hrefused [_] ?_ h₁ rfl rfl)
    rintro ⟨_, hpending, -⟩
    cases hchallenge.symm.trans hpending
  | some expected =>
    rw [hchallenge] at h₁
    simp only [Nip42Middleware.check] at h₁
    split at h₁
    · rename_i hkind
      refine .inr (hrefused [_] ?_ h₁ rfl rfl)
      rintro ⟨_, -, hkind', -⟩
      simp [hkind'] at hkind
    rename_i hkind
    obtain ⟨verified, s₂, t₂, rfl, ⟨rfl, rfl⟩, h₂⟩ := exec_request_bind.mp h₁
    split at h₂
    swap
    · rename_i hverified
      exact .inr (hrefused [_, _] (fun hpasses => hverified hpasses.choose_spec.2.2.1) h₂ rfl rfl)
    rename_i hverified
    cases htags : Nip42Middleware.tagRefusal sdk config ctx.subdomain expected event with
    | some refusal =>
      rw [htags] at h₂
      refine .inr (hrefused [_, _] ?_ h₂ rfl rfl)
      rintro ⟨expected', hpending, _, _, htags', _⟩
      obtain rfl := Option.some.inj (hchallenge.symm.trans hpending)
      cases htags.symm.trans htags'
    | none =>
      rw [htags] at h₂
      obtain ⟨now, s₃, t₃, rfl, ⟨rfl, rfl⟩, h₃⟩ := exec_request_bind.mp h₂
      split at h₃
      · rename_i hexpired
        refine .inr (hrefused [_, _, _] ?_ h₃ rfl rfl)
        rintro ⟨_, -, -, -, -, hnow⟩
        exact absurd (Nat.sub_le_iff_le_add.mpr hnow) (not_le.mpr hexpired)
      · rename_i hrecent
        obtain ⟨u, s₄, t₄, rfl, ⟨rfl, -⟩, h₄⟩ := exec_request_bind.mp h₃
        obtain ⟨t₅, r₅, s₅, t₆, rfl, h₅, h₆⟩ := exec_bind.mp h₄
        obtain ⟨rfl, rfl, rfl⟩ := exec_done.mp h₆
        rw [List.append_nil] at hroom ⊢
        obtain ⟨rfl, rfl, rfl⟩ :=
          exec_send_room h₅ fun packet r hmem => hroom packet r (by simp [hmem])
        refine .inl ⟨⟨expected, hchallenge, by simpa using hkind, hverified, htags,
          Nat.sub_le_iff_le_add.mp (not_lt.mp hrecent)⟩, rfl, okMessages_send _ _ _ _, ?_, rfl⟩
        -- the challenge is spent
        intro heq
        cases hchallenge.symm.trans (congrArg AuthState.challenge heq).symm

/-- The messages are AUTHs. -/
def IsAuth (message : ClientMessage) : Prop := ∃ event, message = .auth event

variable {outer between inside : List InboundMiddleware} {channel : ChannelRef}

/-- What the chain does with an AUTH. -/
theorem authChain_cases (ho : ∀ m ∈ outer, HandsOn IsAuth m) (hb : ∀ m ∈ between, HandsOn IsAuth m)
    (h : Exec env.answers (processInboundChain channel scope
      (outer ++ ErrorHandlingMiddleware.processInbound ::
        (between ++ Nip42Middleware.processInbound sdk config :: inside)) (some (.auth event)))
      s t r s') (hroom : Room channel t) :
    (env.Passes sdk config scope s event ∧ okMessages channel t = [(event.id, true)] ∧
      BecameAuthenticated event s s') ∨
    (¬ env.Passes sdk config scope s event ∧
      okMessages channel t = [(event.id, false), (event.id, false)] ∧ s' = s) := by
  have hmem : ∀ m ∈ some (ClientMessage.auth event), IsAuth m := fun m hm =>
    ⟨event, (Option.some.inj hm).symm⟩
  rw [processInboundChain_append channel scope ho _ hmem, processInboundChain] at h
  obtain ⟨t₁, r₁, s₁, t₂, rfl, h₁, h₂⟩ := exec_bind.mp h
  dsimp only at h₁
  rw [processInboundChain_append channel scope hb _ hmem] at h₁
  obtain ⟨hpasses, rfl, hoks, hbecame⟩ | ⟨hno, ⟨error, rfl⟩, hoks, rfl⟩ :=
    nip42_cases rfl h₁ hroom.append.1
  · obtain ⟨rfl, -, rfl⟩ := exec_done.mp h₂
    exact .inl ⟨hpasses, by rwa [List.append_nil], hbecame⟩
  · obtain ⟨t₃, r₃, s₃, t₄, rfl, h₃, h₄⟩ := exec_bind.mp h₂
    obtain ⟨rfl, -, rfl⟩ := exec_done.mp h₄
    rw [List.append_nil] at hroom ⊢
    obtain ⟨rfl, -, rfl⟩ := exec_send_room h₃ hroom.append.2
    refine .inr ⟨hno, ?_, rfl⟩
    rw [okMessages_append, hoks]
    exact congrArg _ (okMessages_send _ _ _ _)

/-- **When an AUTH gets exactly one OK.** In every chain with `ErrorHandlingMiddleware` outside
`Nip42Middleware`, whose other middlewares there hand an AUTH on, for every state and every AUTH
event, and with room in the channel: exactly one OK for the event is enqueued, and it is true
exactly if the connection became authenticated, if and only if the event passes every check. -/
theorem authAnsweredOnce_iff (ho : ∀ m ∈ outer, HandsOn IsAuth m)
    (hb : ∀ m ∈ between, HandsOn IsAuth m)
    (h : Exec env.answers (processInboundChain channel scope
      (outer ++ ErrorHandlingMiddleware.processInbound ::
        (between ++ Nip42Middleware.processInbound sdk config :: inside)) (some (.auth event)))
      s t r s') (hroom : Room channel t) :
    AuthAnsweredOnce channel event s t s' ↔ env.Passes sdk config scope s event := by
  obtain ⟨hpasses, hoks, hbecame⟩ | ⟨hno, hoks, rfl⟩ := authChain_cases ho hb h hroom
  · refine iff_of_true ⟨true, ?_, iff_of_true rfl hbecame⟩ hpasses
    simp [hoks]
  · refine iff_of_false (fun ⟨status, hone, _⟩ => ?_) hno
    rw [hoks] at hone
    simp at hone

/-- A history that this environment could have given as well. -/
theorem exec_env (env : AuthEnv) {α : Type} {p : Relay α} {a : α}
    (h : Exec AuthState.answers p s t a s')
    (ht : ∀ asked ∈ t, env.Allows asked) : Exec env.answers p s t a s' := by
  induction h with
  | done a s => exact .done a s
  | ask r hr _ ih =>
    rw [List.forall_mem_cons] at ht
    exact .ask r ⟨hr, ht.1⟩ (ih ht.2)

/-- Every signature is good. -/
def exampleEnv : AuthEnv := ⟨fun _ => true, 1200⟩

theorem exampleAuth_answered : ∃ t s',
    AuthAnsweredOnce 0 exampleAuth ⟨some "17", none, ⟨none, .default, 0⟩⟩ t s' := by
  have hnow : (1200 : Timestamp) ≤ exampleAuth.createdAt + 600 := by decide
  have hauth := exec_env exampleEnv (Nip42Middleware.authenticates
    (s := ⟨some "17", none, ⟨none, .default, 0⟩⟩) ⟨"ws://localhost:8080", true⟩
    ⟨some (.auth exampleAuth), ⟨0, 0⟩, .default, fun _ => pure (.ok ())⟩ exampleAuth
    rfl rfl rfl foundChallenge_exampleAuth foundRelay_exampleAuth exampleAuth_valid hnow)
    (by simp [AuthEnv.Allows, exampleEnv])
  have hexec : Exec exampleEnv.answers (processInboundChain 0 .default ([passOn] ++
      ErrorHandlingMiddleware.processInbound :: ([] ++ Nip42Middleware.processInbound exampleSdk
        ⟨"ws://localhost:8080", true⟩ :: [])) (some (.auth exampleAuth))) _ _ (.ok ()) _ :=
    exec_bind.mpr ⟨_, _, _, _, (List.append_nil _).symm, hauth, .done _ _⟩
  refine ⟨_, _, (authAnsweredOnce_iff ?_ (List.forall_mem_nil _) hexec ?_).mpr
    ⟨"17", rfl, rfl, rfl, ?_, hnow⟩⟩
  · exact List.forall_mem_singleton.mpr (handsOn_passOn _)
  · simp [Room]
  · simp [Nip42Middleware.tagRefusal, foundChallenge_exampleAuth, foundRelay_exampleAuth,
      exampleAuth_valid]

/-- An AUTH for which no challenge is pending gets two OKs. -/
theorem refused_auth_answered_twice : ¬ ∀ (env : AuthEnv) (sdk : AuthSdk) (config : AuthConfig)
    (s : AuthState) (event : Event) (t : RelayHistory) (r : Except Failure Unit) (s' : AuthState),
    Exec env.answers (processInboundChain 0 .default [ErrorHandlingMiddleware.processInbound,
      Nip42Middleware.processInbound sdk config] (some (.auth event))) s t r s' →
    Room 0 t → AuthAnsweredOnce 0 event s t s' := by
  intro h
  have hexec : Exec exampleEnv.answers (processInboundChain 0 .default
      [ErrorHandlingMiddleware.processInbound, Nip42Middleware.processInbound exampleSdk ⟨"", true⟩]
      (some (.auth exampleAuth))) (.new .default 0)
      [⟨.challenge, none⟩,
        ⟨.trySend 0 ⟨.ok 5 false "auth-required: no challenge pending", 0, none⟩, .ok ()⟩,
        ⟨.trySend 0 ⟨.ok 5 false "auth-required: No challenge found in state", 1, none⟩, .ok ()⟩]
      (.ok ()) (.new .default 0) :=
    .ask _ ⟨⟨rfl, rfl⟩, trivial⟩ <| .ask _ ⟨rfl, trivial⟩ <| .ask _ ⟨rfl, trivial⟩ <| .done _ _
  obtain ⟨status, hone, -⟩ := h _ _ _ _ _ _ _ _ hexec fun packet r hmem => by
    simp only [List.mem_cons, List.not_mem_nil, or_false] at hmem
    obtain hmem | hmem | hmem := hmem <;> cases hmem <;> rfl
  have htwo : 2 = 1 := congrArg List.length hone
  exact absurd htwo (by decide)

end RelayBuilder
