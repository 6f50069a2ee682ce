import RelayBuilder.MiddlewareChain

/-!
# The life of a connection

`handle_socket` of `websocket/connection.rs`, with the handler that `nostr_handler.rs` makes for a
connection. The socket, the clock, the middlewares and `on_message` may do and return anything.

A middleware that was connected is owed one `on_disconnect`. It does not always get it: the
chain's connection and its disconnection both stop at the first middleware that fails, and the
loop has ways out that do not disconnect at all.

## Main definitions

* `NostrConnection.onConnect`, `onDisconnect`
* `handleSocket`
* `HooksPaired`: connections and disconnections belong together

## Main results

* `hooksPaired_iff`: when they do
-/

namespace RelayBuilder

open Interleave Script

variable {M : Type}

inductive DisconnectReason where
  | close (code : ℕ) (reason : String)
  | error (message : String)
  | timeout (message : String)
  | unknown

/-- `from_close_frame`. -/
def DisconnectReason.fromCloseFrame : Option (ℕ × String) → DisconnectReason
  | some (code, reason) => .close code reason
  | none => .unknown

/-- What a client sends. -/
inductive Frame where
  | text (text : String)
  | binary
  | close (frame : Option (ℕ × String))
  | ping
  | pong

/-- `ConnectionConfig`, in the unit of the clock. -/
structure ConnectionConfig where
  maxConnectionDuration : Option ℕ
  idleTimeout : Option ℕ

/-- What the connection asks besides its middlewares. -/
inductive SocketCall where
  | now
  /-- The next frame. There is none when the stream has ended. -/
  | next
  /-- The same, if it comes in time. -/
  | nextWithin (timeout : ℕ)
  | onMessage (text : String)
  | spawnOutbound
  /-- Abort the inbound task, cancel the outbound task and wait for it. -/
  | stopTasks

abbrev SocketCall.Answer : SocketCall → Type
  | now => ℕ
  | next => Option (Except String Frame)
  | nextWithin _ => Option (Option (Except String Frame))
  | onMessage _ => Except Failure Unit
  | spawnOutbound => Unit
  | stopTasks => Unit

abbrev SocketScript (M α : Type) :=
  Script (MiddlewareCall M ⊕ SocketCall) (Sum.elim MiddlewareCall.Answer SocketCall.Answer) α

abbrev SocketHistory (M : Type) :=
  History (Sum.elim (MiddlewareCall.Answer (M := M)) SocketCall.Answer)

namespace SocketScript

def now : SocketScript M ℕ := Script.request (Sum.inr SocketCall.now)

def next : SocketScript M (Option (Except String Frame)) :=
  Script.request (Sum.inr SocketCall.next)

def nextWithin (timeout : ℕ) : SocketScript M (Option (Option (Except String Frame))) :=
  Script.request (Sum.inr (SocketCall.nextWithin timeout))

def onMessage (text : String) : SocketScript M (Except Failure Unit) :=
  Script.request (Sum.inr (SocketCall.onMessage text))

def spawnOutbound : SocketScript M Unit := Script.request (Sum.inr SocketCall.spawnOutbound)

def stopTasks : SocketScript M Unit := Script.request (Sum.inr SocketCall.stopTasks)

end SocketScript

/-- `NostrConnection`. The connected chain is set together with the state, the metadata and the
address of the connection. -/
structure NostrConnection (M : Type) where
  chainBlueprint : ChainBlueprint M
  outboundTx : ChannelRef
  connectedChain : Option (ConnectedChain M)

namespace NostrConnection

/-- The handler of a new connection, when the middlewares were added in this order. -/
def new (channel : ChannelRef) (middlewares : List M) : NostrConnection M where
  chainBlueprint := (middlewares.foldl NostrChainBuilder.withMiddleware .new).build
  outboundTx := channel
  connectedChain := none

/-- `on_connect`. The handler keeps its chain when a middleware fails. -/
def onConnect (handler : NostrConnection M) :
    SocketScript M (Except Failure Unit × NostrConnection M) := do
  let connectedChain := handler.chainBlueprint.buildConnected handler.outboundTx
  SocketScript.spawnOutbound
  let result ← connectedChain.onConnectChain.left
  pure (result, { handler with connectedChain := some connectedChain })

/-- `on_disconnect`. The error of a middleware is dropped. -/
def onDisconnect (handler : NostrConnection M) (_ : DisconnectReason) : SocketScript M Unit := do
  match handler.connectedChain with
  | some connectedChain => do
    let _ ← connectedChain.onDisconnectChain.left
    SocketScript.stopTasks
  | none => SocketScript.stopTasks

end NostrConnection

inductive TimeoutReason where
  | maxDuration
  | idle

def TimeoutReason.text : TimeoutReason → String
  | maxDuration => "Maximum connection duration exceeded"
  | idle => "Idle timeout"

/-- Check the maximal duration of the connection. -/
def checkMaxDuration (config : ConnectionConfig) (connectionStart : ℕ) :
    SocketScript M (Except DisconnectReason (Option (ℕ × TimeoutReason))) :=
  match config.maxConnectionDuration with
  | none => pure (.ok none)
  | some maxDuration => do
    let now ← SocketScript.now
    let elapsed := now - connectionStart
    if elapsed ≥ maxDuration then
      pure (.error (.timeout TimeoutReason.maxDuration.text))
    else pure (.ok (some (maxDuration - elapsed, .maxDuration)))

/-- Check the time since the last frame. The shorter timeout counts. -/
def checkIdle (config : ConnectionConfig) (lastActivity : ℕ)
    (nextTimeout : Option (ℕ × TimeoutReason)) :
    SocketScript M (Except DisconnectReason (Option (ℕ × TimeoutReason))) :=
  match config.idleTimeout with
  | none => pure (.ok nextTimeout)
  | some idleDuration => do
    let now ← SocketScript.now
    let idleElapsed := now - lastActivity
    if idleElapsed ≥ idleDuration then
      pure (.error (.timeout TimeoutReason.idle.text))
    else
      let idleRemaining := idleDuration - idleElapsed
      match nextTimeout with
      | none => pure (.ok (some (idleRemaining, .idle)))
      | some (existing, reason) =>
        if idleRemaining < existing then pure (.ok (some (idleRemaining, .idle)))
        else pure (.ok (some (existing, reason)))

/-- Wait for the next frame, at most until the timeout. -/
def nextFrame (nextTimeout : Option (ℕ × TimeoutReason)) :
    SocketScript M (Except DisconnectReason (Option (Except String Frame))) :=
  match nextTimeout with
  | none => do
    let msg ← SocketScript.next
    pure (.ok msg)
  | some (timeout, reason) => do
    match ← SocketScript.nextWithin timeout with
    | some msg => pure (.ok msg)
    | none => pure (.error (.timeout reason.text))

/-- The loop of `handle_socket`, as long as it goes round at most so often. It says whether it was
left. -/
def socketLoop (config : ConnectionConfig) (handler : NostrConnection M) (connectionStart : ℕ) :
    ℕ → ℕ → SocketScript M Bool
  | 0, _ => pure false
  | n + 1, lastActivity => do
    match ← ((checkMaxDuration config connectionStart).andThen
        (checkIdle config lastActivity)).andThen nextFrame with
    | .error reason => do
      handler.onDisconnect reason
      pure true
    | .ok (some (.ok (.text text))) => do
      let lastActivity ← SocketScript.now
      match ← SocketScript.onMessage text with
      | .error _ => pure true
      | .ok () => socketLoop config handler connectionStart n lastActivity
    | .ok (some (.ok (.close frame))) => do
      handler.onDisconnect (.fromCloseFrame frame)
      pure true
    | .ok (some (.ok _)) => do
      let lastActivity ← SocketScript.now
      socketLoop config handler connectionStart n lastActivity
    | .ok (some (.error e)) => do
      handler.onDisconnect (.error e)
      pure true
    | .ok none => do
      handler.onDisconnect .unknown
      pure true

/-- `handle_socket`. It says whether it has returned. -/
def handleSocket (config : ConnectionConfig) (handler : NostrConnection M) (n : ℕ) :
    SocketScript M Bool := do
  let (result, handler) ← handler.onConnect
  match result with
  | .error _ => pure true
  | .ok () => do
    let connectionStart ← SocketScript.now
    let lastActivity ← SocketScript.now
    socketLoop config handler connectionStart n lastActivity

/-! ### What happened -/

/-- An answered question of the connection. -/
abbrev SocketAsked (M : Type) :=
  (q : MiddlewareCall M ⊕ SocketCall) × Sum.elim MiddlewareCall.Answer SocketCall.Answer q

/-- The position of a middleware that was connected. -/
def SocketAsked.connected? : SocketAsked M → Option ℕ
  | ⟨.inl (.onConnect _ sender), .ok _⟩ => some sender.position
  | _ => none

/-- The position of a middleware whose `on_disconnect` was called. -/
def SocketAsked.disconnected? : SocketAsked M → Option ℕ
  | ⟨.inl (.onDisconnect _ position), _⟩ => some position
  | _ => none

/-- Neither a middleware nor a failure of `on_message`. -/
structure SocketAsked.Quiet (asked : SocketAsked M) : Prop where
  socket : ∃ call r, asked = ⟨.inr call, r⟩
  succeeds : ∀ text e, asked ≠ ⟨.inr (.onMessage text), .error e⟩

/-- The positions of the middlewares whose `on_connect` returned `Ok`. -/
def connectedIn (t : SocketHistory M) : List ℕ := t.filterMap SocketAsked.connected?

/-- The positions of the middlewares whose `on_disconnect` was called. -/
def disconnectedIn (t : SocketHistory M) : List ℕ := t.filterMap SocketAsked.disconnected?

/-- Whoever was connected is disconnected exactly once, and nobody is disconnected twice. -/
def HooksPaired (t : SocketHistory M) : Prop :=
  ∀ position, (position ∈ connectedIn t → (disconnectedIn t).count position = 1) ∧
    (disconnectedIn t).count position ≤ 1

/-- A failure that costs no middleware its disconnection: that of the outermost one to connect or
to disconnect, and without middlewares also that of `on_message`. -/
structure SocketAsked.Harmless (middlewares : List M) (asked : SocketAsked M) : Prop where
  onConnect : ∀ middleware sender e,
    asked = ⟨.inl (.onConnect middleware sender), .error e⟩ →
      sender.position + 1 = middlewares.length
  onDisconnect : ∀ middleware position e,
    asked = ⟨.inl (.onDisconnect middleware position), .error e⟩ →
      position + 1 = middlewares.length
  onMessage : ∀ text e, asked = ⟨.inr (.onMessage text), .error e⟩ → middlewares = []

/-- Nothing failed that costs a middleware its disconnection. -/
def CleanRun (middlewares : List M) (t : SocketHistory M) : Prop :=
  ∀ asked ∈ t, SocketAsked.Harmless middlewares asked

def QuietRun (t : SocketHistory M) : Prop := ∀ asked ∈ t, SocketAsked.Quiet asked

variable {t t' : SocketHistory M} {config : ConnectionConfig} {handler : NostrConnection M}

theorem QuietRun.append (h : QuietRun t) (h' : QuietRun t') : QuietRun (t ++ t') :=
  List.forall_mem_append.mpr ⟨h, h'⟩

@[simp] theorem connectedIn_append : connectedIn (t ++ t') = connectedIn t ++ connectedIn t' :=
  List.filterMap_append

@[simp] theorem disconnectedIn_append :
    disconnectedIn (t ++ t') = disconnectedIn t ++ disconnectedIn t' :=
  List.filterMap_append

theorem QuietRun.connectedIn (h : QuietRun t) : connectedIn t = [] := by
  refine List.filterMap_eq_nil_iff.mpr fun asked hasked => ?_
  obtain ⟨call, r, rfl⟩ := (h asked hasked).socket
  rfl

theorem QuietRun.disconnectedIn (h : QuietRun t) : disconnectedIn t = [] := by
  refine List.filterMap_eq_nil_iff.mpr fun asked hasked => ?_
  obtain ⟨call, r, rfl⟩ := (h asked hasked).socket
  rfl

theorem quiet_cons {call : SocketCall} {r : call.Answer}
    (hr : ∀ text e, (⟨.inr call, r⟩ : SocketAsked M) ≠ ⟨.inr (.onMessage text), .error e⟩)
    (h : QuietRun t) : QuietRun (⟨.inr call, r⟩ :: t) :=
  List.forall_mem_cons.mpr ⟨⟨⟨call, r, rfl⟩, hr⟩, h⟩

theorem quiet_nil : QuietRun ([] : SocketHistory M) := fun _ h => nomatch h

/-! ### The loop -/

theorem ensures_quiet_andThen {α β ε : Type} {p : SocketScript M (Except ε α)}
    {k : α → SocketScript M (Except ε β)} (hp : p.Ensures fun t _ => QuietRun t)
    (hk : ∀ a, (k a).Ensures fun t _ => QuietRun t) : (p.andThen k).Ensures fun t _ => QuietRun t := by
  refine ensures_bind.mpr (hp.mono fun t r h => ?_)
  match r with
  | .ok a => exact (hk a).mono fun t' _ h' => h.append h'
  | .error e => exact ensures_done.mpr (by rwa [List.append_nil])

theorem ensures_checkMaxDuration (config : ConnectionConfig) (connectionStart : ℕ) :
    (checkMaxDuration config connectionStart : SocketScript M _).Ensures fun t _ => QuietRun t := by
  rw [checkMaxDuration]
  split
  · exact ensures_done.mpr quiet_nil
  · refine ensures_request_bind.mpr fun now => ?_
    dsimp only
    split <;> exact ensures_done.mpr (quiet_cons (fun _ _ => nofun) quiet_nil)

theorem ensures_checkIdle (config : ConnectionConfig) (lastActivity : ℕ)
    (nextTimeout : Option (ℕ × TimeoutReason)) :
    (checkIdle config lastActivity nextTimeout : SocketScript M _).Ensures
      fun t _ => QuietRun t := by
  rw [checkIdle]
  split
  · exact ensures_done.mpr quiet_nil
  · refine ensures_request_bind.mpr fun now => ?_
    have hquiet : QuietRun [(⟨.inr .now, now⟩ : SocketAsked M)] :=
      quiet_cons (fun _ _ => nofun) quiet_nil
    dsimp only
    split
    · exact ensures_done.mpr hquiet
    · split
      · exact ensures_done.mpr hquiet
      · split <;> exact ensures_done.mpr hquiet

theorem ensures_nextFrame (nextTimeout : Option (ℕ × TimeoutReason)) :
    (nextFrame nextTimeout : SocketScript M _).Ensures fun t _ => QuietRun t := by
  cases nextTimeout with
  | none =>
    exact ensures_request_bind.mpr fun msg =>
      ensures_done.mpr (quiet_cons (fun _ _ => nofun) quiet_nil)
  | some timeout =>
    refine ensures_request_bind.mpr fun msg => ?_
    split <;> exact ensures_done.mpr (quiet_cons (fun _ _ => nofun) quiet_nil)

/-- After quiet steps, `on_message` fails, or the handler disconnects. -/
def LoopLeft (handler : NostrConnection M) (t : SocketHistory M) : Prop :=
  ∃ q, QuietRun q ∧ ((∃ text e, t = q ++ [⟨.inr (.onMessage text), .error e⟩]) ∨
    ∃ reason t', Runs (handler.onDisconnect reason) t' () ∧ t = q ++ t')

theorem LoopLeft.append (h : LoopLeft handler t') (hq : QuietRun t) :
    LoopLeft handler (t ++ t') := by
  obtain ⟨q, hq', ⟨text, e, rfl⟩ | ⟨reason, t'', h'', rfl⟩⟩ := h
  · exact ⟨t ++ q, hq.append hq', .inl ⟨text, e, (List.append_assoc ..).symm⟩⟩
  · exact ⟨t ++ q, hq.append hq', .inr ⟨reason, t'', h'', (List.append_assoc ..).symm⟩⟩

theorem loopLeft_onDisconnect {reason : DisconnectReason}
    (h : Runs ((handler.onDisconnect reason).bind fun _ => Script.done true) t true) :
    LoopLeft handler t := by
  obtain ⟨t', u, t₃, rfl, h', h₃⟩ := runs_bind.mp h
  obtain ⟨rfl, -⟩ := runs_done.mp h₃
  exact ⟨[], quiet_nil, .inr ⟨reason, t', h', List.append_nil t'⟩⟩

theorem runs_socketLoop {connectionStart n lastActivity : ℕ}
    (hloop : Runs (socketLoop config handler connectionStart n lastActivity) t true) :
    LoopLeft handler t := by
  induction n generalizing t lastActivity with
  | zero => exact absurd (runs_done.mp hloop).2 Bool.noConfusion
  | succ n ih =>
    obtain ⟨q, waited, t₂, rfl, hwait, hrest⟩ := runs_bind.mp hloop
    refine LoopLeft.append ?_ (ensures_quiet_andThen (ensures_quiet_andThen
      (ensures_checkMaxDuration config connectionStart) (ensures_checkIdle config lastActivity))
      ensures_nextFrame q waited hwait)
    -- A frame that only resets the idle timer.
    have hround : ∀ {t : SocketHistory M}, Runs (SocketScript.now.bind fun lastActivity =>
        socketLoop config handler connectionStart n lastActivity) t true →
        LoopLeft handler t := by
      intro t h
      obtain ⟨now, t₃, rfl, h₃⟩ := runs_request_bind.mp h
      exact (ih h₃).append (t := [⟨.inr .now, now⟩]) (quiet_cons (fun _ _ => nofun) quiet_nil)
    match waited with
    | .error reason => exact loopLeft_onDisconnect hrest
    | .ok none => exact loopLeft_onDisconnect hrest
    | .ok (some (.error e)) => exact loopLeft_onDisconnect hrest
    | .ok (some (.ok (.close frame))) => exact loopLeft_onDisconnect hrest
    | .ok (some (.ok .binary)) => exact hround hrest
    | .ok (some (.ok .ping)) => exact hround hrest
    | .ok (some (.ok .pong)) => exact hround hrest
    | .ok (some (.ok (.text text))) =>
      obtain ⟨now, t₃, rfl, h₃⟩ := runs_request_bind.mp hrest
      obtain ⟨r, t₄, rfl, h₄⟩ := runs_request_bind.mp h₃
      have hnow : QuietRun [(⟨.inr .now, now⟩ : SocketAsked M)] :=
        quiet_cons (fun _ _ => nofun) quiet_nil
      match r with
      | .error e =>
        obtain ⟨rfl, -⟩ := runs_done.mp h₄
        exact ⟨_, hnow, .inl ⟨text, e, rfl⟩⟩
      | .ok () =>
        exact (ih h₄).append (t := [⟨.inr .now, now⟩, ⟨.inr (.onMessage text), .ok ()⟩])
          (hnow.append (quiet_cons (fun _ _ => nofun) quiet_nil))

/-! ### The hooks of a connection -/

variable {channel : ChannelRef} {ms : List M}

/-- `on_connect` of a layer, answered. -/
def onConnectAsked (x : M × MessageSender) (r : Except Failure Unit) : SocketAsked M :=
  leftAsked (onConnectAnswered x r)

/-- `on_disconnect` of a layer, answered. -/
def onDisconnectAsked (x : M × MessageSender) (r : Except Failure Unit) : SocketAsked M :=
  leftAsked (onDisconnectAnswered x r)

theorem connectedIn_onConnectAsked (xs : List (M × MessageSender)) :
    connectedIn (xs.map fun x => onConnectAsked x (.ok ())) = xs.map fun x => x.2.position := by
  induction xs with
  | nil => rfl
  | cons x xs ih => exact congrArg (x.2.position :: ·) ih

theorem disconnectedIn_onConnectAsked (xs : List (M × MessageSender)) (r : Except Failure Unit) :
    disconnectedIn (xs.map fun x => onConnectAsked x r) = [] := by
  induction xs with
  | nil => rfl
  | cons x xs ih => exact ih

theorem connectedIn_onDisconnectAsked (xs : List (M × MessageSender)) (r : Except Failure Unit) :
    connectedIn (xs.map fun x => onDisconnectAsked x r) = [] := by
  induction xs with
  | nil => rfl
  | cons x xs ih => exact ih

theorem disconnectedIn_onDisconnectAsked (xs : List (M × MessageSender))
    (r : Except Failure Unit) :
    disconnectedIn (xs.map fun x => onDisconnectAsked x r) = xs.map fun x => x.2.position := by
  induction xs with
  | nil => rfl
  | cons x xs ih => exact congrArg (x.2.position :: ·) ih

/-- The positions of a chain are the places of the list. -/
theorem placed_positions (channel : ChannelRef) (ms : List M) :
    ((placed channel ms).map fun x => x.2.position) = List.range ms.length := by
  induction ms using List.reverseRecOn with
  | nil => rfl
  | append_singleton ms m ih =>
    rw [placed_concat, List.map_append, ih, List.length_append, List.length_singleton,
      List.range_succ]
    rfl

/-- The position of a middleware counts those that were added before it. -/
theorem position_of_placed {x : M × MessageSender} {xs ys : List (M × MessageSender)}
    (h : placed channel ms = xs ++ x :: ys) : x.2.position = xs.length := by
  have hrange := placed_positions channel ms
  rw [h, List.map_append, List.map_cons] at hrange
  have hget := congrArg (·[xs.length]?) hrange
  rw [List.getElem?_append_right (by rw [List.length_map]), List.length_map, Nat.sub_self,
    List.getElem?_cons_zero] at hget
  exact ((List.getElem?_eq_some_iff.mp hget.symm).2.symm.trans (List.getElem_range _))

theorem length_of_placed {x : M × MessageSender} {xs ys : List (M × MessageSender)}
    (h : placed channel ms = xs ++ x :: ys) : ms.length = xs.length + 1 + ys.length := by
  rw [← length_placed channel ms, h, List.length_append, List.length_cons]
  omega

/-- How `on_connect` ends: every middleware was connected, or one of them failed after those
outside of it. -/
theorem onConnect_cases {result : Except Failure Unit} {handler' : NostrConnection M}
    (h : Runs (NostrConnection.new channel ms).onConnect t (result, handler')) :
    handler'.connectedChain = some (connectedChain channel ms) ∧
      ((result = .ok () ∧ t = ⟨.inr .spawnOutbound, ()⟩ ::
        (placed channel ms).reverse.map fun x => onConnectAsked x (.ok ())) ∨
      ∃ xs x ys e, (placed channel ms).reverse = xs ++ x :: ys ∧ result = .error e ∧
        t = ⟨.inr .spawnOutbound, ()⟩ :: ((xs.map fun x => onConnectAsked x (.ok ())) ++
          [onConnectAsked x (.error e)])) := by
  obtain ⟨u, t', rfl, h'⟩ := runs_request_bind.mp h
  obtain ⟨t₁, r, t₂, rfl, h₁, h₂⟩ := runs_bind.mp h'
  obtain ⟨rfl, hresult⟩ := runs_done.mp h₂
  obtain ⟨rfl, rfl⟩ := Prod.mk.inj hresult
  obtain ⟨t₀, rfl, h₀⟩ := runs_left.mp h₁
  refine ⟨rfl, ?_⟩
  obtain ⟨rfl, rfl⟩ | ⟨xs, x, ys, e, hxs, rfl, rfl⟩ := onConnectChain_cases h₀
  · refine .inl ⟨rfl, ?_⟩
    rw [List.append_nil, List.map_map]
    rfl
  · refine .inr ⟨xs, x, ys, e, hxs, rfl, ?_⟩
    rw [List.append_nil, List.map_append, List.map_map]
    rfl

/-- What `on_disconnect` does: every middleware is told, or those up to one that fails. -/
theorem onDisconnect_cases {reason : DisconnectReason}
    (hchain : handler.connectedChain = some (connectedChain channel ms))
    (h : Runs (handler.onDisconnect reason) t ()) :
    (t = ((placed channel ms).map fun x => onDisconnectAsked x (.ok ())) ++
        [⟨.inr .stopTasks, ()⟩]) ∨
      ∃ xs x ys e, placed channel ms = xs ++ x :: ys ∧
        t = (xs.map fun x => onDisconnectAsked x (.ok ())) ++
          [onDisconnectAsked x (.error e)] ++ [⟨.inr .stopTasks, ()⟩] := by
  rw [NostrConnection.onDisconnect, hchain] at h
  obtain ⟨t₁, r, t₂, rfl, h₁, h₂⟩ := runs_bind.mp h
  obtain rfl := runs_request.mp h₂
  obtain ⟨t₀, rfl, h₀⟩ := runs_left.mp h₁
  obtain ⟨rfl, rfl⟩ | ⟨xs, x, ys, e, hxs, rfl, rfl⟩ := onDisconnectChain_cases h₀
  · refine .inl ?_
    rw [List.map_map]
    rfl
  · refine .inr ⟨xs, x, ys, e, hxs, ?_⟩
    rw [List.map_append, List.map_map]
    rfl

/-! ### Connections and disconnections -/

theorem cleanRun_append : CleanRun ms (t ++ t') ↔ CleanRun ms t ∧ CleanRun ms t' :=
  List.forall_mem_append

theorem QuietRun.cleanRun (h : QuietRun t) : CleanRun ms t := by
  intro asked hasked
  obtain ⟨call, r, rfl⟩ := (h asked hasked).socket
  exact ⟨fun _ _ _ => nofun, fun _ _ _ => nofun,
    fun text e he => absurd he ((h _ hasked).succeeds text e)⟩

theorem cleanRun_onConnectAsked (xs : List (M × MessageSender)) :
    CleanRun ms (xs.map fun x => onConnectAsked x (.ok ())) := by
  intro asked hasked
  obtain ⟨x, -, rfl⟩ := List.mem_map.mp hasked
  exact ⟨fun _ _ _ => nofun, fun _ _ _ => nofun, fun _ _ => nofun⟩

theorem cleanRun_onDisconnectAsked (xs : List (M × MessageSender)) :
    CleanRun ms (xs.map fun x => onDisconnectAsked x (.ok ())) := by
  intro asked hasked
  obtain ⟨x, -, rfl⟩ := List.mem_map.mp hasked
  exact ⟨fun _ _ _ => nofun, fun _ _ _ => nofun, fun _ _ => nofun⟩

theorem cleanRun_onConnect_error {x : M × MessageSender} {e : Failure} :
    CleanRun ms [onConnectAsked x (.error e)] ↔ x.2.position + 1 = ms.length := by
  refine ⟨fun h => (h _ (List.mem_singleton_self _)).onConnect x.1 x.2 e rfl, fun h => ?_⟩
  refine List.forall_mem_singleton.mpr ⟨fun _ _ _ he => ?_, fun _ _ _ => nofun, fun _ _ => nofun⟩
  cases he
  exact h

theorem cleanRun_onDisconnect_error {x : M × MessageSender} {e : Failure} :
    CleanRun ms [onDisconnectAsked x (.error e)] ↔ x.2.position + 1 = ms.length := by
  refine ⟨fun h => (h _ (List.mem_singleton_self _)).onDisconnect x.1 _ e rfl, fun h => ?_⟩
  refine List.forall_mem_singleton.mpr ⟨fun _ _ _ => nofun, fun _ _ _ he => ?_, fun _ _ => nofun⟩
  cases he
  exact h

theorem cleanRun_onMessage_error {text : String} {e : Failure} :
    CleanRun ms [(⟨.inr (.onMessage text), .error e⟩ : SocketAsked M)] ↔ ms = [] := by
  refine ⟨fun h => (h _ (List.mem_singleton_self _)).onMessage text e rfl, fun h => ?_⟩
  exact List.forall_mem_singleton.mpr ⟨fun _ _ _ => nofun, fun _ _ _ => nofun, fun _ _ _ => h⟩

/-- Without a disconnection, nobody may have been connected. -/
theorem hooksPaired_of_not_disconnected (h : disconnectedIn t = []) :
    HooksPaired t ↔ connectedIn t = [] := by
  refine ⟨fun hp => List.eq_nil_iff_forall_not_mem.mpr fun position hmem => ?_, fun hc => ?_⟩
  · have hcount := (hp position).1 hmem
    rw [h, List.count_nil] at hcount
    cases hcount
  · intro position
    rw [h, hc, List.count_nil]
    exact ⟨nofun, Nat.zero_le 1⟩

/-- When everybody was connected, the disconnections have to be those of the whole chain. -/
theorem hooksPaired_of_connected {n k : ℕ} (hk : k ≤ n)
    (hconnected : ∀ position, position ∈ connectedIn t ↔ position < n)
    (hdisconnected : disconnectedIn t = List.range k) : HooksPaired t ↔ k = n := by
  rw [HooksPaired, hdisconnected]
  refine ⟨fun h => ?_, ?_⟩
  · by_contra hne
    have hlt : k < n := Nat.lt_of_le_of_ne hk hne
    have hcount := (h k).1 ((hconnected k).mpr hlt)
    rw [List.count_eq_zero_of_not_mem (by simp)] at hcount
    cases hcount
  · rintro rfl position
    refine ⟨fun hmem => ?_, List.nodup_iff_count_le_one.mp List.nodup_range position⟩
    exact List.count_eq_one_of_mem List.nodup_range
      (List.mem_range.mpr ((hconnected position).mp hmem))

/-- Every middleware was connected. -/
def connectedRun (channel : ChannelRef) (ms : List M) : SocketHistory M :=
  ⟨.inr .spawnOutbound, ()⟩ :: (placed channel ms).reverse.map fun x => onConnectAsked x (.ok ())

theorem mem_connectedIn_connectedRun (channel : ChannelRef) (ms : List M) (position : ℕ) :
    position ∈ connectedIn (connectedRun channel ms) ↔ position < ms.length := by
  have hconnected : connectedIn (connectedRun channel ms) = (List.range ms.length).reverse := by
    rw [← placed_positions channel ms, ← List.map_reverse]
    exact connectedIn_onConnectAsked (placed channel ms).reverse
  rw [hconnected, List.mem_reverse, List.mem_range]

theorem disconnectedIn_connectedRun (channel : ChannelRef) (ms : List M) :
    disconnectedIn (connectedRun channel ms) = [] :=
  disconnectedIn_onConnectAsked (placed channel ms).reverse _

theorem cleanRun_spawn (h : CleanRun ms t) : CleanRun ms (⟨.inr .spawnOutbound, ()⟩ :: t) := by
  have hspawn : QuietRun [(⟨.inr .spawnOutbound, ()⟩ : SocketAsked M)] :=
    quiet_cons (fun _ _ => nofun) quiet_nil
  exact List.forall_mem_cons.mpr ⟨hspawn.cleanRun _ (List.mem_singleton_self _), h⟩

/-- A connection that fails in the middle: only the outermost middleware may fail. -/
theorem hooksPaired_of_connect_error {x : M × MessageSender} {xs ys : List (M × MessageSender)}
    {e : Failure} (hxs : (placed channel ms).reverse = xs ++ x :: ys) :
    HooksPaired (⟨.inr .spawnOutbound, ()⟩ :: ((xs.map fun x => onConnectAsked x (.ok ())) ++
        [onConnectAsked x (.error e)])) ↔
      CleanRun ms (⟨.inr .spawnOutbound, ()⟩ :: ((xs.map fun x => onConnectAsked x (.ok ())) ++
        [onConnectAsked x (.error e)])) := by
  have hplaced : placed channel ms = ys.reverse ++ x :: xs.reverse := by
    rw [← List.reverse_reverse (placed channel ms), hxs, List.reverse_append, List.reverse_cons,
      List.append_assoc]
    rfl
  have hposition := position_of_placed hplaced
  have hlength := length_of_placed hplaced
  rw [List.length_reverse] at hposition hlength
  rw [List.length_reverse] at hlength
  have hdisconnected : disconnectedIn (⟨.inr .spawnOutbound, ()⟩ ::
      ((xs.map fun x => onConnectAsked x (.ok ())) ++ [onConnectAsked x (.error e)])) = [] := by
    refine Eq.trans ?_ (disconnectedIn_onConnectAsked xs (.ok ()))
    exact (disconnectedIn_append (t := xs.map _)).trans (List.append_nil _)
  have hconnected : connectedIn (⟨.inr .spawnOutbound, ()⟩ ::
      ((xs.map fun x => onConnectAsked x (.ok ())) ++ [onConnectAsked x (.error e)])) =
        xs.map fun x => x.2.position := by
    refine Eq.trans ?_ (connectedIn_onConnectAsked xs)
    exact (connectedIn_append (t := xs.map _)).trans (List.append_nil _)
  rw [hooksPaired_of_not_disconnected hdisconnected, hconnected, List.map_eq_nil_iff]
  refine ⟨fun hnil => ?_, fun h => ?_⟩
  · refine cleanRun_spawn (cleanRun_append.mpr
      ⟨cleanRun_onConnectAsked xs, cleanRun_onConnect_error.mpr ?_⟩)
    rw [hposition, hlength, hnil]
    rfl
  · have herror := cleanRun_onConnect_error.mp
      (cleanRun_append.mp (List.forall_mem_cons.mp h).2).2
    exact List.length_eq_zero_iff.mp (by omega)

/-- What becomes of a connection whose middlewares were all connected. -/
theorem hooksPaired_of_loopLeft
    (hchain : handler.connectedChain = some (connectedChain channel ms))
    (h : LoopLeft handler t) :
    HooksPaired (connectedRun channel ms ++ t) ↔ CleanRun ms (connectedRun channel ms ++ t) := by
  have hclean : CleanRun ms (connectedRun channel ms) :=
    cleanRun_spawn (cleanRun_onConnectAsked _)
  obtain ⟨q, hq, h⟩ := h
  have hconnected : ∀ {t : SocketHistory M}, connectedIn t = [] → ∀ position,
      position ∈ connectedIn (connectedRun channel ms ++ (q ++ t)) ↔ position < ms.length := by
    intro t ht position
    rw [connectedIn_append, connectedIn_append, hq.connectedIn, ht, List.append_nil,
      List.append_nil]
    exact mem_connectedIn_connectedRun channel ms position
  have hdisconnected : ∀ {t : SocketHistory M},
      disconnectedIn (connectedRun channel ms ++ (q ++ t)) = disconnectedIn t := by
    intro t
    rw [disconnectedIn_append, disconnectedIn_append, disconnectedIn_connectedRun,
      hq.disconnectedIn]
    rfl
  have hcleanRun : ∀ {t : SocketHistory M},
      CleanRun ms (connectedRun channel ms ++ (q ++ t)) ↔ CleanRun ms t := by
    intro t
    rw [cleanRun_append, cleanRun_append]
    exact ⟨fun h => h.2.2, fun h => ⟨hclean, hq.cleanRun, h⟩⟩
  have hstop : QuietRun [(⟨.inr .stopTasks, ()⟩ : SocketAsked M)] :=
    quiet_cons (fun _ _ => nofun) quiet_nil
  obtain ⟨text, e, rfl⟩ | ⟨reason, t', hdisconnect, rfl⟩ := h
  · rw [hooksPaired_of_connected (k := 0) (Nat.zero_le _) (hconnected rfl) hdisconnected,
      hcleanRun, cleanRun_onMessage_error, eq_comm, List.length_eq_zero_iff]
  · obtain rfl | ⟨xs, x, ys, e, hxs, rfl⟩ := onDisconnect_cases hchain hdisconnect
    · have hall : disconnectedIn (((placed channel ms).map fun x =>
          onDisconnectAsked x (.ok ())) ++ [⟨.inr .stopTasks, ()⟩]) = List.range ms.length := by
        rw [disconnectedIn_append, disconnectedIn_onDisconnectAsked, placed_positions]
        exact List.append_nil _
      have hnone : connectedIn (((placed channel ms).map fun x =>
          onDisconnectAsked x (.ok ())) ++ [⟨.inr .stopTasks, ()⟩]) = [] := by
        rw [connectedIn_append, connectedIn_onDisconnectAsked]
        rfl
      rw [hooksPaired_of_connected (k := ms.length) le_rfl (hconnected hnone)
        (hdisconnected.trans hall), hcleanRun]
      exact iff_of_true rfl (cleanRun_append.mpr ⟨cleanRun_onDisconnectAsked _, hstop.cleanRun⟩)
    · have hposition := position_of_placed hxs
      have hlength := length_of_placed hxs
      have hsome : disconnectedIn ((xs.map fun x => onDisconnectAsked x (.ok ())) ++
          [onDisconnectAsked x (.error e)] ++ [⟨.inr .stopTasks, ()⟩]) =
            List.range (xs.length + 1) := by
        have htake : List.range (xs.length + 1) = (xs ++ [x]).map fun x => x.2.position := by
          have hprefix := congrArg (List.take (xs.length + 1)) (placed_positions channel ms)
          rw [List.take_range, hlength, Nat.min_eq_left (by omega), hxs] at hprefix
          rw [← hprefix, ← List.map_take, List.append_cons, List.take_left' (by simp)]
        rw [htake, disconnectedIn_append, disconnectedIn_append, disconnectedIn_onDisconnectAsked,
          List.map_append]
        exact List.append_nil _
      have hnone : connectedIn ((xs.map fun x => onDisconnectAsked x (.ok ())) ++
          [onDisconnectAsked x (.error e)] ++ [⟨.inr .stopTasks, ()⟩]) = [] := by
        rw [connectedIn_append, connectedIn_append, connectedIn_onDisconnectAsked]
        rfl
      rw [hooksPaired_of_connected (k := xs.length + 1) (by omega) (hconnected hnone)
        (hdisconnected.trans hsome), hcleanRun, cleanRun_append, cleanRun_append,
        cleanRun_onDisconnect_error, hposition]
      exact ⟨fun h => ⟨⟨cleanRun_onDisconnectAsked xs, h⟩, hstop.cleanRun⟩, fun h => h.1.2⟩

/-- **When connections and disconnections are paired.** A connection that is over has disconnected
each middleware that it had connected, and no middleware twice, exactly if no middleware but the
outermost failed to connect or to disconnect and `on_message` did not fail. -/
theorem hooksPaired_iff (config : ConnectionConfig) (channel : ChannelRef) (ms : List M) (n : ℕ)
    (t : SocketHistory M) (h : Runs (handleSocket config (.new channel ms) n) t true) :
    HooksPaired t ↔ CleanRun ms t := by
  obtain ⟨t₁, ⟨result, handler⟩, t₂, rfl, h₁, h₂⟩ := runs_bind.mp h
  obtain ⟨hchain, ⟨rfl, rfl⟩ | ⟨xs, x, ys, e, hxs, rfl, rfl⟩⟩ := onConnect_cases h₁
  · obtain ⟨connectionStart, t₃, rfl, h₃⟩ := runs_request_bind.mp h₂
    obtain ⟨lastActivity, t₄, rfl, h₄⟩ := runs_request_bind.mp h₃
    refine hooksPaired_of_loopLeft hchain ((runs_socketLoop h₄).append
      (t := [⟨.inr .now, connectionStart⟩, ⟨.inr .now, lastActivity⟩]) ?_)
    exact quiet_cons (fun _ _ => nofun) (quiet_cons (fun _ _ => nofun) quiet_nil)
  · obtain ⟨rfl, -⟩ := runs_done.mp h₂
    rw [List.append_nil]
    exact hooksPaired_of_connect_error hxs

/-- A client connects to two middlewares, and leaves. -/
theorem hooksPaired_example : ∃ t : SocketHistory String,
    Runs (handleSocket ⟨none, none⟩ (.new 0 ["custom", "metrics"]) 1) t true ∧ HooksPaired t := by
  have hrun : Runs (handleSocket ⟨none, none⟩ (.new 0 ["custom", "metrics"]) 1)
      ([⟨.inr .spawnOutbound, ()⟩, ⟨.inl (.onConnect "metrics" ⟨0, 1⟩), .ok ()⟩,
        ⟨.inl (.onConnect "custom" ⟨0, 0⟩), .ok ()⟩, ⟨.inr .now, (0 : ℕ)⟩, ⟨.inr .now, (0 : ℕ)⟩,
        ⟨.inr .next, none⟩, ⟨.inl (.onDisconnect "custom" 0), .ok ()⟩,
        ⟨.inl (.onDisconnect "metrics" 1), .ok ()⟩, ⟨.inr .stopTasks, ()⟩] :
        SocketHistory String) true :=
    .ask _ <| .ask _ <| .ask _ <| .ask _ <| .ask _ <| .ask _ <| .ask _ <| .ask _ <| .ask _ <|
      .done true
  refine ⟨_, hrun, (hooksPaired_iff _ _ _ _ _ hrun).mpr fun asked hasked => ?_⟩
  simp only [List.mem_cons, List.not_mem_nil, or_false] at hasked
  obtain rfl | rfl | rfl | rfl | rfl | rfl | rfl | rfl | rfl := hasked <;>
    refine ⟨fun _ _ _ h => ?_, fun _ _ _ h => ?_, fun _ _ h => ?_⟩ <;> cases h

/-- The inner of two middlewares fails to connect: the outer one is never disconnected. -/
theorem connect_failure_leaves_connected : ∃ t : SocketHistory String,
    Runs (handleSocket ⟨none, none⟩ (.new 0 ["custom", "metrics"]) 1) t true ∧
      ¬ HooksPaired t := by
  refine ⟨[⟨.inr .spawnOutbound, ()⟩, ⟨.inl (.onConnect "metrics" ⟨0, 1⟩), .ok ()⟩,
    ⟨.inl (.onConnect "custom" ⟨0, 0⟩), .error (.other "no session for this client")⟩],
    .ask _ <| .ask _ <| .ask _ <| .done true, fun h => ?_⟩
  have hcount := (h 1).1 (List.mem_singleton_self 1)
  cases hcount

end RelayBuilder
