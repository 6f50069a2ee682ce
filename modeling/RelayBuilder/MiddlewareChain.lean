import RelayBuilder.Connection
import RelayBuilder.Interleave.InTurn
import Mathlib.Data.List.Induction

/-!
# How a chain is built, and how messages go through it

The chain of `middleware_chain.rs` as it is stored: every layer holds its middleware, the layers
inside it, its position and, once the chain is connected, the sender that is tagged with this
position. What the chain does is a script that calls the hooks of its middlewares, and a hook may
do anything and return anything. So a history shows which hooks were called, and with what.

## Main definitions

* `ChainBlueprint`, `NostrChainBuilder`, `ConnectedChain`
* `MiddlewareCall`: the hooks of the middlewares
* `ConnectedChain.processInboundChain`, `processOutboundChain`, `onConnectChain`,
  `onDisconnectChain`

## Main results

* `layers_connected`: what each layer of a built chain holds
* `chain_routing`: the order in which the layers see the messages of both directions, and the
  connection
* `sendBypass_route`: what a message passes that is sent with `send_bypass`
* `handle_processOutboundChain`, `handle_processInboundChain`: the chains over lists, which the
  other modules use, are these chains
-/

namespace RelayBuilder

open Interleave Script

variable {M : Type}

/-- `ChainBlueprint`, down to the `End` of the chain. -/
inductive ChainBlueprint (M : Type) where
  | tail
  | layer (middleware : M) (next : ChainBlueprint M) (position : ℕ)

/-- `ConnectedChain`, down to the `End` of the chain. -/
inductive ConnectedChain (M : Type) where
  | tail
  | layer (middleware : M) (next : ConnectedChain M) (position : ℕ)
    (messageSender : MessageSender)

/-- `build_connected`, with the sending end of the connection's channel. -/
def ChainBlueprint.buildConnected (senderBase : ChannelRef) : ChainBlueprint M → ConnectedChain M
  | tail => .tail
  | layer middleware next position =>
    .layer middleware (next.buildConnected senderBase) position ⟨senderBase, position⟩

/-- `NostrChainBuilder`. -/
structure NostrChainBuilder (M : Type) where
  chain : ChainBlueprint M
  nextPosition : ℕ

namespace NostrChainBuilder

def new : NostrChainBuilder M := ⟨.tail, 0⟩

/-- `with`: the middleware goes around those that are there already. -/
def withMiddleware (builder : NostrChainBuilder M) (middleware : M) : NostrChainBuilder M where
  chain := .layer middleware builder.chain builder.nextPosition
  nextPosition := builder.nextPosition + 1

def build (builder : NostrChainBuilder M) : ChainBlueprint M := builder.chain

end NostrChainBuilder

/-- The chain of a connection, when the middlewares were added in this order. -/
def connectedChain (channel : ChannelRef) (middlewares : List M) : ConnectedChain M :=
  ((middlewares.foldl NostrChainBuilder.withMiddleware .new).build).buildConnected channel

/-! ### The hooks -/

/-- How `process_inbound` goes on with its context: it returns, or it calls `next`, which takes the
context with the message as it is by then. -/
inductive Inbound where
  | returns (result : Except Failure Unit)
  | next (message : Option ClientMessage)

/-- A hook of a middleware is called. -/
inductive MiddlewareCall (M : Type) where
  | onConnect (middleware : M) (sender : MessageSender)
  | processInbound (middleware : M) (sender : MessageSender) (message : Option ClientMessage)
  /-- `process_inbound` goes on with the result of its call of `next`. -/
  | resumeInbound (middleware : M) (sender : MessageSender) (message : Option ClientMessage)
    (result : Except Failure Unit)
  | processOutbound (middleware : M) (sender : MessageSender) (message : Option RelayMessage)
  /-- The position is that of the layer. The middleware is not told. -/
  | onDisconnect (middleware : M) (position : ℕ)

/-- What a hook returns, and what it leaves of the message. -/
abbrev MiddlewareCall.Answer : MiddlewareCall M → Type
  | onConnect _ _ => Except Failure Unit
  | processInbound _ _ _ => Inbound
  | resumeInbound _ _ _ _ => Except Failure Unit
  | processOutbound _ _ _ => Except Failure (Option RelayMessage)
  | onDisconnect _ _ => Except Failure Unit

/-- A script that calls hooks. -/
abbrev ChainScript (M α : Type) := Script (MiddlewareCall M) MiddlewareCall.Answer α

/-- What was called, and what was returned. -/
abbrev ChainHistory (M : Type) := History (A := MiddlewareCall.Answer (M := M))

namespace ChainScript

def onConnect (middleware : M) (sender : MessageSender) : ChainScript M (Except Failure Unit) :=
  Script.request (MiddlewareCall.onConnect middleware sender)

def processInbound (middleware : M) (sender : MessageSender) (message : Option ClientMessage) :
    ChainScript M Inbound :=
  Script.request (MiddlewareCall.processInbound middleware sender message)

def resumeInbound (middleware : M) (sender : MessageSender) (message : Option ClientMessage)
    (result : Except Failure Unit) : ChainScript M (Except Failure Unit) :=
  Script.request (MiddlewareCall.resumeInbound middleware sender message result)

def processOutbound (middleware : M) (sender : MessageSender) (message : Option RelayMessage) :
    ChainScript M (Except Failure (Option RelayMessage)) :=
  Script.request (MiddlewareCall.processOutbound middleware sender message)

def onDisconnect (middleware : M) (position : ℕ) : ChainScript M (Except Failure Unit) :=
  Script.request (MiddlewareCall.onDisconnect middleware position)

end ChainScript

namespace ConnectedChain

/-- `process_inbound_chain`. -/
def processInboundChain :
    ConnectedChain M → Option ClientMessage → ChainScript M (Except Failure Unit)
  | tail, _ => pure (.ok ())
  | layer middleware next _ sender, message => do
    match ← ChainScript.processInbound middleware sender message with
    | .returns result => pure result
    | .next message' => do
      let result ← next.processInboundChain message'
      ChainScript.resumeInbound middleware sender message result

/-- `on_connect_chain`. -/
def onConnectChain : ConnectedChain M → ChainScript M (Except Failure Unit)
  | tail => pure (.ok ())
  | layer middleware next _ sender =>
    (ChainScript.onConnect middleware sender).andThen fun _ => next.onConnectChain

/-- `process_outbound_chain`. -/
def processOutboundChain (fromPosition : ℕ) : ConnectedChain M → Option RelayMessage →
    ChainScript M (Except Failure (Option RelayMessage))
  | tail, message => pure (.ok message)
  | layer middleware next position sender, message =>
    if fromPosition ≤ position then
      (next.processOutboundChain fromPosition message).andThen fun message' =>
        ChainScript.processOutbound middleware sender message'
    else next.processOutboundChain fromPosition message

/-- `on_disconnect_chain`. -/
def onDisconnectChain : ConnectedChain M → ChainScript M (Except Failure Unit)
  | tail => pure (.ok ())
  | layer middleware next position _ =>
    next.onDisconnectChain.andThen fun _ => ChainScript.onDisconnect middleware position

/-- The layers from the outside to the inside: the middleware, its position and its sender. -/
def layers : ConnectedChain M → List (M × ℕ × MessageSender)
  | tail => []
  | layer middleware next position sender => (middleware, position, sender) :: next.layers

end ConnectedChain

/-! ### What is built -/

theorem foldl_nextPosition (middlewares : List M) :
    (middlewares.foldl NostrChainBuilder.withMiddleware .new).nextPosition =
      middlewares.length := by
  induction middlewares using List.reverseRecOn with
  | nil => rfl
  | append_singleton ms m ih =>
    rw [List.foldl_concat, NostrChainBuilder.withMiddleware, ih, List.length_append]
    rfl

theorem connectedChain_nil (channel : ChannelRef) : connectedChain channel ([] : List M) = .tail :=
  rfl

/-- The middleware that is added last is the outermost one. Its position counts the others. -/
theorem connectedChain_concat (channel : ChannelRef) (ms : List M) (m : M) :
    connectedChain channel (ms ++ [m]) =
      .layer m (connectedChain channel ms) ms.length ⟨channel, ms.length⟩ := by
  rw [connectedChain, List.foldl_concat, NostrChainBuilder.build,
    NostrChainBuilder.withMiddleware, ChainBlueprint.buildConnected, foldl_nextPosition]
  rfl

/-- The middlewares in the order in which they were added, each with the sender that is tagged
with its place there. -/
def placed (channel : ChannelRef) (middlewares : List M) : List (M × MessageSender) :=
  middlewares.mapIdx fun position middleware => (middleware, ⟨channel, position⟩)

theorem placed_concat (channel : ChannelRef) (ms : List M) (m : M) :
    placed channel (ms ++ [m]) = placed channel ms ++ [(m, ⟨channel, ms.length⟩)] :=
  List.mapIdx_concat

@[simp] theorem length_placed (channel : ChannelRef) (ms : List M) :
    (placed channel ms).length = ms.length :=
  List.length_mapIdx

/-- The positions of the layers, and the tags of their senders, are the places in the list. -/
theorem layers_connected (channel : ChannelRef) (ms : List M) :
    (connectedChain channel ms).layers =
      ((placed channel ms).map fun x => (x.1, x.2.position, x.2)).reverse := by
  induction ms using List.reverseRecOn with
  | nil => rfl
  | append_singleton ms m ih =>
    rw [connectedChain_concat, ConnectedChain.layers, ih, placed_concat, List.map_append,
      List.reverse_append]
    rfl

/-! ### Who sees a message, and in which order -/

/-- `process_outbound` of a layer. -/
def outboundStep (x : M × MessageSender) : Option RelayMessage →
    ChainScript M (Except Failure (Option RelayMessage)) :=
  ChainScript.processOutbound x.1 x.2

/-- `on_connect` of a layer. -/
def onConnectStep (x : M × MessageSender) (_ : Unit) : ChainScript M (Except Failure Unit) :=
  ChainScript.onConnect x.1 x.2

/-- `on_disconnect` of a layer. -/
def onDisconnectStep (x : M × MessageSender) (_ : Unit) : ChainScript M (Except Failure Unit) :=
  ChainScript.onDisconnect x.1 x.2.position

/-- A message from a position on passes the middlewares that were added there and later. -/
theorem processOutboundChain_eq (channel : ChannelRef) (ms : List M) (fromPosition : ℕ)
    (message : Option RelayMessage) :
    (connectedChain channel ms).processOutboundChain fromPosition message =
      inTurn outboundStep ((placed channel ms).drop fromPosition) message := by
  induction ms using List.reverseRecOn generalizing message with
  | nil =>
    rw [placed, List.mapIdx_nil, List.drop_nil]
    rfl
  | append_singleton ms m ih =>
    rw [connectedChain_concat, ConnectedChain.processOutboundChain, placed_concat, ih]
    split
    · next h =>
      rw [List.drop_append_of_le_length (by rwa [length_placed]), inTurn_concat]
      rfl
    · next h =>
      rw [List.drop_eq_nil_of_le (by rw [length_placed]; omega),
        List.drop_eq_nil_of_le (by
          rw [List.length_append, length_placed]
          exact Nat.lt_of_not_le h)]

theorem onConnectChain_eq (channel : ChannelRef) (ms : List M) :
    (connectedChain channel ms).onConnectChain =
      inTurn onConnectStep (placed channel ms).reverse () := by
  induction ms using List.reverseRecOn with
  | nil => rfl
  | append_singleton ms m ih =>
    rw [connectedChain_concat, ConnectedChain.onConnectChain, ih, placed_concat,
      List.reverse_append]
    rfl

theorem onDisconnectChain_eq (channel : ChannelRef) (ms : List M) :
    (connectedChain channel ms).onDisconnectChain =
      inTurn onDisconnectStep (placed channel ms) () := by
  induction ms using List.reverseRecOn with
  | nil => rfl
  | append_singleton ms m ih =>
    rw [connectedChain_concat, ConnectedChain.onDisconnectChain, ih, placed_concat, inTurn_concat]
    rfl

/-- An inbound message visits the layers one inside the other, each with the message as the one
before handed it on, until one of them does not call `next`. On the way back, each layer gets the
result of the one inside it. -/
inductive Visits : List (M × MessageSender) → Option ClientMessage → ChainHistory M →
    Except Failure Unit → Prop where
  | tail (message : Option ClientMessage) : Visits [] message [] (.ok ())
  | returns (x : M × MessageSender) (inner : List (M × MessageSender))
    (message : Option ClientMessage) (result : Except Failure Unit) :
    Visits (x :: inner) message [⟨.processInbound x.1 x.2 message, .returns result⟩] result
  | next {x : M × MessageSender} {inner : List (M × MessageSender)}
    {message message' : Option ClientMessage} {t : ChainHistory M}
    {result : Except Failure Unit} (h : Visits inner message' t result)
    (result' : Except Failure Unit) :
    Visits (x :: inner) message (⟨.processInbound x.1 x.2 message, .next message'⟩ ::
      (t ++ [⟨.resumeInbound x.1 x.2 message result, result'⟩])) result'

/-- What a layer does with an inbound message. -/
theorem runs_processInboundChain_layer {m : M} {next : ConnectedChain M} {position : ℕ}
    {sender : MessageSender} {message : Option ClientMessage} {t : ChainHistory M}
    {result : Except Failure Unit} :
    Runs ((ConnectedChain.layer m next position sender).processInboundChain message) t result ↔
      t = [⟨.processInbound m sender message, .returns result⟩] ∨
      ∃ message' t' result', Runs (next.processInboundChain message') t' result' ∧
        t = ⟨.processInbound m sender message, .next message'⟩ ::
          (t' ++ [⟨.resumeInbound m sender message result', result⟩]) := by
  rw [ConnectedChain.processInboundChain]
  refine runs_request_bind.trans ⟨fun ⟨r, t', ht, h⟩ => ?_, fun h => ?_⟩
  · match r with
    | .returns result₁ =>
      obtain ⟨rfl, rfl⟩ := runs_done.mp h
      exact .inl ht
    | .next message' =>
      obtain ⟨t₁, result₁, t₂, rfl, h₁, h₂⟩ := runs_bind.mp h
      obtain rfl := runs_request.mp h₂
      exact .inr ⟨message', t₁, result₁, h₁, ht⟩
  · obtain rfl | ⟨message', t', result', h', rfl⟩ := h
    · exact ⟨.returns result, [], rfl, .done _⟩
    · refine ⟨.next message', _, rfl, ?_⟩
      exact runs_bind.mpr ⟨t', result', _, rfl, h', runs_request.mpr rfl⟩

theorem runs_processInboundChain (channel : ChannelRef) (ms : List M)
    {message : Option ClientMessage} {t : ChainHistory M} {result : Except Failure Unit} :
    Runs ((connectedChain channel ms).processInboundChain message) t result ↔
      Visits (placed channel ms).reverse message t result := by
  induction ms using List.reverseRecOn generalizing message t result with
  | nil =>
    refine runs_done.trans ⟨fun ⟨ht, hr⟩ => ?_, fun h => ?_⟩
    · rw [ht, hr]
      exact .tail message
    · cases h
      exact ⟨rfl, rfl⟩
  | append_singleton ms m ih =>
    rw [connectedChain_concat, runs_processInboundChain_layer, placed_concat,
      List.reverse_concat]
    refine ⟨fun h => ?_, fun h => ?_⟩
    · obtain rfl | ⟨message', t', result', h', rfl⟩ := h
      · exact .returns _ _ _ _
      · exact .next (ih.mp h') result
    · cases h with
      | returns => exact .inl rfl
      | next h => exact .inr ⟨_, _, _, ih.mpr h, rfl⟩

/-- **Routing through a chain.** Each middleware sends from its place in the order in which they
were added. What it sends is processed by itself and by those that were added later, in their
order, each with what the one before left, up to the first error. Inbound messages and the
connection go through the chain in the opposite order, the disconnection in the same. -/
theorem chain_routing (channel : ChannelRef) (ms : List M) :
    let chain := connectedChain channel ms
    chain.layers = ((placed channel ms).map fun x => (x.1, x.2.position, x.2)).reverse ∧
    (∀ position message t r,
      Runs (chain.processOutboundChain
        (MessageSender.packet ⟨channel, position⟩ message).position (some message)) t r ↔
        InTurn outboundStep ((placed channel ms).drop position) (some message) t r) ∧
    (∀ message t r, Runs (chain.processInboundChain message) t r ↔
      Visits (placed channel ms).reverse message t r) ∧
    (∀ t r, Runs chain.onConnectChain t r ↔
      InTurn onConnectStep (placed channel ms).reverse () t r) ∧
    (∀ t r, Runs chain.onDisconnectChain t r ↔
      InTurn onDisconnectStep (placed channel ms) () t r) := by
  refine ⟨layers_connected channel ms, fun position message t r => ?_, fun message t r =>
    runs_processInboundChain channel ms, fun t r => ?_, fun t r => ?_⟩
  · rw [processOutboundChain_eq]
    exact runs_inTurn
  · rw [onConnectChain_eq]
    exact runs_inTurn
  · rw [onDisconnectChain_eq]
    exact runs_inTurn

/-- `on_connect` of a layer, answered. -/
def onConnectAnswered (x : M × MessageSender) (r : Except Failure Unit) :
    (call : MiddlewareCall M) × call.Answer :=
  ⟨.onConnect x.1 x.2, r⟩

/-- `on_disconnect` of a layer, answered. -/
def onDisconnectAnswered (x : M × MessageSender) (r : Except Failure Unit) :
    (call : MiddlewareCall M) × call.Answer :=
  ⟨.onDisconnect x.1 x.2.position, r⟩

/-- Every middleware was connected, or one of them failed after those outside of it. -/
theorem onConnectChain_cases {channel : ChannelRef} {ms : List M} {t : ChainHistory M}
    {r : Except Failure Unit} (h : Runs (connectedChain channel ms).onConnectChain t r) :
    (r = .ok () ∧ t = (placed channel ms).reverse.map fun x => onConnectAnswered x (.ok ())) ∨
      ∃ xs x ys e, (placed channel ms).reverse = xs ++ x :: ys ∧ r = .error e ∧
        t = xs.map (fun x => onConnectAnswered x (.ok ())) ++ [onConnectAnswered x (.error e)] := by
  rw [onConnectChain_eq] at h
  exact (runs_inTurn.mp h).answered fun _ _ _ _ h => runs_request.mp h

/-- Every middleware was disconnected, or one of them failed after those inside of it. -/
theorem onDisconnectChain_cases {channel : ChannelRef} {ms : List M} {t : ChainHistory M}
    {r : Except Failure Unit} (h : Runs (connectedChain channel ms).onDisconnectChain t r) :
    (r = .ok () ∧ t = (placed channel ms).map fun x => onDisconnectAnswered x (.ok ())) ∨
      ∃ xs x ys e, placed channel ms = xs ++ x :: ys ∧ r = .error e ∧
        t = xs.map (fun x => onDisconnectAnswered x (.ok ())) ++
          [onDisconnectAnswered x (.error e)] := by
  rw [onDisconnectChain_eq] at h
  exact (runs_inTurn.mp h).answered fun _ _ _ _ h => runs_request.mp h

/-! ### Bypassing

`send_bypass` is documented to skip the outbound processing of the middleware that sends. Its tag
is the position in front of the sender's own, and a message passes the layers from its tag on. -/

theorem getElem?_placed (channel : ChannelRef) (ms : List M) (position : ℕ) :
    (placed channel ms)[position]? = ms[position]?.map fun m => (m, ⟨channel, position⟩) :=
  List.getElem?_mapIdx

/-- The layers from a position on start with that of the position. -/
theorem drop_placed (channel : ChannelRef) (ms : List M) {position : ℕ}
    (h : position < ms.length) :
    ∃ m rest, (placed channel ms).drop position = (m, ⟨channel, position⟩) :: rest := by
  have hlength : position < (placed channel ms).length := by rwa [length_placed]
  refine ⟨ms[position], (placed channel ms).drop (position + 1), ?_⟩
  rw [List.drop_eq_getElem_cons hlength]
  congr 1
  have hget := getElem?_placed channel ms position
  rw [List.getElem?_eq_getElem hlength, List.getElem?_eq_getElem h] at hget
  exact Option.some.inj hget

/-- The first layer that a message passes is asked first. -/
theorem cons_of_inTurn_outbound {x : M × MessageSender} {rest : List (M × MessageSender)}
    {message : Option RelayMessage} {t : ChainHistory M}
    {r : Except Failure (Option RelayMessage)} (h : InTurn outboundStep (x :: rest) message t r) :
    ∃ r' t', t = ⟨.processOutbound x.1 x.2 message, r'⟩ :: t' := by
  cases h with
  | fail _ h =>
    obtain rfl := runs_request.mp h
    exact ⟨_, [], rfl⟩
  | step h _ =>
    obtain rfl := runs_request.mp h
    exact ⟨_, _, rfl⟩

/-- What a message passes that bypasses the middleware at the position: the middlewares that were
added later, in their order, and no other. -/
def Bypasses (channel : ChannelRef) (ms : List M) (position : ℕ) (message : RelayMessage)
    (t : ChainHistory M) (r : Except Failure (Option RelayMessage)) : Prop :=
  InTurn outboundStep ((placed channel ms).drop (position + 1)) (some message) t r

/-- **A message sent with `send_bypass` never bypasses its sender.** It starts in front of it, at
the sender itself for the innermost middleware, and passes all the others on its way. -/
theorem sendBypass_route (channel : ChannelRef) (ms : List M) {position : ℕ}
    (hposition : position < ms.length) {message : RelayMessage} {t : ChainHistory M}
    {r : Except Failure (Option RelayMessage)}
    (h : Runs ((connectedChain channel ms).processOutboundChain
      (MessageSender.packetBypass ⟨channel, position⟩ message).position (some message)) t r) :
    InTurn outboundStep ((placed channel ms).drop (position - 1)) (some message) t r ∧
      ¬ Bypasses channel ms position message t r := by
  have htag : (MessageSender.packetBypass ⟨channel, position⟩ message).position =
      position - 1 := by
    cases position <;> rfl
  rw [htag, processOutboundChain_eq] at h
  have hroute := runs_inTurn.mp h
  refine ⟨hroute, fun hbypasses => ?_⟩
  obtain ⟨m, rest, hdrop⟩ := drop_placed channel ms
    (Nat.lt_of_le_of_lt (Nat.sub_le position 1) hposition)
  rw [hdrop] at hroute
  obtain ⟨r', t', rfl⟩ := cons_of_inTurn_outbound hroute
  by_cases hlast : position + 1 < ms.length
  · obtain ⟨m', rest', hdrop'⟩ := drop_placed channel ms hlast
    rw [Bypasses, hdrop'] at hbypasses
    obtain ⟨r'', t'', hsame⟩ := cons_of_inTurn_outbound hbypasses
    have hcall := congrArg Sigma.fst (List.cons.inj hsame).1
    have hsender := (MiddlewareCall.processOutbound.inj hcall).2.1
    have hposition' : position - 1 = position + 1 := congrArg MessageSender.position hsender
    omega
  · rw [Bypasses, List.drop_eq_nil_of_le (by rw [length_placed]; omega)] at hbypasses
    cases hbypasses

/-- What the outer of two middlewares sends, is processed by both. -/
theorem notice_not_bypassing :
    ¬ Bypasses 0 ["relay", "auth"] 1 (.notice "")
      [⟨.processOutbound "relay" ⟨0, 0⟩ (some (.notice "")), .ok (some (.notice ""))⟩,
        ⟨.processOutbound "auth" ⟨0, 1⟩ (some (.notice "")), .ok (some (.notice ""))⟩]
      (.ok (some (.notice ""))) := by
  have hrun : Runs ((connectedChain 0 ["relay", "auth"]).processOutboundChain
      (MessageSender.packetBypass ⟨0, 1⟩ (.notice "")).position (some (.notice "")))
      [⟨.processOutbound "relay" ⟨0, 0⟩ (some (.notice "")), .ok (some (.notice ""))⟩,
        ⟨.processOutbound "auth" ⟨0, 1⟩ (some (.notice "")), .ok (some (.notice ""))⟩]
      (.ok (some (.notice ""))) := .ask _ <| .ask _ <| .done _
  exact (sendBypass_route 0 ["relay", "auth"] (by decide) hrun).2

/-- What the only middleware sends, is processed by itself. -/
theorem sender_processes_own_bypass : ∃ t r,
    Runs ((connectedChain 0 ["relay"]).processOutboundChain
      (MessageSender.packetBypass ⟨0, 0⟩ (.notice "")).position (some (.notice ""))) t r ∧
      ¬ Bypasses 0 ["relay"] 0 (.notice "") t r :=
  ⟨[⟨.processOutbound "relay" ⟨0, 0⟩ (some (.notice "")), .ok none⟩], .ok none,
    .ask _ <| .done _, fun h => nomatch h⟩

/-! ### The chains over lists

The other modules keep a chain as the list of its middlewares, the outermost first, and a
middleware as a script. There a middleware answers the calls of its own hooks. -/

section Lists

variable {Q : Type} {A : Q → Type}

theorem handle_processOutboundChain
    (answer : (call : MiddlewareCall M) → Script Q A call.Answer)
    (processOutbound : M → OutboundMiddleware Q A)
    (h : ∀ m sender message, answer (.processOutbound m sender message) =
      processOutbound m message)
    (channel : ChannelRef) (ms : List M) (fromPosition : ℕ) (message : Option RelayMessage) :
    ((connectedChain channel ms).processOutboundChain fromPosition message).handle answer =
      RelayBuilder.processOutboundChain fromPosition (ms.reverse.map processOutbound) message := by
  induction ms using List.reverseRecOn with
  | nil => rfl
  | append_singleton ms m ih =>
    rw [connectedChain_concat, ConnectedChain.processOutboundChain, List.reverse_concat,
      List.map_cons, RelayBuilder.processOutboundChain, List.length_map, List.length_reverse]
    split
    · rw [handle_andThen, ih]
      congr 1
      funext message'
      exact (handle_request answer _).trans (h m _ message')
    · exact ih

theorem handle_onConnectChain
    (answer : (call : MiddlewareCall Middleware) → Relay call.Answer)
    (h : ∀ m sender, answer (.onConnect m sender) = m.onConnect sender)
    (channel : ChannelRef) (ms : List Middleware) :
    (connectedChain channel ms).onConnectChain.handle answer =
      RelayBuilder.onConnectChain channel ms.reverse := by
  induction ms using List.reverseRecOn with
  | nil => rfl
  | append_singleton ms m ih =>
    rw [connectedChain_concat, ConnectedChain.onConnectChain, List.reverse_concat,
      RelayBuilder.onConnectChain, handle_andThen, ih, List.length_reverse]
    congr 1
    exact (handle_request answer _).trans (h m _)

/-- `process_inbound` in two parts: before it hands its context to `next`, and after that. -/
structure InboundParts where
  enter : MessageSender → Option ClientMessage → Relay Inbound
  resume : MessageSender → Option ClientMessage → Except Failure Unit → Relay (Except Failure Unit)

/-- The parts together. -/
def InboundParts.middleware (parts : InboundParts) : InboundMiddleware := fun ctx => do
  match ← parts.enter ctx.sender ctx.message with
  | .returns result => pure result
  | .next message => do
    let result ← ctx.next message
    parts.resume ctx.sender ctx.message result

theorem handle_processInboundChain
    (answer : (call : MiddlewareCall M) → Relay call.Answer) (parts : M → InboundParts)
    (henter : ∀ m sender message, answer (.processInbound m sender message) =
      (parts m).enter sender message)
    (hresume : ∀ m sender message result, answer (.resumeInbound m sender message result) =
      (parts m).resume sender message result)
    (channel : ChannelRef) (subdomain : Scope) (ms : List M) (message : Option ClientMessage) :
    ((connectedChain channel ms).processInboundChain message).handle answer =
      RelayBuilder.processInboundChain channel subdomain
        (ms.reverse.map fun m => (parts m).middleware) message := by
  induction ms using List.reverseRecOn generalizing message with
  | nil => rfl
  | append_singleton ms m ih =>
    rw [connectedChain_concat, ConnectedChain.processInboundChain, List.reverse_concat,
      List.map_cons, RelayBuilder.processInboundChain, List.length_map, List.length_reverse,
      InboundParts.middleware]
    simp only [bind_eq, handle_bind]
    congr 1
    · exact (handle_request answer _).trans (henter m _ message)
    · funext r
      cases r with
      | returns result => rfl
      | next message' =>
        simp only [handle_bind, ih]
        congr 1
        funext result
        exact (handle_request answer _).trans (hresume m _ message result)

/-- The parts of a middleware that leaves inbound messages alone. -/
def InboundParts.passOn : InboundParts where
  enter _ message := pure (.next message)
  resume _ _ result := pure result

theorem middleware_passOn : InboundParts.passOn.middleware = RelayBuilder.passOn := by
  funext ctx
  exact bind_done (ctx.next ctx.message)

/-- The parts of `ErrorHandlingMiddleware`. -/
def InboundParts.errorHandling : InboundParts where
  enter _ message := pure (.next message)
  resume sender message
    | .ok () => pure (.ok ())
    | .error (.error e) =>
      match message.bind ErrorHandlingMiddleware.clientMessageId with
      | some id => do
        let _ ← sender.send (ErrorHandlingMiddleware.errorMessage id e)
        pure (.ok ())
      | none => pure (.ok ())
    | .error (.other _) => pure (.ok ())

theorem middleware_errorHandling :
    InboundParts.errorHandling.middleware = ErrorHandlingMiddleware.processInbound :=
  rfl

end Lists

end RelayBuilder
