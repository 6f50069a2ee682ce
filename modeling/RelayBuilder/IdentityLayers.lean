import RelayBuilder.MiddlewareChain
import Mathlib.Data.List.GetD

/-!
# Layers that do nothing

`RelayBuilder` puts an `IdentityMiddleware` into the chain wherever a feature is off, as the
`Right` of an `Either` whose `Left` would be the middleware. Such a layer takes a position of its
own, so the positions of all layers outside of it are shifted, and with them the tags of what these
send.

A chain of layers behaves as the chain of the middlewares that are left without the identities: the
same hooks are called in the same order with the same messages, and the results are the same. Only
the numbers of the senders differ.

## Main definitions

* `Layer`: a middleware, the identity, or one of the two as an `Either`
* `Layer.answer`: what the hooks of a layer do
* `middlewares`, `place`: the middlewares of the layers, and their positions
* `renumber`: the hooks of the middlewares, called with other positions

## Main results

* `identityLayers_neutral`
-/

namespace RelayBuilder

open Interleave Script

variable {M : Type}

/-- A layer of a chain: a middleware, `IdentityMiddleware`, or one of them as an `Either`. -/
inductive Layer (M : Type) where
  | middleware (m : M)
  | identity
  | left (l : Layer M)
  | right (r : Layer M)

namespace Layer

/-- `on_connect`. The identity has the default one of the trait. -/
def onConnect (sender : MessageSender) : Layer M → ChainScript M (Except Failure Unit)
  | middleware m => ChainScript.onConnect m sender
  | identity => pure (.ok ())
  | left l => l.onConnect sender
  | right r => r.onConnect sender

/-- `process_inbound`, up to its call of `next`. -/
def processInbound (sender : MessageSender) (message : Option ClientMessage) :
    Layer M → ChainScript M Inbound
  | middleware m => ChainScript.processInbound m sender message
  | identity => pure (.next message)
  | left l => l.processInbound sender message
  | right r => r.processInbound sender message

/-- `process_inbound`, after its call of `next`. -/
def resumeInbound (sender : MessageSender) (message : Option ClientMessage)
    (result : Except Failure Unit) : Layer M → ChainScript M (Except Failure Unit)
  | middleware m => ChainScript.resumeInbound m sender message result
  | identity => pure result
  | left l => l.resumeInbound sender message result
  | right r => r.resumeInbound sender message result

/-- `process_outbound`. -/
def processOutbound (sender : MessageSender) (message : Option RelayMessage) :
    Layer M → ChainScript M (Except Failure (Option RelayMessage))
  | middleware m => ChainScript.processOutbound m sender message
  | identity => pure (.ok message)
  | left l => l.processOutbound sender message
  | right r => r.processOutbound sender message

/-- `on_disconnect`. -/
def onDisconnect (position : ℕ) : Layer M → ChainScript M (Except Failure Unit)
  | middleware m => ChainScript.onDisconnect m position
  | identity => pure (.ok ())
  | left l => l.onDisconnect position
  | right r => r.onDisconnect position

/-- What a layer does when one of its hooks is called: it calls those of its middleware. -/
def answer : (call : MiddlewareCall (Layer M)) → ChainScript M call.Answer
  | .onConnect l sender => l.onConnect sender
  | .processInbound l sender message => l.processInbound sender message
  | .resumeInbound l sender message result => l.resumeInbound sender message result
  | .processOutbound l sender message => l.processOutbound sender message
  | .onDisconnect l position => l.onDisconnect position

/-- The middleware of a layer: none for the identity. -/
def core : Layer M → Option M
  | middleware m => some m
  | identity => none
  | left l => l.core
  | right r => r.core

end Layer

/-- The middlewares of the layers. -/
def middlewares (layers : List (Layer M)) : List M := layers.filterMap Layer.core

/-- The positions of the layers with a middleware. -/
def places (layers : List (Layer M)) : List ℕ :=
  (layers.mapIdx fun position layer => layer.core.map fun _ => position).filterMap id

/-- The hooks of the middlewares, each called with another position. -/
def renumber (newPosition : ℕ → ℕ) : (call : MiddlewareCall M) → ChainScript M call.Answer
  | .onConnect m sender => ChainScript.onConnect m ⟨sender.channel, newPosition sender.position⟩
  | .processInbound m sender message =>
    ChainScript.processInbound m ⟨sender.channel, newPosition sender.position⟩ message
  | .resumeInbound m sender message result =>
    ChainScript.resumeInbound m ⟨sender.channel, newPosition sender.position⟩ message result
  | .processOutbound m sender message =>
    ChainScript.processOutbound m ⟨sender.channel, newPosition sender.position⟩ message
  | .onDisconnect m position => ChainScript.onDisconnect m (newPosition position)

/-! ### Layers -/

/-- What does not see an `Either` sees the middleware or the identity in it. -/
theorem Layer.eq_core {β : Type} {f : Layer M → β} (hleft : ∀ l, f (.left l) = f l)
    (hright : ∀ r, f (.right r) = f r) (layer : Layer M) :
    f layer = layer.core.elim (f .identity) fun m => f (.middleware m) := by
  induction layer with
  | middleware m => rfl
  | identity => rfl
  | left l ih => rw [hleft, ih, Layer.core]
  | right r ih => rw [hright, ih, Layer.core]

section Answers

variable (sender : MessageSender) (layer : Layer M)

theorem Layer.onConnect_eq : layer.onConnect sender =
    layer.core.elim (pure (.ok ())) fun m => ChainScript.onConnect m sender :=
  eq_core (fun _ => rfl) (fun _ => rfl) layer

theorem Layer.processInbound_eq (message : Option ClientMessage) :
    layer.processInbound sender message = layer.core.elim (pure (.next message)) fun m =>
      ChainScript.processInbound m sender message :=
  eq_core (fun _ => rfl) (fun _ => rfl) layer

theorem Layer.resumeInbound_eq (message : Option ClientMessage) (result : Except Failure Unit) :
    layer.resumeInbound sender message result = layer.core.elim (pure result) fun m =>
      ChainScript.resumeInbound m sender message result :=
  eq_core (fun _ => rfl) (fun _ => rfl) layer

theorem Layer.processOutbound_eq (message : Option RelayMessage) :
    layer.processOutbound sender message = layer.core.elim (pure (.ok message)) fun m =>
      ChainScript.processOutbound m sender message :=
  eq_core (fun _ => rfl) (fun _ => rfl) layer

theorem Layer.onDisconnect_eq (position : ℕ) : layer.onDisconnect position =
    layer.core.elim (pure (.ok ())) fun m => ChainScript.onDisconnect m position :=
  eq_core (fun _ => rfl) (fun _ => rfl) layer

end Answers

/-! ### Positions -/

theorem middlewares_concat (layers : List (Layer M)) (layer : Layer M) :
    middlewares (layers ++ [layer]) = middlewares layers ++ layer.core.toList := by
  rw [middlewares, List.filterMap_append]
  rfl

theorem places_concat (layers : List (Layer M)) (layer : Layer M) :
    places (layers ++ [layer]) =
      places layers ++ (layer.core.map fun _ => layers.length).toList := by
  rw [places, List.mapIdx_concat, List.filterMap_append]
  cases layer.core <;> rfl

@[simp] theorem length_places (layers : List (Layer M)) :
    (places layers).length = (middlewares layers).length := by
  induction layers using List.reverseRecOn with
  | nil => rfl
  | append_singleton layers layer ih =>
    rw [places_concat, middlewares_concat, List.length_append, List.length_append, ih]
    cases layer.core <;> rfl

theorem lt_of_mem_places {layers : List (Layer M)} {i : ℕ} (h : i ∈ places layers) :
    i < layers.length := by
  induction layers using List.reverseRecOn with
  | nil => cases h
  | append_singleton layers layer ih =>
    rw [places_concat, List.mem_append] at h
    rw [List.length_append, List.length_singleton]
    obtain h | h := h
    · exact Nat.lt_succ_of_lt (ih h)
    · obtain ⟨_, _, rfl⟩ := Option.map_eq_some_iff.mp (Option.mem_toList.mp h)
      exact Nat.lt_succ_self _

/-- The middlewares keep their order. -/
theorem pairwise_places (layers : List (Layer M)) : (places layers).Pairwise (· < ·) := by
  induction layers using List.reverseRecOn with
  | nil => exact .nil
  | append_singleton layers layer ih =>
    rw [places_concat, List.pairwise_append]
    refine ⟨ih, ?_, fun i hi j hj => ?_⟩
    · cases layer.core with
      | none => exact .nil
      | some m => exact List.pairwise_singleton ..
    · obtain ⟨_, _, rfl⟩ := Option.map_eq_some_iff.mp (Option.mem_toList.mp hj)
      exact lt_of_mem_places hi

/-- The positions of the middlewares, in the chain of their own and in that of the layers. -/
def Renumbers (layers : List (Layer M)) (newPosition : ℕ → ℕ) : Prop :=
  ∀ position place, (places layers)[position]? = some place → newPosition position = place

theorem Renumbers.getD (layers : List (Layer M)) :
    Renumbers layers fun position => (places layers).getD position 0 := by
  intro position place h
  change (places layers).getD position 0 = place
  rw [List.getD_eq_getElem?_getD, h, Option.getD_some]

theorem Renumbers.init {layers : List (Layer M)} {layer : Layer M} {newPosition : ℕ → ℕ}
    (h : Renumbers (layers ++ [layer]) newPosition) : Renumbers layers newPosition := by
  intro position place hplace
  refine h position place ?_
  rw [places_concat]
  rw [List.getElem?_append_left (List.getElem?_eq_some_iff.mp hplace).1, hplace]

theorem Renumbers.last {layers : List (Layer M)} {layer : Layer M} {newPosition : ℕ → ℕ}
    (h : Renumbers (layers ++ [layer]) newPosition) {m : M} (hcore : layer.core = some m) :
    newPosition (middlewares layers).length = layers.length := by
  refine h _ _ ?_
  rw [places_concat, hcore, ← length_places]
  exact List.getElem?_concat_length

/-! ### Chains -/

section Chains

variable {channel : ChannelRef} {layers : List (Layer M)} {newPosition : ℕ → ℕ}

theorem handle_onConnectChain_layers (h : Renumbers layers newPosition) :
    ((connectedChain channel layers).onConnectChain).handle Layer.answer =
      ((connectedChain channel (middlewares layers)).onConnectChain).handle
        (renumber newPosition) := by
  induction layers using List.reverseRecOn with
  | nil => rfl
  | append_singleton layers layer ih =>
    rw [connectedChain_concat, ConnectedChain.onConnectChain, handle_andThen, ih h.init,
      ChainScript.onConnect, handle_request, Layer.answer, Layer.onConnect_eq, middlewares_concat]
    cases hcore : layer.core with
    | none =>
      rw [Option.toList_none, List.append_nil]
      rfl
    | some m =>
      rw [Option.toList_some, connectedChain_concat, ConnectedChain.onConnectChain,
        handle_andThen, ChainScript.onConnect, handle_request, renumber, h.last hcore]
      rfl

theorem handle_onDisconnectChain_layers (h : Renumbers layers newPosition) :
    ((connectedChain channel layers).onDisconnectChain).handle Layer.answer =
      ((connectedChain channel (middlewares layers)).onDisconnectChain).handle
        (renumber newPosition) := by
  induction layers using List.reverseRecOn with
  | nil => rfl
  | append_singleton layers layer ih =>
    rw [connectedChain_concat, ConnectedChain.onDisconnectChain, handle_andThen, ih h.init]
    simp only [ChainScript.onDisconnect, handle_request, Layer.answer, Layer.onDisconnect_eq]
    rw [middlewares_concat]
    cases hcore : layer.core with
    | none =>
      rw [Option.toList_none, List.append_nil]
      exact andThen_done _
    | some m =>
      rw [Option.toList_some, connectedChain_concat, ConnectedChain.onDisconnectChain,
        handle_andThen]
      simp only [ChainScript.onDisconnect, handle_request, renumber]
      rw [h.last hcore]
      rfl

theorem handle_processInboundChain_layers (h : Renumbers layers newPosition)
    (message : Option ClientMessage) :
    ((connectedChain channel layers).processInboundChain message).handle Layer.answer =
      ((connectedChain channel (middlewares layers)).processInboundChain message).handle
        (renumber newPosition) := by
  induction layers using List.reverseRecOn generalizing message with
  | nil => rfl
  | append_singleton layers layer ih =>
    rw [connectedChain_concat, middlewares_concat]
    cases hcore : layer.core with
    | none =>
      rw [Option.toList_none, List.append_nil, ← ih h.init, ConnectedChain.processInboundChain]
      simp only [bind_eq, handle_bind, ChainScript.processInbound, handle_request, Layer.answer,
        Layer.processInbound_eq, hcore, Option.elim_none, pure_eq, done_bind,
        ChainScript.resumeInbound, Layer.resumeInbound_eq]
      exact bind_done _
    | some m =>
      rw [Option.toList_some, connectedChain_concat, ConnectedChain.processInboundChain,
        ConnectedChain.processInboundChain, bind_eq, bind_eq, handle_bind, handle_bind]
      congr 1
      · simp only [ChainScript.processInbound, handle_request, Layer.answer,
          Layer.processInbound_eq, hcore, Option.elim_some, renumber]
        rw [h.last hcore]
      · funext r
        cases r with
        | returns result => rfl
        | next message' =>
          simp only [bind_eq, handle_bind, ih h.init, ChainScript.resumeInbound, handle_request,
            Layer.answer, Layer.resumeInbound_eq, hcore, Option.elim_some, renumber]
          rw [h.last hcore]

/-- The tag in the one chain passes the layers that the other tag passes in the other. -/
theorem handle_processOutboundChain_layers (h : Renumbers layers newPosition)
    {fromLayer fromMiddleware : ℕ}
    (htag : ∀ position < (middlewares layers).length,
      fromLayer ≤ newPosition position ↔ fromMiddleware ≤ position)
    (message : Option RelayMessage) :
    ((connectedChain channel layers).processOutboundChain fromLayer message).handle
        Layer.answer =
      ((connectedChain channel (middlewares layers)).processOutboundChain fromMiddleware
        message).handle (renumber newPosition) := by
  induction layers using List.reverseRecOn with
  | nil => rfl
  | append_singleton layers layer ih =>
    rw [middlewares_concat, List.length_append] at htag
    replace ih := ih h.init fun position hposition =>
      htag position (Nat.lt_add_right _ hposition)
    rw [connectedChain_concat, middlewares_concat, ConnectedChain.processOutboundChain]
    cases hcore : layer.core with
    | none =>
      rw [Option.toList_none, List.append_nil, ← ih]
      split
      · rw [handle_andThen]
        simp only [ChainScript.processOutbound, handle_request, Layer.answer,
          Layer.processOutbound_eq, hcore, Option.elim_none]
        exact andThen_done _
      · rfl
    | some m =>
      have hlast := htag (middlewares layers).length (by rw [hcore]; exact Nat.lt_succ_self _)
      rw [h.last hcore] at hlast
      rw [Option.toList_some, connectedChain_concat, ConnectedChain.processOutboundChain]
      by_cases hpasses : fromLayer ≤ layers.length
      · rw [if_pos hpasses, if_pos (hlast.mp hpasses), handle_andThen, handle_andThen, ih]
        simp only [ChainScript.processOutbound, handle_request, Layer.answer,
          Layer.processOutbound_eq, hcore, Option.elim_some, renumber]
        rw [h.last hcore]
      · rw [if_neg hpasses, if_neg fun hm => hpasses (hlast.mpr hm), ih]

end Chains

/-- The position of a middleware in the chain of the layers. -/
def place (layers : List (Layer M)) (position : ℕ) : ℕ := (places layers).getD position 0

theorem place_le_place {layers : List (Layer M)} {position position' : ℕ}
    (h : position < (middlewares layers).length) (h' : position' < (middlewares layers).length) :
    place layers position ≤ place layers position' ↔ position ≤ position' := by
  rw [← length_places] at h h'
  rw [place, place, List.getD_eq_getElem _ _ h, List.getD_eq_getElem _ _ h']
  have hmono := List.pairwise_iff_getElem.mp (pairwise_places layers)
  refine ⟨fun hle => ?_, fun hle => ?_⟩
  · by_contra hlt
    exact absurd hle (Nat.not_le_of_lt (hmono _ _ h' h (Nat.lt_of_not_le hlt)))
  · obtain rfl | hlt := Nat.eq_or_lt_of_le hle
    · exact le_rfl
    · exact Nat.le_of_lt (hmono _ _ h h' hlt)

/-- **Layers that do nothing are neutral.** Whatever layers a chain is built from, a message of
the client, the connection and the disconnection go through it as through the chain of its
middlewares alone, and so does what one of the middlewares sends. The same hooks are called with
the same messages, and the results are the same. Only the positions of the senders differ. -/
theorem identityLayers_neutral (channel : ChannelRef) (layers : List (Layer M)) :
    let chain := connectedChain channel layers
    let original := connectedChain channel (middlewares layers)
    (∀ message, (chain.processInboundChain message).handle Layer.answer =
      (original.processInboundChain message).handle (renumber (place layers))) ∧
    (chain.onConnectChain.handle Layer.answer =
      original.onConnectChain.handle (renumber (place layers))) ∧
    (chain.onDisconnectChain.handle Layer.answer =
      original.onDisconnectChain.handle (renumber (place layers))) ∧
    (∀ position < (middlewares layers).length, ∀ message,
      (chain.processOutboundChain (MessageSender.packet ⟨channel, place layers position⟩
        message).position (some message)).handle Layer.answer =
      (original.processOutboundChain (MessageSender.packet ⟨channel, position⟩
        message).position (some message)).handle (renumber (place layers))) := by
  have h : Renumbers layers (place layers) := Renumbers.getD layers
  refine ⟨handle_processInboundChain_layers h, handle_onConnectChain_layers h,
    handle_onDisconnectChain_layers h, fun position hposition message => ?_⟩
  exact handle_processOutboundChain_layers h
    (fun position' hposition' => place_le_place hposition hposition') _

end RelayBuilder
