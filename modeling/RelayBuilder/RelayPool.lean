import RelayBuilder.Interleave.Exec
import RelayBuilder.Interleave.Triple
import RelayBuilder.RelayCalls
import RelayBuilder.SubscriptionRegistry

/-!
# The scripts of the relay on the registry

The tasks of a relay share the registry, with its indexes and channels. What a script asks about
these is answered by the programs of the registry, action by action, and other tasks may act in
between. All other services have a state of their own, and may answer in any way.

## Main definitions

* `RelayState`, and `Services`
* `RelayCall.code`: how a question is answered

## Main results

* `EveryAsk.triple`: the contract of a script, from those of its questions
* `EveryAsk.history`: the same, with what was asked and answered
-/

namespace Interleave

/-- A script whose questions all keep `J` as a pre- and postcondition. -/
theorem Script.EveryAsk.triple {Q : Type} {A : Q → Type} {L σ α : Type} {I J : σ → Prop}
    {R G : σ → σ → Prop} {P : Q → Prop} {code : (q : Q) → Prog L σ (A q)} {p : Script Q A α}
    (h : p.EveryAsk (fun _ _ => True) P) (hrefl : ∀ s, R s s) (hJ : Stable I R J)
    (hcode : ∀ q, P q → Triple I R G J (code q) fun _ => J) :
    Triple I R G J (p.interpret code) fun _ => J := by
  induction p with
  | done a => exact Triple.done (Q := fun _ => J) hJ
  | ask q n ih => exact Triple.bind hrefl (hcode q h.1) fun r => ih r (h.2 r trivial)

/-- The history of a script, by an invariant of what was asked so far. -/
theorem Script.EveryAsk.history {Q : Type} {A : Q → Type} {L σ α : Type}
    {allowed : (q : Q) → A q → Prop} {P : Q → Prop} {I : σ → Prop} {R G : σ → σ → Prop}
    {J : Script.History A → σ → Prop} {code : (q : Q) → Prog L σ (A q)} {p : Script Q A α}
    (h : p.EveryAsk allowed P) (hrefl : ∀ s, R s s) (hJ : ∀ t, Stable I R (J t))
    (hcode : ∀ q t, P q → Triple I R G (J t) (code q) fun r s => allowed q r ∧ J (t ++ [⟨q, r⟩]) s)
    (t : Script.History A) :
    Triple I R G (J t) (p.interpret code) fun a s => ∃ t', Script.Runs p t' a ∧ J (t ++ t') s := by
  induction p generalizing t with
  | done a =>
    intro s _ hs s' hR hI
    refine ⟨[], .done a, ?_⟩
    rw [List.append_nil]
    exact hJ t s s' hR hI hs
  | ask q n ih =>
    refine Triple.bind hrefl (hcode q t h.1) fun r s hI ⟨hr, hs⟩ => ?_
    refine (ih r (h.2 r hr) (t ++ [⟨q, r⟩]) s hI hs).post ?_
    rintro a s' _ ⟨t', hruns, hs'⟩
    rw [List.append_assoc, List.singleton_append] at hs'
    exact ⟨⟨q, r⟩ :: t', .ask r hruns, hs'⟩

/-- What the answers to such questions do to the state, a script does. -/
theorem Script.EveryAsk.every_interpret {Q : Type} {A : Q → Type} {L σ α : Type}
    {T : σ → σ → Prop} {P : Q → Prop} {code : (q : Q) → Prog L σ (A q)} {p : Script Q A α}
    (h : p.EveryAsk (fun _ _ => True) P) (hcode : ∀ q, P q → (code q).Every T) :
    (p.interpret code).Every T := by
  induction p with
  | done a => trivial
  | ask q n ih => exact (hcode q h.1).bind fun r => ih r (h.2 r trivial)

end Interleave

namespace RelayBuilder

open Interleave

/-- The registry, and what the other services keep. -/
structure RelayState (Δ : Type) where
  registry : SubscriptionRegistry
  rest : Δ

/-- What a task accesses in one action. -/
inductive RelayLock where
  | registry (lock : RegistryLock)
  | service
  deriving DecidableEq

/-- The answers of the other services, and what becomes of their state. -/
abbrev Services (Δ : Type) := (call : RelayCall) → Δ → call.Answer × Δ

namespace RelayState

variable {Δ α : Type}

/-- A program of the registry. -/
def onRegistry (p : Prog RegistryLock SubscriptionRegistry α) : Prog RelayLock (RelayState Δ) α :=
  p.zoom .registry (·.registry) fun s t => { t with registry := s }

end RelayState

open RelayState

/-- `try_send` on a channel. -/
def SubscriptionRegistry.trySendTo (channel : ChannelRef) (packet : Packet)
    (s : SubscriptionRegistry) : Except Channel.TrySendError Unit × SubscriptionRegistry :=
  match (s.channels channel).trySend packet with
  | .ok ch => (.ok (), s.setChannel channel ch)
  | .error e => (.error e, s)

/-- How a question is answered. -/
def RelayCall.code {Δ : Type} (sdk : Sdk) (services : Services Δ) :
    (call : RelayCall) → Prog RelayLock (RelayState Δ) call.Answer
  | .trySend channel packet =>
    onRegistry (.atomic (.channel channel) (SubscriptionRegistry.trySendTo channel packet))
  | .distributeEvent event scope => do
    onRegistry (SubscriptionRegistry.distributeEventIndexed sdk event scope)
    pure ()
  | .addSubscription id sub filters => do
    let result ← onRegistry (SubscriptionRegistry.addSubscription id sub filters)
    pure (result.map fun _ => ())
  | .removeSubscription id sub => do
    let result ← onRegistry (SubscriptionRegistry.removeSubscription sdk.order id sub)
    pure (result.map fun _ => ())
  | call => .atomic .service fun t =>
    ((services call t.rest).1, { t with rest := (services call t.rest).2 })

end RelayBuilder
