import RelayBuilder.Interleave.Exec
import RelayBuilder.RelayMiddleware
import RelayBuilder.Outbound

/-!
# The chain of a connection

A middleware with everything it does for a connection, and the chain that `RelayBuilder::build_with`
puts together: what the user adds stands outside `RelayMiddleware`, and the defaults of the
framework stand outside of that.

## Main definitions

* `Middleware`, `RelayMiddleware.middleware`, `ErrorHandlingMiddleware.middleware`
* `onConnectChain`, `buildWith`
-/

namespace RelayBuilder

open Interleave

/-- A middleware. -/
structure Middleware where
  onConnect : MessageSender → Relay (Except Failure Unit)
  processInbound : InboundMiddleware
  processOutbound : OutboundMiddleware RelayCall RelayCall.Answer

/-- A middleware that leaves the messages alone: `IdentityMiddleware`, and what the logger and the
metrics do with messages. -/
def Middleware.identity : Middleware where
  onConnect _ := pure (.ok ())
  processInbound := passOn
  processOutbound message := pure (.ok message)

/-- `on_connect_chain`: from the outermost to the innermost, until one fails. -/
def onConnectChain (channel : ChannelRef) : List Middleware → Relay (Except Failure Unit)
  | [] => pure (.ok ())
  | middleware :: inner => (middleware.onConnect ⟨channel, inner.length⟩).andThen fun _ =>
    onConnectChain channel inner

namespace RelayMiddleware

/-- `process_outbound`: an EVENT message passes if the event may be seen, with the latest context.
An error of the processor is one of the chain. -/
def processOutbound : OutboundMiddleware RelayCall RelayCall.Answer
  | none => pure (.ok none)
  | some (.event sub event) => do
    let context ← Script.request RelayCall.eventContext
    match ← Script.request (RelayCall.canSeeEvent event context) with
    | .ok true => pure (.ok (some (.event sub event)))
    | .ok false => pure (.ok none)
    | .error e => pure (.error (.error e))
  | some message => pure (.ok (some message))

/-- `RelayMiddleware`. Its `on_connect` hands its own sender to the coordinator and the registry. -/
def middleware (kinds : KindRanges) : Middleware where
  onConnect _ := pure (.ok ())
  processInbound := processInbound kinds
  processOutbound := processOutbound

end RelayMiddleware

/-- `ErrorHandlingMiddleware`. -/
def ErrorHandlingMiddleware.middleware : Middleware where
  onConnect _ := pure (.ok ())
  processInbound := processInbound
  processOutbound message := pure (.ok message)

/-- What the builder was told about the chain: the middlewares for the metrics and for
authentication, if they are enabled. -/
structure ChainConfig where
  withoutDefaults : Bool
  metrics : Option Middleware
  auth : Option Middleware

/-- The chain of `build_with`, the outermost first, around the middlewares that the user adds. -/
def buildWith (config : ChainConfig) (kinds : KindRanges)
    (custom : List Middleware) : List Middleware :=
  let chainWithMetrics := config.metrics.getD .identity ::
    (custom ++ [RelayMiddleware.middleware kinds])
  if config.withoutDefaults then
    .identity :: .identity :: .identity :: chainWithMetrics
  else
    .identity :: ErrorHandlingMiddleware.middleware :: config.auth.getD .identity ::
      chainWithMetrics

end RelayBuilder
