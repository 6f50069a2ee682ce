import RelayBuilder.RelayCalls

/-!
# The database

The functions of `database.rs`, which put the scoped views of the store behind the errors of the
framework. The logging is left out.
-/

namespace RelayBuilder

open Interleave

namespace RelayDatabase

/-- The error when there is no view of a scope. -/
def scopedViewError (text : String) : Error := .database ("Failed to get scoped view: " ++ text)

/-- `save_event`. Its errors are boxed, so only their texts are left. What the store says about an
event that it answered for is not looked at. -/
def saveEvent (event : Event) (scope : Scope) : Relay (Except String Unit) := do
  match ← Script.request (RelayCall.scopedView scope) with
  | .error e => pure (.error (scopedViewError e).display)
  | .ok () =>
    match ← Script.request (RelayCall.saveEvent event scope) with
    | .error e => pure (.error e)
    | .ok _ => pure (.ok ())

/-- `delete`. -/
def delete (filter : Filter) (scope : Scope) : Relay (Except String Unit) := do
  match ← Script.request (RelayCall.scopedView scope) with
  | .error e => pure (.error (scopedViewError e).display)
  | .ok () => Script.request (RelayCall.delete filter scope)

/-- The text says that an index names an event that is not there. -/
def isNotFound (text : String) : Bool := decide ("Not found".toList <:+: text.toList)

/-- The loop of `query` over the filters. -/
def queryAll (scope : Scope) : List Filter → Events → Relay (Except Error Events)
  | [], all => pure (.ok all)
  | filter :: filters, all => do
    match ← Script.request (RelayCall.query filter scope) with
    | .ok events => do
      let all ← Script.request (RelayCall.extend all events)
      queryAll scope filters all
    | .error (.backend text) =>
      if isNotFound text then queryAll scope filters all
      else pure (.error (.database ("Database backend error: " ++ text)))
    | .error .notSupported => pure (.error (.database "Database operation not supported"))

/-- `query`. -/
def query (filters : List Filter) (scope : Scope) : Relay (Except Error Events) := do
  match ← Script.request (RelayCall.scopedView scope) with
  | .error e => pure (.error (scopedViewError e))
  | .ok () => queryAll scope filters []

/-- The text says that there is nothing in the store. -/
def isEmptyStore (text : String) : Bool :=
  decide ("Backend(NotFound)".toList <:+: text.toList) ||
    decide ("NotFound".toList <:+: text.toList) || decide ("Not found".toList <:+: text.toList)

/-- `negentropy_items`. -/
def negentropyItems (filter : Filter) (scope : Scope) :
    Relay (Except Error (List (EventId × Timestamp))) := do
  match ← Script.request (RelayCall.scopedView scope) with
  | .error e => pure (.error (scopedViewError e))
  | .ok () =>
    match ← Script.request (RelayCall.negentropyItems filter scope) with
    | .ok items => pure (.ok items)
    | .error text =>
      if isEmptyStore text then pure (.ok [])
      else pure (.error (.database ("Failed to get negentropy items: " ++ text)))

end RelayDatabase

end RelayBuilder
