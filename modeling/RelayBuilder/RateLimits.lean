import RelayBuilder.Interleave.Machine
import RelayBuilder.MessageSender
import RelayBuilder.Nostr

/-!
# Rate limits

`RateLimitMiddleware` asks two limiters about a message, first the one of the whole relay, if there
is one, and then that of the connection. A limiter takes one of its cells exactly if it lets the
message pass. So a message that the connection's own limiter refuses has taken a cell of the relay
by then, and this is all it did.

What a limiter answers is any function of the cells it has taken and of the time.

## Main definitions

* `RateLimitMiddleware`, `RateLimitMiddleware.processInbound`
* `RateLimitMiddleware.decisions`: the decisions on a sequence of messages
* `gcra`: a limiter with a quota

## Main results

* `processInbound_cases`: the three decisions, and the cells that are taken with each
* `refused_traffic`: what becomes of the other messages if those that were refused are left out
* `flood_drains_relay`: messages over a connection's limit use up the allowance of the relay
-/

namespace RelayBuilder

open Interleave

/-- A message on its way through the middleware, with the times at which the two limiters read the
clock. -/
structure Arrival (τ : Type) where
  connectionId : ConnectionId
  checkedAt : τ
  keyCheckedAt : τ
  deriving DecidableEq

/-- The cells that the limiters have taken, with the times. -/
structure Cells (τ : Type) where
  perConnection : List (ConnectionId × τ)
  global : List τ
  deriving DecidableEq

/-- `RateLimitMiddleware`. A limiter is what it answers, after its cells, at a time. -/
structure RateLimitMiddleware (τ : Type) where
  perConnectionLimiter : List (ConnectionId × τ) → ConnectionId → τ → Bool
  globalLimiter : Option (List τ → τ → Bool)

namespace RateLimitMiddleware

variable {τ : Type}

/-- `check` of the global limiter. -/
def check (limiter : List τ → τ → Bool) (now : τ) (cells : Cells τ) : Bool × Cells τ :=
  if limiter cells.global now then (true, { cells with global := cells.global ++ [now] })
  else (false, cells)

/-- `check_key` of the limiter of the connections. -/
def checkKey (limiter : List (ConnectionId × τ) → ConnectionId → τ → Bool) (id : ConnectionId)
    (now : τ) (cells : Cells τ) : Bool × Cells τ :=
  if limiter cells.perConnection id now then
    (true, { cells with perConnection := cells.perConnection ++ [(id, now)] })
  else (false, cells)

/-- `process_inbound`, up to where the message is handed on. -/
def processInbound (middleware : RateLimitMiddleware τ) (arrival : Arrival τ) (cells : Cells τ) :
    Except Error Unit × Cells τ :=
  let (passed, cells) := match middleware.globalLimiter with
    | some limiter => check limiter arrival.checkedAt cells
    | none => (true, cells)
  if !passed then (.error (.restricted "global rate limit exceeded"), cells)
  else
    let (passed, cells) := checkKey middleware.perConnectionLimiter arrival.connectionId
      arrival.keyCheckedAt cells
    if !passed then (.error (.restricted "connection rate limit exceeded"), cells)
    else (.ok (), cells)

/-- The message was refused because of the limit of the relay. -/
def isGlobalRefusal : Except Error Unit → Bool
  | .error (.restricted text) => text == "global rate limit exceeded"
  | _ => false

/-- The message was refused because of the limit of its own connection. -/
def isOwnRefusal : Except Error Unit → Bool
  | .error (.restricted text) => text == "connection rate limit exceeded"
  | _ => false

/-- The middleware reads messages. A silent input takes a cell of the relay. -/
def machine (middleware : RateLimitMiddleware τ) :
    Machine (Arrival τ) τ (Cells τ) (Except Error Unit) where
  step := middleware.processInbound
  silent now cells := { cells with global := cells.global ++ [now] }

/-- The messages of a sequence, each with the decision on it. -/
def decisions (middleware : RateLimitMiddleware τ) (traffic : List (Arrival τ ⊕ τ))
    (cells : Cells τ) : List (Arrival τ × Except Error Unit) :=
  middleware.machine.outputs traffic cells

/-- The same, for a sequence of nothing but messages. -/
def log (middleware : RateLimitMiddleware τ) (arrivals : List (Arrival τ)) (cells : Cells τ) :
    List (Arrival τ × Except Error Unit) :=
  middleware.decisions (arrivals.map .inl) cells

/-- The cell that a message takes of the relay, if it is one with a limit. -/
def relayCell (middleware : RateLimitMiddleware τ) (arrival : Arrival τ) : List τ :=
  if middleware.globalLimiter.isSome then [arrival.checkedAt] else []

variable (middleware : RateLimitMiddleware τ) (arrival : Arrival τ) (cells : Cells τ)

/-- The cells after the global limiter let a message pass. -/
def afterGlobal : Cells τ :=
  { cells with global := cells.global ++ middleware.relayCell arrival }

/-- **The three decisions.** A message that the relay's limit refuses takes no cell; one that the
limit of its connection refuses takes a cell of the relay; one that passes takes one of each. -/
theorem processInbound_cases :
    (∃ limiter, middleware.globalLimiter = some limiter ∧
      limiter cells.global arrival.checkedAt = false ∧
      middleware.processInbound arrival cells =
        (.error (.restricted "global rate limit exceeded"), cells)) ∨
    ((∀ limiter, middleware.globalLimiter = some limiter →
        limiter cells.global arrival.checkedAt = true) ∧
      (middleware.perConnectionLimiter cells.perConnection arrival.connectionId
          arrival.keyCheckedAt = false ∧
        middleware.processInbound arrival cells =
          (.error (.restricted "connection rate limit exceeded"),
            middleware.afterGlobal arrival cells) ∨
      middleware.perConnectionLimiter cells.perConnection arrival.connectionId
          arrival.keyCheckedAt = true ∧
        middleware.processInbound arrival cells =
          (.ok (), { middleware.afterGlobal arrival cells with perConnection :=
            cells.perConnection ++ [(arrival.connectionId, arrival.keyCheckedAt)] }))) := by
  -- what the second limiter decides, after the first one let the message pass
  have hown (hpassed : ∀ limiter, middleware.globalLimiter = some limiter →
      limiter cells.global arrival.checkedAt = true) (passed : Bool)
      (hkey : middleware.perConnectionLimiter cells.perConnection arrival.connectionId
        arrival.keyCheckedAt = passed) :
      middleware.processInbound arrival cells = if passed = true then
        (.ok (), { middleware.afterGlobal arrival cells with perConnection :=
          cells.perConnection ++ [(arrival.connectionId, arrival.keyCheckedAt)] })
      else (.error (.restricted "connection rate limit exceeded"),
        middleware.afterGlobal arrival cells) := by
    cases hlimiter : middleware.globalLimiter with
    | none => cases passed <;>
      simp [processInbound, afterGlobal, relayCell, checkKey, hlimiter, hkey]
    | some limiter => cases passed <;>
      simp [processInbound, afterGlobal, relayCell, check, checkKey, hlimiter, hkey,
        hpassed limiter hlimiter]
  by_cases hpassed : ∀ limiter, middleware.globalLimiter = some limiter →
      limiter cells.global arrival.checkedAt = true
  · refine .inr ⟨hpassed, ?_⟩
    cases hkey : middleware.perConnectionLimiter cells.perConnection arrival.connectionId
        arrival.keyCheckedAt with
    | false => exact .inl ⟨rfl, hown hpassed false hkey⟩
    | true => exact .inr ⟨rfl, hown hpassed true hkey⟩
  · push Not at hpassed
    obtain ⟨limiter, hlimiter, hrefused⟩ := hpassed
    have hrefused : limiter cells.global arrival.checkedAt = false := by simpa using hrefused
    exact .inl ⟨limiter, hlimiter, hrefused, by simp [processInbound, check, hlimiter, hrefused]⟩

/-- The cell of the relay alone. -/
theorem silently_relayCell : middleware.machine.silently (middleware.relayCell arrival) cells =
    middleware.afterGlobal arrival cells := by
  rw [afterGlobal, relayCell]
  split
  · rfl
  · exact congrArg (Cells.mk cells.perConnection) (List.append_nil _).symm

theorem cells_of_isGlobalRefusal
    (h : isGlobalRefusal (middleware.processInbound arrival cells).1 = true) :
    (middleware.processInbound arrival cells).2 = cells := by
  obtain ⟨-, -, -, heq⟩ | ⟨-, ⟨-, heq⟩ | ⟨-, heq⟩⟩ := middleware.processInbound_cases arrival cells
  · rw [heq]
  · rw [heq] at h
    dsimp only at h
    exact absurd h (by decide)
  · rw [heq] at h
    dsimp only at h
    exact absurd h (by decide)

theorem cells_of_isOwnRefusal
    (h : isOwnRefusal (middleware.processInbound arrival cells).1 = true) :
    (middleware.processInbound arrival cells).2 = middleware.afterGlobal arrival cells := by
  obtain ⟨-, -, -, heq⟩ | ⟨-, ⟨-, heq⟩ | ⟨-, heq⟩⟩ := middleware.processInbound_cases arrival cells
  · rw [heq] at h
    dsimp only at h
    exact absurd h (by decide)
  · rw [heq]
  · rw [heq] at h
    dsimp only at h
    exact absurd h (by decide)

variable (arrivals : List (Arrival τ))

/-- **What becomes of the other messages** if those that were refused are left out. For every
sequence of messages, from any cells on: leaving out those that the limit of the relay refused
changes the decision on no other message. Of those that were refused because of the limit of their
own connection, each took a cell of the relay, if that has a limit, and this is all: with the cells
in their place, no other decision changes. -/
theorem refused_traffic :
    middleware.decisions (replaced isGlobalRefusal (fun _ => []) (middleware.log arrivals cells))
        cells = (middleware.log arrivals cells).filter (fun entry => !isGlobalRefusal entry.2) ∧
    middleware.decisions (replaced isOwnRefusal middleware.relayCell
        (middleware.log arrivals cells)) cells =
      (middleware.log arrivals cells).filter (fun entry => !isOwnRefusal entry.2) := by
  refine ⟨middleware.machine.outputs_leftOut middleware.cells_of_isGlobalRefusal arrivals cells,
    middleware.machine.outputs_replaced (fun arrival cells h => ?_) arrivals cells⟩
  refine .trans ?_ (middleware.cells_of_isOwnRefusal arrival cells h).symm
  exact middleware.silently_relayCell arrival cells

/-- Without a limit of the relay, the messages over a connection's own limit can be left out. -/
theorem own_refusals_leftOut (hnone : middleware.globalLimiter = none) :
    middleware.decisions (replaced isOwnRefusal (fun _ => []) (middleware.log arrivals cells))
        cells = (middleware.log arrivals cells).filter (fun entry => !isOwnRefusal entry.2) := by
  refine middleware.machine.outputs_leftOut (fun arrival cells h => ?_) arrivals cells
  refine (middleware.cells_of_isOwnRefusal arrival cells h).trans ?_
  rw [← middleware.silently_relayCell, relayCell, hnone]
  rfl

/-! ### Quotas -/

/-- A limiter with a quota of `burst` cells, of which one comes back every `period`: the cell after
those taken so far is due at a time that is not too far ahead. -/
def gcra (period burst : ℕ) (cells : List ℕ) (now : ℕ) : Bool :=
  decide (cells.foldl (fun due cell => max due cell + period) 0 ≤ now + (burst - 1) * period)

/-- One message a second for each connection and two for the relay, with times in milliseconds. -/
def exampleLimits : RateLimitMiddleware ℕ where
  perConnectionLimiter cells id now :=
    gcra 1000 1 ((cells.filter fun cell => cell.1 == id).map (·.2)) now
  globalLimiter := some (gcra 500 2)

/-- The second message of a connection is refused because of its own limit, and takes the last cell
of the relay: without it, the message of another connection would be admitted. -/
theorem flood_drains_relay : ¬ ∀ (middleware : RateLimitMiddleware ℕ) (arrivals : List (Arrival ℕ)),
    middleware.decisions (replaced isOwnRefusal (fun _ => []) (middleware.log arrivals ⟨[], []⟩))
        ⟨[], []⟩ =
      (middleware.log arrivals ⟨[], []⟩).filter fun entry => !isOwnRefusal entry.2 := by
  intro h
  have := h exampleLimits [⟨"alice", 0, 0⟩, ⟨"alice", 0, 0⟩, ⟨"bob", 0, 0⟩]
  revert this
  decide

end RateLimitMiddleware

end RelayBuilder
