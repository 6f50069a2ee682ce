import RelayBuilder.BatchStats
import RelayBuilder.EventIngester
import RelayBuilder.Interleave.Service

/-!
# The crypto helper

The two processors of `crypto_helper.rs`. A `CryptoHelper` has one task that verifies events and
one that signs them. The tasks that want something of it put a request into the queue of the
processor, with the sender of a oneshot channel, and wait at the receiver. A processor takes all
that is in its queue as one batch, does the work, answers request by request and counts the batch.
The statistics of all processors of a kind are the same.

There may be any number of helpers, and any number of tasks that use them at the same time.

## Main definitions

* `CryptoHelper.verifyEvent`, `CryptoHelper.signAndAwait`: what a task does that wants something
* `CryptoHelper.runProcessor`

## Main results

* `cryptoHelper_answers`: each is answered with what becomes of its own event
-/

namespace RelayBuilder

open Interleave

/-- The kinds of processors. -/
inductive CryptoTask where
  | verification
  | signing
  deriving DecidableEq

/-- A processor, by the number of its helper. -/
abbrev ProcessorId := ℕ × CryptoTask

/-- What is put into a queue. The sender of the response is the slot of the request. -/
inductive CryptoRequest where
  | verify (event : SignedEvent)
  | sign (command : StoreCommand)
  deriving DecidableEq

/-- What a processor sends back. A verification that succeeds returns nothing. -/
abbrev CryptoAnswer := Except Error (Option StoreCommand)

/-- The counters of the processors, and the statistics of each kind of processor. -/
structure CryptoCounters where
  processed : ProcessorId → ℕ
  stats : CryptoTask → BatchStats

/-- What the helpers share. -/
abbrev CryptoState := Service ProcessorId CryptoRequest CryptoAnswer CryptoCounters

/-- What is accessed besides queues and slots. -/
inductive CounterCell where
  | processed (id : ProcessorId)
  | stats (task : CryptoTask) (cell : StatsCell)

abbrev CryptoLock := ServiceLock ProcessorId CounterCell

/-- What the helper uses of `nostr-sdk`. -/
structure CryptoSdk where
  /-- `Event::verify`. -/
  verify : SignedEvent → Except String Unit
  /-- `Keys::sign_event`. -/
  signEvent : UnsignedEvent → Except String Event

/-- The name in the log. -/
def CryptoTask.name : CryptoTask → String
  | .verification => "verification"
  | .signing => "signing"

namespace CryptoHelper

/-- The capacity of the queues. -/
def queueCapacity : ℕ := 10000

/-- What becomes of an event that is to be verified. -/
def verified (sdk : CryptoSdk) (event : SignedEvent) : Except Error Unit :=
  match sdk.verify event with
  | .ok () => .ok ()
  | .error e => .error (.protocol ("Invalid event signature: " ++ e))

/-- What a processor answers to a request, if anything. -/
def answer (sdk : CryptoSdk) : CryptoRequest → Option CryptoAnswer
  | .verify event => some ((verified sdk event).map fun _ => none)
  | .sign command => signedResponse sdk.signEvent command

/-- What a processor does after a batch: count it. `tries` stands for the spurious failures that
the loop around the maximum meets. -/
def countBatch (tries : ℕ → List Bool) (id : ProcessorId) (batchSize : ℕ) :
    Prog CounterCell CryptoCounters PUnit := do
  .atomic (.processed id) fun s => (PUnit.unit,
    { s with processed := fun id' =>
        if id' = id then fetchAdd (s.processed id') batchSize else s.processed id' })
  let total ← .atomic (.processed id) fun s => (s.processed id, s)
  let _ ← (BatchStats.recordBatch batchSize total id.2.name (tries batchSize)).zoom
    (.stats id.2) (·.stats id.2) fun stats s =>
      { s with stats := fun task => if task = id.2 then stats else s.stats task }
  pure ⟨⟩

/-- `run_verify_processor` and `run_sign_processor`, for a number of batches. -/
def runProcessor (sdk : CryptoSdk) (tries : ℕ → List Bool) (id : ProcessorId) (limits : List ℕ) :
    Prog CryptoLock CryptoState PUnit :=
  Service.serve (answer sdk) (countBatch tries) id limits

/-- What `verify_event` makes of what the receiver of its response yields. -/
def verifyResponse : Option CryptoAnswer → Except Error Unit
  | none => .error (.internal "Verification processor dropped response")
  | some result => result.map fun _ => ()

/-- `verify_event`. -/
def verifyEvent (helper : ℕ) (event : SignedEvent) :
    Prog CryptoLock CryptoState (Except Error Unit) := do
  let response ← Service.ask queueCapacity (helper, .verification) (.verify event)
  pure (verifyResponse response)

/-- `sign_store_command` with a command that has a response handler, and the wait for the response
where it succeeds. -/
def signAndAwait (helper : ℕ) (command : StoreCommand) :
    Prog CryptoLock CryptoState (Except Error (Option CryptoAnswer)) :=
  match command with
  | .saveUnsignedEvent .. => do
    let response ← Service.ask queueCapacity (helper, .signing) (.sign command)
    pure (.ok response)
  | _ => pure (.error (.internal "Expected SaveUnsignedEvent command"))

end CryptoHelper

/-- What tasks do with the helpers, and what the processors do. -/
inductive CryptoOp where
  | verifyEvent (helper : ℕ) (event : SignedEvent)
  | signStoreCommand (helper : ℕ) (command : StoreCommand)
  | processor (id : ProcessorId) (limits : List ℕ)

/-- What is returned. -/
inductive CryptoResult where
  | verified (result : Except Error Unit)
  | signed (result : Except Error (Option CryptoAnswer))
  | stopped
  deriving DecidableEq

def CryptoOp.code (sdk : CryptoSdk) (tries : ℕ → List Bool) :
    CryptoOp → Prog CryptoLock CryptoState CryptoResult
  | .verifyEvent helper event => do
    let result ← CryptoHelper.verifyEvent helper event
    pure (.verified result)
  | .signStoreCommand helper command => do
    let result ← CryptoHelper.signAndAwait helper command
    pure (.signed result)
  | .processor id limits => do
    CryptoHelper.runProcessor sdk tries id limits
    pure .stopped

/-- Which side of which queue a task is on. -/
def CryptoOp.role : CryptoOp → Service.Role ProcessorId
  | .verifyEvent helper _ => .caller (helper, .verification)
  | .signStoreCommand helper _ => .caller (helper, .signing)
  | .processor id _ => .worker id

/-- The result that is due: the event of a verification is verified, and the command of a signing
is answered as `run_sign_processor` answers it, or refused if there is nothing to sign. -/
def CryptoOp.Due (sdk : CryptoSdk) : CryptoOp → CryptoResult → Prop
  | .verifyEvent _ event, r => r = .verified (CryptoHelper.verified sdk event)
  | .signStoreCommand _ command, r =>
    r = .signed (match CryptoHelper.signedResponse sdk.signEvent command with
      | some answer => .ok (some answer)
      | none => .error (.internal "Expected SaveUnsignedEvent command"))
  | .processor _ _, _ => True

/-! ### The calls -/

namespace CryptoHelper

theorem neverWaits_raiseMax (batchSize : ℕ) (tries : List Bool) (current : ℕ) :
    (BatchStats.raiseMax batchSize tries current).NeverWaits := by
  induction tries generalizing current with
  | nil =>
    rw [BatchStats.raiseMax]
    split <;> trivial
  | cons spurious tries ih =>
    rw [BatchStats.raiseMax]
    split
    · refine Prog.NeverWaits.bind (Prog.neverWaits_atomic _ _) fun r => ?_
      rcases r with x | _
      · exact ih x
      · trivial
    · trivial

theorem neverWaits_recordBatch (batchSize totalProcessed : ℕ) (operationName : String)
    (tries : List Bool) :
    (BatchStats.recordBatch batchSize totalProcessed operationName tries).NeverWaits := by
  refine Prog.NeverWaits.bind (Prog.neverWaits_atomic _ _) fun batchNum => ?_
  refine Prog.NeverWaits.bind (Prog.neverWaits_atomic _ _) fun _ => ?_
  refine Prog.NeverWaits.bind (Prog.neverWaits_atomic _ _) fun current => ?_
  refine Prog.NeverWaits.bind (neverWaits_raiseMax _ _ _) fun updated => ?_
  split
  · refine Prog.NeverWaits.bind (Prog.neverWaits_atomic _ _) fun sum => ?_
    exact Prog.NeverWaits.bind (Prog.neverWaits_atomic _ _) fun max => trivial
  · trivial

theorem neverWaits_countBatch (tries : ℕ → List Bool) (id : ProcessorId) (batchSize : ℕ) :
    (countBatch tries id batchSize).NeverWaits := by
  refine Prog.NeverWaits.bind (Prog.neverWaits_atomic _ _) fun _ => ?_
  refine Prog.NeverWaits.bind (Prog.neverWaits_atomic _ _) fun total => ?_
  exact Prog.NeverWaits.bind ((neverWaits_recordBatch _ _ _ _).zoom _ _ _) fun _ => trivial

end CryptoHelper

/-- Every call does what its side of the service asks for. -/
theorem CryptoOp.safe_code (sdk : CryptoSdk) (tries : ℕ → List Bool) (j : ℕ) (op : CryptoOp)
    (s : CryptoState) :
    (Service.protocol (CryptoHelper.answer sdk)).Safe j
      (Service.Fits CryptoHelper.queueCapacity op.role (op.Due sdk)) (op.code sdk tries)
      op.role.start s := by
  cases op with
  | verifyEvent helper event =>
    have hcode : (CryptoOp.verifyEvent helper event).code sdk tries =
        (Service.ask CryptoHelper.queueCapacity (helper, .verification) (.verify event)).bind
          fun response => .done (.verified (CryptoHelper.verifyResponse response)) :=
      Prog.bind_assoc _ _ _
    have hdue : CryptoHelper.verifyResponse (CryptoHelper.answer sdk (.verify event)) =
        CryptoHelper.verified sdk event := by
      rw [CryptoHelper.answer, CryptoHelper.verifyResponse]
      cases CryptoHelper.verified sdk event <;> rfl
    rw [hcode]
    refine Service.safe_ask _ _ ?_ s
    exact congrArg CryptoResult.verified hdue
  | signStoreCommand helper command =>
    cases command with
    | saveUnsignedEvent event scope handler =>
      have hcode : (CryptoOp.signStoreCommand helper
          (.saveUnsignedEvent event scope handler)).code sdk tries =
          (Service.ask CryptoHelper.queueCapacity (helper, .signing)
            (.sign (.saveUnsignedEvent event scope handler))).bind
              fun response => .done (.signed (.ok response)) :=
        Prog.bind_assoc _ _ _
      rw [hcode]
      refine Service.safe_ask _ _ ?_ s
      rfl
    | saveSignedEvent | deleteEvents =>
      refine Service.safe_done ?_ ?_ s
      · rfl
      · intro i batch h
        cases h
  | processor id limits =>
    exact Service.safe_serve (CryptoHelper.neverWaits_countBatch tries) limits trivial s

/-- **The helpers answer everybody.** In every interleaving of any number of tasks with any number
of helpers, a verification returns the verdict on its own event and a signing the response to its
own command. And as long as a processor is not stopped, the tasks that use it come to their end,
if no further ones begin: no request is lost, whatever else is in its batch. -/
theorem cryptoHelper_answers (sdk : CryptoSdk) (tries : ℕ → List Bool) (counters : CryptoCounters)
    {c : Config CryptoOp CryptoLock CryptoState CryptoResult}
    (hrun : Run (fun _ => CryptoOp.code sdk tries) anyMove
      (Config.initial (Service.new counters)) c) :
    (∀ j op r, c.Returned j op r → op.Due sdk r) ∧
      c.Inevitably (fun _ => CryptoOp.code sdk tries) (Service.Answered CryptoOp.role) :=
  Service.run (by decide) (fun j op s => op.safe_code sdk tries j s) hrun

/-- A library that accepts the signature zero only, and signs nothing. -/
def CryptoSdk.sample : CryptoSdk where
  verify event := if event.sig = 0 then .ok () else .error "signature is invalid"
  signEvent _ := .error "no keys"

/-- A good event and a bad one in a batch. -/
theorem cryptoHelper_answers_batch : ∃ c,
    (Config.initial (Service.new ⟨fun _ => 0, fun _ => .new⟩)).play
      (fun _ => CryptoOp.code .sample fun n => List.replicate n false) anyMove
      ([.start (.verifyEvent 0 ⟨Event.note 1, 0⟩), .start (.verifyEvent 0 ⟨Event.note 2, 1⟩),
        .start (.processor (0, .verification) [5]), .step 0, .step 1] ++
        List.replicate 11 (.step 2) ++ [.step 1, .step 0]) = some c ∧
      c.calls.map (·.result?.isSome) = [true, true, true] ∧
      (∀ r, c.Returned 0 (.verifyEvent 0 ⟨Event.note 1, 0⟩) r → r = .verified (.ok ())) ∧
      ∀ r, c.Returned 1 (.verifyEvent 0 ⟨Event.note 2, 1⟩) r → r =
        .verified (.error (.protocol ("Invalid event signature: " ++ "signature is invalid"))) := by
  obtain ⟨c, hplay, hended⟩ := Option.map_eq_some_iff.mp (show
    ((Config.initial (Service.new ⟨fun _ => 0, fun _ => .new⟩)).play
      (fun _ => CryptoOp.code .sample fun n => List.replicate n false) anyMove
      ([.start (.verifyEvent 0 ⟨Event.note 1, 0⟩), .start (.verifyEvent 0 ⟨Event.note 2, 1⟩),
        .start (.processor (0, .verification) [5]), .step 0, .step 1] ++
        List.replicate 11 (.step 2) ++ [.step 1, .step 0])).map
          (fun c => c.calls.map (·.result?.isSome)) = some [true, true, true] by decide +kernel)
  have hdue := (cryptoHelper_answers _ _ _ (Config.run_of_play hplay)).1
  have hgood : CryptoHelper.verified .sample ⟨Event.note 1, 0⟩ = .ok () := by
    simp only [CryptoHelper.verified, CryptoSdk.sample, if_true]
  have hsig : (1 : BitVec 512) ≠ 0 := by decide +kernel
  have hbad : CryptoHelper.verified .sample ⟨Event.note 2, 1⟩ =
      .error (.protocol ("Invalid event signature: " ++ "signature is invalid")) := by
    simp only [CryptoHelper.verified, CryptoSdk.sample, if_neg hsig]
  refine ⟨c, hplay, hended, fun r hr => ?_, fun r hr => ?_⟩
  · exact (hdue 0 _ r hr).trans (congrArg CryptoResult.verified hgood)
  · exact (hdue 1 _ r hr).trans (congrArg CryptoResult.verified hbad)

end RelayBuilder
