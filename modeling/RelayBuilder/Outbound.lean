import RelayBuilder.RelayCalls

/-!
# The outbound task

What `nostr_handler.rs` does with the messages of a connection's channel. The outbound task takes
them in batches, hands each of them to the outbound chain of `middleware_chain.rs`, which may
change or drop it, and writes what is left to the socket. A text that came with a message is
written instead of serializing the message again, unless an event was replaced by another one.

The middlewares are any scripts, with questions of their own.

## Main definitions

* `OutboundMiddleware`, `processOutboundChain`
* `outboundTask`

## Main results

* `runs_outboundTask`: what the task writes, message by message
* `writesFaithfully_iff`: when this is the serialization of what the chain made of the messages
-/

namespace RelayBuilder

open Interleave Script

variable {Q : Type} {A : Q → Type}

/-- `process_outbound` of a middleware, on a message that may have been dropped before. -/
abbrev OutboundMiddleware (Q : Type) (A : Q → Type) :=
  Option RelayMessage → Script Q A (Except Failure (Option RelayMessage))

/-- `process_outbound_chain`. The outermost middleware stands first. A message passes the
middlewares from the inside to the outside, but only those from its own position on. -/
def processOutboundChain (fromPosition : ℕ) :
    List (OutboundMiddleware Q A) → OutboundMiddleware Q A
  | [], message => pure (.ok message)
  | middleware :: inner, message =>
    if fromPosition ≤ inner.length then
      (processOutboundChain fromPosition inner message).andThen middleware
    else processOutboundChain fromPosition inner message

/-- What the outbound task asks itself. -/
inductive OutboundCall where
  /-- Wait for the messages that are ready. There are none when the channel is closed or the task
  is cancelled. -/
  | receive
  | write (text : String)
  | close

abbrev OutboundCall.Answer : OutboundCall → Type
  | receive => Option (List Packet)
  | write _ => Except String Unit
  | close => Except String Unit

/-- The outbound task, in a chain whose middlewares ask the questions of `Q`. -/
abbrev OutboundScript (Q : Type) (A : Q → Type) :=
  Script (Q ⊕ OutboundCall) (Sum.elim A OutboundCall.Answer)

def OutboundScript.receive : OutboundScript Q A (Option (List Packet)) :=
  Script.request (Sum.inr OutboundCall.receive)

def OutboundScript.write (text : String) : OutboundScript Q A (Except String Unit) :=
  Script.request (Sum.inr (OutboundCall.write text))

def OutboundScript.close : OutboundScript Q A (Except String Unit) :=
  Script.request (Sum.inr OutboundCall.close)

abbrev OutboundHistory (Q : Type) (A : Q → Type) := History (Sum.elim A OutboundCall.Answer)

/-- The text to write instead of serializing the message: none, if an event was replaced. -/
def jsonToUse (original message : RelayMessage) (preJson : Option String) : Option String :=
  match original, message with
  | .event _ event, .event _ event' => if event.id = event'.id then preJson else none
  | _, _ => preJson

/-- The body of the loop over a batch. -/
def processPacket (chain : List (OutboundMiddleware Q A)) (packet : Packet) :
    Script Q A (Option (RelayMessage × Option String)) := do
  match ← processOutboundChain packet.position chain (some packet.message) with
  | .error _ => pure none
  | .ok none => pure none
  | .ok (some message) =>
    pure (some (message, jsonToUse packet.message message packet.json))

/-- The loop over a batch. -/
def processBatch (chain : List (OutboundMiddleware Q A)) :
    List Packet → Script Q A (List (RelayMessage × Option String))
  | [] => pure []
  | packet :: batch => do
    let processed ← processPacket chain packet
    let rest ← processBatch chain batch
    pure (processed.toList ++ rest)

/-- Write the messages of a batch. When the socket fails, it is closed, and the task ends. -/
def writeAll (asJson : RelayMessage → String) :
    List (RelayMessage × Option String) → OutboundScript Q A Bool
  | [] => pure true
  | (message, json) :: rest => do
    match ← OutboundScript.write (json.getD (asJson message)) with
    | .ok () => writeAll asJson rest
    | .error _ => do
      let _ ← OutboundScript.close
      pure false

/-- The outbound task, as long as it goes through its loop at most so often. -/
def outboundTask (asJson : RelayMessage → String) (chain : List (OutboundMiddleware Q A)) :
    ℕ → OutboundScript Q A Unit
  | 0 => pure ()
  | n + 1 => do
    match ← OutboundScript.receive with
    | none => do
      let _ ← OutboundScript.close
      pure ()
    | some batch => do
      let processed ← (processBatch chain batch).left
      if ← writeAll asJson processed then outboundTask asJson chain n else pure ()

/-! ### Histories of the task -/

/-- An answered question of the outbound task. -/
abbrev OutboundAsked (Q : Type) (A : Q → Type) :=
  (call : Q ⊕ OutboundCall) × Sum.elim A OutboundCall.Answer call

/-- The messages that came with a batch. -/
def OutboundAsked.taken : OutboundAsked Q A → List Packet
  | ⟨.inr .receive, some batch⟩ => batch
  | _ => []

/-- The text that the socket took. -/
def OutboundAsked.written? : OutboundAsked Q A → Option String
  | ⟨.inr (.write text), .ok _⟩ => some text
  | _ => none

/-- What a middleware asked. -/
def OutboundAsked.chain? : OutboundAsked Q A → Option ((q : Q) × A q)
  | ⟨.inl q, r⟩ => some ⟨q, r⟩
  | _ => none

/-- The socket did not take a text. -/
def OutboundAsked.WriteFailed : OutboundAsked Q A → Prop
  | ⟨.inr (.write _), .error _⟩ => True
  | _ => False

/-- The messages that the task took from the channel, in their order. -/
def taken (t : OutboundHistory Q A) : List Packet := t.flatMap OutboundAsked.taken

/-- The texts that were written to the socket, in their order. -/
def written (t : OutboundHistory Q A) : List String := t.filterMap OutboundAsked.written?

/-- What the middlewares asked. -/
def chainHistory (t : OutboundHistory Q A) : History A := t.filterMap OutboundAsked.chain?

def WriteFailed (t : OutboundHistory Q A) : Prop := ∃ asked ∈ t, OutboundAsked.WriteFailed asked

variable {t t' : OutboundHistory Q A} {asJson : RelayMessage → String}
  {chain : List (OutboundMiddleware Q A)}

@[simp] theorem taken_append : taken (t ++ t') = taken t ++ taken t' := List.flatMap_append

theorem taken_cons (asked : OutboundAsked Q A) :
    taken (asked :: t) = asked.taken ++ taken t := rfl

theorem written_cons (asked : OutboundAsked Q A) :
    written (asked :: t) = asked.written?.toList ++ written t := by
  rw [written, List.filterMap_cons]
  cases asked.written? <;> rfl

theorem chainHistory_cons (asked : OutboundAsked Q A) :
    chainHistory (asked :: t) = asked.chain?.toList ++ chainHistory t := by
  rw [chainHistory, List.filterMap_cons]
  cases asked.chain? <;> rfl

theorem writeFailed_cons (asked : OutboundAsked Q A) :
    WriteFailed (asked :: t) ↔ asked.WriteFailed ∨ WriteFailed t := by
  simp [WriteFailed]

@[simp] theorem written_append : written (t ++ t') = written t ++ written t' :=
  List.filterMap_append

@[simp] theorem chainHistory_append :
    chainHistory (t ++ t') = chainHistory t ++ chainHistory t' :=
  List.filterMap_append

@[simp] theorem writeFailed_append : WriteFailed (t ++ t') ↔ WriteFailed t ∨ WriteFailed t' := by
  simp [WriteFailed, or_and_right, exists_or]

@[simp] theorem taken_left (t : History A) :
    taken (t.map leftAsked : OutboundHistory Q A) = [] := by
  induction t with
  | nil => rfl
  | cons asked t ih => exact ih

@[simp] theorem written_left (t : History A) :
    written (t.map leftAsked : OutboundHistory Q A) = [] := by
  induction t with
  | nil => rfl
  | cons asked t ih => exact ih

@[simp] theorem chainHistory_left (t : History A) :
    chainHistory (t.map leftAsked : OutboundHistory Q A) = t := by
  induction t with
  | nil => rfl
  | cons asked t ih => exact congrArg (asked :: ·) ih

@[simp] theorem not_writeFailed_left (t : History A) :
    ¬ WriteFailed (t.map leftAsked : OutboundHistory Q A) := by
  rintro ⟨asked, hasked, hfailed⟩
  obtain ⟨asked', -, rfl⟩ := List.mem_map.mp hasked
  exact hfailed

/-! ### The passes of the messages -/

/-- One message on its way through the chain. -/
structure Pass (Q : Type) (A : Q → Type) where
  packet : Packet
  history : History A
  result : Except Failure (Option RelayMessage)

namespace Pass

/-- The message as it is after the chain: none, if it was dropped or the chain failed. -/
def after (pass : Pass Q A) : Option RelayMessage :=
  match pass.result with
  | .ok message => message
  | .error _ => none

/-- What is put aside to be written. -/
def processed (pass : Pass Q A) : Option (RelayMessage × Option String) :=
  pass.after.map fun message => (message, jsonToUse pass.packet.message message pass.packet.json)

/-- The text for the socket. -/
def text (asJson : RelayMessage → String) (pass : Pass Q A) : Option String :=
  pass.processed.map fun processed => processed.2.getD (asJson processed.1)

/-- The pass is one through the chain. -/
def Through (chain : List (OutboundMiddleware Q A)) (pass : Pass Q A) : Prop :=
  Runs (processOutboundChain pass.packet.position chain (some pass.packet.message))
    pass.history pass.result

end Pass

/-- The passes of the messages that were taken, in their order. -/
structure Passes (chain : List (OutboundMiddleware Q A)) (t : OutboundHistory Q A)
    (passes : List (Pass Q A)) : Prop where
  through : ∀ pass ∈ passes, pass.Through chain
  packets : passes.map Pass.packet = taken t
  histories : passes.flatMap Pass.history = chainHistory t

theorem runs_processPacket {packet : Packet} {t : History A}
    {processed : Option (RelayMessage × Option String)}
    (h : Runs (processPacket chain packet) t processed) :
    ∃ pass : Pass Q A, pass.packet = packet ∧ pass.history = t ∧ pass.Through chain ∧
      pass.processed = processed := by
  obtain ⟨t₁, result, t₂, rfl, h₁, h₂⟩ := runs_bind.mp h
  refine ⟨⟨packet, t₁, result⟩, rfl, ?_⟩
  match result with
  | .error e | .ok none | .ok (some message) =>
    obtain ⟨rfl, rfl⟩ := runs_done.mp h₂
    exact ⟨(List.append_nil _).symm, h₁, rfl⟩

theorem runs_processBatch {batch : List Packet} {t : History A}
    {processed : List (RelayMessage × Option String)}
    (h : Runs (processBatch chain batch) t processed) :
    ∃ passes : List (Pass Q A), (∀ pass ∈ passes, pass.Through chain) ∧
      passes.map Pass.packet = batch ∧ passes.flatMap Pass.history = t ∧
      passes.filterMap Pass.processed = processed := by
  induction batch generalizing t processed with
  | nil =>
    obtain ⟨rfl, rfl⟩ := runs_done.mp h
    exact ⟨[], fun _ h => (nomatch h), rfl, rfl, rfl⟩
  | cons packet batch ih =>
    obtain ⟨t₁, first, _, rfl, h₁, h⟩ := runs_bind.mp h
    obtain ⟨t₂, rest, _, rfl, h₂, h⟩ := runs_bind.mp h
    obtain ⟨rfl, rfl⟩ := runs_done.mp h
    obtain ⟨pass, rfl, rfl, hpass, rfl⟩ := runs_processPacket h₁
    obtain ⟨passes, hpasses, rfl, rfl, rfl⟩ := ih h₂
    refine ⟨pass :: passes, List.forall_mem_cons.mpr ⟨hpass, hpasses⟩, rfl, ?_, ?_⟩
    · rw [List.append_nil, List.flatMap_cons]
    · rw [List.filterMap_cons]
      cases pass.processed <;> rfl

/-- What happens when a batch is written: everything up to a failure. -/
theorem runs_writeAll {batch : List (RelayMessage × Option String)} {ok : Bool}
    (h : Runs (writeAll asJson batch : OutboundScript Q A Bool) t ok) :
    taken t = [] ∧ chainHistory t = [] ∧ (ok = false ↔ WriteFailed t) ∧
      written t <+: batch.map (fun processed => processed.2.getD (asJson processed.1)) ∧
      (ok = true → written t = batch.map fun processed => processed.2.getD (asJson processed.1)) := by
  induction batch generalizing t with
  | nil =>
    obtain ⟨rfl, rfl⟩ := runs_done.mp h
    exact ⟨rfl, rfl, by simp [WriteFailed], List.prefix_rfl, fun _ => rfl⟩
  | cons processed batch ih =>
    obtain ⟨message, json⟩ := processed
    obtain ⟨r, t', rfl, h'⟩ := runs_request_bind.mp h
    match r with
    | .ok _ =>
      obtain ⟨htaken, hchain, hfailed, hprefix, hall⟩ := ih h'
      refine ⟨htaken, hchain, hfailed.trans ?_, ?_, fun hok => ?_⟩
      · simp [WriteFailed, OutboundAsked.WriteFailed]
      · exact (List.prefix_cons_inj _).mpr hprefix
      · exact congrArg (json.getD (asJson message) :: ·) (hall hok)
    | .error e =>
      obtain ⟨closed, _, rfl, h''⟩ := runs_request_bind.mp h'
      obtain ⟨rfl, rfl⟩ := runs_done.mp h''
      refine ⟨rfl, rfl, iff_of_true rfl ⟨_, List.mem_cons_self .., trivial⟩, ?_, fun h => nomatch h⟩
      exact List.nil_prefix

theorem map_text_filterMap (passes : List (Pass Q A)) :
    (passes.filterMap Pass.processed).map (fun processed => processed.2.getD (asJson processed.1)) =
      passes.filterMap (Pass.text asJson) := by
  rw [List.map_filterMap]
  rfl

/-- **What the task writes.** The messages pass the chain in the order of the queue, and what they
leave is written in that order, up to the first failure of the socket. -/
theorem runs_outboundTask {n : ℕ} {u : Unit}
    (h : Runs (outboundTask asJson chain n : OutboundScript Q A Unit) t u) :
    ∃ passes, Passes chain t passes ∧ written t <+: passes.filterMap (Pass.text asJson) ∧
      (¬ WriteFailed t → written t = passes.filterMap (Pass.text asJson)) := by
  induction n generalizing t with
  | zero =>
    obtain ⟨rfl, -⟩ := runs_done.mp h
    exact ⟨[], ⟨fun _ h => (nomatch h), rfl, rfl⟩, List.prefix_rfl, fun _ => rfl⟩
  | succ n ih =>
    obtain ⟨batch, t', rfl, h'⟩ := runs_request_bind.mp h
    match batch with
    | none =>
      obtain ⟨closed, _, rfl, h''⟩ := runs_request_bind.mp h'
      obtain ⟨rfl, -⟩ := runs_done.mp h''
      exact ⟨[], ⟨fun _ h => (nomatch h), rfl, rfl⟩, List.prefix_rfl, fun _ => rfl⟩
    | some batch =>
      obtain ⟨tl, processed, _, rfl, hl, h₁⟩ := runs_bind.mp h'
      obtain ⟨t₀, rfl, h₀⟩ := runs_left.mp hl
      obtain ⟨tw, ok, t₂, rfl, hw, h₂⟩ := runs_bind.mp h₁
      obtain ⟨passes, hthrough, rfl, rfl, rfl⟩ := runs_processBatch h₀
      obtain ⟨htaken, hchain, hfailed, hprefix, hall⟩ := runs_writeAll hw
      rw [map_text_filterMap] at hprefix hall
      cases ok with
      | false =>
        obtain ⟨rfl, -⟩ := runs_done.mp h₂
        refine ⟨passes, ⟨hthrough, ?_, ?_⟩, ?_, fun hno => absurd ?_ hno⟩
        · simp [taken_cons, OutboundAsked.taken, htaken]
        · simp [chainHistory_cons, OutboundAsked.chain?, hchain]
        · simpa [written_cons, OutboundAsked.written?] using hprefix
        · have := hfailed.mp rfl
          simp [writeFailed_cons, this]
      | true =>
        have hwritten := hall rfl
        have hno := mt hfailed.mpr Bool.noConfusion
        obtain ⟨passes', hpasses', hprefix', hall'⟩ := ih h₂
        refine ⟨passes ++ passes', ⟨?_, ?_, ?_⟩, ?_, fun hno' => ?_⟩
        · exact fun pass hpass => (List.mem_append.mp hpass).elim (hthrough pass)
            (hpasses'.through pass)
        · simp [taken_cons, OutboundAsked.taken, htaken, hpasses'.packets]
        · simp [chainHistory_cons, OutboundAsked.chain?, hchain, hpasses'.histories]
        · simpa [written_cons, OutboundAsked.written?, hwritten] using hprefix'
        · have := hall' fun h => hno' (by simp [writeFailed_cons, h])
          simp [written_cons, OutboundAsked.written?, hwritten, this]

/-! ### What precedes a write -/

/-- Where an element of a concatenation stands. -/
theorem append_eq_append_cons {α : Type} {a b t₁ t₂ : List α} {x : α}
    (h : a ++ b = t₁ ++ x :: t₂) :
    (∃ t₂', a = t₁ ++ x :: t₂') ∨ ∃ t₁', t₁ = a ++ t₁' ∧ b = t₁' ++ x :: t₂ := by
  obtain ⟨m, rfl, hm⟩ | ⟨m, rfl, hm⟩ := List.append_eq_append_iff.mp h
  · exact .inr ⟨m, rfl, hm⟩
  · cases m with
    | nil => exact .inr ⟨[], by simp, hm.symm⟩
    | cons y m =>
      injection hm with hy _
      subst hy
      exact .inl ⟨m, rfl⟩

theorem write_not_mem_left {t : History A} {text : String} {r : Except String Unit}
    (h : (⟨.inr (.write text), r⟩ : OutboundAsked Q A) ∈ t.map leftAsked) : False := by
  obtain ⟨asked, -, heq⟩ := List.mem_map.mp h
  cases heq

/-- Every text that is written belongs to a message of the batch. -/
theorem runs_writeAll_mem {batch : List (RelayMessage × Option String)} {ok : Bool}
    (h : Runs (writeAll asJson batch : OutboundScript Q A Bool) t ok) {text : String}
    {r : Except String Unit} (hmem : (⟨.inr (.write text), r⟩ : OutboundAsked Q A) ∈ t) :
    ∃ processed ∈ batch, text = processed.2.getD (asJson processed.1) := by
  induction batch generalizing t with
  | nil =>
    obtain ⟨rfl, -⟩ := runs_done.mp h
    cases hmem
  | cons processed batch ih =>
    obtain ⟨message, json⟩ := processed
    obtain ⟨r', t', rfl, h'⟩ := runs_request_bind.mp h
    obtain heq | hmem' := List.mem_cons.mp hmem
    · cases heq
      exact ⟨_, List.mem_cons_self .., rfl⟩
    · match r' with
      | .ok _ =>
        obtain ⟨processed, hp, htext⟩ := ih h' hmem'
        exact ⟨processed, List.mem_cons_of_mem _ hp, htext⟩
      | .error e =>
        obtain ⟨closed, _, rfl, h''⟩ := runs_request_bind.mp h'
        obtain ⟨rfl, -⟩ := runs_done.mp h''
        cases List.mem_singleton.mp hmem'

/-- A pass of a message that was taken, all before the end of the history. -/
def PassBefore (chain : List (OutboundMiddleware Q A)) (t : OutboundHistory Q A)
    (pass : Pass Q A) : Prop :=
  ∃ u₁ u₂, t = u₁ ++ (pass.history.map leftAsked ++ u₂) ∧ pass.Through chain ∧
    pass.packet ∈ taken u₁

theorem PassBefore.append {pass : Pass Q A} (h : PassBefore chain t pass)
    (t₀ t₁ : OutboundHistory Q A) : PassBefore chain (t₀ ++ (t ++ t₁)) pass := by
  obtain ⟨u₁, u₂, rfl, hthrough, htaken⟩ := h
  refine ⟨t₀ ++ u₁, u₂ ++ t₁, by simp only [List.append_assoc], hthrough, ?_⟩
  rw [taken_append]
  exact List.mem_append_right _ htaken

/-- **What precedes a write.** Whatever the task writes is the text of a message that it has taken
before, after a pass through the chain. -/
theorem runs_outboundTask_write {n : ℕ} {u : Unit}
    (h : Runs (outboundTask asJson chain n : OutboundScript Q A Unit) t u) {text : String}
    {r : Except String Unit} {t₁ t₂ : OutboundHistory Q A}
    (ht : t = t₁ ++ ⟨.inr (.write text), r⟩ :: t₂) :
    ∃ pass, PassBefore chain t₁ pass ∧ pass.text asJson = some text := by
  induction n generalizing t t₁ with
  | zero =>
    obtain ⟨rfl, -⟩ := runs_done.mp h
    cases t₁ <;> cases ht
  | succ n ih =>
    obtain ⟨batch, t', rfl, h'⟩ := runs_request_bind.mp h
    cases t₁ with
    | nil => cases ht
    | cons first t₁ =>
      injection ht with hfirst ht
      subst hfirst
      match batch with
      | none =>
        obtain ⟨closed, _, rfl, h''⟩ := runs_request_bind.mp h'
        obtain ⟨rfl, -⟩ := runs_done.mp h''
        cases t₁ with
        | nil => cases ht
        | cons _ t₁ => injection ht with _ ht; cases t₁ <;> cases ht
      | some batch =>
        obtain ⟨tl, processed, _, rfl, hl, h₁⟩ := runs_bind.mp h'
        obtain ⟨t₀, rfl, h₀⟩ := runs_left.mp hl
        obtain ⟨tw, ok, t₃, rfl, hw, h₂⟩ := runs_bind.mp h₁
        obtain ⟨passes, hthrough, rfl, rfl, rfl⟩ := runs_processBatch h₀
        obtain ⟨t₂', hmem⟩ | ⟨t₁', rfl, ht'⟩ := append_eq_append_cons ht
        · exact (write_not_mem_left (hmem ▸ List.mem_append_right _ (List.mem_cons_self ..))).elim
        obtain ⟨t₂', htw⟩ | ⟨t₁'', rfl, ht₃⟩ := append_eq_append_cons ht'
        · -- The text is one of this batch.
          obtain ⟨processed, hprocessed, rfl⟩ := runs_writeAll_mem hw
            (htw ▸ List.mem_append_right _ (List.mem_cons_self ..))
          obtain ⟨pass, hpass, hsome⟩ := List.mem_filterMap.mp hprocessed
          obtain ⟨before, after, rfl⟩ := List.append_of_mem hpass
          refine ⟨pass, ⟨⟨.inr .receive, some ((before ++ pass :: after).map Pass.packet)⟩ ::
            (before.flatMap Pass.history).map leftAsked,
            (after.flatMap Pass.history).map leftAsked ++ t₁', ?_, hthrough pass hpass, ?_⟩, ?_⟩
          · rw [List.flatMap_append, List.flatMap_cons, List.cons_append]
            simp only [List.map_append (f := leftAsked), List.append_assoc]
          · rw [taken_cons]
            exact List.mem_append_left _ (List.mem_map_of_mem hpass)
          · rw [Pass.text, hsome]
            rfl
        · -- The text is one of a later batch.
          cases ok with
          | false =>
            obtain ⟨rfl, -⟩ := runs_done.mp h₂
            cases t₁'' <;> cases ht₃
          | true =>
            obtain ⟨pass, hpass, htext⟩ := ih h₂ ht₃
            refine ⟨pass, ?_, htext⟩
            have := hpass.append (⟨.inr .receive, some (passes.map Pass.packet)⟩ ::
              ((passes.flatMap Pass.history).map leftAsked ++ tw)) []
            simpa only [List.append_nil, List.cons_append, List.append_assoc] using this

/-! ### The texts and the messages -/

/-- A text that comes with a message is its serialization. -/
def Packet.Serialized (asJson : RelayMessage → String) (packet : Packet) : Prop :=
  ∀ json ∈ packet.json, json = asJson packet.message

/-- An EVENT message became one with an event of another id. -/
def EventReplaced : RelayMessage → RelayMessage → Prop
  | .event _ event, .event _ event' => event.id ≠ event'.id
  | _, _ => False

/-- What the task writes are the messages as they are after the chain, in the order of the queue,
up to the first failure of the socket. -/
def WritesFaithfully (asJson : RelayMessage → String) (chain : List (OutboundMiddleware Q A))
    (t : OutboundHistory Q A) : Prop :=
  ∃ passes, Passes chain t passes ∧
    written t <+: passes.filterMap (fun pass => pass.after.map asJson) ∧
    (¬ WriteFailed t → written t = passes.filterMap fun pass => pass.after.map asJson)

/-- Where a text comes with a message, the chain leaves a message with the same text, or puts an
event with another id in the place of an event. -/
def KeepsTexts (asJson : RelayMessage → String) (chain : List (OutboundMiddleware Q A)) : Prop :=
  ∀ (packet : Packet) t message, packet.json = some (asJson packet.message) →
    Runs (processOutboundChain packet.position chain (some packet.message)) t
      (.ok (some message)) →
    asJson message = asJson packet.message ∨ EventReplaced packet.message message

theorem jsonToUse_replaced {original message : RelayMessage} (h : EventReplaced original message)
    (json : Option String) : jsonToUse original message json = none := by
  match original, message, h with
  | .event _ event, .event _ event', h => exact if_neg h

theorem jsonToUse_of_not_replaced {original message : RelayMessage}
    (h : ¬ EventReplaced original message) (json : Option String) :
    jsonToUse original message json = json := by
  match original, message, h with
  | .event _ event, .event _ event', h => exact if_pos (not_not.mp h)
  | .endOfStoredEvents .., _, _ | .ok .., _, _ | .notice .., _, _ | .closed .., _, _
  | .auth .., _, _ | .count .., _, _ | .negMsg .., _, _ | .negErr .., _, _ => rfl
  | .event .., .endOfStoredEvents .., _ | .event .., .ok .., _ | .event .., .notice .., _
  | .event .., .closed .., _ | .event .., .auth .., _ | .event .., .count .., _
  | .event .., .negMsg .., _ | .event .., .negErr .., _ => rfl

theorem Pass.text_eq {pass : Pass Q A} (hpass : pass.Through chain)
    (hserialized : pass.packet.Serialized asJson) (hkeeps : KeepsTexts asJson chain) :
    pass.text asJson = pass.after.map asJson := by
  obtain ⟨packet, t, result⟩ := pass
  match result with
  | .error e | .ok none => rfl
  | .ok (some message) =>
    refine congrArg some ?_
    change (jsonToUse packet.message message packet.json).getD _ = _
    by_cases hreplaced : EventReplaced packet.message message
    · rw [jsonToUse_replaced hreplaced]
      rfl
    · rw [jsonToUse_of_not_replaced hreplaced]
      cases hjson : packet.json with
      | none => rfl
      | some json =>
        obtain rfl := hserialized json hjson
        exact ((hkeeps packet t message hjson hpass).resolve_right hreplaced).symm

/-- A history of the task in which one message passes the chain, and a text is written. -/
def oneHistory (packet : Packet) (t : History A) (text : String) : OutboundHistory Q A :=
  ⟨.inr .receive, some [packet]⟩ :: (t.map leftAsked ++ [⟨.inr (.write text), .ok ()⟩])

@[simp] theorem taken_one (packet : Packet) (t : History A) (text : String) :
    taken (oneHistory packet t text) = [packet] := by
  rw [oneHistory, taken_cons, taken_append, taken_left]
  rfl

@[simp] theorem chainHistory_one (packet : Packet) (t : History A) (text : String) :
    chainHistory (oneHistory packet t text) = t := by
  rw [oneHistory, chainHistory_cons, chainHistory_append, chainHistory_left]
  exact List.append_nil t

@[simp] theorem written_one (packet : Packet) (t : History A) (text : String) :
    written (oneHistory packet t text) = [text] := by
  rw [oneHistory, written_cons, written_append, written_left]
  rfl

@[simp] theorem not_writeFailed_one (packet : Packet) (t : History A) (text : String) :
    ¬ WriteFailed (oneHistory packet t text) := by
  rw [oneHistory, writeFailed_cons, writeFailed_append]
  rintro (h | h | ⟨asked, hasked, h⟩)
  · exact h
  · exact not_writeFailed_left t h
  · obtain rfl := List.mem_singleton.mp hasked
    exact h

/-- The only pass of such a history is that of its message. -/
theorem Passes.of_one {packet : Packet} {t : History A} {text : String}
    {passes : List (Pass Q A)} (h : Passes chain (oneHistory packet t text) passes)
    {result : Except Failure (Option RelayMessage)}
    (hrun : Runs (processOutboundChain packet.position chain (some packet.message)) t result) :
    passes = [⟨packet, t, result⟩] := by
  have hlength : passes.length = 1 := by
    rw [← List.length_map Pass.packet, h.packets, taken_one]
    rfl
  obtain ⟨⟨packet', t', result'⟩, rfl⟩ := List.length_eq_one_iff.mp hlength
  obtain rfl : packet' = packet := by simpa using h.packets
  obtain rfl : t' = t := by simpa using h.histories
  obtain rfl := (h.through _ (List.mem_singleton_self _)).unique hrun
  rfl

theorem runs_one {packet : Packet} {t : History A} {message : RelayMessage}
    (h : Runs (processOutboundChain packet.position chain (some packet.message)) t
      (.ok (some message))) :
    Runs (outboundTask asJson chain 1 : OutboundScript Q A Unit)
      (oneHistory packet t ((jsonToUse packet.message message packet.json).getD (asJson message)))
      () := by
  have hbatch : Runs (processBatch chain [packet]) t
      [(message, jsonToUse packet.message message packet.json)] := by
    refine runs_bind.mpr ⟨t, some (message, jsonToUse packet.message message packet.json), [],
      (List.append_nil t).symm, ?_, .done _⟩
    exact runs_bind.mpr ⟨t, _, [], (List.append_nil t).symm, h, .done _⟩
  refine runs_request_bind.mpr ⟨some [packet], _, rfl, runs_bind.mpr ⟨_, _, _, rfl,
    runs_left.mpr ⟨t, rfl, hbatch⟩, runs_bind.mpr ⟨_, true, [], (List.append_nil _).symm, ?_,
    .done _⟩⟩⟩
  exact runs_request_bind.mpr ⟨.ok (), [], rfl, .done _⟩

/-- A text that the chain has made stale is written all the same. -/
theorem stale_text_written (asJson : RelayMessage → String) (packet : Packet) {t : History A}
    {message : RelayMessage}
    (hjson : packet.json = some (asJson packet.message))
    (hrun : Runs (processOutboundChain packet.position chain (some packet.message)) t
      (.ok (some message)))
    (hstale : ¬ (asJson message = asJson packet.message ∨ EventReplaced packet.message message)) :
    ∃ t, Runs (outboundTask asJson chain 1 : OutboundScript Q A Unit) t () ∧
      (∀ packet ∈ taken t, packet.Serialized asJson) ∧ ¬ WritesFaithfully asJson chain t := by
  rw [not_or] at hstale
  refine ⟨_, runs_one hrun, ?_, fun ⟨passes, hpasses, _, hwritten⟩ => ?_⟩
  · rw [taken_one]
    rintro _ (_ | _) json hmem
    · rw [Option.mem_def, hjson] at hmem
      exact (Option.some.inj hmem).symm
    · contradiction
  · have := hwritten (not_writeFailed_one _ _ _)
    rw [written_one, hpasses.of_one hrun, jsonToUse_of_not_replaced hstale.2, hjson] at this
    exact hstale.1 (List.singleton_inj.mp this).symm

/-- **When what is written is what the chain produced.** In every run of the outbound task, if the
texts that come with messages are their serializations, then what is written are the messages
after the chain, each once and in the order of the queue, exactly if the chain keeps the text of
the messages that come with one, or replaces events by events with another id. -/
theorem writesFaithfully_iff (asJson : RelayMessage → String)
    (chain : List (OutboundMiddleware Q A)) :
    (∀ n t u, Runs (outboundTask asJson chain n : OutboundScript Q A Unit) t u →
      (∀ packet ∈ taken t, packet.Serialized asJson) → WritesFaithfully asJson chain t) ↔
    KeepsTexts asJson chain := by
  refine ⟨fun h packet t message hjson hrun => ?_, fun h n t u hrun hserialized => ?_⟩
  · by_contra hstale
    obtain ⟨t', hrun', hserialized, hno⟩ := stale_text_written asJson packet hjson hrun hstale
    exact hno (h 1 t' () hrun' hserialized)
  · obtain ⟨passes, hpasses, hprefix, hall⟩ := runs_outboundTask hrun
    have htexts : passes.filterMap (Pass.text asJson) =
        passes.filterMap fun pass => pass.after.map asJson := by
      refine List.filterMap_congr fun pass hpass => ?_
      refine Pass.text_eq (hpasses.through pass hpass) (hserialized _ ?_) h
      rw [← hpasses.packets]
      exact List.mem_map_of_mem hpass
    rw [htexts] at hprefix hall
    exact ⟨passes, hpasses, hprefix, hall⟩

/-- A middleware that turns every message into a notice. -/
def hideAll : OutboundMiddleware RelayCall RelayCall.Answer := fun message =>
  pure (.ok (message.map fun _ => .notice "hidden"))

/-- The event is written that the middleware has hidden. -/
theorem hidden_event_written :
    ¬ ∀ (asJson : RelayMessage → String) n t u,
      Runs (outboundTask asJson [hideAll] n) t u →
      (∀ packet ∈ taken t, packet.Serialized asJson) → WritesFaithfully asJson [hideAll] t := by
  intro h
  let asJson : RelayMessage → String
    | .notice text => "[\"NOTICE\",\"" ++ text ++ "\"]"
    | _ => "[\"EVENT\",\"feed\",{}]"
  have hrun : Runs (processOutboundChain 0 [hideAll] (some (.event "feed" (Event.note 5)))) []
      (.ok (some (.notice "hidden"))) := .done _
  obtain ⟨t, hrun', hserialized, hno⟩ := stale_text_written asJson
    ⟨.event "feed" (Event.note 5), 0, some (asJson (.event "feed" (Event.note 5)))⟩ rfl hrun
    (not_or.mpr ⟨by decide, id⟩)
  exact hno (h asJson 1 t () hrun' hserialized)

end RelayBuilder
