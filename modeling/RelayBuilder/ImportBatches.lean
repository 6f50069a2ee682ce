import RelayBuilder.Nostr

/-!
# Importing the events of a scope

`import_scope_with_progress` of the tool `export-import` reads a file line by line and saves the
events in batches of a hundred. `save_events_batch` saves the events of a batch one by one, and
returns at the first save that fails. So the events behind it are never tried, and the import counts
the whole batch as errors, those included that are in the store by then.

The store is what it answers: each event has a line, and its own save an outcome.

## Main definitions

* `ImportEnv`: the parser, the views of the scope and the saves
* `saveEventsBatch`, `importScopeWithProgress`
* `batches`: the events of a file in batches
* `ImportsPerEvent`: every event is tried once, and each is counted for itself

## Main results

* `importScopeWithProgress_eq`: an import that skips errors is the sum of its batches
* `importsPerEvent_iff`
-/

namespace RelayBuilder

/-! ### The tool -/

/-- An event with the number of its line, which tells what save it is. -/
structure Entry where
  line : ℕ
  event : Event
  deriving DecidableEq

/-- What `ScopedView::save_event` returns: a status that is a success or not, or an error. -/
inductive SaveResult where
  | success
  | rejected
  | error (text : String)
  deriving DecidableEq

/-- What an import meets: `Event::from_json`, the view of the scope each time it is asked for, and
the outcome of each save. -/
structure ImportEnv where
  fromJson : String → Except String Event
  scopedView : ℕ → Except String Unit
  save : Entry → SaveResult

/-- `char::is_whitespace`: the characters with the property `White_Space`. -/
def isWhitespace (c : Char) : Bool :=
  let n := c.toNat
  (9 ≤ n && n ≤ 13) || n == 0x20 || n == 0x85 || n == 0xA0 || n == 0x1680 ||
    (0x2000 ≤ n && n ≤ 0x200A) || n == 0x2028 || n == 0x2029 || n == 0x202F || n == 0x205F ||
    n == 0x3000

/-- `line.trim().is_empty()`. -/
def isBlank (line : String) : Bool := line.toList.all isWhitespace

/-- The loop of `save_events_batch`, with the events that it tries. -/
def saveEvents (save : Entry → SaveResult) : List Entry → ℕ → Except String ℕ × List Entry
  | [], savedCount => (.ok savedCount, [])
  | entry :: entries, savedCount =>
    match save entry with
    | .success =>
      let (result, tried) := saveEvents save entries (savedCount + 1)
      (result, entry :: tried)
    | .rejected =>
      let (result, tried) := saveEvents save entries savedCount
      (result, entry :: tried)
    | .error text => (.error ("Failed to save event: " ++ text), [entry])

/-- `save_events_batch`, with the events that it tries. -/
def saveEventsBatch (env : ImportEnv) (batch : ℕ) (events : List Entry) :
    Except String ℕ × List Entry :=
  match env.scopedView batch with
  | .error text => (.error ("Failed to get scoped view: " ++ text), [])
  | .ok () => saveEvents env.save events 0

/-- The variables of `import_scope_with_progress`, the number of batches before the current one, and
the events that were tried. -/
structure ImportState where
  imported : ℕ
  errors : ℕ
  eventsBatch : List Entry
  batch : ℕ
  tried : List Entry

/-- Save the current batch, and stop at an error unless errors are skipped. -/
def saveBatch (env : ImportEnv) (skipErrors : Bool) (failure : String → String) (s : ImportState) :
    Except String Unit × ImportState :=
  let (result, tried) := saveEventsBatch env s.batch s.eventsBatch
  let next := { s with eventsBatch := [], batch := s.batch + 1, tried := s.tried ++ tried }
  match result with
  | .ok count => (.ok (), { next with imported := s.imported + count })
  | .error e =>
    let next := { next with errors := s.errors + s.eventsBatch.length }
    if !skipErrors then (.error (failure e), next) else (.ok (), next)

/-- The loop of `import_scope_with_progress` over the lines. -/
def readLines (env : ImportEnv) (skipErrors : Bool) (filePath : String) :
    List (Except String String) → ℕ → ImportState → Except String Unit × ImportState
  | [], _, s => (.ok (), s)
  | .error e :: _, _, s => (.error e, s)
  | .ok line :: lines, lineNum, s =>
    if isBlank line then readLines env skipErrors filePath lines (lineNum + 1) s
    else match env.fromJson line with
      | .ok event =>
        let s := { s with eventsBatch := s.eventsBatch ++ [⟨lineNum, event⟩] }
        if s.eventsBatch.length ≥ 100 then
          match saveBatch env skipErrors (fun e =>
            "Failed to import batch ending at line " ++ toString (lineNum + 1) ++ ": " ++ e) s with
          | (.ok (), s) => readLines env skipErrors filePath lines (lineNum + 1) s
          | (.error e, s) => (.error e, s)
        else readLines env skipErrors filePath lines (lineNum + 1) s
      | .error e =>
        let s := { s with errors := s.errors + 1 }
        if skipErrors then readLines env skipErrors filePath lines (lineNum + 1) s
        else (.error ("Failed to parse event at line " ++ toString (lineNum + 1) ++ " in " ++
          filePath ++ ": " ++ e), s)

/-- The part of `import_scope_with_progress` behind the loop: save what remains. -/
def saveRemaining (env : ImportEnv) (skipErrors : Bool) (s : ImportState) :
    Except String (ℕ × ℕ) × List Entry :=
  if s.eventsBatch.isEmpty then (.ok (s.imported, s.errors), s.tried)
  else
    match saveBatch env skipErrors (fun e => "Failed to import final batch: " ++ e) s with
    | (.ok (), s) => (.ok (s.imported, s.errors), s.tried)
    | (.error e, s) => (.error e, s.tried)

/-- `import_scope_with_progress`, with the lines of the file as they are read, and with the events
that it tries to save. -/
def importScopeWithProgress (env : ImportEnv) (skipErrors : Bool) (filePath : String)
    (lines : List (Except String String)) : Except String (ℕ × ℕ) × List Entry :=
  match readLines env skipErrors filePath lines 0 ⟨0, 0, [], 0, []⟩ with
  | (.ok (), s) => saveRemaining env skipErrors s
  | (.error e, s) => (.error e, s.tried)

/-! ### What is in a file -/

/-- The events of the lines, from a line number on. -/
def parsed (fromJson : String → Except String Event) :
    List (Except String String) → ℕ → List Entry
  | [], _ => []
  | .error _ :: lines, n => parsed fromJson lines (n + 1)
  | .ok line :: lines, n =>
    if isBlank line then parsed fromJson lines (n + 1)
    else match fromJson line with
      | .ok event => ⟨n, event⟩ :: parsed fromJson lines (n + 1)
      | .error _ => parsed fromJson lines (n + 1)

/-- The number of lines that are neither blank nor an event. -/
def malformed (fromJson : String → Except String Event) : List (Except String String) → ℕ
  | [] => 0
  | .error _ :: lines => malformed fromJson lines
  | .ok line :: lines =>
    if isBlank line then malformed fromJson lines
    else match fromJson line with
      | .ok _ => malformed fromJson lines
      | .error _ => malformed fromJson lines + 1

/-- The save is one that succeeds. -/
def SaveResult.isSuccess : SaveResult → Bool
  | .success => true
  | _ => false

/-- The save is one that fails. -/
def SaveResult.isError : SaveResult → Bool
  | .error _ => true
  | _ => false

/-- The batches of the items, with those that are in the current one already. -/
def batchesFrom {α : Type} (batch : List α) : List α → List (List α)
  | [] => if batch.isEmpty then [] else [batch]
  | a :: items =>
    if batch.length + 1 ≥ 100 then (batch ++ [a]) :: batchesFrom [] items
    else batchesFrom (batch ++ [a]) items

/-- The items in batches of a hundred. The last batch is what remains. -/
def batches {α : Type} (items : List α) : List (List α) := batchesFrom [] items

theorem flatten_batchesFrom {α : Type} (batch items : List α) :
    (batchesFrom batch items).flatten = batch ++ items := by
  induction items generalizing batch with
  | nil =>
    rw [batchesFrom, List.append_nil]
    cases batch with
    | nil => rfl
    | cons a batch => exact List.append_nil _
  | cons a items ih =>
    rw [batchesFrom]
    split
    · rw [List.flatten_cons, ih, List.nil_append, List.append_assoc, List.singleton_append]
    · rw [ih, List.append_assoc, List.singleton_append]

/-- All batches but the last are full. -/
theorem batchesFrom_eq_append {α : Type} (batch : List α) (h : batch.length < 100)
    (items : List α) : ∃ full rest : List (List α), batchesFrom batch items = full ++ rest ∧
      (∀ b ∈ full, b.length = 100) ∧
      (rest = [] ∨ ∃ last, rest = [last] ∧ 0 < last.length ∧ last.length < 100) := by
  induction items generalizing batch with
  | nil =>
    rw [batchesFrom]
    cases batch with
    | nil => exact ⟨[], [], rfl, nofun, .inl rfl⟩
    | cons a batch =>
      exact ⟨[], [a :: batch], rfl, nofun, .inr ⟨_, rfl, Nat.succ_pos _, h⟩⟩
  | cons a items ih =>
    rw [batchesFrom]
    split
    · next hfull =>
      obtain ⟨full, rest, heq, hlength, hrest⟩ := ih [] (Nat.zero_lt_succ _)
      refine ⟨(batch ++ [a]) :: full, rest, by rw [heq, List.cons_append],
        List.forall_mem_cons.mpr ⟨?_, hlength⟩, hrest⟩
      rw [List.length_append, List.length_singleton]
      omega
    · next hroom =>
      refine ih _ ?_
      rw [List.length_append, List.length_singleton]
      omega

/-- A batch of one item is the last one, and the number of items is one more than a multiple of a
hundred. -/
theorem suffix_of_length_eq_one {α : Type} {items batch : List α} (h : batch ∈ batches items)
    (hone : batch.length = 1) : items.length % 100 = 1 ∧ batch <:+ items := by
  obtain ⟨full, rest, heq, hfull, hrest⟩ :=
    batchesFrom_eq_append [] (Nat.zero_lt_succ _) items
  have hflat := flatten_batchesFrom [] items
  rw [heq, List.nil_append, List.flatten_append] at hflat
  rw [batches, heq] at h
  obtain h | h := List.mem_append.mp h
  · exact absurd (hfull batch h) (by omega)
  obtain rfl | ⟨last, rfl, -, -⟩ := hrest
  · cases h
  obtain rfl := List.mem_singleton.mp h
  rw [List.flatten_singleton] at hflat
  refine ⟨?_, ⟨_, hflat⟩⟩
  have hsum : full.flatten.length = 100 * full.length := by
    rw [List.length_flatten, List.map_congr_left hfull, List.map_const', List.sum_replicate_nat,
      Nat.mul_comm]
  rw [← hflat, List.length_append, hsum, hone]
  omega

/-! ### An import as the sum of its batches -/

/-- What batches add to the counts, and the events that are tried. -/
@[ext]
structure Tally where
  imported : ℕ
  errors : ℕ
  tried : List Entry
  deriving DecidableEq

/-- What one batch adds. -/
def batchTally (env : ImportEnv) (batch : ℕ) (events : List Entry) : Tally :=
  match saveEventsBatch env batch events with
  | (.ok count, tried) => ⟨count, 0, tried⟩
  | (.error _, tried) => ⟨0, events.length, tried⟩

/-- What batches add, of which the first has the given number. -/
def tally (env : ImportEnv) : ℕ → List (List Entry) → Tally
  | _, [] => ⟨0, 0, []⟩
  | n, events :: rest => ⟨(batchTally env n events).imported + (tally env (n + 1) rest).imported,
      (batchTally env n events).errors + (tally env (n + 1) rest).errors,
      (batchTally env n events).tried ++ (tally env (n + 1) rest).tried⟩

variable {env : ImportEnv} {filePath : String} {lines : List (Except String String)}

theorem saveBatch_skip (env : ImportEnv) (failure : String → String) (s : ImportState) :
    saveBatch env true failure s = (.ok (),
      ⟨s.imported + (batchTally env s.batch s.eventsBatch).imported,
        s.errors + (batchTally env s.batch s.eventsBatch).errors, [], s.batch + 1,
        s.tried ++ (batchTally env s.batch s.eventsBatch).tried⟩) := by
  rw [saveBatch, batchTally]
  obtain ⟨result, tried⟩ := saveEventsBatch env s.batch s.eventsBatch
  cases result <;> rfl

/-- Every line can be read. -/
def Readable (lines : List (Except String String)) : Prop := ∀ e, Except.error e ∉ lines

theorem readLines_skip (env : ImportEnv) (filePath : String) (hread : Readable lines) (n : ℕ)
    {s : ImportState}
    (hbatch : s.eventsBatch.length < 100) :
    ∃ s', readLines env true filePath lines n s = (.ok (), s') ∧
      saveRemaining env true s' =
        let t := tally env s.batch (batchesFrom s.eventsBatch (parsed env.fromJson lines n))
        (.ok (s.imported + t.imported, s.errors + (malformed env.fromJson lines + t.errors)),
          s.tried ++ t.tried) := by
  induction lines generalizing n s with
  | nil =>
    refine ⟨s, rfl, ?_⟩
    rw [saveRemaining, parsed, batchesFrom, malformed]
    cases hempty : s.eventsBatch.isEmpty with
    | true => simp [tally]
    | false => simp [saveBatch_skip, tally]
  | cons line lines ih =>
    have hlines : Readable lines := fun e he => hread e (List.mem_cons_of_mem line he)
    match line with
    | .error e => exact absurd (List.mem_cons_self ..) (hread e)
    | .ok text =>
      rw [readLines, parsed, malformed]
      cases hblank : isBlank text with
      | true => simpa using ih hlines (n + 1) hbatch
      | false =>
        simp only [Bool.false_eq_true, if_false]
        cases hjson : env.fromJson text with
        | error e =>
          simp only [if_true]
          obtain ⟨s', hrun, hrest⟩ :=
            ih hlines (n + 1) (s := { s with errors := s.errors + 1 }) hbatch
          refine ⟨s', hrun, hrest.trans ?_⟩
          simp only [Prod.mk.injEq, Except.ok.injEq, and_true, true_and]
          omega
        | ok event =>
          dsimp only
          rw [List.length_append, List.length_singleton, batchesFrom]
          split
          · next hfull =>
            simp only [saveBatch_skip]
            obtain ⟨s', hrun, hrest⟩ := ih hlines (n + 1)
              (s := ⟨_, _, [], s.batch + 1, _⟩) (Nat.zero_lt_succ _)
            refine ⟨s', hrun, hrest.trans ?_⟩
            simp only [tally, List.append_assoc, Prod.mk.injEq, Except.ok.injEq, and_true]
            omega
          · next hroom =>
            refine ih hlines (n + 1) (s := { s with eventsBatch := s.eventsBatch ++ [_] }) ?_
            rw [List.length_append, List.length_singleton]
            omega

/-- **An import that skips errors** is the sum of its batches, if every line can be read. -/
theorem importScopeWithProgress_eq (filePath : String) (hread : Readable lines) :
    importScopeWithProgress env true filePath lines =
      let t := tally env 0 (batches (parsed env.fromJson lines 0))
      (.ok (t.imported, malformed env.fromJson lines + t.errors), t.tried) := by
  obtain ⟨s', hrun, hrest⟩ := readLines_skip env filePath hread 0
    (s := ⟨0, 0, [], 0, []⟩) (Nat.zero_lt_succ _)
  rw [importScopeWithProgress, hrun]
  refine hrest.trans ?_
  simp only [Nat.zero_add, List.nil_append, batches]

theorem readLines_unreadable (env : ImportEnv) (filePath : String) (hread : ¬ Readable lines)
    (n : ℕ) (s : ImportState) : ∃ e s', readLines env true filePath lines n s = (.error e, s') := by
  induction lines generalizing n s with
  | nil => exact absurd (fun _ h => nomatch h) hread
  | cons line lines ih =>
    match line with
    | .error e => exact ⟨e, s, rfl⟩
    | .ok text =>
      have hlines : ¬ Readable lines := fun h => hread fun e he => by
        obtain he | he := List.mem_cons.mp he
        · cases he
        · exact h e he
      rw [readLines]
      split
      · exact ih hlines _ _
      · cases env.fromJson text with
        | error e => exact ih hlines _ _
        | ok event =>
          dsimp only
          split
          · rw [saveBatch_skip]
            exact ih hlines _ _
          · exact ih hlines _ _

/-- A line that cannot be read ends the import. -/
theorem importScopeWithProgress_unreadable (env : ImportEnv) (filePath : String)
    (hread : ¬ Readable lines) :
    ∃ e, (importScopeWithProgress env true filePath lines).1 = .error e := by
  obtain ⟨e, s', hrun⟩ := readLines_unreadable env filePath hread 0 ⟨0, 0, [], 0, []⟩
  exact ⟨e, by rw [importScopeWithProgress, hrun]⟩

/-! ### One batch -/

/-- How many of the events have a save that succeeds. -/
def successes (env : ImportEnv) (events : List Entry) : ℕ :=
  events.countP fun entry => (env.save entry).isSuccess

/-- How many of the events have a save that fails. -/
def failures (env : ImportEnv) (events : List Entry) : ℕ :=
  events.countP fun entry => (env.save entry).isError

/-- A batch whose events are saved each for itself: there is a view of the scope, and no save fails
unless it is the only one. -/
def SavedApart (env : ImportEnv) (batch : ℕ) (events : List Entry) : Prop :=
  (∃ view, env.scopedView batch = .ok view) ∧ (failures env events = 0 ∨ events.length = 1)

variable {events : List Entry} {n : ℕ}

/-- What `save_events_batch` does in its loop: it saves all events, or it stops behind the first
one whose save fails. -/
theorem saveEvents_cases (env : ImportEnv) (events : List Entry) (savedCount : ℕ) :
    (failures env events = 0 ∧
      saveEvents env.save events savedCount = (.ok (savedCount + successes env events), events)) ∨
    ∃ before entry after text, events = before ++ entry :: after ∧ failures env before = 0 ∧
      env.save entry = .error text ∧
      saveEvents env.save events savedCount =
        (.error ("Failed to save event: " ++ text), before ++ [entry]) := by
  induction events generalizing savedCount with
  | nil => exact .inl ⟨rfl, rfl⟩
  | cons entry events ih =>
    rw [saveEvents]
    cases hsave : env.save entry with
    | error text => exact .inr ⟨[], entry, events, text, rfl, rfl, hsave, rfl⟩
    | success =>
      obtain ⟨hnone, hrun⟩ | ⟨before, failing, after, text, rfl, hnone, hfail, hrun⟩ :=
        ih (savedCount + 1)
      · refine .inl ⟨by simpa [failures, hsave, SaveResult.isError] using hnone, ?_⟩
        simp [hrun, successes, hsave, SaveResult.isSuccess]
        omega
      · refine .inr ⟨entry :: before, failing, after, text, rfl, ?_, hfail, by rw [hrun]; rfl⟩
        simpa [failures, hsave, SaveResult.isError] using hnone
    | rejected =>
      obtain ⟨hnone, hrun⟩ | ⟨before, failing, after, text, rfl, hnone, hfail, hrun⟩ :=
        ih savedCount
      · refine .inl ⟨by simpa [failures, hsave, SaveResult.isError] using hnone, ?_⟩
        simp [hrun, successes, hsave, SaveResult.isSuccess]
      · refine .inr ⟨entry :: before, failing, after, text, rfl, ?_, hfail, by rw [hrun]; rfl⟩
        simpa [failures, hsave, SaveResult.isError] using hnone

theorem batchTally_cases (env : ImportEnv) (n : ℕ) (events : List Entry) :
    ((∃ view, env.scopedView n = .ok view) ∧
      (failures env events = 0 ∧ batchTally env n events = ⟨successes env events, 0, events⟩ ∨
        ∃ before entry after, events = before ++ entry :: after ∧ failures env before = 0 ∧
          (∃ text, env.save entry = .error text) ∧
          batchTally env n events = ⟨0, events.length, before ++ [entry]⟩)) ∨
    ((¬ ∃ view, env.scopedView n = .ok view) ∧
      batchTally env n events = ⟨0, events.length, []⟩) := by
  rw [batchTally, saveEventsBatch]
  cases hview : env.scopedView n with
  | error text => exact .inr ⟨fun ⟨_, h⟩ => (nomatch h), rfl⟩
  | ok view =>
    refine .inl ⟨⟨view, rfl⟩, ?_⟩
    obtain ⟨hnone, hrun⟩ | ⟨before, entry, after, text, heq, hnone, hfail, hrun⟩ :=
      saveEvents_cases env events 0
    · refine .inl ⟨hnone, ?_⟩
      dsimp only
      rw [hrun, Nat.zero_add]
    · refine .inr ⟨before, entry, after, heq, hnone, ⟨text, hfail⟩, ?_⟩
      dsimp only
      rw [hrun]

theorem failures_append (env : ImportEnv) (events events' : List Entry) :
    failures env (events ++ events') = failures env events + failures env events' :=
  List.countP_append

theorem successes_append (env : ImportEnv) (events events' : List Entry) :
    successes env (events ++ events') = successes env events + successes env events' :=
  List.countP_append

theorem failures_cons_of_error {entry : Entry} {text : String}
    (h : env.save entry = .error text) : failures env (entry :: events) = failures env events + 1 :=
  List.countP_cons_of_pos (by rw [h]; rfl)

/-- A batch whose events are saved each for itself is counted right. -/
theorem batchTally_of_savedApart (h : SavedApart env n events) :
    batchTally env n events = ⟨successes env events, failures env events, events⟩ := by
  obtain ⟨-, ⟨hnone, heq⟩ | ⟨before, entry, after, rfl, -, ⟨text, hfail⟩, heq⟩⟩ | ⟨hview, -⟩ :=
    batchTally_cases env n events
  · rw [heq, hnone]
  · have hpos : failures env (before ++ entry :: after) ≠ 0 := by
      rw [failures_append, failures_cons_of_error hfail]
      omega
    have hlength := h.2.resolve_left hpos
    rw [List.length_append, List.length_cons] at hlength
    obtain rfl : before = [] := List.eq_nil_of_length_eq_zero (by omega)
    obtain rfl : after = [] := List.eq_nil_of_length_eq_zero (by omega)
    rw [heq]
    simp [failures, successes, hfail, SaveResult.isError, SaveResult.isSuccess]
  · exact absurd h.1 hview

theorem length_tried_batch_le (env : ImportEnv) (n : ℕ) (events : List Entry) :
    (batchTally env n events).tried.length ≤ events.length := by
  obtain ⟨-, ⟨-, heq⟩ | ⟨before, entry, after, rfl, -, -, heq⟩⟩ | ⟨-, heq⟩ :=
    batchTally_cases env n events
  · rw [heq]
  · rw [heq, List.length_append, List.length_append]
    exact Nat.add_le_add_left (Nat.le_add_left 1 after.length) _
  · rw [heq]
    exact Nat.zero_le _

/-- A batch that was tried to its end counts no fewer errors than there are, and as many only if its
events are saved each for itself. -/
theorem failures_le_errors_batch (hne : events ≠ [])
    (h : (batchTally env n events).tried = events) :
    failures env events ≤ (batchTally env n events).errors ∧
      (failures env events = (batchTally env n events).errors → SavedApart env n events) := by
  obtain ⟨hview, ⟨hnone, heq⟩ | ⟨before, entry, after, rfl, hnone, ⟨text, hfail⟩, heq⟩⟩ |
    ⟨-, heq⟩ := batchTally_cases env n events
  · rw [hnone]
    exact ⟨Nat.zero_le _, fun _ => ⟨hview, .inl hnone⟩⟩
  · rw [heq] at h
    obtain rfl : after = [] := by simpa using h
    rw [heq, failures_append, hnone, failures_cons_of_error hfail, List.length_append]
    refine ⟨Nat.le_add_left 1 _, fun hone => ⟨hview, .inr ?_⟩⟩
    rw [List.length_append, List.length_singleton]
    exact hone.symm
  · rw [heq] at h
    exact absurd h.symm hne

/-! ### All batches -/

theorem length_tried_le (env : ImportEnv) (n : ℕ) (bs : List (List Entry)) :
    (tally env n bs).tried.length ≤ bs.flatten.length := by
  induction bs generalizing n with
  | nil => exact le_rfl
  | cons events bs ih =>
    rw [tally, List.flatten_cons, List.length_append, List.length_append]
    exact Nat.add_le_add (length_tried_batch_le env n events) (ih (n + 1))

/-- If all events were tried, so were those of each batch. -/
theorem tried_cons {bs : List (List Entry)} (h : (tally env n (events :: bs)).tried =
    (events :: bs).flatten) : (batchTally env n events).tried = events ∧
      (tally env (n + 1) bs).tried = bs.flatten := by
  rw [tally, List.flatten_cons] at h
  have hlength := congrArg List.length h
  rw [List.length_append, List.length_append] at hlength
  have hfirst := length_tried_batch_le env n events
  have hrest := length_tried_le env (n + 1) bs
  exact List.append_inj h (by omega)

theorem failures_le_errors {bs : List (List Entry)} (hne : ∀ b ∈ bs, b ≠ [])
    (h : (tally env n bs).tried = bs.flatten) :
    failures env bs.flatten ≤ (tally env n bs).errors := by
  induction bs generalizing n with
  | nil => exact le_rfl
  | cons events bs ih =>
    obtain ⟨hfirst, hrest⟩ := tried_cons h
    obtain ⟨hevents, hbs⟩ := List.forall_mem_cons.mp hne
    rw [tally, List.flatten_cons, failures_append]
    exact Nat.add_le_add (failures_le_errors_batch hevents hfirst).1 (ih hbs hrest)

/-- **The sum of the batches** is right exactly if the events of each batch are saved each for
itself. -/
theorem tally_eq_iff (env : ImportEnv) (n : ℕ) {bs : List (List Entry)} (hne : ∀ b ∈ bs, b ≠ []) :
    tally env n bs = ⟨successes env bs.flatten, failures env bs.flatten, bs.flatten⟩ ↔
      ∀ i b, bs[i]? = some b → SavedApart env (n + i) b := by
  induction bs generalizing n with
  | nil => exact iff_of_true rfl fun i b h => nomatch h
  | cons events bs ih =>
    obtain ⟨hevents, hbs⟩ := List.forall_mem_cons.mp hne
    constructor
    · intro h
      obtain ⟨hfirst, hrest⟩ := tried_cons (congrArg Tally.tried h)
      have himported := congrArg Tally.imported h
      have herrors := congrArg Tally.errors h
      simp only [tally, List.flatten_cons, successes_append, failures_append]
        at himported herrors
      obtain ⟨hle, hapart⟩ := failures_le_errors_batch hevents hfirst
      have hle' := failures_le_errors hbs hrest
      have hapart := hapart (by omega)
      rw [batchTally_of_savedApart hapart] at himported herrors
      have htally : tally env (n + 1) bs =
          ⟨successes env bs.flatten, failures env bs.flatten, bs.flatten⟩ := by
        rw [← hrest]
        refine Tally.ext ?_ ?_ rfl
        · rw [hrest]
          exact Nat.add_left_cancel himported
        · rw [hrest]
          exact Nat.add_left_cancel herrors
      intro i b hb
      cases i with
      | zero =>
        obtain rfl : events = b := Option.some.inj hb
        exact hapart
      | succ i =>
        have := (ih _ hbs).mp htally i b hb
        rwa [Nat.add_right_comm, Nat.add_assoc] at this
    · intro h
      have hfirst := batchTally_of_savedApart (n := n) (h 0 events rfl)
      have hrest := (ih (n + 1) hbs).mpr fun i b hb => by
        rw [Nat.add_right_comm, Nat.add_assoc]
        exact h (i + 1) b hb
      rw [tally, hfirst, hrest, List.flatten_cons, successes_append, failures_append]

theorem ne_nil_of_mem_batches {α : Type} {items batch : List α} (h : batch ∈ batches items) :
    batch ≠ [] := by
  obtain ⟨full, rest, heq, hfull, hrest⟩ :=
    batchesFrom_eq_append [] (Nat.zero_lt_succ _) items
  rw [batches, heq] at h
  refine List.ne_nil_of_length_pos ?_
  obtain h | h := List.mem_append.mp h
  · rw [hfull batch h]
    exact Nat.zero_lt_succ _
  · obtain rfl | ⟨last, rfl, hpos, -⟩ := hrest
    · cases h
    · rwa [List.mem_singleton.mp h]

/-- If the events of each batch are saved each for itself, a save that fails is that of the last
event of the file, and the number of events is one more than a multiple of a hundred. -/
theorem last_of_savedApart {entries : List Entry}
    (h : ∀ i b, (batches entries)[i]? = some b → SavedApart env i b) {entry : Entry}
    (hmem : entry ∈ entries) (hfail : (env.save entry).isError = true) :
    entries.length % 100 = 1 ∧ [entry] <:+ entries := by
  have hflat := flatten_batchesFrom [] entries
  rw [List.nil_append] at hflat
  obtain ⟨b, hb, hentry⟩ := List.mem_flatten.mp (hflat ▸ hmem)
  obtain ⟨i, hi⟩ := List.getElem?_of_mem hb
  have hone : b.length = 1 := (h i b hi).2.resolve_left fun hnone =>
    absurd hfail (List.countP_eq_zero.mp hnone entry hentry)
  obtain ⟨a, rfl⟩ := List.length_eq_one_iff.mp hone
  obtain rfl := List.mem_singleton.mp hentry
  exact suffix_of_length_eq_one hb hone

/-- Every event is tried once, in the order of the file, and the counts are those of the saves that
succeed, and of the lines that are malformed or whose save fails. -/
def ImportsPerEvent (env : ImportEnv) (lines : List (Except String String))
    (outcome : Except String (ℕ × ℕ) × List Entry) : Prop :=
  let entries := parsed env.fromJson lines 0
  outcome = (.ok (successes env entries, malformed env.fromJson lines + failures env entries),
    entries)

/-- **When an import is per event.** For every file, parser and store, with errors skipped: every
event is tried once and in order and everything is counted right, exactly if every line can be
read, there is a view of the scope for every batch, and no batch of more than one event has a save
that fails. -/
theorem importsPerEvent_iff (env : ImportEnv) (filePath : String)
    (lines : List (Except String String)) :
    ImportsPerEvent env lines (importScopeWithProgress env true filePath lines) ↔
      Readable lines ∧ ∀ i b, (batches (parsed env.fromJson lines 0))[i]? = some b →
        SavedApart env i b := by
  by_cases hread : Readable lines
  swap
  · refine iff_of_false (fun h => ?_) fun h => hread h.1
    obtain ⟨e, he⟩ := importScopeWithProgress_unreadable env filePath hread
    rw [ImportsPerEvent] at h
    rw [h] at he
    cases he
  have hne : ∀ b ∈ batches (parsed env.fromJson lines 0), b ≠ [] :=
    fun b hb => ne_nil_of_mem_batches hb
  have hiff := tally_eq_iff env 0 hne
  simp only [Nat.zero_add, batches, flatten_batchesFrom, List.nil_append] at hiff
  rw [ImportsPerEvent, importScopeWithProgress_eq filePath hread, and_iff_right hread, batches,
    ← hiff]
  simp only [Prod.mk.injEq, Except.ok.injEq, Tally.ext_iff, Nat.add_left_cancel_iff, and_assoc]

/-- A number below ten, in so many hexadecimal digits. -/
def hexDigits (length : ℕ) (digit : String) : String :=
  String.ofList (List.replicate (length - 1) '0') ++ digit

/-- The JSON of a text note. -/
def noteLine : String :=
  "\x7b" ++ ("\"id\":\"" ++ hexDigits 64 "5" ++ "\",\"pubkey\":\"" ++ hexDigits 64 "1" ++
    "\",\"created_at\":0,\"kind\":1,\"tags\":[],\"content\":\"hello\",\"sig\":\"" ++
    hexDigits 128 "0" ++ "\"\x7d")

/-- A store that cannot save the event of the first line. -/
def failingStore : ImportEnv where
  fromJson text := if text = noteLine then .ok (Event.note 5) else .error "Invalid event"
  scopedView _ := .ok ()
  save entry := if entry.line = 0 then .error "MDB_MAP_FULL" else .success

theorem isBlank_noteLine : isBlank noteLine = false := by
  rw [isBlank, noteLine, String.toList_append]
  rfl

/-- Two events in one batch, the first of which cannot be saved: the second one is not tried. -/
theorem not_importsPerEvent {env : ImportEnv} {text error : String} {event : Event}
    (hblank : isBlank text = false) (hjson : env.fromJson text = .ok event)
    (hview : env.scopedView 0 = .ok ()) (hsave : env.save ⟨0, event⟩ = .error error)
    (filePath : String) :
    ¬ ImportsPerEvent env [.ok text, .ok text]
      (importScopeWithProgress env true filePath [.ok text, .ok text]) := by
  intro h
  have htried := congrArg (fun outcome => outcome.2.length) h
  simp [importScopeWithProgress, readLines, saveRemaining, saveBatch, saveEventsBatch, saveEvents,
    parsed, hblank, hjson, hview, hsave] at htried

/-- The event behind one whose save fails is never tried. -/
theorem second_event_not_tried : ¬ ∀ (env : ImportEnv) (filePath : String)
    (lines : List (Except String String)),
    ImportsPerEvent env lines (importScopeWithProgress env true filePath lines) := by
  intro h
  have hjson : failingStore.fromJson noteLine = .ok (Event.note 5) := by
    generalize hline : noteLine = line
    rw [failingStore, hline]
    exact if_pos rfl
  exact not_importsPerEvent isBlank_noteLine hjson rfl rfl "scope_default.jsonl" (h ..)

end RelayBuilder
