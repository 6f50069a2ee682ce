import RelayBuilder.EventAnswers
import RelayBuilder.Interleave.Exec

/-!
# The order of the commands

`handle_event` takes the first `SaveSignedEvent` out of the commands of the event processor and
executes it first. It takes it out with `swap_remove`, so the last command moves into its place.
What a list of commands does is compared with what it does in the order of the processor, over any
store: which events it broadcasts, and what it leaves in the store.

## Main definitions

* `Leaves`: a script broadcasts some events and leaves a state of the store
* `inOrder`: the commands of an event processor in their order
* `LeavesInOrder`: `handle_event` does the same as the commands in their order

## Main results

* `leavesInOrder_iff`: this is so exactly if all commands behind the first `SaveSignedEvent` do the
  same
-/

namespace RelayBuilder

open Interleave Script

/-! ### What is left -/

/-- The question is not about the store. -/
def RelayCall.Elsewhere : RelayCall → Prop
  | .respond _ _ | .trySend _ _ | .distributeEvent _ _ | .eventContext | .handleEvent _ _
  | .subscriptionCoordinator => True
  | _ => False

/-- A store, among answers that do not depend on it. -/
structure StoreOnly {σ : Type} (answers : Script.Answers RelayCall.Answer σ) : Prop where
  keeps : ∀ q s r s', q.Elsewhere → answers q s r s' → s' = s
  answered : ∀ q s, q.Elsewhere → ∃ r, answers q s r s

/-- The script can run from the first state to the second, broadcasting these events. -/
def Leaves {σ α : Type} (answers : Script.Answers RelayCall.Answer σ) (p : Relay α) (s : σ)
    (broadcast : List (Event × Scope)) (a : α) (s' : σ) : Prop :=
  ∃ t, Exec answers p s t a s' ∧ distributedEvents t = broadcast

variable {σ α β : Type} {answers : Script.Answers RelayCall.Answer σ} {s s' : σ}
  {broadcast : List (Event × Scope)}

theorem leaves_bind {p : Relay α} {k : α → Relay β} {b : β} :
    Leaves answers (p.bind k) s broadcast b s' ↔ ∃ first a s₁ rest, broadcast = first ++ rest ∧
      Leaves answers p s first a s₁ ∧ Leaves answers (k a) s₁ rest b s' := by
  refine ⟨fun ⟨t, hexec, ht⟩ => ?_, fun ⟨first, a, s₁, rest, hb, ⟨t, h, ht⟩, t', h', ht'⟩ => ?_⟩
  · obtain ⟨t₁, a, s₁, t₂, rfl, h₁, h₂⟩ := exec_bind.mp hexec
    refine ⟨_, a, s₁, _, ?_, ⟨t₁, h₁, rfl⟩, t₂, h₂, rfl⟩
    rw [← ht, distributedEvents_append]
  · refine ⟨t ++ t', exec_bind.mpr ⟨t, a, s₁, t', rfl, h, h'⟩, ?_⟩
    rw [distributedEvents_append, ht, ht', hb]

/-- Two scripts leave the same. -/
def LeaveAlike (answers : Script.Answers RelayCall.Answer σ) (p p' : Relay α) : Prop :=
  ∀ s broadcast a s', Leaves answers p s broadcast a s' ↔ Leaves answers p' s broadcast a s'

namespace LeaveAlike

variable {p p' p'' : Relay α} {k k' : α → Relay β}

theorem refl (p : Relay α) : LeaveAlike answers p p := fun _ _ _ _ => Iff.rfl

theorem symm (h : LeaveAlike answers p p') : LeaveAlike answers p' p :=
  fun s broadcast a s' => (h s broadcast a s').symm

theorem trans (h : LeaveAlike answers p p') (h' : LeaveAlike answers p' p'') :
    LeaveAlike answers p p'' :=
  fun s broadcast a s' => (h s broadcast a s').trans (h' s broadcast a s')

theorem bind (h : LeaveAlike answers p p') (hk : ∀ a, LeaveAlike answers (k a) (k' a)) :
    LeaveAlike answers (p.bind k) (p'.bind k') := by
  intro s broadcast b s'
  rw [leaves_bind, leaves_bind]
  have hboth : ∀ first a s₁ rest,
      Leaves answers p s first a s₁ ∧ Leaves answers (k a) s₁ rest b s' ↔
        Leaves answers p' s first a s₁ ∧ Leaves answers (k' a) s₁ rest b s' :=
    fun first a s₁ rest => and_congr (h s first a s₁) (hk a s₁ rest b s')
  simp only [hboth]

theorem andThen {ε : Type} {p p' : Relay (Except ε α)} {k k' : α → Relay (Except ε β)}
    (h : LeaveAlike answers p p') (hk : ∀ a, LeaveAlike answers (k a) (k' a)) :
    LeaveAlike answers (p.andThen k) (p'.andThen k') :=
  h.bind fun
    | .ok a => hk a
    | .error _ => .refl _

theorem mapError {ε ε' : Type} {p p' : Relay (Except ε α)} {f : ε → ε'}
    (h : LeaveAlike answers p p') : LeaveAlike answers (p.mapError f) (p'.mapError f) :=
  h.bind fun _ => .refl _

/-- What only goes elsewhere, and broadcasts nothing, can be left out. -/
theorem skip {p : Relay β} (hanswers : StoreOnly answers) (call : RelayCall)
    (hcall : call.Elsewhere) (hquiet : ∀ r, Asked.distributed? ⟨call, r⟩ = none)
    {k : call.Answer → Relay β} (hk : ∀ r, LeaveAlike answers (k r) p) :
    LeaveAlike answers (ask call k) p := by
  intro s broadcast b s'
  have hdistributed : ∀ r t, distributedEvents (⟨call, r⟩ :: t) = distributedEvents t :=
    fun r t => List.filterMap_cons_none (hquiet r)
  refine ⟨fun ⟨t, hexec, ht⟩ => ?_, fun h => ?_⟩
  · obtain ⟨r, s₁, t', rfl, hr, h'⟩ := exec_ask.mp hexec
    obtain rfl := hanswers.keeps call s r s₁ hcall hr
    exact (hk r s₁ broadcast b s').mp ⟨t', h', (hdistributed r t').symm.trans ht⟩
  · obtain ⟨r, hr⟩ := hanswers.answered call s hcall
    obtain ⟨t, hexec, ht⟩ := (hk r s broadcast b s').mpr h
    exact ⟨_, exec_ask.mpr ⟨r, s, t, rfl, hr, hexec⟩, (hdistributed r t).trans ht⟩

end LeaveAlike

/-! ### Response channels -/

/-- The command without its response channel. -/
def StoreCommand.silent : StoreCommand → StoreCommand
  | saveUnsignedEvent event scope _ => saveUnsignedEvent event scope none
  | saveSignedEvent event scope _ => saveSignedEvent event scope none
  | deleteEvents filter scope _ => deleteEvents filter scope none

section Silent

variable (hanswers : StoreOnly answers)

include hanswers

theorem respond_bind_alike (handler : Option OneshotRef) (result : Except Error Unit)
    {k : Unit → Relay β} :
    LeaveAlike answers ((SubscriptionCoordinator.respond handler result).bind k) (k ()) := by
  cases handler with
  | none => exact .refl _
  | some tx => exact .skip hanswers (.respond tx result) trivial (fun _ => rfl) fun _ => .refl _

theorem respondSaved_bind_alike (event : Event) (saveResult : Except Error Unit)
    (handler : Option ResponseHandler) {k : Unit → Relay β} :
    LeaveAlike answers ((SubscriptionCoordinator.respondSaved event saveResult handler).bind k)
      (k ()) := by
  match handler with
  | none => exact .refl _
  | some (.oneshot tx) =>
    exact .skip hanswers (.respond tx _) trivial (fun _ => rfl) fun _ => .refl _
  | some (.messageSender sender) =>
    exact .skip hanswers (.trySend sender.channel _) trivial (fun _ => rfl) fun _ => .refl _

/-- A response channel does not change what a command leaves. -/
theorem saveAndBroadcast_silent (kinds : KindRanges) (command : StoreCommand) :
    LeaveAlike answers (SubscriptionCoordinator.saveAndBroadcast kinds command)
      (SubscriptionCoordinator.saveAndBroadcast kinds command.silent) := by
  match command with
  | .deleteEvents filter scope handler =>
    exact LeaveAlike.bind (.refl _) fun r => respond_bind_alike hanswers handler _
  | .saveSignedEvent event scope handler =>
    exact LeaveAlike.bind (.refl _) fun r => respondSaved_bind_alike hanswers event r handler
  | .saveUnsignedEvent event scope handler =>
    rw [StoreCommand.silent, SubscriptionCoordinator.saveAndBroadcast,
      SubscriptionCoordinator.saveAndBroadcast]
    split
    · exact LeaveAlike.andThen (.refl _) fun _ => respond_bind_alike hanswers handler _
    · exact LeaveAlike.andThen (.refl _) fun _ => respond_bind_alike hanswers handler _

theorem execute_alike {kinds : KindRanges} {command command' : StoreCommand}
    (h : command.silent = command'.silent) :
    LeaveAlike answers (RelayMiddleware.execute kinds command)
      (RelayMiddleware.execute kinds command') := by
  have hsilent := saveAndBroadcast_silent hanswers kinds command
  rw [h] at hsilent
  exact (hsilent.trans (saveAndBroadcast_silent hanswers kinds command').symm).mapError

/-- Commands that differ only in their response channels. -/
theorem forEach_alike {kinds : KindRanges} {commands commands' : List StoreCommand}
    (h : commands.map StoreCommand.silent = commands'.map StoreCommand.silent) :
    LeaveAlike answers (Script.forEach (RelayMiddleware.execute kinds) commands)
      (Script.forEach (RelayMiddleware.execute kinds) commands') := by
  induction commands generalizing commands' with
  | nil =>
    rw [List.map_eq_nil_iff.mp h.symm]
    exact .refl _
  | cons command commands ih =>
    obtain ⟨command', rest, rfl, hcommand, hrest⟩ := List.map_eq_cons_iff.mp h.symm
    exact (execute_alike hanswers hcommand.symm).andThen fun _ => ih hrest.symm

end Silent

/-! ### The order of the processor -/

/-- The first `SaveSignedEvent`, and then all others in the order of the processor. -/
def inOrder (commands : List StoreCommand) : List StoreCommand :=
  (commands.find? StoreCommand.isSaveSignedEvent).toList ++
    commands.eraseP StoreCommand.isSaveSignedEvent

/-- Whenever `handle_event` succeeds with these commands, it broadcasts and leaves in the store what
the commands do in their order. -/
def LeavesInOrder (kinds : KindRanges) (commands : List StoreCommand) : Prop :=
  ∀ (σ : Type) (answers : Script.Answers RelayCall.Answer σ), StoreOnly answers →
    ∀ (sender : MessageSender) (event : Event) (s s' : σ) (t : RelayHistory),
      Exec answers (RelayMiddleware.handleEvent kinds sender event) s t (.ok ()) s' →
      processed t = some (.ok commands) →
      Leaves answers (Script.forEach (RelayMiddleware.execute kinds) (inOrder commands)) s
        (distributedEvents t) (.ok ()) s'

theorem inOrder_of_not_save {commands : List StoreCommand}
    (h : ∀ command ∈ commands, command.isSaveSignedEvent = false) :
    inOrder commands = commands := by
  rw [inOrder, List.find?_eq_none.mpr fun command hc => by simp [h command hc],
    List.eraseP_of_forall_not fun command hc => by simp [h command hc]]
  rfl

theorem inOrder_firstSave {before : List StoreCommand}
    (h : ∀ command ∈ before, command.isSaveSignedEvent = false) (event : Event) (scope : Scope)
    (handler : Option ResponseHandler) (after : List StoreCommand) :
    inOrder (before ++ .saveSignedEvent event scope handler :: after) =
      .saveSignedEvent event scope handler :: (before ++ after) := by
  have hbefore : ∀ command ∈ before, ¬ command.isSaveSignedEvent = true :=
    fun command hc => by simp [h command hc]
  rw [inOrder, List.find?_append, List.find?_eq_none.mpr hbefore,
    List.eraseP_append_right _ hbefore, List.find?_cons_of_pos rfl, List.eraseP_cons_of_pos rfl]
  rfl

/-- A `handle_event` that succeeds executes the commands of the processor. -/
theorem leaves_handleEvent (hanswers : StoreOnly answers) {kinds : KindRanges}
    {sender : MessageSender} {event : Event} {commands : List StoreCommand} {t : RelayHistory}
    (hexec : Exec answers (RelayMiddleware.handleEvent kinds sender event) s t (.ok ()) s')
    (hprocessed : processed t = some (.ok commands)) :
    Leaves answers (RelayMiddleware.executeAll kinds sender commands) s (distributedEvents t)
      (.ok ()) s' := by
  obtain ⟨context, s₁, t₁, rfl, hcontext, h₁⟩ := exec_request_bind.mp hexec
  obtain rfl := hanswers.keeps .eventContext _ _ _ trivial hcontext
  obtain ⟨answer, s₂, t₂, rfl, hanswer, h₂⟩ := exec_ask.mp h₁
  obtain rfl := hanswers.keeps (.handleEvent event context) _ _ _ trivial hanswer
  obtain rfl : answer = .ok commands := Option.some.inj hprocessed
  obtain ⟨coordinator, s₃, t₃, rfl, hcoordinator, h₃⟩ := exec_request_bind.mp h₂
  obtain rfl := hanswers.keeps .subscriptionCoordinator _ _ _ trivial hcoordinator
  match coordinator with
  | none => exact nomatch (exec_done.mp h₃).2.1
  | some coordinator => exact ⟨t₃, h₃, rfl⟩

/-- The commands behind the first `SaveSignedEvent` do the same, apart from whom they answer. -/
def SameBehindSave (commands : List StoreCommand) : Prop :=
  ∀ before event after, FirstSave commands before event after →
    ∀ command ∈ after, ∀ command' ∈ after, command.silent = command'.silent

theorem leavesInOrder_of_same {kinds : KindRanges} {commands : List StoreCommand}
    (hsame : SameBehindSave commands) : LeavesInOrder kinds commands := by
  intro σ answers hanswers sender event s s' t hexec hprocessed
  have hall := leaves_handleEvent hanswers hexec hprocessed
  obtain h | ⟨before, saved, after, hfirst⟩ := firstSave_or commands
  · rwa [inOrder_of_not_save h, ← executeAll_of_not_save kinds sender h]
  · have hafter := hsame before saved after hfirst
    obtain ⟨_, scope, handler, h⟩ := hfirst
    rw [executeAll_firstSave kinds sender h] at hall
    rw [inOrder_firstSave h]
    have hsave : LeaveAlike answers
        (RelayMiddleware.execute kinds
          (.saveSignedEvent saved scope (some (.messageSender sender))))
        (RelayMiddleware.execute kinds (.saveSignedEvent saved scope handler)) :=
      execute_alike hanswers rfl
    refine (hsave.andThen (fun _ => forEach_alike hanswers ?_) _ _ _ _).mp hall
    obtain rfl | ⟨init, last, rfl⟩ := after.eq_nil_or_concat
    · rw [swapRemove_last, List.append_nil]
    · rw [List.concat_eq_append] at hafter ⊢
      rw [swapRemove_concat, List.map_append, List.map_append, List.map_cons]
      congr 1
      -- both are lists of the same command
      have hlast : ∀ command ∈ init, command.silent = last.silent := fun command hc =>
        hafter command (List.mem_append_left _ hc) last
          (List.mem_append_right _ (List.mem_singleton_self last))
      have hinit : init.map StoreCommand.silent = List.replicate init.length last.silent :=
        List.eq_replicate_iff.mpr ⟨List.length_map _, by simpa using hlast⟩
      rw [List.map_append, hinit, List.map_singleton, ← List.replicate_succ', List.replicate_succ]

/-! ### A store that remembers its commands -/

/-- The commands that a store executed, and whether an event is being signed for one of them. -/
structure CommandLog where
  executed : List StoreCommand
  signing : Bool
  deriving DecidableEq

/-- A store that succeeds, and writes down what it is told to do. The processor answers with the
commands. -/
def CommandLog.answer (commands : List StoreCommand) :
    (q : RelayCall) → CommandLog → q.Answer × CommandLog
  | .handleEvent _ _, log => (.ok commands, log)
  | .queueReplaceable event scope, log =>
    (.ok (), { log with executed := log.executed ++ [.saveUnsignedEvent event scope none] })
  | .queueForSigning event scope, log =>
    (.ok (), ⟨log.executed ++ [.saveUnsignedEvent event scope none], true⟩)
  | .saveEvent event scope, log =>
    (.ok .success, if log.signing then { log with signing := false }
      else { log with executed := log.executed ++ [.saveSignedEvent event scope none] })
  | .delete filter scope, log =>
    (.ok (), { log with executed := log.executed ++ [.deleteEvents filter scope none] })
  | q, log => (q.succeed, log)

theorem CommandLog.storeOnly (commands : List StoreCommand) :
    StoreOnly (decided (CommandLog.answer commands)) where
  keeps q s r s' hq h := by
    cases q <;> first | exact (Prod.mk.inj h).2.symm | exact hq.elim
  answered q s hq := by
    cases q <;> first | exact ⟨_, rfl⟩ | exact hq.elim

/-- The script succeeds, and the store has written down these commands. -/
def LogsOnly (commands : List StoreCommand) (p : Relay (Except Error Unit))
    (new : List StoreCommand) : Prop :=
  ∀ executed, ∃ t, p.play (CommandLog.answer commands) ⟨executed, false⟩ =
    ⟨.ok (), ⟨executed ++ new, false⟩, t⟩

theorem logs_execute (kinds : KindRanges) (commands : List StoreCommand) (command : StoreCommand) :
    LogsOnly commands (RelayMiddleware.execute kinds command) [command.silent] := by
  intro executed
  match command with
  | .deleteEvents _ _ none | .deleteEvents _ _ (some _) => exact ⟨_, rfl⟩
  | .saveSignedEvent _ _ none | .saveSignedEvent _ _ (some (.oneshot _))
  | .saveSignedEvent _ _ (some (.messageSender _)) => exact ⟨_, rfl⟩
  | .saveUnsignedEvent event scope handler =>
    rw [RelayMiddleware.execute, SubscriptionCoordinator.saveAndBroadcast]
    split
    · cases handler <;> exact ⟨_, rfl⟩
    · cases handler <;> exact ⟨_, rfl⟩

theorem LogsOnly.andThen {commands new new' : List StoreCommand} {p : Relay (Except Error Unit)}
    {k : Unit → Relay (Except Error Unit)} (h : LogsOnly commands p new)
    (h' : LogsOnly commands (k ()) new') : LogsOnly commands (p.andThen k) (new ++ new') := by
  intro executed
  obtain ⟨t, ht⟩ := h executed
  obtain ⟨t', ht'⟩ := h' (executed ++ new)
  refine ⟨t ++ t', ?_⟩
  rw [Script.andThen, play_bind, ht]
  dsimp only
  rw [ht', List.append_assoc]

theorem logs_forEach (kinds : KindRanges) (commands executed : List StoreCommand) :
    LogsOnly commands (Script.forEach (RelayMiddleware.execute kinds) executed)
      (executed.map StoreCommand.silent) := by
  induction executed with
  | nil => exact fun executed => ⟨[], by rw [List.map_nil, List.append_nil]; rfl⟩
  | cons command executed ih => exact (logs_execute kinds commands command).andThen ih

/-- What `handle_event` does when the processor answers with the commands. -/
theorem play_handleEvent {kinds : KindRanges} {sender : MessageSender}
    {commands : List StoreCommand} {log log' : CommandLog} {r : Except Error Unit}
    {t : RelayHistory} (event : Event)
    (h : (RelayMiddleware.executeAll kinds sender commands).play (CommandLog.answer commands) log =
      ⟨r, log', t⟩) :
    (RelayMiddleware.handleEvent kinds sender event).play (CommandLog.answer commands) log =
      ⟨r, log', ⟨.eventContext, ⟨none, .default, 0⟩⟩ ::
        ⟨.handleEvent event ⟨none, .default, 0⟩, .ok commands⟩ ::
        ⟨.subscriptionCoordinator, some ⟨"alice", ⟨0, 0⟩, 500⟩⟩ :: t⟩ := by
  refine Eq.trans ?_ (congrArg (fun o : Script.Outcome RelayCall.Answer CommandLog _ =>
    (⟨o.value, o.state, ⟨.eventContext, ⟨none, .default, 0⟩⟩ ::
      ⟨.handleEvent event ⟨none, .default, 0⟩, .ok commands⟩ ::
      ⟨.subscriptionCoordinator, some ⟨"alice", ⟨0, 0⟩, 500⟩⟩ :: o.history⟩ :
        Script.Outcome RelayCall.Answer CommandLog _)) h)
  rfl

/-- A list that looks the same when its last element comes first. -/
theorem eq_of_rotate {γ : Type} {l : List γ} {a : γ} (h : a :: l = l ++ [a]) :
    ∀ b ∈ l, b = a := by
  induction l with
  | nil => exact nofun
  | cons b l ih =>
    obtain ⟨rfl, h⟩ := List.cons.inj h
    exact List.forall_mem_cons.mpr ⟨rfl, ih h⟩

theorem same_of_leavesInOrder {kinds : KindRanges} {commands : List StoreCommand}
    (hleaves : LeavesInOrder kinds commands) : SameBehindSave commands := by
  intro before saved after hfirst
  obtain ⟨_, scope, handler, h⟩ := hfirst
  obtain rfl | ⟨init, last, rfl⟩ := after.eq_nil_or_concat
  · exact nofun
  rw [List.concat_eq_append] at hleaves ⊢
  set commands := before ++ StoreCommand.saveSignedEvent saved scope handler :: (init ++ [last])
    with hcommands
  obtain ⟨t, ht⟩ := ((logs_execute kinds commands
    (.saveSignedEvent saved scope (some (.messageSender ⟨0, 0⟩)))).andThen (k := fun _ => _)
      (logs_forEach kinds commands (before ++ last :: init))) []
  have hall : RelayMiddleware.executeAll kinds ⟨0, 0⟩ commands =
      (RelayMiddleware.execute kinds
        (.saveSignedEvent saved scope (some (.messageSender ⟨0, 0⟩)))).andThen fun _ =>
        Script.forEach (RelayMiddleware.execute kinds) (before ++ last :: init) := by
    rw [hcommands, executeAll_firstSave kinds ⟨0, 0⟩ h, swapRemove_concat]
  rw [← hall] at ht
  have hplay := play_handleEvent saved ht
  obtain ⟨t', hexec, -⟩ := hleaves CommandLog (decided (CommandLog.answer commands))
    (CommandLog.storeOnly commands) ⟨0, 0⟩ saved _ _ _ (exec_decided.mpr hplay) rfl
  obtain ⟨t'', hinOrder⟩ := logs_forEach kinds commands (inOrder commands) []
  have hlog := (Script.Outcome.mk.inj ((exec_decided.mp hexec).symm.trans hinOrder)).2.1
  rw [hcommands, inOrder_firstSave h] at hlog
  have hrotate : last.silent :: init.map StoreCommand.silent =
      init.map StoreCommand.silent ++ [last.silent] := by
    obtain ⟨-, hrest⟩ := List.cons.inj (CommandLog.mk.inj hlog).1
    simpa using hrest
  have hlast : ∀ command ∈ init ++ [last], command.silent = last.silent := by
    refine List.forall_mem_append.mpr ⟨fun command hc => ?_, by simp⟩
    exact eq_of_rotate hrotate _ (List.mem_map_of_mem hc)
  exact fun command hc command' hc' => (hlast command hc).trans (hlast command' hc').symm

/-- **When the commands run in the order of the processor.** What `handle_event` broadcasts and
leaves in the store is what the first `SaveSignedEvent` and then all other commands in their order
do, over every store, exactly if the commands behind the first `SaveSignedEvent` do the same: there
is at most one of them, or they differ only in their response channels. -/
theorem leavesInOrder_iff (kinds : KindRanges) (commands : List StoreCommand) :
    LeavesInOrder kinds commands ↔ SameBehindSave commands :=
  ⟨same_of_leavesInOrder, leavesInOrder_of_same⟩

/-- A store of one scope that always succeeds, to evaluate examples with. -/
def keepEvents (commands : List StoreCommand) : (q : RelayCall) → Events → q.Answer × Events
  | .handleEvent _ _, events => (.ok commands, events)
  | .saveEvent event _, events => (.ok .success, events ++ [event])
  | .delete filter _, events => (.ok (), events.filter fun event => !filter.matchEvent event)
  | q, events => (q.succeed, events)

/-- The event itself, and one derived from it that takes the place of an older version. -/
def replaceDerived : List StoreCommand :=
  [.saveSignedEvent (Event.note 5) .default none,
    .deleteEvents { Filter.new with ids := some ⟨[6], List.nodup_singleton _⟩ } .default none,
    .saveSignedEvent (Event.note 6) .default none]

/-- The derived event is saved before the older version is deleted, and so it is deleted. -/
theorem derived_event_deleted :
    ¬ ∀ (kinds : KindRanges) (commands : List StoreCommand), LeavesInOrder kinds commands := by
  intro hall
  have hstore : StoreOnly (decided (keepEvents replaceDerived)) := by
    refine ⟨fun q s r s' hq h => ?_, fun q s hq => ?_⟩
    · cases q <;> first | exact (Prod.mk.inj h).2.symm | exact hq.elim
    · cases q <;> first | exact ⟨_, rfl⟩ | exact hq.elim
  obtain ⟨t, hexec, -⟩ := hall .nip01 replaceDerived Events _ hstore ⟨0, 0⟩ (Event.note 5) []
    [Event.note 5] _ (exec_decided.mpr rfl) rfl
  have hstate := (Script.Outcome.mk.inj (exec_decided.mp hexec)).2.1
  exact absurd hstate (by decide)

end RelayBuilder
