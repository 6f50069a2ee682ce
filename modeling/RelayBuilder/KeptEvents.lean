import RelayBuilder.BufferTask
import RelayBuilder.Broadcasting

/-!
# The events that the buffer keeps

Of the events that are inserted between two flushes, the buffer keeps the last one for each
author, kind and scope, and `flush` saves and distributes these. For an addressable kind this is
less than what such an event replaces: of two events with different identifiers only the last one
is kept.

## Main definitions

* `insertAll`: the buffer after a sequence of inserts
* `KeepsLast`: a flush saves and distributes the last event for each value of a key, and no others
* `address`: what a replaceable or addressable event replaces

## Main results

* `lookup_insertAll`: what the buffer holds are the last events for its keys
* `keepsLast_bufferKey`: these are saved and distributed, once each, and nothing else is
-/

namespace RelayBuilder

open Interleave Script

/-! ### The last one with a key -/

/-- The element is the last one of the list with its key. -/
def IsLast {α κ : Type} (key : α → κ) (items : List α) (item : α) : Prop :=
  ∃ before after, items = before ++ item :: after ∧ ∀ later ∈ after, key later ≠ key item

section IsLast

variable {α κ : Type} {key : α → κ} {items : List α} {item item' : α}

theorem not_isLast_nil : ¬ IsLast key [] item := by
  rintro ⟨before, after, heq, -⟩
  simp at heq

/-- A new element takes the place of those with its key. -/
theorem isLast_concat :
    IsLast key (items ++ [item']) item ↔
      item = item' ∨ key item' ≠ key item ∧ IsLast key items item := by
  constructor
  · rintro ⟨before, after, heq, hlast⟩
    rcases after.eq_nil_or_concat with rfl | ⟨after, last, rfl⟩
    · left
      simpa using (List.append_inj' heq rfl).2.symm
    · right
      have hsplit : items ++ [item'] = (before ++ item :: after) ++ [last] := by simpa using heq
      obtain ⟨rfl, hitem⟩ := List.append_inj' hsplit rfl
      obtain rfl : item' = last := by simpa using hitem
      rw [List.concat_eq_append] at hlast
      refine ⟨hlast item' (by simp), before, after, rfl, fun later hlater => ?_⟩
      exact hlast later (List.mem_append_left _ hlater)
  · rintro (rfl | ⟨hne, before, after, rfl, hlast⟩)
    · exact ⟨items, [], rfl, by simp⟩
    · refine ⟨before, after ++ [item'], by simp, fun later hlater => ?_⟩
      obtain hlater | hlater := List.mem_append.mp hlater
      · exact hlast later hlater
      · rwa [List.mem_singleton.mp hlater]

/-- Every element has a last one with its key. -/
theorem exists_isLast (h : item ∈ items) : ∃ last, IsLast key items last ∧ key last = key item := by
  induction items using List.reverseRecOn with
  | nil => cases h
  | append_singleton items item' ih =>
    by_cases hkey : key item' = key item
    · exact ⟨item', isLast_concat.mpr (.inl rfl), hkey⟩
    · obtain hitem | hitem := List.mem_append.mp h
      · obtain ⟨last, hlast, hsame⟩ := ih hitem
        exact ⟨last, isLast_concat.mpr (.inr ⟨hsame ▸ hkey, hlast⟩), hsame⟩
      · exact absurd (congrArg key (List.mem_singleton.mp hitem)).symm hkey

end IsLast

/-! ### The buffer after a sequence of inserts -/

/-- The buffer after these events were inserted, one after another. -/
def insertAll (kinds : KindRanges) (items : List (UnsignedEvent × Scope)) :
    ReplaceableEventsBuffer :=
  items.foldl (fun buffer item => buffer.insert kinds item.1 item.2) ∅

/-- The event of an entry of the buffer, with its scope, as `flush` takes them out. -/
def bufferedItem (entry : Sigma fun _ : PublicKey × Kind × Scope => UnsignedEvent) :
    UnsignedEvent × Scope :=
  (entry.2, entry.1.2.2)

/-- Every event is buffered under its own key. -/
def Keyed (buffer : ReplaceableEventsBuffer) : Prop :=
  ∀ entry ∈ buffer.entries, bufferKey (bufferedItem entry) = entry.1

variable {kinds : KindRanges} {buffer : ReplaceableEventsBuffer}
  {items : List (UnsignedEvent × Scope)} {item item' : UnsignedEvent × Scope}

theorem insertAll_concat :
    insertAll kinds (items ++ [item]) = (insertAll kinds items).insert kinds item.1 item.2 := by
  rw [insertAll, List.foldl_append]
  rfl

theorem Keyed.insert (h : Keyed buffer) :
    Keyed (buffer.insert kinds item.1 item.2) := by
  rw [ReplaceableEventsBuffer.insert]
  split
  · exact h
  · rw [Keyed, AList.entries_insert]
    refine List.forall_mem_cons.mpr ⟨rfl, fun entry hentry => h entry ?_⟩
    exact (List.kerase_sublist _ _).subset hentry

theorem keyed_insertAll : Keyed (insertAll kinds items) := by
  induction items using List.reverseRecOn with
  | nil =>
    intro entry hentry
    cases hentry
  | append_singleton items item ih =>
    rw [insertAll_concat]
    exact ih.insert

/-- The events of a buffer are those that are found under their keys. -/
theorem mem_items_iff (h : Keyed buffer) :
    item ∈ buffer.entries.map bufferedItem ↔ buffer.lookup (bufferKey item) = some item.1 := by
  rw [← Option.mem_def, AList.mem_lookup_iff, List.mem_map]
  constructor
  · rintro ⟨entry, hentry, rfl⟩
    rw [h entry hentry]
    exact hentry
  · intro hentry
    exact ⟨_, hentry, rfl⟩

theorem eq_of_bufferKey (hkey : bufferKey item' = bufferKey item) (hevent : item'.1 = item.1) :
    item' = item :=
  Prod.ext hevent (congrArg (fun key => key.2.2) hkey)

theorem insert_of_buffered (hitem : Buffered kinds item) :
    buffer.insert kinds item.1 item.2 = AList.insert (bufferKey item) item.1 buffer := by
  rw [ReplaceableEventsBuffer.insert, if_neg]
  · rfl
  · simpa [Buffered, or_iff_not_imp_left] using hitem

/-- An insert takes the place of what was buffered under its key. -/
theorem lookup_insert_iff (hitem : Buffered kinds item') :
    (buffer.insert kinds item'.1 item'.2).lookup (bufferKey item) = some item.1 ↔
      item = item' ∨
        bufferKey item' ≠ bufferKey item ∧ buffer.lookup (bufferKey item) = some item.1 := by
  rw [insert_of_buffered hitem]
  by_cases hkey : bufferKey item' = bufferKey item
  · rw [← hkey, AList.lookup_insert]
    constructor
    · intro h
      exact .inl (eq_of_bufferKey hkey (Option.some.inj h)).symm
    · rintro (rfl | ⟨hne, -⟩)
      · rfl
      · exact absurd rfl hne
  · rw [AList.lookup_insert_ne (Ne.symm hkey)]
    constructor
    · intro h
      exact .inr ⟨hkey, h⟩
    · rintro (rfl | ⟨-, h⟩)
      · exact absurd rfl hkey
      · exact h

/-- **The last ones are buffered.** An event is in the buffer exactly if it is the last one that
was inserted for its key. -/
theorem lookup_insertAll (hitems : ∀ item ∈ items, Buffered kinds item) :
    (insertAll kinds items).lookup (bufferKey item) = some item.1 ↔
      IsLast bufferKey items item := by
  induction items using List.reverseRecOn with
  | nil => exact iff_of_false (by simp [insertAll]) not_isLast_nil
  | append_singleton items last ih =>
    obtain ⟨hinit, hlast⟩ := List.forall_mem_append.mp hitems
    rw [insertAll_concat, lookup_insert_iff (hlast last (by simp)), ih hinit, isLast_concat]

/-! ### What a flush saves -/

/-- The signing and the saving that a question asks for succeed: what is signed is handed back for
the same scope, and the store takes it. -/
def Succeeds (signs : UnsignedEvent → Event → Prop) : Asked → Prop
  | ⟨.queueForSigning _ _, r⟩ => r = .ok ()
  | ⟨.awaitSigned event scope, r⟩ => ∃ signed handler,
    signs event signed ∧ r = some (.ok (some (.saveSignedEvent signed scope handler)))
  | ⟨.scopedView _, r⟩ => r = .ok ()
  | ⟨.saveEvent _ _, r⟩ => r = .ok .success
  | _ => True

/-- A saved event is the signed form of an event of the buffer, in its scope. -/
def SavedFrom (signs : UnsignedEvent → Event → Prop) (item : UnsignedEvent × Scope)
    (saved : Event × Scope) : Prop :=
  signs item.1 saved.1 ∧ saved.2 = item.2

variable {signs : UnsignedEvent → Event → Prop} {t : RelayHistory}

theorem saveEvent_succeeds {event : Event} {scope : Scope} {r : Except String Unit}
    (hrun : Runs (RelayDatabase.saveEvent event scope) t r)
    (hsucceeds : ∀ asked ∈ t, Succeeds signs asked) : r = .ok () := by
  obtain ⟨view, t₁, rfl, hsave⟩ := runs_request_bind.mp hrun
  obtain ⟨hview, hrest⟩ := List.forall_mem_cons.mp hsucceeds
  obtain rfl : view = .ok () := hview
  obtain ⟨status, t₂, rfl, hdone⟩ := runs_request_bind.mp hsave
  obtain ⟨hstatus, -⟩ := List.forall_mem_cons.mp hrest
  obtain rfl : status = .ok .success := hstatus
  exact (runs_done.mp hdone).2

/-- One turn of the loop of `flush` saves the event that it signs. -/
theorem flushEvent_saves {item : UnsignedEvent × Scope} {u : Unit}
    (hrun : Runs (ReplaceableEventsBuffer.flushEvent item.1 item.2) t u)
    (hsucceeds : ∀ asked ∈ t, Succeeds signs asked) :
    ∃ saved, SavedFrom signs item saved ∧ savedEvents t = [saved] := by
  obtain ⟨t₁, r₁, t₂, rfl, hsign, hsigned⟩ := runs_bind.mp hrun
  obtain ⟨queued, t₀, rfl, hdone⟩ := runs_request_bind.mp hsign
  obtain ⟨rfl, rfl⟩ := runs_done.mp hdone
  obtain ⟨hqueued, hawaits⟩ := List.forall_mem_cons.mp hsucceeds
  obtain rfl : queued = .ok () := hqueued
  obtain ⟨answer, t₃, rfl, hanswer⟩ := runs_request_bind.mp hsigned
  obtain ⟨⟨signed, handler, hsigns, rfl⟩, hstores⟩ := List.forall_mem_cons.mp hawaits
  obtain ⟨t₄, r₄, t₅, rfl, hsave, hrest⟩ := runs_bind.mp hanswer
  obtain ⟨hsaves, -⟩ := List.forall_mem_append.mp hstores
  obtain rfl := saveEvent_succeeds hsave hsaves
  obtain ⟨u', t₆, rfl, hend⟩ := runs_request_bind.mp hrest
  obtain ⟨rfl, -⟩ := runs_done.mp hend
  refine ⟨(signed, item.2), ⟨hsigns, rfl⟩, ?_⟩
  have hevents : savedEvents t₄ = [(signed, item.2)] := by
    simpa using (saveEvent_saves signed item.2 t₄ _ hsave).2
  show savedEvents (t₄ ++ [⟨.distributeEvent signed item.2, u'⟩]) = _
  rw [savedEvents_append, hevents]
  rfl

theorem forM_saves {entries : List (Sigma fun _ : PublicKey × Kind × Scope => UnsignedEvent)}
    {u : PUnit}
    (hrun : Runs (entries.forM fun entry =>
      ReplaceableEventsBuffer.flushEvent entry.2 entry.1.2.2) t u)
    (hsucceeds : ∀ asked ∈ t, Succeeds signs asked) :
    List.Forall₂ (SavedFrom signs) (entries.map bufferedItem) (savedEvents t) := by
  induction entries generalizing t with
  | nil =>
    obtain ⟨rfl, -⟩ := runs_done.mp hrun
    exact .nil
  | cons entry entries ih =>
    obtain ⟨t₁, u₁, t₂, rfl, hfirst, hrest⟩ := runs_bind.mp hrun
    obtain ⟨hsucceeds₁, hsucceeds₂⟩ := List.forall_mem_append.mp hsucceeds
    obtain ⟨saved, hsaved, heq⟩ := @flushEvent_saves _ _ (bufferedItem entry) _ hfirst hsucceeds₁
    rw [savedEvents_append, heq]
    exact .cons hsaved (ih hrest hsucceeds₂)

/-- For each value of the key that occurs, the last event is saved and distributed, once, and
nothing else is. -/
def KeepsLast {κ : Type} (signs : UnsignedEvent → Event → Prop) (key : UnsignedEvent × Scope → κ)
    (items : List (UnsignedEvent × Scope)) (t : RelayHistory) : Prop :=
  ∃ kept : List (UnsignedEvent × Scope),
    (∀ item ∈ items, key item ∈ kept.map key) ∧ (kept.map key).Nodup ∧
      (∀ item, item ∈ kept ↔ IsLast key items item) ∧
      List.Forall₂ (SavedFrom signs) kept (savedEvents t) ∧ distributedEvents t = savedEvents t

/-- **The last event for each author, kind and scope** is saved and distributed, once, and nothing
else is, if every signing and saving succeeds. -/
theorem keepsLast_bufferKey (kinds : KindRanges) (signs : UnsignedEvent → Event → Prop)
    (order : HashOrder) (items : List (UnsignedEvent × Scope)) (t : RelayHistory)
    (left : ReplaceableEventsBuffer) (hitems : ∀ item ∈ items, Buffered kinds item)
    (hrun : Runs ((insertAll kinds items).flush order) t left)
    (hsucceeds : ∀ asked ∈ t, Succeeds signs asked) : KeepsLast signs bufferKey items t := by
  have hpaired := flush_paired order (insertAll kinds items) t left hrun
  obtain ⟨t₁, u, t₂, rfl, hloop, hend⟩ := runs_bind.mp hrun
  obtain ⟨rfl, -⟩ := runs_done.mp hend
  rw [List.append_nil] at hsucceeds hpaired ⊢
  have hperm : ((order.iter (insertAll kinds items).entries).map bufferedItem).Perm
      ((insertAll kinds items).entries.map bufferedItem) := (order.perm _).map _
  have hkept : ∀ item, item ∈ (order.iter (insertAll kinds items).entries).map bufferedItem ↔
      IsLast bufferKey items item := fun item => by
    rw [hperm.mem_iff, mem_items_iff keyed_insertAll, lookup_insertAll hitems]
  refine ⟨_, fun item hitem => ?_, ?_, hkept, forM_saves hloop hsucceeds, hpaired⟩
  · obtain ⟨last, hlast, hkey⟩ := @exists_isLast _ _ bufferKey _ _ hitem
    exact hkey ▸ List.mem_map_of_mem ((hkept last).mpr hlast)
  · have hkeys : ((insertAll kinds items).entries.map bufferedItem).map bufferKey =
        (insertAll kinds items).entries.keys := by
      rw [List.map_map]
      exact List.map_congr_left fun entry hentry => keyed_insertAll entry hentry
    rw [(hperm.map bufferKey).nodup_iff, hkeys]
    exact (insertAll kinds items).nodupKeys

/-! ### Two groups -/

/-- The value of the `d` tag of an event. -/
def dTagValue (event : UnsignedEvent) : Option String :=
  (event.tags.find? fun tag => tag.kind == "d").bind fun tag => tag.values.head?

/-- What an event replaces: the events with its author, kind and scope, and for an addressable kind
with its identifier. -/
def address (kinds : KindRanges) (item : UnsignedEvent × Scope) :
    PublicKey × Kind × Scope × Option String :=
  (item.1.pubkey, item.1.kind, item.2,
    if kinds.isAddressable item.1.kind then dTagValue item.1 else none)

/-- The metadata of a group, as the relay publishes it. -/
private def groupMetadata (group : String) : UnsignedEvent × Scope :=
  (⟨1, 0, 39000, [⟨"d", [group]⟩], "welcome"⟩, .default)

private def twoGroups : List (UnsignedEvent × Scope) := [groupMetadata "oslo", groupMetadata "rome"]

private theorem buffered_twoGroups : ∀ item ∈ twoGroups, Buffered .nip01 item :=
  List.forall_mem_cons.mpr ⟨rfl, List.forall_mem_singleton.mpr rfl⟩

private def signedMetadata (event : UnsignedEvent) : Event :=
  ⟨7, event.pubkey, event.createdAt, event.kind, event.tags, event.content⟩

private def SignsMetadata (event : UnsignedEvent) (event' : Event) : Prop :=
  event' = signedMetadata event

/-- Every signing and saving succeeds. -/
private def signAndStore : (call : RelayCall) → call.Answer
  | .awaitSigned event scope =>
    some (.ok (some (.saveSignedEvent (signedMetadata event) scope none)))
  | call => call.succeed

private theorem succeeds_signAndStore (call : RelayCall) :
    Succeeds SignsMetadata ⟨call, signAndStore call⟩ := by
  cases call with
  | awaitSigned event scope => exact ⟨_, _, rfl, rfl⟩
  | queueForSigning | scopedView | saveEvent => rfl
  | _ => trivial

private def flushedGroups : RelayHistory :=
  (((insertAll .nip01 twoGroups).flush .insertion).under signAndStore).1

private theorem succeeds_flushedGroups :
    ∀ asked ∈ flushedGroups, Succeeds SignsMetadata asked := by
  rintro ⟨call, r⟩ hasked
  rw [mem_under hasked]
  exact succeeds_signAndStore call

private theorem savedEvents_flushedGroups :
    savedEvents flushedGroups = [(signedMetadata (groupMetadata "rome").1, .default)] := by
  decide

/-- The metadata of two groups are inserted, and that of the second one is saved. -/
theorem keepsLast_twoGroups :
    KeepsLast SignsMetadata bufferKey twoGroups flushedGroups :=
  keepsLast_bufferKey .nip01 SignsMetadata .insertion twoGroups flushedGroups _ buffered_twoGroups
    (runs_under _ _) succeeds_flushedGroups

/-- The metadata of the first group is dropped. -/
theorem identifiers_collide :
    ¬ ∀ (kinds : KindRanges) (signs : UnsignedEvent → Event → Prop) (order : HashOrder)
      (items : List (UnsignedEvent × Scope)) (t : RelayHistory) (left : ReplaceableEventsBuffer),
      (∀ item ∈ items, Buffered kinds item) →
      Runs ((insertAll kinds items).flush order) t left →
      (∀ asked ∈ t, Succeeds signs asked) → KeepsLast signs (address kinds) items t := by
  intro hall
  obtain ⟨kept, -, -, hkept, hsaved, -⟩ := hall .nip01 _ .insertion twoGroups flushedGroups _
    buffered_twoGroups (runs_under _ _) succeeds_flushedGroups
  have hoslo : groupMetadata "oslo" ∈ kept :=
    (hkept _).mpr ⟨[], [groupMetadata "rome"], rfl, by decide⟩
  have hrome : groupMetadata "rome" ∈ kept :=
    (hkept _).mpr ⟨[groupMetadata "oslo"], [], rfl, by decide⟩
  have hlength : kept.length = 1 := by
    rw [hsaved.length_eq, savedEvents_flushedGroups]
    rfl
  obtain ⟨item, rfl⟩ := List.length_eq_one_iff.mp hlength
  have hsame := (List.mem_singleton.mp hoslo).trans (List.mem_singleton.mp hrome).symm
  exact absurd hsame (by decide)

end RelayBuilder
