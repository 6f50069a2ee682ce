import RelayBuilder.DatabaseKeys
import Mathlib.Logic.Function.Basic

/-!
# The check of the database

The tool `nostr-lmdb-integrity` collects the ids of the stored events of all scopes into one set and
reports the entries of the other databases whose keys have an id outside of it. With `--wet-run` it
deletes what it reports.

So it misses an entry whose event is stored only in another scope, and it reports the records of
deleted events, which are in no scope any more.

## Main definitions

* `Database`, `LmdbEnv`: the databases by their names, with distinct keys
* `checkIntegrity`, `removeCorruptedEntries`
* `Dangling`: an entry of an index whose event is not stored in the scope of the entry
* `ChecksExactly`: the check reports the dangling entries, and their removal spares all others

## Main results

* `mem_removeCorruptedEntries`: removal deletes what was reported
* `checksExactly_iff`
-/

namespace RelayBuilder

open KeyBytes

/-! ### The databases -/

/-- A database of pairs of a key and a value. -/
structure Database where
  entries : List (Bytes × Bytes)
  keys_nodup : (entries.map Prod.fst).Nodup

/-- The environment: the databases that exist, by their names. -/
abbrev LmdbEnv := DatabaseName → Option Database

namespace Database

def keys (db : Database) : List Bytes := db.entries.map Prod.fst

/-- `Database::delete`. -/
def delete (db : Database) (key : Bytes) : Database where
  entries := db.entries.eraseP fun entry => entry.1 = key
  keys_nodup := db.keys_nodup.sublist (List.eraseP_sublist.map Prod.fst)

/-- The keys are distinct, so one deletion is enough. -/
theorem mem_keys_delete {db : Database} {key key' : Bytes} :
    key' ∈ (db.delete key).keys ↔ key' ∈ db.keys ∧ key' ≠ key := by
  obtain ⟨entries, hnodup⟩ := db
  simp only [keys, delete]
  induction entries with
  | nil => exact ⟨fun h => (nomatch h), fun h => (nomatch h.1)⟩
  | cons entry entries ih =>
    rw [List.map_cons, List.nodup_cons] at hnodup
    by_cases hentry : entry.1 = key
    · rw [List.eraseP_cons_of_pos (by exact decide_eq_true hentry), List.map_cons, List.mem_cons]
      refine ⟨fun h => ⟨.inr h, ?_⟩, fun ⟨h, hne⟩ => ?_⟩
      · rintro rfl
        exact hnodup.1 (hentry ▸ h)
      · exact h.resolve_left fun heq => hne (heq.trans hentry)
    · rw [List.eraseP_cons_of_neg (by simpa using hentry), List.map_cons, List.map_cons,
        List.mem_cons, List.mem_cons, ih hnodup.2]
      refine ⟨?_, fun ⟨h, hne⟩ => h.imp_right fun h => ⟨h, hne⟩⟩
      rintro (rfl | ⟨h, hne⟩)
      · exact ⟨.inl rfl, hentry⟩
      · exact ⟨.inr h, hne⟩

end Database

namespace LmdbEnv

/-- What an iteration over a database goes through. -/
def entries (env : LmdbEnv) (name : DatabaseName) : List (Bytes × Bytes) :=
  match env name with
  | some db => db.entries
  | none => []

/-- The keys of an iteration. -/
def keys (env : LmdbEnv) (name : DatabaseName) : List Bytes := (env.entries name).map Prod.fst

/-- Deletion leaves the other databases alone. -/
theorem mem_keys_update {env : LmdbEnv} {db : DatabaseName} {content : Database}
    (h : env db = some content) {key key' : Bytes} {db' : DatabaseName} :
    key' ∈ keys (Function.update env db (some (content.delete key))) db' ↔
      key' ∈ env.keys db' ∧ (db = db' → key ≠ key') := by
  by_cases hdb : db' = db
  · subst hdb
    simp only [keys, entries, Function.update_self, h]
    rw [← Database.keys, Database.mem_keys_delete, ← Database.keys]
    exact and_congr_right fun _ => ⟨fun hne _ => hne.symm, fun hne => (hne trivial).symm⟩
  · simp only [keys, entries, Function.update_of_ne hdb]
    exact ⟨fun h => ⟨h, fun heq => absurd heq.symm hdb⟩, And.left⟩

end LmdbEnv

/-! ### The tool -/

namespace IntegrityTool

/-- `CorruptedEntry`. -/
structure CorruptedEntry where
  database : DatabaseName
  key : Bytes
  eventId : String
  indexType : String
  scope : Option String
  deriving DecidableEq

def commonNames : List DatabaseName :=
  [⟨.events, false⟩, ⟨.events, true⟩,
    ⟨.index .ci, false⟩, ⟨.index .ci, true⟩,
    ⟨.index .tci, false⟩, ⟨.index .tci, true⟩,
    ⟨.index .aci, false⟩, ⟨.index .aci, true⟩,
    ⟨.index .akci, false⟩, ⟨.index .akci, true⟩,
    ⟨.index .atci, false⟩, ⟨.index .atci, true⟩,
    ⟨.index .ktci, false⟩, ⟨.index .ktci, true⟩,
    ⟨.index .deletedIds, false⟩, ⟨.index .deletedIds, true⟩,
    ⟨.deletedCoordinates, false⟩, ⟨.deletedCoordinates, true⟩,
    ⟨.globalScopeMetadata, false⟩]

/-- `discover_databases`, without the names `unknown_db_0` and so on, which `main` does not
check. -/
def discoverDatabases (env : LmdbEnv) : List DatabaseName :=
  List.filter (fun name => (env name).isSome) (commonNames ++ [⟨.unnamed, false⟩])

/-- `discover_scope_registry`: a later name replaces an earlier one with the same hash. -/
def discoverScopeRegistry (env : LmdbEnv) : ScopeRegistry :=
  let insert (registry : ScopeRegistry) (entry : Bytes × Bytes) : ScopeRegistry :=
    match fromUtf8 entry.1 with
    | some scopeName =>
      if entry.2.length = 4 then Function.update registry (bigEndian entry.2) (some scopeName)
      else registry
    | none => registry
  (env.entries ⟨.globalScopeMetadata, false⟩).foldl insert fun _ => none

/-- What `get_all_event_ids` adds for a key of `events_scoped`. -/
def scopedEventIds (key : Bytes) : Except Panic (List String) :=
  if key.length ≥ 12 then do
    let keyLen ← slice key 4 12
    let length ← addUsize 12 (bigEndian keyLen)
    if key.length = length ∧ bigEndian keyLen = 32 then do
      let eventId ← slice key 12 key.length
      .ok [hexEncode eventId]
    else .ok []
  else .ok []

/-- `get_all_event_ids`. -/
def getAllEventIds (env : LmdbEnv) : Except Panic (List String) := do
  let plainIds := (env.keys ⟨.unnamed, false⟩).flatMap fun key =>
    if key.length = 32 then [hexEncode key] else []
  let scopedIds ← (env.keys ⟨.events, true⟩).flatMapM scopedEventIds
  .ok (plainIds ++ scopedIds)

/-- What the check reports for the entry with a key. -/
def checkEntry (registry : ScopeRegistry) (existingEvents : List String) (db : DatabaseName)
    (key : Bytes) : Except Panic (List CorruptedEntry) := do
  match ← extractEventIdFromKey registry db key with
  | some info =>
    if info.eventId ∈ existingEvents then .ok []
    else .ok [⟨db, key, info.eventId, info.indexType, info.scope⟩]
  | none => .ok []

/-- The databases that `check_integrity` goes past. -/
def skipped (db : DatabaseName) : Bool :=
  db = ⟨.events, false⟩ ∨ db = ⟨.events, true⟩ ∨ db = ⟨.globalScopeMetadata, false⟩

/-- `check_integrity`. -/
def checkIntegrity (env : LmdbEnv) (databases : List DatabaseName) :
    Except Panic (List CorruptedEntry) := do
  let scopeRegistry := discoverScopeRegistry env
  let existingEvents ← getAllEventIds env
  databases.flatMapM fun db =>
    if skipped db then .ok []
    else (env.keys db).flatMapM (checkEntry scopeRegistry existingEvents db)

/-- `remove_corrupted_entries`. -/
def removeCorruptedEntries (env : LmdbEnv) (corruptedEntries : List CorruptedEntry) : LmdbEnv :=
  corruptedEntries.foldl (fun env entry =>
    match env entry.database with
    | some db => Function.update env entry.database (some (db.delete entry.key))
    | none => env) env

/-- **Removal** deletes exactly what was reported. -/
theorem mem_removeCorruptedEntries {env : LmdbEnv} {corruptedEntries : List CorruptedEntry}
    {db : DatabaseName} {key : Bytes} :
    key ∈ LmdbEnv.keys (removeCorruptedEntries env corruptedEntries) db ↔
      key ∈ env.keys db ∧ ∀ entry ∈ corruptedEntries, entry.database = db → entry.key ≠ key := by
  induction corruptedEntries generalizing env with
  | nil => exact ⟨fun h => ⟨h, fun _ he => (nomatch he)⟩, And.left⟩
  | cons entry corruptedEntries ih =>
    rw [List.forall_mem_cons, ← and_assoc]
    cases hdb : env entry.database with
    | none =>
      have hstep : removeCorruptedEntries env (entry :: corruptedEntries) =
          removeCorruptedEntries env corruptedEntries := by
        rw [removeCorruptedEntries, List.foldl_cons, hdb]
        rfl
      rw [hstep, ih]
      refine and_congr_left fun _ => ⟨fun h => ⟨h, ?_⟩, And.left⟩
      -- a database that does not exist has no keys
      rintro rfl
      rw [LmdbEnv.keys, LmdbEnv.entries, hdb] at h
      cases h
    | some content =>
      have hstep : removeCorruptedEntries env (entry :: corruptedEntries) =
          removeCorruptedEntries
            (Function.update env entry.database (some (content.delete entry.key)))
            corruptedEntries := by
        rw [removeCorruptedEntries, List.foldl_cons, hdb]
        rfl
      rw [hstep, ih, LmdbEnv.mem_keys_update hdb]

end IntegrityTool

/-! ### What an entry refers to -/

/-- The id of an event in a key of an index. -/
def Index.idIn (i : Index) (key : Bytes) : Option Bytes :=
  let between (start stop : ℕ) :=
    if stop ≤ key.length then some ((key.take stop).drop start) else none
  match i with
  | ci => between 8 40
  | tci => between 194 226
  | aci => between 40 72
  | akci => between 42 74
  | atci => between 226 258
  | ktci => between 196 228
  | deletedIds => if key.length = 32 then some key else none

/-- An event in a scope, or in none. -/
structure EventReference where
  scopeHash : Option Bytes
  eventId : Bytes

/-- The event that a key of an index refers to. -/
def Index.reference (i : Index) (scopedKeys : Bool) (key : Bytes) : Option EventReference :=
  if scopedKeys then
    match scopedHeader key with
    | .ok (some header) => (i.idIn header.originalKey).map (⟨some header.scopeHash, ·⟩)
    | _ => none
  else (i.idIn key).map (⟨none, ·⟩)

/-- The event is stored in its scope. -/
def Stored (env : LmdbEnv) (event : EventReference) : Prop :=
  event.eventId.length = 32 ∧
    match event.scopeHash with
    | none => event.eventId ∈ env.keys ⟨.unnamed, false⟩
    | some hash => ∃ key ∈ env.keys ⟨.events, true⟩, ∃ keyLen,
      scopedHeader key = .ok (some ⟨hash, keyLen, event.eventId⟩)

/-- An entry of an index refers to an event that is not stored in the scope of the entry. The
records of deleted events are not meant. -/
def Dangling (env : LmdbEnv) (db : DatabaseName) (key : Bytes) : Prop :=
  ∃ i, db.base = .index i ∧ i ≠ .deletedIds ∧ key ∈ env.keys db ∧
    ∃ event, i.reference db.scopedKeys key = some event ∧ ¬ Stored env event

namespace IntegrityTool

/-! ### The ids of the stored events -/

/-- The sum in the header of a key of `events_scoped` does not overflow. -/
def EventKeyReadable (key : Bytes) : Prop := 12 ≤ key.length → 12 + lengthField key < 2 ^ 64

/-- A key of `events_scoped` adds the id behind its header. -/
theorem scopedEventIds_spec {key : Bytes} (h : EventKeyReadable key) :
    ∃ ids, scopedEventIds key = .ok ids ∧ ∀ id, hexEncode id ∈ ids ↔
      id.length = 32 ∧ ∃ hash keyLen, scopedHeader key = .ok (some ⟨hash, keyLen, id⟩) := by
  obtain ⟨hshort, hheader⟩ | ⟨hlong, hover, hheader⟩ | ⟨hlong, hfits, hother, hheader⟩ |
    ⟨hlong, hfits, hlength, hheader⟩ := scopedHeader_cases key
  · refine ⟨[], if_neg (by omega), fun id => ⟨fun hid => (nomatch hid), ?_⟩⟩
    rintro ⟨-, _, _, hsome⟩
    cases hheader.symm.trans hsome
  · exact absurd (h hlong) (by omega)
  · refine ⟨[], ?_, fun id => ⟨fun hid => (nomatch hid), ?_⟩⟩
    · rw [scopedEventIds, if_pos hlong, slice_of_le (by decide) hlong]
      simp only [bind, Except.bind]
      rw [show addUsize 12 (bigEndian ((key.take 12).drop 4)) = .ok (12 + lengthField key) from
        addUsize_of_lt hfits]
      exact if_neg fun hand => hother hand.1
    · rintro ⟨-, _, _, hsome⟩
      cases hheader.symm.trans hsome
  · have hinner : ((key.take key.length).drop 12).length = lengthField key := by
      rw [List.length_drop, List.take_length]
      omega
    have hadd : addUsize 12 (bigEndian ((key.take 12).drop 4)) = .ok (12 + lengthField key) :=
      addUsize_of_lt hfits
    by_cases h32 : lengthField key = 32
    · refine ⟨[hexEncode ((key.take key.length).drop 12)], ?_, fun id => ?_⟩
      · rw [scopedEventIds, if_pos hlong, slice_of_le (by decide) hlong]
        simp only [bind, Except.bind, hadd, slice_of_le hlong le_rfl]
        exact if_pos ⟨hlength, h32⟩
      · rw [List.mem_singleton]
        refine ⟨fun hid => ?_, ?_⟩
        · obtain rfl := hexEncode_injective hid
          exact ⟨hinner.trans h32, _, _, hheader⟩
        · rintro ⟨-, _, _, hsome⟩
          cases hheader.symm.trans hsome
          rfl
    · refine ⟨[], ?_, fun id => ⟨fun hid => (nomatch hid), ?_⟩⟩
      · rw [scopedEventIds, if_pos hlong, slice_of_le (by decide) hlong]
        simp only [bind, Except.bind, hadd]
        exact if_neg fun hand => h32 hand.2
      · rintro ⟨hid, _, _, hsome⟩
        cases hheader.symm.trans hsome
        exact absurd (hinner.symm.trans hid) h32

/-- The tool stops where the sum overflows. -/
theorem scopedEventIds_ok_iff {key : Bytes} :
    (∃ ids, scopedEventIds key = .ok ids) ↔ EventKeyReadable key := by
  refine ⟨fun ⟨ids, hids⟩ hlong => ?_, fun h => ?_⟩
  · by_contra hover
    rw [scopedEventIds, if_pos hlong, slice_of_le (by decide) hlong] at hids
    simp only [bind, Except.bind] at hids
    rw [show addUsize 12 (bigEndian ((key.take 12).drop 4)) = .error .overflow from
      addUsize_of_le (not_lt.mp hover)] at hids
    cases hids
  · obtain ⟨ids, hids, -⟩ := scopedEventIds_spec h
    exact ⟨ids, hids⟩

/-- The ids are collected if the sum overflows in no header. -/
theorem getAllEventIds_ok_iff {env : LmdbEnv} :
    (∃ ids, getAllEventIds env = .ok ids) ↔
      ∀ key ∈ env.keys ⟨.events, true⟩, EventKeyReadable key := by
  refine Iff.trans ?_ (flatMapM_ok_iff.trans (forall₂_congr fun _ _ => scopedEventIds_ok_iff))
  rw [getAllEventIds]
  cases (env.keys ⟨.events, true⟩).flatMapM scopedEventIds with
  | error e => exact ⟨fun ⟨_, h⟩ => (nomatch h), fun ⟨_, h⟩ => (nomatch h)⟩
  | ok ids => exact ⟨fun _ => ⟨ids, rfl⟩, fun _ => ⟨_, rfl⟩⟩

/-- The ids of all scopes are in one set. -/
theorem mem_getAllEventIds {env : LmdbEnv} {ids : List String} (h : getAllEventIds env = .ok ids)
    (id : Bytes) : hexEncode id ∈ ids ↔ ∃ scopeHash, Stored env ⟨scopeHash, id⟩ := by
  have hreadable := getAllEventIds_ok_iff.mp ⟨ids, h⟩
  rw [getAllEventIds] at h
  cases hscoped : (env.keys ⟨.events, true⟩).flatMapM scopedEventIds with
  | error e => rw [hscoped] at h; cases h
  | ok scopedIds =>
    rw [hscoped] at h
    cases h
    have hplain : (hexEncode id ∈ (env.keys ⟨.unnamed, false⟩).flatMap fun key =>
        if key.length = 32 then [hexEncode key] else []) ↔ Stored env ⟨none, id⟩ := by
      rw [List.mem_flatMap]
      refine ⟨fun ⟨key, hkey, hmem⟩ => ?_, fun ⟨hlength, hkey⟩ => ⟨id, hkey, ?_⟩⟩
      · split at hmem
        · obtain rfl := hexEncode_injective (List.mem_singleton.mp hmem)
          exact ⟨‹_›, hkey⟩
        · cases hmem
      · rw [if_pos hlength]
        exact List.mem_singleton_self _
    have hmem : hexEncode id ∈ scopedIds ↔ ∃ hash, Stored env ⟨some hash, id⟩ := by
      rw [mem_flatMapM_iff hscoped]
      refine ⟨fun ⟨key, hkey, ids, hids, hid⟩ => ?_,
        fun ⟨hash, hlength, key, hkey, keyLen, hheader⟩ => ?_⟩
      · obtain ⟨ids', hids', hspec⟩ := scopedEventIds_spec (hreadable key hkey)
        cases hids.symm.trans hids'
        obtain ⟨hlength, hash, keyLen, hheader⟩ := (hspec id).mp hid
        exact ⟨hash, hlength, key, hkey, keyLen, hheader⟩
      · obtain ⟨ids', hids', hspec⟩ := scopedEventIds_spec (hreadable key hkey)
        exact ⟨key, hkey, ids', hids', (hspec id).mpr ⟨hlength, hash, keyLen, hheader⟩⟩
    rw [List.mem_append, hplain, hmem]
    refine ⟨?_, ?_⟩
    · rintro (h | ⟨hash, h⟩)
      · exact ⟨none, h⟩
      · exact ⟨some hash, h⟩
    · rintro ⟨_ | hash, h⟩
      · exact .inl h
      · exact .inr ⟨hash, h⟩

/-! ### The ids in the keys -/

/-- Every function for an index takes the id from its place in the key. -/
theorem extractFromBase_index (i : Index) (key : Bytes) (scope : Option String) :
    ∃ indexType, extractFromBase (.index i) key scope =
      .ok ((i.idIn key).map fun id => ⟨hexEncode id, indexType, scope⟩) := by
  have hfrom : ∀ (start stop : ℕ) (indexType : String), start ≤ stop →
      extractFromKey start stop indexType key scope =
        .ok ((if stop ≤ key.length then some ((key.take stop).drop start) else none).map
          fun id => ⟨hexEncode id, indexType, scope⟩) := by
    intro start stop indexType h
    rw [extractFromKey_eq h]
    split <;> rfl
  cases i with
  | ci => exact ⟨_, hfrom 8 40 _ (by decide)⟩
  | tci => exact ⟨_, hfrom 194 226 _ (by decide)⟩
  | aci => exact ⟨_, hfrom 40 72 _ (by decide)⟩
  | akci => exact ⟨_, hfrom 42 74 _ (by decide)⟩
  | atci => exact ⟨_, hfrom 226 258 _ (by decide)⟩
  | ktci => exact ⟨_, hfrom 196 228 _ (by decide)⟩
  | deletedIds =>
    refine ⟨"deleted_ids", ?_⟩
    rw [extractFromBase, extractFromDeletedIdsKey, Index.idIn]
    split <;> rfl

/-- In an index the tool finds the id of the event that the key refers to. -/
theorem extract_index {registry : ScopeRegistry} (i : Index) {scopedKeys : Bool} {key : Bytes}
    (h : scopedKeys = true → HeaderReadable registry key) :
    ∃ info, extractEventIdFromKey registry ⟨.index i, scopedKeys⟩ key = .ok info ∧
      info.map EventIdInfo.eventId =
        (i.reference scopedKeys key).map fun event => hexEncode event.eventId := by
  cases scopedKeys with
  | false =>
    obtain ⟨indexType, hbase⟩ := extractFromBase_index i key none
    refine ⟨_, hbase, ?_⟩
    rw [Index.reference, if_neg (by decide), Option.map_map, Option.map_map]
    rfl
  | true =>
    rw [extractEventIdFromKey, if_pos rfl, Index.reference, if_pos rfl]
    obtain ⟨-, hheader, hparse⟩ | ⟨-, header, scope, hheader, hparse⟩ | ⟨hnot, -⟩ :=
      parseScopedKey_cases registry key
    · rw [hparse, hheader]
      exact ⟨none, rfl, rfl⟩
    · obtain ⟨indexType, hbase⟩ := extractFromBase_index i header.originalKey (some scope)
      rw [hparse, hheader]
      refine ⟨_, hbase, ?_⟩
      simp only [Option.map_map]
      rfl
    · exact absurd (h rfl) hnot

/-- In the other databases it finds nothing. -/
theorem extract_other {registry : ScopeRegistry} {db : DatabaseName} {key : Bytes}
    (h : db.scopedKeys = true → HeaderReadable registry key) (hbase : ∀ i, db.base ≠ .index i) :
    extractEventIdFromKey registry db key = .ok none := by
  have hnone : ∀ key scope, extractFromBase db.base key scope = .ok none := by
    intro key scope
    cases hdb : db.base with
    | index i => exact absurd hdb (hbase i)
    | _ => rfl
  rw [extractEventIdFromKey]
  split
  · obtain ⟨-, -, hparse⟩ | ⟨-, header, scope, -, hparse⟩ | ⟨hnot, -⟩ :=
      parseScopedKey_cases registry key
    · rw [hparse]; rfl
    · rw [hparse]; exact hnone _ _
    · exact absurd (h ‹_›) hnot
  · exact hnone _ _

/-- The tool reads a key exactly if it can read the header, where the database has scopes. -/
theorem extract_ok_iff {registry : ScopeRegistry} {db : DatabaseName} {key : Bytes} :
    (∃ info, extractEventIdFromKey registry db key = .ok info) ↔
      (db.scopedKeys = true → HeaderReadable registry key) := by
  constructor
  · rintro ⟨info, hinfo⟩ hscoped
    by_contra hnot
    obtain ⟨h, -⟩ | ⟨h, -⟩ | ⟨-, e, hparse⟩ := parseScopedKey_cases registry key
    · exact hnot h
    · exact hnot h
    · rw [extractEventIdFromKey, if_pos hscoped, hparse] at hinfo
      cases hinfo
  · intro h
    obtain ⟨base, scopedKeys⟩ := db
    cases base with
    | index i =>
      obtain ⟨info, hinfo, -⟩ := extract_index i h
      exact ⟨info, hinfo⟩
    | _ =>
      refine ⟨none, extract_other h fun i heq => ?_⟩
      cases heq

/-! ### What the check reports -/

/-- A key can be read by the check. -/
def KeyReadable (env : LmdbEnv) (db : DatabaseName) (key : Bytes) : Prop :=
  db.scopedKeys = true → HeaderReadable (discoverScopeRegistry env) key

theorem checkEntry_ok_iff {env : LmdbEnv} {existingEvents : List String} {db : DatabaseName}
    {key : Bytes} :
    (∃ corrupted, checkEntry (discoverScopeRegistry env) existingEvents db key = .ok corrupted) ↔
      KeyReadable env db key := by
  refine Iff.trans ?_ extract_ok_iff
  rw [checkEntry]
  cases extractEventIdFromKey (discoverScopeRegistry env) db key with
  | error e => exact ⟨fun ⟨_, h⟩ => (nomatch h), fun ⟨_, h⟩ => (nomatch h)⟩
  | ok info =>
    refine ⟨fun _ => ⟨info, rfl⟩, fun _ => ?_⟩
    cases info with
    | none => exact ⟨[], rfl⟩
    | some info =>
      simp only [bind, Except.bind]
      split
      · exact ⟨[], rfl⟩
      · exact ⟨_, rfl⟩

/-- An entry is reported if the event that it refers to is in no scope. -/
theorem exists_mem_checkEntry {env : LmdbEnv} {ids : List String}
    (hids : getAllEventIds env = .ok ids) {db : DatabaseName} {key : Bytes}
    {corrupted : List CorruptedEntry}
    (h : checkEntry (discoverScopeRegistry env) ids db key = .ok corrupted) :
    (∀ entry ∈ corrupted, entry.database = db ∧ entry.key = key) ∧
      (corrupted ≠ [] ↔ ∃ i event, db.base = .index i ∧
        i.reference db.scopedKeys key = some event ∧
        ∀ scopeHash, ¬ Stored env ⟨scopeHash, event.eventId⟩) := by
  have hreadable : KeyReadable env db key := checkEntry_ok_iff.mp ⟨corrupted, h⟩
  rw [checkEntry] at h
  by_cases hindex : ∃ i, db.base = .index i
  · obtain ⟨base, scopedKeys⟩ := db
    obtain ⟨i, rfl⟩ := hindex
    obtain ⟨info, hinfo, hid⟩ := extract_index i hreadable
    rw [hinfo] at h
    cases hevent : i.reference scopedKeys key with
    | none =>
      rw [hevent, Option.map_none, Option.map_eq_none_iff] at hid
      subst hid
      cases h
      refine ⟨fun _ he => (nomatch he), fun h => absurd rfl h, ?_⟩
      rintro ⟨j, event, hj, hsome, -⟩
      cases hj
      cases hevent.symm.trans hsome
    | some event =>
      rw [hevent, Option.map_some, Option.map_eq_some_iff] at hid
      obtain ⟨info, rfl, hid⟩ := hid
      simp only [bind, Except.bind, hid] at h
      by_cases hmem : hexEncode event.eventId ∈ ids
      · rw [if_pos hmem] at h
        cases h
        refine ⟨fun _ he => (nomatch he), fun h => absurd rfl h, ?_⟩
        rintro ⟨j, event', hj, hsome, hstored⟩
        cases hj
        cases hevent.symm.trans hsome
        obtain ⟨scopeHash, hs⟩ := (mem_getAllEventIds hids _).mp hmem
        exact absurd hs (hstored scopeHash)
      · rw [if_neg hmem] at h
        cases h
        refine ⟨fun entry he => ?_, fun _ => ⟨i, event, rfl, hevent, fun scopeHash hs => ?_⟩,
          fun _ => List.cons_ne_nil _ _⟩
        · cases List.mem_singleton.mp he
          exact ⟨rfl, rfl⟩
        · exact hmem ((mem_getAllEventIds hids _).mpr ⟨scopeHash, hs⟩)
  · rw [extract_other hreadable fun i hi => hindex ⟨i, hi⟩] at h
    cases h
    exact ⟨fun _ he => (nomatch he), fun h => absurd rfl h,
      fun ⟨i, _, hi, _⟩ => absurd ⟨i, hi⟩ hindex⟩

/-- The databases that the check goes through. -/
def Checked (db : DatabaseName) : Prop :=
  (∃ i, db.base = .index i) ∨ db.base = .deletedCoordinates ∨ db = ⟨.unnamed, false⟩

theorem checked_iff (env : LmdbEnv) (db : DatabaseName) :
    db ∈ discoverDatabases env ∧ skipped db = false ↔ Checked db ∧ (env db).isSome = true := by
  have hnames : db ∈ commonNames ++ [⟨.unnamed, false⟩] ∧ skipped db = false ↔ Checked db := by
    obtain ⟨base, scopedKeys⟩ := db
    cases base with
    | index i =>
      refine ⟨fun _ => .inl ⟨i, rfl⟩, fun _ => ?_⟩
      cases i <;> cases scopedKeys <;> decide
    | deletedCoordinates =>
      refine ⟨fun _ => .inr (.inl rfl), fun _ => ?_⟩
      cases scopedKeys <;> decide
    | unnamed =>
      cases scopedKeys with
      | false => exact ⟨fun _ => .inr (.inr rfl), fun _ => by decide⟩
      | true => refine ⟨fun h => absurd h.1 (by decide), ?_⟩; rintro (⟨_, h⟩ | h | h) <;> cases h
    | events =>
      refine ⟨fun h => absurd h (by cases scopedKeys <;> decide), ?_⟩
      rintro (⟨_, h⟩ | h | h) <;> cases h
    | globalScopeMetadata =>
      refine ⟨fun h => absurd h (by cases scopedKeys <;> decide), ?_⟩
      rintro (⟨_, h⟩ | h | h) <;> cases h
  rw [discoverDatabases, List.mem_filter, and_right_comm, hnames]

theorem isSome_of_mem_keys {env : LmdbEnv} {db : DatabaseName} {key : Bytes}
    (h : key ∈ env.keys db) : (env db).isSome = true := by
  cases hdb : env db with
  | none => rw [LmdbEnv.keys, LmdbEnv.entries, hdb] at h; cases h
  | some content => rfl

/-- The check comes to its end if it can read all keys. -/
theorem checkIntegrity_ok_iff {env : LmdbEnv} :
    (∃ corrupted, checkIntegrity env (discoverDatabases env) = .ok corrupted) ↔
      (∀ key ∈ env.keys ⟨.events, true⟩, EventKeyReadable key) ∧
        ∀ db, Checked db → ∀ key ∈ env.keys db, KeyReadable env db key := by
  rw [← getAllEventIds_ok_iff, checkIntegrity]
  cases hids : getAllEventIds env with
  | error e => exact ⟨fun ⟨_, h⟩ => (nomatch h), fun ⟨⟨_, h⟩, _⟩ => (nomatch h)⟩
  | ok ids =>
    refine flatMapM_ok_iff.trans ⟨fun h => ⟨⟨ids, rfl⟩, fun db hdb key hkey => ?_⟩,
      fun ⟨_, h⟩ db hdb => ?_⟩
    · obtain ⟨hmem, hskipped⟩ := (checked_iff env db).mpr ⟨hdb, isSome_of_mem_keys hkey⟩
      obtain ⟨corrupted, hcorrupted⟩ := h db hmem
      rw [hskipped, if_neg Bool.false_ne_true] at hcorrupted
      exact checkEntry_ok_iff.mp (flatMapM_ok_iff.mp ⟨corrupted, hcorrupted⟩ key hkey)
    · cases hskipped : skipped db with
      | true => exact ⟨[], if_pos rfl⟩
      | false =>
        rw [if_neg Bool.false_ne_true]
        have hchecked := ((checked_iff env db).mp ⟨hdb, hskipped⟩).1
        exact flatMapM_ok_iff.mpr fun key hkey => checkEntry_ok_iff.mpr (h db hchecked key hkey)

/-- **The check** reports the entries of the indexes, and the records of deleted events, with an id
that is stored in no scope. -/
theorem reported_iff {env : LmdbEnv} {corrupted : List CorruptedEntry}
    (h : checkIntegrity env (discoverDatabases env) = .ok corrupted) {db : DatabaseName}
    {key : Bytes} :
    (∃ entry ∈ corrupted, entry.database = db ∧ entry.key = key) ↔
      ∃ i event, db.base = .index i ∧ key ∈ env.keys db ∧
        i.reference db.scopedKeys key = some event ∧
        ∀ scopeHash, ¬ Stored env ⟨scopeHash, event.eventId⟩ := by
  have hreadable := checkIntegrity_ok_iff.mp ⟨corrupted, h⟩
  rw [checkIntegrity] at h
  cases hids : getAllEventIds env with
  | error e => rw [hids] at h; cases h
  | ok ids =>
    rw [hids] at h
    replace h : (discoverDatabases env).flatMapM _ =
      (.ok corrupted : Except Panic (List CorruptedEntry)) := h
    constructor
    · rintro ⟨entry, hentry, rfl, rfl⟩
      obtain ⟨db, hdb, found, hfound, hentry⟩ := (mem_flatMapM_iff h).mp hentry
      cases hskipped : skipped db with
      | true => rw [hskipped, if_pos rfl] at hfound; cases hfound; cases hentry
      | false =>
        rw [hskipped, if_neg Bool.false_ne_true] at hfound
        obtain ⟨key, hkey, reported, hreported, hentry⟩ := (mem_flatMapM_iff hfound).mp hentry
        obtain ⟨hsame, hsome⟩ := exists_mem_checkEntry hids hreported
        obtain ⟨rfl, rfl⟩ := hsame entry hentry
        obtain ⟨i, event, hi, hevent, hstored⟩ := hsome.mp (List.ne_nil_of_mem hentry)
        exact ⟨i, event, hi, hkey, hevent, hstored⟩
    · rintro ⟨i, event, hi, hkey, hevent, hstored⟩
      have hchecked : Checked db := .inl ⟨i, hi⟩
      obtain ⟨hmem, hskipped⟩ := (checked_iff env db).mpr ⟨hchecked, isSome_of_mem_keys hkey⟩
      obtain ⟨found, hfound⟩ := flatMapM_ok_iff.mp ⟨corrupted, h⟩ db hmem
      have hfound' := hfound
      rw [hskipped, if_neg Bool.false_ne_true] at hfound'
      obtain ⟨reported, hreported⟩ := flatMapM_ok_iff.mp ⟨found, hfound'⟩ key hkey
      obtain ⟨hsame, hsome⟩ := exists_mem_checkEntry hids hreported
      obtain ⟨entry, hentry⟩ :=
        List.exists_mem_of_ne_nil _ (hsome.mpr ⟨i, event, hi, hevent, hstored⟩)
      refine ⟨entry, (mem_flatMapM_iff h).mpr ⟨db, hmem, found, hfound, ?_⟩, hsame entry hentry⟩
      exact (mem_flatMapM_iff hfound').mpr ⟨key, hkey, reported, hreported, hentry⟩

end IntegrityTool

open IntegrityTool

/-- The check reports exactly the dangling entries, so that it passes where there are none, and the
removal of what it reports spares all other entries, those for deleted events among them. -/
def ChecksExactly (env : LmdbEnv) : Prop :=
  ∃ corrupted, checkIntegrity env (discoverDatabases env) = .ok corrupted ∧
    (∀ db key, (∃ entry ∈ corrupted, entry.database = db ∧ entry.key = key) ↔
      Dangling env db key) ∧
    ((∀ db key, ¬ Dangling env db key) → corrupted = []) ∧
    ∀ db, ∀ key ∈ env.keys db, ¬ Dangling env db key →
      key ∈ LmdbEnv.keys (removeCorruptedEntries env corrupted) db

/-- What the check needs of a database. -/
structure Checkable (env : LmdbEnv) : Prop where
  eventKeys : ∀ key ∈ env.keys ⟨.events, true⟩, EventKeyReadable key
  headers : ∀ db, Checked db → ∀ key ∈ env.keys db, KeyReadable env db key
  /-- An event that an index refers to is not stored in another scope only. -/
  ownScope : ∀ i ≠ Index.deletedIds, ∀ scopedKeys, ∀ key ∈ env.keys ⟨.index i, scopedKeys⟩,
    ∀ event, i.reference scopedKeys key = some event →
      (∃ scopeHash, Stored env ⟨scopeHash, event.eventId⟩) → Stored env event
  /-- Each record of a deleted event has the id of a stored one, in some scope. -/
  deletedStored : ∀ scopedKeys, ∀ key ∈ env.keys ⟨.index .deletedIds, scopedKeys⟩,
    ∀ event, Index.deletedIds.reference scopedKeys key = some event →
      ∃ scopeHash, Stored env ⟨scopeHash, event.eventId⟩

/-- An exact report is enough: the rest follows from what a removal does. -/
theorem checksExactly_of_reported {env : LmdbEnv} {corrupted : List CorruptedEntry}
    (h : checkIntegrity env (discoverDatabases env) = .ok corrupted)
    (hreported : ∀ db key, (∃ entry ∈ corrupted, entry.database = db ∧ entry.key = key) ↔
      Dangling env db key) : ChecksExactly env := by
  refine ⟨corrupted, h, hreported, fun hnone => ?_, fun db key hkey hnot => ?_⟩
  · refine List.eq_nil_iff_forall_not_mem.mpr fun entry hentry => ?_
    exact hnone _ _ ((hreported _ _).mp ⟨entry, hentry, rfl, rfl⟩)
  · refine mem_removeCorruptedEntries.mpr ⟨hkey, fun entry hentry hdb hsame => ?_⟩
    exact hnot ((hreported _ _).mp ⟨entry, hentry, hdb, hsame⟩)

/-- **The check** reports exactly the dangling entries, and its removal spares all others, if and
only if it stops at no key, no entry of an index has its event in another scope only, and no record
of a deleted event is without a stored event. -/
theorem checksExactly_iff (env : LmdbEnv) : ChecksExactly env ↔ Checkable env := by
  constructor
  · rintro ⟨corrupted, hcheck, hexact, -⟩
    obtain ⟨heventKeys, hheaders⟩ := checkIntegrity_ok_iff.mp ⟨corrupted, hcheck⟩
    refine ⟨heventKeys, hheaders, fun i hi scopedKeys key hkey event hevent hsome => ?_,
      fun scopedKeys key hkey event hevent => ?_⟩
    · by_contra hnot
      obtain ⟨j, event', hj, -, hevent', hstored⟩ := (reported_iff hcheck).mp
        ((hexact _ _).mpr ⟨i, rfl, hi, hkey, event, hevent, hnot⟩)
      cases hj
      cases hevent.symm.trans hevent'
      obtain ⟨scopeHash, hs⟩ := hsome
      exact hstored scopeHash hs
    · by_contra hnone
      obtain ⟨i, hi, hne, -⟩ := (hexact _ _).mp ((reported_iff hcheck).mpr
        ⟨.deletedIds, event, rfl, hkey, hevent, fun scopeHash hs => hnone ⟨scopeHash, hs⟩⟩)
      cases hi
      exact hne rfl
  · intro h
    obtain ⟨corrupted, hcheck⟩ := checkIntegrity_ok_iff.mpr ⟨h.eventKeys, h.headers⟩
    refine checksExactly_of_reported hcheck fun db key => (reported_iff hcheck).trans ?_
    obtain ⟨base, scopedKeys⟩ := db
    constructor
    · rintro ⟨i, event, rfl, hkey, hevent, hstored⟩
      refine ⟨i, rfl, ?_, hkey, event, hevent, fun hs => hstored event.scopeHash hs⟩
      rintro rfl
      obtain ⟨scopeHash, hs⟩ := h.deletedStored scopedKeys key hkey event hevent
      exact hstored scopeHash hs
    · rintro ⟨i, rfl, hne, hkey, event, hevent, hnot⟩
      exact ⟨i, event, rfl, hkey, hevent, fun scopeHash hs =>
        hnot (h.ownScope i hne scopedKeys key hkey event hevent ⟨scopeHash, hs⟩)⟩

/-- A store from which the only event was deleted: the record is there, and the unnamed database has
the name of the other one. -/
def deletedEnv : LmdbEnv
  | ⟨.index .deletedIds, false⟩ => some ⟨[(List.replicate 32 7, [])], by decide⟩
  | ⟨.unnamed, false⟩ =>
    some ⟨[([100, 101, 108, 101, 116, 101, 100, 45, 105, 100, 115], [])], by decide⟩
  | _ => none

/-- The check reports the record of a deleted event, although no entry is dangling, and the removal
erases it. -/
theorem deleted_record_erased :
    (∀ db key, ¬ Dangling deletedEnv db key) ∧
    (∃ entry, checkIntegrity deletedEnv (discoverDatabases deletedEnv) = .ok [entry] ∧
      LmdbEnv.keys (removeCorruptedEntries deletedEnv [entry]) ⟨.index .deletedIds, false⟩ = []) ∧
    ¬ ChecksExactly deletedEnv := by
  have hnone : ∀ db key, ¬ Dangling deletedEnv db key := by
    rintro ⟨base, scopedKeys⟩ key ⟨i, rfl, hi, hkey, -⟩
    have henv : deletedEnv ⟨.index i, scopedKeys⟩ = none := by
      cases i with
      | deletedIds => exact absurd rfl hi
      | _ => rfl
    rw [LmdbEnv.keys, LmdbEnv.entries, henv] at hkey
    cases hkey
  have hcheck : checkIntegrity deletedEnv (discoverDatabases deletedEnv) =
      .ok [⟨⟨.index .deletedIds, false⟩, List.replicate 32 7, hexEncode (List.replicate 32 7),
        "deleted_ids", none⟩] := by
    decide +kernel
  refine ⟨hnone, ⟨_, hcheck, by decide +kernel⟩, fun ⟨corrupted, h, _, hpasses, _⟩ => ?_⟩
  cases (hcheck.symm.trans h).trans (congrArg Except.ok (hpasses hnone))

end RelayBuilder
