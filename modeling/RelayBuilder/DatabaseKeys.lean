import RelayBuilder.JsonText
import RelayBuilder.KeyBytes
import RelayBuilder.Nostr

/-!
# The keys of the database

The tools `nostr-lmdb-integrity` and `nostr-lmdb-dump` read the keys of the store, each with its own
functions. An index has the id of an event at a fixed place in its keys. In a database with scopes
a key stands behind a header with the hash of the scope and the length of the key.

Neither tool reaches beyond the end of a key. But the sum of the header and the length may overflow
in both, and the first tool stops at the hash of a scope that is not registered, for which the
second one makes up a name.

## Main definitions

* `Index`, `BaseDatabase`, `DatabaseName`
* `IntegrityTool.extractEventIdFromKey`, `DumpTool.parseKey`
* `KeyLayout`: what a function `parse_*_key` reads, with the proofs that it stays within the key
* `ReadAlike`: neither tool stops, and both find the same id

## Main results

* `scopedHeader_cases`: what the header of a scoped key is taken for
* `readAlike_iff`
-/

namespace RelayBuilder

open JsonText KeyBytes

/-! ### The databases -/

/-- The databases whose keys hold the id of an event. -/
inductive Index where
  | ci
  | tci
  | aci
  | akci
  | atci
  | ktci
  | deletedIds
  deriving DecidableEq

/-- The databases, without the suffix of those with scopes. -/
inductive BaseDatabase where
  | index (i : Index)
  | events
  | deletedCoordinates
  | globalScopeMetadata
  | unnamed
  deriving DecidableEq

/-- A name of a database, taken apart at the suffix `_scoped`. -/
structure DatabaseName where
  base : BaseDatabase
  scopedKeys : Bool
  deriving DecidableEq

def Index.text : Index → String
  | ci => "ci"
  | tci => "tci"
  | aci => "aci"
  | akci => "akci"
  | atci => "atci"
  | ktci => "ktci"
  | deletedIds => "deleted-ids"

def BaseDatabase.text : BaseDatabase → String
  | index i => i.text
  | events => "events"
  | deletedCoordinates => "deleted-coordinates"
  | globalScopeMetadata => "__global_scope_metadata"
  | unnamed => "(unnamed)"

/-- The name as it is written. -/
def DatabaseName.text (db : DatabaseName) : String :=
  db.base.text ++ if db.scopedKeys then "_scoped" else ""

/-- The scopes by their hashes. -/
abbrev ScopeRegistry := ℕ → Option String

/-! ### The header of a scoped key -/

/-- The parts of a scoped key. -/
structure ScopedHeader where
  scopeHash : Bytes
  keyLen : Bytes
  originalKey : Bytes
  deriving DecidableEq

/-- The part of `parse_scoped_key` that both tools have in common. -/
def scopedHeader (key : Bytes) : Except Panic (Option ScopedHeader) :=
  if key.length < 12 then .ok none
  else do
    let scopeHash ← slice key 0 4
    let keyLen ← slice key 4 12
    let length ← addUsize 12 (bigEndian keyLen)
    if key.length ≠ length then .ok none
    else do
      let originalKey ← slice key 12 key.length
      .ok (some ⟨scopeHash, keyLen, originalKey⟩)

/-- The hash in the header of a scoped key. -/
def hashField (key : Bytes) : ℕ := bigEndian ((key.take 4).drop 0)

/-- The length in the header of a scoped key. -/
def lengthField (key : Bytes) : ℕ := bigEndian ((key.take 12).drop 4)

/-- What the header of a scoped key is taken for: the sum overflows, it does not fit the key, or it
is read. -/
theorem scopedHeader_cases (key : Bytes) :
    (key.length < 12 ∧ scopedHeader key = .ok none) ∨
    (12 ≤ key.length ∧ 2 ^ 64 ≤ 12 + lengthField key ∧ scopedHeader key = .error .overflow) ∨
    (12 ≤ key.length ∧ 12 + lengthField key < 2 ^ 64 ∧ key.length ≠ 12 + lengthField key ∧
      scopedHeader key = .ok none) ∨
    (12 ≤ key.length ∧ 12 + lengthField key < 2 ^ 64 ∧ key.length = 12 + lengthField key ∧
      scopedHeader key = .ok (some ⟨(key.take 4).drop 0, (key.take 12).drop 4,
        (key.take key.length).drop 12⟩)) := by
  rw [scopedHeader]
  by_cases hshort : key.length < 12
  · exact .inl ⟨hshort, if_pos hshort⟩
  have hlong : 12 ≤ key.length := not_lt.mp hshort
  rw [if_neg hshort, slice_of_le (by decide) (by omega), slice_of_le (by decide) hlong]
  refine .inr ?_
  by_cases hfits : 12 + lengthField key < 2 ^ 64
  · refine .inr ?_
    have hadd : addUsize 12 (bigEndian ((key.take 12).drop 4)) = .ok (12 + lengthField key) :=
      addUsize_of_lt hfits
    by_cases hlength : key.length = 12 + lengthField key
    · refine .inr ⟨hlong, hfits, hlength, ?_⟩
      simp only [bind, Except.bind, hadd, slice_of_le hlong le_rfl]
      exact if_neg (not_not.mpr hlength)
    · refine .inl ⟨hlong, hfits, hlength, ?_⟩
      simp only [bind, Except.bind, hadd]
      exact if_pos hlength
  · refine .inl ⟨hlong, not_lt.mp hfits, ?_⟩
    have hadd : addUsize 12 (bigEndian ((key.take 12).drop 4)) = .error .overflow :=
      addUsize_of_le (not_lt.mp hfits)
    simp only [bind, Except.bind, hadd]

/-! ### The tool that checks -/

/-- `EventIdInfo`. -/
structure EventIdInfo where
  eventId : String
  indexType : String
  scope : Option String
  deriving DecidableEq

namespace IntegrityTool

/-- `parse_scoped_key`. -/
def parseScopedKey (registry : ScopeRegistry) (key : Bytes) :
    Except Panic (Option (String × Bytes)) := do
  match ← scopedHeader key with
  | none => .ok none
  | some header =>
    match registry (bigEndian header.scopeHash) with
    | some scopeName => .ok (some (scopeName, header.originalKey))
    | none =>
      .error (.explicit ("Unknown scope hash: " ++ hex08 (bigEndian header.scopeHash)))

/-- A function `extract_from_*_key`: the id stands between two places of the key. -/
def extractFromKey (start stop : ℕ) (indexType : String) (key : Bytes) (scope : Option String) :
    Except Panic (Option EventIdInfo) :=
  if key.length ≥ stop then do
    let eventId ← slice key start stop
    .ok (some ⟨hexEncode eventId, indexType, scope⟩)
  else .ok none

def extractFromCiKey := extractFromKey 8 40 "created_at_index"

def extractFromTciKey := extractFromKey 194 226 "tag_created_at_index"

def extractFromAciKey := extractFromKey 40 72 "author_created_at_index"

def extractFromAkciKey := extractFromKey 42 74 "author_kind_created_at_index"

def extractFromAtciKey := extractFromKey 226 258 "author_tag_created_at_index"

def extractFromKtciKey := extractFromKey 196 228 "kind_tag_created_at_index"

/-- The whole key is the id. -/
def extractFromDeletedIdsKey (key : Bytes) (scope : Option String) :
    Except Panic (Option EventIdInfo) :=
  if key.length = 32 then .ok (some ⟨hexEncode key, "deleted_ids", scope⟩) else .ok none

/-- The match of `extract_event_id_from_key` on the database. -/
def extractFromBase (base : BaseDatabase) (key : Bytes) (scope : Option String) :
    Except Panic (Option EventIdInfo) :=
  match base with
  | .index .ci => extractFromCiKey key scope
  | .index .tci => extractFromTciKey key scope
  | .index .aci => extractFromAciKey key scope
  | .index .akci => extractFromAkciKey key scope
  | .index .atci => extractFromAtciKey key scope
  | .index .ktci => extractFromKtciKey key scope
  | .index .deletedIds => extractFromDeletedIdsKey key scope
  | .deletedCoordinates => .ok none
  | .events | .globalScopeMetadata | .unnamed => .ok none

/-- `extract_event_id_from_key`. -/
def extractEventIdFromKey (registry : ScopeRegistry) (db : DatabaseName) (key : Bytes) :
    Except Panic (Option EventIdInfo) :=
  if db.scopedKeys then do
    match ← parseScopedKey registry key with
    | some (scope, innerKey) => extractFromBase db.base innerKey (some scope)
    | none => .ok none
  else extractFromBase db.base key none

end IntegrityTool

/-! ### The tool that dumps -/

/-- The members of a JSON object. -/
abbrev JsonObject := List (String × Json)

/-- A number as a JSON value. -/
def jsonNumber (n : ℕ) : Json := .number (toString n)

namespace DumpTool

/-- `format_timestamp_field`. -/
def formatTimestampField (reversed : Bool) (bytes : Bytes) : Json :=
  let timestamp := bigEndian bytes
  let parsedValue := if reversed then 2 ^ 64 - 1 - timestamp else timestamp
  .object [("raw_hex", .string (hexEncode bytes)), ("parsed_value", jsonNumber parsedValue)]

/-- `format_tag_value`. -/
def formatTagValue (bytes : Bytes) : Json :=
  let text := String.ofList
    ((fromUtf8Lossy bytes).toList.reverse.dropWhile (· == Char.ofNat 0)).reverse
  .object [("raw_hex", .string (hexEncode bytes)), ("parsed_value", .string text)]

/-- `format_kind_field`. -/
def formatKindField (bytes : Bytes) : Json :=
  .object [("raw_hex", .string (hexEncode bytes)), ("parsed_value", jsonNumber (bigEndian bytes))]

/-- `format_tag_name`. -/
def formatTagName (byte : UInt8) : Json :=
  .object [("raw_hex", .string (hexEncode [byte])),
    ("parsed_value", .string (.singleton (Char.ofNat byte.toNat)))]

/-- A field of an object, read from a key that is long enough. -/
structure KeyField where
  name : String
  stop : ℕ
  read : Bytes → Except Panic Json
  reads : ∀ key : Bytes, stop ≤ key.length → ∃ value, read key = .ok value

/-- A field from the bytes between two places. -/
def bytesField (name : String) (start stop : ℕ) (h : start ≤ stop) (format : Bytes → Json) :
    KeyField where
  name := name
  stop := stop
  read key := do return format (← slice key start stop)
  reads key hlength := ⟨_, by rw [slice_of_le h hlength]; rfl⟩

/-- A field from one byte. -/
def byteField (name : String) (i : ℕ) (format : UInt8 → Json) : KeyField where
  name := name
  stop := i + 1
  read key := do return format (← index key i)
  reads key hlength := ⟨_, by rw [index_of_lt hlength]; rfl⟩

/-- What a function `parse_*_key` reads: the fields in front of the id, and the id itself if the key
is long enough for it. -/
structure KeyLayout where
  minLen : ℕ
  fields : List KeyField
  start : ℕ
  stop : ℕ
  fields_within : ∀ field ∈ fields, field.stop ≤ minLen
  no_event_id : ∀ field ∈ fields, field.name ≠ "event_id"
  start_le : start ≤ stop
  minLen_le : minLen ≤ stop

/-- The fields of a key. -/
def readFields (fields : List KeyField) (key : Bytes) : Except Panic JsonObject :=
  fields.mapM fun field => do return (field.name, ← field.read key)

/-- A function `parse_*_key`. -/
def KeyLayout.parse (layout : KeyLayout) (key : Bytes) : Except Panic (Option JsonObject) :=
  if key.length ≥ layout.minLen then do
    let fields ← readFields layout.fields key
    if key.length ≥ layout.stop then do
      let eventId ← slice key layout.start layout.stop
      .ok (some (fields ++ [("event_id", .string (hexEncode eventId))]))
    else .ok (some (fields ++ [("incomplete", .bool true)]))
  else .ok none

/-- A timestamp that is stored reversed. -/
def timestampField (start stop : ℕ) (h : start ≤ stop) : KeyField :=
  bytesField "timestamp" start stop h (formatTimestampField true)

/-- A public key. -/
def pubkeyField (start stop : ℕ) (h : start ≤ stop) : KeyField :=
  bytesField "pubkey" start stop h fun bytes => .string (hexEncode bytes)

def ciLayout : KeyLayout :=
  ⟨8, [timestampField 0 8 (by decide)], 8, 40, by decide, by decide, by decide, by decide⟩

def tciLayout : KeyLayout :=
  ⟨194, [byteField "tag_name" 0 formatTagName,
    bytesField "tag_value" 1 183 (by decide) formatTagValue,
    timestampField 183 191 (by decide)], 194, 226, by decide, by decide, by decide, by decide⟩

def aciLayout : KeyLayout :=
  ⟨40, [pubkeyField 0 32 (by decide), timestampField 32 40 (by decide)], 40, 72, by decide,
    by decide, by decide, by decide⟩

def akciLayout : KeyLayout :=
  ⟨42, [pubkeyField 0 32 (by decide), bytesField "kind" 32 34 (by decide) formatKindField,
    timestampField 34 42 (by decide)], 42, 74, by decide, by decide, by decide, by decide⟩

def atciLayout : KeyLayout :=
  ⟨226, [pubkeyField 0 32 (by decide), byteField "tag_name" 32 formatTagName,
    bytesField "tag_value" 33 215 (by decide) formatTagValue,
    timestampField 215 223 (by decide)], 226, 258, by decide, by decide, by decide, by decide⟩

def ktciLayout : KeyLayout :=
  ⟨196, [bytesField "kind" 0 2 (by decide) formatKindField, byteField "tag_name" 2 formatTagName,
    bytesField "tag_value" 3 185 (by decide) formatTagValue,
    timestampField 185 193 (by decide)], 196, 228, by decide, by decide, by decide, by decide⟩

def parseCiKey := ciLayout.parse

def parseTciKey := tciLayout.parse

def parseAciKey := aciLayout.parse

def parseAkciKey := akciLayout.parse

def parseAtciKey := atciLayout.parse

def parseKtciKey := ktciLayout.parse

/-- `parse_events_key` and `parse_deleted_ids_key`: the whole key is the id. -/
def parseIdKey (key : Bytes) : Except Panic (Option JsonObject) :=
  if key.length = 32 then .ok (some [("event_id", .string (hexEncode key))]) else .ok none

def parseEventsKey := parseIdKey

def parseDeletedIdsKey := parseIdKey

/-- `parse_deleted_coordinates_key`. -/
def parseDeletedCoordinatesKey (key : Bytes) : Except Panic (Option JsonObject) :=
  if key.length ≥ 34 then do
    let kindBytes ← slice key 0 2
    let pubkey ← slice key 2 34
    let dTagBytes ← if key.length > 34 then slice key 34 key.length else .ok []
    let result := [("kind", formatKindField kindBytes), ("pubkey", .string (hexEncode pubkey))]
    if dTagBytes.isEmpty then .ok (some result)
    else .ok (some (result ++ [("d_tag", .object [("raw_hex", .string (hexEncode dTagBytes)),
      ("parsed_value", .string (fromUtf8Lossy dTagBytes))])]))
  else .ok none

/-- `parse_scope_metadata_key`. -/
def parseScopeMetadataKey (key : Bytes) : Except Panic (Option JsonObject) :=
  match fromUtf8 key with
  | some scopeName => .ok (some [("scope_name", .string scopeName)])
  | none => .ok none

/-- `parse_scoped_key`. A scope that is not registered gets a name from its hash. -/
def parseScopedKey (registry : ScopeRegistry) (key : Bytes) :
    Except Panic (Option (JsonObject × Bytes)) := do
  match ← scopedHeader key with
  | none => .ok none
  | some header =>
    let scopeHash := bigEndian header.scopeHash
    let scopeName := (registry scopeHash).getD ("unknown_scope_" ++ hex08 scopeHash)
    .ok (some ([("scope_hash", .object [("raw_hex", .string (hexEncode header.scopeHash)),
        ("lookup_value", .string scopeName)]),
      ("original_key_length", .object [("raw_hex", .string (hexEncode header.keyLen)),
        ("parsed_value", jsonNumber (bigEndian header.keyLen))])], header.originalKey))

/-- The match of `parse_key` on the database. Only a plain name stands for the scopes' metadata. -/
def parseBase (scopedKeys : Bool) (base : BaseDatabase) (key : Bytes) :
    Except Panic (Option JsonObject) :=
  match base with
  | .events => parseEventsKey key
  | .index .ci => parseCiKey key
  | .index .tci => parseTciKey key
  | .index .aci => parseAciKey key
  | .index .akci => parseAkciKey key
  | .index .atci => parseAtciKey key
  | .index .ktci => parseKtciKey key
  | .index .deletedIds => parseDeletedIdsKey key
  | .deletedCoordinates => parseDeletedCoordinatesKey key
  | .globalScopeMetadata => if scopedKeys then .ok none else parseScopeMetadataKey key
  | .unnamed => .ok none

/-- `parse_key`. The parts of the scope come in addition to the fields of the key behind the
header. -/
def parseKey (registry : ScopeRegistry) (db : DatabaseName) (key : Bytes) :
    Except Panic (Option JsonObject) :=
  if db.scopedKeys then do
    match ← parseScopedKey registry key with
    | some (scopeComponents, innerKey) =>
      let parsed ← parseBase true db.base innerKey
      .ok (parsed.map (scopeComponents ++ ·))
    | none => .ok none
  else parseBase false db.base key

end DumpTool

/-! ### What the two tools find -/

/-- Neither tool stops, and the object has a field `event_id` exactly if the id was found, with this
id. -/
def Agree (info : Except Panic (Option EventIdInfo)) (object : Except Panic (Option JsonObject)) :
    Prop :=
  ∃ i o, info = .ok i ∧ object = .ok o ∧
    o.bind (·.lookup "event_id") = i.map fun found => .string found.eventId

/-- The two tools read this key alike. -/
def ReadAlike (registry : ScopeRegistry) (db : DatabaseName) (key : Bytes) : Prop :=
  Agree (IntegrityTool.extractEventIdFromKey registry db key) (DumpTool.parseKey registry db key)

namespace IntegrityTool

/-- The guard on the length keeps the slice within the key. -/
theorem extractFromKey_eq {start stop : ℕ} (h : start ≤ stop) (indexType : String) (key : Bytes)
    (scope : Option String) :
    extractFromKey start stop indexType key scope =
      .ok (if stop ≤ key.length then
        some ⟨hexEncode ((key.take stop).drop start), indexType, scope⟩ else none) := by
  rw [extractFromKey]
  by_cases hstop : stop ≤ key.length
  · rw [if_pos hstop, if_pos hstop, slice_of_le h hstop]
    rfl
  · rw [if_neg hstop, if_neg hstop]

end IntegrityTool

namespace DumpTool

/-- The fields can be read where the key is long enough for each of them. -/
theorem readFields_eq {fields : List KeyField} {key : Bytes}
    (h : ∀ field ∈ fields, field.stop ≤ key.length) :
    ∃ object, readFields fields key = .ok object ∧
      object.map Prod.fst = fields.map KeyField.name := by
  induction fields with
  | nil => exact ⟨[], rfl, rfl⟩
  | cons field fields ih =>
    obtain ⟨object, hread, hnames⟩ := ih fun f hf => h f (List.mem_cons_of_mem _ hf)
    obtain ⟨value, hvalue⟩ := field.reads key (h field List.mem_cons_self)
    refine ⟨(field.name, value) :: object, ?_, ?_⟩
    · rw [readFields] at hread ⊢
      rw [List.mapM_cons, hread, hvalue]
      rfl
    · rw [List.map_cons, List.map_cons, hnames]

/-- A function that reads a key does not stop. It finds an id exactly in a key that is long enough
for one. -/
theorem KeyLayout.parse_eq (layout : KeyLayout) (key : Bytes) :
    ∃ object, layout.parse key = .ok object ∧
      object.bind (·.lookup "event_id") =
        if layout.stop ≤ key.length then
          some (.string (hexEncode ((key.take layout.stop).drop layout.start)))
        else none := by
  rw [KeyLayout.parse]
  by_cases hmin : layout.minLen ≤ key.length
  · have hwithin : ∀ field ∈ layout.fields, field.stop ≤ key.length :=
      fun field hfield => le_trans (layout.fields_within field hfield) hmin
    obtain ⟨fields, hread, hnames⟩ := readFields_eq hwithin
    have hlookup : fields.lookup "event_id" = none := by
      rw [List.lookup_eq_none_iff]
      intro member hmember
      have hname : member.1 ∈ layout.fields.map KeyField.name :=
        hnames ▸ List.mem_map_of_mem hmember
      obtain ⟨field, hfield, heq⟩ := List.mem_map.mp hname
      exact bne_iff_ne.mpr (heq ▸ (layout.no_event_id field hfield).symm)
    rw [if_pos hmin, hread]
    by_cases hstop : layout.stop ≤ key.length
    · rw [if_pos hstop]
      refine ⟨some (fields ++ [("event_id",
        .string (hexEncode ((key.take layout.stop).drop layout.start)))]), ?_, ?_⟩
      · simp only [bind, Except.bind, if_pos hstop, slice_of_le layout.start_le hstop]
      · rw [Option.bind_some, List.lookup_append, hlookup]
        rfl
    · rw [if_neg hstop]
      refine ⟨some (fields ++ [("incomplete", .bool true)]), ?_, ?_⟩
      · simp only [bind, Except.bind, if_neg hstop]
      · rw [Option.bind_some, List.lookup_append, hlookup]
        rfl
  · rw [if_neg hmin, if_neg fun hstop => hmin (le_trans layout.minLen_le hstop)]
    exact ⟨none, rfl, rfl⟩

end DumpTool

/-- The functions for one index agree if they take the id from the same place. -/
theorem KeyLayout_agree (layout : DumpTool.KeyLayout) (indexType : String) (key : Bytes)
    (scope : Option String) :
    Agree (IntegrityTool.extractFromKey layout.start layout.stop indexType key scope)
      (layout.parse key) := by
  obtain ⟨object, hparse, hlookup⟩ := layout.parse_eq key
  refine ⟨_, object, IntegrityTool.extractFromKey_eq layout.start_le indexType key scope, hparse,
    ?_⟩
  rw [hlookup]
  by_cases hstop : layout.stop ≤ key.length
  · rw [if_pos hstop, if_pos hstop, Option.map_some]
  · rw [if_neg hstop, if_neg hstop, Option.map_none]

/-- Behind the header, the two tools have the same places for every index. -/
theorem base_agree (i : Index) (scopedKeys : Bool) (key : Bytes) (scope : Option String) :
    Agree (IntegrityTool.extractFromBase (.index i) key scope)
      (DumpTool.parseBase scopedKeys (.index i) key) := by
  cases i with
  | ci => exact KeyLayout_agree DumpTool.ciLayout _ key scope
  | tci => exact KeyLayout_agree DumpTool.tciLayout _ key scope
  | aci => exact KeyLayout_agree DumpTool.aciLayout _ key scope
  | akci => exact KeyLayout_agree DumpTool.akciLayout _ key scope
  | atci => exact KeyLayout_agree DumpTool.atciLayout _ key scope
  | ktci => exact KeyLayout_agree DumpTool.ktciLayout _ key scope
  | deletedIds =>
    by_cases hlength : key.length = 32
    · exact ⟨_, _, if_pos hlength, if_pos hlength, rfl⟩
    · exact ⟨_, _, if_neg hlength, if_neg hlength, rfl⟩

/-- The parts of a scope do not have the name of the id. -/
theorem Agree.scoped {info : Except Panic (Option EventIdInfo)}
    {object : Except Panic (Option JsonObject)} (h : Agree info object) {components : JsonObject}
    (hcomponents : components.lookup "event_id" = none) :
    Agree info (do return (← object).map (components ++ ·)) := by
  obtain ⟨i, o, rfl, rfl, heq⟩ := h
  refine ⟨i, o.map (components ++ ·), rfl, rfl, ?_⟩
  rw [← heq]
  cases o with
  | none => rfl
  | some o => rw [Option.map_some, Option.bind_some, List.lookup_append, hcomponents]; rfl

/-- A key is read by both tools unless it has the header of a scope with a length beyond 64 bits, or
with the length of the key and a hash that is not registered. -/
def HeaderReadable (registry : ScopeRegistry) (key : Bytes) : Prop :=
  12 ≤ key.length → 12 + lengthField key < 2 ^ 64 ∧
    (key.length = 12 + lengthField key → registry (hashField key) ≠ none)

/-- What stands behind a header can be read exactly if the header can. -/
theorem IntegrityTool.parseScopedKey_cases (registry : ScopeRegistry) (key : Bytes) :
    (HeaderReadable registry key ∧ scopedHeader key = .ok none ∧
      parseScopedKey registry key = .ok none) ∨
    (HeaderReadable registry key ∧ ∃ header scope, scopedHeader key = .ok (some header) ∧
      parseScopedKey registry key = .ok (some (scope, header.originalKey))) ∨
    (¬ HeaderReadable registry key ∧ ∃ e, parseScopedKey registry key = .error e) := by
  rw [HeaderReadable]
  obtain ⟨hshort, hheader⟩ | ⟨hlong, hover, hheader⟩ | ⟨hlong, hfits, hother, hheader⟩ |
    ⟨hlong, hfits, hlength, hheader⟩ := scopedHeader_cases key
  · refine .inl ⟨fun hlong => absurd hlong (by omega), hheader, ?_⟩
    rw [parseScopedKey, hheader]; rfl
  · refine .inr (.inr ⟨fun h => absurd (h hlong).1 (by omega), .overflow, ?_⟩)
    rw [parseScopedKey, hheader]; rfl
  · refine .inl ⟨fun _ => ⟨hfits, fun h => absurd h hother⟩, hheader, ?_⟩
    rw [parseScopedKey, hheader]; rfl
  · have hparse : parseScopedKey registry key =
        match registry (hashField key) with
        | some scope => .ok (some (scope, (key.take key.length).drop 12))
        | none => .error (.explicit ("Unknown scope hash: " ++ hex08 (hashField key))) := by
      rw [parseScopedKey, hheader]; rfl
    cases hscope : registry (hashField key) with
    | none =>
      rw [hscope] at hparse
      exact .inr (.inr ⟨fun h => absurd rfl ((h hlong).2 hlength), _, hparse⟩)
    | some scope =>
      rw [hscope] at hparse
      refine .inr (.inl ⟨fun _ => ⟨hfits, fun _ h => ?_⟩, _, scope, hheader, hparse⟩)
      cases h

/-- A header that fits the key: the second tool adds the parts of the scope. -/
theorem DumpTool.parse_of_header (registry : ScopeRegistry) (i : Index) {key : Bytes}
    {header : ScopedHeader} (h : scopedHeader key = .ok (some header)) :
    ∃ components : JsonObject, components.lookup "event_id" = none ∧
      parseKey registry ⟨.index i, true⟩ key =
        do return (← parseBase true (.index i) header.originalKey).map (components ++ ·) := by
  refine ⟨_, ?_, by rw [parseKey, if_pos rfl, parseScopedKey, h]; rfl⟩
  rfl

/-- **The two tools** stop at no key of an index and find the same id in it exactly if the index is
one without scopes, or if the sum in the header of the key does not overflow and the hash in a
header that fits the key is registered. -/
theorem readAlike_iff (registry : ScopeRegistry) (i : Index) (scopedKeys : Bool) (key : Bytes) :
    ReadAlike registry ⟨.index i, scopedKeys⟩ key ↔
      (scopedKeys = true → HeaderReadable registry key) := by
  cases scopedKeys with
  | false => exact ⟨fun _ h => (nomatch h), fun _ => base_agree i false key none⟩
  | true =>
    refine Iff.trans ?_ (forall_prop_of_true rfl).symm
    rw [ReadAlike]
    obtain ⟨hreadable, hheader, hparse⟩ | ⟨hreadable, header, scope, hheader, hparse⟩ |
      ⟨hnot, e, hparse⟩ := IntegrityTool.parseScopedKey_cases registry key
    · -- no header that fits the key: nothing is found
      refine iff_of_true ⟨none, none, ?_, ?_, rfl⟩ hreadable
      · rw [IntegrityTool.extractEventIdFromKey, hparse]; rfl
      · rw [DumpTool.parseKey, DumpTool.parseScopedKey, hheader]; rfl
    · -- both tools read the key behind the header
      have hinfo : IntegrityTool.extractEventIdFromKey registry ⟨.index i, true⟩ key =
          IntegrityTool.extractFromBase (.index i) header.originalKey (some scope) := by
        rw [IntegrityTool.extractEventIdFromKey, hparse]; rfl
      obtain ⟨components, hcomponents, hobject⟩ := DumpTool.parse_of_header registry i hheader
      refine iff_of_true ?_ hreadable
      rw [hinfo, hobject]
      exact (base_agree i true _ (some scope)).scoped hcomponents
    · -- the first tool stops
      refine iff_of_false ?_ hnot
      rintro ⟨info, _, hinfo, -⟩
      rw [IntegrityTool.extractEventIdFromKey, if_pos rfl, hparse] at hinfo
      cases hinfo

/-- A key of the index by time, in the scope with the hash `00000001`. -/
def scopedCiKey : Bytes :=
  [0, 0, 0, 1] ++ [0, 0, 0, 0, 0, 0, 0, 40] ++ List.replicate 40 7

/-- Where the scope is not registered, the first tool stops at a key in which the second one finds
the id. -/
theorem unregistered_scope_stops :
    IntegrityTool.extractEventIdFromKey (fun _ => none) ⟨.index .ci, true⟩ scopedCiKey =
      .error (.explicit "Unknown scope hash: 00000001") ∧
    (∃ object, DumpTool.parseKey (fun _ => none) ⟨.index .ci, true⟩ scopedCiKey =
        .ok (some object) ∧
      object.lookup "event_id" = some (.string (hexEncode (List.replicate 32 7)))) ∧
    ¬ ReadAlike (fun _ => none) ⟨.index .ci, true⟩ scopedCiKey := by
  have hheader : scopedHeader scopedCiKey = .ok (some ⟨[0, 0, 0, 1], [0, 0, 0, 0, 0, 0, 0, 40],
      List.replicate 40 7⟩) := by
    decide +kernel
  have hstops : IntegrityTool.extractEventIdFromKey (fun _ => none) ⟨.index .ci, true⟩ scopedCiKey =
      .error (.explicit "Unknown scope hash: 00000001") := by
    decide +kernel
  refine ⟨hstops, ?_, fun ⟨_, _, hinfo, _⟩ => ?_⟩
  · obtain ⟨components, hcomponents, hparse⟩ :=
      DumpTool.parse_of_header (fun _ => none) .ci hheader
    obtain ⟨object, hobject, hlookup⟩ := DumpTool.ciLayout.parse_eq (List.replicate 40 7)
    rw [if_pos (by decide)] at hlookup
    obtain ⟨fields, rfl, hfields⟩ := Option.bind_eq_some_iff.mp hlookup
    refine ⟨components ++ fields, ?_, ?_⟩
    · rw [hparse, DumpTool.parseBase, DumpTool.parseCiKey, hobject]
      rfl
    · rw [List.lookup_append, hcomponents]
      exact hfields
  · cases hstops.symm.trans hinfo

end RelayBuilder
