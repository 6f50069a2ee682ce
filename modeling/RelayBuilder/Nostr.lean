import Mathlib.Algebra.Group.Nat.Defs
import Mathlib.Data.List.AList
import Mathlib.Data.List.Infix

/-!
# Events and filters

The part of the data model of `nostr-sdk` that the relay reads. Identifiers are 32 bytes. The
ordered sets and maps of a filter are lists without duplicates in the order of their iteration.

`matchEvent`, the kind ranges and the serialization belong to the library, not to the relay: the
relay's functions take them as parameters. `MatchLaws` states what the relay relies on when it
looks filters up by one of their fields.
-/

namespace RelayBuilder

abbrev EventId := BitVec 256

instance : LawfulBEq EventId := inferInstance

abbrev PublicKey := BitVec 256

abbrev Kind := UInt16

/-- Seconds since the epoch. -/
abbrev Timestamp := ℕ

abbrev ConnectionId := String

abbrev SubscriptionId := String

/-- A tenant's part of the store and of the live subscriptions. -/
inductive Scope where
  | default
  | named (name : String)
  deriving DecidableEq

/-- An ordered set, as the list of its elements in the order of iteration. -/
abbrev OrdSet (α : Type) := {l : List α // l.Nodup}

/-- The name of an indexable tag: one letter of the Latin alphabet, in either case. -/
structure SingleLetterTag where
  character : Char
  isAlpha : character.isAlpha = true
  deriving DecidableEq

namespace SingleLetterTag

def asStr (t : SingleLetterTag) : String := String.ofList [t.character]

/-- The letter a string consists of, if it is a single letter. -/
def parse (s : String) : Option SingleLetterTag :=
  match s.toList with
  | [c] => if h : c.isAlpha = true then some ⟨c, h⟩ else none
  | _ => none

@[simp] theorem parse_asStr (t : SingleLetterTag) : parse t.asStr = some t := by
  obtain ⟨c, h⟩ := t
  simp [parse, asStr, h]

end SingleLetterTag

/-- A tag of an event. Its slice is the kind followed by the values, so it is never empty. -/
structure Tag where
  kind : String
  values : List String
  deriving DecidableEq

/-- A signed event. -/
structure Event where
  id : EventId
  pubkey : PublicKey
  createdAt : Timestamp
  kind : Kind
  tags : List Tag
  content : String
  deriving DecidableEq

/-- A filter of a REQ. An absent set matches everything. -/
structure Filter where
  ids : Option (OrdSet EventId)
  authors : Option (OrdSet PublicKey)
  kinds : Option (OrdSet Kind)
  search : Option String
  since : Option Timestamp
  «until» : Option Timestamp
  limit : Option ℕ
  genericTags : AList fun _ : SingleLetterTag => OrdSet String
  deriving DecidableEq

namespace Filter

/-- `Filter::new`. -/
def new : Filter := ⟨none, none, none, none, none, none, none, ∅⟩

/-- `Filter::new().kind(kind)`. -/
def kind (kind : Kind) : Filter := { new with kinds := some ⟨[kind], List.nodup_singleton _⟩ }

end Filter

/-- A text note, to evaluate examples with. -/
def Event.note (id : EventId) : Event := ⟨id, 1, 0, 1, [], "hello"⟩

/-- What the relay relies on from `Filter::match_event`: a filter only matches events that carry
one of the ids, authors and kinds it names, and for each of its tags one of the tag's values, as
the first value of a tag with that letter. -/
structure MatchLaws (matchEvent : Filter → Event → Bool) : Prop where
  ids : ∀ f e s, matchEvent f e = true → f.ids = some s → s.1 ≠ [] → e.id ∈ s.1
  authors : ∀ f e s, matchEvent f e = true → f.authors = some s → s.1 ≠ [] → e.pubkey ∈ s.1
  kinds : ∀ f e s, matchEvent f e = true → f.kinds = some s → s.1 ≠ [] → e.kind ∈ s.1
  tags : ∀ f e letter s, matchEvent f e = true → f.genericTags.lookup letter = some s →
    ∃ tag ∈ e.tags, tag.kind = letter.asStr ∧ ∃ v ∈ s.1, tag.values.head? = some v

namespace Filter

/-- A set of a filter admits a value: absent and empty sets admit all. -/
def admits {α : Type} [DecidableEq α] (s : Option (OrdSet α)) (a : α) : Bool :=
  match s with
  | none => true
  | some s => s.1.isEmpty || decide (a ∈ s.1)

/-- One reading of `Filter::match_event` as NIP-01 describes it, to evaluate examples with. -/
def matchEvent (f : Filter) (e : Event) : Bool :=
  admits f.ids e.id && admits f.authors e.pubkey && admits f.kinds e.kind &&
    f.since.all (· ≤ e.createdAt) && f.«until».all (e.createdAt ≤ ·) &&
    (f.search.all fun text => decide (text.toLower.toList <:+: e.content.toLower.toList)) &&
    f.genericTags.entries.all fun ⟨letter, s⟩ =>
      e.tags.any fun tag =>
        tag.kind == letter.asStr && tag.values.head?.any fun v => decide (v ∈ s.1)

theorem mem_of_admits {α : Type} [DecidableEq α] {s : OrdSet α} {a : α}
    (h : admits (some s) a = true) (hs : s.1 ≠ []) : a ∈ s.1 := by
  simpa [admits, hs] using h

theorem matchEvent_laws : MatchLaws matchEvent := by
  refine ⟨fun f e s h hs => ?_, fun f e s h hs => ?_, fun f e s h hs => ?_,
    fun f e letter s h hs => ?_⟩ <;>
    simp only [matchEvent, Bool.and_eq_true] at h <;> obtain ⟨⟨⟨⟨⟨⟨hi, ha⟩, hk⟩, -⟩, -⟩, -⟩, ht⟩ := h
  · exact mem_of_admits (hs ▸ hi)
  · exact mem_of_admits (hs ▸ ha)
  · exact mem_of_admits (hs ▸ hk)
  · rw [List.all_eq_true] at ht
    have hmem : (⟨letter, s⟩ : Sigma fun _ : SingleLetterTag => OrdSet String) ∈
        f.genericTags.entries := AList.mem_lookup_iff.mp hs
    obtain ⟨tag, htag, hmatch⟩ := List.any_eq_true.mp (ht _ hmem)
    rw [Bool.and_eq_true, beq_iff_eq] at hmatch
    refine ⟨tag, htag, hmatch.1, ?_⟩
    cases hv : tag.values.head? with
    | none => simp [hv] at hmatch
    | some v => exact ⟨v, by simpa [hv] using hmatch.2, rfl⟩

end Filter

end RelayBuilder
