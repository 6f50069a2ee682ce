import Mathlib.Algebra.Group.Nat.Defs
import Mathlib.Data.List.Basic
import Mathlib.Tactic.Common

/-!
# Bytes

Lists of bytes, with the operations that stop a program where it reaches beyond the end: slices,
single bytes and sums of lengths. Numbers are read with the most significant byte first, and texts
from hexadecimal digits or from UTF-8.

## Main definitions

* `Panic`, `slice`, `index`, `addUsize`
* `bigEndian`, `hexEncode`, `fromUtf8Lossy`

## Main results

* `slice_of_le`: a slice within the bytes
* `hexEncode_injective`
-/

namespace KeyBytes

abbrev Bytes := List UInt8

/-- Why a program stops. -/
inductive Panic where
  | outOfBounds
  | overflow
  | explicit (text : String)
  deriving DecidableEq

/-- `bytes[start..stop]`. -/
def slice (bytes : Bytes) (start stop : ℕ) : Except Panic Bytes :=
  if start ≤ stop ∧ stop ≤ bytes.length then .ok ((bytes.take stop).drop start)
  else .error .outOfBounds

/-- `bytes[i]`. -/
def index (bytes : Bytes) (i : ℕ) : Except Panic UInt8 :=
  match bytes[i]? with
  | some b => .ok b
  | none => .error .outOfBounds

/-- `+` of two lengths of 64 bits. -/
def addUsize (a b : ℕ) : Except Panic ℕ :=
  if a + b < 2 ^ 64 then .ok (a + b) else .error .overflow

theorem slice_of_le {bytes : Bytes} {start stop : ℕ} (h : start ≤ stop)
    (hlength : stop ≤ bytes.length) :
    slice bytes start stop = .ok ((bytes.take stop).drop start) :=
  if_pos ⟨h, hlength⟩

theorem index_of_lt {bytes : Bytes} {i : ℕ} (h : i < bytes.length) :
    index bytes i = .ok bytes[i] := by
  rw [index, List.getElem?_eq_getElem h]

theorem addUsize_of_lt {a b : ℕ} (h : a + b < 2 ^ 64) : addUsize a b = .ok (a + b) := if_pos h

theorem addUsize_of_le {a b : ℕ} (h : 2 ^ 64 ≤ a + b) : addUsize a b = .error .overflow :=
  if_neg (Nat.not_lt.mpr h)

/-! ### Loops that may stop

A loop that adds something to its result for each element is `List.flatMapM`. -/

section FlatMapM

variable {ε α β : Type} {f : α → Except ε (List β)}

/-- A loop comes to its end exactly if it does not stop at any element. -/
theorem flatMapM_ok_iff {xs : List α} :
    (∃ ys, xs.flatMapM f = .ok ys) ↔ ∀ x ∈ xs, ∃ ys, f x = .ok ys := by
  induction xs with
  | nil => exact ⟨fun _ _ hx => (nomatch hx), fun _ => ⟨[], rfl⟩⟩
  | cons x xs ih =>
    rw [List.flatMapM_cons, List.forall_mem_cons, ← ih]
    cases hx : f x with
    | error e => exact ⟨fun ⟨_, h⟩ => (nomatch h), fun ⟨⟨_, h⟩, _⟩ => (nomatch h)⟩
    | ok ys =>
      cases hxs : xs.flatMapM f with
      | error e => exact ⟨fun ⟨_, h⟩ => (nomatch h), fun ⟨_, _, h⟩ => (nomatch h)⟩
      | ok zs => exact ⟨fun _ => ⟨⟨ys, rfl⟩, zs, rfl⟩, fun _ => ⟨ys ++ zs, rfl⟩⟩

/-- At its end it has what it added for the elements. -/
theorem mem_flatMapM_iff {xs : List α} {ys : List β} (h : xs.flatMapM f = .ok ys) {y : β} :
    y ∈ ys ↔ ∃ x ∈ xs, ∃ zs, f x = .ok zs ∧ y ∈ zs := by
  induction xs generalizing ys with
  | nil =>
    cases h
    exact ⟨fun hy => (nomatch hy), fun ⟨_, hx, _⟩ => (nomatch hx)⟩
  | cons x xs ih =>
    rw [List.flatMapM_cons] at h
    cases hx : f x with
    | error e => rw [hx] at h; cases h
    | ok zs =>
      cases hxs : xs.flatMapM f with
      | error e => rw [hx, hxs] at h; cases h
      | ok rest =>
        rw [hx, hxs] at h
        cases h
        rw [List.mem_append, ih hxs, List.exists_mem_cons_iff, hx]
        exact or_congr_left ⟨fun hy => ⟨zs, rfl, hy⟩, fun ⟨_, heq, hy⟩ => by cases heq; exact hy⟩

end FlatMapM

/-- The number with these bytes, the most significant one first. -/
def bigEndian (bytes : Bytes) : ℕ := bytes.foldl (fun n b => n * 256 + b.toNat) 0

/-! ### Hexadecimal digits -/

/-- The digits `0` to `9` and `a` to `f`. -/
def hexChar (n : ℕ) : Char := if n < 10 then Char.ofNat (48 + n) else Char.ofNat (87 + n)

/-- `hex::encode`: two digits for each byte. -/
def hexEncode (bytes : Bytes) : String :=
  String.ofList (bytes.flatMap fun b => [hexChar (b.toNat / 16), hexChar (b.toNat % 16)])

/-- `{:08x}`: eight digits of a number. -/
def hex08 (n : ℕ) : String :=
  String.ofList ((List.range 8).reverse.map fun i => hexChar (n / 16 ^ i % 16))

theorem hexChar_inj {m n : ℕ} (hm : m < 16) (hn : n < 16) (h : hexChar m = hexChar n) : m = n := by
  have : ∀ m < 16, ∀ n < 16, hexChar m = hexChar n → m = n := by decide
  exact this m hm n hn h

theorem hexEncode_injective : Function.Injective hexEncode := by
  intro bytes bytes' h
  replace h := String.ofList_inj.mp h
  induction bytes generalizing bytes' with
  | nil =>
    cases bytes' with
    | nil => rfl
    | cons b' bytes' => cases h
  | cons b bytes ih =>
    cases bytes' with
    | nil => cases h
    | cons b' bytes' =>
      rw [List.flatMap_cons, List.flatMap_cons, List.cons_append, List.cons_append,
        List.cons_append, List.cons_append, List.nil_append, List.nil_append] at h
      obtain ⟨hhigh, h⟩ := List.cons.inj h
      obtain ⟨hlow, h⟩ := List.cons.inj h
      have hb := b.toNat_lt
      have hb' := b'.toNat_lt
      have hhigh := hexChar_inj (by omega) (by omega) hhigh
      have hlow := hexChar_inj (by omega) (by omega) hlow
      rw [ih h, UInt8.toNat_inj.mp (by omega : b.toNat = b'.toNat)]

/-! ### UTF-8 -/

/-- `str::from_utf8`. -/
def fromUtf8 (bytes : Bytes) : Option String := String.fromUTF8? ⟨bytes.toArray⟩

/-- What each further byte of a character may be, after its first byte. -/
def continuations (b : UInt8) : Option (List (UInt8 × UInt8)) :=
  let any : UInt8 × UInt8 := (0x80, 0xBF)
  if b < 0x80 then some []
  else if b < 0xC2 then none
  else if b < 0xE0 then some [any]
  else if b = 0xE0 then some [(0xA0, 0xBF), any]
  else if b = 0xED then some [(0x80, 0x9F), any]
  else if b < 0xF0 then some [any, any]
  else if b = 0xF0 then some [(0x90, 0xBF), any, any]
  else if b < 0xF4 then some [any, any, any]
  else if b = 0xF4 then some [(0x80, 0x8F), any, any]
  else none

/-- How many bytes are in the ranges, one after another. -/
def inRanges : List (UInt8 × UInt8) → Bytes → ℕ
  | (low, high) :: ranges, b :: bytes =>
    if low ≤ b ∧ b ≤ high then inRanges ranges bytes + 1 else 0
  | _, _ => 0

/-- The character with this first byte and these further ones. -/
def decodeChar (b : UInt8) (further : Bytes) : Char :=
  let bits := match further.length with
    | 0 => 128
    | 1 => 32
    | 2 => 16
    | _ => 8
  Char.ofNat (further.foldl (fun n c => n * 64 + c.toNat % 64) (b.toNat % bits))

/-- `String::from_utf8_lossy`, where `fuel` bounds the number of characters: the replacement
character stands for the start of a character that does not go on as it should. -/
def decodeLossy : ℕ → Bytes → List Char
  | fuel + 1, b :: bytes =>
    match continuations b with
    | none => Char.ofNat 0xFFFD :: decodeLossy fuel bytes
    | some ranges =>
      let n := inRanges ranges bytes
      let c := if n = ranges.length then decodeChar b (bytes.take n) else Char.ofNat 0xFFFD
      c :: decodeLossy fuel (bytes.drop n)
  | _, _ => []

/-- `String::from_utf8_lossy`. -/
def fromUtf8Lossy (bytes : Bytes) : String := String.ofList (decodeLossy bytes.length bytes)

end KeyBytes
