import Mathlib.Data.List.Basic
import Mathlib.Tactic.Common

/-!
# JSON texts

The grammar of RFC 8259 as relations between texts and the values that they denote. A text is a
list of characters here.

## Main definitions

* `Json`, `Value` and `Document`: which text denotes which value
* `Chars`: what the characters between two quotation marks denote

## Main results

* `Chars.unique_end`: the quotation mark that ends a string is unique
* `Chars.plain_of_self`: a string that denotes itself, in front of a quotation mark, has nothing to
  escape
* `Document.string_inv`, `Document.array_inv`: the texts of strings and of arrays
-/

namespace JsonText

/-- A JSON value. Numbers are kept as they are written. -/
inductive Json where
  | null
  | bool (b : Bool)
  | number (text : String)
  | string (s : String)
  | array (values : List Json)
  | object (members : List (String × Json))

/-- White space. -/
def IsSpace (c : Char) : Prop := c = ' ' ∨ c = '\t' ∨ c = '\n' ∨ c = '\r'

instance : DecidablePred IsSpace := fun _ => inferInstanceAs (Decidable (_ ∨ _))

def Spaces (text : List Char) : Prop := ∀ c ∈ text, IsSpace c

/-! ### Strings -/

/-- A character that stands for itself in a string. -/
def Unescaped (c : Char) : Prop := c ≠ '"' ∧ c ≠ '\\' ∧ 0x20 ≤ c.toNat

instance : DecidablePred Unescaped := fun c =>
  inferInstanceAs (Decidable (c ≠ '"' ∧ c ≠ '\\' ∧ 0x20 ≤ c.toNat))

/-- A closed text is checked character by character. -/
theorem unescaped_of_all {s : List Char} (h : s.all (Unescaped ·) = true) :
    ∀ c ∈ s, Unescaped c :=
  fun c hc => of_decide_eq_true (List.all_eq_true.mp h c hc)

/-- What a character after a backslash denotes. -/
def escaped : Char → Option Char
  | '"' => some '"'
  | '\\' => some '\\'
  | '/' => some '/'
  | 'b' => some '\x08'
  | 'f' => some '\x0c'
  | 'n' => some '\n'
  | 'r' => some '\r'
  | 't' => some '\t'
  | _ => none

def hexDigit (c : Char) : Option ℕ :=
  if c.isDigit then some (c.toNat - '0'.toNat)
  else if 'a' ≤ c ∧ c ≤ 'f' then some (c.toNat - 'a'.toNat + 10)
  else if 'A' ≤ c ∧ c ≤ 'F' then some (c.toNat - 'A'.toNat + 10)
  else none

/-- The number that four hexadecimal digits denote. -/
def hexValue (a b c d : Char) : Option ℕ := do
  pure (4096 * (← hexDigit a) + 256 * (← hexDigit b) + 16 * (← hexDigit c) + (← hexDigit d))

/-- What the characters between the quotation marks of a string denote. -/
inductive Chars : List Char → List Char → Prop where
  | nil : Chars [] []
  | plain {c : Char} {text s : List Char} (hc : Unescaped c) (h : Chars text s) :
    Chars (c :: text) (c :: s)
  | escape {c d : Char} {text s : List Char} (hc : escaped c = some d) (h : Chars text s) :
    Chars ('\\' :: c :: text) (d :: s)
  | unicode {a b c d : Char} {n : ℕ} {text s : List Char} (hn : hexValue a b c d = some n)
    (hvalid : n.isValidChar) (h : Chars text s) :
    Chars ('\\' :: 'u' :: a :: b :: c :: d :: text) (Char.ofNat n :: s)
  | surrogates {a b c d a' b' c' d' : Char} {high low : ℕ} {text s : List Char}
    (hhigh : hexValue a b c d = some high) (hhigh' : 0xd800 ≤ high ∧ high < 0xdc00)
    (hlow : hexValue a' b' c' d' = some low) (hlow' : 0xdc00 ≤ low ∧ low < 0xe000)
    (h : Chars text s) :
    Chars ('\\' :: 'u' :: a :: b :: c :: d :: '\\' :: 'u' :: a' :: b' :: c' :: d' :: text)
      (Char.ofNat (0x10000 + 0x400 * (high - 0xd800) + (low - 0xdc00)) :: s)

/-! ### Values -/

def Digits (text : List Char) : Prop := text ≠ [] ∧ ∀ c ∈ text, c.isDigit = true

/-- A number: an integer without leading zeros, and perhaps a fraction and an exponent. -/
def IsNumber (text : List Char) : Prop :=
  ∃ minus int frac exp, text = minus ++ int ++ frac ++ exp ∧ (minus = [] ∨ minus = ['-']) ∧
    (int = ['0'] ∨ Digits int ∧ int.head? ≠ some '0') ∧
    (frac = [] ∨ ∃ digits, Digits digits ∧ frac = '.' :: digits) ∧
    (exp = [] ∨ ∃ e sign digits, (e = 'e' ∨ e = 'E') ∧ (sign = [] ∨ sign = ['+'] ∨ sign = ['-']) ∧
      Digits digits ∧ exp = e :: sign ++ digits)

mutual

/-- The text denotes the value. -/
inductive Value : List Char → Json → Prop where
  | null : Value ['n', 'u', 'l', 'l'] .null
  | true : Value ['t', 'r', 'u', 'e'] (.bool true)
  | false : Value ['f', 'a', 'l', 's', 'e'] (.bool false)
  | number {text : List Char} (h : IsNumber text) : Value text (.number (String.ofList text))
  | string {text s : List Char} (h : Chars text s) :
    Value ('"' :: text ++ ['"']) (.string (String.ofList s))
  | emptyArray {space : List Char} (h : Spaces space) : Value ('[' :: space ++ [']']) (.array [])
  | array {text : List Char} {values : List Json} (h : Items text values) :
    Value ('[' :: text ++ [']']) (.array values)
  | emptyObject {space : List Char} (h : Spaces space) :
    Value ('{' :: space ++ ['}']) (.object [])
  | object {text : List Char} {members : List (String × Json)} (h : Members text members) :
    Value ('{' :: text ++ ['}']) (.object members)

/-- The text denotes the value, with white space around it. -/
inductive Document : List Char → Json → Prop where
  | intro {before text after : List Char} {value : Json} (hbefore : Spaces before)
    (h : Value text value) (hafter : Spaces after) : Document (before ++ text ++ after) value

/-- The text between the brackets of an array. -/
inductive Items : List Char → List Json → Prop where
  | one {text : List Char} {value : Json} (h : Document text value) : Items text [value]
  | cons {text rest : List Char} {value : Json} {values : List Json} (h : Document text value)
    (hrest : Items rest values) : Items (text ++ ',' :: rest) (value :: values)

/-- A name and its value. -/
inductive Member : List Char → String × Json → Prop where
  | intro {before name after text s : List Char} {value : Json} (hbefore : Spaces before)
    (hname : Chars name s) (hafter : Spaces after) (h : Document text value) :
    Member (before ++ '"' :: name ++ '"' :: after ++ ':' :: text) (String.ofList s, value)

/-- The text between the braces of an object. -/
inductive Members : List Char → List (String × Json) → Prop where
  | one {text : List Char} {m : String × Json} (h : Member text m) : Members text [m]
  | cons {text rest : List Char} {m : String × Json} {members : List (String × Json)}
    (h : Member text m) (hrest : Members rest members) :
    Members (text ++ ',' :: rest) (m :: members)

end

/-! ### The end of a string -/

variable {a b r r' s s' w text : List Char} {c d x : Char}

theorem not_unescaped_quote : ¬ Unescaped '"' := fun h => h.1 rfl

theorem not_unescaped_backslash : ¬ Unescaped '\\' := fun h => h.2.1 rfl

theorem chars_self (h : ∀ c ∈ s, Unescaped c) : Chars s s := by
  induction s with
  | nil => exact .nil
  | cons c s ih =>
    obtain ⟨hc, hs⟩ := List.forall_mem_cons.mp h
    exact .plain hc (ih hs)

theorem not_escaped_u : escaped 'u' ≠ some d := nofun

/-- A number of the first half of a pair is not that of a character. -/
theorem not_isValidChar_of_high {n : ℕ} (h : 0xd800 ≤ n ∧ n < 0xdc00) : ¬ n.isValidChar := by
  rintro (hn | ⟨hn, -⟩) <;> omega

/-- **The quotation mark that ends a string is unique.** -/
theorem Chars.unique_end (h : Chars a s) (h' : Chars b s') (heq : a ++ '"' :: r = b ++ '"' :: r') :
    a = b := by
  induction h generalizing b s' with
  | nil =>
    cases h' with
    | nil => rfl
    | plain hc => exact absurd ((List.cons.inj heq).1 ▸ hc) not_unescaped_quote
    | escape | unicode | surrogates => cases (List.cons.inj heq).1
  | plain hc h ih =>
    cases h' with
    | nil => exact absurd ((List.cons.inj heq).1 ▸ hc) not_unescaped_quote
    | plain hc' h' =>
      simp only [List.cons_append, List.cons.injEq] at heq
      obtain ⟨rfl, heq⟩ := heq
      rw [ih h' heq]
    | escape | unicode | surrogates =>
      exact absurd ((List.cons.inj heq).1 ▸ hc) not_unescaped_backslash
  | escape hc h ih =>
    cases h' with
    | nil => cases (List.cons.inj heq).1
    | plain hc' => exact absurd ((List.cons.inj heq).1 ▸ hc') not_unescaped_backslash
    | escape hc' h' =>
      simp only [List.cons_append, List.cons.injEq, true_and] at heq
      obtain ⟨rfl, heq⟩ := heq
      rw [ih h' heq]
    | unicode | surrogates =>
      simp only [List.cons_append, List.cons.injEq, true_and] at heq
      exact absurd (heq.1 ▸ hc) not_escaped_u
  | unicode hn hvalid h ih =>
    cases h' with
    | nil => cases (List.cons.inj heq).1
    | plain hc' => exact absurd ((List.cons.inj heq).1 ▸ hc') not_unescaped_backslash
    | escape hc' =>
      simp only [List.cons_append, List.cons.injEq, true_and] at heq
      exact absurd (heq.1 ▸ hc') not_escaped_u
    | unicode hn' hvalid' h' =>
      simp only [List.cons_append, List.cons.injEq, true_and] at heq
      obtain ⟨rfl, rfl, rfl, rfl, heq⟩ := heq
      rw [ih h' heq]
    | surrogates hhigh hhigh' =>
      simp only [List.cons_append, List.cons.injEq, true_and] at heq
      obtain ⟨rfl, rfl, rfl, rfl, -⟩ := heq
      exact absurd (Option.some.inj (hhigh.symm.trans hn) ▸ hvalid) (not_isValidChar_of_high hhigh')
  | surrogates hhigh hhigh' hlow hlow' h ih =>
    cases h' with
    | nil => cases (List.cons.inj heq).1
    | plain hc' => exact absurd ((List.cons.inj heq).1 ▸ hc') not_unescaped_backslash
    | escape hc' =>
      simp only [List.cons_append, List.cons.injEq, true_and] at heq
      exact absurd (heq.1 ▸ hc') not_escaped_u
    | unicode hn hvalid =>
      simp only [List.cons_append, List.cons.injEq, true_and] at heq
      obtain ⟨rfl, rfl, rfl, rfl, -⟩ := heq
      exact absurd (Option.some.inj (hhigh.symm.trans hn) ▸ hvalid) (not_isValidChar_of_high hhigh')
    | surrogates _ _ _ _ h' =>
      simp only [List.cons_append, List.cons.injEq, true_and] at heq
      obtain ⟨rfl, rfl, rfl, rfl, rfl, rfl, rfl, rfl, heq⟩ := heq
      rw [ih h' heq]

theorem hexDigit_quote : hexDigit '"' = none := by decide

theorem quote_notMem_of_hexValue {n : ℕ} {a b c d : Char} (h : hexValue a b c d = some n) :
    '"' ∉ [a, b, c, d] := by
  intro hmem
  simp only [List.mem_cons, List.not_mem_nil, or_false] at hmem
  rcases hmem with rfl | rfl | rfl | rfl <;> simp [hexValue, hexDigit_quote] at h

/-- The first character of a string is written as itself or after a backslash, and only a quotation
mark is written with one. -/
theorem Chars.cons_inv (h : Chars b (x :: s)) : ∃ token b', b = token ++ b' ∧ Chars b' s ∧
    (Unescaped x ∧ token = [x] ∨ ∃ w, w ≠ [] ∧ (x ≠ '"' → '"' ∉ w) ∧ token = '\\' :: w) := by
  generalize hs : x :: s = s₀ at h
  cases h with
  | nil => cases hs
  | plain hx h =>
    obtain ⟨rfl, rfl⟩ := List.cons.inj hs
    exact ⟨[x], _, rfl, h, .inl ⟨hx, rfl⟩⟩
  | @escape c _ text _ hc h =>
    obtain ⟨rfl, rfl⟩ := List.cons.inj hs
    refine ⟨['\\', c], text, rfl, h, .inr ⟨[c], List.cons_ne_nil _ _, fun hx hmem => hx ?_, rfl⟩⟩
    rw [← List.mem_singleton.mp hmem] at hc
    exact (Option.some.inj hc).symm
  | @unicode a b c d _ text _ hn _ h =>
    obtain ⟨-, rfl⟩ := List.cons.inj hs
    refine ⟨['\\', 'u', a, b, c, d], text, rfl, h, .inr ⟨'u' :: [a, b, c, d],
      List.cons_ne_nil _ _, fun _ => ?_, rfl⟩⟩
    exact List.not_mem_cons_of_ne_of_not_mem (by decide) (quote_notMem_of_hexValue hn)
  | @surrogates a b c d a' b' c' d' _ _ text _ hhigh _ hlow _ h =>
    obtain ⟨-, rfl⟩ := List.cons.inj hs
    have hlow' : '"' ∉ '\\' :: 'u' :: [a', b', c', d'] :=
      List.not_mem_cons_of_ne_of_not_mem (by decide)
        (List.not_mem_cons_of_ne_of_not_mem (by decide) (quote_notMem_of_hexValue hlow))
    have hhigh' : '"' ∉ 'u' :: [a, b, c, d] :=
      List.not_mem_cons_of_ne_of_not_mem (by decide) (quote_notMem_of_hexValue hhigh)
    exact ⟨'\\' :: (('u' :: [a, b, c, d]) ++ '\\' :: 'u' :: [a', b', c', d']), text, rfl, h,
      .inr ⟨_, List.cons_ne_nil _ _, fun _ hmem => (List.mem_append.mp hmem).elim hhigh' hlow',
        rfl⟩⟩

/-- A text that is behind the string it denotes does not come to its end at a quotation mark: what
it is behind by only grows. -/
theorem Chars.ne_of_behind (h : Chars b s) (hw : w ≠ []) (hquote : '"' ∉ w) :
    w ++ b ++ '"' :: r ≠ s ++ '"' :: r' := by
  induction s generalizing b w with
  | nil =>
    obtain ⟨x, w, rfl⟩ := List.exists_cons_of_ne_nil hw
    exact fun heq => hquote ((List.cons.inj heq).1 ▸ List.mem_cons_self ..)
  | cons y s ih =>
    obtain ⟨x, w, rfl⟩ := List.exists_cons_of_ne_nil hw
    intro heq
    obtain ⟨token, b', rfl, h', htoken⟩ := h.cons_inv
    simp only [List.cons_append, List.cons.injEq] at heq
    obtain ⟨rfl, heq⟩ := heq
    have hx : x ≠ '"' := fun hx => hquote (hx ▸ List.mem_cons_self ..)
    have htoken' : token ≠ [] ∧ '"' ∉ token := by
      obtain ⟨-, rfl⟩ | ⟨w', -, hw', rfl⟩ := htoken
      · exact ⟨List.cons_ne_nil _ _, fun hmem => hx (List.mem_singleton.mp hmem).symm⟩
      · exact ⟨List.cons_ne_nil _ _, List.not_mem_cons_of_ne_of_not_mem (by decide) (hw' hx)⟩
    refine ih h' (w := w ++ token) (fun hnil => htoken'.1 (List.append_eq_nil_iff.mp hnil).2) ?_ ?_
    · exact fun hmem => (List.mem_append.mp hmem).elim
        (fun hmem => hquote (List.mem_cons_of_mem x hmem)) htoken'.2
    · rw [← heq, List.append_assoc w token b']

/-- **A string that denotes itself, in front of a quotation mark, has nothing to escape.** -/
theorem Chars.plain_of_self (h : Chars b s) (heq : b ++ '"' :: r = s ++ '"' :: r') :
    ∀ c ∈ s, Unescaped c := by
  induction s generalizing b with
  | nil => exact nofun
  | cons x s ih =>
    obtain ⟨token, b', rfl, h', ⟨hx, rfl⟩ | ⟨w, hw, hquote, rfl⟩⟩ := h.cons_inv
    · simp only [List.cons_append, List.nil_append, List.cons.injEq, true_and] at heq
      exact List.forall_mem_cons.mpr ⟨hx, ih h' heq⟩
    · simp only [List.cons_append, List.cons.injEq] at heq
      obtain ⟨rfl, heq⟩ := heq
      exact absurd heq (h'.ne_of_behind hw (hquote (by decide)))

/-! ### The texts of strings and arrays -/

/-- What starts with a character that is no space has no space before it. -/
theorem spaces_eq_nil (h : Spaces a) (hx : ¬ IsSpace x) (heq : a ++ b = x :: text) : a = [] := by
  cases a with
  | nil => rfl
  | cons c a => exact absurd (h c (List.mem_cons_self ..)) ((List.cons.inj heq).1 ▸ hx)

theorem Value.document {value : Json} (h : Value text value) : Document text value := by
  have hdocument : Document ([] ++ text ++ []) value := .intro nofun h nofun
  rwa [List.nil_append, List.append_nil] at hdocument

/-- The text of a string. -/
theorem Document.string_inv {s : String} (h : Document text (.string s)) :
    ∃ before chars after, Spaces before ∧ Chars chars s.toList ∧ Spaces after ∧
      text = before ++ '"' :: chars ++ '"' :: after := by
  obtain ⟨hbefore, hvalue, hafter⟩ := h
  cases hvalue with
  | @string chars _ hchars =>
    refine ⟨_, chars, _, hbefore, ?_, hafter, ?_⟩
    · rwa [String.toList_ofList]
    · simp only [List.append_assoc, List.cons_append, List.nil_append]

/-- The text of an array that is not empty. -/
theorem Document.array_inv {value : Json} {values : List Json}
    (h : Document text (.array (value :: values))) : ∃ before items after, Spaces before ∧
      Items items (value :: values) ∧ Spaces after ∧ text = before ++ '[' :: items ++ ']' :: after := by
  obtain ⟨hbefore, hvalue, hafter⟩ := h
  cases hvalue with
  | array hitems =>
    refine ⟨_, _, _, hbefore, hitems, hafter, ?_⟩
    simp only [List.append_assoc, List.cons_append, List.nil_append]

end JsonText
