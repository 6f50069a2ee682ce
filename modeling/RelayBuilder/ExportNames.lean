import Mathlib.Data.Option.Basic
import RelayBuilder.Tenants

/-!
# The file names of an export

The tool `export-import` writes the events of each scope to a file and reads the scope back from
the name of the file. A name is a list of parts with `_` between them: the word `scope`, the parts
of the scope, and the number of events, if it is to be included.

Writing replaces the characters that are neither letters nor digits, and reading takes the last
part for a count, if it is a number, and the scope for the default one, if its first part is the
word `default`. So the scopes come back exactly if none of this concerns them.

## Main definitions

* `scopeToFilename`, `parseScopeFromFilename`
* `Restores`: the files of an export are different, and each is read back as its scope
* `Restorable`: what the name of a scope needs

## Main results

* `parseScopeFromFilename_scopeToFilename_iff`: one scope
* `restores_iff`: an export
-/

namespace RelayBuilder

/-! ### The names -/

/-- `sanitize_filename`. -/
def sanitizeFilename (isAlphanumeric : Char → Bool) (name : String) : String :=
  String.ofList <| name.toList.map fun c =>
    if isAlphanumeric c || c == '-' || c == '_' then c else '_'

/-- The `base` of `scope_to_filename`. -/
def scopeBase (isAlphanumeric : Char → Bool) : Scope → String
  | .default => "scope_default"
  | .named name => "scope_" ++ sanitizeFilename isAlphanumeric name

/-- `scope_to_filename`. -/
def scopeToFilename (isAlphanumeric : Char → Bool) (scope : Scope) (includeCount : Bool)
    (count : Option UInt64) : String :=
  match includeCount, count with
  | true, some n => scopeBase isAlphanumeric scope ++ "_" ++ toString n.toNat ++ ".jsonl"
  | _, _ => scopeBase isAlphanumeric scope ++ ".jsonl"

/-- `str::trim_end_matches`, where `fuel` bounds how often the pattern is removed. -/
def trimEndMatches (pattern : List Char) : ℕ → List Char → List Char
  | 0, text => text
  | fuel + 1, text =>
    if pattern.isSuffixOf text then
      trimEndMatches pattern fuel (text.take (text.length - pattern.length))
    else text

/-- `str::parse::<u64>` succeeds: digits, perhaps after a `+`, of a number that fits. -/
def parsesU64 (text : List Char) : Bool :=
  let digits := if text.head? = some '+' then text.tail else text
  !digits.isEmpty && digits.all Char.isDigit && Nat.ofDigitChars 10 digits 0 < 2 ^ 64

/-- `parse_scope_from_filename`. -/
def parseScopeFromFilename (sdk : ScopeSdk) (filename : String) : Option Scope :=
  if ¬ ".jsonl".toList.isSuffixOf filename.toList then none
  else
    let name := trimEndMatches ".jsonl".toList filename.length filename.toList
    let parts := name.splitOn '_'
    if parts.length < 2 ∨ parts[0]? ≠ some "scope".toList then none
    else if parts[1]? = some "default".toList then some .default
    else
      let endIndex :=
        if 2 < parts.length ∧ parsesU64 (parts.getLastD []) then parts.length - 1
        else parts.length
      sdk.named (String.ofList (['_'].intercalate ((parts.take endIndex).drop 1)))

/-! ### What is claimed and what it takes -/

/-- The files that `scopes`, with their numbers of events, are exported to are different, and each
is imported into the scope that it came from. -/
structure Restores (isAlphanumeric : Char → Bool) (sdk : ScopeSdk) (includeCount : Bool)
    (scopes : List (Scope × Option UInt64)) : Prop where
  different : (scopes.map fun s => scopeToFilename isAlphanumeric s.1 includeCount s.2).Nodup
  restored : ∀ s ∈ scopes,
    parseScopeFromFilename sdk (scopeToFilename isAlphanumeric s.1 includeCount s.2) = some s.1

/-- The parts of a name. -/
def nameParts (name : String) : List (List Char) := name.toList.splitOn '_'

/-- The name has more than one part, and the last one reads as a count. -/
def EndsInCount (name : String) : Prop :=
  2 ≤ (nameParts name).length ∧ parsesU64 ((nameParts name).getLastD []) = true

instance (name : String) : Decidable (EndsInCount name) := inferInstanceAs (Decidable (_ ∧ _))

/-- The name of the scope has no character that is replaced and does not start with the part
`default`, and it does not end in a number, unless a count follows it. -/
def Restorable (isAlphanumeric : Char → Bool) (includeCount : Bool) :
    Scope × Option UInt64 → Prop
  | (.default, _) => True
  | (.named name, count) =>
    sanitizeFilename isAlphanumeric name = name ∧ (nameParts name)[0]? ≠ some "default".toList ∧
      (includeCount = true ∧ count.isSome = true ∨ ¬ EndsInCount name)

/-- On the ASCII characters, `char::is_alphanumeric` is true of the letters and the digits. -/
def AsciiAlphanumeric (isAlphanumeric : Char → Bool) : Prop :=
  ∀ c, c.toNat < 128 → isAlphanumeric c = c.isAlphanum

/-- `Scope::named` accepts the name of the scope. -/
def ScopeSdk.Accepts (sdk : ScopeSdk) : Scope → Prop
  | .default => True
  | .named name => sdk.accepts name = true

variable {isAlphanumeric : Char → Bool} {sdk : ScopeSdk} {includeCount : Bool}

/-! ### Parts -/

/-- The parts of the name of a file between the word `scope` and the count. -/
def scopeParts (isAlphanumeric : Char → Bool) : Scope → List (List Char)
  | .default => ["default".toList]
  | .named name => nameParts (sanitizeFilename isAlphanumeric name)

/-- The part for the count. -/
def countParts : Bool → Option UInt64 → List (List Char)
  | true, some n => [Nat.toDigits 10 n.toNat]
  | _, _ => []

theorem nameParts_ne_nil (name : String) : nameParts name ≠ [] :=
  List.splitOn_ne_nil '_' name.toList

theorem intercalate_nameParts (name : String) : ['_'].intercalate (nameParts name) = name.toList :=
  List.intercalate_splitOn '_'

theorem scopeParts_ne_nil (scope : Scope) : scopeParts isAlphanumeric scope ≠ [] := by
  cases scope with
  | default => exact List.cons_ne_nil "default".toList []
  | named name => exact nameParts_ne_nil _

theorem intercalate_append_singleton {parts : List (List Char)} (hne : parts ≠ [])
    (last : List Char) :
    ['_'].intercalate (parts ++ [last]) = ['_'].intercalate parts ++ '_' :: last := by
  induction parts with
  | nil => exact (hne rfl).elim
  | cons part parts ih =>
    cases parts with
    | nil =>
      rw [List.singleton_append, List.intercalate_cons_cons, List.intercalate_singleton,
        List.intercalate_singleton, List.append_assoc, List.singleton_append]
    | cons next rest =>
      rw [List.cons_append, List.intercalate_cons_of_ne_nil (by simp), ih (List.cons_ne_nil _ _),
        List.intercalate_cons_cons, List.append_assoc _ _ ('_' :: last)]

theorem toList_scopeBase (scope : Scope) :
    (scopeBase isAlphanumeric scope).toList =
      ['_'].intercalate ("scope".toList :: scopeParts isAlphanumeric scope) := by
  cases scope with
  | default => exact (by decide : "scope_default".toList =
      ['_'].intercalate ["scope".toList, "default".toList])
  | named name =>
    have hscope : "scope_".toList = "scope".toList ++ ['_'] := by decide
    rw [scopeBase, String.toList_append, scopeParts,
      List.intercalate_cons_of_ne_nil (nameParts_ne_nil _), intercalate_nameParts, hscope]

/-- The characters of the name of a file. -/
theorem toList_scopeToFilename (scope : Scope) (count : Option UInt64) :
    (scopeToFilename isAlphanumeric scope includeCount count).toList =
      ['_'].intercalate
          ("scope".toList :: (scopeParts isAlphanumeric scope ++ countParts includeCount count)) ++
        ".jsonl".toList := by
  unfold scopeToFilename countParts
  split
  · next n =>
    have hunderscore : "_".toList = ['_'] := by decide
    have hdigits : (toString n.toNat).toList = Nat.toDigits 10 n.toNat := Nat.toList_repr
    rw [String.toList_append, String.toList_append, String.toList_append, toList_scopeBase,
      ← List.cons_append, intercalate_append_singleton (List.cons_ne_nil _ _),
      hunderscore, List.append_assoc _ ['_'], List.singleton_append, hdigits]
  · rw [String.toList_append, toList_scopeBase, List.append_nil]

/-! ### No dots and no separators -/

/-- The separator is in no part, and neither is the dot of the extension. -/
def IsPart (part : List Char) : Prop := '_' ∉ part ∧ '.' ∉ part

theorem isPart_toDigits (n : ℕ) : IsPart (Nat.toDigits 10 n) := by
  have hdigit {c : Char} (hc : c ∈ Nat.toDigits 10 n) : c.isDigit = true :=
    Nat.isDigit_of_mem_toDigits (by decide) (by decide) hc
  exact ⟨fun h => absurd (hdigit h) (by decide), fun h => absurd (hdigit h) (by decide)⟩

theorem dot_notMem_sanitizeFilename (hascii : AsciiAlphanumeric isAlphanumeric) (name : String) :
    '.' ∉ (sanitizeFilename isAlphanumeric name).toList := by
  rw [sanitizeFilename, String.toList_ofList, List.mem_map]
  rintro ⟨c, -, hc⟩
  split at hc
  · next hkept =>
    obtain rfl := hc
    rw [hascii '.' (by decide)] at hkept
    exact absurd hkept (by decide)
  · exact absurd hc (by decide)

theorem isPart_of_mem_nameParts {name : String} (hdot : '.' ∉ name.toList) {part : List Char}
    (h : part ∈ nameParts name) : IsPart part :=
  ⟨fun hc => (Hosts.mem_of_mem_splitOn h hc).2 rfl,
    fun hc => hdot (Hosts.mem_of_mem_splitOn h hc).1⟩

theorem trimEndMatches_append {text : List Char} (hdot : '.' ∉ text) {fuel : ℕ}
    (hfuel : fuel ≠ 0) :
    trimEndMatches ".jsonl".toList fuel (text ++ ".jsonl".toList) = text := by
  have hstays (fuel : ℕ) : trimEndMatches ".jsonl".toList fuel text = text := by
    cases fuel with
    | zero => rfl
    | succ fuel =>
      refine if_neg fun hsuffix => hdot ?_
      exact (List.isSuffixOf_iff_suffix.mp hsuffix).subset (by decide)
  obtain ⟨fuel, rfl⟩ := Nat.exists_eq_succ_of_ne_zero hfuel
  rw [trimEndMatches, if_pos (List.isSuffixOf_iff_suffix.mpr (List.suffix_append ..)),
    List.length_append, Nat.add_sub_cancel, List.take_left]
  exact hstays fuel

/-! ### Reading the parts -/

/-- The parts without a last one that reads as a count. -/
def withoutCount (parts : List (List Char)) : List (List Char) :=
  if 2 ≤ parts.length ∧ parsesU64 (parts.getLastD []) then parts.dropLast else parts

theorem take_withoutCount {first : List Char} {parts : List (List Char)} (hne : parts ≠ []) :
    ((first :: parts).take
        (if 2 < (first :: parts).length ∧ parsesU64 ((first :: parts).getLastD []) then
          (first :: parts).length - 1
        else (first :: parts).length)).drop 1 = withoutCount parts := by
  have hlast : (first :: parts).getLastD [] = parts.getLastD [] := by
    obtain ⟨second, rest, rfl⟩ := List.exists_cons_of_ne_nil hne
    rfl
  rw [withoutCount, hlast, List.length_cons, Nat.add_sub_cancel]
  by_cases hcount : 2 ≤ parts.length ∧ parsesU64 (parts.getLastD []) = true
  · have hlong : 2 < parts.length + 1 := Nat.lt_succ_of_le hcount.1
    rw [if_pos ⟨hlong, hcount.2⟩, if_pos hcount, List.dropLast_eq_take]
    obtain ⟨n, hn⟩ := Nat.exists_eq_succ_of_ne_zero (List.length_pos_iff.mpr hne).ne'
    rw [hn]
    rfl
  · have hshort : ¬ (2 < parts.length + 1 ∧ parsesU64 (parts.getLastD []) = true) := fun h =>
      hcount ⟨Nat.le_of_lt_succ h.1, h.2⟩
    rw [if_neg hshort, if_neg hcount, ← List.length_cons, List.take_length]
    rfl

/-- What is read from a name with the parts `scope` and `parts`. -/
theorem parseScopeFromFilename_of_parts {filename : String} {parts : List (List Char)}
    (hparts : ∀ part ∈ parts, IsPart part) (hne : parts ≠ [])
    (hname : filename.toList = ['_'].intercalate ("scope".toList :: parts) ++ ".jsonl".toList) :
    parseScopeFromFilename sdk filename =
      if parts[0]? = some "default".toList then some .default
      else sdk.named (String.ofList (['_'].intercalate (withoutCount parts))) := by
  have hall : ∀ part ∈ "scope".toList :: parts, IsPart part := by
    refine List.forall_mem_cons.mpr ⟨⟨by decide, by decide⟩, hparts⟩
  have hdot : '.' ∉ ['_'].intercalate ("scope".toList :: parts) := fun h => by
    obtain h | ⟨part, hpart, hc⟩ := Hosts.mem_intercalate h
    · exact absurd h (by decide)
    · exact (hall part hpart).2 hc
  have hsuffix : ".jsonl".toList.isSuffixOf filename.toList = true :=
    List.isSuffixOf_iff_suffix.mpr (hname ▸ List.suffix_append ..)
  have hlength : filename.length ≠ 0 := fun h => by
    obtain rfl := String.length_eq_zero_iff.mp h
    exact absurd (List.append_eq_nil_iff.mp hname.symm).2 (by decide)
  have hsplit : (['_'].intercalate ("scope".toList :: parts)).splitOn '_' =
      "scope".toList :: parts :=
    List.splitOn_intercalate '_' (fun part hpart => (hall part hpart).1) (List.cons_ne_nil _ _)
  obtain ⟨first, rest, rfl⟩ := List.exists_cons_of_ne_nil hne
  rw [parseScopeFromFilename, if_neg (not_not_intro hsuffix), hname,
    trimEndMatches_append hdot hlength]
  dsimp only
  rw [hsplit, if_neg (by simp), take_withoutCount (List.cons_ne_nil first rest)]
  rfl

theorem parsesU64_toDigits (n : UInt64) : parsesU64 (Nat.toDigits 10 n.toNat) = true := by
  have hdigit : ∀ c ∈ Nat.toDigits 10 n.toNat, c.isDigit = true := fun c hc =>
    Nat.isDigit_of_mem_toDigits (by decide) (by decide) hc
  have hplus : (Nat.toDigits 10 n.toNat).head? ≠ some '+' := fun h =>
    absurd (hdigit '+' (List.mem_of_mem_head? h)) (by decide)
  rw [parsesU64, if_neg hplus, Nat.ofDigitChars_ten_toDigits, List.all_eq_true.mpr hdigit,
    List.isEmpty_eq_false_iff.mpr Nat.toDigits_ne_nil]
  exact decide_eq_true n.toNat_lt

theorem withoutCount_append_count {parts : List (List Char)} (hne : parts ≠ []) (n : UInt64) :
    withoutCount (parts ++ [Nat.toDigits 10 n.toNat]) = parts := by
  have hlength : 2 ≤ (parts ++ [Nat.toDigits 10 n.toNat]).length := by
    rw [List.length_append, List.length_singleton]
    exact Nat.succ_le_succ (List.length_pos_iff.mpr hne)
  rw [withoutCount, if_pos ⟨hlength, by rw [List.getLastD_concat]; exact parsesU64_toDigits n⟩,
    List.dropLast_concat]

/-- A text is longer than its parts but the last. -/
theorem length_intercalate_dropLast_lt {parts : List (List Char)} (h : 2 ≤ parts.length) :
    (['_'].intercalate parts.dropLast).length < (['_'].intercalate parts).length := by
  have hne : parts ≠ [] := List.length_pos_iff.mp (Nat.zero_lt_of_lt h)
  have hdrop : parts.dropLast ≠ [] := by
    rw [← List.length_pos_iff, List.length_dropLast]
    exact Nat.sub_pos_of_lt h
  calc (['_'].intercalate parts.dropLast).length
      < (['_'].intercalate parts.dropLast ++ '_' :: parts.getLast hne).length := by
        rw [List.length_append, List.length_cons]
        exact Nat.lt_add_of_pos_right (Nat.succ_pos _)
    _ = (['_'].intercalate parts).length := by
        rw [← intercalate_append_singleton hdrop, List.dropLast_append_getLast]

theorem length_sanitizeFilename (name : String) :
    (sanitizeFilename isAlphanumeric name).toList.length = name.toList.length := by
  rw [sanitizeFilename, String.toList_ofList, List.length_map]

theorem ScopeSdk.named_eq_some_iff {name : String} (haccepts : sdk.accepts name = true)
    (text : List Char) :
    sdk.named (String.ofList text) = some (.named name) ↔ text = name.toList := by
  refine ⟨fun h => ?_, fun h => ?_⟩
  · rw [ScopeSdk.named] at h
    split at h
    · rw [← Scope.named.inj (Option.some.inj h), String.toList_ofList]
    · cases h
  · rw [h, String.ofList_toList, ScopeSdk.named, if_pos haccepts]

/-- What is read as the name: all parts but the count, or but a last part that reads as one. -/
theorem withoutCount_countParts (name : String) (count : Option UInt64) :
    withoutCount (nameParts name ++ countParts includeCount count) =
      if ¬ (includeCount = true ∧ count.isSome = true) ∧ EndsInCount name then
        (nameParts name).dropLast
      else nameParts name := by
  unfold countParts
  split
  · next n =>
    rw [withoutCount_append_count (nameParts_ne_nil name), if_neg fun h => h.1 ⟨rfl, rfl⟩]
  · next hnone =>
    have hcount : ¬ (includeCount = true ∧ count.isSome = true) := fun ⟨htrue, hsome⟩ =>
      hnone (count.get hsome) htrue (Option.some_get hsome).symm
    rw [List.append_nil, withoutCount]
    by_cases hends : EndsInCount name
    · exact (if_pos hends).trans (if_pos ⟨hcount, hends⟩).symm
    · exact (if_neg hends).trans (if_neg fun h => hends h.2).symm

/-! ### The export -/

/-- What is read from the name of a file is the scope, exactly if its name allows it. -/
theorem parseScopeFromFilename_scopeToFilename_iff (hascii : AsciiAlphanumeric isAlphanumeric)
    {scope : Scope} (haccepts : sdk.Accepts scope) (count : Option UInt64) :
    parseScopeFromFilename sdk (scopeToFilename isAlphanumeric scope includeCount count) =
        some scope ↔
      Restorable isAlphanumeric includeCount (scope, count) := by
  have hcount : ∀ part ∈ countParts includeCount count, IsPart part := by
    intro part hpart
    unfold countParts at hpart
    split at hpart
    · rw [List.mem_singleton.mp hpart]
      exact isPart_toDigits _
    · cases hpart
  cases scope with
  | default =>
    have hparts : ∀ part ∈ scopeParts isAlphanumeric .default ++ countParts includeCount count,
        IsPart part := List.forall_mem_cons.mpr ⟨⟨by decide, by decide⟩, hcount⟩
    rw [parseScopeFromFilename_of_parts hparts (List.cons_ne_nil _ _) (toList_scopeToFilename ..)]
    exact iff_of_true (if_pos rfl) trivial
  | named name =>
    have hparts : ∀ part ∈ scopeParts isAlphanumeric (.named name) ++
        countParts includeCount count, IsPart part := by
      refine List.forall_mem_append.mpr ⟨fun part hpart => ?_, hcount⟩
      exact isPart_of_mem_nameParts (dot_notMem_sanitizeFilename hascii name) hpart
    have hne : scopeParts isAlphanumeric (.named name) ++ countParts includeCount count ≠ [] :=
      List.append_ne_nil_of_left_ne_nil (scopeParts_ne_nil _) _
    rw [parseScopeFromFilename_of_parts hparts hne (toList_scopeToFilename ..), scopeParts,
      List.getElem?_append_left (List.length_pos_iff.mpr (nameParts_ne_nil _)),
      withoutCount_countParts]
    by_cases hdefault : (nameParts (sanitizeFilename isAlphanumeric name))[0]? =
        some "default".toList
    · rw [if_pos hdefault]
      refine iff_of_false (fun h => nomatch h) fun h => h.2.1 ?_
      rwa [h.1] at hdefault
    · rw [if_neg hdefault, ScopeSdk.named_eq_some_iff haccepts]
      by_cases hcut : ¬ (includeCount = true ∧ count.isSome = true) ∧
          EndsInCount (sanitizeFilename isAlphanumeric name)
      · -- a part is lost, and the characters that are left are too few
        rw [if_pos hcut]
        refine iff_of_false (fun h => ?_) fun ⟨hname, _, hcount⟩ => ?_
        · have hlt := length_intercalate_dropLast_lt hcut.2.1
          rw [h, intercalate_nameParts, length_sanitizeFilename] at hlt
          exact lt_irrefl _ hlt
        · rw [hname] at hcut
          exact hcount.elim hcut.1 fun hends => hends hcut.2
      · rw [if_neg hcut, intercalate_nameParts, String.toList_inj]
        refine ⟨fun hname => ⟨hname, ?_, ?_⟩, And.left⟩
        · rwa [hname] at hdefault
        · rw [hname] at hcut
          exact (not_and_or.mp hcut).imp_left not_not.mp

/-- **What an export restores.** -/
theorem restores_iff (hascii : AsciiAlphanumeric isAlphanumeric)
    {scopes : List (Scope × Option UInt64)} (hdistinct : (scopes.map Prod.fst).Nodup)
    (haccepts : ∀ s ∈ scopes, sdk.Accepts s.1) :
    Restores isAlphanumeric sdk includeCount scopes ↔
      ∀ s ∈ scopes, Restorable isAlphanumeric includeCount s := by
  have hscope : ∀ s ∈ scopes,
      (parseScopeFromFilename sdk (scopeToFilename isAlphanumeric s.1 includeCount s.2) =
          some s.1 ↔ Restorable isAlphanumeric includeCount s) := fun s hs =>
    parseScopeFromFilename_scopeToFilename_iff hascii (haccepts s hs) s.2
  refine ⟨fun h s hs => (hscope s hs).mp (h.restored s hs), fun h => ⟨?_, ?_⟩⟩
  · have hback : (scopes.map fun s => scopeToFilename isAlphanumeric s.1 includeCount s.2).map
        (parseScopeFromFilename sdk) = (scopes.map Prod.fst).map some := by
      rw [List.map_map, List.map_map]
      exact List.map_congr_left fun s hs => (hscope s hs).mpr (h s hs)
    exact List.Nodup.of_map _ (hback ▸ hdistinct.map (Option.some_injective _))
  · exact fun s hs => (hscope s hs).mpr (h s hs)

/-- With the counts in the names, the number at the end of a name stays. -/
theorem restores_numbered :
    Restores Char.isAlphanum exampleScopes true
      [(.default, some 100), (.named "test-scope", some 50), (.named "team_2024", some 0)] := by
  refine (restores_iff (fun _ _ => rfl) (by decide) ?_).mpr ?_
  · simp [ScopeSdk.Accepts, exampleScopes]
  · have hscope : sanitizeFilename Char.isAlphanum "test-scope" = "test-scope" ∧
        sanitizeFilename Char.isAlphanum "team_2024" = "team_2024" := by decide
    have hfirst : (nameParts "test-scope")[0]? ≠ some "default".toList ∧
        (nameParts "team_2024")[0]? ≠ some "default".toList := by decide
    exact List.forall_mem_cons.mpr ⟨trivial, List.forall_mem_cons.mpr
      ⟨⟨hscope.1, hfirst.1, .inl ⟨rfl, rfl⟩⟩, List.forall_mem_singleton.mpr
        ⟨hscope.2, hfirst.2, .inl ⟨rfl, rfl⟩⟩⟩⟩

/-- Two names that are written in the same way, and one that is cut when it is read. -/
theorem names_clash :
    ¬ Restores Char.isAlphanum exampleScopes true
        [(.named "shop.example", some 1), (.named "shop_example", some 1)] ∧
      ¬ Restores Char.isAlphanum exampleScopes false [(.named "team_2024", some 1)] :=
  ⟨fun h => absurd h.different (by decide),
    fun h => absurd (h.restored _ (List.mem_singleton_self _)) (by decide)⟩

end RelayBuilder
