import Mathlib.Data.String.Basic
import Mathlib.Tactic.Common

/-!
# Host names

A host name of the DNS as the list of its labels, its text, and what is left of it without its
last labels. Splitting the text at the dots gives the labels back, so two texts are equal only if
the labels are.

## Main definitions

* `dotLabels`: what stands between the dots of a text
* `HostName`, `HostName.text`, `HostName.lower`
* `HostName.IsWithin`: the name of a host or of one of its subdomains
* `HostName.before`: the name without its last labels

## Main results

* `splitOn_singleton`: splitting a string at a character is splitting the list of its characters
* `HostName.splitOn_text`, `HostName.before_eq_iff`
-/

namespace Hosts

/-! ### Splitting at a character -/

theorem splitOnAux_singleton (s : String) (c : Char) (b i : String.Pos.Raw) (r : List String) :
    String.splitOnAux s (.singleton c) b i 0 r = String.splitAux s (· == c) b i r := by
  have hget : String.Pos.Raw.get (.singleton c) 0 = c := by
    simpa using String.get_of_valid [] [c]
  have hnext : String.Pos.Raw.next (.singleton c) 0 = ⟨c.utf8Size⟩ := by
    simpa using String.next_of_valid [] c []
  have hend : String.Pos.Raw.atEnd (.singleton c) ⟨c.utf8Size⟩ = true := by
    simpa using String.atEnd_of_valid [c] []
  induction b, i, r using String.splitAux.induct s (· == c) with
  | case1 b i r h => rw [String.splitOnAux, String.splitAux, if_pos h, dif_pos h]
  | case2 b i r h _ hc i' ih =>
    rw [String.splitOnAux, String.splitAux, if_neg h, dif_neg h, hget, if_pos hc, if_pos hc]
    have hback : (i.next s).unoffsetBy ⟨c.utf8Size⟩ = i := by
      obtain rfl : String.Pos.Raw.get s i = c := by simpa using hc
      simp [String.Pos.Raw.next, String.Pos.Raw.unoffsetBy]
    simp only [hnext, hend, if_true, hback]
    exact ih
  | case3 b i r h _ hc ih =>
    rw [String.splitOnAux, String.splitAux, if_neg h, dif_neg h, hget, if_neg hc, if_neg hc]
    simpa [String.Pos.Raw.unoffsetBy] using ih

/-- Splitting a string at a character is splitting the list of its characters. -/
theorem splitOn_singleton (s : String) (c : Char) :
    s.splitOn (.singleton c) = (s.toList.splitOn c).map String.ofList := by
  rw [String.splitOn, if_neg (by simp), splitOnAux_singleton, List.splitOn_eq_splitOnP]
  exact String.splitToList_of_valid s _

/-- The text in front of a separator, if what follows it starts with the separator. -/
theorem headD_splitOn_append {s t : String} {c : Char} (hs : c ∉ s.toList)
    (ht : t = "" ∨ ∃ t', t = .singleton c ++ t') (d : String) :
    ((s ++ t).splitOn (.singleton c)).headD d = s := by
  rw [splitOn_singleton, String.toList_append]
  obtain rfl | ⟨t', rfl⟩ := ht
  · rw [String.toList_empty, List.append_nil, List.splitOn_eq_singleton hs]
    exact String.ofList_toList
  · rw [String.toList_append, String.toList_singleton, List.singleton_append,
      List.splitOn_append_cons_self_of_not_mem hs]
    exact String.ofList_toList

theorem mem_intercalate {α : Type} {sep : List α} {parts : List (List α)} {a : α}
    (h : a ∈ sep.intercalate parts) : a ∈ sep ∨ ∃ part ∈ parts, a ∈ part := by
  induction parts with
  | nil => cases h
  | cons part parts ih =>
    cases parts with
    | nil => exact .inr ⟨part, List.mem_cons_self .., by rwa [List.intercalate_singleton] at h⟩
    | cons next rest =>
      rw [List.intercalate_cons_cons, List.mem_append, List.mem_append] at h
      obtain (h | h) | h := h
      · exact .inr ⟨part, List.mem_cons_self .., h⟩
      · exact .inl h
      · exact (ih h).imp_right fun ⟨part', hpart', ha⟩ =>
          ⟨part', List.mem_cons_of_mem _ hpart', ha⟩

/-- A part has the characters of the text, but not the separator. -/
theorem mem_of_mem_splitOn {a c : Char} {part : List Char} :
    ∀ {text : List Char}, part ∈ text.splitOn a → c ∈ part → c ∈ text ∧ c ≠ a
  | [], hpart, hc => by
    obtain rfl : part = [] := by simpa using hpart
    cases hc
  | d :: text, hpart, hc => by
    rw [List.splitOn_cons_eq_if_modifyHead] at hpart
    split at hpart
    · obtain rfl | hpart := List.mem_cons.mp hpart
      · cases hc
      · exact (mem_of_mem_splitOn hpart hc).imp_left (List.mem_cons_of_mem d)
    · next hd =>
      obtain ⟨first, rest, hsplit⟩ :=
        List.exists_cons_of_ne_nil (List.splitOn_ne_nil a text)
      have hin {part : List Char} (h : part ∈ first :: rest) (hc : c ∈ part) :
          c ∈ d :: text ∧ c ≠ a :=
        (mem_of_mem_splitOn (hsplit ▸ h) hc).imp_left (List.mem_cons_of_mem d)
      rw [hsplit, List.modifyHead_cons] at hpart
      obtain rfl | hpart := List.mem_cons.mp hpart
      · obtain rfl | hc := List.mem_cons.mp hc
        · exact ⟨List.mem_cons_self .., fun h => hd (by simpa using h)⟩
        · exact hin (List.mem_cons_self ..) hc
      · exact hin (List.mem_cons_of_mem _ hpart) hc

/-! ### The labels of a text -/

/-- Labels with dots between them. -/
def join (labels : List (List Char)) : String := ".".intercalate (labels.map String.ofList)

theorem dot_eq : "." = String.singleton '.' := by decide

theorem toList_join (labels : List (List Char)) :
    (join labels).toList = ['.'].intercalate labels := by
  rw [join, String.toList_intercalate, List.map_map, dot_eq, String.toList_singleton]
  congr 1
  exact (List.map_congr_left fun l _ => String.toList_ofList).trans (List.map_id _)

theorem join_eq (labels : List (List Char)) :
    join labels = String.ofList (['.'].intercalate labels) := by
  rw [← toList_join, String.ofList_toList]

theorem splitOn_join {labels : List (List Char)} (hne : labels ≠ [])
    (hdot : ∀ label ∈ labels, '.' ∉ label) :
    (join labels).splitOn "." = labels.map String.ofList := by
  rw [dot_eq, splitOn_singleton, toList_join, List.splitOn_intercalate _ hdot hne]

theorem join_inj {labels labels' : List (List Char)} (hne : labels ≠ []) (hne' : labels' ≠ [])
    (hdot : ∀ label ∈ labels, '.' ∉ label) (hdot' : ∀ label ∈ labels', '.' ∉ label) :
    join labels = join labels' ↔ labels = labels' := by
  refine ⟨fun h => ?_, congrArg join⟩
  have := congrArg (String.splitOn · ".") h
  simp only [splitOn_join hne hdot, splitOn_join hne' hdot'] at this
  exact List.map_injective_iff.mpr (fun _ _ => String.ofList_inj.mp) this

/-- What stands between the dots of a text. -/
def dotLabels (text : String) : List (List Char) := text.toList.splitOn '.'

theorem dotLabels_ne_nil (text : String) : dotLabels text ≠ [] :=
  List.splitOn_ne_nil '.' text.toList

theorem length_dotLabels_pos (text : String) : 0 < (dotLabels text).length :=
  List.length_pos_of_ne_nil (dotLabels_ne_nil text)

theorem splitOn_dot (text : String) : text.splitOn "." = (dotLabels text).map String.ofList := by
  rw [dot_eq, splitOn_singleton, dotLabels]

theorem join_dotLabels (text : String) : join (dotLabels text) = text := by
  rw [join_eq, dotLabels, List.intercalate_splitOn, String.ofList_toList]

theorem dotLabels_join {labels : List (List Char)} (hne : labels ≠ [])
    (hdot : ∀ label ∈ labels, '.' ∉ label) : dotLabels (join labels) = labels := by
  rw [dotLabels, toList_join, List.splitOn_intercalate _ hdot hne]

theorem dotLabels_inj {text text' : String} : dotLabels text = dotLabels text' ↔ text = text' := by
  refine ⟨fun h => ?_, congrArg dotLabels⟩
  rw [← join_dotLabels text, h, join_dotLabels]

/-- The labels in front of a dot, and those behind it. -/
theorem dotLabels_append (front back : String) :
    dotLabels (front ++ "." ++ back) = dotLabels front ++ dotLabels back := by
  rw [dotLabels, dot_eq, String.toList_append, String.toList_append, String.toList_singleton,
    List.append_assoc, List.singleton_append, List.splitOn_append_cons_self]
  rfl

theorem length_dotLabels_eq_one {text : String} (h : '.' ∉ text.toList) :
    (dotLabels text).length = 1 := by
  rw [dotLabels, List.splitOn_eq_singleton h, List.length_singleton]

theorem dot_notMem_of_mem_dotLabels {text : String} {label : List Char}
    (h : label ∈ dotLabels text) : '.' ∉ label := fun hdot => (mem_of_mem_splitOn h hdot).2 rfl

/-! ### Names -/

/-- A character of a label. -/
def IsLabelChar (c : Char) : Prop := c.isAlphanum = true ∨ c = '-' ∨ c = '_'

instance : DecidablePred IsLabelChar := fun _ => inferInstanceAs (Decidable (_ ∨ _ ∨ _))

/-- A host name of the DNS. The last label is no number: such a host would be an address. -/
structure HostName where
  labels : List (List Char)
  labels_ne_nil : labels ≠ []
  chars : ∀ label ∈ labels, label ≠ [] ∧ ∀ c ∈ label, IsLabelChar c
  no_address : ¬ ∀ c ∈ labels.getLast labels_ne_nil, c.isDigit = true

theorem IsLabelChar.ne {c d : Char} (h : IsLabelChar c) (hd : ¬ IsLabelChar d) : c ≠ d :=
  fun heq => hd (heq ▸ h)

theorem not_isLabelChar_dot : ¬ IsLabelChar '.' := by decide

theorem not_isLabelChar_colon : ¬ IsLabelChar ':' := by decide

theorem isUpper_iff {c : Char} : c.isUpper = true ↔ 65 ≤ c.val.toNat ∧ c.val.toNat ≤ 90 :=
  decide_eq_true_iff

theorem isLower_iff {c : Char} : c.isLower = true ↔ 97 ≤ c.val.toNat ∧ c.val.toNat ≤ 122 :=
  Bool.and_eq_true_iff.trans (and_congr decide_eq_true_iff decide_eq_true_iff)

theorem isDigit_iff {c : Char} : c.isDigit = true ↔ 48 ≤ c.val.toNat ∧ c.val.toNat ≤ 57 :=
  Bool.and_eq_true_iff.trans (and_congr decide_eq_true_iff decide_eq_true_iff)

/-- Lower case keeps a character, or makes a lower case letter of an upper case one. -/
theorem toLower_cases (c : Char) :
    c.toLower = c ∨ c.isUpper = true ∧ c.toLower.isLower = true := by
  by_cases h : c.val ≥ 'A'.val ∧ c.val ≤ 'Z'.val
  · have hupper : 65 ≤ c.val.toNat ∧ c.val.toNat ≤ 90 := h
    have hval : c.toLower.val.toNat = c.val.toNat + 32 := by
      have hlower : c.toLower.val = c.val + 32 := congrArg Char.val (dif_pos h)
      rw [hlower, UInt32.toNat_add]
      exact Nat.mod_eq_of_lt (Nat.lt_of_le_of_lt (Nat.add_le_add_right hupper.2 32) (by decide))
    refine .inr ⟨isUpper_iff.mpr hupper, isLower_iff.mpr ?_⟩
    omega
  · exact .inl (dif_neg h)

theorem isAlpha_toLower (c : Char) : c.toLower.isAlpha = c.isAlpha := by
  obtain h | ⟨hupper, hlower⟩ := toLower_cases c
  · rw [h]
  · exact (Bool.or_eq_true_iff.mpr (.inr hlower)).trans
      (Bool.or_eq_true_iff.mpr (.inl hupper)).symm

theorem isDigit_toLower (c : Char) : c.toLower.isDigit = c.isDigit := by
  obtain h | ⟨hupper, hlower⟩ := toLower_cases c
  · rw [h]
  · rw [isUpper_iff] at hupper
    rw [isLower_iff] at hlower
    refine Bool.eq_iff_iff.mpr ?_
    rw [isDigit_iff, isDigit_iff]
    omega

theorem IsLabelChar.toLower {c : Char} (h : IsLabelChar c) : IsLabelChar c.toLower := by
  obtain h | rfl | rfl := h
  · refine .inl ?_
    rwa [Char.isAlphanum, isAlpha_toLower, isDigit_toLower]
  · exact .inr (.inl rfl)
  · exact .inr (.inr rfl)

namespace HostName

/-- The name as it is written. -/
def text (host : HostName) : String := join host.labels

/-- The name in lower case. -/
def lower (host : HostName) : HostName where
  labels := host.labels.map (·.map Char.toLower)
  labels_ne_nil := by simpa using host.labels_ne_nil
  chars label hlabel := by
    obtain ⟨label, hmem, rfl⟩ := List.mem_map.mp hlabel
    refine ⟨by simpa using (host.chars label hmem).1, fun c hc => ?_⟩
    obtain ⟨c', hc', rfl⟩ := List.mem_map.mp hc
    exact ((host.chars label hmem).2 c' hc').toLower
  no_address h := by
    refine host.no_address fun c hc => ?_
    rw [List.getLast_map] at h
    exact (isDigit_toLower c).symm.trans (h _ (List.mem_map_of_mem hc))

/-- The names of a host and of its subdomains. Case makes no difference. -/
def IsWithin (host other : HostName) : Prop := other.lower.labels <:+ host.lower.labels

/-- The number of labels. -/
def length (host : HostName) : ℕ := host.labels.length

/-- The labels in front of the last `n`, with dots between them. -/
def before (host : HostName) (n : ℕ) : String := join (host.labels.take (host.length - n))

variable (host : HostName)

@[simp] theorem length_labels : host.labels.length = host.length := rfl

@[simp] theorem length_lower : host.lower.length = host.length := List.length_map ..

theorem length_pos : 0 < host.length := List.length_pos_of_ne_nil host.labels_ne_nil

theorem dot_not_mem : ∀ label ∈ host.labels, '.' ∉ label := fun label hlabel hdot =>
  ((host.chars label hlabel).2 _ hdot).ne not_isLabelChar_dot rfl

theorem splitOn_text : host.text.splitOn "." = host.labels.map String.ofList :=
  splitOn_join host.labels_ne_nil host.dot_not_mem

/-- A name without dots has one label. -/
theorem length_eq_one (h : '.' ∉ host.text.toList) : host.length = 1 := by
  have := congrArg List.length host.splitOn_text
  rw [dot_eq, splitOn_singleton, List.splitOn_eq_singleton h, List.length_map, List.length_map]
    at this
  exact this.symm

theorem colon_not_mem : ':' ∉ host.text.toList := by
  rw [text, toList_join]
  intro h
  obtain hdot | ⟨label, hlabel, hcolon⟩ := mem_intercalate h
  · exact absurd (List.mem_singleton.mp hdot) (by decide)
  · exact ((host.chars label hlabel).2 _ hcolon).ne not_isLabelChar_colon rfl

/-- What is left of two names is the same if the labels are. -/
theorem before_eq_iff {host other : HostName} {m n : ℕ} (hm : m < host.length)
    (hn : n < other.length) : host.before m = other.before n ↔
      host.labels.take (host.length - m) = other.labels.take (other.length - n) := by
  have hne : ∀ (h : HostName) k, k < h.length → h.labels.take (h.length - k) ≠ [] := by
    intro h k hk heq
    obtain heq | heq := List.take_eq_nil_iff.mp heq
    · omega
    · exact h.labels_ne_nil heq
  exact join_inj (hne host m hm) (hne other n hn)
    (fun label hlabel => host.dot_not_mem label (List.mem_of_mem_take hlabel))
    (fun label hlabel => other.dot_not_mem label (List.mem_of_mem_take hlabel))

/-- The number of labels that were left out can be told from what is left. -/
theorem eq_of_before_eq {host other : HostName} {m n : ℕ} (hlength : host.length = other.length)
    (hm : m < host.length) (hn : n < other.length) (h : host.before m = other.before n) :
    m = n := by
  have := congrArg List.length ((before_eq_iff hm hn).mp h)
  rw [List.length_take, List.length_take, ← length, ← length] at this
  omega

theorem IsWithin.length_le {host other : HostName} (h : host.IsWithin other) :
    other.length ≤ host.length := by
  rw [← length_lower, ← length_lower host]
  exact List.IsSuffix.length_le h

/-- The last labels of a name within another are those of the other. -/
theorem IsWithin.drop_eq {host other : HostName} (h : host.IsWithin other) :
    host.lower.labels.drop (host.length - other.length) = other.lower.labels := by
  have := List.suffix_iff_eq_drop.mp h
  rw [← length, ← length, length_lower, length_lower] at this
  exact this.symm

end HostName

end Hosts
