import RelayBuilder.Tenants

/-!
# Subdomains

`extract_subdomain` cuts the host at its first colon and at its dots, and joins all labels but the
last ones. What it returns is what stands in front of the base domain: the base and a dot between
them give the host back, and a host without a subdomain has at most the labels of the base.

The host may be any text. It may have empty labels, a port, or be an address in brackets, of which
the part before the first colon has one label.

## Main definitions

* `beforeColon`: the host without its port
* `BaseDomain`: a text with a given number of labels
* `BaseDomain.attach`: a subdomain in front of the base

## Main results

* `exists_attach_iff`: which texts are a subdomain in front of some base
* `extractSubdomain_exact`: extracting the subdomain is an exact decomposition
* `host_eq_of_resolveScope`: hosts of one base share a scope only if they are the same
-/

namespace RelayBuilder

open Hosts

/-! ### The host without its port -/

/-- The host up to its first colon. -/
def beforeColon (host : String) : String := String.ofList (host.toList.takeWhile (· != ':'))

theorem colon_notMem_beforeColon (host : String) : ':' ∉ (beforeColon host).toList := by
  rw [beforeColon, String.toList_ofList]
  intro h
  have := List.all_takeWhile (p := (· != ':')) (l := host.toList)
  exact absurd (List.all_eq_true.mp this _ h) (by decide)

/-- Splitting at the colons leaves the host without its port in front. -/
theorem headD_splitOn_colon (host : String) :
    (host.splitOn ":").headD host = beforeColon host := by
  have hcolon : ":" = String.singleton ':' := by decide
  have hsplit : host = beforeColon host ++ String.ofList (host.toList.dropWhile (· != ':')) := by
    rw [beforeColon, ← String.ofList_append, List.takeWhile_append_dropWhile, String.ofList_toList]
  have hrest : String.ofList (host.toList.dropWhile (· != ':')) = "" ∨
      ∃ rest, String.ofList (host.toList.dropWhile (· != ':')) = .singleton ':' ++ rest := by
    cases h : host.toList.dropWhile (· != ':') with
    | nil => exact .inl rfl
    | cons c rest =>
      have hc : c = ':' := by
        have := List.head_dropWhile_not (· != ':') (l := host.toList) (by simp [h])
        simpa [h] using this
      refine .inr ⟨String.ofList rest, ?_⟩
      rw [hc, ← String.toList_inj, String.toList_append, String.toList_singleton,
        String.toList_ofList, String.toList_ofList, List.singleton_append]
  rw [hcolon]
  conv_lhs => rw [hsplit]
  exact headD_splitOn_append (colon_notMem_beforeColon host) hrest _

/-! ### Base domains -/

theorem dotLabels_join_take (host : String) {n : ℕ} (hn : 0 < n) :
    dotLabels (join ((dotLabels host).take n)) = (dotLabels host).take n := by
  refine dotLabels_join (fun h => ?_) fun _ hlabel =>
    dot_notMem_of_mem_dotLabels (List.mem_of_mem_take hlabel)
  obtain rfl | h := List.take_eq_nil_iff.mp h
  · exact hn.false
  · exact dotLabels_ne_nil host h

theorem dotLabels_join_drop (host : String) {n : ℕ} (hn : n < (dotLabels host).length) :
    dotLabels (join ((dotLabels host).drop n)) = (dotLabels host).drop n :=
  dotLabels_join (fun h => (List.drop_eq_nil_iff.mp h).not_gt hn) fun _ hlabel =>
    dot_notMem_of_mem_dotLabels (List.mem_of_mem_drop hlabel)

/-- A base domain of `n` labels. -/
structure BaseDomain (n : ℕ) where
  text : String
  length_labels : (dotLabels text).length = n

namespace BaseDomain

variable {n : ℕ}

/-- A subdomain in front of the base, with a dot between them. -/
def attach (base : BaseDomain n) (subdomain : String) : String := subdomain ++ "." ++ base.text

/-- The last labels of the host are those of the base. -/
def IsBaseOf (base : BaseDomain n) (host : String) : Prop :=
  dotLabels base.text <:+ dotLabels host

theorem dotLabels_attach (base : BaseDomain n) (subdomain : String) :
    dotLabels (base.attach subdomain) = dotLabels subdomain ++ dotLabels base.text :=
  dotLabels_append subdomain base.text

theorem isBaseOf_attach (base : BaseDomain n) (subdomain : String) :
    base.IsBaseOf (base.attach subdomain) :=
  ⟨_, (base.dotLabels_attach subdomain).symm⟩

/-- The last labels of a text, as a base domain. -/
def ofDrop (host : String) (hn : 1 ≤ n) (h : n ≤ (dotLabels host).length) : BaseDomain n where
  text := join ((dotLabels host).drop ((dotLabels host).length - n))
  length_labels := by
    rw [dotLabels_join_drop host (by omega), List.length_drop]
    omega

theorem dotLabels_ofDrop (host : String) (hn : 1 ≤ n) (h : n ≤ (dotLabels host).length) :
    dotLabels (ofDrop host hn h).text =
      (dotLabels host).drop ((dotLabels host).length - n) :=
  dotLabels_join_drop host (by omega)

/-- Two bases of one host with as many labels are the same. -/
theorem IsBaseOf.text_eq {base base' : BaseDomain n} {host : String} (h : base.IsBaseOf host)
    (h' : base'.IsBaseOf host) : base.text = base'.text := by
  rw [← dotLabels_inj, List.suffix_iff_eq_drop.mp h, List.suffix_iff_eq_drop.mp h',
    base.length_labels, base'.length_labels]

end BaseDomain

variable {n : ℕ}

/-- A text is a subdomain in front of some base exactly if it has more labels than the base. The
subdomain is what is left of it without the last labels. -/
theorem exists_attach_iff (hn : 1 ≤ n) (host subdomain : String) :
    (∃ base : BaseDomain n, host = base.attach subdomain) ↔
      n < (dotLabels host).length ∧
        join ((dotLabels host).take ((dotLabels host).length - n)) = subdomain := by
  constructor
  · rintro ⟨base, rfl⟩
    have hpos := length_dotLabels_pos subdomain
    rw [base.dotLabels_attach, List.length_append, base.length_labels]
    refine ⟨by omega, ?_⟩
    rw [Nat.add_sub_cancel, List.take_left, join_dotLabels]
  · rintro ⟨hlength, rfl⟩
    refine ⟨.ofDrop host hn hlength.le, ?_⟩
    rw [← dotLabels_inj, BaseDomain.dotLabels_attach, BaseDomain.dotLabels_ofDrop,
      dotLabels_join_take host (by omega), List.take_append_drop]

/-! ### The subdomain of a host -/

/-- The hosts that have no subdomain in any case. -/
def IsLocal (sdk : AuthSdk) (host : String) : Prop :=
  host = "localhost" ∨ sdk.isIpAddr host = true

instance (sdk : AuthSdk) (host : String) : Decidable (IsLocal sdk host) :=
  inferInstanceAs (Decidable (_ ∨ _))

theorem extractSubdomain_eq (sdk : AuthSdk) (host : String) (n : ℕ) :
    extractSubdomain sdk host n =
      if IsLocal sdk (beforeColon host) then none
      else if (dotLabels (beforeColon host)).length ≤ n then none
      else some (join ((dotLabels (beforeColon host)).take
        ((dotLabels (beforeColon host)).length - n))) := by
  rw [extractSubdomain]
  dsimp only
  rw [headD_splitOn_colon, splitOn_dot, List.length_map, ← List.map_take]
  simp only [IsLocal, Bool.or_eq_true, beq_iff_eq]
  rfl

theorem extractSubdomain_eq_some_iff {sdk : AuthSdk} {host subdomain : String} (hn : 1 ≤ n) :
    extractSubdomain sdk host n = some subdomain ↔
      ¬ IsLocal sdk (beforeColon host) ∧
        ∃ base : BaseDomain n, beforeColon host = base.attach subdomain := by
  rw [extractSubdomain_eq, exists_attach_iff hn]
  by_cases hlocal : IsLocal sdk (beforeColon host)
  · rw [if_pos hlocal]
    exact iff_of_false nofun fun h => h.1 hlocal
  rw [if_neg hlocal]
  by_cases hlength : (dotLabels (beforeColon host)).length ≤ n
  · rw [if_pos hlength]
    exact iff_of_false nofun fun h => h.2.1.not_ge hlength
  · rw [if_neg hlength, Option.some.injEq]
    exact ⟨fun h => ⟨hlocal, not_le.mp hlength, h⟩, fun h => h.2.2⟩

/-- The base of a host gives it back, in front of it what was extracted. -/
theorem attach_of_extractSubdomain {sdk : AuthSdk} {host subdomain : String} (hn : 1 ≤ n)
    {base : BaseDomain n} (hbase : base.IsBaseOf (beforeColon host))
    (h : extractSubdomain sdk host n = some subdomain) :
    base.attach subdomain = beforeColon host := by
  obtain ⟨-, base', heq⟩ := (extractSubdomain_eq_some_iff hn).mp h
  have htext : base.text = base'.text := hbase.text_eq (heq ▸ base'.isBaseOf_attach subdomain)
  rw [heq, BaseDomain.attach, htext, BaseDomain.attach]

/-- **Extracting the subdomain is an exact decomposition.** For every host and every number of
labels from one on: nothing is extracted from `localhost` or an address. From any other host `s`
is extracted exactly if the host, without its port, is `s` and a dot in front of some base with
that many labels, and nothing exactly if it has at most that many. So the base in front of which
it stands gives the host back, and two hosts of one base have different subdomains. -/
theorem extractSubdomain_exact (sdk : AuthSdk) (host : String) {n : ℕ} (hn : 1 ≤ n) :
    (IsLocal sdk (beforeColon host) → extractSubdomain sdk host n = none) ∧
      (¬ IsLocal sdk (beforeColon host) →
        (∀ s, extractSubdomain sdk host n = some s ↔
          ∃ base : BaseDomain n, beforeColon host = base.attach s) ∧
        (extractSubdomain sdk host n = none ↔ (dotLabels (beforeColon host)).length ≤ n)) ∧
      ∀ base : BaseDomain n, base.IsBaseOf (beforeColon host) →
        ∀ s, extractSubdomain sdk host n = some s →
          base.attach s = beforeColon host ∧
          ∀ host', base.IsBaseOf (beforeColon host') → beforeColon host' ≠ beforeColon host →
            extractSubdomain sdk host' n ≠ some s := by
  refine ⟨fun hlocal => ?_, fun hlocal => ⟨fun s => ?_, ?_⟩, fun base hbase s h => ?_⟩
  · rw [extractSubdomain_eq, if_pos hlocal]
  · rw [extractSubdomain_eq_some_iff hn, and_iff_right hlocal]
  · rw [extractSubdomain_eq, if_neg hlocal]
    exact ite_eq_left_iff.trans
      ⟨fun h => not_not.mp fun hlength => (nomatch h hlength), fun h hlength => (hlength h).elim⟩
  · have hattach := attach_of_extractSubdomain hn hbase h
    refine ⟨hattach, fun host' hbase' hne h' => hne ?_⟩
    rw [← attach_of_extractSubdomain hn hbase' h', hattach]

/-- The base `hol.is`. -/
def holIs : BaseDomain 2 := ⟨"hol.is", by decide⟩

theorem oslo_holIs : beforeColon "oslo.hol.is:8080" = holIs.attach "oslo" := by decide

/-- `oslo` is extracted from `oslo.hol.is:8080`, and `hol.is` gives `oslo.hol.is` back. -/
theorem oslo_decomposed : extractSubdomain exampleSdk "oslo.hol.is:8080" 2 = some "oslo" ∧
    holIs.attach "oslo" = beforeColon "oslo.hol.is:8080" := by
  have hlocal : ¬ IsLocal exampleSdk (beforeColon "oslo.hol.is:8080") := by decide
  have hexact := extractSubdomain_exact exampleSdk "oslo.hol.is:8080" (n := 2) (by decide)
  have hextract := ((hexact.2.1 hlocal).1 "oslo").mpr ⟨holIs, oslo_holIs⟩
  have hbase : holIs.IsBaseOf (beforeColon "oslo.hol.is:8080") :=
    oslo_holIs ▸ holIs.isBaseOf_attach "oslo"
  exact ⟨hextract, (hexact.2.2 holIs hbase "oslo" hextract).1⟩

/-- **Hosts of one base share a scope only if they are the same.** -/
theorem host_eq_of_resolveScope {sdk : AuthSdk} {scopes : ScopeSdk} {host host' name : String}
    (hn : 1 ≤ n) {base : BaseDomain n} (hbase : base.IsBaseOf (beforeColon host))
    (hbase' : base.IsBaseOf (beforeColon host'))
    (h : (ScopeConfig.subdomain n).resolveScope sdk scopes (some host) = .named name)
    (h' : (ScopeConfig.subdomain n).resolveScope sdk scopes (some host') = .named name) :
    beforeColon host = beforeColon host' := by
  have hextract {host : String}
      (h : (ScopeConfig.subdomain n).resolveScope sdk scopes (some host) = .named name) :
      extractSubdomain sdk host n = some name := by
    rw [ScopeConfig.resolveScope, Option.bind_some] at h
    cases hsub : extractSubdomain sdk host n with
    | none => simp [hsub] at h
    | some s =>
      rw [hsub, Option.bind_some, ScopeSdk.named] at h
      split_ifs at h
      · cases h
      · cases h
        rfl
      · cases h
  rw [← attach_of_extractSubdomain hn hbase (hextract h),
    attach_of_extractSubdomain hn hbase' (hextract h')]

end RelayBuilder
