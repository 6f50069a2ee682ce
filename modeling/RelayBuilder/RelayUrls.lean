import RelayBuilder.Tenants

/-!
# Which relay URLs are accepted

A client that authenticates names the URL of the relay. `validate_relay_url` compares it with the
URL that the relay is configured with: a URL of the local machine as a whole, any other by its
host, which must be the relay's own for the default scope, and for a tenant its name in front of
the relay's host.

The code aligns the labels of both hosts from the right, and looks for the tenant with
`extract_subdomain`, which has rules for ports and for addresses. For the hosts that a URL can have
these rules make no difference: an address has four labels, so it is within no other.

## Main definitions

* `AuthSdk.NormalizesHosts`: what the library promises of the host of a URL
* `IsScopeHost`: the host that is the right one for a scope

## Main results

* `extractSubdomain_of_suffix`: what is extracted from a host within the relay's
* `validateRelayUrl_iff`
-/

namespace RelayBuilder

open Hosts Nip42Middleware

/-- The label is a number. -/
def IsNumeric (label : List Char) : Prop := label ≠ [] ∧ ∀ c ∈ label, c.isDigit = true

/-- The host is an address: four numbers. -/
def IsIpv4 (host : String) : Prop :=
  (dotLabels host).length = 4 ∧ ∀ label ∈ dotLabels host, IsNumeric label

/-- The last label of a host. -/
def lastLabel (host : String) : List Char := (dotLabels host).getLast (dotLabels_ne_nil host)

/-- What `url` promises of the host of a URL, and the standard library of the parser of addresses:
a host with a number at its end is a complete address, one with a colon is an address in brackets,
and without a colon, only four numbers are parsed as an address. -/
structure AuthSdk.NormalizesHosts (sdk : AuthSdk) : Prop where
  address : ∀ url host, sdk.host url = some host → IsNumeric (lastLabel host) → IsIpv4 host
  bracketed : ∀ url host, sdk.host url = some host → ':' ∈ host.toList → '.' ∉ host.toList
  isIpv4 : ∀ text, ':' ∉ text.toList → sdk.isIpAddr text = true → IsIpv4 text

/-- The host is the relay's own for the default scope, and that of the tenant otherwise. -/
def IsScopeHost (scope : Scope) (clientHost relayHost : String) : Prop :=
  match scope with
  | .default => clientHost = relayHost
  | .named name => clientHost = name ++ "." ++ relayHost

variable {sdk : AuthSdk} {config : AuthConfig} {clientHost relayHost : String}

/-- The base domain of the client's host is the relay's host. -/
theorem clientBase_eq_iff :
    ".".intercalate ((clientHost.splitOn ".").drop
        ((clientHost.splitOn ".").length - (relayHost.splitOn ".").length)) =
          ".".intercalate (relayHost.splitOn ".") ↔
      dotLabels relayHost <:+ dotLabels clientHost := by
  rw [splitOn_dot, splitOn_dot, List.length_map, List.length_map, ← List.map_drop]
  refine (join_inj ?_ (dotLabels_ne_nil _) (fun label h => dot_notMem_of_mem_dotLabels
    (List.mem_of_mem_drop h)) fun label h => dot_notMem_of_mem_dotLabels h).trans ?_
  · rw [Ne, List.drop_eq_nil_iff, not_le]
    exact Nat.sub_lt (length_dotLabels_pos _) (length_dotLabels_pos _)
  · rw [List.suffix_iff_eq_drop, eq_comm]

theorem lastLabel_eq_of_suffix (h : dotLabels relayHost <:+ dotLabels clientHost) :
    lastLabel relayHost = lastLabel clientHost :=
  h.getLast (dotLabels_ne_nil relayHost)

/-- An address is within no other host. -/
theorem length_eq_of_isIpv4 (hosts : sdk.NormalizesHosts) {url : String}
    (hrelay : sdk.host url = some relayHost) (hclient : IsIpv4 clientHost)
    (h : dotLabels relayHost <:+ dotLabels clientHost) :
    (dotLabels clientHost).length = (dotLabels relayHost).length := by
  have hlast : IsNumeric (lastLabel relayHost) := by
    rw [lastLabel_eq_of_suffix h]
    exact hclient.2 _ (List.getLast_mem _)
  rw [hclient.1, (hosts.address url relayHost hrelay hlast).1]

/-- Nothing is extracted from a host without dots, such as an address in brackets. -/
theorem extractSubdomain_of_dot_notMem (hdot : '.' ∉ clientHost.toList) {baseDomainParts : ℕ}
    (hbase : 0 < baseDomainParts) : extractSubdomain sdk clientHost baseDomainParts = none := by
  have hhead : '.' ∉ ((clientHost.splitOn ":").headD clientHost).toList := by
    have hcolon : ":" = String.singleton ':' := by decide
    rw [hcolon, splitOn_singleton]
    obtain ⟨first, rest, hsplit⟩ :=
      List.exists_cons_of_ne_nil (List.splitOn_ne_nil ':' clientHost.toList)
    rw [hsplit, List.map_cons, List.headD_cons, String.toList_ofList]
    exact fun h => hdot (mem_of_mem_splitOn (hsplit ▸ List.mem_cons_self ..) h).1
  rw [extractSubdomain]
  dsimp only
  rw [splitOn_dot, List.length_map, length_dotLabels_eq_one hhead, if_pos (Nat.succ_le_of_lt hbase),
    ite_self]

/-- What is extracted from a host within the relay's: the labels in front, if there are any. -/
theorem extractSubdomain_of_suffix (hosts : sdk.NormalizesHosts) {clientUrl relayUrl : String}
    (hclient : sdk.host clientUrl = some clientHost)
    (hrelay : sdk.host relayUrl = some relayHost)
    (h : dotLabels relayHost <:+ dotLabels clientHost) :
    extractSubdomain sdk clientHost (dotLabels relayHost).length =
      if (dotLabels relayHost).length < (dotLabels clientHost).length then
        some (join ((dotLabels clientHost).take
          ((dotLabels clientHost).length - (dotLabels relayHost).length)))
      else none := by
  by_cases hdot : '.' ∈ clientHost.toList
  swap
  · rw [extractSubdomain_of_dot_notMem hdot (length_dotLabels_pos _), if_neg]
    rw [length_dotLabels_eq_one hdot]
    exact not_lt.mpr (length_dotLabels_pos _)
  have hcolon : ':' ∉ clientHost.toList := fun hmem =>
    hosts.bracketed clientUrl clientHost hclient hmem hdot
  have hhead : (clientHost.splitOn ":").headD clientHost = clientHost := by
    have := headD_splitOn_append hcolon (.inl rfl : ("" : String) = "" ∨ _) clientHost
    rwa [String.append_empty] at this
  have hlocal : clientHost ≠ "localhost" := by
    rintro rfl
    exact absurd hdot (by decide)
  rw [extractSubdomain]
  dsimp only
  rw [hhead, splitOn_dot, List.length_map, ← List.map_take, beq_eq_false_iff_ne.mpr hlocal,
    Bool.false_or]
  by_cases hip : sdk.isIpAddr clientHost = true
  · have hlength := length_eq_of_isIpv4 hosts hrelay (hosts.isIpv4 clientHost hcolon hip) h
    rw [if_pos hip, if_neg (Nat.not_lt.mpr hlength.le)]
  · rw [if_neg hip]
    by_cases hlength : (dotLabels clientHost).length ≤ (dotLabels relayHost).length
    · rw [if_pos hlength, if_neg (not_lt.mpr hlength)]
    · rw [if_neg hlength, if_pos (not_le.mp hlength), join]

/-- A host within the relay's is the relay's, if there is nothing in front. -/
theorem eq_iff_of_suffix (h : dotLabels relayHost <:+ dotLabels clientHost) :
    clientHost = relayHost ↔ ¬ (dotLabels relayHost).length < (dotLabels clientHost).length := by
  refine ⟨fun heq => heq ▸ lt_irrefl _, fun hlength => ?_⟩
  exact (dotLabels_inj.mp (h.eq_of_length_le (not_lt.mp hlength))).symm

/-- The host of a tenant is one within the relay's, with the tenant's name in front. -/
theorem eq_append_iff {name : String} :
    clientHost = name ++ "." ++ relayHost ↔
      dotLabels relayHost <:+ dotLabels clientHost ∧
        (dotLabels relayHost).length < (dotLabels clientHost).length ∧
          join ((dotLabels clientHost).take
            ((dotLabels clientHost).length - (dotLabels relayHost).length)) = name := by
  refine ⟨?_, fun ⟨hsuffix, hlength, hname⟩ => ?_⟩
  · rintro rfl
    rw [dotLabels_append, List.length_append, Nat.add_sub_cancel, List.take_left, join_dotLabels]
    exact ⟨List.suffix_append .., Nat.lt_add_of_pos_left (length_dotLabels_pos _), rfl⟩
  · obtain ⟨front, hfront⟩ := hsuffix
    rw [← hfront, List.length_append, Nat.add_sub_cancel, List.take_left] at hname
    have hne : front ≠ [] := by
      rintro rfl
      exact absurd hlength (by rw [← hfront, List.nil_append]; exact lt_irrefl _)
    have hdot : ∀ label ∈ front, '.' ∉ label := fun label hlabel =>
      dot_notMem_of_mem_dotLabels (hfront ▸ List.mem_append_left _ hlabel)
    rw [← dotLabels_inj, dotLabels_append, ← hname, dotLabels_join hne hdot, hfront]

/-- Which hosts are accepted: the relay's own, or the one of the tenant. -/
theorem validateHosts_iff (hosts : sdk.NormalizesHosts)
    (hsubdomains : config.validateSubdomains = true) {clientUrl relayUrl : String}
    (hclient : sdk.host clientUrl = some clientHost)
    (hrelay : sdk.host relayUrl = some relayHost) (scope : Scope) :
    validateHosts sdk config clientHost relayHost scope = true ↔
      IsScopeHost scope clientHost relayHost := by
  rw [validateHosts.eq_def]
  dsimp only
  by_cases hsuffix : dotLabels relayHost <:+ dotLabels clientHost
  · rw [bne_eq_false_iff_eq.mpr (clientBase_eq_iff.mpr hsuffix), if_neg Bool.false_ne_true,
      hsubdomains, Bool.not_true, if_neg Bool.false_ne_true, splitOn_dot relayHost,
      List.length_map, extractSubdomain_of_suffix hosts hclient hrelay hsuffix]
    cases scope with
    | default =>
      rw [IsScopeHost, eq_iff_of_suffix hsuffix]
      dsimp only
      split
      · next hlength => exact iff_of_false Bool.false_ne_true (not_not_intro hlength)
      · next hlength => exact iff_of_true rfl hlength
    | named name =>
      rw [IsScopeHost, eq_append_iff, and_iff_right hsuffix]
      dsimp only
      rw [beq_iff_eq]
      split
      · next hlength => rw [Option.some.injEq, and_iff_right hlength]
      · next hlength => exact iff_of_false (fun h => nomatch h) fun h => hlength h.1
  · rw [bne_iff_ne.mpr fun h => hsuffix (clientBase_eq_iff.mp h), if_pos rfl]
    refine iff_of_false Bool.false_ne_true fun h => hsuffix ?_
    cases scope with
    | default => exact h ▸ List.suffix_rfl
    | named name => exact (eq_append_iff.mp h).1

/-- **Which hosts the relay-URL check accepts.** -/
theorem validateRelayUrl_iff (hosts : sdk.NormalizesHosts)
    (hsubdomains : config.validateSubdomains = true) (clientRelayUrl : String) (scope : Scope) :
    validateRelayUrl sdk config clientRelayUrl scope = true ↔
      ((comparedWhole clientRelayUrl || comparedWhole config.relayUrl) = true ∧
          trimEndSlashes clientRelayUrl = trimEndSlashes config.relayUrl) ∨
        ((comparedWhole clientRelayUrl || comparedWhole config.relayUrl) = false ∧
          ∃ clientHost relayHost, sdk.host clientRelayUrl = some clientHost ∧
            sdk.host config.relayUrl = some relayHost ∧
              IsScopeHost scope clientHost relayHost) := by
  rw [validateRelayUrl, Bool.or_assoc, ← comparedWhole, ← comparedWhole]
  cases hwhole : comparedWhole clientRelayUrl || comparedWhole config.relayUrl with
  | true =>
    rw [if_pos rfl, beq_iff_eq]
    simp
  | false =>
    rw [if_neg Bool.false_ne_true]
    cases hclient : sdk.host clientRelayUrl with
    | none => simp
    | some clientHost =>
      cases hrelay : sdk.host config.relayUrl with
      | none => simp
      | some relayHost =>
        dsimp only
        rw [validateHosts_iff hosts hsubdomains hclient hrelay scope]
        simp

/-- A library that reads the URLs of a relay and of one tenant. -/
def exampleHostSdk : AuthSdk where
  challenge _ := none
  relay _ := none
  host url :=
    if url = "wss://r.io" then some "r.io"
    else if url = "wss://a.r.io" then some "a.r.io" else none
  isIpAddr _ := false

theorem lastLabel_example : lastLabel "r.io" = ['i', 'o'] ∧
    lastLabel "a.r.io" = ['i', 'o'] := by
  have hrelay : dotLabels "r.io" = [['r'], ['i', 'o']] :=
    by decide
  have hclient : dotLabels "a.r.io" =
      [['a'], ['r'], ['i', 'o']] := by decide
  simp only [lastLabel, hrelay, hclient]
  exact ⟨rfl, rfl⟩

theorem exampleHostSdk_normalizesHosts : exampleHostSdk.NormalizesHosts := by
  have hhost {url host : String} (h : exampleHostSdk.host url = some host) :
      host = "r.io" ∨ host = "a.r.io" := by
    simp only [exampleHostSdk] at h
    split at h
    · exact .inl (Option.some.inj h).symm
    · split at h
      · exact .inr (Option.some.inj h).symm
      · cases h
  have hio : ¬ IsNumeric ['i', 'o'] := fun h => absurd (h.2 'i' (by decide)) (by decide)
  refine ⟨fun url host h hnumeric => ?_, fun url host h hcolon => ?_, fun _ _ h => nomatch h⟩
  · obtain rfl | rfl := hhost h
    · exact absurd (lastLabel_example.1 ▸ hnumeric) hio
    · exact absurd (lastLabel_example.2 ▸ hnumeric) hio
  · obtain rfl | rfl := hhost h
    · exact absurd hcolon (by decide)
    · exact absurd hcolon (by decide)

theorem containsText_eq_false {text part : String} {c : Char} (hpart : c ∈ part.toList)
    (htext : c ∉ text.toList) : containsText text part = false := by
  simp only [containsText, decide_eq_false_iff_not]
  exact fun h => htext (h.subset hpart)

theorem host_example : exampleHostSdk.host "wss://r.io" = some "r.io" ∧
    exampleHostSdk.host "wss://a.r.io" = some "a.r.io" :=
  ⟨by simp [exampleHostSdk], by simp [exampleHostSdk]⟩

/-- A relay at `wss://r.io`, with subdomain validation. -/
def exampleUrlConfig : AuthConfig := ⟨"wss://r.io", true⟩

/-- The URL of a tenant is accepted for the tenant's connection, and for no other. -/
theorem tenant_url_accepted :
    validateRelayUrl exampleHostSdk exampleUrlConfig "wss://a.r.io" (.named "a") = true ∧
      ¬ validateRelayUrl exampleHostSdk exampleUrlConfig "wss://a.r.io" .default = true := by
  have hwhole : (comparedWhole "wss://a.r.io" || comparedWhole exampleUrlConfig.relayUrl) =
      false := by
    have hnot (url : String) (h : 'l' ∉ url.toList ∧ '1' ∉ url.toList) :
        comparedWhole url = false := by
      rw [comparedWhole, containsText_eq_false (by decide) h.1,
        containsText_eq_false (by decide) h.2, Bool.or_false]
    rw [hnot _ (by decide), hnot exampleUrlConfig.relayUrl (by decide), Bool.or_false]
  have hname : IsScopeHost (.named "a") "a.r.io" "r.io" :=
    (by decide : "a.r.io" = "a" ++ "." ++ "r.io")
  have hiff := validateRelayUrl_iff exampleHostSdk_normalizesHosts
    (rfl : exampleUrlConfig.validateSubdomains = true) "wss://a.r.io"
  refine ⟨(hiff _).mpr (.inr ⟨hwhole, "a.r.io", "r.io", host_example.2, host_example.1, hname⟩),
    fun h => ?_⟩
  obtain ⟨h, -⟩ | ⟨-, client, relay, hclient, hrelay, hsame⟩ := (hiff _).mp h
  · exact Bool.false_ne_true (hwhole.symm.trans h)
  · have hhosts : client = relay := hsame
    rw [← Option.some.inj (host_example.2.symm.trans hclient),
      ← Option.some.inj (host_example.1.symm.trans hrelay)] at hhosts
    exact absurd hhosts (by decide)

end RelayBuilder
