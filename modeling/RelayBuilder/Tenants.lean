import RelayBuilder.Authentication
import RelayBuilder.HostNames

/-!
# Tenants

The scope of a connection. `NostrHandlerFactory::create` takes it from the Host header of the
upgrade request, as `ScopeConfig` says, and `ScopeConfig::resolve_scope` is the documented way to
do so. `Nip42Middleware` takes the tenant from the host of a URL once more, by the labels of the
relay's own URL.

## Main definitions

* `ScopeConfig`, `ScopeConfig.resolveScope`
* `NostrHandlerFactory.createScope`

## Main results

* `createScope_eq_resolveScope_iff`: when the scope of a connection is the documented one
* `validateRelayUrl_createScope_iff`: when a client may authenticate with the address it
  connected to
-/

namespace RelayBuilder

open Hosts

/-! ### The scope of a connection -/

/-- What the library of the store says of the names of scopes. An empty name is none. -/
structure ScopeSdk where
  accepts : String → Bool
  accepts_empty : accepts "" = false

/-- `Scope::named`. -/
def ScopeSdk.named (sdk : ScopeSdk) (name : String) : Option Scope :=
  if sdk.accepts name then some (.named name) else none

/-- `ScopeConfig`. -/
inductive ScopeConfig where
  /-- All data is stored in the default scope. -/
  | disabled
  /-- The labels of the host in front of the base domain are the scope. -/
  | subdomain (baseDomainParts : ℕ)
  /-- One scope for all connections. -/
  | fixed (scope : Scope)
  deriving DecidableEq

/-- `ScopeConfig::resolve_scope`. -/
def ScopeConfig.resolveScope (sdk : AuthSdk) (scopes : ScopeSdk) (config : ScopeConfig)
    (host : Option String) : Scope :=
  match config with
  | .disabled => .default
  | .subdomain baseDomainParts =>
    ((host.bind fun h => extractSubdomain sdk h baseDomainParts).bind fun s =>
      if s.isEmpty then none else scopes.named s).getD .default
  | .fixed scope => scope

/-- The headers of a request, with their values as bytes. -/
abbrev HeaderMap := List (String × List UInt8)

/-- `HeaderValue::to_str`: the value, if it is visible ASCII. -/
def headerText (value : List UInt8) : Option String :=
  if value.all fun b => (32 ≤ b && b < 127) || b == 9 then
    some (String.ofList (value.map fun b => Char.ofNat b.toNat))
  else none

/-- The text of the Host header. -/
def HeaderMap.host (headers : HeaderMap) : Option String :=
  ((headers.find? fun header => header.1 == "host").map Prod.snd).bind headerText

/-- The scope that `NostrHandlerFactory::create` gives a connection. -/
def NostrHandlerFactory.createScope (sdk : AuthSdk) (scopes : ScopeSdk) (config : ScopeConfig)
    (headers : HeaderMap) : Scope :=
  let subdomain :=
    match headers.host with
    | some host =>
      match config with
      | .subdomain baseDomainParts =>
        (extractSubdomain sdk host baseDomainParts).bind scopes.named
      | _ => none
    | none => none
  subdomain.getD .default

open NostrHandlerFactory

variable {sdk : AuthSdk} {scopes : ScopeSdk} {config : ScopeConfig} {headers : HeaderMap}

theorem ScopeSdk.named_of_isEmpty (scopes : ScopeSdk) {name : String} (h : name.isEmpty = true) :
    scopes.named name = none := by
  obtain rfl := String.isEmpty_iff.mp h
  exact if_neg (by simp [scopes.accepts_empty])

/-- A scope from the subdomain is taken in the documented way. -/
theorem createScope_subdomain (baseDomainParts : ℕ) :
    createScope sdk scopes (.subdomain baseDomainParts) headers =
      (ScopeConfig.subdomain baseDomainParts).resolveScope sdk scopes headers.host := by
  rw [createScope, ScopeConfig.resolveScope]
  cases headers.host with
  | none => rfl
  | some host =>
    cases hsub : extractSubdomain sdk host baseDomainParts with
    | none => simp [hsub]
    | some name =>
      simp only [Option.bind_some, hsub]
      by_cases hempty : name.isEmpty = true
      · rw [if_pos hempty, scopes.named_of_isEmpty hempty]
      · rw [if_neg hempty]

/-- **When the scope of a connection is the documented one.** For every request, the scope of the
connection is the one that `resolve_scope` gives for the same host, exactly if the configuration
fixes no scope other than the default. -/
theorem createScope_eq_resolveScope_iff (sdk : AuthSdk) (scopes : ScopeSdk) (config : ScopeConfig)
    (headers : HeaderMap) :
    createScope sdk scopes config headers = config.resolveScope sdk scopes headers.host ↔
      ∀ scope, config = .fixed scope → scope = .default := by
  cases config with
  | disabled =>
    refine iff_of_true ?_ fun _ h => nomatch h
    rw [createScope]
    cases headers.host <;> rfl
  | subdomain baseDomainParts =>
    exact iff_of_true (createScope_subdomain baseDomainParts) fun _ h => nomatch h
  | fixed scope =>
    have hcreate : createScope sdk scopes (.fixed scope) headers = .default := by
      rw [createScope]
      cases headers.host <;> rfl
    rw [hcreate]
    refine ⟨fun h scope' heq => ?_, fun h => (h scope rfl).symm⟩
    cases heq
    exact h.symm

/-- A store that takes every name that is not empty. -/
def exampleScopes : ScopeSdk where
  accepts name := !name.isEmpty
  accepts_empty := rfl

/-- A fixed scope is ignored when a connection is made. -/
theorem fixed_scope_ignored : ¬ ∀ (config : ScopeConfig) (headers : HeaderMap),
    createScope exampleSdk exampleScopes config headers =
      config.resolveScope exampleSdk exampleScopes headers.host := by
  intro h
  have : (Scope.default : Scope) = .named "tenant" := h (.fixed (.named "tenant")) []
  exact absurd this (by decide)

/-! ### The tenant of a URL -/

variable {auth : AuthConfig} {host relay : HostName} {port : String} {baseDomainParts : ℕ}

/-- No host name reads as an address. -/
def AuthSdk.KnowsAddresses (sdk : AuthSdk) : Prop :=
  ∀ name : HostName, sdk.isIpAddr name.text = false

/-- The end of a Host header: nothing, or a port. -/
def IsPort (port : String) : Prop := port = "" ∨ ∃ digits, port = ":" ++ digits

theorem extractSubdomain_text (hip : sdk.KnowsAddresses) (hport : IsPort port)
    (baseDomainParts : ℕ) : extractSubdomain sdk (host.text ++ port) baseDomainParts =
      if host.text = "localhost" ∨ host.length ≤ baseDomainParts then none
      else some (host.before baseDomainParts) := by
  have hhead : ((host.text ++ port).splitOn ":").headD (host.text ++ port) = host.text :=
    headD_splitOn_append host.colon_not_mem hport _
  simp only [extractSubdomain, hhead, hip host, Bool.or_false, beq_iff_eq, host.splitOn_text,
    List.length_map, HostName.length_labels, ← List.map_take]
  by_cases hlocal : host.text = "localhost"
  · rw [if_pos hlocal, if_pos (.inl hlocal)]
  · rw [if_neg hlocal]
    simp only [hlocal, false_or]
    rfl

/-- The scope of a connection to a host. -/
theorem createScope_text (hip : sdk.KnowsAddresses) (hport : IsPort port)
    (hlocal : host.text ≠ "localhost") (hheader : headers.host = some (host.text ++ port)) :
    createScope sdk scopes (.subdomain baseDomainParts) headers =
      if baseDomainParts < host.length ∧ scopes.accepts (host.before baseDomainParts) = true then
        .named (host.before baseDomainParts)
      else .default := by
  simp only [createScope, hheader, extractSubdomain_text hip hport, hlocal, false_or]
  by_cases hlength : host.length ≤ baseDomainParts
  · rw [if_pos hlength, if_neg fun h => absurd h.1 (not_lt.mpr hlength)]
    rfl
  · rw [if_neg hlength, Option.bind_some, ScopeSdk.named]
    simp only [not_le.mp hlength, true_and]
    split <;> rfl

theorem extractSubdomain_lower (hip : sdk.KnowsAddresses) (host relay : HostName) :
    extractSubdomain sdk host.lower.text relay.length =
      if host.length ≤ relay.length then none else some (host.lower.before relay.length) := by
  have htext : extractSubdomain sdk (host.lower.text ++ "") relay.length = _ :=
    extractSubdomain_text hip (.inl rfl) relay.length
  rw [String.append_empty, HostName.length_lower] at htext
  rw [htext]
  by_cases hlocal : host.lower.text = "localhost"
  · have hlength : host.length = 1 := by
      rw [← HostName.length_lower]
      exact host.lower.length_eq_one (by rw [hlocal]; decide)
    rw [if_pos (.inl hlocal), if_pos (hlength ▸ relay.length_pos)]
  · simp only [hlocal, false_or]

/-- The base domain of a name within another is the other. -/
theorem clientBase_eq (hwithin : host.IsWithin relay) :
    ".".intercalate ((host.lower.text.splitOn ".").drop
      ((host.lower.text.splitOn ".").length - (relay.lower.text.splitOn ".").length)) =
        ".".intercalate (relay.lower.text.splitOn ".") := by
  rw [host.lower.splitOn_text, relay.lower.splitOn_text, List.length_map, List.length_map,
    HostName.length_labels, HostName.length_labels, HostName.length_lower, HostName.length_lower,
    ← List.map_drop, hwithin.drop_eq]

/-- The hosts of two URLs, if the one is within the other. -/
theorem validateHosts_within (hip : sdk.KnowsAddresses) (hwithin : host.IsWithin relay)
    (scope : Scope) :
    Nip42Middleware.validateHosts sdk auth host.lower.text relay.lower.text scope = true ↔
      (auth.validateSubdomains = true →
        match scope with
        | .default => host.length = relay.length
        | .named name => relay.length < host.length ∧ host.lower.before relay.length = name) := by
  simp only [Nip42Middleware.validateHosts, clientBase_eq hwithin, bne_self_eq_false,
    Bool.false_eq_true, if_false]
  by_cases hsubdomains : auth.validateSubdomains = true
  swap
  · rw [if_pos (by simp [hsubdomains])]
    exact iff_of_true rfl fun h => absurd h hsubdomains
  simp only [hsubdomains, Bool.not_true, Bool.false_eq_true, if_false, forall_const]
  rw [relay.lower.splitOn_text, List.length_map, HostName.length_labels, HostName.length_lower,
    extractSubdomain_lower hip]
  have hle := hwithin.length_le
  cases scope with
  | default =>
    by_cases hlength : host.length ≤ relay.length
    · rw [if_pos hlength]
      exact iff_of_true rfl (le_antisymm hlength hle)
    · rw [if_neg hlength]
      exact iff_of_false (by simp) fun h => hlength h.le
  | named name =>
    by_cases hlength : host.length ≤ relay.length
    · rw [if_pos hlength]
      exact iff_of_false (by simp) fun h => absurd h.1 (not_lt.mpr hlength)
    · rw [if_neg hlength, beq_iff_eq, Option.some.injEq]
      exact (and_iff_right (not_le.mp hlength)).symm

/-- The middleware compares a URL as a whole. -/
def comparedWhole (url : String) : Bool :=
  containsText url "localhost" || containsText url "127.0.0.1"

/-- The tenant in the host name that the client uses is the one that the connection got: a URL
that is compared as a whole is the relay's own; the relay's host itself is no tenant; and for a
host of a tenant, the base domain is the relay's host, and the tenant's name is accepted and
written in lower case. -/
def TenantsAgree (scopes : ScopeSdk) (auth : AuthConfig) (baseDomainParts : ℕ)
    (host relay : HostName) : Prop :=
  if comparedWhole ("wss://" ++ host.text) || comparedWhole auth.relayUrl then
    trimEndSlashes ("wss://" ++ host.text) = trimEndSlashes auth.relayUrl
  else
    auth.validateSubdomains = true →
      if host.length = relay.length then
        host.length ≤ baseDomainParts ∨ scopes.accepts (host.before baseDomainParts) = false
      else
        baseDomainParts = relay.length ∧ scopes.accepts (host.before baseDomainParts) = true ∧
          host.lower.before baseDomainParts = host.before baseDomainParts

theorem ne_localhost (h : comparedWhole ("wss://" ++ host.text) = false) :
    host.text ≠ "localhost" := by
  intro heq
  have hlocal : containsText ("wss://" ++ host.text) "localhost" = true := by
    simp only [containsText, decide_eq_true_eq, heq, String.toList_append]
    exact (List.suffix_append _ _).isInfix
  rw [comparedWhole, hlocal] at h
  cases h

/-- What the middleware checks of a URL within the relay's. -/
theorem validateRelayUrl_within (hip : sdk.KnowsAddresses)
    (hclient : sdk.host ("wss://" ++ host.text) = some host.lower.text)
    (hrelay : sdk.host auth.relayUrl = some relay.lower.text) (hwithin : host.IsWithin relay)
    (hwhole : (comparedWhole ("wss://" ++ host.text) || comparedWhole auth.relayUrl) = false)
    (scope : Scope) :
    Nip42Middleware.validateRelayUrl sdk auth ("wss://" ++ host.text) scope = true ↔
      (auth.validateSubdomains = true →
        match scope with
        | .default => host.length = relay.length
        | .named name => relay.length < host.length ∧ host.lower.before relay.length = name) := by
  rw [Nip42Middleware.validateRelayUrl, Bool.or_assoc, ← comparedWhole, ← comparedWhole, hwhole,
    if_neg Bool.false_ne_true, hclient, hrelay]
  exact validateHosts_within hip hwithin scope

/-- **When a client may authenticate with the address it connected to.** For every relay whose URL
has a host of the DNS, and every Host header that names it or a subdomain of it, with or without a
port, the connection gets a scope for which the URL of the named host is accepted, exactly if the
two ways to find the tenant agree. -/
theorem validateRelayUrl_createScope_iff (hip : sdk.KnowsAddresses)
    (hclient : sdk.host ("wss://" ++ host.text) = some host.lower.text)
    (hrelay : sdk.host auth.relayUrl = some relay.lower.text) (hwithin : host.IsWithin relay)
    (hport : IsPort port) (hheader : headers.host = some (host.text ++ port)) :
    Nip42Middleware.validateRelayUrl sdk auth ("wss://" ++ host.text)
      (createScope sdk scopes (.subdomain baseDomainParts) headers) = true ↔
        TenantsAgree scopes auth baseDomainParts host relay := by
  rw [TenantsAgree]
  by_cases hwhole : (comparedWhole ("wss://" ++ host.text) || comparedWhole auth.relayUrl) = true
  · rw [if_pos hwhole, Nip42Middleware.validateRelayUrl, Bool.or_assoc, ← comparedWhole,
      ← comparedWhole, if_pos hwhole, beq_iff_eq]
  rw [if_neg hwhole]
  rw [Bool.not_eq_true] at hwhole
  have hlocal := ne_localhost (Bool.or_eq_false_iff.mp hwhole).1
  refine (validateRelayUrl_within hip hclient hrelay hwithin hwhole _).trans
    (imp_congr_right fun _ => ?_)
  rw [createScope_text hip hport hlocal hheader]
  have hle := hwithin.length_le
  by_cases hnamed : baseDomainParts < host.length ∧
      scopes.accepts (host.before baseDomainParts) = true
  · -- the connection has a tenant
    rw [if_pos hnamed]
    by_cases hlength : host.length = relay.length
    · rw [if_pos hlength]
      refine iff_of_false (fun h => absurd hlength h.1.ne') fun h => ?_
      obtain h | h := h
      · exact absurd hnamed.1 (not_lt.mpr h)
      · exact absurd (hnamed.2.symm.trans h) (by decide)
    · rw [if_neg hlength]
      constructor
      · rintro ⟨hlt, heq⟩
        obtain rfl : relay.length = baseDomainParts := HostName.eq_of_before_eq
          host.length_lower (by rwa [HostName.length_lower]) hnamed.1 heq
        exact ⟨rfl, hnamed.2, heq⟩
      · rintro ⟨hbase, -, heq⟩
        exact ⟨lt_of_le_of_ne hle (Ne.symm hlength), hbase ▸ heq⟩
  · -- the connection has the default scope
    rw [if_neg hnamed]
    by_cases hlength : host.length = relay.length
    · rw [if_pos hlength]
      refine iff_of_true hlength ?_
      rw [not_and_or, not_lt, Bool.not_eq_true] at hnamed
      exact hnamed
    · rw [if_neg hlength]
      refine iff_of_false hlength ?_
      rintro ⟨hbase, haccepts, -⟩
      exact hnamed ⟨hbase ▸ lt_of_le_of_ne hle (Ne.symm hlength), haccepts⟩

/-- A library that reads URLs of the form `wss://host` with a host of the DNS. -/
def exampleUrlSdk : AuthSdk where
  challenge _ := none
  relay _ := none
  host url := some (String.ofList ((url.toList.drop 6).map Char.toLower))
  isIpAddr _ := false

/-- The host `r.io`. -/
def exampleRelay : HostName where
  labels := [['r'], ['i', 'o']]
  labels_ne_nil := by decide
  chars := by simp [IsLabelChar]
  no_address := by simp

/-- The host `a.r.io` of a tenant. -/
def exampleTenant : HostName where
  labels := [['a'], ['r'], ['i', 'o']]
  labels_ne_nil := by decide
  chars := by simp [IsLabelChar]
  no_address := by simp

/-- The same host, with a capital letter. -/
def exampleCapital : HostName where
  labels := [['A'], ['r'], ['i', 'o']]
  labels_ne_nil := by decide
  chars := by simp [IsLabelChar]
  no_address := by simp

theorem exampleUrlSdk_knowsAddresses : exampleUrlSdk.KnowsAddresses := fun _ => rfl

/-- A relay at `wss://r.io`. -/
def exampleAuthConfig : AuthConfig := ⟨"wss://" ++ exampleRelay.text, true⟩

theorem host_exampleRelay :
    exampleUrlSdk.host exampleAuthConfig.relayUrl = some exampleRelay.lower.text := by
  simp only [exampleAuthConfig, HostName.text, join_eq]
  decide

theorem accepts_tenant :
    Nip42Middleware.validateRelayUrl exampleUrlSdk exampleAuthConfig
      ("wss://" ++ exampleTenant.text) (createScope exampleUrlSdk exampleScopes (.subdomain 2)
        [("host", [97, 46, 114, 46, 105, 111, 58, 56, 48])]) = true := by
  have hwhole : (comparedWhole ("wss://" ++ exampleTenant.text) ||
      comparedWhole exampleAuthConfig.relayUrl) = false := by
    simp only [exampleAuthConfig, HostName.text, join_eq, comparedWhole, containsText]
    decide
  have hbefore : exampleTenant.before 2 = "a" := by
    rw [HostName.before, join_eq]
    decide
  have hlower : exampleTenant.lower.before 2 = "a" := by
    rw [HostName.before, join_eq]
    decide
  have hport : IsPort ":80" := .inr ⟨"80", rfl⟩
  refine (validateRelayUrl_createScope_iff exampleUrlSdk_knowsAddresses ?_ host_exampleRelay
    ⟨[['a']], rfl⟩ hport ?_).mpr ?_
  · simp only [HostName.text, join_eq]
    decide
  · simp only [HostName.text, join_eq]
    decide
  · rw [TenantsAgree, hwhole, if_neg Bool.false_ne_true]
    refine fun _ => ?_
    rw [if_neg (by decide), hbefore, hlower]
    exact ⟨rfl, rfl, rfl⟩

/-- The tenant of a client that writes its host with a capital letter is another one. -/
theorem capital_refused : ¬ ∀ (host : HostName) (headers : HeaderMap),
    host.IsWithin exampleRelay → headers.host = some host.text →
    Nip42Middleware.validateRelayUrl exampleUrlSdk exampleAuthConfig ("wss://" ++ host.text)
      (createScope exampleUrlSdk exampleScopes (.subdomain 2) headers) = true := by
  intro h
  have hheader : HeaderMap.host [("host", [65, 46, 114, 46, 105, 111])] =
      some (exampleCapital.text ++ "") := by
    simp only [HostName.text, join_eq]
    decide
  have hwhole : (comparedWhole ("wss://" ++ exampleCapital.text) ||
      comparedWhole exampleAuthConfig.relayUrl) = false := by
    simp only [exampleAuthConfig, HostName.text, join_eq, comparedWhole, containsText]
    decide
  have hclient : exampleUrlSdk.host ("wss://" ++ exampleCapital.text) =
      some exampleCapital.lower.text := by
    simp only [HostName.text, join_eq]
    decide
  have hwithin : exampleCapital.IsWithin exampleRelay := ⟨[['a']], rfl⟩
  have hbefore : exampleCapital.before 2 = "A" := by
    rw [HostName.before, join_eq]
    decide
  have hlower : exampleCapital.lower.before 2 = "a" := by
    rw [HostName.before, join_eq]
    decide
  have haccepted := h exampleCapital _ hwithin (hheader.trans (by rw [String.append_empty]))
  rw [validateRelayUrl_within exampleUrlSdk_knowsAddresses hclient host_exampleRelay hwithin hwhole,
    createScope_text exampleUrlSdk_knowsAddresses (.inl rfl)
      (ne_localhost (Bool.or_eq_false_iff.mp hwhole).1) hheader, hbefore,
    if_pos ⟨by decide, rfl⟩] at haccepted
  exact absurd (hlower.symm.trans (haccepted rfl).2) (by decide)

end RelayBuilder
