import RelayBuilder.RegistryMethods

/-!
# Calls of the registry one after another

Two invariants of the registry when its methods are called one after another: the maps of the
connections and the indexes agree, and the indexes hold filters of a connection only in the scope
it is registered with. Each of them fails after certain calls, so each is proved for the runs that
avoid them.

## Main results

* `registry_agrees_with_index`: as long as `add_subscription` replaces nothing
* `distributeEvent_within_scope`: as long as no id is registered while the index of another scope
  holds filters of it
-/

namespace RelayBuilder

open Interleave

namespace SubscriptionRegistry

/-- What is true of the registry between two calls, with the indexes described by `H`. -/
structure Settled (H : ScopedKey → Option (List Filter)) (s : SubscriptionRegistry) : Prop where
  wellFormed : WellFormed s
  idle : Idle s
  live : Live H s

variable {H : ScopedKey → Option (List Filter)} {s s' : SubscriptionRegistry} {id : ConnectionId}
  {conn : ConnRef} {data : ConnectionSubscriptions} {sdk : Sdk}

theorem settled_new (metricsHandler : Option SubscriptionMetrics)
    (channels : ChannelRef → Channel) : Settled (fun _ => none) (new metricsHandler channels) :=
  ⟨⟨fun _ _ h => (nomatch h), fun _ _ h => (nomatch h)⟩, fun _ _ h => (nomatch h),
    fun _ => SubscriptionIndex.contents_new⟩

theorem Settled.same (h : Settled H s) {H' : ScopedKey → Option (List Filter)}
    (hs : SameConnections s s') (hlive : Live H' s') : Settled H' s' :=
  ⟨hs.wellFormed h.wellFormed, hs.idle h.idle, hlive⟩

theorem Settled.onlyChannels (h : Settled H s) (hs : OnlyChannels s s') : Settled H s' :=
  h.same hs.toSameConnections (hs.live h.live)

theorem WellFormed.removed (h : WellFormed s) (hs : Removed id s s') : WellFormed s' := by
  refine ⟨fun id' conn' hconn => ?_, fun conn' data' hdata => ?_⟩
  · rw [hs.connections] at hconn
    have hne : id' ≠ id := by
      rintro rfl
      rw [AList.lookup_erase] at hconn
      cases hconn
    rw [AList.lookup_erase_ne hne] at hconn
    rw [hs.conns]
    exact h.current id' conn' hconn
  · rw [hs.conns] at hdata
    rw [hs.registered]
    exact h.fresh conn' data' hdata

theorem WellFormed.updateConn (h : WellFormed s) (conn : ConnRef)
    (f : ConnectionSubscriptions → ConnectionSubscriptions) : WellFormed (s.updateConn conn f) := by
  refine ⟨fun id' conn' hconn => ?_, fun conn' data' hdata => ?_⟩
  · obtain ⟨hid, data', hdata'⟩ := h.current id' conn' hconn
    refine ⟨hid, ?_⟩
    by_cases hc : conn' = conn
    · subst hc
      exact ⟨f data', by simp [SubscriptionRegistry.updateConn, hdata']⟩
    · exact ⟨data', by simp [SubscriptionRegistry.updateConn, hc, hdata']⟩
  · by_cases hc : conn' = conn
    · subst hc
      simp only [SubscriptionRegistry.updateConn, if_pos, Option.map_eq_some_iff] at hdata
      obtain ⟨data, hdata, -⟩ := hdata
      exact h.fresh conn' data hdata
    · simp only [SubscriptionRegistry.updateConn, if_neg hc] at hdata
      exact h.fresh conn' data' hdata

theorem WellFormed.register (h : WellFormed s) (id : ConnectionId) (sender : MessageSender)
    (auth : Option PublicKey) (subdomain : Scope) :
    WellFormed (register id sender auth subdomain s).2 := by
  refine ⟨fun id' conn' hconn => ?_, fun conn' data hdata => ?_⟩
  · by_cases hid : id' = id
    · subst hid
      simp only [SubscriptionRegistry.register, AList.lookup_insert, Option.some.injEq] at hconn
      subst hconn
      exact ⟨rfl, _, if_pos rfl⟩
    · simp only [SubscriptionRegistry.register, AList.lookup_insert_ne hid] at hconn
      obtain ⟨hid', data', hdata'⟩ := h.current id' conn' hconn
      refine ⟨hid', data', ?_⟩
      simp only [SubscriptionRegistry.register]
      rw [if_neg, hdata']
      rintro rfl
      exact hid hid'.symm
  · simp only [SubscriptionRegistry.register] at hdata ⊢
    split at hdata
    · rename_i heq
      subst heq
      exact Nat.lt_succ_self _
    · exact Nat.lt_succ_of_lt (h.fresh conn' data hdata)

theorem Settled.removed (h : Settled H s) {H' : ScopedKey → Option (List Filter)}
    (hs : Removed id s s') (hlive : Live H' s') : Settled H' s' := by
  refine ⟨h.wellFormed.removed hs, fun conn' data' hdata => ?_, hlive⟩
  rw [hs.conns] at hdata
  exact h.idle conn' data' hdata

theorem conns_setSubscriptions (hdata : s.conns conn = some data)
    (f : (AList fun _ : SubscriptionId => List Filter) →
      AList fun _ : SubscriptionId => List Filter) (conn' : ConnRef) :
    (s.setSubscriptions conn f).conns conn' = if conn' = conn then
      some { data with subscriptions := f data.subscriptions } else s.conns conn' := by
  by_cases hconn : conn' = conn
  · subst hconn
    simp [setSubscriptions, updateConn, hdata]
  · simp [setSubscriptions, updateConn, hconn]

theorem Settled.setSubscriptions (h : Settled H s) {H' : ScopedKey → Option (List Filter)}
    (hdata : s.conns conn = some data)
    {f : (AList fun _ : SubscriptionId => List Filter) →
      AList fun _ : SubscriptionId => List Filter}
    (hs : SameConnections (s.setSubscriptions conn f) s') (hlive : Live H' s') : Settled H' s' := by
  refine ⟨hs.wellFormed (h.wellFormed.updateConn conn _), hs.idle fun conn' data' hdata' => ?_,
    hlive⟩
  rw [conns_setSubscriptions hdata f] at hdata'
  split at hdata'
  · cases hdata'
    exact h.idle conn data hdata
  · exact h.idle conn' data' hdata'

theorem Settled.register (h : Settled H s) (id : ConnectionId) (sender : MessageSender)
    (auth : Option PublicKey) (subdomain : Scope) :
    Settled H (register id sender auth subdomain s).2 := by
  refine ⟨h.wellFormed.register id sender auth subdomain, fun conn' data hdata => ?_, h.live⟩
  simp only [SubscriptionRegistry.register] at hdata
  split at hdata
  · cases hdata
    rfl
  · exact h.idle conn' data hdata

/-- What a property of the registry and its indexes has to say to hold between the calls other than
`distribute_event` that `cond` admits. -/
structure KeptByOthers (P : (ScopedKey → Option (List Filter)) → SubscriptionRegistry → Prop)
    (cond : SubscriptionRegistry → RegistryOp → Prop) : Prop where
  same : ∀ {H s s'}, P H s → SameConnections s s' → P H s'
  register : ∀ {H s id sender auth subdomain}, Settled H s → P H s →
    cond s (.registerConnection id sender auth subdomain) →
    P H (SubscriptionRegistry.register id sender auth subdomain s).2
  add : ∀ {H s id conn data sub filters}, Settled H s → P H s →
    cond s (.addSubscription id sub filters) → s.connections.lookup id = some conn →
    s.conns conn = some data →
    P (Function.update H (data.subdomain, id, sub)
        (some ((H (data.subdomain, id, sub)).getD [] ++ filters)))
      (s.setSubscriptions conn (·.insert sub filters))
  remove : ∀ {H s id conn data sub}, Settled H s → P H s → s.connections.lookup id = some conn →
    s.conns conn = some data →
    P (if sub ∈ data.subscriptions.keys then Function.update H (data.subdomain, id, sub) none else H)
      (s.setSubscriptions conn (·.erase sub))
  cleanup : ∀ {H s s' id}, Settled H s → P H s → Removed id s s' → P (cleared H s id) s'

/-- The same for all calls: an event finds what is held for a connection in its own scope. -/
structure KeptByMethods (P : (ScopedKey → Option (List Filter)) → SubscriptionRegistry → Prop)
    (cond : SubscriptionRegistry → RegistryOp → Prop) : Prop extends KeptByOthers P cond where
  inScope : ∀ {H s}, P H s → ∀ scope κ data, (H (scope, κ)).getD [] ≠ [] →
    s.connection? κ.1 = some data → data.subdomain = scope

end SubscriptionRegistry

open SubscriptionRegistry

/-- What a call may do to the channels. -/
def RegistryOp.Guarantee (sdk : Sdk) : RegistryOp → SubscriptionRegistry → SubscriptionRegistry →
    Prop
  | .distributeEvent event scope => DeliversTo sdk event scope
  | .receive _ => fun _ _ => True
  | .disconnect _ => fun _ _ => True
  | _ => SameChannels

variable {P : (ScopedKey → Option (List Filter)) → SubscriptionRegistry → Prop}
  {cond : SubscriptionRegistry → RegistryOp → Prop} {H : ScopedKey → Option (List Filter)}
  {s : SubscriptionRegistry} {sdk : Sdk}

theorem SubscriptionRegistry.KeptByMethods.byDistribution (h : KeptByMethods P cond) :
    KeptByDistribution fun H s => Settled H s ∧ P H s where
  live h := h.1.live
  idle h := h.1.idle
  inScope hs := h.inScope hs.2
  same hs hsame hlive := ⟨hs.1.same hsame hlive, h.same hs.2 hsame⟩
  cleanup hs hremoved hlive := ⟨hs.1.removed hremoved hlive, h.cleanup hs.1 hs.2 hremoved⟩

/-- The methods other than `distribute_event` keep the property. -/
theorem RegistryOp.code_alone_others (h : KeptByOthers P cond) (hs : Settled H s) (hP : P H s)
    (op : RegistryOp) (hcond : cond s op) (hop : ∀ event scope, op ≠ .distributeEvent event scope) :
    (op.code sdk).Alone (op.Guarantee sdk) (fun _ s' => ∃ H', Settled H' s' ∧ P H' s') s := by
  have hcleanup : ∀ id, (SubscriptionRegistry.cleanupConnection sdk.order id).Alone SameChannels
      (fun _ s' => ∃ H', Settled H' s' ∧ P H' s') s := fun id =>
    (cleanupConnection_alone hs.live hs.idle sdk.order id).post fun _ s' ⟨hremoved, hlive⟩ =>
      ⟨_, hs.removed hremoved hlive, h.cleanup hs hP hremoved⟩
  cases op with
  | registerConnection id sender auth subdomain =>
    exact Prog.Alone.bind (M := fun _ s' => ∃ H', Settled H' s' ∧ P H' s')
      (Prog.Alone.atomic rfl ⟨H, hs.register id sender auth subdomain, h.register hs hP hcond⟩)
      fun _ _ h => h
  | addSubscription id sub filters =>
    cases hconn : s.connections.lookup id with
    | none =>
      refine (addSubscription_alone_none hconn sub filters).bind ?_
      rintro _ _ ⟨rfl, rfl⟩
      exact ⟨H, hs, hP⟩
    | some conn =>
      obtain ⟨-, data, hdata⟩ := hs.wellFormed.current id conn hconn
      refine (addSubscription_alone hs.live hs.idle hconn hdata sub filters).bind
        fun r s' ⟨_, hsame, hlive⟩ => ⟨_, hs.setSubscriptions hdata hsame hlive, ?_⟩
      exact h.same (h.add hs hP hcond hconn hdata) hsame
  | removeSubscription id sub =>
    cases hconn : s.connections.lookup id with
    | none =>
      refine (removeSubscription_alone_none hconn sub).bind ?_
      rintro _ _ ⟨rfl, rfl⟩
      exact ⟨H, hs, hP⟩
    | some conn =>
      obtain ⟨-, data, hdata⟩ := hs.wellFormed.current id conn hconn
      refine (removeSubscription_alone hs.live hs.idle sdk.order hconn hdata sub).bind
        fun r s' ⟨_, hsame, hlive⟩ => ⟨_, hs.setSubscriptions hdata hsame hlive, ?_⟩
      exact h.same (h.remove hs hP hconn hdata) hsame
  | cleanupConnection id => exact (hcleanup id).bind fun _ _ h => h
  | dropHandle handle =>
    refine Prog.Alone.bind (M := fun _ s' => ∃ H', Settled H' s' ∧ P H' s') ?_ fun _ _ h => h
    rw [SubscriptionRegistry.dropHandle]
    refine Prog.Alone.bind alone_read ?_
    rintro _ _ ⟨rfl, rfl⟩
    split
    · exact hcleanup handle.id
    · exact ⟨H, hs, hP⟩
  | distributeEvent event scope => exact absurd rfl (hop event scope)
  | receive ch =>
    have hsame : SameConnections s (s.setChannel ch (s.channels ch).receive) := ⟨rfl, rfl, rfl⟩
    exact Prog.Alone.atomic trivial ⟨H, hs.same hsame hs.live, h.same hP hsame⟩
  | disconnect ch =>
    have hsame : SameConnections s (s.setChannel ch (s.channels ch).disconnect) := ⟨rfl, rfl, rfl⟩
    exact Prog.Alone.atomic trivial ⟨H, hs.same hsame hs.live, h.same hP hsame⟩

/-- Every call that is admitted keeps the property. -/
theorem RegistryOp.code_alone (h : KeptByMethods P cond) (hs : Settled H s) (hP : P H s)
    (op : RegistryOp) (hcond : cond s op) :
    (op.code sdk).Alone (op.Guarantee sdk) (fun _ s' => ∃ H', Settled H' s' ∧ P H' s') s := by
  by_cases hop : ∀ event scope, op ≠ .distributeEvent event scope
  · exact code_alone_others h.toKeptByOthers hs hP op hcond hop
  · obtain ⟨event, scope, rfl⟩ : ∃ event scope, op = .distributeEvent event scope := by
      simpa using hop
    exact (distributeEventIndexed_alone h.byDistribution ⟨hs, hP⟩ event scope).bind fun _ _ h => h

/-! ### The maps and the indexes -/

namespace SubscriptionRegistry

variable {s' : SubscriptionRegistry} {id : ConnectionId} {conn : ConnRef}
  {data : ConnectionSubscriptions}

/-- The filters stored for a subscription of a connection that is registered with the scope. -/
def stored (s : SubscriptionRegistry) (k : ScopedKey) : Option (List Filter) :=
  (s.connection? k.2.1).bind fun data =>
    if data.subdomain = k.1 then data.subscriptions.lookup k.2.2 else none

/-- The index of every scope holds exactly the filters that are stored, and nothing of a
subscription that is not stored. -/
def Agree (s : SubscriptionRegistry) : Prop :=
  ∀ scope κ, (s.indexOf scope).Entry κ (s.stored (scope, κ))

/-- A connection is registered only under an id that is not in the map, and `add_subscription` is
called only where no filters are stored. -/
def replacesNothing (s : SubscriptionRegistry) : RegistryOp → Prop
  | .registerConnection id _ _ _ => s.connections.lookup id = none
  | .addSubscription id sub _ =>
    ∀ data ∈ s.connection? id, (data.subscriptions.lookup sub).getD [] = []
  | _ => True

instance (s : SubscriptionRegistry) (op : RegistryOp) : Decidable (s.replacesNothing op) :=
  match op with
  | .registerConnection id _ _ _ => inferInstanceAs (Decidable (s.connections.lookup id = none))
  | .addSubscription id sub _ =>
    inferInstanceAs (Decidable (∀ data ∈ s.connection? id,
      (data.subscriptions.lookup sub).getD [] = []))
  | .removeSubscription _ _ => inferInstanceAs (Decidable True)
  | .cleanupConnection _ => inferInstanceAs (Decidable True)
  | .dropHandle _ => inferInstanceAs (Decidable True)
  | .distributeEvent _ _ => inferInstanceAs (Decidable True)
  | .receive _ => inferInstanceAs (Decidable True)
  | .disconnect _ => inferInstanceAs (Decidable True)

theorem connection?_of_lookup (hconn : s.connections.lookup id = some conn)
    (hdata : s.conns conn = some data) : s.connection? id = some data := by
  rw [connection?, hconn, Option.bind_some, hdata]

/-- Only the registration that is changed is seen to change. -/
theorem connection?_updateConn (hwf : WellFormed s) (hconn : s.connections.lookup id = some conn)
    (hdata : s.conns conn = some data) (f : ConnectionSubscriptions → ConnectionSubscriptions)
    (id' : ConnectionId) :
    (s.updateConn conn f).connection? id' =
      if id' = id then some (f data) else s.connection? id' := by
  by_cases hid : id' = id
  · subst hid
    simp [connection?, updateConn, hconn, hdata]
  · rw [if_neg hid, connection?, connection?]
    cases hconn' : s.connections.lookup id' with
    | none => simp [updateConn, hconn']
    | some conn' =>
      have hne : conn' ≠ conn := by
        rintro rfl
        exact hid ((hwf.current id' conn' hconn').1.symm.trans (hwf.current id conn' hconn).1)
      simp [updateConn, hconn', hne]

theorem connection?_setSubscriptions (hwf : WellFormed s)
    (hconn : s.connections.lookup id = some conn) (hdata : s.conns conn = some data)
    (f : (AList fun _ : SubscriptionId => List Filter) →
      AList fun _ : SubscriptionId => List Filter) (id' : ConnectionId) :
    (s.setSubscriptions conn f).connection? id' = if id' = id then
      some { data with subscriptions := f data.subscriptions } else s.connection? id' :=
  connection?_updateConn hwf hconn hdata _ id'

theorem connection?_removed (h : Removed id s s') (id' : ConnectionId) :
    s'.connection? id' = if id' = id then none else s.connection? id' := by
  rw [connection?, connection?, h.connections, h.conns]
  by_cases hid : id' = id
  · subst hid
    rw [AList.lookup_erase, if_pos rfl]
    rfl
  · rw [AList.lookup_erase_ne hid, if_neg hid]

theorem connection?_register (hwf : WellFormed s) (id : ConnectionId) (sender : MessageSender)
    (auth : Option PublicKey) (subdomain : Scope) (id' : ConnectionId) :
    (register id sender auth subdomain s).2.connection? id' = if id' = id then
      some ⟨∅, false, sender, auth, subdomain⟩ else s.connection? id' := by
  by_cases hid : id' = id
  · subst hid
    simp [connection?, register]
  · simp only [connection?, register, AList.lookup_insert_ne hid, if_neg hid]
    cases hconn' : s.connections.lookup id' with
    | none => rfl
    | some conn' =>
      rw [Option.bind_some, Option.bind_some, if_neg]
      rintro rfl
      exact hid (hwf.current id' _ hconn').1.symm

/-- Setting one subscription of a connection sets what is stored for it. -/
theorem stored_setSubscriptions (hwf : WellFormed s)
    (hconn : s.connections.lookup id = some conn) (hdata : s.conns conn = some data)
    {f : (AList fun _ : SubscriptionId => List Filter) →
      AList fun _ : SubscriptionId => List Filter} {sub : SubscriptionId}
    (hf : ∀ sub', sub' ≠ sub →
      (f data.subscriptions).lookup sub' = data.subscriptions.lookup sub') :
    (s.setSubscriptions conn f).stored =
      Function.update s.stored (data.subdomain, id, sub) ((f data.subscriptions).lookup sub) := by
  funext ⟨scope, id', sub'⟩
  rw [stored, connection?_setSubscriptions hwf hconn hdata]
  by_cases hk : (scope, id', sub') = (data.subdomain, id, sub)
  · cases hk
    simp
  · rw [Function.update_of_ne hk, stored]
    by_cases hid : id' = id
    · subst hid
      by_cases hscope : data.subdomain = scope
      · have hsub : sub' ≠ sub := by
          rintro rfl
          exact hk (by rw [hscope])
        simp [connection?_of_lookup hconn hdata, hf sub' hsub]
      · simp [connection?_of_lookup hconn hdata, hscope]
    · rw [if_neg hid]

theorem agree_kept : KeptByMethods (fun H s => H = s.stored) replacesNothing where
  inScope := by
    rintro H s rfl scope κ data hne hconn
    by_contra hscope
    simp [stored, hconn, hscope] at hne
  same := by
    rintro H s s' rfl hs
    funext k
    simp [stored, hs.connection?]
  register := by
    rintro H s id sender auth subdomain hs rfl (hnone : s.connections.lookup id = none)
    funext ⟨scope, id', sub⟩
    simp only [stored, connection?_register hs.wellFormed]
    by_cases hid : id' = id
    · subst hid
      simp [connection?, hnone]
    · simp [hid]
  add := by
    rintro H s id conn data sub filters hs rfl hcond hconn hdata
    have hconn? := connection?_of_lookup hconn hdata
    have hnil := hcond data hconn?
    rw [stored_setSubscriptions hs.wellFormed hconn hdata fun _ h => AList.lookup_insert_ne h,
      AList.lookup_insert]
    simp [stored, hconn?, hnil]
  remove := by
    rintro H s id conn data sub hs rfl hconn hdata
    rw [stored_setSubscriptions hs.wellFormed hconn hdata fun _ h => AList.lookup_erase_ne h,
      AList.lookup_erase]
    split
    · rfl
    · rename_i hmem
      have hnone : data.subscriptions.lookup sub = none := AList.lookup_eq_none.mpr hmem
      rw [eq_comm, Function.update_eq_self_iff]
      simp [stored, connection?_of_lookup hconn hdata, hnone]
  cleanup := by
    rintro H s s' id hs rfl hremoved
    funext ⟨scope, id', sub⟩
    simp only [stored, cleared, connection?_removed hremoved]
    by_cases hid : id' = id
    · subst hid
      cases hconn : s.connection? id' with
      | none => simp [hconn, stored]
      | some data =>
        by_cases hscope : scope = data.subdomain
        · subst hscope
          by_cases hmem : sub ∈ data.subscriptions.keys
          · simp [clearing, keysOf, hmem]
          · have hnone : data.subscriptions.lookup sub = none := AList.lookup_eq_none.mpr hmem
            simp [clearing, keysOf, hmem, stored, hconn, hnone]
        · simp [clearing, hscope, stored, hconn, Ne.symm hscope]
    · cases hconn : s.connection? id with
      | none => simp [hid, stored]
      | some data => simp [clearing, keysOf, hid, Ne.symm hid, stored]

theorem agree_of_live (h : Live s.stored s) : Agree s := fun scope κ => (h scope).entry κ

end SubscriptionRegistry

/-- The pool before any method of a new registry is called. -/
abbrev registryPool (metricsHandler : Option SubscriptionMetrics)
    (channels : ChannelRef → Channel) :
    Config RegistryOp RegistryLock SubscriptionRegistry RegistryResult :=
  Config.initial (SubscriptionRegistry.new metricsHandler channels)

/-- **The registry and the indexes agree.** In every run of calls one after another in which
`add_subscription` replaces nothing, no call is stuck, and between the calls the index of every
scope holds exactly the filters that are stored, with their multiplicity. Only these decide what
is delivered. -/
theorem registry_agrees_with_index (sdk : Sdk) (metricsHandler : Option SubscriptionMetrics)
    (channels : ChannelRef → Channel)
    {c : Config RegistryOp RegistryLock SubscriptionRegistry RegistryResult}
    (hrun : Run (fun _ => RegistryOp.code sdk) (oneByOne replacesNothing)
      (registryPool metricsHandler channels) c) :
    (c.Quiet → c.state.Agree ∧ ∀ scope event, ∃ o,
      (SubscriptionIndex.distributeEvent sdk.matchEvent event).run (c.state.indexOf scope) = some o ∧
      ∀ κ ∈ o.value, ∃ fs, c.state.stored (scope, κ) = some fs ∧
        ∃ f ∈ fs, sdk.matchEvent f event = true) ∧
    ∀ i, c.InFlight i → ∃ c', c.next (fun _ => RegistryOp.code sdk) (.step i) = some c' := by
  have hnew : ∃ H, Settled H (new metricsHandler channels) ∧
      H = (new metricsHandler channels).stored := ⟨_, settled_new metricsHandler channels, rfl⟩
  obtain ⟨hinv, -, hprogress⟩ := oneByOne_run (I := fun s => ∃ H, Settled H s ∧ H = s.stored)
    (G := fun op => op.Guarantee sdk)
    (fun _ op _ ⟨_, hs, hP⟩ hcond => op.code_alone agree_kept hs hP hcond) hnew hrun
  refine ⟨fun hquiet => ?_, hprogress⟩
  obtain ⟨H, hsettled, hH⟩ := hinv hquiet
  have hlive : Live c.state.stored c.state := hH ▸ hsettled.live
  refine ⟨agree_of_live hlive, fun scope event => ?_⟩
  obtain ⟨o, ho, -, -, hsound⟩ := ((hlive scope).distributeEvent_alone sdk.matchEvent event).run
  refine ⟨o, ho, fun κ hκ => ?_⟩
  obtain ⟨f, hf, hmatch⟩ := hsound κ hκ
  cases hstored : c.state.stored (scope, κ) with
  | none => simp [hstored] at hf
  | some fs => exact ⟨fs, rfl, f, by simpa [hstored] using hf, hmatch⟩

/-- A library to evaluate examples with. -/
def Sdk.sample : Sdk := ⟨Filter.matchEvent, Event.content, .insertion⟩

/-- The channels of clients that have not read anything yet. -/
def unread (_ : ChannelRef) : Channel := Channel.new 8

/-- Register a connection of a scope that sends to a channel. -/
def registerAt (id : ConnectionId) (ch : ChannelRef) (scope : Scope) : RegistryOp :=
  .registerConnection id ⟨ch, 0⟩ none scope

/-- A subscription that was removed before it was added again. -/
theorem registry_agrees_with_index_readded :
    ∃ c, (registryPool none unread).play (fun _ => RegistryOp.code .sample)
        (oneByOne replacesNothing)
        [callAlone (registerAt "alice" 0 .default) 0 1,
          callAlone (.addSubscription "alice" "feed" [Filter.kind 1]) 1 10,
          callAlone (.removeSubscription "alice" "feed") 2 9,
          callAlone (.addSubscription "alice" "feed" [Filter.kind 2]) 3 10].flatten = some c ∧
      c.state.stored (.default, "alice", "feed") = some [Filter.kind 2] ∧ c.state.Agree := by
  obtain ⟨c, hplay, hstored, hquiet⟩ : ∃ c,
      (registryPool none unread).play (fun _ => RegistryOp.code .sample)
        (oneByOne replacesNothing)
        [callAlone (registerAt "alice" 0 .default) 0 1,
          callAlone (.addSubscription "alice" "feed" [Filter.kind 1]) 1 10,
          callAlone (.removeSubscription "alice" "feed") 2 9,
          callAlone (.addSubscription "alice" "feed" [Filter.kind 2]) 3 10].flatten = some c ∧
      c.state.stored (.default, "alice", "feed") = some [Filter.kind 2] ∧
      decide c.Quiet = true := ⟨_, rfl, rfl, rfl⟩
  exact ⟨c, hplay, hstored, ((registry_agrees_with_index .sample none unread
    (Config.run_of_play hplay)).1 (of_decide_eq_true hquiet)).1⟩

/-- A subscription that is added again without having been removed: the map has its new filters
only, but the index has the old ones too, and an event that only the old ones match is found. -/
theorem replaced_filters_linger :
    ∃ c, (registryPool none unread).play (fun _ => RegistryOp.code .sample)
        (oneByOne fun _ _ => True)
        [callAlone (registerAt "alice" 0 .default) 0 1,
          callAlone (.addSubscription "alice" "feed" [Filter.kind 1]) 1 10,
          callAlone (.addSubscription "alice" "feed" [Filter.kind 2]) 2 9].flatten = some c ∧
      c.Quiet ∧ c.state.stored (.default, "alice", "feed") = some [Filter.kind 2] ∧
      ¬ c.state.Agree ∧ Filter.matchEvent (Filter.kind 2) (Event.note 1) = false ∧
      ((SubscriptionIndex.distributeEvent Filter.matchEvent (Event.note 1)).run
        (c.state.indexOf .default)).map (·.value) = some [("alice", "feed")] := by
  obtain ⟨c, hplay, hstored, hquiet, hgroup, hids, hdelivered⟩ : ∃ c,
      (registryPool none unread).play (fun _ => RegistryOp.code .sample)
        (oneByOne fun _ _ => True)
        [callAlone (registerAt "alice" 0 .default) 0 1,
          callAlone (.addSubscription "alice" "feed" [Filter.kind 1]) 1 10,
          callAlone (.addSubscription "alice" "feed" [Filter.kind 2]) 2 9].flatten = some c ∧
      c.state.stored (.default, "alice", "feed") = some [Filter.kind 2] ∧
      decide c.Quiet = true ∧
      (c.state.indexOf .default).filterGroups.lookup ("alice", "feed") = some 0 ∧
      ((c.state.indexOf .default).groups 0).map (·.filterIds) = some [1, 2] ∧
      ((SubscriptionIndex.distributeEvent Filter.matchEvent (Event.note 1)).run
        (c.state.indexOf .default)).map (·.value) = some [("alice", "feed")] :=
    ⟨_, rfl, rfl, rfl, rfl, rfl, rfl⟩
  refine ⟨c, hplay, of_decide_eq_true hquiet, hstored, fun hagree => ?_, rfl, hdelivered⟩
  have hentry := hagree .default ("alice", "feed")
  rw [hstored] at hentry
  obtain ⟨ts, hfilters, hholds⟩ := hentry
  obtain ⟨g, hg, hgids⟩ := hholds.group 0 hgroup
  rw [hg, Option.map_some, Option.some.injEq, hgids] at hids
  have hlen := congrArg List.length hfilters
  have hlen' := congrArg List.length hids
  simp only [List.length_map, List.length_cons, List.length_nil] at hlen hlen'
  omega

/-! ### Scopes -/

namespace SubscriptionRegistry

variable {s' : SubscriptionRegistry} {scope : Scope} {κ : Key}

/-- The indexes hold filters of a registered connection only in the scope it is registered with. -/
def InScope (H : ScopedKey → Option (List Filter)) (s : SubscriptionRegistry) : Prop :=
  ∀ scope κ data, (H (scope, κ)).getD [] ≠ [] → s.connection? κ.1 = some data →
    data.subdomain = scope

/-- An id is registered only while no index of another scope holds a filter of it. -/
def noFiltersElsewhere (s : SubscriptionRegistry) : RegistryOp → Prop
  | .registerConnection id _ _ subdomain => ∀ entry ∈ s.indexes.entries, entry.1 ≠ subdomain →
    ∀ f ∈ entry.2.allFilters.entries, f.2.parentSubscription.1 ≠ id
  | _ => True

instance (s : SubscriptionRegistry) (op : RegistryOp) : Decidable (s.noFiltersElsewhere op) :=
  match op with
  | .registerConnection id _ _ subdomain => inferInstanceAs (Decidable (∀ entry ∈ s.indexes.entries,
      entry.1 ≠ subdomain → ∀ f ∈ entry.2.allFilters.entries, f.2.parentSubscription.1 ≠ id))
  | .addSubscription _ _ _ => inferInstanceAs (Decidable True)
  | .removeSubscription _ _ => inferInstanceAs (Decidable True)
  | .cleanupConnection _ => inferInstanceAs (Decidable True)
  | .dropHandle _ => inferInstanceAs (Decidable True)
  | .distributeEvent _ _ => inferInstanceAs (Decidable True)
  | .receive _ => inferInstanceAs (Decidable True)
  | .disconnect _ => inferInstanceAs (Decidable True)

/-- What an index holds is found among all its filters. -/
theorem Live.exists_filter (h : Live H s) (hne : (H (scope, κ)).getD [] ≠ []) :
    ∃ entry ∈ s.indexes.entries, entry.1 = scope ∧
      ∃ f ∈ entry.2.allFilters.entries, f.2.parentSubscription = κ := by
  obtain ⟨ts, hts, hholds⟩ := ((h scope).entry κ).holds
  cases hlookup : s.indexes.lookup scope with
  | none =>
    exfalso
    have hempty : s.indexOf scope = SubscriptionIndex.new := by rw [indexOf, hlookup]; rfl
    obtain ⟨t, ht⟩ := List.exists_mem_of_ne_nil ts fun hnil => hne (by rw [← hts, hnil]; rfl)
    have hall := (hholds.all t.id t (hholds.created t ht).2).mpr ⟨ht, rfl⟩
    rw [hempty] at hall
    cases hall
  | some index =>
    have hindex : s.indexOf scope = index := by rw [indexOf, hlookup]; rfl
    obtain ⟨t, ht⟩ := List.exists_mem_of_ne_nil ts fun hnil => hne (by rw [← hts, hnil]; rfl)
    have hparent := (hholds.created t ht).2
    have hall := (hholds.all t.id t hparent).mpr ⟨ht, rfl⟩
    rw [hindex] at hall
    exact ⟨⟨scope, index⟩, AList.mem_lookup_iff.mp hlookup, rfl, ⟨t.id, t⟩,
      AList.mem_lookup_iff.mp hall, hparent⟩

theorem ne_nil_of_clearing {keys : List Key} {k : ScopedKey}
    (h : (clearing H scope keys k).getD [] ≠ []) : (H k).getD [] ≠ [] := by
  rw [clearing] at h
  split at h
  · exact absurd rfl h
  · exact h

theorem inScope_kept : KeptByMethods InScope noFiltersElsewhere where
  inScope h := h
  same h hs scope κ data hne hconn := h scope κ data hne (hs.connection? κ.1 ▸ hconn)
  register := by
    intro H s id sender auth subdomain hs h hcond scope κ data hne hconn
    rw [connection?_register hs.wellFormed] at hconn
    split at hconn
    · rename_i hid
      cases hconn
      obtain ⟨entry, hentry, rfl, f, hf, hparent⟩ := hs.live.exists_filter hne
      by_contra hscope
      exact hcond entry hentry (Ne.symm hscope) f hf (hparent ▸ hid)
    · exact h scope κ data hne hconn
  add := by
    intro H s id conn data sub filters hs h _ hconn hdata scope κ data' hne hconn'
    rw [connection?_setSubscriptions hs.wellFormed hconn hdata] at hconn'
    have hconn? := connection?_of_lookup hconn hdata
    by_cases hk : (scope, κ) = (data.subdomain, id, sub)
    · cases hk
      rw [if_pos rfl] at hconn'
      cases hconn'
      rfl
    · rw [Function.update_of_ne hk] at hne
      split at hconn'
      · rename_i hid
        cases hconn'
        exact h scope κ data hne (hid ▸ hconn?)
      · exact h scope κ data' hne hconn'
  remove := by
    intro H s id conn data sub hs h hconn hdata scope κ data' hne hconn'
    rw [connection?_setSubscriptions hs.wellFormed hconn hdata] at hconn'
    have hne' : (H (scope, κ)).getD [] ≠ [] := by
      split at hne
      · rw [← clearing_singleton] at hne
        exact ne_nil_of_clearing hne
      · exact hne
    split at hconn'
    · rename_i hid
      cases hconn'
      exact h scope κ data hne' (hid ▸ connection?_of_lookup hconn hdata)
    · exact h scope κ data' hne' hconn'
  cleanup := by
    intro H s s' id hs h hremoved scope κ data hne hconn
    rw [connection?_removed hremoved] at hconn
    split at hconn
    · cases hconn
    · refine h scope κ data ?_ hconn
      cases hconn' : s.connection? id with
      | none => simpa only [cleared, hconn'] using hne
      | some data' => exact ne_nil_of_clearing (by simpa only [cleared, hconn'] using hne)

end SubscriptionRegistry

/-- **Live events stay within their scope.** In every run of calls one after another in which no
id is registered while an index of another scope holds filters of it, an action of
`distribute_event` sends its event only to a connection that is registered with its scope. -/
theorem distributeEvent_within_scope (sdk : Sdk) (metricsHandler : Option SubscriptionMetrics)
    (channels : ChannelRef → Channel)
    {c c' : Config RegistryOp RegistryLock SubscriptionRegistry RegistryResult}
    (hrun : Run (fun _ => RegistryOp.code sdk) (oneByOne noFiltersElsewhere)
      (registryPool metricsHandler channels) c)
    {i : ℕ} {event : Event} {scope : Scope}
    {p : Prog RegistryLock SubscriptionRegistry RegistryResult}
    (hi : c.calls[i]? = some ⟨.distributeEvent event scope, p⟩)
    (hstep : c.next (fun _ => RegistryOp.code sdk) (.step i) = some c') :
    DeliversTo sdk event scope c.state c'.state := by
  have hnew : ∃ H, Settled H (new metricsHandler channels) ∧
      InScope H (new metricsHandler channels) :=
    ⟨_, settled_new metricsHandler channels, fun _ _ _ hne _ => absurd rfl hne⟩
  exact (oneByOne_run (I := fun s => ∃ H, Settled H s ∧ InScope H s)
    (G := fun op => op.Guarantee sdk)
    (fun _ op _ ⟨_, hs, hP⟩ hcond => op.code_alone inScope_kept hs hP hcond) hnew hrun).2.1
    i _ p hi c' hstep

/-- A connection that was cleaned up before its id was registered in another scope, and one that
gets the event. -/
def movedAfterCleanup : List (Move RegistryOp) :=
  [callAlone (registerAt "alice" 0 (.named "tenantA")) 0 1,
    callAlone (.addSubscription "alice" "feed" [Filter.kind 1]) 1 10,
    callAlone (.cleanupConnection "alice") 2 9,
    callAlone (registerAt "alice" 1 (.named "tenantB")) 3 1,
    callAlone (registerAt "bob" 2 (.named "tenantA")) 4 1,
    callAlone (.addSubscription "bob" "feed" [Filter.kind 1]) 5 10,
    callAlone (.distributeEvent (Event.note 1) (.named "tenantA")) 6 11].flatten

theorem distributeEvent_within_scope_movedAfterCleanup :
    ∃ c c' : Config RegistryOp RegistryLock SubscriptionRegistry RegistryResult,
      (registryPool none unread).play (fun _ => RegistryOp.code .sample)
        (oneByOne noFiltersElsewhere) movedAfterCleanup = some c ∧
      c.next (fun _ => RegistryOp.code .sample) (.step 6) = some c' ∧
      (c'.state.channels 2).sent.length = 1 ∧
      DeliversTo .sample (Event.note 1) (.named "tenantA") c.state c'.state := by
  obtain ⟨c, c', p, hplay, hi, hnext, hsent⟩ :
      ∃ (c c' : Config RegistryOp RegistryLock SubscriptionRegistry RegistryResult)
        (p : Prog RegistryLock SubscriptionRegistry RegistryResult),
      (registryPool none unread).play (fun _ => RegistryOp.code .sample)
        (oneByOne noFiltersElsewhere) movedAfterCleanup = some c ∧
      c.calls[6]? = some ⟨.distributeEvent (Event.note 1) (.named "tenantA"), p⟩ ∧
      c.next (fun _ => RegistryOp.code .sample) (.step 6) = some c' ∧
      (c'.state.channels 2).sent.length = 1 := ⟨_, _, _, rfl, rfl, rfl, rfl⟩
  exact ⟨c, c', hplay, hnext, hsent,
    distributeEvent_within_scope .sample none unread (Config.run_of_play hplay) hi hnext⟩

/-- An id that is registered again in another scope without a cleanup: the filters of the earlier
registration send the event to the later one. -/
theorem distributeEvent_outside_scope :
    ∃ c c' : Config RegistryOp RegistryLock SubscriptionRegistry RegistryResult,
      (registryPool none unread).play (fun _ => RegistryOp.code .sample)
        (oneByOne fun _ _ => True)
        [callAlone (registerAt "alice" 0 (.named "tenantA")) 0 1,
          callAlone (.addSubscription "alice" "feed" [Filter.kind 1]) 1 10,
          callAlone (registerAt "alice" 1 (.named "tenantB")) 2 1,
          callAlone (.distributeEvent (Event.note 1) (.named "tenantA")) 3 11].flatten = some c ∧
      c.next (fun _ => RegistryOp.code .sample) (.step 3) = some c' ∧
      (c.state.connection? "alice").map (·.subdomain) = some (.named "tenantB") ∧
      (c'.state.channels 1).sent.map (·.message) = [.event "feed" (Event.note 1)] ∧
      ¬ DeliversTo .sample (Event.note 1) (.named "tenantA") c.state c'.state := by
  obtain ⟨c, c', hplay, hnext, hentries, hdata, hbefore, hafter⟩ :
      ∃ c c' : Config RegistryOp RegistryLock SubscriptionRegistry RegistryResult,
      (registryPool none unread).play (fun _ => RegistryOp.code .sample)
        (oneByOne fun _ _ => True)
        [callAlone (registerAt "alice" 0 (.named "tenantA")) 0 1,
          callAlone (.addSubscription "alice" "feed" [Filter.kind 1]) 1 10,
          callAlone (registerAt "alice" 1 (.named "tenantB")) 2 1,
          callAlone (.distributeEvent (Event.note 1) (.named "tenantA")) 3 11].flatten = some c ∧
      c.next (fun _ => RegistryOp.code .sample) (.step 3) = some c' ∧
      c.state.connections.entries = [⟨"alice", ⟨"alice", 1⟩⟩] ∧
      (c.state.conns ⟨"alice", 1⟩).map (·.subdomain) = some (.named "tenantB") ∧
      (c.state.channels 1).sent = [] ∧
      (c'.state.channels 1).sent.map (·.message) = [.event "feed" (Event.note 1)] :=
    ⟨_, _, rfl, rfl, rfl, rfl, rfl, rfl⟩
  have hlookup : ∀ id conn, c.state.connections.lookup id = some conn →
      id = "alice" ∧ conn = ⟨"alice", 1⟩ := fun id conn h => by
    have hmem := AList.mem_lookup_iff.mp h
    rw [hentries, List.mem_singleton] at hmem
    cases hmem
    exact ⟨rfl, rfl⟩
  have halice : c.state.connections.lookup "alice" = some ⟨"alice", 1⟩ :=
    AList.mem_lookup_iff.mpr (hentries ▸ List.mem_singleton_self _)
  refine ⟨c, c', hplay, hnext, ?_, hafter, fun h => ?_⟩
  · rw [connection?, halice, Option.bind_some, hdata]
  · rcases h 1 with hsame | ⟨κ, data, hconn, -, hscope, -⟩
    · rw [hsame, hbefore] at hafter
      cases hafter
    · obtain ⟨conn, hconn, hconns⟩ := Option.bind_eq_some_iff.mp hconn
      obtain ⟨-, rfl⟩ := hlookup _ conn hconn
      rw [hconns, Option.map_some, hscope] at hdata
      exact absurd hdata (by decide)

end RelayBuilder
