import RelayBuilder.RegistryLedger
import RelayBuilder.RegistryHandles

/-!
# The protocol of the registry

What each method of the registry has to do while others run, so that the ledger stays balanced.
A call takes a duty on when it takes the lock of a connection or lists its subscriptions, hands it
from one action to the next, and has none left when it ends.

## Main definitions

* `ledgerProtocol`: the ledger, what a call with a duty tolerates, and when a lock may be taken

## Main results

* `keeps_code`: every method keeps to the protocol
-/

namespace RelayBuilder

open Interleave SubscriptionRegistry Duty

/-- What a call with a duty tolerates from the others: they do not touch what is in its hands. -/
structure Tolerates (g : Duty) (s s' : SubscriptionRegistry) : Prop where
  grows : IndexesGrow s s'
  persists : ∀ conn, s.conns conn ≠ none → s'.conns conn ≠ none
  view : ∀ scope κ, g.Owns scope κ →
    SubscriptionIndex.SameView κ (s.indexOf scope) (s'.indexOf scope)

/-- There is something to be done under the lock. -/
def LockUse.Finds (conn : ConnRef) (s : SubscriptionRegistry) : LockUse → Prop
  | .insert => True
  | .remove sub => ∃ data ∈ s.conns conn, sub ∈ data.subscriptions.keys
  | .list => ∃ data ∈ s.conns conn, data.subscriptions.keys ≠ []

/-- The protocol of the registry's methods. -/
def ledgerProtocol : Protocol RegistryLock SubscriptionRegistry Duty where
  inv := Ledger
  rely := Tolerates
  allowed γ _ s l :=
    match l with
    | .insertConnection id => NeverRegistered id s
    | .subscriptions conn use => use.Finds conn s → s.connections.lookup conn.id = some conn ∧
      ∀ (j : ℕ) id ids scope, γ[j]? = some (.doomed id ids scope) → id ≠ conn.id
    | _ => True
  rely_refl _ _ := ⟨.refl _, fun _ h => h, fun _ _ _ => .refl _ _⟩
  rely_trans _ _ _ _ h h' := ⟨h.grows.trans h'.grows,
    fun conn hc => h'.persists conn (h.persists conn hc),
    fun scope κ hκ => (h.view scope κ hκ).trans (h'.view scope κ hκ)⟩

/-- A doomed call is about to remove its connection from the map, and an ended one is idle. -/
structure Fitting (op : RegistryOp) (g : Duty)
    (p : Prog RegistryLock SubscriptionRegistry RegistryResult) : Prop where
  doomed : ∀ id ids scope, g = .doomed id ids scope →
    (Call.mk op p).label? = some (.removeConnection id)
  ended : ∀ a, p = .done a → g = .idle

/-- The call keeps to the protocol from here on. -/
abbrev Keeps (i : ℕ) (op : RegistryOp) (p : Prog RegistryLock SubscriptionRegistry RegistryResult)
    (g : Duty) (s : SubscriptionRegistry) : Prop :=
  ledgerProtocol.Safe i (Fitting op) p g s

variable {i : ℕ} {op : RegistryOp} {γ : List Duty} {g : Duty} {s s' : SubscriptionRegistry}
  {α β : Type}

theorem fitting_idle (p : Prog RegistryLock SubscriptionRegistry RegistryResult) :
    Fitting op .idle p :=
  ⟨fun _ _ _ h => (nomatch h), fun _ _ => rfl⟩

/-- A call in the middle of its work. -/
theorem fitting_act (hg : ∀ id ids scope, g ≠ .doomed id ids scope) {l : RegistryLock}
    {r : SubscriptionRegistry → Bool} {e : SubscriptionRegistry → SubscriptionRegistry}
    {n : SubscriptionRegistry → Prog RegistryLock SubscriptionRegistry RegistryResult} :
    Fitting op g (.act l r e n) :=
  ⟨fun id ids scope h => absurd h (hg id ids scope), fun _ h => (nomatch h)⟩

/-- A cleanup that is about to remove its connection. -/
theorem fitting_doomed {id : ConnectionId} {ids : List SubscriptionId} {scope : Scope}
    {r : SubscriptionRegistry → Bool} {e : SubscriptionRegistry → SubscriptionRegistry}
    {n : SubscriptionRegistry → Prog RegistryLock SubscriptionRegistry RegistryResult} :
    Fitting op (.doomed id ids scope) (.act (.removeConnection id) r e n) := by
  refine ⟨?_, fun _ h => by cases h⟩
  rintro _ _ _ ⟨⟩
  rfl

theorem keeps_done (a : RegistryResult) : Keeps i op (.done a) .idle s :=
  Protocol.Safe.done fun γ s' hi _ hinv =>
    ⟨.idle, by rwa [Protocol.set_of_getElem? hi], fitting_idle _⟩

/-- An action that does not change the indexes. -/
theorem tolerable_of_eq (hindexes : s'.indexes = s.indexes)
    (hpersists : ∀ conn, s.conns conn ≠ none → s'.conns conn ≠ none) :
    ledgerProtocol.Tolerable i γ s s' := fun _ _ _ _ =>
  ⟨.of_eq hindexes, hpersists, fun scope κ _ => by
    rw [indexOf_congr hindexes]
    exact .refl _ _⟩

/-- An action that changes nothing but the channels, of a call without a duty. -/
theorem keeps_silent {l : RegistryLock} {f : SubscriptionRegistry → β × SubscriptionRegistry}
    {k : β → Prog RegistryLock SubscriptionRegistry RegistryResult}
    (hf : ∀ s, (f s).2 = { s with channels := (f s).2.channels })
    (hk : ∀ γ s, Ledger γ s → Keeps i op (k (f s).1) .idle (f s).2) :
    Keeps i op ((Prog.atomic l f).bind k) .idle s := by
  refine Protocol.Safe.atomic_bind (fitting_idle _) fun γ s' hi _ hinv _ =>
    ⟨.idle, ?_, tolerable_of_eq ?_ fun conn hconn => ?_, hk γ s' hinv⟩
  · rw [Protocol.set_of_getElem? hi]
    exact Ledger.silent hinv (hf s')
  · rw [hf s']
  · rw [hf s']
    exact hconn

/-- A program that works on an index, at the subscriptions in the hands of the call. -/
theorem keeps_ensures {p : Prog RegistryLock SubscriptionRegistry α}
    {k : α → Prog RegistryLock SubscriptionRegistry RegistryResult}
    {M : α → SubscriptionRegistry → Prop} {scope : Scope} {touches : Key → Prop}
    (hg : ∀ id ids scope, g ≠ .doomed id ids scope)
    (hp : p.Ensures IndexesWellFormed (Aside scope (g.Owns scope)) (IndexAction scope touches) M s)
    (htouches : ∀ κ, touches κ → g.Owns scope κ) (hwf : IndexesWellFormed s)
    (hk : ∀ a s, IndexesWellFormed s → M a s → Keeps i op (k a) g s) :
    Keeps i op (p.bind k) g s := by
  refine Protocol.Safe.bind_ensures hp (Aside.refl _ _) hwf
    (fun γ s _ (hinv : Ledger γ s) => hinv.indexes)
    (fun s s' (h : Tolerates g s s') => ⟨h.grows, fun κ hκ => h.view scope κ hκ⟩)
    (fun γ s s' hi (hinv : Ledger γ s) hwf' haction => ⟨hinv.index hi hwf' haction htouches, ?_⟩)
    (fun _ _ _ _ => fitting_act hg) hk
  intro j gj hne hj
  refine ⟨haction.grows, fun conn hconn => ?_, fun scope' κ hκ => haction.view scope' κ ?_⟩
  · rw [haction.rest]
    exact hconn
  · rintro rfl htouch
    exact hne (hinv.exclusive j i gj g κ.1 hj hi (Duty.claim_of_owns hκ)
      (Duty.claim_of_owns (htouches κ htouch)))

theorem keeps_forM {f : β → Prog RegistryLock SubscriptionRegistry PUnit} (xs : List β)
    {k : PUnit → Prog RegistryLock SubscriptionRegistry RegistryResult}
    (hf : ∀ x (k' : PUnit → Prog RegistryLock SubscriptionRegistry RegistryResult),
      (∀ s, Keeps i op (k' ⟨⟩) .idle s) → ∀ s, Keeps i op ((f x).bind k') .idle s)
    (hk : ∀ s, Keeps i op (k ⟨⟩) .idle s) (s : SubscriptionRegistry) :
    Keeps i op ((xs.forM f).bind k) .idle s := by
  induction xs generalizing s with
  | nil => exact hk s
  | cons x xs ih =>
    have hassoc : ((x :: xs).forM f).bind k = (f x).bind fun _ => (xs.forM f).bind k :=
      Prog.bind_assoc _ _ _
    rw [hassoc]
    exact hf x _ ih s

theorem keeps_foldlM {f : α → β → Prog RegistryLock SubscriptionRegistry α} (xs : List β) (a : α)
    {k : α → Prog RegistryLock SubscriptionRegistry RegistryResult}
    (hf : ∀ a x (k' : α → Prog RegistryLock SubscriptionRegistry RegistryResult),
      (∀ a s, Keeps i op (k' a) .idle s) → ∀ s, Keeps i op ((f a x).bind k') .idle s)
    (hk : ∀ a s, Keeps i op (k a) .idle s) (s : SubscriptionRegistry) :
    Keeps i op ((xs.foldlM f a).bind k) .idle s := by
  induction xs generalizing a s with
  | nil => exact hk a s
  | cons x xs ih =>
    have hassoc : ((x :: xs).foldlM f a).bind k = (f a x).bind fun a' => (xs.foldlM f a').bind k :=
      Prog.bind_assoc _ _ _
    rw [hassoc]
    exact hf a x _ (fun a' => ih a') s

/-! ### The end of an add or a removal -/

/-- The index holds some filters for the subscription, and nothing after a removal. -/
structure Placed (adding : Bool) (scope : Scope) (κ : Key) (s : SubscriptionRegistry) : Prop where
  holds : ∃ fs, SubscriptionIndex.Holds κ fs (s.indexOf scope)
  absent : adding = false → SubscriptionIndex.Absent κ (s.indexOf scope)

variable {conn : ConnRef} {scope : Scope} {sub : SubscriptionId} {adding owes : Bool} {κ : Key}

theorem Placed.rely (h : Placed adding scope κ s) (hwf : IndexesWellFormed s')
    (hs : Tolerates g s s') (hκ : g.Owns scope κ) : Placed adding scope κ s' := by
  have hgrows := hs.grows scope
  have hview := hs.view scope κ hκ
  obtain ⟨fs, hfs⟩ := h.holds
  exact ⟨⟨fs, SubscriptionIndex.Entry.stable (o := some fs) (hwf scope) hgrows hview hfs⟩,
    fun hadding => SubscriptionIndex.Entry.stable (o := none) (hwf scope) hgrows hview
      (h.absent hadding)⟩

theorem Placed.congr (h : Placed adding scope κ s) (hindexes : s'.indexes = s.indexes) :
    Placed adding scope κ s' := by
  have hindex := indexOf_congr hindexes scope
  exact ⟨hindex ▸ h.holds, fun hadding => hindex ▸ h.absent hadding⟩

theorem Placed.settles (h : Placed adding scope (conn.id, sub) s)
    (hvalid : (busy conn scope sub adding owes).Valid s) : s.Settles scope (conn.id, sub) := by
  refine ⟨h.holds, fun hnot => h.absent ?_⟩
  obtain ⟨hconn, data, hdata, -, hscope, hadding⟩ := hvalid
  cases adding with
  | false => rfl
  | true =>
    exact absurd ⟨data, connection?_of_lookup hconn hdata, hscope, hadding rfl⟩ hnot

theorem busy_ne_doomed (id : ConnectionId) (ids : List SubscriptionId) (scope' : Scope) :
    busy conn scope sub adding owes ≠ doomed id ids scope' := fun h => by cases h

/-- A call that owes its count tells the metrics. -/
theorem keeps_count {f : SubscriptionMetrics → SubscriptionMetrics}
    {k : PUnit → Prog RegistryLock SubscriptionRegistry RegistryResult}
    (hf : ∀ m, ((f m).increments : ℤ) - (f m).decrements =
      m.increments - m.decrements + if adding then 1 else -1)
    (hplaced : Placed adding scope (conn.id, sub) s)
    (hk : ∀ s, Placed adding scope (conn.id, sub) s →
      Keeps i op (k ⟨⟩) (.busy conn scope sub adding false) s) :
    Keeps i op ((Prog.atomic .metrics fun s => (PUnit.unit,
      { s with metricsHandler := s.metricsHandler.map f })).bind k)
      (.busy conn scope sub adding true) s := by
  refine Protocol.Safe.atomic_bind (fitting_act busy_ne_doomed)
    fun γ s' hi hs hinv _ => ⟨.busy conn scope sub adding false, ?_,
      tolerable_of_eq rfl fun _ h => h, hk _ ((hplaced.rely ?_ hs ⟨rfl, rfl⟩).congr rfl)⟩
  · have hvalid := Ledger.valid hinv i _ hi
    refine Ledger.metrics hinv hi hf hvalid (fun _ h => h)
      (fun _ _ hown hnot => absurd hown hnot) ?_
    cases adding <;> rfl
  · exact Ledger.indexes hinv

theorem conns_ne_none_updateConn {conn' : ConnRef} (h : s.conns conn' ≠ none)
    (f : ConnectionSubscriptions → ConnectionSubscriptions) :
    (s.updateConn conn f).conns conn' ≠ none := by
  simp only [SubscriptionRegistry.updateConn]
  split
  · rename_i heq
    simpa [← heq] using h
  · exact h

/-- The lock is released, and the call has no duty left. -/
theorem keeps_release {k : PUnit → Prog RegistryLock SubscriptionRegistry RegistryResult}
    (hplaced : Placed adding scope (conn.id, sub) s) (hk : ∀ s, Keeps i op (k ⟨⟩) .idle s) :
    Keeps i op ((release conn).bind k) (.busy conn scope sub adding false) s := by
  refine Protocol.Safe.atomic_bind (fitting_act busy_ne_doomed)
    fun γ s' hi hs hinv _ => ⟨.idle, ?_, tolerable_of_eq rfl fun conn' h => ?_, hk _⟩
  · have hplaced' := hplaced.rely (Ledger.indexes hinv) hs ⟨rfl, rfl⟩
    exact Ledger.release hinv hi (hplaced'.settles (Ledger.valid hinv i _ hi))
  · exact conns_ne_none_updateConn h _

/-! ### Adding -/

theorem stable_holds {own : Key → Prop} (hκ : own κ) :
    Stable IndexesWellFormed (Aside scope own)
      fun s => ∃ fs, SubscriptionIndex.Holds κ fs (s.indexOf scope) := by
  rintro s s' haside hwf ⟨fs, hfs⟩
  exact ⟨fs, SubscriptionIndex.Entry.stable (o := some fs) (hwf scope) (haside.grows scope)
    (haside.view κ hκ) hfs⟩

/-- The index is created, and the filters of a subscription are put into it. -/
theorem insertFilters_triple (scope : Scope) (own : Key → Prop) (hκ : own κ)
    (filters : List Filter) :
    Triple IndexesWellFormed (Aside scope own) (IndexAction scope (· = κ))
      (fun s => ∃ fs, SubscriptionIndex.Holds κ fs (s.indexOf scope))
      ((Prog.atomic RegistryLock.indexes fun s : SubscriptionRegistry =>
        (PUnit.unit, s.setIndex scope (s.indexOf scope))).bind fun _ =>
          onIndex scope (SubscriptionIndex.addSubscription κ filters))
      fun _ s => ∃ fs, SubscriptionIndex.Holds κ fs (s.indexOf scope) := by
  refine Triple.bind (M := fun _ s => ∃ fs, SubscriptionIndex.Holds κ fs (s.indexOf scope))
    (Aside.refl scope own) (Triple.atomic (stable_holds hκ) (fun _ => stable_holds hκ)
      fun s hwf hholds => ⟨IndexesWellFormed.setIndex hwf (hwf scope),
        indexAction_create s scope _, ?_⟩) fun _ s hwf ⟨_, ts, _, hts⟩ => ?_
  · rwa [indexOf_setIndex]
  · exact (onIndex_ensures (SubscriptionIndex.addSubscription_triple κ True ts filters _ (hwf scope)
      fun _ => hts) fun s s' (haside : Aside scope own s s') => haside.foreign fun _ => hκ).conseq
        (fun _ _ h => h) (fun _ _ _ h => h) fun _ _ _ h => ⟨_, h trivial⟩

/-- What `add_subscription` does under the lock. -/
theorem keeps_insertFilters {isNew : Bool} {filters : List Filter}
    {k : Except Error PUnit → Prog RegistryLock SubscriptionRegistry RegistryResult}
    (hholds : ∃ fs, SubscriptionIndex.Holds (conn.id, sub) fs (s.indexOf scope))
    (hwf : IndexesWellFormed s) (hk : ∀ r s, Keeps i op (k r) .idle s) :
    Keeps i op ((do
      Prog.atomic RegistryLock.indexes fun s : SubscriptionRegistry =>
        (PUnit.unit, s.setIndex scope (s.indexOf scope))
      onIndex scope (SubscriptionIndex.addSubscription (conn.id, sub) filters)
      if isNew then incrementActiveSubscriptions else pure ⟨⟩
      release conn
      pure (Except.ok PUnit.unit)).bind k) (.busy conn scope sub true isNew) s := by
  have howns : (busy conn scope sub true isNew).Owns scope (conn.id, sub) := ⟨rfl, rfl⟩
  have hprog := insertFilters_triple scope (fun κ => (busy conn scope sub true isNew).Owns scope κ)
    howns filters s hwf hholds
  simp only [Prog.bind_eq, Prog.bind_assoc]
  rw [← Prog.bind_assoc]
  refine keeps_ensures busy_ne_doomed hprog ?_ hwf fun _ s _ hholds => ?_
  · rintro κ rfl
    exact howns
  · have hplaced : Placed true scope (conn.id, sub) s := ⟨hholds, fun h => by cases h⟩
    cases isNew with
    | true =>
      simp only [↓reduceIte, Prog.bind_assoc]
      refine keeps_count (fun m => ?_) hplaced fun s hplaced => ?_
      · push_cast
        rw [if_pos rfl]
        omega
      · exact keeps_release hplaced (hk (.ok ⟨⟩))
    | false =>
      simp only [Bool.false_eq_true, ↓reduceIte, Prog.bind_assoc]
      exact keeps_release hplaced (hk (.ok ⟨⟩))

/-- `add_subscription`. -/
theorem keeps_addSubscription {id : ConnectionId} {filters : List Filter}
    {k : Except Error PUnit → Prog RegistryLock SubscriptionRegistry RegistryResult}
    (hk : ∀ r s, Keeps i op (k r) .idle s) (s : SubscriptionRegistry) :
    Keeps i op ((addSubscription id sub filters).bind k) .idle s := by
  rw [addSubscription, Prog.bind_eq, Prog.bind_assoc]
  refine keeps_silent (fun _ => rfl) fun γ s hinv => ?_
  cases hconn : s.connections.lookup id with
  | none => exact hk _ _
  | some conn =>
    obtain ⟨rfl, -⟩ := (Ledger.wellFormed hinv).current id conn hconn
    dsimp only
    rw [Prog.bind_eq, Prog.bind_assoc]
    refine Protocol.Safe.await_bind (fitting_idle _) fun γ s hi _ hinv hready hallowed => ?_
    obtain ⟨hcurrent, hspared⟩ := hallowed trivial
    have hfree : Free γ conn s := ⟨hcurrent, hready, hspared⟩
    obtain ⟨-, data, hdata⟩ := (Ledger.wellFormed hinv).current conn.id conn hcurrent
    refine ⟨_, Ledger.insertSubscription hinv hi hfree hdata sub filters,
      tolerable_of_eq rfl fun conn' h => conns_ne_none_updateConn h _, ?_⟩
    have hvalue : (insertSubscription conn sub filters s).1 =
        some ((data.subscriptions.lookup sub).isNone, data.subdomain) := by
      rw [insertSubscription, hdata]
      rfl
    rw [hvalue]
    dsimp only
    refine keeps_insertFilters ?_ (fun scope => ?_) hk
    · exact Ledger.holds_of_free hinv hfree data.subdomain sub
    · exact Ledger.indexes hinv scope

/-! ### Removing -/

theorem updateConn_of_eq {f : ConnectionSubscriptions → ConnectionSubscriptions}
    (h : ∀ data, s.conns conn = some data → f data = data) : s.updateConn conn f = s := by
  have hconns : (s.updateConn conn f).conns = s.conns := by
    funext conn'
    simp only [SubscriptionRegistry.updateConn]
    split
    · rename_i heq
      subst heq
      cases hdata : s.conns conn' with
      | none => rfl
      | some data => exact congrArg some (h data hdata)
    · rfl
  have heq : s.updateConn conn f = { s with conns := (s.updateConn conn f).conns } := rfl
  rw [heq, hconns]

/-- What `remove_subscription` does under the lock, if there is a subscription. -/
theorem keeps_removeTaken {order : HashOrder}
    {k : Except Error PUnit → Prog RegistryLock SubscriptionRegistry RegistryResult}
    (hholds : ∃ fs, SubscriptionIndex.Holds (conn.id, sub) fs (s.indexOf scope))
    (hwf : IndexesWellFormed s) (hk : ∀ r s, Keeps i op (k r) .idle s) :
    Keeps i op ((do
      removeFromIndex order scope [(conn.id, sub)]
      decrementActiveSubscriptions 1
      release conn
      pure (Except.ok PUnit.unit)).bind k) (.busy conn scope sub false true) s := by
  have hclearing : Clearing scope ((busy conn scope sub false true).Owns scope)
      [(conn.id, sub)] s := by
    rintro _ ⟨-, rfl⟩
    rw [if_pos (List.mem_singleton_self _)]
    exact hholds
  have hprog := removeFromIndex_triple order scope ((busy conn scope sub false true).Owns scope)
    [(conn.id, sub)] s hwf hclearing
  simp only [Prog.bind_eq, Prog.bind_assoc]
  refine keeps_ensures busy_ne_doomed hprog (fun κ hκ => ?_) hwf fun _ s _ hcleared => ?_
  · exact ⟨rfl, List.mem_singleton.mp hκ⟩
  · have habsent : SubscriptionIndex.Absent (conn.id, sub) (s.indexOf scope) := by
      have := hcleared (conn.id, sub) ⟨rfl, rfl⟩
      rwa [if_neg List.not_mem_nil] at this
    have hplaced : Placed false scope (conn.id, sub) s :=
      ⟨⟨[], habsent.holds⟩, fun _ => habsent⟩
    refine keeps_count (fun m => ?_) hplaced fun s hplaced => keeps_release hplaced (hk (.ok ⟨⟩))
    push_cast
    omega

/-- `remove_subscription`. -/
theorem keeps_removeSubscription {order : HashOrder} {id : ConnectionId}
    {k : Except Error PUnit → Prog RegistryLock SubscriptionRegistry RegistryResult}
    (hk : ∀ r s, Keeps i op (k r) .idle s) (s : SubscriptionRegistry) :
    Keeps i op ((removeSubscription order id sub).bind k) .idle s := by
  rw [removeSubscription, Prog.bind_eq, Prog.bind_assoc]
  refine keeps_silent (fun _ => rfl) fun γ s hinv => ?_
  cases hconn : s.connections.lookup id with
  | none => exact hk _ _
  | some conn =>
    obtain ⟨rfl, -⟩ := (Ledger.wellFormed hinv).current id conn hconn
    dsimp only
    rw [Prog.bind_eq, Prog.bind_assoc]
    refine Protocol.Safe.await_bind (fitting_idle _) fun γ s hi _ hinv hready hallowed => ?_
    by_cases hfinds : (LockUse.remove sub).Finds conn s
    · obtain ⟨hcurrent, hspared⟩ := hallowed hfinds
      have hfree : Free γ conn s := ⟨hcurrent, hready, hspared⟩
      obtain ⟨data, hdata, hmem⟩ := hfinds
      have hsub : (data.subscriptions.lookup sub).isSome := AList.lookup_isSome.mpr hmem
      refine ⟨_, Ledger.takeSubscription hinv hi hfree hdata hsub,
        tolerable_of_eq rfl fun conn' h => conns_ne_none_updateConn h _, ?_⟩
      have hvalue : (takeSubscription conn sub s).1 = some (true, data.subdomain) := by
        rw [takeSubscription, Option.mem_def.mp hdata, Option.map_some, hsub]
      rw [hvalue]
      dsimp only
      refine keeps_removeTaken ?_ (fun scope => ?_) hk
      · exact Ledger.holds_of_free hinv hfree data.subdomain sub
      · exact Ledger.indexes hinv scope
    · -- nothing is found, so nothing changes
      have hnone : ∀ data, s.conns conn = some data →
          (data.subscriptions.lookup sub).isSome = false := fun data hdata => by
        by_contra hsome
        rw [Bool.not_eq_false] at hsome
        exact hfinds ⟨data, hdata, AList.lookup_isSome.mp hsome⟩
      have hsame : (takeSubscription conn sub s).2 = s := updateConn_of_eq fun data hdata => by
        rw [hnone data hdata]
        rfl
      have hvalue : ∀ scope, (takeSubscription conn sub s).1 ≠ some (true, scope) := by
        intro scope heq
        obtain ⟨data, hdata, hpair⟩ := Option.map_eq_some_iff.mp heq
        rw [hnone data hdata] at hpair
        cases hpair
      refine ⟨.idle, ?_, ?_, ?_⟩
      · rw [hsame, Protocol.set_of_getElem? hi]
        exact hinv
      · rw [hsame]
        exact tolerable_of_eq rfl fun _ h => h
      · rw [hsame]
        cases hremoved : (takeSubscription conn sub s).1 with
        | none => exact hk _ _
        | some pair =>
          obtain ⟨had, scope⟩ := pair
          cases had with
          | true => exact absurd hremoved (hvalue scope)
          | false => exact hk _ _

/-! ### Cleaning up -/

theorem idle_ne_doomed (id : ConnectionId) (ids : List SubscriptionId) (scope : Scope) :
    Duty.idle ≠ doomed id ids scope := fun h => by cases h

theorem closing_ne_doomed {id : ConnectionId} {ids : List SubscriptionId} (id' : ConnectionId)
    (ids' : List SubscriptionId) (scope' : Scope) :
    closing id ids scope ≠ doomed id' ids' scope' := fun h => by cases h

/-- What a cleanup does when it has removed a connection that had subscriptions. -/
theorem keeps_removeListed {order : HashOrder} {id : ConnectionId} {ids : List SubscriptionId}
    {k : PUnit → Prog RegistryLock SubscriptionRegistry RegistryResult}
    (hholds : ∀ sub ∈ ids, ∃ fs, SubscriptionIndex.Holds (id, sub) fs (s.indexOf scope))
    (hwf : IndexesWellFormed s) (hk : ∀ s, Keeps i op (k ⟨⟩) .idle s) :
    Keeps i op ((removeFromIndex order scope (ids.map fun sub => (id, sub))).bind fun _ =>
      (decrementActiveSubscriptions ids.length).bind k) (.closing id ids scope) s := by
  have hclearing : Clearing scope ((closing id ids scope).Owns scope)
      (ids.map fun sub => (id, sub)) s := by
    rintro ⟨id', sub⟩ ⟨-, rfl, hsub⟩
    rw [if_pos (List.mem_map_of_mem hsub)]
    exact hholds sub hsub
  have hprog := removeFromIndex_triple order scope ((closing id ids scope).Owns scope)
    (ids.map fun sub => (id, sub)) s hwf hclearing
  refine keeps_ensures closing_ne_doomed hprog (fun κ hκ => ?_) hwf fun _ s hwf hcleared => ?_
  · obtain ⟨sub, hsub, rfl⟩ := List.mem_map.mp hκ
    exact ⟨rfl, rfl, hsub⟩
  · refine Protocol.Safe.atomic_bind (fitting_act closing_ne_doomed)
      fun γ s' hi hs hinv _ => ⟨.idle, ?_, tolerable_of_eq rfl fun _ h => h, hk _⟩
    refine Ledger.metrics (n := -ids.length) hinv hi (fun m => ?_) trivial (fun _ h => nomatch h)
      (fun scope' κ hown _ => ?_) ?_
    · push_cast
      omega
    · obtain rfl := hown.1
      have haside : Aside scope' ((closing id ids scope').Owns scope') s s' :=
        ⟨hs.grows, fun κ hκ => hs.view scope' κ hκ⟩
      have hcleared' := hcleared.aside (Ledger.indexes hinv) haside κ hown
      rw [if_neg List.not_mem_nil] at hcleared'
      exact settles_of_absent hcleared'
    · simp [debt]

/-- The rest of a cleanup, when nothing or a current registration was listed. -/
theorem keeps_finishCleanup {order : HashOrder} {id : ConnectionId} {ids : List SubscriptionId}
    {info : Option (List SubscriptionId × Scope)}
    {k : PUnit → Prog RegistryLock SubscriptionRegistry RegistryResult}
    (hinfo : info = some (ids, scope) ∨ info = none ∧ ids = [])
    (hk : ∀ s, Keeps i op (k ⟨⟩) .idle s) (s : SubscriptionRegistry) :
    Keeps i op ((finishCleanup order id info).bind k) (.doomed id ids scope) s := by
  unfold finishCleanup
  rw [Prog.bind_eq, Prog.bind_assoc]
  refine Protocol.Safe.atomic_bind fitting_doomed fun γ s hi _ hinv _ =>
    ⟨_, Ledger.eraseConnection hinv hi, tolerable_of_eq rfl fun _ h => h, ?_⟩
  have hwf : IndexesWellFormed { s with connections := s.connections.erase id } :=
    fun scope => Ledger.indexes hinv scope
  by_cases hids : ids = []
  · subst hids
    rw [if_pos rfl]
    obtain rfl | ⟨rfl, -⟩ := hinfo
    · have hprog := removeFromIndex_triple order scope (Duty.idle.Owns scope) [] _ hwf
        fun κ hκ => hκ.elim
      dsimp only
      rw [Prog.bind_eq, Prog.bind_assoc]
      exact keeps_ensures idle_ne_doomed hprog (fun κ hκ => absurd hκ List.not_mem_nil) hwf
        fun _ s _ _ => hk s
    · exact hk _
  · rw [if_neg hids]
    obtain rfl | ⟨-, hnil⟩ := hinfo
    · have hholds : ∀ sub ∈ ids, ∃ fs, SubscriptionIndex.Holds (id, sub) fs (s.indexOf scope) := by
        intro sub _
        refine (Ledger.settled hinv scope (id, sub) fun j gj hj hown => ?_).holds
        have hclaim : (doomed id ids scope).claim = some id := if_neg hids
        obtain rfl := Ledger.exclusive hinv j i gj _ id hj hi (Duty.claim_of_owns hown) hclaim
        rw [hi, Option.some.injEq] at hj
        subst hj
        exact hown
      dsimp only
      have hpos : ids.length > 0 := List.length_pos_iff.mpr hids
      simp only [hpos, ↓reduceIte]
      rw [Prog.bind_eq, Prog.bind_assoc]
      exact keeps_removeListed hholds hwf hk
    · exact absurd hnil hids

/-- The registrations of a connection id. -/
theorem eq_of_current {data : ConnectionSubscriptions} (hinv : Ledger γ s)
    (hconn : s.conns conn ≠ none) (hdata : s.connection? conn.id = some data) :
    s.connections.lookup conn.id = some conn ∧ s.conns conn = some data := by
  obtain ⟨conn', hlookup, hdata'⟩ := Option.bind_eq_some_iff.mp hdata
  have hid := (hinv.wellFormed.current conn.id conn' hlookup).1
  have hne : s.conns conn' ≠ none := by
    rw [hdata']
    exact Option.some_ne_none data
  obtain rfl := hinv.unique conn' conn hne hconn hid
  exact ⟨hlookup, hdata'⟩

/-- A cleanup lists the subscriptions of a registration. -/
theorem keeps_list {order : HashOrder}
    {k : PUnit → Prog RegistryLock SubscriptionRegistry RegistryResult}
    (hconn : s.conns conn ≠ none) (hk : ∀ s, Keeps i op (k ⟨⟩) .idle s) :
    Keeps i op ((Prog.await (.subscriptions conn .list) (unlocked conn) fun s =>
      (cleanupInfo order conn s, s)).bind fun info => (finishCleanup order conn.id info).bind k)
      .idle s := by
  refine Protocol.Safe.await_bind (fitting_idle _) fun γ s' hi hs hinv hready hallowed => ?_
  obtain ⟨data, hdata⟩ := Option.ne_none_iff_exists'.mp (hs.persists conn hconn)
  have hperm := order.perm data.subscriptions.keys
  have hfree : order.iter data.subscriptions.keys ≠ [] → Free γ conn s' := fun hids => by
    have hfinds : LockUse.list.Finds conn s' := by
      refine ⟨data, hdata, fun hnil => hids ?_⟩
      rw [hnil] at hperm ⊢
      exact hperm.eq_nil
    obtain ⟨hcurrent, hspared⟩ := hallowed hfinds
    exact ⟨hcurrent, hready, hspared⟩
  have hvalid : (doomed conn.id (order.iter data.subscriptions.keys) data.subdomain).Valid s' := by
    refine ⟨fun hids => ?_, fun data' hdata' => ?_⟩
    · rw [connection?_of_lookup (hfree hids).current hdata]
      exact Option.some_ne_none data
    · obtain ⟨-, hsame⟩ := eq_of_current hinv (hs.persists conn hconn) hdata'
      obtain rfl := Option.some.inj (hdata.symm.trans hsame)
      refine ⟨?_, hperm.symm, fun _ => rfl⟩
      simpa [unlocked, hdata] using hready
  refine ⟨_, Ledger.doom hinv hi hvalid fun hids j gj hj =>
    Ledger.apart_of_free hinv (hfree hids) hj, tolerable_of_eq rfl fun _ h => h, ?_⟩
  refine keeps_finishCleanup (.inl ?_) hk s'
  rw [cleanupInfo, hdata]
  rfl

/-- `cleanup_connection`. -/
theorem keeps_cleanupConnection {order : HashOrder} {id : ConnectionId}
    {k : PUnit → Prog RegistryLock SubscriptionRegistry RegistryResult}
    (hk : ∀ s, Keeps i op (k ⟨⟩) .idle s) (s : SubscriptionRegistry) :
    Keeps i op ((cleanupConnection order id).bind k) .idle s := by
  rw [cleanupConnection, Prog.bind_eq, Prog.bind_assoc]
  refine Protocol.Safe.atomic_bind (fitting_idle _) fun γ s hi _ hinv _ => ?_
  cases hconn : s.connections.lookup id with
  | none =>
    -- nothing is listed, but from now on nothing may be added
    have hnone : s.connection? id = none := by rw [SubscriptionRegistry.connection?, hconn]; rfl
    have hvalid : (doomed id [] .default).Valid s := by
      refine ⟨fun h => absurd rfl h, fun data hdata => ?_⟩
      rw [hnone] at hdata
      cases hdata
    exact ⟨_, Ledger.doom hinv hi hvalid fun h => absurd rfl h, tolerable_of_eq rfl fun _ h => h,
      keeps_finishCleanup (.inr ⟨rfl, rfl⟩) hk s⟩
  | some conn =>
    obtain ⟨rfl, data, hdata⟩ := (Ledger.wellFormed hinv).current id conn hconn
    refine ⟨.idle, ?_, tolerable_of_eq rfl fun _ h => h, ?_⟩
    · rwa [Protocol.set_of_getElem? hi]
    · dsimp only
      rw [Prog.bind_eq, Prog.bind_assoc]
      refine keeps_list ?_ hk
      rw [hdata]
      exact Option.some_ne_none data

/-! ### The other methods -/

/-- `ConnectionHandle::drop`. -/
theorem keeps_dropHandle {order : HashOrder} {handle : ConnectionHandle}
    {k : PUnit → Prog RegistryLock SubscriptionRegistry RegistryResult}
    (hk : ∀ s, Keeps i op (k ⟨⟩) .idle s) (s : SubscriptionRegistry) :
    Keeps i op ((dropHandle order handle).bind k) .idle s := by
  rw [dropHandle, Prog.bind_eq, Prog.bind_assoc]
  refine keeps_silent (fun _ => rfl) fun γ s _ => ?_
  cases (s.connections.lookup handle.id).isSome with
  | true => exact keeps_cleanupConnection hk s
  | false => exact hk s

/-- `register_connection`, of an id that was never registered. -/
theorem keeps_registerConnection {id : ConnectionId} {sender : MessageSender}
    {auth : Option PublicKey} {subdomain : Scope}
    {k : ConnectionHandle → Prog RegistryLock SubscriptionRegistry RegistryResult}
    (hk : ∀ handle s, Keeps i op (k handle) .idle s) (s : SubscriptionRegistry) :
    Keeps i op ((registerConnection id sender auth subdomain).bind k) .idle s := by
  refine Protocol.Safe.atomic_bind (fitting_idle _) fun γ s hi _ hinv hnever =>
    ⟨.idle, Ledger.register hinv hi hnever sender auth subdomain, tolerable_of_eq rfl
      fun conn hconn => ?_, hk _ _⟩
  simp only [register]
  split
  · exact Option.some_ne_none _
  · exact hconn

theorem deliver_silent (sdk : Sdk) (event : Event) (κ : Key) (s : SubscriptionRegistry) :
    (deliver sdk event κ s).2 = { s with channels := (deliver sdk event κ s).2.channels } := by
  rw [deliver]
  split
  · rfl
  · split <;> rfl

/-- `distribute_event_indexed`. -/
theorem keeps_distributeEventIndexed {sdk : Sdk} {event : Event} {scope : Scope}
    {k : PUnit → Prog RegistryLock SubscriptionRegistry RegistryResult}
    (hk : ∀ s, Keeps i op (k ⟨⟩) .idle s) (s : SubscriptionRegistry) :
    Keeps i op ((distributeEventIndexed sdk event scope).bind k) .idle s := by
  rw [distributeEventIndexed, Prog.bind_eq, Prog.bind_assoc]
  refine keeps_silent (fun _ => rfl) fun γ s hinv => ?_
  cases (s.indexes.lookup scope).isSome with
  | false => exact hk s
  | true =>
    have hprog := (acts_distributeEvent sdk event scope s (Ledger.indexes hinv) trivial).conseq
      (fun _ _ (haside : Aside scope (Duty.idle.Owns scope) _ _) => haside.grows)
      (fun _ _ _ h => h) fun _ _ _ h => h
    dsimp only
    simp only [↓reduceIte, Prog.bind_eq, Prog.bind_assoc]
    refine keeps_ensures idle_ne_doomed hprog (fun κ hκ => hκ.elim) (Ledger.indexes hinv)
      fun matching s _ _ => ?_
    refine keeps_foldlM matching [] (fun dead κ k' hk' s => ?_) (fun dead s => ?_) s
    · rw [Prog.bind_eq, Prog.bind_assoc]
      exact keeps_silent (deliver_silent sdk event κ) fun γ s _ => hk' _ _
    · exact keeps_forM dead (fun id k' hk' => keeps_cleanupConnection hk') hk s

/-- Every method keeps to the protocol. -/
theorem keeps_code (sdk : Sdk) (op : RegistryOp) (s : SubscriptionRegistry) :
    Keeps i op (op.code sdk) .idle s := by
  cases op with
  | registerConnection id sender auth subdomain =>
    exact keeps_registerConnection (fun handle s => keeps_done _) s
  | addSubscription id sub filters => exact keeps_addSubscription (fun r s => keeps_done _) s
  | removeSubscription id sub => exact keeps_removeSubscription (fun r s => keeps_done _) s
  | cleanupConnection id => exact keeps_cleanupConnection (fun s => keeps_done _) s
  | dropHandle handle => exact keeps_dropHandle (fun s => keeps_done _) s
  | distributeEvent event scope => exact keeps_distributeEventIndexed (fun s => keeps_done _) s
  | receive ch => exact keeps_silent (fun _ => rfl) fun γ s _ => keeps_done _
  | disconnect ch => exact keeps_silent (fun _ => rfl) fun γ s _ => keeps_done _

end RelayBuilder
