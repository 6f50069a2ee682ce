import RelayBuilder.StoredEvents

/-!
# The pages of a stored answer

`process_historical_events` answers each filter of a REQ in pages. A page is what one query
returns. The loop drops what was sent before, keeps what may be seen, sends it up to the limit, and
moves the window to before the oldest timestamp that it met.

Every run of the loop over one filter is a `FilterRun`, which says what each page does. What holds
of a whole answer follows from it by induction, whatever the store, the processor and the channel
answer.

## Main definitions

* `Newer`: the order of `Events`
* `Collects`: what the library says about a collection of events that is extended
* `Page`: what the loop does with one page
* `FilterRun`: the pages of one filter
* `FilterPart`: the part of an answer that belongs to one filter, and when it is `Safe`

## Main results

* `runs_processFilter`: every run of the loop is one of its pages
* `storedAnswer_safe`: what holds of every stored answer
-/

namespace RelayBuilder

open Interleave Script SubscriptionCoordinator

/-! ### The order of events -/

/-- The order of `Events`: newest first, and by their ids at the same second. -/
def Newer (a b : Event) : Prop :=
  b.createdAt < a.createdAt ∨ b.createdAt = a.createdAt ∧ a.id < b.id

instance (a b : Event) : Decidable (Newer a b) := inferInstanceAs (Decidable (_ ∨ _))

theorem Newer.trans {a b c : Event} (h : Newer a b) (h' : Newer b c) : Newer a c := by
  obtain h | ⟨h, hid⟩ := h <;> obtain h' | ⟨h', hid'⟩ := h'
  · exact .inl (h'.trans h)
  · exact .inl (h' ▸ h)
  · exact .inl (h ▸ h')
  · exact .inr ⟨h'.trans h, BitVec.lt_trans hid hid'⟩

theorem Newer.irrefl (a : Event) : ¬ Newer a a := by
  rintro (h | ⟨-, h⟩)
  · exact lt_irrefl _ h
  · exact BitVec.lt_irrefl _ h

theorem Newer.createdAt_le {a b : Event} (h : Newer a b) : b.createdAt ≤ a.createdAt :=
  h.elim le_of_lt fun h => h.1.le

/-- Two events with different ids are in one of the two orders. -/
theorem newer_of_not_newer {a b : Event} (hid : a.id ≠ b.id) (h : ¬ Newer a b) : Newer b a := by
  obtain ⟨h, h'⟩ := not_or.mp h
  obtain heq | hlt := (not_lt.mp h).eq_or_lt
  · have hne : a.id.toNat ≠ b.id.toNat := fun h => hid (BitVec.eq_of_toNat_eq h)
    have hnot : ¬ a.id.toNat < b.id.toNat := fun hlt => h' ⟨heq.symm, BitVec.lt_def.mpr hlt⟩
    exact .inr ⟨heq, BitVec.lt_def.mpr (lt_of_le_of_ne (not_lt.mp hnot) hne.symm)⟩
  · exact .inl hlt

theorem nodup_of_newer {events : Events} (h : events.Pairwise Newer) : events.Nodup := by
  refine h.imp fun {a b} hab => ?_
  rintro rfl
  exact Newer.irrefl a hab

/-- What the library says about a collection that was extended: it is in the order of `Events`, so
that nothing is in it twice, and it has the events of both and no others. -/
structure Collects (all events collected : Events) : Prop where
  newer : collected.Pairwise Newer
  mem : ∀ e ∈ collected, e ∈ all ∨ e ∈ events
  covers : ∀ e, e ∈ all ∨ e ∈ events → ∃ e' ∈ collected, e'.id = e.id

/-- Every collection was extended as the library says. -/
def CollectsEvents (t : RelayHistory) : Prop :=
  ∀ all events collected, (⟨.extend all events, collected⟩ : Asked) ∈ t →
    Collects all events collected

theorem collectsEvents_append {t t' : RelayHistory} :
    CollectsEvents (t ++ t') ↔ CollectsEvents t ∧ CollectsEvents t' := by
  simp only [CollectsEvents, List.mem_append, or_imp, forall_and]

/-- A page has only what was answered. -/
theorem Collects.mem_answer {answer events : Events} (h : Collects [] answer events) {e : Event}
    (he : e ∈ events) : e ∈ answer :=
  (h.mem e he).resolve_left List.not_mem_nil

/-- An answer in the order of `Events` is a page already. -/
theorem collects_of_newer {answer : Events} (h : answer.Pairwise Newer) :
    Collects [] answer answer :=
  ⟨h, fun _ he => .inr he, fun e he => ⟨e, he.resolve_left List.not_mem_nil, rfl⟩⟩

/-! ### What was asked -/

/-- A query of the store, and its answer. -/
def Asked.queried? : Asked → Option (Filter × Except DatabaseError Events)
  | ⟨.query filter _, r⟩ => some (filter, r)
  | _ => none

/-- The queries, with their answers. -/
def queries (t : RelayHistory) : List (Filter × Except DatabaseError Events) :=
  t.filterMap Asked.queried?

/-- What an answer of `can_see_event` says. -/
def verdict : Except Error Bool → Bool
  | .ok visible => visible
  | .error _ => false

/-- The event was judged to be visible. -/
def JudgedVisible (t : RelayHistory) (event : Event) : Prop :=
  ∃ context r, (⟨.canSeeEvent event context, r⟩ : Asked) ∈ t ∧ verdict r = true

/-- All that was judged was judged by the predicate. -/
def JudgedBy (visible : Event → Bool) (t : RelayHistory) : Prop :=
  ∀ event context r, (⟨.canSeeEvent event context, r⟩ : Asked) ∈ t → verdict r = visible event

variable {t t' : RelayHistory} {visible : Event → Bool}

@[simp] theorem queries_nil : queries [] = [] := rfl

@[simp] theorem queries_append : queries (t ++ t') = queries t ++ queries t' :=
  List.filterMap_append

@[simp] theorem queries_cons {asked : Asked} :
    queries (asked :: t) = asked.queried?.toList ++ queries t := by
  rw [queries, List.filterMap_cons]
  cases asked.queried? <;> rfl

theorem JudgedVisible.left {event : Event} (h : JudgedVisible t event) :
    JudgedVisible (t ++ t') event :=
  let ⟨context, r, hmem, hr⟩ := h
  ⟨context, r, List.mem_append_left t' hmem, hr⟩

theorem JudgedVisible.right {event : Event} (h : JudgedVisible t' event) :
    JudgedVisible (t ++ t') event :=
  let ⟨context, r, hmem, hr⟩ := h
  ⟨context, r, List.mem_append_right t hmem, hr⟩

theorem judgedBy_append :
    JudgedBy visible (t ++ t') ↔ JudgedBy visible t ∧ JudgedBy visible t' := by
  simp only [JudgedBy, List.mem_append, or_imp, forall_and]

/-! ### One page -/

namespace SubscriptionCoordinator.Paging

/-- The events of a page that were not sent before. -/
def unsent (paging : Paging) (events : Events) : Events :=
  events.filter fun event => decide (event.id ∉ paging.sentEvents)

/-- The oldest timestamp, when one more event is met. -/
def older (last : Option Timestamp) (event : Event) : Option Timestamp :=
  some (match last with
    | none => event.createdAt
    | some t => if event.createdAt < t then event.createdAt else t)

/-- The page was read. -/
def read (paging : Paging) (events : Events) : Paging :=
  { paging with lastTimestamp := (paging.unsent events).foldl older paging.lastTimestamp }

/-- The events were sent. -/
def count (paging : Paging) (sent : Events) : Paging :=
  { paging with
    sentEvents := paging.sentEvents ++ sent.map (·.id)
    filterSent := paging.filterSent + sent.length }

end SubscriptionCoordinator.Paging

/-- What `filter_fn` asks. -/
theorem judges_filterFn (event : Event) : (filterFn event).Ensures fun t b =>
    pushed t = [] ∧ queries t = [] ∧ (b = true → JudgedVisible t event) ∧
      ∀ visible, JudgedBy visible t → b = visible event := by
  refine ensures_request_bind.mpr fun context => ensures_request_bind.mpr fun r => ?_
  have hmem : (⟨.canSeeEvent event context, r⟩ : Asked) ∈
      [⟨.eventContext, context⟩, ⟨.canSeeEvent event context, r⟩] := by simp
  match r with
  | .ok b =>
    exact ensures_done.mpr ⟨rfl, rfl, fun hb => ⟨context, _, hmem, hb⟩, fun visible h =>
      h event context _ hmem⟩
  | .error e =>
    exact ensures_done.mpr ⟨rfl, rfl, nofun, fun visible h => h event context _ hmem⟩

/-- What the loop over a page keeps. -/
theorem keeps_filterPage (paging : Paging) (events kept : Events) :
    (filterPage paging events kept).Ensures fun t r => ∃ new,
      r = (kept ++ new, paging.read events) ∧ new.Sublist (paging.unsent events) ∧
        pushed t = [] ∧ queries t = [] ∧ (∀ event ∈ new, JudgedVisible t event) ∧
          ∀ visible, JudgedBy visible t → new = (paging.unsent events).filter visible := by
  induction events generalizing paging kept with
  | nil =>
    exact ensures_done.mpr ⟨[], by rw [List.append_nil]; rfl, List.nil_sublist _, rfl, rfl,
      nofun, fun _ _ => rfl⟩
  | cons event events ih =>
    rw [filterPage]
    split
    · next hsent =>
      have hunsent : paging.unsent (event :: events) = paging.unsent events :=
        List.filter_cons_of_neg (by simpa using hsent)
      refine (ih paging kept).mono ?_
      rintro t r ⟨new, hr, h⟩
      refine ⟨new, ?_, ?_⟩
      · rw [hr, Paging.read, Paging.read, hunsent]
      · rwa [hunsent]
    · next hsent =>
      have hunsent : paging.unsent (event :: events) = event :: paging.unsent events :=
        List.filter_cons_of_pos (by simpa using hsent)
      refine ensures_bind.mpr ((judges_filterFn event).mono ?_)
      rintro t b ⟨hpushed, hqueries, hjudged, hby⟩
      refine (ih _ _).mono ?_
      rintro t' r ⟨new, hr, hsub, hpushed', hqueries', hjudged', hby'⟩
      have hread : paging.read (event :: events) =
          { paging with lastTimestamp := Paging.older paging.lastTimestamp event }.read events := by
        rw [Paging.read, hunsent, List.foldl_cons]
        rfl
      rw [hread, hunsent, pushed_append, queries_append, hpushed, hqueries, hpushed', hqueries']
      cases b with
      | true =>
        refine ⟨event :: new, ?_, hsub.cons_cons event, rfl, rfl, fun e he => ?_,
          fun visible h => ?_⟩
        · rw [hr, if_pos rfl, List.append_assoc]
          rfl
        · obtain rfl | he := List.mem_cons.mp he
          · exact (hjudged rfl).left
          · exact (hjudged' e he).right
        · obtain ⟨h, h'⟩ := judgedBy_append.mp h
          rw [List.filter_cons_of_pos (hby visible h).symm, hby' visible h']
          rfl
      | false =>
        refine ⟨new, ?_, hsub.cons event, rfl, rfl, fun e he => (hjudged' e he).right,
          fun visible h => ?_⟩
        · rw [hr, if_neg Bool.false_ne_true]
          rfl
        · obtain ⟨h, h'⟩ := judgedBy_append.mp h
          rw [List.filter_cons_of_neg (by rw [← hby visible h]; exact Bool.false_ne_true),
            hby' visible h']
          rfl

/-- What the loop that sends a page sends. -/
theorem sends_sendPage (sender : MessageSender) (sub : SubscriptionId) (limit : ℕ)
    (paging : Paging) (events : Events) :
    (sendPage sender sub limit paging events).Ensures fun t r =>
      let sent := events.take (limit - paging.filterSent)
      PushesEvents sender sub sent t ∧ queries t = [] ∧ r = paging.count sent := by
  induction events generalizing paging with
  | nil =>
    refine ensures_done.mpr ?_
    rw [List.take_nil]
    exact ⟨rfl, rfl, by rw [Paging.count, List.map_nil, List.append_nil]; rfl⟩
  | cons event events ih =>
    rw [sendPage]
    split
    · next hfull =>
      refine ensures_done.mpr ?_
      rw [Nat.sub_eq_zero_of_le hfull, List.take_zero]
      exact ⟨rfl, rfl, by rw [Paging.count, List.map_nil, List.append_nil]; rfl⟩
    · next hroom =>
      refine ensures_ask.mpr fun r => (ih _).mono ?_
      rintro t r' ⟨hpushes, hqueries, hr⟩
      have htake : (event :: events).take (limit - paging.filterSent) =
          event :: events.take (limit - (paging.filterSent + 1)) := by
        rw [← Nat.sub_sub]
        exact List.take_cons (Nat.sub_pos_of_lt (not_le.mp hroom))
      rw [htake]
      refine ⟨?_, hqueries, ?_⟩
      · rw [PushesEvents, pushed_cons, hpushes]
        rfl
      · rw [hr, Paging.count, Paging.count, List.map_cons, List.append_assoc, List.length_cons,
          Nat.add_assoc, Nat.add_comm 1]
        rfl

/-- What `query` makes of the answer to the only filter. -/
def PageOf (t : RelayHistory) : Except DatabaseError Events → Except Error Events → Prop
  | .ok answer, r => ∃ events, r = .ok events ∧ (⟨.extend [] answer, events⟩ : Asked) ∈ t
  | .error (.backend text), r =>
    r = if RelayDatabase.isNotFound text then .ok []
      else .error (.database ("Database backend error: " ++ text))
  | .error .notSupported, r => r = .error (.database "Database operation not supported")

theorem PageOf.left {answer : Except DatabaseError Events} {r : Except Error Events}
    (h : PageOf t answer r) : PageOf (t ++ t') answer r := by
  match answer with
  | .ok answer =>
    obtain ⟨events, hr, hmem⟩ := h
    exact ⟨events, hr, List.mem_append_left t' hmem⟩
  | .error (.backend text) => exact h
  | .error .notSupported => exact h

/-- A query of one filter: without a view of the scope, the store is not asked. -/
theorem queries_query (filter : Filter) (scope : Scope) :
    (RelayDatabase.query [filter] scope).Ensures fun t r => pushed t = [] ∧
      ((queries t = [] ∧ ∃ e, r = .error e) ∨
        ∃ answer, queries t = [(filter, answer)] ∧ PageOf t answer r) := by
  refine ensures_request_bind.mpr fun view => ?_
  match view with
  | .error e => exact ensures_done.mpr ⟨rfl, .inl ⟨rfl, _, rfl⟩⟩
  | .ok () =>
    refine ensures_request_bind.mpr fun answer => ?_
    match answer with
    | .ok answer =>
      refine ensures_request_bind.mpr fun events => ensures_done.mpr ⟨rfl, .inr ⟨_, rfl, ?_⟩⟩
      exact ⟨events, rfl, by simp⟩
    | .error .notSupported => exact ensures_done.mpr ⟨rfl, .inr ⟨_, rfl, rfl⟩⟩
    | .error (.backend text) =>
      dsimp only
      split
      · next h => exact ensures_done.mpr ⟨rfl, .inr ⟨_, rfl, (if_pos h).symm⟩⟩
      · next h => exact ensures_done.mpr ⟨rfl, .inr ⟨_, rfl, (if_neg h).symm⟩⟩

/-- A page with events collects what the store answered. -/
theorem PageOf.exists_of_cons {answer : Except DatabaseError Events} {event : Event}
    {events : Events} (h : PageOf t answer (.ok (event :: events))) :
    ∃ found, answer = .ok found ∧ (⟨.extend [] found, event :: events⟩ : Asked) ∈ t := by
  match answer with
  | .ok found =>
    obtain ⟨events', hr, hmem⟩ := h
    obtain rfl := Except.ok.inj hr
    exact ⟨found, rfl, hmem⟩
  | .error .notSupported => cases h
  | .error (.backend text) =>
    have h : (.ok (event :: events) : Except Error Events) =
        if RelayDatabase.isNotFound text then .ok []
        else .error (.database ("Database backend error: " ++ text)) := h
    split at h
    · cases h
    · cases h

/-- What the loop does with the page `events`, of which it keeps `kept`, the newest first. -/
structure Page (sender : MessageSender) (sub : SubscriptionId) (limit : ℕ) (filter : Filter)
    (paging : Paging) (t : RelayHistory) (events kept : Events) : Prop where
  nonempty : events ≠ []
  queried : ∃ answer, queries t = [(filter, .ok answer)] ∧
    (⟨.extend [] answer, events⟩ : Asked) ∈ t
  kept_subperm : kept.Subperm (paging.unsent events)
  ordered : kept.Pairwise fun a b => b.createdAt ≤ a.createdAt
  judged : ∀ event ∈ kept, JudgedVisible t event
  judgedBy : ∀ visible, JudgedBy visible t →
    kept = ((paging.unsent events).filter visible).mergeSort fun a b => b.createdAt ≤ a.createdAt
  pushes : PushesEvents sender sub (kept.take (limit - paging.filterSent)) t

/-- The variables of the loop after a page. -/
def SubscriptionCoordinator.Paging.after (paging : Paging) (limit : ℕ) (events kept : Events) :
    Paging :=
  (paging.read events).count (kept.take (limit - paging.filterSent))

/-- The pages of one filter, with what is sent of them. -/
inductive FilterRun (sender : MessageSender) (sub : SubscriptionId) (limit : ℕ) :
    Filter → ℕ → Paging → RelayHistory → Events → Except Error Paging → Prop where
  /-- The last attempt was made. -/
  | capped (filter : Filter) (paging : Paging) :
    FilterRun sender sub limit filter 0 paging [] [] (.ok paging)
  | failed (filter : Filter) (n : ℕ) (paging : Paging) (e : Error) {t : RelayHistory}
    (hpushed : pushed t = []) (hqueries : (queries t).length ≤ 1) :
    FilterRun sender sub limit filter (n + 1) paging t [] (.error e)
  | empty (filter : Filter) (n : ℕ) (paging : Paging) {t : RelayHistory} (hpushed : pushed t = [])
    (hqueried : ∃ answer, queries t = [(filter, answer)] ∧ PageOf t answer (.ok [])) :
    FilterRun sender sub limit filter (n + 1) paging t [] (.ok paging)
  /-- The limit is reached. -/
  | full (n : ℕ) {filter : Filter} {paging : Paging} {t : RelayHistory} {events kept : Events}
    (page : Page sender sub limit filter paging t events kept)
    (hfull : limit ≤ (paging.after limit events kept).filterSent) :
    FilterRun sender sub limit filter (n + 1) paging t (kept.take (limit - paging.filterSent))
      (.ok (paging.after limit events kept))
  /-- There was nothing new. -/
  | stuck (n : ℕ) {filter : Filter} {paging : Paging} {t : RelayHistory} {events kept : Events}
    (page : Page sender sub limit filter paging t events kept)
    (hroom : ¬ limit ≤ (paging.after limit events kept).filterSent)
    (hlast : (paging.after limit events kept).lastTimestamp = none) :
    FilterRun sender sub limit filter (n + 1) paging t (kept.take (limit - paging.filterSent))
      (.ok (paging.after limit events kept))
  /-- The window moves to before the oldest timestamp. -/
  | next {n : ℕ} {filter : Filter} {paging : Paging} {t t' : RelayHistory}
    {events kept sent : Events} {last : Timestamp} {r : Except Error Paging}
    (page : Page sender sub limit filter paging t events kept)
    (hroom : ¬ limit ≤ (paging.after limit events kept).filterSent)
    (hlast : (paging.after limit events kept).lastTimestamp = some last)
    (rest : FilterRun sender sub limit { filter with «until» := some (last - 1) } n
      (paging.after limit events kept) t' sent r) :
    FilterRun sender sub limit filter (n + 1) paging (t ++ t')
      (kept.take (limit - paging.filterSent) ++ sent) r

/-- **What the loop over one filter does.** -/
theorem runs_processFilter {coordinator : SubscriptionCoordinator} {sub : SubscriptionId}
    {scope : Scope} {limit : ℕ} {filter : Filter} {n : ℕ} {paging : Paging}
    {r : Except Error Paging}
    (h : Runs (coordinator.processFilter sub scope limit filter n paging) t r) :
    ∃ sent, FilterRun coordinator.outgoingSender sub limit filter n paging t sent r := by
  induction n generalizing filter paging t r with
  | zero =>
    obtain ⟨rfl, rfl⟩ := runs_done.mp h
    exact ⟨[], .capped filter paging⟩
  | succ n ih =>
    obtain ⟨t₁, page, t₂, rfl, h₁, h₂⟩ := runs_bind.mp h
    obtain ⟨hpushed, hquery⟩ := queries_query filter scope t₁ page h₁
    match page with
    | .error e =>
      obtain ⟨text, t₃, rfl, h₃⟩ := runs_request_bind.mp h₂
      obtain ⟨rfl, rfl⟩ := runs_done.mp h₃
      refine ⟨[], .failed filter n paging _ ?_ ?_⟩
      · rw [pushed_append, hpushed]
        rfl
      · rw [queries_append]
        obtain ⟨hqueries, -⟩ | ⟨answer, hqueries, -⟩ := hquery
        · rw [hqueries]
          exact Nat.zero_le 1
        · rw [hqueries]
          exact le_refl 1
    | .ok [] =>
      obtain ⟨rfl, rfl⟩ := runs_done.mp h₂
      obtain ⟨-, e, he⟩ | ⟨answer, hqueries, hpage⟩ := hquery
      · cases he
      · rw [List.append_nil]
        exact ⟨[], .empty filter n paging hpushed ⟨answer, hqueries, hpage⟩⟩
    | .ok (event :: events) =>
      obtain ⟨-, e, he⟩ | ⟨answer, hqueries, hpage⟩ := hquery
      · cases he
      obtain ⟨found, rfl, hfound⟩ := hpage.exists_of_cons
      obtain ⟨t₃, ⟨kept, paging₁⟩, t₄, rfl, h₃, h₄⟩ := runs_bind.mp h₂
      obtain ⟨t₅, paging₂, t₆, rfl, h₅, h₆⟩ := runs_bind.mp h₄
      obtain ⟨new, hkept, hsub, hpushed₃, hqueries₃, hjudged, hby⟩ :=
        keeps_filterPage paging (event :: events) [] t₃ _ h₃
      obtain ⟨rfl, rfl⟩ := Prod.mk.inj hkept
      obtain ⟨hpushes, hqueries₅, hr⟩ := sends_sendPage _ sub limit _ _ t₅ paging₂ h₅
      have hperm := List.mergeSort_perm kept fun a b => decide (b.createdAt ≤ a.createdAt)
      have hordered : (kept.mergeSort fun a b => decide (b.createdAt ≤ a.createdAt)).Pairwise
          fun a b => b.createdAt ≤ a.createdAt := by
        refine (List.pairwise_mergeSort (fun a b c hab hbc => ?_) (fun a b => ?_) kept).imp
          of_decide_eq_true
        · exact decide_eq_true ((of_decide_eq_true hbc).trans (of_decide_eq_true hab))
        · rw [Bool.or_eq_true, decide_eq_true_iff, decide_eq_true_iff]
          exact le_total _ _
      have hpage : Page coordinator.outgoingSender sub limit filter paging (t₁ ++ (t₃ ++ t₅))
          (event :: events) (kept.mergeSort fun a b => b.createdAt ≤ a.createdAt) := by
        refine ⟨List.cons_ne_nil _ _, ⟨found, ?_, List.mem_append_left _ hfound⟩,
          hperm.subperm.trans hsub.subperm, hordered, fun e he =>
          (hjudged e (hperm.mem_iff.mp he)).left.right, fun visible h => ?_, ?_⟩
        · rw [queries_append, queries_append, hqueries, hqueries₃, hqueries₅]
          rfl
        · rw [← hby visible (judgedBy_append.mp (judgedBy_append.mp h).2).1]
        · rw [PushesEvents, pushed_append, pushed_append, hpushed, hpushed₃, hpushes]
          rfl
      have hafter : paging₂ = paging.after limit (event :: events)
          (kept.mergeSort fun a b => b.createdAt ≤ a.createdAt) := hr
      have hassoc : t₁ ++ (t₃ ++ (t₅ ++ t₆)) = t₁ ++ (t₃ ++ t₅) ++ t₆ := by
        simp only [List.append_assoc]
      rw [hassoc]
      rw [hafter] at h₆
      split at h₆
      · next hfull =>
        obtain ⟨rfl, rfl⟩ := runs_done.mp h₆
        rw [List.append_nil]
        exact ⟨_, .full n hpage hfull⟩
      · next hroom =>
        split at h₆
        · next hlast =>
          obtain ⟨rfl, rfl⟩ := runs_done.mp h₆
          rw [List.append_nil]
          exact ⟨_, .stuck n hpage hroom hlast⟩
        · next last hlast =>
          obtain ⟨sent, hrest⟩ := ih h₆
          exact ⟨_, .next hpage hroom hlast hrest⟩

/-! ### What holds of the pages of a filter -/

variable {sender : MessageSender} {sub : SubscriptionId} {limit : ℕ} {filter : Filter}
  {paging paging' : Paging} {events kept sent : Events} {n : ℕ} {r : Except Error Paging}

/-- An event is in the period of a filter. -/
def InPeriod (filter : Filter) (event : Event) : Prop :=
  (∀ since, filter.since = some since → since ≤ event.createdAt) ∧
    ∀ u, filter.«until» = some u → event.createdAt ≤ u

/-- What the store returns is in the period of the query. -/
def AnswersInPeriod (t : RelayHistory) : Prop :=
  ∀ filter answer, (filter, Except.ok answer) ∈ queries t → ∀ event ∈ answer, InPeriod filter event

theorem answersInPeriod_append :
    AnswersInPeriod (t ++ t') ↔ AnswersInPeriod t ∧ AnswersInPeriod t' := by
  simp only [AnswersInPeriod, queries_append, List.mem_append, or_imp, forall_and]

theorem mem_unsent {event : Event} :
    event ∈ paging.unsent events ↔ event ∈ events ∧ event.id ∉ paging.sentEvents := by
  rw [Paging.unsent, List.mem_filter, decide_eq_true_iff]

/-- The oldest timestamp after more events: no later than that of any of them, nor than it was. -/
theorem foldl_older (last : Option Timestamp) (events : Events) :
    (∀ event ∈ events, ∃ ts, events.foldl Paging.older last = some ts ∧ ts ≤ event.createdAt) ∧
      (∀ ts, last = some ts → ∃ ts', events.foldl Paging.older last = some ts' ∧ ts' ≤ ts) ∧
        ∀ ts, events.foldl Paging.older last = some ts →
          last = some ts ∨ ∃ event ∈ events, event.createdAt = ts := by
  induction events generalizing last with
  | nil => exact ⟨nofun, fun ts h => ⟨ts, h, le_rfl⟩, fun ts h => .inl h⟩
  | cons event events ih =>
    obtain ⟨hevents, hlast, hmet⟩ := ih (Paging.older last event)
    have hevent : ∃ ts, Paging.older last event = some ts ∧ ts ≤ event.createdAt ∧
        (∀ ts', last = some ts' → ts ≤ ts') ∧ (last = some ts ∨ event.createdAt = ts) := by
      cases last with
      | none => exact ⟨event.createdAt, rfl, le_rfl, nofun, .inr rfl⟩
      | some ts =>
        rw [Paging.older]
        split
        · next hlt =>
          refine ⟨event.createdAt, rfl, le_rfl, fun ts' h => ?_, .inr rfl⟩
          exact Option.some.inj h ▸ hlt.le
        · next hle => exact ⟨ts, rfl, not_lt.mp hle, fun ts' h => (Option.some.inj h).le, .inl rfl⟩
    obtain ⟨ts, hts, hle, hle', hor⟩ := hevent
    obtain ⟨ts', hts', hle''⟩ := hlast ts hts
    refine ⟨List.forall_mem_cons.mpr ⟨⟨ts', hts', hle''.trans hle⟩, hevents⟩,
      fun ts₀ h => ⟨ts', hts', hle''.trans (hle' ts₀ h)⟩, fun ts₀ h => ?_⟩
    obtain h | ⟨e, he, h⟩ := hmet ts₀ h
    · obtain rfl := Option.some.inj (hts.symm.trans h)
      exact hor.imp_right fun h => ⟨event, List.mem_cons_self .., h⟩
    · exact .inr ⟨e, List.mem_cons_of_mem event he, h⟩

namespace Page

variable (page : Page sender sub limit filter paging t events kept)

include page

theorem collects (hcollects : CollectsEvents t) :
    ∃ answer, queries t = [(filter, .ok answer)] ∧ Collects [] answer events := by
  obtain ⟨answer, hqueries, hmem⟩ := page.queried
  exact ⟨answer, hqueries, hcollects _ _ _ hmem⟩

theorem nodup_kept (hcollects : CollectsEvents t) : kept.Nodup := by
  obtain ⟨answer, -, h⟩ := page.collects hcollects
  obtain ⟨kept', hperm, hsub⟩ := page.kept_subperm
  exact hperm.nodup_iff.mp ((nodup_of_newer h.newer).filter _ |>.sublist hsub)

theorem mem_kept {event : Event} (h : event ∈ kept) :
    event ∈ events ∧ event.id ∉ paging.sentEvents :=
  mem_unsent.mp (page.kept_subperm.subset h)

/-- What is kept was returned by the query. -/
theorem returned (hcollects : CollectsEvents t) {event : Event} (h : event ∈ kept) :
    ∃ answer, (filter, .ok answer) ∈ queries t ∧ event ∈ answer := by
  obtain ⟨answer, hqueries, hpage⟩ := page.collects hcollects
  exact ⟨answer, hqueries ▸ List.mem_singleton_self _, hpage.mem_answer (page.mem_kept h).1⟩

theorem inPeriod (hcollects : CollectsEvents t) (hperiod : AnswersInPeriod t) {event : Event}
    (h : event ∈ events) : InPeriod filter event := by
  obtain ⟨answer, hqueries, hpage⟩ := page.collects hcollects
  exact hperiod filter answer (hqueries ▸ List.mem_singleton_self _) event (hpage.mem_answer h)

/-- Nothing that was kept is older than the oldest timestamp. -/
theorem last_le {ts : Timestamp} (hlast : (paging.after limit events kept).lastTimestamp = some ts)
    {event : Event} (h : event ∈ kept) : ts ≤ event.createdAt := by
  obtain ⟨ts', hts', hle⟩ := (foldl_older paging.lastTimestamp (paging.unsent events)).1 event
    (page.kept_subperm.subset h)
  obtain rfl : ts' = ts := Option.some.inj (hts'.symm.trans hlast)
  exact hle

end Page

namespace FilterRun

variable (run : FilterRun sender sub limit filter n paging t sent r)

include run

theorem pushes : PushesEvents sender sub sent t := by
  induction run with
  | capped => rfl
  | failed _ _ _ _ hpushed => exact hpushed
  | empty _ _ _ hpushed => exact hpushed
  | full _ page => exact page.pushes
  | stuck _ page => exact page.pushes
  | next page _ _ _ ih => exact page.pushes.append ih

theorem sentEvents_eq : ∀ paging', r = .ok paging' →
    paging'.sentEvents = paging.sentEvents ++ sent.map (·.id) := by
  induction run with
  | capped | empty =>
    exact fun paging' h => by rw [← Except.ok.inj h, List.map_nil, List.append_nil]
  | failed => exact nofun
  | full | stuck => exact fun paging' h => by rw [← Except.ok.inj h]; rfl
  | next _ _ _ _ ih =>
    intro paging' h
    rw [ih paging' h, List.map_append, ← List.append_assoc]
    rfl

/-- What is sent was not sent before. -/
theorem id_notMem : ∀ event ∈ sent, event.id ∉ paging.sentEvents := by
  induction run with
  | capped | failed | empty => exact nofun
  | full _ page | stuck _ page => exact fun e he => (page.mem_kept (List.mem_of_mem_take he)).2
  | next page _ _ _ ih =>
    refine List.forall_mem_append.mpr ⟨fun e he => ?_, fun e he h => ?_⟩
    · exact (page.mem_kept (List.mem_of_mem_take he)).2
    · exact ih e he (List.mem_append_left _ h)

theorem nodup (hcollects : CollectsEvents t) : sent.Nodup := by
  induction run with
  | capped | failed | empty => exact List.nodup_nil
  | full _ page | stuck _ page =>
    exact (page.nodup_kept hcollects).sublist (List.take_sublist ..)
  | next page _ _ rest ih =>
    obtain ⟨hcollects, hcollects'⟩ := collectsEvents_append.mp hcollects
    refine List.nodup_append.mpr ⟨(page.nodup_kept hcollects).sublist (List.take_sublist ..),
      ih hcollects', fun e he e' he' heq => ?_⟩
    refine rest.id_notMem e' he' (List.mem_append_right _ ?_)
    exact List.mem_map.mpr ⟨e, he, congrArg Event.id heq⟩

theorem length_le (hlimit : paging.filterSent ≤ limit) :
    paging.filterSent + sent.length ≤ limit := by
  have htake (p : Paging) (h : p.filterSent ≤ limit) (l : Events) :
      p.filterSent + (l.take (limit - p.filterSent)).length ≤ limit := by
    rw [List.length_take]
    omega
  induction run with
  | capped | failed | empty => exact hlimit
  | full _ page | stuck _ page => exact htake _ hlimit _
  | next page _ _ _ ih =>
    rw [List.length_append, ← Nat.add_assoc]
    exact ih (htake _ hlimit _)

theorem judged : ∀ event ∈ sent, JudgedVisible t event := by
  induction run with
  | capped | failed | empty => exact nofun
  | full _ page | stuck _ page => exact fun e he => page.judged e (List.mem_of_mem_take he)
  | next page _ _ _ ih =>
    exact List.forall_mem_append.mpr ⟨fun e he => (page.judged e (List.mem_of_mem_take he)).left,
      fun e he => (ih e he).right⟩

/-- What is sent was returned by a query of the filter, in some window. -/
theorem returned (hcollects : CollectsEvents t) : ∀ event ∈ sent, ∃ u answer,
    ({ filter with «until» := u }, Except.ok answer) ∈ queries t ∧ event ∈ answer := by
  induction run with
  | capped | failed | empty => exact nofun
  | @full _ filter _ _ _ _ page | @stuck _ filter _ _ _ _ page =>
    exact fun e he => ⟨filter.«until», page.returned hcollects (List.mem_of_mem_take he)⟩
  | @next _ filter _ _ _ _ _ _ _ _ page _ _ _ ih =>
    obtain ⟨hcollects, hcollects'⟩ := collectsEvents_append.mp hcollects
    refine List.forall_mem_append.mpr ⟨fun e he => ?_, fun e he => ?_⟩
    · obtain ⟨answer, hmem, he⟩ := page.returned hcollects (List.mem_of_mem_take he)
      exact ⟨filter.«until», answer, by rw [queries_append]; exact List.mem_append_left _ hmem, he⟩
    · obtain ⟨u, answer, hmem, he⟩ := ih hcollects' e he
      exact ⟨u, answer, by rw [queries_append]; exact List.mem_append_right _ hmem, he⟩

theorem length_queries_le : (queries t).length ≤ n := by
  induction run with
  | capped => exact le_refl 0
  | failed _ n _ _ _ hqueries => exact hqueries.trans (Nat.le_add_left 1 n)
  | empty _ n _ _ hqueried =>
    obtain ⟨answer, hqueries, -⟩ := hqueried
    rw [hqueries]
    exact Nat.le_add_left 1 n
  | full n page | stuck n page =>
    obtain ⟨answer, hqueries, -⟩ := page.queried
    rw [hqueries]
    exact Nat.le_add_left 1 n
  | @next n _ _ _ _ _ _ _ _ _ page _ _ _ ih =>
    obtain ⟨answer, hqueries, -⟩ := page.queried
    rw [queries_append, List.length_append, hqueries, Nat.add_comm n 1]
    exact Nat.add_le_add_left ih 1

/-- The window never reaches beyond the period of the filter. -/
theorem inPeriod (hcollects : CollectsEvents t) (hperiod : AnswersInPeriod t)
    (hwindow : ∀ ts u, paging.lastTimestamp = some ts → filter.«until» = some u → ts - 1 ≤ u) :
    ∀ event ∈ sent, InPeriod filter event := by
  induction run with
  | capped | failed | empty => exact nofun
  | full _ page | stuck _ page =>
    exact fun e he => page.inPeriod hcollects hperiod (page.mem_kept (List.mem_of_mem_take he)).1
  | @next n filter paging _ _ events kept _ last _ page _ hlast _ ih =>
    obtain ⟨hcollects, hcollects'⟩ := collectsEvents_append.mp hcollects
    obtain ⟨hperiod, hperiod'⟩ := answersInPeriod_append.mp hperiod
    refine List.forall_mem_append.mpr ⟨fun e he => ?_, fun e he => ?_⟩
    · exact page.inPeriod hcollects hperiod (page.mem_kept (List.mem_of_mem_take he)).1
    · have hin := ih hcollects' hperiod' (fun ts u hts hu => ?_) e he
      · refine ⟨hin.1, fun u hu => (hin.2 (last - 1) rfl).trans ?_⟩
        obtain h | ⟨e', he', h⟩ :=
          (foldl_older paging.lastTimestamp (paging.unsent events)).2.2 last hlast
        · exact hwindow last u h hu
        · rw [← h]
          exact (Nat.sub_le _ 1).trans
            ((page.inPeriod hcollects hperiod (mem_unsent.mp he').1).2 u hu)
      · rw [← Option.some.inj hu, Option.some.inj (hlast.symm.trans hts)]

/-- Within one filter, the timestamps never increase. -/
theorem ordered (hcollects : CollectsEvents t) (hperiod : AnswersInPeriod t)
    (hwindow : ∀ ts u, paging.lastTimestamp = some ts → filter.«until» = some u → ts - 1 ≤ u) :
    sent.Pairwise fun a b => b.createdAt ≤ a.createdAt := by
  induction run with
  | capped | failed | empty => exact .nil
  | full _ page | stuck _ page =>
    exact page.ordered.sublist (List.take_sublist ..)
  | @next n filter paging _ _ events kept _ last _ page _ hlast rest ih =>
    obtain ⟨hcollects, hcollects'⟩ := collectsEvents_append.mp hcollects
    obtain ⟨hperiod, hperiod'⟩ := answersInPeriod_append.mp hperiod
    have hwindow' : ∀ ts u, (paging.after limit events kept).lastTimestamp = some ts →
        ({ filter with «until» := some (last - 1) } : Filter).«until» = some u → ts - 1 ≤ u :=
      fun ts u hts hu => by rw [← Option.some.inj hu, Option.some.inj (hlast.symm.trans hts)]
    refine List.pairwise_append.mpr ⟨?_, ih hcollects' hperiod' hwindow', fun e he e' he' => ?_⟩
    · exact page.ordered.sublist (List.take_sublist ..)
    · calc e'.createdAt ≤ last - 1 := (rest.inPeriod hcollects' hperiod' hwindow' e' he').2 _ rfl
        _ ≤ last := Nat.sub_le last 1
        _ ≤ e.createdAt := page.last_le hlast (List.mem_of_mem_take he)

end FilterRun

/-! ### A whole answer -/

/-- The part of an answer that belongs to one filter of the REQ. -/
structure FilterPart where
  filter : Filter
  history : RelayHistory
  sent : Events

/-- The filter as it is asked for. -/
def capLimit (limit : ℕ) (filter : Filter) : Filter := { filter with limit := some limit }

namespace FilterPart

/-- The part is what the loop does for its filter. -/
def OfRun (sender : MessageSender) (sub : SubscriptionId) (limit : ℕ) (part : FilterPart) : Prop :=
  ∃ sentBefore r, FilterRun sender sub limit (capLimit limit part.filter) maxAttempts
    ⟨sentBefore, 0, none⟩ part.history part.sent r

/-- What is sent for one filter of a REQ. -/
structure Safe (coordinator : SubscriptionCoordinator) (sub : SubscriptionId)
    (filters : List Filter) (part : FilterPart) : Prop where
  /-- Nothing else is pushed meanwhile. -/
  pushes : PushesEvents coordinator.outgoingSender sub part.sent part.history
  judged : ∀ event ∈ part.sent, JudgedVisible part.history event
  returned : ∀ event ∈ part.sent, ∃ limit u answer,
    ({ part.filter with limit := limit, «until» := u }, Except.ok answer) ∈ queries part.history ∧
      event ∈ answer
  inPeriod : ∀ event ∈ part.sent, InPeriod part.filter event
  length_le_maxLimit : part.sent.length ≤ coordinator.maxLimit
  length_le_limit : ∀ filter ∈ filters, ∀ limit, filter.limit = some limit →
    part.sent.length ≤ limit
  ordered : part.sent.Pairwise fun a b => b.createdAt ≤ a.createdAt
  queries_le : (queries part.history).length ≤ maxAttempts

end FilterPart

/-- What is sent for a REQ: the parts of its filters, or of those up to the one that failed, and
then EOSE. -/
structure SafeAnswer (coordinator : SubscriptionCoordinator) (sub : SubscriptionId)
    (filters : List Filter) (t : RelayHistory) (r : Except Error Unit) (parts : List FilterPart)
    (tail : RelayHistory) : Prop where
  history : t = parts.flatMap FilterPart.history ++ tail
  filters_prefix : parts.map FilterPart.filter <+: filters
  safe : ∀ part ∈ parts, part.Safe coordinator sub filters
  /-- No event is sent twice. -/
  nodup : (parts.flatMap FilterPart.sent).Nodup
  queries_le : (queries t).length ≤ maxAttempts * filters.length
  pushed_tail : pushed tail <+: [(coordinator.outgoingSender.channel,
    coordinator.outgoingSender.packet (.endOfStoredEvents sub))]
  /-- An answer that succeeds is complete and ends with EOSE. -/
  eose : r = .ok () → parts.map FilterPart.filter = filters ∧
    tail = [⟨.trySend coordinator.outgoingSender.channel
      (coordinator.outgoingSender.packet (.endOfStoredEvents sub)), .ok ()⟩]

theorem smallestLimit_le_maxLimit (coordinator : SubscriptionCoordinator) (filters : List Filter) :
    coordinator.smallestLimit filters ≤ coordinator.maxLimit :=
  min_le_right _ _

theorem smallestLimit_le_limit (coordinator : SubscriptionCoordinator) {filters : List Filter}
    (hfilter : filter ∈ filters) (hlimit : filter.limit = some limit) :
    coordinator.smallestLimit filters ≤ limit := by
  have hmem : limit ∈ filters.filterMap (·.limit) :=
    List.mem_filterMap.mpr ⟨filter, hfilter, hlimit⟩
  refine (min_le_left _ _).trans ?_
  cases hmin : (filters.filterMap (·.limit)).min? with
  | none =>
    rw [List.min?_eq_none_iff.mp hmin] at hmem
    cases hmem
  | some least => exact (List.min?_eq_some_iff.mp hmin).2 limit hmem

theorem FilterPart.OfRun.safe {coordinator : SubscriptionCoordinator} {filters : List Filter}
    {part : FilterPart}
    (h : part.OfRun coordinator.outgoingSender sub (coordinator.smallestLimit filters))
    (hcollects : CollectsEvents part.history) (hperiod : AnswersInPeriod part.history) :
    part.Safe coordinator sub filters := by
  obtain ⟨sentBefore, r, run⟩ := h
  have hlength : part.sent.length ≤ coordinator.smallestLimit filters := by
    have := run.length_le (Nat.zero_le _)
    rwa [Nat.zero_add] at this
  exact {
    pushes := run.pushes
    judged := run.judged
    returned := fun e he =>
      let ⟨u, answer, hmem, hanswer⟩ := run.returned hcollects e he
      ⟨_, u, answer, hmem, hanswer⟩
    inPeriod := run.inPeriod hcollects hperiod nofun
    length_le_maxLimit := hlength.trans (smallestLimit_le_maxLimit coordinator filters)
    length_le_limit := fun _ hfilter _ hlimit =>
      hlength.trans (smallestLimit_le_limit coordinator hfilter hlimit)
    ordered := run.ordered hcollects hperiod nofun
    queries_le := run.length_queries_le }

/-- What the loop over the filters does. -/
theorem runs_processFilters {coordinator : SubscriptionCoordinator} {scope : Scope}
    {filters : List Filter} {sentBefore : List EventId} {r : Except Error Unit}
    (hcollects : CollectsEvents t)
    (h : Runs (coordinator.processFilters sub scope limit (filters.map (capLimit limit)) sentBefore)
      t r) :
    ∃ parts : List FilterPart, t = parts.flatMap FilterPart.history ∧
      parts.map FilterPart.filter <+: filters ∧
      (r = .ok () → parts.map FilterPart.filter = filters) ∧
      (∀ part ∈ parts, part.OfRun coordinator.outgoingSender sub limit) ∧
      (parts.flatMap FilterPart.sent).Nodup ∧
      ∀ event ∈ parts.flatMap FilterPart.sent, event.id ∉ sentBefore := by
  induction filters generalizing sentBefore t r with
  | nil =>
    obtain ⟨rfl, rfl⟩ := runs_done.mp h
    exact ⟨[], rfl, List.prefix_rfl, fun _ => rfl, nofun, List.nodup_nil, nofun⟩
  | cons filter filters ih =>
    obtain ⟨t₁, r₁, t₂, rfl, h₁, h₂⟩ := runs_bind.mp h
    obtain ⟨hcollects₁, hcollects₂⟩ := collectsEvents_append.mp hcollects
    obtain ⟨sent, run⟩ := runs_processFilter h₁
    have hpart : FilterPart.OfRun coordinator.outgoingSender sub limit ⟨filter, t₁, sent⟩ :=
      ⟨sentBefore, r₁, run⟩
    match r₁ with
    | .error e =>
      obtain ⟨rfl, rfl⟩ := runs_done.mp h₂
      refine ⟨[⟨filter, t₁, sent⟩], ?_, ⟨filters, rfl⟩, nofun, List.forall_mem_singleton.mpr hpart,
        ?_, ?_⟩
      · rw [List.flatMap_singleton, List.append_nil]
      · rw [List.flatMap_singleton]
        exact run.nodup hcollects₁
      · rw [List.flatMap_singleton]
        exact run.id_notMem
    | .ok paging' =>
      obtain ⟨parts, rfl, hprefix, hall, hparts, hnodup, hids⟩ := ih hcollects₂ h₂
      rw [run.sentEvents_eq paging' rfl] at hids
      refine ⟨⟨filter, t₁, sent⟩ :: parts, rfl, List.cons_prefix_cons.mpr ⟨rfl, hprefix⟩,
        fun hr => congrArg (filter :: ·) (hall hr), List.forall_mem_cons.mpr ⟨hpart, hparts⟩,
        ?_, ?_⟩
      · refine List.nodup_append.mpr ⟨run.nodup hcollects₁, hnodup, fun e he e' he' heq => ?_⟩
        have hid := List.mem_map.mpr ⟨e, he, congrArg Event.id heq⟩
        exact hids e' he' (List.mem_append_right _ hid)
      · refine List.forall_mem_append.mpr ⟨run.id_notMem, fun e he h => ?_⟩
        exact hids e he (List.mem_append_left _ h)

theorem queries_flatMap (parts : List FilterPart) :
    queries (parts.flatMap FilterPart.history) =
      parts.flatMap fun part => queries part.history := by
  induction parts with
  | nil => rfl
  | cons part parts ih => rw [List.flatMap_cons, queries_append, ih, List.flatMap_cons]

theorem length_queries_flatMap_le {parts : List FilterPart} {bound : ℕ}
    (h : ∀ part ∈ parts, (queries part.history).length ≤ bound) :
    (queries (parts.flatMap FilterPart.history)).length ≤ bound * parts.length := by
  induction parts with
  | nil => exact Nat.zero_le _
  | cons part parts ih =>
    obtain ⟨hpart, hparts⟩ := List.forall_mem_cons.mp h
    rw [List.flatMap_cons, queries_append, List.length_append, List.length_cons, Nat.mul_succ,
      Nat.add_comm]
    exact Nat.add_le_add (ih hparts) hpart

/-- What the relay relies on from `Filter::match_event` when it pages: a filter only matches events
between its `since` and its `until`. -/
def PeriodLaws (matchEvent : Filter → Event → Bool) : Prop :=
  ∀ filter event, matchEvent filter event = true → InPeriod filter event

/-- **What holds of every stored answer**, whatever is in the store, whatever may be seen, and
whatever the channel takes, if a query returns only events that match its filter, and the library
collects them as it says. -/
theorem storedAnswer_safe {matchEvent : Filter → Event → Bool} (hlaws : PeriodLaws matchEvent)
    (coordinator : SubscriptionCoordinator) (sub : SubscriptionId) (filters : List Filter)
    (scope : Scope) {t : RelayHistory} {r : Except Error Unit}
    (hmatch : ∀ filter answer, (filter, Except.ok answer) ∈ queries t →
      ∀ event ∈ answer, matchEvent filter event = true)
    (hcollects : CollectsEvents t)
    (h : Runs (coordinator.processHistoricalEvents sub filters scope) t r) :
    ∃ parts tail, SafeAnswer coordinator sub filters t r parts tail := by
  obtain ⟨t₁, r₁, tail, rfl, h₁, h₂⟩ := runs_bind.mp h
  obtain ⟨parts, rfl, hprefix, hall, hparts, hnodup, -⟩ :=
    runs_processFilters (collectsEvents_append.mp hcollects).1 h₁
  have hsafe : ∀ part ∈ parts, part.Safe coordinator sub filters := by
    refine fun part hpart => (hparts part hpart).safe (fun all events collected hmem => ?_)
      fun filter answer hmem event he => ?_
    · refine hcollects all events collected (List.mem_append_left tail ?_)
      exact List.mem_flatMap.mpr ⟨part, hpart, hmem⟩
    · refine hlaws filter event (hmatch filter answer ?_ event he)
      rw [queries_append, queries_flatMap]
      exact List.mem_append_left _ (List.mem_flatMap.mpr ⟨part, hpart, hmem⟩)
  have htail : queries tail = [] ∧ pushed tail <+: [(coordinator.outgoingSender.channel,
      coordinator.outgoingSender.packet (.endOfStoredEvents sub))] ∧
      (r = .ok () → r₁ = .ok () ∧ tail = [⟨.trySend coordinator.outgoingSender.channel
        (coordinator.outgoingSender.packet (.endOfStoredEvents sub)), .ok ()⟩]) := by
    match r₁ with
    | .error e =>
      obtain ⟨rfl, rfl⟩ := runs_done.mp h₂
      exact ⟨rfl, List.nil_prefix, nofun⟩
    | .ok () =>
      obtain ⟨t₂, sentEose, t₃, rfl, h₃, h₄⟩ := runs_bind.mp h₂
      obtain ⟨r₀, t₄, rfl, h₅⟩ := runs_request_bind.mp h₃
      obtain ⟨rfl, rfl⟩ := runs_done.mp h₅
      match r₀ with
      | .error e =>
        obtain ⟨text, t₅, rfl, h₆⟩ := runs_request_bind.mp h₄
        obtain ⟨rfl, rfl⟩ := runs_done.mp h₆
        exact ⟨rfl, List.prefix_rfl, nofun⟩
      | .ok () =>
        obtain ⟨rfl, rfl⟩ := runs_done.mp h₄
        exact ⟨rfl, List.prefix_rfl, fun _ => ⟨rfl, rfl⟩⟩
  refine ⟨parts, tail, rfl, hprefix, hsafe, hnodup, ?_, htail.2.1, fun hr => ?_⟩
  · have hlength : parts.length ≤ filters.length := by
      have := hprefix.length_le
      rwa [List.length_map] at this
    rw [queries_append, htail.1, List.append_nil]
    exact (length_queries_flatMap_le fun part hpart => (hsafe part hpart).queries_le).trans
      (Nat.mul_le_mul_left _ hlength)
  · exact ⟨hall (htail.2.2 hr).1, (htail.2.2 hr).2⟩

theorem periodLaws_matchEvent : PeriodLaws Filter.matchEvent := by
  intro filter event h
  simp only [Filter.matchEvent, Bool.and_eq_true, Option.all_eq_true, decide_eq_true_eq] at h
  obtain ⟨⟨⟨⟨-, hsince⟩, huntil⟩, -⟩, -⟩ := h
  exact ⟨hsince, huntil⟩

/-! ### Two filters -/

/-- A note of that second. -/
private def datedNote (id : EventId) (createdAt : Timestamp) : Event :=
  { Event.note id with createdAt := createdAt }

private abbrev anybody : EventContext := ⟨none, .default, 0⟩

private def feedSender : SubscriptionCoordinator := ⟨"alice", ⟨0, 0⟩, 500⟩

private def feedFilters : List Filter :=
  [{ Filter.new with limit := some 3 }, { Filter.new with since := some 1 }]

/-- The pages of the first filter. The window moves once, and the second page fills the limit. -/
private def firstPages : RelayHistory :=
  [⟨.scopedView .default, .ok ()⟩,
    ⟨.query { Filter.new with limit := some 3 } .default, .ok [datedNote 7 9, datedNote 8 8]⟩,
    ⟨.extend [] [datedNote 7 9, datedNote 8 8], [datedNote 7 9, datedNote 8 8]⟩,
    ⟨.eventContext, anybody⟩, ⟨.canSeeEvent (datedNote 7 9) anybody, .ok true⟩,
    ⟨.eventContext, anybody⟩, ⟨.canSeeEvent (datedNote 8 8) anybody, .ok true⟩,
    ⟨.trySend 0 ⟨.event "feed" (datedNote 7 9), 0, none⟩, .ok ()⟩,
    ⟨.trySend 0 ⟨.event "feed" (datedNote 8 8), 0, none⟩, .ok ()⟩,
    ⟨.scopedView .default, .ok ()⟩,
    ⟨.query { Filter.new with limit := some 3, «until» := some 7 } .default, .ok [datedNote 9 5]⟩,
    ⟨.extend [] [datedNote 9 5], [datedNote 9 5]⟩,
    ⟨.eventContext, anybody⟩, ⟨.canSeeEvent (datedNote 9 5) anybody, .ok true⟩,
    ⟨.trySend 0 ⟨.event "feed" (datedNote 9 5), 0, none⟩, .ok ()⟩]

/-- The pages of the second filter. The first note was sent already. -/
private def secondPages : RelayHistory :=
  [⟨.scopedView .default, .ok ()⟩,
    ⟨.query { Filter.new with since := some 1, limit := some 3 } .default,
      .ok [datedNote 7 9, datedNote 10 4]⟩,
    ⟨.extend [] [datedNote 7 9, datedNote 10 4], [datedNote 7 9, datedNote 10 4]⟩,
    ⟨.eventContext, anybody⟩, ⟨.canSeeEvent (datedNote 10 4) anybody, .ok true⟩,
    ⟨.trySend 0 ⟨.event "feed" (datedNote 10 4), 0, none⟩, .ok ()⟩,
    ⟨.scopedView .default, .ok ()⟩,
    ⟨.query { Filter.new with since := some 1, limit := some 3, «until» := some 3 } .default,
      .ok []⟩,
    ⟨.extend [] [], []⟩]

private def feedAnswer : RelayHistory :=
  firstPages ++ secondPages ++ [⟨.trySend 0 ⟨.endOfStoredEvents "feed", 0, none⟩, .ok ()⟩]

private theorem runs_firstPages : Runs (feedSender.processFilter "feed" .default 3
    { Filter.new with limit := some 3 } (48 + 1 + 1) ⟨[], 0, none⟩) firstPages
    (.ok ⟨[7, 8, 9], 3, some 5⟩) := by
  refine runs_bind.mpr ⟨[_, _, _], .ok [datedNote 7 9, datedNote 8 8], _, rfl,
    .ask _ <| .ask _ <| .ask _ <| .done _, ?_⟩
  refine runs_bind.mpr ⟨[_, _, _, _], ([datedNote 7 9, datedNote 8 8], ⟨[], 0, some 8⟩), _, rfl,
    .ask _ <| .ask _ <| .ask _ <| .ask _ <| .done _, ?_⟩
  dsimp only
  rw [List.mergeSort_of_pairwise (List.pairwise_pair.mpr (by decide))]
  refine runs_bind.mpr ⟨[_, _], ⟨[7, 8], 2, some 8⟩, _, rfl, .ask _ <| .ask _ <| .done _, ?_⟩
  refine runs_bind.mpr ⟨[_, _, _], .ok [datedNote 9 5], _, rfl,
    .ask _ <| .ask _ <| .ask _ <| .done _, ?_⟩
  refine runs_bind.mpr ⟨[_, _], ([datedNote 9 5], ⟨[7, 8], 2, some 5⟩), _, rfl,
    .ask _ <| .ask _ <| .done _, ?_⟩
  dsimp only
  rw [List.mergeSort_singleton]
  exact .ask _ <| .done _

private theorem runs_secondPages : Runs (feedSender.processFilter "feed" .default 3
    { Filter.new with since := some 1, limit := some 3 } (48 + 1 + 1) ⟨[7, 8, 9], 0, none⟩)
    secondPages (.ok ⟨[7, 8, 9, 10], 1, some 4⟩) := by
  refine runs_bind.mpr ⟨[_, _, _], .ok [datedNote 7 9, datedNote 10 4], _, rfl,
    .ask _ <| .ask _ <| .ask _ <| .done _, ?_⟩
  refine runs_bind.mpr ⟨[_, _], ([datedNote 10 4], ⟨[7, 8, 9], 0, some 4⟩), _, rfl,
    .ask _ <| .ask _ <| .done _, ?_⟩
  dsimp only
  rw [List.mergeSort_singleton]
  exact .ask _ <| .ask _ <| .ask _ <| .ask _ <| .done _

/-- Three pages with events, and a note that matches both filters and is sent once. -/
theorem two_filters_safe : ∃ parts tail,
    SafeAnswer feedSender "feed" feedFilters feedAnswer (.ok ()) parts tail := by
  have hrun : Runs (feedSender.processHistoricalEvents "feed" feedFilters .default) feedAnswer
      (.ok ()) := by
    refine runs_bind.mpr ⟨firstPages ++ secondPages, .ok (), _, rfl, ?_, .ask _ <| .done _⟩
    refine runs_bind.mpr ⟨_, .ok ⟨[7, 8, 9], 3, some 5⟩, secondPages, rfl, runs_firstPages, ?_⟩
    exact runs_bind.mpr ⟨_, .ok ⟨[7, 8, 9, 10], 1, some 4⟩, [], (List.append_nil _).symm,
      runs_secondPages, .done _⟩
  have hmatch : ∀ filter answer, (filter, Except.ok answer) ∈ queries feedAnswer →
      ∀ event ∈ answer, filter.matchEvent event = true := by
    intro filter answer hmem
    have hqueries : queries feedAnswer = [({ Filter.new with limit := some 3 },
        .ok [datedNote 7 9, datedNote 8 8]),
      ({ Filter.new with limit := some 3, «until» := some 7 }, .ok [datedNote 9 5]),
      ({ Filter.new with since := some 1, limit := some 3 }, .ok [datedNote 7 9, datedNote 10 4]),
      ({ Filter.new with since := some 1, limit := some 3, «until» := some 3 }, .ok [])] := rfl
    rw [hqueries] at hmem
    simp only [List.mem_cons, List.not_mem_nil, or_false] at hmem
    rcases hmem with h | h | h | h <;> cases h <;> decide
  have hcollects : CollectsEvents feedAnswer := by
    intro all events collected hmem
    simp only [feedAnswer, firstPages, secondPages, List.mem_append, List.mem_cons,
      List.not_mem_nil, or_false, Sigma.mk.injEq, reduceCtorEq, RelayCall.extend.injEq, false_and,
      false_or] at hmem
    rcases hmem with (⟨⟨rfl, rfl⟩, rfl⟩ | ⟨⟨rfl, rfl⟩, rfl⟩) | ⟨⟨rfl, rfl⟩, rfl⟩ | ⟨⟨rfl, rfl⟩, rfl⟩
    all_goals exact collects_of_newer (by decide)
  exact storedAnswer_safe periodLaws_matchEvent _ _ _ .default hmatch hcollects hrun

end RelayBuilder
