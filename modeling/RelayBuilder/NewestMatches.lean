import RelayBuilder.Pagination

/-!
# The newest matches

Whether the pages of a stored answer find the newest events that may be seen. The store keeps its
events in an order of its own, the newest first, and cuts a page at the limit of the query. The loop
then asks for what is older than the oldest event that it met. What the store left out of a page is
not found again when it is as old as that event, and a page that fills the limit is sent in the
order of `Events`, which need not be that of the store at the same second.

The loop over one filter is a `Search` here, which moves from one `PageState` to the next. What it
sends is what every run of the loop sends (`FilterRun.sent_eq`).

## Main definitions

* `earlier`: what a list has before an element
* `EventStore`, `EventStore.query`: a store that does not change, and what it answers
* `Search`, `Search.next`, `Search.sentFor`: the loop over one filter as a function
* `Search.Complete`: a page leaves out nothing that the rest of the search would have to send

## Main results

* `Search.sends_newest`: a search whose pages are complete sends the newest matches
* `Search.complete_of_sends`: a search that sends the newest matches has complete pages
* `sendsNewest_iff`: when a REQ is answered with the newest matches of its filters
-/

namespace RelayBuilder

open Interleave Script SubscriptionCoordinator

/-! ### What a list has before an element -/

section Earlier

variable {α : Type} [DecidableEq α] {l : List α} {a x : α} {n : ℕ} {p : α → Bool}

/-- What `l` has before `a`. -/
def earlier (l : List α) (a : α) : List α := l.takeWhile fun x => decide (x ≠ a)

theorem earlier_sublist : (earlier l a).Sublist l :=
  List.takeWhile_sublist _

@[simp] theorem earlier_cons_self : earlier (a :: l) a = [] :=
  List.takeWhile_cons_of_neg fun h => of_decide_eq_true h rfl

theorem earlier_cons_of_ne (h : x ≠ a) : earlier (x :: l) a = x :: earlier l a :=
  List.takeWhile_cons_of_pos (decide_eq_true h)

theorem notMem_earlier : a ∉ earlier l a := by
  induction l with
  | nil => exact List.not_mem_nil
  | cons b l ih =>
    by_cases h : b = a
    · subst h
      rw [earlier_cons_self]
      exact List.not_mem_nil
    · rw [earlier_cons_of_ne h]
      exact fun hmem => (List.mem_cons.mp hmem).elim (fun heq => h heq.symm) ih

theorem mem_take_iff : a ∈ l.take n ↔ a ∈ l ∧ (earlier l a).length < n := by
  induction l generalizing n with
  | nil => simp
  | cons b l ih =>
    cases n with
    | zero => simp
    | succ n =>
      by_cases h : b = a
      · subst h
        simp
      · have hab : a ≠ b := Ne.symm h
        rw [List.take_succ_cons, earlier_cons_of_ne h, List.length_cons, Nat.succ_lt_succ_iff,
          List.mem_cons, List.mem_cons, ih]
        simp [hab]

theorem earlier_filter (ha : p a = true) : earlier (l.filter p) a = (earlier l a).filter p := by
  induction l with
  | nil => rfl
  | cons b l ih =>
    by_cases h : b = a
    · subst h
      rw [List.filter_cons_of_pos ha, earlier_cons_self, earlier_cons_self, List.filter_nil]
    · rw [earlier_cons_of_ne h]
      by_cases hb : p b = true
      · rw [List.filter_cons_of_pos hb, List.filter_cons_of_pos hb, earlier_cons_of_ne h, ih]
      · rw [List.filter_cons_of_neg hb, List.filter_cons_of_neg hb, ih]

theorem earlier_take : earlier (l.take n) a = (earlier l a).take n :=
  List.take_takeWhile.symm

/-- What was taken without `a` is before it. -/
theorem mem_earlier_of_notMem_take (hx : x ∈ l.take n) (ha : a ∉ l.take n) : x ∈ earlier l a := by
  have hne : ∀ b ∈ l.take n, decide (b ≠ a) = true :=
    fun b hb => decide_eq_true fun h => ha (h ▸ hb)
  rw [earlier, ← List.take_append_drop n l, List.takeWhile_append_of_pos hne]
  exact List.mem_append_left _ hx

/-- When `a` was taken, all that is before it was. -/
theorem mem_earlier_take (ha : a ∈ l.take n) (hx : x ∈ earlier l a) : x ∈ earlier (l.take n) a := by
  rw [earlier_take, List.take_of_length_le (mem_take_iff.mp ha).2.le]
  exact hx

theorem length_earlier_lt (hx : x ∈ earlier l a) : (earlier l x).length < (earlier l a).length := by
  have htake : earlier l a = l.take (earlier l a).length :=
    List.prefix_iff_eq_take.mp (List.takeWhile_prefix _)
  rw [htake] at hx
  exact (mem_take_iff.mp hx).2

theorem mem_earlier_filter (ha : p a = true) :
    x ∈ earlier (l.filter p) a ↔ x ∈ earlier l a ∧ p x = true := by
  rw [earlier_filter ha, List.mem_filter]

/-- What is before an element is related to it as the order of the list says. -/
theorem rel_of_mem_earlier {R : α → α → Prop} (h : l.Pairwise R) (ha : a ∈ l)
    (hx : x ∈ earlier l a) : R x a := by
  rw [← List.takeWhile_append_dropWhile (p := fun b => decide (b ≠ a)) (l := l)] at h ha
  have hafter : a ∈ l.dropWhile fun b => decide (b ≠ a) := by
    exact (List.mem_append.mp ha).resolve_left notMem_earlier
  exact (List.pairwise_append.mp h).2.2 x hx a hafter

/-- Fewer than `n` of what passes is before an element that is among the first `n`. -/
theorem length_lt_of_mem_take {xs : List α} (hxs : xs.Nodup) (ha : a ∈ (l.filter p).take n)
    (h : ∀ x ∈ xs, x ∈ earlier l a ∧ p x = true) : xs.length < n := by
  obtain ⟨hmem, hlength⟩ := mem_take_iff.mp ha
  have hsub : xs ⊆ earlier (l.filter p) a :=
    fun x hx => (mem_earlier_filter (List.mem_filter.mp hmem).2).mpr (h x hx)
  exact (hxs.subperm hsub).length_le.trans_lt hlength

/-- An element is among the first `n` of what passes when what passes before it is among fewer
than `n` others. -/
theorem mem_take_of_length_lt {xs : List α} (hl : l.Nodup) (ha : a ∈ l.filter p)
    (hxs : xs.length < n) (h : ∀ x ∈ earlier l a, p x = true → x ∈ xs) :
    a ∈ (l.filter p).take n := by
  refine mem_take_iff.mpr ⟨ha, lt_of_le_of_lt ?_ hxs⟩
  have hpa : p a = true := (List.mem_filter.mp ha).2
  have hnodup : (earlier (l.filter p) a).Nodup := (hl.filter p).sublist earlier_sublist
  refine (hnodup.subperm fun x hx => ?_).length_le
  obtain ⟨hx, hpx⟩ := (mem_earlier_filter hpa).mp hx
  exact h x hx hpx

end Earlier

/-! ### A collection in its order -/

/-- A collection with one more event. -/
def insertEvent (event : Event) : Events → Events
  | [] => [event]
  | e :: events =>
    if event.id = e.id then e :: events
    else if Newer event e then event :: e :: events
    else e :: insertEvent event events

/-- A collection with more events, as the library says. -/
def extendEvents (all events : Events) : Events := events.foldl (fun all e => insertEvent e all) all

section Collections

variable {event e : Event} {events answer : Events}

theorem mem_insertEvent (h : e ∈ insertEvent event events) : e = event ∨ e ∈ events := by
  induction events with
  | nil => exact .inl (List.mem_singleton.mp h)
  | cons first events ih =>
    rw [insertEvent] at h
    split at h
    · exact .inr h
    · split at h
      · exact List.mem_cons.mp h
      · obtain rfl | h := List.mem_cons.mp h
        · exact .inr (List.mem_cons_self ..)
        · exact (ih h).imp_right (List.mem_cons_of_mem first)

theorem pairwise_insertEvent (event : Event) (h : events.Pairwise Newer) :
    (insertEvent event events).Pairwise Newer := by
  induction events with
  | nil => exact List.pairwise_singleton ..
  | cons first events ih =>
    obtain ⟨hfirst, hevents⟩ := List.pairwise_cons.mp h
    rw [insertEvent]
    split
    · exact h
    · next hid =>
      split
      · next hevent =>
        refine List.pairwise_cons.mpr ⟨List.forall_mem_cons.mpr ⟨hevent, fun e he => ?_⟩, h⟩
        exact hevent.trans (hfirst e he)
      · next hnewer =>
        refine List.pairwise_cons.mpr ⟨fun e he => ?_, ih hevents⟩
        obtain rfl | he := mem_insertEvent he
        · exact newer_of_not_newer hid hnewer
        · exact hfirst e he

theorem mem_insertEvent_of_mem (h : e ∈ events) : e ∈ insertEvent event events := by
  induction events with
  | nil => cases h
  | cons first events ih =>
    rw [insertEvent]
    split
    · exact h
    · split
      · exact List.mem_cons_of_mem event h
      · exact List.mem_cons.mpr ((List.mem_cons.mp h).imp_right ih)

/-- An event that is inserted is there, unless one with its id is. -/
theorem exists_mem_insertEvent (event : Event) (events : Events) :
    ∃ e ∈ insertEvent event events, e.id = event.id := by
  induction events with
  | nil => exact ⟨event, List.mem_singleton_self _, rfl⟩
  | cons first events ih =>
    rw [insertEvent]
    split
    · next h => exact ⟨first, List.mem_cons_self .., h.symm⟩
    · split
      · exact ⟨event, List.mem_cons_self .., rfl⟩
      · obtain ⟨e, he, hid⟩ := ih
        exact ⟨e, List.mem_cons_of_mem first he, hid⟩

/-- What the library says can be done. -/
theorem collects_extendEvents {all : Events} (hall : all.Pairwise Newer) (events : Events) :
    Collects all events (extendEvents all events) := by
  induction events generalizing all with
  | nil =>
    exact ⟨hall, fun e he => .inl he, fun e he => ⟨e, he.resolve_right List.not_mem_nil, rfl⟩⟩
  | cons event events ih =>
    have h := ih (pairwise_insertEvent event hall)
    refine ⟨h.newer, fun e he => ?_, fun e he => ?_⟩
    · obtain he | he := h.mem e he
      · obtain rfl | he := mem_insertEvent he
        · exact .inr (List.mem_cons_self ..)
        · exact .inl he
      · exact .inr (List.mem_cons_of_mem event he)
    · rw [List.mem_cons] at he
      obtain he | rfl | he := he
      · exact h.covers e (.inl (mem_insertEvent_of_mem he))
      · obtain ⟨e', he', hid⟩ := exists_mem_insertEvent e all
        obtain ⟨e'', he'', hid'⟩ := h.covers e' (.inl he')
        exact ⟨e'', he'', hid'.trans hid⟩
      · exact h.covers e (.inr he)

/-- A page has all that was answered, if no two events of the answer have the same id. -/
theorem Collects.mem_iff (h : Collects [] answer events)
    (hids : ∀ a ∈ answer, ∀ b ∈ answer, a.id = b.id → a = b) : e ∈ events ↔ e ∈ answer := by
  refine ⟨h.mem_answer, fun he => ?_⟩
  obtain ⟨e', he', hid⟩ := h.covers e (.inr he)
  rwa [← hids e' (h.mem_answer he') e he hid]

/-- There is one page for an answer whose events have different ids. -/
theorem Collects.eq_extendEvents (h : Collects [] answer events)
    (hids : ∀ a ∈ answer, ∀ b ∈ answer, a.id = b.id → a = b) :
    events = extendEvents [] answer := by
  have h' := collects_extendEvents .nil answer
  refine List.Perm.eq_of_pairwise (fun a b _ _ hab hba => ?_) h.newer h'.newer ?_
  · exact absurd (hab.trans hba) (Newer.irrefl a)
  · refine (List.perm_ext_iff_of_nodup (nodup_of_newer h.newer) (nodup_of_newer h'.newer)).mpr ?_
    exact fun e => (h.mem_iff hids).trans (h'.mem_iff hids).symm

end Collections

/-! ### The store -/

/-- What the store holds while a REQ is answered, in its own order. -/
structure EventStore where
  events : Events
  newestFirst : events.Pairwise fun a b => b.createdAt ≤ a.createdAt
  distinct : (events.map (·.id)).Nodup

namespace EventStore

variable {store : EventStore} {a b : Event}

/-- The newest events that match, up to the limit of the filter. -/
def query (store : EventStore) (matchEvent : Filter → Event → Bool) (filter : Filter) : Events :=
  let found := store.events.filter (matchEvent filter)
  match filter.limit with
  | none => found
  | some limit => found.take limit

theorem nodup (store : EventStore) : store.events.Nodup := store.distinct.of_map _

theorem mem_of_mem_query {matchEvent : Filter → Event → Bool} {filter : Filter}
    (h : a ∈ store.query matchEvent filter) : a ∈ store.events := by
  rw [query] at h
  split at h
  · exact (List.mem_filter.mp h).1
  · exact (List.mem_filter.mp (List.mem_of_mem_take h)).1

/-- An event is the only one with its id. -/
theorem eq_of_id_eq (ha : a ∈ store.events) (hb : b ∈ store.events) (h : a.id = b.id) : a = b :=
  List.inj_on_of_nodup_map store.distinct ha hb h

theorem distinct_query (store : EventStore) (matchEvent : Filter → Event → Bool) (filter : Filter) :
    ∀ a ∈ store.query matchEvent filter, ∀ b ∈ store.query matchEvent filter,
      a.id = b.id → a = b :=
  fun _ ha _ hb => eq_of_id_eq (mem_of_mem_query ha) (mem_of_mem_query hb)

end EventStore

/-- What the relay relies on from `Filter::match_event` when it moves the window: the limit plays no
part, and `until` only bounds the time. -/
def WindowLaws (matchEvent : Filter → Event → Bool) : Prop :=
  ∀ (filter : Filter) limit u event,
    matchEvent { filter with limit := limit, «until» := u } event = true ↔
      matchEvent { filter with limit := none, «until» := none } event = true ∧
        ∀ ts, u = some ts → event.createdAt ≤ ts

/-! ### The search -/

/-- Where the loop over a filter is: the `until` of its window, and its variables. -/
structure PageState where
  windowUntil : Option Timestamp
  paging : Paging

/-- What the loop over the filters works with. -/
structure Search where
  store : EventStore
  matchEvent : Filter → Event → Bool
  visible : Event → Bool
  limit : ℕ

namespace Search

/-- The query for the next page. -/
def window (s : Search) (filter : Filter) (u : Option Timestamp) : Filter :=
  { filter with limit := some s.limit, «until» := u }

/-- What the store answers, in its order. -/
def answer (s : Search) (filter : Filter) (st : PageState) : Events :=
  s.store.query s.matchEvent (s.window filter st.windowUntil)

/-- The page, in the order of `Events`. -/
def page (s : Search) (filter : Filter) (st : PageState) : Events :=
  extendEvents [] (s.answer filter st)

/-- What the loop keeps of the page. -/
def kept (s : Search) (filter : Filter) (st : PageState) : Events :=
  (st.paging.unsent (s.page filter st)).filter s.visible

/-- What it sends of the page. -/
def sent (s : Search) (filter : Filter) (st : PageState) : Events :=
  (s.kept filter st).take (s.limit - st.paging.filterSent)

/-- The variables after the page. -/
def after (s : Search) (filter : Filter) (st : PageState) : Paging :=
  st.paging.after s.limit (s.page filter st) (s.kept filter st)

/-- Where the loop goes on after the page, if it does. -/
def next (s : Search) (filter : Filter) (st : PageState) : Option PageState :=
  match s.page filter st with
  | [] => none
  | _ :: _ =>
    if s.limit ≤ (s.after filter st).filterSent then none
    else (s.after filter st).lastTimestamp.map fun last => ⟨some (last - 1), s.after filter st⟩

/-- Where the loop asks for a page, within so many attempts. -/
def states (s : Search) (filter : Filter) : ℕ → PageState → List PageState
  | 0, _ => []
  | n + 1, st => st :: (s.next filter st).elim [] (s.states filter n)

/-- What it sends. -/
def sentFor (s : Search) (filter : Filter) (n : ℕ) (st : PageState) : Events :=
  (s.states filter n st).flatMap (s.sent filter)

/-- It ends before it is out of attempts. -/
def EndsWithin (s : Search) (filter : Filter) : ℕ → PageState → Prop
  | 0, _ => False
  | n + 1, st => ∀ st', s.next filter st = some st' → s.EndsWithin filter n st'

/-- Where the loop over each of the filters starts. -/
def starts (s : Search) : List Filter → List EventId → List (Filter × PageState)
  | [], _ => []
  | filter :: filters, sentBefore =>
    let start : PageState := ⟨filter.«until», ⟨sentBefore, 0, none⟩⟩
    (filter, start) ::
      s.starts filters (sentBefore ++ (s.sentFor filter maxAttempts start).map (·.id))

/-- What is sent for the filters. -/
def sentForAll (s : Search) (filters : List Filter) (sentBefore : List EventId) : Events :=
  (s.starts filters sentBefore).flatMap fun start => s.sentFor start.1 maxAttempts start.2

/-- The events that match a filter and may be seen. -/
def isMatch (s : Search) (filter : Filter) (event : Event) : Bool :=
  s.matchEvent filter event && s.visible event

/-- Those of the store, in its order. -/
def matchesOf (s : Search) (filter : Filter) : Events :=
  s.store.events.filter (s.isMatch filter)

end Search

/-! ### Every run of the loop is the search -/

/-- The store answers a query as it should. -/
def AnsweredFrom (store : EventStore) (matchEvent : Filter → Event → Bool) (t : RelayHistory) :
    Prop :=
  ∀ filter r, (filter, r) ∈ queries t → r = .ok (store.query matchEvent filter)

section Refinement

variable {s : Search} {t t' : RelayHistory} {sender : MessageSender} {sub : SubscriptionId}
  {filter filter' : Filter} {paging paging' : Paging} {events kept sent : Events} {n : ℕ}
  {u : Option Timestamp}

/-- A page that fills the limit, or shows no event that was not sent, is the last one. -/
theorem Search.next_eq_none {st : PageState} (h : s.limit ≤ (s.after filter st).filterSent ∨
    (s.after filter st).lastTimestamp = none) : s.next filter st = none := by
  rw [Search.next]
  split
  · rfl
  · split
    · rfl
    · next hroom => rw [h.resolve_left hroom, Option.map_none]

theorem Search.next_eq_some {st st' : PageState} : s.next filter st = some st' ↔
    s.page filter st ≠ [] ∧ (s.after filter st).filterSent < s.limit ∧
      ∃ last, (s.after filter st).lastTimestamp = some last ∧
        st' = ⟨some (last - 1), s.after filter st⟩ := by
  rw [Search.next]
  split
  · next h => simp [h]
  · next h =>
    split
    · next hfull => simp [Nat.not_lt.mpr hfull]
    · next hroom => simp [h, not_le.mp hroom, eq_comm]

theorem Search.sentFor_of_next_eq_none {st : PageState} (h : s.next filter st = none) (n : ℕ) :
    s.sentFor filter (n + 1) st = s.sent filter st := by
  rw [Search.sentFor, Search.states, h, Option.elim_none, List.flatMap_singleton]

theorem Search.sentFor_of_next_eq_some {st st' : PageState} (h : s.next filter st = some st')
    (n : ℕ) : s.sentFor filter (n + 1) st = s.sent filter st ++ s.sentFor filter n st' := by
  rw [Search.sentFor, Search.states, h, Option.elim_some, List.flatMap_cons, Search.sentFor]

theorem answeredFrom_append : AnsweredFrom s.store s.matchEvent (t ++ t') ↔
    AnsweredFrom s.store s.matchEvent t ∧ AnsweredFrom s.store s.matchEvent t' := by
  simp only [AnsweredFrom, queries_append, List.mem_append, or_imp, forall_and]

theorem Search.eq_page (s : Search) {st : PageState} (h : Collects [] (s.answer filter st) events) :
    events = s.page filter st :=
  h.eq_extendEvents (s.store.distinct_query _ _)

/-- A page of a run is that of the search. -/
theorem Page.eq_search (page : Page sender sub s.limit (s.window filter u) paging t events kept)
    (hstore : AnsweredFrom s.store s.matchEvent t) (hcollects : CollectsEvents t)
    (hvisible : JudgedBy s.visible t) :
    events = s.page filter ⟨u, paging⟩ ∧ kept = s.kept filter ⟨u, paging⟩ := by
  obtain ⟨answer, hqueries, hevents⟩ := page.collects hcollects
  obtain rfl : answer = s.answer filter ⟨u, paging⟩ :=
    Except.ok.inj (hstore _ _ (hqueries ▸ List.mem_singleton_self _))
  have hpage : events = s.page filter ⟨u, paging⟩ := s.eq_page hevents
  refine ⟨hpage, ?_⟩
  -- the page is in the right order already
  have hnewer : ((paging.unsent events).filter s.visible).Pairwise Newer :=
    (hevents.newer.filter _).filter _
  rw [page.judgedBy s.visible hvisible, List.mergeSort_of_pairwise
    (hnewer.imp fun h => decide_eq_true h.createdAt_le), hpage, Search.kept]

/-- **What a run of the loop over a filter sends is what the search sends.** -/
theorem FilterRun.sent_eq {r : Except Error Paging}
    (run : FilterRun sender sub s.limit filter' n paging t sent r)
    (hfilter : filter' = s.window filter u) (hr : r = .ok paging')
    (hstore : AnsweredFrom s.store s.matchEvent t) (hcollects : CollectsEvents t)
    (hvisible : JudgedBy s.visible t) :
    sent = s.sentFor filter n ⟨u, paging⟩ := by
  induction run generalizing u with
  | capped => rfl
  | failed => cases hr
  | empty _ n paging _ hqueried =>
    obtain ⟨answer, hqueries, hpage⟩ := hqueried
    have hanswer := hstore _ _ (hqueries ▸ List.mem_singleton_self _)
    rw [hanswer, hfilter] at hpage
    obtain ⟨events, hevents, hmem⟩ := hpage
    obtain rfl := Except.ok.inj hevents
    have hcollected : Collects [] (s.answer filter ⟨u, paging⟩) [] := hcollects _ _ _ hmem
    have hpage : s.page filter ⟨u, paging⟩ = [] := (s.eq_page hcollected).symm
    have hnext : s.next filter ⟨u, paging⟩ = none := by rw [Search.next, hpage]
    rw [Search.sentFor_of_next_eq_none hnext, Search.sent, Search.kept, hpage]
    exact List.take_nil.symm
  | @full n _ paging _ _ _ page hfull =>
    subst hfilter
    obtain ⟨rfl, rfl⟩ := page.eq_search hstore hcollects hvisible
    have hnext : s.next filter ⟨u, paging⟩ = none := Search.next_eq_none (.inl hfull)
    exact (Search.sentFor_of_next_eq_none hnext n).symm
  | @stuck n _ paging _ _ _ page hroom hlast =>
    subst hfilter
    obtain ⟨rfl, rfl⟩ := page.eq_search hstore hcollects hvisible
    have hnext : s.next filter ⟨u, paging⟩ = none := Search.next_eq_none (.inr hlast)
    exact (Search.sentFor_of_next_eq_none hnext n).symm
  | @next n _ paging _ _ _ _ _ last _ page hroom hlast _ ih =>
    subst hfilter
    obtain ⟨hstore, hstore'⟩ := answeredFrom_append.mp hstore
    obtain ⟨hcollects, hcollects'⟩ := collectsEvents_append.mp hcollects
    obtain ⟨hvisible, hvisible'⟩ := judgedBy_append.mp hvisible
    have hne := page.nonempty
    obtain ⟨rfl, rfl⟩ := page.eq_search hstore hcollects hvisible
    have hnext : s.next filter ⟨u, paging⟩ = some ⟨some (last - 1), s.after filter ⟨u, paging⟩⟩ :=
      Search.next_eq_some.mpr ⟨hne, not_le.mp hroom, last, hlast, rfl⟩
    rw [Search.sentFor_of_next_eq_some hnext, ih rfl hr hstore' hcollects' hvisible']
    rfl

/-- What a run of the loop over the filters sends. -/
theorem pushes_processFilters {coordinator : SubscriptionCoordinator} {scope : Scope}
    {filters : List Filter} {sentBefore : List EventId}
    (h : Runs (coordinator.processFilters sub scope s.limit (filters.map (capLimit s.limit))
      sentBefore) t (.ok ()))
    (hstore : AnsweredFrom s.store s.matchEvent t) (hcollects : CollectsEvents t)
    (hvisible : JudgedBy s.visible t) :
    PushesEvents coordinator.outgoingSender sub (s.sentForAll filters sentBefore) t := by
  induction filters generalizing sentBefore t with
  | nil =>
    obtain ⟨rfl, -⟩ := runs_done.mp h
    rfl
  | cons filter filters ih =>
    obtain ⟨t₁, r₁, t₂, rfl, h₁, h₂⟩ := runs_bind.mp h
    obtain ⟨hstore₁, hstore₂⟩ := answeredFrom_append.mp hstore
    obtain ⟨hcollects₁, hcollects₂⟩ := collectsEvents_append.mp hcollects
    obtain ⟨hvisible₁, hvisible₂⟩ := judgedBy_append.mp hvisible
    obtain ⟨sent, run⟩ := runs_processFilter h₁
    match r₁ with
    | .error e => cases (runs_done.mp h₂).2
    | .ok paging' =>
      have hsent : sent = s.sentFor filter maxAttempts ⟨filter.«until», ⟨sentBefore, 0, none⟩⟩ :=
        run.sent_eq rfl rfl hstore₁ hcollects₁ hvisible₁
      have h₂ : Runs (coordinator.processFilters sub scope s.limit
          (filters.map (capLimit s.limit)) paging'.sentEvents) t₂ (.ok ()) := h₂
      rw [run.sentEvents_eq paging' rfl, hsent] at h₂
      exact (hsent ▸ run.pushes).append (ih h₂ hstore₂ hcollects₂ hvisible₂)

end Refinement

/-! ### What a page has -/

/-- The window has the event. -/
def PageState.InWindow (st : PageState) (event : Event) : Prop :=
  ∀ ts, st.windowUntil = some ts → event.createdAt ≤ ts

namespace Search

variable {s : Search} {filter : Filter} {st st' : PageState} {e x : Event} {n : ℕ}

/-- What the page is cut from. -/
def inWindow (s : Search) (filter : Filter) (st : PageState) : Events :=
  s.store.events.filter (s.matchEvent (s.window filter st.windowUntil))

theorem answer_eq_take : s.answer filter st = (s.inWindow filter st).take s.limit := rfl

theorem mem_matchesOf : e ∈ s.matchesOf filter ↔
    e ∈ s.store.events ∧ s.matchEvent filter e = true ∧ s.visible e = true := by
  rw [matchesOf, List.mem_filter, isMatch, Bool.and_eq_true]

theorem mem_answer (h : e ∈ s.answer filter st) : e ∈ s.store.events :=
  (List.mem_filter.mp (List.mem_of_mem_take h)).1

theorem mem_page : e ∈ s.page filter st ↔ e ∈ s.answer filter st := by
  exact (collects_extendEvents .nil _).mem_iff (s.store.distinct_query _ _)

theorem mem_kept : e ∈ s.kept filter st ↔
    e ∈ s.answer filter st ∧ e.id ∉ st.paging.sentEvents ∧ s.visible e = true := by
  rw [kept, List.mem_filter, mem_unsent, mem_page, and_assoc]

theorem nodup_page : (s.page filter st).Nodup :=
  nodup_of_newer (collects_extendEvents .nil _).newer

theorem nodup_kept : (s.kept filter st).Nodup :=
  (nodup_page.filter _).filter _

/-- The search goes on when all that it kept was sent. -/
theorem sent_of_room (h : (s.after filter st).filterSent < s.limit) :
    s.sent filter st = s.kept filter st := by
  have hlength : st.paging.filterSent + (s.sent filter st).length < s.limit := h
  rw [sent, List.length_take] at hlength
  rw [sent, List.take_of_length_le]
  omega

/-! ### Where the search is -/

/-- The search has sent `done` for the filter, after what was sent for others. -/
structure Searching (s : Search) (filter : Filter) (sentBefore : List EventId) (st : PageState)
    (done : Events) : Prop where
  sentEvents : st.paging.sentEvents = sentBefore ++ done.map (·.id)
  filterSent : st.paging.filterSent = done.length
  matched : ∀ x ∈ done, x ∈ s.matchesOf filter
  nodup : done.Nodup
  /-- The window is within that of the filter. -/
  narrow : ∀ e, st.InWindow e → ∀ ts, filter.«until» = some ts → e.createdAt ≤ ts
  last : ∀ ts, st.paging.lastTimestamp = some ts → st.windowUntil = some (ts - 1)

/-- Nothing is left behind: what is outside of the window was sent, and what was sent for the filter
comes before what was not. -/
structure Caught (s : Search) (filter : Filter) (st : PageState) (done : Events) : Prop where
  outside : ∀ e ∈ s.matchesOf filter, e.id ∉ st.paging.sentEvents → st.InWindow e
  before : ∀ x ∈ done, ∀ e ∈ s.matchesOf filter, e.id ∉ st.paging.sentEvents →
    x ∈ earlier s.store.events e

/-- What the loop keeps of the page, in the order of the store. -/
def found (s : Search) (filter : Filter) (st : PageState) : Events :=
  (st.paging.unsent (s.answer filter st)).filter s.visible

/-- The page leaves nothing behind. When the window moves on, it still has every match that was not
sent and is not in the page. When the limit is reached, what is sent is what the store has first. -/
structure Complete (s : Search) (filter : Filter) (st : PageState) : Prop where
  window : ∀ st', s.next filter st = some st' → ∀ e ∈ s.matchesOf filter,
    e.id ∉ st.paging.sentEvents → e ∉ s.answer filter st → st'.InWindow e
  order : s.limit ≤ (s.after filter st).filterSent →
    ∀ e ∈ (s.found filter st).take (s.limit - st.paging.filterSent), e ∈ s.sent filter st

variable {sentBefore : List EventId} {done : Events}

/-- All that a page without `e` has comes before it. -/
theorem mem_earlier_of_mem_answer (hin : e ∈ s.inWindow filter st) (he : e ∉ s.answer filter st)
    (hx : x ∈ s.answer filter st) : x ∈ earlier s.store.events e :=
  ((mem_earlier_filter (List.mem_filter.mp hin).2).mp (mem_earlier_of_notMem_take hx he)).1

theorem mem_found : e ∈ s.found filter st ↔
    e ∈ s.answer filter st ∧ e.id ∉ st.paging.sentEvents ∧ s.visible e = true := by
  rw [found, List.mem_filter, mem_unsent, and_assoc]

theorem nodup_found : (s.found filter st).Nodup :=
  (((s.store.nodup.filter _).sublist (List.take_sublist ..)).filter _).filter _

theorem length_found : (s.found filter st).length = (s.kept filter st).length := by
  refine List.Perm.length_eq ((List.perm_ext_iff_of_nodup nodup_found nodup_kept).mpr fun e => ?_)
  rw [mem_found, mem_kept]

theorem mem_inWindow (hlaws : WindowLaws s.matchEvent)
    (hs : s.Searching filter sentBefore st done) : e ∈ s.inWindow filter st ↔
      e ∈ s.store.events ∧ s.matchEvent filter e = true ∧ st.InWindow e := by
  have hwindow := hlaws filter (some s.limit) st.windowUntil e
  have hfilter := hlaws filter filter.limit filter.«until» e
  rw [inWindow, List.mem_filter, window, hwindow]
  refine and_congr_right fun _ => ⟨fun ⟨h, h'⟩ => ⟨?_, h'⟩, fun ⟨h, h'⟩ => ⟨?_, h'⟩⟩
  · exact hfilter.mpr ⟨h, hs.narrow e h'⟩
  · exact (hfilter.mp h).1

/-- What a page shows matches the filter. -/
theorem mem_matchesOf_of_mem_answer (hlaws : WindowLaws s.matchEvent)
    (hs : s.Searching filter sentBefore st done) (h : e ∈ s.answer filter st)
    (hvisible : s.visible e = true) : e ∈ s.matchesOf filter :=
  let ⟨hstore, hmatch, _⟩ := (mem_inWindow hlaws hs).mp (List.mem_of_mem_take h)
  mem_matchesOf.mpr ⟨hstore, hmatch, hvisible⟩

/-- What is sent matches the filter, was not sent before and is in the window. -/
theorem mem_sent (hlaws : WindowLaws s.matchEvent) (hs : s.Searching filter sentBefore st done)
    (h : e ∈ s.sent filter st) :
    e ∈ s.matchesOf filter ∧ e.id ∉ st.paging.sentEvents ∧ st.InWindow e := by
  obtain ⟨hanswer, hunsent, hvisible⟩ := mem_kept.mp (List.mem_of_mem_take h)
  exact ⟨mem_matchesOf_of_mem_answer hlaws hs hanswer hvisible, hunsent,
    ((mem_inWindow hlaws hs).mp (List.mem_of_mem_take hanswer)).2.2⟩

/-- The window only shrinks. -/
theorem inWindow_of_next (hlaws : WindowLaws s.matchEvent)
    (hs : s.Searching filter sentBefore st done) (hnext : s.next filter st = some st')
    (he : st'.InWindow e) : st.InWindow e := by
  obtain ⟨-, -, last, hlast, rfl⟩ := next_eq_some.mp hnext
  have hle : e.createdAt ≤ last - 1 := he (last - 1) rfl
  intro ts hts
  obtain h | ⟨x, hx, h⟩ :=
    (foldl_older st.paging.lastTimestamp (st.paging.unsent (s.page filter st))).2.2 last hlast
  · rw [hs.last last h] at hts
    exact Option.some.inj hts ▸ hle
  · have hin := (mem_inWindow hlaws hs).mp
      (List.mem_of_mem_take (mem_page.mp (mem_unsent.mp hx).1))
    calc e.createdAt ≤ last - 1 := hle
      _ ≤ last := Nat.sub_le last 1
      _ = x.createdAt := h.symm
      _ ≤ ts := hin.2.2 ts hts

theorem Searching.start (s : Search) (filter : Filter) (sentBefore : List EventId) :
    s.Searching filter sentBefore ⟨filter.«until», ⟨sentBefore, 0, none⟩⟩ [] :=
  ⟨(List.append_nil _).symm, rfl, nofun, List.nodup_nil, fun _ h => h, nofun⟩

theorem Searching.next (hlaws : WindowLaws s.matchEvent)
    (hs : s.Searching filter sentBefore st done) (hnext : s.next filter st = some st') :
    s.Searching filter sentBefore st' (done ++ s.sent filter st) := by
  have hshrinks (e : Event) := inWindow_of_next (e := e) hlaws hs hnext
  obtain ⟨-, -, last, hlast, rfl⟩ := next_eq_some.mp hnext
  refine ⟨?_, ?_, ?_, ?_, fun e he => hs.narrow e (hshrinks e he), fun ts hts => ?_⟩
  · calc (s.after filter st).sentEvents
        = st.paging.sentEvents ++ (s.sent filter st).map (·.id) := rfl
      _ = _ := by rw [hs.sentEvents, List.map_append, List.append_assoc]
  · calc (s.after filter st).filterSent = st.paging.filterSent + (s.sent filter st).length := rfl
      _ = _ := by rw [hs.filterSent, List.length_append]
  · exact List.forall_mem_append.mpr ⟨hs.matched, fun x hx => (mem_sent hlaws hs hx).1⟩
  · refine List.nodup_append.mpr ⟨hs.nodup, nodup_kept.sublist (List.take_sublist ..),
      fun x hx e he heq => (mem_sent hlaws hs he).2.1 ?_⟩
    rw [hs.sentEvents]
    exact List.mem_append_right _ (List.mem_map.mpr ⟨x, hx, congrArg Event.id heq⟩)
  · rw [← Option.some.inj (hlast.symm.trans hts)]

/-- What is sent from here on matches the filter and is in the window. -/
theorem mem_sentFor (hlaws : WindowLaws s.matchEvent)
    (hs : s.Searching filter sentBefore st done) (h : e ∈ s.sentFor filter n st) :
    e ∈ s.matchesOf filter ∧ st.InWindow e := by
  induction n generalizing st done with
  | zero => cases h
  | succ n ih =>
    have hsent (h : e ∈ s.sent filter st) : e ∈ s.matchesOf filter ∧ st.InWindow e :=
      let ⟨hmatch, _, hin⟩ := mem_sent hlaws hs h
      ⟨hmatch, hin⟩
    cases hnext : s.next filter st with
    | none =>
      rw [sentFor_of_next_eq_none hnext] at h
      exact hsent h
    | some st' =>
      rw [sentFor_of_next_eq_some hnext] at h
      refine (List.mem_append.mp h).elim hsent fun h => ?_
      obtain ⟨hmatch, hin⟩ := ih (hs.next hlaws hnext) h
      exact ⟨hmatch, inWindow_of_next hlaws hs hnext hin⟩

theorem Caught.start (hlaws : WindowLaws s.matchEvent) (filter : Filter)
    (sentBefore : List EventId) :
    s.Caught filter ⟨filter.«until», ⟨sentBefore, 0, none⟩⟩ [] := by
  refine ⟨fun e he _ => ?_, nofun⟩
  exact ((hlaws filter filter.limit filter.«until» e).mp (mem_matchesOf.mp he).2.1).2

theorem sentEvents_of_next (hnext : s.next filter st = some st') :
    st'.paging.sentEvents = st.paging.sentEvents ++ (s.sent filter st).map (·.id) := by
  obtain ⟨-, -, last, -, rfl⟩ := next_eq_some.mp hnext
  rfl

/-- An event that was sent by its page is one whose id was sent. -/
theorem mem_sent_of_id_mem (h : e ∈ s.matchesOf filter)
    (hid : e.id ∈ (s.sent filter st).map (·.id)) : e ∈ s.sent filter st := by
  obtain ⟨x, hx, hid⟩ := List.mem_map.mp hid
  have hstore := mem_answer (mem_kept.mp (List.mem_of_mem_take hx)).1
  rwa [← EventStore.eq_of_id_eq hstore (mem_matchesOf.mp h).1 hid]

/-- What the search leaves unsent when it goes on was not in the page. -/
theorem notMem_answer (hnext : s.next filter st = some st') (he : e ∈ s.matchesOf filter)
    (hunsent : e.id ∉ st'.paging.sentEvents) :
    e.id ∉ st.paging.sentEvents ∧ e ∉ s.answer filter st := by
  rw [sentEvents_of_next hnext, List.mem_append, not_or] at hunsent
  refine ⟨hunsent.1, fun hanswer => hunsent.2 (List.mem_map_of_mem ?_)⟩
  rw [sent_of_room (next_eq_some.mp hnext).2.1]
  exact mem_kept.mpr ⟨hanswer, hunsent.1, (mem_matchesOf.mp he).2.2⟩

theorem Caught.next (hlaws : WindowLaws s.matchEvent) (hs : s.Searching filter sentBefore st done)
    (hc : s.Caught filter st done) (hcomplete : s.Complete filter st)
    (hnext : s.next filter st = some st') : s.Caught filter st' (done ++ s.sent filter st) := by
  refine ⟨fun e he hunsent => ?_, fun x hx e he hunsent => ?_⟩
  · obtain ⟨hunsent, hanswer⟩ := notMem_answer hnext he hunsent
    exact hcomplete.window st' hnext e he hunsent hanswer
  · obtain ⟨hunsent, hanswer⟩ := notMem_answer hnext he hunsent
    obtain hx | hx := List.mem_append.mp hx
    · exact hc.before x hx e he hunsent
    · obtain ⟨hstore, hmatch, -⟩ := mem_matchesOf.mp he
      have hin := (mem_inWindow hlaws hs).mpr ⟨hstore, hmatch, hc.outside e he hunsent⟩
      exact mem_earlier_of_mem_answer hin hanswer (mem_kept.mp (List.mem_of_mem_take hx)).1

/-! ### Complete pages are enough -/

/-- What the page has before `e` comes before it in the store. -/
theorem mem_earlier_of_mem_earlier_answer (he : e ∈ s.answer filter st)
    (hx : x ∈ earlier (s.answer filter st) e) : x ∈ earlier s.store.events e := by
  rw [answer_eq_take, earlier_take] at hx
  have hin : e ∈ s.inWindow filter st := List.mem_of_mem_take he
  exact ((mem_earlier_filter (List.mem_filter.mp hin).2).mp (List.mem_of_mem_take hx)).1

theorem mem_earlier_unsent {paging : Paging} {events : Events} (h : e.id ∉ paging.sentEvents) :
    x ∈ earlier (paging.unsent events) e ↔ x ∈ earlier events e ∧ x.id ∉ paging.sentEvents := by
  have hp := mem_earlier_filter (l := events) (a := e) (x := x)
    (p := fun event => decide (event.id ∉ paging.sentEvents)) (decide_eq_true h)
  rwa [decide_eq_true_iff] at hp

theorem mem_earlier_found (he : e ∈ s.found filter st) : x ∈ earlier (s.found filter st) e ↔
    x ∈ earlier (s.answer filter st) e ∧ x.id ∉ st.paging.sentEvents ∧ s.visible x = true := by
  obtain ⟨-, hunsent, hvisible⟩ := mem_found.mp he
  rw [found, mem_earlier_filter hvisible, mem_earlier_unsent hunsent, and_assoc]

theorem mem_states_succ : st' ∈ s.states filter (n + 1) st ↔
    st' = st ∨ ∃ next, s.next filter st = some next ∧ st' ∈ s.states filter n next := by
  rw [states, List.mem_cons]
  cases s.next filter st <;> simp

/-- A search that does not go on has an empty page, has filled the limit, or met nothing that was
not sent. -/
theorem last_page (h : s.next filter st = none) : s.page filter st = [] ∨
    s.limit ≤ (s.after filter st).filterSent ∨ (s.after filter st).lastTimestamp = none := by
  rw [Search.next] at h
  split at h
  · exact .inl ‹_›
  · split at h
    · exact .inr (.inl ‹_›)
    · exact .inr (.inr (Option.map_eq_none_iff.mp h))

/-- On the page that fills the limit, the newest matches are sent. -/
theorem sent_of_full (hlaws : WindowLaws s.matchEvent)
    (hs : s.Searching filter sentBefore st done) (hc : s.Caught filter st done)
    (hcomplete : s.Complete filter st) (hfull : s.limit ≤ (s.after filter st).filterSent)
    (he : e ∈ (s.matchesOf filter).take s.limit) (hunsent : e.id ∉ st.paging.sentEvents) :
    e ∈ s.sent filter st := by
  by_contra hsent
  set first := (s.found filter st).take (s.limit - st.paging.filterSent) with hfirst
  have hnot : e ∉ first := fun h => hsent (hcomplete.order hfull e h)
  have hmatch : e ∈ s.matchesOf filter := List.mem_of_mem_take he
  obtain ⟨hstore, hmatchEvent, hvisible⟩ := mem_matchesOf.mp hmatch
  have hin := (mem_inWindow hlaws hs).mpr ⟨hstore, hmatchEvent, hc.outside e hmatch hunsent⟩
  have hbefore : ∀ x ∈ first, x ∈ earlier s.store.events e := by
    intro x hx
    have hxanswer := (mem_found.mp (List.mem_of_mem_take hx)).1
    by_cases hanswer : e ∈ s.answer filter st
    · have hfound : e ∈ s.found filter st := mem_found.mpr ⟨hanswer, hunsent, hvisible⟩
      exact mem_earlier_of_mem_earlier_answer hanswer
        ((mem_earlier_found hfound).mp (mem_earlier_of_notMem_take hx hnot)).1
    · exact mem_earlier_of_mem_answer hin hanswer hxanswer
  have hnodup : (done ++ first).Nodup := by
    refine List.nodup_append.mpr ⟨hs.nodup, nodup_found.sublist (List.take_sublist ..),
      fun x hx y hy heq => (mem_found.mp (List.mem_of_mem_take hy)).2.1 ?_⟩
    rw [hs.sentEvents]
    exact List.mem_append_right _ (List.mem_map.mpr ⟨x, hx, congrArg Event.id heq⟩)
  have hlt : (done ++ first).length < s.limit := by
    refine length_lt_of_mem_take hnodup he (List.forall_mem_append.mpr ⟨fun x hx => ?_,
      fun x hx => ⟨hbefore x hx, ?_⟩⟩)
    · exact ⟨hc.before x hx e hmatch hunsent, (List.mem_filter.mp (hs.matched x hx)).2⟩
    · obtain ⟨hxanswer, -, hxvisible⟩ := mem_found.mp (List.mem_of_mem_take hx)
      exact (List.mem_filter.mp (mem_matchesOf_of_mem_answer hlaws hs hxanswer hxvisible)).2
  have hlength : s.limit ≤ st.paging.filterSent + (s.sent filter st).length := hfull
  rw [sent, List.length_take, ← length_found] at hlength
  rw [List.length_append, hfirst, List.length_take, ← hs.filterSent] at hlt
  omega

/-- A page that shows nothing new was all of the newest matches. -/
theorem sent_of_stuck (hlaws : WindowLaws s.matchEvent)
    (hs : s.Searching filter sentBefore st done) (hc : s.Caught filter st done)
    (hvisible : ∀ x ∈ s.store.events, x.id ∈ st.paging.sentEvents → s.visible x = true)
    (hlast : (s.after filter st).lastTimestamp = none)
    (he : e ∈ (s.matchesOf filter).take s.limit) : e.id ∈ st.paging.sentEvents := by
  by_contra hunsent
  have hmatch : e ∈ s.matchesOf filter := List.mem_of_mem_take he
  obtain ⟨hstore, hmatchEvent, -⟩ := mem_matchesOf.mp hmatch
  have hin := (mem_inWindow hlaws hs).mpr ⟨hstore, hmatchEvent, hc.outside e hmatch hunsent⟩
  have hold : ∀ x ∈ s.answer filter st, x.id ∈ st.paging.sentEvents := by
    refine fun x hx => by_contra fun hid => ?_
    obtain ⟨ts, hts, -⟩ := (foldl_older st.paging.lastTimestamp
      (st.paging.unsent (s.page filter st))).1 x (mem_unsent.mpr ⟨mem_page.mpr hx, hid⟩)
    exact Option.some_ne_none ts (hts.symm.trans hlast)
  have hanswer : e ∉ s.answer filter st := fun h => hunsent (hold e h)
  have hnodup : (s.answer filter st).Nodup :=
    (s.store.nodup.filter _).sublist (List.take_sublist ..)
  have hlt : (s.answer filter st).length < s.limit := by
    refine length_lt_of_mem_take hnodup he
      fun x hx => ⟨mem_earlier_of_mem_answer hin hanswer hx, ?_⟩
    have hxvisible := hvisible x (mem_answer hx) (hold x hx)
    exact (List.mem_filter.mp (mem_matchesOf_of_mem_answer hlaws hs hx hxvisible)).2
  rw [answer_eq_take, List.length_take] at hlt
  refine hanswer ?_
  rwa [answer_eq_take, List.take_of_length_le (by omega)]

/-- **Complete pages are enough**: such a search sends the newest matches, if they were not sent
before. -/
theorem sends_newest (hlaws : WindowLaws s.matchEvent)
    (hs : s.Searching filter sentBefore st done) (hc : s.Caught filter st done)
    (hvisible : ∀ x ∈ s.store.events, x.id ∈ st.paging.sentEvents → s.visible x = true)
    (hends : s.EndsWithin filter n st)
    (hcomplete : ∀ st' ∈ s.states filter n st, s.Complete filter st')
    (he : e ∈ (s.matchesOf filter).take s.limit) :
    e.id ∈ st.paging.sentEvents ∨ e ∈ s.sentFor filter n st := by
  induction n generalizing st done with
  | zero => exact hends.elim
  | succ n ih =>
    refine or_iff_not_imp_left.mpr fun hunsent => ?_
    have hpage := hcomplete st (mem_states_succ.mpr (.inl rfl))
    have hmatch : e ∈ s.matchesOf filter := List.mem_of_mem_take he
    cases hnext : s.next filter st with
    | none =>
      rw [sentFor_of_next_eq_none hnext]
      obtain hempty | hfull | hlast := last_page hnext
      · -- an empty page with such an event before it: nothing was asked for
        obtain ⟨hstore, hmatchEvent, -⟩ := mem_matchesOf.mp hmatch
        have hin := (mem_inWindow hlaws hs).mpr ⟨hstore, hmatchEvent, hc.outside e hmatch hunsent⟩
        have hlimit : s.limit ≠ 0 := fun h => by rw [h, List.take_zero] at he; cases he
        have hanswer : s.answer filter st = [] :=
          List.eq_nil_iff_forall_not_mem.mpr fun x hx => by
            have := mem_page.mpr hx
            rw [hempty] at this
            cases this
        rw [answer_eq_take, List.take_eq_nil_iff] at hanswer
        exact absurd (hanswer.resolve_left hlimit) (List.ne_nil_of_mem hin)
      · exact sent_of_full hlaws hs hc hpage hfull he hunsent
      · exact absurd (sent_of_stuck hlaws hs hc hvisible hlast he) hunsent
    | some st' =>
      rw [sentFor_of_next_eq_some hnext, List.mem_append]
      have hids := sentEvents_of_next hnext
      have hrest := ih (hs.next hlaws hnext) (hc.next hlaws hs hpage hnext) ?_ (hends st' hnext)
        fun st'' h => hcomplete st'' (mem_states_succ.mpr (.inr ⟨st', hnext, h⟩))
      · refine hrest.imp_left fun hid => mem_sent_of_id_mem hmatch ?_
        rw [hids] at hid
        exact (List.mem_append.mp hid).resolve_left hunsent
      · intro x hx hid
        rw [hids] at hid
        refine (List.mem_append.mp hid).elim (hvisible x hx) fun hid => ?_
        obtain ⟨y, hy, hyid⟩ := List.mem_map.mp hid
        obtain ⟨hanswer, -, hyvisible⟩ := mem_kept.mp (List.mem_of_mem_take hy)
        rwa [← EventStore.eq_of_id_eq (mem_answer hanswer) hx hyid]

/-! ### Nothing less is enough -/

/-- A match that was sent, when nothing else sends it, was sent by the search. -/
theorem mem_done_of_id_mem (hs : s.Searching filter sentBefore st done)
    (hothers : ∀ e ∈ s.matchesOf filter, e.id ∉ sentBefore) (he : e ∈ s.matchesOf filter)
    (hid : e.id ∈ st.paging.sentEvents) : e ∈ done := by
  rw [hs.sentEvents] at hid
  obtain ⟨x, hx, hid⟩ := List.mem_map.mp ((List.mem_append.mp hid).resolve_left (hothers e he))
  have hstore := (mem_matchesOf.mp (hs.matched x hx)).1
  rwa [← EventStore.eq_of_id_eq hstore (mem_matchesOf.mp he).1 hid]

/-- A search that sends the newest matches, when nothing else does, leaves none of the others out of
its next window. -/
theorem inWindow_of_sends (hlaws : WindowLaws s.matchEvent)
    (hs : s.Searching filter sentBefore st done)
    (hothers : ∀ e ∈ s.matchesOf filter, e.id ∉ sentBefore) (hnext : s.next filter st = some st')
    (h : ∀ e ∈ (s.matchesOf filter).take s.limit,
      e.id ∈ st.paging.sentEvents ∨ e ∈ s.sentFor filter (n + 1) st)
    (he : e ∈ s.matchesOf filter) (hunsent : e.id ∉ st.paging.sentEvents)
    (hanswer : e ∉ s.answer filter st) : st'.InWindow e := by
  -- the first match that is left out is one of the newest, since all before it were sent
  induction hplace : (earlier s.store.events e).length using Nat.strong_induction_on
    generalizing e with
  | _ place ih =>
    by_contra hout
    have hroom := (next_eq_some.mp hnext).2.1
    have hsent : ∀ x ∈ earlier s.store.events e, s.isMatch filter x = true →
        x ∈ done ++ s.sent filter st := by
      intro x hx hxmatch
      have hxmem : x ∈ s.matchesOf filter :=
        List.mem_filter.mpr ⟨earlier_sublist.subset hx, hxmatch⟩
      by_cases hxid : x.id ∈ st.paging.sentEvents
      · exact List.mem_append_left _ (mem_done_of_id_mem hs hothers hxmem hxid)
      · by_cases hxanswer : x ∈ s.answer filter st
        · rw [sent_of_room hroom]
          exact List.mem_append_right _
            (mem_kept.mpr ⟨hxanswer, hxid, (mem_matchesOf.mp hxmem).2.2⟩)
        · have hxin := ih _ (hplace ▸ length_earlier_lt hx) hxmem hxid hxanswer rfl
          have hle := rel_of_mem_earlier s.store.newestFirst (mem_matchesOf.mp he).1 hx
          exact absurd (fun ts hts => hle.trans (hxin ts hts)) hout
    have hlength : (done ++ s.sent filter st).length < s.limit := by
      rw [List.length_append, ← hs.filterSent]
      exact hroom
    have hnewest := mem_take_of_length_lt s.store.nodup he hlength hsent
    have hsentFor := (h e hnewest).resolve_left hunsent
    rw [sentFor_of_next_eq_some hnext, List.mem_append] at hsentFor
    refine hsentFor.elim (fun h => hanswer ?_) fun h => hout ?_
    · exact (mem_kept.mp (List.mem_of_mem_take h)).1
    · exact (mem_sentFor hlaws (hs.next hlaws hnext) h).2

/-- A search that sends the newest matches, when nothing else does, sends the first ones of the page
that fills the limit. -/
theorem sent_of_sends (hlaws : WindowLaws s.matchEvent)
    (hs : s.Searching filter sentBefore st done) (hc : s.Caught filter st done)
    (hothers : ∀ e ∈ s.matchesOf filter, e.id ∉ sentBefore)
    (hfull : s.limit ≤ (s.after filter st).filterSent)
    (h : ∀ e ∈ (s.matchesOf filter).take s.limit,
      e.id ∈ st.paging.sentEvents ∨ e ∈ s.sentFor filter (n + 1) st)
    (he : e ∈ (s.found filter st).take (s.limit - st.paging.filterSent)) :
    e ∈ s.sent filter st := by
  obtain ⟨hfound, hplace⟩ := mem_take_iff.mp he
  obtain ⟨hanswer, hunsent, hvisible⟩ := mem_found.mp hfound
  have hin : e ∈ s.inWindow filter st := List.mem_of_mem_take hanswer
  have hbefore : ∀ x ∈ earlier s.store.events e, s.isMatch filter x = true →
      x ∈ done ++ earlier (s.found filter st) e := by
    intro x hx hxmatch
    have hxmem : x ∈ s.matchesOf filter := List.mem_filter.mpr ⟨earlier_sublist.subset hx, hxmatch⟩
    by_cases hxid : x.id ∈ st.paging.sentEvents
    · exact List.mem_append_left _ (mem_done_of_id_mem hs hothers hxmem hxid)
    · obtain ⟨hxstore, hxmatchEvent, hxvisible⟩ := mem_matchesOf.mp hxmem
      have hxin := (mem_inWindow hlaws hs).mpr ⟨hxstore, hxmatchEvent, hc.outside x hxmem hxid⟩
      have hxbefore : x ∈ earlier (s.inWindow filter st) e :=
        (mem_earlier_filter (List.mem_filter.mp hin).2).mpr ⟨hx, (List.mem_filter.mp hxin).2⟩
      exact List.mem_append_right _
        ((mem_earlier_found hfound).mpr ⟨mem_earlier_take hanswer hxbefore, hxid, hxvisible⟩)
  have hlength : (done ++ earlier (s.found filter st) e).length < s.limit := by
    rw [List.length_append, ← hs.filterSent]
    omega
  have hmatch := mem_matchesOf_of_mem_answer hlaws hs hanswer hvisible
  have hsent := (h e (mem_take_of_length_lt s.store.nodup hmatch hlength hbefore)).resolve_left
    hunsent
  rwa [sentFor_of_next_eq_none (next_eq_none (.inl hfull))] at hsent

/-- **Nothing less is enough**: a search that sends the newest matches, when nothing else does, has
complete pages. -/
theorem complete_of_sends (hlaws : WindowLaws s.matchEvent)
    (hs : s.Searching filter sentBefore st done) (hc : s.Caught filter st done)
    (hothers : ∀ e ∈ s.matchesOf filter, e.id ∉ sentBefore)
    (h : ∀ e ∈ (s.matchesOf filter).take s.limit,
      e.id ∈ st.paging.sentEvents ∨ e ∈ s.sentFor filter n st) :
    ∀ st' ∈ s.states filter n st, s.Complete filter st' := by
  induction n generalizing st done with
  | zero => exact nofun
  | succ n ih =>
    have hpage : s.Complete filter st :=
      ⟨fun st' hnext e he hunsent hanswer =>
        inWindow_of_sends hlaws hs hothers hnext h he hunsent hanswer,
        fun hfull e he => sent_of_sends hlaws hs hc hothers hfull h he⟩
    intro st' hst'
    obtain rfl | ⟨next, hnext, hst'⟩ := mem_states_succ.mp hst'
    · exact hpage
    · refine ih (hs.next hlaws hnext) (hc.next hlaws hs hpage hnext) (fun e he => ?_) st' hst'
      rw [sentEvents_of_next hnext, List.mem_append, or_assoc]
      refine (h e he).imp_right fun h => ?_
      rw [sentFor_of_next_eq_some hnext, List.mem_append] at h
      exact h.imp_left List.mem_map_of_mem

/-! ### All filters of a REQ -/

/-- No filter runs out of attempts. -/
def NotCapped (s : Search) (filters : List Filter) (sentBefore : List EventId) : Prop :=
  ∀ start ∈ s.starts filters sentBefore, s.EndsWithin start.1 maxAttempts start.2

/-- No page leaves anything behind. -/
def CompletePages (s : Search) (filters : List Filter) (sentBefore : List EventId) : Prop :=
  ∀ start ∈ s.starts filters sentBefore, ∀ st ∈ s.states start.1 maxAttempts start.2,
    s.Complete start.1 st

/-- No event that may be seen matches two of the filters. -/
def Apart (s : Search) (filters : List Filter) : Prop :=
  filters.Pairwise fun filter filter' => (s.matchesOf filter).Disjoint (s.matchesOf filter')

variable {filters : List Filter}

theorem notCapped_singleton : s.NotCapped [filter] sentBefore ↔
    s.EndsWithin filter maxAttempts ⟨filter.«until», ⟨sentBefore, 0, none⟩⟩ := by
  rw [NotCapped, starts, starts, List.forall_mem_singleton]

theorem completePages_singleton : s.CompletePages [filter] sentBefore ↔
    ∀ st ∈ s.states filter maxAttempts ⟨filter.«until», ⟨sentBefore, 0, none⟩⟩,
      s.Complete filter st := by
  rw [CompletePages, starts, starts, List.forall_mem_singleton]

theorem endsWithin_of_next (hnext : s.next filter st = some st') (h : s.EndsWithin filter n st') :
    s.EndsWithin filter (n + 1) st := by
  intro st'' hst''
  rw [hnext] at hst''
  exact Option.some.inj hst'' ▸ h

theorem endsWithin_of_last (hnext : s.next filter st = none) : s.EndsWithin filter (n + 1) st := by
  intro st' hst'
  rw [hnext] at hst'
  cases hst'

theorem mem_sentForAll (hlaws : WindowLaws s.matchEvent)
    (h : e ∈ s.sentForAll filters sentBefore) : ∃ filter ∈ filters, e ∈ s.matchesOf filter := by
  induction filters generalizing sentBefore with
  | nil => cases h
  | cons filter filters ih =>
    rw [sentForAll, starts, List.flatMap_cons] at h
    obtain h | h := List.mem_append.mp h
    · have hsent := mem_sentFor hlaws (Searching.start s filter sentBefore) h
      exact ⟨filter, List.mem_cons_self .., hsent.1⟩
    · obtain ⟨filter', hfilter, he⟩ := ih h
      exact ⟨filter', List.mem_cons_of_mem filter hfilter, he⟩

/-- What is sent for the first filter, and for the others after it. -/
theorem sentForAll_cons (s : Search) (filter : Filter) (filters : List Filter)
    (sentBefore : List EventId) : ∃ sent, sent =
        s.sentFor filter maxAttempts ⟨filter.«until», ⟨sentBefore, 0, none⟩⟩ ∧
      s.sentForAll (filter :: filters) sentBefore =
        sent ++ s.sentForAll filters (sentBefore ++ sent.map (·.id)) :=
  ⟨_, rfl, rfl⟩

theorem sendsAll_newest (hlaws : WindowLaws s.matchEvent)
    (hvisible : ∀ x ∈ s.store.events, x.id ∈ sentBefore → s.visible x = true)
    (hends : s.NotCapped filters sentBefore) (hcomplete : s.CompletePages filters sentBefore)
    {filter : Filter} (hfilter : filter ∈ filters) (he : e ∈ (s.matchesOf filter).take s.limit) :
    e.id ∈ sentBefore ∨ e ∈ s.sentForAll filters sentBefore := by
  induction filters generalizing sentBefore with
  | nil => cases hfilter
  | cons first filters ih =>
    obtain ⟨sent, hsent, hall⟩ := sentForAll_cons s first filters sentBefore
    rw [hall, List.mem_append, ← or_assoc]
    have hstart := Searching.start s first sentBefore
    rw [NotCapped, starts, List.forall_mem_cons, ← hsent] at hends
    rw [CompletePages, starts, List.forall_mem_cons, ← hsent] at hcomplete
    obtain rfl | hfilter := List.mem_cons.mp hfilter
    · rw [hsent]
      exact .inl (sends_newest hlaws hstart (Caught.start hlaws _ sentBefore) hvisible hends.1
        hcomplete.1 he)
    · have hmatch := (mem_matchesOf.mp (List.mem_of_mem_take he)).1
      have hin (x : Event) (hx : x ∈ sent) : x ∈ s.matchesOf first :=
        (mem_sentFor hlaws hstart (hsent ▸ hx)).1
      refine (ih (fun x hx hid => ?_) hends.2 hcomplete.2 hfilter).imp_left fun hid => ?_
      · refine (List.mem_append.mp hid).elim (hvisible x hx) fun hid => ?_
        obtain ⟨y, hy, hid⟩ := List.mem_map.mp hid
        obtain ⟨hystore, -, hyvisible⟩ := mem_matchesOf.mp (hin y hy)
        rwa [← EventStore.eq_of_id_eq hystore hx hid]
      · refine (List.mem_append.mp hid).imp_right fun hid => ?_
        obtain ⟨y, hy, hid⟩ := List.mem_map.mp hid
        rwa [← EventStore.eq_of_id_eq (mem_matchesOf.mp (hin y hy)).1 hmatch hid]

theorem completePages_of_sends (hlaws : WindowLaws s.matchEvent) (hapart : s.Apart filters)
    (hothers : ∀ filter ∈ filters, ∀ e ∈ s.matchesOf filter, e.id ∉ sentBefore)
    (h : ∀ filter ∈ filters, ∀ e ∈ (s.matchesOf filter).take s.limit,
      e ∈ s.sentForAll filters sentBefore) : s.CompletePages filters sentBefore := by
  induction filters generalizing sentBefore with
  | nil => exact nofun
  | cons first filters ih =>
    obtain ⟨sent, hsent, hall⟩ := sentForAll_cons s first filters sentBefore
    rw [hall] at h
    obtain ⟨hfirst, hapart⟩ := List.pairwise_cons.mp hapart
    rw [List.forall_mem_cons] at hothers h
    have hstart := Searching.start s first sentBefore
    have hin (x : Event) (hx : x ∈ sent) : x ∈ s.matchesOf first :=
      (mem_sentFor hlaws hstart (hsent ▸ hx)).1
    rw [CompletePages, starts, List.forall_mem_cons, ← hsent]
    refine ⟨?_, ih hapart (fun filter hfilter e he hid => ?_) fun filter hfilter e he => ?_⟩
    · refine complete_of_sends hlaws hstart (Caught.start hlaws first sentBefore) hothers.1
        fun e he => .inr ?_
      rw [← hsent]
      refine (List.mem_append.mp (h.1 e he)).resolve_right fun hrest => ?_
      obtain ⟨filter, hfilter, hmatch⟩ := mem_sentForAll hlaws hrest
      exact hfirst filter hfilter (List.mem_of_mem_take he) hmatch
    · refine (List.mem_append.mp hid).elim (hothers.2 filter hfilter e he) fun hid => ?_
      obtain ⟨y, hy, hid⟩ := List.mem_map.mp hid
      have hystore := (mem_matchesOf.mp (hin y hy)).1
      obtain rfl := EventStore.eq_of_id_eq hystore (mem_matchesOf.mp he).1 hid
      exact hfirst filter hfilter (hin y hy) he
    · refine (List.mem_append.mp (h.2 filter hfilter e he)).resolve_left fun hsent => ?_
      exact hfirst filter hfilter (hin e hsent) (List.mem_of_mem_take he)

end Search

/-- The newest events that match a filter and may be seen are sent, for each of the filters, as many
as the limit allows. -/
def SendsNewest (s : Search) (sender : MessageSender) (sub : SubscriptionId) (filters : List Filter)
    (t : RelayHistory) : Prop :=
  ∀ filter ∈ filters, ∀ e ∈ (s.matchesOf filter).take s.limit,
    (sender.channel, sender.packetBypass (.event sub e)) ∈ pushed t

section Answers

variable {t t' : RelayHistory} {sender : MessageSender} {sub : SubscriptionId}

theorem PushesEvents.mem_pushed_iff {events : Events} (h : PushesEvents sender sub events t)
    {e : Event} : (sender.channel, sender.packetBypass (.event sub e)) ∈ pushed t ↔ e ∈ events := by
  rw [h, List.mem_map]
  refine ⟨?_, fun he => ⟨e, he, rfl⟩⟩
  rintro ⟨e', he', heq⟩
  cases heq
  exact he'

/-- What the loops over the filters of a REQ work with. -/
def searchFor (coordinator : SubscriptionCoordinator) (filters : List Filter) (store : EventStore)
    (matchEvent : Filter → Event → Bool) (visible : Event → Bool) : Search :=
  ⟨store, matchEvent, visible, coordinator.smallestLimit filters⟩

/-- What an answer that succeeds pushes, besides EOSE. -/
theorem pushes_processHistoricalEvents {matchEvent : Filter → Event → Bool} {store : EventStore}
    {visible : Event → Bool} {coordinator : SubscriptionCoordinator} {filters : List Filter}
    {scope : Scope} (hstore : AnsweredFrom store matchEvent t) (hcollects : CollectsEvents t)
    (hvisible : JudgedBy visible t)
    (h : Runs (coordinator.processHistoricalEvents sub filters scope) t (.ok ())) (e : Event) :
    (coordinator.outgoingSender.channel,
        coordinator.outgoingSender.packetBypass (.event sub e)) ∈ pushed t ↔
      e ∈ (searchFor coordinator filters store matchEvent visible).sentForAll filters [] := by
  set s := searchFor coordinator filters store matchEvent visible with hs
  obtain ⟨t₁, r₁, tail, rfl, h₁, h₂⟩ := runs_bind.mp h
  match r₁ with
  | .error e => cases (runs_done.mp h₂).2
  | .ok () =>
    obtain ⟨t₂, sentEose, t₃, rfl, h₃, h₄⟩ := runs_bind.mp h₂
    obtain ⟨r₀, t₄, rfl, h₅⟩ := runs_request_bind.mp h₃
    obtain ⟨rfl, rfl⟩ := runs_done.mp h₅
    match r₀ with
    | .error e =>
      obtain ⟨text, t₅, rfl, h₆⟩ := runs_request_bind.mp h₄
      cases (runs_done.mp h₆).2
    | .ok () =>
      obtain ⟨rfl, -⟩ := runs_done.mp h₄
      have hpushes : PushesEvents coordinator.outgoingSender sub (s.sentForAll filters []) t₁ :=
        pushes_processFilters h₁ (answeredFrom_append (s := s).mp hstore).1
          (collectsEvents_append.mp hcollects).1 (judgedBy_append.mp hvisible).1
      rw [pushed_append, List.mem_append, hpushes.mem_pushed_iff]
      refine or_iff_left fun hmem => ?_
      cases List.mem_singleton.mp hmem

/-- **When a REQ is answered with the newest matches.** It is when every page is complete, and only
then if no event matches two of the filters. The library collects the events of a page as it
says. -/
theorem sendsNewest_iff {matchEvent : Filter → Event → Bool} (hlaws : WindowLaws matchEvent)
    (store : EventStore) (visible : Event → Bool) (coordinator : SubscriptionCoordinator)
    (sub : SubscriptionId) (filters : List Filter) (scope : Scope) {t : RelayHistory}
    (hstore : AnsweredFrom store matchEvent t) (hcollects : CollectsEvents t)
    (hvisible : JudgedBy visible t)
    (hends : (searchFor coordinator filters store matchEvent visible).NotCapped filters [])
    (h : Runs (coordinator.processHistoricalEvents sub filters scope) t (.ok ())) :
    let s := searchFor coordinator filters store matchEvent visible
    (s.CompletePages filters [] → SendsNewest s coordinator.outgoingSender sub filters t) ∧
      (s.Apart filters →
        (SendsNewest s coordinator.outgoingSender sub filters t ↔ s.CompletePages filters [])) := by
  intro s
  have hpushed := pushes_processHistoricalEvents hstore hcollects hvisible h
  have henough (hcomplete : s.CompletePages filters []) :
      SendsNewest s coordinator.outgoingSender sub filters t := by
    intro filter hfilter e he
    refine (hpushed e).mpr ?_
    exact (Search.sendsAll_newest hlaws (fun _ _ h => absurd h List.not_mem_nil) hends hcomplete
      hfilter he).resolve_left List.not_mem_nil
  refine ⟨henough, fun hapart => ⟨fun hsends => ?_, henough⟩⟩
  exact Search.completePages_of_sends hlaws hapart (fun _ _ _ _ => List.not_mem_nil)
    fun filter hfilter e he => (hpushed e).mp (hsends filter hfilter e he)

end Answers

theorem windowLaws_matchEvent : WindowLaws Filter.matchEvent := by
  intro filter limit u event
  simp only [Filter.matchEvent, Bool.and_eq_true, Option.all_eq_true, decide_eq_true_eq,
    Option.all_none, and_true]
  tauto

/-! ### Two pages -/

/-- A note of that second. -/
private def noteAt (id : EventId) (createdAt : Timestamp) : Event :=
  { Event.note id with createdAt := createdAt }

/-- A store with a note that is hidden, and two that may be seen. -/
private def threeNotes (createdAt : Timestamp) (h : createdAt ≤ 9) : EventStore where
  events := [noteAt 1 10, noteAt 2 9, noteAt 3 createdAt]
  newestFirst := by
    refine List.pairwise_cons.mpr ⟨?_, List.pairwise_pair.mpr h⟩
    simp only [List.mem_cons, List.not_mem_nil, or_false, forall_eq_or_imp, forall_eq]
    exact ⟨by decide, h.trans (by decide)⟩
  distinct := show ([1, 2, 3] : List EventId).Nodup by decide

/-- The first note is hidden. -/
private def notFirst (event : Event) : Bool := decide (event.id ≠ 1)

private def nobody : EventContext := ⟨none, .default, 0⟩

/-- The first page, of the hidden note and the second. -/
private def firstPage : RelayHistory :=
  [⟨.scopedView .default, .ok ()⟩,
    ⟨.query { Filter.new with limit := some 2 } .default, .ok [noteAt 1 10, noteAt 2 9]⟩,
    ⟨.extend [] [noteAt 1 10, noteAt 2 9], [noteAt 1 10, noteAt 2 9]⟩,
    ⟨.eventContext, nobody⟩, ⟨.canSeeEvent (noteAt 1 10) nobody, .ok false⟩,
    ⟨.eventContext, nobody⟩, ⟨.canSeeEvent (noteAt 2 9) nobody, .ok true⟩,
    ⟨.trySend 0 ⟨.event "feed" (noteAt 2 9), 0, none⟩, .ok ()⟩]

private def eoseSent : RelayHistory := [⟨.trySend 0 ⟨.endOfStoredEvents "feed", 0, none⟩, .ok ()⟩]

private def alice : SubscriptionCoordinator := ⟨"alice", ⟨0, 0⟩, 500⟩

private def twoNotes : List Filter := [{ Filter.new with limit := some 2 }]

/-- The query of the second page. -/
private def upToEight : Filter := { Filter.new with limit := some 2, «until» := some 8 }

/-- The second page, when the third note has the second of the second one. -/
private def noPage : RelayHistory :=
  [⟨.scopedView .default, .ok ()⟩, ⟨.query upToEight .default, .ok []⟩, ⟨.extend [] [], []⟩]

/-- The second page, when the third note is older. -/
private def secondPage : RelayHistory :=
  [⟨.scopedView .default, .ok ()⟩, ⟨.query upToEight .default, .ok [noteAt 3 8]⟩,
    ⟨.extend [] [noteAt 3 8], [noteAt 3 8]⟩,
    ⟨.eventContext, nobody⟩, ⟨.canSeeEvent (noteAt 3 8) nobody, .ok true⟩,
    ⟨.trySend 0 ⟨.event "feed" (noteAt 3 8), 0, none⟩, .ok ()⟩]

/-- A page as the store answers it. -/
private theorem runs_query (filter : Filter) (scope : Scope) (answer : Events) :
    Runs (RelayDatabase.query [filter] scope)
      [⟨.scopedView scope, .ok ()⟩, ⟨.query filter scope, .ok answer⟩,
        ⟨.extend [] answer, answer⟩] (.ok answer) :=
  .ask _ <| .ask _ <| .ask _ <| .done _

private theorem runs_filterFn (event : Event) (context : EventContext) (b : Bool) :
    Runs (filterFn event) [⟨.eventContext, context⟩, ⟨.canSeeEvent event context, .ok b⟩] b :=
  .ask _ <| .ask _ <| .done _

/-- A second page after the first one makes a whole answer. -/
private theorem runs_twoPages {t : RelayHistory} (paging : Paging)
    (h : Runs (alice.processFilter "feed" .default 2 upToEight 49 ⟨[2], 1, some 9⟩) t
      (.ok paging)) :
    Runs (alice.processHistoricalEvents "feed" twoNotes .default) (firstPage ++ t ++ eoseSent)
      (.ok ()) := by
  have hkept : Runs (filterPage ⟨[], 0, none⟩ [noteAt 1 10, noteAt 2 9] [])
      [⟨.eventContext, nobody⟩, ⟨.canSeeEvent (noteAt 1 10) nobody, .ok false⟩,
        ⟨.eventContext, nobody⟩, ⟨.canSeeEvent (noteAt 2 9) nobody, .ok true⟩]
      ([noteAt 2 9], ⟨[], 0, some 9⟩) :=
    runs_bind.mpr ⟨_, _, _, rfl, runs_filterFn (noteAt 1 10) nobody false,
      runs_bind.mpr ⟨_, _, [], rfl, runs_filterFn (noteAt 2 9) nobody true, .done _⟩⟩
  have hpage : Runs (alice.processFilter "feed" .default 2 { Filter.new with limit := some 2 }
      maxAttempts ⟨[], 0, none⟩) (firstPage ++ t) (.ok paging) := by
    refine runs_bind.mpr ⟨[_, _, _], _, [_, _, _, _, _] ++ t, rfl,
      runs_query _ .default [noteAt 1 10, noteAt 2 9], ?_⟩
    refine runs_bind.mpr ⟨_, _, [_] ++ t, rfl, hkept, ?_⟩
    refine runs_bind.mpr ⟨[_], ⟨[2], 1, some 9⟩, t, rfl, ?_, h⟩
    rw [List.mergeSort_singleton]
    exact .ask _ <| .done _
  refine runs_bind.mpr ⟨firstPage ++ t, .ok (), eoseSent, rfl, ?_, .ask _ <| .done _⟩
  exact runs_bind.mpr ⟨_, .ok paging, [], (List.append_nil _).symm, hpage, .done _⟩

private theorem runs_noPage :
    Runs (alice.processHistoricalEvents "feed" twoNotes .default) (firstPage ++ noPage ++ eoseSent)
      (.ok ()) := by
  refine runs_twoPages ⟨[2], 1, some 9⟩ ?_
  exact runs_bind.mpr ⟨_, _, [], rfl, runs_query upToEight .default [], .done _⟩

private theorem runs_secondPage :
    Runs (alice.processHistoricalEvents "feed" twoNotes .default)
      (firstPage ++ secondPage ++ eoseSent) (.ok ()) := by
  have hkept : Runs (filterPage ⟨[2], 1, some 9⟩ [noteAt 3 8] [])
      [⟨.eventContext, nobody⟩, ⟨.canSeeEvent (noteAt 3 8) nobody, .ok true⟩]
      ([noteAt 3 8], ⟨[2], 1, some 8⟩) :=
    runs_bind.mpr ⟨_, _, [], rfl, runs_filterFn (noteAt 3 8) nobody true, .done _⟩
  refine runs_twoPages ⟨[2, 3], 2, some 8⟩ ?_
  refine runs_bind.mpr ⟨[_, _, _], _, [_, _, _], rfl,
    runs_query upToEight .default [noteAt 3 8], ?_⟩
  refine runs_bind.mpr ⟨_, _, [_], rfl, hkept, ?_⟩
  refine runs_bind.mpr ⟨[_], ⟨[2, 3], 2, some 8⟩, [], rfl, ?_, .done _⟩
  rw [List.mergeSort_singleton]
  exact .ask _ <| .done _

/-- What the loop of these answers works with. -/
private abbrev notesSearch (store : EventStore) : Search :=
  searchFor alice twoNotes store Filter.matchEvent notFirst

/-- The filter as it is asked for. -/
private abbrev twoFilter : Filter := { Filter.new with limit := some 2 }

private abbrev firstState : PageState := ⟨none, ⟨[], 0, none⟩⟩

private abbrev secondState : PageState := ⟨some 8, ⟨[2], 1, some 9⟩⟩

/-- The first page moves the window, and the second one is the last. -/
private theorem notCapped_notes {store : EventStore}
    (hfirst : (notesSearch store).next twoFilter firstState = some secondState)
    (hsecond : (notesSearch store).next twoFilter secondState = none) :
    (notesSearch store).NotCapped twoNotes [] := by
  exact Search.notCapped_singleton.mpr <|
    Search.endsWithin_of_next (n := 49) hfirst <| Search.endsWithin_of_last (n := 48) hsecond

private theorem judgedBy_firstPage {t : RelayHistory} (h : JudgedBy notFirst t) :
    JudgedBy notFirst (firstPage ++ t ++ eoseSent) := by
  refine judgedBy_append.mpr ⟨judgedBy_append.mpr ⟨fun event context r hmem => ?_, h⟩,
    fun event context r hmem => ?_⟩
  · simp only [firstPage, List.mem_cons, List.not_mem_nil, or_false] at hmem
    rcases hmem with h | h | h | h | h | h | h | h <;> cases h <;> rfl
  · cases List.mem_singleton.mp hmem

private theorem collectsEvents_firstPage {t : RelayHistory} (h : CollectsEvents t) :
    CollectsEvents (firstPage ++ t ++ eoseSent) := by
  refine collectsEvents_append.mpr ⟨collectsEvents_append.mpr
    ⟨fun all events collected hmem => ?_, h⟩, fun all events collected hmem => ?_⟩
  · simp only [firstPage, List.mem_cons, List.not_mem_nil, or_false] at hmem
    rcases hmem with h | h | h | h | h | h | h | h <;> cases h
    exact collects_of_newer (by decide)
  · cases List.mem_singleton.mp hmem

/-- The third note, of the second at which the first page ends, may be seen and is never asked
for. -/
theorem third_note_left_out :
    AnsweredFrom (threeNotes 9 le_rfl) Filter.matchEvent (firstPage ++ noPage ++ eoseSent) ∧
      CollectsEvents (firstPage ++ noPage ++ eoseSent) ∧
      JudgedBy notFirst (firstPage ++ noPage ++ eoseSent) ∧
      (notesSearch (threeNotes 9 le_rfl)).NotCapped twoNotes [] ∧
      Runs (alice.processHistoricalEvents "feed" twoNotes .default)
        (firstPage ++ noPage ++ eoseSent) (.ok ()) ∧
      ¬ SendsNewest (notesSearch (threeNotes 9 le_rfl)) alice.outgoingSender "feed" twoNotes
        (firstPage ++ noPage ++ eoseSent) := by
  refine ⟨fun filter r hmem => ?_, collectsEvents_firstPage fun all events collected hmem => ?_,
    judgedBy_firstPage fun event context r hmem => ?_, notCapped_notes rfl rfl, runs_noPage,
    fun h => ?_⟩
  · obtain heq | heq := List.mem_pair.mp hmem
    · cases heq
      rfl
    · cases heq
      rfl
  · simp only [noPage, List.mem_cons, List.not_mem_nil, or_false] at hmem
    rcases hmem with h | h | h <;> cases h
    exact collects_of_newer .nil
  · simp only [noPage, List.mem_cons, List.not_mem_nil, or_false] at hmem
    rcases hmem with h | h | h <;> cases h
  · have hmem := h twoFilter (List.mem_cons_self ..) (noteAt 3 9) (by decide)
    revert hmem
    decide

/-- When the third note is older, both notes that may be seen are sent. -/
theorem both_notes_sent :
    SendsNewest (notesSearch (threeNotes 8 (by decide))) alice.outgoingSender "feed" twoNotes
      (firstPage ++ secondPage ++ eoseSent) := by
  have hfirst : (notesSearch (threeNotes 8 (by decide))).next twoFilter firstState =
      some secondState := rfl
  have hsecond : (notesSearch (threeNotes 8 (by decide))).next twoFilter secondState = none := rfl
  refine (sendsNewest_iff windowLaws_matchEvent (threeNotes 8 (by decide)) notFirst alice "feed"
    twoNotes .default (fun filter r hmem => ?_)
    (collectsEvents_firstPage fun all events collected hmem => ?_)
    (judgedBy_firstPage fun event context r hmem => ?_) (notCapped_notes hfirst hsecond)
    runs_secondPage).1
    (Search.completePages_singleton.mpr fun st hst => ?_)
  · obtain heq | heq := List.mem_pair.mp hmem <;> cases heq <;> rfl
  · simp only [secondPage, List.mem_cons, List.not_mem_nil, or_false] at hmem
    rcases hmem with h | h | h | h | h | h <;> cases h
    exact collects_of_newer (List.pairwise_singleton ..)
  · simp only [secondPage, List.mem_cons, List.not_mem_nil, or_false] at hmem
    rcases hmem with h | h | h | h | h | h <;> cases h
    rfl
  · obtain rfl | ⟨st', hnext, hst⟩ := Search.mem_states_succ (n := 49).mp hst
    · refine ⟨fun st' hnext e he hunsent hanswer => ?_, fun hfull => absurd hfull (by decide)⟩
      obtain rfl := Option.some.inj (hfirst.symm.trans hnext)
      obtain rfl | rfl := List.mem_pair.mp he
      · exact absurd (by decide) hanswer
      · exact fun ts hts => (Option.some.inj hts).le
    · obtain rfl := Option.some.inj (hfirst.symm.trans hnext)
      have hlast (st' : PageState)
          (h : (notesSearch (threeNotes 8 (by decide))).next twoFilter secondState = some st') :
          False := nomatch hsecond.symm.trans h
      obtain rfl | ⟨st', hnext, -⟩ := Search.mem_states_succ (n := 48).mp hst
      · exact ⟨fun st' hnext => (hlast st' hnext).elim, fun _ => by decide⟩
      · exact (hlast st' hnext).elim

end RelayBuilder
