import RelayBuilder.Interleave.Pool
import RelayBuilder.Interleave.Triple

/-!
# Objects that are used by one call at a time

Some of the calls of a run, the ones that satisfy `mine`, work on one object, and no two of them
overlap. The others run freely, among themselves and against these. The object then behaves as if
it were used sequentially: its abstract value is the fold of the `mine` calls in the order of
their start, and each of them returns what it may return at the value it found.

## Main results

* `Exclusive.run`: the value and the results of every run
-/

namespace Interleave

variable {Op L σ ρ B : Type}

/-- The contracts that the calls have to keep. The value of the object is described by `Own`;
calls that are not `mine` change the state only by `frame`, which keeps `Own`. -/
structure Exclusive (code : ℕ → Op → Prog L σ ρ) (I : σ → Prop) (weak frame : σ → σ → Prop)
    (mine : Op → Prop) (Own : B → σ → Prop) (apply : Op → B → B) (Res : Op → B → ρ → Prop) :
    Prop where
  weak_trans : ∀ a b c, weak a b → weak b c → weak a c
  frame_refl : ∀ s, frame s s
  frame_trans : ∀ a b c, frame a b → frame b c → frame a c
  weak_of_frame : ∀ s s', frame s s' → weak s s'
  own_frame : ∀ b, Stable I frame (Own b)
  apply_other : ∀ op b, ¬ mine op → apply op b = b
  other : ∀ i op, ¬ mine op → Triple I weak frame (fun _ => True) (code i op) fun _ _ => True
  own : ∀ i op b, mine op → Triple I frame weak (Own b) (code i op) fun r s =>
    Own (apply op b) s ∧ Res op b r

/-- No two `mine` calls overlap. -/
def serial (mine : Op → Prop) (c : Config Op L σ ρ) : Move Op → Prop
  | .start op => mine op → ∀ call ∈ c.calls, mine call.op → call.result? ≠ none
  | .step _ => True

instance (mine : Op → Prop) [DecidablePred mine] (c : Config Op L σ ρ) (m : Move Op) :
    Decidable (serial mine c m) :=
  match m with
  | .start op => inferInstanceAs (Decidable (mine op → ∀ call ∈ c.calls, mine call.op →
      call.result? ≠ none))
  | .step _ => inferInstanceAs (Decidable True)

/-- The value of the object after the given calls, in the order of their start. -/
def valueAfter (apply : Op → B → B) (b : B) (ops : List Op) : B :=
  ops.foldl (fun b op => apply op b) b

namespace Exclusive

variable {code : ℕ → Op → Prog L σ ρ} {I : σ → Prop} {weak frame : σ → σ → Prop}
  {mine : Op → Prop} {Own : B → σ → Prop} {apply : Op → B → B} {Res : Op → B → ρ → Prop} {b : B}

/-- Whether a `mine` call is under way: if not, the state holds the value of the object, if so,
that call is on its way there. -/
inductive Turn (I : σ → Prop) (weak frame : σ → σ → Prop) (mine : Op → Prop) (Own : B → σ → Prop)
    (apply : Op → B → B) (Res : Op → B → ρ → Prop) (b : B) (c : Config Op L σ ρ) : Prop where
  | idle (quiet : ∀ call ∈ c.calls, mine call.op → call.result? ≠ none)
      (own : Own (valueAfter apply b c.ops) c.state)
  | busy (i : ℕ) (call : Call Op L σ ρ) (at_i : c.calls[i]? = some call) (is_mine : mine call.op)
      (unfinished : call.result? = none)
      (others : ∀ j call', c.calls[j]? = some call' → mine call'.op → j ≠ i →
        call'.result? ≠ none)
      (later : ∀ op ∈ c.ops.drop (i + 1), ¬ mine op)
      (ensures : call.prog.Ensures I frame weak (fun r s =>
        Own (apply call.op (valueAfter apply b (c.ops.take i))) s ∧
          Res call.op (valueAfter apply b (c.ops.take i)) r) c.state)

/-- What holds between the moves of a run. -/
structure Inv (I : σ → Prop) (weak frame : σ → σ → Prop) (mine : Op → Prop) (Own : B → σ → Prop)
    (apply : Op → B → B) (Res : Op → B → ρ → Prop) (b : B) (c : Config Op L σ ρ) : Prop where
  inv : I c.state
  other : ∀ call ∈ c.calls, ¬ mine call.op →
    call.prog.Ensures I weak frame (fun _ _ => True) c.state
  turn : Turn I weak frame mine Own apply Res b c
  results : ∀ i call r, c.calls[i]? = some call → mine call.op → call.result? = some r →
    Res call.op (valueAfter apply b (c.ops.take i)) r

theorem valueAfter_append (ops ops' : List Op) :
    valueAfter apply b (ops ++ ops') = valueAfter apply (valueAfter apply b ops) ops' :=
  List.foldl_append

/-- Calls that are not `mine` do not count. -/
theorem valueAfter_other (h : Exclusive code I weak frame mine Own apply Res) {ops : List Op}
    (hother : ∀ op ∈ ops, ¬ mine op) : valueAfter apply b ops = b := by
  induction ops generalizing b with
  | nil => rfl
  | cons op ops ih =>
    rw [valueAfter, List.foldl_cons, h.apply_other _ _ (hother op (List.mem_cons_self ..))]
    exact ih fun op' h' => hother op' (List.mem_cons_of_mem _ h')

/-- The value after a call that no other `mine` call follows. -/
theorem valueAfter_last (h : Exclusive code I weak frame mine Own apply Res) {ops : List Op}
    {i : ℕ} {op : Op} (hi : ops[i]? = some op) (hlater : ∀ op' ∈ ops.drop (i + 1), ¬ mine op') :
    valueAfter apply b ops = apply op (valueAfter apply b (ops.take i)) := by
  obtain ⟨hlt, rfl⟩ := List.getElem?_eq_some_iff.mp hi
  have hsplit : ops = ops.take i ++ (ops[i] :: ops.drop (i + 1)) := by
    rw [← List.drop_eq_getElem_cons hlt, List.take_append_drop]
  calc valueAfter apply b ops
      = valueAfter apply (valueAfter apply b (ops.take i)) (ops[i] :: ops.drop (i + 1)) := by
        conv_lhs => rw [hsplit]
        exact valueAfter_append _ _
    _ = apply ops[i] (valueAfter apply b (ops.take i)) := h.valueAfter_other hlater

/-- A contract at the end of its program gives its postcondition. -/
theorem result_of_ensures {frame weak : σ → σ → Prop} (hrefl : ∀ s, frame s s)
    {call : Call Op L σ ρ} {Q : ρ → σ → Prop} {s : σ} {r : ρ} (hI : I s) (h : call.prog.Ensures I frame weak Q s)
    (hr : call.result? = some r) : Q r s := by
  obtain ⟨op, prog⟩ := call
  cases prog with
  | done a =>
    cases hr
    exact h s (hrefl s) hI
  | act l r e n => cases hr

/-- After a move of the only `mine` call that may be under way. -/
theorem Inv.settle (h : Exclusive code I weak frame mine Own apply Res) {c : Config Op L σ ρ}
    (i : ℕ) (call : Call Op L σ ρ) (hinv : I c.state)
    (hother : ∀ call ∈ c.calls, ¬ mine call.op →
      call.prog.Ensures I weak frame (fun _ _ => True) c.state)
    (hi : c.calls[i]? = some call) (hmine : mine call.op)
    (hothers : ∀ j call', c.calls[j]? = some call' → mine call'.op → j ≠ i →
      call'.result? ≠ none)
    (hlater : ∀ op ∈ c.ops.drop (i + 1), ¬ mine op)
    (hens : call.prog.Ensures I frame weak (fun r s =>
      Own (apply call.op (valueAfter apply b (c.ops.take i))) s ∧
        Res call.op (valueAfter apply b (c.ops.take i)) r) c.state)
    (hres : ∀ j call' r, c.calls[j]? = some call' → mine call'.op → j ≠ i →
      call'.result? = some r → Res call'.op (valueAfter apply b (c.ops.take j)) r) :
    Inv I weak frame mine Own apply Res b c := by
  refine ⟨hinv, hother, ?_, fun j call' r hj hmine' hr => ?_⟩
  · by_cases hend : call.result? = none
    · exact .busy i call hi hmine hend hothers hlater hens
    · obtain ⟨r, hr⟩ := Option.ne_none_iff_exists'.mp hend
      obtain ⟨hown, -⟩ := result_of_ensures h.frame_refl hinv hens hr
      refine .idle (fun call' hmem hmine' => ?_) ?_
      · obtain ⟨j, hj⟩ := List.mem_iff_getElem?.mp hmem
        by_cases hji : j = i
        · subst hji
          rw [hi, Option.some.injEq] at hj
          exact hj ▸ hend
        · exact hothers j call' hj hmine' hji
      · rw [h.valueAfter_last (Config.getElem?_ops hi) hlater]
        exact hown
  · by_cases hji : j = i
    · subst hji
      rw [hi, Option.some.injEq] at hj
      subst hj
      exact (result_of_ensures h.frame_refl hinv hens hr).2
    · exact hres j call' r hj hmine' hji hr

/-- A move that is not one of the call under way keeps the turn, if it is a `frame` change. -/
theorem Turn.keep (h : Exclusive code I weak frame mine Own apply Res) {c c' : Config Op L σ ρ}
    (ht : Turn I weak frame mine Own apply Res b c) (hI : I c'.state)
    (hframe : frame c.state c'.state)
    (hold : ∀ (i : ℕ) call, c.calls[i]? = some call → mine call.op → c'.calls[i]? = some call)
    (hnew : ∀ (i : ℕ) call, c'.calls[i]? = some call → mine call.op → c.calls[i]? = some call)
    (ops : List Op) (hops : c'.ops = c.ops ++ ops) (hother : ∀ op ∈ ops, ¬ mine op) :
    Turn I weak frame mine Own apply Res b c' := by
  cases ht with
  | idle quiet own =>
    refine .idle (fun call hmem hmine => ?_) ?_
    · obtain ⟨i, hi⟩ := List.mem_iff_getElem?.mp hmem
      exact quiet call (List.mem_of_getElem? (hnew i call hi hmine)) hmine
    · rw [hops, valueAfter_append, h.valueAfter_other hother]
      exact h.own_frame _ _ _ hframe hI own
  | busy i call at_i is_mine unfinished others later ensures =>
    have hlt : i < c.ops.length := by simpa using (List.getElem?_eq_some_iff.mp at_i).1
    refine .busy i call (hold i call at_i is_mine) is_mine unfinished
      (fun j call' hj hmine' => others j call' (hnew j call' hj hmine') hmine') ?_ ?_
    · rw [hops, List.drop_append_of_le_length hlt]
      intro op hop
      rcases List.mem_append.mp hop with hop | hop
      · exact later op hop
      · exact hother op hop
    · rw [hops, List.take_append_of_le_length (Nat.le_of_lt hlt)]
      exact ensures.rely h.frame_trans hframe

/-- The start of a call. -/
theorem Inv.start (h : Exclusive code I weak frame mine Own apply Res) {c : Config Op L σ ρ}
    (hc : Inv I weak frame mine Own apply Res b c) {op : Op} (hok : serial mine c (.start op)) :
    Inv I weak frame mine Own apply Res b
      ⟨c.state, c.calls ++ [⟨op, code c.calls.length op⟩]⟩ := by
  have hops := Config.ops_start c ⟨op, code c.calls.length op⟩
  have hold : ∀ (j : ℕ) call, (c.calls ++ [⟨op, code c.calls.length op⟩])[j]? = some call →
      (mine op → j ≠ c.calls.length) → mine call.op → c.calls[j]? = some call := by
    intro j call hj hne hmine
    by_cases hlt : j < c.calls.length
    · rwa [List.getElem?_append_left hlt] at hj
    · have hlen := (List.getElem?_eq_some_iff.mp hj).1
      have heq : j = c.calls.length := by
        simp only [List.length_append, List.length_singleton] at hlen
        omega
      subst heq
      rw [List.getElem?_append_right (Nat.le_refl _), Nat.sub_self, List.getElem?_cons_zero,
        Option.some.injEq] at hj
      subst hj
      exact absurd rfl (hne hmine)
  have hres : ∀ (j : ℕ) call r,
      (c.calls ++ [⟨op, code c.calls.length op⟩])[j]? = some call →
      mine call.op → (mine op → j ≠ c.calls.length) → call.result? = some r →
      Res call.op (valueAfter apply b ((c.ops ++ [op]).take j)) r := by
    intro j call r hj hmine hne hr
    have hj' := hold j call hj hne hmine
    have hlt : j < c.ops.length := by simpa using (List.getElem?_eq_some_iff.mp hj').1
    rw [List.take_append_of_le_length (Nat.le_of_lt hlt)]
    exact hc.results j call r hj' hmine hr
  have hother : ∀ call ∈ c.calls ++ [⟨op, code c.calls.length op⟩], ¬ mine call.op →
      call.prog.Ensures I weak frame (fun _ _ => True) c.state := by
    intro call hmem hmine
    rcases List.mem_append.mp hmem with hmem | hmem
    · exact hc.other call hmem hmine
    · obtain rfl := List.mem_singleton.mp hmem
      exact h.other _ _ hmine _ hc.inv trivial
  by_cases hmine : mine op
  · -- every earlier call on the object has returned, so the state holds its value
    have hown : Own (valueAfter apply b c.ops) c.state := by
      cases hc.turn with
      | idle quiet own => exact own
      | busy i call at_i is_mine unfinished =>
        exact absurd unfinished (hok hmine call (List.mem_of_getElem? at_i) is_mine)
    have htake : (c.ops ++ [op]).take c.calls.length = c.ops := by
      rw [← c.length_ops, List.take_left']
      rfl
    refine Inv.settle h c.calls.length ⟨op, code c.calls.length op⟩ hc.inv hother
      (by simp) hmine
      (fun j call' hj hmine' hne => ?_) ?_ ?_ (fun j call' r hj hmine' hne => ?_)
    · exact hok hmine call' (List.mem_of_getElem? (hold j call' hj (fun _ => hne) hmine')) hmine'
    · rw [hops, List.drop_of_length_le (by simp)]
      exact fun _ hmem => absurd hmem List.not_mem_nil
    · rw [hops, htake]
      exact h.own _ _ _ hmine _ hc.inv hown
    · rw [hops]
      exact hres j call' r hj hmine' fun _ => hne
  · refine ⟨hc.inv, hother, ?_, fun j call r hj hmine' hr => ?_⟩
    · refine hc.turn.keep h hc.inv (h.frame_refl _) (fun i call hi _ => ?_)
        (fun i call hi hmine' => hold i call hi (fun hm => absurd hm hmine) hmine') [op] hops ?_
      · rw [List.getElem?_append_left (List.getElem?_eq_some_iff.mp hi).1]
        exact hi
      · simpa using hmine
    · rw [hops]
      exact hres j call r hj hmine' (fun hm => absurd hm hmine) hr

/-- One action of a call. -/
theorem Inv.step (h : Exclusive code I weak frame mine Own apply Res) {c : Config Op L σ ρ}
    (hc : Inv I weak frame mine Own apply Res b c) {i : ℕ} {op : Op} {l : L} {r : σ → Bool}
    {e : σ → σ} {n : σ → Prog L σ ρ} (hi : c.calls[i]? = some ⟨op, .act l r e n⟩)
    (hr : r c.state = true) :
    Inv I weak frame mine Own apply Res b ⟨e c.state, c.calls.set i ⟨op, n c.state⟩⟩ := by
  have hlt : i < c.calls.length := (List.getElem?_eq_some_iff.mp hi).1
  have hops : (Config.mk (e c.state) (c.calls.set i ⟨op, n c.state⟩)).ops = c.ops :=
    Config.ops_step hi rfl
  have hself : (c.calls.set i ⟨op, n c.state⟩)[i]? = some ⟨op, n c.state⟩ :=
    List.getElem?_set_self hlt
  have hne : ∀ {j : ℕ}, j ≠ i → (c.calls.set i ⟨op, n c.state⟩)[j]? = c.calls[j]? :=
    fun hji => List.getElem?_set_ne (Ne.symm hji)
  -- what the others keep, from the change this action makes
  have hother : weak c.state (e c.state) → (¬ mine op →
        (n c.state).Ensures I weak frame (fun _ _ => True) (e c.state)) →
      ∀ call ∈ c.calls.set i ⟨op, n c.state⟩, ¬ mine call.op →
        call.prog.Ensures I weak frame (fun _ _ => True) (e c.state) := by
    intro hweak hself' call hmem hmine
    obtain ⟨j, hj⟩ := List.mem_iff_getElem?.mp hmem
    by_cases hji : j = i
    · subst hji
      rw [hself, Option.some.injEq] at hj
      subst hj
      exact hself' hmine
    · rw [hne hji] at hj
      exact (hc.other call (List.mem_of_getElem? hj) hmine).rely h.weak_trans hweak
  have hres : ∀ (j : ℕ) call' r', (c.calls.set i ⟨op, n c.state⟩)[j]? = some call' →
      mine call'.op → j ≠ i → call'.result? = some r' →
      Res call'.op (valueAfter apply b (c.ops.take j)) r' := by
    intro j call' r' hj hmine hji hr'
    rw [hne hji] at hj
    exact hc.results j call' r' hj hmine hr'
  by_cases hmine : mine op
  · -- the call under way is this one
    cases hc.turn with
    | idle quiet => exact absurd rfl (quiet _ (List.mem_of_getElem? hi) hmine)
    | busy k call at_k is_mine unfinished others later ensures =>
      obtain rfl : i = k := by
        by_contra hik
        exact others i _ hi hmine hik rfl
      rw [hi, Option.some.injEq] at at_k
      subst at_k
      obtain ⟨hI, hweak, hens⟩ := ensures c.state (h.frame_refl _) hc.inv hr
      refine Inv.settle h i _ hI (hother hweak fun hm => absurd hmine hm) hself hmine
        (fun j call' hj hmine' hji => ?_) ?_ ?_ (fun j call' r' hj hmine' hji hr' => ?_)
      · rw [hne hji] at hj
        exact others j call' hj hmine' hji
      · rw [hops]
        exact later
      · rw [hops]
        exact hens
      · rw [hops]
        exact hres j call' r' hj hmine' hji hr'
  · obtain ⟨hI, hframe, hens⟩ := hc.other _ (List.mem_of_getElem? hi) hmine c.state
      (h.weak_of_frame _ _ (h.frame_refl _)) hc.inv hr
    refine ⟨hI, hother (h.weak_of_frame _ _ hframe) fun _ => hens, ?_,
    fun j call r' hj hm hr' => ?_⟩
    · have hmove : ∀ (j : ℕ) call, mine call.op →
          ((c.calls.set i ⟨op, n c.state⟩)[j]? = some call ↔ c.calls[j]? = some call) := by
        intro j call hm
        by_cases hji : j = i
        · subst hji
          rw [hself, hi, Option.some.injEq, Option.some.injEq]
          constructor
          · rintro rfl
            exact absurd hm hmine
          · rintro rfl
            exact absurd hm hmine
        · rw [hne hji]
      refine hc.turn.keep h hI hframe (fun j call hj hm => (hmove j call hm).mpr hj)
        (fun j call hj hm => (hmove j call hm).mp hj) [] ?_ (by simp)
      rw [hops, List.append_nil]
    · rw [hops]
      refine hres j call r' hj hm ?_ hr'
      rintro rfl
      rw [hself, Option.some.injEq] at hj
      subst hj
      exact hmine hm

/-- Nothing was called yet. -/
theorem Inv.initial {s : σ} (hI : I s) (hown : Own b s) :
    Inv I weak frame mine Own apply Res b (Config.initial s : Config Op L σ ρ) :=
  ⟨hI, fun _ hmem => absurd hmem List.not_mem_nil,
    .idle (fun _ hmem => absurd hmem List.not_mem_nil) hown,
    fun _ _ _ hi => by simp [Config.initial] at hi⟩

/-- **An object that is used by one call at a time behaves as in a sequential run**, whatever the
other calls do meanwhile. -/
theorem run (h : Exclusive code I weak frame mine Own apply Res) {c c' : Config Op L σ ρ}
    (hc : Inv I weak frame mine Own apply Res b c) (hrun : Run code (serial mine) c c') :
    Inv I weak frame mine Own apply Res b c' := by
  refine hrun.invariant hc fun c m c' hc hok hn => ?_
  obtain ⟨op, rfl, rfl⟩ | ⟨i, op, l, r, e, n, rfl, hi, hr, rfl⟩ := Config.next_cases hn
  · exact hc.start h hok
  · exact hc.step h hi hr

/-- When no `mine` call is under way, the state holds the value of the object. -/
theorem Inv.own {c : Config Op L σ ρ} (hc : Inv I weak frame mine Own apply Res b c)
    (hquiet : ∀ call ∈ c.calls, mine call.op → call.result? ≠ none) :
    Own (valueAfter apply b c.ops) c.state := by
  cases hc.turn with
  | idle _ own => exact own
  | busy i call at_i is_mine unfinished =>
    exact absurd unfinished (hquiet call (List.mem_of_getElem? at_i) is_mine)

end Exclusive

end Interleave
