import Mathlib.Data.List.Basic
import RelayBuilder.Interleave.Exec

/-!
# Tasks that run scripts

Several tasks in one environment. Each runs a script, and their questions are answered in any
order, each from the state it finds; the state may also change by itself. A task remembers what
it was asked and answered, and in which state, so that a theorem can speak about the moment at
which something happened.

## Main definitions

* `System`, `System.Step`, `System.Reachable`

## Main results

* `System.Reachable.task`: a task is on its way through a script that was started
* `System.Reachable.invariant`: the rule for invariants of the state
-/

namespace Interleave

namespace Script

variable {Q : Type} {A : Q → Type} {α : Type}

/-- The script has asked and been answered as in the history, and the last script is left. -/
inductive Reaches : Script Q A α → History A → Script Q A α → Prop where
  | refl (p : Script Q A α) : Reaches p [] p
  | ask {q : Q} {n : A q → Script Q A α} {t : History A} {p : Script Q A α} (r : A q)
    (h : Reaches (n r) t p) : Reaches (ask q n) (⟨q, r⟩ :: t) p

theorem Reaches.snoc {p : Script Q A α} {t : History A} {q : Q} {n : A q → Script Q A α}
    (h : Reaches p t (.ask q n)) (r : A q) : Reaches p (t ++ [⟨q, r⟩]) (n r) := by
  generalize hp' : Script.ask q n = p' at h
  induction h with
  | refl p =>
    subst hp'
    exact .ask r (.refl _)
  | ask r' _ ih => exact .ask r' (ih hp')

theorem exists_runs (hA : ∀ q, Nonempty (A q)) (p : Script Q A α) : ∃ t a, Runs p t a := by
  induction p with
  | done a => exact ⟨[], a, .done a⟩
  | ask q n ih =>
    obtain ⟨r⟩ := hA q
    obtain ⟨t, a, h⟩ := ih r
    exact ⟨⟨q, r⟩ :: t, a, .ask r h⟩

/-- What was asked so far is the beginning of a history, if every question has an answer. -/
theorem Reaches.complete (hA : ∀ q, Nonempty (A q)) {p p' : Script Q A α} {t : History A}
    (h : Reaches p t p') : ∃ t' a, Runs p (t ++ t') a := by
  induction h with
  | refl p => exact exists_runs hA p
  | ask r _ ih =>
    obtain ⟨t', a, h'⟩ := ih
    exact ⟨t', a, .ask r h'⟩

end Script

open Script

variable {Q : Type} {A : Q → Type} {σ : Type}

/-- A question with its answer, and the state in which it was answered. -/
structure Moment (A : Q → Type) (σ : Type) where
  state : σ
  asked : (q : Q) × A q

/-- A task: the script that it was started with, what it was asked so far, and what is left. -/
structure Task (A : Q → Type) (σ : Type) where
  origin : Script Q A Unit
  past : List (Moment A σ)
  rest : Script Q A Unit

/-- What can happen: how questions are answered, which scripts can be started, and how the state
changes by itself. -/
structure System (A : Q → Type) (σ : Type) where
  answers : Script.Answers A σ
  starts : Script Q A Unit → Prop
  environment : σ → σ → Prop

/-- The state, and the tasks in the order of their start. -/
structure Situation (A : Q → Type) (σ : Type) where
  state : σ
  tasks : List (Task A σ)

namespace System

variable (S : System A σ)

/-- One thing that happens. -/
inductive Step : Situation A σ → Situation A σ → Prop where
  | start {c : Situation A σ} {p : Script Q A Unit} (h : S.starts p) :
    Step c ⟨c.state, c.tasks ++ [⟨p, [], p⟩]⟩
  | ask {c : Situation A σ} {i : ℕ} {origin : Script Q A Unit} {past : List (Moment A σ)} {q : Q}
    {n : A q → Script Q A Unit} {r : A q} {s' : σ}
    (hi : c.tasks[i]? = some ⟨origin, past, .ask q n⟩) (hr : S.answers q c.state r s') :
    Step c ⟨s', c.tasks.set i ⟨origin, past ++ [⟨c.state, ⟨q, r⟩⟩], n r⟩⟩
  | environment {c : Situation A σ} {s' : σ} (h : S.environment c.state s') :
    Step c ⟨s', c.tasks⟩

/-- What can be reached from a state without tasks. -/
inductive Reachable (s₀ : σ) : Situation A σ → Prop where
  | initial : Reachable s₀ ⟨s₀, []⟩
  | step {c c' : Situation A σ} (h : Reachable s₀ c) (h' : S.Step c c') : Reachable s₀ c'

variable {S} {s₀ : σ} {c : Situation A σ}

/-- What is known of one task. -/
structure TaskSound (S : System A σ) (task : Task A σ) : Prop where
  started : S.starts task.origin
  reaches : Reaches task.origin (task.past.map Moment.asked) task.rest
  answered : ∀ m ∈ task.past, ∃ s', S.answers m.asked.1 m.state m.asked.2 s'

theorem Reachable.task (h : S.Reachable s₀ c) : ∀ task ∈ c.tasks, S.TaskSound task := by
  induction h with
  | initial => exact fun _ h => nomatch h
  | step _ h' ih =>
    cases h' with
    | start h =>
      refine fun task htask => (List.mem_append.mp htask).elim (ih task) fun hnew => ?_
      obtain rfl := List.mem_singleton.mp hnew
      exact ⟨h, .refl _, fun _ h => nomatch h⟩
    | environment h => exact ih
    | @ask i origin past q n r s' hi hr =>
      intro task htask
      obtain htask | rfl := List.mem_or_eq_of_mem_set htask
      · exact ih task htask
      · have hold := ih _ (List.mem_of_getElem? hi)
        refine ⟨hold.started, ?_, fun m hm => ?_⟩
        · rw [List.map_append]
          exact hold.reaches.snoc r
        · obtain hm | hm := List.mem_append.mp hm
          · exact hold.answered m hm
          · obtain rfl := List.mem_singleton.mp hm
            exact ⟨s', hr⟩

/-- The last task runs on its own to its end. -/
theorem Reachable.finish {s : σ} {tasks : List (Task A σ)} {p q : Script Q A Unit}
    {past : List (Moment A σ)} (h : S.Reachable s₀ ⟨s, tasks ++ [⟨p, past, q⟩]⟩) {t : History A}
    {u : Unit} {s' : σ} (hexec : Exec S.answers q s t u s') :
    ∃ past', past'.map Moment.asked = past.map Moment.asked ++ t ∧
      S.Reachable s₀ ⟨s', tasks ++ [⟨p, past', .done u⟩]⟩ := by
  induction hexec generalizing past with
  | done a s => exact ⟨past, (List.append_nil _).symm, h⟩
  | @ask q n s s₁ s₂ t a r hr _ ih =>
    have hi : (tasks ++ [⟨p, past, .ask q n⟩])[tasks.length]? = some ⟨p, past, .ask q n⟩ := by simp
    have hstep := h.step (.ask hi hr)
    rw [List.set_append_right _ _ (Nat.le_refl _), Nat.sub_self, List.set_cons_zero] at hstep
    obtain ⟨past', hpast, h'⟩ := ih hstep
    refine ⟨past', ?_, h'⟩
    rw [hpast, List.map_append, List.append_assoc]
    rfl

/-- A script that is started and runs on its own to its end. -/
theorem Reachable.exec {s : σ} {tasks : List (Task A σ)} (h : S.Reachable s₀ ⟨s, tasks⟩)
    {p : Script Q A Unit} (hp : S.starts p) {t : History A} {u : Unit} {s' : σ}
    (hexec : Exec S.answers p s t u s') :
    ∃ past, past.map Moment.asked = t ∧
      S.Reachable s₀ ⟨s', tasks ++ [⟨p, past, .done u⟩]⟩ :=
  (h.step (.start hp)).finish hexec

/-- An invariant of the state, by the rules for the questions that the tasks ask. It also holds in
every state in which a task was answered. -/
theorem Reachable.invariant {I : σ → Prop} {allowed : (q : Q) → A q → Prop} {P : Q → Prop}
    (h : S.Reachable s₀ c) (h₀ : I s₀) (hstarts : ∀ p, S.starts p → p.EveryAsk allowed P)
    (hallowed : ∀ q s r s', I s → S.answers q s r s' → allowed q r)
    (hask : ∀ q s r s', I s → P q → S.answers q s r s' → I s')
    (henvironment : ∀ s s', I s → S.environment s s' → I s') :
    I c.state ∧ ∀ task ∈ c.tasks, task.rest.EveryAsk allowed P ∧ ∀ m ∈ task.past, I m.state := by
  induction h with
  | initial => exact ⟨h₀, fun _ h => nomatch h⟩
  | @step c c' _ h' ih =>
    obtain ⟨hI, htasks⟩ := ih
    cases h' with
    | start h =>
      refine ⟨hI, fun task htask => (List.mem_append.mp htask).elim (htasks task) fun hnew => ?_⟩
      obtain rfl := List.mem_singleton.mp hnew
      exact ⟨hstarts _ h, fun _ h => nomatch h⟩
    | environment h => exact ⟨henvironment _ _ hI h, htasks⟩
    | @ask i origin past q n r s' hi hr =>
      obtain ⟨⟨hP, hrest⟩, hpast⟩ := htasks _ (List.mem_of_getElem? hi)
      refine ⟨hask _ _ _ _ hI hP hr, fun task htask => ?_⟩
      obtain htask | rfl := List.mem_or_eq_of_mem_set htask
      · exact htasks task htask
      · refine ⟨hrest r (hallowed _ _ _ _ hI hr), fun m hm => ?_⟩
        obtain hm | hm := List.mem_append.mp hm
        · exact hpast m hm
        · obtain rfl := List.mem_singleton.mp hm
          exact hI

end System

end Interleave
