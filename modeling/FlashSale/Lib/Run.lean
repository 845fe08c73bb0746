/-
# Runs of a transition system

A system is a partial step function on states and labels: `step s l = none` when
the label is not enabled. A run keeps its trace, the states it left and the
labels it took, so that a condition on the steps of a run can be stated.

* `Run.invariant`, `Run.invariant_while`: what every step keeps (every step that
  meets a condition, in a run whose steps all do) holds after the run.
* `Run.invariant_along`, `Run.invariant_along_while`: the same for what is known of a
  state and of the trace that led to it.
* `Run.exact`: when a step keeps a property exactly if it meets a condition, a
  run has the property throughout exactly if all its steps meet the condition.
* `Run.simulates`: a run whose steps each do nothing or one abstract event is a
  chain of abstract events.
* `Run.related`: what relates the states of two runs, kept by corresponding steps.
* `Run.of_execute` turns an evaluation of the step function into a run.
-/
import Mathlib.Data.List.Basic
import Mathlib.Data.List.Forall2

namespace Lib

variable {S L T E : Type}

/-- Runs from `start`, with the states left and the labels taken. A run grows at its end,
so that its induction follows the last step. -/
inductive Run (step : S → L → Option S) (start : S) : List (S × L) → S → Prop where
  | nil : Run step start [] start
  | snoc {trace : List (S × L)} {s s' : S} {l : L} :
      Run step start trace s → step s l = some s' → Run step start (trace ++ [(s, l)]) s'

/-- All states of a run: those it left and the one it is in. -/
def visits (trace : List (S × L)) (s : S) : List S := trace.map Prod.fst ++ [s]

theorem visits_snoc (trace : List (S × L)) (s s' : S) (l : L) :
    visits (trace ++ [(s, l)]) s' = visits trace s ++ [s'] := by
  simp [visits]

theorem last_mem_visits (trace : List (S × L)) (s : S) : s ∈ visits trace s := by
  simp [visits]

namespace Run

variable {step : S → L → Option S} {start : S}

/-- The invariant rule: what holds at the start and is kept by every step holds in every state
that a run reaches. -/
theorem invariant {Inv : S → Prop} (init : Inv start)
    (keep : ∀ s l s', Inv s → step s l = some s' → Inv s')
    {trace : List (S × L)} {s : S} (run : Run step start trace s) : Inv s := by
  induction run with
  | nil => exact init
  | snoc _ taken ih => exact keep _ _ _ ih taken

/-- The invariant rule for runs whose steps all meet a condition. -/
theorem invariant_while (Inv : S → Prop) {ok : S → L → Prop} (init : Inv start)
    (keep : ∀ s l s', Inv s → ok s l → step s l = some s' → Inv s')
    {trace : List (S × L)} {s : S} (run : Run step start trace s)
    (steps : ∀ p ∈ trace, ok p.1 p.2) : Inv s := by
  induction run with
  | nil => exact init
  | snoc _ taken ih =>
    have before := ih fun p mem => steps p (List.mem_append_left _ mem)
    have last := steps (_, _) (List.mem_append_right _ (List.mem_singleton.mpr rfl))
    exact keep _ _ _ before last taken

/-- The invariant rule for what is known of a state and the trace that led to it. -/
theorem invariant_along (Inv : List (S × L) → S → Prop) (init : Inv [] start)
    (keep : ∀ trace s l s', Inv trace s → step s l = some s' → Inv (trace ++ [(s, l)]) s')
    {trace : List (S × L)} {s : S} (run : Run step start trace s) : Inv trace s := by
  induction run with
  | nil => exact init
  | snoc _ taken ih => exact keep _ _ _ _ ih taken

/-- The same when each step meets a condition on the steps before it. -/
theorem invariant_along_while {Inv : List (S × L) → S → Prop} {ok : List (S × L) → S × L → Prop}
    (init : Inv [] start)
    (keep : ∀ trace s l s', Inv trace s → ok trace (s, l) → step s l = some s' →
      Inv (trace ++ [(s, l)]) s')
    {trace : List (S × L)} {s : S} (run : Run step start trace s)
    (steps : ∀ i (h : i < trace.length), ok (trace.take i) (trace.get ⟨i, h⟩)) : Inv trace s := by
  induction run with
  | nil => exact init
  | @snoc trace s s' l _ taken ih =>
    refine keep _ _ _ _ (ih fun i h => ?_) ?_ taken
    · have earlier := steps i (by simp; omega)
      simpa [List.take_append_of_le_length (Nat.le_of_lt h), List.getElem_append_left h] using earlier
    · simpa using steps trace.length (by simp)

/-- Every state of a run ends a run that is a part of it. -/
theorem of_visits {trace : List (S × L)} {s t : S} (run : Run step start trace s)
    (mem : t ∈ visits trace s) :
    ∃ earlier, Run step start earlier t ∧ ∀ p ∈ earlier, p ∈ trace := by
  induction run with
  | nil =>
    simp only [visits, List.map_nil, List.nil_append, List.mem_singleton] at mem
    subst mem
    exact ⟨[], .nil, by simp⟩
  | @snoc trace s s' l before taken ih =>
    rw [visits_snoc, List.mem_append, List.mem_singleton] at mem
    rcases mem with old | rfl
    · obtain ⟨earlier, run, sub⟩ := ih old
      exact ⟨earlier, run, fun p hp => List.mem_append_left _ (sub p hp)⟩
    · exact ⟨_, .snoc before taken, fun p hp => hp⟩

/-- Every step of a run is taken in a state that ends a part of the run. -/
theorem of_mem {trace : List (S × L)} {s : S} (run : Run step start trace s) {p : S × L}
    (mem : p ∈ trace) :
    ∃ earlier s', Run step start earlier p.1 ∧ step p.1 p.2 = some s' := by
  induction run with
  | nil => cases mem
  | @snoc trace s s' l before taken ih =>
    rcases List.mem_append.mp mem with old | new
    · exact ih old
    · rw [List.mem_singleton] at new
      subst new
      exact ⟨trace, s', before, taken⟩

/-- When, under an invariant, a step keeps a property exactly if it meets a
condition, the runs with the property throughout are those whose steps all meet
the condition. -/
theorem exact {Inv P : S → Prop} {ok : S → L → Prop} (init : Inv start) (holds : P start)
    (keep : ∀ s l s', Inv s → step s l = some s' → Inv s')
    (char : ∀ s l s', Inv s → P s → step s l = some s' → (P s' ↔ ok s l))
    {trace : List (S × L)} {s : S} (run : Run step start trace s) :
    (∀ t ∈ visits trace s, P t) ↔ ∀ p ∈ trace, ok p.1 p.2 := by
  induction run with
  | nil => simp [visits, holds]
  | @snoc trace s s' l before taken ih =>
    have inv : Inv s := before.invariant init keep
    constructor
    · intro all
      have upto : ∀ t ∈ visits trace s, P t := fun t mem =>
        all t (visits_snoc trace s s' l ▸ List.mem_append_left _ mem)
      have here : P s := upto s (last_mem_visits trace s)
      intro p mem
      rcases List.mem_append.mp mem with old | new
      · exact ih.mp upto p old
      · rw [List.mem_singleton] at new
        subst new
        exact (char _ _ _ inv here taken).mp (all s' (last_mem_visits _ s'))
    · intro oks t mem
      have upto : ∀ t ∈ visits trace s, P t :=
        ih.mpr fun p hp => oks p (List.mem_append_left _ hp)
      have here : P s := upto s (last_mem_visits trace s)
      rw [visits_snoc, List.mem_append, List.mem_singleton] at mem
      rcases mem with old | rfl
      · exact upto t old
      · exact (char _ _ _ inv here taken).mpr (oks (s, l) (by simp))

end Run

/-! ### Two runs -/

theorem forall₂_snoc_iff {A B : Type} {R : A → B → Prop} {as : List A} {bs : List B} {a : A} {b : B} :
    List.Forall₂ R (as ++ [a]) (bs ++ [b]) ↔ List.Forall₂ R as bs ∧ R a b := by
  rw [← List.forall₂_reverse_iff, List.reverse_append, List.reverse_append]
  simp only [List.reverse_singleton, List.singleton_append, List.forall₂_cons,
    List.forall₂_reverse_iff]
  exact and_comm

/-- Values along two lists agree exactly when a condition holds along the second, if at
each place they do. -/
theorem map_eq_map_iff {A B C : Type} {R : A → B → Prop} {f : A → C} {g : B → C} {ok : B → Prop}
    {as : List A} {bs : List B} (related : List.Forall₂ R as bs)
    (char : ∀ a b, R a b → (f a = g b ↔ ok b)) : as.map f = bs.map g ↔ ∀ b ∈ bs, ok b := by
  induction related with
  | nil => simp
  | cons first _ ih => simp [char _ _ first, ih]

/-- The invariant rule for two runs that take corresponding labels: what relates their
states at the beginning relates them at each step. -/
theorem Run.related {step : S → L → Option S} {start start' : S} {R : S → S → Prop}
    {same : L → L → Prop} {ok : S → L → Prop} (init : R start start')
    (keep : ∀ s s' l l' t t', R s s' → same l l' → ok s' l' → step s l = some t →
      step s' l' = some t' → R t t')
    {trace trace' : List (S × L)} {s s' : S} (run : Run step start trace s)
    (run' : Run step start' trace' s')
    (labels : List.Forall₂ same (trace.map Prod.snd) (trace'.map Prod.snd))
    (oks : ∀ p ∈ trace', ok p.1 p.2) :
    List.Forall₂ (fun p p' => R p.1 p'.1 ∧ same p.2 p'.2 ∧ ok p'.1 p'.2) trace trace' ∧ R s s' := by
  induction run generalizing trace' s' with
  | nil =>
    cases run' with
    | nil => exact ⟨.nil, init⟩
    | snoc _ _ => simp at labels
  | snoc _ taken ih =>
    cases run' with
    | nil => simp at labels
    | snoc before' taken' =>
      simp only [List.map_append, List.map_cons, List.map_nil] at labels
      obtain ⟨earlier, last⟩ := forall₂_snoc_iff.mp labels
      have okLast := oks _ (List.mem_append_right _ (List.mem_singleton_self _))
      obtain ⟨steps, related⟩ := ih before' earlier fun p mem => oks p (List.mem_append_left _ mem)
      refine ⟨forall₂_snoc_iff.mpr ⟨steps, related, last, okLast⟩, ?_⟩
      exact keep _ _ _ _ _ _ related last okLast taken taken'

/-! ### Executions -/

/-- Take the labels in turn; `none` as soon as one is not enabled. -/
def execute (step : S → L → Option S) : S → List L → Option S
  | s, [] => some s
  | s, l :: ls => (step s l).bind fun s' => execute step s' ls

theorem execute_append (step : S → L → Option S) (s : S) (ls ls' : List L) :
    execute step s (ls ++ ls') = (execute step s ls).bind fun t => execute step t ls' := by
  induction ls generalizing s with
  | nil => rfl
  | cons l ls ih =>
    cases taken : step s l with
    | none => simp [execute, taken]
    | some t => simpa [execute, taken] using ih t

/-- The trace of an execution. -/
def traceOf (step : S → L → Option S) : S → List L → List (S × L)
  | _, [] => []
  | s, l :: ls => (s, l) :: ((step s l).map fun s' => traceOf step s' ls).getD []

theorem traceOf_labels {step : S → L → Option S} {s : S} {ls : List L}
    (ran : (execute step s ls).isSome = true) : (traceOf step s ls).map Prod.snd = ls := by
  induction ls generalizing s with
  | nil => rfl
  | cons l ls ih =>
    cases taken : step s l with
    | none => simp [execute, taken] at ran
    | some t =>
      simp only [execute, taken, Option.bind_some] at ran
      simp [traceOf, taken, ih ran]

namespace Run

variable {step : S → L → Option S} {start : S}

theorem cons {s s' : S} {l : L} {trace : List (S × L)} (taken : step start l = some s)
    (run : Run step s trace s') : Run step start ((start, l) :: trace) s' := by
  induction run with
  | nil =>
    have first : Run step start ([] ++ [(start, l)]) s := .snoc .nil taken
    exact first
  | snoc _ next ih => exact .snoc ih next

/-- Labels that can be executed one after another make a run, with the states that they pass
through. -/
theorem of_execute {s : S} {ls : List L} (h : execute step start ls = some s) :
    Run step start (traceOf step start ls) s := by
  induction ls generalizing start with
  | nil =>
    cases h
    exact .nil
  | cons l ls ih =>
    cases taken : step start l with
    | none => simp [execute, taken] at h
    | some t =>
      simp only [execute, taken, Option.bind_some] at h
      simpa [traceOf, taken] using cons taken (ih h)

/-- The run of an execution that evaluates to some state. -/
theorem of_isSome {ls : List L} (h : (execute step start ls).isSome = true) :
    Run step start (traceOf step start ls) ((execute step start ls).get h) :=
  of_execute (Option.some_get h).symm

end Run

/-! ### Abstract chains -/

/-- Sequences of abstract events, each one relating the state before and after. A run that
refines them has a chain of the events it logs. -/
inductive Chain (event : T → E → T → Prop) (start : T) : List E → T → Prop where
  | nil : Chain event start [] start
  | snoc {events : List E} {t t' : T} {e : E} :
      Chain event start events t → event t e t' → Chain event start (events ++ [e]) t'

theorem Chain.invariant {event : T → E → T → Prop} {start : T} (Inv : List E → T → Prop)
    (init : Inv [] start)
    (keep : ∀ events t e t', Inv events t → event t e t' → Inv (events ++ [e]) t')
    {events : List E} {t : T} (chain : Chain event start events t) : Inv events t := by
  induction chain with
  | nil => exact init
  | snoc _ happened ih => exact keep _ _ _ _ ih happened

theorem Chain.imp {event event' : T → E → T → Prop} {start : T}
    (weaker : ∀ t e t', event t e t' → event' t e t') {events : List E} {t : T}
    (chain : Chain event start events t) : Chain event' start events t :=
  chain.invariant (Chain event' start) .nil fun _ _ _ _ before happened =>
    before.snoc (weaker _ _ _ happened)

/-- A run simulates a chain when each of its steps leaves the abstract state and
the log alone or is one abstract event, which the log records. -/
theorem Run.simulates {step : S → L → Option S} {start : S} {event : T → E → T → Prop}
    {Inv : S → Prop} (abs : S → T) (log : S → List E) (init : Inv start) (empty : log start = [])
    (keep : ∀ s l s', Inv s → step s l = some s' → Inv s')
    (sim : ∀ s l s', Inv s → step s l = some s' →
      (abs s' = abs s ∧ log s' = log s) ∨
      ∃ e, event (abs s) e (abs s') ∧ log s' = log s ++ [e])
    {trace : List (S × L)} {s : S} (run : Run step start trace s) :
    Chain event (abs start) (log s) (abs s) := by
  induction run with
  | nil =>
    rw [empty]
    exact .nil
  | snoc before taken ih =>
    have inv := before.invariant init keep
    rcases sim _ _ _ inv taken with ⟨same, quiet⟩ | ⟨e, happened, logged⟩
    · rw [same, quiet]
      exact ih
    · rw [logged]
      exact .snoc ih happened

/-- The same from any state on: the log goes on with the events of the chain. -/
theorem Run.simulates_since {step : S → L → Option S} {start : S} {event : T → E → T → Prop}
    {Inv : S → Prop} (abs : S → T) (log : S → List E) (init : Inv start)
    (keep : ∀ s l s', Inv s → step s l = some s' → Inv s')
    (sim : ∀ s l s', Inv s → step s l = some s' →
      (abs s' = abs s ∧ log s' = log s) ∨
      ∃ e, event (abs s) e (abs s') ∧ log s' = log s ++ [e])
    {trace : List (S × L)} {s : S} (run : Run step start trace s) :
    ∃ events, log s = log start ++ events ∧ Chain event (abs start) events (abs s) := by
  induction run with
  | nil => exact ⟨[], (List.append_nil _).symm, .nil⟩
  | snoc before taken ih =>
    obtain ⟨events, logged, chain⟩ := ih
    rcases sim _ _ _ (before.invariant init keep) taken with ⟨same, quiet⟩ | ⟨e, happened, more⟩
    · exact ⟨events, quiet.trans logged, same ▸ chain⟩
    · exact ⟨events ++ [e], by rw [more, logged, List.append_assoc], .snoc chain happened⟩

end Lib
