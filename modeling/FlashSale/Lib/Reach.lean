/-
# What a system can still come to

`Can step ok P s`: some labels that are `ok` lead from `s` to a state with `P`. It is
not said that the system takes them, but nothing that has happened keeps it from it.

* `Can.next` takes a label, `Can.andThen` goes on from where a part has led.
* `Can.each` goes through the stages of a sequence.
* `Can.variant`: a measure that can be lowered as long as it matters runs out.

`Must step ok P s`: whichever labels that are `ok` the system takes, it comes to a state
with `P`, and until then it can take one.

* `Must.along`: with an invariant of these labels.
-/
import FlashSale.Lib.Run

namespace Lib

variable {S L : Type} {step : S → L → Option S}

theorem Run.append {start mid s : S} {trace more : List (S × L)} (first : Run step start trace mid)
    (second : Run step mid more s) : Run step start (trace ++ more) s := by
  induction second with
  | nil =>
    rw [List.append_nil]
    exact first
  | snoc _ taken ih =>
    rw [← List.append_assoc]
    exact .snoc ih taken

def Can (step : S → L → Option S) (ok : L → Prop) (P : S → Prop) (s : S) : Prop :=
  ∃ trace s', Run step s trace s' ∧ (∀ p ∈ trace, ok p.2) ∧ P s'

namespace Can

variable {ok : L → Prop} {P Q : S → Prop} {s s' : S}

theorem here (holds : P s) : Can step ok P s := ⟨[], s, .nil, by simp, holds⟩

/-- A step that is allowed leads nearer. -/
theorem next {l : L} (allowed : ok l) (taken : step s l = some s') (rest : Can step ok P s') :
    Can step ok P s := by
  obtain ⟨trace, s'', run, oks, holds⟩ := rest
  refine ⟨(s, l) :: trace, s'', .cons taken run, fun p mem => ?_, holds⟩
  rcases List.mem_cons.mp mem with rfl | later
  · exact allowed
  · exact oks p later

/-- What can be reached from what can be reached can be reached. -/
theorem andThen (first : Can step ok P s) (rest : ∀ s', P s' → Can step ok Q s') :
    Can step ok Q s := by
  obtain ⟨trace, s', run, oks, holds⟩ := first
  obtain ⟨more, s'', run', oks', holds'⟩ := rest s' holds
  refine ⟨trace ++ more, s'', run.append run', fun p mem => ?_, holds'⟩
  rcases List.mem_append.mp mem with early | late
  · exact oks p early
  · exact oks' p late

theorem imp (first : Can step ok P s) (weaker : ∀ s', P s' → Q s') : Can step ok Q s :=
  first.andThen fun _ holds => .here (weaker _ holds)

/-- Through the stages `Inv 0`, `Inv 1` and so on. -/
theorem each (Inv : Nat → S → Prop) (more : ∀ k s, Inv k s → Can step ok (Inv (k + 1)) s) (k : Nat)
    (first : Inv 0 s) : Can step ok (Inv k) s := by
  induction k with
  | zero => exact .here first
  | succ k ih => exact ih.andThen fun s' at_ => more k s' at_

/-- What can be made less as long as it is needed is not needed in the end. By induction on the
variant, one round after another. -/
theorem variant {Inv : S → Prop} (measure : S → Nat)
    (lower : ∀ s, Inv s → P s ∨ Can step ok (fun s' => Inv s' ∧ measure s' < measure s) s)
    (init : Inv s) : Can step ok (fun s' => Inv s' ∧ P s') s := by
  generalize bound : measure s = m
  induction m using Nat.strongRecOn generalizing s with
  | ind m ih =>
    subst bound
    rcases lower s init with done | less
    · exact .here ⟨init, done⟩
    · exact less.andThen fun s' next => ih (measure s') next.2 next.1 rfl

end Can

inductive Must (step : S → L → Option S) (ok : L → Prop) (P : S → Prop) : S → Prop where
  | here {s : S} (holds : P s) : Must step ok P s
  | next {s : S} (enabled : ∃ l s', ok l ∧ step s l = some s')
      (rest : ∀ l s', ok l → step s l = some s' → Must step ok P s') : Must step ok P s

/-- An invariant of the steps may be used where they must end. -/
theorem Must.along {ok : L → Prop} {P Q : S → Prop} (Inv : S → Prop) {s : S}
    (must : Must step ok P s) (keep : ∀ s l s', Inv s → ok l → step s l = some s' → Inv s')
    (inv : Inv s) (done : ∀ s, P s → Inv s → Q s) : Must step ok Q s := by
  induction must with
  | here holds => exact .here (done _ holds inv)
  | next enabled _ ih =>
    exact .next enabled fun l s' allowed taken => ih l s' allowed taken (keep _ l s' inv allowed taken)

end Lib
