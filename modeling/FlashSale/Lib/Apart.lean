/-
# Transactions that nothing hinders

A transaction is `Apart` when the locks of all other sessions are on resources that it
does not use. It waits for nobody then, although others have transactions open.

`Tx.Ensures` is the weakest precondition of such a transaction: it says where the
transaction ends, when no one else commits while it runs, in any environments.

* `Apart.grants`, `Apart.statement`, `Apart.auto`: its statements run.
* `Ensures.bind`, `Ensures.statement`: the rules.
-/
import FlashSale.Lib.Transaction

set_option linter.unusedSectionVars false

namespace Lib

variable {Stmt Env Err ε α β S Db Write R ρ : Type} {Result : Stmt → Type}
  [Storage Write Db R] [DecidableEq S] [DecidableEq R]

/-! ### Locks of others -/

/-- No other session holds a lock on a resource that the session `Uses`. They may hold
others, and have writes pending. -/
def Apart (Uses : R → Prop) (srv : Server S Db Write R) (n : S) : Prop :=
  ∀ p ∈ srv.locks, p.1 ≠ n → ¬ Uses p.2.resource

section

variable {Uses : R → Prop} {srv : Server S Db Write R} {n : S}

/-- A session that is apart is granted every lock that it uses. -/
theorem Apart.grants (apart : Apart Uses srv n) {l : Lock R} (uses : Uses l.resource) :
    srv.grants n l = true := by
  refine List.all_eq_true.mpr fun held mem => ?_
  by_cases own : held.1 = n
  · simp [own]
  · have other : held.2.resource ≠ l.resource := fun same => apart held mem own (same ▸ uses)
    simp [Lock.compatible, other]

/-- Its statements run as soon as they are sent. -/
theorem Apart.statement (apart : Apart Uses srv n) {o : Outcome Write R Err ρ}
    (uses : ∀ l ∈ o.locks, Uses l.resource) :
    srv.statement n o = some (match o.answer with
      | .error e => (.error e, srv)
      | .ok (ws, r) => (.ok r, srv.extend n o.locks ws)) := by
  have free : o.locks.all (srv.grants n) = true :=
    List.all_eq_true.mpr fun l mem => apart.grants (uses l mem)
  rw [Server.statement, if_pos free]
  cases o.answer <;> rfl

/-- A statement that is a transaction of its own. -/
theorem Apart.auto (apart : Apart Uses srv n) (idle : Idle srv n) {o : Outcome Write R Err ρ}
    (uses : ∀ l ∈ o.locks, Uses l.resource) {ws : List Write} {r : ρ}
    (got : o.answer = .ok (ws, r)) :
    ∃ srv', srv.auto n o = some (.ok r, srv') ∧ srv'.db = applyAll srv.db ws := by
  refine ⟨(srv.extend n o.locks ws).commit n, ?_, ?_⟩
  · rw [Server.auto, apart.statement uses, got]
    rfl
  · rw [Server.commit_db, Server.writesOf_extend_self, idle.writes]
    rfl

end

/-! ### Weakest preconditions -/

/-- A transaction that has written `ws` uses only resources as allowed, and ends as `Q`
says, on rows that no other session changes, in whatever environments it is admitted to. -/
def Tx.Ensures (plan : (s : Stmt) → Env → Db → Outcome Write R Err (Result s)) (Admits : Env → Prop)
    (Uses : R → Prop) (db : Db) (Q : Except ε (α × List Write) → Prop) :
    Tx Stmt Result Err ε α → List Write → Prop
  | .pure a, ws => Q (.ok (a, ws))
  | .throw e, _ => Q (.error e)
  | .now next, ws => ∀ t, (next t).Ensures plan Admits Uses db Q ws
  | .exec s onError next, ws => ∀ env, Admits env →
    (∀ l ∈ (plan s env (applyAll db ws)).locks, Uses l.resource) ∧
    (∀ e, (plan s env (applyAll db ws)).answer = .error e → Q (.error (onError e))) ∧
    ∀ ws' r, (plan s env (applyAll db ws)).answer = .ok (ws', r) →
      (next r).Ensures plan Admits Uses db Q (ws ++ ws')

section

variable {plan : (s : Stmt) → Env → Db → Outcome Write R Err (Result s)} {Admits : Env → Prop}
  {Uses : R → Prop} {db : Db} {ws : List Write}

/-- A part of a transaction is followed by the rest, if it returns. -/
theorem Tx.Ensures.bind {P : Except ε (α × List Write) → Prop}
    {Q : Except ε (β × List Write) → Prop}
    {m : Tx Stmt Result Err ε α} {k : α → Tx Stmt Result Err ε β}
    (first : m.Ensures plan Admits Uses db P ws)
    (returns : ∀ a ws', P (.ok (a, ws')) → (k a).Ensures plan Admits Uses db Q ws')
    (throws : ∀ e, P (.error e) → Q (.error e)) :
    (m >>= k).Ensures plan Admits Uses db Q ws := by
  show (m.bind k).Ensures plan Admits Uses db Q ws
  induction m generalizing ws with
  | pure a => exact returns a ws first
  | throw e => exact throws e first
  | now next ih => exact fun t => ih t (first t)
  | exec s onError next ih =>
    intro env admits
    obtain ⟨uses, errors, answers⟩ := first env admits
    exact ⟨uses, fun e failed => throws _ (errors e failed),
      fun ws' r got => ih r (answers ws' r got)⟩

/-- The rule for a statement: whatever it answers on the rows as they are, the rest ensures the
postcondition. -/
theorem Tx.Ensures.statement {Q : Except ε (α × List Write) → Prop} {s : Stmt} {onError : Err → ε}
    {k : Result s → Tx Stmt Result Err ε α}
    (uses : ∀ env, Admits env → ∀ l ∈ (plan s env (applyAll db ws)).locks, Uses l.resource)
    (throws : ∀ env e, Admits env → (plan s env (applyAll db ws)).answer = .error e →
      Q (.error (onError e)))
    (answers : ∀ env ws' r, Admits env → (plan s env (applyAll db ws)).answer = .ok (ws', r) →
      (k r).Ensures plan Admits Uses db Q (ws ++ ws')) :
    (Tx.statement s onError >>= k).Ensures plan Admits Uses db Q ws := by
  show (Tx.exec s onError k).Ensures plan Admits Uses db Q ws
  intro env admits
  exact ⟨uses env admits, fun e failed => throws env e admits failed,
    fun ws' r got => answers env ws' r admits got⟩

end

end Lib
