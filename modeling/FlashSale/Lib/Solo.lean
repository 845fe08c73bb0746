/-
# Transactions without concurrent ones

`Tx.solo` is what a transaction does when no other runs, with what comes from outside
given for each of its statements: the environment in which it runs, and whether it fails
for a reason of its own, as does the commit at the end.

* `Tx.transaction` is the whole transaction: its answer, and the store after it.
* `Tx.transaction_error`: one that throws leaves the store as it was.
* `Tx.solo_steps`: the steps of a session that is alone on its server come to that.
-/
import FlashSale.Lib.Serial

set_option linter.unusedSectionVars false

namespace Lib

/-- What a transaction meets: the environment of each statement, the clock, and the
failures of statements and of the commit that have no reason in the code. Statements
are counted from zero. -/
structure Surroundings (Env ε : Type) where
  env : Nat → Env
  time : Nat → Int
  fails : Nat → Option ε

section

variable {Stmt Env Err ε α β S Db Write R : Type} {Result : Stmt → Type}
  [Storage Write Db R] [DecidableEq S] [DecidableEq R]

variable (plan : (s : Stmt) → Env → Db → Outcome Write R Err (Result s))
  (around : Surroundings Env ε)

/-- From statement `i` on, with what has been written. A statement sees the store under these
writes, and fails where its surroundings say so. -/
def Tx.solo (db : Db) : Nat → Tx Stmt Result Err ε α → List Write → Except ε (α × List Write)
  | i, .pure a, ws =>
    match around.fails i with
    | some e => .error e
    | none => .ok (a, ws)
  | _, .throw e, _ => .error e
  | i, .now next, ws => (next (around.time i)).solo db i ws
  | i, .exec s onError next, ws =>
    match around.fails i with
    | some e => .error e
    | none =>
      match (plan s (around.env i) (applyAll db ws)).answer with
      | .error e => .error (onError e)
      | .ok (ws', r) => (next r).solo db (i + 1) (ws ++ ws')

/-- A whole transaction: its answer, and the store after it. The commit can fail as well, and
then nothing has happened. -/
def Tx.transaction (body : Tx Stmt Result Err ε α) (db : Db) : Except ε α × Db :=
  settle db (body.solo plan around db 0 [])

variable {plan around} {db : Db} {ws ws' : List Write} {s : Stmt} {onError : Err → ε} {i : Nat}
  {k : Result s → Tx Stmt Result Err ε α} {out : α × List Write}

/-- A transaction that throws leaves the store as it was. -/
theorem Tx.transaction_error {body : Tx Stmt Result Err ε α} {e : ε}
    (threw : (body.transaction plan around db).1 = .error e) :
    (body.transaction plan around db).2 = db := by
  unfold Tx.transaction at threw ⊢
  cases ended : body.solo plan around db 0 [] with
  | error e' => rfl
  | ok out =>
    rw [ended] at threw
    cases threw

theorem Tx.transaction_returned {body : Tx Stmt Result Err ε α} {a : α}
    (returned : (body.transaction plan around db).1 = .ok a) :
    ∃ ws, body.solo plan around db 0 [] = .ok (a, ws) := by
  unfold Tx.transaction at returned
  cases ended : body.solo plan around db 0 [] with
  | error e =>
    rw [ended] at returned
    cases returned
  | ok out =>
    rw [ended] at returned
    obtain ⟨a', ws⟩ := out
    cases returned
    exact ⟨ws, rfl⟩

theorem Tx.transaction_threw {body : Tx Stmt Result Err ε α} {e : ε}
    (threw : (body.transaction plan around db).1 = .error e) :
    body.solo plan around db 0 [] = .error e := by
  unfold Tx.transaction at threw
  cases ended : body.solo plan around db 0 [] with
  | error e' =>
    rw [ended] at threw
    cases threw
    rfl
  | ok out =>
    rw [ended] at threw
    cases threw

theorem Tx.transaction_ok {body : Tx Stmt Result Err ε α} {a : α}
    (ended : body.solo plan around db 0 [] = .ok (a, ws)) :
    body.transaction plan around db = (.ok a, applyAll db ws) := by
  rw [Tx.transaction, ended]
  rfl

theorem Tx.solo_pure {a : α} (spared : around.fails i = none) :
    (Tx.pure a : Tx Stmt Result Err ε α).solo plan around db i ws = .ok (a, ws) := by
  rw [Tx.solo, spared]

theorem Tx.solo_statement {r : Result s} (spared : around.fails i = none)
    (got : (plan s (around.env i) (applyAll db ws)).answer = .ok (ws', r)) :
    (Tx.statement s onError >>= k).solo plan around db i ws =
      (k r).solo plan around db (i + 1) (ws ++ ws') := by
  show (Tx.exec s onError k).solo plan around db i ws = _
  rw [Tx.solo, spared]
  simp only [got]

theorem Tx.solo_failed {e : Err} (spared : around.fails i = none)
    (got : (plan s (around.env i) (applyAll db ws)).answer = .error e) :
    (Tx.statement s onError >>= k).solo plan around db i ws = .error (onError e) := by
  show (Tx.exec s onError k).solo plan around db i ws = _
  rw [Tx.solo, spared]
  simp only [got]

/-- The end of a transaction that returns. -/
theorem Tx.solo_pure_returned {a : α}
    (returned : (Tx.pure a : Tx Stmt Result Err ε α).solo plan around db i ws = .ok out) :
    around.fails i = none ∧ out = (a, ws) := by
  rw [Tx.solo] at returned
  cases spared : around.fails i with
  | none =>
    rw [spared] at returned
    exact ⟨rfl, (Except.ok.inj returned).symm⟩
  | some e =>
    rw [spared] at returned
    cases returned

/-- The next statement of a transaction that returns. -/
theorem Tx.solo_returned
    (returned : (Tx.statement s onError >>= k).solo plan around db i ws = .ok out) :
    around.fails i = none ∧
      ∃ ws' r, (plan s (around.env i) (applyAll db ws)).answer = .ok (ws', r) ∧
        (k r).solo plan around db (i + 1) (ws ++ ws') = .ok out := by
  cases spared : around.fails i with
  | some e =>
    change (Tx.exec s onError k).solo plan around db i ws = _ at returned
    rw [Tx.solo, spared] at returned
    cases returned
  | none =>
    cases got : (plan s (around.env i) (applyAll db ws)).answer with
    | error e =>
      rw [Tx.solo_failed spared got] at returned
      cases returned
    | ok found =>
      obtain ⟨ws', r⟩ := found
      rw [Tx.solo_statement spared got] at returned
      exact ⟨rfl, ws', r, rfl, returned⟩

/-- It meets nothing but what is around its own statements. -/
theorem Tx.solo_congr {around' : Surroundings Env ε} {body : Tx Stmt Result Err ε α}
    (env : ∀ j, i ≤ j → around.env j = around'.env j)
    (time : ∀ j, i ≤ j → around.time j = around'.time j)
    (fails : ∀ j, i ≤ j → around.fails j = around'.fails j) :
    body.solo plan around db i ws = body.solo plan around' db i ws := by
  induction body generalizing i ws with
  | pure a => simp only [Tx.solo, fails i (Nat.le_refl i)]
  | throw e => rfl
  | now next ih =>
    simp only [Tx.solo, time i (Nat.le_refl i)]
    exact ih _ env time fails
  | exec s onError next ih =>
    simp only [Tx.solo, env i (Nat.le_refl i), fails i (Nat.le_refl i)]
    split
    · rfl
    split
    · rfl
    exact ih _ (fun j low => env j (Nat.le_of_succ_le low))
      (fun j low => time j (Nat.le_of_succ_le low)) fun j low => fails j (Nat.le_of_succ_le low)

/-- The same, but for the environment of one statement. -/
def Surroundings.meeting (around : Surroundings Env ε) (i : Nat) (env : Env) : Surroundings Env ε :=
  { around with env := Function.update around.env i env }

/-- The environment of a statement matters to no later one. -/
theorem Tx.solo_meeting {env : Env} {next : Result s → Tx Stmt Result Err ε α} {r : Result s}
    (spared : around.fails i = none)
    (got : (plan s env (applyAll db ws)).answer = .ok (ws', r)) :
    (Tx.exec s onError next).solo plan (around.meeting i env) db i ws =
      (next r).solo plan around db (i + 1) (ws ++ ws') := by
  have here : (around.meeting i env).env i = env := Function.update_self ..
  have later : ∀ j, i + 1 ≤ j → (around.meeting i env).env j = around.env j := fun j low =>
    Function.update_of_ne (Nat.ne_of_gt low) ..
  have spared' : (around.meeting i env).fails i = none := spared
  simp only [Tx.solo, spared', here, got]
  exact Tx.solo_congr later (fun _ _ => rfl) fun _ _ => rfl

/-- The same, but for the clock before one statement. -/
def Surroundings.looking (around : Surroundings Env ε) (i : Nat) (t : Int) : Surroundings Env ε :=
  { around with time := Function.update around.time i t }

/-- The program looks at the clock at most once before each statement, and no more before the
next one if it has `looked`. -/
def Tx.LooksOnce : Bool → Tx Stmt Result Err ε α → Prop
  | _, .pure _ => True
  | _, .throw _ => True
  | looked, .now next => looked = false ∧ ∀ t, (next t).LooksOnce true
  | _, .exec _ _ next => ∀ r, (next r).LooksOnce false

theorem Tx.solo_looking {next : Int → Tx Stmt Result Err ε α} {t : Int}
    (once : (next t).LooksOnce true) :
    (Tx.now next).solo plan (around.looking i t) db i ws = (next t).solo plan around db i ws := by
  have here : (around.looking i t).time i = t := Function.update_self ..
  rw [Tx.solo, here]
  cases is : next t with
  | pure a => rfl
  | throw e => rfl
  | now rest =>
    rw [is] at once
    cases once.1
  | exec s onError rest =>
    have env : (around.looking i t).env i = around.env i := rfl
    have fails : (around.looking i t).fails i = around.fails i := rfl
    simp only [Tx.solo, env, fails]
    split
    · rfl
    split
    · rfl
    exact Tx.solo_congr (fun _ _ => rfl)
      (fun j low => Function.update_of_ne (Nat.ne_of_gt low) ..) fun _ _ => rfl

/-- The next statement of a transaction that throws, when it is spared from outside. -/
theorem Tx.solo_threw {e : ε} (spared : around.fails i = none)
    (threw : (Tx.statement s onError >>= k).solo plan around db i ws = .error e) :
    (∃ e', (plan s (around.env i) (applyAll db ws)).answer = .error e' ∧ e = onError e') ∨
      ∃ ws' r, (plan s (around.env i) (applyAll db ws)).answer = .ok (ws', r) ∧
        (k r).solo plan around db (i + 1) (ws ++ ws') = .error e := by
  cases got : (plan s (around.env i) (applyAll db ws)).answer with
  | error e' =>
    rw [Tx.solo_failed spared got] at threw
    exact Or.inl ⟨e', rfl, (Except.error.inj threw).symm⟩
  | ok found =>
    obtain ⟨ws', r⟩ := found
    rw [Tx.solo_statement spared got] at threw
    exact Or.inr ⟨ws', r, rfl, threw⟩

theorem Tx.solo_ok_iff : (Tx.statement s onError >>= k).solo plan around db i ws = .ok out ↔
    around.fails i = none ∧
      ∃ ws' r, (plan s (around.env i) (applyAll db ws)).answer = .ok (ws', r) ∧
        (k r).solo plan around db (i + 1) (ws ++ ws') = .ok out := by
  constructor
  · exact Tx.solo_returned
  · rintro ⟨spared, ws', r, got, returned⟩
    rw [Tx.solo_statement spared got]
    exact returned

/-- What nothing from outside makes fail throws what its program can throw. -/
theorem Tx.Throws.solo {P : ε → Prop} {body : Tx Stmt Result Err ε α} {e : ε} (throws : body.Throws P)
    (spared : ∀ i, around.fails i = none) (threw : body.solo plan around db i ws = .error e) : P e := by
  induction body generalizing i ws with
  | pure a =>
    rw [Tx.solo_pure (spared i)] at threw
    cases threw
  | throw e' =>
    cases threw
    exact throws
  | now next ih => exact ih _ (throws _) threw
  | exec s onError next ih =>
    simp only [Tx.solo, spared] at threw
    split at threw
    · cases threw
      exact throws.1 _
    · exact ih _ (throws.2 _) threw

theorem Tx.LooksOnce.statement {k : Result s → Tx Stmt Result Err ε α} {looked : Bool}
    (rest : ∀ r, (k r).LooksOnce false) : (Tx.statement s onError >>= k).LooksOnce looked :=
  rest

theorem Tx.LooksOnce.clock {k : Int → Tx Stmt Result Err ε α} (rest : ∀ t, (k t).LooksOnce true) :
    (Tx.clock >>= k).LooksOnce false :=
  ⟨rfl, rest⟩

/-! ### Its steps -/

/-- A session somewhere in its transaction, before statement `at_`. The statements are numbered
so that what each of them meets can be given. -/
structure Soloist (S Db Write R Stmt : Type) (Result : Stmt → Type) (Err ε α : Type) where
  server : Server S Db Write R
  progress : Progress Stmt Result Err ε α
  at_ : Nat

/-- What fails from outside is rolled back. -/
def Soloist.step (plan : (s : Stmt) → Env → Db → Outcome Write R Err (Result s))
    (around : Surroundings Env ε) (n : S) (σ : Soloist S Db Write R Stmt Result Err ε α) (_ : Unit) :
    Option (Soloist S Db Write R Stmt Result Err ε α) :=
  match σ.progress with
  | .running (.exec s onError next) =>
    match around.fails σ.at_ with
    | some e => some ⟨σ.server.rollback n, .threw e, σ.at_⟩
    | none => ((Tx.exec s onError next).advance plan (around.env σ.at_) (around.time σ.at_)
        σ.server n).map fun done => ⟨done.2, done.1, σ.at_ + 1⟩
  | .running (.pure a) =>
    match around.fails σ.at_ with
    | some e => some ⟨σ.server.rollback n, .threw e, σ.at_⟩
    | none => some ⟨σ.server.commit n, .returned a, σ.at_⟩
  | .running body => (body.advance plan (around.env σ.at_) (around.time σ.at_) σ.server n).map
      fun done => ⟨done.2, done.1, σ.at_⟩
  | _ => none

/-- A session that is alone on its server ends as its transaction does, with the store
and no locks. -/
theorem Tx.solo_steps {n : S} (body : Tx Stmt Result Err ε α) {srv : Server S Db Write R} {i : Nat}
    (only : Only srv n) :
    ∃ m j, execute (Soloist.step plan around n) ⟨srv, .running body, i⟩ (List.replicate m ()) =
      some ⟨⟨(settle srv.db (body.solo plan around srv.db i (srv.writesOf n))).2, [], []⟩,
        .ended (settle srv.db (body.solo plan around srv.db i (srv.writesOf n))).1, j⟩ := by
  induction body generalizing srv i with
  | pure a =>
    refine ⟨1, i, ?_⟩
    cases spared : around.fails i with
    | none => simp [execute, Soloist.step, spared, Tx.solo, settle, Progress.ended, only.commit]
    | some e => simp [execute, Soloist.step, spared, Tx.solo, settle, Progress.ended, only.rollback]
  | throw e =>
    refine ⟨1, i, ?_⟩
    simp [execute, Soloist.step, Tx.advance, Tx.solo, settle, Progress.ended, only.rollback]
  | now next ih =>
    obtain ⟨m, j, ran⟩ := ih (around.time i) (i := i) only
    refine ⟨m + 1, j, ?_⟩
    rw [List.replicate_succ, execute]
    simpa [Soloist.step, Tx.advance, Tx.solo] using ran
  | exec s onError next ih =>
    cases spared : around.fails i with
    | some e =>
      refine ⟨1, i, ?_⟩
      simp [execute, Soloist.step, spared, Tx.solo, settle, Progress.ended, only.rollback]
    | none =>
      cases got : (plan s (around.env i) (srv.view n)).answer with
      | error e =>
        -- The failed statement is followed by the throw.
        refine ⟨2, i + 1, ?_⟩
        have failed : (plan s (around.env i) (applyAll srv.db (srv.writesOf n))).answer = .error e := got
        simp [execute, Soloist.step, spared, Tx.advance, only.statement, got, only.rollback, Tx.solo,
          failed, settle, Progress.ended]
      | ok found =>
        obtain ⟨ws, r⟩ := found
        have found : (plan s (around.env i) (applyAll srv.db (srv.writesOf n))).answer = .ok (ws, r) :=
          got
        obtain ⟨m, j, ran⟩ := ih r (i := i + 1)
          (only.extend (plan s (around.env i) (srv.view n)).locks ws)
        refine ⟨m + 1, j, ?_⟩
        rw [Server.writesOf_extend_self] at ran
        rw [List.replicate_succ, execute]
        simpa [Soloist.step, spared, Tx.advance, only.statement, got, Tx.solo, found] using ran

end

end Lib
