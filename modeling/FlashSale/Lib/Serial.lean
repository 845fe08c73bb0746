/-
# Concurrent transactions and serial orders

Any number of sessions run one transaction each against one store, a statement at a
time and in any order. `Tx.alone` is what a transaction does when no other runs.

* `Explains` says that a serial order of some calls leads to a store and gives the
  calls their answers, and passes through given stores on its way.
* `Explains.refuse` inserts a call that changes nothing at a store that the order
  passes through; `Explains.commit` appends one that changes the last store.
* `Sessions.execute_order`: the sessions that run one after another in an order do
  what their transactions do alone; `Sessions.execute_answers`: and nothing else.
-/
import FlashSale.Lib.Transaction
import FlashSale.Lib.Run
import Mathlib.Data.List.Nodup

set_option linter.unusedSectionVars false

namespace Lib

/-! ### Serial orders -/

section Orders

variable {N D O : Type} (call : N → D → O × D)

/-- The store after calls that run one after another. -/
def after (start : D) (order : List N) : D := order.foldl (fun d n => (call n d).2) start

/-- The answer of a call in its turn. -/
def AnswersIn (start : D) (order : List N) (n : N) (o : O) : Prop :=
  ∃ earlier later, order = earlier ++ n :: later ∧ (call n (after call start earlier)).1 = o

/-- An order of the calls that have answered, which explains their answers and the
store, and passes through the stores that were seen. -/
structure Explains (start : D) (seen : List D) (answered : N → O → Prop) (order : List N)
    (d : D) : Prop where
  nodup : order.Nodup
  store : after call start order = d
  answers : ∀ n o, answered n o → AnswersIn call start order n o
  only : ∀ n ∈ order, ∃ o, answered n o
  passes : ∀ t ∈ seen, ∃ earlier later, order = earlier ++ later ∧ after call start earlier = t

variable {call} {start d : D} {seen : List D} {answered answered' : N → O → Prop} {order : List N}

theorem after_append (more : List N) :
    after call start (order ++ more) = after call (after call start order) more :=
  List.foldl_append

theorem after_cons (n : N) : after call start (n :: order) = after call (call n start).2 order := rfl

theorem Explains.nil : Explains call start [start] (fun _ _ => False) [] start := by
  constructor
  · exact List.nodup_nil
  · rfl
  · intro n o answered
    exact answered.elim
  · intro n mem
    cases mem
  · intro t mem
    exact ⟨[], [], rfl, (List.mem_singleton.mp mem).symm⟩

/-- A store that is seen again changes nothing. -/
theorem Explains.see (explains : Explains call start seen answered order d) :
    Explains call start (seen ++ [d]) answered order d := by
  obtain ⟨nodup, store, answers, only, passes⟩ := explains
  refine ⟨nodup, store, answers, only, fun t mem => ?_⟩
  rcases List.mem_append.mp mem with old | new
  · exact passes t old
  · rw [List.mem_singleton.mp new]
    exact ⟨order, [], (List.append_nil _).symm, store⟩

theorem Explains.congr (explains : Explains call start seen answered order d)
    (same : ∀ n o, answered' n o ↔ answered n o) :
    Explains call start seen answered' order d := by
  obtain ⟨nodup, store, answers, only, passes⟩ := explains
  refine ⟨nodup, store, fun n o is => answers n o ((same n o).mp is), fun n mem => ?_, passes⟩
  obtain ⟨o, is⟩ := only n mem
  exact ⟨o, (same n o).mpr is⟩

/-- A call answers what it answers where it stands. -/
theorem Explains.answer_at (explains : Explains call start seen answered order d) {n : N} {o : O}
    {earlier later : List N} (split : order = earlier ++ n :: later) (is : answered n o) :
    (call n (after call start earlier)).1 = o := by
  obtain ⟨earlier', later', split', answer⟩ := explains.answers n o is
  have nodup := explains.nodup
  rw [split, List.nodup_append] at nodup
  have absent : n ∉ earlier := fun mem => nodup.2.2 n mem n List.mem_cons_self rfl
  have absent' : n ∉ later := (List.nodup_cons.mp nodup.2.1).1
  rw [split, List.append_cons_inj_of_notMem absent absent'] at split'
  rw [split'.1]
  exact answer

/-- The order with a call inserted that changes nothing where it is inserted. -/
theorem after_insert {earlier later : List N} {n : N} {o : O}
    (silent : call n (after call start earlier) = (o, after call start earlier)) :
    after call start (earlier ++ n :: later) = after call start (earlier ++ later) := by
  rw [after_append, after_cons, silent, ← after_append]

/-- A call that changes nothing goes where the order passes through the store that
explains its answer. -/
theorem Explains.refuse (explains : Explains call start seen answered order d) {n : N} {o : O}
    {t : D} (mem : t ∈ seen) (silent : call n t = (o, t)) (new : ∀ o, ¬ answered n o) :
    ∃ order', Explains call start seen (fun m p => answered m p ∨ (m = n ∧ p = o)) order' d := by
  obtain ⟨nodup, store, answers, only, passes⟩ := explains
  obtain ⟨earlier, later, rfl, here⟩ := passes t mem
  subst here
  have absent : n ∉ earlier ++ later := by
    intro inside
    obtain ⟨o', is⟩ := only n inside
    exact new o' is
  refine ⟨earlier ++ n :: later, ?_, ?_, ?_, ?_, ?_⟩
  · rw [List.perm_middle.nodup_iff]
    exact List.nodup_cons.mpr ⟨absent, nodup⟩
  · rw [after_insert silent, store]
  · rintro m p (old | ⟨rfl, rfl⟩)
    · obtain ⟨before, rest, split, answer⟩ := answers m p old
      rcases List.append_eq_append_iff.mp split with ⟨mid, rfl, tail⟩ | ⟨mid, rfl, tail⟩
      · -- The call comes after the one inserted.
        subst tail
        refine ⟨earlier ++ n :: mid, rest, by simp, ?_⟩
        rw [after_insert silent]
        exact answer
      · cases mid with
        | nil =>
          rw [List.nil_append] at tail
          subst tail
          refine ⟨before ++ [n], rest, by simp, ?_⟩
          have at_ : after call start (before ++ [] ++ n :: []) = after call start (before ++ [] ++ []) :=
            after_insert silent
          simp only [List.append_nil] at at_ answer
          rw [at_]
          exact answer
        | cons first mid =>
          obtain ⟨rfl, rfl⟩ := List.cons.inj tail
          exact ⟨before, mid ++ n :: later, by simp, answer⟩
    · refine ⟨earlier, later, rfl, ?_⟩
      rw [silent]
  · intro m inside
    rcases List.mem_append.mp inside with old | later'
    · obtain ⟨p, is⟩ := only m (List.mem_append_left _ old)
      exact ⟨p, Or.inl is⟩
    · rcases List.mem_cons.mp later' with rfl | old
      · exact ⟨o, Or.inr ⟨rfl, rfl⟩⟩
      · obtain ⟨p, is⟩ := only m (List.mem_append_right _ old)
        exact ⟨p, Or.inl is⟩
  · intro t' mem'
    obtain ⟨before, rest, split, rfl⟩ := passes t' mem'
    rcases List.append_eq_append_iff.mp split with ⟨mid, rfl, tail⟩ | ⟨mid, rfl, tail⟩
    · subst tail
      exact ⟨earlier ++ n :: mid, rest, by simp, after_insert silent⟩
    · exact ⟨before, mid ++ n :: later, by simp, rfl⟩

/-- A call that takes the last store to a new one comes last. -/
theorem Explains.commit (explains : Explains call start seen answered order d) {n : N} {o : O}
    {d' : D} (commits : call n d = (o, d')) (new : ∀ o, ¬ answered n o) :
    Explains call start (seen ++ [d']) (fun m p => answered m p ∨ (m = n ∧ p = o))
      (order ++ [n]) d' := by
  obtain ⟨nodup, store, answers, only, passes⟩ := explains
  have last : after call start (order ++ [n]) = d' := by
    rw [after_append, store, after_cons, commits]
    rfl
  constructor
  · rw [List.nodup_append]
    refine ⟨nodup, List.nodup_singleton n, fun m inside m' is => ?_⟩
    rintro rfl
    rw [List.mem_singleton.mp is] at inside
    obtain ⟨o', is'⟩ := only n inside
    exact new o' is'
  · exact last
  · rintro m p (old | ⟨rfl, rfl⟩)
    · obtain ⟨earlier, later, rfl, answer⟩ := answers m p old
      exact ⟨earlier, later ++ [n], by simp, answer⟩
    · refine ⟨order, [], rfl, ?_⟩
      rw [store, commits]
  · intro m inside
    rcases List.mem_append.mp inside with old | own
    · obtain ⟨p, is⟩ := only m old
      exact ⟨p, Or.inl is⟩
    · exact ⟨o, Or.inr ⟨List.mem_singleton.mp own, rfl⟩⟩
  · intro t mem
    rcases List.mem_append.mp mem with old | own
    · obtain ⟨earlier, later, rfl, here⟩ := passes t old
      exact ⟨earlier, later ++ [n], by simp, here⟩
    · rw [List.mem_singleton.mp own]
      exact ⟨order ++ [n], [], (List.append_nil _).symm, last⟩

end Orders

/-! ### Transactions by themselves -/

section Transactions

variable {Stmt Env Err ε α S Db Write R : Type} {Result : Stmt → Type}
  [Storage Write Db R] [DecidableEq S] [DecidableEq R]

variable (plan : (s : Stmt) → Env → Db → Outcome Write R Err (Result s)) (env : Env) (time : Int)

/-- A transaction that has written `ws` and goes on while no other runs: what it
returns and has written in the end, or what it throws. -/
def Tx.alone (db : Db) : Tx Stmt Result Err ε α → List Write → Except ε (α × List Write)
  | .pure a, ws => .ok (a, ws)
  | .throw e, _ => .error e
  | .now next, ws => (next time).alone db ws
  | .exec s onError next, ws =>
    match (plan s env (applyAll db ws)).answer with
    | .error e => .error (onError e)
    | .ok (ws', r) => (next r).alone db (ws ++ ws')

section Alone

variable {plan env time} {db : Db} {ws ws' : List Write} {s : Stmt} {onError : Err → ε}
  {k : Result s → Tx Stmt Result Err ε α}

theorem Tx.alone_statement {r : Result s}
    (got : (plan s env (applyAll db ws)).answer = .ok (ws', r)) :
    (Tx.statement s onError >>= k).alone plan env time db ws =
      (k r).alone plan env time db (ws ++ ws') := by
  show (Tx.exec s onError k).alone plan env time db ws = _
  rw [Tx.alone, got]

theorem Tx.alone_failed {e : Err} (got : (plan s env (applyAll db ws)).answer = .error e) :
    (Tx.statement s onError >>= k).alone plan env time db ws = .error (onError e) := by
  show (Tx.exec s onError k).alone plan env time db ws = _
  rw [Tx.alone, got]

/-- The first statement of a transaction that returns. -/
theorem Tx.alone_returned {out : α × List Write}
    (returned : (Tx.statement s onError >>= k).alone plan env time db ws = .ok out) :
    ∃ ws' r, (plan s env (applyAll db ws)).answer = .ok (ws', r) ∧
      (k r).alone plan env time db (ws ++ ws') = .ok out := by
  cases got : (plan s env (applyAll db ws)).answer with
  | error e =>
    rw [Tx.alone_failed got] at returned
    cases returned
  | ok found =>
    obtain ⟨ws', r⟩ := found
    rw [Tx.alone_statement got] at returned
    exact ⟨ws', r, rfl, returned⟩

/-- What is written stays written. -/
theorem Tx.alone_extends {body : Tx Stmt Result Err ε α} {a : α} {out : List Write}
    (returned : body.alone plan env time db ws = .ok (a, out)) : ∃ more, out = ws ++ more := by
  induction body generalizing ws with
  | pure a =>
    cases returned
    exact ⟨[], (List.append_nil _).symm⟩
  | throw e => cases returned
  | now next ih => exact ih _ returned
  | exec s onError next ih =>
    rw [Tx.alone] at returned
    cases got : (plan s env (applyAll db ws)).answer with
    | error e =>
      rw [got] at returned
      cases returned
    | ok found =>
      obtain ⟨ws', r⟩ := found
      rw [got] at returned
      obtain ⟨more, rfl⟩ := ih r returned
      exact ⟨ws' ++ more, List.append_assoc _ _ _⟩

end Alone

/-- The answer of a transaction, and the store after it: one that throws leaves the store as
it was. -/
def settle (db : Db) : Except ε (α × List Write) → Except ε α × Db
  | .ok (a, ws) => (.ok a, applyAll db ws)
  | .error e => (.error e, db)

/-- A whole transaction that runs while no other does. -/
def Tx.inTurn (body : Tx Stmt Result Err ε α) (db : Db) : Except ε α × Db :=
  settle db (body.alone plan env time db [])

/-- A transaction that has ended. -/
def Progress.ended : Except ε α → Progress Stmt Result Err ε α
  | .ok a => .returned a
  | .error e => .threw e

theorem Progress.ended_injective {o o' : Except ε α}
    (same : (Progress.ended o : Progress Stmt Result Err ε α) = .ended o') : o = o' := by
  cases o <;> cases o' <;> cases same <;> rfl

/-- What has ended once one more transaction has. -/
theorem ended_update {progress : S → Progress Stmt Result Err ε α} {n : S}
    {body : Tx Stmt Result Err ε α} (running : progress n = .running body) (o : Except ε α) (m : S)
    (p : Except ε α) :
    Function.update progress n (.ended o) m = .ended p ↔
      progress m = .ended p ∨ (m = n ∧ p = o) := by
  by_cases own : m = n
  · subst own
    rw [Function.update_self, running]
    constructor
    · intro same
      exact Or.inr ⟨rfl, (Progress.ended_injective same).symm⟩
    · rintro (old | ⟨-, rfl⟩)
      · cases p <;> cases old
      · rfl
  · simp [own]

/-! ### Sessions -/

/-- Sessions on one server, each somewhere in a transaction of its own. No other process uses
the server. -/
structure Sessions (S Db Write R Stmt : Type) (Result : Stmt → Type) (Err ε α : Type) where
  server : Server S Db Write R
  progress : S → Progress Stmt Result Err ε α

/-- No transaction has begun. -/
def Sessions.start (db : Db) (body : S → Tx Stmt Result Err ε α) :
    Sessions S Db Write R Stmt Result Err ε α :=
  ⟨⟨db, [], []⟩, fun n => .running (body n)⟩

end Transactions

section Holding

variable {Stmt Env Err ε α S Db Write R : Type} {Result : Stmt → Type}
  [Storage Write Db R] [DecidableEq S] [DecidableEq R]
  {plan : (s : Stmt) → Env → Db → Outcome Write R Err (Result s)} {env : Env} {time : Int}
  {srv srv' : Server S Db Write R} {n : S} {ws : List Write} {L : List (Lock R)} {F : Db → Prop}

/-- The statement of a session that has written, locked and learned something. -/
theorem Holds.answered (holds : Holds srv n ws L F) {s : Stmt} {onError : Err → ε}
    {k : Result s → Tx Stmt Result Err ε α} {progress : Progress Stmt Result Err ε α}
    {ws' : List Write} {r : Result s} (got : (plan s env (applyAll srv.db ws)).answer = .ok (ws', r))
    (h : (Tx.statement s onError >>= k).advance plan env time srv n = some (progress, srv')) :
    progress = .running (k r) ∧ srv'.db = srv.db ∧
      ∀ F', Stable Write ((plan s env (applyAll srv.db ws)).locks ++ L) F' → F' srv.db →
        Holds srv' n (ws ++ ws') ((plan s env (applyAll srv.db ws)).locks ++ L) F' := by
  obtain ⟨⟨answer, server⟩, ran, eq⟩ := Option.map_eq_some_iff.mp h
  have reads : srv.view n = applyAll srv.db ws := by rw [Server.view, holds.writes]
  rw [reads] at ran
  rcases Server.statement_cases ran with ⟨e, got', -, -⟩ | ⟨ws'', r', got', rfl, _, rfl⟩
  · rw [got] at got'
    cases got'
  · rw [got] at got'
    cases got'
    cases eq
    exact ⟨rfl, rfl, fun F' stable facts => holds.extend stable facts⟩

theorem Holds.failed (holds : Holds srv n ws L F) {s : Stmt} {onError : Err → ε}
    {k : Result s → Tx Stmt Result Err ε α} {progress : Progress Stmt Result Err ε α} {e : Err}
    (got : (plan s env (applyAll srv.db ws)).answer = .error e)
    (h : (Tx.statement s onError >>= k).advance plan env time srv n = some (progress, srv')) :
    progress = .running (.throw (onError e)) ∧ srv' = srv := by
  obtain ⟨⟨answer, server⟩, ran, eq⟩ := Option.map_eq_some_iff.mp h
  have reads : srv.view n = applyAll srv.db ws := by rw [Server.view, holds.writes]
  rw [reads] at ran
  rcases Server.statement_cases ran with ⟨e', got', rfl, rfl⟩ | ⟨ws'', r', got', -, -, -⟩
  · rw [got] at got'
    cases got'
    cases eq
    exact ⟨rfl, rfl⟩
  · rw [got] at got'
    cases got'

end Holding

section Concurrent

variable {Stmt Env Err ε α S Db Write R : Type} {Result : Stmt → Type}
  [Storage Write Db R] [DecidableEq S] [DecidableEq R]

/-- A step of one session; `none` when it has ended or waits for a lock. -/
def Sessions.step (plan : (s : Stmt) → Env → Db → Outcome Write R Err (Result s)) (env : S → Env)
    (time : S → Int) (σ : Sessions S Db Write R Stmt Result Err ε α) (n : S) :
    Option (Sessions S Db Write R Stmt Result Err ε α) :=
  match σ.progress n with
  | .running body => (body.advance plan (env n) (time n) σ.server n).map fun done =>
      ⟨done.2, Function.update σ.progress n done.1⟩
  | _ => none

variable {plan : (s : Stmt) → Env → Db → Outcome Write R Err (Result s)} {env : S → Env}
  {time : S → Int} {σ : Sessions S Db Write R Stmt Result Err ε α} {n : S}

/-- Only one session has written or locked anything. -/
structure Only (srv : Server S Db Write R) (n : S) : Prop where
  pending : ∀ p ∈ srv.pending, p.1 = n
  locks : ∀ p ∈ srv.locks, p.1 = n

section Only

variable {srv : Server S Db Write R}

theorem Only.extend (only : Only srv n) (locks : List (Lock R)) (ws : List Write) :
    Only (srv.extend n locks ws) n := by
  constructor
  · intro p mem
    rcases List.mem_append.mp mem with old | new
    · exact only.pending p old
    · obtain ⟨w, _, rfl⟩ := List.mem_map.mp new
      rfl
  · intro p mem
    rcases List.mem_append.mp mem with old | new
    · exact only.locks p old
    · obtain ⟨l, _, rfl⟩ := List.mem_map.mp new
      rfl

theorem Only.rollback (only : Only srv n) : srv.rollback n = ⟨srv.db, [], []⟩ := by
  have none : ∀ {β : Type} {ps : List (S × β)}, (∀ p ∈ ps, p.1 = n) →
      ps.filter (fun p => decide (p.1 ≠ n)) = [] := by
    intro β ps all
    rw [List.filter_eq_nil_iff]
    intro p mem
    simp [all p mem]
  rw [Server.rollback, none only.pending, none only.locks]

theorem Only.commit (only : Only srv n) :
    srv.commit n = ⟨applyAll srv.db (srv.writesOf n), [], []⟩ := by
  rw [Server.commit, only.rollback]
  rfl

/-- A session alone waits for no lock. -/
theorem Only.statement {ρ : Type} (only : Only srv n) (o : Outcome Write R Err ρ) :
    srv.statement n o = some (match o.answer with
      | .error e => (.error e, srv)
      | .ok (ws, r) => (.ok r, srv.extend n o.locks ws)) := by
  have free : o.locks.all (srv.grants n) = true := by
    rw [List.all_eq_true]
    intro l _
    refine List.all_eq_true.mpr fun held mem => ?_
    simp [only.locks held mem]
  rw [Server.statement, if_pos free]
  cases o.answer <;> rfl

theorem only_quiet (db : Db) : Only (⟨db, [], []⟩ : Server S Db Write R) n := by
  constructor <;> simp

/-- A statement that is a transaction of its own, where nothing else goes on. -/
theorem auto_quiet {ρ : Type} (db : Db) (o : Outcome Write R Err ρ) :
    (⟨db, [], []⟩ : Server S Db Write R).auto n o = some (match o.answer with
      | .error e => (.error e, ⟨db, [], []⟩)
      | .ok (ws, r) => (.ok r, ⟨applyAll db ws, [], []⟩)) := by
  have only : Only (⟨db, [], []⟩ : Server S Db Write R) n := only_quiet db
  rw [Server.auto, only.statement]
  cases o.answer with
  | error e =>
    rw [Option.map_some]
    dsimp only
    rw [only.rollback]
  | ok found =>
    obtain ⟨ws, r⟩ := found
    rw [Option.map_some]
    dsimp only
    rw [(only.extend o.locks ws).commit, Server.writesOf_extend_self]
    rfl

end Only

/-- A session that steps while no other has begun does what its transaction does alone. -/
theorem Sessions.execute_alone {body : Tx Stmt Result Err ε α} (running : σ.progress n = .running body)
    (only : Only σ.server n) :
    ∃ k, execute (Sessions.step plan env time) σ (List.replicate k n) =
      some ⟨⟨(settle σ.server.db
          (body.alone plan (env n) (time n) σ.server.db (σ.server.writesOf n))).2, [], []⟩,
        Function.update σ.progress n (.ended (settle σ.server.db
          (body.alone plan (env n) (time n) σ.server.db (σ.server.writesOf n))).1)⟩ := by
  induction body generalizing σ with
  | pure a =>
    refine ⟨1, ?_⟩
    simp [execute, Sessions.step, running, Tx.advance, Tx.alone, settle, Progress.ended, only.commit]
  | throw e =>
    refine ⟨1, ?_⟩
    simp [execute, Sessions.step, running, Tx.advance, Tx.alone, settle, Progress.ended, only.rollback]
  | now next ih =>
    have taken : Sessions.step plan env time σ n =
        some ⟨σ.server, Function.update σ.progress n (.running (next (time n)))⟩ := by
      simp [Sessions.step, running, Tx.advance]
    have next' : (⟨σ.server, Function.update σ.progress n (.running (next (time n)))⟩ :
        Sessions S Db Write R Stmt Result Err ε α).progress n = .running (next (time n)) := by simp
    obtain ⟨k, ran⟩ := ih (time n) next' only
    refine ⟨k + 1, ?_⟩
    rw [List.replicate_succ, execute, taken, Option.bind_some, ran]
    simp [Tx.alone]
  | exec st onError next ih =>
    cases got : (plan st (env n) (σ.server.view n)).answer with
    | error e =>
      -- The failed statement is followed by the throw.
      refine ⟨2, ?_⟩
      have failed : (plan st (env n) (applyAll σ.server.db (σ.server.writesOf n))).answer = .error e :=
        got
      simp [execute, Sessions.step, running, Tx.advance, only.statement, got, only.rollback,
        Tx.alone, failed, settle, Progress.ended]
    | ok found =>
      obtain ⟨ws, r⟩ := found
      have found : (plan st (env n) (applyAll σ.server.db (σ.server.writesOf n))).answer =
        .ok (ws, r) := got
      have taken : Sessions.step plan env time σ n =
          some ⟨σ.server.extend n (plan st (env n) (σ.server.view n)).locks ws,
            Function.update σ.progress n (.running (next r))⟩ := by
        simp [Sessions.step, running, Tx.advance, only.statement, got]
      have next' : (⟨σ.server.extend n (plan st (env n) (σ.server.view n)).locks ws,
          Function.update σ.progress n (.running (next r))⟩ :
          Sessions S Db Write R Stmt Result Err ε α).progress n = .running (next r) := by simp
      obtain ⟨k, ran⟩ := ih r next' (only.extend _ _)
      refine ⟨k + 1, ?_⟩
      rw [List.replicate_succ, execute, taken, Option.bind_some, ran, Server.writesOf_extend_self]
      simp [Tx.alone, found]

/-- What the transactions of the sessions do by themselves. -/
def inTurn (plan : (s : Stmt) → Env → Db → Outcome Write R Err (Result s)) (env : S → Env)
    (time : S → Int) (body : S → Tx Stmt Result Err ε α) (n : S) (db : Db) : Except ε α × Db :=
  (body n).inTurn plan (env n) (time n) db

/-- The sessions that run one after another do what their transactions do alone, and leave the
store that these lead to. -/
theorem Sessions.execute_order {body : S → Tx Stmt Result Err ε α} {order : List S} {db : Db}
    (nodup : order.Nodup) (server : σ.server = ⟨db, [], []⟩)
    (waiting : ∀ n ∈ order, σ.progress n = .running (body n)) :
    ∃ (steps : S → Nat) (τ : Sessions S Db Write R Stmt Result Err ε α),
      execute (Sessions.step plan env time) σ
        (order.flatMap fun n => List.replicate (steps n) n) = some τ ∧
      τ.server = ⟨after (inTurn plan env time body) db order, [], []⟩ ∧
      (∀ n, n ∉ order → τ.progress n = σ.progress n) ∧
      ∀ n o, AnswersIn (inTurn plan env time body) db order n o → τ.progress n = .ended o := by
  induction order generalizing σ db with
  | nil =>
    refine ⟨fun _ => 0, σ, rfl, server, fun _ _ => rfl, ?_⟩
    rintro n o ⟨earlier, later, split, _⟩
    exact absurd split.symm (List.append_ne_nil_of_right_ne_nil _ (List.cons_ne_nil _ _))
  | cons n order ih =>
    obtain ⟨absent, nodup⟩ := List.nodup_cons.mp nodup
    have only : Only σ.server n := by
      rw [server]
      exact ⟨fun _ mem => (List.not_mem_nil mem).elim, fun _ mem => (List.not_mem_nil mem).elim⟩
    have first : ∃ k, execute (Sessions.step plan env time) σ (List.replicate k n) = _ :=
      Sessions.execute_alone (waiting n List.mem_cons_self) only
    obtain ⟨k, first⟩ := first
    have written : σ.server.writesOf n = [] := by
      rw [server]
      rfl
    have store : σ.server.db = db := by rw [server]
    rw [written, store] at first
    have others : ∀ m, m ≠ n → Function.update σ.progress n
        (.ended (inTurn plan env time body n db).1) m = σ.progress m := fun m other =>
      Function.update_of_ne other _ _
    have waiting' : ∀ m ∈ order, (⟨⟨(inTurn plan env time body n db).2, [], []⟩,
        Function.update σ.progress n (.ended (inTurn plan env time body n db).1)⟩ :
        Sessions S Db Write R Stmt Result Err ε α).progress m = .running (body m) := by
      intro m mem
      refine (others m ?_).trans (waiting m (List.mem_cons_of_mem _ mem))
      rintro rfl
      exact absent mem
    obtain ⟨steps, τ, ran, store', kept, answers⟩ := ih nodup rfl waiting'
    refine ⟨Function.update steps n k, τ, ?_, ?_, ?_, ?_⟩
    · have same : order.flatMap (fun m => List.replicate (Function.update steps n k m) m) =
          order.flatMap fun m => List.replicate (steps m) m := by
        refine List.flatMap_congr fun m mem => ?_
        rw [Function.update_of_ne fun is : m = n => absent (is ▸ mem)]
      rw [List.flatMap_cons, same, Function.update_self, execute_append, first]
      exact ran
    · exact store'
    · intro m away
      obtain ⟨other, away⟩ := not_or.mp fun is => away (List.mem_cons.mpr is)
      exact (kept m away).trans (others m other)
    · rintro m o ⟨earlier, later, split, answer⟩
      cases earlier with
      | nil =>
        obtain ⟨rfl, rfl⟩ := List.cons.inj split
        rw [kept _ absent, ← answer]
        exact Function.update_self _ _ _
      | cons n' earlier =>
        obtain ⟨rfl, rfl⟩ := List.cons.inj split
        exact answers m o ⟨earlier, later, rfl, answer⟩

/-- A session that has ended takes no step. -/
theorem Sessions.execute_ended {o : Except ε α} (ended : σ.progress n = .ended o) (k : Nat) :
    execute (Sessions.step plan env time) σ (List.replicate (k + 1) n) = none := by
  have stays : Sessions.step plan env time σ n = none := by
    cases o <;> simp [Sessions.step, ended, Progress.ended]
  rw [List.replicate_succ, execute, stays]
  rfl

/-- A session ends after one number of steps only. -/
theorem Sessions.execute_unique {k k' : Nat} {τ τ' : Sessions S Db Write R Stmt Result Err ε α}
    {o o' : Except ε α}
    (ran : execute (Sessions.step plan env time) σ (List.replicate k n) = some τ)
    (ended : τ.progress n = .ended o)
    (ran' : execute (Sessions.step plan env time) σ (List.replicate k' n) = some τ')
    (ended' : τ'.progress n = .ended o') : τ = τ' := by
  have longer : ∀ {i j : Nat} {υ υ' : Sessions S Db Write R Stmt Result Err ε α} {p : Except ε α},
      execute (Sessions.step plan env time) σ (List.replicate i n) = some υ →
      υ.progress n = .ended p →
      execute (Sessions.step plan env time) σ (List.replicate (i + j) n) = some υ' → υ = υ' := by
    intro i j υ υ' p first is second
    rw [List.replicate_add, execute_append, first, Option.bind_some] at second
    cases j with
    | zero => exact Option.some.inj second
    | succ j =>
      rw [Sessions.execute_ended is] at second
      cases second
  rcases Nat.le_total k k' with le | le
  · obtain ⟨j, rfl⟩ := Nat.exists_eq_add_of_le le
    exact longer ran ended ran'
  · obtain ⟨j, rfl⟩ := Nat.exists_eq_add_of_le le
    exact (longer ran' ended' ran).symm

/-- The steps of other sessions leave a session where it is. -/
theorem Sessions.execute_others {labels : List S} {τ : Sessions S Db Write R Stmt Result Err ε α}
    (ran : execute (Sessions.step plan env time) σ labels = some τ) (away : n ∉ labels) :
    τ.progress n = σ.progress n := by
  induction labels generalizing σ with
  | nil =>
    cases ran
    rfl
  | cons m labels ih =>
    obtain ⟨other, away⟩ := not_or.mp fun is => away (List.mem_cons.mpr is)
    obtain ⟨σ', taken, ran⟩ := Option.bind_eq_some_iff.mp ran
    apply (ih ran away).trans
    unfold Sessions.step at taken
    split at taken
    · obtain ⟨_, _, rfl⟩ := Option.map_eq_some_iff.mp taken
      exact Function.update_of_ne other _ _
    · cases taken

/-- Sessions that run one after another until they have ended answer what their
transactions answer alone. -/
theorem Sessions.execute_answers {body : S → Tx Stmt Result Err ε α} {order : List S} {db : Db}
    {steps : S → Nat} {τ : Sessions S Db Write R Stmt Result Err ε α} (nodup : order.Nodup)
    (server : σ.server = ⟨db, [], []⟩) (waiting : ∀ n ∈ order, σ.progress n = .running (body n))
    (ran : execute (Sessions.step plan env time) σ
      (order.flatMap fun n => List.replicate (steps n) n) = some τ)
    (ended : ∀ n ∈ order, ∃ o, τ.progress n = .ended o) {n : S} {earlier later : List S}
    (split : order = earlier ++ n :: later) :
    τ.progress n = .ended
      (inTurn plan env time body n (after (inTurn plan env time body) db earlier)).1 := by
  induction order generalizing σ db earlier with
  | nil => exact absurd split.symm (List.append_ne_nil_of_right_ne_nil _ (List.cons_ne_nil _ _))
  | cons m order ih =>
    obtain ⟨absent, nodup⟩ := List.nodup_cons.mp nodup
    rw [List.flatMap_cons, execute_append] at ran
    obtain ⟨σ', first, ran⟩ := Option.bind_eq_some_iff.mp ran
    have kept : τ.progress m = σ'.progress m := by
      refine Sessions.execute_others ran fun mem => ?_
      obtain ⟨m', mem', own⟩ := List.mem_flatMap.mp mem
      rw [List.eq_of_mem_replicate own] at absent
      exact absent mem'
    -- The first session has stopped where it stops alone.
    have only : Only σ.server m := by
      rw [server]
      constructor
      · intro p mem
        cases mem
      · intro p mem
        cases mem
    have whole : ∃ k, execute (Sessions.step plan env time) σ (List.replicate k m) = _ :=
      Sessions.execute_alone (waiting m List.mem_cons_self) only
    obtain ⟨k, whole⟩ := whole
    have written : σ.server.writesOf m = [] := by
      rw [server]
      rfl
    have store : σ.server.db = db := by rw [server]
    rw [written, store] at whole
    obtain ⟨o, is⟩ := ended m List.mem_cons_self
    have stopped := Sessions.execute_unique first (kept.symm.trans is) whole
      (Function.update_self _ _ _)
    subst stopped
    cases earlier with
    | nil =>
      obtain ⟨rfl, rfl⟩ := List.cons.inj split
      exact kept.trans (Function.update_self _ _ _)
    | cons m' earlier =>
      obtain ⟨rfl, rfl⟩ := List.cons.inj split
      have waiting' : ∀ n' ∈ earlier ++ n :: later, Function.update σ.progress m
          (.ended (inTurn plan env time body m db).1) n' = .running (body n') := by
        intro n' mem
        refine (Function.update_of_ne ?_ _ _).trans (waiting n' (List.mem_cons_of_mem _ mem))
        rintro rfl
        exact absent mem
      have rest : τ.progress n = .ended (inTurn plan env time body n
          (after (inTurn plan env time body) (inTurn plan env time body m db).2 earlier)).1 :=
        ih nodup rfl waiting' ran (fun n' mem => ended n' (List.mem_cons_of_mem _ mem)) rfl
      exact rest

end Concurrent

end Lib
