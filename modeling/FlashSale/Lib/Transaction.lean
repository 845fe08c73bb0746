/-
# Transactions as programs, and outlines of their proofs

A transaction is a program that runs statements one after another on a session,
may read the clock between them, and ends by returning or by throwing. Other
sessions run between any two of its statements.

`Safe` is a proof outline of such a program. It carries what the transaction has
written, the locks it holds, and a fact about the committed rows that these
locks keep `Stable`. Nothing else about the other sessions is used, so an
outline holds among any number of them.

* `Tx.Throws` bounds what a program can throw, `Tx.Runs` the statements it can run.
* `Safe.bind` composes outlines.
* `SafeAt.frame` keeps an outline valid while other sessions step.
* `SafeAt.advance` follows the program through its own step, and
  `SafeAt.returns` reads off what a commit does to the committed rows.
-/
import FlashSale.Lib.ReadCommitted

set_option linter.unusedSectionVars false

namespace Lib

/-- Programs of one transaction. A failed statement can only be rethrown, as the
database runs no further statement of a failed transaction. -/
inductive Tx (Stmt : Type) (Result : Stmt → Type) (Err ε α : Type) where
  | pure (a : α)
  | throw (e : ε)
  | exec (s : Stmt) (onError : Err → ε) (next : Result s → Tx Stmt Result Err ε α)
  | now (next : Int → Tx Stmt Result Err ε α)

namespace Tx

variable {Stmt : Type} {Result : Stmt → Type} {Err ε α β : Type}

def bind : Tx Stmt Result Err ε α → (α → Tx Stmt Result Err ε β) → Tx Stmt Result Err ε β
  | .pure a, k => k a
  | .throw e, _ => .throw e
  | .exec s onError next, k => .exec s onError fun r => (next r).bind k
  | .now next, k => .now fun t => (next t).bind k

instance : Monad (Tx Stmt Result Err ε) where
  pure := Tx.pure
  bind := Tx.bind

/-- Run a statement; `onError` is what the program throws when it fails. -/
def statement (s : Stmt) (onError : Err → ε) : Tx Stmt Result Err ε (Result s) :=
  .exec s onError .pure

/-- The wall clock of the process that runs the program. -/
def clock : Tx Stmt Result Err ε Int := .now .pure

end Tx

section

variable {Stmt Env Err ε α β S Db Write R : Type} {Result : Stmt → Type}
  [Storage Write Db R] [DecidableEq S] [DecidableEq R]

/-- What a step of a transaction leaves: more program, or its answer. An answer is final, and
the locks are gone with it. -/
inductive Progress (Stmt : Type) (Result : Stmt → Type) (Err ε α : Type) where
  | running (body : Tx Stmt Result Err ε α)
  | returned (a : α)
  | threw (e : ε)

/-- One step of an open transaction. A statement that fails leaves the
transaction to be rolled back by the throw that follows. -/
def Tx.advance (plan : (s : Stmt) → Env → Db → Outcome Write R Err (Result s)) (env : Env)
    (time : Int) (srv : Server S Db Write R) (s : S) :
    Tx Stmt Result Err ε α → Option (Progress Stmt Result Err ε α × Server S Db Write R)
  | .pure a => some (.returned a, srv.commit s)
  | .throw e => some (.threw e, srv.rollback s)
  | .now next => some (.running (next time), srv)
  | .exec st onError next =>
    (srv.statement s (plan st env (srv.view s))).map fun
      | (.error e, srv') => (.running (.throw (onError e)), srv')
      | (.ok r, srv') => (.running (next r), srv')

/-! ### Throws -/

/-- Everything that a program can throw is as `P` says. -/
def Tx.Throws (P : ε → Prop) : Tx Stmt Result Err ε α → Prop
  | .pure _ => True
  | .throw e => P e
  | .exec _ onError next => (∀ e, P (onError e)) ∧ ∀ r, (next r).Throws P
  | .now next => ∀ t, (next t).Throws P

theorem Tx.Throws.bind {P : ε → Prop} {m : Tx Stmt Result Err ε α} {k : α → Tx Stmt Result Err ε β}
    (first : m.Throws P) (rest : ∀ a, (k a).Throws P) : (m >>= k).Throws P := by
  show (m.bind k).Throws P
  induction m with
  | pure a => exact rest a
  | throw e => exact first
  | exec s onError next ih => exact ⟨first.1, fun r => ih r (first.2 r)⟩
  | now next ih => exact fun t => ih t (first t)

theorem Tx.Throws.statement {P : ε → Prop} {s : Stmt} {onError : Err → ε}
    (errors : ∀ e, P (onError e)) : (Tx.statement s onError : Tx Stmt Result Err ε _).Throws P :=
  ⟨errors, fun _ => trivial⟩

theorem Tx.Throws.advance {P : ε → Prop} {body next : Tx Stmt Result Err ε α}
    (throws : body.Throws P)
    {plan : (s : Stmt) → Env → Db → Outcome Write R Err (Result s)} {env : Env} {time : Int}
    {srv srv' : Server S Db Write R} {s : S}
    (h : body.advance plan env time srv s = some (.running next, srv')) : next.Throws P := by
  cases body with
  | pure a => cases h
  | throw e => cases h
  | now rest =>
    cases h
    exact throws time
  | exec st onError rest =>
    obtain ⟨⟨answer, server⟩, -, eq⟩ := Option.map_eq_some_iff.mp h
    cases answer with
    | error e =>
      cases eq
      exact throws.1 e
    | ok r =>
      cases eq
      exact throws.2 r

/-! ### Statements -/

/-- Every statement that a program can run is as `P` says. -/
def Tx.Runs (P : Stmt → Prop) : Tx Stmt Result Err ε α → Prop
  | .pure _ => True
  | .throw _ => True
  | .exec s _ next => P s ∧ ∀ r, (next r).Runs P
  | .now next => ∀ t, (next t).Runs P

theorem Tx.Runs.bind {P : Stmt → Prop} {m : Tx Stmt Result Err ε α} {k : α → Tx Stmt Result Err ε β}
    (first : m.Runs P) (rest : ∀ a, (k a).Runs P) : (m >>= k).Runs P := by
  show (m.bind k).Runs P
  induction m with
  | pure a => exact rest a
  | throw e => trivial
  | exec s onError next ih => exact ⟨first.1, fun r => ih r (first.2 r)⟩
  | now next ih => exact fun t => ih t (first t)

theorem Tx.Runs.statement {P : Stmt → Prop} {s : Stmt} {onError : Err → ε} (here : P s) :
    (Tx.statement s onError : Tx Stmt Result Err ε _).Runs P :=
  ⟨here, fun _ => trivial⟩

theorem Tx.Runs.advance {P : Stmt → Prop} {body next : Tx Stmt Result Err ε α} (runs : body.Runs P)
    {plan : (s : Stmt) → Env → Db → Outcome Write R Err (Result s)} {env : Env} {time : Int}
    {srv srv' : Server S Db Write R} {s : S}
    (h : body.advance plan env time srv s = some (.running next, srv')) : next.Runs P := by
  cases body with
  | pure a => cases h
  | throw e => cases h
  | now rest =>
    cases h
    exact runs time
  | exec st onError rest =>
    obtain ⟨⟨answer, server⟩, -, eq⟩ := Option.map_eq_some_iff.mp h
    cases answer with
    | error e =>
      cases eq
      trivial
    | ok r =>
      cases eq
      exact runs.2 r

/-! ### Outlines -/

/-- An outline of the rest of a transaction that has written `ws`, holds the
locks `L` and knows the stable fact `F`. `Admits` bounds the environments its
statements run in, `Allowed` the errors a statement may answer, and `Post` is
reached where the program returns. -/
def Safe (plan : (s : Stmt) → Env → Db → Outcome Write R Err (Result s)) (Admits : Env → Prop)
    (Allowed : Stmt → Err → Prop)
    (Post : α → List Write → List (Lock R) → (Db → Prop) → Prop) :
    Tx Stmt Result Err ε α → List Write → List (Lock R) → (Db → Prop) → Prop
  | .pure a, ws, L, F => Post a ws L F
  | .throw _, _, _, _ => True
  | .now next, ws, L, F => ∀ t, Safe plan Admits Allowed Post (next t) ws L F
  | .exec s _ next, ws, L, F => ∀ env db, Admits env → F db →
      (∀ e, (plan s env (applyAll db ws)).answer = .error e → Allowed s e) ∧
      ∀ ws' r, (plan s env (applyAll db ws)).answer = .ok (ws', r) →
        ∃ F', Stable Write ((plan s env (applyAll db ws)).locks ++ L) F' ∧ F' db ∧
          Safe plan Admits Allowed Post (next r) (ws ++ ws')
            ((plan s env (applyAll db ws)).locks ++ L) F'

/-- The postcondition of a whole transaction: a relation between its answer and
the committed rows before and after the commit. -/
def Commits (Q : α → Db → Db → Prop) (a : α) (ws : List Write) (_ : List (Lock R))
    (F : Db → Prop) : Prop :=
  ∀ db, F db → Q a db (applyAll db ws)

variable {plan : (s : Stmt) → Env → Db → Outcome Write R Err (Result s)} {Admits : Env → Prop}
  {Allowed : Stmt → Err → Prop} {ws : List Write} {L : List (Lock R)} {F : Db → Prop}

/-- The rule of sequencing: what the first part leaves is what the rest may rely on. By induction
on the first program. -/
theorem Safe.bind {Mid : α → List Write → List (Lock R) → (Db → Prop) → Prop}
    {Post : β → List Write → List (Lock R) → (Db → Prop) → Prop}
    {m : Tx Stmt Result Err ε α} {k : α → Tx Stmt Result Err ε β}
    (first : Safe plan Admits Allowed Mid m ws L F)
    (rest : ∀ a ws L F, Mid a ws L F → Safe plan Admits Allowed Post (k a) ws L F) :
    Safe plan Admits Allowed Post (m >>= k) ws L F := by
  show Safe plan Admits Allowed Post (m.bind k) ws L F
  induction m generalizing ws L F with
  | pure a => exact rest a ws L F first
  | throw e => trivial
  | now next ih => exact fun t => ih t (first t)
  | exec s onError next ih =>
    intro env db admits facts
    obtain ⟨errors, answers⟩ := first env db admits facts
    refine ⟨errors, fun ws' r got => ?_⟩
    obtain ⟨F', stable, holds, safe⟩ := answers ws' r got
    exact ⟨F', stable, holds, ih r safe⟩

/-- The outline of a statement followed by the rest of the program. -/
theorem Safe.statement {Post : β → List Write → List (Lock R) → (Db → Prop) → Prop} {s : Stmt}
    {onError : Err → ε} {k : Result s → Tx Stmt Result Err ε β}
    (h : ∀ env db, Admits env → F db →
      (∀ e, (plan s env (applyAll db ws)).answer = .error e → Allowed s e) ∧
      ∀ ws' r, (plan s env (applyAll db ws)).answer = .ok (ws', r) →
        ∃ F', Stable Write ((plan s env (applyAll db ws)).locks ++ L) F' ∧ F' db ∧
          Safe plan Admits Allowed Post (k r) (ws ++ ws')
            ((plan s env (applyAll db ws)).locks ++ L) F') :
    Safe plan Admits Allowed Post (Tx.statement s onError >>= k) ws L F :=
  h

theorem Safe.clock {Post : β → List Write → List (Lock R) → (Db → Prop) → Prop}
    {k : Int → Tx Stmt Result Err ε β}
    (h : ∀ t, Safe plan Admits Allowed Post (k t) ws L F) :
    Safe plan Admits Allowed Post (Tx.clock >>= k) ws L F :=
  h

/-- A weaker fact is enough for the rest of an outline to go on. -/
theorem Safe.weaken {Post : α → List Write → List (Lock R) → (Db → Prop) → Prop}
    {m : Tx Stmt Result Err ε α} {F' : Db → Prop}
    (post : ∀ a ws L (F F' : Db → Prop), (∀ db, F' db → F db) → Post a ws L F → Post a ws L F')
    (safe : Safe plan Admits Allowed Post m ws L F) (weaker : ∀ db, F' db → F db) :
    Safe plan Admits Allowed Post m ws L F' := by
  induction m generalizing ws L F F' with
  | pure a => exact post _ _ _ _ _ weaker safe
  | throw e => trivial
  | now next ih => exact fun t => ih t (safe t) weaker
  | exec s onError next ih => exact fun env db admits facts => safe env db admits (weaker db facts)

/-! ### Outlines of open transactions -/

/-- The open transaction of a session is somewhere in an outline: what it has written, locked
and learned is what the rest of its program needs. -/
def SafeAt (plan : (s : Stmt) → Env → Db → Outcome Write R Err (Result s)) (Admits : Env → Prop)
    (Allowed : Stmt → Err → Prop) (Q : α → Db → Db → Prop) (srv : Server S Db Write R) (s : S)
    (body : Tx Stmt Result Err ε α) : Prop :=
  ∃ ws L F, Holds srv s ws L F ∧ Safe plan Admits Allowed (Commits Q) body ws L F

variable {Q : α → Db → Db → Prop} {srv srv' : Server S Db Write R} {s s' : S}
  {body : Tx Stmt Result Err ε α}

theorem SafeAt.start {F : Db → Prop} (idle : Idle srv s) (stable : Stable Write [] F)
    (facts : F srv.db) (safe : Safe plan Admits Allowed (Commits Q) body [] [] F) :
    SafeAt plan Admits Allowed Q srv s body :=
  ⟨[], [], F, Holds.start idle stable facts, safe⟩

theorem SafeAt.spared (safe : SafeAt plan Admits Allowed Q srv s body)
    (spared : Spared s srv srv') : SafeAt plan Admits Allowed Q srv' s body := by
  obtain ⟨ws, L, F, holds, outline⟩ := safe
  exact ⟨ws, L, F, holds.spared spared, outline⟩

/-- A transaction stays in its outline past the steps of another session. -/
theorem SafeAt.frame (safe : SafeAt plan Admits Allowed Q srv s' body)
    (frame : Frame s srv srv') (ne : s' ≠ s) : SafeAt plan Admits Allowed Q srv' s' body :=
  safe.spared (frame.spares ne)

/-- Every step of a transaction leaves the other sessions their rows. -/
theorem Tx.advance_frame {env : Env} {time : Int} {progress : Progress Stmt Result Err ε α}
    (sound : Sound srv) (h : body.advance plan env time srv s = some (progress, srv')) :
    Frame s srv srv' := by
  cases body with
  | pure a =>
    cases h
    exact Frame.commit sound
  | throw e =>
    cases h
    exact Frame.rollback
  | now next =>
    cases h
    exact Frame.refl s srv
  | exec st onError next =>
    obtain ⟨⟨answer, server⟩, ran, eq⟩ := Option.map_eq_some_iff.mp h
    have moved := Frame.statement ran
    cases answer <;> cases eq <;> exact moved

/-- Every step of a transaction keeps the lock table sound. -/
theorem Tx.advance_sound {env : Env} {time : Int} {progress : Progress Stmt Result Err ε α}
    (covered : ∀ s env db ws r, (plan s env db).answer = .ok (ws, r) →
      ∀ w ∈ ws, ∀ n ∈ Storage.needs w, n ∈ (plan s env db).locks)
    (sound : Sound srv) (h : body.advance plan env time srv s = some (progress, srv')) :
    Sound srv' := by
  cases body with
  | pure a =>
    cases h
    exact sound.commit s
  | throw e =>
    cases h
    exact sound.rollback s
  | now next =>
    cases h
    exact sound
  | exec st onError next =>
    obtain ⟨⟨answer, server⟩, ran, eq⟩ := Option.map_eq_some_iff.mp h
    have kept := sound.statement (covered st env (srv.view s)) ran
    cases answer <;> cases eq <;> exact kept

/-- A transaction that has not ended is still in its outline after its step. -/
theorem SafeAt.advance {env : Env} {time : Int} {next : Tx Stmt Result Err ε α}
    (safe : SafeAt plan Admits Allowed Q srv s body) (admits : Admits env)
    (h : body.advance plan env time srv s = some (.running next, srv')) :
    SafeAt plan Admits Allowed Q srv' s next ∧ srv'.db = srv.db := by
  obtain ⟨ws, L, F, holds, outline⟩ := safe
  cases body with
  | pure a => cases h
  | throw e => cases h
  | now rest =>
    cases h
    exact ⟨⟨ws, L, F, holds, outline time⟩, rfl⟩
  | exec st onError rest =>
    obtain ⟨⟨answer, server⟩, ran, eq⟩ := Option.map_eq_some_iff.mp h
    rcases Server.statement_cases ran with ⟨e, _, rfl, rfl⟩ | ⟨ws', r, got, rfl, _, rfl⟩
    · cases eq
      exact ⟨⟨ws, L, F, holds, trivial⟩, rfl⟩
    · cases eq
      have reads : srv.view s = applyAll srv.db ws := by rw [Server.view, holds.writes]
      rw [reads] at got ⊢
      obtain ⟨F', stable, facts, safe⟩ := (outline env srv.db admits holds.facts).2 ws' r got
      exact ⟨⟨_, _, F', holds.extend stable facts, safe⟩, rfl⟩

/-- What the commit of a transaction does to the committed rows. -/
theorem SafeAt.returns {env : Env} {time : Int} {a : α}
    (safe : SafeAt plan Admits Allowed Q srv s body)
    (h : body.advance plan env time srv s = some (.returned a, srv')) :
    Q a srv.db srv'.db ∧ Idle srv' s := by
  obtain ⟨ws, L, F, holds, outline⟩ := safe
  cases body with
  | pure b =>
    cases h
    refine ⟨?_, Idle.commit⟩
    have committed := outline srv.db holds.facts
    rwa [← holds.writes] at committed
  | throw e => cases h
  | now rest => cases h
  | exec st onError rest =>
    obtain ⟨⟨answer, server⟩, _, eq⟩ := Option.map_eq_some_iff.mp h
    cases answer <;> cases eq

theorem Tx.advance_threw {env : Env} {time : Int} {e : ε}
    (h : body.advance plan env time srv s = some (.threw e, srv')) :
    srv'.db = srv.db ∧ Idle srv' s := by
  cases body with
  | pure b => cases h
  | throw e' =>
    cases h
    exact ⟨rfl, Idle.rollback⟩
  | now rest => cases h
  | exec st onError rest =>
    obtain ⟨⟨answer, server⟩, _, eq⟩ := Option.map_eq_some_iff.mp h
    cases answer <;> cases eq

/-- A statement of an outlined transaction answers only the errors it is allowed. -/
theorem SafeAt.errors {st : Stmt} {onError : Err → ε} {next : Result st → Tx Stmt Result Err ε α}
    (safe : SafeAt plan Admits Allowed Q srv s (.exec st onError next)) {env : Env}
    (admits : Admits env) {e : Err} (h : (plan st env (srv.view s)).answer = .error e) :
    Allowed st e := by
  obtain ⟨ws, L, F, holds, outline⟩ := safe
  rw [Server.view, holds.writes] at h
  exact (outline env srv.db admits holds.facts).1 e h

end

end Lib
