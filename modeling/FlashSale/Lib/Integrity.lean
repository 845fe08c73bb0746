/-
# Constraints under concurrent transactions

A statement checks the constraints of what it writes against the rows that its own
session sees, while other sessions write what it does not see. When the locks of a
write keep away whatever could break its check, this is enough: the committed rows, and
what each session sees, meet the constraints at all times.

* `Constraints` is what a set of constraints has to satisfy: a permitted write keeps
  them, and stays permitted under writes that its locks do not exclude.
* `Upheld` is the invariant of a server; statements, commits and rollbacks keep it.
* `Serves` is any sequence of these; `Serves.keeps` is the invariant for all of them.
-/
import FlashSale.Lib.Transaction

set_option linter.unusedSectionVars false

namespace Lib

section

variable {S Db Write R Err ρ : Type} [Storage Write Db R] [DecidableEq S] [DecidableEq R]

/-- Writes that two sessions can have pending at the same time. -/
def Independent (w w' : Write) : Prop :=
  ∀ n ∈ Storage.needs w, ∀ n' ∈ Storage.needs w', n.compatible n' = true

/-- Constraints on the rows, with the check of each write. Stores that are the `Same`
differ in nothing that a check can see. -/
structure Constraints (Write : Type) {Db R : Type} [Storage Write Db R] [DecidableEq R] where
  Met : Db → Prop
  Permits : Db → Write → Prop
  Same : Db → Db → Prop
  keep : ∀ {db : Db} {w : Write}, Met db → Permits db w → Met (Storage.apply db w)
  permits_same : ∀ {db db' : Db} {w : Write}, Same db db' → Permits db w → Permits db' w
  apply_same : ∀ {db db' : Db} (w : Write), Same db db' →
    Same (Storage.apply db w) (Storage.apply db' w)
  commute : ∀ (db : Db) {w w' : Write}, Independent w w' →
    Same (Storage.apply (Storage.apply db w) w') (Storage.apply (Storage.apply db w') w)
  stable : ∀ {db : Db} {w w' : Write}, Independent w w' → Permits db w →
    Permits (Storage.apply db w') w

namespace Constraints

variable (c : Constraints Write)

/-- Each write is permitted on top of the earlier ones. -/
def Admitted : Db → List Write → Prop
  | _, [] => True
  | db, w :: ws => c.Permits db w ∧ Admitted (Storage.apply db w) ws

variable {c} {db db' : Db} {w : Write} {ws ws' : List Write}

theorem admitted_append :
    c.Admitted db (ws ++ ws') ↔ c.Admitted db ws ∧ c.Admitted (applyAll db ws) ws' := by
  induction ws generalizing db with
  | nil => simp [Admitted, applyAll]
  | cons w ws ih =>
    simp only [List.cons_append, Admitted, ih, applyAll_cons]
    exact and_assoc.symm

theorem Admitted.same (same : c.Same db db') (admitted : c.Admitted db ws) : c.Admitted db' ws := by
  induction ws generalizing db db' with
  | nil => trivial
  | cons w ws ih =>
    exact ⟨c.permits_same same admitted.1, ih (c.apply_same w same) admitted.2⟩

/-- Writes stay admitted when another session writes. -/
theorem Admitted.after (admitted : c.Admitted db ws) (free : ∀ w' ∈ ws, Independent w' w) :
    c.Admitted (Storage.apply db w) ws := by
  induction ws generalizing db with
  | nil => trivial
  | cons first ws ih =>
    have own := free first List.mem_cons_self
    have rest := ih admitted.2 fun w' mem => free w' (List.mem_cons_of_mem _ mem)
    -- The rest follows the first write, and the other session's comes before both.
    exact ⟨c.stable own admitted.1, rest.same (c.commute db own)⟩

theorem Admitted.afterAll (admitted : c.Admitted db ws)
    (free : ∀ w ∈ ws', ∀ w' ∈ ws, Independent w' w) : c.Admitted (applyAll db ws') ws := by
  induction ws' generalizing db with
  | nil => exact admitted
  | cons w ws' ih =>
    exact ih (admitted.after (free w List.mem_cons_self))
      fun w' mem => free w' (List.mem_cons_of_mem _ mem)

theorem Admitted.met (met : c.Met db) (admitted : c.Admitted db ws) : c.Met (applyAll db ws) := by
  induction ws generalizing db with
  | nil => exact met
  | cons w ws ih => exact ih (c.keep met admitted.1) admitted.2

end Constraints

/-! ### Servers -/

/-- The committed rows meet the constraints, and whatever is pending is admitted, so that no
commit can break one. -/
structure Upheld (c : Constraints Write) (srv : Server S Db Write R) : Prop where
  met : c.Met srv.db
  admitted : ∀ s, c.Admitted srv.db (srv.writesOf s)

variable {c : Constraints Write} {srv srv' mid : Server S Db Write R} {s : S}

/-- What a session sees meets the constraints. -/
theorem Upheld.view (upheld : Upheld c srv) (s : S) : c.Met (srv.view s) :=
  (upheld.admitted s).met upheld.met

theorem Upheld.rollback (upheld : Upheld c srv) (s : S) : Upheld c (srv.rollback s) := by
  refine ⟨upheld.met, fun s' => ?_⟩
  by_cases own : s' = s
  · subst own
    rw [Server.writesOf_rollback_self]
    trivial
  · rw [Server.writesOf_rollback_ne own]
    exact upheld.admitted s'

theorem Upheld.extend (upheld : Upheld c srv) {locks : List (Lock R)} {ws : List Write}
    (admitted : c.Admitted (srv.view s) ws) : Upheld c (srv.extend s locks ws) := by
  refine ⟨upheld.met, fun s' => ?_⟩
  by_cases own : s' = s
  · subst own
    rw [Server.writesOf_extend_self]
    exact Constraints.admitted_append.mpr ⟨upheld.admitted s', admitted⟩
  · rw [Server.writesOf_extend_ne _ _ own]
    exact upheld.admitted s'

/-- Writes that different sessions have pending are independent. -/
theorem Sound.independent (sound : Sound srv) {s' : S} {w w' : Write} (ne : s ≠ s')
    (mem : w ∈ srv.writesOf s) (mem' : w' ∈ srv.writesOf s') : Independent w w' := by
  intro n hn n' hn'
  exact sound.compatible s n s' n' (sound.guarded s w (Server.mem_writesOf.mp mem) n hn)
    (sound.guarded s' w' (Server.mem_writesOf.mp mem') n' hn') ne

theorem Upheld.commit (upheld : Upheld c srv) (sound : Sound srv) (s : S) :
    Upheld c (srv.commit s) := by
  refine ⟨upheld.view s, fun s' => ?_⟩
  by_cases own : s' = s
  · subst own
    rw [Server.writesOf_commit_self]
    trivial
  · rw [Server.writesOf_commit_ne own, Server.commit_db]
    exact (upheld.admitted s').afterAll fun w mem w' mem' => sound.independent own mem' mem

theorem Upheld.statement (upheld : Upheld c srv) {o : Outcome Write R Err ρ}
    {answer : Except Err ρ} (checked : ∀ ws r, o.answer = .ok (ws, r) → c.Admitted (srv.view s) ws)
    (ran : srv.statement s o = some (answer, srv')) : Upheld c srv' := by
  rcases Server.statement_cases ran with ⟨e, _, _, rfl⟩ | ⟨ws, r, got, _, _, rfl⟩
  · exact upheld
  · exact upheld.extend (checked ws r got)

/-! ### What sessions do to a server -/

variable {Stmt Env ε α : Type} {Result : Stmt → Type}
  {plan : (st : Stmt) → Env → Db → Outcome Write R Err (Result st)}

/-- Statements of sessions that are `ok`, commits and rollbacks, one after another. A step of a
system may do several of these, or none. -/
inductive Serves (plan : (st : Stmt) → Env → Db → Outcome Write R Err (Result st))
    (ok : Stmt → Env → Prop) (srv : Server S Db Write R) : Server S Db Write R → Prop where
  | refl : Serves plan ok srv srv
  | statement {mid srv' : Server S Db Write R} {s : S} {st : Stmt} {env : Env}
      {answer : Except Err (Result st)} (before : Serves plan ok srv mid) (allowed : ok st env)
      (ran : mid.statement s (plan st env (mid.view s)) = some (answer, srv')) :
      Serves plan ok srv srv'
  | commit {mid : Server S Db Write R} (s : S) (before : Serves plan ok srv mid) :
      Serves plan ok srv (mid.commit s)
  | rollback {mid : Server S Db Write R} (s : S) (before : Serves plan ok srv mid) :
      Serves plan ok srv (mid.rollback s)

variable {ok : Stmt → Env → Prop}

/-- Statements that lock what they write and check what they lock keep the constraints, however
the sessions interleave. -/
theorem Serves.keeps
    (covered : ∀ st env db ws r, (plan st env db).answer = .ok (ws, r) →
      ∀ w ∈ ws, ∀ n ∈ Storage.needs w, n ∈ (plan st env db).locks)
    (checked : ∀ st env db ws r, (plan st env db).answer = .ok (ws, r) → c.Admitted db ws)
    (serves : Serves plan ok srv srv') (sound : Sound srv) (upheld : Upheld c srv) :
    Sound srv' ∧ Upheld c srv' := by
  induction serves with
  | refl => exact ⟨sound, upheld⟩
  | statement _ _ ran ih =>
    exact ⟨ih.1.statement (covered _ _ _) ran, ih.2.statement (checked _ _ _) ran⟩
  | commit s _ ih => exact ⟨ih.1.commit s, ih.2.commit ih.1 s⟩
  | rollback s _ ih => exact ⟨ih.1.rollback s, ih.2.rollback s⟩

theorem applyAll_keeps {Met : Db → Prop} {Fine : Write → Prop} {db : Db} {ws : List Write}
    (keep : ∀ db w, Fine w → Met db → Met (Storage.apply db w)) (fine : ∀ w ∈ ws, Fine w)
    (met : Met db) : Met (applyAll db ws) := by
  induction ws generalizing db with
  | nil => exact met
  | cons w ws ih =>
    exact ih (fun w' mem => fine w' (List.mem_cons_of_mem _ mem))
      (keep db w (fine w List.mem_cons_self) met)

/-- What holds of every write that a statement plans, and what such writes keep of the rows. -/
theorem Serves.keepsWrites (Met : Db → Prop) (Fine : Write → Prop)
    (keep : ∀ db w, Fine w → Met db → Met (Storage.apply db w))
    (planned : ∀ st env db ws r, ok st env → (plan st env db).answer = .ok (ws, r) →
      ∀ w ∈ ws, Fine w)
    (serves : Serves plan ok srv srv') (met : Met srv.db)
    (pending : ∀ s, ∀ w ∈ srv.writesOf s, Fine w) :
    Met srv'.db ∧ ∀ s, ∀ w ∈ srv'.writesOf s, Fine w := by
  induction serves with
  | refl => exact ⟨met, pending⟩
  | @statement mid srv' s st env answer _ allowed ran ih =>
    rcases Server.statement_cases ran with ⟨e, _, _, rfl⟩ | ⟨ws, r, got, _, _, rfl⟩
    · exact ih
    refine ⟨ih.1, fun s' w mem => ?_⟩
    by_cases own : s' = s
    · subst own
      rw [Server.writesOf_extend_self] at mem
      exact (List.mem_append.mp mem).elim (ih.2 s' w) (planned _ _ _ _ _ allowed got w)
    · rw [Server.writesOf_extend_ne _ _ own] at mem
      exact ih.2 s' w mem
  | @commit mid s _ ih =>
    refine ⟨applyAll_keeps keep (ih.2 s) ih.1, fun s' w mem => ?_⟩
    by_cases own : s' = s
    · subst own
      rw [Server.writesOf_commit_self] at mem
      cases mem
    · rw [Server.writesOf_commit_ne own] at mem
      exact ih.2 s' w mem
  | @rollback mid s _ ih =>
    refine ⟨ih.1, fun s' w mem => ?_⟩
    by_cases own : s' = s
    · subst own
      rw [Server.writesOf_rollback_self] at mem
      cases mem
    · rw [Server.writesOf_rollback_ne own] at mem
      exact ih.2 s' w mem

/-- A statement that is a transaction of its own. -/
theorem Serves.auto {st : Stmt} {env : Env} {answer : Except Err (Result st)} (idle : Idle srv s)
    (allowed : ok st env) (did : srv.auto s (plan st env srv.db) = some (answer, srv')) :
    Serves plan ok srv srv' := by
  obtain ⟨⟨first, mid⟩, ran, eq⟩ := Option.map_eq_some_iff.mp did
  have reads : srv.view s = srv.db := by
    rw [Server.view, idle.writes]
    rfl
  rw [← reads] at ran
  cases first with
  | error e =>
    cases eq
    exact .rollback s (.statement .refl allowed ran)
  | ok r =>
    cases eq
    exact .commit s (.statement .refl allowed ran)

/-- A step of an open transaction. -/
theorem Serves.advance {body : Tx Stmt Result Err ε α} {env : Env} {time : Int}
    {progress : Progress Stmt Result Err ε α}
    (allowed : ∀ st onError next, body = .exec st onError next → ok st env)
    (ran : body.advance plan env time srv s = some (progress, srv')) : Serves plan ok srv srv' := by
  cases body with
  | pure a =>
    cases ran
    exact .commit s .refl
  | throw e =>
    cases ran
    exact .rollback s .refl
  | now next =>
    cases ran
    exact .refl
  | exec st onError next =>
    obtain ⟨⟨answer, server⟩, ran, eq⟩ := Option.map_eq_some_iff.mp ran
    cases answer <;> cases eq <;> exact .statement .refl (allowed st onError next rfl) ran

end

end Lib
