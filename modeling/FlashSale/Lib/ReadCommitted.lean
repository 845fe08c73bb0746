/-
# A read-committed row store with locks

Sessions run transactions against one store. A statement reads the committed
rows together with the writes of its own transaction, waits until the locks it
takes are free, and keeps those locks until its transaction ends. Committing
applies the writes of the session to the committed rows; rolling back drops
them. Nothing of an open transaction is visible to another session.

* `Sound` says that the locks held by different sessions are compatible and that
  every pending write is guarded by locks of its session; every operation keeps
  it (`Sound.statement`, `Sound.commit`, `Sound.rollback`).
* `Frame` says what one session can do to all others: their writes and locks
  stay, and the committed rows change only by writes compatible with their locks.
  `Spared` says the same of one session and any steps of others.
* `Stable` facts are those that survive such changes. `Holds.frame` carries what
  a transaction knows about the committed rows past the steps of all others.
-/
import Mathlib.Data.List.Basic

set_option linter.unusedSectionVars false

namespace Lib

/-! ### Locks -/

/-- The strengths of a row lock. -/
inductive LockMode where
  | keyShare
  | noKeyUpdate
  | update
deriving DecidableEq

/-- Two sessions can hold locks of these strengths on one row. -/
def LockMode.compatible : LockMode → LockMode → Bool
  | .keyShare, .keyShare => true
  | .keyShare, .noKeyUpdate => true
  | .noKeyUpdate, .keyShare => true
  | _, _ => false

theorem LockMode.compatible_comm (a b : LockMode) : a.compatible b = b.compatible a := by
  cases a <;> cases b <;> rfl

/-- A lock on a row or on an entry of a unique index. Both are kept until the transaction of
the session ends. -/
structure Lock (R : Type) where
  resource : R
  mode : LockMode
deriving DecidableEq

section Locks

variable {R : Type} [DecidableEq R]

def Lock.compatible (a b : Lock R) : Bool :=
  decide (a.resource ≠ b.resource) || a.mode.compatible b.mode

theorem Lock.compatible_comm (a b : Lock R) : a.compatible b = b.compatible a := by
  simp [Lock.compatible, LockMode.compatible_comm a.mode, ne_comm]

/-- Compatible locks on one resource have compatible strengths. -/
theorem Lock.modes_compatible {r : R} {m m' : LockMode}
    (h : (Lock.mk r m).compatible ⟨r, m'⟩ = true) : m.compatible m' = true := by
  simpa [Lock.compatible] using h

end Locks

/-! ### Stores and servers -/

/-- A store whose writes say what they do to the rows and which locks guard them. -/
class Storage (Write : Type) (Db : outParam Type) (R : outParam Type) where
  apply : Db → Write → Db
  needs : Write → List (Lock R)

/-- What a statement does once its locks are free: an error, or writes and a result. It is
planned anew on the rows that it finds when it gets them. -/
structure Outcome (Write R Err ρ : Type) where
  locks : List (Lock R)
  answer : Except Err (List Write × ρ)

/-- The committed rows, and the writes and locks of the open transactions. A session sees the
committed rows under its own writes. -/
structure Server (S Db Write R : Type) where
  db : Db
  pending : List (S × Write)
  locks : List (S × Lock R)

section

variable {S Db Write R Err ρ : Type} [Storage Write Db R]

def applyAll (db : Db) (ws : List Write) : Db := ws.foldl Storage.apply db

@[simp] theorem applyAll_cons (db : Db) (w : Write) (ws : List Write) :
    applyAll db (w :: ws) = applyAll (Storage.apply db w) ws := rfl

theorem applyAll_append (db : Db) (ws ws' : List Write) :
    applyAll db (ws ++ ws') = applyAll (applyAll db ws) ws' :=
  List.foldl_append

namespace Server

variable [DecidableEq S] [DecidableEq R]

/-- The writes of a session, in statement order. -/
def writesOf (srv : Server S Db Write R) (s : S) : List Write :=
  srv.pending.filterMap fun p => if p.1 = s then some p.2 else none

/-- What the next statement of a session reads. -/
def view (srv : Server S Db Write R) (s : S) : Db := applyAll srv.db (srv.writesOf s)

/-- No other session holds a conflicting lock. -/
def grants (srv : Server S Db Write R) (s : S) (l : Lock R) : Bool :=
  srv.locks.all fun held => decide (held.1 = s) || held.2.compatible l

/-- The server once the statement of a session has taken its locks and written. -/
def extend (srv : Server S Db Write R) (s : S) (locks : List (Lock R)) (ws : List Write) :
    Server S Db Write R :=
  { srv with
    pending := srv.pending ++ ws.map (s, ·)
    locks := srv.locks ++ locks.map (s, ·) }

/-- Run one statement; `none` while it waits for a lock. Its answer is computed on what the
session sees when all its locks are free. -/
def statement (srv : Server S Db Write R) (s : S) (o : Outcome Write R Err ρ) :
    Option (Except Err ρ × Server S Db Write R) :=
  if o.locks.all (srv.grants s) then
    match o.answer with
    | .error e => some (.error e, srv)
    | .ok (ws, r) => some (.ok r, srv.extend s o.locks ws)
  else none

/-- End the transaction of a session without its writes. -/
def rollback (srv : Server S Db Write R) (s : S) : Server S Db Write R :=
  { srv with
    pending := srv.pending.filter fun p => decide (p.1 ≠ s)
    locks := srv.locks.filter fun p => decide (p.1 ≠ s) }

/-- End the transaction of a session with its writes. -/
def commit (srv : Server S Db Write R) (s : S) : Server S Db Write R :=
  { srv.rollback s with db := srv.view s }

/-- A statement that is a transaction of its own. -/
def auto (srv : Server S Db Write R) (s : S) (o : Outcome Write R Err ρ) :
    Option (Except Err ρ × Server S Db Write R) :=
  (srv.statement s o).map fun
    | (.error e, srv') => (.error e, srv'.rollback s)
    | (.ok r, srv') => (.ok r, srv'.commit s)

variable {srv srv' : Server S Db Write R} {s s' : S}

@[simp] theorem commit_db : (srv.commit s).db = applyAll srv.db (srv.writesOf s) := rfl

@[simp] theorem extend_db (locks : List (Lock R)) (ws : List Write) :
    (srv.extend s locks ws).db = srv.db := rfl

@[simp] theorem writesOf_extend_self (locks : List (Lock R)) (ws : List Write) :
    (srv.extend s locks ws).writesOf s = srv.writesOf s ++ ws := by
  simp [writesOf, extend, List.filterMap_append, List.filterMap_map]

theorem writesOf_extend_ne (locks : List (Lock R)) (ws : List Write) (ne : s' ≠ s) :
    (srv.extend s locks ws).writesOf s' = srv.writesOf s' := by
  simp [writesOf, extend, List.filterMap_append, List.filterMap_map, Ne.symm ne]

@[simp] theorem writesOf_rollback_self : (srv.rollback s).writesOf s = [] := by
  simp only [writesOf, rollback, List.filterMap_eq_nil_iff]
  intro p mem
  have : p.1 ≠ s := by simpa using (List.mem_filter.mp mem).2
  simp [this]

theorem writesOf_rollback_ne (ne : s' ≠ s) : (srv.rollback s).writesOf s' = srv.writesOf s' := by
  simp only [writesOf, rollback, List.filterMap_filter]
  refine List.filterMap_congr fun p _ => ?_
  by_cases own : p.1 = s'
  · simp [own, ne]
  · simp [own]

@[simp] theorem writesOf_commit_self : (srv.commit s).writesOf s = [] :=
  writesOf_rollback_self

theorem writesOf_commit_ne (ne : s' ≠ s) : (srv.commit s).writesOf s' = srv.writesOf s' :=
  writesOf_rollback_ne ne

theorem mem_writesOf {w : Write} : w ∈ srv.writesOf s ↔ (s, w) ∈ srv.pending := by
  simp only [writesOf, List.mem_filterMap]
  constructor
  · rintro ⟨⟨s', w'⟩, mem, eq⟩
    by_cases own : s' = s
    · simp only [own, if_true, Option.some.injEq] at eq
      exact own ▸ eq ▸ mem
    · simp [own] at eq
  · intro mem
    exact ⟨(s, w), mem, by simp⟩

theorem mem_locks_rollback {l : Lock R} :
    (s', l) ∈ (srv.rollback s).locks ↔ (s', l) ∈ srv.locks ∧ s' ≠ s := by
  simp [rollback]

theorem mem_locks_extend {locks : List (Lock R)} {ws : List Write} {l : Lock R} :
    (s', l) ∈ (srv.extend s locks ws).locks ↔ (s', l) ∈ srv.locks ∨ (s' = s ∧ l ∈ locks) := by
  simp only [extend, List.mem_append, List.mem_map, Prod.mk.injEq, exists_eq_right_right]
  constructor
  · rintro (old | ⟨mem, rfl⟩)
    · exact Or.inl old
    · exact Or.inr ⟨rfl, mem⟩
  · rintro (old | ⟨rfl, mem⟩)
    · exact Or.inl old
    · exact Or.inr ⟨mem, rfl⟩

/-- What a statement that ran has done. -/
theorem statement_cases {o : Outcome Write R Err ρ} {answer : Except Err ρ}
    (h : srv.statement s o = some (answer, srv')) :
    (∃ e, o.answer = .error e ∧ answer = .error e ∧ srv' = srv) ∨
    (∃ ws r, o.answer = .ok (ws, r) ∧ answer = .ok r ∧ (∀ l ∈ o.locks, srv.grants s l = true) ∧
      srv' = srv.extend s o.locks ws) := by
  unfold statement at h
  by_cases free : o.locks.all (srv.grants s) = true
  · rw [if_pos free] at h
    cases got : o.answer with
    | error e =>
      simp only [got, Option.some.injEq, Prod.mk.injEq] at h
      exact Or.inl ⟨e, rfl, h.1.symm, h.2.symm⟩
    | ok result =>
      obtain ⟨ws, r⟩ := result
      simp only [got, Option.some.injEq, Prod.mk.injEq] at h
      exact Or.inr ⟨ws, r, rfl, h.1.symm, List.all_eq_true.mp free, h.2.symm⟩
  · rw [if_neg free] at h
    cases h

end Server

/-! ### Soundness of the lock table -/

section Soundness

variable [DecidableEq S] [DecidableEq R]

/-- Locks of different sessions are compatible, and whoever has written something holds the
locks that it needs. -/
structure Sound (srv : Server S Db Write R) : Prop where
  compatible : ∀ s l s' l', (s, l) ∈ srv.locks → (s', l') ∈ srv.locks → s ≠ s' →
    l.compatible l' = true
  guarded : ∀ s w, (s, w) ∈ srv.pending → ∀ n ∈ Storage.needs w, (s, n) ∈ srv.locks

variable {srv srv' : Server S Db Write R} {s s' : S}

theorem Sound.extend (sound : Sound srv) {locks : List (Lock R)} {ws : List Write}
    (free : ∀ l ∈ locks, srv.grants s l = true)
    (covered : ∀ w ∈ ws, ∀ n ∈ Storage.needs w, n ∈ locks) : Sound (srv.extend s locks ws) := by
  -- A new lock is compatible with the locks other sessions hold.
  have fresh : ∀ l ∈ locks, ∀ s' l', (s', l') ∈ srv.locks → s' ≠ s → l'.compatible l = true := by
    intro l mem s' l' held ne
    simpa [ne] using List.all_eq_true.mp (free l mem) (s', l') held
  constructor
  · intro s₁ l₁ s₂ l₂ h₁ h₂ ne
    rw [Server.mem_locks_extend] at h₁ h₂
    rcases h₁ with h₁ | ⟨rfl, new₁⟩ <;> rcases h₂ with h₂ | ⟨rfl, new₂⟩
    · exact sound.compatible _ _ _ _ h₁ h₂ ne
    · exact fresh l₂ new₂ s₁ l₁ h₁ ne
    · rw [Lock.compatible_comm]
      exact fresh l₁ new₁ s₂ l₂ h₂ (Ne.symm ne)
    · exact absurd rfl ne
  · intro s' w mem n hn
    rw [Server.mem_locks_extend]
    rcases List.mem_append.mp mem with old | new
    · exact Or.inl (sound.guarded s' w old n hn)
    · obtain ⟨w', hw, eq⟩ := List.mem_map.mp new
      cases eq
      exact Or.inr ⟨rfl, covered w hw n hn⟩

/-- A rollback keeps the lock table sound, as a commit does. -/
theorem Sound.rollback (sound : Sound srv) (s : S) : Sound (srv.rollback s) := by
  constructor
  · intro s₁ l₁ s₂ l₂ h₁ h₂ ne
    exact sound.compatible _ _ _ _ (Server.mem_locks_rollback.mp h₁).1
      (Server.mem_locks_rollback.mp h₂).1 ne
  · intro s' w mem n hn
    obtain ⟨old, ne⟩ := List.mem_filter.mp mem
    exact Server.mem_locks_rollback.mpr ⟨sound.guarded s' w old n hn, by simpa using ne⟩

/-- A commit keeps the lock table sound: it takes writes and locks away together. -/
theorem Sound.commit (sound : Sound srv) (s : S) : Sound (srv.commit s) :=
  let rolled := sound.rollback s
  ⟨rolled.compatible, rolled.guarded⟩

/-- A statement whose locks cover its writes keeps the lock table sound. -/
theorem Sound.statement (sound : Sound srv) {o : Outcome Write R Err ρ} {answer : Except Err ρ}
    (covered : ∀ ws r, o.answer = .ok (ws, r) → ∀ w ∈ ws, ∀ n ∈ Storage.needs w, n ∈ o.locks)
    (h : srv.statement s o = some (answer, srv')) : Sound srv' := by
  rcases Server.statement_cases h with ⟨e, _, _, rfl⟩ | ⟨ws, r, got, _, free, rfl⟩
  · exact sound
  · exact sound.extend free (covered ws r got)

/-! ### What a session can do to the others -/

/-- What one session can do to all others: nothing to their writes and locks, and to the committed
rows only what their locks let through. -/
structure Frame (s : S) (srv srv' : Server S Db Write R) : Prop where
  writes : ∀ s', s' ≠ s → srv'.writesOf s' = srv.writesOf s'
  locks : ∀ s', s' ≠ s → ∀ l, (s', l) ∈ srv'.locks ↔ (s', l) ∈ srv.locks
  db : ∃ ws : List Write, srv'.db = applyAll srv.db ws ∧
    ∀ w ∈ ws, ∀ n ∈ Storage.needs w, ∀ s', s' ≠ s → ∀ l, (s', l) ∈ srv.locks →
      l.compatible n = true

theorem Frame.refl (s : S) (srv : Server S Db Write R) : Frame s srv srv :=
  ⟨fun _ _ => rfl, fun _ _ _ => Iff.rfl, [], rfl, by simp⟩

theorem Frame.trans {srv'' : Server S Db Write R} (first : Frame s srv srv')
    (second : Frame s srv' srv'') : Frame s srv srv'' := by
  obtain ⟨ws, eq, compat⟩ := first.db
  obtain ⟨ws', eq', compat'⟩ := second.db
  refine ⟨fun s' ne => (second.writes s' ne).trans (first.writes s' ne),
    fun s' ne l => (second.locks s' ne l).trans (first.locks s' ne l),
    ws ++ ws', by rw [eq', eq, applyAll_append], ?_⟩
  intro w mem n hn s' ne l held
  rcases List.mem_append.mp mem with mem | mem
  · exact compat w mem n hn s' ne l held
  · exact compat' w mem n hn s' ne l ((first.locks s' ne l).mpr held)

theorem Frame.extend (locks : List (Lock R)) (ws : List Write) :
    Frame s srv (srv.extend s locks ws) := by
  refine ⟨fun s' ne => Server.writesOf_extend_ne _ _ ne, fun s' ne l => ?_, [], rfl, by simp⟩
  rw [Server.mem_locks_extend]
  simp [ne]

theorem Frame.rollback : Frame s srv (srv.rollback s) := by
  refine ⟨fun s' ne => Server.writesOf_rollback_ne ne, fun s' ne l => ?_, [], rfl, by simp⟩
  rw [Server.mem_locks_rollback]
  simp [ne]

theorem Frame.commit (sound : Sound srv) : Frame s srv (srv.commit s) := by
  refine ⟨fun s' ne => Server.writesOf_commit_ne ne, fun s' ne l => ?_,
    srv.writesOf s, rfl, ?_⟩
  · show (s', l) ∈ (srv.rollback s).locks ↔ _
    rw [Server.mem_locks_rollback]
    simp [ne]
  · intro w mem n hn s' ne l held
    exact sound.compatible _ _ _ _ held (sound.guarded s w (Server.mem_writesOf.mp mem) n hn) ne

theorem Frame.statement {o : Outcome Write R Err ρ} {answer : Except Err ρ}
    (h : srv.statement s o = some (answer, srv')) : Frame s srv srv' := by
  rcases Server.statement_cases h with ⟨e, _, _, rfl⟩ | ⟨ws, r, _, _, _, rfl⟩
  · exact Frame.refl s srv'
  · exact Frame.extend _ _

/-- What the steps of others leave to a session: its writes, its locks, and the committed
rows up to writes that its locks let through. -/
structure Spared (s : S) (srv srv' : Server S Db Write R) : Prop where
  writes : srv'.writesOf s = srv.writesOf s
  locks : ∀ l, (s, l) ∈ srv'.locks ↔ (s, l) ∈ srv.locks
  db : ∃ ws : List Write, srv'.db = applyAll srv.db ws ∧
    ∀ w ∈ ws, ∀ n ∈ Storage.needs w, ∀ l, (s, l) ∈ srv.locks → l.compatible n = true

theorem Frame.spares (frame : Frame s srv srv') (ne : s' ≠ s) : Spared s' srv srv' := by
  obtain ⟨ws, eq, compat⟩ := frame.db
  exact ⟨frame.writes s' ne, frame.locks s' ne, ws, eq, fun w mem n hn => compat w mem n hn s' ne⟩

theorem Spared.refl (s : S) (srv : Server S Db Write R) : Spared s srv srv :=
  ⟨rfl, fun _ => Iff.rfl, [], rfl, by simp⟩

theorem Spared.trans {srv'' : Server S Db Write R} (first : Spared s srv srv')
    (second : Spared s srv' srv'') : Spared s srv srv'' := by
  obtain ⟨ws, eq, compat⟩ := first.db
  obtain ⟨ws', eq', compat'⟩ := second.db
  refine ⟨second.writes.trans first.writes, fun l => (second.locks l).trans (first.locks l),
    ws ++ ws', by rw [eq', eq, applyAll_append], ?_⟩
  intro w mem n hn l held
  rcases List.mem_append.mp mem with mem | mem
  · exact compat w mem n hn l held
  · exact compat' w mem n hn l ((first.locks l).mpr held)

/-- A session without an open transaction. -/
structure Idle (srv : Server S Db Write R) (s : S) : Prop where
  writes : srv.writesOf s = []
  locks : ∀ l, (s, l) ∉ srv.locks

theorem Idle.frame (idle : Idle srv s') (frame : Frame s srv srv') (ne : s' ≠ s) :
    Idle srv' s' :=
  ⟨(frame.writes s' ne).trans idle.writes, fun l held => idle.locks l ((frame.locks s' ne l).mp held)⟩

theorem Idle.rollback : Idle (srv.rollback s) s :=
  ⟨Server.writesOf_rollback_self, fun _ held => (Server.mem_locks_rollback.mp held).2 rfl⟩

theorem Idle.commit : Idle (srv.commit s) s :=
  ⟨Server.writesOf_commit_self, fun _ held => (Server.mem_locks_rollback.mp held).2 rfl⟩

/-- What a statement that is a transaction of its own has done. -/
theorem Server.auto_cases {o : Outcome Write R Err ρ} {answer : Except Err ρ} (sound : Sound srv)
    (idle : Idle srv s)
    (covered : ∀ ws r, o.answer = .ok (ws, r) → ∀ w ∈ ws, ∀ n ∈ Storage.needs w, n ∈ o.locks)
    (h : srv.auto s o = some (answer, srv')) :
    (Frame s srv srv' ∧ Sound srv' ∧ Idle srv' s) ∧
    ((∃ e, o.answer = .error e ∧ answer = .error e ∧ srv'.db = srv.db) ∨
      ∃ ws r, o.answer = .ok (ws, r) ∧ answer = .ok r ∧ srv'.db = applyAll srv.db ws) := by
  obtain ⟨⟨first, mid⟩, ran, eq⟩ := Option.map_eq_some_iff.mp h
  have kept := sound.statement covered ran
  have moved := Frame.statement ran
  rcases Server.statement_cases ran with ⟨e, got, rfl, rfl⟩ | ⟨ws, r, got, rfl, _, rfl⟩
  · cases eq
    exact ⟨⟨moved.trans Frame.rollback, kept.rollback s, Idle.rollback⟩, Or.inl ⟨e, got, rfl, rfl⟩⟩
  · cases eq
    refine ⟨⟨moved.trans (Frame.commit kept), kept.commit s, Idle.commit⟩,
      Or.inr ⟨ws, r, got, rfl, ?_⟩⟩
    rw [Server.commit_db, Server.writesOf_extend_self, idle.writes]
    rfl

/-! ### Stable facts -/

/-- A fact about the committed rows that no write can break whose locks are
compatible with `L`. -/
def Stable (Write : Type) {Db R : Type} [Storage Write Db R] [DecidableEq R] (L : List (Lock R))
    (F : Db → Prop) : Prop :=
  ∀ db (w : Write), (∀ n ∈ Storage.needs w, ∀ l ∈ L, l.compatible n = true) → F db →
    F (Storage.apply db w)

theorem Stable.mono {L L' : List (Lock R)} {F : Db → Prop} (stable : Stable Write L F)
    (sub : ∀ l ∈ L, l ∈ L') : Stable Write L' F :=
  fun db w free => stable db w fun n hn l hl => free n hn l (sub l hl)

theorem Stable.and {L : List (Lock R)} {F G : Db → Prop} (hF : Stable Write L F)
    (hG : Stable Write L G) : Stable Write L fun db => F db ∧ G db :=
  fun db w free h => ⟨hF db w free h.1, hG db w free h.2⟩

theorem Stable.const (L : List (Lock R)) (p : Prop) : Stable Write L fun _ : Db => p :=
  fun _ _ _ h => h

theorem Stable.forall {ι : Sort _} {L : List (Lock R)} {F : ι → Db → Prop}
    (h : ∀ i, Stable Write L (F i)) : Stable Write L fun db => ∀ i, F i db :=
  fun db w free all i => h i db w free (all i)

theorem Stable.applyAll {L : List (Lock R)} {F : Db → Prop} (stable : Stable Write L F)
    {db : Db} {ws : List Write}
    (free : ∀ w ∈ ws, ∀ n ∈ Storage.needs w, ∀ l ∈ L, l.compatible n = true) (h : F db) :
    F (Lib.applyAll db ws) := by
  induction ws generalizing db with
  | nil => exact h
  | cons w ws ih =>
    exact ih (fun w' mem => free w' (List.mem_cons_of_mem _ mem))
      (stable db w (free w List.mem_cons_self) h)

/-- A fact that needs no lock survives every step. -/
theorem Stable.frame {F : Db → Prop} (stable : Stable Write [] F) (frame : Frame s srv srv')
    (h : F srv.db) : F srv'.db := by
  obtain ⟨ws, eq, _⟩ := frame.db
  rw [eq]
  exact stable.applyAll (by simp) h

/-- What an open transaction has written, locked and learned. The facts hold of the committed
rows, and the locks keep them so. -/
structure Holds (srv : Server S Db Write R) (s : S) (ws : List Write) (L : List (Lock R))
    (F : Db → Prop) : Prop where
  writes : srv.writesOf s = ws
  locks : ∀ l ∈ L, (s, l) ∈ srv.locks
  stable : Stable Write L F
  facts : F srv.db

variable {ws : List Write} {L : List (Lock R)} {F : Db → Prop}

theorem Holds.spared (holds : Holds srv s ws L F) (spared : Spared s srv srv') :
    Holds srv' s ws L F := by
  obtain ⟨others, eq, compat⟩ := spared.db
  refine ⟨spared.writes.trans holds.writes,
    fun l mem => (spared.locks l).mpr (holds.locks l mem), holds.stable, ?_⟩
  rw [eq]
  exact holds.stable.applyAll
    (fun w mem n hn l hl => compat w mem n hn l (holds.locks l hl)) holds.facts

/-- What a transaction holds is kept past the steps of another session. -/
theorem Holds.frame (holds : Holds srv s' ws L F) (frame : Frame s srv srv') (ne : s' ≠ s) :
    Holds srv' s' ws L F :=
  holds.spared (frame.spares ne)

theorem Holds.extend (holds : Holds srv s ws L F) {locks : List (Lock R)} {ws' : List Write}
    {F' : Db → Prop} (stable : Stable Write (locks ++ L) F') (facts : F' srv.db) :
    Holds (srv.extend s locks ws') s (ws ++ ws') (locks ++ L) F' := by
  refine ⟨by rw [Server.writesOf_extend_self, holds.writes], fun l mem => ?_, stable, facts⟩
  rw [Server.mem_locks_extend]
  rcases List.mem_append.mp mem with new | old
  · exact Or.inr ⟨rfl, new⟩
  · exact Or.inl (holds.locks l old)

theorem Holds.start (idle : Idle srv s) (stable : Stable Write [] F) (facts : F srv.db) :
    Holds srv s [] [] F :=
  ⟨idle.writes, by simp, stable, facts⟩

end Soundness

end

end Lib
