/-
# Recovery

Nothing that happens puts the service into a state from which its outbox cannot be worked
off. Whatever processes die, and wherever they were, one worker that is left alone comes
to an outbox without pending rows.

A tick takes the rows that are due and leaves each of them processed, dead, or with one
attempt more, so what decreases is the number of deliveries that all rows can still take
(`remaining`). Between ticks time passes until the next row is due. Rows whose delivery can
succeed are processed, and only the others become dead letters.

* `Run.settles_down`: all processes can die; then no transaction is open.
* `Worked.step`: a tick makes the work that is left less.
* `Run.recovers`: the recovery.
-/
import FlashSale.Draining

namespace FlashSale

open Lib (Table Can)

/-! ### Dead processes -/

section Crashes

variable {cfg : Cfg} {start s : State} {trace : List (State × Label)} {w : Nat}

/-- A label concerns no process from some number on. -/
theorem Label.bounded (l : Label) : ∃ k : Nat, ∀ n, k ≤ n → l.client? ≠ some n ∧ l ≠ .poll n := by
  have client : ∀ m : Nat, ∃ k : Nat, ∀ n, k ≤ n → some m ≠ some n := by
    intro m
    refine ⟨m + 1, fun n le same => ?_⟩
    rw [Option.some.inj same] at le
    omega
  cases l with
  | poll w =>
    refine ⟨w + 1, fun n le => ⟨by simp [Label.client?], fun same => ?_⟩⟩
    rw [Label.poll.inj same] at le
    omega
  | purchase m _ | create m _ | register m _ | resend m _ | auth m _ | disable m _ | client m _
  | store m | command m | clientFail m | clientCrash m =>
    obtain ⟨k, other⟩ := client m
    exact ⟨k, fun n le => ⟨other n le, by simp⟩⟩
  | _ => exact ⟨0, fun n _ => ⟨by simp [Label.client?], by simp⟩⟩

/-- Finitely many processes have taken a step. -/
theorem Run.few (fresh : Fresh start) (run : Run cfg start trace s) :
    ∃ k : Nat, ∀ n, k ≤ n → s.clients n = .idle ∧ s.workers n = .idle := by
  induction run with
  | nil => exact ⟨0, fun n _ => ⟨fresh.clients n, fresh.workers n⟩⟩
  | @snoc trace s s' l before taken ih =>
    obtain ⟨k, idle⟩ := ih
    obtain ⟨k', other⟩ := l.bounded
    refine ⟨max k k', fun n le => ?_⟩
    obtain ⟨client, worker⟩ := idle n (le_trans (le_max_left _ _) le)
    obtain ⟨untouched, unpolled⟩ := other n (le_trans (le_max_right _ _) le)
    exact ⟨(step_others taken untouched).trans client, step_worker_idle worker unpolled taken⟩

/-- All processes are idle, on these rows. So no transaction is open and nothing is locked. -/
structure Resting (cfg : Cfg) (db : Db) (s : State) : Prop where
  wellRun : WellRun cfg s
  clients : ∀ n, s.clients n = .idle
  workers : ∀ n, s.workers n = .idle
  db : s.server.db = db

/-- All processes die, and the committed rows are as they were. Their open transactions are
rolled back, and nothing is locked any more. -/
theorem Run.settles_down (fresh : Fresh start) (limit : 1 ≤ cfg.maxAttempts)
    (run : Run cfg start trace s) (wellRun : WellRun cfg s) :
    CanRecover cfg w (Resting cfg s.server.db) s := by
  obtain ⟨k, idle⟩ := run.few fresh
  -- The clients die first.
  have clients : CanRecover cfg w (fun s' => WellRun cfg s' ∧ s'.server.db = s.server.db ∧
      (∀ n, n < k ∨ k ≤ n → s'.clients n = .idle) ∧ ∀ n, k ≤ n → s'.workers n = .idle) s := by
    refine Can.each (fun m s' => WellRun cfg s' ∧ s'.server.db = s.server.db ∧
      (∀ n, n < m ∨ k ≤ n → s'.clients n = .idle) ∧ ∀ n, k ≤ n → s'.workers n = .idle)
      (fun m s' inv => ?_) k ⟨wellRun, rfl, fun n low => ?_, fun n le => (idle n le).2⟩
    · obtain ⟨wellRun, same, clients, workers⟩ := inv
      have taken : step cfg s' (.clientCrash m) = some (s'.moveClient m (clientCrash s' m)) := rfl
      refine Can.next (l := .clientCrash m) trivial taken (.here ?_)
      refine ⟨wellRun.step limit taken, same, fun n low => ?_, workers⟩
      by_cases own : n = m
      · subst own
        exact State.moveClient_self ..
      · rw [State.moveClient_ne s' _ own]
        exact clients n (by omega)
    · exact (idle n (by omega)).1
  refine clients.andThen fun s₁ inv => ?_
  obtain ⟨wellRun, same, clients, workers⟩ := inv
  have all : ∀ n, s₁.clients n = .idle := fun n => clients n (lt_or_ge n k)
  refine (Can.each (fun m s' => WellRun cfg s' ∧ s'.server.db = s.server.db ∧
    (∀ n, s'.clients n = .idle) ∧ ∀ n, n < m ∨ k ≤ n → s'.workers n = .idle)
    (fun m s' inv => ?_) k ⟨wellRun, same, all, fun n low => workers n (by omega)⟩).imp
      fun s' inv => ⟨inv.1, inv.2.2.1, fun n => inv.2.2.2 n (lt_or_ge n k), inv.2.1⟩
  obtain ⟨wellRun, same, clients, workers⟩ := inv
  have taken : step cfg s' (.workerCrash m) = some (s'.moveWorker m (workerCrash s' m)) := rfl
  refine Can.next (l := .workerCrash m) trivial taken (.here ?_)
  refine ⟨wellRun.step limit taken, same, clients, fun n low => ?_⟩
  by_cases own : n = m
  · subst own
    exact State.moveWorker_self ..
  · rw [State.moveWorker_ne s' _ own]
    exact workers n (by omega)

end Crashes

/-! ### Work -/

/-- The deliveries that a row can still take. -/
def OutboxRow.remaining (cfg : Cfg) (row : OutboxRow) : Int :=
  if row.status = .pending then ((cfg.maxAttempts - row.attempts : Nat) : Int) else 0

def remaining (cfg : Cfg) (db : Db) : Int := db.outbox.sum fun _ row => row.remaining cfg

/-- What has become of a row that is worked on: its event is the same, it stays as it is once
it is done, and it is no dead letter if its delivery can succeed. -/
structure WorkedRow (cfg : Cfg) (db : Db) (row row' : OutboxRow) : Prop where
  event : row'.event = row.event
  done : row.status ≠ .pending → row' = row
  delivered : row.status = .pending → Deliverable cfg db row.event → row'.status ≠ .deadLetter

/-- The worker has worked on these rows, and is between two ticks. What could be delivered
still can be. -/
structure Worked (cfg : Cfg) (w : Nat) (db : Db) (s : State) : Prop where
  alone : LeftAlone cfg w s
  idle : s.workers w = .idle
  able : ∀ event, Deliverable cfg db event → Deliverable cfg s.server.db event
  rows : ∀ id row, db.outbox.get? id = some row →
    ∃ row', s.server.db.outbox.get? id = some row' ∧ WorkedRow cfg db row row'

/-- No row of the outbox is pending. -/
def Db.Drained (db : Db) : Prop := ∀ id row, db.outbox.get? id = some row → row.status ≠ .pending

section Work

variable {cfg : Cfg} {w : Nat} {db mid : Db} {s s' : State} {lines : List Line}

theorem remaining_nonneg : 0 ≤ remaining cfg db :=
  Table.sum_nonneg fun _ row _ => by
    unfold OutboxRow.remaining
    split <;> omega

/-- What is recorded for a pending row leaves less to do. -/
theorem Line.lowers {line : Line} (pending : line.claimed.row.status = .pending)
    (below : line.claimed.row.attempts < cfg.maxAttempts) :
    ((line.change cfg).apply line.claimed.row).remaining cfg < line.claimed.row.remaining cfg := by
  unfold OutboxRow.remaining
  rw [if_pos pending]
  unfold Line.change
  cases line.result with
  | ok _ =>
    rw [if_neg (by simp [OutboxChange.apply])]
    omega
  | error message =>
    dsimp only
    split
    · rw [if_neg (by simp [OutboxChange.apply])]
      omega
    · rw [if_pos (by simpa [OutboxChange.apply] using pending)]
      simp only [OutboxChange.apply]
      omega

/-- A tick lowers the work by at least a delivery for each line. -/
theorem TickCommits.lowers (spec : TickCommits cfg lines mid db)
    (below : ∀ line ∈ lines, line.claimed.row.attempts < cfg.maxAttempts) :
    remaining cfg db + lines.length ≤ remaining cfg mid := by
  have less : ∀ c ∈ lines.map (Line.update cfg), ∃ row, mid.outbox.get? c.1 = some row ∧
      (c.2 row).remaining cfg < row.remaining cfg := by
    intro c mem
    obtain ⟨line, inside, rfl⟩ := List.mem_map.mp mem
    exact ⟨_, spec.claimed line inside, Line.lowers (spec.pending line inside) (below line inside)⟩
  have total := Table.sum_modifyAll_lt (g := fun _ row => row.remaining cfg)
    (Line.update_keys ▸ spec.nodup) less
  rw [List.length_map] at total
  rw [spec.effect]
  exact total

theorem Deliverable.outbox {event : OutboxEvent} {outbox : Table Nat OutboxRow}
    (able : Deliverable cfg db event) : Deliverable cfg { db with outbox := outbox } event := by
  cases event <;> exact able

/-- What a tick makes of a row that has been worked on. -/
theorem WorkedRow.tick {row row₁ : OutboxRow} {id : Nat} (worked : WorkedRow cfg db row row₁)
    (spec : TickCommits cfg lines mid s.server.db) (found : mid.outbox.get? id = some row₁)
    (oks : ∀ line ∈ lines, Deliverable cfg db line.claimed.row.event → line.result = .ok ()) :
    ∃ row', s.server.db.outbox.get? id = some row' ∧ WorkedRow cfg db row row' := by
  by_cases mine : ∃ line ∈ lines, line.claimed.id = id
  · obtain ⟨line, mem, rfl⟩ := mine
    rw [spec.claimed line mem] at found
    cases found
    refine ⟨_, spec.changed mem, (OutboxChange.apply_event _ _).trans worked.event,
      fun final => ?_, fun pending able => ?_⟩
    · have same := worked.done final
      exact absurd (same ▸ spec.pending line mem) final
    · rw [← worked.event] at able
      rw [Line.change, oks line mem able]
      simp [OutboxChange.apply]
  · have other : ∀ line ∈ lines, line.claimed.id ≠ id := fun line mem same => mine ⟨line, mem, same⟩
    exact ⟨row₁, (spec.unchanged other).trans found, worked⟩

/-- A tick goes on with the work, and leaves less of it unless nothing was pending. Each row that
it takes is done, or has one attempt less. -/
theorem Worked.step (worked : Worked cfg w db s) (ticked : Ticked cfg w s.server.db s')
    (some_pending : ¬ s.server.db.Drained) :
    Worked cfg w db s' ∧
      (remaining cfg s'.server.db).toNat < (remaining cfg s.server.db).toNat := by
  obtain ⟨alone, idle, lines, mid, kept, spec, oks, more⟩ := ticked
  have nonempty : lines ≠ [] := fun none => some_pending (more none)
  refine ⟨⟨alone, idle, fun event able => ?_, fun id row found => ?_⟩, ?_⟩
  · rw [spec.effect]
    exact (kept.deliverable event (worked.able event able)).outbox
  · obtain ⟨row₁, there, worked₁⟩ := worked.rows id row found
    rw [← kept.outbox] at there
    exact worked₁.tick spec there fun line mem able => oks line mem (worked.able _ able)
  · have below : ∀ line ∈ lines, line.claimed.row.attempts < cfg.maxAttempts := by
      intro line mem
      have there := spec.claimed line mem
      rw [kept.outbox] at there
      refine (worked.alone.wellRun.claiming.counted.present _ _ there).live ?_
      rw [spec.pending line mem]
      decide
    have lowers := spec.lowers below
    have same : remaining cfg mid = remaining cfg s.server.db := by
      rw [remaining, kept.outbox]
      rfl
    have some_line := List.length_pos_iff.mpr nonempty
    have nonneg : 0 ≤ remaining cfg s'.server.db := remaining_nonneg
    omega

/-- A worker that is left alone works off the outbox. -/
theorem LeftAlone.drains (alone : LeftAlone cfg w s) (limit : 1 ≤ cfg.maxAttempts)
    (column : cfg.maxAttempts ≤ 2147483647) (batch : 1 ≤ cfg.batchSize)
    (idle : s.workers w = .idle) :
    CanRecover cfg w (fun s' => Worked cfg w s.server.db s' ∧ s'.server.db.Drained) s := by
  refine Can.variant (fun s => (remaining cfg s.server.db).toNat) (fun s₁ worked => ?_)
    ⟨alone, idle, fun _ able => able, fun id row found => ⟨row, found, rfl, fun _ => rfl, ?_⟩⟩
  · by_cases drained : s₁.server.db.Drained
    · exact Or.inl drained
    · exact Or.inr ((worked.alone.ticks limit column batch worked.idle).imp fun s₂ ticked =>
        worked.step ticked drained)
  · intro pending _
    rw [pending]
    decide

end Work

/-! ### Recovery -/

section Runs

variable {cfg : Cfg} {start s : State} {trace : List (State × Label)}

theorem WellRun.init (fresh : Fresh start) (empty : NoEvents start.server.db)
    (conforms : start.server.db.Conforms) (limit : 1 ≤ cfg.maxAttempts) : WellRun cfg start := by
  refine ⟨(Causing.init fresh empty).processing, .init fresh limit fun id row found => ?_,
    fresh.upheld conforms⟩
  cases (empty.outbox id).symm.trans found

/-- From every state that the system can be in, one worker that is left alone, all other
processes having died where they were, comes to a state at rest in which no row of the
outbox is pending. Every row that was pending is processed then, and has its effect, unless
its delivery throws for a reason that was in the database: a code that does not decrypt, or
a stock that has no room for what is returned. -/
theorem Run.recovers (fresh : Fresh start) (empty : NoEvents start.server.db)
    (conforms : start.server.db.Conforms) (limit : 1 ≤ cfg.maxAttempts)
    (column : cfg.maxAttempts ≤ 2147483647) (batch : 1 ≤ cfg.batchSize)
    (run : Run cfg start trace s) (w : Nat) :
    ∃ recovery s', Run cfg s recovery s' ∧ (∀ p ∈ recovery, p.2.Recovers w) ∧
      (∀ n, s'.clients n = .idle) ∧ (∀ n, s'.workers n = .idle) ∧
      (∀ id row, s'.server.db.outbox.get? id = some row → row.status ≠ .pending) ∧
      ∀ id row, s.server.db.outbox.get? id = some row → row.status = .pending →
        ∃ row', s'.server.db.outbox.get? id = some row' ∧ row'.event = row.event ∧
          (Deliverable cfg s.server.db row.event →
            row'.status = .processed ∧ row'.event.Achieved s'.server.db) := by
  have wellRun : WellRun cfg s :=
    Lib.Run.invariant (.init fresh empty conforms limit)
      (fun _ _ _ wellRun taken => WellRun.step wellRun limit taken) run
  have recovers : CanRecover cfg w
      (fun s' => Worked cfg w s.server.db s' ∧ s'.server.db.Drained) s := by
    refine (run.settles_down fresh limit wellRun).andThen fun s₁ resting => ?_
    obtain ⟨wellRun₁, clients, workers, same⟩ := resting
    rw [← same]
    refine LeftAlone.drains ⟨wellRun₁, clients, fun w' _ => workers w', fun l held => ?_⟩
      limit column batch (workers w)
    have safe := wellRun₁.coherent.workers w
    rw [workers w] at safe
    exact absurd held (safe.1.locks l)
  obtain ⟨recovery, s', run', oks, worked, drained⟩ := recovers
  refine ⟨recovery, s', run', oks, worked.alone.clients, fun n => ?_, drained,
    fun id row found pending => ?_⟩
  · by_cases own : n = w
    · rw [own]
      exact worked.idle
    · exact worked.alone.workers n own
  · obtain ⟨row', there, event, -, delivered⟩ := worked.rows id row found
    refine ⟨row', there, event, fun able => ?_⟩
    have processed : row'.status = .processed := by
      cases status : row'.status with
      | pending => exact absurd status (drained id row' there)
      | deadLetter => exact absurd status (delivered pending able)
      | processed => rfl
    exact ⟨processed, worked.alone.wellRun.processing.honest.processed id row' there processed⟩

theorem bareDb_conforms : bareDb.Conforms := by
  have conforms : (shopWith 500 100).Conforms := shopWith_conforms (by decide) rfl rfl
  constructor
  · exact conforms.users
  · intro id row found
    obtain ⟨-, rfl⟩ := Table.only found
    exact ⟨by decide, rfl⟩
  · intro id row found
    cases found
  · intro id row found
    cases found
  · intro id row found
    cases found
  · intro id row found
    cases found
  · intro id row found
    cases found
  · exact conforms.emails
  · exact conforms.phones
  · intro id row id' row' found
    cases found
  · intro id row id' row' found
    cases found
  · intro id row id' row' found
    cases found
  · intro id row found
    cases found
  · intro id row found
    cases found
  · intro id row found
    cases found
  · intro id row found
    cases found
  · intro id row found
    cases found

/-- Worker 0 is in the transaction that settles sale 3. -/
def interrupted : List Label := creating ++ .elapse 1000000 :: .poll 0 :: Label.workerSteps 0 8

theorem interrupted_runs : (Lib.execute (step plainCfg) bareShop interrupted).isSome = true := by
  decide +kernel

/-- Worker 1 settles the sale that worker 0 has not. -/
theorem recovers_interrupted :
    ∃ s recovery s' row,
      Run plainCfg bareShop (Lib.traceOf (step plainCfg) bareShop interrupted) s ∧
      s.server.pending ≠ [] ∧ Run plainCfg s recovery s' ∧ (∀ p ∈ recovery, p.2.Recovers 1) ∧
      s'.server.db.outbox.get? 2 = some row ∧ row.status = .processed ∧
      OutboxEvent.Achieved s'.server.db (.flashSaleSettle 3) := by
  have run := Lib.Run.of_isSome interrupted_runs
  generalize s_is :
    (Lib.execute (step plainCfg) bareShop interrupted).get interrupted_runs = s at run
  have open_ : s.server.pending ≠ [] := by
    rw [← s_is]
    decide +kernel
  have found : s.server.db.outbox.get? 2 =
      some ⟨.flashSaleSettle 3, .pending, 0, dayStart + 1000, none, none⟩ := by
    rw [← s_is]
    decide +kernel
  have room : Returnable 3 s.server.db := by
    intro id item product listed _ there
    have items : s.server.db.flashSaleItems.rows = [(4, ⟨3, 2, 1, 0, 100⟩)] := by
      rw [← s_is]
      decide +kernel
    have products : s.server.db.products.rows = [(2, ⟨0⟩)] := by
      rw [← s_is]
      decide +kernel
    have own := Table.mem_rows_iff.mpr listed
    rw [items, List.mem_singleton] at own
    cases own
    have stock := Table.mem_rows_iff.mpr there
    rw [products, List.mem_singleton] at stock
    cases stock
    rw [← s_is]
    decide +kernel
  obtain ⟨recovery, s', run', oks, -, -, -, rows⟩ := Run.recovers (State.initial_fresh _ _ _)
    ⟨fun _ => rfl, fun _ => rfl, fun _ => rfl, fun _ => rfl, fun _ => rfl⟩ bareDb_conforms
    (by decide) (by decide) (by decide) run 1
  obtain ⟨row, there, event, delivered⟩ := rows 2 _ found rfl
  obtain ⟨processed, achieved⟩ := delivered room
  rw [event] at achieved
  exact ⟨s, recovery, s', row, run, open_, run', oks, there, processed, achieved⟩

end Runs

end FlashSale
