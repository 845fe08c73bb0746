/-
# The life cycle of outbox rows

A row is inserted as pending, is claimed any number of times, and may end as processed or as
a dead letter. Only the commit of a tick changes it, by one line for each row that the
tick has claimed: `RowState` says what the row looks like after a list of failed
deliveries, and `Counted` that this list is the one of the committed ticks. A claim that
is lost with its tick leaves no trace in the row.

* `Counted.step`: status, attempts and back-off of every row are those of its
  failed deliveries that have been committed.
* `AllClaimedAfter.step`: rows are claimed while they are pending and due.
* `Run.life_cycle`: the whole life cycle, for any number of workers.
-/
import FlashSale.Delivering

namespace FlashSale

open Lib (Table Chain)

/-! ### Deliveries -/

/-- The deliveries of a row that have been recorded, in the order of the commits. -/
def deliveries (id : Nat) (done : List Commit) : List Line :=
  (done.flatMap fun
    | .ticked lines => lines
    | _ => []).filter fun line => decide (line.claimed.id = id)

def Line.isFailure (line : Line) : Bool :=
  match line.result with
  | .ok _ => false
  | .error _ => true

/-- The recorded deliveries of a row that failed. -/
def failures (id : Nat) (done : List Commit) : List Line := (deliveries id done).filter Line.isFailure

/-- The delay after the `k`-th failure in milliseconds, without its jitter. -/
def backoff (k : Nat) : Nat := min (2 ^ k * 1000) (5 * 60000)

/-- A row after the given failures. Their number is its attempts, and the last of them says
when it is visible again. -/
structure RowState (cfg : Cfg) (failed : List Line) (row : OutboxRow) : Prop where
  attempts : row.attempts = failed.length
  live : row.status ≠ .deadLetter → row.attempts < cfg.maxAttempts
  dead : row.status = .deadLetter ↔ row.attempts = cfg.maxAttempts
  visible : ∀ line, failed.getLast? = some line → row.status ≠ .deadLetter →
    line.time + backoff row.attempts ≤ row.visibleAt ∧
    row.visibleAt < line.time + backoff row.attempts + 1000

/-- Every row is in the state of its failures, and a row that is not there has none. Failures
count when the tick that recorded them has committed. -/
structure Counted (cfg : Cfg) (done : List Commit) (db : Db) : Prop where
  present : ∀ id row, db.outbox.get? id = some row → RowState cfg (failures id done) row
  absent : ∀ id, db.outbox.get? id = none → failures id done = []

section Commits

variable {cfg : Cfg} {db db' : Db} {done : List Commit}

theorem failures_append (id : Nat) (done more : List Commit) :
    failures id (done ++ more) = failures id done ++ failures id more := by
  simp [failures, deliveries]

/-- Of lines about different rows, one is about its row. -/
theorem filter_own {lines : List Line} (nodup : (lines.map fun line => line.claimed.id).Nodup)
    {line : Line} (mem : line ∈ lines) :
    lines.filter (fun l => decide (l.claimed.id = line.claimed.id)) = [line] := by
  induction lines with
  | nil => cases mem
  | cons first rest ih =>
    rw [List.map_cons, List.nodup_cons] at nodup
    rcases List.mem_cons.mp mem with rfl | later
    · have none : rest.filter (fun l => decide (l.claimed.id = line.claimed.id)) = [] := by
        rw [List.filter_eq_nil_iff]
        intro l inside
        rw [decide_eq_true_eq]
        intro same
        exact nodup.1 (List.mem_map.mpr ⟨l, inside, same⟩)
      rw [List.filter_cons_of_pos (by simp), none]
    · have ne : first.claimed.id ≠ line.claimed.id := by
        intro same
        exact nodup.1 (List.mem_map.mpr ⟨line, later, same.symm⟩)
      rw [List.filter_cons_of_neg (by simpa using ne), ih nodup.2 later]

theorem failures_line {lines : List Line} (nodup : (lines.map fun line => line.claimed.id).Nodup)
    {line : Line} (mem : line ∈ lines) :
    failures line.claimed.id [.ticked lines] = if line.isFailure then [line] else [] := by
  simp only [failures, deliveries, List.flatMap_cons, List.flatMap_nil, List.append_nil,
    filter_own nodup mem]
  by_cases failed : line.isFailure = true <;> simp [failed]

theorem failures_other {lines : List Line} {id : Nat} (other : ∀ line ∈ lines, line.claimed.id ≠ id) :
    failures id [.ticked lines] = [] := by
  have none : lines.filter (fun l => decide (l.claimed.id = id)) = [] := by
    rw [List.filter_eq_nil_iff]
    intro l mem
    simpa using other l mem
  simp [failures, deliveries, none]

/-- A delivery that succeeds leaves the row in the state of its failures, and one
that fails puts it in the next one. -/
theorem RowState.change {failed : List Line} {line : Line}
    (before : RowState cfg failed line.claimed.row) (pending : line.claimed.row.status = .pending) :
    RowState cfg (failed ++ if line.isFailure then [line] else [])
      ((line.change cfg).apply line.claimed.row) := by
  have alive : line.claimed.row.status ≠ .deadLetter := by
    rw [pending]
    decide
  have less := before.live alive
  obtain ⟨attempts, -, -, visible⟩ := before
  unfold Line.change Line.isFailure
  cases result : line.result with
  | ok _ =>
    simp only [Bool.false_eq_true, if_false, List.append_nil]
    refine ⟨attempts, fun _ => less, ⟨fun dead => ?_, fun all => ?_⟩, fun last is _ => visible last is alive⟩
    · cases dead
    · exact absurd all (Nat.ne_of_lt less)
  | error message =>
    simp only [if_true]
    have next : line.claimed.row.attempts + 1 = (failed ++ [line]).length := by
      rw [attempts, List.length_append, List.length_singleton]
    split
    · rename_i limit
      refine ⟨next, fun live => absurd rfl live, ⟨fun _ => ?_, fun _ => rfl⟩,
        fun _ _ live => absurd rfl live⟩
      show line.claimed.row.attempts + 1 = cfg.maxAttempts
      omega
    · rename_i below
      have less' : line.claimed.row.attempts + 1 < cfg.maxAttempts := by omega
      refine ⟨next, fun _ => less', ⟨fun dead => absurd dead alive, fun all => ?_⟩, fun last is _ => ?_⟩
      · exact absurd all (Nat.ne_of_lt less')
      · rw [List.getLast?_concat] at is
        cases is
        have jitter := Nat.mod_lt line.jitter (by decide : 0 < 1000)
        show line.time + backoff (line.claimed.row.attempts + 1) ≤
            line.time + (backoff (line.claimed.row.attempts + 1) + line.jitter % 1000 : Nat) ∧
          line.time + (backoff (line.claimed.row.attempts + 1) + line.jitter % 1000 : Nat) <
            line.time + backoff (line.claimed.row.attempts + 1) + 1000
        generalize backoff (line.claimed.row.attempts + 1) = delay
        omega

/-- A row that is new has no failures. -/
theorem Counted.insert (counted : Counted cfg done db) (limit : 1 ≤ cfg.maxAttempts) {id : Nat}
    {row : OutboxRow} (fresh : db.outbox.get? id = none) (pending : row.status = .pending)
    (first : row.attempts = 0) : Counted cfg done { db with outbox := db.outbox.insert id row } := by
  refine ⟨fun id' row' found => ?_, fun id' absent => ?_⟩
  · rcases Table.get?_insert_cases found with old | ⟨rfl, rfl⟩
    · exact counted.present id' row' old
    · rw [counted.absent _ fresh]
      refine ⟨first, fun _ => ?_, ⟨fun dead => ?_, fun all => ?_⟩, fun _ is => ?_⟩
      · omega
      · rw [pending] at dead
        cases dead
      · omega
      · cases is
  · exact counted.absent id' (Table.get?_insert_eq_none.mp absent).1

theorem Counted.congr (counted : Counted cfg done db) (outbox : db'.outbox = db.outbox) :
    Counted cfg done db' := by
  obtain ⟨present, absent⟩ := counted
  rw [← outbox] at present absent
  exact ⟨present, absent⟩

/-- A commit that is no tick adds no failures. -/
theorem Counted.quiet (counted : Counted cfg done db) {commit : Commit}
    (quiet : ∀ id, failures id [commit] = []) : Counted cfg (done ++ [commit]) db := by
  obtain ⟨present, absent⟩ := counted
  have same : ∀ id, failures id (done ++ [commit]) = failures id done := by
    intro id
    rw [failures_append, quiet, List.append_nil]
  exact ⟨fun id row found => by rw [same]; exact present id row found,
    fun id none => by rw [same]; exact absent id none⟩

theorem Counted.ticked (counted : Counted cfg done db) {lines : List Line}
    (spec : TickCommits cfg lines db db') : Counted cfg (done ++ [.ticked lines]) db' := by
  refine ⟨fun id row found => ?_, fun id absent => ?_⟩
  · rw [failures_append]
    rcases spec.row_cases found with ⟨line, mem, rfl, there, rfl⟩ | ⟨there, other⟩
    · rw [failures_line spec.nodup mem]
      exact (counted.present _ _ there).change (spec.pending line mem)
    · rw [failures_other other, List.append_nil]
      exact counted.present id row there
  · have before : db.outbox.get? id = none := by
      cases there : db.outbox.get? id with
      | none => rfl
      | some row =>
        obtain ⟨row', found, -⟩ := spec.row_kept there
        rw [absent] at found
        cases found
    rw [failures_append, counted.absent id before, List.nil_append]
    refine failures_other fun line mem same => ?_
    have claimed := spec.claimed line mem
    rw [same, before] at claimed
    cases claimed

/-- Every commit keeps the rows in the state of their failures. Only the commit of a tick adds to
these, and it changes the rows by the same lines. -/
theorem Counted.step {commit : Commit} (counted : Counted cfg done db) (limit : 1 ≤ cfg.maxAttempts)
    (happened : Atomic cfg db commit db') : Counted cfg (done ++ [commit]) db' := by
  cases happened with
  | purchased found spec =>
    refine Counted.quiet ?_ fun _ => rfl
    rw [spec.effect]
    exact (counted.insert limit spec.outbox_fresh rfl rfl).congr rfl
  | created found spec =>
    refine Counted.quiet ?_ fun _ => rfl
    have settle_fresh : ∀ row, (db.outbox.insert found.createdId row).get? found.settleId = none :=
      fun row => (Table.get?_insert_ne spec.outbox_ne).trans spec.settle_fresh
    rw [spec.effect]
    exact ((counted.insert limit spec.created_fresh rfl rfl).insert limit (settle_fresh _) rfl rfl).congr rfl
  | registered found spec =>
    refine Counted.quiet ?_ fun _ => rfl
    rw [spec.effect]
    exact (counted.insert limit spec.outbox_fresh rfl rfl).congr rfl
  | resent found spec =>
    refine Counted.quiet ?_ fun _ => rfl
    rw [spec.effect]
    exact (counted.insert limit spec.outbox_fresh rfl rfl).congr rfl
  | account spec =>
    refine Counted.quiet ?_ fun _ => rfl
    rw [spec.effect]
    exact counted.congr (by simp)
  | settled spec =>
    refine Counted.quiet ?_ fun _ => rfl
    cases spec with
    | skipped _ => exact counted
    | settled _ _ _ effect => rw [effect]; exact counted.congr rfl
  | otpSent found =>
    refine Counted.quiet ?_ fun _ => rfl
    exact counted.congr rfl
  | ticked spec => exact counted.ticked spec

end Commits

/-! ### Claims -/

/-- A claim of a row that has failed before comes after its back-off, counted from the time at
which the last failure was recorded. -/
structure ClaimedAfter (failed : List Line) (started : Int) (c : ClaimedRow) : Prop where
  pending : c.row.status = .pending
  attempts : c.row.attempts = failed.length
  due : c.row.visibleAt * 1000 ≤ started
  waited : ∀ line, failed.getLast? = some line →
    (line.time + backoff failed.length) * 1000 ≤ started

/-- All claims of a history came after the failures before them. -/
def AllClaimedAfter (history : List Event) : Prop :=
  ∀ before w started rows, before ++ [.claimed w started rows] <+: history → ∀ c ∈ rows,
    ClaimedAfter (failures c.id (commits before)) started c

/-- A tick under way knows the rows that it has claimed. -/
def ClaimsRecorded (s : State) : Prop :=
  ∀ w started alive stage, s.workers w = .polling started alive stage →
    stage = .claim ∨ .claimed w started stage.claimed ∈ s.history

/-- A prefix of a history that grows is one of the old history or ends in what
was added. -/
theorem prefix_added {history events before : List Event} {e : Event}
    (is : before ++ [e] <+: history ++ events) : before ++ [e] <+: history ∨
      ∃ early late, events = early ++ e :: late ∧ before = history ++ early := by
  obtain ⟨rest, eq⟩ := is
  rw [List.append_assoc] at eq
  rcases added_cases eq.symm with ⟨mid, old, -⟩ | ⟨mid, new, old⟩
  · exact Or.inl ⟨mid, by rw [old, List.append_assoc]; rfl⟩
  · exact Or.inr ⟨mid, rest, new, old⟩

/-- What every run keeps. -/
structure Claiming (cfg : Cfg) (s : State) : Prop where
  coherent : Coherent cfg s
  counted : Counted cfg (commits s.history) s.server.db
  after : AllClaimedAfter s.history
  recorded : ClaimsRecorded s

section Claims

variable {cfg : Cfg} {s s' : State}

theorem Counted.steps {l : Label} (counted : Counted cfg (commits s.history) s.server.db)
    (limit : 1 ≤ cfg.maxAttempts) (coherent : Coherent cfg s)
    (taken : FlashSale.step cfg s l = some s') :
    Counted cfg (commits s'.history) s'.server.db := by
  rw [step_commits taken]
  rcases step_atomic coherent taken with ⟨none, same⟩ | ⟨commit, committing, happened⟩
  · rw [none, same, Option.toList_none, List.append_nil]
    exact counted
  · rw [committing]
    exact counted.step limit happened

theorem Claims.after {started : Int} {rows : List ClaimedRow} {done : List Commit}
    (claims : Claims s.server.db started rows) (counted : Counted cfg done s.server.db)
    {c : ClaimedRow} (mem : c ∈ rows) : ClaimedAfter (failures c.id done) started c := by
  obtain ⟨pending, due⟩ := claims.due c mem
  have state := counted.present c.id c.row (claims.asClaimed c mem)
  refine ⟨pending, state.attempts, due, fun line is => ?_⟩
  have waits := (state.visible line is (by rw [pending]; decide)).1
  rw [state.attempts] at waits
  omega

/-- A step that claims rows claims those that are pending and due, and all earlier claims stay
as they were. -/
theorem AllClaimedAfter.step {l : Label} (after : AllClaimedAfter s.history)
    (counted : Counted cfg (commits s.history) s.server.db) (coherent : Coherent cfg s)
    (taken : FlashSale.step cfg s l = some s') : AllClaimedAfter s'.history := by
  obtain ⟨events, added, claims⟩ := step_claims coherent taken
  intro before w started rows is c mem
  rw [added] at is
  rcases prefix_added is with old | ⟨early, late, eq, rfl⟩
  · exact after before w started rows old c mem
  · obtain ⟨one, -, known⟩ := claims w started rows (by rw [eq]; simp)
    rw [one] at eq
    obtain rfl : early = [] := by
      cases early with
      | nil => rfl
      | cons first rest => simp at eq
    rw [List.append_nil]
    exact known.after counted mem

theorem ClaimsRecorded.step {l : Label} (recorded : ClaimsRecorded s) (coherent : Coherent cfg s)
    (taken : FlashSale.step cfg s l = some s') : ClaimsRecorded s' := by
  intro w started alive stage at_
  obtain ⟨events, added, -⟩ := step_events taken
  have kept : ∀ {stage' : TickStage} {alive' : Bool}, s.workers w = .polling started alive' stage' →
      stage' ≠ .claim → stage.claimed = stage'.claimed →
      stage = .claim ∨ .claimed w started stage.claimed ∈ s'.history := by
    intro stage' alive' before ne same
    rw [same, added]
    exact Or.inr (List.mem_append_left _ ((recorded w started alive' stage' before).resolve_left ne))
  rcases step_ticks coherent taken w with ⟨same, -⟩ | ticks
  · rw [same] at at_
    rcases recorded w started alive stage at_ with claim | old
    · exact Or.inl claim
    · rw [added]
      exact Or.inr (List.mem_append_left _ old)
  · generalize before : s.workers w = worker at ticks
    rw [at_] at ticks
    cases ticks with
    | polls => exact Or.inl rfl
    | claims claims claimed =>
      rw [claimed]
      exact Or.inr (by simp [TickStage.claimed])
    | begins => exact kept before (by simp) (claimed_beginDelivery _ _ _)
    | handles ran => exact kept before (by simp) (claimed_stage _ _ _ _)
    | fails => exact kept before (by simp) rfl
    | records => exact kept before (by simp) (by simp [TickStage.claimed])
    | loses =>
      rcases recorded w started true stage before with claim | old
      · exact Or.inl claim
      · rw [added]
        exact Or.inr (List.mem_append_left _ old)

theorem Claiming.step {l : Label} (claiming : Claiming cfg s) (limit : 1 ≤ cfg.maxAttempts)
    (taken : FlashSale.step cfg s l = some s') : Claiming cfg s' := by
  obtain ⟨coherent, counted, after, recorded⟩ := claiming
  exact ⟨(step_coherent coherent taken).1, counted.steps limit coherent taken,
    after.step counted coherent taken, recorded.step coherent taken⟩

/-- The outbox before its first delivery. -/
def Unclaimed (db : Db) : Prop :=
  ∀ id row, db.outbox.get? id = some row → row.status = .pending ∧ row.attempts = 0

theorem Claiming.init (fresh : Fresh s) (limit : 1 ≤ cfg.maxAttempts) (first : Unclaimed s.server.db) :
    Claiming cfg s := by
  refine ⟨fresh.coherent, ?_, fun before w started rows is => ?_, fun w started alive stage at_ => ?_⟩
  · rw [fresh.history]
    refine ⟨fun id row found => ?_, fun _ _ => rfl⟩
    obtain ⟨pending, zero⟩ := first id row found
    refine ⟨zero, fun _ => ?_, ⟨fun dead => ?_, fun all => ?_⟩, fun _ is => ?_⟩
    · omega
    · rw [pending] at dead
      cases dead
    · omega
    · cases is
  · rw [fresh.history, List.prefix_nil] at is
    simp at is
  · rw [fresh.workers w] at at_
    cases at_

/-! ### Rows that are done -/

/-- A row stays as it is from `s` on, and no tick claims it again. This is so of processed rows
and of dead letters. -/
structure Done (cfg : Cfg) (s : State) (id : Nat) (row : OutboxRow) (s' : State) : Prop where
  coherent : Coherent cfg s'
  same : s'.server.db.outbox.get? id = some row
  unclaimed : ∃ events, s'.history = s.history ++ events ∧ ∀ w started rows,
    .claimed w started rows ∈ events → ∀ c ∈ rows, c.id ≠ id

theorem Done.step {l : Label} {earlier : State} {id : Nat} {row : OutboxRow}
    (final : row.status ≠ .pending) (done : Done cfg earlier id row s)
    (taken : FlashSale.step cfg s l = some s') : Done cfg earlier id row s' := by
  obtain ⟨coherent, same, events, history, unclaimed⟩ := done
  obtain ⟨more, added, claims⟩ := step_claims coherent taken
  refine ⟨(step_coherent coherent taken).1, ?_, events ++ more,
    by rw [added, history, List.append_assoc], fun w started rows mem c inside => ?_⟩
  · rcases step_atomic coherent taken with ⟨-, rows⟩ | ⟨commit, -, happened⟩
    · rwa [rows]
    · obtain ⟨row', kept, -, unchanged⟩ := happened.row_kept same
      rw [kept, unchanged final]
  · rcases List.mem_append.mp mem with old | new
    · exact unclaimed w started rows old c inside
    · obtain ⟨-, -, known⟩ := claims w started rows new
      rintro rfl
      have there := known.asClaimed c inside
      rw [same] at there
      cases there
      exact final (known.due c inside).1

end Claims

section Runs

variable {cfg : Cfg} {start s : State} {trace : List (State × Label)}

/-- The life cycle of the rows of the outbox: their state in every reachable state,
their claims, the end of it, and the ticks. -/
theorem Run.life_cycle (fresh : Fresh start) (limit : 1 ≤ cfg.maxAttempts)
    (first : Unclaimed start.server.db) (run : Run cfg start trace s) :
    (∀ id row, s.server.db.outbox.get? id = some row →
      RowState cfg (failures id (commits s.history)) row) ∧
    AllClaimedAfter s.history ∧
    (∀ trace' s' id row, Run cfg s trace' s' → s.server.db.outbox.get? id = some row →
      row.status ≠ .pending → s'.server.db.outbox.get? id = some row ∧
        ∃ events, s'.history = s.history ++ events ∧ ∀ w started rows,
          .claimed w started rows ∈ events → ∀ c ∈ rows, c.id ≠ id) ∧
    ∀ l s' lines, step cfg s l = some s' → s.committing l = some (.ticked lines) →
      (∃ w started, .claimed w started (lines.map Line.claimed) ∈ s.history) ∧
      ∀ id row, s'.server.db.outbox.get? id = some row →
        (∃ line ∈ lines, line.claimed.id = id ∧
          s.server.db.outbox.get? id = some line.claimed.row ∧
          row = (line.change cfg).apply line.claimed.row) ∨
        (s.server.db.outbox.get? id = some row ∧ ∀ line ∈ lines, line.claimed.id ≠ id) := by
  have claiming : Claiming cfg s :=
    Lib.Run.invariant (.init fresh limit first)
      (fun _ _ _ claiming taken => Claiming.step claiming limit taken) run
  refine ⟨claiming.counted.present, claiming.after, fun trace' s' id row later found final => ?_,
    fun l s' lines taken committing => ⟨?_, fun id row found => ?_⟩⟩
  · have done : Done cfg s id row s' :=
      Lib.Run.invariant ⟨claiming.coherent, found, [], (List.append_nil _).symm, by simp⟩
        (fun _ _ _ done taken => Done.step final done taken) later
    exact ⟨done.same, done.unclaimed⟩
  · obtain ⟨w, started, at_⟩ := committing_ticked committing
    rcases claiming.recorded w started true _ at_ with claim | claimed
    · cases claim
    · refine ⟨w, started, ?_⟩
      simpa [TickStage.claimed] using claimed
  · rcases step_atomic claiming.coherent taken with ⟨none, -⟩ | ⟨commit, is, happened⟩
    · rw [committing] at none
      cases none
    · rw [committing] at is
      cases is
      cases happened with
      | ticked spec => exact spec.row_cases found

/-- The sale is created, and the delivery of its first event fails. -/
def misdelivering : List Label :=
  creating ++ .poll 0 :: Label.workerSteps 0 2 ++ .workerFail 0 "down" :: Label.workerSteps 0 2

theorem misdelivering_runs : (Lib.execute (step plainCfg) bareShop misdelivering).isSome = true := by
  decide +kernel

theorem life_cycle_failing :
    ∃ s, Run plainCfg bareShop (Lib.traceOf (step plainCfg) bareShop misdelivering) s ∧
      s.server.db.outbox.get? 1 =
        some ⟨.flashSaleCreated 3 [4], .pending, 1, dayStart + 2000, some "down", some 3⟩ ∧
      RowState plainCfg (failures 1 (commits s.history))
        ⟨.flashSaleCreated 3 [4], .pending, 1, dayStart + 2000, some "down", some 3⟩ := by
  have run := Lib.Run.of_isSome misdelivering_runs
  have found : ((Lib.execute (step plainCfg) bareShop misdelivering).get
      misdelivering_runs).server.db.outbox.get? 1 =
        some ⟨.flashSaleCreated 3 [4], .pending, 1, dayStart + 2000, some "down", some 3⟩ := by
    decide +kernel
  have cycle := Run.life_cycle (State.initial_fresh _ _ _) (by decide)
    (fun _ _ none => by cases none) run
  exact ⟨_, run, found, cycle.1 1 _ found⟩

end Runs

end FlashSale
