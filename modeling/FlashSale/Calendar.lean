/-
# The daily cap on calendar days

`purchaseTx` reads the clock for the day of a purchase before it opens its
transaction, and the row is stamped with its `created_at` when its INSERT runs.
`InsertedOnDate` compares these two moments: the time that the call has read and the
time that the INSERT stamps fall on one date of the server's time zone. A call that
waits past midnight between the two does not meet it.

* `Run.capped_by_date`: in the runs whose INSERTs all run on the dates on which their
  calls have read the clock, every row has the date of its creation, and no user has
  two rows created on one date.
* `bought_twice`: a call that waits past midnight, and the user's next purchase.
-/
import FlashSale.Answers

namespace FlashSale

open Lib (Table Tx applyAll Spared)

/-! ### The two moments -/

/-- The time at which a step of client `n` reads the clock for the day of its purchase. -/
def dayReading (n : Nat) : State × Label → Option Int
  | (s, .client m _) =>
    match s.clients m with
    | .handle request _ => if m = n ∧ request.saleItemId.isSome then some s.now else none
    | _ => none
  | _ => none

/-- The last such time in a trace: that of the client's latest call. -/
def lastReading (n : Nat) (trace : List (State × Label)) : Option Int :=
  (trace.filterMap (dayReading n)).getLast?

/-- The client whose step runs the INSERT of a purchase, and the `created_at` with which
the row is stamped. -/
def insertStamp : State × Label → Option (Nat × Int)
  | (s, .client n choice) =>
    match s.clients n with
    | .tx (.purchase _ _ _) started (.exec (.createPurchase _) _ _) =>
      some (n, toColumn (s.env (.client n) started choice).stamp)
    | _ => none
  | _ => none

/-- If this step runs the INSERT of a purchase, then the date on which its call has read
the clock, in one of the steps before, is that of the stamp. -/
def InsertedOnDate (cfg : Cfg) (before : List (State × Label)) (p : State × Label) : Prop :=
  ∀ insert ∈ insertStamp p, ∀ read ∈ lastReading insert.1 before,
    cfg.dateOf read = cfg.dateOf insert.2

instance (cfg : Cfg) (before : List (State × Label)) (p : State × Label) :
    Decidable (InsertedOnDate cfg before p) := by
  unfold InsertedOnDate
  infer_instance

/-! ### Rows -/

/-- The day of a purchase is the date of its creation. -/
def PurchaseRow.Dated (cfg : Cfg) (row : PurchaseRow) : Prop := row.day = cfg.dateOf row.createdAt

/-- A write that inserts a purchase inserts one with the date of its creation. -/
def Write.Dated (cfg : Cfg) : Write → Prop
  | .insertPurchase _ row => row.Dated cfg
  | _ => True

/-- Rows with the dates of their creation, one for each user and day, as the unique
index on `(user_id, day)` has it. -/
structure ByDate (cfg : Cfg) (db : Db) : Prop where
  dated : ∀ id row, db.purchases.get? id = some row → row.Dated cfg
  unique : ∀ id row id' row', db.purchases.get? id = some row → db.purchases.get? id' = some row' →
    row.userId = row'.userId → row.day = row'.day → id = id'

section Writes

variable {cfg : Cfg} {db : Db} {ws : List Write}

/-- Only `purchase.create` inserts a purchase, with the time of its environment. -/
theorem plan_inserts {st : Stmt} {env : Env} {r : st.Result} {id : Uuid} {row : PurchaseRow}
    (h : (plan st env db).answer = .ok (ws, r)) (mem : .insertPurchase id row ∈ ws) :
    ∃ data, st = .createPurchase data ∧ row = data.row (toColumn env.stamp) := by
  have wrote : ∀ {w : Write} {violated : Option DbError} {r : Unit},
      (updating w violated).answer = .ok (ws, r) → .insertPurchase id row = w := by
    intro w violated r h
    rw [(updating_ok h).2.1] at mem
    exact List.mem_singleton.mp mem
  have inserted : ∀ {ρ : Type} {w : Write} {result r : ρ} {violated : Option DbError}
      {duplicate orphan : Bool}, (inserting w result violated duplicate orphan).answer = .ok (ws, r) →
      .insertPurchase id row = w := by
    intro ρ w result r violated duplicate orphan h
    rw [(inserting_ok h).2.2.2.1] at mem
    exact List.mem_singleton.mp mem
  cases st with
  | createPurchase data =>
    cases inserted h
    exact ⟨data, rfl, rfl⟩
  | _ =>
    exfalso
    dsimp only [plan] at h
    repeat' split at h
    all_goals
      first
        | cases wrote h
        | cases inserted h
        | cases h; cases mem
        | cases h

/-- A purchase after some writes was there before, or was inserted by one of them. -/
theorem applyAll_purchases {id : Uuid} {row : PurchaseRow}
    (found : (applyAll db ws).purchases.get? id = some row) :
    db.purchases.get? id = some row ∨ .insertPurchase id row ∈ ws := by
  induction ws generalizing db with
  | nil => exact Or.inl found
  | cons w ws ih =>
    rcases ih found with before | later
    · cases w with
      | insertPurchase id' row' =>
        rcases Table.get?_insert_cases before with old | ⟨rfl, rfl⟩
        · exact Or.inl old
        · exact Or.inr List.mem_cons_self
      | _ => exact Or.inl before
    · exact Or.inr (List.mem_cons_of_mem _ later)

end Writes

/-! ### Calls -/

/-- A purchase is inserted for this day only. -/
def Stmt.InsertsOn (day : Day) : Stmt → Prop
  | .createPurchase data => data.day = day
  | _ => True

theorem purchaseTx_insertsOn (userId saleItemId idempotencyKey : Uuid) (day : Day) :
    (purchaseTx userId saleItemId idempotencyKey day).Runs (Stmt.InsertsOn day) := by
  unfold purchaseTx
  refine (Tx.Runs.statement trivial).bind fun purchased => ?_
  split
  · trivial
  · refine (Tx.Runs.statement trivial).bind fun found => ?_
    cases found with
    | none => trivial
    | some item =>
      intro now
      dsimp only [Tx.bind]
      split
      · trivial
      · split
        · trivial
        · refine (Tx.Runs.statement trivial).bind fun balance => ?_
          cases balance with
          | none => trivial
          | some balanceCents =>
            dsimp only
            split
            · trivial
            · refine (Tx.Runs.statement trivial).bind fun _ =>
                (Tx.Runs.statement trivial).bind fun _ => ?_
              have inserts : Stmt.InsertsOn day
                  (.createPurchase ⟨userId, saleItemId, day, item.priceCents, idempotencyKey⟩) := rfl
              exact (Tx.Runs.statement inserts).bind fun _ =>
                (Tx.Runs.statement trivial).bind fun _ => trivial

/-- The day is the date on which the client has last read the clock for it. -/
def ReadOn (cfg : Cfg) (trace : List (State × Label)) (n : Nat) (day : Day) : Prop :=
  ∃ read, lastReading n trace = some read ∧ day = cfg.dateOf read

/-- A purchase has read its day, and inserts its row for this day. -/
def Client.ReadsDay (cfg : Cfg) (trace : List (State × Label)) (n : Nat) : Client → Prop
  | .begin_ (.purchase _ _ args) => ReadOn cfg trace n args.day
  | .tx (.purchase _ _ args) _ body => ReadOn cfg trace n args.day ∧
    body.Runs (Stmt.InsertsOn args.day)
  | _ => True

section Calls

variable {cfg : Cfg} {s s' : State} {l : Label} {trace : List (State × Label)} {n : Nat} {day : Day}

theorem lastReading_snoc (p : State × Label) :
    lastReading n (trace ++ [p]) = (dayReading n p).or (lastReading n trace) := by
  rw [lastReading, lastReading, List.filterMap_append, List.getLast?_append]
  cases read : dayReading n p <;> simp [read]

/-- Only a client that is about to call `purchaseTx` reads the clock for the day. -/
theorem dayReading_handle {read : Int} (reads : dayReading n (s, l) = some read) :
    ∃ request key, s.clients n = .handle request key := by
  unfold dayReading at reads
  split at reads
  · rename_i s m choice eq
    cases eq
    split at reads
    · rename_i request key at_
      split at reads
      · rename_i own
        exact ⟨request, key, own.1 ▸ at_⟩
      · cases reads
    · cases reads
  · cases reads

/-- A client elsewhere keeps what it has read. -/
theorem ReadOn.later (known : ReadOn cfg trace n day)
    (elsewhere : ∀ request key, s.clients n ≠ .handle request key) :
    ReadOn cfg (trace ++ [(s, l)]) n day := by
  obtain ⟨read, last, is⟩ := known
  refine ⟨read, ?_, is⟩
  rw [lastReading_snoc]
  cases reads : dayReading n (s, l) with
  | none => exact last
  | some read' =>
    obtain ⟨request, key, at_⟩ := dayReading_handle reads
    exact absurd at_ (elsewhere request key)

/-- A client with its day read keeps it, and a client that calls `purchaseTx` reads it. -/
theorem readsDay_step (known : ∀ n, (s.clients n).ReadsDay cfg trace n)
    (taken : step cfg s l = some s') (n : Nat) :
    (s'.clients n).ReadsDay cfg (trace ++ [(s, l)]) n := by
  have comes := step_client taken n
  have before := known n
  generalize s'.clients n = client at comes
  cases comes with
  | same =>
    cases at_ : s.clients n with
    | begin_ job =>
      cases job with
      | purchase request key args =>
        rw [at_] at before
        exact ReadOn.later before (by simp [at_])
      | _ => trivial
    | tx job started body =>
      cases job with
      | purchase request key args =>
        rw [at_] at before
        exact ⟨before.1.later (by simp [at_]), before.2⟩
      | _ => trivial
    | _ => trivial
  | elsewhere quiet =>
    cases client with
    | begin_ job => cases job <;> trivial
    | tx job started body => cases job <;> trivial
    | _ => trivial
  | @enters choice request key saleItemId label at_ item =>
    refine ⟨s.now, ?_, rfl⟩
    rw [lastReading_snoc, label]
    simp [dayReading, at_, item]
  | @opens job at_ =>
    rw [at_] at before
    cases job with
    | purchase request key args =>
      exact ⟨ReadOn.later before (by simp [at_]), purchaseTx_insertsOn _ _ _ _⟩
    | _ => trivial
  | @advances choice job started body next at_ ran =>
    rw [at_] at before
    cases job with
    | purchase request key args =>
      exact ⟨before.1.later (by simp [at_]), before.2.advance ran⟩
    | _ => trivial
  | _ => trivial

end Calls

/-! ### Runs -/

/-- What runs keep whose INSERTs run on the dates of their calls: committed rows, and
rows written by open purchases, have the dates of their creation, and every purchase has
read its day. -/
structure OnDates (cfg : Cfg) (trace : List (State × Label)) (s : State) : Prop where
  coherent : Coherent cfg s
  byDate : ByDate cfg s.server.db
  calls : ∀ n, (s.clients n).ReadsDay cfg trace n
  written : ∀ n request key args started body,
    s.clients n = .tx (.purchase request key args) started body →
    ∀ w ∈ s.server.writesOf (.client n), w.Dated cfg

section Steps

variable {cfg : Cfg} {s s' : State} {l : Label} {trace : List (State × Label)}

/-- The row of an INSERT that runs on the date of its call has the date of its stamp. -/
theorem InsertedOnDate.day {n : Nat} {choice : Choice} {request : PurchaseRequest} {key : Text}
    {args : PurchaseArgs} {started : Int} {data : PurchaseData} {onError : DbError → Failure}
    {next : Uuid → Program PurchaseResult}
    (onDate : InsertedOnDate cfg trace (s, .client n choice))
    (at_ : s.clients n = .tx (.purchase request key args) started
      (.exec (.createPurchase data) onError next))
    (known : (s.clients n).ReadsDay cfg trace n) :
    data.day = cfg.dateOf (toColumn (s.env (.client n) started choice).stamp) := by
  rw [at_] at known
  obtain ⟨⟨read, last, day⟩, own, -⟩ := known
  have inserts : insertStamp (s, .client n choice) =
      some (n, toColumn (s.env (.client n) started choice).stamp) := by
    simp [insertStamp, at_]
  rw [own, day]
  exact onDate _ inserts read last

/-- A statement of a purchase that stamps its row on the date of the call adds only
rows with the dates of their creation. -/
theorem advance_dated {n : Nat} {choice : Choice} {request : PurchaseRequest} {key : Text}
    {args : PurchaseArgs} {started : Int} {before body : Program PurchaseResult} {srv : Server}
    (at_ : s.clients n = .tx (.purchase request key args) started before)
    (known : (s.clients n).ReadsDay cfg trace n)
    (onDate : InsertedOnDate cfg trace (s, .client n choice))
    (written : ∀ w ∈ s.server.writesOf (.client n), w.Dated cfg)
    (ran : before.advance plan (s.env (.client n) started choice) s.now s.server (.client n) =
      some (.running body, srv)) :
    ∀ w ∈ srv.writesOf (.client n), w.Dated cfg := by
  cases before with
  | pure result => cases ran
  | throw e => cases ran
  | now next =>
    cases ran
    exact written
  | exec st onError next =>
    obtain ⟨⟨answer, server⟩, ran, eq⟩ := Option.map_eq_some_iff.mp ran
    rcases Lib.Server.statement_cases ran with ⟨e, _, rfl, rfl⟩ | ⟨ws, r, got, rfl, _, rfl⟩
    · cases eq
      exact written
    · cases eq
      intro w mem
      rw [Lib.Server.writesOf_extend_self] at mem
      rcases List.mem_append.mp mem with old | new
      · exact written w old
      · cases w with
        | insertPurchase id row =>
          obtain ⟨data, rfl, rfl⟩ := plan_inserts got new
          exact onDate.day at_ known
        | _ => trivial

/-- A purchase that commits leaves its rows as it wrote them. -/
theorem committed_dated (byDate : ByDate cfg s.server.db)
    (written : ∀ n request key args started body,
      s.clients n = .tx (.purchase request key args) started body →
      ∀ w ∈ s.server.writesOf (.client n), w.Dated cfg)
    {args : PurchaseArgs} {result : PurchaseResult}
    (committing : s.committing l = some (.purchased args result)) (taken : step cfg s l = some s')
    {id : Uuid} {row : PurchaseRow} (found : s'.server.db.purchases.get? id = some row) :
    row.Dated cfg := by
  generalize is : Commit.purchased args result = commit at committing
  cases committing_cases committing with
  | @client n choice job started result' at_ =>
    cases job with
    | purchase request key args' =>
      cases step_cases taken with
      | start start _ label => cases start <;> cases label
      | client ran =>
        rw [at_] at ran
        cases ran
        rcases applyAll_purchases found with old | new
        · exact byDate.dated id row old
        · exact written n request key args' started _ at_ _ new
    | _ => cases is
  | _ => cases is

theorem OnDates.step (onDates : OnDates cfg trace s) (onDate : InsertedOnDate cfg trace (s, l))
    (taken : FlashSale.step cfg s l = some s') : OnDates cfg (trace ++ [(s, l)]) s' := by
  obtain ⟨coherent, byDate, calls, written⟩ := onDates
  refine ⟨(step_coherent coherent taken).1, ?_, readsDay_step calls taken, ?_⟩
  · rcases step_atomic coherent taken with ⟨-, same⟩ | ⟨commit, committing, happened⟩
    · rw [same]
      exact byDate
    · -- A row after the commit was there, or is the row of the purchase that commits.
      have rows : ∀ id row, s'.server.db.purchases.get? id = some row → row.Dated cfg := by
        intro id row found
        rcases happened.purchase_cases found with old | ⟨args, of, result, rfl, -, -, -⟩
        · exact byDate.dated id row old
        · exact committed_dated byDate written committing taken found
      refine ⟨rows, fun id row id' row' found found' user day => ?_⟩
      rcases happened.purchase_cases found with old | ⟨args, of, result, rfl, spec, rfl, rfl⟩
      · rcases happened.purchase_cases found' with old' | ⟨args, of, result, rfl, spec, rfl, rfl⟩
        · exact byDate.unique id row id' row' old old' user day
        · exact absurd ⟨user, day⟩ (spec.day_unused id row old)
      · rcases happened.purchase_cases found' with old' | ⟨args', of', result', eq, -, rfl, -⟩
        · exact absurd ⟨user.symm, day.symm⟩ (spec.day_unused id' row' old')
        · cases eq
          rfl
  · intro n request key args started body at_
    cases step_transaction coherent taken at_ with
    | waits before spared =>
      rw [spared.writes]
      exact written n request key args started body before
    | opens before same =>
      have idle := coherent.clients n
      rw [before] at idle
      rw [same, idle.1.writes]
      simp
    | advances label before ran =>
      subst label
      exact advance_dated before (calls n) onDate (written n _ _ _ _ _ before) ran

end Steps

section Runs

variable {cfg : Cfg} {start s : State} {trace : List (State × Label)}

/-- When every INSERT runs on the date on which its call has read the clock, the day of
each row is the date of its creation, and no user has two rows created on one date. The
dates are those of the server's time zone, whatever it is. -/
theorem Run.capped_by_date (fresh : Fresh start) (byDate : ByDate cfg start.server.db)
    (run : Run cfg start trace s)
    (onDate : ∀ i (h : i < trace.length), InsertedOnDate cfg (trace.take i) (trace.get ⟨i, h⟩)) :
    (∀ id row, s.server.db.purchases.get? id = some row → row.day = cfg.dateOf row.createdAt) ∧
    ∀ id row id' row', s.server.db.purchases.get? id = some row →
      s.server.db.purchases.get? id' = some row' → row.userId = row'.userId →
      cfg.dateOf row.createdAt = cfg.dateOf row'.createdAt → id = id' := by
  have init : OnDates cfg [] start := by
    refine ⟨fresh.coherent, byDate, fun n => ?_, fun n request key args started body at_ => ?_⟩
    · rw [fresh.clients n]
      trivial
    · rw [fresh.clients n] at at_
      cases at_
  obtain ⟨-, ⟨dated, unique⟩, -, -⟩ := run.invariant_along_while init
    (fun _ _ _ _ onDates ok taken => onDates.step ok taken) onDate
  refine ⟨dated, fun id row id' row' found found' user date => ?_⟩
  apply unique id row id' row' found found' user
  rw [dated id row found, dated id' row' found', date]

/-- Asia/Ho_Chi_Minh around the first of May: the second begins at 17:00 UTC. -/
def hoChiMinhCfg : Cfg :=
  { plainCfg with
    dateOf := fun t => if t < dayStart + 61200000 then "2026-05-01" else "2026-05-02" }

/-- The shop with a sale that lasts the whole day in UTC. -/
def longShop : State :=
  .initial { shopDb with
    flashSales := Table.empty.insert 3 ⟨saleName, dayStart, dayStart + 86400000, none⟩ } 1
    (dayStart * 1000)

theorem longShop_byDate (cfg : Cfg) : ByDate cfg longShop.server.db :=
  ⟨fun _ _ found => (by cases found), fun _ _ _ _ found => by cases found⟩

/-- User 1 asks a millisecond before midnight, the transaction begins a second
later, and then the user asks again. -/
def pastMidnight : List Label :=
  .elapse 61199999000 :: .purchase 0 ⟨1, some (uuidText '1'), some 4⟩ :: Label.clientSteps 0 2 7 ++
    .elapse 1000000 :: Label.clientSteps 0 10 7 ++
    .purchase 1 ⟨1, some (uuidText '2'), some 4⟩ :: Label.clientSteps 1 12 8

theorem pastMidnight_runs :
    (Lib.execute (step hoChiMinhCfg) longShop pastMidnight).isSome = true := by
  decide +kernel

/-- Both purchases are created on the second of May, the first with the day before: its day
is computed before the transaction begins, and its stamp is made by its INSERT. So one
user buys twice on one date. -/
theorem bought_twice :
    ∃ s row row', Run hoChiMinhCfg longShop
        (Lib.traceOf (step hoChiMinhCfg) longShop pastMidnight) s ∧
      s.server.db.purchases.get? 7 = some row ∧ s.server.db.purchases.get? 8 = some row' ∧
      row.userId = row'.userId ∧
      hoChiMinhCfg.dateOf row.createdAt = hoChiMinhCfg.dateOf row'.createdAt ∧
      row.day ≠ hoChiMinhCfg.dateOf row.createdAt := by
  have first : ((Lib.execute (step hoChiMinhCfg) longShop pastMidnight).get
      pastMidnight_runs).server.db.purchases.get? 7 = some ⟨1, 4, "2026-05-01", 100,
        parseUuid (uuidText '1'), dayStart + 61200999⟩ := by decide +kernel
  have second : ((Lib.execute (step hoChiMinhCfg) longShop pastMidnight).get
      pastMidnight_runs).server.db.purchases.get? 8 = some ⟨1, 4, "2026-05-02", 100,
        parseUuid (uuidText '2'), dayStart + 61200999⟩ := by decide +kernel
  exact ⟨_, _, _, Lib.Run.of_isSome pastMidnight_runs, first, second, rfl, rfl, by decide⟩

/-- User 1 asks at noon, and the transaction begins a second later. -/
def atNoon : List Label :=
  .elapse 43200000000 :: .purchase 0 ⟨1, some (uuidText '1'), some 4⟩ :: Label.clientSteps 0 2 7 ++
    .elapse 1000000 :: Label.clientSteps 0 10 7

theorem atNoon_runs : (Lib.execute (step hoChiMinhCfg) longShop atNoon).isSome = true := by
  decide +kernel

theorem capped_by_date_noon :
    ∃ s row, Run hoChiMinhCfg longShop (Lib.traceOf (step hoChiMinhCfg) longShop atNoon) s ∧
      s.server.db.purchases.get? 7 = some row ∧
      row.day = hoChiMinhCfg.dateOf row.createdAt := by
  have run := Lib.Run.of_isSome atNoon_runs
  have onDate : ∀ i (h : i < (Lib.traceOf (step hoChiMinhCfg) longShop atNoon).length),
      InsertedOnDate hoChiMinhCfg ((Lib.traceOf (step hoChiMinhCfg) longShop atNoon).take i)
        ((Lib.traceOf (step hoChiMinhCfg) longShop atNoon).get ⟨i, h⟩) := by decide +kernel
  have found : ((Lib.execute (step hoChiMinhCfg) longShop atNoon).get
      atNoon_runs).server.db.purchases.get? 7 = some ⟨1, 4, "2026-05-01", 100,
        parseUuid (uuidText '1'), dayStart + 43201000⟩ := by decide +kernel
  have capped := Run.capped_by_date (State.initial_fresh _ _ _) (longShop_byDate _) run onDate
  exact ⟨_, _, run, found, capped.1 _ _ found⟩

end Runs

end FlashSale
