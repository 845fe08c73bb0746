/-
# The report `already_purchased_today`

A purchase reports that its user has bought at two places: where it first reads, and
where its INSERT fails on a unique constraint, whichever that is. `KeyUnheld` says of a
step that runs such an INSERT that the key and the identifier of the new row are held
by no row, unless the user has one of the day.

The cache answers a key that is sent again only while its entry lasts, and the key of a row
is unique for ever. So a client that sends its key again later is past the cache, has no
purchase of the new day, and fails on the index of the key.

* `Run.reports_truly`: every report of a run is true exactly when all its INSERTs are so.
* `reported_for_key`: a key is sent again a day later, and its user is told of a
  purchase that there is not.
-/
import FlashSale.Calendar
import FlashSale.PurchaseAlone

namespace FlashSale

open Lib (Table Tx applyAll)

/-- What the purchase of a client is about to throw. -/
def Client.throwing : Client → Option (PurchaseArgs × Failure)
  | .tx (.purchase _ _ args) _ (.throw e) => some (args, e)
  | _ => none

theorem Client.throwing_eq {client : Client} {args : PurchaseArgs} {e : Failure}
    (throws : client.throwing = some (args, e)) :
    ∃ request key started, client = .tx (.purchase request key args) started (.throw e) := by
  unfold Client.throwing at throws
  split at throws
  · cases throws
    exact ⟨_, _, _, rfl⟩
  · cases throws

/-- Every purchase that is about to throw `already_purchased_today` has a committed row
of its user and of the day that it names. -/
def ReportsTruly (s : State) : Prop :=
  ∀ n args day, (s.clients n).throwing = some (args, alreadyPurchasedToday day) →
    ∃ id row, s.server.db.purchases.get? id = some row ∧ row.userId = args.userId ∧ row.day = day

/-- If this step runs the INSERT of a purchase, then no committed row has its key or
its identifier, or its user has a committed row of the day. A price out of the range
of its column is refused first. -/
def KeyUnheld (s : State) : Label → Prop
  | .client n choice =>
    match s.clients n with
    | .tx (.purchase _ _ args) _ (.exec (.createPurchase data) _ _) =>
      int8 data.priceCents = true →
        (∃ id row, s.server.db.purchases.get? id = some row ∧
          (id = choice.draw ∨ row.idempotencyKey = args.idempotencyKey)) →
        BoughtToday args s.server.db
    | _ => True
  | _ => True

def keyUnheld (s : State) : Label → Bool
  | .client n choice =>
    match s.clients n with
    | .tx (.purchase _ _ args) _ (.exec (.createPurchase data) _ _) =>
      !(int8 data.priceCents && s.server.db.purchases.any fun id row =>
          decide (id = choice.draw) || decide (row.idempotencyKey = args.idempotencyKey)) ||
        s.server.db.purchases.any fun _ row =>
          decide (row.userId = args.userId) && decide (row.day = args.day)
    | _ => true
  | _ => true

theorem keyUnheld_iff {s : State} {l : Label} : keyUnheld s l = true ↔ KeyUnheld s l := by
  unfold keyUnheld KeyUnheld
  split
  · split
    · rw [Bool.or_eq_true, purchased_iff, Bool.not_eq_true', ← Bool.not_eq_true, Bool.and_eq_true,
        Table.any_iff]
      simp only [Bool.or_eq_true, decide_eq_true_eq]
      rw [← imp_iff_not_or, and_imp]
      rfl
    · simp
  · simp

instance (s : State) (l : Label) : Decidable (KeyUnheld s l) :=
  decidable_of_iff (keyUnheld s l = true) keyUnheld_iff

/-! ### The program -/

/-- A failure that is no report. -/
def Failure.Other (e : Failure) : Prop := ∀ day, e ≠ alreadyPurchasedToday day

/-- What is left of a purchase after its first read: until it has entered its row, one
INSERT reports a violated unique constraint, and nothing else does. -/
def Reporting (args : PurchaseArgs) : Bool → Program PurchaseResult → Prop
  | _, .pure _ => True
  | _, .throw e => e.Other
  | entered, .now next => ∀ t, Reporting args entered (next t)
  | entered, .exec st onError next =>
    (entered = false ∧
        (∃ price, st = .createPurchase ⟨args.userId, args.saleItemId, args.day, price,
          args.idempotencyKey⟩) ∧
        (∀ e, onError e = if e = .unique then alreadyPurchasedToday args.day else .database e) ∧
        ∀ r, Reporting args true (next r)) ∨
      ((∀ data, st ≠ .createPurchase data) ∧ (∀ e, (onError e).Other) ∧
        ∀ r, Reporting args entered (next r))

theorem database_other (e : DbError) : (Failure.database e).Other := by
  intro day is
  cases is

theorem http_other {e : AppHttpException} (code : e.code ≠ "already_purchased_today") :
    (Failure.http e).Other := by
  intro day is
  exact code (congrArg AppHttpException.code (Failure.http.inj is))

section Program

variable {args : PurchaseArgs}

theorem Reporting.run {entered : Bool} {st : Stmt} {k : st.Result → Program PurchaseResult}
    (plain : ∀ data, st ≠ .createPurchase data) (rest : ∀ r, Reporting args entered (k r)) :
    Reporting args entered (FlashSale.run st >>= k) :=
  Or.inr ⟨plain, database_other, rest⟩

theorem recordPurchase_reporting {item : ItemWindow} : Reporting args false
    (recordPurchase args.userId args.saleItemId args.idempotencyKey args.day item) := by
  unfold recordPurchase
  refine .run (by simp) fun _ => .run (by simp) fun _ => ?_
  exact Or.inl ⟨rfl, ⟨_, rfl⟩, fun _ => rfl, fun id => .run (by simp) fun _ => trivial⟩

/-- The rest of a purchase that has read that its user may buy. -/
theorem afterCheck_reporting (call : PurchaseCall) : Reporting call.args false call.afterCheck := by
  unfold PurchaseCall.afterCheck
  refine .run (by simp) fun found => ?_
  cases found with
  | none => exact http_other (by decide)
  | some item =>
    intro now
    show Reporting call.args false (if now < item.startsAt ∨ now > item.endsAt then .throw outOfWindow
      else if item.sold ≥ item.quantity then .throw soldOut else call.afterWindow item)
    split
    · exact http_other (by decide)
    · split
      · exact http_other (by decide)
      · refine .run (by simp) fun balance => ?_
        cases balance with
        | none => exact http_other (by decide)
        | some balanceCents =>
          dsimp only
          split
          · exact http_other (by decide)
          · exact recordPurchase_reporting

end Program

/-! ### Where a purchase is -/

/-- No purchase is among the writes. -/
def Clear (ws : List Write) : Prop := ∀ id row, .insertPurchase id row ∉ ws

theorem Clear.purchases {ws : List Write} {db : Db} (clear : Clear ws) :
    (applyAll db ws).purchases = db.purchases := by
  induction ws generalizing db with
  | nil => rfl
  | cons w ws ih =>
    have later : Clear ws := fun id row mem => clear id row (List.mem_cons_of_mem _ mem)
    rw [Lib.applyAll_cons, ih later]
    cases w with
    | insertPurchase id row => exact absurd List.mem_cons_self (clear id row)
    | _ => rfl

/-- The stages of a purchase, with what it has written: before its first read, behind it with
one INSERT that may report, and at a report. -/
inductive Stage (args : PurchaseArgs) : List Write → Program PurchaseResult → Prop where
  | starts {ws : List Write} {onError : DbError → Failure} {next : Bool → Program PurchaseResult}
      (clear : Clear ws) (errors : ∀ e, (onError e).Other)
      (bought : next true = .throw (alreadyPurchasedToday args.day))
      (rest : Reporting args false (next false)) :
      Stage args ws (.exec (.selectPurchasedOn args.userId args.day) onError next)
  | reporting {ws : List Write} {body : Program PurchaseResult} {entered : Bool}
      (clear : entered = false → Clear ws) (rest : Reporting args entered body) : Stage args ws body
  | reports {ws : List Write} : Stage args ws (.throw (alreadyPurchasedToday args.day))

theorem body_stage (call : PurchaseCall) : Stage call.args [] call.body := by
  rw [call.body_eq]
  refine .starts ?_ database_other rfl (afterCheck_reporting call)
  intro id row mem
  cases mem

/-- A throw that is a report is one of the last stage. -/
theorem Stage.report {args : PurchaseArgs} {ws : List Write} {day : Day}
    (stage : Stage args ws (.throw (alreadyPurchasedToday day))) : day = args.day := by
  generalize is : alreadyPurchasedToday day = e at stage
  cases stage with
  | reporting clear rest => exact absurd is.symm (rest day)
  | reports =>
    simp only [alreadyPurchasedToday, Failure.http.injEq, AppHttpException.mk.injEq, Option.some.injEq,
      true_and] at is
    exact is

/-! ### A step of a purchase -/

section Steps

variable {args : PurchaseArgs} {env : Env} {time : Int} {srv srv' : Server} {n : Nat}
  {before body : Program PurchaseResult}

theorem inserting_unique_iff {ρ : Type} {w : Write} {result : ρ} {inRange valid duplicate orphan : Bool} :
    (inserting w result (violations inRange valid) duplicate orphan).answer = .error .unique ↔
      inRange = true ∧ valid = true ∧ duplicate = true := by
  cases inRange <;> cases valid <;> cases duplicate <;> cases orphan <;>
    simp [inserting, violations, failing]

/-- The INSERT fails on a unique constraint when some row has the key, the identifier,
or the user and day of the new one. -/
theorem insert_duplicate_iff {data : PurchaseData} {db : Db} :
    (plan (.createPurchase data) env db).answer = .error .unique ↔
      int8 data.priceCents = true ∧ ∃ id row, db.purchases.get? id = some row ∧
        ((id = env.draw ∨ row.idempotencyKey = data.idempotencyKey) ∨
          (row.userId = data.userId ∧ row.day = data.day)) := by
  rw [plan, inserting_unique_iff, Table.any_iff]
  simp

/-- A step of a purchase leads from stage to stage. -/
theorem Stage.advance (stage : Stage args (srv.writesOf (.client n)) before)
    (ran : before.advance plan env time srv (.client n) = some (.running body, srv')) :
    Stage args (srv'.writesOf (.client n)) body := by
  cases before with
  | pure result => cases ran
  | throw e => cases ran
  | now next =>
    cases ran
    cases stage with
    | reporting clear rest => exact .reporting clear (rest time)
  | exec st onError next =>
    obtain ⟨⟨answer, server⟩, ran, eq⟩ := Option.map_eq_some_iff.mp ran
    rcases Lib.Server.statement_cases ran with ⟨e, _, rfl, rfl⟩ | ⟨ws, r, got, rfl, _, rfl⟩
    · cases eq
      cases stage with
      | starts clear errors bought rest =>
        have before : false = false → Clear _ := fun _ => clear
        exact .reporting before (errors e)
      | reporting clear rest =>
        rcases rest with ⟨fresh, -, errors, -⟩ | ⟨-, errors, -⟩
        · rw [errors]
          split
          · exact .reports
          · exact .reporting clear (database_other e)
        · exact .reporting clear (errors e)
    · cases eq
      rw [Lib.Server.writesOf_extend_self]
      cases stage with
      | starts clear errors bought rest =>
        cases got
        rw [List.append_nil]
        cases Table.any _ _ with
        | true =>
          rw [bought]
          exact .reports
        | false => exact .reporting (fun _ => clear) rest
      | reporting clear rest =>
        rcases rest with ⟨-, -, -, rest⟩ | ⟨plain, -, rest⟩
        · have passed : true = false → Clear (srv.writesOf (.client n) ++ ws) := by simp
          exact .reporting passed (rest r)
        · refine .reporting ?_ (rest r)
          intro fresh id row mem
          rcases List.mem_append.mp mem with old | new
          · exact clear fresh id row old
          · obtain ⟨data, is, -⟩ := plan_inserts got new
            exact plain data is

/-- A report is made on a row that was read, or by an INSERT that fails. -/
theorem Stage.told (stage : Stage args (srv.writesOf (.client n)) before) {day : Day}
    (ran : before.advance plan env time srv (.client n) =
      some (.running (.throw (alreadyPurchasedToday day)), srv')) :
    BoughtToday args srv.db ∨
      ∃ data onError next, before = .exec (.createPurchase data) onError next ∧
        int8 data.priceCents = true ∧ ∃ id row, srv.db.purchases.get? id = some row ∧
          (id = env.draw ∨ row.idempotencyKey = args.idempotencyKey) := by
  cases before with
  | pure result => cases ran
  | throw e => cases ran
  | now next =>
    cases stage with
    | reporting clear rest =>
      have is := congrArg Prod.fst (Option.some.inj ran)
      have other := rest time
      rw [Lib.Progress.running.inj is] at other
      exact absurd rfl (other day)
  | exec st onError next =>
    obtain ⟨⟨answer, server⟩, ran, eq⟩ := Option.map_eq_some_iff.mp ran
    rcases Lib.Server.statement_cases ran with ⟨e, got, rfl, rfl⟩ | ⟨ws, r, got, rfl, _, rfl⟩
    · -- The statement has failed.
      have is : onError e = alreadyPurchasedToday day :=
        Tx.throw.inj (Lib.Progress.running.inj (congrArg Prod.fst eq))
      cases stage with
      | starts clear errors bought rest => exact absurd is (errors e day)
      | reporting clear rest =>
        rcases rest with ⟨fresh, ⟨price, rfl⟩, errors, -⟩ | ⟨-, errors, -⟩
        · rw [errors] at is
          by_cases unique : e = .unique
          · subst unique
            obtain ⟨inRange, id, row, found, held | own⟩ := insert_duplicate_iff.mp got
            · rw [Lib.Server.view, (clear fresh).purchases] at found
              exact Or.inr ⟨_, _, _, rfl, inRange, id, row, found, held⟩
            · rw [Lib.Server.view, (clear fresh).purchases] at found
              exact Or.inl ⟨id, row, found, own⟩
          · rw [if_neg unique] at is
            exact absurd is (database_other e day)
        · exact absurd is (errors e day)
    · have is : next r = .throw (alreadyPurchasedToday day) :=
        Lib.Progress.running.inj (congrArg Prod.fst eq)
      cases stage with
      | starts clear errors bought rest =>
        obtain ⟨-, is'⟩ := Prod.mk.inj (Except.ok.inj got)
        cases r with
        | true =>
          obtain ⟨id, row, found, own⟩ := purchased_iff.mp is'
          rw [Lib.Server.view, clear.purchases] at found
          exact Or.inl ⟨id, row, found, own⟩
        | false =>
          rw [is] at rest
          exact absurd rfl (rest day)
      | reporting clear rest =>
        rcases rest with ⟨-, -, -, rest⟩ | ⟨-, -, rest⟩
        · have other := rest r
          rw [is] at other
          exact absurd rfl (other day)
        · have other := rest r
          rw [is] at other
          exact absurd rfl (other day)

end Steps

section System

variable {cfg : Cfg} {s s' : State} {l : Label}

/-- What every run keeps: each purchase is at one of its stages. So a report can only come
from the first read or from that INSERT. -/
structure Staged (cfg : Cfg) (s : State) : Prop where
  coherent : Coherent cfg s
  stages : ∀ n request key args started body,
    s.clients n = .tx (.purchase request key args) started body →
      Stage args (s.server.writesOf (.client n)) body

theorem Staged.step (staged : Staged cfg s) (taken : FlashSale.step cfg s l = some s') :
    Staged cfg s' := by
  obtain ⟨coherent, stages⟩ := staged
  refine ⟨(step_coherent coherent taken).1, ?_⟩
  intro n request key args started body at_
  cases step_transaction coherent taken at_ with
  | waits before spared =>
    rw [spared.writes]
    exact stages n request key args started body before
  | opens before same =>
    have idle := coherent.clients n
    rw [before] at idle
    rw [same, idle.1.writes]
    exact body_stage ⟨args, s.env (.client n) s.clock ⟨0, [], 0, 0⟩, s.now⟩
  | advances label before ran => exact (stages n _ _ _ _ _ before).advance ran

theorem BoughtToday.step {args : PurchaseArgs} (bought : BoughtToday args s.server.db)
    (coherent : Coherent cfg s) (taken : FlashSale.step cfg s l = some s') :
    BoughtToday args s'.server.db := by
  obtain ⟨id, row, found, own⟩ := bought
  refine ⟨id, row, ?_, own⟩
  rcases step_atomic coherent taken with ⟨-, same⟩ | ⟨commit, -, happened⟩
  · rw [same]
    exact found
  · exact happened.purchase_kept found

/-- An INSERT that finds its key or identifier held is followed by the report. -/
theorem Staged.insert (staged : Staged cfg s) {n : Nat} {choice : Choice} {request : PurchaseRequest}
    {key : Text} {args : PurchaseArgs} {started : Int} {data : PurchaseData}
    {onError : DbError → Failure} {next : Uuid → Program PurchaseResult}
    (at_ : s.clients n = .tx (.purchase request key args) started (.exec (.createPurchase data) onError next))
    (inRange : int8 data.priceCents = true)
    (held : ∃ id row, s.server.db.purchases.get? id = some row ∧
      (id = choice.draw ∨ row.idempotencyKey = args.idempotencyKey))
    (taken : FlashSale.step cfg s (.client n choice) = some s') :
    s'.server.db = s.server.db ∧ s'.clients n = .tx (.purchase request key args) started
      (.throw (alreadyPurchasedToday args.day)) := by
  cases staged.stages n _ _ _ _ _ at_ with
  | reporting clear rest =>
    rcases rest with ⟨fresh, ⟨price, is⟩, errors, -⟩ | ⟨plain, -, -⟩
    · obtain rfl := Stmt.createPurchase.inj is
      have fails : (plan (.createPurchase ⟨args.userId, args.saleItemId, args.day, price,
          args.idempotencyKey⟩) (s.env (.client n) started choice) (s.server.view (.client n))).answer =
            .error .unique := by
        obtain ⟨id, row, found, is⟩ := held
        refine insert_duplicate_iff.mpr ⟨inRange, id, row, ?_, Or.inl is⟩
        rw [Lib.Server.view, (clear fresh).purchases]
        exact found
      cases step_cases taken with
      | start start _ label => cases start <;> cases label
      | client ran =>
        rw [at_] at ran
        obtain ⟨⟨progress, server⟩, advanced, rfl⟩ := Option.map_eq_some_iff.mp ran
        obtain ⟨⟨answer, server⟩, queried, eq⟩ := Option.map_eq_some_iff.mp advanced
        rcases Lib.Server.statement_cases queried with ⟨e, got, rfl, rfl⟩ | ⟨ws, r, got, -, -, -⟩
        · rw [fails] at got
          cases got
          cases eq
          refine ⟨rfl, ?_⟩
          rw [State.moveClient_self, errors, if_pos rfl]
        · rw [fails] at got
          cases got
    · exact absurd rfl (plain data)

/-- A step keeps the reports true exactly when its INSERT, if it runs one, is
as `KeyUnheld` says. -/
theorem reportsTruly_step (staged : Staged cfg s) (truly : ReportsTruly s)
    (taken : step cfg s l = some s') : ReportsTruly s' ↔ KeyUnheld s l := by
  constructor
  · intro after
    unfold KeyUnheld
    split
    · split
      · rename_i n choice _ request key args started data onError next at_
        intro inRange held
        obtain ⟨same, throws⟩ := staged.insert at_ inRange held taken
        obtain ⟨id, row, found, own⟩ := after n args args.day (by rw [throws]; rfl)
        rw [same] at found
        exact ⟨id, row, found, own⟩
      · trivial
    · trivial
  · intro unheld n args day throws
    obtain ⟨request, key, started, at_⟩ := Client.throwing_eq throws
    have stage := (staged.step taken).stages n _ _ _ _ _ at_
    obtain rfl := stage.report
    have bought : BoughtToday args s.server.db := by
      cases step_transaction staged.coherent taken at_ with
      | waits before spared => exact truly n args _ (by rw [before]; rfl)
      | advances label before ran =>
        subst label
        have told := (staged.stages n _ _ _ _ _ before).told ran
        rcases told with bought | ⟨data, onError, next, rfl, inRange, held⟩
        · exact bought
        · simp only [KeyUnheld, before] at unheld
          exact unheld inRange held
    exact bought.step staged.coherent taken

end System

section Runs

variable {cfg : Cfg} {start s : State} {trace : List (State × Label)}

/-- All reports of a run are true exactly when every INSERT of a purchase finds its key
and its identifier held by no row, or the user with one of the day. -/
theorem Run.reports_truly (fresh : Fresh start) (run : Run cfg start trace s) :
    (∀ t ∈ Lib.visits trace s, ReportsTruly t) ↔ ∀ p ∈ trace, KeyUnheld p.1 p.2 := by
  have init : Staged cfg start := by
    refine ⟨fresh.coherent, fun n request key args started body at_ => ?_⟩
    rw [fresh.clients n] at at_
    cases at_
  have holds : ReportsTruly start := by
    intro n args day throws
    rw [fresh.clients n] at throws
    cases throws
  exact Lib.Run.exact init holds (fun _ _ _ staged taken => staged.step taken)
    (fun _ _ _ staged truly taken => reportsTruly_step staged truly taken) run

/-- The shop with a sale that lasts two days. -/
def twoDayShop : State :=
  .initial { shopDb with
    flashSales := Table.empty.insert 3 ⟨saleName, dayStart, dayStart + 172800000, none⟩ } 1
    (dayStart * 1000)

/-- User 1 buys, and the answer is stored; after a while the user sends a key. -/
def asksAgain (wait : Nat) (digit : Char) (count : Nat) : List Label :=
  .purchase 0 ⟨1, some (uuidText '1'), some 4⟩ :: Label.clientSteps 0 13 7 ++
    .store 0 :: .elapse wait :: .purchase 1 ⟨1, some (uuidText digit), some 4⟩ ::
      Label.clientSteps 1 count 8

/-- The same key, a day and a second later, when the entry has expired. -/
def dayLater : List Label := asksAgain 86401000000 '1' 10

/-- Another key, at once. -/
def atOnce : List Label := asksAgain 0 '2' 4

theorem dayLater_runs : (Lib.execute (step hoChiMinhCfg) twoDayShop dayLater).isSome = true := by
  decide +kernel

theorem atOnce_runs : (Lib.execute (step hoChiMinhCfg) twoDayShop atOnce).isSome = true := by
  decide +kernel

/-- The user is told of a purchase of the second of May, and has none: the INSERT fails on
the unique index of the key, which the purchase of the day before holds. -/
theorem reported_for_key :
    ∃ s, Run hoChiMinhCfg twoDayShop (Lib.traceOf (step hoChiMinhCfg) twoDayShop dayLater) s ∧
      (s.clients 1).throwing = some (⟨1, 4, parseUuid (uuidText '1'), "2026-05-02"⟩,
        alreadyPurchasedToday "2026-05-02") ∧
      ¬ ReportsTruly s := by
  have throws : (((Lib.execute (step hoChiMinhCfg) twoDayShop dayLater).get
      dayLater_runs).clients 1).throwing =
        some (⟨1, 4, parseUuid (uuidText '1'), "2026-05-02"⟩, alreadyPurchasedToday "2026-05-02") := by
    decide +kernel
  have none : (((Lib.execute (step hoChiMinhCfg) twoDayShop dayLater).get
      dayLater_runs).server.db.purchases.any fun _ row =>
        decide (row.userId = 1) && decide (row.day = "2026-05-02")) = false := by decide +kernel
  refine ⟨_, Lib.Run.of_isSome _, throws, fun truly => ?_⟩
  have bought := purchased_iff.mpr (truly 1 _ _ throws)
  rw [none] at bought
  cases bought

theorem reports_truly_at_once :
    ∃ s, Run hoChiMinhCfg twoDayShop (Lib.traceOf (step hoChiMinhCfg) twoDayShop atOnce) s ∧
      (s.clients 1).throwing = some (⟨1, 4, parseUuid (uuidText '2'), "2026-05-01"⟩,
        alreadyPurchasedToday "2026-05-01") ∧
      ReportsTruly s := by
  have run := Lib.Run.of_isSome atOnce_runs
  have unheld : ∀ p ∈ Lib.traceOf (step hoChiMinhCfg) twoDayShop atOnce, KeyUnheld p.1 p.2 := by
    decide +kernel
  have truly := (Run.reports_truly (State.initial_fresh _ _ _) run).mpr unheld
  exact ⟨_, run, by decide +kernel, truly _ (Lib.last_mem_visits _ _)⟩

end Runs

end FlashSale
