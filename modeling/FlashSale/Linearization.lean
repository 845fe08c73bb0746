/-
# Concurrent purchases and serial orders

Any number of calls of `purchaseTx` run on one server, a statement at a time. The
check for a purchase of the day runs before any lock is taken and is not repeated,
so a call can be refused for its stock or its balance after the user has bought.

The serial order is built along the run: a call that returns goes to its end at its commit,
and one that throws goes behind the committed state that explains its answer. `Point` says
of a call under way which statement it is at, what it has written, and what its locks keep,
and from which committed state its refusals so far could be explained.

* `Purchases.linearizable`: in the runs whose refusals also held in a committed
  state in which the user had not bought yet, the calls that have ended can run one
  after another with the same answers and the same rows.
* `sold_out_by_own`: of two calls of a user for the last unit, one buys it and the
  other is told that it is sold out, as in no serial order.
-/
import FlashSale.PurchaseAlone

namespace FlashSale

open Lib (Table Tx Lock Stable Holds Sessions Progress)

/-! ### What purchases leave as it is -/

/-- The rows that purchases leave as they are: the sales, and the items up to the
units sold, which do not become fewer. -/
structure Unmoved (start db : Db) : Prop where
  sales : db.flashSales = start.flashSales
  item : ∀ id item, db.flashSaleItems.get? id = some item → ∃ sold,
    start.flashSaleItems.get? id = some { item with sold := sold } ∧ sold ≤ item.sold
  there : ∀ id, db.flashSaleItems.get? id = none → start.flashSaleItems.get? id = none

section Unmoved

variable {start db t : Db}

theorem Unmoved.refl : Unmoved start start := by
  constructor
  · rfl
  · intro id item found
    exact ⟨item.sold, found, le_refl _⟩
  · intro id none
    exact none

theorem Unmoved.inRange (unmoved : Unmoved start db)
    (inRange : ∀ id item, start.flashSaleItems.get? id = some item → item.InRange) :
    ∀ id item, db.flashSaleItems.get? id = some item → item.InRange := by
  intro id item found
  obtain ⟨sold, found', fewer⟩ := unmoved.item id item found
  obtain ⟨positive, quantity, price⟩ := inRange id _ found'
  exact ⟨le_trans positive fewer, quantity, price⟩

/-- An item that is there at one time is there at another, with the same sale. -/
theorem Unmoved.item_at (unmoved : Unmoved start db) (unmoved' : Unmoved start t) {id : Uuid}
    {item : ItemRow} {sale : SaleRow} (at_ : ItemAt db id item sale) :
    ∃ item', ItemAt t id item' sale := by
  obtain ⟨sold, before, -⟩ := unmoved.item id item at_.row
  cases found : t.flashSaleItems.get? id with
  | none =>
    rw [unmoved'.there id found] at before
    cases before
  | some item' =>
    obtain ⟨sold', before', -⟩ := unmoved'.item id item' found
    rw [before] at before'
    have same : item'.flashSaleId = item.flashSaleId :=
      (ItemRow.mk.inj (Option.some.inj before')).1.symm
    refine ⟨item', found, ?_⟩
    rw [same, unmoved'.sales, ← unmoved.sales]
    exact at_.joined

theorem Unmoved.buys (unmoved : Unmoved start db) (call : PurchaseCall) (item : ItemRow) :
    Unmoved start (Lib.applyAll db (call.writes item)) := by
  constructor
  · exact unmoved.sales
  · intro id row found
    obtain ⟨row', old, ⟨-, rfl⟩ | ⟨-, rfl⟩⟩ := Table.get?_modify_cases found
    · obtain ⟨sold, before, fewer⟩ := unmoved.item id row' old
      exact ⟨sold, before, le_trans fewer (Int.le_add_one (le_refl _))⟩
    · exact unmoved.item id _ old
  · intro id none
    exact unmoved.there id (Table.get?_modify_eq_none.mp none)

end Unmoved

/-! ### Where a call is -/

/-- A call alone would have thrown this in one of the states seen, so a serial order can have
it there. -/
def Explained (call : PurchaseCall) (seen : List Db) (e : Failure) : Prop :=
  ∃ t ∈ seen, call.finish t call.body [] = .error e

/-- A call has found its item, in a sale that is open, with units left. The lock on the item
keeps all of it but the clock, which was read. -/
structure Admitted (call : PurchaseCall) (start : Db) (item : ItemRow) (sale : SaleRow) : Prop where
  joined : start.flashSales.get? item.flashSaleId = some sale
  opened : call.Open sale
  available : item.sold < item.quantity

/-- And its user, who can pay. -/
structure Charged (call : PurchaseCall) (start : Db) (item : ItemRow) (sale : SaleRow)
    (user : UserRow) : Prop extends Admitted call start item sale where
  funds : item.priceCents ≤ user.balanceCents

/-- The points of the program, with what has been written and what the locks keep. Up to the
lock on the item a refusal still needs a state that explains it. -/
inductive Point (call : PurchaseCall) (start : Db) (seen : List Db) :
    Program PurchaseResult → List Write → (Db → Prop) → Prop where
  | starts {F : Db → Prop} : Point call start seen call.body [] F
  | checked {F : Db → Prop} {t : Db} (mem : t ∈ seen) (unbought : ¬ BoughtToday call.args t) :
      Point call start seen call.afterCheck [] F
  | windowed {item : ItemRow} {sale : SaleRow}
      (joined : start.flashSales.get? item.flashSaleId = some sale)
      (closed : ¬ call.Open sale → Explained call seen outOfWindow)
      (gone : call.Open sale → item.quantity ≤ item.sold → Explained call seen soldOut) :
      Point call start seen (call.afterItem (itemWindow call.args.saleItemId item sale)) []
        fun db => db.flashSaleItems.get? call.args.saleItemId = some item
  | admitted {item : ItemRow} {sale : SaleRow} (admitted : Admitted call start item sale) :
      Point call start seen (call.afterWindow (itemWindow call.args.saleItemId item sale)) []
        fun db => db.flashSaleItems.get? call.args.saleItemId = some item
  | charged {item : ItemRow} {sale : SaleRow} {user : UserRow}
      (charged : Charged call start item sale user) :
      Point call start seen (call.record (itemWindow call.args.saleItemId item sale)) []
        (PurchaseRows call.args item user)
  | counted {item : ItemRow} {sale : SaleRow} {user : UserRow}
      (charged : Charged call start item sale user) :
      Point call start seen (call.afterCount (itemWindow call.args.saleItemId item sale))
        [call.count] (PurchaseRows call.args item user)
  | debited {item : ItemRow} {sale : SaleRow} {user : UserRow}
      (charged : Charged call start item sale user)
      (fits : int8 (user.balanceCents - item.priceCents) = true) :
      Point call start seen (call.afterDebit (itemWindow call.args.saleItemId item sale))
        [call.count, call.debit item] (PurchaseRows call.args item user)
  | entered {item : ItemRow} {sale : SaleRow} {user : UserRow}
      (charged : Charged call start item sale user)
      (fits : int8 (user.balanceCents - item.priceCents) = true) :
      Point call start seen
        (call.afterInsert (itemWindow call.args.saleItemId item sale) call.env.draw)
        [call.count, call.debit item, .insertPurchase call.env.draw (call.row item)]
        fun db => PurchaseRows call.args item user db ∧ PurchaseUnique call.args call.env.draw db
  | done {item : ItemRow} {sale : SaleRow} {user : UserRow}
      (charged : Charged call start item sale user)
      (fits : int8 (user.balanceCents - item.priceCents) = true) :
      Point call start seen (.pure (call.result item)) (call.writes item)
        fun db => (PurchaseRows call.args item user db ∧
          PurchaseUnique call.args call.env.draw db) ∧ db.outbox.get? call.env.serial = none
  | failed {e : Failure} {ws : List Write} {F : Db → Prop} (explained : Explained call seen e) :
      Point call start seen (.throw e) ws F

/-- A state to reason from: what purchases leave as it is, and nothing that the call
draws is in use. -/
structure Ready (call : PurchaseCall) (start db : Db) : Prop where
  unmoved : Unmoved start db
  inRange : ∀ id item, start.flashSaleItems.get? id = some item → item.InRange
  key : ∀ id row, db.purchases.get? id = some row → row.idempotencyKey ≠ call.args.idempotencyKey
  draw : db.purchases.get? call.env.draw = none
  serial : db.outbox.get? call.env.serial = none

/-- What a step of a call does: it goes on to its next point, it throws what the call alone
would have thrown somewhere, or it commits what the call alone does now. -/
inductive Moved {S : Type} [DecidableEq S] (call : PurchaseCall) (start : Db) (seen : List Db)
    (srv srv' : Lib.Server S Db Write Resource) (n : S) :
    Progress Stmt Stmt.Result DbError Failure PurchaseResult → Prop where
  | goes {body : Program PurchaseResult} {ws : List Write} {L : List (Lock Resource)} {F : Db → Prop}
      (store : srv'.db = srv.db) (holds : Holds srv' n ws L F)
      (point : Point call start seen body ws F) : Moved call start seen srv srv' n (.running body)
  | refuses {e : Failure} (store : srv'.db = srv.db) (explained : Explained call seen e) :
      Moved call start seen srv srv' n (.threw e)
  | buys {item : ItemRow} (alone : call.finish srv.db call.body [] =
        .ok (call.result item, call.writes item))
      (store : srv'.db = Lib.applyAll srv.db (call.writes item)) :
      Moved call start seen srv srv' n (.returned (call.result item))

section Advance

variable {S : Type} [DecidableEq S] {call : PurchaseCall} {start : Db} {seen : List Db}
  {srv srv' : Lib.Server S Db Write Resource} {n : S} {ws : List Write} {L : List (Lock Resource)}
  {F : Db → Prop} {body : Program PurchaseResult}
  {progress : Progress Stmt Stmt.Result DbError Failure PurchaseResult}

/-- What keeps its locks keeps what it knows. -/
theorem stable_more (holds : Holds srv n ws L F) {more : List (Lock Resource)} :
    Stable Write (more ++ L) F :=
  holds.stable.mono fun _ mem => List.mem_append_right _ mem

/-- A refusal that also holds in a state that was seen is explained. -/
theorem Ready.explained (ready : Ready call start srv.db) (unmoved : ∀ t ∈ seen, Unmoved start t)
    {st : Stmt} (excuse : ∃ t ∈ seen, ¬ BoughtToday call.args t ∧ call.Refused t st) :
    Explained call seen (refusal st) := by
  obtain ⟨t, mem, unbought, refused⟩ := excuse
  exact ⟨t, mem, refused.finish ((unmoved t mem).inRange ready.inRange) unbought⟩

/-- The item that a call has locked is joined with its sale. -/
theorem Ready.item_at (ready : Ready call start srv.db) {item : ItemRow} {sale : SaleRow}
    (found : srv.db.flashSaleItems.get? call.args.saleItemId = some item)
    (joined : start.flashSales.get? item.flashSaleId = some sale) :
    ItemAt srv.db call.args.saleItemId item sale := by
  refine ⟨found, ?_⟩
  rw [ready.unmoved.sales]
  exact joined

/-! Each statement of the transaction, and each look at what it has read. -/

theorem Moved.starts (holds : Holds srv n [] L F) (here : srv.db ∈ seen)
    (moved : call.body.advance plan call.env call.now srv n = some (progress, srv')) :
    Moved call start seen srv srv' n progress := by
  rw [call.body_eq] at moved
  by_cases bought : BoughtToday call.args srv.db
  · obtain ⟨rfl, store, goesOn⟩ := holds.answered (answer_bought bought) moved
    exact .goes store (goesOn _ (stable_more holds) holds.facts)
      (.failed ⟨srv.db, here, finish_bought bought⟩)
  · obtain ⟨rfl, store, goesOn⟩ := holds.answered (answer_unbought bought) moved
    exact .goes store (goesOn _ (stable_more holds) holds.facts) (.checked here bought)

theorem Moved.finds (holds : Holds srv n [] L F) (ready : Ready call start srv.db)
    (unmoved : ∀ t ∈ seen, Unmoved start t) {t : Db} (mem : t ∈ seen)
    (unbought : ¬ BoughtToday call.args t) {item : ItemRow} {sale : SaleRow}
    (at_ : ItemAt srv.db call.args.saleItemId item sale)
    (refuses : call.Refused srv.db (.selectItemForUpdate call.args.saleItemId) →
      Explained call seen soldOut)
    (moved : call.afterCheck.advance plan call.env call.now srv n = some (progress, srv')) :
    Moved call start seen srv srv' n progress := by
  obtain ⟨rfl, store, goesOn⟩ := holds.answered (answer_item at_) moved
  obtain ⟨-, locks, -⟩ := plan_selectItemForUpdate (answer_item at_)
  have guard : Guards ((plan (.selectItemForUpdate call.args.saleItemId) call.env srv.db).locks ++ L)
      (.flashSaleItem call.args.saleItemId) := by
    rw [locks]
    exact Guards.of_update (by simp)
  refine .goes store (goesOn _ (stable_item guard) at_.row) (.windowed ?_ ?_ ?_)
  · rw [← ready.unmoved.sales]
    exact at_.joined
  · intro closed
    obtain ⟨item', at'⟩ := ready.unmoved.item_at (unmoved t mem) at_
    refine ⟨t, mem, ?_⟩
    rw [finish_unbought unbought, finish_item at']
    exact finish_closed closed
  · intro opened gone
    exact refuses ⟨item, sale, at_, opened, gone⟩

theorem Moved.misses (holds : Holds srv n [] L F) (ready : Ready call start srv.db)
    (unmoved : ∀ t ∈ seen, Unmoved start t) {t : Db} (mem : t ∈ seen)
    (unbought : ¬ BoughtToday call.args t)
    (missing : ∀ item sale, ¬ ItemAt srv.db call.args.saleItemId item sale)
    (moved : call.afterCheck.advance plan call.env call.now srv n = some (progress, srv')) :
    Moved call start seen srv srv' n progress := by
  have never : ∀ item sale, ¬ ItemAt t call.args.saleItemId item sale := by
    intro item sale at_
    obtain ⟨item', at'⟩ := (unmoved t mem).item_at ready.unmoved at_
    exact missing item' sale at'
  obtain ⟨rfl, store, goesOn⟩ := holds.answered (answer_missing missing) moved
  refine .goes store (goesOn _ (stable_more holds) holds.facts) (.failed ⟨t, mem, ?_⟩)
  rw [finish_unbought unbought]
  exact finish_missing never

theorem Moved.looks {item : ItemRow} {sale : SaleRow}
    (holds : Holds srv n [] L fun db => db.flashSaleItems.get? call.args.saleItemId = some item)
    (joined : start.flashSales.get? item.flashSaleId = some sale)
    (closed : ¬ call.Open sale → Explained call seen outOfWindow)
    (gone : call.Open sale → item.quantity ≤ item.sold → Explained call seen soldOut)
    (moved : (call.afterItem (itemWindow call.args.saleItemId item sale)).advance plan call.env
      call.now srv n = some (progress, srv')) :
    Moved call start seen srv srv' n progress := by
  cases moved
  show Moved call start seen srv srv n (.running
    (if call.now < sale.startsAt ∨ call.now > sale.endsAt then .throw outOfWindow
      else if item.sold ≥ item.quantity then .throw soldOut
      else call.afterWindow (itemWindow call.args.saleItemId item sale)))
  by_cases opened : call.Open sale
  · rw [if_neg opened]
    by_cases available : item.sold < item.quantity
    · rw [if_neg (not_le.mpr available)]
      exact .goes rfl holds (.admitted ⟨joined, opened, available⟩)
    · rw [if_pos (not_lt.mp available)]
      exact .goes rfl holds (.failed (gone opened (not_lt.mp available)))
  · rw [if_pos (not_not.mp opened)]
    exact .goes rfl holds (.failed (closed opened))

theorem Moved.weighs {item : ItemRow} {sale : SaleRow}
    (holds : Holds srv n [] L fun db => db.flashSaleItems.get? call.args.saleItemId = some item)
    (ready : Ready call start srv.db) (admitted : Admitted call start item sale)
    (refuses : call.Refused srv.db (.selectBalanceForUpdate call.args.userId) →
      Explained call seen insufficientBalance)
    (moved : (call.afterWindow (itemWindow call.args.saleItemId item sale)).advance plan call.env
      call.now srv n = some (progress, srv')) :
    Moved call start seen srv srv' n progress := by
  have at_ := ready.item_at holds.facts admitted.joined
  have short : Short srv.db call.args.userId item → Explained call seen insufficientBalance :=
    fun short => refuses ⟨item, sale, at_, admitted.opened, admitted.available, short⟩
  cases found : srv.db.users.get? call.args.userId with
  | none =>
    obtain ⟨rfl, store, goesOn⟩ := holds.answered (answer_stranger found) moved
    refine .goes store (goesOn _ (stable_more holds) holds.facts) (.failed (short fun row there => ?_))
    rw [found] at there
    cases there
  | some user =>
    obtain ⟨rfl, store, goesOn⟩ := holds.answered (answer_balance found) moved
    obtain ⟨-, locks, -⟩ := plan_selectBalanceForUpdate (answer_balance found)
    have guard : Guards ((plan (.selectBalanceForUpdate call.args.userId) call.env srv.db).locks ++ L)
        (.user call.args.userId) := by
      rw [locks]
      exact Guards.of_update (by simp)
    show Moved call start seen srv srv' n (.running
      (if user.balanceCents < item.priceCents then .throw insufficientBalance
        else call.record (itemWindow call.args.saleItemId item sale)))
    by_cases funds : user.balanceCents < item.priceCents
    · rw [if_pos funds]
      refine .goes store (goesOn _ (stable_more holds) holds.facts) (.failed (short fun row there => ?_))
      rw [found] at there
      cases there
      exact funds
    · rw [if_neg funds]
      exact .goes store (goesOn _ ((stable_more holds).and (stable_user guard)) ⟨holds.facts, found⟩)
        (.charged ⟨admitted, not_lt.mp funds⟩)

section Rows

variable {item : ItemRow} {sale : SaleRow} {user : UserRow}

theorem Moved.counts (holds : Holds srv n [] L (PurchaseRows call.args item user))
    (ready : Ready call start srv.db) (charged : Charged call start item sale user)
    (moved : (call.record (itemWindow call.args.saleItemId item sale)).advance plan call.env
      call.now srv n = some (progress, srv')) :
    Moved call start seen srv srv' n progress := by
  have counts := answer_count holds.facts.1
    (ready.unmoved.inRange ready.inRange _ _ holds.facts.1) charged.available
  rw [call.record_eq] at moved
  obtain ⟨rfl, store, goesOn⟩ := holds.answered counts moved
  exact .goes store (goesOn _ (stable_more holds) holds.facts) (.counted charged)

theorem Moved.debits (holds : Holds srv n [call.count] L (PurchaseRows call.args item user))
    (ready : Ready call start srv.db) (charged : Charged call start item sale user)
    (refuses : call.Refused srv.db (.updateBalance call.args.userId item.priceCents) →
      Explained call seen (refusal (.updateBalance call.args.userId item.priceCents)))
    (moved : (call.afterCount (itemWindow call.args.saleItemId item sale)).advance plan call.env
      call.now srv n = some (progress, srv')) :
    Moved call start seen srv srv' n progress := by
  have debits : (plan (.updateBalance call.args.userId item.priceCents) call.env
      (Lib.applyAll srv.db [call.count])).answer = _ := answer_debit holds.facts.2 charged.funds
  cases fits : int8 (user.balanceCents - item.priceCents) with
  | true =>
    rw [fits, if_pos rfl] at debits
    obtain ⟨rfl, store, goesOn⟩ := holds.answered debits moved
    exact .goes store (goesOn _ (stable_more holds) holds.facts) (.debited charged fits)
  | false =>
    rw [fits] at debits
    obtain ⟨rfl, rfl⟩ := holds.failed debits moved
    have at_ := ready.item_at holds.facts.1 charged.joined
    exact .goes rfl holds (.failed (refuses ⟨item, sale, user, at_, charged.opened,
      charged.available, holds.facts.2, charged.funds, fits⟩))

theorem Moved.enters
    (holds : Holds srv n [call.count, call.debit item] L (PurchaseRows call.args item user))
    (here : srv.db ∈ seen) (ready : Ready call start srv.db)
    (charged : Charged call start item sale user)
    (fits : int8 (user.balanceCents - item.priceCents) = true)
    (moved : (call.afterDebit (itemWindow call.args.saleItemId item sale)).advance plan call.env
      call.now srv n = some (progress, srv')) :
    Moved call start seen srv srv' n progress := by
  have itemRange := ready.unmoved.inRange ready.inRange _ _ holds.facts.1
  by_cases bought : BoughtToday call.args srv.db
  · have twice : BoughtToday call.args (Lib.applyAll srv.db [call.count, call.debit item]) := bought
    obtain ⟨rfl, rfl⟩ := holds.failed (answer_duplicate itemRange twice) moved
    exact .goes rfl holds (.failed ⟨srv'.db, here, finish_bought bought⟩)
  · have inserts := answer_entry holds.facts itemRange ready.key ready.draw bought
    obtain ⟨rfl, store, goesOn⟩ := holds.answered inserts moved
    obtain ⟨-, locks, fresh, -, -⟩ := plan_createPurchase inserts
    have entered : ∀ {r : Resource}, (⟨r, .update⟩ : Lock Resource) ∈
        (Write.insertPurchase call.env.draw (call.row item)).needs →
        Guards ((plan (.createPurchase ⟨call.args.userId, call.args.saleItemId, call.args.day,
          item.priceCents, call.args.idempotencyKey⟩) call.env
          (Lib.applyAll srv.db [call.count, call.debit item])).locks ++ L) r := by
      intro r mem
      rw [locks]
      exact (Guards.of_update mem).append_right
    refine .goes store (goesOn _ ((stable_more holds).and (stable_purchaseUnique (entered ?_)
      (entered ?_) (entered ?_))) ⟨holds.facts, ready.draw, ready.key, ?_⟩) (.entered charged fits)
    · simp [Write.needs]
    · simp [Write.needs, PurchaseCall.row]
    · simp [Write.needs, PurchaseCall.row]
    · intro id row found same
      exact bought ⟨id, row, found, same⟩

theorem Moved.announces
    (holds : Holds srv n
      [call.count, call.debit item, .insertPurchase call.env.draw (call.row item)] L
      fun db => PurchaseRows call.args item user db ∧ PurchaseUnique call.args call.env.draw db)
    (ready : Ready call start srv.db) (charged : Charged call start item sale user)
    (fits : int8 (user.balanceCents - item.priceCents) = true)
    (moved : (call.afterInsert (itemWindow call.args.saleItemId item sale) call.env.draw).advance
      plan call.env call.now srv n = some (progress, srv')) :
    Moved call start seen srv srv' n progress := by
  have free : (Lib.applyAll srv.db [call.count, call.debit item,
      .insertPurchase call.env.draw (call.row item)]).outbox.get? call.env.serial = none :=
    ready.serial
  have appends := answer_event free
  obtain ⟨rfl, store, goesOn⟩ := holds.answered appends moved
  obtain ⟨-, locks, -⟩ := plan_createOutbox appends
  refine .goes store (goesOn _ ((stable_more holds).and (stable_no_outbox ?_))
    ⟨holds.facts, ready.serial⟩) (.done charged fits)
  rw [locks]
  exact Guards.of_update (by simp)

/-- A call that commits does what it would do alone. -/
theorem Moved.commits
    (holds : Holds srv n (call.writes item) L fun db => (PurchaseRows call.args item user db ∧
      PurchaseUnique call.args call.env.draw db) ∧ db.outbox.get? call.env.serial = none)
    (ready : Ready call start srv.db) (charged : Charged call start item sale user)
    (fits : int8 (user.balanceCents - item.priceCents) = true) :
    Moved call start seen srv (srv.commit n) n (.returned (call.result item)) := by
  obtain ⟨⟨rows, unique⟩, unnumbered⟩ := holds.facts
  refine .buys ?_ ?_
  · have at_ := ready.item_at rows.1 charged.joined
    have unbought : ¬ BoughtToday call.args srv.db := by
      rintro ⟨id, row, found, same⟩
      exact unique.2.2 id row found same
    rw [finish_unbought unbought, finish_item at_, finish_available charged.opened charged.available,
      finish_funds rows.2 charged.funds]
    exact finish_record ⟨rows, ready.unmoved.inRange ready.inRange _ _ rows.1, charged.available,
      charged.funds, fits, unique, unnumbered⟩
  · rw [Lib.Server.commit_db, holds.writes]

end Rows

/-- One step of a call: where it leads, and what it commits. -/
theorem Point.advance (point : Point call start seen body ws F) (holds : Holds srv n ws L F)
    (here : srv.db ∈ seen) (ready : Ready call start srv.db) (unmoved : ∀ t ∈ seen, Unmoved start t)
    (excused : ∀ st onError next, body = .exec st onError next → call.Refused srv.db st →
      ∃ t ∈ seen, ¬ BoughtToday call.args t ∧ call.Refused t st)
    (moved : body.advance plan call.env call.now srv n = some (progress, srv')) :
    Moved call start seen srv srv' n progress := by
  have refuses : ∀ {st onError next}, body = .exec st onError next → call.Refused srv.db st →
      Explained call seen (refusal st) := fun is refused =>
    ready.explained unmoved (excused _ _ _ is refused)
  cases point with
  | starts => exact .starts holds here moved
  | @checked _ t mem unbought =>
    by_cases found : ∃ item sale, ItemAt srv.db call.args.saleItemId item sale
    · obtain ⟨item, sale, at_⟩ := found
      exact .finds holds ready unmoved mem unbought at_ (refuses rfl) moved
    · exact .misses holds ready unmoved mem unbought
        (fun item sale at_ => found ⟨item, sale, at_⟩) moved
  | windowed joined closed gone => exact .looks holds joined closed gone moved
  | admitted admitted => exact .weighs holds ready admitted (refuses rfl) moved
  | charged charged => exact .counts holds ready charged moved
  | counted charged => exact .debits holds ready charged (refuses rfl) moved
  | debited charged fits => exact .enters holds here ready charged fits moved
  | entered charged fits => exact .announces holds ready charged fits moved
  | done charged fits =>
    cases moved
    exact .commits holds ready charged fits
  | failed explained =>
    cases moved
    exact .refuses rfl explained

theorem Point.mono (point : Point call start seen body ws F) (d : Db) :
    Point call start (seen ++ [d]) body ws F := by
  have later : ∀ {e}, Explained call seen e → Explained call (seen ++ [d]) e := by
    rintro e ⟨t, mem, is⟩
    exact ⟨t, List.mem_append_left _ mem, is⟩
  cases point with
  | starts => exact .starts
  | checked mem unbought => exact .checked (List.mem_append_left _ mem) unbought
  | windowed joined closed gone =>
    exact .windowed joined (fun is => later (closed is)) fun is short => later (gone is short)
  | admitted admitted => exact .admitted admitted
  | charged charged => exact .charged charged
  | counted charged => exact .counted charged
  | debited charged fits => exact .debited charged fits
  | entered charged fits => exact .entered charged fits
  | done charged fits => exact .done charged fits
  | failed explained => exact .failed (later explained)

end Advance

/-! ### Any number of calls -/

/-- Calls on one server, each somewhere in its transaction. -/
abbrev Purchases (S : Type) : Type :=
  Sessions S Db Write Resource Stmt Stmt.Result DbError Failure PurchaseResult

section Calls

variable {S : Type} [DecidableEq S] (calls : S → PurchaseCall)

def Purchases.start (db : Db) : Purchases S := Sessions.start db fun n => (calls n).body

/-- One statement, or one look at the clock, of a call. -/
def Purchases.step : Purchases S → S → Option (Purchases S) :=
  Sessions.step plan (fun n => (calls n).env) fun n => (calls n).now

abbrev Purchases.Run (db : Db) : List (Purchases S × S) → Purchases S → Prop :=
  Lib.Run (Purchases.step calls) (Purchases.start calls db)

/-- The keys of the calls differ and are new, and so are the identifiers and numbers
that they draw. -/
structure NewCalls (db : Db) : Prop where
  keys : ∀ m n, (calls m).args.idempotencyKey = (calls n).args.idempotencyKey → m = n
  key_unused : ∀ n id row, db.purchases.get? id = some row →
    row.idempotencyKey ≠ (calls n).args.idempotencyKey
  draws : ∀ m n, (calls m).env.draw = (calls n).env.draw → m = n
  draw_unused : ∀ n, db.purchases.get? (calls n).env.draw = none
  serials : ∀ m n, (calls m).env.serial = (calls n).env.serial → m = n
  serial_unused : ∀ n, db.outbox.get? (calls n).env.serial = none

/-- If the check after the statement of this step fails, it also failed in a committed
state of the run so far in which the user had no purchase of the day. -/
def Excused (before : List (Purchases S × S)) (σ : Purchases S) (n : S) : Prop :=
  ∀ st onError next, σ.progress n = .running (.exec st onError next) →
    (calls n).Refused σ.server.db st →
      ∃ t ∈ Lib.visits before σ, ¬ BoughtToday (calls n).args t.server.db ∧
        (calls n).Refused t.server.db st

/-- The committed states of a run. -/
def committedIn (trace : List (Purchases S × S)) (σ : Purchases S) : List Db :=
  (Lib.visits trace σ).map fun t => t.server.db

/-- What a call does when no other runs. -/
def alone (n : S) (db : Db) : Except Failure PurchaseResult × Db :=
  Lib.inTurn plan (fun n => (calls n).env) (fun n => (calls n).now) (fun n => (calls n).body) n db

section InTurn

variable {calls} {n : S} {args : PurchaseArgs} {db : Db}

omit [DecidableEq S] in
/-- A call that returns in its turn leaves its user with a purchase of the day. -/
theorem alone_returned {result : PurchaseResult} (returned : (alone calls n db).1 = .ok result) :
    BoughtToday (calls n).args (alone calls n db).2 := by
  have turn : alone calls n db = Lib.settle db ((calls n).finish db (calls n).body []) := rfl
  rw [turn] at returned ⊢
  cases finishes : (calls n).finish db (calls n).body [] with
  | error e =>
    rw [finishes] at returned
    cases returned
  | ok out => exact finish_returned finishes

omit [DecidableEq S] in
/-- Later turns leave it there. -/
theorem alone_kept (bought : BoughtToday args db) : BoughtToday args (alone calls n db).2 := by
  have turn : alone calls n db = Lib.settle db ((calls n).finish db (calls n).body []) := rfl
  rw [turn]
  cases (calls n).finish db (calls n).body [] with
  | error e => exact bought
  | ok out => exact stable_bought.applyAll (by simp) bought

omit [DecidableEq S] in
theorem after_kept (order : List S) (bought : BoughtToday args db) :
    BoughtToday args (Lib.after (alone calls) db order) := by
  induction order generalizing db with
  | nil => exact bought
  | cons n order ih => exact ih (alone_kept bought)

omit [DecidableEq S] in
theorem alone_bought (bought : BoughtToday (calls n).args db) :
    (alone calls n db).1 = .error (alreadyPurchasedToday (calls n).args.day) := by
  have turn : alone calls n db = Lib.settle db ((calls n).finish db (calls n).body []) := rfl
  rw [turn, finish_bought bought]
  rfl

omit [DecidableEq S] in
/-- In a serial order, the calls of a user that come after one that buys are told so. -/
theorem told_duplicate {seen : List Db} {answered : S → Except Failure PurchaseResult → Prop}
    {order earlier middle later : List S} {d : Db} {m : S} {result : PurchaseResult}
    {o : Except Failure PurchaseResult} (explains : Lib.Explains (alone calls) db seen answered order d)
    (split : order = earlier ++ m :: (middle ++ n :: later))
    (user : (calls m).args.userId = (calls n).args.userId)
    (day : (calls m).args.day = (calls n).args.day) (returned : answered m (.ok result))
    (is : answered n o) : o = .error (alreadyPurchasedToday (calls n).args.day) := by
  have split' : order = (earlier ++ m :: middle) ++ n :: later := by rw [split]; simp
  have buys := alone_returned (explains.answer_at split returned)
  have bought : BoughtToday (calls n).args (Lib.after (alone calls) db (earlier ++ m :: middle)) := by
    rw [Lib.after_append, Lib.after_cons]
    obtain ⟨id, row, found, own, today⟩ := after_kept middle buys
    exact ⟨id, row, found, own.trans user, today.trans day⟩
  rw [← explains.answer_at split' is]
  exact alone_bought bought

end InTurn

/-- What runs keep whose refusals are excused: a serial order of the calls that have
ended. -/
structure Serializes (db : Db) (trace : List (Purchases S × S)) (σ : Purchases S) : Prop where
  sound : Lib.Sound σ.server
  unmoved : ∀ t ∈ committedIn trace σ, Unmoved db t
  bought : ∀ id row, σ.server.db.purchases.get? id = some row →
    db.purchases.get? id = some row ∨ ∃ m result, σ.progress m = .returned result ∧
      id = (calls m).env.draw ∧ row.idempotencyKey = (calls m).args.idempotencyKey
  announced : ∀ id row, σ.server.db.outbox.get? id = some row →
    db.outbox.get? id = some row ∨ ∃ m result, σ.progress m = .returned result ∧
      id = (calls m).env.serial
  points : ∀ n body, σ.progress n = .running body → ∃ ws L F, Holds σ.server n ws L F ∧
    Point (calls n) db (committedIn trace σ) body ws F
  order : ∃ order, Lib.Explains (alone calls) db (committedIn trace σ)
    (fun n o => σ.progress n = .ended o) order σ.server.db

section Serializes

variable {calls} {db : Db} {trace : List (Purchases S × S)} {σ σ' : Purchases S} {n : S}

omit [DecidableEq S] in
theorem committedIn_snoc :
    committedIn (trace ++ [(σ, n)]) σ' = committedIn trace σ ++ [σ'.server.db] := by
  rw [committedIn, Lib.visits_snoc, List.map_append]
  rfl

omit [DecidableEq S] in
theorem here_mem : σ.server.db ∈ committedIn trace σ :=
  List.mem_map_of_mem (Lib.last_mem_visits trace σ)

/-- A call that is running finds nothing of its own. -/
theorem Serializes.ready (serializes : Serializes calls db trace σ) (new : NewCalls calls db)
    (inRange : ∀ id item, db.flashSaleItems.get? id = some item → item.InRange)
    {body : Program PurchaseResult} (running : σ.progress n = .running body) :
    Ready (calls n) db σ.server.db := by
  constructor
  · exact serializes.unmoved _ here_mem
  · exact inRange
  · intro id row found same
    rcases serializes.bought id row found with old | ⟨m, result, returned, -, key⟩
    · exact new.key_unused n id row old same
    · obtain rfl := new.keys m n (key.symm.trans same)
      rw [running] at returned
      cases returned
  · cases found : σ.server.db.purchases.get? (calls n).env.draw with
    | none => rfl
    | some row =>
      rcases serializes.bought _ row found with old | ⟨m, result, returned, draw, -⟩
      · rw [new.draw_unused n] at old
        cases old
      · obtain rfl := new.draws n m draw
        rw [running] at returned
        cases returned
  · cases found : σ.server.db.outbox.get? (calls n).env.serial with
    | none => rfl
    | some row =>
      rcases serializes.announced _ row found with old | ⟨m, result, returned, serial⟩
      · rw [new.serial_unused n] at old
        cases old
      · obtain rfl := new.serials n m serial
        rw [running] at returned
        cases returned

/-- A step of a call, and what it leaves to the others. -/
theorem Purchases.step_cases (sound : Lib.Sound σ.server) (taken : Purchases.step calls σ n = some σ') :
    ∃ body progress, σ.progress n = .running body ∧
      body.advance plan (calls n).env (calls n).now σ.server n = some (progress, σ'.server) ∧
      σ'.progress = Function.update σ.progress n progress ∧
      Lib.Frame n σ.server σ'.server ∧ Lib.Sound σ'.server := by
  unfold Purchases.step Sessions.step at taken
  cases running : σ.progress n with
  | running body =>
    rw [running] at taken
    obtain ⟨⟨progress, srv⟩, moved, rfl⟩ := Option.map_eq_some_iff.mp taken
    exact ⟨body, progress, rfl, moved, rfl, Tx.advance_frame sound moved,
      Tx.advance_sound plan_covered sound moved⟩
  | returned a =>
    rw [running] at taken
    cases taken
  | threw e =>
    rw [running] at taken
    cases taken

/-! What a step of a call leaves as it was. -/

section Kept

variable {body : Program PurchaseResult}
  {progress : Progress Stmt Stmt.Result DbError Failure PurchaseResult}

theorem returned_kept (running : σ.progress n = .running body)
    (after : σ'.progress = Function.update σ.progress n progress) {m : S} {result : PurchaseResult}
    (is : σ.progress m = .returned result) : σ'.progress m = .returned result := by
  rw [after, Function.update_of_ne ?_]
  · exact is
  · rintro rfl
    rw [running] at is
    cases is

theorem not_ended (running : σ.progress n = .running body) (o : Except Failure PurchaseResult) :
    σ.progress n ≠ .ended o := by
  intro is
  rw [running] at is
  cases o <;> cases is

theorem Serializes.bought_kept (serializes : Serializes calls db trace σ)
    (running : σ.progress n = .running body)
    (after : σ'.progress = Function.update σ.progress n progress) {id : Uuid} {row : PurchaseRow}
    (found : σ.server.db.purchases.get? id = some row) :
    db.purchases.get? id = some row ∨ ∃ m result, σ'.progress m = .returned result ∧
      id = (calls m).env.draw ∧ row.idempotencyKey = (calls m).args.idempotencyKey := by
  rcases serializes.bought id row found with old | ⟨m, result, is, own⟩
  · exact Or.inl old
  · exact Or.inr ⟨m, result, returned_kept running after is, own⟩

theorem Serializes.announced_kept (serializes : Serializes calls db trace σ)
    (running : σ.progress n = .running body)
    (after : σ'.progress = Function.update σ.progress n progress) {id : Nat} {row : OutboxRow}
    (found : σ.server.db.outbox.get? id = some row) :
    db.outbox.get? id = some row ∨ ∃ m result, σ'.progress m = .returned result ∧
      id = (calls m).env.serial := by
  rcases serializes.announced id row found with old | ⟨m, result, is, own⟩
  · exact Or.inl old
  · exact Or.inr ⟨m, result, returned_kept running after is, own⟩

theorem Serializes.unmoved_snoc (serializes : Serializes calls db trace σ)
    (last : Unmoved db σ'.server.db) :
    ∀ t ∈ committedIn (trace ++ [(σ, n)]) σ', Unmoved db t := by
  intro t mem
  rw [committedIn_snoc, List.mem_append] at mem
  rcases mem with old | new
  · exact serializes.unmoved t old
  · rw [List.mem_singleton.mp new]
    exact last

/-- The other calls stay where they are. -/
theorem Serializes.points_snoc (serializes : Serializes calls db trace σ)
    (after : σ'.progress = Function.update σ.progress n progress)
    (frame : Lib.Frame n σ.server σ'.server)
    (own : ∀ body', progress = .running body' → ∃ ws L F, Holds σ'.server n ws L F ∧
      Point (calls n) db (committedIn trace σ) body' ws F) :
    ∀ m body', σ'.progress m = .running body' → ∃ ws L F, Holds σ'.server m ws L F ∧
      Point (calls m) db (committedIn (trace ++ [(σ, n)]) σ') body' ws F := by
  intro m body' is
  rw [committedIn_snoc]
  by_cases other : m = n
  · subst other
    rw [after, Function.update_self] at is
    obtain ⟨ws', L', F', holds', point'⟩ := own body' is
    exact ⟨ws', L', F', holds', point'.mono _⟩
  · rw [after, Function.update_of_ne other] at is
    obtain ⟨ws', L', F', holds', point'⟩ := serializes.points m body' is
    exact ⟨ws', L', F', holds'.frame frame other, point'.mono _⟩

/-! The three moves of a call. -/

/-- A step inside the transaction. -/
theorem Serializes.goes (serializes : Serializes calls db trace σ) (sound : Lib.Sound σ'.server)
    (running : σ.progress n = .running body) {next : Program PurchaseResult}
    (after : σ'.progress = Function.update σ.progress n (.running next))
    (frame : Lib.Frame n σ.server σ'.server) (store : σ'.server.db = σ.server.db)
    {ws : List Write} {L : List (Lock Resource)} {F : Db → Prop} (holds : Holds σ'.server n ws L F)
    (point : Point (calls n) db (committedIn trace σ) next ws F) :
    Serializes calls db (trace ++ [(σ, n)]) σ' := by
  constructor
  · exact sound
  · exact serializes.unmoved_snoc (store ▸ serializes.unmoved _ here_mem)
  · intro id row found
    rw [store] at found
    exact serializes.bought_kept running after found
  · intro id row found
    rw [store] at found
    exact serializes.announced_kept running after found
  · refine serializes.points_snoc after frame fun body' is => ?_
    cases is
    exact ⟨_, _, _, holds, point⟩
  · obtain ⟨order, explains⟩ := serializes.order
    refine ⟨order, ?_⟩
    rw [committedIn_snoc, store]
    refine explains.see.congr fun m o => ?_
    rw [after]
    by_cases other : m = n
    · subst other
      rw [Function.update_self]
      constructor
      · intro is
        cases o <;> cases is
      · intro is
        exact absurd is (not_ended running o)
    · rw [Function.update_of_ne other]

/-- A refusal, which the serial order places where it is explained. -/
theorem Serializes.refuses (serializes : Serializes calls db trace σ) (sound : Lib.Sound σ'.server)
    (running : σ.progress n = .running body) {e : Failure}
    (after : σ'.progress = Function.update σ.progress n (.threw e))
    (frame : Lib.Frame n σ.server σ'.server) (store : σ'.server.db = σ.server.db)
    (explained : Explained (calls n) (committedIn trace σ) e) :
    Serializes calls db (trace ++ [(σ, n)]) σ' := by
  constructor
  · exact sound
  · exact serializes.unmoved_snoc (store ▸ serializes.unmoved _ here_mem)
  · intro id row found
    rw [store] at found
    exact serializes.bought_kept running after found
  · intro id row found
    rw [store] at found
    exact serializes.announced_kept running after found
  · refine serializes.points_snoc after frame fun body' is => ?_
    cases is
  · obtain ⟨order, explains⟩ := serializes.order
    obtain ⟨t, mem, finishes⟩ := explained
    have silent : alone calls n t = (.error e, t) := congrArg (Lib.settle t) finishes
    obtain ⟨order', explains'⟩ := explains.refuse mem silent (not_ended running)
    refine ⟨order', ?_⟩
    rw [committedIn_snoc, store]
    refine explains'.see.congr fun m o => ?_
    rw [after]
    exact Lib.ended_update running (.error _) m o

/-- A purchase, which comes last in the serial order. -/
theorem Serializes.buys (serializes : Serializes calls db trace σ) (sound : Lib.Sound σ'.server)
    (running : σ.progress n = .running body) {item : ItemRow}
    (after : σ'.progress = Function.update σ.progress n (.returned ((calls n).result item)))
    (frame : Lib.Frame n σ.server σ'.server)
    (finishes : (calls n).finish σ.server.db (calls n).body [] =
      .ok ((calls n).result item, (calls n).writes item))
    (store : σ'.server.db = Lib.applyAll σ.server.db ((calls n).writes item)) :
    Serializes calls db (trace ++ [(σ, n)]) σ' := by
  have returned : σ'.progress n = .returned ((calls n).result item) := by
    rw [after, Function.update_self]
  constructor
  · exact sound
  · apply serializes.unmoved_snoc
    rw [store]
    exact (serializes.unmoved _ here_mem).buys (calls n) item
  · intro id row found
    rw [store] at found
    rcases Table.get?_insert_cases found with old | ⟨rfl, rfl⟩
    · exact serializes.bought_kept running after old
    · exact Or.inr ⟨n, _, returned, rfl, rfl⟩
  · intro id row found
    rw [store] at found
    rcases Table.get?_insert_cases found with old | ⟨rfl, rfl⟩
    · exact serializes.announced_kept running after old
    · exact Or.inr ⟨n, _, returned, rfl⟩
  · refine serializes.points_snoc after frame fun body' is => ?_
    cases is
  · obtain ⟨order, explains⟩ := serializes.order
    have commits : alone calls n σ.server.db = (.ok ((calls n).result item), σ'.server.db) := by
      rw [store]
      exact congrArg (Lib.settle σ.server.db) finishes
    refine ⟨order ++ [n], ?_⟩
    rw [committedIn_snoc]
    refine (explains.commit commits (not_ended running)).congr fun m o => ?_
    rw [after]
    exact Lib.ended_update running (.ok _) m o

end Kept

theorem Serializes.step (serializes : Serializes calls db trace σ) (new : NewCalls calls db)
    (inRange : ∀ id item, db.flashSaleItems.get? id = some item → item.InRange)
    (excused : Excused calls trace σ n) (taken : Purchases.step calls σ n = some σ') :
    Serializes calls db (trace ++ [(σ, n)]) σ' := by
  obtain ⟨body, progress, running, moved, after, frame, sound⟩ :=
    Purchases.step_cases serializes.sound taken
  have ready := serializes.ready new inRange running
  obtain ⟨ws, L, F, holds, point⟩ := serializes.points n body running
  have excuses : ∀ st onError next, body = .exec st onError next →
      (calls n).Refused σ.server.db st → ∃ t ∈ committedIn trace σ,
        ¬ BoughtToday (calls n).args t ∧ (calls n).Refused t st := by
    intro st onError next is refused
    obtain ⟨t, mem, excuse⟩ := excused st onError next (running.trans (by rw [is])) refused
    exact ⟨t.server.db, List.mem_map_of_mem mem, excuse⟩
  have step : Moved (calls n) db (committedIn trace σ) σ.server σ'.server n progress :=
    Point.advance point holds here_mem ready serializes.unmoved excuses moved
  cases step with
  | goes store holds' point' => exact serializes.goes sound running after frame store holds' point'
  | refuses store explained => exact serializes.refuses sound running after frame store explained
  | buys finishes store => exact serializes.buys sound running after frame finishes store

/-- Nothing has run yet. -/
theorem Serializes.init : Serializes calls db [] (Purchases.start calls db) := by
  have here : ∀ t ∈ committedIn [] (Purchases.start calls db), t = db := by
    intro t mem
    exact List.mem_singleton.mp mem
  constructor
  · constructor
    · intro s l s' l' held
      cases held
    · intro s w mem
      cases mem
  · intro t mem
    rw [here t mem]
    exact Unmoved.refl
  · intro id row found
    exact Or.inl found
  · intro id row found
    exact Or.inl found
  · intro n body running
    cases running
    have idle : Lib.Idle (Purchases.start calls db).server n := by
      refine ⟨rfl, fun l held => ?_⟩
      cases held
    exact ⟨[], [], fun _ => True, Holds.start idle (Stable.const _ _) trivial, .starts⟩
  · refine ⟨[], Lib.Explains.nil.congr fun n o => ?_⟩
    constructor
    · intro ended
      cases o <;> cases ended
    · intro no
      exact no.elim

end Serializes

end Calls

/-- Calls that have ended as in some serial run of the same calls, which takes those
calls one after another, gives each the same answer and leaves the same rows; there, a
call that comes after its user's purchase of the day is told of it. The tables are
compared with the order of their rows, so the serial run also inserts in the same order. -/
def Linearizable {S : Type} [DecidableEq S] (calls : S → PurchaseCall) (db : Db) (σ : Purchases S) :
    Prop :=
  ∃ (order : List S) (steps : S → Nat) (τ : Purchases S),
    order.Nodup ∧ (∀ n, n ∈ order ↔ ∃ o, σ.progress n = .ended o) ∧
    Lib.execute (Purchases.step calls) (Purchases.start calls db)
      (order.flatMap fun n => List.replicate (steps n) n) = some τ ∧
    τ.server.db = σ.server.db ∧ (∀ n ∈ order, τ.progress n = σ.progress n) ∧
    ∀ earlier m middle n later result, order = earlier ++ m :: (middle ++ n :: later) →
      (calls m).args.userId = (calls n).args.userId → (calls m).args.day = (calls n).args.day →
      σ.progress m = .returned result →
      σ.progress n = .threw (alreadyPurchasedToday (calls n).args.day)

/-- Purchases that overlap have the answers and the effect of some serial order of them, if
every check that fails has also failed in a committed state in which its user had no
purchase of the day. Nothing else is asked of the steps. -/
theorem Purchases.linearizable {S : Type} [DecidableEq S] {calls : S → PurchaseCall} {db : Db}
    (inRange : ∀ id item, db.flashSaleItems.get? id = some item → item.InRange)
    (new : NewCalls calls db) {trace : List (Purchases S × S)} {σ : Purchases S}
    (run : Purchases.Run calls db trace σ)
    (excused : ∀ before p later, trace = before ++ p :: later → Excused calls before p.1 p.2) :
    Linearizable calls db σ := by
  have kept : (∀ before p later, trace = before ++ p :: later → Excused calls before p.1 p.2) →
      Serializes calls db trace σ := by
    refine run.invariant_along (fun trace σ =>
      (∀ before p later, trace = before ++ p :: later → Excused calls before p.1 p.2) →
        Serializes calls db trace σ) (fun _ => Serializes.init) ?_
    intro trace σ n σ' ih taken excused
    have serializes := ih fun before p later split =>
      excused before p (later ++ [(σ, n)]) (by rw [split]; simp)
    exact serializes.step new inRange (excused trace (σ, n) [] rfl) taken
  obtain ⟨order, explains⟩ := (kept excused).order
  have waiting : ∀ n ∈ order, (Purchases.start calls db).progress n = .running (calls n).body :=
    fun n _ => rfl
  obtain ⟨steps, τ, ran, server, -, answers⟩ := Sessions.execute_order explains.nodup rfl waiting
  refine ⟨order, steps, τ, explains.nodup, ?_, ran, ?_, ?_, ?_⟩
  · intro n
    constructor
    · exact explains.only n
    · rintro ⟨o, ended⟩
      obtain ⟨earlier, later, rfl, -⟩ := explains.answers n o ended
      simp
  · rw [server]
    exact explains.store
  · intro n mem
    obtain ⟨o, ended⟩ := explains.only n mem
    rw [ended]
    exact answers n o (explains.answers n o ended)
  · intro earlier m middle n later result split user day returned
    obtain ⟨o, ended⟩ := explains.only n (by rw [split]; simp)
    obtain rfl := told_duplicate explains split user day returned ended
    exact ended

section Runs

/-- A purchase that draws its own key, identifier and number. -/
def plainCall (user : Uuid) (fresh : Nat) : PurchaseCall where
  args := ⟨user, 4, fresh, "2024-01-01"⟩
  env := ⟨0, 0, fresh, fresh, [], fun _ => true⟩
  now := 50

/-- One unit of an item at a price of 100, and two users with 400 each. -/
def oneLeft : Db where
  users := (Table.empty.insert 1 ⟨some [0x61], none, "hash", .active, 400⟩).insert 2
    ⟨some [0x62], none, "hash", .active, 400⟩
  otpCodes := .empty
  products := Table.empty.insert 2 ⟨0⟩
  flashSales := Table.empty.insert 3 ⟨[0x73], 0, 100, none⟩
  flashSaleItems := Table.empty.insert 4 ⟨3, 2, 1, 0, 100⟩
  purchases := .empty
  outbox := .empty

theorem oneLeft_inRange : ∀ id item, oneLeft.flashSaleItems.get? id = some item → item.InRange := by
  intro id item found
  rcases Table.get?_insert_cases found with old | ⟨-, rfl⟩
  · cases old
  · constructor <;> decide

theorem plainCalls_new {user user' : Uuid} :
    NewCalls (fun n => bif n then plainCall user 7 else plainCall user' 8) oneLeft := by
  constructor
  · rintro (_ | _) (_ | _) same <;> cases same <;> rfl
  · intro n id row found
    cases found
  · rintro (_ | _) (_ | _) same <;> cases same <;> rfl
  · intro n
    rfl
  · rintro (_ | _) (_ | _) same <;> cases same <;> rfl
  · intro n
    rfl

/-- Both calls check for a purchase of the day, and one waits at the item until the
other has bought it. -/
def interleaved : List Bool := true :: false :: List.replicate 8 true ++ List.replicate 3 false

/-- Two users for one unit. -/
def rivals (n : Bool) : PurchaseCall := bif n then plainCall 1 7 else plainCall 2 8

/-- The same user twice. -/
def twins (n : Bool) : PurchaseCall := bif n then plainCall 1 7 else plainCall 1 8

theorem rivals_run :
    (Lib.execute (Purchases.step rivals) (Purchases.start rivals oneLeft) interleaved).isSome = true := by
  decide +kernel

theorem twins_run :
    (Lib.execute (Purchases.step twins) (Purchases.start twins oneLeft) interleaved).isSome = true := by
  decide +kernel

/-- The user of the call has no purchase of the day yet. -/
def unboughtYet (calls : Bool → PurchaseCall) (p : Purchases Bool × Bool) : Bool :=
  !p.1.server.db.purchases.any fun _ row =>
    decide (row.userId = (calls p.2).args.userId) && decide (row.day = (calls p.2).args.day)

theorem excused_of_unbought {calls : Bool → PurchaseCall} {before : List (Purchases Bool × Bool)}
    {p : Purchases Bool × Bool} (yet : unboughtYet calls p = true) : Excused calls before p.1 p.2 := by
  intro st onError next running refused
  refine ⟨p.1, Lib.last_mem_visits before p.1, ?_, refused⟩
  intro bought
  have any := purchased_iff.mpr bought
  simp [unboughtYet, any] at yet

/-- The second user is refused the unit that the first one has bought. -/
theorem linearizable_rivals :
    ∃ σ, Purchases.Run rivals oneLeft
        (Lib.traceOf (Purchases.step rivals) (Purchases.start rivals oneLeft) interleaved) σ ∧
      σ.progress true = .returned ⟨7, 4, 100, 0⟩ ∧ σ.progress false = .threw soldOut ∧
      Linearizable rivals oneLeft σ := by
  have run := Lib.Run.of_isSome rivals_run
  have yet : ∀ p ∈ Lib.traceOf (Purchases.step rivals) (Purchases.start rivals oneLeft) interleaved,
      unboughtYet rivals p = true := by decide +kernel
  refine ⟨_, run, by rfl, by rfl, ?_⟩
  apply Purchases.linearizable oneLeft_inRange plainCalls_new run
  intro before p later split
  refine excused_of_unbought (yet p ?_)
  rw [split]
  exact List.mem_append_right _ List.mem_cons_self

/-- Of two calls of a user for the last unit, one returns and the other throws
`soldOut`, which it throws in no serial run. -/
theorem sold_out_by_own :
    ∃ σ, Purchases.Run twins oneLeft
        (Lib.traceOf (Purchases.step twins) (Purchases.start twins oneLeft) interleaved) σ ∧
      σ.progress true = .returned ⟨7, 4, 100, 0⟩ ∧ σ.progress false = .threw soldOut ∧
      ∀ (order : List Bool) (steps : Bool → Nat) (τ : Purchases Bool), order.Nodup →
        false ∈ order → (∀ n ∈ order, ∃ o, τ.progress n = .ended o) →
        Lib.execute (Purchases.step twins) (Purchases.start twins oneLeft)
          (order.flatMap fun n => List.replicate (steps n) n) = some τ →
        τ.progress false ≠ .threw soldOut := by
  refine ⟨_, Lib.Run.of_isSome twins_run, by rfl, by rfl, ?_⟩
  intro order steps τ nodup mem ended ran
  obtain ⟨earlier, later, rfl⟩ := List.append_of_mem mem
  have waiting : ∀ n ∈ earlier ++ false :: later,
      (Purchases.start twins oneLeft).progress n = .running (twins n).body := fun n _ => rfl
  have answer : τ.progress false = .ended
      (alone twins false (Lib.after (alone twins) oneLeft earlier)).1 :=
    Sessions.execute_answers nodup rfl waiting ran ended rfl
  rw [List.nodup_append] at nodup
  have first : earlier = [] ∨ earlier = [true] := by
    rcases earlier with _ | ⟨_ | _, _ | ⟨_ | _, rest⟩⟩ <;> simp_all
  rw [answer]
  rcases first with rfl | rfl
  · have buys : (alone twins false oneLeft).1 = .ok ⟨8, 4, 100, 0⟩ := by rfl
    rw [Lib.after, List.foldl_nil, buys]
    intro is
    cases is
  · have told : (alone twins false (Lib.after (alone twins) oneLeft [true])).1 =
        .error (alreadyPurchasedToday "2024-01-01") := by rfl
    rw [told]
    intro is
    exact absurd (Progress.threw.inj is) (by decide)

end Runs

end FlashSale
