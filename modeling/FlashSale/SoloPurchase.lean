/-
# A purchase without concurrent transactions

Exactly when `purchaseTx` succeeds on a committed state, what it changes then, and that
it changes nothing when it fails, at whatever statement and for whatever reason.

Without other transactions nothing waits, and what a statement sees is what is committed
and what the call itself has written. A failure from outside, at any statement or at the
commit, is a part of the surroundings, so that "it changes nothing when it fails" speaks
of those too.

* `purchaseTx_exact`: the success condition and the effect.
* `overflowing_balance`: a price may be negative, and then the balance may leave the
  range of its column.
-/
import FlashSale.PurchaseAlone
import FlashSale.Constraints
import FlashSale.Lib.Solo
import FlashSale.System

namespace FlashSale

open Lib (Table Tx Surroundings)

/-! ### The transaction -/

/-- The call as a whole. The settings that open the transaction fail, if at all, as its
first statement does. -/
def PurchaseArgs.transaction (args : PurchaseArgs) (around : Surroundings Env Failure) (db : Db) :
    Except Failure PurchaseResult × Db :=
  (purchaseTx args.userId args.saleItemId args.idempotencyKey args.day).transaction plan around db

/-- What the statements of the call meet, in one: the fifth inserts the purchase, and the
sixth the event. -/
def PurchaseArgs.call (args : PurchaseArgs) (around : Surroundings Env Failure) : PurchaseCall where
  args := args
  env := { around.env 5 with serial := (around.env 6).serial, started := (around.env 6).started }
  now := around.time 2

/-- What the call changes: one unit is sold and paid, with a row for the purchase and one
for its event. -/
def PurchaseArgs.bought (args : PurchaseArgs) (around : Surroundings Env Failure) (item : ItemRow)
    (db : Db) : Db :=
  { db with
    flashSaleItems := db.flashSaleItems.modify args.saleItemId
      fun i => { i with sold := i.sold + 1 }
    users := db.users.modify args.userId
      fun u => { u with balanceCents := u.balanceCents + -item.priceCents }
    purchases := db.purchases.insert (around.env 5).draw
      { userId := args.userId
        flashSaleItemId := args.saleItemId
        day := args.day
        priceCents := item.priceCents
        idempotencyKey := args.idempotencyKey
        createdAt := toColumn (around.env 5).stamp }
    outbox := db.outbox.insert (around.env 6).serial
      { event := .purchaseCompleted (around.env 5).draw args.userId args.saleItemId
        status := .pending
        attempts := 0
        visibleAt := toColumn (around.env 6).started
        lastError := none
        idempotencyKey := some args.idempotencyKey } }

/-! ### The success condition -/

/-- The checks of the code and the constraints of the schema, in the order in which the
transaction makes them. The last two are made by the database. -/
structure CanBuy (args : PurchaseArgs) (now : Int) (item : ItemRow) (sale : SaleRow) (user : UserRow)
    (db : Db) : Prop where
  unbought : ∀ id row, db.purchases.get? id = some row →
    ¬(row.userId = args.userId ∧ row.day = args.day)
  there : db.flashSaleItems.get? args.saleItemId = some item
  joined : db.flashSales.get? item.flashSaleId = some sale
  window : sale.startsAt ≤ now ∧ now ≤ sale.endsAt
  available : item.sold < item.quantity
  owner : db.users.get? args.userId = some user
  funds : item.priceCents ≤ user.balanceCents
  fits : int8 (user.balanceCents - item.priceCents) = true
  unused : ∀ id row, db.purchases.get? id = some row → row.idempotencyKey ≠ args.idempotencyKey

/-- No statement of a purchase, nor its commit, fails for a reason outside the code, and
the identifiers that the database generates are new. -/
structure Unhindered (around : Surroundings Env Failure) (db : Db) : Prop where
  spared : ∀ i ≤ 7, around.fails i = none
  draw : db.purchases.get? (around.env 5).draw = none
  serial : db.outbox.get? (around.env 6).serial = none

section Exact

variable {args : PurchaseArgs} {around : Surroundings Env Failure} {db : Db} {item : ItemRow}
  {sale : SaleRow} {user : UserRow}

theorem Db.Conforms.inRange (conforms : db.Conforms) {id : Uuid}
    (found : db.flashSaleItems.get? id = some item) : item.InRange := by
  have valid := conforms.items id item found
  exact ⟨valid.sold.1, valid.quantity, valid.price⟩

theorem CanBuy.unboughtToday {now : Int} (can : CanBuy args now item sale user db) :
    ¬ BoughtToday args db := by
  rintro ⟨id, row, found, same⟩
  exact can.unbought id row found same

/-- The checks of the code alone, up to its first write. -/
structure PassesChecks (args : PurchaseArgs) (now : Int) (item : ItemRow) (sale : SaleRow)
    (user : UserRow) (db : Db) : Prop where
  unbought : ¬ BoughtToday args db
  at_ : ItemAt db args.saleItemId item sale
  window : sale.startsAt ≤ now ∧ now ≤ sale.endsAt
  available : item.sold < item.quantity
  owner : db.users.get? args.userId = some user
  funds : item.priceCents ≤ user.balanceCents

theorem CanBuy.passes {now : Int} (can : CanBuy args now item sale user db) :
    PassesChecks args now item sale user db where
  unbought := can.unboughtToday
  at_ := ⟨can.there, can.joined⟩
  window := can.window
  available := can.available
  owner := can.owner
  funds := can.funds

theorem PassesChecks.open (passes : PassesChecks args (around.time 2) item sale user db) :
    (args.call around).Open sale := by
  rintro (early | late)
  · exact absurd early (not_lt.mpr passes.window.1)
  · exact absurd late (not_lt.mpr passes.window.2)

/-- The checks pass, and both rows are locked. -/
theorem PassesChecks.checked (passes : PassesChecks args (around.time 2) item sale user db)
    (spared : ∀ i ≤ 7, around.fails i = none) :
    (args.call around).body.solo plan around db 0 [] =
      ((args.call around).record (itemWindow args.saleItemId item sale)).solo plan around db 3 [] := by
  rw [PurchaseCall.body_eq]
  refine (Tx.solo_statement (spared 0 (by decide))
    (@answer_unbought (args.call around) db passes.unbought)).trans ?_
  refine (Tx.solo_statement (spared 1 (by decide))
    (@answer_item (args.call around) db item sale passes.at_)).trans ?_
  show (if around.time 2 < sale.startsAt ∨ around.time 2 > sale.endsAt then .throw outOfWindow
    else if item.sold ≥ item.quantity then .throw soldOut
    else (args.call around).afterWindow (itemWindow args.saleItemId item sale) :
      Program PurchaseResult).solo plan around db 2 [] = _
  have opened : ¬(around.time 2 < sale.startsAt ∨ around.time 2 > sale.endsAt) := passes.open
  rw [if_neg opened, if_neg (not_le.mpr passes.available)]
  refine (Tx.solo_statement (spared 2 (by decide))
    (@answer_balance (args.call around) db user passes.owner)).trans ?_
  show (if user.balanceCents < item.priceCents then .throw insufficientBalance
    else (args.call around).record (itemWindow args.saleItemId item sale) :
      Program PurchaseResult).solo plan around db 3 [] = _
  rw [if_neg (not_lt.mpr passes.funds)]

/-- Unhindered, it writes what the call writes. -/
theorem CanBuy.succeeds (can : CanBuy args (around.time 2) item sale user db)
    (unhindered : Unhindered around db) (conforms : db.Conforms) :
    (args.call around).body.solo plan around db 0 [] =
      .ok ((args.call around).result item, (args.call around).writes item) := by
  obtain ⟨spared, draw, serial⟩ := unhindered
  have inRange := conforms.inRange can.there
  have debited : (plan (.updateBalance args.userId item.priceCents) (args.call around).env
      (Lib.applyAll db [(args.call around).count])).answer = .ok ([(args.call around).debit item], ()) :=
    (@answer_debit (args.call around) db item user can.owner can.funds).trans (if_pos can.fits)
  have inserted := @answer_entry (args.call around) db item user ⟨can.there, can.owner⟩ inRange can.unused draw
    can.unboughtToday
  have appended := @answer_event (args.call around) (Lib.applyAll db
    [(args.call around).count, (args.call around).debit item,
      .insertPurchase (args.call around).env.draw ((args.call around).row item)]) serial
  rw [can.passes.checked spared, PurchaseCall.record_eq]
  refine (Tx.solo_statement (spared 3 (by decide))
    (@answer_count (args.call around) db item can.there inRange can.available)).trans ?_
  apply (Tx.solo_statement (spared 4 (by decide)) debited).trans
  apply (Tx.solo_statement (spared 5 (by decide)) inserted).trans
  apply (Tx.solo_statement (spared 6 (by decide)) appended).trans
  exact Tx.solo_pure (spared 7 (by decide))

/-- The writes of a purchase that returns met nothing that stops them. -/
theorem record_returned {out : PurchaseResult × List Write} {saleItemId : Uuid}
    (there : db.flashSaleItems.get? args.saleItemId = some item)
    (owner : db.users.get? args.userId = some user) (funds : item.priceCents ≤ user.balanceCents)
    (returned : ((args.call around).record (itemWindow saleItemId item sale)).solo plan around db 3 [] =
      .ok out) :
    (∀ i, 3 ≤ i → i ≤ 7 → around.fails i = none) ∧
      int8 (user.balanceCents - item.priceCents) = true ∧
      PurchaseUnique args (around.env 5).draw db ∧ db.outbox.get? (around.env 6).serial = none := by
  rw [PurchaseCall.record_eq] at returned
  obtain ⟨spared₃, ws₃, _, counted, returned⟩ := Tx.solo_returned returned
  obtain ⟨rfl, -⟩ := plan_updateSold counted there
  obtain ⟨spared₄, ws₄, _, debited, returned⟩ := Tx.solo_returned returned
  obtain ⟨rfl, -⟩ := plan_updateBalance debited owner
  obtain ⟨spared₅, ws₅, id, inserted, returned⟩ := Tx.solo_returned returned
  obtain ⟨-, -, -, -, drawn, -⟩ := inserting_ok inserted
  obtain ⟨rfl, -, unused⟩ := plan_createPurchase inserted
  obtain ⟨spared₆, ws₆, _, appended, returned⟩ := Tx.solo_returned returned
  obtain ⟨-, -, unnumbered⟩ := plan_createOutbox appended
  obtain ⟨spared₇, -⟩ := Tx.solo_pure_returned returned
  refine ⟨?_, ?_, ?_, unnumbered⟩
  · intro i low high
    obtain rfl | rfl | rfl | rfl | rfl : i = 3 ∨ i = 4 ∨ i = 5 ∨ i = 6 ∨ i = 7 := by omega
    · exact spared₃
    · exact spared₄
    · exact spared₅
    · exact spared₆
    · exact spared₇
  · by_contra large
    have failed : (plan (.updateBalance args.userId item.priceCents) (around.env 4)
        (Lib.applyAll db [Write.addSold args.saleItemId 1])).answer = .error .outOfRange :=
      (@answer_debit (args.call around) db item user owner funds).trans (if_neg large)
    cases failed.symm.trans debited
  · rw [← drawn]
    exact unused

/-- A purchase that returns met nothing that stops it. -/
theorem purchase_returned {out : PurchaseResult × List Write}
    (returned : (args.call around).body.solo plan around db 0 [] = .ok out) :
    (∃ item sale user, CanBuy args (around.time 2) item sale user db) ∧ Unhindered around db := by
  rw [PurchaseCall.body_eq] at returned
  obtain ⟨spared₀, ws₀, dup, checked, returned⟩ := Tx.solo_returned returned
  cases dup with
  | true => cases returned
  | false =>
    obtain ⟨rfl, unbought⟩ := Prod.mk.inj (Except.ok.inj checked)
    obtain ⟨spared₁, ws₁, window, locked, returned⟩ := Tx.solo_returned returned
    cases window with
    | none => cases returned
    | some window =>
      obtain ⟨rfl, -, item, sale, there, joined, rfl⟩ := plan_selectItemForUpdate locked
      change (if around.time 2 < sale.startsAt ∨ around.time 2 > sale.endsAt then .throw outOfWindow
        else if item.sold ≥ item.quantity then .throw soldOut
        else (args.call around).afterWindow (itemWindow args.saleItemId item sale) :
          Program PurchaseResult).solo plan around db 2 [] = _ at returned
      split at returned
      · cases returned
      rename_i opened
      split at returned
      · cases returned
      rename_i available
      obtain ⟨spared₂, ws₂, balance, charged, returned⟩ := Tx.solo_returned returned
      cases balance with
      | none => cases returned
      | some balance =>
        obtain ⟨rfl, -, user, owner, rfl⟩ := plan_selectBalanceForUpdate charged
        change (if user.balanceCents < item.priceCents then .throw insufficientBalance
          else (args.call around).record (itemWindow args.saleItemId item sale) :
            Program PurchaseResult).solo plan around db 3 [] = _ at returned
        split at returned
        · cases returned
        rename_i funds
        obtain ⟨spared, fits, ⟨draw, unused, new⟩, serial⟩ :=
          record_returned there owner (not_lt.mp funds) returned
        refine ⟨⟨item, sale, user, ?_⟩, ?_, draw, serial⟩
        · refine ⟨new, there, joined, ?_, not_le.mp available, owner, not_lt.mp funds, fits, unused⟩
          exact ⟨not_lt.mp fun early => opened (Or.inl early), not_lt.mp fun late => opened (Or.inr late)⟩
        · intro i high
          obtain rfl | rfl | rfl | low : i = 0 ∨ i = 1 ∨ i = 2 ∨ 3 ≤ i := by omega
          · exact spared₀
          · exact spared₁
          · exact spared₂
          · exact spared i low high

/-! ### The transaction as a whole -/

/-- A purchase succeeds exactly on its conditions and unhindered; then it changes what
`PurchaseArgs.bought` says, and otherwise nothing. -/
theorem purchaseTx_exact (conforms : db.Conforms) (args : PurchaseArgs)
    (around : Surroundings Env Failure) :
    ((∃ result, (args.transaction around db).1 = .ok result) ↔
      (∃ item sale user, CanBuy args (around.time 2) item sale user db) ∧ Unhindered around db) ∧
    (∀ result, (args.transaction around db).1 = .ok result →
      ∃ item, db.flashSaleItems.get? args.saleItemId = some item ∧
        result = ⟨(around.env 5).draw, args.saleItemId, item.priceCents, item.quantity - item.sold - 1⟩ ∧
        (args.transaction around db).2 = args.bought around item db) ∧
    ∀ e, (args.transaction around db).1 = .error e → (args.transaction around db).2 = db := by
  have returns : ∀ result, (args.transaction around db).1 = .ok result →
      (∃ item sale user, CanBuy args (around.time 2) item sale user db) ∧ Unhindered around db := by
    intro result returned
    cases ended : (args.call around).body.solo plan around db 0 [] with
    | ok out => exact purchase_returned ended
    | error e =>
      have threw : args.transaction around db = (.error e, db) := by
        rw [show args.transaction around db = (args.call around).body.transaction plan around db from rfl,
          Tx.transaction, ended]
        rfl
      rw [threw] at returned
      cases returned
  have succeeds : ∀ {item sale user}, CanBuy args (around.time 2) item sale user db →
      Unhindered around db → args.transaction around db =
        (.ok ((args.call around).result item), args.bought around item db) :=
    fun can unhindered => Tx.transaction_ok (can.succeeds unhindered conforms)
  refine ⟨⟨?_, ?_⟩, ?_, ?_⟩
  · rintro ⟨result, returned⟩
    exact returns result returned
  · rintro ⟨⟨item, sale, user, can⟩, unhindered⟩
    exact ⟨_, congrArg Prod.fst (succeeds can unhindered)⟩
  · intro result returned
    obtain ⟨⟨item, sale, user, can⟩, unhindered⟩ := returns result returned
    have done := succeeds can unhindered
    rw [done] at returned ⊢
    refine ⟨item, can.there, ?_, rfl⟩
    rw [← Except.ok.inj returned, PurchaseCall.result, Int.sub_sub]
    rfl
  · intro e threw
    exact Tx.transaction_error threw

end Exact

/-! ### One unit at 100 -/

/-- Statements that draw these numbers, on an hour of the sale. -/
def plainSurroundings (draw : Nat) : Surroundings Env Failure where
  env i := ⟨0, 0, draw + i, draw + i, [], fun _ => true⟩
  time _ := dayStart
  fails _ := none

/-- A shop with one user, who has this balance, and one item at this price. -/
def shopWith (balanceCents priceCents : Int) : Db :=
  { shopDb with
    users := Table.empty.insert 1 ⟨some mail, none, memberHash, .active, balanceCents⟩
    flashSaleItems := Table.empty.insert 4 ⟨3, 2, 5, 0, priceCents⟩ }

theorem Table.only {V : Type} {k id : Uuid} {v row : V}
    (found : ((Table.empty : Table Uuid V).insert k v).get? id = some row) : id = k ∧ row = v := by
  rcases Table.get?_insert_cases found with old | ⟨same, is⟩
  · cases old
  · exact ⟨same.symm, is.symm⟩

theorem shopWith_conforms {balanceCents priceCents : Int} (nonneg : 0 ≤ balanceCents)
    (balance : int8 balanceCents = true) (price : int8 priceCents = true) :
    (shopWith balanceCents priceCents).Conforms := by
  constructor
  · intro id row found
    obtain ⟨-, rfl⟩ := Table.only found
    exact ⟨Or.inl rfl, nonneg, balance⟩
  · intro id row found
    obtain ⟨-, rfl⟩ := Table.only found
    exact ⟨le_rfl, rfl⟩
  · intro id row found
    obtain ⟨-, rfl⟩ := Table.only found
    exact ⟨by decide, by decide⟩
  · intro id row found
    obtain ⟨-, rfl⟩ := Table.only found
    constructor
    · exact (by decide : (0 : Int) < 5)
    · exact (by decide : (0 : Int) ≤ 0 ∧ (0 : Int) ≤ 5)
    · rfl
    · exact price
  · intro id row found
    cases found
  · intro id row found
    cases found
  · intro id row found
    cases found
  · intro id row id' row' found found' _ _
    rw [(Table.only found).1, (Table.only found').1]
  · intro id row id' row' found found' _ _
    rw [(Table.only found).1, (Table.only found').1]
  · intro id row id' row' found found' _ _
    rw [(Table.only found).1, (Table.only found').1]
  · intro id row id' row' found
    cases found
  · intro id row id' row' found
    cases found
  · intro id row found
    cases found
  · intro id row found
    obtain ⟨-, rfl⟩ := Table.only found
    intro absent
    cases absent
  · intro id row found
    obtain ⟨-, rfl⟩ := Table.only found
    intro absent
    cases absent
  · intro id row found
    cases found
  · intro id row found
    cases found

/-- User 1 buys one unit. -/
def plainPurchase : PurchaseArgs := ⟨1, 4, 7, "2026-05-01"⟩

theorem plainSurroundings_unhindered {balanceCents priceCents : Int} :
    Unhindered (plainSurroundings 10) (shopWith balanceCents priceCents) := by
  constructor
  · intro i _
    rfl
  · rfl
  · rfl

theorem purchaseTx_exact_plain :
    (plainPurchase.transaction (plainSurroundings 10) (shopWith 500 100)).1 = .ok ⟨15, 4, 100, 4⟩ ∧
      ∃ result, (plainPurchase.transaction (plainSurroundings 10) (shopWith 500 100)).1 = .ok result := by
  have conforms : (shopWith 500 100).Conforms := shopWith_conforms (by decide) rfl rfl
  have exact_ := purchaseTx_exact conforms plainPurchase (plainSurroundings 10)
  refine ⟨by decide +kernel, exact_.1.mpr ⟨⟨⟨3, 2, 5, 0, 100⟩, ⟨saleName, dayStart, dayStart + 3600000, none⟩,
    ⟨some mail, none, memberHash, .active, 500⟩, ?_⟩, plainSurroundings_unhindered⟩⟩
  constructor
  · intro id row found
    cases found
  · rfl
  · rfl
  · exact ⟨le_rfl, by decide⟩
  · decide
  · rfl
  · decide
  · rfl
  · intro id row found
    cases found

/-- A user with the greatest balance buys at a negative price: every check passes, no
statement fails from outside, and the balance leaves the range of its column. -/
theorem overflowing_balance :
    ∃ db item sale user, db.Conforms ∧ Unhindered (plainSurroundings 10) db ∧
      (∀ id row, db.purchases.get? id = some row →
        ¬(row.userId = plainPurchase.userId ∧ row.day = plainPurchase.day)) ∧
      db.flashSaleItems.get? plainPurchase.saleItemId = some item ∧
      db.flashSales.get? item.flashSaleId = some sale ∧
      (sale.startsAt ≤ dayStart ∧ dayStart ≤ sale.endsAt) ∧ item.sold < item.quantity ∧
      db.users.get? plainPurchase.userId = some user ∧ item.priceCents ≤ user.balanceCents ∧
      (∀ id row, db.purchases.get? id = some row →
        row.idempotencyKey ≠ plainPurchase.idempotencyKey) ∧
      (plainPurchase.transaction (plainSurroundings 10) db).1 = .error (.database .outOfRange) := by
  refine ⟨shopWith 9223372036854775807 (-1), ⟨3, 2, 5, 0, -1⟩,
    ⟨saleName, dayStart, dayStart + 3600000, none⟩,
    ⟨some mail, none, memberHash, .active, 9223372036854775807⟩, shopWith_conforms (by decide) rfl rfl,
    plainSurroundings_unhindered, ?_, rfl, rfl, ⟨le_rfl, by decide⟩, by decide, rfl, by decide, ?_,
    by decide +kernel⟩
  · intro id row found
    cases found
  · intro id row found
    cases found

end FlashSale
