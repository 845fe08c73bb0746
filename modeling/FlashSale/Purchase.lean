/-
# `FlashSaleRepository.purchaseTx`

The purchase transaction, statement by statement, and what its commit does.

The item is locked first and the user second, and both stay locked until the commit. The
day was taken from the clock before the transaction; the check of the day's purchase takes
no lock and is not repeated, so that it is the unique index on user and day that keeps a
second purchase out.

* `purchaseTx_safe`: among any other transactions, a purchase that commits has
  the effect `PurchaseCommits` states, as if it had run at once at its commit;
  and its two counter updates never trip a CHECK.
-/
import FlashSale.Statements
import FlashSale.Lib.Transaction

namespace FlashSale

open Lib (Table Tx Safe Stable Commits Lock)

/-! ### Failures -/

structure AppHttpException where
  code : String
  message : String
  status : Nat
  details : Option Day
deriving DecidableEq

/-- What a transaction of the service throws. -/
inductive Failure where
  | http (e : AppHttpException)
  | database (e : DbError)
  | error (message : String)
deriving DecidableEq

abbrev Program := Tx Stmt Stmt.Result DbError Failure

/-- Run a statement whose failure the program does not catch. -/
def run (s : Stmt) : Program s.Result := Tx.statement s .database

/-! ### The transaction -/

structure PurchaseResult where
  purchaseId : Uuid
  saleItemId : Uuid
  priceCents : Int
  remainingAllocation : Int
deriving DecidableEq

def alreadyPurchasedToday (day : Day) : Failure :=
  .http ⟨"already_purchased_today", "Already purchased today.", 409, some day⟩

def saleItemNotFound : Failure :=
  .http ⟨"sale_item_not_found", "Sale item not found.", 404, none⟩

def outOfWindow : Failure :=
  .http ⟨"out_of_window", "Flash sale not active.", 409, none⟩

def soldOut : Failure :=
  .http ⟨"sold_out", "Sale item sold out.", 409, none⟩

def insufficientBalance : Failure :=
  .http ⟨"insufficient_balance", "Insufficient balance.", 402, none⟩

/-- The writes of the transaction, once the checks have passed. -/
def recordPurchase (userId saleItemId idempotencyKey : Uuid) (day : Day) (item : ItemWindow) :
    Program PurchaseResult := do
  run (.updateSold saleItemId)
  run (.updateBalance userId item.priceCents)
  -- Any P2002 is reported as the daily cap.
  let purchaseId ← Tx.statement
    (.createPurchase ⟨userId, saleItemId, day, item.priceCents, idempotencyKey⟩)
    fun e => if e = .unique then alreadyPurchasedToday day else .database e
  run (.createOutbox
    { event := .purchaseCompleted purchaseId userId saleItemId
      idempotencyKey := some idempotencyKey
      visibleAt := none })
  pure
    { purchaseId := purchaseId
      saleItemId := saleItemId
      priceCents := item.priceCents
      remainingAllocation := item.quantity - (item.sold + 1) }

/-- The body of the transaction. `day` was computed before it began. The item and the
balance are read under locks, and the check of the day is not. -/
def purchaseTx (userId saleItemId idempotencyKey : Uuid) (day : Day) : Program PurchaseResult := do
  if ← run (.selectPurchasedOn userId day) then .throw (alreadyPurchasedToday day)
  else match ← run (.selectItemForUpdate saleItemId) with
    | none => .throw saleItemNotFound
    | some item => do
      let now ← Tx.clock
      if now < item.startsAt ∨ now > item.endsAt then .throw outOfWindow
      else if item.sold ≥ item.quantity then .throw soldOut
      else match ← run (.selectBalanceForUpdate userId) with
        | none => .throw insufficientBalance
        | some balanceCents =>
          if balanceCents < item.priceCents then .throw insufficientBalance
          else recordPurchase userId saleItemId idempotencyKey day item

/-! ### What a commit does -/

structure PurchaseArgs where
  userId : Uuid
  saleItemId : Uuid
  idempotencyKey : Uuid
  day : Day
deriving DecidableEq

/-- The rows a purchase found when it committed, the numbers it drew, and the times
stamped on its rows. -/
structure PurchaseFound where
  item : ItemRow
  user : UserRow
  outboxId : Nat
  visibleAt : Int
  createdAt : Int

/-- One committed purchase, as a single step on the committed rows: what it found there, what it
answers, and the rows afterwards. -/
structure PurchaseCommits (args : PurchaseArgs) (found : PurchaseFound) (result : PurchaseResult)
    (db db' : Db) : Prop where
  item : db.flashSaleItems.get? args.saleItemId = some found.item
  available : found.item.sold < found.item.quantity
  user : db.users.get? args.userId = some found.user
  funds : found.item.priceCents ≤ found.user.balanceCents
  fresh : db.purchases.get? result.purchaseId = none
  key_unused : ∀ id row, db.purchases.get? id = some row →
    row.idempotencyKey ≠ args.idempotencyKey
  day_unused : ∀ id row, db.purchases.get? id = some row →
    ¬(row.userId = args.userId ∧ row.day = args.day)
  outbox_fresh : db.outbox.get? found.outboxId = none
  result_eq : result = ⟨result.purchaseId, args.saleItemId, found.item.priceCents,
    found.item.quantity - (found.item.sold + 1)⟩
  effect : db' = { db with
    flashSaleItems := db.flashSaleItems.modify args.saleItemId
      fun i => { i with sold := i.sold + 1 }
    users := db.users.modify args.userId
      fun u => { u with balanceCents := u.balanceCents + -found.item.priceCents }
    purchases := db.purchases.insert result.purchaseId
      ⟨args.userId, args.saleItemId, args.day, found.item.priceCents, args.idempotencyKey,
        found.createdAt⟩
    outbox := db.outbox.insert found.outboxId
      { event := .purchaseCompleted result.purchaseId args.userId args.saleItemId
        status := .pending
        attempts := 0
        visibleAt := found.visibleAt
        lastError := none
        idempotencyKey := some args.idempotencyKey } }

/-- The errors that a statement of a purchase can meet: the debit never violates
the CHECK on the balance. -/
def PurchaseErrors : Stmt → DbError → Prop
  | .updateBalance _ _, e => e ≠ .check
  | _, _ => True

/-! ### The outline -/

def PurchasePost (args : PurchaseArgs) (result : PurchaseResult) (db db' : Db) : Prop :=
  ∃ found, PurchaseCommits args found result db db'

section Outline

variable {args : PurchaseArgs} {Admits : Env → Prop}

/-- What a purchase knows once it has locked the item and the user. Both rows stay as they are
until its commit. -/
def PurchaseRows (args : PurchaseArgs) (item : ItemRow) (user : UserRow) (db : Db) : Prop :=
  db.flashSaleItems.get? args.saleItemId = some item ∧ db.users.get? args.userId = some user

theorem stable_purchaseRows {L : List (Lock Resource)} {item : ItemRow} {user : UserRow}
    (itemLock : Guards L (.flashSaleItem args.saleItemId)) (userLock : Guards L (.user args.userId)) :
    Stable Write L (PurchaseRows args item user) :=
  (stable_item itemLock).and (stable_user userLock)

/-- What it knows once it has entered its row in the unique indexes. -/
def PurchaseUnique (args : PurchaseArgs) (id : Uuid) (db : Db) : Prop :=
  db.purchases.get? id = none ∧
  (∀ id' row, db.purchases.get? id' = some row → row.idempotencyKey ≠ args.idempotencyKey) ∧
  ∀ id' row, db.purchases.get? id' = some row → ¬(row.userId = args.userId ∧ row.day = args.day)

theorem stable_purchaseUnique {L : List (Lock Resource)} {id : Uuid}
    (idLock : Guards L (.purchase id)) (keyLock : Guards L (.idempotencyKey args.idempotencyKey))
    (dayLock : Guards L (.userDay args.userId args.day)) :
    Stable Write L (PurchaseUnique args id) :=
  (stable_no_purchase idLock).and ((stable_key_unused keyLock).and (stable_day_unused dayLock))

theorem recordPurchase_safe {item : ItemRow} {user : UserRow} {window : ItemWindow}
    (available : item.sold < item.quantity) (funds : item.priceCents ≤ user.balanceCents)
    (read : window.quantity = item.quantity ∧ window.sold = item.sold ∧
      window.priceCents = item.priceCents)
    {L : List (Lock Resource)} (itemLock : Guards L (.flashSaleItem args.saleItemId))
    (userLock : Guards L (.user args.userId)) :
    Safe plan Admits PurchaseErrors (Commits (PurchasePost args))
      (recordPurchase args.userId args.saleItemId args.idempotencyKey args.day window) [] L
      (PurchaseRows args item user) := by
  obtain ⟨quantity, sold, price⟩ := read
  unfold recordPurchase
  rw [quantity, sold, price]
  -- `UPDATE flash_sale_items`
  refine Safe.statement fun env db _ rows => ⟨fun _ _ => trivial, fun ws _ got => ?_⟩
  obtain ⟨rfl, locks⟩ := plan_updateSold got rows.1
  rw [locks]
  refine ⟨_, stable_purchaseRows itemLock.append_left userLock.append_left, rows, ?_⟩
  -- `UPDATE users`
  refine Safe.statement fun env db _ rows =>
    ⟨fun e failed => plan_updateBalance_error failed rows.2 funds, fun ws _ got => ?_⟩
  obtain ⟨rfl, locks⟩ := plan_updateBalance got rows.2
  rw [locks]
  refine ⟨_, stable_purchaseRows itemLock.append_left.append_left userLock.append_left.append_left,
    rows, ?_⟩
  -- `purchase.create`
  refine Safe.statement fun env db _ rows => ⟨fun _ _ => trivial, fun ws id got => ?_⟩
  obtain ⟨rfl, locks, fresh, key, day⟩ := plan_createPurchase got
  rw [locks]
  have entered : ∀ {L' : List (Lock Resource)} {r : Resource},
      (⟨r, .update⟩ : Lock Resource) ∈ (Write.insertPurchase id
        ⟨args.userId, args.saleItemId, args.day, item.priceCents, args.idempotencyKey,
          toColumn env.stamp⟩).needs →
      Guards (Write.needs _ ++ L') r :=
    fun mem => (Guards.of_update mem).append_right
  have idLock := fun L' => @entered L' (.purchase id) (by simp [Write.needs])
  have keyLock := fun L' => @entered L' (.idempotencyKey args.idempotencyKey) (by simp [Write.needs])
  have dayLock := fun L' => @entered L' (.userDay args.userId args.day) (by simp [Write.needs])
  refine ⟨_, (stable_purchaseRows itemLock.append_left.append_left.append_left
    userLock.append_left.append_left.append_left).and
      (stable_purchaseUnique (idLock _) (keyLock _) (dayLock _)), ⟨rows, fresh, key, day⟩, ?_⟩
  -- `outbox.append`
  refine Safe.statement fun env' db _ known => ⟨fun _ _ => trivial, fun ws _ got => ?_⟩
  obtain ⟨rfl, locks, outboxFresh⟩ := plan_createOutbox got
  rw [locks]
  refine ⟨_, ((stable_purchaseRows itemLock.append_left.append_left.append_left.append_left
      userLock.append_left.append_left.append_left.append_left).and
    (stable_purchaseUnique (idLock _).append_left (keyLock _).append_left
      (dayLock _).append_left)).and
    (stable_no_outbox (Guards.of_update (by simp))), ⟨known, outboxFresh⟩, ?_⟩
  rintro db ⟨⟨⟨itemRow, userRow⟩, fresh, key, day⟩, outboxFresh⟩
  exact ⟨⟨item, user, env'.serial, toColumn env'.started, toColumn env.stamp⟩,
    { item := itemRow
      available := available
      user := userRow
      funds := funds
      fresh := fresh
      key_unused := key
      day_unused := day
      outbox_fresh := outboxFresh
      result_eq := rfl
      effect := rfl }⟩

/-- Among any other transactions, a purchase that commits does what
`PurchaseCommits` states, and its debit never trips the balance CHECK. -/
theorem purchaseTx_safe :
    Safe plan Admits PurchaseErrors (Commits (PurchasePost args))
      (purchaseTx args.userId args.saleItemId args.idempotencyKey args.day) [] [] fun _ => True := by
  refine Safe.statement fun env db _ _ => ⟨fun _ _ => trivial, fun ws dup got => ?_⟩
  cases got
  refine ⟨fun _ => True, Stable.const _ _, trivial, ?_⟩
  split
  · trivial
  refine Safe.statement fun env db _ _ => ⟨fun _ _ => trivial, fun ws item got => ?_⟩
  cases item with
  | none => exact ⟨fun _ => True, Stable.const _ _, trivial, trivial⟩
  | some window =>
    obtain ⟨rfl, locks, item, sale, found, -, rfl⟩ := plan_selectItemForUpdate got
    rw [locks]
    refine ⟨_, stable_item (Guards.of_update (by simp)), found, Safe.clock fun now => ?_⟩
    dsimp only
    split
    · trivial
    split
    · trivial
    rename_i inWindow available
    refine Safe.statement fun env db _ facts => ⟨fun _ _ => trivial, fun ws balance got => ?_⟩
    cases balance with
    | none => exact ⟨fun _ => True, Stable.const _ _, trivial, trivial⟩
    | some balance =>
      obtain ⟨rfl, locks, user, userFound, rfl⟩ := plan_selectBalanceForUpdate got
      rw [locks]
      refine ⟨PurchaseRows args item user, stable_purchaseRows (Guards.of_update (by simp))
        (Guards.of_update (by simp)), ⟨facts, userFound⟩, ?_⟩
      dsimp only
      split
      · trivial
      rename_i funds
      exact recordPurchase_safe (not_le.mp available) (not_lt.mp funds) ⟨rfl, rfl, rfl⟩
        (Guards.of_update (by simp)) (Guards.of_update (by simp))

end Outline

end FlashSale
