/-
# A purchase by itself

What `purchaseTx` answers and writes when no other transaction runs: which check of
which rows gives which answer (`finish_*`), and what it writes when every check passes
(`finish_record`). The program is cut at its statements, so that what is left of it
after some statements can be named.

These are the equations of the serial side in `Linearization`. There a purchase among others
is compared with one in its turn, from the statement that it has come to; so every rest
of the program has its equation, and not only the whole.

* `finish_returned`: a purchase that returns leaves its user with one of the day.
* `PurchaseCall.Refused.finish`: a call whose check fails among others throws the same alone.
-/
import FlashSale.Purchase
import FlashSale.Lib.Serial

namespace FlashSale

open Lib (Table Tx Stable)

/-! ### Calls -/

/-- A call of `purchaseTx`, with the identifier and the number that it draws, the
times stamped on its rows, and the time at which it looks at the clock. -/
structure PurchaseCall where
  args : PurchaseArgs
  env : Env
  now : Int

namespace PurchaseCall

variable (call : PurchaseCall)

def body : Program PurchaseResult :=
  purchaseTx call.args.userId call.args.saleItemId call.args.idempotencyKey call.args.day

/-- What the call does from some point on when no other runs. -/
def finish (db : Db) (rest : Program PurchaseResult) (ws : List Write) :
    Except Failure (PurchaseResult × List Write) :=
  rest.alone plan call.env call.now db ws

/-! The program, cut where its statements are. -/

def afterInsert (item : ItemWindow) (purchaseId : Uuid) : Program PurchaseResult := do
  run (.createOutbox
    { event := .purchaseCompleted purchaseId call.args.userId call.args.saleItemId
      idempotencyKey := some call.args.idempotencyKey
      visibleAt := none })
  pure
    { purchaseId := purchaseId
      saleItemId := call.args.saleItemId
      priceCents := item.priceCents
      remainingAllocation := item.quantity - (item.sold + 1) }

def afterDebit (item : ItemWindow) : Program PurchaseResult := do
  let purchaseId ← Tx.statement
    (.createPurchase ⟨call.args.userId, call.args.saleItemId, call.args.day, item.priceCents,
      call.args.idempotencyKey⟩)
    fun e => if e = .unique then alreadyPurchasedToday call.args.day else .database e
  call.afterInsert item purchaseId

def afterCount (item : ItemWindow) : Program PurchaseResult := do
  run (.updateBalance call.args.userId item.priceCents)
  call.afterDebit item

def record (item : ItemWindow) : Program PurchaseResult :=
  recordPurchase call.args.userId call.args.saleItemId call.args.idempotencyKey call.args.day item

def afterWindow (item : ItemWindow) : Program PurchaseResult := do
  match ← run (.selectBalanceForUpdate call.args.userId) with
  | none => .throw insufficientBalance
  | some balanceCents =>
    if balanceCents < item.priceCents then .throw insufficientBalance
    else call.record item

def afterItem (item : ItemWindow) : Program PurchaseResult := do
  let now ← Tx.clock
  if now < item.startsAt ∨ now > item.endsAt then .throw outOfWindow
  else if item.sold ≥ item.quantity then .throw soldOut
  else call.afterWindow item

def afterCheck : Program PurchaseResult := do
  match ← run (.selectItemForUpdate call.args.saleItemId) with
  | none => .throw saleItemNotFound
  | some item => call.afterItem item

theorem body_eq : call.body = (run (.selectPurchasedOn call.args.userId call.args.day) >>= fun dup =>
    if dup then .throw (alreadyPurchasedToday call.args.day) else call.afterCheck) := by
  unfold body purchaseTx afterCheck afterItem afterWindow record
  congr 1
  funext dup
  congr 2
  funext item
  cases item with
  | none => rfl
  | some item =>
    dsimp only
    congr 1
    funext now
    congr 3
    funext balance
    cases balance <;> rfl

theorem record_eq (item : ItemWindow) :
    call.record item = (run (.updateSold call.args.saleItemId) >>= fun _ => call.afterCount item) := rfl

end PurchaseCall

/-! ### What a call does alone -/

/-- The user has a purchase of the day. -/
def BoughtToday (args : PurchaseArgs) (db : Db) : Prop :=
  ∃ id row, db.purchases.get? id = some row ∧ row.userId = args.userId ∧ row.day = args.day

/-- The item of a purchase, with its sale. -/
structure ItemAt (db : Db) (id : Uuid) (item : ItemRow) (sale : SaleRow) : Prop where
  row : db.flashSaleItems.get? id = some item
  joined : db.flashSales.get? item.flashSaleId = some sale

/-- What the locking read returns. -/
def itemWindow (id : Uuid) (item : ItemRow) (sale : SaleRow) : ItemWindow :=
  ⟨id, item.quantity, item.sold, item.priceCents, sale.startsAt, sale.endsAt⟩

/-- The call looks at the clock while the sale is open. -/
def PurchaseCall.Open (call : PurchaseCall) (sale : SaleRow) : Prop :=
  ¬(call.now < sale.startsAt ∨ call.now > sale.endsAt)

/-- The user cannot pay the item. -/
def Short (db : Db) (user : Uuid) (item : ItemRow) : Prop :=
  ∀ row, db.users.get? user = some row → row.balanceCents < item.priceCents

section Alone

variable {call : PurchaseCall} {db : Db} {item : ItemRow} {sale : SaleRow} {user : UserRow}

theorem purchased_iff {userId : Uuid} {day : Day} {db : Db} :
    (db.purchases.any fun _ p => decide (p.userId = userId) && decide (p.day = day)) = true ↔
      ∃ id row, db.purchases.get? id = some row ∧ row.userId = userId ∧ row.day = day := by
  rw [Table.any_iff]
  simp

theorem answer_bought (bought : BoughtToday call.args db) :
    (plan (.selectPurchasedOn call.args.userId call.args.day) call.env db).answer = .ok ([], true) :=
  congrArg (fun b => Except.ok ([], b)) (purchased_iff.mpr bought)

theorem answer_unbought (unbought : ¬ BoughtToday call.args db) :
    (plan (.selectPurchasedOn call.args.userId call.args.day) call.env db).answer = .ok ([], false) :=
  congrArg (fun b => Except.ok ([], b))
    (Bool.eq_false_iff.mpr fun bought => unbought (purchased_iff.mp bought))

theorem answer_missing (missing : ∀ item sale, ¬ ItemAt db call.args.saleItemId item sale) :
    (plan (.selectItemForUpdate call.args.saleItemId) call.env db).answer = .ok ([], none) := by
  cases row : db.flashSaleItems.get? call.args.saleItemId with
  | none => simp [plan, row, reading]
  | some item =>
    cases joined : db.flashSales.get? item.flashSaleId with
    | none => simp [plan, row, joined, reading]
    | some sale => exact absurd ⟨row, joined⟩ (missing item sale)

theorem answer_item (at_ : ItemAt db call.args.saleItemId item sale) :
    (plan (.selectItemForUpdate call.args.saleItemId) call.env db).answer =
      .ok ([], some (itemWindow call.args.saleItemId item sale)) := by
  simp [plan, at_.row, at_.joined, locking, itemWindow]

theorem answer_stranger (absent : db.users.get? call.args.userId = none) :
    (plan (.selectBalanceForUpdate call.args.userId) call.env db).answer = .ok ([], none) := by
  simp [plan, absent, reading]

theorem answer_balance (found : db.users.get? call.args.userId = some user) :
    (plan (.selectBalanceForUpdate call.args.userId) call.env db).answer =
      .ok ([], some user.balanceCents) := by
  simp [plan, found, locking]

/-- The first statement of what is left, when nothing has been written. -/
theorem finish_first {s : Stmt} {onError : DbError → Failure} {ws : List Write} {r : s.Result}
    {k : s.Result → Program PurchaseResult} (read : (plan s call.env db).answer = .ok (ws, r)) :
    call.finish db (Tx.statement s onError >>= k) [] = call.finish db (k r) ws := by
  have first : (plan s call.env (Lib.applyAll db ([] : List Write))).answer = .ok (ws, r) := read
  exact Tx.alone_statement first

theorem finish_bought (bought : BoughtToday call.args db) :
    call.finish db call.body [] = .error (alreadyPurchasedToday call.args.day) := by
  rw [call.body_eq]
  exact (finish_first (answer_bought bought)).trans rfl

theorem finish_unbought (unbought : ¬ BoughtToday call.args db) :
    call.finish db call.body [] = call.finish db call.afterCheck [] := by
  rw [call.body_eq]
  exact (finish_first (answer_unbought unbought)).trans rfl

theorem finish_missing (missing : ∀ item sale, ¬ ItemAt db call.args.saleItemId item sale) :
    call.finish db call.afterCheck [] = .error saleItemNotFound :=
  (finish_first (answer_missing missing)).trans rfl

theorem finish_item (at_ : ItemAt db call.args.saleItemId item sale) :
    call.finish db call.afterCheck [] =
      call.finish db (call.afterItem (itemWindow call.args.saleItemId item sale)) [] :=
  (finish_first (answer_item at_)).trans rfl

theorem finish_clock :
    call.finish db (call.afterItem (itemWindow call.args.saleItemId item sale)) [] = call.finish db
      (if call.now < sale.startsAt ∨ call.now > sale.endsAt then .throw outOfWindow
        else if item.sold ≥ item.quantity then .throw soldOut
        else call.afterWindow (itemWindow call.args.saleItemId item sale)) [] := rfl

theorem finish_closed (closed : ¬ call.Open sale) :
    call.finish db (call.afterItem (itemWindow call.args.saleItemId item sale)) [] =
      .error outOfWindow := by
  rw [finish_clock, if_pos (not_not.mp closed)]
  rfl

theorem finish_soldOut (opened : call.Open sale) (gone : item.quantity ≤ item.sold) :
    call.finish db (call.afterItem (itemWindow call.args.saleItemId item sale)) [] =
      .error soldOut := by
  rw [finish_clock, if_neg opened, if_pos gone]
  rfl

theorem finish_available (opened : call.Open sale) (available : item.sold < item.quantity) :
    call.finish db (call.afterItem (itemWindow call.args.saleItemId item sale)) [] =
      call.finish db (call.afterWindow (itemWindow call.args.saleItemId item sale)) [] := by
  rw [finish_clock, if_neg opened, if_neg (not_le.mpr available)]

theorem finish_balance (found : db.users.get? call.args.userId = some user) :
    call.finish db (call.afterWindow (itemWindow call.args.saleItemId item sale)) [] =
      call.finish db (if user.balanceCents < item.priceCents then .throw insufficientBalance
        else call.record (itemWindow call.args.saleItemId item sale)) [] :=
  (finish_first (answer_balance found)).trans rfl

theorem finish_short (short : Short db call.args.userId item) :
    call.finish db (call.afterWindow (itemWindow call.args.saleItemId item sale)) [] =
      .error insufficientBalance := by
  cases found : db.users.get? call.args.userId with
  | none => exact (finish_first (answer_stranger found)).trans rfl
  | some user =>
    rw [finish_balance found, if_pos (short user found)]
    rfl

theorem finish_funds (found : db.users.get? call.args.userId = some user)
    (funds : item.priceCents ≤ user.balanceCents) :
    call.finish db (call.afterWindow (itemWindow call.args.saleItemId item sale)) [] =
      call.finish db (call.record (itemWindow call.args.saleItemId item sale)) [] := by
  rw [finish_balance found, if_neg (not_lt.mpr funds)]

end Alone

/-! ### The writes of a call -/

/-- The columns of an item are in range. -/
structure ItemRow.InRange (item : ItemRow) : Prop where
  sold : 0 ≤ item.sold
  quantity : int4 item.quantity = true
  price : int8 item.priceCents = true

namespace PurchaseCall

variable (call : PurchaseCall) (item : ItemRow)

def result : PurchaseResult :=
  ⟨call.env.draw, call.args.saleItemId, item.priceCents, item.quantity - (item.sold + 1)⟩

def count : Write := .addSold call.args.saleItemId 1

def debit : Write := .addBalance call.args.userId (-item.priceCents)

def row : PurchaseRow :=
  ⟨call.args.userId, call.args.saleItemId, call.args.day, item.priceCents,
    call.args.idempotencyKey, toColumn call.env.stamp⟩

def event : OutboxRow where
  event := .purchaseCompleted call.env.draw call.args.userId call.args.saleItemId
  status := .pending
  attempts := 0
  visibleAt := toColumn call.env.started
  lastError := none
  idempotencyKey := some call.args.idempotencyKey

def writes : List Write :=
  [call.count, call.debit item, .insertPurchase call.env.draw (call.row item),
    .insertOutbox call.env.serial call.event]

end PurchaseCall

/-- Everything that a call needs to buy, from the locked rows to the entries of the unique
indexes and the number of its event. -/
structure Buys (call : PurchaseCall) (item : ItemRow) (user : UserRow) (db : Db) : Prop where
  rows : PurchaseRows call.args item user db
  inRange : item.InRange
  available : item.sold < item.quantity
  funds : item.priceCents ≤ user.balanceCents
  fits : int8 (user.balanceCents - item.priceCents) = true
  unused : PurchaseUnique call.args call.env.draw db
  unnumbered : db.outbox.get? call.env.serial = none

section Record

variable {call : PurchaseCall} {db : Db} {item : ItemRow} {sale : SaleRow} {user : UserRow}

theorem answer_count (found : db.flashSaleItems.get? call.args.saleItemId = some item)
    (inRange : item.InRange) (available : item.sold < item.quantity) :
    (plan (.updateSold call.args.saleItemId) call.env db).answer = .ok ([call.count], ()) := by
  obtain ⟨sold, quantity, -⟩ := inRange
  simp only [int4, decide_eq_true_eq] at quantity
  have fits : int4 (item.sold + 1) = true := by
    simp only [int4, decide_eq_true_eq]
    omega
  have valid : (decide (0 ≤ item.sold + 1) && decide (item.sold + 1 ≤ item.quantity)) = true := by
    simp only [Bool.and_eq_true, decide_eq_true_eq]
    omega
  simp only [plan, found, fits, valid]
  rfl

theorem answer_debit (found : db.users.get? call.args.userId = some user)
    (funds : item.priceCents ≤ user.balanceCents) :
    (plan (.updateBalance call.args.userId item.priceCents) call.env db).answer =
      if int8 (user.balanceCents - item.priceCents) then .ok ([call.debit item], ())
      else .error .outOfRange := by
  have valid : decide (0 ≤ user.balanceCents - item.priceCents) = true := by
    simp only [decide_eq_true_eq]
    omega
  simp only [plan, found, valid]
  cases int8 (user.balanceCents - item.priceCents) <;> rfl

theorem answer_insert (there : db.flashSaleItems.get? call.args.saleItemId ≠ none)
    (owner : db.users.get? call.args.userId ≠ none) (inRange : item.InRange)
    (key : ∀ id row, db.purchases.get? id = some row → row.idempotencyKey ≠ call.args.idempotencyKey)
    (draw : db.purchases.get? call.env.draw = none) (unbought : ¬ BoughtToday call.args db) :
    (plan (.createPurchase ⟨call.args.userId, call.args.saleItemId, call.args.day, item.priceCents,
      call.args.idempotencyKey⟩) call.env db).answer =
      .ok ([.insertPurchase call.env.draw (call.row item)], call.env.draw) := by
  have unique : (db.purchases.any fun id p => decide (id = call.env.draw) ||
      decide (p.idempotencyKey = call.args.idempotencyKey) ||
      (decide (p.userId = call.args.userId) && decide (p.day = call.args.day))) = false := by
    rw [Table.any_eq_false]
    intro id row found
    have other : id ≠ call.env.draw := by
      rintro rfl
      rw [draw] at found
      cases found
    have unsold : ¬(row.userId = call.args.userId ∧ row.day = call.args.day) := fun same =>
      unbought ⟨id, row, found, same⟩
    simpa [other, key id row found] using unsold
  simp [plan, inserting, violations, inRange.price, unique, there, owner,
    Option.isNone_iff_eq_none, PurchaseData.row, PurchaseCall.row]

theorem answer_duplicate (inRange : item.InRange) (bought : BoughtToday call.args db) :
    (plan (.createPurchase ⟨call.args.userId, call.args.saleItemId, call.args.day, item.priceCents,
      call.args.idempotencyKey⟩) call.env db).answer = .error .unique := by
  obtain ⟨id, row, found, user, day⟩ := bought
  have duplicate : (db.purchases.any fun id p => decide (id = call.env.draw) ||
      decide (p.idempotencyKey = call.args.idempotencyKey) ||
      (decide (p.userId = call.args.userId) && decide (p.day = call.args.day))) = true := by
    rw [Table.any_iff]
    exact ⟨id, row, found, by simp [user, day]⟩
  simp [plan, inserting, violations, inRange.price, duplicate, failing]

theorem answer_event (unnumbered : db.outbox.get? call.env.serial = none) :
    (plan (.createOutbox
      { event := .purchaseCompleted call.env.draw call.args.userId call.args.saleItemId
        idempotencyKey := some call.args.idempotencyKey
        visibleAt := none }) call.env db).answer =
      .ok ([.insertOutbox call.env.serial call.event], ()) := by
  simp [plan, inserting, unnumbered, appended, PurchaseCall.event]

/-- The INSERT after the two updates. -/
theorem answer_entry (rows : PurchaseRows call.args item user db) (inRange : item.InRange)
    (key : ∀ id row, db.purchases.get? id = some row → row.idempotencyKey ≠ call.args.idempotencyKey)
    (draw : db.purchases.get? call.env.draw = none) (unbought : ¬ BoughtToday call.args db) :
    (plan (.createPurchase ⟨call.args.userId, call.args.saleItemId, call.args.day, item.priceCents,
      call.args.idempotencyKey⟩) call.env
      (Lib.applyAll db [call.count, call.debit item])).answer =
      .ok ([.insertPurchase call.env.draw (call.row item)], call.env.draw) := by
  obtain ⟨there, owner⟩ := rows
  have counted : (Lib.applyAll db [call.count, call.debit item]).flashSaleItems.get?
      call.args.saleItemId ≠ none := by
    intro away
    have absent : db.flashSaleItems.get? call.args.saleItemId = none :=
      Table.get?_modify_eq_none.mp away
    rw [absent] at there
    cases there
  have owned : (Lib.applyAll db [call.count, call.debit item]).users.get? call.args.userId ≠ none := by
    intro away
    have absent : db.users.get? call.args.userId = none := Table.get?_modify_eq_none.mp away
    rw [absent] at owner
    cases owner
  exact answer_insert counted owned inRange key draw unbought

/-- A call that has locked its rows and has what it needs buys: its answer, and all that it
writes. -/
theorem finish_record (buys : Buys call item user db) :
    call.finish db (call.record (itemWindow call.args.saleItemId item sale)) [] =
      .ok (call.result item, call.writes item) := by
  obtain ⟨⟨there, owner⟩, inRange, available, funds, fits, ⟨draw, key, day⟩, unnumbered⟩ := buys
  have debited : (plan (.updateBalance call.args.userId item.priceCents) call.env
      (Lib.applyAll db [call.count])).answer = .ok ([call.debit item], ()) :=
    (answer_debit owner funds).trans (if_pos fits)
  have unbought : ¬ BoughtToday call.args db := by
    rintro ⟨id, row, found, same⟩
    exact day id row found same
  have inserted := answer_entry ⟨there, owner⟩ inRange key draw unbought
  have free : (Lib.applyAll db [call.count, call.debit item,
      .insertPurchase call.env.draw (call.row item)]).outbox.get? call.env.serial = none := unnumbered
  have appended := answer_event free
  rw [call.record_eq]
  apply (finish_first (answer_count there inRange available)).trans
  apply (Tx.alone_statement debited).trans
  apply (Tx.alone_statement inserted).trans
  exact (Tx.alone_statement appended).trans rfl

/-- A call whose debit is out of range fails. -/
theorem finish_overflow (rows : PurchaseRows call.args item user db) (inRange : item.InRange)
    (available : item.sold < item.quantity) (funds : item.priceCents ≤ user.balanceCents)
    (large : int8 (user.balanceCents - item.priceCents) = false) :
    call.finish db (call.record (itemWindow call.args.saleItemId item sale)) [] =
      .error (.database .outOfRange) := by
  have debited : (plan (.updateBalance call.args.userId item.priceCents) call.env
      (Lib.applyAll db [call.count])).answer = .error .outOfRange :=
    (answer_debit rows.2 funds).trans (if_neg (Bool.eq_false_iff.mp large))
  rw [call.record_eq]
  exact (finish_first (answer_count rows.1 inRange available)).trans (Tx.alone_failed debited)

end Record

/-! ### Refusals -/

/-- The check that follows a statement fails: the item is sold out, the balance is
too small, or the debit does not fit its column. -/
def PurchaseCall.Refused (call : PurchaseCall) (db : Db) : Stmt → Prop
  | .selectItemForUpdate _ => ∃ item sale, ItemAt db call.args.saleItemId item sale ∧
      call.Open sale ∧ item.quantity ≤ item.sold
  | .selectBalanceForUpdate _ => ∃ item sale, ItemAt db call.args.saleItemId item sale ∧
      call.Open sale ∧ item.sold < item.quantity ∧ Short db call.args.userId item
  | .updateBalance _ _ => ∃ item sale user, ItemAt db call.args.saleItemId item sale ∧
      call.Open sale ∧ item.sold < item.quantity ∧ db.users.get? call.args.userId = some user ∧
      item.priceCents ≤ user.balanceCents ∧ int8 (user.balanceCents - item.priceCents) = false
  | _ => False

/-- What the call throws when the check after the statement fails. -/
def refusal : Stmt → Failure
  | .selectItemForUpdate _ => soldOut
  | .selectBalanceForUpdate _ => insufficientBalance
  | _ => .database .outOfRange

/-- A call that is alone throws the same. -/
theorem PurchaseCall.Refused.finish {call : PurchaseCall} {db : Db} {st : Stmt}
    (refused : call.Refused db st)
    (inRange : ∀ id item, db.flashSaleItems.get? id = some item → item.InRange)
    (unbought : ¬ BoughtToday call.args db) :
    call.finish db call.body [] = .error (refusal st) := by
  rw [finish_unbought unbought]
  cases st with
  | selectItemForUpdate id =>
    obtain ⟨item, sale, at_, opened, gone⟩ := refused
    rw [finish_item at_]
    exact finish_soldOut opened gone
  | selectBalanceForUpdate id =>
    obtain ⟨item, sale, at_, opened, available, short⟩ := refused
    rw [finish_item at_, finish_available opened available]
    exact finish_short short
  | updateBalance id price =>
    obtain ⟨item, sale, user, at_, opened, available, found, funds, large⟩ := refused
    rw [finish_item at_, finish_available opened available, finish_funds found funds]
    exact finish_overflow ⟨at_.row, found⟩ (inRange _ _ at_.row) available funds large
  | _ => exact refused.elim

/-! ### A purchase of the day -/

/-- Purchases stay. -/
theorem stable_bought {args : PurchaseArgs} : Stable Write [] (BoughtToday args) := by
  rintro db w - ⟨id, row, found, same⟩
  cases w with
  | insertPurchase id' row' => exact ⟨id, row, Table.get?_insert_of_some found, same⟩
  | _ => exact ⟨id, row, found, same⟩

/-- A call that returns has written a purchase of the day. -/
theorem finish_returned {call : PurchaseCall} {db : Db} {result : PurchaseResult} {ws : List Write}
    (returned : call.finish db call.body [] = .ok (result, ws)) :
    BoughtToday call.args (Lib.applyAll db ws) := by
  rw [call.body_eq] at returned
  obtain ⟨ws₁, dup, -, returned⟩ := Tx.alone_returned returned
  cases dup with
  | true => cases returned
  | false =>
    obtain ⟨ws₂, item, -, returned⟩ := Tx.alone_returned returned
    cases item with
    | none => cases returned
    | some item =>
      change (if call.now < item.startsAt ∨ call.now > item.endsAt then .throw outOfWindow
        else if item.sold ≥ item.quantity then .throw soldOut
        else call.afterWindow item : Program PurchaseResult).alone plan call.env call.now db _ =
          _ at returned
      split at returned
      · cases returned
      split at returned
      · cases returned
      obtain ⟨ws₃, balance, -, returned⟩ := Tx.alone_returned returned
      cases balance with
      | none => cases returned
      | some balance =>
        dsimp only at returned
        split at returned
        · cases returned
        rw [call.record_eq] at returned
        obtain ⟨ws₄, -, -, returned⟩ := Tx.alone_returned returned
        obtain ⟨ws₅, -, -, returned⟩ := Tx.alone_returned returned
        obtain ⟨ws₆, id, got, returned⟩ := Tx.alone_returned returned
        obtain ⟨rfl, -, fresh, -⟩ := plan_createPurchase got
        obtain ⟨more, rfl⟩ := Tx.alone_extends returned
        rw [Lib.applyAll_append, Lib.applyAll_append]
        refine stable_bought.applyAll (by simp) ⟨id, _, Table.get?_insert_self fresh, rfl, rfl⟩

end FlashSale
