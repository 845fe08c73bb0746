/-
# The constraints of the schema

What every committed state satisfies because the database enforces it: column ranges
and CHECKs, unique indexes, and foreign keys.

The statements check them one row at a time (`plan`), on what their own session sees.
`Db.Conforms` says them of a whole database, with one field for each constraint; an entry
that is NULL is in no unique index. That concurrent transactions keep them is shown in
`Conformance`.
-/
import FlashSale.Statements

namespace FlashSale

open Lib (Table)

/-! ### Rows -/

/-- `users_identifier_present` and `users_balance_nonneg`. -/
structure UserRow.Valid (row : UserRow) : Prop where
  identified : row.email.isSome = true ∨ row.phone.isSome = true
  nonneg : 0 ≤ row.balanceCents
  balance : int8 row.balanceCents = true

/-- `products_stock_nonneg`. -/
structure ProductRow.Valid (row : ProductRow) : Prop where
  nonneg : 0 ≤ row.stock
  stock : int8 row.stock = true

/-- `flash_sales_window_valid`. -/
structure SaleRow.Valid (row : SaleRow) : Prop where
  name : (Lib.Utf16.decode row.name).length ≤ 255
  window : row.startsAt < row.endsAt

/-- `flash_sale_items_quantity_pos` and `flash_sale_items_sold_valid`. Nothing keeps the
price from being negative. -/
structure ItemRow.Valid (row : ItemRow) : Prop where
  positive : 0 < row.quantity
  sold : 0 ≤ row.sold ∧ row.sold ≤ row.quantity
  quantity : int4 row.quantity = true
  price : int8 row.priceCents = true

/-! ### Tables -/

/-- Rows that agree on an index entry are one row. Rows without an entry, as those whose column
is NULL, are not compared. -/
def UniqueOn {V I : Type} (table : Table Uuid V) (entry : V → Option I) : Prop :=
  ∀ id row id' row', table.get? id = some row → table.get? id' = some row' →
    entry row ≠ none → entry row = entry row' → id = id'

/-- The constraints of the schema: the CHECKs and the ranges of each row, and the unique
indexes, in which rows without an entry never collide. References are apart from
them. -/
structure Db.Conforms (db : Db) : Prop where
  users : ∀ id row, db.users.get? id = some row → row.Valid
  products : ∀ id row, db.products.get? id = some row → row.Valid
  sales : ∀ id row, db.flashSales.get? id = some row → row.Valid
  items : ∀ id row, db.flashSaleItems.get? id = some row → row.Valid
  purchases : ∀ id row, db.purchases.get? id = some row → int8 row.priceCents = true
  codes : ∀ id row, db.otpCodes.get? id = some row → int4 row.attempts = true
  events : ∀ id row, db.outbox.get? id = some row → int4 row.attempts = true
  emails : UniqueOn db.users UserRow.email
  phones : UniqueOn db.users UserRow.phone
  saleProducts : UniqueOn db.flashSaleItems fun row => some (row.flashSaleId, row.productId)
  keys : UniqueOn db.purchases fun row => some row.idempotencyKey
  userDays : UniqueOn db.purchases fun row => some (row.userId, row.day)
  codeOwners : ∀ id row, db.otpCodes.get? id = some row → db.users.get? row.userId ≠ none
  itemSales : ∀ id row, db.flashSaleItems.get? id = some row →
    db.flashSales.get? row.flashSaleId ≠ none
  itemProducts : ∀ id row, db.flashSaleItems.get? id = some row →
    db.products.get? row.productId ≠ none
  buyers : ∀ id row, db.purchases.get? id = some row → db.users.get? row.userId ≠ none
  boughtItems : ∀ id row, db.purchases.get? id = some row →
    db.flashSaleItems.get? row.flashSaleItemId ≠ none

end FlashSale
