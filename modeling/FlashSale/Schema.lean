/-
# The database schema

The tables of the service with the columns its transactions read or write, the
column-level writes its statements make, and the locks that guard each write:
the row itself, the entries it makes in unique indexes, and a share lock on
every row it references.

`created_at` is modelled for one-time codes and purchases. The other times that
record a change, and the descriptive columns of a product, are not, as no modelled
statement reads them.

The lemmas `stable_*` say which lock keeps which fact about the committed rows
true while other transactions commit.
-/
import FlashSale.Lib.Encoding
import FlashSale.Lib.Table
import FlashSale.Lib.ReadCommitted

namespace FlashSale

open Lib (Table LockMode Lock Storage Stable)

abbrev Uuid := Nat

/-- Text of characters: tokens and keys, which the service makes itself or compares with
what it has made. -/
abbrev Text := List Char

/-- The code units of a JavaScript string, which may be no well-formed text: a surrogate may
stand alone in what a client sends. -/
abbrev CodeUnits := List UInt16

/-- A calendar date, written `YYYY-MM-DD`. -/
abbrev Day := String

/-! ### Rows

Times in columns are milliseconds, as the columns are `TIMESTAMP(3)`. -/

inductive UserStatus where
  | pendingVerification
  | active
  | disabled
deriving DecidableEq

inductive OtpChannel where
  | email
  | phone
deriving DecidableEq

inductive OutboxStatus where
  | pending
  | processed
  | deadLetter
deriving DecidableEq

structure UserRow where
  email : Option CodeUnits
  phone : Option CodeUnits
  passwordHash : String
  status : UserStatus
  balanceCents : Int
deriving DecidableEq

structure OtpRow where
  userId : Uuid
  channel : OtpChannel
  encryptedCode : String
  expiresAt : Int
  used : Bool
  sent : Bool
  attempts : Nat
  createdAt : Int
deriving DecidableEq

structure ProductRow where
  stock : Int
deriving DecidableEq

structure SaleRow where
  name : CodeUnits
  startsAt : Int
  endsAt : Int
  settledAt : Option Int
deriving DecidableEq

structure ItemRow where
  flashSaleId : Uuid
  productId : Uuid
  quantity : Int
  sold : Int
  priceCents : Int
deriving DecidableEq

structure PurchaseRow where
  userId : Uuid
  flashSaleItemId : Uuid
  day : Day
  priceCents : Int
  idempotencyKey : Uuid
  createdAt : Int
deriving DecidableEq

/-- The type of an outbox row together with the payload of that type. Rows of other types can
be there, and have no handler. -/
inductive OutboxEvent where
  | otpSend (userId otpId : Uuid) (channel : OtpChannel) (identifier : CodeUnits)
  | purchaseCompleted (purchaseId userId flashSaleItemId : Uuid)
  | flashSaleCreated (flashSaleId : Uuid) (itemIds : List Uuid)
  | flashSaleSettle (flashSaleId : Uuid)
  | other (type : String)
deriving DecidableEq

structure OutboxRow where
  event : OutboxEvent
  status : OutboxStatus
  attempts : Nat
  visibleAt : Int
  lastError : Option String
  idempotencyKey : Option Uuid
deriving DecidableEq

/-- What the poller sets on a row that it has delivered. -/
inductive OutboxChange where
  | processed
  | deadLetter (attempts : Nat) (lastError : String)
  | retry (attempts : Nat) (lastError : String) (visibleAt : Int)
deriving DecidableEq

def OutboxChange.apply : OutboxChange → OutboxRow → OutboxRow
  | .processed, row => { row with status := .processed }
  | .deadLetter attempts lastError, row =>
      { row with status := .deadLetter, attempts := attempts, lastError := some lastError }
  | .retry attempts lastError visibleAt, row =>
      { row with attempts := attempts, lastError := some lastError, visibleAt := visibleAt }

@[simp] theorem OutboxChange.apply_event (change : OutboxChange) (row : OutboxRow) :
    (change.apply row).event = row.event := by
  cases change <;> rfl

@[simp] theorem OutboxChange.apply_key (change : OutboxChange) (row : OutboxRow) :
    (change.apply row).idempotencyKey = row.idempotencyKey := by
  cases change <;> rfl

/-- The tables that transactions write. Rows of the outbox are numbered by a sequence, and
all others have a UUID. -/
structure Db where
  users : Table Uuid UserRow
  otpCodes : Table Uuid OtpRow
  products : Table Uuid ProductRow
  flashSales : Table Uuid SaleRow
  flashSaleItems : Table Uuid ItemRow
  purchases : Table Uuid PurchaseRow
  outbox : Table Nat OutboxRow

/-! ### Writes and their locks -/

/-- Rows, and entries of unique indexes. An INSERT locks the entries that its row makes, so two
transactions do not make the same one. -/
inductive Resource where
  | user (id : Uuid)
  | userEmail (email : CodeUnits)
  | userPhone (phone : CodeUnits)
  | otpCode (id : Uuid)
  | product (id : Uuid)
  | flashSale (id : Uuid)
  | flashSaleItem (id : Uuid)
  | saleProduct (flashSaleId productId : Uuid)
  | purchase (id : Uuid)
  | idempotencyKey (key : Uuid)
  | userDay (userId : Uuid) (day : Day)
  | outbox (id : Nat)
deriving DecidableEq

/-- The writes of all statements, each to one row. A relative one, such as `addStock`,
changes a row that its lock keeps until the commit. -/
inductive Write where
  | insertUser (id : Uuid) (row : UserRow)
  | addBalance (id : Uuid) (delta : Int)
  | setStatus (id : Uuid) (status : UserStatus)
  | insertOtp (id : Uuid) (row : OtpRow)
  | markSent (id : Uuid)
  | markUsed (id : Uuid)
  | addAttempt (id : Uuid)
  | addStock (id : Uuid) (delta : Int)
  | insertSale (id : Uuid) (row : SaleRow)
  | stampSettled (id : Uuid) (at_ : Int)
  | insertItem (id : Uuid) (row : ItemRow)
  | addSold (id : Uuid) (delta : Int)
  | insertPurchase (id : Uuid) (row : PurchaseRow)
  | insertOutbox (id : Nat) (row : OutboxRow)
  | changeOutbox (id : Nat) (change : OutboxChange)

def Write.apply (db : Db) : Write → Db
  | .insertUser id row => { db with users := db.users.insert id row }
  | .addBalance id delta => { db with
      users := db.users.modify id fun u => { u with balanceCents := u.balanceCents + delta } }
  | .setStatus id status => { db with
      users := db.users.modify id fun u => { u with status := status } }
  | .insertOtp id row => { db with otpCodes := db.otpCodes.insert id row }
  | .markSent id => { db with otpCodes := db.otpCodes.modify id fun o => { o with sent := true } }
  | .markUsed id => { db with otpCodes := db.otpCodes.modify id fun o => { o with used := true } }
  | .addAttempt id => { db with
      otpCodes := db.otpCodes.modify id fun o => { o with attempts := o.attempts + 1 } }
  | .addStock id delta => { db with
      products := db.products.modify id fun p => { p with stock := p.stock + delta } }
  | .insertSale id row => { db with flashSales := db.flashSales.insert id row }
  | .stampSettled id at_ => { db with
      flashSales := db.flashSales.modify id fun s => { s with settledAt := some at_ } }
  | .insertItem id row => { db with flashSaleItems := db.flashSaleItems.insert id row }
  | .addSold id delta => { db with
      flashSaleItems := db.flashSaleItems.modify id fun i => { i with sold := i.sold + delta } }
  | .insertPurchase id row => { db with purchases := db.purchases.insert id row }
  | .insertOutbox id row => { db with outbox := db.outbox.insert id row }
  | .changeOutbox id change => { db with outbox := db.outbox.modify id change.apply }

/-- The entries a user makes in the unique indexes on `email` and `phone`. -/
def UserRow.entries (row : UserRow) : List Resource :=
  row.email.toList.map .userEmail ++ row.phone.toList.map .userPhone

/-- An inserted row and its index entries are locked exclusively, a row it
references against deletion, and an updated row against other updates. -/
def Write.needs : Write → List (Lock Resource)
  | .insertUser id row => (.user id :: row.entries).map fun r => ⟨r, .update⟩
  | .addBalance id _ => [⟨.user id, .noKeyUpdate⟩]
  | .setStatus id _ => [⟨.user id, .noKeyUpdate⟩]
  | .insertOtp id row => [⟨.otpCode id, .update⟩, ⟨.user row.userId, .keyShare⟩]
  | .markSent id => [⟨.otpCode id, .noKeyUpdate⟩]
  | .markUsed id => [⟨.otpCode id, .noKeyUpdate⟩]
  | .addAttempt id => [⟨.otpCode id, .noKeyUpdate⟩]
  | .addStock id _ => [⟨.product id, .noKeyUpdate⟩]
  | .insertSale id _ => [⟨.flashSale id, .update⟩]
  | .stampSettled id _ => [⟨.flashSale id, .noKeyUpdate⟩]
  | .insertItem id row => [⟨.flashSaleItem id, .update⟩,
      ⟨.saleProduct row.flashSaleId row.productId, .update⟩,
      ⟨.flashSale row.flashSaleId, .keyShare⟩, ⟨.product row.productId, .keyShare⟩]
  | .addSold id _ => [⟨.flashSaleItem id, .noKeyUpdate⟩]
  | .insertPurchase id row => [⟨.purchase id, .update⟩, ⟨.idempotencyKey row.idempotencyKey, .update⟩,
      ⟨.userDay row.userId row.day, .update⟩, ⟨.user row.userId, .keyShare⟩,
      ⟨.flashSaleItem row.flashSaleItemId, .keyShare⟩]
  | .insertOutbox id _ => [⟨.outbox id, .update⟩]
  | .changeOutbox id _ => [⟨.outbox id, .noKeyUpdate⟩]

instance : Storage Write Db Resource where
  apply := Write.apply
  needs := Write.needs

/-! ### Facts kept by locks -/

theorem noKeyUpdate_strong : LockMode.noKeyUpdate ≠ .keyShare := by decide

theorem update_strong : LockMode.update ≠ .keyShare := by decide

/-- A lock that keeps other transactions from updating a row. -/
def Guards (L : List (Lock Resource)) (r : Resource) : Prop :=
  ∃ m, m ≠ LockMode.keyShare ∧ (⟨r, m⟩ : Lock Resource) ∈ L

theorem Guards.of_update {L : List (Lock Resource)} {r : Resource}
    (mem : (⟨r, .update⟩ : Lock Resource) ∈ L) : Guards L r :=
  ⟨.update, update_strong, mem⟩

theorem Guards.append_left {L L' : List (Lock Resource)} {r : Resource} (h : Guards L r) :
    Guards (L' ++ L) r := by
  obtain ⟨m, strong, mem⟩ := h
  exact ⟨m, strong, List.mem_append_right _ mem⟩

theorem Guards.append_right {L L' : List (Lock Resource)} {r : Resource} (h : Guards L r) :
    Guards (L ++ L') r := by
  obtain ⟨m, strong, mem⟩ := h
  exact ⟨m, strong, List.mem_append_left _ mem⟩

/-- A guarded resource is not updated and not inserted by another transaction. -/
theorem Guards.excludes {L : List (Lock Resource)} {r : Resource} (guards : Guards L r) {w : Write}
    (free : ∀ n ∈ Storage.needs w, ∀ l ∈ L, l.compatible n = true) {m : LockMode}
    (strong : m ≠ .keyShare) : (⟨r, m⟩ : Lock Resource) ∉ w.needs := by
  intro mem
  obtain ⟨m', strong', held⟩ := guards
  have compatible := Lib.Lock.modes_compatible (free ⟨r, m⟩ mem ⟨r, m'⟩ held)
  cases m <;> cases m' <;> simp_all [LockMode.compatible]

section StableFacts

variable {L : List (Lock Resource)}

/-! A guarded row stays as it is. -/

theorem stable_user {id : Uuid} {row : UserRow} (guards : Guards L (.user id)) :
    Stable Write L fun db : Db => db.users.get? id = some row := by
  intro db w free h
  cases w with
  | insertUser id' row' => exact Table.get?_insert_of_some h
  | addBalance id' delta =>
    have ne : id' ≠ id := by
      rintro rfl
      exact guards.excludes free noKeyUpdate_strong List.mem_cons_self
    exact (Table.get?_modify_ne ne).trans h
  | setStatus id' status =>
    have ne : id' ≠ id := by
      rintro rfl
      exact guards.excludes free noKeyUpdate_strong List.mem_cons_self
    exact (Table.get?_modify_ne ne).trans h
  | _ => exact h

theorem stable_sale {id : Uuid} {row : SaleRow} (guards : Guards L (.flashSale id)) :
    Stable Write L fun db : Db => db.flashSales.get? id = some row := by
  intro db w free h
  cases w with
  | insertSale id' row' => exact Table.get?_insert_of_some h
  | stampSettled id' t =>
    have ne : id' ≠ id := by
      rintro rfl
      exact guards.excludes free noKeyUpdate_strong List.mem_cons_self
    exact (Table.get?_modify_ne ne).trans h
  | _ => exact h

theorem stable_item {id : Uuid} {row : ItemRow} (guards : Guards L (.flashSaleItem id)) :
    Stable Write L fun db : Db => db.flashSaleItems.get? id = some row := by
  intro db w free h
  cases w with
  | insertItem id' row' => exact Table.get?_insert_of_some h
  | addSold id' delta =>
    have ne : id' ≠ id := by
      rintro rfl
      exact guards.excludes free noKeyUpdate_strong List.mem_cons_self
    exact (Table.get?_modify_ne ne).trans h
  | _ => exact h

theorem stable_outbox {id : Nat} {row : OutboxRow} (guards : Guards L (.outbox id)) :
    Stable Write L fun db : Db => db.outbox.get? id = some row := by
  intro db w free h
  cases w with
  | insertOutbox id' row' => exact Table.get?_insert_of_some h
  | changeOutbox id' change =>
    have ne : id' ≠ id := by
      rintro rfl
      exact guards.excludes free noKeyUpdate_strong List.mem_cons_self
    exact (Table.get?_modify_ne ne).trans h
  | _ => exact h

/-- Products are never inserted, so also a fact that an absent product meets stays. -/
theorem stable_product {id : Uuid} (P : Option ProductRow → Prop) (guards : Guards L (.product id)) :
    Stable Write L fun db : Db => P (db.products.get? id) := by
  intro db w free h
  cases w with
  | addStock id' delta =>
    have ne : id' ≠ id := by
      rintro rfl
      exact guards.excludes free noKeyUpdate_strong List.mem_cons_self
    show P ((db.products.modify id' _).get? id)
    rwa [Table.get?_modify_ne ne]
  | _ => exact h

/-! A guarded key that has no row gets none. -/

theorem stable_no_user {id : Uuid} (guards : Guards L (.user id)) :
    Stable Write L fun db : Db => db.users.get? id = none := by
  intro db w free h
  cases w with
  | insertUser id' row' =>
    have ne : id' ≠ id := by
      rintro rfl
      exact guards.excludes free update_strong List.mem_cons_self
    exact (Table.get?_insert_ne ne).trans h
  | addBalance id' delta => exact Table.get?_modify_eq_none.mpr h
  | setStatus id' status => exact Table.get?_modify_eq_none.mpr h
  | _ => exact h

theorem stable_no_otp {id : Uuid} (guards : Guards L (.otpCode id)) :
    Stable Write L fun db : Db => db.otpCodes.get? id = none := by
  intro db w free h
  cases w with
  | insertOtp id' row' =>
    have ne : id' ≠ id := by
      rintro rfl
      exact guards.excludes free update_strong List.mem_cons_self
    exact (Table.get?_insert_ne ne).trans h
  | markSent id' => exact Table.get?_modify_eq_none.mpr h
  | markUsed id' => exact Table.get?_modify_eq_none.mpr h
  | addAttempt id' => exact Table.get?_modify_eq_none.mpr h
  | _ => exact h

theorem stable_no_sale {id : Uuid} (guards : Guards L (.flashSale id)) :
    Stable Write L fun db : Db => db.flashSales.get? id = none := by
  intro db w free h
  cases w with
  | insertSale id' row' =>
    have ne : id' ≠ id := by
      rintro rfl
      exact guards.excludes free update_strong List.mem_cons_self
    exact (Table.get?_insert_ne ne).trans h
  | stampSettled id' t => exact Table.get?_modify_eq_none.mpr h
  | _ => exact h

theorem stable_no_item {id : Uuid} (guards : Guards L (.flashSaleItem id)) :
    Stable Write L fun db : Db => db.flashSaleItems.get? id = none := by
  intro db w free h
  cases w with
  | insertItem id' row' =>
    have ne : id' ≠ id := by
      rintro rfl
      exact guards.excludes free update_strong List.mem_cons_self
    exact (Table.get?_insert_ne ne).trans h
  | addSold id' delta => exact Table.get?_modify_eq_none.mpr h
  | _ => exact h

theorem stable_no_purchase {id : Uuid} (guards : Guards L (.purchase id)) :
    Stable Write L fun db : Db => db.purchases.get? id = none := by
  intro db w free h
  cases w with
  | insertPurchase id' row' =>
    have ne : id' ≠ id := by
      rintro rfl
      exact guards.excludes free update_strong List.mem_cons_self
    exact (Table.get?_insert_ne ne).trans h
  | _ => exact h

theorem stable_no_outbox {id : Nat} (guards : Guards L (.outbox id)) :
    Stable Write L fun db : Db => db.outbox.get? id = none := by
  intro db w free h
  cases w with
  | insertOutbox id' row' =>
    have ne : id' ≠ id := by
      rintro rfl
      exact guards.excludes free update_strong List.mem_cons_self
    exact (Table.get?_insert_ne ne).trans h
  | changeOutbox id' change => exact Table.get?_modify_eq_none.mpr h
  | _ => exact h

/-- Products are never inserted. -/
theorem stable_no_product {id : Uuid} :
    Stable Write L fun db : Db => db.products.get? id = none := by
  intro db w _ h
  cases w with
  | addStock id' delta => exact Table.get?_modify_eq_none.mpr h
  | _ => exact h

/-! A guarded entry of a unique index gets no row. -/

theorem stable_key_unused {key : Uuid} (guards : Guards L (.idempotencyKey key)) :
    Stable Write L fun db : Db =>
      ∀ id row, db.purchases.get? id = some row → row.idempotencyKey ≠ key := by
  intro db w free h
  cases w with
  | insertPurchase id' row' =>
    intro id row found
    rcases Table.get?_insert_cases found with old | ⟨rfl, rfl⟩
    · exact h id row old
    · rintro rfl
      exact guards.excludes free update_strong (by simp [Write.needs])
  | _ => exact h

theorem stable_day_unused {user : Uuid} {day : Day} (guards : Guards L (.userDay user day)) :
    Stable Write L fun db : Db =>
      ∀ id row, db.purchases.get? id = some row → ¬(row.userId = user ∧ row.day = day) := by
  intro db w free h
  cases w with
  | insertPurchase id' row' =>
    intro id row found
    rcases Table.get?_insert_cases found with old | ⟨rfl, rfl⟩
    · exact h id row old
    · rintro ⟨rfl, rfl⟩
      exact guards.excludes free update_strong (by simp [Write.needs])
  | _ => exact h

/-! Facts that need no lock. -/

/-- A user keeps the identifiers the row was inserted with. -/
theorem stable_identifiers {id : Uuid} (P : Option CodeUnits → Option CodeUnits → Prop) :
    Stable Write [] fun db : Db => ∃ row, db.users.get? id = some row ∧ P row.email row.phone := by
  intro db w _ ⟨row, found, holds⟩
  cases w with
  | insertUser id' row' => exact ⟨row, Table.get?_insert_of_some found, holds⟩
  | addBalance id' delta =>
    by_cases same : id' = id
    · subst same
      exact ⟨{ row with balanceCents := row.balanceCents + delta },
        by simp [Storage.apply, Write.apply, Table.get?_modify, found], holds⟩
    · exact ⟨row, (Table.get?_modify_ne same).trans found, holds⟩
  | setStatus id' status =>
    by_cases same : id' = id
    · subst same
      exact ⟨{ row with status := status },
        by simp [Storage.apply, Write.apply, Table.get?_modify, found], holds⟩
    · exact ⟨row, (Table.get?_modify_ne same).trans found, holds⟩
  | _ => exact ⟨row, found, holds⟩

/-- A code stays with the user it was issued to. -/
theorem stable_owned {id : Uuid} (user : Uuid) :
    Stable Write [] fun db : Db => ∃ otp, db.otpCodes.get? id = some otp ∧ otp.userId = user := by
  intro db w _ ⟨otp, found, owner⟩
  have kept : ∀ (id' : Uuid) (f : OtpRow → OtpRow), (∀ o, (f o).userId = o.userId) →
      ∃ otp', (db.otpCodes.modify id' f).get? id = some otp' ∧ otp'.userId = user := by
    intro id' f same
    refine ⟨_, Table.get?_modify_of_some found, ?_⟩
    split
    · exact (same otp).trans owner
    · exact owner
  cases w with
  | insertOtp id' row' => exact ⟨otp, Table.get?_insert_of_some found, owner⟩
  | markSent id' => exact kept id' _ fun _ => rfl
  | markUsed id' => exact kept id' _ fun _ => rfl
  | addAttempt id' => exact kept id' _ fun _ => rfl
  | _ => exact ⟨otp, found, owner⟩

end StableFacts

end FlashSale
