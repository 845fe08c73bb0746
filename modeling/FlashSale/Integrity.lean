/-
# What a write is checked for

The statements of the service check the constraints of the schema on what their own
session sees, and lock what the checks rest on: the rows they write, the entries these
make in unique indexes, and the rows they reference.

* `Permits.keeps`, `Permits.stable`: a permitted write keeps the constraints, and no
  write that its locks let through takes the permission away.
* `schema`: the constraints as an instance of `Lib.Constraints`.
* `plan_admitted`: a statement that succeeds has checked what it writes.
-/
import FlashSale.Lib.Integrity
import FlashSale.SoloCreation

namespace FlashSale

open Lib (Table Independent)

/-! ### Writes and rows -/

/-- The row that a write inserts or updates. -/
def Write.row : Write → Resource
  | .insertUser id _ => .user id
  | .addBalance id _ => .user id
  | .setStatus id _ => .user id
  | .insertOtp id _ => .otpCode id
  | .markSent id => .otpCode id
  | .markUsed id => .otpCode id
  | .addAttempt id => .otpCode id
  | .addStock id _ => .product id
  | .insertSale id _ => .flashSale id
  | .stampSettled id _ => .flashSale id
  | .insertItem id _ => .flashSaleItem id
  | .addSold id _ => .flashSaleItem id
  | .insertPurchase id _ => .purchase id
  | .insertOutbox id _ => .outbox id
  | .changeOutbox id _ => .outbox id

theorem Write.row_locked (w : Write) : ∃ m, m ≠ Lib.LockMode.keyShare ∧ ⟨w.row, m⟩ ∈ w.needs := by
  cases w with
  | insertUser id row => exact ⟨.update, update_strong, List.mem_cons_self⟩
  | insertOtp id row => exact ⟨.update, update_strong, List.mem_cons_self⟩
  | insertSale id row => exact ⟨.update, update_strong, List.mem_cons_self⟩
  | insertItem id row => exact ⟨.update, update_strong, List.mem_cons_self⟩
  | insertPurchase id row => exact ⟨.update, update_strong, List.mem_cons_self⟩
  | insertOutbox id row => exact ⟨.update, update_strong, List.mem_cons_self⟩
  | _ => exact ⟨.noKeyUpdate, noKeyUpdate_strong, List.mem_cons_self⟩

section Independence

variable {w w' : Write}

/-- Independent writes lock no resource strongly at the same time. -/
theorem independent_apart (independent : Independent w w') {r : Resource} {m m' : Lib.LockMode}
    (strong : m ≠ .keyShare) (strong' : m' ≠ .keyShare) (mem : ⟨r, m⟩ ∈ w.needs) :
    (⟨r, m'⟩ : Lib.Lock Resource) ∉ w'.needs := by
  intro mem'
  have compatible := Lib.Lock.modes_compatible (independent _ mem _ mem')
  cases m <;> cases m' <;> simp_all [Lib.LockMode.compatible]

theorem independent_rows (independent : Independent w w') : w'.row ≠ w.row := by
  obtain ⟨m, strong, mem⟩ := w.row_locked
  obtain ⟨m', strong', mem'⟩ := w'.row_locked
  intro same
  rw [same] at mem'
  exact independent_apart independent strong strong' mem mem'

end Independence

/-- A write changes no row of a table but its own, and that by what it was. So what a write
does to a row can be told from the row alone. -/
structure Local {V K : Type} [DecidableEq K] (table : Db → Table K V) (cell : K → Resource) : Prop where
  other : ∀ (w : Write) db k, w.row ≠ cell k → (table (w.apply db)).get? k = (table db).get? k
  congr : ∀ (w : Write) db db' k, (table db).get? k = (table db').get? k →
    (table (w.apply db)).get? k = (table (w.apply db')).get? k

theorem get?_insert_congr {K V : Type} [DecidableEq K] {t t' : Table K V} {k : K}
    (same : t.get? k = t'.get? k) (k' : K) (v : V) :
    (t.insert k' v).get? k = (t'.insert k' v).get? k := by
  rw [Table.get?_insert, Table.get?_insert, same]

theorem get?_modify_congr {K V : Type} [DecidableEq K] {t t' : Table K V} {k : K}
    (same : t.get? k = t'.get? k) (k' : K) (f : V → V) :
    (t.modify k' f).get? k = (t'.modify k' f).get? k := by
  rw [Table.get?_modify, Table.get?_modify, same]

theorem Local.commute {V K : Type} [DecidableEq K] {table : Db → Table K V} {cell : K → Resource}
    (isLocal : Local table cell) {w w' : Write} (independent : Independent w w') (db : Db) (k : K) :
    (table (w'.apply (w.apply db))).get? k = (table (w.apply (w'.apply db))).get? k := by
  by_cases own : w.row = cell k
  · have other : w'.row ≠ cell k := own ▸ independent_rows independent
    rw [isLocal.other w' _ k other]
    exact isLocal.congr w _ _ k (isLocal.other w' _ k other).symm
  · rw [isLocal.other w _ k own]
    exact isLocal.congr w' _ _ k (isLocal.other w _ k own)

theorem users_local : Local Db.users .user where
  other w db k ne := by
    cases w with
    | insertUser id row => exact Table.get?_insert_ne fun same => ne (congrArg _ same)
    | addBalance id delta => exact Table.get?_modify_ne fun same => ne (congrArg _ same)
    | setStatus id status => exact Table.get?_modify_ne fun same => ne (congrArg _ same)
    | _ => rfl
  congr w db db' k same := by
    cases w with
    | insertUser id row => exact get?_insert_congr same _ _
    | addBalance id delta => exact get?_modify_congr same _ _
    | setStatus id status => exact get?_modify_congr same _ _
    | _ => exact same

theorem otpCodes_local : Local Db.otpCodes .otpCode where
  other w db k ne := by
    cases w with
    | insertOtp id row => exact Table.get?_insert_ne fun same => ne (congrArg _ same)
    | markSent id => exact Table.get?_modify_ne fun same => ne (congrArg _ same)
    | markUsed id => exact Table.get?_modify_ne fun same => ne (congrArg _ same)
    | addAttempt id => exact Table.get?_modify_ne fun same => ne (congrArg _ same)
    | _ => rfl
  congr w db db' k same := by
    cases w with
    | insertOtp id row => exact get?_insert_congr same _ _
    | markSent id => exact get?_modify_congr same _ _
    | markUsed id => exact get?_modify_congr same _ _
    | addAttempt id => exact get?_modify_congr same _ _
    | _ => exact same

theorem products_local : Local Db.products .product where
  other w db k ne := by
    cases w with
    | addStock id delta => exact Table.get?_modify_ne fun same => ne (congrArg _ same)
    | _ => rfl
  congr w db db' k same := by
    cases w with
    | addStock id delta => exact get?_modify_congr same _ _
    | _ => exact same

theorem sales_local : Local Db.flashSales .flashSale where
  other w db k ne := by
    cases w with
    | insertSale id row => exact Table.get?_insert_ne fun same => ne (congrArg _ same)
    | stampSettled id t => exact Table.get?_modify_ne fun same => ne (congrArg _ same)
    | _ => rfl
  congr w db db' k same := by
    cases w with
    | insertSale id row => exact get?_insert_congr same _ _
    | stampSettled id t => exact get?_modify_congr same _ _
    | _ => exact same

theorem items_local : Local Db.flashSaleItems .flashSaleItem where
  other w db k ne := by
    cases w with
    | insertItem id row => exact Table.get?_insert_ne fun same => ne (congrArg _ same)
    | addSold id delta => exact Table.get?_modify_ne fun same => ne (congrArg _ same)
    | _ => rfl
  congr w db db' k same := by
    cases w with
    | insertItem id row => exact get?_insert_congr same _ _
    | addSold id delta => exact get?_modify_congr same _ _
    | _ => exact same

theorem purchases_local : Local Db.purchases .purchase where
  other w db k ne := by
    cases w with
    | insertPurchase id row => exact Table.get?_insert_ne fun same => ne (congrArg _ same)
    | _ => rfl
  congr w db db' k same := by
    cases w with
    | insertPurchase id row => exact get?_insert_congr same _ _
    | _ => exact same

theorem outbox_local : Local Db.outbox .outbox where
  other w db k ne := by
    cases w with
    | insertOutbox id row => exact Table.get?_insert_ne fun same => ne (congrArg _ same)
    | changeOutbox id change => exact Table.get?_modify_ne fun same => ne (congrArg _ same)
    | _ => rfl
  congr w db db' k same := by
    cases w with
    | insertOutbox id row => exact get?_insert_congr same _ _
    | changeOutbox id change => exact get?_modify_congr same _ _
    | _ => exact same

/-- Databases with the same rows. -/
structure Db.Same (db db' : Db) : Prop where
  users : ∀ id, db.users.get? id = db'.users.get? id
  otpCodes : ∀ id, db.otpCodes.get? id = db'.otpCodes.get? id
  products : ∀ id, db.products.get? id = db'.products.get? id
  flashSales : ∀ id, db.flashSales.get? id = db'.flashSales.get? id
  flashSaleItems : ∀ id, db.flashSaleItems.get? id = db'.flashSaleItems.get? id
  purchases : ∀ id, db.purchases.get? id = db'.purchases.get? id
  outbox : ∀ id, db.outbox.get? id = db'.outbox.get? id

theorem Db.Same.apply {db db' : Db} (same : db.Same db') (w : Write) :
    (w.apply db).Same (w.apply db') where
  users id := users_local.congr w _ _ id (same.users id)
  otpCodes id := otpCodes_local.congr w _ _ id (same.otpCodes id)
  products id := products_local.congr w _ _ id (same.products id)
  flashSales id := sales_local.congr w _ _ id (same.flashSales id)
  flashSaleItems id := items_local.congr w _ _ id (same.flashSaleItems id)
  purchases id := purchases_local.congr w _ _ id (same.purchases id)
  outbox id := outbox_local.congr w _ _ id (same.outbox id)

theorem apply_commute (db : Db) {w w' : Write} (independent : Independent w w') :
    (w'.apply (w.apply db)).Same (w.apply (w'.apply db)) where
  users := users_local.commute independent db
  otpCodes := otpCodes_local.commute independent db
  products := products_local.commute independent db
  flashSales := sales_local.commute independent db
  flashSaleItems := items_local.commute independent db
  purchases := purchases_local.commute independent db
  outbox := outbox_local.commute independent db

/-! ### What stays under a write -/

section Kept

variable {w : Write} {db : Db}

/-- Users keep their identifiers, and new ones are those inserted. -/
theorem users_after {id : Uuid} {row : UserRow} (found : (w.apply db).users.get? id = some row) :
    (∃ old, db.users.get? id = some old ∧ old.email = row.email ∧ old.phone = row.phone) ∨
      w = .insertUser id row := by
  cases w with
  | insertUser id' row' =>
    rcases Table.get?_insert_cases found with old | ⟨rfl, rfl⟩
    · exact Or.inl ⟨row, old, rfl, rfl⟩
    · exact Or.inr rfl
  | addBalance id' delta =>
    obtain ⟨old, there, ⟨-, rfl⟩ | ⟨-, rfl⟩⟩ := Table.get?_modify_cases found
    · exact Or.inl ⟨old, there, rfl, rfl⟩
    · exact Or.inl ⟨row, there, rfl, rfl⟩
  | setStatus id' status =>
    obtain ⟨old, there, ⟨-, rfl⟩ | ⟨-, rfl⟩⟩ := Table.get?_modify_cases found
    · exact Or.inl ⟨old, there, rfl, rfl⟩
    · exact Or.inl ⟨row, there, rfl, rfl⟩
  | _ => exact Or.inl ⟨row, found, rfl, rfl⟩

/-- Items keep their sale and product, and new ones are those inserted. -/
theorem items_after {id : Uuid} {row : ItemRow}
    (found : (w.apply db).flashSaleItems.get? id = some row) :
    (∃ old, db.flashSaleItems.get? id = some old ∧ old.flashSaleId = row.flashSaleId ∧
        old.productId = row.productId) ∨ w = .insertItem id row := by
  cases w with
  | insertItem id' row' =>
    rcases Table.get?_insert_cases found with old | ⟨rfl, rfl⟩
    · exact Or.inl ⟨row, old, rfl, rfl⟩
    · exact Or.inr rfl
  | addSold id' delta =>
    obtain ⟨old, there, ⟨-, rfl⟩ | ⟨-, rfl⟩⟩ := Table.get?_modify_cases found
    · exact Or.inl ⟨old, there, rfl, rfl⟩
    · exact Or.inl ⟨row, there, rfl, rfl⟩
  | _ => exact Or.inl ⟨row, found, rfl, rfl⟩

theorem purchases_after {id : Uuid} {row : PurchaseRow}
    (found : (w.apply db).purchases.get? id = some row) :
    db.purchases.get? id = some row ∨ w = .insertPurchase id row := by
  cases w with
  | insertPurchase id' row' =>
    rcases Table.get?_insert_cases found with old | ⟨rfl, rfl⟩
    · exact Or.inl old
    · exact Or.inr rfl
  | _ => exact Or.inl found

/-! Nothing deletes a row that others reference. -/

theorem users_stay {id : Uuid} (there : db.users.get? id ≠ none) :
    (w.apply db).users.get? id ≠ none := by
  cases w with
  | insertUser id' row => exact Table.get?_insert_ne_none.mpr (Or.inl there)
  | addBalance id' delta => exact fun gone => there (Table.get?_modify_eq_none.mp gone)
  | setStatus id' status => exact fun gone => there (Table.get?_modify_eq_none.mp gone)
  | _ => exact there

theorem products_stay {id : Uuid} (there : db.products.get? id ≠ none) :
    (w.apply db).products.get? id ≠ none := by
  cases w with
  | addStock id' delta => exact fun gone => there (Table.get?_modify_eq_none.mp gone)
  | _ => exact there

theorem sales_stay {id : Uuid} (there : db.flashSales.get? id ≠ none) :
    (w.apply db).flashSales.get? id ≠ none := by
  cases w with
  | insertSale id' row => exact Table.get?_insert_ne_none.mpr (Or.inl there)
  | stampSettled id' t => exact fun gone => there (Table.get?_modify_eq_none.mp gone)
  | _ => exact there

theorem items_stay {id : Uuid} (there : db.flashSaleItems.get? id ≠ none) :
    (w.apply db).flashSaleItems.get? id ≠ none := by
  cases w with
  | insertItem id' row => exact Table.get?_insert_ne_none.mpr (Or.inl there)
  | addSold id' delta => exact fun gone => there (Table.get?_modify_eq_none.mp gone)
  | _ => exact there

end Kept

/-! ### The checks of a write -/

/-- What the constraints ask of a write: the new row is valid, its entries in unique
indexes are its own, and the rows that it references are there. -/
def Permits (db : Db) : Write → Prop
  | .insertUser _ row => row.Valid ∧
      ∀ id other, db.users.get? id = some other → row.clashes other = false
  | .addBalance id delta => ∀ row, db.users.get? id = some row →
      0 ≤ row.balanceCents + delta ∧ int8 (row.balanceCents + delta) = true
  | .insertOtp _ row => int4 row.attempts = true ∧ db.users.get? row.userId ≠ none
  | .addAttempt id => ∀ otp, db.otpCodes.get? id = some otp → int4 (otp.attempts + 1) = true
  | .addStock id delta => ∀ row, db.products.get? id = some row →
      0 ≤ row.stock + delta ∧ int8 (row.stock + delta) = true
  | .insertSale _ row => row.Valid
  | .insertItem _ row => row.Valid ∧
      (∀ id other, db.flashSaleItems.get? id = some other →
        ¬(other.flashSaleId = row.flashSaleId ∧ other.productId = row.productId)) ∧
      db.flashSales.get? row.flashSaleId ≠ none ∧ db.products.get? row.productId ≠ none
  | .addSold id delta => ∀ row, db.flashSaleItems.get? id = some row →
      0 ≤ row.sold + delta ∧ row.sold + delta ≤ row.quantity
  | .insertPurchase _ row => int8 row.priceCents = true ∧
      (∀ id other, db.purchases.get? id = some other →
        other.idempotencyKey ≠ row.idempotencyKey ∧
        ¬(other.userId = row.userId ∧ other.day = row.day)) ∧
      db.users.get? row.userId ≠ none ∧ db.flashSaleItems.get? row.flashSaleItemId ≠ none
  | .insertOutbox _ row => int4 row.attempts = true
  | .changeOutbox id change => ∀ row, db.outbox.get? id = some row →
      int4 (change.apply row).attempts = true
  | _ => True

/-- A check reads rows only. -/
theorem Permits.same {db db' : Db} {w : Write} (same : db.Same db') (permits : Permits db w) :
    Permits db' w := by
  cases w <;> simp only [Permits] at permits ⊢ <;>
    simpa only [← same.users, ← same.otpCodes, ← same.products, ← same.flashSales,
      ← same.flashSaleItems, ← same.purchases, ← same.outbox] using permits

/-- Users whose entries in the unique indexes are locked by different sessions do not
clash. -/
theorem clashes_false {w' : Write} {id id' : Uuid} {row other : UserRow}
    (independent : Independent (.insertUser id row) w') (inserts : w' = .insertUser id' other) :
    row.clashes other = false := by
  subst inserts
  have apart : ∀ r, (⟨r, .update⟩ : Lib.Lock Resource) ∈ (Write.insertUser id row).needs →
      ⟨r, .update⟩ ∉ (Write.insertUser id' other).needs :=
    fun r mem => independent_apart independent update_strong update_strong mem
  have emails : ∀ text, row.email = some text → other.email ≠ some text := by
    intro text own its
    exact apart (.userEmail text) (by simp [Write.needs, UserRow.entries, own])
      (by simp [Write.needs, UserRow.entries, its])
  have phones : ∀ text, row.phone = some text → other.phone ≠ some text := by
    intro text own its
    exact apart (.userPhone text) (by simp [Write.needs, UserRow.entries, own])
      (by simp [Write.needs, UserRow.entries, its])
  simp only [UserRow.clashes, Bool.or_eq_false_iff, Bool.and_eq_false_iff, decide_eq_false_iff_not]
  constructor
  · cases email : row.email with
    | none => exact Or.inl rfl
    | some text => exact Or.inr (emails text email)
  · cases phone : row.phone with
    | none => exact Or.inl rfl
    | some text => exact Or.inr (phones text phone)

/-- A write stays permitted under writes that its locks do not exclude. This is what the locks of
a statement are for. -/
theorem Permits.stable {db : Db} {w w' : Write} (independent : Independent w w')
    (permits : Permits db w) : Permits (w'.apply db) w := by
  have ne := independent_rows independent
  cases w with
  | insertUser id row =>
    refine ⟨permits.1, fun id' other found => ?_⟩
    rcases users_after found with ⟨old, there, email, phone⟩ | inserts
    · have clear := permits.2 id' old there
      rwa [UserRow.clashes, email, phone] at clear
    · exact clashes_false independent inserts
  | addBalance id delta =>
    intro row found
    exact permits row ((users_local.other w' db id ne) ▸ found)
  | insertOtp id row => exact ⟨permits.1, users_stay permits.2⟩
  | addAttempt id =>
    intro row found
    exact permits row ((otpCodes_local.other w' db id ne) ▸ found)
  | addStock id delta =>
    intro row found
    exact permits row ((products_local.other w' db id ne) ▸ found)
  | insertSale id row => exact permits
  | insertItem id row =>
    obtain ⟨valid, unique, sale, product⟩ := permits
    refine ⟨valid, ?_, sales_stay sale, products_stay product⟩
    intro id' other found same
    rcases items_after found with ⟨old, there, ofSale, ofProduct⟩ | rfl
    · exact unique id' old there ⟨ofSale.trans same.1, ofProduct.trans same.2⟩
    · refine independent_apart independent (r := .saleProduct row.flashSaleId row.productId)
        update_strong update_strong (by simp [Write.needs]) ?_
      simp [Write.needs, same.1, same.2]
  | addSold id delta =>
    intro row found
    exact permits row ((items_local.other w' db id ne) ▸ found)
  | insertPurchase id row =>
    obtain ⟨price, unique, buyer, item⟩ := permits
    refine ⟨price, ?_, users_stay buyer, items_stay item⟩
    intro id' other found
    rcases purchases_after found with old | rfl
    · exact unique id' other old
    · constructor
      · intro same
        refine independent_apart independent (r := .idempotencyKey row.idempotencyKey)
          update_strong update_strong (by simp [Write.needs]) ?_
        simp [Write.needs, same]
      · rintro ⟨user, day⟩
        refine independent_apart independent (r := .userDay row.userId row.day)
          update_strong update_strong (by simp [Write.needs]) ?_
        simp [Write.needs, user, day]
  | insertOutbox id row => exact permits
  | changeOutbox id change =>
    intro row found
    exact permits row ((outbox_local.other w' db id ne) ▸ found)
  | _ => trivial

/-! ### Permitted writes keep the constraints -/

section Tables

variable {K V I : Type} [DecidableEq K] {t : Table K V} {P : V → Prop}

theorem rows_insert {k : K} {v : V} (all : ∀ id row, t.get? id = some row → P row) (new : P v) :
    ∀ id row, (t.insert k v).get? id = some row → P row := by
  intro id row found
  rcases Table.get?_insert_cases found with old | ⟨-, rfl⟩
  · exact all id row old
  · exact new

theorem rows_modify {k : K} {f : V → V} (all : ∀ id row, t.get? id = some row → P row)
    (changed : ∀ row, t.get? k = some row → P row → P (f row)) :
    ∀ id row, (t.modify k f).get? id = some row → P row := by
  intro id row found
  obtain ⟨old, there, ⟨rfl, rfl⟩ | ⟨-, rfl⟩⟩ := Table.get?_modify_cases found
  · exact changed old there (all k old there)
  · exact all id row there

end Tables

section Unique

variable {V I : Type} {t : Table Uuid V} {entry : V → Option I}

theorem UniqueOn.insert (unique : UniqueOn t entry) {k : Uuid} {v : V}
    (new : ∀ id row, t.get? id = some row → entry v ≠ none → entry row ≠ entry v) :
    UniqueOn (t.insert k v) entry := by
  intro id row id' row' found found' has same
  rcases Table.get?_insert_cases found with old | ⟨rfl, rfl⟩
  · rcases Table.get?_insert_cases found' with old' | ⟨rfl, rfl⟩
    · exact unique id row id' row' old old' has same
    · exact absurd same (new id row old (same ▸ has))
  · rcases Table.get?_insert_cases found' with old' | ⟨rfl, rfl⟩
    · exact absurd same.symm (new id' row' old' has)
    · rfl

theorem UniqueOn.modify (unique : UniqueOn t entry) {k : Uuid} {f : V → V}
    (kept : ∀ row, entry (f row) = entry row) : UniqueOn (t.modify k f) entry := by
  have before : ∀ {id row}, (t.modify k f).get? id = some row →
      ∃ old, t.get? id = some old ∧ entry row = entry old := by
    intro id row found
    obtain ⟨old, there, ⟨-, rfl⟩ | ⟨-, rfl⟩⟩ := Table.get?_modify_cases found
    · exact ⟨old, there, kept old⟩
    · exact ⟨row, there, rfl⟩
  intro id row id' row' found found' has same
  obtain ⟨old, there, eq⟩ := before found
  obtain ⟨old', there', eq'⟩ := before found'
  exact unique id old id' old' there there' (eq ▸ has) (eq ▸ eq' ▸ same)

end Unique

/-- Users without clashes have identifiers of their own. -/
theorem clashes_apart {row other : UserRow} (clear : row.clashes other = false) :
    (row.email ≠ none → other.email ≠ row.email) ∧ (row.phone ≠ none → other.phone ≠ row.phone) := by
  simp only [UserRow.clashes, Bool.or_eq_false_iff, Bool.and_eq_false_iff,
    decide_eq_false_iff_not] at clear
  constructor
  · intro has same
    rcases clear.1 with absent | differs
    · exact has (Option.isNone_iff_eq_none.mp (by simpa using absent))
    · exact differs same
  · intro has same
    rcases clear.2 with absent | differs
    · exact has (Option.isNone_iff_eq_none.mp (by simpa using absent))
    · exact differs same

section Keep

variable {db : Db}

theorem insertUser_keeps (conforms : db.Conforms) {id : Uuid} {row : UserRow}
    (permits : Permits db (.insertUser id row)) :
    ({ db with users := db.users.insert id row } : Db).Conforms :=
  { conforms with
    users := rows_insert conforms.users permits.1
    emails := conforms.emails.insert fun id' other there =>
      (clashes_apart (permits.2 id' other there)).1
    phones := conforms.phones.insert fun id' other there =>
      (clashes_apart (permits.2 id' other there)).2
    codeOwners := fun id' code found =>
      Table.get?_insert_ne_none.mpr (Or.inl (conforms.codeOwners id' code found))
    buyers := fun id' purchase found =>
      Table.get?_insert_ne_none.mpr (Or.inl (conforms.buyers id' purchase found)) }

/-- An update of a user that leaves the identifiers. -/
theorem modifyUser_keeps (conforms : db.Conforms) {id : Uuid} {f : UserRow → UserRow}
    (email : ∀ row, (f row).email = row.email) (phone : ∀ row, (f row).phone = row.phone)
    (valid : ∀ row, db.users.get? id = some row → row.Valid → (f row).Valid) :
    ({ db with users := db.users.modify id f } : Db).Conforms :=
  { conforms with
    users := rows_modify conforms.users valid
    emails := conforms.emails.modify email
    phones := conforms.phones.modify phone
    codeOwners := fun id' code found gone =>
      conforms.codeOwners id' code found (Table.get?_modify_eq_none.mp gone)
    buyers := fun id' purchase found gone =>
      conforms.buyers id' purchase found (Table.get?_modify_eq_none.mp gone) }

theorem insertOtp_keeps (conforms : db.Conforms) {id : Uuid} {row : OtpRow}
    (permits : Permits db (.insertOtp id row)) :
    ({ db with otpCodes := db.otpCodes.insert id row } : Db).Conforms :=
  { conforms with
    codes := rows_insert conforms.codes permits.1
    codeOwners := rows_insert conforms.codeOwners permits.2 }

theorem modifyOtp_keeps (conforms : db.Conforms) {id : Uuid} {f : OtpRow → OtpRow}
    (owner : ∀ row, (f row).userId = row.userId)
    (attempts : ∀ row, db.otpCodes.get? id = some row → int4 row.attempts = true →
      int4 (f row).attempts = true) :
    ({ db with otpCodes := db.otpCodes.modify id f } : Db).Conforms :=
  { conforms with
    codes := rows_modify conforms.codes attempts
    codeOwners := rows_modify conforms.codeOwners fun row _ there => (owner row).symm ▸ there }

theorem addStock_keeps (conforms : db.Conforms) {id : Uuid} {delta : Int}
    (permits : Permits db (.addStock id delta)) :
    ((Write.addStock id delta).apply db).Conforms :=
  { conforms with
    products := rows_modify conforms.products fun row found _ =>
      ⟨(permits row found).1, (permits row found).2⟩
    itemProducts := fun id' item found gone =>
      conforms.itemProducts id' item found (Table.get?_modify_eq_none.mp gone) }

theorem insertSale_keeps (conforms : db.Conforms) {id : Uuid} {row : SaleRow} (valid : row.Valid) :
    ((Write.insertSale id row).apply db).Conforms :=
  { conforms with
    sales := rows_insert conforms.sales valid
    itemSales := fun id' item found =>
      Table.get?_insert_ne_none.mpr (Or.inl (conforms.itemSales id' item found)) }

theorem stampSettled_keeps (conforms : db.Conforms) {id : Uuid} {t : Int} :
    ((Write.stampSettled id t).apply db).Conforms :=
  { conforms with
    sales := rows_modify conforms.sales fun _ _ valid => ⟨valid.name, valid.window⟩
    itemSales := fun id' item found gone =>
      conforms.itemSales id' item found (Table.get?_modify_eq_none.mp gone) }

theorem insertItem_keeps (conforms : db.Conforms) {id : Uuid} {row : ItemRow}
    (permits : Permits db (.insertItem id row)) : ((Write.insertItem id row).apply db).Conforms :=
  { conforms with
    items := rows_insert conforms.items permits.1
    saleProducts := conforms.saleProducts.insert fun id' other there _ same =>
      permits.2.1 id' other there (Prod.mk.inj (Option.some.inj same))
    itemSales := rows_insert conforms.itemSales permits.2.2.1
    itemProducts := rows_insert conforms.itemProducts permits.2.2.2
    boughtItems := fun id' purchase found =>
      Table.get?_insert_ne_none.mpr (Or.inl (conforms.boughtItems id' purchase found)) }

theorem addSold_keeps (conforms : db.Conforms) {id : Uuid} {delta : Int}
    (permits : Permits db (.addSold id delta)) : ((Write.addSold id delta).apply db).Conforms :=
  { conforms with
    items := rows_modify conforms.items fun row found valid =>
      ⟨valid.positive, permits row found, valid.quantity, valid.price⟩
    saleProducts := conforms.saleProducts.modify fun _ => rfl
    itemSales := rows_modify conforms.itemSales fun _ _ there => there
    itemProducts := rows_modify conforms.itemProducts fun _ _ there => there
    boughtItems := fun id' purchase found gone =>
      conforms.boughtItems id' purchase found (Table.get?_modify_eq_none.mp gone) }

theorem insertPurchase_keeps (conforms : db.Conforms) {id : Uuid} {row : PurchaseRow}
    (permits : Permits db (.insertPurchase id row)) :
    ((Write.insertPurchase id row).apply db).Conforms :=
  { conforms with
    purchases := rows_insert conforms.purchases permits.1
    keys := conforms.keys.insert fun id' other there _ same =>
      (permits.2.1 id' other there).1 (Option.some.inj same)
    userDays := conforms.userDays.insert fun id' other there _ same =>
      (permits.2.1 id' other there).2 (Prod.mk.inj (Option.some.inj same))
    buyers := rows_insert conforms.buyers permits.2.2.1
    boughtItems := rows_insert conforms.boughtItems permits.2.2.2 }

/-- A permitted write keeps the constraints. One case for each write, as each has its own
rows to compare with. -/
theorem Permits.keeps (conforms : db.Conforms) {w : Write} (permits : Permits db w) :
    (w.apply db).Conforms := by
  cases w with
  | insertUser id row => exact insertUser_keeps conforms permits
  | addBalance id delta =>
    refine modifyUser_keeps conforms (fun _ => rfl) (fun _ => rfl) fun row found valid => ?_
    exact ⟨valid.identified, (permits row found).1, (permits row found).2⟩
  | setStatus id status =>
    refine modifyUser_keeps conforms (fun _ => rfl) (fun _ => rfl) fun _ _ valid => ?_
    exact ⟨valid.identified, valid.nonneg, valid.balance⟩
  | insertOtp id row => exact insertOtp_keeps conforms permits
  | markSent id => exact modifyOtp_keeps conforms (fun _ => rfl) fun _ _ fits => fits
  | markUsed id => exact modifyOtp_keeps conforms (fun _ => rfl) fun _ _ fits => fits
  | addAttempt id => exact modifyOtp_keeps conforms (fun _ => rfl) fun otp found _ => permits otp found
  | addStock id delta => exact addStock_keeps conforms permits
  | insertSale id row => exact insertSale_keeps conforms permits
  | stampSettled id t => exact stampSettled_keeps conforms
  | insertItem id row => exact insertItem_keeps conforms permits
  | addSold id delta => exact addSold_keeps conforms permits
  | insertPurchase id row => exact insertPurchase_keeps conforms permits
  | insertOutbox id row => exact { conforms with events := rows_insert conforms.events permits }
  | changeOutbox id change =>
    exact { conforms with events := rows_modify conforms.events fun row found _ => permits row found }

end Keep

/-- The constraints of the schema, as an instance of the library: what a database must satisfy,
and what a write has been checked for. -/
def schema : Lib.Constraints Write where
  Met := Db.Conforms
  Permits := Permits
  Same := Db.Same
  keep := fun conforms permits => permits.keeps conforms
  permits_same := fun same permits => permits.same same
  apply_same := fun w same => same.apply w
  commute := fun db _ _ independent => apply_commute db independent
  stable := fun independent permits => permits.stable independent

/-! ### Statements check what they write -/

section Checked

variable {ρ : Type} {db : Db} {w : Write} {ws : List Write} {r : ρ}

theorem admitted_one (permits : Permits db w) : schema.Admitted db [w] := ⟨permits, trivial⟩

theorem admitted_reading {r' : ρ}
    (got : (reading r : Lib.Outcome Write Resource DbError ρ).answer = .ok (ws, r')) :
    schema.Admitted db ws := by
  cases got
  trivial

theorem admitted_locking {res : Resource} {r' : ρ}
    (got : (locking res r : Lib.Outcome Write Resource DbError ρ).answer = .ok (ws, r')) :
    schema.Admitted db ws := by
  cases got
  trivial

theorem admitted_updating {violated : Option DbError} {r : Unit}
    (got : (updating w violated).answer = .ok (ws, r)) (checked : violated = none → Permits db w) :
    schema.Admitted db ws := by
  obtain ⟨valid, rfl, -⟩ := updating_ok got
  exact admitted_one (checked valid)

theorem admitted_inserting {result : ρ} {violated : Option DbError} {duplicate orphan : Bool}
    (got : (inserting w result violated duplicate orphan).answer = .ok (ws, r))
    (checked : violated = none → duplicate = false → orphan = false → Permits db w) :
    schema.Admitted db ws := by
  obtain ⟨valid, unique, parents, rfl, -, -⟩ := inserting_ok got
  exact admitted_one (checked valid unique parents)

theorem isNone_or_false {A B : Type} {a : Option A} {b : Option B}
    (neither : (a.isNone || b.isNone) = false) : a ≠ none ∧ b ≠ none := by
  cases a <;> cases b <;> simp at neither ⊢

variable {env : Env}

theorem createPurchase_checked {data : PurchaseData} {id : Uuid}
    (got : (plan (.createPurchase data) env db).answer = .ok (ws, id)) : schema.Admitted db ws := by
  refine admitted_inserting got fun valid unique parents => ?_
  have price := (violations_eq_none.mp valid).1
  have clear := Table.any_eq_false.mp unique
  simp only [Bool.or_eq_false_iff, Bool.and_eq_false_iff, decide_eq_false_iff_not] at clear
  refine ⟨price, fun id' other there => ⟨(clear id' other there).1.2, ?_⟩, isNone_or_false parents⟩
  rintro ⟨user, day⟩
  rcases (clear id' other there).2 with differs | differs
  · exact differs user
  · exact differs day

theorem createItem_checked {flashSaleId productId id : Uuid} {quantity priceCents : Int}
    (got : (plan (.createItem flashSaleId productId quantity priceCents) env db).answer =
      .ok (ws, id)) : schema.Admitted db ws := by
  refine admitted_inserting got fun valid unique parents => ?_
  obtain ⟨ranges, positive⟩ := violations_eq_none.mp valid
  rw [Bool.and_eq_true] at ranges
  rw [decide_eq_true_eq] at positive
  have clear := Table.any_eq_false.mp unique
  simp only [Bool.or_eq_false_iff, Bool.and_eq_false_iff, decide_eq_false_iff_not] at clear
  refine ⟨⟨positive, ⟨le_rfl, le_of_lt positive⟩, ranges.1, ranges.2⟩, ?_, isNone_or_false parents⟩
  rintro id' other there ⟨sale, product⟩
  rcases (clear id' other there).2 with differs | differs
  · exact differs sale
  · exact differs product

theorem createUser_checked {email phone : Option CodeUnits} {passwordHash : String} {id : Uuid}
    (got : (plan (.createUser email phone passwordHash) env db).answer = .ok (ws, id)) :
    schema.Admitted db ws := by
  refine admitted_inserting got fun valid unique _ => ?_
  have identified := (violations_eq_none.mp valid).2
  rw [Bool.or_eq_true] at identified
  refine ⟨⟨identified, le_rfl, rfl⟩, fun id' other there => ?_⟩
  exact (Bool.or_eq_false_iff.mp (Table.any_eq_false.mp unique id' other there)).2

/-- A range check and a CHECK that an update has passed. -/
theorem violations_none {inRange : Bool} {p q : Prop} [Decidable p] [Decidable q]
    (valid : violations inRange (decide p && decide q) = none) : inRange = true ∧ p ∧ q := by
  obtain ⟨range, check⟩ := violations_eq_none.mp valid
  rw [Bool.and_eq_true, decide_eq_true_eq, decide_eq_true_eq] at check
  exact ⟨range, check⟩

theorem updateSold_checked {id : Uuid} {r : (Stmt.updateSold id).Result}
    (got : (plan (.updateSold id) env db).answer = .ok (ws, r)) : schema.Admitted db ws := by
  dsimp only [plan] at got
  split at got
  · exact admitted_reading got
  rename_i item found
  refine admitted_updating got fun valid row there => ?_
  rw [found] at there
  cases there
  exact (violations_none valid).2

theorem updateBalance_checked {userId : Uuid} {priceCents : Int}
    {r : (Stmt.updateBalance userId priceCents).Result}
    (got : (plan (.updateBalance userId priceCents) env db).answer = .ok (ws, r)) :
    schema.Admitted db ws := by
  dsimp only [plan] at got
  split at got
  · exact admitted_reading got
  rename_i user found
  refine admitted_updating got fun valid row there => ?_
  rw [found] at there
  cases there
  obtain ⟨range, check⟩ := violations_eq_none.mp valid
  rw [decide_eq_true_eq, Int.sub_eq_add_neg] at check
  rw [Int.sub_eq_add_neg] at range
  exact ⟨check, range⟩

theorem updateStock_checked {id : Uuid} {delta : Int} {r : (Stmt.updateStock id delta).Result}
    (got : (plan (.updateStock id delta) env db).answer = .ok (ws, r)) : schema.Admitted db ws := by
  dsimp only [plan] at got
  split at got
  · exact admitted_reading got
  rename_i product found
  refine admitted_updating got fun valid row there => ?_
  rw [found] at there
  cases there
  obtain ⟨range, check⟩ := violations_eq_none.mp valid
  exact ⟨of_decide_eq_true check, range⟩

theorem incrementAttempts_checked {id : Uuid} {r : (Stmt.incrementAttempts id).Result}
    (got : (plan (.incrementAttempts id) env db).answer = .ok (ws, r)) : schema.Admitted db ws := by
  dsimp only [plan] at got
  split at got
  · cases got
  rename_i otp found
  refine admitted_updating got fun valid row there => ?_
  rw [found] at there
  cases there
  exact (violations_eq_none.mp valid).1

theorem updateOutbox_checked {id : Nat} {change : OutboxChange}
    {r : (Stmt.updateOutbox id change).Result}
    (got : (plan (.updateOutbox id change) env db).answer = .ok (ws, r)) : schema.Admitted db ws := by
  dsimp only [plan] at got
  split at got
  · cases got
  rename_i row found
  refine admitted_updating got fun valid row' there => ?_
  rw [found] at there
  cases there
  exact (violations_eq_none.mp valid).1

/-- A statement that succeeds has checked what it writes, on the rows that its session sees. By
cases on the statements. -/
theorem plan_admitted (st : Stmt) (env : Env) (db : Db) (ws : List Write) (r : st.Result)
    (got : (plan st env db).answer = .ok (ws, r)) : schema.Admitted db ws := by
  cases st with
  | updateSold id => exact updateSold_checked got
  | updateBalance userId priceCents => exact updateBalance_checked got
  | createPurchase data => exact createPurchase_checked got
  | createOutbox input => exact admitted_inserting got fun _ _ _ => rfl
  | createSale name startsAt endsAt =>
    refine admitted_inserting got fun valid _ _ => ?_
    obtain ⟨name, window⟩ := violations_eq_none.mp valid
    exact ⟨of_decide_eq_true (Bool.and_eq_true_iff.mp name).1, of_decide_eq_true window⟩
  | updateStock id delta => exact updateStock_checked got
  | createItem flashSaleId productId quantity priceCents => exact createItem_checked got
  | updateSettled saleId =>
    dsimp only [plan] at got
    split at got
    · exact admitted_reading got
    · exact admitted_updating got fun _ => trivial
  | createUser email phone passwordHash => exact createUser_checked got
  | createOtp userId channel encryptedCode expiresAt =>
    refine admitted_inserting got fun _ _ owner => ⟨rfl, ?_⟩
    intro absent
    rw [absent] at owner
    cases owner
  | updateSent id =>
    dsimp only [plan] at got
    split at got
    · cases got
    · exact admitted_updating got fun _ => trivial
  | updateUsed id =>
    dsimp only [plan] at got
    split at got
    · cases got
    · exact admitted_updating got fun _ => trivial
  | incrementAttempts id => exact incrementAttempts_checked got
  | updateStatus userId status =>
    dsimp only [plan] at got
    split at got
    · cases got
    · exact admitted_updating got fun _ => trivial
  | updateOutbox id change => exact updateOutbox_checked got
  | claim batchSize =>
    cases got
    trivial
  | selectItemForUpdate id =>
    dsimp only [plan] at got
    split at got
    · exact admitted_reading got
    · split at got
      · exact admitted_reading got
      · exact admitted_locking got
  | selectBalanceForUpdate userId =>
    dsimp only [plan] at got
    split at got
    · exact admitted_reading got
    · exact admitted_locking got
  | selectProductForUpdate id =>
    dsimp only [plan] at got
    split at got
    · exact admitted_reading got
    · exact admitted_locking got
  | selectSaleForUpdate id =>
    dsimp only [plan] at got
    split at got
    · exact admitted_reading got
    · exact admitted_locking got
  | _ => exact admitted_reading got

end Checked

end FlashSale
