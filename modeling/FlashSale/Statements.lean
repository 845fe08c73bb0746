/-
# The SQL statements of the service

Every statement that the modelled transactions run, raw SQL and Prisma calls
alike, with its result type and its plan: the locks it waits for, the rows it
writes, and the constraint it fails on. A statement sees the committed rows and
the writes of its own transaction.

An `INSERT` first evaluates ranges and CHECKs, then enters the unique indexes,
then looks for the rows it references. An `UPDATE` of a row that does not exist
updates no row; the Prisma call for it throws.

A text with a NUL or half a surrogate pair, and a date outside the years that the database
takes, are refused like a number out of range. Values that the database draws, its
identifiers and times, come with the step as `Env`.

* `plan_covered`: a statement locks whatever it writes.
-/
import FlashSale.Schema
import Mathlib.Data.List.Sort
import Mathlib.Data.List.Perm.Basic

namespace FlashSale

open Lib (Table Lock LockMode Outcome Storage)

inductive DbError where
  | unique
  | foreignKey
  | check
  | outOfRange
  | recordNotFound
deriving DecidableEq

inductive IdentifierKind where
  | email
  | phone
deriving DecidableEq

structure NormalizedIdentifier where
  kind : IdentifierKind
  normalized : CodeUnits
deriving DecidableEq

structure AppendOutboxInput where
  event : OutboxEvent
  idempotencyKey : Option Uuid
  visibleAt : Option Int
deriving DecidableEq

/-- What `purchase.create` is given. -/
structure PurchaseData where
  userId : Uuid
  flashSaleItemId : Uuid
  day : Day
  priceCents : Int
  idempotencyKey : Uuid
deriving DecidableEq

/-- The row of the locking read of `purchaseTx`. -/
structure ItemWindow where
  id : Uuid
  quantity : Int
  sold : Int
  priceCents : Int
  startsAt : Int
  endsAt : Int
deriving DecidableEq

/-- A row of the read of `settle`. -/
structure Unsold where
  productId : Uuid
  unsold : Int
deriving DecidableEq

/-- A row of the claiming read of `tick`. -/
structure ClaimedRow where
  id : Nat
  row : OutboxRow
deriving DecidableEq

/-- The statements that the repositories send. A statement is whole: what it reads, locks and
writes happens at one instant, under READ COMMITTED. -/
inductive Stmt where
  | selectPurchasedOn (userId : Uuid) (day : Day)
  | selectItemForUpdate (id : Uuid)
  | selectBalanceForUpdate (userId : Uuid)
  | updateSold (id : Uuid)
  | updateBalance (userId : Uuid) (priceCents : Int)
  | createPurchase (data : PurchaseData)
  | createOutbox (input : AppendOutboxInput)
  | createSale (name : CodeUnits) (startsAt endsAt : Int)
  | selectProductForUpdate (id : Uuid)
  | updateStock (id : Uuid) (delta : Int)
  | createItem (flashSaleId productId : Uuid) (quantity priceCents : Int)
  | selectSaleForUpdate (id : Uuid)
  | selectUnsold (saleId : Uuid)
  | updateSettled (saleId : Uuid)
  | findUser (identifier : NormalizedIdentifier)
  | createUser (email phone : Option CodeUnits) (passwordHash : String)
  | createOtp (userId : Uuid) (channel : OtpChannel) (encryptedCode : String) (expiresAt : Int)
  | findOtp (id : Uuid)
  | updateSent (id : Uuid)
  | findValidOtp (userId : Uuid) (now : Int)
  | updateUsed (id : Uuid)
  | incrementAttempts (id : Uuid)
  | updateStatus (userId : Uuid) (status : UserStatus)
  | claim (batchSize : Nat)
  | updateOutbox (id : Nat) (change : OutboxChange)
deriving DecidableEq

/-- What a statement returns when it succeeds. -/
@[reducible] def Stmt.Result : Stmt → Type
  | .selectPurchasedOn _ _ => Bool
  | .selectItemForUpdate _ => Option ItemWindow
  | .selectBalanceForUpdate _ => Option Int
  | .createPurchase _ => Uuid
  | .createSale _ _ _ => Uuid
  | .createItem _ _ _ _ => Uuid
  | .selectSaleForUpdate _ => Option (Option Int)
  | .selectUnsold _ => List Unsold
  | .findUser _ => Option (Uuid × UserRow)
  | .createUser _ _ _ => Uuid
  | .createOtp _ _ _ _ => Uuid
  | .findOtp _ => Option OtpRow
  | .findValidOtp _ _ => Option (Uuid × OtpRow)
  | .claim _ => List ClaimedRow
  | _ => Unit

/-- What a statement depends on besides the rows: the start of its transaction and
the moment that `now()` stamps on the rows it inserts, both in microseconds, the
next number of the outbox sequence, the identifier that `gen_random_uuid` draws,
the order in which a query returns rows that its ordering leaves open, and the
rows that are free for `SKIP LOCKED`. -/
structure Env where
  started : Int
  stamp : Int
  serial : Nat
  draw : Uuid
  order : List Nat
  free : Resource → Bool

/-! ### Helpers -/

/-- Postgres takes a text in which no surrogate stands alone and that has no NUL. -/
def takesText (t : CodeUnits) : Bool := Lib.Utf16.isWellFormed t && !t.contains 0

/-- Prisma writes a date with four digits for its year: it takes the milliseconds of the years 0
to 9999. -/
def takesDate (t : Int) : Bool := decide (-62167219200000 ≤ t ∧ t ≤ 253402300799999)

/-- What the columns of a sale take: a text of at most 255 characters, and two dates. -/
def takesSale (name : CodeUnits) (startsAt endsAt : Int) : Bool :=
  decide ((Lib.Utf16.decode name).length ≤ 255) &&
    (takesText name && takesDate startsAt && takesDate endsAt)

/-- A microsecond time rounded to a `TIMESTAMP(3)` column. -/
def toColumn (t : Int) : Int := (t + 500) / 1000

def int4 (n : Int) : Bool := decide (-2147483648 ≤ n ∧ n ≤ 2147483647)

def int8 (n : Int) : Bool := decide (-9223372036854775808 ≤ n ∧ n ≤ 9223372036854775807)

/-- The rows in the order the environment picks: each number takes the row at
that position among those left. -/
def arrange {α : Type} : List Nat → List α → List α
  | [], rows => rows
  | i :: order, rows =>
    match rows[i]? with
    | some row => row :: arrange order (rows.eraseIdx i)
    | none => arrange order rows

theorem arrange_perm {α : Type} (order : List Nat) (rows : List α) :
    (arrange order rows).Perm rows := by
  induction order generalizing rows with
  | nil => exact List.Perm.refl _
  | cons i order ih =>
    unfold arrange
    cases found : rows[i]? with
    | none => exact ih rows
    | some row =>
      obtain ⟨inside, rfl⟩ := List.getElem?_eq_some_iff.mp found
      exact ((ih _).cons _).trans (List.getElem_cons_eraseIdx_perm inside)

section Outcomes

variable {ρ : Type}

/-- A read without a lock. -/
def reading (r : ρ) : Outcome Write Resource DbError ρ := ⟨[], .ok ([], r)⟩

/-- A read that locks a row until the transaction ends. -/
def locking (r : Resource) (result : ρ) : Outcome Write Resource DbError ρ :=
  ⟨[⟨r, .update⟩], .ok ([], result)⟩

def failing (locks : List (Lock Resource)) (e : DbError) : Outcome Write Resource DbError ρ :=
  ⟨locks, .error e⟩

/-- An update of a row, or the constraint that the new row violates. -/
def updating (w : Write) (violated : Option DbError) : Outcome Write Resource DbError Unit :=
  match violated with
  | some e => failing w.needs e
  | none => ⟨w.needs, .ok ([w], ())⟩

/-- An insert of a row. It waits for other inserts of its index entries before it
reports a duplicate, and for the rows it references once it has found them. -/
def inserting (w : Write) (result : ρ) (violated : Option DbError) (duplicate orphan : Bool) :
    Outcome Write Resource DbError ρ :=
  match violated with
  | some e => failing [] e
  | none =>
    if duplicate then failing (w.needs.filter fun l => decide (l.mode = .update)) .unique
    else if orphan then failing (w.needs.filter fun l => decide (l.mode = .update)) .foreignKey
    else ⟨w.needs, .ok ([w], result)⟩

end Outcomes

/-- The range and CHECK errors of a new row, the range first. -/
def violations (inRange valid : Bool) : Option DbError :=
  if !inRange then some .outOfRange else if !valid then some .check else none

theorem violations_eq_none {inRange valid : Bool} :
    violations inRange valid = none ↔ inRange = true ∧ valid = true := by
  cases inRange <;> cases valid <;> simp [violations]

/-! ### Plans -/

/-- The row that `append` writes. -/
def appended (input : AppendOutboxInput) (started : Int) : OutboxRow :=
  { event := input.event
    status := .pending
    attempts := 0
    visibleAt := input.visibleAt.getD (toColumn started)
    lastError := none
    idempotencyKey := input.idempotencyKey }

def NormalizedIdentifier.names (identifier : NormalizedIdentifier) (user : UserRow) : Bool :=
  match identifier.kind with
  | .email => decide (user.email = some identifier.normalized)
  | .phone => decide (user.phone = some identifier.normalized)

/-- The two unique identifiers of a user clash with those of another row. -/
def UserRow.clashes (row other : UserRow) : Bool :=
  (row.email.isSome && decide (other.email = row.email)) ||
  (row.phone.isSome && decide (other.phone = row.phone))

/-- The rows that are due, in the order of their numbers, without locked ones. -/
def due (env : Env) (db : Db) : List ClaimedRow :=
  ((db.outbox.select fun id row => decide (row.status = .pending) &&
      decide (row.visibleAt * 1000 ≤ env.started) && env.free (.outbox id)).map
    fun p => ⟨p.1, p.2⟩).insertionSort fun a b => a.id ≤ b.id

def PurchaseData.row (data : PurchaseData) (createdAt : Int) : PurchaseRow :=
  { userId := data.userId
    flashSaleItemId := data.flashSaleItemId
    day := data.day
    priceCents := data.priceCents
    idempotencyKey := data.idempotencyKey
    createdAt := createdAt }

/-- `MAX_OTP_ATTEMPTS`. -/
def maxOtpAttempts : Nat := 5

/-- The filter of `findValid`. -/
def OtpRow.valid (otp : OtpRow) (userId : Uuid) (now : Int) : Bool :=
  decide (otp.userId = userId) && !otp.used && decide (otp.expiresAt > now) &&
    decide (otp.attempts < maxOtpAttempts)

/-- The codes that `findValid` looks at, the newest first. -/
def validOtps (userId : Uuid) (now : Int) (env : Env) (db : Db) : List (Uuid × OtpRow) :=
  (arrange env.order (db.otpCodes.select fun _ otp => otp.valid userId now)).insertionSort
    fun a b => a.2.createdAt ≥ b.2.createdAt

/-- The unsold units of the items of a sale, in the order of the table. -/
def unsoldItems (saleId : Uuid) (db : Db) : List Unsold :=
  (db.flashSaleItems.select fun _ i =>
      decide (i.flashSaleId = saleId) && decide (i.quantity > i.sold)).map
    fun p => ⟨p.2.productId, p.2.quantity - p.2.sold⟩

/-- What a statement answers, writes and locks, over the rows that its session sees. Checks
and unique indexes of the schema fail here, and locks wait in the server. -/
def plan : (s : Stmt) → Env → Db → Outcome Write Resource DbError s.Result
  | .selectPurchasedOn userId day, _, db =>
    reading (db.purchases.any fun _ p => decide (p.userId = userId) && decide (p.day = day))
  | .selectItemForUpdate id, _, db =>
    match db.flashSaleItems.get? id with
    | none => reading none
    | some item =>
      match db.flashSales.get? item.flashSaleId with
      | none => reading none
      | some sale => locking (.flashSaleItem id)
          (some ⟨id, item.quantity, item.sold, item.priceCents, sale.startsAt, sale.endsAt⟩)
  | .selectBalanceForUpdate userId, _, db =>
    match db.users.get? userId with
    | none => reading none
    | some user => locking (.user userId) (some user.balanceCents)
  | .updateSold id, _, db =>
    match db.flashSaleItems.get? id with
    | none => reading ()
    | some item => updating (.addSold id 1)
        (violations (int4 (item.sold + 1))
          (decide (0 ≤ item.sold + 1) && decide (item.sold + 1 ≤ item.quantity)))
  | .updateBalance userId priceCents, _, db =>
    match db.users.get? userId with
    | none => reading ()
    | some user => updating (.addBalance userId (-priceCents))
        (violations (int8 (user.balanceCents - priceCents))
          (decide (0 ≤ user.balanceCents - priceCents)))
  | .createPurchase data, env, db =>
    inserting (.insertPurchase env.draw (data.row (toColumn env.stamp))) env.draw
      (violations (int8 data.priceCents) true)
      (db.purchases.any fun id p => decide (id = env.draw) ||
        decide (p.idempotencyKey = data.idempotencyKey) ||
        (decide (p.userId = data.userId) && decide (p.day = data.day)))
      ((db.users.get? data.userId).isNone || (db.flashSaleItems.get? data.flashSaleItemId).isNone)
  | .createOutbox input, env, db =>
    inserting (.insertOutbox env.serial (appended input env.started)) () none
      ((db.outbox.get? env.serial).isSome) false
  | .createSale name startsAt endsAt, env, db =>
    inserting (.insertSale env.draw ⟨name, startsAt, endsAt, none⟩) env.draw
      (violations (takesSale name startsAt endsAt) (decide (endsAt > startsAt)))
      ((db.flashSales.get? env.draw).isSome) false
  | .selectProductForUpdate id, _, db =>
    match db.products.get? id with
    | none => reading ()
    | some _ => locking (.product id) ()
  | .updateStock id delta, _, db =>
    match db.products.get? id with
    | none => reading ()
    | some product => updating (.addStock id delta)
        (violations (int8 (product.stock + delta)) (decide (0 ≤ product.stock + delta)))
  | .createItem flashSaleId productId quantity priceCents, env, db =>
    inserting (.insertItem env.draw ⟨flashSaleId, productId, quantity, 0, priceCents⟩) env.draw
      (violations (int4 quantity && int8 priceCents) (decide (quantity > 0)))
      (db.flashSaleItems.any fun id i => decide (id = env.draw) ||
        (decide (i.flashSaleId = flashSaleId) && decide (i.productId = productId)))
      ((db.flashSales.get? flashSaleId).isNone || (db.products.get? productId).isNone)
  | .selectSaleForUpdate id, _, db =>
    match db.flashSales.get? id with
    | none => reading none
    | some sale => locking (.flashSale id) (some sale.settledAt)
  | .selectUnsold saleId, env, db => reading (arrange env.order (unsoldItems saleId db))
  | .updateSettled saleId, env, db =>
    match db.flashSales.get? saleId with
    | none => reading ()
    | some _ => updating (.stampSettled saleId (toColumn env.started)) none
  | .findUser identifier, _, db =>
    reading (db.users.select fun _ user => identifier.names user).head?
  | .createUser email phone passwordHash, env, db =>
    let row : UserRow := ⟨email, phone, passwordHash, .pendingVerification, 0⟩
    inserting (.insertUser env.draw row) env.draw
      (violations true (email.isSome || phone.isSome))
      (db.users.any fun id user => decide (id = env.draw) || row.clashes user) false
  | .createOtp userId channel encryptedCode expiresAt, env, db =>
    inserting (.insertOtp env.draw ⟨userId, channel, encryptedCode, expiresAt, false, false, 0,
        toColumn env.stamp⟩)
      env.draw none ((db.otpCodes.get? env.draw).isSome) ((db.users.get? userId).isNone)
  | .findOtp id, _, db => reading (db.otpCodes.get? id)
  | .updateSent id, _, db =>
    match db.otpCodes.get? id with
    | none => failing [] .recordNotFound
    | some _ => updating (.markSent id) none
  | .findValidOtp userId now, env, db => reading (validOtps userId now env db).head?
  | .updateUsed id, _, db =>
    match db.otpCodes.get? id with
    | none => failing [] .recordNotFound
    | some _ => updating (.markUsed id) none
  | .incrementAttempts id, _, db =>
    match db.otpCodes.get? id with
    | none => failing [] .recordNotFound
    | some otp => updating (.addAttempt id) (violations (int4 (otp.attempts + 1)) true)
  | .updateStatus userId status, _, db =>
    match db.users.get? userId with
    | none => failing [] .recordNotFound
    | some _ => updating (.setStatus userId status) none
  | .claim batchSize, env, db =>
    let rows := (due env db).take batchSize
    ⟨rows.map fun c => ⟨.outbox c.id, .update⟩, .ok ([], rows)⟩
  | .updateOutbox id change, _, db =>
    match db.outbox.get? id with
    | none => failing [] .recordNotFound
    | some row => updating (.changeOutbox id change)
        (violations (int4 (change.apply row).attempts) true)

/-! ### What a plan locks and writes -/

section Covered

variable {ρ : Type} {w : Write} {ws : List Write} {r : ρ}

/-- The writes of an outcome are guarded by its locks. -/
def Covered (o : Outcome Write Resource DbError ρ) : Prop :=
  ∀ ws r, o.answer = .ok (ws, r) → ∀ w ∈ ws, ∀ n ∈ Storage.needs w, n ∈ o.locks

theorem covered_reading : Covered (reading r) := by
  intro ws r h
  cases h
  simp

theorem covered_locking {res : Resource} : Covered (locking res r) := by
  intro ws r h
  cases h
  simp

theorem covered_failing {locks : List (Lock Resource)} {e : DbError} :
    Covered (failing locks e : Outcome Write Resource DbError ρ) := by
  intro ws r h
  cases h

theorem updating_ok {violated : Option DbError} {r : Unit}
    (h : (updating w violated).answer = .ok (ws, r)) :
    violated = none ∧ ws = [w] ∧ (updating w violated).locks = w.needs := by
  cases violated with
  | some e => cases h
  | none =>
    cases h
    exact ⟨rfl, rfl, rfl⟩

theorem updating_error {violated : Option DbError} {e : DbError}
    (h : (updating w violated).answer = .error e) : violated = some e := by
  cases violated with
  | none => cases h
  | some e' =>
    cases h
    rfl

theorem violations_check {inRange valid : Bool} (h : violations inRange valid = some .check) :
    valid = false := by
  cases inRange <;> cases valid <;> simp [violations] at h ⊢

theorem inserting_ok {result : ρ} {violated : Option DbError} {duplicate orphan : Bool}
    (h : (inserting w result violated duplicate orphan).answer = .ok (ws, r)) :
    violated = none ∧ duplicate = false ∧ orphan = false ∧ ws = [w] ∧ r = result ∧
      (inserting w result violated duplicate orphan).locks = w.needs := by
  cases violated with
  | some e => cases h
  | none =>
    cases duplicate with
    | true => cases h
    | false =>
      cases orphan with
      | true => cases h
      | false =>
        cases h
        exact ⟨rfl, rfl, rfl, rfl, rfl, rfl⟩

theorem covered_updating {violated : Option DbError} : Covered (updating w violated) := by
  intro ws r h
  obtain ⟨-, rfl, locks⟩ := updating_ok h
  rw [locks]
  intro w' mem n need
  cases List.mem_singleton.mp mem
  exact need

theorem covered_inserting {result : ρ} {violated : Option DbError} {duplicate orphan : Bool} :
    Covered (inserting w result violated duplicate orphan) := by
  intro ws r h
  obtain ⟨-, -, -, rfl, -, locks⟩ := inserting_ok h
  rw [locks]
  intro w' mem n need
  cases List.mem_singleton.mp mem
  exact need

end Covered

/-- A statement locks whatever it writes. So no two open transactions write one row, whatever
else they do. -/
theorem plan_covered (s : Stmt) (env : Env) (db : Db) : Covered (plan s env db) := by
  cases s with
  | claim batchSize =>
    intro ws r h
    cases h
    simp
  | _ =>
    dsimp only [plan]
    repeat' split
    all_goals
      first
        | exact covered_updating
        | exact covered_inserting
        | exact covered_reading
        | exact covered_locking
        | exact covered_failing

/-! ### What a successful statement has found

One lemma for each statement whose result or writes later proofs use. -/

section Specs

variable {env : Env} {db : Db} {ws : List Write}

theorem plan_selectItemForUpdate {id : Uuid} {item : ItemWindow}
    (h : (plan (.selectItemForUpdate id) env db).answer = .ok (ws, some item)) :
    ws = [] ∧ (plan (.selectItemForUpdate id) env db).locks = [⟨.flashSaleItem id, .update⟩] ∧
      ∃ row sale, db.flashSaleItems.get? id = some row ∧
        db.flashSales.get? row.flashSaleId = some sale ∧
        item = ⟨id, row.quantity, row.sold, row.priceCents, sale.startsAt, sale.endsAt⟩ := by
  dsimp only [plan] at h ⊢
  cases found : db.flashSaleItems.get? id with
  | none =>
    rw [found] at h
    cases h
  | some row =>
    simp only [found] at h ⊢
    cases joined : db.flashSales.get? row.flashSaleId with
    | none =>
      rw [joined] at h
      cases h
    | some sale =>
      simp only [joined] at h ⊢
      cases h
      exact ⟨rfl, rfl, row, sale, rfl, joined, rfl⟩

theorem plan_selectBalanceForUpdate {userId : Uuid} {balance : Int}
    (h : (plan (.selectBalanceForUpdate userId) env db).answer = .ok (ws, some balance)) :
    ws = [] ∧ (plan (.selectBalanceForUpdate userId) env db).locks = [⟨.user userId, .update⟩] ∧
      ∃ user, db.users.get? userId = some user ∧ balance = user.balanceCents := by
  dsimp only [plan] at h ⊢
  cases found : db.users.get? userId with
  | none =>
    rw [found] at h
    cases h
  | some user =>
    simp only [found] at h ⊢
    cases h
    exact ⟨rfl, rfl, user, rfl, rfl⟩

theorem plan_selectSaleForUpdate {id : Uuid} {settledAt : Option Int}
    (h : (plan (.selectSaleForUpdate id) env db).answer = .ok (ws, some settledAt)) :
    ws = [] ∧ (plan (.selectSaleForUpdate id) env db).locks = [⟨.flashSale id, .update⟩] ∧
      ∃ sale, db.flashSales.get? id = some sale ∧ settledAt = sale.settledAt := by
  dsimp only [plan] at h ⊢
  cases found : db.flashSales.get? id with
  | none =>
    rw [found] at h
    cases h
  | some sale =>
    simp only [found] at h ⊢
    cases h
    exact ⟨rfl, rfl, sale, rfl, rfl⟩

theorem plan_selectSaleForUpdate_none {id : Uuid}
    (h : (plan (.selectSaleForUpdate id) env db).answer = .ok (ws, none)) :
    ws = [] ∧ db.flashSales.get? id = none := by
  dsimp only [plan] at h
  cases found : db.flashSales.get? id with
  | none =>
    rw [found] at h
    cases h
    exact ⟨rfl, rfl⟩
  | some sale =>
    rw [found] at h
    cases h

theorem plan_updateSold {id : Uuid} {row : ItemRow} {r : Unit}
    (h : (plan (.updateSold id) env db).answer = .ok (ws, r))
    (found : db.flashSaleItems.get? id = some row) :
    ws = [.addSold id 1] ∧
      (plan (.updateSold id) env db).locks = [⟨.flashSaleItem id, .noKeyUpdate⟩] := by
  simp only [plan, found] at h ⊢
  obtain ⟨-, rfl, locks⟩ := updating_ok h
  exact ⟨rfl, locks⟩

theorem plan_updateBalance {userId : Uuid} {price : Int} {user : UserRow} {r : Unit}
    (h : (plan (.updateBalance userId price) env db).answer = .ok (ws, r))
    (found : db.users.get? userId = some user) :
    ws = [.addBalance userId (-price)] ∧
      (plan (.updateBalance userId price) env db).locks = [⟨.user userId, .noKeyUpdate⟩] := by
  simp only [plan, found] at h ⊢
  obtain ⟨-, rfl, locks⟩ := updating_ok h
  exact ⟨rfl, locks⟩

/-- A debit that the balance covers does not violate the CHECK on it. -/
theorem plan_updateBalance_error {userId : Uuid} {price : Int} {user : UserRow} {e : DbError}
    (h : (plan (.updateBalance userId price) env db).answer = .error e)
    (found : db.users.get? userId = some user) (funds : price ≤ user.balanceCents) :
    e ≠ .check := by
  simp only [plan, found] at h
  rintro rfl
  have covered := violations_check (updating_error h)
  simp only [decide_eq_false_iff_not] at covered
  omega

/-- An INSERT of a purchase that succeeds found no row with its id, its key, or
its user and day. -/
theorem plan_createPurchase {data : PurchaseData} {id : Uuid}
    (h : (plan (.createPurchase data) env db).answer = .ok (ws, id)) :
    ws = [.insertPurchase id (data.row (toColumn env.stamp))] ∧
      (plan (.createPurchase data) env db).locks =
        (Write.insertPurchase id (data.row (toColumn env.stamp))).needs ∧
      db.purchases.get? id = none ∧
      (∀ id' row', db.purchases.get? id' = some row' → row'.idempotencyKey ≠ data.idempotencyKey) ∧
      (∀ id' row', db.purchases.get? id' = some row' →
        ¬(row'.userId = data.userId ∧ row'.day = data.day)) := by
  obtain ⟨-, unique, -, rfl, rfl, locks⟩ := inserting_ok h
  have none_clashes := Table.any_eq_false.mp unique
  simp only [Bool.or_eq_false_iff, Bool.and_eq_false_iff, decide_eq_false_iff_not] at none_clashes
  refine ⟨rfl, locks, ?_, fun id' row' found => (none_clashes id' row' found).1.2, ?_⟩
  · cases found : db.purchases.get? env.draw with
    | none => rfl
    | some row' => exact absurd rfl (none_clashes _ _ found).1.1
  · rintro id' row' found ⟨user, day⟩
    rcases (none_clashes id' row' found).2 with other | other
    · exact other user
    · exact other day

theorem plan_createSale {name : CodeUnits} {startsAt endsAt : Int} {id : Uuid}
    (h : (plan (.createSale name startsAt endsAt) env db).answer = .ok (ws, id)) :
    ws = [.insertSale id ⟨name, startsAt, endsAt, none⟩] ∧
      (plan (.createSale name startsAt endsAt) env db).locks = [⟨.flashSale id, .update⟩] ∧
      db.flashSales.get? id = none ∧ takesSale name startsAt endsAt = true := by
  obtain ⟨valid, unique, -, rfl, rfl, locks⟩ := inserting_ok h
  exact ⟨rfl, locks, by simpa using unique, (violations_eq_none.mp valid).1⟩

theorem plan_selectProductForUpdate {id : Uuid} {r : Unit}
    (h : (plan (.selectProductForUpdate id) env db).answer = .ok (ws, r)) : ws = [] := by
  dsimp only [plan] at h
  cases found : db.products.get? id with
  | none =>
    rw [found] at h
    cases h
    rfl
  | some product =>
    rw [found] at h
    cases h
    rfl

theorem plan_updateStock {id : Uuid} {delta : Int} {product : ProductRow} {r : Unit}
    (h : (plan (.updateStock id delta) env db).answer = .ok (ws, r))
    (found : db.products.get? id = some product) :
    ws = [.addStock id delta] ∧
      (plan (.updateStock id delta) env db).locks = [⟨.product id, .noKeyUpdate⟩] ∧
      0 ≤ product.stock + delta := by
  simp only [plan, found] at h ⊢
  obtain ⟨valid, rfl, locks⟩ := updating_ok h
  refine ⟨rfl, locks, ?_⟩
  by_contra negative
  cases inRange : int8 (product.stock + delta) <;> simp [violations, inRange, negative] at valid

theorem plan_updateStock_absent {id : Uuid} {delta : Int} {r : Unit}
    (h : (plan (.updateStock id delta) env db).answer = .ok (ws, r))
    (absent : db.products.get? id = none) : ws = [] := by
  simp only [plan, absent] at h
  cases h
  rfl

theorem plan_createItem {flashSaleId productId id : Uuid} {quantity priceCents : Int}
    (h : (plan (.createItem flashSaleId productId quantity priceCents) env db).answer = .ok (ws, id)) :
    ws = [.insertItem id ⟨flashSaleId, productId, quantity, 0, priceCents⟩] ∧
      (plan (.createItem flashSaleId productId quantity priceCents) env db).locks =
        (Write.insertItem id ⟨flashSaleId, productId, quantity, 0, priceCents⟩).needs ∧
      db.flashSaleItems.get? id = none ∧ db.products.get? productId ≠ none ∧ 0 < quantity := by
  obtain ⟨valid, unique, parents, rfl, rfl, locks⟩ := inserting_ok h
  have none_clashes := Table.any_eq_false.mp unique
  simp only [Bool.or_eq_false_iff, decide_eq_false_iff_not] at none_clashes
  refine ⟨rfl, locks, ?_, ?_, ?_⟩
  · cases found : db.flashSaleItems.get? env.draw with
    | none => rfl
    | some row => exact absurd rfl (none_clashes _ _ found).1
  · intro absent
    simp [absent] at parents
  · by_contra negative
    cases inRange : int4 quantity && int8 priceCents <;>
      simp [violations, inRange, negative] at valid

theorem unsoldItems_positive {saleId : Uuid} {item : Unsold} (mem : item ∈ unsoldItems saleId db) :
    0 < item.unsold := by
  obtain ⟨⟨id, row⟩, selected, rfl⟩ := List.mem_map.mp mem
  have short := (Table.mem_select.mp selected).2
  simp only [Bool.and_eq_true, decide_eq_true_eq] at short
  dsimp only
  omega

theorem plan_selectUnsold {saleId : Uuid} {items : List Unsold}
    (h : (plan (.selectUnsold saleId) env db).answer = .ok (ws, items)) :
    ws = [] ∧ items.Perm (unsoldItems saleId db) := by
  cases h
  exact ⟨rfl, arrange_perm _ _⟩

theorem plan_updateSettled {saleId : Uuid} {sale : SaleRow} {r : Unit}
    (h : (plan (.updateSettled saleId) env db).answer = .ok (ws, r))
    (found : db.flashSales.get? saleId = some sale) :
    ws = [.stampSettled saleId (toColumn env.started)] ∧
      (plan (.updateSettled saleId) env db).locks = [⟨.flashSale saleId, .noKeyUpdate⟩] := by
  simp only [plan, found] at h ⊢
  obtain ⟨-, rfl, locks⟩ := updating_ok h
  exact ⟨rfl, locks⟩

theorem plan_createUser {email phone : Option CodeUnits} {passwordHash : String} {id : Uuid}
    (h : (plan (.createUser email phone passwordHash) env db).answer = .ok (ws, id)) :
    ws = [.insertUser id ⟨email, phone, passwordHash, .pendingVerification, 0⟩] ∧
      (⟨.user id, .update⟩ : Lock Resource) ∈
        (plan (.createUser email phone passwordHash) env db).locks ∧
      db.users.get? id = none := by
  obtain ⟨-, unique, -, rfl, rfl, locks⟩ := inserting_ok h
  have none_clashes := Table.any_eq_false.mp unique
  simp only [Bool.or_eq_false_iff, decide_eq_false_iff_not] at none_clashes
  refine ⟨rfl, ?_, ?_⟩
  · show _ ∈ (inserting _ _ _ _ _).locks
    rw [locks]
    exact List.mem_cons_self
  · cases found : db.users.get? env.draw with
    | none => rfl
    | some row => exact absurd rfl (none_clashes _ _ found).1

theorem plan_createOtp {userId id : Uuid} {channel : OtpChannel} {encryptedCode : String}
    {expiresAt : Int}
    (h : (plan (.createOtp userId channel encryptedCode expiresAt) env db).answer = .ok (ws, id)) :
    ws = [.insertOtp id ⟨userId, channel, encryptedCode, expiresAt, false, false, 0,
        toColumn env.stamp⟩] ∧
      (plan (.createOtp userId channel encryptedCode expiresAt) env db).locks =
        [⟨.otpCode id, .update⟩, ⟨.user userId, .keyShare⟩] ∧
      db.otpCodes.get? id = none := by
  obtain ⟨-, unique, -, rfl, rfl, locks⟩ := inserting_ok h
  exact ⟨rfl, locks, by simpa using unique⟩

theorem plan_findUser {identifier : NormalizedIdentifier} {id : Uuid} {user : UserRow}
    (h : (plan (.findUser identifier) env db).answer = .ok (ws, some (id, user))) :
    db.users.get? id = some user ∧ identifier.names user = true := by
  have first : (db.users.select fun _ user => identifier.names user).head? = some (id, user) :=
    (Prod.mk.inj (Except.ok.inj h)).2
  exact Table.mem_select.mp (List.mem_of_mem_head? first)

theorem mem_due {c : ClaimedRow} (mem : c ∈ due env db) :
    db.outbox.get? c.id = some c.row ∧ c.row.status = .pending ∧
      c.row.visibleAt * 1000 ≤ env.started ∧ env.free (.outbox c.id) = true := by
  obtain ⟨p, selected, rfl⟩ := List.mem_map.mp ((List.mem_insertionSort _).mp mem)
  obtain ⟨found, isDue⟩ := Table.mem_select.mp selected
  simp only [Bool.and_eq_true, decide_eq_true_eq] at isDue
  exact ⟨found, isDue.1.1, isDue.1.2, isDue.2⟩

theorem due_nodup : ((due env db).map ClaimedRow.id).Nodup := by
  have perm := (List.perm_insertionSort (fun a b : ClaimedRow => a.id ≤ b.id)
    ((db.outbox.select fun id row => decide (row.status = .pending) &&
      decide (row.visibleAt * 1000 ≤ env.started) && env.free (.outbox id)).map
        fun p => (⟨p.1, p.2⟩ : ClaimedRow))).map ClaimedRow.id
  apply perm.nodup_iff.mpr
  rw [List.map_map]
  exact Table.select_nodup _ _

/-- A claim locks what it returns: pending rows that are due, each once. -/
theorem plan_claim {batchSize : Nat} {rows : List ClaimedRow}
    (h : (plan (.claim batchSize) env db).answer = .ok (ws, rows)) :
    ws = [] ∧ (plan (.claim batchSize) env db).locks = rows.map (fun c => ⟨.outbox c.id, .update⟩) ∧
      (rows.map ClaimedRow.id).Nodup ∧
      ∀ c ∈ rows, db.outbox.get? c.id = some c.row ∧ c.row.status = .pending ∧
        c.row.visibleAt * 1000 ≤ env.started := by
  cases h
  refine ⟨rfl, rfl, ?_, fun c mem => ?_⟩
  · exact due_nodup.sublist ((List.take_sublist _ _).map _)
  · obtain ⟨found, pending, isDue, -⟩ := mem_due (List.mem_of_mem_take mem)
    exact ⟨found, pending, isDue⟩

theorem plan_updateOutbox {id : Nat} {change : OutboxChange} {r : Unit}
    (h : (plan (.updateOutbox id change) env db).answer = .ok (ws, r)) :
    ws = [.changeOutbox id change] := by
  dsimp only [plan] at h
  cases found : db.outbox.get? id with
  | none =>
    rw [found] at h
    cases h
  | some row =>
    rw [found] at h
    exact (updating_ok h).2.1

/-- `update` throws when there is no such row. -/
theorem plan_updateSent {id : Uuid} {r : Unit}
    (h : (plan (.updateSent id) env db).answer = .ok (ws, r)) :
    ws = [.markSent id] ∧ ∃ row, db.otpCodes.get? id = some row := by
  dsimp only [plan] at h
  cases found : db.otpCodes.get? id with
  | none =>
    rw [found] at h
    cases h
  | some row =>
    rw [found] at h
    exact ⟨(updating_ok h).2.1, row, rfl⟩

theorem plan_updateSent_error {id : Uuid} {e : DbError}
    (h : (plan (.updateSent id) env db).answer = .error e) : db.otpCodes.get? id = none := by
  dsimp only [plan] at h
  cases found : db.otpCodes.get? id with
  | none => rfl
  | some row =>
    rw [found] at h
    cases updating_error h

/-- What `findValid` returns passes its filter, and nothing that passes it is newer. -/
theorem plan_findValidOtp {userId id : Uuid} {now : Int} {otp : OtpRow}
    (h : (plan (.findValidOtp userId now) env db).answer = .ok (ws, some (id, otp))) :
    db.otpCodes.get? id = some otp ∧ otp.valid userId now = true ∧
      ∀ id' otp', db.otpCodes.get? id' = some otp' → otp'.valid userId now = true →
        otp'.createdAt ≤ otp.createdAt := by
  have first : (validOtps userId now env db).head? = some (id, otp) :=
    (Prod.mk.inj (Except.ok.inj h)).2
  have perm : (validOtps userId now env db).Perm
      (db.otpCodes.select fun _ otp => otp.valid userId now) :=
    (List.perm_insertionSort _ _).trans (arrange_perm _ _)
  have selected := Table.mem_select.mp (perm.mem_iff.mp (List.mem_of_mem_head? first))
  refine ⟨selected.1, selected.2, fun id' otp' found valid => ?_⟩
  have mem : (id', otp') ∈ validOtps userId now env db :=
    perm.mem_iff.mpr (Table.mem_select.mpr ⟨found, valid⟩)
  have sorted := List.pairwise_insertionSort (fun a b : Uuid × OtpRow => a.2.createdAt ≥ b.2.createdAt)
    (arrange env.order (db.otpCodes.select fun _ otp => otp.valid userId now))
  change (validOtps userId now env db).Pairwise _ at sorted
  obtain ⟨rest, eq⟩ := List.head?_eq_some_iff.mp first
  rw [eq] at mem sorted
  rcases List.mem_cons.mp mem with same | later
  · cases same
    exact le_refl _
  · exact (List.pairwise_cons.mp sorted).1 _ later

theorem plan_updateUsed {id : Uuid} {r : Unit}
    (h : (plan (.updateUsed id) env db).answer = .ok (ws, r)) :
    ws = [.markUsed id] ∧ ∃ otp, db.otpCodes.get? id = some otp := by
  dsimp only [plan] at h
  cases found : db.otpCodes.get? id with
  | none =>
    rw [found] at h
    cases h
  | some otp =>
    rw [found] at h
    exact ⟨(updating_ok h).2.1, otp, rfl⟩

theorem plan_incrementAttempts {id : Uuid} {r : Unit}
    (h : (plan (.incrementAttempts id) env db).answer = .ok (ws, r)) :
    ws = [.addAttempt id] ∧ ∃ otp, db.otpCodes.get? id = some otp ∧
      int4 (otp.attempts + 1) = true := by
  dsimp only [plan] at h
  cases found : db.otpCodes.get? id with
  | none =>
    rw [found] at h
    cases h
  | some otp =>
    rw [found] at h
    obtain ⟨fits, rfl, -⟩ := updating_ok h
    refine ⟨rfl, otp, rfl, ?_⟩
    by_contra large
    simp [violations, large] at fits

theorem plan_incrementAttempts_error {id : Uuid} {e : DbError}
    (h : (plan (.incrementAttempts id) env db).answer = .error e) {otp : OtpRow}
    (found : db.otpCodes.get? id = some otp) : int4 (otp.attempts + 1) = false := by
  dsimp only [plan] at h
  rw [found] at h
  have violated := updating_error h
  by_contra fits
  rw [Bool.not_eq_false] at fits
  simp [violations, fits] at violated

theorem plan_updateStatus_error {userId : Uuid} {status : UserStatus} {e : DbError}
    (h : (plan (.updateStatus userId status) env db).answer = .error e) :
    db.users.get? userId = none := by
  dsimp only [plan] at h
  cases found : db.users.get? userId with
  | none => rfl
  | some user =>
    rw [found] at h
    cases updating_error h

theorem plan_updateStatus {userId : Uuid} {status : UserStatus} {r : Unit}
    (h : (plan (.updateStatus userId status) env db).answer = .ok (ws, r)) :
    ws = [.setStatus userId status] ∧ ∃ user, db.users.get? userId = some user := by
  dsimp only [plan] at h
  cases found : db.users.get? userId with
  | none =>
    rw [found] at h
    cases h
  | some user =>
    rw [found] at h
    exact ⟨(updating_ok h).2.1, user, rfl⟩

theorem plan_createOutbox {input : AppendOutboxInput} {r : Unit}
    (h : (plan (.createOutbox input) env db).answer = .ok (ws, r)) :
    ws = [.insertOutbox env.serial (appended input env.started)] ∧
      (plan (.createOutbox input) env db).locks = [⟨.outbox env.serial, .update⟩] ∧
      db.outbox.get? env.serial = none := by
  obtain ⟨-, unique, -, rfl, -, locks⟩ := inserting_ok h
  exact ⟨rfl, locks, by simpa using unique⟩

end Specs

end FlashSale
