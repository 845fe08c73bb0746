/-
# The seeder

The transaction in which `seedSales` creates a sale, a copy of `SaleCreationService.create`
with identifiers that its data gives, and without the event that settles the sale.

It is read as a transaction by itself, with nothing else open. The comparison with a
creation is over all renamings of the identifiers that the database draws, as the seeder's
data gives these.

* `seed_then_settle`: what the seeder lacks is that event, and nothing else.
* `seedSale_differs`: so the two never leave the same rows, whatever the identifiers.
-/
import FlashSale.SoloCreation

namespace FlashSale

open Lib (Table Tx Surroundings Outcome applyAll applyAll_append)

structure SeedItem where
  id : Uuid
  productId : Uuid
  quantity : Int
  priceCents : Int
deriving DecidableEq

structure SeedSale where
  id : Uuid
  name : CodeUnits
  startsAt : Int
  endsAt : Int
  items : List SeedItem
deriving DecidableEq

/-! ### The transaction -/

/-- A statement of the seeder: `id` is the identifier that its data gives, if any. -/
structure SeedStmt where
  stmt : Stmt
  id : Option Uuid

@[reducible] def SeedStmt.Result (s : SeedStmt) : Type := s.stmt.Result

/-- The environment of a statement whose data may give the identifier. -/
def Env.given (env : Env) : Option Uuid → Env
  | some id => { env with draw := id }
  | none => env

def seedPlan (s : SeedStmt) (env : Env) (db : Db) : Outcome Write Resource DbError s.Result :=
  plan s.stmt (env.given s.id) db

abbrev SeedProgram := Tx SeedStmt SeedStmt.Result DbError Failure

def seedRun (s : Stmt) : SeedProgram s.Result := Tx.statement (⟨s, none⟩ : SeedStmt) Failure.database

/-- Insert a row under the identifier that is given. -/
def seedAs (id : Uuid) (s : Stmt) : SeedProgram s.Result := Tx.statement (⟨s, some id⟩ : SeedStmt) Failure.database

def seedItems (sale : Uuid) : List SeedItem → SeedProgram Unit
  | [] => pure ()
  | item :: rest => do
    seedRun (.selectProductForUpdate item.productId)
    seedRun (.updateStock item.productId (-item.quantity))
    let _ ← seedAs item.id (.createItem sale item.productId item.quantity item.priceCents)
    seedItems sale rest

/-- The transaction of a sale that does not exist. -/
def seedSale (sale : SeedSale) : SeedProgram Unit := do
  let _ ← seedAs sale.id (.createSale sale.name sale.startsAt sale.endsAt)
  seedItems sale.id sale.items
  seedRun (.createOutbox
    { event := .flashSaleCreated sale.id (sale.items.map SeedItem.id)
      idempotencyKey := some sale.id
      visibleAt := none })

def SeedSale.transaction (sale : SeedSale) (around : Surroundings Env Failure) (db : Db) :
    Except Failure Unit × Db :=
  (seedSale sale).transaction seedPlan around db

/-! ### The same sale for the service -/

def SeedItem.line (item : SeedItem) : SaleItemInput := ⟨item.productId, item.quantity, item.priceCents⟩

def SeedSale.input (sale : SeedSale) : CreateSaleInput :=
  ⟨sale.name, sale.startsAt, sale.endsAt, sale.items.map SeedItem.line⟩

/-- Surroundings in which some identifiers are given. -/
def given (around : Surroundings Env Failure) (ids : Nat → Option Uuid) : Surroundings Env Failure :=
  { around with env := fun i => (around.env i).given (ids i) }

/-- The identifiers that the data gives: of the sale, and of the item that every third
statement inserts. -/
def SeedSale.ids (sale : SeedSale) (i : Nat) : Option Uuid :=
  if i = 0 then some sale.id
  else if i % 3 = 0 then (sale.items[i / 3 - 1]?).map SeedItem.id
  else none

section Mirror

variable {α β : Type} {around : Surroundings Env Failure} {ids : Nat → Option Uuid} {db : Db}
  {i : Nat} {ws : List Write}

/-- A statement of the seeder that goes through, and what it writes. The statement of the
service writes the same where its identifier is given. -/
theorem seed_returned {s : Stmt} {id : Option Uuid} {k : s.Result → SeedProgram α} {out : α × List Write}
    (returned : ((Tx.statement (⟨s, id⟩ : SeedStmt) Failure.database : SeedProgram s.Result) >>= k).solo
      seedPlan around db i ws = .ok out) (same : ids i = id) :
    ∃ ws' r, (plan s ((around.env i).given id) (applyAll db ws)).answer = .ok (ws', r) ∧
      (k r).solo seedPlan around db (i + 1) (ws ++ ws') = .ok out ∧
      ∀ (k' : s.Result → Program β) out',
        (k' r).solo plan (given around ids) db (i + 1) (ws ++ ws') = .ok out' →
          (run s >>= k').solo plan (given around ids) db i ws = .ok out' := by
  obtain ⟨spared, ws', r, got, rest⟩ := Tx.solo_returned returned
  refine ⟨ws', r, got, rest, fun k' out' later => ?_⟩
  refine Tx.solo_ok_iff.mpr ⟨spared, ws', r, ?_, later⟩
  subst same
  exact got

theorem updateStock_outbox {id : Uuid} {delta : Int} {env : Env} {view db' : Db} {ws : List Write}
    {r : Unit} (got : (plan (.updateStock id delta) env view).answer = .ok (ws, r)) :
    (applyAll db' ws).outbox = db'.outbox := by
  cases found : view.products.get? id with
  | none =>
    obtain rfl := plan_updateStock_absent got found
    rfl
  | some product =>
    obtain ⟨rfl, -, -⟩ := plan_updateStock got found
    rfl

/-- The loop of the seeder writes what the loop of the service writes, and no event. -/
theorem seedItems_returned {sale : Uuid} (items : List SeedItem) (drawn : List Uuid)
    {k : Unit → SeedProgram α} {out : α × List Write}
    (returned : (seedItems sale items >>= k).solo seedPlan around db i ws = .ok out)
    (locks : ∀ j < items.length, ids (i + 3 * j) = none)
    (updates : ∀ j < items.length, ids (i + 3 * j + 1) = none)
    (inserts : ∀ j item, items[j]? = some item → ids (i + 3 * j + 2) = some item.id) :
    ∃ ws', (k ()).solo seedPlan around db (i + 3 * items.length) ws' = .ok out ∧
      (applyAll db ws').outbox = (applyAll db ws).outbox ∧
      ∀ (k' : List Uuid → Program β) out',
        (k' (drawn ++ items.map SeedItem.id)).solo plan (given around ids) db (i + 3 * items.length) ws' =
            .ok out' →
          (reserve sale (items.map SeedItem.line) drawn >>= k').solo plan (given around ids) db i ws =
            .ok out' := by
  induction items generalizing i ws drawn with
  | nil =>
    refine ⟨ws, returned, rfl, ?_⟩
    intro k' out' later
    rw [List.map_nil, List.append_nil] at later
    exact later
  | cons item items ih =>
    obtain ⟨ws₁, _, read, returned, first⟩ := seed_returned (β := β) returned (locks 0 (by simp))
    obtain rfl := plan_selectProductForUpdate read
    obtain ⟨ws₂, _, taken, returned, second⟩ := seed_returned (β := β) returned (updates 0 (by simp))
    obtain ⟨ws₃, id, created, returned, third⟩ := seed_returned (β := β) returned (inserts 0 item rfl)
    obtain ⟨-, -, -, rfl, rfl⟩ := inserting_ok_iff.mp created
    have count : i + 3 * (item :: items).length = i + 3 + 3 * items.length := by
      rw [List.length_cons]
      omega
    have place : ∀ j, i + 1 + 1 + 1 + 3 * j = i + 3 * (j + 1) := fun j => by omega
    obtain ⟨ws', rest, events, later⟩ := ih (i := i + 1 + 1 + 1) (drawn ++ [item.id]) returned
      (fun j low => by rw [place]; exact locks (j + 1) (by simpa using low))
      (fun j low => by rw [place]; exact updates (j + 1) (by simpa using low))
      (fun j item' at_ => by rw [place]; exact inserts (j + 1) item' at_)
    rw [count]
    refine ⟨ws', rest, ?_, ?_⟩
    · rw [events, applyAll_append, applyAll_append, List.append_nil]
      exact updateStock_outbox taken
    · intro k' out' final
      refine first _ out' (second _ out' (third _ out' ?_))
      apply later k' out'
      rw [List.append_assoc]
      exact final

theorem SeedSale.ids_lock {sale : SeedSale} {j : Nat} : sale.ids (1 + 3 * j) = none := by
  rw [SeedSale.ids, if_neg (by omega), if_neg (by omega)]

theorem SeedSale.ids_update {sale : SeedSale} {j : Nat} : sale.ids (1 + 3 * j + 1) = none := by
  rw [SeedSale.ids, if_neg (by omega), if_neg (by omega)]

theorem SeedSale.ids_insert {sale : SeedSale} {j : Nat} {item : SeedItem}
    (at_ : sale.items[j]? = some item) : sale.ids (1 + 3 * j + 2) = some item.id := by
  have place : (1 + 3 * j + 2) / 3 - 1 = j := by omega
  rw [SeedSale.ids, if_neg (by omega), if_pos (by omega), place, at_]
  rfl

/-- What the seeder writes, the service writes too where the identifiers are given, and
then the event that settles the sale. -/
theorem seed_then_settle {sale : SeedSale} {ws : List Write}
    (seeded : (seedSale sale).solo seedPlan around db 0 [] = .ok ((), ws))
    (spared : around.fails (3 * sale.items.length + 3) = none)
    (fresh : (applyAll db ws).outbox.get? (around.env (3 * sale.items.length + 2)).serial = none) :
    (create sale.input).solo plan (given around sale.ids) db 0 [] =
      .ok (⟨sale.id, sale.items.map SeedItem.id⟩, ws ++
        [.insertOutbox (around.env (3 * sale.items.length + 2)).serial
          (appended ⟨.flashSaleSettle sale.id, none, some sale.endsAt⟩
            (around.env (3 * sale.items.length + 2)).started)]) := by
  obtain ⟨ws₁, id, created, returned, first⟩ := seed_returned (β := CreatedSale) seeded
    (rfl : sale.ids 0 = some sale.id)
  obtain ⟨-, -, -, rfl, rfl⟩ := inserting_ok_iff.mp created
  obtain ⟨ws₂, returned, -, later⟩ := seedItems_returned (β := CreatedSale) sale.items [] returned
    (fun _ _ => SeedSale.ids_lock) (fun _ _ => SeedSale.ids_update) (fun _ _ => SeedSale.ids_insert)
  have count : 0 + 1 + 3 * sale.items.length = 3 * sale.items.length + 1 := by omega
  have plain : sale.ids (3 * sale.items.length + 1) = none := by
    rw [SeedSale.ids, if_neg (by omega), if_neg (by omega)]
  have plain' : sale.ids (3 * sale.items.length + 2) = none := by
    rw [SeedSale.ids, if_neg (by omega), if_neg (by omega)]
  rw [count] at returned later
  -- The seeder ends with a statement, and then its commit.
  change (seedRun (.createOutbox ⟨.flashSaleCreated sale.id (sale.items.map SeedItem.id), some sale.id,
    none⟩) >>= fun r => Tx.pure r).solo seedPlan around db _ ws₂ = .ok ((), ws) at returned
  obtain ⟨ws₃, r, announced, returned, third⟩ := seed_returned (β := CreatedSale) returned plain
  obtain ⟨spared', is⟩ := Tx.solo_pure_returned returned
  obtain ⟨-, rfl⟩ := Prod.mk.inj is
  have env : (given around sale.ids).env (3 * sale.items.length + 1 + 1) =
      around.env (3 * sale.items.length + 2) := by
    show (around.env (3 * sale.items.length + 2)).given (sale.ids (3 * sale.items.length + 2)) = _
    rw [plain']
    rfl
  refine first _ _ (later _ _ (third _ _ ?_))
  refine Tx.solo_ok_iff.mpr ⟨spared', _, (), createOutbox_ok_iff.mpr ⟨?_, rfl⟩, ?_⟩
  · rw [env]
    exact fresh
  · rw [env]
    exact Tx.solo_pure spared

/-- The loop of the service appends no event. -/
theorem reserve_outbox {sale : Uuid} (lines : List SaleItemInput) (items : List Uuid)
    {k : List Uuid → Program α} {out : α × List Write}
    (returned : (reserve sale lines items >>= k).solo plan around db i ws = .ok out) :
    ∃ ws' items', (k items').solo plan around db (i + 3 * lines.length) ws' = .ok out ∧
      (applyAll db ws').outbox = (applyAll db ws).outbox := by
  induction lines generalizing i ws items with
  | nil => exact ⟨ws, items, returned, rfl⟩
  | cons line lines ih =>
    obtain ⟨-, ws₁, _, read, returned⟩ := Tx.solo_returned returned
    obtain rfl := plan_selectProductForUpdate read
    obtain ⟨-, ws₂, _, taken, returned⟩ := Tx.solo_returned returned
    obtain ⟨-, ws₃, id, created, returned⟩ := Tx.solo_returned returned
    obtain ⟨-, -, -, rfl, rfl⟩ := inserting_ok_iff.mp created
    obtain ⟨ws', items', rest, events⟩ := ih _ returned
    have count : i + 3 * (line :: lines).length = i + 1 + 1 + 1 + 3 * lines.length := by
      rw [List.length_cons]
      omega
    refine ⟨ws', items', by rw [count]; exact rest, ?_⟩
    rw [events, applyAll_append, applyAll_append, List.append_nil]
    exact updateStock_outbox taken

end Mirror

/-! ### The same rows under other identifiers -/

def OutboxEvent.rename (ids : Equiv.Perm Uuid) : OutboxEvent → OutboxEvent
  | .flashSaleCreated sale items => .flashSaleCreated (ids sale) (items.map ids)
  | .flashSaleSettle sale => .flashSaleSettle (ids sale)
  | event => event

/-- Two states are the same but for identifiers, and times in the outbox. The renamings are the
same for all tables. -/
structure SameBut (ids : Equiv.Perm Uuid) (serials : Equiv.Perm Nat) (db db' : Db) : Prop where
  products : ∀ id, db'.products.get? id = db.products.get? id
  sales : ∀ id, db'.flashSales.get? (ids id) = db.flashSales.get? id
  items : ∀ id, db'.flashSaleItems.get? (ids id) =
    (db.flashSaleItems.get? id).map fun item => { item with flashSaleId := ids item.flashSaleId }
  events : ∀ n, (db'.outbox.get? (serials n)).map OutboxRow.event =
    (db.outbox.get? n).map fun row => row.event.rename ids

/-- Then they have equally many events. -/
theorem SameBut.outbox_length {ids : Equiv.Perm Uuid} {serials : Equiv.Perm Nat} {db db' : Db}
    (same : SameBut ids serials db db') : db'.outbox.rows.length = db.outbox.rows.length := by
  refine Table.length_eq serials fun n => ?_
  have event := same.events n
  rw [← Option.map_eq_none_iff (f := OutboxRow.event), event, Option.map_eq_none_iff]

section Differ

variable {db : Db} {around : Surroundings Env Failure}

/-- The seeder appends one event. -/
theorem seedSale_events {sale : SeedSale} (seeded : (sale.transaction around db).1 = .ok ()) :
    (sale.transaction around db).2.outbox.rows.length = db.outbox.rows.length + 1 := by
  obtain ⟨ws, ended⟩ := Tx.transaction_returned seeded
  have after : (sale.transaction around db).2 = applyAll db ws :=
    congrArg Prod.snd (Tx.transaction_ok ended)
  obtain ⟨ws₁, id, created, returned, -⟩ := seed_returned (β := Unit) ended (rfl : sale.ids 0 = some sale.id)
  obtain ⟨-, -, -, rfl, rfl⟩ := inserting_ok_iff.mp created
  obtain ⟨ws₂, returned, kept, -⟩ := seedItems_returned (β := Unit) sale.items [] returned
    (fun _ _ => SeedSale.ids_lock) (fun _ _ => SeedSale.ids_update) (fun _ _ => SeedSale.ids_insert)
  change (seedRun (.createOutbox ⟨.flashSaleCreated sale.id (sale.items.map SeedItem.id), some sale.id,
    none⟩) >>= fun r => Tx.pure r).solo seedPlan around db _ ws₂ = .ok ((), ws) at returned
  obtain ⟨-, ws₃, r, announced, returned⟩ := Tx.solo_returned returned
  obtain ⟨-, is⟩ := Tx.solo_pure_returned returned
  obtain ⟨-, rfl⟩ := Prod.mk.inj is
  obtain ⟨fresh, rfl⟩ := createOutbox_ok_iff.mp announced
  have before : (applyAll db ws₂).outbox = db.outbox := kept
  rw [before] at fresh
  rw [after, applyAll_append]
  show ((applyAll db ws₂).outbox.insert _ _).rows.length = _
  rw [before, Table.rows_insert fresh, List.length_append]
  rfl

/-- The service appends two. -/
theorem create_events {input : CreateSaleInput} {result : CreatedSale}
    (created : (input.transaction around db).1 = .ok result) :
    (input.transaction around db).2.outbox.rows.length = db.outbox.rows.length + 2 := by
  obtain ⟨ws, ended⟩ := Tx.transaction_returned created
  have after : (input.transaction around db).2 = applyAll db ws :=
    congrArg Prod.snd (Tx.transaction_ok ended)
  obtain ⟨-, ws₁, sale, added, returned⟩ := Tx.solo_returned ended
  obtain ⟨-, -, -, rfl, rfl⟩ := inserting_ok_iff.mp added
  obtain ⟨ws₂, items, returned, kept⟩ := reserve_outbox input.items [] returned
  have before : (applyAll db ws₂).outbox = db.outbox := kept
  obtain ⟨-, ⟨first, second, ne⟩, is⟩ := (events_ok_iff before).mp returned
  obtain ⟨-, rfl⟩ := Prod.mk.inj is
  rw [after, applyAll_append, applyAll_append]
  show (((applyAll db ws₂).outbox.insert _ _).insert _ _).rows.length = _
  rw [before, Table.rows_insert (Table.get?_insert_eq_none.mpr ⟨second, ne⟩), Table.rows_insert first,
    List.length_append, List.length_append]
  rfl

/-- The seeder and the service never leave the same rows, whatever the identifiers. The
seeder appends one event and the service two, so no renaming of rows helps. -/
theorem seedSale_differs {sale : SeedSale} {around' : Surroundings Env Failure} {result : CreatedSale}
    (seeded : (sale.transaction around db).1 = .ok ())
    (created : (sale.input.transaction around' db).1 = .ok result) (ids : Equiv.Perm Uuid)
    (serials : Equiv.Perm Nat) :
    ¬ SameBut ids serials (sale.transaction around db).2 (sale.input.transaction around' db).2 := by
  intro same
  have rows := same.outbox_length
  rw [seedSale_events seeded, create_events created] at rows
  omega

end Differ

/-! ### A sale of two products -/

/-- The sale `plainSale` with the identifiers of the seeder. -/
def seededSale : SeedSale := ⟨20, saleName, 0, 1, [⟨21, 2, 3, 100⟩, ⟨22, 3, 5, 100⟩]⟩

theorem seedSale_differs_plain :
    (seededSale.transaction (plainSurroundings 10) stockRoom).1 = .ok () ∧
      (seededSale.input.transaction (plainSurroundings 10) stockRoom).1 = .ok ⟨10, [13, 16]⟩ ∧
      ∀ ids serials, ¬ SameBut ids serials (seededSale.transaction (plainSurroundings 10) stockRoom).2
        (seededSale.input.transaction (plainSurroundings 10) stockRoom).2 := by
  have seeded : (seededSale.transaction (plainSurroundings 10) stockRoom).1 = .ok () := by
    decide +kernel
  have created : (seededSale.input.transaction (plainSurroundings 10) stockRoom).1 = .ok ⟨10, [13, 16]⟩ := by
    decide +kernel
  exact ⟨seeded, created, seedSale_differs seeded created⟩

/-- The service leaves two events where the seeder leaves one. What is missing is the event
that settles the sale. -/
theorem seeded_without_settle :
    ¬ ∀ (db : Db) (sale : SeedSale) (around around' : Surroundings Env Failure) (result : CreatedSale),
      (sale.transaction around db).1 = .ok () →
        (sale.input.transaction around' db).1 = .ok result →
          ∃ ids serials, SameBut ids serials (sale.transaction around db).2
            (sale.input.transaction around' db).2 := by
  intro claimed
  obtain ⟨ids, serials, same⟩ := claimed stockRoom seededSale (plainSurroundings 10)
    (plainSurroundings 10) ⟨10, [13, 16]⟩ (by decide +kernel) (by decide +kernel)
  have rows := same.outbox_length
  revert rows
  decide +kernel

end FlashSale
