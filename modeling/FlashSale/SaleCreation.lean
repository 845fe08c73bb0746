/-
# `SaleCreationService.create`

The transaction that creates a sale, reserves stock for each of its items and
appends its two events, and what its commit does.

Each product is locked, checked and reduced in the order in which the items are listed, and
then its item is inserted. The second event is to settle the sale, and becomes visible
when the sale ends.

* `reserveStock_get?`: the loop over the items takes from every product exactly
  the quantities listed for it.
* `create_safe`: a creation that commits has the effect `CreateCommits` states,
  and leaves no product it touched with negative stock.
-/
import FlashSale.Purchase

namespace FlashSale

open Lib (Table Tx Safe Stable Commits Lock applyAll applyAll_append)

structure SaleItemInput where
  productId : Uuid
  quantity : Int
  priceCents : Int
deriving DecidableEq

structure CreateSaleInput where
  name : CodeUnits
  startsAt : Int
  endsAt : Int
  items : List SaleItemInput
deriving DecidableEq

/-- The identifiers of the created rows; their other columns are the input's. -/
structure CreatedSale where
  sale : Uuid
  items : List Uuid
deriving DecidableEq

/-! ### The transaction -/

/-- The loop over the items, with the identifiers of those created so far. -/
def reserve (sale : Uuid) : List SaleItemInput → List Uuid → Program (List Uuid)
  | [], items => pure items
  | item :: rest, items => do
    run (.selectProductForUpdate item.productId)
    run (.updateStock item.productId (-item.quantity))
    let id ← run (.createItem sale item.productId item.quantity item.priceCents)
    reserve sale rest (items ++ [id])

/-- The body of the transaction: the sale, its lines in the order of the input, and the two
events. The second becomes visible when the sale ends. -/
def create (input : CreateSaleInput) : Program CreatedSale := do
  let sale ← run (.createSale input.name input.startsAt input.endsAt)
  let items ← reserve sale input.items []
  run (.createOutbox
    { event := .flashSaleCreated sale items
      idempotencyKey := some sale
      visibleAt := none })
  run (.createOutbox
    { event := .flashSaleSettle sale
      idempotencyKey := none
      visibleAt := some input.endsAt })
  pure { sale := sale, items := items }

/-! ### What a commit does -/

/-- The quantity that a list of items reserves of a product. -/
def reserved (product : Uuid) (lines : List SaleItemInput) : Int :=
  (lines.map fun line => if line.productId = product then line.quantity else 0).sum

/-- Take the quantities of a list of items from the stock. -/
def reserveStock (lines : List SaleItemInput) (products : Table Uuid ProductRow) :
    Table Uuid ProductRow :=
  lines.foldl (fun t line => t.modify line.productId
    fun p => { p with stock := p.stock + -line.quantity }) products

def SaleItemInput.row (sale : Uuid) (line : SaleItemInput) : ItemRow :=
  ⟨sale, line.productId, line.quantity, 0, line.priceCents⟩

/-- The rows of a list of items with their identifiers. -/
def itemRows (sale : Uuid) (lines : List (SaleItemInput × Uuid)) : List (Uuid × ItemRow) :=
  lines.map fun p => (p.2, p.1.row sale)

/-- The numbers a creation drew besides those it returns. -/
structure CreateFound where
  lines : List (SaleItemInput × Uuid)
  createdId : Nat
  settleId : Nat
  visibleAt : Int

/-- One committed creation, as a single step on the committed rows: the sale, its items, both
events, and the stock without what is reserved. -/
structure CreateCommits (input : CreateSaleInput) (found : CreateFound) (result : CreatedSale)
    (db db' : Db) : Prop where
  lines_items : found.lines.map Prod.fst = input.items
  lines_ids : found.lines.map Prod.snd = result.items
  takes : takesSale input.name input.startsAt input.endsAt = true
  sale_fresh : db.flashSales.get? result.sale = none
  items_nodup : result.items.Nodup
  items_fresh : ∀ id ∈ result.items, db.flashSaleItems.get? id = none
  quantities : ∀ line ∈ input.items, 0 < line.quantity
  stock : ∀ line ∈ input.items, ∀ row, db.products.get? line.productId = some row →
    0 ≤ row.stock - reserved line.productId input.items
  created_fresh : db.outbox.get? found.createdId = none
  settle_fresh : db.outbox.get? found.settleId = none
  outbox_ne : found.createdId ≠ found.settleId
  effect : db' = { db with
    flashSales := db.flashSales.insert result.sale ⟨input.name, input.startsAt, input.endsAt, none⟩
    products := reserveStock input.items db.products
    flashSaleItems := db.flashSaleItems.insertAll (itemRows result.sale found.lines)
    outbox := (db.outbox.insert found.createdId
      { event := .flashSaleCreated result.sale result.items
        status := .pending
        attempts := 0
        visibleAt := found.visibleAt
        lastError := none
        idempotencyKey := some result.sale }).insert found.settleId
      { event := .flashSaleSettle result.sale
        status := .pending
        attempts := 0
        visibleAt := input.endsAt
        lastError := none
        idempotencyKey := none } }

def CreatePost (input : CreateSaleInput) (result : CreatedSale) (db db' : Db) : Prop :=
  ∃ found, CreateCommits input found result db db'

/-! ### The accumulators of the loop -/

theorem reserved_append (product : Uuid) (lines more : List SaleItemInput) :
    reserved product (lines ++ more) = reserved product lines + reserved product more := by
  simp [reserved]

theorem reserved_singleton (product : Uuid) (line : SaleItemInput) :
    reserved product [line] = if line.productId = product then line.quantity else 0 := by
  simp [reserved]

theorem reserved_unlisted {product : Uuid} {lines : List SaleItemInput}
    (unlisted : product ∉ lines.map SaleItemInput.productId) : reserved product lines = 0 := by
  induction lines with
  | nil => rfl
  | cons line lines ih =>
    simp only [List.map_cons, List.mem_cons, not_or] at unlisted
    have first : line.productId ≠ product := fun same => unlisted.1 same.symm
    rw [reserved, List.map_cons, List.sum_cons, if_neg first, Int.zero_add]
    exact ih unlisted.2

/-- A product that is listed once. -/
theorem reserved_listed {lines : List SaleItemInput} (distinct : (lines.map SaleItemInput.productId).Nodup)
    {line : SaleItemInput}
    (mem : line ∈ lines) : reserved line.productId lines = line.quantity := by
  induction lines with
  | nil => cases mem
  | cons first lines ih =>
    simp only [List.map_cons, List.nodup_cons] at distinct
    rw [reserved, List.map_cons, List.sum_cons]
    rcases List.mem_cons.mp mem with rfl | later
    · have rest : (lines.map fun l => if l.productId = line.productId then l.quantity else 0).sum = 0 :=
        reserved_unlisted distinct.1
      rw [if_pos rfl, rest, Int.add_zero]
    · have other : first.productId ≠ line.productId := fun same =>
        distinct.1 (same ▸ List.mem_map_of_mem later)
      rw [if_neg other, Int.zero_add]
      exact ih distinct.2 later

/-- The loop takes from each product the quantities listed for it, in whatever lines they
stand. -/
theorem reserveStock_get? (lines : List SaleItemInput) (products : Table Uuid ProductRow)
    (product : Uuid) :
    (reserveStock lines products).get? product =
      (products.get? product).map fun p => { p with stock := p.stock - reserved product lines } := by
  induction lines generalizing products with
  | nil => cases h : products.get? product <;> simp [reserveStock, reserved, h]
  | cons line lines ih =>
    show (reserveStock lines _).get? product = _
    rw [ih, Table.get?_modify]
    by_cases same : line.productId = product
    · rw [if_pos same, Option.map_map]
      congr 1
      funext p
      simp only [Function.comp, reserved, List.map_cons, same, if_true, List.sum_cons]
      congr 1
      omega
    · rw [if_neg same]
      simp [reserved, same]

def lineWrites (sale : Uuid) (line : SaleItemInput × Uuid) : List Write :=
  [.addStock line.1.productId (-line.1.quantity), .insertItem line.2 (line.1.row sale)]

theorem applyAll_lines (sale : Uuid) (lines : List (SaleItemInput × Uuid)) (db : Db) :
    applyAll db (lines.flatMap (lineWrites sale)) = { db with
      products := reserveStock (lines.map Prod.fst) db.products
      flashSaleItems := db.flashSaleItems.insertAll (itemRows sale lines) } := by
  induction lines generalizing db with
  | nil => rfl
  | cons line lines ih =>
    rw [List.flatMap_cons, applyAll_append, ih]
    rfl

/-- What the loop has written after some of its items. -/
def saleWrites (sale : Uuid) (row : SaleRow) (done : List (SaleItemInput × Uuid)) : List Write :=
  .insertSale sale row :: done.flatMap (lineWrites sale)

theorem saleWrites_snoc (sale : Uuid) (row : SaleRow) (done : List (SaleItemInput × Uuid))
    (line : SaleItemInput) (id : Uuid) :
    saleWrites sale row done ++ [.addStock line.productId (-line.quantity)] ++
      [.insertItem id (line.row sale)] = saleWrites sale row (done ++ [(line, id)]) := by
  simp [saleWrites, lineWrites, List.flatMap_append]

theorem applyAll_saleWrites (sale : Uuid) (row : SaleRow) (done : List (SaleItemInput × Uuid))
    (db : Db) : applyAll db (saleWrites sale row done) = { db with
      flashSales := db.flashSales.insert sale row
      products := reserveStock (done.map Prod.fst) db.products
      flashSaleItems := db.flashSaleItems.insertAll (itemRows sale done) } :=
  applyAll_lines sale done _

/-! ### The outline -/

/-- What the loop knows about the committed rows after some of its items. No stock it has
touched is overdrawn, and its identifiers are still new. -/
structure Reserved (sale : Uuid) (done : List (SaleItemInput × Uuid)) (db : Db) : Prop where
  sale_fresh : db.flashSales.get? sale = none
  items_fresh : ∀ id ∈ done.map Prod.snd, db.flashSaleItems.get? id = none
  stock : ∀ line ∈ done.map Prod.fst, ∀ row, db.products.get? line.productId = some row →
    0 ≤ row.stock - reserved line.productId (done.map Prod.fst)

/-- The locks that keep it. -/
structure ReserveLocks (sale : Uuid) (done : List (SaleItemInput × Uuid))
    (L : List (Lock Resource)) : Prop where
  sale : Guards L (.flashSale sale)
  items : ∀ id ∈ done.map Prod.snd, Guards L (.flashSaleItem id)
  products : ∀ line ∈ done.map Prod.fst, Guards L (.product line.productId)

theorem ReserveLocks.append_left {sale : Uuid} {done : List (SaleItemInput × Uuid)}
    {L L' : List (Lock Resource)} (locks : ReserveLocks sale done L) :
    ReserveLocks sale done (L' ++ L) :=
  ⟨locks.sale.append_left, fun id mem => (locks.items id mem).append_left,
    fun line mem => (locks.products line mem).append_left⟩

theorem stable_reserved {sale : Uuid} {done : List (SaleItemInput × Uuid)}
    {L : List (Lock Resource)} (locks : ReserveLocks sale done L) :
    Stable Write L (Reserved sale done) := by
  intro db w free known
  refine ⟨stable_no_sale locks.sale db w free known.sale_fresh, fun id mem => ?_,
    fun line mem => ?_⟩
  · exact stable_no_item (locks.items id mem) db w free (known.items_fresh id mem)
  · exact stable_product
      (fun p => ∀ row, p = some row → 0 ≤ row.stock - reserved line.productId (done.map Prod.fst))
      (locks.products line mem) db w free (known.stock line mem)

/-- One more item: its identifier is new and its stock was there. -/
theorem Reserved.snoc {sale : Uuid} {done : List (SaleItemInput × Uuid)} {db : Db}
    {line : SaleItemInput} {id : Uuid} (known : Reserved sale done db)
    (fresh : db.flashSaleItems.get? id = none)
    (enough : ∀ row, db.products.get? line.productId = some row →
      0 ≤ row.stock - reserved line.productId (done.map Prod.fst ++ [line])) :
    Reserved sale (done ++ [(line, id)]) db := by
  refine ⟨known.sale_fresh, fun id' mem => ?_, fun line' mem row found => ?_⟩
  · rw [List.map_append, List.mem_append] at mem
    rcases mem with old | new
    · exact known.items_fresh id' old
    · rw [List.mem_singleton.mp new]
      exact fresh
  · rw [List.map_append] at mem ⊢
    by_cases same : line.productId = line'.productId
    · rw [← same] at found ⊢
      exact enough row found
    · rcases List.mem_append.mp mem with old | new
      · have before := known.stock line' old row found
        rw [reserved_append, show (List.map Prod.fst [(line, id)]) = [line] from rfl,
          reserved_singleton, if_neg same]
        omega
      · exact absurd (congrArg SaleItemInput.productId (List.mem_singleton.mp new).symm) same

theorem ReserveLocks.snoc {sale : Uuid} {done : List (SaleItemInput × Uuid)}
    {L : List (Lock Resource)} {line : SaleItemInput} {id : Uuid} (locks : ReserveLocks sale done L)
    (item : Guards L (.flashSaleItem id)) (product : Guards L (.product line.productId)) :
    ReserveLocks sale (done ++ [(line, id)]) L := by
  refine ⟨locks.sale, fun id' mem => ?_, fun line' mem => ?_⟩
  · rw [List.map_append, List.mem_append] at mem
    rcases mem with old | new
    · exact locks.items id' old
    · rw [List.mem_singleton.mp new]
      exact item
  · rw [List.map_append, List.mem_append] at mem
    rcases mem with old | new
    · exact locks.products line' old
    · rw [List.mem_singleton.mp new]
      exact product

/-- Where the loop over the items ends. -/
def ReserveMid (sale : Uuid) (row : SaleRow) (lines : List SaleItemInput) (items : List Uuid)
    (ws : List Write) (L : List (Lock Resource)) (F : Db → Prop) : Prop :=
  ∃ done : List (SaleItemInput × Uuid), done.map Prod.fst = lines ∧ done.map Prod.snd = items ∧
    items.Nodup ∧ (∀ line ∈ lines, 0 < line.quantity) ∧ ws = saleWrites sale row done ∧
    ReserveLocks sale done L ∧ F = Reserved sale done

section Outline

variable {Admits : Env → Prop} {Allowed : Stmt → DbError → Prop}

theorem reserve_safe (any : ∀ s e, Allowed s e) (sale : Uuid) (row : SaleRow)
    (rest : List SaleItemInput) (done : List (SaleItemInput × Uuid)) (L : List (Lock Resource))
    (nodup : (done.map Prod.snd).Nodup)
    (quantities : ∀ line ∈ done.map Prod.fst, 0 < line.quantity)
    (locks : ReserveLocks sale done L) :
    Safe plan Admits Allowed (ReserveMid sale row (done.map Prod.fst ++ rest))
      (reserve sale rest (done.map Prod.snd)) (saleWrites sale row done) L (Reserved sale done) := by
  induction rest generalizing done L with
  | nil => exact ⟨done, by simp, rfl, nodup, by simpa using quantities, rfl, locks, rfl⟩
  | cons line rest ih =>
    unfold reserve
    -- `SELECT id FROM products … FOR UPDATE`
    refine Safe.statement fun env db _ known => ⟨fun _ _ => any _ _, fun ws _ got => ?_⟩
    obtain rfl := plan_selectProductForUpdate got
    generalize (plan (.selectProductForUpdate line.productId) env _).locks = held
    refine ⟨_, stable_reserved locks.append_left, known, ?_⟩
    rw [List.append_nil]
    -- `UPDATE products`
    refine Safe.statement fun env db _ known => ⟨fun _ _ => any _ _, fun ws _ got => ?_⟩
    cases found : db.products.get? line.productId with
    | none =>
      have absent : ∀ db : Db, db.products.get? line.productId = none →
          (applyAll db (saleWrites sale row done)).products.get? line.productId = none := by
        intro db none
        rw [applyAll_saleWrites]
        simp [reserveStock_get?, none]
      obtain rfl := plan_updateStock_absent got (absent db found)
      refine ⟨_, (stable_reserved locks.append_left.append_left).and stable_no_product,
        ⟨known, found⟩, ?_⟩
      rw [List.append_nil]
      -- the INSERT that follows finds no product to reference
      refine Safe.statement fun env db _ known => ⟨fun _ _ => any _ _, fun ws _ got => ?_⟩
      exact absurd (absent db known.2) (plan_createItem got).2.2.2.1
    | some product =>
      have view : (applyAll db (saleWrites sale row done)).products.get? line.productId =
          some ⟨product.stock - reserved line.productId (done.map Prod.fst)⟩ := by
        rw [applyAll_saleWrites]
        simp [reserveStock_get?, found]
      obtain ⟨rfl, locks', enough⟩ := plan_updateStock got view
      dsimp only at enough
      rw [locks']
      have taken : ∀ row, db.products.get? line.productId = some row →
          0 ≤ row.stock - reserved line.productId (done.map Prod.fst ++ [line]) := by
        intro row eq
        rw [found] at eq
        cases eq
        rw [reserved_append, reserved_singleton, if_pos rfl]
        omega
      have productLock : ∀ L' : List (Lock Resource), Guards
          ([(⟨.product line.productId, .noKeyUpdate⟩ : Lock Resource)] ++ L') (.product line.productId) :=
        fun L' => ⟨.noKeyUpdate, noKeyUpdate_strong, by simp⟩
      refine ⟨_, (stable_reserved locks.append_left.append_left).and
        (stable_product (fun p => ∀ row, p = some row →
          0 ≤ row.stock - reserved line.productId (done.map Prod.fst ++ [line])) (productLock _)),
        ⟨known, taken⟩, ?_⟩
      -- `flashSaleItem.create`
      refine Safe.statement fun env db _ known => ⟨fun _ _ => any _ _, fun ws id got => ?_⟩
      obtain ⟨rfl, locks'', fresh, -, positive⟩ := plan_createItem got
      rw [applyAll_append, applyAll_saleWrites] at fresh
      obtain ⟨free, unused⟩ := Table.get?_insertAll_eq_none.mp fresh
      have ids : (itemRows sale done).map Prod.fst = done.map Prod.snd := by simp [itemRows]
      rw [ids] at unused
      rw [locks'']
      have kept : ReserveLocks sale (done ++ [(line, id)])
          ((Write.insertItem id (line.row sale)).needs ++
            ([⟨.product line.productId, .noKeyUpdate⟩] ++ (held ++ L))) :=
        locks.append_left.append_left.append_left.snoc
          (Guards.of_update List.mem_cons_self).append_right (productLock _).append_left
      refine ⟨_, stable_reserved kept, known.1.snoc free known.2, ?_⟩
      have next := ih (done ++ [(line, id)]) _
        (by
          rw [List.map_append]
          exact List.concat_eq_append ▸ List.Nodup.concat unused nodup)
        (by
          intro line' mem
          rw [List.map_append, List.mem_append] at mem
          rcases mem with old | new
          · exact quantities line' old
          · rw [List.mem_singleton.mp new]
            exact positive) kept
      rw [← saleWrites_snoc] at next
      simp only [List.map_append, List.map_cons, List.map_nil, List.append_assoc,
        List.singleton_append] at next ⊢
      exact next

/-- Among any other transactions, a creation that commits does what
`CreateCommits` states. -/
theorem create_safe (any : ∀ s e, Allowed s e) (input : CreateSaleInput) :
    Safe plan Admits Allowed (Commits (CreatePost input)) (create input) [] [] fun _ => True := by
  unfold create
  -- `flashSale.create`
  refine Safe.statement fun env db _ _ => ⟨fun _ _ => any _ _, fun ws sale got => ?_⟩
  obtain ⟨rfl, locks, saleFresh, takes⟩ := plan_createSale got
  rw [locks]
  have start : ReserveLocks sale [] ([⟨.flashSale sale, .update⟩] ++ []) :=
    ⟨Guards.of_update (by simp), by simp, by simp⟩
  refine ⟨_, stable_reserved start, ⟨saleFresh, by simp, by simp⟩, ?_⟩
  refine Safe.bind (reserve_safe any sale ⟨input.name, input.startsAt, input.endsAt, none⟩
    input.items [] _ (by simp) (by simp) start) ?_
  rintro items ws L F ⟨done, lines, ids, nodup, quantities, rfl, locks, rfl⟩
  rw [List.map_nil, List.nil_append] at lines
  -- the event `flash_sale.created`
  refine Safe.statement fun env db _ known => ⟨fun _ _ => any _ _, fun ws _ got => ?_⟩
  obtain ⟨rfl, locks', createdFresh⟩ := plan_createOutbox got
  rw [applyAll_saleWrites] at createdFresh
  rw [locks']
  refine ⟨_, (stable_reserved locks.append_left).and (stable_no_outbox (Guards.of_update (by simp))),
    ⟨known, createdFresh⟩, ?_⟩
  -- the event `flash_sale.settle`
  refine Safe.statement fun env' db _ known => ⟨fun _ _ => any _ _, fun ws _ got => ?_⟩
  obtain ⟨rfl, locks'', settleFresh⟩ := plan_createOutbox got
  rw [applyAll_append, applyAll_saleWrites] at settleFresh
  obtain ⟨settleFresh, outboxNe⟩ := Table.get?_insert_eq_none.mp settleFresh
  rw [locks'']
  refine ⟨_, ((stable_reserved locks.append_left.append_left).and
    (stable_no_outbox (Guards.of_update (by simp)))).and
      (stable_no_outbox (Guards.of_update (by simp))), ⟨known, settleFresh⟩, ?_⟩
  rintro db ⟨⟨known, createdFresh⟩, settleFresh⟩
  refine ⟨⟨done, env.serial, env'.serial, toColumn env.started⟩,
    { lines_items := lines
      lines_ids := ids
      takes := takes
      sale_fresh := known.sale_fresh
      items_nodup := nodup
      items_fresh := fun id mem => known.items_fresh id (ids ▸ mem)
      quantities := quantities
      stock := lines ▸ known.stock
      created_fresh := createdFresh
      settle_fresh := settleFresh
      outbox_ne := outboxNe
      effect := ?_ }⟩
  rw [applyAll_append, applyAll_append, applyAll_saleWrites, lines]
  rfl

end Outline

end FlashSale
