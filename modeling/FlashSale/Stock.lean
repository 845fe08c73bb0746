/-
# The stock of products

A unit of a product is in the stock, reserved by an item of a sale, or sold. A creation
takes units from the stock, a purchase counts one as sold, and a settlement returns those
that it has read as unsold. These are different transactions, and the settlement reads the
items without a lock on them.

The ledger of the stock alone speaks of what settlements have read, and holds in every run.
That no unit is lost or counted twice needs what was read to hold at the commit, which a
purchase in between prevents.

* `Run.stock_ledger`: the stock of a product is the initial one, less what sales
  reserved of it, plus what the settlements that committed had read as unsold; it
  is never negative; and a sale is settled exactly if one settlement of it
  committed its returns.
* `Run.conserved_of_undisturbed`: stock, listed units and sold units of a product
  add up to its initial stock, in runs without a purchase that commits after a
  settlement of its sale has read the unsold units.
* `settled_and_sold`: with such a purchase they do not.
-/
import FlashSale.Ledger
import FlashSale.Settling

namespace FlashSale

open Lib (Table Chain visits)

/-! ### Sums over the items of a product -/

/-- The stock of a product; none of a product without a row. -/
def stockOf (product : Uuid) (db : Db) : Int :=
  ((db.products.get? product).map ProductRow.stock).getD 0

/-- The quantities of all items of a product. -/
def allocated (product : Uuid) (db : Db) : Int :=
  db.flashSaleItems.sum fun _ i => if i.productId = product then i.quantity else 0

/-- The unsold units that the items of a sale have of a product. -/
def unsoldUnits (saleId product : Uuid) (db : Db) : Int :=
  db.flashSaleItems.sum fun _ i =>
    if i.flashSaleId = saleId ∧ i.productId = product then i.quantity - i.sold else 0

section Sums

variable {cfg : Cfg} {db db' : Db} {product : Uuid}

theorem returned_perm {items items' : List Unsold} (same : items.Perm items') :
    returned product items = returned product items' :=
  (same.map _).sum_eq

/-- What a settlement reads of a product are its unsold units. -/
theorem returned_unsoldItems (within : ∀ id row, db.flashSaleItems.get? id = some row →
    row.sold ≤ row.quantity) (saleId : Uuid) :
    returned product (unsoldItems saleId db) = unsoldUnits saleId product db := by
  rw [returned, unsoldItems, List.map_map]
  refine (Table.sum_select db.flashSaleItems _
    fun _ i => if i.productId = product then i.quantity - i.sold else 0).trans ?_
  refine Table.sum_congr fun id row found => ?_
  have le := within id row found
  by_cases sale : row.flashSaleId = saleId <;> by_cases same : row.productId = product <;>
    simp [sale, same]
  intro all
  omega

theorem sum_itemRows (sale : Uuid) (lines : List (SaleItemInput × Uuid)) :
    ((itemRows sale lines).map fun row => if row.2.productId = product then row.2.quantity else 0).sum =
      reserved product (lines.map Prod.fst) := by
  rw [itemRows, reserved, List.map_map, List.map_map]
  rfl

/-- The identifiers of the items of a creation are new and differ. -/
theorem CreateCommits.rows_new {input : CreateSaleInput} {found : CreateFound} {result : CreatedSale}
    (spec : CreateCommits input found result db db') :
    ((itemRows result.sale found.lines).map Prod.fst).Nodup ∧
      ∀ row ∈ itemRows result.sale found.lines, db.flashSaleItems.get? row.1 = none := by
  have ids : (itemRows result.sale found.lines).map Prod.fst = result.items := by
    rw [← spec.lines_ids, itemRows, List.map_map]
    rfl
  refine ⟨ids ▸ spec.items_nodup, fun row mem => spec.items_fresh row.1 ?_⟩
  rw [← ids]
  exact List.mem_map_of_mem mem

theorem CreateCommits.sum {input : CreateSaleInput} {found : CreateFound} {result : CreatedSale}
    (spec : CreateCommits input found result db db') (g : Uuid → ItemRow → Int) :
    db'.flashSaleItems.sum g = db.flashSaleItems.sum g +
      ((itemRows result.sale found.lines).map fun row => g row.1 row.2).sum := by
  rw [spec.effect]
  exact Table.sum_insertAll spec.rows_new.1 spec.rows_new.2 g

theorem PurchaseCommits.sum {args : PurchaseArgs} {found : PurchaseFound} {result : PurchaseResult}
    (spec : PurchaseCommits args found result db db') (g : Uuid → ItemRow → Int) :
    db'.flashSaleItems.sum g = db.flashSaleItems.sum g - g args.saleItemId found.item +
      g args.saleItemId { found.item with sold := found.item.sold + 1 } := by
  rw [spec.effect]
  exact Table.sum_modify spec.item _ g

end Sums

/-! ### The returns of settlements -/

/-- The units of a product that a commit returns. -/
def Commit.returns (product : Uuid) : Commit → Int
  | .settled _ _ (some items) => returned product items
  | _ => 0

def returnedTotal (product : Uuid) (done : List Commit) : Int :=
  (done.map (Commit.returns product)).sum

/-- The settlements of a sale that committed their returns, with what each one
had read. -/
def settlements (saleId : Uuid) (done : List Commit) : List (List Unsold) :=
  done.filterMap fun
    | .settled id _ (some items) => if id = saleId then some items else none
    | _ => none

/-- A database before its first sale. -/
structure NoSales (db : Db) : Prop where
  sales : ∀ id, db.flashSales.get? id = none
  items : ∀ id, db.flashSaleItems.get? id = none
  purchases : ∀ id, db.purchases.get? id = none

/-- The constraint on `products.stock`. -/
def InStock (db : Db) : Prop := ∀ product row, db.products.get? product = some row → 0 ≤ row.stock

theorem NoSales.tallied {db : Db} (none : NoSales db) : Tallied db := by
  refine ⟨fun id row found => ?_, fun id row found => ?_, fun id row found => ?_,
    fun id row found => ?_⟩
  · cases (none.items id).symm.trans found
  · cases (none.items id).symm.trans found
  · cases (none.items id).symm.trans found
  · cases (none.purchases id).symm.trans found

structure Stocked (start : Db) (done : List Commit) (db : Db) : Prop where
  stock : ∀ product row, db.products.get? product = some row →
    row.stock = stockOf product start - allocated product db + returnedTotal product done
  inStock : InStock db
  settled : ∀ id row, db.flashSales.get? id = some row →
    (settlements id done).length = if row.settledAt.isSome then 1 else 0
  unsettled : ∀ id, db.flashSales.get? id = none → settlements id done = []

section Ledger

variable {cfg : Cfg} {start db db' : Db} {done : List Commit} {product : Uuid}

theorem returnedTotal_snoc (commit : Commit) :
    returnedTotal product (done ++ [commit]) = returnedTotal product done + commit.returns product := by
  simp [returnedTotal]

theorem settlements_snoc (id : Uuid) (commit : Commit) :
    settlements id (done ++ [commit]) = settlements id done ++ settlements id [commit] :=
  List.filterMap_append

theorem Stocked.init (none : NoSales start) (inStock : InStock start) : Stocked start [] start := by
  refine ⟨fun product row found => ?_, inStock, fun id row found => ?_, fun _ _ => rfl⟩
  · have nothing : allocated product start = 0 :=
      Table.sum_eq_zero fun id row found => by cases (none.items id).symm.trans found
    rw [nothing, stockOf, found]
    simp [returnedTotal]
  · cases (none.sales id).symm.trans found

/-- A commit that is no settlement and leaves sales and products alone, and the
quantities of the items. -/
theorem Stocked.congr (stocked : Stocked start done db) {commit : Commit}
    (products : db'.products = db.products) (sales : db'.flashSales = db.flashSales)
    (items : ∀ product, allocated product db' = allocated product db)
    (returns : ∀ product, commit.returns product = 0) (quiet : ∀ id, settlements id [commit] = []) :
    Stocked start (done ++ [commit]) db' := by
  obtain ⟨stock, inStock, settled, unsettled⟩ := stocked
  refine ⟨fun product row found => ?_, ?_, fun id row found => ?_, fun id absent => ?_⟩
  · rw [products] at found
    rw [items, returnedTotal_snoc, returns, Int.add_zero]
    exact stock product row found
  · rwa [InStock, products]
  · rw [sales] at found
    rw [settlements_snoc, quiet, List.append_nil]
    exact settled id row found
  · rw [sales] at absent
    rw [settlements_snoc, quiet, List.append_nil]
    exact unsettled id absent

theorem Stocked.purchased (stocked : Stocked start done db) {args : PurchaseArgs}
    {found : PurchaseFound} {result : PurchaseResult}
    (spec : PurchaseCommits args found result db db') :
    Stocked start (done ++ [.purchased args result]) db' := by
  refine stocked.congr (by rw [spec.effect]) (by rw [spec.effect]) (fun product => ?_)
    (fun _ => rfl) fun _ => rfl
  rw [allocated, allocated, spec.sum]
  exact Int.sub_add_cancel _ _

theorem Stocked.created (stocked : Stocked start done db) {input : CreateSaleInput}
    {found : CreateFound} {result : CreatedSale}
    (spec : CreateCommits input found result db db') :
    Stocked start (done ++ [.created input result]) db' := by
  have after : ∀ product row, db'.products.get? product = some row → ∃ old,
      db.products.get? product = some old ∧ row.stock = old.stock - reserved product input.items := by
    intro product row h
    rw [spec.effect, reserveStock_get?] at h
    obtain ⟨old, there, rfl⟩ := Option.map_eq_some_iff.mp h
    exact ⟨old, there, rfl⟩
  have quiet : ∀ id, settlements id (done ++ [.created input result]) = settlements id done := by
    intro id
    rw [settlements_snoc]
    exact List.append_nil _
  refine ⟨fun product row h => ?_, fun product row h => ?_, fun id row h => ?_, fun id absent => ?_⟩
  · obtain ⟨old, there, less⟩ := after product row h
    have reserves : allocated product db' = allocated product db + reserved product input.items := by
      rw [allocated, allocated, spec.sum, ← spec.lines_items]
      congr 1
      exact sum_itemRows result.sale found.lines
    rw [less, stocked.stock product old there, reserves, returnedTotal_snoc]
    show _ = _ + (_ + 0)
    omega
  · obtain ⟨old, there, less⟩ := after product row h
    by_cases listed : product ∈ input.items.map SaleItemInput.productId
    · obtain ⟨line, mem, rfl⟩ := List.mem_map.mp listed
      rw [less]
      exact spec.stock line mem old there
    · rw [less, reserved_unlisted listed, Int.sub_zero]
      exact stocked.inStock product old there
  · rw [quiet]
    rw [spec.effect] at h
    rcases Table.get?_insert_cases h with old | ⟨rfl, rfl⟩
    · exact stocked.settled id row old
    · rw [stocked.unsettled _ spec.sale_fresh]
      rfl
  · rw [quiet]
    rw [spec.effect] at absent
    exact stocked.unsettled id (Table.get?_insert_eq_none.mp absent).1

theorem Stocked.settles (stocked : Stocked start done db) {saleId : Uuid} {started : Int}
    {result : Option (List Unsold)} (spec : SettleCommits saleId started False result db db') :
    Stocked start (done ++ [.settled saleId started result]) db' := by
  cases spec with
  | skipped _ => exact stocked.congr rfl rfl (fun _ => rfl) (fun _ => rfl) fun _ => rfl
  | @settled _ _ sale items there open_ positive effect =>
    have after : ∀ product row, db'.products.get? product = some row → ∃ old,
        db.products.get? product = some old ∧ row.stock = old.stock + returned product items := by
      intro product row h
      rw [effect, returnAll_get?] at h
      obtain ⟨old, there, rfl⟩ := Option.map_eq_some_iff.mp h
      exact ⟨old, there, rfl⟩
    have one : ∀ id, settlements id (done ++ [.settled saleId started (some items)]) =
        settlements id done ++ if saleId = id then [items] else [] := by
      intro id
      rw [settlements_snoc]
      by_cases same : saleId = id <;> simp [settlements, same]
    refine ⟨fun product row h => ?_, fun product row h => ?_, fun id row h => ?_,
      fun id absent => ?_⟩
    · obtain ⟨old, there, more⟩ := after product row h
      have items_same : allocated product db' = allocated product db := by
        rw [effect]
        rfl
      rw [more, stocked.stock product old there, items_same, returnedTotal_snoc]
      show _ = _ + (_ + returned product items)
      omega
    · obtain ⟨old, there, more⟩ := after product row h
      have nonneg : 0 ≤ returned product items := by
        refine List.sum_nonneg fun x mem => ?_
        obtain ⟨item, inside, rfl⟩ := List.mem_map.mp mem
        have units := positive item inside
        split <;> omega
      have before := stocked.inStock product old there
      omega
    · rw [one]
      rw [effect] at h
      obtain ⟨old, before, ⟨rfl, rfl⟩ | ⟨ne, rfl⟩⟩ := Table.get?_modify_cases h
      · rw [there] at before
        cases before
        have none := stocked.settled _ _ there
        rw [open_] at none
        rw [if_pos rfl, List.length_append, none]
        rfl
      · rw [if_neg ne, List.append_nil]
        exact stocked.settled id row before
    · rw [effect] at absent
      have before := Table.get?_modify_eq_none.mp absent
      have ne : saleId ≠ id := by
        rintro rfl
        rw [there] at before
        cases before
      rw [one, if_neg ne, List.append_nil]
      exact stocked.unsettled id before

/-- Every commit keeps the stock in agreement with sales and settlements. A settlement is
entered with what it had read, whether that still holds or not. -/
theorem Stocked.step {commit : Commit} (stocked : Stocked start done db)
    (happened : Atomic cfg db commit db') : Stocked start (done ++ [commit]) db' := by
  cases happened with
  | purchased found spec => exact stocked.purchased spec
  | created found spec => exact stocked.created spec
  | registered found spec =>
    rw [spec.effect]
    exact stocked.congr rfl rfl (fun _ => rfl) (fun _ => rfl) fun _ => rfl
  | resent found spec =>
    rw [spec.effect]
    exact stocked.congr rfl rfl (fun _ => rfl) (fun _ => rfl) fun _ => rfl
  | account spec =>
    rw [spec.effect]
    exact stocked.congr (by simp) (by simp) (fun _ => by simp [allocated]) (fun _ => rfl) fun _ => rfl
  | settled spec => exact stocked.settles spec
  | otpSent found => exact stocked.congr rfl rfl (fun _ => rfl) (fun _ => rfl) fun _ => rfl
  | ticked spec =>
    rw [spec.effect]
    exact stocked.congr rfl rfl (fun _ => rfl) (fun _ => rfl) fun _ => rfl

end Ledger

/-! ### The ledger of a run -/

/-- One of the states had the items of a sale, with these units unsold. The list is in whatever
order the database returned it. -/
def ReadIn (visited : List State) (saleId : Uuid) (items : List Unsold) : Prop :=
  ∃ t ∈ visited, items.Perm (unsoldItems saleId t.server.db)

section Runs

variable {cfg : Cfg} {start s s' : State} {trace : List (State × Label)}

/-- What a settlement has read, and what it has returned once it committed, was
in the database at some moment of the run. -/
theorem Run.read_in (fresh : Fresh start) (run : Run cfg start trace s) :
    SettlesAs (ReadIn (visits trace s)) s ∧
    ∀ saleId started items, Commit.settled saleId started (some items) ∈ commits s.history →
      ReadIn (visits trace s) saleId items := by
  have along : Coherent cfg s ∧ SettlesAs (ReadIn (visits trace s)) s ∧
      ∀ saleId started items, Commit.settled saleId started (some items) ∈ commits s.history →
        ReadIn (visits trace s) saleId items := by
    refine Lib.Run.invariant_along (fun trace s => Coherent cfg s ∧ SettlesAs (ReadIn (visits trace s)) s ∧
      ∀ saleId started items, Commit.settled saleId started (some items) ∈ commits s.history →
        ReadIn (visits trace s) saleId items) ?_ ?_ run
    · refine ⟨fresh.coherent, fresh.settlesAs _, fun saleId started items mem => ?_⟩
      rw [fresh.history] at mem
      cases mem
    · rintro trace s l s' ⟨coherent, settles, known⟩ taken
      have grows : ∀ saleId items, ReadIn (visits trace s) saleId items →
          ReadIn (visits (trace ++ [(s, l)]) s') saleId items := by
        rintro saleId items ⟨t, mem, read⟩
        rw [Lib.visits_snoc]
        exact ⟨t, List.mem_append_left _ mem, read⟩
      refine ⟨(step_coherent coherent taken).1, ?_, fun saleId started items mem => ?_⟩
      · exact settles.step coherent taken
          (fun saleId items _ read => grows _ _ ⟨s, Lib.last_mem_visits _ _, read⟩)
          fun _ saleId _ _ items _ _ _ read => grows saleId items read
      · rw [step_commits taken, List.mem_append, Option.mem_toList] at mem
        rcases mem with old | new
        · exact grows saleId items (known saleId started items old)
        · exact grows saleId items (settles.committed new)
  exact along.2

/-- A stock is what it was, less the units reserved, and with the units that settlements
have returned; it is never negative. A sale is settled at most once, and what its
settlement returns are the units unsold in one committed state. -/
theorem Run.stock_ledger (fresh : Fresh start) (none : NoSales start.server.db)
    (inStock : InStock start.server.db) (run : Run cfg start trace s) :
    (∀ product row, s.server.db.products.get? product = some row →
      row.stock = stockOf product start.server.db - allocated product s.server.db +
        returnedTotal product (commits s.history) ∧ 0 ≤ row.stock) ∧
    (∀ id row, s.server.db.flashSales.get? id = some row →
      (row.settledAt ≠ Option.none ↔ (settlements id (commits s.history)).length = 1)) ∧
    ∀ saleId started items, Commit.settled saleId started (some items) ∈ commits s.history →
      ∃ t ∈ visits trace s, items.Perm (unsoldItems saleId t.server.db) := by
  have stocked : Stocked start.server.db (commits s.history) s.server.db :=
    Chain.invariant (Stocked start.server.db) (.init none inStock)
      (fun _ _ _ _ stocked happened => stocked.step happened) (run.commits_chain fresh)
  refine ⟨fun product row found => ⟨stocked.stock product row found, stocked.inStock product row found⟩,
    fun id row found => ?_, (run.read_in fresh).2⟩
  rw [stocked.settled id row found]
  cases row.settledAt <;> simp

end Runs

/-! ### Conservation -/

def isSettled (db : Db) (saleId : Uuid) : Bool :=
  ((db.flashSales.get? saleId).bind SaleRow.settledAt).isSome

/-- The quantities of a product in sales that are not settled. -/
def listed (product : Uuid) (db : Db) : Int :=
  db.flashSaleItems.sum fun _ i =>
    if i.productId = product ∧ isSettled db i.flashSaleId = false then i.quantity else 0

/-- The units of a product sold in sales that are settled. -/
def soldSettled (product : Uuid) (db : Db) : Int :=
  db.flashSaleItems.sum fun _ i =>
    if i.productId = product ∧ isSettled db i.flashSaleId = true then i.sold else 0

/-- No unit of a product is lost or there twice. A settled sale counts with the units it has
sold, and an open one with all that it lists. -/
def Conserved (start db : Db) : Prop :=
  ∀ product row, db.products.get? product = some row →
    row.stock + listed product db + soldSettled product db = stockOf product start

/-- What an item holds of a product: its quantity, and once its sale is settled
what it has sold. -/
def heldBy (settled : Uuid → Bool) (product : Uuid) (i : ItemRow) : Int :=
  if i.productId = product then if settled i.flashSaleId then i.sold else i.quantity else 0

/-- A commit that conserves: a purchase of an item whose sale is not settled, a
settlement that returns the units still unsold, or any other commit. -/
def Commit.Fits (db : Db) : Commit → Prop
  | .purchased args _ => ∀ item, db.flashSaleItems.get? args.saleItemId = some item →
      isSettled db item.flashSaleId = false
  | .settled saleId _ (some items) => ∀ product,
      returned product items = unsoldUnits saleId product db
  | _ => True

section Conservation

variable {cfg : Cfg} {start db db' : Db} {product : Uuid}

theorem held_eq (product : Uuid) (db : Db) :
    listed product db + soldSettled product db =
      db.flashSaleItems.sum fun _ i => heldBy (isSettled db) product i := by
  rw [listed, soldSettled, ← Table.sum_add]
  refine Table.sum_congr fun id row _ => ?_
  by_cases same : row.productId = product <;>
    cases settled : isSettled db row.flashSaleId <;> simp [heldBy, same, settled]

theorem conserved_iff : Conserved start db ↔ ∀ product row, db.products.get? product = some row →
    row.stock + (db.flashSaleItems.sum fun _ i => heldBy (isSettled db) product i) =
      stockOf product start := by
  simp only [Conserved, Int.add_assoc, held_eq]

theorem Conserved.congr (conserved : Conserved start db) (products : db'.products = db.products)
    (sales : db'.flashSales = db.flashSales) (items : db'.flashSaleItems = db.flashSaleItems) :
    Conserved start db' := by
  have settled : isSettled db' = isSettled db := by
    funext id
    rw [isSettled, isSettled, sales]
  rw [conserved_iff] at conserved ⊢
  rwa [products, items, settled]

theorem Conserved.purchased (conserved : Conserved start db) {args : PurchaseArgs}
    {found : PurchaseFound} {result : PurchaseResult}
    (spec : PurchaseCommits args found result db db')
    (fits : (Commit.purchased args result).Fits db) : Conserved start db' := by
  have settled : isSettled db' = isSettled db := by
    rw [spec.effect]
    rfl
  rw [conserved_iff] at conserved ⊢
  intro product row h
  have there : db.products.get? product = some row := by
    rw [spec.effect] at h
    exact h
  rw [settled, spec.sum]
  have same : heldBy (isSettled db) product { found.item with sold := found.item.sold + 1 } =
      heldBy (isSettled db) product found.item := by
    simp [heldBy, fits found.item spec.item]
  rw [same, Int.sub_add_cancel]
  exact conserved product row there

theorem isSettled_created {input : CreateSaleInput} {found : CreateFound} {result : CreatedSale}
    (spec : CreateCommits input found result db db') : isSettled db' = isSettled db := by
  funext id
  rw [spec.effect]
  simp only [isSettled, Table.get?_insert]
  by_cases same : result.sale = id
  · subst same
    rw [spec.sale_fresh]
    simp
  · simp [same]

theorem Conserved.created (conserved : Conserved start db) {input : CreateSaleInput}
    {found : CreateFound} {result : CreatedSale}
    (spec : CreateCommits input found result db db') : Conserved start db' := by
  rw [conserved_iff] at conserved ⊢
  intro product row h
  have new : isSettled db result.sale = false := by
    rw [isSettled, spec.sale_fresh]
    rfl
  rw [isSettled_created spec, spec.sum]
  have reserves : ((itemRows result.sale found.lines).map fun row =>
      heldBy (isSettled db) product row.2).sum = reserved product input.items := by
    rw [← spec.lines_items, ← sum_itemRows result.sale, itemRows, List.map_map, List.map_map]
    congr 1
    refine List.map_congr_left fun line _ => ?_
    simp [heldBy, SaleItemInput.row, new]
  rw [reserves]
  rw [spec.effect, reserveStock_get?] at h
  obtain ⟨old, there, rfl⟩ := Option.map_eq_some_iff.mp h
  have before := conserved product old there
  dsimp only
  omega

theorem Conserved.settles (conserved : Conserved start db) {saleId : Uuid} {started : Int}
    {result : Option (List Unsold)} (spec : SettleCommits saleId started False result db db')
    (fits : (Commit.settled saleId started result).Fits db) : Conserved start db' := by
  cases spec with
  | skipped _ => exact conserved
  | @settled _ _ sale items found open_ _ effect =>
    rw [conserved_iff] at conserved ⊢
    intro product row h
    have after : ∀ id, isSettled db' id = (decide (saleId = id) || isSettled db id) := by
      intro id
      rw [effect]
      simp only [isSettled, Table.get?_modify]
      by_cases same : saleId = id
      · subst same
        simp [found]
      · simp [same]
    have open_' : isSettled db saleId = false := by
      simp [isSettled, found, open_]
    have items_same : db'.flashSaleItems = db.flashSaleItems := by rw [effect]
    -- The items of the sale give up what they have not sold.
    have gives : (db.flashSaleItems.sum fun _ i => heldBy (isSettled db') product i) +
        unsoldUnits saleId product db =
        db.flashSaleItems.sum fun _ i => heldBy (isSettled db) product i := by
      rw [unsoldUnits, ← Table.sum_add]
      refine Table.sum_congr fun id i _ => ?_
      simp only [heldBy, after]
      by_cases same : i.productId = product
      · by_cases sale : saleId = i.flashSaleId
        · subst sale
          simp [same, open_']
        · simp [same, sale, Ne.symm sale]
      · simp [same]
    rw [effect, returnAll_get?] at h
    obtain ⟨old, there, rfl⟩ := Option.map_eq_some_iff.mp h
    have before := conserved product old there
    have same := fits product
    rw [items_same]
    dsimp only
    omega

/-- A commit that fits conserves every product. -/
theorem Conserved.step {commit : Commit} (conserved : Conserved start db)
    (happened : Atomic cfg db commit db') (fits : commit.Fits db) : Conserved start db' := by
  cases happened with
  | purchased found spec => exact conserved.purchased spec fits
  | created found spec => exact conserved.created spec
  | registered found spec => rw [spec.effect]; exact conserved.congr rfl rfl rfl
  | resent found spec => rw [spec.effect]; exact conserved.congr rfl rfl rfl
  | account spec => rw [spec.effect]; exact conserved.congr (by simp) (by simp) (by simp)
  | settled spec => exact conserved.settles spec fits
  | otpSent found => exact conserved.congr rfl rfl rfl
  | ticked spec => rw [spec.effect]; exact conserved.congr rfl rfl rfl

/-- The unsold units of a sale change only by purchases of its items. -/
theorem unsoldUnits_step {commit : Commit} (happened : Atomic cfg db commit db') {saleId : Uuid}
    {sale : SaleRow} (found : db.flashSales.get? saleId = some sale)
    (elsewhere : ∀ args result, commit = .purchased args result →
      ∀ item, db.flashSaleItems.get? args.saleItemId = some item → item.flashSaleId ≠ saleId) :
    unsoldUnits saleId product db' = unsoldUnits saleId product db := by
  cases happened with
  | @purchased _ args result found spec =>
    have ne := elsewhere args result rfl found.item spec.item
    rw [unsoldUnits, unsoldUnits, spec.sum]
    simp [ne]
  | @created _ input result found' spec =>
    have ne : result.sale ≠ saleId := by
      rintro rfl
      cases found.symm.trans spec.sale_fresh
    have none : ((itemRows result.sale found'.lines).map fun row =>
        if row.2.flashSaleId = saleId ∧ row.2.productId = product then row.2.quantity - row.2.sold
        else 0).sum = 0 := by
      refine List.sum_eq_zero fun x mem => ?_
      obtain ⟨row, inside, rfl⟩ := List.mem_map.mp mem
      obtain ⟨line, _, rfl⟩ := List.mem_map.mp inside
      exact if_neg fun same => ne same.1
    rw [unsoldUnits, unsoldUnits, spec.sum, none, Int.add_zero]
  | registered found spec => rw [spec.effect]; rfl
  | resent found spec => rw [spec.effect]; rfl
  | account spec => rw [spec.effect, unsoldUnits, unsoldUnits, AccountChange.apply_flashSaleItems]
  | settled spec =>
    cases spec with
    | skipped _ => rfl
    | settled _ _ _ effect => rw [effect]; rfl
  | otpSent found => rfl
  | ticked spec => rw [spec.effect]; rfl

end Conservation

section Runs

variable {cfg : Cfg} {start s s' : State} {trace : List (State × Label)}

/-- When this step commits a purchase, no settlement of the sale has read its
items: none has committed, and none that is under way is past its read. -/
def Undisturbed (s : State) (l : Label) : Prop :=
  ∀ args result, s.committing l = some (.purchased args result) →
    ∀ item, s.server.db.flashSaleItems.get? args.saleItemId = some item →
      isSettled s.server.db item.flashSaleId = false ∧
      ∀ w t body, (s.workers w).Settles item.flashSaleId t body → pastRead body = false

/-- The items that settlements have read have the units they read. -/
def ReadHolds (db : Db) (saleId : Uuid) (items : List Unsold) : Prop :=
  ∀ product, returned product items = unsoldUnits saleId product db

theorem Undisturbed.reads {l : Label} (undisturbed : Undisturbed s l)
    (settles : SettlesAs (ReadHolds s.server.db) s) (coherent : Coherent cfg s)
    (tallied : Tallied s.server.db) (taken : step cfg s l = some s') : SettlesAs (ReadHolds s'.server.db) s' := by
  refine settles.step coherent taken ?_ ?_
  · intro saleId items same read product
    rw [same, returned_perm read]
    exact returned_unsoldItems tallied.sold_le saleId
  · rintro w saleId t body items at_ past ⟨sale, found⟩ known product
    rcases step_atomic coherent taken with ⟨-, same⟩ | ⟨commit, committing, happened⟩
    · rw [same]
      exact known product
    · rw [known product, unsoldUnits_step happened found]
      rintro args result rfl item there rfl
      have before := (undisturbed args result committing item there).2 w t body at_
      rw [past] at before
      cases before

/-- What undisturbed runs keep: while a settlement is past its read, no purchase of its sale
commits, so what was read still holds. -/
structure Conserving (cfg : Cfg) (start : Db) (s : State) : Prop where
  coherent : Coherent cfg s
  tallied : Tallied s.server.db
  reads : SettlesAs (ReadHolds s.server.db) s
  conserved : Conserved start s.server.db

theorem Conserving.init (fresh : Fresh s) (none : NoSales s.server.db) :
    Conserving cfg s.server.db s := by
  refine ⟨fresh.coherent, none.tallied, fresh.settlesAs _, fun product row found => ?_⟩
  have nothing : ∀ g : Uuid → ItemRow → Int, s.server.db.flashSaleItems.sum g = 0 := fun g =>
    Table.sum_eq_zero fun id row found => by cases (none.items id).symm.trans found
  rw [listed, soldSettled, nothing, nothing, stockOf, found]
  simp

theorem Undisturbed.step {start : Db} {l : Label} (undisturbed : Undisturbed s l)
    (before : Conserving cfg start s) (taken : FlashSale.step cfg s l = some s') :
    Conserving cfg start s' := by
  obtain ⟨coherent, tallied, reads, conserved⟩ := before
  have reads' := undisturbed.reads reads coherent tallied taken
  have coherent' := (step_coherent coherent taken).1
  rcases step_atomic coherent taken with ⟨-, same⟩ | ⟨commit, committing, happened⟩
  · refine ⟨coherent', ?_, reads', ?_⟩ <;> rwa [same]
  · refine ⟨coherent', tallied.step happened, reads', conserved.step happened ?_⟩
    cases commit with
    | purchased args result =>
      exact fun item there => (undisturbed args result committing item there).1
    | settled saleId started result =>
      cases result with
      | none => trivial
      | some items => exact reads.committed committing
    | _ => trivial

/-- Every unit is in the stock, sold or reserved by an open sale, in every state of a run
in which no purchase of a sale commits once a settlement has read the items of that
sale. The settlement reads them without locks. -/
theorem Run.conserved_of_undisturbed (fresh : Fresh start) (none : NoSales start.server.db)
    (run : Run cfg start trace s) (undisturbed : ∀ p ∈ trace, Undisturbed p.1 p.2) :
    ∀ t ∈ visits trace s, Conserved start.server.db t.server.db := by
  intro t visited
  obtain ⟨earlier, part, sub⟩ := run.of_visits visited
  have kept : Conserving cfg start.server.db t :=
    Lib.Run.invariant_while (Conserving cfg start.server.db) (.init fresh none)
      (fun _ _ _ before undisturbed taken => Undisturbed.step undisturbed before taken) part
      fun p mem => undisturbed p (sub p mem)
  exact kept.conserved

/-! A unit that is bought and one that is not. -/

theorem bareDb_noSales : NoSales bareDb := ⟨fun _ => rfl, fun _ => rfl, fun _ => rfl⟩

/-- The shop before the sale, with two units of the product. -/
def tradeDb : Db := { bareDb with products := Table.empty.insert 2 ⟨2⟩ }

def tradeShop : State := .initial tradeDb 1 (dayStart * 1000)

theorem tradeDb_noSales : NoSales tradeDb := ⟨fun _ => rfl, fun _ => rfl, fun _ => rfl⟩

/-- A sale of two units is created. The transactions of a purchase and of a registration
take their statements in turn, and both commit. The sale ends and is settled. -/
def trading : List Label :=
  .create 0 ⟨saleName, dayStart, dayStart + 1000, [⟨2, 2, 100⟩]⟩ ::
    Label.clientSteps 0 4 3 ++ Label.clientSteps 0 4 4 ++
    .purchase 1 ⟨1, some (uuidText '1'), some 4⟩ :: .register 2 ⟨otherMail, passw0rd⟩ ::
    Label.clientSteps 1 5 7 ++ Label.clientSteps 2 4 9 ++ Label.clientSteps 1 7 7 ++
    Label.clientSteps 2 3 9 ++ .elapse 1000000 :: .poll 0 :: Label.workerSteps 0 21

theorem trading_runs : (Lib.execute (step plainCfg) tradeShop trading).isSome = true := by
  decide +kernel

/-- When a purchase commits, its item is in a sale that is not settled, and worker 0 does
nothing. -/
def unsettledPurchase (p : State × Label) : Bool :=
  match p.1.committing p.2 with
  | some (.purchased args _) =>
    (((p.1.server.db.flashSaleItems.get? args.saleItemId).map fun item =>
      !isSettled p.1.server.db item.flashSaleId).getD true) &&
      match p.1.workers 0 with
      | .idle => true
      | _ => false
  | _ => true

theorem trading_undisturbed :
    ∀ p ∈ Lib.traceOf (step plainCfg) tradeShop trading, Undisturbed p.1 p.2 := by
  have unsettled : ∀ p ∈ Lib.traceOf (step plainCfg) tradeShop trading,
      unsettledPurchase p = true := by decide +kernel
  have polled : ∀ p ∈ Lib.traceOf (step plainCfg) tradeShop trading,
      p.2.polledByZero = true := by decide +kernel
  intro p mem args result committing item found
  have open_ := unsettled p mem
  simp only [unsettledPurchase, committing, found, Option.map_some, Option.getD_some,
    Bool.and_eq_true, Bool.not_eq_true'] at open_
  refine ⟨open_.1, fun w t body at_ => ?_⟩
  have idle : p.1.workers w = .idle := by
    by_cases own : w = 0
    · subst own
      cases worker : p.1.workers 0 with
      | idle => rfl
      | _ => rw [worker] at open_; cases open_.2
    · exact Run.other_idle (State.initial_fresh _ _ _) (Lib.Run.of_isSome trading_runs) polled mem own
  rw [idle] at at_
  obtain ⟨_, _, _, _, _, at_⟩ := at_
  cases at_

theorem conserved_trading :
    ∃ s, Run plainCfg tradeShop (Lib.traceOf (step plainCfg) tradeShop trading) s ∧
      purchasesOf 4 s.server.db = 1 ∧ isSettled s.server.db 3 = true ∧
      Conserved tradeDb s.server.db := by
  have run := Lib.Run.of_isSome trading_runs
  have conserved := Run.conserved_of_undisturbed (State.initial_fresh _ _ _) tradeDb_noSales run
    trading_undisturbed _ (Lib.last_mem_visits _ _)
  exact ⟨_, run, by decide +kernel, by decide +kernel, conserved⟩

/-- The purchase passes its check of the window at the end of the sale and commits
between the read and the commit of the settlement. -/
def racing : List Label :=
  creating ++ .elapse 1000000 :: .purchase 1 ⟨1, some (uuidText '1'), some 4⟩ ::
    Label.clientSteps 1 6 7 ++ .poll 0 :: Label.workerSteps 0 8 ++ Label.clientSteps 1 6 7 ++
    Label.workerSteps 0 5

theorem racing_runs : (Lib.execute (step plainCfg) bareShop racing).isSome = true := by
  decide +kernel

/-- The only unit is back in the stock and sold: the settlement reads the item before the
purchase commits, and returns what it read. -/
theorem settled_and_sold :
    ∃ s, Run plainCfg bareShop (Lib.traceOf (step plainCfg) bareShop racing) s ∧
      Fresh bareShop ∧ NoSales bareShop.server.db ∧ ¬ Conserved bareShop.server.db s.server.db := by
  refine ⟨_, Lib.Run.of_isSome racing_runs, State.initial_fresh _ _ _, bareDb_noSales,
    fun conserved => ?_⟩
  have twice := conserved 2 ⟨1⟩ (by decide +kernel)
  revert twice
  decide +kernel

theorem stock_ledger_settling :
    ∃ s, Run plainCfg bareShop (Lib.traceOf (step plainCfg) bareShop settling) s ∧
      s.server.db.products.get? 2 = some ⟨1⟩ ∧
      (1 : Int) = stockOf 2 bareDb - allocated 2 s.server.db +
        returnedTotal 2 (commits s.history) := by
  have run := Lib.Run.of_isSome settling_runs
  have inStock : InStock bareDb := by
    intro product row found
    rcases Table.get?_insert_cases found with old | ⟨-, rfl⟩
    · cases old
    · decide
  have found : ((Lib.execute (step plainCfg) bareShop settling).get
      settling_runs).server.db.products.get? 2 = some ⟨1⟩ := by decide +kernel
  have ledger := Run.stock_ledger (State.initial_fresh _ _ _) bareDb_noSales inStock run
  exact ⟨_, run, found, (ledger.1 2 _ found).1⟩

end Runs

end FlashSale
