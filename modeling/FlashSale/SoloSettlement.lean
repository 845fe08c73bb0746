/-
# A settlement that no one hinders

A settlement uses no row of the outbox, so the tick that calls it does not hinder it, and
when no other transaction is open it runs to its end. `Tx.Ensures` says where that is,
while the tick holds its own locks.

What a settlement returns was once taken from a stock, but the rows here may be any that the
constraints allow, so that the column has room for it is a condition.

* `Returnable`: the stock column has room for all that unsettled sales can still return
  of the products of a sale. It is the only thing that a settlement can fail for.
* `settle_ensures`: where a settlement ends.
* `SettlesAlone.returnable`: a settlement leaves the others the room they have.
-/
import FlashSale.Stock
import FlashSale.Constraints
import FlashSale.Lib.Apart

namespace FlashSale

open Lib (Table Tx applyAll applyAll_append)

/-- All resources but the rows of the outbox. -/
def Resource.NoEvent (r : Resource) : Prop := ∀ id, r ≠ .outbox id

def Db.unsettled (db : Db) (saleId : Uuid) : Bool :=
  match db.flashSales.get? saleId with
  | some sale => sale.settledAt.isNone
  | none => false

/-- The units of a product that unsettled sales have not sold. -/
def outstanding (product : Uuid) (db : Db) : Int :=
  db.flashSaleItems.sum fun _ i =>
    if i.productId = product ∧ db.unsettled i.flashSaleId = true then i.quantity - i.sold else 0

/-- The stock of each product of a sale stays in the range of its column when all of its
outstanding units are returned. -/
def Returnable (saleId : Uuid) (db : Db) : Prop :=
  ∀ id item product, db.flashSaleItems.get? id = some item → item.flashSaleId = saleId →
    db.products.get? item.productId = some product →
      product.stock + outstanding item.productId db ≤ 9223372036854775807

/-- What a settlement does that has the rows to itself. -/
inductive SettlesAlone (saleId : Uuid) (started : Int) (db : Db) : Db → Prop where
  | skipped : SettlesAlone saleId started db db
  | settled {sale : SaleRow} {items : List Unsold} (found : db.flashSales.get? saleId = some sale)
      (open_ : sale.settledAt = none) (read : items.Perm (unsoldItems saleId db)) :
      SettlesAlone saleId started db { db with
        products := returnAll items db.products
        flashSales := db.flashSales.modify saleId
          fun s => { s with settledAt := some (toColumn started) } }

section Units

variable {db : Db} {saleId product : Uuid}

theorem unsettled_of_open {sale : SaleRow} (found : db.flashSales.get? saleId = some sale)
    (open_ : sale.settledAt = none) : db.unsettled saleId = true := by
  simp [Db.unsettled, found, open_]

/-- The units of an unsettled sale are among those outstanding. -/
theorem unsoldUnits_le_outstanding (conforms : db.Conforms)
    (unsettled : db.unsettled saleId = true) :
    unsoldUnits saleId product db ≤ outstanding product db := by
  refine Table.sum_le_sum fun id item found => ?_
  have sold := (conforms.items id item found).sold.2
  by_cases sale : item.flashSaleId = saleId
  · by_cases same : item.productId = product <;> simp [sale, same, unsettled]
  · simp only [sale, false_and, if_false]
    split <;> omega

theorem returned_append (items more : List Unsold) :
    returned product (items ++ more) = returned product items + returned product more := by
  simp [returned]

theorem returned_nonneg {items : List Unsold} (positive : ∀ item ∈ items, 0 < item.unsold) :
    0 ≤ returned product items := by
  refine List.sum_nonneg fun n mem => ?_
  obtain ⟨item, inside, rfl⟩ := List.mem_map.mp mem
  have := positive item inside
  split <;> omega

/-- A part of what a settlement has read fits into the stock. -/
theorem Returnable.fits (conforms : db.Conforms) (room : Returnable saleId db)
    (unsettled : db.unsettled saleId = true) {done rest : List Unsold} {item : Unsold}
    (read : (done ++ item :: rest).Perm (unsoldItems saleId db)) {row : ProductRow}
    (found : db.products.get? item.productId = some row) :
    0 ≤ row.stock + returned item.productId done + item.unsold ∧
      row.stock + returned item.productId done + item.unsold ≤ 9223372036854775807 := by
  have positive : ∀ i ∈ done ++ item :: rest, 0 < i.unsold := fun i mem =>
    unsoldItems_positive (read.mem_iff.mp mem)
  have own := positive item (List.mem_append_right _ List.mem_cons_self)
  have before : 0 ≤ returned item.productId done :=
    returned_nonneg fun i mem => positive i (List.mem_append_left _ mem)
  have after : 0 ≤ returned item.productId rest := returned_nonneg fun i mem =>
    positive i (List.mem_append_right _ (List.mem_cons_of_mem _ mem))
  have total : returned item.productId (done ++ item :: rest) =
      returned item.productId done + (item.unsold + returned item.productId rest) := by
    rw [returned_append]
    simp [returned]
  have units : returned item.productId (done ++ item :: rest) =
      unsoldUnits saleId item.productId db :=
    (returned_perm read).trans
      (returned_unsoldItems (fun id i found => (conforms.items id i found).sold.2) saleId)
  have stock := (conforms.products _ row found).nonneg
  have among : unsoldUnits saleId item.productId db ≤ outstanding item.productId db :=
    unsoldUnits_le_outstanding conforms unsettled
  obtain ⟨⟨id, listed⟩, selected, is⟩ := List.mem_map.mp
    (read.mem_iff.mp (List.mem_append_right done List.mem_cons_self))
  subst is
  obtain ⟨there, short⟩ := Table.mem_select.mp selected
  simp only [Bool.and_eq_true, decide_eq_true_eq] at short
  have bound := room id listed row there short.1 found
  dsimp only at own before after total units among bound ⊢
  omega

end Units

/-! ### The transaction -/

section Transaction

variable {db : Db} {saleId : Uuid} {started : Int}

/-- Where a settlement can end: it has settled the sale, or it has left it, or it has
failed for want of room. -/
def SettleEnd (saleId : Uuid) (started : Int) (db : Db) :
    Except Failure (Option (List Unsold) × List Write) → Prop
  | .ok (_, ws) => SettlesAlone saleId started db (applyAll db ws)
  | .error _ => ¬ Returnable saleId db

/-- Where its loop can end. -/
def ReturnEnd (saleId : Uuid) (items : List Unsold) (db : Db) :
    Except Failure (Unit × List Write) → Prop
  | .ok (_, ws) => applyAll db ws = { db with products := returnAll items db.products }
  | .error _ => ¬ Returnable saleId db

theorem returnStock_ensures (conforms : db.Conforms) (unsettled : db.unsettled saleId = true)
    {done rest : List Unsold} (read : (done ++ rest).Perm (unsoldItems saleId db)) {ws : List Write}
    (view : applyAll db ws = { db with products := returnAll done db.products }) :
    (returnStock rest).Ensures plan (fun env => env.started = started) Resource.NoEvent db
      (ReturnEnd saleId (done ++ rest) db) ws := by
  induction rest generalizing done ws with
  | nil =>
    rw [List.append_nil]
    exact view
  | cons item rest ih =>
    have stock : (applyAll db ws).products.get? item.productId =
        (db.products.get? item.productId).map
          fun p => { p with stock := p.stock + returned item.productId done } := by
      rw [view]
      exact returnAll_get? done db.products item.productId
    refine Tx.Ensures.statement (fun env _ l mem id => ?_) (fun env e _ failed room => ?_)
      (fun env ws' r _ got => ?_)
    · simp only [plan] at mem
      split at mem
      · cases mem
      · unfold updating failing at mem
        split at mem <;> simp_all [Write.needs]
    · simp only [plan, stock] at failed
      cases found : db.products.get? item.productId with
      | none =>
        rw [found] at failed
        cases failed
      | some row =>
        rw [found] at failed
        obtain ⟨low, high⟩ := room.fits conforms unsettled read found
        have violated := updating_error failed
        have inRange : int8 (row.stock + returned item.productId done + item.unsold) = true := by
          simp only [int8, decide_eq_true_eq]
          omega
        simp [violations, inRange, low] at violated
    · rw [List.append_cons]
      refine ih (by rwa [List.append_cons] at read) ?_
      rw [applyAll_append, view, returnAll_snoc]
      simp only [plan, stock] at got
      cases found : db.products.get? item.productId with
      | none =>
        rw [found] at got
        cases got
        have absent : (returnAll done db.products).get? item.productId = none := by
          rw [returnAll_get?, found]
          rfl
        rw [Table.modify_absent absent]
        rfl
      | some row =>
        rw [found] at got
        obtain ⟨-, rfl, -⟩ := updating_ok got
        rfl

/-- Where a settlement ends that has the rows to itself: it has settled the sale, skipped it, or
thrown because a stock has no room. -/
theorem settle_ensures (conforms : db.Conforms) (saleId : Uuid) (started : Int) :
    (settle saleId).Ensures plan (fun env => env.started = started) Resource.NoEvent db
      (SettleEnd saleId started db) [] := by
  unfold settle
  refine Tx.Ensures.statement (fun env _ l mem id => ?_) (fun env e _ failed => ?_)
    (fun env ws row _ got => ?_)
  · simp only [plan] at mem
    split at mem
    · cases mem
    · simp_all [locking]
  · simp only [plan] at failed
    split at failed <;> cases failed
  · cases row with
    | none =>
      obtain ⟨rfl, -⟩ := plan_selectSaleForUpdate_none got
      exact SettlesAlone.skipped
    | some settledAt =>
      obtain ⟨rfl, -, sale, found, rfl⟩ := plan_selectSaleForUpdate got
      change db.flashSales.get? saleId = some sale at found
      cases open_ : sale.settledAt with
      | some t => exact SettlesAlone.skipped
      | none =>
        have unsettled := unsettled_of_open found open_
        dsimp only
        unfold settleOpen
        refine Tx.Ensures.statement (fun env _ l mem => by cases mem) (fun env e _ failed => by
          cases failed) (fun env ws items _ got => ?_)
        obtain ⟨rfl, read⟩ := plan_selectUnsold got
        change items.Perm (unsoldItems saleId db) at read
        have returns : (returnStock items).Ensures plan (fun env => env.started = started)
            Resource.NoEvent db (ReturnEnd saleId items db) [] :=
          returnStock_ensures conforms unsettled (List.nil_append items ▸ read) rfl
        refine Tx.Ensures.bind returns (fun _ ws view => ?_) fun e full => full
        change applyAll db ws = { db with products := returnAll items db.products } at view
        have there : (applyAll db ws).flashSales.get? saleId = some sale := by
          rw [view]
          exact found
        refine Tx.Ensures.statement (fun env _ l mem id => ?_) (fun env e _ failed => ?_)
          (fun env ws' _ admits got => ?_)
        · simp only [plan, there] at mem
          simp_all [updating, Write.needs]
        · simp only [plan, there] at failed
          cases failed
        · obtain ⟨rfl, -⟩ := plan_updateSettled got there
          show SettlesAlone saleId started db (applyAll db (ws ++ _))
          rw [applyAll_append, view, admits]
          exact .settled found open_ read

end Transaction

/-! ### The room of the others -/

section Room

variable {db db' : Db} {saleId : Uuid} {started : Int}

/-- The stamp of a settlement ends what its sale has outstanding. -/
theorem unsettled_stamped {products : Table Uuid ProductRow} {t : Int} {other : Uuid} :
    Db.unsettled { db with
      products := products
      flashSales := db.flashSales.modify saleId fun s => { s with settledAt := some t } } other =
      (db.unsettled other && decide (other ≠ saleId)) := by
  unfold Db.unsettled
  dsimp only
  rw [Table.get?_modify]
  by_cases own : saleId = other
  · subst own
    cases db.flashSales.get? saleId <;> simp
  · cases db.flashSales.get? other <;> simp [own, Ne.symm own]

/-- What a settlement returns is outstanding no longer. -/
theorem SettlesAlone.conserves (conforms : db.Conforms)
    (settles : SettlesAlone saleId started db db')
    {product : Uuid} {row' : ProductRow} (found' : db'.products.get? product = some row') :
    ∃ row, db.products.get? product = some row ∧
      row'.stock + outstanding product db' = row.stock + outstanding product db := by
  cases settles with
  | skipped => exact ⟨row', found', rfl⟩
  | @settled sale items found open_ read =>
    change (returnAll items db.products).get? product = some row' at found'
    rw [returnAll_get?] at found'
    obtain ⟨row, there, rfl⟩ := Option.map_eq_some_iff.mp found'
    refine ⟨row, there, ?_⟩
    have units : returned product items = unsoldUnits saleId product db :=
      (returned_perm read).trans
        (returned_unsoldItems (fun id i found => (conforms.items id i found).sold.2) saleId)
    have unsettled := unsettled_of_open found open_
    have split : outstanding product db = outstanding product { db with
        products := returnAll items db.products
        flashSales := db.flashSales.modify saleId
          fun s => { s with settledAt := some (toColumn started) } } +
          unsoldUnits saleId product db := by
      unfold outstanding unsoldUnits
      rw [← Table.sum_add]
      refine Table.sum_congr fun id item _ => ?_
      rw [unsettled_stamped]
      by_cases own : item.flashSaleId = saleId
      · rw [own, unsettled]
        by_cases same : item.productId = product <;> simp [same]
      · simp [own]
    dsimp only
    omega

theorem SettlesAlone.items (settles : SettlesAlone saleId started db db') :
    db'.flashSaleItems = db.flashSaleItems := by
  cases settles <;> rfl

/-- A settlement leaves the others the room they have: what it returns was outstanding
before. -/
theorem SettlesAlone.returnable (conforms : db.Conforms)
    (settles : SettlesAlone saleId started db db')
    {saleId' : Uuid} (room : Returnable saleId' db) : Returnable saleId' db' := by
  intro id item row' listed own found'
  rw [settles.items] at listed
  obtain ⟨row, found, same⟩ := settles.conserves conforms found'
  rw [same]
  exact room id item row listed own found

end Room

end FlashSale
