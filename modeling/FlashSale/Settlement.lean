/-
# `FlashSaleSettleHandler.settle`

The transaction that returns the unsold units of a sale to the stock, and what
its commit does.

The handler can be called any number of times for a sale. It locks the sale first, and the
stamp that it leaves there says that the sale is settled, so that a later call finds
nothing to do. The items are read without a lock on them.

* `returnStock_get?`: the loop gives every product exactly the units read for it.
* `settle_safe`: a settlement that commits has the effect `SettleCommits` states:
  nothing for a sale that is missing or settled, and otherwise the units it read
  and the stamp, on a sale that was not settled until then.
-/
import FlashSale.SaleCreation

namespace FlashSale

open Lib (Table Tx Safe Stable Commits Lock applyAll applyAll_append)

/-! ### The transaction -/

/-- The loop over the items that were read. -/
def returnStock : List Unsold → Program Unit
  | [] => pure ()
  | item :: rest => do
    run (.updateStock item.productId item.unsold)
    returnStock rest

/-- The loop, the stamp, and what the transaction returns: the items it has read,
for the totals it logs. -/
def giveBack (saleId : Uuid) (items rest : List Unsold) : Program (Option (List Unsold)) := do
  returnStock rest
  run (.updateSettled saleId)
  pure (some items)

/-- The transaction past its guard. -/
def settleOpen (saleId : Uuid) : Program (Option (List Unsold)) := do
  let items ← run (.selectUnsold saleId)
  giveBack saleId items items

/-- The body of the handler's transaction. It returns early, with `none`, for a sale that is
missing or settled; the sale is locked, and its items are not. -/
def settle (saleId : Uuid) : Program (Option (List Unsold)) := do
  match ← run (.selectSaleForUpdate saleId) with
  | none => pure none
  | some (some _) => pure none
  | some none => settleOpen saleId

/-! ### What a commit does -/

/-- The units that a list of items returns of a product. -/
def returned (product : Uuid) (items : List Unsold) : Int :=
  (items.map fun item => if item.productId = product then item.unsold else 0).sum

/-- Give the units of a list of items back to the stock. -/
def returnAll (items : List Unsold) (products : Table Uuid ProductRow) : Table Uuid ProductRow :=
  items.foldl (fun t item => t.modify item.productId
    fun p => { p with stock := p.stock + item.unsold }) products

/-- One committed settlement, as a single step on the committed rows. `existed`
says that the sale was there before the transaction began. -/
inductive SettleCommits (saleId : Uuid) (started : Int) (existed : Prop) :
    Option (List Unsold) → Db → Db → Prop where
  | skipped {db : Db}
      (settled : existed → ∃ sale, db.flashSales.get? saleId = some sale ∧ sale.settledAt ≠ none) :
      SettleCommits saleId started existed none db db
  | settled {db db' : Db} {sale : SaleRow} {items : List Unsold}
      (found : db.flashSales.get? saleId = some sale) (open_ : sale.settledAt = none)
      (positive : ∀ item ∈ items, 0 < item.unsold)
      (effect : db' = { db with
        products := returnAll items db.products
        flashSales := db.flashSales.modify saleId
          fun s => { s with settledAt := some (toColumn started) } }) :
      SettleCommits saleId started existed (some items) db db'

/-! ### The accumulator of the loop -/

theorem returnAll_snoc (items : List Unsold) (item : Unsold) (products : Table Uuid ProductRow) :
    returnAll (items ++ [item]) products = (returnAll items products).modify item.productId
      fun p => { p with stock := p.stock + item.unsold } := by
  simp [returnAll]

/-- The loop gives each product the units read for it. -/
theorem returnAll_get? (items : List Unsold) (products : Table Uuid ProductRow) (product : Uuid) :
    (returnAll items products).get? product =
      (products.get? product).map fun p => { p with stock := p.stock + returned product items } := by
  induction items generalizing products with
  | nil => cases h : products.get? product <;> simp [returnAll, returned, h]
  | cons item items ih =>
    show (returnAll items _).get? product = _
    rw [ih, Table.get?_modify]
    by_cases same : item.productId = product
    · rw [if_pos same, Option.map_map]
      congr 1
      funext p
      simp only [Function.comp, returned, List.map_cons, same, if_true, List.sum_cons]
      congr 1
      omega
    · rw [if_neg same]
      simp [returned, same]

/-! ### The outline -/

section Outline

variable {Allowed : Stmt → DbError → Prop} {Admits : Env → Prop}

/-- After the loop over `items`: the sale is as it was read, and the writes give
the units back. -/
structure ReturnMid (saleId : Uuid) (sale : SaleRow) (items : List Unsold) (ws : List Write)
    (L : List (Lock Resource)) (F : Db → Prop) : Prop where
  stable : Stable Write L F
  lock : Guards L (.flashSale saleId)
  sale : ∀ db, F db → db.flashSales.get? saleId = some sale
  effect : ∀ db, F db → applyAll db ws = { db with products := returnAll items db.products }

theorem returnStock_safe (any : ∀ s e, Allowed s e) {saleId : Uuid} {sale : SaleRow}
    (rest done : List Unsold) (ws : List Write) (L : List (Lock Resource)) (F : Db → Prop)
    (mid : ReturnMid saleId sale done ws L F) :
    Safe plan Admits Allowed (fun _ => ReturnMid saleId sale (done ++ rest)) (returnStock rest)
      ws L F := by
  induction rest generalizing done ws L F with
  | nil =>
    rw [List.append_nil]
    exact mid
  | cons item rest ih =>
    unfold returnStock
    refine Safe.statement fun env db _ known => ⟨fun _ _ => any _ _, fun ws' _ got => ?_⟩
    have view : ∀ db, F db → (applyAll db ws).products = returnAll done db.products :=
      fun db known => by rw [mid.effect db known]
    cases found : db.products.get? item.productId with
    | some product =>
      have here : (applyAll db ws).products.get? item.productId =
          some ⟨product.stock + returned item.productId done⟩ := by
        rw [view db known, returnAll_get?, found]
        rfl
      obtain ⟨rfl, locks, -⟩ := plan_updateStock got here
      rw [locks]
      have next : ReturnMid saleId sale (done ++ [item]) (ws ++ [.addStock item.productId item.unsold])
          ([⟨.product item.productId, .noKeyUpdate⟩] ++ L) F :=
        { stable := mid.stable.mono fun l mem => List.mem_append_right _ mem
          lock := mid.lock.append_left
          sale := mid.sale
          effect := fun db known => by
            rw [applyAll_append, mid.effect db known, returnAll_snoc]
            rfl }
      exact ⟨F, next.stable, known, by simpa using ih _ _ _ _ next⟩
    | none =>
      -- The product does not exist: nothing is updated, now or at the commit.
      have absent : ∀ db, F db → db.products.get? item.productId = none →
          (returnAll done db.products).get? item.productId = none := by
        intro db _ none
        rw [returnAll_get?, none]
        rfl
      have gone : (applyAll db ws).products.get? item.productId = none := by
        rw [view db known]
        exact absent db known found
      obtain rfl := plan_updateStock_absent got gone
      generalize (plan (.updateStock item.productId item.unsold) env _).locks = held
      have next : ReturnMid saleId sale (done ++ [item]) (ws ++ []) (held ++ L)
          (fun db => F db ∧ db.products.get? item.productId = none) :=
        { stable := (mid.stable.mono fun l mem => List.mem_append_right _ mem).and stable_no_product
          lock := mid.lock.append_left
          sale := fun db known => mid.sale db known.1
          effect := fun db known => by
            rw [List.append_nil, mid.effect db known.1, returnAll_snoc,
              Table.modify_absent (absent db known.1 known.2)] }
      exact ⟨_, next.stable, ⟨known, found⟩, by simpa using ih _ _ _ _ next⟩

/-- Among any other transactions, a settlement that commits does what
`SettleCommits` states. -/
theorem settle_safe (any : ∀ s e, Allowed s e) (saleId : Uuid) (started : Int) (existed : Prop) :
    Safe plan (fun env => env.started = started) Allowed
      (Commits (SettleCommits saleId started existed)) (settle saleId) [] []
      fun db => existed → ∃ sale, db.flashSales.get? saleId = some sale := by
  unfold settle
  -- `SELECT settled_at … FOR UPDATE`
  refine Safe.statement fun env db _ exists_ => ⟨fun _ _ => any _ _, fun ws row got => ?_⟩
  cases row with
  | none =>
    obtain ⟨rfl, missing⟩ := plan_selectSaleForUpdate_none got
    refine ⟨fun _ => True, Stable.const _ _, trivial, fun _ _ => .skipped fun e => ?_⟩
    obtain ⟨sale, found⟩ := exists_ e
    exact absurd (missing.symm.trans found) (by simp)
  | some settledAt =>
    obtain ⟨rfl, locks, sale, found, rfl⟩ := plan_selectSaleForUpdate got
    rw [locks]
    have lock : Guards ([⟨.flashSale saleId, .update⟩] ++ ([] : List (Lock Resource)))
        (.flashSale saleId) := Guards.of_update (by simp)
    refine ⟨_, stable_sale lock, found, ?_⟩
    cases settled : sale.settledAt with
    | some t =>
      intro db found
      exact .skipped fun _ => ⟨sale, found, by simp [settled]⟩
    | none =>
      -- `SELECT product_id, (quantity - sold) …`
      refine Safe.statement fun env db _ known => ⟨fun _ _ => any _ _, fun ws items got => ?_⟩
      obtain ⟨rfl, same⟩ := plan_selectUnsold got
      have positive : ∀ item ∈ items, 0 < item.unsold := fun item mem =>
        unsoldItems_positive (same.mem_iff.mp mem)
      generalize (plan (.selectUnsold saleId) env _).locks = held
      have start : ReturnMid saleId sale [] [] (held ++ _) _ :=
        { stable := stable_sale lock.append_left
          lock := lock.append_left
          sale := fun _ known => known
          effect := fun _ _ => rfl }
      refine ⟨_, start.stable, known, Safe.bind (returnStock_safe any items [] _ _ _ start) ?_⟩
      intro _ ws L F mid
      -- `UPDATE flash_sales`
      refine Safe.statement fun env db started known => ⟨fun _ _ => any _ _, fun ws' _ got => ?_⟩
      have view : (applyAll db ws).flashSales.get? saleId = some sale := by
        rw [mid.effect db known]
        exact mid.sale db known
      obtain ⟨rfl, locks⟩ := plan_updateSettled got view
      rw [started]
      refine ⟨F, mid.stable.mono fun l mem => List.mem_append_right _ mem, known, fun db known => ?_⟩
      refine .settled (mid.sale db known) settled positive ?_
      rw [applyAll_append, mid.effect db known]
      rfl

end Outline

end FlashSale
