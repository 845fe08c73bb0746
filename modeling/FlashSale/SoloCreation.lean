/-
# A sale creation without concurrent transactions

Exactly when `SaleCreationService.create` succeeds on a committed state, what it changes
then, and that it changes nothing when it throws, whatever its loop has reserved.

* `reserve_ok_iff`: the loop goes through exactly when every line fits, and no product
  is listed twice.
* `create_exact`: the success condition and the effect, for a name and dates that the
  database takes.
* `create_refuses`: a name with a NUL, and dates of the year 10000, are refused where every
  check of the schema would pass.
-/
import FlashSale.SoloPurchase

namespace FlashSale

open Lib (Table Tx Surroundings applyAll applyAll_append)

/-! ### Single statements -/

theorem inserting_ok_iff {ρ : Type} {w : Write} {result r : ρ} {ws : List Write}
    {violated : Option DbError} {duplicate orphan : Bool} :
    (inserting w result violated duplicate orphan).answer = .ok (ws, r) ↔
      violated = none ∧ duplicate = false ∧ orphan = false ∧ ws = [w] ∧ r = result := by
  constructor
  · intro got
    obtain ⟨valid, unique, parents, rfl, rfl, -⟩ := inserting_ok got
    exact ⟨valid, unique, parents, rfl, rfl⟩
  · rintro ⟨rfl, rfl, rfl, rfl, rfl⟩
    rfl

/-- The columns of the input are in range. -/
structure CreateSaleInput.InColumns (input : CreateSaleInput) : Prop where
  name : (Lib.Utf16.decode input.name).length ≤ 255
  quantities : ∀ line ∈ input.items, int4 line.quantity = true
  prices : ∀ line ∈ input.items, int8 line.priceCents = true

/-- They are in range, and the database takes the text and the dates. -/
structure CreateSaleInput.InRange (input : CreateSaleInput) : Prop extends input.InColumns where
  text : takesText input.name = true
  starts : takesDate input.startsAt = true
  ends : takesDate input.endsAt = true

theorem takesSale_iff {name : CodeUnits} {startsAt endsAt : Int} :
    takesSale name startsAt endsAt = true ↔ (Lib.Utf16.decode name).length ≤ 255 ∧
      takesText name = true ∧ takesDate startsAt = true ∧ takesDate endsAt = true := by
  simp [takesSale, and_assoc]

theorem CreateSaleInput.InRange.of_takes {input : CreateSaleInput}
    (takes : takesSale input.name input.startsAt input.endsAt = true)
    (quantities : ∀ line ∈ input.items, int4 line.quantity = true)
    (prices : ∀ line ∈ input.items, int8 line.priceCents = true) : input.InRange := by
  obtain ⟨name, text, starts, ends⟩ := takesSale_iff.mp takes
  exact ⟨⟨name, quantities, prices⟩, text, starts, ends⟩

theorem CreateSaleInput.InRange.takes {input : CreateSaleInput} (inRange : input.InRange) :
    takesSale input.name input.startsAt input.endsAt = true :=
  takesSale_iff.mpr ⟨inRange.name, inRange.text, inRange.starts, inRange.ends⟩

section Loop

variable {db : Db} {sale : Uuid} {row : SaleRow} {done : List (SaleItemInput × Uuid)}
  {line : SaleItemInput} {env : Env} {around : Surroundings Env Failure} {i : Nat}

/-- A line that the database accepts by itself: its product is there, and has as many units as
are listed, at least one. -/
def Fits (db : Db) (line : SaleItemInput) : Prop :=
  ∃ product, db.products.get? line.productId = some product ∧ 1 ≤ line.quantity ∧
    line.quantity ≤ product.stock

/-- What the loop has inserted is new. -/
structure Inserted (db : Db) (sale : Uuid) (done : List (SaleItemInput × Uuid)) : Prop where
  sale : db.flashSales.get? sale = none
  nodup : (done.map Prod.snd).Nodup
  fresh : ∀ id ∈ done.map Prod.snd, db.flashSaleItems.get? id = none

/-- The rows that the loop has inserted. -/
theorem Inserted.there (inserted : Inserted db sale done) {p : SaleItemInput × Uuid} (mem : p ∈ done) :
    (db.flashSaleItems.insertAll (itemRows sale done)).get? p.2 = some (p.1.row sale) := by
  have ids : (itemRows sale done).map Prod.fst = done.map Prod.snd := by simp [itemRows]
  refine Table.get?_insertAll_of_mem (ids ▸ inserted.nodup) ?_ (List.mem_map_of_mem mem)
  intro row' mem'
  apply inserted.fresh row'.1
  rw [← ids]
  exact List.mem_map_of_mem mem'

/-- An item is new in its sale, and so is its identifier. -/
theorem item_unique_iff (conforms : db.Conforms) (inserted : Inserted db sale done) {draw : Uuid} :
    ((db.flashSaleItems.insertAll (itemRows sale done)).any fun id item => decide (id = draw) ||
      (decide (item.flashSaleId = sale) && decide (item.productId = line.productId))) = false ↔
      db.flashSaleItems.get? draw = none ∧ draw ∉ done.map Prod.snd ∧
        line.productId ∉ done.map fun p => p.1.productId := by
  rw [Table.any_eq_false]
  constructor
  · intro clash
    refine ⟨?_, ?_, ?_⟩
    · cases found : db.flashSaleItems.get? draw with
      | none => rfl
      | some item => simpa using clash draw item (Table.get?_insertAll_of_some found)
    · intro mem
      obtain ⟨p, inside, rfl⟩ := List.mem_map.mp mem
      simpa using clash p.2 _ (inserted.there inside)
    · intro mem
      obtain ⟨p, inside, same⟩ := List.mem_map.mp mem
      simpa [SaleItemInput.row, same] using clash p.2 _ (inserted.there inside)
  · rintro ⟨absent, unused, unlisted⟩ id item found
    rcases Table.get?_insertAll_cases found with old | new
    · -- Every older item belongs to a sale that exists.
      have other : item.flashSaleId ≠ sale := by
        rintro rfl
        exact conforms.itemSales id item old inserted.sale
      have different : id ≠ draw := by
        rintro rfl
        rw [absent] at old
        cases old
      simp [other, different]
    · obtain ⟨p, inside, is⟩ := List.mem_map.mp new
      cases is
      have different : p.2 ≠ draw := by
        rintro rfl
        exact unused (List.mem_map_of_mem inside)
      have other : p.1.productId ≠ line.productId := fun same =>
        unlisted (List.mem_map.mpr ⟨p, inside, same⟩)
      simp [different, SaleItemInput.row, other]

theorem reserved_done {product : Uuid} (unlisted : product ∉ done.map fun p => p.1.productId) :
    reserved product (done.map Prod.fst) = 0 := by
  apply reserved_unlisted
  rw [List.map_map]
  exact unlisted

/-- The stock that the loop sees of a product it has not come to. -/
theorem seen_stock {product : ProductRow} (unlisted : line.productId ∉ done.map fun p => p.1.productId)
    (found : db.products.get? line.productId = some product) :
    (applyAll db (saleWrites sale row done)).products.get? line.productId = some product := by
  rw [applyAll_saleWrites]
  simp [reserveStock_get?, found, reserved_done unlisted]

/-- What the loop needs for a line: the database accepts it, no earlier line is for its
product, and its identifier is new. -/
structure LineFree (db : Db) (done : List (SaleItemInput × Uuid)) (line : SaleItemInput) (draw : Uuid) :
    Prop where
  fits : Fits db line
  unlisted : line.productId ∉ done.map fun p => p.1.productId
  fresh : db.flashSaleItems.get? draw = none
  unused : draw ∉ done.map Prod.snd

/-- The INSERT of an item goes through exactly when its line is free. -/
theorem createItem_ok_iff (conforms : db.Conforms) (inserted : Inserted db sale done)
    (quantity : int4 line.quantity = true) (price : int8 line.priceCents = true) {ws : List Write}
    {id : Uuid} {product : ProductRow} (found : db.products.get? line.productId = some product)
    (enough : line.quantity ≤ product.stock - reserved line.productId (done.map Prod.fst)) :
    (plan (.createItem sale line.productId line.quantity line.priceCents) env
      (applyAll db (saleWrites sale row done ++ [.addStock line.productId (-line.quantity)]))).answer =
        .ok (ws, id) ↔
      LineFree db done line env.draw ∧ ws = [.insertItem env.draw (line.row sale)] ∧ id = env.draw := by
  have view : applyAll db (saleWrites sale row done ++ [.addStock line.productId (-line.quantity)]) =
      { applyAll db (saleWrites sale row done) with
        products := (reserveStock (done.map Prod.fst) db.products).modify line.productId
          fun p => { p with stock := p.stock + -line.quantity } } := by
    rw [applyAll_append, applyAll_saleWrites]
    rfl
  have parents : (((db.flashSales.insert sale row).get? sale).isNone ||
      (((reserveStock (done.map Prod.fst) db.products).modify line.productId
        fun p => { p with stock := p.stock + -line.quantity }).get? line.productId).isNone) = false := by
    rw [Table.get?_insert_self inserted.sale, Table.get?_modify_self, reserveStock_get?, found]
    rfl
  rw [view, plan, applyAll_saleWrites, inserting_ok_iff, violations_eq_none,
    item_unique_iff conforms inserted, parents]
  simp only [quantity, price, decide_eq_true_eq, Bool.and_self, true_and]
  constructor
  · rintro ⟨positive, ⟨fresh, unused, unlisted⟩, rfl, rfl⟩
    rw [reserved_done unlisted, Int.sub_zero] at enough
    exact ⟨⟨⟨product, found, positive, enough⟩, unlisted, fresh, unused⟩, rfl, rfl⟩
  · rintro ⟨⟨⟨-, -, positive, -⟩, unlisted, fresh, unused⟩, rfl, rfl⟩
    exact ⟨positive, ⟨fresh, unused, unlisted⟩, rfl, rfl⟩

variable {α : Type} {rest : Uuid → Program α} {out : α × List Write}

/-- A line goes through exactly when it is free and nothing fails from outside. -/
theorem line_ok_iff (conforms : db.Conforms) (inserted : Inserted db sale done)
    (quantity : int4 line.quantity = true) (price : int8 line.priceCents = true) :
    (do
      run (.selectProductForUpdate line.productId)
      run (.updateStock line.productId (-line.quantity))
      let id ← run (.createItem sale line.productId line.quantity line.priceCents)
      rest id : Program α).solo plan around db i (saleWrites sale row done) = .ok out ↔
      (around.fails i = none ∧ around.fails (i + 1) = none ∧ around.fails (i + 2) = none) ∧
        LineFree db done line (around.env (i + 2)).draw ∧
        (rest (around.env (i + 2)).draw).solo plan around db (i + 3)
          (saleWrites sale row (done ++ [(line, (around.env (i + 2)).draw)])) = .ok out := by
  constructor
  · intro returned
    obtain ⟨spared, ws, _, read, returned⟩ := Tx.solo_returned returned
    obtain rfl := plan_selectProductForUpdate read
    obtain ⟨spared₁, ws₁, _, taken, returned⟩ := Tx.solo_returned returned
    obtain ⟨spared₂, ws₂, id, created, returned⟩ := Tx.solo_returned returned
    rw [List.append_nil] at taken created returned
    cases found : db.products.get? line.productId with
    | none =>
      -- Nothing is updated, and the INSERT finds no product.
      have absent : (applyAll db (saleWrites sale row done)).products.get? line.productId = none := by
        rw [applyAll_saleWrites]
        simp [reserveStock_get?, found]
      obtain rfl := plan_updateStock_absent taken absent
      rw [List.append_nil] at created
      exact absurd absent (plan_createItem created).2.2.2.1
    | some product =>
      have view : (applyAll db (saleWrites sale row done)).products.get? line.productId =
          some ⟨product.stock - reserved line.productId (done.map Prod.fst)⟩ := by
        rw [applyAll_saleWrites]
        simp [reserveStock_get?, found]
      obtain ⟨rfl, -, nonneg⟩ := plan_updateStock taken view
      have enough : line.quantity ≤ product.stock - reserved line.productId (done.map Prod.fst) := by
        dsimp only at nonneg
        omega
      obtain ⟨free, rfl, rfl⟩ :=
        (createItem_ok_iff conforms inserted quantity price found enough).mp created
      rw [saleWrites_snoc] at returned
      exact ⟨⟨spared, spared₁, spared₂⟩, free, returned⟩
  · rintro ⟨⟨spared, spared₁, spared₂⟩, free, returned⟩
    obtain ⟨product, found, positive, enough⟩ := free.fits
    have view : (applyAll db (saleWrites sale row done)).products.get? line.productId = some product :=
      seen_stock free.unlisted found
    obtain ⟨nonneg, stock⟩ := conforms.products _ _ found
    have enough' : line.quantity ≤ product.stock - reserved line.productId (done.map Prod.fst) := by
      rw [reserved_done free.unlisted, Int.sub_zero]
      exact enough
    have created : (plan (.createItem sale line.productId line.quantity line.priceCents)
        (around.env (i + 2)) (applyAll db (saleWrites sale row done ++
          [.addStock line.productId (-line.quantity)]))).answer =
        .ok ([.insertItem (around.env (i + 2)).draw (line.row sale)], (around.env (i + 2)).draw) :=
      (createItem_ok_iff conforms inserted quantity price found enough').mpr ⟨free, rfl, rfl⟩
    refine Tx.solo_ok_iff.mpr ⟨spared, [], (), ?_, ?_⟩
    · simp [plan, view, locking]
    refine Tx.solo_ok_iff.mpr ⟨spared₁, [.addStock line.productId (-line.quantity)], (), ?_, ?_⟩
    · have inRange : int8 (product.stock + -line.quantity) = true := by
        simp only [int8, decide_eq_true_eq] at stock ⊢
        omega
      have valid : decide (0 ≤ product.stock + -line.quantity) = true := by
        simp only [decide_eq_true_eq]
        omega
      rw [List.append_nil]
      simp only [plan, view, inRange, valid]
      rfl
    rw [List.append_nil]
    refine Tx.solo_ok_iff.mpr ⟨spared₂, _, _, created, ?_⟩
    rw [saleWrites_snoc]
    exact returned

/-- The lines with the identifiers that they draw, from statement `i` on. -/
def numbered (around : Surroundings Env Failure) : Nat → List SaleItemInput → List (SaleItemInput × Uuid)
  | _, [] => []
  | i, line :: lines => (line, (around.env (i + 2)).draw) :: numbered around (i + 3) lines

/-- Every line is free when the loop comes to it. -/
def LinesFree (db : Db) : List (SaleItemInput × Uuid) → List (SaleItemInput × Uuid) → Prop
  | _, [] => True
  | done, (line, draw) :: rest => LineFree db done line draw ∧ LinesFree db (done ++ [(line, draw)]) rest

theorem Inserted.snoc (inserted : Inserted db sale done) {draw : Uuid}
    (free : LineFree db done line draw) : Inserted db sale (done ++ [(line, draw)]) := by
  constructor
  · exact inserted.sale
  · rw [List.map_append]
    exact List.concat_eq_append ▸ List.Nodup.concat free.unused inserted.nodup
  · intro id mem
    rw [List.map_append] at mem
    rcases List.mem_append.mp mem with old | new
    · exact inserted.fresh id old
    · rw [List.mem_singleton.mp new]
      exact free.fresh

/-- The loop goes through exactly when its lines are free and nothing fails from outside. By
induction on its lines, with what earlier ones have reserved already written. -/
theorem reserve_ok_iff (conforms : db.Conforms) (inserted : Inserted db sale done)
    (lines : List SaleItemInput) (quantities : ∀ line ∈ lines, int4 line.quantity = true)
    (prices : ∀ line ∈ lines, int8 line.priceCents = true) (items : List Uuid)
    {next : List Uuid → Program α} :
    (reserve sale lines items >>= next).solo plan around db i (saleWrites sale row done) = .ok out ↔
      (∀ j < 3 * lines.length, around.fails (i + j) = none) ∧
        LinesFree db done (numbered around i lines) ∧
        (next (items ++ (numbered around i lines).map Prod.snd)).solo plan around db (i + 3 * lines.length)
          (saleWrites sale row (done ++ numbered around i lines)) = .ok out := by
  induction lines generalizing i done items with
  | nil =>
    simp only [List.length_nil, Nat.mul_zero, Nat.not_lt_zero, false_imp_iff, implies_true, numbered,
      LinesFree, List.map_nil, List.append_nil, Nat.add_zero, true_and]
    exact Iff.rfl
  | cons line lines ih =>
    have quantity := quantities line List.mem_cons_self
    have price := prices line List.mem_cons_self
    have others : ∀ l ∈ lines, int4 l.quantity = true := fun l mem =>
      quantities l (List.mem_cons_of_mem _ mem)
    have others' : ∀ l ∈ lines, int8 l.priceCents = true := fun l mem =>
      prices l (List.mem_cons_of_mem _ mem)
    have step : (reserve sale (line :: lines) items >>= next).solo plan around db i
        (saleWrites sale row done) = .ok out ↔ _ :=
      line_ok_iff conforms inserted quantity price
    have count : i + 3 * (line :: lines).length = i + 3 + 3 * lines.length := by
      rw [List.length_cons]
      omega
    rw [step, count]
    constructor
    · rintro ⟨⟨spared, spared₁, spared₂⟩, free, returned⟩
      obtain ⟨spared', frees, returned⟩ :=
        (ih (inserted.snoc free) others others' (items ++ [_])).mp returned
      refine ⟨?_, ⟨free, frees⟩, ?_⟩
      · intro j low
        rw [List.length_cons] at low
        obtain rfl | rfl | rfl | ⟨j, rfl⟩ : j = 0 ∨ j = 1 ∨ j = 2 ∨ ∃ j', j = j' + 3 := by
          by_cases small : j < 3
          · omega
          · exact Or.inr (Or.inr (Or.inr ⟨j - 3, by omega⟩))
        · exact spared
        · exact spared₁
        · exact spared₂
        · rw [show i + (j + 3) = i + 3 + j from by omega]
          exact spared' j (by omega)
      · simpa [numbered] using returned
    · rintro ⟨spared, ⟨free, frees⟩, returned⟩
      refine ⟨⟨?_, ?_, ?_⟩, free, ?_⟩
      · exact spared 0 (by simp)
      · exact spared 1 (by simp; omega)
      · exact spared 2 (by simp; omega)
      · refine (ih (inserted.snoc free) others others' (items ++ [_])).mpr ⟨?_, frees, ?_⟩
        · intro j low
          rw [show i + 3 + j = i + (j + 3) from by omega]
          exact spared (j + 3) (by rw [List.length_cons]; omega)
        · simpa [numbered] using returned

/-- The lines are free in turn exactly when each is free of the first ones and they are
free of one another. -/
theorem linesFree_iff {rest : List (SaleItemInput × Uuid)} : LinesFree db done rest ↔
    (∀ p ∈ rest, LineFree db done p.1 p.2) ∧ (rest.map fun p => p.1.productId).Nodup ∧
      (rest.map Prod.snd).Nodup := by
  induction rest generalizing done with
  | nil => simp [LinesFree]
  | cons p rest ih =>
    rw [LinesFree, ih]
    constructor
    · rintro ⟨free, frees, products, ids⟩
      refine ⟨?_, ?_, ?_⟩
      · intro q mem
        rcases List.mem_cons.mp mem with rfl | later
        · exact free
        · obtain ⟨fits, unlisted, fresh, unused⟩ := frees q later
          simp only [List.map_append, List.mem_append, not_or] at unlisted unused
          exact ⟨fits, unlisted.1, fresh, unused.1⟩
      · refine List.nodup_cons.mpr ⟨?_, products⟩
        intro mem
        obtain ⟨q, later, same⟩ := List.mem_map.mp mem
        exact (frees q later).unlisted (by simp [same])
      · refine List.nodup_cons.mpr ⟨?_, ids⟩
        intro mem
        obtain ⟨q, later, same⟩ := List.mem_map.mp mem
        exact (frees q later).unused (by simp [same])
    · rintro ⟨frees, products, ids⟩
      simp only [List.map_cons, List.nodup_cons] at products ids
      refine ⟨frees p List.mem_cons_self, ?_, products.2, ids.2⟩
      intro q mem
      obtain ⟨fits, unlisted, fresh, unused⟩ := frees q (List.mem_cons_of_mem _ mem)
      refine ⟨fits, ?_, fresh, ?_⟩
      · simp only [List.map_append, List.mem_append, not_or]
        refine ⟨unlisted, fun own => products.1 ?_⟩
        exact List.mem_map.mpr ⟨q, mem, List.mem_singleton.mp own⟩
      · simp only [List.map_append, List.mem_append, not_or]
        refine ⟨unused, fun own => ids.1 ?_⟩
        exact List.mem_map.mpr ⟨q, mem, List.mem_singleton.mp own⟩

theorem numbered_lines (around : Surroundings Env Failure) (i : Nat) (lines : List SaleItemInput) :
    (numbered around i lines).map Prod.fst = lines := by
  induction lines generalizing i with
  | nil => rfl
  | cons line lines ih => rw [numbered, List.map_cons, ih]

theorem createOutbox_ok_iff {input : AppendOutboxInput} {ws : List Write} {r : Unit} :
    (plan (.createOutbox input) env db).answer = .ok (ws, r) ↔
      db.outbox.get? env.serial = none ∧ ws = [.insertOutbox env.serial (appended input env.started)] := by
  rw [plan, inserting_ok_iff]
  simp

/-- The end of a transaction that appends two events. -/
theorem events_ok_iff {ws : List Write} {out : α × List Write}
    (same : (applyAll db ws).outbox = db.outbox) {first second : AppendOutboxInput} {result : α} :
    (do
      run (.createOutbox first)
      run (.createOutbox second)
      pure result : Program α).solo plan around db i ws = .ok out ↔
      (around.fails i = none ∧ around.fails (i + 1) = none ∧ around.fails (i + 2) = none) ∧
        (db.outbox.get? (around.env i).serial = none ∧ db.outbox.get? (around.env (i + 1)).serial = none ∧
          (around.env i).serial ≠ (around.env (i + 1)).serial) ∧
        out = (result, ws ++
          [.insertOutbox (around.env i).serial (appended first (around.env i).started)] ++
          [.insertOutbox (around.env (i + 1)).serial (appended second (around.env (i + 1)).started)]) := by
  have later : (applyAll db (ws ++ [.insertOutbox (around.env i).serial
      (appended first (around.env i).started)])).outbox =
        db.outbox.insert (around.env i).serial (appended first (around.env i).started) := by
    rw [applyAll_append, ← same]
    rfl
  constructor
  · intro returned
    obtain ⟨spared, ws₁, _, one, returned⟩ := Tx.solo_returned returned
    obtain ⟨fresh, rfl⟩ := createOutbox_ok_iff.mp one
    obtain ⟨spared₁, ws₂, _, two, returned⟩ := Tx.solo_returned returned
    obtain ⟨fresh₁, rfl⟩ := createOutbox_ok_iff.mp two
    obtain ⟨spared₂, is⟩ := Tx.solo_pure_returned returned
    rw [same] at fresh
    rw [later, Table.get?_insert_eq_none] at fresh₁
    exact ⟨⟨spared, spared₁, spared₂⟩, ⟨fresh, fresh₁.1, fresh₁.2⟩, is⟩
  · rintro ⟨⟨spared, spared₁, spared₂⟩, ⟨fresh, fresh₁, ne⟩, rfl⟩
    refine Tx.solo_ok_iff.mpr ⟨spared, _, (), createOutbox_ok_iff.mpr ⟨?_, rfl⟩, ?_⟩
    · rw [same]
      exact fresh
    refine Tx.solo_ok_iff.mpr ⟨spared₁, _, (), createOutbox_ok_iff.mpr ⟨?_, rfl⟩, ?_⟩
    · rw [later, Table.get?_insert_eq_none]
      exact ⟨fresh₁, ne⟩
    exact Tx.solo_pure spared₂

end Loop

/-! ### The transaction as a whole -/

section Whole

variable {db : Db} {input : CreateSaleInput} {around : Surroundings Env Failure}

def CreateSaleInput.transaction (input : CreateSaleInput) (around : Surroundings Env Failure) (db : Db) :
    Except Failure CreatedSale × Db :=
  (create input).transaction plan around db

/-- The checks that the constraints of the schema and the stocks make of a sale that the
columns can hold: its window, distinct products, and lines that fit. -/
structure CanCreate (input : CreateSaleInput) (db : Db) : Prop where
  window : input.startsAt < input.endsAt
  distinct : (input.items.map SaleItemInput.productId).Nodup
  fits : ∀ line ∈ input.items, Fits db line

/-- No statement fails for a reason outside the code, and the identifiers that the
database generates are new. The loop takes three statements for each line. -/
structure CreateSaleInput.Unhindered (input : CreateSaleInput) (around : Surroundings Env Failure)
    (db : Db) : Prop where
  spared : ∀ i ≤ 3 * input.items.length + 3, around.fails i = none
  sale : db.flashSales.get? (around.env 0).draw = none
  items : ∀ p ∈ numbered around 1 input.items, db.flashSaleItems.get? p.2 = none
  nodup : ((numbered around 1 input.items).map Prod.snd).Nodup
  created : db.outbox.get? (around.env (3 * input.items.length + 1)).serial = none
  settle : db.outbox.get? (around.env (3 * input.items.length + 2)).serial = none
  ne : (around.env (3 * input.items.length + 1)).serial ≠
    (around.env (3 * input.items.length + 2)).serial

def CreateSaleInput.result (input : CreateSaleInput) (around : Surroundings Env Failure) : CreatedSale :=
  ⟨(around.env 0).draw, (numbered around 1 input.items).map Prod.snd⟩

/-- The two events of the new sale. -/
def CreateSaleInput.events (input : CreateSaleInput) (around : Surroundings Env Failure) :
    AppendOutboxInput × AppendOutboxInput :=
  (⟨.flashSaleCreated (around.env 0).draw ((numbered around 1 input.items).map Prod.snd),
      some (around.env 0).draw, none⟩,
    ⟨.flashSaleSettle (around.env 0).draw, none, some input.endsAt⟩)

/-- What a creation changes: a sale that is not settled, an item with no unit sold for
each line, its quantity taken from the stock, and the two events. -/
def CreateSaleInput.created (input : CreateSaleInput) (around : Surroundings Env Failure) (db : Db) : Db :=
  { db with
    flashSales := db.flashSales.insert (around.env 0).draw ⟨input.name, input.startsAt, input.endsAt, none⟩
    products := reserveStock input.items db.products
    flashSaleItems := db.flashSaleItems.insertAll
      (itemRows (around.env 0).draw (numbered around 1 input.items))
    outbox := (db.outbox.insert (around.env (3 * input.items.length + 1)).serial
        (appended (input.events around).1 (around.env (3 * input.items.length + 1)).started)).insert
      (around.env (3 * input.items.length + 2)).serial
        (appended (input.events around).2 (around.env (3 * input.items.length + 2)).started) }

/-- The writes of the transaction. -/
def CreateSaleInput.writes (input : CreateSaleInput) (around : Surroundings Env Failure) : List Write :=
  saleWrites (around.env 0).draw ⟨input.name, input.startsAt, input.endsAt, none⟩
      (numbered around 1 input.items) ++
    [.insertOutbox (around.env (3 * input.items.length + 1)).serial
      (appended (input.events around).1 (around.env (3 * input.items.length + 1)).started)] ++
    [.insertOutbox (around.env (3 * input.items.length + 2)).serial
      (appended (input.events around).2 (around.env (3 * input.items.length + 2)).started)]

theorem applyAll_writes : applyAll db (input.writes around) = input.created around db := by
  rw [CreateSaleInput.writes, applyAll_append, applyAll_append, applyAll_saleWrites, numbered_lines]
  rfl

theorem applyAll_saleWrites_outbox {sale : Uuid} {row : SaleRow} {done : List (SaleItemInput × Uuid)} :
    (applyAll db (saleWrites sale row done)).outbox = db.outbox := by
  rw [applyAll_saleWrites]

/-- The INSERT of the sale goes through exactly when its window is valid. -/
theorem createSale_ok_iff (inRange : input.InRange) {env : Env} {ws : List Write} {sale : Uuid} :
    (plan (.createSale input.name input.startsAt input.endsAt) env db).answer = .ok (ws, sale) ↔
      input.startsAt < input.endsAt ∧ db.flashSales.get? env.draw = none ∧
        ws = [.insertSale env.draw ⟨input.name, input.startsAt, input.endsAt, none⟩] ∧ sale = env.draw := by
  rw [plan, inserting_ok_iff, violations_eq_none]
  simp [inRange.takes]

/-- All lines are free exactly when the database accepts each, no product is listed
twice, and their identifiers are new. -/
theorem lines_iff : LinesFree db [] (numbered around 1 input.items) ↔
    ((input.items.map SaleItemInput.productId).Nodup ∧ ∀ line ∈ input.items, Fits db line) ∧
      (∀ p ∈ numbered around 1 input.items, db.flashSaleItems.get? p.2 = none) ∧
        ((numbered around 1 input.items).map Prod.snd).Nodup := by
  have products : (numbered around 1 input.items).map (fun p => p.1.productId) =
      input.items.map SaleItemInput.productId := by
    have mapped := congrArg (List.map SaleItemInput.productId) (numbered_lines around 1 input.items)
    rw [List.map_map] at mapped
    exact mapped
  have lines : ∀ line ∈ input.items, ∃ p ∈ numbered around 1 input.items, p.1 = line := by
    intro line mem
    rw [← numbered_lines around 1 input.items] at mem
    exact List.mem_map.mp mem
  rw [linesFree_iff, products]
  constructor
  · rintro ⟨frees, distinct, ids⟩
    refine ⟨⟨distinct, ?_⟩, ?_, ids⟩
    · intro line mem
      obtain ⟨p, inside, rfl⟩ := lines line mem
      exact (frees p inside).fits
    · intro p inside
      exact (frees p inside).fresh
  · rintro ⟨⟨distinct, fits⟩, fresh, ids⟩
    refine ⟨?_, distinct, ids⟩
    intro p inside
    refine ⟨fits p.1 ?_, by simp, fresh p inside, by simp⟩
    rw [← numbered_lines around 1 input.items]
    exact List.mem_map_of_mem inside

theorem create_ok_iff (conforms : db.Conforms) (inRange : input.InRange) {out : CreatedSale × List Write} :
    (create input).solo plan around db 0 [] = .ok out ↔
      (CanCreate input db ∧ input.Unhindered around db) ∧ out = (input.result around, input.writes around) := by
  have count : 0 + 1 + 3 * input.items.length = 3 * input.items.length + 1 := by omega
  constructor
  · intro returned
    obtain ⟨spared, ws, sale, created, returned⟩ := Tx.solo_returned returned
    obtain ⟨window, fresh, rfl, rfl⟩ := (createSale_ok_iff inRange).mp created
    have inserted : Inserted db (around.env 0).draw [] := ⟨fresh, List.nodup_nil, by simp⟩
    obtain ⟨spared₁, frees, returned⟩ :=
      (reserve_ok_iff conforms inserted input.items inRange.quantities inRange.prices []).mp returned
    obtain ⟨⟨distinct, fits⟩, items, nodup⟩ := lines_iff.mp frees
    rw [count] at returned
    obtain ⟨⟨spared₂, spared₃, spared₄⟩, ⟨first, second, ne⟩, is⟩ :=
      (events_ok_iff applyAll_saleWrites_outbox).mp returned
    refine ⟨⟨⟨window, distinct, fits⟩, ⟨?_, fresh, items, nodup, first, second, ne⟩⟩, is⟩
    intro i high
    obtain rfl | ⟨j, low, rfl⟩ | rfl | rfl | rfl : i = 0 ∨ (∃ j < 3 * input.items.length, i = 0 + 1 + j) ∨
        i = 3 * input.items.length + 1 ∨ i = 3 * input.items.length + 2 ∨
          i = 3 * input.items.length + 3 := by
      by_cases within : 1 ≤ i ∧ i ≤ 3 * input.items.length
      · exact Or.inr (Or.inl ⟨i - 1, by omega, by omega⟩)
      · omega
    · exact spared
    · exact spared₁ j low
    · exact spared₂
    · exact spared₃
    · exact spared₄
  · rintro ⟨⟨⟨window, distinct, fits⟩, ⟨spared, fresh, items, nodup, first, second, ne⟩⟩, rfl⟩
    have inserted : Inserted db (around.env 0).draw [] := ⟨fresh, List.nodup_nil, by simp⟩
    refine Tx.solo_ok_iff.mpr ⟨spared 0 (by omega), _, _,
      (createSale_ok_iff inRange).mpr ⟨window, fresh, rfl, rfl⟩, ?_⟩
    refine (reserve_ok_iff conforms inserted input.items inRange.quantities inRange.prices []).mpr
      ⟨?_, lines_iff.mpr ⟨⟨distinct, fits⟩, items, nodup⟩, ?_⟩
    · intro j low
      exact spared _ (by omega)
    · rw [count]
      refine (events_ok_iff applyAll_saleWrites_outbox).mpr
        ⟨⟨spared _ (by omega), spared _ (by omega), spared _ (by omega)⟩, ⟨first, second, ne⟩, rfl⟩

/-- A creation whose name and dates the database takes succeeds exactly on its conditions and
unhindered; then it changes what `CreateSaleInput.created` says, each listed product losing
exactly its quantity, and otherwise nothing. -/
theorem create_exact (conforms : db.Conforms) (inRange : input.InRange)
    (around : Surroundings Env Failure) :
    ((∃ result, (input.transaction around db).1 = .ok result) ↔
      CanCreate input db ∧ input.Unhindered around db) ∧
    (∀ result, (input.transaction around db).1 = .ok result →
      result = input.result around ∧ (input.transaction around db).2 = input.created around db ∧
      (∀ line ∈ input.items, ∀ product, db.products.get? line.productId = some product →
        (input.transaction around db).2.products.get? line.productId =
          some ⟨product.stock - line.quantity⟩) ∧
      ∀ product, product ∉ input.items.map SaleItemInput.productId →
        (input.transaction around db).2.products.get? product = db.products.get? product) ∧
    ∀ e, (input.transaction around db).1 = .error e → (input.transaction around db).2 = db := by
  have succeeds : CanCreate input db → input.Unhindered around db →
      input.transaction around db = (.ok (input.result around), input.created around db) := by
    intro can unhindered
    have ended := (create_ok_iff conforms inRange).mpr ⟨⟨can, unhindered⟩, rfl⟩
    rw [← applyAll_writes]
    exact Tx.transaction_ok ended
  have returns : ∀ result, (input.transaction around db).1 = .ok result →
      CanCreate input db ∧ input.Unhindered around db := by
    intro result returned
    cases ended : (create input).solo plan around db 0 [] with
    | ok out => exact ((create_ok_iff conforms inRange).mp ended).1
    | error e =>
      rw [CreateSaleInput.transaction, Tx.transaction, ended] at returned
      cases returned
  refine ⟨⟨?_, ?_⟩, ?_, ?_⟩
  · rintro ⟨result, returned⟩
    exact returns result returned
  · rintro ⟨can, unhindered⟩
    exact ⟨_, congrArg Prod.fst (succeeds can unhindered)⟩
  · intro result returned
    obtain ⟨can, unhindered⟩ := returns result returned
    rw [succeeds can unhindered] at returned ⊢
    refine ⟨(Except.ok.inj returned).symm, rfl, ?_, ?_⟩
    · intro line mem product found
      show (reserveStock input.items db.products).get? line.productId = _
      rw [reserveStock_get?, found, reserved_listed can.distinct mem]
      rfl
    · intro product unlisted
      show (reserveStock input.items db.products).get? product = _
      rw [reserveStock_get?, reserved_unlisted unlisted]
      cases db.products.get? product <;> simp
  · intro e threw
    exact Tx.transaction_error threw

end Whole

/-! ### Two products, five units of each -/

theorem Db.Conforms.restock {db : Db} (conforms : db.Conforms) {products : Table Uuid ProductRow}
    (valid : ∀ id row, products.get? id = some row → row.Valid)
    (kept : ∀ id, db.products.get? id ≠ none → products.get? id ≠ none) :
    ({ db with products := products } : Db).Conforms :=
  { conforms with
    products := valid
    itemProducts := fun id row found => kept _ (conforms.itemProducts id row found) }

def stockRoom : Db :=
  { shopWith 500 100 with products := (Table.empty.insert 2 ⟨5⟩).insert 3 ⟨5⟩ }

theorem stockRoom_conforms : stockRoom.Conforms := by
  have conforms : (shopWith 500 100).Conforms := shopWith_conforms (by decide) rfl rfl
  refine conforms.restock ?_ ?_
  · intro id row found
    rcases Table.get?_insert_cases found with old | ⟨-, rfl⟩
    · obtain ⟨-, rfl⟩ := Table.only old
      exact ⟨by decide, rfl⟩
    · exact ⟨by decide, rfl⟩
  · intro id there
    refine Table.get?_insert_ne_none.mpr (Or.inl ?_)
    intro absent
    rw [Table.get?_insert_eq_none] at absent
    apply there
    rw [show (shopWith 500 100).products = Table.empty.insert 2 ⟨0⟩ from rfl, Table.get?_insert_eq_none]
    exact ⟨rfl, absent.2⟩

/-- A sale of three units of one product and all five of the other. -/
def plainSale : CreateSaleInput := ⟨saleName, 0, 1, [⟨2, 3, 100⟩, ⟨3, 5, 100⟩]⟩

section Plain

variable (name : CodeUnits) {startsAt endsAt : Int}

theorem plainLines_can (window : startsAt < endsAt) :
    CanCreate ⟨name, startsAt, endsAt, plainSale.items⟩ stockRoom := by
  have distinct : (plainSale.items.map SaleItemInput.productId).Nodup := by decide
  refine ⟨window, distinct, fun line mem => ?_⟩
  simp only [plainSale, List.mem_cons, List.not_mem_nil, or_false] at mem
  rcases mem with rfl | rfl
  · exact ⟨⟨5⟩, rfl, by decide, by decide⟩
  · exact ⟨⟨5⟩, rfl, by decide, by decide⟩

theorem plainLines_unhindered :
    CreateSaleInput.Unhindered ⟨name, startsAt, endsAt, plainSale.items⟩ (plainSurroundings 10)
      stockRoom := by
  have plain : plainSale.Unhindered (plainSurroundings 10) stockRoom :=
    ⟨fun _ _ => rfl, rfl, by decide +kernel, by decide, rfl, rfl, by decide⟩
  exact ⟨plain.spared, plain.sale, plain.items, plain.nodup, plain.created, plain.settle, plain.ne⟩

end Plain

theorem create_exact_plain :
    (plainSale.transaction (plainSurroundings 10) stockRoom).1 = .ok ⟨10, [13, 16]⟩ ∧
      ∃ result, (plainSale.transaction (plainSurroundings 10) stockRoom).1 = .ok result := by
  have inRange : plainSale.InRange :=
    ⟨⟨by decide, by decide, by decide⟩, by decide, by decide, by decide⟩
  have exact_ := create_exact stockRoom_conforms inRange (plainSurroundings 10)
  exact ⟨by decide +kernel,
    exact_.1.mpr ⟨plainLines_can saleName (by decide), plainLines_unhindered saleName⟩⟩

/-- The columns and every check of the schema admit the sale, nothing fails from outside, and
yet its creation throws. -/
def CreateSaleInput.Refused (input : CreateSaleInput) (around : Surroundings Env Failure) (db : Db) :
    Prop :=
  input.InColumns ∧ CanCreate input db ∧ input.Unhindered around db ∧
    ∃ e, input.transaction around db = (.error e, db)

/-- The same sale with a NUL for its name, and in the first second of the year 10000. -/
def nulSale : CreateSaleInput := { plainSale with name := [0] }

def lateSale : CreateSaleInput :=
  { plainSale with
    startsAt := 253402300800000
    endsAt := 253402300801000 }

/-- The database takes neither, although their windows, lines and names pass all checks of
the code. Text columns hold no NUL, and dates have years of four digits. -/
theorem create_refuses : stockRoom.Conforms ∧ nulSale.Refused (plainSurroundings 10) stockRoom ∧
    lateSale.Refused (plainSurroundings 10) stockRoom := by
  refine ⟨stockRoom_conforms, ?_, ?_⟩
  · have threw : (nulSale.transaction (plainSurroundings 10) stockRoom).1 =
        .error (.database .outOfRange) := by decide +kernel
    exact ⟨⟨by decide, by decide, by decide⟩, plainLines_can [0] (by decide), plainLines_unhindered [0],
      _, Prod.ext threw (Tx.transaction_error threw)⟩
  · have threw : (lateSale.transaction (plainSurroundings 10) stockRoom).1 =
        .error (.database .outOfRange) := by decide +kernel
    exact ⟨⟨by decide, by decide, by decide⟩, plainLines_can saleName (by decide),
      plainLines_unhindered saleName, _, Prod.ext threw (Tx.transaction_error threw)⟩

end FlashSale
