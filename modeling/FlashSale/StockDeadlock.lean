/-
# The transactions that move stock

Creations and settlements, any number of each at once, with their statements taking one
lock at a time. A creation locks its products in the order of its items, a settlement in
the order in which its read returns them, and neither sorts them.

The order of the locks is then a parameter: any strict order of the products. A creation
climbs in it if its items do, and a settlement if its read does; since the settlement locks
its sale first and holds no product then, the sales come before the products.

* `Stock.no_deadlock_in_order`: when one strict order of the products has all these lists in
  order, no transactions wait in a cycle for rows of products and sales.
* `reserving_crosswise`: two creations that list two products in opposite orders do.
-/
import FlashSale.RowLocks

namespace FlashSale

open Lib (Table Lock LockMode Outcome Tx Ascends Circumstances Contention Turn)

/-! ### The order -/

/-- Rows of products and of sales. -/
def Target.counted : Target → Prop
  | .row (.product _) => True
  | .row (.flashSale _) => True
  | _ => False

section Order

variable (earlier : Uuid → Uuid → Prop)

/-- A sale before every product, and the products as given. -/
def Target.follows : Target → Target → Prop
  | .row (.flashSale _), .row (.product _) => True
  | .row (.product p), .row (.product q) => earlier p q
  | _, _ => False

/-- Each product is first listed after all that come earlier in the list. A product may be
listed again, since its lock is held by then. -/
def InOrder (products : List Uuid) : Prop :=
  ∀ done product rest, products = done ++ product :: rest → product ∉ done →
    ∀ other ∈ done, earlier other product

variable {earlier}

theorem InOrder.of_pairwise {products : List Uuid} (rises : products.Pairwise earlier) :
    InOrder earlier products := by
  rintro done product rest rfl - other mem
  exact (List.pairwise_append.mp rises).2.2 other mem product List.mem_cons_self

theorem Target.follows_irrefl (irrefl : ∀ p, ¬ earlier p p) (t : Target) : ¬ t.follows earlier t := by
  intro follows
  cases t with
  | row r =>
    cases r with
    | product p => exact irrefl p follows
    | _ => exact follows
  | entry r => exact follows

theorem Target.follows_cases {a b : Target} (follows : a.follows earlier b) :
    ∃ q, b = .row (.product q) ∧
      ((∃ sale, a = .row (.flashSale sale)) ∨ ∃ p, a = .row (.product p) ∧ earlier p q) := by
  unfold Target.follows at follows
  split at follows
  · exact ⟨_, rfl, Or.inl ⟨_, rfl⟩⟩
  · exact ⟨_, rfl, Or.inr ⟨_, rfl, follows⟩⟩
  · cases follows

theorem Target.follows_trans (trans : ∀ p q r, earlier p q → earlier q r → earlier p r) (a b c : Target)
    (first : a.follows earlier b) (second : b.follows earlier c) : a.follows earlier c := by
  obtain ⟨q, rfl, before⟩ := Target.follows_cases first
  obtain ⟨r, rfl, after⟩ := Target.follows_cases second
  rcases after with ⟨sale, is⟩ | ⟨q', is, next⟩
  · cases is
  · cases is
    rcases before with ⟨sale, rfl⟩ | ⟨p, rfl, first⟩
    · trivial
    · exact trans p q r first next

end Order

/-! ### The transactions -/

inductive StockTx where
  | create (input : CreateSaleInput)
  | settle (saleId : Uuid)

def StockTx.body : StockTx → Program Unit
  | .create input => do
    let _ ← FlashSale.create input
    pure ()
  | .settle saleId => do
    let _ ← FlashSale.settle saleId
    pure ()

/-- The products that a transaction lists itself. -/
def StockTx.products : StockTx → List Uuid
  | .create input => input.items.map SaleItemInput.productId
  | .settle _ => []

/-- The products of the rows that a statement returns, in their order. -/
def Stmt.listed : (s : Stmt) → s.Result → List Uuid
  | .selectUnsold _, items => items.map Unsold.productId
  | _, _ => []

/-- The products that exist are those that existed at the start. -/
def SameProducts (start db : Db) : Prop :=
  ∀ product, db.products.get? product = none ↔ start.products.get? product = none

theorem SameProducts.apply {start db : Db} (same : SameProducts start db) (w : Write) :
    SameProducts start (Lib.Storage.apply db w) := by
  intro product
  cases w with
  | addStock id delta =>
    show (db.products.modify id _).get? product = none ↔ _
    rw [Table.get?_modify_eq_none]
    exact same product
  | _ => exact same product

/-! ### The outlines -/

section Outline

/-- The setting of the outlines: reads whose products rise in the order. -/
def stockUnder (earlier : Uuid → Uuid → Prop) (start : Db) :
    Circumstances Stmt Env DbError Db Write Target Stmt.Result :=
  lockingUnder (SameProducts start) fun s r => (s.listed r).Pairwise earlier

variable {α : Type} {earlier : Uuid → Uuid → Prop} {start : Db} {sure may more : List (Lock Target)}
  {sale product : Uuid} {done rest : List Uuid} {mode mode' : LockMode}

/-- A program that takes its locks in order. -/
@[reducible] def InTurn (earlier : Uuid → Uuid → Prop) (start : Db) (body : Program α)
    (sure may : List (Lock Target)) : Prop :=
  body.Climbs covers Target.counted (Target.follows earlier) (stockUnder earlier start) sure may

/-- What may be held once the products in `done` are locked. -/
def HeldAfter (sale : Uuid) (done : List Uuid) (may : List (Lock Target)) : Prop :=
  ∀ held ∈ may, held.resource.counted →
    held.resource = .row (.flashSale sale) ∨ ∃ p ∈ done, held.resource = .row (.product p)

theorem HeldAfter.append (held : HeldAfter sale done may) (new : HeldAfter sale done more) :
    HeldAfter sale done (may ++ more) := by
  intro l mem
  rcases List.mem_append.mp mem with old | added
  · exact held l old
  · exact new l added

theorem HeldAfter.mono {done' : List Uuid} (held : HeldAfter sale done may)
    (more : ∀ p ∈ done, p ∈ done') : HeldAfter sale done' may := by
  intro l mem counted
  rcases held l mem counted with is | ⟨p, inside, is⟩
  · exact Or.inl is
  · exact Or.inr ⟨p, more p inside, is⟩

theorem heldAfter_product (listed : product ∈ done) :
    HeldAfter sale done [⟨.row (.product product), mode⟩] := by
  intro l mem _
  rw [List.mem_singleton.mp mem]
  exact Or.inr ⟨product, listed, rfl⟩

theorem heldAfter_item {quantity priceCents : Int} {env : Env} (listed : product ∈ done) :
    HeldAfter sale done ((Stmt.createItem sale product quantity priceCents).targets env) := by
  intro l mem counted
  simp only [Stmt.targets, Stmt.locks, List.map_cons, List.map_nil, List.mem_cons,
    List.not_mem_nil, or_false] at mem
  rcases mem with rfl | rfl | rfl | rfl
  · cases counted
  · cases counted
  · exact Or.inl rfl
  · exact Or.inr ⟨product, listed, rfl⟩

/-- The row of a product can be locked in this mode: the session has it, or it holds
only what comes before the product. -/
def Lockable (earlier : Uuid → Uuid → Prop) (product : Uuid) (mode : LockMode)
    (sure may : List (Lock Target)) : Prop :=
  (∃ held ∈ sure, covers held ⟨.row (.product product), mode⟩ = true) ∨
    ∀ held ∈ may, held.resource.counted → covers held ⟨.row (.product product), mode⟩ = true ∨
      held.resource.follows earlier (.row (.product product))

theorem Lockable.ascends (ready : Lockable earlier product mode sure may) :
    Ascends covers Target.counted (Target.follows earlier) sure may
      [⟨.row (.product product), mode⟩] :=
  ⟨fun _ => ready, trivial⟩

/-- A product that comes after all that are done. -/
theorem HeldAfter.ready (held : HeldAfter sale done may) (before : ∀ p ∈ done, earlier p product) :
    Lockable earlier product mode sure may := by
  refine Or.inr fun l mem counted => Or.inr ?_
  rcases held l mem counted with is | ⟨p, inside, is⟩
  · rw [is]
    trivial
  · rw [is]
    exact before p inside

/-- It stays so in weaker modes, when the session locks the product or its sale. -/
theorem Lockable.next (sale : Uuid) (sure' : List (Lock Target))
    (ready : Lockable earlier product mode sure may) (weaker : LockMode.covers mode mode' = true)
    (new : ∀ l ∈ more, l.resource.counted →
      l.resource = .row (.flashSale sale) ∨ l = ⟨.row (.product product), mode⟩) :
    Lockable earlier product mode' (sure ++ sure') (may ++ more) := by
  have less : covers ⟨.row (.product product), mode⟩ ⟨.row (.product product), mode'⟩ = true := by
    simp [covers, weaker]
  rcases ready with ⟨held, mem, by_⟩ | before
  · exact Or.inl ⟨held, List.mem_append_left _ mem, covers_trans _ _ _ by_ less⟩
  · refine Or.inr fun l mem counted => ?_
    rcases List.mem_append.mp mem with old | added
    · rcases before l old counted with by_ | follows
      · exact Or.inl (covers_trans _ _ _ by_ less)
      · exact Or.inr follows
    · rcases new l added counted with is | rfl
      · rw [is]
        exact Or.inr trivial
      · exact Or.inl less

/-- The locks of a new item, whose sale is the session's own. -/
theorem Lockable.createItem_ascends {quantity priceCents : Int} {env : Env}
    (ready : Lockable earlier product .keyShare sure may)
    (own : (⟨.entry (.flashSale sale), .update⟩ : Lock Target) ∈ sure) :
    Ascends covers Target.counted (Target.follows earlier) sure may
      ((Stmt.createItem sale product quantity priceCents).targets env) := by
  have later : ∀ l : Lock Target, (l.resource.counted → l.resource = .row (.flashSale sale)) →
      ∀ {sure may}, Lockable earlier product .keyShare sure may →
        Lockable earlier product .keyShare (sure ++ [l]) (may ++ [l]) := by
    intro l uncounted sure may ready
    refine ready.next sale [l] rfl fun l' mem counted => ?_
    rw [List.mem_singleton.mp mem] at counted ⊢
    exact Or.inl (uncounted counted)
  refine ⟨?_, ?_, ?_, ?_, trivial⟩
  · intro counted
    cases counted
  · intro counted
    cases counted
  · intro _
    exact Or.inl ⟨_, by simp [own], covers_own⟩
  · intro _
    refine later _ (fun _ => rfl) (later _ ?_ (later _ ?_ ready))
    · intro counted
      cases counted
    · intro counted
      cases counted

/-- The loop of a creation. -/
theorem reserve_inTurn (lines : List SaleItemInput) (items done : List Uuid)
    (own : (⟨.entry (.flashSale sale), .update⟩ : Lock Target) ∈ sure)
    (locked : ∀ p ∈ done, (⟨.row (.product p), .update⟩ : Lock Target) ∈ sure)
    (held : HeldAfter sale done may)
    (ordered : InOrder earlier (done ++ lines.map SaleItemInput.productId)) :
    InTurn earlier start (reserve sale lines items) sure may := by
  induction lines generalizing items done sure may with
  | nil => trivial
  | cons line lines ih =>
    have ready : Lockable earlier line.productId .update sure may := by
      by_cases listed : line.productId ∈ done
      · exact Or.inl ⟨_, locked _ listed, covers_row⟩
      · exact held.ready (ordered done line.productId _ rfl listed)
    -- `SELECT id FROM products … FOR UPDATE`
    refine climbs_statement rfl (fun _ => ready.ascends) fun env₁ db₁ _ _ known₁ _ _ => ?_
    -- `UPDATE products SET stock`
    have ready₁ : ∀ sure', Lockable earlier line.productId .noKeyUpdate (sure ++ sure')
        (may ++ [⟨.row (.product line.productId), .update⟩]) :=
      fun sure' => ready.next sale sure' rfl (by simp)
    refine climbs_statement rfl (fun _ => (ready₁ _).ascends) fun env₂ db₂ _ _ _ _ _ => ?_
    -- The new item, its sale and its product
    have ready₂ : ∀ sure' sure'', Lockable earlier line.productId .keyShare (sure ++ sure' ++ sure'')
        (may ++ [⟨.row (.product line.productId), .update⟩] ++
          [⟨.row (.product line.productId), .noKeyUpdate⟩]) :=
      fun sure' sure'' => (ready₁ sure').next sale sure'' rfl (by simp)
    refine climbs_statement rfl (fun _ => (ready₂ _ _).createItem_ascends (by simp [own])) ?_
    intro env₃ db₃ _ id known₃ created _
    have exists₃ : db₃.products.get? line.productId ≠ none := (plan_createItem created).2.2.2.1
    have exists₁ : db₁.products.get? line.productId ≠ none := by
      rw [Ne, known₁ line.productId, ← known₃ line.productId]
      exact exists₃
    -- The read found the product, so it has locked it.
    have taken : (⟨.row (.product line.productId), .update⟩ : Lock Target) ∈
        (plan (.selectProductForUpdate line.productId) env₁ db₁).locks.map
          (Stmt.selectProductForUpdate line.productId).target := by
      obtain ⟨row, found⟩ := Option.ne_none_iff_exists'.mp exists₁
      simp [plan, found, locking, Stmt.target, Stmt.inserts]
    have listed : line.productId ∈ done ++ [line.productId] := by simp
    refine ih (items ++ [id]) (done ++ [line.productId]) ?_ ?_ ?_ (by simpa using ordered)
    · simp [own]
    · intro p mem
      rcases List.mem_append.mp mem with old | new
      · simp [locked p old]
      · rw [List.mem_singleton.mp new]
        simp only [List.mem_append]
        exact Or.inl (Or.inl (Or.inr taken))
    · have now : HeldAfter sale (done ++ [line.productId]) may :=
        held.mono fun p mem => List.mem_append_left _ mem
      exact ((now.append (heldAfter_product listed)).append (heldAfter_product listed)).append
        (heldAfter_item listed)

/-- An event locks no row that counts. -/
theorem createOutbox_inTurn {input : AppendOutboxInput} {onError : DbError → Failure}
    {next : Unit → Program α} (rest : ∀ sure may, InTurn earlier start (next ()) sure may) :
    InTurn earlier start (Tx.statement (.createOutbox input) onError >>= next) sure may := by
  refine climbs_statement rfl (fun _ => ⟨?_, trivial⟩) fun _ _ _ _ _ _ _ => rest _ _
  intro counted
  cases counted

theorem create_inTurn (input : CreateSaleInput)
    (ordered : InOrder earlier (input.items.map SaleItemInput.productId)) :
    InTurn earlier start (create input) [] [] := by
  refine climbs_statement rfl (fun _ => ⟨?_, trivial⟩) fun env db ws sale _ created _ => ?_
  · intro counted
    cases counted
  · obtain ⟨-, locks, -, -⟩ := plan_createSale created
    rw [locks]
    refine (reserve_inTurn input.items [] [] ?_ ?_ ?_ ordered).bind fun items _ _ => ?_
    · simp [Stmt.target, Stmt.inserts]
    · intro p mem
      cases mem
    · intro l mem counted
      cases List.mem_singleton.mp mem
      cases counted
    · exact createOutbox_inTurn fun _ _ => createOutbox_inTurn fun _ _ => trivial

/-- The loop of a settlement. -/
theorem returnStock_inTurn (saleId : Uuid) (items : List Unsold) (done : List Uuid)
    (held : HeldAfter saleId done may)
    (rises : (done ++ items.map Unsold.productId).Pairwise earlier) {k : Unit → Program α}
    (rest : ∀ sure' may', (∀ l ∈ sure, l ∈ sure') → InTurn earlier start (k ()) sure' may') :
    InTurn earlier start (returnStock items >>= k) sure may := by
  induction items generalizing done sure may with
  | nil => exact rest sure may fun _ mem => mem
  | cons item items ih =>
    have before : ∀ p ∈ done, earlier p item.productId := fun p mem =>
      (List.pairwise_append.mp rises).2.2 p mem _ List.mem_cons_self
    refine climbs_statement rfl (fun _ => (held.ready before).ascends) fun _ _ _ _ _ _ _ => ?_
    refine ih (done ++ [item.productId]) ?_ (by simpa using rises) fun sure' may' more => ?_
    · exact (held.mono fun p mem => List.mem_append_left _ mem).append
        (heldAfter_product (by simp))
    · exact rest sure' may' fun l mem => more l (List.mem_append_left _ mem)

theorem settle_inTurn (saleId : Uuid) : InTurn earlier start (settle saleId) [] [] := by
  refine climbs_statement rfl (fun _ => ⟨fun _ => Or.inr (by simp), trivial⟩) ?_
  intro env db ws settledAt _ got _
  match settledAt, got with
  | none, _ => trivial
  | some (some _), _ => trivial
  | some none, got =>
    obtain ⟨-, locks, -⟩ := plan_selectSaleForUpdate got
    rw [locks]
    refine climbs_statement rfl (fun _ => trivial) fun _ _ _ items _ _ rises => ?_
    refine returnStock_inTurn saleId items [] ?_ rises fun sure' may' more => ?_
    · intro l mem _
      apply Or.inl
      cases mem with
      | head => rfl
      | tail _ mem => cases mem
    · -- The stamp is on the row that is locked.
      refine climbs_statement rfl (fun _ => ⟨fun _ => Or.inl ?_, trivial⟩) fun _ _ _ _ _ _ _ => trivial
      exact ⟨⟨.row (.flashSale saleId), .update⟩, more _ (by simp [Stmt.target, Stmt.inserts]), covers_row⟩

end Outline

/-! ### Runs -/

/-- What a read of unsold units returns in this step rises in the order. -/
def ReadsInOrder {S : Type} [DecidableEq S] (earlier : Uuid → Uuid → Prop) (σ : Contending S Unit) :
    Turn S Env Failure → Prop
  | .go n _ _ => ∀ saleId onError next env,
    σ.progress n = .running (.exec (.selectUnsold saleId) onError next) → σ.begun n = some env →
      ((arrange env.order (unsoldItems saleId (σ.view n))).map Unsold.productId).Pairwise earlier
  | .abort _ _ => True

/-- When one strict order has every list of items in order and every read of a settlement,
creations and settlements never wait in a cycle for rows of products and sales. -/
theorem Stock.no_deadlock_in_order {S : Type} [DecidableEq S] {txs : S → StockTx} {db : Db}
    {earlier : Uuid → Uuid → Prop} (irrefl : ∀ p, ¬ earlier p p)
    (trans : ∀ p q r, earlier p q → earlier q r → earlier p r)
    (listed : ∀ n, InOrder earlier (txs n).products)
    {trace : List (Contending S Unit × Turn S Env Failure)} {σ : Contending S Unit}
    (run : Lib.Run Contending.step (Contention.start db fun n => (txs n).body) trace σ)
    (reads : ∀ p ∈ trace, ReadsInOrder earlier p.1 p.2) (n : S) :
    ¬ Relation.TransGen (σ.WaitsFor Target.counted) n n := by
  have climbs : ∀ n, InTurn earlier db (txs n).body [] [] := by
    intro n
    have ordered := listed n
    cases is : txs n with
    | create input =>
      rw [is] at ordered
      exact (create_inTurn input ordered).bind fun _ _ _ => trivial
    | settle saleId => exact (settle_inTurn saleId).bind fun _ _ _ => trivial
  refine Contention.run_acyclic climbs (fun _ => Iff.rfl) (fun _ w same => same.apply w) covers_self
    covers_trans (Target.follows_irrefl irrefl) (Target.follows_trans trans) run ?_ n
  rintro ⟨τ, turn⟩ mem
  have read := reads _ mem
  cases turn with
  | abort n e => trivial
  | go n env time =>
    intro st onError next env' ws r running begun answer
    cases st with
    | selectUnsold saleId =>
      have rises := read saleId onError next env' running begun
      cases answer
      exact rises
    | _ => exact List.Pairwise.nil

/-! ### Two sales of two products -/

/-- Sale 3 offers products 2 and 3. -/
def twoProducts : Db :=
  { shopDb with
    products := (Table.empty.insert 2 ⟨5⟩).insert 3 ⟨5⟩
    flashSaleItems := shopDb.flashSaleItems.insert 5 ⟨3, 3, 5, 0, 100⟩ }

def saleOf (first second : Uuid) : StockTx :=
  .create ⟨saleName, 0, 1, [⟨first, 1, 100⟩, ⟨second, 1, 100⟩]⟩

/-- Each creation takes one unit of its first product and goes on to its second. -/
def halfway : List (Turn Nat Env Failure) :=
  List.replicate 13 (plainTurn 0 7) ++ List.replicate 13 (plainTurn 1 8)

def crosswise : Nat → StockTx
  | 0 => saleOf 2 3
  | _ => saleOf 3 2

theorem halfway_runs : (Lib.execute Contending.step
    (Contention.start twoProducts fun n => (crosswise n).body : Contending Nat Unit)
      halfway).isSome = true := by
  decide +kernel

/-- Each of two creations waits for the product that the other has locked, since both lock
their products in the order of their lines. PostgreSQL would end one of them. -/
theorem reserving_crosswise :
    ∃ trace, ∃ σ : Contending Nat Unit,
      Lib.Run Contending.step (Contention.start twoProducts fun n => (crosswise n).body) trace σ ∧
        Relation.TransGen (σ.WaitsFor Target.counted) 0 0 := by
  refine ⟨_, _, Lib.Run.of_isSome halfway_runs, ?_⟩
  refine .tail (.single (b := 1) ?_) ?_
  · exact ⟨by decide, ⟨.row (.product 3), .update⟩, by decide +kernel, trivial,
      ⟨.row (.product 3), .update⟩, by decide +kernel, by decide⟩
  · exact ⟨by decide, ⟨.row (.product 2), .update⟩, by decide +kernel, trivial,
      ⟨.row (.product 2), .update⟩, by decide +kernel, by decide⟩

/-- A creation that has locked product 2, and a settlement that reaches it. -/
def alongside : Nat → StockTx
  | 0 => saleOf 2 3
  | _ => .settle 3

def settlingBehind : List (Turn Nat Env Failure) :=
  List.replicate 13 (plainTurn 0 7) ++ List.replicate 6 (plainTurn 1 8)

theorem settlingBehind_runs : (Lib.execute Contending.step
    (Contention.start twoProducts fun n => (alongside n).body : Contending Nat Unit)
      settlingBehind).isSome = true := by
  decide +kernel

/-- Whether what is read in this step rises with the identifiers. -/
def rising {S : Type} [DecidableEq S] (σ : Contending S Unit) : Turn S Env Failure → Bool
  | .go n _ _ =>
    match σ.progress n, σ.begun n with
    | .running (.exec (.selectUnsold saleId) _ _), some env =>
      decide (((arrange env.order (unsoldItems saleId (σ.view n))).map Unsold.productId).Pairwise
        (· < ·))
    | _, _ => true
  | .abort _ _ => true

theorem rising_reads {S : Type} [DecidableEq S] {σ : Contending S Unit} {turn : Turn S Env Failure}
    (rises : rising σ turn = true) : ReadsInOrder (· < ·) σ turn := by
  cases turn with
  | abort n e => trivial
  | go n env time =>
    intro saleId onError next env' running begun
    simpa [rising, running, begun] using rises

/-- The creation and the settlement reach the products in the order of their identifiers. -/
theorem no_deadlock_behind :
    ∃ σ : Contending Nat Unit,
      Lib.Run Contending.step (Contention.start twoProducts fun n => (alongside n).body)
        (Lib.traceOf Contending.step (Contention.start twoProducts fun n => (alongside n).body)
          settlingBehind) σ ∧
      σ.WaitsFor Target.counted 1 0 ∧ ¬ Relation.TransGen (σ.WaitsFor Target.counted) 1 1 := by
  have run := Lib.Run.of_isSome settlingBehind_runs
  have listed : ∀ n, InOrder (· < ·) (alongside n).products := by
    intro n
    match n with
    | 0 => exact InOrder.of_pairwise (by decide)
    | _ + 1 => exact InOrder.of_pairwise List.Pairwise.nil
  have reads : ∀ p ∈ Lib.traceOf Contending.step
      (Contention.start twoProducts fun n => (alongside n).body : Contending Nat Unit) settlingBehind,
      rising p.1 p.2 = true := by
    decide +kernel
  refine ⟨_, run, ?_, Stock.no_deadlock_in_order Nat.lt_irrefl (fun _ _ _ => Nat.lt_trans) listed run
    (fun p mem => rising_reads (reads p mem)) 1⟩
  exact ⟨by decide, ⟨.row (.product 2), .noKeyUpdate⟩, by decide +kernel, trivial,
    ⟨.row (.product 2), .update⟩, by decide +kernel, by decide⟩

end FlashSale
