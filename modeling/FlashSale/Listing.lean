/-
# What `listActive` shows and what a purchase does

The listing and the purchase are different code over the same rows: one joins open sales
with their items without a lock, the other locks the item and checks the window again.
A line shows what a purchase at the same instant finds, and what happens to it later is
only that units are sold.

* `purchase_listed`: for a user who has not bought today, a call succeeds exactly on an
  item that is listed at its instant, with units left and a price the user can pay; it is
  told that price and one unit less, and the listing changes in that line alone.
* `Run.listing_kept`: what was listed for an instant stays listed for it, in every later
  state of a run, with fewer units and otherwise the same, and the answers of the
  purchases in between count down from what it showed.
-/
import FlashSale.InternalErrors
import FlashSale.Ledger

namespace FlashSale

open Lib (Table Tx Surroundings Chain)

/-! ### The lines of the listing -/

/-- The line once this many more of its units are sold. -/
def ActiveSaleItemDto.less (entry : ActiveSaleItemDto) (units : Int) : ActiveSaleItemDto :=
  { entry with sold := entry.sold + units, remaining := entry.remaining - units }

section Lines

variable {time : Int} {order : List Nat} {db db' : Db} {entry : ActiveSaleItemDto}

/-- The line of an item, if its sale is open. -/
def lineAt (time : Int) (db : Db) (row : Uuid × ItemRow) : Option ActiveSaleItemDto :=
  (db.flashSales.get? row.2.flashSaleId).bind fun sale =>
    if sale.startsAt ≤ time ∧ time ≤ sale.endsAt then some (activeItem row.1 row.2 sale) else none

theorem lineAt_some {row : Uuid × ItemRow} :
    lineAt time db row = some entry ↔ ∃ sale, db.flashSales.get? row.2.flashSaleId = some sale ∧
      (sale.startsAt ≤ time ∧ time ≤ sale.endsAt) ∧ entry = activeItem row.1 row.2 sale := by
  unfold lineAt
  rw [Option.bind_eq_some_iff]
  constructor
  · rintro ⟨sale, there, is⟩
    split at is
    · rename_i opened
      cases is
      exact ⟨sale, there, opened, rfl⟩
    · cases is
  · rintro ⟨sale, there, opened, rfl⟩
    exact ⟨sale, there, if_pos opened⟩

/-- The lines are those of the items whose sale is open. -/
theorem mem_activeItems : entry ∈ activeItems time order db ↔
    ∃ id item sale, ItemAt db id item sale ∧ (sale.startsAt ≤ time ∧ time ≤ sale.endsAt) ∧
      entry = activeItem id item sale := by
  have lines : activeItems time order db =
      (arrange order db.flashSaleItems.rows).filterMap (lineAt time db) := rfl
  rw [lines, List.mem_filterMap]
  constructor
  · rintro ⟨⟨id, item⟩, mem, line⟩
    obtain ⟨sale, joined, opened, rfl⟩ := lineAt_some.mp line
    have there := Table.mem_rows_iff.mp ((arrange_perm _ _).mem_iff.mp mem)
    exact ⟨id, item, sale, ⟨there, joined⟩, opened, rfl⟩
  · rintro ⟨id, item, sale, at_, opened, rfl⟩
    refine ⟨(id, item), (arrange_perm _ _).mem_iff.mpr (Table.mem_rows_iff.mpr at_.row), ?_⟩
    exact lineAt_some.mpr ⟨sale, at_.joined, opened, rfl⟩

/-- When the rows of the items change one by one, so do the lines. -/
theorem activeItems_map {order' : List Nat} {f : Uuid × ItemRow → Uuid × ItemRow}
    {g : ActiveSaleItemDto → ActiveSaleItemDto}
    (rows : db'.flashSaleItems.rows = db.flashSaleItems.rows.map f)
    (lines : ∀ row, lineAt time db' (f row) = (lineAt time db row).map g) :
    (activeItems time order' db').Perm ((activeItems time order db).map g) := by
  have now : activeItems time order' db' =
      (arrange order' db'.flashSaleItems.rows).filterMap (lineAt time db') := rfl
  have before : activeItems time order db =
      (arrange order db.flashSaleItems.rows).filterMap (lineAt time db) := rfl
  have arranged : (arrange order' db'.flashSaleItems.rows).Perm
      ((arrange order db.flashSaleItems.rows).map f) := by
    refine (arrange_perm _ _).trans ?_
    rw [rows]
    exact ((arrange_perm _ _).map f).symm
  rw [now, before, List.map_filterMap]
  refine (arranged.filterMap _).trans ?_
  rw [List.filterMap_map]
  exact List.Perm.of_eq (List.filterMap_congr fun row _ => lines row)

end Lines

/-! ### A call by what is listed -/

/-- The user can pay the price of the line. -/
def Payable (user : UserRow) (entry : ActiveSaleItemDto) : Prop :=
  ∃ price, entry.priceCents = toString price ∧ price ≤ user.balanceCents ∧
    int8 (user.balanceCents - price) = true

/-- The answers to a call for an item that the listing does not show, shows without units,
or shows at a price that the user cannot pay. -/
inductive Refused (lines : List ActiveSaleItemDto) (item : Uuid) (user : UserRow) : Failure → Prop where
  | notFound (unlisted : ∀ entry ∈ lines, entry.id ≠ item) : Refused lines item user saleItemNotFound
  | outOfWindow (unlisted : ∀ entry ∈ lines, entry.id ≠ item) : Refused lines item user outOfWindow
  | soldOut {entry : ActiveSaleItemDto} (listed : entry ∈ lines) (same : entry.id = item)
      (none : entry.remaining ≤ 0) : Refused lines item user soldOut
  | short {entry : ActiveSaleItemDto} (listed : entry ∈ lines) (same : entry.id = item)
      (some : 0 < entry.remaining) {price : Int} (costs : entry.priceCents = toString price)
      (short : user.balanceCents < price) : Refused lines item user insufficientBalance
  | overflow {entry : ActiveSaleItemDto} (listed : entry ∈ lines) (same : entry.id = item)
      (some : 0 < entry.remaining) {price : Int} (costs : entry.priceCents = toString price)
      (large : int8 (user.balanceCents - price) = false) :
      Refused lines item user (.database .outOfRange)

section Calls

variable {args : PurchaseArgs} {around : Surroundings Env Failure} {db : Db} {item : ItemRow}
  {sale : SaleRow} {user : UserRow}

theorem throws {e : Failure}
    (ended : (args.call around).body.solo plan around db 0 [] = .error e) :
    (args.transaction around db).1 = .error e := by
  show (Lib.settle db ((args.call around).body.solo plan around db 0 [])).1 = _
  rw [ended]
  rfl

theorem throws_missing (spared : ∀ i ≤ 7, around.fails i = none) (unbought : ¬ BoughtToday args db)
    (missing : ∀ item sale, ¬ ItemAt db args.saleItemId item sale) :
    (args.transaction around db).1 = .error saleItemNotFound := by
  refine throws ?_
  rw [PurchaseCall.body_eq]
  refine (Tx.solo_statement (spared 0 (by decide))
    (@answer_unbought (args.call around) db unbought)).trans ?_
  refine (Tx.solo_statement (spared 1 (by decide))
    (@answer_missing (args.call around) db missing)).trans ?_
  rfl

/-- A call for an item goes on with the checks of its sale and its units. -/
theorem solo_item (spared : ∀ i ≤ 7, around.fails i = none) (unbought : ¬ BoughtToday args db)
    (at_ : ItemAt db args.saleItemId item sale) :
    (args.call around).body.solo plan around db 0 [] =
      (if around.time 2 < sale.startsAt ∨ around.time 2 > sale.endsAt then .throw outOfWindow
        else if item.sold ≥ item.quantity then .throw soldOut
        else (args.call around).afterWindow (itemWindow args.saleItemId item sale) :
        Program PurchaseResult).solo plan around db 2 [] := by
  rw [PurchaseCall.body_eq]
  refine (Tx.solo_statement (spared 0 (by decide))
    (@answer_unbought (args.call around) db unbought)).trans ?_
  refine (Tx.solo_statement (spared 1 (by decide))
    (@answer_item (args.call around) db item sale at_)).trans ?_
  rfl

theorem throws_closed (spared : ∀ i ≤ 7, around.fails i = none) (unbought : ¬ BoughtToday args db)
    (at_ : ItemAt db args.saleItemId item sale)
    (closed : ¬(sale.startsAt ≤ around.time 2 ∧ around.time 2 ≤ sale.endsAt)) :
    (args.transaction around db).1 = .error outOfWindow := by
  refine throws ?_
  rw [solo_item spared unbought at_, if_pos]
  · rfl
  · by_contra open_
    rw [not_or, not_lt, not_lt] at open_
    exact closed open_

theorem throws_soldOut (spared : ∀ i ≤ 7, around.fails i = none) (unbought : ¬ BoughtToday args db)
    (at_ : ItemAt db args.saleItemId item sale)
    (opened : sale.startsAt ≤ around.time 2 ∧ around.time 2 ≤ sale.endsAt)
    (gone : item.quantity ≤ item.sold) :
    (args.transaction around db).1 = .error soldOut := by
  refine throws ?_
  rw [solo_item spared unbought at_, if_neg, if_pos gone]
  · rfl
  · rw [not_or, not_lt, not_lt]
    exact opened

theorem throws_short (spared : ∀ i ≤ 7, around.fails i = none) (unbought : ¬ BoughtToday args db)
    (at_ : ItemAt db args.saleItemId item sale)
    (opened : sale.startsAt ≤ around.time 2 ∧ around.time 2 ≤ sale.endsAt)
    (available : item.sold < item.quantity) (owner : db.users.get? args.userId = some user)
    (short : user.balanceCents < item.priceCents) :
    (args.transaction around db).1 = .error insufficientBalance := by
  refine throws ?_
  rw [solo_item spared unbought at_, if_neg, if_neg (not_le.mpr available)]
  · refine (Tx.solo_statement (spared 2 (by decide))
      (@answer_balance (args.call around) db user owner)).trans ?_
    show (if user.balanceCents < item.priceCents then .throw insufficientBalance
      else (args.call around).record (itemWindow args.saleItemId item sale) :
        Program PurchaseResult).solo plan around db 3 [] = _
    rw [if_pos short]
    rfl
  · rw [not_or, not_lt, not_lt]
    exact opened

theorem PassesChecks.throws_overflow (passes : PassesChecks args (around.time 2) item sale user db)
    (conforms : db.Conforms) (spared : ∀ i ≤ 7, around.fails i = none)
    (large : int8 (user.balanceCents - item.priceCents) = false) :
    (args.transaction around db).1 = .error (.database .outOfRange) := by
  have counted := @answer_count (args.call around) db item passes.at_.row
    (conforms.inRange passes.at_.row) passes.available
  have debited : (plan (.updateBalance args.userId item.priceCents) (args.call around).env
      (Lib.applyAll db [(args.call around).count])).answer = .error .outOfRange :=
    (@answer_debit (args.call around) (Lib.applyAll db [(args.call around).count]) item user
      passes.owner passes.funds).trans (if_neg (Bool.eq_false_iff.mp large))
  refine throws ?_
  rw [passes.checked spared, PurchaseCall.record_eq]
  exact (Tx.solo_statement (spared 3 (by decide)) counted).trans
    (Tx.solo_failed (spared 4 (by decide)) debited)

theorem payable_iff {entry : ActiveSaleItemDto} (costs : entry.priceCents = toString item.priceCents) :
    Payable user entry ↔
      item.priceCents ≤ user.balanceCents ∧ int8 (user.balanceCents - item.priceCents) = true := by
  constructor
  · rintro ⟨price, is, funds, fits⟩
    obtain rfl : price = item.priceCents := Lib.Decimal.int_of_repr (is.symm.trans costs)
    exact ⟨funds, fits⟩
  · rintro ⟨funds, fits⟩
    exact ⟨_, costs, funds, fits⟩

/-- A call that fails is refused by what is listed. -/
theorem refused {order : List Nat} {e : Failure} (conforms : db.Conforms)
    (unhindered : Unhindered around db) (owner : db.users.get? args.userId = some user)
    (unbought : ¬ BoughtToday args db)
    (unused : ∀ id row, db.purchases.get? id = some row → row.idempotencyKey ≠ args.idempotencyKey)
    (threw : (args.transaction around db).1 = .error e) :
    Refused (activeItems (around.time 2) order db) args.saleItemId user e := by
  have spared := unhindered.spared
  by_cases found : ∃ item sale, ItemAt db args.saleItemId item sale
  · obtain ⟨item, sale, at_⟩ := found
    by_cases opened : sale.startsAt ≤ around.time 2 ∧ around.time 2 ≤ sale.endsAt
    · have listed : activeItem args.saleItemId item sale ∈ activeItems (around.time 2) order db :=
        mem_activeItems.mpr ⟨_, item, sale, at_, opened, rfl⟩
      by_cases available : item.sold < item.quantity
      · have some : 0 < (activeItem args.saleItemId item sale).remaining := Int.sub_pos_of_lt available
        by_cases funds : item.priceCents ≤ user.balanceCents
        · have passes : PassesChecks args (around.time 2) item sale user db :=
            ⟨unbought, at_, opened, available, owner, funds⟩
          cases fits : int8 (user.balanceCents - item.priceCents) with
          | true =>
            have can : CanBuy args (around.time 2) item sale user db :=
              ⟨fun id row there same => unbought ⟨id, row, there, same⟩, at_.row, at_.joined, opened,
                available, owner, funds, fits, unused⟩
            have done : args.transaction around db = _ :=
              Tx.transaction_ok (can.succeeds unhindered conforms)
            rw [done] at threw
            cases threw
          | false =>
            cases threw.symm.trans (passes.throws_overflow conforms spared fits)
            exact .overflow listed rfl some rfl fits
        · cases threw.symm.trans
            (throws_short spared unbought at_ opened available owner (not_le.mp funds))
          exact .short listed rfl some rfl (not_le.mp funds)
      · cases threw.symm.trans (throws_soldOut spared unbought at_ opened (not_lt.mp available))
        exact .soldOut listed rfl (Int.sub_nonpos_of_le (not_lt.mp available))
    · cases threw.symm.trans (throws_closed spared unbought at_ opened)
      refine .outOfWindow fun entry listed same => ?_
      obtain ⟨id, item', sale', at', opened', rfl⟩ := mem_activeItems.mp listed
      obtain rfl : id = args.saleItemId := same
      cases at_.row.symm.trans at'.row
      cases at_.joined.symm.trans at'.joined
      exact opened opened'
  · have missing : ∀ item sale, ¬ ItemAt db args.saleItemId item sale :=
      fun item sale at_ => found ⟨item, sale, at_⟩
    cases threw.symm.trans (throws_missing spared unbought missing)
    refine .notFound fun entry listed same => ?_
    obtain ⟨id, item', sale', at', -, rfl⟩ := mem_activeItems.mp listed
    obtain rfl : id = args.saleItemId := same
    exact missing _ _ at'

/-- A unit less in the line of the item, at every instant. -/
theorem bought_lines {time : Int} {order order' : List Nat} :
    (activeItems time order' (args.bought around item db)).Perm ((activeItems time order db).map
      fun entry => if entry.id = args.saleItemId then entry.less 1 else entry) := by
  refine activeItems_map (f := fun row => if row.1 = args.saleItemId
    then (row.1, { row.2 with sold := row.2.sold + 1 }) else row) rfl fun row => ?_
  obtain ⟨id, row⟩ := row
  by_cases own : id = args.saleItemId
  · subst own
    rw [if_pos rfl]
    unfold lineAt
    cases joined : db.flashSales.get? row.flashSaleId with
    | none => simp [PurchaseArgs.bought, joined]
    | some sale =>
      by_cases opened : sale.startsAt ≤ time ∧ time ≤ sale.endsAt
      · simp [PurchaseArgs.bought, joined, opened, activeItem, ActiveSaleItemDto.less, Int.sub_sub]
      · simp [PurchaseArgs.bought, joined, opened]
  · rw [if_neg own]
    unfold lineAt
    cases joined : db.flashSales.get? row.flashSaleId with
    | none => simp [PurchaseArgs.bought, joined]
    | some sale =>
      by_cases opened : sale.startsAt ≤ time ∧ time ≤ sale.endsAt
      · simp [PurchaseArgs.bought, joined, opened, activeItem, own]
      · simp [PurchaseArgs.bought, joined, opened]

/-- A call of a user without a purchase of the day, under a new key, succeeds exactly on an
item that is listed at its instant with units left, at a price the user can pay. It is told
that price and one unit less, and so is every later request for the listing. Otherwise the
listing says why. -/
theorem purchase_listed (conforms : db.Conforms) (unhindered : Unhindered around db)
    (owner : db.users.get? args.userId = some user) (unbought : ¬ BoughtToday args db)
    (unused : ∀ id row, db.purchases.get? id = some row → row.idempotencyKey ≠ args.idempotencyKey)
    (order : List Nat) :
    ((∃ result, (args.transaction around db).1 = .ok result) ↔
      ∃ entry ∈ activeItems (around.time 2) order db, entry.id = args.saleItemId ∧
        0 < entry.remaining ∧ Payable user entry) ∧
    (∀ result, (args.transaction around db).1 = .ok result →
      ∃ entry ∈ activeItems (around.time 2) order db, entry.id = args.saleItemId ∧
        toString result.priceCents = entry.priceCents ∧
        result.remainingAllocation = entry.remaining - 1 ∧
        ∀ time order order', (activeItems time order' (args.transaction around db).2).Perm
          ((activeItems time order db).map
            fun entry => if entry.id = args.saleItemId then entry.less 1 else entry)) ∧
    ∀ e, (args.transaction around db).1 = .error e →
      Refused (activeItems (around.time 2) order db) args.saleItemId user e := by
  obtain ⟨succeeds, effect, -⟩ := purchaseTx_exact conforms args around
  have line : ∀ {item sale}, ItemAt db args.saleItemId item sale →
      sale.startsAt ≤ around.time 2 ∧ around.time 2 ≤ sale.endsAt →
      activeItem args.saleItemId item sale ∈ activeItems (around.time 2) order db :=
    fun at_ opened => mem_activeItems.mpr ⟨_, _, _, at_, opened, rfl⟩
  refine ⟨⟨fun done => ?_, ?_⟩, fun result done => ?_, fun e threw => ?_⟩
  · obtain ⟨⟨item, sale, user', can⟩, -⟩ := succeeds.mp done
    cases owner.symm.trans can.owner
    exact ⟨_, line ⟨can.there, can.joined⟩ can.window, rfl, Int.sub_pos_of_lt can.available,
      (payable_iff rfl).mpr ⟨can.funds, can.fits⟩⟩
  · rintro ⟨entry, listed, same, some, payable⟩
    obtain ⟨id, item, sale, at_, opened, rfl⟩ := mem_activeItems.mp listed
    obtain rfl : id = args.saleItemId := same
    obtain ⟨funds, fits⟩ := (payable_iff rfl).mp payable
    exact succeeds.mpr ⟨⟨item, sale, user, fun id row there same => unbought ⟨id, row, there, same⟩,
      at_.row, at_.joined, opened, Int.lt_of_sub_pos some, owner, funds, fits, unused⟩, unhindered⟩
  · obtain ⟨⟨item, sale, user', can⟩, -⟩ := succeeds.mp ⟨result, done⟩
    obtain ⟨item', there, rfl, after⟩ := effect result done
    cases can.there.symm.trans there
    refine ⟨_, line ⟨can.there, can.joined⟩ can.window, rfl, rfl, rfl, fun time order order' => ?_⟩
    rw [after]
    exact bought_lines
  · exact refused conforms unhindered owner unbought unused threw

end Calls

/-- What item 4 shows before its first purchase. -/
def shownItem : ActiveSaleItemDto := ⟨4, 2, "100", 5, 0, 5, 3, saleName, dayStart, dayStart + 3600000⟩

theorem purchase_listed_plain :
    (plainPurchase.transaction (plainSurroundings 10) (shopWith 500 100)).1 = .ok ⟨15, 4, 100, 4⟩ ∧
      (activeItems dayStart [] (plainPurchase.transaction (plainSurroundings 10) (shopWith 500 100)).2).Perm
        ((activeItems dayStart [] (shopWith 500 100)).map
          fun entry => if entry.id = 4 then entry.less 1 else entry) ∧
      activeItems dayStart [] (shopWith 500 100) = [shownItem] := by
  have conforms : (shopWith 500 100).Conforms := shopWith_conforms (by decide) rfl rfl
  have done : (plainPurchase.transaction (plainSurroundings 10) (shopWith 500 100)).1 =
      .ok ⟨15, 4, 100, 4⟩ := by decide +kernel
  have owner : (shopWith 500 100).users.get? plainPurchase.userId =
      some ⟨some mail, none, memberHash, .active, 500⟩ := rfl
  obtain ⟨-, told, -⟩ := purchase_listed conforms plainSurroundings_unhindered owner
    (fun ⟨_, _, found, _⟩ => nomatch found) (fun _ _ found => nomatch found) []
  obtain ⟨entry, -, -, -, -, after⟩ := told _ done
  exact ⟨done, after dayStart [] [], by decide +kernel⟩

/-! ### The listing over a run -/

section Commits

variable {cfg : Cfg} {db db' start : Db} {commit : Commit} {done : List Commit}

/-- An item stays, up to its counter. -/
theorem Atomic.item_kept (happened : Atomic cfg db commit db') {id : Uuid} {item : ItemRow}
    (there : db.flashSaleItems.get? id = some item) :
    ∃ sold, db'.flashSaleItems.get? id = some { item with sold := sold } := by
  cases happened with
  | @purchased _ args result found spec =>
    rw [spec.effect]
    by_cases same : args.saleItemId = id
    · subst same
      exact ⟨item.sold + 1, by simp [Table.get?_modify, there]⟩
    · exact ⟨item.sold, (Table.get?_modify_ne same).trans there⟩
  | created found spec =>
    rw [spec.effect]
    exact ⟨item.sold, Table.get?_insertAll_of_some there⟩
  | registered found spec => rw [spec.effect]; exact ⟨item.sold, there⟩
  | resent found spec => rw [spec.effect]; exact ⟨item.sold, there⟩
  | account spec => rw [spec.effect]; exact ⟨item.sold, by simpa using there⟩
  | settled spec =>
    cases spec with
    | skipped _ => exact ⟨item.sold, there⟩
    | settled _ _ _ effect => rw [effect]; exact ⟨item.sold, there⟩
  | otpSent found => exact ⟨item.sold, there⟩
  | ticked spec => rw [spec.effect]; exact ⟨item.sold, there⟩

/-- A sale stays, up to its settlement. -/
theorem Atomic.sale_named (happened : Atomic cfg db commit db') {id : Uuid} {sale : SaleRow}
    (there : db.flashSales.get? id = some sale) :
    ∃ settledAt, db'.flashSales.get? id = some { sale with settledAt := settledAt } := by
  cases happened with
  | purchased found spec => rw [spec.effect]; exact ⟨sale.settledAt, there⟩
  | created found spec =>
    rw [spec.effect]
    exact ⟨sale.settledAt, Table.get?_insert_of_some there⟩
  | registered found spec => rw [spec.effect]; exact ⟨sale.settledAt, there⟩
  | resent found spec => rw [spec.effect]; exact ⟨sale.settledAt, there⟩
  | account spec => rw [spec.effect]; exact ⟨sale.settledAt, by simpa using there⟩
  | @settled _ saleId started result spec =>
    cases spec with
    | skipped _ => exact ⟨sale.settledAt, there⟩
    | settled _ _ _ effect =>
      rw [effect]
      by_cases same : saleId = id
      · subst same
        exact ⟨some (toColumn started), by simp [Table.get?_modify, there]⟩
      · exact ⟨sale.settledAt, (Table.get?_modify_ne same).trans there⟩
  | otpSent found => exact ⟨sale.settledAt, there⟩
  | ticked spec => rw [spec.effect]; exact ⟨sale.settledAt, there⟩

theorem mem_answers {item : Uuid} {result : PurchaseResult} :
    result ∈ answers item done ↔ ∃ args, .purchased args result ∈ done ∧ args.saleItemId = item := by
  rw [answers, List.mem_filterMap]
  constructor
  · rintro ⟨commit, mem, is⟩
    cases commit with
    | purchased args result' =>
      dsimp only at is
      split at is
      · rename_i same
        cases is
        exact ⟨args, mem, same⟩
      · cases is
    | _ => cases is
  · rintro ⟨args, mem, same⟩
    exact ⟨_, mem, if_pos same⟩

/-- What a reader of the rows of `start` may still rely on after these commits: items and sales
stay but for what is sold and settled, and purchases answer with the price shown. -/
structure StillShown (start : Db) (done : List Commit) (db : Db) : Prop where
  items : ∀ id item, start.flashSaleItems.get? id = some item →
    ∃ sold, db.flashSaleItems.get? id = some { item with sold := sold }
  sales : ∀ id sale, start.flashSales.get? id = some sale →
    ∃ settledAt, db.flashSales.get? id = some { sale with settledAt := settledAt }
  told : ∀ id item, start.flashSaleItems.get? id = some item → ∀ result ∈ answers id done,
    result.saleItemId = id ∧ result.priceCents = item.priceCents

theorem StillShown.init : StillShown start [] start where
  items _ item there := ⟨item.sold, there⟩
  sales _ sale there := ⟨sale.settledAt, there⟩
  told _ _ _ _ mem := nomatch mem

theorem StillShown.step (shown : StillShown start done db) (happened : Atomic cfg db commit db') :
    StillShown start (done ++ [commit]) db' := by
  refine ⟨fun id item there => ?_, fun id sale there => ?_, fun id item there result mem => ?_⟩
  · obtain ⟨sold, there⟩ := shown.items id item there
    obtain ⟨sold', there'⟩ := happened.item_kept there
    exact ⟨sold', there'⟩
  · obtain ⟨settledAt, there⟩ := shown.sales id sale there
    obtain ⟨settledAt', there'⟩ := happened.sale_named there
    exact ⟨settledAt', there'⟩
  · obtain ⟨args, inside, same⟩ := mem_answers.mp mem
    rcases List.mem_append.mp inside with old | new
    · exact shown.told id item there result (mem_answers.mpr ⟨args, old, same⟩)
    · obtain rfl := List.mem_singleton.mp new
      cases happened with
      | purchased found spec =>
        obtain ⟨sold, now⟩ := shown.items id item there
        subst same
        have price := congrArg ItemRow.priceCents (Option.some.inj (spec.item.symm.trans now))
        rw [spec.result_eq]
        exact ⟨rfl, price⟩

end Commits

section Runs

variable {cfg : Cfg} {start s s' : State} {trace later : List (State × Label)}

/-- The committed rows come from those of any earlier state by the commits in between. -/
theorem Run.commits_since (coherent : Coherent cfg s) (run : Run cfg s later s') :
    ∃ done, commits s'.history = commits s.history ++ done ∧
      Chain (Atomic cfg) s.server.db done s'.server.db := by
  refine Lib.Run.simulates_since (fun s => s.server.db) (fun s => commits s.history) coherent
    (fun _ _ _ coherent taken => (step_coherent coherent taken).1) ?_ run
  intro s l s' coherent taken
  obtain ⟨-, events, history, effects⟩ := step_coherent coherent taken
  rcases effects with ⟨quiet, same⟩ | ⟨commit, done, happened⟩
  · exact Or.inl ⟨same, by rw [history, commits_append, quiet, List.append_nil]⟩
  · exact Or.inr ⟨commit, happened, by rw [history, commits_append, done]⟩

/-- What was listed for an instant stays listed for it, less the units bought since; these
never exceed what was shown, and their answers count down from it, at the price shown. -/
theorem Run.listing_kept (fresh : Fresh start) (tallied : Tallied start.server.db)
    (before : Run cfg start trace s) (after : Run cfg s later s') {time : Int} {order : List Nat}
    {entry : ActiveSaleItemDto} (listed : entry ∈ activeItems time order s.server.db) :
    ∃ done, commits s'.history = commits s.history ++ done ∧
      (∀ order', entry.less (answers entry.id done).length ∈ activeItems time order' s'.server.db) ∧
      (answers entry.id done).length ≤ entry.remaining ∧
      ∀ (k : Nat) (result : PurchaseResult), (answers entry.id done)[k]? = some result →
        result.saleItemId = entry.id ∧ toString result.priceCents = entry.priceCents ∧
        result.remainingAllocation = entry.remaining - (k + 1) := by
  obtain ⟨id, item, sale, at_, opened, rfl⟩ := mem_activeItems.mp listed
  obtain ⟨done, history, chain⟩ := Run.commits_since (before.coherent fresh) after
  have tallied : Tallied s.server.db :=
    Chain.invariant (fun _ db => Tallied db) tallied
      (fun _ _ _ _ tallied happened => tallied.step happened) (before.commits_chain fresh)
  have tallied' : Tallied s'.server.db :=
    Chain.invariant (fun _ db => Tallied db) tallied
      (fun _ _ _ _ tallied happened => tallied.step happened) chain
  have told : AllAnswered s.server.db done s'.server.db :=
    Chain.invariant (fun done db => AllAnswered s.server.db done db) .init
      (fun _ _ _ _ told happened => told.step happened) chain
  have shown : StillShown s.server.db done s'.server.db :=
    Chain.invariant (fun done db => StillShown s.server.db done db) .init
      (fun _ _ _ _ shown happened => shown.step happened) chain
  obtain ⟨sold, there⟩ := shown.items id item at_.row
  obtain ⟨settledAt, joined⟩ := shown.sales _ sale at_.joined
  have answered := told.present id _ there
  have units : soldOf id s.server.db = item.sold := by
    rw [soldOf, at_.row]
    rfl
  have now : sold = item.sold + (answers id done).length := units ▸ answered.sold
  refine ⟨done, history, fun order' => ?_, ?_, fun k result answer => ?_⟩
  · refine mem_activeItems.mpr ⟨id, _, _, ⟨there, joined⟩, opened, ?_⟩
    show (activeItem id item sale).less (answers id done).length = _
    rw [now]
    simp only [activeItem, ActiveSaleItemDto.less, Int.sub_sub]
  · have within : sold ≤ item.quantity := tallied'.sold_le id _ there
    show ((answers id done).length : Int) ≤ item.quantity - item.sold
    omega
  · obtain ⟨same, price⟩ := shown.told id item at_.row result (List.mem_of_getElem? answer)
    refine ⟨same, congrArg toString price, ?_⟩
    rw [answered.get answer, units]
    rfl

theorem listing_kept_buying :
    ∃ s, Run plainCfg shop (Lib.traceOf (step plainCfg) shop buying) s ∧
      shownItem.less 1 ∈ activeItems dayStart [] s.server.db := by
  have run := Lib.Run.of_isSome buying_runs
  have listed : shownItem ∈ activeItems dayStart [] shop.server.db := by decide +kernel
  obtain ⟨done, history, lines, -⟩ :=
    Run.listing_kept (State.initial_fresh _ _ _) shop_tallied .nil run listed
  have once : (answers 4 (commits ((Lib.execute (step plainCfg) shop buying).get
      buying_runs).history)).length = 1 := by decide +kernel
  have length : (answers shownItem.id done).length = 1 := by
    rw [history] at once
    exact once
  have there := lines []
  rw [length] at there
  exact ⟨_, run, there⟩

end Runs

end FlashSale
