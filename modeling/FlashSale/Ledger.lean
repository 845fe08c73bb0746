/-
# The ledgers of items and balances

Both ledgers are read off the commits: a commit of a purchase adds one to the units sold of
its item and takes the price from the balance of its user, and no other commit touches
either. As the commits of a run form a chain of abstract steps, no interleaving has to be
looked at again.

* `Run.item_ledger`: in every reachable state an item has sold as many units as
  it has purchases, never more than its quantity, and the purchases that committed
  were told the remaining allocations one below the other, none twice and none
  skipped.
* `Run.balance_ledger`: a balance is the initial one less the prices of the
  purchases committed since, every such price is that of its item, no balance is
  negative, and the debit never violates the CHECK on the balance.
-/
import FlashSale.Coherence

namespace FlashSale

open Lib (Table Chain)

/-! ### Items and their purchases -/

/-- The number of purchases of an item. -/
def purchasesOf (item : Uuid) (db : Db) : Nat :=
  db.purchases.count fun _ row => decide (row.flashSaleItemId = item)

/-- The constraint `flash_sale_items_sold_valid`, the foreign key of purchases,
and the counter in agreement with the rows. -/
structure Tallied (db : Db) : Prop where
  sold_nonneg : ∀ id row, db.flashSaleItems.get? id = some row → 0 ≤ row.sold
  sold_le : ∀ id row, db.flashSaleItems.get? id = some row → row.sold ≤ row.quantity
  sold_rows : ∀ id row, db.flashSaleItems.get? id = some row → row.sold = purchasesOf id db
  item_exists : ∀ id row, db.purchases.get? id = some row →
    db.flashSaleItems.get? row.flashSaleItemId ≠ none

section Tally

variable {cfg : Cfg} {db db' : Db}

theorem Tallied.congr (tallied : Tallied db) (items : db'.flashSaleItems = db.flashSaleItems)
    (purchases : db'.purchases = db.purchases) : Tallied db' := by
  obtain ⟨nonneg, le, rows, exist⟩ := tallied
  rw [← items] at nonneg le rows exist
  rw [← purchases] at exist
  refine ⟨nonneg, le, fun id row found => ?_, exist⟩
  rw [rows id row found, purchasesOf, purchasesOf, purchases]

/-- An item without a row has no purchases. -/
theorem Tallied.none_purchased (tallied : Tallied db) {item : Uuid}
    (absent : db.flashSaleItems.get? item = none) : purchasesOf item db = 0 := by
  refine Table.count_eq_zero.mpr fun id row found => ?_
  refine decide_eq_false fun same => tallied.item_exists id row found ?_
  rwa [same]

theorem Tallied.purchased (tallied : Tallied db) {args : PurchaseArgs} {found : PurchaseFound}
    {result : PurchaseResult} (spec : PurchaseCommits args found result db db') : Tallied db' := by
  have count : ∀ item, purchasesOf item db' =
      purchasesOf item db + if args.saleItemId = item then 1 else 0 := by
    intro item
    rw [spec.effect]
    simp only [purchasesOf, Table.count_insert _ spec.fresh, decide_eq_true_eq]
  have after : ∀ id row, db'.flashSaleItems.get? id = some row → ∃ old,
      db.flashSaleItems.get? id = some old ∧ row.quantity = old.quantity ∧
      row.sold = old.sold + if args.saleItemId = id then 1 else 0 := by
    intro id row h
    rw [spec.effect] at h
    obtain ⟨old, there, ⟨rfl, rfl⟩ | ⟨ne, rfl⟩⟩ := Table.get?_modify_cases h
    · exact ⟨old, there, rfl, by rw [if_pos rfl]⟩
    · exact ⟨row, there, rfl, by rw [if_neg ne, Int.add_zero]⟩
  refine ⟨fun id row h => ?_, fun id row h => ?_, fun id row h => ?_, fun id row h => ?_⟩
  · obtain ⟨old, there, -, sold⟩ := after id row h
    have nonneg := tallied.sold_nonneg id old there
    split at sold <;> omega
  · obtain ⟨old, there, quantity, sold⟩ := after id row h
    split at sold
    · rename_i same
      subst same
      have available := spec.available
      rw [Option.some.inj (spec.item.symm.trans there)] at available
      omega
    · have le := tallied.sold_le id old there
      omega
  · obtain ⟨old, there, -, sold⟩ := after id row h
    have rows := tallied.sold_rows id old there
    rw [sold, count, rows]
    split <;> simp
  · rw [spec.effect] at h ⊢
    rw [Ne, Table.get?_modify_eq_none]
    rcases Table.get?_insert_cases h with old | ⟨-, rfl⟩
    · exact tallied.item_exists id row old
    · rw [spec.item]
      exact Option.some_ne_none _

theorem Tallied.created (tallied : Tallied db) {input : CreateSaleInput} {found : CreateFound}
    {result : CreatedSale} (spec : CreateCommits input found result db db') : Tallied db' := by
  have purchases : ∀ item, purchasesOf item db' = purchasesOf item db := by
    intro item
    rw [spec.effect]
    rfl
  have after : ∀ id row, db'.flashSaleItems.get? id = some row →
      db.flashSaleItems.get? id = some row ∨
      db.flashSaleItems.get? id = none ∧ row.sold = 0 ∧ 0 < row.quantity := by
    intro id row h
    rw [spec.effect] at h
    rcases Table.get?_insertAll_cases h with old | new
    · exact Or.inl old
    · obtain ⟨line, mem, eq⟩ := List.mem_map.mp new
      cases eq
      refine Or.inr ⟨spec.items_fresh _ ?_, rfl, spec.quantities line.1 ?_⟩
      · rw [← spec.lines_ids]
        exact List.mem_map_of_mem mem
      · rw [← spec.lines_items]
        exact List.mem_map_of_mem mem
  refine ⟨fun id row h => ?_, fun id row h => ?_, fun id row h => ?_, fun id row h => ?_⟩
  · rcases after id row h with old | ⟨-, sold, -⟩
    · exact tallied.sold_nonneg id row old
    · omega
  · rcases after id row h with old | ⟨-, sold, quantity⟩
    · exact tallied.sold_le id row old
    · omega
  · rw [purchases]
    rcases after id row h with old | ⟨absent, sold, -⟩
    · exact tallied.sold_rows id row old
    · rw [sold, tallied.none_purchased absent]
      rfl
  · rw [spec.effect] at h ⊢
    intro absent
    exact tallied.item_exists id row h (Table.get?_insertAll_eq_none.mp absent).1

/-- Every commit keeps the counters in agreement with the rows. Only a purchase changes either,
and it changes both by one. -/
theorem Tallied.step {commit : Commit} (tallied : Tallied db)
    (happened : Atomic cfg db commit db') : Tallied db' := by
  cases happened with
  | purchased found spec => exact tallied.purchased spec
  | created found spec => exact tallied.created spec
  | registered found spec => rw [spec.effect]; exact tallied.congr rfl rfl
  | resent found spec => rw [spec.effect]; exact tallied.congr rfl rfl
  | account spec => rw [spec.effect]; exact tallied.congr (by simp) (by simp)
  | settled spec =>
    cases spec with
    | skipped _ => exact tallied
    | settled _ _ _ effect => rw [effect]; exact tallied.congr rfl rfl
  | otpSent found => exact tallied.congr rfl rfl
  | ticked spec => rw [spec.effect]; exact tallied.congr rfl rfl

end Tally

/-! ### Answers -/

/-- What the committed purchases of an item returned, in the order of their
commits. -/
def answers (item : Uuid) (done : List Commit) : List PurchaseResult :=
  done.filterMap fun
    | .purchased args result => if args.saleItemId = item then some result else none
    | _ => none

/-- The units of an item that are sold; none of an item without a row. -/
def soldOf (item : Uuid) (db : Db) : Int := ((db.flashSaleItems.get? item).map ItemRow.sold).getD 0

theorem answers_purchased (item : Uuid) (done : List Commit) (args : PurchaseArgs)
    (result : PurchaseResult) :
    answers item (done ++ [.purchased args result]) =
      answers item done ++ if args.saleItemId = item then [result] else [] := by
  rw [answers, List.filterMap_append]
  by_cases same : args.saleItemId = item <;> simp [answers, same]

/-- The counter went up by one with every answer, and every answer was the
allocation that it left. -/
structure Answered (start : Db) (item : Uuid) (done : List Commit) (row : ItemRow) : Prop where
  sold : row.sold = soldOf item start + (answers item done).length
  remaining : (answers item done).map PurchaseResult.remainingAllocation =
    (List.range (answers item done).length).map
      fun k : Nat => row.quantity - soldOf item start - ((k : Int) + 1)

/-- The same for all items; one without a row was never there and never answered. -/
structure AllAnswered (start : Db) (done : List Commit) (db : Db) : Prop where
  present : ∀ item row, db.flashSaleItems.get? item = some row → Answered start item done row
  absent : ∀ item, db.flashSaleItems.get? item = none →
    answers item done = [] ∧ start.flashSaleItems.get? item = none

section Answers

variable {cfg : Cfg} {start db db' : Db} {done : List Commit}

theorem AllAnswered.congr (told : AllAnswered start done db) {commit : Commit}
    (quiet : ∀ item, answers item (done ++ [commit]) = answers item done)
    (items : db'.flashSaleItems = db.flashSaleItems) :
    AllAnswered start (done ++ [commit]) db' := by
  refine ⟨fun item row found => ?_, fun item absent => ?_⟩
  · rw [items] at found
    obtain ⟨sold, remaining⟩ := told.present item row found
    rw [← quiet item] at sold remaining
    exact ⟨sold, remaining⟩
  · rw [items] at absent
    rw [quiet]
    exact told.absent item absent

theorem AllAnswered.purchased (told : AllAnswered start done db) {args : PurchaseArgs}
    {found : PurchaseFound} {result : PurchaseResult}
    (spec : PurchaseCommits args found result db db') :
    AllAnswered start (done ++ [.purchased args result]) db' := by
  rw [spec.effect]
  refine ⟨fun item row h => ?_, fun item absent => ?_⟩
  · obtain ⟨old, there, ⟨rfl, rfl⟩ | ⟨ne, rfl⟩⟩ := Table.get?_modify_cases h
    · obtain ⟨sold, remaining⟩ := told.present _ old there
      have answer : result.remainingAllocation = old.quantity - (old.sold + 1) := by
        rw [spec.result_eq, Option.some.inj (spec.item.symm.trans there)]
      constructor
      · rw [answers_purchased, if_pos rfl, List.length_append, List.length_singleton]
        push_cast
        omega
      · rw [answers_purchased, if_pos rfl, List.length_append, List.length_singleton,
          List.range_succ, List.map_append, List.map_append, remaining, List.map_singleton,
          List.map_singleton, answer, sold]
        congr 2
        show old.quantity - _ = old.quantity - _ - _
        omega
    · obtain ⟨sold, remaining⟩ := told.present item row there
      constructor <;> rwa [answers_purchased, if_neg ne, List.append_nil]
  · have before := Table.get?_modify_eq_none.mp absent
    have ne : args.saleItemId ≠ item := by
      rintro rfl
      rw [spec.item] at before
      cases before
    rw [answers_purchased, if_neg ne, List.append_nil]
    exact told.absent item before

theorem AllAnswered.created (told : AllAnswered start done db) {input : CreateSaleInput}
    {found : CreateFound} {result : CreatedSale}
    (spec : CreateCommits input found result db db') :
    AllAnswered start (done ++ [.created input result]) db' := by
  have quiet : ∀ item, answers item (done ++ [.created input result]) = answers item done := by
    intro item
    simp [answers]
  rw [spec.effect]
  refine ⟨fun item row h => ?_, fun item absent => ?_⟩
  · rcases Table.get?_insertAll_cases h with old | new
    · obtain ⟨sold, remaining⟩ := told.present item row old
      rw [← quiet item] at sold remaining
      exact ⟨sold, remaining⟩
    · obtain ⟨line, mem, eq⟩ := List.mem_map.mp new
      cases eq
      have absent : db.flashSaleItems.get? line.2 = none := by
        apply spec.items_fresh _
        rw [← spec.lines_ids]
        exact List.mem_map_of_mem mem
      obtain ⟨unanswered, new⟩ := told.absent _ absent
      constructor
      · rw [quiet, unanswered, soldOf, new]
        rfl
      · rw [quiet, unanswered]
        rfl
  · rw [quiet]
    exact told.absent item (Table.get?_insertAll_eq_none.mp absent).1

theorem AllAnswered.step {commit : Commit} (told : AllAnswered start done db)
    (happened : Atomic cfg db commit db') : AllAnswered start (done ++ [commit]) db' := by
  cases happened with
  | purchased found spec => exact told.purchased spec
  | created found spec => exact told.created spec
  | registered found spec => rw [spec.effect]; exact told.congr (by simp [answers]) rfl
  | resent found spec => rw [spec.effect]; exact told.congr (by simp [answers]) rfl
  | account spec => rw [spec.effect]; exact told.congr (by simp [answers]) (by simp)
  | settled spec =>
    cases spec with
    | skipped _ => exact told.congr (by simp [answers]) rfl
    | settled _ _ _ effect => rw [effect]; exact told.congr (by simp [answers]) rfl
  | otpSent found => exact told.congr (by simp [answers]) rfl
  | ticked spec => rw [spec.effect]; exact told.congr (by simp [answers]) rfl

theorem AllAnswered.init : AllAnswered start [] start := by
  refine ⟨fun item row found => ⟨?_, rfl⟩, fun item absent => ⟨rfl, absent⟩⟩
  rw [soldOf, found]
  exact (Int.add_zero _).symm

/-- The first answer is the initial allocation less one, and so on down to the
allocation that is left. -/
theorem Answered.mem_iff {item : Uuid} {row : ItemRow} (told : Answered start item done row)
    (left : Int) :
    left ∈ (answers item done).map PurchaseResult.remainingAllocation ↔
      row.quantity - row.sold ≤ left ∧ left < row.quantity - soldOf item start := by
  rw [told.remaining, told.sold, List.mem_map]
  constructor
  · rintro ⟨k, mem, rfl⟩
    have bound := List.mem_range.mp mem
    constructor <;> omega
  · rintro ⟨low, high⟩
    refine ⟨(row.quantity - soldOf item start - 1 - left).toNat, List.mem_range.mpr ?_, ?_⟩ <;> omega

theorem Answered.nodup {item : Uuid} {row : ItemRow} (told : Answered start item done row) :
    ((answers item done).map PurchaseResult.remainingAllocation).Nodup := by
  rw [told.remaining]
  refine List.Nodup.map (fun k k' eq => ?_) List.nodup_range
  omega

theorem Answered.get {item : Uuid} {row : ItemRow} (told : Answered start item done row) {k : Nat}
    {result : PurchaseResult} (answer : (answers item done)[k]? = some result) :
    result.remainingAllocation = row.quantity - soldOf item start - (k + 1) := by
  have inside := (List.getElem?_eq_some_iff.mp answer).1
  have same := congrArg (fun l => l[k]?) told.remaining
  simp only [List.getElem?_map, answer, List.getElem?_range inside, Option.map_some,
    Option.some.injEq] at same
  exact same

end Answers

/-! ### Balances -/

/-- The balance of a user; none of a user without a row. -/
def balanceOf (user : Uuid) (db : Db) : Int :=
  ((db.users.get? user).map UserRow.balanceCents).getD 0

/-- The prices of the purchases of a user that `start` did not have. -/
def paidSince (start : Db) (user : Uuid) (db : Db) : Int :=
  db.purchases.sum fun id row =>
    if start.purchases.get? id = none ∧ row.userId = user then row.priceCents else 0

/-- The constraint `users_balance_nonneg`, of the committed rows before the run. The column's
CHECK keeps it from there. -/
def Solvent (db : Db) : Prop := ∀ user row, db.users.get? user = some row → 0 ≤ row.balanceCents

structure Balanced (start db : Db) : Prop where
  kept : ∀ id row, start.purchases.get? id = some row → db.purchases.get? id = some row
  balance : ∀ user row, db.users.get? user = some row →
    row.balanceCents = balanceOf user start - paidSince start user db
  absent : ∀ user, db.users.get? user = none →
    paidSince start user db = 0 ∧ start.users.get? user = none
  price : ∀ id row, start.purchases.get? id = none → db.purchases.get? id = some row →
    ∃ item, db.flashSaleItems.get? row.flashSaleItemId = some item ∧
      row.priceCents = item.priceCents
  solvent : Solvent db

section Balances

variable {cfg : Cfg} {start db db' : Db}

theorem Balanced.init (solvent : Solvent start) : Balanced start start := by
  have nothing : ∀ user, paidSince start user start = 0 := by
    intro user
    refine Table.sum_eq_zero fun id row found => if_neg ?_
    rintro ⟨absent, -⟩
    rw [found] at absent
    cases absent
  refine ⟨fun id row found => found, fun user row found => ?_, fun user absent => ⟨nothing user, absent⟩,
    fun id row absent found => ?_, solvent⟩
  · rw [nothing, balanceOf, found]
    exact (Int.sub_zero _).symm
  · rw [found] at absent
    cases absent

/-- A commit that leaves balances and purchases alone, and items up to their
counters and new ones. -/
theorem Balanced.congr (balanced : Balanced start db)
    (users : ∀ user, (db'.users.get? user).map UserRow.balanceCents =
      (db.users.get? user).map UserRow.balanceCents)
    (purchases : db'.purchases = db.purchases)
    (items : ∀ id item, db.flashSaleItems.get? id = some item →
      db'.flashSaleItems.get? id = some item) : Balanced start db' := by
  obtain ⟨kept, balance, absent, price, solvent⟩ := balanced
  have paid : ∀ user, paidSince start user db' = paidSince start user db := by
    intro user
    rw [paidSince, paidSince, purchases]
  -- A user after the commit was there with the same balance.
  have before : ∀ user row, db'.users.get? user = some row → ∃ old, db.users.get? user = some old ∧
      old.balanceCents = row.balanceCents := by
    intro user row found
    have same := users user
    rw [found] at same
    exact Option.map_eq_some_iff.mp same.symm
  refine ⟨?_, fun user row found => ?_, fun user none => ?_, fun id row new found => ?_,
    fun user row found => ?_⟩
  · rwa [purchases]
  · obtain ⟨old, there, same⟩ := before user row found
    rw [paid, ← same]
    exact balance user old there
  · have same := users user
    rw [none] at same
    rw [paid]
    exact absent user (Option.map_eq_none_iff.mp same.symm)
  · rw [purchases] at found
    obtain ⟨item, there, same⟩ := price id row new found
    exact ⟨item, items _ item there, same⟩
  · obtain ⟨old, there, same⟩ := before user row found
    rw [← same]
    exact solvent user old there

theorem Balanced.purchased (balanced : Balanced start db) {args : PurchaseArgs}
    {found : PurchaseFound} {result : PurchaseResult}
    (spec : PurchaseCommits args found result db db') : Balanced start db' := by
  -- The row of the purchase is new since `start`.
  have new : start.purchases.get? result.purchaseId = none := by
    cases before : start.purchases.get? result.purchaseId with
    | none => rfl
    | some row =>
      have there := balanced.kept _ row before
      rw [spec.fresh] at there
      cases there
  have paid : ∀ user, paidSince start user db' =
      paidSince start user db + if args.userId = user then found.item.priceCents else 0 := by
    intro user
    rw [spec.effect]
    simp only [paidSince, Table.sum_insert _ spec.fresh, new, true_and]
  have item_kept : ∀ id item, db.flashSaleItems.get? id = some item →
      ∃ item', db'.flashSaleItems.get? id = some item' ∧ item'.priceCents = item.priceCents := by
    intro id item there
    rw [spec.effect]
    by_cases same : args.saleItemId = id
    · subst same
      exact ⟨{ item with sold := item.sold + 1 }, by simp [Table.get?_modify, there], rfl⟩
    · exact ⟨item, (Table.get?_modify_ne same).trans there, rfl⟩
  have after : ∀ user row, db'.users.get? user = some row → ∃ old, db.users.get? user = some old ∧
      row.balanceCents = old.balanceCents - if args.userId = user then found.item.priceCents else 0 := by
    intro user row h
    rw [spec.effect] at h
    obtain ⟨old, there, ⟨rfl, rfl⟩ | ⟨ne, rfl⟩⟩ := Table.get?_modify_cases h
    · exact ⟨old, there, by rw [if_pos rfl]; rfl⟩
    · exact ⟨row, there, by rw [if_neg ne, Int.sub_zero]⟩
  refine ⟨fun id row h => ?_, fun user row h => ?_, fun user h => ?_, fun id row h h' => ?_,
    fun user row h => ?_⟩
  · rw [spec.effect]
    exact Table.get?_insert_of_some (balanced.kept id row h)
  · obtain ⟨old, there, debited⟩ := after user row h
    rw [debited, paid, balanced.balance user old there]
    omega
  · rw [spec.effect] at h
    have none := Table.get?_modify_eq_none.mp h
    have ne : args.userId ≠ user := by
      rintro rfl
      rw [spec.user] at none
      cases none
    rw [paid, if_neg ne, Int.add_zero]
    exact balanced.absent user none
  · rw [spec.effect] at h'
    rcases Table.get?_insert_cases h' with old | ⟨-, rfl⟩
    · obtain ⟨item, there, same⟩ := balanced.price id row h old
      obtain ⟨item', there', same'⟩ := item_kept _ item there
      exact ⟨item', there', same.trans same'.symm⟩
    · obtain ⟨item', there', same'⟩ := item_kept _ _ spec.item
      exact ⟨item', there', same'.symm⟩
  · obtain ⟨old, there, debited⟩ := after user row h
    rw [debited]
    have nonneg := balanced.solvent user old there
    split
    · rename_i same
      subst same
      have funds := spec.funds
      rw [Option.some.inj (spec.user.symm.trans there)] at funds
      omega
    · omega

theorem Balanced.registered (balanced : Balanced start db) {identifier : NormalizedIdentifier}
    {passwordHash : String} {otp : PreparedOtp} {found : OtpFound} {user : Uuid}
    (spec : RegisterCommits identifier passwordHash otp found user db db') : Balanced start db' := by
  obtain ⟨kept, balance, absent, price, solvent⟩ := balanced
  obtain ⟨unpaid, unknown⟩ := absent user spec.user_fresh
  rw [spec.effect]
  refine ⟨kept, fun user' row h => ?_, fun user' h => ?_, price, fun user' row h => ?_⟩
  · rcases Table.get?_insert_cases h with old | ⟨rfl, rfl⟩
    · exact balance user' row old
    · show 0 = balanceOf user start - paidSince start user db
      rw [unpaid, balanceOf, unknown]
      rfl
  · exact absent user' (Table.get?_insert_eq_none.mp h).1
  · rcases Table.get?_insert_cases h with old | ⟨-, rfl⟩
    · exact solvent user' row old
    · exact Int.le_refl 0

/-- Every commit keeps the balances in agreement with the purchases. A purchase takes its price
from one balance, and no other commit touches either. -/
theorem Balanced.step {commit : Commit} (balanced : Balanced start db)
    (happened : Atomic cfg db commit db') : Balanced start db' := by
  cases happened with
  | purchased found spec => exact balanced.purchased spec
  | created found spec =>
    rw [spec.effect]
    exact balanced.congr (fun _ => rfl) rfl fun id item there => Table.get?_insertAll_of_some there
  | registered found spec => exact balanced.registered spec
  | resent found spec =>
    rw [spec.effect]
    exact balanced.congr (fun _ => rfl) rfl fun _ _ there => there
  | account spec =>
    rw [spec.effect]
    refine balanced.congr (fun user => ?_) (by simp) fun _ _ there => by simpa using there
    rw [AccountChange.apply_users, Option.map_map]
    rfl
  | settled spec =>
    cases spec with
    | skipped _ => exact balanced
    | settled _ _ _ effect =>
      rw [effect]
      exact balanced.congr (fun _ => rfl) rfl fun _ _ there => there
  | otpSent found => exact balanced.congr (fun _ => rfl) rfl fun _ _ there => there
  | ticked spec =>
    rw [spec.effect]
    exact balanced.congr (fun _ => rfl) rfl fun _ _ there => there

end Balances

/-! ### Runs -/

section Runs

variable {cfg : Cfg} {start s : State} {trace : List (State × Label)}

/-- No oversell, an exact ledger and exact answers, counting the purchases of an
item from `k = 0`. -/
theorem Run.item_ledger (fresh : Fresh start) (tallied : Tallied start.server.db)
    (run : Run cfg start trace s) {item : Uuid} {row : ItemRow}
    (found : s.server.db.flashSaleItems.get? item = some row) :
    (0 ≤ row.sold ∧ row.sold ≤ row.quantity ∧ row.sold = purchasesOf item s.server.db) ∧
    (∀ (k : Nat) (result : PurchaseResult), (answers item (commits s.history))[k]? = some result →
      result.remainingAllocation = row.quantity - soldOf item start.server.db - (k + 1)) ∧
    ((answers item (commits s.history)).map PurchaseResult.remainingAllocation).Nodup ∧
    ∀ left, left ∈ (answers item (commits s.history)).map PurchaseResult.remainingAllocation ↔
      row.quantity - row.sold ≤ left ∧ left < row.quantity - soldOf item start.server.db := by
  have chain := run.commits_chain fresh
  have after : Tallied s.server.db ∧ AllAnswered start.server.db (commits s.history) s.server.db := by
    refine Chain.invariant (fun done db => Tallied db ∧ AllAnswered start.server.db done db)
      ⟨tallied, .init⟩ ?_ chain
    rintro done db commit db' ⟨tallied, told⟩ happened
    exact ⟨tallied.step happened, told.step happened⟩
  obtain ⟨tallied', told⟩ := after
  have answered := told.present item row found
  exact ⟨⟨tallied'.sold_nonneg item row found, tallied'.sold_le item row found,
    tallied'.sold_rows item row found⟩, fun k result => answered.get, answered.nodup,
    answered.mem_iff⟩

theorem shop_item {id : Uuid} {row : ItemRow} (found : shopDb.flashSaleItems.get? id = some row) :
    id = 4 ∧ row = ⟨3, 2, 5, 0, 100⟩ := by
  rcases Table.get?_insert_cases found with old | ⟨rfl, rfl⟩
  · cases old
  · exact ⟨rfl, rfl⟩

theorem shop_tallied : Tallied shopDb := by
  refine ⟨fun id row found => ?_, fun id row found => ?_, fun id row found => ?_,
    fun id row found => by cases found⟩ <;> obtain ⟨rfl, rfl⟩ := shop_item found <;> decide

/-- User 1 sends two requests at once: one buys, the other waits for the item and
dies there. -/
def buying : List Label :=
  [.purchase 0 ⟨1, some (uuidText '1'), some 4⟩, .purchase 1 ⟨1, some (uuidText '2'), some 4⟩] ++
    Label.clientSteps 0 5 7 ++ Label.clientSteps 1 4 8 ++ Label.clientSteps 0 7 7 ++ [.clientCrash 1]

theorem buying_runs : (Lib.execute (step plainCfg) shop buying).isSome = true := by decide +kernel

theorem item_ledger_buying :
    ∃ s, Run plainCfg shop (Lib.traceOf (step plainCfg) shop buying) s ∧
      s.server.db.flashSaleItems.get? 4 = some ⟨3, 2, 5, 1, 100⟩ ∧
      (1 : Int) = purchasesOf 4 s.server.db ∧
      ∀ left, left ∈ (answers 4 (commits s.history)).map PurchaseResult.remainingAllocation ↔
        5 - 1 ≤ left ∧ left < 5 - soldOf 4 shopDb := by
  have run := Lib.Run.of_isSome buying_runs
  have found : ((Lib.execute (step plainCfg) shop buying).get
      buying_runs).server.db.flashSaleItems.get? 4 = some ⟨3, 2, 5, 1, 100⟩ := by decide +kernel
  have ledger := Run.item_ledger (State.initial_fresh _ _ _) shop_tallied run found
  exact ⟨_, run, found, ledger.1.2.2, ledger.2.2.2⟩

/-- The debit of a purchase, whenever it runs, does not violate the CHECK. -/
theorem Coherent.debit (coherent : Coherent cfg s) {n : Nat} {request : PurchaseRequest}
    {key : Text} {args : PurchaseArgs} {started : Int} {user : Uuid} {price : Int}
    {onError : DbError → Failure} {next : Unit → Program PurchaseResult}
    (at_ : s.clients n = .tx (.purchase request key args) started
      (.exec (.updateBalance user price) onError next))
    {choice : Choice} {e : DbError} {server : Server}
    (ran : s.server.statement (.client n) (plan (.updateBalance user price)
      (s.env (.client n) started choice) (s.server.view (.client n))) = some (.error e, server)) :
    e ≠ .check := by
  have safe := coherent.clients n
  rw [at_] at safe
  rcases Lib.Server.statement_cases ran with ⟨e', got, eq, -⟩ | ⟨_, _, _, eq, -⟩
  · cases eq
    exact Lib.SafeAt.errors safe trivial got
  · cases eq

/-- Balances agree with purchases, prices with items, no balance is negative, and
the debit never violates its CHECK. -/
theorem Run.balance_ledger (fresh : Fresh start) (solvent : Solvent start.server.db)
    (run : Run cfg start trace s) :
    (∀ user row, s.server.db.users.get? user = some row →
      row.balanceCents =
        balanceOf user start.server.db - paidSince start.server.db user s.server.db) ∧
    (∀ id row, start.server.db.purchases.get? id = none →
      s.server.db.purchases.get? id = some row →
      ∃ item, s.server.db.flashSaleItems.get? row.flashSaleItemId = some item ∧
        row.priceCents = item.priceCents) ∧
    (∀ user row, s.server.db.users.get? user = some row → 0 ≤ row.balanceCents) ∧
    ∀ n request key args started user price onError next choice e server,
      s.clients n = .tx (.purchase request key args) started
        (.exec (.updateBalance user price) onError next) →
      s.server.statement (.client n) (plan (.updateBalance user price)
        (s.env (.client n) started choice) (s.server.view (.client n))) = some (.error e, server) →
      e ≠ .check := by
  have balanced : Balanced start.server.db s.server.db :=
    Chain.invariant (fun _ db => Balanced start.server.db db) (.init solvent)
      (fun _ _ _ _ balanced happened => balanced.step happened) (run.commits_chain fresh)
  exact ⟨balanced.balance, balanced.price, balanced.solvent,
    fun _ _ _ _ _ _ _ _ _ _ _ _ at_ ran => (run.coherent fresh).debit at_ ran⟩

theorem balance_ledger_buying :
    ∃ s, Run plainCfg shop (Lib.traceOf (step plainCfg) shop buying) s ∧
      s.server.db.users.get? 1 = some ⟨some mail, none, memberHash, .active, 400⟩ ∧
      (400 : Int) = balanceOf 1 shopDb - paidSince shopDb 1 s.server.db := by
  have run := Lib.Run.of_isSome buying_runs
  have solvent : Solvent shopDb := by
    intro user row found
    rcases Table.get?_insert_cases found with old | ⟨-, rfl⟩
    · cases old
    · decide
  have found : ((Lib.execute (step plainCfg) shop buying).get
      buying_runs).server.db.users.get? 1 = some ⟨some mail, none, memberHash, .active, 400⟩ := by
    decide +kernel
  have ledger := Run.balance_ledger (State.initial_fresh _ _ _) solvent run
  exact ⟨_, run, found, ledger.1 1 _ found⟩

end Runs

end FlashSale
