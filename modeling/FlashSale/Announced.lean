/-
# Events and the rows they announce

Every code, purchase and sale is announced by its own outbox rows, and every
outbox row announces a row that is there.

The event of a row is inserted by the transaction that inserts the row, so that both are
there or neither is. `Subject` is what an event speaks of; the invariant says that
subjects and events correspond, and that no event is changed but by the worker, which
keeps its kind and its subject.

* `Announced.step`: every commit keeps this, also while workers change the rows
  of the outbox.
* `Run.outbox_complete`: the rows in full for runs of the producers alone.
-/
import FlashSale.Coherence

namespace FlashSale

open Lib (Table Chain)

/-! ### Subjects -/

/-- What an event is about. A sale has two events, so they are different subjects. -/
inductive Subject where
  | otp (id : Uuid)
  | purchase (id : Uuid)
  | created (sale : Uuid)
  | settle (sale : Uuid)
deriving DecidableEq

def OutboxEvent.subject : OutboxEvent → Option Subject
  | .otpSend _ otpId _ _ => some (.otp otpId)
  | .purchaseCompleted purchaseId _ _ => some (.purchase purchaseId)
  | .flashSaleCreated saleId _ => some (.created saleId)
  | .flashSaleSettle saleId => some (.settle saleId)
  | .other _ => none

/-- The row that an event is about is there. -/
def Db.Has (db : Db) : Subject → Prop
  | .otp id => db.otpCodes.get? id ≠ none
  | .purchase id => db.purchases.get? id ≠ none
  | .created id => db.flashSales.get? id ≠ none
  | .settle id => db.flashSales.get? id ≠ none

/-- The identifier of a user on a channel. -/
def UserRow.identifier (user : UserRow) : OtpChannel → Option CodeUnits
  | .email => user.email
  | .phone => user.phone

/-- What an outbox row says is so: its payload, its key, and the time at which a
settlement is due until its first failure. -/
def OutboxEvent.Describes (db : Db) (row : OutboxRow) : OutboxEvent → Prop
  | .otpSend userId otpId channel identifier =>
    row.idempotencyKey = some otpId ∧
    (∃ otp, db.otpCodes.get? otpId = some otp ∧ otp.userId = userId ∧ otp.channel = channel) ∧
    ∃ user, db.users.get? userId = some user ∧ user.identifier channel = some identifier
  | .purchaseCompleted purchaseId userId saleItemId =>
    ∃ purchase, db.purchases.get? purchaseId = some purchase ∧ purchase.userId = userId ∧
      purchase.flashSaleItemId = saleItemId ∧ row.idempotencyKey = some purchase.idempotencyKey
  | .flashSaleCreated saleId items =>
    row.idempotencyKey = some saleId ∧ db.flashSales.get? saleId ≠ none ∧ items.Nodup ∧
    ∀ id, id ∈ items ↔ ∃ item, db.flashSaleItems.get? id = some item ∧ item.flashSaleId = saleId
  | .flashSaleSettle saleId =>
    ∃ sale, db.flashSales.get? saleId = some sale ∧ (row.attempts = 0 → row.visibleAt = sale.endsAt)
  | .other _ => True

/-- Every row has its events, none of them twice, and every event has its row. An event also
says of its row what is stored there. -/
structure Announced (db : Db) : Prop where
  announced : ∀ subject, db.Has subject →
    ∃ id row, db.outbox.get? id = some row ∧ row.event.subject = some subject
  once : ∀ id id' row row' subject, db.outbox.get? id = some row → db.outbox.get? id' = some row' →
    row.event.subject = some subject → row'.event.subject = some subject → id = id'
  describes : ∀ id row, db.outbox.get? id = some row → row.event.Describes db row
  -- Items belong to sales that are there.
  item_sale : ∀ id item, db.flashSaleItems.get? id = some item →
    db.flashSales.get? item.flashSaleId ≠ none

theorem OutboxEvent.Describes.has {db : Db} {row : OutboxRow} {event : OutboxEvent}
    (describes : event.Describes db row) {subject : Subject} (about : event.subject = some subject) :
    db.Has subject := by
  cases event with
  | otpSend userId otpId channel identifier =>
    cases about
    obtain ⟨-, ⟨otp, found, -⟩, -⟩ := describes
    exact Option.ne_none_iff_exists'.mpr ⟨otp, found⟩
  | purchaseCompleted purchaseId userId saleItemId =>
    cases about
    obtain ⟨purchase, found, -⟩ := describes
    exact Option.ne_none_iff_exists'.mpr ⟨purchase, found⟩
  | flashSaleCreated saleId items =>
    cases about
    exact describes.2.1
  | flashSaleSettle saleId =>
    cases about
    obtain ⟨sale, found, -⟩ := describes
    exact Option.ne_none_iff_exists'.mpr ⟨sale, found⟩
  | other type => cases about

/-! ### Growth of the database -/

/-- Rows stay, up to what no event speaks of, and a sale keeps its items. -/
structure Grows (db db' : Db) : Prop where
  users : ∀ id user, db.users.get? id = some user →
    ∃ user', db'.users.get? id = some user' ∧ user'.email = user.email ∧ user'.phone = user.phone
  otps : ∀ id otp, db.otpCodes.get? id = some otp →
    ∃ otp', db'.otpCodes.get? id = some otp' ∧ otp'.userId = otp.userId ∧ otp'.channel = otp.channel
  purchases : ∀ id purchase, db.purchases.get? id = some purchase →
    db'.purchases.get? id = some purchase
  sales : ∀ id sale, db.flashSales.get? id = some sale →
    ∃ sale', db'.flashSales.get? id = some sale' ∧ sale'.endsAt = sale.endsAt
  items : ∀ saleId, db.flashSales.get? saleId ≠ none → ∀ id,
    (∃ item, db'.flashSaleItems.get? id = some item ∧ item.flashSaleId = saleId) ↔
      ∃ item, db.flashSaleItems.get? id = some item ∧ item.flashSaleId = saleId

theorem OutboxEvent.Describes.grows {db db' : Db} {row : OutboxRow} {event : OutboxEvent}
    (describes : event.Describes db row) (grows : Grows db db') : event.Describes db' row := by
  cases event with
  | otpSend userId otpId channel identifier =>
    obtain ⟨key, ⟨otp, found, user, chan⟩, owner, there, named⟩ := describes
    obtain ⟨otp', found', user', chan'⟩ := grows.otps otpId otp found
    obtain ⟨owner', there', email, phone⟩ := grows.users userId owner there
    refine ⟨key, ⟨otp', found', user'.trans user, chan'.trans chan⟩, owner', there', ?_⟩
    cases channel
    · exact email.trans named
    · exact phone.trans named
  | purchaseCompleted purchaseId userId saleItemId =>
    obtain ⟨purchase, found, rest⟩ := describes
    exact ⟨purchase, grows.purchases purchaseId purchase found, rest⟩
  | flashSaleCreated saleId items =>
    obtain ⟨key, there, nodup, listed⟩ := describes
    obtain ⟨sale, found⟩ := Option.ne_none_iff_exists'.mp there
    obtain ⟨sale', found', -⟩ := grows.sales saleId sale found
    refine ⟨key, Option.ne_none_iff_exists'.mpr ⟨sale', found'⟩, nodup, fun id => ?_⟩
    exact (listed id).trans (grows.items saleId there id).symm
  | flashSaleSettle saleId =>
    obtain ⟨sale, found, due⟩ := describes
    obtain ⟨sale', found', ends⟩ := grows.sales saleId sale found
    exact ⟨sale', found', fun first => (due first).trans ends.symm⟩
  | other type => trivial

/-- A delivery that is recorded leaves true what the event says. -/
theorem OutboxEvent.Describes.change {cfg : Cfg} {db : Db} {row : OutboxRow} {event : OutboxEvent}
    (describes : event.Describes db row) (line : Line) (claimed : line.claimed.row = row) :
    event.Describes db ((line.change cfg).apply row) := by
  have key := OutboxChange.apply_key (line.change cfg) row
  cases event with
  | otpSend userId otpId channel identifier => exact ⟨key.trans describes.1, describes.2⟩
  | purchaseCompleted purchaseId userId saleItemId =>
    obtain ⟨purchase, found, user, item, named⟩ := describes
    exact ⟨purchase, found, user, item, key.trans named⟩
  | flashSaleCreated saleId items => exact ⟨key.trans describes.1, describes.2⟩
  | flashSaleSettle saleId =>
    obtain ⟨sale, found, due⟩ := describes
    refine ⟨sale, found, fun first => ?_⟩
    subst claimed
    unfold Line.change at first ⊢
    cases result : line.result with
    | ok _ =>
      rw [result] at first
      exact due first
    | error message =>
      rw [result] at first
      dsimp only at first
      split at first <;> cases first
  | other type => trivial

/-! ### Commits -/

section Commits

variable {cfg : Cfg} {db db' : Db}

theorem Grows.refl (db : Db) : Grows db db :=
  ⟨fun _ user found => ⟨user, found, rfl, rfl⟩, fun _ otp found => ⟨otp, found, rfl, rfl⟩,
    fun _ _ found => found, fun _ sale found => ⟨sale, found, rfl⟩, fun _ _ _ => Iff.rfl⟩

theorem PurchaseCommits.grows {args : PurchaseArgs} {found : PurchaseFound} {result : PurchaseResult}
    (spec : PurchaseCommits args found result db db') : Grows db db' := by
  obtain ⟨users, otps, purchases, sales, items⟩ := Grows.refl db
  rw [spec.effect]
  refine ⟨fun id user there => ?_, otps, fun id row there => Table.get?_insert_of_some there, sales,
    fun saleId _ id => ?_⟩
  · exact ⟨_, Table.get?_modify_of_some there, by split <;> rfl, by split <;> rfl⟩
  · by_cases same : args.saleItemId = id
    · subst same
      rw [Table.get?_modify_self, spec.item]
      simp
    · rw [Table.get?_modify_ne same]

theorem CreateCommits.grows {input : CreateSaleInput} {found : CreateFound} {result : CreatedSale}
    (spec : CreateCommits input found result db db') : Grows db db' := by
  obtain ⟨users, otps, purchases, sales, items⟩ := Grows.refl db
  rw [spec.effect]
  refine ⟨users, otps, purchases, fun id sale there => ⟨sale, Table.get?_insert_of_some there, rfl⟩,
    fun saleId there id => ?_⟩
  constructor
  · rintro ⟨item, after, ofSale⟩
    rcases Table.get?_insertAll_cases after with before | new
    · exact ⟨item, before, ofSale⟩
    · obtain ⟨line, _, eq⟩ := List.mem_map.mp new
      cases eq
      exact absurd (ofSale ▸ spec.sale_fresh) there
  · rintro ⟨item, before, ofSale⟩
    exact ⟨item, Table.get?_insertAll_of_some before, ofSale⟩

theorem RegisterCommits.grows {identifier : NormalizedIdentifier} {passwordHash : String}
    {otp : PreparedOtp} {found : OtpFound} {user : Uuid}
    (spec : RegisterCommits identifier passwordHash otp found user db db') : Grows db db' := by
  obtain ⟨users, otps, purchases, sales, items⟩ := Grows.refl db
  rw [spec.effect]
  exact ⟨fun id user there => ⟨user, Table.get?_insert_of_some there, rfl, rfl⟩,
    fun id otp there => ⟨otp, Table.get?_insert_of_some there, rfl, rfl⟩, purchases, sales, items⟩

theorem ResendCommits.grows {user : Uuid} {identifier : NormalizedIdentifier} {otp : PreparedOtp}
    {found : OtpFound} (spec : ResendCommits user identifier otp found db db') : Grows db db' := by
  obtain ⟨users, otps, purchases, sales, items⟩ := Grows.refl db
  rw [spec.effect]
  exact ⟨users, fun id otp there => ⟨otp, Table.get?_insert_of_some there, rfl, rfl⟩, purchases,
    sales, items⟩

theorem SettleCommits.grows {saleId : Uuid} {started : Int} {existed : Prop}
    {result : Option (List Unsold)} (spec : SettleCommits saleId started existed result db db') :
    Grows db db' := by
  obtain ⟨users, otps, purchases, sales, items⟩ := Grows.refl db
  cases spec with
  | skipped _ => exact ⟨users, otps, purchases, sales, items⟩
  | settled _ _ _ effect =>
    rw [effect]
    refine ⟨users, otps, purchases, fun id sale there => ?_, items⟩
    exact ⟨_, Table.get?_modify_of_some there, by split <;> rfl⟩

theorem AccountCommits.grows {change : AccountChange} (spec : AccountCommits change db db') :
    Grows db db' := by
  have sales := (Grows.refl db).sales
  rw [spec.effect]
  refine ⟨fun id user there => ?_, fun id otp there => ?_, by simp, by simpa using sales, by simp⟩
  · rw [AccountChange.apply_users, there]
    exact ⟨_, rfl, rfl, rfl⟩
  · rw [AccountChange.apply_otpCodes, there]
    exact ⟨_, rfl, rfl, rfl⟩

theorem Grows.sent (otpId : Uuid) : Grows db { db with
    otpCodes := db.otpCodes.modify otpId fun o => { o with sent := true } } := by
  obtain ⟨users, otps, purchases, sales, items⟩ := Grows.refl db
  refine ⟨users, fun id otp there => ?_, purchases, sales, items⟩
  exact ⟨_, Table.get?_modify_of_some there, by split <;> rfl, by split <;> rfl⟩

/-- New outbox rows that announce exactly the new rows. A commit of a producer inserts the two
together, and their subjects have not been seen before. -/
structure Announces (db db' : Db) (news : List (Nat × OutboxRow)) : Prop where
  outbox : db'.outbox = db.outbox.insertAll news
  nodup : (news.map Prod.fst).Nodup
  fresh : ∀ new ∈ news, db.outbox.get? new.1 = none
  describes : ∀ new ∈ news, new.2.event.Describes db' new.2
  unseen : ∀ new ∈ news, ∀ subject, new.2.event.subject = some subject → ¬ db.Has subject
  distinct : ∀ new ∈ news, ∀ new' ∈ news, ∀ subject, new.2.event.subject = some subject →
    new'.2.event.subject = some subject → new.1 = new'.1
  complete : ∀ subject, db'.Has subject → db.Has subject ∨
    ∃ new ∈ news, new.2.event.subject = some subject
  item_sale : ∀ id item, db'.flashSaleItems.get? id = some item →
    db'.flashSales.get? item.flashSaleId ≠ none

theorem Announced.append (announced : Announced db) (grows : Grows db db')
    {news : List (Nat × OutboxRow)} (more : Announces db db' news) : Announced db' := by
  have cases_of : ∀ id row, db'.outbox.get? id = some row →
      db.outbox.get? id = some row ∨ (id, row) ∈ news := by
    intro id row found
    rw [more.outbox] at found
    exact Table.get?_insertAll_cases found
  -- An old and a new row are about different things.
  have apart : ∀ {id id' row row' subject}, db.outbox.get? id = some row → (id', row') ∈ news →
      row.event.subject = some subject → row'.event.subject = some subject → False := by
    intro id id' row row' subject old new about about'
    exact more.unseen _ new subject about' ((announced.describes id row old).has about)
  refine ⟨fun subject has => ?_, fun id id' row row' subject found found' about about' => ?_,
    fun id row found => ?_, more.item_sale⟩
  · rw [more.outbox]
    rcases more.complete subject has with old | ⟨new, mem, about⟩
    · obtain ⟨id, row, found, about⟩ := announced.announced subject old
      exact ⟨id, row, Table.get?_insertAll_of_some found, about⟩
    · exact ⟨new.1, new.2, Table.get?_insertAll_of_mem more.nodup more.fresh mem, about⟩
  · rcases cases_of id row found with old | new <;> rcases cases_of id' row' found' with old' | new'
    · exact announced.once id id' row row' subject old old' about about'
    · exact (apart old new' about about').elim
    · exact (apart old' new about' about).elim
    · exact more.distinct _ new _ new' subject about about'
  · rcases cases_of id row found with old | new
    · exact (announced.describes id row old).grows grows
    · exact more.describes _ new

/-- A commit that announces nothing new. -/
theorem Announced.quiet (announced : Announced db) (grows : Grows db db')
    (outbox : db'.outbox = db.outbox) (has : ∀ subject, db'.Has subject → db.Has subject)
    (items : db'.flashSaleItems = db.flashSaleItems) : Announced db' := by
  have more : Announces db db' [] := by
    refine ⟨outbox, List.nodup_nil, by simp, by simp, by simp, by simp,
      fun subject there => Or.inl (has subject there), fun id item found => ?_⟩
    rw [items] at found
    obtain ⟨sale, there⟩ := Option.ne_none_iff_exists'.mp (announced.item_sale id item found)
    obtain ⟨sale', there', -⟩ := grows.sales _ sale there
    exact Option.ne_none_iff_exists'.mpr ⟨sale', there'⟩
  exact announced.append grows more

/-- A commit that announces one new row. -/
theorem Announces.one {id : Nat} {row : OutboxRow} {subject : Subject}
    (outbox : db'.outbox = db.outbox.insert id row) (fresh : db.outbox.get? id = none)
    (describes : row.event.Describes db' row) (about : row.event.subject = some subject)
    (unseen : ¬ db.Has subject)
    (complete : ∀ subject', db'.Has subject' → db.Has subject' ∨ subject = subject')
    (item_sale : ∀ id item, db'.flashSaleItems.get? id = some item →
      db'.flashSales.get? item.flashSaleId ≠ none) : Announces db db' [(id, row)] := by
  refine ⟨outbox, by simp, by simpa using fresh, by simpa using describes, ?_, by simp, ?_, item_sale⟩
  · simp only [List.mem_singleton, forall_eq, about, Option.some.injEq]
    rintro _ rfl
    exact unseen
  · intro subject' there
    rcases complete subject' there with old | rfl
    · exact Or.inl old
    · exact Or.inr ⟨_, List.mem_singleton.mpr rfl, about⟩

/-- A commit that announces two new rows. -/
theorem Announces.two {id id' : Nat} {row row' : OutboxRow} {subject subject' : Subject}
    (outbox : db'.outbox = (db.outbox.insert id row).insert id' row') (ne : id ≠ id')
    (fresh : db.outbox.get? id = none) (fresh' : db.outbox.get? id' = none)
    (describes : row.event.Describes db' row) (describes' : row'.event.Describes db' row')
    (about : row.event.subject = some subject) (about' : row'.event.subject = some subject')
    (apart : subject ≠ subject') (unseen : ¬ db.Has subject) (unseen' : ¬ db.Has subject')
    (complete : ∀ other, db'.Has other → db.Has other ∨ subject = other ∨ subject' = other)
    (item_sale : ∀ id item, db'.flashSaleItems.get? id = some item →
      db'.flashSales.get? item.flashSaleId ≠ none) :
    Announces db db' [(id, row), (id', row')] := by
  refine ⟨outbox, by simpa using ne, by simp [fresh, fresh'], by simp [describes, describes'],
    by simp [about, about', unseen, unseen'], ?_, fun other there => ?_, item_sale⟩
  · simp only [List.mem_cons, List.not_mem_nil, or_false, forall_eq_or_imp, forall_eq, about, about',
      Option.some.injEq, implies_true, true_and, and_true]
    constructor
    · rintro _ rfl same
      exact absurd same.symm apart
    · rintro _ rfl same
      exact absurd same apart
  · rcases complete other there with old | rfl | rfl
    · exact Or.inl old
    · exact Or.inr ⟨_, List.mem_cons_self, about⟩
    · exact Or.inr ⟨_, List.mem_cons_of_mem _ List.mem_cons_self, about'⟩

theorem Announced.purchased (announced : Announced db) {args : PurchaseArgs} {found : PurchaseFound}
    {result : PurchaseResult} (spec : PurchaseCommits args found result db db') : Announced db' := by
  have grows := spec.grows
  have items : ∀ id item, db'.flashSaleItems.get? id = some item → ∃ item',
      db.flashSaleItems.get? id = some item' ∧ item'.flashSaleId = item.flashSaleId := by
    intro id item h
    rw [spec.effect] at h
    obtain ⟨old, there, ⟨-, rfl⟩ | ⟨-, rfl⟩⟩ := Table.get?_modify_cases h
    · exact ⟨old, there, rfl⟩
    · exact ⟨item, there, rfl⟩
  refine announced.append grows (.one (by rw [spec.effect]) spec.outbox_fresh ?_ rfl ?_ ?_ ?_)
  · refine ⟨⟨args.userId, args.saleItemId, args.day, found.item.priceCents, args.idempotencyKey,
      found.createdAt⟩, ?_, rfl, rfl, rfl⟩
    rw [spec.effect]
    exact Table.get?_insert_self spec.fresh
  · exact fun has => has spec.fresh
  · intro subject has
    rw [spec.effect] at has
    cases subject with
    | purchase id =>
      rcases Table.get?_insert_ne_none.mp has with old | rfl
      · exact Or.inl old
      · exact Or.inr rfl
    | _ => exact Or.inl has
  · intro id item h
    obtain ⟨item', there, same⟩ := items id item h
    rw [spec.effect, ← same]
    exact announced.item_sale id item' there

/-- A code that is issued. -/
theorem Announced.issued (announced : Announced db) (grows : Grows db db') {user : Uuid}
    {identifier : NormalizedIdentifier} {otp : PreparedOtp} {found : OtpFound}
    (otp_fresh : db.otpCodes.get? found.otp = none)
    (outbox_fresh : db.outbox.get? found.outboxId = none)
    (otps : db'.otpCodes = db.otpCodes.insert found.otp (otpRow user identifier otp found.createdAt))
    (outbox : db'.outbox = db.outbox.insert found.outboxId (otpEvent user identifier found))
    (purchases : db'.purchases = db.purchases) (sales : db'.flashSales = db.flashSales)
    (items : db'.flashSaleItems = db.flashSaleItems)
    (owner : ∃ row, db'.users.get? user = some row ∧
      row.identifier identifier.channel = some identifier.normalized) : Announced db' := by
  refine announced.append grows (.one outbox outbox_fresh ?_ rfl ?_ ?_ ?_)
  · refine ⟨rfl, ⟨otpRow user identifier otp found.createdAt, ?_, rfl, rfl⟩, owner⟩
    rw [otps]
    exact Table.get?_insert_self otp_fresh
  · exact fun has => has otp_fresh
  · intro subject has
    cases subject with
    | otp id =>
      rw [Db.Has, otps] at has
      rcases Table.get?_insert_ne_none.mp has with old | rfl
      · exact Or.inl old
      · exact Or.inr rfl
    | purchase id => rw [Db.Has, purchases] at has; exact Or.inl has
    | created id => rw [Db.Has, sales] at has; exact Or.inl has
    | settle id => rw [Db.Has, sales] at has; exact Or.inl has
  · rw [items, sales]
    exact announced.item_sale

theorem Announced.registered (announced : Announced db) {identifier : NormalizedIdentifier}
    {passwordHash : String} {otp : PreparedOtp} {found : OtpFound} {user : Uuid}
    (spec : RegisterCommits identifier passwordHash otp found user db db') : Announced db' := by
  have grows := spec.grows
  obtain ⟨user_fresh, otp_fresh, outbox_fresh, effect⟩ := spec
  subst effect
  refine announced.issued grows otp_fresh outbox_fresh rfl rfl rfl rfl rfl
    ⟨_, Table.get?_insert_self user_fresh, ?_⟩
  obtain ⟨kind, normalized⟩ := identifier
  cases kind <;> rfl

theorem Announced.resent (announced : Announced db) {user : Uuid}
    {identifier : NormalizedIdentifier} {otp : PreparedOtp} {found : OtpFound}
    (spec : ResendCommits user identifier otp found db db') : Announced db' := by
  have grows := spec.grows
  obtain ⟨⟨row, there, names⟩, otp_fresh, outbox_fresh, effect⟩ := spec
  subst effect
  refine announced.issued grows otp_fresh outbox_fresh rfl rfl rfl rfl rfl ⟨row, there, ?_⟩
  obtain ⟨kind, normalized⟩ := identifier
  cases kind
  · exact of_decide_eq_true names
  · exact of_decide_eq_true names

/-- The items of the new sale are those that were inserted with it. -/
theorem CreateCommits.listed {input : CreateSaleInput} {found : CreateFound} {result : CreatedSale}
    (spec : CreateCommits input found result db db')
    (item_sale : ∀ id item, db.flashSaleItems.get? id = some item →
      db.flashSales.get? item.flashSaleId ≠ none) (id : Uuid) :
    id ∈ result.items ↔
      ∃ item, db'.flashSaleItems.get? id = some item ∧ item.flashSaleId = result.sale := by
  have ids : (itemRows result.sale found.lines).map Prod.fst = result.items := by
    rw [← spec.lines_ids, itemRows, List.map_map]
    rfl
  have rows_fresh : ∀ row ∈ itemRows result.sale found.lines,
      db.flashSaleItems.get? row.1 = none := by
    intro row mem
    refine spec.items_fresh row.1 ?_
    rw [← ids]
    exact List.mem_map_of_mem mem
  rw [spec.effect]
  constructor
  · intro mem
    rw [← ids] at mem
    obtain ⟨⟨id', row⟩, inside, rfl⟩ := List.mem_map.mp mem
    refine ⟨row, Table.get?_insertAll_of_mem (ids ▸ spec.items_nodup) rows_fresh inside, ?_⟩
    obtain ⟨line, _, eq⟩ := List.mem_map.mp inside
    cases eq
    rfl
  · rintro ⟨item, there, ofSale⟩
    rcases Table.get?_insertAll_cases there with old | new
    · exact absurd (ofSale ▸ spec.sale_fresh) (item_sale id item old)
    · rw [← ids]
      exact List.mem_map_of_mem new

theorem Announced.created (announced : Announced db) {input : CreateSaleInput} {found : CreateFound}
    {result : CreatedSale} (spec : CreateCommits input found result db db') : Announced db' := by
  have sales : db'.flashSales =
      db.flashSales.insert result.sale ⟨input.name, input.startsAt, input.endsAt, none⟩ := by
    rw [spec.effect]
  have sale_there : db'.flashSales.get? result.sale =
      some ⟨input.name, input.startsAt, input.endsAt, none⟩ := by
    rw [sales]
    exact Table.get?_insert_self spec.sale_fresh
  have split : ∀ id, db'.flashSales.get? id ≠ none →
      db.flashSales.get? id ≠ none ∨ result.sale = id := by
    intro id has
    rw [sales] at has
    exact Table.get?_insert_ne_none.mp has
  have outbox := congrArg Db.outbox spec.effect
  refine announced.append spec.grows (.two outbox spec.outbox_ne spec.created_fresh
    spec.settle_fresh ?_ ?_ rfl rfl ?_ ?_ ?_ ?_ ?_)
  · refine ⟨rfl, ?_, spec.items_nodup, spec.listed announced.item_sale⟩
    rw [sale_there]
    exact Option.some_ne_none _
  · exact ⟨_, sale_there, fun _ => rfl⟩
  · simp
  · exact fun has => has spec.sale_fresh
  · exact fun has => has spec.sale_fresh
  · intro subject has
    cases subject with
    | created id =>
      rcases split id has with old | rfl
      · exact Or.inl old
      · exact Or.inr (Or.inl rfl)
    | settle id =>
      rcases split id has with old | rfl
      · exact Or.inl old
      · exact Or.inr (Or.inr rfl)
    | otp id =>
      rw [spec.effect] at has
      exact Or.inl has
    | purchase id =>
      rw [spec.effect] at has
      exact Or.inl has
  · intro id item h
    have items : db'.flashSaleItems =
        db.flashSaleItems.insertAll (itemRows result.sale found.lines) := by rw [spec.effect]
    rw [items] at h
    rw [sales]
    refine Table.get?_insert_ne_none.mpr ?_
    rcases Table.get?_insertAll_cases h with old | new
    · exact Or.inl (announced.item_sale id item old)
    · obtain ⟨line, _, eq⟩ := List.mem_map.mp new
      cases eq
      exact Or.inr rfl

theorem Announced.ticked (announced : Announced db) {lines : List Line}
    (spec : TickCommits cfg lines db db') : Announced db' := by
  have rows : ∀ id row, db'.outbox.get? id = some row → ∃ old, db.outbox.get? id = some old ∧
      row.event = old.event ∧ (old.event.Describes db old → row.event.Describes db row) := by
    intro id row found
    rcases spec.row_cases found with ⟨line, -, -, there, rfl⟩ | ⟨there, -⟩
    · refine ⟨_, there, OutboxChange.apply_event _ _, fun describes => ?_⟩
      rw [OutboxChange.apply_event]
      exact describes.change line rfl
    · exact ⟨row, there, rfl, fun describes => describes⟩
  have others : db' = { db with outbox := db'.outbox } := by
    rw [spec.effect]
  refine ⟨fun subject has => ?_, fun id id' row row' subject found found' about about' => ?_,
    fun id row found => ?_, ?_⟩
  · rw [others] at has
    obtain ⟨id, row, found, about⟩ := announced.announced subject (by cases subject <;> exact has)
    obtain ⟨row', found', same⟩ := spec.row_kept found
    exact ⟨id, row', found', by rw [same]; exact about⟩
  · obtain ⟨old, there, same, -⟩ := rows id row found
    obtain ⟨old', there', same', -⟩ := rows id' row' found'
    rw [same] at about
    rw [same'] at about'
    exact announced.once id id' old old' subject there there' about about'
  · obtain ⟨old, there, -, describes⟩ := rows id row found
    have now := describes (announced.describes id old there)
    rw [others]
    cases event : row.event <;> rw [event] at now <;> exact now
  · rw [others]
    exact announced.item_sale

/-- Every commit keeps events and rows together. A producer appends what it inserts, and what
others change leaves both sides as they are. -/
theorem Announced.step {commit : Commit} (announced : Announced db)
    (happened : Atomic cfg db commit db') : Announced db' := by
  cases happened with
  | purchased found spec => exact announced.purchased spec
  | created found spec => exact announced.created spec
  | registered found spec => exact announced.registered spec
  | resent found spec => exact announced.resent spec
  | account spec =>
    have grows := spec.grows
    obtain ⟨-, effect⟩ := spec
    subst effect
    refine announced.quiet grows (by simp) (fun subject has => ?_) (by simp)
    cases subject with
    | otp id =>
      intro none
      rw [Db.Has, AccountChange.apply_otpCodes, none] at has
      exact has rfl
    | _ => simpa [Db.Has] using has
  | ticked spec => exact announced.ticked spec
  | settled spec =>
    have grows := spec.grows
    cases spec with
    | skipped _ => exact announced
    | settled _ _ _ effect =>
      subst effect
      refine announced.quiet grows rfl (fun subject has => ?_) rfl
      cases subject with
      | created id => exact fun none => has (Table.get?_modify_eq_none.mpr none)
      | settle id => exact fun none => has (Table.get?_modify_eq_none.mpr none)
      | _ => exact has
  | otpSent found =>
    refine announced.quiet (.sent _) rfl (fun subject has => ?_) rfl
    cases subject with
    | otp id => exact fun none => has (Table.get?_modify_eq_none.mpr none)
    | _ => exact has

end Commits

/-! ### Runs of the producers -/

/-- A database without anything to announce. -/
structure NoEvents (db : Db) : Prop where
  otps : ∀ id, db.otpCodes.get? id = none
  purchases : ∀ id, db.purchases.get? id = none
  sales : ∀ id, db.flashSales.get? id = none
  items : ∀ id, db.flashSaleItems.get? id = none
  outbox : ∀ id, db.outbox.get? id = none

/-- There is one event about a subject, and it is as stated. No second event is about it,
whatever it says. -/
def ExactlyOne (db : Db) (subject : Subject) (P : OutboxRow → Prop) : Prop :=
  ∃ id row, db.outbox.get? id = some row ∧ row.event.subject = some subject ∧ P row ∧
    ∀ id' row', db.outbox.get? id' = some row' → row'.event.subject = some subject → id' = id

/-- The outbox holds the events of all rows and no others; `start` is the database
before the users registered. -/
structure OutboxComplete (start db : Db) : Prop where
  otp : ∀ otpId otp, db.otpCodes.get? otpId = some otp → ∃ user identifier,
    db.users.get? otp.userId = some user ∧ user.identifier otp.channel = some identifier ∧
    ExactlyOne db (.otp otpId) fun row =>
      row.event = .otpSend otp.userId otpId otp.channel identifier ∧
        row.idempotencyKey = some otpId
  purchase : ∀ purchaseId purchase, db.purchases.get? purchaseId = some purchase →
    ExactlyOne db (.purchase purchaseId) fun row =>
      row.event = .purchaseCompleted purchaseId purchase.userId purchase.flashSaleItemId ∧
        row.idempotencyKey = some purchase.idempotencyKey
  created : ∀ saleId sale, db.flashSales.get? saleId = some sale → ∃ items : List Uuid, items.Nodup ∧
    (∀ id, id ∈ items ↔ ∃ item, db.flashSaleItems.get? id = some item ∧ item.flashSaleId = saleId) ∧
    ExactlyOne db (.created saleId) fun row => row.event = .flashSaleCreated saleId items
  settle : ∀ saleId sale, db.flashSales.get? saleId = some sale →
    ExactlyOne db (.settle saleId) fun row =>
      row.event = .flashSaleSettle saleId ∧ row.visibleAt = sale.endsAt
  registered : ∀ user, db.users.get? user ≠ none → start.users.get? user = none →
    ∃ otpId otp, db.otpCodes.get? otpId = some otp ∧ otp.userId = user
  grounded : ∀ id row subject, db.outbox.get? id = some row → row.event.subject = some subject →
    db.Has subject

/-- No delivery has been recorded as failed. -/
def Untried (db : Db) : Prop := ∀ id row, db.outbox.get? id = some row → row.attempts = 0

/-- Users that `start` did not have own a code. -/
def RegisteredOwn (start db : Db) : Prop :=
  ∀ user, db.users.get? user ≠ none → start.users.get? user = none →
    ∃ otpId otp, db.otpCodes.get? otpId = some otp ∧ otp.userId = user

section Producers

variable {cfg : Cfg} {start db db' : Db}

theorem NoEvents.announced (none : NoEvents db) : Announced db := by
  refine ⟨fun subject has => ?_, fun id _ row _ _ found => ?_, fun id row found => ?_,
    fun id item found => ?_⟩
  · cases subject with
    | otp id => exact absurd (none.otps id) has
    | purchase id => exact absurd (none.purchases id) has
    | created id => exact absurd (none.sales id) has
    | settle id => exact absurd (none.sales id) has
  · cases (none.outbox id).symm.trans found
  · cases (none.outbox id).symm.trans found
  · cases (none.items id).symm.trans found

theorem Untried.insert {id : Nat} {row : OutboxRow} (untried : Untried db)
    (outbox : db'.outbox = db.outbox.insert id row) (first : row.attempts = 0) : Untried db' := by
  intro id' row' found
  rw [outbox] at found
  rcases Table.get?_insert_cases found with old | ⟨-, rfl⟩
  · exact untried id' row' old
  · exact first

theorem Untried.step {commit : Commit} (untried : Untried db) (happened : Atomic cfg db commit db')
    (producer : ∀ lines, commit ≠ .ticked lines) : Untried db' := by
  cases happened with
  | purchased found spec => exact untried.insert (by rw [spec.effect]) rfl
  | created found spec =>
    intro id row h
    rw [spec.effect] at h
    rcases Table.get?_insert_cases h with h | ⟨-, rfl⟩
    · rcases Table.get?_insert_cases h with old | ⟨-, rfl⟩
      · exact untried id row old
      · rfl
    · rfl
  | registered found spec => exact untried.insert (by rw [spec.effect]) rfl
  | resent found spec => exact untried.insert (by rw [spec.effect]) rfl
  | account spec =>
    rw [spec.effect]
    intro id row found
    rw [AccountChange.apply_outbox] at found
    exact untried id row found
  | settled spec =>
    cases spec with
    | skipped _ => exact untried
    | settled _ _ _ effect => rw [effect]; exact untried
  | otpSent found => exact untried
  | ticked spec => exact absurd rfl (producer _)

theorem RegisteredOwn.grows (own : RegisteredOwn start db) (grows : Grows db db')
    (users : ∀ user, db'.users.get? user ≠ none → db.users.get? user ≠ none) :
    RegisteredOwn start db' := by
  intro user there new
  obtain ⟨otpId, otp, found, owner⟩ := own user (users user there) new
  obtain ⟨otp', found', owner', -⟩ := grows.otps otpId otp found
  exact ⟨otpId, otp', found', owner'.trans owner⟩

theorem RegisteredOwn.step {commit : Commit} (own : RegisteredOwn start db)
    (happened : Atomic cfg db commit db') : RegisteredOwn start db' := by
  cases happened with
  | purchased found spec =>
    refine own.grows spec.grows fun user there absent => there ?_
    rw [spec.effect]
    exact Table.get?_modify_eq_none.mpr absent
  | created found spec =>
    refine own.grows spec.grows fun user there => ?_
    rwa [spec.effect] at there
  | @registered _ identifier passwordHash otp user found spec =>
    intro user' there new
    have otps : db'.otpCodes =
        db.otpCodes.insert found.otp (otpRow user identifier otp found.createdAt) := by
      rw [spec.effect]
    rw [spec.effect] at there
    rcases Table.get?_insert_ne_none.mp there with old | rfl
    · obtain ⟨otpId, otp', h, owner⟩ := own user' old new
      exact ⟨otpId, otp', by rw [otps]; exact Table.get?_insert_of_some h, owner⟩
    · exact ⟨found.otp, _, by rw [otps]; exact Table.get?_insert_self spec.otp_fresh, rfl⟩
  | resent found spec =>
    refine own.grows spec.grows fun user there => ?_
    rwa [spec.effect] at there
  | account spec =>
    refine own.grows spec.grows fun user there absent => there ?_
    rw [spec.effect, AccountChange.apply_users, absent]
    rfl
  | settled spec =>
    have grows := spec.grows
    cases spec with
    | skipped _ => exact own
    | settled _ _ _ effect => subst effect; exact own.grows grows fun _ there => there
  | otpSent found => exact own.grows (.sent _) fun _ there => there
  | ticked spec => rw [spec.effect]; exact own

/-- Rows and events that belong together, before any delivery. -/
theorem Announced.complete (announced : Announced db) (untried : Untried db)
    (own : RegisteredOwn start db) : OutboxComplete start db := by
  -- The event about a subject, with what it says.
  have one : ∀ subject, db.Has subject → ∃ id row, db.outbox.get? id = some row ∧
      row.event.subject = some subject ∧ row.event.Describes db row ∧
      ∀ id' row', db.outbox.get? id' = some row' → row'.event.subject = some subject → id' = id := by
    intro subject has
    obtain ⟨id, row, found, about⟩ := announced.announced subject has
    exact ⟨id, row, found, about, announced.describes id row found, fun id' row' found' about' =>
      announced.once id' id row' row subject found' found about' about⟩
  refine ⟨fun otpId otp found => ?_, fun purchaseId purchase found => ?_, fun saleId sale found => ?_,
    fun saleId sale found => ?_, own, fun id row subject found about =>
      (announced.describes id row found).has about⟩
  · obtain ⟨id, row, there, about, describes, once⟩ :=
      one (.otp otpId) (Option.ne_none_iff_exists'.mpr ⟨otp, found⟩)
    cases event : row.event with
    | otpSend userId otpId' channel identifier =>
      rw [event] at about describes
      cases about
      obtain ⟨key, ⟨otp', found', rfl, rfl⟩, user, owner, named⟩ := describes
      obtain rfl := Option.some.inj (found.symm.trans found')
      exact ⟨user, identifier, owner, named, id, row, there, by rw [event]; rfl, ⟨event, key⟩, once⟩
    | _ => rw [event] at about; cases about
  · obtain ⟨id, row, there, about, describes, once⟩ :=
      one (.purchase purchaseId) (Option.ne_none_iff_exists'.mpr ⟨purchase, found⟩)
    cases event : row.event with
    | purchaseCompleted purchaseId' userId saleItemId =>
      rw [event] at about describes
      cases about
      obtain ⟨purchase', found', rfl, rfl, key⟩ := describes
      obtain rfl := Option.some.inj (found.symm.trans found')
      exact ⟨id, row, there, by rw [event]; rfl, ⟨event, key⟩, once⟩
    | _ => rw [event] at about; cases about
  · obtain ⟨id, row, there, about, describes, once⟩ :=
      one (.created saleId) (Option.ne_none_iff_exists'.mpr ⟨sale, found⟩)
    cases event : row.event with
    | flashSaleCreated saleId' items =>
      rw [event] at about describes
      cases about
      obtain ⟨-, -, nodup, listed⟩ := describes
      exact ⟨items, nodup, listed, id, row, there, by rw [event]; rfl, event, once⟩
    | _ => rw [event] at about; cases about
  · obtain ⟨id, row, there, about, describes, once⟩ :=
      one (.settle saleId) (Option.ne_none_iff_exists'.mpr ⟨sale, found⟩)
    cases event : row.event with
    | flashSaleSettle saleId' =>
      rw [event] at about describes
      cases about
      obtain ⟨sale', found', due⟩ := describes
      obtain rfl := Option.some.inj (found.symm.trans found')
      exact ⟨id, row, there, by rw [event]; rfl, ⟨event, due (untried id row there)⟩, once⟩
    | _ => rw [event] at about; cases about

end Producers

section Runs

variable {cfg : Cfg} {start s s' : State} {trace : List (State × Label)}

/-- The commits of a client are no ticks, and idle workers do not commit. -/
theorem committing_producer {l : Label} {commit : Commit} (idle : ∀ w, s.workers w = .idle)
    (committing : s.committing l = some commit) : ∀ lines, commit ≠ .ticked lines := by
  rintro lines rfl
  obtain ⟨w, started, at_⟩ := committing_ticked committing
  cases (idle w).symm.trans at_

/-- What runs of the producers keep, while no worker has started: the events are as they were
appended, and every user registered since has a code. -/
structure Produced (cfg : Cfg) (start : Db) (s : State) : Prop where
  coherent : Coherent cfg s
  idle : ∀ w, s.workers w = .idle
  announced : Announced s.server.db
  untried : Untried s.server.db
  own : RegisteredOwn start s.server.db

theorem Produced.step {start : Db} {l : Label} (produced : Produced cfg start s)
    (unpolled : ∀ w, l ≠ .poll w) (taken : FlashSale.step cfg s l = some s') :
    Produced cfg start s' := by
  obtain ⟨coherent, idle, announced, untried, own⟩ := produced
  have coherent' := (step_coherent coherent taken).1
  have idle' : ∀ w, s'.workers w = .idle := fun w => step_worker_idle (idle w) (unpolled w) taken
  rcases step_atomic coherent taken with ⟨-, same⟩ | ⟨commit, committing, happened⟩
  · refine ⟨coherent', idle', ?_, ?_, ?_⟩ <;> rwa [same]
  · exact ⟨coherent', idle', announced.step happened,
      untried.step happened (committing_producer idle committing), own.step happened⟩

/-- In the runs of registrations, resends, purchases and creations alone, the
outbox is complete. -/
theorem Run.outbox_complete (fresh : Fresh start) (none : NoEvents start.server.db)
    (run : Run cfg start trace s) (producers : ∀ p ∈ trace, ∀ w, p.2 ≠ .poll w) :
    OutboxComplete start.server.db s.server.db := by
  have produced : Produced cfg start.server.db s := by
    refine Lib.Run.invariant_while (Produced cfg start.server.db) ?_
      (fun _ _ _ produced unpolled taken => produced.step unpolled taken) run producers
    refine ⟨fresh.coherent, fresh.workers, none.announced, fun id row found => ?_,
      fun user there new => absurd new there⟩
    cases (none.outbox id).symm.trans found
  exact produced.announced.complete produced.untried produced.own

/-- User 9 registers with code 9, the sale is created and its unit bought, and the
resend of a code dies. -/
def producing : List Label :=
  .register 2 ⟨otherMail, passw0rd⟩ :: Label.clientSteps 2 7 9 ++ creating ++
    .purchase 1 ⟨1, some (uuidText '1'), some 4⟩ :: Label.clientSteps 1 12 7 ++
    .resend 3 otherMail :: Label.clientSteps 3 5 8 ++ [.clientCrash 3]

theorem producing_runs : (Lib.execute (step plainCfg) bareShop producing).isSome = true := by
  decide +kernel

theorem outbox_complete_producing :
    ∃ s, Run plainCfg bareShop (Lib.traceOf (step plainCfg) bareShop producing) s ∧
      s.server.db.outbox.rows.length = 4 ∧ OutboxComplete bareDb s.server.db := by
  have run := Lib.Run.of_isSome producing_runs
  have labels : ∀ p ∈ Lib.traceOf (step plainCfg) bareShop producing,
      p.2.polls = false := by decide +kernel
  have complete := Run.outbox_complete (State.initial_fresh _ _ _)
    ⟨fun _ => rfl, fun _ => rfl, fun _ => rfl, fun _ => rfl, fun _ => rfl⟩ run
    fun p mem w polls => by
      have none := labels p mem
      rw [polls] at none
      cases none
  exact ⟨_, run, by decide +kernel, complete⟩

end Runs

end FlashSale
