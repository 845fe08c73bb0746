/-
# Serializability

The transactions interleave statement by statement, at READ COMMITTED. What they commit is
what they would commit one after another: each of them, run alone on the rows that are
committed when it commits, returns what it has returned and leaves the rows that it has
left.

Two things depend on more than the rows: a purchase looks at the clock, and a tick skips
what others have locked. So alone, a purchase reads the time that it has read in the run,
and a tick finds locked what it did not claim. A settlement is the exception: what it has
read need not be there when it commits.

* `step_serial`: one commit.
* `Run.serializable`: all commits of a run.
-/
import FlashSale.SoloCreation
import FlashSale.SoloAuth
import FlashSale.Recovery
import FlashSale.Timeliness

namespace FlashSale

open Lib (Table Tx Surroundings applyAll applyAll_append)

/-! ### The transactions -/

/-- The updates of a tick whose deliveries have ended as the lines say. -/
def recordLines (cfg : Cfg) : List Line → Program Unit
  | [] => pure ()
  | line :: lines => do
    run (.updateOutbox line.claimed.id (line.change cfg))
    recordLines cfg lines

/-- The transaction of a tick. -/
def tickTx (cfg : Cfg) (lines : List Line) : Program (List ClaimedRow) := do
  let rows ← run (.claim cfg.batchSize)
  recordLines cfg lines
  pure rows

@[reducible] def Commit.Result : Commit → Type
  | .purchased _ _ => PurchaseResult
  | .created _ _ => CreatedSale
  | .registered _ _ _ _ => Uuid
  | .settled _ _ _ => Option (List Unsold)
  | .ticked _ => List ClaimedRow
  | _ => Unit

/-- The transaction that a commit ends. -/
def Commit.program (cfg : Cfg) : (commit : Commit) → Program commit.Result
  | .purchased args _ => purchaseTx args.userId args.saleItemId args.idempotencyKey args.day
  | .created input _ => create input
  | .registered identifier passwordHash otp _ => registerTx identifier passwordHash otp
  | .resent user identifier otp => resendTx user identifier otp
  | .account (.verified otpId user) => verifyTx otpId user
  | .account (.attempted otpId) => run (.incrementAttempts otpId)
  | .account (.disabled user) => run (.updateStatus user .disabled)
  | .settled saleId _ _ => settle saleId
  | .otpSent otpId => run (.updateSent otpId)
  | .ticked lines => tickTx cfg lines

/-- What it returns. -/
def Commit.result : (commit : Commit) → commit.Result
  | .purchased _ result => result
  | .created _ result => result
  | .registered _ _ _ user => user
  | .resent _ _ _ => ()
  | .account _ => ()
  | .settled _ _ result => result
  | .otpSent _ => ()
  | .ticked lines => lines.map Line.claimed

/-- The times that a transaction reads from the clock in a run: a purchase reads that at
which it has found its item on sale, and no other transaction looks at the clock. -/
def Commit.Reads (trace : List (State × Label)) : Commit → Int → Prop
  | .purchased args _, time => ∃ order opens closes, ∃ p ∈ trace, order.args = args ∧
    Opened order opens closes p ∧ p.1.now = time
  | _, time => ∃ p ∈ trace, p.1.now = time

/-- The transaction of a commit, run alone on these rows with the times that it reads in
this run and with nothing from outside that fails, returns what it has returned, and
leaves the others. -/
def Commit.Serial (cfg : Cfg) (trace : List (State × Label)) (db : Db) (commit : Commit) (db' : Db) :
    Prop :=
  ∃ around : Surroundings Env Failure, (∀ i, around.fails i = none) ∧
    (∀ i, commit.Reads trace (around.time i)) ∧
    (commit.program cfg).transaction plan around db = (.ok commit.result, db')

theorem Commit.Reads.later {trace more : List (State × Label)} {commit : Commit} {time : Int}
    (reads : commit.Reads trace time) : commit.Reads (trace ++ more) time := by
  cases commit with
  | purchased args result =>
    obtain ⟨order, opens, closes, p, seen, known⟩ := reads
    exact ⟨order, opens, closes, p, List.mem_append_left _ seen, known⟩
  | _ =>
    obtain ⟨p, seen, known⟩ := reads
    exact ⟨p, List.mem_append_left _ seen, known⟩

theorem Commit.Serial.later {cfg : Cfg} {trace more : List (State × Label)} {db db' : Db}
    {commit : Commit} (serial : commit.Serial cfg trace db db') :
    commit.Serial cfg (trace ++ more) db db' := by
  obtain ⟨around, spared, reads, same⟩ := serial
  exact ⟨around, spared, fun i => (reads i).later, same⟩

/-! ### Surroundings -/

/-- The clock stands still, and nothing fails. -/
def unhindered (env : Nat → Env) (time : Int) : Surroundings Env Failure where
  env := env
  time _ := time
  fails _ := none

theorem toColumn_exact (t : Int) : toColumn (t * 1000) = t := by
  unfold toColumn
  omega

section Commits

variable {cfg : Cfg} {db db' : Db} {α : Type} {trace : List (State × Label)} {p : State × Label}

/-! ### Purchases -/

theorem PurchaseCommits.serial {args : PurchaseArgs} {found : PurchaseFound}
    {result : PurchaseResult} (spec : PurchaseCommits args found result db db')
    (conforms : db.Conforms) (conforms' : db'.Conforms) (seen : p ∈ trace) {order : PurchaseOrder}
    {opens closes : Int} (own : order.args = args) (opened : Opened order opens closes p)
    (still : OnSale db args.saleItemId opens closes) :
    (Commit.purchased args result).Serial cfg trace db db' := by
  obtain ⟨item, sale, ⟨there, joined⟩, rfl, rfl⟩ := still
  obtain rfl : found.item = item := Option.some.inj (spec.item.symm.trans there)
  have window : sale.startsAt ≤ p.1.now ∧ p.1.now ≤ sale.endsAt := ⟨opened.begun, opened.lasts⟩
  have fits : int8 (found.user.balanceCents - found.item.priceCents) = true := by
    have paid : db'.users.get? args.userId = some { found.user with
        balanceCents := found.user.balanceCents + -found.item.priceCents } := by
      rw [spec.effect]
      show (db.users.modify _ _).get? args.userId = _
      rw [Table.get?_modify_self, spec.user]
      rfl
    exact Int.sub_eq_add_neg ▸ (conforms'.users _ _ paid).balance
  let env : Env := ⟨found.visibleAt * 1000, found.createdAt * 1000, found.outboxId,
    result.purchaseId, [], fun _ => true⟩
  let around := unhindered (fun _ => env) p.1.now
  have can : CanBuy args (around.time 2) found.item sale found.user db :=
    ⟨spec.day_unused, spec.item, joined, window, spec.available, spec.user, spec.funds, fits,
      spec.key_unused⟩
  have ended := can.succeeds ⟨fun _ _ => rfl, spec.fresh, spec.outbox_fresh⟩ conforms
  refine ⟨around, fun _ => rfl, fun _ => ⟨order, _, _, p, seen, own, opened, rfl⟩,
    (Tx.transaction_ok ended).trans ?_⟩
  have returns : (args.call around).result found.item = result := spec.result_eq.symm
  have leaves : args.bought around found.item db = db' := by
    rw [spec.effect, PurchaseArgs.bought]
    simp only [around, unhindered, env, toColumn_exact]
  rw [returns]
  exact congrArg _ leaves

/-! ### Accounts -/

/-- A statement by itself. -/
theorem statement_serial {st : Stmt} {env : Env} {ws : List Write} {r : st.Result}
    (got : (plan st env db).answer = .ok (ws, r)) :
    (run st).transaction plan (unhindered (fun _ => env) p.1.now) db = (.ok r, applyAll db ws) :=
  @query_ok ⟨p.1.clock, 0, fun _ => env⟩ db st ws r got

/-- What the two statements that issue a code meet, from statement `i` on. -/
def OtpFound.env (found : OtpFound) (i : Nat) (user : Uuid) (j : Nat) : Env where
  started := found.visibleAt * 1000
  stamp := found.createdAt * 1000
  serial := found.outboxId
  draw := if j = i then found.otp else user
  order := []
  free _ := true

theorem OtpFound.writes {found : OtpFound} {identifier : NormalizedIdentifier} {otp : PreparedOtp}
    {i : Nat} {user : Uuid} :
    otpWrites user identifier otp (found.env i user i) (found.env i user (i + 1)) =
      [.insertOtp found.otp (otpRow user identifier otp found.createdAt),
        .insertOutbox found.outboxId (otpEvent user identifier found)] := by
  simp [otpWrites, OtpFound.env, toColumn_exact, otpEvent]

theorem RegisterCommits.serial {identifier : NormalizedIdentifier} {passwordHash : String}
    {otp : PreparedOtp} {found : OtpFound} {user : Uuid}
    (spec : RegisterCommits identifier passwordHash otp found user db db')
    (conforms' : db'.Conforms) (seen : p ∈ trace) :
    (Commit.registered identifier passwordHash otp user).Serial cfg trace db db' := by
  let o : Occasion := ⟨p.1.clock, 0, found.env 1 user⟩
  have own : db'.users.get? user = some (newUser identifier passwordHash) := by
    rw [spec.effect]
    exact Table.get?_insert_self spec.user_fresh
  -- The unique indexes keep the identifier from naming two users.
  have absent : db.named identifier = none := by
    cases named : db.named identifier with
    | none => rfl
    | some other =>
      obtain ⟨id, row⟩ := other
      obtain ⟨there, names⟩ := named_some named
      have there' : db'.users.get? id = some row := by
        rw [spec.effect]
        exact Table.get?_insert_of_some there
      have same : id = user := by
        obtain ⟨kind, normalized⟩ := identifier
        cases kind with
        | email =>
          have email : row.email = some normalized := of_decide_eq_true names
          exact conforms'.emails _ _ _ _ there' own (by simp [email]) email
        | phone =>
          have phone : row.phone = some normalized := of_decide_eq_true names
          exact conforms'.phones _ _ _ _ there' own (by simp [phone]) phone
      rw [same, spec.user_fresh] at there
      cases there
  have created := @answer_createUser db identifier passwordHash (o.env 0) absent spec.user_fresh
  have owner : (applyAll db [Write.insertUser (o.env 0).draw
      (newUser identifier passwordHash)]).users.get? user ≠ none := by
    intro missing
    cases (Table.get?_insert_self spec.user_fresh).symm.trans missing
  have issued := @issueOtp_ok o db identifier Uuid (fun _ => .pure user) otp user 1
    [.insertUser user (newUser identifier passwordHash)] owner spec.otp_fresh spec.outbox_fresh
  have ended : (registerTx identifier passwordHash otp).solo plan o.around db 0 [] =
      .ok (user, .insertUser user (newUser identifier passwordHash) ::
        otpWrites user identifier otp (o.env 1) (o.env 2)) :=
    (Tx.solo_statement rfl created).trans (issued.trans (Tx.solo_pure rfl))
  refine ⟨o.around, fun _ => rfl, fun _ => ⟨p, seen, rfl⟩, (Tx.transaction_ok ended).trans ?_⟩
  rw [OtpFound.writes, spec.effect]
  rfl

theorem ResendCommits.serial {user : Uuid} {identifier : NormalizedIdentifier} {otp : PreparedOtp}
    {found : OtpFound} (spec : ResendCommits user identifier otp found db db')
    (seen : p ∈ trace) :
    (Commit.resent user identifier otp).Serial cfg trace db db' := by
  let o : Occasion := ⟨p.1.clock, 0, found.env 0 user⟩
  obtain ⟨row, there, -⟩ := spec.owner
  have issued := @issueOtp_ok o db identifier Unit (fun _ => .pure ()) otp user 0 []
    (fun missing => by cases there.symm.trans missing) spec.otp_fresh spec.outbox_fresh
  refine ⟨o.around, fun _ => rfl, fun _ => ⟨p, seen, rfl⟩, (Tx.transaction_ok (issued.trans (Tx.solo_pure rfl))).trans ?_⟩
  rw [OtpFound.writes, spec.effect]
  rfl

/-- The environment of a statement that takes nothing from it. -/
def anyEnv : Env := ⟨0, 0, 0, 0, [], fun _ => true⟩

theorem AccountCommits.serial {change : AccountChange} (spec : AccountCommits change db db')
    (conforms : db.Conforms) (conforms' : db'.Conforms) (seen : p ∈ trace) :
    (Commit.account change).Serial cfg trace db db' := by
  obtain ⟨there, effect⟩ := spec
  cases change with
  | verified otpId user =>
    obtain ⟨otp, code, own⟩ := there
    obtain ⟨row, owner⟩ := Option.ne_none_iff_exists'.mp (conforms.codeOwners _ _ code)
    rw [own] at owner
    rw [effect]
    exact ⟨_, fun _ => rfl, fun _ => ⟨p, seen, rfl⟩,
      @verifyTx_ok ⟨p.1.clock, 0, fun _ => anyEnv⟩ db otpId user otp row code owner⟩
  | attempted otpId =>
    obtain ⟨otp, code⟩ := there
    have counted : db'.otpCodes.get? otpId = some { otp with attempts := otp.attempts + 1 } := by
      rw [effect]
      exact (Table.get?_modify_self).trans (by rw [code]; rfl)
    have fits := conforms'.codes _ _ counted
    dsimp only at fits
    rw [Nat.cast_succ] at fits
    have got : (plan (.incrementAttempts otpId) anyEnv db).answer =
        .ok ([.addAttempt otpId], ()) := by
      dsimp only [plan]
      rw [code]
      dsimp only
      rw [fits]
      rfl
    rw [effect]
    exact ⟨_, fun _ => rfl, fun _ => ⟨p, seen, rfl⟩, statement_serial got⟩
  | disabled user =>
    obtain ⟨row, found⟩ := there
    have got : (plan (.updateStatus user .disabled) anyEnv db).answer =
        .ok ([.setStatus user .disabled], ()) := by
      dsimp only [plan]
      rw [found]
      rfl
    rw [effect]
    exact ⟨_, fun _ => rfl, fun _ => ⟨p, seen, rfl⟩, statement_serial got⟩

theorem sent_serial {otpId : Uuid} {row : OtpRow} (found : db.otpCodes.get? otpId = some row)
    (seen : p ∈ trace) :
    (Commit.otpSent otpId).Serial cfg trace db { db with
      otpCodes := db.otpCodes.modify otpId fun o => { o with sent := true } } := by
  have got : (plan (.updateSent otpId) anyEnv db).answer = .ok ([.markSent otpId], ()) := by
    dsimp only [plan]
    rw [found]
    rfl
  exact ⟨_, fun _ => rfl, fun _ => ⟨p, seen, rfl⟩, statement_serial got⟩

/-! ### Creations -/

theorem numbered_eq {around : Surroundings Env Failure} {lines : List (SaleItemInput × Uuid)}
    {i : Nat} (drawn : ∀ k (low : k < lines.length),
      (around.env (i + 3 * k + 2)).draw = (lines.get ⟨k, low⟩).2) :
    numbered around i (lines.map Prod.fst) = lines := by
  induction lines generalizing i with
  | nil => rfl
  | cons line lines ih =>
    have first : (around.env (i + 2)).draw = line.2 := drawn 0 (Nat.succ_pos _)
    have rest := ih (i := i + 3) fun k low => by
      have later := drawn (k + 1) (Nat.succ_lt_succ low)
      rw [show i + 3 * (k + 1) + 2 = i + 3 + 3 * k + 2 from by omega] at later
      exact later
    rw [List.map_cons, numbered, first, rest]

/-- What the statements of a creation meet. -/
def CreateFound.env (found : CreateFound) (sale : Uuid) (i : Nat) : Env where
  started := found.visibleAt * 1000
  stamp := 0
  serial := if i = 3 * found.lines.length + 1 then found.createdId else found.settleId
  draw := if i = 0 then sale else ((found.lines[(i - 3) / 3]?).map Prod.snd).getD 0
  order := []
  free _ := true

section Creation

variable {input : CreateSaleInput} {found : CreateFound} {result : CreatedSale}

/-- The rows of a creation that has committed. -/
theorem CreateCommits.item (spec : CreateCommits input found result db db')
    {line : SaleItemInput × Uuid} (mem : line ∈ found.lines) :
    db'.flashSaleItems.get? line.2 = some (line.1.row result.sale) := by
  have inserted : Inserted db result.sale found.lines :=
    ⟨spec.sale_fresh, spec.lines_ids ▸ spec.items_nodup, spec.lines_ids ▸ spec.items_fresh⟩
  rw [spec.effect]
  exact inserted.there mem

theorem CreateCommits.sale (spec : CreateCommits input found result db db') :
    db'.flashSales.get? result.sale = some ⟨input.name, input.startsAt, input.endsAt, none⟩ := by
  rw [spec.effect]
  exact Table.get?_insert_self spec.sale_fresh

theorem CreateCommits.line (spec : CreateCommits input found result db db') {line : SaleItemInput}
    (mem : line ∈ input.items) : ∃ id, (line, id) ∈ found.lines := by
  rw [← spec.lines_items] at mem
  obtain ⟨⟨line', id⟩, inside, rfl⟩ := List.mem_map.mp mem
  exact ⟨id, inside⟩

theorem CreateCommits.inRange (spec : CreateCommits input found result db db')
    (conforms' : db'.Conforms) : input.InRange := by
  refine .of_takes spec.takes (fun line mem => ?_) fun line mem => ?_
  · obtain ⟨id, inside⟩ := spec.line mem
    exact (conforms'.items _ _ (spec.item inside)).quantity
  · obtain ⟨id, inside⟩ := spec.line mem
    exact (conforms'.items _ _ (spec.item inside)).price

/-- The unique index on the products of a sale keeps it from listing one twice. -/
theorem CreateCommits.distinct (spec : CreateCommits input found result db db')
    (conforms' : db'.Conforms) : (input.items.map SaleItemInput.productId).Nodup := by
  have ids : (found.lines.map Prod.snd).Nodup := spec.lines_ids ▸ spec.items_nodup
  rw [← spec.lines_items, List.map_map]
  refine List.Nodup.map_on (fun p mem q mem' same => ?_) (List.Nodup.of_map _ ids)
  refine List.inj_on_of_nodup_map ids mem mem' ?_
  refine conforms'.saleProducts _ _ _ _ (spec.item mem) (spec.item mem') (by simp) ?_
  have products : p.1.productId = q.1.productId := same
  simp [SaleItemInput.row, products]

theorem CreateCommits.fits (spec : CreateCommits input found result db db')
    (conforms' : db'.Conforms) {line : SaleItemInput} (mem : line ∈ input.items) :
    Fits db line := by
  obtain ⟨id, inside⟩ := spec.line mem
  obtain ⟨product', there⟩ := Option.ne_none_iff_exists'.mp
    (conforms'.itemProducts _ _ (spec.item inside))
  rw [spec.effect] at there
  change (reserveStock input.items db.products).get? line.productId = some product' at there
  rw [reserveStock_get?] at there
  obtain ⟨product, listed, -⟩ := Option.map_eq_some_iff.mp there
  have stock := spec.stock line mem product listed
  rw [reserved_listed (spec.distinct conforms') mem] at stock
  exact ⟨product, listed, spec.quantities line mem, by omega⟩

theorem CreateCommits.serial (spec : CreateCommits input found result db db')
    (conforms : db.Conforms) (conforms' : db'.Conforms) (seen : p ∈ trace) :
    (Commit.created input result).Serial cfg trace db db' := by
  let around := unhindered (found.env result.sale) p.1.now
  have count : found.lines.length = input.items.length := by
    rw [← spec.lines_items, List.length_map]
  have lines : numbered around 1 input.items = found.lines := by
    rw [← spec.lines_items]
    refine numbered_eq fun k low => ?_
    simp [around, unhindered, CreateFound.env, low]
  have sale : (around.env 0).draw = result.sale := rfl
  have created : (around.env (3 * input.items.length + 1)).serial = found.createdId := by
    simp [around, unhindered, CreateFound.env, count]
  have settles : (around.env (3 * input.items.length + 2)).serial = found.settleId := by
    simp [around, unhindered, CreateFound.env, count]
  have can : CanCreate input db := by
    refine ⟨(conforms'.sales _ _ spec.sale).window, spec.distinct conforms', fun line mem => ?_⟩
    exact spec.fits conforms' mem
  have free : input.Unhindered around db := by
    refine ⟨fun _ _ => rfl, spec.sale_fresh, fun p mem => ?_, ?_, ?_, ?_, ?_⟩
    · rw [lines] at mem
      exact spec.items_fresh _ (spec.lines_ids ▸ List.mem_map_of_mem mem)
    · rw [lines, spec.lines_ids]
      exact spec.items_nodup
    · rw [created]
      exact spec.created_fresh
    · rw [settles]
      exact spec.settle_fresh
    · rw [created, settles]
      exact spec.outbox_ne
  have ended := (create_ok_iff conforms (spec.inRange conforms')).mpr ⟨⟨can, free⟩, rfl⟩
  refine ⟨around, fun _ => rfl, fun _ => ⟨p, seen, rfl⟩, (Tx.transaction_ok ended).trans ?_⟩
  have returns : input.result around = result := by
    rw [CreateSaleInput.result, lines, spec.lines_ids, sale]
  have started : ∀ i, toColumn (around.env i).started = found.visibleAt := fun _ => toColumn_exact _
  rw [returns, applyAll_writes, CreateSaleInput.created, CreateSaleInput.events, lines, created,
    settles, sale, spec.lines_ids, spec.effect]
  simp [appended, started]
  rfl

end Creation

/-! ### Settlements -/

/-- Every arrangement of some rows is one that an environment can pick. -/
theorem arrange_any {α : Type} {rows rows' : List α} (perm : rows'.Perm rows) :
    ∃ order, arrange order rows = rows' := by
  induction rows' generalizing rows with
  | nil =>
    rw [List.nil_perm.mp perm]
    exact ⟨[], rfl⟩
  | cons row rows' ih =>
    obtain ⟨i, low, is⟩ := List.getElem_of_mem (perm.subset List.mem_cons_self)
    have rest : rows'.Perm (rows.eraseIdx i) :=
      (perm.trans ((List.getElem_cons_eraseIdx_perm low).symm.trans (by rw [is]))).cons_inv
    obtain ⟨order, arranged⟩ := ih rest
    refine ⟨i :: order, ?_⟩
    rw [arrange, List.getElem?_eq_getElem low]
    dsimp only
    rw [is, arranged]

section Settlement

variable {saleId : Uuid} {around : Surroundings Env Failure}

/-- The loop of a settlement goes through when the stock has room for all of it. -/
theorem returnStock_solo (spared : ∀ i, around.fails i = none) (conforms : db.Conforms)
    {items : List Unsold} (positive : ∀ item ∈ items, 0 < item.unsold)
    (room : ∀ id row, db.products.get? id = some row →
      row.stock + returned id items ≤ 9223372036854775807)
    {k : Unit → Program α} (done rest : List Unsold) (all : items = done ++ rest) {i : Nat}
    {ws : List Write} (view : applyAll db ws = { db with products := returnAll done db.products }) :
    ∃ ws', (returnStock rest >>= k).solo plan around db i ws =
        (k ()).solo plan around db (i + rest.length) ws' ∧
      applyAll db ws' = { db with products := returnAll items db.products } := by
  induction rest generalizing done i ws with
  | nil =>
    rw [List.append_nil] at all
    subst all
    exact ⟨ws, rfl, view⟩
  | cons item rest ih =>
    have stock : (applyAll db ws).products.get? item.productId =
        (db.products.get? item.productId).map
          fun p => { p with stock := p.stock + returned item.productId done } := by
      rw [view]
      exact returnAll_get? done db.products item.productId
    have updates : ∃ ws', (plan (.updateStock item.productId item.unsold) (around.env i)
        (applyAll db ws)).answer = .ok (ws', ()) ∧
        applyAll db (ws ++ ws') =
          { db with products := returnAll (done ++ [item]) db.products } := by
      cases found : db.products.get? item.productId with
      | none =>
        refine ⟨[], by simp [plan, stock, found, reading], ?_⟩
        have absent : (returnAll done db.products).get? item.productId = none := by
          rw [returnAll_get?, found]
          rfl
        rw [List.append_nil, view, returnAll_snoc, Table.modify_absent absent]
      | some row =>
        have before : 0 ≤ returned item.productId done := returned_nonneg fun u mem =>
          positive u (all ▸ List.mem_append_left _ mem)
        have after : 0 ≤ returned item.productId rest := returned_nonneg fun u mem =>
          positive u (all ▸ List.mem_append_right _ (List.mem_cons_of_mem _ mem))
        have own := positive item (all ▸ List.mem_append_right _ List.mem_cons_self)
        have total : returned item.productId items =
            returned item.productId done + (item.unsold + returned item.productId rest) := by
          rw [all, returned_append]
          simp [returned]
        have nonneg := (conforms.products _ row found).nonneg
        have bound := room _ row found
        have low : 0 ≤ row.stock + returned item.productId done + item.unsold := by omega
        have inRange : int8 (row.stock + returned item.productId done + item.unsold) = true := by
          simp only [int8, decide_eq_true_eq]
          omega
        refine ⟨[.addStock item.productId item.unsold], ?_, ?_⟩
        · simp [plan, stock, found, updating, violations, inRange, low]
        · rw [applyAll_append, view, returnAll_snoc]
          rfl
    obtain ⟨ws', got, view'⟩ := updates
    obtain ⟨ws'', rest_, leaves⟩ := ih (done ++ [item]) (by rw [all, List.append_assoc]; rfl) view'
    refine ⟨ws'', ?_, leaves⟩
    have first : (returnStock (item :: rest) >>= k).solo plan around db i ws =
        (returnStock rest >>= k).solo plan around db (i + 1) (ws ++ ws') :=
      Tx.solo_statement (spared i) got
    rw [first, rest_, List.length_cons, Nat.add_assoc, Nat.add_comm 1]

/-- A settlement that finds its sale as it was settles nothing, and one that returns what is
unsold when it commits does so. -/
theorem SettleCommits.serial {started : Int} {result : Option (List Unsold)}
    (spec : SettleCommits saleId started True result db db') (conforms : db.Conforms)
    (conforms' : db'.Conforms)
    (reads : ∀ items, result = some items → items.Perm (unsoldItems saleId db)) (seen : p ∈ trace) :
    (Commit.settled saleId started result).Serial cfg trace db db' := by
  have locks : ∀ {env : Env} {sale : SaleRow}, db.flashSales.get? saleId = some sale →
      (plan (.selectSaleForUpdate saleId) env (applyAll db ([] : List Write))).answer =
        .ok ([], some sale.settledAt) := by
    intro env sale found
    change (plan (.selectSaleForUpdate saleId) env db).answer = _
    simp [plan, found, locking]
  cases spec with
  | skipped settled =>
    obtain ⟨sale, found, done⟩ := settled trivial
    obtain ⟨t, stamp⟩ := Option.ne_none_iff_exists'.mp done
    let around := unhindered (fun _ => anyEnv) p.1.now
    have ended : (settle saleId).solo plan around db 0 [] = .ok (none, []) := by
      refine (Tx.solo_statement rfl (locks found)).trans ?_
      rw [stamp]
      exact Tx.solo_pure rfl
    exact ⟨around, fun _ => rfl, fun _ => ⟨p, seen, rfl⟩, Tx.transaction_ok ended⟩
  | @settled _ _ sale items found open_ positive effect =>
    obtain ⟨order, arranged⟩ := arrange_any (reads items rfl)
    let env : Env := ⟨started, 0, 0, 0, order, fun _ => true⟩
    let around := unhindered (fun _ => env) p.1.now
    have room : ∀ id row, db.products.get? id = some row →
        row.stock + returned id items ≤ 9223372036854775807 := by
      intro id row there
      have after : db'.products.get? id =
          some { row with stock := row.stock + returned id items } := by
        rw [effect]
        show (returnAll items db.products).get? id = _
        rw [returnAll_get?, there]
        rfl
      have stock := (conforms'.products _ _ after).stock
      simp only [int8, decide_eq_true_eq] at stock
      exact stock.2
    have spared : ∀ i, around.fails i = none := fun _ => rfl
    have start : applyAll db ([] : List Write) =
        { db with products := returnAll [] db.products } := rfl
    obtain ⟨ws, loop, view⟩ := returnStock_solo spared conforms positive room
      (k := fun _ => run (.updateSettled saleId) >>= fun _ => pure (some items)) [] items rfl
      (i := 2) start
    have there : (applyAll db ws).flashSales.get? saleId = some sale := by
      rw [view]
      exact found
    have stamps : (plan (.updateSettled saleId) env (applyAll db ws)).answer =
        .ok ([.stampSettled saleId (toColumn started)], ()) := by
      simp [plan, there, updating, env]
    have ended : (settle saleId).solo plan around db 0 [] =
        .ok (some items, ws ++ [.stampSettled saleId (toColumn started)]) := by
      refine (Tx.solo_statement rfl (locks found)).trans ?_
      rw [open_]
      have selects : (plan (.selectUnsold saleId) env (applyAll db ([] : List Write))).answer =
          .ok ([], items) := by
        change (plan (.selectUnsold saleId) env db).answer = _
        rw [← arranged]
        rfl
      exact (Tx.solo_statement rfl selects).trans
        (loop.trans ((Tx.solo_statement rfl stamps).trans (Tx.solo_pure rfl)))
    refine ⟨around, fun _ => rfl, fun _ => ⟨p, seen, rfl⟩, (Tx.transaction_ok ended).trans ?_⟩
    rw [applyAll_append, view, effect]
    rfl

end Settlement

/-! ### Ticks -/

/-- What a tick claims is in the order of its numbers, and not too much. -/
structure Batch (cfg : Cfg) (rows : List ClaimedRow) : Prop where
  sorted : rows.Pairwise fun a b => a.id ≤ b.id
  size : rows.length ≤ cfg.batchSize

theorem due_sorted {env : Env} : (due env db).Pairwise fun a b => a.id ≤ b.id := by
  have total : Std.Total fun a b : ClaimedRow => a.id ≤ b.id := ⟨fun a b => le_total a.id b.id⟩
  have trans : IsTrans ClaimedRow fun a b => a.id ≤ b.id := ⟨fun _ _ _ => le_trans⟩
  exact List.pairwise_insertionSort (fun a b : ClaimedRow => a.id ≤ b.id) _

/-- The rows of a tick are those that are due and free, when all the others are locked. -/
theorem TickCommits.due_eq {lines : List Line} {started : Int} (spec : TickCommits cfg lines db db')
    (batch : Batch cfg (lines.map Line.claimed))
    (isDue : ∀ c ∈ lines.map Line.claimed, c.row.visibleAt * 1000 ≤ started) {env : Env}
    (start : env.started = started)
    (free : ∀ id, env.free (.outbox id) = true ↔ id ∈ lines.map fun line => line.claimed.id) :
    due env db = lines.map Line.claimed := by
  have mem_iff : ∀ c, c ∈ due env db ↔ c ∈ lines.map Line.claimed := by
    intro c
    constructor
    · intro mem
      obtain ⟨found, -, -, unlocked⟩ := mem_due mem
      obtain ⟨line, inside, own⟩ := List.mem_map.mp ((free c.id).mp unlocked)
      have claimed := spec.claimed line inside
      rw [own, found] at claimed
      obtain ⟨id, row⟩ := c
      refine List.mem_map.mpr ⟨line, inside, ?_⟩
      cases is : line.claimed
      rw [is] at own claimed
      cases own
      cases claimed
      rfl
    · intro mem
      obtain ⟨line, inside, rfl⟩ := List.mem_map.mp mem
      refine mem_due_of (spec.claimed line inside) (spec.pending line inside) ?_ ?_
      · rw [start]
        exact isDue _ mem
      · exact (free _).mpr (List.mem_map_of_mem inside)
  have ids : ((lines.map Line.claimed).map ClaimedRow.id).Nodup := by
    rw [List.map_map]
    exact spec.nodup
  have perm : (due env db).Perm (lines.map Line.claimed) :=
    (List.perm_ext_iff_of_nodup (.of_map _ due_nodup) (.of_map _ ids)).mpr mem_iff
  refine perm.eq_of_pairwise (fun a b mem mem' low high => ?_) due_sorted batch.sorted
  exact List.inj_on_of_nodup_map ids ((mem_iff a).mp mem) mem' (le_antisymm low high)

/-- What a tick writes for its lines. -/
def recorded (cfg : Cfg) (lines : List Line) : List Write :=
  lines.map fun line => .changeOutbox line.claimed.id (line.change cfg)

theorem recorded_snoc {lines : List Line} {line : Line} :
    recorded cfg lines ++ [.changeOutbox line.claimed.id (line.change cfg)] =
      recorded cfg (lines ++ [line]) := by
  rw [recorded, recorded, List.map_append]
  rfl

/-- The updates of a tick, with the rows of the lines as they were claimed. -/
theorem recordLines_solo {around : Surroundings Env Failure} {lines : List Line}
    (spared : ∀ i, around.fails i = none) (spec : TickCommits cfg lines db db')
    (conforms' : db'.Conforms) {k : Unit → Program α} (done rest : List Line)
    (all : lines = done ++ rest) {i : Nat} :
    (recordLines cfg rest >>= k).solo plan around db i (recorded cfg done) =
      (k ()).solo plan around db (i + rest.length) (recorded cfg lines) := by
  induction rest generalizing done i with
  | nil =>
    rw [List.append_nil] at all
    rw [all]
    rfl
  | cons line rest ih =>
    have mem : line ∈ lines := all ▸ List.mem_append_right _ List.mem_cons_self
    have new : line.claimed.id ∉ done.map fun line => line.claimed.id := by
      have nodup := spec.nodup
      rw [all, List.map_append, List.map_cons] at nodup
      exact fun old => (List.nodup_append.mp nodup).2.2 _ old _ List.mem_cons_self rfl
    have found : (applyAll db (recorded cfg done)).outbox.get? line.claimed.id =
        some line.claimed.row := by
      rw [recorded, applyAll_changes]
      refine (Table.get?_modifyAll_of_notMem ?_).trans (spec.claimed line mem)
      rw [Line.update_keys]
      exact new
    have fits := conforms'.events _ _ (spec.changed mem)
    have got : (plan (.updateOutbox line.claimed.id (line.change cfg)) (around.env i)
        (applyAll db (recorded cfg done))).answer =
          .ok ([.changeOutbox line.claimed.id (line.change cfg)], ()) := by
      simp [plan, found, violations, fits, updating]
    have first : (recordLines cfg (line :: rest) >>= k).solo plan around db i (recorded cfg done) =
        (recordLines cfg rest >>= k).solo plan around db (i + 1) (recorded cfg (done ++ [line])) :=
      recorded_snoc ▸ Tx.solo_statement (spared i) got
    refine first.trans ((ih (done ++ [line]) (by rw [all, List.append_assoc]; rfl)).trans ?_)
    rw [List.length_cons, Nat.add_assoc, Nat.add_comm 1]

theorem TickCommits.serial {lines : List Line} {started : Int} (spec : TickCommits cfg lines db db')
    (conforms' : db'.Conforms) (batch : Batch cfg (lines.map Line.claimed))
    (isDue : ∀ c ∈ lines.map Line.claimed, c.row.visibleAt * 1000 ≤ started) (seen : p ∈ trace) :
    (Commit.ticked lines).Serial cfg trace db db' := by
  let env : Env := ⟨started, 0, 0, 0, [], fun r => lines.any fun line =>
    decide (r = .outbox line.claimed.id)⟩
  let around := unhindered (fun _ => env) p.1.now
  have free : ∀ id, env.free (.outbox id) = true ↔ id ∈ lines.map fun line => line.claimed.id := by
    intro id
    rw [List.any_eq_true, List.mem_map]
    constructor
    · rintro ⟨line, mem, own⟩
      exact ⟨line, mem, (Resource.outbox.inj (of_decide_eq_true own)).symm⟩
    · rintro ⟨line, mem, rfl⟩
      exact ⟨line, mem, decide_eq_true rfl⟩
  have claims : (plan (.claim cfg.batchSize) env (applyAll db ([] : List Write))).answer =
      .ok ([], lines.map Line.claimed) := by
    show Except.ok ([], (due env db).take cfg.batchSize) = _
    rw [spec.due_eq batch isDue rfl free, List.take_of_length_le batch.size]
  have ended : (tickTx cfg lines).solo plan around db 0 [] =
      .ok (lines.map Line.claimed, recorded cfg lines) :=
    (Tx.solo_statement rfl claims).trans
      ((recordLines_solo (fun _ => rfl) spec conforms' [] lines rfl).trans (Tx.solo_pure rfl))
  refine ⟨around, fun _ => rfl, fun _ => ⟨p, seen, rfl⟩, (Tx.transaction_ok ended).trans ?_⟩
  rw [recorded, applyAll_changes, spec.effect]
  rfl

end Commits

/-! ### Steps -/

/-- What a settlement has read is unsold. -/
def StillUnsold (db : Db) (saleId : Uuid) (items : List Unsold) : Prop :=
  items.Perm (unsoldItems saleId db)

/-- If the commit is that of a settlement, what it returns is unsold when it commits. Its items
were read without locks, and others may have sold since. -/
def Commit.Current (db : Db) : Commit → Prop
  | .settled saleId _ (some items) => StillUnsold db saleId items
  | _ => True

/-- What every run keeps that a commit relies on when it is repeated alone: the constraints,
what ticks have claimed, and what handlers have earned. -/
structure Committing (cfg : Cfg) (s : State) : Prop where
  processing : Processing cfg s
  upheld : Lib.Upheld schema s.server
  recorded : ClaimsRecorded s
  batches : ∀ w started rows, .claimed w started rows ∈ s.history → Batch cfg rows

section Steps

variable {cfg : Cfg} {s s' : State} {l : Label}

theorem step_batch (taken : step cfg s l = some s') : ∃ events, s'.history = s.history ++ events ∧
    ∀ w started rows, .claimed w started rows ∈ events → Batch cfg rows := by
  obtain ⟨events, added, all⟩ := step_events taken
  refine ⟨events, added, fun w started rows mem => ?_⟩
  rcases all _ mem with ⟨n, (⟨_, eq⟩ | ⟨_, _, eq⟩) | event⟩ | ⟨w', choice, rfl, worker⟩
  · cases eq
  · cases eq
  · cases event
  · rcases worker with ⟨_, eq⟩ | ⟨_, _, row, delivery, _, _, _, handler⟩ | ⟨started', rows', at_, eq⟩
    · cases eq
    · rcases handler with ⟨_, eq⟩ | ⟨_, eq⟩ <;> cases eq
    · cases eq
      cases step_cases taken with
      | start start _ label => cases start <;> cases label
      | @worker _ _ move ran =>
        rw [at_] at ran
        have same : move.events = events := List.append_cancel_left added
        rw [← same] at mem
        change claimStep cfg s w started choice = some move at ran
        obtain ⟨⟨answer, server⟩, done, eq⟩ := Option.map_eq_some_iff.mp ran
        rcases Lib.Server.statement_cases done with ⟨e, _, rfl, rfl⟩ | ⟨ws, rows', got, rfl, _, rfl⟩
        · cases eq
          cases mem
        · cases eq
          cases List.mem_singleton.mp mem
          cases got
          exact ⟨due_sorted.sublist (List.take_sublist _ _), List.length_take_le _ _⟩

theorem Committing.step (committing : Committing cfg s) (taken : FlashSale.step cfg s l = some s') :
    Committing cfg s' := by
  obtain ⟨processing, upheld, recorded, batches⟩ := committing
  have coherent := processing.coherent
  refine ⟨processing.step taken, step_upheld coherent upheld taken, recorded.step coherent taken,
    fun w started rows mem => ?_⟩
  obtain ⟨events, added, new⟩ := step_batch taken
  rw [added] at mem
  rcases List.mem_append.mp mem with old | now
  · exact batches w started rows old
  · exact new w started rows now

/-- A settlement that commits has found its sale. -/
theorem step_settled (processing : Processing cfg s) (taken : step cfg s l = some s')
    {saleId : Uuid} {t : Int} {result : Option (List Unsold)}
    (committing : s.committing l = some (.settled saleId t result)) :
    SettleCommits saleId t True result s.server.db s'.server.db := by
  obtain ⟨w, choice, rfl, started, alive, row, todo, done, at_⟩ := committing_settled committing
  obtain ⟨-, knows⟩ := (processing.earning w started alive _ at_).settle row saleId t _ todo done rfl
  cases step_cases taken with
  | start start _ label => cases start <;> cases label
  | worker ran =>
    rw [at_, workerStep] at ran
    obtain ⟨moved, handled, rfl⟩ := Option.map_eq_some_iff.mp ran
    cases handled
    have ends : (pure result : Program (Option (List Unsold))).advance plan
        (s.env (.handler w) t choice) s.now s.server (.handler w) =
          some (.returned result, s.server.commit (.handler w)) := rfl
    exact (knows.returns ends).1

/-- The transaction that a step commits does the same alone, on the rows committed before it. By
cases on who commits. -/
theorem step_serial (inv : Committing cfg s) (timing : Timing cfg trace s)
    (forward : ∀ p ∈ trace, p.1.clock ≤ s.clock) (taken : step cfg s l = some s') {commit : Commit}
    (committing : s.committing l = some commit)
    (happened : Atomic cfg s.server.db commit s'.server.db)
    (current : commit.Current s.server.db) :
    commit.Serial cfg (trace ++ [(s, l)]) s.server.db s'.server.db := by
  have now : (s, l) ∈ trace ++ [(s, l)] := List.mem_append_right _ List.mem_cons_self
  have coherent := inv.processing.coherent
  have conforms := inv.upheld.met
  have conforms' := (inv.step taken).upheld.met
  cases commit with
  | purchased args result =>
    cases happened with
    | purchased found spec =>
      obtain ⟨order, opens, closes, asked, dated, opened, own, timely, still⟩ :=
        timing.commits forward committing
      have seen : opened ∈ trace ++ [(s, l)] := timely.sequence.subset (by simp)
      exact spec.serial conforms conforms' seen own timely.opened still
  | created input result =>
    cases happened with
    | created found spec => exact spec.serial conforms conforms' now
  | registered identifier passwordHash otp user =>
    cases happened with
    | registered found spec => exact spec.serial conforms' now
  | resent user identifier otp =>
    cases happened with
    | resent found spec => exact spec.serial now
  | account change =>
    cases happened with
    | account spec => exact spec.serial conforms conforms' now
  | settled saleId started result =>
    have spec := step_settled inv.processing taken committing
    refine spec.serial conforms conforms' (fun items is => ?_) now
    subst is
    exact current
  | otpSent otpId =>
    generalize s'.server.db = db' at happened
    cases happened with
    | otpSent found => exact sent_serial found now
  | ticked lines =>
    obtain ⟨w, started, at_⟩ := committing_ticked committing
    have safe := coherent.workers w
    rw [at_] at safe
    have claimed : TickStage.claimed (.next [] lines) = lines.map Line.claimed := List.append_nil _
    have event := (inv.recorded w started true _ at_).resolve_left (by simp)
    have batch := inv.batches w started _ event
    rw [claimed] at batch
    cases happened with
    | ticked spec =>
      have isDue : ∀ c ∈ lines.map Line.claimed, c.row.visibleAt * 1000 ≤ started := fun c mem =>
        (safe.1.due c (claimed ▸ mem)).2
      exact spec.serial conforms' batch isDue now

/-! ### What settlements have read -/

/-- A commit leaves what is unsold in a sale, unless a unit of it is bought. -/
theorem Atomic.unsold_kept {db db' : Db} {commit : Commit} {saleId : Uuid}
    (happened : Atomic cfg db commit db') (there : ∃ sale, db.flashSales.get? saleId = some sale)
    (unbought : ∀ args result, commit = .purchased args result → ∀ item,
      db.flashSaleItems.get? args.saleItemId = some item → item.flashSaleId ≠ saleId) :
    (unsoldItems saleId db').Perm (unsoldItems saleId db) := by
  have same : ∀ id item, item.flashSaleId = saleId →
      (db'.flashSaleItems.get? id = some item ↔ db.flashSaleItems.get? id = some item) := by
    intro id item own
    cases happened with
    | @purchased _ args result found spec =>
      have other := unbought args result rfl found.item spec.item
      rw [spec.effect]
      show (db.flashSaleItems.modify _ _).get? id = _ ↔ _
      by_cases bought : args.saleItemId = id
      · subst bought
        rw [Table.get?_modify_self, spec.item]
        constructor <;> intro is <;> cases is <;> exact absurd own other
      · rw [Table.get?_modify_ne bought]
    | @created _ input result found spec =>
      obtain ⟨sale, there⟩ := there
      rw [spec.effect]
      refine ⟨fun after => ?_, Table.get?_insertAll_of_some⟩
      rcases Table.get?_insertAll_cases after with old | new
      · exact old
      · obtain ⟨line, -, is⟩ := List.mem_map.mp new
        cases is
        have new : result.sale = saleId := own
        rw [← new, spec.sale_fresh] at there
        cases there
    | registered _ spec => rw [spec.effect]
    | resent _ spec => rw [spec.effect]
    | account spec => rw [spec.effect, AccountChange.apply_flashSaleItems]
    | settled spec =>
      cases spec with
      | skipped _ => rfl
      | settled _ _ _ effect => rw [effect]
    | otpSent _ => rfl
    | ticked spec => rw [spec.effect]
  refine List.Perm.map _ ((List.perm_ext_iff_of_nodup (.of_map _ (Table.select_nodup _ _))
    (.of_map _ (Table.select_nodup _ _))).mpr fun p => ?_)
  rw [Table.mem_select, Table.mem_select]
  simp only [Bool.and_eq_true, decide_eq_true_eq]
  constructor
  · rintro ⟨found, own, some_⟩
    exact ⟨(same _ _ own).mp found, own, some_⟩
  · rintro ⟨found, own, some_⟩
    exact ⟨(same _ _ own).mpr found, own, some_⟩

theorem Undisturbed.rereads (undisturbed : Undisturbed s l)
    (settles : SettlesAs (StillUnsold s.server.db) s) (coherent : Coherent cfg s)
    (taken : FlashSale.step cfg s l = some s') : SettlesAs (StillUnsold s'.server.db) s' := by
  refine settles.step coherent taken ?_ ?_
  · intro saleId items same read
    rw [same]
    exact read
  · rintro w saleId t body items at_ past there known
    rcases step_atomic coherent taken with ⟨-, same⟩ | ⟨commit, committing, happened⟩
    · rw [same]
      exact known
    · refine List.Perm.trans known (happened.unsold_kept there ?_).symm
      rintro args result rfl item found rfl
      have before := (undisturbed args result committing item found).2 w t body at_
      rw [past] at before
      cases before

end Steps

/-! ### Runs -/

section Runs

variable {cfg : Cfg} {start s : State} {trace : List (State × Label)}

theorem Committing.init (fresh : Fresh start) (empty : NoEvents start.server.db)
    (conforms : start.server.db.Conforms) : Committing cfg start := by
  refine ⟨(Causing.init fresh empty).processing, fresh.upheld conforms,
    fun w started alive stage at_ => ?_, fun w started rows mem => ?_⟩
  · rw [fresh.workers w] at at_
    cases at_
  · rw [fresh.history] at mem
    cases mem

/-- What a step commits, it commits as its transaction does alone. -/
theorem Committing.commits {s s' : State} {l : Label} (inv : Committing cfg s)
    (timing : Timing cfg trace s ∧ ∀ p ∈ trace, p.1.clock ≤ s.clock)
    (taken : FlashSale.step cfg s l = some s') :
    (s'.server.db = s.server.db ∧ FlashSale.commits s'.history = FlashSale.commits s.history) ∨
    ∃ commit, s.committing l = some commit ∧
      (commit.Current s.server.db →
        commit.Serial cfg (trace ++ [(s, l)]) s.server.db s'.server.db) ∧
      FlashSale.commits s'.history = FlashSale.commits s.history ++ [commit] := by
  rcases step_atomic inv.processing.coherent taken with ⟨none, same⟩ | ⟨commit, committing, happened⟩
  · refine Or.inl ⟨same, ?_⟩
    rw [step_commits taken, none]
    exact List.append_nil _
  · refine Or.inr ⟨commit, committing, step_serial inv timing.1 timing.2 taken committing happened, ?_⟩
    rw [step_commits taken, committing]
    rfl

/-- Every commit is serial if it was current: only a settlement can be out of date. -/
theorem Run.serial_of_current (fresh : Fresh start) (init : Committing cfg start)
    (run : Run cfg start trace s) :
    Lib.Chain (fun db commit db' => commit.Current db → commit.Serial cfg trace db db')
      start.server.db (commits s.history) s.server.db := by
  induction run with
  | nil =>
    rw [fresh.history]
    exact .nil
  | @snoc trace s s' l before taken ih =>
    have inv : Committing cfg s := before.invariant init fun _ _ _ inv taken => inv.step taken
    have earlier : Lib.Chain
        (fun db commit db' => commit.Current db → commit.Serial cfg (trace ++ [(s, l)]) db db')
        start.server.db (FlashSale.commits s.history) s.server.db :=
      ih.imp fun _ _ _ serial current => (serial current).later
    rcases inv.commits (Run.timing fresh before) taken with ⟨same, quiet⟩ | ⟨commit, -, serial, more⟩
    · rw [same, quiet]
      exact earlier
    · rw [more]
      exact earlier.snoc serial

/-- Where no purchase disturbs a settlement, every commit is. -/
theorem Run.serial_of_undisturbed (fresh : Fresh start) (init : Committing cfg start)
    (run : Run cfg start trace s) (undisturbed : ∀ p ∈ trace, Undisturbed p.1 p.2) :
    Lib.Chain (Commit.Serial cfg trace) start.server.db (commits s.history) s.server.db := by
  have kept : Committing cfg s ∧ SettlesAs (StillUnsold s.server.db) s ∧
      Lib.Chain (Commit.Serial cfg trace) start.server.db (commits s.history) s.server.db := by
    induction run with
    | nil => exact ⟨init, fresh.settlesAs _, by rw [fresh.history]; exact .nil⟩
    | @snoc trace s s' l before taken ih =>
      obtain ⟨inv, reads, chain⟩ := ih fun p mem => undisturbed p (List.mem_append_left _ mem)
      have earlier : Lib.Chain (Commit.Serial cfg (trace ++ [(s, l)])) start.server.db
          (FlashSale.commits s.history) s.server.db := chain.imp fun _ _ _ serial => serial.later
      have alone : Undisturbed s l := undisturbed (s, l) (by simp)
      refine ⟨inv.step taken, alone.rereads reads inv.processing.coherent taken, ?_⟩
      rcases inv.commits (Run.timing fresh before) taken with
        ⟨same, quiet⟩ | ⟨commit, committing, serial, more⟩
      · rw [same, quiet]
        exact earlier
      · rw [more]
        refine earlier.snoc (serial ?_)
        cases commit with
        | settled saleId started result =>
          cases result with
          | none => trivial
          | some items => exact reads.committed committing
        | _ => trivial
  exact kept.2.2

/-- In every run, the committed transactions lead from the rows of the start to the rows at
the end when each is run alone, one after another in the order of their commits, with the
times that it has read in the run, and each returns what it has returned. It is so but for
settlements whose reading was out of date when they committed, and there are none where
no purchase disturbs a settlement. -/
theorem Run.serializable (fresh : Fresh start) (empty : NoEvents start.server.db)
    (conforms : start.server.db.Conforms) (run : Run cfg start trace s) :
    Lib.Chain (fun db commit db' => commit.Current db → commit.Serial cfg trace db db')
      start.server.db (commits s.history) s.server.db ∧
    ((∀ p ∈ trace, Undisturbed p.1 p.2) →
      Lib.Chain (Commit.Serial cfg trace) start.server.db (commits s.history) s.server.db) := by
  have init : Committing cfg start := .init fresh empty conforms
  exact ⟨run.serial_of_current fresh init, run.serial_of_undisturbed fresh init⟩

theorem tradeDb_conforms : tradeDb.Conforms :=
  { bareDb_conforms with
    products := by
      intro id row found
      obtain ⟨-, rfl⟩ := Table.only found
      exact ⟨by decide, rfl⟩
    itemProducts := by
      intro id row found
      cases found }

/-- A creation, a purchase and a registration whose statements interleave, a settlement,
and a tick. -/
theorem serializable_trading :
    ∃ s, Run plainCfg tradeShop (Lib.traceOf (step plainCfg) tradeShop trading) s ∧
      (commits s.history).length = 6 ∧
      Lib.Chain (Commit.Serial plainCfg (Lib.traceOf (step plainCfg) tradeShop trading)) tradeDb
        (commits s.history) s.server.db := by
  have run := Lib.Run.of_isSome trading_runs
  have empty : NoEvents tradeDb :=
    ⟨fun _ => rfl, fun _ => rfl, fun _ => rfl, fun _ => rfl, fun _ => rfl⟩
  have serializable := Run.serializable (State.initial_fresh _ _ _) empty tradeDb_conforms run
  exact ⟨_, run, by decide +kernel, serializable.2 trading_undisturbed⟩

end Runs

end FlashSale
