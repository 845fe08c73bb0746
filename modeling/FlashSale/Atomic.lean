/-
# The abstract system

What the service does when every transaction happens at once: a step is one
commit, and it relates the committed rows before and after. The running system,
with its statements, locks, waits and aborts, refines this one
(`Run.commits_chain` in the next module), so whatever holds along every chain of
`Atomic` steps holds in every reachable committed state.

Each transaction has a relation for its commit, such as `PurchaseCommits`, which the module
of the transaction proves from its statements. Here these are put together, and what
most invariants need is read off once: which tables a commit leaves alone, and how the rows
of the others change.
-/
import FlashSale.System

namespace FlashSale

open Lib (Table)

/-- The change of one line of a tick, under the number of its row. -/
def Line.update (cfg : Cfg) (line : Line) : Nat × (OutboxRow → OutboxRow) :=
  (line.claimed.id, (line.change cfg).apply)

/-- One committed tick: every claimed row is as it was claimed, and each line
changes its own row. -/
structure TickCommits (cfg : Cfg) (lines : List Line) (db db' : Db) : Prop where
  claimed : ∀ line ∈ lines, db.outbox.get? line.claimed.id = some line.claimed.row
  nodup : (lines.map fun line => line.claimed.id).Nodup
  pending : ∀ line ∈ lines, line.claimed.row.status = .pending
  effect : db' = { db with outbox := db.outbox.modifyAll (lines.map (Line.update cfg)) }

section Ticks

variable {cfg : Cfg} {lines : List Line} {db db' : Db}

theorem Line.update_keys : (lines.map (Line.update cfg)).map Prod.fst =
    lines.map fun line => line.claimed.id := by
  rw [List.map_map]
  rfl

/-- The row of a line after a tick. -/
theorem TickCommits.changed (spec : TickCommits cfg lines db db') {line : Line}
    (mem : line ∈ lines) :
    db'.outbox.get? line.claimed.id = some ((line.change cfg).apply line.claimed.row) := by
  rw [spec.effect]
  show (db.outbox.modifyAll _).get? _ = _
  rw [Table.get?_modifyAll_of_mem (Line.update_keys ▸ spec.nodup) (List.mem_map.mpr ⟨line, mem, rfl⟩),
    spec.claimed line mem]
  rfl

/-- A row without a line after a tick. -/
theorem TickCommits.unchanged (spec : TickCommits cfg lines db db') {id : Nat}
    (other : ∀ line ∈ lines, line.claimed.id ≠ id) : db'.outbox.get? id = db.outbox.get? id := by
  have absent : id ∉ (lines.map (Line.update cfg)).map Prod.fst := by
    rw [Line.update_keys, List.mem_map]
    rintro ⟨line, mem, same⟩
    exact other line mem same
  rw [spec.effect]
  exact Table.get?_modifyAll_of_notMem absent

/-- A row after a tick is that of a line, changed as the line says, or is none of
the tick's and as it was. -/
theorem TickCommits.row_cases (spec : TickCommits cfg lines db db') {id : Nat} {row' : OutboxRow}
    (found : db'.outbox.get? id = some row') :
    (∃ line ∈ lines, line.claimed.id = id ∧ db.outbox.get? id = some line.claimed.row ∧
      row' = (line.change cfg).apply line.claimed.row) ∨
    (db.outbox.get? id = some row' ∧ ∀ line ∈ lines, line.claimed.id ≠ id) := by
  by_cases mine : ∃ line ∈ lines, line.claimed.id = id
  · obtain ⟨line, mem, rfl⟩ := mine
    rw [spec.changed mem] at found
    exact Or.inl ⟨line, mem, rfl, spec.claimed line mem, (Option.some.inj found).symm⟩
  · have other : ∀ line ∈ lines, line.claimed.id ≠ id := fun line mem same => mine ⟨line, mem, same⟩
    rw [spec.unchanged other] at found
    exact Or.inr ⟨found, other⟩

/-- A row that was there is there after a tick, with its event. -/
theorem TickCommits.row_kept (spec : TickCommits cfg lines db db') {id : Nat} {row : OutboxRow}
    (found : db.outbox.get? id = some row) :
    ∃ row', db'.outbox.get? id = some row' ∧ row'.event = row.event := by
  by_cases mine : ∃ line ∈ lines, line.claimed.id = id
  · obtain ⟨line, mem, rfl⟩ := mine
    rw [spec.claimed line mem] at found
    cases found
    exact ⟨_, spec.changed mem, OutboxChange.apply_event _ _⟩
  · refine ⟨row, ?_, rfl⟩
    rw [spec.unchanged fun line mem same => mine ⟨line, mem, same⟩, found]

end Ticks

/-- One commit, as a step on the committed rows. What the transaction found and stamped is
bound inside, so that invariants of the rows need no run. -/
inductive Atomic (cfg : Cfg) : Db → Commit → Db → Prop where
  | purchased {db db' : Db} {args : PurchaseArgs} {result : PurchaseResult} (found : PurchaseFound)
      (spec : PurchaseCommits args found result db db') :
      Atomic cfg db (.purchased args result) db'
  | created {db db' : Db} {input : CreateSaleInput} {result : CreatedSale} (found : CreateFound)
      (spec : CreateCommits input found result db db') : Atomic cfg db (.created input result) db'
  | registered {db db' : Db} {identifier : NormalizedIdentifier} {passwordHash : String}
      {otp : PreparedOtp} {user : Uuid} (found : OtpFound)
      (spec : RegisterCommits identifier passwordHash otp found user db db') :
      Atomic cfg db (.registered identifier passwordHash otp user) db'
  | resent {db db' : Db} {user : Uuid} {identifier : NormalizedIdentifier} {otp : PreparedOtp}
      (found : OtpFound) (spec : ResendCommits user identifier otp found db db') :
      Atomic cfg db (.resent user identifier otp) db'
  | account {db db' : Db} {change : AccountChange} (spec : AccountCommits change db db') :
      Atomic cfg db (.account change) db'
  | settled {db db' : Db} {saleId : Uuid} {started : Int} {result : Option (List Unsold)}
      (spec : SettleCommits saleId started False result db db') :
      Atomic cfg db (.settled saleId started result) db'
  | otpSent {db : Db} {otpId : Uuid} {row : OtpRow} (found : db.otpCodes.get? otpId = some row) :
      Atomic cfg db (.otpSent otpId) { db with
        otpCodes := db.otpCodes.modify otpId fun o => { o with sent := true } }
  | ticked {db db' : Db} {lines : List Line} (spec : TickCommits cfg lines db db') :
      Atomic cfg db (.ticked lines) db'

/-- A sale stays, with its window, and a settled one as it is. -/
theorem Atomic.sale_kept {cfg : Cfg} {db db' : Db} {commit : Commit}
    (happened : Atomic cfg db commit db') {id : Uuid} {row : SaleRow}
    (found : db.flashSales.get? id = some row) :
    ∃ row', db'.flashSales.get? id = some row' ∧ row'.startsAt = row.startsAt ∧
      row'.endsAt = row.endsAt ∧ (row.settledAt ≠ none → row'.settledAt = row.settledAt) := by
  cases happened with
  | purchased _ spec => rw [spec.effect]; exact ⟨row, found, rfl, rfl, fun _ => rfl⟩
  | created _ spec =>
    rw [spec.effect]
    exact ⟨row, Table.get?_insert_of_some found, rfl, rfl, fun _ => rfl⟩
  | registered _ spec => rw [spec.effect]; exact ⟨row, found, rfl, rfl, fun _ => rfl⟩
  | resent _ spec => rw [spec.effect]; exact ⟨row, found, rfl, rfl, fun _ => rfl⟩
  | account spec => rw [spec.effect]; exact ⟨row, by simpa using found, rfl, rfl, fun _ => rfl⟩
  | otpSent _ => exact ⟨row, found, rfl, rfl, fun _ => rfl⟩
  | ticked spec => rw [spec.effect]; exact ⟨row, found, rfl, rfl, fun _ => rfl⟩
  | @settled _ saleId started result spec =>
    cases spec with
    | skipped _ => exact ⟨row, found, rfl, rfl, fun _ => rfl⟩
    | settled there open_ _ effect =>
      rw [effect]
      by_cases same : saleId = id
      · subst same
        rw [there] at found
        cases found
        exact ⟨{ row with settledAt := some (toColumn started) }, by simp [Table.get?_modify, there],
          rfl, rfl, fun settled => absurd open_ settled⟩
      · exact ⟨row, (Table.get?_modify_ne same).trans found, rfl, rfl, fun _ => rfl⟩

/-- A code stays, and one that is sent stays sent. -/
theorem Atomic.otp_kept {cfg : Cfg} {db db' : Db} {commit : Commit}
    (happened : Atomic cfg db commit db') {id : Uuid} {otp : OtpRow}
    (found : db.otpCodes.get? id = some otp) :
    ∃ otp', db'.otpCodes.get? id = some otp' ∧ (otp.sent = true → otp'.sent = true) := by
  cases happened with
  | purchased _ spec => rw [spec.effect]; exact ⟨otp, found, fun sent => sent⟩
  | created _ spec => rw [spec.effect]; exact ⟨otp, found, fun sent => sent⟩
  | registered _ spec =>
    rw [spec.effect]
    exact ⟨otp, Table.get?_insert_of_some found, fun sent => sent⟩
  | resent _ spec =>
    rw [spec.effect]
    exact ⟨otp, Table.get?_insert_of_some found, fun sent => sent⟩
  | account spec =>
    rw [spec.effect, AccountChange.apply_otpCodes, found]
    exact ⟨_, rfl, fun sent => sent⟩
  | settled spec =>
    cases spec with
    | skipped _ => exact ⟨otp, found, fun sent => sent⟩
    | settled _ _ _ effect => rw [effect]; exact ⟨otp, found, fun sent => sent⟩
  | otpSent _ => exact ⟨_, Table.get?_modify_of_some found, fun sent => by split <;> simp [sent]⟩
  | ticked spec => rw [spec.effect]; exact ⟨otp, found, fun sent => sent⟩

/-- A purchase stays as it is. -/
theorem Atomic.purchase_kept {cfg : Cfg} {db db' : Db} {commit : Commit}
    (happened : Atomic cfg db commit db') {id : Uuid} {row : PurchaseRow}
    (found : db.purchases.get? id = some row) : db'.purchases.get? id = some row := by
  cases happened with
  | purchased _ spec => rw [spec.effect]; exact Table.get?_insert_of_some found
  | created _ spec => rw [spec.effect]; exact found
  | registered _ spec => rw [spec.effect]; exact found
  | resent _ spec => rw [spec.effect]; exact found
  | account spec => rw [spec.effect]; simpa using found
  | settled spec =>
    cases spec with
    | skipped _ => exact found
    | settled _ _ _ effect => rw [effect]; exact found
  | otpSent _ => exact found
  | ticked spec => rw [spec.effect]; exact found

/-- A purchase after a commit was there before, or is the one that commits. -/
theorem Atomic.purchase_cases {cfg : Cfg} {db db' : Db} {commit : Commit}
    (happened : Atomic cfg db commit db') {id : Uuid} {row : PurchaseRow}
    (found : db'.purchases.get? id = some row) : db.purchases.get? id = some row ∨
      ∃ args of result, commit = .purchased args result ∧ PurchaseCommits args of result db db' ∧
        id = result.purchaseId ∧ row = ⟨args.userId, args.saleItemId, args.day, of.item.priceCents,
          args.idempotencyKey, of.createdAt⟩ := by
  cases happened with
  | @purchased _ args result of spec =>
    have inserted := found
    rw [spec.effect] at inserted
    rcases Table.get?_insert_cases inserted with old | ⟨rfl, rfl⟩
    · exact Or.inl old
    · exact Or.inr ⟨args, of, result, rfl, spec, rfl, rfl⟩
  | created _ spec => rw [spec.effect] at found; exact Or.inl found
  | registered _ spec => rw [spec.effect] at found; exact Or.inl found
  | resent _ spec => rw [spec.effect] at found; exact Or.inl found
  | account spec => rw [spec.effect] at found; exact Or.inl (by simpa using found)
  | settled spec =>
    cases spec with
    | skipped _ => exact Or.inl found
    | settled _ _ _ effect => rw [effect] at found; exact Or.inl found
  | otpSent _ => exact Or.inl found
  | ticked spec => rw [spec.effect] at found; exact Or.inl found

/-- A row of the outbox stays, with its event, and one that is not pending as it is. -/
theorem Atomic.row_kept {cfg : Cfg} {db db' : Db} {commit : Commit}
    (happened : Atomic cfg db commit db') {id : Nat} {row : OutboxRow}
    (found : db.outbox.get? id = some row) :
    ∃ row', db'.outbox.get? id = some row' ∧ row'.event = row.event ∧
      (row.status ≠ .pending → row' = row) := by
  cases happened with
  | purchased _ spec =>
    rw [spec.effect]
    exact ⟨row, Table.get?_insert_of_some found, rfl, fun _ => rfl⟩
  | created _ spec =>
    rw [spec.effect]
    exact ⟨row, Table.get?_insert_of_some (Table.get?_insert_of_some found), rfl, fun _ => rfl⟩
  | registered _ spec =>
    rw [spec.effect]
    exact ⟨row, Table.get?_insert_of_some found, rfl, fun _ => rfl⟩
  | resent _ spec =>
    rw [spec.effect]
    exact ⟨row, Table.get?_insert_of_some found, rfl, fun _ => rfl⟩
  | account spec => rw [spec.effect]; exact ⟨row, by simpa using found, rfl, fun _ => rfl⟩
  | settled spec =>
    cases spec with
    | skipped _ => exact ⟨row, found, rfl, fun _ => rfl⟩
    | settled _ _ _ effect => rw [effect]; exact ⟨row, found, rfl, fun _ => rfl⟩
  | otpSent _ => exact ⟨row, found, rfl, fun _ => rfl⟩
  | ticked spec =>
    obtain ⟨row', found', event⟩ := spec.row_kept found
    refine ⟨row', found', event, fun final => ?_⟩
    rcases spec.row_cases found' with ⟨line, mem, rfl, there, -⟩ | ⟨there, -⟩
    · rw [found] at there
      cases there
      exact absurd (spec.pending line mem) final
    · exact Option.some.inj (there.symm.trans found)

/-- A row after a commit was there before, or is new and due as its event asks, or
is that of a line of a tick. -/
theorem Atomic.row_cases {cfg : Cfg} {db db' : Db} {commit : Commit}
    (happened : Atomic cfg db commit db') {id : Nat} {row' : OutboxRow}
    (found : db'.outbox.get? id = some row') :
    db.outbox.get? id = some row' ∨
    (row'.status = .pending ∧ ∀ saleId, row'.event = .flashSaleSettle saleId →
      ∃ sale, db'.flashSales.get? saleId = some sale ∧ row'.visibleAt = sale.endsAt) ∨
    ∃ lines, ∃ line ∈ lines, commit = .ticked lines ∧
      db.outbox.get? id = some line.claimed.row ∧ row' = (line.change cfg).apply line.claimed.row := by
  cases happened with
  | purchased _ spec =>
    rw [spec.effect] at found
    rcases Table.get?_insert_cases found with old | ⟨-, rfl⟩
    · exact Or.inl old
    · exact Or.inr (Or.inl ⟨rfl, fun _ eq => by cases eq⟩)
  | created _ spec =>
    rw [spec.effect] at found
    rcases Table.get?_insert_cases found with found | ⟨-, rfl⟩
    · rcases Table.get?_insert_cases found with old | ⟨-, rfl⟩
      · exact Or.inl old
      · exact Or.inr (Or.inl ⟨rfl, fun _ eq => by cases eq⟩)
    · refine Or.inr (Or.inl ⟨rfl, fun saleId eq => ?_⟩)
      cases eq
      rw [spec.effect]
      exact ⟨_, Table.get?_insert_self spec.sale_fresh, rfl⟩
  | registered _ spec =>
    rw [spec.effect] at found
    rcases Table.get?_insert_cases found with old | ⟨-, rfl⟩
    · exact Or.inl old
    · exact Or.inr (Or.inl ⟨rfl, fun _ eq => by cases eq⟩)
  | resent _ spec =>
    rw [spec.effect] at found
    rcases Table.get?_insert_cases found with old | ⟨-, rfl⟩
    · exact Or.inl old
    · exact Or.inr (Or.inl ⟨rfl, fun _ eq => by cases eq⟩)
  | account spec => rw [spec.effect] at found; exact Or.inl (by simpa using found)
  | settled spec =>
    cases spec with
    | skipped _ => exact Or.inl found
    | settled _ _ _ effect => rw [effect] at found; exact Or.inl found
  | otpSent _ => exact Or.inl found
  | @ticked _ lines spec =>
    rcases spec.row_cases found with ⟨line, mem, -, there, rfl⟩ | ⟨there, -⟩
    · exact Or.inr (Or.inr ⟨lines, line, mem, rfl, there, rfl⟩)
    · exact Or.inl there

/-- A settled sale was settled before, or is settled by the commit. -/
theorem Atomic.settled_cases {cfg : Cfg} {db db' : Db} {commit : Commit}
    (happened : Atomic cfg db commit db') {id : Uuid} {sale' : SaleRow} {t : Int}
    (found : db'.flashSales.get? id = some sale') (settled : sale'.settledAt = some t) :
    db.flashSales.get? id = some sale' ∨
    ∃ sale started result, db.flashSales.get? id = some sale ∧ sale.endsAt = sale'.endsAt ∧
      commit = .settled id started result ∧ t = toColumn started := by
  cases happened with
  | purchased _ spec => rw [spec.effect] at found; exact Or.inl found
  | created _ spec =>
    rw [spec.effect] at found
    rcases Table.get?_insert_cases found with old | ⟨-, rfl⟩
    · exact Or.inl old
    · cases settled
  | registered _ spec => rw [spec.effect] at found; exact Or.inl found
  | resent _ spec => rw [spec.effect] at found; exact Or.inl found
  | account spec => rw [spec.effect] at found; exact Or.inl (by simpa using found)
  | otpSent _ => exact Or.inl found
  | ticked spec => rw [spec.effect] at found; exact Or.inl found
  | @settled _ saleId started result spec =>
    cases spec with
    | skipped _ => exact Or.inl found
    | settled there _ _ effect =>
      rw [effect] at found
      by_cases same : saleId = id
      · subst same
        rw [Table.get?_modify_self, there] at found
        cases found
        cases settled
        exact Or.inr ⟨_, started, _, there, rfl, rfl, rfl⟩
      · rw [Table.get?_modify_ne same] at found
        exact Or.inl found

/-! ### Which steps commit -/

/-- The transaction that the next step of an auth call commits. -/
def AuthCall.committing (db : Db) : AuthCall → Option Commit
  | .verifyCount _ otpId =>
    match db.otpCodes.get? otpId with
    | some otp => if int4 (otp.attempts + 1) then some (.account (.attempted otpId)) else none
    | none => none
  | .disabling user => (db.users.get? user).map fun _ => .account (.disabled user)
  | _ => none

/-- The transaction that the next step of a client commits. -/
def Client.committing (db : Db) : Client → Option Commit
  | .tx job _ (.pure result) => some (job.commit result)
  | .auth call => call.committing db
  | _ => none

/-- The transaction that the next step of a handler call commits. -/
def Delivery.committing (db : Db) : Delivery → Option Commit
  | .otpMark otpId => (db.otpCodes.get? otpId).map fun _ => .otpSent otpId
  | .settleTx saleId started (.pure result) => some (.settled saleId started result)
  | _ => none

/-- The transaction that the next step of a worker commits. -/
def Worker.committing (db : Db) : Worker → Option Commit
  | .polling _ true (.next [] done) => some (.ticked done)
  | .polling _ _ (.deliver _ delivery _ _) => delivery.committing db
  | _ => none

/-- The transaction that a step with this label commits. -/
def State.committing (s : State) : Label → Option Commit
  | .client n _ => (s.clients n).committing s.server.db
  | .worker w _ => (s.workers w).committing s.server.db
  | _ => none

/-- Who commits what: the transaction of a client at its end, a single statement, which commits
by itself, the transaction of a handler, and that of a tick. -/
inductive Committer (s : State) : Label → Commit → Prop where
  | client {n : Nat} {choice : Choice} {job : Job} {started : Int} {result : job.Result}
      (at_ : s.clients n = .tx job started (.pure result)) :
      Committer s (.client n choice) (job.commit result)
  | counts {n : Nat} {choice : Choice} {dto : VerifyOtpDto} {otpId : Uuid}
      (at_ : s.clients n = .auth (.verifyCount dto otpId)) :
      Committer s (.client n choice) (.account (.attempted otpId))
  | disables {n : Nat} {choice : Choice} {user : Uuid}
      (at_ : s.clients n = .auth (.disabling user)) :
      Committer s (.client n choice) (.account (.disabled user))
  | marks {w : Nat} {choice : Choice} {started : Int} {alive : Bool} {row : ClaimedRow}
      {otpId : Uuid} {todo : List ClaimedRow} {done : List Line}
      (at_ : s.workers w = .polling started alive (.deliver row (.otpMark otpId) todo done)) :
      Committer s (.worker w choice) (.otpSent otpId)
  | settles {w : Nat} {choice : Choice} {started : Int} {alive : Bool} {row : ClaimedRow}
      {saleId : Uuid} {t : Int} {result : Option (List Unsold)} {todo : List ClaimedRow}
      {done : List Line}
      (at_ : s.workers w =
        .polling started alive (.deliver row (.settleTx saleId t (.pure result)) todo done)) :
      Committer s (.worker w choice) (.settled saleId t result)
  | ticks {w : Nat} {choice : Choice} {started : Int} {lines : List Line}
      (at_ : s.workers w = .polling started true (.next [] lines)) :
      Committer s (.worker w choice) (.ticked lines)

theorem committing_cases {s : State} {l : Label} {commit : Commit}
    (committing : s.committing l = some commit) : Committer s l commit := by
  cases l with
  | client n choice =>
    dsimp only [State.committing] at committing
    cases client : s.clients n with
    | auth call =>
      rw [client] at committing
      cases call with
      | verifyCount dto otpId =>
        dsimp only [Client.committing, AuthCall.committing] at committing
        split at committing
        · split at committing <;> cases committing
          exact .counts client
        · cases committing
      | disabling user =>
        obtain ⟨_, _, rfl⟩ := Option.map_eq_some_iff.mp committing
        exact .disables client
      | _ => cases committing
    | tx job started body =>
      rw [client] at committing
      cases body with
      | pure result =>
        cases committing
        exact .client client
      | _ => cases committing
    | _ => rw [client] at committing; cases committing
  | worker w choice =>
    dsimp only [State.committing] at committing
    cases worker : s.workers w with
    | idle => rw [worker] at committing; cases committing
    | polling started alive stage =>
      rw [worker] at committing
      cases stage with
      | deliver row delivery todo done =>
        have inner : delivery.committing s.server.db = some commit := by
          cases alive <;> exact committing
        cases delivery with
        | settleTx saleId t body =>
          cases body with
          | pure result =>
            cases inner
            exact .settles worker
          | _ => cases inner
        | otpMark otpId =>
          obtain ⟨_, _, rfl⟩ := Option.map_eq_some_iff.mp inner
          exact .marks worker
        | _ => cases inner
      | next todo lines =>
        cases alive <;> cases todo <;> cases committing
        exact .ticks worker
      | _ => cases alive <;> cases committing
  | _ => cases committing

/-- A step that commits a tick is that of a worker that has recorded all it claimed. -/
theorem committing_ticked {s : State} {l : Label} {lines : List Line}
    (committing : s.committing l = some (.ticked lines)) :
    ∃ w started, s.workers w = .polling started true (.next [] lines) := by
  generalize ticked : Commit.ticked lines = commit at committing
  cases committing_cases committing with
  | @client n choice job started result at_ => cases job <;> cases ticked
  | counts at_ => cases ticked
  | disables at_ => cases ticked
  | marks at_ => cases ticked
  | settles at_ => cases ticked
  | ticks at_ =>
    cases ticked
    exact ⟨_, _, at_⟩

/-- What the commits of one step of the system, at most one, do to the rows. A step without a
commit leaves the committed rows as they are. -/
def Effects (cfg : Cfg) (db : Db) (done : List Commit) (db' : Db) : Prop :=
  (done = [] ∧ db' = db) ∨ ∃ commit, done = [commit] ∧ Atomic cfg db commit db'

end FlashSale
