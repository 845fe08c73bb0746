/-
# The write transactions of the API do not deadlock

Purchases, registrations, resends, verifications and counts of wrong codes, any number
of each at once, with their statements taking one lock at a time. `Target.rank` is the
order in which all of them take their locks: a purchase the item and then the user, a
verification the code and then the user, a new code its entry and then its user, and
the entries of new purchases and outbox rows last.

Entries of unique indexes are locks here: an `INSERT` waits for another session that has
entered the same key and is open. Whether it waits depends on the rows, so each
transaction is shown to climb in the order whatever its statements find (`Tx.Climbs`), and
`Contention.run_acyclic` does the rest.

* `Api.no_deadlock`: in no reachable state do transactions wait for one another in a
  cycle.
-/
import FlashSale.RowLocks

namespace FlashSale

open Lib (Table Lock LockMode Outcome Tx Ascends Circumstances Contention Turn)

/-! ### The order -/

/-- The order of the locks: the entries of new users and codes, then codes, items and users, and
at the end the entries of new purchases and events. -/
def Target.rank : Target → Nat
  | .entry (.user _) => 0
  | .entry (.userEmail _) => 1
  | .entry (.userPhone _) => 2
  | .entry (.otpCode _) => 3
  | .row (.otpCode _) => 4
  | .row (.flashSaleItem _) => 5
  | .row (.user _) => 6
  | .entry (.purchase _) => 7
  | .entry (.idempotencyKey _) => 8
  | .entry (.userDay _ _) => 9
  | .entry (.outbox _) => 10
  | _ => 11

def Target.before (a b : Target) : Prop := a.rank < b.rank

/-! ### The transactions -/

/-- The transactions of the API, and the count of a wrong code, which is a transaction
of its own. -/
inductive ApiTx where
  | purchase (args : PurchaseArgs)
  | register (identifier : NormalizedIdentifier) (passwordHash : String) (otp : PreparedOtp)
  | resend (user : Uuid) (identifier : NormalizedIdentifier) (otp : PreparedOtp)
  | verify (otpId user : Uuid)
  | attempt (otpId : Uuid)

def ApiTx.body : ApiTx → Program Unit
  | .purchase args => do
    let _ ← purchaseTx args.userId args.saleItemId args.idempotencyKey args.day
    pure ()
  | .register identifier passwordHash otp => do
    let _ ← registerTx identifier passwordHash otp
    pure ()
  | .resend user identifier otp => resendTx user identifier otp
  | .verify otpId user => verifyTx otpId user
  | .attempt otpId => run (.incrementAttempts otpId)

/-- Programs that take their locks in the order of their ranks, from locks surely held,
when nothing held has a rank of `k` or more. -/
def Climbs {α : Type} (body : Program α) (sure : List (Lock Target)) (k : Nat) : Prop :=
  ∀ may : List (Lock Target), (∀ held ∈ may, held.resource.rank < k) →
    body.Climbs covers (fun _ => True) Target.before
      (lockingUnder (fun _ => True) fun _ _ => True) sure may

/-- Locks that are covered, or rise from rank `k` and stay below `k'`. -/
def Rises (sure : List (Lock Target)) (k' : Nat) : Nat → List (Lock Target) → Prop
  | k, [] => k ≤ k'
  | k, l :: rest =>
    (k ≤ l.resource.rank ∧ Rises sure k' (l.resource.rank + 1) rest) ∨
      ((∃ held ∈ sure, covers held l = true) ∧ l.resource.rank < k ∧ Rises sure k' k rest)

section Outline

variable {α : Type} {sure may ls : List (Lock Target)} {k k' : Nat} {s : Stmt}
  {onError : DbError → Failure} {next : s.Result → Program α}

theorem Rises.le (rises : Rises sure k' k ls) :
    k ≤ k' ∧ ∀ l ∈ ls, l.resource.rank < k' := by
  induction ls generalizing k with
  | nil => exact ⟨rises, by simp⟩
  | cons l rest ih =>
    rcases rises with ⟨le, rises⟩ | ⟨-, lt, rises⟩
    · obtain ⟨bound, all⟩ := ih rises
      refine ⟨le_trans le (Nat.le_of_succ_le bound), ?_⟩
      intro a mem
      rcases List.mem_cons.mp mem with rfl | old
      · exact bound
      · exact all a old
    · obtain ⟨bound, all⟩ := ih rises
      refine ⟨bound, ?_⟩
      intro a mem
      rcases List.mem_cons.mp mem with rfl | old
      · exact lt_of_lt_of_le lt bound
      · exact all a old

theorem Rises.ascends {sure' : List (Lock Target)} (rises : Rises sure k' k ls)
    (more : ∀ l ∈ sure, l ∈ sure') (below : ∀ held ∈ may, held.resource.rank < k) :
    Ascends covers (fun _ => True) Target.before sure' may ls := by
  induction ls generalizing may sure' k with
  | nil => trivial
  | cons l rest ih =>
    have more' : ∀ a ∈ sure, a ∈ sure' ++ [l] := fun a mem => List.mem_append_left _ (more a mem)
    rcases rises with ⟨le, rises⟩ | ⟨⟨held, mem, by_⟩, lt, rises⟩
    · refine ⟨fun _ => Or.inr fun held mem _ => Or.inr (lt_of_lt_of_le (below held mem) le),
        ih rises more' ?_⟩
      intro a mem
      rcases List.mem_append.mp mem with old | new
      · exact Nat.lt_succ_of_lt (lt_of_lt_of_le (below a old) le)
      · rw [List.mem_singleton.mp new]
        exact Nat.lt_succ_self _
    · refine ⟨fun _ => Or.inl ⟨held, more held mem, by_⟩, ih rises more' ?_⟩
      intro a mem
      rcases List.mem_append.mp mem with old | new
      · exact below a old
      · rw [List.mem_singleton.mp new]
        exact lt

/-- A statement whose locks are kept in mind. -/
theorem Climbs.locking (k' : Nat) (waits : s.claims = false)
    (rises : ∀ env, Rises sure k' k (s.targets env))
    (rest : ∀ env db ws r, (plan s env db).answer = .ok (ws, r) →
      Climbs (next r) (sure ++ (plan s env db).locks.map s.target) k') :
    Climbs (Tx.statement s onError >>= next) sure k := by
  intro may below
  refine climbs_statement waits (fun env => (rises env).ascends (fun _ mem => mem) below) ?_
  intro env db ws r _ answer _
  apply rest env db ws r answer _
  intro held mem
  rcases List.mem_append.mp mem with old | new
  · exact lt_of_lt_of_le (below held old) (rises env).le.1
  · exact (rises env).le.2 held new

theorem Climbs.statement (k' : Nat) (waits : s.claims = false)
    (rises : ∀ env, Rises sure k' k (s.targets env)) (rest : ∀ r, Climbs (next r) sure k') :
    Climbs (Tx.statement s onError >>= next) sure k := by
  refine Climbs.locking k' waits rises fun env db ws r _ may below => ?_
  exact (rest r may below).weaken (fun _ mem => List.mem_append_left _ mem) fun _ mem => mem

theorem Climbs.clock {rest : Int → Program α} (climbs : ∀ now, Climbs (rest now) sure k) :
    Climbs (Tx.clock >>= rest) sure k :=
  fun may below now => climbs now may below

theorem Climbs.throw {e : Failure} : Climbs (.throw e : Program α) sure k := fun _ _ => trivial

theorem Climbs.pure {a : α} : Climbs (.pure a : Program α) sure k := fun _ _ => trivial

end Outline

section Programs

-- The locks of a given statement, and their ranks, are computed.
attribute [local simp] Rises Stmt.targets Stmt.locks Stmt.target Stmt.inserts Target.rank covers
  LockMode.covers

/-- The writes of a purchase, once both rows are locked. -/
theorem recordPurchase_climbs (userId saleItemId idempotencyKey : Uuid) (day : Day)
    (item : ItemWindow) : Climbs (recordPurchase userId saleItemId idempotencyKey day item)
      [⟨.row (.flashSaleItem saleItemId), .update⟩, ⟨.row (.user userId), .update⟩] 7 := by
  refine Climbs.statement 7 rfl (fun _ => ?_) fun _ => ?_
  · simp
  refine Climbs.statement 7 rfl (fun _ => ?_) fun _ => ?_
  · simp
  refine Climbs.statement 10 rfl (fun _ => ?_) fun _ => ?_
  · simp
  refine Climbs.statement 11 rfl (fun _ => ?_) fun _ => Climbs.pure
  simp

theorem purchaseTx_climbs (args : PurchaseArgs) :
    Climbs (purchaseTx args.userId args.saleItemId args.idempotencyKey args.day) [] 0 := by
  refine Climbs.statement 0 rfl (fun _ => Nat.le_refl 0) fun dup => ?_
  split
  · exact Climbs.throw
  refine Climbs.locking 6 rfl (fun _ => ?_) fun env db ws item got => ?_
  · simp
  cases item with
  | none => exact Climbs.throw
  | some item =>
    obtain ⟨-, locks, -⟩ := plan_selectItemForUpdate got
    rw [locks]
    refine Climbs.clock fun now => ?_
    split
    · exact Climbs.throw
    split
    · exact Climbs.throw
    refine Climbs.locking 7 rfl (fun _ => ?_) fun env db ws balance got => ?_
    · simp
    cases balance with
    | none => exact Climbs.throw
    | some balance =>
      obtain ⟨-, locks, -⟩ := plan_selectBalanceForUpdate got
      rw [locks]
      dsimp only
      split
      · exact Climbs.throw
      · exact recordPurchase_climbs args.userId args.saleItemId args.idempotencyKey args.day item

/-- A new code: its entry, its user, and then the outbox. -/
theorem issueOtp_climbs (user : Uuid) (identifier : NormalizedIdentifier) (otp : PreparedOtp) :
    Climbs (issueOtp user identifier otp) [] 3 := by
  refine Climbs.statement 7 rfl (fun _ => ?_) fun id => ?_
  · simp
  refine Climbs.statement 11 rfl (fun _ => ?_) fun _ => Climbs.pure
  simp

theorem Climbs.andThen {α β : Type} {sure : List (Lock Target)} {k : Nat} {body : Program α}
    (climbs : Climbs body sure k) (b : β) :
    Climbs (body >>= fun _ => Tx.pure b) sure k :=
  fun may below => (climbs may below).bind fun _ _ _ => trivial

theorem registerTx_climbs (identifier : NormalizedIdentifier) (passwordHash : String)
    (otp : PreparedOtp) : Climbs (registerTx identifier passwordHash otp) [] 0 := by
  refine Climbs.statement 3 rfl (fun _ => ?_) fun user => ?_
  · cases kind : identifier.kind <;>
      simp [NormalizedIdentifier.email, NormalizedIdentifier.phone, kind]
  · exact (issueOtp_climbs user identifier otp).andThen user

theorem verifyTx_climbs (otpId user : Uuid) : Climbs (verifyTx otpId user) [] 0 := by
  refine Climbs.statement 5 rfl (fun _ => ?_) fun _ => ?_
  · simp
  refine Climbs.statement 7 rfl (fun _ => ?_) fun _ => Climbs.pure
  simp

theorem ApiTx.climbs (tx : ApiTx) : Climbs tx.body [] 0 := by
  cases tx with
  | purchase args => exact (purchaseTx_climbs args).andThen ()
  | register identifier passwordHash otp =>
    exact (registerTx_climbs identifier passwordHash otp).andThen ()
  | resend user identifier otp =>
    intro may below
    exact (issueOtp_climbs user identifier otp).andThen () may fun held mem =>
      (Nat.not_lt_zero _ (below held mem)).elim
  | verify otpId user => exact verifyTx_climbs otpId user
  | attempt otpId =>
    refine Climbs.statement 5 rfl (fun _ => ?_) fun _ => Climbs.pure
    simp

end Programs

/-! ### Runs -/

/-- Any number of transactions of the API, in any interleaving, never wait for one another
in a cycle. -/
theorem Api.no_deadlock {S : Type} [DecidableEq S] {txs : S → ApiTx} {db : Db}
    {trace : List (Contending S Unit × Turn S Env Failure)} {σ : Contending S Unit}
    (run : Lib.Run Contending.step (Contention.start db fun n => (txs n).body) trace σ) (n : S) :
    ¬ Relation.TransGen (σ.WaitsFor fun _ => True) n n := by
  have climbs : ∀ n, (txs n).body.Climbs covers (fun _ => True) Target.before
      (lockingUnder (fun _ => True) fun _ _ => True) [] [] :=
    fun n => (txs n).climbs [] (by simp)
  refine Contention.run_acyclic climbs trivial (fun _ _ _ => trivial) covers_self covers_trans
    (fun a => Nat.lt_irrefl a.rank) (fun _ _ _ => Nat.lt_trans) run ?_ n
  rintro ⟨τ, turn⟩ -
  cases turn with
  | go n env time =>
    intro st onError next env ws r _ _ _
    trivial
  | abort n e => trivial

/-- Two purchases of user 1, and a new code for the same user. -/
def queue : Nat → ApiTx
  | 0 => .purchase ⟨1, 4, 7, "1970-01-01"⟩
  | 1 => .purchase ⟨1, 4, 8, "1970-01-01"⟩
  | _ => .resend 1 ⟨.email, [0x61]⟩ ⟨"code", 0⟩

/-- The first purchase has locked its item and its user, and the others reach them. -/
def queueing : List (Turn Nat Env Failure) :=
  List.replicate 8 (plainTurn 0 7) ++ List.replicate 3 (plainTurn 1 8) ++ List.replicate 2 (plainTurn 2 9)

theorem queueing_runs : (Lib.execute Contending.step
    (Contention.start shopDb fun n => (queue n).body : Contending Nat Unit) queueing).isSome = true := by
  decide +kernel

/-- Two transactions wait for the first, which waits for none. -/
theorem no_deadlock_queue :
    ∃ σ : Contending Nat Unit, Lib.Run Contending.step (Contention.start shopDb fun n => (queue n).body)
        (Lib.traceOf Contending.step (Contention.start shopDb fun n => (queue n).body) queueing) σ ∧
      σ.WaitsFor (fun _ => True) 1 0 ∧ σ.WaitsFor (fun _ => True) 2 0 ∧
      ¬ Relation.TransGen (σ.WaitsFor fun _ => True) 0 0 := by
  have run := Lib.Run.of_isSome queueing_runs
  refine ⟨_, run, ?_, ?_, Api.no_deadlock run 0⟩
  · refine ⟨by decide, ⟨.row (.flashSaleItem 4), .update⟩, by decide +kernel, trivial,
      ⟨.row (.flashSaleItem 4), .update⟩, by decide +kernel, by decide⟩
  · refine ⟨by decide, ⟨.row (.user 1), .keyShare⟩, by decide +kernel, trivial,
      ⟨.row (.user 1), .update⟩, by decide +kernel, by decide⟩

end FlashSale
