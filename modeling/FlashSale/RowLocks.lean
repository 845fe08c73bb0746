/-
# Row locks and index entries

The locks of each statement in the order in which it takes them, with the locks on rows
told apart from the entries of unique indexes. An `INSERT` enters its row in the unique
indexes, in the order in which they were created, and waits for another transaction
that has entered the same key and is still open; then it locks the rows that it
references. A row that is not committed is seen by its own transaction only, so nobody
waits for it, and its transaction has no need to lock it.

* `lockingPlan_upto`: whatever the rows are, a statement takes an initial part of the
  locks `Stmt.targets` lists.
-/
import FlashSale.System
import FlashSale.Lib.LockOrder

namespace FlashSale

open Lib (Lock LockMode Outcome Tx Ascends Circumstances Contention Turn)

/-! ### Targets of locks -/

/-- A lock is held on a row, or on the entry that a row makes in a unique index. Making an
entry that another session has made waits for that session. -/
inductive Target where
  | row (r : Resource)
  | entry (r : Resource)
deriving DecidableEq

/-- The row that a session owns once it has made this entry. -/
def Target.owns : Target → Target → Bool
  | .entry r, .row r' => decide (r = r')
  | _, _ => false

/-- A lock of the second strength has no effect after one of the first. -/
def LockMode.covers : LockMode → LockMode → Bool
  | .update, _ => true
  | .noKeyUpdate, .update => false
  | .noKeyUpdate, _ => true
  | .keyShare, .keyShare => true
  | .keyShare, _ => false

/-- A session that has the first lock does not wait for the second. -/
def covers (held wanted : Lock Target) : Bool :=
  LockMode.covers held.mode wanted.mode &&
    (decide (held.resource = wanted.resource) || held.resource.owns wanted.resource)

theorem covers_self (l : Lock Target) : covers l l = true := by
  obtain ⟨r, m⟩ := l
  cases m <;> simp [covers, LockMode.covers]

theorem LockMode.covers_trans {a b c : LockMode} (first : LockMode.covers a b = true)
    (second : LockMode.covers b c = true) : LockMode.covers a c = true := by
  cases a <;> cases b <;> cases c <;>
    first
      | rfl
      | exact absurd first (by decide)
      | exact absurd second (by decide)

theorem Target.owns_of_row {r : Resource} {t : Target} : (Target.row r).owns t = false := by
  cases t <;> rfl

theorem covers_trans (a b c : Lock Target) (first : covers a b = true) (second : covers b c = true) :
    covers a c = true := by
  simp only [covers, Bool.and_eq_true, Bool.or_eq_true, decide_eq_true_eq] at first second ⊢
  refine ⟨LockMode.covers_trans first.1 second.1, ?_⟩
  rcases first.2 with same | owns
  · rw [same]
    exact second.2
  · rcases second.2 with same | owns'
    · rw [← same]
      exact Or.inr owns
    · -- What an entry owns is a row, which owns nothing.
      cases middle : b.resource with
      | row r =>
        rw [middle, Target.owns_of_row] at owns'
        cases owns'
      | entry r =>
        rw [middle] at owns
        cases outer : a.resource <;> rw [outer] at owns <;> cases owns

/-- Statements that insert a row. -/
def Stmt.inserts : Stmt → Bool
  | .createPurchase _ => true
  | .createOutbox _ => true
  | .createSale _ _ _ => true
  | .createItem _ _ _ _ => true
  | .createUser _ _ _ => true
  | .createOtp _ _ _ _ => true
  | _ => false

/-- An `INSERT` locks entries exclusively and the rows that it references with
`FOR KEY SHARE`; the other statements lock rows. -/
def Stmt.target (s : Stmt) (l : Lock Resource) : Lock Target :=
  if s.inserts && decide (l.mode = .update) then ⟨.entry l.resource, l.mode⟩
  else ⟨.row l.resource, l.mode⟩

/-- The plan of a statement, with its locks on targets. -/
def lockingPlan (s : Stmt) (env : Env) (db : Db) : Outcome Write Target DbError s.Result :=
  ⟨(plan s env db).locks.map s.target, (plan s env db).answer⟩

/-! ### The locks a statement can take -/

/-- The locks of a statement that finds all its rows and violates no constraint. The
claiming read, which waits for no lock, is left out. -/
def Stmt.locks (env : Env) : Stmt → List (Lock Resource)
  | .selectItemForUpdate id => [⟨.flashSaleItem id, .update⟩]
  | .selectBalanceForUpdate userId => [⟨.user userId, .update⟩]
  | .updateSold id => [⟨.flashSaleItem id, .noKeyUpdate⟩]
  | .updateBalance userId _ => [⟨.user userId, .noKeyUpdate⟩]
  | .createPurchase data => [⟨.purchase env.draw, .update⟩, ⟨.idempotencyKey data.idempotencyKey, .update⟩,
      ⟨.userDay data.userId data.day, .update⟩, ⟨.user data.userId, .keyShare⟩,
      ⟨.flashSaleItem data.flashSaleItemId, .keyShare⟩]
  | .createOutbox _ => [⟨.outbox env.serial, .update⟩]
  | .createSale _ _ _ => [⟨.flashSale env.draw, .update⟩]
  | .selectProductForUpdate id => [⟨.product id, .update⟩]
  | .updateStock id _ => [⟨.product id, .noKeyUpdate⟩]
  | .createItem flashSaleId productId _ _ => [⟨.flashSaleItem env.draw, .update⟩,
      ⟨.saleProduct flashSaleId productId, .update⟩, ⟨.flashSale flashSaleId, .keyShare⟩,
      ⟨.product productId, .keyShare⟩]
  | .selectSaleForUpdate id => [⟨.flashSale id, .update⟩]
  | .updateSettled saleId => [⟨.flashSale saleId, .noKeyUpdate⟩]
  | .createUser email phone _ =>
      (.user env.draw :: (email.toList.map Resource.userEmail ++ phone.toList.map .userPhone)).map
        fun r => ⟨r, .update⟩
  | .createOtp userId _ _ _ => [⟨.otpCode env.draw, .update⟩, ⟨.user userId, .keyShare⟩]
  | .updateSent id => [⟨.otpCode id, .noKeyUpdate⟩]
  | .updateUsed id => [⟨.otpCode id, .noKeyUpdate⟩]
  | .incrementAttempts id => [⟨.otpCode id, .noKeyUpdate⟩]
  | .updateStatus userId _ => [⟨.user userId, .noKeyUpdate⟩]
  | .updateOutbox id _ => [⟨.outbox id, .noKeyUpdate⟩]
  | _ => []

/-- The claiming read of the poller locks what it finds free. -/
def Stmt.claims : Stmt → Bool
  | .claim _ => true
  | _ => false

/-- The locks of a statement, on targets. -/
def Stmt.targets (s : Stmt) (env : Env) : List (Lock Target) := (s.locks env).map s.target

section Upto

variable {ρ : Type} {w : Write} {ls : List (Lock Resource)}

theorem updating_locks {violated : Option DbError} : (updating w violated).locks = w.needs := by
  cases violated <;> rfl

/-- An `INSERT` that fails has entered the indexes, or nothing. -/
theorem inserting_upto {result : ρ} {violated : Option DbError} {duplicate orphan : Bool}
    (needs : w.needs = ls) (entries : (ls.filter fun l => decide (l.mode = .update)) <+: ls) :
    (inserting w result violated duplicate orphan).locks <+: ls := by
  subst needs
  cases violated with
  | some e => exact List.nil_prefix
  | none =>
    cases duplicate with
    | true => exact entries
    | false =>
      cases orphan with
      | true => exact entries
      | false => exact List.prefix_rfl

theorem filter_update (rs : List Resource) :
    ((rs.map fun r => (⟨r, .update⟩ : Lock Resource)).filter fun l => decide (l.mode = .update)) =
      rs.map fun r => ⟨r, .update⟩ := by
  rw [List.filter_eq_self]
  intro l mem
  obtain ⟨r, -, rfl⟩ := List.mem_map.mp mem
  rfl

theorem plan_upto (s : Stmt) (env : Env) (db : Db) (waits : s.claims = false) :
    (plan s env db).locks <+: s.locks env := by
  cases s with
  | claim batchSize => cases waits
  | createUser email phone hash =>
    apply inserting_upto rfl
    exact ⟨[], (List.append_nil _).trans (filter_update _)⟩
  | createPurchase data => exact inserting_upto rfl ⟨_, rfl⟩
  | createOutbox input => exact inserting_upto rfl ⟨[], rfl⟩
  | createSale name startsAt endsAt => exact inserting_upto rfl ⟨[], rfl⟩
  | createItem sale product quantity price => exact inserting_upto rfl ⟨_, rfl⟩
  | createOtp userId channel code expiresAt => exact inserting_upto rfl ⟨_, rfl⟩
  | _ =>
    dsimp only [plan, Stmt.locks]
    repeat' split
    all_goals simp [reading, locking, failing, updating_locks, Write.needs]

/-- Whatever the rows are, a statement takes an initial part of the locks that are listed for
it. -/
theorem lockingPlan_upto (s : Stmt) (env : Env) (db : Db) (waits : s.claims = false) :
    (lockingPlan s env db).locks <+: s.targets env :=
  (plan_upto s env db waits).map s.target

end Upto

/-! ### The system and its outlines -/

/-- Sessions that each run a transaction and take their locks one at a time. -/
abbrev Contending (S α : Type) : Type :=
  Contention S Db Write Target Env Stmt Stmt.Result DbError Failure α

def Contending.step {S α : Type} [DecidableEq S] :
    Contending S α → Turn S Env Failure → Option (Contending S α) :=
  Contention.step lockingPlan covers

/-- A session wants a lock on a target that counts, and the other holds one that
conflicts with it. -/
def Contending.WaitsFor {S α : Type} [DecidableEq S] (σ : Contending S α) (counts : Target → Prop) :
    S → S → Prop :=
  Contention.WaitsFor lockingPlan covers counts σ

/-- A step that draws this number for what its statement inserts. -/
def plainTurn {S : Type} (n : S) (draw : Nat) : Turn S Env Failure :=
  .go n ⟨0, 0, draw, draw, [], fun _ => true⟩ dayStart

def lockingUnder (known : Db → Prop) (allowed : (s : Stmt) → s.Result → Prop) :
    Circumstances Stmt Env DbError Db Write Target Stmt.Result where
  plan := lockingPlan
  full s env := s.targets env
  known := known
  allowed := allowed

theorem climbs_statement {α : Type} {counts : Target → Prop} {before : Target → Target → Prop}
    {known : Db → Prop} {allowed : (s : Stmt) → s.Result → Prop} {sure may : List (Lock Target)}
    {s : Stmt} {onError : DbError → Failure} {next : s.Result → Program α} (waits : s.claims = false)
    (ascends : ∀ env, Ascends covers counts before sure may (s.targets env))
    (rest : ∀ env db ws r, known db → (plan s env db).answer = .ok (ws, r) → allowed s r →
      (next r).Climbs covers counts before (lockingUnder known allowed)
        (sure ++ (plan s env db).locks.map s.target) (may ++ s.targets env)) :
    (Tx.statement s onError >>= next).Climbs covers counts before (lockingUnder known allowed)
      sure may := by
  intro env
  refine ⟨ascends env, fun db isKnown => ⟨lockingPlan_upto s env db waits, ?_⟩⟩
  intro ws r answer isAllowed
  exact rest env db ws r isKnown answer isAllowed

/-- A row that is locked for update is not waited for again. -/
theorem covers_row {r : Resource} {mode : LockMode} :
    covers ⟨.row r, .update⟩ ⟨.row r, mode⟩ = true := by
  simp [covers, LockMode.covers]

/-- Nor is a row that the session has inserted. -/
theorem covers_own {r : Resource} {mode : LockMode} :
    covers ⟨.entry r, .update⟩ ⟨.row r, mode⟩ = true := by
  simp [covers, LockMode.covers, Target.owns]

end FlashSale
