/-
# `AuthService`, one request at a time

Its methods on the database and the stored tokens, when no other request runs and nothing
fails outside the code, and the way of a request through guard, controller and filter.

An identifier is a string of code units, as a JSON body can carry it. The database takes
none in which a surrogate stands alone and none with a NUL, and an entry of a unique index
must fit into a third of a page.

* `findByIdentifier_eq`, `registerTx_ok`, `resendTx_ok`, `verifyTx_ok`: what the statements and
  transactions come to.
-/
import FlashSale.RateLimitGuard
import FlashSale.TokenService
import FlashSale.SoloCreation

namespace FlashSale

open Lib (Table Tx Surroundings)

/-! ### What a request meets -/

/-- The clock in microseconds, a random draw, and the environments of the statements of
a transaction, counted from zero. -/
structure Occasion where
  clock : Int
  draw : Nat
  env : Nat → Env

/-- The time in milliseconds. -/
def Occasion.now (o : Occasion) : Int := o.clock / 1000

/-- Nothing fails for a reason outside the code. -/
def Occasion.around (o : Occasion) : Surroundings Env Failure where
  env := o.env
  time _ := o.now
  fails _ := none

/-- The identifiers and numbers that the database generates are new. -/
structure Occasion.Fresh (o : Occasion) (db : Db) : Prop where
  users : ∀ i, db.users.get? (o.env i).draw = none
  codes : ∀ i, db.otpCodes.get? (o.env i).draw = none
  purchases : ∀ i, db.purchases.get? (o.env i).draw = none
  events : ∀ i, db.outbox.get? (o.env i).serial = none

/-- The database, and the refresh tokens in Redis: all that one request of `AuthService` leaves
to the next. -/
structure Shop where
  db : Db
  tokens : TokenStore

/-- What is thrown for a text that Postgres does not take. -/
def refusedText : Failure := .error "invalid byte sequence for encoding \"UTF8\""

def refusedEntry : Failure := .error "index row size exceeds btree version 4 maximum 2704"

/-! ### The methods -/

section Methods

variable (cfg : Cfg) (fitsIndex : CodeUnits → Bool) (o : Occasion) (shop : Shop)

/-- A statement that is a transaction of its own. -/
def query (st : Stmt) (db : Db) : Except Failure st.Result × Db :=
  (run st).transaction plan o.around db

def findByIdentifier (identifier : NormalizedIdentifier) : Except Failure (Option (Uuid × UserRow)) :=
  if takesText identifier.normalized then (query o (.findUser identifier) shop.db).1
  else .error refusedText

namespace AuthService

/-- `TokenService.issuePair`, at the time of the request. -/
def issue (userId : Uuid) : Except Failure IssuedPair × Shop :=
  let (issued, tokens) := { shop.tokens with clock := o.clock }.issuePair cfg userId o.draw
  (.ok issued, { shop with tokens := tokens })

/-- The two lines with which each method begins that is given an identifier. -/
def lookup (input : CodeUnits) : Except Failure (NormalizedIdentifier × Option (Uuid × UserRow)) := do
  let identifier ← normalizeIdentifier cfg input
  let user ← findByIdentifier o shop identifier
  pure (identifier, user)

def register (dto : RegisterDto) : Except Failure Uuid × Shop :=
  match lookup cfg o shop dto.identifier with
  | .error e => (.error e, shop)
  | .ok (_, some _) => (.error identifierTaken, shop)
  | .ok (identifier, none) =>
    if fitsIndex identifier.normalized then
      let (result, db) := (registerTx identifier (cfg.hash dto.password o.draw)
        (prepare cfg o.now o.draw)).transaction plan o.around shop.db
      (result, { shop with db := db })
    else (.error refusedEntry, shop)

/-- `bcrypt.compare` runs against a dummy hash when there is no such user. -/
def login (dto : LoginDto) : Except Failure IssuedPair × Shop :=
  match lookup cfg o shop dto.identifier with
  | .error e => (.error e, shop)
  | .ok (_, user) =>
    match user, cfg.compare dto.password ((user.map fun u => u.2.passwordHash).getD cfg.dummyHash) with
    | some (id, row), true =>
      if row.status = .pendingVerification then (.error accountNotVerified, shop)
      else issue cfg o shop id
    | _, _ => (.error invalidCredentials, shop)

/-- What follows the comparison with a code. -/
def verified (otpId user : Uuid) : Except Failure IssuedPair × Shop :=
  match (verifyTx otpId user).transaction plan o.around shop.db with
  | (.error e, db) => (.error e, { shop with db := db })
  | (.ok _, db) => issue cfg o { shop with db := db } user

def miscounted (otpId : Uuid) : Except Failure IssuedPair × Shop :=
  match query o (.incrementAttempts otpId) shop.db with
  | (.error e, db) => (.error e, { shop with db := db })
  | (.ok _, db) => (.error otpInvalid, { shop with db := db })

def verifyOtp (dto : VerifyOtpDto) : Except Failure IssuedPair × Shop :=
  match lookup cfg o shop dto.identifier with
  | .error e => (.error e, shop)
  | .ok (_, none) => (.error otpInvalid, shop)
  | .ok (_, some (user, _)) =>
    match (query o (.findValidOtp user o.now) shop.db).1 with
    | .error e => (.error e, shop)
    | .ok none => (.error otpExpired, shop)
    | .ok (some (otpId, otp)) =>
      match cfg.decrypt otp.encryptedCode with
      | .error message => (.error (.error message), shop)
      | .ok plainCode =>
        if plainCode = dto.code then verified cfg o shop otpId user else miscounted o shop otpId

def refresh (refreshToken : Text) : Except Failure IssuedPair × Shop :=
  match { shop.tokens with clock := o.clock }.rotate cfg refreshToken o.draw with
  | (none, tokens) => (.error invalidToken, { shop with tokens := tokens })
  | (some issued, tokens) => (.ok issued, { shop with tokens := tokens })

def logout (refreshToken : Text) : Except Failure Unit × Shop :=
  (.ok (), { shop with tokens := { shop.tokens with clock := o.clock }.revoke cfg refreshToken })

def resendOtp (input : CodeUnits) : Except Failure Unit × Shop :=
  match lookup cfg o shop input with
  | .error e => (.error e, shop)
  | .ok (_, none) => (.ok (), shop)
  | .ok (identifier, some (id, user)) =>
    if user.status = .pendingVerification then
      let (result, db) := (resendTx id identifier (prepare cfg o.now o.draw)).transaction plan o.around
        shop.db
      (result, { shop with db := db })
    else (.ok (), shop)

end AuthService

end Methods

/-- What is sent for the result of a controller. -/
def replyTo : Except Failure Response → Reply
  | .error e => (Thrown.failure e).reply
  | .ok response => .response response

/-! ### What the statements come to -/

section Results

variable {o : Occasion} {db : Db} {shop : Shop} {identifier : NormalizedIdentifier}

theorem query_ok {st : Stmt} {ws : List Write} {r : st.Result}
    (got : (plan st (o.env 0) db).answer = .ok (ws, r)) :
    query o st db = (.ok r, Lib.applyAll db ws) := by
  apply Tx.transaction_ok
  have first : (run st >>= fun r => (Tx.pure r : Program st.Result)).solo plan o.around db 0 [] =
      (Tx.pure r : Program st.Result).solo plan o.around db 1 ([] ++ ws) :=
    Tx.solo_statement rfl got
  exact first.trans (Tx.solo_pure rfl)

/-- The user whom an identifier names. -/
def Db.named (db : Db) (identifier : NormalizedIdentifier) : Option (Uuid × UserRow) :=
  (db.users.select fun _ user => identifier.names user).head?

/-- The query finds the user with the identifier, if there is one. There is at most one by the
unique indexes. -/
theorem findByIdentifier_eq (takes : takesText identifier.normalized = true) :
    findByIdentifier o shop identifier = .ok (shop.db.named identifier) := by
  rw [findByIdentifier, if_pos takes, query_ok rfl]
  rfl

theorem lookup_ok {cfg : Cfg} {input : CodeUnits} (normal : normalizeIdentifier cfg input = .ok identifier)
    (takes : takesText identifier.normalized = true) :
    AuthService.lookup cfg o shop input = .ok (identifier, shop.db.named identifier) := by
  rw [AuthService.lookup, normal]
  show (findByIdentifier o shop identifier >>= fun user => pure (identifier, user)) = _
  rw [findByIdentifier_eq takes]
  rfl

theorem normalizeIdentifier_error {cfg : Cfg} {input : CodeUnits} {e : Failure}
    (failed : normalizeIdentifier cfg input = .error e) : e = .error "Invalid identifier" := by
  unfold normalizeIdentifier at failed
  dsimp only at failed
  split at failed
  · cases failed
  · split at failed
    · cases failed
    · cases failed
      rfl

/-- Otherwise it throws an error that no method catches. -/
theorem lookup_error {cfg : Cfg} {input : CodeUnits}
    (refused : ¬ ∃ identifier, normalizeIdentifier cfg input = .ok identifier ∧
      takesText identifier.normalized = true) :
    ∃ message, AuthService.lookup cfg o shop input = .error (.error message) := by
  unfold AuthService.lookup
  cases normal : normalizeIdentifier cfg input with
  | error e =>
    rw [normalizeIdentifier_error normal]
    exact ⟨_, rfl⟩
  | ok identifier =>
    have takes : ¬ takesText identifier.normalized = true := fun takes =>
      refused ⟨identifier, normal, takes⟩
    show ∃ message, (findByIdentifier o shop identifier >>= fun user => pure (identifier, user)) = _
    rw [findByIdentifier, if_neg takes]
    exact ⟨_, rfl⟩

theorem findValid_eq (user : Uuid) (now : Int) :
    (query o (.findValidOtp user now) db).1 = .ok (validOtps user now (o.env 0) db).head? := by
  rw [query_ok rfl]

theorem named_some {id : Uuid} {row : UserRow} (found : db.named identifier = some (id, row)) :
    db.users.get? id = some row ∧ identifier.names row = true := by
  have first : (db.users.select fun _ user => identifier.names user).head? = some (id, row) := found
  exact Table.mem_select.mp (List.mem_of_mem_head? first)

theorem named_none (absent : db.named identifier = none) {id : Uuid} {row : UserRow}
    (found : db.users.get? id = some row) : identifier.names row = false := by
  have none := List.head?_eq_none_iff.mp absent
  by_contra names
  have mem : (id, row) ∈ db.users.select fun _ user => identifier.names user :=
    Table.mem_select.mpr ⟨found, Bool.not_eq_false _ ▸ names⟩
  rw [none] at mem
  cases mem

theorem validOtp_some {user otpId : Uuid} {otp : OtpRow} {now : Int} {env : Env}
    (found : (validOtps user now env db).head? = some (otpId, otp)) :
    db.otpCodes.get? otpId = some otp ∧ otp.valid user now = true := by
  have got : (plan (.findValidOtp user now) env db).answer = .ok ([], some (otpId, otp)) :=
    congrArg (fun r => Except.ok ([], r)) found
  obtain ⟨there, valid, -⟩ := plan_findValidOtp got
  exact ⟨there, valid⟩

/-- A code that `findValid` has found has attempts left, and its row is counted. -/
theorem answer_increment {otpId user : Uuid} {otp : OtpRow} {now : Int} {env : Env}
    (found : db.otpCodes.get? otpId = some otp) (valid : otp.valid user now = true) :
    (plan (.incrementAttempts otpId) env db).answer = .ok ([.addAttempt otpId], ()) := by
  have few : otp.attempts < maxOtpAttempts := by
    unfold OtpRow.valid at valid
    exact of_decide_eq_true (Bool.and_eq_true _ _ ▸ valid).2
  have fits : int4 ((otp.attempts : Int) + 1) = true := by
    unfold maxOtpAttempts at few
    rw [int4, decide_eq_true_eq]
    omega
  dsimp only [plan]
  rw [found]
  dsimp only
  rw [fits]
  rfl

theorem increment_ok {otpId user : Uuid} {otp : OtpRow} {now : Int}
    (found : db.otpCodes.get? otpId = some otp) (valid : otp.valid user now = true) :
    query o (.incrementAttempts otpId) db = (.ok (), (AccountChange.attempted otpId).apply db) :=
  query_ok (answer_increment found valid)

/-! The code of a user, and its event. -/

theorem answer_createOtp {user : Uuid} {otp : PreparedOtp} {env : Env}
    (owner : db.users.get? user ≠ none) (code : db.otpCodes.get? env.draw = none) :
    (plan (.createOtp user identifier.channel otp.encryptedCode otp.expiresAt) env db).answer =
      .ok ([.insertOtp env.draw (otpRow user identifier otp (toColumn env.stamp))], env.draw) := by
  have there : (db.users.get? user).isNone = false := by
    rw [Option.isNone_eq_false_iff, Option.isSome_iff_ne_none]
    exact owner
  simp [plan, inserting, code, there, otpRow]

theorem answer_otpEvent {user id : Uuid} {createdAt : Int} {env : Env}
    (event : db.outbox.get? env.serial = none) :
    (plan (.createOutbox
      { event := .otpSend user id identifier.channel identifier.normalized
        idempotencyKey := some id
        visibleAt := none }) env db).answer =
      .ok ([.insertOutbox env.serial
        (otpEvent user identifier ⟨id, env.serial, toColumn env.started, createdAt⟩)], ()) := by
  simp [plan, inserting, event, appended, otpEvent]

/-- What is written for a code that is inserted by one statement, and its event by the next. -/
def otpWrites (user : Uuid) (identifier : NormalizedIdentifier) (otp : PreparedOtp) (env env' : Env) :
    List Write :=
  [.insertOtp env.draw (otpRow user identifier otp (toColumn env.stamp)),
    .insertOutbox env'.serial (otpEvent user identifier
      ⟨env.draw, env'.serial, toColumn env'.started, toColumn env.stamp⟩)]

theorem issueOtp_ok {α : Type} {k : Uuid → Program α} {otp : PreparedOtp} {user : Uuid} {i : Nat}
    {ws : List Write} (owner : (Lib.applyAll db ws).users.get? user ≠ none)
    (code : (Lib.applyAll db ws).otpCodes.get? (o.env i).draw = none)
    (event : (Lib.applyAll db ws).outbox.get? (o.env (i + 1)).serial = none) :
    (issueOtp user identifier otp >>= k).solo plan o.around db i ws =
      (k (o.env i).draw).solo plan o.around db (i + 2)
        (ws ++ otpWrites user identifier otp (o.env i) (o.env (i + 1))) := by
  have created := @answer_createOtp (Lib.applyAll db ws) identifier user otp (o.env i) owner code
  have free : (Lib.applyAll db (ws ++
      [.insertOtp (o.env i).draw (otpRow user identifier otp (toColumn (o.env i).stamp))])).outbox.get?
        (o.env (i + 1)).serial = none := by
    rw [Lib.applyAll_append]
    exact event
  have told := @answer_otpEvent _ identifier user (o.env i).draw (toColumn (o.env i).stamp)
    (o.env (i + 1)) free
  refine (Tx.solo_statement rfl created).trans ((Tx.solo_statement rfl told).trans ?_)
  rw [List.append_assoc]
  rfl

/-- A resend for a user who is there succeeds, and what it writes. -/
theorem resendTx_ok (identifier : NormalizedIdentifier) (otp : PreparedOtp) {user : Uuid}
    (owner : db.users.get? user ≠ none) (fresh : o.Fresh db) :
    (resendTx user identifier otp).transaction plan o.around db =
      (.ok (), Lib.applyAll db (otpWrites user identifier otp (o.env 0) (o.env 1))) := by
  have issued := @issueOtp_ok o db identifier Unit (fun _ => .pure ()) otp user 0 [] owner
    (fresh.codes 0) (fresh.events 1)
  exact Tx.transaction_ok (issued.trans (Tx.solo_pure rfl))

/-- The row of a user who has registered. -/
def newUser (identifier : NormalizedIdentifier) (passwordHash : String) : UserRow :=
  ⟨identifier.email, identifier.phone, passwordHash, .pendingVerification, 0⟩

theorem answer_createUser {passwordHash : String} {env : Env} (absent : db.named identifier = none)
    (user : db.users.get? env.draw = none) :
    (plan (.createUser identifier.email identifier.phone passwordHash) env db).answer =
      .ok ([.insertUser env.draw (newUser identifier passwordHash)], env.draw) := by
  refine inserting_ok_iff.mpr ⟨?_, ?_, rfl, rfl, rfl⟩
  · obtain ⟨kind, normalized⟩ := identifier
    cases kind <;> rfl
  · rw [Table.any_eq_false]
    intro id row found
    have other := named_none absent found
    have new : id ≠ env.draw := by
      rintro rfl
      cases user.symm.trans found
    obtain ⟨kind, normalized⟩ := identifier
    cases kind <;>
      simp_all [NormalizedIdentifier.names, NormalizedIdentifier.email, NormalizedIdentifier.phone,
        UserRow.clashes]

/-- A registration of an identifier that nobody has succeeds, and what it writes. -/
theorem registerTx_ok {passwordHash : String} {otp : PreparedOtp}
    (absent : db.named identifier = none) (fresh : o.Fresh db) :
    (registerTx identifier passwordHash otp).transaction plan o.around db =
      (.ok (o.env 0).draw, Lib.applyAll db
        (.insertUser (o.env 0).draw (newUser identifier passwordHash) ::
          otpWrites (o.env 0).draw identifier otp (o.env 1) (o.env 2))) := by
  have created := @answer_createUser db identifier passwordHash (o.env 0) absent (fresh.users 0)
  have owner : (Lib.applyAll db [Write.insertUser (o.env 0).draw
      (newUser identifier passwordHash)]).users.get? (o.env 0).draw ≠ none := by
    intro missing
    cases (Table.get?_insert_self (fresh.users 0)).symm.trans missing
  have issued := @issueOtp_ok o db identifier Uuid (fun _ => .pure (o.env 0).draw) otp (o.env 0).draw 1
    [.insertUser (o.env 0).draw (newUser identifier passwordHash)] owner (fresh.codes 1) (fresh.events 2)
  exact Tx.transaction_ok ((Tx.solo_statement rfl created).trans (issued.trans (Tx.solo_pure rfl)))

/-- A verification of a code and a user who are there succeeds, used or not. -/
theorem verifyTx_ok {otpId user : Uuid} {otp : OtpRow} {row : UserRow}
    (code : db.otpCodes.get? otpId = some otp) (owner : db.users.get? user = some row) :
    (verifyTx otpId user).transaction plan o.around db =
      (.ok (), (AccountChange.verified otpId user).apply db) := by
  have used : (plan (.updateUsed otpId) (o.env 0) db).answer = .ok ([.markUsed otpId], ()) := by
    simp [plan, code, updating]
  have active : (plan (.updateStatus user .active) (o.env 1)
      (Lib.applyAll db [Write.markUsed otpId])).answer = .ok ([.setStatus user .active], ()) := by
    have there : (Lib.applyAll db [Write.markUsed otpId]).users.get? user = some row := owner
    dsimp only [plan]
    rw [there]
    rfl
  have ended : (verifyTx otpId user).solo plan o.around db 0 [] =
      .ok ((), [.markUsed otpId, .setStatus user .active]) :=
    (Tx.solo_statement rfl used).trans ((Tx.solo_statement rfl active).trans (Tx.solo_pure rfl))
  exact Tx.transaction_ok ended

end Results

end FlashSale
