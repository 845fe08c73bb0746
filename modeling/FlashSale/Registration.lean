/-
# `AuthService.register` and `AuthService.resendOtp`

Identifiers and their normal form, the two transactions that create one-time
codes, and what their commits do.

An identifier is a text of UTF-16 code units, as it comes in a JSON body. It is an address
or a number, and its normal form is what is stored and compared. How a password is hashed
and a code encrypted, and what numbers a library formats, are fields of `Cfg`.

* `register_safe`, `resend_safe`: a transaction that commits has inserted the
  code together with the event that announces it, under the identifier of the
  user who owns the code.
-/
import FlashSale.Settlement

namespace FlashSale

open Lib (Table Tx Safe Stable Commits Lock applyAll applyAll_append)

/-- What the code takes from its configuration and from libraries: the calendar
of `SERVER_TIMEZONE` on millisecond instants, `String.prototype.toLowerCase`,
libphonenumber's E.164 form of a valid number, bcrypt and AES-GCM with their
random input, the random parts, signature and digest of tokens, and the text of a
driver error. Identifiers and passwords are what a client sends, so they are strings of
code units; bcrypt and a digest read their UTF-8 form. -/
structure Cfg where
  dateOf : Int → Day
  toLowerCase : CodeUnits → CodeUnits
  formatPhone : CodeUnits → Option CodeUnits
  hash : CodeUnits → Nat → String
  compare : CodeUnits → String → Bool
  dummyHash : String
  encrypt : String → Nat → String
  decrypt : String → Except String String
  errorText : DbError → String
  randomUuid : Nat → Text
  randomBytes : Nat → Text
  sha256 : Text → Text
  sign : Uuid → Text → Int → Text
  otpTtlSeconds : Nat
  refreshTtlSeconds : Nat
  batchSize : Nat
  maxAttempts : Nat

/-! ### Identifiers -/

def atSign : UInt16 := 0x40

def fullStop : UInt16 := 0x2e

/-- The characters of `\s`, which are also those `trim` removes: each is one code unit. -/
def isSpace (u : UInt16) : Bool :=
  (9 ≤ u.toNat && u.toNat ≤ 13) || (0x2000 ≤ u.toNat && u.toNat ≤ 0x200a) ||
    [0x20, 0xa0, 0x1680, 0x2028, 0x2029, 0x202f, 0x205f, 0x3000, 0xfeff].contains u.toNat

def trim (t : CodeUnits) : CodeUnits :=
  ((t.dropWhile isSpace).reverse.dropWhile isSpace).reverse

/-- A code unit of `[^\s@]`. -/
def isPlain (u : UInt16) : Bool := !isSpace u && u != atSign

/-- `^[^\s@]+@[^\s@]+\.[^\s@]+$`: the domain has a dot that is neither its first
nor its last code unit. -/
def matchesEmail (t : CodeUnits) : Bool :=
  match t.span isPlain with
  | (mailbox, u :: domain) =>
    u == atSign && !mailbox.isEmpty && domain.all isPlain &&
      (domain.drop 1).dropLast.contains fullStop
  | _ => false

def normalizeIdentifier (cfg : Cfg) (input : CodeUnits) : Except Failure NormalizedIdentifier :=
  let trimmed := trim input
  if matchesEmail trimmed then .ok ⟨.email, cfg.toLowerCase trimmed⟩
  else match cfg.formatPhone trimmed with
    | some formatted => .ok ⟨.phone, formatted⟩
    | none => .error (.error "Invalid identifier")

def NormalizedIdentifier.channel (identifier : NormalizedIdentifier) : OtpChannel :=
  match identifier.kind with
  | .email => .email
  | .phone => .phone

def NormalizedIdentifier.email (identifier : NormalizedIdentifier) : Option CodeUnits :=
  match identifier.kind with
  | .email => some identifier.normalized
  | .phone => none

def NormalizedIdentifier.phone (identifier : NormalizedIdentifier) : Option CodeUnits :=
  match identifier.kind with
  | .email => none
  | .phone => some identifier.normalized

/-! ### One-time codes -/

/-- A code that `OtpService.prepare` made. -/
structure PreparedOtp where
  encryptedCode : String
  expiresAt : Int
deriving DecidableEq

/-- `OtpService.prepare` at a millisecond time, with its random input. -/
def prepare (cfg : Cfg) (now : Int) (random : Nat) : PreparedOtp :=
  { encryptedCode := cfg.encrypt (toString (100000 + random % 900000)) random
    expiresAt := now + cfg.otpTtlSeconds * 1000 }

/-! ### The transactions -/

def identifierTaken : Failure :=
  .http ⟨"identifier_taken", "Identifier already registered", 409, none⟩

/-- The code of a user, and the event that announces it. -/
def issueOtp (user : Uuid) (identifier : NormalizedIdentifier) (otp : PreparedOtp) :
    Program Uuid := do
  let id ← run (.createOtp user identifier.channel otp.encryptedCode otp.expiresAt)
  run (.createOutbox
    { event := .otpSend user id identifier.channel identifier.normalized
      idempotencyKey := some id
      visibleAt := none })
  pure id

/-- The transaction of `register`: the user, and what `issueOtp` writes. Only the unique
indexes of the identifier have an error of their own. -/
def registerTx (identifier : NormalizedIdentifier) (passwordHash : String) (otp : PreparedOtp) :
    Program Uuid := do
  let user ← Tx.statement (.createUser identifier.email identifier.phone passwordHash)
    fun e => if e = .unique then identifierTaken else .database e
  let _ ← issueOtp user identifier otp
  pure user

/-- The transaction of `resendOtp`, for a user who is found and still pending. The codes
that were issued before are left as they are. -/
def resendTx (user : Uuid) (identifier : NormalizedIdentifier) (otp : PreparedOtp) :
    Program Unit := do
  let _ ← issueOtp user identifier otp
  pure ()

/-! ### What a commit does -/

/-- The numbers that issuing a code drew, and the times stamped on its rows. -/
structure OtpFound where
  otp : Uuid
  outboxId : Nat
  visibleAt : Int
  createdAt : Int

def otpRow (user : Uuid) (identifier : NormalizedIdentifier) (otp : PreparedOtp) (createdAt : Int) :
    OtpRow :=
  ⟨user, identifier.channel, otp.encryptedCode, otp.expiresAt, false, false, 0, createdAt⟩

def otpEvent (user : Uuid) (identifier : NormalizedIdentifier) (found : OtpFound) : OutboxRow :=
  { event := .otpSend user found.otp identifier.channel identifier.normalized
    status := .pending
    attempts := 0
    visibleAt := found.visibleAt
    lastError := none
    idempotencyKey := some found.otp }

/-- One committed registration, as a single step on the committed rows: the user, the code and
the event, under new identifiers. -/
structure RegisterCommits (identifier : NormalizedIdentifier) (passwordHash : String)
    (otp : PreparedOtp) (found : OtpFound) (user : Uuid) (db db' : Db) : Prop where
  user_fresh : db.users.get? user = none
  otp_fresh : db.otpCodes.get? found.otp = none
  outbox_fresh : db.outbox.get? found.outboxId = none
  effect : db' = { db with
    users := db.users.insert user
      ⟨identifier.email, identifier.phone, passwordHash, .pendingVerification, 0⟩
    otpCodes := db.otpCodes.insert found.otp (otpRow user identifier otp found.createdAt)
    outbox := db.outbox.insert found.outboxId (otpEvent user identifier found) }

/-- One committed resend, as a single step on the committed rows. -/
structure ResendCommits (user : Uuid) (identifier : NormalizedIdentifier) (otp : PreparedOtp)
    (found : OtpFound) (db db' : Db) : Prop where
  owner : ∃ row, db.users.get? user = some row ∧ identifier.names row = true
  otp_fresh : db.otpCodes.get? found.otp = none
  outbox_fresh : db.outbox.get? found.outboxId = none
  effect : db' = { db with
    otpCodes := db.otpCodes.insert found.otp (otpRow user identifier otp found.createdAt)
    outbox := db.outbox.insert found.outboxId (otpEvent user identifier found) }

/-! ### The outlines -/

section Outline

variable {Admits : Env → Prop} {Allowed : Stmt → DbError → Prop}

/-- Where the code and its event have been written. -/
def IssueMid (user : Uuid) (identifier : NormalizedIdentifier) (otp : PreparedOtp)
    (ws : List Write) (F : Db → Prop) (id : Uuid) (ws' : List Write) (L : List (Lock Resource))
    (F' : Db → Prop) : Prop :=
  ∃ found : OtpFound, id = found.otp ∧
    ws' = ws ++ [.insertOtp found.otp (otpRow user identifier otp found.createdAt)] ++
      [.insertOutbox found.outboxId (otpEvent user identifier found)] ∧
    Stable Write L F' ∧
    ∀ db, F' db → F db ∧ db.otpCodes.get? found.otp = none ∧ db.outbox.get? found.outboxId = none

theorem issueOtp_safe (any : ∀ s e, Allowed s e) (user : Uuid) (identifier : NormalizedIdentifier)
    (otp : PreparedOtp) {ws : List Write} {L : List (Lock Resource)} {F : Db → Prop}
    (stable : Stable Write L F) (otps : ∀ db : Db, (applyAll db ws).otpCodes = db.otpCodes)
    (outbox : ∀ db : Db, (applyAll db ws).outbox = db.outbox) :
    Safe plan Admits Allowed (IssueMid user identifier otp ws F) (issueOtp user identifier otp)
      ws L F := by
  unfold issueOtp
  -- `otpCode.create`
  refine Safe.statement fun env db _ known => ⟨fun _ _ => any _ _, fun ws' id got => ?_⟩
  obtain ⟨rfl, locks, otpFresh⟩ := plan_createOtp got
  rw [otps] at otpFresh
  rw [locks]
  refine ⟨_, (stable.mono fun l mem => List.mem_append_right _ mem).and
    (stable_no_otp (Guards.of_update (by simp))), ⟨known, otpFresh⟩, ?_⟩
  -- `outbox.append`
  refine Safe.statement fun env' db _ known => ⟨fun _ _ => any _ _, fun ws' _ got => ?_⟩
  obtain ⟨rfl, locks', outboxFresh⟩ := plan_createOutbox got
  have fresh : db.outbox.get? env'.serial = none := by
    rw [applyAll_append] at outboxFresh
    exact outbox db ▸ outboxFresh
  rw [locks']
  have kept : Stable Write
      ([⟨.outbox env'.serial, .update⟩] ++ ([⟨.otpCode id, .update⟩, ⟨.user user, .keyShare⟩] ++ L))
      fun db : Db => (F db ∧ db.otpCodes.get? id = none) ∧ db.outbox.get? env'.serial = none :=
    ((stable.mono fun l mem => List.mem_append_right _ (List.mem_append_right _ mem)).and
      (stable_no_otp (Guards.of_update (by simp)))).and
        (stable_no_outbox (Guards.of_update (by simp)))
  exact ⟨_, kept, ⟨known, fresh⟩,
    ⟨id, env'.serial, toColumn env'.started, toColumn env.stamp⟩, rfl, rfl, kept,
    fun db known => ⟨known.1.1, known.1.2, known.2⟩⟩

/-- Among any other transactions, a registration that commits does what
`RegisterCommits` states. -/
theorem register_safe (any : ∀ s e, Allowed s e) (identifier : NormalizedIdentifier)
    (passwordHash : String) (otp : PreparedOtp) :
    Safe plan Admits Allowed
      (Commits fun user db db' =>
        ∃ found, RegisterCommits identifier passwordHash otp found user db db')
      (registerTx identifier passwordHash otp) [] [] fun _ => True := by
  unfold registerTx
  -- `users.create`
  refine Safe.statement fun env db _ _ => ⟨fun _ _ => any _ _, fun ws user got => ?_⟩
  obtain ⟨rfl, mem, userFresh⟩ := plan_createUser got
  refine ⟨_, stable_no_user (Guards.of_update (List.mem_append_left _ mem)), userFresh, ?_⟩
  refine Safe.bind (issueOtp_safe any user identifier otp
    (stable_no_user (Guards.of_update (List.mem_append_left _ mem))) (fun _ => rfl) fun _ => rfl) ?_
  rintro _ ws L F ⟨found, rfl, rfl, -, known⟩
  intro db facts
  obtain ⟨userFresh, otpFresh, outboxFresh⟩ := known db facts
  exact ⟨found,
    { user_fresh := userFresh
      otp_fresh := otpFresh
      outbox_fresh := outboxFresh
      effect := rfl }⟩

/-- Who a resend found before its transaction began. -/
def Owner (user : Uuid) (identifier : NormalizedIdentifier) (db : Db) : Prop :=
  ∃ row, db.users.get? user = some row ∧ identifier.names row = true

theorem stable_owner (user : Uuid) (identifier : NormalizedIdentifier) :
    Stable Write [] (Owner user identifier) :=
  stable_identifiers fun email phone => (match identifier.kind with
    | .email => decide (email = some identifier.normalized)
    | .phone => decide (phone = some identifier.normalized)) = true

/-- Among any other transactions, a resend that commits does what `ResendCommits`
states. -/
theorem resend_safe (any : ∀ s e, Allowed s e) (user : Uuid) (identifier : NormalizedIdentifier)
    (otp : PreparedOtp) :
    Safe plan Admits Allowed
      (Commits fun _ db db' => ∃ found, ResendCommits user identifier otp found db db')
      (resendTx user identifier otp) [] [] (Owner user identifier) := by
  unfold resendTx
  refine Safe.bind (issueOtp_safe any user identifier otp (stable_owner user identifier)
    (fun _ => rfl) fun _ => rfl) ?_
  rintro _ ws L F ⟨found, rfl, rfl, -, known⟩
  intro db facts
  obtain ⟨owner, otpFresh, outboxFresh⟩ := known db facts
  exact ⟨found,
    { owner := owner
      otp_fresh := otpFresh
      outbox_fresh := outboxFresh
      effect := rfl }⟩

end Outline

end FlashSale
