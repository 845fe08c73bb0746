/-
# The state of the running system

API clients, worker processes, the database server, the response cache and the
stored refresh tokens, and the history of what the system has done: the database
transactions in the order of their commits, the responses, the comparisons with
one-time codes, and the effects of delivered outbox rows.

A client runs one request at a time, and a worker one tick at a time; there are
as many of each as there are numbers. A worker has two database sessions, one for
the transaction of its tick and one for the handler it calls.

A process is a value of a type of stages, `Client` or `Worker`, and a stage carries what
the code has in its variables there: what it has read, what is left of its transaction, and
what it will answer. Nothing else remembers, so two processes at the same stage go on alike.
-/
import FlashSale.Verification

namespace FlashSale

open Lib (Outcome)

/-! ### Requests and responses -/

/-- `POST /v1/flashsale/purchase` behind the guards: the user of the token, the
header `Idempotency-Key`, and the body, `none` when it fails its validation. -/
structure PurchaseRequest where
  userId : Uuid
  idempotencyKey : Option Text
  saleItemId : Option Uuid
deriving DecidableEq

/-- A body that passed its validation. -/
structure RegisterDto where
  identifier : CodeUnits
  password : CodeUnits
deriving DecidableEq

structure LoginDto where
  identifier : CodeUnits
  password : CodeUnits
deriving DecidableEq

structure VerifyOtpDto where
  identifier : CodeUnits
  code : String
deriving DecidableEq

/-- The requests of `login`, `verifyOtp`, `refresh` and `logout`. -/
inductive AuthRequest where
  | login (dto : LoginDto)
  | verifyOtp (dto : VerifyOtpDto)
  | refresh (refreshToken : Text)
  | logout (refreshToken : Text)
deriving DecidableEq

structure TokenPair where
  accessToken : Text
  refreshToken : Text
deriving DecidableEq

structure PurchaseBody where
  purchaseId : Uuid
  saleItemId : Uuid
  priceCents : String
  remainingAllocation : Int
deriving DecidableEq

inductive Body where
  | purchase (body : PurchaseBody)
  | registered (userId : Uuid)
  | tokens (pair : TokenPair)
  | empty
  | error (code message : String) (details : Option Day)
deriving DecidableEq

structure Response where
  status : Nat
  body : Body
deriving DecidableEq

inductive Request where
  | purchase (request : PurchaseRequest)
  | register (dto : RegisterDto)
  | resend (identifier : CodeUnits)
  | auth (request : AuthRequest)
deriving DecidableEq

/-! ### Tokens -/

/-- What a token pair was granted on: a password, a one-time code, or the refresh
token of an earlier pair. -/
inductive Basis where
  | password
  | code (otpId : Uuid)
  | refresh (token : Text) (earlier : Basis)
deriving DecidableEq

/-- A token pair that a call is about to issue. -/
structure Grant where
  request : AuthRequest
  userId : Uuid
  basis : Basis
deriving DecidableEq

/-- The value under `refresh:<jti>`. `basis` is what the pair was granted on; the
code does not store that. -/
structure Session where
  userId : Uuid
  hash : Text
  expiresAt : Int
  basis : Basis

/-- The two uses of a refresh token, `TokenService.rotate` and `TokenService.revoke`. -/
inductive TokenUse where
  | rotate
  | revoke
deriving DecidableEq

def TokenUse.request : TokenUse → Text → AuthRequest
  | .rotate, token => .refresh token
  | .revoke, token => .logout token

/-! ### Database transactions -/

/-- A transaction of the API or of a seeder, once it is about to begin. -/
inductive Job where
  | purchase (request : PurchaseRequest) (key : Text) (args : PurchaseArgs)
  | create (input : CreateSaleInput)
  | register (dto : RegisterDto) (identifier : NormalizedIdentifier) (passwordHash : String)
      (otp : PreparedOtp)
  | resend (input : CodeUnits) (user : Uuid) (identifier : NormalizedIdentifier) (otp : PreparedOtp)
  | verify (dto : VerifyOtpDto) (otpId user : Uuid)

@[reducible] def Job.Result : Job → Type
  | .purchase _ _ _ => PurchaseResult
  | .create _ => CreatedSale
  | .register _ _ _ _ => Uuid
  | .resend _ _ _ _ => Unit
  | .verify _ _ _ => Unit

def Job.program : (job : Job) → Program job.Result
  | .purchase _ _ args => purchaseTx args.userId args.saleItemId args.idempotencyKey args.day
  | .create input => FlashSale.create input
  | .register _ identifier passwordHash otp => registerTx identifier passwordHash otp
  | .resend _ user identifier otp => resendTx user identifier otp
  | .verify _ otpId user => verifyTx otpId user

/-- How a handler call ended: normally, or with the text of what it threw. -/
abbrev Delivered := Except String Unit

/-- A claimed row, how its delivery ended, and the worker's clock and random
number when it recorded that. -/
structure Line where
  claimed : ClaimedRow
  result : Delivered
  time : Int
  jitter : Nat

/-- A database transaction that has committed, with what it returned. Ticks commit the lines
of the rows they delivered, and the transactions of handlers are their own. -/
inductive Commit where
  | purchased (args : PurchaseArgs) (result : PurchaseResult)
  | created (input : CreateSaleInput) (result : CreatedSale)
  | registered (identifier : NormalizedIdentifier) (passwordHash : String) (otp : PreparedOtp)
      (user : Uuid)
  | resent (user : Uuid) (identifier : NormalizedIdentifier) (otp : PreparedOtp)
  | account (change : AccountChange)
  | settled (saleId : Uuid) (started : Int) (result : Option (List Unsold))
  | otpSent (otpId : Uuid)
  | ticked (lines : List Line)

def Job.commit : (job : Job) → job.Result → Commit
  | .purchase _ _ args, result => .purchased args result
  | .create input, result => .created input result
  | .register _ identifier passwordHash otp, user => .registered identifier passwordHash otp user
  | .resend _ user identifier otp, _ => .resent user identifier otp
  | .verify _ otpId user, _ => .account (.verified otpId user)

/-! ### History -/

/-- What the delivery of an outbox row does that can be observed. -/
inductive Effect where
  | otpDelivered
  | purchaseNotified
  | saleNotified
  | stockReturned
deriving DecidableEq

/-- What has happened, in order: commits, answers, and what no row shows. The properties of
runs are about this history and the rows. -/
inductive Event where
  | committed (commit : Commit)
  | answered (client : Nat) (request : Request) (response : Response)
  /-- a submitted code is compared with the one of a row -/
  | compared (client : Nat) (dto : VerifyOtpDto) (user otpId : Uuid) (equal : Bool)
  /-- a call returns a token pair -/
  | granted (client : Nat) (grant : Grant)
  /-- a `revoke` that found its token valid returns -/
  | revoked (client : Nat) (token : Text)
  | claimed (worker : Nat) (started : Int) (rows : List ClaimedRow)
  | effect (row : Nat) (kind : Effect)

def Event.commit? : Event → Option Commit
  | .committed commit => some commit
  | _ => none

/-- The committed transactions of a history, in commit order. -/
def commits (history : List Event) : List Commit := history.filterMap Event.commit?

@[simp] theorem commits_nil : commits [] = [] := rfl

@[simp] theorem commits_append (history more : List Event) :
    commits (history ++ more) = commits history ++ commits more :=
  List.filterMap_append

def Event.grant? : Event → Option Grant
  | .granted _ grant => some grant
  | _ => none

/-- The token pairs that calls have returned. -/
def grants (history : List Event) : List Grant := history.filterMap Event.grant?

@[simp] theorem grants_nil : grants [] = [] := rfl

@[simp] theorem grants_append (history more : List Event) :
    grants (history ++ more) = grants history ++ grants more :=
  List.filterMap_append

/-! ### Clients -/

/-- A call of `login`, `verifyOtp`, `refresh` or `logout` under way, or the update
by which an operator disables a user. -/
inductive AuthCall where
  | loginFind (dto : LoginDto) (identifier : NormalizedIdentifier)
  | loginCompare (dto : LoginDto) (user : Option (Uuid × UserRow))
  | verifyFind (dto : VerifyOtpDto) (identifier : NormalizedIdentifier)
  /-- about to read the clock for `findValid` -/
  | verifyClock (dto : VerifyOtpDto) (user : Uuid)
  | verifyRead (dto : VerifyOtpDto) (user : Uuid) (now : Int)
  | verifyCompare (dto : VerifyOtpDto) (user otpId : Uuid) (otp : OtpRow)
  | verifyCount (dto : VerifyOtpDto) (otpId : Uuid)
  | get (use : TokenUse) (token : Text)
  /-- `DEL` is on its way -/
  | del (use : TokenUse) (token jti : Text) (session : Session)
  | revoked (token : Text)
  | issue (grant : Grant)
  /-- `SET` is on its way -/
  | set (grant : Grant) (pair : TokenPair) (jti hash : Text)
  | reply (grant : Grant) (pair : TokenPair)
  | disabling (user : Uuid)

/-- Where a request is: the service's code between two statements, a transaction with the
rest of its body, or an answer to be sent. Each stage carries what the code has read. -/
inductive Client where
  | idle
  /-- let through by the guards, before the lookup of the interceptor -/
  | lookup (request : PurchaseRequest)
  /-- past a lookup that found nothing -/
  | handle (request : PurchaseRequest) (key : Text)
  | registerFind (dto : RegisterDto) (identifier : NormalizedIdentifier)
  | registerPrepare (dto : RegisterDto) (identifier : NormalizedIdentifier)
  | resendFind (input : CodeUnits) (identifier : NormalizedIdentifier)
  | resendPrepare (input : CodeUnits) (user : Uuid) (identifier : NormalizedIdentifier)
  | auth (call : AuthCall)
  | begin_ (job : Job)
  | tx (job : Job) (started : Int) (body : Program job.Result)
  /-- a purchase that committed: its response and the write to the cache are on
  their way, in either order -/
  | deliver (request : PurchaseRequest) (key : Text) (response : Response)
      (answered stored : Bool)

/-! ### Workers -/

/-- A handler call under way. -/
inductive Delivery where
  | notify (kind : Effect)
  | otpFind (otpId : Uuid)
  | otpSend (otpId : Uuid) (encryptedCode : String)
  | otpMark (otpId : Uuid)
  | settleBegin (saleId : Uuid)
  | settleTx (saleId : Uuid) (started : Int) (body : Program (Option (List Unsold)))

inductive TickStage where
  | claim
  | next (todo : List ClaimedRow) (done : List Line)
  | deliver (row : ClaimedRow) (delivery : Delivery) (todo : List ClaimedRow) (done : List Line)
  | record (row : ClaimedRow) (result : Delivered) (todo : List ClaimedRow) (done : List Line)

/-- A worker between ticks, or in a tick whose transaction began at `started` and
is `alive` until it is lost. -/
inductive Worker where
  | idle
  | polling (started : Int) (alive : Bool) (stage : TickStage)

/-! ### The system -/

inductive Sid where
  | client (n : Nat)
  | tick (w : Nat)
  | handler (w : Nat)
deriving DecidableEq

abbrev Server := Lib.Server Sid Db Write Resource

/-- A cached response. `request` is the request it answered; the code does not
store that. -/
structure Entry where
  response : Response
  expiresAt : Int
  request : PurchaseRequest

/-- The clock is in microseconds; `redis` holds the entries `idem:<key>`, and
`tokens` the entries `refresh:<jti>`. -/
structure State where
  server : Server
  serial : Nat
  clock : Int
  redis : Text → Option Entry
  tokens : Text → Option Session
  clients : Nat → Client
  workers : Nat → Worker
  history : List Event

/-- The inputs of a step that no other part of the state decides: a random draw,
the order of the rows of an unordered query, the jitter of a back-off, and how
long before a statement runs the time that it stamps was taken. -/
structure Choice where
  draw : Nat
  order : List Nat
  jitter : Nat
  lag : Nat

/-- What a step of one process changes. -/
structure Move (α : Type) where
  server : Server
  next : α
  serial : Nat
  events : List Event

def State.moveClient (s : State) (n : Nat) (move : Move Client) : State :=
  { s with
    server := move.server
    serial := move.serial
    clients := Function.update s.clients n move.next
    history := s.history ++ move.events }

def State.moveWorker (s : State) (w : Nat) (move : Move Worker) : State :=
  { s with
    server := move.server
    serial := move.serial
    workers := Function.update s.workers w move.next
    history := s.history ++ move.events }

section Moves

variable (s : State)

@[simp] theorem State.moveClient_self (n : Nat) (move : Move Client) :
    (s.moveClient n move).clients n = move.next :=
  Function.update_self ..

theorem State.moveClient_ne (move : Move Client) {n n' : Nat} (ne : n' ≠ n) :
    (s.moveClient n move).clients n' = s.clients n' :=
  Function.update_of_ne ne ..

@[simp] theorem State.moveWorker_self (w : Nat) (move : Move Worker) :
    (s.moveWorker w move).workers w = move.next :=
  Function.update_self ..

theorem State.moveWorker_ne (move : Move Worker) {w w' : Nat} (ne : w' ≠ w) :
    (s.moveWorker w move).workers w' = s.workers w' :=
  Function.update_of_ne ne ..

end Moves

/-- The environment of a statement of a session. `now()` is a moment between the
start of the transaction and the statement. -/
def State.env (s : State) (sid : Sid) (started : Int) (choice : Choice) : Env :=
  { started := started
    stamp := max started (s.clock - choice.lag)
    serial := s.serial
    draw := choice.draw
    order := choice.order
    free := fun r => s.server.grants sid ⟨r, .update⟩ }

/-- The wall clock of the processes, in milliseconds. -/
def State.now (s : State) : Int := s.clock / 1000

/-- The numbers that the next statement of a program takes from the sequence of
the outbox. -/
def serials {α : Type} : Program α → Nat
  | .exec (.createOutbox _) _ _ => 1
  | _ => 0

end FlashSale
