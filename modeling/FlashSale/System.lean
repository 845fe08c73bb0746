/-
# The system

The steps of the whole system. Any number of clients and workers take their steps
in any order, time passes between them, any request and any handler may fail, any
process may die, and any tick may lose its transaction.

A run starts with no transaction open and is a list of labels: each says which process takes
the step, and what the random generator and the database give it. A label that is not
enabled is no step, such as a statement that waits for a lock. Nothing is assumed of
fairness or of the speeds of the processes, and the clock moves only by steps of its own.

`Run` is `Lib.Run` of this step function, so the rules of that module are the induction
principles of the development: an invariant is shown for one step and holds in every state
of a run, and a condition on the steps of a run is a condition on its trace.

`plainCfg` is a configuration for examples. Its hashes, ciphers and random values are those
of real ones on the few inputs that the examples use.
-/
import FlashSale.Poller
import FlashSale.Lib.Run
import Mathlib.Logic.Equiv.Basic

namespace FlashSale

open Lib (Table)

/-- The labels of all steps: time, the arrival of requests, the steps of processes, and what
may go wrong with each of them. A label carries the choices that the step leaves open. -/
inductive Label where
  /-- microseconds pass -/
  | elapse (duration : Nat)
  /-- a purchase request that the guards let through -/
  | purchase (n : Nat) (request : PurchaseRequest)
  | create (n : Nat) (input : CreateSaleInput)
  | register (n : Nat) (dto : RegisterDto)
  | resend (n : Nat) (identifier : CodeUnits)
  | auth (n : Nat) (request : AuthRequest)
  /-- an operator sets a user to `DISABLED` -/
  | disable (n : Nat) (user : Uuid)
  | client (n : Nat) (choice : Choice)
  /-- the cache executes the write that a purchase has sent -/
  | store (n : Nat)
  /-- Redis executes the `SET` or `DEL` that an auth call has sent -/
  | command (n : Nat)
  | clientFail (n : Nat)
  | clientCrash (n : Nat)
  | poll (w : Nat)
  | worker (w : Nat) (choice : Choice)
  | workerFail (w : Nat) (message : String)
  | loseTick (w : Nat)
  | workerCrash (w : Nat)

/-- The client that a label is a step of. -/
def Label.client? : Label → Option Nat
  | .purchase n _ => some n
  | .create n _ => some n
  | .register n _ => some n
  | .resend n _ => some n
  | .auth n _ => some n
  | .disable n _ => some n
  | .client n _ => some n
  | .store n => some n
  | .command n => some n
  | .clientFail n => some n
  | .clientCrash n => some n
  | _ => none

/-- What a request starts as: the guards are behind it, and the identifier of an
auth request is normalized first. -/
inductive Start where
  | purchase (request : PurchaseRequest)
  | create (input : CreateSaleInput)
  | register (dto : RegisterDto)
  | resend (identifier : CodeUnits)
  | auth (request : AuthRequest)
  | disable (user : Uuid)

/-- What an auth request starts with. -/
def startAuth (cfg : Cfg) (s : State) (n : Nat) : AuthRequest → Move Client
  | .login dto =>
    match normalizeIdentifier cfg dto.identifier with
    | .ok identifier => s.goOn (.auth (.loginFind dto identifier)) []
    | .error e => s.goOn .idle [.answered n (.auth (.login dto)) e.response]
  | .verifyOtp dto =>
    match normalizeIdentifier cfg dto.identifier with
    | .ok identifier => s.goOn (.auth (.verifyFind dto identifier)) []
    | .error e => s.goOn .idle [.answered n (.auth (.verifyOtp dto)) e.response]
  | .refresh token => s.goOn (.auth (.get .rotate token)) []
  | .logout token => s.goOn (.auth (.get .revoke token)) []

def startClient (cfg : Cfg) (s : State) (n : Nat) : Start → Move Client
  | .purchase request => s.goOn (.lookup request) []
  | .create input => s.goOn (.begin_ (.create input)) []
  | .register dto =>
    match normalizeIdentifier cfg dto.identifier with
    | .ok identifier => s.goOn (.registerFind dto identifier) []
    | .error e => s.goOn .idle [.answered n (.register dto) e.response]
  | .resend input =>
    match normalizeIdentifier cfg input with
    | .ok identifier => s.goOn (.resendFind input identifier) []
    | .error e => s.goOn .idle [.answered n (.resend input) e.response]
  | .auth request => startAuth cfg s n request
  | .disable user => s.goOn (.auth (.disabling user)) []

/-- A client that is idle takes a request. -/
def startStep (cfg : Cfg) (s : State) (n : Nat) (start : Start) : Option State :=
  match s.clients n with
  | .idle => some (s.moveClient n (startClient cfg s n start))
  | _ => none

/-- The write `SET idem:<key> … EX 86400`. -/
def storeStep (s : State) (n : Nat) : Option State :=
  match s.clients n with
  | .deliver request key response answered false =>
    some { s with
      redis := Function.update s.redis key (some ⟨response, s.clock + entryTtl, request⟩)
      clients := Function.update s.clients n
        (if answered then .idle else .deliver request key response answered true) }
  | _ => none

/-- A write to the token store. -/
def commandStep (cfg : Cfg) (s : State) (n : Nat) : Option State :=
  match s.clients n with
  | .auth call => (call.command cfg s).map fun done =>
    { s with tokens := done.1, clients := Function.update s.clients n (.auth done.2) }
  | _ => none

def pollStep (s : State) (w : Nat) : Option State :=
  match s.workers w with
  | .idle => some (s.moveWorker w (s.goOn (.polling s.clock true .claim) []))
  | _ => none

/-- One step of the system; `none` when the label is not enabled. A process moves by one
statement or less, so that all interleavings are runs. -/
def step (cfg : Cfg) (s : State) : Label → Option State
  | .elapse duration => some { s with clock := s.clock + duration }
  | .purchase n request => startStep cfg s n (.purchase request)
  | .create n input => startStep cfg s n (.create input)
  | .register n dto => startStep cfg s n (.register dto)
  | .resend n identifier => startStep cfg s n (.resend identifier)
  | .auth n request => startStep cfg s n (.auth request)
  | .disable n user => startStep cfg s n (.disable user)
  | .client n choice => (clientStep cfg s n choice (s.clients n)).map (s.moveClient n)
  | .store n => storeStep s n
  | .command n => commandStep cfg s n
  | .clientFail n => (clientFail s n (s.clients n)).map (s.moveClient n)
  | .clientCrash n => some (s.moveClient n (clientCrash s n))
  | .poll w => pollStep s w
  | .worker w choice => (workerStep cfg s w choice (s.workers w)).map (s.moveWorker w)
  | .workerFail w message => (workerFail s w message (s.workers w)).map (s.moveWorker w)
  | .loseTick w => (loseTick s w (s.workers w)).map (s.moveWorker w)
  | .workerCrash w => some (s.moveWorker w (workerCrash s w))

/-- No process has started and no transaction is open. The rows are any, which lets a run
start from any database. -/
structure Fresh (s : State) : Prop where
  pending : s.server.pending = []
  locks : s.server.locks = []
  clients : ∀ n, s.clients n = .idle
  workers : ∀ w, s.workers w = .idle
  history : s.history = []

/-- The system at rest over the rows of a database. -/
def State.initial (db : Db) (serial : Nat) (clock : Int) : State :=
  { server := ⟨db, [], []⟩
    serial := serial
    clock := clock
    redis := fun _ => none
    tokens := fun _ => none
    clients := fun _ => .idle
    workers := fun _ => .idle
    history := [] }

theorem State.initial_fresh (db : Db) (serial : Nat) (clock : Int) :
    Fresh (State.initial db serial clock) :=
  ⟨rfl, rfl, fun _ => rfl, fun _ => rfl, rfl⟩

/-- The runs of the system. -/
abbrev Run (cfg : Cfg) (start : State) (trace : List (State × Label)) (s : State) : Prop :=
  Lib.Run (step cfg) start trace s

/-! ### Libraries

A configuration for the runs on which the results are tried. The libraries return what the
real ones return for what these runs give them. -/

/-- The UUID whose digits are all the same. -/
def uuidText (digit : Char) : Text :=
  List.replicate 8 digit ++ '-' :: List.replicate 4 digit ++ '-' :: List.replicate 4 digit ++
    '-' :: List.replicate 4 digit ++ '-' :: List.replicate 12 digit

/-- Two addresses, a password, and the name of a sale. -/
def mail : CodeUnits := Lib.Utf16.encode ['a', '@', 'b', '.', 'c']

def otherMail : CodeUnits := Lib.Utf16.encode ['b', '@', 'c', '.', 'd']

def passw0rd : CodeUnits := Lib.Utf16.encode ['P', 'a', 's', 's', 'w', '0', 'r', 'd']

def saleName : CodeUnits := Lib.Utf16.encode ['s', 'a', 'l', 'e']

/-- The last digits of a number, in some base. -/
def digitsOf (base count n : Nat) : List Nat :=
  (List.range count).map fun i => n / base ^ (count - 1 - i) % base

def hexText (count n : Nat) : Text := (digitsOf 16 count n).map Nat.digitChar

/-- The UUID of version 4 with this number in its last group. -/
def drawnUuid (draw : Nat) : Text :=
  hexText 8 0 ++ '-' :: hexText 4 0 ++ '-' :: hexText 4 0x4000 ++ '-' :: hexText 4 0x8000 ++
    '-' :: hexText 12 draw

def base64Char (d : Nat) : Char :=
  if d < 26 then Char.ofNat (65 + d)
  else if d < 52 then Char.ofNat (71 + d)
  else if d < 62 then Char.ofNat (d - 4)
  else if d = 62 then '-' else '_'

/-- 32 bytes in base64url: the last four bits are 0, and the others are this number. -/
def drawnBytes (draw : Nat) : Text := (digitsOf 64 42 draw).map base64Char ++ ['A']

/-- SHA-256 of the bytes that are drawn. -/
def realDigests : List (Nat × Nat) :=
  [(7, 0x818e483e891b457feaa822303769a738e45b7a178cc283c99cb60a6388bed399),
    (8, 0xfca9ee6949c5f0fcd3e0487c2d4dcd48a5a84c8221c8aed13f238539f51f8063),
    (9, 0x3f1b523ab66ebfd440c075a80d6d3e1edcb6e93e3db4823e3a400568613db4f4),
    (10, 0xca010db3ef2d2573082b350049909def21a4f937763c87aa6013e740b1038844)]

/-- An injective function that has these values. -/
def sha256Table : Text ≃ Text :=
  realDigests.foldr (fun p rest => (Equiv.swap (drawnBytes p.1) (hexText 64 p.2)).trans rest)
    (Equiv.refl Text)

/-- What bcrypt makes of the password for member 1, with the salt that is 0, and for a member
that registers with the draw 9. -/
def memberHash : String := "$2b$12$......................HT952ZZfXN2wRzIN1X98Jf4we74Q7PG"

def realHashes : List (CodeUnits × Nat × String) :=
  [(passw0rd, 0, memberHash),
    (passw0rd, 9, "$2b$12$H.....................NoGU7MefTrsmFH1STjmhGWNr358xDF.")]

/-- What AES-256-GCM makes of the code 100000, with the vector that is 0. -/
def memberCode : String :=
  "000000000000000000000000:f1109da3d2b0a9821a6036695decef71:809d35049c8d"

/-- The codes that are drawn, the draws, which are also the vectors, and the ciphertexts
under the key whose bytes are all `aa`. -/
def realCodes : List (String × Nat × String) :=
  [("100000", 0, memberCode),
    ("100007", 7, "000000000000000000000007:65400a889965b006413838dc71e383fe:aa230e53f171"),
    ("100008", 8, "000000000000000000000008:b71616a69c0ccf64d63ac72087db9244:0590b3227394"),
    ("100009", 9, "000000000000000000000009:5aa8ccd239a1fe9f4fa324e31e2f3a16:c76be39fe47d")]

/-- Times on one day, and addresses in lower case. What is hashed, encrypted and drawn is taken
from tables of real values. -/
def plainCfg : Cfg :=
  { dateOf := fun _ => "2026-05-01"
    toLowerCase := fun t => t
    formatPhone := fun _ => none
    hash := fun password draw =>
      ((realHashes.find? fun r => r.1 = password ∧ r.2.1 = draw).map fun r => r.2.2).getD ""
    compare := fun password hash => realHashes.any fun r => r.1 = password ∧ r.2.2 = hash
    dummyHash := "$2b$12$/.....................piM/m03KN08D31QctpzHi73xPjf8s0m"
    encrypt := fun code draw =>
      ((realCodes.find? fun r => r.1 = code ∧ r.2.1 = draw).map fun r => r.2.2).getD ""
    decrypt := fun stored =>
      match realCodes.find? fun r => r.2.2 = stored with
      | some r => .ok r.1
      | none => .error "error"
    errorText := fun _ => "error"
    randomUuid := drawnUuid
    randomBytes := drawnBytes
    sha256 := sha256Table
    sign := fun _ jti _ => jti
    otpTtlSeconds := 600
    refreshTtlSeconds := 86400
    batchSize := 50
    maxAttempts := 10 }

/-! ### A shop

A database with one product, one user and one open sale. -/

/-- The start of 2026-05-01 in UTC. -/
def dayStart : Int := 1777593600000

/-- User 1 with a balance of 500, product 2, and an item 4 of sale 3, which lasts
an hour, with five units at 100 each. -/
def shopDb : Db :=
  { users := Table.empty.insert 1 ⟨some mail, none, memberHash, .active, 500⟩
    otpCodes := .empty
    products := Table.empty.insert 2 ⟨0⟩
    flashSales := Table.empty.insert 3 ⟨saleName, dayStart, dayStart + 3600000, none⟩
    flashSaleItems := Table.empty.insert 4 ⟨3, 2, 5, 0, 100⟩
    purchases := .empty
    outbox := .empty }

def shop : State := .initial shopDb 1 (dayStart * 1000)

/-- The database before the sale, with one unit of the product. -/
def bareDb : Db :=
  { shopDb with
    products := Table.empty.insert 2 ⟨1⟩
    flashSales := .empty
    flashSaleItems := .empty }

def bareShop : State := .initial bareDb 1 (dayStart * 1000)

/-- Steps of a client that draw the same number. -/
def Label.clientSteps (n count draw : Nat) : List Label :=
  List.replicate count (.client n ⟨draw, [], 0, 0⟩)

/-- Steps of a worker. -/
def Label.workerSteps (w count : Nat) : List Label :=
  List.replicate count (.worker w ⟨0, [], 0, 0⟩)

/-- Client 0 creates sale 3, which lasts a second, with the unit as item 4. -/
def creating : List Label :=
  .create 0 ⟨saleName, dayStart, dayStart + 1000, [⟨2, 1, 100⟩]⟩ ::
    Label.clientSteps 0 4 3 ++ Label.clientSteps 0 4 4

/-- The sale ends without a purchase, and one tick announces and settles it. -/
def settling : List Label :=
  creating ++ .elapse 1000000 :: .poll 0 :: Label.workerSteps 0 13

theorem settling_runs : (Lib.execute (step plainCfg) bareShop settling).isSome = true := by
  decide +kernel

end FlashSale
