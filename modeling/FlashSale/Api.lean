/-
# The API: error filter, idempotency interceptor, controllers

The steps of a client's request from the guards to the response. A step is one
statement, one cache access, or a piece of code between two of them.

`authStep` has the calls that compare a password or a one-time code, and those that
issue, rotate and revoke tokens. Their writes to the token store are `commandStep`,
as Redis executes them.

`clientStep` is the next step of a client by itself, `clientFail` and `clientCrash`
are what may happen to it instead. A request that fails rolls its transaction back and is
answered; a process that dies is not, and its transaction is gone with its session.

What the interceptor stores after a purchase is a step of its own (`storeStep`), since
nobody waits for it: the answer may be delivered before it, and the write may be lost.
-/
import FlashSale.State

namespace FlashSale

open Lib (Tx Progress Outcome)

/-! ### `AppErrorFilter` -/

/-- The response to what a controller throws. -/
def Failure.response : Failure → Response
  | .http e => ⟨e.status, .error e.code e.message e.details⟩
  | _ => ⟨500, .error "internal_error" "Internal server error" none⟩

/-- The response to a body that fails its validation, without the list of issues. -/
def validationFailed : Response := ⟨400, .error "validation_failed" "Validation failed" none⟩

/-- The response when a request fails for a reason outside the code. -/
def internalError : Response := ⟨500, .error "internal_error" "Internal server error" none⟩

/-! ### `IdempotencyInterceptor` -/

def isHex (c : Char) : Bool :=
  ('0' ≤ c && c ≤ '9') || ('a' ≤ c && c ≤ 'f') || ('A' ≤ c && c ≤ 'F')

/-- `UUID_RE`. -/
def matchesUuid (t : Text) : Bool :=
  t.length == 36 && t.zipIdx.all fun p =>
    if [8, 13, 18, 23].contains p.2 then p.1 == '-' else isHex p.1

def hexValue (c : Char) : Nat :=
  if c ≤ '9' then c.toNat - '0'.toNat
  else if c ≤ 'F' then c.toNat - 'A'.toNat + 10
  else c.toNat - 'a'.toNat + 10

/-- The UUID that the database reads from a text that matches `UUID_RE`. -/
def parseUuid (t : Text) : Uuid := (t.filter isHex).foldl (fun n c => n * 16 + hexValue c) 0

def keyRequired : Failure :=
  .http ⟨"idempotency_key_required", "Idempotency-Key header is required and must be a UUID.", 400,
    none⟩

/-- The key of a request that passes the interceptor's check of the header. -/
def PurchaseRequest.key? (request : PurchaseRequest) : Option Text :=
  request.idempotencyKey.filter matchesUuid

/-- 24 hours in microseconds. -/
def entryTtl : Int := 86400 * 1000000

/-- The entry under a key that has not expired. -/
def State.cached (s : State) (key : Text) : Option Entry :=
  (s.redis key).filter fun entry => decide (s.clock < entry.expiresAt)

/-! ### Controllers -/

def PurchaseResult.body (result : PurchaseResult) : PurchaseBody :=
  { purchaseId := result.purchaseId
    saleItemId := result.saleItemId
    priceCents := toString result.priceCents
    remainingAllocation := result.remainingAllocation }

/-- Where a client goes when its transaction has returned. -/
def Job.returned : (job : Job) → job.Result → Nat → Client × List Event
  | .purchase request key _, result, _ =>
    (.deliver request key ⟨200, .purchase result.body⟩ false false, [])
  | .create _, _, _ => (.idle, [])
  | .register dto _ _ _, user, n => (.idle, [.answered n (.register dto) ⟨201, .registered user⟩])
  | .resend input _ _ _, _, n => (.idle, [.answered n (.resend input) ⟨204, .empty⟩])
  | .verify dto otpId user, _, _ => (.auth (.issue ⟨.verifyOtp dto, user, .code otpId⟩), [])

/-- The request that a job answers; a call of `create` is not a request. -/
def Job.request : Job → Option Request
  | .purchase request _ _ => some (.purchase request)
  | .create _ => none
  | .register dto _ _ _ => some (.register dto)
  | .resend input _ _ _ => some (.resend input)
  | .verify dto _ _ => some (.auth (.verifyOtp dto))

/-- The request that an auth call answers; the update of an operator is not one. -/
def AuthCall.request : AuthCall → Option AuthRequest
  | .loginFind dto _ => some (.login dto)
  | .loginCompare dto _ => some (.login dto)
  | .verifyFind dto _ => some (.verifyOtp dto)
  | .verifyClock dto _ => some (.verifyOtp dto)
  | .verifyRead dto _ _ => some (.verifyOtp dto)
  | .verifyCompare dto _ _ _ => some (.verifyOtp dto)
  | .verifyCount dto _ => some (.verifyOtp dto)
  | .get use token => some (use.request token)
  | .del use token _ _ => some (use.request token)
  | .revoked token => some (.logout token)
  | .issue grant => some grant.request
  | .set grant _ _ _ => some grant.request
  | .reply grant _ => some grant.request
  | .disabling _ => none

/-- The request a client is busy with and has not answered. -/
def Client.request : Client → Option Request
  | .idle => none
  | .lookup request => some (.purchase request)
  | .handle request _ => some (.purchase request)
  | .registerFind dto _ => some (.register dto)
  | .registerPrepare dto _ => some (.register dto)
  | .resendFind input _ => some (.resend input)
  | .resendPrepare input _ _ => some (.resend input)
  | .auth call => call.request.map .auth
  | .begin_ job => job.request
  | .tx job _ _ => job.request
  | .deliver request _ _ answered _ => if answered then none else some (.purchase request)

def answer (n : Nat) (request : Option Request) (response : Response) : List Event :=
  request.toList.map fun r => .answered n r response

section

variable (cfg : Cfg) (s : State) (n : Nat)

/-- Stay with the database as it is and go on. -/
def State.goOn {α : Type} (s : State) (next : α) (events : List Event) : Move α :=
  ⟨s.server, next, s.serial, events⟩

/-- The request ends with an error response, without a transaction. -/
def State.refuse (client : Client) (response : Response) : Move Client :=
  s.goOn .idle (answer n client.request response)

/-- The lookup of the interceptor. A hit is answered at once. -/
def lookupStep (request : PurchaseRequest) : Move Client :=
  match request.key? with
  | none => s.refuse n (.lookup request) keyRequired.response
  | some key =>
    match s.cached key with
    | some entry => s.goOn .idle [.answered n (.purchase request) entry.response]
    | none => s.goOn (.handle request key) []

/-- Validation of the body, then the controller and the start of `purchaseTx`,
which computes the day before it opens its transaction. -/
def handleStep (request : PurchaseRequest) (key : Text) : Move Client :=
  match request.saleItemId with
  | none => s.refuse n (.handle request key) validationFailed
  | some saleItemId =>
    s.goOn (.begin_ (.purchase request key
      ⟨request.userId, saleItemId, parseUuid key, cfg.dateOf s.now⟩)) []

/-- A read that is a transaction of its own. -/
def State.query (st : Stmt) (choice : Choice) : Option (Except DbError st.Result × Server) :=
  s.server.auto (.client n) (plan st (s.env (.client n) s.clock choice) s.server.db)

def registerFindStep (dto : RegisterDto) (identifier : NormalizedIdentifier) (choice : Choice) :
    Option (Move Client) :=
  (s.query n (.findUser identifier) choice).map fun
    | (.error e, server) => ⟨server, .idle, s.serial,
        [.answered n (.register dto) (Failure.database e).response]⟩
    | (.ok (some _), server) => ⟨server, .idle, s.serial,
        [.answered n (.register dto) identifierTaken.response]⟩
    | (.ok none, server) => ⟨server, .registerPrepare dto identifier, s.serial, []⟩

def resendFindStep (input : CodeUnits) (identifier : NormalizedIdentifier) (choice : Choice) :
    Option (Move Client) :=
  (s.query n (.findUser identifier) choice).map fun
    | (.error e, server) => ⟨server, .idle, s.serial,
        [.answered n (.resend input) (Failure.database e).response]⟩
    | (.ok none, server) => ⟨server, .idle, s.serial, [.answered n (.resend input) ⟨204, .empty⟩]⟩
    | (.ok (some (id, user)), server) =>
      if user.status = .pendingVerification then
        ⟨server, .resendPrepare input id identifier, s.serial, []⟩
      else ⟨server, .idle, s.serial, [.answered n (.resend input) ⟨204, .empty⟩]⟩

/-- One step of an open transaction. -/
def txStep (job : Job) (started : Int) (body : Program job.Result) (choice : Choice) :
    Option (Move Client) :=
  (body.advance plan (s.env (.client n) started choice) s.now s.server (.client n)).map fun
    | (.running next, server) => ⟨server, .tx job started next, s.serial + serials body, []⟩
    | (.returned result, server) =>
      ⟨server, (job.returned result n).1, s.serial,
        .committed (job.commit result) :: (job.returned result n).2⟩
    | (.threw e, server) => ⟨server, .idle, s.serial, answer n job.request e.response⟩

/-! #### `AuthService` and `TokenService` -/

def invalidCredentials : Failure :=
  .http ⟨"invalid_credentials", "Invalid credentials", 401, none⟩

def accountNotVerified : Failure :=
  .http ⟨"account_not_verified", "Account not verified", 422, none⟩

def otpInvalid : Failure := .http ⟨"otp_invalid", "Invalid OTP code", 422, none⟩

def otpExpired : Failure := .http ⟨"otp_expired", "OTP has expired", 422, none⟩

def invalidToken : Failure :=
  .http ⟨"invalid_token", "Invalid or expired refresh token", 401, none⟩

/-- An auth call ends with an error response. -/
def State.refuseAuth (call : AuthCall) (e : Failure) : Move Client :=
  s.refuse n (.auth call) e.response

/-- What follows a statement that is a transaction of its own: an error is answered,
a result goes on. -/
def afterQuery {ρ : Type} (call : AuthCall)
    (ran : Option (Except DbError ρ × Server)) (next : ρ → Move Client) : Option (Move Client) :=
  ran.map fun
    | (.error e, server) => { s.refuseAuth n call (.database e) with server := server }
    | (.ok r, server) => { next r with server := server }

/-- `bcrypt.compare` runs against a dummy hash when there is no such user. -/
def loginCompareStep (dto : LoginDto) (user : Option (Uuid × UserRow)) : Move Client :=
  match user, cfg.compare dto.password ((user.map fun u => u.2.passwordHash).getD cfg.dummyHash) with
  | some (id, row), true =>
    if row.status = .pendingVerification then s.refuseAuth n (.loginCompare dto user) accountNotVerified
    else s.goOn (.auth (.issue ⟨.login dto, id, .password⟩)) []
  | _, _ => s.refuseAuth n (.loginCompare dto user) invalidCredentials

/-- `OtpService.verify`, and what follows it. -/
def verifyCompareStep (dto : VerifyOtpDto) (user otpId : Uuid) (otp : OtpRow) : Move Client :=
  match cfg.decrypt otp.encryptedCode with
  | .error message => s.refuseAuth n (.verifyCompare dto user otpId otp) (.error message)
  | .ok plainCode =>
    if plainCode = dto.code then
      s.goOn (.begin_ (.verify dto otpId user)) [.compared n dto user otpId true]
    else s.goOn (.auth (.verifyCount dto otpId)) [.compared n dto user otpId false]

/-- The two parts of a refresh token, at its first dot. -/
def splitToken (token : Text) : Option (Text × Text) :=
  match token.span (· != '.') with
  | (jti, '.' :: rawPart) => some (jti, rawPart)
  | _ => none

/-- The entry of a refresh token that has not expired. -/
def State.session (s : State) (jti : Text) : Option Session :=
  (s.tokens jti).filter fun session => decide (s.clock < session.expiresAt)

/-- `rotate` and `revoke` of a token that is not valid. -/
def unknownToken (token : Text) : TokenUse → Move Client
  | .rotate => s.refuseAuth n (.get .rotate token) invalidToken
  | .revoke => s.goOn .idle [.answered n (.auth (.logout token)) ⟨204, .empty⟩]

/-- `parseAndVerify`. -/
def getStep (use : TokenUse) (token : Text) : Move Client :=
  match splitToken token with
  | none => unknownToken s n token use
  | some (jti, rawPart) =>
    match s.session jti with
    | none => unknownToken s n token use
    | some session =>
      if cfg.sha256 rawPart = session.hash then s.goOn (.auth (.del use token jti session)) []
      else unknownToken s n token use

/-- `issuePair`, up to its `SET`. -/
def issueStep (grant : Grant) (choice : Choice) : Move Client :=
  let jti := cfg.randomUuid choice.draw
  let rawPart := cfg.randomBytes choice.draw
  let pair : TokenPair := ⟨cfg.sign grant.userId jti s.now, jti ++ '.' :: rawPart⟩
  s.goOn (.auth (.set grant pair jti (cfg.sha256 rawPart))) []

/-- The next step of an auth call, while no write to the token store is on its way. Queries
read the rows committed at their own step, and a call keeps what it has read. -/
def authStep (choice : Choice) : AuthCall → Option (Move Client)
  | .loginFind dto identifier =>
    afterQuery s n (.loginFind dto identifier) (s.query n (.findUser identifier) choice) fun user =>
      s.goOn (.auth (.loginCompare dto user)) []
  | .loginCompare dto user => some (loginCompareStep cfg s n dto user)
  | .verifyFind dto identifier =>
    afterQuery s n (.verifyFind dto identifier) (s.query n (.findUser identifier) choice) fun
      | none => s.refuseAuth n (.verifyFind dto identifier) otpInvalid
      | some (id, _) => s.goOn (.auth (.verifyClock dto id)) []
  | .verifyClock dto user => some (s.goOn (.auth (.verifyRead dto user s.now)) [])
  | .verifyRead dto user now =>
    afterQuery s n (.verifyRead dto user now) (s.query n (.findValidOtp user now) choice) fun
      | none => s.refuseAuth n (.verifyRead dto user now) otpExpired
      | some (otpId, otp) => s.goOn (.auth (.verifyCompare dto user otpId otp)) []
  | .verifyCompare dto user otpId otp => some (verifyCompareStep cfg s n dto user otpId otp)
  | .verifyCount dto otpId =>
    afterQuery s n (.verifyCount dto otpId) (s.query n (.incrementAttempts otpId) choice) fun _ =>
      s.goOn .idle [.committed (.account (.attempted otpId)),
        .answered n (.auth (.verifyOtp dto)) otpInvalid.response]
  | .get use token => some (getStep cfg s n use token)
  | .del _ _ _ _ => none
  | .revoked token =>
    some (s.goOn .idle [.revoked n token, .answered n (.auth (.logout token)) ⟨204, .empty⟩])
  | .issue grant => some (issueStep cfg s grant choice)
  | .set _ _ _ _ => none
  | .reply grant pair =>
    some (s.goOn .idle [.granted n grant, .answered n (.auth grant.request) ⟨200, .tokens pair⟩])
  | .disabling user =>
    afterQuery s n (.disabling user) (s.query n (.updateStatus user .disabled) choice) fun _ =>
      s.goOn .idle [.committed (.account (.disabled user))]

/-- What the token store becomes, and how the call goes on, when Redis executes the
`SET` or `DEL` that is on its way. -/
def AuthCall.command : AuthCall → Option ((Text → Option Session) × AuthCall)
  | .del .rotate token jti session =>
    some (Function.update s.tokens jti none,
      .issue ⟨.refresh token, session.userId, .refresh token session.basis⟩)
  | .del .revoke token jti _ => some (Function.update s.tokens jti none, .revoked token)
  | .set grant pair jti hash =>
    some (Function.update s.tokens jti
      (some ⟨grant.userId, hash, s.clock + cfg.refreshTtlSeconds * 1000000, grant.basis⟩),
      .reply grant pair)
  | _ => none

/-- The next step of a client by itself: one query, one statement, or the code up to the
next one. Requests arrive and the stores answer by steps of their own. -/
def clientStep (choice : Choice) : Client → Option (Move Client)
  | .idle => none
  | .lookup request => some (lookupStep s n request)
  | .handle request key => some (handleStep cfg s n request key)
  | .registerFind dto identifier => registerFindStep s n dto identifier choice
  | .registerPrepare dto identifier =>
    some (s.goOn (.begin_ (.register dto identifier (cfg.hash dto.password choice.draw)
      (prepare cfg s.now choice.draw))) [])
  | .resendFind input identifier => resendFindStep s n input identifier choice
  | .resendPrepare input user identifier =>
    some (s.goOn (.begin_ (.resend input user identifier (prepare cfg s.now choice.draw))) [])
  | .auth call => authStep cfg s n choice call
  | .begin_ job => some (s.goOn (.tx job s.clock job.program) [])
  | .tx job started body => txStep s n job started body choice
  | .deliver request key response false stored =>
    some (s.goOn (if stored then .idle else .deliver request key response true stored)
      [.answered n (.purchase request) response])
  | .deliver _ _ _ true _ => none

/-- A statement, a connection or a cache access fails for a reason outside the
code: the request is answered as an internal error. -/
def clientFail : Client → Option (Move Client)
  | .idle => none
  | .deliver _ _ _ _ _ => none
  | client => some ⟨s.server.rollback (.client n), .idle, s.serial,
      answer n client.request internalError⟩

/-- The process of a client dies: no response, no write to the cache, and its transaction is
rolled back with its session. -/
def clientCrash : Move Client := ⟨s.server.rollback (.client n), .idle, s.serial, []⟩

end

end FlashSale
