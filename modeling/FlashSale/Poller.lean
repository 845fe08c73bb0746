/-
# `OutboxPoller` and its handlers

A tick claims the rows that are due in one transaction, calls the handler of each
row, records how the call ended, and commits. Handlers run outside that
transaction: they log, or write in transactions of their own. When the
transaction of the tick is lost, the handler that is running goes on, and the
tick ends at its next statement.

A row of a type without a handler is recorded as processed. After a failure the row becomes
visible again after a back-off that doubles up to five minutes, with a random part below a
second; after the last attempt it is a dead letter.
-/
import FlashSale.Api

namespace FlashSale

open Lib (Tx Progress)

/-! ### Recording -/

/-- What `processRow` sets on a row after its delivery. -/
def Line.change (cfg : Cfg) (line : Line) : OutboxChange :=
  match line.result with
  | .ok () => .processed
  | .error message =>
    let nextAttempts := line.claimed.row.attempts + 1
    if nextAttempts ≥ cfg.maxAttempts then .deadLetter nextAttempts message
    else
      let backoff := min (2 ^ nextAttempts * 1000) (5 * 60000) + line.jitter % 1000
      .retry nextAttempts message (line.time + backoff)

/-- `String(err)`. -/
def Failure.text (cfg : Cfg) : Failure → String
  | .http e => "AppHttpException: " ++ e.message
  | .database e => cfg.errorText e
  | .error message => "Error: " ++ message

/-! ### Handlers -/

/-- The call that `HandlerRegistry.get` leads to; `none` for a type without a
handler. -/
def dispatch (row : OutboxRow) : Option Delivery :=
  match row.event with
  | .otpSend _ otpId _ _ => some (.otpFind otpId)
  | .purchaseCompleted _ _ _ => some (.notify .purchaseNotified)
  | .flashSaleCreated _ _ => some (.notify .saleNotified)
  | .flashSaleSettle saleId => some (.settleBegin saleId)
  | .other _ => none

/-- Where a step leaves a handler call. -/
inductive Handled where
  | calling (delivery : Delivery)
  | finished (result : Delivered)

section

variable (cfg : Cfg) (s : State) (w : Nat)

/-- A statement of a handler that is a transaction of its own. -/
def State.handlerAuto (st : Stmt) (choice : Choice) : Option (Except DbError st.Result × Server) :=
  s.server.auto (.handler w) (plan st (s.env (.handler w) s.clock choice) s.server.db)

def otpNotFound (otpId : Uuid) : Failure := .error ("OTP record not found: " ++ toString otpId)

def otpFindStep (otpId : Uuid) (choice : Choice) : Option (Move Handled) :=
  (s.handlerAuto w (.findOtp otpId) choice).map fun
    | (.error e, server) => ⟨server, .finished (.error ((Failure.database e).text cfg)), s.serial, []⟩
    | (.ok none, server) => ⟨server, .finished (.error ((otpNotFound otpId).text cfg)), s.serial, []⟩
    | (.ok (some otp), server) =>
      if otp.sent then ⟨server, .finished (.ok ()), s.serial, []⟩
      else ⟨server, .calling (.otpSend otpId otp.encryptedCode), s.serial, []⟩

/-- Decrypt the code and log it, which stands for its delivery. -/
def otpSendStep (row : ClaimedRow) (otpId : Uuid) (encryptedCode : String) : Move Handled :=
  match cfg.decrypt encryptedCode with
  | .error message => s.goOn (.finished (.error message)) []
  | .ok _ => s.goOn (.calling (.otpMark otpId)) [.effect row.id .otpDelivered]

def otpMarkStep (otpId : Uuid) (choice : Choice) : Option (Move Handled) :=
  (s.handlerAuto w (.updateSent otpId) choice).map fun
    | (.error e, server) => ⟨server, .finished (.error ((Failure.database e).text cfg)), s.serial, []⟩
    | (.ok _, server) => ⟨server, .finished (.ok ()), s.serial, [.committed (.otpSent otpId)]⟩

def settleStep (row : ClaimedRow) (saleId : Uuid) (started : Int)
    (body : Program (Option (List Unsold))) (choice : Choice) : Option (Move Handled) :=
  (body.advance plan (s.env (.handler w) started choice) s.now s.server (.handler w)).map fun
    | (.running next, server) =>
      ⟨server, .calling (.settleTx saleId started next), s.serial + serials body, []⟩
    | (.returned result, server) => ⟨server, .finished (.ok ()), s.serial,
        .committed (.settled saleId started result) ::
          if result.isSome then [.effect row.id .stockReturned] else []⟩
    | (.threw e, server) => ⟨server, .finished (.error (e.text cfg)), s.serial, []⟩

/-- One step of a handler call. -/
def deliverStep (row : ClaimedRow) (choice : Choice) : Delivery → Option (Move Handled)
  | .notify kind => some (s.goOn (.finished (.ok ())) [.effect row.id kind])
  | .otpFind otpId => otpFindStep cfg s w otpId choice
  | .otpSend otpId encryptedCode => some (otpSendStep cfg s row otpId encryptedCode)
  | .otpMark otpId => otpMarkStep cfg s w otpId choice
  | .settleBegin saleId => some (s.goOn (.calling (.settleTx saleId s.clock (settle saleId))) [])
  | .settleTx saleId started body => settleStep cfg s w row saleId started body choice

/-! ### The tick -/

/-- A statement of the transaction of a tick. -/
def State.tickStatement (started : Int) (st : Stmt) (choice : Choice) :
    Option (Except DbError st.Result × Server) :=
  s.server.statement (.tick w) (plan st (s.env (.tick w) started choice) (s.server.view (.tick w)))

def claimStep (started : Int) (choice : Choice) : Option (Move Worker) :=
  (s.tickStatement w started (.claim cfg.batchSize) choice).map fun
    | (.error _, server) => ⟨server.rollback (.tick w), .idle, s.serial, []⟩
    | (.ok rows, server) =>
      ⟨server, .polling started true (.next rows []), s.serial, [.claimed w started rows]⟩

/-- Record the end of a delivery. When the update fails, so does the one that
would record the failure, and the tick is over. -/
def recordStep (started : Int) (row : ClaimedRow) (result : Delivered) (todo : List ClaimedRow)
    (done : List Line) (choice : Choice) : Option (Move Worker) :=
  let line : Line := ⟨row, result, s.now, choice.jitter⟩
  (s.tickStatement w started (.updateOutbox row.id (line.change cfg)) choice).map fun
    | (.error _, server) => ⟨server.rollback (.tick w), .idle, s.serial, []⟩
    | (.ok _, server) => ⟨server, .polling started true (.next todo (done ++ [line])), s.serial, []⟩

/-- The stage after a step of the handler call for a row. -/
def Handled.stage (row : ClaimedRow) (todo : List ClaimedRow) (done : List Line) :
    Handled → TickStage
  | .calling delivery => .deliver row delivery todo done
  | .finished result => .record row result todo done

/-- The stage at which the delivery of a claimed row begins. -/
def beginDelivery (row : ClaimedRow) (todo : List ClaimedRow) (done : List Line) : TickStage :=
  match dispatch row.row with
  | some delivery => .deliver row delivery todo done
  | none => .record row (.ok ()) todo done

/-- The next step of a worker by itself. A worker whose tick has lost its transaction goes on
with the handler it is in, and stops at the next statement of the tick. -/
def workerStep (choice : Choice) : Worker → Option (Move Worker)
  | .idle => none
  | .polling started alive (.deliver row delivery todo done) =>
    (deliverStep cfg s w row choice delivery).map fun move =>
      { move with next := .polling started alive (move.next.stage row todo done) }
  | .polling started alive (.next (row :: todo) done) =>
    some (s.goOn (.polling started alive (beginDelivery row todo done)) [])
  -- every other step needs the transaction of the tick
  | .polling _ false _ => some (s.goOn .idle [])
  | .polling started true .claim => claimStep cfg s w started choice
  | .polling _ true (.next [] done) =>
    some ⟨s.server.commit (.tick w), .idle, s.serial, [.committed (.ticked done)]⟩
  | .polling started true (.record row result todo done) =>
    recordStep cfg s w started row result todo done choice

/-- A handler throws for a reason outside the code. -/
def workerFail (message : String) : Worker → Option (Move Worker)
  | .polling started alive (.deliver row _ todo done) =>
    some ⟨s.server.rollback (.handler w),
      .polling started alive (.record row (.error message) todo done), s.serial, []⟩
  | _ => none

/-- The transaction of a tick is rolled back under the worker. -/
def loseTick : Worker → Option (Move Worker)
  | .polling started true stage =>
    some ⟨s.server.rollback (.tick w), .polling started false stage, s.serial, []⟩
  | _ => none

theorem workerFail_events {s : State} {w : Nat} {message : String} {worker : Worker}
    {move : Move Worker} (taken : workerFail s w message worker = some move) : move.events = [] := by
  cases worker with
  | idle => cases taken
  | polling started alive stage => cases stage <;> cases taken; rfl

theorem loseTick_events {s : State} {w : Nat} {worker : Worker} {move : Move Worker}
    (taken : loseTick s w worker = some move) : move.events = [] := by
  cases worker with
  | idle => cases taken
  | polling started alive stage => cases alive <;> cases taken; rfl

/-- The worker process dies with both its sessions. -/
def workerCrash : Move Worker :=
  ⟨(s.server.rollback (.handler w)).rollback (.tick w), .idle, s.serial, []⟩

end

end FlashSale
