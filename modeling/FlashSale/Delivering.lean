/-
# What workers know of the rows they deliver

A tick has rows still to deliver, one in a handler call, and lines for those whose delivery
has ended. A worker that dies drops them, and the rows are claimed again later. What a
handler call is for is in its row, so `Delivery.call` and the row are kept together at
every step of the call, whether or not the tick still has its transaction.

* `step_deliver`: how a worker comes to be in a handler call.
* `Delivering.step`: every tick keeps track of its rows, also after the loss of its
  transaction.
-/
import FlashSale.History

namespace FlashSale

open Lib (Table Spared)

/-! ### Calls -/

/-- The call that a handler call under way began as. -/
def Delivery.call : Delivery → Delivery
  | .notify kind => .notify kind
  | .otpFind otpId => .otpFind otpId
  | .otpSend otpId _ => .otpFind otpId
  | .otpMark otpId => .otpFind otpId
  | .settleBegin saleId => .settleBegin saleId
  | .settleTx saleId _ _ => .settleBegin saleId

/-- The code that a handler call is to send or to mark is there. -/
def Delivery.Sees (db : Db) : Delivery → Prop
  | .otpSend otpId _ => ∃ otp, db.otpCodes.get? otpId = some otp
  | .otpMark otpId => ∃ otp, db.otpCodes.get? otpId = some otp
  | _ => True

section Calls

variable {cfg : Cfg} {s : State} {w : Nat} {row : OutboxRow}

theorem dispatch_call {delivery : Delivery} (called : dispatch row = some delivery) :
    delivery.call = delivery := by
  unfold dispatch at called
  split at called <;> cases called <;> rfl

theorem dispatch_sees {delivery : Delivery} (called : dispatch row = some delivery) (db : Db) :
    delivery.Sees db := by
  unfold dispatch at called
  split at called <;> cases called <;> trivial

theorem dispatch_otp {otpId : Uuid} (called : dispatch row = some (.otpFind otpId)) :
    ∃ userId channel identifier, row.event = .otpSend userId otpId channel identifier := by
  unfold dispatch at called
  split at called <;> cases called
  rename_i event
  exact ⟨_, _, _, event⟩

theorem dispatch_settle {saleId : Uuid} (called : dispatch row = some (.settleBegin saleId)) :
    row.event = .flashSaleSettle saleId := by
  unfold dispatch at called
  split at called <;> cases called
  rename_i event
  exact event

theorem dispatch_congr {row' : OutboxRow} (same : row'.event = row.event) :
    dispatch row' = dispatch row := by
  unfold dispatch
  rw [same]

/-- How a step of a handler call goes on. -/
inductive Continues (cfg : Cfg) (s : State) (w : Nat) (choice : Choice) (server : Server) :
    Delivery → Delivery → Prop where
  | finds {otpId : Uuid} {otp : OtpRow} (found : s.server.db.otpCodes.get? otpId = some otp)
      (unsent : otp.sent = false) :
      Continues cfg s w choice server (.otpFind otpId) (.otpSend otpId otp.encryptedCode)
  | sends {otpId : Uuid} {encryptedCode : String} :
      Continues cfg s w choice server (.otpSend otpId encryptedCode) (.otpMark otpId)
  | begins {saleId : Uuid} (quiet : server = s.server) : Continues cfg s w choice server
      (.settleBegin saleId) (.settleTx saleId s.clock (settle saleId))
  | settles {saleId : Uuid} {t : Int} {body next : Program (Option (List Unsold))}
      (ran : body.advance plan (s.env (.handler w) t choice) s.now s.server (.handler w) =
        some (.running next, server)) :
      Continues cfg s w choice server (.settleTx saleId t body) (.settleTx saleId t next)

theorem deliverStep_continues {claimed : ClaimedRow} {choice : Choice} {delivery delivery' : Delivery}
    {move : Move Handled} (taken : deliverStep cfg s w claimed choice delivery = some move)
    (calling : move.next = .calling delivery') :
    Continues cfg s w choice move.server delivery delivery' := by
  cases delivery with
  | notify kind => cases taken; cases calling
  | otpFind otpId =>
    obtain ⟨_, server, ran, turns⟩ := otpFindStep_turns taken
    rcases turns with ⟨message, rfl⟩ | ⟨otp, -, -, rfl⟩ | ⟨otp, rfl, unsent, rfl⟩
    · cases calling
    · cases calling
    · cases calling
      unfold State.handlerAuto Lib.Server.auto at ran
      obtain ⟨⟨first, mid⟩, ran, eq⟩ := Option.map_eq_some_iff.mp ran
      rcases Lib.Server.statement_cases ran with ⟨e, got, rfl, -⟩ | ⟨ws, otp, got, rfl, -, -⟩
      · cases eq
      · cases eq
        exact .finds (Prod.mk.inj (Except.ok.inj got)).2 unsent
  | otpSend otpId encryptedCode =>
    cases taken
    unfold otpSendStep at calling
    split at calling <;> cases calling
    exact .sends
  | otpMark otpId =>
    change otpMarkStep cfg s w otpId choice = some move at taken
    obtain ⟨⟨answer, server⟩, ran, eq⟩ := Option.map_eq_some_iff.mp taken
    cases answer <;> cases eq <;> cases calling
  | settleBegin saleId =>
    cases taken
    cases calling
    exact .begins rfl
  | settleTx saleId started body =>
    change settleStep cfg s w claimed saleId started body choice = some move at taken
    obtain ⟨⟨progress, server⟩, ran, eq⟩ := Option.map_eq_some_iff.mp taken
    cases progress <;> cases eq <;> cases calling
    exact .settles ran

/-- A handler call stays what it began as. -/
theorem Continues.call {choice : Choice} {server : Server} {delivery delivery' : Delivery}
    (continues : Continues cfg s w choice server delivery delivery') :
    delivery'.call = delivery.call := by
  cases continues <;> rfl

theorem Continues.sees {choice : Choice} {server : Server} {delivery delivery' : Delivery}
    (continues : Continues cfg s w choice server delivery delivery')
    (sees : delivery.Sees s.server.db) : delivery'.Sees s.server.db := by
  cases continues with
  | finds found _ => exact ⟨_, found⟩
  | sends => exact sees
  | begins _ => trivial
  | settles _ => trivial

end Calls

/-! ### Rows -/

/-- What a tick knows of its rows, with or without its transaction: they were due
when it began, and they are still there. -/
structure Carries (s : State) (started : Int) (stage : TickStage) : Prop where
  begun : started ≤ s.clock
  rows : ∀ c ∈ stage.claimed, c.row.visibleAt * 1000 ≤ started ∧
    ∃ row, s.server.db.outbox.get? c.id = some row ∧ row.event = c.row.event
  times : ∀ line ∈ stage.done, line.claimed.row.visibleAt ≤ line.time
  call : ∀ row delivery todo done, stage = .deliver row delivery todo done →
    dispatch row.row = some delivery.call ∧ delivery.Sees s.server.db

def Delivering (s : State) : Prop :=
  ∀ w started alive stage, s.workers w = .polling started alive stage → Carries s started stage

section Steps

variable {cfg : Cfg} {s s' : State} {started : Int}

theorem step_clock {l : Label} (taken : step cfg s l = some s') : s.clock ≤ s'.clock := by
  cases step_cases taken with
  | elapse duration =>
    show s.clock ≤ s.clock + duration
    omega
  | _ => exact le_rfl

theorem step_row_kept {l : Label} (coherent : Coherent cfg s) (taken : step cfg s l = some s')
    {id : Nat} {row : OutboxRow} (found : s.server.db.outbox.get? id = some row) :
    ∃ row', s'.server.db.outbox.get? id = some row' ∧ row'.event = row.event ∧
      (row.status ≠ .pending → row' = row) := by
  rcases step_atomic coherent taken with ⟨-, same⟩ | ⟨commit, -, happened⟩
  · exact ⟨row, by rw [same]; exact found, rfl, fun _ => rfl⟩
  · exact happened.row_kept found

theorem step_otp_kept {l : Label} (coherent : Coherent cfg s) (taken : step cfg s l = some s')
    {id : Uuid} {otp : OtpRow} (found : s.server.db.otpCodes.get? id = some otp) :
    ∃ otp', s'.server.db.otpCodes.get? id = some otp' ∧ (otp.sent = true → otp'.sent = true) := by
  rcases step_atomic coherent taken with ⟨-, same⟩ | ⟨commit, -, happened⟩
  · exact ⟨otp, by rw [same]; exact found, fun sent => sent⟩
  · exact happened.otp_kept found

/-- What is known of the rows of one stage is known of those of another. -/
theorem Carries.step {l : Label} {stage stage' : TickStage} (carries : Carries s started stage)
    (coherent : Coherent cfg s) (taken : FlashSale.step cfg s l = some s')
    (claimed : stage'.claimed = stage.claimed)
    (times : ∀ line ∈ stage'.done, line.claimed.row.visibleAt ≤ line.time)
    (call : ∀ row delivery todo done, stage' = .deliver row delivery todo done →
      dispatch row.row = some delivery.call ∧ delivery.Sees s.server.db) :
    Carries s' started stage' := by
  refine ⟨carries.begun.trans (step_clock taken), fun c mem => ?_, times,
    fun row delivery todo done is => ?_⟩
  · rw [claimed] at mem
    obtain ⟨due, row, found, event⟩ := carries.rows c mem
    obtain ⟨row', found', event', -⟩ := step_row_kept coherent taken found
    exact ⟨due, row', found', event'.trans event⟩
  · obtain ⟨called, sees⟩ := call row delivery todo done is
    refine ⟨called, ?_⟩
    cases delivery with
    | otpSend otpId code =>
      obtain ⟨otp, found⟩ := sees
      obtain ⟨otp', found', -⟩ := step_otp_kept coherent taken found
      exact ⟨otp', found'⟩
    | otpMark otpId =>
      obtain ⟨otp, found⟩ := sees
      obtain ⟨otp', found', -⟩ := step_otp_kept coherent taken found
      exact ⟨otp', found'⟩
    | _ => trivial

@[simp] theorem claimed_beginDelivery (row : ClaimedRow) (todo : List ClaimedRow) (done : List Line) :
    (beginDelivery row todo done).claimed = done.map Line.claimed ++ row :: todo := by
  unfold beginDelivery
  split <;> rfl

@[simp] theorem done_beginDelivery (row : ClaimedRow) (todo : List ClaimedRow) (done : List Line) :
    (beginDelivery row todo done).done = done := by
  unfold beginDelivery
  split <;> rfl

@[simp] theorem claimed_stage (handled : Handled) (row : ClaimedRow) (todo : List ClaimedRow)
    (done : List Line) :
    (handled.stage row todo done).claimed = done.map Line.claimed ++ row :: todo := by
  cases handled <;> rfl

@[simp] theorem done_stage (handled : Handled) (row : ClaimedRow) (todo : List ClaimedRow)
    (done : List Line) : (handled.stage row todo done).done = done := by
  cases handled <;> rfl

/-- Every tick keeps track of its rows, whether it still has its transaction or has lost it. -/
theorem Delivering.step {l : Label} (delivering : Delivering s) (coherent : Coherent cfg s)
    (taken : FlashSale.step cfg s l = some s') : Delivering s' := by
  intro w started alive stage at_
  rcases step_ticks coherent taken w with ⟨same, -⟩ | ticks
  · rw [same] at at_
    have carries := delivering w started alive stage at_
    exact carries.step coherent taken rfl carries.times carries.call
  · generalize before : s.workers w = worker at ticks
    rw [at_] at ticks
    cases ticks with
    | polls => exact ⟨step_clock taken, fun c mem => (by cases mem), fun line mem => (by cases mem),
        fun _ _ _ _ eq => by cases eq⟩
    | @claims _ rows claims _ =>
      have begun := (delivering w started true .claim before).begun.trans (step_clock taken)
      refine ⟨begun, fun c mem => ?_, fun line mem => (by cases mem), fun _ _ _ _ eq => by cases eq⟩
      have mem' : c ∈ rows := by simpa [TickStage.claimed] using mem
      obtain ⟨row', found', event', -⟩ := step_row_kept coherent taken (claims.asClaimed c mem')
      exact ⟨(claims.due c mem').2, row', found', event'⟩
    | begins =>
      have carries := delivering w started alive _ before
      refine carries.step coherent taken (claimed_beginDelivery _ _ _)
        (by rw [done_beginDelivery]; exact carries.times) fun row delivery todo done eq => ?_
      unfold beginDelivery at eq
      split at eq
      · rename_i called
        cases eq
        exact ⟨by rw [called, dispatch_call called], dispatch_sees called _⟩
      · cases eq
    | @handles _ _ row delivery todo done choice move label ran server history =>
      have carries := delivering w started alive _ before
      refine carries.step coherent taken (claimed_stage _ _ _ _)
        (by rw [done_stage]; exact carries.times) fun row' delivery' todo' done' eq => ?_
      cases calling : move.next with
      | finished result => rw [calling] at eq; cases eq
      | calling next =>
        rw [calling] at eq
        cases eq
        obtain ⟨called, sees⟩ := carries.call _ _ _ _ rfl
        have continues := deliverStep_continues ran calling
        exact ⟨by rw [called, continues.call], continues.sees sees⟩
    | fails =>
      have carries := delivering w started alive _ before
      exact carries.step coherent taken rfl carries.times fun _ _ _ _ eq => by cases eq
    | @records _ row result todo done jitter =>
      have carries := delivering w started true _ before
      refine carries.step coherent taken (by simp [TickStage.claimed]) (fun line mem => ?_)
        fun _ _ _ _ eq => by cases eq
      rcases List.mem_append.mp mem with old | new
      · exact carries.times line old
      · cases List.mem_singleton.mp new
        have due := (carries.rows row (by simp [TickStage.claimed])).1
        have begun := carries.begun
        show row.row.visibleAt ≤ s.clock / 1000
        omega
    | loses =>
      have carries := delivering w started true stage before
      exact carries.step coherent taken rfl carries.times carries.call

/-- How a worker comes to be in a handler call: it was, it begins, or the call goes on. The
row and what is left of the tick stay the same through the call. -/
inductive DeliverMoves (cfg : Cfg) (s : State) (l : Label) (s' : State) (w : Nat) (started : Int)
    (alive : Bool) (row : ClaimedRow) (todo : List ClaimedRow) (done : List Line)
    (delivery : Delivery) : Prop where
  | same {alive' : Bool} (at_ : s.workers w = .polling started alive' (.deliver row delivery todo done))
      (spared : Spared (.handler w) s.server s'.server)
  | begins (called : dispatch row.row = some delivery)
  | steps {choice : Choice} {before : Delivery} (label : l = .worker w choice)
      (at_ : s.workers w = .polling started alive (.deliver row before todo done))
      (continues : Continues cfg s w choice s'.server before delivery)

/-- How a worker comes to be in a handler call. Whatever is shown of calls is shown by cases on
this. -/
theorem step_deliver {l : Label} {w : Nat} {alive : Bool} {row : ClaimedRow} {delivery : Delivery}
    {todo : List ClaimedRow} {done : List Line} (coherent : Coherent cfg s)
    (taken : step cfg s l = some s')
    (at_ : s'.workers w = .polling started alive (.deliver row delivery todo done)) :
    DeliverMoves cfg s l s' w started alive row todo done delivery := by
  rcases step_ticks coherent taken w with ⟨same, spared⟩ | ticks
  · rw [same] at at_
    exact .same at_ spared
  · generalize here : s.workers w = worker at ticks
    rw [at_] at ticks
    generalize stage_eq : TickStage.deliver row delivery todo done = stage at ticks
    cases ticks with
    | polls => cases stage_eq
    | claims => cases stage_eq
    | begins =>
      unfold beginDelivery at stage_eq
      split at stage_eq
      · rename_i called
        cases stage_eq
        exact .begins called
      · cases stage_eq
    | @handles _ _ row' before todo' done' choice move label ran server history =>
      cases calling : move.next with
      | finished result => rw [calling] at stage_eq; cases stage_eq
      | calling next =>
        rw [calling] at stage_eq
        cases stage_eq
        exact .steps label here (server ▸ deliverStep_continues ran calling)
    | fails => cases stage_eq
    | records => cases stage_eq
    | loses label spared =>
      cases stage_eq
      exact .same here spared

theorem Fresh.delivering (fresh : Fresh s) : Delivering s := by
  intro w started alive stage at_
  rw [fresh.workers w] at at_
  cases at_

end Steps

end FlashSale
