/-
# A worker on its own

One tick of a worker while every other process is idle. Nothing hinders it: it claims
what is due, each delivery comes to an end, every end is recorded, and the tick commits.

`Deliverable` says that the handler of an event has no reason to throw: its code can be
decrypted, or the stock has room for what it returns. An event that is not deliverable
still comes to an end, which is then recorded as a failure.

* `LeftAlone.delivers`: a handler call ends, without an error if the event is `Deliverable`.
* `LeftAlone.records`: its end is recorded.
* `LeftAlone.ticks`: the whole tick.
-/
import FlashSale.Causes
import FlashSale.Conformance
import FlashSale.SoloSettlement
import FlashSale.Lib.Reach

namespace FlashSale

open Lib (Table Tx Can Apart Idle Frame Lock applyAll)

/-! ### Deliverable events -/

/-- The handler of an event has no reason to throw: its code decrypts, or its stock has
room for what is returned. -/
def Deliverable (cfg : Cfg) (db : Db) : OutboxEvent → Prop
  | .otpSend _ otpId _ _ => ∀ otp, db.otpCodes.get? otpId = some otp → otp.sent = false →
      ∃ code, cfg.decrypt otp.encryptedCode = .ok code
  | .flashSaleSettle saleId => Returnable saleId db
  | _ => True

/-- What handlers leave as it is. -/
structure Kept (cfg : Cfg) (db db' : Db) : Prop where
  outbox : db'.outbox = db.outbox
  deliverable : ∀ event, Deliverable cfg db event → Deliverable cfg db' event

section Deliverables

variable {cfg : Cfg} {db db' db'' : Db}

theorem Kept.refl : Kept cfg db db := ⟨rfl, fun _ able => able⟩

theorem Kept.trans (first : Kept cfg db db') (second : Kept cfg db' db'') : Kept cfg db db'' :=
  ⟨second.outbox.trans first.outbox,
    fun event able => second.deliverable event (first.deliverable event able)⟩

theorem kept_markSent (cfg : Cfg) (db : Db) (otpId : Uuid) :
    Kept cfg db { db with
      otpCodes := db.otpCodes.modify otpId fun o => { o with sent := true } } := by
  refine ⟨rfl, fun event able => ?_⟩
  cases event with
  | otpSend userId otpId' channel identifier =>
    intro otp found unsent
    change (db.otpCodes.modify otpId _).get? otpId' = some otp at found
    obtain ⟨before, there, ⟨rfl, rfl⟩ | ⟨-, rfl⟩⟩ := Table.get?_modify_cases found
    · cases unsent
    · exact able otp there unsent
  | flashSaleSettle saleId => exact able
  | _ => trivial

theorem SettlesAlone.kept {saleId : Uuid} {started : Int} (conforms : db.Conforms)
    (settles : SettlesAlone saleId started db db') : Kept cfg db db' := by
  refine ⟨by cases settles <;> rfl, fun event able => ?_⟩
  cases event with
  | otpSend userId otpId channel identifier => cases settles <;> exact able
  | flashSaleSettle saleId' => exact settles.returnable conforms able
  | _ => trivial

end Deliverables

/-! ### The worker and the others -/

/-- What holds in every run from a database without events, and which the recovery of the
outbox relies on. -/
structure WellRun (cfg : Cfg) (s : State) : Prop where
  processing : Processing cfg s
  claiming : Claiming cfg s
  upheld : Lib.Upheld schema s.server

/-- All other processes are idle, and the tick of the worker locks only events. So nothing
stands in the way of its handlers. -/
structure LeftAlone (cfg : Cfg) (w : Nat) (s : State) : Prop where
  wellRun : WellRun cfg s
  clients : ∀ n, s.clients n = .idle
  workers : ∀ w', w' ≠ w → s.workers w' = .idle
  events : ∀ l, (Sid.tick w, l) ∈ s.server.locks → ¬ l.resource.NoEvent

/-- The labels with which a worker recovers the system: processes die, time passes, and
the worker polls. -/
def Label.Recovers (w : Nat) : Label → Prop
  | .clientCrash _ => True
  | .workerCrash _ => True
  | .elapse _ => True
  | .poll w' => w' = w
  | .worker w' _ => w' = w
  | _ => False

/-- Such labels lead to a state with `P`. -/
abbrev CanRecover (cfg : Cfg) (w : Nat) (P : State → Prop) (s : State) : Prop :=
  Can (step cfg) (Label.Recovers w) P s

/-- Nothing random, and no time between the stamp and the statement. -/
def calm : Choice := ⟨0, [], 0, 0⟩

section Steps

variable {cfg : Cfg} {s : State} {w : Nat} {l : Label} {s' : State}

theorem WellRun.coherent (wellRun : WellRun cfg s) : Coherent cfg s := wellRun.processing.coherent

theorem WellRun.met (wellRun : WellRun cfg s) : s.server.db.Conforms := wellRun.upheld.met

theorem WellRun.step (wellRun : WellRun cfg s) (limit : 1 ≤ cfg.maxAttempts)
    (taken : FlashSale.step cfg s l = some s') : WellRun cfg s' :=
  ⟨wellRun.processing.step taken, wellRun.claiming.step limit taken,
    step_upheld wellRun.coherent wellRun.upheld taken⟩

theorem LeftAlone.client_idle (alone : LeftAlone cfg w s) (n : Nat) : Idle s.server
    (.client n) := by
  have safe := alone.wellRun.coherent.clients n
  rw [alone.clients n] at safe
  exact safe

theorem LeftAlone.worker_idle (alone : LeftAlone cfg w s) {w' : Nat} (other : w' ≠ w) :
    Idle s.server (.tick w') ∧ Idle s.server (.handler w') := by
  have safe := alone.wellRun.coherent.workers w'
  rw [alone.workers w' other] at safe
  exact safe

/-- Nothing hinders the handler. -/
theorem LeftAlone.apart (alone : LeftAlone cfg w s) : Apart Resource.NoEvent s.server
    (.handler w) := by
  rintro ⟨sid, l⟩ mem other uses
  cases sid with
  | client n => exact (alone.client_idle n).locks l mem
  | tick w' =>
    by_cases own : w' = w
    · subst own
      exact alone.events l mem uses
    · exact (alone.worker_idle own).1.locks l mem
  | handler w' =>
    have ne : w' ≠ w := fun own => other (congrArg _ own)
    exact (alone.worker_idle ne).2.locks l mem

/-- Nothing hinders the tick while the handler is idle. -/
theorem LeftAlone.apart_tick (alone : LeftAlone cfg w s) (idle : Idle s.server (.handler w)) :
    Apart (fun _ => True) s.server (.tick w) := by
  rintro ⟨sid, l⟩ mem other -
  cases sid with
  | client n => exact (alone.client_idle n).locks l mem
  | tick w' =>
    have ne : w' ≠ w := fun own => other (congrArg _ own)
    exact (alone.worker_idle ne).1.locks l mem
  | handler w' =>
    by_cases own : w' = w
    · subst own
      exact idle.locks l mem
    · exact (alone.worker_idle own).2.locks l mem

/-- A step of the worker leaves the others idle. -/
theorem LeftAlone.move (alone : LeftAlone cfg w s) (limit : 1 ≤ cfg.maxAttempts)
    {move : Move Worker}
    (taken : FlashSale.step cfg s l = some (s.moveWorker w move))
    (events : ∀ l, (Sid.tick w, l) ∈ move.server.locks → ¬ l.resource.NoEvent) :
    LeftAlone cfg w (s.moveWorker w move) :=
  ⟨alone.wellRun.step limit taken, alone.clients,
    fun w' other => (State.moveWorker_ne s move other).trans (alone.workers w' other), events⟩

theorem step_worker {move : Move Worker} (ran : workerStep cfg s w calm (s.workers w) = some move) :
    FlashSale.step cfg s (.worker w calm) = some (s.moveWorker w move) := by
  simp only [FlashSale.step, ran, Option.map_some]

theorem CanRecover.work {P : State → Prop} (taken : FlashSale.step cfg s (.worker w calm) = some s')
    (rest : CanRecover cfg w P s') : CanRecover cfg w P s :=
  Can.next (l := .worker w calm) (show w = w from rfl) taken rest

/-! ### Handler calls -/

variable {started : Int} {row : ClaimedRow} {delivery : Delivery} {todo : List ClaimedRow}
  {done : List Line}

/-- A step of a handler call. -/
theorem LeftAlone.handles (alone : LeftAlone cfg w s) (limit : 1 ≤ cfg.maxAttempts)
    (at_ : s.workers w = .polling started true (.deliver row delivery todo done))
    {handled : Move Handled} (ran : deliverStep cfg s w row calm delivery = some handled) :
    ∃ s', FlashSale.step cfg s (.worker w calm) = some s' ∧ LeftAlone cfg w s' ∧
      s'.workers w = .polling started true (handled.next.stage row todo done) ∧
      s'.server = handled.server := by
  let move : Move Worker :=
    { handled with next := .polling started true (handled.next.stage row todo done) }
  have moves : workerStep cfg s w calm (s.workers w) = some move := by
    rw [at_, workerStep, ran]
    rfl
  have frame := (deliverStep_moves alone.wellRun.coherent.sound
    (alone.wellRun.coherent.delivery_safe at_) ran).frame
  refine ⟨s.moveWorker w move, step_worker moves, alone.move limit (step_worker moves) ?_,
    State.moveWorker_self .., rfl⟩
  intro l held
  exact alone.events l ((frame.locks _ (by simp) l).mp held)

/-- The handler call for a row has ended on rows like these, without an error if that is
so. -/
structure Ended (cfg : Cfg) (w : Nat) (started : Int) (row : ClaimedRow) (todo : List ClaimedRow)
    (done : List Line) (db : Db) (able : Prop) (s : State) : Prop where
  alone : LeftAlone cfg w s
  kept : Kept cfg db s.server.db
  result : ∃ result, s.workers w = .polling started true (.record row result todo done) ∧
    (able → result = .ok ())

/-- The last step of a handler call. -/
theorem LeftAlone.ends (alone : LeftAlone cfg w s) (limit : 1 ≤ cfg.maxAttempts)
    (at_ : s.workers w = .polling started true (.deliver row delivery todo done))
    {handled : Move Handled} {result : Delivered}
    (ran : deliverStep cfg s w row calm delivery = some handled)
    (finished : handled.next = .finished result) (kept : Kept cfg s.server.db handled.server.db)
    {able : Prop} (good : able → result = .ok ()) :
    CanRecover cfg w (Ended cfg w started row todo done s.server.db able) s := by
  obtain ⟨s', taken, alone', at', server⟩ := alone.handles limit at_ ran
  rw [finished] at at'
  exact .work taken (.here ⟨alone', by rw [server]; exact kept, result, at', good⟩)

/-- A step of a handler call that does not change the rows. -/
theorem LeftAlone.goes (alone : LeftAlone cfg w s) (limit : 1 ≤ cfg.maxAttempts)
    (at_ : s.workers w = .polling started true (.deliver row delivery todo done))
    {handled : Move Handled} {delivery' : Delivery}
    (ran : deliverStep cfg s w row calm delivery = some handled)
    (calling : handled.next = .calling delivery') (same : handled.server.db = s.server.db)
    {able : Prop}
    (rest : ∀ s', LeftAlone cfg w s' → s'.server = handled.server →
      s'.workers w = .polling started true (.deliver row delivery' todo done) →
        CanRecover cfg w (Ended cfg w started row todo done s'.server.db able) s') :
    CanRecover cfg w (Ended cfg w started row todo done s.server.db able) s := by
  obtain ⟨s', taken, alone', at', server⟩ := alone.handles limit at_ ran
  rw [calling] at at'
  have goes := rest s' alone' server at'
  rw [server, same] at goes
  exact .work taken goes

theorem LeftAlone.auto (alone : LeftAlone cfg w s) (idle : Idle s.server (.handler w)) (st : Stmt)
    (ws : List Write) (r : st.Result)
    (got : (plan st (s.env (.handler w) s.clock calm) s.server.db).answer = .ok (ws, r))
    (uses : ∀ l ∈ (plan st (s.env (.handler w) s.clock calm) s.server.db).locks,
      l.resource.NoEvent) :
    ∃ server, s.handlerAuto w st calm = some (.ok r, server) ∧
      server.db = applyAll s.server.db ws :=
  alone.apart.auto idle uses got

theorem LeftAlone.marks (alone : LeftAlone cfg w s) (limit : 1 ≤ cfg.maxAttempts) {otpId : Uuid}
    {otp : OtpRow}
    (at_ : s.workers w = .polling started true (.deliver row (.otpMark otpId) todo done))
    (found : s.server.db.otpCodes.get? otpId = some otp) (able : Prop) :
    CanRecover cfg w (Ended cfg w started row todo done s.server.db able) s := by
  have idle : Idle s.server (.handler w) := alone.wellRun.coherent.delivery_safe at_
  obtain ⟨server, updates, effect⟩ := alone.auto idle (.updateSent otpId) [.markSent otpId] ()
    (by simp [plan, found, updating])
    (by simp [plan, found, updating, Write.needs, Resource.NoEvent])
  have ran : deliverStep cfg s w row calm (.otpMark otpId) = otpMarkStep cfg s w otpId calm := rfl
  rw [otpMarkStep, updates] at ran
  refine alone.ends limit at_ ran rfl ?_ fun _ => rfl
  show Kept cfg _ server.db
  rw [effect]
  exact kept_markSent cfg s.server.db otpId

theorem LeftAlone.sends (alone : LeftAlone cfg w s) (limit : 1 ≤ cfg.maxAttempts) {otpId : Uuid}
    {otp : OtpRow}
    (at_ : s.workers w =
      .polling started true (.deliver row (.otpSend otpId otp.encryptedCode) todo done))
    (found : s.server.db.otpCodes.get? otpId = some otp) {able : Prop}
    (decrypts : able → ∃ code, cfg.decrypt otp.encryptedCode = .ok code) :
    CanRecover cfg w (Ended cfg w started row todo done s.server.db able) s := by
  have ran : deliverStep cfg s w row calm (.otpSend otpId otp.encryptedCode) =
      some (otpSendStep cfg s row otpId otp.encryptedCode) := rfl
  unfold otpSendStep at ran
  cases decrypted : cfg.decrypt otp.encryptedCode with
  | error message =>
    rw [decrypted] at ran
    refine alone.ends limit at_ ran rfl .refl fun able => ?_
    obtain ⟨code, is⟩ := decrypts able
    rw [decrypted] at is
    cases is
  | ok code =>
    rw [decrypted] at ran
    refine alone.goes limit at_ ran rfl rfl fun s' alone' server at' => ?_
    change s'.server = s.server at server
    exact alone'.marks limit at' (server ▸ found) able

theorem LeftAlone.finds (alone : LeftAlone cfg w s) (limit : 1 ≤ cfg.maxAttempts) {otpId : Uuid}
    {otp : OtpRow}
    (at_ : s.workers w = .polling started true (.deliver row (.otpFind otpId) todo done))
    (found : s.server.db.otpCodes.get? otpId = some otp) {able : Prop}
    (decrypts : able → otp.sent = false → ∃ code, cfg.decrypt otp.encryptedCode = .ok code) :
    CanRecover cfg w (Ended cfg w started row todo done s.server.db able) s := by
  have idle : Idle s.server (.handler w) := alone.wellRun.coherent.delivery_safe at_
  obtain ⟨server, read, effect⟩ := alone.auto idle (.findOtp otpId) [] (some otp)
    (by simp [plan, found, reading]) (by simp [plan, reading])
  have ran : deliverStep cfg s w row calm (.otpFind otpId) = otpFindStep cfg s w otpId calm := rfl
  rw [otpFindStep, read, Option.map_some] at ran
  dsimp only at ran
  cases sent : otp.sent with
  | true =>
    rw [sent] at ran
    refine alone.ends limit at_ ran rfl ?_ fun _ => rfl
    show Kept cfg _ server.db
    rw [effect]
    exact .refl
  | false =>
    rw [sent] at ran
    refine alone.goes limit at_ ran rfl effect fun s' alone' server' at' => ?_
    have there : s'.server.db.otpCodes.get? otpId = some otp := by
      rw [server']
      show server.db.otpCodes.get? otpId = some otp
      rw [effect]
      exact found
    exact alone'.sends limit at' there fun able => decrypts able sent

/-! ### Settlements -/

/-- What the end of a settlement is recorded as. -/
def deliveredAs (cfg : Cfg) : Except Failure (Option (List Unsold) × List Write) → Delivered
  | .ok _ => .ok ()
  | .error e => .error (e.text cfg)

/-- The worker goes through a transaction that its handler is in. -/
theorem LeftAlone.settles (alone : LeftAlone cfg w s) (limit : 1 ≤ cfg.maxAttempts) {saleId : Uuid}
    {t : Int}
    {body : Program (Option (List Unsold))}
    {Q : Except Failure (Option (List Unsold) × List Write) → Prop} {db : Db}
    (same : s.server.db = db)
    (at_ : s.workers w = .polling started true (.deliver row (.settleTx saleId t body) todo done))
    (ensures : body.Ensures plan (fun env => env.started = t) Resource.NoEvent db Q
      (s.server.writesOf (.handler w))) :
    CanRecover cfg w (fun s' => LeftAlone cfg w s' ∧ ∃ out, Q out ∧
      s'.server.db = (Lib.settle db out).2 ∧
      s'.workers w = .polling started true (.record row (deliveredAs cfg out) todo done)) s := by
  have threw : ∀ {s : State} {e : Failure}, LeftAlone cfg w s → s.server.db = db → Q (.error e) →
      s.workers w = .polling started true (.deliver row (.settleTx saleId t (.throw e)) todo done) →
      CanRecover cfg w (fun s' => LeftAlone cfg w s' ∧ ∃ out, Q out ∧
        s'.server.db = (Lib.settle db out).2 ∧
        s'.workers w = .polling started true (.record row (deliveredAs cfg out) todo done)) s := by
    intro s e alone same holds at_
    have ran : deliverStep cfg s w row calm (.settleTx saleId t (.throw e)) =
        some ⟨s.server.rollback (.handler w), .finished (.error (e.text cfg)), s.serial, []⟩ := rfl
    obtain ⟨s', taken, alone', at', server⟩ := alone.handles limit at_ ran
    refine .work taken (.here ⟨alone', .error e, holds, ?_, at'⟩)
    rw [server]
    exact same
  induction body generalizing s with
  | pure result =>
    have ran : deliverStep cfg s w row calm (.settleTx saleId t (.pure result)) =
        some ⟨s.server.commit (.handler w), .finished (.ok ()), s.serial,
          .committed (.settled saleId t result) ::
            if result.isSome then [.effect row.id .stockReturned] else []⟩ := rfl
    obtain ⟨s', taken, alone', at', server⟩ := alone.handles limit at_ ran
    refine .work taken (.here ⟨alone', .ok (result, _), ensures, ?_, at'⟩)
    rw [server, ← same]
    rfl
  | throw e => exact threw alone same ensures at_
  | now next ih =>
    have ran : deliverStep cfg s w row calm (.settleTx saleId t (.now next)) =
        some ⟨s.server, .calling (.settleTx saleId t (next s.now)), s.serial + 0, []⟩ := rfl
    obtain ⟨s', taken, alone', at', server⟩ := alone.handles limit at_ ran
    exact .work taken (ih s.now alone' (by rw [server]; exact same) at'
      (by rw [server]; exact ensures s.now))
  | exec st onError next ih =>
    obtain ⟨uses, errors, answers⟩ := ensures (s.env (.handler w) t calm) rfl
    have view : s.server.view (.handler w) = applyAll db (s.server.writesOf (.handler w)) := by
      rw [Lib.Server.view, same]
    rw [← view] at uses errors answers
    have ran : deliverStep cfg s w row calm (.settleTx saleId t (.exec st onError next)) =
        settleStep cfg s w row saleId t (.exec st onError next) calm := rfl
    rw [settleStep, Tx.advance, alone.apart.statement uses, Option.map_some, Option.map_some] at ran
    cases got : (plan st (s.env (.handler w) t calm) (s.server.view (.handler w))).answer with
    | error e =>
      simp only [got] at ran
      obtain ⟨s', taken, alone', at', server⟩ := alone.handles limit at_ ran
      have same' : s'.server.db = db := by
        rw [server]
        exact same
      exact .work taken (threw alone' same' (errors e got) at')
    | ok found =>
      obtain ⟨ws, r⟩ := found
      simp only [got] at ran
      obtain ⟨s', taken, alone', at', server⟩ := alone.handles limit at_ ran
      have same' : s'.server.db = db := by
        rw [server]
        exact same
      refine .work taken (ih r alone' same' at' ?_)
      rw [server]
      dsimp only
      rw [Lib.Server.writesOf_extend_self]
      exact answers ws r got

theorem LeftAlone.returns (alone : LeftAlone cfg w s) (limit : 1 ≤ cfg.maxAttempts) {saleId : Uuid}
    (at_ : s.workers w = .polling started true (.deliver row (.settleBegin saleId) todo done)) :
    CanRecover cfg w
      (Ended cfg w started row todo done s.server.db (Returnable saleId s.server.db)) s := by
  have idle : Idle s.server (.handler w) := alone.wellRun.coherent.delivery_safe at_
  refine alone.goes limit at_ rfl rfl rfl fun s' alone' server at' => ?_
  change s'.server = s.server at server
  have ensures := settle_ensures alone'.wellRun.met saleId s.clock
  have none : s'.server.writesOf (.handler w) = [] := by
    rw [server]
    exact idle.writes
  rw [← none] at ensures
  refine (alone'.settles limit rfl at' ensures).imp fun s'' ended => ?_
  obtain ⟨alone'', out, holds, db, at''⟩ := ended
  refine ⟨alone'', ?_, deliveredAs cfg out, at'', fun room => ?_⟩
  · rw [db]
    cases out with
    | ok result =>
      obtain ⟨result, ws⟩ := result
      exact SettlesAlone.kept alone'.wellRun.met holds
    | error e => exact .refl
  · cases out with
    | ok result => rfl
    | error e =>
      rw [← server] at room
      exact absurd room holds

/-! ### Deliveries -/

/-- The call for a row comes to an end. What it delivers is achieved if it can be, and fails
otherwise. -/
theorem LeftAlone.delivers (alone : LeftAlone cfg w s) (limit : 1 ≤ cfg.maxAttempts)
    (called : dispatch row.row = some delivery)
    (described : ∃ row', row.row.event.Describes s.server.db row')
    (at_ : s.workers w = .polling started true (.deliver row delivery todo done)) :
    CanRecover cfg w
      (Ended cfg w started row todo done s.server.db
        (Deliverable cfg s.server.db row.row.event)) s := by
  have notifies : ∀ kind, delivery = .notify kind → CanRecover cfg w
      (Ended cfg w started row todo done s.server.db
        (Deliverable cfg s.server.db row.row.event)) s := by
    rintro kind rfl
    exact alone.ends limit at_ rfl rfl .refl fun _ => rfl
  obtain ⟨row', described⟩ := described
  unfold dispatch at called
  cases event : row.row.event with
  | otpSend userId otpId channel identifier =>
    rw [event] at called described
    cases called
    obtain ⟨-, ⟨otp, found, -⟩, -⟩ := described
    exact alone.finds limit at_ found fun able => able otp found
  | purchaseCompleted purchaseId userId saleItemId =>
    rw [event] at called notifies
    exact notifies _ (Option.some.inj called).symm
  | flashSaleCreated saleId items =>
    rw [event] at called notifies
    exact notifies _ (Option.some.inj called).symm
  | flashSaleSettle saleId =>
    rw [event] at called
    cases called
    exact alone.returns limit at_
  | other type =>
    rw [event] at called
    cases called

/-! ### Recording -/

/-- The attempts of a claimed row fit into their column when its delivery is recorded. -/
theorem WellRun.recordable (wellRun : WellRun cfg s) (column : cfg.maxAttempts ≤ 2147483647)
    (line : Line) (there : s.server.db.outbox.get? line.claimed.id = some line.claimed.row)
    (pending : line.claimed.row.status = .pending) :
    int4 ((line.change cfg).apply line.claimed.row).attempts = true := by
  have after := (wellRun.claiming.counted.present _ _ there).change pending
  have most : ((line.change cfg).apply line.claimed.row).attempts ≤ cfg.maxAttempts := by
    by_cases dead : ((line.change cfg).apply line.claimed.row).status = .deadLetter
    · exact (after.dead.mp dead).le
    · exact (after.live dead).le
  simp only [int4, decide_eq_true_eq]
  omega

theorem LeftAlone.tick (alone : LeftAlone cfg w s) {stage : TickStage}
    (at_ : s.workers w = .polling started true stage) : TickSafe cfg s.server w started stage := by
  have safe := alone.wellRun.coherent.workers w
  rw [at_] at safe
  exact safe.1

theorem LeftAlone.handler (alone : LeftAlone cfg w s) {stage : TickStage}
    (at_ : s.workers w = .polling started true stage) : HandlerSafe s.server w stage := by
  have safe := alone.wellRun.coherent.workers w
  rw [at_] at safe
  exact safe.2

/-- The rows that a tick has claimed are there, and they are pending. -/
theorem LeftAlone.claimed (alone : LeftAlone cfg w s) {stage : TickStage}
    (at_ : s.workers w = .polling started true stage) {c : ClaimedRow} (mem : c ∈ stage.claimed) :
    s.server.db.outbox.get? c.id = some c.row ∧ c.row.status = .pending := by
  have safe := alone.tick at_
  obtain ⟨L, holds⟩ := safe.holds
  exact ⟨holds.facts c mem, (safe.due c mem).1⟩

/-- The update that records a delivery is not refused: the tick holds the lock of its row, and
the counts are within their columns. -/
theorem LeftAlone.records (alone : LeftAlone cfg w s) (limit : 1 ≤ cfg.maxAttempts)
    (column : cfg.maxAttempts ≤ 2147483647) {result : Delivered}
    (at_ : s.workers w = .polling started true (.record row result todo done)) :
    ∃ s', FlashSale.step cfg s (.worker w calm) = some s' ∧ LeftAlone cfg w s' ∧
      s'.workers w =
        .polling started true (.next todo (done ++ [⟨row, result, s.now, calm.jitter⟩])) ∧
      s'.server.db = s.server.db := by
  have idle : Idle s.server (.handler w) := alone.handler at_
  have safe := alone.tick at_
  obtain ⟨L, holds⟩ := safe.holds
  obtain ⟨there, pending⟩ := alone.claimed at_ (c := row) (by simp [TickStage.claimed])
  let line : Line := ⟨row, result, s.now, calm.jitter⟩
  -- What the tick sees of the row is what it has claimed.
  have found : (s.server.view (.tick w)).outbox.get? row.id = some row.row := by
    rw [Lib.Server.view, holds.writes, applyAll_changes]
    refine (Table.get?_modifyAll_of_notMem ?_).trans there
    rw [Line.update_keys]
    have nodup := safe.nodup
    simp only [TickStage.claimed, List.map_append, List.map_map, List.map_cons] at nodup
    exact fun mem => (List.nodup_append.mp nodup).2.2 _ mem _ List.mem_cons_self rfl
  have fits := alone.wellRun.recordable column line there pending
  have planned : plan (.updateOutbox row.id (line.change cfg)) (s.env (.tick w) started calm)
      (s.server.view (.tick w)) =
      ⟨[⟨.outbox row.id, .noKeyUpdate⟩], .ok ([.changeOutbox row.id (line.change cfg)], ())⟩ := by
    change int4 ((line.change cfg).apply row.row).attempts = true at fits
    simp only [plan, found, violations, fits, Bool.not_true, Bool.false_eq_true, if_false]
    rfl
  let server := s.server.extend (.tick w) [⟨.outbox row.id, .noKeyUpdate⟩]
    [.changeOutbox row.id (line.change cfg)]
  have updates : s.tickStatement w started (.updateOutbox row.id (line.change cfg)) calm =
      some (.ok (), server) := by
    rw [State.tickStatement, planned, (alone.apart_tick idle).statement fun _ _ => trivial]
  have runs : workerStep cfg s w calm (s.workers w) =
      some ⟨server, .polling started true (.next todo (done ++ [line])), s.serial, []⟩ := by
    rw [at_]
    show (s.tickStatement w started (.updateOutbox row.id (line.change cfg)) calm).map _ = _
    rw [updates]
    rfl
  refine ⟨_, step_worker runs, alone.move limit (step_worker runs) ?_, State.moveWorker_self ..,
    rfl⟩
  intro l held
  rcases Lib.Server.mem_locks_extend.mp held with old | ⟨-, new⟩
  · exact alone.events l old
  · rw [List.mem_singleton.mp new]
    exact fun no => no row.id rfl

/-! ### The tick -/

theorem mem_due_of {env : Env} {db : Db} {c : ClaimedRow} (found : db.outbox.get? c.id = some c.row)
    (pending : c.row.status = .pending) (isDue : c.row.visibleAt * 1000 ≤ env.started)
    (free : env.free (.outbox c.id) = true) : c ∈ due env db := by
  refine (List.mem_insertionSort _).mpr (List.mem_map.mpr ⟨(c.id, c.row), ?_, rfl⟩)
  refine Table.mem_select.mpr ⟨found, ?_⟩
  simp [pending, isDue, free]

/-- The claim, when every pending row is due. -/
theorem LeftAlone.claims (alone : LeftAlone cfg w s) (limit : 1 ≤ cfg.maxAttempts)
    (batch : 1 ≤ cfg.batchSize)
    (at_ : s.workers w = .polling started true .claim)
    (isDue : ∀ id row, s.server.db.outbox.get? id = some row → row.visibleAt * 1000 ≤ started) :
    ∃ s' rows, FlashSale.step cfg s (.worker w calm) = some s' ∧ LeftAlone cfg w s' ∧
      s'.workers w = .polling started true (.next rows []) ∧ s'.server.db = s.server.db ∧
      (rows = [] → ∀ id row, s.server.db.outbox.get? id = some row → row.status ≠ .pending) := by
  have idle : Idle s.server (.handler w) := alone.handler at_
  obtain ⟨L, holds⟩ := (alone.tick at_).holds
  have view : s.server.view (.tick w) = s.server.db := by
    rw [Lib.Server.view, holds.writes]
    rfl
  have apart := alone.apart_tick idle
  let rows := (due (s.env (.tick w) started calm) s.server.db).take cfg.batchSize
  let locks : List (Lock Resource) := rows.map fun c => ⟨.outbox c.id, .update⟩
  have planned : plan (.claim cfg.batchSize) (s.env (.tick w) started calm) s.server.db =
      ⟨locks, .ok ([], rows)⟩ := rfl
  have runs : workerStep cfg s w calm (s.workers w) =
      some ⟨s.server.extend (.tick w) locks [], .polling started true (.next rows []), s.serial,
        [.claimed w started rows]⟩ := by
    rw [at_]
    show claimStep cfg s w started calm = _
    unfold claimStep State.tickStatement
    rw [view, planned, apart.statement fun _ _ => trivial]
    rfl
  refine ⟨_, rows, step_worker runs, alone.move limit (step_worker runs) ?_,
    State.moveWorker_self .., rfl, fun none id row found pending => ?_⟩
  · intro l held
    rcases Lib.Server.mem_locks_extend.mp held with old | ⟨-, new⟩
    · exact alone.events l old
    · obtain ⟨c, -, rfl⟩ := List.mem_map.mp new
      exact fun no => no c.id rfl
  · have mem : (⟨id, row⟩ : ClaimedRow) ∈ due (s.env (.tick w) started calm) s.server.db :=
      mem_due_of found pending (isDue id row found) (apart.grants trivial)
    cases all : due (s.env (.tick w) started calm) s.server.db with
    | nil =>
      rw [all] at mem
      cases mem
    | cons first others =>
      obtain ⟨size, is⟩ := Nat.exists_eq_add_of_le' batch
      simp only [rows, all, is, List.take_succ_cons] at none
      cases none

/-- The rows of a batch, one after another. -/
theorem LeftAlone.batch (alone : LeftAlone cfg w s) (limit : 1 ≤ cfg.maxAttempts)
    (column : cfg.maxAttempts ≤ 2147483647)
    (at_ : s.workers w = .polling started true (.next todo done)) :
    CanRecover cfg w (fun s' => LeftAlone cfg w s' ∧ Kept cfg s.server.db s'.server.db ∧
      ∃ lines, s'.workers w = .polling started true (.next [] (done ++ lines)) ∧
        lines.map Line.claimed = todo ∧ ∀ line ∈ lines,
          Deliverable cfg s.server.db line.claimed.row.event → line.result = .ok ()) s := by
  induction todo generalizing s done with
  | nil => exact .here ⟨alone, .refl, [], by rwa [List.append_nil], rfl, by simp⟩
  | cons row todo ih =>
    have begins : workerStep cfg s w calm (s.workers w) =
        some (s.goOn (.polling started true (beginDelivery row todo done)) []) := by
      rw [at_]
      rfl
    have alone₁ := alone.move limit (step_worker begins) alone.events
    have there := alone.claimed at_ (c := row) (by simp [TickStage.claimed])
    have described := alone.wellRun.processing.announced.describes row.id row.row there.1
    generalize s₁_is :
      s.moveWorker w (s.goOn (.polling started true (beginDelivery row todo done)) []) = s₁ at alone₁
    have at₁ : s₁.workers w = .polling started true (beginDelivery row todo done) := by
      rw [← s₁_is]
      exact State.moveWorker_self ..
    have same₁ : s₁.server = s.server := by
      rw [← s₁_is]
      rfl
    -- The delivery ends, with or without a call.
    have ends : CanRecover cfg w (Ended cfg w started row todo done s.server.db
        (Deliverable cfg s.server.db row.row.event)) s := by
      refine .work (s₁_is ▸ step_worker begins) ?_
      unfold beginDelivery at at₁
      rw [← same₁] at described ⊢
      cases called : dispatch row.row with
      | none =>
        rw [called] at at₁
        exact .here ⟨alone₁, .refl, _, at₁, fun _ => rfl⟩
      | some delivery =>
        rw [called] at at₁
        exact alone₁.delivers limit called ⟨_, described⟩ at₁
    refine ends.andThen fun s₂ ended => ?_
    obtain ⟨alone₂, kept₂, result, at₂, good⟩ := ended
    obtain ⟨s₃, taken, alone₃, at₃, same₃⟩ := alone₂.records limit column at₂
    refine CanRecover.work taken ((ih alone₃ at₃).imp fun s₄ rest => ?_)
    rw [same₃] at rest
    obtain ⟨alone₄, kept₄, lines, at₄, claimed, oks⟩ := rest
    refine ⟨alone₄, kept₂.trans kept₄, ⟨row, result, s₂.now, calm.jitter⟩ :: lines, ?_, ?_,
      fun line mem able => ?_⟩
    · rw [at₄, List.append_assoc]
      rfl
    · rw [List.map_cons, claimed]
    · rcases List.mem_cons.mp mem with rfl | later
      · exact good able
      · exact oks line later (kept₂.deliverable _ able)

theorem LeftAlone.commits (alone : LeftAlone cfg w s) (limit : 1 ≤ cfg.maxAttempts)
    (at_ : s.workers w = .polling started true (.next [] done)) :
    ∃ s', FlashSale.step cfg s (.worker w calm) = some s' ∧ LeftAlone cfg w s' ∧
      s'.workers w = .idle ∧ TickCommits cfg done s.server.db s'.server.db := by
  have runs : workerStep cfg s w calm (s.workers w) =
      some ⟨s.server.commit (.tick w), .idle, s.serial, [.committed (.ticked done)]⟩ := by
    rw [at_]
    rfl
  have coherent := alone.wellRun.coherent
  have moves := workerStep_moves coherent.sound (coherent.workers w) runs
  refine ⟨_, step_worker runs, alone.move limit (step_worker runs) ?_, State.moveWorker_self .., ?_⟩
  · intro l held
    exact absurd rfl (Lib.Server.mem_locks_rollback.mp held).2
  · rcases moves.effects with ⟨none, -⟩ | ⟨commit, is, happened⟩
    · cases none
    · cases is
      cases happened with
      | ticked spec => exact spec

/-- A tick has ended on rows like these: each line changes its row, and there is a line
unless no row was pending. -/
structure Ticked (cfg : Cfg) (w : Nat) (db : Db) (s : State) : Prop where
  alone : LeftAlone cfg w s
  idle : s.workers w = .idle
  ticked : ∃ lines mid, Kept cfg db mid ∧ TickCommits cfg lines mid s.server.db ∧
    (∀ line ∈ lines, Deliverable cfg db line.claimed.row.event → line.result = .ok ()) ∧
    (lines = [] → ∀ id row, db.outbox.get? id = some row → row.status ≠ .pending)

/-- The worker waits until everything pending is due, and makes a tick. Rows beyond its batch
are left to the next one. -/
theorem LeftAlone.ticks (alone : LeftAlone cfg w s) (limit : 1 ≤ cfg.maxAttempts)
    (column : cfg.maxAttempts ≤ 2147483647) (batch : 1 ≤ cfg.batchSize)
    (idle : s.workers w = .idle) :
    CanRecover cfg w (Ticked cfg w s.server.db) s := by
  obtain ⟨last, due⟩ := s.server.db.outbox.bounded fun _ row => row.visibleAt * 1000
  let s₁ : State := { s with clock := s.clock + (last - s.clock).toNat }
  have waits : step cfg s (.elapse (last - s.clock).toNat) = some s₁ := rfl
  let s₂ := s₁.moveWorker w (s₁.goOn (.polling s₁.clock true .claim) [])
  have polls : step cfg s₁ (.poll w) = some s₂ := by
    show pollStep s₁ w = some s₂
    unfold pollStep
    rw [show s₁.workers w = .idle from idle]
  have alone₁ : LeftAlone cfg w s₁ :=
    ⟨alone.wellRun.step limit waits, alone.clients, alone.workers, alone.events⟩
  have alone₂ : LeftAlone cfg w s₂ := alone₁.move limit polls alone.events
  have at₂ : s₂.workers w = .polling s₁.clock true .claim := State.moveWorker_self ..
  have isDue : ∀ id row, s₂.server.db.outbox.get? id = some row →
      row.visibleAt * 1000 ≤ s₁.clock := by
    intro id row found
    have bound := due id row found
    show row.visibleAt * 1000 ≤ s.clock + (last - s.clock).toNat
    omega
  obtain ⟨s₃, rows, claims, alone₃, at₃, same₃, more⟩ := alone₂.claims limit batch at₂ isDue
  refine Can.next (l := .elapse _) trivial waits ?_
  refine Can.next (l := .poll w) (show w = w from rfl) polls ?_
  refine CanRecover.work claims ?_
  refine (alone₃.batch limit column at₃).andThen fun s₄ rest => ?_
  obtain ⟨alone₄, kept, lines, at₄, claimed, oks⟩ := rest
  rw [same₃] at kept oks
  rw [List.nil_append] at at₄
  obtain ⟨s₅, taken, alone₅, at₅, spec⟩ := alone₄.commits limit at₄
  refine CanRecover.work taken (.here ?_)
  refine ⟨alone₅, at₅, lines, s₄.server.db, kept, spec, oks, fun none => ?_⟩
  rw [none] at claimed
  exact more claimed.symm

end Steps

end FlashSale
