/-
# Processed rows and their effects

An event is achieved when its code is marked sent, or its sale is settled; a notification
leaves nothing in the database, and counts as achieved by itself. The commit of a tick and
the transaction of its handler are different transactions, so the invariant has to follow
from one to the other: what a handler has earned is kept by all other steps until the tick
records it, and a tick that is lost records nothing.

* `deliverStep_achieves`: a handler call that ends normally has done what its event
  is for, also where it returns early.
* `Honest.step`: commits that are `Earned` keep what the outbox says of the effects.
* `Run.processed_achieved`: no row is processed without its effect, and the stock of
  a sale is not stranded.
-/
import FlashSale.Announced
import FlashSale.Delivering

namespace FlashSale

open Lib (Table Progress SafeAt Stable Spared)

/-! ### Effects -/

/-- What the delivery of an event is for has happened. Notifications are not in the rows, and
count as achieved. -/
def OutboxEvent.Achieved (db : Db) : OutboxEvent → Prop
  | .otpSend _ otpId _ _ => ∃ otp, db.otpCodes.get? otpId = some otp ∧ otp.sent = true
  | .flashSaleSettle saleId => ∃ sale t, db.flashSales.get? saleId = some sale ∧
    sale.settledAt = some t ∧ sale.endsAt ≤ t
  | _ => True

/-- A settlement is not delivered before the sale has ended. -/
def OutboxEvent.Ended (db : Db) (started : Int) (event : OutboxEvent) : Prop :=
  ∀ saleId, event = .flashSaleSettle saleId →
    ∃ sale, db.flashSales.get? saleId = some sale ∧ sale.endsAt * 1000 ≤ started

/-- The committed rows say nothing of effects that have not happened: no sale is settled before
its end, and no row is processed before its effect. -/
structure Honest (db : Db) : Prop where
  settled : ∀ saleId sale t, db.flashSales.get? saleId = some sale → sale.settledAt = some t →
    sale.endsAt ≤ t
  due : ∀ id row saleId, db.outbox.get? id = some row → row.event = .flashSaleSettle saleId →
    ∃ sale, db.flashSales.get? saleId = some sale ∧ sale.endsAt ≤ row.visibleAt
  processed : ∀ id row, db.outbox.get? id = some row → row.status = .processed →
    row.event.Achieved db

/-- What a commit of a worker brings with it. -/
def Commit.Earned (db : Db) : Commit → Prop
  | .settled saleId started _ => ∀ sale, db.flashSales.get? saleId = some sale →
    sale.endsAt * 1000 ≤ started
  | .ticked lines => ∀ line ∈ lines, line.claimed.row.visibleAt ≤ line.time ∧
    (line.result = .ok () → line.claimed.row.event.Achieved db)
  | _ => True

section Commits

variable {cfg : Cfg} {db db' : Db} {commit : Commit}

/-- The stamp of a settlement that began after the end is after the end. -/
theorem ends_le_column {ends started : Int} (after : ends * 1000 ≤ started) :
    ends ≤ toColumn started := by
  unfold toColumn
  omega

theorem OutboxEvent.Achieved.step {event : OutboxEvent} (achieved : event.Achieved db)
    (happened : Atomic cfg db commit db') : event.Achieved db' := by
  cases event with
  | otpSend userId otpId channel identifier =>
    obtain ⟨otp, found, sent⟩ := achieved
    obtain ⟨otp', found', kept⟩ := happened.otp_kept found
    exact ⟨otp', found', kept sent⟩
  | flashSaleSettle saleId =>
    obtain ⟨sale, t, found, settled, after⟩ := achieved
    obtain ⟨sale', found', -, ends, kept⟩ := happened.sale_kept found
    have same := kept (by rw [settled]; simp)
    exact ⟨sale', t, found', same.trans settled, by rw [ends]; exact after⟩
  | _ => trivial

theorem OutboxEvent.Ended.step {event : OutboxEvent} {started : Int} (ended : event.Ended db started)
    (happened : Atomic cfg db commit db') : event.Ended db' started := by
  intro saleId is
  obtain ⟨sale, found, after⟩ := ended saleId is
  obtain ⟨sale', found', -, ends, -⟩ := happened.sale_kept found
  exact ⟨sale', found', by rw [ends]; exact after⟩

/-- A recorded delivery does not make a row due sooner. -/
theorem Line.visible_le (line : Line) (later : line.claimed.row.visibleAt ≤ line.time) :
    line.claimed.row.visibleAt ≤ ((line.change cfg).apply line.claimed.row).visibleAt := by
  unfold Line.change
  cases line.result with
  | ok _ => exact le_rfl
  | error message =>
    dsimp only
    split
    · exact le_rfl
    · refine later.trans (Int.le_add_of_nonneg_right ?_)
      exact Int.natCast_nonneg _

/-- A row becomes processed by a delivery that ended normally. -/
theorem Line.processed {line : Line}
    (processed : ((line.change cfg).apply line.claimed.row).status = .processed)
    (pending : line.claimed.row.status = .pending) : line.result = .ok () := by
  unfold Line.change at processed
  cases result : line.result with
  | ok _ => rfl
  | error message =>
    rw [result] at processed
    dsimp only at processed
    split at processed
    · cases processed
    · exact absurd (pending.symm.trans processed) (by decide)

/-- Commits that are earned keep what the outbox says of the effects. A row becomes processed by
a line whose effect is there. -/
theorem Honest.step (honest : Honest db) (happened : Atomic cfg db commit db')
    (earned : commit.Earned db) : Honest db' := by
  refine ⟨fun saleId sale t found settled => ?_, fun id row saleId found event => ?_,
    fun id row found processed => ?_⟩
  · rcases happened.settled_cases found settled with old | ⟨before, started, result, there, ends, rfl, rfl⟩
    · exact honest.settled saleId sale t old settled
    · rw [← ends]
      exact ends_le_column (earned before there)
  · rcases happened.row_cases found with old | ⟨-, due⟩ | ⟨lines, line, mem, rfl, old, rfl⟩
    · obtain ⟨sale, there, ends⟩ := honest.due id row saleId old event
      obtain ⟨sale', there', -, ends', -⟩ := happened.sale_kept there
      exact ⟨sale', there', by rw [ends']; exact ends⟩
    · obtain ⟨sale, there, at_⟩ := due saleId event
      exact ⟨sale, there, at_.symm.le⟩
    · rw [OutboxChange.apply_event] at event
      obtain ⟨sale, there, ends⟩ := honest.due id _ saleId old event
      obtain ⟨sale', there', -, ends', -⟩ := happened.sale_kept there
      exact ⟨sale', there', by
        rw [ends']; exact ends.trans (line.visible_le (earned line mem).1)⟩
  · rcases happened.row_cases found with old | ⟨pending, -⟩ | ⟨lines, line, mem, rfl, old, rfl⟩
    · exact (honest.processed id row old processed).step happened
    · rw [pending] at processed
      cases processed
    · rw [OutboxChange.apply_event]
      have pending : line.claimed.row.status = .pending := by
        cases happened with
        | ticked spec => exact spec.pending line mem
      exact ((earned line mem).2 (Line.processed processed pending)).step happened

end Commits

/-! ### Handlers -/

/-- What the transaction of a settlement relies on: the sale is there. -/
def SettleKnows (srv : Server) (w : Nat) (saleId : Uuid) (t : Int)
    (body : Program (Option (List Unsold))) : Prop :=
  SafeAt plan (fun env => env.started = t) (fun _ _ => True) (SettleCommits saleId t True) srv
    (.handler w) body

theorem stable_sale_there (id : Uuid) :
    Stable Write [] fun db : Db => True → ∃ sale, db.flashSales.get? id = some sale := by
  intro db w _ there
  obtain ⟨sale, found⟩ := there trivial
  intro _
  cases w with
  | insertSale id' row => exact ⟨sale, Table.get?_insert_of_some found⟩
  | stampSettled id' t => exact ⟨_, Table.get?_modify_of_some found⟩
  | _ => exact ⟨sale, found⟩

section Handlers

variable {cfg : Cfg} {s : State} {w : Nat} {choice : Choice}

/-- A lookup that ends the call has found the code sent. -/
theorem otpFindStep_achieves {otpId : Uuid} {move : Move Handled} (coherent : Coherent cfg s)
    (idle : Lib.Idle s.server (.handler w)) (taken : otpFindStep cfg s w otpId choice = some move)
    (finished : move.next = .finished (.ok ())) :
    ∃ otp, move.server.db.otpCodes.get? otpId = some otp ∧ otp.sent = true := by
  obtain ⟨_, server, ran, turns⟩ := otpFindStep_turns taken
  rcases turns with ⟨message, rfl⟩ | ⟨otp, rfl, sent, rfl⟩ | ⟨otp, -, -, rfl⟩
  · cases finished
  · obtain ⟨-, result⟩ := Lib.Server.auto_cases coherent.sound idle (plan_covered _ _ _) ran
    rcases result with ⟨e, got, failed, -⟩ | ⟨ws, otp, got, found, effect⟩
    · cases failed
    · cases found
      obtain ⟨rfl, there⟩ := Prod.mk.inj (Except.ok.inj got)
      exact ⟨otp, by rw [effect]; exact there, sent⟩
  · cases finished

/-- An update that ends the call has marked the code. -/
theorem otpMarkStep_achieves {otpId : Uuid} {move : Move Handled} (coherent : Coherent cfg s)
    (idle : Lib.Idle s.server (.handler w)) (taken : otpMarkStep cfg s w otpId choice = some move)
    (finished : move.next = .finished (.ok ())) :
    ∃ otp, move.server.db.otpCodes.get? otpId = some otp ∧ otp.sent = true := by
  obtain ⟨⟨answer, server⟩, ran, eq⟩ := Option.map_eq_some_iff.mp taken
  obtain ⟨-, result⟩ := Lib.Server.auto_cases coherent.sound idle (plan_covered _ _ _) ran
  rcases result with ⟨e, got, rfl, -⟩ | ⟨ws, r, got, rfl, effect⟩
  · cases eq
    cases finished
  · obtain ⟨rfl, otp, found⟩ := plan_updateSent got
    cases eq
    refine ⟨{ otp with sent := true }, ?_, rfl⟩
    rw [effect]
    show (s.server.db.otpCodes.modify otpId _).get? otpId = _
    rw [Table.get?_modify_self, found]
    rfl

/-- A transaction that ends the call leaves the sale settled, by this call or before. -/
theorem settleStep_achieves {row : ClaimedRow} {saleId : Uuid} {started t : Int}
    {body : Program (Option (List Unsold))} {move : Move Handled} (honest : Honest s.server.db)
    (ended : ∃ sale, s.server.db.flashSales.get? saleId = some sale ∧ sale.endsAt * 1000 ≤ started)
    (later : started ≤ t) (knows : SettleKnows s.server w saleId t body)
    (taken : settleStep cfg s w row saleId t body choice = some move)
    (finished : move.next = .finished (.ok ())) :
    ∃ sale t, move.server.db.flashSales.get? saleId = some sale ∧ sale.settledAt = some t ∧
      sale.endsAt ≤ t := by
  obtain ⟨⟨progress, server⟩, ran, eq⟩ := Option.map_eq_some_iff.mp taken
  cases progress with
  | running next => cases eq; cases finished
  | threw e => cases eq; cases finished
  | returned result =>
    obtain ⟨spec, -⟩ := SafeAt.returns knows ran
    obtain ⟨sale, found, ends⟩ := ended
    cases eq
    generalize s.server.db = before at spec found honest
    cases spec with
    | skipped settled =>
      obtain ⟨sale, found, settled⟩ := settled trivial
      obtain ⟨stamp, stamped⟩ := Option.ne_none_iff_exists'.mp settled
      exact ⟨sale, stamp, found, stamped, honest.settled saleId sale stamp found stamped⟩
    | settled there _ _ effect =>
      rw [found] at there
      cases there
      refine ⟨{ sale with settledAt := some (toColumn t) }, toColumn t, ?_, rfl,
        ends_le_column (ends.trans later)⟩
      show server.db.flashSales.get? saleId = _
      rw [effect]
      show (before.flashSales.modify saleId _).get? saleId = _
      rw [Table.get?_modify_self, found]
      rfl

/-- A handler call that ends normally has done what its event is for, or found it
done. -/
theorem deliverStep_achieves {row : ClaimedRow} {delivery : Delivery} {move : Move Handled}
    {started : Int} (coherent : Coherent cfg s) (honest : Honest s.server.db)
    (safe : DeliverySafe s.server w delivery) (call : dispatch row.row = some delivery.call)
    (ended : row.row.event.Ended s.server.db started)
    (settle : ∀ saleId t body, delivery = .settleTx saleId t body →
      started ≤ t ∧ SettleKnows s.server w saleId t body)
    (taken : deliverStep cfg s w row choice delivery = some move)
    (finished : move.next = .finished (.ok ())) : row.row.event.Achieved move.server.db := by
  cases delivery with
  | notify kind =>
    unfold dispatch at call
    split at call <;> cases call <;> rename_i event <;> rw [event] <;> trivial
  | otpFind otpId =>
    obtain ⟨userId, channel, identifier, event⟩ := dispatch_otp call
    rw [event]
    exact otpFindStep_achieves coherent safe taken finished
  | otpSend otpId encryptedCode =>
    cases taken
    unfold otpSendStep at finished
    split at finished <;> cases finished
  | otpMark otpId =>
    obtain ⟨userId, channel, identifier, event⟩ := dispatch_otp call
    rw [event]
    exact otpMarkStep_achieves coherent safe taken finished
  | settleBegin saleId => cases taken; cases finished
  | settleTx saleId t body =>
    have event := dispatch_settle call
    obtain ⟨later, knows⟩ := settle saleId t body rfl
    rw [event]
    exact settleStep_achieves honest (ended saleId event) later knows taken finished

end Handlers

/-! ### Workers -/

/-- What a worker knows of the effects of the rows that it delivers. A delivery that has ended
well has its effect committed, whatever becomes of the tick. -/
structure Earns (s : State) (w : Nat) (started : Int) (stage : TickStage) : Prop where
  ended : ∀ c ∈ stage.claimed, c.row.event.Ended s.server.db started
  lines : ∀ line ∈ stage.done, line.result = .ok () → line.claimed.row.event.Achieved s.server.db
  result : ∀ row todo done, stage = .record row (.ok ()) todo done →
    row.row.event.Achieved s.server.db
  settle : ∀ row saleId t body todo done,
    stage = .deliver row (.settleTx saleId t body) todo done →
      started ≤ t ∧ SettleKnows s.server w saleId t body

def Earning (s : State) : Prop :=
  ∀ w started alive stage, s.workers w = .polling started alive stage → Earns s w started stage

/-- What every run from a database without events keeps, so that a row that is marked
processed has had its handler finish. -/
structure Processing (cfg : Cfg) (s : State) : Prop where
  coherent : Coherent cfg s
  announced : Announced s.server.db
  honest : Honest s.server.db
  delivering : Delivering s
  earning : Earning s

section Steps

variable {cfg : Cfg} {s s' : State} {started : Int} {l : Label}

theorem Processing.achieved_step (processing : Processing cfg s)
    (taken : FlashSale.step cfg s l = some s') {event : OutboxEvent}
    (achieved : event.Achieved s.server.db) : event.Achieved s'.server.db := by
  rcases step_atomic processing.coherent taken with ⟨-, same⟩ | ⟨commit, -, happened⟩
  · rwa [same]
  · exact achieved.step happened

theorem Processing.ended_step (processing : Processing cfg s)
    (taken : FlashSale.step cfg s l = some s') {event : OutboxEvent}
    (ended : event.Ended s.server.db started) : event.Ended s'.server.db started := by
  rcases step_atomic processing.coherent taken with ⟨-, same⟩ | ⟨commit, -, happened⟩
  · rwa [same]
  · exact ended.step happened

/-- What is known of the effects at one stage is known at another one that has no
new line and no settlement under way. -/
theorem Earns.step {w : Nat} {stage stage' : TickStage} (earns : Earns s w started stage)
    (processing : Processing cfg s) (taken : FlashSale.step cfg s l = some s')
    (claimed : stage'.claimed = stage.claimed)
    (lines : ∀ line ∈ stage'.done, line.result = .ok () →
      line.claimed.row.event.Achieved s'.server.db)
    (result : ∀ row todo done, stage' = .record row (.ok ()) todo done →
      row.row.event.Achieved s'.server.db)
    (settle : ∀ row saleId t body todo done,
      stage' = .deliver row (.settleTx saleId t body) todo done →
        started ≤ t ∧ SettleKnows s'.server w saleId t body) : Earns s' w started stage' := by
  refine ⟨fun c mem => ?_, lines, result, settle⟩
  rw [claimed] at mem
  exact processing.ended_step taken (earns.ended c mem)

theorem Earns.spared {w : Nat} {stage : TickStage} (earns : Earns s w started stage)
    (processing : Processing cfg s) (taken : FlashSale.step cfg s l = some s')
    (spared : Spared (.handler w) s.server s'.server) : Earns s' w started stage :=
  earns.step processing taken rfl
    (fun line mem ok => processing.achieved_step taken (earns.lines line mem ok))
    (fun row todo done is => processing.achieved_step taken (earns.result row todo done is))
    fun row saleId t body todo done is =>
      let ⟨later, knows⟩ := earns.settle row saleId t body todo done is
      ⟨later, SafeAt.spared knows spared⟩

/-- A settlement that goes on still relies on its sale. -/
theorem deliverStep_settleKnows {w : Nat} {row : ClaimedRow} {choice : Choice} {delivery : Delivery}
    {move : Move Handled} {saleId : Uuid} {t : Int} {body : Program (Option (List Unsold))}
    (safe : DeliverySafe s.server w delivery) (call : dispatch row.row = some delivery.call)
    (begun : started ≤ s.clock) (ended : row.row.event.Ended s.server.db started)
    (settle : ∀ saleId t body, delivery = .settleTx saleId t body →
      started ≤ t ∧ SettleKnows s.server w saleId t body)
    (taken : deliverStep cfg s w row choice delivery = some move)
    (next : move.next = .calling (.settleTx saleId t body)) :
    started ≤ t ∧ SettleKnows move.server w saleId t body := by
  cases deliverStep_continues taken next with
  | begins quiet =>
    refine ⟨begun, ?_⟩
    obtain ⟨sale, found, -⟩ := ended saleId (dispatch_settle call)
    rw [quiet]
    exact SafeAt.start safe (stable_sale_there saleId) (fun _ => ⟨sale, found⟩)
      (settle_safe (fun _ _ => trivial) saleId s.clock True)
  | settles ran =>
    obtain ⟨later, knows⟩ := settle saleId t _ rfl
    exact ⟨later, (SafeAt.advance knows rfl ran).1⟩

theorem Earning.step (processing : Processing cfg s) (taken : FlashSale.step cfg s l = some s') :
    Earning s' := by
  intro w started alive stage at_
  have coherent := processing.coherent
  rcases step_ticks coherent taken w with ⟨same, spared⟩ | ticks
  · rw [same] at at_
    exact (processing.earning w started alive stage at_).spared processing taken spared
  · generalize before : s.workers w = worker at ticks
    rw [at_] at ticks
    cases ticks with
    | polls => exact ⟨fun c mem => (by cases mem), fun line mem => (by cases mem),
        fun _ _ _ is => (by cases is), fun _ _ _ _ _ _ is => by cases is⟩
    | @claims _ rows claims _ =>
      refine ⟨fun c mem saleId event => ?_, fun line mem => (by cases mem),
        fun _ _ _ is => (by cases is), fun _ _ _ _ _ _ is => by cases is⟩
      have mem' : c ∈ rows := by simpa [TickStage.claimed] using mem
      refine processing.ended_step taken (fun saleId event => ?_) saleId event
      obtain ⟨sale, found, ends⟩ :=
        processing.honest.due c.id c.row saleId (claims.asClaimed c mem') event
      have due := (claims.due c mem').2
      exact ⟨sale, found, by omega⟩
    | @begins _ _ row todo done =>
      have earns := processing.earning w started alive _ before
      refine earns.step processing taken (claimed_beginDelivery _ _ _) (fun line mem ok => ?_)
        (fun row' todo' done' is => ?_) fun row' saleId t body todo' done' is => ?_
      · rw [done_beginDelivery] at mem
        exact processing.achieved_step taken (earns.lines line mem ok)
      · unfold beginDelivery dispatch at is
        cases event : row.row.event <;> rw [event] at is <;> cases is
        rw [event]
        trivial
      · unfold beginDelivery dispatch at is
        cases event : row.row.event <;> rw [event] at is <;> cases is
    | @handles _ _ row delivery todo done choice move label ran server history =>
      have earns := processing.earning w started alive _ before
      have carries := processing.delivering w started alive _ before
      have safe := coherent.delivery_safe before
      have call := (carries.call _ _ _ _ rfl).1
      have ended := earns.ended row (by simp [TickStage.claimed])
      have settle : ∀ saleId t body, delivery = .settleTx saleId t body →
          started ≤ t ∧ SettleKnows s.server w saleId t body := by
        rintro saleId t body rfl
        exact earns.settle row saleId t body todo done rfl
      refine earns.step processing taken (claimed_stage _ _ _ _) (fun line mem ok => ?_)
        (fun row' todo' done' is => ?_) fun row' saleId t body todo' done' is => ?_
      · rw [done_stage] at mem
        exact processing.achieved_step taken (earns.lines line mem ok)
      · cases next : move.next with
        | calling delivery' => rw [next] at is; cases is
        | finished result =>
          rw [next] at is
          cases is
          rw [server]
          exact deliverStep_achieves coherent processing.honest safe call ended settle ran next
      · cases next : move.next with
        | finished result => rw [next] at is; cases is
        | calling delivery' =>
          rw [next] at is
          cases is
          rw [server]
          exact deliverStep_settleKnows safe call carries.begun ended settle ran next
    | fails =>
      have earns := processing.earning w started alive _ before
      exact earns.step processing taken rfl
        (fun line mem ok => processing.achieved_step taken (earns.lines line mem ok))
        (fun _ _ _ is => by cases is) fun _ _ _ _ _ _ is => by cases is
    | @records _ row result todo done jitter =>
      have earns := processing.earning w started true _ before
      refine earns.step processing taken (by simp [TickStage.claimed]) (fun line mem ok => ?_)
        (fun _ _ _ is => by cases is) fun _ _ _ _ _ _ is => by cases is
      rcases List.mem_append.mp mem with old | new
      · exact processing.achieved_step taken (earns.lines line old ok)
      · cases List.mem_singleton.mp new
        exact processing.achieved_step taken (earns.result row todo done (by rw [← ok]))
    | loses label spared =>
      exact (processing.earning w started true stage before).spared processing taken spared

/-- Every commit is earned. -/
theorem Processing.earned (processing : Processing cfg s) {commit : Commit}
    (committing : s.committing l = some commit) : commit.Earned s.server.db := by
  cases committing_cases committing with
  | @client n choice job started result at_ => cases job <;> trivial
  | counts at_ => trivial
  | disables at_ => trivial
  | marks at_ => trivial
  | @settles w choice started alive row saleId t result todo done at_ =>
    intro sale found
    have earns := processing.earning w started alive _ at_
    have event := dispatch_settle ((processing.delivering w started alive _ at_).call _ _ _ _ rfl).1
    obtain ⟨sale', found', ends⟩ := earns.ended row (by simp [TickStage.claimed]) saleId event
    rw [found] at found'
    cases found'
    exact ends.trans (earns.settle row saleId t _ todo done rfl).1
  | @ticks w choice started lines at_ =>
    intro line mem
    exact ⟨(processing.delivering w started true _ at_).times line mem,
      (processing.earning w started true _ at_).lines line mem⟩

theorem Processing.step (processing : Processing cfg s)
    (taken : FlashSale.step cfg s l = some s') : Processing cfg s' := by
  have earning := Earning.step processing taken
  have delivering := processing.delivering.step processing.coherent taken
  have coherent' := (step_coherent processing.coherent taken).1
  rcases step_atomic processing.coherent taken with ⟨-, same⟩ | ⟨commit, committing, happened⟩
  · refine ⟨coherent', ?_, ?_, delivering, earning⟩
    · rw [same]
      exact processing.announced
    · rw [same]
      exact processing.honest
  · exact ⟨coherent', processing.announced.step happened,
      processing.honest.step happened (processing.earned committing), delivering, earning⟩

end Steps

section Runs

variable {cfg : Cfg} {start s : State} {trace : List (State × Label)}

/-- In every reachable state a processed row has had its effect, so a sale that is
not settled still has its row, pending or dead. -/
theorem Run.processed_achieved (fresh : Fresh start) (empty : NoEvents start.server.db)
    (run : Run cfg start trace s) :
    (∀ id row, s.server.db.outbox.get? id = some row → row.status = .processed →
      row.event.Achieved s.server.db) ∧
    ∀ saleId sale, s.server.db.flashSales.get? saleId = some sale → sale.settledAt = none →
      ∃ id row, s.server.db.outbox.get? id = some row ∧ row.event = .flashSaleSettle saleId ∧
        (row.status = .pending ∨ row.status = .deadLetter) := by
  have processing : Processing cfg s := by
    refine Lib.Run.invariant ?_ (fun _ _ _ processing taken => Processing.step processing taken) run
    refine ⟨fresh.coherent, empty.announced, ⟨fun saleId _ _ found => ?_, fun id _ _ found => ?_,
      fun id _ found => ?_⟩, fresh.delivering, fun w started alive stage at_ => ?_⟩
    · cases (empty.sales saleId).symm.trans found
    · cases (empty.outbox id).symm.trans found
    · cases (empty.outbox id).symm.trans found
    · rw [fresh.workers w] at at_
      cases at_
  refine ⟨processing.honest.processed, fun saleId sale found unsettled => ?_⟩
  obtain ⟨id, row, there, about⟩ :=
    processing.announced.announced (.settle saleId) (Option.ne_none_iff_exists'.mpr ⟨sale, found⟩)
  have event : row.event = .flashSaleSettle saleId := by
    cases event : row.event <;> rw [event] at about <;> cases about
    rfl
  refine ⟨id, row, there, event, ?_⟩
  cases status : row.status with
  | pending => exact Or.inl rfl
  | deadLetter => exact Or.inr rfl
  | processed =>
    have achieved := processing.honest.processed id row there status
    rw [event] at achieved
    obtain ⟨sale', t, found', settled, -⟩ := achieved
    rw [found] at found'
    cases found'
    rw [unsettled] at settled
    cases settled

theorem processed_achieved_settling :
    ∃ s row, Run plainCfg bareShop (Lib.traceOf (step plainCfg) bareShop settling) s ∧
      s.server.db.outbox.get? 2 = some row ∧ row.status = .processed ∧
      OutboxEvent.Achieved s.server.db (.flashSaleSettle 3) := by
  have run := Lib.Run.of_isSome settling_runs
  have found : ((Lib.execute (step plainCfg) bareShop settling).get
      settling_runs).server.db.outbox.get? 2 =
        some ⟨.flashSaleSettle 3, .processed, 0, dayStart + 1000, none, none⟩ := by decide +kernel
  have achieved := (Run.processed_achieved (State.initial_fresh _ _ _)
    ⟨fun _ => rfl, fun _ => rfl, fun _ => rfl, fun _ => rfl, fun _ => rfl⟩ run).1 2 _ found rfl
  exact ⟨_, _, run, found, rfl, achieved⟩

end Runs

end FlashSale
