/-
# The constraints of the schema hold throughout

Whatever the clients and workers do at the same time, and wherever a request fails or a
process dies, they do it to the database with statements, commits and rollbacks of their
sessions, and these keep the constraints.

Nothing is asked here of what a transaction is for. A statement checks the constraints on
what its own session sees and locks what the check rests on, so the argument is one about
statements (`Integrity`), and the system enters it only by the fact that every step serves
the database with one statement, a commit or a rollback.

* `step_serves`: the inversion of a step by what happens to the server, with the numbers
  that it takes from the sequence of the outbox.
* `Run.conforms`: every committed state of every run meets the constraints, and so does
  what any session sees in the middle of its transaction.
-/
import FlashSale.Integrity
import FlashSale.History

namespace FlashSale

open Lib (Serves Upheld Idle)

/-! ### Steps of the system -/

/-- The statement takes a number from the sequence of the outbox. -/
def Stmt.appends : Stmt → Bool
  | .createOutbox _ => true
  | _ => false

/-- What a step may run that leaves the sequence of the outbox at `serial`: a new event has
the number that comes next. -/
def State.Numbers (s : State) (serial : Nat) (st : Stmt) (env : Env) : Prop :=
  st.appends = true → env.serial = s.serial ∧ s.serial < serial

/-- A step leaves this server, and the sequence there. Numbers are drawn outside of
transactions, so they only go up. -/
structure Serving (s : State) (server : Server) (serial : Nat) : Prop where
  serves : Serves plan (s.Numbers serial) s.server server
  later : s.serial ≤ serial

section Steps

variable {cfg : Cfg} {s s' : State} {n w : Nat} {choice : Choice}

theorem Serving.refl : Serving s s.server s.serial := ⟨.refl, le_rfl⟩

theorem Serving.rollback {server : Server} {serial : Nat} (served : Serving s server serial) (sid : Sid) :
    Serving s (server.rollback sid) serial :=
  ⟨.rollback sid served.serves, served.later⟩

theorem Serving.commit {server : Server} {serial : Nat} (served : Serving s server serial) (sid : Sid) :
    Serving s (server.commit sid) serial :=
  ⟨.commit sid served.serves, served.later⟩

/-- A statement that is a transaction of its own. -/
theorem Serving.auto {sid : Sid} {st : Stmt} {env : Env} {answer : Except DbError st.Result}
    {server : Server} (idle : Idle s.server sid) (plain : st.appends = false)
    (did : s.server.auto sid (plan st env s.server.db) = some (answer, server)) :
    Serving s server s.serial :=
  ⟨.auto idle (fun appends => by rw [plain] at appends; cases appends) did, le_rfl⟩

/-- A statement of the transaction of a tick. -/
theorem Serving.tick {started : Int} {st : Stmt} {answer : Except DbError st.Result} {server : Server}
    (plain : st.appends = false)
    (ran : s.tickStatement w started st choice = some (answer, server)) : Serving s server s.serial :=
  ⟨.statement .refl (fun appends => by rw [plain] at appends; cases appends) ran, le_rfl⟩

/-- The numbers that a step of a transaction takes. -/
def drawsNumbers {α : Type} (body : Program α) : Lib.Progress Stmt Stmt.Result DbError Failure α → Nat
  | .running _ => serials body
  | _ => 0

/-- A step of an open transaction. -/
theorem Serving.advance {α : Type} {sid : Sid} {started : Int} {body : Program α}
    {progress : Lib.Progress Stmt Stmt.Result DbError Failure α} {server : Server}
    (ran : body.advance plan (s.env sid started choice) s.now s.server sid = some (progress, server)) :
    Serving s server (s.serial + drawsNumbers body progress) := by
  refine ⟨.advance (fun st onError next is appends => ⟨rfl, ?_⟩) ran, Nat.le_add_right ..⟩
  subst is
  obtain ⟨⟨answer, server'⟩, -, eq⟩ := Option.map_eq_some_iff.mp ran
  cases st with
  | createOutbox input => cases answer <;> cases eq <;> exact Nat.lt_succ_self _
  | _ => cases appends

theorem afterQuery_serves {st : Stmt} {call : AuthCall} {next : st.Result → Move Client}
    {move : Move Client} (idle : Idle s.server (.client n)) (plain : st.appends = false)
    (same : ∀ r, (next r).serial = s.serial)
    (taken : afterQuery s n call (s.query n st choice) next = some move) :
    Serving s move.server move.serial := by
  obtain ⟨⟨answer, server⟩, ran, eq⟩ := Option.map_eq_some_iff.mp taken
  have served : Serving s server s.serial := .auto idle plain ran
  cases answer with
  | error e =>
    cases eq
    exact served
  | ok r =>
    cases eq
    exact (same r).symm ▸ served

theorem authStep_serves {call : AuthCall} {move : Move Client} (idle : Idle s.server (.client n))
    (taken : authStep cfg s n choice call = some move) : Serving s move.server move.serial := by
  cases call with
  | loginFind dto identifier => exact afterQuery_serves idle rfl (fun _ => rfl) taken
  | verifyFind dto identifier =>
    exact afterQuery_serves idle rfl (fun user => by cases user <;> rfl) taken
  | verifyRead dto user now =>
    exact afterQuery_serves idle rfl (fun otp => by cases otp <;> rfl) taken
  | verifyCount dto otpId => exact afterQuery_serves idle rfl (fun _ => rfl) taken
  | disabling user => exact afterQuery_serves idle rfl (fun _ => rfl) taken
  | loginCompare dto user =>
    cases taken
    unfold loginCompareStep
    split
    · split <;> exact .refl
    · exact .refl
  | verifyCompare dto user otpId otp =>
    cases taken
    unfold verifyCompareStep
    split
    · exact .refl
    · split <;> exact .refl
  | get use token =>
    cases taken
    have unknown : Serving s (unknownToken s n token use).server (unknownToken s n token use).serial := by
      cases use <;> exact .refl
    unfold getStep
    split
    · exact unknown
    · split
      · exact unknown
      · split
        · exact .refl
        · exact unknown
  | del use token jti session => cases taken
  | set grant pair jti hash => cases taken
  | _ =>
    cases taken
    exact .refl

theorem clientStep_serves {client : Client} {move : Move Client}
    (safe : ClientSafe s.server n client) (taken : clientStep cfg s n choice client = some move) :
    Serving s move.server move.serial := by
  cases client with
  | idle => cases taken
  | lookup request =>
    cases taken
    unfold lookupStep
    split
    · exact .refl
    · split <;> exact .refl
  | handle request key =>
    cases taken
    unfold handleStep
    split <;> exact .refl
  | registerFind dto identifier =>
    obtain ⟨answer, server, ran, turns⟩ := registerFindStep_turns taken
    have served : Serving s server s.serial := .auto safe rfl ran
    rcases turns with ⟨response, rfl⟩ | ⟨-, rfl⟩ <;> exact served
  | resendFind input identifier =>
    obtain ⟨answer, server, ran, turns⟩ := resendFindStep_turns taken
    have served : Serving s server s.serial := .auto safe rfl ran
    rcases turns with ⟨response, rfl⟩ | ⟨id, user, -, -, rfl⟩ <;> exact served
  | auth call => exact authStep_serves (AuthSafe.idle safe) taken
  | tx job started body =>
    obtain ⟨⟨progress, server⟩, ran, eq⟩ := Option.map_eq_some_iff.mp taken
    have served := Serving.advance ran
    cases progress <;> cases eq <;> exact served
  | deliver request key response answered stored =>
    cases answered with
    | true => cases taken
    | false =>
      cases taken
      exact .refl
  | _ =>
    cases taken
    exact .refl

theorem deliverStep_serves {row : ClaimedRow} {delivery : Delivery} {move : Move Handled}
    (safe : DeliverySafe s.server w delivery)
    (taken : deliverStep cfg s w row choice delivery = some move) :
    Serving s move.server move.serial := by
  cases delivery with
  | otpFind otpId =>
    obtain ⟨answer, server, ran, turns⟩ := otpFindStep_turns taken
    have served : Serving s server s.serial := .auto safe rfl ran
    rcases turns with ⟨message, rfl⟩ | ⟨otp, -, -, rfl⟩ | ⟨otp, -, -, rfl⟩ <;> exact served
  | otpSend otpId encryptedCode =>
    cases taken
    unfold otpSendStep
    split <;> exact .refl
  | otpMark otpId =>
    obtain ⟨⟨answer, server⟩, ran, eq⟩ := Option.map_eq_some_iff.mp taken
    have served : Serving s server s.serial := .auto safe rfl ran
    cases answer <;> cases eq <;> exact served
  | settleTx saleId started body =>
    obtain ⟨⟨progress, server⟩, ran, eq⟩ := Option.map_eq_some_iff.mp taken
    have served := Serving.advance ran
    cases progress <;> cases eq <;> exact served
  | _ =>
    cases taken
    exact .refl

theorem workerStep_serves {worker : Worker} {move : Move Worker}
    (safe : WorkerSafe cfg s.server w worker)
    (taken : workerStep cfg s w choice worker = some move) : Serving s move.server move.serial := by
  cases worker with
  | idle => cases taken
  | polling started alive stage =>
    cases stage with
    | deliver row delivery todo done =>
      obtain ⟨moved, ran, rfl⟩ := Option.map_eq_some_iff.mp taken
      have handler : DeliverySafe s.server w delivery := by
        cases alive with
        | true => exact safe.2
        | false => exact safe.2
      exact deliverStep_serves handler ran
    | claim =>
      cases alive with
      | false =>
        cases taken
        exact .refl
      | true =>
        obtain ⟨⟨answer, server⟩, ran, eq⟩ := Option.map_eq_some_iff.mp taken
        have served : Serving s server s.serial := .tick rfl ran
        cases answer with
        | error e =>
          cases eq
          exact served.rollback _
        | ok rows =>
          cases eq
          exact served
    | record row result todo done =>
      cases alive with
      | false =>
        cases taken
        exact .refl
      | true =>
        obtain ⟨⟨answer, server⟩, ran, eq⟩ := Option.map_eq_some_iff.mp taken
        have served : Serving s server s.serial := .tick rfl ran
        cases answer with
        | error e =>
          cases eq
          exact served.rollback _
        | ok done =>
          cases eq
          exact served
    | next todo done =>
      cases todo with
      | cons row todo =>
        cases taken
        exact .refl
      | nil =>
        cases alive with
        | false =>
          cases taken
          exact .refl
        | true =>
          cases taken
          exact Serving.refl.commit _

theorem startClient_serves (n : Nat) (start : Start) :
    Serving s (startClient cfg s n start).server (startClient cfg s n start).serial := by
  generalize is : startClient cfg s n start = move
  cases startClient_opens is <;> exact .refl

/-- Whatever a step does to the server, sessions do with statements, commits and
rollbacks. -/
theorem step_serves {l : Label} (coherent : Coherent cfg s) (taken : step cfg s l = some s') :
    Serving s s'.server s'.serial := by
  cases step_cases taken with
  | elapse duration => exact .refl
  | store at_ => exact .refl
  | command at_ sent => exact .refl
  | start start at_ label => exact startClient_serves _ start
  | @client n choice move ran => exact clientStep_serves (coherent.clients n) ran
  | @clientFail n move ran =>
    cases at_ : s.clients n <;> rw [at_] at ran <;> cases ran <;> exact Serving.refl.rollback _
  | clientCrash n => exact Serving.refl.rollback _
  | poll at_ => exact .refl
  | @worker w choice move ran => exact workerStep_serves (coherent.workers w) ran
  | @workerFail w message move ran =>
    obtain ⟨started, alive, row, delivery, todo, done, at_⟩ : ∃ started alive row delivery todo done,
        s.workers w = .polling started alive (.deliver row delivery todo done) := by
      cases at_ : s.workers w with
      | idle => rw [at_] at ran; cases ran
      | polling started alive stage =>
        rw [at_] at ran
        cases stage <;> cases ran
        exact ⟨_, _, _, _, _, _, rfl⟩
    rw [at_] at ran
    cases ran
    exact Serving.refl.rollback _
  | @loseTick w move ran =>
    cases at_ : s.workers w with
    | idle => rw [at_] at ran; cases ran
    | polling started alive stage =>
      rw [at_] at ran
      cases alive <;> cases ran
      exact Serving.refl.rollback _
  | workerCrash w => exact (Serving.refl.rollback _).rollback _

theorem step_upheld {l : Label} (coherent : Coherent cfg s) (upheld : Upheld schema s.server)
    (taken : step cfg s l = some s') : Upheld schema s'.server :=
  ((step_serves coherent taken).serves.keeps (fun st env db => plan_covered st env db) plan_admitted
    coherent.sound upheld).2

end Steps

theorem Fresh.upheld {s : State} (fresh : Fresh s) (conforms : s.server.db.Conforms) :
    Upheld schema s.server := by
  refine ⟨conforms, fun sid => ?_⟩
  have none : s.server.writesOf sid = [] := by
    unfold Lib.Server.writesOf
    rw [fresh.pending]
    rfl
  rw [none]
  trivial

section Runs

variable {cfg : Cfg} {start s : State} {trace : List (State × Label)}

theorem Run.upheld (fresh : Fresh start) (conforms : start.server.db.Conforms)
    (run : Run cfg start trace s) : Upheld schema s.server := by
  induction run with
  | nil => exact fresh.upheld conforms
  | snoc before taken ih => exact step_upheld (Run.coherent fresh before) ih taken

/-- In every state of every run the committed rows meet the constraints of the schema, and
so does what each session sees, with the writes of its own transaction. -/
theorem Run.conforms (fresh : Fresh start) (conforms : start.server.db.Conforms)
    (run : Run cfg start trace s) : s.server.db.Conforms ∧ ∀ sid, (s.server.view sid).Conforms :=
  ⟨(run.upheld fresh conforms).met, (run.upheld fresh conforms).view⟩

/-- The shop in the middle of a purchase: the unit is sold and paid for in what client 0
sees, and not in the committed rows. -/
def midPurchase : List Label :=
  .purchase 0 ⟨1, some (uuidText '1'), some 4⟩ :: Label.clientSteps 0 9 7

theorem midPurchase_runs : (Lib.execute (step plainCfg) shop midPurchase).isSome = true := by
  decide +kernel

theorem conforms_midPurchase :
    ∃ s, Run plainCfg shop (Lib.traceOf (step plainCfg) shop midPurchase) s ∧
      s.server.db.Conforms ∧ (s.server.view (.client 0)).Conforms ∧
      s.server.db.users.get? 1 = some ⟨some mail, none, memberHash, .active, 500⟩ ∧
      (s.server.view (.client 0)).users.get? 1 = some ⟨some mail, none, memberHash, .active, 400⟩ := by
  have run := Lib.Run.of_isSome midPurchase_runs
  have conforms : shop.server.db.Conforms := shopWith_conforms (by decide) rfl rfl
  obtain ⟨committed, seen⟩ := Run.conforms (State.initial_fresh _ _ _) conforms run
  exact ⟨_, run, committed, seen _, by decide +kernel, by decide +kernel⟩

end Runs

end FlashSale
