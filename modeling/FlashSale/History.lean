/-
# What steps do to workers and to the history

The history is the only record of what happened in the world and in which order, and it
only grows. The inversions here say of each kind of event which steps add it, and in which
state of the process; they are what the invariants about histories are proved from.

* `step_transaction`: every way in which a transaction of a client comes to where
  it is.
* `step_events`: a client adds commits, answers, comparisons with codes and what
  becomes of tokens, a worker commits, effects and the rows that it claims.
* `step_effects`: the effects are those of handler calls.
* `step_claims`: a worker claims rows that are committed as claimed, pending and due.
* `step_ticks`: every way in which a step moves a worker.
-/
import FlashSale.Coherence
import FlashSale.Calls

namespace FlashSale

open Lib (Frame Idle Spared)

variable {cfg : Cfg} {s s' : State}

/-! ### Clients -/

/-- What an auth call does besides its commits and its answer. -/
inductive AuthEvent (n : Nat) : Event → Prop where
  | compared (dto : VerifyOtpDto) (user otpId : Uuid) (equal : Bool) :
      AuthEvent n (.compared n dto user otpId equal)
  | granted (grant : Grant) : AuthEvent n (.granted n grant)
  | revoked (token : Text) : AuthEvent n (.revoked n token)

/-- A commit or an answer of a client. -/
def PlainEvent (n : Nat) (e : Event) : Prop :=
  (∃ commit, e = .committed commit) ∨ ∃ request response, e = .answered n request response

/-- The events of a client. -/
def ClientEvent (n : Nat) (e : Event) : Prop := PlainEvent n e ∨ AuthEvent n e

theorem answer_events {n : Nat} {request : Option Request} {response : Response} {e : Event}
    (mem : e ∈ answer n request response) : PlainEvent n e := by
  obtain ⟨r, _, rfl⟩ := List.mem_map.mp mem
  exact Or.inr ⟨r, response, rfl⟩

theorem returned_events {job : Job} {result : job.Result} {n : Nat} {e : Event}
    (mem : e ∈ (job.returned result n).2) : PlainEvent n e := by
  cases job with
  | purchase request key args => cases mem
  | create input => cases mem
  | register dto identifier passwordHash otp =>
    rw [List.mem_singleton.mp mem]
    exact Or.inr ⟨_, _, rfl⟩
  | resend input user identifier otp =>
    rw [List.mem_singleton.mp mem]
    exact Or.inr ⟨_, _, rfl⟩
  | verify dto otpId user => cases mem

/-- A client is in an auth call. -/
def Client.inAuth : Client → Bool
  | .auth _ => true
  | _ => false

theorem authStep_events {n : Nat} {choice : Choice} {call : AuthCall} {move : Move Client}
    (taken : authStep cfg s n choice call = some move) {e : Event} (mem : e ∈ move.events) :
    ClientEvent n e := by
  have turn := authStep_turns taken
  generalize move.next = next, move.events = events at turn mem
  obtain response | goes := turn
  · exact Or.inl (answer_events mem)
  cases goes with
  | verifyMatches plain =>
    rw [List.mem_singleton.mp mem]
    exact Or.inr (.compared _ _ _ _)
  | verifyDiffers plain differs =>
    rw [List.mem_singleton.mp mem]
    exact Or.inr (.compared _ _ _ _)
  | counts =>
    rcases List.mem_cons.mp mem with rfl | later
    · exact Or.inl (Or.inl ⟨_, rfl⟩)
    · rw [List.mem_singleton.mp later]
      exact Or.inl (Or.inr ⟨_, _, rfl⟩)
  | revokes =>
    rcases List.mem_cons.mp mem with rfl | later
    · exact Or.inr (.revoked _)
    · rw [List.mem_singleton.mp later]
      exact Or.inl (Or.inr ⟨_, _, rfl⟩)
  | replies =>
    rcases List.mem_cons.mp mem with rfl | later
    · exact Or.inr (.granted _)
    · rw [List.mem_singleton.mp later]
      exact Or.inl (Or.inr ⟨_, _, rfl⟩)
  | disables =>
    rw [List.mem_singleton.mp mem]
    exact Or.inl (Or.inl ⟨_, rfl⟩)
  | _ => cases mem

/-- A client that is in no auth call commits and answers, and that is all. -/
theorem clientStep_plain {n : Nat} {choice : Choice} {client : Client} {move : Move Client}
    (plain : client.inAuth = false) (taken : clientStep cfg s n choice client = some move) {e : Event}
    (mem : e ∈ move.events) : PlainEvent n e := by
  have answered : ∀ {request response}, move.events = [.answered n request response] →
      PlainEvent n e := by
    intro request response eq
    rw [eq] at mem
    exact Or.inr ⟨_, _, List.mem_singleton.mp mem⟩
  have quiet : move.events = [] → PlainEvent n e := by
    intro eq
    rw [eq] at mem
    cases mem
  cases client with
  | idle => cases taken
  | lookup request =>
    cases taken
    unfold lookupStep at mem answered quiet
    split at mem
    · exact answer_events mem
    · split at mem
      · exact Or.inr ⟨_, _, List.mem_singleton.mp mem⟩
      · cases mem
  | handle request key =>
    cases taken
    unfold handleStep at mem
    split at mem
    · exact answer_events mem
    · cases mem
  | registerFind dto identifier =>
    obtain ⟨-, server, -, ⟨response, rfl⟩ | ⟨-, rfl⟩⟩ := registerFindStep_turns taken
    · exact answered rfl
    · exact quiet rfl
  | registerPrepare dto identifier =>
    cases taken
    exact quiet rfl
  | resendFind input identifier =>
    obtain ⟨-, server, -, ⟨response, rfl⟩ | ⟨id, user, -, -, rfl⟩⟩ := resendFindStep_turns taken
    · exact answered rfl
    · exact quiet rfl
  | resendPrepare input user identifier =>
    cases taken
    exact quiet rfl
  | auth call => cases plain
  | begin_ job =>
    cases taken
    exact quiet rfl
  | tx job started body =>
    change txStep s n job started body choice = some move at taken
    obtain ⟨⟨progress, server⟩, ran, eq⟩ := Option.map_eq_some_iff.mp taken
    cases progress with
    | running next =>
      cases eq
      exact quiet rfl
    | returned result =>
      cases eq
      rcases List.mem_cons.mp mem with rfl | later
      · exact Or.inl ⟨_, rfl⟩
      · exact returned_events later
    | threw e =>
      cases eq
      exact answer_events mem
  | deliver request key response done stored =>
    cases done <;> cases taken
    exact answered rfl

theorem clientStep_events {n : Nat} {choice : Choice} {client : Client} {move : Move Client}
    (taken : clientStep cfg s n choice client = some move) {e : Event} (mem : e ∈ move.events) :
    ClientEvent n e := by
  cases client with
  | auth call => exact authStep_events taken mem
  | _ => exact Or.inl (clientStep_plain rfl taken mem)

theorem clientFail_events {n : Nat} {client : Client} {move : Move Client}
    (taken : clientFail s n client = some move) {e : Event} (mem : e ∈ move.events) :
    PlainEvent n e := by
  cases client <;> cases taken <;> exact answer_events mem

theorem startClient_server (n : Nat) (start : Start) :
    (startClient cfg s n start).server = s.server := by
  generalize is : startClient cfg s n start = move
  cases startClient_opens is <;> rfl

theorem startClient_events {n : Nat} {start : Start} {e : Event}
    (mem : e ∈ (startClient cfg s n start).events) : PlainEvent n e := by
  generalize is : startClient cfg s n start = move at mem
  cases startClient_opens is with
  | refuses => exact Or.inr ⟨_, _, List.mem_singleton.mp mem⟩
  | _ => cases mem

/-- How a transaction of a client comes to where it is in a step from `s` to `s'`: it waits
while others move, it opens, or it runs one statement. -/
inductive Proceeds (cfg : Cfg) (s : State) (l : Label) (s' : State) (n : Nat) :
    (job : Job) → Int → Program job.Result → Prop where
  | waits {job : Job} {started : Int} {body : Program job.Result}
      (at_ : s.clients n = .tx job started body) (spared : Spared (.client n) s.server s'.server) :
      Proceeds cfg s l s' n job started body
  | opens {job : Job} (at_ : s.clients n = .begin_ job) (same : s'.server = s.server) :
      Proceeds cfg s l s' n job s.clock job.program
  | advances {job : Job} {started : Int} {before body : Program job.Result} {choice : Choice}
      (label : l = .client n choice) (at_ : s.clients n = .tx job started before)
      (ran : before.advance plan (s.env (.client n) started choice) s.now s.server (.client n) =
        some (.running body, s'.server)) : Proceeds cfg s l s' n job started body

/-- A client is in a transaction. -/
def Client.inTx : Client → Bool
  | .tx _ _ _ => true
  | _ => false

/-- An auth call opens no transaction by itself. -/
theorem AuthTurn.no_tx {n : Nat} {choice : Choice} {call : AuthCall} {next : Client}
    {events : List Event} (turn : AuthTurn cfg s n choice call next events) : next.inTx = false := by
  obtain response | goes := turn
  · rfl
  · cases goes <;> rfl

theorem startClient_no_tx (n : Nat) (start : Start) :
    (startClient cfg s n start).next.inTx = false := by
  generalize is : startClient cfg s n start = move
  cases startClient_opens is <;> rfl

theorem clientStep_transaction {n : Nat} {choice : Choice} {client : Client} {move : Move Client}
    (here : s.clients n = client) (taken : clientStep cfg s n choice client = some move) {job : Job}
    {started : Int} {body : Program job.Result} (at_ : move.next = .tx job started body) :
    Proceeds cfg s (.client n choice) (s.moveClient n move) n job started body := by
  have away : move.next.inTx = true := by
    rw [at_]
    rfl
  cases client with
  | idle => cases taken
  | lookup request =>
    cases taken
    unfold lookupStep at away
    split at away
    · cases away
    · split at away <;> cases away
  | handle request key =>
    cases taken
    unfold handleStep at away
    split at away <;> cases away
  | registerFind dto identifier =>
    obtain ⟨-, server, -, ⟨response, rfl⟩ | ⟨-, rfl⟩⟩ := registerFindStep_turns taken
    · cases away
    · cases away
  | registerPrepare dto identifier => cases taken; cases away
  | resendFind input identifier =>
    obtain ⟨-, server, -, ⟨response, rfl⟩ | ⟨id, user, -, -, rfl⟩⟩ := resendFindStep_turns taken
    · cases away
    · cases away
  | resendPrepare input user identifier => cases taken; cases away
  | auth call =>
    rw [(authStep_turns taken).no_tx] at away
    cases away
  | begin_ job' =>
    cases taken
    cases at_
    exact .opens here rfl
  | tx job' started' before =>
    change txStep s n job' started' before choice = some move at taken
    obtain ⟨⟨progress, server⟩, ran, eq⟩ := Option.map_eq_some_iff.mp taken
    cases progress with
    | running next =>
      cases eq
      cases at_
      exact .advances rfl here ran
    | returned result =>
      cases eq
      cases job' <;> cases at_
    | threw e =>
      cases eq
      cases at_
  | deliver request key response answered stored =>
    cases answered <;> cases taken
    dsimp only [State.goOn] at away
    split at away <;> cases away

/-- Everything that can bring a client to a point of a transaction. Invariants of transactions
are shown by cases on this. -/
theorem step_transaction {l : Label} (coherent : Coherent cfg s) (taken : step cfg s l = some s')
    {n : Nat} {job : Job} {started : Int} {body : Program job.Result}
    (at_ : s'.clients n = .tx job started body) : Proceeds cfg s l s' n job started body := by
  have sound := coherent.sound
  have own : ∀ {n' : Nat} {move : Move Client}, Frame (.client n') s.server move.server →
      (s.moveClient n' move).clients n = .tx job started body →
      (n = n' → move.next = .tx job started body →
        Proceeds cfg s l (s.moveClient n' move) n job started body) →
      Proceeds cfg s l (s.moveClient n' move) n job started body := by
    intro n' move frame at_ proceeds
    by_cases same : n = n'
    · subst same
      rw [State.moveClient_self] at at_
      exact proceeds rfl at_
    · rw [State.moveClient_ne s move same] at at_
      exact .waits at_ (frame.spares (by simp [same]))
  have ends : ∀ {n' : Nat} {client : Client}, client.inTx = false →
      Function.update s.clients n' client n = .tx job started body →
      s.clients n = .tx job started body := by
    intro n' client away at_
    by_cases same : n = n'
    · subst same
      rw [Function.update_self] at at_
      rw [at_] at away
      cases away
    · rwa [Function.update_of_ne same] at at_
  cases step_cases taken with
  | elapse duration => exact .waits at_ (Spared.refl _ _)
  | @store n' request key response answered before =>
    refine .waits (ends ?_ at_) (Spared.refl _ _)
    cases answered <;> rfl
  | command before sent => exact .waits (ends rfl at_) (Spared.refl _ _)
  | @start n' _ start before label =>
    have same : (startClient cfg s n' start).server = s.server := startClient_server n' start
    refine own ?_ at_ fun _ next => ?_
    · rw [same]
      exact Frame.refl _ _
    · have away : (startClient cfg s n' start).next.inTx = false := startClient_no_tx n' start
      rw [next] at away
      cases away
  | @client n' choice move ran =>
    refine own (clientStep_moves sound (coherent.clients n') ran).frame at_ fun same next => ?_
    subst same
    exact clientStep_transaction rfl ran next
  | @clientFail n' move ran =>
    refine own (clientFail_moves sound ran : ClientMoves cfg s n' move).frame at_ fun _ next => ?_
    cases client : s.clients n' <;> rw [client] at ran <;> cases ran <;> cases next
  | clientCrash n' => exact own Frame.rollback at_ fun _ next => by cases next
  | poll before => exact .waits at_ (Spared.refl _ _)
  | @worker w choice move ran =>
    obtain ⟨mid, handler, tick⟩ := (workerStep_moves sound (coherent.workers w) ran).frame
    exact .waits at_ ((handler.spares (by simp)).trans (tick.spares (by simp)))
  | @workerFail w message move ran =>
    obtain ⟨mid, handler, tick⟩ := (workerFail_moves sound (coherent.workers w) ran).frame
    exact .waits at_ ((handler.spares (by simp)).trans (tick.spares (by simp)))
  | @loseTick w move ran =>
    obtain ⟨mid, handler, tick⟩ := (loseTick_moves sound (coherent.workers w) ran).frame
    exact .waits at_ ((handler.spares (by simp)).trans (tick.spares (by simp)))
  | workerCrash w =>
    obtain ⟨mid, handler, tick⟩ := (workerCrash_moves sound : WorkerMoves cfg s w _).frame
    exact .waits at_ ((handler.spares (by simp)).trans (tick.spares (by simp)))

/-! ### Workers -/

/-- The events of a handler call. -/
def HandlerEvent (row : ClaimedRow) (e : Event) : Prop :=
  (∃ commit, e = .committed commit) ∨ ∃ kind, e = .effect row.id kind

theorem deliverStep_events {w : Nat} {row : ClaimedRow} {choice : Choice} {delivery : Delivery}
    {move : Move Handled} (taken : deliverStep cfg s w row choice delivery = some move) {e : Event}
    (mem : e ∈ move.events) : HandlerEvent row e := by
  cases delivery with
  | notify kind =>
    cases taken
    exact Or.inr ⟨kind, List.mem_singleton.mp mem⟩
  | otpFind otpId =>
    obtain ⟨_, server, -, turns⟩ := otpFindStep_turns taken
    rcases turns with ⟨message, rfl⟩ | ⟨otp, -, -, rfl⟩ | ⟨otp, -, -, rfl⟩
    · cases mem
    · cases mem
    · cases mem
  | otpSend otpId encryptedCode =>
    cases taken
    unfold otpSendStep at mem
    split at mem
    · cases mem
    · exact Or.inr ⟨_, List.mem_singleton.mp mem⟩
  | otpMark otpId =>
    change otpMarkStep cfg s w otpId choice = some move at taken
    obtain ⟨⟨answer, server⟩, ran, eq⟩ := Option.map_eq_some_iff.mp taken
    cases answer <;> cases eq
    · cases mem
    · exact Or.inl ⟨_, List.mem_singleton.mp mem⟩
  | settleBegin saleId =>
    cases taken
    cases mem
  | settleTx saleId started body =>
    change settleStep cfg s w row saleId started body choice = some move at taken
    obtain ⟨⟨progress, server⟩, ran, eq⟩ := Option.map_eq_some_iff.mp taken
    cases progress with
    | running next => cases eq; cases mem
    | threw e => cases eq; cases mem
    | returned result =>
      cases eq
      rcases List.mem_cons.mp mem with rfl | later
      · exact Or.inl ⟨_, rfl⟩
      · cases result with
        | none => cases later
        | some items => exact Or.inr ⟨_, List.mem_singleton.mp later⟩

/-- The events of a worker, and the stage at which it makes them. -/
def WorkerEvent (s : State) (w : Nat) (e : Event) : Prop :=
  (∃ commit, e = .committed commit) ∨
  (∃ started alive row delivery todo done,
    s.workers w = .polling started alive (.deliver row delivery todo done) ∧ HandlerEvent row e) ∨
  ∃ started rows, s.workers w = .polling started true .claim ∧ e = .claimed w started rows

theorem workerStep_events {w : Nat} {choice : Choice} {worker : Worker} {move : Move Worker}
    (at_ : s.workers w = worker) (taken : workerStep cfg s w choice worker = some move) {e : Event}
    (mem : e ∈ move.events) : WorkerEvent s w e := by
  cases worker with
  | idle => cases taken
  | polling started alive stage =>
    cases stage with
    | deliver row delivery todo done =>
      obtain ⟨moved, ran, rfl⟩ := Option.map_eq_some_iff.mp taken
      exact Or.inr (Or.inl ⟨_, _, _, _, _, _, at_, deliverStep_events ran mem⟩)
    | claim =>
      cases alive with
      | false => cases taken; cases mem
      | true =>
        change claimStep cfg s w started choice = some move at taken
        obtain ⟨⟨answer, server⟩, ran, eq⟩ := Option.map_eq_some_iff.mp taken
        cases answer <;> cases eq
        · cases mem
        · exact Or.inr (Or.inr ⟨_, _, at_, List.mem_singleton.mp mem⟩)
    | record row result todo done =>
      cases alive with
      | false => cases taken; cases mem
      | true =>
        change recordStep cfg s w started row result todo done choice = some move at taken
        obtain ⟨⟨answer, server⟩, ran, eq⟩ := Option.map_eq_some_iff.mp taken
        cases answer <;> cases eq <;> cases mem
    | next todo done =>
      cases todo with
      | cons row todo => cases taken; cases mem
      | nil =>
        cases alive <;> cases taken
        · cases mem
        · exact Or.inl ⟨_, List.mem_singleton.mp mem⟩

/-! ### The system -/

/-- An event of a history that grows is one of the old history or one of those added. -/
theorem added_cases {history events before after : List Event} {e : Event}
    (split : history ++ events = before ++ e :: after) :
    (∃ mid, history = before ++ e :: mid ∧ after = mid ++ events) ∨
      ∃ mid, events = mid ++ e :: after ∧ before = history ++ mid := by
  rcases List.append_eq_append_iff.mp split with ⟨mid, is, rest⟩ | ⟨mid, is, rest⟩
  · exact Or.inr ⟨mid, rest, is⟩
  · cases mid with
    | nil =>
      rw [List.append_nil] at is
      exact Or.inr ⟨[], rest.symm, by rw [is, List.append_nil]⟩
    | cons first mid =>
      cases rest
      exact Or.inl ⟨mid, is, rfl⟩

/-- What a step adds, and who adds it. Nothing is ever taken out of the history. -/
theorem step_events {l : Label} (taken : step cfg s l = some s') :
    ∃ events, s'.history = s.history ++ events ∧ ∀ e ∈ events,
      (∃ n, ClientEvent n e) ∨ ∃ w choice, l = .worker w choice ∧ WorkerEvent s w e := by
  cases step_cases taken with
  | elapse duration => exact ⟨[], (List.append_nil _).symm, fun e mem => by cases mem⟩
  | store at_ => exact ⟨[], (List.append_nil _).symm, fun e mem => by cases mem⟩
  | command at_ sent => exact ⟨[], (List.append_nil _).symm, fun e mem => by cases mem⟩
  | start start at_ label => exact ⟨_, rfl, fun e mem => Or.inl ⟨_, Or.inl (startClient_events mem)⟩⟩
  | client ran => exact ⟨_, rfl, fun e mem => Or.inl ⟨_, clientStep_events ran mem⟩⟩
  | clientFail ran => exact ⟨_, rfl, fun e mem => Or.inl ⟨_, Or.inl (clientFail_events ran mem)⟩⟩
  | clientCrash n => exact ⟨[], rfl, fun e mem => by cases mem⟩
  | poll at_ => exact ⟨[], rfl, fun e mem => by cases mem⟩
  | @worker w choice move ran =>
    exact ⟨_, rfl, fun e mem => Or.inr ⟨w, choice, rfl, workerStep_events rfl ran mem⟩⟩
  | workerFail ran =>
    refine ⟨_, rfl, fun e mem => ?_⟩
    rw [workerFail_events ran] at mem
    cases mem
  | loseTick ran =>
    refine ⟨_, rfl, fun e mem => ?_⟩
    rw [loseTick_events ran] at mem
    cases mem
  | workerCrash w => exact ⟨[], rfl, fun e mem => by cases mem⟩

/-! ### Effects -/

def Event.effect? : Event → Option (Nat × Effect)
  | .effect row kind => some (row, kind)
  | _ => none

/-- The observable effects of a history, each with its row. -/
def effects (history : List Event) : List (Nat × Effect) := history.filterMap Event.effect?

@[simp] theorem effects_append (history more : List Event) :
    effects (history ++ more) = effects history ++ effects more :=
  List.filterMap_append

/-- The effect that the next step of a handler call makes. -/
def Delivery.effecting (cfg : Cfg) : Delivery → Option Effect
  | .notify kind => some kind
  | .otpSend _ encryptedCode =>
    match cfg.decrypt encryptedCode with
    | .ok _ => some .otpDelivered
    | .error _ => none
  | .settleTx _ _ (.pure (some _)) => some .stockReturned
  | _ => none

/-- The effect that a step with this label makes, with its row. -/
def State.effecting (cfg : Cfg) (s : State) : Label → Option (Nat × Effect)
  | .worker w _ =>
    match s.workers w with
    | .polling _ _ (.deliver row delivery _ _) => (delivery.effecting cfg).map fun kind => (row.id, kind)
    | _ => none
  | _ => none

theorem deliverStep_effects {w : Nat} {row : ClaimedRow} {choice : Choice} {delivery : Delivery}
    {move : Move Handled} (taken : deliverStep cfg s w row choice delivery = some move) :
    effects move.events = ((delivery.effecting cfg).map fun kind => (row.id, kind)).toList := by
  cases delivery with
  | notify kind => cases taken; rfl
  | otpFind otpId =>
    obtain ⟨_, server, -, turns⟩ := otpFindStep_turns taken
    rcases turns with ⟨message, rfl⟩ | ⟨otp, -, -, rfl⟩ | ⟨otp, -, -, rfl⟩
    · rfl
    · rfl
    · rfl
  | otpSend otpId encryptedCode =>
    cases taken
    dsimp only [otpSendStep, Delivery.effecting]
    cases cfg.decrypt encryptedCode <;> rfl
  | otpMark otpId =>
    change otpMarkStep cfg s w otpId choice = some move at taken
    obtain ⟨⟨answer, server⟩, ran, eq⟩ := Option.map_eq_some_iff.mp taken
    cases answer <;> cases eq <;> rfl
  | settleBegin saleId => cases taken; rfl
  | settleTx saleId started body =>
    change settleStep cfg s w row saleId started body choice = some move at taken
    obtain ⟨⟨progress, server⟩, ran, eq⟩ := Option.map_eq_some_iff.mp taken
    -- Only a transaction that is over returns.
    cases body with
    | pure result =>
      cases ran
      cases eq
      cases result <;> rfl
    | throw e => cases ran; cases eq; rfl
    | now next => cases ran; cases eq; rfl
    | exec st onError next =>
      obtain ⟨⟨answer, server'⟩, _, eq'⟩ := Option.map_eq_some_iff.mp ran
      cases answer <;> cases eq' <;> cases eq <;> rfl

/-- The history records an effect exactly at the steps that make one. -/
theorem step_effects {l : Label} (taken : step cfg s l = some s') :
    effects s'.history = effects s.history ++ (s.effecting cfg l).toList := by
  obtain ⟨events, added, all⟩ := step_events taken
  have quiet : (∀ e ∈ events, e.effect? = none) →
      effects s'.history = effects s.history ++ [] := by
    intro none
    rw [added, effects_append]
    exact congrArg _ (List.filterMap_eq_nil_iff.mpr none)
  have client : ∀ {n e}, ClientEvent n e → e.effect? = none := by
    rintro n e ((⟨commit, rfl⟩ | ⟨request, response, rfl⟩) | event)
    · rfl
    · rfl
    · cases event <;> rfl
  by_cases delivers : ∃ w choice started alive row delivery todo done, l = .worker w choice ∧
      s.workers w = .polling started alive (.deliver row delivery todo done)
  · obtain ⟨w, choice, started, alive, row, delivery, todo, done, rfl, at_⟩ := delivers
    cases step_cases taken with
    | start start _ label => cases start <;> cases label
    | worker ran =>
      rw [at_] at ran
      obtain ⟨moved, handled, rfl⟩ := Option.map_eq_some_iff.mp ran
      simp only [State.moveWorker, effects_append, State.effecting, at_]
      rw [deliverStep_effects handled]
  · have none : s.effecting cfg l = none := by
      cases l with
      | worker w choice =>
        dsimp only [State.effecting]
        split
        · rename_i at_
          exact absurd ⟨_, _, _, _, _, _, _, _, rfl, at_⟩ delivers
        · rfl
      | _ => rfl
    rw [none]
    refine quiet fun e mem => ?_
    rcases all e mem with ⟨n, ofClient⟩ | ⟨w, choice, rfl, worker⟩
    · exact client ofClient
    · rcases worker with ⟨commit, rfl⟩ | ⟨_, _, _, _, _, _, at_, -⟩ | ⟨_, _, -, rfl⟩
      · rfl
      · exact absurd ⟨_, _, _, _, _, _, _, _, rfl, at_⟩ delivers
      · rfl

/-! ### Claims -/

/-- The rows that a tick claims are committed as claimed, pending and due, and each is claimed
once. -/
structure Claims (db : Db) (started : Int) (rows : List ClaimedRow) : Prop where
  asClaimed : AsClaimed rows db
  nodup : (rows.map ClaimedRow.id).Nodup
  due : ∀ c ∈ rows, c.row.status = .pending ∧ c.row.visibleAt * 1000 ≤ started

theorem claimStep_claims {w : Nat} {started : Int} {choice : Choice} {move : Move Worker}
    (safe : TickSafe cfg s.server w started .claim)
    (taken : claimStep cfg s w started choice = some move) :
    move.events = [] ∧ move.next = .idle ∨
    ∃ rows, move.events = [.claimed w started rows] ∧ Claims s.server.db started rows ∧
      move.next = .polling started true (.next rows []) := by
  obtain ⟨⟨answer, server⟩, ran, eq⟩ := Option.map_eq_some_iff.mp taken
  rcases Lib.Server.statement_cases ran with ⟨e, _, rfl, rfl⟩ | ⟨ws, rows, got, rfl, _, rfl⟩
  · cases eq
    exact Or.inl ⟨rfl, rfl⟩
  · obtain ⟨⟨L, holds⟩, -, -, -⟩ := safe
    rw [Lib.Server.view, holds.writes] at got
    obtain ⟨-, -, nodup, known⟩ := plan_claim got
    cases eq
    exact Or.inr ⟨rows, rfl, ⟨fun c mem => (known c mem).1, nodup, fun c mem => (known c mem).2⟩, rfl⟩

/-- A step that claims rows does nothing else. -/
theorem step_claims {l : Label} (coherent : Coherent cfg s) (taken : step cfg s l = some s') :
    ∃ events, s'.history = s.history ++ events ∧ ∀ w started rows,
      .claimed w started rows ∈ events → events = [.claimed w started rows] ∧
        s.workers w = .polling started true .claim ∧ Claims s.server.db started rows := by
  obtain ⟨events, added, all⟩ := step_events taken
  refine ⟨events, added, fun w started rows mem => ?_⟩
  rcases all _ mem with ⟨n, (⟨_, eq⟩ | ⟨_, _, eq⟩) | event⟩ | ⟨w', choice, rfl, worker⟩
  · cases eq
  · cases eq
  · cases event
  · rcases worker with ⟨_, eq⟩ | ⟨_, _, row, delivery, _, _, _, handler⟩ | ⟨started', rows', at_, eq⟩
    · cases eq
    · rcases handler with ⟨_, eq⟩ | ⟨_, eq⟩ <;> cases eq
    · cases eq
      have safe := coherent.workers w
      rw [at_] at safe
      cases step_cases taken with
      | start start _ label => cases start <;> cases label
      | @worker _ _ move ran =>
        rw [at_] at ran
        have same : move.events = events := List.append_cancel_left added
        rcases claimStep_claims safe.1 ran with ⟨none, -⟩ | ⟨rows'', one, claims, -⟩
        · rw [← same, none] at mem
          cases mem
        · rw [← same, one] at mem
          cases List.mem_singleton.mp mem
          exact ⟨same ▸ one, at_, claims⟩

/-! ### Ticks -/

/-- How a worker moves in a step with label `l` from `s` to `s'`, stage by stage, with what each
stage adds to the history. -/
inductive Ticks (cfg : Cfg) (s : State) (l : Label) (s' : State) (w : Nat) : Worker → Worker → Prop
    where
  | polls : Ticks cfg s l s' w .idle (.polling s.clock true .claim)
  | claims {started : Int} {rows : List ClaimedRow} (claims : Claims s.server.db started rows)
      (claimed : s'.history = s.history ++ [.claimed w started rows]) :
      Ticks cfg s l s' w (.polling started true .claim) (.polling started true (.next rows []))
  | begins {started : Int} {alive : Bool} {row : ClaimedRow} {todo : List ClaimedRow}
      {done : List Line} : Ticks cfg s l s' w (.polling started alive (.next (row :: todo) done))
        (.polling started alive (beginDelivery row todo done))
  | handles {started : Int} {alive : Bool} {row : ClaimedRow} {delivery : Delivery}
      {todo : List ClaimedRow} {done : List Line} {choice : Choice} {move : Move Handled}
      (label : l = .worker w choice)
      (ran : deliverStep cfg s w row choice delivery = some move) (server : s'.server = move.server)
      (history : s'.history = s.history ++ move.events) :
      Ticks cfg s l s' w (.polling started alive (.deliver row delivery todo done))
        (.polling started alive (move.next.stage row todo done))
  | fails {started : Int} {alive : Bool} {row : ClaimedRow} {delivery : Delivery}
      {todo : List ClaimedRow} {done : List Line} {message : String}
      (label : l = .workerFail w message) :
      Ticks cfg s l s' w (.polling started alive (.deliver row delivery todo done))
        (.polling started alive (.record row (.error message) todo done))
  | records {started : Int} {row : ClaimedRow} {result : Delivered} {todo : List ClaimedRow}
      {done : List Line} {jitter : Nat} :
      Ticks cfg s l s' w (.polling started true (.record row result todo done))
        (.polling started true (.next todo (done ++ [⟨row, result, s.now, jitter⟩])))
  | loses {started : Int} {stage : TickStage} (label : l = .loseTick w)
      (spared : Spared (.handler w) s.server s'.server) :
      Ticks cfg s l s' w (.polling started true stage) (.polling started false stage)
  | commits {started : Int} {done : List Line} {choice : Choice} (label : l = .worker w choice) :
      Ticks cfg s l s' w (.polling started true (.next [] done)) .idle
  /-- a statement of the tick fails, the claim or a record -/
  | breaks {started : Int} {stage : TickStage} {choice : Choice} (label : l = .worker w choice)
      (failed : stage = .claim ∨ ∃ row result todo done e, stage = .record row result todo done ∧
        (plan (.updateOutbox row.id (Line.change cfg ⟨row, result, s.now, choice.jitter⟩))
          (s.env (.tick w) started choice) (s.server.view (.tick w))).answer = .error e) :
      Ticks cfg s l s' w (.polling started true stage) .idle
  /-- a tick that is lost comes to its next statement -/
  | stops {started : Int} {stage : TickStage}
      (between : ∀ row delivery todo done, stage ≠ .deliver row delivery todo done) :
      Ticks cfg s l s' w (.polling started false stage) .idle
  | crashes {worker : Worker} (label : l = .workerCrash w) : Ticks cfg s l s' w worker .idle

theorem workerStep_ticks {w : Nat} {choice : Choice} {worker : Worker} {move : Move Worker}
    (safe : WorkerSafe cfg s.server w worker)
    (taken : workerStep cfg s w choice worker = some move) :
    Ticks cfg s (.worker w choice) (s.moveWorker w move) w worker move.next := by
  cases worker with
  | idle => cases taken
  | polling started alive stage =>
    cases stage with
    | deliver row delivery todo done =>
      obtain ⟨moved, ran, rfl⟩ := Option.map_eq_some_iff.mp taken
      exact .handles rfl ran rfl rfl
    | claim =>
      cases alive with
      | false =>
        cases taken
        exact .stops fun _ _ _ _ => by simp
      | true =>
        rcases claimStep_claims safe.1 taken with ⟨-, next⟩ | ⟨rows, events, claims, next⟩
        · rw [next]
          exact .breaks rfl (Or.inl rfl)
        · rw [next]
          exact .claims claims (by rw [State.moveWorker, events])
    | record row result todo done =>
      cases alive with
      | false =>
        cases taken
        exact .stops fun _ _ _ _ => by simp
      | true =>
        change recordStep cfg s w started row result todo done choice = some move at taken
        obtain ⟨⟨answer, server⟩, ran, eq⟩ := Option.map_eq_some_iff.mp taken
        rcases Lib.Server.statement_cases ran with ⟨e, failed, rfl, -⟩ | ⟨ws, r, -, rfl, -, -⟩
        · cases eq
          exact .breaks rfl (Or.inr ⟨_, _, _, _, e, rfl, failed⟩)
        · cases eq
          exact .records
    | next todo done =>
      cases todo with
      | cons row todo =>
        cases taken
        exact .begins
      | nil =>
        cases alive <;> cases taken
        · exact .stops fun _ _ _ _ => by simp
        · exact .commits rfl

/-- What a step does to a worker: nothing, also to its handler, or a move. The moves are those of
the stages. -/
theorem step_ticks {l : Label} (coherent : Coherent cfg s) (taken : step cfg s l = some s') (w : Nat) :
    (s'.workers w = s.workers w ∧ Spared (.handler w) s.server s'.server) ∨
      Ticks cfg s l s' w (s.workers w) (s'.workers w) := by
  have sound := coherent.sound
  have client : ∀ {n : Nat} {move : Move Client}, ClientMoves cfg s n move →
      Spared (.handler w) s.server move.server := fun moves => moves.frame.spares (by simp)
  have own : ∀ {w' : Nat} {move : Move Worker}, WorkerMoves cfg s w' move →
      (w = w' → Ticks cfg s l (s.moveWorker w' move) w (s.workers w) move.next) →
      ((s.moveWorker w' move).workers w = s.workers w ∧
        Spared (.handler w) s.server (s.moveWorker w' move).server) ∨
      Ticks cfg s l (s.moveWorker w' move) w (s.workers w) ((s.moveWorker w' move).workers w) := by
    intro w' move moves ticks
    by_cases same : w = w'
    · subst same
      rw [State.moveWorker_self]
      exact Or.inr (ticks rfl)
    · obtain ⟨mid, handler, tick⟩ := moves.frame
      exact Or.inl ⟨State.moveWorker_ne s move same,
        (handler.spares (by simp [same])).trans (tick.spares (by simp))⟩
  cases step_cases taken with
  | elapse duration => exact Or.inl ⟨rfl, Spared.refl _ _⟩
  | store at_ => exact Or.inl ⟨rfl, Spared.refl _ _⟩
  | command at_ sent => exact Or.inl ⟨rfl, Spared.refl _ _⟩
  | @start n _ start at_ label =>
    refine Or.inl ⟨rfl, ?_⟩
    rw [State.moveClient, startClient_server]
    exact Spared.refl _ _
  | @client n choice move ran =>
    exact Or.inl ⟨rfl, client (clientStep_moves sound (coherent.clients n) ran)⟩
  | clientFail ran => exact Or.inl ⟨rfl, client (clientFail_moves sound ran)⟩
  | clientCrash n => exact Or.inl ⟨rfl, client (.rollback sound rfl)⟩
  | @poll w' at_ =>
    by_cases same : w = w'
    · subst same
      rw [State.moveWorker_self, at_]
      exact Or.inr .polls
    · exact Or.inl ⟨State.moveWorker_ne s _ same, Spared.refl _ _⟩
  | @worker w' choice move ran =>
    refine own (workerStep_moves sound (coherent.workers w') ran) fun same => ?_
    subst same
    exact workerStep_ticks (coherent.workers w) ran
  | @workerFail w' message move ran =>
    refine own (workerFail_moves sound (coherent.workers w') ran) fun same => ?_
    subst same
    cases at_ : s.workers w with
    | idle => rw [at_] at ran; cases ran
    | polling started alive stage =>
      rw [at_] at ran
      cases stage <;> cases ran
      exact .fails rfl
  | @loseTick w' move ran =>
    refine own (loseTick_moves sound (coherent.workers w') ran) fun same => ?_
    subst same
    cases at_ : s.workers w with
    | idle => rw [at_] at ran; cases ran
    | polling started alive stage =>
      rw [at_] at ran
      cases alive <;> cases ran
      exact .loses rfl (Frame.rollback.spares (by simp))
  | workerCrash w' => exact own (workerCrash_moves sound) fun same => .crashes (by rw [same])

end FlashSale
