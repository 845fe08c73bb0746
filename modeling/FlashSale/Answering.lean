/-
# Requests and their answers

Every request is answered at most once, and in the order in which its client asks. Only the
death of its process can keep a request from its answer: when the other processes are gone,
so are their locks, and the steps of the request itself come to an end.

* `step_attends`: a step answers the request of its client or leaves it to it.
* `ClientAlone.ends`: the steps of a request come to an end.
* `Run.answered_once`: both, for whole runs.
-/
import FlashSale.Lib.Reach
import FlashSale.Recovery
import FlashSale.Answers
import FlashSale.Settling

namespace FlashSale

open Lib (Tx Idle Apart Can Must)

/-! ### Asking and answering -/

/-- The request that a client takes with a label. -/
def Label.asks (n : Nat) : Label → Option Request
  | .purchase m request => if m = n then some (.purchase request) else none
  | .register m dto => if m = n then some (.register dto) else none
  | .resend m identifier => if m = n then some (.resend identifier) else none
  | .auth m request => if m = n then some (.auth request) else none
  | _ => none

/-- The requests that a client has taken. -/
def asked (n : Nat) (trace : List (State × Label)) : List Request :=
  trace.filterMap fun p => p.2.asks n

/-- The request that an event answers. -/
def Event.answers (n : Nat) : Event → Option Request
  | .answered m request _ => if m = n then some request else none
  | _ => none

/-- The requests of a client that are answered. -/
def answeredBy (n : Nat) (history : List Event) : List Request :=
  history.filterMap (Event.answers n)

section Answers

variable {cfg : Cfg} {s s' : State} {n : Nat}

theorem answeredBy_append (history events : List Event) :
    answeredBy n (history ++ events) = answeredBy n history ++ answeredBy n events :=
  List.filterMap_append

theorem answeredBy_answer {request : Option Request} {response : Response} :
    answeredBy n (answer n request response) = request.toList := by
  cases request <;> simp [answeredBy, answer, Event.answers]

theorem answeredBy_others {events : List Event} (others : ∀ e ∈ events, e.answers n = none) :
    answeredBy n events = [] :=
  List.filterMap_eq_nil_iff.mpr others

/-- The requests answered and the one that is left are the one there was: none is dropped, none
is answered twice, and none comes from nowhere. -/
def Attends (n : Nat) (before : Option Request) (events : List Event) (after : Option Request) :
    Prop :=
  before.toList = answeredBy n events ++ after.toList

theorem Attends.refuses {request : Option Request} {response : Response} :
    Attends n request (answer n request response) none := by
  rw [Attends, answeredBy_answer]
  exact (List.append_nil _).symm

theorem Attends.goesOn {request : Option Request} : Attends n request [] request := rfl

theorem returned_attends {job : Job} {result : job.Result} :
    Attends n job.request (job.returned result n).2 (job.returned result n).1.request := by
  cases job <;> simp [Attends, Job.request, Job.returned, Client.request, AuthCall.request,
    answeredBy, Event.answers]

theorem AuthTurn.attends {choice : Choice} {call : AuthCall} {next : Client} {events : List Event}
    (turn : AuthTurn cfg s n choice call next events) :
    Attends n (call.request.map .auth) events next.request := by
  cases turn with
  | ends response => exact .refuses
  | goes goes =>
    cases goes <;> simp [Attends, Client.request, Job.request, AuthCall.request, answeredBy,
      Event.answers, List.filterMap_cons]

theorem clientStep_attends {choice : Choice} {client : Client} {move : Move Client}
    (taken : clientStep cfg s n choice client = some move) :
    Attends n client.request move.events move.next.request := by
  cases client with
  | idle => cases taken
  | lookup request =>
    cases taken
    unfold lookupStep
    split
    · exact .refuses
    · split
      · simp [Attends, Client.request, State.goOn, answeredBy, Event.answers]
      · exact .goesOn
  | handle request key =>
    cases taken
    unfold handleStep
    split
    · exact .refuses
    · exact .goesOn
  | registerFind dto identifier =>
    obtain ⟨-, server, -, ⟨response, rfl⟩ | ⟨-, rfl⟩⟩ := registerFindStep_turns taken
    · simp [Attends, Client.request, answeredBy, Event.answers]
    · exact .goesOn
  | registerPrepare dto identifier =>
    cases taken
    exact .goesOn
  | resendFind input identifier =>
    obtain ⟨-, server, -, ⟨response, rfl⟩ | ⟨id, user, -, -, rfl⟩⟩ := resendFindStep_turns taken
    · simp [Attends, Client.request, answeredBy, Event.answers]
    · exact .goesOn
  | resendPrepare input user identifier =>
    cases taken
    exact .goesOn
  | auth call => exact (authStep_turns taken).attends
  | begin_ job =>
    cases taken
    exact .goesOn
  | tx job started body =>
    change txStep s n job started body choice = some move at taken
    obtain ⟨⟨progress, server⟩, ran, eq⟩ := Option.map_eq_some_iff.mp taken
    cases progress with
    | running next =>
      cases eq
      exact .goesOn
    | returned result =>
      cases eq
      exact returned_attends
    | threw e =>
      cases eq
      exact .refuses
  | deliver request key response done stored =>
    cases done with
    | true => cases taken
    | false =>
      cases taken
      cases stored <;> simp [Attends, Client.request, State.goOn, answeredBy, Event.answers]

theorem clientFail_attends {client : Client} {move : Move Client}
    (taken : clientFail s n client = some move) : Attends n client.request move.events none := by
  cases client <;> cases taken <;> exact .refuses

theorem command_attends {call next : AuthCall} {tokens : Text → Option Session}
    (sent : call.command cfg s = some (tokens, next)) : next.request = call.request := by
  cases AuthCall.commands sent <;> rfl

/-- The label with which a client starts. -/
def Start.label (n : Nat) : Start → Label
  | .purchase request => .purchase n request
  | .create input => .create n input
  | .register dto => .register n dto
  | .resend identifier => .resend n identifier
  | .auth request => .auth n request
  | .disable user => .disable n user

theorem startClient_attends {start : Start} :
    Attends n ((start.label n).asks n) (startClient cfg s n start).events
      (startClient cfg s n start).next.request := by
  have refused : ∀ {request : Request} {response : Response},
      Attends n (some request) [.answered n request response] Client.idle.request := by
    intro request response
    simp [Attends, Client.request, answeredBy, Event.answers]
  have asks : ∀ {request : Request}, (if n = n then some request else none) = some request :=
    if_pos rfl
  cases start with
  | purchase request =>
    rw [Start.label, Label.asks, asks]
    exact .goesOn
  | create input => rfl
  | register dto =>
    rw [Start.label, Label.asks, asks, startClient]
    split
    · exact .goesOn
    · exact refused
  | resend identifier =>
    rw [Start.label, Label.asks, asks, startClient]
    split
    · exact .goesOn
    · exact refused
  | auth request =>
    rw [Start.label, Label.asks, asks, startClient]
    cases request with
    | login dto =>
      rw [startAuth]
      split
      · exact .goesOn
      · exact refused
    | verifyOtp dto =>
      rw [startAuth]
      split
      · exact .goesOn
      · exact refused
    | refresh token => exact .goesOn
    | logout token => exact .goesOn
  | disable user => rfl

/-- The steps of other clients and of workers answer none of the requests of a client. -/
theorem WorkerEvent.answers {w : Nat} {e : Event} (event : WorkerEvent s w e) :
    e.answers n = none := by
  rcases event with ⟨_, rfl⟩ | ⟨_, _, _, _, _, _, _, ⟨_, rfl⟩ | ⟨_, rfl⟩⟩ | ⟨_, _, _, rfl⟩ <;> rfl

theorem ClientEvent.answers {m : Nat} {e : Event} (event : ClientEvent m e) (other : n ≠ m) :
    e.answers n = none := by
  rcases event with (⟨_, rfl⟩ | ⟨_, _, rfl⟩) | event
  · rfl
  · exact if_neg fun same => other same.symm
  · cases event <;> rfl

/-- What is answered, and then what is left to answer, up to a step and after it. -/
def Accounts (n : Nat) (s : State) (l : Label) (s' : State) : Prop :=
  answeredBy n s.history ++ (s.clients n).request.toList ++ (l.asks n).toList =
    answeredBy n s'.history ++ (s'.clients n).request.toList

theorem Accounts.still {l : Label} {events : List Event} (client : (s'.clients n).request =
    (s.clients n).request) (quiet : l.asks n = none) (added : s'.history = s.history ++ events)
    (others : ∀ e ∈ events, e.answers n = none) : Accounts n s l s' := by
  rw [Accounts, client, quiet, added, answeredBy_append, answeredBy_others others]
  simp

/-- A step by which some client moves. -/
theorem Accounts.moves {m : Nat} {move : Move Client} {l : Label}
    (events : ∀ e ∈ move.events, ClientEvent m e) (other : n ≠ m → l.asks n = none)
    (own : n = m → (s.clients n).request.toList ++ (l.asks n).toList =
      answeredBy n move.events ++ move.next.request.toList) :
    Accounts n s l (s.moveClient m move) := by
  by_cases same : n = m
  · rw [Accounts, List.append_assoc, own same]
    subst same
    show _ = answeredBy n (s.history ++ move.events) ++ _
    rw [answeredBy_append, State.moveClient_self, List.append_assoc]
  · have client : ((s.moveClient m move).clients n).request = (s.clients n).request := by
      rw [State.moveClient_ne s move same]
    exact .still client (other same) rfl fun e mem => (events e mem).answers same

theorem Start.asks_other {start : Start} {m : Nat} (other : n ≠ m) :
    (start.label m).asks n = none := by
  cases start <;> simp [Start.label, Label.asks, Ne.symm other]

/-- A step answers the request that its client has or takes, or leaves it to it, unless
the client dies. -/
theorem step_attends {l : Label} (taken : step cfg s l = some s') (alive : l ≠ .clientCrash n) :
    Accounts n s l s' := by
  cases step_cases taken with
  | elapse duration => exact .still rfl rfl (List.append_nil _).symm (by simp)
  | @store m request key response done at_ =>
    refine .still ?_ rfl (List.append_nil _).symm (by simp)
    show (Function.update s.clients m _ n).request = _
    by_cases same : n = m
    · subst same
      rw [Function.update_self, at_]
      cases done <;> rfl
    · rw [Function.update_of_ne same]
  | @command m call next tokens at_ sent =>
    refine .still ?_ rfl (List.append_nil _).symm (by simp)
    show (Function.update s.clients m _ n).request = _
    by_cases same : n = m
    · subst same
      rw [Function.update_self, at_]
      exact congrArg (Option.map Request.auth) (command_attends sent)
    · rw [Function.update_of_ne same]
  | @start m l start at_ label =>
    obtain rfl : l = start.label m := by
      rw [label]
      cases start <;> rfl
    refine .moves (fun e mem => Or.inl (startClient_events mem)) Start.asks_other fun same => ?_
    subst same
    rw [at_]
    exact startClient_attends
  | @client m choice move ran =>
    refine .moves (fun e mem => clientStep_events ran mem) (fun _ => rfl) fun same => ?_
    subst same
    exact (List.append_nil _).trans (clientStep_attends ran)
  | @clientFail m move ran =>
    refine .moves (fun e mem => Or.inl (clientFail_events ran mem)) (fun _ => rfl) fun same => ?_
    subst same
    refine (List.append_nil _).trans ?_
    have attends := clientFail_attends ran
    cases client : s.clients n <;> rw [client] at ran <;> cases ran <;> exact client ▸ attends
  | clientCrash m =>
    have other : n ≠ m := fun same => alive (by rw [same])
    exact .moves (fun e mem => by cases mem) (fun _ => rfl) fun same => absurd same other
  | poll at_ => exact .still rfl rfl rfl fun e mem => by cases mem
  | @worker w choice move ran =>
    exact .still rfl rfl rfl fun e mem => (workerStep_events rfl ran mem).answers
  | workerFail ran => exact .still rfl rfl rfl (by simp [workerFail_events ran])
  | loseTick ran => exact .still rfl rfl rfl (by simp [loseTick_events ran])
  | workerCrash w => exact .still rfl rfl rfl fun e mem => by cases mem

end Answers

/-! ### A request by itself -/

/-- The labels by which the request of a client goes on, or fails. -/
def Label.Own (n : Nat) : Label → Prop
  | .client m _ => m = n
  | .store m => m = n
  | .command m => m = n
  | .clientFail m => m = n
  | _ => False

/-- A purchase that is answered and stored is no more. -/
def Delivers (s : State) : Prop :=
  ∀ n request key response, s.clients n ≠ .deliver request key response true true

section Deliveries

variable {cfg : Cfg} {s s' : State} {n : Nat}

theorem clientStep_delivers {choice : Choice} {client : Client} {move : Move Client}
    (here : s.clients n = client) (taken : clientStep cfg s n choice client = some move)
    (request : PurchaseRequest) (key : Text) (response : Response) :
    move.next ≠ .deliver request key response true true := by
  cases client with
  | deliver request' key' response' done stored =>
    cases done with
    | true => cases taken
    | false =>
      cases taken
      cases stored <;> simp [State.goOn]
  | _ =>
    intro ended
    have comes := clientStep_comes here taken
    rw [ended] at comes
    generalize is : Client.deliver request key response true true = client at comes
    cases comes with
    | same => cases is.trans here
    | elsewhere quiet => subst is; cases quiet
    | delivers at_ => cases here.symm.trans at_
    | _ => cases is

theorem Delivers.step {l : Label} (delivers : Delivers s) (taken : step cfg s l = some s') :
    Delivers s' := by
  intro n request key response ended
  by_cases own : l.client? = some n
  swap
  · exact delivers n request key response ((step_others taken own).symm.trans ended)
  have self : ∀ {m : Nat} {move : Move Client}, some m = some n →
      (s.moveClient m move).clients n = .deliver request key response true true →
      move.next = .deliver request key response true true := by
    rintro m move same ended
    cases same
    exact (State.moveClient_self ..).symm.trans ended
  cases step_cases taken with
  | elapse duration => cases own
  | @store m request' key' response' done at_ =>
    cases own
    replace ended := (Function.update_self ..).symm.trans ended
    cases done <;> cases ended
  | command at_ sent =>
    cases own
    cases (Function.update_self ..).symm.trans ended
  | @start m l start at_ label =>
    have ended := self (by subst label; cases start <;> exact own) ended
    generalize is : startClient cfg s m start = move at ended
    cases startClient_opens is <;> cases ended
  | client ran => exact clientStep_delivers rfl ran request key response (self own ended)
  | @clientFail m move ran =>
    have ended := self own ended
    cases client : s.clients m <;> rw [client] at ran <;> cases ran <;> cases ended
  | clientCrash m => cases self own ended
  | poll at_ => cases own
  | worker ran => cases own
  | workerFail ran => cases own
  | loseTick ran => cases own
  | workerCrash w => cases own

end Deliveries

/-- All other processes are idle, so no lock is held against the request and its own steps are
the only ones. -/
structure ClientAlone (cfg : Cfg) (n : Nat) (s : State) : Prop where
  coherent : Coherent cfg s
  delivers : Delivers s
  clients : ∀ m, m ≠ n → s.clients m = .idle
  workers : ∀ w, s.workers w = .idle

/-- The steps of the request come to an end. -/
abbrev Ends (cfg : Cfg) (n : Nat) : State → Prop :=
  Must (step cfg) (Label.Own n) fun s => s.clients n = .idle

/-- A write to the cache or to the token store is on its way. -/
def Client.sends : Client → Bool
  | .deliver _ _ _ _ _ => true
  | .auth (.del _ _ _ _) => true
  | .auth (.set _ _ _ _) => true
  | _ => false

section Alone

variable {cfg : Cfg} {s s' : State} {n : Nat}

/-- Nothing hinders the client. -/
theorem ClientAlone.apart (alone : ClientAlone cfg n s) :
    Apart (fun _ => True) s.server (.client n) := by
  rintro ⟨sid, l⟩ mem other -
  cases sid with
  | client m =>
    have ne : m ≠ n := fun same => other (congrArg _ same)
    have safe := alone.coherent.clients m
    rw [alone.clients m ne] at safe
    exact safe.locks l mem
  | tick w =>
    have safe := alone.coherent.workers w
    rw [alone.workers w] at safe
    exact safe.1.locks l mem
  | handler w =>
    have safe := alone.coherent.workers w
    rw [alone.workers w] at safe
    exact safe.2.locks l mem

theorem ClientAlone.query (alone : ClientAlone cfg n s) (st : Stmt) (choice : Choice) :
    ∃ answer server, s.query n st choice = some (answer, server) := by
  rw [State.query, Lib.Server.auto, alone.apart.statement fun _ _ => trivial]
  cases (plan st (s.env (.client n) s.clock choice) s.server.db).answer with
  | error e => exact ⟨_, _, rfl⟩
  | ok r => exact ⟨_, _, rfl⟩

theorem ClientAlone.advance (alone : ClientAlone cfg n s) {α : Type} (body : Program α)
    (started : Int) (choice : Choice) :
    ∃ progress server, body.advance plan (s.env (.client n) started choice) s.now s.server
      (.client n) = some (progress, server) := by
  cases body with
  | pure a => exact ⟨_, _, rfl⟩
  | throw e => exact ⟨_, _, rfl⟩
  | now next => exact ⟨_, _, rfl⟩
  | exec st onError next =>
    rw [Tx.advance, alone.apart.statement fun _ _ => trivial]
    cases (plan st (s.env (.client n) started choice) (s.server.view (.client n))).answer with
    | error e => exact ⟨_, _, rfl⟩
    | ok r => exact ⟨_, _, rfl⟩

/-- A request that has sent nothing can go on. -/
theorem ClientAlone.enabled (alone : ClientAlone cfg n s) {client : Client}
    (quiet : client.sends = false) (busy : client ≠ .idle) (choice : Choice) :
    ∃ move, clientStep cfg s n choice client = some move := by
  cases client with
  | idle => exact absurd rfl busy
  | registerFind dto identifier =>
    obtain ⟨answer, server, ran⟩ := alone.query (.findUser identifier) choice
    rw [clientStep, registerFindStep, ran]
    exact ⟨_, rfl⟩
  | resendFind input identifier =>
    obtain ⟨answer, server, ran⟩ := alone.query (.findUser identifier) choice
    rw [clientStep, resendFindStep, ran]
    exact ⟨_, rfl⟩
  | tx job started body =>
    obtain ⟨progress, server, ran⟩ := alone.advance body started choice
    rw [clientStep, txStep, ran]
    exact ⟨_, rfl⟩
  | deliver request key response done stored => cases quiet
  | auth call =>
    cases call with
    | loginFind dto identifier =>
      obtain ⟨answer, server, ran⟩ := alone.query (.findUser identifier) choice
      rw [clientStep, authStep, afterQuery, ran]
      exact ⟨_, rfl⟩
    | verifyFind dto identifier =>
      obtain ⟨answer, server, ran⟩ := alone.query (.findUser identifier) choice
      rw [clientStep, authStep, afterQuery, ran]
      exact ⟨_, rfl⟩
    | verifyRead dto user now =>
      obtain ⟨answer, server, ran⟩ := alone.query (.findValidOtp user now) choice
      rw [clientStep, authStep, afterQuery, ran]
      exact ⟨_, rfl⟩
    | verifyCount dto otpId =>
      obtain ⟨answer, server, ran⟩ := alone.query (.incrementAttempts otpId) choice
      rw [clientStep, authStep, afterQuery, ran]
      exact ⟨_, rfl⟩
    | disabling user =>
      obtain ⟨answer, server, ran⟩ := alone.query (.updateStatus user .disabled) choice
      rw [clientStep, authStep, afterQuery, ran]
      exact ⟨_, rfl⟩
    | del use token jti session => cases quiet
    | set grant pair jti hash => cases quiet
    | _ => exact ⟨_, rfl⟩
  | _ => exact ⟨_, rfl⟩

theorem Label.Own.client? {l : Label} (own : l.Own n) : l.client? = some n := by
  cases l <;> first | exact congrArg some own | cases own

/-- The steps of the client leave the others idle. -/
theorem ClientAlone.moves {l : Label} (alone : ClientAlone cfg n s) (own : l.client? = some n)
    (taken : FlashSale.step cfg s l = some s') : ClientAlone cfg n s' := by
  refine ⟨(step_coherent alone.coherent taken).1, alone.delivers.step taken, fun m other => ?_,
    fun w => ?_⟩
  · have apart : l.client? ≠ some m := by
      rw [own]
      exact fun same => other (Option.some.inj same).symm
    exact (step_others taken apart).trans (alone.clients m other)
  · have unpolled : l ≠ .poll w := by
      rintro rfl
      cases own
    exact step_worker_idle (alone.workers w) unpolled taken

theorem ClientAlone.step {l : Label} (alone : ClientAlone cfg n s) (own : l.Own n)
    (taken : FlashSale.step cfg s l = some s') : ClientAlone cfg n s' :=
  alone.moves own.client? taken

/-- The request fails, or goes on by itself, or its write is executed. -/
theorem ClientAlone.next (alone : ClientAlone cfg n s)
    (can : ∃ l s', l.Own n ∧ FlashSale.step cfg s l = some s')
    (goes : ∀ choice move, clientStep cfg s n choice (s.clients n) = some move → ∀ s',
      ClientAlone cfg n s' → s'.clients n = move.next → Ends cfg n s')
    (sent : ∀ call tokens next, s.clients n = .auth call → Commands cfg s call tokens next → ∀ s',
      ClientAlone cfg n s' → s'.clients n = .auth next → Ends cfg n s')
    (stored : ∀ request key response done, s.clients n = .deliver request key response done false →
      ∀ s', ClientAlone cfg n s' →
      s'.clients n = (if done then .idle else .deliver request key response done true) →
        Ends cfg n s') : Ends cfg n s := by
  refine .next can fun l s' own taken => ?_
  have alone' := alone.step own taken
  cases step_cases taken with
  | @client m choice move ran =>
    obtain rfl : m = n := own
    exact goes choice move ran _ alone' (State.moveClient_self ..)
  | @clientFail m move ran =>
    obtain rfl : m = n := own
    refine .here ((State.moveClient_self ..).trans ?_)
    cases client : s.clients m <;> rw [client] at ran <;> cases ran <;> rfl
  | @store m request key response done at_ =>
    obtain rfl : m = n := own
    exact stored request key response done at_ _ alone' (Function.update_self ..)
  | @command m call next tokens at_ ran =>
    obtain rfl : m = n := own
    exact sent call tokens next at_ (AuthCall.commands ran) _ alone' (Function.update_self ..)
  | start start at_ label =>
    subst label
    cases start <;> cases own
  | elapse duration => cases own
  | clientCrash m => cases own
  | poll at_ => cases own
  | worker ran => cases own
  | workerFail ran => cases own
  | loseTick ran => cases own
  | workerCrash w => cases own

theorem own_step {choice : Choice} {move : Move Client}
    (ran : clientStep cfg s n choice (s.clients n) = some move) :
    ∃ l s', l.Own n ∧ FlashSale.step cfg s l = some s' :=
  ⟨.client n choice, s.moveClient n move, rfl, by rw [FlashSale.step, ran]; rfl⟩

/-- A request that has sent nothing goes on by itself. -/
theorem ClientAlone.goes (alone : ClientAlone cfg n s) {client : Client}
    (at_ : s.clients n = client) (quiet : client.sends = false) (busy : client ≠ .idle)
    (rest : ∀ choice move, clientStep cfg s n choice client = some move → ∀ s',
      ClientAlone cfg n s' → s'.clients n = move.next → Ends cfg n s') : Ends cfg n s := by
  subst at_
  obtain ⟨move, ran⟩ := alone.enabled quiet busy calm
  refine alone.next (own_step ran) rest ?_ ?_
  · intro call tokens next at_ sent
    rw [at_] at quiet
    cases sent <;> cases quiet
  · intro request key response done at_
    rw [at_] at quiet
    cases quiet

/-- One whose write is on its way to the token store waits for Redis. -/
theorem ClientAlone.waits (alone : ClientAlone cfg n s) {call : AuthCall}
    (at_ : s.clients n = .auth call) (sends : (Client.auth call).sends = true)
    (rest : ∀ tokens next, Commands cfg s call tokens next → ∀ s', ClientAlone cfg n s' →
      s'.clients n = .auth next → Ends cfg n s') : Ends cfg n s := by
  have can : ∃ s', commandStep cfg s n = some s' := by
    unfold commandStep
    rw [at_]
    cases call with
    | del use token jti session => cases use <;> exact ⟨_, rfl⟩
    | set grant pair jti hash => exact ⟨_, rfl⟩
    | _ => cases sends
  obtain ⟨s', taken⟩ := can
  refine alone.next ⟨.command n, s', rfl, taken⟩ ?_ ?_ ?_
  · intro choice move ran
    rw [at_] at ran
    cases call with
    | del use token jti session => cases ran
    | set grant pair jti hash => cases ran
    | _ => cases sends
  · intro call' tokens next at' sent
    cases at_.symm.trans at'
    exact rest tokens next sent
  · intro request key response done at'
    cases at_.symm.trans at'

/-- A purchase that has committed is answered and stored, in either order. -/
theorem ClientAlone.delivering (alone : ClientAlone cfg n s) {request : PurchaseRequest}
    {key : Text} {response : Response} {done stored : Bool}
    (at_ : s.clients n = .deliver request key response done stored) : Ends cfg n s := by
  have unsent : ∀ {s : State} {done stored : Bool},
      s.clients n = .deliver request key response done stored → ∀ call tokens next,
      s.clients n = .auth call → Commands cfg s call tokens next → ∀ s', ClientAlone cfg n s' →
      s'.clients n = .auth next → Ends cfg n s' := by
    intro s done stored at_ call tokens next at'
    cases at_.symm.trans at'
  -- It is answered, and the write is on its way.
  have stores : ∀ s, ClientAlone cfg n s → s.clients n = .deliver request key response true false →
      Ends cfg n s := by
    intro s alone at_
    have taken : ∃ s', storeStep s n = some s' := by
      unfold storeStep
      rw [at_]
      exact ⟨_, rfl⟩
    obtain ⟨s', taken⟩ := taken
    refine alone.next ⟨.store n, s', rfl, taken⟩ ?_ (unsent at_) ?_
    · intro choice move ran
      rw [at_] at ran
      cases ran
    · intro request key response done at' s' _ at''
      cases at_.symm.trans at'
      exact .here at''
  have answers : ∀ s stored, s.clients n = .deliver request key response false stored →
      ∃ l s', l.Own n ∧ FlashSale.step cfg s l = some s' := by
    intro s stored at_
    have ran : ∃ move, clientStep cfg s n calm (s.clients n) = some move := by
      rw [at_]
      exact ⟨_, rfl⟩
    exact own_step ran.choose_spec
  cases done with
  | true =>
    cases stored with
    | true => exact absurd at_ (alone.delivers n request key response)
    | false => exact stores s alone at_
  | false =>
    have answered : ∀ s, ClientAlone cfg n s →
        s.clients n = .deliver request key response false true → Ends cfg n s := by
      intro s alone at_
      refine alone.next (answers s true at_) ?_ (unsent at_) ?_
      · intro choice move ran s' _ at'
        rw [at_] at ran
        cases ran
        exact .here at'
      · intro request' key' response' done at'
        cases at_.symm.trans at'
    cases stored with
    | true => exact answered s alone at_
    | false =>
      refine alone.next (answers s false at_) ?_ (unsent at_) ?_
      · intro choice move ran s' alone' at'
        rw [at_] at ran
        cases ran
        exact stores s' alone' at'
      · intro request' key' response' done at' s' alone' at''
        cases at_.symm.trans at'
        exact answered s' alone' at''

/-- An auth call that is not answered goes on. -/
theorem ClientAlone.call (alone : ClientAlone cfg n s) {call : AuthCall}
    (at_ : s.clients n = .auth call) (quiet : (Client.auth call).sends = false)
    (rest : ∀ choice next events, AuthGoes cfg s n choice call next events → ∀ s',
      ClientAlone cfg n s' → s'.clients n = next → Ends cfg n s') : Ends cfg n s := by
  refine alone.goes at_ quiet (by simp) fun choice move ran s' alone' next => ?_
  have turn : AuthTurn cfg s n choice call move.next move.events := authStep_turns ran
  generalize move.events = events at turn
  rw [← next] at turn
  generalize is : s'.clients n = client at turn
  cases turn with
  | ends response => exact .here is
  | goes goes => exact rest choice client events goes s' alone' is

/-! #### The calls -/

theorem ClientAlone.replies (alone : ClientAlone cfg n s) {grant : Grant} {pair : TokenPair}
    (at_ : s.clients n = .auth (.reply grant pair)) : Ends cfg n s := by
  refine alone.call at_ rfl fun choice next events goes s' alone' at' => ?_
  cases goes
  exact .here at'

theorem ClientAlone.issues (alone : ClientAlone cfg n s) {grant : Grant}
    (at_ : s.clients n = .auth (.issue grant)) : Ends cfg n s := by
  refine alone.call at_ rfl fun choice next events goes s' alone' at' => ?_
  cases goes
  refine alone'.waits at' rfl fun tokens next sent s'' alone'' at'' => ?_
  cases sent
  exact alone''.replies at''

theorem ClientAlone.counts (alone : ClientAlone cfg n s) {dto : VerifyOtpDto} {otpId : Uuid}
    (at_ : s.clients n = .auth (.verifyCount dto otpId)) : Ends cfg n s := by
  refine alone.call at_ rfl fun choice next events goes s' alone' at' => ?_
  cases goes
  exact .here at'

theorem ClientAlone.uses (alone : ClientAlone cfg n s) {use : TokenUse} {token jti : Text}
    {session : Session} (at_ : s.clients n = .auth (.del use token jti session)) :
    Ends cfg n s := by
  refine alone.waits at_ rfl fun tokens next sent s' alone' at' => ?_
  cases sent with
  | rotates => exact alone'.issues at'
  | revokes =>
    refine alone'.call at' rfl fun choice next events goes s'' alone'' at'' => ?_
    cases goes
    exact .here at''

/-- A transaction ends, whatever its statements answer: its program is finite. -/
theorem ClientAlone.runs {job : Job} {started : Int} (body : Program job.Result) {s : State}
    (alone : ClientAlone cfg n s) (at_ : s.clients n = .tx job started body) : Ends cfg n s := by
  have throws : ∀ {s : State} {e : Failure}, ClientAlone cfg n s →
      s.clients n = .tx job started (.throw e) → Ends cfg n s := by
    intro s e alone at_
    refine alone.goes at_ rfl (by simp) fun choice move ran s' alone' at' => ?_
    cases ran
    exact .here at'
  induction body generalizing s with
  | pure result =>
    refine alone.goes at_ rfl (by simp) fun choice move ran s' alone' at' => ?_
    cases ran
    cases job with
    | purchase request key args => exact alone'.delivering at'
    | create input => exact .here at'
    | register dto identifier passwordHash otp => exact .here at'
    | resend input user identifier otp => exact .here at'
    | verify dto otpId user => exact alone'.issues at'
  | throw e => exact throws alone at_
  | now next ih =>
    refine alone.goes at_ rfl (by simp) fun choice move ran s' alone' at' => ?_
    cases ran
    exact ih _ alone' at'
  | exec st onError next ih =>
    refine alone.goes at_ rfl (by simp) fun choice move ran s' alone' at' => ?_
    change txStep s n job started (.exec st onError next) choice = some move at ran
    obtain ⟨⟨progress, server⟩, advanced, eq⟩ := Option.map_eq_some_iff.mp ran
    cases progress with
    | running rest =>
      cases eq
      rcases advance_exec advanced with ⟨e, rfl⟩ | ⟨ws, r, -, rfl, -, -⟩
      · exact throws alone' at'
      · exact ih r alone' at'
    | returned result => cases advance_returned advanced
    | threw e => cases advance_threw advanced

theorem ClientAlone.begins (alone : ClientAlone cfg n s) {job : Job}
    (at_ : s.clients n = .begin_ job) : Ends cfg n s := by
  refine alone.goes at_ rfl (by simp) fun choice move ran s' alone' at' => ?_
  cases ran
  exact alone'.runs job.program at'

theorem ClientAlone.compares (alone : ClientAlone cfg n s) {dto : VerifyOtpDto} {user otpId : Uuid}
    {otp : OtpRow} (at_ : s.clients n = .auth (.verifyCompare dto user otpId otp)) :
    Ends cfg n s := by
  refine alone.call at_ rfl fun choice next events goes s' alone' at' => ?_
  cases goes with
  | verifyMatches plain => exact alone'.begins at'
  | verifyDiffers plain differs => exact alone'.counts at'

theorem ClientAlone.reads (alone : ClientAlone cfg n s) {dto : VerifyOtpDto} {user : Uuid}
    {now : Int} (at_ : s.clients n = .auth (.verifyRead dto user now)) : Ends cfg n s := by
  refine alone.call at_ rfl fun choice next events goes s' alone' at' => ?_
  cases goes
  exact alone'.compares at'

theorem ClientAlone.clocks (alone : ClientAlone cfg n s) {dto : VerifyOtpDto} {user : Uuid}
    (at_ : s.clients n = .auth (.verifyClock dto user)) : Ends cfg n s := by
  refine alone.call at_ rfl fun choice next events goes s' alone' at' => ?_
  cases goes
  exact alone'.reads at'

theorem ClientAlone.logsIn (alone : ClientAlone cfg n s) {dto : LoginDto}
    {user : Option (Uuid × UserRow)} (at_ : s.clients n = .auth (.loginCompare dto user)) :
    Ends cfg n s := by
  refine alone.call at_ rfl fun choice next events goes s' alone' at' => ?_
  cases goes
  exact alone'.issues at'

theorem ClientAlone.auth (alone : ClientAlone cfg n s) {call : AuthCall}
    (at_ : s.clients n = .auth call) : Ends cfg n s := by
  cases call with
  | loginFind dto identifier =>
    refine alone.call at_ rfl fun choice next events goes s' alone' at' => ?_
    cases goes
    exact alone'.logsIn at'
  | loginCompare dto user => exact alone.logsIn at_
  | verifyFind dto identifier =>
    refine alone.call at_ rfl fun choice next events goes s' alone' at' => ?_
    cases goes
    exact alone'.clocks at'
  | verifyClock dto user => exact alone.clocks at_
  | verifyRead dto user now => exact alone.reads at_
  | verifyCompare dto user otpId otp => exact alone.compares at_
  | verifyCount dto otpId => exact alone.counts at_
  | get use token =>
    refine alone.call at_ rfl fun choice next events goes s' alone' at' => ?_
    cases goes
    exact alone'.uses at'
  | del use token jti session => exact alone.uses at_
  | revoked token =>
    refine alone.call at_ rfl fun choice next events goes s' alone' at' => ?_
    cases goes
    exact .here at'
  | issue grant => exact alone.issues at_
  | set grant pair jti hash =>
    refine alone.waits at_ rfl fun tokens next sent s' alone' at' => ?_
    cases sent
    exact alone'.replies at'
  | reply grant pair => exact alone.replies at_
  | disabling user =>
    refine alone.call at_ rfl fun choice next events goes s' alone' at' => ?_
    cases goes
    exact .here at'

/-- Wherever the request is, its steps come to an end when no other process takes any. By cases
on its stage, with the transaction by induction on its program. -/
theorem ClientAlone.ends (alone : ClientAlone cfg n s) : Ends cfg n s := by
  have prepared : ∀ {s : State} {client : Client}, ClientAlone cfg n s → s.clients n = client →
      client.sends = false → client ≠ .idle →
      (∀ choice move, clientStep cfg s n choice client = some move →
        move.next = .idle ∨ ∃ job, move.next = .begin_ job) → Ends cfg n s := by
    intro s client alone at_ quiet busy leads
    refine alone.goes at_ quiet busy fun choice move ran s' alone' at' => ?_
    rcases leads choice move ran with idle | ⟨job, begins⟩
    · exact .here (at'.trans idle)
    · exact alone'.begins (at'.trans begins)
  have handles : ∀ {s : State} {request : PurchaseRequest} {key : Text}, ClientAlone cfg n s →
      s.clients n = .handle request key → Ends cfg n s := by
    intro s request key alone at_
    refine prepared alone at_ rfl (by simp) fun choice move ran => ?_
    cases ran
    unfold handleStep
    split
    · exact Or.inl rfl
    · exact Or.inr ⟨_, rfl⟩
  cases at_ : s.clients n with
  | idle => exact .here at_
  | lookup request =>
    refine alone.goes at_ rfl (by simp) fun choice move ran s' alone' at' => ?_
    cases ran
    unfold lookupStep at at'
    split at at'
    · exact .here at'
    · split at at'
      · exact .here at'
      · exact handles alone' at'
  | handle request key => exact handles alone at_
  | registerFind dto identifier =>
    refine alone.goes at_ rfl (by simp) fun choice move ran s' alone' at' => ?_
    obtain ⟨-, server, -, ⟨response, rfl⟩ | ⟨-, rfl⟩⟩ := registerFindStep_turns ran
    · exact .here at'
    · refine prepared alone' at' rfl (by simp) fun choice move ran => ?_
      cases ran
      exact Or.inr ⟨_, rfl⟩
  | registerPrepare dto identifier =>
    refine prepared alone at_ rfl (by simp) fun choice move ran => ?_
    cases ran
    exact Or.inr ⟨_, rfl⟩
  | resendFind input identifier =>
    refine alone.goes at_ rfl (by simp) fun choice move ran s' alone' at' => ?_
    obtain ⟨-, server, -, ⟨response, rfl⟩ | ⟨id, user, -, -, rfl⟩⟩ := resendFindStep_turns ran
    · exact .here at'
    · refine prepared alone' at' rfl (by simp) fun choice move ran => ?_
      cases ran
      exact Or.inr ⟨_, rfl⟩
  | resendPrepare input user identifier =>
    refine prepared alone at_ rfl (by simp) fun choice move ran => ?_
    cases ran
    exact Or.inr ⟨_, rfl⟩
  | auth call => exact alone.auth at_
  | begin_ job => exact alone.begins at_
  | tx job started body => exact alone.runs body at_
  | deliver request key response done stored => exact alone.delivering at_

end Alone

/-! ### Runs -/

/-- The death of another process. -/
def Label.Spares (n : Nat) : Label → Prop
  | .clientCrash m => m ≠ n
  | .workerCrash _ => True
  | _ => False

section Runs

variable {cfg : Cfg} {start s : State} {trace : List (State × Label)} {n : Nat}

/-- The answers of a client are those of its requests, in the order in which it has asked. -/
theorem Run.requests (fresh : Fresh start) (run : Run cfg start trace s) (n : Nat) :
    (answeredBy n s.history ++ (s.clients n).request.toList).Sublist (asked n trace) ∧
    ((∀ p ∈ trace, p.2 ≠ .clientCrash n) →
      asked n trace = answeredBy n s.history ++ (s.clients n).request.toList) := by
  induction run with
  | nil =>
    rw [fresh.history, fresh.clients n]
    exact ⟨List.Sublist.refl _, fun _ => rfl⟩
  | @snoc trace s s' l before taken ih =>
    obtain ⟨sub, exact_⟩ := ih
    have more : asked n (trace ++ [(s, l)]) = asked n trace ++ (l.asks n).toList := by
      rw [asked, List.filterMap_append]
      cases asks : l.asks n <;> simp [asked, asks]
    rw [more]
    by_cases dies : l = .clientCrash n
    · subst dies
      refine ⟨?_, fun alive => absurd rfl (alive _ (List.mem_append_right _ List.mem_cons_self))⟩
      cases taken
      show (answeredBy n (s.history ++ []) ++
        ((s.moveClient n (clientCrash s n)).clients n).request.toList).Sublist _
      have before : (answeredBy n s.history).Sublist (asked n trace) :=
        (List.sublist_append_left _ _).trans sub
      rw [List.append_nil, State.moveClient_self]
      simpa [clientCrash, Client.request, Label.asks] using before
    · have attends := step_attends taken dies
      rw [Accounts] at attends
      rw [← attends]
      refine ⟨sub.append (List.Sublist.refl _), fun alive => ?_⟩
      rw [exact_ fun p mem => alive p (List.mem_append_left _ mem)]

/-- What the death of other processes leaves as it was: the request, the committed rows, and
what Redis holds. -/
structure Survives (cfg : Cfg) (n : Nat) (before s : State) : Prop where
  coherent : Coherent cfg s
  delivers : Delivers s
  client : s.clients n = before.clients n
  db : s.server.db = before.server.db
  history : s.history = before.history
  serial : s.serial = before.serial
  clock : s.clock = before.clock
  redis : s.redis = before.redis

theorem Survives.clientCrash {before : State} (survives : Survives cfg n before s) {m : Nat}
    (other : m ≠ n) : Survives cfg n before (s.moveClient m (clientCrash s m)) := by
  have taken : step cfg s (.clientCrash m) =
      some (s.moveClient m (FlashSale.clientCrash s m)) := rfl
  exact ⟨(step_coherent survives.coherent taken).1, survives.delivers.step taken,
    (State.moveClient_ne s _ (Ne.symm other)).trans survives.client, survives.db,
    (List.append_nil _).trans survives.history, survives.serial, survives.clock, survives.redis⟩

theorem Survives.workerCrash {before : State} (survives : Survives cfg n before s) (w : Nat) :
    Survives cfg n before (s.moveWorker w (workerCrash s w)) := by
  have taken : step cfg s (.workerCrash w) =
      some (s.moveWorker w (FlashSale.workerCrash s w)) := rfl
  exact ⟨(step_coherent survives.coherent taken).1, survives.delivers.step taken, survives.client,
    survives.db, (List.append_nil _).trans survives.history, survives.serial, survives.clock,
    survives.redis⟩

/-- The other processes die, and nothing else changes. -/
theorem Run.left_alone (fresh : Fresh start) (run : Run cfg start trace s) (n : Nat) :
    Can (step cfg) (Label.Spares n) (fun s' => Survives cfg n s s' ∧ ClientAlone cfg n s') s := by
  obtain ⟨k, idle⟩ := run.few fresh
  have delivers : Delivers s := by
    refine Lib.Run.invariant (fun n request key response ended => ?_)
      (fun _ _ _ delivers taken => Delivers.step delivers taken) run
    rw [fresh.clients n] at ended
    cases ended
  -- The clients die first.
  have clients : Can (step cfg) (Label.Spares n) (fun s' => Survives cfg n s s' ∧
      (∀ i, i ≠ n → i < k ∨ k ≤ i → s'.clients i = .idle) ∧
      ∀ w, k ≤ w → s'.workers w = .idle) s := by
    refine Can.each (fun m s' => Survives cfg n s s' ∧
      (∀ i, i ≠ n → i < m ∨ k ≤ i → s'.clients i = .idle) ∧ ∀ w, k ≤ w → s'.workers w = .idle)
      (fun m s' inv => ?_) k ⟨⟨run.coherent fresh, delivers, rfl, rfl, rfl, rfl, rfl, rfl⟩, fun i _ high => ?_,
        fun w high => (idle w high).2⟩
    · obtain ⟨survives, clients, workers⟩ := inv
      by_cases own : m = n
      · refine .here ⟨survives, fun i other low => clients i other ?_, workers⟩
        omega
      refine Can.next (l := .clientCrash m) own rfl
        (.here ⟨survives.clientCrash own, fun i other low => ?_, workers⟩)
      by_cases same : i = m
      · subst same
        exact State.moveClient_self ..
      · rw [State.moveClient_ne s' _ same]
        exact clients i other (by omega)
    · exact (idle i (by omega)).1
  refine clients.andThen fun s₁ inv => ?_
  obtain ⟨survives, clients, workers⟩ := inv
  have all : ∀ i, i ≠ n → s₁.clients i = .idle := fun i other => clients i other (lt_or_ge i k)
  refine (Can.each (fun m s' => Survives cfg n s s' ∧ (∀ i, i ≠ n → s'.clients i = .idle) ∧
    ∀ w, w < m ∨ k ≤ w → s'.workers w = .idle) (fun m s' inv => ?_) k
    ⟨survives, all, fun w low => workers w (by omega)⟩).imp fun s' inv => ⟨inv.1, inv.1.coherent,
      inv.1.delivers, inv.2.1, fun w => inv.2.2 w (lt_or_ge w k)⟩
  obtain ⟨survives, clients, workers⟩ := inv
  refine Can.next (l := .workerCrash m) trivial rfl (.here ⟨survives.workerCrash m, clients,
    fun w low => ?_⟩)
  by_cases same : w = m
  · subst same
    exact State.moveWorker_self ..
  · rw [State.moveWorker_ne s' _ same]
    exact workers w (by omega)

/-- In every run, what is answered to a client are its requests, in the order in which it
has taken them, each once; while its process lives, all of them but the one that it is busy
with. And wherever that one is, when the other processes have died its own steps answer
it, however they go. -/
theorem Run.answered_once (fresh : Fresh start) (run : Run cfg start trace s) (n : Nat) :
    (answeredBy n s.history ++ (s.clients n).request.toList).Sublist (asked n trace) ∧
    ((∀ p ∈ trace, p.2 ≠ .clientCrash n) →
      asked n trace = answeredBy n s.history ++ (s.clients n).request.toList) ∧
    Can (step cfg) (Label.Spares n) (fun s₁ => s₁.clients n = s.clients n ∧
      s₁.server.db = s.server.db ∧ s₁.history = s.history ∧
      Must (step cfg) (Label.Own n) (fun s₂ => s₂.clients n = .idle ∧
        answeredBy n s₂.history = answeredBy n s.history ++ (s.clients n).request.toList)
        s₁) s := by
  obtain ⟨sub, exact_⟩ := run.requests fresh n
  refine ⟨sub, exact_, (run.left_alone fresh n).imp fun s₁ left => ?_⟩
  obtain ⟨⟨-, -, client, db, history, -, -, -⟩, alone⟩ := left
  refine ⟨client, db, history, alone.ends.along (fun s₂ => answeredBy n s₂.history ++
    (s₂.clients n).request.toList = answeredBy n s.history ++ (s.clients n).request.toList)
    (fun s l s' same own taken => ?_) (by rw [history, client]) fun s₂ idle same => ⟨idle, ?_⟩⟩
  · have alive : l ≠ .clientCrash n := by
      rintro rfl
      cases own
    have quiet : l.asks n = none := by cases l <;> first | rfl | cases own
    have attends := step_attends taken alive
    rw [Accounts, quiet] at attends
    rw [← attends, ← same]
    exact List.append_nil _
  · rw [idle] at same
    exact (List.append_nil _).symm.trans same

/-- User 1 is served at item 4, and asks for it once more while the item is locked. -/
def behindLock : List Label :=
  creating ++ .purchase 1 ⟨1, some (uuidText '1'), some 4⟩ :: Label.clientSteps 1 6 7 ++
    .purchase 2 ⟨1, some (uuidText '2'), some 4⟩ :: Label.clientSteps 2 4 8

def Label.crashesClient : Label → Bool
  | .clientCrash _ => true
  | _ => false

theorem behindLock_runs : (Lib.execute (step plainCfg) bareShop behindLock).isSome = true := by
  decide +kernel

theorem answered_once_behindLock :
    ∃ s, Run plainCfg bareShop (Lib.traceOf (step plainCfg) bareShop behindLock) s ∧
      step plainCfg s (.client 2 calm) = none ∧
      Can (step plainCfg) (Label.Spares 2) (fun s₁ => Must (step plainCfg) (Label.Own 2)
        (fun s₂ => s₂.clients 2 = .idle ∧
          answeredBy 2 s₂.history = [.purchase ⟨1, some (uuidText '2'), some 4⟩]) s₁) s := by
  have run := Lib.Run.of_isSome behindLock_runs
  have waits : (step plainCfg ((Lib.execute (step plainCfg) bareShop behindLock).get behindLock_runs)
      (.client 2 calm)).isNone = true := by decide +kernel
  have asks : asked 2 (Lib.traceOf (step plainCfg) bareShop behindLock) =
      [.purchase ⟨1, some (uuidText '2'), some 4⟩] := by decide +kernel
  have lives : ∀ p ∈ Lib.traceOf (step plainCfg) bareShop behindLock,
      p.2.crashesClient = false := by decide +kernel
  obtain ⟨-, exact_, ends⟩ := Run.answered_once (State.initial_fresh _ _ _) run 2
  have all := exact_ fun p mem dies => by
    have alive := lives p mem
    rw [dies] at alive
    cases alive
  refine ⟨_, run, Option.isNone_iff_eq_none.mp waits, ends.imp fun s₁ left => ?_⟩
  rw [← asks, all]
  exact left.2.2.2

end Runs

end FlashSale
