/-
# Purchase requests and their answers

A purchase request passes the cache, the controller, the transaction and the delivery of
its response, and can fail or die at each of these places. `Comes` lists how a client gets
to each of them, with what it has found on the way, so that what is shown later of answers
is shown by cases on this list and never opens the step function again.

* `purchaseTx_throws`: what the purchase transaction throws is answered as an error.
* `step_client`: how a client comes to where it is in a purchase request.
* `step_answers`: where the answers to purchase requests come from.
-/
import FlashSale.History

namespace FlashSale

open Lib (Tx)

/-! ### Errors -/

/-- The request that a failure ends is answered as an error. -/
def Failure.Refuses (e : Failure) : Prop := e.response.status ≠ 200

theorem run_throws (st : Stmt) : (run st).Throws Failure.Refuses :=
  Tx.Throws.statement fun _ => by simp [Failure.Refuses, Failure.response]

theorem alreadyPurchasedToday_refuses (day : Day) : (alreadyPurchasedToday day).Refuses := by
  simp [Failure.Refuses, Failure.response, alreadyPurchasedToday]

/-- What the purchase transaction throws is answered as an error, never as a success, so that
every 200 comes from a commit or from the cache. -/
theorem purchaseTx_throws (userId saleItemId idempotencyKey : Uuid) (day : Day) :
    (purchaseTx userId saleItemId idempotencyKey day).Throws Failure.Refuses := by
  unfold purchaseTx
  refine (run_throws _).bind fun purchased => ?_
  split
  · exact alreadyPurchasedToday_refuses day
  · refine (run_throws _).bind fun found => ?_
    cases found with
    | none => simp [Tx.Throws, Failure.Refuses, Failure.response, saleItemNotFound]
    | some item =>
      intro now
      dsimp only [Tx.bind]
      split
      · simp [Tx.Throws, Failure.Refuses, Failure.response, outOfWindow]
      · split
        · simp [Tx.Throws, Failure.Refuses, Failure.response, soldOut]
        · refine (run_throws _).bind fun balance => ?_
          cases balance with
          | none => simp [Tx.Throws, Failure.Refuses, Failure.response, insufficientBalance]
          | some balanceCents =>
            dsimp only
            split
            · simp [Tx.Throws, Failure.Refuses, Failure.response, insufficientBalance]
            · refine (run_throws _).bind fun _ => (run_throws _).bind fun _ =>
                (Tx.Throws.statement fun e => ?_).bind fun _ => (run_throws _).bind fun _ => trivial
              split
              · exact alreadyPurchasedToday_refuses day
              · simp [Failure.Refuses, Failure.response]

/-! ### Clients -/

/-- The arguments of a transaction are those of its request. -/
structure PurchaseArgs.Of (request : PurchaseRequest) (key : Text) (args : PurchaseArgs) : Prop where
  has : request.key? = some key
  user : args.userId = request.userId
  item : request.saleItemId = some args.saleItemId
  uuid : args.idempotencyKey = parseUuid key

/-- A client is busy with what its request says. -/
def Client.Formed : Client → Prop
  | .handle request key => request.key? = some key
  | .begin_ (.purchase request key args) => PurchaseArgs.Of request key args
  | .tx (.purchase request key args) _ body =>
    PurchaseArgs.Of request key args ∧ body.Throws Failure.Refuses
  | .deliver request key _ _ _ => request.key? = some key
  | _ => True

/-- A client with a purchase request. -/
def Client.purchasing : Client → Bool
  | .lookup _ => true
  | .handle _ _ => true
  | .begin_ (.purchase _ _ _) => true
  | .tx (.purchase _ _ _) _ _ => true
  | .deliver _ _ _ _ _ => true
  | _ => false

/-- How a client comes to where it is in a purchase request, one case for each place, with what
it has found there. It says nothing of clients elsewhere. -/
inductive Comes (cfg : Cfg) (s : State) (l : Label) (s' : State) (n : Nat) : Client → Prop where
  | same : Comes cfg s l s' n (s.clients n)
  | elsewhere {client : Client} (quiet : client.purchasing = false) : Comes cfg s l s' n client
  | asks {request : PurchaseRequest} (label : l = .purchase n request) :
      Comes cfg s l s' n (.lookup request)
  | misses {choice : Choice} {request : PurchaseRequest} {key : Text} (label : l = .client n choice)
      (at_ : s.clients n = .lookup request) (has : request.key? = some key)
      (miss : s.cached key = none) : Comes cfg s l s' n (.handle request key)
  | enters {choice : Choice} {request : PurchaseRequest} {key : Text} {saleItemId : Uuid}
      (label : l = .client n choice) (at_ : s.clients n = .handle request key)
      (item : request.saleItemId = some saleItemId) :
      Comes cfg s l s' n (.begin_ (.purchase request key
        ⟨request.userId, saleItemId, parseUuid key, cfg.dateOf s.now⟩))
  | opens {job : Job} (at_ : s.clients n = .begin_ job) :
      Comes cfg s l s' n (.tx job s.clock job.program)
  | advances {choice : Choice} {job : Job} {started : Int} {before body : Program job.Result}
      (at_ : s.clients n = .tx job started before)
      (ran : before.advance plan (s.env (.client n) started choice) s.now s.server (.client n) =
        some (.running body, s'.server)) : Comes cfg s l s' n (.tx job started body)
  | commits {choice : Choice} {request : PurchaseRequest} {key : Text} {args : PurchaseArgs}
      {started : Int} {result : PurchaseResult} (label : l = .client n choice)
      (at_ : s.clients n = .tx (.purchase request key args) started (.pure result)) :
      Comes cfg s l s' n (.deliver request key ⟨200, .purchase result.body⟩ false false)
  | delivers {request : PurchaseRequest} {key : Text} {response : Response}
      {answered stored answered' stored' : Bool}
      (at_ : s.clients n = .deliver request key response answered stored) :
      Comes cfg s l s' n (.deliver request key response answered' stored')

section Steps

variable {cfg : Cfg} {s s' : State} {l : Label}

theorem advance_returned {α : Type} {body : Program α} {env : Env} {time : Int} {srv srv' : Server}
    {sid : Sid} {a : α} (ran : body.advance plan env time srv sid = some (.returned a, srv')) :
    body = .pure a := by
  cases body with
  | pure b => cases ran; rfl
  | throw e => cases ran
  | now next => cases ran
  | exec st onError next =>
    obtain ⟨⟨answer, server⟩, -, eq⟩ := Option.map_eq_some_iff.mp ran
    cases answer <;> cases eq

theorem advance_threw {α : Type} {body : Program α} {env : Env} {time : Int} {srv srv' : Server}
    {sid : Sid} {e : Failure} (ran : body.advance plan env time srv sid = some (.threw e, srv')) :
    body = .throw e := by
  cases body with
  | pure b => cases ran
  | throw e' => cases ran; rfl
  | now next => cases ran
  | exec st onError next =>
    obtain ⟨⟨answer, server⟩, -, eq⟩ := Option.map_eq_some_iff.mp ran
    cases answer <;> cases eq

/-- An auth call leads to no purchase request. -/
theorem AuthTurn.away {n : Nat} {choice : Choice} {call : AuthCall} {next : Client}
    {events : List Event} (turn : AuthTurn cfg s n choice call next events) :
    next.purchasing = false := by
  obtain response | goes := turn
  · rfl
  · cases goes <;> rfl

theorem clientStep_comes {n : Nat} {choice : Choice} {client : Client} {move : Move Client}
    (here : s.clients n = client) (taken : clientStep cfg s n choice client = some move) :
    Comes cfg s (.client n choice) (s.moveClient n move) n move.next := by
  cases client with
  | idle => cases taken
  | lookup request =>
    cases taken
    unfold lookupStep
    split
    · exact .elsewhere rfl
    · rename_i key has
      split
      · exact .elsewhere rfl
      · rename_i miss
        exact .misses rfl here has miss
  | handle request key =>
    cases taken
    unfold handleStep
    split
    · exact .elsewhere rfl
    · rename_i item
      exact .enters rfl here item
  | registerFind dto identifier =>
    obtain ⟨-, server, -, ⟨response, rfl⟩ | ⟨-, rfl⟩⟩ := registerFindStep_turns taken
    · exact .elsewhere rfl
    · exact .elsewhere rfl
  | registerPrepare dto identifier =>
    cases taken
    exact .elsewhere rfl
  | resendFind input identifier =>
    obtain ⟨-, server, -, ⟨response, rfl⟩ | ⟨id, user, -, -, rfl⟩⟩ := resendFindStep_turns taken
    · exact .elsewhere rfl
    · exact .elsewhere rfl
  | resendPrepare input user identifier =>
    cases taken
    exact .elsewhere rfl
  | auth call => exact .elsewhere (authStep_turns taken).away
  | begin_ job =>
    cases taken
    exact .opens here
  | tx job started body =>
    change txStep s n job started body choice = some move at taken
    obtain ⟨⟨progress, server⟩, ran, eq⟩ := Option.map_eq_some_iff.mp taken
    cases progress with
    | running next =>
      cases eq
      exact .advances here ran
    | returned result =>
      cases eq
      obtain rfl := advance_returned ran
      cases job with
      | purchase request key args => exact .commits rfl here
      | _ => exact .elsewhere rfl
    | threw e =>
      cases eq
      exact .elsewhere rfl
  | deliver request key response answered stored =>
    cases answered with
    | true => cases taken
    | false =>
      cases taken
      dsimp only [State.goOn]
      split
      · exact .elsewhere rfl
      · exact .delivers here

/-- How a client comes to where it is in a purchase request. Later modules use this and not the
step function. -/
theorem step_client (taken : step cfg s l = some s') (n : Nat) :
    Comes cfg s l s' n (s'.clients n) := by
  have own : ∀ {n' : Nat} {move : Move Client},
      (n = n' → Comes cfg s l (s.moveClient n' move) n move.next) →
      Comes cfg s l (s.moveClient n' move) n ((s.moveClient n' move).clients n) := by
    intro n' move comes
    by_cases same : n = n'
    · subst same
      rw [State.moveClient_self]
      exact comes rfl
    · rw [State.moveClient_ne s move same]
      exact .same
  cases step_cases taken with
  | elapse duration => exact .same
  | @store n' request key response answered at_ =>
    show Comes cfg s _ _ n (Function.update s.clients n' _ n)
    by_cases same : n = n'
    · subst same
      rw [Function.update_self]
      split
      · exact .elsewhere rfl
      · exact .delivers at_
    · rw [Function.update_of_ne same]
      exact .same
  | @command n' call next tokens at_ sent =>
    show Comes cfg s _ _ n (Function.update s.clients n' _ n)
    by_cases same : n = n'
    · subst same
      rw [Function.update_self]
      exact .elsewhere rfl
    · rw [Function.update_of_ne same]
      exact .same
  | @start n' _ start at_ label =>
    refine own fun same => ?_
    subst same label
    generalize is : startClient cfg s n start = move
    cases startClient_opens is with
    | asks => exact .asks rfl
    | _ => exact .elsewhere rfl
  | @client n' choice move ran =>
    refine own fun same => ?_
    subst same
    exact clientStep_comes rfl ran
  | @clientFail n' move ran =>
    refine own fun same => ?_
    subst same
    cases at_ : s.clients n <;> rw [at_] at ran <;> cases ran <;> exact .elsewhere rfl
  | clientCrash n' => exact own fun _ => .elsewhere rfl
  | poll at_ => exact .same
  | worker ran => exact .same
  | workerFail ran => exact .same
  | loseTick ran => exact .same
  | workerCrash w => exact .same

theorem Formed.step (formed : ∀ n, (s.clients n).Formed) (taken : FlashSale.step cfg s l = some s')
    (n : Nat) : (s'.clients n).Formed := by
  have comes := step_client taken n
  have before := formed n
  generalize s'.clients n = client at comes
  cases comes with
  | same => exact before
  | elsewhere quiet =>
    cases client with
    | begin_ job => cases job <;> trivial
    | tx job started body => cases job <;> trivial
    | _ => trivial
  | asks label => trivial
  | misses label at_ has miss => exact has
  | enters label at_ item =>
    rw [at_] at before
    exact ⟨before, rfl, item, rfl⟩
  | @opens job at_ =>
    rw [at_] at before
    cases job with
    | purchase request key args => exact ⟨before, purchaseTx_throws _ _ _ _⟩
    | _ => trivial
  | @advances choice job started body next at_ ran =>
    rw [at_] at before
    cases job with
    | purchase request key args => exact ⟨before.1, before.2.advance ran⟩
    | _ => trivial
  | commits label at_ =>
    rw [at_] at before
    exact before.1.has
  | delivers at_ =>
    rw [at_] at before
    exact before

/-! ### The cache -/

theorem step_redis (taken : step cfg s l = some s') : s'.redis = s.redis ∨
    ∃ n request key response answered, s.clients n = .deliver request key response answered false ∧
      s'.redis = Function.update s.redis key (some ⟨response, s.clock + entryTtl, request⟩) := by
  cases step_cases taken with
  | store at_ => exact Or.inr ⟨_, _, _, _, _, at_, rfl⟩
  | _ => exact Or.inl rfl

theorem mem_redis (taken : step cfg s l = some s') {key : Text} {entry : Entry}
    (found : s'.redis key = some entry) : s.redis key = some entry ∨
      ∃ n answered, s.clients n = .deliver entry.request key entry.response answered false := by
  rcases step_redis taken with same | ⟨n, request, key', response, answered, at_, stored⟩
  · rw [same] at found
    exact Or.inl found
  · rw [stored] at found
    by_cases own : key = key'
    · subst own
      rw [Function.update_self] at found
      cases found
      exact Or.inr ⟨n, answered, at_⟩
    · rw [Function.update_of_ne own] at found
      exact Or.inl found

/-! ### Answers -/

def Event.answer? : Event → Option (Nat × Request × Response)
  | .answered n request response => some (n, request, response)
  | _ => none

/-- The answers of a history. -/
def answersOf (history : List Event) : List (Nat × Request × Response) :=
  history.filterMap Event.answer?

theorem mem_answersOf {n : Nat} {request : Request} {response : Response} {history : List Event} :
    (n, request, response) ∈ answersOf history ↔ .answered n request response ∈ history := by
  rw [answersOf, List.mem_filterMap]
  constructor
  · rintro ⟨e, mem, is⟩
    cases e <;> cases is
    exact mem
  · exact fun mem => ⟨_, mem, rfl⟩

/-- The request and the entry of the hit that a step with this label makes. -/
def State.hit (s : State) : Label → Option (PurchaseRequest × Entry)
  | .client n _ =>
    match s.clients n with
    | .lookup request => (request.key?.bind s.cached).map fun entry => (request, entry)
    | _ => none
  | _ => none

theorem State.hit_eq {n : Nat} {choice : Choice} {request : PurchaseRequest} {key : Text}
    {entry : Entry} (at_ : s.clients n = .lookup request) (has : request.key? = some key)
    (hit : s.cached key = some entry) : s.hit (.client n choice) = some (request, entry) := by
  simp [State.hit, at_, has, hit]

theorem State.hit_cases {request : PurchaseRequest} {entry : Entry}
    (hit : s.hit l = some (request, entry)) : ∃ n choice key, l = .client n choice ∧
      s.clients n = .lookup request ∧ request.key? = some key ∧ s.cached key = some entry := by
  cases l with
  | client n choice =>
    dsimp only [State.hit] at hit
    split at hit
    · rename_i request' at_
      obtain ⟨entry', found, eq⟩ := Option.map_eq_some_iff.mp hit
      cases eq
      obtain ⟨key, has, cached⟩ := Option.bind_eq_some_iff.mp found
      exact ⟨n, choice, key, rfl, at_, has, cached⟩
    · cases hit
  | _ => cases hit

/-- Where an answer to a purchase request comes from: the cache, the controller, a throw of the
transaction, the delivery of its result, or a failure on the way. -/
inductive Answers (s : State) (n : Nat) (request : PurchaseRequest) : Label → Response → Prop where
  | keyless {l : Label} (at_ : s.clients n = .lookup request) (none : request.key? = none) :
      Answers s n request l keyRequired.response
  | hits {l : Label} {entry : Entry} (hit : s.hit l = some (request, entry)) :
      Answers s n request l entry.response
  | invalid {l : Label} {key : Text} (at_ : s.clients n = .handle request key) :
      Answers s n request l validationFailed
  | throws {l : Label} {key : Text} {args : PurchaseArgs} {started : Int} {e : Failure}
      (at_ : s.clients n = .tx (.purchase request key args) started (.throw e)) :
      Answers s n request l e.response
  | delivers {l : Label} {key : Text} {response : Response} {stored : Bool}
      (at_ : s.clients n = .deliver request key response false stored) :
      Answers s n request l response
  | fails (busy : (s.clients n).request = some (.purchase request))
      (open_ : ∀ request key response answered stored,
        s.clients n ≠ .deliver request key response answered stored) :
      Answers s n request (.clientFail n) internalError

theorem mem_answer {n n' : Nat} {request : PurchaseRequest} {response response' : Response}
    {asked : Option Request}
    (mem : Event.answered n (.purchase request) response ∈ answer n' asked response') :
    n = n' ∧ asked = some (.purchase request) ∧ response = response' := by
  obtain ⟨r, is, eq⟩ := List.mem_map.mp mem
  cases eq
  exact ⟨rfl, Option.mem_toList.mp is, rfl⟩

/-- An auth call answers its own request. -/
theorem AuthTurn.answers {n : Nat} {choice : Choice} {call : AuthCall} {next : Client}
    {events : List Event} (turn : AuthTurn cfg s n choice call next events) {n' : Nat}
    {request : Request} {response : Response} (mem : .answered n' request response ∈ events) :
    n' = n ∧ call.request.map .auth = some request := by
  obtain response | goes := turn
  · obtain ⟨r, asked, eq⟩ := List.mem_map.mp mem
    cases eq
    exact ⟨rfl, Option.mem_toList.mp asked⟩
  cases goes with
  | counts =>
    rcases List.mem_cons.mp mem with first | later
    · cases first
    · cases List.mem_singleton.mp later
      exact ⟨rfl, rfl⟩
  | revokes =>
    rcases List.mem_cons.mp mem with first | later
    · cases first
    · cases List.mem_singleton.mp later
      exact ⟨rfl, rfl⟩
  | replies =>
    rcases List.mem_cons.mp mem with first | later
    · cases first
    · cases List.mem_singleton.mp later
      exact ⟨rfl, rfl⟩
  | verifyMatches plain => cases List.mem_singleton.mp mem
  | verifyDiffers plain differs => cases List.mem_singleton.mp mem
  | disables => cases List.mem_singleton.mp mem
  | _ => cases mem

theorem clientStep_answers {n n' : Nat} {choice : Choice} {client : Client} {move : Move Client}
    {request : PurchaseRequest} {response : Response} (here : s.clients n' = client)
    (taken : clientStep cfg s n' choice client = some move)
    (mem : .answered n (.purchase request) response ∈ move.events) :
    Answers s n request (.client n' choice) response := by
  cases client with
  | idle => cases taken
  | lookup request' =>
    cases taken
    unfold lookupStep at mem
    split at mem
    · rename_i none
      obtain ⟨rfl, asked, rfl⟩ := mem_answer mem
      cases asked
      exact .keyless here none
    · rename_i key has
      split at mem
      · rename_i entry hit
        cases List.mem_singleton.mp mem
        exact .hits (State.hit_eq here has hit)
      · cases mem
  | handle request' key =>
    cases taken
    unfold handleStep at mem
    split at mem
    · obtain ⟨rfl, asked, rfl⟩ := mem_answer mem
      cases asked
      exact .invalid here
    · cases mem
  | registerFind dto identifier =>
    obtain ⟨-, server, -, ⟨response, rfl⟩ | ⟨-, rfl⟩⟩ := registerFindStep_turns taken
    · cases List.mem_singleton.mp mem
    · cases mem
  | registerPrepare dto identifier => cases taken; cases mem
  | resendFind input identifier =>
    obtain ⟨-, server, -, ⟨response, rfl⟩ | ⟨id, user, -, -, rfl⟩⟩ := resendFindStep_turns taken
    · cases List.mem_singleton.mp mem
    · cases mem
  | resendPrepare input user identifier => cases taken; cases mem
  | auth call =>
    obtain ⟨-, asked⟩ := (authStep_turns taken).answers mem
    cases request : call.request <;> rw [request] at asked <;> cases asked
  | begin_ job => cases taken; cases mem
  | tx job started body =>
    change txStep s n' job started body choice = some move at taken
    obtain ⟨⟨progress, server⟩, ran, eq⟩ := Option.map_eq_some_iff.mp taken
    cases progress with
    | running next => cases eq; cases mem
    | returned result =>
      cases eq
      rcases List.mem_cons.mp mem with first | later
      · cases first
      · cases job with
        | purchase request key args => cases later
        | create input => cases later
        | register dto identifier passwordHash otp => cases List.mem_singleton.mp later
        | resend input user identifier otp => cases List.mem_singleton.mp later
        | verify dto otpId user => cases later
    | threw e =>
      cases eq
      obtain ⟨rfl, asked, rfl⟩ := mem_answer mem
      obtain rfl := advance_threw ran
      cases job with
      | purchase request key args =>
        cases asked
        exact .throws here
      | _ => cases asked
  | deliver request' key response' answered stored =>
    cases answered with
    | true => cases taken
    | false =>
      cases taken
      cases List.mem_singleton.mp mem
      exact .delivers here

/-- Where the answers that a step gives to purchase requests come from. The cases are those of
the places at which a request can end. -/
theorem step_answers (taken : step cfg s l = some s') :
    ∃ events, s'.history = s.history ++ events ∧ ∀ n request response,
      .answered n (.purchase request) response ∈ events → Answers s n request l response := by
  obtain ⟨events, added, -⟩ := step_events taken
  refine ⟨events, added, fun n request response mem => ?_⟩
  have same : ∀ {more : List Event}, s'.history = s.history ++ more → more = events := by
    intro more eq
    exact List.append_cancel_left (eq.symm.trans added)
  cases step_cases taken with
  | elapse duration =>
    obtain rfl := same (List.append_nil _).symm
    cases mem
  | store at_ =>
    obtain rfl := same (List.append_nil _).symm
    cases mem
  | command at_ sent =>
    obtain rfl := same (List.append_nil _).symm
    cases mem
  | @start n' _ start at_ label =>
    obtain rfl := same rfl
    generalize is : startClient cfg s n' start = move at mem
    cases startClient_opens is with
    | refuses other =>
      cases List.mem_singleton.mp mem
      exact absurd rfl (other request)
    | _ => cases mem
  | @client n' choice move ran =>
    obtain rfl := same rfl
    exact clientStep_answers rfl ran mem
  | @clientFail n' move ran =>
    obtain rfl := same rfl
    generalize here : s.clients n' = client at ran
    have refused : ∀ {more}, more = answer n' client.request internalError →
        .answered n (.purchase request) response ∈ more →
        (∀ request key response answered stored,
          client ≠ .deliver request key response answered stored) →
        Answers s n request (.clientFail n') response := by
      rintro more rfl mem open_
      obtain ⟨rfl, asked, rfl⟩ := mem_answer mem
      exact .fails (by rw [here]; exact asked) (by rw [here]; exact open_)
    cases client <;> cases ran <;> exact refused rfl mem (by simp)
  | clientCrash n' =>
    obtain rfl := same rfl
    cases mem
  | poll at_ =>
    obtain rfl := same rfl
    cases mem
  | worker ran =>
    obtain rfl := same rfl
    rcases workerStep_events rfl ran mem with
      ⟨_, eq⟩ | ⟨_, _, _, _, _, _, _, ⟨_, eq⟩ | ⟨_, eq⟩⟩ | ⟨_, _, _, eq⟩ <;> cases eq
  | workerFail ran =>
    obtain rfl := same rfl
    rw [workerFail_events ran] at mem
    cases mem
  | loseTick ran =>
    obtain rfl := same rfl
    rw [loseTick_events ran] at mem
    cases mem
  | workerCrash w =>
    obtain rfl := same rfl
    cases mem

end Steps

end FlashSale
