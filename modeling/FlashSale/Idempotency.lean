/-
# The answers to requests with one key

The interceptor looks the key up, lets the handler run, and stores the response without
waiting for it; two requests with one key can both miss. The second is then kept from a
second purchase by the unique index on the key, but is answered with an error.

* `KeyUnique.step`, `Booked.step`: at most one purchase with a key commits.
* `Told.step`: what is stored or about to be answered under a key is the answer of a
  purchase that committed with it.
* `Keyed.step`: a step that keeps identical requests apart keeps that their answers
  after the purchase are that of the purchase.
* `Run.one_result`: there is at most one purchase with a key, and in runs that keep
  identical requests apart all later answers are its answer.
-/
import FlashSale.Answers

namespace FlashSale

open Lib (Table Chain)

/-! ### Identical requests -/

/-- What identical requests share: the user, the item, and the key as the database compares it,
without regard to the case of its digits. -/
structure Ask where
  userId : Uuid
  saleItemId : Uuid
  uuid : Uuid
deriving DecidableEq

/-- A request with a valid key and body asks for a purchase. -/
def PurchaseRequest.ask? (request : PurchaseRequest) : Option Ask :=
  request.saleItemId.bind fun saleItemId =>
    request.key?.map fun key => ⟨request.userId, saleItemId, parseUuid key⟩

def PurchaseArgs.ask (args : PurchaseArgs) : Ask :=
  ⟨args.userId, args.saleItemId, args.idempotencyKey⟩

def PurchaseRow.ask (row : PurchaseRow) : Ask :=
  ⟨row.userId, row.flashSaleItemId, row.idempotencyKey⟩

theorem ask_key {request : PurchaseRequest} {ask : Ask} (asks : request.ask? = some ask) :
    ∃ key, request.key? = some key ∧ parseUuid key = ask.uuid := by
  obtain ⟨saleItemId, -, keyed⟩ := Option.bind_eq_some_iff.mp asks
  obtain ⟨key, has, is⟩ := Option.map_eq_some_iff.mp keyed
  exact ⟨key, has, congrArg Ask.uuid is⟩

/-! ### Purchases with a key -/

/-- The purchase that is asked for is there. -/
def Db.Bought (db : Db) (ask : Ask) : Prop :=
  ∃ id row, db.purchases.get? id = some row ∧ row.ask = ask

/-- At most one purchase has the key. -/
def KeyUnique (uuid : Uuid) (db : Db) : Prop :=
  ∀ id id' row row', db.purchases.get? id = some row → db.purchases.get? id' = some row' →
    row.idempotencyKey = uuid → row'.idempotencyKey = uuid → id = id'

/-- The purchases that committed are there, and at most one of them has the key. Two commits
with one key would be two rows in one unique index. -/
structure Booked (uuid : Uuid) (done : List Commit) (db : Db) : Prop where
  there : ∀ args result, .purchased args result ∈ done → db.Bought args.ask
  one : ∀ args args' result result', .purchased args result ∈ done →
    .purchased args' result' ∈ done → args.idempotencyKey = uuid →
      args'.idempotencyKey = uuid → result' = result

section Commits

variable {cfg : Cfg} {db db' : Db} {commit : Commit} {uuid : Uuid} {ask : Ask}

theorem Atomic.bought_kept (happened : Atomic cfg db commit db') (bought : db.Bought ask) :
    db'.Bought ask := by
  obtain ⟨id, row, found, asked⟩ := bought
  exact ⟨id, row, happened.purchase_kept found, asked⟩

/-- A purchase commits only with a key that no other purchase has. -/
theorem Atomic.key_unused {args : PurchaseArgs} {result : PurchaseResult}
    (happened : Atomic cfg db (.purchased args result) db') {id : Uuid} {row : PurchaseRow}
    (found : db.purchases.get? id = some row) : row.idempotencyKey ≠ args.idempotencyKey := by
  cases happened with
  | purchased _ spec => exact spec.key_unused id row found

theorem Atomic.bought {args : PurchaseArgs} {result : PurchaseResult}
    (happened : Atomic cfg db (.purchased args result) db') : db'.Bought args.ask := by
  cases happened with
  | purchased _ spec =>
    rw [spec.effect]
    exact ⟨result.purchaseId, _, Table.get?_insert_self spec.fresh, rfl⟩

/-- No commit gives a key to a second purchase. The unique index is checked by the INSERT, and
its entry is locked until the commit. -/
theorem KeyUnique.step (unique : KeyUnique uuid db) (happened : Atomic cfg db commit db') :
    KeyUnique uuid db' := by
  intro id id' row row' found found' key key'
  rcases happened.purchase_cases found with old | ⟨args, of, result, rfl, spec, rfl, rfl⟩
  · rcases happened.purchase_cases found' with old' | ⟨args, of, result, rfl, spec, rfl, rfl⟩
    · exact unique id id' row row' old old' key key'
    · exact absurd (key.trans key'.symm) (spec.key_unused id row old)
  · rcases happened.purchase_cases found' with old' | ⟨args', of', result', eq, -, rfl, -⟩
    · exact absurd (key'.trans key.symm) (spec.key_unused id' row' old')
    · cases eq
      rfl

/-- Every commit keeps the purchases that committed, and adds none for a key that is taken. -/
theorem Booked.step {done : List Commit} (booked : Booked uuid done db)
    (happened : Atomic cfg db commit db') : Booked uuid (done ++ [commit]) db' := by
  -- No purchase that committed before has the key of the one that commits.
  have apart : ∀ {args args' result result'}, .purchased args result ∈ done →
      commit = .purchased args' result' → args.idempotencyKey ≠ args'.idempotencyKey := by
    rintro args args' result result' old rfl
    obtain ⟨id, row, found, asked⟩ := booked.there args result old
    have key : row.idempotencyKey = args.idempotencyKey := congrArg Ask.uuid asked
    exact key ▸ happened.key_unused found
  refine ⟨fun args result mem => ?_, fun args args' result result' mem mem' key key' => ?_⟩
  · rcases List.mem_append.mp mem with old | new
    · exact happened.bought_kept (booked.there args result old)
    · cases List.mem_singleton.mp new
      exact happened.bought
  · rcases List.mem_append.mp mem with old | new
    · rcases List.mem_append.mp mem' with old' | new'
      · exact booked.one args args' result result' old old' key key'
      · exact absurd (key.trans key'.symm) (apart old (List.mem_singleton.mp new').symm)
    · rcases List.mem_append.mp mem' with old' | new'
      · exact absurd (key'.trans key.symm) (apart old' (List.mem_singleton.mp new).symm)
      · cases (List.mem_singleton.mp new).trans (List.mem_singleton.mp new').symm
        rfl

end Commits

/-! ### Purchases and answers in a history -/

inductive AskEvent where
  | bought (result : PurchaseResult)
  | answered (response : Response)
deriving DecidableEq

def Event.asked (ask : Ask) : Event → Option AskEvent
  | .committed (.purchased args result) => if args.ask = ask then some (.bought result) else none
  | .answered _ (.purchase request) response =>
    if request.ask? = some ask then some (.answered response) else none
  | _ => none

/-- The purchases that were asked for and the answers to the requests, in their order. -/
def askEvents (ask : Ask) (history : List Event) : List AskEvent :=
  history.filterMap (Event.asked ask)

/-- The answer that a purchase gives. -/
def PurchaseResult.answer (result : PurchaseResult) : Response := ⟨200, .purchase result.body⟩

/-- An answer after a purchase is that of the purchase. -/
def AskEvent.Repeats : AskEvent → AskEvent → Prop
  | .bought result, .answered response => response = result.answer
  | _, _ => True

instance (first later : AskEvent) : Decidable (first.Repeats later) := by
  cases first <;> cases later <;> unfold AskEvent.Repeats <;> infer_instance

/-- Once a request has committed the purchase, all answers to the identical requests
are that of the purchase. -/
def SameAnswers (ask : Ask) (s : State) : Prop :=
  (askEvents ask s.history).Pairwise AskEvent.Repeats

instance (ask : Ask) (s : State) : Decidable (SameAnswers ask s) :=
  inferInstanceAs (Decidable (List.Pairwise _ _))

section Events

variable {ask : Ask}

theorem askEvents_append (history more : List Event) :
    askEvents ask (history ++ more) = askEvents ask history ++ askEvents ask more :=
  List.filterMap_append

theorem bought_mem {result : PurchaseResult} {events : List Event}
    (mem : .bought result ∈ askEvents ask events) :
    ∃ args, .purchased args result ∈ commits events ∧ args.ask = ask := by
  obtain ⟨e, inside, is⟩ := List.mem_filterMap.mp mem
  unfold Event.asked at is
  split at is
  · rename_i args result'
    split at is <;> cases is
    rename_i asked
    exact ⟨args, List.mem_filterMap.mpr ⟨_, inside, rfl⟩, asked⟩
  · split at is <;> cases is
  · cases is

theorem answered_mem {response : Response} {events : List Event}
    (mem : .answered response ∈ askEvents ask events) :
    ∃ n request, .answered n (.purchase request) response ∈ events ∧ request.ask? = some ask := by
  obtain ⟨e, inside, is⟩ := List.mem_filterMap.mp mem
  unfold Event.asked at is
  split at is
  · split at is <;> cases is
  · rename_i n request response'
    split at is <;> cases is
    rename_i asks
    exact ⟨n, request, inside, asks⟩
  · cases is

end Events

/-! ### Requests kept apart -/

/-- The request that its client has past a lookup that found nothing. -/
def Client.handling : Client → Option PurchaseRequest
  | .handle request _ => some request
  | .begin_ (.purchase request _ _) => some request
  | .tx (.purchase request _ _) _ _ => some request
  | _ => none

/-- The client is between a lookup that found nothing and the end of the transaction. -/
def Client.InFlight (ask : Ask) (client : Client) : Prop :=
  client.handling.bind PurchaseRequest.ask? = some ask

instance (ask : Ask) (client : Client) : Decidable (client.InFlight ask) :=
  inferInstanceAs (Decidable (_ = _))

def Commit.ask? : Commit → Option Ask
  | .purchased args _ => some args.ask
  | _ => none

/-- A request for `ask` has committed the purchase. -/
def State.Bought (s : State) (ask : Ask) : Prop := ∃ c ∈ commits s.history, c.ask? = some ask

instance (s : State) (ask : Ask) : Decidable (s.Bought ask) :=
  inferInstanceAs (Decidable (∃ c ∈ _, _))

/-- The request whose lookup a step with this label makes, when it finds nothing. -/
def State.miss (s : State) : Label → Option PurchaseRequest
  | .client n _ =>
    match s.clients n with
    | .lookup request => if (request.key?.bind s.cached).isNone then some request else none
    | _ => none
  | _ => none

/-- A purchase commits only while no identical request is past its lookup, and the
lookup of an identical request finds nothing only before the purchase. -/
structure KeptApart (ask : Ask) (s : State) (l : Label) : Prop where
  alone : (s.committing l).bind Commit.ask? = some ask →
    ∀ n, l.client? ≠ some n → ¬ (s.clients n).InFlight ask
  misses : ∀ request ∈ s.miss l, request.ask? = some ask → ¬ s.Bought ask

/-- The request whose lookup fails in a step with this label. -/
def State.failedLookup (s : State) : Label → Option PurchaseRequest
  | .clientFail n =>
    match s.clients n with
    | .lookup request => some request
    | _ => none
  | _ => none

/-- No lookup of a request for `ask` fails. -/
def Healthy (ask : Ask) (s : State) (l : Label) : Prop :=
  ∀ request ∈ s.failedLookup l, request.ask? ≠ some ask

instance (ask : Ask) (s : State) (l : Label) : Decidable (Healthy ask s l) :=
  inferInstanceAs (Decidable (∀ request ∈ _, _))

/-- What is stored and what is about to be answered under a key are answers of
purchases that committed with it. -/
structure Told (uuid : Uuid) (s : State) : Prop where
  booked : Booked uuid (commits s.history) s.server.db
  entries : ∀ key entry, s.redis key = some entry → parseUuid key = uuid →
    ∃ args result, .purchased args result ∈ commits s.history ∧ args.idempotencyKey = uuid ∧
      entry.response = result.answer
  delivers : ∀ n request key response answered stored,
    s.clients n = .deliver request key response answered stored → parseUuid key = uuid →
      ∃ args result, .purchased args result ∈ commits s.history ∧ args.idempotencyKey = uuid ∧
        response = result.answer

/-- What runs keep whose steps keep identical requests apart: once one has bought, no other is
past a lookup that found nothing, and all answers agree. -/
structure Keyed (cfg : Cfg) (ask : Ask) (s : State) : Prop where
  coherent : Coherent cfg s
  formed : ∀ n, (s.clients n).Formed
  told : Told ask.uuid s
  quiet : s.Bought ask → ∀ n, ¬ (s.clients n).InFlight ask
  same : SameAnswers ask s

section Steps

variable {cfg : Cfg} {s s' : State} {l : Label} {ask : Ask}

/-- Every step keeps that answers to requests with the key name the purchase that has it. -/
theorem Told.step {uuid : Uuid} (told : Told uuid s) (coherent : Coherent cfg s)
    (formed : ∀ n, (s.clients n).Formed) (taken : FlashSale.step cfg s l = some s') :
    Told uuid s' := by
  have added := step_commits taken
  have kept : ∀ {response : Response}, (∃ args result, .purchased args result ∈ commits s.history ∧
      args.idempotencyKey = uuid ∧ response = PurchaseResult.answer result) →
      ∃ args result, .purchased args result ∈ commits s'.history ∧ args.idempotencyKey = uuid ∧
        response = result.answer := by
    rintro response ⟨args, result, mem, key, is⟩
    exact ⟨args, result, added ▸ List.mem_append_left _ mem, key, is⟩
  refine ⟨?_, fun key entry found known => ?_,
    fun n request key response answered stored at_ known => ?_⟩
  · rw [added]
    rcases step_atomic coherent taken with ⟨quiet, same⟩ | ⟨commit, is, happened⟩
    · rw [quiet, same, Option.toList_none, List.append_nil]
      exact told.booked
    · rw [is]
      exact told.booked.step happened
  · rcases mem_redis taken found with old | ⟨n, answered, at_⟩
    · exact kept (told.entries key entry old known)
    · exact kept (told.delivers n _ _ _ _ _ at_ known)
  · have comes := step_client taken n
    have here := formed n
    generalize after : s'.clients n = client at comes
    rw [at_] at after
    cases comes with
    | same => exact kept (told.delivers n _ _ _ _ _ after.symm known)
    | elsewhere quiet =>
      subst after
      cases quiet
    | @commits choice request' key' args started result label before =>
      cases after
      rw [before] at here
      have committing : s.committing l = some (.purchased args result) := by
        rw [label]
        simp only [State.committing, before]
        rfl
      refine ⟨args, result, ?_, here.1.uuid.trans known, rfl⟩
      rw [added, committing]
      exact List.mem_append_right _ (List.mem_singleton.mpr rfl)
    | delivers before =>
      cases after
      exact kept (told.delivers n _ _ _ _ _ before known)
    | _ => cases after

/-- What is told under the key of a purchase is its answer. -/
theorem Told.answer {uuid : Uuid} (told : Told uuid s) {args : PurchaseArgs}
    {result : PurchaseResult} {response : Response} (mem : .purchased args result ∈ commits s.history)
    (key : args.idempotencyKey = uuid)
    (known : ∃ args result, .purchased args result ∈ commits s.history ∧
      args.idempotencyKey = uuid ∧ response = PurchaseResult.answer result) :
    response = result.answer := by
  obtain ⟨args', result', mem', key', rfl⟩ := known
  rw [told.booked.one args args' result result' mem mem' key key']

/-- A client comes past its lookup by a lookup that finds nothing. -/
theorem step_inFlight (taken : FlashSale.step cfg s l = some s') {n : Nat}
    (inFlight : (s'.clients n).InFlight ask) : (s.clients n).InFlight ask ∨
      ∃ request ∈ s.miss l, request.ask? = some ask := by
  have comes := step_client taken n
  generalize s'.clients n = client at comes inFlight
  cases comes with
  | same => exact Or.inl inFlight
  | elsewhere off =>
    cases client with
    | begin_ job => cases job <;> first | cases inFlight | cases off
    | tx job started body => cases job <;> first | cases inFlight | cases off
    | handle request key => cases off
    | _ => cases inFlight
  | @misses choice request key label at_ has miss =>
    refine Or.inr ⟨request, ?_, inFlight⟩
    subst label
    simp [State.miss, at_, has, miss]
  | enters label at_ item => exact Or.inl (at_ ▸ inFlight)
  | @opens job at_ =>
    left
    rw [at_]
    cases job <;> exact inFlight
  | @advances choice job started body next at_ ran =>
    left
    rw [at_]
    cases job <;> exact inFlight
  | _ => cases inFlight

/-- A step that commits a purchase brings its client past its transaction, and does
nothing else that the history records. -/
theorem step_purchases {args : PurchaseArgs} {result : PurchaseResult}
    (committing : s.committing l = some (.purchased args result)) (taken : step cfg s l = some s') :
    (∀ n, l.client? = some n → (s'.clients n).handling = none) ∧
    s'.history = s.history ++ [.committed (.purchased args result)] := by
  generalize purchased : Commit.purchased args result = commit at committing
  cases committing_cases committing with
  | counts at_ => cases purchased
  | disables at_ => cases purchased
  | marks at_ => cases purchased
  | settles at_ => cases purchased
  | ticks at_ => cases purchased
  | @client n choice job started result' at_ =>
    cases job with
    | purchase request key args' =>
      cases purchased
      cases step_cases taken with
      | start start _ label => cases start <;> cases label
      | client ran =>
        rw [at_] at ran
        cases ran
        refine ⟨?_, rfl⟩
        rintro n' ⟨rfl⟩
        rw [State.moveClient_self]
        rfl
    | create input => cases purchased
    | register dto identifier passwordHash otp => cases purchased
    | resend input user identifier otp => cases purchased
    | verify dto otpId user => cases purchased

theorem quiet_step (keyed : Keyed cfg ask s) (apart : KeptApart ask s l)
    (taken : step cfg s l = some s') (bought : s'.Bought ask) (n : Nat) :
    ¬ (s'.clients n).InFlight ask := by
  obtain ⟨c, mem, asked⟩ := bought
  rw [step_commits taken] at mem
  rcases List.mem_append.mp mem with old | new
  · intro inFlight
    rcases step_inFlight taken inFlight with still | ⟨request, miss, asks⟩
    · exact keyed.quiet ⟨c, old, asked⟩ n still
    · exact apart.misses request miss asks ⟨c, old, asked⟩
  · -- The step commits the purchase.
    have committing := Option.mem_toList.mp new
    cases c <;> cases asked
    by_cases own : l.client? = some n
    · rw [Client.InFlight, (step_purchases committing taken).1 n own]
      exact nofun
    · rw [step_others taken own]
      exact apart.alone (by rw [committing]; rfl) n own

/-- An answer to a request comes from the cache, from a purchase that has committed, or
from a request that is past its lookup. -/
theorem Answers.cases_of {n : Nat} {request : PurchaseRequest} {response : Response}
    (answers : Answers s n request l response) (formed : ∀ n, (s.clients n).Formed)
    (healthy : Healthy ask s l) (asks : request.ask? = some ask) :
    (∃ key entry, s.redis key = some entry ∧ parseUuid key = ask.uuid ∧
      response = entry.response) ∨
    (s.clients n).InFlight ask ∨
    ∃ key answered stored, s.clients n = .deliver request key response answered stored ∧
      parseUuid key = ask.uuid := by
  obtain ⟨key, has, known⟩ := ask_key asks
  have here := formed n
  cases answers with
  | keyless at_ none =>
    rw [none] at has
    cases has
  | hits hit =>
    obtain ⟨n', choice, key', -, -, has', cached⟩ := State.hit_cases hit
    cases has.symm.trans has'
    exact Or.inl ⟨key, _, (Option.filter_eq_some_iff.mp cached).1, known, rfl⟩
  | invalid at_ =>
    rw [at_]
    exact Or.inr (Or.inl asks)
  | throws at_ =>
    rw [at_]
    exact Or.inr (Or.inl asks)
  | delivers at_ =>
    rw [at_] at here
    cases has.symm.trans here
    exact Or.inr (Or.inr ⟨key, _, _, at_, known⟩)
  | fails busy open_ =>
    refine Or.inr (Or.inl ?_)
    cases client : s.clients n with
    | lookup request' =>
      rw [client] at busy
      cases busy
      exact absurd asks (healthy request (by simp [State.failedLookup, client]))
    | handle request' key' =>
      rw [client] at busy
      cases busy
      exact asks
    | begin_ job =>
      rw [client] at busy
      cases job <;> cases busy
      exact asks
    | tx job started body =>
      rw [client] at busy
      cases job <;> cases busy
      exact asks
    | deliver request' key' response' answered stored => exact absurd client (open_ _ _ _ _ _)
    | auth call =>
      rw [client] at busy
      obtain ⟨request', -, eq⟩ := Option.map_eq_some_iff.mp busy
      cases eq
    | _ => rw [client] at busy; cases busy

/-- New answers repeat the purchases before them. -/
theorem same_step (keyed : Keyed cfg ask s) (healthy : Healthy ask s l)
    (taken : step cfg s l = some s') : SameAnswers ask s' := by
  obtain ⟨events, added, answers⟩ := step_answers taken
  have counted := step_commits taken
  rw [added, commits_append] at counted
  have committed := List.append_cancel_left counted
  rw [SameAnswers, added, askEvents_append, List.pairwise_append]
  refine ⟨keyed.same, ?_, fun first mem later mem' => ?_⟩
  · -- A step that commits a purchase does not answer as well.
    refine List.Pairwise.imp_of_mem (fun {first later} mem mem' _ => ?_)
      (List.pairwise_of_forall fun _ _ => trivial)
    cases first with
    | answered response => cases later <;> trivial
    | bought result =>
      obtain ⟨args, inside, -⟩ := bought_mem mem
      rw [committed] at inside
      have history := (step_purchases (Option.mem_toList.mp inside) taken).2
      obtain rfl := List.append_cancel_left (added.symm.trans history)
      cases later with
      | bought result' => trivial
      | answered response =>
        obtain ⟨n, request, answered, -⟩ := answered_mem mem'
        cases List.mem_singleton.mp answered
  · cases first with
    | answered response => cases later <;> trivial
    | bought result =>
      cases later with
      | bought result' => trivial
      | answered response =>
        obtain ⟨args, inside, rfl⟩ := bought_mem mem
        obtain ⟨n, request, answered, asks⟩ := answered_mem mem'
        have quiet := keyed.quiet ⟨_, inside, rfl⟩ n
        apply keyed.told.answer inside rfl
        rcases (answers n request response answered).cases_of keyed.formed healthy asks with
          ⟨key, entry, found, known, rfl⟩ | inFlight | ⟨key, answered, stored, at_, known⟩
        · exact keyed.told.entries key entry found known
        · exact absurd inFlight quiet
        · exact keyed.told.delivers n _ _ _ _ _ at_ known

/-- A step that keeps identical requests apart keeps that all of their answers agree, from the
commit of the first purchase on. -/
theorem Keyed.step (keyed : Keyed cfg ask s) (apart : KeptApart ask s l)
    (healthy : Healthy ask s l) (taken : FlashSale.step cfg s l = some s') :
    Keyed cfg ask s' :=
  ⟨(step_coherent keyed.coherent taken).1, Formed.step keyed.formed taken,
    keyed.told.step keyed.coherent keyed.formed taken, quiet_step keyed apart taken,
    same_step keyed healthy taken⟩

end Steps

section Runs

variable {cfg : Cfg} {start s : State} {trace : List (State × Label)} {ask : Ask}

theorem Fresh.keyed (fresh : Fresh s) (cold : ∀ key, s.redis key = none) :
    Keyed cfg ask s := by
  refine ⟨fresh.coherent, fun n => ?_, ⟨⟨?_, ?_⟩, fun key entry found => ?_,
    fun n request key response answered stored at_ => ?_⟩, fun _ n => ?_, ?_⟩
  · rw [fresh.clients n]
    trivial
  · rw [fresh.history]
    exact nofun
  · rw [fresh.history]
    exact nofun
  · rw [cold key] at found
    cases found
  · rw [fresh.clients n] at at_
    cases at_
  · rw [fresh.clients n]
    exact nofun
  · rw [SameAnswers, fresh.history]
    exact List.Pairwise.nil

/-- There is at most one purchase with a key, and when identical requests are kept
apart and their lookups do not fail, every answer to them after the purchase is that
of the purchase. -/
theorem Run.one_result (fresh : Fresh start) (cold : ∀ key, start.redis key = none)
    (unique : KeyUnique ask.uuid start.server.db) (run : Run cfg start trace s) :
    KeyUnique ask.uuid s.server.db ∧
    ((∀ p ∈ trace, Healthy ask p.1 p.2) → (∀ p ∈ trace, KeptApart ask p.1 p.2) →
      SameAnswers ask s) := by
  refine ⟨Chain.invariant (fun _ db => KeyUnique ask.uuid db) unique
    (fun _ _ _ _ unique happened => unique.step happened) (Run.commits_chain fresh run),
    fun healthy apart => ?_⟩
  have keep : ∀ s l s', Keyed cfg ask s → (Healthy ask s l ∧ KeptApart ask s l) →
      step cfg s l = some s' → Keyed cfg ask s' :=
    fun _ _ _ keyed ok taken => keyed.step ok.2 ok.1 taken
  have keyed := Lib.Run.invariant_while (Keyed cfg ask) (fresh.keyed cold) keep run
    fun p mem => ⟨healthy p mem, apart p mem⟩
  exact keyed.same

/-- Two identical requests overlap: both find nothing, and the second one fails once
the first has committed. A third one finds the answer. -/
def overlapping : List Label :=
  .purchase 0 ⟨1, some (uuidText '1'), some 4⟩ :: .purchase 1 ⟨1, some (uuidText '1'), some 4⟩ ::
    Label.clientSteps 1 1 8 ++ Label.clientSteps 0 13 7 ++ .store 0 :: Label.clientSteps 1 4 8 ++
      .purchase 2 ⟨1, some (uuidText '1'), some 4⟩ :: Label.clientSteps 2 1 9

/-- User 1 with item 4 and the key of ones. -/
def onesAsk : Ask := ⟨1, 4, parseUuid (uuidText '1')⟩

theorem overlapping_runs : (Lib.execute (step plainCfg) shop overlapping).isSome = true := by
  decide +kernel

/-- The second of two identical requests is answered with a conflict after the first
has bought. -/
theorem refused_after_bought :
    ∃ s, Run plainCfg shop (Lib.traceOf (step plainCfg) shop overlapping) s ∧
      (∀ p ∈ Lib.traceOf (step plainCfg) shop overlapping, Healthy onesAsk p.1 p.2) ∧
      askEvents onesAsk s.history = [.bought ⟨7, 4, 100, 4⟩,
        .answered ⟨200, .purchase ⟨7, 4, "100", 4⟩⟩,
        .answered (alreadyPurchasedToday "2026-05-01").response,
        .answered ⟨200, .purchase ⟨7, 4, "100", 4⟩⟩] ∧
      ¬ SameAnswers onesAsk s :=
  ⟨_, Lib.Run.of_isSome overlapping_runs, by decide +kernel, by decide +kernel, by decide +kernel⟩

/-- The second request is sent when the answer to the first one is stored. -/
def replaying : List Label :=
  .purchase 0 ⟨1, some (uuidText '1'), some 4⟩ :: Label.clientSteps 0 13 7 ++
    .store 0 :: .purchase 1 ⟨1, some (uuidText '1'), some 4⟩ :: Label.clientSteps 1 1 8

theorem replaying_runs : (Lib.execute (step plainCfg) shop replaying).isSome = true := by
  decide +kernel

/-- The conditions of `KeptApart` for the clients 0 and 1. -/
def pairApart (ask : Ask) (p : State × Label) : Bool :=
  decide ((p.1.committing p.2).bind Commit.ask? = some ask →
    ∀ n ∈ ([0, 1] : List Nat), p.2.client? ≠ some n → ¬ (p.1.clients n).InFlight ask) &&
  decide (∀ request ∈ p.1.miss p.2, request.ask? = some ask → ¬ p.1.Bought ask)

theorem keptApart_of_pair {p : State × Label} (pair : pairApart ask p = true)
    (idle : ∀ n, n ≠ 0 → n ≠ 1 → p.1.clients n = .idle) : KeptApart ask p.1 p.2 := by
  obtain ⟨pair, misses⟩ := Bool.and_eq_true_iff.mp pair
  have alone := of_decide_eq_true pair
  refine ⟨fun commits n other => ?_, of_decide_eq_true misses⟩
  by_cases first : n = 0
  · exact alone commits n (by simp [first]) other
  · by_cases second : n = 1
    · exact alone commits n (by simp [second]) other
    · rw [idle n first second]
      exact nofun

theorem one_result_replaying :
    ∃ s, Run plainCfg shop (Lib.traceOf (step plainCfg) shop replaying) s ∧
      askEvents onesAsk s.history = [.bought ⟨7, 4, 100, 4⟩,
        .answered ⟨200, .purchase ⟨7, 4, "100", 4⟩⟩,
        .answered ⟨200, .purchase ⟨7, 4, "100", 4⟩⟩] ∧
      KeyUnique onesAsk.uuid s.server.db ∧ SameAnswers onesAsk s := by
  have run := Lib.Run.of_isSome replaying_runs
  have unique : KeyUnique onesAsk.uuid shop.server.db := by
    intro id id' row row' found
    cases found
  have healthy : ∀ p ∈ Lib.traceOf (step plainCfg) shop replaying, Healthy onesAsk p.1 p.2 := by
    decide +kernel
  have pair : ∀ p ∈ Lib.traceOf (step plainCfg) shop replaying, pairApart onesAsk p = true := by
    decide +kernel
  have two : ∀ p ∈ Lib.traceOf (step plainCfg) shop replaying,
      p.2.client? = some 0 ∨ p.2.client? = some 1 := by
    decide +kernel
  have idle : ∀ p ∈ Lib.traceOf (step plainCfg) shop replaying, ∀ n, n ≠ 0 → n ≠ 1 →
      p.1.clients n = .idle := by
    intro p mem n first second
    refine Run.unmoved run (fun q inside is => ?_) p mem
    rcases two q inside with zero | one
    · exact first (Option.some.inj (is.symm.trans zero))
    · exact second (Option.some.inj (is.symm.trans one))
  have result := Run.one_result (State.initial_fresh _ _ _) (fun _ => rfl) unique run
  exact ⟨_, run, by decide +kernel, result.1,
    result.2 healthy fun p mem => keptApart_of_pair (pair p mem) (idle p mem)⟩

end Runs

end FlashSale
