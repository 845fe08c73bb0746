/-
# Purchase answers and their requests

The cache is keyed by the idempotency key alone, and an entry is not compared with the
request that hits it. So an answer can name another user's purchase; the invariant says
that it always names the purchase of the request for which it was stored, and the
condition `OwnHit` compares only this request with the one that hits.

* `Owning.step`: what is stored and what is about to be answered names the purchase
  of its own request.
* `Run.answers_own`: every answer is the request's own exactly when every hit of the
  cache is for an entry of the same user and item.
-/
import FlashSale.Answers

namespace FlashSale

open Lib (Table)

/-- The response names a committed purchase of the request's user and item. -/
def Named (db : Db) (request : PurchaseRequest) (response : Response) : Prop :=
  ∃ body row, response.body = .purchase body ∧ db.purchases.get? body.purchaseId = some row ∧
    row.userId = request.userId ∧ request.saleItemId = some row.flashSaleItemId

/-- Every 200 that was answered to a request for an item is that request's own: it names a
committed purchase of this user and this item. -/
def AnswersOwn (s : State) : Prop :=
  ∀ n request response, .answered n (.purchase request) response ∈ s.history →
    request.saleItemId ≠ none → response.status = 200 → Named s.server.db request response

/-- A hit of the cache for a request for an item is for the answer to a request of
the same user for the same item. -/
def OwnHit (s : State) (l : Label) : Prop :=
  ∀ hit ∈ s.hit l, hit.1.saleItemId ≠ none →
    hit.2.request.userId = hit.1.userId ∧ hit.2.request.saleItemId = hit.1.saleItemId

instance (s : State) (l : Label) : Decidable (OwnHit s l) :=
  inferInstanceAs (Decidable (∀ hit ∈ s.hit l, _))

/-- What every run from an empty cache keeps: what is stored, and what is about to be answered,
is the own answer of the request for which it was made. -/
structure Owning (cfg : Cfg) (s : State) : Prop where
  coherent : Coherent cfg s
  formed : ∀ n, (s.clients n).Formed
  entries : ∀ key entry, s.redis key = some entry →
    entry.response.status = 200 ∧ Named s.server.db entry.request entry.response
  delivers : ∀ n request key response answered stored,
    s.clients n = .deliver request key response answered stored →
      response.status = 200 ∧ Named s.server.db request response

section Steps

variable {cfg : Cfg} {s s' : State} {l : Label}

theorem Named.step {request : PurchaseRequest} {response : Response}
    (named : Named s.server.db request response) (coherent : Coherent cfg s)
    (taken : FlashSale.step cfg s l = some s') : Named s'.server.db request response := by
  obtain ⟨body, row, is, found, user, item⟩ := named
  refine ⟨body, row, is, ?_, user, item⟩
  rcases step_atomic coherent taken with ⟨-, same⟩ | ⟨commit, -, happened⟩
  · rw [same]
    exact found
  · exact happened.purchase_kept found

/-- A response names one purchase. -/
theorem Named.unique {db : Db} {request request' : PurchaseRequest} {response : Response}
    (named : Named db request response) (named' : Named db request' response) :
    request'.userId = request.userId ∧ request'.saleItemId = request.saleItemId := by
  obtain ⟨body, row, is, found, user, item⟩ := named
  obtain ⟨body', row', is', found', user', item'⟩ := named'
  cases is.symm.trans is'
  cases found.symm.trans found'
  exact ⟨user'.symm.trans user, item'.trans item.symm⟩

/-- The response of a purchase that commits names it. -/
theorem commits_named {n : Nat} {choice : Choice} {request : PurchaseRequest} {key : Text}
    {args : PurchaseArgs} {started : Int} {result : PurchaseResult} (coherent : Coherent cfg s)
    (args_of : PurchaseArgs.Of request key args)
    (at_ : s.clients n = .tx (.purchase request key args) started (.pure result))
    (taken : step cfg s (.client n choice) = some s') :
    Named s'.server.db request ⟨200, .purchase result.body⟩ := by
  have committing : s.committing (.client n choice) = some (.purchased args result) := by
    simp only [State.committing, at_]
    rfl
  rcases step_atomic coherent taken with ⟨none, -⟩ | ⟨commit, is, happened⟩
  · rw [committing] at none
    cases none
  · rw [committing] at is
    cases is
    cases happened with
    | purchased found spec =>
      refine ⟨result.body, ⟨args.userId, args.saleItemId, args.day, found.item.priceCents,
        args.idempotencyKey, found.createdAt⟩, rfl, ?_, args_of.user, args_of.item⟩
      rw [spec.effect]
      exact Table.get?_insert_self spec.fresh

/-- What is stored and what is about to be answered names the purchase of its own request. A hit
is answered at once, and stores nothing. -/
theorem Owning.step (owning : Owning cfg s) (taken : FlashSale.step cfg s l = some s') :
    Owning cfg s' := by
  obtain ⟨coherent, formed, entries, delivers⟩ := owning
  refine ⟨(step_coherent coherent taken).1, Formed.step formed taken, fun key entry found => ?_,
    fun n request key response answered stored at_ => ?_⟩
  · rcases mem_redis taken found with old | ⟨n, answered, at_⟩
    · exact (entries key entry old).imp_right fun named => named.step coherent taken
    · exact (delivers n _ _ _ _ _ at_).imp_right fun named => named.step coherent taken
  · have comes := step_client taken n
    generalize after : s'.clients n = client at comes
    rw [at_] at after
    cases comes with
    | same => exact (delivers n _ _ _ _ _ after.symm).imp_right fun named => named.step coherent taken
    | elsewhere quiet =>
      subst after
      cases quiet
    | commits label before =>
      subst label
      cases after
      have here := formed n
      rw [before] at here
      exact ⟨rfl, commits_named coherent here.1 before taken⟩
    | delivers before =>
      cases after
      exact (delivers n _ _ _ _ _ before).imp_right fun named => named.step coherent taken
    | _ => cases after

/-- A hit is answered at once. -/
theorem hit_answered {request : PurchaseRequest} {entry : Entry}
    (hit : s.hit l = some (request, entry)) (taken : step cfg s l = some s') :
    ∃ n, .answered n (.purchase request) entry.response ∈ s'.history := by
  obtain ⟨n, choice, key, rfl, at_, has, cached⟩ := State.hit_cases hit
  refine ⟨n, ?_⟩
  cases step_cases taken with
  | start start _ label => cases start <;> cases label
  | client ran =>
    rw [at_] at ran
    cases ran
    apply List.mem_append_right _
    simp [lookupStep, has, cached, State.goOn]

theorem Owning.hit (owning : Owning cfg s) {request : PurchaseRequest} {entry : Entry}
    (hit : s.hit l = some (request, entry)) :
    entry.response.status = 200 ∧ Named s.server.db entry.request entry.response := by
  obtain ⟨n, choice, key, -, -, -, cached⟩ := State.hit_cases hit
  exact owning.entries key entry (Option.filter_eq_some_iff.mp cached).1

/-- A step keeps all answers own exactly when its hit, if any, is. -/
theorem answersOwn_step (owning : Owning cfg s) (own : AnswersOwn s)
    (taken : step cfg s l = some s') : AnswersOwn s' ↔ OwnHit s l := by
  constructor
  · rintro after ⟨request, entry⟩ hit item
    obtain ⟨status, named⟩ := owning.hit hit
    obtain ⟨n, answered⟩ := hit_answered hit taken
    have mine := after n request entry.response answered item status
    exact mine.unique (named.step owning.coherent taken)
  · intro hits n request response mem item status
    obtain ⟨events, added, answers⟩ := step_answers taken
    rw [added] at mem
    rcases List.mem_append.mp mem with old | new
    · exact (own n request response old item status).step owning.coherent taken
    · cases answers n request response new with
      | keyless at_ none => cases status
      | @hits _ entry hit =>
        obtain ⟨-, body, row, is, found, user, asked⟩ := owning.hit hit
        obtain ⟨sameUser, sameItem⟩ := hits _ hit item
        have named : Named s.server.db request entry.response :=
          ⟨body, row, is, found, user.trans sameUser, sameItem ▸ asked⟩
        exact named.step owning.coherent taken
      | invalid at_ => cases status
      | throws at_ =>
        have formed := owning.formed n
        rw [at_] at formed
        exact absurd status formed.2
      | delivers at_ => exact (owning.delivers n _ _ _ _ _ at_).2.step owning.coherent taken
      | fails busy => cases status

end Steps

section Runs

variable {cfg : Cfg} {start s : State} {trace : List (State × Label)}

/-- In the runs from an empty cache, every 200 names a purchase of its own request in
every state exactly when every hit of the cache is for an entry of the same user and
item. -/
theorem Run.answers_own (fresh : Fresh start) (cold : ∀ key, start.redis key = none)
    (run : Run cfg start trace s) :
    (∀ t ∈ Lib.visits trace s, AnswersOwn t) ↔ ∀ p ∈ trace, OwnHit p.1 p.2 := by
  have init : Owning cfg start := by
    refine ⟨fresh.coherent, fun n => ?_, fun key entry found => ?_,
      fun n request key response answered stored at_ => ?_⟩
    · rw [fresh.clients n]
      trivial
    · rw [cold key] at found
      cases found
    · rw [fresh.clients n] at at_
      cases at_
  have holds : AnswersOwn start := by
    intro n request response mem
    rw [fresh.history] at mem
    cases mem
  exact Lib.Run.exact init holds (fun _ _ _ owning taken => owning.step taken)
    (fun _ _ _ owning own taken => answersOwn_step owning own taken) run

/-- The shop with a second user. -/
def pairDb : Db :=
  { shopDb with users := shopDb.users.insert 9 ⟨some otherMail, none, memberHash, .active, 500⟩ }

def pairShop : State := .initial pairDb 1 (dayStart * 1000)

/-- User 1 buys and the answer is stored; then a user sends the same key for the same
item. -/
def replayedBy (user : Uuid) : List Label :=
  .purchase 0 ⟨1, some (uuidText '1'), some 4⟩ :: Label.clientSteps 0 13 7 ++
    .store 0 :: .purchase 1 ⟨user, some (uuidText '1'), some 4⟩ :: Label.clientSteps 1 1 8

theorem replayedBy_runs (user : Uuid) (member : user = 1 ∨ user = 9) :
    (Lib.execute (step plainCfg) pairShop (replayedBy user)).isSome = true := by
  rcases member with rfl | rfl <;> decide +kernel

/-- User 9 is answered with the purchase of user 1. The cached entry carries no user, so a
hit needs the key and the body only. -/
theorem answered_with_other :
    ∃ s row, Run plainCfg pairShop (Lib.traceOf (step plainCfg) pairShop (replayedBy 9)) s ∧
      .answered 1 (.purchase ⟨9, some (uuidText '1'), some 4⟩) ⟨200, .purchase ⟨7, 4, "100", 4⟩⟩ ∈
        s.history ∧
      s.server.db.purchases.get? 7 = some row ∧ row.userId = 1 ∧ ¬ AnswersOwn s := by
  have answered : .answered 1 (.purchase ⟨9, some (uuidText '1'), some 4⟩)
      ⟨200, .purchase ⟨7, 4, "100", 4⟩⟩ ∈ ((Lib.execute (step plainCfg) pairShop
        (replayedBy 9)).get (replayedBy_runs 9 (Or.inr rfl))).history :=
    mem_answersOf.mp (by decide +kernel)
  have found : ((Lib.execute (step plainCfg) pairShop (replayedBy 9)).get
      (replayedBy_runs 9 (Or.inr rfl))).server.db.purchases.get? 7 =
        some ⟨1, 4, "2026-05-01", 100, parseUuid (uuidText '1'), dayStart⟩ := by decide +kernel
  refine ⟨_, _, Lib.Run.of_isSome _, answered, found, rfl, fun own => ?_⟩
  obtain ⟨body, row, is, there, user, -⟩ := own _ _ _ answered (by decide) rfl
  cases is
  rw [found] at there
  cases there
  cases user

theorem answers_own_replayed :
    ∃ s, Run plainCfg pairShop (Lib.traceOf (step plainCfg) pairShop (replayedBy 1)) s ∧
      AnswersOwn s := by
  have run := Lib.Run.of_isSome (replayedBy_runs 1 (Or.inl rfl))
  have hits : ∀ p ∈ Lib.traceOf (step plainCfg) pairShop (replayedBy 1), OwnHit p.1 p.2 := by
    decide +kernel
  have own := (Run.answers_own (State.initial_fresh _ _ _) (fun _ => rfl) run).mpr hits
  exact ⟨_, run, own _ (Lib.last_mem_visits _ _)⟩

end Runs

end FlashSale
