/-
# Where a settlement is

The settle transactions of a running system, by what they have read so far.

A settlement locks its sale, reads which units of its items are unsold without a lock on
the items, gives these units back product by product, and stamps the sale. What it has
read can be out of date when it commits, so the reading has to be followed through the
transaction.

* `Settling.advance`: one step of the transaction.
* `step_settleTx`: what a step of the system does to the settlement of a worker.
* `SettlesAs.step`: what is known of the items that settlements have read is kept,
  if the step keeps it and reading establishes it.
-/
import FlashSale.Delivering

namespace FlashSale

open Lib (Tx Progress Idle Spared)

/-! ### Positions -/

/-- How far a settle transaction has come: before its guard, past it, past the
read of `items`, or without anything left to do. -/
inductive SettleStage where
  | guard
  | opened
  | read (items : List Unsold)
  | ended

/-- The rest of a settle transaction at each stage, and what it has read. The loop that returns
the stock is one stage. -/
inductive Settling (saleId : Uuid) : SettleStage → Program (Option (List Unsold)) → Prop where
  | guard : Settling saleId .guard (settle saleId)
  | opened : Settling saleId .opened (settleOpen saleId)
  | returning (items rest : List Unsold) : Settling saleId (.read items) (giveBack saleId items rest)
  | stamped (items : List Unsold) : Settling saleId (.read items) (.pure (some items))
  | skipped : Settling saleId .ended (.pure none)
  | thrown (e : Failure) : Settling saleId .ended (.throw e)

/-- The transaction has read the items and goes on to return them: its next
statement shows where it is. -/
def pastRead : Program (Option (List Unsold)) → Bool
  | .exec (.updateStock _ _) _ _ => true
  | .exec (.updateSettled _) _ _ => true
  | .pure (some _) => true
  | _ => false

section Positions

variable {saleId : Uuid} {stage : SettleStage} {body next : Program (Option (List Unsold))}
  {items : List Unsold} {env : Env} {time : Int} {srv srv' : Server} {sid : Sid}

theorem Settling.pastRead (at_ : Settling saleId (.read items) body) : pastRead body = true := by
  cases at_ with
  | returning items rest => cases rest <;> rfl
  | stamped items => rfl

/-- What one step of the transaction does: it may stop, pass its guard, or read. -/
inductive Settles (saleId : Uuid) (srv srv' : Server) (sid : Sid) : SettleStage → SettleStage → Prop where
  | ended {stage : SettleStage} : Settles saleId srv srv' sid stage .ended
  | opens {sale : SaleRow} (found : (srv.view sid).flashSales.get? saleId = some sale)
      (quiet : srv'.writesOf sid = srv.writesOf sid) : Settles saleId srv srv' sid .guard .opened
  | reads {items : List Unsold} (read : items.Perm (unsoldItems saleId (srv.view sid)))
      (same : srv'.db = srv.db) : Settles saleId srv srv' sid .opened (.read items)
  | returns {items : List Unsold} : Settles saleId srv srv' sid (.read items) (.read items)

/-- A statement that was not the last either failed or answered. -/
theorem advance_exec {α : Type} {st : Stmt} {onError : DbError → Failure}
    {next : st.Result → Program α} {rest : Program α}
    (ran : (Tx.exec st onError next : Program α).advance plan env time srv sid =
      some (.running rest, srv')) :
    (∃ e, rest = .throw (onError e)) ∨
    ∃ ws r, (plan st env (srv.view sid)).answer = .ok (ws, r) ∧ rest = next r ∧
      srv'.writesOf sid = srv.writesOf sid ++ ws ∧ srv'.db = srv.db := by
  obtain ⟨⟨answer, server⟩, done, eq⟩ := Option.map_eq_some_iff.mp ran
  rcases Lib.Server.statement_cases done with ⟨e, got, rfl, rfl⟩ | ⟨ws, r, got, rfl, -, rfl⟩
  · cases eq
    exact Or.inl ⟨e, rfl⟩
  · cases eq
    exact Or.inr ⟨ws, r, got, rfl, Lib.Server.writesOf_extend_self _ _, rfl⟩

/-- A step leads a settlement from one stage to the next, or ends it. -/
theorem Settling.advance (at_ : Settling saleId stage body)
    (ran : body.advance plan env time srv sid = some (.running next, srv')) :
    ∃ stage', Settling saleId stage' next ∧ Settles saleId srv srv' sid stage stage' := by
  cases at_ with
  | guard =>
    rcases advance_exec ran with ⟨e, rfl⟩ | ⟨ws, r, got, rfl, writes, -⟩
    · exact ⟨_, .thrown _, .ended⟩
    · cases r with
      | none => exact ⟨_, .skipped, .ended⟩
      | some settledAt =>
        cases settledAt with
        | some t => exact ⟨_, .skipped, .ended⟩
        | none =>
          obtain ⟨rfl, -, sale, found, -⟩ := plan_selectSaleForUpdate got
          exact ⟨_, .opened, .opens found (by rw [writes, List.append_nil])⟩
  | opened =>
    rcases advance_exec ran with ⟨e, rfl⟩ | ⟨ws, items, got, rfl, -, same⟩
    · exact ⟨_, .thrown _, .ended⟩
    · exact ⟨_, .returning items items, .reads (plan_selectUnsold got).2 same⟩
  | returning items rest =>
    cases rest with
    | nil =>
      rcases advance_exec ran with ⟨e, rfl⟩ | ⟨ws, r, got, rfl, -⟩
      · exact ⟨_, .thrown _, .ended⟩
      · exact ⟨_, .stamped items, .returns⟩
    | cons item rest =>
      rcases advance_exec ran with ⟨e, rfl⟩ | ⟨ws, r, got, rfl, -⟩
      · exact ⟨_, .thrown _, .ended⟩
      · exact ⟨_, .returning items rest, .returns⟩
  | stamped items => cases ran
  | skipped => cases ran
  | thrown e => cases ran

end Positions

/-! ### The settlement of a worker -/

section Workers

variable {cfg : Cfg} {s s' : State} {w : Nat} {started : Int} {alive : Bool} {row : ClaimedRow}
  {saleId : Uuid} {t : Int} {body : Program (Option (List Unsold))} {todo : List ClaimedRow}
  {done : List Line}

/-- The worker is in the transaction `settle(saleId)`, with `body` left. -/
def Worker.Settles (worker : Worker) (saleId : Uuid) (t : Int)
    (body : Program (Option (List Unsold))) : Prop :=
  ∃ started alive row todo done,
    worker = .polling started alive (.deliver row (.settleTx saleId t body) todo done)

/-- How a worker comes to have `body` left: it had before, it begins, or it makes
a step of the transaction. -/
inductive SettleMoves (s : State) (w : Nat) (saleId : Uuid) (t : Int)
    (body : Program (Option (List Unsold))) (l : Label) (server : Server) : Prop where
  | same (before : (s.workers w).Settles saleId t body)
      (spared : Spared (.handler w) s.server server)
  | begins (idle : Idle s.server (.handler w)) (first : body = settle saleId)
      (quiet : server = s.server)
  | steps {before : Program (Option (List Unsold))} {choice : Choice} (label : l = .worker w choice)
      (at_ : (s.workers w).Settles saleId t before)
      (ran : before.advance plan (s.env (.handler w) t choice) s.now s.server (.handler w) =
        some (.running body, server))

/-- How a worker comes to be in a settlement: it waits while others move, it begins, or its own
step has run. -/
theorem step_settleTx {l : Label} (coherent : Coherent cfg s) (taken : step cfg s l = some s')
    (at_ : (s'.workers w).Settles saleId t body) : SettleMoves s w saleId t body l s'.server := by
  obtain ⟨started, alive, row, todo, done, at_⟩ := at_
  cases step_deliver coherent taken at_ with
  | same at_ spared => exact .same ⟨_, _, _, _, _, at_⟩ spared
  | begins called => cases dispatch_call called
  | steps label here continues =>
    cases continues with
    | begins quiet => exact .begins (coherent.delivery_safe here) rfl quiet
    | settles ran => exact .steps label ⟨_, _, _, _, _, here⟩ ran

/-! ### What settlements have read -/

/-- What is known at a stage of the settlement of a worker. -/
def SettleFacts (Known : Uuid → List Unsold → Prop) (s : State) (w : Nat) (saleId : Uuid) :
    SettleStage → Prop
  | .guard => s.server.writesOf (.handler w) = []
  | .opened => s.server.writesOf (.handler w) = [] ∧
      ∃ sale, s.server.db.flashSales.get? saleId = some sale
  | .read items => Known saleId items ∧ ∃ sale, s.server.db.flashSales.get? saleId = some sale
  | .ended => True

/-- Every settlement is at some stage, and what it has read is `Known`. -/
def SettlesAs (Known : Uuid → List Unsold → Prop) (s : State) : Prop :=
  ∀ w saleId t body, (s.workers w).Settles saleId t body →
    ∃ stage, Settling saleId stage body ∧ SettleFacts Known s w saleId stage

theorem Fresh.settlesAs (fresh : Fresh s) (Known : Uuid → List Unsold → Prop) :
    SettlesAs Known s := by
  rintro w saleId t body ⟨started, alive, row, todo, done, at_⟩
  rw [fresh.workers w] at at_
  cases at_

theorem step_sale_kept {l : Label} (coherent : Coherent cfg s) (taken : step cfg s l = some s')
    (found : ∃ sale, s.server.db.flashSales.get? saleId = some sale) :
    ∃ sale, s'.server.db.flashSales.get? saleId = some sale := by
  obtain ⟨sale, found⟩ := found
  rcases step_atomic coherent taken with ⟨-, same⟩ | ⟨commit, -, happened⟩
  · exact ⟨sale, by rw [same]; exact found⟩
  · obtain ⟨sale', found', -⟩ := happened.sale_kept found
    exact ⟨sale', found'⟩

/-- What settlements have read is still known after a step that keeps it for those past their
read, and gives it to those that read now. -/
theorem SettlesAs.step {Known Known' : Uuid → List Unsold → Prop} {l : Label}
    (settles : SettlesAs Known s) (coherent : Coherent cfg s) (taken : step cfg s l = some s')
    (read : ∀ saleId items, s'.server.db = s.server.db →
      items.Perm (unsoldItems saleId s.server.db) → Known' saleId items)
    (keep : ∀ w saleId t body items, (s.workers w).Settles saleId t body → pastRead body = true →
      (∃ sale, s.server.db.flashSales.get? saleId = some sale) → Known saleId items →
      Known' saleId items) : SettlesAs Known' s' := by
  intro w saleId t body at_
  cases step_settleTx coherent taken at_ with
  | same before spared =>
    obtain ⟨stage, position, facts⟩ := settles w saleId t body before
    refine ⟨stage, position, ?_⟩
    cases stage with
    | guard => exact spared.writes.trans facts
    | opened => exact ⟨spared.writes.trans facts.1, step_sale_kept coherent taken facts.2⟩
    | read items =>
      exact ⟨keep w saleId t body items before position.pastRead facts.2 facts.1,
        step_sale_kept coherent taken facts.2⟩
    | ended => trivial
  | begins idle first quiet =>
    subst first
    refine ⟨.guard, .guard, ?_⟩
    show s'.server.writesOf (.handler w) = []
    rw [quiet]
    exact idle.writes
  | @steps before choice _ at_ ran =>
    obtain ⟨stage, position, facts⟩ := settles w saleId t before at_
    obtain ⟨stage', position', moves⟩ := position.advance ran
    refine ⟨stage', position', ?_⟩
    cases moves with
    | ended => trivial
    | @opens sale found quiet =>
      rw [Lib.Server.view, facts] at found
      exact ⟨quiet.trans facts, step_sale_kept coherent taken ⟨sale, found⟩⟩
    | @reads items read' same =>
      rw [Lib.Server.view, facts.1] at read'
      exact ⟨read saleId items same read', step_sale_kept coherent taken facts.2⟩
    | @returns items =>
      exact ⟨keep w saleId t before items at_ position.pastRead facts.2 facts.1,
        step_sale_kept coherent taken facts.2⟩

theorem Settling.returned {stage : SettleStage} {items : List Unsold}
    (at_ : Settling saleId stage body) (last : body = .pure (some items)) :
    stage = .read items := by
  cases at_ with
  | guard => cases last
  | opened => cases last
  | returning items' rest => cases rest <;> cases last
  | stamped items' =>
    cases last
    rfl
  | skipped => cases last
  | thrown e => cases last

/-- A step that commits a settlement is that of its worker. -/
theorem committing_settled {l : Label} {result : Option (List Unsold)}
    (committing : s.committing l = some (.settled saleId t result)) :
    ∃ w choice, l = .worker w choice ∧ (s.workers w).Settles saleId t (.pure result) := by
  generalize settled : Commit.settled saleId t result = commit at committing
  cases committing_cases committing with
  | @client n choice job started result at_ => cases job <;> cases settled
  | counts at_ => cases settled
  | disables at_ => cases settled
  | marks at_ => cases settled
  | settles at_ =>
    cases settled
    exact ⟨_, _, rfl, _, _, _, _, _, at_⟩
  | ticks at_ => cases settled

/-- A settlement that commits returns the items it has read. -/
theorem SettlesAs.committed {Known : Uuid → List Unsold → Prop} {l : Label} {items : List Unsold}
    (settles : SettlesAs Known s)
    (committing : s.committing l = some (.settled saleId t (some items))) : Known saleId items := by
  obtain ⟨w, choice, -, at_⟩ := committing_settled committing
  obtain ⟨stage, position, facts⟩ := settles w saleId t _ at_
  obtain rfl := position.returned rfl
  exact facts.1

end Workers

end FlashSale
