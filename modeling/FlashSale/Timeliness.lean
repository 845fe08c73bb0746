/-
# When purchases are made

A purchase computes its day before its transaction, looks at the clock once in it, after
it has locked its item, and commits some time later.

None of these moments is in the database, and the purchase can wait for its locks between
any two of them. The invariant keeps for every purchase under way the part of the trace that
has already happened, and that the window of its item is still the one it has read.

* `Purchasing.advance`: one step of the transaction.
* `Run.timely`: a purchase that has committed was asked for, dated and found in the window
  of its sale, in this order; so it has committed after its sale began, and was asked for
  before it ended.
-/
import FlashSale.Bearer
import FlashSale.Listing
import FlashSale.Settling

namespace FlashSale

open Lib (Table Tx Spared)

/-! ### Positions -/

/-- How far a purchase has come: before the read of its item, past it, past its look at
the clock, or without anything left to do. -/
inductive PurchaseStage where
  | unread
  | read (item : ItemWindow)
  | opened
  | ended

/-- The rest of a purchase at each stage. A stage says what the transaction has learnt, and
so which tests its window has passed. -/
inductive Purchasing (call : PurchaseCall) : PurchaseStage → Program PurchaseResult → Prop where
  | begun : Purchasing call .unread call.body
  | checked : Purchasing call .unread call.afterCheck
  | read (item : ItemWindow) : Purchasing call (.read item) (call.afterItem item)
  | opened (body : Program PurchaseResult) : Purchasing call .opened body
  | thrown (e : Failure) : Purchasing call .ended (.throw e)

/-- What one step of the transaction does: it may stop, check the day, read its item, or
find the sale open. -/
inductive Passes (call : PurchaseCall) (srv srv' : Server) (sid : Sid) (time : Int) :
    PurchaseStage → PurchaseStage → Prop where
  | ended {stage : PurchaseStage} : Passes call srv srv' sid time stage .ended
  | checks (quiet : srv'.writesOf sid = srv.writesOf sid) :
      Passes call srv srv' sid time .unread .unread
  | reads {item : ItemRow} {sale : SaleRow}
      (found : ItemAt (srv.view sid) call.args.saleItemId item sale) :
      Passes call srv srv' sid time .unread (.read (itemWindow call.args.saleItemId item sale))
  | opens {item : ItemWindow} (begun : item.startsAt ≤ time) (lasts : time ≤ item.endsAt) :
      Passes call srv srv' sid time (.read item) .opened
  | goes : Passes call srv srv' sid time .opened .opened

section Positions

variable {call : PurchaseCall} {stage : PurchaseStage} {body next : Program PurchaseResult}
  {env : Env} {time : Int} {srv srv' : Server} {sid : Sid}

/-- A step leads a purchase from one stage to the next, and says what it has learnt. -/
theorem Purchasing.advance (at_ : Purchasing call stage body)
    (ran : body.advance plan env time srv sid = some (.running next, srv')) :
    ∃ stage', Purchasing call stage' next ∧ Passes call srv srv' sid time stage stage' := by
  cases at_ with
  | begun =>
    rw [call.body_eq] at ran
    rcases advance_exec ran with ⟨e, rfl⟩ | ⟨ws, dup, got, rfl, writes, -⟩
    · exact ⟨_, .thrown _, .ended⟩
    · cases dup with
      | true => exact ⟨_, .thrown _, .ended⟩
      | false =>
        obtain rfl : [] = ws := (Prod.mk.inj (Except.ok.inj got)).1
        exact ⟨_, .checked, .checks (by rw [writes, List.append_nil])⟩
  | checked =>
    rcases advance_exec ran with ⟨e, rfl⟩ | ⟨ws, r, got, rfl, -, -⟩
    · exact ⟨_, .thrown _, .ended⟩
    · cases r with
      | none => exact ⟨_, .thrown _, .ended⟩
      | some item =>
        obtain ⟨-, -, row, sale, found, joined, rfl⟩ := plan_selectItemForUpdate got
        exact ⟨_, .read _, .reads ⟨found, joined⟩⟩
  | read item =>
    have looks : call.afterItem item = Tx.now fun now =>
        if now < item.startsAt ∨ now > item.endsAt then .throw outOfWindow
        else if item.sold ≥ item.quantity then .throw soldOut
        else call.afterWindow item := rfl
    rw [looks] at ran
    cases ran
    dsimp only
    by_cases outside : time < item.startsAt ∨ time > item.endsAt
    · rw [if_pos outside]
      exact ⟨_, .thrown _, .ended⟩
    · obtain ⟨begun, lasts⟩ := not_or.mp outside
      exact ⟨_, .opened _, .opens (not_lt.mp begun) (not_lt.mp lasts)⟩
  | opened => exact ⟨_, .opened _, .goes⟩
  | thrown e => cases ran

/-- A purchase that commits has looked at the clock. -/
theorem Purchasing.returned {result : PurchaseResult} (at_ : Purchasing call stage body)
    (last : body = .pure result) : stage = .opened := by
  cases at_ with
  | begun =>
    rw [call.body_eq] at last
    cases last
  | checked => cases last
  | read item => cases last
  | opened => rfl
  | thrown e => cases last

end Positions

/-! ### Windows -/

/-- The item is sold from one time to another. -/
def OnSale (db : Db) (id : Uuid) (opens closes : Int) : Prop :=
  ∃ item sale, ItemAt db id item sale ∧ sale.startsAt = opens ∧ sale.endsAt = closes

section Windows

variable {cfg : Cfg} {s s' : State} {l : Label} {id : Uuid} {opens closes : Int}

/-- The window of an item never changes. -/
theorem step_onSale (coherent : Coherent cfg s) (taken : step cfg s l = some s')
    (there : OnSale s.server.db id opens closes) : OnSale s'.server.db id opens closes := by
  rcases step_atomic coherent taken with ⟨-, same⟩ | ⟨commit, -, happened⟩
  · rw [same]
    exact there
  · obtain ⟨item, sale, ⟨found, joined⟩, rfl, rfl⟩ := there
    obtain ⟨sold, found'⟩ := happened.item_kept found
    obtain ⟨sale', joined', starts, ends, -⟩ := happened.sale_kept joined
    exact ⟨_, sale', ⟨found', joined'⟩, starts, ends⟩

end Windows

/-! ### Moments -/

/-- A purchase of a client: its request, with its key, and the arguments of its transaction. -/
structure PurchaseOrder where
  client : Nat
  request : PurchaseRequest
  key : Text
  args : PurchaseArgs

/-- The moments at which a purchase is asked for and dated. -/
structure Dated (cfg : Cfg) (order : PurchaseOrder) (asked dated : State × Label) : Prop where
  asks : asked.2 = .purchase order.client order.request
  of : order.args.Of order.request order.key
  handles : dated.1.clients order.client = .handle order.request order.key
  day : order.args.day = cfg.dateOf dated.1.now

/-- It is in its transaction. -/
def PurchaseOrder.Open (order : PurchaseOrder) (s : State) (body : Program PurchaseResult) : Prop :=
  ∃ started, s.clients order.client =
    .tx (.purchase order.request order.key order.args) started body

/-- The moment at which it finds its item on sale. -/
structure Opened (order : PurchaseOrder) (opens closes : Int) (opened : State × Label) : Prop where
  looks : ∃ body, order.Open opened.1 body
  window : OnSale opened.1.server.db order.args.saleItemId opens closes
  begun : opens ≤ opened.1.now
  lasts : opened.1.now ≤ closes

/-- The moments of a purchase that has committed, in a trace: the request arrives, the day is
computed, the sale is found open, and the transaction commits. The clock does not go back
between them. -/
structure Timely (cfg : Cfg) (trace : List (State × Label)) (order : PurchaseOrder)
    (result : PurchaseResult) (opens closes : Int) (asked dated opened committed : State × Label) :
    Prop where
  sequence : [asked, dated, opened, committed].Sublist trace
  clocks : [asked, dated, opened, committed].Pairwise fun p q => p.1.clock ≤ q.1.clock
  dated : Dated cfg order asked dated
  opened : Opened order opens closes opened
  commits : ∃ choice, committed.2 = .client order.client choice ∧
    order.Open committed.1 (.pure result)

/-! ### Purchases of a run -/

/-- The trace has the first two moments of a purchase. -/
def DatedIn (cfg : Cfg) (trace : List (State × Label)) (order : PurchaseOrder) : Prop :=
  ∃ asked dated, [asked, dated].Sublist trace ∧ Dated cfg order asked dated

/-- The trace has the first three, and the window is as it was. -/
def OpenedIn (cfg : Cfg) (trace : List (State × Label)) (order : PurchaseOrder) (db : Db) : Prop :=
  ∃ opens closes asked dated opened, [asked, dated, opened].Sublist trace ∧
    Dated cfg order asked dated ∧ Opened order opens closes opened ∧
    OnSale db order.args.saleItemId opens closes

/-- What is known at a stage of a purchase. -/
def PurchaseFacts (cfg : Cfg) (trace : List (State × Label)) (s : State) (order : PurchaseOrder) :
    PurchaseStage → Prop
  | .unread => s.server.writesOf (.client order.client) = [] ∧ DatedIn cfg trace order
  | .read item => OnSale s.server.db order.args.saleItemId item.startsAt item.endsAt ∧
    DatedIn cfg trace order
  | .opened => OpenedIn cfg trace order s.server.db
  | .ended => True

/-- What the trace says of a client with a purchase. -/
def Client.Timed (cfg : Cfg) (trace : List (State × Label)) (s : State) (n : Nat) : Client → Prop
  | .lookup request => ∃ asked ∈ trace, asked.2 = .purchase n request
  | .handle request key => request.key? = some key ∧ ∃ asked ∈ trace, asked.2 = .purchase n request
  | .begin_ (.purchase request key args) => DatedIn cfg trace ⟨n, request, key, args⟩
  | .tx (.purchase request key args) _ body => ∃ call stage, call.args = args ∧
    Purchasing call stage body ∧ PurchaseFacts cfg trace s ⟨n, request, key, args⟩ stage
  | _ => True

/-- What runs keep: every purchase has had its moments. A client carries those it has had so
far, and the window of an item never changes. -/
structure Timing (cfg : Cfg) (trace : List (State × Label)) (s : State) : Prop where
  coherent : Coherent cfg s
  clocks : trace.Pairwise fun p q => p.1.clock ≤ q.1.clock
  clients : ∀ n, (s.clients n).Timed cfg trace s n
  bought : ∀ args result, .purchased args result ∈ commits s.history →
    ∃ order opens closes asked dated opened committed, order.args = args ∧
      Timely cfg trace order result opens closes asked dated opened committed ∧
      OnSale s.server.db args.saleItemId opens closes

section Timing

variable {cfg : Cfg} {trace more : List (State × Label)} {s s' : State} {l : Label} {n : Nat}
  {order : PurchaseOrder}

theorem DatedIn.later (dated : DatedIn cfg trace order) : DatedIn cfg (trace ++ more) order := by
  obtain ⟨asked, dated, sequence, done⟩ := dated
  exact ⟨asked, dated, sequence.trans (List.sublist_append_left _ _), done⟩

theorem OpenedIn.step (opened : OpenedIn cfg trace order s.server.db) (coherent : Coherent cfg s)
    (taken : step cfg s l = some s') : OpenedIn cfg (trace ++ more) order s'.server.db := by
  obtain ⟨opens, closes, asked, dated, opened, sequence, done, window, still⟩ := opened
  exact ⟨opens, closes, asked, dated, opened, sequence.trans (List.sublist_append_left _ _), done,
    window, step_onSale coherent taken still⟩

/-- A purchase that waits keeps what is known of it. -/
theorem PurchaseFacts.waits {stage : PurchaseStage} (facts : PurchaseFacts cfg trace s order stage)
    (coherent : Coherent cfg s) (taken : step cfg s l = some s')
    (spared : Spared (.client order.client) s.server s'.server) :
    PurchaseFacts cfg (trace ++ more) s' order stage := by
  cases stage with
  | unread => exact ⟨spared.writes.trans facts.1, facts.2.later⟩
  | read item => exact ⟨step_onSale coherent taken facts.1, facts.2.later⟩
  | opened => exact OpenedIn.step facts coherent taken
  | ended => trivial

/-- A step of the purchase leads from what is known of it to what is known next. -/
theorem Passes.facts {call : PurchaseCall} {stage stage' : PurchaseStage}
    {body : Program PurchaseResult} (own : call.args = order.args) (here : order.Open s body)
    (passes : Passes call s.server s'.server (.client order.client) s.now stage stage')
    (facts : PurchaseFacts cfg trace s order stage) (coherent : Coherent cfg s)
    (taken : step cfg s l = some s') : PurchaseFacts cfg (trace ++ [(s, l)]) s' order stage' := by
  cases passes with
  | ended => trivial
  | checks quiet => exact ⟨quiet.trans facts.1, facts.2.later⟩
  | @reads item sale found =>
    rw [Lib.Server.view, facts.1, own] at found
    exact ⟨step_onSale coherent taken ⟨item, sale, found, rfl, rfl⟩, facts.2.later⟩
  | @opens item begun lasts =>
    obtain ⟨window, asked, dated, sequence, done⟩ := facts
    exact ⟨_, _, asked, dated, (s, l), sequence.append (List.Sublist.refl _), done,
      ⟨⟨body, here⟩, window, begun, lasts⟩, step_onSale coherent taken window⟩
  | goes => exact OpenedIn.step facts coherent taken

theorem Timing.client (timing : Timing cfg trace s) (taken : step cfg s l = some s') :
    (s'.clients n).Timed cfg (trace ++ [(s, l)]) s' n := by
  have known := timing.clients n
  have coherent := timing.coherent
  have comes := step_client taken n
  have asked : ∀ {request}, (∃ asked ∈ trace, asked.2 = .purchase n request) →
      ∃ asked ∈ trace ++ [(s, l)], asked.2 = .purchase n request := by
    rintro request ⟨asked, mem, label⟩
    exact ⟨asked, List.mem_append_left _ mem, label⟩
  cases next : s'.clients n with
  | lookup request =>
    generalize is : s'.clients n = client at comes
    cases comes with
    | same =>
      rw [← is, next] at known
      exact asked known
    | asks label =>
      cases next.symm.trans is
      exact ⟨(s, l), List.mem_append_right _ List.mem_cons_self, label⟩
    | elsewhere quiet =>
      rw [← is, next] at quiet
      cases quiet
    | _ => cases next.symm.trans is
  | handle request key =>
    generalize is : s'.clients n = client at comes
    cases comes with
    | same =>
      rw [← is, next] at known
      exact ⟨known.1, asked known.2⟩
    | misses label at_ has miss =>
      cases next.symm.trans is
      rw [at_] at known
      exact ⟨has, asked known⟩
    | elsewhere quiet =>
      rw [← is, next] at quiet
      cases quiet
    | _ => cases next.symm.trans is
  | begin_ job =>
    cases job with
    | purchase request key args =>
      generalize is : s'.clients n = client at comes
      cases comes with
      | same =>
        rw [← is, next] at known
        exact DatedIn.later known
      | enters _ at_ item =>
        cases next.symm.trans is
        rw [at_] at known
        obtain ⟨has, asked, mem, label⟩ := known
        exact ⟨asked, (s, l), (List.singleton_sublist.mpr mem).append (List.Sublist.refl [(s, l)]),
          ⟨label, ⟨has, rfl, item, rfl⟩, at_, rfl⟩⟩
      | elsewhere quiet =>
        rw [← is, next] at quiet
        cases quiet
      | _ => cases next.symm.trans is
    | _ => trivial
  | tx job started body =>
    cases job with
    | purchase request key args =>
      cases step_transaction coherent taken next with
      | waits at_ spared =>
        rw [at_] at known
        obtain ⟨call, stage, own, position, facts⟩ := known
        exact ⟨call, stage, own, position, facts.waits coherent taken spared⟩
      | opens at_ same =>
        rw [at_] at known
        have idle := coherent.clients n
        rw [at_] at idle
        refine ⟨⟨args, s.env (.client n) 0 ⟨0, [], 0, 0⟩, 0⟩, .unread, rfl, .begun, ?_, known.later⟩
        rw [same]
        exact idle.1.writes
      | advances label at_ ran =>
        rw [at_] at known
        obtain ⟨call, stage, own, position, facts⟩ := known
        obtain ⟨stage', position', passes⟩ := position.advance ran
        exact ⟨call, stage', own, position', passes.facts own ⟨_, at_⟩ facts coherent taken⟩
    | _ => trivial
  | _ => trivial

/-- A purchase that commits has had its moments. -/
theorem Timing.commits (timing : Timing cfg trace s) (forward : ∀ p ∈ trace, p.1.clock ≤ s.clock)
    {args : PurchaseArgs} {result : PurchaseResult}
    (committing : s.committing l = some (.purchased args result)) :
    ∃ order opens closes asked dated opened, order.args = args ∧
      Timely cfg (trace ++ [(s, l)]) order result opens closes asked dated opened (s, l) ∧
      OnSale s.server.db args.saleItemId opens closes := by
  generalize is : Commit.purchased args result = commit at committing
  cases committing_cases committing with
  | @client n choice job started result' at_ =>
    cases job with
    | purchase request key args' =>
      cases is
      have known := timing.clients n
      rw [at_] at known
      obtain ⟨call, stage, -, position, facts⟩ := known
      obtain rfl := position.returned rfl
      obtain ⟨opens, closes, asked, dated, opened, sequence, done, window, still⟩ := facts
      have sorted := timing.clocks.sublist sequence
      refine ⟨_, opens, closes, asked, dated, opened, rfl,
        ⟨sequence.append (List.Sublist.refl _), ?_, done, window, choice, rfl, started, at_⟩, still⟩
      refine List.pairwise_append.mpr ⟨sorted, List.pairwise_singleton _ _, ?_⟩
      intro p mem q last
      rw [List.mem_singleton.mp last]
      exact forward p (sequence.subset mem)
    | _ => cases is
  | _ => cases is

theorem Timing.step (timing : Timing cfg trace s) (forward : ∀ p ∈ trace, p.1.clock ≤ s.clock)
    (taken : FlashSale.step cfg s l = some s') : Timing cfg (trace ++ [(s, l)]) s' := by
  have coherent := timing.coherent
  refine ⟨(step_coherent coherent taken).1, ?_, fun n => timing.client taken, ?_⟩
  · refine List.pairwise_append.mpr ⟨timing.clocks, List.pairwise_singleton _ _, ?_⟩
    intro p mem q last
    rw [List.mem_singleton.mp last]
    exact forward p mem
  · intro args result mem
    rw [step_commits taken] at mem
    rcases List.mem_append.mp mem with old | new
    · obtain ⟨order, opens, closes, asked, dated, opened, committed, own, timely, still⟩ :=
        timing.bought args result old
      exact ⟨order, opens, closes, asked, dated, opened, committed, own,
        { timely with sequence := timely.sequence.trans (List.sublist_append_left _ _) },
        step_onSale coherent taken still⟩
    · obtain ⟨order, opens, closes, asked, dated, opened, own, timely, still⟩ :=
        timing.commits forward (Option.mem_toList.mp new)
      exact ⟨order, opens, closes, asked, dated, opened, (s, l), own, timely,
        step_onSale coherent taken still⟩

end Timing

section Runs

variable {cfg : Cfg} {trace : List (State × Label)} {start s : State}

theorem Run.timing (fresh : Fresh start) (run : Run cfg start trace s) :
    Timing cfg trace s ∧ ∀ p ∈ trace, p.1.clock ≤ s.clock := by
  refine run.invariant_along
    (fun trace s => Timing cfg trace s ∧ ∀ p ∈ trace, p.1.clock ≤ s.clock)
    ⟨⟨fresh.coherent, .nil, fun n => ?_, fun args result mem => ?_⟩, by simp⟩ ?_
  · rw [fresh.clients n]
    trivial
  · rw [fresh.history] at mem
    cases mem
  · rintro trace s l s' ⟨timing, forward⟩ taken
    refine ⟨timing.step forward taken, fun p mem => ?_⟩
    rcases List.mem_append.mp mem with old | new
    · exact le_trans (forward p old) (step_clock taken)
    · rw [List.mem_singleton.mp new]
      exact step_clock taken

/-- In every run, a purchase that has committed was first asked for, then dated, then found
its item on sale, and then committed. The window of the item is still that in which it
was found, so the purchase was asked for before its end and has committed after its start. -/
theorem Run.timely (fresh : Fresh start) (run : Run cfg start trace s) {args : PurchaseArgs}
    {result : PurchaseResult} (bought : .purchased args result ∈ commits s.history) :
    ∃ order opens closes asked dated opened committed, order.args = args ∧
      Timely cfg trace order result opens closes asked dated opened committed ∧
      OnSale s.server.db args.saleItemId opens closes ∧
      asked.1.now ≤ closes ∧ opens ≤ committed.1.now := by
  have timing := Run.timing fresh run
  obtain ⟨order, opens, closes, asked, dated, opened, committed, own, timely, still⟩ :=
    timing.1.bought args result bought
  refine ⟨order, opens, closes, asked, dated, opened, committed, own, timely, still, ?_, ?_⟩
  · have early : asked.1.clock ≤ opened.1.clock :=
      (List.pairwise_cons.mp timely.clocks).1 opened (by simp)
    exact (Int.ediv_le_ediv (by decide) early).trans timely.opened.lasts
  · have later : [opened, committed].Pairwise fun p q => p.1.clock ≤ q.1.clock :=
      timely.clocks.sublist (by simp)
    have late : opened.1.clock ≤ committed.1.clock :=
      (List.pairwise_cons.mp later).1 committed List.mem_cons_self
    exact timely.opened.begun.trans (Int.ediv_le_ediv (by decide) late)

/-- The purchase finds the sale open a millisecond before its end, and commits a second
later. -/
def tarrying : List Label :=
  creating ++ .elapse 999000 :: .purchase 1 ⟨1, some (uuidText '1'), some 4⟩ ::
    Label.clientSteps 1 6 7 ++ .elapse 1000000 :: Label.clientSteps 1 6 7

theorem tarrying_runs : (Lib.execute (step plainCfg) bareShop tarrying).isSome = true := by
  decide +kernel

theorem timely_tarrying :
    ∃ s order opens closes asked dated opened committed,
      Run plainCfg bareShop (Lib.traceOf (step plainCfg) bareShop tarrying) s ∧
      order.args = ⟨1, 4, parseUuid (uuidText '1'), "2026-05-01"⟩ ∧
      Timely plainCfg (Lib.traceOf (step plainCfg) bareShop tarrying) order ⟨7, 4, 100, 0⟩ opens
        closes asked dated opened committed ∧ asked.1.now ≤ closes ∧ opens ≤ committed.1.now := by
  have run := Lib.Run.of_isSome tarrying_runs
  have bought : (commits ((Lib.execute (step plainCfg) bareShop tarrying).get
      tarrying_runs).history).filterMap Commit.bought =
      [(⟨1, 4, parseUuid (uuidText '1'), "2026-05-01"⟩, ⟨7, 4, 100, 0⟩)] := by decide +kernel
  obtain ⟨commit, mem, is⟩ := List.mem_filterMap.mp (bought ▸ List.mem_singleton_self _)
  cases commit with
  | purchased args result =>
    cases is
    obtain ⟨order, opens, closes, asked, dated, opened, committed, own, timely, -, before, after⟩ :=
      Run.timely (State.initial_fresh _ _ _) run mem
    exact ⟨_, order, opens, closes, asked, dated, opened, committed, run, own, timely, before,
      after⟩
  | _ => cases is

end Runs

end FlashSale
