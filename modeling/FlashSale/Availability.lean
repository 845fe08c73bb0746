/-
# A user who may buy can buy

Whatever the clients and workers have done, and wherever they stand, nothing that they
leave behind keeps a user from a purchase: when their processes are gone, a request of the
user is answered as the rows and the clock say, at whatever pace it is served.

Only what lasts can be in the way, and that is the rows, the cache and the sequence of the
outbox, whose numbers are never drawn again. The locks are gone with their processes. What
a request meets when it is taken is `Prepared`, and the way from there to its answer is
that of `Tx.solo`.

* `Run.numbered`: the sequence of the outbox is ahead of its events.
* `ClientAlone.transacts`: the steps of a transaction come to what `Tx.solo` says of it.
* `Prepared.served`: a request that is by itself.
* `Run.available`: the purchase succeeds exactly if it may.
-/
import FlashSale.Answering
import FlashSale.Conformance
import FlashSale.SoloPurchase

namespace FlashSale

open Lib (Table Tx Serves Surroundings Can Must)

/-! ### The sequence of the outbox -/

/-- The events of the outbox have numbers below `bound`. -/
def Db.NumberedBelow (bound : Nat) (db : Db) : Prop :=
  ∀ id row, db.outbox.get? id = some row → id < bound

/-- An event that is inserted has a number below `bound`. -/
def Write.NumberedBelow (bound : Nat) (w : Write) : Prop :=
  ∀ id row, w = .insertOutbox id row → id < bound

/-- The sequence is ahead of all events, those of open transactions included. A number that
was drawn is lost with its transaction, and never drawn again. -/
structure Numbered (s : State) : Prop where
  committed : s.server.db.NumberedBelow s.serial
  pending : ∀ sid, ∀ w ∈ s.server.writesOf sid, w.NumberedBelow s.serial

section Sequence

variable {cfg : Cfg} {start s s' : State} {trace : List (State × Label)} {bound : Nat}

theorem Write.NumberedBelow.apply {w : Write} {db : Db} (write : w.NumberedBelow bound)
    (below : db.NumberedBelow bound) : (w.apply db).NumberedBelow bound := by
  intro id row found
  cases w with
  | insertOutbox id' row' =>
    rcases Table.get?_insert_cases found with old | ⟨rfl, -⟩
    · exact below id row old
    · exact write id' row' rfl
  | changeOutbox id' change =>
    cases old : db.outbox.get? id with
    | none =>
      cases (Table.get?_modify_eq_none.mpr old).symm.trans found
    | some row => exact below id row old
  | _ => exact below id row found

/-- Only an append inserts an event, with the number that comes next. -/
theorem plan_numbers {st : Stmt} {env : Env} {db : Db} {ws : List Write} {r : st.Result}
    (got : (plan st env db).answer = .ok (ws, r)) {id : Nat} {row : OutboxRow}
    (mem : .insertOutbox id row ∈ ws) : st.appends = true ∧ id = env.serial := by
  have one : ∀ {w : Write} {valid : Option DbError}, (updating w valid).answer = .ok (ws, ()) →
      w ≠ .insertOutbox id row → False := by
    intro w valid got other
    obtain ⟨-, rfl, -⟩ := updating_ok got
    exact other (List.mem_singleton.mp mem).symm
  cases st with
  | createOutbox input =>
    obtain ⟨-, -, -, rfl, -⟩ := inserting_ok_iff.mp got
    cases List.mem_singleton.mp mem
    exact ⟨rfl, rfl⟩
  | createPurchase _ | createSale _ _ _ | createItem _ _ _ _ | createUser _ _ _
  | createOtp _ _ _ _ =>
    obtain ⟨-, -, -, rfl, -⟩ := inserting_ok_iff.mp got
    cases List.mem_singleton.mp mem
  | _ =>
    dsimp only [plan] at got
    repeat' split at got
    all_goals first
      | exact (one got nofun).elim
      | cases got <;> cases mem

theorem Numbered.step {l : Label} (coherent : Coherent cfg s) (numbered : Numbered s)
    (taken : step cfg s l = some s') : Numbered s' := by
  obtain ⟨serves, later⟩ := step_serves coherent taken
  have planned : ∀ st env db ws r, s.Numbers s'.serial st env →
      (plan st env db).answer = .ok (ws, r) → ∀ w ∈ ws, w.NumberedBelow s'.serial := by
    intro st env db ws r numbers got w mem id row is
    subst is
    obtain ⟨appends, rfl⟩ := plan_numbers got mem
    obtain ⟨next, less⟩ := numbers appends
    exact next ▸ less
  obtain ⟨committed, pending⟩ := serves.keepsWrites (Db.NumberedBelow s'.serial)
    (Write.NumberedBelow s'.serial) (fun _ _ fine met => fine.apply met) planned
    (fun id row found => (numbered.committed id row found).trans_le later)
    fun sid w mem id row is => (numbered.pending sid w mem id row is).trans_le later
  exact ⟨committed, pending⟩

/-- The sequence of the outbox is ahead of its events in every state of a run, when it is at
the start. -/
theorem Run.numbered (fresh : Fresh start)
    (below : start.server.db.NumberedBelow start.serial) (run : Run cfg start trace s) :
    Numbered s := by
  induction run with
  | nil =>
    refine ⟨below, fun sid w mem => ?_⟩
    rw [Lib.Server.mem_writesOf, fresh.pending] at mem
    cases mem
  | snoc before taken ih => exact ih.step (Run.coherent fresh before) taken

end Sequence

/-! ### At any pace -/

/-- When some time has passed. -/
def State.later (s : State) (duration : Nat) : State := { s with clock := s.clock + duration }

/-- Some time passes, and then the label is taken. -/
def unhurried (cfg : Cfg) (s : State) (p : Nat × Label) : Option State :=
  step cfg (s.later p.1) p.2

/-- The steps of a purchase that nothing outside the code makes fail. What the database
draws for it is new. -/
def Label.Unfailing (n : Nat) (New : Nat → Prop) (p : Nat × Label) : Prop :=
  match p.2 with
  | .client m choice => m = n ∧ New choice.draw
  | .store m => m = n
  | _ => False

/-- The steps come to this, whichever they are and however long they take. -/
abbrev Attains (cfg : Cfg) (n : Nat) (New : Nat → Prop) (P : State → Prop) : State → Prop :=
  Must (unhurried cfg) (Label.Unfailing n New) P

/-- What a transaction meets between two states in which its client is alone: no failure, times
in between, and values of the database that are new. -/
structure MetAlone (New : Nat → Prop) (s s' : State) (around : Surroundings Env Failure) :
    Prop where
  spared : ∀ i, around.fails i = none
  since : ∀ i, s.now ≤ around.time i
  until_ : ∀ i, around.time i ≤ s'.now
  draw : ∀ i, New (around.env i).draw
  serial : ∀ i, s.serial ≤ (around.env i).serial

/-- How the transaction of a job leaves the system. -/
def Job.Ends (job : Job) (n : Nat) (s s' : State) : Except Failure (job.Result × List Write) → Prop
  | .ok (result, ws) => s'.clients n = (job.returned result n).1 ∧
      s'.server.db = Lib.applyAll s.server.db ws ∧
      s'.history = s.history ++ .committed (job.commit result) :: (job.returned result n).2
  | .error e => s'.clients n = .idle ∧ s'.server.db = s.server.db ∧
      s'.history = s.history ++ answer n job.request e.response

section Pace

variable {cfg : Cfg} {s s' : State} {n : Nat} {New : Nat → Prop} {P : State → Prop}

theorem State.now_later (s : State) (duration : Nat) : s.now ≤ (s.later duration).now := by
  show s.clock / 1000 ≤ (s.clock + duration) / 1000
  omega

theorem ClientAlone.later (alone : ClientAlone cfg n s) (duration : Nat) :
    ClientAlone cfg n (s.later duration) := by
  have taken : FlashSale.step cfg s (.elapse duration) = some (s.later duration) := rfl
  exact ⟨(step_coherent alone.coherent taken).1, alone.delivers.step taken, alone.clients,
    alone.workers⟩

/-- The client goes on by itself, or its write is executed. -/
theorem ClientAlone.attains (alone : ClientAlone cfg n s)
    (can : ∃ p s', Label.Unfailing n New p ∧ unhurried cfg s p = some s')
    (goes : ∀ duration choice move, New choice.draw →
      clientStep cfg (s.later duration) n choice (s.clients n) = some move →
      ClientAlone cfg n ((s.later duration).moveClient n move) →
      Attains cfg n New P ((s.later duration).moveClient n move))
    (stored : ∀ request key response done, s.clients n = .deliver request key response done false →
      ∀ s', ClientAlone cfg n s' → s.now ≤ s'.now → s'.server.db = s.server.db →
      s'.history = s.history →
      s'.clients n = (if done then .idle else .deliver request key response done true) →
      Attains cfg n New P s') : Attains cfg n New P s := by
  refine .next can fun p s' allowed taken => ?_
  obtain ⟨duration, l⟩ := p
  change FlashSale.step cfg (s.later duration) l = some s' at taken
  have alone' : l.client? = some n → ClientAlone cfg n s' := fun own =>
    (alone.later duration).moves own taken
  cases step_cases taken with
  | @client m choice move ran =>
    obtain ⟨same, new⟩ : m = n ∧ New choice.draw := allowed
    subst same
    exact goes duration choice move new ran (alone' rfl)
  | @store m request key response done at_ =>
    obtain rfl : m = n := allowed
    exact stored request key response done at_ _ (alone' rfl) (s.now_later duration) rfl rfl
      (Function.update_self ..)
  | start start at_ label =>
    subst label
    cases start <;> cases allowed
  | _ => cases allowed

theorem unfailing_step {draw : Nat} {move : Move Client} (new : New draw)
    (ran : clientStep cfg s n ⟨draw, [], 0, 0⟩ (s.clients n) = some move) :
    ∃ p s', Label.Unfailing n New p ∧ unhurried cfg s p = some s' := by
  have now : s.later 0 = s := by simp [State.later]
  refine ⟨(0, .client n ⟨draw, [], 0, 0⟩), s.moveClient n move, ⟨rfl, new⟩, ?_⟩
  rw [unhurried, now, step, ran]
  rfl

/-- A request that has sent nothing goes on by itself. -/
theorem ClientAlone.proceeds (alone : ClientAlone cfg n s) (new : ∃ draw, New draw)
    {client : Client} (at_ : s.clients n = client) (quiet : client.sends = false)
    (busy : client ≠ .idle)
    (rest : ∀ duration choice move, New choice.draw →
      clientStep cfg (s.later duration) n choice client = some move →
      ClientAlone cfg n ((s.later duration).moveClient n move) →
      Attains cfg n New P ((s.later duration).moveClient n move)) : Attains cfg n New P s := by
  subst at_
  obtain ⟨draw, new⟩ := new
  obtain ⟨move, ran⟩ := alone.enabled quiet busy ⟨draw, [], 0, 0⟩
  refine alone.attains (unfailing_step new ran) rest ?_
  intro request key response done at_
  rw [at_] at quiet
  cases quiet

/-! #### A transaction -/

section Meeting

variable {around : Surroundings Env Failure} {env : Env} {t : Int}

theorem MetAlone.still (new : New env.draw) (serial : s.serial ≤ env.serial) (since : s.now ≤ t)
    (until_ : t ≤ s'.now) : MetAlone New s s' ⟨fun _ => env, fun _ => t, fun _ => none⟩ :=
  ⟨fun _ => rfl, fun _ => since, fun _ => until_, fun _ => new, fun _ => serial⟩

theorem MetAlone.grows (met : MetAlone New s s' around) : s.now ≤ s'.now :=
  (met.since 0).trans (met.until_ 0)

theorem MetAlone.before {mid : State} (met : MetAlone New mid s' around) (now : s.now ≤ mid.now)
    (serial : s.serial ≤ mid.serial) : MetAlone New s s' around :=
  ⟨met.spared, fun i => now.trans (met.since i), met.until_, met.draw,
    fun i => serial.trans (met.serial i)⟩

theorem MetAlone.meeting (met : MetAlone New s s' around) (i : Nat) (new : New env.draw)
    (serial : s.serial ≤ env.serial) : MetAlone New s s' (around.meeting i env) where
  spared := met.spared
  since := met.since
  until_ := met.until_
  draw := (Function.forall_update_iff around.env fun _ env => New env.draw).mpr
    ⟨new, fun j _ => met.draw j⟩
  serial := (Function.forall_update_iff around.env fun _ env => s.serial ≤ env.serial).mpr
    ⟨serial, fun j _ => met.serial j⟩

theorem MetAlone.looking (met : MetAlone New s s' around) (i : Nat) (since : s.now ≤ t)
    (until_ : t ≤ s'.now) : MetAlone New s s' (around.looking i t) where
  spared := met.spared
  since := (Function.forall_update_iff around.time fun _ t => s.now ≤ t).mpr
    ⟨since, fun j _ => met.since j⟩
  until_ := (Function.forall_update_iff around.time fun _ t => t ≤ s'.now).mpr
    ⟨until_, fun j _ => met.until_ j⟩
  draw := met.draw
  serial := met.serial

theorem Job.Ends.before {job : Job} {mid : State} {out : Except Failure (job.Result × List Write)}
    (ends : job.Ends n mid s' out) (db : mid.server.db = s.server.db)
    (history : mid.history = s.history) : job.Ends n s s' out := by
  cases out with
  | ok out =>
    obtain ⟨client, rows, events⟩ := ends
    exact ⟨client, by rw [rows, db], by rw [events, history]⟩
  | error e =>
    obtain ⟨client, rows, events⟩ := ends
    exact ⟨client, rows.trans db, by rw [events, history]⟩

end Meeting

/-- The steps of a transaction come to what it does without concurrent ones, with the values
and the times that it meets on its way. By induction on its program. -/
theorem ClientAlone.transacts {job : Job} {started : Int} (new : ∃ draw, New draw)
    (body : Program job.Result) {looked : Bool} (once : body.LooksOnce looked) {s : State} {i : Nat}
    (alone : ClientAlone cfg n s) (at_ : s.clients n = .tx job started body)
    (rest : ∀ around s', MetAlone New s s' around → ClientAlone cfg n s' →
      job.Ends n s s' (body.solo plan around s.server.db i (s.server.writesOf (.client n))) →
      Attains cfg n New P s') : Attains cfg n New P s := by
  have threw : ∀ {s : State} {e : Failure}, ClientAlone cfg n s →
      s.clients n = .tx job started (.throw e) →
      (∀ s', s.now ≤ s'.now → ClientAlone cfg n s' → job.Ends n s s' (.error e) →
        Attains cfg n New P s') → Attains cfg n New P s := by
    intro s e alone at_ rest
    refine alone.proceeds new at_ rfl (by simp) fun duration choice move _ ran alone' => ?_
    cases ran
    exact rest _ (s.now_later duration) alone' ⟨State.moveClient_self .., rfl, rfl⟩
  induction body generalizing s i looked with
  | pure result =>
    refine alone.proceeds new at_ rfl (by simp) fun duration choice move drawn ran alone' => ?_
    cases ran
    exact rest ⟨fun _ => s.env (.client n) started choice, fun _ => s.now, fun _ => none⟩ _
      (.still drawn le_rfl le_rfl (s.now_later duration)) alone'
      ⟨State.moveClient_self .., rfl, rfl⟩
  | throw e =>
    obtain ⟨draw, drawn⟩ := new
    exact threw alone at_ fun s' now alone' ends =>
      rest ⟨fun _ => s.env (.client n) started ⟨draw, [], 0, 0⟩, fun _ => s.now, fun _ => none⟩ s'
        (.still drawn le_rfl le_rfl now) alone' ends
  | now next ih =>
    refine alone.proceeds new at_ rfl (by simp) fun duration choice move _ ran alone' => ?_
    cases ran
    have later := s.now_later duration
    refine ih _ (once.2 _) (i := i) alone' (State.moveClient_self ..)
      fun around s' met alone'' ends => ?_
    refine rest (around.looking i (s.later duration).now) s'
      ((met.before later le_rfl).looking i later met.grows) alone'' ?_
    rw [Tx.solo_looking (once.2 _)]
    exact ends.before rfl (List.append_nil _)
  | exec st onError next ih =>
    refine alone.proceeds new at_ rfl (by simp) fun duration choice move drawn ran alone' => ?_
    change txStep (s.later duration) n job started (.exec st onError next) choice = some move at ran
    obtain ⟨⟨progress, server⟩, advanced, eq⟩ := Option.map_eq_some_iff.mp ran
    obtain ⟨⟨answer, server'⟩, done, eq'⟩ := Option.map_eq_some_iff.mp advanced
    have later := s.now_later duration
    rcases Lib.Server.statement_cases done with ⟨e, got, rfl, rfl⟩ | ⟨ws, r, got, rfl, -, rfl⟩
    · cases eq'
      cases eq
      refine threw alone' (State.moveClient_self ..) fun s' now alone'' ends => ?_
      refine rest ⟨fun _ => (s.later duration).env (.client n) started choice, fun _ => s.now,
        fun _ => none⟩ s' (.still drawn le_rfl le_rfl (later.trans now)) alone'' ?_
      have failed : (Tx.exec st onError next).solo plan ⟨fun _ =>
          (s.later duration).env (.client n) started choice, fun _ => s.now, fun _ => none⟩
          s.server.db i (s.server.writesOf (.client n)) = .error (onError e) :=
        Tx.solo_failed rfl got
      rw [failed]
      exact ends.before rfl (List.append_nil _)
    · cases eq'
      cases eq
      refine ih r (once r) (i := i + 1) alone' (State.moveClient_self ..)
        fun around s' met alone'' ends => ?_
      refine rest (around.meeting i ((s.later duration).env (.client n) started choice)) s'
        ((met.before later (Nat.le_add_right ..)).meeting i drawn le_rfl) alone'' ?_
      have goes : (Tx.exec st onError next).solo plan
          (around.meeting i ((s.later duration).env (.client n) started choice)) s.server.db i
          (s.server.writesOf (.client n)) =
          (next r).solo plan around s.server.db (i + 1) (s.server.writesOf (.client n) ++ ws) :=
        Tx.solo_meeting (met.spared i) got
      have writes : (s.server.extend (.client n) (plan st
          ((s.later duration).env (.client n) started choice) (s.server.view (.client n))).locks
          ws).writesOf (.client n) = s.server.writesOf (.client n) ++ ws :=
        Lib.Server.writesOf_extend_self _ _
      rw [goes, ← writes]
      exact ends.before rfl (List.append_nil _)

/-- A purchase that has committed is answered and stored, in either order. -/
theorem ClientAlone.answers (alone : ClientAlone cfg n s) (new : ∃ draw, New draw)
    {request : PurchaseRequest} {key : Text} {response : Response}
    (at_ : s.clients n = .deliver request key response false false)
    (rest : ∀ s', s'.clients n = .idle → s.now ≤ s'.now → s'.server.db = s.server.db →
      s'.history = s.history ++ [.answered n (.purchase request) response] → P s') :
    Attains cfg n New P s := by
  obtain ⟨draw, drawn⟩ := new
  have can : ∀ {s : State} {stored : Bool},
      s.clients n = .deliver request key response false stored →
      ∃ p s', Label.Unfailing n New p ∧ unhurried cfg s p = some s' := by
    intro s stored at_
    have ran : ∃ move, clientStep cfg s n ⟨draw, [], 0, 0⟩ (s.clients n) = some move := by
      rw [at_]
      exact ⟨_, rfl⟩
    exact unfailing_step drawn ran.choose_spec
  -- It is answered, and the write is on its way.
  have stores : ∀ s, ClientAlone cfg n s → s.clients n = .deliver request key response true false →
      (∀ s', s'.clients n = .idle → s.now ≤ s'.now → s'.server.db = s.server.db →
        s'.history = s.history → P s') → Attains cfg n New P s := by
    intro s alone at_ rest
    have taken : ∃ s', storeStep (s.later 0) n = some s' := by
      have at' : (s.later 0).clients n = .deliver request key response true false := at_
      unfold storeStep
      rw [at']
      exact ⟨_, rfl⟩
    obtain ⟨s', taken⟩ := taken
    refine alone.attains ⟨(0, .store n), s', rfl, taken⟩ ?_ ?_
    · intro duration choice move _ ran
      rw [at_] at ran
      cases ran
    · intro request key response done at' s' _ now db history idle
      cases at_.symm.trans at'
      exact .here (rest s' idle now db history)
  -- The write has been executed, and the answer is on its way.
  have answers : ∀ s, ClientAlone cfg n s → s.clients n = .deliver request key response false true →
      (∀ s', s'.clients n = .idle → s.now ≤ s'.now → s'.server.db = s.server.db →
        s'.history = s.history ++ [.answered n (.purchase request) response] → P s') →
      Attains cfg n New P s := by
    intro s alone at_ rest
    refine alone.attains (can at_) ?_ ?_
    · intro duration choice move _ ran _
      rw [at_] at ran
      cases ran
      exact .here (rest _ (State.moveClient_self ..) (s.now_later duration) rfl rfl)
    · intro request' key' response' done at'
      cases at_.symm.trans at'
  refine alone.attains (can at_) ?_ ?_
  · intro duration choice move _ ran alone'
    rw [at_] at ran
    cases ran
    exact stores _ alone' (State.moveClient_self ..) fun s' idle now db history =>
      rest s' idle ((s.now_later duration).trans now) db history
  · intro request' key' response' done at' s' alone' now db history at''
    cases at_.symm.trans at'
    exact answers s' alone' at'' fun s'' idle now' db' history' =>
      rest s'' idle (now.trans now') (db'.trans db) (by rw [history', history])

end Pace

/-! ### A purchase -/

/-- How a purchase ends on these rows that looks at the clock at `looked`: its answer, and
the rows after it. -/
inductive PurchaseEnds (args : PurchaseArgs) (looked : Int) (db : Db) : Response → Db → Prop where
  | bought {item : ItemRow} {sale : SaleRow} {user : UserRow} {around : Surroundings Env Failure}
      (can : CanBuy args looked item sale user db) (unhindered : Unhindered around db) :
      PurchaseEnds args looked db
        ⟨200, .purchase ⟨(around.env 5).draw, args.saleItemId, toString item.priceCents,
          item.quantity - (item.sold + 1)⟩⟩ (args.bought around item db)
  | refused {e : Failure} {around : Surroundings Env Failure}
      (cannot : ¬ ∃ item sale user, CanBuy args looked item sale user db) (refuses : e.Refuses)
      (unhindered : Unhindered around db) (looks : around.time 2 = looked)
      (threw : (args.transaction around db).1 = .error e) :
      PurchaseEnds args looked db e.response db

/-- The request is answered as the rows and the clock say, at two moments between the request
and its answer: one gives the day, and the other is inside the sale or not. -/
structure PurchaseServed (cfg : Cfg) (n : Nat) (request : PurchaseRequest) (key : Text)
    (saleItemId : Uuid) (s s' : State) : Prop where
  idle : s'.clients n = .idle
  ends : ∃ began looked response events, s.now ≤ began ∧ began ≤ looked ∧ looked ≤ s'.now ∧
    PurchaseEnds ⟨request.userId, saleItemId, parseUuid key, cfg.dateOf began⟩ looked s.server.db
      response s'.server.db ∧
    s'.history = s.history ++ events ∧ .answered n (.purchase request) response ∈ events

/-- What goes on without the database. -/
structure Pauses (s s' : State) : Prop where
  server : s'.server = s.server
  serial : s'.serial = s.serial
  history : s'.history = s.history
  redis : s'.redis = s.redis
  clock : s.clock ≤ s'.clock

section Purchase

variable {cfg : Cfg} {s mid s' : State} {n : Nat} {args : PurchaseArgs}
  {around : Surroundings Env Failure} {db : Db}

theorem Pauses.trans (first : Pauses s mid) (second : Pauses mid s') : Pauses s s' :=
  ⟨second.server.trans first.server, second.serial.trans first.serial,
    second.history.trans first.history, second.redis.trans first.redis,
    first.clock.trans second.clock⟩

theorem Pauses.later (s : State) (duration : Nat) : Pauses s (s.later duration) :=
  ⟨rfl, rfl, rfl, rfl, le_add_of_nonneg_right (Int.natCast_nonneg duration)⟩

theorem Pauses.goOn (s : State) (duration n : Nat) (next : Client) :
    Pauses s ((s.later duration).moveClient n ((s.later duration).goOn next [])) :=
  ⟨rfl, rfl, List.append_nil _, rfl, le_add_of_nonneg_right (Int.natCast_nonneg duration)⟩

theorem Pauses.now (pauses : Pauses s s') : s.now ≤ s'.now :=
  Int.ediv_le_ediv (by decide) pauses.clock

/-- What has not been cached stays so. -/
theorem Pauses.uncached (pauses : Pauses s s') {key : Text} (uncached : s.cached key = none) :
    s'.cached key = none := by
  unfold State.cached at uncached ⊢
  rw [pauses.redis]
  refine Option.filter_eq_none_iff.mpr fun entry there => ?_
  have expired := Option.filter_eq_none_iff.mp uncached entry there
  have clock := pauses.clock
  simp only [decide_eq_true_eq] at expired ⊢
  omega

theorem purchaseTx_looksOnce (userId saleItemId idempotencyKey : Uuid) (day : Day) :
    (purchaseTx userId saleItemId idempotencyKey day).LooksOnce false := by
  unfold purchaseTx
  refine Tx.LooksOnce.statement fun purchased => ?_
  split
  · trivial
  refine Tx.LooksOnce.statement fun found => ?_
  cases found with
  | none => trivial
  | some item =>
    refine Tx.LooksOnce.clock fun now => ?_
    split
    · trivial
    split
    · trivial
    refine Tx.LooksOnce.statement fun balance => ?_
    cases balance with
    | none => trivial
    | some balanceCents =>
      dsimp only
      split
      · trivial
      · exact fun _ _ _ _ => trivial

/-- The purchase ends as its transaction does without concurrent ones. -/
theorem purchase_ends (conforms : db.Conforms) (unhindered : Unhindered around db)
    (spared : ∀ i, around.fails i = none) :
    (∃ result ws, (args.call around).body.solo plan around db 0 [] = .ok (result, ws) ∧
      PurchaseEnds args (around.time 2) db ⟨200, .purchase result.body⟩ (Lib.applyAll db ws)) ∨
    ∃ e, (args.call around).body.solo plan around db 0 [] = .error e ∧
      PurchaseEnds args (around.time 2) db e.response db := by
  by_cases can : ∃ item sale user, CanBuy args (around.time 2) item sale user db
  · obtain ⟨item, sale, user, can⟩ := can
    exact Or.inl ⟨_, _, can.succeeds unhindered conforms, .bought can unhindered⟩
  · cases ended : (args.call around).body.solo plan around db 0 [] with
    | ok out => exact absurd (purchase_returned ended).1 can
    | error e =>
      have refuses : e.Refuses := (purchaseTx_throws _ _ _ _).solo spared ended
      have threw : (args.transaction around db).1 = .error e :=
        congrArg (fun out => (Lib.settle db out).1) ended
      exact Or.inr ⟨e, rfl, .refused can refuses unhindered rfl threw⟩

/-- Where the user may buy, the answer is the purchase, at the price of the item. -/
theorem PurchaseEnds.buys {looked : Int} {response : Response} {db' : Db} {item : ItemRow}
    {sale : SaleRow} {user : UserRow} (ends : PurchaseEnds args looked db response db')
    (can : CanBuy args looked item sale user db) :
    ∃ id, response = ⟨200, .purchase ⟨id, args.saleItemId, toString item.priceCents,
      item.quantity - (item.sold + 1)⟩⟩ := by
  cases ends with
  | @bought item' sale' user' around can' =>
    cases can'.there.symm.trans can.there
    exact ⟨_, rfl⟩
  | refused cannot => exact absurd ⟨item, sale, user, can⟩ cannot

/-- Identifiers and numbers that are new hinder no purchase. -/
theorem MetAlone.unhindered (met : MetAlone (fun draw => db.purchases.get? draw = none) s s' around)
    (numbered : db.NumberedBelow s.serial) : Unhindered around db := by
  refine ⟨fun i _ => met.spared i, met.draw 5, ?_⟩
  by_contra there
  obtain ⟨row, found⟩ := Option.ne_none_iff_exists'.mp there
  have below := numbered _ row found
  have above := met.serial 6
  omega

/-- What a purchase request meets when it is taken, and all that matters of it. -/
structure Prepared (n : Nat) (request : PurchaseRequest) (key : Text) (saleItemId : Uuid)
    (s : State) : Prop where
  conforms : s.server.db.Conforms
  numbered : s.server.db.NumberedBelow s.serial
  clear : s.server.writesOf (.client n) = []
  has : request.key? = some key
  item : request.saleItemId = some saleItemId
  uncached : s.cached key = none

section Request

variable {request : PurchaseRequest} {key : Text} {saleItemId : Uuid} {s₁ : State}

/-- The transaction, whose day was computed when the request was handled. -/
theorem Prepared.transacts (prepared : Prepared n request key saleItemId s) {began started : Int}
    (pauses : Pauses s s₁) (since : s.now ≤ began) (until_ : began ≤ s₁.now)
    (is : args = ⟨request.userId, saleItemId, parseUuid key, cfg.dateOf began⟩)
    (alone : ClientAlone cfg n s₁) (at_ : s₁.clients n = .tx (.purchase request key args) started
      (Job.program (.purchase request key args))) :
    Attains cfg n (fun draw => s.server.db.purchases.get? draw = none)
      (PurchaseServed cfg n request key saleItemId s) s₁ := by
  have new := s.server.db.purchases.exists_new
  refine alone.transacts new _ (purchaseTx_looksOnce _ _ _ _) (i := 0) at_
    fun around s₂ met alone₂ ends => ?_
  have unhindered := met.unhindered (pauses.serial ▸ prepared.numbered)
  have looks : began ≤ around.time 2 := until_.trans (met.since 2)
  replace ends := ends.before (s := s) (congrArg _ pauses.server) pauses.history
  rw [pauses.server, prepared.clear] at ends
  rcases purchase_ends prepared.conforms unhindered met.spared with
    ⟨result, ws, ended, answer⟩ | ⟨e, ended, answer⟩
  · replace ends : Job.Ends (.purchase request key args) n s s₂ (.ok (result, ws)) := ended ▸ ends
    obtain ⟨client, rows, history⟩ := ends
    refine alone₂.answers new client fun s₃ idle now db answered => ?_
    refine ⟨idle, began, around.time 2, ⟨200, .purchase result.body⟩,
      [.committed (.purchased args result),
        .answered n (.purchase request) ⟨200, .purchase result.body⟩],
      since, looks, (met.until_ 2).trans now, ?_, ?_, by simp⟩
    · rw [db, rows, ← is]
      exact answer
    · rw [answered, history, List.append_assoc]
      rfl
  · replace ends : Job.Ends (.purchase request key args) n s s₂ (.error e) := ended ▸ ends
    obtain ⟨client, rows, history⟩ := ends
    refine .here ⟨client, began, around.time 2, e.response,
      [.answered n (.purchase request) e.response], since, looks, met.until_ 2, ?_, history,
      List.mem_cons_self⟩
    rw [rows, ← is]
    exact answer

theorem Prepared.handles (prepared : Prepared n request key saleItemId s) (pauses : Pauses s s₁)
    (alone : ClientAlone cfg n s₁) (at_ : s₁.clients n = .handle request key) :
    Attains cfg n (fun draw => s.server.db.purchases.get? draw = none)
      (PurchaseServed cfg n request key saleItemId s) s₁ := by
  have new := s.server.db.purchases.exists_new
  refine alone.proceeds new at_ rfl (by simp) fun duration choice move _ ran alone₁ => ?_
  have enters : handleStep cfg (s₁.later duration) n request key =
      (s₁.later duration).goOn (.begin_ (.purchase request key ⟨request.userId, saleItemId,
        parseUuid key, cfg.dateOf (s₁.later duration).now⟩)) [] := by
    rw [handleStep, prepared.item]
  cases (congrArg some enters).symm.trans ran
  refine alone₁.proceeds new (State.moveClient_self ..) rfl (by simp [State.goOn])
    fun duration' choice' move' _ ran' alone₂ => ?_
  cases ran'
  exact prepared.transacts ((pauses.trans (.goOn s₁ duration n _)).trans (.goOn _ duration' n _))
    (pauses.now.trans (s₁.now_later duration)) (State.now_later _ duration') rfl alone₂
    (State.moveClient_self ..)

/-- When it is alone, a purchase request is answered as the rows and the clock say. From here
on nothing of the run before matters. -/
theorem Prepared.served (prepared : Prepared n request key saleItemId s)
    (alone : ClientAlone cfg n s) (at_ : s.clients n = .lookup request) :
    Attains cfg n (fun draw => s.server.db.purchases.get? draw = none)
      (PurchaseServed cfg n request key saleItemId s) s := by
  have new := s.server.db.purchases.exists_new
  refine alone.proceeds new at_ rfl (by simp) fun duration choice move _ ran alone₁ => ?_
  have misses : lookupStep (s.later duration) n request =
      (s.later duration).goOn (.handle request key) [] := by
    simp only [lookupStep, prepared.has, (Pauses.later s duration).uncached prepared.uncached]
  cases (congrArg some misses).symm.trans ran
  exact prepared.handles (.goOn s duration n _) alone₁ (State.moveClient_self ..)

theorem PurchaseServed.since (served : PurchaseServed cfg n request key saleItemId mid s')
    (db : mid.server.db = s.server.db)
    (clock : mid.clock = s.clock) (history : mid.history = s.history) :
    PurchaseServed cfg n request key saleItemId s s' := by
  have now : mid.now = s.now := congrArg (· / 1000) clock
  obtain ⟨idle, began, looked, response, events, since, looks, until_, answer, more, mem⟩ := served
  rw [db] at answer
  exact ⟨idle, began, looked, response, events, now ▸ since, looks, until_, answer,
    more.trans (by rw [history]), mem⟩

end Request

end Purchase

section Runs

variable {cfg : Cfg} {start s : State} {trace : List (State × Label)} {n : Nat}

/-- In every state of every run, a client that is idle can have a purchase: when the other
processes have died, its request is answered as the rows and the clock say, whatever time
its steps take. It buys exactly if the user may. -/
theorem Run.available (fresh : Fresh start) (conforms : start.server.db.Conforms)
    (below : start.server.db.NumberedBelow start.serial) (run : Run cfg start trace s)
    {request : PurchaseRequest} {key : Text} {saleItemId : Uuid} (idle : s.clients n = .idle)
    (has : request.key? = some key) (item : request.saleItemId = some saleItemId)
    (uncached : s.cached key = none) :
    Can (step cfg) (Label.Spares n) (fun s₁ => ∃ s₂, step cfg s₁ (.purchase n request) = some s₂ ∧
      Must (unhurried cfg) (Label.Unfailing n fun draw => s.server.db.purchases.get? draw = none)
        (PurchaseServed cfg n request key saleItemId s) s₂) s := by
  refine (run.left_alone fresh n).imp fun s₁ left => ?_
  obtain ⟨⟨-, -, client, db, history, serial, clock, redis⟩, alone⟩ := left
  have taken : step cfg s₁ (.purchase n request) =
      some (s₁.moveClient n (s₁.goOn (.lookup request) [])) := by
    rw [step, startStep, client, idle]
    rfl
  have same : s₁.cached key = s.cached key := by rw [State.cached, State.cached, redis, clock]
  have alone' := alone.moves (l := .purchase n request) rfl taken
  have safe := alone.coherent.clients n
  rw [client, idle] at safe
  have prepared : Prepared n request key saleItemId
      (s₁.moveClient n (s₁.goOn (.lookup request) [])) :=
    { conforms := db ▸ (run.conforms fresh conforms).1
      numbered := db ▸ serial ▸ (run.numbered fresh below).committed
      clear := safe.writes
      has := has
      item := item
      uncached := same.trans uncached }
  have attains := prepared.served alone' (State.moveClient_self ..)
  refine ⟨_, taken, ?_⟩
  rw [← db]
  exact attains.along (fun _ => True) (fun _ _ _ _ _ _ => trivial) trivial fun s₃ served _ =>
    served.since db clock ((List.append_nil _).trans history)

/-- The shop sells to its user while the sale lasts. -/
theorem shopDb_sells {key : Uuid} {day : Day} {looked : Int} (since : dayStart ≤ looked)
    (until_ : looked ≤ dayStart + 3600000) :
    CanBuy ⟨1, 4, key, day⟩ looked ⟨3, 2, 5, 0, 100⟩
      ⟨saleName, dayStart, dayStart + 3600000, none⟩ ⟨some mail, none, memberHash, .active, 500⟩
      shopDb where
  unbought id row found := by cases found
  there := rfl
  joined := rfl
  window := ⟨since, until_⟩
  available := by decide
  owner := rfl
  funds := by decide
  fits := rfl
  unused id row found := by cases found

/-- User 1 asks for item 4 while client 0, which has sold it to the same user, has not
committed, and dies. -/
theorem available_midPurchase :
    ∃ s, Run plainCfg shop (Lib.traceOf (step plainCfg) shop midPurchase) s ∧
      Can (step plainCfg) (Label.Spares 1) (fun s₁ => ∃ s₂,
        step plainCfg s₁ (.purchase 1 ⟨1, some (uuidText '2'), some 4⟩) = some s₂ ∧
        Must (unhurried plainCfg)
          (Label.Unfailing 1 fun draw => s.server.db.purchases.get? draw = none)
          (fun s₃ => s₃.now ≤ dayStart + 3600000 → ∃ id,
            .answered 1 (.purchase ⟨1, some (uuidText '2'), some 4⟩)
              ⟨200, .purchase ⟨id, 4, "100", 4⟩⟩ ∈ s₃.history) s₂) s := by
  have run := Lib.Run.of_isSome midPurchase_runs
  have has : PurchaseRequest.key? ⟨1, some (uuidText '2'), some 4⟩ = some (uuidText '2') := by
    decide +kernel
  have db : ((Lib.execute (step plainCfg) shop midPurchase).get midPurchase_runs).server.db =
      shopDb := rfl
  have now : ((Lib.execute (step plainCfg) shop midPurchase).get midPurchase_runs).now =
      dayStart := by decide +kernel
  have available := Run.available (State.initial_fresh _ _ _)
    (shopWith_conforms (by decide) rfl rfl) (fun id row found => by cases found) run
    (n := 1) rfl has rfl rfl
  refine ⟨_, run, available.imp fun s₁ served => ?_⟩
  obtain ⟨s₂, taken, attains⟩ := served
  refine ⟨s₂, taken, attains.along (fun _ => True) (fun _ _ _ _ _ _ => trivial) trivial
    fun s₃ served _ inTime => ?_⟩
  obtain ⟨-, began, looked, response, events, since, looks, until_, ends, more, mem⟩ := served
  rw [now] at since
  rw [db] at ends
  obtain ⟨id, rfl⟩ := ends.buys (shopDb_sells (since.trans looks) (until_.trans inTime))
  refine ⟨id, ?_⟩
  rw [more]
  exact List.mem_append_right _ mem

end Runs

end FlashSale
