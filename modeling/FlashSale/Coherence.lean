/-
# The running system refines the abstract one

`Coherent` says of every process where in its transaction it is and what that
transaction may rely on. Each step keeps it, and what a step commits is an
`Atomic` step on the committed rows.

The proof follows a step from the inside out. What the statement does to the server is a
`Frame` for all other sessions, so their outlines are carried over by the rule for facts
under locks; what the process itself has become is read off the outline of its own
transaction; and what has been committed is the relation at the end of that outline.

* `clientStep_moves`, `workerStep_moves`: what a step of a process does to itself,
  to the database and to all other sessions.
* `step_coherent`: the invariant and the refinement, for every label.
* `Run.coherent`, `Run.commits_chain`: the same for whole runs.
-/
import FlashSale.Atomic
import FlashSale.Calls

namespace FlashSale

open Lib (Table Tx Progress Safe SafeAt Stable Commits Lock Storage Sound Frame Idle Holds applyAll)

/-! ### Outlines of the jobs -/

def Job.Spec : (job : Job) → job.Result → Db → Db → Prop
  | .purchase _ _ args => PurchasePost args
  | .create input => CreatePost input
  | .register _ identifier passwordHash otp => fun user db db' =>
    ∃ found, RegisterCommits identifier passwordHash otp found user db db'
  | .resend _ user identifier otp => fun _ db db' =>
    ∃ found, ResendCommits user identifier otp found db db'
  | .verify _ otpId user => fun _ => AccountCommits (.verified otpId user)

def Job.Errors : Job → Stmt → DbError → Prop
  | .purchase _ _ _ => PurchaseErrors
  | _ => fun _ _ => True

/-- What a job knows of the committed rows before its transaction begins. -/
def Job.Known : Job → Db → Prop
  | .resend _ user identifier _ => Owner user identifier
  | .verify _ otpId user => Owned otpId user
  | _ => fun _ => True

theorem Job.stable_known (job : Job) : Stable Write [] job.Known := by
  cases job with
  | resend input user identifier otp => exact stable_owner user identifier
  | verify dto otpId user => exact stable_owned user
  | _ => exact Stable.const _ _

theorem Job.program_safe (job : Job) :
    Safe plan (fun _ => True) job.Errors (Commits job.Spec) job.program [] [] job.Known := by
  cases job with
  | purchase request key args => exact purchaseTx_safe
  | create input => exact create_safe (fun _ _ => trivial) input
  | register dto identifier passwordHash otp =>
    exact register_safe (fun _ _ => trivial) identifier passwordHash otp
  | resend input user identifier otp => exact resend_safe (fun _ _ => trivial) user identifier otp
  | verify dto otpId user => exact verify_safe (fun _ _ => trivial) otpId user

/-- The specification of a job is the abstract step of its commit. -/
theorem Job.spec_atomic {cfg : Cfg} {job : Job} {result : job.Result} {db db' : Db}
    (spec : job.Spec result db db') : Atomic cfg db (job.commit result) db' := by
  cases job with
  | purchase request key args =>
    obtain ⟨found, spec⟩ := spec
    exact .purchased found spec
  | create input =>
    obtain ⟨found, spec⟩ := spec
    exact .created found spec
  | register dto identifier passwordHash otp =>
    obtain ⟨found, spec⟩ := spec
    exact .registered found spec
  | resend input user identifier otp =>
    obtain ⟨found, spec⟩ := spec
    exact .resent found spec
  | verify dto otpId user => exact .account spec

/-! ### The invariant -/

def AuthSafe (srv : Server) (n : Nat) : AuthCall → Prop
  | .verifyCompare _ user otpId _ => Idle srv (.client n) ∧ Owned otpId user srv.db
  | _ => Idle srv (.client n)

theorem AuthSafe.idle {srv : Server} {n : Nat} {call : AuthCall} (safe : AuthSafe srv n call) :
    Idle srv (.client n) := by
  cases call with
  | verifyCompare dto user otpId otp => exact safe.1
  | _ => exact safe

def ClientSafe (srv : Server) (n : Nat) : Client → Prop
  | .tx job _ body => SafeAt plan (fun _ => True) job.Errors job.Spec srv (.client n) body
  | .begin_ job => Idle srv (.client n) ∧ job.Known srv.db
  | .resendPrepare _ user identifier => Idle srv (.client n) ∧ Owner user identifier srv.db
  | .auth call => AuthSafe srv n call
  | _ => Idle srv (.client n)

/-- The lines of a tick that have been recorded. -/
def TickStage.done : TickStage → List Line
  | .claim => []
  | .next _ done => done
  | .deliver _ _ _ done => done
  | .record _ _ _ done => done

/-- All rows that a tick has claimed. -/
def TickStage.claimed : TickStage → List ClaimedRow
  | .claim => []
  | .next todo done => done.map Line.claimed ++ todo
  | .deliver row _ todo done => done.map Line.claimed ++ row :: todo
  | .record row _ todo done => done.map Line.claimed ++ row :: todo

/-- The committed rows are as they were claimed. -/
def AsClaimed (rows : List ClaimedRow) (db : Db) : Prop :=
  ∀ c ∈ rows, db.outbox.get? c.id = some c.row

/-- What a tick knows while it holds its rows: they are committed as it has claimed them, its
locks keep them so, and its own writes are those of the lines that it has recorded. -/
structure TickSafe (cfg : Cfg) (srv : Server) (w : Nat) (started : Int) (stage : TickStage) :
    Prop where
  holds : ∃ L, Holds srv (.tick w)
    (stage.done.map fun line => Write.changeOutbox line.claimed.id (line.change cfg)) L
    (AsClaimed stage.claimed)
  locked : ∀ c ∈ stage.claimed, (Sid.tick w, ⟨.outbox c.id, .update⟩) ∈ srv.locks
  nodup : (stage.claimed.map ClaimedRow.id).Nodup
  due : ∀ c ∈ stage.claimed, c.row.status = .pending ∧ c.row.visibleAt * 1000 ≤ started

def DeliverySafe (srv : Server) (w : Nat) : Delivery → Prop
  | .settleTx saleId started body =>
    SafeAt plan (fun env => env.started = started) (fun _ _ => True)
      (SettleCommits saleId started False) srv (.handler w) body
  | _ => Idle srv (.handler w)

def HandlerSafe (srv : Server) (w : Nat) : TickStage → Prop
  | .deliver _ delivery _ _ => DeliverySafe srv w delivery
  | _ => Idle srv (.handler w)

def WorkerSafe (cfg : Cfg) (srv : Server) (w : Nat) : Worker → Prop
  | .idle => Idle srv (.tick w) ∧ Idle srv (.handler w)
  | .polling started true stage => TickSafe cfg srv w started stage ∧ HandlerSafe srv w stage
  | .polling _ false stage => Idle srv (.tick w) ∧ HandlerSafe srv w stage

/-- The server is sound, and each process has just the transaction that its stage says, with
what that transaction may rely on. The session of an idle process is idle. -/
structure Coherent (cfg : Cfg) (s : State) : Prop where
  sound : Sound s.server
  clients : ∀ n, ClientSafe s.server n (s.clients n)
  workers : ∀ w, WorkerSafe cfg s.server w (s.workers w)

theorem Coherent.delivery_safe {cfg : Cfg} {s : State} (coherent : Coherent cfg s) {w : Nat}
    {started : Int} {alive : Bool} {row : ClaimedRow} {delivery : Delivery} {todo : List ClaimedRow}
    {done : List Line}
    (at_ : s.workers w = .polling started alive (.deliver row delivery todo done)) :
    DeliverySafe s.server w delivery := by
  have safe := coherent.workers w
  rw [at_] at safe
  cases alive with
  | true => exact safe.2
  | false => exact safe.2

/-- Two ticks that are alive have claimed different rows. -/
theorem Coherent.exclusive {cfg : Cfg} {s : State} (coherent : Coherent cfg s) {w w' : Nat}
    {started started' : Int} {stage stage' : TickStage}
    (at_ : s.workers w = .polling started true stage)
    (at_' : s.workers w' = .polling started' true stage') {c c' : ClaimedRow}
    (mem : c ∈ stage.claimed) (mem' : c' ∈ stage'.claimed) (same : c.id = c'.id) : w = w' := by
  have safe := coherent.workers w
  have safe' := coherent.workers w'
  rw [at_] at safe
  rw [at_'] at safe'
  by_contra ne
  have free := coherent.sound.compatible _ _ _ _ (safe.1.locked c mem) (safe'.1.locked c' mem')
    (by simpa using ne)
  rw [same] at free
  exact Bool.false_ne_true (Lib.Lock.modes_compatible free)

/-! ### The steps of other sessions -/

section Frames

variable {cfg : Cfg} {sid : Sid} {srv srv' : Server} (moved : Frame sid srv srv')

include moved

theorem AuthSafe.frame {n : Nat} {call : AuthCall} (safe : AuthSafe srv n call)
    (ne : Sid.client n ≠ sid) : AuthSafe srv' n call := by
  cases call with
  | verifyCompare dto user otpId otp =>
    exact ⟨safe.1.frame moved ne, (stable_owned user).frame moved safe.2⟩
  | _ => exact Idle.frame safe moved ne

theorem ClientSafe.frame {n : Nat} {client : Client} (safe : ClientSafe srv n client)
    (ne : Sid.client n ≠ sid) : ClientSafe srv' n client := by
  cases client with
  | tx job started body => exact SafeAt.frame safe moved ne
  | begin_ job => exact ⟨safe.1.frame moved ne, job.stable_known.frame moved safe.2⟩
  | resendPrepare input user identifier =>
    exact ⟨safe.1.frame moved ne, (stable_owner user identifier).frame moved safe.2⟩
  | auth call => exact AuthSafe.frame moved safe ne
  | _ => exact Idle.frame safe moved ne

theorem TickSafe.frame {w : Nat} {started : Int} {stage : TickStage}
    (safe : TickSafe cfg srv w started stage) (ne : Sid.tick w ≠ sid) :
    TickSafe cfg srv' w started stage := by
  obtain ⟨⟨L, holds⟩, locked, nodup, due⟩ := safe
  exact ⟨⟨L, holds.frame moved ne⟩, fun c mem => (moved.locks _ ne _).mpr (locked c mem), nodup, due⟩

theorem HandlerSafe.frame {w : Nat} {stage : TickStage} (safe : HandlerSafe srv w stage)
    (ne : Sid.handler w ≠ sid) : HandlerSafe srv' w stage := by
  cases stage with
  | deliver row delivery todo done =>
    cases delivery with
    | settleTx saleId started body => exact SafeAt.frame safe moved ne
    | _ => exact Idle.frame safe moved ne
  | _ => exact Idle.frame safe moved ne

theorem WorkerSafe.frame {w : Nat} {worker : Worker} (safe : WorkerSafe cfg srv w worker)
    (tick : Sid.tick w ≠ sid) (handler : Sid.handler w ≠ sid) : WorkerSafe cfg srv' w worker := by
  cases worker with
  | idle => exact ⟨safe.1.frame moved tick, safe.2.frame moved handler⟩
  | polling started alive stage =>
    cases alive with
    | true => exact ⟨safe.1.frame moved tick, safe.2.frame moved handler⟩
    | false => exact ⟨safe.1.frame moved tick, safe.2.frame moved handler⟩

end Frames

/-! ### Steps of clients -/

@[simp] theorem commits_answer (n : Nat) (request : Option Request) (response : Response) :
    commits (answer n request response) = [] := by
  cases request <;> rfl

@[simp] theorem commits_returned (job : Job) (result : job.Result) (n : Nat) :
    commits (job.returned result n).2 = [] := by
  cases job <;> rfl

/-- What a step of a client does to the others, to itself and to the rows. The last of the
four fields is the refinement: what is committed is a step of the abstract system. -/
structure ClientMoves (cfg : Cfg) (s : State) (n : Nat) (move : Move Client) : Prop where
  frame : Frame (.client n) s.server move.server
  sound : Sound move.server
  safe : ClientSafe move.server n move.next
  effects : Effects cfg s.server.db (commits move.events) move.server.db

section Clients

variable {cfg : Cfg} {s : State} {n : Nat} {move : Move Client}

theorem ClientMoves.goOn {next : Client} {events : List Event} (sound : Sound s.server)
    (quiet : commits events = []) (safe : ClientSafe s.server n next) :
    ClientMoves cfg s n (s.goOn next events) :=
  ⟨Frame.refl _ _, sound, safe, Or.inl ⟨quiet, rfl⟩⟩

theorem ClientMoves.refuse {client : Client} {response : Response} (sound : Sound s.server)
    (idle : Idle s.server (.client n)) : ClientMoves cfg s n (s.refuse n client response) :=
  .goOn sound (commits_answer _ _ _) idle

/-- The end of a request whose transaction, if any, is rolled back. -/
theorem ClientMoves.rollback {events : List Event} (sound : Sound s.server)
    (quiet : commits events = []) :
    ClientMoves cfg s n ⟨s.server.rollback (.client n), .idle, s.serial, events⟩ :=
  ⟨Frame.rollback, sound.rollback _, Idle.rollback, Or.inl ⟨quiet, rfl⟩⟩

theorem lookupStep_moves {request : PurchaseRequest} (sound : Sound s.server)
    (idle : Idle s.server (.client n)) : ClientMoves cfg s n (lookupStep s n request) := by
  unfold lookupStep
  cases request.key? with
  | none => exact .refuse sound idle
  | some key =>
    dsimp only
    cases s.cached key with
    | none => exact .goOn sound rfl idle
    | some entry => exact .goOn sound rfl idle

theorem handleStep_moves {request : PurchaseRequest} {key : Text} (sound : Sound s.server)
    (idle : Idle s.server (.client n)) : ClientMoves cfg s n (handleStep cfg s n request key) := by
  unfold handleStep
  cases request.saleItemId with
  | none => exact .refuse sound idle
  | some saleItemId => exact .goOn sound rfl ⟨idle, trivial⟩

/-- A lookup of a user reads and leaves everything as it is. -/
theorem query_moves {identifier : NormalizedIdentifier} {choice : Choice}
    {answer : Except DbError (Option (Uuid × UserRow))} {server : Server} (sound : Sound s.server)
    (idle : Idle s.server (.client n))
    (ran : s.query n (.findUser identifier) choice = some (answer, server)) :
    Frame (.client n) s.server server ∧ Sound server ∧ Idle server (.client n) ∧
      server.db = s.server.db ∧
      ∀ id user, answer = .ok (some (id, user)) → Owner id identifier server.db := by
  obtain ⟨⟨frame, kept, idle⟩, result⟩ :=
    Lib.Server.auto_cases sound idle (plan_covered _ _ _) ran
  rcases result with ⟨e, got, rfl, same⟩ | ⟨ws, r, got, rfl, effect⟩
  · exact ⟨frame, kept, idle, same, fun _ _ h => by cases h⟩
  · have quiet : ws = [] := (Prod.mk.inj (Except.ok.inj got)).1.symm
    subst quiet
    refine ⟨frame, kept, idle, effect, fun id user h => ?_⟩
    cases h
    rw [effect]
    exact ⟨user, plan_findUser got⟩

theorem registerFindStep_moves {dto : RegisterDto} {identifier : NormalizedIdentifier}
    {choice : Choice} (sound : Sound s.server) (idle : Idle s.server (.client n))
    (taken : registerFindStep s n dto identifier choice = some move) :
    ClientMoves cfg s n move := by
  obtain ⟨answer, server, ran, turns⟩ := registerFindStep_turns taken
  obtain ⟨frame, kept, idle, same, -⟩ := query_moves sound idle ran
  rcases turns with ⟨response, rfl⟩ | ⟨-, rfl⟩
  · exact ⟨frame, kept, idle, Or.inl ⟨rfl, same⟩⟩
  · exact ⟨frame, kept, idle, Or.inl ⟨rfl, same⟩⟩

theorem resendFindStep_moves {input : CodeUnits} {identifier : NormalizedIdentifier} {choice : Choice}
    (sound : Sound s.server) (idle : Idle s.server (.client n))
    (taken : resendFindStep s n input identifier choice = some move) :
    ClientMoves cfg s n move := by
  obtain ⟨answer, server, ran, turns⟩ := resendFindStep_turns taken
  obtain ⟨frame, kept, idle, same, owner⟩ := query_moves sound idle ran
  rcases turns with ⟨response, rfl⟩ | ⟨id, user, found, -, rfl⟩
  · exact ⟨frame, kept, idle, Or.inl ⟨rfl, same⟩⟩
  · exact ⟨frame, kept, ⟨idle, owner id user found⟩, Or.inl ⟨rfl, same⟩⟩

theorem txStep_moves {job : Job} {started : Int} {body : Program job.Result} {choice : Choice}
    (sound : Sound s.server)
    (safe : SafeAt plan (fun _ => True) job.Errors job.Spec s.server (.client n) body)
    (taken : txStep s n job started body choice = some move) : ClientMoves cfg s n move := by
  obtain ⟨⟨progress, server⟩, ran, eq⟩ := Option.map_eq_some_iff.mp taken
  have frame := Tx.advance_frame sound ran
  have kept := Tx.advance_sound (fun s env db => plan_covered s env db) sound ran
  cases progress with
  | running next =>
    cases eq
    obtain ⟨safe, same⟩ := safe.advance trivial ran
    exact ⟨frame, kept, safe, Or.inl ⟨rfl, same⟩⟩
  | returned result =>
    cases eq
    obtain ⟨spec, idle⟩ := safe.returns ran
    refine ⟨frame, kept, ?_, Or.inr ⟨job.commit result, ?_, Job.spec_atomic spec⟩⟩
    · cases job <;> exact idle
    · show job.commit result :: commits (job.returned result n).2 = _
      rw [commits_returned]
  | threw e =>
    cases eq
    obtain ⟨same, idle⟩ := Tx.advance_threw ran
    exact ⟨frame, kept, idle, Or.inl ⟨commits_answer _ _ _, same⟩⟩

/-- A call after a statement that is a transaction of its own: the statement failed,
or it has written and the call goes on. -/
theorem afterQuery_moves {st : Stmt} {choice : Choice} {call : AuthCall}
    {next : st.Result → Move Client} (sound : Sound s.server) (idle : Idle s.server (.client n))
    (taken : afterQuery s n call (s.query n st choice) next = some move)
    (goesOn : ∀ ws r server,
      (plan st (s.env (.client n) s.clock choice) s.server.db).answer = .ok (ws, r) →
      Frame (.client n) s.server server → Sound server → Idle server (.client n) →
      server.db = applyAll s.server.db ws → ClientMoves cfg s n { next r with server := server }) :
    ClientMoves cfg s n move := by
  obtain ⟨⟨answer, server⟩, ran, eq⟩ := Option.map_eq_some_iff.mp taken
  obtain ⟨⟨frame, kept, idle⟩, result⟩ :=
    Lib.Server.auto_cases sound idle (plan_covered _ _ _) ran
  rcases result with ⟨e, got, rfl, same⟩ | ⟨ws, r, got, rfl, effect⟩
  · cases eq
    exact ⟨frame, kept, idle, Or.inl ⟨commits_answer _ _ _, same⟩⟩
  · cases eq
    exact goesOn ws r server got frame kept idle effect

/-- A call after a read. -/
theorem afterRead_moves {st : Stmt} {choice : Choice} {call : AuthCall}
    {next : st.Result → Move Client} (sound : Sound s.server) (idle : Idle s.server (.client n))
    (taken : afterQuery s n call (s.query n st choice) next = some move)
    (reads : ∀ ws r, (plan st (s.env (.client n) s.clock choice) s.server.db).answer = .ok (ws, r) →
      ws = [] ∧ commits (next r).events = [] ∧
        ∀ srv, Idle srv (.client n) → srv.db = s.server.db → ClientSafe srv n (next r).next) :
    ClientMoves cfg s n move := by
  refine afterQuery_moves sound idle taken fun ws r server got frame kept idle effect => ?_
  obtain ⟨rfl, quiet, safe⟩ := reads ws r got
  exact ⟨frame, kept, safe server idle effect, Or.inl ⟨quiet, effect⟩⟩

theorem getStep_moves {use : TokenUse} {token : Text} (sound : Sound s.server)
    (idle : Idle s.server (.client n)) : ClientMoves cfg s n (getStep cfg s n use token) := by
  have unknown : ClientMoves cfg s n (unknownToken s n token use) := by
    cases use <;> exact .goOn sound rfl idle
  unfold getStep
  split
  · exact unknown
  · split
    · exact unknown
    · split
      · exact .goOn sound rfl idle
      · exact unknown

theorem authStep_moves {choice : Choice} {call : AuthCall} (sound : Sound s.server)
    (safe : AuthSafe s.server n call) (taken : authStep cfg s n choice call = some move) :
    ClientMoves cfg s n move := by
  have idle := safe.idle
  cases call with
  | loginFind dto identifier =>
    refine afterRead_moves sound idle taken fun ws r got => ?_
    cases got
    exact ⟨rfl, rfl, fun _ idle _ => idle⟩
  | loginCompare dto user =>
    cases taken
    unfold loginCompareStep
    split
    · split
      · exact .refuse sound idle
      · exact .goOn sound rfl idle
    · exact .refuse sound idle
  | verifyFind dto identifier =>
    refine afterRead_moves sound idle taken fun ws r got => ?_
    cases got
    cases (s.server.db.users.select fun _ user => identifier.names user).head? with
    | none => exact ⟨rfl, rfl, fun _ idle _ => idle⟩
    | some found => exact ⟨rfl, rfl, fun _ idle _ => idle⟩
  | verifyClock dto user =>
    cases taken
    exact .goOn sound rfl idle
  | verifyRead dto user now =>
    refine afterRead_moves sound idle taken fun ws r got => ?_
    cases r with
    | none =>
      cases (Prod.mk.inj (Except.ok.inj got)).1
      exact ⟨rfl, rfl, fun _ idle _ => idle⟩
    | some found =>
      obtain ⟨there, valid, -⟩ := plan_findValidOtp got
      cases (Prod.mk.inj (Except.ok.inj got)).1
      refine ⟨rfl, rfl, fun srv idle same => ⟨idle, found.2, ?_, ?_⟩⟩
      · rw [same]
        exact there
      · simp only [OtpRow.valid, Bool.and_eq_true, decide_eq_true_eq] at valid
        exact valid.1.1.1
  | verifyCompare dto user otpId otp =>
    cases taken
    unfold verifyCompareStep
    split
    · exact .refuse sound idle
    · split
      · exact .goOn sound rfl safe
      · exact .goOn sound rfl idle
  | verifyCount dto otpId =>
    refine afterQuery_moves sound idle taken fun ws r server got frame kept idle effect => ?_
    obtain ⟨rfl, otp, found, -⟩ := plan_incrementAttempts got
    refine ⟨frame, kept, idle, Or.inr ⟨.account (.attempted otpId), rfl, .account ⟨⟨otp, found⟩, ?_⟩⟩⟩
    exact effect
  | get use token =>
    cases taken
    exact getStep_moves sound idle
  | del use token jti session => cases taken
  | revoked token =>
    cases taken
    exact .goOn sound rfl idle
  | issue grant =>
    cases taken
    exact .goOn sound rfl idle
  | set grant pair jti hash => cases taken
  | reply grant pair =>
    cases taken
    exact .goOn sound rfl idle
  | disabling user =>
    refine afterQuery_moves sound idle taken fun ws r server got frame kept idle effect => ?_
    obtain ⟨rfl, row, found⟩ := plan_updateStatus got
    refine ⟨frame, kept, idle, Or.inr ⟨.account (.disabled user), rfl, .account ⟨⟨row, found⟩, ?_⟩⟩⟩
    exact effect

/-- What a step of a client does: its own stage and session go on, and all others are spared.
By cases on the stage. -/
theorem clientStep_moves {choice : Choice} {client : Client} (sound : Sound s.server)
    (safe : ClientSafe s.server n client) (taken : clientStep cfg s n choice client = some move) :
    ClientMoves cfg s n move := by
  cases client with
  | idle => cases taken
  | lookup request =>
    cases taken
    exact lookupStep_moves sound safe
  | handle request key =>
    cases taken
    exact handleStep_moves sound safe
  | registerFind dto identifier => exact registerFindStep_moves sound safe taken
  | registerPrepare dto identifier =>
    cases taken
    exact .goOn sound rfl ⟨safe, trivial⟩
  | resendFind input identifier => exact resendFindStep_moves sound safe taken
  | resendPrepare input user identifier =>
    cases taken
    exact .goOn sound rfl ⟨safe.1, safe.2⟩
  | auth call => exact authStep_moves sound safe taken
  | begin_ job =>
    cases taken
    exact .goOn sound rfl (SafeAt.start safe.1 job.stable_known safe.2 job.program_safe)
  | tx job started body => exact txStep_moves sound safe taken
  | deliver request key response answered stored =>
    cases answered with
    | true => cases taken
    | false =>
      cases taken
      refine .goOn sound rfl ?_
      split <;> exact safe

theorem clientFail_moves {client : Client} (sound : Sound s.server)
    (taken : clientFail s n client = some move) : ClientMoves cfg s n move := by
  cases client <;> cases taken <;> exact .rollback sound (commits_answer _ _ _)

/-- What a client that takes a request does first. -/
inductive Opens (s : State) (n : Nat) : Start → Move Client → Prop where
  | asks {request : PurchaseRequest} : Opens s n (.purchase request) (s.goOn (.lookup request) [])
  | creates {input : CreateSaleInput} :
      Opens s n (.create input) (s.goOn (.begin_ (.create input)) [])
  | registers {dto : RegisterDto} {identifier : NormalizedIdentifier} :
      Opens s n (.register dto) (s.goOn (.registerFind dto identifier) [])
  | resends {input : CodeUnits} {identifier : NormalizedIdentifier} :
      Opens s n (.resend input) (s.goOn (.resendFind input identifier) [])
  | calls {start : Start} {call : AuthCall}
      (safe : ∀ srv, Idle srv (.client n) → ClientSafe srv n (.auth call)) :
      Opens s n start (s.goOn (.auth call) [])
  | refuses {start : Start} {request : Request} {response : Response}
      (other : ∀ r, request ≠ .purchase r) :
      Opens s n start (s.goOn .idle [.answered n request response])

theorem startClient_opens {start : Start} (is : startClient cfg s n start = move) :
    Opens s n start move := by
  subst is
  cases start with
  | purchase request => exact .asks
  | create input => exact .creates
  | register dto =>
    dsimp only [startClient]
    split
    · exact .registers
    · exact .refuses nofun
  | resend input =>
    dsimp only [startClient]
    split
    · exact .resends
    · exact .refuses nofun
  | auth request =>
    cases request with
    | login dto =>
      dsimp only [startClient, startAuth]
      split
      · exact .calls fun _ idle => idle
      · exact .refuses nofun
    | verifyOtp dto =>
      dsimp only [startClient, startAuth]
      split
      · exact .calls fun _ idle => idle
      · exact .refuses nofun
    | refresh token => exact .calls fun _ idle => idle
    | logout token => exact .calls fun _ idle => idle
  | disable user => exact .calls fun _ idle => idle

theorem startClient_moves (sound : Sound s.server) (idle : Idle s.server (.client n))
    (start : Start) : ClientMoves cfg s n (startClient cfg s n start) := by
  generalize is : startClient cfg s n start = move
  cases startClient_opens is with
  | creates => exact .goOn sound rfl ⟨idle, trivial⟩
  | calls safe => exact .goOn sound rfl (safe _ idle)
  | _ => exact .goOn sound rfl idle

end Clients

/-! ### Steps of handlers -/

/-- The handler session after a step of a handler call. -/
def HandledSafe (srv : Server) (w : Nat) : Handled → Prop
  | .calling delivery => DeliverySafe srv w delivery
  | .finished _ => Idle srv (.handler w)

/-- What a step of a handler call does to the others, to itself and to the rows. It goes on in
a session of its own, also when the tick is lost. -/
structure HandlerMoves (cfg : Cfg) (s : State) (w : Nat) (move : Move Handled) : Prop where
  frame : Frame (.handler w) s.server move.server
  sound : Sound move.server
  safe : HandledSafe move.server w move.next
  effects : Effects cfg s.server.db (commits move.events) move.server.db

section Handlers

variable {cfg : Cfg} {s : State} {w : Nat} {move : Move Handled} {choice : Choice}

theorem HandlerMoves.goOn {next : Handled} {events : List Event} (sound : Sound s.server)
    (quiet : commits events = []) (safe : HandledSafe s.server w next) :
    HandlerMoves cfg s w (s.goOn next events) :=
  ⟨Frame.refl _ _, sound, safe, Or.inl ⟨quiet, rfl⟩⟩

/-- The read of the delivery: it has failed, finds the code delivered, or goes on to deliver it. -/
theorem otpFindStep_turns {otpId : Uuid} (taken : otpFindStep cfg s w otpId choice = some move) :
    ∃ answer server, s.handlerAuto w (.findOtp otpId) choice = some (answer, server) ∧
      ((∃ message, move = ⟨server, .finished (.error message), s.serial, []⟩) ∨
        (∃ otp, answer = .ok (some otp) ∧ otp.sent = true ∧
          move = ⟨server, .finished (.ok ()), s.serial, []⟩) ∨
        ∃ otp, answer = .ok (some otp) ∧ otp.sent = false ∧
          move = ⟨server, .calling (.otpSend otpId otp.encryptedCode), s.serial, []⟩) := by
  obtain ⟨⟨answer, server⟩, ran, eq⟩ := Option.map_eq_some_iff.mp taken
  refine ⟨answer, server, ran, ?_⟩
  rcases answer with e | _ | otp
  · exact Or.inl ⟨_, eq.symm⟩
  · exact Or.inl ⟨_, eq.symm⟩
  · dsimp only at eq
    cases sent : otp.sent with
    | true =>
      rw [sent] at eq
      exact Or.inr (Or.inl ⟨otp, rfl, sent, eq.symm⟩)
    | false =>
      rw [sent] at eq
      exact Or.inr (Or.inr ⟨otp, rfl, sent, eq.symm⟩)

theorem otpFindStep_moves {otpId : Uuid} (sound : Sound s.server)
    (idle : Idle s.server (.handler w)) (taken : otpFindStep cfg s w otpId choice = some move) :
    HandlerMoves cfg s w move := by
  obtain ⟨answer, server, ran, turns⟩ := otpFindStep_turns taken
  obtain ⟨⟨frame, kept, idle⟩, result⟩ :=
    Lib.Server.auto_cases sound idle (plan_covered _ _ _) ran
  have same : server.db = s.server.db := by
    rcases result with ⟨e, got, rfl, same⟩ | ⟨ws, r, got, rfl, effect⟩
    · exact same
    · have quiet : ws = [] := (Prod.mk.inj (Except.ok.inj got)).1.symm
      subst quiet
      exact effect
  rcases turns with ⟨message, rfl⟩ | ⟨otp, -, -, rfl⟩ | ⟨otp, -, -, rfl⟩
  · exact ⟨frame, kept, idle, Or.inl ⟨rfl, same⟩⟩
  · exact ⟨frame, kept, idle, Or.inl ⟨rfl, same⟩⟩
  · exact ⟨frame, kept, idle, Or.inl ⟨rfl, same⟩⟩

theorem otpSendStep_moves {row : ClaimedRow} {otpId : Uuid} {encryptedCode : String}
    (sound : Sound s.server) (idle : Idle s.server (.handler w)) :
    HandlerMoves cfg s w (otpSendStep cfg s row otpId encryptedCode) := by
  unfold otpSendStep
  cases cfg.decrypt encryptedCode with
  | error message => exact .goOn sound rfl idle
  | ok code => exact .goOn sound rfl idle

theorem otpMarkStep_moves {otpId : Uuid} (sound : Sound s.server)
    (idle : Idle s.server (.handler w)) (taken : otpMarkStep cfg s w otpId choice = some move) :
    HandlerMoves cfg s w move := by
  obtain ⟨⟨answer, server⟩, ran, eq⟩ := Option.map_eq_some_iff.mp taken
  obtain ⟨⟨frame, kept, idle⟩, result⟩ :=
    Lib.Server.auto_cases sound idle (plan_covered _ _ _) ran
  rcases result with ⟨e, got, rfl, same⟩ | ⟨ws, r, got, rfl, effect⟩
  · cases eq
    exact ⟨frame, kept, idle, Or.inl ⟨rfl, same⟩⟩
  · obtain ⟨rfl, row, found⟩ := plan_updateSent got
    cases eq
    refine ⟨frame, kept, idle, Or.inr ⟨.otpSent otpId, rfl, ?_⟩⟩
    rw [effect]
    exact .otpSent found

theorem settleStep_moves {row : ClaimedRow} {saleId : Uuid} {started : Int}
    {body : Program (Option (List Unsold))} (sound : Sound s.server)
    (safe : DeliverySafe s.server w (.settleTx saleId started body))
    (taken : settleStep cfg s w row saleId started body choice = some move) :
    HandlerMoves cfg s w move := by
  obtain ⟨⟨progress, server⟩, ran, eq⟩ := Option.map_eq_some_iff.mp taken
  have frame := Tx.advance_frame sound ran
  have kept := Tx.advance_sound (fun s env db => plan_covered s env db) sound ran
  cases progress with
  | running next =>
    cases eq
    obtain ⟨safe, same⟩ := SafeAt.advance safe rfl ran
    exact ⟨frame, kept, safe, Or.inl ⟨rfl, same⟩⟩
  | returned result =>
    cases eq
    obtain ⟨spec, idle⟩ := SafeAt.returns safe ran
    refine ⟨frame, kept, idle, Or.inr ⟨.settled saleId started result, ?_, .settled spec⟩⟩
    cases result <;> rfl
  | threw e =>
    cases eq
    obtain ⟨same, idle⟩ := Tx.advance_threw ran
    exact ⟨frame, kept, idle, Or.inl ⟨rfl, same⟩⟩

theorem deliverStep_moves {row : ClaimedRow} {delivery : Delivery} (sound : Sound s.server)
    (safe : DeliverySafe s.server w delivery)
    (taken : deliverStep cfg s w row choice delivery = some move) : HandlerMoves cfg s w move := by
  cases delivery with
  | notify kind =>
    cases taken
    exact .goOn sound rfl safe
  | otpFind otpId => exact otpFindStep_moves sound safe taken
  | otpSend otpId encryptedCode =>
    cases taken
    exact otpSendStep_moves sound safe
  | otpMark otpId => exact otpMarkStep_moves sound safe taken
  | settleBegin saleId =>
    cases taken
    refine .goOn sound rfl (SafeAt.start safe (Stable.const _ _) trivial ?_)
    exact (settle_safe (fun _ _ => trivial) saleId s.clock False).weaken
      (fun _ _ _ _ _ weaker post db facts => post db (weaker db facts)) fun _ _ e => e.elim
  | settleTx saleId started body => exact settleStep_moves sound safe taken

end Handlers

/-! ### Steps of workers -/

/-- What a step of a worker does to the others, to itself and to the rows. It may use both
sessions of the worker, first that of the handler. -/
structure WorkerMoves (cfg : Cfg) (s : State) (w : Nat) (move : Move Worker) : Prop where
  frame : ∃ mid, Frame (.handler w) s.server mid ∧ Frame (.tick w) mid move.server
  sound : Sound move.server
  safe : WorkerSafe cfg move.server w move.next
  effects : Effects cfg s.server.db (commits move.events) move.server.db

theorem applyAll_changes (cfg : Cfg) (lines : List Line) (db : Db) :
    applyAll db (lines.map fun line => Write.changeOutbox line.claimed.id (line.change cfg)) =
      { db with outbox := db.outbox.modifyAll (lines.map (Line.update cfg)) } := by
  induction lines generalizing db with
  | nil => rfl
  | cons line lines ih =>
    rw [List.map_cons, Lib.applyAll_cons, ih]
    rfl

section Workers

variable {cfg : Cfg} {s : State} {w : Nat} {move : Move Worker} {choice : Choice} {started : Int}

/-- A tick knows the same at two stages with the same lines and rows. -/
theorem TickSafe.congr {srv : Server} {stage stage' : TickStage}
    (safe : TickSafe cfg srv w started stage) (done : stage'.done = stage.done)
    (claimed : stage'.claimed = stage.claimed) : TickSafe cfg srv w started stage' := by
  obtain ⟨holds, locked, nodup, due⟩ := safe
  rw [← done, ← claimed] at holds
  rw [← claimed] at locked nodup due
  exact ⟨holds, locked, nodup, due⟩

theorem WorkerMoves.goOn {next : Worker} {events : List Event} (sound : Sound s.server)
    (quiet : commits events = []) (safe : WorkerSafe cfg s.server w next) :
    WorkerMoves cfg s w (s.goOn next events) :=
  ⟨⟨_, Frame.refl _ _, Frame.refl _ _⟩, sound, safe, Or.inl ⟨quiet, rfl⟩⟩

/-- The end of a tick whose transaction is rolled back. -/
theorem WorkerMoves.rollback (sound : Sound s.server) (idle : Idle s.server (.handler w))
    {server : Server} (same : server = s.server) :
    WorkerMoves cfg s w ⟨server.rollback (.tick w), .idle, s.serial, []⟩ := by
  subst same
  exact ⟨⟨_, Frame.refl _ _, Frame.rollback⟩, sound.rollback _,
    ⟨Idle.rollback, idle.frame Frame.rollback (by simp)⟩, Or.inl ⟨rfl, rfl⟩⟩

theorem claimStep_moves (sound : Sound s.server) (idle : Idle s.server (.handler w))
    (safe : TickSafe cfg s.server w started .claim)
    (taken : claimStep cfg s w started choice = some move) : WorkerMoves cfg s w move := by
  obtain ⟨⟨answer, server⟩, ran, eq⟩ := Option.map_eq_some_iff.mp taken
  have frame := Frame.statement ran
  have kept := sound.statement (plan_covered _ _ _) ran
  rcases Lib.Server.statement_cases ran with ⟨e, _, rfl, rfl⟩ | ⟨ws, rows, got, rfl, _, rfl⟩
  · cases eq
    exact .rollback sound idle rfl
  · obtain ⟨⟨L, holds⟩, -, -, -⟩ := safe
    have reads : s.server.view (.tick w) = s.server.db := by
      rw [Lib.Server.view, holds.writes]
      rfl
    rw [reads] at got frame kept
    obtain ⟨rfl, locks, nodup, known⟩ := plan_claim got
    cases eq
    rw [reads]
    refine ⟨⟨_, Frame.refl _ _, frame⟩, kept, ⟨?_, idle.frame frame (by simp)⟩, Or.inl ⟨rfl, rfl⟩⟩
    have locked : ∀ c ∈ rows, (Sid.tick w, ⟨.outbox c.id, .update⟩) ∈
        (s.server.extend (.tick w) (plan (.claim cfg.batchSize) (s.env (.tick w) started choice)
          s.server.db).locks []).locks := by
      intro c mem
      rw [Lib.Server.mem_locks_extend, locks]
      exact Or.inr ⟨rfl, List.mem_map.mpr ⟨c, mem, rfl⟩⟩
    have stable : Stable Write (rows.map (fun c => ⟨.outbox c.id, .update⟩) ++ L) (AsClaimed rows) :=
      Stable.forall fun c => Stable.forall fun mem => stable_outbox
        (Guards.of_update (List.mem_append_left _ (List.mem_map.mpr ⟨c, mem, rfl⟩)))
    rw [← locks] at stable
    exact ⟨⟨_, holds.extend stable fun c mem => (known c mem).1⟩, locked, nodup,
      fun c mem => (known c mem).2⟩

theorem recordStep_moves {row : ClaimedRow} {result : Delivered} {todo : List ClaimedRow}
    {done : List Line} (sound : Sound s.server) (idle : Idle s.server (.handler w))
    (safe : TickSafe cfg s.server w started (.record row result todo done))
    (taken : recordStep cfg s w started row result todo done choice = some move) :
    WorkerMoves cfg s w move := by
  obtain ⟨⟨answer, server⟩, ran, eq⟩ := Option.map_eq_some_iff.mp taken
  have frame := Frame.statement ran
  have kept := sound.statement (plan_covered _ _ _) ran
  rcases Lib.Server.statement_cases ran with ⟨e, _, rfl, rfl⟩ | ⟨ws, r, got, rfl, _, rfl⟩
  · cases eq
    exact .rollback sound idle rfl
  · obtain rfl := plan_updateOutbox got
    cases eq
    refine ⟨⟨_, Frame.refl _ _, frame⟩, kept, ⟨?_, idle.frame frame (by simp)⟩, Or.inl ⟨rfl, rfl⟩⟩
    obtain ⟨⟨L, holds⟩, locked, nodup, due⟩ := safe
    have claimed : TickStage.claimed (.next todo (done ++ [⟨row, result, s.now, choice.jitter⟩])) =
        TickStage.claimed (.record row result todo done) := by
      simp [TickStage.claimed]
    rw [← claimed] at locked nodup due
    refine ⟨?_, fun c mem => Lib.Server.mem_locks_extend.mpr (Or.inl (locked c mem)), nodup, due⟩
    rw [claimed, TickStage.done, List.map_append]
    exact ⟨_, holds.extend (holds.stable.mono fun l mem => List.mem_append_right _ mem) holds.facts⟩

/-- A handler call that goes on or ends keeps its row and the recorded lines. -/
theorem deliver_moves {row : ClaimedRow} {delivery : Delivery} {todo : List ClaimedRow}
    {done : List Line} {alive : Bool} (sound : Sound s.server)
    (safe : WorkerSafe cfg s.server w (.polling started alive (.deliver row delivery todo done)))
    {moved : Move Handled} (taken : deliverStep cfg s w row choice delivery = some moved) :
    WorkerMoves cfg s w
      { moved with next := .polling started alive (moved.next.stage row todo done) } := by
  have handler : DeliverySafe s.server w delivery := by
    cases alive with
    | true => exact safe.2
    | false => exact safe.2
  obtain ⟨frame, kept, after, effects⟩ := deliverStep_moves sound handler taken
  refine ⟨⟨_, frame, Frame.refl _ _⟩, kept, ?_, effects⟩
  have handled : HandlerSafe moved.server w (moved.next.stage row todo done) := by
    cases next : moved.next with
    | calling delivery =>
      rw [next] at after
      exact after
    | finished result =>
      rw [next] at after
      exact after
  cases alive with
  | true =>
    refine ⟨(safe.1.frame frame (by simp)).congr ?_ ?_, handled⟩ <;> cases moved.next <;> rfl
  | false => exact ⟨safe.1.frame frame (by simp), handled⟩

/-- What a step of a worker does. By cases on the stage, with a handler call as a step of its
own session. -/
theorem workerStep_moves {worker : Worker} (sound : Sound s.server)
    (safe : WorkerSafe cfg s.server w worker)
    (taken : workerStep cfg s w choice worker = some move) : WorkerMoves cfg s w move := by
  cases worker with
  | idle => cases taken
  | polling started alive stage =>
    cases stage with
    | deliver row delivery todo done =>
      obtain ⟨moved, ran, rfl⟩ := Option.map_eq_some_iff.mp taken
      exact deliver_moves sound safe ran
    | claim =>
      cases alive with
      | true => exact claimStep_moves sound safe.2 safe.1 taken
      | false =>
        cases taken
        exact .goOn sound rfl safe
    | record row result todo done =>
      cases alive with
      | true => exact recordStep_moves sound safe.2 safe.1 taken
      | false =>
        cases taken
        exact .goOn sound rfl safe
    | next todo done =>
      cases todo with
      | cons row todo =>
        cases taken
        have handler : Idle s.server (.handler w) := by
          cases alive with
          | true => exact safe.2
          | false => exact safe.2
        have begun : HandlerSafe s.server w (beginDelivery row todo done) := by
          unfold beginDelivery dispatch
          cases row.row.event <;> exact handler
        refine .goOn sound rfl ?_
        cases alive with
        | true =>
          refine ⟨TickSafe.congr safe.1 ?_ ?_, begun⟩ <;>
            (unfold beginDelivery; split <;> rfl)
        | false => exact ⟨safe.1, begun⟩
      | nil =>
        cases alive with
        | false =>
          cases taken
          exact .goOn sound rfl safe
        | true =>
          cases taken
          obtain ⟨⟨⟨L, holds⟩, -, nodup, due⟩, handler⟩ := safe
          have frame : Frame (.tick w) s.server (s.server.commit (.tick w)) := Frame.commit sound
          refine ⟨⟨_, Frame.refl _ _, frame⟩, sound.commit _,
            ⟨Idle.commit, Idle.frame handler frame (by simp)⟩,
            Or.inr ⟨.ticked done, rfl, .ticked ?_⟩⟩
          have claimed : TickStage.claimed (.next [] done) = done.map Line.claimed := by
            simp [TickStage.claimed]
          have rows := holds.facts
          rw [claimed] at nodup due rows
          refine
            { claimed := fun line mem => rows _ (List.mem_map.mpr ⟨line, mem, rfl⟩)
              nodup := by simpa [List.map_map, Function.comp_def] using nodup
              pending := fun line mem => (due _ (List.mem_map.mpr ⟨line, mem, rfl⟩)).1
              effect := ?_ }
          rw [Lib.Server.commit_db, holds.writes]
          exact applyAll_changes cfg done _

theorem workerFail_moves {message : String} {worker : Worker} (sound : Sound s.server)
    (safe : WorkerSafe cfg s.server w worker)
    (taken : workerFail s w message worker = some move) : WorkerMoves cfg s w move := by
  cases worker with
  | idle => cases taken
  | polling started alive stage =>
    cases stage with
    | deliver row delivery todo done =>
      cases taken
      refine ⟨⟨_, Frame.rollback, Frame.refl _ _⟩, sound.rollback _, ?_, Or.inl ⟨rfl, rfl⟩⟩
      cases alive with
      | true => exact ⟨(safe.1.frame Frame.rollback (by simp)).congr rfl rfl, Idle.rollback⟩
      | false => exact ⟨safe.1.frame Frame.rollback (by simp), Idle.rollback⟩
    | _ => cases taken

theorem loseTick_moves {worker : Worker} (sound : Sound s.server)
    (safe : WorkerSafe cfg s.server w worker) (taken : loseTick s w worker = some move) :
    WorkerMoves cfg s w move := by
  cases worker with
  | idle => cases taken
  | polling started alive stage =>
    cases alive with
    | false => cases taken
    | true =>
      cases taken
      exact ⟨⟨_, Frame.refl _ _, Frame.rollback⟩, sound.rollback _,
        ⟨Idle.rollback, safe.2.frame Frame.rollback (by simp)⟩, Or.inl ⟨rfl, rfl⟩⟩

theorem workerCrash_moves (sound : Sound s.server) : WorkerMoves cfg s w (workerCrash s w) :=
  ⟨⟨_, Frame.rollback, Frame.rollback⟩, (sound.rollback _).rollback _,
    ⟨Idle.rollback, Idle.rollback.frame Frame.rollback (by simp)⟩, Or.inl ⟨rfl, rfl⟩⟩

end Workers

/-! ### Steps of the system -/

section Steps

variable {cfg : Cfg} {s s' : State}

theorem ClientMoves.coherent {n : Nat} {move : Move Client} (moves : ClientMoves cfg s n move)
    (coherent : Coherent cfg s) : Coherent cfg (s.moveClient n move) := by
  refine ⟨moves.sound, fun n' => ?_, fun w => ?_⟩
  · show ClientSafe move.server n' (Function.update s.clients n move.next n')
    by_cases same : n' = n
    · subst same
      rw [Function.update_self]
      exact moves.safe
    · rw [Function.update_of_ne same]
      exact (coherent.clients n').frame moves.frame (by simp [same])
  · exact (coherent.workers w).frame moves.frame (by simp) (by simp)

theorem WorkerMoves.coherent {w : Nat} {move : Move Worker} (moves : WorkerMoves cfg s w move)
    (coherent : Coherent cfg s) : Coherent cfg (s.moveWorker w move) := by
  obtain ⟨mid, handler, tick⟩ := moves.frame
  refine ⟨moves.sound, fun n => ?_, fun w' => ?_⟩
  · exact ((coherent.clients n).frame handler (by simp)).frame tick (by simp)
  · show WorkerSafe cfg move.server w' (Function.update s.workers w move.next w')
    by_cases same : w' = w
    · subst same
      rw [Function.update_self]
      exact moves.safe
    · rw [Function.update_of_ne same]
      exact ((coherent.workers w').frame handler (by simp) (by simp [same])).frame tick
        (by simp [same]) (by simp)

/-- A client without a transaction may be replaced by another one. -/
theorem Coherent.replace (coherent : Coherent cfg s) {n : Nat} {client : Client}
    (idle : Idle s.server (.client n)) (quiet : ClientSafe s.server n client)
    {redis : Text → Option Entry} {tokens : Text → Option Session} :
    Coherent cfg { s with
      redis := redis
      tokens := tokens
      clients := Function.update s.clients n client } := by
  refine ⟨coherent.sound, fun n' => ?_, coherent.workers⟩
  show ClientSafe s.server n' (Function.update s.clients n client n')
  by_cases same : n' = n
  · subst same
    rw [Function.update_self]
    exact quiet
  · rw [Function.update_of_ne same]
    exact coherent.clients n'

/-- How a step changes the state: time passes, the cache or the token store executes
a write, or one process moves. -/
inductive Stepped (cfg : Cfg) (s : State) : Label → State → Prop where
  | elapse (duration : Nat) : Stepped cfg s (.elapse duration) { s with clock := s.clock + duration }
  | store {n : Nat} {request : PurchaseRequest} {key : Text} {response : Response} {answered : Bool}
      (at_ : s.clients n = .deliver request key response answered false) :
      Stepped cfg s (.store n) { s with
        redis := Function.update s.redis key (some ⟨response, s.clock + entryTtl, request⟩)
        clients := Function.update s.clients n
          (if answered then .idle else .deliver request key response answered true) }
  | command {n : Nat} {call next : AuthCall} {tokens : Text → Option Session}
      (at_ : s.clients n = .auth call) (sent : call.command cfg s = some (tokens, next)) :
      Stepped cfg s (.command n) { s with
        tokens := tokens
        clients := Function.update s.clients n (.auth next) }
  | start {n : Nat} {l : Label} (start : Start) (at_ : s.clients n = .idle)
      (label : l = match start with
        | .purchase request => .purchase n request
        | .create input => .create n input
        | .register dto => .register n dto
        | .resend identifier => .resend n identifier
        | .auth request => .auth n request
        | .disable user => .disable n user) :
      Stepped cfg s l (s.moveClient n (startClient cfg s n start))
  | client {n : Nat} {choice : Choice} {move : Move Client}
      (taken : clientStep cfg s n choice (s.clients n) = some move) :
      Stepped cfg s (.client n choice) (s.moveClient n move)
  | clientFail {n : Nat} {move : Move Client} (taken : clientFail s n (s.clients n) = some move) :
      Stepped cfg s (.clientFail n) (s.moveClient n move)
  | clientCrash (n : Nat) : Stepped cfg s (.clientCrash n) (s.moveClient n (clientCrash s n))
  | poll {w : Nat} (at_ : s.workers w = .idle) :
      Stepped cfg s (.poll w) (s.moveWorker w (s.goOn (.polling s.clock true .claim) []))
  | worker {w : Nat} {choice : Choice} {move : Move Worker}
      (taken : workerStep cfg s w choice (s.workers w) = some move) :
      Stepped cfg s (.worker w choice) (s.moveWorker w move)
  | workerFail {w : Nat} {message : String} {move : Move Worker}
      (taken : workerFail s w message (s.workers w) = some move) :
      Stepped cfg s (.workerFail w message) (s.moveWorker w move)
  | loseTick {w : Nat} {move : Move Worker} (taken : loseTick s w (s.workers w) = some move) :
      Stepped cfg s (.loseTick w) (s.moveWorker w move)
  | workerCrash (w : Nat) : Stepped cfg s (.workerCrash w) (s.moveWorker w (workerCrash s w))

theorem startStep_cases {n : Nat} {start : Start} (taken : startStep cfg s n start = some s') :
    s.clients n = .idle ∧ s' = s.moveClient n (startClient cfg s n start) := by
  unfold startStep at taken
  split at taken
  · rename_i at_
    exact ⟨at_, (Option.some.inj taken).symm⟩
  · cases taken

/-- Everything that a step of the system can do. -/
theorem step_cases {l : Label} (taken : step cfg s l = some s') : Stepped cfg s l s' := by
  cases l with
  | elapse duration =>
    cases taken
    exact .elapse duration
  | purchase n request =>
    obtain ⟨at_, rfl⟩ := startStep_cases taken
    exact .start (.purchase request) at_ rfl
  | create n input =>
    obtain ⟨at_, rfl⟩ := startStep_cases taken
    exact .start (.create input) at_ rfl
  | register n dto =>
    obtain ⟨at_, rfl⟩ := startStep_cases taken
    exact .start (.register dto) at_ rfl
  | resend n identifier =>
    obtain ⟨at_, rfl⟩ := startStep_cases taken
    exact .start (.resend identifier) at_ rfl
  | auth n request =>
    obtain ⟨at_, rfl⟩ := startStep_cases taken
    exact .start (.auth request) at_ rfl
  | disable n user =>
    obtain ⟨at_, rfl⟩ := startStep_cases taken
    exact .start (.disable user) at_ rfl
  | client n choice =>
    obtain ⟨move, ran, rfl⟩ := Option.map_eq_some_iff.mp taken
    exact .client ran
  | store n =>
    dsimp only [step, storeStep] at taken
    split at taken
    · rename_i at_
      cases taken
      exact .store at_
    · cases taken
  | command n =>
    dsimp only [step, commandStep] at taken
    split at taken
    · rename_i call at_
      obtain ⟨⟨tokens, next⟩, sent, rfl⟩ := Option.map_eq_some_iff.mp taken
      exact .command at_ sent
    · cases taken
  | clientFail n =>
    obtain ⟨move, ran, rfl⟩ := Option.map_eq_some_iff.mp taken
    exact .clientFail ran
  | clientCrash n =>
    cases taken
    exact .clientCrash n
  | poll w =>
    dsimp only [step, pollStep] at taken
    split at taken
    · rename_i at_
      cases taken
      exact .poll at_
    · cases taken
  | worker w choice =>
    obtain ⟨move, ran, rfl⟩ := Option.map_eq_some_iff.mp taken
    exact .worker ran
  | workerFail w message =>
    obtain ⟨move, ran, rfl⟩ := Option.map_eq_some_iff.mp taken
    exact .workerFail ran
  | loseTick w =>
    obtain ⟨move, ran, rfl⟩ := Option.map_eq_some_iff.mp taken
    exact .loseTick ran
  | workerCrash w =>
    cases taken
    exact .workerCrash w

/-- A step of a coherent system moves at most one process, as its lemmas say. -/
theorem Stepped.moves {l : Label} (stepped : Stepped cfg s l s') (coherent : Coherent cfg s) :
    (s'.server = s.server ∧ s'.history = s.history ∧ Coherent cfg s') ∨
    (∃ n move, s' = s.moveClient n move ∧ ClientMoves cfg s n move) ∨
    ∃ w move, s' = s.moveWorker w move ∧ WorkerMoves cfg s w move := by
  have sound := coherent.sound
  cases stepped with
  | elapse duration => exact Or.inl ⟨rfl, rfl, sound, coherent.clients, coherent.workers⟩
  | @store n request key response answered at_ =>
    have idle : Idle s.server (.client n) := by
      have safe := coherent.clients n
      rw [at_] at safe
      exact safe
    refine Or.inl ⟨rfl, rfl, coherent.replace idle ?_⟩
    cases answered <;> exact idle
  | @command n call next tokens at_ sent =>
    have idle : Idle s.server (.client n) := by
      have safe := coherent.clients n
      rw [at_] at safe
      exact safe.idle
    refine Or.inl ⟨rfl, rfl, coherent.replace idle ?_⟩
    cases AuthCall.commands sent <;> exact idle
  | @start n _ start at_ label =>
    have idle : Idle s.server (.client n) := by
      have safe := coherent.clients n
      rw [at_] at safe
      exact safe
    exact Or.inr (Or.inl ⟨n, _, rfl, startClient_moves sound idle start⟩)
  | @client n choice move taken =>
    exact Or.inr (Or.inl ⟨n, _, rfl, clientStep_moves sound (coherent.clients n) taken⟩)
  | @clientFail n move taken => exact Or.inr (Or.inl ⟨n, _, rfl, clientFail_moves sound taken⟩)
  | clientCrash n => exact Or.inr (Or.inl ⟨n, _, rfl, .rollback sound rfl⟩)
  | @poll w at_ =>
    have idle := coherent.workers w
    rw [at_] at idle
    refine Or.inr (Or.inr ⟨w, _, rfl, .goOn sound rfl ⟨?_, idle.2⟩⟩)
    have none : AsClaimed [] s.server.db := fun c mem => by cases mem
    exact ⟨⟨[], Holds.start idle.1 (Stable.forall fun c => Stable.forall fun mem => by cases mem) none⟩,
      fun c mem => (by cases mem), List.nodup_nil, fun c mem => by cases mem⟩
  | @worker w choice move taken =>
    exact Or.inr (Or.inr ⟨w, _, rfl, workerStep_moves sound (coherent.workers w) taken⟩)
  | @workerFail w message move taken =>
    exact Or.inr (Or.inr ⟨w, _, rfl, workerFail_moves sound (coherent.workers w) taken⟩)
  | @loseTick w move taken =>
    exact Or.inr (Or.inr ⟨w, _, rfl, loseTick_moves sound (coherent.workers w) taken⟩)
  | workerCrash w => exact Or.inr (Or.inr ⟨w, _, rfl, workerCrash_moves sound⟩)

/-- Every step keeps the invariant, and what it commits is an abstract step. One case for each
label, of which most move a single process. -/
theorem step_coherent {l : Label} (coherent : Coherent cfg s) (taken : step cfg s l = some s') :
    Coherent cfg s' ∧ ∃ events, s'.history = s.history ++ events ∧
      Effects cfg s.server.db (commits events) s'.server.db := by
  rcases (step_cases taken).moves coherent with
    ⟨server, history, coherent⟩ | ⟨n, move, rfl, moves⟩ | ⟨w, move, rfl, moves⟩
  · exact ⟨coherent, [], by simp [history], Or.inl ⟨rfl, by rw [server]⟩⟩
  · exact ⟨moves.coherent coherent, move.events, rfl, moves.effects⟩
  · exact ⟨moves.coherent coherent, move.events, rfl, moves.effects⟩

/-- A read of an auth call records no commit, whether it fails or goes on. -/
theorem afterQuery_commits {n : Nat} {st : Stmt} {choice : Choice} {call : AuthCall}
    {next : st.Result → Move Client} {move : Move Client} {commit : Option Commit}
    (taken : afterQuery s n call (s.query n st choice) next = some move)
    (failed : ∀ e, (plan st (s.env (.client n) s.clock choice) s.server.db).answer = .error e →
      commit = none)
    (goesOn : ∀ ws r,
      (plan st (s.env (.client n) s.clock choice) s.server.db).answer = .ok (ws, r) →
      commits (next r).events = commit.toList) :
    commits move.events = commit.toList := by
  obtain ⟨⟨answer, server⟩, ran, eq⟩ := Option.map_eq_some_iff.mp taken
  obtain ⟨⟨first, mid⟩, ran, eq'⟩ := Option.map_eq_some_iff.mp ran
  rcases Lib.Server.statement_cases ran with ⟨e, got, rfl, -⟩ | ⟨ws, r, got, rfl, -, -⟩
  · cases eq'
    cases eq
    rw [failed e got]
    exact commits_answer _ _ _
  · cases eq'
    cases eq
    exact goesOn ws r got

theorem authStep_commits {n : Nat} {choice : Choice} {call : AuthCall} {move : Move Client}
    (taken : authStep cfg s n choice call = some move) :
    commits move.events = (call.committing s.server.db).toList := by
  cases call with
  | loginFind dto identifier => exact afterQuery_commits taken (fun _ _ => rfl) fun _ _ _ => rfl
  | loginCompare dto user =>
    cases taken
    unfold loginCompareStep
    split
    · split <;> rfl
    · rfl
  | verifyFind dto identifier =>
    exact afterQuery_commits taken (fun _ _ => rfl) fun ws r _ => by cases r <;> rfl
  | verifyClock dto user =>
    cases taken
    rfl
  | verifyRead dto user now =>
    exact afterQuery_commits taken (fun _ _ => rfl) fun ws r _ => by cases r <;> rfl
  | verifyCompare dto user otpId otp =>
    cases taken
    unfold verifyCompareStep
    split
    · rfl
    · split <;> rfl
  | verifyCount dto otpId =>
    refine afterQuery_commits taken (fun e failed => ?_) fun ws r got => ?_
    · cases found : s.server.db.otpCodes.get? otpId with
      | none => simp [AuthCall.committing, found]
      | some otp =>
        simp [AuthCall.committing, found, plan_incrementAttempts_error failed found]
    · obtain ⟨-, otp, found, fits⟩ := plan_incrementAttempts got
      simp [AuthCall.committing, found, fits, State.goOn, commits, Event.commit?]
  | get use token =>
    cases taken
    have unknown : commits (unknownToken s n token use).events = [] := by
      cases use <;> rfl
    unfold getStep
    split
    · exact unknown
    · split
      · exact unknown
      · split
        · rfl
        · exact unknown
  | del use token jti session => cases taken
  | revoked token =>
    cases taken
    rfl
  | issue grant =>
    cases taken
    rfl
  | set grant pair jti hash => cases taken
  | reply grant pair =>
    cases taken
    rfl
  | disabling user =>
    refine afterQuery_commits taken (fun e failed => ?_) fun ws r got => ?_
    · simp [AuthCall.committing, plan_updateStatus_error failed]
    · obtain ⟨-, row, found⟩ := plan_updateStatus got
      simp [AuthCall.committing, found, State.goOn, commits, Event.commit?]

theorem clientStep_commits {n : Nat} {choice : Choice} {client : Client} {move : Move Client}
    (taken : clientStep cfg s n choice client = some move) :
    commits move.events = (client.committing s.server.db).toList := by
  cases client with
  | idle => cases taken
  | lookup request =>
    cases taken
    unfold lookupStep
    split
    · exact commits_answer _ _ _
    · split <;> rfl
  | handle request key =>
    cases taken
    unfold handleStep
    split
    · exact commits_answer _ _ _
    · rfl
  | registerFind dto identifier =>
    obtain ⟨-, server, -, ⟨response, rfl⟩ | ⟨-, rfl⟩⟩ := registerFindStep_turns taken
    · rfl
    · rfl
  | registerPrepare dto identifier =>
    cases taken
    rfl
  | resendFind input identifier =>
    obtain ⟨-, server, -, ⟨response, rfl⟩ | ⟨id, user, -, -, rfl⟩⟩ := resendFindStep_turns taken
    · rfl
    · rfl
  | resendPrepare input user identifier =>
    cases taken
    rfl
  | auth call => exact authStep_commits taken
  | begin_ job =>
    cases taken
    rfl
  | tx job started body =>
    change txStep s n job started body choice = some move at taken
    obtain ⟨⟨progress, server⟩, ran, eq⟩ := Option.map_eq_some_iff.mp taken
    cases body with
    | pure result =>
      cases ran
      cases eq
      show job.commit result :: commits (job.returned result n).2 = _
      rw [commits_returned]
      rfl
    | throw e =>
      cases ran
      cases eq
      exact commits_answer _ _ _
    | now next =>
      cases ran
      cases eq
      rfl
    | exec st onError next =>
      obtain ⟨⟨answer, server'⟩, _, eq'⟩ := Option.map_eq_some_iff.mp ran
      cases answer <;> cases eq' <;> cases eq <;> rfl
  | deliver request key response answered stored =>
    cases answered <;> cases taken
    rfl

theorem deliverStep_commits {w : Nat} {row : ClaimedRow} {choice : Choice} {delivery : Delivery}
    {move : Move Handled} (taken : deliverStep cfg s w row choice delivery = some move) :
    commits move.events = (delivery.committing s.server.db).toList := by
  cases delivery with
  | notify kind =>
    cases taken
    rfl
  | otpFind otpId =>
    obtain ⟨_, server, -, turns⟩ := otpFindStep_turns taken
    rcases turns with ⟨message, rfl⟩ | ⟨otp, -, -, rfl⟩ | ⟨otp, -, -, rfl⟩
    · rfl
    · rfl
    · rfl
  | otpSend otpId encryptedCode =>
    cases taken
    unfold otpSendStep
    split <;> rfl
  | otpMark otpId =>
    change otpMarkStep cfg s w otpId choice = some move at taken
    obtain ⟨⟨answer, server⟩, ran, eq⟩ := Option.map_eq_some_iff.mp taken
    obtain ⟨⟨first, mid⟩, ran, eq'⟩ := Option.map_eq_some_iff.mp ran
    rcases Lib.Server.statement_cases ran with ⟨e, got, rfl, -⟩ | ⟨ws, r, got, rfl, -, -⟩
    · cases eq'
      cases eq
      simp [Delivery.committing, plan_updateSent_error got]
    · obtain ⟨-, otp, found⟩ := plan_updateSent got
      cases eq'
      cases eq
      simp [Delivery.committing, found, commits, Event.commit?]
  | settleBegin saleId =>
    cases taken
    rfl
  | settleTx saleId started body =>
    change settleStep cfg s w row saleId started body choice = some move at taken
    obtain ⟨⟨progress, server⟩, ran, eq⟩ := Option.map_eq_some_iff.mp taken
    cases body with
    | pure result =>
      cases ran
      cases eq
      cases result <;> rfl
    | throw e =>
      cases ran
      cases eq
      rfl
    | now next =>
      cases ran
      cases eq
      rfl
    | exec st onError next =>
      obtain ⟨⟨answer, server'⟩, _, eq'⟩ := Option.map_eq_some_iff.mp ran
      cases answer <;> cases eq' <;> cases eq <;> rfl

theorem workerStep_commits {w : Nat} {choice : Choice} {worker : Worker} {move : Move Worker}
    (taken : workerStep cfg s w choice worker = some move) :
    commits move.events = (worker.committing s.server.db).toList := by
  cases worker with
  | idle => cases taken
  | polling started alive stage =>
    cases stage with
    | deliver row delivery todo done =>
      obtain ⟨moved, ran, rfl⟩ := Option.map_eq_some_iff.mp taken
      cases alive <;> exact deliverStep_commits ran
    | claim =>
      cases alive with
      | false =>
        cases taken
        rfl
      | true =>
        obtain ⟨⟨answer, server⟩, ran, eq⟩ := Option.map_eq_some_iff.mp taken
        cases answer <;> cases eq <;> rfl
    | record row result todo done =>
      cases alive with
      | false =>
        cases taken
        rfl
      | true =>
        obtain ⟨⟨answer, server⟩, ran, eq⟩ := Option.map_eq_some_iff.mp taken
        cases answer <;> cases eq <;> rfl
    | next todo done =>
      cases todo with
      | cons row todo =>
        cases alive <;> cases taken <;> rfl
      | nil =>
        cases alive <;> cases taken <;> rfl

/-- The history records a commit exactly at the steps that commit. -/
theorem step_commits {l : Label} (taken : step cfg s l = some s') :
    commits s'.history = commits s.history ++ (s.committing l).toList := by
  have moved : ∀ {α : Type} {move : Move α} {commit : Option Commit},
      commits move.events = commit.toList →
      commits (s.history ++ move.events) = commits s.history ++ commit.toList := by
    intro α move commit eq
    rw [commits_append, eq]
  have quiet : ∀ {α : Type} {move : Move α}, commits move.events = [] →
      commits (s.history ++ move.events) = commits s.history ++ [] := by
    intro α move eq
    rw [commits_append, eq]
  cases step_cases taken with
  | elapse duration => exact (List.append_nil _).symm
  | store at_ => exact (List.append_nil _).symm
  | command at_ sent => exact (List.append_nil _).symm
  | start start at_ label =>
    have none : s.committing l = none := by
      subst label
      cases start <;> rfl
    rw [none]
    apply quiet
    generalize is : startClient cfg s _ start = move
    cases startClient_opens is <;> rfl
  | @client n choice move ran => exact moved (clientStep_commits ran)
  | @clientFail n move ran =>
    apply quiet
    revert ran
    cases s.clients n <;> intro ran <;> cases ran <;> exact commits_answer _ _ _
  | clientCrash n => exact quiet rfl
  | poll at_ => exact quiet rfl
  | @worker w choice move ran => exact moved (workerStep_commits ran)
  | workerFail ran => exact quiet (by rw [workerFail_events ran, commits_nil])
  | loseTick ran => exact quiet (by rw [loseTick_events ran, commits_nil])
  | workerCrash w => exact quiet rfl

/-- A step of a client leaves the other clients as they are. -/
theorem step_others (taken : step cfg s l = some s') {n : Nat} (other : l.client? ≠ some n) :
    s'.clients n = s.clients n := by
  have own : ∀ {n' : Nat}, l.client? = some n' → n ≠ n' := by
    rintro n' client rfl
    exact other client
  cases step_cases taken with
  | elapse duration => rfl
  | store at_ => exact Function.update_of_ne (own rfl) ..
  | command at_ sent => exact Function.update_of_ne (own rfl) ..
  | start start _ label =>
    subst label
    cases start <;> exact State.moveClient_ne s _ (own rfl)
  | client ran => exact State.moveClient_ne s _ (own rfl)
  | clientFail ran => exact State.moveClient_ne s _ (own rfl)
  | clientCrash n' => exact State.moveClient_ne s _ (own rfl)
  | poll at_ => rfl
  | worker ran => rfl
  | workerFail ran => rfl
  | loseTick ran => rfl
  | workerCrash w => rfl

/-- What a step does to the committed rows: nothing, or the abstract step of the
transaction that it commits. -/
theorem step_atomic {l : Label} (coherent : Coherent cfg s) (taken : step cfg s l = some s') :
    (s.committing l = none ∧ s'.server.db = s.server.db) ∨
    ∃ commit, s.committing l = some commit ∧ Atomic cfg s.server.db commit s'.server.db := by
  obtain ⟨-, events, history, effects⟩ := step_coherent coherent taken
  have same := step_commits taken
  rw [history, commits_append] at same
  have done := List.append_cancel_left same
  rcases effects with ⟨quiet, rows⟩ | ⟨commit, one, happened⟩
  · rw [quiet] at done
    refine Or.inl ⟨?_, rows⟩
    cases committing : s.committing l with
    | none => rfl
    | some commit => rw [committing] at done; cases done
  · rw [one] at done
    refine Or.inr ⟨commit, ?_, happened⟩
    cases committing : s.committing l with
    | none => rw [committing] at done; cases done
    | some commit' => rw [committing] at done; cases done; rfl

end Steps

/-! ### Runs -/

section Runs

variable {cfg : Cfg} {start s : State} {trace : List (State × Label)}

theorem Fresh.coherent (fresh : Fresh s) : Coherent cfg s := by
  have idle : ∀ sid, Idle s.server sid := fun sid =>
    ⟨by simp [Lib.Server.writesOf, fresh.pending], by simp [fresh.locks]⟩
  refine ⟨⟨by simp [fresh.locks], by simp [fresh.pending]⟩, fun n => ?_, fun w => ?_⟩
  · rw [fresh.clients n]
    exact idle _
  · rw [fresh.workers w]
    exact ⟨idle _, idle _⟩

/-- The invariant holds in every state of every run that starts with no transaction open. -/
theorem Run.coherent (fresh : Fresh start) (run : Run cfg start trace s) : Coherent cfg s :=
  Lib.Run.invariant fresh.coherent (fun _ _ _ coherent taken => (step_coherent coherent taken).1) run

/-- The committed rows of a run come about by the abstract steps that its history
records, one after another. -/
theorem Run.commits_chain (fresh : Fresh start) (run : Run cfg start trace s) :
    Lib.Chain (Atomic cfg) start.server.db (commits s.history) s.server.db := by
  refine Lib.Run.simulates (fun s => s.server.db) (fun s => commits s.history) fresh.coherent
    (by simp [fresh.history]) (fun _ _ _ coherent taken => (step_coherent coherent taken).1) ?_ run
  intro s l s' coherent taken
  obtain ⟨-, events, history, effects⟩ := step_coherent coherent taken
  rcases effects with ⟨quiet, same⟩ | ⟨commit, done, happened⟩
  · exact Or.inl ⟨same, by rw [history, commits_append, quiet, List.append_nil]⟩
  · exact Or.inr ⟨commit, happened, by rw [history, commits_append, done]⟩

/-- A client that takes no step stays as it was. -/
theorem Run.unmoved {n : Nat} (run : Run cfg start trace s)
    (others : ∀ p ∈ trace, p.2.client? ≠ some n) (p : State × Label) (mem : p ∈ trace) :
    p.1.clients n = start.clients n := by
  have visited : p.1 ∈ Lib.visits trace s := List.mem_append_left _ (List.mem_map_of_mem mem)
  obtain ⟨earlier, before, sub⟩ := run.of_visits visited
  exact Lib.Run.invariant_while (fun t => t.clients n = start.clients n) rfl
    (fun _ _ _ same other taken => (step_others taken other).trans same) before
    fun q inside => others q (sub q inside)

/-- A worker that is not polled stays idle. -/
theorem step_worker_idle {l : Label} {s' : State} {w : Nat} (idle : s.workers w = .idle)
    (unpolled : l ≠ .poll w) (taken : step cfg s l = some s') : s'.workers w = .idle := by
  have own : ∀ {w' : Nat} {move : Move Worker}, (w = w' → move.next = .idle) →
      (s.moveWorker w' move).workers w = .idle := by
    intro w' move ends
    by_cases same : w = w'
    · subst same
      rw [State.moveWorker_self]
      exact ends rfl
    · rwa [State.moveWorker_ne s move same]
  cases step_cases taken with
  | elapse duration => exact idle
  | store at_ => exact idle
  | command at_ sent => exact idle
  | start start at_ label => exact idle
  | client ran => exact idle
  | clientFail ran => exact idle
  | clientCrash n => exact idle
  | @poll w' at_ =>
    refine own fun same => ?_
    subst same
    exact absurd rfl unpolled
  | @worker w' choice move ran =>
    refine own fun same => ?_
    subst same
    rw [idle] at ran
    cases ran
  | @workerFail w' message move ran =>
    refine own fun same => ?_
    subst same
    rw [idle] at ran
    cases ran
  | @loseTick w' move ran =>
    refine own fun same => ?_
    subst same
    rw [idle] at ran
    cases ran
  | workerCrash w' => exact own fun _ => rfl

theorem Run.worker_idle {w : Nat} (fresh : Fresh start) (run : Run cfg start trace s)
    (unpolled : ∀ p ∈ trace, p.2 ≠ .poll w) : s.workers w = .idle :=
  Lib.Run.invariant_while (fun s => s.workers w = .idle) (fresh.workers w)
    (fun _ _ _ idle unpolled taken => step_worker_idle idle unpolled taken) run unpolled

def Label.polls : Label → Bool
  | .poll _ => true
  | _ => false

/-- No worker but 0 polls. -/
def Label.polledByZero : Label → Bool
  | .poll w => decide (w = 0)
  | _ => true

/-- Then the other workers do nothing. -/
theorem Run.other_idle (fresh : Fresh start) (run : Run cfg start trace s)
    (polled : ∀ p ∈ trace, p.2.polledByZero = true) {p : State × Label} (mem : p ∈ trace) {w : Nat}
    (other : w ≠ 0) : p.1.workers w = .idle := by
  obtain ⟨earlier, part, sub⟩ := run.of_visits (List.mem_append_left _ (List.mem_map_of_mem mem))
  refine Run.worker_idle fresh part fun q inside polls => ?_
  have one := polled q (sub q inside)
  rw [polls] at one
  exact other (of_decide_eq_true one)

end Runs

end FlashSale
