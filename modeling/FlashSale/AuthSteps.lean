/-
# The methods of `AuthService` and the steps of the API

A client whose request is the only one takes, by itself, the steps of `Api` to the
answer, the database and the tokens that the method has in `SoloAuth`. Every step of it
meets the same choice.

The methods are written once as single steps on a shop, for what is said of one request
after another, and once as the steps of a client, for what is said of all interleavings.
The two are the same code in two readings, and the theorems here connect them: every result
about one request at a time is a result about runs of the system.

* `login_leadsTo`, `verifyOtp_leadsTo`, `resendOtp_leadsTo`, `register_leadsTo`.
-/
import FlashSale.SoloAuth

namespace FlashSale

open Lib (Table Tx Only)

/-- No transaction is open. -/
def State.Quiet (s : State) : Prop := s.server = ⟨s.server.db, [], []⟩

/-- What a request of a client meets, and works on, in a state of the system. -/
def State.occasion (s : State) (n : Nat) (choice : Choice) : Occasion where
  clock := s.clock
  draw := choice.draw
  env _ := s.env (.client n) s.clock choice

def State.shop (s : State) : Shop := ⟨s.server.db, s.tokenStore⟩

/-- What a method comes to, as a response. -/
def responseTo {α : Type} (ok : α → Response) : Except Failure α → Response
  | .error e => e.response
  | .ok result => ok result

/-- Some steps lead from the state to this answer, with such a shop. -/
def LeadsTo (cfg : Cfg) (s : State) (n : Nat) (request : Request) (shop : Shop) (response : Response) :
    Prop :=
  ∃ labels s', Lib.execute (step cfg) s labels = some s' ∧ s'.server = ⟨shop.db, [], []⟩ ∧
    s'.tokenStore = shop.tokens ∧ AnsweredSince s s' n request response

section Steps

variable {cfg : Cfg} {s t : State} {n : Nat} {choice : Choice} {identifier : NormalizedIdentifier}
  {request : Request} {shop : Shop} {response : Response}

theorem LeadsTo.step {move : Move Client}
    (taken : FlashSale.step cfg s (.client n choice) = some (s.moveClient n move))
    (leads : LeadsTo cfg (s.moveClient n move) n request shop response) :
    LeadsTo cfg s n request shop response := by
  obtain ⟨labels, s', ran, server, tokens, answered⟩ := leads
  refine ⟨.client n choice :: labels, s', ?_, server, tokens, answered.after rfl⟩
  rw [Lib.execute, taken]
  exact ran

/-- The last step. -/
theorem LeadsTo.answer {move : Move Client}
    (taken : FlashSale.step cfg s (.client n choice) = some (s.moveClient n move))
    (server : move.server = ⟨shop.db, [], []⟩) (tokens : s.tokenStore = shop.tokens)
    (answers : .answered n request response ∈ move.events) : LeadsTo cfg s n request shop response := by
  refine ⟨[.client n choice], s.moveClient n move, ?_, server, tokens, ?_⟩
  · rw [Lib.execute, taken]
    rfl
  · exact ⟨_, rfl, answers⟩

/-! ### Single steps -/

theorem query_alone {st : Stmt} {ws : List Write} {r : st.Result} (quiet : s.Quiet)
    (got : (plan st (s.env (.client n) s.clock choice) s.server.db).answer = .ok (ws, r)) :
    s.query n st choice = some (.ok r, ⟨Lib.applyAll s.server.db ws, [], []⟩) := by
  unfold State.query
  rw [quiet, Lib.auto_quiet, got]

theorem query_read {st : Stmt} {r : st.Result} (quiet : s.Quiet)
    (got : (plan st (s.env (.client n) s.clock choice) s.server.db).answer = .ok ([], r)) :
    s.query n st choice = some (.ok r, s.server) := by
  apply (query_alone quiet got).trans
  show some (Except.ok r, (⟨s.server.db, [], []⟩ : Server)) = _
  rw [← quiet]

/-- A call that is refused has answered, and changed nothing. -/
theorem LeadsTo.refuse {call : AuthCall} {request : AuthRequest} {e : Failure} (quiet : s.Quiet)
    (at_ : s.clients n = .auth call)
    (refuses : authStep cfg s n choice call = some (s.refuseAuth n call e))
    (of : call.request = some request) : LeadsTo cfg s n (.auth request) s.shop e.response := by
  refine LeadsTo.answer (auth_step at_ refuses) quiet rfl ?_
  simp [State.refuseAuth, State.refuse, State.goOn, FlashSale.answer, Client.request, of]

/-- A call that issues a pair answers with it. -/
theorem LeadsTo.issue {grant : Grant} (quiet : s.Quiet) (at_ : s.clients n = .auth (.issue grant))
    (choice : Choice) :
    LeadsTo cfg s n (.auth grant.request)
      (AuthService.issue cfg (s.occasion n choice) s.shop grant.userId).2
      (responseTo (fun issued => ⟨200, .tokens issued.pair⟩)
        (AuthService.issue cfg (s.occasion n choice) s.shop grant.userId).1) := by
  obtain ⟨s', ran, server, tokens, answered⟩ := @issue_steps cfg s n grant at_ choice
  exact ⟨_, s', ran, server.trans quiet, tokens, answered⟩

/-! ### Transactions -/

/-- The client is alone in its transaction, with these writes. -/
structure Writing (s : State) (n : Nat) (db : Db) (ws : List Write) : Prop where
  only : Only s.server (.client n)
  db : s.server.db = db
  writes : s.server.writesOf (.client n) = ws

variable {db : Db} {ws ws' : List Write} {job : Job} {started : Int}

/-- The next statement of a transaction. -/
theorem LeadsTo.statement {st : Stmt} {onError : DbError → Failure}
    {next : st.Result → Program job.Result} {r : st.Result} (writing : Writing s n db ws)
    (at_ : s.clients n = .tx job started (.exec st onError next))
    (got : (plan st (s.env (.client n) started choice) (Lib.applyAll db ws)).answer = .ok (ws', r))
    (rest : ∀ t : State, Writing t n db (ws ++ ws') → t.clients n = .tx job started (next r) →
      t.serial = s.serial + serials (Tx.exec st onError next) → t.tokenStore = s.tokenStore →
      LeadsTo cfg t n request shop response) : LeadsTo cfg s n request shop response := by
  obtain ⟨only, rfl, rfl⟩ := writing
  let locks := (plan st (s.env (.client n) started choice) (s.server.view (.client n))).locks
  let move : Move Client := ⟨s.server.extend (.client n) locks ws', .tx job started (next r),
    s.serial + serials (Tx.exec st onError next), []⟩
  have got : (plan st (s.env (.client n) started choice) (s.server.view (.client n))).answer =
      .ok (ws', r) := got
  have taken : FlashSale.step cfg s (.client n choice) = some (s.moveClient n move) := by
    simp only [FlashSale.step, at_, clientStep, txStep, Tx.advance, only.statement, got]
    rfl
  refine LeadsTo.step taken (rest _ ?_ (State.moveClient_self ..) rfl rfl)
  exact ⟨only.extend locks ws', rfl, Lib.Server.writesOf_extend_self locks ws'⟩

theorem commit_step {result : job.Result} (choice : Choice)
    (at_ : s.clients n = .tx job started (.pure result)) :
    FlashSale.step cfg s (.client n choice) =
      some (s.moveClient n ⟨s.server.commit (.client n), (job.returned result n).1, s.serial,
        .committed (job.commit result) :: (job.returned result n).2⟩) := by
  simp only [FlashSale.step, at_, clientStep, txStep, Tx.advance]
  rfl

/-- The end of a transaction that is followed by more steps. -/
theorem LeadsTo.commit {result : job.Result} (writing : Writing s n db ws) (choice : Choice)
    (at_ : s.clients n = .tx job started (.pure result))
    (rest : ∀ t : State, t.server = ⟨Lib.applyAll db ws, [], []⟩ →
      t.clients n = (job.returned result n).1 → t.tokenStore = s.tokenStore →
      LeadsTo cfg t n request shop response) : LeadsTo cfg s n request shop response := by
  obtain ⟨only, rfl, rfl⟩ := writing
  exact LeadsTo.step (commit_step choice at_) (rest _ only.commit (State.moveClient_self ..) rfl)

/-- The end of a transaction, with the answer. -/
theorem LeadsTo.returns {result : job.Result} {tokens : TokenStore} (writing : Writing s n db ws)
    (choice : Choice) (at_ : s.clients n = .tx job started (.pure result))
    (stored : s.tokenStore = tokens)
    (answers : .answered n request response ∈ (job.returned result n).2) :
    LeadsTo cfg s n request ⟨Lib.applyAll db ws, tokens⟩ response := by
  obtain ⟨only, rfl, rfl⟩ := writing
  exact LeadsTo.answer (commit_step choice at_) only.commit stored (List.mem_cons_of_mem _ answers)

/-- The beginning of a transaction. -/
theorem LeadsTo.begin (choice : Choice) (quiet : s.Quiet) (at_ : s.clients n = .begin_ job)
    (rest : ∀ t : State, Writing t n s.server.db [] → t.clients n = .tx job s.clock job.program →
      t.serial = s.serial → t.tokenStore = s.tokenStore → LeadsTo cfg t n request shop response) :
    LeadsTo cfg s n request shop response := by
  have taken : FlashSale.step cfg s (.client n choice) =
      some (s.moveClient n (s.goOn (.tx job s.clock job.program) [])) := by
    simp only [FlashSale.step, at_, clientStep]
    rfl
  refine LeadsTo.step taken (rest _ ⟨?_, rfl, ?_⟩ (State.moveClient_self ..) rfl rfl)
  · show Only s.server (.client n)
    rw [quiet]
    exact Lib.only_quiet _
  · show s.server.writesOf (.client n) = []
    rw [quiet]
    rfl

/-! ### Login -/

/-- From the lookup on, the steps of a login that is alone come to what `AuthService.login`
says, and leave the shop that it leaves. -/
theorem login_leadsTo {dto : LoginDto} (quiet : s.Quiet)
    (normal : normalizeIdentifier cfg dto.identifier = .ok identifier)
    (takes : takesText identifier.normalized = true)
    (at_ : s.clients n = .auth (.loginFind dto identifier)) :
    LeadsTo cfg s n (.auth (.login dto)) (AuthService.login cfg (s.occasion n choice) s.shop dto).2
      (responseTo (fun issued => ⟨200, .tokens issued.pair⟩)
        (AuthService.login cfg (s.occasion n choice) s.shop dto).1) := by
  have looked : AuthService.lookup cfg (s.occasion n choice) s.shop dto.identifier =
      .ok (identifier, s.server.db.named identifier) := lookup_ok normal takes
  have read : s.query n (.findUser identifier) choice =
      some (.ok (s.server.db.named identifier), s.server) := query_read quiet rfl
  generalize s.server.db.named identifier = user at looked read
  let s₁ := s.moveClient n (s.goOn (.auth (.loginCompare dto user)) [])
  have first : step cfg s (.client n choice) = some s₁ := by
    apply auth_step at_
    rw [authStep, read]
    rfl
  have there : s₁.clients n = .auth (.loginCompare dto user) := State.moveClient_self ..
  have refused : ∀ e,
      loginCompareStep cfg s₁ n dto user = s₁.refuseAuth n (.loginCompare dto user) e →
        LeadsTo cfg s n (.auth (.login dto)) s.shop e.response := by
    intro e refuses
    have turns : authStep cfg s₁ n choice (.loginCompare dto user) =
        some (s₁.refuseAuth n (.loginCompare dto user) e) := congrArg some refuses
    exact LeadsTo.step first (LeadsTo.refuse quiet there turns rfl)
  rw [AuthService.login, looked]
  rcases user with _ | ⟨id, row⟩
  · exact refused invalidCredentials rfl
  · dsimp only [Option.map, Option.getD]
    cases matched : cfg.compare dto.password row.passwordHash with
    | false =>
      apply refused invalidCredentials
      unfold loginCompareStep
      dsimp only [Option.map, Option.getD]
      rw [matched]
    | true =>
      dsimp only
      by_cases pending : row.status = .pendingVerification
      · rw [if_pos pending]
        apply refused accountNotVerified
        unfold loginCompareStep
        dsimp only [Option.map, Option.getD]
        rw [matched]
        exact if_pos pending
      · rw [if_neg pending]
        let s₂ := s₁.moveClient n (s₁.goOn (.auth (.issue ⟨.login dto, id, .password⟩)) [])
        have second : step cfg s₁ (.client n choice) = some s₂ := by
          refine auth_step there (congrArg some ?_)
          unfold loginCompareStep
          dsimp only [Option.map, Option.getD]
          rw [matched]
          exact if_neg pending
        have issuing : s₂.clients n = .auth (.issue ⟨.login dto, id, .password⟩) :=
          State.moveClient_self ..
        have quiet₂ : s₂.Quiet := quiet
        exact LeadsTo.step first (LeadsTo.step second (LeadsTo.issue quiet₂ issuing choice))

/-! ### Verification -/

/-- Where the tokens are issued after a transaction, nothing but the database has changed. -/
theorem LeadsTo.issueAfter (grant : Grant) (server : t.server = ⟨db, [], []⟩)
    (at_ : t.clients n = .auth (.issue grant)) (tokens : t.tokenStore = s.tokenStore)
    (choice : Choice) :
    LeadsTo cfg t n (.auth grant.request)
      (AuthService.issue cfg (s.occasion n choice) { s.shop with db := db } grant.userId).2
      (responseTo (fun issued => ⟨200, .tokens issued.pair⟩)
        (AuthService.issue cfg (s.occasion n choice) { s.shop with db := db } grant.userId).1) := by
  have quiet : t.Quiet := by
    unfold State.Quiet
    rw [server]
  have shop : t.shop = { s.shop with db := db } := by
    unfold State.shop
    rw [server, tokens]
  have clock : t.clock = s.clock := congrArg TokenStore.clock tokens
  have issues := @LeadsTo.issue cfg t n grant quiet at_ choice
  rw [shop] at issues
  have same : AuthService.issue cfg (t.occasion n choice) { s.shop with db := db } grant.userId =
      AuthService.issue cfg (s.occasion n choice) { s.shop with db := db } grant.userId := by
    unfold AuthService.issue State.occasion
    rw [clock]
  rw [same] at issues
  exact issues

/-- The code is the one that was found. -/
theorem verified_leadsTo {dto : VerifyOtpDto} {user otpId : Uuid} {otp : OtpRow} {row : UserRow}
    (quiet : s.Quiet) (at_ : s.clients n = .begin_ (.verify dto otpId user))
    (code : s.server.db.otpCodes.get? otpId = some otp)
    (owner : s.server.db.users.get? user = some row) :
    LeadsTo cfg s n (.auth (.verifyOtp dto))
      (AuthService.verified cfg (s.occasion n choice) s.shop otpId user).2
      (responseTo (fun issued => ⟨200, .tokens issued.pair⟩)
        (AuthService.verified cfg (s.occasion n choice) s.shop otpId user).1) := by
  have ran : (verifyTx otpId user).transaction plan (s.occasion n choice).around s.shop.db =
      (.ok (), (AccountChange.verified otpId user).apply s.server.db) := verifyTx_ok code owner
  rw [AuthService.verified, ran]
  refine LeadsTo.begin choice quiet at_ fun t₁ writing₁ at₁ _ tokens₁ => ?_
  have used : (plan (.updateUsed otpId) (t₁.env (.client n) s.clock choice)
      (Lib.applyAll s.server.db ([] : List Write))).answer = .ok ([.markUsed otpId], ()) := by
    show (plan (.updateUsed otpId) _ s.server.db).answer = _
    simp [plan, code, updating]
  refine LeadsTo.statement writing₁ at₁ used fun t₂ writing₂ at₂ _ tokens₂ => ?_
  have active : (plan (.updateStatus user .active) (t₂.env (.client n) s.clock choice)
      (Lib.applyAll s.server.db ([] ++ [Write.markUsed otpId]))).answer =
        .ok ([.setStatus user .active], ()) := by
    have there : (Lib.applyAll s.server.db ([] ++ [Write.markUsed otpId])).users.get? user =
        some row := owner
    dsimp only [plan]
    rw [there]
    rfl
  refine LeadsTo.statement writing₂ at₂ active fun t₃ writing₃ at₃ _ tokens₃ => ?_
  refine LeadsTo.commit writing₃ choice at₃ fun t₄ server at₄ tokens₄ => ?_
  have tokens : t₄.tokenStore = s.tokenStore :=
    tokens₄.trans (tokens₃.trans (tokens₂.trans tokens₁))
  exact LeadsTo.issueAfter ⟨.verifyOtp dto, user, .code otpId⟩ server at₄ tokens choice

/-- The code is not the one that was found, and its attempt is counted. -/
theorem miscounted_leadsTo {dto : VerifyOtpDto} {user otpId : Uuid} {otp : OtpRow} {now : Int}
    (quiet : s.Quiet) (at_ : s.clients n = .auth (.verifyCount dto otpId))
    (code : s.server.db.otpCodes.get? otpId = some otp) (valid : otp.valid user now = true) :
    LeadsTo cfg s n (.auth (.verifyOtp dto))
      (AuthService.miscounted (s.occasion n choice) s.shop otpId).2
      (responseTo (fun issued => ⟨200, .tokens issued.pair⟩)
        (AuthService.miscounted (s.occasion n choice) s.shop otpId).1) := by
  have counted : query (s.occasion n choice) (.incrementAttempts otpId) s.shop.db =
      (.ok (), (AccountChange.attempted otpId).apply s.server.db) := increment_ok code valid
  have queried : s.query n (.incrementAttempts otpId) choice =
      some (.ok (), ⟨(AccountChange.attempted otpId).apply s.server.db, [], []⟩) :=
    query_alone quiet (answer_increment code valid)
  rw [AuthService.miscounted, counted]
  let move : Move Client :=
    ⟨⟨(AccountChange.attempted otpId).apply s.server.db, [], []⟩, .idle, s.serial,
      [.committed (.account (.attempted otpId)),
        .answered n (.auth (.verifyOtp dto)) otpInvalid.response]⟩
  have counts : authStep cfg s n choice (.verifyCount dto otpId) = some move := by
    rw [authStep, queried]
    rfl
  exact LeadsTo.answer (auth_step at_ counts) rfl rfl (by simp [move, responseTo])

/-- The submitted code is compared with the one that was found, and it is that one. -/
theorem matched_leadsTo {dto : VerifyOtpDto} {user otpId : Uuid} {otp : OtpRow} {row : UserRow}
    (quiet : s.Quiet) (at_ : s.clients n = .auth (.verifyCompare dto user otpId otp))
    (decrypted : cfg.decrypt otp.encryptedCode = .ok dto.code)
    (code : s.server.db.otpCodes.get? otpId = some otp)
    (owner : s.server.db.users.get? user = some row) :
    LeadsTo cfg s n (.auth (.verifyOtp dto))
      (AuthService.verified cfg (s.occasion n choice) s.shop otpId user).2
      (responseTo (fun issued => ⟨200, .tokens issued.pair⟩)
        (AuthService.verified cfg (s.occasion n choice) s.shop otpId user).1) := by
  let s' := s.moveClient n
    (s.goOn (.begin_ (.verify dto otpId user)) [.compared n dto user otpId true])
  have compares : step cfg s (.client n choice) = some s' := by
    refine auth_step at_ (congrArg some ?_)
    rw [verifyCompareStep, decrypted]
    exact if_pos rfl
  have quiet' : s'.Quiet := quiet
  have at' : s'.clients n = .begin_ (.verify dto otpId user) := State.moveClient_self ..
  have occasion : s'.occasion n choice = s.occasion n choice := rfl
  have shop : s'.shop = s.shop := rfl
  have leads := @verified_leadsTo cfg s' n choice dto user otpId otp row quiet' at' code owner
  rw [occasion, shop] at leads
  exact LeadsTo.step compares leads

/-- It is compared, and is another one. -/
theorem mismatched_leadsTo {dto : VerifyOtpDto} {user otpId : Uuid} {otp : OtpRow}
    {plainCode : String} {now : Int} (quiet : s.Quiet)
    (at_ : s.clients n = .auth (.verifyCompare dto user otpId otp))
    (decrypted : cfg.decrypt otp.encryptedCode = .ok plainCode) (wrong : plainCode ≠ dto.code)
    (code : s.server.db.otpCodes.get? otpId = some otp) (valid : otp.valid user now = true) :
    LeadsTo cfg s n (.auth (.verifyOtp dto))
      (AuthService.miscounted (s.occasion n choice) s.shop otpId).2
      (responseTo (fun issued => ⟨200, .tokens issued.pair⟩)
        (AuthService.miscounted (s.occasion n choice) s.shop otpId).1) := by
  let s' := s.moveClient n
    (s.goOn (.auth (.verifyCount dto otpId)) [.compared n dto user otpId false])
  have compares : step cfg s (.client n choice) = some s' := by
    refine auth_step at_ (congrArg some ?_)
    rw [verifyCompareStep, decrypted]
    exact if_neg wrong
  have quiet' : s'.Quiet := quiet
  have at' : s'.clients n = .auth (.verifyCount dto otpId) := State.moveClient_self ..
  have occasion : s'.occasion n choice = s.occasion n choice := rfl
  have shop : s'.shop = s.shop := rfl
  have leads := @miscounted_leadsTo cfg s' n choice dto user otpId otp now quiet' at' code valid
  rw [occasion, shop] at leads
  exact LeadsTo.step compares leads

/-- From the lookup on, the steps of a verification that is alone come to what
`AuthService.verifyOtp` says. -/
theorem verifyOtp_leadsTo {dto : VerifyOtpDto} (quiet : s.Quiet)
    (normal : normalizeIdentifier cfg dto.identifier = .ok identifier)
    (takes : takesText identifier.normalized = true)
    (at_ : s.clients n = .auth (.verifyFind dto identifier)) :
    LeadsTo cfg s n (.auth (.verifyOtp dto))
      (AuthService.verifyOtp cfg (s.occasion n choice) s.shop dto).2
      (responseTo (fun issued => ⟨200, .tokens issued.pair⟩)
        (AuthService.verifyOtp cfg (s.occasion n choice) s.shop dto).1) := by
  have looked : AuthService.lookup cfg (s.occasion n choice) s.shop dto.identifier =
      .ok (identifier, s.server.db.named identifier) := lookup_ok normal takes
  have read : s.query n (.findUser identifier) choice =
      some (.ok (s.server.db.named identifier), s.server) := query_read quiet rfl
  rw [AuthService.verifyOtp, looked]
  rcases named : s.server.db.named identifier with _ | ⟨user, row⟩
  · rw [named] at read
    have refuses : authStep cfg s n choice (.verifyFind dto identifier) =
        some (s.refuseAuth n (.verifyFind dto identifier) otpInvalid) := by
      rw [authStep, read]
      rfl
    exact LeadsTo.refuse quiet at_ refuses rfl
  rw [named] at read
  -- The clock is read, and then the codes.
  let s₁ := s.moveClient n (s.goOn (.auth (.verifyClock dto user)) [])
  let s₂ := s₁.moveClient n (s₁.goOn (.auth (.verifyRead dto user s.now)) [])
  have first : step cfg s (.client n choice) = some s₁ := by
    apply auth_step at_
    rw [authStep, read]
    rfl
  have second : step cfg s₁ (.client n choice) = some s₂ := auth_step (State.moveClient_self ..) rfl
  have at₂ : s₂.clients n = .auth (.verifyRead dto user s.now) := State.moveClient_self ..
  refine LeadsTo.step first (LeadsTo.step second ?_)
  have codes : s₂.query n (.findValidOtp user s.now) choice = some (.ok
      (validOtps user s.now (s.env (.client n) s.clock choice) s.server.db).head?, s.server) :=
    query_read quiet rfl
  dsimp only
  rw [findValid_eq]
  have same : validOtps user (s.occasion n choice).now ((s.occasion n choice).env 0) s.shop.db =
      validOtps user s.now (s.env (.client n) s.clock choice) s.server.db := rfl
  rw [same]
  rcases found : (validOtps user s.now (s.env (.client n) s.clock choice) s.server.db).head? with
    _ | ⟨otpId, otp⟩
  · rw [found] at codes
    have refuses : authStep cfg s₂ n choice (.verifyRead dto user s.now) =
        some (s₂.refuseAuth n (.verifyRead dto user s.now) otpExpired) := by
      rw [authStep, codes]
      rfl
    have quiet₂ : s₂.Quiet := quiet
    exact LeadsTo.refuse quiet₂ at₂ refuses rfl
  rw [found] at codes
  obtain ⟨code, valid⟩ := validOtp_some found
  let s₃ := s₂.moveClient n (s₂.goOn (.auth (.verifyCompare dto user otpId otp)) [])
  have third : step cfg s₂ (.client n choice) = some s₃ := by
    apply auth_step at₂
    rw [authStep, codes]
    rfl
  have at₃ : s₃.clients n = .auth (.verifyCompare dto user otpId otp) := State.moveClient_self ..
  apply LeadsTo.step third
  dsimp only
  cases decrypted : cfg.decrypt otp.encryptedCode with
  | error message =>
    have refuses : authStep cfg s₃ n choice (.verifyCompare dto user otpId otp) =
        some (s₃.refuseAuth n (.verifyCompare dto user otpId otp) (.error message)) := by
      rw [authStep, verifyCompareStep, decrypted]
    have quiet₃ : s₃.Quiet := quiet
    exact LeadsTo.refuse quiet₃ at₃ refuses rfl
  | ok plainCode =>
    dsimp only
    have quiet₃ : s₃.Quiet := quiet
    have occasion : s₃.occasion n choice = s.occasion n choice := rfl
    have shop : s₃.shop = s.shop := rfl
    by_cases right : plainCode = dto.code
    · rw [if_pos right]
      have leads := @matched_leadsTo cfg s₃ n choice dto user otpId otp row quiet₃ at₃
        (right ▸ decrypted) code (named_some named).1
      rwa [occasion, shop] at leads
    · rw [if_neg right]
      have leads := @mismatched_leadsTo cfg s₃ n choice dto user otpId otp plainCode _ quiet₃ at₃
        decrypted right code valid
      rwa [occasion, shop] at leads

/-! ### New codes -/

theorem alone_step {client : Client} {move : Move Client} (at_ : s.clients n = client)
    (turns : clientStep cfg s n choice client = some move) :
    FlashSale.step cfg s (.client n choice) = some (s.moveClient n move) := by
  rw [FlashSale.step, at_, turns]
  rfl

/-- The two statements that issue a code. Both meet the clock and the serial number of `s₀`. -/
theorem LeadsTo.issueOtp (s₀ : State) {user : Uuid} {otp : PreparedOtp}
    {next : Uuid → Program job.Result} {env : Env} (is : env = s₀.env (.client n) started choice)
    (tokens : s.tokenStore = s₀.tokenStore) (serial : s.serial = s₀.serial)
    (writing : Writing s n db ws)
    (at_ : s.clients n = .tx job started (FlashSale.issueOtp user identifier otp >>= next))
    (owner : (Lib.applyAll db ws).users.get? user ≠ none)
    (code : (Lib.applyAll db ws).otpCodes.get? env.draw = none)
    (event : (Lib.applyAll db ws).outbox.get? env.serial = none)
    (rest : ∀ t : State, Writing t n db (ws ++ otpWrites user identifier otp env env) →
      t.clients n = .tx job started (next env.draw) → t.tokenStore = s₀.tokenStore →
      LeadsTo cfg t n request shop response) : LeadsTo cfg s n request shop response := by
  subst is
  have clock : s.clock = s₀.clock := congrArg TokenStore.clock tokens
  have created := @answer_createOtp (Lib.applyAll db ws) identifier user otp
    (s.env (.client n) started choice) owner code
  refine LeadsTo.statement writing at_ created fun t writing₁ at₁ serial₁ tokens₁ => ?_
  have free : (Lib.applyAll db (ws ++ [.insertOtp choice.draw (otpRow user identifier otp
      (toColumn (s.env (.client n) started choice).stamp))])).outbox.get?
        (t.env (.client n) started choice).serial = none := by
    rw [Lib.applyAll_append]
    show (Lib.applyAll db ws).outbox.get? t.serial = none
    rw [serial₁, serial]
    exact event
  have told := @answer_otpEvent _ identifier user choice.draw
    (toColumn (s.env (.client n) started choice).stamp) (t.env (.client n) started choice) free
  refine LeadsTo.statement writing₁ at₁ told fun t' writing₂ at₂ _ tokens₂ => ?_
  refine rest t' ?_ at₂ (tokens₂.trans (tokens₁.trans tokens))
  have stamp : (s.env (.client n) started choice).stamp =
      (s₀.env (.client n) started choice).stamp := by
    unfold State.env
    rw [clock]
  have number : (t.env (.client n) started choice).serial =
      (s₀.env (.client n) started choice).serial := serial₁.trans serial
  rw [stamp, number, List.append_assoc] at writing₂
  exact writing₂

/-- The steps of a resend that is alone come to what `AuthService.resendOtp` says. -/
theorem resendOtp_leadsTo {input : CodeUnits} (quiet : s.Quiet)
    (normal : normalizeIdentifier cfg input = .ok identifier)
    (takes : takesText identifier.normalized = true)
    (fresh : (s.occasion n choice).Fresh s.server.db)
    (at_ : s.clients n = .resendFind input identifier) :
    LeadsTo cfg s n (.resend input) (AuthService.resendOtp cfg (s.occasion n choice) s.shop input).2
      (responseTo (fun _ => ⟨204, .empty⟩)
        (AuthService.resendOtp cfg (s.occasion n choice) s.shop input).1) := by
  have looked : AuthService.lookup cfg (s.occasion n choice) s.shop input =
      .ok (identifier, s.server.db.named identifier) := lookup_ok normal takes
  have read : s.query n (.findUser identifier) choice =
      some (.ok (s.server.db.named identifier), s.server) := query_read quiet rfl
  have ends : ∀ move : Move Client, resendFindStep s n input identifier choice = some move →
      move.server = s.server → move.events = [.answered n (.resend input) ⟨204, .empty⟩] →
      LeadsTo cfg s n (.resend input) s.shop ⟨204, .empty⟩ := by
    intro move turns same events
    refine LeadsTo.answer (alone_step at_ turns) (same.trans quiet) rfl ?_
    rw [events]
    exact List.mem_singleton_self _
  rw [AuthService.resendOtp, looked]
  rcases named : s.server.db.named identifier with _ | ⟨id, user⟩
  · refine ends ⟨s.server, .idle, s.serial, [.answered n (.resend input) ⟨204, .empty⟩]⟩ ?_ rfl rfl
    rw [resendFindStep, read, named]
    rfl
  dsimp only
  by_cases pending : user.status = .pendingVerification
  · rw [if_pos pending]
    let otp := prepare cfg s.now choice.draw
    let s₁ := s.moveClient n (s.goOn (.resendPrepare input id identifier) [])
    let s₂ := s₁.moveClient n (s₁.goOn (.begin_ (.resend input id identifier otp)) [])
    have first : step cfg s (.client n choice) = some s₁ := by
      apply alone_step at_
      show resendFindStep s n input identifier choice = _
      rw [resendFindStep, read, named]
      exact congrArg some (if_pos pending)
    have second : step cfg s₁ (.client n choice) = some s₂ :=
      alone_step (State.moveClient_self ..) rfl
    have quiet₂ : s₂.Quiet := quiet
    have owner : s.shop.db.users.get? id ≠ none := by simp [State.shop, (named_some named).1]
    have ran := resendTx_ok identifier otp owner fresh
    have made : (resendTx id identifier (prepare cfg (s.occasion n choice).now
        (s.occasion n choice).draw)).transaction plan (s.occasion n choice).around s.shop.db = _ := ran
    rw [made]
    refine LeadsTo.step first (LeadsTo.step second ?_)
    refine LeadsTo.begin choice quiet₂ (State.moveClient_self ..)
      fun t₁ writing₁ at₁ serial₁ tokens₁ => ?_
    refine LeadsTo.issueOtp s rfl tokens₁ serial₁ writing₁ at₁ owner (fresh.codes 0)
      (fresh.events 1) fun t₂ writing₂ at₂ tokens₂ => ?_
    exact LeadsTo.returns writing₂ choice at₂ tokens₂ (List.mem_singleton_self _)
  · rw [if_neg pending]
    refine ends ⟨s.server, .idle, s.serial, [.answered n (.resend input) ⟨204, .empty⟩]⟩ ?_ rfl rfl
    rw [resendFindStep, read, named]
    exact congrArg some (if_neg pending)

/-- The steps of a registration that is alone come to what `AuthService.register` says. -/
theorem register_leadsTo {dto : RegisterDto} {fitsIndex : CodeUnits → Bool} (quiet : s.Quiet)
    (normal : normalizeIdentifier cfg dto.identifier = .ok identifier)
    (takes : takesText identifier.normalized = true) (fits : fitsIndex identifier.normalized = true)
    (fresh : (s.occasion n choice).Fresh s.server.db)
    (at_ : s.clients n = .registerFind dto identifier) :
    LeadsTo cfg s n (.register dto)
      (AuthService.register cfg fitsIndex (s.occasion n choice) s.shop dto).2
      (responseTo (fun user => ⟨201, .registered user⟩)
        (AuthService.register cfg fitsIndex (s.occasion n choice) s.shop dto).1) := by
  have looked : AuthService.lookup cfg (s.occasion n choice) s.shop dto.identifier =
      .ok (identifier, s.server.db.named identifier) := lookup_ok normal takes
  have read : s.query n (.findUser identifier) choice =
      some (.ok (s.server.db.named identifier), s.server) := query_read quiet rfl
  rw [AuthService.register, looked]
  cases named : s.server.db.named identifier with
  | some owner =>
    let move : Move Client := ⟨s.server, .idle, s.serial,
      [.answered n (.register dto) identifierTaken.response]⟩
    have turns : clientStep cfg s n choice (.registerFind dto identifier) = some move := by
      show registerFindStep s n dto identifier choice = _
      rw [registerFindStep, read, named]
      rfl
    exact LeadsTo.answer (alone_step at_ turns) quiet rfl (List.mem_singleton_self _)
  | none =>
    dsimp only
    rw [if_pos fits]
    let hash := cfg.hash dto.password choice.draw
    let otp := prepare cfg s.now choice.draw
    let s₁ := s.moveClient n (s.goOn (.registerPrepare dto identifier) [])
    let s₂ := s₁.moveClient n (s₁.goOn (.begin_ (.register dto identifier hash otp)) [])
    have first : step cfg s (.client n choice) = some s₁ := by
      apply alone_step at_
      show registerFindStep s n dto identifier choice = _
      rw [registerFindStep, read, named]
      rfl
    have second : step cfg s₁ (.client n choice) = some s₂ :=
      alone_step (State.moveClient_self ..) rfl
    have ran : (registerTx identifier (cfg.hash dto.password (s.occasion n choice).draw)
        (prepare cfg (s.occasion n choice).now (s.occasion n choice).draw)).transaction plan
          (s.occasion n choice).around s.shop.db = _ := registerTx_ok named fresh
    rw [ran]
    have quiet₂ : s₂.Quiet := quiet
    refine LeadsTo.step first (LeadsTo.step second ?_)
    refine LeadsTo.begin choice quiet₂ (State.moveClient_self ..)
      fun t₁ writing₁ at₁ serial₁ tokens₁ => ?_
    have created := @answer_createUser s.server.db identifier hash (t₁.env (.client n) s.clock choice)
      named (fresh.users 0)
    refine LeadsTo.statement writing₁ at₁ created fun t₂ writing₂ at₂ serial₂ tokens₂ => ?_
    have owner : (Lib.applyAll s.server.db [Write.insertUser choice.draw
        (newUser identifier hash)]).users.get? choice.draw ≠ none := by
      intro missing
      cases (Table.get?_insert_self (fresh.users 0)).symm.trans missing
    refine LeadsTo.issueOtp s rfl (tokens₂.trans tokens₁) (serial₂.trans serial₁) writing₂ at₂ owner
      (fresh.codes 1) (fresh.events 2) fun t₃ writing₃ at₃ tokens₃ => ?_
    exact LeadsTo.returns writing₃ choice at₃ tokens₃ (List.mem_singleton_self _)

end Steps

end FlashSale
