/-
# Accounts: what steps do to auth calls, users and one-time codes

A client's view is where it is in a call of `login`, `verifyOtp`, `refresh` or
`logout`, the transaction of `verifyOtp` included.

The calls about accounts run outside transactions for the most part, one statement after
another, so that what a call has read may be out of date when it goes on. A view keeps what
the call carries along, and forgets the rest of the process.

* `step_auth`: every way in which a step moves a view, with the token store and the
  events that it adds.
* `step_user`, `step_user_back`: what a step does to the row of a user.
* `step_otp`, `step_otp_back`: what a step does to the row of a code.
-/
import FlashSale.History

namespace FlashSale

open Lib (Table)

/-! ### Views -/

/-- Where a client is in an auth call, with what it has read on its way. A verification keeps
its view from the comparison of its code until its transaction has ended. -/
inductive AuthView where
  | call (call : AuthCall)
  /-- in the transaction of `verifyOtp`, or about to begin it -/
  | verifying (dto : VerifyOtpDto) (otpId user : Uuid)

def Client.view : Client → Option AuthView
  | .auth call => some (.call call)
  | .begin_ (.verify dto otpId user) => some (.verifying dto otpId user)
  | .tx (.verify dto otpId user) _ _ => some (.verifying dto otpId user)
  | _ => none

def State.views (s : State) (n : Nat) : Option AuthView := (s.clients n).view

theorem Client.view_call {client : Client} {call : AuthCall} (is : client.view = some (.call call)) :
    client = .auth call := by
  unfold Client.view at is
  split at is <;> cases is
  rfl

/-- An event that concerns an account: a change of it, a comparison with a code, or
what becomes of a token. -/
def Event.isAuth : Event → Bool
  | .committed (.account _) => true
  | .compared _ _ _ _ _ => true
  | .granted _ _ => true
  | .revoked _ _ => true
  | _ => false

/-- Events that concern no account. -/
def Quiet (events : List Event) : Prop := ∀ e ∈ events, e.isAuth = false

theorem Quiet.nil : Quiet [] := fun _ mem => by cases mem

/-- The call that a label starts. -/
inductive AuthStarts (cfg : Cfg) (n : Nat) : Label → AuthCall → Prop where
  | login {dto : LoginDto} {identifier : NormalizedIdentifier}
      (normalized : normalizeIdentifier cfg dto.identifier = .ok identifier) :
      AuthStarts cfg n (.auth n (.login dto)) (.loginFind dto identifier)
  | verifyOtp {dto : VerifyOtpDto} {identifier : NormalizedIdentifier}
      (normalized : normalizeIdentifier cfg dto.identifier = .ok identifier) :
      AuthStarts cfg n (.auth n (.verifyOtp dto)) (.verifyFind dto identifier)
  | refresh {token : Text} : AuthStarts cfg n (.auth n (.refresh token)) (.get .rotate token)
  | logout {token : Text} : AuthStarts cfg n (.auth n (.logout token)) (.get .revoke token)
  | disable {user : Uuid} : AuthStarts cfg n (.disable n user) (.disabling user)

/-- How the view of a client changes in a step, with the token store after it and
the events that it adds. -/
inductive AuthMove (cfg : Cfg) (s : State) (n : Nat) :
    Label → Option AuthView → Option AuthView → (Text → Option Session) → List Event → Prop where
  | asks {l : Label} {call : AuthCall} (starts : AuthStarts cfg n l call) :
      AuthMove cfg s n l none (some (.call call)) s.tokens []
  /-- the call answers and does nothing else, fails, or its process dies -/
  | ends {l : Label} {view : AuthView} {events : List Event} (quiet : Quiet events)
      (lost : l = .clientFail n ∨ l = .clientCrash n ∨ ∃ choice, l = .client n choice) :
      AuthMove cfg s n l (some view) none s.tokens events
  | goes {choice : Choice} {call : AuthCall} {next : Client} {events : List Event}
      (goes : AuthGoes cfg s n choice call next events) :
      AuthMove cfg s n (.client n choice) (some (.call call)) next.view s.tokens events
  | commands {call next : AuthCall} {tokens : Text → Option Session}
      (done : Commands cfg s call tokens next) :
      AuthMove cfg s n (.command n) (some (.call call)) (some (.call next)) tokens []
  | verified {choice : Choice} {dto : VerifyOtpDto} {otpId user : Uuid} :
      AuthMove cfg s n (.client n choice) (some (.verifying dto otpId user))
        (some (.call (.issue ⟨.verifyOtp dto, user, .code otpId⟩))) s.tokens
        [.committed (.account (.verified otpId user))]

/-- What a step does to the views, the token store and the history: it moves one
view, or none and adds no event of an account. -/
inductive AuthStep (cfg : Cfg) (s : State) (l : Label) (s' : State) : Prop where
  | other {events : List Event} (views : s'.views = s.views) (tokens : s'.tokens = s.tokens)
      (history : s'.history = s.history ++ events) (quiet : Quiet events)
  | moves {n : Nat} {next : Option AuthView} {events : List Event}
      (move : AuthMove cfg s n l (s.views n) next s'.tokens events)
      (views : s'.views = Function.update s.views n next)
      (history : s'.history = s.history ++ events)

section Steps

variable {cfg : Cfg} {s s' : State}

theorem State.views_moveClient (n : Nat) (move : Move Client) :
    (s.moveClient n move).views = Function.update s.views n move.next.view := by
  funext m
  by_cases same : m = n
  · subst same
    simp [State.views]
  · simp [State.views, State.moveClient_ne s move same, Function.update_of_ne same]

/-- A client whose view stays leaves all views as they are. -/
theorem State.views_same {n : Nat} {client : Client} (same : client.view = s.views n) :
    (fun m => (Function.update s.clients n client m).view) = s.views := by
  funext m
  by_cases own : m = n
  · subst own
    simp [same]
  · simp [Function.update_of_ne own, State.views]

theorem PlainEvent.quiet {n : Nat} {e : Event} (plain : PlainEvent n e)
    (none : ∀ change, e ≠ .committed (.account change)) : e.isAuth = false := by
  obtain ⟨commit, rfl⟩ | ⟨request, response, rfl⟩ := plain
  · cases commit with
    | account change => exact absurd rfl (none change)
    | _ => rfl
  · rfl

theorem answer_quiet {n : Nat} {request : Option Request} {response : Response} :
    Quiet (answer n request response) := by
  intro e mem
  obtain ⟨r, _, rfl⟩ := List.mem_map.mp mem
  rfl

/-- A client that is in no auth call stays in none. -/
theorem clientStep_away {n : Nat} {choice : Choice} {client : Client} {move : Move Client}
    (away : client.view = none) (taken : clientStep cfg s n choice client = some move) :
    move.next.view = none := by
  cases client with
  | idle => cases taken
  | lookup request =>
    cases taken
    unfold lookupStep
    split
    · rfl
    · split <;> rfl
  | handle request key =>
    cases taken
    unfold handleStep
    split <;> rfl
  | registerFind dto identifier =>
    obtain ⟨-, server, -, ⟨response, rfl⟩ | ⟨-, rfl⟩⟩ := registerFindStep_turns taken
    · rfl
    · rfl
  | registerPrepare dto identifier => cases taken; rfl
  | resendFind input identifier =>
    obtain ⟨-, server, -, ⟨response, rfl⟩ | ⟨id, user, -, -, rfl⟩⟩ := resendFindStep_turns taken
    · rfl
    · rfl
  | resendPrepare input user identifier => cases taken; rfl
  | auth call => cases away
  | begin_ job =>
    cases taken
    cases job with
    | verify dto otpId user => cases away
    | _ => rfl
  | tx job started body =>
    change txStep s n job started body choice = some move at taken
    obtain ⟨⟨progress, server⟩, ran, eq⟩ := Option.map_eq_some_iff.mp taken
    cases job with
    | verify dto otpId user => cases away
    | _ => cases progress <;> cases eq <;> rfl
  | deliver request key response answered stored =>
    cases answered <;> cases taken
    cases stored <;> rfl

variable {l : Label}

theorem AuthStep.still {n : Nat} {move : Move Client} (same : move.next.view = s.views n)
    (quiet : Quiet move.events) : AuthStep cfg s l (s.moveClient n move) := by
  refine .other ?_ rfl rfl quiet
  rw [State.views_moveClient, same, Function.update_eq_self]

/-- A client that is in no auth call moves no view. -/
theorem clientStep_still {n : Nat} {choice : Choice} {move : Move Client}
    (away : (s.clients n).view = none) (taken : clientStep cfg s n choice (s.clients n) = some move) :
    AuthStep cfg s (.client n choice) (s.moveClient n move) := by
  refine .still ((clientStep_away away taken).trans away.symm) fun e mem => ?_
  have plain : (s.clients n).inAuth = false := by
    cases client : s.clients n with
    | auth call => rw [client] at away; cases away
    | _ => rfl
  refine (clientStep_plain plain taken mem).quiet fun change is => ?_
  -- What it commits is the result of a transaction other than that of `verifyOtp`.
  have committed : Commit.account change ∈ commits move.events :=
    List.mem_filterMap.mpr ⟨e, mem, by rw [is]; rfl⟩
  rw [clientStep_commits taken, Option.mem_toList] at committed
  cases client : s.clients n with
  | auth call => rw [client] at away; cases away
  | tx job started body =>
    rw [client] at committed away
    cases body with
    | pure result => cases job <;> cases committed; cases away
    | _ => cases committed
  | _ => rw [client] at committed; cases committed

/-- A step of the transaction of `verifyOtp`. -/
theorem txStep_auth {n : Nat} {choice : Choice} {dto : VerifyOtpDto} {otpId user : Uuid}
    {started : Int} {body : Program Unit} {move : Move Client}
    (at_ : s.clients n = .tx (.verify dto otpId user) started body)
    (taken : txStep s n (.verify dto otpId user) started body choice = some move) :
    AuthStep cfg s (.client n choice) (s.moveClient n move) := by
  have view : s.views n = some (.verifying dto otpId user) := by rw [State.views, at_]; rfl
  obtain ⟨⟨progress, server⟩, ran, eq⟩ := Option.map_eq_some_iff.mp taken
  cases progress with
  | running next =>
    cases eq
    exact .still view.symm Quiet.nil
  | returned result =>
    cases eq
    refine .moves ?_ (State.views_moveClient n _) rfl
    rw [view]
    exact .verified
  | threw e =>
    cases eq
    refine .moves ?_ (State.views_moveClient n _) rfl
    rw [view]
    exact .ends answer_quiet (Or.inr (Or.inr ⟨choice, rfl⟩))

theorem clientStep_auth {n : Nat} {choice : Choice} {move : Move Client}
    (taken : clientStep cfg s n choice (s.clients n) = some move) :
    AuthStep cfg s (.client n choice) (s.moveClient n move) := by
  cases client : s.clients n with
  | auth call =>
    have view : s.views n = some (.call call) := by rw [State.views, client]; rfl
    rw [client] at taken
    have turn : AuthTurn cfg s n choice call move.next move.events := authStep_turns taken
    refine .moves ?_ (State.views_moveClient n move) rfl
    rw [view]
    generalize move.next = next, move.events = events at turn
    cases turn with
    | ends response => exact .ends answer_quiet (Or.inr (Or.inr ⟨choice, rfl⟩))
    | goes goes => exact .goes goes
  | begin_ job =>
    cases job with
    | verify dto otpId user =>
      rw [client] at taken
      cases taken
      exact .still (by rw [State.views, client]; rfl) Quiet.nil
    | _ => exact clientStep_still (by rw [client]; rfl) taken
  | tx job started body =>
    cases job with
    | verify dto otpId user =>
      rw [client] at taken
      exact txStep_auth client taken
    | _ => exact clientStep_still (by rw [client]; rfl) taken
  | _ => exact clientStep_still (by rw [client]; rfl) taken

/-- A client that takes a request, or an operator. -/
theorem start_auth {n : Nat} {start : Start} (at_ : s.clients n = .idle)
    (label : l = match start with
      | .purchase request => .purchase n request
      | .create input => .create n input
      | .register dto => .register n dto
      | .resend identifier => .resend n identifier
      | .auth request => .auth n request
      | .disable user => .disable n user) :
    AuthStep cfg s l (s.moveClient n (startClient cfg s n start)) := by
  have view : s.views n = none := by rw [State.views, at_]; rfl
  have answered : ∀ {request : Request} {response : Response},
      Quiet [.answered n request response] := by
    intro request response e mem
    rw [List.mem_singleton.mp mem]
    rfl
  have begins : ∀ {call : AuthCall}, AuthStarts cfg n l call →
      AuthStep cfg s l (s.moveClient n (s.goOn (.auth call) [])) := by
    intro call starts
    refine .moves ?_ (State.views_moveClient n _) rfl
    rw [view]
    exact .asks starts
  cases start with
  | purchase request => exact .still view.symm Quiet.nil
  | create input => exact .still view.symm Quiet.nil
  | register dto =>
    dsimp only [startClient]
    split
    · exact .still view.symm Quiet.nil
    · exact .still view.symm answered
  | resend input =>
    dsimp only [startClient]
    split
    · exact .still view.symm Quiet.nil
    · exact .still view.symm answered
  | auth request =>
    subst label
    cases request with
    | login dto =>
      dsimp only [startClient, startAuth]
      split
      · rename_i normalized
        exact begins (.login normalized)
      · exact .still view.symm answered
    | verifyOtp dto =>
      dsimp only [startClient, startAuth]
      split
      · rename_i normalized
        exact begins (.verifyOtp normalized)
      · exact .still view.symm answered
    | refresh token => exact begins .refresh
    | logout token => exact begins .logout
  | disable user =>
    subst label
    exact begins .disable

/-- A client that fails or dies ends the call that it is in. -/
theorem lost_auth {n : Nat} {move : Move Client} (idle : move.next = .idle) (quiet : Quiet move.events)
    (lost : l = .clientFail n ∨ l = .clientCrash n) :
    AuthStep cfg s l (s.moveClient n move) := by
  cases view : s.views n with
  | none => exact .still (by rw [idle, view]; rfl) quiet
  | some call =>
    refine .moves ?_ (State.views_moveClient n move) rfl
    rw [view, idle]
    exact .ends quiet (lost.imp_right Or.inl)

/-- A worker commits no change of an account. -/
theorem workerStep_quiet {w : Nat} {choice : Choice} {move : Move Worker}
    (taken : workerStep cfg s w choice (s.workers w) = some move) : Quiet move.events := by
  intro e mem
  rcases workerStep_events rfl taken mem with
    ⟨commit, rfl⟩ | ⟨_, _, row, delivery, _, _, _, handler⟩ | ⟨started, rows, _, rfl⟩
  · have committed : commit ∈ commits move.events := List.mem_filterMap.mpr ⟨_, mem, rfl⟩
    rw [workerStep_commits taken, Option.mem_toList] at committed
    have committer : Committer s (.worker w choice) commit := committing_cases committed
    cases committer <;> rfl
  · rcases handler with ⟨commit, rfl⟩ | ⟨kind, rfl⟩
    · have committed : commit ∈ commits move.events := List.mem_filterMap.mpr ⟨_, mem, rfl⟩
      rw [workerStep_commits taken, Option.mem_toList] at committed
      have committer : Committer s (.worker w choice) commit := committing_cases committed
      cases committer <;> rfl
    · rfl
  · rfl

/-- Everything that a step can do to the auth calls: one of them moves, and all others, their
tokens and their events stay as they are. -/
theorem step_auth (taken : step cfg s l = some s') : AuthStep cfg s l s' := by
  cases step_cases taken with
  | elapse duration => exact .other rfl rfl (List.append_nil _).symm Quiet.nil
  | @store n request key response answered at_ =>
    refine .other (State.views_same ?_) rfl (List.append_nil _).symm Quiet.nil
    rw [State.views, at_]
    cases answered <;> rfl
  | @command n call next tokens at_ sent =>
    have move : AuthMove cfg s n (.command n) (s.views n) (some (.call next)) tokens [] := by
      rw [State.views, at_]
      exact .commands (AuthCall.commands sent)
    refine .moves move ?_ (List.append_nil _).symm
    funext m
    by_cases own : m = n
    · subst own
      simp [State.views, Client.view]
    · simp [State.views, Function.update_of_ne own]
  | start start at_ label => exact start_auth at_ label
  | client ran => exact clientStep_auth ran
  | @clientFail n move ran =>
    refine lost_auth ?_ ?_ (Or.inl rfl)
    · cases client : s.clients n <;> rw [client] at ran <;> cases ran <;> rfl
    · cases client : s.clients n <;> rw [client] at ran <;> cases ran <;> exact answer_quiet
  | clientCrash n => exact lost_auth rfl Quiet.nil (Or.inr rfl)
  | poll at_ => exact .other rfl rfl rfl Quiet.nil
  | worker ran => exact .other rfl rfl rfl (workerStep_quiet ran)
  | workerFail ran =>
    refine .other rfl rfl rfl ?_
    rw [workerFail_events ran]
    exact Quiet.nil
  | loseTick ran =>
    refine .other rfl rfl rfl ?_
    rw [loseTick_events ran]
    exact Quiet.nil
  | workerCrash w => exact .other rfl rfl rfl Quiet.nil

/-- A view after a step was there before, or the step has moved to it. -/
theorem step_view (taken : step cfg s l = some s') {n : Nat} {view : AuthView}
    (is : s'.views n = some view) :
    s.views n = some view ∨ ∃ events, AuthMove cfg s n l (s.views n) (some view) s'.tokens events := by
  cases step_auth taken with
  | other views _ _ _ => exact Or.inl (views ▸ is)
  | @moves m next events move views _ =>
    rw [views] at is
    by_cases own : n = m
    · subst own
      rw [Function.update_self] at is
      subst is
      exact Or.inr ⟨events, move⟩
    · rw [Function.update_of_ne own] at is
      exact Or.inl is

/-- Where a client is that adds the event, if it is one with which a call returns. -/
def ReturnsAt (s : State) (l : Label) : Event → Prop
  | .granted n grant =>
    ∃ choice pair, l = .client n choice ∧ s.clients n = .auth (.reply grant pair)
  | .revoked n token => ∃ choice, l = .client n choice ∧ s.clients n = .auth (.revoked token)
  | _ => True

theorem Quiet.returnsAt {events : List Event} (quiet : Quiet events) {e : Event} (mem : e ∈ events) :
    ReturnsAt s l e := by
  have plain := quiet e mem
  cases e with
  | granted n grant => cases plain
  | revoked n token => cases plain
  | _ => trivial

/-- A call that returns is at its last step. -/
theorem step_returns (taken : step cfg s l = some s') {events : List Event}
    (history : s'.history = s.history ++ events) {e : Event} (mem : e ∈ events) :
    ReturnsAt s l e := by
  cases step_auth taken with
  | other _ _ history' quiet =>
    rw [history'] at history
    rw [← List.append_cancel_left history] at mem
    exact quiet.returnsAt mem
  | @moves m next events' move _ history' =>
    rw [history'] at history
    rw [← List.append_cancel_left history] at mem
    generalize at_ : s.views m = view, s'.tokens = tokens at move
    cases move with
    | ends quiet _ => exact quiet.returnsAt mem
    | @goes choice call next events goes =>
      cases goes with
      | @replies grant pair =>
        rcases List.mem_cons.mp mem with rfl | later
        · exact ⟨choice, pair, rfl, Client.view_call at_⟩
        · cases List.mem_singleton.mp later
          trivial
      | revokes =>
        rcases List.mem_cons.mp mem with rfl | later
        · exact ⟨choice, rfl, Client.view_call at_⟩
        · cases List.mem_singleton.mp later
          trivial
      | counts =>
        rcases List.mem_cons.mp mem with rfl | later
        · trivial
        · cases List.mem_singleton.mp later
          trivial
      | verifyMatches plain =>
        cases List.mem_singleton.mp mem
        trivial
      | verifyDiffers plain differs =>
        cases List.mem_singleton.mp mem
        trivial
      | disables =>
        cases List.mem_singleton.mp mem
        trivial
      | _ => cases mem
    | verified =>
      cases List.mem_singleton.mp mem
      trivial
    | _ => cases mem

theorem step_granted (taken : step cfg s l = some s') {events : List Event}
    (history : s'.history = s.history ++ events) {n : Nat} {grant : Grant}
    (mem : .granted n grant ∈ events) :
    ∃ choice pair, l = .client n choice ∧ s.clients n = .auth (.reply grant pair) :=
  step_returns taken history mem

/-! ### Users and codes -/

/-- The change of an account that a commit is, if it is one. -/
def Commit.change? : Commit → Option AccountChange
  | .account change => some change
  | _ => none

/-- The changes of accounts that a history records. -/
def changes (history : List Event) : List AccountChange :=
  (commits history).filterMap Commit.change?

@[simp] theorem changes_append (history more : List Event) :
    changes (history ++ more) = changes history ++ changes more := by
  simp [changes]

theorem Quiet.changes {events : List Event} (quiet : Quiet events) : changes events = [] := by
  unfold FlashSale.changes commits
  rw [List.filterMap_filterMap, List.filterMap_eq_nil_iff]
  intro e mem
  have plain := quiet e mem
  cases e with
  | committed commit =>
    cases commit with
    | account change => cases plain
    | _ => rfl
  | _ => rfl

theorem Atomic.change_found {db db' : Db} {commit : Commit} (happened : Atomic cfg db commit db')
    {change : AccountChange} (is : commit.change? = some change) : change.Found db := by
  cases happened with
  | account spec =>
    cases is
    exact spec.found
  | _ => cases is

/-- A user stays, with the identifiers, and with the status unless a change of the
account gives another. -/
theorem Atomic.user_kept {db db' : Db} {commit : Commit} (happened : Atomic cfg db commit db')
    {id : Uuid} {row : UserRow} (found : db.users.get? id = some row) :
    ∃ row', db'.users.get? id = some row' ∧ row'.email = row.email ∧ row'.phone = row.phone ∧
      row'.status = (commit.change?.bind (·.status id)).getD row.status := by
  cases happened with
  | purchased _ spec =>
    rw [spec.effect]
    refine ⟨_, Table.get?_modify_of_some found, ?_⟩
    split <;> exact ⟨rfl, rfl, rfl⟩
  | created _ spec => rw [spec.effect]; exact ⟨row, found, rfl, rfl, rfl⟩
  | registered _ spec =>
    rw [spec.effect]
    exact ⟨row, Table.get?_insert_of_some found, rfl, rfl, rfl⟩
  | resent _ spec => rw [spec.effect]; exact ⟨row, found, rfl, rfl, rfl⟩
  | account spec =>
    rw [spec.effect, AccountChange.apply_users, found]
    exact ⟨_, rfl, rfl, rfl, rfl⟩
  | settled spec =>
    cases spec with
    | skipped _ => exact ⟨row, found, rfl, rfl, rfl⟩
    | settled _ _ _ effect => rw [effect]; exact ⟨row, found, rfl, rfl, rfl⟩
  | otpSent _ => exact ⟨row, found, rfl, rfl, rfl⟩
  | ticked spec => rw [spec.effect]; exact ⟨row, found, rfl, rfl, rfl⟩

/-- A user who was not there before is one that register has just created. -/
theorem Atomic.user_new {db db' : Db} {commit : Commit} (happened : Atomic cfg db commit db')
    {id : Uuid} {row : UserRow} (new : db.users.get? id = none)
    (found : db'.users.get? id = some row) :
    ∃ identifier passwordHash otp, commit = .registered identifier passwordHash otp id ∧
      row = ⟨identifier.email, identifier.phone, passwordHash, .pendingVerification, 0⟩ := by
  have absent : db'.users.get? id ≠ none := by
    rw [found]
    exact Option.some_ne_none row
  cases happened with
  | purchased _ spec =>
    rw [spec.effect] at absent
    exact absurd (Table.get?_modify_eq_none.mpr new) absent
  | created _ spec => rw [spec.effect] at absent; exact absurd new absent
  | @registered _ identifier passwordHash otp user _ spec =>
    rw [spec.effect] at found
    rcases Table.get?_insert_cases found with old | ⟨rfl, rfl⟩
    · rw [new] at old
      cases old
    · exact ⟨identifier, passwordHash, otp, rfl, rfl⟩
  | resent _ spec => rw [spec.effect] at absent; exact absurd new absent
  | account spec =>
    rw [spec.effect, AccountChange.apply_users, new] at absent
    exact absurd rfl absent
  | settled spec =>
    cases spec with
    | skipped _ => exact absurd new absent
    | settled _ _ _ effect => rw [effect] at absent; exact absurd new absent
  | otpSent _ => exact absurd new absent
  | ticked spec => rw [spec.effect] at absent; exact absurd new absent

/-- A code after a commit that gives it a `sent` and makes the change, if any. -/
def OtpRow.after (otp : OtpRow) (id : Uuid) (change : Option AccountChange) (sent : Bool) : OtpRow :=
  { otp with
    sent := sent
    used := otp.used || decide (change.bind AccountChange.uses = some id)
    attempts := otp.attempts + (change.map (AccountChange.counts id)).getD 0 }

@[simp] theorem OtpRow.after_none (otp : OtpRow) (id : Uuid) (sent : Bool) :
    otp.after id none sent = { otp with sent := sent } := by
  simp [OtpRow.after]

/-- A code stays, up to `sent` and what the change of an account does to it. -/
theorem Atomic.otp_changed {db db' : Db} {commit : Commit} (happened : Atomic cfg db commit db')
    {id : Uuid} {otp : OtpRow} (found : db.otpCodes.get? id = some otp) :
    ∃ sent, db'.otpCodes.get? id = some (otp.after id commit.change? sent) := by
  have same : otp.after id none otp.sent = otp := OtpRow.after_none otp id otp.sent
  cases happened with
  | purchased _ spec => rw [spec.effect]; exact ⟨otp.sent, found.trans (congrArg some same.symm)⟩
  | created _ spec => rw [spec.effect]; exact ⟨otp.sent, found.trans (congrArg some same.symm)⟩
  | registered _ spec =>
    rw [spec.effect]
    exact ⟨otp.sent, (Table.get?_insert_of_some found).trans (congrArg some same.symm)⟩
  | resent _ spec =>
    rw [spec.effect]
    exact ⟨otp.sent, (Table.get?_insert_of_some found).trans (congrArg some same.symm)⟩
  | account spec =>
    rw [spec.effect, AccountChange.apply_otpCodes, found]
    exact ⟨otp.sent, rfl⟩
  | settled spec =>
    cases spec with
    | skipped _ => exact ⟨otp.sent, found.trans (congrArg some same.symm)⟩
    | settled _ _ _ effect =>
      rw [effect]
      exact ⟨otp.sent, found.trans (congrArg some same.symm)⟩
  | @otpSent otpId row _ =>
    by_cases mine : otpId = id
    · refine ⟨true, (Table.get?_modify_of_some found).trans ?_⟩
      rw [if_pos mine]
      exact congrArg some (OtpRow.after_none otp id true).symm
    · refine ⟨otp.sent, (Table.get?_modify_of_some found).trans ?_⟩
      rw [if_neg mine]
      exact congrArg some same.symm
  | ticked spec => rw [spec.effect]; exact ⟨otp.sent, found.trans (congrArg some same.symm)⟩

/-- The commits that issue a code, with the owner and the code. -/
def Commit.issues : Commit → Option (Uuid × NormalizedIdentifier × PreparedOtp)
  | .registered identifier _ otp user => some (user, identifier, otp)
  | .resent user identifier otp => some (user, identifier, otp)
  | _ => none

/-- A code that was not there before has just been issued. -/
theorem Atomic.otp_new {db db' : Db} {commit : Commit} (happened : Atomic cfg db commit db')
    {id : Uuid} {row : OtpRow} (new : db.otpCodes.get? id = none)
    (found : db'.otpCodes.get? id = some row) :
    ∃ user identifier otp createdAt, commit.issues = some (user, identifier, otp) ∧
      row = otpRow user identifier otp createdAt := by
  have absent : db'.otpCodes.get? id ≠ none := by
    rw [found]
    exact Option.some_ne_none row
  cases happened with
  | purchased _ spec => rw [spec.effect] at absent; exact absurd new absent
  | created _ spec => rw [spec.effect] at absent; exact absurd new absent
  | registered of spec =>
    rw [spec.effect] at found
    rcases Table.get?_insert_cases found with old | ⟨-, rfl⟩
    · rw [new] at old
      cases old
    · exact ⟨_, _, _, of.createdAt, rfl, rfl⟩
  | resent of spec =>
    rw [spec.effect] at found
    rcases Table.get?_insert_cases found with old | ⟨-, rfl⟩
    · rw [new] at old
      cases old
    · exact ⟨_, _, _, of.createdAt, rfl, rfl⟩
  | account spec =>
    rw [spec.effect, AccountChange.apply_otpCodes, new] at absent
    exact absurd rfl absent
  | settled spec =>
    cases spec with
    | skipped _ => exact absurd new absent
    | settled _ _ _ effect => rw [effect] at absent; exact absurd new absent
  | otpSent _ => exact absurd (Table.get?_modify_eq_none.mpr new) absent
  | ticked spec => rw [spec.effect] at absent; exact absurd new absent

/-! ### What a step changes -/

/-- The change of an account that a step with this label commits. -/
def State.change? (s : State) (l : Label) : Option AccountChange :=
  (s.committing l).bind Commit.change?

/-- The change that a step commits is the one it records. -/
theorem step_change (taken : step cfg s l = some s') {events : List Event}
    (history : s'.history = s.history ++ events) : s.change? l = (changes events).head? := by
  have recorded := step_commits taken
  rw [history, commits_append] at recorded
  rw [changes, List.append_cancel_left recorded, State.change?]
  cases s.committing l with
  | none => rfl
  | some commit => cases commit <;> rfl

/-- The history records the change that a step commits. -/
theorem step_changes (taken : step cfg s l = some s') :
    changes s'.history = changes s.history ++ (s.change? l).toList := by
  rw [changes, step_commits taken, List.filterMap_append, State.change?]
  cases s.committing l with
  | none => rfl
  | some commit => cases commit <;> rfl

/-- A change of an account is committed by the transaction of `verifyOtp`, or by one
of the two statements. -/
theorem change_cases {change : AccountChange} (is : s.change? l = some change) :
    (∃ n choice dto otpId user started, l = .client n choice ∧
      s.clients n = .tx (.verify dto otpId user) started (.pure ()) ∧
      change = .verified otpId user) ∨
    (∃ n choice dto otpId, l = .client n choice ∧
      s.clients n = .auth (.verifyCount dto otpId) ∧ change = .attempted otpId) ∨
    ∃ n choice user, l = .client n choice ∧ s.clients n = .auth (.disabling user) ∧
      change = .disabled user := by
  obtain ⟨commit, committing, changes⟩ := Option.bind_eq_some_iff.mp is
  cases committing_cases committing with
  | @client n choice job started result at_ =>
    cases job with
    | verify dto otpId user =>
      cases changes
      exact Or.inl ⟨n, choice, dto, otpId, user, started, rfl, at_, rfl⟩
    | _ => cases changes
  | @counts n choice dto otpId at_ =>
    cases changes
    exact Or.inr (Or.inl ⟨n, choice, dto, otpId, rfl, at_, rfl⟩)
  | @disables n choice user at_ =>
    cases changes
    exact Or.inr (Or.inr ⟨n, choice, user, rfl, at_, rfl⟩)
  | _ => cases changes

/-- The change of an account that a step commits has found what it is about. -/
theorem step_found (coherent : Coherent cfg s) (taken : step cfg s l = some s')
    {change : AccountChange} (is : s.change? l = some change) : change.Found s.server.db := by
  obtain ⟨commit, committing, changes⟩ := Option.bind_eq_some_iff.mp is
  rcases step_atomic coherent taken with ⟨none, -⟩ | ⟨commit', committing', happened⟩
  · rw [committing] at none
    cases none
  · rw [committing] at committing'
    cases committing'
    exact happened.change_found changes

/-- What a step does to the row of a user: it stays with its identifiers, and its status is what
the change of the step sets, if there is one. -/
theorem step_user (coherent : Coherent cfg s) (taken : step cfg s l = some s') {id : Uuid}
    {row : UserRow} (found : s.server.db.users.get? id = some row) :
    ∃ row', s'.server.db.users.get? id = some row' ∧ row'.email = row.email ∧
      row'.phone = row.phone ∧ row'.status = ((s.change? l).bind (·.status id)).getD row.status := by
  rcases step_atomic coherent taken with ⟨none, same⟩ | ⟨commit, committing, happened⟩
  · rw [same, State.change?, none]
    exact ⟨row, found, rfl, rfl, rfl⟩
  · rw [State.change?, committing]
    exact happened.user_kept found

/-- Where the row of a user comes from. -/
theorem step_user_back (coherent : Coherent cfg s) (taken : step cfg s l = some s') {id : Uuid}
    {row' : UserRow} (found : s'.server.db.users.get? id = some row') :
    (∃ row, s.server.db.users.get? id = some row ∧ row'.email = row.email ∧ row'.phone = row.phone ∧
      row'.status = ((s.change? l).bind (·.status id)).getD row.status) ∨
    (s.server.db.users.get? id = none ∧ row'.status = .pendingVerification) := by
  cases before : s.server.db.users.get? id with
  | some row =>
    obtain ⟨row'', found', rest⟩ := step_user coherent taken before
    rw [found] at found'
    cases found'
    exact Or.inl ⟨row, rfl, rest⟩
  | none =>
    rcases step_atomic coherent taken with ⟨-, same⟩ | ⟨commit, -, happened⟩
    · rw [same, before] at found
      cases found
    · obtain ⟨_, _, _, -, rfl⟩ := happened.user_new before found
      exact Or.inr ⟨rfl, rfl⟩

/-- What a step does to the row of a code: it stays, but for what the commit of an account
change or of a sending sets. -/
theorem step_otp (coherent : Coherent cfg s) (taken : step cfg s l = some s') {id : Uuid}
    {otp : OtpRow} (found : s.server.db.otpCodes.get? id = some otp) :
    ∃ sent, s'.server.db.otpCodes.get? id = some (otp.after id (s.change? l) sent) := by
  rcases step_atomic coherent taken with ⟨none, same⟩ | ⟨commit, committing, happened⟩
  · rw [same, State.change?, none]
    exact ⟨otp.sent, found.trans (congrArg some (OtpRow.after_none otp id otp.sent).symm)⟩
  · rw [State.change?, committing]
    exact happened.otp_changed found

/-- Where the row of a code comes from. -/
theorem step_otp_back (coherent : Coherent cfg s) (taken : step cfg s l = some s') {id : Uuid}
    {otp' : OtpRow} (found : s'.server.db.otpCodes.get? id = some otp') :
    (∃ otp sent, s.server.db.otpCodes.get? id = some otp ∧ otp' = otp.after id (s.change? l) sent) ∨
    (s.server.db.otpCodes.get? id = none ∧ ∃ commit user identifier otp createdAt,
      s.committing l = some commit ∧ commit.issues = some (user, identifier, otp) ∧
      otp' = otpRow user identifier otp createdAt) := by
  cases before : s.server.db.otpCodes.get? id with
  | some otp =>
    obtain ⟨sent, found'⟩ := step_otp coherent taken before
    rw [found] at found'
    cases found'
    exact Or.inl ⟨otp, sent, rfl, rfl⟩
  | none =>
    rcases step_atomic coherent taken with ⟨-, same⟩ | ⟨commit, committing, happened⟩
    · rw [same, before] at found
      cases found
    · obtain ⟨user, identifier, otp, createdAt, issues, rfl⟩ := happened.otp_new before found
      exact Or.inr ⟨rfl, commit, user, identifier, otp, createdAt, committing, issues, rfl⟩

/-- A session after a move was stored before, or is the one that the call sets. -/
theorem AuthMove.stored {n : Nat} {view next : Option AuthView} {tokens : Text → Option Session}
    {events : List Event} (move : AuthMove cfg s n l view next tokens events) {jti : Text}
    {session : Session} (found : tokens jti = some session) :
    s.tokens jti = some session ∨ ∃ grant pair hash expiresAt,
      view = some (.call (.set grant pair jti hash)) ∧ next = some (.call (.reply grant pair)) ∧
      session = ⟨grant.userId, hash, expiresAt, grant.basis⟩ := by
  have updated : ∀ {jti' : Text} {value : Option Session},
      Function.update s.tokens jti' value jti = some session →
      s.tokens jti = some session ∨ (jti = jti' ∧ value = some session) := by
    intro jti' value found
    by_cases same : jti = jti'
    · subst same
      rw [Function.update_self] at found
      exact Or.inr ⟨rfl, found⟩
    · rw [Function.update_of_ne same] at found
      exact Or.inl found
  cases move with
  | commands done =>
    cases done with
    | rotates =>
      rcases updated found with old | ⟨-, new⟩
      · exact Or.inl old
      · cases new
    | revokes =>
      rcases updated found with old | ⟨-, new⟩
      · exact Or.inl old
      · cases new
    | sets =>
      rcases updated found with old | ⟨rfl, new⟩
      · exact Or.inl old
      · cases new
        exact Or.inr ⟨_, _, _, _, rfl, rfl, rfl⟩
  | _ => exact Or.inl found

/-- A session after a step was stored before, or a call has just set it. -/
theorem step_stored (taken : step cfg s l = some s') {jti : Text} {session : Session}
    (found : s'.tokens jti = some session) :
    s.tokens jti = some session ∨ ∃ n grant pair hash expiresAt,
      s.views n = some (.call (.set grant pair jti hash)) ∧
      s'.views n = some (.call (.reply grant pair)) ∧
      session = ⟨grant.userId, hash, expiresAt, grant.basis⟩ := by
  cases step_auth taken with
  | other _ tokens _ _ => exact Or.inl (tokens ▸ found)
  | @moves n next events move views _ =>
    rcases move.stored found with old | ⟨grant, pair, hash, expiresAt, at_, after, is⟩
    · exact Or.inl old
    · refine Or.inr ⟨n, grant, pair, hash, expiresAt, at_, ?_, is⟩
      rw [views, Function.update_self]
      exact after

end Steps

/-! ### Token pairs on their way -/

/-- The token pair that a call is about to issue, store or return. -/
def AuthView.grant? : AuthView → Option Grant
  | .call (.issue grant) => some grant
  | .call (.set grant _ _ _) => some grant
  | .call (.reply grant _) => some grant
  | _ => none

def State.grant? (s : State) (n : Nat) : Option Grant := (s.views n).bind AuthView.grant?

/-- How a client comes to have a token pair on its way: with a right password, with the commit
of a verification, or with the deletion of a refresh token. -/
inductive Begins (s : State) (l : Label) (n : Nat) : Grant → Prop where
  | login {dto : LoginDto} {user : Uuid} : Begins s l n ⟨.login dto, user, .password⟩
  | verifies {dto : VerifyOtpDto} {otpId user : Uuid}
      (change : s.change? l = some (.verified otpId user)) :
      Begins s l n ⟨.verifyOtp dto, user, .code otpId⟩
  | rotates {token jti : Text} {session : Session}
      (at_ : s.clients n = .auth (.del .rotate token jti session)) (label : l = .command n) :
      Begins s l n ⟨.refresh token, session.userId, .refresh token session.basis⟩

/-- What a step does to the token pairs on their way: all stay, one is lost with its call, one
is returned, or one begins. The history grows by a pair exactly when one is returned. -/
inductive GrantStep (s : State) (l : Label) (s' : State) : Prop where
  | keeps (same : s'.grant? = s.grant?) (granted : grants s'.history = grants s.history)
  | drops {n : Nat} (after : s'.grant? = Function.update s.grant? n none)
      (granted : grants s'.history = grants s.history)
  | returns {n : Nat} {grant : Grant} (before : s.grant? n = some grant)
      (after : s'.grant? = Function.update s.grant? n none)
      (granted : grants s'.history = grants s.history ++ [grant])
  | begins {n : Nat} {grant : Grant} (before : s.grant? n = none)
      (after : s'.grant? = Function.update s.grant? n (some grant)) (begins : Begins s l n grant)
      (granted : grants s'.history = grants s.history)

theorem Quiet.grants {events : List Event} (quiet : Quiet events) : grants events = [] := by
  refine List.filterMap_eq_nil_iff.mpr fun e mem => ?_
  have plain := quiet e mem
  cases e with
  | granted n grant => cases plain
  | _ => rfl

section Grants

variable {cfg : Cfg} {s s' : State} {l : Label}

theorem step_grants (taken : step cfg s l = some s') : GrantStep s l s' := by
  cases step_auth taken with
  | other views _ history quiet =>
    refine .keeps (funext fun n => ?_) ?_
    · rw [State.grant?, views, State.grant?]
    · rw [history, grants_append, quiet.grants, List.append_nil]
  | @moves n next events move views history =>
    have change := step_change taken history
    have after : s'.grant? = Function.update s.grant? n (next.bind AuthView.grant?) := by
      funext m
      rw [State.grant?, views]
      by_cases own : m = n
      · subst own
        simp
      · simp [Function.update_of_ne own, State.grant?]
    have granted : grants s'.history = grants s.history ++ grants events := by
      rw [history, grants_append]
    -- The view goes on with the pair that it had, if any.
    have goesOn : next.bind AuthView.grant? = s.grant? n → grants events = [] →
        GrantStep s l s' := by
      intro same none
      refine .keeps ?_ (by rw [granted, none, List.append_nil])
      rw [after, same, Function.update_eq_self]
    have own : ∀ {call : AuthCall}, s.views n = some (.call call) → s.clients n = .auth call :=
      fun is => Client.view_call is
    rw [State.grant?] at goesOn
    have before : ∀ {grant : Option Grant}, (s.views n).bind AuthView.grant? = grant →
        s.grant? n = grant := fun is => is
    generalize s.views n = view, s'.tokens = tokens at move goesOn own before
    cases move with
    | asks starts => cases starts <;> exact goesOn rfl rfl
    | ends quiet _ => exact .drops after (by rw [granted, quiet.grants, List.append_nil])
    | verified => exact .begins (before rfl) after (.verifies change) (granted.trans (List.append_nil _))
    | commands done =>
      cases done with
      | rotates =>
        exact .begins (before rfl) after (.rotates (own rfl) rfl) (granted.trans (List.append_nil _))
      | revokes => exact goesOn rfl rfl
      | sets => exact goesOn rfl rfl
    | goes goes =>
      cases goes with
      | loginPasses _ _ => exact .begins (before rfl) after .login (granted.trans (List.append_nil _))
      | replies => exact .returns (before rfl) after granted
      | _ => exact goesOn rfl rfl

end Grants

/-- Of the token pairs with a property, at most one is ever returned, and it is the
only one on its way until then. -/
structure SingleGrant (P : Grant → Bool) (s : State) : Prop where
  one : ∀ n n' grant grant', s.grant? n = some grant → s.grant? n' = some grant' →
    P grant = true → P grant' = true → n = n'
  first : ∀ n grant, s.grant? n = some grant → P grant = true → (grants s.history).countP P = 0
  most : (grants s.history).countP P ≤ 1

/-- No token pair with a property has been returned or is on its way. A pair counts from the
moment at which its call can no longer be refused. -/
structure NoGrant (P : Grant → Bool) (s : State) : Prop where
  none : ∀ n grant, s.grant? n = some grant → P grant = false
  returned : (grants s.history).countP P = 0

section Single

variable {cfg : Cfg} {s s' : State} {l : Label} {P : Grant → Bool}

theorem NoGrant.single (no : NoGrant P s) : SingleGrant P s := by
  constructor
  · intro n n' grant grant' on _ is _
    rw [no.none n grant on] at is
    cases is
  · intro n grant on is
    rw [no.none n grant on] at is
    cases is
  · rw [no.returned]
    exact Nat.zero_le 1

/-- A pair on its way after an update was on its way, or is the new one. -/
theorem grant_cases {f : Nat → Option Grant} {n m : Nat} {next : Option Grant} {grant : Grant}
    (on : Function.update f n next m = some grant) :
    (m ≠ n ∧ f m = some grant) ∨ (m = n ∧ next = some grant) := by
  by_cases own : m = n
  · subst own
    rw [Function.update_self] at on
    exact Or.inr ⟨rfl, on⟩
  · rw [Function.update_of_ne own] at on
    exact Or.inl ⟨own, on⟩

/-- What a step does to the pairs with a property: they stay or become fewer, one of
them is returned, or one begins. -/
inductive GrantsOf (P : Grant → Bool) (s : State) (l : Label) (s' : State) : Prop where
  | fewer (on : ∀ n grant, P grant = true → s'.grant? n = some grant → s.grant? n = some grant)
      (granted : (grants s'.history).countP P = (grants s.history).countP P)
  | returns {n : Nat} {grant : Grant} (is : P grant = true) (before : s.grant? n = some grant)
      (on : ∀ m grant', s'.grant? m = some grant' → m ≠ n ∧ s.grant? m = some grant')
      (granted : (grants s'.history).countP P = (grants s.history).countP P + 1)
  | begins {n : Nat} {grant : Grant} (is : P grant = true) (begins : Begins s l n grant)
      (on : ∀ m grant', s'.grant? m = some grant' → m = n ∨ s.grant? m = some grant')
      (granted : (grants s'.history).countP P = (grants s.history).countP P)

theorem step_grantsOf (taken : step cfg s l = some s') : GrantsOf P s l s' := by
  have dropped : ∀ {n m : Nat} {grant : Grant}, s'.grant? = Function.update s.grant? n none →
      s'.grant? m = some grant → m ≠ n ∧ s.grant? m = some grant := by
    intro n m grant after on
    rw [after] at on
    rcases grant_cases on with old | ⟨-, new⟩
    · exact old
    · cases new
  cases step_grants taken with
  | keeps same granted => exact .fewer (fun n grant _ on => same ▸ on) (by rw [granted])
  | drops after granted => exact .fewer (fun n grant _ on => (dropped after on).2) (by rw [granted])
  | @returns n grant before after granted =>
    cases is : P grant with
    | true =>
      refine .returns is before (fun m grant' on => dropped after on) ?_
      simp [granted, is]
    | false =>
      refine .fewer (fun m grant' _ on => (dropped after on).2) ?_
      simp [granted, is]
  | @begins n grant before after begins granted =>
    cases is : P grant with
    | true =>
      refine .begins is begins (fun m grant' on => ?_) (by rw [granted])
      rw [after] at on
      rcases grant_cases on with ⟨-, old⟩ | ⟨own, -⟩
      · exact Or.inr old
      · exact Or.inl own
    | false =>
      refine .fewer (fun m grant' is' on => ?_) (by rw [granted])
      rw [after] at on
      rcases grant_cases on with ⟨-, old⟩ | ⟨-, new⟩
      · exact old
      · cases new
        rw [is] at is'
        cases is'

/-- A step leaves no pair with the property if none was there and it begins none. -/
theorem NoGrant.step (no : NoGrant P s) (taken : FlashSale.step cfg s l = some s')
    (none : ∀ n grant, Begins s l n grant → P grant = false) : NoGrant P s' := by
  cases (step_grantsOf taken : GrantsOf P s l s') with
  | fewer on granted =>
    refine ⟨fun n grant on' => ?_, granted.trans no.returned⟩
    cases is : P grant with
    | false => rfl
    | true =>
      rw [no.none n grant (on n grant is on')] at is
      cases is
  | @returns n grant is before _ _ =>
    rw [no.none n grant before] at is
    cases is
  | @begins n grant is begins _ _ =>
    rw [none n grant begins] at is
    cases is

/-- A step keeps the pairs with the property single if it begins one only where there
was none. -/
theorem SingleGrant.step (single : SingleGrant P s) (taken : FlashSale.step cfg s l = some s')
    (fresh : ∀ n grant, Begins s l n grant → P grant = true → NoGrant P s) : SingleGrant P s' := by
  obtain ⟨one, first, most⟩ := single
  cases (step_grantsOf taken : GrantsOf P s l s') with
  | fewer on granted =>
    constructor
    · intro n n' grant grant' on₁ on₂ is is'
      exact one n n' grant grant' (on n grant is on₁) (on n' grant' is' on₂) is is'
    · intro n grant on' is
      rw [granted]
      exact first n grant (on n grant is on') is
    · rw [granted]
      exact most
  | @returns n grant is before on granted =>
    -- The pair was the only one, and none had been returned.
    have alone : ∀ m grant', s'.grant? m = some grant' → P grant' = true → False := by
      intro m grant' on' is'
      obtain ⟨ne, old⟩ := on m grant' on'
      exact ne (one m n grant' grant old before is' is)
    constructor
    · intro m m' grant' grant'' on₁ _ is₁ _
      exact (alone m grant' on₁ is₁).elim
    · intro m grant' on' is'
      exact (alone m grant' on' is').elim
    · rw [granted, first n grant before is]
  | @begins n grant is begins on granted =>
    have no := fresh n grant begins is
    have only : ∀ m grant', s'.grant? m = some grant' → P grant' = true → m = n := by
      intro m grant' on' is'
      rcases on m grant' on' with own | old
      · exact own
      · rw [no.none m grant' old] at is'
        cases is'
    constructor
    · intro m m' grant' grant'' on₁ on₂ is₁ is₂
      exact (only m grant' on₁ is₁).trans (only m' grant'' on₂ is₂).symm
    · intro m grant' _ _
      rw [granted]
      exact no.returned
    · rw [granted, no.returned]
      exact Nat.zero_le 1

end Single

end FlashSale
