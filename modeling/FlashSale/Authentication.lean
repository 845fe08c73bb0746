/-
# Where token pairs come from

A token pair is granted on a proof of the identity of its user: a password, a one-time
code, or the refresh token of a pair that was itself granted on a proof. `Proven` is that
derivation, and each of its cases names what a request had shown and what the stored row
said of it when they were compared.

Only what is in the history counts as a proof. A call carries what it has read between its
steps, and a stored refresh token names a user, so the invariant says of each of these that
it is backed: the pair that a call is about to grant, and every session in Redis.

* `Proven.step`: a proof stays one.
* `AuthMove.backed`: what a call is about to grant is proven.
* `Run.authenticated`: every session and every pair that is returned is proven.
-/
import FlashSale.RefreshTokens

namespace FlashSale

/-! ### Proofs of an identity -/

/-- The call of a client began as a request to log in with an identifier of the user,
whose password has this hash. -/
def AskedToLogIn (cfg : Cfg) (trace : List (State × Label)) (db : Db) (n : Nat) (dto : LoginDto)
    (user : Uuid) (passwordHash : String) : Prop :=
  (∃ p ∈ trace, p.2 = .auth n (.login dto)) ∧ ∃ identifier row,
    normalizeIdentifier cfg dto.identifier = .ok identifier ∧
    db.users.get? user = some row ∧ identifier.names row = true ∧ row.passwordHash = passwordHash

/-- A request gave an identifier of the user and the password. -/
def PasswordShown (cfg : Cfg) (trace : List (State × Label)) (db : Db) (user : Uuid) : Prop :=
  ∃ n dto passwordHash, AskedToLogIn cfg trace db n dto user passwordHash ∧
    cfg.compare dto.password passwordHash = true

/-- A request gave an identifier of the user and the code, which was valid when it was
read and has been used up. -/
def CodeShown (cfg : Cfg) (trace : List (State × Label)) (s : State) (otpId user : Uuid) : Prop :=
  ∃ n dto otp, AskedFor cfg trace s.server.db n dto user ∧
    ReadValid trace n dto user otpId otp ∧ cfg.decrypt otp.encryptedCode = .ok dto.code ∧
    .compared n dto user otpId true ∈ s.history ∧ VerifiedIn cfg trace otpId user

/-- A request gave the refresh token of the session while that was stored. -/
def TokenShown (cfg : Cfg) (trace : List (State × Label)) (token : Text) (session : Session) : Prop :=
  (∃ n, ∃ p ∈ trace, p.2 = .auth n (.refresh token)) ∧ ∃ jti rawPart,
    splitToken token = some (jti, rawPart) ∧ cfg.sha256 rawPart = session.hash ∧
    ∃ p ∈ trace, p.1.session jti = some session

/-- What a pair was granted on is a proof that the request was the user's. A refresh token
proves no more than what its own pair was granted on, so the derivation goes back to a
password or a code. -/
inductive Proven (cfg : Cfg) (trace : List (State × Label)) (s : State) (user : Uuid) : Basis → Prop where
  | password (shown : PasswordShown cfg trace s.server.db user) : Proven cfg trace s user .password
  | code {otpId : Uuid} (shown : CodeShown cfg trace s otpId user) :
      Proven cfg trace s user (.code otpId)
  | refresh {token : Text} {session : Session} (shown : TokenShown cfg trace token session)
      (own : session.userId = user) (earlier : Proven cfg trace s user session.basis) :
      Proven cfg trace s user (.refresh token session.basis)

section Proofs

variable {cfg : Cfg} {s s' : State} {l : Label} {trace : List (State × Label)} {user : Uuid}

/-- No commit changes a password. -/
theorem Atomic.password_kept {db db' : Db} {commit : Commit} (happened : Atomic cfg db commit db')
    {row row' : UserRow} (found : db.users.get? user = some row)
    (found' : db'.users.get? user = some row') : row'.passwordHash = row.passwordHash := by
  have same : db'.users = db.users → row'.passwordHash = row.passwordHash := by
    intro same
    rw [same, found] at found'
    cases found'
    rfl
  cases happened with
  | purchased _ spec =>
    rw [spec.effect] at found'
    cases (Lib.Table.get?_modify_of_some found).symm.trans found'
    split <;> rfl
  | created _ spec => exact same (by rw [spec.effect])
  | registered _ spec =>
    rw [spec.effect] at found'
    cases (Lib.Table.get?_insert_of_some found).symm.trans found'
    rfl
  | resent _ spec => exact same (by rw [spec.effect])
  | account spec =>
    rw [spec.effect, AccountChange.apply_users, found] at found'
    cases found'
    rfl
  | settled spec =>
    cases spec with
    | skipped _ => exact same rfl
    | settled _ _ _ effect => exact same (by rw [effect])
  | otpSent _ => exact same rfl
  | ticked spec => exact same (by rw [spec.effect])

theorem step_password (coherent : Coherent cfg s) (taken : step cfg s l = some s') {row row' : UserRow}
    (found : s.server.db.users.get? user = some row)
    (found' : s'.server.db.users.get? user = some row') : row'.passwordHash = row.passwordHash := by
  rcases step_atomic coherent taken with ⟨-, same⟩ | ⟨commit, -, happened⟩
  · rw [same, found] at found'
    cases found'
    rfl
  · exact happened.password_kept found found'

theorem AskedToLogIn.step {n : Nat} {dto : LoginDto} {passwordHash : String}
    (asked : AskedToLogIn cfg trace s.server.db n dto user passwordHash) (coherent : Coherent cfg s)
    (taken : step cfg s l = some s') :
    AskedToLogIn cfg (trace ++ [(s, l)]) s'.server.db n dto user passwordHash := by
  obtain ⟨⟨p, mem, label⟩, identifier, row, normalized, found, names, hash⟩ := asked
  obtain ⟨row', found', email, phone, -⟩ := step_user coherent taken found
  refine ⟨⟨p, List.mem_append_left _ mem, label⟩, identifier, row', normalized, found', ?_,
    (step_password coherent taken found found').trans hash⟩
  unfold NormalizedIdentifier.names at names ⊢
  rw [email, phone]
  exact names

theorem CodeShown.step {otpId : Uuid} (shown : CodeShown cfg trace s otpId user)
    (coherent : Coherent cfg s) (taken : step cfg s l = some s') :
    CodeShown cfg (trace ++ [(s, l)]) s' otpId user := by
  obtain ⟨n, dto, otp, asked, read, plain, compared, p, mem, rest⟩ := shown
  obtain ⟨-, events, history, -⟩ := step_coherent coherent taken
  refine ⟨n, dto, otp, asked.step coherent taken, read.snoc _, plain, ?_, p,
    List.mem_append_left _ mem, rest⟩
  rw [history]
  exact List.mem_append_left _ compared

theorem TokenShown.snoc {token : Text} {session : Session}
    (shown : TokenShown cfg trace token session) (p : State × Label) :
    TokenShown cfg (trace ++ [p]) token session := by
  obtain ⟨⟨n, q, mem, label⟩, jti, rawPart, split, hash, r, mem', stored⟩ := shown
  exact ⟨⟨n, q, List.mem_append_left _ mem, label⟩, jti, rawPart, split, hash, r,
    List.mem_append_left _ mem', stored⟩

/-- A proof stays one: requests and comparisons stay in the trace, and users keep their
identifiers and passwords. By induction on the proof. -/
theorem Proven.step {basis : Basis} (proven : Proven cfg trace s user basis)
    (coherent : Coherent cfg s) (taken : FlashSale.step cfg s l = some s') :
    Proven cfg (trace ++ [(s, l)]) s' user basis := by
  induction proven with
  | password shown =>
    obtain ⟨n, dto, passwordHash, asked, same⟩ := shown
    exact .password ⟨n, dto, passwordHash, asked.step coherent taken, same⟩
  | code shown => exact .code (shown.step coherent taken)
  | refresh shown own _ ih => exact .refresh (shown.snoc _) own ih

end Proofs

/-! ### Calls -/

/-- What a call of a client is on the way to grant is proven, or will be: before the
comparison the call has at least the request and the row that are compared. -/
def AuthView.Backed (cfg : Cfg) (trace : List (State × Label)) (s : State) (n : Nat) :
    AuthView → Prop
  | .call (.loginFind dto identifier) => (∃ p ∈ trace, p.2 = .auth n (.login dto)) ∧
      normalizeIdentifier cfg dto.identifier = .ok identifier
  | .call (.loginCompare dto (some (id, row))) =>
    AskedToLogIn cfg trace s.server.db n dto id row.passwordHash
  | .call (.get .rotate token) => ∃ p ∈ trace, p.2 = .auth n (.refresh token)
  | .call (.del .rotate token _ session) => TokenShown cfg trace token session ∧
      Proven cfg trace s session.userId session.basis
  | .call (.issue grant) => Proven cfg trace s grant.userId grant.basis
  | .call (.set grant _ _ _) => Proven cfg trace s grant.userId grant.basis
  | .call (.reply grant _) => Proven cfg trace s grant.userId grant.basis
  | _ => True

/-- Every session and every pair that has been returned is proven, and its user has been
verified. -/
structure Authenticated (cfg : Cfg) (trace : List (State × Label)) (s : State) : Prop where
  entitled : Entitled cfg s
  shown : ∀ n view, s.views n = some view → view.Shown cfg trace s n
  backed : ∀ n view, s.views n = some view → view.Backed cfg trace s n
  sessions : ∀ jti session, s.tokens jti = some session →
    Proven cfg trace s session.userId session.basis
  granted : ∀ grant ∈ grants s.history,
    UserVerified s.server.db grant.userId ∧ Proven cfg trace s grant.userId grant.basis

section Calls

variable {cfg : Cfg} {start s s' : State} {l : Label} {trace : List (State × Label)}

theorem AuthView.Backed.step {n : Nat} {view : AuthView} (backed : view.Backed cfg trace s n)
    (coherent : Coherent cfg s) (taken : FlashSale.step cfg s l = some s') :
    view.Backed cfg (trace ++ [(s, l)]) s' n := by
  have later : ∀ {request : Label}, (∃ p ∈ trace, p.2 = request) →
      ∃ p ∈ trace ++ [(s, l)], p.2 = request :=
    fun ⟨p, mem, label⟩ => ⟨p, List.mem_append_left _ mem, label⟩
  cases view with
  | verifying dto otpId user => trivial
  | call call =>
    cases call with
    | loginFind dto identifier => exact ⟨later backed.1, backed.2⟩
    | loginCompare dto user =>
      cases user with
      | none => trivial
      | some user => exact AskedToLogIn.step backed coherent taken
    | get use token =>
      cases use with
      | rotate => exact later backed
      | revoke => trivial
    | del use token jti session =>
      cases use with
      | rotate => exact ⟨backed.1.snoc _, backed.2.step coherent taken⟩
      | revoke => trivial
    | issue grant => exact Proven.step backed coherent taken
    | set grant pair jti hash => exact Proven.step backed coherent taken
    | reply grant pair => exact Proven.step backed coherent taken
    | _ => trivial

/-- The view that a move leads to has the proof that the move adds. One case for each way in
which a call goes on. -/
theorem AuthMove.backed {n : Nat} {next : Option AuthView} {events : List Event}
    (move : AuthMove cfg s n l (s.views n) next s'.tokens events)
    (history : s'.history = s.history ++ events) (coherent : Coherent cfg s)
    (taken : step cfg s l = some s')
    (shown : ∀ view, s.views n = some view → view.Shown cfg trace s n)
    (here : ∀ view, s.views n = some view → view.Backed cfg trace s n)
    (sessions : ∀ jti session, s.tokens jti = some session →
      Proven cfg trace s session.userId session.basis) {view : AuthView} (is : next = some view) :
    view.Backed cfg (trace ++ [(s, l)]) s' n := by
  have last : (s, l) ∈ trace ++ [(s, l)] := List.mem_append_right _ (List.mem_singleton.mpr rfl)
  have change := step_change taken history
  generalize s.views n = before, s'.tokens = tokens at move here shown
  cases move with
  | asks starts =>
    cases is
    cases starts with
    | login normalized => exact ⟨⟨_, last, rfl⟩, normalized⟩
    | refresh => exact ⟨_, last, rfl⟩
    | _ => trivial
  | ends _ _ => cases is
  | @verified choice dto otpId user =>
    cases is
    obtain ⟨asked, otp, read, plain, compared⟩ := shown _ rfl
    obtain ⟨-, -, row, -, found, -⟩ := id asked
    refine .code ⟨n, dto, otp, asked.step coherent taken, read.snoc _, plain, ?_,
      step_verified coherent taken change ⟨row, found⟩⟩
    rw [history]
    exact List.mem_append_left _ compared
  | commands done =>
    cases done with
    | rotates =>
      cases is
      obtain ⟨token, proven⟩ := here _ rfl
      exact .refresh (token.snoc _) rfl (proven.step coherent taken)
    | revokes => cases is; trivial
    | sets => cases is; exact Proven.step (here _ rfl) coherent taken
  | goes goes =>
    cases goes with
    | @loginFinds dto identifier user found =>
      cases is
      cases user with
      | none => trivial
      | some user =>
        obtain ⟨asked, normalized⟩ := here _ rfl
        obtain ⟨there, names⟩ := found user.1 user.2 rfl
        exact AskedToLogIn.step ⟨asked, identifier, _, normalized, there, names, rfl⟩ coherent taken
    | @loginPasses dto id row password status =>
      cases is
      have asked : AskedToLogIn cfg trace s.server.db n dto id row.passwordHash := here _ rfl
      exact .password ⟨n, dto, row.passwordHash, asked.step coherent taken, password⟩
    | @gets use token jti rawPart session split stored hash =>
      cases is
      cases use with
      | revoke => trivial
      | rotate =>
        obtain ⟨p, mem, label⟩ := here _ rfl
        have there := (Option.filter_eq_some_iff.mp stored).1
        exact ⟨⟨⟨n, p, List.mem_append_left _ mem, label⟩, jti, rawPart, split, hash, _, last, stored⟩,
          (sessions jti session there).step coherent taken⟩
    | issues => cases is; exact Proven.step (here _ rfl) coherent taken
    | verifyFinds _ _ => cases is; trivial
    | verifyTimes => cases is; trivial
    | verifyReads _ _ _ => cases is; trivial
    | verifyMatches _ => cases is; trivial
    | verifyDiffers _ _ => cases is; trivial
    | _ => cases is

/-- A view after a step was there before, or the step has moved to it and added these
events. -/
theorem step_moved (taken : step cfg s l = some s') {n : Nat} {view : AuthView}
    (is : s'.views n = some view) :
    s.views n = some view ∨ ∃ events, s'.history = s.history ++ events ∧
      AuthMove cfg s n l (s.views n) (some view) s'.tokens events := by
  cases step_auth taken with
  | other views _ _ _ => exact Or.inl (views ▸ is)
  | @moves m next events move views history =>
    rw [views] at is
    by_cases own : n = m
    · subst own
      rw [Function.update_self] at is
      subst is
      exact Or.inr ⟨events, history, move⟩
    · rw [Function.update_of_ne own] at is
      exact Or.inl is

theorem Authenticated.step (authenticated : Authenticated cfg trace s)
    (taken : FlashSale.step cfg s l = some s') : Authenticated cfg (trace ++ [(s, l)]) s' := by
  obtain ⟨entitled, shown, backed, sessions, granted⟩ := authenticated
  have coherent := entitled.coherent
  obtain ⟨-, events, history, -⟩ := step_coherent coherent taken
  refine ⟨entitled.step taken, fun n view is => ?_, fun n view is => ?_, fun jti session found => ?_,
    fun grant mem => ?_⟩
  · rcases step_moved taken is with old | ⟨events, history, move⟩
    · exact (shown n view old).step coherent taken
    · exact move.shown history coherent taken (shown n) rfl
  · rcases step_moved taken is with old | ⟨events, history, move⟩
    · exact (backed n view old).step coherent taken
    · exact move.backed history coherent taken (shown n) (backed n) sessions rfl
  · rcases step_stored taken found with old | ⟨n, grant, pair, hash, expiresAt, at_, -, rfl⟩
    · exact (sessions jti session old).step coherent taken
    · exact Proven.step (backed n _ at_) coherent taken
  · rw [history, grants_append] at mem
    rcases List.mem_append.mp mem with old | new
    · obtain ⟨verified, proven⟩ := granted grant old
      exact ⟨verified.step coherent taken, proven.step coherent taken⟩
    · obtain ⟨e, mem, is⟩ := List.mem_filterMap.mp new
      cases e with
      | granted n grant' =>
        cases is
        obtain ⟨choice, pair, -, at_⟩ := step_granted taken history mem
        have view : s.views n = some (.call (.reply grant pair)) := by rw [State.views, at_]; rfl
        have verified : UserVerified s.server.db grant.userId := entitled.views n _ view
        have proven : Proven cfg trace s grant.userId grant.basis := backed n _ view
        exact ⟨verified.step coherent taken, proven.step coherent taken⟩
      | _ => cases is

/-! ### Runs -/

theorem Authenticated.init (fresh : Fresh start) (empty : ∀ jti, start.tokens jti = none) :
    Authenticated cfg [] start := by
  have views : ∀ n view, start.views n ≠ some view := by
    intro n view is
    rw [State.views, fresh.clients n] at is
    cases is
  refine ⟨⟨fresh.coherent, fun jti session found => ?_, fun n view is => absurd is (views n view)⟩,
    fun n view is => absurd is (views n view), fun n view is => absurd is (views n view),
    fun jti session found => ?_, fun grant mem => ?_⟩
  · rw [empty] at found
    cases found
  · rw [empty] at found
    cases found
  · rw [fresh.history] at mem
    cases mem

theorem Run.authenticating (fresh : Fresh start) (empty : ∀ jti, start.tokens jti = none)
    (run : Run cfg start trace s) : Authenticated cfg trace s :=
  run.invariant_along (Authenticated cfg) (.init fresh empty)
    fun _ _ _ _ authenticated taken => authenticated.step taken

/-- In every run without sessions at the start, the user of every session that is stored,
and of every pair that a call has returned, is there and not pending, and it was granted on
a password of the user, on a one-time code of the user, or on a refresh token of an earlier
session of the same user for which that is so. -/
theorem Run.authenticated (fresh : Fresh start) (empty : ∀ jti, start.tokens jti = none)
    (run : Run cfg start trace s) :
    (∀ jti session, s.tokens jti = some session →
      UserVerified s.server.db session.userId ∧
        Proven cfg trace s session.userId session.basis) ∧
    ∀ grant ∈ grants s.history,
      UserVerified s.server.db grant.userId ∧ Proven cfg trace s grant.userId grant.basis := by
  have authenticated := run.authenticating fresh empty
  exact ⟨fun jti session found => ⟨authenticated.entitled.sessions jti session found,
    authenticated.sessions jti session found⟩, authenticated.granted⟩

end Calls

/-! ### A member who refreshes a pair -/

/-- The code of the member is verified, and the pair that this grants is rotated. -/
def verifiedThenRefreshed : List Label :=
  verifying 0 8 ++ refreshing 0 (drawnToken 8) ++ rotating 0 9

theorem verifiedThenRefreshed_runs :
    (Lib.execute (step plainCfg) (memberShop .pendingVerification) verifiedThenRefreshed).isSome =
      true := by
  decide +kernel

theorem authenticated_refreshed :
    ∃ s, Run plainCfg (memberShop .pendingVerification)
        (Lib.traceOf (step plainCfg) (memberShop .pendingVerification) verifiedThenRefreshed) s ∧
      Proven plainCfg
        (Lib.traceOf (step plainCfg) (memberShop .pendingVerification) verifiedThenRefreshed) s 1
        (.refresh (drawnToken 8) (.code 5)) := by
  have run := Lib.Run.of_isSome verifiedThenRefreshed_runs
  have granted : grants ((Lib.execute (step plainCfg) (memberShop .pendingVerification)
      verifiedThenRefreshed).get verifiedThenRefreshed_runs).history =
      [⟨.verifyOtp ⟨mail, "100000"⟩, 1, .code 5⟩,
        ⟨.refresh (drawnToken 8), 1, .refresh (drawnToken 8) (.code 5)⟩] := by decide +kernel
  obtain ⟨-, proven⟩ := Run.authenticated (State.initial_fresh _ _ _) (fun _ => rfl) run
  refine ⟨_, run, (proven ⟨.refresh (drawnToken 8), 1, .refresh (drawnToken 8) (.code 5)⟩ ?_).2⟩
  rw [granted]
  simp

end FlashSale
