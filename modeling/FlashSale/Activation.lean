/-
# Accounts that are active

Tokens and one-time codes against the status of a user. `login` refuses a user who is
pending, and nobody else: an operator's `DISABLED` is not asked for, neither there nor when a
refresh token is rotated, and a verification overwrites it.

What is proved is of two kinds. That nobody pending gets a pair, and that becoming active
takes a verification, holds in every run; that nobody disabled gets a pair or is verified
holds in the runs whose steps meet `NotDisabled`, and these are exactly the ones.

* `Run.tokens_for_active`: token pairs go to active users, and no call takes a user
  out of `DISABLED`, in exactly the runs in which no disabled user is issued a pair
  or verified.
* `Run.activated`: a user who has become active has been verified by a request for
  the user's own identifier with a code that was valid when it was read.
* `disabled_logs_in`: a disabled user logs in and is then verified.
-/
import FlashSale.Accounts

namespace FlashSale

open Lib (Table)

/-! ### Users who have been verified -/

/-- A user who is there. -/
def UserExists (db : Db) (user : Uuid) : Prop := ∃ row, db.users.get? user = some row

/-- A user who is there and not pending. -/
def UserVerified (db : Db) (user : Uuid) : Prop :=
  ∃ row, db.users.get? user = some row ∧ row.status ≠ .pendingVerification

theorem UserVerified.there {db : Db} {user : Uuid} (verified : UserVerified db user) :
    UserExists db user := by
  obtain ⟨row, found, -⟩ := verified
  exact ⟨row, found⟩

/-- What a call knows of the user it is about. -/
def AuthView.Entitled (db : Db) : AuthView → Prop
  | .call (.loginCompare _ (some (id, row))) => UserExists db id ∧
      (row.status ≠ .pendingVerification → UserVerified db id)
  | .call (.verifyClock _ user) => UserExists db user
  | .call (.verifyRead _ user _) => UserExists db user
  | .call (.verifyCompare _ user _ _) => UserExists db user
  | .verifying _ _ user => UserExists db user
  | .call (.del _ _ _ session) => UserVerified db session.userId
  | .call (.issue grant) => UserVerified db grant.userId
  | .call (.set grant _ _ _) => UserVerified db grant.userId
  | .call (.reply grant _) => UserVerified db grant.userId
  | _ => True

/-- Sessions and pairs under way are of users who have been verified. A verified user is never
pending again, so this is kept without looking at how the user was verified. -/
structure Entitled (cfg : Cfg) (s : State) : Prop where
  coherent : Coherent cfg s
  sessions : ∀ jti session, s.tokens jti = some session → UserVerified s.server.db session.userId
  views : ∀ n view, s.views n = some view → view.Entitled s.server.db

/-- No change of an account makes a user pending. -/
theorem AccountChange.status_ne_pending {change : AccountChange} {id : Uuid} {status : UserStatus}
    (gives : change.status id = some status) : status ≠ .pendingVerification := by
  cases change with
  | attempted otpId => cases gives
  | _ =>
    dsimp only [AccountChange.status] at gives
    split at gives <;> cases gives
    exact UserStatus.noConfusion

section Steps

variable {cfg : Cfg} {s s' : State} {l : Label}

theorem UserExists.step {user : Uuid} (there : UserExists s.server.db user)
    (coherent : Coherent cfg s) (taken : step cfg s l = some s') :
    UserExists s'.server.db user := by
  obtain ⟨row, found⟩ := there
  obtain ⟨row', found', -⟩ := step_user coherent taken found
  exact ⟨row', found'⟩

theorem UserVerified.step {user : Uuid} (verified : UserVerified s.server.db user)
    (coherent : Coherent cfg s) (taken : step cfg s l = some s') :
    UserVerified s'.server.db user := by
  obtain ⟨row, found, status⟩ := verified
  obtain ⟨row', found', -, -, status'⟩ := step_user coherent taken found
  refine ⟨row', found', ?_⟩
  rw [status']
  cases given : (s.change? l).bind (·.status user) with
  | none => exact status
  | some status'' =>
    obtain ⟨change, -, gives⟩ := Option.bind_eq_some_iff.mp given
    exact AccountChange.status_ne_pending gives

/-- A verification that commits makes an existing user active. -/
theorem UserExists.verified {user otpId : Uuid} (there : UserExists s.server.db user)
    (coherent : Coherent cfg s) (taken : FlashSale.step cfg s l = some s')
    (change : s.change? l = some (.verified otpId user)) :
    ∃ row, s'.server.db.users.get? user = some row ∧ row.status = .active := by
  obtain ⟨row, found⟩ := there
  obtain ⟨row', found', -, -, status⟩ := step_user coherent taken found
  refine ⟨row', found', ?_⟩
  rw [status, change]
  simp [AccountChange.status]

theorem AuthView.Entitled.step {view : AuthView} (entitled : view.Entitled s.server.db)
    (coherent : Coherent cfg s) (taken : FlashSale.step cfg s l = some s') :
    view.Entitled s'.server.db := by
  cases view with
  | verifying dto otpId user => exact UserExists.step entitled coherent taken
  | call call =>
    cases call with
    | loginCompare dto user =>
      cases user with
      | none => trivial
      | some user =>
        exact ⟨entitled.1.step coherent taken, fun status =>
          (entitled.2 status).step coherent taken⟩
    | verifyClock dto user => exact UserExists.step entitled coherent taken
    | verifyRead dto user now => exact UserExists.step entitled coherent taken
    | verifyCompare dto user otpId otp => exact UserExists.step entitled coherent taken
    | del use token jti session => exact UserVerified.step entitled coherent taken
    | issue grant => exact UserVerified.step entitled coherent taken
    | set grant pair jti hash => exact UserVerified.step entitled coherent taken
    | reply grant pair => exact UserVerified.step entitled coherent taken
    | _ => trivial

theorem Entitled.step (entitled : Entitled cfg s) (taken : FlashSale.step cfg s l = some s') :
    Entitled cfg s' := by
  obtain ⟨coherent, sessions, views⟩ := entitled
  have there : ∀ {user : Uuid}, UserExists s.server.db user → UserExists s'.server.db user :=
    fun there => there.step coherent taken
  have verified : ∀ {user : Uuid}, UserVerified s.server.db user → UserVerified s'.server.db user :=
    fun verified => verified.step coherent taken
  have kept : ∀ m view, s.views m = some view → view.Entitled s'.server.db :=
    fun m view is => (views m view is).step coherent taken
  have coherent' := (step_coherent coherent taken).1
  cases step_auth taken with
  | other same tokens _ _ =>
    refine ⟨coherent', fun jti session found => ?_, fun m view is => ?_⟩
    · rw [tokens] at found
      exact verified (sessions jti session found)
    · rw [same] at is
      exact kept m view is
  | @moves n next events move after history =>
    have change := step_change taken history
    have here := views n
    refine ⟨coherent', fun jti session found => ?_, fun m view is => ?_⟩
    · rcases move.stored found with old | ⟨grant, pair, hash, _, at_, -, rfl⟩
      · exact verified (sessions jti session old)
      · exact verified (here _ at_)
    · rw [after] at is
      by_cases own : m = n
      · subst own
        rw [Function.update_self] at is
        generalize s.views m = before, s'.tokens = tokens at move here
        cases move with
        | asks starts => cases starts <;> cases is <;> trivial
        | ends _ _ => cases is
        | verified =>
          cases is
          obtain ⟨row, found, active⟩ := UserExists.verified (here _ rfl) coherent taken change
          exact ⟨row, found, by rw [active]; exact UserStatus.noConfusion⟩
        | commands done =>
          cases done with
          | rotates => cases is; exact verified (here _ rfl)
          | revokes => cases is; trivial
          | sets => cases is; exact verified (here _ rfl)
        | goes goes =>
          cases goes with
          | @loginFinds dto identifier user found =>
            cases is
            cases user with
            | none => trivial
            | some user =>
              obtain ⟨found, -⟩ := found user.1 user.2 rfl
              exact ⟨there ⟨_, found⟩, fun status => verified ⟨_, found, status⟩⟩
          | loginPasses _ status => cases is; exact verified ((here _ rfl).2 status)
          | verifyFinds found names => cases is; exact there ⟨_, found⟩
          | verifyTimes => cases is; exact there (here _ rfl)
          | verifyReads found valid newest => cases is; exact there (here _ rfl)
          | verifyMatches plain => cases is; exact there (here _ rfl)
          | verifyDiffers plain differs => cases is; trivial
          | gets split stored hash =>
            cases is
            exact verified (sessions _ _ (Option.filter_eq_some_iff.mp stored).1)
          | issues => cases is; exact verified (here _ rfl)
          | _ => cases is
      · rw [Function.update_of_ne own] at is
        exact kept m view is

end Steps

/-! ### Disabled users -/

def State.status (s : State) (user : Uuid) : Option UserStatus :=
  (s.server.db.users.get? user).map (·.status)

/-- No disabled user is returned a token pair or verified by this step. The code refuses
users that are pending, and looks for no other status. -/
def NotDisabled (s : State) : Label → Prop
  | .client n _ =>
    match s.clients n with
    | .auth (.reply grant _) => s.status grant.userId ≠ some .disabled
    | .tx (.verify _ _ user) _ (.pure _) => s.status user ≠ some .disabled
    | _ => True
  | _ => True

def notDisabled (s : State) : Label → Bool
  | .client n _ =>
    match s.clients n with
    | .auth (.reply grant _) => decide (s.status grant.userId ≠ some .disabled)
    | .tx (.verify _ _ user) _ (.pure _) => decide (s.status user ≠ some .disabled)
    | _ => true
  | _ => true

theorem notDisabled_iff {s : State} {l : Label} : notDisabled s l = true ↔ NotDisabled s l := by
  unfold notDisabled NotDisabled
  split
  · split <;> simp
  · simp

instance (s : State) (l : Label) : Decidable (NotDisabled s l) :=
  decidable_of_iff (notDisabled s l = true) notDisabled_iff

/-- A token pair that this step returns goes to a user who is active, and the step
takes no user out of `DISABLED`. -/
structure ActiveOnly (cfg : Cfg) (s : State) (l : Label) : Prop where
  returned : ∀ s' events n grant, step cfg s l = some s' → s'.history = s.history ++ events →
    .granted n grant ∈ events → s.status grant.userId = some .active
  kept : ∀ s' user, step cfg s l = some s' → s.status user = some .disabled →
    s'.status user = some .disabled

section Disabled

variable {cfg : Cfg} {start s s' : State} {l : Label} {trace : List (State × Label)}

theorem UserVerified.active {user : Uuid} (verified : UserVerified s.server.db user)
    (enabled : s.status user ≠ some .disabled) : s.status user = some .active := by
  obtain ⟨row, found, status⟩ := verified
  rw [State.status, found] at enabled ⊢
  cases is : row.status with
  | pendingVerification => exact absurd is status
  | active => simp [is]
  | disabled => simp [is] at enabled

/-- A step is as it should be exactly if it concerns no disabled user. -/
theorem Entitled.activeOnly_iff (entitled : Entitled cfg s) (taken : FlashSale.step cfg s l = some s') :
    ActiveOnly cfg s l ↔ NotDisabled s l := by
  constructor
  · intro only
    unfold NotDisabled
    split
    · rename_i n choice
      split
      · rename_i grant pair at_
        obtain ⟨move, ran, rfl⟩ := Option.map_eq_some_iff.mp taken
        have ran' := ran
        rw [at_] at ran'
        cases ran'
        rw [only.returned _ _ n grant taken rfl List.mem_cons_self]
        simp
      · rename_i dto otpId user started result at_
        intro disabled
        have change : s.change? (.client n choice) = some (.verified otpId user) := by
          simp [State.change?, State.committing, Client.committing, at_, Job.commit, Commit.change?]
        have view : s.views n = some (.verifying dto otpId user) := by rw [State.views, at_]; rfl
        obtain ⟨row, found, active⟩ :=
          UserExists.verified (entitled.views n _ view) entitled.coherent taken change
        have kept := only.kept _ user taken disabled
        rw [State.status, found] at kept
        simp [active] at kept
      · trivial
    · trivial
  · intro enabled
    constructor
    · intro s' events n grant taken history mem
      obtain ⟨choice, pair, rfl, at_⟩ := step_granted taken history mem
      simp only [NotDisabled, at_] at enabled
      have view : s.views n = some (.call (.reply grant pair)) := by rw [State.views, at_]; rfl
      exact UserVerified.active (entitled.views n _ view) enabled
    · intro s' user taken disabled
      obtain ⟨row, found, status⟩ := Option.map_eq_some_iff.mp disabled
      obtain ⟨row', found', -, -, status'⟩ := step_user entitled.coherent taken found
      rw [State.status, found']
      cases given : s.change? l with
      | none => simpa [given, status] using status'
      | some change =>
        rcases change_cases given with ⟨n, choice, dto, otpId, user', started, rfl, at_, rfl⟩ |
          ⟨n, choice, dto, otpId, rfl, at_, rfl⟩ | ⟨n, choice, user', rfl, at_, rfl⟩
        · simp only [NotDisabled, at_] at enabled
          have other : user' ≠ user := by
            rintro rfl
            exact enabled disabled
          simpa [given, AccountChange.status, other, status] using status'
        · simpa [given, AccountChange.status, status] using status'
        · by_cases same : user' = user
          · simpa [given, AccountChange.status, same] using status'
          · simpa [given, AccountChange.status, same, status] using status'

/-- Token pairs go to active users, and no call takes a user out of `DISABLED`, in
exactly the runs in which no disabled user is returned a pair or verified. -/
theorem Run.tokens_for_active (fresh : Fresh start)
    (known : ∀ jti session, start.tokens jti = some session →
      UserVerified start.server.db session.userId)
    (run : Run cfg start trace s) :
    (∀ p ∈ trace, ActiveOnly cfg p.1 p.2) ↔ ∀ p ∈ trace, NotDisabled p.1 p.2 := by
  have init : Entitled cfg start := by
    refine ⟨fresh.coherent, known, fun n view is => ?_⟩
    rw [State.views, fresh.clients n] at is
    cases is
  refine forall_congr' fun p => forall_congr' fun mem => ?_
  obtain ⟨earlier, s', before, taken⟩ := Lib.Run.of_mem run mem
  have entitled : Entitled cfg p.1 :=
    before.invariant init fun _ _ _ entitled taken => entitled.step taken
  exact entitled.activeOnly_iff taken

end Disabled

/-! ### Activation -/

/-- The call of a client began as a request for an identifier of the user. -/
def AskedFor (cfg : Cfg) (trace : List (State × Label)) (db : Db) (n : Nat) (dto : VerifyOtpDto)
    (user : Uuid) : Prop :=
  (∃ p ∈ trace, p.2 = .auth n (.verifyOtp dto)) ∧ ∃ identifier row,
    normalizeIdentifier cfg dto.identifier = .ok identifier ∧
    db.users.get? user = some row ∧ identifier.names row = true

/-- The call of a client read the time, and then a code of the user that was unused,
had attempts left and had not expired at that time. -/
def ReadValid (trace : List (State × Label)) (n : Nat) (dto : VerifyOtpDto) (user otpId : Uuid)
    (otp : OtpRow) : Prop :=
  ∃ now, (∃ p ∈ trace, p.1.clients n = .auth (.verifyClock dto user) ∧ p.1.now = now) ∧
    ∃ p ∈ trace, p.1.clients n = .auth (.verifyRead dto user now) ∧
      p.1.server.db.otpCodes.get? otpId = some otp ∧ otp.userId = user ∧ otp.used = false ∧
      otp.expiresAt > now ∧ otp.attempts < maxOtpAttempts

/-- The evidence that a call has gathered: the request that began it, the time at which it
read the clock, the code that it read, and the comparison with it. -/
def AuthView.Shown (cfg : Cfg) (trace : List (State × Label)) (s : State) (n : Nat) :
    AuthView → Prop
  | .call (.verifyFind dto identifier) => (∃ p ∈ trace, p.2 = .auth n (.verifyOtp dto)) ∧
      normalizeIdentifier cfg dto.identifier = .ok identifier
  | .call (.verifyClock dto user) => AskedFor cfg trace s.server.db n dto user
  | .call (.verifyRead dto user now) => AskedFor cfg trace s.server.db n dto user ∧
      ∃ p ∈ trace, p.1.clients n = .auth (.verifyClock dto user) ∧ p.1.now = now
  | .call (.verifyCompare dto user otpId otp) => AskedFor cfg trace s.server.db n dto user ∧
      ReadValid trace n dto user otpId otp
  | .verifying dto otpId user => AskedFor cfg trace s.server.db n dto user ∧
      ∃ otp, ReadValid trace n dto user otpId otp ∧
        cfg.decrypt otp.encryptedCode = .ok dto.code ∧ .compared n dto user otpId true ∈ s.history
  | _ => True

/-- A transaction has marked a code of the user used and the user active. -/
def VerifiedIn (cfg : Cfg) (trace : List (State × Label)) (otpId user : Uuid) : Prop :=
  ∃ p ∈ trace, ∃ t, step cfg p.1 p.2 = some t ∧
    p.1.change? p.2 = some (.verified otpId user) ∧ t.status user = some .active ∧
    ∃ otp, t.server.db.otpCodes.get? otpId = some otp ∧ otp.userId = user ∧ otp.used = true

/-- A request has verified the user. -/
def Activation (cfg : Cfg) (trace : List (State × Label)) (s : State) (user : Uuid) : Prop :=
  ∃ n dto otpId otp, AskedFor cfg trace s.server.db n dto user ∧
    ReadValid trace n dto user otpId otp ∧ cfg.decrypt otp.encryptedCode = .ok dto.code ∧
    .compared n dto user otpId true ∈ s.history ∧ VerifiedIn cfg trace otpId user

/-- The owners of used codes are not pending. -/
def UsedByVerified (db : Db) : Prop :=
  ∀ otpId otp, db.otpCodes.get? otpId = some otp → otp.used = true → UserVerified db otp.userId

/-- What a run keeps of the way its users became active. Views carry the evidence to the
commit, and the trace keeps it from there. -/
structure Activated (cfg : Cfg) (start : State) (trace : List (State × Label)) (s : State) :
    Prop where
  coherent : Coherent cfg s
  shown : ∀ n view, s.views n = some view → view.Shown cfg trace s n
  active : ∀ user, s.status user = some .active →
    start.status user = some .active ∨ Activation cfg trace s user
  used : UsedByVerified s.server.db

section Activation

variable {cfg : Cfg} {start s s' : State} {l : Label} {trace : List (State × Label)}

theorem AskedFor.step {n : Nat} {dto : VerifyOtpDto} {user : Uuid}
    (asked : AskedFor cfg trace s.server.db n dto user) (coherent : Coherent cfg s)
    (taken : step cfg s l = some s') :
    AskedFor cfg (trace ++ [(s, l)]) s'.server.db n dto user := by
  obtain ⟨⟨p, mem, label⟩, identifier, row, normalized, found, names⟩ := asked
  obtain ⟨row', found', email, phone, -⟩ := step_user coherent taken found
  refine ⟨⟨p, List.mem_append_left _ mem, label⟩, identifier, row', normalized, found', ?_⟩
  unfold NormalizedIdentifier.names at names ⊢
  rw [email, phone]
  exact names

theorem ReadValid.snoc {n : Nat} {dto : VerifyOtpDto} {user otpId : Uuid} {otp : OtpRow}
    (read : ReadValid trace n dto user otpId otp) (p : State × Label) :
    ReadValid (trace ++ [p]) n dto user otpId otp := by
  obtain ⟨now, ⟨q, mem, timed⟩, r, mem', found⟩ := read
  exact ⟨now, ⟨q, List.mem_append_left _ mem, timed⟩, r, List.mem_append_left _ mem', found⟩

theorem AuthView.Shown.step {n : Nat} {view : AuthView} (shown : view.Shown cfg trace s n)
    (coherent : Coherent cfg s) (taken : FlashSale.step cfg s l = some s') :
    view.Shown cfg (trace ++ [(s, l)]) s' n := by
  cases view with
  | verifying dto otpId user =>
    obtain ⟨asked, otp, read, plain, compared⟩ := shown
    obtain ⟨-, events, history, -⟩ := step_coherent coherent taken
    refine ⟨asked.step coherent taken, otp, read.snoc _, plain, ?_⟩
    rw [history]
    exact List.mem_append_left _ compared
  | call call =>
    cases call with
    | verifyFind dto identifier =>
      obtain ⟨⟨p, mem, label⟩, normalized⟩ := shown
      exact ⟨⟨p, List.mem_append_left _ mem, label⟩, normalized⟩
    | verifyClock dto user => exact AskedFor.step shown coherent taken
    | verifyRead dto user now =>
      obtain ⟨asked, p, mem, timed⟩ := shown
      exact ⟨asked.step coherent taken, p, List.mem_append_left _ mem, timed⟩
    | verifyCompare dto user otpId otp =>
      exact ⟨shown.1.step coherent taken, shown.2.snoc _⟩
    | _ => trivial

theorem Activation.step {user : Uuid} (activation : Activation cfg trace s user)
    (coherent : Coherent cfg s) (taken : FlashSale.step cfg s l = some s') :
    Activation cfg (trace ++ [(s, l)]) s' user := by
  obtain ⟨n, dto, otpId, otp, asked, read, plain, compared, p, mem, rest⟩ := activation
  obtain ⟨-, events, history, -⟩ := step_coherent coherent taken
  refine ⟨n, dto, otpId, otp, asked.step coherent taken, read.snoc _, plain, ?_,
    p, List.mem_append_left _ mem, rest⟩
  rw [history]
  exact List.mem_append_left _ compared

/-- The view that a move leads to shows the evidence that the move adds. -/
theorem AuthMove.shown {n : Nat} {next : Option AuthView} {events : List Event}
    (move : AuthMove cfg s n l (s.views n) next s'.tokens events)
    (history : s'.history = s.history ++ events) (coherent : Coherent cfg s)
    (taken : step cfg s l = some s')
    (here : ∀ view, s.views n = some view → view.Shown cfg trace s n) {view : AuthView}
    (is : next = some view) : view.Shown cfg (trace ++ [(s, l)]) s' n := by
  have last : (s, l) ∈ trace ++ [(s, l)] := List.mem_append_right _ (List.mem_singleton.mpr rfl)
  have own : ∀ {call : AuthCall}, s.views n = some (.call call) → s.clients n = .auth call :=
    fun is => Client.view_call is
  generalize s.views n = before, s'.tokens = tokens at move here own
  cases move with
  | asks starts =>
    cases is
    cases starts with
    | verifyOtp normalized => exact ⟨⟨_, last, rfl⟩, normalized⟩
    | _ => trivial
  | ends _ _ => cases is
  | verified => cases is; trivial
  | commands done => cases done <;> cases is <;> trivial
  | goes goes =>
    cases goes with
    | loginFinds found => cases is; trivial
    | loginPasses _ _ => cases is; trivial
    | verifyFinds found names =>
      cases is
      obtain ⟨asked, normalized⟩ := here _ rfl
      exact AskedFor.step ⟨asked, _, _, normalized, found, names⟩ coherent taken
    | verifyTimes =>
      cases is
      have asked : AskedFor cfg trace s.server.db n _ _ := here _ rfl
      exact ⟨asked.step coherent taken, _, last, own rfl, rfl⟩
    | verifyReads found valid newest =>
      cases is
      obtain ⟨asked, p, mem, timed⟩ := here _ rfl
      simp only [OtpRow.valid, Bool.and_eq_true, decide_eq_true_eq, Bool.not_eq_true'] at valid
      obtain ⟨⟨⟨owner, unused⟩, live⟩, attempts⟩ := valid
      exact ⟨asked.step coherent taken, _, ⟨p, List.mem_append_left _ mem, timed⟩, _, last, own rfl,
        found, owner, unused, live, attempts⟩
    | verifyMatches plain =>
      cases is
      obtain ⟨asked, read⟩ := here _ rfl
      refine ⟨asked.step coherent taken, _, read.snoc _, plain, ?_⟩
      rw [history]
      exact List.mem_append_right _ (List.mem_singleton.mpr rfl)
    | verifyDiffers plain differs => cases is; trivial
    | gets _ _ _ => cases is; trivial
    | issues => cases is; trivial
    | _ => cases is

/-- A verification that commits has marked a code of the user used, and the user
active. -/
theorem step_verified (coherent : Coherent cfg s) (taken : step cfg s l = some s')
    {otpId user : Uuid} (change : s.change? l = some (.verified otpId user))
    (there : UserExists s.server.db user) : VerifiedIn cfg (trace ++ [(s, l)]) otpId user := by
  obtain ⟨row, found, active⟩ := there.verified coherent taken change
  obtain ⟨otp, issued, owner⟩ : Owned otpId user s.server.db := step_found coherent taken change
  obtain ⟨sent, after⟩ := step_otp coherent taken issued
  refine ⟨(s, l), List.mem_append_right _ (List.mem_singleton.mpr rfl), s', taken, change, ?_,
    _, after, owner, ?_⟩
  · simp [State.status, found, active]
  · simp [OtpRow.after, change, AccountChange.uses]

/-- A user who is active after a step was active before, or has just been verified. -/
theorem step_active (coherent : Coherent cfg s) (taken : step cfg s l = some s') {user : Uuid}
    (active : s'.status user = some .active) :
    s.status user = some .active ∨ ∃ n dto otpId, s.views n = some (.verifying dto otpId user) ∧
      s.change? l = some (.verified otpId user) := by
  obtain ⟨row', found', status'⟩ := Option.map_eq_some_iff.mp active
  rcases step_user_back coherent taken found' with ⟨row, found, -, -, status⟩ | ⟨-, pending⟩
  · have same : row.status = .active → s.status user = some .active := by
      intro status
      simp [State.status, found, status]
    cases given : s.change? l with
    | none => exact Or.inl (same (by simpa [given, status'] using status.symm))
    | some change =>
      rcases change_cases given with ⟨n, choice, dto, otpId, user', started, rfl, at_, rfl⟩ |
        ⟨n, choice, dto, otpId, rfl, at_, rfl⟩ | ⟨n, choice, user', rfl, at_, rfl⟩
      · by_cases mine : user' = user
        · subst mine
          exact Or.inr ⟨n, dto, otpId, by rw [State.views, at_]; rfl, rfl⟩
        · exact Or.inl (same (by simpa [given, AccountChange.status, mine, status'] using status.symm))
      · exact Or.inl (same (by simpa [given, AccountChange.status, status'] using status.symm))
      · by_cases mine : user' = user
        · simp [given, AccountChange.status, mine, status'] at status
        · exact Or.inl (same (by simpa [given, AccountChange.status, mine, status'] using status.symm))
  · rw [status'] at pending
    cases pending

theorem Activated.step (activated : Activated cfg start trace s)
    (taken : FlashSale.step cfg s l = some s') :
    Activated cfg start (trace ++ [(s, l)]) s' := by
  obtain ⟨coherent, shown, active, used⟩ := activated
  have shows : ∀ n dto otpId user, s.views n = some (.verifying dto otpId user) →
      UserExists s.server.db user := by
    intro n dto otpId user view
    obtain ⟨⟨-, _, row, -, found, -⟩, -⟩ := shown n _ view
    exact ⟨row, found⟩
  refine ⟨(step_coherent coherent taken).1, ?_, fun user active' => ?_, ?_⟩
  · cases step_auth taken with
    | other views _ _ _ =>
      intro m view is
      rw [views] at is
      exact (shown m view is).step coherent taken
    | @moves n next events move views history =>
      intro m view is
      rw [views] at is
      by_cases own : m = n
      · subst own
        rw [Function.update_self] at is
        exact move.shown history coherent taken (shown m) is
      · rw [Function.update_of_ne own] at is
        exact (shown m view is).step coherent taken
  · rcases step_active coherent taken active' with before | ⟨n, dto, otpId, view, change⟩
    · exact (active user before).imp_right fun activation => activation.step coherent taken
    · obtain ⟨asked, otp, read, plain, compared⟩ := (shown n _ view).step coherent taken
      exact Or.inr ⟨n, dto, otpId, otp, asked, read, plain, compared,
        step_verified coherent taken change (shows n dto otpId user view)⟩
  · intro otpId otp' found' used'
    rcases step_otp_back coherent taken found' with ⟨otp, sent, found, rfl⟩ | ⟨-, _, _, _, _, _, -, -, rfl⟩
    · rcases Bool.or_eq_true_iff.mp used' with before | now
      · exact (used otpId otp found before).step coherent taken
      · obtain ⟨change, given, uses⟩ := Option.bind_eq_some_iff.mp (of_decide_eq_true now)
        rcases change_cases given with ⟨n, choice, dto, otpId', user, started, rfl, at_, rfl⟩ |
          ⟨n, choice, dto, otpId', rfl, at_, rfl⟩ | ⟨n, choice, user', rfl, at_, rfl⟩
        · cases uses
          have view : s.views n = some (.verifying dto otpId user) := by rw [State.views, at_]; rfl
          obtain ⟨_, issued, rfl⟩ : Owned otpId user s.server.db := step_found coherent taken given
          rw [found] at issued
          cases issued
          obtain ⟨row, found'', active'⟩ := (shows n dto otpId _ view).verified coherent taken given
          exact ⟨row, found'', by rw [active']; exact UserStatus.noConfusion⟩
        · cases uses
        · cases uses
    · cases used'

/-- A user whom register creates was not there before the run. -/
theorem Run.registered_new (fresh : Fresh start) (run : Run cfg start trace s)
    {identifier : NormalizedIdentifier} {passwordHash : String} {otp : PreparedOtp} {user : Uuid}
    (registered : .registered identifier passwordHash otp user ∈ commits s.history) :
    start.server.db.users.get? user = none := by
  let New : List Commit → Db → Prop := fun done db =>
    (∀ user, start.server.db.users.get? user ≠ none → db.users.get? user ≠ none) ∧
    ∀ identifier passwordHash otp user, .registered identifier passwordHash otp user ∈ done →
      start.server.db.users.get? user = none
  have new : New (commits s.history) s.server.db := by
    refine (run.commits_chain fresh).invariant New ⟨fun _ there => there, fun _ _ _ _ mem => by
      cases mem⟩ ?_
    intro done db commit db' ⟨stay, new⟩ happened
    refine ⟨fun user there => ?_, fun identifier passwordHash otp user mem => ?_⟩
    · obtain ⟨row, found⟩ := Option.ne_none_iff_exists'.mp (stay user there)
      obtain ⟨row', found', -⟩ := happened.user_kept found
      rw [found']
      exact Option.some_ne_none row'
    · rcases List.mem_append.mp mem with old | last
      · exact new identifier passwordHash otp user old
      · cases List.mem_singleton.mp last
        cases happened with
        | registered _ spec =>
          by_contra there
          exact stay user there spec.user_fresh
  exact new.2 _ _ _ _ registered

/-- A user whom register has created was not there at the start; a user who is active
was active at the start, or a request for the user's own identifier has verified the
user with a code that was valid when it was read; and the owner of a used code is not
pending. -/
theorem Run.activated (fresh : Fresh start) (used : UsedByVerified start.server.db)
    (run : Run cfg start trace s) :
    (∀ identifier passwordHash otp user,
      .registered identifier passwordHash otp user ∈ commits s.history → start.status user = none) ∧
    (∀ user, s.status user = some .active →
      start.status user = some .active ∨ Activation cfg trace s user) ∧
    UsedByVerified s.server.db := by
  have init : Activated cfg start [] start := by
    refine ⟨fresh.coherent, fun n view is => ?_, fun user active => Or.inl active, used⟩
    rw [State.views, fresh.clients n] at is
    cases is
  have activated : Activated cfg start trace s :=
    run.invariant_along (Activated cfg start) init fun _ _ _ _ activated taken => activated.step taken
  refine ⟨fun identifier passwordHash otp user registered => ?_, activated.active, activated.used⟩
  rw [State.status, run.registered_new fresh registered]
  rfl

end Activation

/-! ### A member

User 1, whose address is `a@b.c`, and the code 5, issued on 2026-05-01 and valid for
ten minutes. -/

def memberDb (status : UserStatus) : Db :=
  { users := Table.empty.insert 1 ⟨some mail, none, memberHash, status, 0⟩
    otpCodes := Table.empty.insert 5
      ⟨1, .email, memberCode, dayStart + 600000, false, false, 0, dayStart⟩
    products := .empty
    flashSales := .empty
    flashSaleItems := .empty
    purchases := .empty
    outbox := .empty }

def memberShop (status : UserStatus) : State := .initial (memberDb status) 1 (dayStart * 1000)

/-- Client `n` logs in with the password of the member, and draws `draw`. -/
def loggingIn (n draw : Nat) : List Label :=
  .auth n (.login ⟨mail, passw0rd⟩) :: Label.clientSteps n 3 draw ++
    .command n :: Label.clientSteps n 1 draw

/-- Client `n` sends a code, and goes on until it has been compared. -/
def guessing (n : Nat) (code : String) : List Label :=
  .auth n (.verifyOtp ⟨mail, code⟩) :: Label.clientSteps n 4 0

/-- Client `n` sends the code of the member, and draws `draw`. -/
def verifying (n draw : Nat) : List Label :=
  guessing n "100000" ++ Label.clientSteps n 5 draw ++ .command n :: Label.clientSteps n 1 draw

/-- A shop without users. -/
def strangerShop : State := .initial { bareDb with users := .empty } 1 (dayStart * 1000)

/-- Client 0 registers, is refused a login, sends its code, and logs in. -/
def joining : List Label :=
  .register 0 ⟨mail, passw0rd⟩ :: Label.clientSteps 0 7 9 ++
    .auth 0 (.login ⟨mail, passw0rd⟩) :: Label.clientSteps 0 2 0 ++
    guessing 0 "100009" ++ Label.clientSteps 0 5 8 ++ .command 0 :: Label.clientSteps 0 1 8 ++
    loggingIn 0 7

theorem joining_runs : (Lib.execute (step plainCfg) strangerShop joining).isSome = true := by
  decide +kernel

theorem tokens_for_active_joining :
    ∃ s, Run plainCfg strangerShop (Lib.traceOf (step plainCfg) strangerShop joining) s ∧
      grants s.history = [⟨.verifyOtp ⟨mail, "100009"⟩, 9, .code 9⟩,
        ⟨.login ⟨mail, passw0rd⟩, 9, .password⟩] ∧
      ∀ p ∈ Lib.traceOf (step plainCfg) strangerShop joining, ActiveOnly plainCfg p.1 p.2 := by
  have run := Lib.Run.of_isSome joining_runs
  have enabled : ∀ p ∈ Lib.traceOf (step plainCfg) strangerShop joining, NotDisabled p.1 p.2 := by
    decide +kernel
  have granted : grants ((Lib.execute (step plainCfg) strangerShop joining).get joining_runs).history =
      [⟨.verifyOtp ⟨mail, "100009"⟩, 9, .code 9⟩, ⟨.login ⟨mail, passw0rd⟩, 9, .password⟩] := by
    decide +kernel
  exact ⟨_, run, granted, (Run.tokens_for_active (State.initial_fresh _ _ _)
    (fun _ _ found => by cases found) run).mpr enabled⟩

theorem activated_joining :
    ∃ s, Run plainCfg strangerShop (Lib.traceOf (step plainCfg) strangerShop joining) s ∧
      Activation plainCfg (Lib.traceOf (step plainCfg) strangerShop joining) s 9 := by
  have run := Lib.Run.of_isSome joining_runs
  have active : ((Lib.execute (step plainCfg) strangerShop joining).get joining_runs).status 9 =
      some .active := by decide +kernel
  have unused : UsedByVerified strangerShop.server.db := by
    intro otpId otp found
    cases found
  obtain ⟨-, verified, -⟩ := Run.activated (State.initial_fresh _ _ _) unused run
  refine ⟨_, run, (verified 9 active).resolve_left ?_⟩
  decide

/-- An operator disables the member, who then logs in. -/
def disabledLogin : List Label := .disable 0 1 :: Label.clientSteps 0 1 0 ++ loggingIn 0 7

theorem disabledLogin_runs :
    (Lib.execute (step plainCfg) (memberShop .active) disabledLogin).isSome = true := by
  decide +kernel

theorem disabledLogin_verified_runs :
    (Lib.execute (step plainCfg) (memberShop .active) (disabledLogin ++ verifying 0 8)).isSome =
      true := by
  decide +kernel

/-- The disabled member is returned a token pair, and then a code makes the account
active again. -/
theorem disabled_logs_in :
    ∃ t s, Run plainCfg (memberShop .active)
        (Lib.traceOf (step plainCfg) (memberShop .active) disabledLogin) t ∧
      grants t.history = [⟨.login ⟨mail, passw0rd⟩, 1, .password⟩] ∧
      t.status 1 = some .disabled ∧
      Run plainCfg (memberShop .active)
        (Lib.traceOf (step plainCfg) (memberShop .active) (disabledLogin ++ verifying 0 8)) s ∧
      s.status 1 = some .active := by
  have granted : grants ((Lib.execute (step plainCfg) (memberShop .active) disabledLogin).get
      disabledLogin_runs).history = [⟨.login ⟨mail, passw0rd⟩, 1, .password⟩] := by decide +kernel
  have disabled : ((Lib.execute (step plainCfg) (memberShop .active) disabledLogin).get
      disabledLogin_runs).status 1 = some .disabled := by decide +kernel
  have active : ((Lib.execute (step plainCfg) (memberShop .active)
      (disabledLogin ++ verifying 0 8)).get disabledLogin_verified_runs).status 1 =
      some .active := by decide +kernel
  exact ⟨_, _, Lib.Run.of_isSome disabledLogin_runs, granted, disabled,
    Lib.Run.of_isSome disabledLogin_verified_runs, active⟩

end FlashSale
