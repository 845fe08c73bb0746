/-
# The latest one-time code

`findValid` takes the newest of the codes that are unused, live and within the cap.
`resendOtp` leaves the earlier codes as they are, so once the newest code is used,
expired or locked out, the one before it counts again.

The calls run one at a time, so that nothing changes between the read of a code and what
follows from it; what can go wrong here is not a race. `Tally` follows the wrong codes of
a user since the newest code was issued, which are counted on that code alone as long as
only it is read.

* `Run.latest_code`: in the runs, one call at a time, whose reads find the newest
  code valid if they find any valid, only the newest code of a user is accepted, and
  no more than `maxOtpAttempts` wrong codes are compared after it was issued.
* `older_code_accepted`: the newest code is locked out, and the one before it is
  accepted.
-/
import FlashSale.OneTimeCodes

namespace FlashSale

open Lib (Table)

/-! ### The newest code -/

/-- The code of the user that was created after all others. Codes created at the same time
have no newest one among them. -/
structure Newest (db : Db) (user : Uuid) (p : Uuid × OtpRow) : Prop where
  found : db.otpCodes.get? p.1 = some p.2
  owner : p.2.userId = user
  last : ∀ q ∈ db.otpCodes.rows, q.2.userId = user → q.1 ≠ p.1 → q.2.createdAt < p.2.createdAt

instance (db : Db) (user : Uuid) (p : Uuid × OtpRow) : Decidable (Newest db user p) :=
  decidable_of_iff (db.otpCodes.get? p.1 = some p.2 ∧ p.2.userId = user ∧
      ∀ q ∈ db.otpCodes.rows, q.2.userId = user → q.1 ≠ p.1 → q.2.createdAt < p.2.createdAt)
    ⟨fun ⟨found, owner, last⟩ => ⟨found, owner, last⟩,
      fun ⟨found, owner, last⟩ => ⟨found, owner, last⟩⟩

/-- If this step reads a code of a user and any code is valid, the newest one is. And
a wrong code is not left uncounted. -/
def ReadsNewest (s : State) : Label → Prop
  | .client n _ =>
    match s.clients n with
    | .auth (.verifyRead _ user now) =>
      (∃ p ∈ s.server.db.otpCodes.rows, p.2.valid user now = true) →
        ∃ p ∈ s.server.db.otpCodes.rows, Newest s.server.db user p ∧ p.2.valid user now = true
    | _ => True
  | .clientFail n => ∀ otpId, n ∉ s.counting otpId
  | .clientCrash n => ∀ otpId, n ∉ s.counting otpId
  | _ => True

/-! ### One call at a time -/

/-- The label of a client that takes a request. -/
def Label.starts : Label → Bool
  | .purchase _ _ => true
  | .create _ _ => true
  | .register _ _ => true
  | .resend _ _ => true
  | .auth _ _ => true
  | .disable _ _ => true
  | _ => false

/-- A client takes a request only when no other is busy. The workers go on as they like, and
time passes. -/
def OneAtATime (s : State) (l : Label) : Prop := l.starts = true → ∀ n, s.clients n = .idle

/-- At most one client is busy. -/
def Alone (s : State) : Prop := ∀ n n', s.clients n ≠ .idle → s.clients n' ≠ .idle → n = n'

/-! ### Guesses since the last code -/

/-- The guesses at the codes of a user after one more event. -/
def guess (user : Uuid) (count : Nat) : Event → Nat
  | .committed commit => if (commit.issues.map Prod.fst) = some user then 0 else count
  | .compared _ _ user' _ equal => if user' = user ∧ equal = false then count + 1 else count
  | _ => count

/-- The wrong codes that have been compared since the last code of the user was issued. -/
def guesses (user : Uuid) (history : List Event) : Nat := history.foldl (guess user) 0

section Guesses

variable {user : Uuid} {history : List Event}

theorem guesses_append (more : List Event) :
    guesses user (history ++ more) = more.foldl (guess user) (guesses user history) :=
  List.foldl_append

/-- Events that concern no account leave the guesses, or issue a code. -/
theorem guesses_quiet {events : List Event} (quiet : Quiet events) :
    guesses user (history ++ events) = 0 ∨
    (guesses user (history ++ events) = guesses user history ∧
      ∀ commit ∈ commits events, commit.issues.map Prod.fst ≠ some user) := by
  rw [guesses_append]
  generalize guesses user history = count
  induction events generalizing count with
  | nil => exact Or.inr ⟨rfl, fun _ mem => by cases mem⟩
  | cons e events ih =>
    have plain := quiet e List.mem_cons_self
    have rest : Quiet events := fun e mem => quiet e (List.mem_cons_of_mem _ mem)
    rw [List.foldl_cons]
    cases e with
    | committed commit =>
      rcases ih rest (guess user count (.committed commit)) with zero | ⟨same, none⟩
      · exact Or.inl zero
      · rw [same]
        by_cases issues : commit.issues.map Prod.fst = some user
        · exact Or.inl (if_pos issues)
        · refine Or.inr ⟨if_neg issues, fun commit' mem => ?_⟩
          rcases List.mem_cons.mp mem with rfl | later
          · exact issues
          · exact none commit' later
    | compared _ _ _ _ _ => cases plain
    | granted _ _ => cases plain
    | revoked _ _ => cases plain
    | answered _ _ _ => exact ih rest count
    | claimed _ _ _ => exact ih rest count
    | effect _ _ => exact ih rest count

end Guesses

section Steps

variable {cfg : Cfg} {s s' : State} {l : Label} {user : Uuid}

/-- A client that is idle stays idle unless it takes a request. -/
theorem step_idle (taken : step cfg s l = some s') (quiet : l.starts = false) {n : Nat}
    (idle : s.clients n = .idle) : s'.clients n = .idle := by
  by_cases own : l.client? = some n
  · cases step_cases taken with
    | start start _ label => subst label; cases start <;> cases quiet
    | client ran => cases own; rw [idle] at ran; cases ran
    | store at_ => cases own; rw [idle] at at_; cases at_
    | command at_ sent => cases own; rw [idle] at at_; cases at_
    | clientFail ran => cases own; rw [idle] at ran; cases ran
    | clientCrash n => cases own; exact State.moveClient_self ..
    | _ => cases own
  · rw [step_others taken own, idle]

theorem Alone.step (alone : Alone s) (serial : OneAtATime s l)
    (taken : FlashSale.step cfg s l = some s') : Alone s' := by
  cases starts : l.starts with
  | true =>
    have idle := serial starts
    have own : ∀ n, s'.clients n ≠ .idle → l.client? = some n := by
      intro n busy
      by_contra other
      exact busy ((step_others taken other).trans (idle n))
    intro n n' busy busy'
    exact Option.some.inj ((own n busy).symm.trans (own n' busy'))
  | false =>
    intro n n' busy busy'
    exact alone n n' (fun idle => busy (step_idle taken starts idle))
      (fun idle => busy' (step_idle taken starts idle))

theorem busy_of_view {n : Nat} {view : AuthView} (is : s.views n = some view) :
    s.clients n ≠ .idle := by
  intro idle
  rw [State.views, idle] at is
  cases is

/-- A user's newest code stays the newest when a step issues the user none. -/
theorem Newest.step (coherent : Coherent cfg s) (taken : FlashSale.step cfg s l = some s')
    (none : ∀ commit, s.committing l = some commit → commit.issues.map Prod.fst ≠ some user)
    {id : Uuid} {otp : OtpRow} (newest : Newest s.server.db user (id, otp)) :
    ∃ sent, Newest s'.server.db user (id, otp.after id (s.change? l) sent) := by
  obtain ⟨found, owner, last⟩ := newest
  obtain ⟨sent, after⟩ := step_otp coherent taken found
  refine ⟨sent, after, owner, fun q mem owner' other => ?_⟩
  rcases step_otp_back coherent taken (Table.mem_rows_pair.mp mem) with
    ⟨otp', sent', found', is⟩ | ⟨-, commit, user', identifier, prepared, createdAt, committing,
      issues, is⟩
  · rw [is] at owner' ⊢
    exact last (q.1, otp') (Table.mem_rows_iff.mpr found') owner' other
  · rw [is] at owner'
    exact absurd (by rw [issues]; exact congrArg some owner') (none commit committing)

theorem Newest.unique {db : Db} {p q : Uuid × OtpRow} (newest : Newest db user p)
    (newest' : Newest db user q) : p = q := by
  obtain ⟨id, otp⟩ := p
  obtain ⟨id', otp'⟩ := q
  by_cases same : id = id'
  · subst same
    have is : some otp = some otp' := newest.found.symm.trans newest'.found
    cases is
    rfl
  · have before := newest.last _ (Table.mem_rows_iff.mpr newest'.found) newest'.owner (Ne.symm same)
    have after := newest'.last _ (Table.mem_rows_iff.mpr newest.found) newest.owner same
    exact absurd (before.trans after) (lt_irrefl _)

end Steps

/-! ### What runs keep -/

/-- The call of a client has read a code that was the newest of the user and valid. -/
def ReadNewest (trace : List (State × Label)) (n : Nat) (dto : VerifyOtpDto) (user otpId : Uuid) :
    Prop :=
  ∃ p ∈ trace, ∃ now otp, p.1.clients n = .auth (.verifyRead dto user now) ∧
    Newest p.1.server.db user (otpId, otp) ∧ otp.valid user now = true

/-- The submitted code is that of the user's newest row, which was valid when it was read and
is still the newest. -/
def IsLatest (cfg : Cfg) (trace : List (State × Label)) (db : Db) (n : Nat) (dto : VerifyOtpDto)
    (user otpId : Uuid) : Prop :=
  ReadNewest trace n dto user otpId ∧ ∃ otp, Newest db user (otpId, otp) ∧
    cfg.decrypt otp.encryptedCode = .ok dto.code

/-- A pair of `verifyOtp` is granted on the latest code. -/
def Grant.Latest (cfg : Cfg) (trace : List (State × Label)) (db : Db) (n : Nat) (grant : Grant) :
    Prop :=
  ∀ dto, grant.request = .verifyOtp dto → ∃ otpId, grant.basis = .code otpId ∧
    IsLatest cfg trace db n dto grant.userId otpId

def AuthView.Latest (cfg : Cfg) (trace : List (State × Label)) (db : Db) (n : Nat) :
    AuthView → Prop
  | .call (.verifyCompare dto user otpId otp) => ReadNewest trace n dto user otpId ∧
      ∃ row, Newest db user (otpId, row) ∧ row.encryptedCode = otp.encryptedCode ∧
        row.attempts < maxOtpAttempts
  | .call (.verifyCount _ otpId) =>
      ∃ row, db.otpCodes.get? otpId = some row ∧ row.attempts < maxOtpAttempts
  | .verifying dto otpId user => IsLatest cfg trace db n dto user otpId
  | .call (.issue grant) => grant.Latest cfg trace db n
  | .call (.set grant _ _ _) => grant.Latest cfg trace db n
  | .call (.reply grant _) => grant.Latest cfg trace db n
  | _ => True

/-- The guesses at the codes of a user are counted in the newest row, or one is about
to be. -/
def Tally (s : State) (user : Uuid) : Prop :=
  guesses user s.history = 0 ∨ ∃ id row, Newest s.server.db user (id, row) ∧
    ((guesses user s.history ≤ row.attempts ∧ row.attempts ≤ maxOtpAttempts) ∨
      (guesses user s.history ≤ row.attempts + 1 ∧ row.attempts < maxOtpAttempts ∧
        ∃ n, n ∈ s.counting id))

structure Latest (cfg : Cfg) (trace : List (State × Label)) (s : State) : Prop where
  coherent : Coherent cfg s
  alone : Alone s
  views : ∀ n view, s.views n = some view → view.Latest cfg trace s.server.db n
  tally : ∀ user, Tally s user

section Keep

variable {cfg : Cfg} {s s' : State} {l : Label} {trace : List (State × Label)} {user : Uuid}

theorem ReadNewest.snoc {n : Nat} {dto : VerifyOtpDto} {otpId : Uuid}
    (read : ReadNewest trace n dto user otpId) (p : State × Label) :
    ReadNewest (trace ++ [p]) n dto user otpId := by
  obtain ⟨q, mem, rest⟩ := read
  exact ⟨q, List.mem_append_left _ mem, rest⟩

/-- While a client is in an auth call, no code is issued. -/
theorem Alone.no_issue (alone : Alone s) {n : Nat} {view : AuthView} (is : s.views n = some view)
    {commit : Commit} (committing : s.committing l = some commit) : commit.issues = none := by
  cases committing_cases committing with
  | @client m choice job started result at_ =>
    have busy : s.clients m ≠ .idle := by
      rw [at_]
      exact Client.noConfusion
    cases alone n m (busy_of_view is) busy
    rw [State.views, at_] at is
    cases job with
    | verify dto otpId user => rfl
    | _ => cases is
  | _ => rfl

/-- What a call has shown of the latest code stays while no code is issued. -/
theorem AuthView.Latest.step {n : Nat} {view : AuthView}
    (latest : view.Latest cfg trace s.server.db n) (coherent : Coherent cfg s)
    (taken : FlashSale.step cfg s l = some s')
    (none : ∀ commit, s.committing l = some commit → commit.issues = none)
    (same : ∀ id, ((s.change? l).map (AccountChange.counts id)).getD 0 = 0) :
    view.Latest cfg (trace ++ [(s, l)]) s'.server.db n := by
  have newest : ∀ {user id row}, Newest s.server.db user (id, row) →
      ∃ row', Newest s'.server.db user (id, row') ∧ row'.encryptedCode = row.encryptedCode ∧
        row'.attempts = row.attempts := by
    intro user id row newest
    obtain ⟨sent, newest'⟩ := newest.step coherent taken fun commit committing => by
      rw [none commit committing]
      exact nofun
    exact ⟨_, newest', rfl, by simp [OtpRow.after, same id]⟩
  have isLatest : ∀ {dto user otpId}, IsLatest cfg trace s.server.db n dto user otpId →
      IsLatest cfg (trace ++ [(s, l)]) s'.server.db n dto user otpId := by
    rintro dto user otpId ⟨read, otp, newest₀, plain⟩
    obtain ⟨row', newest', code, -⟩ := newest newest₀
    exact ⟨read.snoc _, row', newest', by rw [code, plain]⟩
  have grants : ∀ {grant : Grant}, grant.Latest cfg trace s.server.db n →
      grant.Latest cfg (trace ++ [(s, l)]) s'.server.db n := by
    intro grant latest dto request
    obtain ⟨otpId, basis, is⟩ := latest dto request
    exact ⟨otpId, basis, isLatest is⟩
  cases view with
  | verifying dto otpId user => exact isLatest latest
  | call call =>
    cases call with
    | verifyCompare dto user otpId otp =>
      obtain ⟨read, row, newest₀, code, few⟩ := latest
      obtain ⟨row', newest', code', attempts⟩ := newest newest₀
      exact ⟨read.snoc _, row', newest', code'.trans code, by rw [attempts]; exact few⟩
    | verifyCount dto otpId =>
      obtain ⟨row, found, few⟩ := latest
      obtain ⟨sent, after⟩ := step_otp coherent taken found
      exact ⟨_, after, by simpa [OtpRow.after, same otpId] using few⟩
    | issue grant => exact grants latest
    | set grant pair jti hash => exact grants latest
    | reply grant pair => exact grants latest
    | _ => trivial

/-- The tally stays when a step issues no code, counts no guess and makes none. -/
theorem Tally.step (tally : Tally s user) (coherent : Coherent cfg s)
    (taken : FlashSale.step cfg s l = some s')
    (none : ∀ commit, s.committing l = some commit → commit.issues.map Prod.fst ≠ some user)
    (same : ∀ id, ((s.change? l).map (AccountChange.counts id)).getD 0 = 0)
    (guessed : guesses user s'.history = guesses user s.history)
    (counting : ∀ id n, n ∈ s.counting id → n ∈ s'.counting id) : Tally s' user := by
  rcases tally with zero | ⟨id, row, newest, tally⟩
  · exact Or.inl (guessed.trans zero)
  · obtain ⟨sent, newest'⟩ := newest.step coherent taken none
    have attempts : (row.after id (s.change? l) sent).attempts = row.attempts := by
      simp [OtpRow.after, same id]
    refine Or.inr ⟨id, _, newest', ?_⟩
    rw [guessed, attempts]
    rcases tally with counted | ⟨le, few, n, counts⟩
    · exact Or.inl counted
    · exact Or.inr ⟨le, few, n, counting id n counts⟩

theorem Tally.most (tally : Tally s user) : guesses user s.history ≤ maxOtpAttempts := by
  rcases tally with zero | ⟨id, row, -, ⟨le, most⟩ | ⟨le, few, -⟩⟩
  · omega
  · omega
  · omega

/-- While a client moves in an auth call, no other is in one and no code is issued. -/
theorem AuthMove.alone {n : Nat} {next : Option AuthView} {tokens : Text → Option Session}
    {events : List Event} (move : AuthMove cfg s n l (s.views n) next tokens events) (alone : Alone s)
    (serial : OneAtATime s l) :
    (∀ m view, s.views m = some view → m = n) ∧
      ∀ commit, s.committing l = some commit → commit.issues = none := by
  cases view : s.views n with
  | some view =>
    exact ⟨fun m _ is => alone m n (busy_of_view is) (busy_of_view view),
      fun commit committing => alone.no_issue view committing⟩
  | none =>
    rw [view] at move
    cases move with
    | asks starts =>
      have first : l.starts = true := by cases starts <;> rfl
      refine ⟨fun m _ is => absurd (serial first m) (busy_of_view is), fun commit committing => ?_⟩
      cases starts <;> cases committing

/-- The clients that count a guess are those of before, but for the one that moves. -/
theorem counting_others {n : Nat} {next : Option AuthView}
    (views : s'.views = Function.update s.views n next)
    (away : ∀ dto id, s.views n ≠ some (.call (.verifyCount dto id))) {id : Uuid} {m : Nat}
    (counts : m ∈ s.counting id) : m ∈ s'.counting id := by
  rw [counting_update views]
  refine Or.inl ⟨?_, counts⟩
  rintro rfl
  obtain ⟨dto, is⟩ := counts
  exact away dto id is

/-- A wrong code is compared with the newest one, and the guess is to be counted. -/
theorem Tally.differs (tally : Tally s user) (coherent : Coherent cfg s)
    (taken : FlashSale.step cfg s l = some s')
    (issues : ∀ commit, s.committing l = some commit → commit.issues.map Prod.fst ≠ some user)
    {n : Nat} (only : ∀ m view, s.views m = some view → m = n) {dto : VerifyOtpDto} {id : Uuid}
    {otp row : OtpRow} (at_ : s.views n = some (.call (.verifyCompare dto user id otp)))
    (newest : Newest s.server.db user (id, row)) (few : row.attempts < maxOtpAttempts)
    (same : ((s.change? l).map (AccountChange.counts id)).getD 0 = 0)
    (more : guesses user s'.history = guesses user s.history + 1)
    (views : s'.views = Function.update s.views n (some (.call (.verifyCount dto id)))) :
    Tally s' user := by
  obtain ⟨sent, newest'⟩ := newest.step coherent taken issues
  have attempts : (row.after id (s.change? l) sent).attempts = row.attempts := by
    simp [OtpRow.after, same]
  have before : guesses user s.history ≤ row.attempts := by
    rcases tally with zero | ⟨id', row', newest', ⟨le, -⟩ | ⟨-, -, m, counts⟩⟩
    · omega
    · cases newest.unique newest'
      exact le
    · obtain ⟨dto', is⟩ := counts
      cases only m _ is
      rw [at_] at is
      cases is
  refine Or.inr ⟨id, _, newest', Or.inr ?_⟩
  rw [attempts, more]
  refine ⟨Nat.succ_le_succ before, few, n, dto, ?_⟩
  rw [views, Function.update_self]

/-- A guess is counted. -/
theorem Tally.counts (tally : Tally s user) (coherent : Coherent cfg s)
    (taken : FlashSale.step cfg s l = some s')
    (issues : ∀ commit, s.committing l = some commit → commit.issues.map Prod.fst ≠ some user)
    {n : Nat} (only : ∀ m view, s.views m = some view → m = n) {dto : VerifyOtpDto} {id : Uuid}
    {row : OtpRow} (at_ : s.views n = some (.call (.verifyCount dto id)))
    (found : s.server.db.otpCodes.get? id = some row) (few : row.attempts < maxOtpAttempts)
    (counted : ∀ id', ((s.change? l).map (AccountChange.counts id')).getD 0 = if id = id' then 1 else 0)
    (same : guesses user s'.history = guesses user s.history) : Tally s' user := by
  rcases tally with zero | ⟨id', row', newest, tallied⟩
  · exact Or.inl (same.trans zero)
  · obtain ⟨sent, newest'⟩ := newest.step coherent taken issues
    have attempts : (row'.after id' (s.change? l) sent).attempts =
        row'.attempts + if id = id' then 1 else 0 := by
      rw [← counted id']
      rfl
    refine Or.inr ⟨id', _, newest', Or.inl ?_⟩
    rw [same, attempts]
    by_cases mine : id = id'
    · subst mine
      rw [newest.found] at found
      cases found
      rw [if_pos rfl]
      rcases tallied with ⟨le, -⟩ | ⟨le, -, -⟩
      · exact ⟨le.trans (Nat.le_succ _), few⟩
      · exact ⟨le, few⟩
    · rw [if_neg mine, Nat.add_zero]
      rcases tallied with tallied | ⟨-, -, m, dto', is⟩
      · exact tallied
      · cases only m _ is
        rw [at_] at is
        cases is
        exact absurd rfl mine

/-- No guess is lost: the increment would have been committed. -/
theorem Latest.keeps_count (latest : Latest cfg trace s) (reads : ReadsNewest s l) {n : Nat}
    {dto : VerifyOtpDto} {id : Uuid} (at_ : s.views n = some (.call (.verifyCount dto id)))
    (lost : l = .clientFail n ∨ l = .clientCrash n ∨ ∃ choice, l = .client n choice) :
    s.change? l ≠ none := by
  intro unchanged
  rcases lost with rfl | rfl | ⟨choice, rfl⟩
  · exact reads id ⟨dto, at_⟩
  · exact reads id ⟨dto, at_⟩
  · obtain ⟨row, found, few⟩ := latest.views n _ at_
    rw [counting_commits (Client.view_call at_) found few.le] at unchanged
    cases unchanged

/-- A move keeps the tally. -/
theorem AuthMove.tally {n : Nat} {next : Option AuthView} {events : List Event}
    (move : AuthMove cfg s n l (s.views n) next s'.tokens events)
    (views : s'.views = Function.update s.views n next) (history : s'.history = s.history ++ events)
    (latest : Latest cfg trace s) (serial : OneAtATime s l) (reads : ReadsNewest s l)
    (taken : step cfg s l = some s') (user : Uuid) : Tally s' user := by
  have coherent := latest.coherent
  have tally := latest.tally user
  obtain ⟨only, none⟩ := move.alone latest.alone serial
  have change := step_change taken history
  have issues : ∀ commit, s.committing l = some commit → commit.issues.map Prod.fst ≠ some user :=
    fun commit committing => by
      rw [none commit committing]
      exact nofun
  have guessed : guesses user s'.history = events.foldl (guess user) (guesses user s.history) := by
    rw [history, guesses_append]
  -- The move neither makes nor counts a guess.
  have still : (∀ dto id, s.views n ≠ some (.call (.verifyCount dto id))) →
      (∀ id, ((changes events).head?.map (AccountChange.counts id)).getD 0 = 0) →
      events.foldl (guess user) (guesses user s.history) = guesses user s.history →
      Tally s' user := by
    intro away same kept
    exact tally.step coherent taken issues (fun id => change ▸ same id) (guessed.trans kept)
      fun id m counts => counting_others views away counts
  generalize at_ : s.views n = view, s'.tokens = tokens at move still
  cases move with
  | asks starts => exact still nofun (fun _ => rfl) rfl
  | verified => exact still nofun (fun _ => rfl) rfl
  | commands done => exact still (by cases done <;> exact nofun) (fun _ => rfl) rfl
  | @ends _ view events quiet lost =>
    by_cases counts : ∃ dto id, view = .call (.verifyCount dto id)
    · obtain ⟨dto, id, rfl⟩ := counts
      exact absurd (by rw [change, quiet.changes]; rfl) (latest.keeps_count reads at_ lost)
    · have kept : guesses user (s.history ++ events) = 0 ∨ _ := guesses_quiet quiet
      rcases kept with zero | ⟨same, -⟩
      · exact Or.inl (history ▸ zero)
      · refine still (fun dto id is => counts ⟨dto, id, Option.some.inj is⟩) (fun _ => ?_) ?_
        · rw [quiet.changes]
          rfl
        · rw [← guesses_append]
          exact same
  | @goes choice _ _ _ goes =>
    cases goes with
    | @verifyDiffers dto owner id otp plainCode plain differs =>
      by_cases mine : owner = user
      · subst mine
        obtain ⟨-, row, newest, -, few⟩ := latest.views n _ at_
        refine tally.differs coherent taken issues only at_ newest few (by rw [change]; rfl) ?_ views
        rw [guessed]
        simp [guess]
      · refine still nofun (fun _ => rfl) ?_
        simp [guess, mine]
    | verifyMatches plain =>
      refine still nofun (fun _ => rfl) ?_
      simp [guess]
    | counts =>
      obtain ⟨row, found, few⟩ := latest.views n _ at_
      exact tally.counts coherent taken issues only at_ found few (fun _ => by rw [change]; rfl) guessed
    | _ => exact still nofun (fun _ => rfl) rfl

/-- The code that this step reads is the newest: the newest one is valid, and none that is
valid was created after the one that is read. -/
theorem ReadsNewest.newest {n : Nat} {choice : Choice} {dto : VerifyOtpDto} {user otpId : Uuid}
    {now : Int} {otp : OtpRow} (reads : ReadsNewest s (.client n choice))
    (at_ : s.clients n = .auth (.verifyRead dto user now))
    (found : s.server.db.otpCodes.get? otpId = some otp) (valid : otp.valid user now = true)
    (last : ∀ id row, s.server.db.otpCodes.get? id = some row → row.valid user now = true →
      row.createdAt ≤ otp.createdAt) :
    Newest s.server.db user (otpId, otp) := by
  simp only [ReadsNewest, at_] at reads
  obtain ⟨⟨id, row⟩, -, latest, live⟩ := reads ⟨(otpId, otp), Table.mem_rows_iff.mpr found, valid⟩
  have same : otpId = id := by
    by_contra other
    have owner : otp.userId = user := by
      simp only [OtpRow.valid, Bool.and_eq_true, decide_eq_true_eq] at valid
      exact valid.1.1.1
    have before := latest.last _ (Table.mem_rows_iff.mpr found) owner other
    exact absurd (last id row latest.found live) (not_le.mpr before)
  subst same
  cases latest.found.symm.trans found
  exact latest

/-- A move leads to a view that has shown the latest code. -/
theorem AuthMove.latest {n : Nat} {next : Option AuthView} {events : List Event}
    (move : AuthMove cfg s n l (s.views n) next s'.tokens events)
    (history : s'.history = s.history ++ events) (latest : Latest cfg trace s)
    (serial : OneAtATime s l) (reads : ReadsNewest s l) (taken : step cfg s l = some s')
    {view : AuthView} (is : next = some view) :
    view.Latest cfg (trace ++ [(s, l)]) s'.server.db n := by
  obtain ⟨coherent, alone, shown, -⟩ := latest
  obtain ⟨-, none⟩ := move.alone alone serial
  have change := step_change taken history
  have last : (s, l) ∈ trace ++ [(s, l)] := List.mem_append_right _ (List.mem_singleton.mpr rfl)
  have own : ∀ {call : AuthCall}, s.views n = some (.call call) → s.clients n = .auth call :=
    fun is => Client.view_call is
  -- What was shown stays when the move counts no guess.
  have kept : (∀ id, ((changes events).head?.map (AccountChange.counts id)).getD 0 = 0) →
      ∀ {view : AuthView}, view.Latest cfg trace s.server.db n →
        view.Latest cfg (trace ++ [(s, l)]) s'.server.db n :=
    fun same view shown => shown.step coherent taken none fun id => change ▸ same id
  have here := shown n
  generalize s.views n = before, s'.tokens = tokens at move here own
  cases move with
  | asks starts => cases starts <;> cases is <;> trivial
  | ends _ _ => cases is
  | @verified choice dto otpId user =>
    cases is
    intro dto' request
    cases request
    have shown : AuthView.Latest cfg (trace ++ [_]) s'.server.db n (.verifying dto otpId user) :=
      kept (fun _ => rfl) (here _ rfl)
    exact ⟨otpId, rfl, shown⟩
  | commands done =>
    cases done with
    | rotates =>
      cases is
      intro dto request
      cases request
    | revokes => cases is; trivial
    | @sets grant pair jti hash =>
      cases is
      have shown : AuthView.Latest cfg (trace ++ [_]) s'.server.db n (.call (.set grant pair jti hash)) :=
        kept (fun _ => rfl) (here _ rfl)
      exact shown
  | @goes choice _ _ _ goes =>
    cases goes with
    | loginFinds found => cases is; trivial
    | loginPasses _ _ =>
      cases is
      intro dto request
      cases request
    | verifyFinds found names => cases is; trivial
    | verifyTimes => cases is; trivial
    | @verifyReads dto user otpId now otp found valid newest =>
      cases is
      have latest := reads.newest (own rfl) found valid newest
      obtain ⟨sent, latest'⟩ := latest.step coherent taken fun commit committing => by
        rw [none commit committing]
        intro is
        cases is
      refine ⟨⟨_, last, now, otp, own rfl, latest, valid⟩, _, latest', rfl, ?_⟩
      simp only [OtpRow.valid, Bool.and_eq_true, decide_eq_true_eq] at valid
      rw [change]
      simpa [OtpRow.after, changes] using valid.2
    | @verifyMatches dto user otpId otp plain =>
      cases is
      obtain ⟨read, row, newest, code, -⟩ := here _ rfl
      have shown : AuthView.Latest cfg trace s.server.db n (.verifying dto otpId user) :=
        ⟨read, row, newest, by rw [code, plain]⟩
      exact kept (fun _ => rfl) shown
    | @verifyDiffers dto user otpId otp plainCode plain differs =>
      cases is
      obtain ⟨-, row, newest, -, few⟩ := here _ rfl
      have shown : AuthView.Latest cfg trace s.server.db n (.call (.verifyCount dto otpId)) :=
        ⟨row, newest.found, few⟩
      exact kept (fun _ => rfl) shown
    | gets _ _ _ => cases is; trivial
    | @issues grant =>
      cases is
      have shown : AuthView.Latest cfg (trace ++ [_]) s'.server.db n (.call (.issue grant)) :=
        kept (fun _ => rfl) (here _ rfl)
      exact shown
    | _ => cases is

theorem Latest.step (latest : Latest cfg trace s) (serial : OneAtATime s l)
    (reads : ReadsNewest s l) (taken : FlashSale.step cfg s l = some s') :
    Latest cfg (trace ++ [(s, l)]) s' := by
  have coherent := latest.coherent
  have coherent' := (step_coherent coherent taken).1
  have alone' := latest.alone.step serial taken
  cases step_auth taken with
  | @other events views _ history quiet =>
    have change : s.change? l = none := by
      rw [step_change taken history, quiet.changes]
      rfl
    have same : ∀ id, ((s.change? l).map (AccountChange.counts id)).getD 0 = 0 := by
      intro id
      rw [change]
      rfl
    refine ⟨coherent', alone', fun n view is => ?_, fun user => ?_⟩
    · rw [views] at is
      exact (latest.views n view is).step coherent taken
        (fun commit committing => latest.alone.no_issue is committing) same
    · have guessed : guesses user (s.history ++ events) = 0 ∨ _ := guesses_quiet quiet
      rcases guessed with zero | ⟨kept, none⟩
      · exact Or.inl (history ▸ zero)
      · have recorded := step_commits taken
        rw [history, commits_append] at recorded
        refine (latest.tally user).step coherent taken (fun commit committing => none commit ?_) same
          (by rw [history, kept]) fun id m counts => ?_
        · rw [List.append_cancel_left recorded, committing]
          exact List.mem_singleton.mpr rfl
        · rw [mem_counting, views]
          exact counts
  | @moves n next events move views history =>
    refine ⟨coherent', alone', fun m view is => ?_, fun user => ?_⟩
    · rw [views] at is
      by_cases own : m = n
      · subst own
        rw [Function.update_self] at is
        exact move.latest history latest serial reads taken is
      · rw [Function.update_of_ne own] at is
        exact absurd ((move.alone latest.alone serial).1 m view is) own
    · exact move.tally views history latest serial reads taken user

/-- In the runs, one call at a time, whose reads find the newest code valid if they
find any valid: a call of `verifyOtp` that returns a pair has sent the newest code of
the user, which was valid when it was read, and no more than `maxOtpAttempts` wrong
codes are compared after a code is issued. -/
theorem Run.latest_code {start : State} (fresh : Fresh start) (run : Run cfg start trace s)
    (serial : ∀ p ∈ trace, OneAtATime p.1 p.2) (reads : ∀ p ∈ trace, ReadsNewest p.1 p.2) :
    (∀ n dto grant pair, s.clients n = .auth (.reply grant pair) →
      grant.request = .verifyOtp dto →
      ∃ otpId otp, grant.basis = .code otpId ∧ Newest s.server.db grant.userId (otpId, otp) ∧
        cfg.decrypt otp.encryptedCode = .ok dto.code ∧
        ReadNewest trace n dto grant.userId otpId) ∧
    ∀ user, guesses user s.history ≤ maxOtpAttempts := by
  have none : ∀ n, start.views n = none := fun n => by
    rw [State.views, fresh.clients n]
    rfl
  have init : Latest cfg [] start := by
    refine ⟨fresh.coherent, fun n n' busy => absurd (fresh.clients n) busy, fun n view is => ?_,
      fun user => Or.inl ?_⟩
    · rw [none n] at is
      cases is
    · rw [fresh.history]
      rfl
  let Inv : List (State × Label) → State → Prop := fun trace s =>
    (∀ p ∈ trace, OneAtATime p.1 p.2 ∧ ReadsNewest p.1 p.2) → Latest cfg trace s
  have keep : ∀ trace s l s', Inv trace s → FlashSale.step cfg s l = some s' →
      Inv (trace ++ [(s, l)]) s' := by
    intro trace s l s' inv taken ok
    have last := ok (s, l) (List.mem_append_right _ (List.mem_singleton.mpr rfl))
    exact (inv fun p mem => ok p (List.mem_append_left _ mem)).step last.1 last.2 taken
  have latest : Latest cfg trace s := run.invariant_along Inv (fun _ => init) keep
    fun p mem => ⟨serial p mem, reads p mem⟩
  refine ⟨fun n dto grant pair at_ request => ?_, fun user => (latest.tally user).most⟩
  have view : s.views n = some (.call (.reply grant pair)) := by rw [State.views, at_]; rfl
  have shown : grant.Latest cfg trace s.server.db n := latest.views n _ view
  obtain ⟨otpId, basis, read, otp, newest, plain⟩ := shown dto request
  exact ⟨otpId, otp, basis, newest, plain, read⟩

end Keep

/-! ### An older code -/

/-- A second after the code 5, which is 100000, the member asks for a new one, which is
100007. -/
def resending : List Label :=
  .elapse 1000000 :: .resend 0 mail :: Label.clientSteps 0 6 7

/-- Five wrong codes lock the new code out, and the sixth is compared with the old
one. Then the old code is sent. -/
def fallingBack : List Label :=
  resending ++ (List.replicate 6 (guessing 0 "0" ++ Label.clientSteps 0 1 0)).flatten ++
    guessing 0 "100000" ++ Label.clientSteps 0 5 8 ++ .command 0 :: Label.clientSteps 0 1 8

theorem fallingBack_runs :
    (Lib.execute (step plainCfg) (memberShop .pendingVerification) fallingBack).isSome = true := by
  decide +kernel

/-- No client but 0 takes a step, and it takes a request only when it is idle. -/
def aloneInTurn (p : State × Label) : Bool :=
  (p.2.client?.all fun n => decide (n = 0)) &&
    (!p.2.starts || match p.1.clients 0 with
      | .idle => true
      | _ => false)

section Alone

variable {cfg : Cfg} {start s : State} {trace : List (State × Label)}

theorem Run.idle_of_alone (fresh : Fresh start) (run : Run cfg start trace s)
    (alone : ∀ p ∈ trace, aloneInTurn p = true) {p : State × Label} (mem : p ∈ trace) {n : Nat}
    (other : n ≠ 0) : p.1.clients n = .idle := by
  rw [← fresh.clients n]
  refine Run.unmoved run (fun q inside is => ?_) p mem
  have own := (Bool.and_eq_true_iff.mp (alone q inside)).1
  rw [is] at own
  exact other (of_decide_eq_true own)

theorem Run.oneAtATime_of_alone (fresh : Fresh start) (run : Run cfg start trace s)
    (alone : ∀ p ∈ trace, aloneInTurn p = true) : ∀ p ∈ trace, OneAtATime p.1 p.2 := by
  intro p mem starts n
  by_cases zero : n = 0
  · have turn := (Bool.and_eq_true_iff.mp (alone p mem)).2
    rw [starts] at turn
    cases client : p.1.clients 0 with
    | idle => rw [zero, client]
    | _ => rw [client] at turn; cases turn
  · exact run.idle_of_alone fresh alone mem zero

end Alone

/-- One call at a time, the newest code is locked out, a sixth wrong code is compared
with the one before it, and that one is accepted. -/
theorem older_code_accepted :
    ∃ s old new, Run plainCfg (memberShop .pendingVerification)
        (Lib.traceOf (step plainCfg) (memberShop .pendingVerification) fallingBack) s ∧
      (∀ p ∈ Lib.traceOf (step plainCfg) (memberShop .pendingVerification) fallingBack,
        OneAtATime p.1 p.2) ∧
      guesses 1 s.history = 6 ∧
      grants s.history = [⟨.verifyOtp ⟨mail, "100000"⟩, 1, .code 5⟩] ∧
      s.server.db.otpCodes.get? 5 = some old ∧ s.server.db.otpCodes.get? 7 = some new ∧
      old.userId = new.userId ∧ old.createdAt < new.createdAt := by
  have run := Lib.Run.of_isSome fallingBack_runs
  have alone : ∀ p ∈ Lib.traceOf (step plainCfg) (memberShop .pendingVerification) fallingBack,
      aloneInTurn p = true := by decide +kernel
  have guessed : guesses 1 ((Lib.execute (step plainCfg) (memberShop .pendingVerification)
      fallingBack).get fallingBack_runs).history = 6 := by decide +kernel
  have granted : grants ((Lib.execute (step plainCfg) (memberShop .pendingVerification)
      fallingBack).get fallingBack_runs).history =
      [⟨.verifyOtp ⟨mail, "100000"⟩, 1, .code 5⟩] := by decide +kernel
  have old : ((Lib.execute (step plainCfg) (memberShop .pendingVerification)
      fallingBack).get fallingBack_runs).server.db.otpCodes.get? 5 =
      some ⟨1, .email, memberCode, dayStart + 600000, true, false, 1, dayStart⟩ := by
    decide +kernel
  have new : ((Lib.execute (step plainCfg) (memberShop .pendingVerification)
      fallingBack).get fallingBack_runs).server.db.otpCodes.get? 7 =
      some ⟨1, .email, plainCfg.encrypt "100007" 7, dayStart + 601000, false, false, 5, dayStart + 1000⟩ := by
    decide +kernel
  exact ⟨_, _, _, run, Run.oneAtATime_of_alone (State.initial_fresh _ _ _) run alone, guessed,
    granted, old, new, rfl, by decide⟩

/-- The conditions of `ReadsNewest` for a run in which no call is lost. -/
def newestRead (p : State × Label) : Bool :=
  match p.2 with
  | .client n _ =>
    match p.1.clients n with
    | .auth (.verifyRead _ user now) =>
      decide ((∃ q ∈ p.1.server.db.otpCodes.rows, q.2.valid user now = true) →
        ∃ q ∈ p.1.server.db.otpCodes.rows, Newest p.1.server.db user q ∧ q.2.valid user now = true)
    | _ => true
  | .clientFail _ => false
  | .clientCrash _ => false
  | _ => true

theorem readsNewest_of {p : State × Label} (newest : newestRead p = true) :
    ReadsNewest p.1 p.2 := by
  obtain ⟨t, l⟩ := p
  cases l with
  | client n choice =>
    dsimp only [ReadsNewest, newestRead] at newest ⊢
    split
    · rename_i dto user now at_
      rw [at_] at newest
      exact of_decide_eq_true newest
    · trivial
  | clientFail n => cases newest
  | clientCrash n => cases newest
  | _ => trivial

/-- The member sends a wrong code, which is counted, and then the new code, up to the
return of the pair. -/
def sendingNew : List Label :=
  resending ++ guessing 0 "0" ++ Label.clientSteps 0 1 0 ++ guessing 0 "100007" ++
    Label.clientSteps 0 5 8 ++ [.command 0]

theorem sendingNew_runs :
    (Lib.execute (step plainCfg) (memberShop .pendingVerification) sendingNew).isSome = true := by
  decide +kernel

theorem latest_code_resent :
    ∃ s, Run plainCfg (memberShop .pendingVerification)
        (Lib.traceOf (step plainCfg) (memberShop .pendingVerification) sendingNew) s ∧
      guesses 1 s.history = 1 ∧
      ∃ otpId otp, Newest s.server.db 1 (otpId, otp) ∧
        plainCfg.decrypt otp.encryptedCode = .ok "100007" := by
  have run := Lib.Run.of_isSome sendingNew_runs
  have alone : ∀ p ∈ Lib.traceOf (step plainCfg) (memberShop .pendingVerification) sendingNew,
      aloneInTurn p = true := by decide +kernel
  have newest : ∀ p ∈ Lib.traceOf (step plainCfg) (memberShop .pendingVerification) sendingNew,
      newestRead p = true := by decide +kernel
  have guessed : guesses 1 ((Lib.execute (step plainCfg) (memberShop .pendingVerification)
      sendingNew).get sendingNew_runs).history = 1 := by decide +kernel
  have replies : ((Lib.execute (step plainCfg) (memberShop .pendingVerification)
      sendingNew).get sendingNew_runs).clients 0 = .auth (.reply
        ⟨.verifyOtp ⟨mail, "100007"⟩, 1, .code 7⟩ ⟨drawnUuid 8,
          drawnUuid 8 ++ '.' :: drawnBytes 8⟩) := by rfl
  have latest := Run.latest_code (State.initial_fresh _ _ _) run
    (Run.oneAtATime_of_alone (State.initial_fresh _ _ _) run alone)
    fun p mem => readsNewest_of (newest p mem)
  obtain ⟨otpId, otp, -, newest', plain, -⟩ := latest.1 0 _ _ _ replies rfl
  exact ⟨_, run, guessed, otpId, otp, newest', plain⟩

end FlashSale
