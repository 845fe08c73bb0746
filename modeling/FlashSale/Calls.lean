/-
# The steps of an auth call

Every way in which a call of `login`, `verifyOtp`, `refresh` or `logout` goes on by
itself, with what it has found and the events that it adds, and what Redis does to
the token store for it. The lookups of `register` and `resendOtp` are answered, or followed
by a new code.

A turn of a call says everything that its step can do, with the conditions under which it
does it. The invariants of the auth modules are proved by cases on these turns, and none of
them unfolds the step functions.

* `authStep_turns`: the inversion of `authStep`.
* `AuthCall.commands`: the inversion of `AuthCall.command`.
* `registerFindStep_turns`, `resendFindStep_turns`: the inversions of the lookups.
-/
import FlashSale.System

namespace FlashSale

variable {cfg : Cfg} {s : State}

/-- What `findByIdentifier` returned: a user with that identifier, if any. -/
def FoundUser (identifier : NormalizedIdentifier) (db : Db) (user : Option (Uuid × UserRow)) : Prop :=
  ∀ id row, user = some (id, row) → db.users.get? id = some row ∧ identifier.names row = true

/-- How an auth call goes on: the client after the step, and the events it adds. -/
inductive AuthGoes (cfg : Cfg) (s : State) (n : Nat) (choice : Choice) :
    AuthCall → Client → List Event → Prop where
  | loginFinds {dto : LoginDto} {identifier : NormalizedIdentifier} {user : Option (Uuid × UserRow)}
      (found : FoundUser identifier s.server.db user) :
      AuthGoes cfg s n choice (.loginFind dto identifier) (.auth (.loginCompare dto user)) []
  | loginPasses {dto : LoginDto} {id : Uuid} {row : UserRow}
      (password : cfg.compare dto.password row.passwordHash = true)
      (verified : row.status ≠ .pendingVerification) :
      AuthGoes cfg s n choice (.loginCompare dto (some (id, row)))
        (.auth (.issue ⟨.login dto, id, .password⟩)) []
  | verifyFinds {dto : VerifyOtpDto} {identifier : NormalizedIdentifier} {id : Uuid} {row : UserRow}
      (found : s.server.db.users.get? id = some row) (names : identifier.names row = true) :
      AuthGoes cfg s n choice (.verifyFind dto identifier) (.auth (.verifyClock dto id)) []
  | verifyTimes {dto : VerifyOtpDto} {user : Uuid} :
      AuthGoes cfg s n choice (.verifyClock dto user) (.auth (.verifyRead dto user s.now)) []
  | verifyReads {dto : VerifyOtpDto} {user otpId : Uuid} {now : Int} {otp : OtpRow}
      (found : s.server.db.otpCodes.get? otpId = some otp) (valid : otp.valid user now = true)
      (newest : ∀ id otp', s.server.db.otpCodes.get? id = some otp' → otp'.valid user now = true →
        otp'.createdAt ≤ otp.createdAt) :
      AuthGoes cfg s n choice (.verifyRead dto user now)
        (.auth (.verifyCompare dto user otpId otp)) []
  | verifyMatches {dto : VerifyOtpDto} {user otpId : Uuid} {otp : OtpRow}
      (plain : cfg.decrypt otp.encryptedCode = .ok dto.code) :
      AuthGoes cfg s n choice (.verifyCompare dto user otpId otp) (.begin_ (.verify dto otpId user))
        [.compared n dto user otpId true]
  | verifyDiffers {dto : VerifyOtpDto} {user otpId : Uuid} {otp : OtpRow} {plainCode : String}
      (plain : cfg.decrypt otp.encryptedCode = .ok plainCode) (differs : plainCode ≠ dto.code) :
      AuthGoes cfg s n choice (.verifyCompare dto user otpId otp) (.auth (.verifyCount dto otpId))
        [.compared n dto user otpId false]
  | counts {dto : VerifyOtpDto} {otpId : Uuid} :
      AuthGoes cfg s n choice (.verifyCount dto otpId) .idle
        [.committed (.account (.attempted otpId)),
          .answered n (.auth (.verifyOtp dto)) otpInvalid.response]
  | gets {use : TokenUse} {token jti rawPart : Text} {session : Session}
      (split : splitToken token = some (jti, rawPart)) (stored : s.session jti = some session)
      (hash : cfg.sha256 rawPart = session.hash) :
      AuthGoes cfg s n choice (.get use token) (.auth (.del use token jti session)) []
  | revokes {token : Text} :
      AuthGoes cfg s n choice (.revoked token) .idle
        [.revoked n token, .answered n (.auth (.logout token)) ⟨204, .empty⟩]
  | issues {grant : Grant} :
      AuthGoes cfg s n choice (.issue grant) (.auth (.set grant
        ⟨cfg.sign grant.userId (cfg.randomUuid choice.draw) s.now,
          cfg.randomUuid choice.draw ++ '.' :: cfg.randomBytes choice.draw⟩
        (cfg.randomUuid choice.draw) (cfg.sha256 (cfg.randomBytes choice.draw)))) []
  | replies {grant : Grant} {pair : TokenPair} :
      AuthGoes cfg s n choice (.reply grant pair) .idle
        [.granted n grant, .answered n (.auth grant.request) ⟨200, .tokens pair⟩]
  | disables {user : Uuid} :
      AuthGoes cfg s n choice (.disabling user) .idle [.committed (.account (.disabled user))]

/-- A step of an auth call: the call answers and does nothing else, or goes on. Nothing but its
own place, its events and the server can change. -/
inductive AuthTurn (cfg : Cfg) (s : State) (n : Nat) (choice : Choice) (call : AuthCall) :
    Client → List Event → Prop where
  | ends (response : Response) :
      AuthTurn cfg s n choice call .idle (answer n (call.request.map .auth) response)
  | goes {next : Client} {events : List Event} (goes : AuthGoes cfg s n choice call next events) :
      AuthTurn cfg s n choice call next events

/-- A call whose statement failed ends, and one whose statement ran goes on. -/
theorem afterQuery_turns {n : Nat} {st : Stmt} {choice : Choice} {call : AuthCall}
    {next : st.Result → Move Client} {move : Move Client}
    (taken : afterQuery s n call (s.query n st choice) next = some move)
    (goesOn : ∀ ws r,
      (plan st (s.env (.client n) s.clock choice) s.server.db).answer = .ok (ws, r) →
      AuthTurn cfg s n choice call (next r).next (next r).events) :
    AuthTurn cfg s n choice call move.next move.events := by
  obtain ⟨⟨answer, server⟩, ran, eq⟩ := Option.map_eq_some_iff.mp taken
  obtain ⟨⟨first, mid⟩, ran, eq'⟩ := Option.map_eq_some_iff.mp ran
  rcases Lib.Server.statement_cases ran with ⟨e, got, rfl, -⟩ | ⟨ws, r, got, rfl, -, -⟩
  · cases eq'
    cases eq
    exact .ends _
  · cases eq'
    cases eq
    exact goesOn ws r got

theorem getStep_turns {n : Nat} {choice : Choice} {use : TokenUse} {token : Text} :
    AuthTurn cfg s n choice (.get use token) (getStep cfg s n use token).next
      (getStep cfg s n use token).events := by
  have unknown : AuthTurn cfg s n choice (.get use token) (unknownToken s n token use).next
      (unknownToken s n token use).events := by
    cases use with
    | rotate => exact .ends _
    | revoke => exact .ends ⟨204, .empty⟩
  unfold getStep
  split
  · exact unknown
  · rename_i jti rawPart parts
    split
    · exact unknown
    · rename_i session stored
      split
      · rename_i hash
        exact .goes (.gets parts stored hash)
      · exact unknown

/-- Everything that an auth call can do by itself. The query of the step, if it has one, is
answered from the rows committed now. -/
theorem authStep_turns {n : Nat} {choice : Choice} {call : AuthCall} {move : Move Client}
    (taken : authStep cfg s n choice call = some move) :
    AuthTurn cfg s n choice call move.next move.events := by
  cases call with
  | loginFind dto identifier =>
    refine afterQuery_turns taken fun ws r got => .goes (.loginFinds fun id row some => ?_)
    subst some
    exact plan_findUser got
  | loginCompare dto user =>
    cases taken
    unfold loginCompareStep
    split
    · rename_i id row password
      split
      · exact .ends _
      · rename_i verified
        exact .goes (.loginPasses password verified)
    · exact .ends _
  | verifyFind dto identifier =>
    refine afterQuery_turns taken fun ws r got => ?_
    cases r with
    | none => exact .ends _
    | some found => exact .goes (.verifyFinds (plan_findUser got).1 (plan_findUser got).2)
  | verifyClock dto user =>
    cases taken
    exact .goes .verifyTimes
  | verifyRead dto user now =>
    refine afterQuery_turns taken fun ws r got => ?_
    cases r with
    | none => exact .ends _
    | some found =>
      obtain ⟨there, valid, newest⟩ := plan_findValidOtp got
      exact .goes (.verifyReads there valid newest)
  | verifyCompare dto user otpId otp =>
    cases taken
    unfold verifyCompareStep
    split
    · exact .ends _
    · rename_i plainCode plain
      split
      · rename_i same
        subst same
        exact .goes (.verifyMatches plain)
      · rename_i differs
        exact .goes (.verifyDiffers plain differs)
  | verifyCount dto otpId => exact afterQuery_turns taken fun _ _ _ => .goes .counts
  | get use token =>
    cases taken
    exact getStep_turns
  | del use token jti session => cases taken
  | revoked token =>
    cases taken
    exact .goes .revokes
  | issue grant =>
    cases taken
    exact .goes .issues
  | set grant pair jti hash => cases taken
  | reply grant pair =>
    cases taken
    exact .goes .replies
  | disabling user => exact afterQuery_turns taken fun _ _ _ => .goes .disables

/-- What Redis does when it executes the write that an auth call has sent: the tokens
afterwards, and where the call goes on. A `DEL` is the same whether its key is there or
not. -/
inductive Commands (cfg : Cfg) (s : State) : AuthCall → (Text → Option Session) → AuthCall → Prop where
  | rotates {token jti : Text} {session : Session} :
      Commands cfg s (.del .rotate token jti session) (Function.update s.tokens jti none)
        (.issue ⟨.refresh token, session.userId, .refresh token session.basis⟩)
  | revokes {token jti : Text} {session : Session} :
      Commands cfg s (.del .revoke token jti session) (Function.update s.tokens jti none)
        (.revoked token)
  | sets {grant : Grant} {pair : TokenPair} {jti hash : Text} :
      Commands cfg s (.set grant pair jti hash)
        (Function.update s.tokens jti
          (some ⟨grant.userId, hash, s.clock + cfg.refreshTtlSeconds * 1000000, grant.basis⟩))
        (.reply grant pair)

/-- Everything that Redis can do for an auth call that waits for it. -/
theorem AuthCall.commands {call next : AuthCall} {tokens : Text → Option Session}
    (sent : call.command cfg s = some (tokens, next)) : Commands cfg s call tokens next := by
  unfold AuthCall.command at sent
  split at sent <;> cases sent
  · exact .rotates
  · exact .revokes
  · exact .sets

/-! ### The lookups of `register` and `resendOtp` -/

section Lookups

variable {n : Nat} {identifier : NormalizedIdentifier} {choice : Choice} {move : Move Client}

/-- The lookup of a registration is answered, or nobody has the identifier and the call goes
on. -/
theorem registerFindStep_turns {dto : RegisterDto}
    (taken : registerFindStep s n dto identifier choice = some move) :
    ∃ answer server, s.query n (.findUser identifier) choice = some (answer, server) ∧
      ((∃ response, move = ⟨server, .idle, s.serial, [.answered n (.register dto) response]⟩) ∨
        (answer = .ok none ∧ move = ⟨server, .registerPrepare dto identifier, s.serial, []⟩)) := by
  obtain ⟨⟨answer, server⟩, ran, eq⟩ := Option.map_eq_some_iff.mp taken
  refine ⟨answer, server, ran, ?_⟩
  rcases answer with e | _ | user
  · exact Or.inl ⟨_, eq.symm⟩
  · exact Or.inr ⟨rfl, eq.symm⟩
  · exact Or.inl ⟨_, eq.symm⟩

/-- The lookup of a resend is answered, or a user who is pending has been found and the call
goes on. -/
theorem resendFindStep_turns {input : CodeUnits}
    (taken : resendFindStep s n input identifier choice = some move) :
    ∃ answer server, s.query n (.findUser identifier) choice = some (answer, server) ∧
      ((∃ response, move = ⟨server, .idle, s.serial, [.answered n (.resend input) response]⟩) ∨
        ∃ id user, answer = .ok (some (id, user)) ∧ user.status = .pendingVerification ∧
          move = ⟨server, .resendPrepare input id identifier, s.serial, []⟩) := by
  obtain ⟨⟨answer, server⟩, ran, eq⟩ := Option.map_eq_some_iff.mp taken
  refine ⟨answer, server, ran, ?_⟩
  rcases answer with e | _ | ⟨id, user⟩
  · exact Or.inl ⟨_, eq.symm⟩
  · exact Or.inl ⟨_, eq.symm⟩
  · dsimp only at eq
    split at eq
    · rename_i pending
      exact Or.inr ⟨id, user, rfl, pending, eq.symm⟩
    · exact Or.inl ⟨_, eq.symm⟩

end Lookups

end FlashSale
