/-
# What the credential endpoints tell about an identifier

`login`, `verify-otp` and `resend-otp` from the guard to the error filter, in two runs of the
same requests about one identifier: it is registered in the second, and not in the first.
No password or code that is submitted is the stored one.

The two runs go in step. Between requests their buckets are the same and one of them has
the user, whatever the requests have changed there (`Parallel`); so each request is compared
by itself, and the comparison of whole runs is the induction over it. The limits count per
identifier and answer both alike.

* `same_answers_iff`: the answers agree exactly when each `verify-otp` of the second run finds a
  live code and can decrypt it.
* `told_apart`: an account without a live code answers that its code has expired.
-/
import FlashSale.SoloAuth

namespace FlashSale

open Lib (Table)

/-! ### Requests -/

inductive CredentialRequest where
  | login (dto : LoginDto)
  | verifyOtp (dto : VerifyOtpDto)
  | resendOtp (identifier : CodeUnits)
deriving DecidableEq

def CredentialRequest.identifier : CredentialRequest → CodeUnits
  | .login dto => dto.identifier
  | .verifyOtp dto => dto.identifier
  | .resendOtp identifier => identifier

def CredentialRequest.limits : CredentialRequest → List RateLimitConfig
  | .login _ => loginLimits
  | .verifyOtp _ => verifyOtpLimits
  | .resendOtp _ => resendOtpLimits

/-- The status and the body of a result, as the controller declares them. -/
def sent {α : Type} (status : Nat) (body : α → Body) (done : Except Failure α × Shop) :
    Except Failure Response × Shop :=
  (done.1.map fun result => ⟨status, body result⟩, done.2)

/-- The methods of the controller. -/
def CredentialRequest.handle (cfg : Cfg) (o : Occasion) (shop : Shop) :
    CredentialRequest → Except Failure Response × Shop
  | .login dto => sent 200 (Body.tokens ∘ IssuedPair.pair) (AuthService.login cfg o shop dto)
  | .verifyOtp dto => sent 200 (Body.tokens ∘ IssuedPair.pair) (AuthService.verifyOtp cfg o shop dto)
  | .resendOtp identifier => sent 204 (fun _ => .empty) (AuthService.resendOtp cfg o shop identifier)

/-- A request with what it meets. -/
structure Visit where
  request : CredentialRequest
  ip : Option CodeUnits
  call : AllowCall
  occasion : Occasion

structure Site where
  shop : Shop
  buckets : Buckets

/-- What a client can tell replies apart by: the status and the error code. -/
def Reply.told (reply : Reply) : Nat × Option String := (reply.status, reply.code)

section Serving

variable (cfg : Cfg) (rateLimitDisabled : Bool) (site : Site) (visit : Visit)

/-- The guard, for a request about an identifier. -/
def Visit.guarded : Except Thrown Unit × Buckets :=
  canActivate cfg ⟨visit.ip, none, some visit.request.identifier⟩ visit.call rateLimitDisabled false
    visit.request.limits site.buckets

/-- The answer to a visit and what it leaves: the guards first, and behind them the service
over the database and Redis. Nothing else happens meanwhile. -/
def serve : Reply × Site :=
  match visit.guarded cfg rateLimitDisabled site with
  | (.error thrown, buckets) => (thrown.reply, { site with buckets := buckets })
  | (.ok _, buckets) =>
    let (result, shop) := visit.request.handle cfg visit.occasion site.shop
    (replyTo result, ⟨shop, buckets⟩)

def Site.step : Option Site := some (serve cfg rateLimitDisabled site visit).2

end Serving

/-- Requests of which each is answered before the next. -/
abbrev Visits (cfg : Cfg) (rateLimitDisabled : Bool) (start : Site) (trace : List (Site × Visit))
    (site : Site) : Prop :=
  Lib.Run (Site.step cfg rateLimitDisabled) start trace site

/-- What is told along a run. -/
def toldAlong (cfg : Cfg) (rateLimitDisabled : Bool) (trace : List (Site × Visit)) :
    List (Nat × Option String) :=
  trace.map fun p => (serve cfg rateLimitDisabled p.1 p.2).1.told

/-! ### Two runs -/

/-- One request, at the same time and from the same address. What the database and the random
generator give in the two runs may differ. -/
structure Visit.Same (visit visit' : Visit) : Prop where
  request : visit.request = visit'.request
  ip : visit.ip = visit'.ip
  call : visit.call = visit'.call

/-- The states are equal, but for an account under the identifier, and its codes, in the
second. -/
structure DifferBy (identifier : NormalizedIdentifier) (user : Uuid) (row : UserRow)
    (site site' : Site) : Prop where
  names : identifier.names row = true
  stored : takesText identifier.normalized = true
  absent : ∀ id other, site.shop.db.users.get? id = some other → identifier.names other = false
  users : ∀ id, site'.shop.db.users.get? id =
    if id = user then some row else site.shop.db.users.get? id
  codeless : ∀ id otp, site.shop.db.otpCodes.get? id = some otp → otp.userId ≠ user
  codes : ∀ id otp, otp.userId ≠ user →
    (site'.shop.db.otpCodes.get? id = some otp ↔ site.shop.db.otpCodes.get? id = some otp)
  products : site'.shop.db.products = site.shop.db.products
  sales : site'.shop.db.flashSales = site.shop.db.flashSales
  items : site'.shop.db.flashSaleItems = site.shop.db.flashSaleItems
  purchases : site'.shop.db.purchases = site.shop.db.purchases
  outbox : site'.shop.db.outbox = site.shop.db.outbox
  tokens : site'.shop.tokens = site.shop.tokens
  buckets : site'.buckets = site.buckets

/-- The request is about the identifier. -/
def About (cfg : Cfg) (identifier : NormalizedIdentifier) (request : CredentialRequest) : Prop :=
  normalizeIdentifier cfg request.identifier = .ok identifier

/-- The password is not that of the account, and the code is none of its live ones: whoever
sends this knows the identifier and nothing else. -/
def Mismatched (cfg : Cfg) (user : Uuid) (row : UserRow) (site : Site) (visit : Visit) : Prop :=
  match visit.request with
  | .login dto => cfg.compare dto.password row.passwordHash = false
  | .verifyOtp dto => ∀ id otp, site.shop.db.otpCodes.get? id = some otp →
      otp.valid user visit.occasion.now = true → cfg.decrypt otp.encryptedCode ≠ .ok dto.code
  | .resendOtp _ => True

/-- A `verify-otp` that is let through finds a live code, and can decrypt it. -/
def FindsCode (cfg : Cfg) (rateLimitDisabled : Bool) (user : Uuid) (site : Site) (visit : Visit) : Prop :=
  match visit.request with
  | .verifyOtp _ => (visit.guarded cfg rateLimitDisabled site).1 = .ok () →
      ∃ id otp plainCode,
        (validOtps user visit.occasion.now (visit.occasion.env 0) site.shop.db).head? = some (id, otp) ∧
        cfg.decrypt otp.encryptedCode = .ok plainCode
  | _ => True

/-! ### One request -/

/-- What comes of a request about an identifier that nobody has. -/
def CredentialRequest.answerToStranger : CredentialRequest → Except Failure Response
  | .login _ => .error invalidCredentials
  | .verifyOtp _ => .error otpInvalid
  | .resendOtp _ => .ok ⟨204, .empty⟩

section One

variable {cfg : Cfg} {rateLimitDisabled : Bool} {identifier : NormalizedIdentifier} {user : Uuid}
  {row : UserRow} {o : Occasion} {shop : Shop} {request : CredentialRequest}

theorem handle_stranger (about : About cfg identifier request)
    (takes : takesText identifier.normalized = true) (absent : shop.db.named identifier = none) :
    request.handle cfg o shop = (request.answerToStranger, shop) := by
  cases request with
  | login dto =>
    have about : normalizeIdentifier cfg dto.identifier = .ok identifier := about
    have done : AuthService.login cfg o shop dto = (.error invalidCredentials, shop) := by
      rw [AuthService.login, lookup_ok about takes, absent]
    rw [CredentialRequest.handle, done]
    rfl
  | verifyOtp dto =>
    have about : normalizeIdentifier cfg dto.identifier = .ok identifier := about
    have done : AuthService.verifyOtp cfg o shop dto = (.error otpInvalid, shop) := by
      rw [AuthService.verifyOtp, lookup_ok about takes, absent]
    rw [CredentialRequest.handle, done]
    rfl
  | resendOtp input =>
    have about : normalizeIdentifier cfg input = .ok identifier := about
    have done : AuthService.resendOtp cfg o shop input = (.ok (), shop) := by
      rw [AuthService.resendOtp, lookup_ok about takes, absent]
    rw [CredentialRequest.handle, done]
    rfl

/-! A verification of a registered identifier, by what `findValid` returns. -/

section Verifying

variable {dto : VerifyOtpDto} {otpId : Uuid} {otp : OtpRow}
  (about : normalizeIdentifier cfg dto.identifier = .ok identifier)
  (takes : takesText identifier.normalized = true) (named : shop.db.named identifier = some (user, row))

include about takes named

theorem verifyOtp_expired (none : (validOtps user o.now (o.env 0) shop.db).head? = none) :
    AuthService.verifyOtp cfg o shop dto = (.error otpExpired, shop) := by
  rw [AuthService.verifyOtp, lookup_ok about takes, named]
  dsimp only
  rw [findValid_eq, none]

theorem verifyOtp_undecipherable {message : String}
    (found : (validOtps user o.now (o.env 0) shop.db).head? = some (otpId, otp))
    (failed : cfg.decrypt otp.encryptedCode = .error message) :
    AuthService.verifyOtp cfg o shop dto = (.error (.error message), shop) := by
  rw [AuthService.verifyOtp, lookup_ok about takes, named]
  dsimp only
  rw [findValid_eq, found]
  dsimp only
  rw [failed]

theorem verifyOtp_wrong {plainCode : String}
    (found : (validOtps user o.now (o.env 0) shop.db).head? = some (otpId, otp))
    (decrypted : cfg.decrypt otp.encryptedCode = .ok plainCode) (wrong : plainCode ≠ dto.code) :
    AuthService.verifyOtp cfg o shop dto =
      (.error otpInvalid, { shop with db := (AccountChange.attempted otpId).apply shop.db }) := by
  obtain ⟨there, valid⟩ := validOtp_some found
  rw [AuthService.verifyOtp, lookup_ok about takes, named]
  dsimp only
  rw [findValid_eq, found]
  dsimp only
  rw [decrypted]
  dsimp only
  rw [if_neg wrong, AuthService.miscounted, increment_ok there valid]

end Verifying

/-- What comes of a request about a registered identifier: as for a stranger exactly when
a verification finds a code that it can decrypt. No account changes. -/
theorem handle_registered {site : Site} {visit : Visit} (about : About cfg identifier visit.request)
    (takes : takesText identifier.normalized = true)
    (named : site.shop.db.named identifier = some (user, row))
    (wrong : Mismatched cfg user row site visit) (fresh : visit.occasion.Fresh site.shop.db)
    (passed : (visit.guarded cfg rateLimitDisabled site).1 = .ok ()) :
    ((visit.request.handle cfg visit.occasion site.shop).2.db.users = site.shop.db.users) ∧
      ((replyTo (visit.request.handle cfg visit.occasion site.shop).1).told =
        (replyTo visit.request.answerToStranger).told ↔
          FindsCode cfg rateLimitDisabled user site visit) := by
  obtain ⟨request, ip, call, o⟩ := visit
  obtain ⟨shop, buckets⟩ := site
  cases request with
  | login dto =>
    have about : normalizeIdentifier cfg dto.identifier = .ok identifier := about
    have wrong : cfg.compare dto.password row.passwordHash = false := wrong
    have done : AuthService.login cfg o shop dto = (.error invalidCredentials, shop) := by
      rw [AuthService.login, lookup_ok about takes, named]
      dsimp only [Option.map, Option.getD]
      rw [wrong]
    simp only [CredentialRequest.handle, done]
    exact ⟨rfl, fun _ => trivial, fun _ => rfl⟩
  | resendOtp input =>
    have about : normalizeIdentifier cfg input = .ok identifier := about
    obtain ⟨there, -⟩ := named_some named
    have done : (AuthService.resendOtp cfg o shop input).1 = .ok () ∧
        (AuthService.resendOtp cfg o shop input).2.db.users = shop.db.users := by
      rw [AuthService.resendOtp, lookup_ok about takes, named]
      dsimp only
      split
      · have owner : shop.db.users.get? user ≠ none := by simp [there]
        rw [resendTx_ok identifier (prepare cfg o.now o.draw) owner fresh]
        exact ⟨rfl, rfl⟩
      · exact ⟨rfl, rfl⟩
    refine ⟨done.2, fun _ => trivial, fun _ => ?_⟩
    simp only [CredentialRequest.handle, sent, done.1]
    rfl
  | verifyOtp dto =>
    have about : normalizeIdentifier cfg dto.identifier = .ok identifier := about
    cases found : (validOtps user o.now (o.env 0) shop.db).head? with
    | none =>
      have done := verifyOtp_expired about takes named found
      simp only [CredentialRequest.handle, done]
      refine ⟨rfl, fun same => ?_, fun finds => ?_⟩
      · -- The codes differ.
        have codes : some "otp_expired" = some "otp_invalid" := congrArg Prod.snd same
        exact absurd codes (by decide)
      · obtain ⟨id, otp, plainCode, there, -⟩ := finds passed
        cases there.symm.trans found
    | some newest =>
      obtain ⟨otpId, otp⟩ := newest
      cases decrypted : cfg.decrypt otp.encryptedCode with
      | error message =>
        have done := verifyOtp_undecipherable about takes named found decrypted
        simp only [CredentialRequest.handle, done]
        refine ⟨rfl, fun same => ?_, fun finds => ?_⟩
        · have statuses : 500 = 422 := congrArg Prod.fst same
          exact absurd statuses (by decide)
        · obtain ⟨id, otp', plainCode, there, ok⟩ := finds passed
          cases there.symm.trans found
          cases ok.symm.trans decrypted
      | ok plainCode =>
        obtain ⟨there, valid⟩ := validOtp_some found
        have other : plainCode ≠ dto.code := by
          rintro rfl
          exact wrong otpId otp there valid decrypted
        have done := verifyOtp_wrong about takes named found decrypted other
        simp only [CredentialRequest.handle, done]
        exact ⟨rfl, fun _ _ => ⟨otpId, otp, plainCode, found, decrypted⟩, fun _ => rfl⟩

end One

/-! ### Request by request -/

/-- What stays true of the two runs between requests. -/
structure Parallel (identifier : NormalizedIdentifier) (user : Uuid) (row : UserRow)
    (site site' : Site) : Prop where
  buckets : site'.buckets = site.buckets
  stranger : site.shop.db.named identifier = none
  named : site'.shop.db.named identifier = some (user, row)

section Runs

variable {cfg : Cfg} {rateLimitDisabled : Bool} {identifier : NormalizedIdentifier} {user : Uuid}
  {row : UserRow} {site site' : Site} {visit visit' : Visit}

theorem DifferBy.parallel (differ : DifferBy identifier user row site site') :
    Parallel identifier user row site site' where
  buckets := differ.buckets
  stranger := by
    cases found : site.shop.db.named identifier with
    | none => rfl
    | some other =>
      obtain ⟨id, other⟩ := other
      obtain ⟨there, names⟩ := named_some found
      cases (differ.absent id other there).symm.trans names
  named := by
    have there : site'.shop.db.users.get? user = some row := by
      rw [differ.users, if_pos rfl]
    cases found : site'.shop.db.named identifier with
    | none => cases (named_none found there).symm.trans differ.names
    | some other =>
      obtain ⟨id, other⟩ := other
      obtain ⟨stored, names⟩ := named_some found
      by_cases same : id = user
      · subst same
        cases stored.symm.trans there
        rfl
      · rw [differ.users, if_neg same] at stored
        cases (differ.absent id other stored).symm.trans names

/-- The guard does the same in both runs. -/
theorem Parallel.guarded (parallel : Parallel identifier user row site site')
    (same : visit.Same visit') :
    visit'.guarded cfg rateLimitDisabled site' = visit.guarded cfg rateLimitDisabled site := by
  unfold Visit.guarded
  rw [parallel.buckets, same.request, same.ip, same.call]

theorem serve_denied {thrown : Thrown} {buckets : Buckets}
    (denied : visit.guarded cfg rateLimitDisabled site = (.error thrown, buckets)) :
    serve cfg rateLimitDisabled site visit = (thrown.reply, { site with buckets := buckets }) := by
  rw [serve, denied]

theorem serve_passed {buckets : Buckets}
    (passed : visit.guarded cfg rateLimitDisabled site = (.ok (), buckets)) :
    serve cfg rateLimitDisabled site visit =
      (replyTo (visit.request.handle cfg visit.occasion site.shop).1,
        ⟨(visit.request.handle cfg visit.occasion site.shop).2, buckets⟩) := by
  rw [serve, passed]

/-- What the requests of the second run are. -/
structure Guess (cfg : Cfg) (identifier : NormalizedIdentifier) (user : Uuid) (row : UserRow)
    (site : Site) (visit : Visit) : Prop where
  about : About cfg identifier visit.request
  wrong : Mismatched cfg user row site visit
  fresh : visit.occasion.Fresh site.shop.db

/-- One request in both runs: the states stay as they were to each other, and the answers
agree exactly when a verification finds its code. -/
theorem Parallel.request (parallel : Parallel identifier user row site site')
    (takes : takesText identifier.normalized = true) (same : visit.Same visit')
    (guess : Guess cfg identifier user row site' visit') :
    Parallel identifier user row (serve cfg rateLimitDisabled site visit).2
        (serve cfg rateLimitDisabled site' visit').2 ∧
      ((serve cfg rateLimitDisabled site visit).1.told =
        (serve cfg rateLimitDisabled site' visit').1.told ↔
          FindsCode cfg rateLimitDisabled user site' visit') := by
  have guards : visit'.guarded cfg rateLimitDisabled site' =
      visit.guarded cfg rateLimitDisabled site := parallel.guarded same
  rcases ran : visit.guarded cfg rateLimitDisabled site with ⟨thrown | passed, buckets⟩
  · rw [serve_denied ran, serve_denied (guards.trans ran)]
    refine ⟨⟨rfl, parallel.stranger, parallel.named⟩, fun _ => ?_, fun _ => rfl⟩
    unfold FindsCode
    split
    · intro passed
      rw [guards, ran] at passed
      cases passed
    · trivial
  · have about : About cfg identifier visit.request := by
      rw [same.request]
      exact guess.about
    have ran' := guards.trans ran
    obtain ⟨users, exact_⟩ := handle_registered guess.about takes parallel.named guess.wrong
      guess.fresh (congrArg Prod.fst ran')
    rw [serve_passed ran, serve_passed ran', handle_stranger about takes parallel.stranger, same.request]
    refine ⟨⟨rfl, parallel.stranger, ?_⟩, ?_⟩
    · rw [← parallel.named]
      unfold Db.named
      rw [users]
    · rw [← exact_]
      exact eq_comm

/-- The answers of the two runs agree exactly when each verification of the second finds
a live code and can decrypt it. -/
theorem same_answers_iff {start start' : Site} {trace trace' : List (Site × Visit)}
    (differ : DifferBy identifier user row start start')
    (run : Visits cfg rateLimitDisabled start trace site)
    (run' : Visits cfg rateLimitDisabled start' trace' site')
    (same : List.Forall₂ Visit.Same (trace.map Prod.snd) (trace'.map Prod.snd))
    (guesses : ∀ p ∈ trace', Guess cfg identifier user row p.1 p.2) :
    toldAlong cfg rateLimitDisabled trace = toldAlong cfg rateLimitDisabled trace' ↔
      ∀ p ∈ trace', FindsCode cfg rateLimitDisabled user p.1 p.2 := by
  have keep : ∀ site site' visit visit' after after', Parallel identifier user row site site' →
      Visit.Same visit visit' → Guess cfg identifier user row site' visit' →
      Site.step cfg rateLimitDisabled site visit = some after →
      Site.step cfg rateLimitDisabled site' visit' = some after' →
      Parallel identifier user row after after' := by
    intro site site' visit visit' after after' parallel same guess taken taken'
    cases taken
    cases taken'
    exact (parallel.request differ.stored same guess).1
  obtain ⟨steps, -⟩ := run.related differ.parallel keep run' same guesses
  apply Lib.map_eq_map_iff steps
  rintro ⟨site, visit⟩ ⟨site', visit'⟩ ⟨parallel, same, guess⟩
  exact (parallel.request differ.stored same guess).2

end Runs

/-! ### A member with a code -/

def mailAddress : NormalizedIdentifier := ⟨.email, mail⟩

def memberRow : UserRow := ⟨some mail, none, memberHash, .pendingVerification, 0⟩

/-- The database with the member and the code, and the same without both. -/
def memberSite : Site :=
  ⟨⟨memberDb .pendingVerification, .empty (dayStart * 1000)⟩, fun _ => none⟩

def strangerSite : Site :=
  { memberSite with
    shop := { memberSite.shop with
      db := { memberSite.shop.db with
        users := .empty
        otpCodes := .empty } } }

theorem member_differs : DifferBy mailAddress 1 memberRow strangerSite memberSite where
  names := by decide
  stored := by decide
  absent := by
    intro id other found
    cases found
  users := by
    intro id
    refine (Table.get?_insert (Table.empty : Table Uuid UserRow) 1 memberRow id).trans ?_
    by_cases same : id = 1
    · rw [if_pos same, if_pos same.symm]
      rfl
    · rw [if_neg same, if_neg (Ne.symm same)]
      rfl
  codeless := by
    intro id otp found
    cases found
  codes := by
    intro id otp other
    refine ⟨fun found => ?_, fun found => by cases found⟩
    obtain ⟨-, rfl⟩ := Table.only found
    exact absurd rfl other
  products := rfl
  sales := rfl
  items := rfl
  purchases := rfl
  outbox := rfl
  tokens := rfl
  buckets := rfl

/-- A request, so many seconds after the code of the member was issued. What it inserts is
numbered from `first` on. -/
def visitAfter (seconds : Int) (request : CredentialRequest) (first : Nat) : Visit where
  request := request
  ip := none
  call := ⟨dayStart + seconds * 1000, dayStart + seconds * 1000⟩
  occasion :=
    { clock := (dayStart + seconds * 1000) * 1000
      draw := 7
      env := fun i => ⟨(dayStart + seconds * 1000) * 1000, (dayStart + seconds * 1000) * 1000,
        first + i, first + i, [], fun _ => true⟩ }

/-- A wrong code for the member. -/
def guessAfter (seconds : Int) : Visit := visitAfter seconds (.verifyOtp ⟨mail, "999999"⟩) 9

/-- All that is stored is numbered below this number. -/
def below (db : Db) (first : Nat) : Bool :=
  db.users.rows.all (fun q => decide (q.1 < first)) &&
    db.otpCodes.rows.all (fun q => decide (q.1 < first)) &&
    db.purchases.rows.all (fun q => decide (q.1 < first)) &&
    db.outbox.rows.all (fun q => decide (q.1 < first))

theorem visitAfter_fresh {db : Db} {seconds : Int} {request : CredentialRequest} {first : Nat}
    (under : below db first = true) : (visitAfter seconds request first).occasion.Fresh db := by
  have fresh : ∀ {V : Type} (t : Table Nat V),
      t.rows.all (fun q => decide (q.1 < first)) = true → ∀ i, t.get? (first + i) = none := by
    intro V t small i
    refine Table.find_eq_none.mpr fun mem => ?_
    obtain ⟨q, row, is⟩ := List.mem_map.mp mem
    have less := of_decide_eq_true (List.all_eq_true.mp small q row)
    omega
  simp only [below, Bool.and_eq_true] at under
  obtain ⟨⟨⟨users, codes⟩, purchases⟩, events⟩ := under
  exact ⟨fresh _ users, fresh _ codes, fresh _ purchases, fresh _ events⟩

theorem guessAfter_guess (seconds : Int) :
    Guess plainCfg mailAddress 1 memberRow memberSite (guessAfter seconds) where
  about := by
    show normalizeIdentifier plainCfg mail = .ok mailAddress
    decide +kernel
  wrong := by
    rintro id otp found -
    obtain ⟨-, rfl⟩ := Table.only found
    decide +kernel
  fresh := visitAfter_fresh (by decide +kernel)

/-- Once the code of the member has expired, a wrong code is answered otherwise than one
for an identifier that nobody has. -/
theorem told_apart :
    DifferBy mailAddress 1 memberRow strangerSite memberSite ∧
    Guess plainCfg mailAddress 1 memberRow memberSite (guessAfter 3600) ∧
    (∃ site, Visits plainCfg false strangerSite [(strangerSite, guessAfter 3600)] site) ∧
    (∃ site, Visits plainCfg false memberSite [(memberSite, guessAfter 3600)] site) ∧
    toldAlong plainCfg false [(strangerSite, guessAfter 3600)] = [(422, some "otp_invalid")] ∧
    toldAlong plainCfg false [(memberSite, guessAfter 3600)] = [(422, some "otp_expired")] := by
  refine ⟨member_differs, guessAfter_guess 3600, ?_, ?_, by decide +kernel, by decide +kernel⟩
  · exact ⟨_, .snoc .nil rfl⟩
  · exact ⟨_, .snoc .nil rfl⟩

/-- A wrong password, a new code, and two wrong codes. -/
def guessingAll : List Visit :=
  [visitAfter 1 (.login ⟨mail, passw0rd.reverse⟩) 10, visitAfter 2 (.resendOtp mail) 20,
    visitAfter 3 (.verifyOtp ⟨mail, "999999"⟩) 30, visitAfter 4 (.verifyOtp ⟨mail, "888888"⟩) 40]

theorem guessingAll_runs (site : Site) :
    Visits plainCfg false site (Lib.traceOf (Site.step plainCfg false) site guessingAll)
      ((Lib.execute (Site.step plainCfg false) site guessingAll).get rfl) :=
  Lib.Run.of_isSome rfl

/-- What `Guess` and `FindsCode` say of the stored codes. -/
def wrongAndLive (p : Site × Visit) : Bool :=
  below p.1.shop.db (p.2.occasion.env 0).draw &&
    match p.2.request with
    | .login dto => !plainCfg.compare dto.password memberHash
    | .verifyOtp dto =>
      (p.1.shop.db.otpCodes.rows.all fun q => !q.2.valid 1 p.2.occasion.now ||
        (plainCfg.decrypt q.2.encryptedCode).toOption != some dto.code) &&
      (((validOtps 1 p.2.occasion.now (p.2.occasion.env 0) p.1.shop.db).head?.bind fun q =>
        (plainCfg.decrypt q.2.encryptedCode).toOption).isSome)
    | .resendOtp _ => true

theorem guess_of_wrong {site : Site} {seconds : Int} {request : CredentialRequest} {first : Nat}
    (about : normalizeIdentifier plainCfg request.identifier = .ok mailAddress)
    (wrong : wrongAndLive (site, visitAfter seconds request first) = true) :
    Guess plainCfg mailAddress 1 memberRow site (visitAfter seconds request first) ∧
      FindsCode plainCfg false 1 site (visitAfter seconds request first) := by
  obtain ⟨under, wrong⟩ := Bool.and_eq_true_iff.mp wrong
  cases request with
  | login dto =>
    have differs : (!plainCfg.compare dto.password memberHash) = true := wrong
    rw [Bool.not_eq_true'] at differs
    exact ⟨⟨about, differs, visitAfter_fresh under⟩, trivial⟩
  | resendOtp identifier => exact ⟨⟨about, trivial, visitAfter_fresh under⟩, trivial⟩
  | verifyOtp dto =>
    obtain ⟨none, found⟩ := Bool.and_eq_true_iff.mp wrong
    refine ⟨⟨about, fun id otp there valid same => ?_, visitAfter_fresh under⟩, fun _ => ?_⟩
    · have other := List.all_eq_true.mp none _ (Table.mem_rows_iff.mpr there)
      dsimp only at other
      rw [valid, same] at other
      simp [Except.toOption] at other
    · obtain ⟨code, is⟩ := Option.isSome_iff_exists.mp found
      obtain ⟨⟨id, otp⟩, first_, decrypted⟩ := Option.bind_eq_some_iff.mp is
      refine ⟨id, otp, code, first_, ?_⟩
      cases plain : plainCfg.decrypt otp.encryptedCode with
      | error e =>
        dsimp only at decrypted
        rw [plain] at decrypted
        cases decrypted
      | ok c =>
        dsimp only at decrypted
        rw [plain] at decrypted
        cases decrypted
        rfl

/-- While there is a live code, the answers agree. -/
theorem same_answers_guessing :
    toldAlong plainCfg false (Lib.traceOf (Site.step plainCfg false) strangerSite guessingAll) =
      toldAlong plainCfg false (Lib.traceOf (Site.step plainCfg false) memberSite guessingAll) ∧
    toldAlong plainCfg false (Lib.traceOf (Site.step plainCfg false) memberSite guessingAll) =
      [(401, some "invalid_credentials"), (204, none), (422, some "otp_invalid"),
        (422, some "otp_invalid")] := by
  have member : ∀ p ∈ Lib.traceOf (Site.step plainCfg false) memberSite guessingAll,
      Guess plainCfg mailAddress 1 memberRow p.1 p.2 ∧ FindsCode plainCfg false 1 p.1 p.2 := by
    have wrong : ∀ p ∈ Lib.traceOf (Site.step plainCfg false) memberSite guessingAll,
        wrongAndLive p = true := by decide +kernel
    rintro ⟨site, visit⟩ mem
    have labels : (Lib.traceOf (Site.step plainCfg false) memberSite guessingAll).map Prod.snd =
        guessingAll := Lib.traceOf_labels rfl
    have listed : visit ∈ guessingAll := labels ▸ List.mem_map_of_mem mem
    have wrong := wrong _ mem
    simp only [guessingAll, List.mem_cons, List.not_mem_nil, or_false] at listed
    rcases listed with rfl | rfl | rfl | rfl
    all_goals exact guess_of_wrong (by decide +kernel) wrong
  refine ⟨?_, by decide +kernel⟩
  refine (same_answers_iff member_differs (guessingAll_runs _) (guessingAll_runs _) ?_
    fun p mem => (member p mem).1).mpr fun p mem => (member p mem).2
  rw [Lib.traceOf_labels rfl, Lib.traceOf_labels rfl]
  exact List.forall₂_same.mpr fun visit _ => ⟨rfl, rfl, rfl⟩

end FlashSale
