/-
# Which requests end in an internal error

Every endpoint of the auth and flash-sale controllers, from the guards to the error filter,
one request at a time, while Postgres and Redis work. The bodies and queries have passed
their validation.

The filter turns an error that it knows into its status, and everything else into a 500. So
an internal error is a throw from a library or from the database that no code expects, and
`Acceptable` lists what keeps them all away. Requests that the guards stop need none of it.

* `responds_iff`: the response has a status 2xx or 4xx exactly when the identifier has a
  normal form that Postgres takes, the instant asked for is one that Prisma takes, and no
  balance grows beyond its column.
* `unknown_identifier`: an identifier without a normal form is answered with a 500.
-/
import FlashSale.Enumeration
import FlashSale.RedisFailures
import FlashSale.OtpCrypto

namespace FlashSale

open Lib (Table Tx Surroundings)

/-! ### Requests -/

/-- The requests of both controllers. `userId` is the user of a valid access token. The
strings of a body are any code units; an instant and a key have been matched with a
pattern of characters, as has the code of `verifyOtp`. -/
inductive ClientRequest where
  | register (dto : RegisterDto)
  | credential (request : CredentialRequest)
  | refresh (refreshToken : CodeUnits)
  | logout (userId : Option Uuid) (refreshToken : CodeUnits)
  | listActive (at_ : Option Text)
  | purchase (userId : Option Uuid) (idempotencyKey : Option Text) (saleItemId : Uuid)
deriving DecidableEq

/-- The constructor `Date` on a text, in milliseconds, none for an invalid date; and the dates
that Prisma passes on to Postgres. -/
structure Dates where
  parse : Text → Option Int
  takes : Int → Bool

/-- A request with what it meets. -/
structure Hit where
  request : ClientRequest
  ip : Option CodeUnits
  call : AllowCall
  occasion : Occasion

/-- The state of the shop, with the cached responses that have not expired. -/
structure Place extends Site where
  cache : Text → Option Response

/-! ### `FlashSaleService.listActive` -/

structure ActiveSaleItemDto where
  id : Uuid
  productId : Uuid
  priceCents : String
  quantity : Int
  sold : Int
  remaining : Int
  windowId : Uuid
  windowName : CodeUnits
  startsAt : Int
  endsAt : Int
deriving DecidableEq

def activeItem (id : Uuid) (item : ItemRow) (sale : SaleRow) : ActiveSaleItemDto where
  id := id
  productId := item.productId
  priceCents := toString item.priceCents
  quantity := item.quantity
  sold := item.sold
  remaining := item.quantity - item.sold
  windowId := item.flashSaleId
  windowName := sale.name
  startsAt := sale.startsAt
  endsAt := sale.endsAt

/-- The items of the sales that are open, in the order that the query returns them. -/
def activeItems (time : Int) (order : List Nat) (db : Db) : List ActiveSaleItemDto :=
  (arrange order db.flashSaleItems.rows).filterMap fun (id, item) =>
    (db.flashSales.get? item.flashSaleId).bind fun sale =>
      if sale.startsAt ≤ time ∧ time ≤ sale.endsAt then some (activeItem id item sale) else none

def invalidDate : Failure := .error "Provided Date object is invalid. Expected Date."

section Respond

variable (cfg : Cfg) (fitsIndex : CodeUnits → Bool) (dates : Dates) (rateLimitDisabled : Bool)
  (place : Place) (hit : Hit)

/-- A token as Redis and the digest read it, in UTF-8. Its dots are where they were. -/
def tokenText (refreshToken : CodeUnits) : Text := Lib.Utf16.decode refreshToken

/-- The instant that the query asks for; an empty one counts as missing. -/
def instant : Option Text → Option Int
  | some (c :: text) => dates.parse (c :: text)
  | _ => some hit.occasion.now

/-- `listActive` takes the instant from the request if there is one that is not empty, and
throws unless both JavaScript and the database take it. -/
def listActive (at_ : Option Text) : Except Failure (List ActiveSaleItemDto) :=
  match instant dates hit at_ with
  | none => .error invalidDate
  | some time =>
    if dates.takes time then .ok (activeItems time (hit.occasion.env 0).order place.shop.db)
    else .error invalidDate

/-! ### The endpoints -/

inductive Answer where
  | reply (reply : Reply)
  | items (items : List ActiveSaleItemDto)
deriving DecidableEq

def Answer.status : Answer → Nat
  | .reply sent => sent.status
  | .items _ => 200

/-- What `JwtAuthGuard` throws, by way of the filter. -/
def unauthorized : Failure := .http ⟨"unauthorized", "Unauthorized", 401, none⟩

/-- The guard of the limits before a registration. -/
def Hit.guarded (dto : RegisterDto) : Except Thrown Unit :=
  (canActivate cfg ⟨hit.ip, none, some dto.identifier⟩ hit.call rateLimitDisabled false registerLimits
    place.buckets).1

def Hit.visit (request : CredentialRequest) : Visit := ⟨request, hit.ip, hit.call, hit.occasion⟩

/-- What a purchase meets. -/
def Hit.arrival (idempotencyKey : Option Text) : Arrival where
  rateLimitDisabled := rateLimitDisabled
  ip := hit.ip
  buckets := place.buckets
  call := hit.call
  entry := idempotencyKey.bind place.cache
  now := hit.occasion.now
  around := hit.occasion.around
  db := place.shop.db

/-- What the API answers to a request that its DTO lets through: the limiter where the
endpoint has one, the authentication, and the service. -/
def respond : Answer :=
  match hit.request with
  | .register dto =>
    match hit.guarded cfg rateLimitDisabled place dto with
    | .error thrown => .reply thrown.reply
    | .ok _ => .reply (replyTo (sent 201 .registered
        (AuthService.register cfg fitsIndex hit.occasion place.shop dto)).1)
  | .credential request => .reply (serve cfg rateLimitDisabled place.toSite (hit.visit request)).1
  | .refresh refreshToken => .reply (replyTo (sent 200 (Body.tokens ∘ IssuedPair.pair)
      (AuthService.refresh cfg hit.occasion place.shop (tokenText refreshToken))).1)
  | .logout none _ => .reply (Thrown.failure unauthorized).reply
  | .logout (some _) refreshToken => .reply (replyTo (sent 204 (fun _ => .empty)
      (AuthService.logout cfg hit.occasion place.shop (tokenText refreshToken))).1)
  | .listActive at_ =>
    match listActive dates place hit at_ with
    | .error e => .reply (Thrown.failure e).reply
    | .ok items => .items items
  | .purchase none _ _ => .reply (Thrown.failure unauthorized).reply
  | .purchase (some userId) idempotencyKey saleItemId =>
    .reply (servePurchase cfg ⟨userId, idempotencyKey, some saleItemId⟩
      (hit.arrival rateLimitDisabled place idempotencyKey) fun _ => false).reply

/-! ### What each endpoint needs -/

/-- A status that is no fault of the service. -/
def Expected (status : Nat) : Prop := (200 ≤ status ∧ status < 300) ∨ (400 ≤ status ∧ status < 500)

instance (status : Nat) : Decidable (Expected status) := inferInstanceAs (Decidable (_ ∨ _))

/-- The identifier has a normal form, and Postgres takes it: it has no NUL and no half of a
surrogate pair. -/
def Takes (input : CodeUnits) : Prop :=
  ∃ identifier, normalizeIdentifier cfg input = .ok identifier ∧ takesText identifier.normalized = true

/-- A purchase that passes every check and would lift the balance out of its column, which
takes an item with a negative price. -/
def Overflows (args : PurchaseArgs) (now : Int) (db : Db) : Prop :=
  ∃ item sale user, PassesChecks args now item sale user db ∧
    int8 (user.balanceCents - item.priceCents) = false

/-- What a request needs for an expected response, once the guards have let it through. It is
read off the request and the state before it. -/
def Acceptable : Prop :=
  match hit.request with
  | .register dto => hit.guarded cfg rateLimitDisabled place dto = .ok () →
      ∃ identifier, normalizeIdentifier cfg dto.identifier = .ok identifier ∧
        takesText identifier.normalized = true ∧
        (place.shop.db.named identifier = none → fitsIndex identifier.normalized = true)
  | .credential request =>
      ((hit.visit request).guarded cfg rateLimitDisabled place.toSite).1 = .ok () →
        Takes cfg request.identifier
  | .listActive at_ => ∃ time, instant dates hit at_ = some time ∧ dates.takes time = true
  | .purchase (some userId) idempotencyKey saleItemId =>
      ∀ key, idempotencyKey.filter matchesUuid = some key → place.cache key = none →
        (canActivate cfg ⟨hit.ip, some userId, none⟩ hit.call rateLimitDisabled false [purchaseLimit]
          place.buckets).1 = .ok () →
        ¬ Overflows ⟨userId, saleItemId, parseUuid key, cfg.dateOf hit.occasion.now⟩ hit.occasion.now
          place.shop.db
  | _ => True

/-- What holds while Postgres and Redis work: the constraints of the schema, identifiers that
are new, ciphertexts and cached responses that the service itself has written, and a clock
of this era. -/
structure Working : Prop where
  conforms : place.shop.db.Conforms
  fresh : hit.occasion.Fresh place.shop.db
  encrypted : ∀ id otp, place.shop.db.otpCodes.get? id = some otp →
    ∃ code random, otp.encryptedCode = cfg.encrypt code random
  decrypts : ∀ code random, cfg.decrypt (cfg.encrypt code random) = .ok code
  cached : ∀ key response, place.cache key = some response → Expected response.status
  present : dates.takes hit.occasion.now = true

end Respond

/-! ### The methods -/

section Methods

variable {cfg : Cfg} {fitsIndex : CodeUnits → Bool} {o : Occasion} {shop : Shop} {α : Type}

theorem sent_ok {status : Nat} {body : α → Body} {done : Except Failure α × Shop} {result : α}
    (ok : done.1 = .ok result) : (replyTo (sent status body done).1).status = status := by
  rw [sent, ok]
  rfl

theorem sent_error {status : Nat} {body : α → Body} {done : Except Failure α × Shop} {e : Failure}
    (error : done.1 = .error e) : (replyTo (sent status body done).1).status = e.response.status := by
  rw [sent, error]
  rfl

theorem not_expected : ¬ Expected 500 := by decide

/-- A registration is answered as expected exactly when Postgres takes its identifier, and
takes it in the index when it is new. -/
theorem register_expected {dto : RegisterDto} (fresh : o.Fresh shop.db) :
    Expected (replyTo (sent 201 .registered (AuthService.register cfg fitsIndex o shop dto)).1).status ↔
      ∃ identifier, normalizeIdentifier cfg dto.identifier = .ok identifier ∧
        takesText identifier.normalized = true ∧
        (shop.db.named identifier = none → fitsIndex identifier.normalized = true) := by
  by_cases takes : Takes cfg dto.identifier
  · obtain ⟨identifier, normal, takes⟩ := takes
    have only : ∀ other, normalizeIdentifier cfg dto.identifier = .ok other → other = identifier :=
      fun other is => Except.ok.inj (is.symm.trans normal)
    cases named : shop.db.named identifier with
    | some owner =>
      have taken : (AuthService.register cfg fitsIndex o shop dto).1 = .error identifierTaken := by
        rw [AuthService.register, lookup_ok normal takes, named]
      rw [sent_error taken]
      refine ⟨fun _ => ⟨identifier, normal, takes, fun new => ?_⟩, fun _ => by decide⟩
      cases named.symm.trans new
    | none =>
      by_cases fits : fitsIndex identifier.normalized = true
      · have done : (AuthService.register cfg fitsIndex o shop dto).1 = .ok (o.env 0).draw := by
          rw [AuthService.register, lookup_ok normal takes, named]
          dsimp only
          rw [if_pos fits]
          rw [registerTx_ok named fresh]
        rw [sent_ok done]
        exact ⟨fun _ => ⟨identifier, normal, takes, fun _ => fits⟩, fun _ => by decide⟩
      · have refused : (AuthService.register cfg fitsIndex o shop dto).1 = .error refusedEntry := by
          rw [AuthService.register, lookup_ok normal takes, named]
          dsimp only
          rw [if_neg fits]
        rw [sent_error refused]
        refine ⟨fun expected => absurd expected (by decide), ?_⟩
        rintro ⟨other, is, -, fits'⟩
        cases only other is
        exact absurd (fits' named) fits
  · obtain ⟨message, failed⟩ := @lookup_error o shop cfg dto.identifier takes
    have threw : (AuthService.register cfg fitsIndex o shop dto).1 = .error (.error message) := by
      rw [AuthService.register, failed]
    rw [sent_error threw]
    constructor
    · intro expected
      exact absurd expected not_expected
    · rintro ⟨identifier, normal, taken, -⟩
      exact absurd ⟨identifier, normal, taken⟩ takes

/-- A login of an identifier that Postgres takes is answered as expected. -/
theorem login_accepted {dto : LoginDto} {identifier : NormalizedIdentifier}
    (normal : normalizeIdentifier cfg dto.identifier = .ok identifier)
    (takes : takesText identifier.normalized = true) :
    Expected (replyTo (sent 200 (Body.tokens ∘ IssuedPair.pair) (AuthService.login cfg o shop dto)).1).status := by
  rw [AuthService.login, lookup_ok normal takes]
  dsimp only
  split
  · split
    · rw [sent_error (e := accountNotVerified) rfl]
      decide
    · rw [AuthService.issue, sent_ok rfl]
      decide
  · rw [sent_error (e := invalidCredentials) rfl]
    decide

/-- So is a verification, when each code can be decrypted. -/
theorem verifyOtp_accepted {dto : VerifyOtpDto} {identifier : NormalizedIdentifier}
    (normal : normalizeIdentifier cfg dto.identifier = .ok identifier)
    (takes : takesText identifier.normalized = true)
    (decrypts : ∀ id otp, shop.db.otpCodes.get? id = some otp →
      ∃ plainCode, cfg.decrypt otp.encryptedCode = .ok plainCode) :
    Expected (replyTo (sent 200 (Body.tokens ∘ IssuedPair.pair)
      (AuthService.verifyOtp cfg o shop dto)).1).status := by
  rw [AuthService.verifyOtp, lookup_ok normal takes]
  cases named : shop.db.named identifier with
  | none =>
    rw [sent_error (e := otpInvalid) rfl]
    decide
  | some owner =>
    obtain ⟨user, row⟩ := owner
    dsimp only
    rw [findValid_eq]
    cases found : (validOtps user o.now (o.env 0) shop.db).head? with
    | none =>
      rw [sent_error (e := otpExpired) rfl]
      decide
    | some newest =>
      obtain ⟨otpId, otp⟩ := newest
      obtain ⟨there, valid⟩ := validOtp_some found
      obtain ⟨plainCode, decrypted⟩ := decrypts otpId otp there
      dsimp only
      rw [decrypted]
      dsimp only
      split
      · have ran : ∃ issued, (AuthService.verified cfg o shop otpId user).1 = .ok issued := by
          rw [AuthService.verified, verifyTx_ok there (named_some named).1]
          exact ⟨_, rfl⟩
        obtain ⟨issued, ok⟩ := ran
        rw [sent_ok ok]
        decide
      · rw [AuthService.miscounted, increment_ok there valid, sent_error (e := otpInvalid) rfl]
        decide

theorem resendOtp_accepted {input : CodeUnits} {identifier : NormalizedIdentifier}
    (normal : normalizeIdentifier cfg input = .ok identifier)
    (takes : takesText identifier.normalized = true) (fresh : o.Fresh shop.db) :
    Expected (replyTo (sent 204 (fun _ => .empty) (AuthService.resendOtp cfg o shop input)).1).status := by
  have done : (AuthService.resendOtp cfg o shop input).1 = .ok () := by
    rw [AuthService.resendOtp, lookup_ok normal takes]
    cases named : shop.db.named identifier with
    | none => rfl
    | some owner =>
      obtain ⟨id, user⟩ := owner
      have there : shop.db.users.get? id ≠ none := by simp [(named_some named).1]
      dsimp only
      rw [resendTx_ok identifier (prepare cfg o.now o.draw) there fresh]
      split <;> rfl
  rw [sent_ok done]
  decide

/-- A request about an identifier is answered as expected exactly when Postgres takes it. -/
theorem credential_expected {request : CredentialRequest} (fresh : o.Fresh shop.db)
    (decrypts : ∀ id otp, shop.db.otpCodes.get? id = some otp →
      ∃ plainCode, cfg.decrypt otp.encryptedCode = .ok plainCode) :
    Expected (replyTo (request.handle cfg o shop).1).status ↔ Takes cfg request.identifier := by
  constructor
  · intro expected
    by_contra refused
    obtain ⟨message, failed⟩ := @lookup_error o shop cfg request.identifier refused
    -- Each method throws what the lookup throws.
    have internal : (replyTo (request.handle cfg o shop).1).status = 500 := by
      cases request with
      | login dto =>
        have failed : AuthService.lookup cfg o shop dto.identifier = _ := failed
        rw [CredentialRequest.handle, AuthService.login, failed]
        rfl
      | verifyOtp dto =>
        have failed : AuthService.lookup cfg o shop dto.identifier = _ := failed
        rw [CredentialRequest.handle, AuthService.verifyOtp, failed]
        rfl
      | resendOtp input =>
        have failed : AuthService.lookup cfg o shop input = _ := failed
        rw [CredentialRequest.handle, AuthService.resendOtp, failed]
        rfl
    rw [internal] at expected
    exact not_expected expected
  · rintro ⟨identifier, normal, takes⟩
    cases request with
    | login dto => exact login_accepted normal takes
    | verifyOtp dto => exact verifyOtp_accepted normal takes decrypts
    | resendOtp input => exact resendOtp_accepted normal takes fresh

end Methods

/-! ### The purchase -/

section Purchase

variable {cfg : Cfg} {o : Occasion} {db : Db} {args : PurchaseArgs}

theorem inserting_error {ρ : Type} {w : Write} {result : ρ} {violated : Option DbError}
    {duplicate orphan : Bool} {e : DbError}
    (h : (inserting w result violated duplicate orphan).answer = .error e) :
    violated = some e ∨ (e = .unique ∧ duplicate = true) ∨ (e = .foreignKey ∧ orphan = true) := by
  cases violated with
  | some e' =>
    cases h
    exact Or.inl rfl
  | none =>
    cases duplicate with
    | true =>
      cases h
      exact Or.inr (Or.inl ⟨rfl, rfl⟩)
    | false =>
      cases orphan with
      | true =>
        cases h
        exact Or.inr (Or.inr ⟨rfl, rfl⟩)
      | false => cases h

/-! A locking read does not fail by itself. -/

theorem itemForUpdate_ok {id : Uuid} {env : Env} {e : DbError} :
    (plan (.selectItemForUpdate id) env db).answer ≠ .error e := by
  dsimp only [plan]
  split
  · nofun
  · split <;> nofun

theorem balanceForUpdate_ok {userId : Uuid} {env : Env} {e : DbError} :
    (plan (.selectBalanceForUpdate userId) env db).answer ≠ .error e := by
  dsimp only [plan]
  split <;> nofun

/-- The writes of a purchase that passes its checks throw nothing but the daily cap, unless
the balance overflows. -/
theorem record_threw {item : ItemRow} {sale : SaleRow} {user : UserRow} {e : Failure}
    (conforms : db.Conforms) (fresh : o.Fresh db)
    (passes : PassesChecks args o.now item sale user db)
    (threw : ((args.call o.around).record (itemWindow args.saleItemId item sale)).solo plan o.around
      db 3 [] = .error e) :
    Expected e.response.status ∨ int8 (user.balanceCents - item.priceCents) = false := by
  have there := passes.at_.row
  have inRange := conforms.inRange there
  rw [PurchaseCall.record_eq] at threw
  have counted := @answer_count (args.call o.around) db item there inRange passes.available
  rcases Tx.solo_threw rfl threw with ⟨e', failed, rfl⟩ | ⟨ws, _, got, threw⟩
  · cases failed.symm.trans counted
  obtain ⟨rfl, -⟩ := plan_updateSold got there
  have debited := @answer_debit (args.call o.around) (Lib.applyAll db [(args.call o.around).count]) item
    user passes.owner passes.funds
  rcases Tx.solo_threw rfl threw with ⟨e', failed, rfl⟩ | ⟨ws, _, got, threw⟩
  · cases fits : int8 (user.balanceCents - item.priceCents) with
    | false => exact Or.inr rfl
    | true =>
      rw [fits] at debited
      cases failed.symm.trans debited
  obtain ⟨rfl, -⟩ := plan_updateBalance got passes.owner
  apply Or.inl
  rcases Tx.solo_threw rfl threw with ⟨e', failed, rfl⟩ | ⟨ws, id, got, threw⟩
  · -- Any duplicate is the daily cap, and the rows that the purchase references are there.
    rcases inserting_error failed with outside | ⟨rfl, -⟩ | ⟨-, orphan⟩
    · have price : int8 item.priceCents = true := inRange.price
      simp [itemWindow, price, violations] at outside
    · show Expected 409
      decide
    · rcases Bool.or_eq_true _ _ ▸ orphan with user_ | item_
      · have gone := Table.get?_modify_eq_none.mp (Option.isNone_iff_eq_none.mp user_)
        cases passes.owner.symm.trans gone
      · have gone := Table.get?_modify_eq_none.mp (Option.isNone_iff_eq_none.mp item_)
        cases there.symm.trans gone
  · obtain ⟨rfl, -⟩ := plan_createPurchase got
    rcases Tx.solo_threw rfl threw with ⟨e', failed, rfl⟩ | ⟨ws, _, -, threw⟩
    · -- The number of the event is new.
      rcases inserting_error failed with outside | ⟨-, duplicate⟩ | ⟨-, orphan⟩
      · cases outside
      · have numbered : (db.outbox.get? (o.env 6).serial).isSome = true := duplicate
        rw [fresh.events 6] at numbered
        cases numbered
      · cases orphan
    · cases (Tx.solo_pure rfl).symm.trans threw

/-- A purchase throws nothing else than its refusals, unless the balance overflows. -/
theorem purchase_threw {e : Failure} (conforms : db.Conforms) (fresh : o.Fresh db)
    (threw : (args.transaction o.around db).1 = .error e) :
    Expected e.response.status ∨ Overflows args o.now db := by
  have threw : (args.call o.around).body.solo plan o.around db 0 [] = .error e :=
    Tx.transaction_threw threw
  rw [PurchaseCall.body_eq] at threw
  rcases Tx.solo_threw rfl threw with ⟨e', failed, rfl⟩ | ⟨ws, dup, checked, threw⟩
  · cases failed
  cases dup with
  | true =>
    cases threw
    exact Or.inl (by decide : Expected 409)
  | false =>
    obtain ⟨rfl, unbought⟩ := Prod.mk.inj (Except.ok.inj checked)
    rcases Tx.solo_threw rfl threw with ⟨e', failed, rfl⟩ | ⟨ws, window, locked, threw⟩
    · exact absurd failed itemForUpdate_ok
    cases window with
    | none =>
      cases threw
      exact Or.inl (by decide : Expected 404)
    | some window =>
      obtain ⟨rfl, -, item, sale, there, joined, rfl⟩ := plan_selectItemForUpdate locked
      change (if o.now < sale.startsAt ∨ o.now > sale.endsAt then .throw outOfWindow
        else if item.sold ≥ item.quantity then .throw soldOut
        else (args.call o.around).afterWindow (itemWindow args.saleItemId item sale) :
          Program PurchaseResult).solo plan o.around db 2 [] = _ at threw
      split at threw
      · cases threw
        exact Or.inl (by decide : Expected 409)
      rename_i opened
      split at threw
      · cases threw
        exact Or.inl (by decide : Expected 409)
      rename_i available
      rcases Tx.solo_threw rfl threw with ⟨e', failed, rfl⟩ | ⟨ws, balance, charged, threw⟩
      · exact absurd failed balanceForUpdate_ok
      cases balance with
      | none =>
        cases threw
        exact Or.inl (by decide : Expected 402)
      | some balance =>
        obtain ⟨rfl, -, user, owner, rfl⟩ := plan_selectBalanceForUpdate charged
        change (if user.balanceCents < item.priceCents then .throw insufficientBalance
          else (args.call o.around).record (itemWindow args.saleItemId item sale) :
            Program PurchaseResult).solo plan o.around db 3 [] = _ at threw
        split at threw
        · cases threw
          exact Or.inl (by decide : Expected 402)
        rename_i funds
        have passes : PassesChecks args o.now item sale user db :=
          { unbought := fun bought => Bool.false_ne_true (unbought.symm.trans (purchased_iff.mpr bought))
            at_ := ⟨there, joined⟩
            window := ⟨not_lt.mp fun early => opened (Or.inl early),
              not_lt.mp fun late => opened (Or.inr late)⟩
            available := not_le.mp available
            owner := owner
            funds := not_lt.mp funds }
        exact (record_threw conforms fresh passes threw).imp_right fun large =>
          ⟨item, sale, user, passes, large⟩

/-- And then it throws the error of the database. -/
theorem purchase_overflows (conforms : db.Conforms) (overflows : Overflows args o.now db) :
    (args.transaction o.around db).1 = .error (.database .outOfRange) := by
  obtain ⟨item, sale, user, passes, large⟩ := overflows
  have counted := @answer_count (args.call o.around) db item passes.at_.row
    (conforms.inRange passes.at_.row) passes.available
  have debited : (plan (.updateBalance args.userId item.priceCents) (args.call o.around).env
      (Lib.applyAll db [(args.call o.around).count])).answer = .error .outOfRange :=
    (@answer_debit (args.call o.around) (Lib.applyAll db [(args.call o.around).count]) item user
      passes.owner passes.funds).trans (if_neg (Bool.eq_false_iff.mp large))
  have ended : (args.call o.around).body.solo plan o.around db 0 [] =
      .error (.database .outOfRange) := by
    have checked : (args.call o.around).body.solo plan o.around db 0 [] =
        ((args.call o.around).record (itemWindow args.saleItemId item sale)).solo plan o.around db 3 [] :=
      PassesChecks.checked passes fun _ _ => rfl
    rw [checked, PurchaseCall.record_eq]
    exact (Tx.solo_statement rfl counted).trans (Tx.solo_failed rfl debited)
  show (Lib.settle db ((args.call o.around).body.solo plan o.around db 0 [])).1 = _
  rw [ended]
  rfl

theorem purchase_expected (conforms : db.Conforms) (fresh : o.Fresh db) :
    Expected (serviceReply (args.transaction o.around db).1).status ↔ ¬ Overflows args o.now db := by
  cases done : (args.transaction o.around db).1 with
  | ok result =>
    refine ⟨fun _ overflows => ?_, fun _ => (by decide : Expected 200)⟩
    cases (purchase_overflows conforms overflows).symm.trans done
  | error e =>
    constructor
    · intro expected overflows
      cases (purchase_overflows conforms overflows).symm.trans done
      exact not_expected expected
    · intro fits
      exact (purchase_threw conforms fresh done).resolve_right fits

end Purchase

/-! ### The endpoints -/

section Endpoints

variable {cfg : Cfg} {fitsIndex : CodeUnits → Bool} {dates : Dates} {rateLimitDisabled : Bool} {place : Place}
  {hit : Hit}

/-- The guard denies with a 429. -/
theorem denied_expected {caller : Caller} {call : AllowCall} {configs : List RateLimitConfig}
    {buckets : Buckets} {thrown : Thrown}
    (threw : (canActivate cfg caller call rateLimitDisabled false configs buckets).1 = .error thrown) :
    Expected thrown.reply.status := by
  obtain ⟨retryAfterSeconds, rfl⟩ := canActivate_denied threw
  show Expected 429
  decide

theorem listActive_expected {at_ : Option Text} :
    Expected (match listActive dates place hit at_ with
      | .error e => Answer.reply (Thrown.failure e).reply
      | .ok items => .items items).status ↔
        ∃ time, instant dates hit at_ = some time ∧ dates.takes time = true := by
  unfold listActive
  cases parsed : instant dates hit at_ with
  | none =>
    refine ⟨fun expected => absurd expected not_expected, ?_⟩
    rintro ⟨time, is, -⟩
    cases is
  | some time =>
    dsimp only
    cases taken : dates.takes time with
    | true =>
      refine ⟨fun _ => ⟨time, rfl, taken⟩, fun _ => ?_⟩
      show Expected 200
      decide
    | false =>
      refine ⟨fun expected => absurd expected not_expected, ?_⟩
      rintro ⟨time', is, taken'⟩
      cases is
      cases taken.symm.trans taken'

/-! What the interceptor answers while Redis works. -/

theorem intercept_keyless {request : PurchaseRequest} {a : Arrival} (no : request.key? = none) :
    (intercept cfg request a fun _ => false).reply.status = 400 := by
  rw [intercept, no]
  rfl

theorem intercept_replayed {request : PurchaseRequest} {a : Arrival} {key : Text} {response : Response}
    (has : request.key? = some key) (cached : a.entry = some response) :
    (intercept cfg request a fun _ => false).reply.status = response.status := by
  rw [intercept, has, cached]
  rfl

theorem intercept_missed {request : PurchaseRequest} {a : Arrival} {key : Text}
    (has : request.key? = some key) (empty : a.entry = none) :
    (intercept cfg request a fun _ => false).reply.status =
      (serviceReply (handler cfg request a key).1).status := by
  rw [intercept, has, empty]
  dsimp only
  rw [if_neg Bool.false_ne_true]
  rcases handler cfg request a key with ⟨e | result, db⟩
  · rfl
  · rfl

theorem servePurchase_expected {userId : Uuid} {idempotencyKey : Option Text} {saleItemId : Uuid}
    (working : Working cfg dates place hit) :
    Expected (servePurchase cfg ⟨userId, idempotencyKey, some saleItemId⟩
      (hit.arrival rateLimitDisabled place idempotencyKey) fun _ => false).reply.status ↔
      ∀ key, idempotencyKey.filter matchesUuid = some key → place.cache key = none →
        (canActivate cfg ⟨hit.ip, some userId, none⟩ hit.call rateLimitDisabled false [purchaseLimit]
          place.buckets).1 = .ok () →
        ¬ Overflows ⟨userId, saleItemId, parseUuid key, cfg.dateOf hit.occasion.now⟩ hit.occasion.now
          place.shop.db := by
  let request : PurchaseRequest := ⟨userId, idempotencyKey, some saleItemId⟩
  let a := hit.arrival rateLimitDisabled place idempotencyKey
  change Expected (match (canActivate cfg ⟨hit.ip, some userId, none⟩ hit.call rateLimitDisabled false
      [purchaseLimit] place.buckets).1 with
    | .error thrown => thrown.served place.shop.db
    | .ok _ => intercept cfg request a fun _ => false).reply.status ↔ _
  cases ran : (canActivate cfg ⟨hit.ip, some userId, none⟩ hit.call rateLimitDisabled false
    [purchaseLimit] place.buckets).1 with
  | error thrown =>
    refine ⟨fun _ _ _ _ passed => ?_, fun _ => denied_expected ran⟩
    cases passed
  | ok _ =>
    dsimp only
    cases keyed : idempotencyKey.filter matchesUuid with
    | none =>
      rw [intercept_keyless (a := a) (show request.key? = none from keyed)]
      refine ⟨fun _ _ has => ?_, fun _ => (by decide : Expected 400)⟩
      cases has
    | some key =>
      have has : request.key? = some key := keyed
      have entry : a.entry = place.cache key := by
        obtain ⟨rfl, -⟩ := Option.filter_eq_some_iff.mp keyed
        rfl
      cases cached : place.cache key with
      | some response =>
        rw [intercept_replayed has (entry.trans cached)]
        refine ⟨fun _ key' has empty => ?_, fun _ => working.cached key response cached⟩
        cases has
        cases cached.symm.trans empty
      | none =>
        rw [intercept_missed has (entry.trans cached)]
        have exact_ := @purchase_expected hit.occasion place.shop.db
          ⟨userId, saleItemId, parseUuid key, cfg.dateOf hit.occasion.now⟩ working.conforms working.fresh
        refine exact_.trans ⟨fun fits key' has _ _ => ?_, fun fits => fits key rfl cached rfl⟩
        cases has
        exact fits

theorem serve_expected {request : CredentialRequest} (working : Working cfg dates place hit) :
    Expected (serve cfg rateLimitDisabled place.toSite (hit.visit request)).1.status ↔
      (((hit.visit request).guarded cfg rateLimitDisabled place.toSite).1 = .ok () →
        Takes cfg request.identifier) := by
  have decrypts : ∀ id otp, place.shop.db.otpCodes.get? id = some otp →
      ∃ plainCode, cfg.decrypt otp.encryptedCode = .ok plainCode := by
    intro id otp found
    obtain ⟨code, random, is⟩ := working.encrypted id otp found
    rw [is]
    exact ⟨code, working.decrypts code random⟩
  rcases ran : (hit.visit request).guarded cfg rateLimitDisabled place.toSite with ⟨thrown | _, buckets⟩
  · rw [serve_denied ran]
    refine ⟨fun _ passed => ?_, fun _ => denied_expected (congrArg Prod.fst ran)⟩
    cases passed
  · rw [serve_passed ran]
    apply (credential_expected working.fresh decrypts).trans
    exact ⟨fun takes _ => takes, fun takes => takes rfl⟩

/-- While Postgres and Redis work, a request has a response with a status 2xx or 4xx exactly
when it is acceptable. -/
theorem responds_iff (working : Working cfg dates place hit) :
    Expected (respond cfg fitsIndex dates rateLimitDisabled place hit).status ↔
      Acceptable cfg fitsIndex dates rateLimitDisabled place hit := by
  unfold respond Acceptable
  cases hit.request with
  | register dto =>
    dsimp only
    cases ran : hit.guarded cfg rateLimitDisabled place dto with
    | error thrown =>
      refine ⟨fun _ passed => ?_, fun _ => denied_expected ran⟩
      cases passed
    | ok _ =>
      apply (register_expected working.fresh).trans
      exact ⟨fun takes _ => takes, fun takes => takes rfl⟩
  | credential request => exact serve_expected working
  | refresh refreshToken =>
    refine ⟨fun _ => trivial, fun _ => ?_⟩
    dsimp only
    cases rotated : AuthService.refresh cfg hit.occasion place.shop (tokenText refreshToken) with
    | mk result shop =>
      cases result with
      | ok issued => exact (by decide : Expected 200)
      | error e =>
        have invalid : e = invalidToken := by
          unfold AuthService.refresh at rotated
          split at rotated
          · cases rotated
            rfl
          · cases rotated
        subst invalid
        exact (by decide : Expected 401)
  | logout userId refreshToken =>
    cases userId with
    | none => exact ⟨fun _ => trivial, fun _ => (by decide : Expected 401)⟩
    | some user => exact ⟨fun _ => trivial, fun _ => (by decide : Expected 204)⟩
  | listActive at_ => exact listActive_expected
  | purchase userId idempotencyKey saleItemId =>
    cases userId with
    | none => exact ⟨fun _ => trivial, fun _ => (by decide : Expected 401)⟩
    | some user => exact servePurchase_expected working

end Endpoints

/-! ### A shop without codes -/

/-- The codes are encrypted by the service of the test, with one vector. -/
def openCfg : Cfg :=
  testService.configured testNode (fun _ => testIv) (fun _ => "error") plainCfg

theorem openCfg_decrypts (code : String) (random : Nat) :
    openCfg.decrypt (openCfg.encrypt code random) = .ok code := by
  have key : testService.key.length = 32 := OtpCryptoService.length_key documented_testNode testKey
  unfold openCfg
  exact OtpCryptoService.configured_decrypts documented_testNode key _ _ _ code random

/-- No text is a date, as none is of which the engine knows no form. -/
def noDates : Dates := ⟨fun _ => none, fun _ => true⟩

def quietPlace : Place where
  shop := ⟨shopWith 500 100, .empty (dayStart * 1000)⟩
  buckets _ := none
  cache _ := none

def hitting (request : ClientRequest) : Hit where
  request := request
  ip := none
  call := ⟨dayStart, dayStart⟩
  occasion := (guessAfter 0).occasion

theorem quiet_working (request : ClientRequest) : Working openCfg noDates quietPlace (hitting request) where
  conforms := shopWith_conforms (by decide) (by decide) (by decide)
  fresh :=
    { users := by
        intro i
        refine Table.get?_insert_ne ?_
        show 1 ≠ 9 + i
        omega
      codes := fun _ => rfl
      purchases := fun _ => rfl
      events := fun _ => rfl }
  encrypted := by
    intro id otp found
    cases found
  decrypts := openCfg_decrypts
  cached := by
    intro key response found
    cases found
  present := rfl

/-- An identifier that is neither an address nor a number is answered with a 500 at each
endpoint, as are an instant without a date, an identifier with a NUL, and one in which a
surrogate stands alone. -/
theorem unknown_identifier :
    let foo : CodeUnits := Lib.Utf16.encode ['f', 'o', 'o']
    let status := fun request =>
      (respond openCfg (fun _ => true) noDates false quietPlace (hitting request)).status
    (∀ request, Working openCfg noDates quietPlace (hitting request)) ∧
    status (.register ⟨foo, passw0rd⟩) = 500 ∧
    status (.credential (.login ⟨foo, passw0rd⟩)) = 500 ∧
    status (.credential (.verifyOtp ⟨foo, "123456"⟩)) = 500 ∧
    status (.credential (.resendOtp foo)) = 500 ∧
    status (.credential (.resendOtp (0 :: mail))) = 500 ∧
    status (.credential (.login ⟨0xD800 :: mail, passw0rd⟩)) = 500 ∧
    status (.listActive (some "2026-W18".toList)) = 500 := by
  refine ⟨quiet_working, ?_, ?_, ?_, ?_, ?_, ?_, ?_⟩
  all_goals decide +kernel

/-- A login of an address that nobody has is answered with a 401. -/
theorem responds_to_stranger :
    Expected (respond openCfg (fun _ => true) noDates false quietPlace
      (hitting (.credential (.login ⟨mail, passw0rd⟩)))).status := by
  apply (responds_iff (quiet_working _)).mpr
  intro _
  exact ⟨mailAddress, by decide +kernel, by decide⟩

end FlashSale
