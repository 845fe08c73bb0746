/-
# A purchase request while Redis fails

`POST /v1/flashsale/purchase` from the guard of the limits to the error filter, without
concurrent requests: the limiter's `EVAL`, the interceptor's `GET` before the handler and
its `SET` after it, of which nobody waits. Each of the three may fail.

What failing open means is a definition of its own, `failingOpen`: the limits let the
request through, the lookup finds nothing, and nothing is stored. `FailsOpen` compares the
code with it, and asks that no failure surfaces as an error or as a rejection that nobody
handles.

* `fails_open_iff`: the answer and the database are as if the failed calls had allowed
  the request, found nothing and stored nothing, and no failure surfaces, exactly when
  none of the calls that the request makes fails.
* `fails_closed`: the purchase is answered with a 500 when the lookup fails.
-/
import FlashSale.RateLimitGuard
import FlashSale.SoloPurchase

namespace FlashSale

open Lib (Surroundings)

/-! ### The way of a request -/

/-- What comes of a request: the reply, the database, the failed call that was thrown up
to the filter, and the one whose rejection nobody handles. -/
structure Served where
  reply : Reply
  db : Db
  surfaced : Option RedisCall
  unhandled : Option RedisCall

/-- A request that ends with what is thrown. -/
def Thrown.served (thrown : Thrown) (db : Db) : Served where
  reply := thrown.reply
  db := db
  surfaced := match thrown with
    | .redis call => some call
    | _ => none
  unhandled := none

/-- What a request meets: whether limits are disabled, its address, the buckets, the
entry under its key, the clocks, and what the database does. -/
structure Arrival where
  rateLimitDisabled : Bool
  ip : Option CodeUnits
  buckets : Buckets
  call : AllowCall
  entry : Option Response
  now : Int
  around : Surroundings Env Failure
  db : Db

section Request

variable (cfg : Cfg) (request : PurchaseRequest) (a : Arrival) (fails : RedisCall → Bool)

/-- The guard reads no `identifier` for this endpoint. -/
def PurchaseRequest.caller (ip : Option CodeUnits) : Caller := ⟨ip, some request.userId, none⟩

/-- `FlashSaleService.purchase`. -/
def servicePurchase (saleItemId : Uuid) (key : Text) : Except Failure PurchaseResult × Db :=
  (PurchaseArgs.mk request.userId saleItemId (parseUuid key) (cfg.dateOf a.now)).transaction
    a.around a.db

/-- The reply to what the service did. -/
def serviceReply : Except Failure PurchaseResult → Response
  | .ok result => ⟨200, .purchase result.body⟩
  | .error e => e.response

/-- The pipe that validates the body, and the controller. -/
def handler (key : Text) : Except Failure PurchaseResult × Db :=
  match request.saleItemId with
  | none => (.error (.http ⟨"validation_failed", "Validation failed", 400, none⟩), a.db)
  | some saleItemId => servicePurchase cfg request a saleItemId key

/-- `IdempotencyInterceptor.intercept`: the write of its `tap` is not awaited, so that its
failure does not change the response. The lookup is awaited without a catch. -/
def intercept : Served :=
  match request.key? with
  | none => (Thrown.failure keyRequired).served a.db
  | some key =>
    if fails .get then (Thrown.redis .get).served a.db
    else
      match a.entry with
      | some cached => ⟨.response cached, a.db, none, none⟩
      | none =>
        match handler cfg request a key with
        | (.error e, db) => (Thrown.failure e).served db
        | (.ok result, db) =>
          ⟨.response ⟨200, .purchase result.body⟩, db, none,
            if fails .set then some .set else none⟩

def servePurchase : Served :=
  match (canActivate cfg (request.caller a.ip) a.call a.rateLimitDisabled (fails .eval) [purchaseLimit]
    a.buckets).1 with
  | .error thrown => thrown.served a.db
  | .ok _ => intercept cfg request a fails

/-! ### What the purchase path is for -/

/-- What the limiter says when it is asked. -/
def limited : AllowResult :=
  (purchaseLimit.limit.allow (a.buckets (purchaseLimit.redisKey cfg (request.caller a.ip))) a.call).1

/-- The limiter denies the request. -/
def Denied : Prop := a.rateLimitDisabled = false ∧ (limited cfg request a).allowed = false

instance : Decidable (Denied cfg request a) := inferInstanceAs (Decidable (_ ∧ _))

/-- The reply and the database of a valid request with no limit, and no entry, for the
calls that fail. -/
def failingOpen (saleItemId : Uuid) (key : Text) : Reply × Db :=
  if fails .eval = false ∧ Denied cfg request a then
    (.error 429 "rate_limited" "Too many requests" (limited cfg request a).retryAfterSeconds, a.db)
  else
    match (if fails .get then none else a.entry) with
    | some cached => (.response cached, a.db)
    | none =>
      let done := servicePurchase cfg request a saleItemId key
      (.response (serviceReply done.1), done.2)

/-- A request fails open: it is served so, and no failure surfaces, neither in its response nor
as a rejection that nobody handles. -/
def FailsOpen (saleItemId : Uuid) (key : Text) : Prop :=
  ((servePurchase cfg request a fails).reply, (servePurchase cfg request a fails).db) =
      failingOpen cfg request a fails saleItemId key ∧
    (servePurchase cfg request a fails).surfaced = none ∧
    (servePurchase cfg request a fails).unhandled = none

/-- None of the calls that the request makes fails: the limiter's unless limits are
disabled, the lookup unless the limiter denies the request, and the write unless there
is an entry or the service refuses the purchase. -/
structure NoCallFails (saleItemId : Uuid) (key : Text) : Prop where
  eval : a.rateLimitDisabled = false → fails .eval = false
  get : ¬ Denied cfg request a → fails .get = false
  set : ¬ Denied cfg request a → a.entry = none →
    (∃ result, (servicePurchase cfg request a saleItemId key).1 = .ok result) → fails .set = false

end Request

section Exact

variable {cfg : Cfg} {request : PurchaseRequest} {a : Arrival} {fails : RedisCall → Bool}
  {saleItemId : Uuid} {key : Text}

/-! The guard, by what it meets. -/

theorem canActivate_failed (enabled : a.rateLimitDisabled = false) (failed : fails .eval = true) :
    (canActivate cfg (request.caller a.ip) a.call a.rateLimitDisabled (fails .eval) [purchaseLimit]
      a.buckets).1 = .error (.redis .eval) := by
  simp [canActivate, tryLimits, enabled, failed]

theorem canActivate_refused (denied : Denied cfg request a) (worked : fails .eval = false) :
    (canActivate cfg (request.caller a.ip) a.call a.rateLimitDisabled (fails .eval) [purchaseLimit]
      a.buckets).1 = .error (.rateLimited (limited cfg request a).retryAfterSeconds) := by
  obtain ⟨enabled, refused⟩ := denied
  unfold limited at refused ⊢
  simp [canActivate, tryLimits, enabled, worked, refused]

theorem canActivate_passed (passes : ¬ Denied cfg request a)
    (worked : a.rateLimitDisabled = false → fails .eval = false) :
    (canActivate cfg (request.caller a.ip) a.call a.rateLimitDisabled (fails .eval) [purchaseLimit]
      a.buckets).1 = .ok () := by
  cases enabled : a.rateLimitDisabled with
  | true => simp [canActivate]
  | false =>
    have allowed : (limited cfg request a).allowed = true :=
      Bool.not_eq_false _ ▸ fun no => passes ⟨enabled, no⟩
    unfold limited at allowed
    simp [canActivate, tryLimits, worked enabled, allowed]

/-- Past the guard, a request is served as it should be exactly when its other calls do
not fail. -/
theorem intercept_failsOpen (has : request.key? = some key)
    (item : request.saleItemId = some saleItemId)
    (passed : (canActivate cfg (request.caller a.ip) a.call a.rateLimitDisabled (fails .eval)
      [purchaseLimit] a.buckets).1 = .ok ())
    (open_ : ¬(fails .eval = false ∧ Denied cfg request a)) :
    FailsOpen cfg request a fails saleItemId key ↔ fails .get = false ∧ (a.entry = none →
      (∃ result, (servicePurchase cfg request a saleItemId key).1 = .ok result) → fails .set = false) := by
  have served : servePurchase cfg request a fails = intercept cfg request a fails := by
    rw [servePurchase, passed]
  have should : failingOpen cfg request a fails saleItemId key =
      match (if fails .get then none else a.entry) with
      | some cached => (.response cached, a.db)
      | none => (.response (serviceReply (servicePurchase cfg request a saleItemId key).1),
          (servicePurchase cfg request a saleItemId key).2) := by
    rw [failingOpen, if_neg open_]
  unfold FailsOpen
  rw [served, should, intercept, has]
  dsimp only
  cases fails .get with
  | true => simp [Thrown.served]
  | false =>
    cases a.entry with
    | some cached => simp
    | none =>
      have handled : handler cfg request a key = servicePurchase cfg request a saleItemId key := by
        rw [handler, item]
      simp only [Bool.false_eq_true, if_false, handled, true_and, forall_const]
      rcases servicePurchase cfg request a saleItemId key with ⟨e | result, db⟩
      · simp [Thrown.served, Thrown.reply, serviceReply]
      · cases fails .set <;> simp [serviceReply]

/-- A valid request fails open exactly when none of the calls that it makes fails: a
failure of the limiter or of the lookup surfaces as an internal error, and one of the
write reaches no handler. -/
theorem fails_open_iff (has : request.key? = some key)
    (item : request.saleItemId = some saleItemId) :
    FailsOpen cfg request a fails saleItemId key ↔ NoCallFails cfg request a fails saleItemId key := by
  by_cases worked : a.rateLimitDisabled = false → fails .eval = false
  · by_cases denied : Denied cfg request a
    · -- The limiter denies the request, which makes no other call.
      have passed := canActivate_refused denied (worked denied.1)
      constructor
      · intro _
        exact ⟨worked, fun passes => absurd denied passes, fun passes => absurd denied passes⟩
      · intro _
        unfold FailsOpen
        rw [servePurchase, passed, failingOpen, if_pos ⟨worked denied.1, denied⟩]
        exact ⟨rfl, rfl, rfl⟩
    · have passed := canActivate_passed denied worked
      rw [intercept_failsOpen has item passed fun both => denied both.2]
      constructor
      · rintro ⟨get, set⟩
        exact ⟨worked, fun _ => get, fun _ => set⟩
      · rintro ⟨-, get, set⟩
        exact ⟨get denied, set denied⟩
  · obtain ⟨enabled, failed⟩ := Classical.not_imp.mp worked
    rw [Bool.not_eq_false] at failed
    have thrown : servePurchase cfg request a fails = (Thrown.redis .eval).served a.db := by
      rw [servePurchase, canActivate_failed enabled failed]
    constructor
    · rintro ⟨-, surfaced, -⟩
      rw [thrown] at surfaced
      cases surfaced
    · rintro ⟨eval, -, -⟩
      exact absurd eval worked

end Exact

/-! ### A shop without Redis -/

/-- User 1 asks for item 4, with full tokens and an empty cache. -/
def plainRequest : PurchaseRequest := ⟨1, some (uuidText '1'), some 4⟩

def plainArrival : Arrival :=
  { rateLimitDisabled := false
    ip := none
    buckets := fun _ => none
    call := ⟨dayStart, dayStart⟩
    entry := none
    now := dayStart
    around := plainSurroundings 10
    db := shopWith 500 100 }

/-- One of the calls fails. -/
def oneFails (call : RedisCall) : RedisCall → Bool := fun call' => decide (call' = call)

/-- A failed lookup or limit is answered with a 500 where the purchase would go through,
and nobody handles the rejection of a write that fails. -/
theorem fails_closed :
    (failingOpen plainCfg plainRequest plainArrival (oneFails .get) 4 (uuidText '1')).1 =
      .response ⟨200, .purchase ⟨15, 4, "100", 4⟩⟩ ∧
    (servePurchase plainCfg plainRequest plainArrival (oneFails .get)).reply = .response internalError ∧
    (servePurchase plainCfg plainRequest plainArrival (oneFails .eval)).reply = .response internalError ∧
    (servePurchase plainCfg plainRequest plainArrival (oneFails .set)).unhandled = some .set ∧
    ∀ call, ¬ FailsOpen plainCfg plainRequest plainArrival (oneFails call) 4 (uuidText '1') := by
  refine ⟨by decide +kernel, by decide +kernel, by decide +kernel, by decide +kernel, ?_⟩
  rintro call ⟨-, surfaced, unhandled⟩
  revert surfaced unhandled
  cases call <;> decide +kernel

/-- A request with an entry makes no write, so that it may fail. -/
theorem fails_open_replayed :
    FailsOpen plainCfg plainRequest
      { plainArrival with entry := some ⟨200, .purchase ⟨15, 4, "100", 4⟩⟩ } (oneFails .set) 4 (uuidText '1') := by
  refine (fails_open_iff (by decide +kernel) rfl).mpr ⟨?_, ?_, ?_⟩
  · intro _
    rfl
  · intro _
    rfl
  · intro _ absent
    cases absent

end FlashSale
