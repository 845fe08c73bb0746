/-
# `RateLimitGuard`

The limits of the endpoints and the guard that tries them in turn, with the buckets of
all keys. A token that one limit has given is spent, also when the next one denies the
request.

A key is the scope of a limit with a value of the request: its address, the user of its
token, or the normal form of the identifier in its body. An identifier without a normal
form is its own value, so that requests which are refused later are counted too.

* `canActivate_denied`: while Redis works, the guard throws nothing but its 429.
-/
import FlashSale.RateLimiter
import FlashSale.Api

namespace FlashSale

/-! ### Limits and keys -/

inductive LimitKey where
  | ip
  | identifier
  | userId
deriving DecidableEq

structure RateLimitConfig where
  keyPrefix : String
  key : LimitKey
  limit : Limit

/-- What the guard reads of a request: the address, the user of its token, and the
`identifier` of its body when that is a text. -/
structure Caller where
  ip : Option CodeUnits
  userId : Option Uuid
  identifier : Option CodeUnits

inductive KeyValue where
  | text (value : CodeUnits)
  | user (id : Uuid)
deriving DecidableEq

/-- The value as the Redis client sends it: in UTF-8, which has a replacement character for
each surrogate that stands alone. -/
def KeyValue.written : KeyValue → KeyValue
  | .text value => .text (Lib.Utf16.encode (Lib.Utf16.decode value))
  | .user id => .user id

/-- The parts of a Redis key `rl:<prefix>:<key>:<value>`; the first two have no colon. -/
structure BucketKey where
  keyPrefix : String
  key : LimitKey
  value : KeyValue
deriving DecidableEq

abbrev Buckets := BucketKey → Option StoredTokens

section Guard

variable (cfg : Cfg) (caller : Caller) (call : AllowCall)

/-- An identifier is limited under its normal form, or as it was sent where it has none. A
caller without an address or without a user shares one bucket with all such
callers. -/
def extractKeyValue : LimitKey → KeyValue
  | .ip => .text (caller.ip.getD (Lib.Utf16.encode "unknown".toList))
  | .userId =>
    match caller.userId with
    | some id => .user id
    | none => .text (Lib.Utf16.encode "unauthenticated".toList)
  | .identifier =>
    let raw := caller.identifier.getD []
    match normalizeIdentifier cfg raw with
    | .ok identifier => .text identifier.normalized
    | .error _ => .text raw

def RateLimitConfig.redisKey (config : RateLimitConfig) : BucketKey :=
  ⟨config.keyPrefix, config.key, (extractKeyValue cfg caller config.key).written⟩

/-! ### What is thrown, and `AppErrorFilter` -/

inductive RedisCall where
  | eval
  | get
  | set
deriving DecidableEq

/-- What is thrown on the way of a request. -/
inductive Thrown where
  | rateLimited (retryAfterSeconds : ℤ)
  | failure (e : Failure)
  /-- the error of the client library, for a call that failed -/
  | redis (call : RedisCall)

inductive Reply where
  | response (response : Response)
  /-- with a body of its own: the number of seconds is its `details` -/
  | error (status : Nat) (code message : String) (retryAfterSeconds : ℤ)
deriving DecidableEq

/-- `AppErrorFilter.catch`. -/
def Thrown.reply : Thrown → Reply
  | .rateLimited retryAfterSeconds => .error 429 "rate_limited" "Too many requests" retryAfterSeconds
  | .failure e => .response e.response
  | .redis _ => .response internalError

def Reply.status : Reply → Nat
  | .response sent => sent.status
  | .error status _ _ _ => status

/-- The code of an error. -/
def Reply.code : Reply → Option String
  | .response ⟨_, .error code _ _⟩ => some code
  | .response _ => none
  | .error _ code _ _ => some code

/-! ### The guard -/

/-- The loop of `canActivate`. -/
def tryLimits (evalFails : Bool) : List RateLimitConfig → Buckets → Except Thrown Unit × Buckets
  | [], buckets => (.ok (), buckets)
  | config :: configs, buckets =>
    if evalFails then (.error (.redis .eval), buckets)
    else
      let key := config.redisKey cfg caller
      let (result, stored) := config.limit.allow (buckets key) call
      let buckets := Function.update buckets key stored
      if result.allowed then tryLimits evalFails configs buckets
      else (.error (.rateLimited result.retryAfterSeconds), buckets)

/-- The limits of an endpoint one after another, unless they are switched off; the first
that denies throws. If the EVAL fails, so does the guard. -/
def canActivate (rateLimitDisabled evalFails : Bool) (configs : List RateLimitConfig)
    (buckets : Buckets) : Except Thrown Unit × Buckets :=
  if rateLimitDisabled then (.ok (), buckets) else tryLimits cfg caller call evalFails configs buckets

variable {cfg : Cfg} {caller : Caller} {call : AllowCall} {buckets : Buckets} {thrown : Thrown}

theorem tryLimits_denied {configs : List RateLimitConfig}
    (threw : (tryLimits cfg caller call false configs buckets).1 = .error thrown) :
    ∃ retryAfterSeconds, thrown = .rateLimited retryAfterSeconds := by
  induction configs generalizing buckets with
  | nil => cases threw
  | cons config configs ih =>
    rw [tryLimits, if_neg Bool.false_ne_true] at threw
    dsimp only at threw
    split at threw
    · exact ih threw
    · cases threw
      exact ⟨_, rfl⟩

/-- While Redis works, the guard throws nothing but its 429. An identifier without a normal form
is no exception to this. -/
theorem canActivate_denied {rateLimitDisabled : Bool} {configs : List RateLimitConfig}
    (threw : (canActivate cfg caller call rateLimitDisabled false configs buckets).1 = .error thrown) :
    ∃ retryAfterSeconds, thrown = .rateLimited retryAfterSeconds := by
  cases rateLimitDisabled with
  | true => cases threw
  | false => exact tryLimits_denied threw

end Guard

/-! ### The limits of the endpoints -/

def registerLimits : List RateLimitConfig := [⟨"register", .ip, ⟨5, 5 / 600, by norm_num, by norm_num⟩⟩]

def verifyOtpLimits : List RateLimitConfig :=
  [⟨"verify-otp", .identifier, ⟨5, 5 / 300, by norm_num, by norm_num⟩⟩]

def loginLimits : List RateLimitConfig :=
  [⟨"login", .ip, ⟨10, 10 / 60, by norm_num, by norm_num⟩⟩,
    ⟨"login", .identifier, ⟨5, 5 / 60, by norm_num, by norm_num⟩⟩]

def resendOtpLimits : List RateLimitConfig :=
  [⟨"resend-otp", .identifier, ⟨3, 3 / 600, by norm_num, by norm_num⟩⟩]

def purchaseLimit : RateLimitConfig := ⟨"purchase", .userId, ⟨10, 10, by norm_num, by norm_num⟩⟩

end FlashSale
