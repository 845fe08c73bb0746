/-
# Requests at once at the rate limits

The guards of any number of requests, on any number of replicas, step by step: each one
asks the limits of its endpoint in turn, and between two of its calls of Redis the others
go on. For each limit, the process of the request reads its clock and sends an EVAL with
that time, and Redis executes it later, on a clock of its own: EVALs may overtake each
other, the clocks of the replicas need not agree, and a process may die with an EVAL on
its way.

* `Gate.alone`: a guard that nothing interrupts decides as `canActivate` does.
* `Gate.Run.passed_at_most`: in any stretch of a run in which the EVALs on one bucket come
  in order, the requests about its account, from its address or of its user that an
  endpoint lets through are at most the capacity of its limit and what is refilled in the
  window of their times.
* `Gate.Run.isolated`: requests that share no key with some clients change nothing for
  them.
-/
import FlashSale.Identifiers

namespace FlashSale

/-! ### The guards in flight -/

/-- The endpoints with limits. -/
inductive Endpoint where
  | register
  | verifyOtp
  | login
  | resendOtp
  | purchase
deriving DecidableEq

def Endpoint.limits : Endpoint → List RateLimitConfig
  | .register => registerLimits
  | .verifyOtp => verifyOtpLimits
  | .login => loginLimits
  | .resendOtp => resendOtpLimits
  | .purchase => [purchaseLimit]

/-- A request in its guard, with the limits that it has still to ask, and the `Date.now()`
of its process in the EVAL for the first of them, once it has sent it. -/
structure Guarded where
  endpoint : Endpoint
  caller : Caller
  todo : List RateLimitConfig
  sent : Option ℤ

/-- What a guard decided: the seconds to wait, none for a request that is let through. -/
structure Verdict where
  client : Nat
  endpoint : Endpoint
  caller : Caller
  retryAfterSeconds : Option ℤ

/-- The clock of Redis, its buckets, the guards in flight, and what has been decided. Each
API process has a clock of its own, and the labels carry it. -/
structure Gate where
  now : ℤ
  buckets : Buckets
  guards : Nat → Option Guarded
  verdicts : List Verdict

namespace Gate

/-- Steps of the requests and of Redis. Between `send` and `eval` any time may pass, and
EVALs may arrive in another order than they were sent. -/
inductive Label where
  | elapse (ms : ℕ)
  | arrive (n : Nat) (endpoint : Endpoint) (caller : Caller)
  /-- the process of a request reads its clock and sends an EVAL with that time -/
  | send (n : Nat) (nowMs : ℤ)
  /-- Redis executes the EVAL, and the guard goes on with its answer -/
  | eval (n : Nat)
  /-- Redis executes the EVAL of a process that has died -/
  | lose (n : Nat)
  | crash (n : Nat)

/-- Nothing is stored and no request is in flight. -/
def empty (now : ℤ) : Gate := ⟨now, fun _ => none, fun _ => none, []⟩

def setGuard (g : Gate) (n : Nat) (guarded : Option Guarded) : Gate :=
  { g with guards := Function.update g.guards n guarded }

/-- The guard returns, or throws. -/
def decide (g : Gate) (n : Nat) (endpoint : Endpoint) (caller : Caller)
    (retryAfterSeconds : Option ℤ) : Gate :=
  { g.setGuard n none with verdicts := g.verdicts ++ [⟨n, endpoint, caller, retryAfterSeconds⟩] }

def store (g : Gate) (key : BucketKey) (stored : Option StoredTokens) : Gate :=
  { g with buckets := Function.update g.buckets key stored }

/-- An EVAL with the time of its process, when Redis executes it. -/
def call (g : Gate) (nowMs : ℤ) : AllowCall := ⟨nowMs, g.now⟩

/-- A limit that is passed leaves those after it. -/
def pass (g : Gate) (n : Nat) (endpoint : Endpoint) (caller : Caller) :
    List RateLimitConfig → Gate
  | [] => g.decide n endpoint caller none
  | config :: todo => g.setGuard n (some ⟨endpoint, caller, config :: todo, none⟩)

variable (cfg : Cfg)

/-- One limit of a guard. -/
def ask (g : Gate) (n : Nat) (endpoint : Endpoint) (caller : Caller) (config : RateLimitConfig)
    (todo : List RateLimitConfig) (nowMs : ℤ) : Gate :=
  let key := config.redisKey cfg caller
  let (result, stored) := config.limit.allow (g.buckets key) (g.call nowMs)
  if result.allowed then (g.store key stored).pass n endpoint caller todo
  else (g.store key stored).decide n endpoint caller (some result.retryAfterSeconds)

def step (g : Gate) : Label → Option Gate
  | .elapse ms => some { g with now := g.now + ms }
  | .arrive n endpoint caller =>
    if (g.guards n).isSome then none
    else some (g.setGuard n (some ⟨endpoint, caller, endpoint.limits, none⟩))
  | .send n nowMs =>
    match g.guards n with
    | some ⟨endpoint, caller, config :: todo, none⟩ =>
      some (g.setGuard n (some ⟨endpoint, caller, config :: todo, some nowMs⟩))
    | _ => none
  | .eval n =>
    match g.guards n with
    | some ⟨endpoint, caller, config :: todo, some nowMs⟩ =>
      some (g.ask cfg n endpoint caller config todo nowMs)
    | _ => none
  | .lose n =>
    match g.guards n with
    | some ⟨_, caller, config :: _, some nowMs⟩ =>
      let key := config.redisKey cfg caller
      some ((g.store key (config.limit.allow (g.buckets key) (g.call nowMs)).2).setGuard n none)
    | _ => none
  | .crash n => some (g.setGuard n none)

abbrev Run (start : Gate) (trace : List (Gate × Label)) (g : Gate) : Prop :=
  Lib.Run (step cfg) start trace g

/-! ### One limit -/

section Ask

variable {cfg} {g : Gate} {n : Nat} {endpoint : Endpoint} {caller : Caller} {config : RateLimitConfig}
  {todo : List RateLimitConfig} {nowMs : ℤ}

/-- What the script answers to the limit of a guard. -/
abbrev answer (cfg : Cfg) (g : Gate) (caller : Caller) (config : RateLimitConfig)
    (nowMs : ℤ) : AllowResult × Option StoredTokens :=
  config.limit.allow (g.buckets (config.redisKey cfg caller)) (g.call nowMs)

theorem ask_allowed (allowed : (answer cfg g caller config nowMs).1.allowed = true) :
    g.ask cfg n endpoint caller config todo nowMs =
      (g.store (config.redisKey cfg caller) (answer cfg g caller config nowMs).2).pass n endpoint caller todo :=
  if_pos allowed

theorem ask_denied (denied : (answer cfg g caller config nowMs).1.allowed = false) :
    g.ask cfg n endpoint caller config todo nowMs =
      (g.store (config.redisKey cfg caller) (answer cfg g caller config nowMs).2).decide n endpoint caller
        (some (answer cfg g caller config nowMs).1.retryAfterSeconds) :=
  if_neg (Bool.eq_false_iff.mp denied)

@[simp] theorem pass_now : (g.pass n endpoint caller todo).now = g.now := by
  cases todo <;> rfl

@[simp] theorem pass_buckets : (g.pass n endpoint caller todo).buckets = g.buckets := by
  cases todo <;> rfl

@[simp] theorem ask_now : (g.ask cfg n endpoint caller config todo nowMs).now = g.now := by
  cases allowed : (answer cfg g caller config nowMs).1.allowed with
  | true => rw [ask_allowed allowed, pass_now]; rfl
  | false => rw [ask_denied allowed]; rfl

@[simp] theorem ask_buckets : (g.ask cfg n endpoint caller config todo nowMs).buckets =
    Function.update g.buckets (config.redisKey cfg caller) (answer cfg g caller config nowMs).2 := by
  cases allowed : (answer cfg g caller config nowMs).1.allowed with
  | true => rw [ask_allowed allowed, pass_buckets]; rfl
  | false => rw [ask_denied allowed]; rfl

/-- The seconds that a guard throws. -/
def waits : Except Thrown Unit → Option ℤ
  | .error (.rateLimited retryAfterSeconds) => some retryAfterSeconds
  | _ => none

theorem step_eval (at_ : g.guards n = some ⟨endpoint, caller, config :: todo, some nowMs⟩) :
    step cfg g (.eval n) = some (g.ask cfg n endpoint caller config todo nowMs) := by
  simp only [step, at_]

/-- The loop asks its first limit and goes on with what that leaves. -/
theorem tryLimits_ask : tryLimits cfg caller (g.call nowMs) false (config :: todo) g.buckets =
    if (answer cfg g caller config nowMs).1.allowed then
      tryLimits cfg caller (g.call nowMs) false todo (g.ask cfg n endpoint caller config todo nowMs).buckets
    else (.error (.rateLimited (answer cfg g caller config nowMs).1.retryAfterSeconds),
      (g.ask cfg n endpoint caller config todo nowMs).buckets) := by
  rw [ask_buckets]
  rfl

/-- It does not matter to an answer that its EVAL was on its way. -/
theorem ask_sent {guarded : Option Guarded} :
    (g.setGuard n guarded).ask cfg n endpoint caller config todo nowMs =
      g.ask cfg n endpoint caller config todo nowMs := by
  have same : answer cfg (g.setGuard n guarded) caller config nowMs =
      answer cfg g caller config nowMs := rfl
  cases allowed : (answer cfg g caller config nowMs).1.allowed with
  | false =>
    rw [ask_denied allowed, ask_denied (same ▸ allowed), same]
    simp only [setGuard, store, decide, Function.update_idem]
  | true =>
    rw [ask_allowed allowed, ask_allowed (same ▸ allowed), same]
    cases todo <;> simp only [pass, setGuard, store, decide, Function.update_idem]

/-- A guard sends its EVAL and gets the answer. -/
theorem turn (at_ : g.guards n = some ⟨endpoint, caller, config :: todo, none⟩) :
    Lib.execute (step cfg) g [.send n nowMs, .eval n] =
      some (g.ask cfg n endpoint caller config todo nowMs) := by
  have sends : step cfg g (.send n nowMs) =
      some (g.setGuard n (some ⟨endpoint, caller, config :: todo, some nowMs⟩)) := by
    simp only [step, at_]
  have sent : (g.setGuard n (some ⟨endpoint, caller, config :: todo, some nowMs⟩)).guards n =
      some ⟨endpoint, caller, config :: todo, some nowMs⟩ := Function.update_self ..
  rw [Lib.execute, sends, Option.bind_some, Lib.execute, step_eval sent, ask_sent]
  rfl

/-- The steps of a guard that nothing interrupts. -/
def turns (n : Nat) (nowMs : ℤ) (k : ℕ) : List Label :=
  (List.replicate k [.send n nowMs, .eval n]).flatten

theorem turns_succ (k : ℕ) : turns n nowMs (k + 1) = [.send n nowMs, .eval n] ++ turns n nowMs k := by
  rw [turns, List.replicate_succ, List.flatten_cons]
  rfl

/-- A guard whose calls nothing interrupts decides as the loop of `canActivate` does, and
leaves the same buckets. -/
theorem alone (at_ : g.guards n = some ⟨endpoint, caller, config :: todo, none⟩) :
    ∃ k ≤ todo.length + 1, Lib.execute (step cfg) g (turns n nowMs k) =
      some (({ g with
          buckets := (tryLimits cfg caller (g.call nowMs) false (config :: todo) g.buckets).2
        } : Gate).decide n endpoint caller
          (waits (tryLimits cfg caller (g.call nowMs) false (config :: todo) g.buckets).1)) := by
  induction todo generalizing g config with
  | nil =>
    refine ⟨1, le_rfl, ?_⟩
    rw [turns_succ, Lib.execute_append, turn at_, @tryLimits_ask cfg g n endpoint]
    cases allowed : (answer cfg g caller config nowMs).1.allowed with
    | false => rw [ask_denied allowed]; rfl
    | true => rw [ask_allowed allowed]; rfl
  | cons next todo ih =>
    rw [@tryLimits_ask cfg g n endpoint]
    cases allowed : (answer cfg g caller config nowMs).1.allowed with
    | false =>
      refine ⟨1, Nat.le_add_left _ _, ?_⟩
      rw [turns_succ, Lib.execute_append, turn at_, ask_denied allowed]
      rfl
    | true =>
      have goesOn : (g.ask cfg n endpoint caller config (next :: todo) nowMs).guards n =
          some ⟨endpoint, caller, next :: todo, none⟩ := by
        rw [ask_allowed allowed]
        exact Function.update_self ..
      obtain ⟨k, le, ran⟩ := ih goesOn
      refine ⟨k + 1, Nat.succ_le_succ le, ?_⟩
      rw [turns_succ, Lib.execute_append, turn at_, Option.bind_some, ran, if_pos rfl]
      have same : (g.ask cfg n endpoint caller config (next :: todo) nowMs).call nowMs =
          g.call nowMs := by
        rw [call, ask_now]
        rfl
      rw [same, ask_allowed allowed]
      simp only [pass, setGuard, store, decide, Function.update_idem]

end Ask

/-! ### What a step does -/

/-- The steps, case by case. -/
inductive Moved (cfg : Cfg) (g : Gate) : Label → Gate → Prop where
  | elapse (ms : ℕ) : Moved cfg g (.elapse ms) { g with now := g.now + ms }
  | arrive {n : Nat} (idle : g.guards n = none) (endpoint : Endpoint) (caller : Caller) :
      Moved cfg g (.arrive n endpoint caller) (g.setGuard n (some ⟨endpoint, caller, endpoint.limits, none⟩))
  | send {n : Nat} {endpoint : Endpoint} {caller : Caller} {config : RateLimitConfig}
      {todo : List RateLimitConfig} (at_ : g.guards n = some ⟨endpoint, caller, config :: todo, none⟩)
      (nowMs : ℤ) : Moved cfg g (.send n nowMs)
        (g.setGuard n (some ⟨endpoint, caller, config :: todo, some nowMs⟩))
  | eval {n : Nat} {endpoint : Endpoint} {caller : Caller} {config : RateLimitConfig}
      {todo : List RateLimitConfig} {nowMs : ℤ}
      (at_ : g.guards n = some ⟨endpoint, caller, config :: todo, some nowMs⟩) :
      Moved cfg g (.eval n) (g.ask cfg n endpoint caller config todo nowMs)
  | lose {n : Nat} {endpoint : Endpoint} {caller : Caller} {config : RateLimitConfig}
      {todo : List RateLimitConfig} {nowMs : ℤ}
      (at_ : g.guards n = some ⟨endpoint, caller, config :: todo, some nowMs⟩) :
      Moved cfg g (.lose n) ((g.store (config.redisKey cfg caller)
        (answer cfg g caller config nowMs).2).setGuard n none)
  | crash (n : Nat) : Moved cfg g (.crash n) (g.setGuard n none)

section Steps

variable {cfg} {g g' : Gate} {n : Nat} {endpoint : Endpoint} {caller : Caller} {config : RateLimitConfig}
  {todo : List RateLimitConfig} {nowMs : ℤ}

theorem step_cases {l : Label} (taken : step cfg g l = some g') : Moved cfg g l g' := by
  cases l with
  | elapse ms => cases taken; exact .elapse ms
  | arrive n endpoint caller =>
    rw [step] at taken
    split at taken
    · cases taken
    · rename_i idle
      cases taken
      exact .arrive (Option.not_isSome_iff_eq_none.mp idle) endpoint caller
  | send n nowMs =>
    rw [step] at taken
    split at taken
    · rename_i endpoint caller config todo at_
      cases taken
      exact .send at_ nowMs
    · cases taken
  | eval n =>
    rw [step] at taken
    split at taken
    · rename_i endpoint caller config todo nowMs at_
      cases taken
      exact .eval at_
    · cases taken
  | lose n =>
    rw [step] at taken
    split at taken
    · rename_i endpoint caller config todo nowMs at_
      cases taken
      exact .lose at_
    · cases taken
  | crash n => cases taken; exact .crash n

/-- After a limit, the guard is gone or goes on with the rest; the others stay. -/
theorem ask_guards {m : Nat} {guarded : Guarded}
    (at_ : (g.ask cfg n endpoint caller config todo nowMs).guards m = some guarded) :
    g.guards m = some guarded ∨ m = n ∧ guarded = ⟨endpoint, caller, todo, none⟩ := by
  have decided : Function.update g.guards n none m = some guarded → g.guards m = some guarded := by
    intro at_
    by_cases own : m = n
    · subst own
      rw [Function.update_self] at at_
      cases at_
    · rwa [Function.update_of_ne own] at at_
  cases allowed : (answer cfg g caller config nowMs).1.allowed with
  | false =>
    rw [ask_denied allowed] at at_
    exact Or.inl (decided at_)
  | true =>
    rw [ask_allowed allowed] at at_
    cases todo with
    | nil => exact Or.inl (decided at_)
    | cons next todo =>
      change Function.update g.guards n _ m = some guarded at at_
      by_cases own : m = n
      · subst own
        rw [Function.update_self] at at_
        exact Or.inr ⟨rfl, (Option.some.inj at_).symm⟩
      · rw [Function.update_of_ne own] at at_
        exact Or.inl at_

/-- A request is let through by its last limit. -/
theorem ask_verdicts : ∃ new, (g.ask cfg n endpoint caller config todo nowMs).verdicts = g.verdicts ++ new ∧
    new.length ≤ 1 ∧ ∀ v ∈ new, v.client = n ∧ v.endpoint = endpoint ∧ v.caller = caller ∧
      (v.retryAfterSeconds = none → (answer cfg g caller config nowMs).1.allowed = true ∧ todo = []) := by
  cases allowed : (answer cfg g caller config nowMs).1.allowed with
  | false =>
    rw [ask_denied allowed]
    refine ⟨_, rfl, le_rfl, fun v mem => ?_⟩
    obtain rfl := List.mem_singleton.mp mem
    exact ⟨rfl, rfl, rfl, fun none => nomatch none⟩
  | true =>
    rw [ask_allowed allowed]
    cases todo with
    | nil =>
      refine ⟨_, rfl, le_rfl, fun v mem => ?_⟩
      obtain rfl := List.mem_singleton.mp mem
      exact ⟨rfl, rfl, rfl, fun _ => ⟨rfl, rfl⟩⟩
    | cons next todo =>
      exact ⟨[], (List.append_nil _).symm, Nat.zero_le _, fun v mem => nomatch mem⟩

end Steps

/-! ### What is stored -/

/-- The prefix and the kind of a key tell its limit. -/
theorem config_unique {e e' : Endpoint} {config config' : RateLimitConfig} (mem : config ∈ e.limits)
    (mem' : config' ∈ e'.limits) (same : config.keyPrefix = config'.keyPrefix)
    (kind : config.key = config'.key) : config = config' := by
  cases e <;> cases e' <;>
    simp only [Endpoint.limits, registerLimits, verifyOtpLimits, loginLimits, resendOtpLimits,
      purchaseLimit, List.mem_cons, List.not_mem_nil, or_false] at mem mem' <;>
    rcases mem with rfl | rfl <;> rcases mem' with rfl | rfl <;> simp_all

/-- In every state of a run: the guards in flight have the end of their limits before them,
and the buckets hold what their limits have stored. -/
structure Sane (g : Gate) : Prop where
  todo : ∀ n endpoint caller todo sent, g.guards n = some ⟨endpoint, caller, todo, sent⟩ →
    todo <:+ endpoint.limits
  stored : ∀ endpoint, ∀ config ∈ Endpoint.limits endpoint, ∀ value,
    config.limit.Sound (g.buckets ⟨config.keyPrefix, config.key, value⟩)

theorem Sane.empty (now : ℤ) : Sane (empty now) where
  todo _ _ _ _ _ at_ := nomatch at_
  stored _ _ _ _ _ is := nomatch is

section Sane

variable {cfg : Cfg} {g g' : Gate} {n : Nat}

theorem Sane.setGuard (sane : Sane g) {guarded : Option Guarded}
    (todo : ∀ endpoint caller todo sent, guarded = some ⟨endpoint, caller, todo, sent⟩ →
      todo <:+ endpoint.limits) : Sane (g.setGuard n guarded) := by
  refine ⟨fun m endpoint caller rest sent at_ => ?_, sane.stored⟩
  change Function.update g.guards n guarded m = _ at at_
  by_cases own : m = n
  · subst own
    rw [Function.update_self] at at_
    exact todo _ _ _ _ at_
  · rw [Function.update_of_ne own] at at_
    exact sane.todo _ _ _ _ _ at_

/-- The script stores in the bucket of a limit what is sound for it. -/
theorem Sane.answered {endpoint : Endpoint} {caller : Caller} {config : RateLimitConfig} {nowMs : ℤ}
    (sane : Sane g) (mine : config ∈ endpoint.limits) {endpoint' : Endpoint} {config' : RateLimitConfig}
    (mem : config' ∈ endpoint'.limits) (value : KeyValue) :
    config'.limit.Sound (Function.update g.buckets (config.redisKey cfg caller)
      (answer cfg g caller config nowMs).2 ⟨config'.keyPrefix, config'.key, value⟩) := by
  have sound := sane.stored endpoint' config' mem value
  by_cases same : (⟨config'.keyPrefix, config'.key, value⟩ : BucketKey) = config.redisKey cfg caller
  · obtain rfl : config' = config := config_unique mem mine (congrArg BucketKey.keyPrefix same)
      (congrArg BucketKey.key same)
    rw [same] at sound ⊢
    rw [Function.update_self]
    exact sound.step
  · rw [Function.update_of_ne same]
    exact sound

theorem Sane.step {l : Label} (sane : Sane g) (taken : step cfg g l = some g') : Sane g' := by
  cases step_cases taken with
  | elapse ms => exact ⟨sane.todo, sane.stored⟩
  | arrive idle endpoint caller =>
    refine sane.setGuard ?_
    rintro _ _ _ _ ⟨⟩
    exact List.suffix_rfl
  | send at_ nowMs =>
    refine sane.setGuard ?_
    rintro _ _ _ _ ⟨⟩
    exact sane.todo _ _ _ _ _ at_
  | crash n => exact sane.setGuard fun _ _ _ _ at_ => nomatch at_
  | @eval n endpoint caller config todo nowMs at_ =>
    have mine := sane.todo _ _ _ _ _ at_
    refine ⟨fun m e c rest sent at_' => ?_, fun e config' mem value => ?_⟩
    · rcases ask_guards at_' with old | ⟨-, is⟩
      · exact sane.todo _ _ _ _ _ old
      · cases is
        exact (List.suffix_cons _ _).trans mine
    · rw [ask_buckets]
      exact sane.answered (mine.subset List.mem_cons_self) mem value
  | @lose n endpoint caller config todo nowMs at_ =>
    have mine := (sane.todo _ _ _ _ _ at_).subset List.mem_cons_self
    have stored : Sane (g.store (config.redisKey cfg caller) (answer cfg g caller config nowMs).2) :=
      ⟨sane.todo, fun e config' mem value => sane.answered mine mem value⟩
    exact stored.setGuard fun _ _ _ _ is => nomatch is

end Sane

/-! ### The bound -/

end Gate

/-- Whom a limit is about. -/
inductive LimitSubject where
  | address (ip : CodeUnits)
  | account (identifier : NormalizedIdentifier)
  | user (id : Uuid)

def LimitSubject.key : LimitSubject → LimitKey
  | .address _ => .ip
  | .account _ => .identifier
  | .user _ => .userId

/-- The request comes from the address, gives the account in one of its spellings, or has a
token of the user. -/
def Concerns (cfg : Cfg) (caller : Caller) : LimitSubject → Prop
  | .address ip => caller.ip = some ip
  | .account identifier => normalizeIdentifier cfg caller.raw = .ok identifier
  | .user id => caller.userId = some id

instance (cfg : Cfg) (caller : Caller) (subject : LimitSubject) : Decidable (Concerns cfg caller subject) :=
  match subject with
  | .address ip => inferInstanceAs (Decidable (caller.ip = some ip))
  | .account identifier => inferInstanceAs (Decidable (normalizeIdentifier cfg caller.raw = .ok identifier))
  | .user id => inferInstanceAs (Decidable (caller.userId = some id))

/-- What the key of a limit about this subject is made from. -/
def LimitSubject.value : LimitSubject → KeyValue
  | .address ip => .text ip
  | .account identifier => .text identifier.normalized
  | .user id => .user id

theorem Concerns.value {cfg : Cfg} {caller : Caller} {subject : LimitSubject}
    (concerns : Concerns cfg caller subject) :
    extractKeyValue cfg caller subject.key = subject.value := by
  cases subject with
  | address ip =>
    have is : caller.ip = some ip := concerns
    simp only [LimitSubject.key, LimitSubject.value, extractKeyValue, is, Option.getD_some]
  | account identifier => exact extractKeyValue_ok concerns
  | user id =>
    have is : caller.userId = some id := concerns
    simp only [LimitSubject.key, LimitSubject.value, extractKeyValue, is]

/-- A request about the subject that the endpoint let through. -/
def Passed (cfg : Cfg) (endpoint : Endpoint) (subject : LimitSubject) (v : Verdict) : Prop :=
  v.endpoint = endpoint ∧ v.retryAfterSeconds = none ∧ Concerns cfg v.caller subject

instance (cfg : Cfg) (endpoint : Endpoint) (subject : LimitSubject) :
    DecidablePred (Passed cfg endpoint subject) :=
  fun _ => inferInstanceAs (Decidable (_ ∧ _ ∧ _))

/-- Tokens taken in a window are at most the capacity and the refill. -/
theorem Limit.Bounded.most {limit : Limit} {stored : Option StoredTokens} {start : ℤ} {width taken : ℕ}
    (bounded : limit.Bounded start width taken stored) (sound : limit.Sound stored) :
    (taken : ℚ) ≤ limit.capacity + limit.refillPerSec * width / 1000 := by
  have capacity : (0 : ℚ) ≤ limit.capacity := zero_le_one.trans limit.one_le
  have refill : 0 ≤ limit.refillPerSec * width / 1000 :=
    div_nonneg (mul_nonneg limit.refill_pos.le (Nat.cast_nonneg width)) (by norm_num)
  rcases bounded with none | ⟨d, rfl, paid, last⟩
  · rw [none, Nat.cast_zero]
    exact add_nonneg capacity refill
  · have last : d.level.since ≤ (start : ℚ) + width := by
      show (d.ts : ℚ) ≤ start + width
      exact_mod_cast last
    rw [mul_div_right_comm]
    exact paid.bound (sound d rfl).1 last

namespace Gate

section Window

variable {cfg : Cfg} {first g g' : Gate} {endpoint : Endpoint} {subject : LimitSubject}
  {config : RateLimitConfig} {more : List RateLimitConfig} {from_ : ℤ} {width : ℕ}

/-- The bucket of the subject at the limit. -/
def bucketOf (config : RateLimitConfig) (subject : LimitSubject) : BucketKey :=
  ⟨config.keyPrefix, config.key, subject.value.written⟩

/-- The EVAL that Redis executes in a step, if it is on this bucket. -/
def evaluated (cfg : Cfg) (key : BucketKey) (g : Gate) (n : Nat) : Option AllowCall :=
  match g.guards n with
  | some ⟨_, caller, config :: _, some nowMs⟩ =>
    if config.redisKey cfg caller = key then some (g.call nowMs) else none
  | _ => none

def executed (cfg : Cfg) (key : BucketKey) (g : Gate) : Label → Option AllowCall
  | .eval n => evaluated cfg key g n
  | .lose n => evaluated cfg key g n
  | _ => none

/-- An EVAL on the bucket has the time of its process in the window, and does not come
behind one with a later time, nor so late that its key has expired before it is full. -/
def Ordered (cfg : Cfg) (config : RateLimitConfig) (subject : LimitSubject) (from_ : ℤ) (width : ℕ)
    (g : Gate) (l : Label) : Prop :=
  ∀ call ∈ executed cfg (bucketOf config subject) g l,
    (from_ ≤ call.nowMs ∧ call.nowMs ≤ from_ + width) ∧
      config.limit.InOrder (g.buckets (bucketOf config subject)) call

instance (cfg : Cfg) (config : RateLimitConfig) (subject : LimitSubject) (from_ : ℤ) (width : ℕ)
    (g : Gate) (l : Label) : Decidable (Ordered cfg config subject from_ width g l) := by
  unfold Ordered
  infer_instance

/-- Since `first`: the requests let through have each taken a token, and the bucket of their
subject has given no more than a window allows. -/
structure Since (cfg : Cfg) (endpoint : Endpoint) (subject : LimitSubject) (config : RateLimitConfig)
    (from_ : ℤ) (width : ℕ) (first g : Gate) : Prop where
  sane : Sane g
  paid : ∃ new taken, g.verdicts = first.verdicts ++ new ∧
    new.countP (fun v => Passed cfg endpoint subject v) ≤ taken ∧
    config.limit.Bounded from_ width taken (g.buckets (bucketOf config subject))

theorem Since.init (sane : Sane first) : Since cfg endpoint subject config from_ width first first :=
  ⟨sane, [], 0, (List.append_nil _).symm, le_rfl, Or.inl rfl⟩

/-- A step that leaves the bucket and the verdicts. -/
theorem Since.quiet (since : Since cfg endpoint subject config from_ width first g) (sane : Sane g')
    (same : g'.buckets = g.buckets) (silent : g'.verdicts = g.verdicts) :
    Since cfg endpoint subject config from_ width first g' := by
  obtain ⟨-, new, taken, is, counted, bounded⟩ := since
  exact ⟨sane, new, taken, silent.trans is, counted, same ▸ bounded⟩

section Evaluated

variable {n : Nat} {endpoint' : Endpoint} {caller : Caller} {config' : RateLimitConfig}
  {todo : List RateLimitConfig} {nowMs : ℤ} {used : ℕ}

/-- What an EVAL makes of the bucket of the subject: it takes a token there if it is on this
bucket and allowed, and none otherwise. -/
theorem evaluated_bounded (mine : config' ∈ endpoint'.limits) (own : config ∈ endpoint.limits)
    (at_ : g.guards n = some ⟨endpoint', caller, config' :: todo, some nowMs⟩)
    (ordered : ∀ call ∈ evaluated cfg (bucketOf config subject) g n,
      (from_ ≤ call.nowMs ∧ call.nowMs ≤ from_ + width) ∧
        config.limit.InOrder (g.buckets (bucketOf config subject)) call)
    (bounded : config.limit.Bounded from_ width used (g.buckets (bucketOf config subject))) :
    config.limit.Bounded from_ width
      (used + if config'.redisKey cfg caller = bucketOf config subject ∧
          (answer cfg g caller config' nowMs).1.allowed = true then 1 else 0)
      (Function.update g.buckets (config'.redisKey cfg caller) (answer cfg g caller config' nowMs).2
        (bucketOf config subject)) := by
  by_cases same : config'.redisKey cfg caller = bucketOf config subject
  · obtain rfl : config' = config := config_unique mine own (congrArg BucketKey.keyPrefix same)
      (congrArg BucketKey.key same)
    have called : evaluated cfg (bucketOf config' subject) g n = some (g.call nowMs) := by
      simp only [evaluated, at_, if_pos same]
    obtain ⟨⟨after, before⟩, inOrder⟩ := ordered _ called
    have next := bounded.step inOrder after before
    rw [← same] at next ⊢
    rw [Function.update_self]
    simpa using next
  · rw [Function.update_of_ne (Ne.symm same), if_neg fun is => same is.1]
    exact bounded

/-- Only the last limit of the endpoint lets a request about the subject through, with a token
of its bucket. -/
theorem passed_evaluated (last : endpoint.limits = more ++ [config]) (kind : config.key = subject.key)
    (mine : config' :: todo <:+ endpoint'.limits) {v : Verdict}
    (passed : Passed cfg endpoint subject v) (there : v.endpoint = endpoint') (who : v.caller = caller)
    (ends : v.retryAfterSeconds = none →
      (answer cfg g caller config' nowMs).1.allowed = true ∧ todo = []) :
    config'.redisKey cfg caller = bucketOf config subject ∧
      (answer cfg g caller config' nowMs).1.allowed = true := by
  obtain ⟨here, none, concerns⟩ := passed
  obtain ⟨allowed, rfl⟩ := ends none
  obtain rfl : endpoint' = endpoint := there.symm.trans here
  obtain ⟨asked, is⟩ := mine
  obtain rfl : config' = config := List.singleton_inj.mp (List.append_inj' (is.trans last) rfl).2
  refine ⟨?_, allowed⟩
  rw [RateLimitConfig.redisKey, bucketOf, kind, ← who, concerns.value]

end Evaluated

theorem Since.step {l : Label} (last : endpoint.limits = more ++ [config])
    (kind : config.key = subject.key) (since : Since cfg endpoint subject config from_ width first g)
    (ordered : Ordered cfg config subject from_ width g l) (taken : Gate.step cfg g l = some g') :
    Since cfg endpoint subject config from_ width first g' := by
  have sane := since.sane.step taken
  have own : config ∈ endpoint.limits := by
    rw [last]
    exact List.mem_append_right _ (List.mem_singleton_self _)
  cases step_cases taken with
  | elapse ms => exact since.quiet sane rfl rfl
  | arrive idle endpoint' caller => exact since.quiet sane rfl rfl
  | send at_ nowMs => exact since.quiet sane rfl rfl
  | crash n => exact since.quiet sane rfl rfl
  | @lose n endpoint' caller config' todo nowMs at_ =>
    obtain ⟨before, new, used, is, counted, bounded⟩ := since
    have mine := (before.todo _ _ _ _ _ at_).subset List.mem_cons_self
    exact ⟨sane, new, _, is, counted.trans (Nat.le_add_right _ _),
      evaluated_bounded mine own at_ ordered bounded⟩
  | @eval n endpoint' caller config' todo nowMs at_ =>
    obtain ⟨before, new, used, is, counted, bounded⟩ := since
    have mine := before.todo _ _ _ _ _ at_
    obtain ⟨decided, verdicts, few, told⟩ :=
      @ask_verdicts cfg g n endpoint' caller config' todo nowMs
    refine ⟨sane, new ++ decided, _, by rw [verdicts, is, List.append_assoc], ?_, by
      rw [ask_buckets]
      exact evaluated_bounded (mine.subset List.mem_cons_self) own at_ ordered bounded⟩
    rw [List.countP_append]
    refine Nat.add_le_add counted ?_
    by_cases any : ∃ v ∈ decided, Passed cfg endpoint subject v
    · obtain ⟨v, mem, passed⟩ := any
      obtain ⟨-, there, who, ends⟩ := told v mem
      rw [if_pos (passed_evaluated last kind mine passed there who ends)]
      exact List.countP_le_length.trans few
    · refine (List.countP_eq_zero.mpr fun v mem passed => ?_).le.trans (Nat.zero_le _)
      exact any ⟨v, mem, of_decide_eq_true passed⟩

theorem Run.sane {now : ℤ} {trace : List (Gate × Label)} (run : Run cfg (Gate.empty now) trace g) :
    Sane g :=
  Lib.Run.invariant (Sane.empty now) (fun _ _ _ sane taken => sane.step taken) run

/-- In any stretch of a run in which the EVALs on the bucket come in order, with times of a
window, an endpoint lets through at most so many requests about an account, however it is
spelled, from an address or of a user: the capacity of its limit, and what is refilled in
the window. The EVALs of other buckets, and the order of all other steps, do not matter. -/
theorem Run.passed_at_most {now : ℤ} {trace later : List (Gate × Label)}
    (before : Run cfg (Gate.empty now) trace first) (run : Run cfg first later g)
    (last : endpoint.limits = more ++ [config]) (kind : config.key = subject.key)
    (ordered : ∀ p ∈ later, Ordered cfg config subject from_ width p.1 p.2) :
    ∃ new, g.verdicts = first.verdicts ++ new ∧
      (new.countP (fun v => Passed cfg endpoint subject v) : ℚ) ≤
        config.limit.capacity + config.limit.refillPerSec * width / 1000 := by
  have since : Since cfg endpoint subject config from_ width first g :=
    Lib.Run.invariant_while (Since cfg endpoint subject config from_ width first)
      (.init before.sane)
      (fun _ _ _ since ordered taken => since.step last kind ordered taken) run ordered
  obtain ⟨sane, new, taken, is, counted, bounded⟩ := since
  have own : config ∈ endpoint.limits := by
    rw [last]
    exact List.mem_append_right _ (List.mem_singleton_self _)
  have most := bounded.most (sane.stored endpoint config own subject.value.written)
  exact ⟨new, is, (Nat.cast_le.mpr counted).trans most⟩

end Window

/-! ### Strangers -/

section Isolation

variable {cfg : Cfg} {mine : Nat → Bool} {Mine : BucketKey → Prop} {g g' h : Gate} {l : Label}
  {trace : List (Gate × Label)}

/-- The client whose guard a step moves. -/
def Label.client? : Label → Option Nat
  | .elapse _ => none
  | .arrive n _ _ => some n
  | .send n _ => some n
  | .eval n => some n
  | .lose n => some n
  | .crash n => some n

/-- The labels that these clients see: their own, and the time. -/
def Label.concerns (mine : Nat → Bool) (l : Label) : Bool := l.client?.all mine

/-- The keys that a request asks. -/
def Asks (cfg : Cfg) (endpoint : Endpoint) (caller : Caller) (key : BucketKey) : Prop :=
  ∃ config ∈ endpoint.limits, config.redisKey cfg caller = key

/-- What these clients see of two gates is the same: the clock, the buckets they ask, their own
guards, and what was decided for them. -/
structure Alike (mine : Nat → Bool) (Mine : BucketKey → Prop) (g h : Gate) : Prop where
  now : h.now = g.now
  buckets : ∀ key, Mine key → h.buckets key = g.buckets key
  guards : ∀ n, mine n = true → h.guards n = g.guards n
  verdicts : h.verdicts = g.verdicts.filter fun v => mine v.client

/-- The guards in flight ask the keys of these clients exactly if they are theirs. -/
def Apart (cfg : Cfg) (mine : Nat → Bool) (Mine : BucketKey → Prop) (g : Gate) : Prop :=
  ∀ n endpoint caller todo sent, g.guards n = some ⟨endpoint, caller, todo, sent⟩ →
    ∀ config ∈ todo, Mine (config.redisKey cfg caller) ↔ mine n = true

theorem filter_own {vs : List Verdict} {v : Verdict} (own : mine v.client = true) :
    (vs ++ [v]).filter (fun v => mine v.client) = vs.filter (fun v => mine v.client) ++ [v] := by
  simp [List.filter_append, own]

theorem filter_other {vs : List Verdict} {v : Verdict} (other : mine v.client = false) :
    (vs ++ [v]).filter (fun v => mine v.client) = vs.filter fun v => mine v.client := by
  simp [List.filter_append, other]

section Moves

variable {n : Nat} {guarded : Option Guarded} {endpoint : Endpoint} {caller : Caller}
  {config : RateLimitConfig} {todo : List RateLimitConfig} {wait : Option ℤ} {key : BucketKey}
  {stored : Option StoredTokens} {nowMs : ℤ}

/-- The same move of a client on both sides. -/
theorem Alike.setGuard (alike : Alike mine Mine g h) :
    Alike mine Mine (g.setGuard n guarded) (h.setGuard n guarded) where
  now := alike.now
  buckets := alike.buckets
  guards m own := by
    show Function.update h.guards n guarded m = Function.update g.guards n guarded m
    by_cases same : m = n
    · rw [same, Function.update_self, Function.update_self]
    · rw [Function.update_of_ne same, Function.update_of_ne same]
      exact alike.guards m own
  verdicts := alike.verdicts

theorem Alike.store (alike : Alike mine Mine g h) :
    Alike mine Mine (g.store key stored) (h.store key stored) where
  now := alike.now
  buckets key' asked := by
    show Function.update h.buckets key stored key' = Function.update g.buckets key stored key'
    by_cases same : key' = key
    · rw [same, Function.update_self, Function.update_self]
    · rw [Function.update_of_ne same, Function.update_of_ne same]
      exact alike.buckets key' asked
  guards := alike.guards
  verdicts := alike.verdicts

theorem Alike.decide (alike : Alike mine Mine g h) (own : mine n = true) :
    Alike mine Mine (g.decide n endpoint caller wait) (h.decide n endpoint caller wait) :=
  { alike.setGuard (n := n) with
    verdicts := by
      show h.verdicts ++ _ = (g.verdicts ++ _).filter _
      rw [filter_own own, alike.verdicts] }

theorem Alike.answered (alike : Alike mine Mine g h) (asked : Mine (config.redisKey cfg caller)) :
    answer cfg h caller config nowMs = answer cfg g caller config nowMs := by
  rw [answer, alike.buckets _ asked, call, alike.now]
  rfl

theorem Alike.ask (alike : Alike mine Mine g h) (own : mine n = true)
    (asked : Mine (config.redisKey cfg caller)) :
    Alike mine Mine (g.ask cfg n endpoint caller config todo nowMs)
      (h.ask cfg n endpoint caller config todo nowMs) := by
  have same : answer cfg h caller config nowMs = answer cfg g caller config nowMs :=
    alike.answered asked
  cases allowed : (answer cfg g caller config nowMs).1.allowed with
  | false =>
    rw [ask_denied allowed, ask_denied (same ▸ allowed), same]
    exact alike.store.decide own
  | true =>
    rw [ask_allowed allowed, ask_allowed (same ▸ allowed), same]
    cases todo with
    | nil => exact alike.store.decide own
    | cons next todo => exact alike.store.setGuard

/-- A move of a stranger on one side. -/
theorem Alike.stranger (alike : Alike mine Mine g h) (other : mine n = false) :
    Alike mine Mine (g.setGuard n guarded) h where
  now := alike.now
  buckets := alike.buckets
  guards m own := by
    have ne : m ≠ n := by
      rintro rfl
      exact Bool.false_ne_true (other.symm.trans own)
    exact (alike.guards m own).trans (Function.update_of_ne ne ..).symm
  verdicts := alike.verdicts

theorem Alike.strangerDecides (alike : Alike mine Mine g h) (other : mine n = false) :
    Alike mine Mine (g.decide n endpoint caller wait) h :=
  { alike.stranger other with
    verdicts := by
      show h.verdicts = (g.verdicts ++ _).filter _
      rw [filter_other other, alike.verdicts] }

theorem Alike.strangerStores (alike : Alike mine Mine g h) (other : ¬ Mine key) :
    Alike mine Mine (g.store key stored) h :=
  { alike with
    buckets := fun key' asked => by
      have ne : key' ≠ key := by
        rintro rfl
        exact other asked
      exact (alike.buckets key' asked).trans (Function.update_of_ne ne ..).symm }

theorem Alike.strangerAsks (alike : Alike mine Mine g h) (other : mine n = false)
    (unasked : ¬ Mine (config.redisKey cfg caller)) :
    Alike mine Mine (g.ask cfg n endpoint caller config todo nowMs) h := by
  cases allowed : (answer cfg g caller config nowMs).1.allowed with
  | false =>
    rw [ask_denied allowed]
    exact (alike.strangerStores unasked).strangerDecides other
  | true =>
    rw [ask_allowed allowed]
    cases todo with
    | nil => exact (alike.strangerStores unasked).strangerDecides other
    | cons next todo => exact (alike.strangerStores unasked).stranger other

end Moves

theorem Apart.setGuard (apart : Apart cfg mine Mine g) {n : Nat} {guarded : Option Guarded}
    (own : ∀ endpoint caller todo sent, guarded = some ⟨endpoint, caller, todo, sent⟩ →
      ∀ config ∈ todo, Mine (config.redisKey cfg caller) ↔ mine n = true) :
    Apart cfg mine Mine (g.setGuard n guarded) := by
  intro m endpoint caller todo sent at_
  change Function.update g.guards n guarded m = _ at at_
  by_cases same : m = n
  · subst same
    rw [Function.update_self] at at_
    exact own _ _ _ _ at_
  · rw [Function.update_of_ne same] at at_
    exact apart m endpoint caller todo sent at_

/-- A step that these clients see is one on their side too; another changes nothing for
them. -/
theorem Alike.step (alike : Alike mine Mine g h) (apart : Apart cfg mine Mine g)
    (own : ∀ n endpoint caller, l = .arrive n endpoint caller →
      ∀ key, Asks cfg endpoint caller key → (Mine key ↔ mine n = true))
    (taken : step cfg g l = some g') :
    Apart cfg mine Mine g' ∧
      if l.concerns mine then ∃ h', step cfg h l = some h' ∧ Alike mine Mine g' h'
      else Alike mine Mine g' h := by
  cases step_cases taken with
  | elapse ms =>
    refine ⟨apart, { h with now := h.now + ms }, rfl, ?_⟩
    exact { alike with now := congrArg (· + (ms : ℤ)) alike.now }
  | @arrive n idle endpoint caller =>
    constructor
    · refine apart.setGuard ?_
      rintro _ _ _ _ ⟨⟩ config mem
      exact own n endpoint caller rfl _ ⟨config, mem, rfl⟩
    · cases whose : mine n with
      | true =>
        rw [if_pos (by simpa [Label.concerns, Label.client?] using whose)]
        refine ⟨h.setGuard n (some ⟨endpoint, caller, endpoint.limits, none⟩), ?_, alike.setGuard⟩
        rw [step, alike.guards n whose, idle]
        rfl
      | false =>
        rw [if_neg (by simp [Label.concerns, Label.client?, whose])]
        exact alike.stranger whose
  | @send n endpoint caller config todo at_ nowMs =>
    constructor
    · refine apart.setGuard ?_
      rintro _ _ _ _ ⟨⟩
      exact apart n endpoint caller _ _ at_
    · cases whose : mine n with
      | true =>
        rw [if_pos (by simpa [Label.concerns, Label.client?] using whose)]
        refine ⟨h.setGuard n (some ⟨endpoint, caller, config :: todo, some nowMs⟩), ?_, alike.setGuard⟩
        simp only [step, (alike.guards n whose).trans at_]
      | false =>
        rw [if_neg (by simp [Label.concerns, Label.client?, whose])]
        exact alike.stranger whose
  | @eval n endpoint caller config todo nowMs at_ =>
    have asked := apart n endpoint caller _ _ at_
    constructor
    · intro m endpoint' caller' rest sent at_'
      rcases ask_guards at_' with old | ⟨rfl, is⟩
      · exact apart m _ _ _ _ old
      · cases is
        exact fun config' mem => asked config' (List.mem_cons_of_mem _ mem)
    · have key := asked config (List.mem_cons_self ..)
      cases whose : mine n with
      | true =>
        rw [if_pos (by simpa [Label.concerns, Label.client?] using whose)]
        exact ⟨_, step_eval ((alike.guards n whose).trans at_), alike.ask whose (key.mpr whose)⟩
      | false =>
        rw [if_neg (by simp [Label.concerns, Label.client?, whose])]
        exact alike.strangerAsks whose fun is => Bool.false_ne_true (whose.symm.trans (key.mp is))
  | @lose n endpoint caller config todo nowMs at_ =>
    have asked := apart n endpoint caller _ _ at_ config List.mem_cons_self
    have kept : Apart cfg mine Mine (g.store (config.redisKey cfg caller)
      (answer cfg g caller config nowMs).2) := apart
    refine ⟨kept.setGuard fun _ _ _ _ is => (nomatch is), ?_⟩
    cases whose : mine n with
    | true =>
      rw [if_pos (by simpa [Label.concerns, Label.client?] using whose)]
      refine ⟨(h.store (config.redisKey cfg caller) (answer cfg h caller config nowMs).2).setGuard n
        none, ?_, ?_⟩
      · simp only [step, (alike.guards n whose).trans at_]
      · rw [alike.answered (asked.mpr whose)]
        exact alike.store.setGuard
    | false =>
      rw [if_neg (by simp [Label.concerns, Label.client?, whose])]
      exact (alike.strangerStores fun is => Bool.false_ne_true (whose.symm.trans (asked.mp is))).stranger
        whose
  | crash n =>
    constructor
    · exact apart.setGuard fun _ _ _ _ is => nomatch is
    · cases whose : mine n with
      | true =>
        rw [if_pos (by simpa [Label.concerns, Label.client?] using whose)]
        exact ⟨h.setGuard n none, rfl, alike.setGuard⟩
      | false =>
        rw [if_neg (by simp [Label.concerns, Label.client?, whose])]
        exact alike.stranger whose

/-- A run has, on the side of these clients, a run of the labels that they see. -/
theorem Run.alike {now : ℤ} (run : Run cfg (Gate.empty now) trace g)
    (own : ∀ n endpoint caller, .arrive n endpoint caller ∈ trace.map Prod.snd →
      ∀ key, Asks cfg endpoint caller key → (Mine key ↔ mine n = true)) :
    ∃ trace' h, Run cfg (Gate.empty now) trace' h ∧
      trace'.map Prod.snd = (trace.map Prod.snd).filter (Label.concerns mine) ∧
      Alike mine Mine g h ∧ Apart cfg mine Mine g := by
  induction run with
  | nil =>
    exact ⟨[], _, .nil, rfl, ⟨rfl, fun _ _ => rfl, fun _ _ => rfl, rfl⟩,
      fun _ _ _ _ _ at_ => nomatch at_⟩
  | @snoc trace g g' l before taken ih =>
    rw [List.map_append] at own
    obtain ⟨trace', h, run', labels, alike, apart⟩ :=
      ih fun n endpoint caller mem => own n endpoint caller (List.mem_append_left _ mem)
    have last : ∀ n endpoint caller, l = .arrive n endpoint caller →
        ∀ key, Asks cfg endpoint caller key → (Mine key ↔ mine n = true) := by
      rintro n endpoint caller rfl
      exact own n endpoint caller (List.mem_append_right _ (List.mem_singleton_self _))
    obtain ⟨apart', next⟩ := alike.step apart last taken
    rw [List.map_append, List.filter_append, ← labels]
    split at next
    · rename_i seen
      obtain ⟨h', taken', alike'⟩ := next
      exact ⟨trace' ++ [(h, l)], h', run'.snoc taken', by simp [seen], alike', apart'⟩
    · rename_i unseen
      exact ⟨trace', h, run', by simp [unseen], next, apart'⟩

/-- Clients who share no key with the others are answered as if they were alone. Their run is
the one without the steps of the others. -/
theorem Run.isolated {now : ℤ} (run : Run cfg (Gate.empty now) trace g)
    (apart : ∀ n endpoint caller n' endpoint' caller' key,
      .arrive n endpoint caller ∈ trace.map Prod.snd →
      .arrive n' endpoint' caller' ∈ trace.map Prod.snd →
      mine n = true → mine n' = false → Asks cfg endpoint caller key →
      ¬ Asks cfg endpoint' caller' key) :
    ∃ trace' h, Run cfg (Gate.empty now) trace' h ∧
      trace'.map Prod.snd = (trace.map Prod.snd).filter (Label.concerns mine) ∧
      h.now = g.now ∧ h.verdicts = g.verdicts.filter fun v => mine v.client := by
  let Mine : BucketKey → Prop := fun key => ∃ n endpoint caller,
    .arrive n endpoint caller ∈ trace.map Prod.snd ∧ mine n = true ∧ Asks cfg endpoint caller key
  have own : ∀ n endpoint caller, .arrive n endpoint caller ∈ trace.map Prod.snd →
      ∀ key, Asks cfg endpoint caller key → (Mine key ↔ mine n = true) := by
    intro n' endpoint' caller' mem' key asks
    constructor
    · rintro ⟨n, endpoint, caller, mem, whose, asked⟩
      by_contra other
      exact apart n endpoint caller n' endpoint' caller' key mem mem' whose
        (Bool.eq_false_iff.mpr other) asked asks
    · intro whose
      exact ⟨n', endpoint', caller', mem', whose, asks⟩
  obtain ⟨trace', h, run', labels, alike, -⟩ := run.alike own
  exact ⟨trace', h, run', labels, alike.now, alike.verdicts⟩

end Isolation

/-! ### Four requests for a code -/

def annsCode (spelled : String) (n : Nat) : Label := .arrive n .resendOtp (calledBy spelled)

/-- Four requests about one account and one about another, all in flight at once. The first
EVAL that is sent is the last to be executed, when it finds no token. -/
def asking : List Label :=
  [annsCode "Ann@Shop.vn" 0, annsCode "ann@shop.vn " 1, annsCode "ANN@shop.vn" 2, annsCode "ann@shop.vn" 3,
    annsCode "0912 345 678" 4, .send 1 0, .send 2 0, .eval 2, .send 4 0, .eval 4, .elapse 1000,
    .send 0 1000, .send 3 1000, .elapse 500, .eval 0, .eval 3, .eval 1]

theorem asking_runs : (Lib.execute (step spelledCfg) (Gate.empty 0) asking).isSome = true := by
  decide +kernel

def annsAccount : LimitSubject := .account ⟨.email, aMail⟩

/-- Three of four are let through in a second. -/
theorem passed_at_most_asking :
    ∃ g, Run spelledCfg (Gate.empty 0) (Lib.traceOf (step spelledCfg) (Gate.empty 0) asking) g ∧
      g.verdicts.countP (fun v => Passed spelledCfg .resendOtp annsAccount v) = 3 ∧
      (3 : ℚ) ≤ 3 + 3 / 600 * 1000 / 1000 := by
  have run := Lib.Run.of_isSome asking_runs
  have three : ((Lib.execute (step spelledCfg) (Gate.empty 0) asking).get asking_runs).verdicts.countP
      (fun v => Passed spelledCfg .resendOtp annsAccount v) = 3 := by decide +kernel
  have ordered : ∀ p ∈ Lib.traceOf (step spelledCfg) (Gate.empty 0) asking,
      Ordered spelledCfg ⟨"resend-otp", .identifier, ⟨3, 3 / 600, by norm_num, by norm_num⟩⟩ annsAccount
        0 1000 p.1 p.2 := by decide +kernel
  obtain ⟨new, is, most⟩ := Run.passed_at_most .nil run
    (show Endpoint.limits .resendOtp = [] ++ resendOtpLimits from rfl)
    (show LimitKey.identifier = annsAccount.key from rfl) ordered
  have is : _ = new := is
  rw [← is, three] at most
  exact ⟨_, run, three, most⟩

theorem asks_code {spelled : String} {key : BucketKey}
    (asks : Asks spelledCfg .resendOtp (calledBy spelled) key) :
    key.value = (extractKeyValue spelledCfg (calledBy spelled) .identifier).written := by
  obtain ⟨config, mem, rfl⟩ := asks
  obtain rfl := List.mem_singleton.mp mem
  rfl

/-- The other account gets its code as if nobody had asked for Ann's. -/
theorem isolated_asking :
    ∃ g trace' h, Run spelledCfg (Gate.empty 0) (Lib.traceOf (step spelledCfg) (Gate.empty 0) asking) g ∧
      Run spelledCfg (Gate.empty 0) trace' h ∧
      trace'.map Prod.snd = [annsCode "0912 345 678" 4, .send 4 0, .eval 4, .elapse 1000,
        .elapse 500] ∧
      h.verdicts = g.verdicts.filter fun v => v.client == 4 := by
  have run := Lib.Run.of_isSome asking_runs
  have labels := Lib.traceOf_labels asking_runs
  have arrivals : ∀ n endpoint caller, Label.arrive n endpoint caller ∈ asking →
      endpoint = .resendOtp ∧ ∃ spelled, caller = calledBy spelled ∧
        (extractKeyValue spelledCfg caller .identifier = .text aMail ∧ n ≠ 4 ∨
          extractKeyValue spelledCfg caller .identifier = .text aPhone ∧ n = 4) := by
    intro n endpoint caller mem
    simp only [asking, annsCode, List.mem_cons, List.not_mem_nil, or_false, reduceCtorEq,
      Label.arrive.injEq] at mem
    rcases mem with ⟨rfl, rfl, rfl⟩ | ⟨rfl, rfl, rfl⟩ | ⟨rfl, rfl, rfl⟩ | ⟨rfl, rfl, rfl⟩ | ⟨rfl, rfl, rfl⟩
    · exact ⟨rfl, _, rfl, Or.inl ⟨rfl, by decide⟩⟩
    · exact ⟨rfl, _, rfl, Or.inl ⟨rfl, by decide⟩⟩
    · exact ⟨rfl, _, rfl, Or.inl ⟨rfl, by decide⟩⟩
    · exact ⟨rfl, _, rfl, Or.inl ⟨rfl, by decide⟩⟩
    · exact ⟨rfl, _, rfl, Or.inr ⟨rfl, rfl⟩⟩
  obtain ⟨trace', h, run', seen, -, same⟩ := @Run.isolated spelledCfg (· == 4) _ _ 0 run (by
    intro n endpoint caller n' endpoint' caller' key mem mem' own other asks asks'
    rw [labels] at mem mem'
    obtain ⟨rfl, spelled, rfl, ⟨-, no⟩ | ⟨phone, -⟩⟩ := arrivals _ _ _ mem
    · exact no (beq_iff_eq.mp own)
    obtain ⟨rfl, spelled', rfl, ⟨mail, -⟩ | ⟨-, rfl⟩⟩ := arrivals _ _ _ mem'
    · have one := (asks_code asks).symm.trans (asks_code asks')
      rw [phone, mail] at one
      exact absurd one (by decide)
    · cases other)
  rw [labels] at seen
  exact ⟨_, trace', h, run, run', seen, same⟩

end Gate

end FlashSale
