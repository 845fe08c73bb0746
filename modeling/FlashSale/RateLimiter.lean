/-
# `RateLimiter.allow`

The script that Redis runs for each call: it reads what is stored under the key, if that
has not expired, and stores the tokens and the time of the caller only when it allows
the call. The arithmetic is exact.

Two things set it apart from the token bucket of `Lib.TokenBucket`: a key expires, after
which its bucket counts as full, and the time is that of the caller, which can be earlier
than what is stored. The first is harmless on one clock, as a key lives until its bucket is
full; the second refills the same stretch of time again.

* `Limit.allowed_at_most`: the calls that are allowed are bounded by the capacity and
  what is refilled in the meantime, as long as no stored time is overwritten by an
  earlier one and no key expires before its bucket is full.
* `Limit.as_ideal`: in calls of one clock, the decisions are those of a bucket that is
  never forgotten.
* `clocks_apart`: two callers a second apart are allowed every call.
-/
import FlashSale.Lib.TokenBucket
import FlashSale.Lib.Run
import Mathlib.Algebra.Order.Field.Rat
import Mathlib.Data.Rat.Floor

namespace FlashSale

open Lib (Level)

/-! ### The script -/

/-- The limit of a key: `capacity` and `refillPerSec`. All limits of the service let at least
one call through and refill. -/
structure Limit where
  capacity : ℚ
  refillPerSec : ℚ
  one_le : 1 ≤ capacity
  refill_pos : 0 < refillPerSec

/-- The hash under a key, and when Redis drops it, in milliseconds. `ts` is a time of the
caller, and `expiresAt` one of Redis. -/
structure StoredTokens where
  tokens : ℚ
  ts : ℤ
  expiresAt : ℤ
deriving DecidableEq

/-- A call: the `Date.now()` of its process, and the clock of Redis, in milliseconds. Nothing
relates the two, or those of different processes. -/
structure AllowCall where
  nowMs : ℤ
  redisMs : ℤ

structure AllowResult where
  allowed : Bool
  retryAfterSeconds : ℤ

namespace Limit

variable (limit : Limit)

/-- What is stored and has not expired. -/
def data (stored : Option StoredTokens) (call : AllowCall) : Option StoredTokens :=
  stored.filter fun d => decide (call.redisMs < d.expiresAt)

/-- The tokens once they are refilled; a key that is not there counts as full. -/
def refilled (stored : Option StoredTokens) (call : AllowCall) : ℚ :=
  let (tokens, ts) :=
    match data stored call with
    | some d => (d.tokens, d.ts)
    | none => (limit.capacity, call.nowMs)
  let elapsedSec : ℚ := max 0 ((call.nowMs - ts) / 1000)
  min limit.capacity (tokens + elapsedSec * limit.refillPerSec)

def ttlSec : ℤ := ⌈limit.capacity / limit.refillPerSec⌉ + 1

/-- `LUA_TOKEN_BUCKET`: its result, and what is stored afterwards. A denied call stores
nothing, and an allowed one stores its own `now_ms` even if that is earlier. -/
def allow (stored : Option StoredTokens) (call : AllowCall) : AllowResult × Option StoredTokens :=
  let tokens := limit.refilled stored call
  if tokens < 1 then (⟨false, ⌈(1 - tokens) / limit.refillPerSec⌉⟩, data stored call)
  else (⟨true, 0⟩, some ⟨tokens - 1, call.nowMs, call.redisMs + limit.ttlSec * 1000⟩)

def step (stored : Option StoredTokens) (call : AllowCall) : Option (Option StoredTokens) :=
  some (limit.allow stored call).2

/-- Calls of one key, one after another. -/
abbrev Run (start : Option StoredTokens) (trace : List (Option StoredTokens × AllowCall))
    (stored : Option StoredTokens) : Prop :=
  Lib.Run limit.step start trace stored

/-- How many calls of a run are allowed. -/
def allowed (trace : List (Option StoredTokens × AllowCall)) : ℕ :=
  trace.countP fun p => (limit.allow p.1 p.2).1.allowed

/-! ### The bucket that it keeps -/

/-- The bucket of a limit, with time in milliseconds. -/
def bucket : Lib.Bucket ℚ where
  capacity := limit.capacity
  rate := limit.refillPerSec / 1000
  one_le := limit.one_le
  rate_pos := div_pos limit.refill_pos (by norm_num)

end Limit

def StoredTokens.level (d : StoredTokens) : Level ℚ := ⟨d.tokens, d.ts⟩

/-- The tokens stored are between none and the capacity. -/
def Limit.Sound (limit : Limit) (stored : Option StoredTokens) : Prop :=
  ∀ d, stored = some d → 0 ≤ d.tokens ∧ d.tokens ≤ limit.capacity

namespace Limit

variable {limit : Limit} {stored : Option StoredTokens} {call : AllowCall} {d : StoredTokens}

theorem data_some (kept : data stored call = some d) : stored = some d ∧ call.redisMs < d.expiresAt := by
  obtain ⟨is, later⟩ := Option.filter_eq_some_iff.mp kept
  exact ⟨is, of_decide_eq_true later⟩

theorem data_none (gone : data stored call = none) (is : stored = some d) :
    d.expiresAt ≤ call.redisMs := by
  subst is
  simpa [data] using gone

/-- A key that is not there counts as full. -/
theorem refilled_none (gone : data stored call = none) : limit.refilled stored call = limit.capacity := by
  simp [refilled, gone]

/-- A key that is there has refilled as its bucket has. -/
theorem refilled_later (kept : data stored call = some d) (later : d.ts ≤ call.nowMs) :
    limit.refilled stored call = limit.bucket.level d.level call.nowMs := by
  have since : (0 : ℚ) ≤ (call.nowMs - d.ts) / 1000 := by
    have : (d.ts : ℚ) ≤ call.nowMs := Int.cast_le.mpr later
    linarith
  simp only [refilled, kept, max_eq_right since, Lib.Bucket.level, bucket, StoredTokens.level]
  ring_nf

/-- Before its time, nothing is refilled. -/
theorem refilled_earlier (kept : data stored call = some d) (earlier : call.nowMs ≤ d.ts) :
    limit.refilled stored call = min limit.capacity d.tokens := by
  have since : ((call.nowMs : ℚ) - d.ts) / 1000 ≤ 0 := by
    have : (call.nowMs : ℚ) ≤ d.ts := Int.cast_le.mpr earlier
    linarith
  simp [refilled, kept, max_eq_left since]

theorem refilled_le : limit.refilled stored call ≤ limit.capacity := min_le_left _ _

theorem allow_denied (short : limit.refilled stored call < 1) : limit.allow stored call =
    (⟨false, ⌈(1 - limit.refilled stored call) / limit.refillPerSec⌉⟩, data stored call) := by
  rw [allow, if_pos short]

theorem allow_allowed (enough : 1 ≤ limit.refilled stored call) : limit.allow stored call =
    (⟨true, 0⟩, some ⟨limit.refilled stored call - 1, call.nowMs,
      call.redisMs + limit.ttlSec * 1000⟩) := by
  rw [allow, if_neg (not_lt.mpr enough)]

/-- A call that is denied found its key. -/
theorem found_of_short (short : limit.refilled stored call < 1) :
    ∃ d, stored = some d ∧ data stored call = some d := by
  cases kept : data stored call with
  | none =>
    rw [refilled_none kept] at short
    exact absurd limit.one_le (not_le.mpr short)
  | some d => exact ⟨d, (data_some kept).1, rfl⟩

theorem Sound.step (sound : limit.Sound stored) : limit.Sound (limit.allow stored call).2 := by
  by_cases short : limit.refilled stored call < 1
  · obtain ⟨d, is, kept⟩ := found_of_short short
    rw [allow_denied short, kept]
    subst is
    exact sound
  · rw [allow_allowed (not_lt.mp short)]
    intro d is
    cases is
    have most : limit.refilled stored call ≤ limit.capacity := refilled_le
    constructor
    · linarith [not_lt.mp short]
    · dsimp only
      linarith

theorem sound_none : limit.Sound none := by
  intro d is
  cases is

theorem Run.sound {start : Option StoredTokens} {trace : List (Option StoredTokens × AllowCall)}
    (sound : limit.Sound start) (run : limit.Run start trace stored) : limit.Sound stored := by
  refine Lib.Run.invariant sound (fun s call s' before taken => ?_) run
  cases taken
  exact before.step

/-! ### The bound -/

/-- What the bound asks of a call that finds something stored: when it finds a token
there, its time is not before the one stored; and when the key has expired, the bucket
is full by then for the time of the call too. -/
def InOrder (limit : Limit) (stored : Option StoredTokens) (call : AllowCall) : Prop :=
  ∀ d, stored = some d →
    (call.redisMs < d.expiresAt → 1 ≤ d.tokens → d.ts ≤ call.nowMs) ∧
    (d.expiresAt ≤ call.redisMs → limit.bucket.level d.level call.nowMs = limit.capacity)

instance : Decidable (limit.InOrder stored call) :=
  match stored with
  | none => isTrue fun _ is => by cases is
  | some d => decidable_of_iff
      ((call.redisMs < d.expiresAt → 1 ≤ d.tokens → d.ts ≤ call.nowMs) ∧
        (d.expiresAt ≤ call.redisMs → limit.bucket.level d.level call.nowMs = limit.capacity))
      (by simp [InOrder])

/-- A call in order that is allowed takes a token that the bucket has. -/
theorem InOrder.refilled (inOrder : limit.InOrder (some d) call)
    (enough : 1 ≤ limit.refilled (some d) call) :
    limit.refilled (some d) call ≤ limit.bucket.level d.level call.nowMs := by
  obtain ⟨found, expired⟩ := inOrder d rfl
  cases kept : data (some d) call with
  | none =>
    rw [expired (data_none kept rfl)]
    exact refilled_le
  | some d' =>
    obtain ⟨is, fresh⟩ := data_some kept
    cases is
    rcases le_total d.ts call.nowMs with later | earlier
    · exact (refilled_later kept later).le
    · rw [refilled_earlier kept earlier] at enough
      have later := found fresh (enough.trans (min_le_right _ _))
      exact (refilled_later kept later).le

/-- What a window of calls keeps: those that were allowed have paid. -/
def Bounded (limit : Limit) (start : ℤ) (width : ℕ) (taken : ℕ) (stored : Option StoredTokens) : Prop :=
  taken = 0 ∨ ∃ d, stored = some d ∧ limit.bucket.Paid start taken d.level ∧ d.ts ≤ start + width

theorem Bounded.step {start : ℤ} {width taken : ℕ} (bounded : limit.Bounded start width taken stored)
    (inOrder : limit.InOrder stored call) (after : start ≤ call.nowMs)
    (before : call.nowMs ≤ start + width) :
    limit.Bounded start width (taken + if (limit.allow stored call).1.allowed then 1 else 0)
      (limit.allow stored call).2 := by
  by_cases short : limit.refilled stored call < 1
  · obtain ⟨d, is, kept⟩ := found_of_short short
    rw [allow_denied short, kept, ← is]
    simpa using bounded
  · have enough := not_lt.mp short
    rw [allow_allowed enough]
    refine Or.inr ⟨_, rfl, ?_, before⟩
    rcases bounded with none | ⟨d, rfl, paid, -⟩
    · have most : limit.refilled stored call - 1 + 1 ≤ limit.bucket.capacity := by
        rw [sub_add_cancel]
        exact refilled_le
      rw [none]
      exact Lib.Bucket.Paid.first most (Int.cast_le.mpr after)
    · apply Lib.Bucket.Paid.take paid
      rw [sub_add_cancel]
      exact inOrder.refilled enough

/-- Calls in order, in a window of `width` milliseconds, are allowed at most as often as
the capacity and the refill in that time. -/
theorem allowed_at_most {start stored : Option StoredTokens} (sound : limit.Sound start)
    {trace : List (Option StoredTokens × AllowCall)} (run : limit.Run start trace stored) (from_ : ℤ)
    (width : ℕ) (within : ∀ p ∈ trace, from_ ≤ p.2.nowMs ∧ p.2.nowMs ≤ from_ + width)
    (inOrder : ∀ p ∈ trace, limit.InOrder p.1 p.2) :
    (limit.allowed trace : ℚ) ≤ limit.capacity + limit.refillPerSec * width / 1000 := by
  have bounded : limit.Bounded from_ width (limit.allowed trace) stored := by
    induction run with
    | nil => exact Or.inl rfl
    | @snoc trace s s' call run taken ih =>
      have earlier := ih (fun p mem => within p (List.mem_append_left _ mem))
        (fun p mem => inOrder p (List.mem_append_left _ mem))
      obtain ⟨after, before⟩ := within (s, call) (by simp)
      have next := earlier.step (inOrder (s, call) (by simp)) after before
      cases taken
      simpa [allowed, List.countP_append, List.countP_cons] using next
  have capacity : (0 : ℚ) ≤ limit.capacity := zero_le_one.trans limit.one_le
  have refill : 0 ≤ limit.refillPerSec * width / 1000 :=
    div_nonneg (mul_nonneg limit.refill_pos.le (Nat.cast_nonneg width)) (by norm_num)
  rcases bounded with none | ⟨d, rfl, paid, last⟩
  · rw [none, Nat.cast_zero]
    exact add_nonneg capacity refill
  · have last : d.level.since ≤ (from_ : ℚ) + width := by
      show (d.ts : ℚ) ≤ from_ + width
      exact_mod_cast last
    rw [mul_div_right_comm]
    exact paid.bound (run.sound sound d rfl).1 last

/-! ### The ideal bucket -/

/-- What is stored stands for a level: nothing for a full bucket, and a key that expires
for one that is full by then. -/
inductive StandsFor (limit : Limit) (x : Level ℚ) : Option StoredTokens → Prop where
  | full (tokens : x.tokens = limit.capacity) : StandsFor limit x none
  | kept {d : StoredTokens} (since : (d.ts : ℚ) ≤ x.since)
      (same : ∀ t, x.since ≤ t → limit.bucket.level x t = limit.bucket.level d.level t)
      (fills : ∀ t : ℤ, d.expiresAt ≤ t → limit.bucket.level d.level t = limit.capacity) :
      StandsFor limit x (some d)

/-- The script refills what the ideal bucket has. -/
theorem StandsFor.refilled {x : Level ℚ} (stands : limit.StandsFor x stored)
    (same : call.redisMs = call.nowMs) (later : x.since ≤ call.nowMs) :
    limit.refilled stored call = limit.bucket.level x call.nowMs := by
  cases stands with
  | full tokens =>
    have is : limit.bucket.level x call.nowMs = limit.capacity :=
      Lib.Bucket.level_of_full (b := limit.bucket) later tokens
    rw [is]
    exact refilled_none rfl
  | @kept d since agrees fills =>
    rw [agrees _ later]
    cases kept : data (some d) call with
    | none =>
      have expired := data_none kept rfl
      rw [refilled_none kept, fills _ (same ▸ expired)]
    | some d' =>
      obtain ⟨is, -⟩ := data_some kept
      cases is
      exact refilled_later kept (Int.cast_le.mp (since.trans later))

/-- The key lives long enough for the bucket to fill. -/
theorem ttl_fills {tokens : ℚ} (nonneg : 0 ≤ tokens) {now t : ℤ} (later : now + limit.ttlSec * 1000 ≤ t) :
    limit.bucket.level ⟨tokens, now⟩ t = limit.capacity := by
  apply Lib.Bucket.level_full
  show limit.capacity ≤ tokens + limit.refillPerSec / 1000 * ((t : ℚ) - now)
  have ceil : limit.capacity / limit.refillPerSec ≤ ⌈limit.capacity / limit.refillPerSec⌉ := Int.le_ceil _
  have lived : ((limit.ttlSec : ℚ)) * 1000 ≤ (t : ℚ) - now := by
    have : ((now + limit.ttlSec * 1000 : ℤ) : ℚ) ≤ t := Int.cast_le.mpr later
    push_cast at this
    linarith
  have ttl : (limit.ttlSec : ℚ) = ⌈limit.capacity / limit.refillPerSec⌉ + 1 := by
    simp [ttlSec]
  have enough : limit.capacity / limit.refillPerSec * 1000 ≤ (t : ℚ) - now := by
    rw [ttl] at lived
    linarith
  calc limit.capacity
      = limit.refillPerSec / 1000 * (limit.capacity / limit.refillPerSec * 1000) := by
        field_simp [limit.refill_pos.ne']
    _ ≤ limit.refillPerSec / 1000 * ((t : ℚ) - now) :=
        mul_le_mul_of_nonneg_left enough (div_nonneg limit.refill_pos.le (by norm_num))
    _ ≤ tokens + limit.refillPerSec / 1000 * ((t : ℚ) - now) := le_add_of_nonneg_left nonneg

/-- A call on the clock of Redis is decided as the ideal bucket decides it, and afterwards what
is stored stands for the bucket again. -/
theorem StandsFor.step {x : Level ℚ} (stands : limit.StandsFor x stored)
    (same : call.redisMs = call.nowMs) (later : x.since ≤ call.nowMs) :
    (limit.allow stored call).1.allowed = (limit.bucket.ask x call.nowMs).1 ∧
      limit.StandsFor (limit.bucket.ask x call.nowMs).2 (limit.allow stored call).2 := by
  have refilled := stands.refilled same later
  by_cases short : limit.refilled stored call < 1
  · obtain ⟨d, rfl, kept⟩ := found_of_short short
    rw [allow_denied short, kept]
    rw [refilled] at short
    rw [Lib.Bucket.ask, if_neg (not_le.mpr short)]
    refine ⟨rfl, ?_⟩
    cases stands with
    | kept since agrees fills =>
      refine .kept (since.trans later) (fun t after => ?_) fills
      rw [Lib.Bucket.level_refill after]
      exact agrees t (later.trans after)
  · have enough := not_lt.mp short
    rw [allow_allowed enough]
    rw [refilled] at enough ⊢
    rw [Lib.Bucket.ask, if_pos enough]
    refine ⟨rfl, .kept le_rfl (fun t _ => rfl) fun t after => ?_⟩
    rw [same] at after
    exact ttl_fills (sub_nonneg.mpr enough) after

/-- The times of the calls of a run. -/
def times (trace : List (Option StoredTokens × AllowCall)) : List ℚ :=
  trace.map fun p => (p.2.nowMs : ℚ)

theorem times_snoc {trace : List (Option StoredTokens × AllowCall)} :
    times (trace ++ [(stored, call)]) = times trace ++ [(call.nowMs : ℚ)] := by
  simp [times]

/-- In calls of one clock, the run simulates the ideal bucket. -/
theorem Run.stands {trace : List (Option StoredTokens × AllowCall)} (run : limit.Run none trace stored)
    (start : ℤ) (ordered : (start :: trace.map fun p => p.2.nowMs).Pairwise (· ≤ ·))
    (same : ∀ p ∈ trace, p.2.redisMs = p.2.nowMs) :
    (trace.map fun p => (limit.allow p.1 p.2).1.allowed) =
        limit.bucket.decisions (limit.bucket.full start) (times trace) ∧
      limit.StandsFor (limit.bucket.after (limit.bucket.full start) (times trace)) stored ∧
      ∃ t ∈ start :: trace.map fun p => p.2.nowMs,
        (limit.bucket.after (limit.bucket.full start) (times trace)).since = t := by
  induction run with
  | nil => exact ⟨rfl, .full rfl, start, List.mem_cons_self, rfl⟩
  | @snoc trace s s' call run taken ih =>
    rw [List.map_append, ← List.cons_append, List.pairwise_append] at ordered
    obtain ⟨before, -, last⟩ := ordered
    obtain ⟨decided, stands, t, mem, since⟩ :=
      ih before fun p mem => same p (List.mem_append_left _ mem)
    have later : (limit.bucket.after (limit.bucket.full start) (times trace)).since ≤ call.nowMs := by
      rw [since]
      exact Int.cast_le.mpr (last t mem call.nowMs (by simp))
    obtain ⟨agrees, next⟩ := stands.step (same (s, call) (by simp)) later
    cases taken
    rw [times_snoc, Lib.Bucket.decisions_append, ← decided, Lib.Bucket.after_snoc]
    refine ⟨?_, next, call.nowMs, by simp, ?_⟩
    · rw [List.map_append]
      exact congrArg _ (congrArg (fun b => [b]) agrees)
    · exact Lib.Bucket.ask_since

/-- In calls of one clock, which is that of Redis, the decisions are those of a bucket
that starts full, is brought up to date by every call and is never forgotten; and what is
stored is between none and the capacity. -/
theorem as_ideal {trace : List (Option StoredTokens × AllowCall)} (run : limit.Run none trace stored)
    (start : ℤ) (ordered : (start :: trace.map fun p => p.2.nowMs).Pairwise (· ≤ ·))
    (same : ∀ p ∈ trace, p.2.redisMs = p.2.nowMs) :
    (trace.map fun p => (limit.allow p.1 p.2).1.allowed) =
        limit.bucket.decisions (limit.bucket.full start) (times trace) ∧
      ∀ s ∈ Lib.visits trace stored, ∀ d, s = some d → 0 ≤ d.tokens ∧ d.tokens ≤ limit.capacity := by
  constructor
  · exact (run.stands start ordered same).1
  · intro s mem d is
    obtain ⟨earlier, run', -⟩ := run.of_visits mem
    exact Run.sound sound_none run' d is

/-! ### Two tokens, two for each second -/

def pairLimit : Limit := ⟨2, 2, by norm_num, by norm_num⟩

/-- Calls of two processes, one a second ahead of the other. -/
def clocksApart : List AllowCall := [⟨1000, 0⟩, ⟨0, 0⟩, ⟨1000, 0⟩, ⟨0, 0⟩, ⟨1000, 0⟩, ⟨0, 0⟩]

/-- Calls of one process in the course of a second. -/
def oneClock : List AllowCall := [⟨0, 0⟩, ⟨0, 0⟩, ⟨0, 0⟩, ⟨500, 500⟩, ⟨600, 600⟩, ⟨1000, 1000⟩]

theorem clocksApart_runs : (Lib.execute pairLimit.step none clocksApart).isSome = true := by
  decide +kernel

theorem oneClock_runs : (Lib.execute pairLimit.step none oneClock).isSome = true := by decide +kernel

/-- Within a second, six calls are allowed, where the bound is four. Each call of the
process behind overwrites the time, which the process ahead then finds a second old. -/
theorem clocks_apart :
    ∃ stored, pairLimit.Run none (Lib.traceOf pairLimit.step none clocksApart) stored ∧
      (∀ p ∈ Lib.traceOf pairLimit.step none clocksApart, 0 ≤ p.2.nowMs ∧ p.2.nowMs ≤ 0 + (1000 : ℕ)) ∧
      ¬ (pairLimit.allowed (Lib.traceOf pairLimit.step none clocksApart) : ℚ) ≤
        pairLimit.capacity + pairLimit.refillPerSec * (1000 : ℕ) / 1000 := by
  have six : pairLimit.allowed (Lib.traceOf pairLimit.step none clocksApart) = 6 := by decide +kernel
  refine ⟨_, Lib.Run.of_isSome clocksApart_runs, by decide +kernel, ?_⟩
  rw [six]
  norm_num [pairLimit]

/-- Calls of a process whose clock is that of Redis and of one that is 300 milliseconds
ahead. Before the last two, the key has expired. -/
def oneAhead : List AllowCall :=
  [⟨0, 0⟩, ⟨300, 0⟩, ⟨100, 100⟩, ⟨500, 200⟩, ⟨3000, 3000⟩, ⟨3300, 3000⟩]

theorem oneAhead_runs : (Lib.execute pairLimit.step none oneAhead).isSome = true := by decide +kernel

/-- The third call comes when less than a token is left, so it is in order. -/
theorem allowed_at_most_one_ahead :
    pairLimit.allowed (Lib.traceOf pairLimit.step none oneAhead) = 5 ∧
      (pairLimit.allowed (Lib.traceOf pairLimit.step none oneAhead) : ℚ) ≤
        pairLimit.capacity + pairLimit.refillPerSec * (3300 : ℕ) / 1000 := by
  have run := Lib.Run.of_isSome oneAhead_runs
  refine ⟨by decide +kernel, allowed_at_most sound_none run 0 3300 ?_ ?_⟩
  · decide +kernel
  · decide +kernel

theorem as_ideal_one_clock :
    pairLimit.bucket.decisions (pairLimit.bucket.full (0 : ℤ))
        (times (Lib.traceOf pairLimit.step none oneClock)) = [true, true, false, true, false, true] ∧
      ((Lib.traceOf pairLimit.step none oneClock).map fun p => (pairLimit.allow p.1 p.2).1.allowed) =
        pairLimit.bucket.decisions (pairLimit.bucket.full (0 : ℤ))
          (times (Lib.traceOf pairLimit.step none oneClock)) := by
  have run := Lib.Run.of_isSome oneClock_runs
  exact ⟨by decide +kernel, (as_ideal run 0 (by decide +kernel) (by decide +kernel)).1⟩

end Limit

end FlashSale
