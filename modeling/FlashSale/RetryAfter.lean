/-
# The answer of a limiter that denies a call

The script answers with the seconds after which to try again, rounded up.

What is stored is not brought up to date by a denied call, so the bound speaks of the level
of the bucket at the time of a later call, whatever calls were denied in between. It is
exact up to the rounding: the call a second earlier is denied.

* `Limit.retry_exact`: while no other call is allowed, calls are allowed after that time
  and are not allowed a second before it.
-/
import FlashSale.RateLimiter

namespace FlashSale

open Lib (Level)

namespace Limit

variable {limit : Limit} {stored stored' : Option StoredTokens} {call next : AllowCall}
  {d : StoredTokens} {trace between : List (Option StoredTokens × AllowCall)}

theorem allowed_iff : (limit.allow stored call).1.allowed = true ↔ 1 ≤ limit.refilled stored call := by
  by_cases short : limit.refilled stored call < 1
  · rw [allow_denied short]
    simp [short]
  · rw [allow_allowed (not_lt.mp short)]
    simp [not_lt.mp short]

theorem denied_iff : (limit.allow stored call).1.allowed = false ↔ limit.refilled stored call < 1 := by
  rw [← Bool.not_eq_true, allowed_iff, not_le]

/-- A call that is denied leaves what is stored. -/
theorem denied_keeps (denied : (limit.allow stored call).1.allowed = false) :
    (limit.allow stored call).2 = stored := by
  have short := denied_iff.mp denied
  obtain ⟨d, is, kept⟩ := found_of_short short
  rw [allow_denied short, kept, is]

/-- So do calls that are all denied. -/
theorem Run.keeps {start : Option StoredTokens} (run : limit.Run start between stored)
    (denied : ∀ p ∈ between, (limit.allow p.1 p.2).1.allowed = false) : stored = start := by
  induction run with
  | nil => rfl
  | @snoc between s s' call run taken ih =>
    have before := ih fun p mem => denied p (List.mem_append_left _ mem)
    have last := denied (s, call) (by simp)
    cases taken
    exact (denied_keeps last).trans before

/-- On the clock of Redis, what is stored has refilled as its bucket has, also when the key
has expired in the meantime. -/
theorem StandsFor.refills {x : Level ℚ} (stands : limit.StandsFor x (some d))
    (same : call.redisMs = call.nowMs) (after : x.since ≤ call.nowMs) :
    limit.refilled (some d) call = limit.bucket.level d.level call.nowMs := by
  rw [stands.refilled same after]
  cases stands with
  | kept since agrees fills => exact agrees _ after

/-- The seconds of the answer are what the bucket lacks, at its rate, rounded up. -/
theorem retry_bounds {lacks : ℚ} {n m : ℤ} (more : 0 < lacks) :
    1 ≤ ⌈lacks / limit.refillPerSec⌉ ∧
      (n + 1000 * ⌈lacks / limit.refillPerSec⌉ ≤ m → lacks ≤ limit.bucket.rate * (m - n)) ∧
      (m ≤ n + 1000 * (⌈lacks / limit.refillPerSec⌉ - 1) → limit.bucket.rate * (m - n) < lacks) := by
  have pos := limit.refill_pos
  have rate : ∀ seconds : ℚ, limit.bucket.rate * (1000 * seconds) = seconds * limit.refillPerSec := by
    intro seconds
    show limit.refillPerSec / 1000 * (1000 * seconds) = _
    ring
  have rate_pos : 0 < limit.bucket.rate := limit.bucket.rate_pos
  refine ⟨Int.one_le_ceil_iff.mpr (div_pos more pos), fun enough => ?_, fun early => ?_⟩
  · have enough : 1000 * (⌈lacks / limit.refillPerSec⌉ : ℚ) ≤ m - n := by
      have : ((n + 1000 * ⌈lacks / limit.refillPerSec⌉ : ℤ) : ℚ) ≤ m := Int.cast_le.mpr enough
      push_cast at this
      linarith
    calc lacks = lacks / limit.refillPerSec * limit.refillPerSec := (div_mul_cancel₀ _ pos.ne').symm
      _ ≤ ⌈lacks / limit.refillPerSec⌉ * limit.refillPerSec :=
          mul_le_mul_of_nonneg_right (Int.le_ceil _) pos.le
      _ = limit.bucket.rate * (1000 * ⌈lacks / limit.refillPerSec⌉) := (rate _).symm
      _ ≤ limit.bucket.rate * (m - n) := mul_le_mul_of_nonneg_left enough rate_pos.le
  · have early : (m : ℚ) - n ≤ 1000 * (⌈lacks / limit.refillPerSec⌉ - 1) := by
      have : (m : ℚ) ≤ ((n + 1000 * (⌈lacks / limit.refillPerSec⌉ - 1) : ℤ) : ℚ) :=
        Int.cast_le.mpr early
      push_cast at this
      linarith
    have under : (⌈lacks / limit.refillPerSec⌉ : ℚ) - 1 < lacks / limit.refillPerSec := by
      linarith [Int.ceil_lt_add_one (lacks / limit.refillPerSec)]
    calc limit.bucket.rate * (m - n)
        ≤ limit.bucket.rate * (1000 * (⌈lacks / limit.refillPerSec⌉ - 1)) :=
          mul_le_mul_of_nonneg_left early rate_pos.le
      _ = (⌈lacks / limit.refillPerSec⌉ - 1) * limit.refillPerSec := rate _
      _ < lacks / limit.refillPerSec * limit.refillPerSec := mul_lt_mul_of_pos_right under pos
      _ = lacks := div_mul_cancel₀ _ pos.ne'

/-- The times of a run, a call after it, more calls, and one call at the end. -/
def timeline (trace : List (Option StoredTokens × AllowCall)) (call : AllowCall)
    (between : List (Option StoredTokens × AllowCall)) (next : AllowCall) : List ℤ :=
  (trace.map fun p => p.2.nowMs) ++ call.nowMs :: (between.map fun p => p.2.nowMs) ++ [next.nowMs]

/-- Before times in order there is one that begins them. -/
theorem begins {times : List ℤ} {n : ℤ} (ordered : times.Pairwise (· ≤ ·)) (last : ∀ t ∈ times, t ≤ n) :
    ∃ start, (start :: times).Pairwise (· ≤ ·) ∧ start ≤ n := by
  cases times with
  | nil => exact ⟨n, by simp, le_rfl⟩
  | cons first rest =>
    have after := (List.pairwise_cons.mp ordered).1
    refine ⟨first, List.pairwise_cons.mpr ⟨fun t mem => ?_, ordered⟩, last first (by simp)⟩
    rcases List.mem_cons.mp mem with rfl | mem
    · exact le_rfl
    · exact after t mem

/-- A call is denied in a run of one clock, which is that of Redis. As long as no other call
is allowed, calls are allowed once the seconds of the answer have passed, and are denied up
to a second before. -/
theorem retry_exact (run : limit.Run none trace stored)
    (denied : (limit.allow stored call).1.allowed = false)
    (waiting : limit.Run (limit.allow stored call).2 between stored')
    (quiet : ∀ p ∈ between, (limit.allow p.1 p.2).1.allowed = false)
    (ordered : (timeline trace call between next).Pairwise (· ≤ ·))
    (before : ∀ p ∈ trace, p.2.redisMs = p.2.nowMs) (same : call.redisMs = call.nowMs)
    (same' : next.redisMs = next.nowMs) :
    1 ≤ (limit.allow stored call).1.retryAfterSeconds ∧
      (call.nowMs + 1000 * (limit.allow stored call).1.retryAfterSeconds ≤ next.nowMs →
        (limit.allow stored' next).1.allowed = true) ∧
      (next.nowMs ≤ call.nowMs + 1000 * ((limit.allow stored call).1.retryAfterSeconds - 1) →
        (limit.allow stored' next).1.allowed = false) := by
  have short := denied_iff.mp denied
  obtain ⟨d, rfl, -⟩ := found_of_short short
  have unchanged : stored' = some d := (waiting.keeps quiet).trans (denied_keeps denied)
  subst unchanged
  -- Both calls find the bucket as it has refilled since the time that is stored.
  obtain ⟨ordered', -, last⟩ := List.pairwise_append.mp ordered
  obtain ⟨times, -, upto⟩ := List.pairwise_append.mp ordered'
  have waits : call.nowMs ≤ next.nowMs := last call.nowMs (by simp) next.nowMs (by simp)
  obtain ⟨start, begun, first⟩ := begins times fun t mem => upto t mem call.nowMs (by simp)
  obtain ⟨-, stands, t, mem, since⟩ := run.stands start begun before
  have after : t ≤ call.nowMs := by
    rcases List.mem_cons.mp mem with rfl | mem
    · exact first
    · exact upto t mem call.nowMs (by simp)
  have after : (limit.bucket.after (limit.bucket.full start) (Limit.times trace)).since ≤ call.nowMs := by
    rw [since]
    exact Int.cast_le.mpr after
  have waits' : (call.nowMs : ℚ) ≤ next.nowMs := Int.cast_le.mpr waits
  have found := stands.refills same after
  have found' := stands.refills same' (after.trans waits')
  rw [found] at short
  obtain ⟨positive, enough, early⟩ := @retry_bounds limit
    (1 - limit.bucket.level d.level call.nowMs) call.nowMs next.nowMs (sub_pos.mpr short)
  have retry : (limit.allow (some d) call).1.retryAfterSeconds =
      ⌈(1 - limit.bucket.level d.level call.nowMs) / limit.refillPerSec⌉ := by
    rw [allow_denied (found ▸ short), found]
  rw [retry, allowed_iff, denied_iff, found', ← not_le, Lib.Bucket.enough_iff waits', not_le]
  exact ⟨positive, enough, early⟩

/-! ### Two tokens, one every two seconds -/

def slowLimit : Limit := ⟨2, 1 / 2, by decide, one_half_pos⟩

/-- The store once both tokens are taken. -/
def emptied : Option StoredTokens := some ⟨0, 0, 5000⟩

theorem emptied_reached : Lib.execute slowLimit.step none [⟨0, 0⟩, ⟨0, 0⟩] = some emptied := by
  decide +kernel

theorem emptied_waits :
    Lib.execute slowLimit.step (slowLimit.allow emptied ⟨0, 0⟩).2 [⟨500, 500⟩] = some emptied := by
  decide +kernel

theorem retry_exact_two_seconds :
    (slowLimit.allow emptied ⟨0, 0⟩).1.retryAfterSeconds = 2 ∧
      (slowLimit.allow emptied ⟨2000, 2000⟩).1.allowed = true ∧
      (slowLimit.allow emptied ⟨1000, 1000⟩).1.allowed = false := by
  have run := Lib.Run.of_execute emptied_reached
  have waiting := Lib.Run.of_execute emptied_waits
  have two : (slowLimit.allow emptied ⟨0, 0⟩).1.retryAfterSeconds = 2 := by decide +kernel
  have late := @retry_exact slowLimit emptied emptied ⟨0, 0⟩ ⟨2000, 2000⟩ _ _ run (by decide +kernel)
    waiting (by decide +kernel) (by decide +kernel) (by decide +kernel) rfl rfl
  have early := @retry_exact slowLimit emptied emptied ⟨0, 0⟩ ⟨1000, 1000⟩ _ _ run (by decide +kernel)
    waiting (by decide +kernel) (by decide +kernel) (by decide +kernel) rfl rfl
  rw [two] at late early
  exact ⟨two, late.2.1 (by decide), early.2.2 (by decide)⟩

end Limit

end FlashSale
