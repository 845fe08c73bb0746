/-
# Token buckets

A bucket of a given capacity refills at a constant rate up to its capacity; a request
takes one token, or is denied when there is none. `Level` is what a bucket holds at a
moment, from which what it holds later is computed.

* `Bucket.level_refill`: bringing a level up to date loses nothing.
* `Bucket.enough_iff`: when there is a token again.
* `Bucket.Paid.bound`: requests that each took a token of a bucket are at most its
  capacity and what it got in the meantime.
-/
import Mathlib.Algebra.Order.Field.Basic
import Mathlib.Tactic.Linarith
import Mathlib.Tactic.Ring

namespace Lib

/-- A bucket: its size, and its rate in tokens for each unit of time. One token fits, and time
brings more. -/
structure Bucket (K : Type) [Field K] [LinearOrder K] where
  capacity : K
  rate : K
  one_le : 1 ≤ capacity
  rate_pos : 0 < rate

/-- Tokens at a moment. What the bucket holds later is a function of these two, so a level need
not be brought up to date. -/
structure Level (K : Type) where
  tokens : K
  since : K

namespace Bucket

variable {K : Type} [Field K] [LinearOrder K] (b : Bucket K)

/-- What a bucket holds at `t`, when nothing has been taken since. -/
def level (x : Level K) (t : K) : K := min b.capacity (x.tokens + b.rate * (t - x.since))

/-- A full bucket. -/
def full (t : K) : Level K := ⟨b.capacity, t⟩

/-- One request: whether it gets a token, and what is left. -/
def ask (x : Level K) (t : K) : Bool × Level K :=
  if 1 ≤ b.level x t then (true, ⟨b.level x t - 1, t⟩) else (false, ⟨b.level x t, t⟩)

/-- Requests one after another: which of them get a token. -/
def decisions : Level K → List K → List Bool
  | _, [] => []
  | x, t :: ts => (b.ask x t).1 :: decisions (b.ask x t).2 ts

def after (x : Level K) (ts : List K) : Level K := ts.foldl (fun x t => (b.ask x t).2) x

theorem decisions_append (x : Level K) (ts ts' : List K) :
    b.decisions x (ts ++ ts') = b.decisions x ts ++ b.decisions (b.after x ts) ts' := by
  induction ts generalizing x with
  | nil => rfl
  | cons t ts ih => exact congrArg _ (ih (b.ask x t).2)

theorem after_snoc (x : Level K) (ts : List K) (t : K) :
    b.after x (ts ++ [t]) = (b.ask (b.after x ts) t).2 := by
  simp [after]

variable {b} {x : Level K} {t t' : K}

theorem ask_since : (b.ask x t).2.since = t := by
  unfold ask
  split <;> rfl

/-- A bucket that has had the time to fill is full. -/
theorem level_full (filled : b.capacity ≤ x.tokens + b.rate * (t - x.since)) :
    b.level x t = b.capacity := min_eq_left filled

variable [IsStrictOrderedRing K]

theorem level_of_full (later : x.since ≤ t) (full : x.tokens = b.capacity) :
    b.level x t = b.capacity := by
  apply level_full
  rw [full]
  exact le_add_of_nonneg_right (mul_nonneg b.rate_pos.le (sub_nonneg.mpr later))

/-- A level that is brought up to date gives the same levels from then on. So when it is done,
and how often, does not matter. -/
theorem level_refill (later : t ≤ t') : b.level ⟨b.level x t, t⟩ t' = b.level x t' := by
  have more : 0 ≤ b.rate * (t' - t) := mul_nonneg b.rate_pos.le (sub_nonneg.mpr later)
  have split : x.tokens + b.rate * (t' - x.since) =
      x.tokens + b.rate * (t - x.since) + b.rate * (t' - t) := by ring
  unfold level
  rw [split, ← min_add_add_right, ← min_assoc, min_eq_left (le_add_of_nonneg_right more)]

/-- After a moment at which there is no token, there is one as soon as what lacked has been
refilled. -/
theorem enough_iff (later : t ≤ t') :
    1 ≤ b.level x t' ↔ 1 - b.level x t ≤ b.rate * (t' - t) := by
  rw [← level_refill later, level, le_min_iff, sub_le_iff_le_add']
  exact and_iff_right b.one_le

/-! ### What requests can take -/

/-- Since `start`, some requests have each taken a token: what is left, with them, is at
most the capacity and what has been refilled. -/
def Paid (b : Bucket K) (start : K) (taken : ℕ) (x : Level K) : Prop :=
  x.tokens + taken ≤ b.capacity + b.rate * (x.since - start)

variable {start tokens : K} {taken : ℕ}

/-- The first token that is taken. -/
theorem Paid.first (most : tokens + 1 ≤ b.capacity) (later : start ≤ t) : b.Paid start 1 ⟨tokens, t⟩ := by
  have more : 0 ≤ b.rate * (t - start) := mul_nonneg b.rate_pos.le (sub_nonneg.mpr later)
  simp only [Paid, Nat.cast_one]
  linarith

/-- The next one. -/
theorem Paid.take (paid : b.Paid start taken x) (most : tokens + 1 ≤ b.level x t) :
    b.Paid start (taken + 1) ⟨tokens, t⟩ := by
  have refilled : b.level x t ≤ x.tokens + b.rate * (t - x.since) := min_le_right _ _
  have split : b.rate * (t - start) = b.rate * (x.since - start) + b.rate * (t - x.since) := by ring
  simp only [Paid, Nat.cast_add, Nat.cast_one] at paid ⊢
  rw [split]
  linarith

/-- Requests that took tokens are at most the capacity and what has been refilled. Refills that
ran over are lost, which only lowers the bound. -/
theorem Paid.bound {width : K} (paid : b.Paid start taken x)
    (nonneg : 0 ≤ x.tokens) (last : x.since ≤ start + width) :
    (taken : K) ≤ b.capacity + b.rate * width := by
  have most : b.rate * (x.since - start) ≤ b.rate * width :=
    mul_le_mul_of_nonneg_left (by linarith) b.rate_pos.le
  unfold Paid at paid
  linarith

end Bucket

end Lib
