import Mathlib.Algebra.Order.Group.Int
import Mathlib.Tactic.Ring

/-! # Circuit breakers

A breaker counts failures in a row. From the `threshold`-th on, each one opens it for `period`, and while it
is open nothing is tried. The account of an interval is a potential: `allowance` bounds the failures that
fit between `t` and the end `t₁` of the interval. A failure takes one from it (`allowance_fail`), a reset
gives back `threshold` at most (`allowance_reset`), and time takes from it only (`allowance_anti`). -/

namespace Afterglow.Sync.Circuit

structure Breaker where
  failures : ℕ
  openUntil : Option Int
  deriving DecidableEq, Repr

variable (threshold : ℕ) (period t₁ : Int)

/-- A failure at the time `now`. -/
def Breaker.fail (b : Breaker) (now : Int) : Breaker :=
  ⟨b.failures + 1, if threshold ≤ b.failures + 1 then some (now + period) else b.openUntil⟩

def Breaker.reset : Breaker := ⟨0, none⟩

/-- The breaker has opened at the time `t` or before. -/
def Breaker.Timed (b : Breaker) (t : Int) : Prop := ∀ u, b.openUntil = some u → u ≤ t + period

/-- The breaker is closed from the time `t` on. -/
def Breaker.Closed (b : Breaker) (t : Int) : Prop := ∀ u, b.openUntil = some u → u ≤ t

/-- The failures that fit between `t` and `t₁`. -/
def Breaker.allowance (b : Breaker) (t : Int) : Int :=
  if b.failures < threshold then threshold - b.failures + (t₁ - t) / period
  else 1 + (t₁ - max t (b.openUntil.getD t)) / period

variable {threshold period t₁} {b : Breaker} {t now : Int}

theorem Breaker.Timed.mono (h : b.Timed period t) (ht : t ≤ now) : b.Timed period now :=
  fun u hu => (h u hu).trans (by omega)

theorem Breaker.Closed.mono (h : b.Closed t) (ht : t ≤ now) : b.Closed now :=
  fun u hu => (h u hu).trans ht

theorem timed_reset (period t : Int) : Breaker.reset.Timed period t := fun _ hu => by cases hu

theorem closed_reset (t : Int) : Breaker.reset.Closed t := fun _ hu => by cases hu

theorem timed_fail (hperiod : 0 ≤ period) (h : b.Closed now) :
    (b.fail threshold period now).Timed period now := by
  intro u hu
  have hu' : (if threshold ≤ b.failures + 1 then some (now + period) else b.openUntil) = some u := hu
  split_ifs at hu'
  · exact (Option.some.inj hu').ge
  · have hle := h u hu'
    omega

/-- **Time takes from the allowance.** -/
theorem allowance_anti (b : Breaker) (threshold : ℕ) (t₁ : Int) (hperiod : 0 < period) (ht : t ≤ now) :
    b.allowance threshold period t₁ now ≤ b.allowance threshold period t₁ t := by
  have hmax : max t (b.openUntil.getD t) ≤ max now (b.openUntil.getD now) := by
    cases b.openUntil with
    | none => simpa using ht
    | some u => exact max_le_max ht le_rfl
  unfold Breaker.allowance
  split_ifs
  · have hdiv := Int.ediv_le_ediv hperiod (show t₁ - now ≤ t₁ - t by omega)
    omega
  · have hdiv := Int.ediv_le_ediv hperiod
      (show t₁ - max now (b.openUntil.getD now) ≤ t₁ - max t (b.openUntil.getD t) by omega)
    omega

/-- **A failure takes one.** -/
theorem allowance_fail (threshold : ℕ) (t₁ : Int) (hperiod : 0 < period) (h : b.Closed t) :
    (b.fail threshold period t).allowance threshold period t₁ t + 1 ≤ b.allowance threshold period t₁ t := by
  have hmax : max t (b.openUntil.getD t) = t := by
    cases hu : b.openUntil with
    | none => exact max_self t
    | some u => exact max_eq_left (h u hu)
  have hopen : (t₁ - (t + period)) / period = (t₁ - t) / period - 1 := by
    rw [show t₁ - (t + period) = t₁ - t + (-1) * period by ring, Int.add_mul_ediv_right _ _ hperiod.ne']
    rfl
  unfold Breaker.allowance Breaker.fail
  rw [hmax]
  by_cases hlast : threshold ≤ b.failures + 1
  · simp only [if_pos hlast, if_neg (show ¬ b.failures + 1 < threshold by omega), Option.getD_some]
    rw [max_eq_right (show t ≤ t + period by omega), hopen]
    split_ifs <;> omega
  · simp only [if_pos (show b.failures + 1 < threshold by omega), if_pos (show b.failures < threshold by omega)]
    push_cast
    omega

/-- What is left of the interval is there, and what the count allows at most. -/
theorem allowance_bounds (t₁ : Int) (hperiod : 0 < period) (hthreshold : 0 < threshold) (h : b.Timed period t) :
    (t₁ - t) / period ≤ b.allowance threshold period t₁ t ∧
      b.allowance threshold period t₁ t ≤ threshold + (t₁ - t) / period := by
  unfold Breaker.allowance
  split_ifs
  · omega
  · have hle : max t (b.openUntil.getD t) ≤ t + period := by
      cases hu : b.openUntil with
      | none => rw [Option.getD_none, max_self]; omega
      | some u => exact max_le (by omega) (h u hu)
    have hlow := Int.ediv_le_ediv hperiod
      (show t₁ - t + (-1) * period ≤ t₁ - max t (b.openUntil.getD t) by omega)
    have hhigh := Int.ediv_le_ediv hperiod
      (show t₁ - max t (b.openUntil.getD t) ≤ t₁ - t by have := le_max_left t (b.openUntil.getD t); omega)
    rw [Int.add_mul_ediv_right _ _ hperiod.ne'] at hlow
    omega

/-- **A reset gives back the threshold at most.** -/
theorem allowance_reset (t₁ : Int) (hperiod : 0 < period) (hthreshold : 0 < threshold) (h : b.Timed period t) :
    Breaker.reset.allowance threshold period t₁ t ≤ b.allowance threshold period t₁ t + threshold := by
  have hreset := (allowance_bounds t₁ hperiod hthreshold (timed_reset period t)).2
  have hlow := (allowance_bounds t₁ hperiod hthreshold h).1
  omega

end Afterglow.Sync.Circuit
