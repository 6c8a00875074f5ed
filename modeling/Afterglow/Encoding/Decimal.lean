import Mathlib.Algebra.Group.Nat.Defs
import Mathlib.Data.List.Induction
import Mathlib.Algebra.Order.Monoid.Unbundled.WithTop
import Mathlib.Tactic.Common

/-! # Decimal digits and rounded integers

The value of a string of digits, its code units 48 to 57, and integers that are exact up to a limit and
rounded above it. Rounding keeps the order, so a result that is small enough to be exact is the true
one, and what is too large stays too large (`Rounding.le_mul`, `Rounding.le_add`). -/

namespace Afterglow.Encoding.Decimal

/-! ### Digits -/

def isDigit (c : UInt16) : Bool := 48 ≤ c.toNat ∧ c.toNat ≤ 57

/-- The number a string of digits is. -/
def value (ds : List UInt16) : ℕ := ds.foldl (fun n d => 10 * n + (d.toNat - 48)) 0

theorem value_snoc (ds : List UInt16) (d : UInt16) : value (ds ++ [d]) = 10 * value ds + (d.toNat - 48) := by
  simp [value]

theorem digit_le {d : UInt16} (h : isDigit d = true) : d.toNat - 48 ≤ 9 := by
  have hd := of_decide_eq_true h
  omega

theorem value_lt {ds : List UInt16} (h : ∀ d ∈ ds, isDigit d = true) : value ds < 10 ^ ds.length := by
  induction ds using List.reverseRecOn with
  | nil => exact Nat.one_pos
  | append_singleton ds d ih =>
    have hds := ih fun c hc => h c (List.mem_append_left _ hc)
    have hd := digit_le (h d (by simp))
    rw [value_snoc, List.length_append, List.length_singleton, Nat.pow_succ]
    omega

/-! ### Rounding -/

/-- Rounding to a number, which may be infinite: exact below `limit` and monotone. -/
structure Rounding (limit : ℕ) where
  round : ℕ → WithTop ℕ
  exact : ∀ n, n < limit → round n = n
  mono : ∀ m n, m ≤ n → round m ≤ round n

variable {limit : ℕ} (R : Rounding limit)

/-- A product by a whole number. -/
def Rounding.mul : WithTop ℕ → ℕ → WithTop ℕ
  | ⊤, _ => ⊤
  | (n : ℕ), k => R.round (n * k)

def Rounding.add : WithTop ℕ → WithTop ℕ → WithTop ℕ
  | ⊤, _ => ⊤
  | _, ⊤ => ⊤
  | (m : ℕ), (n : ℕ) => R.round (m + n)

theorem Rounding.mul_exact {n k : ℕ} (h : n * k < limit) : R.mul n k = ((n * k : ℕ) : WithTop ℕ) :=
  R.exact _ h

theorem Rounding.add_exact {m n : ℕ} (h : m + n < limit) : R.add m n = ((m + n : ℕ) : WithTop ℕ) :=
  R.exact _ h

theorem Rounding.le_round {m n : ℕ} (hm : m < limit) (h : m ≤ n) : (m : WithTop ℕ) ≤ R.round n := by
  rw [← R.exact m hm]
  exact R.mono m n h

theorem Rounding.le_mul {m k : ℕ} {x : WithTop ℕ} (hm : m * k < limit) (h : (m : WithTop ℕ) ≤ x) :
    ((m * k : ℕ) : WithTop ℕ) ≤ R.mul x k := by
  induction x with
  | top => exact le_top
  | coe n => exact R.le_round hm (Nat.mul_le_mul_right k (WithTop.coe_le_coe.mp h))

theorem Rounding.le_add {m : ℕ} {x y : WithTop ℕ} (hm : m < limit) (h : (m : WithTop ℕ) ≤ x) :
    (m : WithTop ℕ) ≤ R.add x y := by
  induction x with
  | top => exact le_top
  | coe n =>
    induction y with
    | top => exact le_top
    | coe k => exact R.le_round hm (le_trans (WithTop.coe_le_coe.mp h) (Nat.le_add_right n k))

end Afterglow.Encoding.Decimal
