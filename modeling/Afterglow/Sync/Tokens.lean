import Mathlib.Algebra.Order.Field.Basic
import Mathlib.Tactic.Linarith
import Mathlib.Tactic.Ring

/-! # Token buckets

A bucket fills at a constant rate up to its capacity, and a call takes tokens out of it if there are
enough. Over an interval of time the calls can take no more than the capacity and what flows in: `Within`
is the account that shows it, kept by each call (`Within.take`), whether the last call lies before, in or
after the interval. -/

namespace Afterglow.Sync.Tokens

structure Bucket (K : Type) where
  tokens : K
  last : K
  deriving DecidableEq

variable {K : Type} [Field K] [LinearOrder K]

/-- The tokens at the time `now`. -/
def Bucket.refilled (rate cap : K) (b : Bucket K) (now : K) : K :=
  let t := b.tokens + (now - b.last) * rate
  if cap < t then cap else t

/-- A call at the time `now` that asks for `cost` tokens: whether it is granted, and the bucket after. -/
def Bucket.take (rate cap : K) (b : Bucket K) (now cost : K) : Bool × Bucket K :=
  let t := b.refilled rate cap now
  if t < cost then (false, ⟨t, now⟩) else (true, ⟨t - cost, now⟩)

/-- The bucket is neither overdrawn nor overfull. -/
structure Bucket.Fair (cap : K) (b : Bucket K) : Prop where
  nonneg : 0 ≤ b.tokens
  le_cap : b.tokens ≤ cap

/-- **What was taken in the interval** from `t₀` to `t₁`, by where the last call lies. -/
structure Within (rate cap t₀ t₁ : K) (b : Bucket K) (taken : K) : Prop where
  before : b.last < t₀ → taken = 0
  during : t₀ ≤ b.last → b.last ≤ t₁ → b.tokens + taken ≤ cap + rate * (b.last - t₀)
  after : t₀ ≤ b.last → t₁ < b.last → taken ≤ cap + rate * (t₁ - t₀)

section Calls

variable {rate cap t₀ t₁ now cost taken : K} {b : Bucket K}

theorem refilled_le (b : Bucket K) (now : K) : b.refilled rate cap now ≤ cap := by
  unfold Bucket.refilled
  dsimp only
  split_ifs with h
  · exact le_rfl
  · exact not_lt.mp h

theorem refilled_le_add (b : Bucket K) (now : K) :
    b.refilled rate cap now ≤ b.tokens + (now - b.last) * rate := by
  unfold Bucket.refilled
  dsimp only
  split_ifs with h
  · exact h.le
  · exact le_rfl

theorem take_last : (b.take rate cap now cost).2.last = now := by
  unfold Bucket.take
  dsimp only
  split_ifs <;> rfl

variable [IsStrictOrderedRing K]

theorem Bucket.Fair.refilled (h : b.Fair cap) (hrate : 0 ≤ rate) (hnow : b.last ≤ now) :
    0 ≤ b.refilled rate cap now := by
  have hflow : 0 ≤ (now - b.last) * rate := mul_nonneg (sub_nonneg.mpr hnow) hrate
  have hpos := h.nonneg
  have hcap := h.le_cap
  unfold Bucket.refilled
  dsimp only
  split_ifs
  · linarith
  · linarith

/-- **A call keeps the bucket in its bounds.** -/
theorem Bucket.Fair.take (h : b.Fair cap) (hrate : 0 ≤ rate) (hnow : b.last ≤ now) (hcost : 0 ≤ cost) :
    (b.take rate cap now cost).2.Fair cap := by
  have hpos := h.refilled hrate hnow
  have hle := @refilled_le _ _ _ rate cap b now
  unfold Bucket.take
  dsimp only
  split_ifs with hfew
  · exact ⟨hpos, hle⟩
  · refine ⟨?_, ?_⟩
    · show 0 ≤ b.refilled rate cap now - cost
      linarith
    · show b.refilled rate cap now - cost ≤ cap
      linarith

/-- A bucket nothing was taken from. -/
theorem Within.start (h : b.Fair cap) (hrate : 0 ≤ rate) (ht : t₀ ≤ t₁) : Within rate cap t₀ t₁ b 0 where
  before _ := rfl
  during hlast _ := by
    have hflow : 0 ≤ rate * (b.last - t₀) := mul_nonneg hrate (sub_nonneg.mpr hlast)
    have hcap := h.le_cap
    linarith
  after _ _ := by
    have hflow : 0 ≤ rate * (t₁ - t₀) := mul_nonneg hrate (sub_nonneg.mpr ht)
    have hpos := h.nonneg
    have hcap := h.le_cap
    linarith

/-- The account at any time. -/
theorem Within.le (h : Within rate cap t₀ t₁ b taken) (hb : b.Fair cap) (hrate : 0 ≤ rate)
    (ht : t₀ ≤ t₁) : taken ≤ cap + rate * (t₁ - t₀) := by
  have hpos := hb.nonneg
  have hcap := hb.le_cap
  have hflow : 0 ≤ rate * (t₁ - t₀) := mul_nonneg hrate (sub_nonneg.mpr ht)
  rcases lt_or_ge b.last t₀ with hlast | hlast
  · rw [h.before hlast]
    linarith
  · rcases le_or_gt b.last t₁ with hend | hend
    · have hduring := h.during hlast hend
      have hmono : rate * (b.last - t₀) ≤ rate * (t₁ - t₀) :=
        mul_le_mul_of_nonneg_left (by linarith) hrate
      linarith
    · exact h.after hlast hend

/-- The bucket is refilled and `c` tokens are taken. -/
theorem Within.pour (h : Within rate cap t₀ t₁ b taken) (hb : b.Fair cap) (hrate : 0 ≤ rate)
    (ht : t₀ ≤ t₁) (hnow : b.last ≤ now) (c : K) :
    Within rate cap t₀ t₁ ⟨b.refilled rate cap now - c, now⟩
      (taken + if t₀ ≤ now ∧ now ≤ t₁ then c else 0) where
  before hlt := by
    have hlt : now < t₀ := hlt
    rw [h.before (lt_of_le_of_lt hnow hlt), if_neg fun hin => absurd hin.1 (not_le.mpr hlt), add_zero]
  during hle hend := by
    have hle : t₀ ≤ now := hle
    have hcap := @refilled_le _ _ _ rate cap b now
    have hadd := @refilled_le_add _ _ _ rate cap b now
    rw [if_pos ⟨hle, hend⟩]
    show b.refilled rate cap now - c + (taken + c) ≤ cap + rate * (now - t₀)
    rcases lt_or_ge b.last t₀ with hlast | hlast
    · have hflow : 0 ≤ rate * (now - t₀) := mul_nonneg hrate (sub_nonneg.mpr hle)
      rw [h.before hlast]
      linarith
    · have hduring := h.during hlast (hnow.trans hend)
      have hsplit : rate * (now - t₀) = rate * (b.last - t₀) + (now - b.last) * rate := by ring
      rw [hsplit]
      linarith
  after _ hend := by
    have hend : t₁ < now := hend
    rw [if_neg fun hin => absurd hin.2 (not_le.mpr hend), add_zero]
    exact h.le hb hrate ht

/-- **One more call**: what it takes counts if it is granted in the interval. -/
theorem Within.take (h : Within rate cap t₀ t₁ b taken) (hb : b.Fair cap) (hrate : 0 ≤ rate)
    (ht : t₀ ≤ t₁) (hnow : b.last ≤ now) (cost : K) :
    Within rate cap t₀ t₁ (b.take rate cap now cost).2
      (taken + if t₀ ≤ now ∧ now ≤ t₁ then (if (b.take rate cap now cost).1 then cost else 0) else 0) := by
  by_cases hfew : b.refilled rate cap now < cost
  · have htake : b.take rate cap now cost = (false, ⟨b.refilled rate cap now, now⟩) := if_pos hfew
    have hpour := h.pour hb hrate ht hnow 0
    rw [sub_zero] at hpour
    simpa [htake] using hpour
  · have htake : b.take rate cap now cost = (true, ⟨b.refilled rate cap now - cost, now⟩) := if_neg hfew
    simpa [htake] using h.pour hb hrate ht hnow cost

end Calls

end Afterglow.Sync.Tokens
