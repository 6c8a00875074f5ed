import Afterglow.Core.Store
import Afterglow.Encoding.Decimal
import Mathlib.Data.List.TakeWhile
import Mathlib.Algebra.Order.Field.Rat
import Mathlib.Tactic.Linarith
import Mathlib.Tactic.Ring

/-! # The price fields of the console

`priceMicros` of `internal/console/web/intake.js` and the conversion in the reserve form of
`internal/console/web/app.js`, from a string to micros. A string is its UTF-16 code units. Numbers are
exact below 2^53, rounded above and infinite at last; `Number` is only applied to digits here, since
both conversions look at the shape of the string first. The regular expression has a unique reading
(`Shape`), nine digits never leave the exact numbers, and a form that was sent more than it can hold
computes something larger than a thousand dollars (`cost_large`). -/

namespace Afterglow.Console.Price

open Afterglow.Core.Model Afterglow.Core.Store Afterglow.Encoding.Decimal

abbrev JsString := List UInt16

/-- Numbers of JavaScript. -/
abbrev Numbers := Rounding (2 ^ 53)

/-! ### Strings -/

/-- White space and line terminators. -/
def isSpace (c : UInt16) : Bool :=
  c ∈ ([0x09, 0x0A, 0x0B, 0x0C, 0x0D, 0x20, 0xA0, 0x1680, 0x2028, 0x2029, 0x202F, 0x205F, 0x3000,
    0xFEFF] : List UInt16) || (0x2000 ≤ c.toNat && c.toNat ≤ 0x200A)

def trim (s : JsString) : JsString := ((s.dropWhile isSpace).reverse.dropWhile isSpace).reverse

/-- `"."`. -/
def point : UInt16 := 46

/-- `s.split(".")`. -/
def split : JsString → List JsString
  | [] => [[]]
  | c :: s =>
    if c = point then [] :: split s
    else
      match split s with
      | [] => [[c]]
      | p :: ps => (c :: p) :: ps

/-- `s.padEnd(n, "0")`. -/
def padEnd (s : JsString) (n : ℕ) : JsString := s ++ List.replicate (n - s.length) 48

/-- The test of `/^\d+(\.\d{1,2})?$/`. What follows the digits has to be the point or the end, so the
digits are as many as there are. -/
def amount (s : JsString) : Bool :=
  let digits := s.takeWhile isDigit
  1 ≤ digits.length &&
    match s.dropWhile isDigit with
    | [] => true
    | c :: cents => c == point && cents.all isDigit && 1 ≤ cents.length && cents.length ≤ 2

/-- The test of `/^\d{1,9}(\.\d{1,2})?$/`. -/
def shortAmount (s : JsString) : Bool := amount s && (s.takeWhile isDigit).length ≤ 9

/-- `Number` of a string of digits. -/
def number (R : Numbers) (s : JsString) : WithTop ℕ := R.round (value s)

/-- `const [whole, cents = ""] = s.split(".")`. -/
def parts (s : JsString) : JsString × JsString := ((split s).getD 0 [], (split s).getD 1 [])

/-! ### The two conversions -/

inductive PriceErr
  | shape
  | tooLarge
  | tooSmall
  deriving DecidableEq, Repr

/-- `priceMicros`, with `price` what was entered. -/
def priceMicros (R : Numbers) (price : JsString) : Except PriceErr (WithTop ℕ) :=
  let s := trim price
  if !shortAmount s then .error .shape
  else
    let micros := R.mul (R.add (R.mul (number R (parts s).1) 100) (number R (padEnd (parts s).2 2))) 10000
    if 10000000 < micros then .error .tooLarge
    else if micros < 10000 then .error .tooSmall
    else .ok micros

inductive FormErr
  | shape
  | range
  deriving DecidableEq, Repr

/-- `Number.isSafeInteger`, for numbers that are whole and not negative. -/
def isSafeInteger : WithTop ℕ → Bool
  | ⊤ => false
  | (n : ℕ) => n < 2 ^ 53

/-- The price the reserve form sends for what was entered. -/
def formCost (R : Numbers) (raw : JsString) : Except FormErr (WithTop ℕ) :=
  if !amount raw then .error .shape
  else
    let cost := R.add (R.mul (number R (parts raw).1) 1000000) (R.mul (number R (padEnd (parts raw).2 2)) 10000)
    if !isSafeInteger cost || cost ≤ 0 || 1000000000 < cost then .error .range
    else .ok cost

/-! ### The shape of an amount

Digits, then nothing or a point with one or two digits. -/

structure Shape (s ds cs : JsString) : Prop where
  digits : ∀ d ∈ ds, isDigit d = true
  nonempty : ds ≠ []
  cents : ∀ d ∈ cs, isDigit d = true
  short : cs.length ≤ 2
  text : s = if cs = [] then ds else ds ++ point :: cs

/-- The decimal value of an amount, in dollars. -/
def dollars (ds cs : JsString) : ℚ := value ds + value cs / 10 ^ cs.length

/-- The same in cents, as both conversions compute it. -/
def inCents (ds cs : JsString) : ℕ := 100 * value ds + value (padEnd cs 2)

theorem point_not_digit : isDigit point = false := by decide

theorem amount_of_shape {s ds cs : JsString} (h : Shape s ds cs) :
    amount s = true ∧ s.takeWhile isDigit = ds := by
  have hlen : 1 ≤ ds.length := List.length_pos_iff.mpr h.nonempty
  have htext := h.text
  by_cases hcs : cs = []
  · rw [if_pos hcs] at htext
    have htake : ds.takeWhile isDigit = ds := List.takeWhile_eq_self_iff.mpr h.digits
    have hdrop : ds.dropWhile isDigit = [] := List.dropWhile_eq_nil_iff.mpr h.digits
    subst htext
    exact ⟨by simp [amount, htake, hdrop, hlen], htake⟩
  · rw [if_neg hcs] at htext
    have htake : s.takeWhile isDigit = ds := by
      rw [htext, List.takeWhile_append_of_pos h.digits,
        List.takeWhile_cons_of_neg (by rw [point_not_digit]; decide), List.append_nil]
    have hdrop : s.dropWhile isDigit = point :: cs := by
      rw [htext, List.dropWhile_append_of_pos h.digits,
        List.dropWhile_cons_of_neg (by rw [point_not_digit]; decide)]
    have hpos : 1 ≤ cs.length := List.length_pos_iff.mpr hcs
    exact ⟨by simp [amount, htake, hdrop, hlen, hpos, h.short]; exact h.cents, htake⟩

theorem shape_of_amount {s : JsString} (h : amount s = true) : ∃ ds cs, Shape s ds cs := by
  have hs : s.takeWhile isDigit ++ s.dropWhile isDigit = s := List.takeWhile_append_dropWhile
  have hds : ∀ d ∈ s.takeWhile isDigit, isDigit d = true := fun _ => List.mem_takeWhile_imp
  simp only [amount, Bool.and_eq_true, decide_eq_true_eq] at h
  obtain ⟨hlen, h⟩ := h
  have hne : s.takeWhile isDigit ≠ [] := List.length_pos_iff.mp hlen
  split at h
  case h_1 hdrop =>
    rw [hdrop, List.append_nil] at hs
    exact ⟨_, [], hds, hne, nofun, Nat.zero_le _, by simp [hs]⟩
  case h_2 c cents hdrop =>
    simp only [Bool.and_eq_true, beq_iff_eq, decide_eq_true_eq, List.all_eq_true] at h
    obtain ⟨⟨⟨rfl, hcents⟩, hpos⟩, hshort⟩ := h
    rw [hdrop] at hs
    exact ⟨_, cents, hds, hne, hcents, hshort, by rw [if_neg (List.length_pos_iff.mp hpos), hs]⟩

theorem not_mem_point {ds : JsString} (h : ∀ d ∈ ds, isDigit d = true) : point ∉ ds := by
  intro hmem
  have := h point hmem
  rw [point_not_digit] at this
  exact Bool.noConfusion this

theorem split_append {ds : JsString} (h : point ∉ ds) (r : JsString) :
    split (ds ++ point :: r) = ds :: split r := by
  induction ds with
  | nil => simp [split]
  | cons d ds ih =>
    obtain ⟨hd, hds⟩ := not_or.mp (mt List.mem_cons.mpr h)
    rw [List.cons_append, split, if_neg (Ne.symm hd), ih hds]

theorem split_self {ds : JsString} (h : point ∉ ds) : split ds = [ds] := by
  induction ds with
  | nil => rfl
  | cons d ds ih =>
    obtain ⟨hd, hds⟩ := not_or.mp (mt List.mem_cons.mpr h)
    rw [split, if_neg (Ne.symm hd), ih hds]

theorem parts_of_shape {s ds cs : JsString} (h : Shape s ds cs) : parts s = (ds, cs) := by
  have htext := h.text
  by_cases hcs : cs = []
  · rw [if_pos hcs] at htext
    rw [htext, hcs, parts, split_self (not_mem_point h.digits)]
    rfl
  · rw [if_neg hcs] at htext
    rw [htext, parts, split_append (not_mem_point h.digits), split_self (not_mem_point h.cents)]
    rfl

/-! ### Cents -/

theorem value_padEnd {cs : JsString} (h : cs.length ≤ 2) :
    (value (padEnd cs 2) : ℚ) = 100 * (value cs / 10 ^ cs.length) := by
  match cs with
  | [] => simp [padEnd, value]
  | [c] =>
    simp [padEnd, value]
    ring
  | [c, d] =>
    simp [padEnd, value]
    ring

theorem padEnd_digits {cs : JsString} (h : ∀ d ∈ cs, isDigit d = true) :
    ∀ d ∈ padEnd cs 2, isDigit d = true := by
  intro d hd
  rcases List.mem_append.mp hd with hd | hd
  · exact h d hd
  · rw [List.eq_of_mem_replicate hd]
    decide

theorem padEnd_length {cs : JsString} (h : cs.length ≤ 2) : (padEnd cs 2).length = 2 := by
  rw [padEnd, List.length_append, List.length_replicate]
  omega

theorem Shape.padded_lt {s ds cs : JsString} (h : Shape s ds cs) : value (padEnd cs 2) < 100 := by
  have := value_lt (padEnd_digits h.cents)
  rwa [padEnd_length h.short] at this

theorem Shape.inCents_eq {s ds cs : JsString} (h : Shape s ds cs) :
    (inCents ds cs : ℚ) = 100 * dollars ds cs := by
  rw [inCents, dollars, Nat.cast_add, Nat.cast_mul, value_padEnd h.short]
  push_cast
  ring

/-- A bound in cents is the bound in dollars. -/
theorem Shape.bounds_iff {s ds cs : JsString} (h : Shape s ds cs) (n : ℕ) :
    (1 ≤ inCents ds cs ∧ inCents ds cs ≤ 100 * n) ↔
      (1 / 100 ≤ dollars ds cs ∧ dollars ds cs ≤ n) := by
  have heq := h.inCents_eq
  have hlow : 1 ≤ inCents ds cs ↔ (1 : ℚ) ≤ inCents ds cs := by exact_mod_cast Iff.rfl
  have hhigh : inCents ds cs ≤ 100 * n ↔ (inCents ds cs : ℚ) ≤ 100 * n := by exact_mod_cast Iff.rfl
  rw [hlow, hhigh, heq]
  constructor
  · rintro ⟨h1, h2⟩
    exact ⟨by linarith, by linarith⟩
  · rintro ⟨h1, h2⟩
    exact ⟨by linarith, by linarith⟩

/-! ### What the conversions accept -/

theorem number_exact {R : Numbers} {ds : JsString} (h : value ds < 2 ^ 53) : number R ds = value ds :=
  R.exact _ h

theorem Shape.number_padded {s ds cs : JsString} (h : Shape s ds cs) (R : Numbers) :
    number R (padEnd cs 2) = value (padEnd cs 2) := by
  have := h.padded_lt
  exact number_exact (by omega)

/-- Nine digits leave every step below 2^53. -/
theorem Shape.micros_exact {s ds cs : JsString} (h : Shape s ds cs) (hlen : ds.length ≤ 9) (R : Numbers) :
    R.mul (R.add (R.mul (number R ds) 100) (number R (padEnd cs 2))) 10000 =
      ((inCents ds cs * 10000 : ℕ) : WithTop ℕ) := by
  have hpad := h.padded_lt
  have hval : value ds < 10 ^ 9 :=
    lt_of_lt_of_le (value_lt h.digits) (Nat.pow_le_pow_right (by decide) hlen)
  have hadd : value ds * 100 + value (padEnd cs 2) = inCents ds cs := by
    rw [inCents, Nat.mul_comm]
  rw [h.number_padded R, number_exact (by omega), R.mul_exact (by omega), R.add_exact (by omega), hadd,
    R.mul_exact (by omega)]

/-- Up to a thousand dollars the form computes the micros, and from a thousand and one on what it
computes is too large, however much was rounded. -/
theorem Shape.cost_exact {s ds cs : JsString} (h : Shape s ds cs) (hval : value ds ≤ 1000) (R : Numbers) :
    R.add (R.mul (number R ds) 1000000) (R.mul (number R (padEnd cs 2)) 10000) =
      ((inCents ds cs * 10000 : ℕ) : WithTop ℕ) := by
  have hpad := h.padded_lt
  have hadd : value ds * 1000000 + value (padEnd cs 2) * 10000 = inCents ds cs * 10000 := by
    rw [inCents]
    ring
  rw [h.number_padded R, number_exact (by omega), R.mul_exact (by omega), R.mul_exact (by omega),
    R.add_exact (by omega), hadd]

theorem cost_large {ds : JsString} (hval : 1000 < value ds) (R : Numbers) (x : WithTop ℕ) :
    1000000000 < R.add (R.mul (number R ds) 1000000) x := by
  have hnum : ((1001 : ℕ) : WithTop ℕ) ≤ number R ds := R.le_round (by norm_num) hval
  have hmul := R.le_mul (k := 1000000) (by norm_num) hnum
  have hadd := R.le_add (y := x) (by norm_num) hmul
  have hlt : (1000000000 : WithTop ℕ) < ((1001 * 1000000 : ℕ) : WithTop ℕ) := by norm_cast
  exact lt_of_lt_of_le hlt hadd

theorem micros_too_large (n : ℕ) : (10000000 : WithTop ℕ) < ((n * 10000 : ℕ) : WithTop ℕ) ↔ 1000 < n := by
  norm_cast
  omega

theorem micros_too_small (n : ℕ) : ((n * 10000 : ℕ) : WithTop ℕ) < (10000 : WithTop ℕ) ↔ n < 1 := by
  norm_cast
  omega

/-- **`priceMicros`.** What it returns, and for which strings. -/
theorem priceMicros_ok_iff (R : Numbers) (s : JsString) (x : WithTop ℕ) :
    priceMicros R s = .ok x ↔
      ∃ ds cs, Shape (trim s) ds cs ∧ ds.length ≤ 9 ∧ (1 ≤ inCents ds cs ∧ inCents ds cs ≤ 100 * 10) ∧
        x = ((inCents ds cs * 10000 : ℕ) : WithTop ℕ) := by
  constructor
  · intro h
    unfold priceMicros at h
    by_cases hshort : shortAmount (trim s) = true
    case neg => simp [hshort] at h
    obtain ⟨hamount, hlen⟩ := Bool.and_eq_true _ _ ▸ hshort
    obtain ⟨ds, cs, hs⟩ := shape_of_amount hamount
    rw [(amount_of_shape hs).2, decide_eq_true_eq] at hlen
    simp only [hshort, parts_of_shape hs, hs.micros_exact hlen R, micros_too_large, micros_too_small] at h
    split_ifs at h with _ hlarge hsmall
    exact ⟨ds, cs, hs, hlen, ⟨by omega, by omega⟩, (Except.ok.inj h).symm⟩
  · rintro ⟨ds, cs, hs, hlen, ⟨hlow, hhigh⟩, rfl⟩
    obtain ⟨hamount, htake⟩ := amount_of_shape hs
    have hshort : shortAmount (trim s) = true := by simp [shortAmount, hamount, htake, hlen]
    unfold priceMicros
    simp only [hshort, parts_of_shape hs, hs.micros_exact hlen R, micros_too_large, micros_too_small]
    rw [if_neg (by decide), if_neg (by omega), if_neg (by omega)]

/-- The range the form checks, of a whole number of cents. -/
theorem cost_in_range (n : ℕ) :
    (!isSafeInteger ((n * 10000 : ℕ) : WithTop ℕ) || ((n * 10000 : ℕ) : WithTop ℕ) ≤ 0 ||
      (1000000000 : WithTop ℕ) < ((n * 10000 : ℕ) : WithTop ℕ)) = false ↔ 1 ≤ n ∧ n ≤ 100 * 1000 := by
  have hsafe : isSafeInteger ((n * 10000 : ℕ) : WithTop ℕ) = decide (n * 10000 < 2 ^ 53) := rfl
  have hpos : ((n * 10000 : ℕ) : WithTop ℕ) ≤ 0 ↔ n * 10000 ≤ 0 := by norm_cast
  have hlarge : (1000000000 : WithTop ℕ) < ((n * 10000 : ℕ) : WithTop ℕ) ↔ 1000000000 < n * 10000 := by
    norm_cast
  simp only [hsafe, hpos, hlarge, Bool.or_eq_false_iff, Bool.not_eq_false', decide_eq_true_eq,
    decide_eq_false_iff_not]
  omega

/-- **The form.** What it sends, and for which strings. -/
theorem formCost_ok_iff (R : Numbers) (s : JsString) (x : WithTop ℕ) :
    formCost R s = .ok x ↔
      ∃ ds cs, Shape s ds cs ∧ (1 ≤ inCents ds cs ∧ inCents ds cs ≤ 100 * 1000) ∧
        x = ((inCents ds cs * 10000 : ℕ) : WithTop ℕ) := by
  constructor
  · intro h
    unfold formCost at h
    by_cases hamount : amount s = true
    case neg => simp [hamount] at h
    obtain ⟨ds, cs, hs⟩ := shape_of_amount hamount
    by_cases hval : value ds ≤ 1000
    · simp only [hamount, parts_of_shape hs, hs.cost_exact hval R] at h
      split_ifs at h with _ hrange
      exact ⟨ds, cs, hs, (cost_in_range _).mp (Bool.eq_false_iff.mpr hrange), (Except.ok.inj h).symm⟩
    · have hlarge := cost_large (Nat.lt_of_not_le hval) R (R.mul (number R (padEnd cs 2)) 10000)
      simp only [hamount, parts_of_shape hs] at h
      split_ifs at h with _ hrange
      exact absurd (by simp [hlarge]) hrange
  · rintro ⟨ds, cs, hs, hbounds, rfl⟩
    have hval : value ds ≤ 1000 := by
      have := hbounds.2
      unfold inCents at this
      omega
    have hrange := (cost_in_range _).mpr hbounds
    unfold formCost
    simp only [(amount_of_shape hs).1, parts_of_shape hs, hs.cost_exact hval R]
    rw [if_neg (by decide), if_neg (Bool.eq_false_iff.mp hrange)]

/-! ### Trimming -/

theorem not_space_of_digit {c : UInt16} (h : isDigit c = true) : isSpace c = false := by
  have hc := of_decide_eq_true h
  have hne : ∀ n : UInt16, n.toNat < 48 ∨ 57 < n.toNat → c ≠ n := by
    rintro n hn rfl
    omega
  have hlist : c ∉ ([0x09, 0x0A, 0x0B, 0x0C, 0x0D, 0x20, 0xA0, 0x1680, 0x2028, 0x2029, 0x202F, 0x205F,
      0x3000, 0xFEFF] : List UInt16) := by
    simp only [List.mem_cons, List.not_mem_nil, not_or]
    refine ⟨?_, ?_, ?_, ?_, ?_, ?_, ?_, ?_, ?_, ?_, ?_, ?_, ?_, ?_, not_false⟩ <;>
      exact hne _ (by decide)
  simp only [isSpace, hlist, decide_false, Bool.false_or, Bool.and_eq_false_iff, decide_eq_false_iff_not]
  omega

theorem trim_self {s : JsString} (h : ∀ c ∈ s, isSpace c = false) : trim s = s := by
  have hdrop : ∀ l : JsString, (∀ c ∈ l, isSpace c = false) → l.dropWhile isSpace = l := by
    intro l hl
    refine List.dropWhile_eq_self_iff.mpr fun hlen => ?_
    rw [hl _ (List.getElem_mem hlen)]
    exact Bool.false_ne_true
  rw [trim, hdrop s h, hdrop s.reverse fun c hc => h c (List.mem_reverse.mp hc), List.reverse_reverse]

/-- An amount has no white space around it. -/
theorem Shape.trim_eq {s ds cs : JsString} (h : Shape s ds cs) : trim s = s := by
  refine trim_self fun c hc => ?_
  rw [h.text] at hc
  split_ifs at hc
  · exact not_space_of_digit (h.digits c hc)
  · rcases List.mem_append.mp hc with hc | hc
    · exact not_space_of_digit (h.digits c hc)
    · rcases List.mem_cons.mp hc with rfl | hc
      · decide
      · exact not_space_of_digit (h.cents c hc)

/-! ### Both conversions -/

/-- The micros of an amount: its exact value, whole cents, and in the range that `Reserve` accepts. -/
def Exact (s : JsString) (x : WithTop ℕ) : Prop :=
  ∃ ds cs, ∃ micros : ℕ, Shape s ds cs ∧ x = micros ∧ (micros : ℚ) = dollars ds cs * 1000000 ∧
    10000 ∣ micros ∧ 10000 ≤ micros ∧ 1 ≤ micros ∧ micros ≤ 1000000000 ∧
    ∀ key campaign screen, validID key = true → validID campaign = true → validID screen = true →
      validReserve key ⟨campaign, screen, micros⟩ = true

theorem Shape.exact {s ds cs : JsString} (h : Shape s ds cs) (hlow : 1 ≤ inCents ds cs)
    (hhigh : inCents ds cs ≤ 100 * 1000) : Exact s ((inCents ds cs * 10000 : ℕ) : WithTop ℕ) := by
  refine ⟨ds, cs, inCents ds cs * 10000, h, rfl, ?_, Nat.dvd_mul_left _ _, by omega, by omega, by omega, ?_⟩
  · rw [Nat.cast_mul, h.inCents_eq]
    push_cast
    ring
  · intro key campaign screen hkey hcampaign hscreen
    have hpos : ¬ (((inCents ds cs * 10000 : ℕ) : ℤ) ≤ 0) := by omega
    have hmax : ¬ ((1000000000 : ℤ) < ((inCents ds cs * 10000 : ℕ) : ℤ)) := by omega
    simp only [validReserve, hkey, hcampaign, hscreen, hpos, hmax]
    decide

/-- **Both price fields are exact and agree with the server.** -/
theorem prices_exact (R : Numbers) (s : JsString) :
    (∀ x, priceMicros R s = .ok x → Exact (trim s) x) ∧
    (∀ x, formCost R s = .ok x → Exact s x) ∧
    (∀ x y, priceMicros R s = .ok x → formCost R s = .ok y → x = y) ∧
    ((∃ x, formCost R s = .ok x) ↔
      ∃ ds cs, Shape s ds cs ∧ 1 / 100 ≤ dollars ds cs ∧ dollars ds cs ≤ 1000) ∧
    ((∃ x, priceMicros R s = .ok x) ↔
      ∃ ds cs, Shape (trim s) ds cs ∧ ds.length ≤ 9 ∧ 1 / 100 ≤ dollars ds cs ∧ dollars ds cs ≤ 10) := by
  refine ⟨?_, ?_, ?_, ?_, ?_⟩
  · intro x hx
    obtain ⟨ds, cs, hs, -, ⟨hlow, hhigh⟩, rfl⟩ := (priceMicros_ok_iff R s x).mp hx
    exact hs.exact hlow (by omega)
  · intro x hx
    obtain ⟨ds, cs, hs, ⟨hlow, hhigh⟩, rfl⟩ := (formCost_ok_iff R s x).mp hx
    exact hs.exact hlow hhigh
  · intro x y hx hy
    obtain ⟨ds, cs, hs, -, -, rfl⟩ := (priceMicros_ok_iff R s x).mp hx
    obtain ⟨ds', cs', hs', -, rfl⟩ := (formCost_ok_iff R s y).mp hy
    rw [hs'.trim_eq] at hs
    have hparts : (ds, cs) = (ds', cs') := (parts_of_shape hs).symm.trans (parts_of_shape hs')
    obtain ⟨rfl, rfl⟩ := Prod.mk.inj hparts
    rfl
  · constructor
    · rintro ⟨x, hx⟩
      obtain ⟨ds, cs, hs, hbounds, -⟩ := (formCost_ok_iff R s x).mp hx
      exact ⟨ds, cs, hs, (hs.bounds_iff 1000).mp hbounds⟩
    · rintro ⟨ds, cs, hs, hbounds⟩
      exact ⟨_, (formCost_ok_iff R s _).mpr ⟨ds, cs, hs, (hs.bounds_iff 1000).mpr hbounds, rfl⟩⟩
  · constructor
    · rintro ⟨x, hx⟩
      obtain ⟨ds, cs, hs, hlen, hbounds, -⟩ := (priceMicros_ok_iff R s x).mp hx
      exact ⟨ds, cs, hs, hlen, (hs.bounds_iff 10).mp hbounds⟩
    · rintro ⟨ds, cs, hs, hlen, hbounds⟩
      exact ⟨_, (priceMicros_ok_iff R s _).mpr ⟨ds, cs, hs, hlen, (hs.bounds_iff 10).mpr hbounds, rfl⟩⟩

/-- Numbers that overflow at once. -/
def overflowing : Numbers where
  round n := if n < 2 ^ 53 then (n : WithTop ℕ) else ⊤
  exact n h := if_pos h
  mono m n h := by
    by_cases hn : n < 2 ^ 53
    · rw [if_pos hn, if_pos (lt_of_le_of_lt h hn)]
      exact_mod_cast h
    · rw [if_neg hn]
      exact le_top

/-- `" 7.5 "` and `"0007.50"` cost the same, and what overflows is refused. -/
example :
    priceMicros overflowing [32, 55, 46, 53, 32] = .ok 7500000 ∧
    formCost overflowing [48, 48, 48, 55, 46, 53, 48] = .ok 7500000 ∧
    formCost overflowing [32, 55, 46, 53, 32] = .error .shape ∧
    formCost overflowing (List.replicate 17 57) = .error .range := by
  decide +kernel

end Afterglow.Console.Price
