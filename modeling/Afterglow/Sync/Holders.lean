import Mathlib.Data.Fintype.Basic
import Mathlib.Logic.Function.Basic

/-! # Locks by who holds them

A reader/writer lock is given by who holds it, and how: `f i` is the mode in which party `i` holds it.
`Grants f m` says that nobody's hold is in the way of a hold in mode `m`; a mutex is a lock that is only
held in mode `write`. `Excl` is what a lock is for: who writes is alone. It is kept as long as a party
lets go of the lock, stays where it is, or takes the lock when it is granted (`Excl.update`). -/

namespace Afterglow.Sync.Holders

inductive Mode
  | read
  | write
  deriving DecidableEq, Repr

variable {ι : Type} {f : ι → Option Mode}

/-- The lock can be taken in mode `m`. -/
def Grants (f : ι → Option Mode) : Mode → Prop
  | .read => ∀ j, f j ≠ some .write
  | .write => ∀ j, f j = none

instance [Fintype ι] (f : ι → Option Mode) : (m : Mode) → Decidable (Grants f m)
  | .read => inferInstanceAs (Decidable (∀ j, f j ≠ some .write))
  | .write => inferInstanceAs (Decidable (∀ j, f j = none))

/-- **Who writes is alone.** -/
def Excl (f : ι → Option Mode) : Prop := ∀ i j, f i = some .write → f j ≠ none → i = j

theorem Excl.alone (h : Excl f) {i j : ι} (hi : f i = some .write) (hj : j ≠ i) : f j = none := by
  by_contra hne
  exact hj (h i j hi hne).symm

/-- What a party may do to its hold: let go, keep it, or take what is granted. -/
def Moves (f : ι → Option Mode) (i : ι) (v : Option Mode) : Prop :=
  v = none ∨ v = f i ∨ ∃ m, v = some m ∧ Grants f m

variable [DecidableEq ι]

theorem Excl.update (h : Excl f) {i : ι} {v : Option Mode} (hv : Moves f i v) :
    Excl (Function.update f i v) := by
  intro a b ha hb
  by_cases hai : a = i
  · by_cases hbi : b = i
    · rw [hai, hbi]
    rw [hai, Function.update_self] at ha
    rw [Function.update_of_ne hbi] at hb
    rcases hv with rfl | rfl | ⟨m, rfl, hm⟩
    · cases ha
    · rw [hai]
      exact h i b ha hb
    · cases ha
      exact absurd (hm b) hb
  · rw [Function.update_of_ne hai] at ha
    by_cases hbi : b = i
    · rw [hbi, Function.update_self] at hb
      rcases hv with rfl | rfl | ⟨m, rfl, hm⟩
      · exact absurd rfl hb
      · rw [hbi]
        exact h a i ha hb
      · cases m with
        | read => exact absurd ha (hm a)
        | write =>
          have hfree := hm a
          rw [ha] at hfree
          cases hfree
    · rw [Function.update_of_ne hbi] at hb
      exact h a b ha hb

end Afterglow.Sync.Holders
