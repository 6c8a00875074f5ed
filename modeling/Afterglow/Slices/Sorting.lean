import Mathlib.Data.List.Sort
import Mathlib.Order.Basic

/-! # Slices of arrays, and sorting one in place

A slice names a part of an array; copying a slice to a new array and sorting it there leaves every slice
of the older arrays as it was (`read_copy`, `read_sortAt`). A sort by a comparator `less` need not be
stable: all that is known of its result is `Sorted`. Where no two elements share the key that `less`
compares, that is enough to determine it (`Sorted.eq`). -/

namespace Afterglow.Slices.Sorting

variable {α : Type}

/-! ### Sorting -/

/-- What a sort by `less` makes of `l`: the same elements, none before one that is less. -/
structure Sorted (less : α → α → Bool) (l l' : List α) : Prop where
  perm : l'.Perm l
  ordered : l'.Pairwise fun a b => less b a = false

section Key

variable {γ : Type} [LinearOrder γ] {key : α → γ} {less : α → α → Bool} {l l' m m' : List α}

/-- A comparator that compares keys sorts by the key. -/
theorem Sorted.pairwise (h : Sorted less l l') (hless : ∀ a b, less a b = true ↔ key a < key b) :
    l'.Pairwise fun a b => key a ≤ key b := by
  refine h.ordered.imp fun {a b} hab => ?_
  rw [← not_lt, ← hless, hab]
  exact Bool.false_ne_true

/-- **Distinct keys leave no choice**: whatever the sort, lists of the same elements are sorted alike. -/
theorem Sorted.eq (h : Sorted less l l') (h' : Sorted less m m') (hperm : l.Perm m)
    (hless : ∀ a b, less a b = true ↔ key a < key b) (hkeys : (l.map key).Nodup) : l' = m' := by
  refine List.Perm.eq_of_pairwise (fun a b ha hb hab hba => ?_) (h.pairwise hless) (h'.pairwise hless)
    ((h.perm.trans hperm).trans h'.perm.symm)
  have ha' : a ∈ l := h.perm.mem_iff.mp ha
  have hb' : b ∈ l := hperm.mem_iff.mpr (h'.perm.mem_iff.mp hb)
  exact List.inj_on_of_nodup_map hkeys ha' hb' (le_antisymm hab hba)

/-- **Neighbours tell**: in order of the key, two elements that share it stand next to each other. -/
theorem nodup_of_neighbours (hle : l.Pairwise fun a b => key a ≤ key b)
    (hne : l.IsChain fun a b => key a ≠ key b) : (l.map key).Nodup := by
  have hlt : l.Pairwise fun a b => key a < key b := by
    have : IsTrans α fun a b => key a < key b := ⟨fun _ _ _ hab hbc => lt_trans hab hbc⟩
    refine List.isChain_iff_pairwise.mp (List.isChain_iff_getElem.mpr fun i hi => ?_)
    have hi' := List.isChain_iff_getElem.mp hle.isChain i hi
    exact lt_of_le_of_ne hi' (List.isChain_iff_getElem.mp hne i hi)
  rw [List.nodup_iff_pairwise_ne, List.pairwise_map]
  exact hlt.imp fun {a b} hab => ne_of_lt hab

end Key

theorem neighbours_of_nodup {γ : Type} {key : α → γ} {l : List α} (h : (l.map key).Nodup) :
    l.IsChain fun a b => key a ≠ key b := by
  rw [List.nodup_iff_pairwise_ne, List.pairwise_map] at h
  exact h.isChain

/-! ### Memory -/

/-- The arrays, by address. -/
abbrev Arrays (α : Type) := List (List α)

/-- `len` elements of array `array`, from `offset` on. -/
structure Slice where
  array : ℕ
  offset : ℕ
  len : ℕ
  deriving DecidableEq, Repr

namespace Arrays

/-- The elements of a slice. -/
def read (m : Arrays α) (s : Slice) : List α := ((m.getD s.array []).drop s.offset).take s.len

/-- `append([]T(nil), s...)`: a new array. -/
def copy (m : Arrays α) (s : Slice) : Arrays α × Slice :=
  (m ++ [m.read s], ⟨m.length, 0, (m.read s).length⟩)

/-- `sort.Slice`: the elements of the slice change their places. -/
def sortAt (sort : List α → List α) (m : Arrays α) (s : Slice) : Arrays α :=
  let a := m.getD s.array []
  m.set s.array (a.take s.offset ++ (sort (m.read s) ++ a.drop (s.offset + s.len)))

/-- A new array does not show in the older ones. -/
theorem read_copy {m : Arrays α} (s : Slice) {t : Slice} (ht : t.array < m.length) :
    (m.copy s).1.read t = m.read t := by
  unfold copy read
  simp only [List.getD_eq_getElem?_getD, List.getElem?_append_left ht]

/-- The copy. -/
theorem read_copy_self (m : Arrays α) (s : Slice) : (m.copy s).1.read (m.copy s).2 = m.read s := by
  show List.take (m.read s).length (List.drop 0 ((m ++ [m.read s]).getD m.length [])) = _
  simp

/-- Sorting in one array does not show in the others. -/
theorem read_sortAt {sort : List α → List α} {m : Arrays α} {s t : Slice} (h : t.array ≠ s.array) :
    (m.sortAt sort s).read t = m.read t := by
  unfold sortAt read
  simp only [List.getD_eq_getElem?_getD, List.getElem?_set_ne (Ne.symm h)]

/-- The sorted copy. -/
theorem read_sortAt_copy {sort : List α → List α} (hsort : ∀ l, (sort l).length = l.length)
    (m : Arrays α) (s : Slice) :
    ((m.copy s).1.sortAt sort (m.copy s).2).read (m.copy s).2 = sort (m.read s) := by
  have hcopy := read_copy_self m s
  unfold sortAt
  rw [hcopy]
  unfold copy read
  simp [hsort]

end Arrays

end Afterglow.Slices.Sorting
