import Afterglow.Sql.Rows
import Mathlib.Algebra.BigOperators.Group.List.Lemmas
import Mathlib.Data.List.Sort
import Mathlib.Data.Prod.Lex
import Mathlib.Data.String.Basic

/-! # Queries over many rows, and tables that agree on some rows

`select` lists the rows a `WHERE` keeps in an `ORDER BY`, and `groupCount` is a `GROUP BY` with a
`COUNT`. The sums over groups add up to the sum over the rows (`sum_groups`). `Same p` says that two
tables hold the same rows with `p`. Under `Same` every query that looks only at such rows answers the
same: the lookup by the primary key (`Same.find?`), by a second unique key (`Same.find_unique`), the test
whether there is a row (`Same.any`), and the ordered listing (`Same.select`), whatever the order in which
the two tables hold their rows. -/

namespace Afterglow.Sql.Select

open Afterglow.Sql.Rows

section Order

variable {ρ γ : Type} [LinearOrder γ]

/-- `ORDER BY f`. -/
def orderBy (f : ρ → γ) (l : List ρ) : List ρ := l.insertionSort fun a b => f a ≤ f b

theorem orderBy_perm (f : ρ → γ) (l : List ρ) : (orderBy f l).Perm l :=
  List.perm_insertionSort _ l

theorem mem_orderBy {f : ρ → γ} {l : List ρ} {r : ρ} : r ∈ orderBy f l ↔ r ∈ l :=
  (orderBy_perm f l).mem_iff

theorem pairwise_orderBy (f : ρ → γ) (l : List ρ) : (orderBy f l).Pairwise fun a b => f a ≤ f b := by
  have : Std.Total fun a b : ρ => f a ≤ f b := ⟨fun a b => le_total (f a) (f b)⟩
  have : IsTrans ρ fun a b : ρ => f a ≤ f b := ⟨fun _ _ _ hab hbc => le_trans hab hbc⟩
  exact List.pairwise_insertionSort _ l

/-- **A total order leaves no choice**: where no two rows share the sort key, the listing depends only
on which rows there are. -/
theorem orderBy_congr {f : ρ → γ} {l l' : List ρ} (h : l.Perm l')
    (hf : ∀ a ∈ l, ∀ b ∈ l, f a = f b → a = b) : orderBy f l = orderBy f l' := by
  have hperm : (orderBy f l).Perm (orderBy f l') :=
    ((orderBy_perm f l).trans h).trans (orderBy_perm f l').symm
  refine List.Perm.eq_of_pairwise (fun a b ha hb hab hba => ?_) (pairwise_orderBy f l)
    (pairwise_orderBy f l') hperm
  exact hf a (mem_orderBy.mp ha) b (h.mem_iff.mpr (mem_orderBy.mp hb)) (le_antisymm hab hba)

end Order

/-- `SELECT a, COUNT(*) ... GROUP BY a`. -/
def groupCount {α : Type} [DecidableEq α] (l : List α) : List (α × ℕ) :=
  l.dedup.map fun a => (a, l.count a)

/-! ### Groups -/

section Groups

variable {ρ α : Type} [DecidableEq α]

/-- **The groups add up**: the sums over the groups of the rows by `key` are the sum over the rows, when
the list of groups has every key once. -/
theorem sum_groups {M : Type} [AddCommMonoid M] {l : List α} (hl : l.Nodup) (key : ρ → α) (f : ρ → M) :
    ∀ rs : List ρ, (∀ r ∈ rs, key r ∈ l) →
      (l.map fun a => ((rs.filter fun r => key r = a).map f).sum).sum = (rs.map f).sum
  | [], _ => by simp
  | r :: rs, h => by
    have ih := sum_groups hl key f rs fun x hx => h x (List.mem_cons_of_mem r hx)
    have hsplit : (l.map fun a => (((r :: rs).filter fun r => key r = a).map f).sum) =
        l.map fun a => (if key r = a then f r else 0) + ((rs.filter fun r => key r = a).map f).sum := by
      refine List.map_congr_left fun a _ => ?_
      by_cases hk : key r = a
      · simp [hk]
      · simp [hk]
    have hone : (l.map fun a => if key r = a then f r else 0).sum = f r := by
      rw [List.sum_map_eq_nsmul_single (key r) _ fun a ha _ => if_neg (Ne.symm ha), if_pos rfl,
        List.count_eq_one_of_mem hl (h r List.mem_cons_self), one_nsmul]
    rw [hsplit, List.sum_map_add, hone, ih, List.map_cons, List.sum_cons]

/-- The same of counts. -/
theorem countP_groups {l : List α} (hl : l.Nodup) (key : ρ → α) (p : ρ → Bool) (rs : List ρ)
    (h : ∀ r ∈ rs, key r ∈ l) :
    (l.map fun a => (rs.filter fun r => key r = a).countP p).sum = rs.countP p := by
  simp only [countP_eq_sum]
  exact sum_groups hl key _ rs h

end Groups

section Select

variable {ρ κ γ : Type} [LinearOrder γ] {key : ρ → κ}

/-- `SELECT ... WHERE p ORDER BY f`. -/
def select (t : Table key) (p : ρ → Bool) (f : ρ → γ) : List ρ := orderBy f (t.rows.filter p)

theorem sum_select {M : Type} [AddCommMonoid M] (t : Table key) (p : ρ → Bool) (f : ρ → γ) (g : ρ → M) :
    ((select t p f).map g).sum = t.sum fun r => if p r then g r else 0 := by
  have hperm : ((select t p f).map g).Perm ((t.filter p).rows.map g) := (orderBy_perm f _).map g
  rw [hperm.sum_eq]
  exact Table.sum_filter t p g

theorem countP_select (t : Table key) (p : ρ → Bool) (f : ρ → γ) (q : ρ → Bool) :
    (select t p f).countP q = t.count fun r => p r && q r := by
  rw [countP_eq_sum, sum_select, Table.count]
  congr 1
  funext r
  cases p r with
  | true => simp
  | false => simp

theorem mem_select {t : Table key} {p : ρ → Bool} {f : ρ → γ} {r : ρ} :
    r ∈ select t p f ↔ r ∈ t ∧ p r = true := by
  rw [select, mem_orderBy, List.mem_filter]; rfl

end Select

/-! ### Tables that agree -/

variable {ρ κ : Type} {key : ρ → κ} {p : ρ → Bool}

/-- The two tables hold the same rows with `p`. -/
def Same (p : ρ → Bool) (t u : Table key) : Prop := ∀ r, p r = true → (r ∈ t ↔ r ∈ u)

namespace Same

variable {t u v : Table key}

theorem refl (t : Table key) : Same p t t := fun _ _ => Iff.rfl

theorem symm (h : Same p t u) : Same p u t := fun r hr => (h r hr).symm

theorem trans (h : Same p t u) (h' : Same p u v) : Same p t v := fun r hr => (h r hr).trans (h' r hr)

theorem perm_filter [DecidableEq ρ] (h : Same p t u) : (t.rows.filter p).Perm (u.rows.filter p) := by
  have hnd (t : Table key) : (t.rows.filter p).Nodup := (List.Nodup.of_map key t.nodup).filter p
  rw [List.perm_ext_iff_of_nodup (hnd t) (hnd u)]
  intro r
  simp only [List.mem_filter]
  constructor
  · rintro ⟨hr, hp⟩; exact ⟨(h r hp).mp hr, hp⟩
  · rintro ⟨hr, hp⟩; exact ⟨(h r hp).mpr hr, hp⟩

/-- **The listing** of rows with `p` by a key that tells them apart. -/
theorem select [DecidableEq ρ] {γ : Type} [LinearOrder γ] (h : Same p t u) {f : ρ → γ}
    (hf : ∀ a ∈ t, ∀ b ∈ t, p a = true → p b = true → f a = f b → a = b) :
    Select.select t p f = Select.select u p f := by
  refine orderBy_congr h.perm_filter fun a ha b hb hab => ?_
  obtain ⟨ha, hpa⟩ := List.mem_filter.mp ha
  obtain ⟨hb, hpb⟩ := List.mem_filter.mp hb
  exact hf a ha b hb hpa hpb hab

/-- **Whether there is a row** with `q`, a condition that only rows with `p` meet. -/
theorem any (h : Same p t u) {q : ρ → Bool} (hq : ∀ r, q r = true → p r = true) :
    t.rows.any q = u.rows.any q := by
  rw [Bool.eq_iff_iff, List.any_eq_true, List.any_eq_true]
  constructor
  · rintro ⟨r, hr, hqr⟩; exact ⟨r, (h r (hq r hqr)).mp hr, hqr⟩
  · rintro ⟨r, hr, hqr⟩; exact ⟨r, (h r (hq r hqr)).mpr hr, hqr⟩

/-- **The lookup by a second unique key** of rows with `p`. -/
theorem find_unique {γ : Type} {f : ρ → γ} (h : Same p t u) (hu : u.Unique f) {q : ρ → Bool} {c : γ}
    (hq : ∀ r, q r = true ↔ f r = c) (hp : ∀ r, q r = true → p r = true) :
    t.rows.find? q = u.rows.find? q := by
  cases hr : t.rows.find? q with
  | none =>
    refine (List.find?_eq_none.mpr fun r hr' hqr => ?_).symm
    exact List.find?_eq_none.mp hr r ((h r (hp r hqr)).mpr hr') hqr
  | some r =>
    have hqr : q r = true := List.find?_some hr
    have hmem : r ∈ u := (h r (hp r hqr)).mp (List.mem_of_find?_eq_some hr)
    refine (hu.find_of_mem hmem fun x => ?_).symm
    rw [hq x, (hq r).mp hqr]

variable [DecidableEq κ]

/-- **The lookup by the primary key**, where the rows of either table with that key have `p`. -/
theorem find?_of_mem (h : Same p t u) {k : κ} (ht : ∀ r ∈ t, key r = k → p r = true)
    (hu : ∀ r ∈ u, key r = k → p r = true) : t.find? k = u.find? k := by
  cases hk : u.find? k with
  | none =>
    refine Table.find?_eq_none.mpr fun r hr hrk => ?_
    exact Table.find?_eq_none.mp hk r ((h r (ht r hr hrk)).mp hr) hrk
  | some r =>
    have hrk : key r = k := Table.find?_key hk
    have hmem : r ∈ u := Table.mem_of_find? hk
    rw [Table.find?_eq_some]
    exact ⟨(h r (hu r hmem hrk)).mpr hmem, hrk⟩

theorem find? (h : Same p t u) {k : κ} (hk : ∀ r, key r = k → p r = true) : t.find? k = u.find? k :=
  h.find?_of_mem (fun r _ => hk r) fun r _ => hk r

theorem put (h : Same p t u) (r : ρ) : Same p (t.put r) (u.put r) := by
  intro x hx
  rw [Table.mem_put, Table.mem_put, h x hx]

/-- Writing a row without `p` over no row with `p`. -/
theorem put_other {r : ρ} (hr : p r = false) (ht : ∀ x ∈ t, key x = key r → p x = false) :
    Same p t (t.put r) := by
  intro x hx
  rw [Table.mem_put]
  constructor
  · intro hmem
    refine Or.inr ⟨hmem, fun hk => ?_⟩
    rw [ht x hmem hk] at hx; cases hx
  · rintro (rfl | ⟨hmem, -⟩)
    · rw [hr] at hx; cases hx
    · exact hmem

/-- Writing a row without `p`, where rows of one key have `p` alike. -/
theorem put_keyed {r : ρ} (hp : ∀ x, key x = key r → p x = p r) (hr : p r = false) :
    Same p t (t.put r) :=
  put_other hr fun x _ hx => (hp x hx).trans hr

end Same

end Afterglow.Sql.Select
