import Mathlib.Algebra.BigOperators.Group.List.Basic
import Mathlib.Data.List.Nodup
import Mathlib.Tactic

/-! # Tables with a primary key

A table is the list of its rows, oldest first, with the proof that no two rows share a primary key.
`put` writes one row: it takes the place of the row with its key, or is appended. Every `UPDATE` of a
row and every `INSERT` is a `put`, so the lemmas below say what a `put` does to a lookup (`find?_put`),
to membership (`mem_put`) and to the sum of a column (`sum_put_new`, `sum_put_old`); two `put`s of one
key are one (`put_put`) and writing a row back changes nothing (`put_self`). `Kept` says what may become
of the rows of a table, and `Unique` is a unique key beside the primary one. -/

namespace Afterglow.Sql.Rows

variable {ρ κ : Type}

/-- The rows with `p`, counted as a sum. -/
theorem countP_eq_sum (p : ρ → Bool) (l : List ρ) :
    l.countP p = (l.map fun r => if p r then 1 else 0).sum := by
  induction l with
  | nil => rfl
  | cons r l ih => rw [List.countP_cons, List.map_cons, List.sum_cons, ih, add_comm]

/-- The sum over the rows with `p`. -/
theorem sum_map_filter {M : Type} [AddCommMonoid M] (p : ρ → Bool) (f : ρ → M) (l : List ρ) :
    ((l.filter p).map f).sum = (l.map fun r => if p r then f r else 0).sum := by
  induction l with
  | nil => rfl
  | cons r l ih =>
    rw [List.map_cons, List.sum_cons, List.filter_cons, ← ih]
    split_ifs
    · rw [List.map_cons, List.sum_cons]
    · rw [zero_add]

/-- The rows of a table, no two of them with the same primary key `key`. -/
@[ext] structure Table (key : ρ → κ) where
  rows : List ρ
  nodup : (rows.map key).Nodup

namespace Table

variable {key : ρ → κ}

/-- The table as `CREATE TABLE` leaves it. -/
def empty : Table key := ⟨[], by simp⟩

instance : Membership ρ (Table key) := ⟨fun t r => r ∈ t.rows⟩

instance : Inhabited (Table key) := ⟨empty⟩

instance [DecidableEq ρ] : DecidableEq (Table key) := fun a b =>
  decidable_of_iff (a.rows = b.rows) Table.ext_iff.symm

/-- Keep the rows with `p`: what `DELETE ... WHERE NOT p` leaves. -/
def filter (p : ρ → Bool) (t : Table key) : Table key :=
  ⟨t.rows.filter p, (List.filter_sublist.map key).nodup t.nodup⟩

/-- Change every row, keys kept: `UPDATE` without a `WHERE`. -/
def mapRows (f : ρ → ρ) (hf : ∀ r, key (f r) = key r) (t : Table key) : Table key :=
  ⟨t.rows.map f, by
    have : (t.rows.map f).map key = t.rows.map key := by
      rw [List.map_map]; exact List.map_congr_left fun r _ => hf r
    rw [this]; exact t.nodup⟩

/-- The sum of `f` over the rows. -/
def sum {M : Type} [AddCommMonoid M] (t : Table key) (f : ρ → M) : M := (t.rows.map f).sum

/-- The number of rows with `p`. -/
def count (t : Table key) (p : ρ → Bool) : ℕ := t.sum fun r => if p r then 1 else 0

theorem mem_rows {t : Table key} {r : ρ} : r ∈ t.rows ↔ r ∈ t := Iff.rfl

@[simp] theorem not_mem_empty (r : ρ) : ¬ r ∈ (empty : Table key) := List.not_mem_nil

@[simp] theorem sum_empty {M : Type} [AddCommMonoid M] (f : ρ → M) :
    (empty : Table key).sum f = 0 := rfl

theorem key_injOn {t : Table key} {a b : ρ} (ha : a ∈ t) (hb : b ∈ t) (h : key a = key b) : a = b :=
  List.inj_on_of_nodup_map t.nodup ha hb h

theorem count_eq_length (t : Table key) (p : ρ → Bool) : t.count p = (t.rows.filter p).length := by
  rw [← List.countP_eq_length_filter, countP_eq_sum]
  rfl

theorem count_eq_zero {t : Table key} {p : ρ → Bool} : t.count p = 0 ↔ ∀ r ∈ t, p r = false := by
  rw [count_eq_length, List.length_eq_zero_iff, List.filter_eq_nil_iff]
  simp only [Bool.not_eq_true, mem_rows]

/-- The sum over the rows a filter keeps. -/
theorem sum_filter {M : Type} [AddCommMonoid M] (t : Table key) (p : ρ → Bool) (f : ρ → M) :
    (t.filter p).sum f = t.sum fun r => if p r then f r else 0 :=
  sum_map_filter p f t.rows

theorem sum_congr {M : Type} [AddCommMonoid M] {t : Table key} {f g : ρ → M} (h : ∀ r ∈ t, f r = g r) :
    t.sum f = t.sum g := congrArg List.sum (List.map_congr_left h)

/-- A sum in two parts. -/
theorem sum_filter_add {M : Type} [AddCommMonoid M] (t : Table key) (p : ρ → Bool) (f : ρ → M) :
    (t.filter p).sum f + (t.filter fun r => !p r).sum f = t.sum f := by
  rw [sum_filter, sum_filter]
  unfold sum
  rw [← List.sum_map_add]
  refine congrArg List.sum (List.map_congr_left fun r _ => ?_)
  cases p r <;> simp

theorem sum_eq_zero {M : Type} [AddCommMonoid M] {t : Table key} {f : ρ → M} (h : ∀ r ∈ t, f r = 0) :
    t.sum f = 0 :=
  List.sum_eq_zero fun x hx => by
    obtain ⟨r, hr, rfl⟩ := List.mem_map.mp hx
    exact h r hr

/-- Deleting rows that count for nothing. -/
theorem sum_filter_of_zero {M : Type} [AddCommMonoid M] {t : Table key} {p : ρ → Bool} {f : ρ → M}
    (h : ∀ r ∈ t, p r = false → f r = 0) : (t.filter p).sum f = t.sum f := by
  rw [sum_filter]
  refine sum_congr fun r hr => ?_
  cases hp : p r with
  | true => rfl
  | false => exact (h r hr hp).symm

theorem mem_filter {t : Table key} {p : ρ → Bool} {r : ρ} : r ∈ t.filter p ↔ r ∈ t ∧ p r = true :=
  List.mem_filter

/-- Deleting the rows with `p` by their keys. -/
theorem filter_keys (t : Table key) {p q : ρ → Bool}
    (hq : ∀ r, q r = true ↔ key r ∉ (t.rows.filter p).map key) :
    t.filter q = t.filter fun r => !p r := by
  refine Table.ext (List.filter_congr fun r hr => ?_)
  rw [Bool.eq_iff_iff, hq, Bool.not_eq_true']
  constructor
  · intro hk
    by_contra hp
    exact hk (List.mem_map_of_mem (List.mem_filter.mpr ⟨hr, by simpa using hp⟩))
  · intro hp hk
    obtain ⟨x, hx, hxk⟩ := List.mem_map.mp hk
    obtain ⟨hx, hpx⟩ := List.mem_filter.mp hx
    rw [key_injOn hx hr hxk, hp] at hpx
    cases hpx

/-- A count of one is the one row there is. -/
theorem existsUnique_of_count {t : Table key} {p : ρ → Bool} (h : t.count p = 1) :
    ∃! r, r ∈ t ∧ p r = true := by
  rw [count_eq_length, List.length_eq_one_iff] at h
  obtain ⟨r, hr⟩ := h
  have hmem : ∀ x, x ∈ t ∧ p x = true ↔ x = r := fun x => by
    rw [show x = r ↔ x ∈ [r] from List.mem_singleton.symm, ← hr, List.mem_filter, mem_rows]
  exact ⟨r, (hmem r).mpr rfl, fun x hx => (hmem x).mp hx⟩

/-- A count of two kinds of rows, none of both. -/
theorem count_or (t : Table key) {p q : ρ → Bool} (h : ∀ r, p r = true → q r = false) :
    t.count (fun r => p r || q r) = t.count p + t.count q := by
  unfold count sum
  rw [← List.sum_map_add]
  congr 1
  refine List.map_congr_left fun r _ => ?_
  cases hp : p r with
  | false => simp [hp]
  | true => simp [hp, h r hp]

/-- Lists with the same keys agree on whatever rows with the same key agree on. -/
theorem map_congr_keys {M : Type} {f g : ρ → M} : ∀ {l l' : List ρ}, l.map key = l'.map key →
    (∀ a ∈ l, ∀ b ∈ l', key a = key b → f a = g b) → l.map f = l'.map g
  | [], [], _, _ => rfl
  | [], _ :: _, hk, _ => by simp at hk
  | _ :: _, [], hk, _ => by simp at hk
  | a :: l, b :: l', hk, h => by
    rw [List.map_cons, List.map_cons, List.cons.injEq] at hk
    rw [List.map_cons, List.map_cons, h a List.mem_cons_self b List.mem_cons_self hk.1]
    congr 1
    exact map_congr_keys hk.2 fun x hx y hy =>
      h x (List.mem_cons_of_mem _ hx) y (List.mem_cons_of_mem _ hy)

/-! ### A second unique key -/

/-- No two rows share the value of `f`. -/
def Unique {γ : Type} (f : ρ → γ) (t : Table key) : Prop := ∀ a ∈ t, ∀ b ∈ t, f a = f b → a = b

namespace Unique

variable {γ : Type} {f : ρ → γ} {t : Table key}

theorem empty : Unique f (Table.empty : Table key) := fun a ha => absurd ha (not_mem_empty a)

/-- **The lookup by the second key** finds the one row with it. -/
theorem find_of_mem (h : Unique f t) {p : ρ → Bool} {r : ρ} (hr : r ∈ t)
    (hp : ∀ x, p x = true ↔ f x = f r) : t.rows.find? p = some r := by
  cases hx : t.rows.find? p with
  | none => exact absurd ((hp r).mpr rfl) (List.find?_eq_none.mp hx r hr)
  | some x =>
    have hfx : f x = f r := (hp x).mp (List.find?_some hx)
    rw [h x (List.mem_of_find?_eq_some hx) r hr hfx]

/-- **A list of keys bounds the rows that have one.** -/
theorem count_le (h : Unique f t) {p : ρ → Bool} (ks : List γ) (hp : ∀ r ∈ t, p r = true → f r ∈ ks) :
    t.count p ≤ ks.length := by
  have hrows : (t.rows.filter p).Nodup := t.nodup.of_map.filter p
  have hkeys : ((t.rows.filter p).map f).Nodup := hrows.map_on fun a ha b hb hab =>
    h a (List.mem_filter.mp ha).1 b (List.mem_filter.mp hb).1 hab
  have hsub : (t.rows.filter p).map f ⊆ ks := by
    intro k hk
    obtain ⟨r, hr, rfl⟩ := List.mem_map.mp hk
    exact hp r (List.mem_filter.mp hr).1 (List.mem_filter.mp hr).2
  calc t.count p = ((t.rows.filter p).map f).length := by rw [count_eq_length, List.length_map]
    _ ≤ ks.length := (hkeys.subperm hsub).length_le

end Unique

end Table

/-! ### Writing one row -/

variable [DecidableEq κ]

/-- Put `r` in the place of the row with its key, or at the end. -/
def putRow (key : ρ → κ) (r : ρ) : List ρ → List ρ
  | [] => [r]
  | x :: xs => if key x = key r then r :: xs else x :: putRow key r xs

theorem putRow_of_notMem {key : ρ → κ} {r : ρ} : ∀ {l : List ρ}, key r ∉ l.map key →
    putRow key r l = l ++ [r]
  | [], _ => rfl
  | x :: xs, h => by
    simp only [List.map_cons, List.mem_cons, not_or] at h
    rw [putRow, if_neg (Ne.symm h.1), putRow_of_notMem h.2, List.cons_append]

theorem putRow_of_mem {key : ρ → κ} {r : ρ} : ∀ {l : List ρ}, (l.map key).Nodup →
    key r ∈ l.map key → putRow key r l = l.map fun x => if key x = key r then r else x
  | [], _, h => by simp at h
  | x :: xs, hn, h => by
    simp only [List.map_cons, List.nodup_cons] at hn
    rw [putRow, List.map_cons]
    by_cases hx : key x = key r
    · rw [if_pos hx, if_pos hx]
      congr 1
      refine (List.map_id _).symm.trans (List.map_congr_left fun y hy => ?_)
      rw [if_neg]; · rfl
      intro hy'
      exact hn.1 (List.mem_map.mpr ⟨y, hy, hy'.trans hx.symm⟩)
    · rw [if_neg hx, if_neg hx, putRow_of_mem hn.2]
      simp only [List.map_cons, List.mem_cons] at h
      exact h.resolve_left (Ne.symm hx)

theorem map_key_putRow (key : ρ → κ) (r : ρ) : ∀ l : List ρ,
    (putRow key r l).map key = if key r ∈ l.map key then l.map key else l.map key ++ [key r]
  | [] => by simp [putRow]
  | x :: xs => by
    rw [putRow]
    by_cases hx : key x = key r
    · simp [hx]
    · rw [if_neg hx, List.map_cons, map_key_putRow key r xs]
      simp only [List.map_cons, List.mem_cons, Ne.symm hx, false_or]
      split_ifs <;> rfl

theorem nodup_putRow {key : ρ → κ} {l : List ρ} (r : ρ) (h : (l.map key).Nodup) :
    ((putRow key r l).map key).Nodup := by
  rw [map_key_putRow]
  split_ifs with hr
  · exact h
  · exact List.nodup_append.mpr ⟨h, by simp, by
      intro a ha b hb
      rw [List.mem_singleton] at hb
      rintro rfl
      exact hr (hb ▸ ha)⟩

namespace Table

variable {key : ρ → κ}

/-- The row with primary key `k`. -/
def find? (t : Table key) (k : κ) : Option ρ := t.rows.find? fun r => key r = k

/-- Write one row. -/
def put (t : Table key) (r : ρ) : Table key := ⟨putRow key r t.rows, nodup_putRow r t.nodup⟩

/-- Change the row with key `k`, if there is one. -/
def modify (t : Table key) (k : κ) (f : ρ → ρ) : Table key :=
  match t.find? k with
  | some r => t.put (f r)
  | none => t

/-! ### Lookups -/

@[simp] theorem find?_empty (k : κ) : (empty : Table key).find? k = none := rfl

theorem find?_eq_some {t : Table key} {k : κ} {r : ρ} :
    t.find? k = some r ↔ r ∈ t ∧ key r = k := by
  constructor
  · intro h
    exact ⟨List.mem_of_find?_eq_some h, by simpa using List.find?_some h⟩
  · rintro ⟨hr, rfl⟩
    cases h : t.find? (key r) with
    | none =>
      have := List.find?_eq_none.mp h r hr
      simp at this
    | some x =>
      have hx : x ∈ t := List.mem_of_find?_eq_some h
      have hk : key x = key r := by simpa using List.find?_some h
      rw [key_injOn hx hr hk]

theorem find?_key {t : Table key} {k : κ} {r : ρ} (h : t.find? k = some r) : key r = k :=
  (find?_eq_some.mp h).2

theorem mem_of_find? {t : Table key} {k : κ} {r : ρ} (h : t.find? k = some r) : r ∈ t :=
  (find?_eq_some.mp h).1

theorem find?_of_mem {t : Table key} {r : ρ} (h : r ∈ t) : t.find? (key r) = some r :=
  find?_eq_some.mpr ⟨h, rfl⟩

theorem find?_eq_none {t : Table key} {k : κ} : t.find? k = none ↔ ∀ r ∈ t, key r ≠ k := by
  simp only [find?, List.find?_eq_none, decide_eq_true_eq]; exact Iff.rfl

theorem notMem_keys {t : Table key} {k : κ} (h : t.find? k = none) : k ∉ t.rows.map key := by
  rintro hk
  obtain ⟨r, hr, rfl⟩ := List.mem_map.mp hk
  exact find?_eq_none.mp h r hr rfl

theorem mem_keys {t : Table key} {k : κ} {r : ρ} (h : t.find? k = some r) : k ∈ t.rows.map key :=
  List.mem_map.mpr ⟨r, mem_of_find? h, find?_key h⟩

/-! ### One `put` -/

theorem rows_put_new {t : Table key} {r : ρ} (h : t.find? (key r) = none) :
    (t.put r).rows = t.rows ++ [r] := putRow_of_notMem (notMem_keys h)

/-- An insert and a `DELETE` that spares the new row. -/
theorem filter_put_new {t : Table key} {p : ρ → Bool} {r : ρ} (h : t.find? (key r) = none)
    (hp : p r = true) : (t.put r).filter p = (t.filter p).put r := by
  have hnone : (t.filter p).find? (key r) = none :=
    find?_eq_none.mpr fun x hx => find?_eq_none.mp h x (mem_filter.mp hx).1
  refine Table.ext ?_
  show (t.put r).rows.filter p = ((t.filter p).put r).rows
  rw [rows_put_new h, rows_put_new hnone, List.filter_append, List.filter_cons_of_pos hp]
  rfl

theorem rows_put_old {t : Table key} {r x : ρ} (h : t.find? (key r) = some x) :
    (t.put r).rows = t.rows.map fun y => if key y = key r then r else y :=
  putRow_of_mem t.nodup (mem_keys h)

/-- **Membership after a `put`.** -/
theorem mem_put {t : Table key} {r x : ρ} : x ∈ t.put r ↔ x = r ∨ x ∈ t ∧ key x ≠ key r := by
  show x ∈ (t.put r).rows ↔ _
  cases h : t.find? (key r) with
  | none =>
    rw [rows_put_new h, List.mem_append, List.mem_singleton]
    constructor
    · rintro (hx | rfl)
      · exact Or.inr ⟨hx, find?_eq_none.mp h x hx⟩
      · exact Or.inl rfl
    · rintro (rfl | ⟨hx, -⟩)
      · exact Or.inr rfl
      · exact Or.inl hx
  | some y =>
    rw [rows_put_old h, List.mem_map]
    constructor
    · rintro ⟨z, hz, rfl⟩
      split_ifs with hk
      · exact Or.inl rfl
      · exact Or.inr ⟨hz, hk⟩
    · rintro (rfl | ⟨hx, hk⟩)
      · exact ⟨y, mem_of_find? h, if_pos (find?_key h)⟩
      · exact ⟨x, hx, if_neg hk⟩

/-- **Lookup after a `put`.** -/
theorem find?_put (t : Table key) (r : ρ) (k : κ) :
    (t.put r).find? k = if key r = k then some r else t.find? k := by
  split_ifs with h
  · exact find?_eq_some.mpr ⟨mem_put.mpr (Or.inl rfl), h⟩
  · cases hk : t.find? k with
    | none =>
      refine find?_eq_none.mpr fun x hx => ?_
      rcases mem_put.mp hx with rfl | ⟨hx, -⟩
      · exact h
      · exact find?_eq_none.mp hk x hx
    | some x =>
      obtain ⟨hx, rfl⟩ := find?_eq_some.mp hk
      exact find?_eq_some.mpr ⟨mem_put.mpr (Or.inr ⟨hx, Ne.symm h⟩), rfl⟩

@[simp] theorem find?_put_self (t : Table key) (r : ρ) : (t.put r).find? (key r) = some r := by
  rw [find?_put, if_pos rfl]

theorem find?_put_ne {t : Table key} {r : ρ} {k : κ} (h : key r ≠ k) :
    (t.put r).find? k = t.find? k := by rw [find?_put, if_neg h]

/-- An update makes no new key. -/
theorem find?_put_none {t : Table key} {x : ρ} (r : ρ) (h : t.find? (key r) = some x) (k : κ) :
    (t.put r).find? k = none ↔ t.find? k = none := by
  rw [find?_put]
  split_ifs with hk
  · rw [← hk, h]; simp
  · exact Iff.rfl

/-- Writing a row back changes nothing. -/
theorem put_self {t : Table key} {r : ρ} (h : t.find? (key r) = some r) : t.put r = t := by
  refine Table.ext ?_
  rw [rows_put_old h]
  refine (List.map_congr_left fun y hy => ?_).trans (List.map_id _)
  split_ifs with hk
  · exact (key_injOn hy (mem_of_find? h) hk).symm
  · rfl

/-- The second of two `put`s of one key is the one that counts. -/
theorem put_put {t : Table key} {a b : ρ} (h : key a = key b) : (t.put a).put b = t.put b := by
  refine Table.ext ?_
  have hab : (t.put a).find? (key b) = some a := by rw [← h]; exact find?_put_self t a
  rw [rows_put_old hab]
  cases hb : t.find? (key b) with
  | none =>
    have hna : ∀ y ∈ t.rows, ¬ key y = key b := find?_eq_none.mp hb
    rw [rows_put_new (h ▸ hb), rows_put_new hb, List.map_append, List.map_singleton, if_pos h]
    congr 1
    exact (List.map_congr_left fun y hy => if_neg (hna y hy)).trans (List.map_id _)
  | some x =>
    rw [rows_put_old (h ▸ hb), rows_put_old hb, List.map_map]
    refine List.map_congr_left fun y _ => ?_
    simp only [Function.comp_apply, h]
    split_ifs <;> rfl

theorem modify_of_find? {t : Table key} {k : κ} {r : ρ} (f : ρ → ρ) (h : t.find? k = some r) :
    t.modify k f = t.put (f r) := by unfold modify; rw [h]

theorem modify_of_none {t : Table key} {k : κ} (f : ρ → ρ) (h : t.find? k = none) :
    t.modify k f = t := by unfold modify; rw [h]

/-- **Lookup after a `modify`** that keeps the keys. -/
theorem find?_modify {t : Table key} {f : ρ → ρ} (hf : ∀ r, key (f r) = key r) (k k' : κ) :
    (t.modify k f).find? k' = if k = k' then (t.find? k').map f else t.find? k' := by
  cases hk : t.find? k with
  | none =>
    rw [modify_of_none _ hk]
    split_ifs with h
    · rw [← h, hk]; rfl
    · rfl
  | some r =>
    rw [modify_of_find? _ hk, find?_put, hf, find?_key hk]
    split_ifs with h
    · rw [← h, hk]; rfl
    · rfl

/-- Lookup after an `UPDATE` of every row. -/
theorem find?_mapRows (t : Table key) {f : ρ → ρ} (hf : ∀ r, key (f r) = key r) (k : κ) :
    (t.mapRows f hf).find? k = (t.find? k).map f := by
  unfold find? mapRows
  rw [List.find?_map]
  congr 2
  funext r
  simp only [Function.comp_apply, hf]

/-! ### What every row has -/

theorem forall_put {t : Table key} {r : ρ} {P : ρ → Prop} (h : ∀ x ∈ t, P x) (hr : P r) :
    ∀ x ∈ t.put r, P x := by
  intro x hx
  rcases mem_put.mp hx with rfl | ⟨hx, -⟩
  · exact hr
  · exact h x hx

theorem forall_modify {t : Table key} {f : ρ → ρ} {P : ρ → Prop} (h : ∀ x ∈ t, P x)
    (hf : ∀ x, P x → P (f x)) (k : κ) : ∀ x ∈ t.modify k f, P x := by
  cases hk : t.find? k with
  | none => rw [modify_of_none _ hk]; exact h
  | some r => rw [modify_of_find? _ hk]; exact forall_put h (hf r (h r (mem_of_find? hk)))

/-! ### Sums -/

section Sum

variable {M : Type} [AddCommMonoid M] (f : ρ → M)

/-- **The sum after an insert.** -/
theorem sum_put_new {t : Table key} {r : ρ} (h : t.find? (key r) = none) :
    (t.put r).sum f = t.sum f + f r := by
  unfold sum; rw [rows_put_new h, List.map_append, List.sum_append]; simp

theorem sum_map_replace (r x : ρ) (hx : key x = key r) : ∀ l : List ρ, (l.map key).Nodup → x ∈ l →
    ((l.map fun y => if key y = key r then r else y).map f).sum + f x = (l.map f).sum + f r
  | [], _, h => by simp at h
  | y :: l, hn, h => by
    simp only [List.map_cons, List.nodup_cons, List.sum_cons] at hn ⊢
    rcases List.mem_cons.mp h with rfl | h
    · have hl : (l.map fun z => if key z = key r then r else z) = l := by
        refine (List.map_congr_left fun z hz => if_neg fun hz' => hn.1 ?_).trans (List.map_id _)
        exact List.mem_map.mpr ⟨z, hz, hz'.trans hx.symm⟩
      rw [hl, if_pos hx]
      abel
    · have hy : key y ≠ key r := fun hy => hn.1 (List.mem_map.mpr ⟨x, h, hx.trans hy.symm⟩)
      rw [if_neg hy, add_assoc, sum_map_replace r x hx l hn.2 h, add_assoc]

/-- **The sum after an update**: the row written counts for the row replaced. -/
theorem sum_put_old {t : Table key} {r x : ρ} (h : t.find? (key r) = some x) :
    (t.put r).sum f + f x = t.sum f + f r := by
  unfold sum
  rw [rows_put_old h]
  exact sum_map_replace f r x (find?_key h) t.rows t.nodup (mem_of_find? h)

/-- An update that keeps what is summed keeps the sum. -/
theorem sum_put_same [IsRightCancelAdd M] {t : Table key} {r x : ρ} (h : t.find? (key r) = some x)
    (hf : f r = f x) : (t.put r).sum f = t.sum f := by
  have := sum_put_old f h
  rw [hf] at this
  exact add_right_cancel this

end Sum

/-! ### Tables with the same keys -/

theorem keys_put_old {t : Table key} {r x : ρ} (h : t.find? (key r) = some x) :
    (t.put r).rows.map key = t.rows.map key := by
  show (putRow key r t.rows).map key = _
  rw [map_key_putRow, if_pos (mem_keys h)]

theorem keys_modify (t : Table key) {f : ρ → ρ} (hf : ∀ r, key (f r) = key r) (k : κ) :
    (t.modify k f).rows.map key = t.rows.map key := by
  cases hk : t.find? k with
  | none => rw [modify_of_none _ hk]
  | some r =>
    rw [modify_of_find? _ hk]
    exact keys_put_old (by rw [hf, find?_key hk]; exact hk)

theorem find?_of_keys {t t' : Table key} (hk : t.rows.map key = t'.rows.map key) {k : κ} {r : ρ}
    (h : t.find? k = some r) : ∃ r', t'.find? k = some r' := by
  have hmem : k ∈ t'.rows.map key := hk ▸ mem_keys h
  obtain ⟨r', hr', rfl⟩ := List.mem_map.mp hmem
  exact ⟨r', find?_of_mem hr'⟩

/-- **Tables with the same keys and the same lookups are equal.** -/
theorem ext_find? {t t' : Table key} (hk : t.rows.map key = t'.rows.map key)
    (h : ∀ k r r', t.find? k = some r → t'.find? k = some r' → r = r') : t = t' := by
  have hrows : t.rows.map id = t'.rows.map id := map_congr_keys hk fun a ha b hb hab =>
    h (key b) a b (by rw [← hab]; exact find?_of_mem ha) (find?_of_mem hb)
  rw [List.map_id, List.map_id] at hrows
  exact Table.ext hrows

theorem count_congr_keys {t t' : Table key} {p q : ρ → Bool}
    (hk : t.rows.map key = t'.rows.map key)
    (h : ∀ k r r', t.find? k = some r → t'.find? k = some r' → p r = q r') : t.count p = t'.count q := by
  unfold count sum
  congr 1
  refine map_congr_keys hk fun a ha b hb hab => ?_
  rw [h (key b) a b (by rw [← hab]; exact find?_of_mem ha) (find?_of_mem hb)]

/-! ### What becomes of rows -/

/-- Every row of `t` is still in `t'`, under its key, as `R` allows. -/
def Kept (R : ρ → ρ → Prop) (t t' : Table key) : Prop :=
  ∀ k r, t.find? k = some r → ∃ r', t'.find? k = some r' ∧ R r r'

namespace Kept

variable {R : ρ → ρ → Prop} {t t' t'' : Table key}

theorem refl (hR : ∀ r, R r r) (t : Table key) : Kept R t t := fun _ r h => ⟨r, h, hR r⟩

theorem trans (hR : ∀ a b c, R a b → R b c → R a c) (h : Kept R t t') (h' : Kept R t' t'') :
    Kept R t t'' := by
  intro k r hr
  obtain ⟨r', hr', h₁⟩ := h k r hr
  obtain ⟨r'', hr'', h₂⟩ := h' k r' hr'
  exact ⟨r'', hr'', hR _ _ _ h₁ h₂⟩

theorem put_new (hR : ∀ r, R r r) {r : ρ} (h : t.find? (key r) = none) : Kept R t (t.put r) := by
  intro k x hx
  have hk : key r ≠ k := fun hk => by rw [hk, hx] at h; cases h
  exact ⟨x, (find?_put_ne hk).trans hx, hR x⟩

theorem put_old (hR : ∀ r, R r r) {r r' : ρ} (h : t.find? (key r') = some r) (hr : R r r') :
    Kept R t (t.put r') := by
  intro k x hx
  by_cases hk : key r' = k
  · rw [← hk, h] at hx
    cases hx
    exact ⟨r', by rw [find?_put, if_pos hk], hr⟩
  · exact ⟨x, (find?_put_ne hk).trans hx, hR x⟩

/-- One more update, of a row `r` that has become of a row of `t`. -/
theorem put (h : Kept R t t') {r r' : ρ} (hr : t'.find? (key r') = some r)
    (hR : ∀ x, t.find? (key r') = some x → R x r → R x r') : Kept R t (t'.put r') := by
  intro k x hx
  obtain ⟨y, hy, hxy⟩ := h k x hx
  by_cases hk : key r' = k
  · subst hk
    cases hr.symm.trans hy
    exact ⟨r', find?_put_self _ _, hR x hx hxy⟩
  · exact ⟨y, (find?_put_ne hk).trans hy, hxy⟩

theorem put_modify (h : Kept R t t') {f : ρ → ρ} (hf : ∀ r, key (f r) = key r) (k : κ)
    (hR : ∀ x r, R x r → R x (f r)) : Kept R t (t'.modify k f) := by
  cases hk : t'.find? k with
  | none => rw [modify_of_none _ hk]; exact h
  | some r =>
    rw [modify_of_find? _ hk]
    exact h.put (by rw [hf, find?_key hk]; exact hk) fun x _ hx => hR x r hx

theorem modify (hR : ∀ r, R r r) {f : ρ → ρ} (hf : ∀ r, key (f r) = key r) (k : κ)
    (hr : ∀ r, t.find? k = some r → R r (f r)) : Kept R t (t.modify k f) := by
  cases hk : t.find? k with
  | none => rw [modify_of_none _ hk]; exact refl hR t
  | some r =>
    rw [modify_of_find? _ hk]
    exact put_old hR (by rw [hf, find?_key hk]; exact hk) (hr r hk)

end Kept

/-! ### Writes and the second unique key -/

namespace Unique

variable {γ : Type} {f : ρ → γ} {t : Table key}

theorem put_new (h : Unique f t) {r : ρ} (hr : ∀ x ∈ t, f x ≠ f r) : Unique f (t.put r) := by
  intro a ha b hb hab
  rcases mem_put.mp ha with rfl | ⟨hat, -⟩
  · rcases mem_put.mp hb with rfl | ⟨hbt, -⟩
    · rfl
    · exact absurd hab.symm (hr b hbt)
  · rcases mem_put.mp hb with rfl | ⟨hbt, -⟩
    · exact absurd hab (hr a hat)
    · exact h a hat b hbt hab

theorem put_old (h : Unique f t) {r x : ρ} (hx : t.find? (key r) = some x) (hf : f r = f x) :
    Unique f (t.put r) := by
  have hxm : x ∈ t := mem_of_find? hx
  have hother : ∀ a ∈ t, key a ≠ key r → f a ≠ f r := by
    intro a ha hak hfa
    have hax : a = x := h a ha x hxm (hfa.trans hf)
    exact hak (hax ▸ find?_key hx)
  intro a ha b hb hab
  rcases mem_put.mp ha with rfl | ⟨hat, hak⟩
  · rcases mem_put.mp hb with rfl | ⟨hbt, hbk⟩
    · rfl
    · exact absurd hab.symm (hother b hbt hbk)
  · rcases mem_put.mp hb with rfl | ⟨hbt, -⟩
    · exact absurd hab (hother a hat hak)
    · exact h a hat b hbt hab

theorem modify (h : Unique f t) {g : ρ → ρ} (hg : ∀ r, key (g r) = key r) (hf : ∀ r, f (g r) = f r)
    (k : κ) : Unique f (t.modify k g) := by
  cases hk : t.find? k with
  | none => rw [modify_of_none _ hk]; exact h
  | some r =>
    rw [modify_of_find? _ hk]
    exact h.put_old (by rw [hg, find?_key hk]; exact hk) (hf r)

end Unique

end Table

end Afterglow.Sql.Rows
