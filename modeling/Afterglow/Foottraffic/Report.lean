import Afterglow.Foottraffic.Store

/-! # The report of the foot-traffic store

`Report` of `internal/foottraffic/store.go`: the six hours before `now` and the same hours a day earlier,
zone by zone. What it reads of the tables is one query, kept in a map; everything else is built from the
cells (`cell`), so the report is a function of the cells (`reportOf`). A cell shows whether there is a row
and, from `threshold` on, its count; a count below is shown nowhere (`cell_masked`). The change of a zone
is kept as the quotient of which the source takes the nearest `float64`. -/

namespace Afterglow.Foottraffic.Report

open Afterglow.Sql.Rows Afterglow.Foottraffic.Model Afterglow.Foottraffic.Store

/-- `Threshold`: the smallest count that is shown. -/
def threshold : Int := 20

def scopeText : String :=
  "Synthetic observations in fixed hourly zones. Not unique people, verified ad exposure, store " ++
    "visits or causal campaign lift. Comparisons use only paired reportable windows, 24 hours apart. " ++
    "Small-count suppression alone is not an anonymity guarantee."

/-! ### What is read -/

/-- `start`: six hours before the hour of `now`. -/
def startOf (now : Int) : Int := endOf now - 6 * hour

/-- `SELECT zone,start_ms,observations FROM traffic_windows_v1 WHERE tenant=$1 AND source=$2 AND
start_ms >= $3 AND start_ms < $4` -/
def observed (tenant : String) (now : Int) (t : Table WindowRow.pk) : List WindowRow :=
  t.rows.filter fun w => w.tenant = tenant ∧ w.source = source ∧
    startOf now - 24 * hour ≤ w.start ∧ w.start < endOf now

/-- The map the rows are kept in. -/
abbrev Values := String × Int → Option Int

/-- `values[k] = count` for each row in turn. -/
def values (rows : List WindowRow) : Values :=
  rows.foldl (fun m w => Function.update m (w.zone, w.start) (some w.observations)) fun _ => none

/-- `cell`: the cell of a zone and an hour. -/
def cell (m : Values) (zone : String) (t : Int) : Cell :=
  match m (zone, t) with
  | none => ⟨t, .missing, none⟩
  | some n => if threshold ≤ n then ⟨t, .reported, some n⟩ else ⟨t, .suppressed, none⟩

/-! ### What is made of the cells -/

/-- The variables of the loop over the hours of a zone. -/
structure Loop where
  r : Report
  zr : ZoneReport
  current : Int
  previous : Int
  deriving DecidableEq

/-- The `switch` over the status of the current cell. -/
def Loop.tally (l : Loop) (a : Cell) : Loop :=
  match a.status with
  | .reported =>
    { l with
      zr.published := l.zr.published + a.count.getD 0
      r.published := l.r.published + a.count.getD 0
      r.released := l.r.released + 1 }
  | .suppressed => { l with r.suppressed := l.r.suppressed + 1 }
  | .missing => { l with r.missing := l.r.missing + 1 }

/-- The sums over the hours that have a count on both days. -/
def Loop.compare (l : Loop) (a b : Cell) : Loop :=
  match a.count, b.count with
  | some n, some m =>
    { l with
      zr.comparable := l.zr.comparable + 1
      current := l.current + n
      previous := l.previous + m }
  | _, _ => l

/-- One hour of the loop. -/
def Loop.addHour (l : Loop) (a b : Cell) : Loop :=
  let l := { l with
    zr.current := l.zr.current ++ [a]
    zr.previous := l.zr.previous ++ [b] }
  (l.tally a).compare a b

/-- One zone: its hours, then the change over those that compare. -/
def addZone (cells : String → Int → Cell) (start : Int) (r : Report) (z : Zone) : Report :=
  let l := (List.range 6).foldl (fun (l : Loop) i =>
      let t := start + i * hour
      l.addHour (cells z.id t) (cells z.id (t - 24 * hour)))
    ⟨r, ⟨z, [], [], 0, 0, none⟩, 0, 0⟩
  let change : Option ℚ :=
    if 0 < l.zr.comparable ∧ 0 < l.previous then
      some (100 * ((l.current - l.previous : Int) : ℚ) / ((l.previous : Int) : ℚ))
    else none
  { l.r with zones := l.r.zones ++ [{ l.zr with change }] }

/-- The report that is made of the cells. -/
def reportOf (cells : String → Int → Cell) (now : Int) : Report :=
  zones.foldl (addZone cells (startOf now))
    ⟨source, true, now, startOf now, endOf now, threshold, 0, 0, 0, 0, [], scopeText⟩

/-- `Report`. -/
def report (tenant : String) (now : Int) (t : Table WindowRow.pk) : Report :=
  reportOf (cell (values (observed tenant now t))) now

/-! ### The map is the table -/

theorem values_append (rows : List WindowRow) (w : WindowRow) :
    values (rows ++ [w]) = Function.update (values rows) (w.zone, w.start) (some w.observations) := by
  rw [values, List.foldl_append]
  rfl

/-- The map of rows without two of one zone and hour. -/
theorem values_eq_some {rows : List WindowRow} (h : (rows.map fun w => (w.zone, w.start)).Nodup)
    {k : String × Int} {n : Int} : values rows k = some n ↔
      ∃ w ∈ rows, (w.zone, w.start) = k ∧ w.observations = n := by
  induction rows using List.reverseRecOn with
  | nil => simp [values]
  | append_singleton rows w ih =>
    rw [List.map_append, List.nodup_append] at h
    obtain ⟨hrows, -, hlast⟩ := h
    rw [values_append]
    by_cases hk : k = (w.zone, w.start)
    · subst hk
      rw [Function.update_self]
      constructor
      · intro hn
        exact ⟨w, by simp, rfl, Option.some.inj hn⟩
      · rintro ⟨v, hv, hvk, rfl⟩
        rcases List.mem_append.mp hv with hv | hv
        · exact absurd hvk (hlast _ (List.mem_map_of_mem hv) _ (by simp))
        · rw [List.mem_singleton.mp hv]
    · rw [Function.update_of_ne hk, ih hrows]
      constructor
      · rintro ⟨v, hv, hvk⟩
        exact ⟨v, List.mem_append_left _ hv, hvk⟩
      · rintro ⟨v, hv, hvk, hvn⟩
        rcases List.mem_append.mp hv with hv | hv
        · exact ⟨v, hv, hvk, hvn⟩
        · rw [List.mem_singleton.mp hv] at hvk
          exact absurd hvk.symm hk

theorem mem_observed {tenant : String} {now : Int} {t : Table WindowRow.pk} {w : WindowRow} :
    w ∈ observed tenant now t ↔ w ∈ t ∧ w.tenant = tenant ∧ w.source = source ∧
      startOf now - 24 * hour ≤ w.start ∧ w.start < endOf now := by
  rw [observed, List.mem_filter, decide_eq_true_iff]
  exact Iff.rfl

theorem nodup_observed (tenant : String) (now : Int) (t : Table WindowRow.pk) :
    ((observed tenant now t).map fun w => (w.zone, w.start)).Nodup := by
  have hrows : (observed tenant now t).Nodup := (List.Nodup.of_map _ t.nodup).filter _
  refine List.Nodup.map_on (fun w hw v hv hk => ?_) hrows
  obtain ⟨hwt, hw₁, hw₂, -⟩ := mem_observed.mp hw
  obtain ⟨hvt, hv₁, hv₂, -⟩ := mem_observed.mp hv
  rw [Prod.mk.injEq] at hk
  refine Table.key_injOn hwt hvt ?_
  rw [WindowRow.pk, WindowRow.pk, hw₁, hw₂, hv₁, hv₂, hk.1, hk.2]

/-- **What the map holds** under a zone and an hour: the count of the row, if it is in the span. -/
theorem values_observed (tenant : String) (now : Int) (t : Table WindowRow.pk) (zone : String)
    (start : Int) : values (observed tenant now t) (zone, start) =
      if startOf now - 24 * hour ≤ start ∧ start < endOf now then
        (t.find? (tenant, source, zone, start)).map (·.observations) else none := by
  have hmem (n : Int) : values (observed tenant now t) (zone, start) = some n ↔
      (startOf now - 24 * hour ≤ start ∧ start < endOf now) ∧
        (t.find? (tenant, source, zone, start)).map (·.observations) = some n := by
    rw [values_eq_some (nodup_observed tenant now t), Option.map_eq_some_iff]
    constructor
    · rintro ⟨w, hw, hk, rfl⟩
      obtain ⟨hwt, rfl, hs, hspan⟩ := mem_observed.mp hw
      obtain ⟨rfl, rfl⟩ := Prod.mk.inj hk
      refine ⟨hspan, w, ?_, rfl⟩
      rw [← hs]
      exact Table.find?_of_mem hwt
    · rintro ⟨hspan, w, hw, rfl⟩
      have hk := Table.find?_key hw
      simp only [WindowRow.pk, Prod.mk.injEq] at hk
      obtain ⟨h₁, h₂, rfl, rfl⟩ := hk
      exact ⟨w, mem_observed.mpr ⟨Table.mem_of_find? hw, h₁, h₂, hspan⟩, rfl, rfl⟩
  refine Option.ext fun n => ?_
  rw [hmem n]
  split_ifs with hspan
  · exact and_iff_right hspan
  · exact ⟨fun h => absurd h.1 hspan, fun h => by simp at h⟩

/-! ### Suppressed counts -/

/-- What a reader may tell apart: a count from `threshold` on, and whether there is one. -/
def Masked (m n : Option Int) : Prop :=
  m = n ∨ ∃ a b, m = some a ∧ n = some b ∧ a < threshold ∧ b < threshold

theorem cell_masked {m m' : Values} {zone : String} {t : Int} (h : Masked (m (zone, t)) (m' (zone, t))) :
    cell m zone t = cell m' zone t := by
  unfold cell
  rcases h with h | ⟨a, b, ha, hb, hlow, hlow'⟩
  · rw [h]
  · rw [ha, hb]
    simp only [not_le.mpr hlow, not_le.mpr hlow', if_false]

/-- **The report is a function of what may be told apart.** -/
theorem report_masked {tenant : String} {now : Int} {t u : Table WindowRow.pk}
    (h : ∀ k, Masked ((t.find? k).map (·.observations)) ((u.find? k).map (·.observations))) :
    report tenant now t = report tenant now u := by
  have hcells : cell (values (observed tenant now t)) = cell (values (observed tenant now u)) := by
    funext zone start
    refine cell_masked ?_
    rw [values_observed, values_observed]
    split_ifs
    · exact h _
    · exact Or.inl rfl
  rw [report, report, hcells]

/-- **Suppressed counts do not influence the report.** Two tables with the same keys, whose counts under
each key are equal or both below 20, are reported alike. -/
theorem report_suppresses (tenant : String) (now : Int) (t u : Table WindowRow.pk)
    (hkeys : ∀ k, k ∈ t.rows.map WindowRow.pk ↔ k ∈ u.rows.map WindowRow.pk)
    (hcounts : ∀ w ∈ t, ∀ v ∈ u, w.pk = v.pk →
      w.observations = v.observations ∨ w.observations < 20 ∧ v.observations < 20) :
    report tenant now t = report tenant now u := by
  refine report_masked fun k => ?_
  cases hw : t.find? k with
  | none =>
    have hu : u.find? k = none := by
      cases hv : u.find? k with
      | none => rfl
      | some v => exact absurd ((hkeys k).mpr (Table.mem_keys hv)) (Table.notMem_keys hw)
    rw [hu]
    exact Or.inl rfl
  | some w =>
    obtain ⟨v, hv, hvk⟩ := List.mem_map.mp ((hkeys k).mp (Table.mem_keys hw))
    have hfind : u.find? k = some v := hvk ▸ Table.find?_of_mem hv
    rw [hfind]
    rcases hcounts w (Table.mem_of_find? hw) v hv ((Table.find?_key hw).trans hvk.symm) with h | ⟨hlow, hlow'⟩
    · exact Or.inl (by rw [Option.map_some, Option.map_some, h])
    · exact Or.inr ⟨w.observations, v.observations, rfl, rfl, hlow, hlow'⟩

/-- Downtown at six in the morning and at the same hour of the day before. -/
def twoDays (count : Int) : Table WindowRow.pk :=
  (Table.empty.put ⟨"acme", source, "downtown", 48 * hour, 40⟩).put
    ⟨"acme", source, "downtown", 24 * hour, count⟩

theorem report_suppresses_twoDays : report "acme" (49 * hour) (twoDays 3) =
    report "acme" (49 * hour) (twoDays 19) :=
  report_suppresses "acme" (49 * hour) (twoDays 3) (twoDays 19)
    (fun k => by
      have hrows : (twoDays 3).rows.map WindowRow.pk = (twoDays 19).rows.map WindowRow.pk := by
        decide +kernel
      rw [hrows])
    (by
      have hall : ∀ w ∈ (twoDays 3).rows, ∀ v ∈ (twoDays 19).rows, w.pk = v.pk →
          w.observations = v.observations ∨ w.observations < 20 ∧ v.observations < 20 := by
        decide +kernel
      exact hall)

end Afterglow.Foottraffic.Report
