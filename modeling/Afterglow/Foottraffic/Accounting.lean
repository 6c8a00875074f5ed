import Afterglow.Foottraffic.Report
import Mathlib.Algebra.BigOperators.Group.List.Lemmas
import Mathlib.Algebra.Order.BigOperators.Group.List

/-! # What the report adds up

`Report` keeps its sums in the variables of two nested loops. `Tallied` says what they hold after some
hours of a zone, `Zoned` after some zones, both in terms of the cells alone: an hour keeps the one
(`Tallied.addHour`), a zone the other (`Zoned.addZone`). What a cell says of the table is `says_cell`. -/

namespace Afterglow.Foottraffic.Accounting

open Afterglow.Sql.Rows Afterglow.Foottraffic.Model Afterglow.Foottraffic.Store
open Afterglow.Foottraffic.Report

/-! ### The hours of a zone -/

/-- The count a current cell publishes. -/
def shown (a : Cell) : Int := if a.status = .reported then a.count.getD 0 else 0

/-- The hour has a count on both days. -/
def paired (p : Cell × Cell) : Bool := p.1.count.isSome && p.2.count.isSome

/-- The cells of an hour, today and a day earlier. -/
abbrev Hours := List (Cell × Cell)

/-- **The variables of the loop** that began in `r` with zone `z`, after the hours `ps`. -/
structure Tallied (r : Model.Report) (z : Zone) (ps : Hours) (l : Loop) : Prop where
  zone : l.zr.zone = z
  current : l.zr.current = ps.map (·.1)
  previous : l.zr.previous = ps.map (·.2)
  published : l.zr.published = (ps.map fun p => shown p.1).sum
  total : l.r.published = r.published + (ps.map fun p => shown p.1).sum
  released : l.r.released = r.released + ps.countP fun p => p.1.status = .reported
  suppressed : l.r.suppressed = r.suppressed + ps.countP fun p => p.1.status = .suppressed
  missing : l.r.missing = r.missing + ps.countP fun p => p.1.status = .missing
  comparable : l.zr.comparable = ps.countP paired
  today : l.current = ((ps.filter paired).map fun p => p.1.count.getD 0).sum
  yesterday : l.previous = ((ps.filter paired).map fun p => p.2.count.getD 0).sum
  zones : l.r.zones = r.zones

namespace Tallied

variable {r : Model.Report} {z : Zone} {ps : Hours} {l : Loop}

theorem start (r : Model.Report) (z : Zone) : Tallied r z [] ⟨r, ⟨z, [], [], 0, 0, none⟩, 0, 0⟩ := by
  constructor <;> simp

/-- The `switch` adds to the published counts and to one of the three numbers. -/
theorem tally_eq (l : Loop) (a : Cell) : l.tally a = { l with
    zr.published := l.zr.published + shown a
    r.published := l.r.published + shown a
    r.released := l.r.released + if a.status = .reported then 1 else 0
    r.suppressed := l.r.suppressed + if a.status = .suppressed then 1 else 0
    r.missing := l.r.missing + if a.status = .missing then 1 else 0 } := by
  unfold Loop.tally shown
  cases a.status <;> simp

/-- An hour that has a count on both days adds to the sums. -/
theorem compare_eq (l : Loop) (a b : Cell) : l.compare a b = { l with
    zr.comparable := l.zr.comparable + if paired (a, b) then 1 else 0
    current := l.current + if paired (a, b) then a.count.getD 0 else 0
    previous := l.previous + if paired (a, b) then b.count.getD 0 else 0 } := by
  unfold Loop.compare paired
  cases a.count <;> cases b.count <;> simp

/-- The sum over the hours that have a count on both days, with one more hour. -/
theorem sum_paired_snoc (f : Cell × Cell → Int) (ps : Hours) (p : Cell × Cell) :
    (((ps ++ [p]).filter paired).map f).sum =
      ((ps.filter paired).map f).sum + if paired p then f p else 0 := by
  rw [List.filter_append, List.map_append, List.sum_append, List.filter_singleton]
  split_ifs with hp
  · simp [hp]
  · simp [hp]

theorem sum_shown_snoc (ps : Hours) (p : Cell × Cell) :
    ((ps ++ [p]).map fun p => shown p.1).sum = (ps.map fun p => shown p.1).sum + shown p.1 := by
  rw [List.map_append, List.sum_append, List.map_singleton, List.sum_singleton]

/-- **One more hour.** -/
theorem addHour (h : Tallied r z ps l) (a b : Cell) : Tallied r z (ps ++ [(a, b)]) (l.addHour a b) := by
  unfold Loop.addHour
  rw [compare_eq, tally_eq]
  refine ⟨h.zone, ?_, ?_, ?_, ?_, ?_, ?_, ?_, ?_, ?_, ?_, h.zones⟩
  · rw [List.map_append, ← h.current]
    rfl
  · rw [List.map_append, ← h.previous]
    rfl
  · rw [sum_shown_snoc, ← h.published]
  · rw [sum_shown_snoc, ← add_assoc, ← h.total]
  · rw [List.countP_append, ← add_assoc, ← h.released, List.countP_singleton]
    simp only [decide_eq_true_eq]
  · rw [List.countP_append, ← add_assoc, ← h.suppressed, List.countP_singleton]
    simp only [decide_eq_true_eq]
  · rw [List.countP_append, ← add_assoc, ← h.missing, List.countP_singleton]
    simp only [decide_eq_true_eq]
  · rw [List.countP_append, ← h.comparable, List.countP_singleton]
  · rw [sum_paired_snoc, ← h.today]
  · rw [sum_paired_snoc, ← h.yesterday]

theorem hours (h : Tallied r z ps l) (qs : Hours) :
    Tallied r z (ps ++ qs) (qs.foldl (fun l p => l.addHour p.1 p.2) l) := by
  induction qs generalizing ps l with
  | nil =>
    rw [List.append_nil]
    exact h
  | cons q qs ih =>
    rw [List.append_cons]
    exact ih (h.addHour q.1 q.2)

end Tallied

/-! ### The zones -/

section Zones

variable (cells : String → Int → Cell) (start : Int)

/-- The hours of a zone. -/
def hoursOf (z : Zone) : Hours :=
  (List.range 6).map fun i : ℕ =>
    (cells z.id (start + i * hour), cells z.id (start + i * hour - 24 * hour))

/-- The sums over the hours that have a count on both days. -/
def sums (ps : Hours) : Int × Int :=
  (((ps.filter paired).map fun p => p.1.count.getD 0).sum,
    ((ps.filter paired).map fun p => p.2.count.getD 0).sum)

/-- The report of a zone, by its hours. -/
def zoneReport (z : Zone) : ZoneReport :=
  let ps := hoursOf cells start z
  { zone := z
    current := ps.map (·.1)
    previous := ps.map (·.2)
    published := (ps.map fun p => shown p.1).sum
    comparable := ps.countP paired
    change :=
      if 0 < ps.countP paired ∧ 0 < (sums ps).2 then
        some (100 * (((sums ps).1 - (sums ps).2 : Int) : ℚ) / (((sums ps).2 : Int) : ℚ))
      else none }

/-- The number of current cells of a status. -/
def counted (st : Status) (z : Zone) : ℕ := (hoursOf cells start z).countP fun p => p.1.status = st

/-- **The report** that began as `r₀`, after the zones `zs`. -/
structure Zoned (r₀ : Model.Report) (zs : List Zone) (r : Model.Report) : Prop where
  zones : r.zones = r₀.zones ++ zs.map (zoneReport cells start)
  published : r.published = r₀.published + (zs.map fun z => (zoneReport cells start z).published).sum
  released : r.released = r₀.released + (zs.map (counted cells start .reported)).sum
  suppressed : r.suppressed = r₀.suppressed + (zs.map (counted cells start .suppressed)).sum
  missing : r.missing = r₀.missing + (zs.map (counted cells start .missing)).sum

variable {cells start} {r₀ r : Model.Report} {zs : List Zone}

/-- **One more zone.** -/
theorem Zoned.addZone (h : Zoned cells start r₀ zs r) (z : Zone) :
    Zoned cells start r₀ (zs ++ [z]) (addZone cells start r z) := by
  have hloop : Tallied r z (hoursOf cells start z) ((List.range 6).foldl (fun (l : Loop) i =>
      l.addHour (cells z.id (start + i * hour)) (cells z.id (start + i * hour - 24 * hour)))
      ⟨r, ⟨z, [], [], 0, 0, none⟩, 0, 0⟩) := by
    have hours := (Tallied.start r z).hours (hoursOf cells start z)
    rw [hoursOf, List.foldl_map] at hours
    exact hours
  unfold Report.addZone
  simp only
  generalize (List.range 6).foldl (fun (l : Loop) i =>
    l.addHour (cells z.id (start + i * hour)) (cells z.id (start + i * hour - 24 * hour)))
    ⟨r, ⟨z, [], [], 0, 0, none⟩, 0, 0⟩ = l at hloop
  have hzone : { l.zr with change := (if 0 < l.zr.comparable ∧ 0 < l.previous then
      some (100 * ((l.current - l.previous : Int) : ℚ) / ((l.previous : Int) : ℚ)) else none) } =
        zoneReport cells start z := by
    simp only [hloop.zone, hloop.current, hloop.previous, hloop.published, hloop.comparable, hloop.today,
      hloop.yesterday]
    rfl
  refine ⟨?_, ?_, ?_, ?_, ?_⟩
  · show l.r.zones ++ _ = _
    rw [hzone, hloop.zones, h.zones, List.map_append, List.append_assoc]
    rfl
  · show l.r.published = _
    rw [hloop.total, h.published, List.map_append, List.sum_append, add_assoc]
    simp [zoneReport]
  · show l.r.released = _
    rw [hloop.released, h.released, List.map_append, List.sum_append, add_assoc]
    simp [counted]
  · show l.r.suppressed = _
    rw [hloop.suppressed, h.suppressed, List.map_append, List.sum_append, add_assoc]
    simp [counted]
  · show l.r.missing = _
    rw [hloop.missing, h.missing, List.map_append, List.sum_append, add_assoc]
    simp [counted]

theorem Zoned.all (h : Zoned cells start r₀ zs r) (ys : List Zone) :
    Zoned cells start r₀ (zs ++ ys) (ys.foldl (Report.addZone cells start) r) := by
  induction ys generalizing zs r with
  | nil =>
    rw [List.append_nil]
    exact h
  | cons y ys ih =>
    rw [List.append_cons]
    exact ih (h.addZone y)

end Zones

/-- A cell of a status is counted. -/
theorem one_le_counted {cells : String → Int → Cell} {start : Int} {st : Status} {z : Zone}
    (hz : z ∈ zones) {i : ℕ} (hi : i < 6) (h : (cells z.id (start + i * hour)).status = st) :
    1 ≤ (zones.map (counted cells start st)).sum := by
  have hone : 0 < counted cells start st z := by
    refine List.countP_pos_iff.mpr ⟨_, List.mem_map_of_mem (List.mem_range.mpr hi), ?_⟩
    exact decide_eq_true h
  exact le_trans hone (List.single_le_sum (fun _ _ => Nat.zero_le _) _ (List.mem_map_of_mem hz))

/-- **The report, by its cells.** -/
theorem zoned_report (tenant : String) (now : Int) (t : Table WindowRow.pk) :
    let cells := cell (values (observed tenant now t))
    Zoned cells (startOf now)
      ⟨source, true, now, startOf now, endOf now, threshold, 0, 0, 0, 0, [], scopeText⟩ zones
      (report tenant now t) := by
  intro cells
  have hnone : Zoned cells (startOf now)
      ⟨source, true, now, startOf now, endOf now, threshold, 0, 0, 0, 0, [], scopeText⟩ []
      ⟨source, true, now, startOf now, endOf now, threshold, 0, 0, 0, 0, [], scopeText⟩ := by
    constructor <;> rfl
  exact hnone.all zones

/-! ### What a cell says -/

/-- The window of a zone and an hour is stored, with `n` observations. -/
def Stored (t : Table WindowRow.pk) (tenant zone : String) (start n : Int) : Prop :=
  ⟨tenant, source, zone, start, n⟩ ∈ t

theorem stored_iff {t : Table WindowRow.pk} {tenant zone : String} {start n : Int} :
    Stored t tenant zone start n ↔ (t.find? (tenant, source, zone, start)).map (·.observations) = some n := by
  rw [Option.map_eq_some_iff]
  constructor
  · intro h
    exact ⟨_, Table.find?_of_mem h, rfl⟩
  · rintro ⟨w, hw, rfl⟩
    have hk := Table.find?_key hw
    simp only [WindowRow.pk, Prod.mk.injEq] at hk
    obtain ⟨rfl, hs, rfl, rfl⟩ := hk
    have hmem := Table.mem_of_find? hw
    rw [Stored, ← hs]
    exact hmem

/-- **What the cell of an hour of the two days says of the table.** -/
structure Says (t : Table WindowRow.pk) (tenant zone : String) (c : Cell) : Prop where
  reported : c.status = .reported ↔ ∃ n, c.count = some n
  count : ∀ n, c.count = some n ↔ Stored t tenant zone c.start n ∧ 20 ≤ n
  suppressed : c.status = .suppressed ↔ ∃ n, Stored t tenant zone c.start n ∧ n < 20
  missing : c.status = .missing ↔ ∀ n, ¬ Stored t tenant zone c.start n

theorem says_cell {t : Table WindowRow.pk} {tenant zone : String} {now start : Int}
    (hspan : startOf now - 24 * hour ≤ start ∧ start < endOf now) :
    Says t tenant zone (cell (values (observed tenant now t)) zone start) := by
  have hvalue : ∀ n, Stored t tenant zone start n ↔
      values (observed tenant now t) (zone, start) = some n := by
    intro n
    rw [values_observed, if_pos hspan, stored_iff]
  unfold cell
  cases hv : values (observed tenant now t) (zone, start) with
  | none =>
    constructor <;> simp [hvalue, hv]
  | some n =>
    by_cases hn : threshold ≤ n
    · unfold threshold at hn
      constructor <;> simp [threshold, hn, hvalue, hv]
    · unfold threshold at hn
      constructor <;> simp [threshold, hn, hvalue, hv] <;> omega

theorem cell_start {m : Values} {zone : String} {start : Int} : (cell m zone start).start = start := by
  unfold cell
  cases m (zone, start) with
  | none => rfl
  | some n =>
    dsimp only
    split_ifs <;> rfl

/-! ### The account -/

/-- **The report of a zone**, for the hours before `stop`. -/
structure Accounted (t : Table WindowRow.pk) (tenant : String) (stop : Int) (zr : ZoneReport) : Prop where
  current : zr.current.map (·.start) = (List.range 6).map fun i : ℕ => stop - 6 * 3600000 + i * 3600000
  previous : zr.previous.map (·.start) =
    (List.range 6).map fun i : ℕ => stop - 6 * 3600000 + i * 3600000 - 24 * 3600000
  cells : ∀ c ∈ zr.current ++ zr.previous, Says t tenant zr.zone.id c
  published : zr.published =
    ((zr.current.filter fun c => c.status = .reported).map fun c => c.count.getD 0).sum
  comparable : zr.comparable = (zr.current.zip zr.previous).countP paired
  present : zr.change.isSome ↔ 0 < zr.comparable
  change : ∀ x, zr.change = some x → 0 < (sums (zr.current.zip zr.previous)).2 ∧
    x = 100 * ((sums (zr.current.zip zr.previous)).1 - (sums (zr.current.zip zr.previous)).2 : ℚ) /
      ((sums (zr.current.zip zr.previous)).2 : ℚ)

theorem sum_shown (cs : List Cell) : (cs.map shown).sum =
    ((cs.filter fun c => c.status = .reported).map fun c => c.count.getD 0).sum := by
  induction cs with
  | nil => rfl
  | cons c cs ih =>
    rw [List.map_cons, List.sum_cons, ih, shown, List.filter_cons]
    split_ifs with h h' h'
    · rfl
    · exact absurd (decide_eq_true h) h'
    · exact absurd (of_decide_eq_true h') h
    · exact zero_add _

/-- The sum of the day before is positive as soon as an hour compares. -/
theorem sums_pos {ps : Hours} (hcount : ∀ p ∈ ps, ∀ n, p.2.count = some n → 20 ≤ n)
    (h : 0 < ps.countP paired) : 0 < (sums ps).2 := by
  refine List.sum_pos _ ?_ ?_
  · intro x hx
    obtain ⟨p, hp, rfl⟩ := List.mem_map.mp hx
    obtain ⟨hmem, hpair⟩ := List.mem_filter.mp hp
    obtain ⟨n, hn⟩ := Option.isSome_iff_exists.mp (Bool.and_eq_true_iff.mp hpair).2
    have hle := hcount p hmem n hn
    rw [hn, Option.getD_some]
    omega
  · obtain ⟨p, hp, hpair⟩ := List.countP_pos_iff.mp h
    exact List.ne_nil_of_mem (List.mem_map_of_mem (List.mem_filter.mpr ⟨hp, hpair⟩))

/-- The three numbers of cells are those of all cells. -/
theorem counted_add (cells : String → Int → Cell) (start : Int) (z : Zone) :
    counted cells start .reported z + counted cells start .suppressed z +
      counted cells start .missing z = 6 := by
  have hall : ∀ ps : Hours, (ps.countP fun p => p.1.status = .reported) +
      (ps.countP fun p => p.1.status = .suppressed) + (ps.countP fun p => p.1.status = .missing) =
        ps.length := by
    intro ps
    induction ps with
    | nil => rfl
    | cons p ps ih =>
      rw [List.length_cons, List.countP_cons, List.countP_cons, List.countP_cons, ← ih]
      cases p.1.status <;> simp <;> omega
  rw [counted, counted, counted, hall, hoursOf, List.length_map, List.length_range]

theorem sum_counted (cells : String → Int → Cell) (start : Int) (zs : List Zone) :
    (zs.map (counted cells start .reported)).sum + (zs.map (counted cells start .suppressed)).sum +
      (zs.map (counted cells start .missing)).sum = zs.length * 6 := by
  induction zs with
  | nil => rfl
  | cons z zs ih =>
    have hz := counted_add cells start z
    simp only [List.map_cons, List.sum_cons, List.length_cons]
    omega

variable {cells : String → Int → Cell} {t : Table WindowRow.pk} {tenant : String} {stop : Int}

/-- A zone is accounted for where its cells say what the table holds. -/
theorem accounted_zoneReport {z : Zone} (hstart : ∀ zone start, (cells zone start).start = start)
    (hcells : ∀ p ∈ hoursOf cells (stop - 6 * hour) z, Says t tenant z.id p.1 ∧ Says t tenant z.id p.2) :
    Accounted t tenant stop (zoneReport cells (stop - 6 * hour) z) := by
  have hzip : ((zoneReport cells (stop - 6 * hour) z).current.zip
      (zoneReport cells (stop - 6 * hour) z).previous) = hoursOf cells (stop - 6 * hour) z :=
    List.zip_of_prod rfl rfl
  have hpos : 0 < (hoursOf cells (stop - 6 * hour) z).countP paired →
      0 < (sums (hoursOf cells (stop - 6 * hour) z)).2 :=
    sums_pos fun p hp n hn => (((hcells p hp).2.count n).mp hn).2
  refine ⟨?_, ?_, ?_, ?_, ?_, ?_, ?_⟩
  · simp [zoneReport, hoursOf, hstart, hour]
  · simp [zoneReport, hoursOf, hstart, hour]
  · intro c hc
    rcases List.mem_append.mp hc with hc | hc
    · obtain ⟨p, hp, rfl⟩ := List.mem_map.mp hc
      exact (hcells p hp).1
    · obtain ⟨p, hp, rfl⟩ := List.mem_map.mp hc
      exact (hcells p hp).2
  · rw [← sum_shown]
    simp [zoneReport, Function.comp_def]
  · rw [hzip]
    rfl
  · show (ite _ _ _ : Option ℚ).isSome ↔ 0 < (hoursOf cells (stop - 6 * hour) z).countP paired
    constructor
    · intro h
      split_ifs at h with hc
      · exact hc.1
      · simp at h
    · intro h
      rw [if_pos ⟨h, hpos h⟩]
      rfl
  · intro x hx
    rw [hzip]
    have hx : (ite _ _ _ : Option ℚ) = some x := hx
    split_ifs at hx with hc
    refine ⟨hc.2, ?_⟩
    rw [← Option.some.inj hx, Int.cast_sub]

/-- **Report accounting.** -/
theorem report_accounting (tenant : String) (now : Int) (t : Table WindowRow.pk) :
    let r := report tenant now t
    r.zones.map (·.zone) = zones ∧
      (∀ zr ∈ r.zones, Accounted t tenant (now - now % 3600000) zr) ∧
      r.released + r.suppressed + r.missing = 4 * 6 ∧
      r.released = (r.zones.flatMap (·.current)).countP (fun c => c.status = .reported) ∧
      r.suppressed = (r.zones.flatMap (·.current)).countP (fun c => c.status = .suppressed) ∧
      r.missing = (r.zones.flatMap (·.current)).countP (fun c => c.status = .missing) ∧
      r.published = (r.zones.map (·.published)).sum := by
  intro r
  have hr : Zoned _ _ _ zones r := zoned_report tenant now t
  set cells := cell (values (observed tenant now t)) with hcells
  have hzones : r.zones = zones.map (zoneReport cells (startOf now)) := hr.zones
  have hcount (st : Status) : (r.zones.flatMap (·.current)).countP (fun c => c.status = st) =
      (zones.map (counted cells (startOf now) st)).sum := by
    rw [hzones, List.countP_flatMap, List.map_map]
    refine congrArg List.sum (List.map_congr_left fun z _ => ?_)
    simp [zoneReport, counted, List.countP_map, Function.comp_def]
  have hreleased := hr.released.trans (zero_add _)
  have hsuppressed := hr.suppressed.trans (zero_add _)
  have hmissing := hr.missing.trans (zero_add _)
  refine ⟨?_, ?_, ?_, ?_, ?_, ?_, ?_⟩
  · rw [hzones]
    rfl
  · intro zr hzr
    rw [hzones] at hzr
    obtain ⟨z, -, rfl⟩ := List.mem_map.mp hzr
    refine accounted_zoneReport ?_ ?_
    · intro zone start
      exact cell_start
    · intro p hp
      obtain ⟨i, hi, rfl⟩ := List.mem_map.mp hp
      rw [List.mem_range] at hi
      constructor
      · refine says_cell ?_
        unfold startOf endOf hour
        omega
      · refine says_cell ?_
        unfold startOf endOf hour
        omega
  · rw [hreleased, hsuppressed, hmissing]
    exact sum_counted cells (startOf now) zones
  · rw [hreleased, hcount]
  · rw [hsuppressed, hcount]
  · rw [hmissing, hcount]
  · rw [hr.published, hzones, List.map_map]
    exact zero_add _

end Afterglow.Foottraffic.Accounting
