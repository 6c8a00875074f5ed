import Afterglow.Foottraffic.Accounting
import Afterglow.Foottraffic.Canonical
import Afterglow.Foottraffic.Examples
import Afterglow.Foottraffic.Order

/-! # Sample feeds never conflict with themselves

The count of a window of a sample depends on the scenario, the zone and the hour alone (`countOf`), so
two samples agree on the hours they share. A sample is always accepted (`valid_sampleOf`), and its
identifier is that of its hour. `Fed` says what the tables hold of a namespace after some samples: one
more sample keeps it (`Fed.sample`), with a replay for an hour that came before. A random sample puts its
first three windows where the report of the same time shows them. -/

namespace Afterglow.Foottraffic.Samples

open Afterglow.Sql.Rows Afterglow.Sql.Txn Afterglow.Foottraffic.Model Afterglow.Foottraffic.Store
open Afterglow.Foottraffic.Fingerprint Afterglow.Foottraffic.Outcome Afterglow.Foottraffic.Ledger
open Afterglow.Foottraffic.Order Afterglow.Foottraffic.Report Afterglow.Foottraffic.Canonical
open Afterglow.Foottraffic.Examples Afterglow.Foottraffic.Accounting

/-! ### Names -/

/-- The characters of an identifier. -/
def Spelled (s : String) : Prop := ∀ c ∈ s.toList, (c.isAlphanum || c == '_' || c == '-') = true

theorem identity_of_spelled {s : String} (h : Spelled s) (hpos : 1 ≤ s.length) (hle : s.length ≤ 100) :
    identity s = true := by
  unfold identity
  simp only [Bool.and_eq_true, decide_eq_true_eq, List.all_eq_true]
  exact ⟨⟨hpos, hle⟩, h⟩

theorem spelled_of_all {s : String}
    (h : (s.toList.all fun c => c.isAlphanum || c == '_' || c == '-') = true) : Spelled s :=
  List.all_eq_true.mp h

theorem Spelled.append {s s' : String} (h : Spelled s) (h' : Spelled s') : Spelled (s ++ s') := by
  intro c hc
  rw [String.toList_append, List.mem_append] at hc
  rcases hc with hc | hc
  · exact h c hc
  · exact h' c hc

theorem spelled_toString (n : Int) : Spelled (toString n) := by
  intro c hc
  rcases mem_toString hc with hd | rfl
  · simp [Char.isAlphanum, hd]
  · rfl

/-- The decimal digits of a time. -/
theorem length_toString {n : Int} (hn : 0 ≤ n) (hlt : n < 2 ^ 63) :
    1 ≤ (toString n).length ∧ (toString n).length ≤ 19 := by
  obtain ⟨m, rfl⟩ := Int.eq_ofNat_of_zero_le hn
  have hm : m < 10 ^ 19 := by omega
  exact ⟨Nat.length_repr_pos, Nat.repr_length m 19 (by decide) hm⟩

theorem spelled_hexText (bytes : List UInt8) : Spelled (hexText bytes) := by
  have hdigit : ∀ n < 16, (Nat.digitChar n).isAlphanum = true := by decide
  intro c hc
  rw [hexText, String.toList_ofList, List.mem_flatMap] at hc
  obtain ⟨b, -, hc⟩ := hc
  have hb : b.toNat < 256 := b.toNat_lt
  simp only [List.mem_cons, List.not_mem_nil, or_false] at hc
  rcases hc with rfl | rfl
  · simp [hdigit (b.toNat / 16) (by omega)]
  · simp [hdigit (b.toNat % 16) (by omega)]

theorem length_hexText (bytes : List UInt8) : (hexText bytes).length = 2 * bytes.length := by
  rw [hexText, String.length_ofList, List.length_flatMap]
  simp [mul_comm]

/-- **The namespace of a scenario has a name that is accepted.** -/
theorem identity_scenarioTenant (sum : Sum) {tenant : String} (h : identity tenant = true)
    (scenario : Scenario) : identity (scenarioTenant sum tenant scenario) = true := by
  unfold scenarioTenant
  split_ifs with hs
  · exact h
  · have hlen : ("traffic-sample-" ++ sum.text (tenant ++ "\x00" ++ scenario.id)).length = 79 := by
      rw [String.length_append, Sum.text, length_hexText, Vector.length_toList]
      rfl
    have hspelled : Spelled "traffic-sample-" := spelled_of_all (by decide)
    exact identity_of_spelled (hspelled.append (spelled_hexText _)) (by omega) (by omega)

/-! ### The windows of a sample -/

/-- The hours a sample has. -/
def hours (stop : Int) : List Int :=
  (List.range 2).flatMap fun day => (List.range' 1 6).map fun h : ℕ => stop - (h + day * 24 : ℕ) * hour

/-- The windows of one hour. -/
def hourWindows (sum : Sum) (t : Int) : List Window :=
  zones.zipIdx.map fun (z, i) => ⟨z.id, t, exampleCount sum i z.id t⟩

/-- The window of a zone and an hour, as the baseline counts it. -/
def hourly (sum : Sum) (zone : String) (t : Int) : Window :=
  ⟨zone, t, exampleCount sum (zones.findIdx fun z => z.id = zone) zone t⟩

/-- **The count of a zone and an hour in a scenario**, where there is one. -/
def countOf (sum : Sum) (scenario : Scenario) (zone : String) (t : Int) : Option Int :=
  (recount sum scenario (hourly sum zone t)).map (·.count)

theorem windows_exampleBatch (sum : Sum) (now : Int) :
    (exampleBatch sum now).windows = (hours (endOf now)).flatMap (hourWindows sum) := by
  rw [hours, List.flatMap_assoc]
  simp only [List.flatMap_map]
  rfl

theorem mem_hours {stop t : Int} : t ∈ hours stop ↔
    ∃ k : ℕ, (1 ≤ k ∧ k ≤ 6 ∨ 25 ≤ k ∧ k ≤ 30) ∧ t = stop - k * hour := by
  unfold hours
  simp only [List.mem_flatMap, List.mem_range, List.mem_map, List.mem_range'_1]
  constructor
  · rintro ⟨day, hday, h, hh, rfl⟩
    exact ⟨h + day * 24, by omega, rfl⟩
  · rintro ⟨k, hk | hk, rfl⟩
    · exact ⟨0, by omega, k, by omega, by simp⟩
    · exact ⟨1, by omega, k - 24, by omega, by congr 3; omega⟩

theorem nodup_hours (stop : Int) : (hours stop).Nodup := by
  have hmap : hours stop =
      ((List.range 2).flatMap fun day => (List.range' 1 6).map fun h : ℕ => h + day * 24).map
        fun k : ℕ => stop - k * hour := by
    rw [List.map_flatMap]
    simp only [List.map_map]
    rfl
  rw [hmap]
  refine List.Nodup.map ?_ (by decide)
  intro k l hkl
  simp only [hour] at hkl
  omega

theorem findIdx_zones : ∀ p ∈ zones.zipIdx, zones.findIdx (fun z => z.id = p.1.id) = p.2 := by
  decide +kernel

theorem mem_zipIdx_zones : ∀ z ∈ zones, (z, zones.findIdx fun y => y.id = z.id) ∈ zones.zipIdx := by
  decide +kernel

theorem mem_hourWindows {sum : Sum} {t : Int} {w : Window} : w ∈ hourWindows sum t ↔
    (∃ z ∈ zones, z.id = w.zone) ∧ w = hourly sum w.zone t := by
  constructor
  · intro hw
    obtain ⟨⟨z, i⟩, hz, rfl⟩ := List.mem_map.mp hw
    have hi : zones.findIdx (fun y => y.id = z.id) = i := findIdx_zones (z, i) hz
    refine ⟨⟨z, (List.mem_zipIdx' hz).2 ▸ List.getElem_mem _, rfl⟩, ?_⟩
    rw [hourly, hi]
  · rintro ⟨⟨z, hz, hid⟩, hw⟩
    rw [hw, ← hid]
    exact List.mem_map.mpr ⟨_, mem_zipIdx_zones z hz, rfl⟩

theorem mem_exampleBatch {sum : Sum} {now : Int} {w : Window} : w ∈ (exampleBatch sum now).windows ↔
    (∃ z ∈ zones, z.id = w.zone) ∧ w.start ∈ hours (endOf now) ∧ w = hourly sum w.zone w.start := by
  rw [windows_exampleBatch, List.mem_flatMap]
  constructor
  · rintro ⟨t, ht, hw⟩
    obtain ⟨hz, hw⟩ := mem_hourWindows.mp hw
    have hstart : w.start = t := by rw [hw]; rfl
    rw [hstart]
    exact ⟨hz, ht, hw⟩
  · rintro ⟨hz, ht, hw⟩
    exact ⟨w.start, ht, mem_hourWindows.mpr ⟨hz, hw⟩⟩

theorem nodup_exampleBatch (sum : Sum) (now : Int) : ((exampleBatch sum now).windows.map slot).Nodup := by
  rw [windows_exampleBatch, List.map_flatMap, List.nodup_flatMap]
  have hslots (t : Int) : (hourWindows sum t).map slot = zones.map fun z => (z.id, t) := rfl
  constructor
  · intro t _
    rw [hslots]
    simp [zones]
  · refine (nodup_hours (endOf now)).imp fun {t u} htu => ?_
    intro k hk hk'
    simp only [hslots] at hk hk'
    obtain ⟨z, -, rfl⟩ := List.mem_map.mp hk
    obtain ⟨z', -, heq⟩ := List.mem_map.mp hk'
    exact htu (Prod.mk.inj heq).2.symm

theorem length_exampleBatch (sum : Sum) (now : Int) : (exampleBatch sum now).windows.length = 48 := rfl

/-- Windows that are hourly again, or left out, keep their slots apart. -/
theorem sublist_filterMap {α β γ : Type} {f : α → Option β} {k : α → γ} {k' : β → γ}
    (h : ∀ a b, f a = some b → k' b = k a) (l : List α) :
    ((l.filterMap f).map k').Sublist (l.map k) := by
  induction l with
  | nil => exact List.Sublist.refl _
  | cons a l ih =>
    rw [List.filterMap_cons, List.map_cons]
    cases hf : f a with
    | none => exact ih.cons _
    | some b =>
      rw [List.map_cons, h a b hf]
      exact ih.cons_cons _

/-! ### The fixed scenarios -/

/-- The identifier of the sample of an hour. -/
def sampleId (scenario : Scenario) (stop : Int) : String :=
  if scenario = .baseline then "sample-" ++ toString (stop / 1000)
  else "sample-" ++ scenario.id ++ "-" ++ toString (stop / 1000)

/-- The sample of a scenario that is not random. -/
def sampleOf (sum : Sum) (scenario : Scenario) (now : Int) : Batch :=
  ⟨sampleId scenario (endOf now), source, (exampleBatch sum now).windows.filterMap (recount sum scenario)⟩

theorem validScenario_id (scenario : Scenario) : validScenario scenario.id = some scenario := by
  cases scenario <;> rfl

theorem exampleForScenario_fixed {scenario : Scenario} (h : scenario ≠ .random) (sum : Sum)
    (entropy : Option Entropy) (now : Int) :
    exampleForScenario sum entropy now scenario.id = .ok (sampleOf sum scenario now) := by
  rw [exampleForScenario, validScenario_id]
  cases scenario with
  | random => exact absurd rfl h
  | baseline =>
    have hsame : (exampleBatch sum now).windows.filterMap (recount sum .baseline) =
        (exampleBatch sum now).windows := List.filterMap_some
    rw [sampleOf, hsame]
    rfl
  | _ => rfl

section Fixed

variable {sum : Sum} {scenario : Scenario} {now : Int}

theorem first_lt (sum : Sum) (s : String) : sum.first s < 256 := UInt8.toNat_lt _

theorem exampleCount_le (sum : Sum) {i : ℕ} (hi : i ≤ 4) (zone : String) (t : Int) :
    0 ≤ exampleCount sum i zone t ∧ exampleCount sum i zone t ≤ 1000 := by
  unfold exampleCount
  dsimp only
  split_ifs <;> omega

theorem hourly_le (sum : Sum) (zone : String) (t : Int) :
    0 ≤ (hourly sum zone t).count ∧ (hourly sum zone t).count ≤ 1000 :=
  exampleCount_le sum List.findIdx_le_length zone t

/-- The remainder of Go's `%` for a number that is not negative. -/
theorem tmod_bounds (n : ℕ) {b : Int} (hb : 0 < b) : 0 ≤ (n : Int).tmod b ∧ (n : Int).tmod b < b :=
  ⟨Int.tmod_nonneg b (Int.natCast_nonneg n), Int.tmod_lt_of_pos n hb⟩

theorem recount_slot {w v : Window} (h : recount sum scenario w = some v) : slot v = slot w := by
  unfold recount at h
  dsimp only at h
  split at h <;> (try split_ifs at h) <;> cases h <;> rfl

/-- **The count of a window that is kept** has at most four digits. -/
theorem recount_le {w v : Window} (h : recount sum scenario w = some v)
    (hw : 0 ≤ w.count ∧ w.count ≤ 1000) : 0 ≤ v.count ∧ v.count ≤ 10000 := by
  have hash := first_lt sum (scenario.id ++ "-" ++ w.zone ++ "-" ++ toString w.start)
  unfold recount at h
  dsimp only at h
  generalize sum.first (scenario.id ++ "-" ++ w.zone ++ "-" ++ toString w.start) = n at h hash
  have h₁₅ := tmod_bounds n (show (0 : Int) < 15 by decide)
  have h₁₇ := tmod_bounds n (show (0 : Int) < 17 by decide)
  have h₁₀₀ := tmod_bounds n (show (0 : Int) < 100 by decide)
  have h₉₀ := tmod_bounds n (show (0 : Int) < 90 by decide)
  have hlow := Int.lt_tmod_of_pos (hourNumber w + w.zone.utf8ByteSize) (show (0 : Int) < 2 by decide)
  have hhigh := Int.tmod_lt_of_pos (hourNumber w + w.zone.utf8ByteSize) (show (0 : Int) < 2 by decide)
  split at h <;> (try split_ifs at h) <;> cases h <;> first | omega | (dsimp only; omega)

theorem mem_sampleOf {w : Window} : w ∈ (sampleOf sum scenario now).windows ↔
    (∃ z ∈ zones, z.id = w.zone) ∧ w.start ∈ hours (endOf now) ∧
      countOf sum scenario w.zone w.start = some w.count := by
  show w ∈ (exampleBatch sum now).windows.filterMap (recount sum scenario) ↔ _
  rw [List.mem_filterMap]
  constructor
  · rintro ⟨v, hv, hw⟩
    obtain ⟨hz, hstart, hhourly⟩ := mem_exampleBatch.mp hv
    obtain ⟨hzone, ht⟩ := Prod.mk.inj (recount_slot hw)
    rw [hzone, ht, countOf, ← hhourly, hw]
    exact ⟨hz, hstart, rfl⟩
  · rintro ⟨hz, hstart, hcount⟩
    obtain ⟨v, hv, hvc⟩ := Option.map_eq_some_iff.mp hcount
    refine ⟨hourly sum w.zone w.start, mem_exampleBatch.mpr ⟨hz, hstart, rfl⟩, ?_⟩
    obtain ⟨hzone, ht⟩ := Prod.mk.inj (recount_slot hv)
    rw [hv, show v = w from ?_]
    cases v
    cases w
    simp_all [hourly]

/-- A sample has the window of downtown in some hour. -/
theorem sampleOf_ne_nil (sum : Sum) (scenario : Scenario) (hnow : 30 * hour ≤ now) :
    (sampleOf sum scenario now).windows ≠ [] := by
  -- of six hours in a row, one has remainder five
  have hex : ∃ t ∈ hours (endOf now), (t.tdiv 3600000).tmod 6 = 5 := by
    refine ⟨endOf now - (now / 3600000 % 6 + 1) * hour,
      mem_hours.mpr ⟨(now / 3600000 % 6).toNat + 1, ?_, ?_⟩, ?_⟩
    · omega
    · congr 2
      omega
    · have hpos : 0 ≤ endOf now - (now / 3600000 % 6 + 1) * hour := by
        unfold endOf hour at *
        omega
      rw [Int.tdiv_eq_ediv_of_nonneg hpos, Int.tmod_eq_emod_of_nonneg (Int.ediv_nonneg hpos (by decide))]
      unfold endOf hour
      omega
  obtain ⟨t, ht, hmod⟩ := hex
  have hkept : ∃ n, countOf sum scenario "downtown" t = some n := by
    cases scenario <;> simp [countOf, recount, hourly, hourNumber, hmod]
  obtain ⟨n, hn⟩ := hkept
  have hmem : ⟨"downtown", t, n⟩ ∈ (sampleOf sum scenario now).windows :=
    mem_sampleOf.mpr ⟨⟨_, List.mem_cons_self, rfl⟩, ht, hn⟩
  exact List.ne_nil_of_mem hmem

theorem endOf_bounds (hnow : 30 * hour ≤ now) (hlt : now < 2 ^ 63) :
    30 * hour ≤ endOf now ∧ endOf now < 2 ^ 63 := by
  unfold endOf hour at *
  omega

theorem identity_sampleId (scenario : Scenario) {stop : Int} (hpos : 0 ≤ stop) (hlt : stop < 2 ^ 63) :
    identity (sampleId scenario stop) = true := by
  have hsample : Spelled "sample-" := spelled_of_all (by decide)
  have hdash : Spelled "-" := spelled_of_all (by decide)
  have hid : Spelled scenario.id ∧ scenario.id.length ≤ 12 := by
    cases scenario <;> exact ⟨spelled_of_all (by decide), by decide⟩
  have hlen := length_toString (n := stop / 1000) (by omega) (by omega)
  unfold sampleId
  split_ifs
  · refine identity_of_spelled (hsample.append (spelled_toString _)) ?_ ?_
    · rw [String.length_append]
      omega
    · rw [String.length_append, show "sample-".length = 7 from rfl]
      omega
  · refine identity_of_spelled (((hsample.append hid.1).append hdash).append (spelled_toString _)) ?_ ?_
    · simp only [String.length_append]
      omega
    · simp only [String.length_append, show "sample-".length = 7 from rfl, show "-".length = 1 from rfl]
      omega

/-- The identifier tells the hours apart. -/
theorem sampleId_inj {m : Int} (h : sampleId scenario (endOf m) = sampleId scenario (endOf now)) :
    endOf m = endOf now := by
  have hseconds : toString (endOf m / 1000) = toString (endOf now / 1000) := by
    unfold sampleId at h
    split_ifs at h
    · exact String.append_right_inj _ |>.mp h
    · exact String.append_right_inj _ |>.mp h
  have heq := Int.repr_injective hseconds
  unfold endOf hour at *
  omega

theorem fit_of_hours {w : Window} (hz : ∃ z ∈ zones, z.id = w.zone)
    (hstart : w.start ∈ hours (endOf now)) (hcount : 0 ≤ w.count ∧ w.count ≤ 10000) :
    Fit (now / 3600000 * 3600000) w := by
  obtain ⟨k, hk, ht⟩ := mem_hours.mp hstart
  rw [endOf_eq, hour] at ht
  refine ⟨?_, ⟨hcount.1, by omega⟩, ?_, ?_⟩
  · obtain ⟨z, hmem, hid⟩ := hz
    rw [← hid]
    have hall : ∀ z ∈ zones, z.id ∈ ["downtown", "transit", "retail", "neighborhood"] := by decide +kernel
    exact hall z hmem
  · rw [ht]
    omega
  · omega

/-- **A sample is accepted** at its time. -/
theorem valid_sampleOf (sum : Sum) (scenario : Scenario) {scope : String} (hscope : identity scope = true)
    (hnow : 30 * hour ≤ now) (hlt : now < 2 ^ 63) :
    valid scope (sampleOf sum scenario now) now = true := by
  obtain ⟨hstop, hstop'⟩ := endOf_bounds hnow hlt
  have hnil := sampleOf_ne_nil sum scenario hnow
  refine valid_iff.mpr ⟨named_iff.mp hscope, ?_, rfl, ⟨?_, ?_⟩, ?_, ?_⟩
  · exact named_iff.mp (identity_sampleId scenario (by unfold hour at hstop; omega) hstop')
  · exact List.length_pos_iff.mpr hnil
  · have hle := List.length_filterMap_le (recount sum scenario) (exampleBatch sum now).windows
    rw [length_exampleBatch] at hle
    exact le_trans hle (by decide)
  · intro w hw
    obtain ⟨hz, hstart, hcount⟩ := mem_sampleOf.mp hw
    obtain ⟨v, hv, hvc⟩ := Option.map_eq_some_iff.mp hcount
    exact fit_of_hours hz hstart (hvc ▸ recount_le hv (hourly_le sum _ _))
  · refine slots_iff.mp ((nodup_exampleBatch sum now).sublist ?_)
    exact sublist_filterMap (fun w v hv => recount_slot hv) _

end Fixed

/-! ### Samples one after the other -/

/-- The loop over rows that agree with those stored and with each other. -/
theorem load_agree : ∀ (rs : List WindowRow) (t : Table WindowRow.pk) (n : ℕ),
    (∀ r ∈ rs, ∀ x ∈ t, x.pk = r.pk → x = r) → (∀ r ∈ rs, ∀ x ∈ rs, x.pk = r.pk → x = r) →
    ∃ t' n', load t rs n = some (t', n')
  | [], t, n, _, _ => ⟨t, n, rfl⟩
  | r :: rs, t, n, ht, hrs => by
    have htail : ∀ y ∈ rs, ∀ x ∈ rs, x.pk = y.pk → x = y := fun y hy x hx =>
      hrs y (List.mem_cons_of_mem r hy) x (List.mem_cons_of_mem r hx)
    rw [load]
    cases hfind : t.find? r.pk with
    | none =>
      refine load_agree rs (t.put r) (n + 1) (fun y hy x hx hk => ?_) htail
      rcases Table.mem_put.mp hx with rfl | ⟨hx, -⟩
      · exact hrs y (List.mem_cons_of_mem x hy) x List.mem_cons_self hk
      · exact ht y (List.mem_cons_of_mem r hy) x hx hk
    | some x =>
      have hx : x = r := ht r List.mem_cons_self x (Table.mem_of_find? hfind) (Table.find?_key hfind)
      simp only [hx, if_true]
      exact load_agree rs t n (fun y hy => ht y (List.mem_cons_of_mem r hy)) htail

/-- One sample: what `ExampleForScenario` gives at `now`, ingested at `now`. A fixed scenario draws no
bytes. -/
def sample (sum : Sum) (scope id : String) (now : Int) (s : Traffic) : Except TrafficErr Result × Traffic :=
  match exampleForScenario sum none now id with
  | .error e => (.error e, s)
  | .ok b => traffic.atomic (Store.ingest sum.text scope b now false) s

/-- A sample at each of the times: the answers, and the tables after them. -/
def feed (sum : Sum) (scope id : String) : List Int → Traffic → List (Except TrafficErr Result) × Traffic
  | [], s => ([], s)
  | now :: times, s =>
    let x := sample sum scope id now s
    let rest := feed sum scope id times x.2
    (x.1 :: rest.1, rest.2)

theorem length_feed {sum : Sum} {scope id : String} : ∀ {times : List Int} {s : Traffic},
    (feed sum scope id times s).1.length = times.length
  | [], _ => rfl
  | _ :: _, _ => congrArg (· + 1) length_feed

/-- **What the tables hold of the namespace** after samples at the times `done`. -/
structure Fed (sum : Sum) (scenario : Scenario) (scope : String) (done : List Int) (s : Traffic) : Prop where
  ledger : ∀ id fp, Entered s scope id fp ↔ ∃ n ∈ done,
    id = (sampleOf sum scenario n).id ∧ fp = fingerprint sum.text (sampleOf sum scenario n)
  windows : ∀ w, w.tenant = scope →
    (w ∈ s.windows ↔ ∃ n ∈ done, w ∈ rowsOf scope (sampleOf sum scenario n))

section Feed

variable {sum : Sum} {scenario : Scenario} {scope : String} {done : List Int} {s : Traffic} {now : Int}

theorem mem_rowsOf_sampleOf {w : WindowRow} : w ∈ rowsOf scope (sampleOf sum scenario now) ↔
    w.tenant = scope ∧ w.source = source ∧ (∃ z ∈ zones, z.id = w.zone) ∧
      w.start ∈ hours (endOf now) ∧ countOf sum scenario w.zone w.start = some w.observations := by
  rw [mem_rowsOf, mem_sampleOf]
  exact Iff.rfl

/-- Samples agree on the windows they share. -/
theorem rowsOf_agree {m : Int} {w v : WindowRow} (hw : w ∈ rowsOf scope (sampleOf sum scenario m))
    (hv : v ∈ rowsOf scope (sampleOf sum scenario now)) (hk : w.pk = v.pk) : w = v := by
  obtain ⟨-, -, -, -, hcount⟩ := mem_rowsOf_sampleOf.mp hw
  obtain ⟨-, -, -, -, hcount'⟩ := mem_rowsOf_sampleOf.mp hv
  refine row_ext hk ?_
  simp only [WindowRow.pk, Prod.mk.injEq] at hk
  rw [hk.2.2.1, hk.2.2.2, hcount'] at hcount
  exact (Option.some.inj hcount).symm

theorem sampleOf_congr {m : Int} (h : endOf m = endOf now) :
    sampleOf sum scenario m = sampleOf sum scenario now := by
  unfold sampleOf exampleBatch
  rw [h]

theorem exists_mem_snoc {p : Int → Prop} :
    (∃ n ∈ done ++ [now], p n) ↔ (∃ n ∈ done, p n) ∨ p now := by
  simp only [List.mem_append, List.mem_singleton, or_and_right, exists_or, exists_eq_left]

/-- A sample of an hour that came before changes nothing. -/
theorem Fed.again (h : Fed sum scenario scope done s) {m : Int} (hm : m ∈ done)
    (hsame : endOf m = endOf now) : Fed sum scenario scope (done ++ [now]) s := by
  have hsample : sampleOf sum scenario now = sampleOf sum scenario m := (sampleOf_congr hsame).symm
  refine ⟨fun id fp => ?_, fun w hw => ?_⟩
  · rw [exists_mem_snoc, h.ledger id fp, hsample]
    exact (or_iff_left_of_imp fun hp => ⟨m, hm, hp⟩).symm
  · rw [exists_mem_snoc, h.windows w hw, hsample]
    exact (or_iff_left_of_imp fun hp => ⟨m, hm, hp⟩).symm

/-- A sample of a new hour is added. -/
theorem Fed.add (h : Fed sum scenario scope done s) {t : Table WindowRow.pk} {n : ℕ}
    (hnew : New s scope (sampleOf sum scenario now))
    (hload : load s.windows (rowsOf scope (canonical (sampleOf sum scenario now))) 0 = some (t, n)) :
    Fed sum scenario scope (done ++ [now])
      (storing sum.text scope (sampleOf sum scenario now) n t s) := by
  refine ⟨fun id fp => ?_, fun w hw => ?_⟩
  · rw [exists_mem_snoc, ← h.ledger id fp, entered_storing hnew]
    simp only [true_and]
  · show w ∈ t ↔ _
    rw [exists_mem_snoc, ← h.windows w hw, mem_load hload w, mem_rowsOf_canonical]

/-- **One more sample.** -/
theorem Fed.sample (h : Fed sum scenario scope done s) (hfixed : scenario ≠ .random)
    (hscope : identity scope = true) (hnow : 30 * hour ≤ now) (hlt : now < 2 ^ 63) :
    ∃ r s', sample sum scope scenario.id now s = (.ok r, s') ∧
      (r.replayed = true ↔ ∃ m ∈ done, endOf m = endOf now) ∧
      Fed sum scenario scope (done ++ [now]) s' := by
  have hvalid := valid_sampleOf sum scenario hscope hnow hlt
  have hold {row : BatchRow} (hrow : s.batches.find? (scope, (sampleOf sum scenario now).id) = some row) :
      ∃ m ∈ done, endOf m = endOf now ∧
        row.fingerprint = fingerprint sum.text (sampleOf sum scenario now) := by
    obtain ⟨m, hm, hid, hfp⟩ := (h.ledger _ _).mp (entered_of_find? hrow)
    have hsame : endOf now = endOf m := sampleId_inj hid
    exact ⟨m, hm, hsame.symm, by rw [hfp, sampleOf_congr hsame]⟩
  have hout := ingest_out sum.text scope (sampleOf sum scenario now) now false s
  unfold Samples.sample
  rw [exampleForScenario_fixed hfixed]
  dsimp only
  generalize traffic.atomic (Store.ingest sum.text scope (sampleOf sum scenario now) now false) s = x at hout
  cases hout with
  | invalid hv => rw [hvalid] at hv; cases hv
  | clash hv row hrow hne =>
    obtain ⟨m, -, -, hfp⟩ := hold hrow
    exact absurd hfp hne
  | replayed hv row hrow heq =>
    obtain ⟨m, hm, hsame, -⟩ := hold hrow
    exact ⟨_, _, rfl, iff_of_true rfl ⟨m, hm, hsame⟩, h.again hm hsame⟩
  | conflict hv hnew hload =>
    -- the stored windows of the namespace come from samples, which agree with this one
    obtain ⟨t, n, hsome⟩ := load_agree
      (rowsOf scope (canonical (sampleOf sum scenario now))) s.windows 0
      (fun r hr x hx hk => by
        rw [mem_rowsOf_canonical] at hr
        have htenant : x.tenant = scope := (congrArg Prod.fst hk).trans (mem_rowsOf.mp hr).1
        obtain ⟨m, -, hxm⟩ := (h.windows x htenant).mp hx
        exact rowsOf_agree hxm hr hk)
      (fun r hr x hx hk => rowsOf_agree (mem_rowsOf_canonical.mp hx) (mem_rowsOf_canonical.mp hr) hk)
    rw [show (base false scope s).windows = s.windows from rfl, hsome] at hload
    cases hload
  | stored hv hnew t n hload =>
    refine ⟨_, _, rfl, iff_of_false Bool.false_ne_true ?_, h.add hnew hload⟩
    rintro ⟨m, hm, hsame⟩
    refine new_iff.mp hnew _ ((h.ledger _ _).mpr ⟨m, hm, ?_, rfl⟩)
    rw [sampleOf_congr hsame]

/-- The namespace has no rows. -/
def Unused (scope : String) (s : Traffic) : Prop :=
  (∀ r ∈ s.batches, r.tenant ≠ scope) ∧ ∀ w ∈ s.windows, w.tenant ≠ scope

theorem Fed.start (h : Unused scope s) : Fed sum scenario scope [] s := by
  refine ⟨fun id fp => ?_, fun w hw => ?_⟩
  · refine iff_of_false ?_ (by simp)
    rintro ⟨n, hn⟩
    exact h.1 _ hn rfl
  · exact iff_of_false (fun hmem => h.2 w hmem hw) (by simp)

/-- **A feed**: every call succeeds, and is a replay where its hour came before. -/
theorem Fed.feed (hfixed : scenario ≠ .random) (hscope : identity scope = true) :
    ∀ {times done : List Int} {s : Traffic}, Fed sum scenario scope done s →
    (∀ n ∈ times, 30 * hour ≤ n ∧ n < 2 ^ 63) →
    Fed sum scenario scope (done ++ times) (Samples.feed sum scope scenario.id times s).2 ∧
      ∀ i (hi : i < times.length), ∃ r,
        (Samples.feed sum scope scenario.id times s).1[i]? = some (.ok r) ∧
        (r.replayed = true ↔ ∃ m ∈ done ++ times.take i, endOf m = endOf (times.get ⟨i, hi⟩))
  | [], done, s, h, _ => by
    rw [List.append_nil]
    exact ⟨h, fun i hi => absurd hi (Nat.not_lt_zero i)⟩
  | now :: times, done, s, h, htimes => by
    obtain ⟨hnow, hlt⟩ := htimes now List.mem_cons_self
    obtain ⟨r, s', hsample, hreplayed, h'⟩ := h.sample hfixed hscope hnow hlt
    obtain ⟨hfed, hrest⟩ := Fed.feed hfixed hscope h' fun n hn => htimes n (List.mem_cons_of_mem now hn)
    rw [Samples.feed, hsample]
    refine ⟨by rw [List.append_cons]; exact hfed, fun i hi => ?_⟩
    cases i with
    | zero =>
      refine ⟨r, rfl, ?_⟩
      rw [List.take_zero, List.append_nil]
      exact hreplayed
    | succ i =>
      obtain ⟨r', hr', hiff⟩ := hrest i (Nat.lt_of_succ_lt_succ hi)
      refine ⟨r', hr', ?_⟩
      rw [List.take_succ_cons, List.append_cons]
      exact hiff

end Feed

/-! ### The random sample -/

section Random

variable {sum : Sum} {entropy : Entropy} {now : Int} {scope : String} {s : Traffic}

/-- The batch `randomExample` makes of the bytes it draws. -/
def randomBatch (sum : Sum) (entropy : Entropy) (now : Int) : Batch :=
  { exampleBatch sum now with
    id := "random-" ++ hexText (entropy.toList.take 16)
    windows := (exampleBatch sum now).windows.zipIdx.filterMap fun (w, i) => randomWindow entropy w i }

theorem exampleForScenario_random (sum : Sum) (entropy : Entropy) (now : Int) :
    exampleForScenario sum (some entropy) now "random" = .ok (randomBatch sum entropy now) := rfl

theorem randomWindow_slot {w v : Window} {i : ℕ} (h : randomWindow entropy w i = some v) :
    slot v = slot w := by
  unfold randomWindow at h
  dsimp only at h
  split_ifs at h <;> cases h <;> rfl

theorem randomWindow_le {w v : Window} {i : ℕ} (h : randomWindow entropy w i = some v) :
    0 ≤ v.count ∧ v.count ≤ 10000 := by
  unfold randomWindow at h
  dsimp only at h
  split_ifs at h <;> cases h <;> dsimp only <;> omega

theorem mem_randomBatch {w : Window} : w ∈ (randomBatch sum entropy now).windows ↔
    ∃ v i, (exampleBatch sum now).windows[i]? = some v ∧ randomWindow entropy v i = some w := by
  unfold randomBatch
  rw [List.mem_filterMap]
  constructor
  · rintro ⟨⟨v, i⟩, hv, hw⟩
    exact ⟨v, i, List.mem_zipIdx_iff_getElem?.mp hv, hw⟩
  · rintro ⟨v, i, hv, hw⟩
    exact ⟨(v, i), List.mem_zipIdx_iff_getElem?.mpr hv, hw⟩

theorem nodup_randomBatch (sum : Sum) (entropy : Entropy) (now : Int) :
    ((randomBatch sum entropy now).windows.map slot).Nodup := by
  have hsub := sublist_filterMap (f := fun p : Window × ℕ => randomWindow entropy p.1 p.2)
    (k := fun p => slot p.1) (fun p v hv => randomWindow_slot hv) (exampleBatch sum now).windows.zipIdx
  refine List.Nodup.sublist hsub ?_
  have hfst : ((exampleBatch sum now).windows.zipIdx.map fun p => slot p.1) =
      (exampleBatch sum now).windows.map slot := by
    have hmap := congrArg (List.map slot) (List.zipIdx_map_fst 0 (exampleBatch sum now).windows)
    rw [List.map_map] at hmap
    exact hmap
  rw [hfst]
  exact nodup_exampleBatch sum now

/-- The first three windows are those of the last hour. -/
theorem first_windows (sum : Sum) (now : Int) : ∃ a b c,
    (exampleBatch sum now).windows[0]? = some ⟨"downtown", endOf now - hour, a⟩ ∧
      (exampleBatch sum now).windows[1]? = some ⟨"transit", endOf now - hour, b⟩ ∧
      (exampleBatch sum now).windows[2]? = some ⟨"retail", endOf now - hour, c⟩ := by
  have hlast : endOf now - ((1 + 0 * 24 : ℕ) : Int) * hour = endOf now - hour := by omega
  rw [← hlast]
  exact ⟨_, _, _, rfl, rfl, rfl⟩

/-- One count from the threshold on, one below it, and one hour left out. -/
theorem three_windows (sum : Sum) (entropy : Entropy) (now : Int) :
    (∃ n, 20 ≤ n ∧ ⟨"downtown", endOf now - hour, n⟩ ∈ (randomBatch sum entropy now).windows) ∧
      (∃ n, n < 20 ∧ ⟨"transit", endOf now - hour, n⟩ ∈ (randomBatch sum entropy now).windows) ∧
      ∀ n, ⟨"retail", endOf now - hour, n⟩ ∉ (randomBatch sum entropy now).windows := by
  obtain ⟨a, b, c, h₀, h₁, h₂⟩ := first_windows sum now
  refine ⟨⟨(20 + entropy.word 0 % 981 : ℕ), by omega, ?_⟩, ⟨(2 + entropy.word 1 % 18 : ℕ), by omega, ?_⟩, ?_⟩
  · exact mem_randomBatch.mpr ⟨_, 0, h₀, rfl⟩
  · exact mem_randomBatch.mpr ⟨_, 1, h₁, rfl⟩
  · intro n hn
    obtain ⟨v, i, hv, hw⟩ := mem_randomBatch.mp hn
    -- no other window has the slot of the third
    have hslots : ((exampleBatch sum now).windows.map slot)[i]? =
        ((exampleBatch sum now).windows.map slot)[2]? := by
      rw [List.getElem?_map, List.getElem?_map, hv, h₂, Option.map_some, Option.map_some,
        ← randomWindow_slot hw]
      rfl
    have hi : i < ((exampleBatch sum now).windows.map slot).length := by
      rw [List.length_map]
      exact (List.getElem?_eq_some_iff.mp hv).1
    have htwo : i = 2 := (List.getElem?_inj hi (nodup_exampleBatch sum now)).mp hslots
    subst htwo
    cases hw

theorem valid_randomBatch (sum : Sum) (entropy : Entropy) (now : Int) (hscope : identity scope = true) :
    valid scope (randomBatch sum entropy now) now = true := by
  have hrandom : Spelled "random-" := spelled_of_all (by decide)
  have hlen : (randomBatch sum entropy now).id.length = 39 := by
    show ("random-" ++ hexText (entropy.toList.take 16)).length = 39
    rw [String.length_append, length_hexText, List.length_take, Vector.length_toList]
    rfl
  obtain ⟨⟨n, -, hmem⟩, -⟩ := three_windows sum entropy now
  refine valid_iff.mpr ⟨named_iff.mp hscope, ?_, rfl, ⟨?_, ?_⟩, ?_, ?_⟩
  · exact named_iff.mp (identity_of_spelled (hrandom.append (spelled_hexText _)) (by omega) (by omega))
  · exact List.length_pos_of_mem hmem
  · have hle := List.length_filterMap_le (fun p : Window × ℕ => randomWindow entropy p.1 p.2)
      (exampleBatch sum now).windows.zipIdx
    rw [List.length_zipIdx, length_exampleBatch] at hle
    exact le_trans hle (by decide)
  · intro w hw
    obtain ⟨v, i, hv, hw⟩ := mem_randomBatch.mp hw
    obtain ⟨hz, hstart, -⟩ := mem_exampleBatch.mp (List.mem_of_getElem? hv)
    obtain ⟨hzone, ht⟩ := Prod.mk.inj (randomWindow_slot hw)
    rw [← hzone] at hz
    rw [← ht] at hstart
    exact fit_of_hours hz hstart (randomWindow_le hw)
  · exact slots_iff.mp (nodup_randomBatch sum entropy now)

/-- **`ReplaceSample` of a random sample** that is new to the ledger leaves its windows alone. -/
theorem replace_random (hscope : identity scope = true)
    (hfresh : New s scope (randomBatch sum entropy now)) :
    ∃ n s', traffic.atomic (Store.ingest sum.text scope (randomBatch sum entropy now) now true) s =
        (.ok ⟨(randomBatch sum entropy now).id, n, false⟩, s') ∧
      ∀ w, w.tenant = scope → (w ∈ s'.windows ↔ w ∈ rowsOf scope (randomBatch sum entropy now)) := by
  have hvalid := valid_randomBatch sum entropy now hscope
  have hcleared : ∀ w ∈ (base true scope s).windows, w.tenant ≠ scope := by
    intro w hw
    simpa using (Table.mem_filter.mp hw).2
  have hout := ingest_out sum.text scope (randomBatch sum entropy now) now true s
  generalize traffic.atomic (Store.ingest sum.text scope (randomBatch sum entropy now) now true) s = x at hout
  cases hout with
  | invalid hv => rw [hvalid] at hv; cases hv
  | clash hv row hrow => rw [hfresh] at hrow; cases hrow
  | replayed hv row hrow => rw [hfresh] at hrow; cases hrow
  | conflict hv hnew hload =>
    obtain ⟨t, n, hsome⟩ := load_agree (rowsOf scope (canonical (randomBatch sum entropy now)))
      (base true scope s).windows 0
      (fun r hr x hx hk => by
        have htenant : x.tenant = scope := (congrArg Prod.fst hk).trans (mem_rowsOf.mp hr).1
        exact absurd htenant (hcleared x hx))
      (fun r hr x hx hk => by
        rw [mem_rowsOf_canonical] at hr hx
        obtain ⟨v, hv, rfl⟩ := List.mem_map.mp hr
        obtain ⟨u, hu, rfl⟩ := List.mem_map.mp hx
        simp only [windowRow, WindowRow.pk, Prod.mk.injEq, true_and] at hk
        rw [List.inj_on_of_nodup_map (nodup_randomBatch sum entropy now) hu hv (Prod.ext hk.1 hk.2)])
    rw [hsome] at hload
    cases hload
  | stored hv hnew t n hload =>
    refine ⟨n, _, rfl, fun w hw => ?_⟩
    show w ∈ t ↔ _
    rw [mem_load hload w, mem_rowsOf_canonical]
    exact or_iff_right fun hmem => hcleared w hmem hw

/-- **The report of a random sample** shows a released, a suppressed and a missing window. -/
theorem report_random {t : Table WindowRow.pk}
    (h : ∀ w, w.tenant = scope → (w ∈ t ↔ w ∈ rowsOf scope (randomBatch sum entropy now))) :
    1 ≤ (report scope now t).released ∧ 1 ≤ (report scope now t).suppressed ∧
      1 ≤ (report scope now t).missing := by
  have hr := zoned_report scope now t
  have hstored (zone : String) (n : Int) : Stored t scope zone (endOf now - hour) n ↔
      ⟨zone, endOf now - hour, n⟩ ∈ (randomBatch sum entropy now).windows := by
    rw [Stored, h _ rfl, mem_rowsOf]
    simp [randomBatch, exampleBatch]
  have hlast : startOf now + (5 : ℕ) * hour = endOf now - hour := by
    unfold startOf
    omega
  have hcells (zone : String) : Says t scope zone
      (cell (values (observed scope now t)) zone (startOf now + (5 : ℕ) * hour)) := by
    refine says_cell ?_
    unfold startOf hour
    omega
  have hstart (zone : String) :
      (cell (values (observed scope now t)) zone (startOf now + (5 : ℕ) * hour)).start = endOf now - hour := by
    rw [cell_start, hlast]
  obtain ⟨⟨n, hn, hreported⟩, ⟨m, hm, hsuppressed⟩, hmissing⟩ := three_windows sum entropy now
  refine ⟨?_, ?_, ?_⟩
  · rw [hr.released, zero_add]
    refine one_le_counted (i := 5) (z := ⟨"downtown", "Downtown corridor", "Synthetic street-level zone"⟩)
      (by decide) (by decide) ?_
    refine (hcells "downtown").reported.mpr ⟨n, ((hcells "downtown").count n).mpr ⟨?_, hn⟩⟩
    rw [hstart, hstored]
    exact hreported
  · rw [hr.suppressed, zero_add]
    refine one_le_counted (i := 5) (z := ⟨"transit", "Transit concourse", "Synthetic transit zone"⟩)
      (by decide) (by decide) ?_
    refine (hcells "transit").suppressed.mpr ⟨m, ?_, hm⟩
    rw [hstart, hstored]
    exact hsuppressed
  · rw [hr.missing, zero_add]
    refine one_le_counted (i := 5) (z := ⟨"retail", "Retail district", "Synthetic retail zone"⟩)
      (by decide) (by decide) ?_
    refine (hcells "retail").missing.mpr fun k => ?_
    rw [hstart, hstored]
    exact hmissing k

end Random

/-! ### The result -/

/-- **Sample feeds never conflict with themselves**, and a random sample is always a new one that shows
all three kinds of windows. Times are Unix milliseconds, an `int64`. -/
theorem samples_never_conflict (sum : Sum) (scope : String) (hscope : identity scope = true) :
    (∀ scenario, scenario ≠ .random → ∀ s, Unused scope s → ∀ times : List Int,
      (∀ n ∈ times, 30 * 3600000 ≤ n ∧ n < 2 ^ 63) →
      let out := feed sum scope scenario.id times s
      out.1.length = times.length ∧
        (∀ i (hi : i < times.length), ∃ r, out.1[i]? = some (.ok r) ∧
          (r.replayed = true ↔ ∃ m ∈ times.take i, m / 3600000 = times.get ⟨i, hi⟩ / 3600000)) ∧
        (∀ n ∈ times, ∃ b, exampleForScenario sum none n scenario.id = .ok b ∧ ∀ w ∈ b.windows,
          windowRow scope source w ∈ out.2.windows) ∧
        ∀ w ∈ out.2.windows, w.tenant = scope → w.source = source ∧
          countOf sum scenario w.zone w.start = some w.observations) ∧
      ∀ entropy now b, 30 * 3600000 ≤ now → now < 2 ^ 63 →
        exampleForScenario sum (some entropy) now "random" = .ok b → ∀ s,
        s.batches.find? (scope, b.id) = none →
        ∃ n s', traffic.atomic (Store.ingest sum.text scope b now true) s = (.ok ⟨b.id, n, false⟩, s') ∧
          1 ≤ (report scope now s'.windows).released ∧ 1 ≤ (report scope now s'.windows).suppressed ∧
          1 ≤ (report scope now s'.windows).missing := by
  constructor
  · intro scenario hfixed s hs times htimes out
    obtain ⟨hfed, hanswers⟩ := Fed.feed hfixed hscope (Fed.start hs) htimes
    rw [List.nil_append] at hfed
    refine ⟨length_feed, fun i hi => ?_, fun n hn => ?_, fun w hw ht => ?_⟩
    · obtain ⟨r, hr, hiff⟩ := hanswers i hi
      refine ⟨r, hr, ?_⟩
      rw [hiff, List.nil_append]
      simp only [endOf_eq]
      refine exists_congr fun m => and_congr_right fun _ => ?_
      omega
    · refine ⟨_, exampleForScenario_fixed hfixed sum none n, fun w hw => ?_⟩
      exact (hfed.windows _ rfl).mpr ⟨n, hn, List.mem_map_of_mem hw⟩
    · obtain ⟨n, -, hrow⟩ := (hfed.windows w ht).mp hw
      obtain ⟨-, hsource, -, -, hcount⟩ := mem_rowsOf_sampleOf.mp hrow
      exact ⟨hsource, hcount⟩
  · intro entropy now b _ _ hb s hfresh
    rw [exampleForScenario_random] at hb
    obtain rfl := Except.ok.inj hb
    obtain ⟨n, s', hreplace, hwindows⟩ := replace_random hscope hfresh
    exact ⟨n, s', hreplace, report_random hwindows⟩

/-- Two samples of one hour and one of the next. -/
def threeTimes : List Int := [108000000, 108000001, 111600000]

theorem samples_never_conflict_threeTimes :
    let sum : Sum := fun _ => Vector.replicate 32 0
    let out := feed sum (scenarioTenant sum "demo" .gaps) "gaps" threeTimes Traffic.empty
    (∃ r, out.1[0]? = some (.ok r) ∧ r.replayed = false) ∧
      (∃ r, out.1[1]? = some (.ok r) ∧ r.replayed = true) ∧
      ∃ r, out.1[2]? = some (.ok r) ∧ r.replayed = false := by
  intro sum out
  have hscope : identity (scenarioTenant sum "demo" .gaps) = true :=
    identity_scenarioTenant sum (by decide +kernel) .gaps
  have hempty : Unused (scenarioTenant sum "demo" .gaps) Traffic.empty :=
    ⟨fun r hr => absurd hr (Table.not_mem_empty r), fun w hw => absurd hw (Table.not_mem_empty w)⟩
  obtain ⟨-, hanswers, -⟩ := (samples_never_conflict sum _ hscope).1 .gaps (by decide)
    Traffic.empty hempty threeTimes (by decide)
  refine ⟨?_, ?_, ?_⟩
  · obtain ⟨r, hr, hiff⟩ := hanswers 0 (by decide)
    exact ⟨r, hr, Bool.eq_false_iff.mpr fun h => absurd (hiff.mp h) (by decide)⟩
  · obtain ⟨r, hr, hiff⟩ := hanswers 1 (by decide)
    exact ⟨r, hr, hiff.mpr (by decide)⟩
  · obtain ⟨r, hr, hiff⟩ := hanswers 2 (by decide)
    exact ⟨r, hr, Bool.eq_false_iff.mpr fun h => absurd (hiff.mp h) (by decide)⟩

end Afterglow.Foottraffic.Samples
