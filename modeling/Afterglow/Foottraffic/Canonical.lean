import Afterglow.Foottraffic.Fingerprint
import Afterglow.Foottraffic.Outcome

/-! # What gets past validation, and under which fingerprint

`ingest` copies the windows of the caller to an array of its own, sorts them there by start and zone, and
looks at neighbours to find two of one slot. The sort is not stable. `Accepts` says in the words of the
contract what a batch has to be; a batch gets past validation exactly if it is that, whatever the sort
makes of equal keys, and then the sorted copy is `canonical` (`prepare_eq`). -/

namespace Afterglow.Foottraffic.Canonical

open Afterglow.Sql.Txn Afterglow.Sql.Select Afterglow.Slices.Sorting Afterglow.Foottraffic.Model
open Afterglow.Foottraffic.Store Afterglow.Foottraffic.Outcome Afterglow.Foottraffic.Fingerprint

/-! ### The contract -/

/-- 1 to 100 characters, each a letter, a digit, `_` or `-`. -/
def Named (s : String) : Prop :=
  (1 ≤ s.length ∧ s.length ≤ 100) ∧ ∀ c ∈ s.toList,
    ('a' ≤ c ∧ c ≤ 'z') ∨ ('A' ≤ c ∧ c ≤ 'Z') ∨ ('0' ≤ c ∧ c ≤ '9') ∨ c = '_' ∨ c = '-'

/-- A window that is accepted before the hour `stop`. -/
structure Fit (stop : Int) (w : Window) : Prop where
  zone : w.zone ∈ ["downtown", "transit", "retail", "neighborhood"]
  count : 0 ≤ w.count ∧ w.count ≤ 1000000
  hour : 3600000 ∣ w.start
  week : stop - 7 * 24 * 3600000 ≤ w.start ∧ w.start < stop

/-- **What a batch has to be** to be accepted at `now`. -/
structure Accepts (tenant : String) (b : Batch) (now : Int) : Prop where
  tenant : Named tenant
  id : Named b.id
  source : b.source = "synthetic-partner-v1"
  length : 1 ≤ b.windows.length ∧ b.windows.length ≤ 96
  windows : ∀ w ∈ b.windows, Fit (now / 3600000 * 3600000) w
  slots : b.windows.Pairwise fun v w => ¬ (v.zone = w.zone ∧ v.start = w.start)

/-! ### The checks are the contract -/

theorem named_iff {s : String} : identity s = true ↔ Named s := by
  unfold identity Named
  simp only [Bool.and_eq_true, decide_eq_true_eq, List.all_eq_true, Bool.or_eq_true, beq_iff_eq]
  refine and_congr_right fun _ => forall₂_congr fun c _ => ?_
  simp only [Char.isAlphanum, Char.isAlpha, Char.isUpper, Char.isLower, Char.isDigit, Bool.or_eq_true,
    Bool.and_eq_true, decide_eq_true_eq, ge_iff_le, Char.le_def]
  tauto

theorem endOf_eq (now : Int) : endOf now = now / 3600000 * 3600000 := by
  unfold endOf hour
  omega

theorem fit_iff {stop : Int} {w : Window} :
    windowOk w = true ∧ within stop w = true ↔ Fit stop w := by
  have hzones : (zones.any fun z => z.id = w.zone) = true ↔
      w.zone ∈ ["downtown", "transit", "retail", "neighborhood"] := by
    simp only [zones, List.any_cons, List.any_nil, Bool.or_false, Bool.or_eq_true, decide_eq_true_eq,
      List.mem_cons, List.not_mem_nil, or_false]
    constructor
    · rintro (h | h | h | h) <;> simp [← h]
    · rintro (h | h | h | h) <;> simp [h]
  unfold windowOk within hour
  rw [Bool.and_eq_true, hzones]
  simp only [Bool.not_eq_true', Bool.or_eq_false_iff, decide_eq_false_iff_not, not_lt, not_le, ne_eq, not_not]
  constructor
  · rintro ⟨⟨hzone, ⟨hlow, hhigh⟩, hhour⟩, hstart, hstop⟩
    exact ⟨hzone, ⟨hlow, hhigh⟩, Int.dvd_of_emod_eq_zero hhour, hstart, hstop⟩
  · rintro ⟨hzone, ⟨hlow, hhigh⟩, hhour, hstart, hstop⟩
    exact ⟨⟨hzone, ⟨hlow, hhigh⟩, Int.emod_eq_zero_of_dvd hhour⟩, hstart, hstop⟩

theorem slots_iff {ws : List Window} :
    (ws.map slot).Nodup ↔ ws.Pairwise fun v w => ¬ (v.zone = w.zone ∧ v.start = w.start) := by
  rw [List.nodup_iff_pairwise_ne, List.pairwise_map]
  refine List.Pairwise.iff fun {v w} => ?_
  simp only [ne_eq, slot, Prod.mk.injEq]

/-- The checks after a sort, whatever the sort. -/
theorem accepts_iff {tenant : String} {b : Batch} {now : Int} {sorted : List Window}
    (hperm : sorted.Perm b.windows)
    (hsort : sorted.Pairwise fun v w => toLex (v.start, v.zone) ≤ toLex (w.start, w.zone)) :
    (validHead tenant b && validWindows (endOf now) none sorted) = true ↔ Accepts tenant b now := by
  have hfit : (∀ w ∈ sorted, windowOk w = true ∧ within (endOf now) w = true) ↔
      ∀ w ∈ b.windows, Fit (now / 3600000 * 3600000) w := by
    simp only [fit_iff, endOf_eq, hperm.mem_iff]
  have hslots : (sorted.map slot).Nodup ↔ b.windows.Pairwise fun v w =>
      ¬ (v.zone = w.zone ∧ v.start = w.start) := by
    rw [(hperm.map slot).nodup_iff, slots_iff]
  rw [Bool.and_eq_true, validWindows_sorted hsort, hfit, hslots]
  unfold validHead
  simp only [Bool.and_eq_true, named_iff, beq_iff_eq, Bool.not_eq_true', Bool.or_eq_false_iff,
    decide_eq_false_iff_not, not_lt]
  constructor
  · rintro ⟨⟨⟨⟨htenant, hid⟩, hsource⟩, hlength⟩, hwindows, hone⟩
    exact ⟨htenant, hid, hsource, hlength, hwindows, hone⟩
  · rintro ⟨htenant, hid, hsource, hlength, hwindows, hone⟩
    exact ⟨⟨⟨⟨htenant, hid⟩, hsource⟩, hlength⟩, hwindows, hone⟩

theorem valid_iff {tenant : String} {b : Batch} {now : Int} :
    valid tenant b now = true ↔ Accepts tenant b now :=
  accepts_iff (canonical_perm b) (pairwise_orderBy _ _)

/-! ### The copy -/

/-- The comparator given to `sort.Slice`. -/
def less (v w : Window) : Bool :=
  if v.start = w.start then decide (v.zone < w.zone) else decide (v.start < w.start)

/-- A batch as the caller has it, its windows in memory. -/
structure Incoming where
  id : String
  source : String
  windows : Slice

/-- The batch by value. -/
def Incoming.batch (b : Incoming) (m : Arrays Window) : Batch := ⟨b.id, b.source, m.read b.windows⟩

/-- `ingest` up to its transaction: the batch that goes on, unless it is invalid, and the memory. -/
def prepare (sort : List Window → List Window) (tenant : String) (b : Incoming) (now : Int)
    (m : Arrays Window) : Option Batch × Arrays Window :=
  if !validHead tenant (b.batch m) then (none, m)
  else
    let (m, copy) := m.copy b.windows
    let m := m.sortAt sort copy
    if validWindows (endOf now) none (m.read copy) then (some ⟨b.id, b.source, m.read copy⟩, m)
    else (none, m)

theorem less_iff (v w : Window) :
    less v w = true ↔ toLex (v.start, v.zone) < toLex (w.start, w.zone) := by
  unfold less
  rw [Prod.Lex.toLex_lt_toLex]
  split_ifs with h
  · simp [h]
  · simp [h]

/-- A stable sort is one of the sorts. -/
theorem sorted_orderBy (ws : List Window) : Sorted less ws (orderBy (fun w => toLex (w.start, w.zone)) ws) := by
  refine ⟨orderBy_perm _ ws, (pairwise_orderBy _ ws).imp fun {v w} hvw => ?_⟩
  rw [← Bool.not_eq_true, less_iff]
  exact not_lt.mpr hvw

variable {sort : List Window → List Window}

/-- **The copy that passes is the canonical batch**, for every sort by the comparator. -/
theorem prepare_eq (hsort : ∀ ws, Sorted less ws (sort ws)) (tenant : String) (b : Incoming) (now : Int)
    (m : Arrays Window) :
    (prepare sort tenant b now m).1 =
      if valid tenant (b.batch m) now then some (canonical (b.batch m)) else none := by
  have hread := Arrays.read_sortAt_copy (fun ws => (hsort ws).perm.length_eq) m b.windows
  have hws := hsort (m.read b.windows)
  have hboth : (validHead tenant (b.batch m) && validWindows (endOf now) none (sort (m.read b.windows))) =
      valid tenant (b.batch m) now := by
    rw [Bool.eq_iff_iff, accepts_iff hws.perm (hws.pairwise less_iff), valid_iff]
  unfold prepare
  rw [← hboth]
  cases hhead : validHead tenant (b.batch m) with
  | false => rfl
  | true =>
    simp only [Bool.not_true, Bool.false_eq_true, if_false, Bool.true_and, hread]
    split_ifs with hpass
    · have hslots := ((validWindows_sorted (hws.pairwise less_iff)).mp hpass).2
      have heq := hws.eq (sorted_orderBy (m.read b.windows)) (List.Perm.refl _) less_iff
        (nodup_slots.mp ((hws.perm.map slot).nodup_iff.mp hslots))
      rw [heq]
      rfl
    · rfl

theorem passed (hsort : ∀ ws, Sorted less ws (sort ws)) {tenant : String} {b : Incoming} {now : Int}
    {m : Arrays Window} {c : Batch} (h : (prepare sort tenant b now m).1 = some c) :
    valid tenant (b.batch m) now = true ∧ canonical (b.batch m) = c := by
  rw [prepare_eq hsort] at h
  split_ifs at h with hv
  exact ⟨hv, Option.some.inj h⟩

/-- **One canonical form** for all orders of the windows. -/
theorem canonical_congr {b b' : Batch} (hb : WellFormed b) (hb' : WellFormed b') (hid : b.id = b'.id)
    (h : b.windows.Perm b'.windows) : canonical b = canonical b' := by
  have hkeys := nodup_slots.mp hb.slots
  have hwindows : (canonical b).windows = (canonical b').windows :=
    orderBy_congr h fun v hv w hw hvw => List.inj_on_of_nodup_map hkeys hv hw hvw
  have hsource : b.source = b'.source := hb.source.trans hb'.source.symm
  show Batch.mk b.id b.source (canonical b).windows = ⟨b'.id, b'.source, (canonical b').windows⟩
  rw [hid, hsource, hwindows]

/-- **The caller's arrays stay as they are.** -/
theorem read_prepare (tenant : String) (b : Incoming) (now : Int) (m : Arrays Window) {s : Slice}
    (hs : s.array < m.length) : (prepare sort tenant b now m).2.read s = m.read s := by
  have hcopy : ((m.copy b.windows).1.sortAt sort (m.copy b.windows).2).read s = m.read s := by
    rw [Arrays.read_sortAt (ne_of_lt hs), Arrays.read_copy b.windows hs]
  unfold prepare
  split_ifs
  · rfl
  · simp only
    split_ifs
    · exact hcopy
    · exact hcopy

/-- **Canonicalisation and validation are exact.** A batch gets past validation if and only if it is what
the contract says; two batches that pass and have one identifier get one fingerprint if and only if their
windows are the same up to their order; and no array of the caller changes. -/
theorem validation_exact (sort : List Window → List Window) (hsort : ∀ ws, Sorted less ws (sort ws))
    (sha256 : String → String) (hsha : ∀ x y, sha256 x = sha256 y → x = y) :
    (∀ tenant b now m,
      ((prepare sort tenant b now m).1.isSome ↔ Accepts tenant (b.batch m) now) ∧
      ∀ replace s, (traffic.atomic (ingest sha256 tenant (b.batch m) now replace) s).1 = .error .invalid ↔
        ¬ Accepts tenant (b.batch m) now) ∧
    (∀ tenant b now m c tenant' b' now' m' c', (prepare sort tenant b now m).1 = some c →
      (prepare sort tenant' b' now' m').1 = some c' → b.id = b'.id →
      (sha256 (marshal c) = sha256 (marshal c') ↔ (m.read b.windows).Perm (m'.read b'.windows))) ∧
    ∀ tenant b now m (s : Slice), s.array < m.length → (prepare sort tenant b now m).2.read s = m.read s := by
  refine ⟨fun tenant b now m => ⟨?_, fun replace s => ?_⟩, ?_,
    fun tenant b now m s hs => read_prepare tenant b now m hs⟩
  · rw [prepare_eq hsort, ← valid_iff]
    cases valid tenant (b.batch m) now <;> simp
  · rw [← valid_iff]
    have hout := ingest_out sha256 tenant (b.batch m) now replace s
    generalize traffic.atomic (ingest sha256 tenant (b.batch m) now replace) s = x at hout ⊢
    cases hout with
    | invalid hv => simp [hv]
    | _ hv => simp [hv]
  · intro tenant b now m c tenant' b' now' m' c' hc hc' hid
    obtain ⟨hv, rfl⟩ := passed hsort hc
    obtain ⟨hv', rfl⟩ := passed hsort hc'
    have hb := wellFormed_of_valid hv
    have hb' := wellFormed_of_valid hv'
    constructor
    · intro hfp
      have heq := congrArg Batch.windows (eq_of_fingerprint hsha hb hb' hfp)
      exact (canonical_perm (b.batch m)).symm.trans (heq ▸ canonical_perm (b'.batch m'))
    · intro hperm
      rw [canonical_congr hb hb' hid hperm]

/-- Two arrays with the same two windows, in either order. -/
def twoOrders : Arrays Window :=
  [[⟨"transit", 32400000, 25⟩, ⟨"downtown", 32400000, 30⟩],
    [⟨"downtown", 32400000, 30⟩, ⟨"transit", 32400000, 25⟩]]

def inOrder (array : ℕ) : Incoming := ⟨"b1", source, ⟨array, 0, 2⟩⟩

theorem validation_exact_twoOrders :
    let sort := orderBy fun w : Window => toLex (w.start, w.zone)
    Accepts "demo" ((inOrder 0).batch twoOrders) 36000000 ∧
      (∃ c c', (prepare sort "demo" (inOrder 0) 36000000 twoOrders).1 = some c ∧
        (prepare sort "demo" (inOrder 1) 36000000 twoOrders).1 = some c' ∧ marshal c = marshal c') ∧
      (prepare sort "demo" (inOrder 0) 36000000 twoOrders).2.read ⟨0, 0, 2⟩ =
        twoOrders.read ⟨0, 0, 2⟩ := by
  intro sort
  obtain ⟨hpass, hsame, hread⟩ := validation_exact sort sorted_orderBy (fun x => x) (fun _ _ h => h)
  have hfirst : (prepare sort "demo" (inOrder 0) 36000000 twoOrders).1 =
      some (canonical ((inOrder 0).batch twoOrders)) := by decide +kernel
  have hsecond : (prepare sort "demo" (inOrder 1) 36000000 twoOrders).1 =
      some (canonical ((inOrder 1).batch twoOrders)) := by decide +kernel
  refine ⟨(hpass "demo" (inOrder 0) 36000000 twoOrders).1.mp (by rw [hfirst]; rfl),
    ⟨_, _, hfirst, hsecond, ?_⟩, hread "demo" (inOrder 0) 36000000 twoOrders ⟨0, 0, 2⟩ (by decide)⟩
  exact (hsame _ _ _ _ _ _ _ _ _ _ hfirst hsecond rfl).mpr (by decide +kernel)

end Afterglow.Foottraffic.Canonical
