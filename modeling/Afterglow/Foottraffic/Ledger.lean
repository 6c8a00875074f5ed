import Afterglow.Foottraffic.Outcome

/-! # The ledger of batches and the windows stay in step

`Consistent` says that the stored windows are those of the batches in the ledger and that the counts of
the ledger add up to them. Every call keeps it, for a hash without collisions, and so does every run. A
row of the ledger keeps the number its batch was answered with (`origin`), so a repeated batch is
answered as it was the first time. -/

namespace Afterglow.Foottraffic.Ledger

open Afterglow.Sql.Rows Afterglow.Sql.Txn Afterglow.Foottraffic.Model Afterglow.Foottraffic.Store
open Afterglow.Foottraffic.Fingerprint Afterglow.Foottraffic.Outcome

/-! ### What the loop adds -/

theorem row_ext {w w' : WindowRow} (hk : w.pk = w'.pk) (ho : w.observations = w'.observations) :
    w = w' := by
  simp only [WindowRow.pk, Prod.mk.injEq] at hk
  cases w
  cases w'
  simp_all

/-- **The rows after the loop** are those before it and those of the batch. -/
theorem mem_load : ∀ {rs : List WindowRow} {t t' : Table WindowRow.pk} {n n' : ℕ},
    load t rs n = some (t', n') → ∀ w, w ∈ t' ↔ w ∈ t ∨ w ∈ rs
  | [], t, t', n, n', h, w => by
    simp only [load, Option.some.injEq, Prod.mk.injEq] at h
    rw [← h.1]
    simp
  | r :: rs, t, t', n, n', h, w => by
    rw [load] at h
    cases hfind : t.find? r.pk with
    | none =>
      rw [hfind] at h
      have hne : w ∈ t → w.pk ≠ r.pk := Table.find?_eq_none.mp hfind w
      rw [mem_load h w, Table.mem_put, List.mem_cons]
      constructor
      · rintro ((rfl | ⟨hw, -⟩) | hw)
        · exact Or.inr (Or.inl rfl)
        · exact Or.inl hw
        · exact Or.inr (Or.inr hw)
      · rintro (hw | rfl | hw)
        · exact Or.inl (Or.inr ⟨hw, hne hw⟩)
        · exact Or.inl (Or.inl rfl)
        · exact Or.inr hw
    | some x =>
      rw [hfind] at h
      simp only at h
      split_ifs at h with hobs
      have hx : x = r := row_ext (Table.find?_key hfind) hobs
      have hr : r ∈ t := hx ▸ Table.mem_of_find? hfind
      rw [mem_load h w, List.mem_cons]
      constructor
      · rintro (hw | hw)
        · exact Or.inl hw
        · exact Or.inr (Or.inr hw)
      · rintro (hw | rfl | hw)
        · exact Or.inl hw
        · exact Or.inl hr
        · exact Or.inr hw

/-- **The count of the loop** is the number of rows it adds. -/
theorem count_load {p : WindowRow → Bool} {c : Bool} : ∀ {rs : List WindowRow}
    {t t' : Table WindowRow.pk} {n n' : ℕ}, (∀ r ∈ rs, p r = c) → load t rs n = some (t', n') →
    t'.count p + (if c then n else 0) = t.count p + (if c then n' else 0)
  | [], t, t', n, n', _, h => by
    simp only [load, Option.some.injEq, Prod.mk.injEq] at h
    rw [← h.1, ← h.2]
  | r :: rs, t, t', n, n', hp, h => by
    have htail : ∀ x ∈ rs, p x = c := fun x hx => hp x (List.mem_cons_of_mem r hx)
    have hr : p r = c := hp r List.mem_cons_self
    rw [load] at h
    cases hfind : t.find? r.pk with
    | none =>
      rw [hfind] at h
      have hrest := count_load htail h
      have hput : (t.put r).count p = t.count p + (if c then 1 else 0) := by
        rw [← hr]; exact Table.sum_put_new _ hfind
      rw [hput] at hrest
      cases c with
      | false => simpa using hrest
      | true =>
        simp only [if_true] at hrest ⊢
        omega
    | some x =>
      rw [hfind] at h
      simp only at h
      split_ifs at h with hobs
      exact count_load htail h

/-! ### Consistency -/

/-- The batch is in the tenant's ledger. -/
def Recorded (sha256 : String → String) (s : Traffic) (tenant : String) (b : Batch) : Prop :=
  ∃ n, (⟨tenant, b.id, fingerprint sha256 b, n⟩ : BatchRow) ∈ s.batches

/-- **The windows are those of the ledger.** -/
structure Consistent (sha256 : String → String) (s : Traffic) : Prop where
  ledger : ∀ r ∈ s.batches, ∃ b, WellFormed b ∧ r.id = b.id ∧ r.fingerprint = fingerprint sha256 b
  windows : ∀ w, w ∈ s.windows ↔
    ∃ b, WellFormed b ∧ Recorded sha256 s w.tenant b ∧ w ∈ rowsOf w.tenant b
  total : ∀ tenant, (s.batches.sum fun r => if r.tenant = tenant then r.inserted else 0) =
    s.windows.count fun w => w.tenant = tenant

theorem Consistent.empty (sha256 : String → String) : Consistent sha256 Traffic.empty where
  ledger r hr := absurd hr (Table.not_mem_empty r)
  windows w := by
    constructor
    · intro hw; exact absurd hw (Table.not_mem_empty w)
    · rintro ⟨b, -, ⟨n, hn⟩, -⟩; exact absurd hn (Table.not_mem_empty _)
  total _ := rfl

theorem mem_rowsOf {tenant : String} {b : Batch} {w : WindowRow} : w ∈ rowsOf tenant b ↔
    w.tenant = tenant ∧ w.source = b.source ∧ ⟨w.zone, w.start, w.observations⟩ ∈ b.windows := by
  rw [rowsOf, List.mem_map]
  constructor
  · rintro ⟨v, hv, rfl⟩
    exact ⟨rfl, rfl, hv⟩
  · rintro ⟨rfl, hs, hv⟩
    exact ⟨_, hv, by rw [← hs]; rfl⟩

theorem mem_rowsOf_canonical {tenant : String} {b : Batch} {w : WindowRow} :
    w ∈ rowsOf tenant (canonical b) ↔ w ∈ rowsOf tenant b := by
  rw [mem_rowsOf, mem_rowsOf, mem_canonical]
  rfl

section Step

variable {sha256 : String → String} {s : Traffic} {tenant : String}

theorem recorded_cleared {other : String} {b : Batch} :
    Recorded sha256 (cleared tenant s) other b ↔ Recorded sha256 s other b ∧ other ≠ tenant := by
  constructor
  · rintro ⟨n, hn⟩
    obtain ⟨hmem, hne⟩ := Table.mem_filter.mp hn
    exact ⟨⟨n, hmem⟩, by simpa using hne⟩
  · rintro ⟨⟨n, hn⟩, hne⟩
    exact ⟨n, Table.mem_filter.mpr ⟨hn, by simpa using hne⟩⟩

/-- **Deleting a tenant's rows from both tables** leaves those of the others in step. -/
theorem Consistent.cleared (h : Consistent sha256 s) (tenant : String) :
    Consistent sha256 (cleared tenant s) where
  ledger r hr := h.ledger r (Table.mem_filter.mp hr).1
  windows w := by
    show w ∈ s.windows.filter _ ↔ _
    rw [Table.mem_filter, h.windows w]
    constructor
    · rintro ⟨⟨b, hb, hrec, hw⟩, hne⟩
      exact ⟨b, hb, recorded_cleared.mpr ⟨hrec, by simpa using hne⟩, hw⟩
    · rintro ⟨b, hb, hrec, hw⟩
      obtain ⟨hrec, hne⟩ := recorded_cleared.mp hrec
      exact ⟨⟨b, hb, hrec, hw⟩, by simpa using hne⟩
  total other := by
    show (s.batches.filter _).sum _ = (s.windows.filter _).count _
    by_cases hother : other = tenant
    · subst hother
      rw [Table.count, Table.sum_eq_zero fun r hr => if_neg ?_, Table.sum_eq_zero fun w hw => if_neg ?_]
      · simpa using (Table.mem_filter.mp hw).2
      · simpa using (Table.mem_filter.mp hr).2
    · rw [Table.sum_filter_of_zero fun r _ hr => if_neg ?_, Table.count,
        Table.sum_filter_of_zero fun w _ hw => if_neg ?_]
      · exact h.total other
      · have htenant : w.tenant = tenant := by simpa using hw
        simp only [htenant, decide_eq_true_eq]
        exact fun heq => hother heq.symm
      · have htenant : r.tenant = tenant := by simpa using hr
        exact fun heq => hother (heq.symm.trans htenant)

theorem Consistent.base (h : Consistent sha256 s) (replace : Bool) (tenant : String) :
    Consistent sha256 (base replace tenant s) := by
  cases replace with
  | false => exact h
  | true => exact h.cleared tenant

theorem base_new {replace : Bool} {k : String × String} (h : s.batches.find? k = none) :
    (base replace tenant s).batches.find? k = none := by
  cases replace with
  | false => exact h
  | true => exact Table.find?_eq_none.mpr fun r hr => Table.find?_eq_none.mp h r (Table.mem_filter.mp hr).1

/-- The rows of the ledger once a new batch is stored. -/
theorem mem_storing {b : Batch} {n : ℕ} {t : Table WindowRow.pk}
    (hnew : s.batches.find? (tenant, b.id) = none) (r : BatchRow) :
    r ∈ (storing sha256 tenant b n t s).batches ↔
      r = ⟨tenant, b.id, fingerprint sha256 b, n⟩ ∨ r ∈ s.batches := by
  show r ∈ s.batches.put _ ↔ _
  rw [Table.mem_put]
  have hne : r ∈ s.batches → r.pk ≠ (tenant, b.id) := Table.find?_eq_none.mp hnew r
  exact or_congr_right ⟨fun hr => hr.1, fun hr => ⟨hr, hne hr⟩⟩

/-- **Adding a batch** keeps the tables in step. -/
theorem Consistent.stored (hsha : ∀ x y, sha256 x = sha256 y → x = y) (h : Consistent sha256 s)
    {b : Batch} (hb : WellFormed b) (hnew : s.batches.find? (tenant, b.id) = none)
    {t : Table WindowRow.pk} {n : ℕ} (hload : load s.windows (rowsOf tenant (canonical b)) 0 = some (t, n)) :
    Consistent sha256 (storing sha256 tenant b n t s) := by
  have hmem (w : WindowRow) : w ∈ t ↔ w ∈ s.windows ∨ w ∈ rowsOf tenant b := by
    rw [mem_load hload w, mem_rowsOf_canonical]
  refine ⟨fun r hr => ?_, fun w => ?_, fun other => ?_⟩
  · rcases (mem_storing hnew r).mp hr with rfl | hr
    · exact ⟨b, hb, rfl, rfl⟩
    · exact h.ledger r hr
  · show w ∈ t ↔ _
    rw [hmem w, h.windows w]
    constructor
    · rintro (⟨b', hb', ⟨m, hm⟩, hw⟩ | hw)
      · exact ⟨b', hb', ⟨m, (mem_storing hnew _).mpr (Or.inr hm)⟩, hw⟩
      · have htenant : w.tenant = tenant := (mem_rowsOf.mp hw).1
        rw [htenant]
        exact ⟨b, hb, ⟨n, (mem_storing hnew _).mpr (Or.inl rfl)⟩, hw⟩
    · rintro ⟨b', hb', ⟨m, hm⟩, hw⟩
      rcases (mem_storing hnew _).mp hm with heq | hm
      · -- the row of the ledger is the new one: the batch is the new one, up to the order of its windows
        simp only [BatchRow.mk.injEq] at heq
        have hcanon := eq_of_fingerprint hsha hb' hb heq.2.2.1
        rw [← mem_rowsOf_canonical, hcanon, mem_rowsOf_canonical, heq.1] at hw
        exact Or.inr hw
      · exact Or.inl ⟨b', hb', ⟨m, hm⟩, hw⟩
  · have hrows : ∀ r ∈ rowsOf tenant (canonical b),
        decide (r.tenant = other) = decide (tenant = other) := by
      intro r hr
      rw [(mem_rowsOf.mp hr).1]
    have hcount := count_load hrows hload
    have hsum : ((storing sha256 tenant b n t s).batches.sum fun r =>
        if r.tenant = other then r.inserted else 0) =
        (s.batches.sum fun r => if r.tenant = other then r.inserted else 0) +
          if tenant = other then n else 0 := Table.sum_put_new _ hnew
    rw [hsum, h.total other]
    show _ = t.count _
    by_cases htenant : tenant = other
    · simp only [htenant, decide_true, if_true] at hcount ⊢
      omega
    · simp only [htenant, decide_false, Bool.false_eq_true, if_false] at hcount ⊢
      omega

theorem Consistent.ingest (hsha : ∀ x y, sha256 x = sha256 y → x = y) (h : Consistent sha256 s)
    {b : Batch} {now : Int} {replace : Bool} {x : Except TrafficErr Result × Traffic}
    (hout : IngestOut sha256 tenant b now replace s x) : Consistent sha256 x.2 := by
  cases hout with
  | stored hv hnew t n hload =>
    exact (h.base replace tenant).stored hsha (wellFormed_of_valid hv) (base_new hnew) hload
  | _ => exact h

theorem Consistent.emptySample (h : Consistent sha256 s) {x : Except TrafficErr EmptyResult × Traffic}
    (hout : EmptyOut tenant s x) : Consistent sha256 x.2 := by
  cases hout with
  | invalid => exact h
  | emptied =>
    have hcleared := h.cleared tenant
    exact ⟨hcleared.ledger, hcleared.windows, hcleared.total⟩

theorem Consistent.step (hsha : ∀ x y, sha256 x = sha256 y → x = y) (h : Consistent sha256 s)
    (c : Call) : Consistent sha256 (c.step sha256 s) := by
  rw [Call.step]
  rcases c.op.exec_cases sha256 c.fault s with hex | hex
  · rw [hex]
    cases hop : c.op with
    | ingest tenant b now replace => exact h.ingest hsha (ingest_out sha256 tenant b now replace s)
    | emptySample tenant => exact h.emptySample (emptySample_out tenant s)
  · rw [hex]; exact h

/-- **Every run keeps the tables in step.** -/
theorem Consistent.run (hsha : ∀ x y, sha256 x = sha256 y → x = y) (cs : List Call) :
    ∀ {s : Traffic}, Consistent sha256 s → Consistent sha256 (run sha256 cs s) := by
  induction cs with
  | nil => intro s h; exact h
  | cons c cs ih => intro s h; exact ih (h.step hsha c)

/-! ### What a call leaves as it was -/

/-- **A call that fails changes nothing.** -/
theorem same_of_error {c : Call} {e : TrafficErr} (h : (c.op.exec sha256 c.fault s).1 = .error e) :
    c.step sha256 s = s := by
  rw [Call.step]
  rcases c.op.exec_cases sha256 c.fault s with hex | hex
  · rw [hex] at h ⊢
    revert h
    cases hop : c.op with
    | ingest tenant b now replace =>
      have hout := ingest_out sha256 tenant b now replace s
      show (traffic.atomic (Store.ingest sha256 tenant b now replace) s).1 = .error e →
        (traffic.atomic (Store.ingest sha256 tenant b now replace) s).2 = s
      generalize traffic.atomic (Store.ingest sha256 tenant b now replace) s = x at hout
      intro h
      cases hout with
      | replayed | stored => cases h
      | _ => rfl
    | emptySample tenant =>
      have hout := emptySample_out tenant s
      show (traffic.atomic (Store.emptySample tenant) s).1 = .error e →
        (traffic.atomic (Store.emptySample tenant) s).2 = s
      generalize traffic.atomic (Store.emptySample tenant) s = x at hout
      intro h
      cases hout with
      | emptied => cases h
      | invalid => rfl
  · rw [hex]

/-- The call does not empty the tenant's sample: it is no `EmptySample` and no `ReplaceSample` for it. -/
def spares (tenant : String) : Op → Prop
  | .ingest other _ _ replace => replace = true → other ≠ tenant
  | .emptySample other => other ≠ tenant

theorem mem_base (replace : Bool) {w : WindowRow} (hw : w ∈ s.windows)
    (h : replace = true → tenant ≠ w.tenant) : w ∈ (base replace tenant s).windows := by
  cases replace with
  | false => exact hw
  | true =>
    refine Table.mem_filter.mpr ⟨hw, ?_⟩
    simpa using fun heq => h rfl heq.symm

/-- **A stored window stays as it is** through a call that does not empty the sample. -/
theorem window_step {c : Call} {w : WindowRow} (hw : w ∈ s.windows) (hc : spares w.tenant c.op) :
    w ∈ (c.step sha256 s).windows := by
  rw [Call.step]
  rcases c.op.exec_cases sha256 c.fault s with hex | hex
  · rw [hex]
    revert hc
    cases hop : c.op with
    | ingest tenant b now replace =>
      have hout := ingest_out sha256 tenant b now replace s
      show _ → w ∈ (traffic.atomic (Store.ingest sha256 tenant b now replace) s).2.windows
      generalize traffic.atomic (Store.ingest sha256 tenant b now replace) s = x at hout
      intro hc
      cases hout with
      | stored hv hnew t n hload => exact (mem_load hload w).mpr (Or.inl (mem_base replace hw hc))
      | _ => exact hw
    | emptySample tenant =>
      have hout := emptySample_out tenant s
      show _ → w ∈ (traffic.atomic (Store.emptySample tenant) s).2.windows
      generalize traffic.atomic (Store.emptySample tenant) s = x at hout
      intro hc
      cases hout with
      | invalid => exact hw
      | emptied => exact mem_base true hw fun _ => hc
  · rw [hex]; exact hw

theorem window_run {w : WindowRow} (cs : List Call) : ∀ {s : Traffic}, w ∈ s.windows →
    (∀ c ∈ cs, spares w.tenant c.op) → w ∈ (Outcome.run sha256 cs s).windows := by
  induction cs with
  | nil => intro s hw _; exact hw
  | cons c cs ih =>
    intro s hw hcs
    exact ih (window_step hw (hcs c List.mem_cons_self)) fun x hx => hcs x (List.mem_cons_of_mem c hx)

/-! ### Where a row of the ledger comes from -/

/-- The call enters the row `r` in the ledger, and answers the number the row keeps. -/
def Makes (sha256 : String → String) (s : Traffic) (c : Call) (r : BatchRow) : Prop :=
  ∃ b now replace fault, c = ⟨.ingest r.tenant b now replace, fault⟩ ∧ b.id = r.id ∧
    fingerprint sha256 b = r.fingerprint ∧
    ((Op.ingest r.tenant b now replace).exec sha256 fault s).1 = .ok (⟨r.id, r.inserted, false⟩ : Result)

theorem mem_of_base {replace : Bool} {r : BatchRow} (h : r ∈ (base replace tenant s).batches) :
    r ∈ s.batches := by
  cases replace with
  | false => exact h
  | true => exact (Table.mem_filter.mp h).1

theorem origin_step {c : Call} {r : BatchRow} (hr : r ∈ (c.step sha256 s).batches) :
    r ∈ s.batches ∨ Makes sha256 s c r := by
  obtain ⟨o, fault⟩ := c
  rw [Call.step] at hr
  rcases o.exec_cases sha256 fault s with hex | hex
  · simp only [hex] at hr
    cases o with
    | ingest tenant b now replace =>
      have hout := ingest_out sha256 tenant b now replace s
      change r ∈ (traffic.atomic (Store.ingest sha256 tenant b now replace) s).2.batches at hr
      change (Op.ingest tenant b now replace).exec sha256 fault s =
        traffic.atomic (Store.ingest sha256 tenant b now replace) s at hex
      generalize traffic.atomic (Store.ingest sha256 tenant b now replace) s = x at hout hr hex
      cases hout with
      | stored hv hnew t n hload =>
        rcases Table.mem_put.mp hr with rfl | ⟨hr, -⟩
        · exact Or.inr ⟨b, now, replace, fault, rfl, rfl, rfl, congrArg Prod.fst hex⟩
        · exact Or.inl (mem_of_base hr)
      | _ => exact Or.inl hr
    | emptySample tenant =>
      have hout := emptySample_out tenant s
      change r ∈ (traffic.atomic (Store.emptySample tenant) s).2.batches at hr
      generalize traffic.atomic (Store.emptySample tenant) s = x at hout hr
      cases hout with
      | invalid => exact Or.inl hr
      | emptied => exact Or.inl (Table.mem_filter.mp hr).1
  · simp only [hex] at hr
    exact Or.inl hr

/-- **A row of the ledger** was there from the start, or some call made it; and it stayed since. -/
theorem origin {r : BatchRow} (cs : List Call) : ∀ {s : Traffic}, r ∈ (Outcome.run sha256 cs s).batches →
    (∀ mid, mid <+: cs → r ∈ (Outcome.run sha256 mid s).batches) ∨
    ∃ a c rest, cs = a ++ c :: rest ∧ Makes sha256 (Outcome.run sha256 a s) c r ∧
      ∀ mid, mid <+: rest → r ∈ (Outcome.run sha256 (a ++ c :: mid) s).batches := by
  induction cs with
  | nil =>
    intro s hr
    refine Or.inl fun mid hmid => ?_
    rw [List.prefix_nil.mp hmid]
    exact hr
  | cons c cs ih =>
    intro s hr
    rcases ih (s := c.step sha256 s) hr with hstay | ⟨a, d, rest, rfl, hmakes, hstay⟩
    · rcases origin_step (hstay [] List.nil_prefix) with hold | hmakes
      · refine Or.inl fun mid hmid => ?_
        rcases List.prefix_cons_iff.mp hmid with rfl | ⟨tail, rfl, htail⟩
        · exact hold
        · exact hstay tail htail
      · exact Or.inr ⟨[], c, cs, rfl, hmakes, fun mid hmid => hstay mid hmid⟩
    · exact Or.inr ⟨c :: a, d, rest, rfl, hmakes, fun mid hmid => hstay mid hmid⟩

/-! ### Replays and replacements -/

/-- **A batch that is in the ledger** is answered from it, and nothing changes. -/
theorem ingest_recorded {b : Batch} {now : Int} {replace : Bool} {n : ℕ}
    (hv : valid tenant b now = true)
    (hr : (⟨tenant, b.id, fingerprint sha256 b, n⟩ : BatchRow) ∈ s.batches) :
    traffic.atomic (Store.ingest sha256 tenant b now replace) s = (.ok ⟨b.id, n, true⟩, s) := by
  have hfind : s.batches.find? (tenant, b.id) = some ⟨tenant, b.id, fingerprint sha256 b, n⟩ :=
    Table.find?_eq_some.mpr ⟨hr, rfl⟩
  have hout := ingest_out sha256 tenant b now replace s
  generalize traffic.atomic (Store.ingest sha256 tenant b now replace) s = x at hout
  cases hout with
  | invalid hv' => rw [hv] at hv'; cases hv'
  | clash hv' row hrow hne =>
    rw [hfind] at hrow; cases hrow
    exact absurd rfl hne
  | replayed hv' row hrow heq => rw [hfind] at hrow; cases hrow; rfl
  | conflict hv' hnew hload => rw [hfind] at hnew; cases hnew
  | stored hv' hnew t m hload => rw [hfind] at hnew; cases hnew

theorem rowsOf_nodup {b : Batch} (hb : WellFormed b) : (rowsOf tenant b).Nodup := by
  refine List.Nodup.of_map (fun w : WindowRow => (w.zone, w.start)) ?_
  rw [rowsOf, List.map_map]
  exact hb.slots

/-- **What a replacement leaves** of a tenant: the windows of the batch and its row of the ledger. -/
theorem replaced {b : Batch} (hb : WellFormed b) {t : Table WindowRow.pk} {n : ℕ}
    (hload : load (cleared tenant s).windows (rowsOf tenant (canonical b)) 0 = some (t, n)) :
    n = b.windows.length ∧ (∀ w, w.tenant = tenant → (w ∈ t ↔ w ∈ rowsOf tenant b)) ∧
      ∀ r, r.tenant = tenant → (r ∈ (storing sha256 tenant b n t (cleared tenant s)).batches ↔
        r = ⟨tenant, b.id, fingerprint sha256 b, n⟩) := by
  have hnone (w : WindowRow) (hw : w.tenant = tenant) : ¬ w ∈ (cleared tenant s).windows := by
    intro hmem
    have hne := (Table.mem_filter.mp hmem).2
    rw [hw] at hne
    simp at hne
  have hmem (w : WindowRow) (hw : w.tenant = tenant) : w ∈ t ↔ w ∈ rowsOf tenant b := by
    rw [mem_load hload w, mem_rowsOf_canonical]
    exact or_iff_right (hnone w hw)
  refine ⟨?_, hmem, fun r hr => ?_⟩
  · have hrows : ∀ r ∈ rowsOf tenant (canonical b), decide (r.tenant = tenant) = true :=
      fun r hr => decide_eq_true (mem_rowsOf.mp hr).1
    have hcount := count_load hrows hload
    have hzero : (cleared tenant s).windows.count (fun w => w.tenant = tenant) = 0 :=
      Table.count_eq_zero.mpr fun w hw => decide_eq_false fun htenant => hnone w htenant hw
    have hlen : t.count (fun w => w.tenant = tenant) = (rowsOf tenant b).length := by
      rw [Table.count_eq_length]
      refine List.Perm.length_eq ((List.perm_ext_iff_of_nodup ?_ (rowsOf_nodup hb)).mpr fun w => ?_)
      · exact (List.Nodup.of_map _ t.nodup).filter _
      · rw [List.mem_filter]
        constructor
        · rintro ⟨hw, htenant⟩; exact (hmem w (of_decide_eq_true htenant)).mp hw
        · intro hw
          have htenant := (mem_rowsOf.mp hw).1
          exact ⟨(hmem w htenant).mpr hw, decide_eq_true htenant⟩
    simp only [if_true] at hcount
    rw [rowsOf, List.length_map] at hlen
    omega
  · show r ∈ (cleared tenant s).batches.put _ ↔ _
    rw [Table.mem_put]
    refine or_iff_left fun hold => ?_
    have hne := (Table.mem_filter.mp hold.1).2
    rw [hr] at hne
    simp at hne

end Step

/-! ### The theorem -/

/-- **The ledger and the windows are consistent** after every run from the empty tables, for a hash
without collisions. For every tenant the stored windows are those of the batches its ledger records, each
slot is stored once, and the numbers of the ledger add up to the stored windows. A call that fails changes
nothing. A batch that is recorded and still valid is answered as a replay, with the number that the call
which recorded it answered, and nothing changes. A replacement leaves its own windows and its own row of
the ledger. A stored window keeps its count until the sample is emptied or replaced. -/
theorem traffic_ledger_exact (sha256 : String → String) (hsha : ∀ x y, sha256 x = sha256 y → x = y)
    (cs : List Call) :
    let s := run sha256 cs Traffic.empty
    (∀ tenant : String,
      (∀ feed zone start count, (⟨tenant, feed, zone, start, count⟩ : WindowRow) ∈ s.windows ↔
        ∃ b, WellFormed b ∧ Recorded sha256 s tenant b ∧ b.source = feed ∧
          (⟨zone, start, count⟩ : Window) ∈ b.windows) ∧
      (∀ r ∈ s.batches, r.tenant = tenant →
        ∃ b, WellFormed b ∧ b.id = r.id ∧ fingerprint sha256 b = r.fingerprint) ∧
      ((s.windows.rows.filter fun w => w.tenant = tenant).map fun w => (w.source, w.zone, w.start)).Nodup ∧
      ((s.batches.rows.filter fun r => r.tenant = tenant).map (·.inserted)).sum =
        (s.windows.rows.filter fun w => w.tenant = tenant).length) ∧
    (∀ (c : Call) (e : TrafficErr), (c.op.exec sha256 c.fault s).1 = .error e → c.step sha256 s = s) ∧
    (∀ tenant b now replace, valid tenant b now = true → Recorded sha256 s tenant b →
      ∃ n a c rest, cs = a ++ c :: rest ∧
        Makes sha256 (run sha256 a Traffic.empty) c ⟨tenant, b.id, fingerprint sha256 b, n⟩ ∧
        (∀ mid, mid <+: rest → (⟨tenant, b.id, fingerprint sha256 b, n⟩ : BatchRow) ∈
          (run sha256 (a ++ c :: mid) Traffic.empty).batches) ∧
        (Op.ingest tenant b now replace).exec sha256 none s = (.ok (⟨b.id, n, true⟩ : Result), s)) ∧
    (∀ tenant b now fault n s',
      (Op.ingest tenant b now true).exec sha256 fault s = (.ok (⟨b.id, n, false⟩ : Result), s') →
      (∀ w, w.tenant = tenant → (w ∈ s'.windows ↔ w ∈ rowsOf tenant b)) ∧
      ∀ r, r.tenant = tenant →
        (r ∈ s'.batches ↔ r = ⟨tenant, b.id, fingerprint sha256 b, b.windows.length⟩)) ∧
    ∀ (mid : List Call) (w : WindowRow), w ∈ s.windows → (∀ c ∈ mid, spares w.tenant c.op) →
      w ∈ (run sha256 mid s).windows := by
  intro s
  have hcons : Consistent sha256 s := Consistent.run hsha cs (Consistent.empty sha256)
  refine ⟨fun tenant => ⟨fun feed zone start count => ?_, fun r hr _ => ?_, ?_, ?_⟩,
    fun c e h => same_of_error h, fun tenant b now replace hv hrec => ?_,
    fun tenant b now fault n s' h => ?_, fun mid w hw hmid => window_run mid hw hmid⟩
  · rw [hcons.windows]
    constructor
    · rintro ⟨b, hb, hrec, hw⟩
      obtain ⟨-, hfeed, hmem⟩ := mem_rowsOf.mp hw
      exact ⟨b, hb, hrec, hfeed.symm, hmem⟩
    · rintro ⟨b, hb, hrec, rfl, hmem⟩
      exact ⟨b, hb, hrec, mem_rowsOf.mpr ⟨rfl, rfl, hmem⟩⟩
  · obtain ⟨b, hb, hid, hfp⟩ := hcons.ledger r hr
    exact ⟨b, hb, hid.symm, hfp.symm⟩
  · rw [List.nodup_iff_pairwise_ne, List.pairwise_map, List.pairwise_filter]
    have hnodup := s.windows.nodup
    rw [List.nodup_iff_pairwise_ne, List.pairwise_map] at hnodup
    refine hnodup.imp fun {v w} hne hv hw heq => hne ?_
    have htenant : v.tenant = w.tenant := (of_decide_eq_true hv).trans (of_decide_eq_true hw).symm
    exact Prod.ext htenant heq
  · have htotal := hcons.total tenant
    rw [Table.count_eq_length] at htotal
    rw [← htotal]
    have hsum := s.batches.sum_filter (fun r => decide (r.tenant = tenant)) (·.inserted)
    simp only [decide_eq_true_eq] at hsum
    exact hsum
  · obtain ⟨n, hn⟩ := hrec
    rcases origin cs hn with hstart | ⟨a, c, rest, hsplit, hmakes, hstay⟩
    · exact absurd (hstart [] List.nil_prefix) (Table.not_mem_empty _)
    · exact ⟨n, a, c, rest, hsplit, hmakes, hstay, ingest_recorded hv hn⟩
  · have hout := ingest_out sha256 tenant b now true s
    rcases Op.exec_cases sha256 (.ingest tenant b now true) fault s with hex | hex
    · rw [hex] at h
      change traffic.atomic (Store.ingest sha256 tenant b now true) s = _ at h
      rw [h] at hout
      cases hout with
      | stored hv hnew t n hload =>
        obtain ⟨hn, hwindows, hledger⟩ := replaced (wellFormed_of_valid hv) hload
        rw [hn] at hledger
        rw [hn]
        exact ⟨hwindows, hledger⟩
    · rw [hex] at h
      cases congrArg Prod.fst h

/-- Two batches of one hour, with a window in common, at ten hours after the epoch. -/
def overlapping : List Call :=
  [⟨.ingest "demo" ⟨"b1", source, [⟨"transit", 32400000, 25⟩, ⟨"downtown", 32400000, 30⟩]⟩ 36000000 false, none⟩,
    ⟨.ingest "demo" ⟨"b2", source, [⟨"downtown", 32400000, 30⟩, ⟨"retail", 28800000, 7⟩]⟩ 36000000 false, none⟩]

theorem traffic_ledger_exact_overlapping :
    let s := run id overlapping Traffic.empty
    s.batches.rows.map (·.inserted) = [2, 1] ∧
    (s.windows.rows.filter fun w => w.tenant = "demo").length = 3 ∧
    ∃ n, ((Op.ingest "demo" ⟨"b1", source, [⟨"downtown", 32400000, 30⟩, ⟨"transit", 32400000, 25⟩]⟩ 36000000
      true).exec id none s) = (.ok (⟨"b1", n, true⟩ : Result), s) := by
  intro s
  obtain ⟨hstate, -, hreplay, -, -⟩ := traffic_ledger_exact id (fun _ _ h => h) overlapping
  have hinserted : s.batches.rows.map (·.inserted) = [2, 1] := by decide +kernel
  obtain ⟨n, -, -, -, -, -, -, hagain⟩ := hreplay "demo"
    ⟨"b1", source, [⟨"downtown", 32400000, 30⟩, ⟨"transit", 32400000, 25⟩]⟩ 36000000 true
    (by decide +kernel) ⟨2, Table.mem_of_find? (k := ("demo", "b1")) (by decide +kernel)⟩
  refine ⟨hinserted, ?_, n, hagain⟩
  rw [← (hstate "demo").2.2.2]
  decide +kernel

end Afterglow.Foottraffic.Ledger
