import Afterglow.Foottraffic.Ledger
import Afterglow.Foottraffic.Report

/-! # The order of imports does not matter

A list of batches is imported one `Ingest` after the other, all at one time `now`. When one order
succeeds, the tables it ends with hold the windows and the fingerprints of all batches (`Fits`), and a
table has one row per key, so no batch of the list can clash with another: every call of every other
order succeeds (`After.ingest`). What the tables hold then depends on the set of the batches alone
(`After`), and the counts the calls answered add up to the windows that are new. -/

namespace Afterglow.Foottraffic.Order

open Afterglow.Sql.Rows Afterglow.Sql.Txn Afterglow.Foottraffic.Model Afterglow.Foottraffic.Store
open Afterglow.Foottraffic.Fingerprint Afterglow.Foottraffic.Outcome Afterglow.Foottraffic.Ledger
open Afterglow.Foottraffic.Report

/-- `Ingest` of each batch in turn: the answers, and the tables after them. -/
def imports (sha256 : String → String) (tenant : String) (now : Int) :
    List Batch → Traffic → List (Except TrafficErr Result) × Traffic
  | [], s => ([], s)
  | b :: bs, s =>
    let x := traffic.atomic (Store.ingest sha256 tenant b now false) s
    let rest := imports sha256 tenant now bs x.2
    (x.1 :: rest.1, rest.2)

/-- Every call succeeded. -/
def Succeeds (as : List (Except TrafficErr Result)) : Prop := ∀ a ∈ as, ∃ r, a = .ok r

/-- The windows an answer reports as new. -/
def insertedBy : Except TrafficErr Result → ℕ
  | .ok r => if r.replayed then 0 else r.inserted
  | .error _ => 0

/-- The windows the calls that were no replays inserted. -/
def inserted (as : List (Except TrafficErr Result)) : ℕ := (as.map insertedBy).sum

/-- The ledger has an entry with this batch and fingerprint. -/
def Entered (s : Traffic) (tenant id fp : String) : Prop :=
  ∃ n, (⟨tenant, id, fp, n⟩ : BatchRow) ∈ s.batches

/-- The batch is new to the tenant's ledger. -/
def New (s : Traffic) (tenant : String) (b : Batch) : Prop := s.batches.find? (tenant, b.id) = none

theorem Entered.fingerprint_eq {s : Traffic} {tenant id fp fp' : String} (h : Entered s tenant id fp)
    (h' : Entered s tenant id fp') : fp = fp' := by
  obtain ⟨n, hn⟩ := h
  obtain ⟨n', hn'⟩ := h'
  have hrow := Table.key_injOn hn hn' rfl
  simp only [BatchRow.mk.injEq] at hrow
  exact hrow.2.2.1

theorem new_iff {s : Traffic} {tenant : String} {b : Batch} :
    New s tenant b ↔ ∀ fp, ¬ Entered s tenant b.id fp := by
  constructor
  · rintro hnew fp ⟨n, hn⟩
    exact Table.find?_eq_none.mp hnew _ hn rfl
  · intro h
    refine Table.find?_eq_none.mpr fun r hr hk => h r.fingerprint ⟨r.inserted, ?_⟩
    obtain ⟨rfl, hid⟩ := Prod.mk.inj hk
    rw [← hid]
    exact hr

/-- The entry of a row that is looked up. -/
theorem entered_of_find? {s : Traffic} {tenant : String} {b : Batch} {row : BatchRow}
    (h : s.batches.find? (tenant, b.id) = some row) : Entered s tenant b.id row.fingerprint := by
  have hk : row.pk = (tenant, b.id) := Table.find?_key h
  obtain ⟨rfl, hid⟩ := Prod.mk.inj hk
  rw [← hid]
  exact ⟨row.inserted, Table.mem_of_find? h⟩

section Order

variable {sha256 : String → String} {tenant : String} {now : Int}

/-- The ledger once a new batch is stored. -/
theorem entered_storing {s : Traffic} {b : Batch} {n : ℕ} {t : Table WindowRow.pk}
    (hnew : New s tenant b) {other id fp : String} :
    Entered (storing sha256 tenant b n t s) other id fp ↔
      Entered s other id fp ∨ other = tenant ∧ id = b.id ∧ fp = fingerprint sha256 b := by
  constructor
  · rintro ⟨m, hm⟩
    rcases (mem_storing hnew _).mp hm with heq | hm
    · simp only [BatchRow.mk.injEq] at heq
      exact Or.inr ⟨heq.1, heq.2.1, heq.2.2.1⟩
    · exact Or.inl ⟨m, hm⟩
  · rintro (⟨m, hm⟩ | ⟨rfl, rfl, rfl⟩)
    · exact ⟨m, (mem_storing hnew _).mpr (Or.inr hm)⟩
    · exact ⟨n, (mem_storing hnew _).mpr (Or.inl rfl)⟩

/-! ### Tables in which all batches fit -/

/-- **The tables `f` hold those of `s` and all of the batches.** -/
structure Fits (sha256 : String → String) (tenant : String) (bs : Set Batch) (s f : Traffic) : Prop where
  windows : ∀ w ∈ s.windows, w ∈ f.windows
  ledger : ∀ other id fp, Entered s other id fp → Entered f other id fp
  rows : ∀ b ∈ bs, New s tenant b → ∀ w ∈ rowsOf tenant b, w ∈ f.windows
  entries : ∀ b ∈ bs, Entered f tenant b.id (fingerprint sha256 b)

/-- The hash tells the texts of the batches apart. -/
def NoCollision (sha256 : String → String) (bs : Set Batch) : Prop :=
  ∀ b ∈ bs, ∀ b' ∈ bs, sha256 (marshal (canonical b)) = sha256 (marshal (canonical b')) →
    marshal (canonical b) = marshal (canonical b')

/-- Batches with one fingerprint have the same rows. -/
theorem rowsOf_congr {b b' : Batch} {bs : Set Batch} (hsha : NoCollision sha256 bs) (hb : b ∈ bs)
    (hb' : b' ∈ bs) (hwf : WellFormed b) (hwf' : WellFormed b')
    (h : fingerprint sha256 b = fingerprint sha256 b') (w : WindowRow) :
    w ∈ rowsOf tenant b ↔ w ∈ rowsOf tenant b' := by
  have hcanon : canonical b = canonical b' := marshal_inj hwf.plain hwf'.plain (hsha b hb b' hb' h)
  rw [← mem_rowsOf_canonical, hcanon, mem_rowsOf_canonical]

/-- What a call that succeeds keeps and adds. -/
theorem fits_ingest {s : Traffic} {b : Batch} {r : Result}
    (h : (traffic.atomic (Store.ingest sha256 tenant b now false) s).1 = .ok r) :
    Fits sha256 tenant {b} s (traffic.atomic (Store.ingest sha256 tenant b now false) s).2 := by
  have hout := ingest_out sha256 tenant b now false s
  generalize traffic.atomic (Store.ingest sha256 tenant b now false) s = x at hout h ⊢
  cases hout with
  | invalid | clash | conflict => cases h
  | replayed hv row hrow heq =>
    have hentered := entered_of_find? hrow
    refine ⟨fun w hw => hw, fun _ _ _ he => he, ?_, ?_⟩
    · rintro c rfl hnew
      exact absurd hentered (new_iff.mp hnew _)
    · rintro c rfl
      rw [← heq]
      exact hentered
  | stored hv hnew t n hload =>
    refine ⟨fun w hw => (mem_load hload w).mpr (Or.inl hw),
      fun _ _ _ he => (entered_storing hnew).mpr (Or.inl he), ?_, ?_⟩
    · rintro c rfl - w hw
      exact (mem_load hload w).mpr (Or.inr (mem_rowsOf_canonical.mpr hw))
    · rintro c rfl
      exact (entered_storing hnew).mpr (Or.inr ⟨rfl, rfl, rfl⟩)

/-- A batch that one call enters in the ledger is that batch. -/
theorem new_ingest {s : Traffic} {b c : Batch} (hc : New s tenant c) (hid : c.id ≠ b.id) :
    New (traffic.atomic (Store.ingest sha256 tenant b now false) s).2 tenant c := by
  have hout := ingest_out sha256 tenant b now false s
  generalize traffic.atomic (Store.ingest sha256 tenant b now false) s = x at hout ⊢
  cases hout with
  | stored hv hnew t n hload =>
    refine new_iff.mpr fun fp he => ?_
    rcases (entered_storing hnew).mp he with he | ⟨-, he, -⟩
    · exact new_iff.mp hc fp he
    · exact hid he
  | _ => exact hc

/-- **The tables one successful order ends with hold all batches.** -/
theorem fits_imports : ∀ {bs : List Batch} {s : Traffic}, NoCollision sha256 {b | b ∈ bs} →
    (∀ b ∈ bs, WellFormed b) → Succeeds (imports sha256 tenant now bs s).1 →
    Fits sha256 tenant {b | b ∈ bs} s (imports sha256 tenant now bs s).2
  | [], s, _, _, _ => ⟨fun w hw => hw, fun _ _ _ h => h, fun b hb => by simp at hb, fun b hb => by simp at hb⟩
  | b :: bs, s, hsha, hwf, hok => by
    obtain ⟨r, hr⟩ := hok _ List.mem_cons_self
    have hone := fits_ingest hr
    have hsha' : NoCollision sha256 {c | c ∈ bs} := fun c hc c' hc' =>
      hsha c (List.mem_cons_of_mem b hc) c' (List.mem_cons_of_mem b hc')
    have hrest := fits_imports (s := (traffic.atomic (Store.ingest sha256 tenant b now false) s).2) hsha'
      (fun c hc => hwf c (List.mem_cons_of_mem b hc)) fun a ha => hok a (List.mem_cons_of_mem _ ha)
    have hb : Entered (imports sha256 tenant now (b :: bs) s).2 tenant b.id (fingerprint sha256 b) :=
      hrest.ledger _ _ _ (hone.entries b rfl)
    refine ⟨fun w hw => hrest.windows w (hone.windows w hw),
      fun _ _ _ h => hrest.ledger _ _ _ (hone.ledger _ _ _ h), ?_, ?_⟩
    · intro c hc hnew w hw
      rcases List.mem_cons.mp hc with rfl | hc
      · exact hrest.windows w (hone.rows c rfl hnew w hw)
      by_cases hid : c.id = b.id
      · -- the batch was replayed: it is the one imported first
        have hfp : fingerprint sha256 c = fingerprint sha256 b :=
          Entered.fingerprint_eq (hid ▸ hrest.entries c hc) hb
        have hnewb : New s tenant b := by rw [New, ← hid]; exact hnew
        rw [rowsOf_congr hsha (List.mem_cons_of_mem b hc) List.mem_cons_self
          (hwf c (List.mem_cons_of_mem b hc)) (hwf b List.mem_cons_self) hfp] at hw
        exact hrest.windows w (hone.rows b rfl hnewb w hw)
      · exact hrest.rows c hc (new_ingest hnew hid) w hw
    · intro c hc
      rcases List.mem_cons.mp hc with rfl | hc
      · exact hb
      · exact hrest.entries c hc

/-! ### Every order -/

/-- **What the tables hold** once the batches `done` are imported. -/
structure After (sha256 : String → String) (tenant : String) (s : Traffic) (done : Set Batch)
    (s' : Traffic) : Prop where
  windows : ∀ w, w ∈ s'.windows ↔
    w ∈ s.windows ∨ ∃ b ∈ done, New s tenant b ∧ w ∈ rowsOf tenant b
  ledger : ∀ other id fp, Entered s' other id fp ↔ Entered s other id fp ∨
    ∃ b ∈ done, other = tenant ∧ id = b.id ∧ fp = fingerprint sha256 b

theorem After.start (s : Traffic) : After sha256 tenant s ∅ s := by
  refine ⟨fun w => ?_, fun other id fp => ?_⟩
  · simp
  · simp

/-- The loop over rows that a table holds beside those stored. -/
theorem load_within {f : Table WindowRow.pk} : ∀ {rs : List WindowRow} {t : Table WindowRow.pk} {n : ℕ},
    (∀ w ∈ t, w ∈ f) → (∀ r ∈ rs, r ∈ f) → ∃ t' n', load t rs n = some (t', n')
  | [], t, n, _, _ => ⟨t, n, rfl⟩
  | r :: rs, t, n, ht, hrs => by
    have htail : ∀ x ∈ rs, x ∈ f := fun x hx => hrs x (List.mem_cons_of_mem r hx)
    have hr : r ∈ f := hrs r List.mem_cons_self
    rw [load]
    cases hfind : t.find? r.pk with
    | none =>
      refine load_within (fun w hw => ?_) htail
      rcases Table.mem_put.mp hw with rfl | ⟨hw, -⟩
      · exact hr
      · exact ht w hw
    | some x =>
      have hx : x = r := Table.key_injOn (ht x (Table.mem_of_find? hfind)) hr (Table.find?_key hfind)
      rw [hx]
      simp only [if_true]
      exact load_within ht htail

variable {s f : Traffic} {all done : Set Batch}

theorem After.entered_of_fits {s' : Traffic} (h : After sha256 tenant s done s')
    (hf : Fits sha256 tenant all s f) (hdone : done ⊆ all) {other id fp : String}
    (he : Entered s' other id fp) : Entered f other id fp := by
  rcases (h.ledger _ _ _).mp he with he | ⟨b, hb, rfl, rfl, rfl⟩
  · exact hf.ledger _ _ _ he
  · exact hf.entries b (hdone hb)

theorem After.windows_of_fits {s' : Traffic} (h : After sha256 tenant s done s')
    (hf : Fits sha256 tenant all s f) (hdone : done ⊆ all) {w : WindowRow} (hw : w ∈ s'.windows) :
    w ∈ f.windows := by
  rcases (h.windows w).mp hw with hw | ⟨b, hb, hnew, hw⟩
  · exact hf.windows w hw
  · exact hf.rows b (hdone hb) hnew w hw

/-- One more batch: its rows, if it is new, and its entry. -/
theorem After.add {s' s'' : Traffic} {b : Batch} (h : After sha256 tenant s done s')
    (hwindows : ∀ w, w ∈ s''.windows ↔ w ∈ s'.windows ∨ New s tenant b ∧ w ∈ rowsOf tenant b)
    (hledger : ∀ other id fp, Entered s'' other id fp ↔
      Entered s' other id fp ∨ other = tenant ∧ id = b.id ∧ fp = fingerprint sha256 b) :
    After sha256 tenant s (insert b done) s'' := by
  refine ⟨fun w => ?_, fun other id fp => ?_⟩
  · rw [hwindows w, h.windows w, Set.exists_mem_insert, or_right_comm, or_assoc]
  · rw [hledger other id fp, h.ledger other id fp, Set.exists_mem_insert, or_right_comm, or_assoc]

/-- A replayed batch is one that was imported before. -/
theorem After.replayed {s' : Traffic} (h : After sha256 tenant s done s') (hsha : NoCollision sha256 all)
    (hwf : ∀ b ∈ all, WellFormed b) (hdone : done ⊆ all) {b : Batch} (hb : b ∈ all)
    (hentered : Entered s' tenant b.id (fingerprint sha256 b)) :
    After sha256 tenant s (insert b done) s' := by
  refine h.add (fun w => (or_iff_left_of_imp ?_).symm) fun other id fp => (or_iff_left_of_imp ?_).symm
  · rintro ⟨hnew, hw⟩
    rcases (h.ledger _ _ _).mp hentered with he | ⟨d, hd, -, hid, hfp⟩
    · exact absurd he (new_iff.mp hnew _)
    · have hnewd : New s tenant d := by rw [New, ← hid]; exact hnew
      rw [rowsOf_congr hsha hb (hdone hd) (hwf b hb) (hwf d (hdone hd)) hfp] at hw
      exact (h.windows w).mpr (Or.inr ⟨d, hd, hnewd, hw⟩)
  · rintro ⟨rfl, rfl, rfl⟩
    exact hentered

/-- **One more batch of the list** is imported without a conflict. -/
theorem After.ingest {s' : Traffic} (h : After sha256 tenant s done s')
    (hf : Fits sha256 tenant all s f) (hsha : NoCollision sha256 all) (hwf : ∀ b ∈ all, WellFormed b)
    (hdone : done ⊆ all) {b : Batch} (hb : b ∈ all) (hv : valid tenant b now = true) :
    ∃ r s'', traffic.atomic (Store.ingest sha256 tenant b now false) s' = (.ok r, s'') ∧
      After sha256 tenant s (insert b done) s'' ∧
      s''.windows.count (fun _ => true) = s'.windows.count (fun _ => true) + insertedBy (.ok r) := by
  have hout := ingest_out sha256 tenant b now false s'
  generalize traffic.atomic (Store.ingest sha256 tenant b now false) s' = x at hout ⊢
  cases hout with
  | invalid hinv => rw [hv] at hinv; cases hinv
  | clash hv' row hrow hne =>
    have hrow' := h.entered_of_fits hf hdone (entered_of_find? hrow)
    exact absurd (Entered.fingerprint_eq hrow' (hf.entries b hb)) hne
  | conflict hv' hnew hload =>
    have hnews : New s tenant b := new_iff.mpr fun fp he =>
      new_iff.mp hnew fp ((h.ledger _ _ _).mpr (Or.inl he))
    obtain ⟨t, n, hsome⟩ := load_within (n := 0) (fun w hw => h.windows_of_fits hf hdone hw)
      fun r hr => hf.rows b hb hnews r (mem_rowsOf_canonical.mp hr)
    rw [show base false tenant s' = s' from rfl, hsome] at hload
    cases hload
  | replayed hv' row hrow heq =>
    have hentered := entered_of_find? hrow
    rw [heq] at hentered
    exact ⟨_, s', rfl, h.replayed hsha hwf hdone hb hentered, rfl⟩
  | stored hv' hnew t n hload =>
    have hnews : New s tenant b := new_iff.mpr fun fp he =>
      new_iff.mp hnew fp ((h.ledger _ _ _).mpr (Or.inl he))
    refine ⟨_, _, rfl, h.add (fun w => ?_) fun other id fp => ?_, ?_⟩
    · show w ∈ t ↔ _
      rw [mem_load hload w, mem_rowsOf_canonical, and_iff_right hnews]
      rfl
    · exact entered_storing (s := base false tenant s') hnew
    · have hcount := count_load (p := fun _ => true) (c := true) (fun _ _ => rfl) hload
      simp only [if_true, add_zero] at hcount
      exact hcount

/-- **Every list of these batches is imported**, and the tables are those of the batches in it. -/
theorem After.imports (hf : Fits sha256 tenant all s f) (hsha : NoCollision sha256 all)
    (hv : ∀ b ∈ all, valid tenant b now = true) :
    ∀ {cs : List Batch} {done : Set Batch} {s' : Traffic}, After sha256 tenant s done s' → done ⊆ all →
    (∀ b ∈ cs, b ∈ all) →
    Succeeds (imports sha256 tenant now cs s').1 ∧
      After sha256 tenant s (done ∪ {b | b ∈ cs}) (Order.imports sha256 tenant now cs s').2 ∧
      (Order.imports sha256 tenant now cs s').2.windows.count (fun _ => true) =
        s'.windows.count (fun _ => true) + inserted (Order.imports sha256 tenant now cs s').1
  | [], done, s', h, _, _ => by
    have hset : done ∪ {b | b ∈ ([] : List Batch)} = done := by simp
    rw [hset]
    exact ⟨fun a ha => absurd ha List.not_mem_nil, h, rfl⟩
  | b :: cs, done, s', h, hdone, hcs => by
    have hb : b ∈ all := hcs b List.mem_cons_self
    obtain ⟨r, s'', heq, hafter, hcount⟩ :=
      h.ingest hf hsha (fun c hc => wellFormed_of_valid (hv c hc)) hdone hb (hv b hb)
    have hdone' : insert b done ⊆ all := Set.insert_subset hb hdone
    obtain ⟨hok, hlast, hrest⟩ :=
      After.imports hf hsha hv hafter hdone' fun c hc => hcs c (List.mem_cons_of_mem b hc)
    simp only [Order.imports, heq]
    refine ⟨?_, ?_, ?_⟩
    · intro a ha
      rcases List.mem_cons.mp ha with rfl | ha
      · exact ⟨r, rfl⟩
      · exact hok a ha
    · have hset : done ∪ {c | c ∈ b :: cs} = insert b done ∪ {c | c ∈ cs} := by
        ext c
        simp only [Set.mem_union, Set.mem_ofPred_eq, List.mem_cons, Set.mem_insert_iff]
        tauto
      rw [hset]
      exact hlast
    · rw [hrest, hcount, inserted, inserted, List.map_cons, List.sum_cons, add_assoc]

end Order

/-! ### The theorem -/

/-- Tables with the same rows have the same number of them. -/
theorem count_of_mem {t u : Table WindowRow.pk} (h : ∀ w, w ∈ t ↔ w ∈ u) :
    t.count (fun _ => true) = u.count fun _ => true := by
  have hperm : t.rows.Perm u.rows :=
    (List.perm_ext_iff_of_nodup (List.Nodup.of_map _ t.nodup) (List.Nodup.of_map _ u.nodup)).mpr h
  rw [Table.count_eq_length, Table.count_eq_length]
  simpa using hperm.length_eq

/-- Tables with the same rows are reported alike. -/
theorem report_of_mem {t u : Table WindowRow.pk} (h : ∀ w, w ∈ t ↔ w ∈ u) (tenant : String) (now : Int) :
    report tenant now t = report tenant now u := by
  refine report_masked fun k => Or.inl ?_
  have hfind : t.find? k = u.find? k := by
    refine Option.ext fun w => ?_
    rw [Table.find?_eq_some, Table.find?_eq_some, h w]
  rw [hfind]

/-- **Import order does not matter.** Let the batches `bs` pass the validation at `now`, and let
their import in this order succeed. Then every list of the same batches, in any order and with any
repeated, is imported with every call succeeding; the windows, the entries of the ledger, the sum of the counts
inserted and every later report are the same. -/
theorem import_order_irrelevant (sha256 : String → String) (s : Traffic) (tenant : String) (now : Int)
    (bs cs : List Batch) (hsha : NoCollision sha256 {b | b ∈ bs})
    (hv : ∀ b ∈ bs, valid tenant b now = true)
    (hok : Succeeds (imports sha256 tenant now bs s).1) (hcs : ∀ b, b ∈ cs ↔ b ∈ bs) :
    Succeeds (imports sha256 tenant now cs s).1 ∧
      (∀ w, w ∈ (imports sha256 tenant now cs s).2.windows ↔
        w ∈ (imports sha256 tenant now bs s).2.windows) ∧
      (∀ other id fp, Entered (imports sha256 tenant now cs s).2 other id fp ↔
        Entered (imports sha256 tenant now bs s).2 other id fp) ∧
      inserted (imports sha256 tenant now cs s).1 = inserted (imports sha256 tenant now bs s).1 ∧
      ∀ other later, report other later (imports sha256 tenant now cs s).2.windows =
        report other later (imports sha256 tenant now bs s).2.windows := by
  have hfits := fits_imports hsha (fun b hb => wellFormed_of_valid (hv b hb)) hok
  have hstart : After sha256 tenant s ∅ s := After.start s
  have hbs : ∀ b ∈ bs, b ∈ {b | b ∈ bs} := fun b hb => hb
  have hcs' : ∀ b ∈ cs, b ∈ {b | b ∈ bs} := fun b hb => (hcs b).mp hb
  obtain ⟨-, hafter, hcount⟩ := After.imports hfits hsha hv hstart (Set.empty_subset _) hbs
  obtain ⟨hok', hafter', hcount'⟩ := After.imports hfits hsha hv hstart (Set.empty_subset _) hcs'
  have hset : ({b | b ∈ cs} : Set Batch) = {b | b ∈ bs} := Set.ext hcs
  rw [hset] at hafter'
  have hwindows : ∀ w, w ∈ (imports sha256 tenant now cs s).2.windows ↔
      w ∈ (imports sha256 tenant now bs s).2.windows := fun w =>
    (hafter'.windows w).trans (hafter.windows w).symm
  refine ⟨hok', hwindows, fun other id fp => (hafter'.ledger _ _ _).trans (hafter.ledger _ _ _).symm,
    ?_, report_of_mem hwindows⟩
  have hsame := count_of_mem hwindows
  rw [hcount, hcount'] at hsame
  exact Nat.add_left_cancel hsame

/-- Two batches that share an hour of downtown. -/
def early : Batch := ⟨"early", source, [⟨"downtown", hour, 30⟩, ⟨"retail", hour, 12⟩]⟩

def late : Batch := ⟨"late", source, [⟨"downtown", 2 * hour, 35⟩, ⟨"downtown", hour, 30⟩]⟩

theorem import_order_irrelevant_overlapping :
    inserted (imports id "acme" (3 * hour) [late, early, late] Traffic.empty).1 =
      inserted (imports id "acme" (3 * hour) [early, late] Traffic.empty).1 :=
  (import_order_irrelevant id Traffic.empty "acme" (3 * hour) [early, late] [late, early, late]
    (fun _ _ _ _ h => h) (by decide +kernel)
    (by
      have hall : ∀ a ∈ (imports id "acme" (3 * hour) [early, late] Traffic.empty).1, a.isOk = true := by
        decide +kernel
      intro a ha
      have hok := hall a ha
      cases a with
      | ok r => exact ⟨r, rfl⟩
      | error e => cases hok)
    (fun b => by simp only [List.mem_cons, List.not_mem_nil, or_false]; tauto)).2.2.2.1

end Afterglow.Foottraffic.Order
