import Afterglow.Foottraffic.Fingerprint

/-! # What the calls of the foot-traffic store can do

A run of the foot-traffic store is any list of calls of `Ingest`, `ReplaceSample` and `EmptySample`, for
any tenants, each a transaction of its own that may meet a storage failure. What a call can do is said
once (`IngestOut`, `EmptyOut`); the loop over the windows of a batch is the function `load`. -/

namespace Afterglow.Foottraffic.Outcome

open Afterglow.Sql.Rows Afterglow.Sql.Txn Afterglow.Foottraffic.Model Afterglow.Foottraffic.Store
open Afterglow.Foottraffic.Fingerprint

/-! ### Runs -/

/-- One call of a method: `Ingest`, or with `replace` `ReplaceSample`; and `EmptySample`. -/
inductive Op
  | ingest (tenant : String) (b : Batch) (now : Int) (replace : Bool)
  | emptySample (tenant : String)
  deriving DecidableEq

/-- What the method answers. -/
def Op.Ans : Op → Type
  | .ingest .. => Result
  | .emptySample .. => EmptyResult

/-- The transaction of the method. -/
def Op.prog (sha256 : String → String) : (o : Op) → Tx o.Ans
  | .ingest tenant b now replace => Store.ingest sha256 tenant b now replace
  | .emptySample tenant => Store.emptySample tenant

/-- Run the call alone; `fault` is the statement at which the database fails, if it does. -/
def Op.exec (sha256 : String → String) (o : Op) (fault : Option ℕ) (s : Traffic) :
    Except TrafficErr o.Ans × Traffic :=
  match fault with
  | none => traffic.atomic (o.prog sha256) s
  | some n => traffic.faulty .fault s n (o.prog sha256) s

/-- A call and the fault it meets. -/
structure Call where
  op : Op
  fault : Option ℕ
  deriving DecidableEq

def Call.step (sha256 : String → String) (s : Traffic) (c : Call) : Traffic :=
  (c.op.exec sha256 c.fault s).2

/-- The tables after a run. -/
def run (sha256 : String → String) (cs : List Call) (s : Traffic) : Traffic :=
  cs.foldl (Call.step sha256) s

theorem Op.exec_cases (sha256 : String → String) (o : Op) (fault : Option ℕ) (s : Traffic) :
    o.exec sha256 fault s = traffic.atomic (o.prog sha256) s ∨
      o.exec sha256 fault s = (.error .fault, s) := by
  cases fault with
  | none => exact Or.inl rfl
  | some n => exact traffic.faulty_cases .fault s n (o.prog sha256) s

/-! ### The loop over the windows -/

/-- The loop as a function: the table and the count it ends with, or a conflict. -/
def load (t : Table WindowRow.pk) : List WindowRow → ℕ → Option (Table WindowRow.pk × ℕ)
  | [], n => some (t, n)
  | r :: rs, n =>
    match t.find? r.pk with
    | none => load (t.put r) rs (n + 1)
    | some x => if x.observations = r.observations then load t rs n else none

/-- The rows of a batch. -/
def rowsOf (tenant : String) (b : Batch) : List WindowRow := b.windows.map (windowRow tenant b.source)

theorem checkWindow_ok {tenant feed : String} {w : Window} (h : windowOk w = true) :
    checkWindow (windowRow tenant feed w) = .ok () := by
  simp only [windowOk, Bool.and_eq_true, Bool.not_eq_true', Bool.or_eq_false_iff,
    decide_eq_false_iff_not] at h
  obtain ⟨-, ⟨hlow, hhigh⟩, -⟩ := h
  refine if_pos ⟨?_, ?_⟩
  · show 0 ≤ w.count
    omega
  · show w.count ≤ 1000000
    omega

/-- **The loop is `load`**: it goes on with the count and the table, or rolls back with a conflict. -/
theorem runFrom_insertWindows {tenant feed : String} {k : ℕ → Tx Result} {s₀ : Traffic} :
    ∀ {ws : List Window} {n : ℕ} {s : Traffic}, (∀ w ∈ ws, windowOk w = true) →
    traffic.runFrom s₀ (insertWindows tenant feed k ws n) s =
      match load s.windows (ws.map (windowRow tenant feed)) n with
      | none => (.error .conflict, s₀)
      | some (t, n') => traffic.runFrom s₀ (k n') { s with windows := t }
  | [], n, s, _ => rfl
  | w :: ws, n, s, hws => by
    have htail : ∀ v ∈ ws, windowOk v = true := fun v hv => hws v (List.mem_cons_of_mem w hv)
    rw [insertWindows, List.map_cons, load]
    cases hfind : s.windows.find? (windowRow tenant feed w).pk with
    | none =>
      have hev : traffic.eval (.insertWindow (windowRow tenant feed w)) Engine.alone s =
          .ok (1, [.window (windowRow tenant feed w)]) :=
        insertRow_new hfind (checkWindow_ok (hws w List.mem_cons_self))
      rw [traffic.runFrom_exec_ok hev]
      exact runFrom_insertWindows (s := writeRow (.window (windowRow tenant feed w)) s) htail
    | some x =>
      have hev : traffic.eval (.insertWindow (windowRow tenant feed w)) Engine.alone s = .ok (0, []) :=
        insertRow_old hfind
      have hread : traffic.eval (.selectObservations (tenant, feed, w.zone, w.start)) Engine.alone s =
          .ok (some x.observations, []) := by
        show Except.ok ((s.windows.find? (windowRow tenant feed w).pk).map _, []) = _
        rw [hfind]
        rfl
      rw [traffic.runFrom_read hev, if_pos rfl, traffic.runFrom_read hread]
      show traffic.runFrom s₀ (if x.observations ≠ w.count then _ else _) s = _
      by_cases hcount : x.observations = w.count
      · rw [if_neg (not_not.mpr hcount)]
        simp only [if_pos (show x.observations = (windowRow tenant feed w).observations from hcount)]
        exact runFrom_insertWindows htail
      · rw [if_pos hcount]
        simp only [if_neg (show ¬ x.observations = (windowRow tenant feed w).observations from hcount)]
        rfl

/-! ### Deletes -/

theorem filter_true {ρ κ : Type} {key : ρ → κ} (t : Table key) {p : ρ → Bool} (h : ∀ r, p r = true) :
    t.filter p = t :=
  Table.ext (List.filter_eq_self.mpr fun r _ => h r)

theorem filter_filter {ρ κ : Type} {key : ρ → κ} (t : Table key) {p q o : ρ → Bool}
    (h : ∀ r, (p r && q r) = o r) : (t.filter p).filter q = t.filter o := by
  refine Table.ext ?_
  show (t.rows.filter p).filter q = t.rows.filter o
  rw [List.filter_filter]
  exact List.filter_congr fun r _ => by rw [Bool.and_comm]; exact h r

theorem writeAll_dropWindows : ∀ (ks : List (String × String × String × Int)) (s : Traffic),
    traffic.writeAll (ks.map .dropWindow) s =
      { s with windows := s.windows.filter fun w => w.pk ∉ ks }
  | [], s => by rw [filter_true s.windows fun w => by simp]; rfl
  | k :: ks, s => by
    rw [List.map_cons, Engine.writeAll_cons, writeAll_dropWindows ks]
    show ({ s with windows := (s.windows.filter fun w => w.pk ≠ k).filter _ } : Traffic) = _
    rw [filter_filter s.windows (o := fun w => w.pk ∉ k :: ks) fun w => by simp]

theorem writeAll_dropBatches : ∀ (ks : List (String × String)) (s : Traffic),
    traffic.writeAll (ks.map .dropBatch) s =
      { s with batches := s.batches.filter fun b => b.pk ∉ ks }
  | [], s => by rw [filter_true s.batches fun b => by simp]; rfl
  | k :: ks, s => by
    rw [List.map_cons, Engine.writeAll_cons, writeAll_dropBatches ks]
    show ({ s with batches := (s.batches.filter fun b => b.pk ≠ k).filter _ } : Traffic) = _
    rw [filter_filter s.batches (o := fun b => b.pk ∉ k :: ks) fun b => by simp]

section Delete

variable {s₀ s : Traffic} {α : Type} {k : ℕ → Tx α}

theorem runFrom_deleteWindows (tenant : String) :
    traffic.runFrom s₀ (.exec (.deleteWindows tenant) k) s =
      traffic.runFrom s₀ (k (s.windows.count fun w => w.tenant = tenant))
        { s with windows := s.windows.filter fun w => !decide (w.tenant = tenant) } := by
  have hev : traffic.eval (.deleteWindows tenant) Engine.alone s =
      .ok ((s.windows.rows.filter fun w => w.tenant = tenant).length,
        ((s.windows.rows.filter fun w => w.tenant = tenant).map WindowRow.pk).map .dropWindow) := by
    rw [List.map_map]; rfl
  rw [traffic.runFrom_exec_ok hev, writeAll_dropWindows,
    Table.filter_keys s.windows fun _ => decide_eq_true_iff, Table.count_eq_length]

theorem runFrom_deleteOtherBatches (tenant id : String) :
    traffic.runFrom s₀ (.exec (.deleteOtherBatches tenant id) k) s =
      traffic.runFrom s₀ (k (s.batches.count fun r => r.tenant = tenant ∧ r.id ≠ id))
        { s with batches := s.batches.filter fun r => !decide (r.tenant = tenant ∧ r.id ≠ id) } := by
  have hev : traffic.eval (.deleteOtherBatches tenant id) Engine.alone s =
      .ok ((s.batches.rows.filter fun r => r.tenant = tenant ∧ r.id ≠ id).length,
        ((s.batches.rows.filter fun r => r.tenant = tenant ∧ r.id ≠ id).map BatchRow.pk).map .dropBatch) := by
    rw [List.map_map]; rfl
  rw [traffic.runFrom_exec_ok hev, writeAll_dropBatches,
    Table.filter_keys s.batches fun _ => decide_eq_true_iff, Table.count_eq_length]

theorem runFrom_deleteBatches (tenant : String) :
    traffic.runFrom s₀ (.exec (.deleteBatches tenant) k) s =
      traffic.runFrom s₀ (k (s.batches.count fun r => r.tenant = tenant))
        { s with batches := s.batches.filter fun r => !decide (r.tenant = tenant) } := by
  have hev : traffic.eval (.deleteBatches tenant) Engine.alone s =
      .ok ((s.batches.rows.filter fun r => r.tenant = tenant).length,
        ((s.batches.rows.filter fun r => r.tenant = tenant).map BatchRow.pk).map .dropBatch) := by
    rw [List.map_map]; rfl
  rw [traffic.runFrom_exec_ok hev, writeAll_dropBatches,
    Table.filter_keys s.batches fun _ => decide_eq_true_iff, Table.count_eq_length]

end Delete

/-! ### What a call can do -/

/-- The tables without the rows of a tenant. -/
def cleared (tenant : String) (s : Traffic) : Traffic :=
  { s with
    batches := s.batches.filter fun r => !decide (r.tenant = tenant)
    windows := s.windows.filter fun w => !decide (w.tenant = tenant) }

/-- The tables a new batch is added to: with `replace`, without the rows of its tenant. -/
def base (replace : Bool) (tenant : String) (s : Traffic) : Traffic :=
  if replace then cleared tenant s else s

/-- The tables with a batch added: its scope, its row of the ledger, and the windows it ends with. -/
def storing (sha256 : String → String) (tenant : String) (b : Batch) (n : ℕ) (t : Table WindowRow.pk)
    (s : Traffic) : Traffic :=
  ⟨s.scopes.put tenant, s.batches.put ⟨tenant, b.id, fingerprint sha256 b, n⟩, t⟩

/-- **What `ingest` can do.** -/
inductive IngestOut (sha256 : String → String) (tenant : String) (b : Batch) (now : Int) (replace : Bool)
    (s : Traffic) : Except TrafficErr Result × Traffic → Prop
  | invalid (hv : valid tenant b now = false) :
      IngestOut sha256 tenant b now replace s (.error .invalid, s)
  | clash (hv : valid tenant b now = true) (row : BatchRow)
      (hrow : s.batches.find? (tenant, b.id) = some row) (hne : row.fingerprint ≠ fingerprint sha256 b) :
      IngestOut sha256 tenant b now replace s (.error .conflict, s)
  | replayed (hv : valid tenant b now = true) (row : BatchRow)
      (hrow : s.batches.find? (tenant, b.id) = some row) (heq : row.fingerprint = fingerprint sha256 b) :
      IngestOut sha256 tenant b now replace s (.ok ⟨b.id, row.inserted, true⟩, s)
  | conflict (hv : valid tenant b now = true) (hnew : s.batches.find? (tenant, b.id) = none)
      (hload : load (base replace tenant s).windows (rowsOf tenant (canonical b)) 0 = none) :
      IngestOut sha256 tenant b now replace s (.error .conflict, s)
  | stored (hv : valid tenant b now = true) (hnew : s.batches.find? (tenant, b.id) = none)
      (t : Table WindowRow.pk) (n : ℕ)
      (hload : load (base replace tenant s).windows (rowsOf tenant (canonical b)) 0 = some (t, n)) :
      IngestOut sha256 tenant b now replace s
        (.ok ⟨b.id, n, false⟩, storing sha256 tenant b n t (base replace tenant s))

/-- **What `emptySample` can do.** -/
inductive EmptyOut (tenant : String) (s : Traffic) : Except TrafficErr EmptyResult × Traffic → Prop
  | invalid : EmptyOut tenant s (.error .invalid, s)
  | emptied :
      EmptyOut tenant s
        (.ok ⟨s.batches.count fun r => r.tenant = tenant, s.windows.count fun w => w.tenant = tenant⟩,
          { cleared tenant s with scopes := s.scopes.put tenant })

theorem emptySample_out (tenant : String) (s : Traffic) :
    EmptyOut tenant s (traffic.atomic (emptySample tenant) s) := by
  rw [Engine.atomic, emptySample]
  by_cases hv : identity tenant = true
  · rw [hv]
    have hlock : traffic.eval (.lockScope tenant) Engine.alone s = .ok ((), [.scope tenant]) := rfl
    show EmptyOut tenant s (traffic.runFrom s (.exec (.lockScope tenant) _) s)
    rw [traffic.runFrom_exec_ok hlock, runFrom_deleteWindows, runFrom_deleteBatches]
    exact .emptied
  · rw [Bool.not_eq_true] at hv
    rw [hv]
    exact .invalid

/-- The rows the ledger keeps when the new row is entered first and the others are deleted then. -/
theorem batches_cleared {s : Traffic} {r : BatchRow} (hnew : s.batches.find? r.pk = none) :
    ((s.batches.put r).filter fun x => !decide (x.tenant = r.tenant ∧ x.id ≠ r.id)) =
      (cleared r.tenant s).batches.put r := by
  rw [Table.filter_put_new hnew (by simp)]
  congr 1
  refine Table.ext (List.filter_congr fun x hx => ?_)
  have hne := Table.find?_eq_none.mp hnew x hx
  by_cases ht : x.tenant = r.tenant
  · have hid : x.id ≠ r.id := fun h => hne (Prod.ext ht h)
    simp [ht, hid]
  · simp [ht]

theorem runFrom_setInserted (s₀ : Traffic) {s : Traffic} {r : BatchRow} {n : ℕ} {a : Result}
    (hr : s.batches.find? r.pk = some r) :
    traffic.runFrom s₀ (.exec (.setInserted n r.tenant r.id) fun _ => .commit a) s =
      (.ok a, { s with batches := s.batches.put { r with inserted := n } }) := by
  have hev : traffic.eval (.setInserted n r.tenant r.id) Engine.alone s =
      .ok (1, [.batch { r with inserted := n }]) := by
    simp only [traffic, evalStmt, updateRow]
    rw [show (r.tenant, r.id) = r.pk from rfl, hr]
    rfl
  rw [traffic.runFrom_exec_ok hev]
  rfl

/-- A new batch, once its row of the ledger is entered. -/
theorem ingestNew_out {sha256 : String → String} {tenant : String} {b : Batch} {now : Int}
    {replace : Bool} {s : Traffic} (hv : valid tenant b now = true)
    (hnew : s.batches.find? (tenant, b.id) = none) :
    IngestOut sha256 tenant b now replace s (traffic.runFrom s (ingestNew tenant (canonical b) replace)
      ⟨s.scopes.put tenant, s.batches.put ⟨tenant, b.id, fingerprint sha256 b, 0⟩, s.windows⟩) := by
  have hok : ∀ w ∈ (canonical b).windows, windowOk w = true := fun w hw =>
    (wellFormed_of_valid hv).ok w (mem_canonical.mp hw)
  -- the loop runs on the windows of `base` and ends with the row of the ledger written again
  have hloop (bs : Table BatchRow.pk) (hbs : bs = (base replace tenant s).batches) :
      IngestOut sha256 tenant b now replace s (traffic.runFrom s
        (insertWindows tenant (canonical b).source (fun inserted =>
          .exec (.setInserted inserted tenant (canonical b).id) fun _ =>
            .commit ⟨(canonical b).id, inserted, false⟩) (canonical b).windows 0)
        ⟨s.scopes.put tenant, bs.put ⟨tenant, b.id, fingerprint sha256 b, 0⟩,
          (base replace tenant s).windows⟩) := by
    rw [runFrom_insertWindows hok]
    cases hload : load (base replace tenant s).windows (rowsOf tenant (canonical b)) 0 with
    | none =>
      simp only [rowsOf] at hload
      simp only [hload]
      exact .conflict hv hnew hload
    | some x =>
      obtain ⟨t, n⟩ := x
      have hstored : IngestOut sha256 tenant b now replace s _ := .stored hv hnew t n hload
      simp only [rowsOf] at hload
      simp only [hload]
      subst hbs
      have hset := runFrom_setInserted s (n := n) (a := ⟨b.id, n, false⟩)
        (r := ⟨tenant, b.id, fingerprint sha256 b, 0⟩)
        (s := ⟨s.scopes.put tenant, (base replace tenant s).batches.put
          ⟨tenant, b.id, fingerprint sha256 b, 0⟩, t⟩) (Table.find?_put_self _ _)
      rw [show (canonical b).id = b.id from rfl, hset]
      simp only [Table.put_put (show BatchRow.pk ⟨tenant, b.id, fingerprint sha256 b, 0⟩ =
        BatchRow.pk ⟨tenant, b.id, fingerprint sha256 b, n⟩ from rfl)]
      have hscopes : (base replace tenant s).scopes = s.scopes := by cases replace <;> rfl
      rw [storing, hscopes] at hstored
      exact hstored
  unfold ingestNew
  cases replace with
  | false => exact hloop s.batches rfl
  | true =>
    show IngestOut sha256 tenant b now true s (traffic.runFrom s (clearSample tenant b.id _) _)
    rw [clearSample, runFrom_deleteWindows, runFrom_deleteOtherBatches]
    have hbatches := batches_cleared (r := ⟨tenant, b.id, fingerprint sha256 b, 0⟩) hnew
    simp only [hbatches]
    exact hloop (cleared tenant s).batches rfl

theorem ingest_out (sha256 : String → String) (tenant : String) (b : Batch) (now : Int) (replace : Bool)
    (s : Traffic) :
    IngestOut sha256 tenant b now replace s (traffic.atomic (ingest sha256 tenant b now replace) s) := by
  rw [Engine.atomic, ingest]
  by_cases hv : valid tenant b now = true
  · have hlock : traffic.eval (.lockScope tenant) Engine.alone s = .ok ((), [.scope tenant]) := rfl
    simp only [hv, Bool.not_true, Bool.false_eq_true, if_false]
    rw [traffic.runFrom_exec_ok hlock]
    show IngestOut _ _ _ _ _ _ (traffic.runFrom s (.exec (.insertBatch tenant b.id _) _)
      { s with scopes := s.scopes.put tenant })
    cases hrow : s.batches.find? (tenant, b.id) with
    | none =>
      have hev : traffic.eval (.insertBatch tenant b.id (fingerprint sha256 b)) Engine.alone
          { s with scopes := s.scopes.put tenant } =
          .ok (1, [.batch ⟨tenant, b.id, fingerprint sha256 b, 0⟩]) := insertRow_new hrow rfl
      rw [traffic.runFrom_exec_ok hev, if_neg one_ne_zero]
      exact ingestNew_out hv hrow
    | some row =>
      have hev : traffic.eval (.insertBatch tenant b.id (fingerprint sha256 b)) Engine.alone
          { s with scopes := s.scopes.put tenant } = .ok (0, []) := by
        simp only [traffic, evalStmt]
        exact insertRow_old hrow
      have hread : traffic.eval (.selectBatch tenant b.id) Engine.alone
          { s with scopes := s.scopes.put tenant } = .ok (some (row.fingerprint, row.inserted), []) := by
        show Except.ok ((s.batches.find? (tenant, b.id)).map _, []) = _
        rw [hrow]
        rfl
      rw [traffic.runFrom_read hev, if_pos rfl, traffic.runFrom_read hread]
      show IngestOut _ _ _ _ _ _ (traffic.runFrom s (if row.fingerprint ≠ _ then _ else _) _)
      by_cases hfp : row.fingerprint = fingerprint sha256 b
      · rw [if_neg (not_not.mpr hfp)]
        exact .replayed hv row hrow hfp
      · rw [if_pos hfp]
        exact .clash hv row hrow hfp
  · rw [Bool.not_eq_true] at hv
    simp only [hv, Bool.not_false, if_true]
    exact .invalid hv

end Afterglow.Foottraffic.Outcome
