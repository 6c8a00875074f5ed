import Afterglow.Foottraffic.Model
import Afterglow.Sql.Select
import Afterglow.Sql.Txn

/-! # The transactions of the foot-traffic store

`Ingest`, `ReplaceSample` and `EmptySample` of `internal/foottraffic/store.go`. A batch is brought in a
canonical order and checked before the transaction begins; its fingerprint is the SHA-256 of its JSON
text. `sha256` stands for the hash and its hexadecimal text. Times are Unix milliseconds. -/

namespace Afterglow.Foottraffic.Store

open Afterglow.Sql.Rows Afterglow.Sql.Txn Afterglow.Sql.Select Afterglow.Foottraffic.Model

/-! ### Validation -/

/-- An hour in milliseconds. -/
def hour : Int := 3600000

/-- `now.UTC().Truncate(time.Hour).UnixMilli()`. -/
def endOf (now : Int) : Int := now - now % hour

/-- The checks on one window that look at no clock. -/
def windowOk (w : Window) : Bool :=
  zones.any (fun z => z.id = w.zone) && !(w.count < 0 || 1000000 < w.count || w.start % hour ≠ 0)

/-- The window lies in the seven days before `stop`. -/
def within (stop : Int) (w : Window) : Bool := !(w.start < stop - 7 * 24 * hour || stop ≤ w.start)

/-- The loop over the sorted windows; `last` is the one before. -/
def validWindows (stop : Int) : Option Window → List Window → Bool
  | _, [] => true
  | last, w :: ws =>
    if !(windowOk w && within stop w) then false
    else if last.any fun v => v.zone = w.zone ∧ v.start = w.start then false
    else validWindows stop (some w) ws

/-- What is checked before the windows are looked at. -/
def validHead (tenant : String) (b : Batch) : Bool :=
  identity tenant && identity b.id && b.source == source &&
    !(b.windows.length < 1 || 96 < b.windows.length)

/-- The batch with its windows sorted by start and zone. -/
def canonical (b : Batch) : Batch :=
  { b with windows := orderBy (fun w => toLex (w.start, w.zone)) b.windows }

/-- What `ingest` accepts at `now`. -/
def valid (tenant : String) (b : Batch) (now : Int) : Bool :=
  validHead tenant b && validWindows (endOf now) none (canonical b).windows

/-! ### The fingerprint -/

/-- A text, a value and the character after it. -/
def field (text value : String) (stop : Char) : String := text ++ value ++ String.singleton stop

/-- The JSON text of a window. A zone that passed validation needs no escapes. -/
def marshalWindow (w : Window) : String :=
  field "\x7b\"zone_id\":\"" w.zone '"' ++ field ",\"window_start\":" (toString w.start) ',' ++
    field "\"observations\":" (toString w.count) '\x7d'

/-- Each text with a comma before it. -/
def more : List String → String
  | [] => ""
  | x :: xs => String.singleton ',' ++ x ++ more xs

/-- The texts with commas in between. -/
def commas : List String → String
  | [] => ""
  | x :: xs => x ++ more xs

/-- `json.Marshal`: an identifier and a source that passed validation need no escapes. -/
def marshal (b : Batch) : String :=
  field "\x7b\"batch_id\":\"" b.id '"' ++ field ",\"source\":\"" b.source '"' ++
    field ",\"windows\":[" (commas (b.windows.map marshalWindow)) ']' ++ "\x7d"

/-- The fingerprint of a batch: that of its canonical form. -/
def fingerprint (sha256 : String → String) (b : Batch) : String := sha256 (marshal (canonical b))

/-! ### Statements -/

/-- A row written or deleted. -/
inductive Write
  | scope (tenant : String)
  | batch (b : BatchRow)
  | window (w : WindowRow)
  | dropBatch (k : String × String)
  | dropWindow (k : String × String × String × Int)
  deriving DecidableEq

/-- The keys a transaction can hold. -/
inductive Lock
  | scope (tenant : String)
  | batch (k : String × String)
  | window (k : String × String × String × Int)
  deriving DecidableEq

/-- The statements, by the type of their answer. -/
inductive Stmt : Type → Type
  /-- `INSERT INTO traffic_scopes_v1(tenant) VALUES($1) ON CONFLICT(tenant) DO UPDATE SET
  tenant=excluded.tenant` -/
  | lockScope (tenant : String) : Stmt Unit
  /-- `INSERT INTO traffic_batches_v1(tenant,id,fingerprint,inserted) VALUES($1,$2,$3,0) ON CONFLICT DO
  NOTHING` -/
  | insertBatch (tenant id fingerprint : String) : Stmt ℕ
  /-- `SELECT fingerprint,inserted FROM traffic_batches_v1 WHERE tenant=$1 AND id=$2` -/
  | selectBatch (tenant id : String) : Stmt (Option (String × ℕ))
  /-- `DELETE FROM traffic_windows_v1 WHERE tenant=$1` -/
  | deleteWindows (tenant : String) : Stmt ℕ
  /-- `DELETE FROM traffic_batches_v1 WHERE tenant=$1 AND id<>$2` -/
  | deleteOtherBatches (tenant id : String) : Stmt ℕ
  /-- `DELETE FROM traffic_batches_v1 WHERE tenant=$1` -/
  | deleteBatches (tenant : String) : Stmt ℕ
  /-- `INSERT INTO traffic_windows_v1(tenant,source,zone,start_ms,observations) ... ON CONFLICT DO
  NOTHING` -/
  | insertWindow (w : WindowRow) : Stmt ℕ
  /-- `SELECT observations FROM traffic_windows_v1 WHERE tenant=$1 AND source=$2 AND zone=$3 AND
  start_ms=$4` -/
  | selectObservations (k : String × String × String × Int) : Stmt (Option Int)
  /-- `UPDATE traffic_batches_v1 SET inserted=$1 WHERE tenant=$2 AND id=$3` -/
  | setInserted (inserted : ℕ) (tenant id : String) : Stmt ℕ

/-- `CHECK(observations >= 0 AND observations <= 1000000)`. -/
def checkWindow (w : WindowRow) : Except TrafficErr Unit :=
  if 0 ≤ w.observations ∧ w.observations ≤ 1000000 then .ok () else .error .check

/-- The answer of a statement and the rows it writes. -/
def evalStmt (s : Traffic) : {β : Type} → Stmt β → Except TrafficErr (β × List Write)
  | _, .lockScope tenant => .ok ((), [.scope tenant])
  | _, .insertBatch tenant id fp =>
    let r : BatchRow := ⟨tenant, id, fp, 0⟩
    insertRow s.batches (fun x => x.pk = r.pk) r .unique (.ok ()) .batch
  | _, .selectBatch tenant id =>
    .ok ((s.batches.find? (tenant, id)).map fun r => (r.fingerprint, r.inserted), [])
  | _, .deleteWindows tenant =>
    let rows := s.windows.rows.filter fun w => w.tenant = tenant
    .ok (rows.length, rows.map fun w => .dropWindow w.pk)
  | _, .deleteOtherBatches tenant id =>
    let rows := s.batches.rows.filter fun r => r.tenant = tenant ∧ r.id ≠ id
    .ok (rows.length, rows.map fun r => .dropBatch r.pk)
  | _, .deleteBatches tenant =>
    let rows := s.batches.rows.filter fun r => r.tenant = tenant
    .ok (rows.length, rows.map fun r => .dropBatch r.pk)
  | _, .insertWindow w =>
    insertRow s.windows (fun x => x.pk = w.pk) w .unique (checkWindow w) .window
  | _, .selectObservations k => .ok ((s.windows.find? k).map (·.observations), [])
  | _, .setInserted inserted tenant id =>
    updateRow s.batches (tenant, id) (fun _ => true) (fun r => { r with inserted }) (fun _ => .ok ())
      .batch

/-- Write or delete one row. -/
def writeRow : Write → Traffic → Traffic
  | .scope tenant, s => { s with scopes := s.scopes.put tenant }
  | .batch b, s => { s with batches := s.batches.put b }
  | .window w, s => { s with windows := s.windows.put w }
  | .dropBatch k, s => { s with batches := s.batches.filter fun b => b.pk ≠ k }
  | .dropWindow k, s => { s with windows := s.windows.filter fun w => w.pk ≠ k }

/-- The keys a written row holds. -/
def lockKeys : Write → List Lock
  | .scope tenant => [.scope tenant]
  | .batch b => [.batch b.pk]
  | .window w => [.window w.pk]
  | .dropBatch k => [.batch k]
  | .dropWindow k => [.window k]

/-- **The engine of the foot-traffic store.** -/
def traffic : Engine Stmt Traffic Write Lock TrafficErr where
  eval st _ s := evalStmt s st
  write := writeRow
  keys := lockKeys

/-- A transaction of the foot-traffic store that answers an `α`. -/
abbrev Tx (α : Type) := Prog Stmt TrafficErr α

/-! ### Transactions -/

/-- The row of a window. -/
def windowRow (tenant feed : String) (w : Window) : WindowRow := ⟨tenant, feed, w.zone, w.start, w.count⟩

/-- The loop of `ingest`, `inserted` its counter, then `k`. -/
def insertWindows (tenant feed : String) (k : ℕ → Tx Result) : List Window → ℕ → Tx Result
  | [], inserted => k inserted
  | w :: ws, inserted =>
    .exec (.insertWindow (windowRow tenant feed w)) fun n =>
    if n = 0 then
      .exec (.selectObservations (tenant, feed, w.zone, w.start)) fun
        | none => .rollback (.error .noRows)
        | some count =>
          if count ≠ w.count then .rollback (.error .conflict)
          else insertWindows tenant feed k ws inserted
    else insertWindows tenant feed k ws (inserted + 1)

/-- Delete all of the sample but the ledger's row of the batch. -/
def clearSample (tenant id : String) (k : Tx Result) : Tx Result :=
  .exec (.deleteWindows tenant) fun _ => .exec (.deleteOtherBatches tenant id) fun _ => k

/-- `ingest` of a batch that is new in the ledger. -/
def ingestNew (tenant : String) (b : Batch) (replace : Bool) : Tx Result :=
  let load := insertWindows tenant b.source (fun inserted =>
    .exec (.setInserted inserted tenant b.id) fun _ => .commit ⟨b.id, inserted, false⟩) b.windows 0
  if replace then clearSample tenant b.id load else load

/-- `Ingest`, and with `replace` `ReplaceSample`. -/
def ingest (sha256 : String → String) (tenant : String) (b : Batch) (now : Int) (replace : Bool) :
    Tx Result :=
  if !valid tenant b now then .rollback (.error .invalid)
  else
    .exec (.lockScope tenant) fun _ =>
    .exec (.insertBatch tenant b.id (fingerprint sha256 b)) fun n =>
    if n = 0 then
      .exec (.selectBatch tenant b.id) fun
        | none => .rollback (.error .noRows)
        | some (previous, inserted) =>
          if previous ≠ fingerprint sha256 b then .rollback (.error .conflict)
          else .rollback (.ok ⟨b.id, inserted, true⟩)
    else ingestNew tenant (canonical b) replace

def emptySample (tenant : String) : Tx EmptyResult :=
  if !identity tenant then .rollback (.error .invalid)
  else
    .exec (.lockScope tenant) fun _ =>
    .exec (.deleteWindows tenant) fun windows =>
    .exec (.deleteBatches tenant) fun batches => .commit ⟨batches, windows⟩

end Afterglow.Foottraffic.Store
