import Afterglow.Sql.Rows

/-! # The data model of the foot-traffic store

The records of `internal/foottraffic/store.go` and the rows of its three tables. A window is an hour of
one zone, its start in Unix milliseconds; the ledger of batches keeps, for each batch taken, its
fingerprint and the number of windows it added. -/

namespace Afterglow.Foottraffic.Model

open Afterglow.Sql.Rows

/-- The errors of the package, and those of the database. -/
inductive TrafficErr
  | invalid
  | conflict
  | check
  | unique
  | noRows
  | fault
  deriving DecidableEq, Repr

/-- `identity`: the pattern `^[a-zA-Z0-9_-]{1,100}$`. -/
def identity (s : String) : Bool :=
  1 ≤ s.length && s.length ≤ 100 && s.toList.all fun c => c.isAlphanum || c == '_' || c == '-'

/-- `Source`: the one feed that is accepted. -/
def source : String := "synthetic-partner-v1"

structure Zone where
  id : String
  name : String
  context : String
  deriving DecidableEq, Repr

def zones : List Zone :=
  [⟨"downtown", "Downtown corridor", "Synthetic street-level zone"⟩,
    ⟨"transit", "Transit concourse", "Synthetic transit zone"⟩,
    ⟨"retail", "Retail district", "Synthetic retail zone"⟩,
    ⟨"neighborhood", "Neighborhood plaza", "Synthetic low-volume zone"⟩]

structure Window where
  zone : String
  start : Int
  count : Int
  deriving DecidableEq, Repr

structure Batch where
  id : String
  source : String
  windows : List Window
  deriving DecidableEq, Repr

structure Result where
  id : String
  inserted : ℕ
  replayed : Bool
  deriving DecidableEq, Repr

structure EmptyResult where
  batches : ℕ
  windows : ℕ
  deriving DecidableEq, Repr

/-! ### The report -/

/-- The status of a cell of the report. -/
inductive Status
  | missing
  | suppressed
  | reported
  deriving DecidableEq, Repr

/-- A zone and an hour of the report; the count is there where it is reported. -/
structure Cell where
  start : Int
  status : Status
  count : Option Int
  deriving DecidableEq, Repr

structure ZoneReport where
  zone : Zone
  current : List Cell
  previous : List Cell
  published : Int
  comparable : ℕ
  change : Option ℚ
  deriving DecidableEq, Repr

structure Report where
  source : String
  synthetic : Bool
  asOf : Int
  windowStart : Int
  windowEnd : Int
  minimum : Int
  published : Int
  suppressed : ℕ
  missing : ℕ
  released : ℕ
  zones : List ZoneReport
  scope : String
  deriving DecidableEq, Repr

/-! ### Rows -/

/-- A row of `traffic_windows_v1`. -/
structure WindowRow where
  tenant : String
  source : String
  zone : String
  start : Int
  observations : Int
  deriving DecidableEq, Repr

/-- A row of `traffic_batches_v1`. -/
structure BatchRow where
  tenant : String
  id : String
  fingerprint : String
  inserted : ℕ
  deriving DecidableEq, Repr

def WindowRow.pk (w : WindowRow) : String × String × String × Int :=
  (w.tenant, w.source, w.zone, w.start)

def BatchRow.pk (b : BatchRow) : String × String := (b.tenant, b.id)

/-- The three tables. A row of `traffic_scopes_v1` is a tenant. -/
structure Traffic where
  scopes : Table (fun tenant : String => tenant)
  batches : Table BatchRow.pk
  windows : Table WindowRow.pk
  deriving DecidableEq

/-- The tables as `Migrate` leaves them. -/
def Traffic.empty : Traffic := ⟨.empty, .empty, .empty⟩

end Afterglow.Foottraffic.Model
