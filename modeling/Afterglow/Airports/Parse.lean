import Mathlib.Data.List.Lex
import Mathlib.Data.Rat.Defs
import Mathlib.Algebra.Order.Field.Rat
import Mathlib.Algebra.Order.Group.Unbundled.Abs
import Mathlib.Order.Fin.Basic

/-! # Reading the airport source

`parse` and `validate` of `internal/airports/catalog.go`. A string of Go is its bytes. What
`encoding/csv` makes of the text is an argument: a header and, record by record, what each later call of
`Read` returns, where a record has as many fields as the header. `strconv.ParseFloat` is an argument too.
A field that is asked for beyond the end of a record is the error `outOfRange`, where the source would
panic. -/

namespace Afterglow.Airports.Parse

/-! ### Data -/

abbrev Byte := Fin 256

/-- A string of Go. -/
abbrev Text := List Byte

/-- The bytes of a literal. -/
def text (s : String) : Text := s.toByteArray.toList.map fun b => b.toFin

/-- A `float64`, by its value. -/
inductive Float64
  | nan
  | inf (negative : Bool)
  | finite (x : ℚ)
  deriving DecidableEq

structure Airport where
  ident : Text
  iata : Text
  name : Text
  city : Text
  region : Text
  country : Text
  type : Text
  lat : Float64
  lng : Float64
  deriving DecidableEq

/-- What `parse` can fail with. -/
inductive ParseErr
  | csv
  | missingColumn (name : Text)
  | number
  | record
  | outOfRange
  deriving DecidableEq

abbrev Record := List Text

/-- What `encoding/csv` reads of a text that has a header; a record that is none ends in an error. -/
structure Csv where
  header : Record
  rows : List (Option Record)
  width : ∀ row, some row ∈ rows → row.length = header.length

/-! ### Columns -/

/-- `cols`: the column of a name. -/
abbrev Columns := Text → Option ℕ

/-- `cols[k] = i` for each name of the header in turn. -/
def columns (header : Record) : Columns :=
  header.zipIdx.foldl (fun m p => Function.update m p.1 (some p.2)) fun _ => none

/-- The columns that have to be there. -/
def required : List Text :=
  [text "ident", text "iata_code", text "name", text "municipality", text "iso_region",
    text "iso_country", text "type", text "latitude_deg", text "longitude_deg",
    text "scheduled_service"]

/-- `row[cols[k]]`; a name that is not in the map has column zero. -/
def get (cols : Columns) (row : Record) (k : Text) : Except ParseErr Text :=
  match row[(cols k).getD 0]? with
  | none => .error .outOfRange
  | some v => .ok v

/-! ### Records -/

def usCountry (s : Text) : Bool :=
  [text "US", text "PR", text "VI", text "GU", text "AS", text "MP", text "UM"].any (s = ·)

/-- The error of `strconv.ParseFloat`. -/
def number (parsed : Option Float64) : Except ParseErr Float64 :=
  match parsed with
  | none => .error .number
  | some x => .ok x

/-- The body of the loop: the airport of a row, unless the row is skipped. -/
def readRow (parseFloat : Text → Option Float64) (cols : Columns) (row : Record) :
    Except ParseErr (Option Airport) := do
  let country ← get cols row (text "iso_country")
  if !usCountry country then return none
  if (← get cols row (text "scheduled_service")) ≠ text "yes" then return none
  if (text "closed").isPrefixOf (← get cols row (text "type")) then return none
  let lat ← number (parseFloat (← get cols row (text "latitude_deg")))
  let lng ← number (parseFloat (← get cols row (text "longitude_deg")))
  let ident ← get cols row (text "ident")
  let iata ← get cols row (text "iata_code")
  let name ← get cols row (text "name")
  let city ← get cols row (text "municipality")
  let region ← get cols row (text "iso_region")
  let type ← get cols row (text "type")
  return some ⟨ident, iata, name, city, region, country, type, lat, lng⟩

/-- The loop over the records; `out` is what was read so far. -/
def readRows (parseFloat : Text → Option Float64) (cols : Columns) :
    List (Option Record) → List Airport → Except ParseErr (List Airport)
  | [], out => .ok out
  | none :: _, _ => .error .csv
  | some row :: rows, out =>
    match readRow parseFloat cols row with
    | .error e => .error e
    | .ok none => readRows parseFloat cols rows out
    | .ok (some a) => readRows parseFloat cols rows (out ++ [a])

/-! ### Validation -/

/-- `math.IsNaN(x) || math.IsInf(x, 0) || math.Abs(x) > bound`. -/
def Float64.outside (bound : ℚ) : Float64 → Bool
  | .nan => true
  | .inf _ => true
  | .finite x => bound < |x|

/-- The loop of `validate`; `seen` holds the identifiers before. -/
def validate : List Text → List Airport → Except ParseErr Unit
  | _, [] => .ok ()
  | seen, v :: vs =>
    if v.ident = [] || v.name = [] || v.ident ∈ seen || !usCountry v.country || v.lat.outside 90 ||
        v.lng.outside 180 then .error .record
    else validate (v.ident :: seen) vs

/-! ### The source -/

/-- The comparator of the sort: identifiers byte by byte. -/
def less (a b : Airport) : Bool := a.ident < b.ident

/-- `parse`; without a header, the first `Read` failed. -/
def parse (parseFloat : Text → Option Float64) (sort : List Airport → List Airport)
    (input : Option Csv) : Except ParseErr (List Airport) :=
  match input with
  | none => .error .csv
  | some csv => do
    match required.find? fun k => (columns csv.header k).isNone with
    | some k => .error (.missingColumn k)
    | none =>
      let out ← readRows parseFloat (columns csv.header) csv.rows []
      let _ ← validate [] out
      return sort out

end Afterglow.Airports.Parse
