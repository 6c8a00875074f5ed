import Afterglow.Airports.Parse
import Afterglow.Encoding.Utf8

/-! # The airport catalog

`New`, `Refresh` and `persist` of `internal/airports/catalog.go`, with the directory of the cache file.
What the source answers and what fails on the way is an argument of a refresh (`Attempt`). Encoding and
decoding a snapshot with `encoding/json` are arguments as well, with what is assumed of them: decoding
gives the snapshot back with the replacement character for every byte that is not UTF-8. A rename is
atomic, and `CreateTemp` never takes the name of the cache file. -/

namespace Afterglow.Airports.Service

open Afterglow.Airports.Parse Afterglow.Encoding.Utf8

/-! ### Snapshots -/

structure Snapshot where
  airports : List Airport
  fetchedAt : Int
  sourceModified : Text
  sha256 : Text
  deriving DecidableEq

/-- The snapshot of a catalog that has loaded nothing; the time is Go's zero time, in Unix nanoseconds. -/
def Snapshot.zero : Snapshot := ⟨[], -62135596800000000000, [], []⟩

/-- The strings of a record, made valid. -/
def replacedAirport (a : Airport) : Airport :=
  { a with
    ident := toValid 0 a.ident
    iata := toValid 0 a.iata
    name := toValid 0 a.name
    city := toValid 0 a.city
    region := toValid 0 a.region
    country := toValid 0 a.country
    type := toValid 0 a.type }

/-- The strings of a snapshot, made valid. -/
def Snapshot.replaced (s : Snapshot) : Snapshot :=
  { s with
    airports := s.airports.map replacedAirport
    sourceModified := toValid 0 s.sourceModified
    sha256 := toValid 0 s.sha256 }

/-- JSON has no notation for the other numbers. -/
def isFinite : Float64 → Bool
  | .finite _ => true
  | _ => false

def Snapshot.finite (s : Snapshot) : Bool := s.airports.all fun a => isFinite a.lat && isFinite a.lng

/-- `encoding/json` on snapshots, and the contents of files. -/
structure Json (File : Type) where
  encode : Snapshot → Option File
  decode : File → Option Snapshot
  roundTrip : ∀ s, s.finite = true → ∃ f, encode s = some f ∧ decode f = some s.replaced

/-- The other packages a catalog uses. -/
structure Env (File : Type) where
  json : Json File
  csv : Text → Option Csv
  parseFloat : Text → Option Float64
  sort : List Airport → List Airport
  sum : Text → Vector Byte 32

/-! ### The directory -/

/-- The cache file, and the names `airports-*.tmp`. -/
inductive Name
  | cache
  | temp (random : String)
  deriving DecidableEq

abbrev Files (File : Type) := Name → Option File

/-- What the steps of `persist` meet: `false` where one fails. The content of a temporary file that was
not written to its end is arbitrary. -/
structure Disk (File : Type) where
  mkdirAll : Bool
  createTemp : Option String
  unfinished : File
  write : Bool
  sync : Bool
  close : Bool
  rename : Bool
  remove : Bool

variable {File : Type}

/-- The steps of `persist` once the temporary file is there, and whether they succeed. -/
def writeTemp (json : Json File) (data : Snapshot) (disk : Disk File) (tmp : Name) (files : Files File) :
    Bool × Files File :=
  match json.encode data with
  | none => (false, files)
  | some f =>
    if !disk.write then (false, files)
    else
      let files := Function.update files tmp (some f)
      if !disk.sync then (false, files)
      else if !disk.close then (false, files)
      else if !disk.rename then (false, files)
      else (true, Function.update (Function.update files .cache (some f)) tmp none)

/-- `persist`: whether it succeeds, and the files after it. The temporary file is removed at the end,
unless that fails. -/
def persist (json : Json File) (data : Snapshot) (disk : Disk File) (files : Files File) :
    Bool × Files File :=
  if !disk.mkdirAll then (false, files)
  else
    match disk.createTemp with
    | none => (false, files)
    | some random =>
      let x := writeTemp json data disk (.temp random)
        (Function.update files (.temp random) (some disk.unfinished))
      (x.1, if disk.remove then Function.update x.2 (.temp random) none else x.2)

/-! ### Refreshing -/

/-- What the source answers; the body is not `complete` where reading it fails. -/
structure Reply where
  status : ℕ
  body : Text
  complete : Bool
  lastModified : Text

/-- What one refresh meets: without `request` the request could not be made, without a reply sending it
failed. -/
structure Attempt (File : Type) where
  request : Bool
  reply : Option Reply
  now : Int
  disk : Disk File

inductive RefreshErr
  | request
  | send
  | status (code : ℕ)
  | read
  | tooLarge
  | parse (e : ParseErr)
  | tooFew
  | persist
  deriving DecidableEq

/-- `maxDownload`. -/
def maxDownload : ℕ := 33554432

/-- A hexadecimal digit, in lower case. -/
def hexDigit (n : ℕ) : Byte := Fin.ofNat 256 (if n < 10 then 48 + n else 87 + n)

/-- `hex.EncodeToString`. -/
def hexText (bytes : List Byte) : Text :=
  bytes.flatMap fun b => [hexDigit (b.val / 16), hexDigit (b.val % 16)]

/-- `Refresh` before `persist`: the snapshot that is next. -/
def fetch (env : Env File) (a : Attempt File) : Except RefreshErr Snapshot :=
  if !a.request then .error .request
  else
    match a.reply with
    | none => .error .send
    | some reply =>
      if reply.status ≠ 200 then .error (.status reply.status)
      else if !reply.complete then .error .read
      else
        let b := reply.body.take (maxDownload + 1)
        if maxDownload < b.length then .error .tooLarge
        else
          match parse env.parseFloat env.sort (env.csv b) with
          | .error e => .error (.parse e)
          | .ok airports =>
            if airports.length < 100 then .error .tooFew
            else .ok ⟨airports, a.now, reply.lastModified, hexText (env.sum b).toList⟩

structure Catalog where
  snapshot : Snapshot
  lastErr : String
  deriving DecidableEq

def warning : String := "Source refresh failed; retaining last successful snapshot"

/-- `Refresh`. -/
def refresh (env : Env File) (a : Attempt File) (c : Catalog) (files : Files File) :
    Except RefreshErr Unit × Catalog × Files File :=
  match fetch env a with
  | .error e => (.error e, { c with lastErr := warning }, files)
  | .ok next =>
    match persist env.json next a.disk files with
    | (false, files) => (.error .persist, { c with lastErr := warning }, files)
    | (true, files) => (.ok (), ⟨next, ""⟩, files)

inductive NewErr
  | decode
  | validate (e : ParseErr)
  deriving DecidableEq

/-- `New`. -/
def new (env : Env File) (files : Files File) : Except NewErr Catalog :=
  match files .cache with
  | none => .ok ⟨.zero, ""⟩
  | some f =>
    match env.json.decode f with
    | none => .error .decode
    | some s =>
      match validate [] s.airports with
      | .error e => .error (.validate e)
      | .ok () => .ok ⟨s, ""⟩

/-! ### Runs -/

/-- The process and the directory it runs in; a process that `New` did not start serves nothing. -/
structure Sys (File : Type) where
  process : Except NewErr Catalog
  files : Files File

inductive Event (File : Type)
  | refresh (a : Attempt File)
  | restart

/-- One call, or a restart. -/
def Event.step (env : Env File) (s : Sys File) : Event File → Sys File
  | .refresh a =>
    match s.process with
    | .error e => ⟨.error e, s.files⟩
    | .ok c =>
      let x := Service.refresh env a c s.files
      ⟨.ok x.2.1, x.2.2⟩
  | .restart => ⟨new env s.files, s.files⟩

def run (env : Env File) (es : List (Event File)) (s : Sys File) : Sys File := es.foldl (Event.step env) s

end Afterglow.Airports.Service
