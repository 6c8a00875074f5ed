import Afterglow.Foottraffic.Store

/-! # The sample feeds

`Example` of `internal/foottraffic/store.go` and the scenarios of `internal/foottraffic/examples.go`. A
sample holds, for each zone, the six hours before `now` and the same hours a day earlier; a scenario
counts them again, or leaves some out. SHA-256 is an arbitrary function to 32 bytes, of which the feeds
use the first; the bytes a random sample draws are an argument. -/

namespace Afterglow.Foottraffic.Examples

open Afterglow.Foottraffic.Model Afterglow.Foottraffic.Store

/-! ### Hashes -/

/-- `sha256.Sum256` of a text. -/
abbrev Sum := String → Vector UInt8 32

/-- `fmt.Sprintf("%x", ..)` and `hex.EncodeToString`. -/
def hexText (bytes : List UInt8) : String :=
  String.ofList (bytes.flatMap fun b => [Nat.digitChar (b.toNat / 16), Nat.digitChar (b.toNat % 16)])

/-- The hash in the form the fingerprints have. -/
def Sum.text (sum : Sum) (s : String) : String := hexText (sum s).toList

/-- `hash[0]`. -/
def Sum.first (sum : Sum) (s : String) : ℕ := ((sum s)[0]).toNat

/-! ### The baseline -/

/-- The count of zone number `i` in the hour that begins at `t`. -/
def exampleCount (sum : Sum) (i : ℕ) (zone : String) (t : Int) : Int :=
  let hash := sum.first (zone ++ "-" ++ toString (t / 1000))
  if zone = "neighborhood" then 6 + (hash % 25 : ℕ) else 35 + i * 18 + (hash % 95 : ℕ)

/-- `Example`. -/
def exampleBatch (sum : Sum) (now : Int) : Batch where
  id := "sample-" ++ toString (endOf now / 1000)
  source := source
  windows :=
    (List.range 2).flatMap fun day => (List.range' 1 6).flatMap fun h =>
      let t := endOf now - (h + day * 24 : ℕ) * hour
      zones.zipIdx.map fun (z, i) => ⟨z.id, t, exampleCount sum i z.id t⟩

/-! ### Scenarios -/

inductive Scenario
  | baseline
  | busy
  | gaps
  | quiet
  | commuter
  | retail
  | threshold
  | interruption
  | random
  deriving DecidableEq, Repr

def Scenario.id : Scenario → String
  | .baseline => "baseline"
  | .busy => "busy"
  | .gaps => "gaps"
  | .quiet => "quiet"
  | .commuter => "commuter"
  | .retail => "retail"
  | .threshold => "threshold"
  | .interruption => "interruption"
  | .random => "random"

/-- `validScenario`: the scenario a text names, if it names one. -/
def validScenario : String → Option Scenario
  | "baseline" => some .baseline
  | "busy" => some .busy
  | "gaps" => some .gaps
  | "quiet" => some .quiet
  | "commuter" => some .commuter
  | "retail" => some .retail
  | "threshold" => some .threshold
  | "interruption" => some .interruption
  | "random" => some .random
  | _ => none

/-- `scenarioTenant`: the namespace of a scenario. -/
def scenarioTenant (sum : Sum) (tenant : String) (scenario : Scenario) : String :=
  if scenario = .baseline then tenant
  else "traffic-sample-" ++ sum.text (tenant ++ "\x00" ++ scenario.id)

/-- `w.Start / 3600000`. -/
def hourNumber (w : Window) : Int := w.start.tdiv 3600000

/-- `time.UnixMilli(w.Start).UTC().Hour()`. -/
def hourOfDay (w : Window) : Int := w.start / 3600000 % 24

/-- The `switch` over the scenario: the window as it is kept, unless it is left out. -/
def recount (sum : Sum) (scenario : Scenario) (w : Window) : Option Window :=
  let hash : Int := sum.first (scenario.id ++ "-" ++ w.zone ++ "-" ++ toString w.start)
  match scenario with
  | .busy => some { w with count := 600 + hash * 4 }
  | .gaps =>
    if w.zone = "transit" ∨ (w.zone = "retail" ∧ (hourNumber w).tmod 2 = 0) then none else some w
  | .quiet =>
    if w.zone = "downtown" then some { w with count := 20 + hash.tmod 15 }
    else some { w with count := 3 + hash.tmod 17 }
  | .commuter =>
    if w.zone = "transit" then
      if (7 ≤ hourOfDay w ∧ hourOfDay w ≤ 9) ∨ (16 ≤ hourOfDay w ∧ hourOfDay w ≤ 18) then
        some { w with count := (150 + hash) * 4 }
      else some { w with count := 150 + hash }
    else some { w with count := 50 + hash.tmod 100 }
  | .retail =>
    if w.zone = "retail" then some { w with count := 350 + hash * 3 }
    else some { w with count := 35 + hash.tmod 90 }
  | .threshold => some { w with count := 19 + (hourNumber w + w.zone.utf8ByteSize).tmod 2 }
  | .interruption => if (hourNumber w).tmod 6 < 2 then none else some w
  | .baseline | .random => some w

/-! ### The random sample -/

/-- What `rand.Read` fills. -/
abbrev Entropy := Vector UInt8 112

/-- `binary.LittleEndian.Uint16(entropy[16+i*2:])`, where `i` is less than 48. -/
def Entropy.word (entropy : Entropy) (i : ℕ) : ℕ :=
  (entropy.toList.getD (16 + i * 2) 0).toNat + 256 * (entropy.toList.getD (16 + i * 2 + 1) 0).toNat

/-- The window number `i` of a random sample, unless it is left out. -/
def randomWindow (entropy : Entropy) (w : Window) (i : ℕ) : Option Window :=
  let n := entropy.word i
  let kind := if i = 0 then 5 else if i = 1 then 1 else if i = 2 then 0 else n % 10
  if kind = 0 then none
  else if kind < 3 then some { w with count := (2 + n % 18 : ℕ) }
  else some { w with count := (20 + n % 981 : ℕ) }

/-- `randomExample`; without entropy, `rand.Read` failed. -/
def randomExample (sum : Sum) (entropy : Option Entropy) (now : Int) : Except TrafficErr Batch :=
  match entropy with
  | none => .error .fault
  | some entropy =>
    .ok { exampleBatch sum now with
      id := "random-" ++ hexText (entropy.toList.take 16)
      windows := (exampleBatch sum now).windows.zipIdx.filterMap fun (w, i) => randomWindow entropy w i }

/-- `ExampleForScenario`. -/
def exampleForScenario (sum : Sum) (entropy : Option Entropy) (now : Int) (id : String) :
    Except TrafficErr Batch :=
  match validScenario id with
  | none => .error .invalid
  | some .random => randomExample sum entropy now
  | some .baseline => .ok (exampleBatch sum now)
  | some scenario =>
    .ok { exampleBatch sum now with
      id := "sample-" ++ id ++ "-" ++ toString (endOf now / 1000)
      windows := (exampleBatch sum now).windows.filterMap (recount sum scenario) }

end Afterglow.Foottraffic.Examples
