import Afterglow.Core.Store
import Afterglow.Sql.Select

/-! # The reports of a tenant

`Snapshot` of `store.go`, `Evidence` of `evidence.go` and `Assurance` of `assurance.go`. Each reads in one
read-only transaction, on PostgreSQL with `REPEATABLE READ`, so all its queries see one state of the
store and a report is a function of that state. On a failure the Go code returns what it has filled in
so far beside the error and no caller looks at it: here the report is the error.

A query without an `ORDER BY` may answer in any order; the model reads a tenant's rows by their
identifier then. A Go map from statuses to counts is a function, zero where the map has no entry: an
entry, once made, counts something. -/

namespace Afterglow.Core.Reports

open Afterglow.Sql.Rows Afterglow.Sql.Select Afterglow.Core.Model

/-! ### The rows of a tenant -/

def campaignsOf (s : Store) (tenant : String) : List CampaignRow :=
  select s.campaigns (fun c => c.tenant = tenant) (·.id)

def reservationsOf (s : Store) (tenant : String) : List ReservationRow :=
  select s.reservations (fun r => r.tenant = tenant) (·.id)

def deliveriesOf (s : Store) (tenant : String) : List DeliveryRow :=
  select s.deliveries (fun d => d.tenant = tenant) (·.id)

def auditOf (s : Store) (tenant : String) : List AuditRow :=
  select s.audit (fun a => a.tenant = tenant) (·.id)

/-- The screens are no tenant's. -/
def screensOf (s : Store) : List Screen := select s.screens (fun _ => true) (·.id)

/-- `ORDER BY created DESC,id`. -/
def recent (created : Int) (id : String) : Intᵒᵈ ×ₗ String := toLex (OrderDual.toDual created, id)

/-- A `map[string]int64` from statuses. -/
abbrev Counts := Status → ℕ

def Counts.none : Counts := fun _ => 0

/-! ### Snapshot -/

structure Delivery where
  id : String
  receipt : Receipt
  status : Status
  reason : Reason
  created : Int
  attempts : ℕ
  deriving DecidableEq, Repr

structure Audit where
  id : String
  kind : Kind
  resource : String
  detail : String
  created : Int
  deriving DecidableEq, Repr

structure Snapshot where
  campaigns : List Campaign
  screens : List Screen
  reservations : List Reservation
  deliveries : List Delivery
  audit : List Audit
  counts : Counts
  oldestPendingMS : Int
  now : Int

/-- Scan a delivery and decode its payload. -/
def scanDelivery (d : DeliveryRow) : Except Err Delivery :=
  match d.payload.unmarshal with
  | none => .error (.storage .decode)
  | some p => .ok ⟨d.id, p, d.status, d.reason, d.created, d.attempts⟩

def scanAudit (a : AuditRow) : Audit := ⟨a.id, a.kind, a.resource, a.detail, a.created⟩

/-- `SELECT status,COUNT(*) FROM deliveries WHERE tenant=$1 GROUP BY status`, each into the map. -/
def countStatuses (ds : List DeliveryRow) : Counts :=
  (groupCount (ds.map (·.status))).foldl (fun m g => Function.update m g.1 g.2) Counts.none

/-- The age of the oldest of the accepted deliveries; zero if there is none. -/
def oldestPending (ds : List DeliveryRow) (now : Int) : Int :=
  match ((ds.filter fun d => d.status = .accepted).map (·.created)).min? with
  | none => 0
  | some oldest => now - oldest

def snapshot (s : Store) (tenant : String) (now : Int) : Except Err Snapshot := do
  let ds := deliveriesOf s tenant
  let deliveries ← ((orderBy (fun d => recent d.created d.id) ds).take 100).mapM scanDelivery
  return {
    campaigns := (campaignsOf s tenant).map (·.toCampaign)
    screens := screensOf s
    reservations :=
      ((orderBy (fun r => recent r.created r.id) (reservationsOf s tenant)).take 100).map
        (·.toReservation)
    deliveries
    audit := ((orderBy (fun a => recent a.created a.id) (auditOf s tenant)).take 80).map scanAudit
    counts := countStatuses ds
    oldestPendingMS := oldestPending ds now
    now }

/-! ### Evidence -/

structure DeliveryEvidence where
  delivery : Delivery
  reservation : Option Reservation
  outboxState : Dispatch
  dispatchAttempts : ℕ
  observedAt : Int
  deriving DecidableEq, Repr

def evidence (s : Store) (tenant id : String) (now : Int) : Except Err DeliveryEvidence :=
  if !validID id then .error (.invalid "invalid_delivery_id")
  else
    -- `deliveries d JOIN outbox o ON o.tenant=d.tenant AND o.id=d.id`
    match s.deliveries.find? (tenant, id), s.outbox.find? (tenant, id) with
    | some d, some o => do
      let delivery ← scanDelivery d
      let r := s.reservations.find? (tenant, delivery.receipt.reservationID)
      return ⟨delivery, r.map (·.toReservation), o.state, o.attempts, now⟩
    | _, _ => .error .notFound

/-! ### Assurance -/

structure ScreenAssurance where
  screenID : String
  name : String
  market : String
  format : String
  reservedPlays : ℕ
  settledPlays : ℕ
  releasedPlays : ℕ
  heldMicros : Int
  settledMicros : Int
  awaitingEvidence : ℕ
  decisions : Counts

structure CampaignAssurance where
  campaign : Campaign
  screens : List ScreenAssurance
  observedAt : Int
  scope : String
  budgetConsistent : Bool
  settledPlays : ℕ
  heldPlays : ℕ
  awaitingEvidence : ℕ
  decisions : Counts

def scopeText : String :=
  "All retained campaign reservations and linked receipts. " ++
    "Operational playback evidence, not audience measurement. " ++
    "Unknown-reservation receipts cannot be attributed to a campaign."

/-- `SUM(CASE WHEN r.state='...' THEN r.cost ELSE 0 END)`. -/
def sumCost (rs : List ReservationRow) (state : Hold) : Int :=
  ((rs.filter fun r => r.state = state).map (·.cost)).sum

/-- One group of `reservations r JOIN screens s ON s.id=r.screen`, `rs` the reservations of the
campaign. A sum that no `BIGINT` holds is an error. -/
def screenRow (now : Int) (rs : List ReservationRow) (v : Screen) : Except Err ScreenAssurance :=
  let rs := rs.filter fun r => r.screen = v.id
  if !(int64 (sumCost rs .held) && int64 (sumCost rs .settled)) then .error (.storage .overflow)
  else .ok {
    screenID := v.id
    name := v.name
    market := v.market
    format := v.format
    reservedPlays := rs.countP fun r => r.state = .held
    settledPlays := rs.countP fun r => r.state = .settled
    releasedPlays := rs.countP fun r => r.state = .released
    heldMicros := sumCost rs .held
    settledMicros := sumCost rs .settled
    awaitingEvidence := rs.countP fun r => r.state = .held ∧ r.expires < now
    decisions := Counts.none }

/-- The groups of the first query, `ORDER BY s.market,s.id`. -/
def screenRows (s : Store) (rs : List ReservationRow) (now : Int) : Except Err (List ScreenAssurance) :=
  (orderBy (fun v => toLex (v.market, v.id))
    ((screensOf s).filter fun v => rs.any fun r => r.screen = v.id)).mapM (screenRow now rs)

/-- `deliveries d JOIN reservations r ON r.tenant=d.tenant AND r.id=` the payload's `reservation_id`,
`WHERE r.campaign=$2`: the screen and the status. -/
def link (s : Store) (campaignID : String) (d : DeliveryRow) : Except Err (Option (String × Status)) :=
  match d.payload with
  | .other _ => .error (.storage .decode)
  | .json p =>
    let r := (s.reservations.find? (d.tenant, p.reservationID)).filter fun r => r.campaign = campaignID
    .ok (r.map fun r => (r.screen, d.status))

/-- The rows of the second query before they are grouped. -/
def linked (s : Store) (tenant campaignID : String) : Except Err (List (String × Status)) := do
  let links ← (deliveriesOf s tenant).mapM (link s campaignID)
  return links.reduceOption

/-- Addition of Go's `int64`. -/
def add64 (x y : Int) : Int := Int.bmod (x + y) (2 ^ 64)

/-- The first loop: append the row and add its numbers up. `held` and `spent` are the loop's own. -/
structure Loop where
  out : CampaignAssurance
  held : Int
  spent : Int

def addScreen (l : Loop) (v : ScreenAssurance) : Loop where
  out := { l.out with
    screens := l.out.screens ++ [v]
    settledPlays := l.out.settledPlays + v.settledPlays
    heldPlays := l.out.heldPlays + v.reservedPlays
    awaitingEvidence := l.out.awaitingEvidence + v.awaitingEvidence }
  held := add64 l.held v.heldMicros
  spent := add64 l.spent v.settledMicros

/-- The second loop: one group `(screen, status), n`. -/
def addDecision (out : CampaignAssurance) (g : (String × Status) × ℕ) : CampaignAssurance :=
  { out with
    screens := out.screens.map fun v =>
      if v.screenID = g.1.1 then { v with decisions := Function.update v.decisions g.1.2 g.2 } else v
    decisions := Function.update out.decisions g.1.2 (out.decisions g.1.2 + g.2) }

def assurance (s : Store) (tenant campaignID : String) (now : Int) : Except Err CampaignAssurance :=
  if !validID campaignID then .error (.invalid "invalid_campaign_id")
  else
    match s.campaigns.find? (tenant, campaignID) with
    | none => .error .notFound
    | some c => do
      let rows ← screenRows s ((reservationsOf s tenant).filter fun r => r.campaign = campaignID) now
      let l := rows.foldl addScreen
        ⟨⟨c.toCampaign, [], now, scopeText, false, 0, 0, 0, Counts.none⟩, 0, 0⟩
      let links ← linked s tenant campaignID
      let out := (groupCount links).foldl addDecision l.out
      return { out with
        budgetConsistent :=
          l.held = c.reserved ∧ l.spent = c.spent ∧ add64 l.held l.spent ≤ c.budget }

/-! ### Queries -/

/-- A report asked for, with what it draws from the clock. -/
inductive Query
  | snapshot (now : Int)
  | evidence (id : String) (now : Int)
  | assurance (campaignID : String) (now : Int)

def Query.Ans : Query → Type
  | .snapshot .. => Snapshot
  | .evidence .. => DeliveryEvidence
  | .assurance .. => CampaignAssurance

/-- What the tenant is answered; `fault` says that the database fails during the transaction. -/
def Query.exec (tenant : String) (q : Query) (fault : Bool) (s : Store) : Except Err q.Ans :=
  if fault then .error (.storage .fault)
  else match q with
    | .snapshot now => Reports.snapshot s tenant now
    | .evidence id now => Reports.evidence s tenant id now
    | .assurance campaignID now => Reports.assurance s tenant campaignID now

end Afterglow.Core.Reports
