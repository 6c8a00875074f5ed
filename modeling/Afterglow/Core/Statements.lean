import Afterglow.Core.Model
import Afterglow.Sql.Txn

/-! # The SQL statements of the settlement store

One constructor of `Stmt` per statement that `store.go` and `queue.go` execute, with its text; `core`
is the engine that answers them. A statement that changes a row writes the row as it is afterwards, also
where it sets a column to itself to take the row lock. A written row holds its primary key, and a
reservation and a delivery hold their second unique key too, until the transaction ends. -/

namespace Afterglow.Core.Statements

open Afterglow.Sql.Rows Afterglow.Sql.Txn Afterglow.Core.Model

/-- A row written. -/
inductive Write
  | campaign (c : CampaignRow)
  | screen (v : Screen)
  | reservation (r : ReservationRow)
  | delivery (d : DeliveryRow)
  | outbox (o : OutboxRow)
  | context (x : ContextRow)
  | audit (a : AuditRow)
  | quarantine (q : QuarantineRow)
  deriving DecidableEq

/-- The keys a transaction can hold: rows, and values of the unique columns. -/
inductive Lock
  | campaign (k : Key2)
  | screen (id : String)
  | reservation (k : Key2)
  | idemKey (k : Key2)
  | delivery (k : Key2)
  | eventID (k : Key2)
  | outbox (k : Key2)
  | context (k : Key2)
  | audit (id : String)
  | quarantine (id : String)
  deriving DecidableEq

/-- The statements, by the type of their answer. -/
inductive Stmt : Type → Type
  /-- `INSERT INTO campaigns(tenant,id,name,budget) ... ON CONFLICT DO NOTHING` -/
  | insertCampaign (tenant id name : String) (budget : Int) : Stmt ℕ
  /-- `INSERT INTO screens(id,name,market,format,lat,lng) ... ON CONFLICT DO NOTHING` -/
  | insertScreen (v : Screen) : Stmt ℕ
  /-- `UPDATE campaigns SET reserved=reserved WHERE tenant=$1 AND id=$2` -/
  | lockCampaign (tenant id : String) : Stmt ℕ
  /-- `SELECT fingerprint FROM reservations WHERE tenant=$1 AND idem_key=$2` -/
  | selectFingerprint (tenant key : String) : Stmt (Option String)
  /-- `SELECT reservationFields FROM reservations WHERE tenant=$1 AND idem_key=$2` -/
  | selectReservationByKey (tenant key : String) : Stmt (Option Reservation)
  /-- `SELECT id FROM screens WHERE id=$1` -/
  | selectScreen (id : String) : Stmt (Option String)
  /-- `UPDATE campaigns SET reserved=reserved+$1 WHERE tenant=$2 AND id=$3 AND
  budget-spent-reserved >= $1` -/
  | debitCampaign (cost : Int) (tenant id : String) : Stmt ℕ
  /-- `INSERT INTO reservations ... ON CONFLICT(tenant,idem_key) DO NOTHING` -/
  | insertReservation (r : ReservationRow) : Stmt ℕ
  /-- `INSERT INTO audit(id,tenant,kind,resource,detail,created) ...` -/
  | insertAudit (a : AuditRow) : Stmt ℕ
  /-- `INSERT INTO deliveries ... ON CONFLICT(tenant,event_id) DO NOTHING` -/
  | insertDelivery (d : DeliveryRow) : Stmt ℕ
  /-- `SELECT id,fingerprint FROM deliveries WHERE tenant=$1 AND event_id=$2` -/
  | selectDeliveryByEvent (tenant eventID : String) : Stmt (Option (String × String))
  /-- `INSERT INTO outbox(tenant,id) VALUES($1,$2)` -/
  | insertOutbox (tenant id : String) : Stmt ℕ
  /-- `INSERT INTO dispatch_context(tenant,id,carrier) VALUES($1,$2,$3)` -/
  | insertContext (x : ContextRow) : Stmt ℕ
  /-- `UPDATE deliveries SET attempts=attempts+1 WHERE tenant=$1 AND id=$2` -/
  | countAttempt (tenant id : String) : Stmt ℕ
  /-- `SELECT payload,status FROM deliveries WHERE tenant=$1 AND id=$2` -/
  | selectDelivery (tenant id : String) : Stmt (Option (Text Receipt × Status))
  /-- `UPDATE reservations SET state=state WHERE tenant=$1 AND id=$2` -/
  | lockReservation (tenant id : String) : Stmt ℕ
  /-- `SELECT reservationFields FROM reservations WHERE tenant=$1 AND id=$2` -/
  | selectReservation (tenant id : String) : Stmt (Option Reservation)
  /-- `UPDATE reservations SET state='settled' WHERE tenant=$1 AND id=$2` -/
  | settleReservation (tenant id : String) : Stmt ℕ
  /-- `UPDATE campaigns SET reserved=reserved-$1,spent=spent+$1 WHERE tenant=$2 AND id=$3` -/
  | chargeCampaign (cost : Int) (tenant id : String) : Stmt ℕ
  /-- `UPDATE deliveries SET status=$1,reason=$2 WHERE tenant=$3 AND id=$4` -/
  | decideDelivery (status : Status) (reason : Reason) (tenant id : String) : Stmt ℕ
  /-- `UPDATE reservations SET state='released' WHERE tenant=$1 AND id=$2 AND state='held' AND
  expires<$3` -/
  | releaseReservation (tenant id : String) (before : Int) : Stmt ℕ
  /-- `UPDATE campaigns SET reserved=reserved-$1 WHERE tenant=$2 AND id=$3` -/
  | refundCampaign (cost : Int) (tenant id : String) : Stmt ℕ
  /-- `SELECT tenant,id,attempts FROM outbox WHERE state IN ('pending','leased') AND next_at <= $1 AND
  lease_until <= $1 ORDER BY next_at,id LIMIT 1`, on PostgreSQL with `FOR UPDATE SKIP LOCKED` -/
  | selectDue (postgres : Bool) (now : Int) : Stmt (Option (String × String × ℕ))
  /-- `UPDATE outbox SET state='leased',owner=$1,lease_until=$2,attempts=attempts+1 WHERE tenant=$3 AND
  id=$4` -/
  | leaseOutbox (owner : String) (until_ : Int) (tenant id : String) : Stmt ℕ
  /-- `SELECT carrier FROM dispatch_context WHERE tenant=$1 AND id=$2` -/
  | selectCarrier (tenant id : String) : Stmt (Option (Text Trace))
  /-- `UPDATE outbox SET state='dispatched',owner='',lease_until=0 WHERE tenant=$1 AND id=$2 AND
  owner=$3 AND state='leased'` -/
  | markDispatched (tenant id owner : String) : Stmt ℕ
  /-- `UPDATE deliveries SET status=status WHERE tenant=$1 AND id=$2` -/
  | lockDelivery (tenant id : String) : Stmt ℕ
  /-- `SELECT status FROM deliveries WHERE tenant=$1 AND id=$2` -/
  | selectStatus (tenant id : String) : Stmt (Option Status)
  /-- `UPDATE outbox SET state='done',owner='',lease_until=0 WHERE tenant=$1 AND id=$2` -/
  | finishOutbox (tenant id : String) : Stmt ℕ
  /-- `UPDATE outbox SET state=$1,owner='',lease_until=0,next_at=$2 WHERE tenant=$3 AND id=$4 AND
  owner=$5 AND state='leased'` -/
  | failOutbox (state : Dispatch) (next : Int) (tenant id owner : String) : Stmt ℕ
  /-- `UPDATE deliveries SET status='failed',reason='dispatch_retries_exhausted' WHERE tenant=$1 AND
  id=$2 AND status='accepted'` -/
  | failDelivery (tenant id : String) : Stmt ℕ
  /-- `UPDATE deliveries SET status='accepted',reason='' WHERE tenant=$1 AND id=$2 AND status IN
  ('failed','quarantined')` -/
  | reopenDelivery (tenant id : String) : Stmt ℕ
  /-- `UPDATE outbox SET state='pending',owner='',lease_until=0,next_at=0,attempts=0 WHERE tenant=$1 AND
  id=$2` -/
  | requeueOutbox (tenant id : String) : Stmt ℕ
  /-- `INSERT INTO transport_quarantine(id,payload,reason,created) ... ON CONFLICT DO NOTHING` -/
  | insertQuarantine (postgres : Bool) (q : QuarantineRow) : Stmt ℕ

/-! ### What the statements answer and write -/

/-- No constraint beyond the keys. -/
def unchecked : Except Err Unit := .ok ()

/-- The foreign keys of a new reservation. -/
def ReservationRow.refs (s : Store) (r : ReservationRow) : Except Err Unit :=
  if !r.ok then .error (.storage (.check "reservations"))
  else if (s.screens.find? r.screen).isNone || (s.campaigns.find? (r.tenant, r.campaign)).isNone then
    .error (.storage (.foreignKey "reservations"))
  else .ok ()

/-- The foreign key of `outbox` and of `dispatch_context`. -/
def refsDelivery (s : Store) (table : String) (k : Key2) : Except Err Unit :=
  if (s.deliveries.find? k).isNone then .error (.storage (.foreignKey table)) else .ok ()

/-- The row of the unique key `(tenant, idem_key)`. -/
def byKey (s : Store) (tenant key : String) : Option ReservationRow :=
  s.reservations.rows.find? fun r => r.tenant = tenant ∧ r.idemKey = key

/-- The row of the unique key `(tenant, event_id)`. -/
def byEvent (s : Store) (tenant eventID : String) : Option DeliveryRow :=
  s.deliveries.rows.find? fun d => d.tenant = tenant ∧ d.eventID = eventID

/-- The intent may be claimed at `now`. -/
def OutboxRow.due (now : Int) (o : OutboxRow) : Bool :=
  (o.state == .pending || o.state == .leased) && o.nextAt ≤ now && o.leaseUntil ≤ now

/-- `ORDER BY next_at,id`: `a` comes before `b`. -/
def OutboxRow.before (a b : OutboxRow) : Bool :=
  a.nextAt < b.nextAt || (a.nextAt == b.nextAt && a.id < b.id)

/-- `LIMIT 1`: the first row in that order. -/
def firstDue (l : List OutboxRow) : Option OutboxRow :=
  l.foldl (fun m o => match m with
    | none => some o
    | some x => if OutboxRow.before o x then some o else some x) none

/-- The intents a claim can take: due, and on PostgreSQL not locked by another transaction. -/
def claimable (s : Store) (postgres : Bool) (locked : Lock → Bool) (now : Int) : List OutboxRow :=
  s.outbox.rows.filter fun o => OutboxRow.due now o && !(postgres && locked (.outbox o.pk))

/-- The answer of a statement and the rows it writes. -/
def evalStmt (locked : Lock → Bool) (s : Store) : {β : Type} → Stmt β → Except Err (β × List Write)
  | _, .insertCampaign tenant id name budget =>
    let c : CampaignRow := { tenant, id, name, budget, reserved := 0, spent := 0 }
    insertRow s.campaigns (fun x => x.pk = c.pk) c (.storage (.unique "campaigns")) c.check .campaign
  | _, .insertScreen v =>
    insertRow s.screens (fun x => x.id = v.id) v (.storage (.unique "screens")) unchecked .screen
  | _, .lockCampaign tenant id =>
    updateRow s.campaigns (tenant, id) (fun _ => true) (fun c => c) CampaignRow.check .campaign
  | _, .selectFingerprint tenant key => .ok ((byKey s tenant key).map (·.fingerprint), [])
  | _, .selectReservationByKey tenant key => .ok ((byKey s tenant key).map (·.toReservation), [])
  | _, .selectScreen id => .ok ((s.screens.find? id).map (·.id), [])
  | _, .debitCampaign cost tenant id =>
    updateRow s.campaigns (tenant, id) (fun c => cost ≤ c.budget - c.spent - c.reserved)
      (fun c => { c with reserved := c.reserved + cost }) CampaignRow.check .campaign
  | _, .insertReservation r =>
    insertRow s.reservations (fun x => x.tenant = r.tenant ∧ x.idemKey = r.idemKey) r
      (.storage (.unique "reservations")) (ReservationRow.refs s r) .reservation
  | _, .insertAudit a =>
    insertRow s.audit (fun _ => false) a (.storage (.unique "audit")) unchecked .audit
  | _, .insertDelivery d =>
    insertRow s.deliveries (fun x => x.tenant = d.tenant ∧ x.eventID = d.eventID) d
      (.storage (.unique "deliveries")) unchecked .delivery
  | _, .selectDeliveryByEvent tenant eventID =>
    .ok ((byEvent s tenant eventID).map fun d => (d.id, d.fingerprint), [])
  | _, .insertOutbox tenant id =>
    insertRow s.outbox (fun _ => false) ⟨tenant, id, .pending, "", 0, 0, 0⟩ (.storage (.unique "outbox"))
      (refsDelivery s "outbox" (tenant, id)) .outbox
  | _, .insertContext x =>
    insertRow s.context (fun _ => false) x (.storage (.unique "dispatch_context"))
      (refsDelivery s "dispatch_context" x.pk) .context
  | _, .countAttempt tenant id =>
    updateRow s.deliveries (tenant, id) (fun _ => true) (fun d => { d with attempts := d.attempts + 1 })
      (fun _ => unchecked) .delivery
  | _, .selectDelivery tenant id =>
    .ok ((s.deliveries.find? (tenant, id)).map fun d => (d.payload, d.status), [])
  | _, .lockReservation tenant id =>
    updateRow s.reservations (tenant, id) (fun _ => true) (fun r => r) ReservationRow.check .reservation
  | _, .selectReservation tenant id =>
    .ok ((s.reservations.find? (tenant, id)).map (·.toReservation), [])
  | _, .settleReservation tenant id =>
    updateRow s.reservations (tenant, id) (fun _ => true) (fun r => { r with state := .settled })
      ReservationRow.check .reservation
  | _, .chargeCampaign cost tenant id =>
    updateRow s.campaigns (tenant, id) (fun _ => true)
      (fun c => { c with reserved := c.reserved - cost, spent := c.spent + cost })
      CampaignRow.check .campaign
  | _, .decideDelivery status reason tenant id =>
    updateRow s.deliveries (tenant, id) (fun _ => true) (fun d => { d with status, reason })
      (fun _ => unchecked) .delivery
  | _, .releaseReservation tenant id before =>
    updateRow s.reservations (tenant, id) (fun r => r.state = .held ∧ r.expires < before)
      (fun r => { r with state := .released }) ReservationRow.check .reservation
  | _, .refundCampaign cost tenant id =>
    updateRow s.campaigns (tenant, id) (fun _ => true) (fun c => { c with reserved := c.reserved - cost })
      CampaignRow.check .campaign
  | _, .selectDue postgres now =>
    let o := firstDue (claimable s postgres locked now)
    .ok (o.map fun o => (o.tenant, o.id, o.attempts),
      if postgres then (o.map Write.outbox).toList else [])
  | _, .leaseOutbox owner until_ tenant id =>
    updateRow s.outbox (tenant, id) (fun _ => true)
      (fun o => { o with state := .leased, owner, leaseUntil := until_, attempts := o.attempts + 1 })
      (fun _ => unchecked) .outbox
  | _, .selectCarrier tenant id => .ok ((s.context.find? (tenant, id)).map (·.carrier), [])
  | _, .markDispatched tenant id owner =>
    updateRow s.outbox (tenant, id) (fun o => o.owner = owner ∧ o.state = .leased)
      (fun o => { o with state := .dispatched, owner := "", leaseUntil := 0 })
      (fun _ => unchecked) .outbox
  | _, .lockDelivery tenant id =>
    updateRow s.deliveries (tenant, id) (fun _ => true) (fun d => d) (fun _ => unchecked) .delivery
  | _, .selectStatus tenant id => .ok ((s.deliveries.find? (tenant, id)).map (·.status), [])
  | _, .finishOutbox tenant id =>
    updateRow s.outbox (tenant, id) (fun _ => true)
      (fun o => { o with state := .done, owner := "", leaseUntil := 0 }) (fun _ => unchecked) .outbox
  | _, .failOutbox state next tenant id owner =>
    updateRow s.outbox (tenant, id) (fun o => o.owner = owner ∧ o.state = .leased)
      (fun o => { o with state, owner := "", leaseUntil := 0, nextAt := next })
      (fun _ => unchecked) .outbox
  | _, .failDelivery tenant id =>
    updateRow s.deliveries (tenant, id) (fun d => d.status = .accepted)
      (fun d => { d with status := .failed, reason := .dispatchRetriesExhausted })
      (fun _ => unchecked) .delivery
  | _, .reopenDelivery tenant id =>
    updateRow s.deliveries (tenant, id) (fun d => d.status = .failed ∨ d.status = .quarantined)
      (fun d => { d with status := .accepted, reason := .none }) (fun _ => unchecked) .delivery
  | _, .requeueOutbox tenant id =>
    updateRow s.outbox (tenant, id) (fun _ => true)
      (fun o => { o with state := .pending, owner := "", leaseUntil := 0, nextAt := 0, attempts := 0 })
      (fun _ => unchecked) .outbox
  | _, .insertQuarantine postgres q =>
    if postgres && !(storable q.payload && storableText q.id) then .error (.storage .encoding)
    else
      insertRow s.quarantine (fun x => x.id = q.id) q (.storage (.unique "transport_quarantine"))
        unchecked .quarantine

/-- Write one row. -/
def writeRow : Write → Store → Store
  | .campaign c, s => { s with campaigns := s.campaigns.put c }
  | .screen v, s => { s with screens := s.screens.put v }
  | .reservation r, s => { s with reservations := s.reservations.put r }
  | .delivery d, s => { s with deliveries := s.deliveries.put d }
  | .outbox o, s => { s with outbox := s.outbox.put o }
  | .context x, s => { s with context := s.context.put x }
  | .audit a, s => { s with audit := s.audit.put a }
  | .quarantine q, s => { s with quarantine := s.quarantine.put q }

/-- The keys a written row holds. -/
def lockKeys : Write → List Lock
  | .campaign c => [.campaign c.pk]
  | .screen v => [.screen v.id]
  | .reservation r => [.reservation r.pk, .idemKey (r.tenant, r.idemKey)]
  | .delivery d => [.delivery d.pk, .eventID (d.tenant, d.eventID)]
  | .outbox o => [.outbox o.pk]
  | .context x => [.context x.pk]
  | .audit a => [.audit a.id]
  | .quarantine q => [.quarantine q.id]

/-- **The engine of the settlement store.** -/
def core : Engine Stmt Store Write Lock Err where
  eval st locked s := evalStmt locked s st
  write := writeRow
  keys := lockKeys

/-- A transaction of the settlement store that answers an `α`. -/
abbrev Tx (α : Type) := Prog Stmt Err α

end Afterglow.Core.Statements
