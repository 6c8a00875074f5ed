import Afterglow.Core.Statements

/-! # The transactions of `store.go` and `queue.go`

Each method of `core.Store` that writes is a transaction: the statements it executes, in order, and what
it answers. What a method draws from the system (`ID()`, `millis()`) is an argument: identifiers and
clock readings can be anything. `digest` is an argument too (`Digest`), one function per type it is
applied to. -/

namespace Afterglow.Core.Store

open Afterglow.Sql.Rows Afterglow.Sql.Txn Afterglow.Core.Model Afterglow.Core.Statements

/-- `digest`: the hexadecimal SHA-256 of the JSON text of a reservation input, and of a receipt. -/
structure Digest where
  input : ReservationInput → String
  receipt : Receipt → String

/-- What `audit` draws: an identifier and the clock. -/
structure Stamp where
  id : String
  at_ : Int
  deriving DecidableEq, Repr

/-- `audit`, then `k`. -/
def audit {α : Type} (tenant : String) (kind : Kind) (resource detail : String) (d : Stamp)
    (k : Tx α) : Tx α :=
  .exec (.insertAudit ⟨d.id, tenant, kind, resource, detail, d.at_⟩) fun _ => k

/-! ### Seed -/

def seedCampaigns : List (String × String × Int) :=
  [("cmp-cascade", "Cascade / A little further", 250000000),
    ("cmp-northstar", "Northstar / Next departure", 180000000),
    ("cmp-solstice", "Solstice / Find your outside", 120000000)]

def seedScreens : List Screen :=
  [⟨"sea-01", "SEA / Concourse A", "Seattle", "Airport", 4745 / 100, -12231 / 100⟩,
    ⟨"sea-02", "I-5 / Downtown", "Seattle", "Roadside", 4761 / 100, -12233 / 100⟩,
    ⟨"pdx-01", "PDX / North lobby", "Portland", "Airport", 4559 / 100, -12260 / 100⟩,
    ⟨"sfo-01", "SFO / Terminal 2", "San Francisco", "Airport", 3762 / 100, -12238 / 100⟩,
    ⟨"lax-01", "LAX / Arrivals", "Los Angeles", "Airport", 3394 / 100, -11840 / 100⟩,
    ⟨"den-01", "DEN / Concourse B", "Denver", "Airport", 3986 / 100, -10467 / 100⟩,
    ⟨"ord-01", "ORD / Terminal 1", "Chicago", "Airport", 4198 / 100, -8790 / 100⟩,
    ⟨"jfk-01", "JFK / Departures", "New York", "Airport", 4064 / 100, -7378 / 100⟩]

/-- Execute the statements, then `k`. -/
def execAll {α : Type} (sts : List (Stmt ℕ)) (k : Tx α) : Tx α :=
  sts.foldr (fun st p => .exec st fun _ => p) k

def seed (tenant : String) : Tx Unit :=
  execAll (seedCampaigns.map fun c => .insertCampaign tenant c.1 c.2.1 c.2.2) <|
    execAll (seedScreens.map .insertScreen) <| .commit ()

/-! ### Reserve -/

/-- What `Reserve` draws: the identifier, the clock for `created` and again for `expires`, and the
audit's draw. -/
structure ReserveDraw where
  id : String
  created : Int
  later : Int
  stamp : Stamp
  deriving DecidableEq, Repr

/-- The row `Reserve` inserts. -/
def newReservation (H : Digest) (tenant key : String) (inp : ReservationInput) (d : ReserveDraw) :
    ReservationRow :=
  { id := d.id, campaign := inp.campaignID, screen := inp.screenID, cost := inp.cost, state := .held,
    created := d.created, expires := d.later + 15 * 60 * 1000, tenant, idemKey := key,
    fingerprint := H.input inp }

/-- `Reserve` once the key is known to be new. -/
def reserveNew (H : Digest) (tenant key : String) (inp : ReservationInput) (d : ReserveDraw) :
    Tx (Reservation × Bool) :=
  .exec (.selectScreen inp.screenID) fun
    | none => .rollback (.error .notFound)
    | some _ =>
      .exec (.debitCampaign inp.cost tenant inp.campaignID) fun n =>
      if n = 0 then .rollback (.error .budget)
      else
        let r := newReservation H tenant key inp d
        .exec (.insertReservation r) fun n =>
        if n = 0 then .rollback (.error .conflict)
        else
          audit tenant .reserved d.id (toString inp.cost ++ " micros held; " ++ inp.screenID) d.stamp <|
            .commit (r.toReservation, false)

/-- The arguments `Reserve` accepts. -/
def validReserve (key : String) (inp : ReservationInput) : Bool :=
  validID key && validID inp.campaignID && validID inp.screenID &&
    !(inp.cost ≤ 0 || 1000000000 < inp.cost)

def reserve (H : Digest) (tenant key : String) (inp : ReservationInput) (d : ReserveDraw) :
    Tx (Reservation × Bool) :=
  if !validReserve key inp then
    .rollback (.error (.invalid "valid IDs and cost_micros between 1 and 1000000000 required"))
  else
    -- the campaign is locked before its budget is read
    .exec (.lockCampaign tenant inp.campaignID) fun n =>
    if n = 0 then .rollback (.error .notFound)
    else
      .exec (.selectFingerprint tenant key) fun
        | some fp =>
          if fp ≠ H.input inp then .rollback (.error .conflict)
          else
            .exec (.selectReservationByKey tenant key) fun
              | some r => .rollback (.ok (r, true))
              | none => .rollback (.error (.storage .noRows))
        | none => reserveNew H tenant key inp d

/-! ### Accept -/

/-- What `Accept` draws: the identifier, the clock, the trace of the request, the audit's draw. -/
structure AcceptDraw where
  id : String
  created : Int
  trace : Trace
  stamp : Stamp
  deriving DecidableEq, Repr

/-- The identifiers `Accept` accepts. -/
def validReceipt (r : Receipt) : Bool :=
  validID r.eventID && validID r.reservationID && validID r.screenID

/-- The row `Accept` inserts. -/
def newDelivery (H : Digest) (tenant : String) (r : Receipt) (d : AcceptDraw) : DeliveryRow :=
  ⟨tenant, d.id, r.eventID, H.receipt r, .json r, .accepted, .none, d.created, 0⟩

def accept (H : Digest) (tenant : String) (r : Receipt) (d : AcceptDraw) : Tx (String × Bool) :=
  if !validReceipt r then
    .rollback (.error (.invalid "event, reservation and screen IDs required"))
  else
    .exec (.insertDelivery (newDelivery H tenant r d)) fun n =>
    if n = 0 then
      .exec (.selectDeliveryByEvent tenant r.eventID) fun
        | none => .rollback (.error (.storage .noRows))
        | some (id, fp) =>
          if fp ≠ H.receipt r then .rollback (.error .conflict) else .rollback (.ok (id, true))
    else
      .exec (.insertOutbox tenant d.id) fun _ =>
      .exec (.insertContext ⟨tenant, d.id, .json d.trace⟩) fun _ =>
      audit tenant .accepted d.id "Receipt and dispatch intent committed together" d.stamp <|
        .commit (d.id, false)

/-! ### Process -/

/-- What `Process` draws: the clock of the future check and the audit's draw. -/
structure ProcessDraw where
  now : Int
  stamp : Stamp
  deriving DecidableEq, Repr

/-- The checks that need no reservation. -/
def receiptReason (now : Int) (p : Receipt) : Reason :=
  if p.version ≠ 1 then .unsupportedSchema
  else if p.durationMS < 1000 ∨ 120000 < p.durationMS then .invalidPlayDuration
  else if now + 60000 < p.playedAt then .futurePlayTime
  else .none

/-- The checks against the reservation the receipt names. -/
def reservationReason (p : Receipt) : Option Reservation → Reason
  | none => .unknownReservation
  | some r =>
    if r.screen ≠ p.screenID then .screenMismatch
    else if p.playedAt < r.created ∨ r.expires < p.playedAt then .outsideReservationWindow
    else if r.state = .released then .reservationReleased
    else .none

/-- Record the decision and commit. -/
def decideAs (tenant id : String) (status : Status) (reason : Reason) (d : ProcessDraw) : Tx Status :=
  .exec (.decideDelivery status reason tenant id) fun _ =>
  audit tenant status.kind id reason.text d.stamp <| .commit status

/-- `Process` once the reservation the receipt names is read. -/
def settle (tenant id : String) (p : Receipt) (d : ProcessDraw) (r : Option Reservation) : Tx Status :=
  match reservationReason p r, r with
  | .none, some r =>
    if r.state = .held then
      .exec (.settleReservation tenant r.id) fun _ =>
      .exec (.chargeCampaign r.cost tenant r.campaign) fun _ =>
      decideAs tenant id .settled .matched d
    else decideAs tenant id .duplicate .reservationAlreadySettled d
  | reason, _ => decideAs tenant id .quarantined reason d

/-- `Process` on an accepted delivery with payload `body`. -/
def judge (tenant id : String) (body : Text Receipt) (d : ProcessDraw) : Tx Status :=
  match body.unmarshal with
  | none => decideAs tenant id .quarantined .malformedPayload d
  | some p =>
    if receiptReason d.now p ≠ .none then
      decideAs tenant id .quarantined (receiptReason d.now p) d
    else
      -- every receipt for this reservation takes the same lock before it reads the state
      .exec (.lockReservation tenant p.reservationID) fun _ =>
      .exec (.selectReservation tenant p.reservationID) fun r => settle tenant id p d r

def process (tenant id : String) (d : ProcessDraw) : Tx Status :=
  .exec (.countAttempt tenant id) fun n =>
  if n = 0 then .rollback (.error .notFound)
  else
    .exec (.selectDelivery tenant id) fun
      | none => .rollback (.error (.storage .noRows))
      | some (body, status) =>
        if status ≠ .accepted then .commit status else judge tenant id body d

/-! ### Release -/

def release (tenant id : String) (now : Int) (d : Stamp) : Tx Unit :=
  .exec (.releaseReservation tenant id (now - 900000)) fun n =>
  if n = 0 then .rollback (.ok ())
  else
    .exec (.selectReservation tenant id) fun
      | none => .rollback (.error (.storage .noRows))
      | some r =>
        .exec (.refundCampaign r.cost tenant r.campaign) fun _ =>
        audit tenant .released id "Expired after receipt grace period; funds returned" d <| .commit ()

/-! ### The queue -/

def claim (postgres : Bool) (now : Int) (owner : String) : Tx (Option Job) :=
  .exec (.selectDue postgres now) fun
    | none => .rollback (.ok none)
    | some (tenant, id, attempts) =>
      .exec (.leaseOutbox owner (now + 30000) tenant id) fun _ =>
      .exec (.selectCarrier tenant id) fun
        | none => .commit (some ⟨tenant, id, owner, attempts + 1, []⟩)
        | some (.json trace) => .commit (some ⟨tenant, id, owner, attempts + 1, trace⟩)
        | some (.other raw) =>
          if raw = "" then .commit (some ⟨tenant, id, owner, attempts + 1, []⟩)
          else .rollback (.error (.storage .decode))

def dispatched (j : Job) : Tx Unit :=
  .exec (.markDispatched j.tenant j.id j.owner) fun _ => .commit ()

def complete (tenant id : String) : Tx Unit :=
  -- the delivery is locked first, in the order of `replay`
  .exec (.lockDelivery tenant id) fun _ =>
  .exec (.selectStatus tenant id) fun
    | none => .rollback (.error (.storage .noRows))
    | some status =>
      if status = .accepted then .rollback (.ok ())
      else .exec (.finishOutbox tenant id) fun _ => .commit ()

/-- The state `FailJob` puts a job in: five attempts are the last. -/
def failState (j : Job) : Dispatch := if 5 ≤ j.attempts then .dead else .pending

def failJob (j : Job) (next : Int) (d : Stamp) : Tx Unit :=
  .exec (.lockDelivery j.tenant j.id) fun _ =>
  .exec (.failOutbox (failState j) next j.tenant j.id j.owner) fun n =>
  if n = 0 then .rollback (.ok ())
  else if failState j = .dead then
    .exec (.failDelivery j.tenant j.id) fun _ =>
    audit j.tenant .retry j.id (failState j).text d <| .commit ()
  else audit j.tenant .retry j.id (failState j).text d <| .commit ()

def replay (tenant id : String) (d : Stamp) : Tx Unit :=
  .exec (.reopenDelivery tenant id) fun n =>
  if n = 0 then .rollback (.error .conflict)
  else
    .exec (.requeueOutbox tenant id) fun _ =>
    audit tenant .replayed id "Original immutable payload requeued; validation still applies" d <|
      .commit ()

/-- `QuarantineTransport`: at most 32768 bytes of a payload are kept. -/
def quarantineTransport (postgres : Bool) (id : String) (payload : List UInt8) (reason : String)
    (now : Int) : Tx Unit :=
  .exec (.insertQuarantine postgres ⟨id, payload.take 32768, reason, now⟩) fun _ => .commit ()

end Afterglow.Core.Store
