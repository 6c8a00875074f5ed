import Afterglow.Sql.Rows

/-! # The data model of the settlement store

The records of `internal/core/model.go` and the rows of `schema.sql`. A row is the record the Go code
scans it into, with the columns that never leave the database (the tenant, the idempotency key, the
fingerprint). Columns with a fixed set of texts are enumerations. Money is in integer micros, times are
Unix milliseconds.

A `TEXT` column that holds JSON is only ever read back through `json.Unmarshal`, so it is modelled by
what that makes of it (`Text`). -/

namespace Afterglow.Core.Model

open Afterglow.Sql.Rows

/-- The pairs that runs are shown with have literals for indices; built from an instance with a name, a
literal is the same term in every module. -/
instance neZero_two : NeZero 2 := ⟨two_ne_zero⟩

/-! ### Errors -/

/-- A failure the database reports. -/
inductive Storage
  | check (table : String)
  | unique (table : String)
  | foreignKey (table : String)
  | overflow
  | encoding
  | noRows
  | decode
  | fault
  deriving DecidableEq, Repr

/-- The errors of `model.go`, and those of the database. -/
inductive Err
  | conflict
  | budget
  | notFound
  | invalid (detail : String)
  | storage (why : Storage)
  deriving DecidableEq, Repr

/-- The text of an error the client can cause; the others are answered with a fixed text. -/
def Err.text : Err → String
  | .conflict => "idempotency key reused with different content"
  | .budget => "insufficient uncommitted campaign budget"
  | .notFound => "resource not found"
  | .invalid detail => "invalid request: " ++ detail
  | .storage _ => "temporarily_unavailable"

/-! ### Identifiers -/

/-- The characters of an identifier. -/
def idChar (c : Char) : Bool :=
  ('a' ≤ c && c ≤ 'z') || ('A' ≤ c && c ≤ 'Z') || ('0' ≤ c && c ≤ '9') || c == '-' || c == '_'

/-- `validID`: 1 to 100 bytes, all of them identifier characters. -/
def validID (s : String) : Bool :=
  if s.utf8ByteSize < 1 || 100 < s.utf8ByteSize then false else s.toList.all idChar

/-- The text of a JSON column: what it decodes to, or that it does not decode. -/
inductive Text (α : Type)
  | json (a : α)
  | other (raw : String)
  deriving DecidableEq, Repr

/-- `json.Unmarshal`. -/
def Text.unmarshal {α : Type} : Text α → Option α
  | .json a => some a
  | .other _ => none

/-! ### Records -/

structure Campaign where
  id : String
  name : String
  budget : Int
  reserved : Int
  spent : Int
  deriving DecidableEq, Repr

structure Screen where
  id : String
  name : String
  market : String
  format : String
  lat : ℚ
  lng : ℚ
  deriving DecidableEq

structure ReservationInput where
  campaignID : String
  screenID : String
  cost : Int
  deriving DecidableEq, Repr

/-- The life of a hold. -/
inductive Hold
  | held
  | settled
  | released
  deriving DecidableEq, Repr

structure Reservation where
  id : String
  campaign : String
  screen : String
  cost : Int
  state : Hold
  created : Int
  expires : Int
  deriving DecidableEq, Repr

structure Receipt where
  version : Int
  eventID : String
  reservationID : String
  screenID : String
  playedAt : Int
  durationMS : Int
  deriving DecidableEq, Repr

/-- The status of a delivery. -/
inductive Status
  | accepted
  | settled
  | duplicate
  | quarantined
  | failed
  deriving DecidableEq, Repr

/-- The reason recorded with a status. -/
inductive Reason
  | none
  | malformedPayload
  | unsupportedSchema
  | invalidPlayDuration
  | futurePlayTime
  | unknownReservation
  | screenMismatch
  | outsideReservationWindow
  | reservationReleased
  | reservationAlreadySettled
  | matched
  | dispatchRetriesExhausted
  deriving DecidableEq, Repr

def Reason.text : Reason → String
  | .none => ""
  | .malformedPayload => "malformed_payload"
  | .unsupportedSchema => "unsupported_schema"
  | .invalidPlayDuration => "invalid_play_duration"
  | .futurePlayTime => "future_play_time"
  | .unknownReservation => "unknown_reservation"
  | .screenMismatch => "screen_mismatch"
  | .outsideReservationWindow => "outside_reservation_window"
  | .reservationReleased => "reservation_released"
  | .reservationAlreadySettled => "reservation_already_settled"
  | .matched => "matched_screen_window_and_reservation"
  | .dispatchRetriesExhausted => "dispatch_retries_exhausted"

/-- The state of a dispatch intent. -/
inductive Dispatch
  | pending
  | leased
  | dispatched
  | done
  | dead
  deriving DecidableEq, Repr

def Dispatch.text : Dispatch → String
  | .pending => "pending"
  | .leased => "leased"
  | .dispatched => "dispatched"
  | .done => "done"
  | .dead => "dead"

/-- The kind of an audit row. -/
inductive Kind
  | reserved
  | accepted
  | settled
  | duplicate
  | quarantined
  | failed
  | released
  | retry
  | replayed
  deriving DecidableEq, Repr

/-- `Process` audits a decision under the text of its status. -/
def Status.kind : Status → Kind
  | .accepted => .accepted
  | .settled => .settled
  | .duplicate => .duplicate
  | .quarantined => .quarantined
  | .failed => .failed

/-- A trace carrier, a map from header names to values. -/
abbrev Trace := List (String × String)

/-- The work a dispatcher holds. -/
structure Job where
  tenant : String
  id : String
  owner : String
  attempts : ℕ
  trace : Trace
  deriving DecidableEq, Repr

/-! ### Rows -/

structure CampaignRow extends Campaign where
  tenant : String
  deriving DecidableEq, Repr

structure ReservationRow extends Reservation where
  tenant : String
  idemKey : String
  fingerprint : String
  deriving DecidableEq, Repr

structure DeliveryRow where
  tenant : String
  id : String
  eventID : String
  fingerprint : String
  payload : Text Receipt
  status : Status
  reason : Reason
  created : Int
  attempts : ℕ
  deriving DecidableEq, Repr

structure OutboxRow where
  tenant : String
  id : String
  state : Dispatch
  owner : String
  leaseUntil : Int
  nextAt : Int
  attempts : ℕ
  deriving DecidableEq, Repr

structure ContextRow where
  tenant : String
  id : String
  carrier : Text Trace
  deriving DecidableEq, Repr

structure AuditRow where
  id : String
  tenant : String
  kind : Kind
  resource : String
  detail : String
  created : Int
  deriving DecidableEq, Repr

/-- A poison message, its payload by its bytes. -/
structure QuarantineRow where
  id : String
  payload : List UInt8
  reason : String
  created : Int
  deriving DecidableEq, Repr

/-- The primary key of a tenant's row. -/
abbrev Key2 := String × String

def CampaignRow.pk (c : CampaignRow) : Key2 := (c.tenant, c.id)
def ReservationRow.pk (r : ReservationRow) : Key2 := (r.tenant, r.id)
def DeliveryRow.pk (d : DeliveryRow) : Key2 := (d.tenant, d.id)
def OutboxRow.pk (o : OutboxRow) : Key2 := (o.tenant, o.id)
def ContextRow.pk (x : ContextRow) : Key2 := (x.tenant, x.id)

/-- The tables of `schema.sql`. -/
structure Store where
  campaigns : Table CampaignRow.pk
  screens : Table Screen.id
  reservations : Table ReservationRow.pk
  deliveries : Table DeliveryRow.pk
  outbox : Table OutboxRow.pk
  context : Table ContextRow.pk
  audit : Table AuditRow.id
  quarantine : Table QuarantineRow.id
  deriving DecidableEq

/-- The store as `Migrate` leaves it. -/
def Store.empty : Store :=
  ⟨.empty, .empty, .empty, .empty, .empty, .empty, .empty, .empty⟩

/-- The delivery's payload names reservation `id`. -/
def DeliveryRow.names (d : DeliveryRow) (id : String) : Bool :=
  match d.payload with
  | .json p => p.reservationID == id
  | .other _ => false

/-! ### Constraints -/

/-- The value fits a `BIGINT`. -/
def int64 (x : Int) : Bool := -2 ^ 63 ≤ x && x < 2 ^ 63

/-- The `CHECK`s of `campaigns`. -/
def CampaignRow.ok (c : CampaignRow) : Bool :=
  0 < c.budget && 0 ≤ c.reserved && 0 ≤ c.spent && c.reserved + c.spent ≤ c.budget

/-- The `CHECK`s of `reservations`; the states are those of `Hold`. -/
def ReservationRow.ok (r : ReservationRow) : Bool := 0 < r.cost

/-- A `TEXT` value PostgreSQL stores: UTF-8 without NUL. SQLite stores any bytes. -/
def storable (b : List UInt8) : Bool := (ByteArray.mk b.toArray).validateUTF8 && !b.contains 0

/-- The same of a text, which is UTF-8. -/
def storableText (t : String) : Bool := !t.toList.contains (Char.ofNat 0)

/-- What the engine checks before it writes a campaign. -/
def CampaignRow.check (c : CampaignRow) : Except Err Unit :=
  if !(int64 c.budget && int64 c.reserved && int64 c.spent && int64 (c.reserved + c.spent)) then
    .error (.storage .overflow)
  else if !c.ok then .error (.storage (.check "campaigns")) else .ok ()

/-- What the engine checks before it writes a reservation. -/
def ReservationRow.check (r : ReservationRow) : Except Err Unit :=
  if !r.ok then .error (.storage (.check "reservations")) else .ok ()

end Afterglow.Core.Model
