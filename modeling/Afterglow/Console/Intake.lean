import Afterglow.Console.Price
import Afterglow.Console.Wire
import Afterglow.Sync.Requests

/-! # The intake page

`intake.js` prepares a playback batch. Load example reserves budget for it under a new idempotency key and
keeps key, input and reservation as `examplePlan`; Send batch sends what is in the request body. The click
handler stops at every `await` (`Place`), and while it waits no button, price or request body can be used.

The server executes a request while the page waits for it, or not at all; then its answer arrives, or the
page only learns that it failed. Between the steps the worker and other clients make their calls, among
them the receipts of a batch that was sent. `crypto.randomUUID` draws a key that no one else uses. -/

namespace Afterglow.Console.Intake

open Afterglow.Sql.Rows Afterglow.Core.Model Afterglow.Core.Statements Afterglow.Core.Store
open Afterglow.Core.Run Afterglow.Core.Reports Afterglow.Core.Admission
open Afterglow.Console.Price Afterglow.Console.Wire Afterglow.Sync.Requests

/-! ### The examples -/

/-- The scenarios; `mixed` is `partial`. -/
inductive Example
  | mixed
  | clean
  | duplicate
  | replay
  | schema
  | window
  deriving DecidableEq, Repr

inductive Item
  | receipt (r : Receipt)
  /-- `unexpected_field` alone -/
  | malformed
  deriving DecidableEq, Repr

/-- The `receipts` of an example, with the event identifiers it draws. -/
def receipts (kind : Example) (r : Reservation) (events : ℕ → String) : List Item :=
  let receipt : Receipt := ⟨1, events 0, r.id, r.screen, r.created + 1, 10000⟩
  match kind with
  | .clean => [.receipt receipt]
  | .duplicate => (List.range 5).map fun i => .receipt { receipt with eventID := events (i + 1) }
  | .replay => [.receipt receipt, .receipt receipt]
  | .schema => [.receipt { receipt with version := 99 }]
  | .window => [.receipt { receipt with playedAt := r.created - 1000 }]
  | .mixed => [.receipt receipt, .receipt { receipt with eventID := events 1 }, .malformed]

/-- The fields of an item, in the order they are written. -/
def Item.fields : Item → List (String × List Char)
  | .receipt r =>
    [("schema_version", decimal r.version), ("event_id", quoted r.eventID),
      ("reservation_id", quoted r.reservationID), ("screen_id", quoted r.screenID),
      ("played_at", decimal r.playedAt), ("duration_ms", decimal r.durationMS)]
  | .malformed => [("unexpected_field", quoted "deliberately malformed")]

def Item.text (i : Item) : List Char :=
  "    \x7b\n".toList ++
    List.intercalate ",\n".toList
      (i.fields.map fun f => "      ".toList ++ quoted f.1 ++ ": ".toList ++ f.2) ++
    "\n    \x7d".toList

/-- `JSON.stringify({ receipts }, null, 2)`, of at least one item. -/
def stringify (items : List Item) : String :=
  String.ofList ("\x7b\n  \x22receipts\x22: [\n".toList ++
    List.intercalate ",\n".toList (items.map Item.text) ++ "\n  ]\n\x7d".toList)

/-! ### The page -/

/-- `examplePlan`. -/
structure Plan where
  key : String
  input : ReservationInput
  hold : Option Reservation
  deriving DecidableEq, Repr

/-- What the server answers to a reservation request: a reservation, or a problem with its status. -/
abbrev Reply := Except ℕ Reservation

/-- Where the click handler is: `pending` is false, or it waits for an answer, which the server may have
given already. -/
inductive Place
  | idle
  | snapshot (cost : Int) (answer : Option (Except ℕ Snapshot))
  | reserve (answer : Option Reply)
  | batch

structure Page where
  price : JsString
  exampleKind : Example
  draft : String
  examplePlan : Option Plan
  place : Place

namespace Page

/-- `"0.01"` and no plan. -/
def fresh : Page := ⟨[48, 46, 48, 49], .mixed, "", none, .idle⟩

def pending (p : Page) : Bool :=
  match p.place with
  | .idle => false
  | _ => true

/-- `examplePlan && !examplePlan.hold`. -/
def uncertain (p : Page) : Bool := p.examplePlan.any fun plan => plan.hold.isNone

end Page

/-- `[400, 401, 403, 404, 409, 422].includes(e.status)`; a failure without an answer has no status. -/
def definitive (status : Option ℕ) : Bool :=
  status.any fun n => n ∈ [400, 401, 403, 404, 409, 422]

namespace Page

/-- The `catch` of Load example, and its `finally`. -/
def caught (p : Page) (status : Option ℕ) : Page :=
  { p with
    examplePlan := if p.uncertain && definitive status then none else p.examplePlan
    place := .idle }

/-- Load example once there is a reservation. -/
def prepare (p : Page) (r : Reservation) (now : Int) (events : ℕ → String) : Page :=
  if r.state ≠ .held ∨ r.expires ≤ now then { p with examplePlan := none }.caught none
  else { p with draft := stringify (receipts p.exampleKind r events), place := .idle }

/-- The plan cannot be used for this price. -/
def stale (p : Page) (cost now : Int) : Bool :=
  match p.examplePlan with
  | none => true
  | some plan => plan.hold.any fun h => h.expires ≤ now || plan.input.cost ≠ cost

end Page

/-! ### The server -/

/-- The server as the page meets it: whose it is, in which mode it runs, whether its own origin served
the page, and which inputs its decoder reads as the page wrote them. -/
structure Server where
  tenant : String
  digest : Digest
  demo : Bool
  sameOrigin : Bool
  decodes : ReservationInput → Bool

/-- A request that does not come to `Reserve`. The page sends no `Authorization`. -/
def Server.refusal (S : Server) (inp : ReservationInput) : Option ℕ :=
  if !S.demo then some 401
  else if !S.sameOrigin then some 403
  else if !S.decodes inp then some 400
  else none

/-- `fail`. -/
def failStatus : Err → ℕ
  | .conflict => 409
  | .budget => 409
  | .notFound => 404
  | .invalid _ => 422
  | .storage _ => 503

/-- `POST /api/v1/reservations`, past the rate limit. -/
def Server.reserve (S : Server) (key : String) (inp : ReservationInput) (d : ReserveDraw)
    (fault : Option ℕ) (s : Store) : Reply × Store :=
  match S.refusal inp with
  | some status => (.error status, s)
  | none =>
    match reserveCall S.digest S.tenant key inp d fault s with
    | (.ok (r, _), s') => (.ok r, s')
    | (.error e, s') => (.error (failStatus e), s')

/-- `GET /api/v1/snapshot`. -/
def Server.snapshot (S : Server) (now : Int) (s : Store) : Except ℕ Snapshot :=
  match Core.Reports.snapshot s S.tenant now with
  | .ok sn => .ok sn
  | .error e => .error (failStatus e)

/-! ### The system -/

abbrev Log := List (Entry String ReservationInput)

/-- The key is one of the page's. -/
def drew (log : Log) (key : String) : Bool :=
  log.any fun
    | .sent k _ => k = key
    | _ => false

/-- The store, the page, and what it has seen of its reservation requests. -/
structure System where
  store : Store
  page : Page
  log : Log

inductive Event
  | price (s : JsString)
  | draft (s : String)
  | scenario (kind : Example)
  /-- Load example, at `now`; a reservation that is there already is looked at again at `later` -/
  | load (now later : Int) (events : ℕ → String)
  /-- Send batch -/
  | send
  /-- the server executes the request the page waits for -/
  | serve (now : Int) (d : ReserveDraw) (fault : Option ℕ)
  /-- the answer arrives; `key` is what a new plan draws -/
  | arrive (now : Int) (key : String) (events : ℕ → String)
  /-- turned away with 429 or 503, a panic's 500, an answer lost, late or unreadable -/
  | fail (status : Option ℕ)
  /-- the worker, or another client -/
  | other (c : Call)

namespace System

variable (S : Server) (R : Numbers) (parse : String → Option ℕ)

/-- The reservation request of a plan. -/
def request (x : System) (plan : Plan) : System :=
  { x with
    page := { x.page with examplePlan := some plan, place := .reserve none }
    log := x.log ++ [.sent plan.key plan.input] }

/-- Load example, with its price. The number is not infinite (`priceMicros_ok_iff`). -/
def load (x : System) (micros : WithTop ℕ) (now later : Int) (events : ℕ → String) : System :=
  let cost : Int := (micros.untopD 0 : ℕ)
  if x.page.stale cost now then { x with page := { x.page with place := .snapshot cost none } }
  else
    match x.page.examplePlan with
    | some ⟨key, input, none⟩ => x.request ⟨key, input, none⟩
    | some ⟨_, _, some r⟩ => { x with page := x.page.prepare r later events }
    | none => x

/-- The body has 1 to 50 receipts; `parse` is the length of the `receipts` that `JSON.parse` finds. -/
def sendable (x : System) : Bool := (parse x.page.draft).any fun n => 1 ≤ n && n ≤ 50

/-- A new plan, from a snapshot. -/
def choose (x : System) (cost : Int) (sn : Snapshot) (key : String) : System :=
  match sn.campaigns.find? (fun c => cost ≤ c.budget - c.spent - c.reserved), sn.screens with
  | some campaign, screen :: _ => x.request ⟨key, ⟨campaign.id, screen.id, cost⟩, none⟩
  | _, _ => { x with page := x.page.caught none }

/-- The answer to the reservation request arrives. -/
def answered (x : System) (plan : Plan) (now : Int) (events : ℕ → String) : Reply → System
  | .ok r =>
    { x with
      page := Page.prepare { x.page with examplePlan := some { plan with hold := some r } } r now events
      log := x.log ++ [.success plan.key] }
  | .error status =>
    { x with
      page := x.page.caught (some status)
      log := x.log ++ [if definitive (some status) then .rejected plan.key else .unclear plan.key] }

/-- The page learns that its request failed. -/
def failed (x : System) (status : Option ℕ) : System :=
  match x.page.place, x.page.examplePlan with
  | .snapshot _ _, _ => { x with page := x.page.caught status }
  | .reserve _, some plan =>
    { x with page := x.page.caught status, log := x.log ++ [.unclear plan.key] }
  | .batch, _ => { x with page := { x.page with place := .idle } }
  | _, _ => x

/-- **One step.** A step its party is not at does nothing. -/
def step (x : System) : Event → System
  | .price s =>
    -- the field is disabled while a plan has no reservation
    if x.page.pending || x.page.uncertain then x else { x with page := { x.page with price := s } }
  | .draft s => if x.page.pending then x else { x with page := { x.page with draft := s } }
  | .scenario kind => if x.page.pending then x else { x with page := { x.page with exampleKind := kind } }
  | .load now later events =>
    if x.page.pending || !S.demo then x
    else
      match priceMicros R x.page.price with
      | .error _ => x
      | .ok micros => x.load micros now later events
  | .send =>
    if x.page.pending || !S.demo || !x.sendable parse then x
    else { x with page := { x.page with examplePlan := none, place := .batch } }
  | .serve now d fault =>
    match x.page.place, x.page.examplePlan with
    | .snapshot cost none, _ =>
      { x with page := { x.page with place := .snapshot cost (some (S.snapshot now x.store)) } }
    | .reserve none, some plan =>
      let r := S.reserve plan.key plan.input d fault x.store
      { x with store := r.2, page := { x.page with place := .reserve (some r.1) } }
    | _, _ => x
  | .arrive now key events =>
    match x.page.place, x.page.examplePlan with
    | .snapshot _ (some (.error status)), _ => { x with page := x.page.caught (some status) }
    | .snapshot cost (some (.ok sn)), _ =>
      if drew x.log key || (byKey x.store S.tenant key).isSome then x else x.choose cost sn key
    | .reserve (some reply), some plan => x.answered plan now events reply
    | .batch, _ => { x with page := { x.page with examplePlan := none, place := .idle } }
    | _, _ => x
  | .fail status => if definitive status then x else x.failed status
  | .other c =>
    match c.op with
    | .reserve tenant key _ _ =>
      if tenant = S.tenant ∧ drew x.log key then x else { x with store := c.step S.digest x.store }
    | _ => { x with store := c.step S.digest x.store }

/-- The system after a list of steps. -/
def run (es : List Event) (x : System) : System := es.foldl (step S R parse) x

/-- The page is loaded. -/
def start (s : Store) : System := ⟨s, .fresh, []⟩

end System

end Afterglow.Console.Intake
