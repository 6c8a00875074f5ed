import Afterglow.Core.Reports
import Afterglow.Core.Admission
import Afterglow.Httpapi.Batch

/-! # The live proof of the console

`proof.js` runs six steps against the API and keeps what it has in `sessionStorage`: a plan with two
idempotency keys and four event identifiers, drawn once, and the results of the steps. It is a machine
(`Place`) that stops at every `await`; what it does when an answer arrives is `resume`. A request that was
sent can be executed by the server at any later time, once or again, while its page has long given up; the
answer can be lost. The page can be reloaded at any point, and then goes on from what was saved last.
The server executes `Reserve`, `Accept` and, item by item, `acceptBatch`; in between the worker and other
clients make their calls. -/

namespace Afterglow.Console.Proof

open Afterglow.Sql.Rows Afterglow.Sql.Txn Afterglow.Core.Model Afterglow.Core.Statements
open Afterglow.Core.Store Afterglow.Core.Run Afterglow.Core.Reports Afterglow.Core.Receipts
open Afterglow.Core.Admission Afterglow.Httpapi.Batch

/-! ### The saved run -/

/-- What the literals for the four events and the six steps are built from. -/
instance neZero_events : NeZero 4 := ⟨four_ne_zero⟩

instance neZero_steps : NeZero 6 := ⟨by decide⟩

structure Plan where
  campaign : String
  screen : String
  keys : Fin 2 → String
  events : Fin 4 → String

/-- The body of the reservation requests. -/
def Plan.input (P : Plan) : ReservationInput := ⟨P.campaign, P.screen, 10000⟩

/-- `receipt(i, h, v)`. -/
def Plan.receipt (P : Plan) (i : Fin 4) (h : Reservation) (v : Int) : Receipt :=
  ⟨v, P.events i, h.id, h.screen, h.created + 1, 10000⟩

/-- What later steps read of a run: `payload` is the list of receipts before the malformed neighbor. -/
structure Run where
  plan : Plan
  steps : Fin 6 → Bool
  holds : List Reservation
  payload : Option (List Receipt)
  correction : Option Receipt
  batch : Option BatchResponse
  corrected : Option String

namespace Run

/-- The run of a new plan. -/
def fresh (P : Plan) : Run := ⟨P, fun _ => false, [], none, none, none, none⟩

def finish (ρ : Run) (i : Fin 6) : Run := { ρ with steps := Function.update ρ.steps i true }

/-- The payload and the correction, from the two reservations. -/
def prepare (ρ : Run) : Run :=
  match ρ.holds with
  | h₀ :: h₁ :: _ =>
    { ρ with
      payload := some [ρ.plan.receipt 0 h₀ 1, ρ.plan.receipt 1 h₀ 1, ρ.plan.receipt 2 h₁ 99]
      correction := some (ρ.plan.receipt 3 h₁ 1) }
  | _ => ρ

end Run

/-! ### Requests and answers -/

/-- A mutating request of the page. A body that is `undefined` is `none`. -/
inductive Request
  | reserve (key : String) (inp : ReservationInput)
  | batch (receipts : Option (List Receipt))
  | receipt (r : Option Receipt)
  deriving DecidableEq, Repr

inductive Answer
  | reservation (a : Except Err (Reservation × Bool))
  | batch (reply : Reply)
  | receipt (a : Except Err (String × Bool))
  /-- the body does not decode -/
  | refused

/-- The answer says that a key or an event identifier was used with other content. -/
def Answer.conflict : Answer → Bool
  | .reservation (.error .conflict) => true
  | .receipt (.error .conflict) => true
  | .batch (.respond _ out) => out.results.any fun r => r.status = 409
  | _ => false

/-! ### The machine -/

/-- The request `execute` waits for. -/
inductive Await
  | hold (i : Fin 2)
  | batch
  | replay
  | correct
  deriving DecidableEq, Repr

def Run.request (ρ : Run) : Await → Request
  | .hold i => .reserve (ρ.plan.keys i) ρ.plan.input
  | .batch => .batch ρ.payload
  | .replay => .batch ρ.payload
  | .correct => .receipt ρ.correction

/-- Where `execute` is: `running` is false, at `step(i, ...)`, waiting for the answer to the request it sent
as number `a`, or in `observe` of step 3 or 5. -/
inductive Place
  | idle
  | step (i : ℕ)
  | fetch (w : Await) (a : ℕ)
  | observe (i : Fin 6)
  deriving DecidableEq, Repr

/-- What `execute` does next: send a request, look at the deliveries, end step `i`, or end in `catch`. -/
inductive Next
  | send (w : Await) (ρ : Run)
  | look (i : Fin 6) (ρ : Run)
  | done (i : Fin 6) (ρ : Run)
  | throw (ρ : Run)

/-- The callback of a step that is not done. -/
def begin (ρ : Run) : Fin 6 → Next
  | 0 => .send (.hold 0) { ρ with holds := [] }
  | 1 => .send .batch ρ
  | 2 => .send .replay ρ
  | 3 => .look 3 ρ
  | 4 => .send .correct ρ
  | 5 => .look 5 ρ

/-- The function `batch`: the response it returns, if it does not throw. -/
def checkBatch : Answer → Option BatchResponse
  | .batch (.respond 207 out) =>
    if out.accepted = 3 ∧ out.rejected = 1 ∧ (out.results[3]?).any (fun r => r.status = 400) then some out
    else none
  | _ => none

/-- The check of step 2: three replays, with the identifiers of the first batch. -/
def sameReceipts (first : Option BatchResponse) (out : BatchResponse) : Bool :=
  first.any fun b =>
    out.replayed = 3 ∧ (out.results.take 3).map (·.id) = (b.results.take 3).map (·.id)

/-- The answer to a request arrives. -/
def resume (ρ : Run) : Await → Answer → Next
  | .hold 0, .reservation (.ok (r, _)) => .send (.hold 1) { ρ with holds := ρ.holds ++ [r] }
  | .hold 1, .reservation (.ok (r, _)) => .done 0 (Run.prepare { ρ with holds := ρ.holds ++ [r] })
  | .batch, answer =>
    match checkBatch answer with
    | some out => .done 1 { ρ with batch := some out }
    | none => .throw ρ
  | .replay, answer =>
    match checkBatch answer with
    | some out => if sameReceipts ρ.batch out then .done 2 ρ else .throw ρ
    | none => .throw ρ
  | .correct, .receipt (.ok (id, _)) => .done 4 { ρ with corrected := some id }
  | _, _ => .throw ρ

/-- `statuses === "duplicate,settled"` of two deliveries. -/
def oneSettled (a b : DeliveryEvidence) : Bool :=
  (a.delivery.status = .settled ∧ b.delivery.status = .duplicate) ∨
    (a.delivery.status = .duplicate ∧ b.delivery.status = .settled)

/-- `new Map(...)`: the last value of each key. -/
def mapOf (entries : List (Option String × Option Reservation)) :
    List (Option String × Option Reservation) :=
  entries.foldl (fun m e => m.filter (fun x => x.1 ≠ e.1) ++ [e]) []

/-- The checks of step 3 and of step 5 on the deliveries they observed. -/
def checkRows : Fin 6 → List DeliveryEvidence → Bool
  | 3, [a, b, c] =>
    oneSettled a b && c.delivery.status = .quarantined && c.delivery.reason = .unsupportedSchema &&
      c.reservation.any (fun r => r.state = .held)
  | 5, [a, b, c, d] =>
    let reservations := mapOf ([a, b, c, d].map fun e => (e.reservation.map (·.id), e.reservation))
    d.delivery.status = .settled && c.delivery.receipt.version = 99 &&
      c.delivery.status = .quarantined && oneSettled a b && reservations.length = 2 &&
      reservations.all fun e => e.2.any fun r => r.state = .settled && r.cost = 10000
  | _, _ => false

/-! ### The server -/

/-- `JSON.stringify` of the page and the decoder of the server. What the decoder reads of a receipt is
what the page wrote, if it does not refuse it, and it refuses the malformed neighbor of the batch. -/
structure Codec where
  encode : Receipt → Raw
  decode : Raw → Option Receipt
  neighbor : Raw
  reads : ∀ r p, receipt? decode (encode r) = some p → p = r
  refuses : receipt? decode neighbor = none

/-- The body of a batch request. -/
def body (C : Codec) : Option (List Receipt) → Body
  | none => .malformed
  | some receipts => .receipts (receipts.map C.encode ++ [C.neighbor])

/-- A batch in its handler: the request's number, the next index, the items left, and the response so
far. -/
structure Handling where
  attempt : ℕ
  receipts : Option (List Receipt)
  index : ℕ
  items : List Raw
  out : BatchResponse

/-- `acceptBatch` before its loop. -/
def openBatch (C : Codec) (a : ℕ) (receipts : Option (List Receipt)) (allowed : Bool) :
    Except Reply Handling :=
  match decode (body C receipts) with
  | .error reply => .error reply
  | .ok items =>
    if items.length < 1 ∨ maxBatchReceipts < items.length then
      .error (.problem 422 "receipts_must_contain_1_to_50_items")
    else if !allowed then .error (.problem 429 "batch_rate_limited")
    else .ok ⟨a, receipts, 0, items, ⟨0, 0, 0, []⟩⟩

/-- The answer of `acceptBatch` after its loop. -/
def Handling.reply (h : Handling) : Reply := .respond (if 0 < h.out.rejected then 207 else 202) h.out

/-- Without an interruption that is `acceptBatch`. -/
theorem acceptBatch_eq (C : Codec) (H : Digest) (tenant : String) (draws : Draws) (a : ℕ)
    (receipts : Option (List Receipt)) (allowed : Bool) (s : Store) :
    acceptBatch C.decode H tenant draws (body C receipts) allowed s =
      match openBatch C a receipts allowed with
      | .error reply => (reply, s)
      | .ok h =>
        let (out, s') := acceptAll C.decode H tenant draws h.index h.items h.out s
        (Handling.reply { h with out }, s') := by
  unfold acceptBatch openBatch
  cases decode (body C receipts) with
  | error reply => rfl
  | ok items =>
    by_cases hlen : items.length < 1 ∨ maxBatchReceipts < items.length
    · simp only [hlen, if_true]
    · simp only [hlen, if_false]
      cases allowed <;> rfl

/-! ### The system -/

/-- The store, the page and what it saved, the requests ever sent, the batches being handled and the
answers ever given. -/
structure System where
  store : Store
  page : Option Run
  saved : Option Run
  place : Place
  sent : List Request
  handlers : ℕ → Option Handling
  answers : List (Request × Answer)

/-- The steps. `saves` says that `sessionStorage` takes what `save` writes, `delivered` that the answer
arrives. -/
inductive Event
  /-- `execute`; where it needs a new plan, `found` says that there is a campaign for one -/
  | execute (found saves : Bool)
  | go
  /-- the server executes request `a`, a reservation or a receipt -/
  | serve (a : ℕ) (d : ReserveDraw) (e : AcceptDraw) (fault : Option ℕ) (delivered saves : Bool)
  /-- the server takes batch request `a` in handler `b` -/
  | openBatch (b a : ℕ) (allowed delivered saves : Bool)
  /-- handler `b` accepts its next item -/
  | item (b : ℕ) (e : AcceptDraw) (fault : Option ℕ)
  /-- handler `b` answers -/
  | closeBatch (b : ℕ) (delivered saves : Bool)
  /-- the request of the page fails, or its answer is lost or too late -/
  | fail (saves : Bool)
  /-- what `observe` read -/
  | observed (rows : List DeliveryEvidence) (saves : Bool)
  | reload
  /-- the worker, or another client -/
  | other (c : Call)

/-- The call uses neither the keys nor the event identifiers of the plan. -/
def foreign (tenant : String) (P : Plan) : Op → Bool
  | .reserve t key _ _ => !(t = tenant ∧ ∃ i, key = P.keys i)
  | .accept t r _ => !(t = tenant ∧ ∃ i, r.eventID = P.events i)
  | _ => true

namespace System

variable (C : Codec) (H : Digest) (tenant : String) (P : Plan)

/-- `execute` goes on. -/
def next (x : System) (saves : Bool) : Next → System
  | .send w ρ =>
    { x with page := some ρ, sent := x.sent ++ [ρ.request w], place := .fetch w x.sent.length }
  | .look i ρ => { x with page := some ρ, place := .observe i }
  | .done i ρ =>
    { x with
      page := some (ρ.finish i)
      saved := if saves then some (ρ.finish i) else x.saved
      place := .step (i + 1) }
  | .throw ρ =>
    { x with page := some ρ, saved := if saves then some ρ else x.saved, place := .idle }

/-- The server answers request `a`. -/
def answer (x : System) (a : ℕ) (q : Request) (ans : Answer) (delivered saves : Bool) : System :=
  let x' := { x with answers := x.answers ++ [(q, ans)] }
  match x.place, x.page with
  | .fetch w a', some ρ => if delivered && a' = a then x'.next saves (resume ρ w ans) else x'
  | _, _ => x'

/-- **One step.** A step its party is not at does nothing. -/
def step (x : System) : Event → System
  | .execute found saves =>
    match x.place, x.page with
    | .idle, some ρ =>
      if ∀ i, ρ.steps i = true then
        -- a run that is done makes room for one with another plan
        if found then { x with page := none, saved := if saves then none else x.saved }
        else { x with saved := if saves then some ρ else x.saved }
      else { x with place := .step 0 }
    | .idle, none => { x with saved := if found && saves then none else x.saved }
    | _, _ => x
  | .go =>
    match x.place, x.page with
    | .step i, some ρ =>
      if h : i < 6 then
        if ρ.steps ⟨i, h⟩ then { x with place := .step (i + 1) } else x.next false (begin ρ ⟨i, h⟩)
      else { x with place := .idle }
    | _, _ => x
  | .serve a d e fault delivered saves =>
    match x.sent[a]? with
    | some (.reserve key inp) =>
      let r := reserveCall H tenant key inp d fault x.store
      { x with store := r.2 }.answer a (.reserve key inp) (.reservation r.1) delivered saves
    | some (.receipt none) => x.answer a (.receipt none) .refused delivered saves
    | some (.receipt (some p)) =>
      match receipt? C.decode (C.encode p) with
      | none => x.answer a (.receipt (some p)) .refused delivered saves
      | some p' =>
        let r := acceptCall H tenant p' e fault x.store
        { x with store := r.2 }.answer a (.receipt (some p)) (.receipt r.1) delivered saves
    | _ => x
  | .openBatch b a allowed delivered saves =>
    match x.sent[a]?, x.handlers b with
    | some (.batch receipts), none =>
      match Proof.openBatch C a receipts allowed with
      | .error reply => x.answer a (.batch receipts) (.batch reply) delivered saves
      | .ok h => { x with handlers := Function.update x.handlers b (some h) }
    | _, _ => x
  | .item b e fault =>
    match x.handlers b with
    | some ⟨a, receipts, i, raw :: items, out⟩ =>
      let r := acceptItem C.decode H tenant (fun _ => (e, fault)) i raw x.store
      { x with
        store := r.2
        handlers := Function.update x.handlers b (some ⟨a, receipts, i + 1, items, out.add r.1⟩) }
    | _ => x
  | .closeBatch b delivered saves =>
    match x.handlers b with
    | some ⟨a, receipts, i, [], out⟩ =>
      { x with handlers := Function.update x.handlers b none }.answer a (.batch receipts)
        (.batch (Handling.reply ⟨a, receipts, i, [], out⟩)) delivered saves
    | _ => x
  | .fail saves =>
    match x.place, x.page with
    | .fetch _ _, some ρ => x.next saves (.throw ρ)
    | .observe _, some ρ => x.next saves (.throw ρ)
    | _, _ => x
  | .observed rows saves =>
    match x.place, x.page with
    | .observe i, some ρ => x.next saves (if checkRows i rows then .done i ρ else .throw ρ)
    | _, _ => x
  | .reload => { x with page := x.saved, place := .idle }
  | .other c => if foreign tenant P c.op then { x with store := c.step H x.store } else x

/-- The system after a list of steps. -/
def run (es : List Event) (x : System) : System := es.foldl (step C H tenant P) x

/-- `execute` has drawn the plan and saved it, if it could. -/
def start (s : Store) (saves : Bool) : System :=
  ⟨s, some (.fresh P), if saves then some (.fresh P) else none, .step 0, [], fun _ => none, []⟩

end System

end Afterglow.Console.Proof
