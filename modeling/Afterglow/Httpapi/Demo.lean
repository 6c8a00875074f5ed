import Afterglow.Foottraffic.Outcome
import Afterglow.Localdemo.Reset
import Afterglow.Sync.Holders

/-! # One server process of the demo

The process of `cmd/afterglow` that can be reset: the middleware and the handlers of `httpapi.Server`, and
the worker of `pipeline`, over one database. Two locks are in play. `demoGate` is held by a request under
`/api/` while its handler runs, in write mode by `POST /api/demo/reset` and in read mode by every other.
`operation` is held by a `Tick`, a sweep of expired reservations and `ResetLocalDemo`.

A party is where it is in its code between two of its steps (`Visit`, `Thread`), and that says which locks
it holds. A step is one transaction, one access to a shared variable or one lock operation; a lock that is
not granted leaves its party where it is. Parties move in any order. -/

namespace Afterglow.Httpapi.Demo

open Afterglow.Sql.Rows Afterglow.Sql.Txn Afterglow.Core.Model Afterglow.Core.Store Afterglow.Core.Run
open Afterglow.Localdemo.Reset (Db ResetErr demo resetTo)
open Afterglow.Sync.Holders

/-! ### The worker's controls -/

/-- `Paused`, `FailNext`, `DropAck` and the breaker of a `Worker`. -/
structure Controls where
  paused : Bool
  failNext : ℕ
  dropAck : Bool
  failures : ℕ
  openUntil : Option Int
  deriving DecidableEq, Repr

namespace Controls

def breakerOpen (c : Controls) (now : Int) : Bool := c.openUntil.any fun t => now < t

def markFailure (c : Controls) (now : Int) : Controls :=
  if 3 ≤ c.failures + 1 then { c with failures := c.failures + 1, openUntil := some (now + 2000) }
  else { c with failures := c.failures + 1 }

def markSuccess (c : Controls) : Controls := { c with failures := 0, openUntil := none }

end Controls

/-! ### Requests -/

inductive Method
  | get
  | head
  | post
  | other
  deriving DecidableEq, Repr

/-- What the middleware and the reset route read of a request: `generation` is the header
`X-Demo-Generation`, empty if there is none, and `confirm` the decoded body of a reset, if it decodes. -/
structure Request where
  method : Method
  path : String
  generation : String
  confirm : Option Bool
  deriving DecidableEq, Repr

namespace Request

/-- The request is for a path under `/api/`. -/
def api (r : Request) : Bool := "/api/".toList.isPrefixOf r.path.toList

def mutating (r : Request) : Bool := r.method != .get && r.method != .head

def isReset (r : Request) : Bool := r.method == .post && r.path == "/api/demo/reset"

/-- How the request holds `demoGate`. -/
def mode (r : Request) : Mode := if r.isReset then .write else .read

/-- The header names another generation. -/
def stale (current : String) (r : Request) : Bool :=
  r.mutating && r.generation != "" && r.generation != current

end Request

/-- The stores of `ResetLocalDemo` after the database is reset, in their order, and its unlock. -/
inductive Clear
  | failNext
  | dropAck
  | breaker
  | paused
  | unlock
  deriving DecidableEq, Repr

/-- Where a request is. -/
inductive Visit
  | absent
  /-- before the gate: the origin check, the rate limit and the slots -/
  | arrived (r : Request)
  /-- not under `/api/` -/
  | outside (r : Request)
  /-- through the gate, before the header is checked -/
  | gated (r : Request)
  /-- in its handler -/
  | handling (r : Request)
  /-- a reset that holds `operation`, before its transaction -/
  | resetting (r : Request)
  /-- the reset failed -/
  | refused (r : Request)
  /-- the reset failed and `operation` is free again -/
  | replying (r : Request)
  /-- the reset committed generation `g` -/
  | clearing (g : String) (next : Clear)
  /-- `ResetDemo` has returned `g` -/
  | saving (g : String)
  /-- the answer is written, the gate still held -/
  | returning (mode : Mode)
  deriving DecidableEq, Repr

namespace Visit

/-- The hold on `demoGate`. -/
def gate : Visit → Option Mode
  | absent => none
  | arrived _ => none
  | outside _ => none
  | gated r => some r.mode
  | handling r => some r.mode
  | returning mode => some mode
  | _ => some .write

/-- The hold on `operation`. -/
def operation : Visit → Option Mode
  | resetting _ => some .write
  | refused _ => some .write
  | clearing _ _ => some .write
  | _ => none

/-- The request is in its handler, and has not committed a reset. -/
def admitted : Visit → Option Request
  | handling r => some r
  | resetting r => some r
  | refused r => some r
  | replying r => some r
  | _ => none

/-- The generation that is committed and not yet in `DemoGeneration`. -/
def drawn : Visit → Option String
  | clearing g _ => some g
  | saving g => some g
  | _ => none

end Visit

/-! ### The worker -/

/-- Where a goroutine of the worker is. -/
inductive Thread
  | idle
  /-- in `Tick`, before `Paused` and the breaker are looked at -/
  | ticking
  | ready
  | claimed (j : Job)
  | published (j : Job)
  /-- local mode: no injected failure -/
  | consuming (j : Job)
  | processed (j : Job)
  /-- the acknowledgement is not dropped -/
  | acking (j : Job)
  | succeeded
  | failing (j : Job)
  | failed (j : Job)
  /-- in `releaseExpired` -/
  | sweeping
  deriving DecidableEq

namespace Thread

/-- The hold on `operation`. -/
def operation : Thread → Option Mode
  | idle => none
  | _ => some .write

/-- The job a `Tick` has claimed and not yet dealt with. -/
def job : Thread → Option Job
  | claimed j => some j
  | published j => some j
  | consuming j => some j
  | processed j => some j
  | acking j => some j
  | failing j => some j
  | failed j => some j
  | _ => none

end Thread

/-- What happened: a job claimed by thread `k`, a transaction of `k` on its job, the end of a reset's
transaction. -/
inductive Entry
  | claimed (k : ℕ) (j : Job)
  | acted (k : ℕ) (j : Job) (o : Op)
  | reset (committed : Bool)
  deriving DecidableEq

/-! ### Steps -/

/-- What the handlers other than the reset's do: calls of the two stores, and the demo's controls. -/
inductive Effect
  | reserve (tenant key : String) (inp : ReservationInput) (d : ReserveDraw) (fault : Option ℕ)
  | accept (tenant : String) (r : Receipt) (d : AcceptDraw) (fault : Option ℕ)
  | replay (tenant id : String) (d : Stamp) (fault : Option ℕ)
  | ingest (tenant : String) (b : Foottraffic.Model.Batch) (now : Int) (replace : Bool) (fault : Option ℕ)
  | emptySample (tenant : String) (fault : Option ℕ)
  | pause (paused : Bool)
  /-- the scenario `retry` -/
  | failNext
  /-- the scenario `crash` -/
  | dropAck

inductive VisitStep
  | arrive (r : Request)
  | turnAway
  | enter
  | check
  | effect (f : Effect)
  | lockOperation
  /-- the transaction of `Reset`, with the generation it draws and the statement at which it fails -/
  | reset (generation : String) (fault : Option ℕ)
  | unlockOperation
  | clear
  | save
  | leave

inductive ThreadStep
  | tick
  | look (now : Int)
  | claim (now : Int) (owner : String) (fault : Option ℕ)
  | publish (ok : Bool)
  | dispatched (fault : Option ℕ)
  | consumeFault
  | process (d : ProcessDraw) (fault : Option ℕ)
  | dropAck
  | complete (fault : Option ℕ)
  | markSuccess
  | markFailure (now : Int)
  | failJob (next : Int) (d : Stamp) (fault : Option ℕ)
  | sweep
  | release (tenant id : String) (now : Int) (d : Stamp) (fault : Option ℕ)
  | endSweep

/-- One step of a request, or of a goroutine of the worker. -/
inductive Event (n m : ℕ)
  | visit (i : Fin n) (a : VisitStep)
  | thread (k : Fin m) (a : ThreadStep)

/-- The process: whether it publishes, the database, the shared variables, the parties and the history. Of a
process that publishes, the goroutine of `PubSub.Receive` is left out: its `Consume` takes neither lock and
of the shared variables uses `FailNext` and `DropAck` only. -/
structure Server (n m : ℕ) where
  publisher : Bool
  db : Db
  demoGeneration : String
  controls : Controls
  visits : Fin n → Visit
  threads : Fin m → Thread
  log : List Entry

/-- `Reset` with a fault at a statement, if there is one. -/
def execReset (generation : String) (fault : Option ℕ) (db : Db) : Except ResetErr String × Db :=
  match fault with
  | none => demo.atomic (Localdemo.Reset.reset false generation) db
  | some n => demo.faulty (.storage (.storage .fault)) db n (Localdemo.Reset.reset false generation) db

namespace Server

variable {n m : ℕ} (H : Digest) (sha256 : String → String)

def visit (x : Server n m) (i : Fin n) (v : Visit) : Server n m :=
  { x with visits := Function.update x.visits i v }

def thread (x : Server n m) (k : Fin m) (t : Thread) : Server n m :=
  { x with threads := Function.update x.threads k t }

@[simp] theorem visit_self (x : Server n m) (i : Fin n) (v : Visit) : (x.visit i v).visits i = v :=
  Function.update_self ..

theorem visit_of_ne (x : Server n m) {i j : Fin n} (h : j ≠ i) (v : Visit) :
    (x.visit i v).visits j = x.visits j := Function.update_of_ne h ..

@[simp] theorem thread_self (x : Server n m) (k : Fin m) (t : Thread) : (x.thread k t).threads k = t :=
  Function.update_self ..

theorem thread_of_ne (x : Server n m) {k l : Fin m} (h : l ≠ k) (t : Thread) :
    (x.thread k t).threads l = x.threads l := Function.update_of_ne h ..

/-- Who holds `demoGate`. -/
def gate (x : Server n m) : Fin n → Option Mode := Visit.gate ∘ x.visits

/-- Who holds `operation`. -/
def operation (x : Server n m) : Fin n ⊕ Fin m → Option Mode :=
  Sum.elim (Visit.operation ∘ x.visits) (Thread.operation ∘ x.threads)

/-- A call of the settlement store. -/
def call (x : Server n m) (o : Op) (fault : Option ℕ) : Server n m :=
  { x with db := { x.db with core := (o.exec H fault x.db.core).2 } }

/-- A call of the foot-traffic store. -/
def callTraffic (x : Server n m) (o : Foottraffic.Outcome.Op) (fault : Option ℕ) : Server n m :=
  { x with db := { x.db with traffic := (o.exec sha256 fault x.db.traffic).2 } }

def effect (x : Server n m) : Effect → Server n m
  | .reserve tenant key inp d fault => x.call H (.reserve tenant key inp d) fault
  | .accept tenant r d fault => x.call H (.accept tenant r d) fault
  | .replay tenant id d fault => x.call H (.replay tenant id d) fault
  | .ingest tenant b now replace fault => x.callTraffic sha256 (.ingest tenant b now replace) fault
  | .emptySample tenant fault => x.callTraffic sha256 (.emptySample tenant) fault
  | .pause paused => { x with controls := { x.controls with paused } }
  | .failNext => { x with controls := { x.controls with failNext := 5 } }
  | .dropAck => { x with controls := { x.controls with dropAck := true } }

/-- A transaction of thread `k` on its job `j`, and where it goes on. -/
def act (x : Server n m) (k : Fin m) (j : Job) (o : Op) (fault : Option ℕ) (ok bad : Thread) : Server n m :=
  { x.call H o fault with log := .acted k j o :: x.log }.thread k
    (match (o.exec H fault x.db.core).1 with
      | .ok _ => ok
      | .error _ => bad)

/-- The end of `Reset`'s transaction. -/
def endReset (x : Server n m) (i : Fin n) (r : Request) : Except ResetErr String × Db → Server n m
  | (.ok g, db) => { x with db, log := .reset true :: x.log }.visit i (.clearing g .failNext)
  | (.error _, db) => { x with db, log := .reset false :: x.log }.visit i (.refused r)

/-- One store of `ResetLocalDemo`. -/
def clear (x : Server n m) (i : Fin n) (g : String) : Clear → Server n m
  | .failNext => { x with controls := { x.controls with failNext := 0 } }.visit i (.clearing g .dropAck)
  | .dropAck => { x with controls := { x.controls with dropAck := false } }.visit i (.clearing g .breaker)
  | .breaker => { x with controls := x.controls.markSuccess }.visit i (.clearing g .paused)
  | .paused => { x with controls := { x.controls with paused := false } }.visit i (.clearing g .unlock)
  | .unlock => x.visit i (.saving g)

/-- A step of request `i`. -/
def stepVisit (x : Server n m) (i : Fin n) (a : VisitStep) : Server n m :=
  match x.visits i, a with
  | .absent, .arrive r => x.visit i (.arrived r)
  | .arrived _, .turnAway => x.visit i .absent
  | .arrived r, .enter =>
    if !r.api then x.visit i (.outside r)
    else if Grants x.gate r.mode then x.visit i (.gated r)
    else x
  | .gated r, .check =>
    if r.stale x.demoGeneration then x.visit i (.returning r.mode) else x.visit i (.handling r)
  -- the handlers of `GET` and `HEAD` only read
  | .handling r, .effect f => if r.mutating && !r.isReset then x.effect H sha256 f else x
  | .handling r, .lockOperation =>
    if r.isReset && r.confirm == some true && Grants x.operation .write then x.visit i (.resetting r)
    else x
  | .resetting r, .reset generation fault =>
    if x.publisher then x.visit i (.refused r)
    else x.endReset i r (execReset generation fault x.db)
  | .refused r, .unlockOperation => x.visit i (.replying r)
  | .clearing g next, .clear => x.clear i g next
  | .saving g, .save => { x with demoGeneration := g }.visit i (.returning .write)
  | .outside _, .leave => x.visit i .absent
  | .handling _, .leave => x.visit i .absent
  | .replying _, .leave => x.visit i .absent
  | .returning _, .leave => x.visit i .absent
  | _, _ => x

/-- A step of thread `k`. -/
def stepThread (x : Server n m) (k : Fin m) (a : ThreadStep) : Server n m :=
  match x.threads k, a with
  | .idle, .tick => if Grants x.operation .write then x.thread k .ticking else x
  | .idle, .sweep => if Grants x.operation .write then x.thread k .sweeping else x
  | .ticking, .look now =>
    if x.controls.paused || x.controls.breakerOpen now then x.thread k .idle else x.thread k .ready
  | .ready, .claim now owner fault =>
    let o : Op := .claim false now owner
    match (o.exec H fault x.db.core : Except Err (Option Job) × Store).1 with
    | .ok (some j) => { x.call H o fault with log := .claimed k j :: x.log }.thread k (.claimed j)
    | _ => (x.call H o fault).thread k .idle
  | .claimed j, .publish ok =>
    if x.publisher then x.thread k (if ok then .published j else .failing j) else x
  | .published j, .dispatched fault => x.act H k j (.dispatched j) fault .succeeded (.failing j)
  | .claimed j, .consumeFault =>
    if x.publisher then x
    else if 0 < x.controls.failNext then
      { x with controls := { x.controls with failNext := x.controls.failNext - 1 } }.thread k (.failing j)
    else x.thread k (.consuming j)
  | .consuming j, .process d fault =>
    x.act H k j (.process j.tenant j.id d) fault (.processed j) (.failing j)
  | .processed j, .dropAck =>
    if x.controls.dropAck then
      { x with controls := { x.controls with dropAck := false } }.thread k (.failing j)
    else x.thread k (.acking j)
  | .acking j, .complete fault => x.act H k j (.complete j.tenant j.id) fault .succeeded (.failing j)
  | .succeeded, .markSuccess => { x with controls := x.controls.markSuccess }.thread k .idle
  | .failing j, .markFailure now => { x with controls := x.controls.markFailure now }.thread k (.failed j)
  | .failed j, .failJob next d fault => x.act H k j (.failJob j next d) fault .idle .idle
  | .sweeping, .release tenant id now d fault => x.call H (.release tenant id now d) fault
  | .sweeping, .endSweep => x.thread k .idle
  | _, _ => x

/-- **One step of the process.** A step its party is not at does nothing. -/
def step (x : Server n m) : Event n m → Server n m
  | .visit i a => x.stepVisit H sha256 i a
  | .thread k a => x.stepThread H k a

/-- The process after a list of steps. -/
def run (es : List (Event n m)) (x : Server n m) : Server n m := es.foldl (step H sha256) x

/-- The process as `main` starts it: `Initialize` has read the generation of the database, or drawn it. -/
def start (publisher : Bool) (db : Db) (controls : Controls) (id : String) : Server n m :=
  { publisher
    db := { db with generation := some (db.generation.getD id) }
    demoGeneration := db.generation.getD id
    controls
    visits := fun _ => .absent
    threads := fun _ => .idle
    log := [] }

/-- That is what `Initialize` answers and leaves. -/
theorem start_initializeDemo (publisher : Bool) (db : Db) (controls : Controls) (id : String) :
    let x : Server n m := start publisher db controls id
    Localdemo.Reset.initializeDemo false id db = (.ok x.demoGeneration, x.db) := by
  rcases db with ⟨core, traffic, _ | g⟩ <;> rfl

end Server

end Afterglow.Httpapi.Demo
