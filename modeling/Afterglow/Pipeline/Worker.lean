import Afterglow.Core.Run

/-! # Dispatchers, subscribers and the broker

The system of `internal/pipeline`: any number of dispatchers that run `Worker.Tick` and of subscribers
that run the callback of `PubSub.Receive`, over one store and one broker. A party is where it is in its
code between two of its steps (`Dispatcher`, `Subscriber`). Each step is one transaction of the store or
one exchange with the broker; it can fail at any statement, its answer can be lost, and a party can crash
between any two steps. The broker keeps a message until it is acknowledged and hands it out any number of
times, also to several subscribers at once. -/

namespace Afterglow.Pipeline.Worker

open Afterglow.Sql.Rows Afterglow.Sql.Txn Afterglow.Core.Model Afterglow.Core.Statements
open Afterglow.Core.Store Afterglow.Core.Run

/-- A message: its broker identifier, the job its data decodes to, its bytes and its schema attribute. -/
structure Message where
  mid : String
  body : Text Key2
  data : List UInt8
  schema : String
  deriving DecidableEq

/-- The envelope check of `Receive`: the tenant and the delivery the message names. -/
def Message.envelope (m : Message) : Option Key2 :=
  match m.body.unmarshal with
  | none => none
  | some (tenant, id) => if tenant = "" ∨ id = "" ∨ m.schema ≠ "1" then none else some (tenant, id)

/-- The message `Publish` sends for a job. -/
def publish (j : Job) (mid : String) (data : List UInt8) : Message :=
  ⟨mid, .json (j.tenant, j.id), data, "1"⟩

/-- Where a dispatcher is in `Tick`. -/
inductive Dispatcher
  | idle
  /-- it holds a job, and is about to publish it, or in local mode to process it -/
  | claimed (j : Job)
  /-- the job is published -/
  | published (j : Job)
  /-- local mode: the delivery is processed -/
  | processed (j : Job)
  /-- an error came back -/
  | failed (j : Job)
  deriving DecidableEq

/-- Where a subscriber is in the callback of `Receive`. -/
inductive Subscriber
  | idle
  | received (m : Message)
  /-- `Process` answered a status -/
  | processed (m : Message)
  /-- the message is to be quarantined for `reason` -/
  | poison (m : Message) (reason : String)
  /-- all is done but the acknowledgement -/
  | finished (m : Message)
  deriving DecidableEq

/-- The store, the messages published and not yet acknowledged, and where every party is. -/
structure System where
  store : Store
  broker : List Message
  dispatchers : ℕ → Dispatcher
  subscribers : ℕ → Subscriber

/-- Nothing has happened since `Migrate`. -/
def System.start : System := ⟨.empty, [], fun _ => .idle, fun _ => .idle⟩

/-- The steps. `fault` is the statement at which the database fails, `lost` says that the answer does not
arrive (also the demo's crash after commit). -/
inductive Action
  /-- a call from outside the pipeline -/
  | call (c : Call)
  | claim (i : ℕ) (postgres : Bool) (now : Int) (owner : String) (fault : Option ℕ) (lost : Bool)
  | publish (i : ℕ) (mid : String) (data : List UInt8) (lost : Bool)
  | dispatched (i : ℕ) (fault : Option ℕ) (lost : Bool)
  | process (i : ℕ) (d : ProcessDraw) (fault : Option ℕ) (lost : Bool)
  | complete (i : ℕ) (fault : Option ℕ) (lost : Bool)
  /-- the step fails before it does anything: a refused publish, the demo's injected failure -/
  | giveUp (i : ℕ)
  | failJob (i : ℕ) (next : Int) (d : Stamp) (fault : Option ℕ)
  | crash (i : ℕ)
  /-- the broker hands a message to subscriber `k` -/
  | deliver (k : ℕ) (mid : String)
  /-- the envelope check -/
  | inspect (k : ℕ)
  | consume (k : ℕ) (d : ProcessDraw) (fault : Option ℕ) (lost : Bool)
  | settle (k : ℕ) (fault : Option ℕ) (lost : Bool)
  | quarantine (k : ℕ) (postgres : Bool) (now : Int) (fault : Option ℕ) (lost : Bool)
  | ack (k : ℕ)
  /-- a nack or a crash: the message stays with the broker -/
  | nack (k : ℕ)

/-- What the dispatcher does after `Claim`. -/
def afterClaim (lost : Bool) : Except Err (Option Job) → Dispatcher
  | .ok (some j) => if lost then .idle else .claimed j
  | _ => .idle

/-- What the dispatcher does after a step on job `j` that should end in `ok`. -/
def afterStep {α : Type} (j : Job) (lost : Bool) (ok : Dispatcher) : Except Err α → Dispatcher
  | .ok _ => if lost then .failed j else ok
  | .error _ => .failed j

/-- What the subscriber does after `Process`: an unknown delivery is quarantined. -/
def afterConsume (m : Message) (lost : Bool) : Except Err Status → Subscriber
  | .ok _ => if lost then .idle else .processed m
  | .error .notFound => if lost then .idle else .poison m "unknown_delivery"
  | .error _ => .idle

/-- What the subscriber does after a last step. -/
def afterLast {α : Type} (m : Message) (lost : Bool) : Except Err α → Subscriber
  | .ok _ => if lost then .idle else .finished m
  | .error _ => .idle

namespace System

/-- Party `i` of the dispatchers moves. -/
def setDispatcher (x : System) (i : ℕ) (p : Dispatcher) : System :=
  { x with dispatchers := Function.update x.dispatchers i p }

/-- Party `k` of the subscribers moves. -/
def setSubscriber (x : System) (k : ℕ) (p : Subscriber) : System :=
  { x with subscribers := Function.update x.subscribers k p }

/-- A dispatcher's transaction. -/
def byDispatcher (H : Digest) (x : System) (i : ℕ) (o : Op) (fault : Option ℕ)
    (after : Except Err o.Ans → Dispatcher) : System :=
  let r := o.exec H fault x.store
  { x with store := r.2 }.setDispatcher i (after r.1)

/-- A subscriber's transaction. -/
def bySubscriber (H : Digest) (x : System) (k : ℕ) (o : Op) (fault : Option ℕ)
    (after : Except Err o.Ans → Subscriber) : System :=
  let r := o.exec H fault x.store
  { x with store := r.2 }.setSubscriber k (after r.1)

/-- **One step of the system.** A step its party is not at does nothing. -/
def step (H : Digest) (x : System) : Action → System
  | .call c => { x with store := c.step H x.store }
  | .claim i postgres now owner fault lost =>
    match x.dispatchers i with
    | .idle => x.byDispatcher H i (.claim postgres now owner) fault (afterClaim lost)
    | _ => x
  | .publish i mid data lost =>
    match x.dispatchers i with
    | .claimed j =>
      { x with broker := x.broker ++ [Worker.publish j mid data] }.setDispatcher i
        (if lost then .failed j else .published j)
    | _ => x
  | .dispatched i fault lost =>
    match x.dispatchers i with
    | .published j => x.byDispatcher H i (.dispatched j) fault (afterStep j lost .idle)
    | _ => x
  | .process i d fault lost =>
    match x.dispatchers i with
    | .claimed j => x.byDispatcher H i (.process j.tenant j.id d) fault (afterStep j lost (.processed j))
    | _ => x
  | .complete i fault lost =>
    match x.dispatchers i with
    | .processed j => x.byDispatcher H i (.complete j.tenant j.id) fault (afterStep j lost .idle)
    | _ => x
  | .giveUp i =>
    match x.dispatchers i with
    | .claimed j => x.setDispatcher i (.failed j)
    | _ => x
  | .failJob i next d fault =>
    match x.dispatchers i with
    | .failed j => x.byDispatcher H i (.failJob j next d) fault fun _ => .idle
    | _ => x
  | .crash i => x.setDispatcher i .idle
  | .deliver k mid =>
    match x.subscribers k, x.broker.find? fun m => m.mid = mid with
    | .idle, some m => x.setSubscriber k (.received m)
    | _, _ => x
  | .inspect k =>
    match x.subscribers k with
    | .received m =>
      match m.envelope with
      | none => x.setSubscriber k (.poison m "invalid_transport_envelope")
      | some _ => x
    | _ => x
  | .consume k d fault lost =>
    match x.subscribers k with
    | .received m =>
      match m.envelope with
      | none => x
      | some (tenant, id) => x.bySubscriber H k (.process tenant id d) fault (afterConsume m lost)
    | _ => x
  | .settle k fault lost =>
    match x.subscribers k with
    | .processed m =>
      match m.envelope with
      | none => x
      | some (tenant, id) => x.bySubscriber H k (.complete tenant id) fault (afterLast m lost)
    | _ => x
  | .quarantine k postgres now fault lost =>
    match x.subscribers k with
    | .poison m reason =>
      x.bySubscriber H k (.quarantineTransport postgres m.mid m.data reason now) fault (afterLast m lost)
    | _ => x
  | .ack k =>
    match x.subscribers k with
    | .finished m =>
      { x with broker := x.broker.filter fun y => y ≠ m }.setSubscriber k .idle
    | _ => x
  | .nack k => x.setSubscriber k .idle

/-- The system after a list of steps. -/
def run (H : Digest) (as : List Action) (x : System) : System := as.foldl (step H) x

end System

end Afterglow.Pipeline.Worker
