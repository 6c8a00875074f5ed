import Afterglow.Core.Outcome

/-! # Runs of the store

`Op` is one call of a method of `core.Store`, with its arguments and all it draws from the system.
`Op.exec` runs it as one transaction, alone, with or without a storage failure at some statement. A run
is any list of such calls. `Change` collects, over all methods, what one call can do to the store
(`Op.change`); it is the only thing the invariants of a run look at (`run_invariant`, `run_rel`). -/

namespace Afterglow.Core.Run

open Afterglow.Sql.Rows Afterglow.Sql.Txn Afterglow.Core.Model Afterglow.Core.Statements
open Afterglow.Core.Store Afterglow.Core.Outcome

/-- One call of a method. `release` is issued by `ReleaseExpired` from a list it read before. -/
inductive Op
  | seed (tenant : String)
  | reserve (tenant key : String) (inp : ReservationInput) (d : ReserveDraw)
  | accept (tenant : String) (r : Receipt) (d : AcceptDraw)
  | process (tenant id : String) (d : ProcessDraw)
  | release (tenant id : String) (now : Int) (d : Stamp)
  | claim (postgres : Bool) (now : Int) (owner : String)
  | dispatched (j : Job)
  | complete (tenant id : String)
  | failJob (j : Job) (next : Int) (d : Stamp)
  | replay (tenant id : String) (d : Stamp)
  | quarantineTransport (postgres : Bool) (id : String) (payload : List UInt8) (reason : String)
      (now : Int)
  deriving DecidableEq

/-- What the method answers. -/
def Op.Ans : Op → Type
  | .reserve .. => Reservation × Bool
  | .accept .. => String × Bool
  | .process .. => Status
  | .claim .. => Option Job
  | _ => Unit

/-- The transaction of the method. -/
def Op.prog (H : Digest) : (o : Op) → Tx o.Ans
  | .seed tenant => Store.seed tenant
  | .reserve tenant key inp d => Store.reserve H tenant key inp d
  | .accept tenant r d => Store.accept H tenant r d
  | .process tenant id d => Store.process tenant id d
  | .release tenant id now d => Store.release tenant id now d
  | .claim postgres now owner => Store.claim postgres now owner
  | .dispatched j => Store.dispatched j
  | .complete tenant id => Store.complete tenant id
  | .failJob j next d => Store.failJob j next d
  | .replay tenant id d => Store.replay tenant id d
  | .quarantineTransport postgres id payload reason now =>
    Store.quarantineTransport postgres id payload reason now

/-- Run the call alone; `fault` is the statement at which the database fails, if it does. -/
def Op.exec (H : Digest) (o : Op) (fault : Option ℕ) (s : Store) : Except Err o.Ans × Store :=
  match fault with
  | none => core.atomic (o.prog H) s
  | some n => core.faulty (.storage .fault) s n (o.prog H) s

/-- A call and the fault it meets. -/
structure Call where
  op : Op
  fault : Option ℕ
  deriving DecidableEq

/-- The store after a call. -/
def Call.step (H : Digest) (s : Store) (c : Call) : Store := (c.op.exec H c.fault s).2

/-- The store after a run. -/
def run (H : Digest) (cs : List Call) (s : Store) : Store := cs.foldl (Call.step H) s

/-- A call that meets a fault answers as without it, or answers the fault and changes nothing. -/
theorem Op.exec_cases (H : Digest) (o : Op) (fault : Option ℕ) (s : Store) :
    o.exec H fault s = core.atomic (o.prog H) s ∨ o.exec H fault s = (.error (.storage .fault), s) := by
  cases fault with
  | none => exact Or.inl rfl
  | some n => exact core.faulty_cases (.storage .fault) s n (o.prog H) s

/-! ### What one call can do -/

/-- **What one call can do to the store `s`.** -/
inductive Change (H : Digest) (s : Store) : Op → Store → Prop
  | same (o : Op) : Change H s o s
  | seeded {tenant : String} {s' : Store} (h : Seeded tenant s s') : Change H s (.seed tenant) s'
  | held {tenant key : String} {inp : ReservationInput} {d : ReserveDraw} (c : CampaignRow)
      (hv : validReserve key inp = true)
      (hc : s.campaigns.find? (tenant, inp.campaignID) = some c)
      (hk : byKey s tenant key = none)
      (hs : s.screens.find? inp.screenID ≠ none)
      (hb : inp.cost ≤ c.budget - c.spent - c.reserved)
      (hck : CampaignRow.check { c with reserved := c.reserved + inp.cost } = .ok ())
      (hid : s.reservations.find? (tenant, d.id) = none)
      (ha : s.audit.find? d.stamp.id = none) :
      Change H s (.reserve tenant key inp d)
        (holding s c (newReservation H tenant key inp d) (reservedAudit tenant inp d))
  | accepted {tenant : String} {r : Receipt} {d : AcceptDraw} (hv : validReceipt r = true)
      (hk : byEvent s tenant r.eventID = none) (hf : AcceptFresh tenant d s) :
      Change H s (.accept tenant r d)
        (accepting s (newDelivery H tenant r d) d.trace (acceptedAudit tenant d))
  | seen {tenant id : String} {d : ProcessDraw} (dl : DeliveryRow)
      (hd : s.deliveries.find? (tenant, id) = some dl) (hs : dl.status ≠ .accepted) :
      Change H s (.process tenant id d)
        { s with deliveries := s.deliveries.put { dl with attempts := dl.attempts + 1 } }
  | decided {tenant id : String} {d : ProcessDraw} (dl : DeliveryRow) (status : Status)
      (reason : Reason) (hd : s.deliveries.find? (tenant, id) = some dl) (hs : dl.status = .accepted)
      (hv : verdict s tenant d.now dl.payload = (status, reason)) (hne : status ≠ .settled)
      (ha : s.audit.find? d.stamp.id = none) :
      Change H s (.process tenant id d) (deciding s dl status reason d)
  | settled {tenant id : String} {d : ProcessDraw} (dl : DeliveryRow) (p : Receipt)
      (r : ReservationRow) (hd : s.deliveries.find? (tenant, id) = some dl)
      (hs : dl.status = .accepted) (hp : dl.payload = .json p)
      (hv : verdict s tenant d.now dl.payload = (.settled, .matched))
      (hr : s.reservations.find? (tenant, p.reservationID) = some r) (hh : r.state = .held)
      (hck : ∀ c, s.campaigns.find? (r.tenant, r.campaign) = some c →
        (charge r.cost c).check = .ok ())
      (ha : s.audit.find? d.stamp.id = none) :
      Change H s (.process tenant id d) (deciding (settling s r) dl .settled .matched d)
  | released {tenant id : String} {now : Int} {d : Stamp} (r : ReservationRow)
      (hr : s.reservations.find? (tenant, id) = some r) (hh : r.state = .held)
      (he : r.expires < now - 900000)
      (hck : ∀ c, s.campaigns.find? (r.tenant, r.campaign) = some c →
        (refund r.cost c).check = .ok ())
      (ha : s.audit.find? d.id = none) :
      Change H s (.release tenant id now d) (releasing s r (releasedAudit tenant id d))
  | leased {postgres : Bool} {now : Int} {owner : String} (o : OutboxRow)
      (h : firstDue (claimable s postgres Engine.alone now) = some o) :
      Change H s (.claim postgres now owner) { s with outbox := s.outbox.put (leasedRow o owner now) }
  | dispatched {j : Job} (o : OutboxRow) (ho : s.outbox.find? (j.tenant, j.id) = some o)
      (hj : Job.holds j o) :
      Change H s (.dispatched j) { s with outbox := s.outbox.put (freedRow o .dispatched) }
  | finished {tenant id : String} (dl : DeliveryRow)
      (hd : s.deliveries.find? (tenant, id) = some dl) (hs : dl.status ≠ .accepted) :
      Change H s (.complete tenant id)
        { s with outbox := s.outbox.modify (tenant, id) (freedRow · .done) }
  | retried {j : Job} {next : Int} {d : Stamp} (o : OutboxRow)
      (ho : s.outbox.find? (j.tenant, j.id) = some o) (hj : Job.holds j o)
      (hs : failState j = .pending) (ha : s.audit.find? d.id = none) :
      Change H s (.failJob j next d) { s with
        outbox := s.outbox.put (failedRow o j next), audit := s.audit.put (retryAudit j d) }
  | died {j : Job} {next : Int} {d : Stamp} (o : OutboxRow)
      (ho : s.outbox.find? (j.tenant, j.id) = some o) (hj : Job.holds j o)
      (hs : failState j = .dead) (ha : s.audit.find? d.id = none) :
      Change H s (.failJob j next d) { s with
        deliveries := s.deliveries.modify (j.tenant, j.id) deadRow
        outbox := s.outbox.put (failedRow o j next), audit := s.audit.put (retryAudit j d) }
  | reopened {tenant id : String} {d : Stamp} (dl : DeliveryRow)
      (hd : s.deliveries.find? (tenant, id) = some dl)
      (hs : dl.status = .failed ∨ dl.status = .quarantined) (ha : s.audit.find? d.id = none) :
      Change H s (.replay tenant id d) { s with
        deliveries := s.deliveries.put (reopenedRow dl)
        outbox := s.outbox.modify (tenant, id) requeuedRow
        audit := s.audit.put (replayedAudit tenant id d) }
  | poisoned {postgres : Bool} {id : String} {payload : List UInt8} {reason : String} {now : Int}
      (q : Table QuarantineRow.id) :
      Change H s (.quarantineTransport postgres id payload reason now) { s with quarantine := q }

section Outcome

variable {H : Digest} {s : Store}

theorem change_reserve {tenant key : String} {inp : ReservationInput} {d : ReserveDraw}
    {x : Except Err (Reservation × Bool) × Store} (h : ReserveOut H tenant key inp d s x) :
    Change H s (.reserve tenant key inp d) x.2 := by
  cases h
  case made c hv hc hk hs hb hck hid ha => exact .held c hv hc hk hs hb hck hid ha
  all_goals exact .same _

theorem change_accept {tenant : String} {r : Receipt} {d : AcceptDraw}
    {x : Except Err (String × Bool) × Store} (h : AcceptOut H tenant r d s x) :
    Change H s (.accept tenant r d) x.2 := by
  cases h
  case made hv hk hf => exact .accepted hv hk hf
  all_goals exact .same _

theorem change_process {tenant id : String} {d : ProcessDraw} {x : Except Err Status × Store}
    (h : ProcessOut tenant id d s x) : Change H s (.process tenant id d) x.2 := by
  cases h
  case seen dl hd hs => exact .seen dl hd hs
  case decided dl status reason hd hs hv hne ha => exact .decided dl status reason hd hs hv hne ha
  case settled dl p r hd hs hp hv hr hh hck ha => exact .settled dl p r hd hs hp hv hr hh hck ha
  all_goals exact .same _

theorem change_release {tenant id : String} {now : Int} {d : Stamp} {x : Except Err Unit × Store}
    (h : ReleaseOut tenant id now d s x) : Change H s (.release tenant id now d) x.2 := by
  cases h
  case released r hr hh he hck ha => exact .released r hr hh he hck ha
  all_goals exact .same _

theorem change_claim {postgres : Bool} {now : Int} {owner : String}
    {x : Except Err (Option Job) × Store} (h : ClaimOut postgres now owner s x) :
    Change H s (.claim postgres now owner) x.2 := by
  cases h
  case claimed o trace h => exact .leased o h
  all_goals exact .same _

theorem change_dispatched {j : Job} {x : Except Err Unit × Store} (h : DispatchedOut j s x) :
    Change H s (.dispatched j) x.2 := by
  cases h
  case marked o ho hj => exact .dispatched o ho hj
  exact .same _

theorem change_complete {tenant id : String} {x : Except Err Unit × Store}
    (h : CompleteOut tenant id s x) : Change H s (.complete tenant id) x.2 := by
  cases h
  case finished dl hd hs => exact .finished dl hd hs
  all_goals exact .same _

theorem change_failJob {j : Job} {next : Int} {d : Stamp} {x : Except Err Unit × Store}
    (h : FailOut j next d s x) : Change H s (.failJob j next d) x.2 := by
  cases h
  case retried o ho hj hs ha => exact .retried o ho hj hs ha
  case died o ho hj hs ha => exact .died o ho hj hs ha
  all_goals exact .same _

theorem change_replay {tenant id : String} {d : Stamp} {x : Except Err Unit × Store}
    (h : ReplayOut tenant id d s x) : Change H s (.replay tenant id d) x.2 := by
  cases h
  case reopened dl hd hs ha => exact .reopened dl hd hs ha
  exact .same _

end Outcome

theorem Op.change_atomic (H : Digest) (o : Op) (s : Store) :
    Change H s o (core.atomic (o.prog H) s).2 := by
  cases o with
  | seed tenant => exact .seeded (seed_out tenant s)
  | reserve tenant key inp d => exact change_reserve (reserve_out H tenant key inp d s)
  | accept tenant r d => exact change_accept (accept_out H tenant r d s)
  | process tenant id d => exact change_process (process_out tenant id d s)
  | release tenant id now d => exact change_release (release_out tenant id now d s)
  | claim postgres now owner => exact change_claim (claim_out postgres now owner s)
  | dispatched j => exact change_dispatched (dispatched_out j s)
  | complete tenant id => exact change_complete (complete_out tenant id s)
  | failJob j next d => exact change_failJob (failJob_out j next d s)
  | replay tenant id d => exact change_replay (replay_out tenant id d s)
  | quarantineTransport postgres id payload reason now =>
    obtain ⟨q, hq⟩ := quarantineTransport_out postgres id payload reason now s
    show Change H s _ (core.atomic (Store.quarantineTransport postgres id payload reason now) s).2
    rw [hq]; exact .poisoned q

/-- **What one call does**, with or without a fault. -/
theorem Op.change (H : Digest) (o : Op) (fault : Option ℕ) (s : Store) :
    Change H s o (o.exec H fault s).2 := by
  rcases o.exec_cases H fault s with h | h
  · rw [h]; exact o.change_atomic H s
  · rw [h]; exact .same o

/-! ### Rules for runs -/

theorem run_cons (H : Digest) (c : Call) (cs : List Call) (s : Store) :
    run H (c :: cs) s = run H cs (c.step H s) := rfl

theorem run_append (H : Digest) (as bs : List Call) (s : Store) :
    run H (as ++ bs) s = run H bs (run H as s) := List.foldl_append

/-- What every change of a run's calls keeps, the run keeps. -/
theorem run_invariant {H : Digest} {A : Op → Prop} {I : Store → Prop}
    (hstep : ∀ o s s', A o → I s → Change H s o s' → I s') :
    ∀ (cs : List Call) (s : Store), (∀ c ∈ cs, A c.op) → I s → I (run H cs s)
  | [], _, _, h => h
  | c :: cs, s, hA, h => by
    rw [run_cons]
    refine run_invariant hstep cs _ (fun x hx => hA x (List.mem_cons_of_mem _ hx)) ?_
    exact hstep c.op s _ (hA c List.mem_cons_self) h (c.op.change H c.fault s)

/-- A reflexive and transitive relation that every change of a run's calls keeps, the run keeps. -/
theorem run_rel {H : Digest} {A : Op → Prop} {R : Store → Store → Prop} (hrefl : ∀ s, R s s)
    (htrans : ∀ a b c, R a b → R b c → R a c) (hstep : ∀ o s s', A o → Change H s o s' → R s s')
    (cs : List Call) (s : Store) (hA : ∀ c ∈ cs, A c.op) : R s (run H cs s) :=
  run_invariant (I := R s) (fun o b c hA h hc => htrans s b c h (hstep o b c hA hc)) cs s hA (hrefl s)

end Afterglow.Core.Run
