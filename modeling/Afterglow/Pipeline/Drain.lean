import Afterglow.Core.Receipts
import Afterglow.Pipeline.Tick

/-! # The queue drains

A worker that keeps ticking empties its queue, whatever the weather. An intent has `remaining` claims
left, five for a new one, and a tick that claims it takes one of them: it closes the intent, or puts it
back with one claim less and due again after twelve seconds at most. So no tick adds to the `work` of the
store (`tick_cases`), and a tick that comes late enough after the others finds an intent to claim, or none
is open.

A window is a stretch of ticks whose last one is late with respect to all ticks before the window. In a
window either some tick claims, or the last one shows that nothing is open; with more windows than work
the queue is empty (`drained`). -/

namespace Afterglow.Pipeline.Drain

open Afterglow.Sql.Rows Afterglow.Sql.Txn Afterglow.Core.Model Afterglow.Core.Statements
open Afterglow.Core.Store Afterglow.Core.Outcome Afterglow.Core.Run Afterglow.Core.Intent
open Afterglow.Core.Receipts Afterglow.Localdemo.Reset Afterglow.Httpapi.Demo
open Afterglow.Pipeline.Redelivery Afterglow.Pipeline.Tick

/-! ### Carriers -/

/-- Every persisted trace can be read back. -/
def Carried (s : Store) : Prop := ∀ x ∈ s.context, ∃ trace, x.carrier = .json trace

theorem Carried.change {H : Digest} {o : Op} {s s' : Store} (h : Carried s) (hc : Change H s o s') :
    Carried s' := by
  rcases record_cases hc with ⟨tenant, r, d, -, rfl⟩ | ⟨-, hctx, -⟩
  · exact Table.forall_put h ⟨d.trace, rfl⟩
  · unfold Carried
    rw [hctx]
    exact h

theorem carried_runEvents (H : Digest) (es : List Localdemo.Reset.Event) :
    Carried (runEvents H es Db.empty).core :=
  runEvents_invariant (fun _ _ _ h hc => h.change hc)
    (fun _ _ _ x hx => absurd hx (by simp [resetTo, Store.empty])) es Db.empty (fun x hx => absurd hx (by simp [Db.empty, Store.empty]))

/-! ### Accepted deliveries have live intents -/

/-- An intent that is done or dead belongs to a decided delivery. -/
def Undead (s : Store) : Prop :=
  ∀ k status o, entry s k = some (status, o) → o.state = .done ∨ o.state = .dead → status ≠ .accepted

theorem Undead.change {H : Digest} {op : Op} {s s' : Store} (h : Undead s) (hp : Paired s)
    (hc : Change H s op s') : Undead s' := by
  intro k status o he hs
  have hk := move_of_change hp hc k
  rw [he] at hk
  generalize hb : entry s k = b at hk
  cases hk with
  | same => exact h k status o hb hs
  | born => simp at hs
  | judged _ hst => exact hst
  | leased => simp [leasedRow] at hs
  | dispatched => simp [freedRow] at hs
  | finished _ hst => exact hst
  | retried _ _ hst => simp [failedRow, freedRow, hst] at hs
  | died _ _ _ hst => exact hst
  | reopened => simp [requeuedRow] at hs

theorem undead_runEvents (H : Digest) (es : List Localdemo.Reset.Event) :
    Undead (runEvents H es Db.empty).core := by
  have h : Paired (runEvents H es Db.empty).core ∧ Undead (runEvents H es Db.empty).core := by
    refine runEvents_invariant (I := fun s => Paired s ∧ Undead s)
      (fun _ _ _ h hc => ⟨h.1.change hc, h.2.change h.1 hc⟩) (fun db g h => ⟨?_, ?_⟩) es Db.empty
      ⟨Paired.empty, ?_⟩
    · exact fun k => ⟨fun _ => rfl, fun _ => rfl⟩
    · intro k status o he; cases he
    · intro k status o he; cases he
  exact h.2

/-! ### What a tick's transactions do to the queue -/

section Calls

variable {H : Digest} {s : Store}

theorem foldl_eq_none {α : Type} {f : Option α → α → Option α} (hf : ∀ m x, f m x ≠ none) :
    ∀ (l : List α) (m : Option α), l.foldl f m = none → l = []
  | [], _, _ => rfl
  | x :: l, m, h => by
    have hl : l = [] := foldl_eq_none hf l (f m x) h
    subst hl
    exact absurd h (hf m x)

theorem firstDue_none {l : List OutboxRow} (h : firstDue l = none) : l = [] := by
  unfold firstDue at h
  refine foldl_eq_none (fun m o => ?_) l none h
  cases m with
  | none => exact Option.some_ne_none o
  | some x =>
    dsimp only
    split_ifs <;> exact Option.some_ne_none _

/-- A claim without a fault is answered. -/
theorem claim_ok (hc : Carried s) (postgres : Bool) (now : Int) (owner : String) :
    ∃ a, ((Op.claim postgres now owner).exec H none s).1 = .ok a := by
  show ∃ a, (core.runFrom s (claim postgres now owner) s).1 = .ok a
  unfold claim
  rw [core.runFrom_exec_ok rfl]
  cases ho : firstDue (claimable s postgres Engine.alone now) with
  | none => exact ⟨none, rfl⟩
  | some o =>
    have hfind : s.outbox.find? (o.tenant, o.id) = some o := (claimable_mem ho).1
    simp only [Option.map_some, Option.toList_some]
    have hlock : core.writeAll (if postgres = true then [Write.outbox o] else []) s = s := by
      split_ifs
      · show { s with outbox := s.outbox.put o } = s
        rw [Table.put_self hfind]
      · rfl
    rw [hlock]
    refine core.runFrom_exec_total (C := fun x => ∃ a, x.1 = .ok a) (updateRow_unchecked _ _ _ _ _)
      fun n ws he => ?_
    rw [eval_core, evalStmt] at he
    rw [effect_outbox he, Table.modify_of_find? _ hfind, core.runFrom_read rfl]
    cases hx : s.context.find? (o.tenant, o.id) with
    | none => exact ⟨_, rfl⟩
    | some x =>
      obtain ⟨trace, ht⟩ := hc x (Table.mem_of_find? hx)
      simp only [Option.map_some, ht]
      exact ⟨_, rfl⟩

/-- **A claim takes the first due intent**, if there is one. -/
theorem claim_takes (hc : Carried s) (postgres : Bool) (now : Int) (owner : String) :
    firstDue (claimable s postgres Engine.alone now) = none ∧
        (Op.claim postgres now owner).exec H none s = (.ok none, s) ∨
      ∃ o trace, firstDue (claimable s postgres Engine.alone now) = some o ∧
        (Op.claim postgres now owner).exec H none s =
          (.ok (some ⟨o.tenant, o.id, owner, o.attempts + 1, trace⟩),
            { s with outbox := s.outbox.put (leasedRow o owner now) }) := by
  obtain ⟨a, ha⟩ := claim_ok (H := H) hc postgres now owner
  have hout : ClaimOut postgres now owner s ((Op.claim postgres now owner).exec H none s) :=
    claim_out postgres now owner s
  generalize (Op.claim postgres now owner).exec H none s = x at ha hout
  cases hout with
  | refused e => cases ha
  | idle h => exact Or.inl ⟨h, rfl⟩
  | claimed o trace h => exact Or.inr ⟨o, trace, h, rfl⟩

/-- `Process` leaves the queue, and of the audit's identifiers takes its own at most. -/
theorem process_queue (tenant id : String) (d : ProcessDraw) (fault : Option ℕ) :
    let s' := ((Op.process tenant id d).exec H fault s).2
    s'.outbox = s.outbox ∧ s'.context = s.context ∧
      ∀ i, i ≠ d.stamp.id → s'.audit.find? i = s.audit.find? i := by
  intro s'
  have hc : Change H s (.process tenant id d) s' := (Op.process tenant id d).change H fault s
  clear_value s'
  cases hc with
  | same => exact ⟨rfl, rfl, fun _ _ => rfl⟩
  | seen => exact ⟨rfl, rfl, fun _ _ => rfl⟩
  | decided => exact ⟨rfl, rfl, fun i hi => Table.find?_put_ne fun h => hi h.symm⟩
  | settled => exact ⟨rfl, rfl, fun i hi => Table.find?_put_ne fun h => hi h.symm⟩

/-- `Complete` on a decided delivery closes its intent, or fails and changes nothing. -/
theorem complete_queue {tenant id : String} (hdec : Decided s (tenant, id)) (fault : Option ℕ) :
    let x : Except Err Unit × Store := (Op.complete tenant id).exec H fault s
    (x.1.isOk = true ∧ x.2 = { s with outbox := s.outbox.modify (tenant, id) (freedRow · .done) }) ∨
      (x.1.isOk = false ∧ x.2 = s) := by
  intro x
  rcases (Op.complete tenant id).exec_cases H fault s with h | h
  · have hout : CompleteOut tenant id s x := by
      show CompleteOut tenant id s ((Op.complete tenant id).exec H fault s)
      rw [h]; exact complete_out tenant id s
    clear_value x
    obtain ⟨dl, hd, hs⟩ := hdec
    cases hout with
    | refused hno => rw [hd] at hno; cases hno
    | idle dl' hd' hs' =>
      cases hd.symm.trans hd'
      exact absurd hs' hs
    | finished => exact Or.inl ⟨rfl, rfl⟩
  · exact Or.inr ⟨congrArg (fun y : Except Err Unit × Store => y.1.isOk) h, congrArg Prod.snd h⟩

/-- **`FailJob` of the job that holds the lease** puts the intent back, or closes it as dead and with it a
delivery that is still accepted. -/
theorem failJob_queue {j : Job} {o : OutboxRow} (ho : s.outbox.find? (j.tenant, j.id) = some o)
    (hj : Job.holds j o) (next : Int) {d : Stamp} (ha : s.audit.find? d.id = none) :
    let s' := ((Op.failJob j next d).exec H none s).2
    s'.outbox = s.outbox.put (failedRow o j next) ∧ s'.context = s.context ∧
      (∀ i, i ≠ d.id → s'.audit.find? i = s.audit.find? i) ∧ s'.reservations = s.reservations ∧
      s'.deliveries =
        if failState j = .dead then s.deliveries.modify (j.tenant, j.id) deadRow else s.deliveries := by
  intro s'
  let C : Except Err Unit × Store → Prop := fun x =>
    x.2.outbox = s.outbox.put (failedRow o j next) ∧ x.2.context = s.context ∧
      (∀ i, i ≠ d.id → x.2.audit.find? i = s.audit.find? i) ∧ x.2.reservations = s.reservations ∧
      x.2.deliveries =
        if failState j = .dead then s.deliveries.modify (j.tenant, j.id) deadRow else s.deliveries
  show C (core.runFrom s (failJob j next d) s)
  unfold failJob
  refine runFrom_lockDelivery fun _ => ?_
  refine core.runFrom_exec_total (updateRow_unchecked _ _ _ _ _) fun n ws he => ?_
  rw [eval_core, evalStmt] at he
  rcases updateRow_cases he with ⟨-, -, hno⟩ | ⟨o', ho', -, -, rfl, rfl⟩
  · exact absurd (hno o ho) (by simpa [Job.holds] using hj)
  cases ho.symm.trans ho'
  simp only [Nat.one_ne_zero, if_false]
  split_ifs with hs
  · refine core.runFrom_exec_total (updateRow_unchecked _ _ _ _ _) fun n ws he => ?_
    rw [eval_core, evalStmt] at he
    rw [effect_failDelivery he]
    refine runFrom_audit (fun hno => absurd ha hno) fun _ => ?_
    exact ⟨rfl, rfl, fun i hi => Table.find?_put_ne fun h => hi h.symm, rfl, (if_pos hs).symm⟩
  · refine runFrom_audit (fun hno => absurd ha hno) fun _ => ?_
    exact ⟨rfl, rfl, fun i hi => Table.find?_put_ne fun h => hi h.symm, rfl, (if_neg hs).symm⟩

end Calls

/-! ### The work of a store -/

/-- The claims an intent has left: the claim of its fifth attempt, or of a later one, is the last. -/
def remaining (o : OutboxRow) : ℕ :=
  if o.state = .pending ∨ o.state = .leased then 5 - min o.attempts 4 else 0

/-- The claims all intents have left. -/
def work (s : Store) : ℕ := s.outbox.sum remaining

/-- What a tick that claims the intent `o` makes of it. -/
structure Turned (d : TickDraw) (o o' : OutboxRow) : Prop where
  key : o'.pk = o.pk
  work : remaining o' + 1 ≤ remaining o
  state : o'.state ≠ .leased ∧ o'.state ≠ .dispatched
  lease : o'.leaseUntil = 0
  next : o'.state = .pending → o'.nextAt ≤ d.later / 1000000 + 12000

theorem open_of_due {now : Int} {o : OutboxRow} (h : OutboxRow.due now o = true) :
    o.state = .pending ∨ o.state = .leased := by
  simp only [OutboxRow.due, Bool.and_eq_true, Bool.or_eq_true, beq_iff_eq] at h
  exact h.1.1

section Turned

variable {d : TickDraw} {o : OutboxRow} (hdue : OutboxRow.due d.now o = true)

include hdue

theorem turned_done : Turned d o (freedRow (leasedRow o d.owner d.now) .done) where
  key := rfl
  work := by
    have hopen := open_of_due hdue
    simp only [remaining, freedRow, leasedRow, reduceCtorEq, or_self, if_false, hopen, if_true]
    omega
  state := by simp [freedRow]
  lease := rfl
  next h := by simp [freedRow] at h

theorem turned_failed {j : Job} (hj : j.attempts = o.attempts + 1) :
    Turned d o (failedRow (leasedRow o d.owner d.now) j (d.next j)) := by
  have hopen := open_of_due hdue
  have hstate : (failedRow (leasedRow o d.owner d.now) j (d.next j)).state = failState j := rfl
  refine ⟨rfl, ?_, ?_, rfl, fun _ => d.next_le j⟩
  · have hatt : (failedRow (leasedRow o d.owner d.now) j (d.next j)).attempts = o.attempts + 1 := rfl
    unfold remaining
    rw [hstate, hatt, if_pos hopen]
    unfold failState
    split_ifs <;> simp at * <;> omega
  · rw [hstate]
    unfold failState
    split_ifs <;> simp

end Turned

/-! ### One tick -/

/-- A worker in local mode that is not paused, on a store it can claim from. -/
structure Live (w : Worker) : Prop where
  publisher : w.publisher = false
  paused : w.controls.paused = false
  carried : Carried w.store

/-- A tick finds nothing to do. -/
def Idle (w : Worker) (d : TickDraw) : Prop :=
  w.controls.breakerOpen d.look = true ∨ firstDue (claimable w.store false Engine.alone d.now) = none

section Tick

variable {H : Digest} {d : TickDraw} {w : Worker}

/-- What the part of a tick that can fail does: it closes the intent, or leaves it leased. -/
structure Dispatched (d : TickDraw) (w : Worker) (o : OutboxRow) (r : Bool × Worker) : Prop where
  outbox : r.1 = true ∧ r.2.store.outbox = w.store.outbox.put (freedRow o .done) ∨
    r.1 = false ∧ r.2.store.outbox = w.store.outbox
  audit : ∀ i, i ≠ d.process.stamp.id → r.2.store.audit.find? i = w.store.audit.find? i
  openUntil : r.2.controls.openUntil = w.controls.openUntil

theorem dispatch_out {j : Job} {o : OutboxRow} (hlocal : w.publisher = false)
    (ho : w.store.outbox.find? (j.tenant, j.id) = some o) : Dispatched d w o (w.dispatch H d j) := by
  unfold Worker.dispatch
  rw [if_neg (by rw [hlocal]; nofun)]
  by_cases h : 0 < w.controls.failNext
  · rw [Worker.consume_injected h]
    exact ⟨Or.inr ⟨rfl, rfl⟩, fun _ _ => rfl, rfl⟩
  obtain ⟨hout, -, haud⟩ := process_queue (H := H) (s := w.store) j.tenant j.id d.process d.processFault
  cases hp : ((Op.process j.tenant j.id d.process).exec H d.processFault w.store).1 with
  | error e =>
    rw [Worker.consume_unprocessed h hp]
    exact ⟨Or.inr ⟨rfl, hout⟩, haud, rfl⟩
  | ok status =>
    cases hd : w.controls.dropAck with
    | true =>
      rw [Worker.consume_ackLost h hp hd]
      exact ⟨Or.inr ⟨rfl, hout⟩, haud, rfl⟩
    | false =>
      obtain ⟨hok, hw⟩ := Worker.consume_completed h hp hd
      set s₁ := ((Op.process j.tenant j.id d.process).exec H d.processFault w.store).2 with hs₁
      have hdec : Decided s₁ (j.tenant, j.id) := by
        have hproc : processed H w.store (j.tenant, j.id)
            ⟨.process j.tenant j.id d.process, d.processFault⟩ = true := by
          simp only [processed, decide_true, Bool.true_and]
          exact congrArg Except.isOk hp
        exact decided_of_processed hproc
      show Dispatched d w o (_, _)
      rw [hok, hw]
      have ho₁ : s₁.outbox.find? (j.tenant, j.id) = some o := by rw [hout]; exact ho
      rcases complete_queue (H := H) hdec d.completeFault with ⟨hc, hs₂⟩ | ⟨hc, hs₂⟩
      · refine ⟨Or.inl ⟨hc, ?_⟩, fun i hi => ?_, rfl⟩
        · show ((Op.complete j.tenant j.id).exec H d.completeFault s₁).2.outbox = _
          rw [show ((Op.complete j.tenant j.id).exec H d.completeFault s₁).2 = _ from hs₂]
          show s₁.outbox.modify (j.tenant, j.id) (freedRow · .done) = _
          rw [Table.modify_of_find? _ ho₁, hout]
        · show ((Op.complete j.tenant j.id).exec H d.completeFault s₁).2.audit.find? i = _
          rw [show ((Op.complete j.tenant j.id).exec H d.completeFault s₁).2 = _ from hs₂]
          exact haud i hi
      · refine ⟨Or.inr ⟨hc, ?_⟩, fun i hi => ?_, rfl⟩
        · show ((Op.complete j.tenant j.id).exec H d.completeFault s₁).2.outbox = _
          rw [show ((Op.complete j.tenant j.id).exec H d.completeFault s₁).2 = _ from hs₂]
          exact hout
        · show ((Op.complete j.tenant j.id).exec H d.completeFault s₁).2.audit.find? i = _
          rw [show ((Op.complete j.tenant j.id).exec H d.completeFault s₁).2 = _ from hs₂]
          exact haud i hi

/-- What `Tick` leaves when it has claimed `o`. -/
structure Worked (d : TickDraw) (w : Worker) (o : OutboxRow) (w' : Worker) : Prop where
  row : ∃ o', Turned d o o' ∧ w'.store.outbox = w.store.outbox.put o'
  audit : ∀ i, i ≠ d.process.stamp.id → i ≠ d.stamp.id →
    w'.store.audit.find? i = w.store.audit.find? i
  openUntil : ∀ t, w'.controls.openUntil = some t → t = d.mark + 2000 ∨ w.controls.openUntil = some t

/-- **One tick**: it finds nothing to do and changes nothing, or it claims a due intent and leaves it
with one claim less. -/
theorem tick_cases (hw : Live w) (hclaim : d.claimFault = none) (hfail : d.failFault = none)
    (ha : w.store.audit.find? d.stamp.id = none) (hne : d.stamp.id ≠ d.process.stamp.id) :
    w.tick H d = w ∧ Idle w d ∨
      ∃ o, w.store.outbox.find? o.pk = some o ∧ OutboxRow.due d.now o = true ∧
        Worked d w o (w.tick H d) := by
  have hoff : (w.controls.paused || w.controls.breakerOpen d.look) = w.controls.breakerOpen d.look := by
    rw [hw.paused]; rfl
  unfold Worker.tick
  rw [hoff, hclaim]
  by_cases hb : w.controls.breakerOpen d.look = true
  · rw [if_pos hb]
    exact Or.inl ⟨rfl, Or.inl hb⟩
  rw [if_neg hb]
  rcases claim_takes (H := H) hw.carried false d.now d.owner with ⟨hno, hx⟩ | ⟨o, trace, ho, hx⟩
  · rw [hx]
    exact Or.inl ⟨rfl, Or.inr hno⟩
  obtain ⟨hrow, hdue⟩ := claimable_mem ho
  rw [hx]
  refine Or.inr ⟨o, hrow, hdue, ?_⟩
  set j : Job := ⟨o.tenant, o.id, d.owner, o.attempts + 1, trace⟩ with hj
  set l := leasedRow o d.owner d.now with hl
  set w₁ : Worker := { w with store := { w.store with outbox := w.store.outbox.put l } } with hw₁
  show Worked d w o (Worker.finish H d j (Worker.dispatch H d j w₁))
  have hl₁ : w₁.store.outbox.find? (j.tenant, j.id) = some l := Table.find?_put_self w.store.outbox l
  obtain ⟨hout, haud, hopen⟩ := dispatch_out (H := H) (d := d) (w := w₁) (j := j) hw.publisher hl₁
  rcases hr : Worker.dispatch H d j w₁ with ⟨ok, w₂⟩
  rw [hr] at hout haud hopen
  have hput : ∀ o', o'.pk = l.pk → w₁.store.outbox.put o' = w.store.outbox.put o' :=
    fun o' h => Table.put_put h.symm
  rcases hout with ⟨rfl, hout⟩ | ⟨rfl, hout⟩
  · refine ⟨⟨_, turned_done hdue, ?_⟩, fun i hi _ => haud i hi, fun t ht => ?_⟩
    · exact hout.trans (hput _ rfl)
    · cases ht
  · have hl₂ : w₂.store.outbox.find? (j.tenant, j.id) = some l := by rw [hout]; exact hl₁
    have hfresh : w₂.store.audit.find? d.stamp.id = none := by rw [haud _ hne]; exact ha
    obtain ⟨hfout, -, hfaud, -⟩ := failJob_queue (H := H) hl₂ (j := j) ⟨rfl, rfl⟩ (d.next j) hfresh
    show Worked d w o { w₂ with
      controls := w₂.controls.markFailure d.mark
      store := ((Op.failJob j (d.next j) d.stamp).exec H d.failFault w₂.store).2 }
    rw [hfail]
    refine ⟨⟨_, turned_failed hdue (j := j) rfl, ?_⟩, fun i hi hi' => ?_, fun t ht => ?_⟩
    · rw [← hput (failedRow l j (d.next j)) rfl, ← hout]
      exact hfout
    · exact (hfaud i hi').trans (haud i hi)
    · simp only [Controls.markFailure] at ht
      split_ifs at ht
      · exact Or.inl (Option.some.inj ht).symm
      · exact Or.inr (hopen ▸ ht)

theorem Live.tick (hw : Live w) : Live (w.tick H d) where
  publisher := (w.tick_setting H d).1.trans hw.publisher
  paused := (w.tick_setting H d).2.trans hw.paused
  carried := by
    obtain ⟨cs, hrun, -⟩ := w.tick_run H d
    rw [hrun]
    exact run_invariant (A := fun _ => True) (fun _ _ _ _ h hc => h.change hc) cs _
      (fun _ _ => trivial) hw.carried

/-- A worked tick takes from the work of the store. -/
theorem Worked.work {o : OutboxRow} {w' : Worker} (h : Worked d w o w')
    (ho : w.store.outbox.find? o.pk = some o) : work w'.store + 1 ≤ work w.store := by
  obtain ⟨o', hturn, hout⟩ := h.row
  have hsum := Table.sum_put_old (f := remaining) (t := w.store.outbox) (r := o') (x := o)
    (by rw [hturn.key]; exact ho)
  have hle := hturn.work
  unfold Drain.work
  rw [hout]
  omega

end Tick

/-! ### Stretches of ticks -/

/-- A window: some ticks and a last one. -/
structure Window where
  body : List TickDraw
  last : TickDraw

def Window.ticks (b : Window) : List TickDraw := b.body ++ [b.last]

/-- `e` comes late after `d`: a breaker that `d` opened has closed, an intent it put back is due. -/
def Late (d e : TickDraw) : Prop := d.mark + 2000 ≤ e.look ∧ d.later / 1000000 + 12000 ≤ e.now

instance (d e : TickDraw) : Decidable (Late d e) := inferInstanceAs (Decidable (_ ∧ _))

/-- The tick `e` finds every open intent due, and the breaker closed. -/
structure Due (w : Worker) (e : TickDraw) : Prop where
  now : 0 ≤ e.now
  intents : ∀ o ∈ w.store.outbox, o.state = .pending ∨ o.state = .leased →
    o.nextAt ≤ e.now ∧ o.leaseUntil ≤ e.now
  breaker : ∀ t, w.controls.openUntil = some t → t ≤ e.look

/-- The identifiers of a tick's audit rows. -/
def TickDraw.ids (d : TickDraw) : List String := [d.process.stamp.id, d.stamp.id]

/-- The audit rows of the ticks get identifiers of their own. -/
structure Fresh (ds : List TickDraw) (s : Store) : Prop where
  nodup : (ds.flatMap TickDraw.ids).Nodup
  new : ∀ i ∈ ds.flatMap TickDraw.ids, s.audit.find? i = none

/-- Neither `Claim` nor `FailJob` meets a fault of the database. -/
def Sound (d : TickDraw) : Prop := d.claimFault = none ∧ d.failFault = none

/-- No intent is open. -/
def Closed (s : Store) : Prop := ∀ o ∈ s.outbox, ¬ (o.state = .pending ∨ o.state = .leased)

/-- No intent is with a broker. -/
def Unsent (s : Store) : Prop := ∀ o ∈ s.outbox, o.state ≠ .dispatched

theorem closed_of_idle {w : Worker} {e : TickDraw} (h : Idle w e) (hdue : Due w e) : Closed w.store := by
  rcases h with hb | hno
  · unfold Controls.breakerOpen at hb
    cases ht : w.controls.openUntil with
    | none => rw [ht] at hb; cases hb
    | some t =>
      rw [ht] at hb
      have hle := hdue.breaker t ht
      have hlt : e.look < t := by simpa using hb
      omega
  · intro o ho hopen
    have hnil := firstDue_none hno
    obtain ⟨hnext, hlease⟩ := hdue.intents o ho hopen
    have hmem : o ∈ claimable w.store false Engine.alone e.now := by
      refine List.mem_filter.mpr ⟨ho, ?_⟩
      have hst : (o.state == .pending || o.state == .leased) = true := by
        rcases hopen with hs | hs <;> rw [hs] <;> rfl
      simp [OutboxRow.due, hst, hnext, hlease]
    rw [hnil] at hmem
    exact absurd hmem List.not_mem_nil

section Stretch

variable {H : Digest} {w : Worker}

/-- What the first tick of a stretch leaves to the rest. -/
structure Keeps (d : TickDraw) (ds : List TickDraw) (w w' : Worker) : Prop where
  live : Live w'
  fresh : Fresh ds w'.store
  work : work w'.store ≤ work w.store
  unsent : Unsent w.store → Unsent w'.store
  due : ∀ e, Late d e → Due w e → Due w' e

theorem Fresh.tail {d : TickDraw} {ds : List TickDraw} {s s' : Store} (h : Fresh (d :: ds) s)
    (hs : ∀ i, i ≠ d.process.stamp.id → i ≠ d.stamp.id → s'.audit.find? i = s.audit.find? i) :
    Fresh ds s' := by
  obtain ⟨hnd, hnew⟩ := h
  rw [List.flatMap_cons] at hnd hnew
  obtain ⟨-, hnd', hdis⟩ := List.nodup_append.mp hnd
  refine ⟨hnd', fun i hi => ?_⟩
  rw [hs i (fun h => hdis _ (by simp [TickDraw.ids]) _ hi h.symm)
    (fun h => hdis _ (by simp [TickDraw.ids]) _ hi h.symm)]
  exact hnew i (List.mem_append_right _ hi)

theorem tick_keeps {d : TickDraw} {ds : List TickDraw} (hw : Live w) (hd : Sound d)
    (hf : Fresh (d :: ds) w.store) :
    Keeps d ds w (w.tick H d) ∧
      (w.tick H d = w ∧ Idle w d ∨ work (w.tick H d).store + 1 ≤ work w.store) := by
  have hids := hf.nodup
  rw [List.flatMap_cons] at hids
  have hne : d.stamp.id ≠ d.process.stamp.id := by
    have h := (List.nodup_append.mp hids).1
    simp only [TickDraw.ids, List.nodup_cons, List.mem_singleton] at h
    exact fun he => h.1 he.symm
  have ha : w.store.audit.find? d.stamp.id = none := hf.new _ (by simp [TickDraw.ids])
  rcases tick_cases (H := H) hw hd.1 hd.2 ha hne with ⟨heq, hidle⟩ | ⟨o, ho, hdue, hwork⟩
  · rw [heq]
    exact ⟨⟨hw, hf.tail fun _ _ _ => rfl, le_rfl, id, fun _ _ h => h⟩, Or.inl ⟨rfl, hidle⟩⟩
  have hle := hwork.work ho
  obtain ⟨o', hturn, hout⟩ := hwork.row
  refine ⟨⟨hw.tick, hf.tail hwork.audit, by omega, fun hu => ?_, fun e hlate hde => ⟨hde.now, ?_, ?_⟩⟩,
    Or.inr hle⟩
  · unfold Unsent
    rw [hout]
    exact Table.forall_put hu hturn.state.2
  · rw [hout]
    refine Table.forall_put hde.intents fun hopen => ?_
    have hnow := hde.now
    rcases hopen with hs | hs
    · have hnext := hturn.next hs
      rw [hturn.lease]
      exact ⟨by have := hlate.2; omega, hnow⟩
    · exact absurd hs hturn.state.1
  · intro t ht
    rcases hwork.openUntil t ht with rfl | h
    · exact hlate.1
    · exact hde.breaker t h

/-- **A stretch of ticks** finds nothing to do, or takes from the work. -/
theorem ticks_keep : ∀ (ds rest : List TickDraw) (w : Worker), Live w → (∀ d ∈ ds, Sound d) →
    Fresh (ds ++ rest) w.store →
    (Live (w.ticks H ds) ∧ Fresh rest (w.ticks H ds).store ∧
      (Unsent w.store → Unsent (w.ticks H ds).store) ∧
      ∀ e, (∀ d ∈ ds, Late d e) → Due w e → Due (w.ticks H ds) e) ∧
    work (w.ticks H ds).store ≤ work w.store ∧
    (w.ticks H ds = w ∧ (∀ d ∈ ds, Idle w d) ∨ work (w.ticks H ds).store + 1 ≤ work w.store)
  | [], rest, w, hw, _, hf => ⟨⟨hw, hf, id, fun _ _ h => h⟩, le_rfl, Or.inl ⟨rfl, by simp⟩⟩
  | d :: ds, rest, w, hw, hs, hf => by
    obtain ⟨hk, hstep⟩ := tick_keeps (H := H) hw (hs d List.mem_cons_self) hf
    obtain ⟨⟨hlive, hfresh, hunsent, hdue⟩, hle, hrest⟩ := ticks_keep ds rest (w.tick H d) hk.live
      (fun x hx => hs x (List.mem_cons_of_mem _ hx)) hk.fresh
    have hwork := hk.work
    refine ⟨⟨hlive, hfresh, fun h => hunsent (hk.unsent h), fun e he hd => ?_⟩,
      show work ((w.tick H d).ticks H ds).store ≤ _ by omega, ?_⟩
    · exact hdue e (fun x hx => he x (List.mem_cons_of_mem _ hx)) (hk.due e (he d List.mem_cons_self) hd)
    show ((w.tick H d).ticks H ds = w ∧ _) ∨ work ((w.tick H d).ticks H ds).store + 1 ≤ work w.store
    rcases hstep with ⟨heq, hidle⟩ | hless
    · rcases hrest with ⟨heq', hidle'⟩ | hless'
      · rw [heq] at heq' hidle'
        refine Or.inl ⟨by rw [heq, heq'], fun x hx => ?_⟩
        rcases List.mem_cons.mp hx with rfl | hx
        · exact hidle
        · exact hidle' x hx
      · exact Or.inr (by omega)
    · exact Or.inr (by omega)

/-- With no intent open, ticks change nothing. -/
theorem ticks_closed (hc : Closed w.store) : ∀ (ds : List TickDraw), Live w → (∀ d ∈ ds, Sound d) →
    Fresh ds w.store → w.ticks H ds = w := by
  have hzero : work w.store = 0 := by
    refine Table.sum_eq_zero fun o ho => ?_
    unfold remaining
    rw [if_neg (hc o ho)]
  intro ds hw hs hf
  obtain ⟨-, -, ⟨heq, -⟩ | hless⟩ := ticks_keep (H := H) ds [] w hw hs (by rw [List.append_nil]; exact hf)
  · exact heq
  · omega

/-- **Windows**: at their end the queue is empty, or every window has taken from the work. -/
theorem windows_drain : ∀ (bs : List Window) (w : Worker), Live w →
    (∀ b ∈ bs, ∀ d ∈ b.ticks, Sound d) → Fresh (bs.flatMap Window.ticks) w.store →
    (∀ b ∈ bs, Due w b.last) → bs.Pairwise (fun a b => ∀ d ∈ a.ticks, Late d b.last) →
    Closed (w.ticks H (bs.flatMap Window.ticks)).store ∨
      work (w.ticks H (bs.flatMap Window.ticks)).store + bs.length ≤ work w.store
  | [], w, _, _, _, _, _ => Or.inr le_rfl
  | b :: bs, w, hw, hs, hf, hdue, hlate => by
    rw [List.flatMap_cons] at hf ⊢
    rw [Worker.ticks_append]
    obtain ⟨hlate_b, hlate⟩ := List.pairwise_cons.mp hlate
    have hs' : ∀ a ∈ bs, ∀ d ∈ a.ticks, Sound d := fun a ha => hs a (List.mem_cons_of_mem _ ha)
    obtain ⟨⟨hlive, hfresh, -, hkeep⟩, hle, hcase⟩ :=
      ticks_keep (H := H) b.ticks _ w hw (hs b List.mem_cons_self) hf
    rcases hcase with ⟨heq, hidle⟩ | hless
    · -- the last tick of the window finds nothing, so nothing is open
      have hclosed : Closed w.store :=
        closed_of_idle (hidle b.last (List.mem_append_right _ List.mem_cons_self))
          (hdue b List.mem_cons_self)
      rw [heq] at hfresh ⊢
      have hsound : ∀ d ∈ bs.flatMap Window.ticks, Sound d := by
        intro d hd
        obtain ⟨a, ha, hd⟩ := List.mem_flatMap.mp hd
        exact hs' a ha d hd
      rw [ticks_closed hclosed _ hw hsound hfresh]
      exact Or.inl hclosed
    · rcases windows_drain bs (w.ticks H b.ticks) hlive hs' hfresh
        (fun a ha => hkeep _ (hlate_b a ha) (hdue a (List.mem_cons_of_mem _ ha))) hlate with h | h
      · exact Or.inl h
      · refine Or.inr ?_
        rw [List.length_cons]
        omega

end Stretch

/-! ### The result -/

/-- A stretch of windows that is longer than the work of the store, every one of which ends with a tick that
finds each open intent due, and comes late after the windows before it. -/
structure Enough (w : Worker) (bs : List Window) : Prop where
  fresh : Fresh (bs.flatMap Window.ticks) w.store
  due : ∀ b ∈ bs, Due w b.last
  late : bs.Pairwise fun a b => ∀ d ∈ a.ticks, Late d b.last
  long : work w.store < bs.length

theorem mem_ticks {bs : List Window} {P : TickDraw → Prop} (h : ∀ b ∈ bs, ∀ d ∈ b.ticks, P d) :
    ∀ d ∈ bs.flatMap Window.ticks, P d := by
  intro d hd
  obtain ⟨b, hb, hd⟩ := List.mem_flatMap.mp hd
  exact h b hb d hd

/-- **Enough windows empty the queue** and decide every delivery. -/
theorem windows_empty {H : Digest} {w : Worker} {bs : List Window} (hw : Live w)
    (hp : Paired w.store ∧ Undead w.store) (hunsent : Unsent w.store)
    (hsound : ∀ b ∈ bs, ∀ d ∈ b.ticks, Sound d) (hbs : Enough w bs) :
    let s := (w.ticks H (bs.flatMap Window.ticks)).store
    (∀ o ∈ s.outbox, o.state = .done ∨ o.state = .dead) ∧ ∀ d ∈ s.deliveries, d.status ≠ .accepted := by
  intro s
  have hclosed : Closed s := by
    rcases windows_drain (H := H) bs w hw hsound hbs.fresh hbs.due hbs.late with h | h
    · exact h
    · have hlong := hbs.long
      omega
  obtain ⟨⟨-, -, hunsent', -⟩, -, -⟩ := ticks_keep (H := H) (bs.flatMap Window.ticks) [] w hw
    (mem_ticks hsound) (by rw [List.append_nil]; exact hbs.fresh)
  have hpairs : Paired s ∧ Undead s := Worker.ticks_invariant (I := fun s => Paired s ∧ Undead s)
    (fun _ _ _ h hc => ⟨h.1.change hc, h.2.change h.1 hc⟩) _ w hp
  have hover : ∀ o ∈ s.outbox, o.state = .done ∨ o.state = .dead := by
    intro o ho
    have hopen := hclosed o ho
    have hsent := hunsent' hunsent o ho
    cases hst : o.state with
    | pending => exact absurd (Or.inl hst) hopen
    | leased => exact absurd (Or.inr hst) hopen
    | dispatched => exact absurd hst hsent
    | done => exact Or.inl rfl
    | dead => exact Or.inr rfl
  refine ⟨hover, fun d hd => ?_⟩
  obtain ⟨o, ho, he⟩ := hpairs.1.entry (Table.find?_of_mem hd)
  exact hpairs.2 _ _ _ he (hover o (Table.mem_of_find? ho))

/-- **The worker drains its queue.** Take a worker in local mode, not paused, on any store a run leaves, and
let it tick over more windows than the store has work. Whatever fails in the processing, whichever faults
and lost acknowledgements the demo injects, at the end every intent is done or dead and every delivery is
decided. -/
theorem drained (H : Digest) (es : List Localdemo.Reset.Event) (w : Worker) (bs : List Window)
    (hstore : w.store = (runEvents H es Db.empty).core) (hlocal : w.publisher = false)
    (hunsent : Unsent w.store) (hpaused : w.controls.paused = false)
    (hsound : ∀ b ∈ bs, ∀ d ∈ b.ticks, Sound d) (hfresh : Fresh (bs.flatMap Window.ticks) w.store)
    (hdue : ∀ b ∈ bs, Due w b.last) (hlate : bs.Pairwise fun a b => ∀ d ∈ a.ticks, Late d b.last)
    (hlong : work w.store < bs.length) :
    let s := (w.ticks H (bs.flatMap Window.ticks)).store
    (∀ o ∈ s.outbox, o.state = .done ∨ o.state = .dead) ∧ (∀ d ∈ s.deliveries, d.status ≠ .accepted) ∧
      work w.store ≤ 5 * w.store.outbox.count fun o => o.state = .pending ∨ o.state = .leased := by
  intro s
  have hw : Live w := ⟨hlocal, hpaused, by rw [hstore]; exact carried_runEvents H es⟩
  have hp : Paired w.store ∧ Undead w.store := by
    rw [hstore]
    exact ⟨paired_runEvents H es, undead_runEvents H es⟩
  obtain ⟨hover, hdecided⟩ := windows_empty (H := H) hw hp hunsent hsound ⟨hfresh, hdue, hlate, hlong⟩
  refine ⟨hover, hdecided, ?_⟩
  unfold work Table.count Table.sum
  rw [← List.sum_map_mul_left]
  refine List.sum_le_sum fun o _ => ?_
  unfold remaining
  split_ifs <;> simp_all

/-- The tick of the `n`-th window, twenty seconds after the one before. -/
def tickAt (n : ℕ) : TickDraw where
  look := 20000 * n
  now := 20000 * n
  owner := "o" ++ toString n
  process := ⟨20000 * n, ⟨"p" ++ toString n, 20000 * n⟩⟩
  mark := 20000 * n
  later := 20000000000 * n
  rand := ⟨fun _ => 0, fun _ h => h⟩
  stamp := ⟨"f" ++ toString n, 20000 * n⟩
  published := true
  claimFault := none
  dispatchedFault := none
  processFault := if n = 4 then some 1 else none
  completeFault := none
  failFault := none

/-- One receipt accepted. -/
def oneReceipt : List Localdemo.Reset.Event :=
  [.call ⟨.accept "demo" ⟨1, "event", "hold", "sea-01", 0, 5000⟩ ⟨"d1", 0, [], ⟨"a1", 0⟩⟩, none⟩]

/-- Two injected failures and a lost acknowledgement are to come. -/
def stormy : Worker :=
  ⟨false, ⟨false, 2, true, 0, none⟩, (runEvents Redelivery.byName oneReceipt Db.empty).core⟩

def sixWindows : List Window := [1, 2, 3, 4, 5, 6].map fun n => ⟨[], tickAt n⟩

theorem drained_stormy :
    let s := (stormy.ticks Redelivery.byName (sixWindows.flatMap Window.ticks)).store
    (∀ o ∈ s.outbox, o.state = .done ∨ o.state = .dead) ∧ (∀ d ∈ s.deliveries, d.status ≠ .accepted) ∧
      work stormy.store ≤
        5 * stormy.store.outbox.count fun o => o.state = .pending ∨ o.state = .leased := by
  have hrow : ∀ o ∈ stormy.store.outbox, o = ⟨"demo", "d1", .pending, "", 0, 0, 0⟩ := by
    have hrows : stormy.store.outbox.rows = [⟨"demo", "d1", .pending, "", 0, 0, 0⟩] := by decide +kernel
    intro o ho
    exact List.mem_singleton.mp (hrows ▸ Table.mem_rows.mpr ho)
  refine drained Redelivery.byName oneReceipt stormy sixWindows rfl rfl ?_ rfl ?_ ⟨?_, ?_⟩ ?_ ?_ ?_
  · intro o ho
    rw [hrow o ho]
    nofun
  · intro b hb d hd
    obtain ⟨n, -, rfl⟩ := List.mem_map.mp hb
    rw [List.mem_singleton.mp hd]
    exact ⟨rfl, rfl⟩
  · decide +kernel
  · decide +kernel
  · intro b hb
    obtain ⟨n, -, rfl⟩ := List.mem_map.mp hb
    have hn : (0 : Int) ≤ 20000 * n := by omega
    refine ⟨hn, fun o ho _ => ?_, nofun⟩
    rw [hrow o ho]
    exact ⟨hn, hn⟩
  · decide +kernel
  · decide +kernel

end Afterglow.Pipeline.Drain
