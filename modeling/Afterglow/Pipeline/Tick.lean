import Afterglow.Httpapi.Demo
import Afterglow.Pipeline.Redelivery

/-! # One `Tick` of the worker

`Worker.Tick` holds `operation` from its first step to its last, so no other `Tick` and no sweep of the
process comes between its transactions. `Worker.tick` is a `Tick` as one function of the worker's
controls and the store; `TickDraw` is all it reads of the clock, draws at random, or is met with. The
steps of a thread of the server process compute it (`Server.thread_tick`). -/

namespace Afterglow.Pipeline.Tick

open Afterglow.Sql.Rows Afterglow.Sql.Txn Afterglow.Core.Model Afterglow.Core.Store Afterglow.Core.Run
open Afterglow.Httpapi.Demo Afterglow.Pipeline.Redelivery Afterglow.Sync.Holders

/-! ### Backoff -/

/-- `rand.Int64N`: a number below a positive bound. -/
structure Rand where
  int64N : ℕ → ℕ
  lt : ∀ n, 0 < n → int64N n < n

/-- The attempt `Backoff` counts: 1 to 6. -/
def boundedAttempt (attempt : ℕ) : ℕ := if attempt < 1 then 1 else if 6 < attempt then 6 else attempt

/-- The shortest wait of `Backoff`, in nanoseconds. -/
def backoffBase (attempt : ℕ) : ℕ := 2 ^ (boundedAttempt attempt - 1) * (250 * 1000000)

/-- `Backoff`, in nanoseconds. -/
def backoff (rand : Rand) (attempt : ℕ) : ℕ :=
  backoffBase attempt + rand.int64N (backoffBase attempt / 2 + 1)

theorem backoffBase_bounds (attempt : ℕ) :
    250000000 ≤ backoffBase attempt ∧ backoffBase attempt ≤ 8000000000 := by
  have hbound : boundedAttempt attempt - 1 ≤ 5 := by
    unfold boundedAttempt; split_ifs <;> omega
  have hpos : 1 ≤ 2 ^ (boundedAttempt attempt - 1) := Nat.one_le_two_pow
  have hle : 2 ^ (boundedAttempt attempt - 1) ≤ 2 ^ 5 := Nat.pow_le_pow_right (by omega) hbound
  unfold backoffBase
  omega

/-- **A wait is between a quarter of a second and twelve seconds.** -/
theorem backoff_bounds (rand : Rand) (attempt : ℕ) :
    250000000 ≤ backoff rand attempt ∧ backoff rand attempt ≤ 12000000000 := by
  have hbase := backoffBase_bounds attempt
  have hrand := rand.lt (backoffBase attempt / 2 + 1) (Nat.succ_pos _)
  unfold backoff
  omega

/-! ### A tick -/

/-- What one `Tick` reads, draws and meets: the clocks it reads, in their order (`later` in nanoseconds,
the others in milliseconds), what it draws, and the statement at which the database fails in each of its
transactions. -/
structure TickDraw where
  look : Int
  now : Int
  owner : String
  process : ProcessDraw
  mark : Int
  later : Int
  rand : Rand
  stamp : Stamp
  /-- the broker takes the message -/
  published : Bool
  claimFault : Option ℕ
  dispatchedFault : Option ℕ
  processFault : Option ℕ
  completeFault : Option ℕ
  failFault : Option ℕ

/-- The clock at which `FailJob` lets the job be claimed again. -/
def TickDraw.next (d : TickDraw) (j : Job) : Int := (d.later + backoff d.rand j.attempts) / 1000000

theorem TickDraw.next_le (d : TickDraw) (j : Job) : d.next j ≤ d.later / 1000000 + 12000 := by
  have h := (backoff_bounds d.rand j.attempts).2
  unfold TickDraw.next
  omega

/-- What a `Tick` works on. -/
structure Worker where
  publisher : Bool
  controls : Controls
  store : Store

namespace Worker

variable (H : Digest) (d : TickDraw)

/-- `Consume`, with the controls it reads and resets. -/
def consume (j : Job) (w : Worker) : Except ConsumeErr Unit × Worker :=
  let f : Weather := ⟨0 < w.controls.failNext, d.processFault, w.controls.dropAck, d.completeFault⟩
  let (r, s) := Redelivery.consume H j.tenant j.id d.process f w.store
  match r with
  | .error .injected =>
    (r, { w with store := s, controls := { w.controls with failNext := w.controls.failNext - 1 } })
  | .error .ackLost => (r, { w with store := s, controls := { w.controls with dropAck := false } })
  | _ => (r, { w with store := s })

/-- The part of `Tick` that can fail: whether it did not, and what it leaves. -/
def dispatch (j : Job) (w : Worker) : Bool × Worker :=
  if w.publisher then
    if d.published then
      let (r, s) := (Op.dispatched j).exec H d.dispatchedFault w.store
      (r.isOk, { w with store := s })
    else (false, w)
  else
    let r := w.consume H d j
    (r.1.isOk, r.2)

/-- The end of `Tick`: `markSuccess`, or `markFailure` and `FailJob`. -/
def finish (j : Job) : Bool × Worker → Worker
  | (true, w) => { w with controls := w.controls.markSuccess }
  | (false, w) =>
    { w with
      controls := w.controls.markFailure d.mark
      store := ((Op.failJob j (d.next j) d.stamp).exec H d.failFault w.store).2 }

/-- **`Worker.Tick`.** -/
def tick (w : Worker) : Worker :=
  if w.controls.paused || w.controls.breakerOpen d.look then w
  else
    match ((Op.claim false d.now d.owner).exec H d.claimFault w.store : Except Err (Option Job) × Store) with
    | (.ok (some j), s) => finish H d j (dispatch H d j { w with store := s })
    | (_, s) => { w with store := s }

/-- The worker after a list of ticks. -/
def ticks (ds : List TickDraw) (w : Worker) : Worker := ds.foldl (fun w d => w.tick H d) w

theorem ticks_append (ds es : List TickDraw) (w : Worker) :
    w.ticks H (ds ++ es) = (w.ticks H ds).ticks H es := List.foldl_append

end Worker

/-! ### The cases of `Consume` -/

section Consume

variable {H : Digest} {d : TickDraw} {j : Job} {w : Worker}

theorem Worker.consume_injected (h : 0 < w.controls.failNext) :
    w.consume H d j = (.error .injected,
      { w with controls := { w.controls with failNext := w.controls.failNext - 1 } }) := by
  unfold Worker.consume Redelivery.consume
  simp only [h, decide_true, if_true]

variable (h : ¬ 0 < w.controls.failNext)

include h

theorem Worker.consume_unprocessed {e : Err}
    (hp : ((Op.process j.tenant j.id d.process).exec H d.processFault w.store).1 = .error e) :
    w.consume H d j = (.error (.store e),
      { w with store := ((Op.process j.tenant j.id d.process).exec H d.processFault w.store).2 }) := by
  unfold Worker.consume Redelivery.consume
  simp only [h, decide_false, Bool.false_eq_true, if_false, hp]

theorem Worker.consume_ackLost {status : Status}
    (hp : ((Op.process j.tenant j.id d.process).exec H d.processFault w.store).1 = .ok status)
    (hd : w.controls.dropAck = true) :
    w.consume H d j = (.error .ackLost,
      { w with
        store := ((Op.process j.tenant j.id d.process).exec H d.processFault w.store).2
        controls := { w.controls with dropAck := false } }) := by
  unfold Worker.consume Redelivery.consume
  simp only [h, decide_false, Bool.false_eq_true, if_false, hp, hd, if_true]

theorem Worker.consume_completed {status : Status}
    (hp : ((Op.process j.tenant j.id d.process).exec H d.processFault w.store).1 = .ok status)
    (hd : w.controls.dropAck = false) :
    let s := ((Op.process j.tenant j.id d.process).exec H d.processFault w.store).2
    (w.consume H d j).1.isOk = ((Op.complete j.tenant j.id).exec H d.completeFault s).1.isOk ∧
      (w.consume H d j).2 =
        { w with store := ((Op.complete j.tenant j.id).exec H d.completeFault s).2 } := by
  intro s
  unfold Worker.consume Redelivery.consume
  simp only [h, decide_false, Bool.false_eq_true, if_false, hp, hd]
  cases hc : ((Op.complete j.tenant j.id).exec H d.completeFault s).1 with
  | error e => exact ⟨rfl, rfl⟩
  | ok u => exact ⟨rfl, rfl⟩

end Consume

/-! ### What a tick never touches -/

theorem Worker.consume_setting (H : Digest) (d : TickDraw) (j : Job) (w : Worker) :
    (w.consume H d j).2.publisher = w.publisher ∧
      (w.consume H d j).2.controls.paused = w.controls.paused := by
  unfold Worker.consume
  dsimp only
  split <;> exact ⟨rfl, rfl⟩

/-- A tick neither pauses the worker nor changes how it publishes. -/
theorem Worker.tick_setting (H : Digest) (d : TickDraw) (w : Worker) :
    (w.tick H d).publisher = w.publisher ∧ (w.tick H d).controls.paused = w.controls.paused := by
  have hdispatch : ∀ (j : Job) (w : Worker), (w.dispatch H d j).2.publisher = w.publisher ∧
      (w.dispatch H d j).2.controls.paused = w.controls.paused := by
    intro j w
    unfold Worker.dispatch
    split_ifs
    · exact ⟨rfl, rfl⟩
    · exact ⟨rfl, rfl⟩
    · exact w.consume_setting H d j
  have hfinish : ∀ (j : Job) (r : Bool × Worker), (Worker.finish H d j r).publisher = r.2.publisher ∧
      (Worker.finish H d j r).controls.paused = r.2.controls.paused := by
    rintro j ⟨_ | _, w⟩
    · refine ⟨rfl, ?_⟩
      show (w.controls.markFailure d.mark).paused = w.controls.paused
      unfold Controls.markFailure
      split_ifs <;> rfl
    · exact ⟨rfl, rfl⟩
  unfold Worker.tick
  split_ifs
  · exact ⟨rfl, rfl⟩
  split
  · next j s _ =>
    have h := hdispatch j { w with store := s }
    exact ⟨(hfinish j _).1.trans h.1, (hfinish j _).2.trans h.2⟩
  · exact ⟨rfl, rfl⟩

/-! ### A tick as a run of calls -/

/-- The calls a tick can make. -/
def TickDraw.Makes (d : TickDraw) : Op → Prop
  | .claim _ now owner => now = d.now ∧ owner = d.owner
  | .process _ _ draw => draw = d.process
  | .dispatched _ => True
  | .complete _ _ => True
  | .failJob j next stamp => next = d.next j ∧ stamp = d.stamp
  | _ => False

section Calls

variable {H : Digest} {d : TickDraw} {j : Job} {w : Worker}

theorem Worker.dispatch_run (j : Job) (w : Worker) :
    ∃ cs, (w.dispatch H d j).2.store = run H cs w.store ∧ ∀ c ∈ cs, d.Makes c.op := by
  unfold Worker.dispatch
  split_ifs with hpub hd
  · exact ⟨[⟨.dispatched j, d.dispatchedFault⟩], rfl, by simp [TickDraw.Makes]⟩
  · exact ⟨[], rfl, by simp⟩
  by_cases h : 0 < w.controls.failNext
  · exact ⟨[], by rw [Worker.consume_injected h]; rfl, by simp⟩
  cases hp : ((Op.process j.tenant j.id d.process).exec H d.processFault w.store).1 with
  | error e =>
    refine ⟨[⟨.process j.tenant j.id d.process, d.processFault⟩], ?_, by simp [TickDraw.Makes]⟩
    rw [Worker.consume_unprocessed h hp]; rfl
  | ok status =>
    cases hd : w.controls.dropAck with
    | true =>
      refine ⟨[⟨.process j.tenant j.id d.process, d.processFault⟩], ?_, by simp [TickDraw.Makes]⟩
      rw [Worker.consume_ackLost h hp hd]; rfl
    | false =>
      refine ⟨[⟨.process j.tenant j.id d.process, d.processFault⟩,
        ⟨.complete j.tenant j.id, d.completeFault⟩], ?_, by simp [TickDraw.Makes]⟩
      rw [(Worker.consume_completed h hp hd).2]; rfl

/-- **A tick is a run** of the calls it can make. -/
theorem Worker.tick_run (H : Digest) (d : TickDraw) (w : Worker) :
    ∃ cs, (w.tick H d).store = run H cs w.store ∧ ∀ c ∈ cs, d.Makes c.op := by
  unfold Worker.tick
  split_ifs with hoff
  · exact ⟨[], rfl, by simp⟩
  rcases hc : ((Op.claim false d.now d.owner).exec H d.claimFault w.store :
    Except Err (Option Job) × Store) with ⟨_ | _ | j, s⟩
  case ok.some =>
    obtain ⟨cs, hrun, hcs⟩ := Worker.dispatch_run (H := H) (d := d) j { w with store := s }
    have hclaim : s = Call.step H w.store ⟨.claim false d.now d.owner, d.claimFault⟩ :=
      (congrArg Prod.snd hc).symm
    have hall : ∀ c ∈ (⟨.claim false d.now d.owner, d.claimFault⟩ :: cs : List Call), d.Makes c.op := by
      intro c hmem
      rcases List.mem_cons.mp hmem with rfl | hmem
      · exact ⟨rfl, rfl⟩
      · exact hcs c hmem
    have hcalls : ∀ x, Worker.dispatch H d j { w with store := s } = x →
        run H (⟨.claim false d.now d.owner, d.claimFault⟩ :: cs) w.store = x.2.store := by
      rintro x rfl
      rw [run_cons, ← hclaim]
      exact hrun.symm
    rcases hd : Worker.dispatch H d j { w with store := s } with ⟨_ | _, w'⟩
    · refine ⟨⟨.claim false d.now d.owner, d.claimFault⟩ :: cs ++
        [⟨.failJob j (d.next j) d.stamp, d.failFault⟩], ?_, ?_⟩
      · rw [run_append, hcalls (false, w') hd]
        show (Worker.finish H d j (Worker.dispatch H d j { w with store := s })).store = _
        rw [hd]
        rfl
      · intro c hmem
        rcases List.mem_append.mp hmem with hmem | hmem
        · exact hall c hmem
        · rw [List.mem_singleton.mp hmem]
          exact ⟨rfl, rfl⟩
    · refine ⟨⟨.claim false d.now d.owner, d.claimFault⟩ :: cs, ?_, hall⟩
      rw [hcalls (true, w') hd]
      show (Worker.finish H d j (Worker.dispatch H d j { w with store := s })).store = _
      rw [hd]
      rfl
  all_goals
    exact ⟨[⟨.claim false d.now d.owner, d.claimFault⟩], (congrArg Prod.snd hc).symm, by simp [TickDraw.Makes]⟩

/-- What every change of the store keeps, ticks keep. -/
theorem Worker.ticks_invariant {I : Store → Prop} (hstep : ∀ o s s', I s → Change H s o s' → I s') :
    ∀ (ds : List TickDraw) (w : Worker), I w.store → I (w.ticks H ds).store
  | [], _, h => h
  | d :: ds, w, h => by
    obtain ⟨cs, hrun, -⟩ := w.tick_run H d
    refine Worker.ticks_invariant hstep ds (w.tick H d) ?_
    rw [hrun]
    exact run_invariant (A := fun _ => True) (fun o s s' _ h hc => hstep o s s' h hc) cs _
      (fun _ _ => trivial) h

end Calls

/-! ### A tick as steps of a thread -/

section Thread

variable {n m : ℕ} (H : Digest) (k : Fin m)

/-- What a tick of the server process works on. -/
def Server.worker (x : Server n m) : Worker := ⟨x.publisher, x.controls, x.db.core⟩

/-- Steps of thread `k`, one after the other. -/
def Server.steps (as : List ThreadStep) (x : Server n m) : Server n m :=
  as.foldl (fun x a => x.stepThread H k a) x

/-- Some steps of thread `k` lead from `x` to a server with worker `w` where the thread is idle. -/
def Server.Computes (x : Server n m) (w : Worker) : Prop :=
  ∃ as, Server.worker (Server.steps H k as x) = w ∧ (Server.steps H k as x).threads k = .idle

variable {H : Digest} {k : Fin m} {x : Server n m}

theorem Server.Computes.step (a : ThreadStep) {w : Worker} (h : Server.Computes H k (x.stepThread H k a) w) :
    Server.Computes H k x w := by
  obtain ⟨as, h⟩ := h
  exact ⟨a :: as, h⟩

theorem Server.Computes.idle (h : x.threads k = .idle) : Server.Computes H k x (Server.worker x) :=
  ⟨[], rfl, h⟩

/-- A transaction of the thread on its job that succeeds. -/
theorem Server.act_ok {j : Job} {o : Op} {fault : Option ℕ} {ok bad : Thread} {a : o.Ans}
    (h : (o.exec H fault x.db.core).1 = .ok a) : (x.act H k j o fault ok bad).threads k = ok := by
  unfold Server.act
  rw [Server.thread_self, h]

/-- One that fails. -/
theorem Server.act_error {j : Job} {o : Op} {fault : Option ℕ} {ok bad : Thread} {e : Err}
    (h : (o.exec H fault x.db.core).1 = .error e) : (x.act H k j o fault ok bad).threads k = bad := by
  unfold Server.act
  rw [Server.thread_self, h]

theorem Server.computes_failing {j : Job} (d : TickDraw) (h : x.threads k = .failing j) :
    Server.Computes H k x (Worker.finish H d j (false, Server.worker x)) := by
  refine .step (.markFailure d.mark) ?_
  have hmark : x.stepThread H k (.markFailure d.mark) =
      { x with controls := x.controls.markFailure d.mark }.thread k (.failed j) := by
    unfold Server.stepThread; rw [h]
  rw [hmark]
  set y := { x with controls := x.controls.markFailure d.mark }.thread k (.failed j) with hy
  refine .step (.failJob (d.next j) d.stamp d.failFault) ?_
  have hfail : y.stepThread H k (.failJob (d.next j) d.stamp d.failFault) =
      y.act H k j (.failJob j (d.next j) d.stamp) d.failFault .idle .idle := by
    unfold Server.stepThread; rw [hy, Server.thread_self]
  rw [hfail]
  have hidle : (y.act H k j (.failJob j (d.next j) d.stamp) d.failFault .idle .idle).threads k = .idle := by
    cases hr : ((Op.failJob j (d.next j) d.stamp).exec H d.failFault y.db.core).1 with
    | error e => exact Server.act_error hr
    | ok u => exact Server.act_ok hr
  exact Server.Computes.idle hidle

theorem Server.computes_succeeded {j : Job} (d : TickDraw) (h : x.threads k = .succeeded) :
    Server.Computes H k x (Worker.finish H d j (true, Server.worker x)) := by
  refine .step .markSuccess ?_
  have hmark : x.stepThread H k .markSuccess =
      { x with controls := x.controls.markSuccess }.thread k .idle := by
    unfold Server.stepThread; rw [h]
  rw [hmark]
  exact Server.Computes.idle (Server.thread_self _ _ _)

/-- A transaction that ends the dispatch. -/
theorem Server.computes_act {j : Job} (d : TickDraw) (o : Op) (fault : Option ℕ) :
    Server.Computes H k (x.act H k j o fault .succeeded (.failing j)) (Worker.finish H d j
      ((o.exec H fault x.db.core).1.isOk,
        { Server.worker x with store := (o.exec H fault x.db.core).2 })) := by
  cases hr : (o.exec H fault x.db.core).1 with
  | error e => exact Server.computes_failing d (Server.act_error hr)
  | ok a => exact Server.computes_succeeded d (Server.act_ok hr)

theorem Server.computes_published {j : Job} (d : TickDraw) (h : x.threads k = .claimed j)
    (hpub : x.publisher = true) :
    Server.Computes H k x (Worker.finish H d j (Worker.dispatch H d j (Server.worker x))) := by
  have hw : (Server.worker x).publisher = true := hpub
  unfold Worker.dispatch
  rw [if_pos hw]
  refine .step (.publish d.published) ?_
  have hstep : x.stepThread H k (.publish d.published) =
      x.thread k (if d.published then .published j else .failing j) := by
    unfold Server.stepThread; rw [h]; simp only [hpub, if_true]
  rw [hstep]
  cases hd : d.published with
  | false => exact Server.computes_failing d (Server.thread_self _ _ _)
  | true =>
    simp only [if_true]
    refine .step (.dispatched d.dispatchedFault) ?_
    have hact : (x.thread k (.published j)).stepThread H k (.dispatched d.dispatchedFault) =
        (x.thread k (.published j)).act H k j (.dispatched j) d.dispatchedFault .succeeded (.failing j) := by
      unfold Server.stepThread; rw [Server.thread_self]
    rw [hact]
    exact Server.computes_act d _ _

theorem Server.computes_ackLost {j : Job} (d : TickDraw) (h : x.threads k = .processed j)
    (hd : x.controls.dropAck = true) :
    Server.Computes H k x (Worker.finish H d j (false,
      { Server.worker x with controls := { x.controls with dropAck := false } })) := by
  refine .step .dropAck ?_
  have hstep : x.stepThread H k .dropAck =
      { x with controls := { x.controls with dropAck := false } }.thread k (.failing j) := by
    unfold Server.stepThread; rw [h]; simp only [hd, if_true]
  rw [hstep]
  exact Server.computes_failing d (Server.thread_self _ _ _)

theorem Server.computes_completed {j : Job} (d : TickDraw) (h : x.threads k = .processed j)
    (hd : x.controls.dropAck = false) :
    Server.Computes H k x (Worker.finish H d j
      (((Op.complete j.tenant j.id).exec H d.completeFault x.db.core).1.isOk,
        { Server.worker x with
          store := ((Op.complete j.tenant j.id).exec H d.completeFault x.db.core).2 })) := by
  refine .step .dropAck ?_
  have hstep : x.stepThread H k .dropAck = x.thread k (.acking j) := by
    unfold Server.stepThread; rw [h]; simp only [hd, Bool.false_eq_true, if_false]
  rw [hstep]
  refine .step (.complete d.completeFault) ?_
  have hact : (x.thread k (.acking j)).stepThread H k (.complete d.completeFault) =
      (x.thread k (.acking j)).act H k j (.complete j.tenant j.id) d.completeFault .succeeded
        (.failing j) := by
    unfold Server.stepThread; rw [Server.thread_self]
  rw [hact]
  exact Server.computes_act d _ _

theorem Server.computes_consumed {j : Job} (d : TickDraw) (h : x.threads k = .claimed j)
    (hpub : x.publisher = false) :
    Server.Computes H k x (Worker.finish H d j (Worker.dispatch H d j (Server.worker x))) := by
  have hw : ¬ (Server.worker x).publisher = true := by rw [show (Server.worker x).publisher = _ from hpub]; nofun
  unfold Worker.dispatch
  rw [if_neg hw]
  refine .step .consumeFault ?_
  by_cases hfail : 0 < x.controls.failNext
  · have hstep : x.stepThread H k .consumeFault = { x with controls := { x.controls with
        failNext := x.controls.failNext - 1 } }.thread k (.failing j) := by
      unfold Server.stepThread; rw [h]; simp only [hpub, Bool.false_eq_true, if_false, hfail, if_true]
    rw [hstep, Worker.consume_injected (w := Server.worker x) hfail]
    exact Server.computes_failing d (Server.thread_self _ _ _)
  have hstep : x.stepThread H k .consumeFault = x.thread k (.consuming j) := by
    unfold Server.stepThread; rw [h]; simp only [hpub, Bool.false_eq_true, if_false, hfail]
  rw [hstep]
  set y := x.thread k (.consuming j) with hy
  refine .step (.process d.process d.processFault) ?_
  have hact : y.stepThread H k (.process d.process d.processFault) =
      y.act H k j (.process j.tenant j.id d.process) d.processFault (.processed j) (.failing j) := by
    unfold Server.stepThread; rw [hy, Server.thread_self]
  rw [hact]
  cases hp : ((Op.process j.tenant j.id d.process).exec H d.processFault x.db.core).1 with
  | error e =>
    rw [Worker.consume_unprocessed (w := Server.worker x) hfail hp]
    exact Server.computes_failing d (Server.act_error hp)
  | ok status =>
    have hz : (y.act H k j (.process j.tenant j.id d.process) d.processFault (.processed j)
        (.failing j)).threads k = .processed j := Server.act_ok hp
    cases hd : x.controls.dropAck with
    | true =>
      rw [Worker.consume_ackLost (w := Server.worker x) hfail hp hd]
      exact Server.computes_ackLost d hz hd
    | false =>
      obtain ⟨hok, hw'⟩ := Worker.consume_completed (w := Server.worker x) hfail hp hd
      show Server.Computes H k _ (Worker.finish H d j (_, _))
      rw [hok, hw']
      exact Server.computes_completed d hz hd

theorem Server.computes_claimed {j : Job} (d : TickDraw) (h : x.threads k = .claimed j) :
    Server.Computes H k x (Worker.finish H d j (Worker.dispatch H d j (Server.worker x))) := by
  cases hpub : x.publisher with
  | true => exact Server.computes_published d h hpub
  | false => exact Server.computes_consumed d h hpub

/-- The store after a transaction is that of the server. -/
theorem Server.worker_call (o : Op) (fault : Option ℕ) :
    Server.worker (x.call H o fault) = { Server.worker x with store := (o.exec H fault x.db.core).2 } := rfl

theorem Server.computes_ready (d : TickDraw) (h : x.threads k = .ready) :
    Server.Computes H k x
      (match ((Op.claim false d.now d.owner).exec H d.claimFault x.db.core :
          Except Err (Option Job) × Store) with
        | (.ok (some j), s) =>
          Worker.finish H d j (Worker.dispatch H d j { Server.worker x with store := s })
        | (_, s) => { Server.worker x with store := s }) := by
  refine .step (.claim d.now d.owner d.claimFault) ?_
  have hw := Server.worker_call (H := H) (x := x) (.claim false d.now d.owner) d.claimFault
  unfold Server.stepThread
  rw [h]
  dsimp only
  rcases hc : ((Op.claim false d.now d.owner).exec H d.claimFault x.db.core :
    Except Err (Option Job) × Store) with ⟨_ | _ | j, s⟩
  all_goals rw [show ((Op.claim false d.now d.owner).exec H d.claimFault x.db.core).2 = s from
    congrArg Prod.snd hc] at hw
  · show Server.Computes H k _ { Server.worker x with store := s }
    rw [← hw]
    exact Server.Computes.idle (Server.thread_self _ _ _)
  · show Server.Computes H k _ { Server.worker x with store := s }
    rw [← hw]
    exact Server.Computes.idle (Server.thread_self _ _ _)
  · show Server.Computes H k _
      (Worker.finish H d j (Worker.dispatch H d j { Server.worker x with store := s }))
    rw [← hw]
    exact Server.computes_claimed d (Server.thread_self _ _ _)

/-- **A `Tick` of the server process is `Worker.tick`**: from an idle thread, with `operation` free, the
thread's own steps lead to the worker that `tick` answers. -/
theorem Server.thread_tick (d : TickDraw) (hidle : x.threads k = .idle)
    (hfree : Grants x.operation .write) :
    Server.Computes H k x ((Server.worker x).tick H d) := by
  refine .step .tick ?_
  have htick : x.stepThread H k .tick = x.thread k .ticking := by
    unfold Server.stepThread; rw [hidle]; simp only [hfree, if_true]
  rw [htick]
  refine .step (.look d.look) ?_
  have hlook : (x.thread k .ticking).stepThread H k (.look d.look) =
      (x.thread k .ticking).thread k
        (if x.controls.paused || x.controls.breakerOpen d.look then .idle else .ready) := by
    unfold Server.stepThread; rw [Server.thread_self]
    show (if (x.controls.paused || x.controls.breakerOpen d.look) = true then _ else _) = _
    split_ifs <;> rfl
  rw [hlook]
  unfold Worker.tick
  by_cases hoff : (x.controls.paused || x.controls.breakerOpen d.look) = true
  · have hoff' : ((Server.worker x).controls.paused || (Server.worker x).controls.breakerOpen d.look) = true :=
      hoff
    rw [if_pos hoff, if_pos hoff']
    exact Server.Computes.idle (Server.thread_self _ _ _)
  have hoff' : ¬ ((Server.worker x).controls.paused || (Server.worker x).controls.breakerOpen d.look) = true :=
    hoff
  rw [if_neg hoff, if_neg hoff']
  exact Server.computes_ready d (Server.thread_self _ _ _)

end Thread

end Afterglow.Pipeline.Tick
