import Afterglow.Httpapi.Scenario
import Afterglow.Pipeline.Drain

/-! # Calm ticks

A tick is calm if the database does not fail in it and the demo injects no failure; an acknowledgement may
still be dropped. A calm tick that claims an intent decides its delivery, so `FailJob`, which only a dropped
acknowledgement can cause, finds it decided: calm ticks fail no delivery (`calm_tick`). With the windows of
`Drain` this turns the safety of `Httpapi.Scenario` into an end: a worker that stays calm long enough
reconciles every hold of a scenario.

The `retry` scenario is the other extreme: five injected failures in a row bury its receipt, `Replay` digs
it up, and a calm worker settles it. -/

namespace Afterglow.Pipeline.Calm

open Afterglow.Sql.Rows Afterglow.Sql.Txn Afterglow.Core.Store Afterglow.Core.Outcome
open Afterglow.Core.Model hiding Kind
open Afterglow.Core.Statements Afterglow.Core.Run Afterglow.Core.Ledger Afterglow.Core.Intent
open Afterglow.Core.Settlement Afterglow.Core.Receipts Afterglow.Localdemo.Reset Afterglow.Httpapi.Demo
open Afterglow.Httpapi.Scenario hiding Decided
open Afterglow.Pipeline.Redelivery Afterglow.Pipeline.Tick Afterglow.Pipeline.Drain

/-! ### No delivery fails -/

/-- No delivery is failed that was not. -/
def Unfailed (s s' : Store) : Prop :=
  ∀ k d', s'.deliveries.find? k = some d' → d'.status = .failed →
    ∃ d, s.deliveries.find? k = some d ∧ d.status = .failed

section Change

variable {H : Digest} {o : Op} {s s' s'' : Store}

theorem Unfailed.refl (s : Store) : Unfailed s s := fun _ d h hf => ⟨d, h, hf⟩

theorem Unfailed.trans (h : Unfailed s s') (h' : Unfailed s' s'') : Unfailed s s'' := by
  intro k d hd hf
  obtain ⟨d', hd', hf'⟩ := h' k d hd hf
  exact h k d' hd' hf'

/-- Only `FailJob` on an accepted delivery fails it. -/
theorem unfailed_change (hc : Change H s o s')
    (hsafe : ∀ j next stamp, o = .failJob j next stamp → Decided s (j.tenant, j.id)) :
    Unfailed s s' := by
  intro k d' hd' hf
  have hpk : d'.pk = k := Table.find?_key hd'
  rcases Core.Keys.delivery_origin hc d' (Table.mem_of_find? hd') with ⟨d, hd, hstep⟩ | ⟨_, _, _, -, rfl⟩
  · have hdk : d.pk = k := by rw [← hpk, hstep.1]; rfl
    have hd : s.deliveries.find? k = some d := by rw [← hdk]; exact Table.find?_of_mem hd
    obtain ⟨x, hx, -, hj⟩ := judgement_cases hc hd
    cases hx.symm.trans hd'
    cases hj with
    | kept h => exact ⟨d, hd, (congrArg Prod.fst h).symm.trans hf⟩
    | opened h => rw [h] at hf; cases hf
    | failed j next stamp ho hk hacc =>
      obtain ⟨y, hy, hdec⟩ := hsafe j next stamp ho
      rw [hk, hd] at hy
      cases hy
      exact absurd hacc hdec
    | verdict draw _ hv => exact absurd hf (verdict_ne_failed hv)
  · cases hf

end Change

/-! ### A calm tick -/

/-- The database does not fail in the tick. -/
structure Faultless (d : TickDraw) : Prop where
  claim : d.claimFault = none
  process : d.processFault = none
  complete : d.completeFault = none
  fail : d.failFault = none

theorem Faultless.sound {d : TickDraw} (h : Faultless d) : Sound d := ⟨h.claim, h.fail⟩

/-- **`Process` answers a status** on a delivery that is there, if its audit row is new. -/
theorem process_answers {H : Digest} {s : Store} (hb : Balanced s) {tenant id : String} {d : ProcessDraw}
    {dl : DeliveryRow} (hd : s.deliveries.find? (tenant, id) = some dl)
    (ha : s.audit.find? d.stamp.id = none) :
    ∃ status, ((Op.process tenant id d).exec H none s).1 = .ok status := by
  have hout : ProcessOut tenant id d s ((Op.process tenant id d).exec H none s) := process_out tenant id d s
  generalize ((Op.process tenant id d).exec H none s : Except Err Status × Store) = x at hout
  cases hout with
  | missing hno => cases hno.symm.trans hd
  | unlocked r hr e he => cases (check_reservation (hb.cost r hr)).symm.trans he
  | uncharged r c hr hh hc e he => cases (hb.charge_check hr hh hc).symm.trans he
  | clash hno => exact absurd ha hno
  | seen dl' => exact ⟨dl'.status, rfl⟩
  | decided dl' status => exact ⟨status, rfl⟩
  | settled => exact ⟨.settled, rfl⟩

section Tick

variable {H : Digest} {d : TickDraw} {w : Worker}

/-- What a calm worker has at hand. -/
structure Steady (w : Worker) : Prop where
  live : Live w
  balanced : Balanced w.store
  paired : Paired w.store
  failNext : w.controls.failNext = 0

/-- What the part of a calm tick that can fail leaves: the delivery decided. -/
structure Settled (j : Job) (s : Store) (r : Bool × Worker) : Prop where
  decided : Decided r.2.store (j.tenant, j.id)
  unfailed : Unfailed s r.2.store
  failNext : r.2.controls.failNext = 0

theorem calm_dispatch {j : Job} {dl : DeliveryRow} (hlocal : w.publisher = false) (hb : Balanced w.store)
    (hcalm : w.controls.failNext = 0) (hd : Faultless d)
    (hdl : w.store.deliveries.find? (j.tenant, j.id) = some dl)
    (ha : w.store.audit.find? d.process.stamp.id = none) :
    Settled j w.store (w.dispatch H d j) := by
  unfold Worker.dispatch
  rw [if_neg (by rw [hlocal]; exact Bool.false_ne_true)]
  have hno : ¬ 0 < w.controls.failNext := by omega
  obtain ⟨status, hp⟩ := process_answers (H := H) hb hdl ha
  rw [← hd.process] at hp
  have hc : Change H w.store (.process j.tenant j.id d.process) _ :=
    (Op.process j.tenant j.id d.process).change H d.processFault w.store
  have hdec : Decided ((Op.process j.tenant j.id d.process).exec H d.processFault w.store).2
      (j.tenant, j.id) := by
    have hproc : processed H w.store (j.tenant, j.id)
        ⟨.process j.tenant j.id d.process, d.processFault⟩ = true := by
      simp only [processed, decide_true, Bool.true_and]
      exact congrArg Except.isOk hp
    exact decided_of_processed hproc
  have hsafe := unfailed_change hc fun _ _ _ h => by cases h
  cases hdrop : w.controls.dropAck with
  | true =>
    rw [Worker.consume_ackLost hno hp hdrop]
    exact ⟨hdec, hsafe, hcalm⟩
  | false =>
    obtain ⟨-, hw⟩ := Worker.consume_completed hno hp hdrop
    show Settled j w.store (_, (Worker.consume H d j w).2)
    rw [hw]
    set s₁ := ((Op.process j.tenant j.id d.process).exec H d.processFault w.store).2 with hs₁
    have hc' : Change H s₁ (.complete j.tenant j.id) _ :=
      (Op.complete j.tenant j.id).change H d.completeFault s₁
    have hsched : Scheduled s₁ ∅ 0 (.complete j.tenant j.id) := trivial
    exact ⟨hdec.change hsched hc', hsafe.trans (unfailed_change hc' fun _ _ _ h => by cases h), hcalm⟩

/-- **A calm tick fails no delivery.** -/
theorem calm_tick (hw : Steady w) (hd : Faultless d) (ha : w.store.audit.find? d.process.stamp.id = none) :
    Unfailed w.store (w.tick H d).store ∧ (w.tick H d).controls.failNext = 0 := by
  unfold Worker.tick
  rw [hd.claim]
  split_ifs with hoff
  · exact ⟨.refl _, hw.failNext⟩
  rcases claim_takes (H := H) hw.live.carried false d.now d.owner with ⟨-, hx⟩ | ⟨o, trace, ho, hx⟩
  · rw [hx]
    exact ⟨.refl _, hw.failNext⟩
  obtain ⟨hrow, -⟩ := claimable_mem ho
  obtain ⟨dl, hdl, -⟩ := hw.paired.entry_of_outbox hrow
  rw [hx]
  set j : Job := ⟨o.tenant, o.id, d.owner, o.attempts + 1, trace⟩ with hj
  set w₁ : Worker := { w with store := { w.store with
    outbox := w.store.outbox.put (leasedRow o d.owner d.now) } } with hw₁
  have hset : Settled j w₁.store (Worker.dispatch H d j w₁) :=
    calm_dispatch hw.live.publisher (hw.balanced.congr rfl rfl) hw.failNext hd hdl ha
  show Unfailed w.store (Worker.finish H d j (Worker.dispatch H d j w₁)).store ∧
    (Worker.finish H d j (Worker.dispatch H d j w₁)).controls.failNext = 0
  generalize Worker.dispatch H d j w₁ = r at hset
  obtain ⟨hdec, hsafe, hcalm⟩ := hset
  rcases r with ⟨_ | _, w₂⟩
  · have hc : Change H w₂.store (.failJob j (d.next j) d.stamp) _ :=
      (Op.failJob j (d.next j) d.stamp).change H d.failFault w₂.store
    refine ⟨hsafe.trans (unfailed_change hc fun j' _ _ he => ?_), ?_⟩
    · cases he
      exact hdec
    · show (w₂.controls.markFailure d.mark).failNext = 0
      unfold Controls.markFailure
      split_ifs <;> exact hcalm
  · exact ⟨hsafe, hcalm⟩

theorem Steady.tick (hw : Steady w) (hd : Faultless d) (ha : w.store.audit.find? d.process.stamp.id = none) :
    Steady (w.tick H d) := by
  have h : Balanced (w.tick H d).store ∧ Paired (w.tick H d).store :=
    Worker.ticks_invariant (I := fun s => Balanced s ∧ Paired s)
      (fun _ _ _ h hc => ⟨h.1.change hc, h.2.change hc⟩) [d] w ⟨hw.balanced, hw.paired⟩
  exact ⟨hw.live.tick, h.1, h.2, (calm_tick hw hd ha).2⟩

/-- **Calm ticks fail no delivery.** -/
theorem calm_ticks : ∀ (ds : List TickDraw) (w : Worker), Steady w → (∀ d ∈ ds, Faultless d) →
    Fresh ds w.store → Unfailed w.store (w.ticks H ds).store
  | [], w, _, _, _ => .refl _
  | d :: ds, w, hw, hfair, hf => by
    have hd := hfair d List.mem_cons_self
    have ha : w.store.audit.find? d.process.stamp.id = none := hf.new _ (by simp [TickDraw.ids])
    obtain ⟨hk, -⟩ := tick_keeps (H := H) hw.live hd.sound hf
    exact (calm_tick hw hd ha).1.trans (calm_ticks ds (w.tick H d) (hw.tick hd ha)
      (fun x hx => hfair x (List.mem_cons_of_mem _ hx)) hk.fresh)

/-! ### Ticks as a run -/

theorem ticks_run : ∀ (ds : List TickDraw) (w : Worker),
    ∃ cs, (w.ticks H ds).store = run H cs w.store ∧ ∀ c ∈ cs, ∃ d ∈ ds, d.Makes c.op
  | [], w => ⟨[], rfl, by simp⟩
  | d :: ds, w => by
    obtain ⟨cs, hrun, hcs⟩ := w.tick_run H d
    obtain ⟨cs', hrun', hcs'⟩ := ticks_run ds (w.tick H d)
    refine ⟨cs ++ cs', ?_, fun c hc => ?_⟩
    · rw [run_append, ← hrun]
      exact hrun'
    · rcases List.mem_append.mp hc with hc | hc
      · exact ⟨d, List.mem_cons_self, hcs c hc⟩
      · obtain ⟨x, hx, hm⟩ := hcs' c hc
        exact ⟨x, List.mem_cons_of_mem _ hx, hm⟩

/-- Ticks release no hold. -/
theorem ticks_hold {k : Key2} {r : ReservationRow} (ds : List TickDraw)
    (hr : w.store.reservations.find? k = some r) (hst : r.state ≠ .released) :
    ∀ r', (w.ticks H ds).store.reservations.find? k = some r' → r'.state ≠ .released := by
  let I : Store → Prop := fun s => ∃ r, s.reservations.find? k = some r ∧ r.state ≠ .released
  obtain ⟨cs, hrun, hcs⟩ := ticks_run (H := H) ds w
  have hend : I (run H cs w.store) := by
    refine run_invariant (A := fun o => ∃ d ∈ ds, d.Makes o) ?_ cs w.store hcs ⟨r, hr, hst⟩
    rintro o s s' ⟨d, -, hm⟩ ⟨r, hr, hst⟩ hc
    obtain ⟨r', hr', hrow, hstep⟩ := (evolves_change hc).reservations k r hr
    refine ⟨r', hr', ?_⟩
    cases hc with
    | released => exact hm.elim
    | settled dl p x hdl hs hp hv hx hh =>
      have hput : (s.reservations.put { x with state := .settled }).find? k = some r' := hr'
      rw [Table.find?_put] at hput
      split_ifs at hput with hk
      · cases hput; simp
      · cases hput.symm.trans hr
        exact hst
    | _ => first | exact hm.elim | (cases hr'.symm.trans hr; exact hst)
  intro r' hr'
  obtain ⟨x, hx, hst'⟩ := hend
  rw [← hrun] at hx
  cases hx.symm.trans hr'
  exact hst'

end Tick

/-! ### The end of a scenario -/

/-- A local worker that is not paused, and no intent is with a broker. -/
structure Ready (w : Worker) : Prop where
  publisher : w.publisher = false
  paused : w.controls.paused = false
  unsent : Unsent w.store

/-- The windows are enough, the database does not fail in them and their clock is not before `t`. -/
structure Watch (t : Int) (w : Worker) (bs : List Window) : Prop where
  fair : ∀ b ∈ bs, ∀ d ∈ b.ticks, Faultless d
  timely : ∀ b ∈ bs, ∀ d ∈ b.ticks, t ≤ d.process.now
  enough : Enough w bs

section Scenario

variable {H : Digest} {tenant : String} {kind : Kind} {t : Int}
  {turns : ℕ → PlayTurns} {w : Worker} {bs : List Window}

theorem runEvents_calls (es : List Localdemo.Reset.Event) (cs : List Call) (db : Db) :
    (runEvents H (es ++ cs.map .call) db).core = run H cs (runEvents H es db).core := by
  rw [show runEvents H (es ++ cs.map .call) db = runEvents H (cs.map .call) (runEvents H es db) from
    List.foldl_append]
  generalize runEvents H es db = db'
  induction cs generalizing db' with
  | nil => rfl
  | cons c cs ih => exact ih (Event.step H db' (.call c))

/-- Ticks whose processing is timely are a timely run. -/
theorem ticks_timely (ht : ∀ b ∈ bs, ∀ d ∈ b.ticks, t ≤ d.process.now) :
    ∃ cs, (w.ticks H (bs.flatMap Window.ticks)).store = run H cs w.store ∧ ∀ c ∈ cs, Timely t c.op := by
  obtain ⟨cs, hrun, hcs⟩ := ticks_run (H := H) (bs.flatMap Window.ticks) w
  refine ⟨cs, hrun, fun c hc => ?_⟩
  obtain ⟨d, hd, hm⟩ := hcs c hc
  have hnow : t ≤ d.process.now := mem_ticks ht d hd
  obtain ⟨op, fault⟩ := c
  cases op with
  | process tenant id draw =>
    have hdraw : draw = d.process := hm
    rw [hdraw]
    exact hnow
  | _ => trivial

/-- **A calm worker reconciles what was filed**, if it is not failed and its hold not released. -/
theorem calm_reconciles (es : List Localdemo.Reset.Event) (hstore : w.store = (runEvents H es Db.empty).core)
    (hready : Ready w) (hcalm : w.controls.failNext = 0) (hw : Watch t w bs) (hkind : kind ≠ .poison)
    (hdrawn : Drawn tenant turns) {f : Filing} {j : ℕ} (hf : Filed kind t tenant turns f j w.store)
    (hfail : ∀ id ∈ f.ids, ∀ d, w.store.deliveries.find? (tenant, id) = some d → d.status ≠ .failed)
    (hheld : ∀ r, w.store.reservations.find? (tenant, f.hold.id) = some r → r.state ≠ .released) :
    Reconciled tenant f (w.ticks H (bs.flatMap Window.ticks)).store := by
  have hpairs : Paired w.store ∧ Undead w.store := by
    rw [hstore]
    exact ⟨paired_runEvents H es, undead_runEvents H es⟩
  have hlive : Live w := ⟨hready.publisher, hready.paused, by rw [hstore]; exact carried_runEvents H es⟩
  have hsteady : Steady w :=
    ⟨hlive, by rw [hstore]; exact balanced_runEvents H es, hpairs.1, hcalm⟩
  obtain ⟨cs, hrun, hcs⟩ := ticks_timely (H := H) (w := w) hw.timely
  obtain ⟨-, hdecided⟩ := windows_empty (H := H) hlive hpairs hready.unsent
    (fun b hb d hd => (hw.fair b hb d hd).sound) hw.enough
  have hsafe := calm_ticks (H := H) _ w hsteady (mem_ticks hw.fair) hw.enough.fresh
  obtain ⟨r₀, hr₀, -⟩ := hf.1
  have hrel := ticks_hold (H := H) (bs.flatMap Window.ticks) hr₀ (hheld r₀ hr₀)
  have hend : Filed kind t tenant turns f j (w.ticks H (bs.flatMap Window.ticks)).store := by
    rw [hrun]
    exact hf.run cs fun c hc _ => hcs c hc
  have hcharged : ChargedOnce (w.ticks H (bs.flatMap Window.ticks)).store := by
    rw [hrun, hstore]
    exact (charged_runEvents H es).run cs
  refine reconciled_of_filed hkind (reports_pos kind) hdrawn hcharged hend
    hrel fun id hid => ?_
  obtain ⟨m, -, hsent⟩ := exists_of_forall₂ hend.2 hid
  unfold Sent at hsent
  rw [if_neg hkind] at hsent
  obtain ⟨d, p, r, hrep, -⟩ := hsent
  refine ⟨d, hrep.row, hdecided d (Table.mem_of_find? hrep.row), fun hst => ?_⟩
  obtain ⟨d₀, hd₀, hst₀⟩ := hsafe _ d hrep.row hst
  exact hfail id hid d₀ hd₀ hst₀

/-- **A scenario ends reconciled.** The handler of the failure lab has answered with deliveries, other calls
have come in between and after; from there a calm worker ticks for longer than there is work. The holds of
the handler's loop are distinct, each is the one its deliveries name, and every one that was not released,
and no report of which had failed, is reconciled. -/
theorem scenario_settles (H : Digest) (es : List Localdemo.Reset.Event) (tenant : String)
    (turns : Turns) (c : Controls) (text : String) (kind : Kind)
    (hchoose : choose text = .plays kind) (hkind : kind ≠ .poison) {t : Int}
    (hfair : Fair tenant t turns.plays)
    (hnew : New tenant (keysFrom turns.plays 0)
      (eventsFrom turns.plays 0) (runEvents H es Db.empty).core)
    (message : String) (ids : List String)
    (h : (scenario H tenant turns (.kind text) c (runEvents H es Db.empty).core).1 =
      .filed message ids)
    (after : List Call) (hafter : ∀ x ∈ after, Timely t x.op) (w : Worker) (bs : List Window)
    (hstore : w.store = run H after
      (scenario H tenant turns (.kind text) c (runEvents H es Db.empty).core).2.2)
    (hready : Ready w) (hcalm : w.controls.failNext = 0) (hw : Watch t w bs) :
    ∃ fs : List Filing,
      (playAll H tenant kind turns.plays kind.plays 0 (runEvents H es Db.empty).core).1 = .ok fs ∧
      fs.length = kind.plays ∧ (fs.map fun f => f.hold.id).Nodup ∧ ids = fs.flatMap Filing.ids ∧ ∀ f ∈ fs,
      (∀ id ∈ f.ids, ∃ d, w.store.deliveries.find? (tenant, id) = some d ∧ d.names f.hold.id = true) ∧
      ((∀ id ∈ f.ids, ∀ d, w.store.deliveries.find? (tenant, id) = some d → d.status ≠ .failed) →
        (∀ r, w.store.reservations.find? (tenant, f.hold.id) = some r → r.state ≠ .released) →
        Reconciled tenant f (w.ticks H (bs.flatMap Window.ticks)).store) := by
  obtain ⟨fs, cs, hok, rfl, hholds, hrun, hfs⟩ := scenario_left hchoose hfair.toDrawn (fun _ => hfair) hnew h
  refine ⟨fs, hok, by rw [hfs.length_eq, List.length_range'], hholds, rfl, fun f hf => ?_⟩
  obtain ⟨j, -, hfiled⟩ := exists_of_forall₂ hfs hf
  have hs : w.store = (runEvents H (es ++ (cs ++ after).map .call) Db.empty).core := by
    rw [runEvents_calls, run_append, ← hrun, hstore]
  have hfiled' : Filed kind t tenant turns.plays f j w.store := by
    rw [hstore]
    exact hfiled.run after fun x hx _ => hafter x hx
  refine ⟨fun id hid => hfiled'.names hid, fun hfail hheld => ?_⟩
  exact calm_reconciles _ hs hready hcalm hw hkind hfair.toDrawn hfiled' hfail hheld

end Scenario

/-! ### Five failures in a row -/

/-- The intent of `k` is the only one that may be open. -/
def Lone (k : Key2) (s : Store) : Prop :=
  ∀ o ∈ s.outbox, o.state = .pending ∨ o.state = .leased → o.pk = k

/-- The delivery `dl` waits for its next attempt, and of five attempts as many have failed as are no longer
to be injected; or all five have, and it is dead. -/
inductive Doomed (k : Key2) (dl : DeliveryRow) (w : Worker) : Prop
  | waiting (o : OutboxRow) (ho : w.store.outbox.find? k = some o) (hst : o.state = .pending)
      (hd : w.store.deliveries.find? k = some dl) (hpos : 0 < w.controls.failNext)
      (hsum : o.attempts + w.controls.failNext = 5)
  | dead (o : OutboxRow) (ho : w.store.outbox.find? k = some o) (hst : o.state = .dead)
      (hd : w.store.deliveries.find? k = some (deadRow dl)) (hzero : w.controls.failNext = 0)

section Retry

variable {H : Digest} {d : TickDraw} {w : Worker} {k : Key2} {dl : DeliveryRow}

/-- **A tick with a failure to inject** does nothing, or fails the attempt of a due intent. -/
theorem tick_injected (hw : Live w) (hd : Sound d) (ha : w.store.audit.find? d.stamp.id = none)
    (hpos : 0 < w.controls.failNext) :
    w.tick H d = w ∨ ∃ o trace, w.store.outbox.find? o.pk = some o ∧
      OutboxRow.due d.now o = true ∧
      let j : Job := ⟨o.tenant, o.id, d.owner, o.attempts + 1, trace⟩
      let w' := w.tick H d
      w'.store.outbox = w.store.outbox.put (failedRow (leasedRow o d.owner d.now) j (d.next j)) ∧
        w'.store.reservations = w.store.reservations ∧
        w'.store.deliveries = (if failState j = .dead then w.store.deliveries.modify o.pk deadRow
          else w.store.deliveries) ∧ w'.controls.failNext = w.controls.failNext - 1 := by
  unfold Worker.tick
  rw [hd.1]
  split_ifs with hoff
  · exact Or.inl rfl
  rcases claim_takes (H := H) hw.carried false d.now d.owner with ⟨-, hx⟩ | ⟨o, trace, ho, hx⟩
  · rw [hx]
    exact Or.inl rfl
  obtain ⟨hrow, hdue⟩ := claimable_mem ho
  rw [hx]
  refine Or.inr ⟨o, trace, hrow, hdue, ?_⟩
  set j : Job := ⟨o.tenant, o.id, d.owner, o.attempts + 1, trace⟩ with hj
  set l := leasedRow o d.owner d.now with hl
  set w₁ : Worker := { w with store := { w.store with outbox := w.store.outbox.put l } } with hw₁
  have hdisp : Worker.dispatch H d j w₁ =
      (false, { w₁ with controls := { w.controls with failNext := w.controls.failNext - 1 } }) := by
    unfold Worker.dispatch
    rw [if_neg (by rw [show w₁.publisher = w.publisher from rfl, hw.publisher]; exact Bool.false_ne_true),
      Worker.consume_injected (w := w₁) hpos]
    rfl
  have hl₁ : w₁.store.outbox.find? (j.tenant, j.id) = some l := Table.find?_put_self w.store.outbox l
  obtain ⟨hout, -, -, hres, hdel⟩ := failJob_queue (H := H) hl₁ (j := j) ⟨rfl, rfl⟩ (d.next j)
    (show w₁.store.audit.find? d.stamp.id = none from ha)
  intro j' w'
  have hw' : w' = { w₁ with
      controls := ({ w.controls with failNext := w.controls.failNext - 1 } : Controls).markFailure d.mark
      store := ((Op.failJob j (d.next j) d.stamp).exec H d.failFault w₁.store).2 } := by
    show Worker.finish H d j (Worker.dispatch H d j w₁) = _
    rw [hdisp]
    rfl
  rw [hw', hd.2]
  refine ⟨?_, hres, hdel, ?_⟩
  · have hput : w₁.store.outbox.put (failedRow l j (d.next j)) =
        w.store.outbox.put (failedRow l j (d.next j)) := Table.put_put rfl
    exact hout.trans hput
  · show (Controls.markFailure _ d.mark).failNext = _
    unfold Controls.markFailure
    split_ifs <;> rfl

/-- **One tick brings a doomed delivery one attempt further**, and touches no hold. -/
theorem Doomed.tick (h : Doomed k dl w) (hlone : Lone k w.store)
    (hw : Live w) (hd : Sound d) (ha : w.store.audit.find? d.stamp.id = none)
    (hne : d.stamp.id ≠ d.process.stamp.id) :
    Doomed k dl (w.tick H d) ∧ Lone k (w.tick H d).store ∧
      (w.tick H d).store.reservations = w.store.reservations := by
  cases h with
  | waiting o ho hst hdl hpos hsum =>
    rcases tick_injected (H := H) hw hd ha hpos with heq | ⟨o', trace, ho', hdue, hout, hres, hdel, hfail⟩
    · rw [heq]
      exact ⟨.waiting o ho hst hdl hpos hsum, hlone, rfl⟩
    have hk : o'.pk = k := hlone o' (Table.mem_of_find? ho') (open_of_due hdue)
    rw [hk] at ho'
    cases ho'.symm.trans ho
    set j : Job := ⟨o.tenant, o.id, d.owner, o.attempts + 1, trace⟩ with hj
    set o₂ := failedRow (leasedRow o d.owner d.now) j (d.next j) with ho₂
    have hfind : (w.tick H d).store.outbox.find? k = some o₂ := by
      rw [hout, ← hk]
      exact Table.find?_put_self _ o₂
    refine ⟨?_, ?_, hres⟩
    · by_cases hlast : 5 ≤ o.attempts + 1
      · have hstate : failState j = .dead := if_pos hlast
        refine .dead o₂ hfind hstate ?_ (by omega)
        rw [hdel, if_pos hstate, hk, Table.modify_of_find? _ hdl]
        have hpk : (deadRow dl).pk = k := by
          rw [pk_deadRow]
          exact Table.find?_key hdl
        rw [← hpk]
        exact Table.find?_put_self _ _
      · have hstate : failState j = .pending := if_neg hlast
        refine .waiting o₂ hfind hstate ?_ (by omega) ?_
        · rw [hdel, if_neg (by rw [hstate]; simp)]
          exact hdl
        · show o.attempts + 1 + (w.tick H d).controls.failNext = 5
          omega
    · show Lone k (w.tick H d).store
      unfold Lone
      rw [hout]
      exact Table.forall_put hlone fun _ => hk
  | dead o ho hst hdl hzero =>
    rcases tick_cases (H := H) hw hd.1 hd.2 ha hne with ⟨heq, -⟩ | ⟨o', ho', hdue, -⟩
    · rw [heq]
      exact ⟨.dead o ho hst hdl hzero, hlone, rfl⟩
    · have hk : o'.pk = k := hlone o' (Table.mem_of_find? ho') (open_of_due hdue)
      rw [hk] at ho'
      cases ho'.symm.trans ho
      rcases open_of_due hdue with hs | hs <;> cases hs.symm.trans hst

theorem Doomed.ticks : ∀ (ds : List TickDraw) (w : Worker), Doomed k dl w →
    Lone k w.store → Live w → (∀ d ∈ ds, Sound d) → Fresh ds w.store →
    Doomed k dl (w.ticks H ds) ∧ Lone k (w.ticks H ds).store ∧
      (w.ticks H ds).store.reservations = w.store.reservations
  | [], w, h, hl, _, _, _ => ⟨h, hl, rfl⟩
  | d :: ds, w, h, hl, hw, hs, hf => by
    have hd := hs d List.mem_cons_self
    have ha : w.store.audit.find? d.stamp.id = none := hf.new _ (by simp [TickDraw.ids])
    have hne : d.stamp.id ≠ d.process.stamp.id := by
      have hids := hf.nodup
      rw [List.flatMap_cons] at hids
      have h := (List.nodup_append.mp hids).1
      simp only [TickDraw.ids, List.nodup_cons, List.mem_singleton] at h
      exact fun he => h.1 he.symm
    obtain ⟨h', hl', hres⟩ := h.tick (H := H) hl hw hd ha hne
    obtain ⟨hk, -⟩ := tick_keeps (H := H) hw hd hf
    obtain ⟨h'', hl'', hres'⟩ := Doomed.ticks ds (w.tick H d) h' hl' hk.live
      (fun x hx => hs x (List.mem_cons_of_mem _ hx)) hk.fresh
    exact ⟨h'', hl'', hres'.trans hres⟩

/-- **`Replay` of a failed delivery opens it again**, with five new attempts. -/
theorem replay_opens {s : Store} {tenant id : String} {stamp : Stamp} {x : DeliveryRow}
    (hx : s.deliveries.find? (tenant, id) = some x) (hst : x.status = .failed)
    (ha : s.audit.find? stamp.id = none) :
    ((Op.replay tenant id stamp).exec H none s : Except Err Unit × Store) = (.ok (), { s with
      deliveries := s.deliveries.put (reopenedRow x)
      outbox := s.outbox.modify (tenant, id) requeuedRow
      audit := s.audit.put (replayedAudit tenant id stamp) }) := by
  let C : Except Err Unit × Store → Prop := fun y => y = (.ok (), { s with
      deliveries := s.deliveries.put (reopenedRow x)
      outbox := s.outbox.modify (tenant, id) requeuedRow
      audit := s.audit.put (replayedAudit tenant id stamp) })
  show C (core.runFrom s (replay tenant id stamp) s)
  unfold replay
  refine core.runFrom_exec_total (updateRow_unchecked _ _ _ _ _) fun n ws he => ?_
  rw [eval_core, evalStmt] at he
  rcases updateRow_cases he with ⟨-, -, hno⟩ | ⟨x', hx', -, -, rfl, rfl⟩
  · have hfalse := hno x hx
    rw [decide_eq_false_iff_not] at hfalse
    exact absurd (Or.inl hst) hfalse
  cases hx.symm.trans hx'
  simp only [Nat.one_ne_zero, if_false]
  refine core.runFrom_exec_total (updateRow_unchecked _ _ _ _ _) fun n ws he => ?_
  rw [eval_core, evalStmt] at he
  rw [effect_outbox he]
  exact runFrom_audit (fun hno => absurd ha hno) fun _ => rfl

/-- **Five injected failures bury a delivery** whose intent is the only open one. The holds are as they were,
and no failure is left to inject. -/
theorem injected_buries {bs : List Window} {o : OutboxRow} (hw : Live w)
    (hpairs : Paired w.store ∧ Undead w.store) (hunsent : Unsent w.store)
    (ho : w.store.outbox.find? k = some o) (hst : o.state = .pending) (hnone : o.attempts = 0) (hfive : w.controls.failNext = 5)
    (hdl : w.store.deliveries.find? k = some dl) (hacc : dl.status = .accepted) (hlone : Lone k w.store)
    (hsound : ∀ b ∈ bs, ∀ d ∈ b.ticks, Sound d) (henough : Enough w bs) :
    let w₁ := w.ticks H (bs.flatMap Window.ticks)
    w₁.store.deliveries.find? k = some (deadRow dl) ∧ w₁.store.reservations = w.store.reservations ∧
      w₁.controls.failNext = 0 ∧ Ready w₁ := by
  intro w₁
  have hdoomed : Doomed k dl w := .waiting o ho hst hdl (by omega) (by rw [hnone, hfive])
  obtain ⟨hend, -, hres⟩ := hdoomed.ticks (H := H) _ w hlone hw (mem_ticks hsound) henough.fresh
  obtain ⟨⟨hlive, -⟩, -⟩ := ticks_keep (H := H) (bs.flatMap Window.ticks) [] w hw (mem_ticks hsound)
    (by rw [List.append_nil]; exact henough.fresh)
  obtain ⟨hover, hdecided⟩ := windows_empty (H := H) hw hpairs hunsent hsound henough
  have hready : Ready w₁ := by
    refine ⟨hlive.publisher, hlive.paused, fun o ho => ?_⟩
    rcases hover o ho with hs | hs <;> rw [hs] <;> simp
  cases hend with
  | waiting _ _ _ hd => exact absurd hacc (hdecided dl (Table.mem_of_find? hd))
  | dead _ _ _ hd hzero => exact ⟨hd, hres, hzero, hready⟩

/-- **`Replay` of a failed delivery** succeeds: the delivery is accepted, and the holds and what is with a
broker are as they were. -/
theorem replay_relieves {stamp : Stamp} {tenant id : String} {x : DeliveryRow}
    (hx : w.store.deliveries.find? (tenant, id) = some x) (hst : x.status = .failed)
    (ha : w.store.audit.find? stamp.id = none) (hready : Ready w) :
    let y : Except Err Unit × Store := (Op.replay tenant id stamp).exec H none w.store
    y.1 = .ok () ∧ y.2.deliveries.find? (tenant, id) = some (reopenedRow x) ∧
      y.2.reservations = w.store.reservations ∧ Ready { w with store := y.2 } := by
  intro y
  have hy : y = _ := replay_opens hx hst ha
  have hxk : x.pk = (tenant, id) := Table.find?_key hx
  have hpk : (reopenedRow x).pk = (tenant, id) := hxk
  rw [hy]
  refine ⟨rfl, ?_, rfl, hready.publisher, hready.paused, ?_⟩
  · rw [← hpk]
    exact Table.find?_put_self _ _
  · exact Table.forall_modify hready.unsent (fun o _ => by simp [requeuedRow]) _

/-- **The `retry` scenario and its recovery.** The handler has answered with the delivery `id`, which names
`hold`, and nobody has claimed its intent, the only open one, or released its hold. A worker with the five
failures the handler has armed ticks for enough windows: the delivery is failed for its exhausted retries,
the holds are as they were, no failure is left to inject. `Replay` succeeds, and a calm worker then
reconciles the hold. -/
theorem retry_recovers (H : Digest) (es : List Localdemo.Reset.Event) (tenant : String) (turns : Turns)
    (c : Controls) {t : Int} (hfair : Fair tenant t turns.plays)
    (hnew : New tenant (keysFrom turns.plays 0) (eventsFrom turns.plays 0) (runEvents H es Db.empty).core)
    (message id : String)
    (h : (scenario H tenant turns (.kind "retry") c (runEvents H es Db.empty).core).1 =
      .filed message [id])
    (w : Worker) (hcontrols : w.controls =
      (scenario H tenant turns (.kind "retry") c (runEvents H es Db.empty).core).2.1)
    (hstore : w.store = (scenario H tenant turns (.kind "retry") c (runEvents H es Db.empty).core).2.2)
    (hready : Ready w) (o : OutboxRow) (ho : w.store.outbox.find? (tenant, id) = some o)
    (hwait : o.state = .pending ∧ o.attempts = 0) (dl : DeliveryRow)
    (hdl : w.store.deliveries.find? (tenant, id) = some dl) (hacc : dl.status = .accepted)
    (hlone : Lone (tenant, id) w.store) (hold : String) (hname : dl.names hold = true)
    (hheld : ∀ r, w.store.reservations.find? (tenant, hold) = some r → r.state ≠ .released)
    (bs : List Window) (hsound : ∀ b ∈ bs, ∀ d ∈ b.ticks, Sound d)
    (htimely : ∀ b ∈ bs, ∀ d ∈ b.ticks, t ≤ d.process.now) (henough : Enough w bs) (stamp : Stamp)
    (hstamp : (w.ticks H (bs.flatMap Window.ticks)).store.audit.find? stamp.id = none)
    (bs' : List Window) :
    let w₁ := w.ticks H (bs.flatMap Window.ticks)
    let x : Except Err Unit × Store := (Op.replay tenant id stamp).exec H none w₁.store
    let w₂ : Worker := { w₁ with store := x.2 }
    (∃ d, w₁.store.deliveries.find? (tenant, id) = some d ∧ d.status = .failed ∧
      d.reason = .dispatchRetriesExhausted) ∧ w₁.store.reservations = w.store.reservations ∧
      w₁.controls.failNext = 0 ∧ x.1 = .ok () ∧
      (Watch t w₂ bs' → ∃ f : Filing,
        (playAll H tenant .retry turns.plays 1 0 (runEvents H es Db.empty).core).1 = .ok [f] ∧
        f.ids = [id] ∧ f.hold.id = hold ∧
        Reconciled tenant f (w₂.ticks H (bs'.flatMap Window.ticks)).store) := by
  intro w₁ x w₂
  have hchoose : choose "retry" = .plays .retry := rfl
  obtain ⟨fs, cs, hok, hids, -, hrun, hfs⟩ :=
    scenario_left hchoose hfair.toDrawn (fun _ => hfair) hnew h
  have hs : w.store = (runEvents H (es ++ cs.map .call) Db.empty).core := by
    rw [runEvents_calls, ← hrun, hstore]
  have hlive : Live w := ⟨hready.publisher, hready.paused, by rw [hs]; exact carried_runEvents H _⟩
  have hpairs : Paired w.store ∧ Undead w.store := by
    rw [hs]
    exact ⟨paired_runEvents H _, undead_runEvents H _⟩
  have hfive : w.controls.failNext = 5 := by
    rw [hcontrols, scenario_controls hchoose]
    rfl
  obtain ⟨hdead, hres, hzero, hready₁⟩ := injected_buries (H := H) hlive hpairs hready.unsent ho hwait.1
    hwait.2 hfive hdl hacc hlone hsound henough
  have hfailed : (deadRow dl).status = .failed ∧ (deadRow dl).reason = .dispatchRetriesExhausted := by
    unfold deadRow
    rw [if_pos hacc]
    exact ⟨rfl, rfl⟩
  obtain ⟨hanswer, hreopened, hres₂, hready₂⟩ :=
    replay_relieves (H := H) (w := w₁) hdead hfailed.1 hstamp hready₁
  refine ⟨⟨_, hdead, hfailed⟩, hres, hzero, hanswer, fun hwatch => ?_⟩
  -- from here a calm worker
  cases hfs with
  | @cons f _ _ _ hf hnil =>
  cases hnil
  have hfids : f.ids = [id] := by simpa using hids.symm
  have hfhold : f.hold.id = hold := by
    have hmem : id ∈ f.ids := by rw [hfids]; exact List.mem_singleton_self id
    obtain ⟨d, hd, hnamed⟩ := hf.names hmem
    rw [← hstore, hdl] at hd
    cases hd
    exact names_unique hnamed hname
  refine ⟨f, hok, hfids, hfhold, ?_⟩
  obtain ⟨cs', hrun', hcs'⟩ := ticks_timely (H := H) (w := w) htimely
  have hw₂ : w₂.store = run H (cs' ++ [⟨.replay tenant id stamp, none⟩]) w.store := by
    rw [run_append, ← hrun']
    rfl
  have hs₂ : w₂.store = (runEvents H
      (es ++ (cs ++ (cs' ++ [(⟨.replay tenant id stamp, none⟩ : Call)])).map .call) Db.empty).core := by
    rw [runEvents_calls, run_append, ← hrun, ← hstore, hw₂]
  have hfiled₂ : Filed .retry t tenant turns.plays f 0 w₂.store := by
    rw [hw₂, hstore]
    refine hf.run _ fun c hc _ => ?_
    rcases List.mem_append.mp hc with hc | hc
    · exact hcs' c hc
    · rw [List.mem_singleton.mp hc]
      trivial
  refine calm_reconciles _ hs₂ hready₂ hzero hwatch (by decide) hfair.toDrawn hfiled₂
    (fun id' hid' d hd hst => ?_) fun r hr => ?_
  · rw [hfids, List.mem_singleton] at hid'
    subst hid'
    cases hd.symm.trans hreopened
    cases hst
  · rw [hfhold, show w₂.store.reservations = w.store.reservations from hres₂.trans hres] at hr
    exact hheld r hr

end Retry

/-- The worker after the `crash` scenario: the next acknowledgement is dropped. -/
def crashed : Worker :=
  let x := scenario Core.Admission.spelled "demo" earlyBird (.kind "crash") calm
    (runEvents Core.Admission.spelled seededDemo Db.empty).core
  ⟨false, x.2.1, x.2.2⟩

/-- Windows of one tick. -/
def fairWindow (n : ℕ) : Window := ⟨[], { tickAt n with processFault := none }⟩

def fairWindows : List Window := [1, 2, 3, 4, 5, 6].map fairWindow

theorem faultless_window {n : ℕ} : ∀ d ∈ (fairWindow n).ticks, Faultless d ∧ (0 : Int) ≤ d.process.now := by
  intro d hd
  rw [List.mem_singleton.mp hd]
  have hn : (0 : Int) ≤ 20000 * n := by omega
  exact ⟨⟨rfl, rfl, rfl, rfl⟩, hn⟩

theorem crashed_row : ∀ o ∈ crashed.store.outbox, o = ⟨"demo", named 0 0, .pending, "", 0, 0, 0⟩ := by
  have hrows : crashed.store.outbox.rows = [⟨"demo", named 0 0, .pending, "", 0, 0, 0⟩] := by decide +kernel
  intro o ho
  exact List.mem_singleton.mp (hrows ▸ Table.mem_rows.mpr ho)

theorem ready_crashed : Ready crashed := by
  refine ⟨rfl, rfl, fun o ho => ?_⟩
  rw [crashed_row o ho]
  nofun

theorem watch_crashed : Watch 0 crashed fairWindows where
  fair b hb d hd := by
    obtain ⟨n, -, rfl⟩ := List.mem_map.mp hb
    exact (faultless_window d hd).1
  timely b hb d hd := by
    obtain ⟨n, -, rfl⟩ := List.mem_map.mp hb
    exact (faultless_window d hd).2
  enough := by
    refine ⟨⟨by decide +kernel, by decide +kernel⟩, fun b hb => ?_, by decide +kernel, by decide +kernel⟩
    obtain ⟨n, -, rfl⟩ := List.mem_map.mp hb
    have hn : (0 : Int) ≤ 20000 * n := by omega
    refine ⟨hn, fun o ho _ => ?_, nofun⟩
    rw [crashed_row o ho]
    exact ⟨hn, hn⟩

theorem scenario_settles_crashed :
    ∃ fs : List Filing,
      (playAll Core.Admission.spelled "demo" .crash earlyBird.plays Httpapi.Scenario.Kind.crash.plays 0
        (runEvents Core.Admission.spelled seededDemo Db.empty).core).1 = .ok fs ∧
      fs.length = Httpapi.Scenario.Kind.crash.plays ∧ (fs.map fun f => f.hold.id).Nodup ∧
      [named 0 0] = fs.flatMap Filing.ids ∧ ∀ f ∈ fs,
      (∀ id ∈ f.ids, ∃ d, crashed.store.deliveries.find? ("demo", id) = some d ∧ d.names f.hold.id = true) ∧
      ((∀ id ∈ f.ids, ∀ d, crashed.store.deliveries.find? ("demo", id) = some d → d.status ≠ .failed) →
        (∀ r, crashed.store.reservations.find? ("demo", f.hold.id) = some r → r.state ≠ .released) →
        Reconciled "demo" f
          (crashed.ticks Core.Admission.spelled (fairWindows.flatMap Window.ticks)).store) :=
  scenario_settles Core.Admission.spelled seededDemo "demo" earlyBird calm "crash" .crash rfl (by decide)
    fair_earlyBird (new_seededDemo _ _ _) Httpapi.Scenario.Kind.crash.message _ (by decide +kernel) []
    (by simp) crashed fairWindows rfl ready_crashed rfl watch_crashed

/-- There the receipt is processed, its acknowledgement lost, and it is settled all the same. -/
example :
    let w := crashed.ticks Core.Admission.spelled (fairWindows.flatMap Window.ticks)
    (w.store.deliveries.find? ("demo", named 0 0)).map (fun d => (d.status, d.attempts)) =
      some (.settled, 2) := by
  decide +kernel

/-- The worker after the `retry` scenario. -/
def besieged : Worker :=
  let x := scenario Core.Admission.spelled "demo" earlyBird (.kind "retry") calm
    (runEvents Core.Admission.spelled seededDemo Db.empty).core
  ⟨false, x.2.1, x.2.2⟩

/-- It after the five failures and the replay. -/
def relieved : Worker :=
  let w := besieged.ticks Core.Admission.spelled (fairWindows.flatMap Window.ticks)
  { w with store := ((Op.replay "demo" (named 0 0) ⟨"replayed", 0⟩).exec Core.Admission.spelled none w.store).2 }

def laterWindows : List Window := [7, 8, 9, 10, 11, 12].map fairWindow

theorem besieged_row : ∀ o ∈ besieged.store.outbox, o = ⟨"demo", named 0 0, .pending, "", 0, 0, 0⟩ := by
  have hrows : besieged.store.outbox.rows = [⟨"demo", named 0 0, .pending, "", 0, 0, 0⟩] := by decide +kernel
  intro o ho
  exact List.mem_singleton.mp (hrows ▸ Table.mem_rows.mpr ho)

theorem relieved_row : ∀ o ∈ relieved.store.outbox, o = ⟨"demo", named 0 0, .pending, "", 0, 0, 0⟩ := by
  have hrows : relieved.store.outbox.rows = [⟨"demo", named 0 0, .pending, "", 0, 0, 0⟩] := by decide +kernel
  intro o ho
  exact List.mem_singleton.mp (hrows ▸ Table.mem_rows.mpr ho)

theorem enough_besieged : Enough besieged fairWindows := by
  refine ⟨⟨by decide +kernel, by decide +kernel⟩, fun b hb => ?_, by decide +kernel, by decide +kernel⟩
  obtain ⟨n, -, rfl⟩ := List.mem_map.mp hb
  have hn : (0 : Int) ≤ 20000 * n := by omega
  refine ⟨hn, fun o ho _ => ?_, fun t ht => ?_⟩
  · rw [besieged_row o ho]
    exact ⟨hn, hn⟩
  · cases (show besieged.controls.openUntil = none by decide +kernel).symm.trans ht

theorem watch_relieved : Watch 0 relieved laterWindows where
  fair b hb d hd := by
    obtain ⟨n, -, rfl⟩ := List.mem_map.mp hb
    exact (faultless_window d hd).1
  timely b hb d hd := by
    obtain ⟨n, -, rfl⟩ := List.mem_map.mp hb
    exact (faultless_window d hd).2
  enough := by
    refine ⟨⟨by decide +kernel, by decide +kernel⟩, fun b hb => ?_, by decide +kernel, by decide +kernel⟩
    obtain ⟨n, hn, rfl⟩ := List.mem_map.mp hb
    have hlate : 7 ≤ n := by
      simp only [List.mem_cons, List.not_mem_nil, or_false] at hn
      omega
    have hnow : (0 : Int) ≤ 20000 * n := by omega
    refine ⟨hnow, fun o ho _ => ?_, fun t ht => ?_⟩
    · rw [relieved_row o ho]
      exact ⟨hnow, hnow⟩
    · cases (show relieved.controls.openUntil = some 102000 by decide +kernel).symm.trans ht
      show (102000 : Int) ≤ 20000 * n
      omega

theorem held_besieged (r : ReservationRow)
    (hr : besieged.store.reservations.find? ("demo", "hold") = some r) : r.state ≠ .released := by
  have hall : ∀ r ∈ besieged.store.reservations, r.state ≠ .released := by decide +kernel
  exact hall r (Table.mem_of_find? hr)

theorem retry_recovers_besieged :
    let w := besieged.ticks Core.Admission.spelled (fairWindows.flatMap Window.ticks)
    (∃ d, w.store.deliveries.find? ("demo", named 0 0) = some d ∧ d.status = .failed ∧
      d.reason = .dispatchRetriesExhausted) ∧ w.store.reservations = besieged.store.reservations ∧
      w.controls.failNext = 0 ∧ ∃ f : Filing,
        (playAll Core.Admission.spelled "demo" .retry earlyBird.plays 1 0
          (runEvents Core.Admission.spelled seededDemo Db.empty).core).1 = .ok [f] ∧
        f.ids = [named 0 0] ∧ f.hold.id = "hold" ∧
        Reconciled "demo" f
          (relieved.ticks Core.Admission.spelled (laterWindows.flatMap Window.ticks)).store := by
  obtain ⟨hfailed, hres, hzero, -, hend⟩ := retry_recovers Core.Admission.spelled seededDemo "demo" earlyBird
    calm fair_earlyBird (new_seededDemo _ _ _) Httpapi.Scenario.Kind.retry.message (named 0 0)
    (by decide +kernel) besieged rfl rfl
    ⟨rfl, rfl, fun o ho => by rw [besieged_row o ho]; simp⟩ ⟨"demo", named 0 0, .pending, "", 0, 0, 0⟩
    (by decide +kernel) ⟨rfl, rfl⟩ ⟨"demo", named 0 0, named 0 0,
      Core.Admission.spelled.receipt ⟨1, named 0 0, "hold", "sea-01", 1, 10000⟩,
      .json ⟨1, named 0 0, "hold", "sea-01", 1, 10000⟩, .accepted, .none, 0, 0⟩ (by decide +kernel) rfl
    (fun o ho _ => by rw [besieged_row o ho]; rfl) "hold" (by decide +kernel) held_besieged fairWindows
    (fun b hb d hd => by
      obtain ⟨n, -, rfl⟩ := List.mem_map.mp hb
      exact (faultless_window d hd).1.sound)
    (fun b hb d hd => by
      obtain ⟨n, -, rfl⟩ := List.mem_map.mp hb
      exact (faultless_window d hd).2)
    enough_besieged ⟨"replayed", 0⟩ (by decide +kernel) laterWindows
  exact ⟨hfailed, hres, hzero, hend watch_relieved⟩

end Afterglow.Pipeline.Calm
