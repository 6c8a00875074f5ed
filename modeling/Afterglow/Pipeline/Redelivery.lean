import Afterglow.Localdemo.Reset

/-! # Order of processing and redelivery

`Worker.Consume` processes a delivery and completes its intent. A schedule is any list of calls and
`Consume`s, in any order, with repetitions, faults and lost acknowledgements. Which receipt wins a
reservation depends on the order; everything else does not. `Sequel s₀ s` says what a schedule begun in
`s₀` has made of the rows: a hold is as it was or settled, a delivery is as it was or judged, and the
judgement is the one of `s₀` up to that choice (`verdict_stable`). From it and from the two invariants of
a run the final tables of two schedules are compared. -/

namespace Afterglow.Pipeline.Redelivery

open Afterglow.Sql.Rows Afterglow.Sql.Txn Afterglow.Core.Model Afterglow.Core.Statements
open Afterglow.Core.Store Afterglow.Core.Outcome Afterglow.Core.Run Afterglow.Core.Ledger
open Afterglow.Core.Settlement Afterglow.Localdemo.Reset

/-! ### Consume -/

/-- The errors of `Consume`. -/
inductive ConsumeErr
  | injected
  | ackLost
  | store (e : Err)
  deriving DecidableEq, Repr

/-- What a `Consume` meets: the demo's injected failure and dropped acknowledgement, and the statement at
which the database fails in each of its two transactions. -/
structure Weather where
  injected : Bool
  process : Option ℕ
  dropAck : Bool
  complete : Option ℕ
  deriving DecidableEq, Repr

/-- `Worker.Consume`. -/
def consume (H : Digest) (tenant id : String) (d : ProcessDraw) (f : Weather) (s : Store) :
    Except ConsumeErr Unit × Store :=
  if f.injected then (.error .injected, s)
  else
    let (status, s₁) := (Op.process tenant id d).exec H f.process s
    match status with
    | .error e => (.error (.store e), s₁)
    | .ok _ =>
      if f.dropAck then (.error .ackLost, s₁)
      else
        let (done, s₂) := (Op.complete tenant id).exec H f.complete s₁
        match done with
        | .error e => (.error (.store e), s₂)
        | .ok _ => (.ok (), s₂)

/-- What `Consume` leaves: it did nothing, it stopped after `Process`, or it ran `Complete` too. -/
theorem consume_cases (H : Digest) (tenant id : String) (d : ProcessDraw) (f : Weather) (s : Store) :
    let s₁ := ((Op.process tenant id d).exec H f.process s).2
    f.injected = true ∧ (consume H tenant id d f s).2 = s ∨ (consume H tenant id d f s).2 = s₁ ∨
      (consume H tenant id d f s).2 = ((Op.complete tenant id).exec H f.complete s₁).2 := by
  intro s₁
  unfold consume
  by_cases hi : f.injected = true
  · rw [if_pos hi]; exact Or.inl ⟨hi, rfl⟩
  · rw [if_neg hi]
    dsimp only
    cases ((Op.process tenant id d).exec H f.process s).1 with
    | error e => exact Or.inr (Or.inl rfl)
    | ok status =>
      by_cases hd : f.dropAck = true
      · simp only [if_pos hd]; exact Or.inr (Or.inl rfl)
      · simp only [if_neg hd]
        right; right
        split <;> rfl

/-! ### Schedules -/

/-- A step of a schedule. -/
inductive Step
  | call (c : Call)
  | consume (tenant id : String) (d : ProcessDraw) (f : Weather)
  deriving DecidableEq

/-- The transactions of a step. -/
def Step.ops : Step → List Op
  | .call c => [c.op]
  | .consume tenant id d _ => [.process tenant id d, .complete tenant id]

def Step.step (H : Digest) (s : Store) : Step → Store
  | .call c => c.step H s
  | .consume tenant id d f => (Redelivery.consume H tenant id d f s).2

/-- The store after a schedule. -/
def runSteps (H : Digest) (as : List Step) (s : Store) : Store := as.foldl (Step.step H) s

/-- The call is a `Process` of `k` and answers a status. -/
def processed (H : Digest) (s : Store) (k : Key2) : Call → Bool
  | ⟨.process tenant id d, fault⟩ =>
    (tenant, id) = k && ((Op.process tenant id d).exec H fault s).1.isOk
  | _ => false

/-- The step processes `k`. -/
def Step.processes (H : Digest) (s : Store) (k : Key2) : Step → Bool
  | .call c => processed H s k c
  | .consume tenant id d f => !f.injected && processed H s k ⟨.process tenant id d, f.process⟩

/-- Some step of the schedule processes `k`. -/
def applied (H : Digest) (k : Key2) : List Step → Store → Bool
  | [], _ => false
  | a :: as, s => a.processes H s k || applied H k as (a.step H s)

/-- The transactions of a schedule for `D` that starts in `s₀` at clock `t₀`: `Process`, on deliveries of
`D` or on deliveries that are not accepted, at a later clock; and those of the queue that touch the
intents only. -/
def Scheduled (s₀ : Store) (D : Finset Key2) (t₀ : Int) : Op → Prop
  | .process tenant id d => t₀ ≤ d.now ∧
    ∀ dl, s₀.deliveries.find? (tenant, id) = some dl → dl.status = .accepted → (tenant, id) ∈ D
  | .claim .. => True
  | .dispatched _ => True
  | .complete .. => True
  | _ => False

/-- **A schedule for `D`**: it processes every delivery of `D` at least once. -/
structure Schedule (H : Digest) (s₀ : Store) (D : Finset Key2) (t₀ : Int) (as : List Step) : Prop where
  ops : ∀ a ∈ as, ∀ o ∈ a.ops, Scheduled s₀ D t₀ o
  all : ∀ k ∈ D, applied H k as s₀ = true

/-- What every change of a schedule's transactions keeps, a step keeps. -/
theorem Step.invariant {H : Digest} {A : Op → Prop} {I : Store → Prop}
    (hstep : ∀ o s s', A o → I s → Change H s o s' → I s') (a : Step) (s : Store)
    (hA : ∀ o ∈ a.ops, A o) (h : I s) : I (a.step H s) := by
  cases a with
  | call c => exact hstep c.op s _ (hA _ List.mem_cons_self) h (c.op.change H c.fault s)
  | consume tenant id d f =>
    have hp := hstep (.process tenant id d) s _ (hA _ List.mem_cons_self) h
      ((Op.process tenant id d).change H f.process s)
    have hc := hstep (.complete tenant id) _ _ (hA _ (List.mem_cons_of_mem _ List.mem_cons_self)) hp
      ((Op.complete tenant id).change H f.complete _)
    show I (Redelivery.consume H tenant id d f s).2
    rcases consume_cases H tenant id d f s with ⟨-, hx⟩ | hx | hx
    · rw [hx]; exact h
    · rw [hx]; exact hp
    · rw [hx]; exact hc

theorem runSteps_invariant {H : Digest} {A : Op → Prop} {I : Store → Prop}
    (hstep : ∀ o s s', A o → I s → Change H s o s' → I s') :
    ∀ (as : List Step) (s : Store), (∀ a ∈ as, ∀ o ∈ a.ops, A o) → I s → I (runSteps H as s)
  | [], _, _, h => h
  | a :: as, s, hA, h =>
    runSteps_invariant hstep as (a.step H s) (fun b hb => hA b (List.mem_cons_of_mem _ hb))
      (a.invariant hstep s (hA a List.mem_cons_self) h)

/-! ### A processed delivery is decided -/

/-- The delivery is there and decided. -/
def Decided (s : Store) (k : Key2) : Prop :=
  ∃ dl, s.deliveries.find? k = some dl ∧ dl.status ≠ .accepted

section Decided

variable {H : Digest} {s s' : Store} {k : Key2}

theorem Decided.put (h : Decided s k) (dl : DeliveryRow)
    (hs : s'.deliveries = s.deliveries.put dl) (hdl : dl.status ≠ .accepted) : Decided s' k := by
  obtain ⟨x, hx, hst⟩ := h
  by_cases hk : dl.pk = k
  · exact ⟨dl, by rw [hs, ← hk]; exact Table.find?_put_self _ _, hdl⟩
  · exact ⟨x, by rw [hs, Table.find?_put_ne hk]; exact hx, hst⟩

/-- Only a replay opens a delivery again. -/
theorem Decided.change {o : Op} {s₀ : Store} {D : Finset Key2} {t₀ : Int} (h : Decided s k)
    (ho : Scheduled s₀ D t₀ o) (hc : Change H s o s') : Decided s' k := by
  cases hc with
  | same | leased | dispatched | finished => exact h
  | seen dl hd hs => exact h.put { dl with attempts := dl.attempts + 1 } rfl hs
  | decided dl status reason hd hs hv =>
    exact h.put (decidedRow dl status reason) rfl (verdict_ne_accepted hv)
  | settled dl p r hd hs hp hv =>
    exact h.put (decidedRow dl .settled .matched) rfl (by simp [decidedRow])
  | _ => exact ho.elim

theorem decided_of_put {dl : DeliveryRow} {tenant id : String}
    (hd : s.deliveries.find? (tenant, id) = some dl) (status : Status) (reason : Reason) (attempts : ℕ)
    (hs : s'.deliveries = s.deliveries.put { dl with status, reason, attempts })
    (hst : status ≠ .accepted) : Decided s' (tenant, id) := by
  have hpk : dl.pk = (tenant, id) := Table.find?_key hd
  refine ⟨{ dl with status, reason, attempts }, ?_, hst⟩
  rw [hs, ← hpk]
  exact Table.find?_put_self _ _

/-- **A `Process` that answers a status has decided its delivery.** -/
theorem decided_of_ok {tenant id : String} {d : ProcessDraw} {x : Except Err Status × Store}
    (hout : ProcessOut tenant id d s x) (hok : x.1.isOk = true) : Decided x.2 (tenant, id) := by
  cases hout with
  | seen dl hd hs => exact decided_of_put hd dl.status dl.reason (dl.attempts + 1) rfl hs
  | decided dl status reason hd hs hv =>
    exact decided_of_put hd status reason (dl.attempts + 1) rfl (verdict_ne_accepted hv)
  | settled dl p r hd =>
    exact decided_of_put hd .settled .matched (dl.attempts + 1) rfl (by simp)
  | _ => cases hok

theorem decided_of_processed {c : Call} (h : processed H s k c = true) : Decided (c.step H s) k := by
  obtain ⟨o, fault⟩ := c
  cases o with
  | process tenant id d =>
    obtain ⟨hk, hok⟩ := Bool.and_eq_true_iff.mp h
    have hk' : (tenant, id) = k := of_decide_eq_true hk
    subst hk'
    show Decided ((Op.process tenant id d).exec H fault s).2 (tenant, id)
    rcases (Op.process tenant id d).exec_cases H fault s with hx | hx
    · rw [hx] at hok ⊢
      exact decided_of_ok (process_out tenant id d s) hok
    · rw [hx] at hok; cases hok
  | _ => cases h

/-- **Every delivery a schedule processes is decided at its end.** -/
theorem decided_of_applied {s₀ : Store} {D : Finset Key2} {t₀ : Int} :
    ∀ (as : List Step) (s : Store), (∀ a ∈ as, ∀ o ∈ a.ops, Scheduled s₀ D t₀ o) →
      applied H k as s = true → Decided (runSteps H as s) k
  | [], _, _, h => by cases h
  | a :: as, s, hA, h => by
    have hrest : ∀ b ∈ as, ∀ o ∈ b.ops, Scheduled s₀ D t₀ o := fun b hb =>
      hA b (List.mem_cons_of_mem _ hb)
    rcases Bool.or_eq_true_iff.mp h with ha | hlater
    · refine runSteps_invariant (I := fun s => Decided s k) (fun o s s' ho h hc => h.change ho hc) as
        (a.step H s) hrest ?_
      cases a with
      | call c => exact decided_of_processed ha
      | consume tenant id d f =>
        obtain ⟨hi, hp⟩ := Bool.and_eq_true_iff.mp ha
        have hd : Decided ((Op.process tenant id d).exec H f.process s).2 k := decided_of_processed hp
        show Decided (Redelivery.consume H tenant id d f s).2 k
        rcases consume_cases H tenant id d f s with ⟨hi', -⟩ | hx | hx
        · rw [hi'] at hi; cases hi
        · rw [hx]; exact hd
        · rw [hx]
          exact hd.change (hA _ List.mem_cons_self _ (List.mem_cons_of_mem _ List.mem_cons_self))
            ((Op.complete tenant id).change H f.complete _)
    · exact decided_of_applied as (a.step H s) hrest hlater

end Decided

/-! ### What a schedule makes of the rows -/

/-- What a schedule may have made of a hold. -/
def HoldSequel (r₀ r : ReservationRow) : Prop :=
  r = r₀ ∨ r₀.state = .held ∧ r = { r₀ with state := .settled }

/-- What a schedule may have made of a campaign. -/
def CampaignSequel (c₀ c : CampaignRow) : Prop := c = { c₀ with reserved := c.reserved, spent := c.spent }

/-- The verdict on the delivery, in the store and at the clock the schedule starts with. -/
def firstVerdict (s₀ : Store) (t₀ : Int) (d₀ : DeliveryRow) : Status × Reason :=
  verdict s₀ d₀.tenant t₀ d₀.payload

/-- The delivery was judged as it would have been at the start, up to which receipt settles. -/
def Judged (s₀ : Store) (t₀ : Int) (d₀ d : DeliveryRow) : Prop :=
  (firstVerdict s₀ t₀ d₀).1 = .quarantined ∧ (d.status, d.reason) = firstVerdict s₀ t₀ d₀ ∨
  (firstVerdict s₀ t₀ d₀).1 ≠ .quarantined ∧ (d.status = .settled ∨ d.status = .duplicate)

/-- What a schedule may have made of a delivery. -/
structure DeliverySequel (s₀ : Store) (D : Finset Key2) (t₀ : Int) (d₀ d : DeliveryRow) : Prop where
  same : d = { d₀ with status := d.status, reason := d.reason, attempts := d.attempts }
  outcome : (d.status = d₀.status ∧ d.reason = d₀.reason) ∨
    d₀.pk ∈ D ∧ d₀.status = .accepted ∧ Judged s₀ t₀ d₀ d

/-- **What a schedule for `D` begun in `s₀` at clock `t₀` may have made of the store.** -/
structure Sequel (s₀ : Store) (D : Finset Key2) (t₀ : Int) (s : Store) : Prop where
  reservationKeys : s.reservations.rows.map ReservationRow.pk = s₀.reservations.rows.map ReservationRow.pk
  campaignKeys : s.campaigns.rows.map CampaignRow.pk = s₀.campaigns.rows.map CampaignRow.pk
  deliveryKeys : s.deliveries.rows.map DeliveryRow.pk = s₀.deliveries.rows.map DeliveryRow.pk
  reservations : s₀.reservations.Kept HoldSequel s.reservations
  campaigns : s₀.campaigns.Kept CampaignSequel s.campaigns
  deliveries : s₀.deliveries.Kept (DeliverySequel s₀ D t₀) s.deliveries

/-- The receipts of `D` are not from the future when the schedule starts. -/
def Timely (s₀ : Store) (D : Finset Key2) (t₀ : Int) : Prop :=
  ∀ k ∈ D, ∀ d, s₀.deliveries.find? k = some d → ∀ p, d.payload = .json p → p.playedAt ≤ t₀ + 60000

theorem reservationReason_sequel {r₀ r : ReservationRow} (h : HoldSequel r₀ r) (p : Receipt) :
    reservationReason p (some r.toReservation) = reservationReason p (some r₀.toReservation) := by
  rcases h with rfl | ⟨hh, rfl⟩
  · rfl
  · simp only [reservationReason, hh]; simp

/-- A receipt that is not from the future now is not later. -/
theorem receiptReason_later {t₀ now : Int} {p : Receipt} (hnow : t₀ ≤ now) (hp : p.playedAt ≤ t₀ + 60000) :
    receiptReason now p = receiptReason t₀ p := by
  have h₀ : ¬ t₀ + 60000 < p.playedAt := by omega
  have h₁ : ¬ now + 60000 < p.playedAt := by omega
  unfold receiptReason
  rw [if_neg h₀, if_neg h₁]

/-- **The verdict does not depend on when it is given**, up to which receipt settles. -/
theorem verdict_stable {s₀ s : Store} {D : Finset Key2} {t₀ now : Int} {d₀ : DeliveryRow}
    (h : Sequel s₀ D t₀ s) (hnow : t₀ ≤ now)
    (hp : ∀ p, d₀.payload = .json p → p.playedAt ≤ t₀ + 60000) :
    (firstVerdict s₀ t₀ d₀).1 = .quarantined ∧
        verdict s d₀.tenant now d₀.payload = firstVerdict s₀ t₀ d₀ ∨
      (firstVerdict s₀ t₀ d₀).1 ≠ .quarantined ∧
        (verdict s d₀.tenant now d₀.payload).1 ≠ .quarantined := by
  unfold firstVerdict
  cases hbody : d₀.payload with
  | other raw => exact Or.inl ⟨rfl, rfl⟩
  | json p =>
    have hrr := receiptReason_later hnow (hp p hbody)
    by_cases hreason : receiptReason t₀ p = .none
    · rw [verdict_json s₀ d₀.tenant hreason, verdict_json s d₀.tenant (hrr.trans hreason)]
      cases hr₀ : s₀.reservations.find? (d₀.tenant, p.reservationID) with
      | none =>
        have hr : s.reservations.find? (d₀.tenant, p.reservationID) = none := by
          refine Option.eq_none_iff_forall_ne_some.mpr fun r hr => ?_
          obtain ⟨r', hr'⟩ := Table.find?_of_keys h.reservationKeys hr
          rw [hr₀] at hr'; cases hr'
        rw [hr]
        exact Or.inl ⟨rfl, rfl⟩
      | some r₀ =>
        obtain ⟨r, hr, hseq⟩ := h.reservations _ r₀ hr₀
        rw [hr]
        dsimp only
        rw [reservationReason_sequel hseq]
        by_cases hres : reservationReason p (some r₀.toReservation) = .none
        · right
          simp only [hres, ne_eq, not_true_eq_false, if_false]
          constructor
          · split_ifs <;> simp
          · split_ifs <;> simp
        · left
          simp only [ne_eq, hres, not_false_eq_true, if_true, and_self]
    · left
      simp only [verdict, Text.unmarshal, hrr, ne_eq, hreason, not_false_eq_true, if_true, and_self]

namespace Sequel

variable {s₀ s s' : Store} {D : Finset Key2} {t₀ : Int}

theorem refl (s₀ : Store) (D : Finset Key2) (t₀ : Int) : Sequel s₀ D t₀ s₀ where
  reservationKeys := rfl
  campaignKeys := rfl
  deliveryKeys := rfl
  reservations := .refl (R := HoldSequel) (fun _ => Or.inl rfl) _
  campaigns := .refl (R := CampaignSequel) (fun _ => rfl) _
  deliveries := .refl (fun _ => ⟨rfl, Or.inl ⟨rfl, rfl⟩⟩) _

/-- The decision a `Process` of the schedule takes is the one of the start. -/
theorem judged_of_verdict {tenant id : String} {now : Int} {status : Status} {reason : Reason}
    {x dl : DeliveryRow} (h : Sequel s₀ D t₀ s) (hD : Timely s₀ D t₀)
    (hx : s₀.deliveries.find? (tenant, id) = some x) (hseq : DeliverySequel s₀ D t₀ x dl)
    (hs : dl.status = .accepted) (hnow : t₀ ≤ now)
    (hmem : ∀ d, s₀.deliveries.find? (tenant, id) = some d → d.status = .accepted → (tenant, id) ∈ D)
    (hv : verdict s tenant now dl.payload = (status, reason)) :
    DeliverySequel s₀ D t₀ x (decidedRow dl status reason) := by
  have hpk : x.pk = (tenant, id) := Table.find?_key hx
  have ht : x.tenant = tenant := congrArg Prod.fst hpk
  have hpay : dl.payload = x.payload := by rw [hseq.same]
  -- a judged delivery is not accepted, so this one is as it was at the start
  have hxs : x.status = .accepted := by
    rcases hseq.outcome with ⟨hst, -⟩ | ⟨-, hxs, -⟩
    · rw [← hst]; exact hs
    · exact hxs
  have hk : (tenant, id) ∈ D := hmem x hx hxs
  rw [hpay, ← ht] at hv
  refine ⟨?_, Or.inr ⟨hpk ▸ hk, hxs, ?_⟩⟩
  · have hsame := hseq.same
    simp only [decidedRow]
    rw [hsame]
  · rcases verdict_stable h hnow (hD _ hk x hx) with ⟨hq, heq⟩ | ⟨hq, hne⟩
    · exact Or.inl ⟨hq, by rw [← heq, hv]; rfl⟩
    · refine Or.inr ⟨hq, ?_⟩
      rw [hv] at hne
      obtain ⟨-, -, -, -, -, ⟨-, hst⟩ | ⟨-, hst⟩⟩ := verdict_matches hv hne
      · exact Or.inl hst
      · exact Or.inr hst

/-- **One change of a schedule.** -/
theorem change {H : Digest} {o : Op} (h : Sequel s₀ D t₀ s) (hD : Timely s₀ D t₀)
    (ho : Scheduled s₀ D t₀ o) (hc : Change H s o s') : Sequel s₀ D t₀ s' := by
  cases hc with
  | same => exact h
  | leased | dispatched | finished =>
    exact ⟨h.reservationKeys, h.campaignKeys, h.deliveryKeys, h.reservations, h.campaigns, h.deliveries⟩
  | @seen tenant id d dl hd hs =>
    have hpk : dl.pk = (tenant, id) := Table.find?_key hd
    have hfind : s.deliveries.find? (DeliveryRow.pk { dl with attempts := dl.attempts + 1 }) = some dl := by
      rw [← hpk] at hd; exact hd
    refine ⟨h.reservationKeys, h.campaignKeys, (Table.keys_put_old hfind).trans h.deliveryKeys,
      h.reservations, h.campaigns, h.deliveries.put hfind fun x hx hseq => ⟨?_, hseq.outcome⟩⟩
    have hsame := hseq.same
    rw [hsame]
  | @decided tenant id d dl status reason hd hs hv hne ha =>
    have hpk : dl.pk = (tenant, id) := Table.find?_key hd
    have hfind : s.deliveries.find? (decidedRow dl status reason).pk = some dl := by
      rw [← hpk] at hd; exact hd
    refine ⟨h.reservationKeys, h.campaignKeys, (Table.keys_put_old hfind).trans h.deliveryKeys,
      h.reservations, h.campaigns, h.deliveries.put hfind fun x hx hseq => ?_⟩
    have hx' : s₀.deliveries.find? dl.pk = some x := hx
    rw [hpk] at hx'
    exact h.judged_of_verdict hD hx' hseq hs ho.1 ho.2 hv
  | @settled tenant id d dl p r hd hs hp hv hr hh hck ha =>
    have hpk : dl.pk = (tenant, id) := Table.find?_key hd
    have hrk : r.pk = (tenant, p.reservationID) := Table.find?_key hr
    have hfind : s.deliveries.find? (decidedRow dl .settled .matched).pk = some dl := by
      rw [← hpk] at hd; exact hd
    have hfindr : s.reservations.find? (ReservationRow.pk { r with state := .settled }) = some r := by
      rw [← hrk] at hr; exact hr
    refine ⟨(Table.keys_put_old hfindr).trans h.reservationKeys,
      (Table.keys_modify (f := charge r.cost) _ (fun _ => rfl) _).trans h.campaignKeys,
      (Table.keys_put_old hfind).trans h.deliveryKeys,
      h.reservations.put hfindr fun x hx hseq => ?_, ?_, h.deliveries.put hfind fun x hx hseq => ?_⟩
    · rcases hseq with rfl | ⟨hheld, rfl⟩
      · exact Or.inr ⟨hh, rfl⟩
      · exact Or.inr ⟨hheld, rfl⟩
    · refine h.campaigns.put_modify (f := charge r.cost) (fun _ => rfl) _ fun x c hseq => ?_
      unfold CampaignSequel at hseq ⊢
      rw [hseq]; rfl
    · have hx' : s₀.deliveries.find? dl.pk = some x := hx
      rw [hpk] at hx'
      exact h.judged_of_verdict hD hx' hseq hs ho.1 ho.2 hv
  | _ => exact ho.elim

end Sequel

/-! ### Two schedules -/

/-- The delivery `k` is quarantined for `reason`. -/
def Quarantined (s : Store) (k : Key2) (reason : Reason) : Prop :=
  ∃ d, s.deliveries.find? k = some d ∧ d.status = .quarantined ∧ d.reason = reason

/-- **What holds at the end of a schedule.** -/
structure Finished (s₀ : Store) (D : Finset Key2) (t₀ : Int) (s : Store) : Prop where
  sequel : Sequel s₀ D t₀ s
  balanced : Balanced s
  charged : ChargedOnce s
  decided : ∀ k ∈ D, Decided s k

theorem finished_of_schedule {H : Digest} {s₀ : Store} {D : Finset Key2} {t₀ : Int} {as : List Step}
    (hb : Balanced s₀) (hc : ChargedOnce s₀) (hD : Timely s₀ D t₀) (h : Schedule H s₀ D t₀ as) :
    Finished s₀ D t₀ (runSteps H as s₀) where
  sequel := runSteps_invariant (fun _ _ _ ho h hc => Sequel.change h hD ho hc) as s₀ h.ops
    (Sequel.refl s₀ D t₀)
  balanced := runSteps_invariant (fun _ _ _ _ h hc => Balanced.change h hc) as s₀ h.ops hb
  charged := runSteps_invariant (fun _ _ _ _ h hc => ChargedOnce.change h hc) as s₀ h.ops hc
  decided k hk := decided_of_applied as s₀ h.ops (h.all k hk)

namespace Finished

variable {s₀ s s' : Store} {D : Finset Key2} {t₀ : Int}

/-- A delivery of `D` is judged, any other one is as it was. -/
theorem outcome (h : Finished s₀ D t₀ s) {k : Key2} {d₀ d : DeliveryRow}
    (hd₀ : s₀.deliveries.find? k = some d₀) (hd : s.deliveries.find? k = some d) :
    d = { d₀ with status := d.status, reason := d.reason, attempts := d.attempts } ∧
      (k ∈ D ∧ d₀.status = .accepted ∧ Judged s₀ t₀ d₀ d ∨
        ¬ (k ∈ D ∧ d₀.status = .accepted) ∧ d.status = d₀.status ∧ d.reason = d₀.reason) := by
  obtain ⟨x, hx, hseq⟩ := h.sequel.deliveries k d₀ hd₀
  cases hd.symm.trans hx
  have hpk : d₀.pk = k := Table.find?_key hd₀
  refine ⟨hseq.same, ?_⟩
  rcases hseq.outcome with ⟨hst, hre⟩ | ⟨hk, hst, hj⟩
  · refine Or.inr ⟨fun hacc => ?_, hst, hre⟩
    obtain ⟨y, hy, hne⟩ := h.decided k hacc.1
    cases hd.symm.trans hy
    exact hne (hst.trans hacc.2)
  · exact Or.inl ⟨hpk ▸ hk, hst, hj⟩

/-- The rows of a delivery at the start and at the end of another schedule. -/
theorem delivery_rows (h : Finished s₀ D t₀ s) (h' : Finished s₀ D t₀ s') {k : Key2} {d : DeliveryRow}
    (hd : s.deliveries.find? k = some d) :
    ∃ d₀ d', s₀.deliveries.find? k = some d₀ ∧ s'.deliveries.find? k = some d' := by
  obtain ⟨d₀, hd₀⟩ := Table.find?_of_keys h.sequel.deliveryKeys hd
  obtain ⟨d', hd', -⟩ := h'.sequel.deliveries k d₀ hd₀
  exact ⟨d₀, d', hd₀, hd'⟩

theorem quarantined (h : Finished s₀ D t₀ s) (h' : Finished s₀ D t₀ s') {k : Key2} {d d' : DeliveryRow}
    (hd : s.deliveries.find? k = some d) (hd' : s'.deliveries.find? k = some d')
    (hq : d.status = .quarantined) : d'.status = .quarantined ∧ d'.reason = d.reason := by
  obtain ⟨d₀, -, hd₀, -⟩ := h.delivery_rows h' hd
  rcases (h.outcome hd₀ hd).2 with ⟨hk, hacc, hj⟩ | ⟨hno, hst, hre⟩
  · rcases (h'.outcome hd₀ hd').2 with ⟨-, -, hj'⟩ | ⟨hno, -⟩
    · rcases hj with ⟨hv, heq⟩ | ⟨-, hst | hst⟩
      · rcases hj' with ⟨-, heq'⟩ | ⟨hv', -⟩
        · have hpair := heq'.trans heq.symm
          exact ⟨(congrArg Prod.fst hpair).trans hq, congrArg Prod.snd hpair⟩
        · exact absurd hv hv'
      · rw [hq] at hst; cases hst
      · rw [hq] at hst; cases hst
    · exact absurd ⟨hk, hacc⟩ hno
  · rcases (h'.outcome hd₀ hd').2 with ⟨hk, hacc, -⟩ | ⟨-, hst', hre'⟩
    · exact absurd ⟨hk, hacc⟩ hno
    · exact ⟨hst'.trans (hst.symm.trans hq), hre'.trans hre.symm⟩

/-- **A delivery is quarantined in one schedule exactly if it is in the other**, for the same reason. -/
theorem quarantined_iff (h : Finished s₀ D t₀ s) (h' : Finished s₀ D t₀ s') (k : Key2) (reason : Reason) :
    Quarantined s k reason ↔ Quarantined s' k reason := by
  constructor
  · rintro ⟨d, hd, hq, rfl⟩
    obtain ⟨-, d', -, hd'⟩ := h.delivery_rows h' hd
    exact ⟨d', hd', h.quarantined h' hd hd' hq⟩
  · rintro ⟨d', hd', hq, rfl⟩
    obtain ⟨-, d, -, hd⟩ := h'.delivery_rows h hd'
    exact ⟨d, hd, h'.quarantined h hd' hd hq⟩

/-- The status is one of a receipt that matches its reservation. -/
def counted (d : DeliveryRow) : Bool := d.status = .settled ∨ d.status = .duplicate

theorem counted_of_judged {d₀ d d' : DeliveryRow} (hj : Judged s₀ t₀ d₀ d) (hj' : Judged s₀ t₀ d₀ d')
    (hc : counted d = true) : counted d' = true := by
  have hc' : d.status = .settled ∨ d.status = .duplicate := of_decide_eq_true hc
  rcases hj' with ⟨hv', heq'⟩ | ⟨-, hst'⟩
  · rcases hj with ⟨-, heq⟩ | ⟨hv, -⟩
    · have hst : d.status = .quarantined := (congrArg Prod.fst heq).trans hv'
      rw [hst] at hc'
      simp at hc'
    · exact absurd hv' hv
  · exact decide_eq_true hst'

theorem counted_iff (h : Finished s₀ D t₀ s) (h' : Finished s₀ D t₀ s') {k : Key2} {d d' : DeliveryRow}
    (hd : s.deliveries.find? k = some d) (hd' : s'.deliveries.find? k = some d') :
    counted d = counted d' := by
  obtain ⟨d₀, -, hd₀, -⟩ := h.delivery_rows h' hd
  rcases (h.outcome hd₀ hd).2 with ⟨hk, hacc, hj⟩ | ⟨hno, hst, -⟩
  · rcases (h'.outcome hd₀ hd').2 with ⟨-, -, hj'⟩ | ⟨hno, -⟩
    · rw [Bool.eq_iff_iff]
      exact ⟨counted_of_judged hj hj', counted_of_judged hj' hj⟩
    · exact absurd ⟨hk, hacc⟩ hno
  · rcases (h'.outcome hd₀ hd').2 with ⟨hk, hacc, -⟩ | ⟨-, hst', -⟩
    · exact absurd ⟨hk, hacc⟩ hno
    · unfold counted; rw [hst, hst']

/-- **A reservation settled in one schedule is settled in the other.** -/
theorem settled_of_settled (h : Finished s₀ D t₀ s) (h' : Finished s₀ D t₀ s') {k : Key2}
    (hk : isSettled s k = true) : isSettled s' k = true := by
  have hone : s.deliveries.count (settles k) = 1 := by rw [h.charged.once, hk]; rfl
  obtain ⟨d, ⟨hmem, hset⟩, -⟩ := Table.existsUnique_of_count hone
  obtain ⟨ht, hst, hn⟩ := of_decide_eq_true hset
  have hd := Table.find?_of_mem hmem
  obtain ⟨d₀, d', hd₀, hd'⟩ := h.delivery_rows h' hd
  have hc : counted d' = true := by
    rw [← h.counted_iff h' hd hd']; exact decide_eq_true (Or.inl hst)
  obtain ⟨p', r', hp', hr', -, hrs⟩ := h'.charged.backed d' (Table.mem_of_find? hd') (of_decide_eq_true hc)
  obtain ⟨p, hp, hid⟩ := names_iff.mp hn
  have hsame := (h.outcome hd₀ hd).1
  have hsame' := (h'.outcome hd₀ hd').1
  have hpay : d'.payload = d.payload := by rw [hsame, hsame']
  have htenant : d'.tenant = d.tenant := by rw [hsame, hsame']
  rw [hpay, hp] at hp'
  cases hp'
  have hkey : (d'.tenant, p'.reservationID) = k := Prod.ext (htenant.trans ht) hid
  rw [hkey] at hr'
  rw [isSettled_of_find hr', hrs]; rfl

theorem isSettled_eq (h : Finished s₀ D t₀ s) (h' : Finished s₀ D t₀ s') (k : Key2) :
    isSettled s k = isSettled s' k := by
  rw [Bool.eq_iff_iff]
  exact ⟨h.settled_of_settled h', h'.settled_of_settled h⟩

/-- **The two final reservations tables are equal.** -/
theorem reservations_eq (h : Finished s₀ D t₀ s) (h' : Finished s₀ D t₀ s') :
    s.reservations = s'.reservations := by
  refine Table.ext_find? (h.sequel.reservationKeys.trans h'.sequel.reservationKeys.symm)
    fun k r r' hr hr' => ?_
  obtain ⟨r₀, hr₀⟩ := Table.find?_of_keys h.sequel.reservationKeys hr
  obtain ⟨x, hx, hseq⟩ := h.sequel.reservations k r₀ hr₀
  obtain ⟨x', hx', hseq'⟩ := h'.sequel.reservations k r₀ hr₀
  cases hr.symm.trans hx
  cases hr'.symm.trans hx'
  have hset : r.state = .settled ↔ r'.state = .settled := by
    have heq := h.isSettled_eq h' k
    rw [isSettled_of_find hr, isSettled_of_find hr'] at heq
    exact decide_eq_decide.mp heq
  rcases hseq with rfl | ⟨hheld, rfl⟩
  · rcases hseq' with rfl | ⟨hheld, rfl⟩
    · rfl
    · rw [hset.mpr rfl] at hheld; cases hheld
  · rcases hseq' with rfl | ⟨-, rfl⟩
    · rw [hset.mp rfl] at hheld; cases hheld
    · rfl

/-- **The two final campaigns tables are equal**: the balances are sums over the reservations. -/
theorem campaigns_eq (h : Finished s₀ D t₀ s) (h' : Finished s₀ D t₀ s') :
    s.campaigns = s'.campaigns := by
  refine Table.ext_find? (h.sequel.campaignKeys.trans h'.sequel.campaignKeys.symm)
    fun k c c' hc hc' => ?_
  obtain ⟨c₀, hc₀⟩ := Table.find?_of_keys h.sequel.campaignKeys hc
  obtain ⟨x, hx, hseq⟩ := h.sequel.campaigns k c₀ hc₀
  obtain ⟨x', hx', hseq'⟩ := h'.sequel.campaigns k c₀ hc₀
  cases hc.symm.trans hx
  cases hc'.symm.trans hx'
  have hsum : ∀ hd, committed s k hd = committed s' k hd := fun hd => by
    unfold committed; rw [h.reservations_eq h']
  have hreserved : c.reserved = c'.reserved := by
    rw [h.balanced.reserved k c hc, h'.balanced.reserved k c' hc', hsum]
  have hspent : c.spent = c'.spent := by
    rw [h.balanced.spent k c hc, h'.balanced.spent k c' hc', hsum]
  rw [hseq, hseq', hreserved, hspent]

/-- The delivery is a duplicate for reservation `k`. -/
def duplicates (k : Key2) (d : DeliveryRow) : Bool :=
  d.tenant = k.1 ∧ d.status = .duplicate ∧ d.names k.2

theorem settles_or_duplicates (k : Key2) (d : DeliveryRow) :
    (settles k d || duplicates k d) = (decide (d.tenant = k.1 ∧ d.names k.2) && counted d) := by
  rw [Bool.eq_iff_iff]
  simp only [settles, duplicates, counted, Bool.or_eq_true, Bool.and_eq_true, decide_eq_true_eq]
  constructor
  · rintro (⟨ht, hs, hn⟩ | ⟨ht, hs, hn⟩)
    · exact ⟨⟨ht, hn⟩, Or.inl hs⟩
    · exact ⟨⟨ht, hn⟩, Or.inr hs⟩
  · rintro ⟨⟨ht, hn⟩, hs | hs⟩
    · exact Or.inl ⟨ht, hs, hn⟩
    · exact Or.inr ⟨ht, hs, hn⟩

theorem count_settles_eq (h : Finished s₀ D t₀ s) (h' : Finished s₀ D t₀ s') (k : Key2) :
    s.deliveries.count (settles k) = s'.deliveries.count (settles k) := by
  rw [h.charged.once, h'.charged.once, h.isSettled_eq h']

/-- **The two schedules leave the same number of duplicates for each reservation**: the receipts that
match it are the same, and one of them has settled it. -/
theorem count_duplicates_eq (h : Finished s₀ D t₀ s) (h' : Finished s₀ D t₀ s') (k : Key2) :
    s.deliveries.count (duplicates k) = s'.deliveries.count (duplicates k) := by
  have hdisj : ∀ d, settles k d = true → duplicates k d = false := by
    intro d hd
    have hst : d.status = .settled := (of_decide_eq_true hd).2.1
    simp only [duplicates, hst, decide_eq_false_iff_not]
    rintro ⟨-, hdup, -⟩
    cases hdup
  have hboth : s.deliveries.count (fun d => settles k d || duplicates k d) =
      s'.deliveries.count (fun d => settles k d || duplicates k d) := by
    refine Table.count_congr_keys (h.sequel.deliveryKeys.trans h'.sequel.deliveryKeys.symm)
      fun x d d' hd hd' => ?_
    obtain ⟨d₀, -, hd₀, -⟩ := h.delivery_rows h' hd
    have hsame := (h.outcome hd₀ hd).1
    have hsame' := (h'.outcome hd₀ hd').1
    have htenant : d.tenant = d'.tenant := by rw [hsame, hsame']
    have hpay : d.payload = d'.payload := by rw [hsame, hsame']
    have hnames : d.names k.2 = d'.names k.2 := by unfold DeliveryRow.names; rw [hpay]
    rw [settles_or_duplicates, settles_or_duplicates, h.counted_iff h' hd hd', htenant, hnames]
  rw [Table.count_or _ hdisj, Table.count_or _ hdisj, h.count_settles_eq h' k] at hboth
  exact Nat.add_left_cancel hboth

end Finished

/-- **Processing is independent of the order and transparent to redelivery**: from a reachable store, any
two schedules for the same accepted deliveries end alike, up to which receipt settles a reservation. -/
theorem order_independent (H : Digest) (es : List Event) (D : Finset Key2) (t₀ : Int) (as bs : List Step)
    (hD : ∀ k ∈ D, ∃ d, (runEvents H es Db.empty).core.deliveries.find? k = some d ∧
      d.status = .accepted ∧ ∀ p, d.payload = .json p → p.playedAt ≤ t₀ + 60000)
    (has : Schedule H (runEvents H es Db.empty).core D t₀ as)
    (hbs : Schedule H (runEvents H es Db.empty).core D t₀ bs) :
    let s := runSteps H as (runEvents H es Db.empty).core
    let s' := runSteps H bs (runEvents H es Db.empty).core
    s.reservations = s'.reservations ∧ s.campaigns = s'.campaigns ∧
    (∀ k reason, Quarantined s k reason ↔ Quarantined s' k reason) ∧
    (∀ k : Key2,
      s.deliveries.count (fun d => d.tenant = k.1 ∧ d.status = .settled ∧ d.names k.2) =
        s'.deliveries.count (fun d => d.tenant = k.1 ∧ d.status = .settled ∧ d.names k.2) ∧
      s.deliveries.count (fun d => d.tenant = k.1 ∧ d.status = .duplicate ∧ d.names k.2) =
        s'.deliveries.count (fun d => d.tenant = k.1 ∧ d.status = .duplicate ∧ d.names k.2)) := by
  intro s s'
  have hb := balanced_runEvents H es
  have hc := charged_runEvents H es
  have htimely : Timely (runEvents H es Db.empty).core D t₀ := by
    intro k hk d hd
    obtain ⟨x, hx, -, hp⟩ := hD k hk
    cases hd.symm.trans hx
    exact hp
  have h : Finished _ D t₀ s := finished_of_schedule hb hc htimely has
  have h' : Finished _ D t₀ s' := finished_of_schedule hb hc htimely hbs
  refine ⟨h.reservations_eq h', h.campaigns_eq h', h.quarantined_iff h', fun k => ?_⟩
  exact ⟨h.count_settles_eq h' k, h.count_duplicates_eq h' k⟩

/-- A hold and three receipts: two for it, one from a screen it is not for. -/
def threeReceipts : List Event :=
  [.call ⟨.seed "demo", none⟩,
    .call ⟨.reserve "demo" "key" ⟨"cmp-cascade", "sea-01", 1000⟩ ⟨"hold", 0, 0, ⟨"a0", 0⟩⟩, none⟩,
    .call ⟨.accept "demo" ⟨1, "e1", "hold", "sea-01", 5, 5000⟩ ⟨"d1", 0, [], ⟨"a1", 0⟩⟩, none⟩,
    .call ⟨.accept "demo" ⟨1, "e2", "hold", "sea-01", 6, 5000⟩ ⟨"d2", 0, [], ⟨"a2", 0⟩⟩, none⟩,
    .call ⟨.accept "demo" ⟨1, "e3", "hold", "sea-02", 7, 5000⟩ ⟨"d3", 0, [], ⟨"a3", 0⟩⟩, none⟩]

/-- One process at a time, as they came. -/
def inOrder : List Step :=
  [.call ⟨.process "demo" "d1" ⟨10, ⟨"b1", 10⟩⟩, none⟩, .call ⟨.process "demo" "d2" ⟨11, ⟨"b2", 11⟩⟩, none⟩,
    .call ⟨.process "demo" "d3" ⟨12, ⟨"b3", 12⟩⟩, none⟩]

/-- The other way round, with a rolled back attempt, a lost acknowledgement and a redelivery. -/
def redelivered : List Step :=
  [.consume "demo" "d3" ⟨20, ⟨"c1", 20⟩⟩ ⟨false, some 2, false, none⟩,
    .consume "demo" "d3" ⟨20, ⟨"c2", 20⟩⟩ ⟨false, none, true, none⟩,
    .consume "demo" "d2" ⟨21, ⟨"c3", 21⟩⟩ ⟨false, none, false, none⟩,
    .consume "demo" "d3" ⟨22, ⟨"c4", 22⟩⟩ ⟨false, none, false, none⟩,
    .call ⟨.process "demo" "d1" ⟨23, ⟨"c5", 23⟩⟩, none⟩]

/-- Digests that name the event, and the input's campaign. -/
def byName : Digest := ⟨fun inp => inp.campaignID, fun r => r.eventID⟩

theorem order_independent_redelivered :
    let s₀ := (runEvents byName threeReceipts Db.empty).core
    (runSteps byName inOrder s₀).reservations = (runSteps byName redelivered s₀).reservations ∧
      (runSteps byName inOrder s₀).deliveries ≠ (runSteps byName redelivered s₀).deliveries := by
  refine ⟨(order_independent byName threeReceipts {("demo", "d1"), ("demo", "d2"), ("demo", "d3")} 0
    inOrder redelivered ?_ ⟨?_, ?_⟩ ⟨?_, ?_⟩).1, by decide +kernel⟩
  · intro k hk
    simp only [Finset.mem_insert, Finset.mem_singleton] at hk
    rcases hk with rfl | rfl | rfl
    · exact ⟨⟨"demo", "d1", "e1", "e1", .json ⟨1, "e1", "hold", "sea-01", 5, 5000⟩, .accepted, .none, 0, 0⟩,
        by decide +kernel, rfl, fun p hp => by cases hp; decide⟩
    · exact ⟨⟨"demo", "d2", "e2", "e2", .json ⟨1, "e2", "hold", "sea-01", 6, 5000⟩, .accepted, .none, 0, 0⟩,
        by decide +kernel, rfl, fun p hp => by cases hp; decide⟩
    · exact ⟨⟨"demo", "d3", "e3", "e3", .json ⟨1, "e3", "hold", "sea-02", 7, 5000⟩, .accepted, .none, 0, 0⟩,
        by decide +kernel, rfl, fun p hp => by cases hp; decide⟩
  · simp [inOrder, Step.ops, Scheduled]
  · decide +kernel
  · simp [redelivered, Step.ops, Scheduled]
  · decide +kernel

end Afterglow.Pipeline.Redelivery
