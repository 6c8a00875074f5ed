import Afterglow.Core.Store

/-! # What each transaction can do

For each transaction of `Store`, run alone, an inductive predicate lists its outcomes: the answer
together with the store it leaves, and what is known of the store before. A transaction that is refused
or rolled back leaves the store as it was. Everything later about the store argues from these lists and
never looks at the statements again. -/

namespace Afterglow.Core.Outcome

open Afterglow.Sql.Rows Afterglow.Sql.Txn Afterglow.Core.Model Afterglow.Core.Statements
open Afterglow.Core.Store

theorem eval_core {β : Type} (st : Stmt β) (locked : Lock → Bool) (s : Store) :
    core.eval st locked s = evalStmt locked s st := rfl

/-! ### Taking a row lock changes nothing -/

section Lock

variable {s : Store}

theorem write_campaign_self {c : CampaignRow} (h : s.campaigns.find? c.pk = some c) :
    core.writeAll [.campaign c] s = s := by
  show { s with campaigns := s.campaigns.put c } = s
  rw [Table.put_self h]

theorem write_reservation_self {r : ReservationRow} (h : s.reservations.find? r.pk = some r) :
    core.writeAll [.reservation r] s = s := by
  show { s with reservations := s.reservations.put r } = s
  rw [Table.put_self h]

theorem write_delivery_self {d : DeliveryRow} (h : s.deliveries.find? d.pk = some d) :
    core.writeAll [.delivery d] s = s := by
  show { s with deliveries := s.deliveries.put d } = s
  rw [Table.put_self h]

end Lock

/-! ### An `UPDATE` of every row with a key is a `modify` -/

theorem effect_campaign {s : Store} {k : Key2} {f : CampaignRow → CampaignRow} {n : ℕ} {ws : List Write}
    (h : updateRow s.campaigns k (fun _ => true) f CampaignRow.check Write.campaign = .ok (n, ws)) :
    core.writeAll ws s = { s with campaigns := s.campaigns.modify k f } ∧
      ∀ c, s.campaigns.find? k = some c → (f c).check = .ok () := by
  rcases updateRow_cases h with ⟨-, rfl, hno⟩ | ⟨c, hc, -, hck, -, rfl⟩
  · have hk : s.campaigns.find? k = none :=
      Option.eq_none_iff_forall_ne_some.mpr fun c hc => absurd (hno c hc) (by simp)
    rw [Table.modify_of_none _ hk]
    exact ⟨rfl, fun c hc => by rw [hk] at hc; cases hc⟩
  · rw [Table.modify_of_find? _ hc]
    exact ⟨rfl, fun c' hc' => by rw [hc] at hc'; cases hc'; exact hck⟩

theorem effect_outbox {s : Store} {k : Key2} {f : OutboxRow → OutboxRow} {n : ℕ} {ws : List Write}
    (h : updateRow s.outbox k (fun _ => true) f (fun _ => unchecked) Write.outbox = .ok (n, ws)) :
    core.writeAll ws s = { s with outbox := s.outbox.modify k f } := by
  rcases updateRow_cases h with ⟨-, rfl, hno⟩ | ⟨o, ho, -, -, -, rfl⟩
  · have hk : s.outbox.find? k = none :=
      Option.eq_none_iff_forall_ne_some.mpr fun o ho => absurd (hno o ho) (by simp)
    rw [Table.modify_of_none _ hk]; rfl
  · rw [Table.modify_of_find? _ ho]; rfl

/-- An `UPDATE` without a constraint does not fail. -/
theorem updateRow_unchecked {ρ : Type} {key : ρ → Key2} (t : Table key) (k : Key2) (p : ρ → Bool)
    (f : ρ → ρ) (w : ρ → Write) : ∃ n ws, updateRow t k p f (fun _ => unchecked) w = .ok (n, ws) := by
  unfold updateRow unchecked
  cases t.find? k with
  | none => exact ⟨0, [], rfl⟩
  | some r =>
    by_cases hp : p r = true
    · exact ⟨1, [w (f r)], by simp only [hp, if_true]⟩
    · exact ⟨0, [], by simp only [hp]; rfl⟩

/-- What `audit` does to a run: its identifier is taken, or the row is there for the rest. -/
theorem runFrom_audit {α : Type} {C : Except Err α × Store → Prop} {s₀ s : Store}
    {tenant resource detail : String} {kind : Kind} {d : Stamp} {k : Tx α}
    (herr : s.audit.find? d.id ≠ none → C (.error (.storage (.unique "audit")), s₀))
    (hok : s.audit.find? d.id = none → C (core.runFrom s₀ k
      { s with audit := s.audit.put ⟨d.id, tenant, kind, resource, detail, d.at_⟩ })) :
    C (core.runFrom s₀ (audit tenant kind resource detail d k) s) := by
  unfold audit
  refine core.runFrom_exec (fun e he => ?_) fun n ws he => ?_
  · rw [eval_core, evalStmt] at he
    obtain ⟨-, ⟨ha, rfl⟩ | ⟨-, he⟩⟩ := insertRow_error he
    · exact herr ha
    · cases he
  · rw [eval_core, evalStmt] at he
    rcases insertRow_cases he with ⟨-, -, x, -, hx⟩ | ⟨-, ha, -, rfl, rfl⟩
    · cases hx
    · exact hok ha

/-! ### Reserve -/

/-- The store after a new hold. -/
def holding (s : Store) (c : CampaignRow) (r : ReservationRow) (a : AuditRow) : Store :=
  { s with
    campaigns := s.campaigns.put { c with reserved := c.reserved + r.cost }
    reservations := s.reservations.put r
    audit := s.audit.put a }

/-- The audit row of a new hold. -/
def reservedAudit (tenant : String) (inp : ReservationInput) (d : ReserveDraw) : AuditRow :=
  ⟨d.stamp.id, tenant, .reserved, d.id, toString inp.cost ++ " micros held; " ++ inp.screenID,
    d.stamp.at_⟩

inductive ReserveOut (H : Digest) (tenant key : String) (inp : ReservationInput) (d : ReserveDraw)
    (s : Store) : Except Err (Reservation × Bool) × Store → Prop
  | invalid (hv : validReserve key inp = false) :
      ReserveOut H tenant key inp d s
        (.error (.invalid "valid IDs and cost_micros between 1 and 1000000000 required"), s)
  | noCampaign (hv : validReserve key inp = true)
      (hc : s.campaigns.find? (tenant, inp.campaignID) = none) :
      ReserveOut H tenant key inp d s (.error .notFound, s)
  | unlocked (c : CampaignRow) (hc : s.campaigns.find? (tenant, inp.campaignID) = some c) (e : Err)
      (he : c.check = .error e) : ReserveOut H tenant key inp d s (.error e, s)
  | conflict (r : ReservationRow) (hk : byKey s tenant key = some r)
      (hf : r.fingerprint ≠ H.input inp) : ReserveOut H tenant key inp d s (.error .conflict, s)
  | replayed (c : CampaignRow) (r : ReservationRow) (hv : validReserve key inp = true)
      (hc : s.campaigns.find? (tenant, inp.campaignID) = some c)
      (hk : byKey s tenant key = some r) (hf : r.fingerprint = H.input inp) :
      ReserveOut H tenant key inp d s (.ok (r.toReservation, true), s)
  | noScreen (hk : byKey s tenant key = none) (hs : s.screens.find? inp.screenID = none) :
      ReserveOut H tenant key inp d s (.error .notFound, s)
  | overBudget (c : CampaignRow) (hc : s.campaigns.find? (tenant, inp.campaignID) = some c)
      (hk : byKey s tenant key = none) (hb : ¬ inp.cost ≤ c.budget - c.spent - c.reserved) :
      ReserveOut H tenant key inp d s (.error .budget, s)
  | undebited (c : CampaignRow) (hc : s.campaigns.find? (tenant, inp.campaignID) = some c)
      (hv : validReserve key inp = true) (hk : byKey s tenant key = none)
      (hb : inp.cost ≤ c.budget - c.spent - c.reserved) (e : Err)
      (he : CampaignRow.check { c with reserved := c.reserved + inp.cost } = .error e) :
      ReserveOut H tenant key inp d s (.error e, s)
  | clash (table : String) (hk : byKey s tenant key = none)
      (hid : s.reservations.find? (tenant, d.id) ≠ none ∨ s.audit.find? d.stamp.id ≠ none) :
      ReserveOut H tenant key inp d s (.error (.storage (.unique table)), s)
  | made (c : CampaignRow) (hv : validReserve key inp = true)
      (hc : s.campaigns.find? (tenant, inp.campaignID) = some c)
      (hk : byKey s tenant key = none)
      (hs : s.screens.find? inp.screenID ≠ none)
      (hb : inp.cost ≤ c.budget - c.spent - c.reserved)
      (hck : CampaignRow.check { c with reserved := c.reserved + inp.cost } = .ok ())
      (hid : s.reservations.find? (tenant, d.id) = none)
      (ha : s.audit.find? d.stamp.id = none) :
      ReserveOut H tenant key inp d s
        (.ok ((newReservation H tenant key inp d).toReservation, false),
          holding s c (newReservation H tenant key inp d) (reservedAudit tenant inp d))

theorem cost_of_valid {key : String} {inp : ReservationInput} (hv : validReserve key inp = true) :
    0 < inp.cost := by
  simp only [validReserve, Bool.and_eq_true, Bool.not_eq_true', Bool.or_eq_false_iff,
    decide_eq_false_iff_not] at hv
  exact not_le.mp hv.2.1

/-- The foreign keys of the hold `Reserve` makes are there. -/
theorem refs_newReservation {H : Digest} {tenant key : String} {inp : ReservationInput}
    {d : ReserveDraw} {s : Store} {v : Screen} {c : CampaignRow} (hv : validReserve key inp = true)
    (hs : s.screens.find? inp.screenID = some v)
    (hc : s.campaigns.find? (tenant, inp.campaignID) = some c) :
    ReservationRow.refs s (newReservation H tenant key inp d) = .ok () := by
  have hok : (newReservation H tenant key inp d).ok = true := decide_eq_true (cost_of_valid hv)
  have hs' : s.screens.find? (newReservation H tenant key inp d).screen = some v := hs
  have hc' : s.campaigns.find? ((newReservation H tenant key inp d).tenant,
    (newReservation H tenant key inp d).campaign) = some c := hc
  unfold ReservationRow.refs
  rw [hok, hs', hc']
  rfl

theorem byKey_none {s : Store} {tenant key : String} :
    byKey s tenant key = none ↔
      ∀ x ∈ s.reservations, decide (x.tenant = tenant ∧ x.idemKey = key) = false := by
  unfold byKey
  rw [List.find?_eq_none]
  simp only [Bool.not_eq_true]
  exact Iff.rfl

theorem reserve_out (H : Digest) (tenant key : String) (inp : ReservationInput) (d : ReserveDraw)
    (s : Store) : ReserveOut H tenant key inp d s (core.atomic (reserve H tenant key inp d) s) := by
  unfold Engine.atomic reserve
  split_ifs with hv
  · exact .invalid (by simpa using hv)
  have hv' : validReserve key inp = true := by simpa using hv
  refine core.runFrom_exec (fun e he => ?_) fun n ws he => ?_
  · obtain ⟨c, hc, -, hck⟩ := updateRow_error he
    exact .unlocked c hc e hck
  rcases updateRow_cases he with ⟨rfl, rfl, hno⟩ | ⟨c, hc, -, -, rfl, rfl⟩
  · have hc : s.campaigns.find? (tenant, inp.campaignID) = none :=
      Option.eq_none_iff_forall_ne_some.mpr fun c hc => absurd (hno c hc) (by simp)
    exact .noCampaign hv' hc
  rw [write_campaign_self (by rw [Table.find?_key hc]; exact hc)]
  simp only [Nat.one_ne_zero, if_false]
  rw [core.runFrom_read rfl]
  cases hk : byKey s tenant key with
  | some r =>
    simp only [Option.map_some]
    split_ifs with hf
    · exact .conflict r hk hf
    rw [core.runFrom_read rfl, hk]
    exact .replayed c r hv' hc hk (by simpa using hf)
  | none =>
    simp only [Option.map_none]
    unfold reserveNew
    rw [core.runFrom_read rfl]
    cases hs : s.screens.find? inp.screenID with
    | none => exact .noScreen hk hs
    | some v =>
      simp only [Option.map_some]
      refine core.runFrom_exec (fun e he => ?_) fun n ws he => ?_
      · obtain ⟨c', hc', hb, hck⟩ := updateRow_error he
        exact .undebited c' hc' hv' hk (of_decide_eq_true hb) e hck
      rcases updateRow_cases he with ⟨rfl, rfl, hno⟩ | ⟨c', hc', hb, hck, rfl, rfl⟩
      · exact .overBudget c hc hk (of_decide_eq_false (hno c hc))
      cases hc.symm.trans hc'
      have hb' : inp.cost ≤ c.budget - c.spent - c.reserved := of_decide_eq_true hb
      have hck' : c.pk = (tenant, inp.campaignID) := Table.find?_key hc
      simp only [Nat.one_ne_zero, if_false]
      refine core.runFrom_exec (fun e he => ?_) fun n ws he => ?_
      · obtain ⟨-, ⟨hid, rfl⟩ | ⟨-, hrefs⟩⟩ := insertRow_error he
        · exact .clash _ hk (Or.inl hid)
        · -- the debited campaign is still there under its key
          have hc₁ : (s.campaigns.put { c with reserved := c.reserved + inp.cost }).find?
              (tenant, inp.campaignID) = some { c with reserved := c.reserved + inp.cost } := by
            rw [← hck']; exact Table.find?_put_self _ _
          cases hrefs.symm.trans (refs_newReservation hv' hs hc₁)
      rcases insertRow_cases he with ⟨-, -, x, hx, hxk⟩ | ⟨-, hid, -, rfl, rfl⟩
      · cases hxk.symm.trans (byKey_none.mp hk x hx)
      simp only [Nat.one_ne_zero, if_false]
      refine runFrom_audit (fun ha => .clash _ hk (Or.inr ha)) fun ha => ?_
      exact .made c hv' hc hk (by rw [hs]; simp) hb' hck hid ha

/-! ### Accept -/

/-- The store after a new delivery. -/
def accepting (s : Store) (dl : DeliveryRow) (trace : Trace) (a : AuditRow) : Store :=
  { s with
    deliveries := s.deliveries.put dl
    outbox := s.outbox.put ⟨dl.tenant, dl.id, .pending, "", 0, 0, 0⟩
    context := s.context.put ⟨dl.tenant, dl.id, .json trace⟩
    audit := s.audit.put a }

/-- The audit row of a new delivery. -/
def acceptedAudit (tenant : String) (d : AcceptDraw) : AuditRow :=
  ⟨d.stamp.id, tenant, .accepted, d.id, "Receipt and dispatch intent committed together", d.stamp.at_⟩

/-- The identifiers an `Accept` draws are new to the store. -/
structure AcceptFresh (tenant : String) (d : AcceptDraw) (s : Store) : Prop where
  delivery : s.deliveries.find? (tenant, d.id) = none
  outbox : s.outbox.find? (tenant, d.id) = none
  context : s.context.find? (tenant, d.id) = none
  audit : s.audit.find? d.stamp.id = none

inductive AcceptOut (H : Digest) (tenant : String) (r : Receipt) (d : AcceptDraw) (s : Store) :
    Except Err (String × Bool) × Store → Prop
  | invalid (hv : validReceipt r = false) :
      AcceptOut H tenant r d s
        (.error (.invalid "event, reservation and screen IDs required"), s)
  | conflict (dl : DeliveryRow) (hv : validReceipt r = true)
      (hk : byEvent s tenant r.eventID = some dl) (hf : dl.fingerprint ≠ H.receipt r) :
      AcceptOut H tenant r d s (.error .conflict, s)
  | replayed (dl : DeliveryRow) (hv : validReceipt r = true)
      (hk : byEvent s tenant r.eventID = some dl) (hf : dl.fingerprint = H.receipt r) :
      AcceptOut H tenant r d s (.ok (dl.id, true), s)
  | clash (w : Storage) (hk : byEvent s tenant r.eventID = none) (hf : ¬ AcceptFresh tenant d s) :
      AcceptOut H tenant r d s (.error (.storage w), s)
  | made (hv : validReceipt r = true) (hk : byEvent s tenant r.eventID = none)
      (hf : AcceptFresh tenant d s) :
      AcceptOut H tenant r d s
        (.ok (d.id, false),
          accepting s (newDelivery H tenant r d) d.trace (acceptedAudit tenant d))

theorem byEvent_none {s : Store} {tenant eventID : String} :
    byEvent s tenant eventID = none ↔
      ∀ x ∈ s.deliveries, decide (x.tenant = tenant ∧ x.eventID = eventID) = false := by
  unfold byEvent
  rw [List.find?_eq_none]
  simp only [Bool.not_eq_true]
  exact Iff.rfl

theorem refsDelivery_put {s s' : Store} {table : String} (dl : DeliveryRow)
    (h : s'.deliveries = s.deliveries.put dl) :
    refsDelivery s' table (dl.tenant, dl.id) = .ok () := by
  unfold refsDelivery
  have hfind : (s.deliveries.put dl).find? (dl.tenant, dl.id) = some dl := Table.find?_put_self _ dl
  rw [h, hfind]; rfl

theorem accept_out (H : Digest) (tenant : String) (r : Receipt) (d : AcceptDraw) (s : Store) :
    AcceptOut H tenant r d s (core.atomic (accept H tenant r d) s) := by
  unfold Engine.atomic accept
  split_ifs with hv
  · exact .invalid (by simpa using hv)
  have hv' : validReceipt r = true := by simpa using hv
  refine core.runFrom_exec (fun e he => ?_) fun n ws he => ?_
  · rw [eval_core, evalStmt] at he
    obtain ⟨hk, ⟨hid, rfl⟩ | ⟨-, hc⟩⟩ := insertRow_error he
    · exact .clash _ (byEvent_none.mpr hk) fun hf => hid hf.delivery
    · cases hc
  rw [eval_core, evalStmt] at he
  rcases insertRow_cases he with ⟨rfl, rfl, x, hx, hxk⟩ | ⟨hk, hid, -, rfl, rfl⟩
  · rw [if_pos rfl, core.writeAll_nil, core.runFrom_read rfl]
    cases hk : byEvent s tenant r.eventID with
    | none => cases hxk.symm.trans (byEvent_none.mp hk x hx)
    | some dl =>
      simp only [Option.map_some]
      split_ifs with hf
      · exact .conflict dl hv' hk hf
      · exact .replayed dl hv' hk (by simpa using hf)
  · have hk' := byEvent_none.mpr hk
    simp only [Nat.one_ne_zero, if_false]
    refine core.runFrom_exec (fun e he => ?_) fun n ws he => ?_
    · obtain ⟨-, ⟨ho, rfl⟩ | ⟨-, hc⟩⟩ := insertRow_error he
      · exact .clash _ hk' fun hf => ho hf.outbox
      · cases hc.symm.trans (refsDelivery_put (s := s) (newDelivery H tenant r d) rfl)
    rcases insertRow_cases he with ⟨-, -, x, -, hx⟩ | ⟨-, ho, -, rfl, rfl⟩
    · cases hx
    refine core.runFrom_exec (fun e he => ?_) fun n ws he => ?_
    · obtain ⟨-, ⟨hx, rfl⟩ | ⟨-, hc⟩⟩ := insertRow_error he
      · exact .clash _ hk' fun hf => hx hf.context
      · cases hc.symm.trans (refsDelivery_put (s := s) (newDelivery H tenant r d) rfl)
    rcases insertRow_cases he with ⟨-, -, x, -, hx⟩ | ⟨-, hx, -, rfl, rfl⟩
    · cases hx
    refine runFrom_audit (fun ha => .clash _ hk' fun hf => ha hf.audit) fun ha => ?_
    exact .made hv' hk' ⟨hid, ho, hx, ha⟩

/-! ### Process -/

/-- **The verdict on a receipt**: what `Process` decides at clock `now` on an accepted delivery of
`tenant` with payload `body`. -/
def verdict (s : Store) (tenant : String) (now : Int) (body : Text Receipt) : Status × Reason :=
  match body.unmarshal with
  | none => (.quarantined, .malformedPayload)
  | some p =>
    if receiptReason now p ≠ .none then (.quarantined, receiptReason now p)
    else
      match s.reservations.find? (tenant, p.reservationID) with
      | none => (.quarantined, .unknownReservation)
      | some r =>
        if reservationReason p (some r.toReservation) ≠ .none then
          (.quarantined, reservationReason p (some r.toReservation))
        else if r.state = .held then (.settled, .matched)
        else (.duplicate, .reservationAlreadySettled)

/-- The delivery after a decision. -/
def decidedRow (dl : DeliveryRow) (status : Status) (reason : Reason) : DeliveryRow :=
  { dl with attempts := dl.attempts + 1, status, reason }

/-- The audit row of a decision. -/
def decidedAudit (dl : DeliveryRow) (status : Status) (reason : Reason) (d : ProcessDraw) : AuditRow :=
  ⟨d.stamp.id, dl.tenant, status.kind, dl.id, reason.text, d.stamp.at_⟩

/-- The store after a decision is recorded. -/
def deciding (s : Store) (dl : DeliveryRow) (status : Status) (reason : Reason) (d : ProcessDraw) :
    Store :=
  { s with
    deliveries := s.deliveries.put (decidedRow dl status reason)
    audit := s.audit.put (decidedAudit dl status reason d) }

/-- The campaign after a play of `cost` is settled. -/
def charge (cost : Int) (c : CampaignRow) : CampaignRow :=
  { c with reserved := c.reserved - cost, spent := c.spent + cost }

/-- The campaign after a hold of `cost` is released. -/
def refund (cost : Int) (c : CampaignRow) : CampaignRow := { c with reserved := c.reserved - cost }

/-- The store after the hold `r` is settled. -/
def settling (s : Store) (r : ReservationRow) : Store :=
  { s with
    reservations := s.reservations.put { r with state := .settled }
    campaigns := s.campaigns.modify (r.tenant, r.campaign) (charge r.cost) }

inductive ProcessOut (tenant id : String) (d : ProcessDraw) (s : Store) :
    Except Err Status × Store → Prop
  | missing (hd : s.deliveries.find? (tenant, id) = none) :
      ProcessOut tenant id d s (.error .notFound, s)
  | unlocked (r : ReservationRow) (hr : r ∈ s.reservations) (e : Err) (he : r.check = .error e) :
      ProcessOut tenant id d s (.error e, s)
  | uncharged (r : ReservationRow) (c : CampaignRow) (hr : r ∈ s.reservations) (hh : r.state = .held)
      (hc : s.campaigns.find? (r.tenant, r.campaign) = some c) (e : Err)
      (he : (charge r.cost c).check = .error e) : ProcessOut tenant id d s (.error e, s)
  | clash (ha : s.audit.find? d.stamp.id ≠ none) :
      ProcessOut tenant id d s (.error (.storage (.unique "audit")), s)
  | seen (dl : DeliveryRow) (hd : s.deliveries.find? (tenant, id) = some dl)
      (hs : dl.status ≠ .accepted) :
      ProcessOut tenant id d s
        (.ok dl.status, { s with deliveries := s.deliveries.put { dl with attempts := dl.attempts + 1 } })
  | decided (dl : DeliveryRow) (status : Status) (reason : Reason)
      (hd : s.deliveries.find? (tenant, id) = some dl) (hs : dl.status = .accepted)
      (hv : verdict s tenant d.now dl.payload = (status, reason)) (hne : status ≠ .settled)
      (ha : s.audit.find? d.stamp.id = none) :
      ProcessOut tenant id d s (.ok status, deciding s dl status reason d)
  | settled (dl : DeliveryRow) (p : Receipt) (r : ReservationRow)
      (hd : s.deliveries.find? (tenant, id) = some dl) (hs : dl.status = .accepted)
      (hp : dl.payload = .json p) (hv : verdict s tenant d.now dl.payload = (.settled, .matched))
      (hr : s.reservations.find? (tenant, p.reservationID) = some r) (hh : r.state = .held)
      (hck : ∀ c, s.campaigns.find? (r.tenant, r.campaign) = some c →
        (charge r.cost c).check = .ok ())
      (ha : s.audit.find? d.stamp.id = none) :
      ProcessOut tenant id d s
        (.ok .settled, deciding (settling s r) dl .settled .matched d)

/-- What `decideAs` does: the audit's identifier is taken, or the decision is recorded on a delivery
already counted. -/
theorem runFrom_decideAs {C : Except Err Status × Store → Prop} {s₀ s : Store} {dl : DeliveryRow}
    {tenant id : String} {status : Status} {reason : Reason} {d : ProcessDraw}
    (hd : s₀.deliveries.find? (tenant, id) = some dl)
    (hs : s.deliveries = s₀.deliveries.put { dl with attempts := dl.attempts + 1 })
    (hsa : s.audit = s₀.audit)
    (herr : s₀.audit.find? d.stamp.id ≠ none → C (.error (.storage (.unique "audit")), s₀))
    (hok : s₀.audit.find? d.stamp.id = none → C (.ok status,
      { s with
        deliveries := s₀.deliveries.put (decidedRow dl status reason)
        audit := s₀.audit.put (decidedAudit dl status reason d) })) :
    C (core.runFrom s₀ (decideAs tenant id status reason d) s) := by
  have htid : dl.pk = (tenant, id) := Table.find?_key hd
  cases htid
  unfold decideAs
  refine core.runFrom_exec_total (updateRow_unchecked _ _ _ _ _) fun n ws he => ?_
  rw [eval_core, evalStmt] at he
  have hfind : s.deliveries.find? (dl.tenant, dl.id) = some { dl with attempts := dl.attempts + 1 } := by
    rw [hs]; exact Table.find?_put_self _ _
  rcases updateRow_cases he with ⟨-, -, hno⟩ | ⟨x, hx, -, -, rfl, rfl⟩
  · exact absurd (hno _ hfind) (by simp)
  cases hfind.symm.trans hx
  refine runFrom_audit (fun ha => herr (by rw [← hsa]; exact ha)) fun ha => ?_
  have hput : s.deliveries.put (decidedRow dl status reason) =
      s₀.deliveries.put (decidedRow dl status reason) := by rw [hs]; exact Table.put_put rfl
  have h := hok (by rw [← hsa]; exact ha)
  rw [← hput, ← hsa] at h
  exact h

/-- The verdict once the receipt has passed the checks that need no reservation. -/
theorem verdict_json (s : Store) (tenant : String) {now : Int} {p : Receipt}
    (h : receiptReason now p = .none) :
    verdict s tenant now (.json p) =
      match s.reservations.find? (tenant, p.reservationID) with
      | none => (.quarantined, .unknownReservation)
      | some r =>
        if reservationReason p (some r.toReservation) ≠ .none then
          (.quarantined, reservationReason p (some r.toReservation))
        else if r.state = .held then (.settled, .matched)
        else (.duplicate, .reservationAlreadySettled) := by
  simp only [verdict, Text.unmarshal, h, ne_eq, not_true_eq_false, if_false]

theorem process_out (tenant id : String) (d : ProcessDraw) (s : Store) :
    ProcessOut tenant id d s (core.atomic (process tenant id d) s) := by
  unfold Engine.atomic process
  refine core.runFrom_exec_total (updateRow_unchecked _ _ _ _ _) fun n ws he => ?_
  rw [eval_core, evalStmt] at he
  rcases updateRow_cases he with ⟨rfl, rfl, hno⟩ | ⟨dl, hd, -, -, rfl, rfl⟩
  · refine .missing (Option.eq_none_iff_forall_ne_some.mpr fun dl hd => ?_)
    exact absurd (hno dl hd) (by simp)
  have htid : dl.pk = (tenant, id) := Table.find?_key hd
  cases htid
  simp only [Nat.one_ne_zero, if_false]
  set dl₁ : DeliveryRow := { dl with attempts := dl.attempts + 1 } with hdl₁
  set s₁ : Store := core.writeAll [Write.delivery dl₁] s with hs₁
  have hfind : s₁.deliveries.find? (dl.tenant, dl.id) = some dl₁ := Table.find?_put_self _ dl₁
  rw [core.runFrom_read rfl, hfind]
  simp only [Option.map_some]
  split_ifs with hst
  · exact .seen dl hd hst
  have hst' : dl.status = .accepted := by simpa using hst
  have hrec : ∀ status reason, verdict s dl.tenant d.now dl.payload = (status, reason) →
      status ≠ .settled → ProcessOut dl.tenant dl.id d s
        (core.runFrom s (decideAs dl.tenant dl.id status reason d) s₁) := fun status reason hv hne =>
    runFrom_decideAs hd rfl rfl .clash fun ha =>
      .decided dl status reason hd hst' hv hne ha
  unfold judge
  show ProcessOut dl.tenant dl.id d s (core.runFrom s (match dl.payload.unmarshal with
    | none => _ | some p => _) s₁)
  cases hp : dl.payload with
  | other raw => exact hrec _ _ (by rw [hp]; rfl) (by simp)
  | json p =>
    simp only [Text.unmarshal]
    split_ifs with hr
    · refine hrec _ _ ?_ (by simp)
      rw [hp]; simp only [verdict, Text.unmarshal, if_pos hr]
    have hr' : receiptReason d.now p = .none := by simpa using hr
    refine core.runFrom_exec (fun e he => ?_) fun n ws he => ?_
    · obtain ⟨r, hr, -, hck⟩ := updateRow_error he
      have hmem : r ∈ s.reservations := Table.mem_of_find? hr
      exact .unlocked r hmem e hck
    rw [eval_core, evalStmt] at he
    -- the lock leaves the reservations as they are, whether it finds the row or not
    have hlock : core.writeAll ws s₁ = s₁ := by
      rcases updateRow_cases he with ⟨-, rfl, -⟩ | ⟨r, hr, -, -, -, rfl⟩
      · rfl
      · exact write_reservation_self (by rw [Table.find?_key hr]; exact hr)
    rw [hlock, core.runFrom_read rfl]
    have hv := verdict_json s dl.tenant hr'
    rw [← hp] at hv
    show ProcessOut dl.tenant dl.id d s (core.runFrom s (settle dl.tenant dl.id p d
      ((s.reservations.find? (dl.tenant, p.reservationID)).map (·.toReservation))) s₁)
    cases hfr : s.reservations.find? (dl.tenant, p.reservationID) with
    | none =>
      rw [hfr] at hv
      exact hrec _ _ hv (by simp)
    | some r =>
      rw [hfr] at hv
      simp only [Option.map_some]
      unfold settle
      cases hrr : reservationReason p (some r.toReservation) with
      | none =>
        simp only [hrr, ne_eq, not_true_eq_false, if_false] at hv ⊢
        split_ifs at hv ⊢ with hh
        · have hrk : r.pk = (dl.tenant, p.reservationID) := Table.find?_key hfr
          have hrt : r.tenant = dl.tenant := congrArg Prod.fst hrk
          have hri : r.id = p.reservationID := congrArg Prod.snd hrk
          refine core.runFrom_exec (fun e he => ?_) fun n ws he => ?_
          · obtain ⟨r', hr', -, hck⟩ := updateRow_error he
            have hmem : r' ∈ s.reservations := Table.mem_of_find? hr'
            exact .unlocked r' hmem e hck
          rw [eval_core, evalStmt] at he
          rcases updateRow_cases he with ⟨-, -, hno⟩ | ⟨r', hr₂, -, -, rfl, rfl⟩
          · exact absurd (hno r (by rw [hri]; exact hfr)) (by simp)
          have hrr' : s.reservations.find? (dl.tenant, r.id) = some r' := hr₂
          rw [hri, hfr] at hrr'
          cases hrr'
          refine core.runFrom_exec (fun e he => ?_) fun n ws he => ?_
          · obtain ⟨c, hc, -, hck⟩ := updateRow_error he
            rw [← hrt] at hc
            exact .uncharged r c (Table.mem_of_find? hfr) hh hc e hck
          rw [eval_core, evalStmt] at he
          rw [← hrt] at he
          obtain ⟨hw, hck⟩ := effect_campaign he
          rw [hw]
          refine runFrom_decideAs hd rfl rfl .clash fun ha => ?_
          exact .settled dl p r hd hst' hp hv hfr hh hck ha
        · exact hrec _ _ hv (by simp)
      | _ =>
        simp only [hrr] at hv ⊢
        exact hrec _ _ (by rw [hv]; simp) (by simp)

/-! ### Release -/

/-- The store after the hold `r` is released. -/
def releasing (s : Store) (r : ReservationRow) (a : AuditRow) : Store :=
  { s with
    reservations := s.reservations.put { r with state := .released }
    campaigns := s.campaigns.modify (r.tenant, r.campaign) (refund r.cost)
    audit := s.audit.put a }

/-- The audit row of a release. -/
def releasedAudit (tenant id : String) (d : Stamp) : AuditRow :=
  ⟨d.id, tenant, .released, id, "Expired after receipt grace period; funds returned", d.at_⟩

inductive ReleaseOut (tenant id : String) (now : Int) (d : Stamp) (s : Store) :
    Except Err Unit × Store → Prop
  | unreleased (r : ReservationRow) (hr : r ∈ s.reservations) (e : Err) (he : r.check = .error e) :
      ReleaseOut tenant id now d s (.error e, s)
  | unrefunded (r : ReservationRow) (c : CampaignRow) (hr : r ∈ s.reservations) (hh : r.state = .held)
      (hc : s.campaigns.find? (r.tenant, r.campaign) = some c) (e : Err)
      (he : (refund r.cost c).check = .error e) : ReleaseOut tenant id now d s (.error e, s)
  | clash (ha : s.audit.find? d.id ≠ none) :
      ReleaseOut tenant id now d s (.error (.storage (.unique "audit")), s)
  | idle : ReleaseOut tenant id now d s (.ok (), s)
  | released (r : ReservationRow) (hr : s.reservations.find? (tenant, id) = some r)
      (hh : r.state = .held) (he : r.expires < now - 900000)
      (hck : ∀ c, s.campaigns.find? (r.tenant, r.campaign) = some c →
        (refund r.cost c).check = .ok ())
      (ha : s.audit.find? d.id = none) :
      ReleaseOut tenant id now d s (.ok (), releasing s r (releasedAudit tenant id d))

theorem release_out (tenant id : String) (now : Int) (d : Stamp) (s : Store) :
    ReleaseOut tenant id now d s (core.atomic (release tenant id now d) s) := by
  unfold Engine.atomic release
  refine core.runFrom_exec (fun e he => ?_) fun n ws he => ?_
  · obtain ⟨r, hr, -, hck⟩ := updateRow_error he
    exact .unreleased r (Table.mem_of_find? hr) e hck
  rw [eval_core, evalStmt] at he
  rcases updateRow_cases he with ⟨rfl, rfl, -⟩ | ⟨r, hr, hp, -, rfl, rfl⟩
  · exact .idle
  have hrk : r.pk = (tenant, id) := Table.find?_key hr
  cases hrk
  simp only [Nat.one_ne_zero, if_false]
  have hfind : (core.writeAll [Write.reservation { r with state := .released }] s).reservations.find?
      (r.tenant, r.id) = some { r with state := .released } := Table.find?_put_self _ _
  rw [core.runFrom_read rfl, hfind]
  simp only [Option.map_some]
  have hp' := of_decide_eq_true hp
  refine core.runFrom_exec (fun e he => ?_) fun n ws he => ?_
  · obtain ⟨c, hc, -, hck⟩ := updateRow_error he
    exact .unrefunded r c (Table.mem_of_find? hr) hp'.1 hc e hck
  rw [eval_core, evalStmt] at he
  obtain ⟨hw, hck⟩ := effect_campaign he
  rw [hw]
  refine runFrom_audit (fun ha => .clash ha) fun ha => ?_
  exact .released r hr hp'.1 hp'.2 hck ha

/-! ### The queue -/

/-- The intent after a claim. -/
def leasedRow (o : OutboxRow) (owner : String) (now : Int) : OutboxRow :=
  { o with state := .leased, owner, leaseUntil := now + 30000, attempts := o.attempts + 1 }

inductive ClaimOut (postgres : Bool) (now : Int) (owner : String) (s : Store) :
    Except Err (Option Job) × Store → Prop
  | refused (e : Err) : ClaimOut postgres now owner s (.error e, s)
  | idle (h : firstDue (claimable s postgres Engine.alone now) = none) :
      ClaimOut postgres now owner s (.ok none, s)
  | claimed (o : OutboxRow) (trace : Trace)
      (h : firstDue (claimable s postgres Engine.alone now) = some o) :
      ClaimOut postgres now owner s
        (.ok (some ⟨o.tenant, o.id, owner, o.attempts + 1, trace⟩),
          { s with outbox := s.outbox.put (leasedRow o owner now) })

theorem firstDue_mem : ∀ {l : List OutboxRow} {o : OutboxRow}, firstDue l = some o → o ∈ l := by
  -- a fold whose step keeps what it has or takes the next row
  have hfold : ∀ {f : Option OutboxRow → OutboxRow → Option OutboxRow},
      (∀ m x o, f m x = some o → m = some o ∨ o = x) →
      ∀ (l : List OutboxRow) (m : Option OutboxRow) (o : OutboxRow),
        l.foldl f m = some o → m = some o ∨ o ∈ l := by
    intro f hf l
    induction l with
    | nil => intro m o h; exact Or.inl h
    | cons x l ih =>
      intro m o h
      rcases ih _ o h with h | h
      · rcases hf m x o h with h | rfl
        · exact Or.inl h
        · exact Or.inr List.mem_cons_self
      · exact Or.inr (List.mem_cons_of_mem _ h)
  intro l o h
  unfold firstDue at h
  refine (hfold (fun m x o h => ?_) l none o h).resolve_left nofun
  cases m with
  | none => exact Or.inr (Option.some.inj h).symm
  | some y =>
    simp only at h
    split_ifs at h
    · exact Or.inr (Option.some.inj h).symm
    · exact Or.inl h

/-- **What a claim takes** is a due intent. -/
theorem claimable_mem {s : Store} {postgres : Bool} {locked : Lock → Bool} {now : Int} {o : OutboxRow}
    (h : firstDue (claimable s postgres locked now) = some o) :
    s.outbox.find? o.pk = some o ∧ OutboxRow.due now o = true := by
  have hm := List.mem_filter.mp (firstDue_mem h)
  exact ⟨Table.find?_of_mem hm.1, (Bool.and_eq_true_iff.mp hm.2).1⟩

theorem claim_out (postgres : Bool) (now : Int) (owner : String) (s : Store) :
    ClaimOut postgres now owner s (core.atomic (claim postgres now owner) s) := by
  unfold Engine.atomic claim
  rw [core.runFrom_exec_ok rfl]
  cases ho : firstDue (claimable s postgres Engine.alone now) with
  | none => exact .idle ho
  | some o =>
    have hfind : s.outbox.find? (o.tenant, o.id) = some o := (claimable_mem ho).1
    simp only [Option.map_some, Option.toList_some]
    -- `FOR UPDATE` writes the row back as it is
    have hlock : core.writeAll (if postgres = true then [Write.outbox o] else []) s = s := by
      split_ifs
      · show { s with outbox := s.outbox.put o } = s
        rw [Table.put_self hfind]
      · rfl
    rw [hlock]
    refine core.runFrom_exec (fun e _ => .refused e) fun n ws he => ?_
    rw [eval_core, evalStmt] at he
    rw [effect_outbox he, Table.modify_of_find? _ hfind, core.runFrom_read rfl]
    cases hx : s.context.find? (o.tenant, o.id) with
    | none => exact .claimed o [] ho
    | some x =>
      cases hc : x.carrier with
      | json trace => simp only [Option.map_some, hc]; exact .claimed o trace ho
      | other raw =>
        simp only [Option.map_some, hc]
        split_ifs
        · exact .claimed o [] ho
        · exact .refused _

/-- The intent after its lease is given up in `state`. -/
def freedRow (o : OutboxRow) (state : Dispatch) : OutboxRow :=
  { o with state, owner := "", leaseUntil := 0 }

/-- The job still holds the lease of `o`. -/
def Job.holds (j : Job) (o : OutboxRow) : Prop := o.owner = j.owner ∧ o.state = .leased

instance (j : Job) (o : OutboxRow) : Decidable (Job.holds j o) :=
  inferInstanceAs (Decidable (o.owner = j.owner ∧ o.state = .leased))

inductive DispatchedOut (j : Job) (s : Store) : Except Err Unit × Store → Prop
  | idle (h : ∀ o, s.outbox.find? (j.tenant, j.id) = some o → ¬ Job.holds j o) :
      DispatchedOut j s (.ok (), s)
  | marked (o : OutboxRow) (ho : s.outbox.find? (j.tenant, j.id) = some o) (hj : Job.holds j o) :
      DispatchedOut j s (.ok (), { s with outbox := s.outbox.put (freedRow o .dispatched) })

theorem dispatched_out (j : Job) (s : Store) :
    DispatchedOut j s (core.atomic (dispatched j) s) := by
  unfold Engine.atomic dispatched
  refine core.runFrom_exec_total (updateRow_unchecked _ _ _ _ _) fun n ws he => ?_
  rw [eval_core, evalStmt] at he
  rcases updateRow_cases he with ⟨rfl, rfl, hno⟩ | ⟨o, ho, hp, -, rfl, rfl⟩
  · exact .idle fun o ho => of_decide_eq_false (hno o ho)
  · exact .marked o ho (of_decide_eq_true hp)

inductive CompleteOut (tenant id : String) (s : Store) : Except Err Unit × Store → Prop
  | refused (h : s.deliveries.find? (tenant, id) = none) :
      CompleteOut tenant id s (.error (.storage .noRows), s)
  | idle (dl : DeliveryRow) (hd : s.deliveries.find? (tenant, id) = some dl)
      (hs : dl.status = .accepted) : CompleteOut tenant id s (.ok (), s)
  | finished (dl : DeliveryRow) (hd : s.deliveries.find? (tenant, id) = some dl)
      (hs : dl.status ≠ .accepted) :
      CompleteOut tenant id s
        (.ok (), { s with outbox := s.outbox.modify (tenant, id) (freedRow · .done) })

/-- Locking a delivery, found or not, changes nothing. -/
theorem runFrom_lockDelivery {α : Type} {C : Except Err α × Store → Prop} {s₀ s : Store}
    {tenant id : String} {k : ℕ → Tx α} (hok : ∀ n, C (core.runFrom s₀ (k n) s)) :
    C (core.runFrom s₀ (.exec (.lockDelivery tenant id) k) s) := by
  refine core.runFrom_exec_total (updateRow_unchecked _ _ _ _ _) fun n ws he => ?_
  rw [eval_core, evalStmt] at he
  rcases updateRow_cases he with ⟨-, rfl, -⟩ | ⟨d, hd, -, -, -, rfl⟩
  · exact hok n
  · rw [write_delivery_self (by rw [Table.find?_key hd]; exact hd)]
    exact hok n

theorem complete_out (tenant id : String) (s : Store) :
    CompleteOut tenant id s (core.atomic (complete tenant id) s) := by
  unfold Engine.atomic complete
  refine runFrom_lockDelivery fun _ => ?_
  rw [core.runFrom_read rfl]
  cases hd : s.deliveries.find? (tenant, id) with
  | none => exact .refused hd
  | some dl =>
    simp only [Option.map_some]
    split_ifs with hs
    · exact .idle dl hd hs
    refine core.runFrom_exec_total (updateRow_unchecked _ _ _ _ _) fun n ws he => ?_
    rw [eval_core, evalStmt] at he
    rw [effect_outbox he]
    exact .finished dl hd hs

/-- The intent after a failed attempt. -/
def failedRow (o : OutboxRow) (j : Job) (next : Int) : OutboxRow :=
  { freedRow o (failState j) with nextAt := next }

/-- The delivery after its last attempt failed: one that is decided keeps its status. -/
def deadRow (dl : DeliveryRow) : DeliveryRow :=
  if dl.status = .accepted then { dl with status := .failed, reason := .dispatchRetriesExhausted }
  else dl

/-- The audit row of a failed attempt. -/
def retryAudit (j : Job) (d : Stamp) : AuditRow :=
  ⟨d.id, j.tenant, .retry, j.id, (failState j).text, d.at_⟩

inductive FailOut (j : Job) (next : Int) (d : Stamp) (s : Store) : Except Err Unit × Store → Prop
  | refused (e : Err) : FailOut j next d s (.error e, s)
  | idle : FailOut j next d s (.ok (), s)
  | retried (o : OutboxRow) (ho : s.outbox.find? (j.tenant, j.id) = some o) (hj : Job.holds j o)
      (hs : failState j = .pending) (ha : s.audit.find? d.id = none) :
      FailOut j next d s (.ok (), { s with
        outbox := s.outbox.put (failedRow o j next), audit := s.audit.put (retryAudit j d) })
  | died (o : OutboxRow) (ho : s.outbox.find? (j.tenant, j.id) = some o) (hj : Job.holds j o)
      (hs : failState j = .dead) (ha : s.audit.find? d.id = none) :
      FailOut j next d s (.ok (), { s with
        deliveries := s.deliveries.modify (j.tenant, j.id) deadRow
        outbox := s.outbox.put (failedRow o j next), audit := s.audit.put (retryAudit j d) })

/-- The guarded `UPDATE` of a dead job's delivery is a `modify`. -/
theorem effect_failDelivery {s : Store} {k : Key2} {n : ℕ} {ws : List Write}
    (h : updateRow s.deliveries k (fun d => d.status = .accepted)
      (fun d => { d with status := .failed, reason := .dispatchRetriesExhausted })
      (fun _ => unchecked) Write.delivery = .ok (n, ws)) :
    core.writeAll ws s = { s with deliveries := s.deliveries.modify k deadRow } := by
  rcases updateRow_cases h with ⟨-, rfl, hno⟩ | ⟨dl, hd, hp, -, -, rfl⟩
  · cases hk : s.deliveries.find? k with
    | none => rw [Table.modify_of_none _ hk]; rfl
    | some dl =>
      have hs : ¬ dl.status = .accepted := of_decide_eq_false (hno dl hk)
      have hput : s.deliveries.put dl = s.deliveries :=
        Table.put_self (by rw [Table.find?_key hk]; exact hk)
      rw [Table.modify_of_find? _ hk, deadRow, if_neg hs, hput]; rfl
  · rw [Table.modify_of_find? _ hd, deadRow, if_pos (of_decide_eq_true hp)]; rfl

theorem failJob_out (j : Job) (next : Int) (d : Stamp) (s : Store) :
    FailOut j next d s (core.atomic (failJob j next d) s) := by
  unfold Engine.atomic failJob
  refine runFrom_lockDelivery fun _ => ?_
  refine core.runFrom_exec (fun e _ => .refused e) fun n ws he => ?_
  rw [eval_core, evalStmt] at he
  rcases updateRow_cases he with ⟨rfl, rfl, -⟩ | ⟨o, ho, hp, -, rfl, rfl⟩
  · exact .idle
  have hj : Job.holds j o := of_decide_eq_true hp
  simp only [Nat.one_ne_zero, if_false]
  by_cases hs : failState j = .dead
  · rw [if_pos hs]
    refine core.runFrom_exec (fun e _ => .refused e) fun n ws he => ?_
    rw [eval_core, evalStmt] at he
    rw [effect_failDelivery he]
    refine runFrom_audit (fun _ => .refused _) fun ha => ?_
    exact .died o ho hj hs ha
  · rw [if_neg hs]
    have hs' : failState j = .pending := by
      unfold failState at hs ⊢
      split_ifs at hs ⊢
      · exact absurd rfl hs
      · rfl
    refine runFrom_audit (fun _ => .refused _) fun ha => ?_
    exact .retried o ho hj hs' ha

/-- The delivery after a replay. -/
def reopenedRow (dl : DeliveryRow) : DeliveryRow := { dl with status := .accepted, reason := .none }

/-- The intent after a replay. -/
def requeuedRow (o : OutboxRow) : OutboxRow :=
  { o with state := .pending, owner := "", leaseUntil := 0, nextAt := 0, attempts := 0 }

/-- The audit row of a replay. -/
def replayedAudit (tenant id : String) (d : Stamp) : AuditRow :=
  ⟨d.id, tenant, .replayed, id, "Original immutable payload requeued; validation still applies", d.at_⟩

inductive ReplayOut (tenant id : String) (d : Stamp) (s : Store) : Except Err Unit × Store → Prop
  | refused (e : Err) : ReplayOut tenant id d s (.error e, s)
  | reopened (dl : DeliveryRow) (hd : s.deliveries.find? (tenant, id) = some dl)
      (hs : dl.status = .failed ∨ dl.status = .quarantined) (ha : s.audit.find? d.id = none) :
      ReplayOut tenant id d s (.ok (), { s with
        deliveries := s.deliveries.put (reopenedRow dl)
        outbox := s.outbox.modify (tenant, id) requeuedRow
        audit := s.audit.put (replayedAudit tenant id d) })

theorem replay_out (tenant id : String) (d : Stamp) (s : Store) :
    ReplayOut tenant id d s (core.atomic (replay tenant id d) s) := by
  unfold Engine.atomic replay
  refine core.runFrom_exec (fun e _ => .refused e) fun n ws he => ?_
  rw [eval_core, evalStmt] at he
  rcases updateRow_cases he with ⟨rfl, rfl, -⟩ | ⟨dl, hd, hp, -, rfl, rfl⟩
  · exact .refused _
  simp only [Nat.one_ne_zero, if_false]
  refine core.runFrom_exec (fun e _ => .refused e) fun n ws he => ?_
  rw [eval_core, evalStmt] at he
  rw [effect_outbox he]
  refine runFrom_audit (fun _ => .refused _) fun ha => ?_
  exact .reopened dl hd (of_decide_eq_true hp) ha

/-- `QuarantineTransport` touches its own table only. -/
theorem quarantineTransport_out (postgres : Bool) (id : String) (payload : List UInt8)
    (reason : String) (now : Int) (s : Store) :
    ∃ q, (core.atomic (quarantineTransport postgres id payload reason now) s).2 =
      { s with quarantine := q } := by
  unfold Engine.atomic quarantineTransport
  refine core.runFrom_exec (C := fun x => ∃ q, x.2 = { s with quarantine := q })
    (fun e _ => ⟨s.quarantine, rfl⟩) fun n ws he => ?_
  rw [eval_core, evalStmt] at he
  split_ifs at he
  rcases insertRow_cases he with ⟨-, rfl, -⟩ | ⟨-, -, -, -, rfl⟩
  · exact ⟨s.quarantine, rfl⟩
  · exact ⟨_, rfl⟩

/-! ### Seed -/

/-- **What `Seed` adds**: campaigns of `tenant` that have no balances yet, and screens. -/
structure Seeded (tenant : String) (s s' : Store) : Prop where
  rest : s' = { s with campaigns := s'.campaigns, screens := s'.screens }
  campaigns_kept : ∀ k c, s.campaigns.find? k = some c → s'.campaigns.find? k = some c
  campaigns_new : ∀ k c, s'.campaigns.find? k = some c → s.campaigns.find? k = some c ∨
    s.campaigns.find? k = none ∧ k.1 = tenant ∧ c.reserved = 0 ∧ c.spent = 0 ∧ c.check = .ok ()
  campaigns_seeded : ∀ k c, s'.campaigns.find? k = some c → s.campaigns.find? k = some c ∨
    (c.id, c.name, c.budget) ∈ seedCampaigns
  screens_kept : ∀ k v, s.screens.find? k = some v → s'.screens.find? k = some v
  screens_new : ∀ k v, s'.screens.find? k = some v → s.screens.find? k = some v ∨ v ∈ seedScreens

theorem Seeded.refl (tenant : String) (s : Store) : Seeded tenant s s :=
  ⟨rfl, fun _ _ h => h, fun _ _ h => Or.inl h, fun _ _ h => Or.inl h, fun _ _ h => h,
    fun _ _ h => Or.inl h⟩

theorem Seeded.trans {tenant : String} {a b c : Store} (h : Seeded tenant a b)
    (h' : Seeded tenant b c) : Seeded tenant a c where
  rest := by rw [h'.rest, h.rest]
  campaigns_kept k x hx := h'.campaigns_kept k x (h.campaigns_kept k x hx)
  campaigns_new k x hx := by
    rcases h'.campaigns_new k x hx with hx | ⟨hb, hx⟩
    · exact h.campaigns_new k x hx
    · refine Or.inr ⟨Option.eq_none_iff_forall_ne_some.mpr fun y hy => ?_, hx⟩
      rw [h.campaigns_kept k y hy] at hb; cases hb
  campaigns_seeded k x hx := (h'.campaigns_seeded k x hx).elim (h.campaigns_seeded k x) Or.inr
  screens_kept k x hx := h'.screens_kept k x (h.screens_kept k x hx)
  screens_new k x hx := (h'.screens_new k x hx).elim (h.screens_new k x) Or.inr

/-- The statements of `seed`. -/
def seedStmt (tenant : String) : {β : Type} → Stmt β → Prop
  | _, .insertCampaign t id name budget => t = tenant ∧ (id, name, budget) ∈ seedCampaigns
  | _, .insertScreen v => v ∈ seedScreens
  | _, _ => False

theorem all_execAll {α : Type} {P : {β : Type} → Stmt β → Prop} {k : Tx α} (hk : k.All P) :
    ∀ sts : List (Stmt ℕ), (∀ st ∈ sts, P st) → (execAll sts k).All P
  | [], _ => hk
  | st :: sts, h =>
    ⟨h st List.mem_cons_self, fun _ => all_execAll hk sts fun x hx => h x (List.mem_cons_of_mem _ hx)⟩

/-- The statements of `seed` insert the campaigns and the screens of its lists. -/
theorem all_seed {tenant : String} {P : {β : Type} → Stmt β → Prop}
    (hcampaign : ∀ c ∈ seedCampaigns, P (.insertCampaign tenant c.1 c.2.1 c.2.2))
    (hscreen : ∀ v ∈ seedScreens, P (.insertScreen v)) : (seed tenant).All P := by
  unfold seed
  refine all_execAll (all_execAll (show Prog.All P (.commit ()) from trivial) _ ?_) _ ?_
  · intro st hst
    obtain ⟨v, hv, rfl⟩ := List.mem_map.mp hst
    exact hscreen v hv
  · intro st hst
    obtain ⟨c, hc, rfl⟩ := List.mem_map.mp hst
    exact hcampaign c hc

theorem seeded_insertCampaign {s : Store} {c : CampaignRow} (hnew : s.campaigns.find? c.pk = none)
    (hseed : (c.id, c.name, c.budget) ∈ seedCampaigns) (hr : c.reserved = 0) (hs : c.spent = 0)
    (hck : c.check = .ok ()) : Seeded c.tenant s { s with campaigns := s.campaigns.put c } where
  rest := rfl
  campaigns_kept k x hx := by
    have hk : c.pk ≠ k := fun h => by rw [h, hx] at hnew; cases hnew
    exact (Table.find?_put_ne hk).trans hx
  campaigns_new k x hx := by
    rw [show ({ s with campaigns := s.campaigns.put c } : Store).campaigns.find? k = _ from
      Table.find?_put _ _ _] at hx
    split_ifs at hx with hk
    · cases hx; subst hk
      exact Or.inr ⟨hnew, rfl, hr, hs, hck⟩
    · exact Or.inl hx
  campaigns_seeded k x hx := by
    rw [show ({ s with campaigns := s.campaigns.put c } : Store).campaigns.find? k = _ from
      Table.find?_put _ _ _] at hx
    split_ifs at hx
    · cases hx
      exact Or.inr hseed
    · exact Or.inl hx
  screens_kept _ _ h := h
  screens_new _ _ h := Or.inl h

theorem seeded_insertScreen {tenant : String} {s : Store} {v : Screen}
    (hnew : s.screens.find? v.id = none) (hv : v ∈ seedScreens) :
    Seeded tenant s { s with screens := s.screens.put v } where
  rest := rfl
  campaigns_kept _ _ h := h
  campaigns_new _ _ h := Or.inl h
  campaigns_seeded _ _ h := Or.inl h
  screens_kept k x hx := by
    have hk : v.id ≠ k := fun h => by rw [h, hx] at hnew; cases hnew
    exact (Table.find?_put_ne hk).trans hx
  screens_new k x hx := by
    rw [show ({ s with screens := s.screens.put v } : Store).screens.find? k = _ from
      Table.find?_put _ _ _] at hx
    split_ifs at hx with hk
    · cases hx; exact Or.inr hv
    · exact Or.inl hx

theorem seed_out (tenant : String) (s : Store) : Seeded tenant s (core.atomic (seed tenant) s).2 := by
  have hall : (seed tenant).All (seedStmt tenant) := all_seed (fun c hc => ⟨rfl, hc⟩) fun _ hv => hv
  refine core.atomic_rel (P := seedStmt tenant) (Seeded.refl tenant) (fun _ _ _ => Seeded.trans)
    (fun st s n ws hst he => ?_) _ hall s
  cases st with
  | insertCampaign t id name budget =>
    obtain ⟨rfl, hseed⟩ := hst
    rw [eval_core, evalStmt] at he
    rcases insertRow_cases he with ⟨-, rfl, -⟩ | ⟨-, hnew, hck, -, rfl⟩
    · exact Seeded.refl _ _
    · exact seeded_insertCampaign hnew hseed rfl rfl hck
  | insertScreen v =>
    rw [eval_core, evalStmt] at he
    rcases insertRow_cases he with ⟨-, rfl, -⟩ | ⟨-, hnew, -, -, rfl⟩
    · exact Seeded.refl _ _
    · exact seeded_insertScreen hnew hst
  | _ => exact hst.elim

end Afterglow.Core.Outcome
