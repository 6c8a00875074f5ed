import Afterglow.Core.Keys
import Afterglow.Sql.Select

/-! # Statements and the tenant they are about

Every statement that reads or writes rows of a tenant names the tenant (`Stmt.tenant`), and the rows of
one tenant are all it depends on. Two stores that hold the same screens and the same rows of a tenant
(`Agree`) answer that tenant's statements alike and stay in agreement (`eval_agree`, `Agree.writeAll`);
and a statement for one tenant writes rows of that tenant only (`eval_writes`), so that the rows of the
others are the same before and after it (`Rows.of_writes`).

The one key that all tenants share is the identifier of an audit row. `Clear` says that the identifier a
call draws for its audit row is not another tenant's. -/

namespace Afterglow.Core.Tenant

open Afterglow.Sql.Rows Afterglow.Sql.Txn Afterglow.Sql.Select Afterglow.Core.Model
open Afterglow.Core.Statements Afterglow.Core.Store Afterglow.Core.Outcome Afterglow.Core.Run
open Afterglow.Core.Keys

/-! ### Agreement -/

/-- The two stores hold the same rows of the tenant. -/
structure Rows (tenant : String) (s t : Store) : Prop where
  campaigns : Same (fun c => c.tenant = tenant) s.campaigns t.campaigns
  reservations : Same (fun r => r.tenant = tenant) s.reservations t.reservations
  deliveries : Same (fun d => d.tenant = tenant) s.deliveries t.deliveries
  outbox : Same (fun o => o.tenant = tenant) s.outbox t.outbox
  context : Same (fun x => x.tenant = tenant) s.context t.context
  audit : Same (fun a => a.tenant = tenant) s.audit t.audit

/-- **The two stores look alike to the tenant**: the same rows of its own and the same screens. -/
structure Agree (tenant : String) (s t : Store) : Prop extends Rows tenant s t where
  screens : Same (fun _ => true) s.screens t.screens

section Equivalence

variable {tenant : String} {s t u : Store}

theorem Rows.refl (tenant : String) (s : Store) : Rows tenant s s :=
  ⟨.refl _, .refl _, .refl _, .refl _, .refl _, .refl _⟩

theorem Rows.trans (h : Rows tenant s t) (h' : Rows tenant t u) : Rows tenant s u :=
  ⟨h.campaigns.trans h'.campaigns, h.reservations.trans h'.reservations,
    h.deliveries.trans h'.deliveries, h.outbox.trans h'.outbox, h.context.trans h'.context,
    h.audit.trans h'.audit⟩

theorem Rows.symm (h : Rows tenant s t) : Rows tenant t s :=
  ⟨h.campaigns.symm, h.reservations.symm, h.deliveries.symm, h.outbox.symm, h.context.symm,
    h.audit.symm⟩

theorem Agree.refl (tenant : String) (s : Store) : Agree tenant s s := ⟨Rows.refl tenant s, .refl _⟩

theorem Agree.trans (h : Agree tenant s t) (h' : Agree tenant t u) : Agree tenant s u :=
  ⟨h.toRows.trans h'.toRows, h.screens.trans h'.screens⟩

theorem Agree.symm (h : Agree tenant s t) : Agree tenant t s := ⟨h.toRows.symm, h.screens.symm⟩

end Equivalence

/-! ### The tenant of a statement and of a row -/

/-- The tenant whose rows the statement is about. -/
def tenantOf : {β : Type} → Stmt β → Option String
  | _, .insertCampaign tenant _ _ _ => some tenant
  | _, .insertScreen _ => none
  | _, .lockCampaign tenant _ => some tenant
  | _, .selectFingerprint tenant _ => some tenant
  | _, .selectReservationByKey tenant _ => some tenant
  | _, .selectScreen _ => none
  | _, .debitCampaign _ tenant _ => some tenant
  | _, .insertReservation r => some r.tenant
  | _, .insertAudit a => some a.tenant
  | _, .insertDelivery d => some d.tenant
  | _, .selectDeliveryByEvent tenant _ => some tenant
  | _, .insertOutbox tenant _ => some tenant
  | _, .insertContext x => some x.tenant
  | _, .countAttempt tenant _ => some tenant
  | _, .selectDelivery tenant _ => some tenant
  | _, .lockReservation tenant _ => some tenant
  | _, .selectReservation tenant _ => some tenant
  | _, .settleReservation tenant _ => some tenant
  | _, .chargeCampaign _ tenant _ => some tenant
  | _, .decideDelivery _ _ tenant _ => some tenant
  | _, .releaseReservation tenant _ _ => some tenant
  | _, .refundCampaign _ tenant _ => some tenant
  | _, .selectDue _ _ => none
  | _, .leaseOutbox _ _ tenant _ => some tenant
  | _, .selectCarrier tenant _ => some tenant
  | _, .markDispatched tenant _ _ => some tenant
  | _, .lockDelivery tenant _ => some tenant
  | _, .selectStatus tenant _ => some tenant
  | _, .finishOutbox tenant _ => some tenant
  | _, .failOutbox _ _ tenant _ _ => some tenant
  | _, .failDelivery tenant _ => some tenant
  | _, .reopenDelivery tenant _ => some tenant
  | _, .requeueOutbox tenant _ => some tenant
  | _, .insertQuarantine _ _ => none

/-- The statement is one of a call for `tenant` that draws `stamp` for its audit row and inserts no
screen but those of `stock`. -/
def Of (tenant : String) (stamp : Option String) (stock : List Screen) : {β : Type} → Stmt β → Prop
  | _, .insertScreen v => v ∈ stock
  | _, .selectScreen _ => True
  | _, .insertAudit a => a.tenant = tenant ∧ stamp = some a.id
  | _, st => tenantOf st = some tenant

/-- The tenant a written row belongs to. -/
def owner : Write → Option String
  | .campaign c => some c.tenant
  | .screen _ => none
  | .reservation r => some r.tenant
  | .delivery d => some d.tenant
  | .outbox o => some o.tenant
  | .context x => some x.tenant
  | .audit a => some a.tenant
  | .quarantine _ => none

/-- The row is the tenant's, and an audit row of it is new in `s`. -/
def Within (tenant : String) (s : Store) (w : Write) : Prop :=
  owner w = some tenant ∧ ∀ a, w = .audit a → s.audit.find? a.id = none

/-- **A statement for a tenant writes rows of that tenant.** -/
theorem eval_writes {β : Type} {st : Stmt β} {tenant : String} {s : Store} {b : β} {ws : List Write}
    (hst : tenantOf st = some tenant) (h : core.eval st Engine.alone s = .ok (b, ws)) :
    ws = [] ∨ ∃ w, ws = [w] ∧ Within tenant s w := by
  rw [eval_core] at h
  cases st with
  | insertScreen _ | selectScreen _ | selectDue _ _ | insertQuarantine _ _ => cases hst
  | insertAudit a =>
    simp only [evalStmt] at h
    refine insertRow_writes h fun _ hnone => ⟨hst, fun a' ha => ?_⟩
    cases ha
    exact hnone
  | insertCampaign _ _ _ _ | insertReservation _ | insertDelivery _ | insertOutbox _ _
  | insertContext _ =>
    simp only [evalStmt] at h
    exact insertRow_writes h fun _ _ => ⟨hst, fun a ha => by cases ha⟩
  | selectFingerprint _ _ | selectReservationByKey _ _ | selectDeliveryByEvent _ _
  | selectDelivery _ _ | selectReservation _ _ | selectCarrier _ _ | selectStatus _ _ =>
    cases h
    exact Or.inl rfl
  | _ =>
    simp only [evalStmt] at h
    refine updateRow_writes h fun r hr => ⟨?_, fun a ha => by cases ha⟩
    rw [← hst]
    exact congrArg (fun k : Key2 => some k.1) (Table.find?_key hr)

/-- **What a statement of a call for a tenant writes**: nothing, a row of the tenant, or a new screen. -/
theorem Of.writes {β : Type} {st : Stmt β} {tenant : String} {stamp : Option String}
    {stock : List Screen} {s : Store} {b : β} {ws : List Write} (hst : Of tenant stamp stock st)
    (h : core.eval st Engine.alone s = .ok (b, ws)) :
    ws = [] ∨ ∃ w, ws = [w] ∧
      (Within tenant s w ∨ ∃ v ∈ stock, w = .screen v ∧ s.screens.find? v.id = none) := by
  have hown (htenant : tenantOf st = some tenant) : ws = [] ∨ ∃ w, ws = [w] ∧
      (Within tenant s w ∨ ∃ v ∈ stock, w = .screen v ∧ s.screens.find? v.id = none) := by
    rcases eval_writes htenant h with hnil | ⟨w, hw, hin⟩
    · exact Or.inl hnil
    · exact Or.inr ⟨w, hw, Or.inl hin⟩
  cases st with
  | insertScreen v =>
    rw [eval_core] at h
    simp only [evalStmt] at h
    exact insertRow_writes h fun _ hnone => Or.inr ⟨v, hst, rfl, hnone⟩
  | selectScreen id => cases h; exact Or.inl rfl
  | insertAudit a => exact hown (congrArg some hst.1)
  | _ => exact hown hst

/-! ### Writes -/

section Write

variable {tenant other : String} {s t : Store}

theorem Rows.write (h : Rows tenant s t) (w : Write) : Rows tenant (writeRow w s) (writeRow w t) := by
  cases w with
  | campaign c => exact { h with campaigns := h.campaigns.put c }
  | screen v => exact { h with }
  | reservation r => exact { h with reservations := h.reservations.put r }
  | delivery d => exact { h with deliveries := h.deliveries.put d }
  | outbox o => exact { h with outbox := h.outbox.put o }
  | context x => exact { h with context := h.context.put x }
  | audit a => exact { h with audit := h.audit.put a }
  | quarantine q => exact { h with }

/-- The same write on both sides keeps the agreement. -/
theorem Agree.write (h : Agree tenant s t) (w : Write) : Agree tenant (writeRow w s) (writeRow w t) := by
  refine ⟨h.toRows.write w, ?_⟩
  cases w with
  | screen v => exact h.screens.put v
  | _ => exact h.screens

theorem Agree.writeAll (ws : List Write) : ∀ {s t : Store}, Agree tenant s t →
    Agree tenant (core.writeAll ws s) (core.writeAll ws t) := by
  induction ws with
  | nil => intro s t h; exact h
  | cons w ws ih => intro s t h; exact ih (h.write w)

/-- A row of another tenant, or a screen. -/
theorem Rows.of_write {w : Write} (hw : owner w ≠ some tenant)
    (ha : ∀ a, w = .audit a → s.audit.find? a.id = none) : Rows tenant s (writeRow w s) := by
  have hne {x : String} (h : some x ≠ some tenant) : decide (x = tenant) = false :=
    decide_eq_false fun hx => h (congrArg some hx)
  cases w with
  | campaign c =>
    exact { Rows.refl tenant s with
      campaigns := .put_keyed (fun x hx => congrArg (fun k : Key2 => decide (k.1 = tenant)) hx) (hne hw) }
  | screen v => exact { Rows.refl tenant s with }
  | reservation r =>
    exact { Rows.refl tenant s with
      reservations := .put_keyed (fun x hx => congrArg (fun k : Key2 => decide (k.1 = tenant)) hx) (hne hw) }
  | delivery d =>
    exact { Rows.refl tenant s with
      deliveries := .put_keyed (fun x hx => congrArg (fun k : Key2 => decide (k.1 = tenant)) hx) (hne hw) }
  | outbox o =>
    exact { Rows.refl tenant s with
      outbox := .put_keyed (fun x hx => congrArg (fun k : Key2 => decide (k.1 = tenant)) hx) (hne hw) }
  | context y =>
    exact { Rows.refl tenant s with
      context := .put_keyed (fun x hx => congrArg (fun k : Key2 => decide (k.1 = tenant)) hx) (hne hw) }
  | audit a =>
    exact { Rows.refl tenant s with
      audit := .put_other (hne hw) fun x hx hk => absurd hk (Table.find?_eq_none.mp (ha a rfl) x hx) }
  | quarantine q => exact { Rows.refl tenant s with }

end Write

/-! ### Keys -/

/-- A reservation is written back with its key. -/
theorem Keyed.write_reservation {s : Store} (hk : Keyed s) {k : Key2} {r r' : ReservationRow}
    (hr : s.reservations.find? k = some r) (hpk : r'.pk = r.pk) (hi : idem r' = idem r) :
    Keyed (writeRow (.reservation r') s) := by
  have hfind : s.reservations.find? r'.pk = some r := by
    rw [hpk, show r.pk = k from Table.find?_key hr]
    exact hr
  exact ⟨hk.reservations.put_old hfind hi, hk.deliveries⟩

/-- A delivery is written back with its event identifier. -/
theorem Keyed.write_delivery {s : Store} (hk : Keyed s) {k : Key2} {d d' : DeliveryRow}
    (hd : s.deliveries.find? k = some d) (hpk : d'.pk = d.pk) (he : event d' = event d) :
    Keyed (writeRow (.delivery d') s) := by
  have hfind : s.deliveries.find? d'.pk = some d := by
    rw [hpk, show d.pk = k from Table.find?_key hd]
    exact hd
  exact ⟨hk.reservations, hk.deliveries.put_old hfind he⟩

/-- **A statement keeps the second unique keys.** -/
theorem keyed_eval {β : Type} {st : Stmt β} {s : Store} {b : β} {ws : List Write} (hk : Keyed s)
    (h : core.eval st Engine.alone s = .ok (b, ws)) : Keyed (core.writeAll ws s) := by
  rw [eval_core] at h
  have hone : ws = [] ∨ ∃ w, ws = [w] ∧ Keyed (writeRow w s) := by
    cases st with
    | selectFingerprint _ _ | selectReservationByKey _ _ | selectDeliveryByEvent _ _
    | selectDelivery _ _ | selectReservation _ _ | selectCarrier _ _ | selectStatus _ _
    | selectScreen _ =>
      cases h
      exact Or.inl rfl
    | insertReservation r =>
      simp only [evalStmt] at h
      refine insertRow_writes h fun hs _ => ⟨hk.reservations.put_new fun x hx heq => ?_, hk.deliveries⟩
      have hno := hs x hx
      rw [decide_eq_false_iff_not] at hno
      exact hno ⟨congrArg Prod.fst heq, congrArg Prod.snd heq⟩
    | insertDelivery d =>
      simp only [evalStmt] at h
      refine insertRow_writes h fun hs _ => ⟨hk.reservations, hk.deliveries.put_new fun x hx heq => ?_⟩
      have hno := hs x hx
      rw [decide_eq_false_iff_not] at hno
      exact hno ⟨congrArg Prod.fst heq, congrArg Prod.snd heq⟩
    | lockReservation _ _ | settleReservation _ _ | releaseReservation _ _ _ =>
      simp only [evalStmt] at h
      exact updateRow_writes h fun r hr => Keyed.write_reservation hk hr rfl rfl
    | countAttempt _ _ | decideDelivery _ _ _ _ | lockDelivery _ _ | failDelivery _ _
    | reopenDelivery _ _ =>
      simp only [evalStmt] at h
      exact updateRow_writes h fun d hd => Keyed.write_delivery hk hd rfl rfl
    | insertCampaign _ _ _ _ | insertScreen _ | insertAudit _ | insertOutbox _ _ | insertContext _ =>
      simp only [evalStmt] at h
      exact insertRow_writes h fun _ _ => ⟨hk.reservations, hk.deliveries⟩
    | insertQuarantine postgres q =>
      simp only [evalStmt] at h
      split_ifs at h
      exact insertRow_writes h fun _ _ => ⟨hk.reservations, hk.deliveries⟩
    | selectDue postgres now =>
      cases h
      cases postgres with
      | false => exact Or.inl rfl
      | true =>
        cases firstDue (claimable s true Engine.alone now) with
        | none => exact Or.inl rfl
        | some o => exact Or.inr ⟨_, rfl, hk.reservations, hk.deliveries⟩
    | _ =>
      simp only [evalStmt] at h
      exact updateRow_writes h fun _ _ => ⟨hk.reservations, hk.deliveries⟩
  rcases hone with rfl | ⟨w, rfl, hw⟩
  · exact hk
  · exact hw

/-! ### Answers -/

section Answer

variable {tenant : String} {s t : Store}

theorem Rows.campaign (h : Rows tenant s t) (id : String) :
    s.campaigns.find? (tenant, id) = t.campaigns.find? (tenant, id) :=
  h.campaigns.find? fun _ hc => decide_eq_true (congrArg Prod.fst hc)

theorem Rows.reservation (h : Rows tenant s t) (id : String) :
    s.reservations.find? (tenant, id) = t.reservations.find? (tenant, id) :=
  h.reservations.find? fun _ hr => decide_eq_true (congrArg Prod.fst hr)

theorem Rows.delivery (h : Rows tenant s t) (id : String) :
    s.deliveries.find? (tenant, id) = t.deliveries.find? (tenant, id) :=
  h.deliveries.find? fun _ hd => decide_eq_true (congrArg Prod.fst hd)

theorem Rows.intent (h : Rows tenant s t) (id : String) :
    s.outbox.find? (tenant, id) = t.outbox.find? (tenant, id) :=
  h.outbox.find? fun _ ho => decide_eq_true (congrArg Prod.fst ho)

theorem Rows.carrier (h : Rows tenant s t) (id : String) :
    s.context.find? (tenant, id) = t.context.find? (tenant, id) :=
  h.context.find? fun _ hx => decide_eq_true (congrArg Prod.fst hx)

theorem Agree.screen (h : Agree tenant s t) (id : String) : s.screens.find? id = t.screens.find? id :=
  h.screens.find? fun _ _ => rfl

theorem Rows.byKey (h : Rows tenant s t) (hk : Keyed t) (key : String) :
    byKey s tenant key = byKey t tenant key :=
  h.reservations.find_unique hk.reservations (c := (tenant, key)) (fun r => by simp [idem])
    fun r hr => by simpa using (of_decide_eq_true hr).1

theorem Rows.byEvent (h : Rows tenant s t) (hk : Keyed t) (eventID : String) :
    byEvent s tenant eventID = byEvent t tenant eventID :=
  h.deliveries.find_unique hk.deliveries (c := (tenant, eventID)) (fun d => by simp [event])
    fun d hd => by simpa using (of_decide_eq_true hd).1

/-- The identifier `stamp` is not that of another tenant's audit row. -/
def Clear (tenant : String) (stamp : Option String) (s : Store) : Prop :=
  ∀ a ∈ s.audit, stamp = some a.id → a.tenant = tenant

/-- **Two stores in agreement answer a tenant's statement alike**, and it writes the same rows. -/
theorem eval_agree {β : Type} {st : Stmt β} {stamp : Option String} {stock : List Screen}
    (hst : Of tenant stamp stock st) (h : Agree tenant s t) (hk : Keyed t) (hs : Clear tenant stamp s)
    (ht : Clear tenant stamp t) : core.eval st Engine.alone s = core.eval st Engine.alone t := by
  rw [eval_core, eval_core]
  cases st with
  | insertScreen v =>
    simp only [evalStmt]
    exact insertRow_congr (h.screens.any fun _ _ => rfl) (h.screen v.id) rfl _ _
  | selectScreen id => simp only [evalStmt, h.screen id]
  | insertAudit a =>
    simp only [evalStmt]
    refine insertRow_congr (h.audit.any fun _ hx => by cases hx)
      (h.audit.find?_of_mem (fun x hx hxa => ?_) fun x hx hxa => ?_) rfl _ _
    · exact decide_eq_true (hs x hx (by rw [hxa]; exact hst.2))
    · exact decide_eq_true (ht x hx (by rw [hxa]; exact hst.2))
  | insertCampaign _ id _ _ =>
    obtain rfl := Option.some.inj hst
    simp only [evalStmt]
    refine insertRow_congr (h.campaigns.any fun c hc => ?_) (by exact h.campaign id) rfl _ _
    exact decide_eq_true (congrArg Prod.fst (of_decide_eq_true hc))
  | insertReservation r =>
    obtain rfl := Option.some.inj hst
    simp only [evalStmt]
    refine insertRow_congr (h.reservations.any fun x hx => ?_) (h.reservation r.id) ?_ _ _
    · exact decide_eq_true (of_decide_eq_true hx).1
    · rw [ReservationRow.refs, ReservationRow.refs, h.screen, h.campaign]
  | insertDelivery d =>
    obtain rfl := Option.some.inj hst
    simp only [evalStmt]
    refine insertRow_congr (h.deliveries.any fun x hx => ?_) (h.delivery d.id) rfl _ _
    exact decide_eq_true (of_decide_eq_true hx).1
  | insertOutbox _ id =>
    obtain rfl := Option.some.inj hst
    simp only [evalStmt]
    refine insertRow_congr (h.outbox.any fun _ hx => by cases hx) (by exact h.intent id) ?_ _ _
    rw [refsDelivery, refsDelivery, h.delivery]
  | insertContext x =>
    obtain rfl := Option.some.inj hst
    simp only [evalStmt]
    refine insertRow_congr (h.context.any fun _ hx => by cases hx) (h.carrier x.id) ?_ _ _
    rw [refsDelivery, refsDelivery, ContextRow.pk, h.delivery]
  | selectFingerprint _ key | selectReservationByKey _ key =>
    obtain rfl := Option.some.inj hst
    simp only [evalStmt, h.byKey hk key]
  | selectDeliveryByEvent _ eventID =>
    obtain rfl := Option.some.inj hst
    simp only [evalStmt, h.byEvent hk eventID]
  | selectDelivery _ id | selectStatus _ id =>
    obtain rfl := Option.some.inj hst
    simp only [evalStmt, h.delivery id]
  | selectReservation _ id =>
    obtain rfl := Option.some.inj hst
    simp only [evalStmt, h.reservation id]
  | selectCarrier _ id =>
    obtain rfl := Option.some.inj hst
    simp only [evalStmt, h.carrier id]
  | lockCampaign _ id | debitCampaign _ _ id | chargeCampaign _ _ id | refundCampaign _ _ id =>
    obtain rfl := Option.some.inj hst
    simp only [evalStmt]
    exact updateRow_congr (h.campaign id) _ _ _ _
  | lockReservation _ id | settleReservation _ id | releaseReservation _ id _ =>
    obtain rfl := Option.some.inj hst
    simp only [evalStmt]
    exact updateRow_congr (h.reservation id) _ _ _ _
  | countAttempt _ id | decideDelivery _ _ _ id | lockDelivery _ id | failDelivery _ id
  | reopenDelivery _ id =>
    obtain rfl := Option.some.inj hst
    simp only [evalStmt]
    exact updateRow_congr (h.delivery id) _ _ _ _
  | leaseOutbox _ _ _ id | markDispatched _ id _ | finishOutbox _ id | failOutbox _ _ _ id _
  | requeueOutbox _ id =>
    obtain rfl := Option.some.inj hst
    simp only [evalStmt]
    exact updateRow_congr (h.intent id) _ _ _ _
  | selectDue _ _ | insertQuarantine _ _ => cases hst

end Answer

/-! ### Calls -/

/-- The tenant a call is for. A claim takes any tenant's job, and a poison message is no tenant's. -/
def opTenant : Op → Option String
  | .seed tenant => some tenant
  | .reserve tenant _ _ _ => some tenant
  | .accept tenant _ _ => some tenant
  | .process tenant _ _ => some tenant
  | .release tenant _ _ _ => some tenant
  | .claim _ _ _ => none
  | .dispatched j => some j.tenant
  | .complete tenant _ => some tenant
  | .failJob j _ _ => some j.tenant
  | .replay tenant _ _ => some tenant
  | .quarantineTransport _ _ _ _ _ => none

/-- The identifier the call draws for its audit row. -/
def opStamp : Op → Option String
  | .reserve _ _ _ d => some d.stamp.id
  | .accept _ _ d => some d.stamp.id
  | .process _ _ d => some d.stamp.id
  | .release _ _ _ d => some d.id
  | .failJob _ _ d => some d.id
  | .replay _ _ d => some d.id
  | _ => none

/-- The screens the call inserts where they are missing. -/
def opStock : Op → List Screen
  | .seed _ => seedScreens
  | _ => []

section All

variable {tenant : String} {stock : List Screen}

theorem all_audit {α : Type} {kind : Kind} {resource detail : String} {d : Stamp} {k : Tx α}
    (hk : k.All (Of tenant (some d.id) stock)) :
    (audit tenant kind resource detail d k).All (Of tenant (some d.id) stock) :=
  ⟨⟨rfl, rfl⟩, fun _ => hk⟩

theorem all_reserveNew (H : Digest) (tenant key : String) (inp : ReservationInput) (d : ReserveDraw) :
    (reserveNew H tenant key inp d).All (Of tenant (some d.stamp.id) []) := by
  refine ⟨trivial, fun v => ?_⟩
  cases v with
  | none => trivial
  | some v =>
    refine ⟨rfl, fun n => Prog.all_ite trivial ⟨rfl, fun n => Prog.all_ite trivial ?_⟩⟩
    exact all_audit trivial

theorem all_reserve (H : Digest) (tenant key : String) (inp : ReservationInput) (d : ReserveDraw) :
    (reserve H tenant key inp d).All (Of tenant (some d.stamp.id) []) := by
  refine Prog.all_ite trivial ⟨rfl, fun n => Prog.all_ite trivial ⟨rfl, fun fp => ?_⟩⟩
  cases fp with
  | none => exact all_reserveNew H tenant key inp d
  | some fp =>
    refine Prog.all_ite trivial ⟨rfl, fun r => ?_⟩
    cases r <;> trivial

theorem all_accept (H : Digest) (tenant : String) (r : Receipt) (d : AcceptDraw) :
    (accept H tenant r d).All (Of tenant (some d.stamp.id) []) := by
  refine Prog.all_ite trivial ⟨rfl, fun n => Prog.all_ite ⟨rfl, fun x => ?_⟩ ⟨rfl, fun _ => ⟨rfl, fun _ => ?_⟩⟩⟩
  · cases x with
    | none => trivial
    | some x => exact Prog.all_ite trivial trivial
  · exact all_audit trivial

theorem all_decideAs (tenant id : String) (status : Status) (reason : Reason) (d : ProcessDraw) :
    (decideAs tenant id status reason d).All (Of tenant (some d.stamp.id) []) :=
  ⟨rfl, fun _ => all_audit trivial⟩

theorem all_settle (tenant id : String) (p : Receipt) (d : ProcessDraw) (r : Option Reservation) :
    (settle tenant id p d r).All (Of tenant (some d.stamp.id) []) := by
  unfold settle
  split
  · exact Prog.all_ite ⟨rfl, fun _ => ⟨rfl, fun _ => all_decideAs _ _ _ _ d⟩⟩ (all_decideAs _ _ _ _ d)
  · exact all_decideAs _ _ _ _ d

theorem all_process (tenant id : String) (d : ProcessDraw) :
    (process tenant id d).All (Of tenant (some d.stamp.id) []) := by
  refine ⟨rfl, fun n => Prog.all_ite trivial ⟨rfl, fun x => ?_⟩⟩
  cases x with
  | none => trivial
  | some x =>
    refine Prog.all_ite trivial ?_
    unfold judge
    split
    · exact all_decideAs _ _ _ _ d
    · exact Prog.all_ite (all_decideAs _ _ _ _ d)
        ⟨rfl, fun _ => ⟨rfl, fun r => all_settle tenant id _ d r⟩⟩

theorem all_release (tenant id : String) (now : Int) (d : Stamp) :
    (release tenant id now d).All (Of tenant (some d.id) []) := by
  refine ⟨rfl, fun n => Prog.all_ite trivial ⟨rfl, fun r => ?_⟩⟩
  cases r with
  | none => trivial
  | some r => exact ⟨rfl, fun _ => all_audit trivial⟩

theorem all_complete (tenant id : String) : (complete tenant id).All (Of tenant none []) := by
  refine ⟨rfl, fun _ => ⟨rfl, fun status => ?_⟩⟩
  cases status with
  | none => trivial
  | some status => exact Prog.all_ite trivial ⟨rfl, fun _ => trivial⟩

theorem all_failJob (j : Job) (next : Int) (d : Stamp) :
    (failJob j next d).All (Of j.tenant (some d.id) []) := by
  refine ⟨rfl, fun _ => ⟨rfl, fun n => Prog.all_ite trivial (Prog.all_ite ⟨rfl, fun _ => ?_⟩ ?_)⟩⟩
  · exact all_audit trivial
  · exact all_audit trivial

theorem all_replay (tenant id : String) (d : Stamp) :
    (replay tenant id d).All (Of tenant (some d.id) []) :=
  ⟨rfl, fun _ => Prog.all_ite trivial ⟨rfl, fun _ => all_audit trivial⟩⟩

/-- **Every statement of a call for a tenant is about that tenant.** -/
theorem all_prog (H : Digest) {o : Op} (ho : opTenant o = some tenant) :
    (o.prog H).All (Of tenant (opStamp o) (opStock o)) := by
  cases o with
  | seed _ => cases ho; exact all_seed (fun _ _ => rfl) fun _ hv => hv
  | reserve _ key inp d => cases ho; exact all_reserve H tenant key inp d
  | accept _ r d => cases ho; exact all_accept H tenant r d
  | process _ id d => cases ho; exact all_process tenant id d
  | release _ id now d => cases ho; exact all_release tenant id now d
  | claim _ _ _ => cases ho
  | dispatched j => cases ho; exact ⟨rfl, fun _ => trivial⟩
  | complete _ id => cases ho; exact all_complete tenant id
  | failJob j next d => cases ho; exact all_failJob j next d
  | replay _ id d => cases ho; exact all_replay tenant id d
  | quarantineTransport _ _ _ _ _ => cases ho

end All

/-! ### What the other tenants see of a call -/

/-- Between `s` and `s'` the rows of `other` and the poison messages stay, and so do the screens, if
those of `stock` are there. -/
structure Apart (other : String) (stock : List Screen) (s s' : Store) : Prop where
  rows : Rows other s s'
  quarantine : s'.quarantine = s.quarantine
  screens : (∀ v ∈ stock, s.screens.find? v.id ≠ none) → s'.screens = s.screens

section Step

variable {tenant other : String} {stamp : Option String} {stock : List Screen} {s t : Store}

theorem Apart.refl (other : String) (stock : List Screen) (s : Store) : Apart other stock s s :=
  ⟨Rows.refl other s, rfl, fun _ => rfl⟩

theorem Apart.trans {s s' s'' : Store} (h : Apart other stock s s') (h' : Apart other stock s' s'') :
    Apart other stock s s'' := by
  refine ⟨h.rows.trans h'.rows, h'.quarantine.trans h.quarantine, fun hs => ?_⟩
  have hs' : ∀ v ∈ stock, s'.screens.find? v.id ≠ none := by rw [h.screens hs]; exact hs
  exact (h'.screens hs').trans (h.screens hs)

theorem Apart.of_write {w : Write} (hne : other ≠ tenant)
    (hw : Within tenant s w ∨ ∃ v ∈ stock, w = .screen v ∧ s.screens.find? v.id = none) :
    Apart other stock s (writeRow w s) := by
  rcases hw with ⟨hw, ha⟩ | ⟨v, hv, rfl, hnone⟩
  · refine ⟨Rows.of_write (fun h => hne ?_) ha, ?_, fun _ => ?_⟩
    · exact Option.some.inj (h.symm.trans hw)
    · cases w <;> first | rfl | cases hw
    · cases w <;> first | rfl | cases hw
  · exact ⟨{ Rows.refl other s with }, rfl, fun h => absurd hnone (h v hv)⟩

/-- **A call for one tenant changes nothing of another.** -/
theorem exec_apart (H : Digest) {o : Op} (ho : opTenant o = some tenant) (hne : other ≠ tenant)
    (fault : Option ℕ) (s : Store) : Apart other (opStock o) s (o.exec H fault s).2 := by
  rcases o.exec_cases H fault s with h | h
  · rw [h]
    refine core.atomic_rel (Apart.refl other (opStock o)) (fun _ _ _ => Apart.trans)
      (fun st s b ws hst hev => ?_) (o.prog H) (all_prog H ho) s
    rcases hst.writes hev with rfl | ⟨w, rfl, hw⟩
    · exact Apart.refl other (opStock o) s
    · exact Apart.of_write hne hw
  · rw [h]; exact Apart.refl other (opStock o) s

/-! ### What a tenant is answered -/

/-- What two stores have in common while a call for the tenant runs on both. -/
structure Twin (tenant : String) (stamp : Option String) (s t : Store) : Prop where
  agree : Agree tenant s t
  keyed : Keyed s
  keyed' : Keyed t
  clear : Clear tenant stamp s
  clear' : Clear tenant stamp t

theorem Clear.write (h : Clear tenant stamp s) {w : Write}
    (hw : Within tenant s w ∨ ∃ v ∈ stock, w = .screen v ∧ s.screens.find? v.id = none) :
    Clear tenant stamp (writeRow w s) := by
  rcases hw with ⟨hw, -⟩ | ⟨v, -, rfl, -⟩
  · cases w with
    | audit a =>
      intro x hx hid
      rcases Table.mem_put.mp hx with rfl | ⟨hx, -⟩
      · exact Option.some.inj hw
      · exact h x hx hid
    | _ => exact h
  · exact h

theorem Twin.eval {β : Type} {st : Stmt β} (hst : Of tenant stamp stock st)
    (h : Twin tenant stamp s t) :
    (∃ e, core.eval st Engine.alone s = .error e ∧ core.eval st Engine.alone t = .error e) ∨
    ∃ b ws ws', core.eval st Engine.alone s = .ok (b, ws) ∧ core.eval st Engine.alone t = .ok (b, ws') ∧
      Twin tenant stamp (core.writeAll ws s) (core.writeAll ws' t) := by
  have heq := eval_agree hst h.agree h.keyed' h.clear h.clear'
  cases hev : core.eval st Engine.alone s with
  | error e => exact Or.inl ⟨e, rfl, by rw [← heq, hev]⟩
  | ok x =>
    obtain ⟨b, ws⟩ := x
    have hev' : core.eval st Engine.alone t = .ok (b, ws) := by rw [← heq, hev]
    refine Or.inr ⟨b, ws, ws, rfl, hev', h.agree.writeAll ws, keyed_eval h.keyed hev,
      keyed_eval h.keyed' hev', ?_, ?_⟩
    · rcases hst.writes hev with rfl | ⟨w, rfl, hw⟩
      · exact h.clear
      · exact h.clear.write hw
    · rcases hst.writes hev' with rfl | ⟨w, rfl, hw⟩
      · exact h.clear'
      · exact h.clear'.write hw

/-- **Stores in agreement answer a tenant's call alike and stay in agreement.** -/
theorem exec_agree (H : Digest) {o : Op} (ho : opTenant o = some tenant) (fault : Option ℕ)
    (h : Twin tenant (opStamp o) s t) :
    (o.exec H fault s).1 = (o.exec H fault t).1 ∧
      Agree tenant (o.exec H fault s).2 (o.exec H fault t).2 := by
  have hall := all_prog H ho
  have hstep : ∀ {β : Type} (st : Stmt β) (s t : Store), Of tenant (opStamp o) (opStock o) st →
      Twin tenant (opStamp o) s t → _ := fun st s t hst h => Twin.eval hst h
  cases fault with
  | none =>
    obtain ⟨hans, htwin⟩ := core.atomic_sim hstep (o.prog H) hall h
    exact ⟨hans, htwin.agree⟩
  | some n =>
    obtain ⟨hans, htwin⟩ := core.faulty_sim hstep h (.storage .fault) n (o.prog H) s t hall h
    exact ⟨hans, htwin.agree⟩

end Step

end Afterglow.Core.Tenant
