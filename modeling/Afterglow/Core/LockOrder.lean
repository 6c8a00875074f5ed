import Afterglow.Core.Store
import Afterglow.Foottraffic.Store
import Afterglow.Sql.Locking

/-! # The locks of the transactions on PostgreSQL

The transactions of `store.go`, `queue.go` and of the foot-traffic store as the locks their statements
take, in the order of the statements: an `UPDATE` takes the row it finds, an `INSERT` the value of the
unique column (`event_id`, `idem_key`) no committed row has, `FOR UPDATE SKIP LOCKED` a row nobody holds,
and `lockScope` the row of the tenant. The rows of batches and of windows are reached only under that row.

The order is: the event, the delivery, then its intent or the reservation it names, the campaign, the
idempotency key. Every transaction goes up in it, also where an `UPDATE` finds no row and takes nothing,
with one exception: `FailJob` on a delivery that is not there when it starts and is there when it fails
its intent takes the delivery last. No caller does that, as a job is claimed before it is failed; with it,
two sessions can wait for each other (`fail_before_accept`). -/

namespace Afterglow.Core.LockOrder

open Afterglow.Sql.Rows Afterglow.Sql.Txn Afterglow.Sql.Locking Afterglow.Core.Model
open Afterglow.Core.Statements Afterglow.Core.Store

/-! ### The locks of a statement -/

/-- The lock of a row that an `UPDATE` finds. -/
def rowLock {ρ : Type} (row : Option ρ) (p : ρ → Bool) (l : Lock) : Option Lock :=
  if row.any p then some l else none

/-- The lock a statement of the settlement store takes. -/
def lockOf : {β : Type} → Stmt β → (Lock → Bool) → Store → Option Lock
  | _, .lockCampaign tenant id, _, s =>
    rowLock (s.campaigns.find? (tenant, id)) (fun _ => true) (.campaign (tenant, id))
  | _, .debitCampaign cost tenant id, _, s =>
    rowLock (s.campaigns.find? (tenant, id)) (fun c => cost ≤ c.budget - c.spent - c.reserved)
      (.campaign (tenant, id))
  | _, .chargeCampaign _ tenant id, _, s =>
    rowLock (s.campaigns.find? (tenant, id)) (fun _ => true) (.campaign (tenant, id))
  | _, .refundCampaign _ tenant id, _, s =>
    rowLock (s.campaigns.find? (tenant, id)) (fun _ => true) (.campaign (tenant, id))
  | _, .insertReservation r, _, s =>
    if (byKey s r.tenant r.idemKey).isSome then none else some (.idemKey (r.tenant, r.idemKey))
  | _, .insertDelivery d, _, s =>
    if (byEvent s d.tenant d.eventID).isSome then none else some (.eventID (d.tenant, d.eventID))
  | _, .countAttempt tenant id, _, s =>
    rowLock (s.deliveries.find? (tenant, id)) (fun _ => true) (.delivery (tenant, id))
  | _, .decideDelivery _ _ tenant id, _, s =>
    rowLock (s.deliveries.find? (tenant, id)) (fun _ => true) (.delivery (tenant, id))
  | _, .lockDelivery tenant id, _, s =>
    rowLock (s.deliveries.find? (tenant, id)) (fun _ => true) (.delivery (tenant, id))
  | _, .failDelivery tenant id, _, s =>
    rowLock (s.deliveries.find? (tenant, id)) (fun d => d.status = .accepted) (.delivery (tenant, id))
  | _, .reopenDelivery tenant id, _, s =>
    rowLock (s.deliveries.find? (tenant, id)) (fun d => d.status = .failed ∨ d.status = .quarantined)
      (.delivery (tenant, id))
  | _, .lockReservation tenant id, _, s =>
    rowLock (s.reservations.find? (tenant, id)) (fun _ => true) (.reservation (tenant, id))
  | _, .settleReservation tenant id, _, s =>
    rowLock (s.reservations.find? (tenant, id)) (fun _ => true) (.reservation (tenant, id))
  | _, .releaseReservation tenant id before, _, s =>
    rowLock (s.reservations.find? (tenant, id)) (fun r => r.state = .held ∧ r.expires < before)
      (.reservation (tenant, id))
  | _, .selectDue postgres now, locked, s =>
    if postgres then (firstDue (claimable s postgres locked now)).map fun o => .outbox o.pk else none
  | _, .leaseOutbox _ _ tenant id, _, s =>
    rowLock (s.outbox.find? (tenant, id)) (fun _ => true) (.outbox (tenant, id))
  | _, .markDispatched tenant id owner, _, s =>
    rowLock (s.outbox.find? (tenant, id)) (fun o => o.owner = owner ∧ o.state = .leased)
      (.outbox (tenant, id))
  | _, .finishOutbox tenant id, _, s =>
    rowLock (s.outbox.find? (tenant, id)) (fun _ => true) (.outbox (tenant, id))
  | _, .failOutbox _ _ tenant id owner, _, s =>
    rowLock (s.outbox.find? (tenant, id)) (fun o => o.owner = owner ∧ o.state = .leased)
      (.outbox (tenant, id))
  | _, .requeueOutbox tenant id, _, s =>
    rowLock (s.outbox.find? (tenant, id)) (fun _ => true) (.outbox (tenant, id))
  -- the others read, or insert rows under keys just drawn
  | _, _, _, _ => none

/-- The locks of the settlement store. -/
def takes : Takes Stmt Store Lock := ⟨lockOf⟩

/-- **The order of the locks.** -/
def rank : Lock → ℕ
  | .eventID _ => 0
  | .delivery _ => 1
  | .outbox _ => 2
  | .reservation _ => 2
  | .campaign _ => 3
  | .idemKey _ => 4
  | _ => 5

/-- An `UPDATE` of one row takes the lock of that row. -/
theorem locks_update {ρ : Type} {key : ρ → Key2} (t : Store → Table key) {st : Stmt ℕ} {k : Key2}
    {l : Lock} {p : ρ → Bool} {f : ρ → ρ} {check : ρ → Except Err Unit} {w : ρ → Write}
    (he : ∀ locked s, core.eval st locked s = updateRow (t s) k p f check w)
    (hl : ∀ locked s, lockOf st locked s = rowLock ((t s).find? k) p l) : Locks core takes st l := by
  intro locked s
  show (lockOf st locked s = none ∧ _) ∨ lockOf st locked s = some l ∧ _
  rw [he, hl]
  cases hfind : (t s).find? k with
  | none =>
    refine Or.inl ⟨rfl, fun n ws h => ?_⟩
    rcases updateRow_cases h with ⟨hn, -⟩ | ⟨r, hr, -⟩
    · exact hn
    · rw [hfind] at hr
      cases hr
  | some r =>
    cases hp : p r with
    | false =>
      refine Or.inl ⟨by simp [rowLock, hp], fun n ws h => ?_⟩
      rcases updateRow_cases h with ⟨hn, -⟩ | ⟨x, hx, hpx, -⟩
      · exact hn
      · rw [hfind] at hx
        cases hx
        rw [hp] at hpx
        cases hpx
    | true =>
      refine Or.inr ⟨by simp [rowLock, hp], fun n ws h => ?_⟩
      rcases updateRow_cases h with ⟨-, -, hno⟩ | ⟨x, -, -, -, hn, -⟩
      · rw [hno r hfind] at hp
        cases hp
      · exact hn

theorem locks_campaign {st : Stmt ℕ} {k : Key2} {p : CampaignRow → Bool} {f : CampaignRow → CampaignRow}
    (he : ∀ locked s, core.eval st locked s = updateRow s.campaigns k p f CampaignRow.check .campaign)
    (hl : ∀ locked s, lockOf st locked s = rowLock (s.campaigns.find? k) p (.campaign k)) :
    Locks core takes st (.campaign k) := locks_update Store.campaigns he hl

theorem locks_reservation {st : Stmt ℕ} {k : Key2} {p : ReservationRow → Bool}
    {f : ReservationRow → ReservationRow}
    (he : ∀ locked s,
      core.eval st locked s = updateRow s.reservations k p f ReservationRow.check .reservation)
    (hl : ∀ locked s, lockOf st locked s = rowLock (s.reservations.find? k) p (.reservation k)) :
    Locks core takes st (.reservation k) := locks_update Store.reservations he hl

theorem locks_delivery {st : Stmt ℕ} {k : Key2} {p : DeliveryRow → Bool} {f : DeliveryRow → DeliveryRow}
    (he : ∀ locked s, core.eval st locked s = updateRow s.deliveries k p f (fun _ => unchecked) .delivery)
    (hl : ∀ locked s, lockOf st locked s = rowLock (s.deliveries.find? k) p (.delivery k)) :
    Locks core takes st (.delivery k) := locks_update Store.deliveries he hl

theorem locks_outbox {st : Stmt ℕ} {k : Key2} {p : OutboxRow → Bool} {f : OutboxRow → OutboxRow}
    (he : ∀ locked s, core.eval st locked s = updateRow s.outbox k p f (fun _ => unchecked) .outbox)
    (hl : ∀ locked s, lockOf st locked s = rowLock (s.outbox.find? k) p (.outbox k)) :
    Locks core takes st (.outbox k) := locks_update Store.outbox he hl

/-- An `INSERT` that skips a row with its unique value takes that value. -/
theorem locks_insert {ρ : Type} {key : ρ → Key2} (t : Store → Table key) {st : Stmt ℕ} {l : Lock}
    {skip : ρ → Bool} {r : ρ} {clash : Err} {c : Store → Except Err Unit} {w : ρ → Write}
    (he : ∀ locked s, core.eval st locked s = insertRow (t s) skip r clash (c s) w)
    (hl : ∀ locked s, lockOf st locked s = if ((t s).rows.find? skip).isSome then none else some l) :
    Locks core takes st l := by
  intro locked s
  show (lockOf st locked s = none ∧ _) ∨ lockOf st locked s = some l ∧ _
  rw [he, hl]
  cases hfind : (t s).rows.find? skip with
  | none =>
    refine Or.inr ⟨rfl, fun n ws h => ?_⟩
    rcases insertRow_cases h with ⟨-, -, x, hx, hskip⟩ | ⟨-, -, -, hn, -⟩
    · exact absurd hskip (List.find?_eq_none.mp hfind x hx)
    · exact hn
  | some x =>
    refine Or.inl ⟨rfl, fun n ws h => ?_⟩
    rcases insertRow_cases h with ⟨hn, -⟩ | ⟨hno, -⟩
    · exact hn
    · have hskip : skip x = true := List.find?_some hfind
      rw [hno x (List.mem_of_find?_eq_some hfind)] at hskip
      cases hskip

/-! ### Every transaction goes up -/

section Transactions

variable {Q : Store → Prop} {tenant id : String}

/-- The audit row is the last. -/
theorem ascends_audit {α : Type} {kind : Kind} {resource detail : String} {d : Stamp} {a : α}
    {held : List Lock} :
    Ascends core takes rank Q (audit tenant kind resource detail d (.commit a)) held :=
  ascends_free (fun _ _ => rfl) fun _ _ _ _ _ => trivial

/-- The campaign, then the key. -/
theorem ascends_reserve (H : Digest) (tenant key : String) (inp : ReservationInput) (d : ReserveDraw) :
    Ascends core takes rank Q (reserve H tenant key inp d) [] := by
  unfold reserve
  split_ifs
  · trivial
  refine ascends_lock (locks_campaign (fun _ _ => rfl) fun _ _ => rfl) (Or.inr (by simp))
    ?_ fun _ => trivial
  refine ascends_free (fun _ _ => rfl) fun fp _ _ _ _ => ?_
  cases fp with
  | some fp =>
    simp only
    split_ifs
    · trivial
    refine ascends_free (fun _ _ => rfl) fun r _ _ _ _ => ?_
    cases r with
    | none => trivial
    | some r => trivial
  | none =>
    refine ascends_free (fun _ _ => rfl) fun v _ _ _ _ => ?_
    cases v with
    | none => trivial
    | some v =>
      refine ascends_lock (locks_campaign (fun _ _ => rfl) fun _ _ => rfl)
        (Or.inl (by simp)) ?_ fun _ => trivial
      refine ascends_lock (locks_insert Store.reservations (fun _ _ => rfl) fun _ _ => rfl)
        (Or.inr (by simp [rank])) ascends_audit fun _ => trivial

/-- The event. Its intent and its context are new rows. -/
theorem ascends_accept (H : Digest) (tenant : String) (r : Receipt) (d : AcceptDraw) :
    Ascends core takes rank Q (accept H tenant r d) [] := by
  unfold accept
  split_ifs
  · trivial
  have hlocks : Locks core takes (.insertDelivery (newDelivery H tenant r d))
      (.eventID (tenant, r.eventID)) :=
    locks_insert Store.deliveries (c := fun _ => unchecked) (fun _ _ => rfl) fun _ _ => rfl
  refine ascends_lock hlocks (Or.inr (by simp)) ?_ fun _ => ?_
  · refine ascends_free (fun _ _ => rfl) fun _ _ _ _ _ => ?_
    exact ascends_free (fun _ _ => rfl) fun _ _ _ _ _ => ascends_audit
  · refine ascends_free (fun _ _ => rfl) fun found _ _ _ _ => ?_
    rcases found with _ | ⟨known, fp⟩
    · trivial
    · simp only
      split_ifs <;> trivial

/-- The decision is written on the delivery `Process` has locked. -/
theorem ascends_decideAs {status : Status} {reason : Reason} {d : ProcessDraw} {held : List Lock}
    (hd : Lock.delivery (tenant, id) ∈ held) :
    Ascends core takes rank Q (decideAs tenant id status reason d) held :=
  ascends_lock (locks_delivery (fun _ _ => rfl) fun _ _ => rfl) (Or.inl hd)
    ascends_audit fun _ => ascends_audit

/-- The reservation that was read is the one the receipt names; the campaign comes after it. -/
theorem ascends_settle {p : Receipt} {d : ProcessDraw} {r : Option Reservation} {held : List Lock}
    (hr : ∀ x, r = some x → x.id = p.reservationID) (hd : Lock.delivery (tenant, id) ∈ held)
    (hheld : ∀ l ∈ held, l = .delivery (tenant, id) ∨ l = .reservation (tenant, p.reservationID)) :
    Ascends core takes rank Q (settle tenant id p d r) held := by
  unfold settle
  split
  · next x _ =>
    have hx : x.id = p.reservationID := hr x rfl
    split_ifs
    · have hup : Lock.reservation (tenant, x.id) ∈ held ∨
          ∀ l ∈ held, rank l < rank (.reservation (tenant, x.id)) := by
        by_cases hmem : Lock.reservation (tenant, x.id) ∈ held
        · exact Or.inl hmem
        refine Or.inr fun l hl => ?_
        rcases hheld l hl with rfl | rfl
        · simp [rank]
        · exact absurd (hx ▸ hl) hmem
      have hbelow : ∀ l ∈ held, rank l < 3 := by
        intro l hl
        rcases hheld l hl with rfl | rfl <;> simp [rank]
      have hcharge : ∀ held' : List Lock, (∀ l ∈ held', rank l < 3) → Lock.delivery (tenant, id) ∈ held' →
          Ascends core takes rank Q (.exec (.chargeCampaign x.cost tenant x.campaign) fun _ =>
            decideAs tenant id .settled .matched d) held' := by
        intro held' hlt hd'
        exact ascends_lock (locks_campaign (fun _ _ => rfl) fun _ _ => rfl)
          (Or.inr hlt) (ascends_decideAs (List.mem_append_left _ hd')) fun _ => ascends_decideAs hd'
      refine ascends_lock (locks_reservation (fun _ _ => rfl) fun _ _ => rfl) hup ?_
        fun _ => hcharge held hbelow hd
      refine hcharge _ (fun l hl => ?_) (List.mem_append_left _ hd)
      rcases List.mem_append.mp hl with hl | hl
      · exact hbelow l hl
      · rw [List.mem_singleton.mp hl]
        simp [rank]
    · exact ascends_decideAs hd
  · exact ascends_decideAs hd

/-- The delivery, the reservation its payload names, the campaign of that. -/
theorem ascends_process (tenant id : String) (d : ProcessDraw) :
    Ascends core takes rank Q (process tenant id d) [] := by
  unfold process
  refine ascends_lock (locks_delivery (fun _ _ => rfl) fun _ _ => rfl) (Or.inr (by simp))
    ?_ fun _ => trivial
  refine ascends_free (fun _ _ => rfl) fun row _ _ _ _ => ?_
  rcases row with _ | ⟨body, status⟩
  · trivial
  have hd : Lock.delivery (tenant, id) ∈ [] ++ [Lock.delivery (tenant, id)] := by simp
  simp only
  split_ifs
  · trivial
  unfold judge
  cases body.unmarshal with
  | none => exact ascends_decideAs hd
  | some p =>
    simp only
    split_ifs
    · exact ascends_decideAs hd
    have hsettle : ∀ held, Lock.delivery (tenant, id) ∈ held →
        (∀ l ∈ held, l = .delivery (tenant, id) ∨ l = .reservation (tenant, p.reservationID)) →
        Ascends core takes rank Q
          (.exec (.selectReservation tenant p.reservationID) fun r => settle tenant id p d r) held := by
      intro held hmem hheld
      refine ascends_free (fun _ _ => rfl) fun r locked s ws he => ascends_settle ?_ hmem hheld
      intro x hx
      have hans : (s.reservations.find? (tenant, p.reservationID)).map (·.toReservation) = r :=
        congrArg Prod.fst (Except.ok.inj he)
      rw [hx] at hans
      obtain ⟨row, hrow, rfl⟩ := Option.map_eq_some_iff.mp hans
      exact congrArg Prod.snd (Table.find?_key hrow)
    refine ascends_lock (locks_reservation (fun _ _ => rfl) fun _ _ => rfl)
      (Or.inr (by simp [rank])) (hsettle _ (by simp) (by simp)) fun _ => hsettle _ (by simp) (by simp)

/-- The reservation, then its campaign. -/
theorem ascends_release (tenant id : String) (now : Int) (d : Stamp) :
    Ascends core takes rank Q (release tenant id now d) [] := by
  unfold release
  refine ascends_lock (locks_reservation (fun _ _ => rfl) fun _ _ => rfl)
    (Or.inr (by simp)) ?_ fun _ => trivial
  refine ascends_free (fun _ _ => rfl) fun r _ _ _ _ => ?_
  cases r with
  | none => trivial
  | some r =>
    exact ascends_lock (locks_campaign (fun _ _ => rfl) fun _ _ => rfl)
      (Or.inr (by simp [rank])) ascends_audit fun _ => ascends_audit

/-- The intent that is due and free, and that intent again. -/
theorem ascends_claim (now : Int) (owner : String) :
    Ascends core takes rank Q (claim true now owner) [] := by
  intro locked s _
  refine ⟨fun _ _ _ _ h hh => (nomatch hh), fun due ws he => ?_⟩
  have hans : (firstDue (claimable s true locked now)).map (fun o => (o.tenant, o.id, o.attempts)) = due :=
    congrArg Prod.fst (Except.ok.inj he)
  show Ascends core takes rank Q _
    (((firstDue (claimable s true locked now)).map fun o => Lock.outbox o.pk).toList)
  cases hfirst : firstDue (claimable s true locked now) with
  | none =>
    rw [hfirst] at hans
    subst hans
    trivial
  | some o =>
    rw [hfirst] at hans
    subst hans
    refine ascends_lock (locks_outbox (fun _ _ => rfl) fun _ _ => rfl) (Or.inl (by simp [OutboxRow.pk]))
      ?_ fun _ => ?_
    all_goals
      refine ascends_free (fun _ _ => rfl) fun carrier _ _ _ _ => ?_
      rcases carrier with _ | trace | raw
      · trivial
      · trivial
      · simp only
        split_ifs <;> trivial

/-- The intent. -/
theorem ascends_dispatched (j : Job) : Ascends core takes rank Q (dispatched j) [] :=
  ascends_lock (locks_outbox (fun _ _ => rfl) fun _ _ => rfl) (Or.inr (by simp)) trivial
    fun _ => trivial

/-- The delivery, then its intent. -/
theorem ascends_complete (tenant id : String) : Ascends core takes rank Q (complete tenant id) [] := by
  have hfinish : ∀ (held : List Lock) (next : Option Status → Tx Unit), (∀ l ∈ held, rank l < 2) →
      next none = .rollback (.error (.storage .noRows)) →
      (∀ status, next (some status) = if status = .accepted then .rollback (.ok ())
        else .exec (.finishOutbox tenant id) fun _ => .commit ()) →
      Ascends core takes rank Q (.exec (.selectStatus tenant id) next) held := by
    intro held next hlt hnone hsome
    refine ascends_free (fun _ _ => rfl) fun status _ _ _ _ => ?_
    cases status with
    | none =>
      rw [hnone]
      trivial
    | some status =>
      rw [hsome]
      split_ifs
      · trivial
      · exact ascends_lock (locks_outbox (fun _ _ => rfl) fun _ _ => rfl) (Or.inr hlt) trivial
          fun _ => trivial
  unfold complete
  exact ascends_lock (locks_delivery (fun _ _ => rfl) fun _ _ => rfl) (Or.inr (by simp))
    (hfinish _ _ (by simp [rank]) rfl fun _ => rfl) fun _ => hfinish _ _ (by simp) rfl fun _ => rfl

/-- The delivery, its intent, the delivery again: it is there from the start. -/
theorem ascends_failJob (j : Job) (next : Int) (d : Stamp)
    (hQ : ∀ s, Q s → (s.deliveries.find? (j.tenant, j.id)).isSome = true) :
    Ascends core takes rank Q (failJob j next d) [] := by
  unfold failJob
  refine ascends_lock (locks_delivery (fun _ _ => rfl) fun _ _ => rfl) (Or.inr (by simp))
    ?_ fun hnone => ?_
  · refine ascends_lock (locks_outbox (fun _ _ => rfl) fun _ _ => rfl)
      (Or.inr (by simp [rank])) ?_ fun _ => trivial
    simp only [one_ne_zero, if_false]
    split_ifs
    · exact ascends_lock (locks_delivery (fun _ _ => rfl) fun _ _ => rfl)
        (Or.inl (by simp)) ascends_audit fun _ => ascends_audit
    · exact ascends_audit
  · obtain ⟨locked, s, hs, hfree⟩ := hnone
    obtain ⟨row, hrow⟩ := Option.isSome_iff_exists.mp (hQ s hs)
    have htaken : lockOf (.lockDelivery j.tenant j.id) locked s = some (.delivery (j.tenant, j.id)) := by
      simp [lockOf, rowLock, hrow]
    rw [show lockOf (.lockDelivery j.tenant j.id) locked s = none from hfree] at htaken
    cases htaken

/-- The delivery, then its intent. -/
theorem ascends_replay (tenant id : String) (d : Stamp) :
    Ascends core takes rank Q (replay tenant id d) [] := by
  unfold replay
  refine ascends_lock (locks_delivery (fun _ _ => rfl) fun _ _ => rfl) (Or.inr (by simp))
    ?_ fun _ => trivial
  exact ascends_lock (locks_outbox (fun _ _ => rfl) fun _ _ => rfl)
    (Or.inr (by simp [rank])) ascends_audit fun _ => ascends_audit

end Transactions

/-! ### The foot-traffic store -/

/-- The lock a statement of the foot-traffic store takes: the row of the tenant. -/
def trafficLockOf : {β : Type} → Foottraffic.Store.Stmt β → (Foottraffic.Store.Lock → Bool) →
    Foottraffic.Model.Traffic → Option Foottraffic.Store.Lock
  | _, .lockScope tenant, _, _ => some (.scope tenant)
  | _, _, _, _ => none

def trafficTakes : Takes Foottraffic.Store.Stmt Foottraffic.Model.Traffic Foottraffic.Store.Lock :=
  ⟨trafficLockOf⟩

/-- A transaction of the foot-traffic store takes one lock. -/
def trafficRank : Foottraffic.Store.Lock → ℕ := fun _ => 0

section Traffic

variable {Q : Foottraffic.Model.Traffic → Prop}

/-- A statement other than `lockScope`. -/
def Unlocked {β : Type} (st : Foottraffic.Store.Stmt β) : Prop :=
  ∀ locked s, trafficLockOf st locked s = none

theorem ascends_unlocked {α : Type} : ∀ {p : Foottraffic.Store.Tx α}, p.All Unlocked →
    ∀ held, Ascends Foottraffic.Store.traffic trafficTakes trafficRank Q p held
  | .commit _, _, _ => trivial
  | .rollback _, _, _ => trivial
  | .exec _ _, hp, _ => ascends_free hp.1 fun b _ _ _ _ => ascends_unlocked (hp.2 b) _

/-- `lockScope` first, and no other lock. -/
theorem ascends_scope {α : Type} {tenant : String} {k : Unit → Foottraffic.Store.Tx α}
    (hk : (k ()).All Unlocked) :
    Ascends Foottraffic.Store.traffic trafficTakes trafficRank Q (.exec (.lockScope tenant) k) [] :=
  fun _ _ _ => ⟨fun _ _ _ _ _ hl => (nomatch hl), fun _ _ _ => ascends_unlocked hk _⟩

theorem unlocked_insertWindows (tenant feed : String)
    {k : ℕ → Foottraffic.Store.Tx Foottraffic.Model.Result}
    (hk : ∀ n, (k n).All Unlocked) : ∀ (ws : List Foottraffic.Model.Window) (inserted : ℕ),
    (Foottraffic.Store.insertWindows tenant feed k ws inserted).All Unlocked
  | [], inserted => hk inserted
  | w :: ws, inserted => by
    refine ⟨fun _ _ => rfl, fun n => Prog.all_ite ⟨fun _ _ => rfl, fun count => ?_⟩ ?_⟩
    · cases count with
      | none => trivial
      | some count => exact Prog.all_ite trivial (unlocked_insertWindows tenant feed hk ws inserted)
    · exact unlocked_insertWindows tenant feed hk ws (inserted + 1)

theorem ascends_ingest (sha256 : String → String) (tenant : String) (b : Foottraffic.Model.Batch)
    (now : Int) (replace : Bool) : Ascends Foottraffic.Store.traffic trafficTakes trafficRank Q
      (Foottraffic.Store.ingest sha256 tenant b now replace) [] := by
  unfold Foottraffic.Store.ingest
  split_ifs
  · trivial
  refine ascends_scope ⟨fun _ _ => rfl, fun n => Prog.all_ite ⟨fun _ _ => rfl, fun row => ?_⟩ ?_⟩
  · rcases row with _ | ⟨previous, inserted⟩
    · trivial
    · exact Prog.all_ite trivial trivial
  · have hload := unlocked_insertWindows tenant b.source
      (k := fun inserted => .exec (.setInserted inserted tenant b.id) fun _ =>
        .commit ⟨b.id, inserted, false⟩)
      (fun n => ⟨fun _ _ => rfl, fun _ => trivial⟩) (Foottraffic.Store.canonical b).windows 0
    exact Prog.all_ite ⟨fun _ _ => rfl, fun _ => ⟨fun _ _ => rfl, fun _ => hload⟩⟩ hload

theorem ascends_emptySample (tenant : String) :
    Ascends Foottraffic.Store.traffic trafficTakes trafficRank Q
      (Foottraffic.Store.emptySample tenant) [] := by
  unfold Foottraffic.Store.emptySample
  split_ifs
  · trivial
  exact ascends_scope ⟨fun _ _ => rfl, fun _ => ⟨fun _ _ => rfl, fun _ => trivial⟩⟩

end Traffic

/-! ### Sessions on one database -/

/-- The twelve transactions, with their arguments and all they draw. -/
inductive Request
  | reserve (tenant key : String) (inp : ReservationInput) (d : ReserveDraw)
  | accept (tenant : String) (r : Receipt) (d : AcceptDraw)
  | process (tenant id : String) (d : ProcessDraw)
  | release (tenant id : String) (now : Int) (d : Stamp)
  | claim (now : Int) (owner : String)
  | dispatched (j : Job)
  | complete (tenant id : String)
  | failJob (j : Job) (next : Int) (d : Stamp)
  | replay (tenant id : String) (d : Stamp)
  | ingest (tenant : String) (b : Foottraffic.Model.Batch) (now : Int)
  | replaceSample (tenant : String) (b : Foottraffic.Model.Batch) (now : Int)
  | emptySample (tenant : String)

/-- What happens on the connections: a session begins a transaction, executes its next statement, commits
or rolls back at its end, or is cut off. -/
inductive Event (n : ℕ)
  | start (i : Fin n) (r : Request)
  | exec (i : Fin n)
  | finish (i : Fin n)
  | abort (i : Fin n)

/-- The tables of both stores and `n` sessions. -/
abbrev Sessions (n : ℕ) :=
  Db (Either Stmt Foottraffic.Store.Stmt) (Store × Foottraffic.Model.Traffic)
    (Write ⊕ Foottraffic.Store.Write) (Lock ⊕ Foottraffic.Store.Lock)
    (Err ⊕ Foottraffic.Model.TrafficErr) n

/-- The engine and the locks of both stores. -/
def engine := Engine.sum core Foottraffic.Store.traffic

def locks := Takes.sum takes trafficTakes

section Database

variable (H : Digest) (sha256 : String → String) {n : ℕ}

/-- A step of the sessions, with the transaction a request begins. -/
def Event.act : Event n →
    Act (Either Stmt Foottraffic.Store.Stmt) (Err ⊕ Foottraffic.Model.TrafficErr) n
  | .start i (.reserve tenant key inp d) => .start i (Prog.left (reserve H tenant key inp d))
  | .start i (.accept tenant r d) => .start i (Prog.left (accept H tenant r d))
  | .start i (.process tenant id d) => .start i (Prog.left (process tenant id d))
  | .start i (.release tenant id now d) => .start i (Prog.left (release tenant id now d))
  | .start i (.claim now owner) => .start i (Prog.left (claim true now owner))
  | .start i (.dispatched j) => .start i (Prog.left (dispatched j))
  | .start i (.complete tenant id) => .start i (Prog.left (complete tenant id))
  | .start i (.failJob j next d) => .start i (Prog.left (failJob j next d))
  | .start i (.replay tenant id d) => .start i (Prog.left (replay tenant id d))
  | .start i (.ingest tenant b now) =>
    .start i (Prog.right (Foottraffic.Store.ingest sha256 tenant b now false))
  | .start i (.replaceSample tenant b now) =>
    .start i (Prog.right (Foottraffic.Store.ingest sha256 tenant b now true))
  | .start i (.emptySample tenant) => .start i (Prog.right (Foottraffic.Store.emptySample tenant))
  | .exec i => .exec i
  | .finish i => .finish i
  | .abort i => .abort i

def step (x : Sessions n) (e : Event n) : Sessions n := x.step engine locks (e.act H sha256)

/-- The database after a list of events. -/
def run (es : List (Event n)) (x : Sessions n) : Sessions n := es.foldl (step H sha256) x

/-- The delivery of a job that is failed is committed when `FailJob` begins. -/
def Event.known (x : Sessions n) : Event n → Bool
  | .start _ (.failJob j _ _) => (x.committed.1.deliveries.find? (j.tenant, j.id)).isSome
  | _ => true

/-- So it is for every `FailJob` of the run. -/
def knownJobs : List (Event n) → Sessions n → Bool
  | [], _ => true
  | e :: es, x => e.known x && knownJobs es (step H sha256 x e)

variable {H sha256}

/-- The tables keep a delivery. -/
theorem stable_delivery (k : Key2) : Stable core fun s => (s.deliveries.find? k).isSome = true := by
  intro w s hs
  cases w with
  | delivery d =>
    show ((s.deliveries.put d).find? k).isSome = true
    rw [Table.find?_put]
    split_ifs
    · rfl
    · exact hs
  | _ => exact hs

/-- **Every transaction ascends where it begins.** -/
theorem starts {x : Sessions n} {e : Event n} (he : e.known x = true) :
    Starts engine locks (Sum.elim rank trafficRank) x (e.act H sha256) := by
  have hstore : ∀ {α : Type} {p : Tx α}, (Ascends core takes rank (fun _ => True) p []) →
      ∃ Q, Stable engine Q ∧ Q x.committed ∧
        Ascends engine locks (Sum.elim rank trafficRank) Q (Prog.left p) [] := fun hp =>
    ⟨fun _ => True, fun _ _ _ => trivial, trivial, Ascends.left hp⟩
  have htraffic : ∀ {α : Type} {p : Foottraffic.Store.Tx α},
      (Ascends Foottraffic.Store.traffic trafficTakes trafficRank (fun _ => True) p []) →
      ∃ Q, Stable engine Q ∧ Q x.committed ∧
        Ascends engine locks (Sum.elim rank trafficRank) Q (Prog.right p) [] := fun hp =>
    ⟨fun _ => True, fun _ _ _ => trivial, trivial, Ascends.right hp⟩
  cases e with
  | start i r =>
    cases r with
    | reserve tenant key inp d => exact hstore (ascends_reserve H tenant key inp d)
    | accept tenant r d => exact hstore (ascends_accept H tenant r d)
    | process tenant id d => exact hstore (ascends_process tenant id d)
    | release tenant id now d => exact hstore (ascends_release tenant id now d)
    | claim now owner => exact hstore (ascends_claim now owner)
    | dispatched j => exact hstore (ascends_dispatched j)
    | complete tenant id => exact hstore (ascends_complete tenant id)
    | failJob j next d =>
      exact ⟨_, Stable.left (stable_delivery (j.tenant, j.id)), he,
        Ascends.left (ascends_failJob j next d fun _ hs => hs)⟩
    | replay tenant id d => exact hstore (ascends_replay tenant id d)
    | ingest tenant b now => exact htraffic (ascends_ingest sha256 tenant b now false)
    | replaceSample tenant b now => exact htraffic (ascends_ingest sha256 tenant b now true)
    | emptySample tenant => exact htraffic (ascends_emptySample tenant)
  | _ => trivial

theorem startsAll : ∀ (es : List (Event n)) (x : Sessions n), knownJobs H sha256 es x = true →
    StartsAll engine locks (Sum.elim rank trafficRank) (es.map (Event.act H sha256)) x
  | [], _, _ => trivial
  | e :: es, x, h => by
    obtain ⟨he, hes⟩ := Bool.and_eq_true_iff.mp h
    exact ⟨starts he, startsAll es _ hes⟩

theorem run_eq (es : List (Event n)) (x : Sessions n) :
    run H sha256 es x = x.run engine locks (es.map (Event.act H sha256)) := by
  unfold run Db.run
  rw [List.foldl_map]
  rfl

end Database

/-- **No deadlock.** Any number of sessions run the twelve transactions with any arguments, begun, cut off
and interleaved in any way, where `FailJob` is given jobs whose delivery is committed. No sessions ever
wait for each other in a circle. -/
theorem sessions_never_deadlock (H : Digest) (sha256 : String → String) {n : ℕ}
    (s : Store × Foottraffic.Model.Traffic) (es : List (Event n))
    (hjobs : knownJobs H sha256 es (Db.init s) = true) (i : Fin n) :
    ¬ Relation.TransGen ((run H sha256 es (Db.init s)).WaitsFor engine locks) i i := by
  rw [run_eq]
  exact (ordered_run _ _ (Ordered.init s) (startsAll es _ hjobs)).acyclic i

/-! ### A delivery that appears -/

/-- A digest for the runs below. -/
def shortDigest : Digest := ⟨fun i => i.campaignID, fun r => r.eventID⟩

/-- A job of the delivery `d1` after its last attempt. -/
def lastJob : Job := ⟨"demo", "d1", "o1", 5, []⟩

/-- `Accept` of the delivery `d1` and `Claim` of its intent by `o1`, in session 1. -/
def acceptAndClaim : List (Event 2) :=
  [.start 1 (.accept "demo" ⟨1, "e1", "r1", "sea-01", 0, 5000⟩ ⟨"d1", 0, [], ⟨"a1", 0⟩⟩),
    .exec 1, .exec 1, .exec 1, .exec 1, .finish 1,
    .start 1 (.claim 0 "o1"), .exec 1, .exec 1, .exec 1, .finish 1]

/-- Both sessions fail the job. The second begins when the first has failed the intent. -/
def failTwice : List (Event 2) :=
  [.start 0 (.failJob lastJob 0 ⟨"a2", 0⟩), .exec 0, .exec 0, .start 1 (.failJob lastJob 0 ⟨"a3", 0⟩),
    .exec 1, .exec 1]

/-- The job is claimed first: session 1 waits for the delivery that session 0 holds, and nobody waits for
session 1. -/
theorem sessions_never_deadlock_failTwice :
    let x₀ : Sessions 2 := Db.init (Store.empty, Foottraffic.Model.Traffic.empty)
    let x := run shortDigest id (acceptAndClaim ++ failTwice) x₀
    knownJobs shortDigest id (acceptAndClaim ++ failTwice) x₀ = true ∧
      x.awaited engine locks 1 = some (.inl (.delivery ("demo", "d1"))) ∧
      ¬ Relation.TransGen (x.WaitsFor engine locks) 1 1 :=
  ⟨by decide +kernel, by decide +kernel,
    sessions_never_deadlock shortDigest id _ (acceptAndClaim ++ failTwice) (by decide +kernel) 1⟩

/-- The first `FailJob` looks for the delivery before it is accepted, and fails its intent after that. -/
def failBeforeAccept : List (Event 2) :=
  [.start 0 (.failJob lastJob 0 ⟨"a2", 0⟩), .exec 0] ++ acceptAndClaim ++
    [.exec 0, .start 1 (.failJob lastJob 0 ⟨"a3", 0⟩), .exec 1]

/-- **Two sessions wait for each other**: session 0 holds the intent and waits for the delivery, session 1
holds the delivery and waits for the intent. -/
theorem fail_before_accept :
    let x₀ : Sessions 2 := Db.init (Store.empty, Foottraffic.Model.Traffic.empty)
    Relation.TransGen ((run shortDigest id failBeforeAccept x₀).WaitsFor engine locks) 0 0 := by
  intro x₀
  have hdelivery : ((run shortDigest id failBeforeAccept x₀).session 1).held =
      [.inl (.delivery ("demo", "d1"))] := by decide +kernel
  have hintent : ((run shortDigest id failBeforeAccept x₀).session 0).held =
      [.inl (.outbox ("demo", "d1"))] := by decide +kernel
  have h01 : (run shortDigest id failBeforeAccept x₀).WaitsFor engine locks 0 1 :=
    ⟨by decide, .inl (.delivery ("demo", "d1")), by decide +kernel, by rw [hdelivery]; simp⟩
  have h10 : (run shortDigest id failBeforeAccept x₀).WaitsFor engine locks 1 0 :=
    ⟨by decide, .inl (.outbox ("demo", "d1")), by decide +kernel, by rw [hintent]; simp⟩
  exact .tail (.single h01) h10

end Afterglow.Core.LockOrder
