import Mathlib.Data.List.Forall2
import Mathlib.Data.List.Nodup
import Afterglow.Core.Admission
import Afterglow.Core.Receipts
import Afterglow.Httpapi.Demo

/-! # The scenarios of the failure lab

`POST /api/demo/scenario` reserves plays and reports them, one transaction after the other, while the
worker and other requests go on. A `Turn` of the handler is one transaction together with all calls of
others that come between it and the one before, so a list of turns is any interleaving.

Every report of a scenario except `poison` is good evidence (`Good`): whatever else happens, it is not
turned down unless its hold is released. A report of `poison` is bad evidence (`Bad`): it moves no money.
What the handler promises follows from these two and from the invariants of a run. The bids of `budget-race`
are a contest for what is left of one campaign (`race_exact`). -/

namespace Afterglow.Httpapi.Scenario

open Afterglow.Sql.Rows Afterglow.Sql.Txn Afterglow.Core.Model Afterglow.Core.Store
open Afterglow.Core.Outcome Afterglow.Core.Run Afterglow.Core.Settlement Afterglow.Core.Keys
open Afterglow.Core.Admission Afterglow.Core.Receipts Afterglow.Localdemo.Reset Afterglow.Httpapi.Demo

/-! ### The handler -/

/-- The scenarios that report plays. -/
inductive Kind
  | traffic
  | duplicate
  | poison
  | crash
  | retry
  deriving DecidableEq, Repr

/-- The `kind` of a request. -/
inductive Choice
  | budgetRace
  | plays (kind : Kind)
  | unknown
  deriving DecidableEq, Repr

def choose (text : String) : Choice :=
  if text = "budget-race" then .budgetRace
  else if text = "traffic" then .plays .traffic
  else if text = "duplicate" then .plays .duplicate
  else if text = "poison" then .plays .poison
  else if text = "crash" then .plays .crash
  else if text = "retry" then .plays .retry
  else .unknown

/-- The plays a scenario reserves. -/
def Kind.plays : Kind → ℕ
  | .traffic => 12
  | _ => 1

/-- The reports it sends for each of them. -/
def Kind.reports : Kind → ℕ
  | .duplicate => 5
  | _ => 1

/-- The schema version of its reports. -/
def Kind.version : Kind → Int
  | .poison => 99
  | _ => 1

/-- The fault it arms before its first transaction. -/
def Kind.arm : Kind → Controls → Controls
  | .crash, c => { c with dropAck := true }
  | .retry, c => { c with failNext := 5 }
  | _, c => c

def Kind.message : Kind → String
  | .traffic => "12 playback receipts accepted. Follow the pipeline as reservations settle."
  | .duplicate => "5 distinct receipts reference one reservation. Only one can move money."
  | .poison => "Schema v99 accepted durably. The consumer will quarantine it without charging."
  | .crash => "Next receipt will commit, then lose its acknowledgement. Redelivery must preserve the balance."
  | .retry => "Next five processing attempts will fail. With no other traffic, the receipt reaches the " ++
    "recovery queue; replay it after recovery."

def screens : List String :=
  ["sea-01", "sea-02", "pdx-01", "sfo-01", "lax-01", "den-01", "ord-01", "jfk-01"]

def campaigns : List String := ["cmp-cascade", "cmp-northstar", "cmp-solstice"]

/-- The hold of play `i`. -/
def playInput (i : ℕ) : ReservationInput :=
  ⟨campaigns.getD (i % 3) "", screens.getD (i % screens.length) "", 1250000 + i * 75000⟩

/-- The report on a hold. -/
def report (kind : Kind) (r : Reservation) (eventID : String) : Receipt :=
  ⟨kind.version, eventID, r.id, r.screen, r.created + 1, 10000⟩

/-- A `Reserve` of the handler: the calls of others before it, what it draws, and the statement at which
the database fails, if it does. -/
structure HoldTurn where
  others : List Call
  key : String
  draw : ReserveDraw
  fault : Option ℕ

/-- An `Accept` of the handler. -/
structure ReportTurn where
  others : List Call
  eventID : String
  draw : AcceptDraw
  fault : Option ℕ

/-- The turns of one play. -/
structure PlayTurns where
  hold : HoldTurn
  report : ℕ → ReportTurn

/-- What the handler writes. -/
inductive Reply
  | problem (code : ℕ) (detail : String)
  | raced (message : String) (accepted rejected : ℕ)
  | filed (message : String) (ids : List String)
  deriving DecidableEq, Repr

/-- `fail`. -/
def fail : Err → Reply
  | .conflict => .problem 409 Err.conflict.text
  | .budget => .problem 409 Err.budget.text
  | .notFound => .problem 404 "not_found"
  | .invalid detail => .problem 422 (Err.invalid detail).text
  | .storage _ => .problem 503 "temporarily_unavailable"

/-- What `decode` can meet in a request. -/
inductive Body
  | notJson
  | malformed
  | trailing
  | kind (text : String)
  deriving DecidableEq, Repr

/-- Go on with the answer of a call, unless it is an error. -/
def andThen {α β : Type} :
    Except Err α × Store → (α → Store → Except Err β × Store) → Except Err β × Store
  | (.error e, s), _ => (.error e, s)
  | (.ok a, s), f => f a s

theorem andThen_ok {α β : Type} {x : Except Err α × Store} {f : α → Store → Except Err β × Store} {b : β}
    (h : (andThen x f).1 = .ok b) :
    ∃ a, x.1 = .ok a ∧ (f a x.2).1 = .ok b ∧ (andThen x f).2 = (f a x.2).2 := by
  rcases x with ⟨e | a, s⟩
  · cases h
  · exact ⟨a, rfl, h, rfl⟩

section Handler

variable (H : Digest) (tenant : String)

/-- The reports of one hold, in their turns. -/
def reportAll (kind : Kind) (r : Reservation) :
    List ReportTurn → Store → Except Err (List String) × Store
  | [], s => (.ok [], s)
  | t :: ts, s =>
    andThen (acceptCall H tenant (report kind r t.eventID) t.draw t.fault (run H t.others s)) fun a s =>
    andThen (reportAll kind r ts s) fun ids s => (.ok (a.1 :: ids), s)

/-- A hold and the deliveries that report it. -/
structure Filing where
  hold : Reservation
  ids : List String
  deriving DecidableEq, Repr

/-- One round of the loop: a `Reserve` and the reports on it. -/
def playOne (kind : Kind) (i : ℕ) (p : PlayTurns) (s : Store) : Except Err Filing × Store :=
  andThen (reserveCall H tenant p.hold.key (playInput i) p.hold.draw p.hold.fault (run H p.hold.others s))
    fun a s =>
  andThen (reportAll H tenant kind a.1 ((List.range kind.reports).map p.report) s) fun ids s =>
  (.ok ⟨a.1, ids⟩, s)

/-- The loop: `n` more rounds, from index `i` on. -/
def playAll (kind : Kind) (turns : ℕ → PlayTurns) : ℕ → ℕ → Store → Except Err (List Filing) × Store
  | 0, _, s => (.ok [], s)
  | n + 1, i, s =>
    andThen (playOne H tenant kind i (turns i) s) fun f s =>
    andThen (playAll kind turns n (i + 1) s) fun fs s => (.ok (f :: fs), s)

def raceMessage : String :=
  "32 concurrent $10 reservations competed for remaining Solstice budget. Holds remain visible and expire " ++
    "after the grace period."

/-- The bid every goroutine of the race makes. -/
def raceInput : ReservationInput := ⟨"cmp-solstice", "sea-01", 10000000⟩

/-- The 32 goroutines of the race, in the order of their transactions. -/
def race : List HoldTurn → ℕ × ℕ → Store → (ℕ × ℕ) × Store
  | [], n, s => (n, s)
  | t :: ts, (accepted, rejected), s =>
    match reserveCall H tenant t.key raceInput t.draw t.fault (run H t.others s) with
    | (.ok _, s) => race ts (accepted + 1, rejected) s
    | (.error _, s) => race ts (accepted, rejected + 1) s

/-- What a request for a scenario draws and meets. -/
structure Turns where
  race : ℕ → HoldTurn
  plays : ℕ → PlayTurns

/-- **The handler** of `POST /api/demo/scenario`. -/
def scenario (turns : Turns) (body : Body) (c : Controls) (s : Store) : Reply × Controls × Store :=
  match body with
  | .notJson => (.problem 415 "application_json_required", c, s)
  | .malformed => (.problem 400 "invalid_json", c, s)
  | .trailing => (.problem 400 "single_json_object_required", c, s)
  | .kind text =>
    match choose text with
    | .unknown => (.problem 422 "unknown_scenario", c, s)
    | .budgetRace =>
      let (n, s) := race H tenant ((List.range 32).map turns.race) (0, 0) s
      (.raced raceMessage n.1 n.2, c, s)
    | .plays kind =>
      match playAll H tenant kind turns.plays kind.plays 0 s with
      | (.error e, s) => (fail e, kind.arm c, s)
      | (.ok fs, s) => (.filed kind.message (fs.flatMap Filing.ids), kind.arm c, s)

end Handler

/-! ### What becomes of a judgement -/

section Judgement

variable {H : Digest} {o : Op} {s s' : Store} {k : Key2}

/-- Where the judgement of the delivery `k` comes from: from before, from the verdict of a `Process` on it,
or it is none. -/
inductive Judgement (s : Store) (o : Op) (k : Key2) (d d' : DeliveryRow) : Prop
  | kept (h : (d'.status, d'.reason) = (d.status, d.reason))
  | opened (h : d'.status = .accepted)
  | failed (j : Job) (next : Int) (stamp : Stamp) (ho : o = .failJob j next stamp)
      (hk : (j.tenant, j.id) = k) (hd : d.status = .accepted) (h : d'.status = .failed)
  | verdict (draw : ProcessDraw) (ho : o = .process k.1 k.2 draw)
      (h : verdict s k.1 draw.now d.payload = (d'.status, d'.reason))

/-- The delivery that a change writes is `k`, or `k` stays. -/
theorem judgement_put {k₀ : Key2} {d x : DeliveryRow} (x' : DeliveryRow)
    (hd : s.deliveries.find? k = some d) (hx : s.deliveries.find? k₀ = some x) (hstep : DeliveryStep x x')
    (hs : s'.deliveries = s.deliveries.put x') (h : Judgement s o k₀ x x') :
    ∃ d', s'.deliveries.find? k = some d' ∧ DeliveryStep d d' ∧ Judgement s o k d d' := by
  have hx' : x'.pk = k₀ := by
    rw [hstep.1]
    have hpk : x.pk = k₀ := Table.find?_key hx
    exact hpk
  by_cases hk : k₀ = k
  · subst hk
    cases hx.symm.trans hd
    exact ⟨x', by rw [hs, ← hx']; exact Table.find?_put_self _ _, hstep, h⟩
  · exact ⟨d, by rw [hs, Table.find?_put_ne (by rw [hx']; exact hk)]; exact hd, .refl d, .kept rfl⟩

/-- **What becomes of a delivery and of its judgement.** -/
theorem judgement_cases (hc : Change H s o s') {d : DeliveryRow} (hd : s.deliveries.find? k = some d) :
    ∃ d', s'.deliveries.find? k = some d' ∧ DeliveryStep d d' ∧ Judgement s o k d d' := by
  have hsame : s'.deliveries = s.deliveries →
      ∃ d', s'.deliveries.find? k = some d' ∧ DeliveryStep d d' ∧ Judgement s o k d d' :=
    fun hs => ⟨d, by rw [hs]; exact hd, .refl d, .kept rfl⟩
  cases hc with
  | seeded h => exact hsame (by rw [h.rest])
  | @accepted tenant r draw hv hk hf =>
    have hne : (newDelivery H tenant r draw).pk ≠ k := fun h => by
      have hnone : s.deliveries.find? (newDelivery H tenant r draw).pk = none := hf.delivery
      rw [h, hd] at hnone
      cases hnone
    exact ⟨d, (Table.find?_put_ne hne).trans hd, .refl d, .kept rfl⟩
  | seen x hx hs =>
    exact judgement_put { x with attempts := x.attempts + 1 } hd hx ⟨rfl, fun _ => rfl⟩ rfl (.kept rfl)
  | decided x status reason hx hs hv =>
    exact judgement_put (decidedRow x status reason) hd hx (deliveryStep_open (by rw [hs]; simp) _ _ _) rfl
      (.verdict _ rfl hv)
  | settled x p r hx hs hp hv =>
    exact judgement_put (decidedRow x .settled .matched) hd hx (deliveryStep_open (by rw [hs]; simp) _ _ _)
      rfl (.verdict _ rfl hv)
  | @died j next st x hx hj hs ha =>
    cases hy : s.deliveries.find? (j.tenant, j.id) with
    | none => exact hsame (Table.modify_of_none _ hy)
    | some y =>
      refine judgement_put (deadRow y) hd hy (deliveryStep_dead y) (Table.modify_of_find? _ hy) ?_
      unfold deadRow
      split_ifs with h
      · exact .failed j next st rfl rfl h rfl
      · exact .kept rfl
  | reopened x hx hs =>
    refine judgement_put (reopenedRow x) hd hx (deliveryStep_open ?_ _ _ x.attempts) rfl (.opened rfl)
    rcases hs with hs | hs <;> rw [hs] <;> simp
  | _ => exact hsame rfl

end Judgement

/-! ### Good and bad evidence -/

/-- A `Process` is not at a clock before `t`. -/
def Timely (t : Int) : Op → Prop
  | .process _ _ d => t ≤ d.now
  | _ => True

/-- The delivery `d` with identifier `id` reports `hold` by the receipt `p`. -/
structure Reporting (s : Store) (tenant hold id eventID : String) (d : DeliveryRow) (p : Receipt) :
    Prop where
  row : s.deliveries.find? (tenant, id) = some d
  payload : d.payload = .json p
  event : d.eventID = eventID
  hold : p.reservationID = hold

/-- **Good evidence**: it matches its hold, no `Process` from `t` on takes it for the future, and it is turned
down only if the hold is released. -/
def Good (t : Int) (tenant hold id eventID : String) (s : Store) : Prop :=
  ∃ d p r, Reporting s tenant hold id eventID d p ∧ s.reservations.find? (tenant, hold) = some r ∧
    Matches p r ∧ p.playedAt ≤ t + 60000 ∧ (d.status = .quarantined → r.state = .released)

/-- **Bad evidence**: its schema is not supported, and it never counts. -/
def Bad (tenant hold id eventID : String) (s : Store) : Prop :=
  ∃ d p, Reporting s tenant hold id eventID d p ∧ p.version ≠ 1 ∧ d.status ≠ .settled ∧
    d.status ≠ .duplicate ∧ (d.status = .quarantined → d.reason = .unsupportedSchema)

section Evidence

variable {H : Digest} {o : Op} {s s' : Store} {t : Int} {tenant hold id eventID : String}

theorem Reporting.step {d d' : DeliveryRow} {p : Receipt} (h : Reporting s tenant hold id eventID d p)
    (hd : s'.deliveries.find? (tenant, id) = some d') (hstep : DeliveryStep d d') :
    Reporting s' tenant hold id eventID d' p where
  row := hd
  payload := by rw [hstep.1]; exact h.payload
  event := by rw [hstep.1]; exact h.event
  hold := h.hold

/-- A receipt that matches its hold is turned down at a timely clock only if the hold is released. -/
theorem verdict_good {now : Int} {p : Receipt} {r : ReservationRow} {reason : Reason}
    (hr : s.reservations.find? (tenant, p.reservationID) = some r) (hm : Matches p r)
    (hp : p.playedAt ≤ t + 60000) (hnow : t ≤ now)
    (hv : verdict s tenant now (.json p) = (.quarantined, reason)) : r.state = .released := by
  have hreason : receiptReason now p = .none := by
    have hdur := hm.duration
    unfold receiptReason
    rw [if_neg (by simpa using hm.version), if_neg (by omega), if_neg (by omega)]
  rw [verdict_json s tenant hreason, hr] at hv
  have hwin := hm.window
  by_contra hst
  have hnone : reservationReason p (some r.toReservation) = .none := by
    simp only [reservationReason, hm.screen, ne_eq, not_true_eq_false, if_false]
    rw [if_neg (by omega), if_neg hst]
  simp only [hnone, ne_eq, not_true_eq_false, if_false] at hv
  split_ifs at hv <;> cases hv

theorem verdict_bad {now : Int} {p : Receipt} (hp : p.version ≠ 1) :
    verdict s tenant now (.json p) = (.quarantined, .unsupportedSchema) := by
  have hreason : receiptReason now p = .unsupportedSchema := by
    unfold receiptReason
    rw [if_pos hp]
  simp only [verdict, Text.unmarshal, hreason, ne_eq, reduceCtorEq, not_false_eq_true, if_true]

/-- **One change keeps good evidence good.** -/
theorem Good.change (h : Good t tenant hold id eventID s) (ht : Timely t o) (hc : Change H s o s') :
    Good t tenant hold id eventID s' := by
  obtain ⟨d, p, r, hrep, hr, hm, hp, hq⟩ := h
  obtain ⟨d', hd', hstep, hj⟩ := judgement_cases hc hrep.row
  obtain ⟨r', hr', hrow, hst⟩ := (evolves_change hc).reservations _ r hr
  have hrel : r.state = .released → r'.state = .released := fun h =>
    (hst.resolve_right (by rw [h]; simp)).trans h
  refine ⟨d', p, r', hrep.step hd' hstep, hr', ?_, hp, fun hq' => hrel ?_⟩
  · rw [hrow]
    exact ⟨hm.version, hm.duration, hm.screen, hm.window⟩
  · cases hj with
    | kept hk => exact hq ((congrArg Prod.fst hk).symm.trans hq')
    | opened ho => rw [ho] at hq'; cases hq'
    | failed j next stamp ho hk hd hf => rw [hf] at hq'; cases hq'
    | verdict draw ho hv =>
      subst ho
      rw [hq', hrep.payload] at hv
      exact verdict_good (hrep.hold ▸ hr) hm hp ht hv

theorem Bad.change (h : Bad tenant hold id eventID s) (hc : Change H s o s') :
    Bad tenant hold id eventID s' := by
  obtain ⟨d, p, hrep, hp, hset, hdup, hq⟩ := h
  obtain ⟨d', hd', hstep, hj⟩ := judgement_cases hc hrep.row
  refine ⟨d', p, hrep.step hd' hstep, hp, ?_⟩
  cases hj with
  | kept hk =>
    obtain ⟨hs, hr⟩ := Prod.mk.inj hk
    rw [hs, hr]
    exact ⟨hset, hdup, hq⟩
  | opened ho => rw [ho]; simp
  | failed j next stamp ho hk hd hf => rw [hf]; simp
  | verdict draw ho hv =>
    rw [hrep.payload, verdict_bad hp] at hv
    obtain ⟨hs, hr⟩ := Prod.mk.inj hv
    rw [← hs, ← hr]
    simp

theorem Good.run (h : Good t tenant hold id eventID s) (cs : List Call) (hcs : ∀ c ∈ cs, Timely t c.op) :
    Good t tenant hold id eventID (Core.Run.run H cs s) :=
  run_invariant (A := Timely t) (fun _ _ _ ht h hc => h.change ht hc) cs s hcs h

theorem Bad.run (h : Bad tenant hold id eventID s) (cs : List Call) :
    Bad tenant hold id eventID (Core.Run.run H cs s) :=
  run_invariant (A := fun _ => True) (fun _ _ _ _ h hc => h.change hc) cs s (fun _ _ => trivial) h

end Evidence

/-- The call is not too early for the evidence of a scenario: that of `poison` is bad at any clock. -/
def InTime (kind : Kind) (t : Int) (o : Op) : Prop := kind ≠ .poison → Timely t o

/-- The evidence a scenario sends. -/
def Sent (kind : Kind) (t : Int) (tenant hold id eventID : String) (s : Store) : Prop :=
  if kind = .poison then Bad tenant hold id eventID s else Good t tenant hold id eventID s

theorem Sent.run {H : Digest} {kind : Kind} {t : Int} {tenant hold id eventID : String} {s : Store}
    (h : Sent kind t tenant hold id eventID s) (cs : List Call) (hcs : ∀ c ∈ cs, InTime kind t c.op) :
    Sent kind t tenant hold id eventID (Core.Run.run H cs s) := by
  unfold Sent at h ⊢
  split_ifs at h ⊢ with hk
  · exact h.run cs
  · exact h.run cs fun c hc => hcs c hc hk

/-- The delivery is there, and it reports the hold. -/
theorem Sent.reporting {kind : Kind} {t : Int} {tenant hold id eventID : String} {s : Store}
    (h : Sent kind t tenant hold id eventID s) : ∃ d p, Reporting s tenant hold id eventID d p := by
  unfold Sent at h
  split_ifs at h
  · obtain ⟨d, p, hrep, -⟩ := h
    exact ⟨d, p, hrep⟩
  · obtain ⟨d, p, r, hrep, -⟩ := h
    exact ⟨d, p, hrep⟩

theorem Sent.names {kind : Kind} {t : Int} {tenant hold id eventID : String} {s : Store}
    (h : Sent kind t tenant hold id eventID s) :
    ∃ d, s.deliveries.find? (tenant, id) = some d ∧ d.names hold = true := by
  obtain ⟨d, p, hrep⟩ := h.reporting
  exact ⟨d, hrep.row, names_iff.mpr ⟨p, hrep.payload, hrep.hold⟩⟩

/-- A delivery reports one event. -/
theorem Sent.event {kind : Kind} {t : Int} {tenant hold hold' id e e' : String} {s : Store}
    (h : Sent kind t tenant hold id e s) (h' : Sent kind t tenant hold' id e' s) : e = e' := by
  obtain ⟨d, p, hrep⟩ := h.reporting
  obtain ⟨d', p', hrep'⟩ := h'.reporting
  cases hrep.row.symm.trans hrep'.row
  exact hrep.event.symm.trans hrep'.event

/-! ### New identifiers -/

/-- No row of the tenant has a key in `K` or an event in `E`. -/
structure New (tenant : String) (K E : String → Prop) (s : Store) : Prop where
  keys : ∀ r ∈ s.reservations, r.tenant = tenant → ¬ K r.idemKey
  events : ∀ d ∈ s.deliveries, d.tenant = tenant → ¬ E d.eventID

/-- The call brings none of these keys and events. -/
def Foreign (tenant : String) (K E : String → Prop) : Op → Prop
  | .reserve tenant' key _ _ => tenant' = tenant → ¬ K key
  | .accept tenant' r _ => tenant' = tenant → ¬ E r.eventID
  | _ => True

section New

variable {H : Digest} {o : Op} {s s' : Store} {tenant : String} {K E K' E' : String → Prop}

theorem New.mono (h : New tenant K E s) (hK : ∀ k, K' k → K k) (hE : ∀ e, E' e → E e) :
    New tenant K' E' s :=
  ⟨fun r hr ht hk => h.keys r hr ht (hK _ hk), fun d hd ht he => h.events d hd ht (hE _ he)⟩

theorem Foreign.mono (h : Foreign tenant K E o) (hK : ∀ k, K' k → K k) (hE : ∀ e, E' e → E e) :
    Foreign tenant K' E' o := by
  cases o with
  | reserve => exact fun ht hk => h ht (hK _ hk)
  | accept => exact fun ht he => h ht (hE _ he)
  | _ => exact h

theorem New.change (h : New tenant K E s) (ho : Foreign tenant K E o) (hc : Change H s o s') :
    New tenant K E s' := by
  refine ⟨fun r' hr' ht => ?_, fun d' hd' ht => ?_⟩
  · rcases reservation_origin hc r' hr' with ⟨r, hr, hstep⟩ | ⟨tenant', key, inp, d, rfl, rfl⟩
    · have hrt : r.tenant = tenant := by rw [← ht, hstep.1]
      rw [show r'.idemKey = r.idemKey by rw [hstep.1]]
      exact h.keys r hr hrt
    · exact ho ht
  · rcases delivery_origin hc d' hd' with ⟨d, hd, hstep⟩ | ⟨tenant', r, d, rfl, rfl⟩
    · have hdt : d.tenant = tenant := by rw [← ht, hstep.1]
      rw [show d'.eventID = d.eventID by rw [hstep.1]]
      exact h.events d hd hdt
    · exact ho ht

theorem New.run (h : New tenant K E s) (cs : List Call) (hcs : ∀ c ∈ cs, Foreign tenant K E c.op) :
    New tenant K E (Core.Run.run H cs s) :=
  run_invariant (A := Foreign tenant K E) (fun _ _ _ ho h hc => h.change ho hc) cs s hcs h

theorem New.byEvent (h : New tenant K E s) {e : String} (he : E e) :
    Core.Statements.byEvent s tenant e = none :=
  byEvent_none.mpr fun d hd => decide_eq_false fun hx => h.events d hd hx.1 (hx.2 ▸ he)

theorem New.byKey (h : New tenant K E s) {k : String} (hk : K k) :
    Core.Statements.byKey s tenant k = none :=
  byKey_none.mpr fun r hr => decide_eq_false fun hx => h.keys r hr hx.1 (hx.2 ▸ hk)

end New

/-! ### One report, one hold -/

/-- The hold is in the store with the screen and the window that were answered. -/
def Standing (tenant : String) (r : Reservation) (s : Store) : Prop :=
  ∃ row, s.reservations.find? (tenant, r.id) = some row ∧ row.screen = r.screen ∧
    row.created = r.created ∧ row.expires = r.expires

/-- A play right after the hold was made is within its window, and not in the future from `t` on. -/
def Playable (t : Int) (r : Reservation) : Prop := r.created < r.expires ∧ r.created < t + 60000

theorem Standing.run {H : Digest} {tenant : String} {r : Reservation} {s : Store} (h : Standing tenant r s)
    (cs : List Call) : Standing tenant r (Core.Run.run H cs s) := by
  obtain ⟨row, hrow, hs, hc, he⟩ := h
  obtain ⟨row', hrow', hstep, -⟩ := (evolves_run (H := H) cs s).reservations _ row hrow
  exact ⟨row', hrow', by rw [hstep]; exact hs, by rw [hstep]; exact hc, by rw [hstep]; exact he⟩

section Turns

variable {H : Digest} {s : Store} {tenant : String} {kind : Kind} {t : Int} {r : Reservation}

/-- **A report that is accepted under a new event** is evidence of its kind. -/
theorem accept_sent {eventID id : String} {d : AcceptDraw} {fault : Option ℕ} {replay : Bool}
    (hs : Standing tenant r s) (hp : kind ≠ .poison → Playable t r)
    (hnew : Core.Statements.byEvent s tenant eventID = none)
    (h : (acceptCall H tenant (report kind r eventID) d fault s).1 = .ok (id, replay)) :
    Sent kind t tenant r.id id eventID (acceptCall H tenant (report kind r eventID) d fault s).2 := by
  rcases acceptCall_cases H tenant (report kind r eventID) d fault s with hout | hout
  · generalize acceptCall H tenant (report kind r eventID) d fault s = x at h hout
    cases hout with
    | replayed dl hv hk => cases hk.symm.trans hnew
    | made hv hk hf =>
      cases h
      have hrow : Reporting (accepting s (newDelivery H tenant (report kind r eventID) d) d.trace
          (acceptedAudit tenant d)) tenant r.id d.id eventID
          (newDelivery H tenant (report kind r eventID) d) (report kind r eventID) :=
        ⟨Table.find?_put_self _ (newDelivery H tenant (report kind r eventID) d), rfl, rfl, rfl⟩
      unfold Sent
      split_ifs with hk
      · refine ⟨_, _, hrow, ?_, by simp [newDelivery], by simp [newDelivery], by simp [newDelivery]⟩
        rw [hk]
        show (99 : Int) ≠ 1
        omega
      · obtain ⟨row, hfind, hscreen, hcreated, hexpires⟩ := hs
        obtain ⟨hlt, hfuture⟩ := hp hk
        refine ⟨_, _, row, hrow, hfind, ⟨?_, ?_, hscreen, ?_⟩, ?_, by simp [newDelivery]⟩
        · cases kind <;> first | rfl | exact absurd rfl hk
        · show (1000 : Int) ≤ 10000 ∧ (10000 : Int) ≤ 120000
          omega
        · show row.created ≤ r.created + 1 ∧ r.created + 1 ≤ row.expires
          omega
        · show r.created + 1 ≤ t + 60000
          omega
    | _ => cases h
  · rw [hout] at h
    cases h

/-- **A hold that is made under a new key** stands, as it was answered, under a new identifier. -/
theorem reserve_standing {key : String} {inp : ReservationInput} {d : ReserveDraw} {fault : Option ℕ}
    {replay : Bool} (hnew : Core.Statements.byKey s tenant key = none)
    (h : (reserveCall H tenant key inp d fault s).1 = .ok (r, replay)) :
    r = (newReservation H tenant key inp d).toReservation ∧
      Standing tenant r (reserveCall H tenant key inp d fault s).2 ∧
      s.reservations.find? (tenant, r.id) = none := by
  have hcases : ReserveOut H tenant key inp d s (reserveCall H tenant key inp d fault s) ∨ _ :=
    reserveCall_cases fault
  rcases hcases with hout | hout
  · generalize reserveCall H tenant key inp d fault s = x at h hout
    cases hout with
    | replayed c r' hv hc hk => cases hk.symm.trans hnew
    | made c hv hc hk hs hb hck hid ha =>
      cases h
      exact ⟨rfl, ⟨newReservation H tenant key inp d,
        Table.find?_put_self _ (newReservation H tenant key inp d), rfl, rfl, rfl⟩, hid⟩
    | _ => cases h
  · rw [hout] at h
    cases h

/-! ### The loops -/

/-- A report by its event, among those of a list of turns. -/
def Among (ts : List ReportTurn) (E : String → Prop) (e : String) : Prop :=
  (∃ t ∈ ts, t.eventID = e) ∨ E e

theorem reportAll_ok {x : ReportTurn} {ts : List ReportTurn} {s : Store} {ids : List String}
    (h : (reportAll H tenant kind r (x :: ts) s).1 = .ok ids) :
    let a := acceptCall H tenant (report kind r x.eventID) x.draw x.fault (Core.Run.run H x.others s)
    ∃ id replay ids', a.1 = .ok (id, replay) ∧ (reportAll H tenant kind r ts a.2).1 = .ok ids' ∧
      ids = id :: ids' ∧
      (reportAll H tenant kind r (x :: ts) s).2 = (reportAll H tenant kind r ts a.2).2 := by
  intro a
  obtain ⟨⟨id, replay⟩, ha, hf, hs⟩ := andThen_ok h
  obtain ⟨ids', hids, hlast, hs'⟩ := andThen_ok hf
  cases hlast
  exact ⟨id, replay, ids', ha, hids, rfl, hs.trans hs'⟩

/-- The reports are a run. -/
theorem reportAll_run : ∀ (ts : List ReportTurn) (s : Store) (ids : List String),
    (∀ x ∈ ts, ∀ c ∈ x.others, InTime kind t c.op) → (reportAll H tenant kind r ts s).1 = .ok ids →
    ∃ cs, (reportAll H tenant kind r ts s).2 = Core.Run.run H cs s ∧ ∀ c ∈ cs, InTime kind t c.op
  | [], s, _, _, _ => ⟨[], rfl, by simp⟩
  | x :: ts, s, ids, hts, h => by
    obtain ⟨id, replay, ids', -, hrest, -, hs⟩ := reportAll_ok h
    obtain ⟨cs, hrun, hcs⟩ := reportAll_run ts _ ids' (fun y hy => hts y (List.mem_cons_of_mem _ hy)) hrest
    refine ⟨x.others ++ ⟨.accept tenant (report kind r x.eventID) x.draw, x.fault⟩ :: cs, ?_, ?_⟩
    · rw [hs, hrun, run_append, run_cons]
      rfl
    · intro c hc
      rcases List.mem_append.mp hc with hc | hc
      · exact hts x List.mem_cons_self c hc
      · rcases List.mem_cons.mp hc with rfl | hc
        · exact fun _ => trivial
        · exact hcs c hc

theorem acceptCall_new {K E : String → Prop} {p : Receipt} (d : AcceptDraw) (fault : Option ℕ)
    (h : New tenant K E s) (he : ¬ E p.eventID) : New tenant K E (acceptCall H tenant p d fault s).2 :=
  h.change (o := .accept tenant p d) (fun _ => he) ((Op.accept tenant p d).change H fault s)

/-- **The reports of a hold that all are accepted** are evidence, each under its own event. -/
theorem reportAll_sent {K E : String → Prop} (hp : kind ≠ .poison → Playable t r) :
    ∀ (ts : List ReportTurn) (s : Store) (ids : List String), Standing tenant r s → New tenant K (Among ts E) s →
    (ts.map ReportTurn.eventID).Nodup → (∀ x ∈ ts, ¬ E x.eventID) →
    (∀ x ∈ ts, ∀ c ∈ x.others, Foreign tenant K (Among ts E) c.op ∧ InTime kind t c.op) →
    (reportAll H tenant kind r ts s).1 = .ok ids →
    ids.Forall₂ (fun id x => Sent kind t tenant r.id id x.eventID (reportAll H tenant kind r ts s).2) ts ∧
      New tenant K E (reportAll H tenant kind r ts s).2
  | [], s, ids, _, hnew, _, _, _, h => by
    cases h
    exact ⟨.nil, hnew.mono (fun _ hk => hk) fun _ he => Or.inr he⟩
  | x :: ts, s, ids, hs, hnew, hnodup, hE, hothers, h => by
    obtain ⟨hx, hnodup⟩ := List.nodup_cons.mp hnodup
    have hsub : ∀ e, Among ts E e → Among (x :: ts) E e := fun e he =>
      he.imp (fun ⟨y, hy, h⟩ => ⟨y, List.mem_cons_of_mem _ hy, h⟩) id
    have hnew₀ : New tenant K (Among (x :: ts) E) (Core.Run.run H x.others s) :=
      hnew.run _ fun c hc => (hothers x List.mem_cons_self c hc).1
    have hs₀ : Standing tenant r (Core.Run.run H x.others s) := hs.run _
    -- what the report of this turn leaves
    have hfree : ¬ Among ts E x.eventID := by
      rintro (⟨y, hy, he⟩ | he)
      · exact hx (List.mem_map.mpr ⟨y, hy, he⟩)
      · exact hE x List.mem_cons_self he
    have hnew₁ := acceptCall_new (H := H) (p := report kind r x.eventID) x.draw x.fault
      (hnew₀.mono (fun _ hk => hk) hsub) hfree
    have hs₁ : Standing tenant r
        (acceptCall H tenant (report kind r x.eventID) x.draw x.fault (Core.Run.run H x.others s)).2 :=
      hs₀.run [⟨.accept tenant (report kind r x.eventID) x.draw, x.fault⟩]
    have hbyEvent := hnew₀.byEvent (e := x.eventID) (Or.inl ⟨x, List.mem_cons_self, rfl⟩)
    obtain ⟨id, replay, ids', hok, hrest, rfl, hs₂⟩ := reportAll_ok h
    have hfirst := accept_sent hs₀ hp hbyEvent hok
    obtain ⟨hall, hnew₂⟩ := reportAll_sent hp ts _ ids' hs₁ hnew₁ hnodup
      (fun y hy => hE y (List.mem_cons_of_mem _ hy))
      (fun y hy c hc => (hothers y (List.mem_cons_of_mem _ hy) c hc).imp
        (fun hf => hf.mono (fun _ hk => hk) hsub) fun ht => ht) hrest
    obtain ⟨cs, hrun, hcs⟩ := reportAll_run (t := t) ts _ ids'
      (fun y hy c hc => (hothers y (List.mem_cons_of_mem _ hy) c hc).2) hrest
    rw [hs₂]
    refine ⟨.cons ?_ hall, hnew₂⟩
    rw [hrun]
    exact hfirst.run cs hcs

end Turns

theorem exists_of_forall₂ {α β : Type} {R : α → β → Prop} {a : α} :
    ∀ {as : List α} {bs : List β}, as.Forall₂ R bs → a ∈ as → ∃ b ∈ bs, R a b
  | _ :: as, b :: bs, .cons h hs, ha => by
    rcases List.mem_cons.mp ha with rfl | ha
    · exact ⟨b, List.mem_cons_self, h⟩
    · obtain ⟨c, hc, hR⟩ := exists_of_forall₂ hs ha
      exact ⟨c, List.mem_cons_of_mem _ hc, hR⟩

/-- The keys drawn from play `i` on. -/
def keysFrom (turns : ℕ → PlayTurns) (i : ℕ) (k : String) : Prop := ∃ j, i ≤ j ∧ (turns j).hold.key = k

/-- The events drawn from play `i` on. -/
def eventsFrom (turns : ℕ → PlayTurns) (i : ℕ) (e : String) : Prop :=
  ∃ j m, i ≤ j ∧ ((turns j).report m).eventID = e

/-- A call of others that comes between the transactions of play `i`. -/
def Between (turns : ℕ → PlayTurns) (i : ℕ) (c : Call) : Prop :=
  c ∈ (turns i).hold.others ∨ ∃ m, c ∈ ((turns i).report m).others

/-- **What the handler relies on in what it draws**: its keys and its events are distinct, and nobody else
uses them. -/
structure Drawn (tenant : String) (turns : ℕ → PlayTurns) : Prop where
  keys : ∀ i j, (turns i).hold.key = (turns j).hold.key → i = j
  events : ∀ i m j n, ((turns i).report m).eventID = ((turns j).report n).eventID → i = j ∧ m = n
  others : ∀ i c, Between turns i c → Foreign tenant (keysFrom turns 0) (eventsFrom turns 0) c.op

/-- **What it relies on in the clocks as well**: that of a `Process` in between is not before `t`, its own is
not ahead of `t` by a minute and does not go back by a quarter of an hour while a hold is made. -/
structure Fair (tenant : String) (t : Int) (turns : ℕ → PlayTurns) : Prop extends Drawn tenant turns where
  timely : ∀ i c, Between turns i c → Timely t c.op
  clock : ∀ i, let d := (turns i).hold.draw
    d.created < d.later + 15 * 60 * 1000 ∧ d.created < t + 60000

/-- Round `j` of the loop has been filed as `f`. -/
def Filed (kind : Kind) (t : Int) (tenant : String) (turns : ℕ → PlayTurns) (f : Filing) (j : ℕ) (s : Store) :
    Prop :=
  Standing tenant f.hold s ∧
    f.ids.Forall₂ (fun id m => Sent kind t tenant f.hold.id id ((turns j).report m).eventID s)
      (List.range kind.reports)

section Loop

variable {H : Digest} {kind : Kind} {t : Int} {tenant : String} {turns : ℕ → PlayTurns} {s : Store}

theorem Filed.run {f : Filing} {j : ℕ} (h : Filed kind t tenant turns f j s) (cs : List Call)
    (hcs : ∀ c ∈ cs, InTime kind t c.op) : Filed kind t tenant turns f j (Core.Run.run H cs s) :=
  ⟨h.1.run cs, h.2.imp fun _ _ hs => hs.run cs hcs⟩

theorem keysFrom_zero {i : ℕ} (k : String) (h : keysFrom turns i k) : keysFrom turns 0 k := by
  obtain ⟨j, -, hk⟩ := h
  exact ⟨j, Nat.zero_le j, hk⟩

theorem eventsFrom_zero {i : ℕ} (e : String) (h : eventsFrom turns i e) : eventsFrom turns 0 e := by
  obtain ⟨j, m, -, he⟩ := h
  exact ⟨j, m, Nat.zero_le j, he⟩

/-- The deliveries of a filing report its hold. -/
theorem Filed.names {f : Filing} {j : ℕ} (h : Filed kind t tenant turns f j s) {id : String} (hid : id ∈ f.ids) :
    ∃ d, s.deliveries.find? (tenant, id) = some d ∧ d.names f.hold.id = true := by
  obtain ⟨m, -, hsent⟩ := exists_of_forall₂ h.2 hid
  exact hsent.names

theorem foreign_between (hdrawn : Drawn tenant turns) (hfair : kind ≠ .poison → Fair tenant t turns) {i : ℕ}
    {c : Call} (h : Between turns i c) :
    Foreign tenant (keysFrom turns 0) (eventsFrom turns 0) c.op ∧ InTime kind t c.op :=
  ⟨hdrawn.others i c h, fun hk => (hfair hk).timely i c h⟩

/-- After the `Reserve` of play `i` the keys of the later plays are new. -/
theorem reserve_new (hdrawn : Drawn tenant turns) {i : ℕ} (fault : Option ℕ)
    (h : New tenant (keysFrom turns i) (eventsFrom turns i) s) :
    New tenant (keysFrom turns (i + 1)) (eventsFrom turns i)
      (reserveCall H tenant (turns i).hold.key (playInput i) (turns i).hold.draw fault s).2 := by
  have hlater : ∀ k, keysFrom turns (i + 1) k → keysFrom turns i k := by
    rintro k ⟨j, hj, hk⟩
    exact ⟨j, by omega, hk⟩
  refine (h.mono hlater fun _ he => he).change
    (o := .reserve tenant (turns i).hold.key (playInput i) (turns i).hold.draw) ?_
    ((Op.reserve tenant (turns i).hold.key (playInput i) (turns i).hold.draw).change H fault s)
  rintro - ⟨j, hj, hk⟩
  have hij := hdrawn.keys _ _ hk
  omega

theorem mem_reports {n i : ℕ} {x : ReportTurn} (h : x ∈ (List.range n).map (turns i).report) :
    ∃ m, (turns i).report m = x := by
  obtain ⟨m, -, hm⟩ := List.mem_map.mp h
  exact ⟨m, hm⟩

/-- The events of the reports of play `i`, and of those of the later plays. -/
theorem eventsFrom_of_among {n i : ℕ} (e : String)
    (h : Among ((List.range n).map (turns i).report) (eventsFrom turns (i + 1)) e) : eventsFrom turns i e := by
  rcases h with ⟨x, hx, rfl⟩ | ⟨j, m, hj, he⟩
  · obtain ⟨m, rfl⟩ := mem_reports hx
    exact ⟨i, m, le_rfl, rfl⟩
  · exact ⟨j, m, by omega, he⟩

theorem nodup_events (hdrawn : Drawn tenant turns) (n i : ℕ) :
    (((List.range n).map (turns i).report).map ReportTurn.eventID).Nodup := by
  rw [List.map_map]
  refine List.Nodup.map (fun a b hab => ?_) List.nodup_range
  exact (hdrawn.events i a i b hab).2

theorem not_later (hdrawn : Drawn tenant turns) {n i : ℕ} {x : ReportTurn}
    (hx : x ∈ (List.range n).map (turns i).report) : ¬ eventsFrom turns (i + 1) x.eventID := by
  obtain ⟨m, rfl⟩ := mem_reports hx
  rintro ⟨j, k, hj, he⟩
  have hij := (hdrawn.events j k i m he).1
  omega

/-- **One round of the loop** files a new hold. -/
theorem playOne_filed (hdrawn : Drawn tenant turns) (hfair : kind ≠ .poison → Fair tenant t turns) {i : ℕ}
    {f : Filing} (hnew : New tenant (keysFrom turns i) (eventsFrom turns i) s)
    (h : (playOne H tenant kind i (turns i) s).1 = .ok f) :
    let s' := (playOne H tenant kind i (turns i) s).2
    Filed kind t tenant turns f i s' ∧ New tenant (keysFrom turns (i + 1)) (eventsFrom turns (i + 1)) s' ∧
      (∀ r, Standing tenant r s → r.id ≠ f.hold.id) ∧
      ∃ cs, s' = Core.Run.run H cs s ∧ ∀ c ∈ cs, InTime kind t c.op := by
  intro s'
  obtain ⟨⟨r, replay⟩, hhold, hf, hs⟩ := andThen_ok h
  obtain ⟨ids, hids, hlast, hs'⟩ := andThen_ok hf
  cases hlast
  have hs' : s' = _ := hs.trans hs'
  rw [hs']
  have hothers : ∀ c ∈ (turns i).hold.others, _ := fun c hc =>
    foreign_between hdrawn hfair (i := i) (Or.inl hc)
  have hreports : ∀ x ∈ (List.range kind.reports).map (turns i).report, ∀ c ∈ x.others,
      Foreign tenant (keysFrom turns 0) (eventsFrom turns 0) c.op ∧ InTime kind t c.op := by
    intro x hx c hc
    obtain ⟨m, rfl⟩ := mem_reports hx
    exact foreign_between hdrawn hfair (i := i) (Or.inr ⟨m, hc⟩)
  -- the `Reserve`, under a key that is new
  have hnew₀ : New tenant (keysFrom turns i) (eventsFrom turns i)
      (Core.Run.run H (turns i).hold.others s) :=
    hnew.run _ fun c hc => (hothers c hc).1.mono keysFrom_zero eventsFrom_zero
  obtain ⟨hr, hstand, habsent⟩ := reserve_standing (hnew₀.byKey ⟨i, le_rfl, rfl⟩) hhold
  have hplay : kind ≠ .poison → Playable t r := fun hk => by
    rw [hr]
    exact (hfair hk).clock i
  -- the reports, each under an event that is new
  have hnew₁ := (reserve_new (H := H) hdrawn (turns i).hold.fault hnew₀).mono (fun _ hk => hk)
    (eventsFrom_of_among (n := kind.reports))
  obtain ⟨hsent, hnew₂⟩ := reportAll_sent hplay _ _ ids hstand hnew₁ (nodup_events hdrawn kind.reports i)
    (fun x hx => not_later hdrawn hx)
    (fun x hx c hc => (hreports x hx c hc).imp_left fun hforeign => hforeign.mono keysFrom_zero
      fun e he => eventsFrom_zero e (eventsFrom_of_among e he)) hids
  obtain ⟨cs, hrun, hcs⟩ := reportAll_run (t := t) _ _ ids (fun x hx c hc => (hreports x hx c hc).2) hids
  refine ⟨⟨?_, List.forall₂_map_right_iff.mp hsent⟩, hnew₂, fun x hx hid => ?_, (turns i).hold.others ++
    ⟨.reserve tenant (turns i).hold.key (playInput i) (turns i).hold.draw, (turns i).hold.fault⟩ :: cs, ?_, ?_⟩
  · rw [hrun]
    exact hstand.run cs
  · -- a hold that stands keeps its identifier, and this one's was free
    obtain ⟨row, hrow, -⟩ := hx.run (H := H) (turns i).hold.others
    rw [hid] at hrow
    cases hrow.symm.trans habsent
  · rw [hrun, run_append, run_cons]
    rfl
  · intro c hc
    rcases List.mem_append.mp hc with hc | hc
    · exact (hothers c hc).2
    · rcases List.mem_cons.mp hc with rfl | hc
      · exact fun _ => trivial
      · exact hcs c hc

/-- **The loop** files distinct holds, none of which stood before. -/
theorem playAll_filed (hdrawn : Drawn tenant turns) (hfair : kind ≠ .poison → Fair tenant t turns) :
    ∀ (n i : ℕ) (s : Store) (fs : List Filing), New tenant (keysFrom turns i) (eventsFrom turns i) s →
    (playAll H tenant kind turns n i s).1 = .ok fs →
    fs.Forall₂ (fun f j => Filed kind t tenant turns f j (playAll H tenant kind turns n i s).2)
        (List.range' i n) ∧
      (fs.map fun f => f.hold.id).Nodup ∧ (∀ r, Standing tenant r s → ∀ f ∈ fs, r.id ≠ f.hold.id) ∧
      ∃ cs, (playAll H tenant kind turns n i s).2 = Core.Run.run H cs s ∧ ∀ c ∈ cs, InTime kind t c.op
  | 0, i, s, fs, _, h => by
    cases h
    exact ⟨.nil, List.nodup_nil, fun _ _ _ hf => absurd hf List.not_mem_nil, [], rfl, by simp⟩
  | n + 1, i, s, fs, hnew, h => by
    obtain ⟨f, hf, hrest, hs⟩ := andThen_ok h
    obtain ⟨fs', hfs, hlast, hs'⟩ := andThen_ok hrest
    cases hlast
    obtain ⟨hfiled, hnew₁, hfirst, cs, hrun, hcs⟩ := playOne_filed hdrawn hfair hnew hf
    obtain ⟨hall, hnodup, hlater, cs', hrun', hcs'⟩ := playAll_filed hdrawn hfair n (i + 1) _ fs' hnew₁ hfs
    have hend : (playAll H tenant kind turns (n + 1) i s).2 = _ := hs.trans hs'
    rw [hend]
    refine ⟨.cons ?_ hall, List.nodup_cons.mpr ⟨fun hmem => ?_, hnodup⟩, fun r hr g hg => ?_, cs ++ cs', ?_,
      fun c hc => ?_⟩
    · rw [hrun']
      exact hfiled.run cs' hcs'
    · obtain ⟨g, hg, hid⟩ := List.mem_map.mp hmem
      exact hlater f.hold hfiled.1 g hg hid.symm
    · rcases List.mem_cons.mp hg with rfl | hg
      · exact hfirst r hr
      · refine hlater r ?_ g hg
        rw [hrun]
        exact hr.run cs
    · rw [run_append, ← hrun]
      exact hrun'
    · exact (List.mem_append.mp hc).elim (hcs c) (hcs' c)

/-- What the handler has done when it answers with deliveries. -/
theorem scenario_filed {turns : Turns} {text : String} {c : Controls} {message : String}
    {ids : List String} (hchoose : choose text = .plays kind)
    (h : (scenario H tenant turns (.kind text) c s).1 = .filed message ids) :
    ∃ fs, (playAll H tenant kind turns.plays kind.plays 0 s).1 = .ok fs ∧ ids = fs.flatMap Filing.ids ∧
      (scenario H tenant turns (.kind text) c s).2.2 =
        (playAll H tenant kind turns.plays kind.plays 0 s).2 := by
  unfold scenario at h ⊢
  simp only [hchoose] at h ⊢
  generalize playAll H tenant kind turns.plays kind.plays 0 s = x at h ⊢
  rcases x with ⟨e | fs, s'⟩
  · cases e <;> cases h
  · cases h
    exact ⟨fs, rfl, rfl, rfl⟩

/-- The handler arms the fault of its scenario. -/
theorem scenario_controls {turns : Turns} {text : String} {c : Controls} (hchoose : choose text = .plays kind) :
    (scenario H tenant turns (.kind text) c s).2.1 = kind.arm c := by
  unfold scenario
  simp only [hchoose]
  split <;> rfl

/-- **The handler has answered with deliveries**: every round of the loop has been filed, by a run. -/
theorem scenario_left {turns : Turns} {text : String} {c : Controls} {message : String}
    {ids : List String} (hchoose : choose text = .plays kind) (hdrawn : Drawn tenant turns.plays)
    (hfair : kind ≠ .poison → Fair tenant t turns.plays)
    (hnew : New tenant (keysFrom turns.plays 0) (eventsFrom turns.plays 0) s)
    (h : (scenario H tenant turns (.kind text) c s).1 = .filed message ids) :
    let s' := (scenario H tenant turns (.kind text) c s).2.2
    ∃ (fs : List Filing) (cs : List Call), (playAll H tenant kind turns.plays kind.plays 0 s).1 = .ok fs ∧
      ids = fs.flatMap Filing.ids ∧ (fs.map fun f => f.hold.id).Nodup ∧ s' = Core.Run.run H cs s ∧
      fs.Forall₂ (fun f j => Filed kind t tenant turns.plays f j s') (List.range' 0 kind.plays) := by
  obtain ⟨fs, hok, hids, hs⟩ := scenario_filed hchoose h
  obtain ⟨hfs, hnodup, -, cs, hrun, -⟩ := playAll_filed hdrawn hfair kind.plays 0 _ fs hnew hok
  rw [hs]
  exact ⟨fs, cs, hok, hids, hnodup, hrun, hfs⟩

end Loop

/-! ### What the scenarios promise -/

/-- The delivery is settled. -/
def settledID (tenant : String) (s : Store) (id : String) : Bool :=
  (s.deliveries.find? (tenant, id)).any fun d => d.status = .settled

/-- Every report of the hold is decided, and none has failed. -/
def Decided (tenant : String) (f : Filing) (s : Store) : Prop :=
  ∀ id ∈ f.ids, ∃ d, s.deliveries.find? (tenant, id) = some d ∧ d.status ≠ .accepted ∧ d.status ≠ .failed

/-- **The hold is reconciled**: it is settled, its reports are settled or duplicates, one delivery has
settled it, and it is one of them unless somebody else has reported the hold. -/
structure Reconciled (tenant : String) (f : Filing) (s : Store) : Prop where
  hold : ∃ r, s.reservations.find? (tenant, f.hold.id) = some r ∧ r.state = .settled
  reports : ∀ id ∈ f.ids, ∃ d, s.deliveries.find? (tenant, id) = some d ∧
    (d.status = .settled ∨ d.status = .duplicate)
  once : s.deliveries.count (settles (tenant, f.hold.id)) = 1
  own : (∀ d ∈ s.deliveries, d.tenant = tenant → d.names f.hold.id → d.id ∈ f.ids) →
    f.ids.countP (settledID tenant s) = 1

theorem countP_one {α : Type} [DecidableEq α] {p : α → Bool} {l : List α} {a : α} (hl : l.Nodup)
    (ha : a ∈ l) (hp : p a = true) (huniq : ∀ b ∈ l, p b = true → b = a) : l.countP p = 1 := by
  have hcongr : l.countP p = l.countP (· == a) := by
    refine List.countP_congr fun b hb => ?_
    rw [beq_iff_eq]
    exact ⟨huniq b hb, fun h => h ▸ hp⟩
  rw [hcongr]
  exact List.count_eq_one_of_mem hl ha

theorem nodup_of_forall₂ {α β : Type} {R : α → β → Prop} (hR : ∀ a b c, R a b → R a c → b = c) :
    ∀ {as : List α} {bs : List β}, as.Forall₂ R bs → bs.Nodup → as.Nodup
  | _, _, .nil, _ => List.nodup_nil
  | a :: as, b :: bs, .cons h hs, hn => by
    obtain ⟨hb, hn⟩ := List.nodup_cons.mp hn
    refine List.nodup_cons.mpr ⟨fun ha => hb ?_, nodup_of_forall₂ hR hs hn⟩
    obtain ⟨c, hc, hac⟩ := exists_of_forall₂ hs ha
    rw [hR _ _ _ h hac]
    exact hc

section Promise

variable {H : Digest} {kind : Kind} {t : Int} {tenant : String} {turns : ℕ → PlayTurns} {s : Store}

/-- **Good evidence on a hold that was not released reconciles it**, once it is decided. -/
theorem reconciled_of_filed (hkind : kind ≠ .poison) (hpos : 0 < kind.reports) (hdrawn : Drawn tenant turns)
    (hc : ChargedOnce s) {f : Filing} {j : ℕ} (hf : Filed kind t tenant turns f j s)
    (hrel : ∀ r, s.reservations.find? (tenant, f.hold.id) = some r → r.state ≠ .released)
    (hdec : Decided tenant f s) : Reconciled tenant f s := by
  obtain ⟨-, hids⟩ := hf
  have hgood : ∀ id ∈ f.ids, ∃ d p r, s.deliveries.find? (tenant, id) = some d ∧ d.payload = .json p ∧
      p.reservationID = f.hold.id ∧ s.reservations.find? (tenant, f.hold.id) = some r ∧
      (d.status = .settled ∨ d.status = .duplicate) := by
    intro id hid
    obtain ⟨m, -, hsent⟩ := exists_of_forall₂ hids hid
    unfold Sent at hsent
    rw [if_neg hkind] at hsent
    obtain ⟨d, p, r, hrep, hr, -, -, hq⟩ := hsent
    obtain ⟨d', hd', hacc, hfail⟩ := hdec _ hid
    cases hrep.row.symm.trans hd'
    refine ⟨d, p, r, hrep.row, hrep.payload, hrep.hold, hr, ?_⟩
    cases hst : d.status with
    | accepted => exact absurd hst hacc
    | settled => exact Or.inl rfl
    | duplicate => exact Or.inr rfl
    | quarantined => exact absurd (hq hst) (hrel r hr)
    | failed => exact absurd hst hfail
  -- a report that counts has a settled hold behind it
  have hsettled : ∃ r, s.reservations.find? (tenant, f.hold.id) = some r ∧ r.state = .settled := by
    have hlen : 0 < f.ids.length := by rw [hids.length_eq, List.length_range]; exact hpos
    obtain ⟨d, p, r, hd, hp, hpid, hr, hst⟩ := hgood _ (List.getElem_mem hlen)
    have hpk : d.pk = (tenant, f.ids[0]) := Table.find?_key hd
    have hdt : d.tenant = tenant := congrArg Prod.fst hpk
    obtain ⟨p', r', hp', hr', -, hs⟩ := hc.backed d (Table.mem_of_find? hd) hst
    cases hp.symm.trans hp'
    rw [hdt, hpid] at hr'
    exact ⟨r', hr', hs⟩
  have honce : s.deliveries.count (settles (tenant, f.hold.id)) = 1 := by
    obtain ⟨r, hr, hs⟩ := hsettled
    rw [hc.once, isSettled_of_find hr, hs]
    rfl
  refine ⟨hsettled, fun id hid => ?_, honce, fun hown => ?_⟩
  · obtain ⟨d, -, -, hd, -, -, -, hst⟩ := hgood id hid
    exact ⟨d, hd, hst⟩
  · obtain ⟨d, ⟨hd, hset⟩, huniq⟩ := Table.existsUnique_of_count honce
    obtain ⟨hdt, hst, hname⟩ := of_decide_eq_true hset
    have hrow : s.deliveries.find? (tenant, d.id) = some d := by
      have hfind := Table.find?_of_mem hd
      rw [show d.pk = (tenant, d.id) from Prod.ext hdt rfl] at hfind
      exact hfind
    have hnodup : f.ids.Nodup := by
      refine nodup_of_forall₂ (fun id m n h h' => ?_) hids List.nodup_range
      exact (hdrawn.events j m j n (h.event h')).2
    refine countP_one hnodup (hown d hd hdt hname) ?_ fun id hid hs => ?_
    · unfold settledID
      rw [hrow]
      exact decide_eq_true hst
    · obtain ⟨x, p, -, hx, hp, hpid, -, -⟩ := hgood id hid
      unfold settledID at hs
      rw [hx] at hs
      have hpk : x.pk = (tenant, id) := Table.find?_key hx
      have hxs : settles (tenant, f.hold.id) x = true :=
        decide_eq_true ⟨congrArg Prod.fst hpk, of_decide_eq_true hs, names_iff.mpr ⟨p, hp, hpid⟩⟩
      rw [← huniq x ⟨Table.mem_of_find? hx, hxs⟩]
      exact (congrArg Prod.snd hpk).symm

theorem reports_pos (kind : Kind) : 0 < kind.reports := by cases kind <;> decide

/-- The deliveries of all rounds are distinct. -/
theorem nodup_ids (hdrawn : Drawn tenant turns) {fs : List Filing} {n : ℕ}
    (h : fs.Forall₂ (fun f j => Filed kind t tenant turns f j s) (List.range' 0 n)) :
    (fs.flatMap Filing.ids).Nodup := by
  let R : String → ℕ × ℕ → Prop := fun id x =>
    ∃ hold, Sent kind t tenant hold id ((turns x.1).report x.2).eventID s
  have hall : (fs.flatMap Filing.ids).Forall₂ R
      ((List.range' 0 n).flatMap fun j => (List.range kind.reports).map fun m => (j, m)) := by
    refine List.rel_flatMap h fun f j hf => ?_
    exact List.forall₂_map_right_iff.mpr (hf.2.imp fun _ _ hs => ⟨_, hs⟩)
  refine nodup_of_forall₂ (R := R) ?_ hall ?_
  · rintro id ⟨i, m⟩ ⟨j, n⟩ ⟨hold, hs⟩ ⟨hold', hs'⟩
    obtain ⟨hij, hmn⟩ := hdrawn.events i m j n (hs.event hs')
    exact Prod.ext hij hmn
  · refine List.nodup_flatMap.mpr ⟨fun j _ => ?_, ?_⟩
    · exact List.Nodup.map (fun a b hab => congrArg Prod.snd hab) List.nodup_range
    · refine (List.nodup_range' : (List.range' 0 n).Nodup).imp fun {i j} hij => ?_
      refine List.disjoint_left.mpr fun x hx hx' => ?_
      obtain ⟨m, -, rfl⟩ := List.mem_map.mp hx
      obtain ⟨n, -, hx⟩ := List.mem_map.mp hx'
      exact hij (congrArg Prod.fst hx).symm

end Promise

/-! ### The results -/

/-- **Every scenario but `poison` reconciles, under any interleaving.** The handler has answered with
deliveries; whatever other calls came between its transactions and whatever calls came after, the holds of
its loop are distinct, each is the one its deliveries name, and each that was not released is reconciled as
soon as its reports are decided and none has failed. -/
theorem scenario_reconciles (H : Digest) (es : List Localdemo.Reset.Event) (tenant : String) (turns : Turns)
    (c : Controls) (text : String) (kind : Kind) (hchoose : choose text = .plays kind)
    (hkind : kind ≠ .poison) {t : Int} (hfair : Fair tenant t turns.plays)
    (hnew : New tenant (keysFrom turns.plays 0) (eventsFrom turns.plays 0)
      (runEvents H es Db.empty).core) (message : String) (ids : List String)
    (h : (scenario H tenant turns (.kind text) c (runEvents H es Db.empty).core).1 = .filed message ids)
    (after : List Call) (hafter : ∀ x ∈ after, Timely t x.op) :
    let s := run H after (scenario H tenant turns (.kind text) c (runEvents H es Db.empty).core).2.2
    ids.Nodup ∧ ∃ fs : List Filing,
      (playAll H tenant kind turns.plays kind.plays 0 (runEvents H es Db.empty).core).1 = .ok fs ∧
      fs.length = kind.plays ∧ (fs.map fun f => f.hold.id).Nodup ∧ ids = fs.flatMap Filing.ids ∧
      ∀ f ∈ fs, f.ids.length = kind.reports ∧
        (∀ id ∈ f.ids, ∃ d, s.deliveries.find? (tenant, id) = some d ∧ d.names f.hold.id = true) ∧
        ∃ r, s.reservations.find? (tenant, f.hold.id) = some r ∧
          (r.state ≠ .released → Decided tenant f s → Reconciled tenant f s) := by
  intro s
  obtain ⟨fs, cs, hok, rfl, hholds, hrun, hfs⟩ := scenario_left hchoose hfair.toDrawn (fun _ => hfair) hnew h
  have hcharged : ChargedOnce s := by
    show ChargedOnce (run H after _)
    rw [hrun]
    exact ((charged_runEvents H es).run cs).run after
  have hfs' : fs.Forall₂ (fun f j => Filed kind t tenant turns.plays f j s)
      (List.range' 0 kind.plays) := hfs.imp fun f j hf => hf.run after fun x hx _ => hafter x hx
  refine ⟨nodup_ids hfair.toDrawn hfs', fs, hok, ?_, hholds, rfl, fun f hf => ?_⟩
  · rw [hfs'.length_eq, List.length_range']
  obtain ⟨j, -, hfiled⟩ := exists_of_forall₂ hfs' hf
  obtain ⟨r, hr, -⟩ := hfiled.1
  refine ⟨by rw [hfiled.2.length_eq, List.length_range], fun id hid => hfiled.names hid, r, hr,
    fun hrel hdec => ?_⟩
  refine reconciled_of_filed hkind (reports_pos kind) hfair.toDrawn hcharged hfiled (fun r' hr' => ?_) hdec
  cases hr.symm.trans hr'
  exact hrel

/-! ### The budget race -/

/-- The calls of the race, with those of others in between. -/
def raceCalls (tenant : String) (ts : List HoldTurn) : List Call :=
  ts.flatMap fun t => t.others ++ [⟨.reserve tenant t.key raceInput t.draw, t.fault⟩]

section Race

variable {H : Digest} {tenant : String}

theorem won_quiet {k : Key2} : ∀ (cs ds : List Call) (s : Store), (∀ c ∈ cs, bids k c.op = false) →
    won H k (cs ++ ds) s = won H k ds (run H cs s)
  | [], _, _, _ => rfl
  | c :: cs, ds, s, h => by
    have hc : wins H k s c = false := wins_of_not_bids (h c List.mem_cons_self)
    show (if wins H k s c then 1 else 0) + won H k (cs ++ ds) (c.step H s) = _
    rw [hc, won_quiet cs ds _ fun d hd => h d (List.mem_cons_of_mem _ hd)]
    simp [run_cons]

/-- The race counts the calls that succeed, and those that do not. -/
theorem race_won : ∀ (ts : List HoldTurn) (n : ℕ × ℕ) (s : Store),
    (∀ t ∈ ts, ∀ c ∈ t.others, bids (tenant, raceInput.campaignID) c.op = false) →
    let k := (tenant, raceInput.campaignID)
    (race H tenant ts n s).1.1 = n.1 + won H k (raceCalls tenant ts) s ∧
      (race H tenant ts n s).1.1 + (race H tenant ts n s).1.2 = n.1 + n.2 + ts.length
  | [], n, s, _ => ⟨rfl, rfl⟩
  | t :: ts, (a, b), s, h => by
    intro k
    have hrest := fun n s => race_won ts n s fun x hx => h x (List.mem_cons_of_mem _ hx)
    have hcalls : raceCalls tenant (t :: ts) =
        t.others ++ ⟨.reserve tenant t.key raceInput t.draw, t.fault⟩ :: raceCalls tenant ts := by
      show t.others ++ [_] ++ raceCalls tenant ts = _
      rw [List.append_assoc]
      rfl
    rw [hcalls, won_quiet _ _ s (h t List.mem_cons_self), List.length_cons]
    set s₀ := run H t.others s with hs₀
    have hwin : wins H k s₀ ⟨.reserve tenant t.key raceInput t.draw, t.fault⟩ =
        (reserveCall H tenant t.key raceInput t.draw t.fault s₀).1.isOk := by
      show (decide (_ = k) && _) = _
      rw [decide_eq_true rfl, Bool.true_and]
    show _ = a + ((if wins H k s₀ ⟨.reserve tenant t.key raceInput t.draw, t.fault⟩ then 1 else 0) +
      won H k (raceCalls tenant ts) (reserveCall H tenant t.key raceInput t.draw t.fault s₀).2) ∧ _
    rw [hwin]
    unfold race
    rw [← hs₀]
    generalize reserveCall H tenant t.key raceInput t.draw t.fault s₀ = x
    rcases x with ⟨e | v, s₁⟩
    · obtain ⟨hwon, hsum⟩ := hrest (a, b + 1) s₁
      simp only [Except.isOk, Except.toBool, Bool.false_eq_true, if_false, Nat.zero_add]
      dsimp only at hsum
      exact ⟨hwon, by omega⟩
    · obtain ⟨hwon, hsum⟩ := hrest (a + 1, b) s₁
      simp only [Except.isOk, Except.toBool, if_true]
      dsimp only at hwon hsum
      exact ⟨hwon.trans (Nat.add_assoc _ _ _), by omega⟩

/-- Each goroutine bids once. -/
theorem countP_raceCalls : ∀ ts : List HoldTurn,
    (∀ t ∈ ts, ∀ x ∈ t.others, bids (tenant, raceInput.campaignID) x.op = false) →
    (raceCalls tenant ts).countP (fun x => bids (tenant, raceInput.campaignID) x.op) = ts.length
  | [], _ => rfl
  | t :: ts, h => by
    have hzero : t.others.countP (fun x => bids (tenant, raceInput.campaignID) x.op) = 0 :=
      List.countP_eq_zero.mpr fun x hx => by rw [h t List.mem_cons_self x hx]; nofun
    have hone : bids (tenant, raceInput.campaignID) (.reserve tenant t.key raceInput t.draw) = true :=
      decide_eq_true rfl
    have hrest := countP_raceCalls ts fun x hx => h x (List.mem_cons_of_mem _ hx)
    show (t.others ++ [_] ++ raceCalls tenant ts).countP _ = _
    rw [List.countP_append, List.countP_append, hzero, hrest, List.countP_singleton, if_pos hone,
      List.length_cons]
    omega

/-- **The race admits what the budget covers**: of the 32 bids as many are accepted as fit what is left of the
campaign's budget, and the others are rejected, in whatever order their transactions run, from any state and
with whatever calls of others in between that leave the campaign alone. -/
theorem race_exact (H : Digest) (es : List Localdemo.Reset.Event) (tenant : String) (turns : Turns)
    (c : Controls) (row : CampaignRow)
    (hrow : (runEvents H es Db.empty).core.campaigns.find? (tenant, raceInput.campaignID) = some row)
    (hquiet : ∀ i, ∀ x ∈ (turns.race i).others, bids (tenant, raceInput.campaignID) x.op = false)
    (hcontest : Contest H (tenant, raceInput.campaignID) raceInput.cost
      (raceCalls tenant ((List.range 32).map turns.race)) (runEvents H es Db.empty).core) :
    let n := min 32 (available row / 10000000).toNat
    (scenario H tenant turns (.kind "budget-race") c (runEvents H es Db.empty).core).1 =
      .raced raceMessage n (32 - n) := by
  intro n
  have hb := balanced_runEvents H es
  set s := (runEvents H es Db.empty).core
  have hothers : ∀ t ∈ (List.range 32).map turns.race, ∀ x ∈ t.others,
      bids (tenant, raceInput.campaignID) x.op = false := by
    intro t ht
    obtain ⟨i, -, rfl⟩ := List.mem_map.mp ht
    exact hquiet i
  obtain ⟨hwon, hsum⟩ := race_won (H := H) ((List.range 32).map turns.race) (0, 0) s hothers
  rw [won_eq _ s row hb hrow hcontest] at hwon
  rw [countP_raceCalls _ hothers] at hwon
  rw [List.length_map, List.length_range] at hwon hsum
  have hcost : raceInput.cost = 10000000 := rfl
  rw [hcost] at hwon
  show Reply.raced raceMessage (race H tenant ((List.range 32).map turns.race) (0, 0) s).1.1
    (race H tenant ((List.range 32).map turns.race) (0, 0) s).1.2 = _
  have hfirst : (race H tenant ((List.range 32).map turns.race) (0, 0) s).1.1 = n := by
    rw [hwon]
    exact Nat.zero_add _
  have hsecond : (race H tenant ((List.range 32).map turns.race) (0, 0) s).1.2 = 32 - n := by
    dsimp only at hsum
    omega
  rw [hfirst, hsecond]

end Race

/-- No fault is armed. -/
def calm : Controls := ⟨false, 0, false, 0, none⟩

def seededDemo : List Localdemo.Reset.Event := [.call ⟨.seed "demo", none⟩]

/-- What goroutine `i` of a race draws. -/
def bidder (i : ℕ) : String := String.ofList [Nat.digitChar (i / 8), Nat.digitChar (i % 8)]

/-- A race on a fresh demo; somebody else reserves on another campaign in between. -/
def freshRace : Turns where
  race i := ⟨if i = 5 then [⟨.reserve "demo" "other" ⟨"cmp-cascade", "sea-01", 10000⟩
    ⟨"other", 0, 0, ⟨"other", 0⟩⟩, none⟩] else [], bidder i, ⟨bidder i, 0, 0, ⟨bidder i, 0⟩⟩, none⟩
  plays _ := ⟨⟨[], "", ⟨"", 0, 0, ⟨"", 0⟩⟩, none⟩, fun _ => ⟨[], "", ⟨"", 0, [], ⟨"", 0⟩⟩, none⟩⟩

theorem race_exact_freshRace :
    (scenario spelled "demo" freshRace (.kind "budget-race") calm
      (runEvents spelled seededDemo Db.empty).core).1 = .raced raceMessage 12 20 := by
  have hrow : (runEvents spelled seededDemo Db.empty).core.campaigns.find? ("demo", raceInput.campaignID) =
      some ⟨⟨"cmp-solstice", "Solstice / Find your outside", 120000000, 0, 0⟩, "demo"⟩ := by decide +kernel
  have hquiet : ∀ i, ∀ x ∈ (freshRace.race i).others, bids ("demo", raceInput.campaignID) x.op = false := by
    intro i x hx
    change x ∈ (if i = 5 then _ else _) at hx
    split_ifs at hx
    · rw [List.mem_singleton.mp hx]
      decide
    · cases hx
  have hcontest : Contest spelled ("demo", raceInput.campaignID) raceInput.cost
      (raceCalls "demo" ((List.range 32).map freshRace.race)) (runEvents spelled seededDemo Db.empty).core := by
    decide +kernel
  exact (race_exact spelled seededDemo "demo" freshRace calm _ hrow hquiet hcontest).trans (by decide)

/-! ### A run of the lab -/

/-- An identifier for report `m` of play `i`. -/
def named (i m : ℕ) : String := String.ofList (List.replicate i 'a' ++ 'b' :: List.replicate m 'c')

theorem named_injective {i m j n : ℕ} (h : named i m = named j n) : i = j ∧ m = n := by
  have hl : List.replicate i 'a' ++ 'b' :: List.replicate m 'c' =
      List.replicate j 'a' ++ 'b' :: List.replicate n 'c' := String.ofList_injective h
  have ha := congrArg (List.count 'a') hl
  have hc := congrArg (List.count 'c') hl
  simp [List.count_append, List.count_replicate] at ha hc
  exact ⟨ha, hc⟩

/-- The first receipt of a play is processed before the second is reported. -/
def earlyBird : Turns where
  race _ := ⟨[], "", ⟨"", 0, 0, ⟨"", 0⟩⟩, none⟩
  plays i := ⟨⟨[], named i 0, ⟨"hold", 0, 0, ⟨"h" ++ named i 0, 0⟩⟩, none⟩, fun m =>
    ⟨if m = 1 then [⟨.process "demo" (named i 0) ⟨0, ⟨"p" ++ named i 0, 0⟩⟩, none⟩] else [], named i m,
      ⟨named i m, 0, [], ⟨"d" ++ named i m, 0⟩⟩, none⟩⟩

/-- The other receipts are processed, the last one first. -/
def lateBirds : List Call :=
  [4, 3, 2, 1].map fun m => ⟨.process "demo" (named 0 m) ⟨0, ⟨"p" ++ named 0 m, 0⟩⟩, none⟩

/-- Only the first receipt's `Process` comes in between. -/
theorem between_earlyBird {i : ℕ} {c : Call} (hc : Between earlyBird.plays i c) :
    c.op = .process "demo" (named i 0) ⟨0, ⟨"p" ++ named i 0, 0⟩⟩ := by
  rcases hc with hc | ⟨m, hc⟩
  · cases hc
  · change c ∈ (if m = 1 then _ else _) at hc
    split_ifs at hc
    · rw [List.mem_singleton.mp hc]
    · cases hc

theorem drawn_earlyBird : Drawn "demo" earlyBird.plays where
  keys _ _ h := (named_injective h).1
  events _ _ _ _ h := named_injective h
  others i c hc := by
    rw [between_earlyBird hc]
    trivial

theorem fair_earlyBird : Fair "demo" 0 earlyBird.plays where
  toDrawn := drawn_earlyBird
  timely i c hc := by
    rw [between_earlyBird hc]
    exact le_refl (0 : Int)
  clock i := by
    show (0 : Int) < 0 + 15 * 60 * 1000 ∧ (0 : Int) < 0 + 60000
    omega

theorem new_seededDemo (H : Digest) (K E : String → Prop) :
    New "demo" K E (runEvents H seededDemo Db.empty).core := by
  have hr : (runEvents H seededDemo Db.empty).core.reservations = .empty := by
    have h := (seed_out "demo" Store.empty).rest
    exact congrArg Store.reservations h
  have hd : (runEvents H seededDemo Db.empty).core.deliveries = .empty := by
    have h := (seed_out "demo" Store.empty).rest
    exact congrArg Store.deliveries h
  exact ⟨fun r h => absurd (hr ▸ h) (Table.not_mem_empty r), fun d h => absurd (hd ▸ h) (Table.not_mem_empty d)⟩

theorem scenario_reconciles_earlyBird :
    let x := scenario spelled "demo" earlyBird (.kind "duplicate") calm
      (runEvents spelled seededDemo Db.empty).core
    let s := run spelled lateBirds x.2.2
    [named 0 0, named 0 1, named 0 2, named 0 3, named 0 4].Nodup ∧
      ∃ fs : List Filing, (playAll spelled "demo" .duplicate earlyBird.plays Kind.duplicate.plays 0
          (runEvents spelled seededDemo Db.empty).core).1 = .ok fs ∧ fs.length = Kind.duplicate.plays ∧
        (fs.map fun f => f.hold.id).Nodup ∧
        [named 0 0, named 0 1, named 0 2, named 0 3, named 0 4] = fs.flatMap Filing.ids ∧
        ∀ f ∈ fs, f.ids.length = Kind.duplicate.reports ∧
          (∀ id ∈ f.ids, ∃ d, s.deliveries.find? ("demo", id) = some d ∧ d.names f.hold.id = true) ∧
          ∃ r, s.reservations.find? ("demo", f.hold.id) = some r ∧
            (r.state ≠ .released → Decided "demo" f s → Reconciled "demo" f s) := by
  refine scenario_reconciles spelled seededDemo "demo" earlyBird calm "duplicate" .duplicate rfl nofun
    fair_earlyBird (new_seededDemo _ _ _) Kind.duplicate.message _ (by decide +kernel) lateBirds
    fun x hx => ?_
  obtain ⟨m, -, rfl⟩ := List.mem_map.mp hx
  exact le_refl (0 : Int)

/-- There the first receipt settles and the other four are duplicates. -/
example :
    let x := scenario spelled "demo" earlyBird (.kind "duplicate") calm
      (runEvents spelled seededDemo Db.empty).core
    ([0, 1, 2, 3, 4].map fun m =>
      ((run spelled lateBirds x.2.2).deliveries.find? ("demo", named 0 m)).map (·.status)) =
      [some .settled, some .duplicate, some .duplicate, some .duplicate, some .duplicate] := by
  decide +kernel

/-- **A report of `poison` moves no money, under any interleaving.** Its delivery is never settled and never
a duplicate, it can only be quarantined for its schema, and unless somebody else reports the hold nothing is
charged for it. -/
theorem poison_never_charges (H : Digest) (es : List Localdemo.Reset.Event) (tenant : String) (turns : Turns)
    (c : Controls) (hdrawn : Drawn tenant turns.plays)
    (hnew : New tenant (keysFrom turns.plays 0) (eventsFrom turns.plays 0)
      (runEvents H es Db.empty).core) (message : String) (ids : List String)
    (h : (scenario H tenant turns (.kind "poison") c (runEvents H es Db.empty).core).1 =
      .filed message ids) (after : List Call) :
    let s := run H after (scenario H tenant turns (.kind "poison") c (runEvents H es Db.empty).core).2.2
    ∃ id hold d p, ids = [id] ∧ s.deliveries.find? (tenant, id) = some d ∧ d.payload = .json p ∧
      p.reservationID = hold ∧ d.status ≠ .settled ∧ d.status ≠ .duplicate ∧
      (d.status = .quarantined → d.reason = .unsupportedSchema) ∧
      ((∀ x ∈ s.deliveries, x.tenant = tenant → x.names hold → x.id = id) →
        ∃ r, s.reservations.find? (tenant, hold) = some r ∧ r.state ≠ .settled) := by
  intro s
  have hchoose : choose "poison" = .plays .poison := rfl
  obtain ⟨fs, cs, -, rfl, -, hrun, hfs⟩ :=
    scenario_left (t := 0) hchoose hdrawn (fun hk => absurd rfl hk) hnew h
  have hcharged : ChargedOnce s := by
    show ChargedOnce (run H after _)
    rw [hrun]
    exact ((charged_runEvents H es).run cs).run after
  cases hfs with
  | @cons f _ _ _ hf hnil =>
  cases hnil
  obtain ⟨hstand, hids⟩ := hf
  rcases f with ⟨hold, ids⟩
  cases hids with
  | @cons id _ _ _ hsent hnil =>
  cases hnil
  have hbad : Bad tenant hold.id id _ (scenario H tenant turns (.kind "poison") c
    (runEvents H es Db.empty).core).2.2 := hsent
  obtain ⟨d, p, hrep, -, hset, hdup, hq⟩ := hbad.run (H := H) after
  obtain ⟨r, hr, -⟩ := hstand.run (H := H) after
  refine ⟨id, hold.id, d, p, rfl, hrep.row, hrep.payload, hrep.hold, hset, hdup, hq,
    fun hown => ⟨r, hr, fun hst => ?_⟩⟩
  have hcount : s.deliveries.count (settles (tenant, hold.id)) = 1 := by
    rw [hcharged.once, isSettled_of_find hr, hst]
    rfl
  obtain ⟨x, ⟨hx, hxs⟩, -⟩ := Table.existsUnique_of_count hcount
  obtain ⟨hxt, hxst, hname⟩ := of_decide_eq_true hxs
  have hxid := hown x hx hxt hname
  have hrow : s.deliveries.find? (tenant, id) = some x := by
    have hfind := Table.find?_of_mem hx
    rw [show x.pk = (tenant, id) from Prod.ext hxt hxid] at hfind
    exact hfind
  cases hrow.symm.trans hrep.row
  exact hset hxst

theorem poison_never_charges_earlyBird :
    let s := run spelled lateBirds (scenario spelled "demo" earlyBird (.kind "poison") calm
      (runEvents spelled seededDemo Db.empty).core).2.2
    ∃ id hold d p, [named 0 0] = [id] ∧ s.deliveries.find? ("demo", id) = some d ∧ d.payload = .json p ∧
      p.reservationID = hold ∧ d.status ≠ .settled ∧ d.status ≠ .duplicate ∧
      (d.status = .quarantined → d.reason = .unsupportedSchema) ∧
      ((∀ x ∈ s.deliveries, x.tenant = "demo" → x.names hold → x.id = id) →
        ∃ r, s.reservations.find? ("demo", hold) = some r ∧ r.state ≠ .settled) :=
  poison_never_charges spelled seededDemo "demo" earlyBird calm drawn_earlyBird (new_seededDemo _ _ _)
    Kind.poison.message _ (by decide +kernel) lateBirds

end Afterglow.Httpapi.Scenario
