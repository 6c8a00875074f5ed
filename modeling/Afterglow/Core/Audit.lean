import Afterglow.Core.Intent
import Afterglow.Core.Ledger

/-! # The audit log is a ledger

`Book` is what an auditor keeps of the store: the state of each reservation, the status of each delivery,
and how many rows of each kind the log has for each resource. Every change of the store enters at most one
row, and changes state and status as the row says (`Entry`, `entry_change`). That the log can be read back
(`Posted`) is then an invariant of the entries alone. What a campaign spent is the sum over its `settled`
rows (`Reckoned`): such a row keeps its delivery and its reservation for good. -/

namespace Afterglow.Core.Audit

open Afterglow.Sql.Rows Afterglow.Sql.Txn Afterglow.Core.Model Afterglow.Core.Statements
open Afterglow.Core.Store Afterglow.Core.Outcome Afterglow.Core.Run Afterglow.Core.Ledger
open Afterglow.Core.Settlement
open Afterglow.Core.Intent (pk_deadRow)

/-! ### The book -/

/-- States, statuses, and the number of log rows by kind and resource. -/
@[ext] structure Book where
  hold : Key2 → Option Hold
  status : Key2 → Option Status
  log : Kind × Key2 → ℕ

/-- One more row of a kind for a resource. -/
def enter (log : Kind × Key2 → ℕ) (kind : Kind) (k : Key2) : Kind × Key2 → ℕ :=
  Function.update log (kind, k) (log (kind, k) + 1)

/-- **What may be entered in the book**, and what an entry goes with. -/
inductive Entry (b : Book) : Book → Prop
  | same : Entry b b
  | reserved (k : Key2) (h : b.hold k = none) :
      Entry b ⟨Function.update b.hold k (some .held), b.status, enter b.log .reserved k⟩
  | released (k : Key2) (h : b.hold k = some .held) :
      Entry b ⟨Function.update b.hold k (some .released), b.status, enter b.log .released k⟩
  | accepted (k : Key2) (h : b.status k = none) :
      Entry b ⟨b.hold, Function.update b.status k (some .accepted), enter b.log .accepted k⟩
  | decided (k : Key2) (status : Status) (h : b.status k = some .accepted)
      (hs : status = .duplicate ∨ status = .quarantined) :
      Entry b ⟨b.hold, Function.update b.status k (some status), enter b.log status.kind k⟩
  | settled (k kr : Key2) (h : b.status k = some .accepted) (hr : b.hold kr = some .held) :
      Entry b ⟨Function.update b.hold kr (some .settled), Function.update b.status k (some .settled),
        enter b.log .settled k⟩
  | retried (k : Key2) : Entry b ⟨b.hold, b.status, enter b.log .retry k⟩
  | died (k : Key2) (h : b.status k = some .accepted) :
      Entry b ⟨b.hold, Function.update b.status k (some .failed), enter b.log .retry k⟩
  | replayed (k : Key2) (h : b.status k = some .failed ∨ b.status k = some .quarantined) :
      Entry b ⟨b.hold, Function.update b.status k (some .accepted), enter b.log .replayed k⟩

/-! ### The log can be read back -/

/-- The rows a reservation in state `x` has. -/
structure HoldRows (x : Option Hold) (n : Kind → ℕ) : Prop where
  reserved : n .reserved = if x.isSome then 1 else 0
  released : n .released = if x = some .released then 1 else 0

/-- The delivery is still to be decided, or to be made. -/
def undecided (st : Option Status) : Bool := st = none ∨ st = some .accepted

/-- The rows a delivery in status `x` has: each replay allows one more decision. -/
structure DeliveryRows (x : Option Status) (n : Kind → ℕ) : Prop where
  accepted : n .accepted = if x.isSome then 1 else 0
  settled : n .settled = if x = some .settled then 1 else 0
  decisions : n .settled + n .duplicate + n .quarantined + (if undecided x then 1 else 0) ≤ 1 + n .replayed

/-- **The log is faithful.** -/
structure Posted (b : Book) : Prop where
  holds : ∀ k, HoldRows (b.hold k) fun kind => b.log (kind, k)
  deliveries : ∀ k, DeliveryRows (b.status k) fun kind => b.log (kind, k)

section Rows

variable {log : Kind × Key2 → ℕ} {kind kind' : Kind} {k k' : Key2}

theorem enter_self : enter log kind k (kind, k) = log (kind, k) + 1 := Function.update_self _ _ _

theorem enter_kind (h : kind' ≠ kind) : enter log kind k (kind', k') = log (kind', k') :=
  Function.update_of_ne (fun he => h (congrArg Prod.fst he)) _ _

theorem enter_key (h : k' ≠ k) : enter log kind k (kind', k') = log (kind', k') :=
  Function.update_of_ne (fun he => h (congrArg Prod.snd he)) _ _

theorem HoldRows.congr {x : Option Hold} {n m : Kind → ℕ} (h : HoldRows x n)
    (h₁ : m .reserved = n .reserved) (h₂ : m .released = n .released) : HoldRows x m :=
  ⟨by rw [h₁]; exact h.reserved, by rw [h₂]; exact h.released⟩

/-- A row of another kind says nothing about a reservation. -/
theorem HoldRows.enter {x : Option Hold} (h : HoldRows x fun kind => log (kind, k'))
    (h₁ : kind ≠ .reserved) (h₂ : kind ≠ .released) :
    HoldRows x fun kind' => enter log kind k (kind', k') :=
  h.congr (enter_kind h₁.symm) (enter_kind h₂.symm)

/-- A row for another resource says nothing about a delivery. -/
theorem DeliveryRows.enter_key {x : Option Status} (h : DeliveryRows x fun kind => log (kind, k'))
    (hk : k' ≠ k) : DeliveryRows x fun kind' => enter log kind k (kind', k') := by
  have hlog : (fun kind' => enter log kind k (kind', k')) = fun kind => log (kind, k') :=
    funext fun _ => Audit.enter_key hk
  rw [hlog]
  exact h

theorem HoldRows.enter_key {x : Option Hold} (h : HoldRows x fun kind => log (kind, k'))
    (hk : k' ≠ k) : HoldRows x fun kind' => Audit.enter log kind k (kind', k') :=
  h.congr (Audit.enter_key hk) (Audit.enter_key hk)

/-- A row about reservations or retries says nothing about a delivery. -/
theorem DeliveryRows.enter {x : Option Status} (h : DeliveryRows x fun kind => log (kind, k'))
    (hkind : kind = .reserved ∨ kind = .released ∨ kind = .retry) :
    DeliveryRows x fun kind' => Audit.enter log kind k (kind', k') := by
  have hsame : ∀ kind', kind' ≠ .reserved → kind' ≠ .released → kind' ≠ .retry →
      Audit.enter log kind k (kind', k') = log (kind', k') := fun kind' h₁ h₂ h₃ =>
    enter_kind (by rcases hkind with rfl | rfl | rfl <;> assumption)
  refine ⟨?_, ?_, ?_⟩
  · rw [hsame _ (by simp) (by simp) (by simp)]; exact h.accepted
  · rw [hsame _ (by simp) (by simp) (by simp)]; exact h.settled
  · simp only [hsame .settled (by simp) (by simp) (by simp), hsame .duplicate (by simp) (by simp) (by simp),
      hsame .quarantined (by simp) (by simp) (by simp), hsame .replayed (by simp) (by simp) (by simp)]
    exact h.decisions

end Rows

/-- A hold moves from `x` to `y` with one row: what it takes at its own key. -/
theorem Posted.move_hold {b : Book} (h : Posted b) {k : Key2} {kind : Kind} {y : Option Hold}
    (hkind : kind = .reserved ∨ kind = .released)
    (hself : HoldRows y fun kind' => enter b.log kind k (kind', k)) :
    Posted ⟨Function.update b.hold k y, b.status, enter b.log kind k⟩ := by
  refine ⟨fun k' => ?_, fun k' => (h.deliveries k').enter (by tauto)⟩
  by_cases hk : k' = k
  · subst hk
    simp only [Function.update_self]
    exact hself
  · simp only [Function.update_of_ne hk]
    exact (h.holds k').enter_key hk

/-- A delivery moves to `y` with one row: what it takes at its own key. -/
theorem Posted.move_delivery {b : Book} (h : Posted b) {k : Key2} {kind : Kind} {y : Option Status}
    (hkind : kind ≠ .reserved ∧ kind ≠ .released)
    (hself : DeliveryRows y fun kind' => enter b.log kind k (kind', k)) :
    Posted ⟨b.hold, Function.update b.status k y, enter b.log kind k⟩ := by
  refine ⟨fun k' => (h.holds k').enter hkind.1 hkind.2, fun k' => ?_⟩
  by_cases hk : k' = k
  · subst hk
    simp only [Function.update_self]
    exact hself
  · simp only [Function.update_of_ne hk]
    exact (h.deliveries k').enter_key hk

/-- **An entry keeps the log faithful.** -/
theorem Posted.entry {b b' : Book} (h : Posted b) (he : Entry b b') : Posted b' := by
  cases he with
  | same => exact h
  | reserved k hk =>
    obtain ⟨hres, hrel⟩ := h.holds k
    rw [hk] at hres hrel
    refine h.move_hold (Or.inl rfl) ⟨?_, ?_⟩
    · rw [enter_self, hres]; rfl
    · rw [enter_kind (by simp), hrel]; rfl
  | released k hk =>
    obtain ⟨hres, hrel⟩ := h.holds k
    rw [hk] at hres hrel
    refine h.move_hold (Or.inr rfl) ⟨?_, ?_⟩
    · rw [enter_kind (by simp), hres]; rfl
    · rw [enter_self, hrel]; rfl
  | accepted k hk =>
    obtain ⟨hacc, hset, hdec⟩ := h.deliveries k
    rw [hk] at hacc hset hdec
    refine h.move_delivery (by simp) ⟨?_, ?_, ?_⟩
    · rw [enter_self, hacc]; rfl
    · rw [enter_kind (by simp), hset]; rfl
    · simpa [enter_kind, undecided] using hdec
  | decided k status hk hs =>
    obtain ⟨hacc, hset, hdec⟩ := h.deliveries k
    rw [hk] at hacc hset hdec
    have hkind : status.kind ≠ .accepted ∧ status.kind ≠ .settled := by
      rcases hs with rfl | rfl <;> simp [Status.kind]
    refine h.move_delivery (by rcases hs with rfl | rfl <;> simp [Status.kind]) ⟨?_, ?_, ?_⟩
    · rw [enter_kind (Ne.symm hkind.1), hacc]
      rfl
    · rw [enter_kind (Ne.symm hkind.2), hset]
      rcases hs with rfl | rfl <;> rfl
    · rcases hs with rfl | rfl
      · simp [enter_kind, enter_self, undecided, Status.kind] at hdec ⊢
        omega
      · simp [enter_kind, enter_self, undecided, Status.kind] at hdec ⊢
        omega
  | settled k kr hk hr =>
    obtain ⟨hacc, hset, hdec⟩ := h.deliveries k
    rw [hk] at hacc hset hdec
    have hpost : Posted ⟨b.hold, Function.update b.status k (some .settled), enter b.log .settled k⟩ := by
      refine h.move_delivery (by simp) ⟨?_, ?_, ?_⟩
      · rw [enter_kind (by simp), hacc]; rfl
      · rw [enter_self, hset]; rfl
      · simp [enter_kind, enter_self, undecided] at hdec ⊢
        omega
    refine ⟨fun k' => ?_, hpost.deliveries⟩
    by_cases hk' : k' = kr
    · -- the hold that is settled: neither row of it says so
      subst hk'
      obtain ⟨hres, hrel⟩ := hpost.holds k'
      simp only [hr] at hres hrel
      simp only [Function.update_self]
      exact ⟨hres, hrel⟩
    · simp only [Function.update_of_ne hk']
      exact hpost.holds k'
  | retried k =>
    exact ⟨fun k' => (h.holds k').enter (by simp) (by simp), fun k' => (h.deliveries k').enter (by simp)⟩
  | died k hk =>
    obtain ⟨hacc, hset, hdec⟩ := h.deliveries k
    rw [hk] at hacc hset hdec
    refine h.move_delivery (by simp) ⟨?_, ?_, ?_⟩
    · rw [enter_kind (by simp), hacc]; rfl
    · rw [enter_kind (by simp), hset]; rfl
    · simp [enter_kind, undecided] at hdec ⊢
      omega
  | replayed k hk =>
    obtain ⟨hacc, hset, hdec⟩ := h.deliveries k
    refine h.move_delivery (by simp) ⟨?_, ?_, ?_⟩
    · rw [enter_kind (by simp), hacc]
      rcases hk with hk | hk <;> rw [hk] <;> rfl
    · rw [enter_kind (by simp), hset]
      rcases hk with hk | hk <;> rw [hk] <;> rfl
    · rcases hk with hk | hk
      · rw [hk] at hdec
        simp [enter_kind, enter_self, undecided] at hdec ⊢
        omega
      · rw [hk] at hdec
        simp [enter_kind, enter_self, undecided] at hdec ⊢
        omega

/-! ### The book of a store -/

/-- The audit row is of this kind and about this resource. -/
def entered (kind : Kind) (k : Key2) (a : AuditRow) : Bool :=
  a.kind = kind ∧ a.tenant = k.1 ∧ a.resource = k.2

/-- The number of audit rows of this kind about this resource. -/
def logged (s : Store) (kind : Kind) (k : Key2) : ℕ := s.audit.count (entered kind k)

/-- What an auditor keeps of the store. -/
def book (s : Store) : Book where
  hold k := (s.reservations.find? k).map (·.state)
  status k := (s.deliveries.find? k).map (·.status)
  log x := logged s x.1 x.2

section Book

variable {s s' : Store}

theorem logged_put (a : AuditRow) (ha : s.audit.find? a.id = none) (hs : s'.audit = s.audit.put a) :
    (book s').log = enter (book s).log a.kind (a.tenant, a.resource) := by
  funext ⟨kind, k⟩
  have hsum : logged s' kind k = logged s kind k + if entered kind k a then 1 else 0 := by
    unfold logged
    rw [hs]
    exact Table.sum_put_new _ ha
  show logged s' kind k = _
  rw [hsum]
  by_cases hx : (kind, k) = (a.kind, a.tenant, a.resource)
  · obtain ⟨rfl, rfl⟩ := Prod.mk.inj hx
    rw [enter_self, if_pos (by simp [entered])]
    rfl
  · have hno : entered kind k a = false := by
      unfold entered
      rw [decide_eq_false_iff_not]
      rintro ⟨rfl, h₁, h₂⟩
      exact hx (Prod.ext rfl (Prod.ext h₁.symm h₂.symm))
    rw [hno, enter, Function.update_of_ne hx]
    rfl

theorem hold_put (r : ReservationRow) (hs : s'.reservations = s.reservations.put r) :
    (book s').hold = Function.update (book s).hold r.pk (some r.state) := by
  funext k
  show (s'.reservations.find? k).map _ = _
  rw [hs]
  by_cases hk : k = r.pk
  · subst hk
    rw [Table.find?_put_self, Function.update_self]
    rfl
  · rw [Table.find?_put_ne (Ne.symm hk), Function.update_of_ne hk]
    rfl

theorem status_put (d : DeliveryRow) (hs : s'.deliveries = s.deliveries.put d) :
    (book s').status = Function.update (book s).status d.pk (some d.status) := by
  funext k
  show (s'.deliveries.find? k).map _ = _
  rw [hs]
  by_cases hk : k = d.pk
  · subst hk
    rw [Table.find?_put_self, Function.update_self]
    rfl
  · rw [Table.find?_put_ne (Ne.symm hk), Function.update_of_ne hk]
    rfl

theorem hold_of_find {k : Key2} {r : ReservationRow} (h : s.reservations.find? k = some r) :
    (book s).hold k = some r.state := by
  show (s.reservations.find? k).map _ = _
  rw [h, Option.map_some]

theorem status_of_find {k : Key2} {d : DeliveryRow} (h : s.deliveries.find? k = some d) :
    (book s).status k = some d.status := by
  show (s.deliveries.find? k).map _ = _
  rw [h, Option.map_some]

theorem hold_congr (h : s'.reservations = s.reservations) : (book s').hold = (book s).hold := by
  funext k
  show (s'.reservations.find? k).map _ = _
  rw [h]
  rfl

theorem status_congr (h : s'.deliveries = s.deliveries) : (book s').status = (book s).status := by
  funext k
  show (s'.deliveries.find? k).map _ = _
  rw [h]
  rfl

theorem book_congr (h₁ : s'.reservations = s.reservations) (h₂ : s'.deliveries = s.deliveries)
    (h₃ : s'.audit = s.audit) : book s' = book s := by
  refine Book.ext (hold_congr h₁) (status_congr h₂) ?_
  funext ⟨kind, k⟩
  show logged s' kind k = logged s kind k
  unfold logged
  rw [h₃]

/-- A delivery keeps its status. -/
theorem status_same {k : Key2} {d : DeliveryRow} (d' : DeliveryRow) (hd : s.deliveries.find? k = some d)
    (hpk : d'.pk = k) (hst : d'.status = d.status) (hs : s'.deliveries = s.deliveries.put d') :
    (book s').status = (book s).status := by
  rw [status_put d' hs, hpk, hst]
  exact Function.update_eq_self_iff.mpr (status_of_find hd).symm

/-- A row of kind `retry`, and nothing else. -/
theorem entry_retry {k : Key2} (hres : s'.reservations = s.reservations)
    (hst : (book s').status = (book s).status) (hlog : (book s').log = enter (book s).log .retry k) :
    Entry (book s) (book s') := by
  have heq : book s' = ⟨(book s).hold, (book s).status, enter (book s).log .retry k⟩ :=
    Book.ext (hold_congr hres) hst hlog
  rw [heq]
  exact .retried k

/-- The last attempt fails: an accepted delivery is dead, any other stays as it is. -/
theorem entry_dead {k : Key2} (hres : s'.reservations = s.reservations)
    (hdel : s'.deliveries = s.deliveries.modify k deadRow)
    (hlog : (book s').log = enter (book s).log .retry k) : Entry (book s) (book s') := by
  cases hd : s.deliveries.find? k with
  | none =>
    rw [Table.modify_of_none deadRow hd] at hdel
    exact entry_retry hres (status_congr hdel) hlog
  | some dl =>
    rw [Table.modify_of_find? deadRow hd] at hdel
    have hpk : (deadRow dl).pk = k := (pk_deadRow dl).trans (Table.find?_key hd)
    by_cases hst : dl.status = .accepted
    · have heq : book s' = ⟨(book s).hold, Function.update (book s).status k (some .failed),
          enter (book s).log .retry k⟩ := by
        refine Book.ext (hold_congr hres) ?_ hlog
        rw [status_put (deadRow dl) hdel, hpk, deadRow, if_pos hst]
      rw [heq]
      refine .died k ?_
      rw [status_of_find hd, hst]
    · have hsame : (deadRow dl).status = dl.status := by rw [deadRow, if_neg hst]
      exact entry_retry hres (status_same (deadRow dl) hd hpk hsame hdel) hlog

/-- **Every change of the store is an entry in the book.** -/
theorem entry_change {H : Digest} {o : Op} (hc : Change H s o s') : Entry (book s) (book s') := by
  cases hc with
  | same => exact .same
  | seeded hs =>
    have heq : book s' = book s := book_congr (by rw [hs.rest]) (by rw [hs.rest]) (by rw [hs.rest])
    rw [heq]
    exact .same
  | @held tenant key inp d c hv hc hk hsc hb hck hid ha =>
    have heq : book (holding s c (newReservation H tenant key inp d) (reservedAudit tenant inp d)) =
        ⟨Function.update (book s).hold (tenant, d.id) (some .held), (book s).status,
          enter (book s).log .reserved (tenant, d.id)⟩ :=
      Book.ext (hold_put (newReservation H tenant key inp d) rfl) (status_congr rfl)
        (logged_put (reservedAudit tenant inp d) ha rfl)
    rw [heq]
    refine .reserved _ ?_
    show (s.reservations.find? _).map _ = none
    rw [hid]
    rfl
  | @accepted tenant r d hv hk hf =>
    have heq : book (accepting s (newDelivery H tenant r d) d.trace (acceptedAudit tenant d)) =
        ⟨(book s).hold, Function.update (book s).status (tenant, d.id) (some .accepted),
          enter (book s).log .accepted (tenant, d.id)⟩ :=
      Book.ext (hold_congr rfl) (status_put (newDelivery H tenant r d) rfl)
        (logged_put (acceptedAudit tenant d) hf.audit rfl)
    rw [heq]
    refine .accepted _ ?_
    show (s.deliveries.find? _).map _ = none
    rw [hf.delivery]
    rfl
  | seen dl hd hs =>
    have hpk : dl.pk = _ := Table.find?_key hd
    have heq : book { s with deliveries := s.deliveries.put { dl with attempts := dl.attempts + 1 } } =
        book s :=
      Book.ext (hold_congr rfl) (status_same { dl with attempts := dl.attempts + 1 } hd hpk rfl rfl) rfl
    rw [heq]
    exact .same
  | @decided tenant id d dl status reason hd hs hv hne ha =>
    have heq : book (deciding s dl status reason d) = ⟨(book s).hold,
        Function.update (book s).status dl.pk (some status), enter (book s).log status.kind dl.pk⟩ :=
      Book.ext (hold_congr rfl) (status_put (decidedRow dl status reason) rfl)
        (logged_put (decidedAudit dl status reason d) ha rfl)
    rw [heq]
    have hpk : dl.pk = (tenant, id) := Table.find?_key hd
    refine .decided _ status ?_ ?_
    · rw [hpk, status_of_find hd, hs]
    · by_cases hq : status = .quarantined
      · exact Or.inr hq
      · obtain ⟨-, -, -, -, -, ⟨-, hst⟩ | ⟨-, hst⟩⟩ := verdict_matches hv hq
        · exact absurd hst hne
        · exact Or.inl hst
  | @settled tenant id d dl p r hd hs hp hv hr hh hck ha =>
    have heq : book (deciding (settling s r) dl .settled .matched d) =
        ⟨Function.update (book s).hold r.pk (some .settled),
          Function.update (book s).status dl.pk (some .settled), enter (book s).log .settled dl.pk⟩ :=
      Book.ext (hold_put { r with state := .settled } rfl) (status_put (decidedRow dl .settled .matched) rfl)
        (logged_put (decidedAudit dl .settled .matched d) ha rfl)
    rw [heq]
    have hpk : dl.pk = (tenant, id) := Table.find?_key hd
    have hrk : r.pk = (tenant, p.reservationID) := Table.find?_key hr
    refine .settled _ _ ?_ ?_
    · rw [hpk, status_of_find hd, hs]
    · rw [hrk, hold_of_find hr, hh]
  | @released tenant id now d r hr hh he hck ha =>
    have hrk : r.pk = (tenant, id) := Table.find?_key hr
    have heq : book (releasing s r (releasedAudit tenant id d)) =
        ⟨Function.update (book s).hold (tenant, id) (some .released), (book s).status,
          enter (book s).log .released (tenant, id)⟩ := by
      refine Book.ext ?_ (status_congr rfl) (logged_put (releasedAudit tenant id d) ha rfl)
      rw [← hrk]
      exact hold_put { r with state := .released } rfl
    rw [heq]
    refine .released _ ?_
    rw [hold_of_find hr, hh]
  | @retried j next d o ho hj hs ha =>
    exact entry_retry rfl (status_congr rfl) (logged_put (retryAudit j d) ha rfl)
  | @died j next d o ho hj hs ha => exact entry_dead rfl rfl (logged_put (retryAudit j d) ha rfl)
  | @reopened tenant id d dl hd hs ha =>
    have hpk : dl.pk = (tenant, id) := Table.find?_key hd
    have heq : book { s with
        deliveries := s.deliveries.put (reopenedRow dl)
        outbox := s.outbox.modify (tenant, id) requeuedRow
        audit := s.audit.put (replayedAudit tenant id d) } =
        ⟨(book s).hold, Function.update (book s).status (tenant, id) (some .accepted),
          enter (book s).log .replayed (tenant, id)⟩ := by
      refine Book.ext (hold_congr rfl) ?_ (logged_put (replayedAudit tenant id d) ha rfl)
      rw [← hpk]
      exact status_put (reopenedRow dl) rfl
    rw [heq]
    refine .replayed _ ?_
    rw [status_of_find hd]
    simpa using hs
  | _ => exact .same

end Book

theorem posted_empty : Posted (book Store.empty) :=
  ⟨fun _ => ⟨rfl, rfl⟩, fun _ => ⟨rfl, rfl, Nat.le_refl 1⟩⟩

/-- **The log is faithful in every state a run reaches.** -/
theorem posted_run (H : Digest) (cs : List Call) : Posted (book (run H cs Store.empty)) :=
  run_invariant (A := fun _ => True) (I := fun s => Posted (book s))
    (fun _ _ _ _ h hc => h.entry (entry_change hc)) cs Store.empty (fun _ _ => trivial) posted_empty

/-! ### What was spent -/

/-- The reservation that the delivery under `k` names. -/
def namedBy (s : Store) (k : Key2) : Option ReservationRow := do
  let d ← s.deliveries.find? k
  let p ← d.payload.unmarshal
  s.reservations.find? (d.tenant, p.reservationID)

/-- What an audit row adds to the spend of campaign `k`: the cost of the reservation of the campaign that
the delivery of a `settled` row names. -/
def credit (s : Store) (k : Key2) (a : AuditRow) : Int :=
  if a.kind = .settled then
    match namedBy s (a.tenant, a.resource) with
    | some r => if (r.tenant, r.campaign) = k then r.cost else 0
    | none => 0
  else 0

/-- **The spend of a campaign is in the log.** -/
def Reckoned (s : Store) : Prop := ∀ k, s.audit.sum (credit s k) = committed s k .settled

section Spend

variable {s s' : Store}

theorem namedBy_eq {k : Key2} {d : DeliveryRow} {p : Receipt} (hd : s.deliveries.find? k = some d)
    (hp : d.payload = .json p) : namedBy s k = s.reservations.find? (d.tenant, p.reservationID) := by
  unfold namedBy
  rw [hd]
  simp [hp, Text.unmarshal]

theorem credit_other {k : Key2} {a : AuditRow} (h : a.kind ≠ .settled) : credit s k a = 0 := if_neg h

theorem credit_settled {k : Key2} {a : AuditRow} {r : ReservationRow} (h : a.kind = .settled)
    (hr : namedBy s (a.tenant, a.resource) = some r) :
    credit s k a = if (r.tenant, r.campaign) = k then r.cost else 0 := by
  rw [credit, if_pos h, hr]

/-- A `settled` row has its delivery, and the delivery its settled reservation. -/
theorem settled_row (hb : Posted (book s)) (hc : ChargedOnce s) {a : AuditRow} (ha : a ∈ s.audit)
    (hk : a.kind = .settled) : ∃ d p r, s.deliveries.find? (a.tenant, a.resource) = some d ∧
      d.payload = .json p ∧ s.reservations.find? (d.tenant, p.reservationID) = some r ∧
      r.state = .settled := by
  have hpos : logged s .settled (a.tenant, a.resource) ≠ 0 := by
    intro hzero
    have hno := Table.count_eq_zero.mp hzero a ha
    simp [entered, hk] at hno
  have hrow : logged s .settled (a.tenant, a.resource) =
      if (s.deliveries.find? (a.tenant, a.resource)).map (·.status) = some .settled then 1 else 0 :=
    (hb.deliveries (a.tenant, a.resource)).settled
  rw [hrow] at hpos
  have hst := (ite_ne_right_iff.mp hpos).1
  obtain ⟨d, hd, hds⟩ := Option.map_eq_some_iff.mp hst
  obtain ⟨p, r, hp, hr, -, hrs⟩ := hc.backed d (Table.mem_of_find? hd) (Or.inl hds)
  exact ⟨d, p, r, hd, hp, hr, hrs⟩

/-- **A `settled` row is worth the same for good.** -/
theorem credit_kept (hb : Posted (book s)) (hc : ChargedOnce s) (hev : Evolves s s') {a : AuditRow}
    (ha : a ∈ s.audit) (k : Key2) : credit s' k a = credit s k a := by
  by_cases hk : a.kind = .settled
  · obtain ⟨d, p, r, hd, hp, hr, hrs⟩ := settled_row hb hc ha hk
    obtain ⟨d', hd', hstep⟩ := hev.deliveries _ d hd
    obtain ⟨r', hr', hrstep⟩ := hev.reservations _ r hr
    have hrr : r' = r := hrstep.eq_of_settled hrs
    have hp' : d'.payload = .json p := by rw [hstep.1]; exact hp
    have ht : d'.tenant = d.tenant := by rw [hstep.1]
    rw [credit_settled hk ((namedBy_eq hd hp).trans hr),
      credit_settled hk ((namedBy_eq hd' hp').trans (by rw [ht]; exact hr')), hrr]
  · rw [credit_other hk, credit_other hk]

/-- What a change does to the settled costs: it settles a delivery and its hold with one `settled` row, or
keeps them all and enters no such row. -/
theorem settled_cases {H : Digest} {o : Op} (hc : Change H s o s') :
    (∃ (a : AuditRow) (dl : DeliveryRow) (p : Receipt) (r : ReservationRow),
      s.audit.find? a.id = none ∧ s'.audit = s.audit.put a ∧ a.kind = .settled ∧
      (a.tenant, a.resource) = dl.pk ∧ s'.deliveries.find? dl.pk = some dl ∧ dl.payload = .json p ∧
      s.reservations.find? (dl.tenant, p.reservationID) = some r ∧ r.state = .held ∧
      s'.reservations = s.reservations.put { r with state := .settled }) ∨
    (∀ k, committed s' k .settled = committed s k .settled) ∧
      (s'.audit = s.audit ∨ ∃ a : AuditRow, s.audit.find? a.id = none ∧ a.kind ≠ .settled ∧
        s'.audit = s.audit.put a) := by
  have hsame : ∀ k, committed s k .settled = committed s k .settled := fun _ => rfl
  cases hc with
  | seeded hs =>
    have hr : s'.reservations = s.reservations := by rw [hs.rest]
    exact Or.inr ⟨fun k => by unfold committed; rw [hr], Or.inl (by rw [hs.rest])⟩
  | @held tenant key inp d c hv hc hk hsc hb hck hid ha =>
    refine Or.inr ⟨fun k => ?_, Or.inr ⟨reservedAudit tenant inp d, ha, by simp [reservedAudit], rfl⟩⟩
    rw [committed_put_new (r := newReservation H tenant key inp d) hid rfl,
      share_state (by simp [newReservation]), add_zero]
  | @accepted tenant r d hv hk hf =>
    exact Or.inr ⟨hsame, Or.inr ⟨acceptedAudit tenant d, hf.audit, by simp [acceptedAudit], rfl⟩⟩
  | @decided tenant id d dl status reason hd hs hv hne ha =>
    refine Or.inr ⟨hsame, Or.inr ⟨decidedAudit dl status reason d, ha, ?_, rfl⟩⟩
    cases status with
    | settled => exact absurd rfl hne
    | _ => simp [decidedAudit, Status.kind]
  | @settled tenant id d dl p r hd hs hp hv hr hh hck ha =>
    have ht : dl.tenant = tenant := congrArg Prod.fst (Table.find?_key hd)
    refine Or.inl ⟨decidedAudit dl .settled .matched d, decidedRow dl .settled .matched, p, r, ha, rfl, rfl,
      rfl, Table.find?_put_self _ (decidedRow dl .settled .matched), hp, ?_, hh, rfl⟩
    show s.reservations.find? (dl.tenant, p.reservationID) = some r
    rw [ht]
    exact hr
  | @released tenant id now d r hr hh he hck ha =>
    refine Or.inr ⟨fun k => ?_, Or.inr ⟨releasedAudit tenant id d, ha, by simp [releasedAudit], rfl⟩⟩
    have hrk : s.reservations.find? r.pk = some r := by rw [Table.find?_key hr]; exact hr
    have hput {s' : Store} := @committed_put_old s s' r { r with state := .released } hrk
    rw [hput rfl, share_state (by rw [hh]; simp), share_state (by simp), sub_zero, add_zero]
  | @retried j next d o ho hj hs ha =>
    exact Or.inr ⟨hsame, Or.inr ⟨retryAudit j d, ha, by simp [retryAudit], rfl⟩⟩
  | @died j next d o ho hj hs ha =>
    exact Or.inr ⟨hsame, Or.inr ⟨retryAudit j d, ha, by simp [retryAudit], rfl⟩⟩
  | @reopened tenant id d dl hd hs ha =>
    exact Or.inr ⟨hsame, Or.inr ⟨replayedAudit tenant id d, ha, by simp [replayedAudit], rfl⟩⟩
  | _ => exact Or.inr ⟨hsame, Or.inl rfl⟩

/-- **One change keeps the reckoning.** -/
theorem Reckoned.change {H : Digest} {o : Op} (h : Reckoned s) (hb : Posted (book s))
    (hc : ChargedOnce s) (hch : Change H s o s') : Reckoned s' := by
  intro k
  have hold : s.audit.sum (credit s' k) = committed s k .settled := by
    rw [← h k]
    exact congrArg List.sum (List.map_congr_left fun a ha =>
      credit_kept hb hc (evolves_change hch) ha k)
  rcases settled_cases hch with ⟨a, dl, p, r, ha, haudit, hkind, hkey, hd, hp, hr, hh, hres⟩ |
    ⟨hcom, haudit | ⟨a, ha, hkind, haudit⟩⟩
  · have hrk : r.pk = (dl.tenant, p.reservationID) := Table.find?_key hr
    have hnamed : namedBy s' (a.tenant, a.resource) = some { r with state := .settled } := by
      rw [hkey, namedBy_eq hd hp, hres, ← hrk]
      exact Table.find?_put_self s.reservations { r with state := .settled }
    have hcredit : credit s' k a = share k .settled { r with state := .settled } := by
      rw [credit_settled hkind hnamed]
      by_cases hk : (r.tenant, r.campaign) = k
      · rw [← hk]
        simp [share]
      · rw [if_neg hk]
        exact (share_other (r := { r with state := .settled }) hk).symm
    have hrow : s.reservations.find? r.pk = some r := by rw [hrk]; exact hr
    have hheld : share k .settled r = 0 := share_state (by rw [hh]; simp)
    have hput := @committed_put_old s s' r { r with state := .settled } hrow hres k .settled
    rw [haudit, Table.sum_put_new _ ha, hold, hcredit, hput, hheld, sub_zero]
  · rw [haudit, hold, hcom]
  · rw [haudit, Table.sum_put_new _ ha, hold, credit_other hkind, add_zero, hcom]

end Spend

/-- **The reckoning holds in every state a run reaches.** -/
theorem reckoned_run (H : Digest) (cs : List Call) : Reckoned (run H cs Store.empty) := by
  have hall : Posted (book (run H cs Store.empty)) ∧ ChargedOnce (run H cs Store.empty) ∧
      Reckoned (run H cs Store.empty) :=
    run_invariant (A := fun _ => True) (I := fun s => Posted (book s) ∧ ChargedOnce s ∧ Reckoned s)
      (fun _ _ _ _ h hc => ⟨h.1.entry (entry_change hc), h.2.1.change hc, h.2.2.change h.1 h.2.1 hc⟩)
      cs Store.empty (fun _ _ => trivial) ⟨posted_empty, ChargedOnce.empty, fun _ => rfl⟩
  exact hall.2.2

/-- **The audit log is a faithful ledger**, in every state a run reaches. -/
theorem audit_faithful (H : Digest) (cs : List Call) :
    let s := run H cs Store.empty
    (∀ r ∈ s.reservations, logged s .reserved r.pk = 1 ∧
      logged s .released r.pk = if r.state = .released then 1 else 0) ∧
    (∀ d ∈ s.deliveries, logged s .accepted d.pk = 1 ∧
      (logged s .settled d.pk = if d.status = .settled then 1 else 0) ∧
      logged s .settled d.pk + logged s .duplicate d.pk + logged s .quarantined d.pk ≤
        1 + logged s .replayed d.pk) ∧
    ∀ c ∈ s.campaigns, c.spent = s.audit.sum (credit s c.pk) := by
  intro s
  have hpost : Posted (book s) := posted_run H cs
  refine ⟨fun r hr => ?_, fun d hd => ?_, fun c hc => ?_⟩
  · have hhold : (book s).hold r.pk = some r.state := by
      show (s.reservations.find? r.pk).map _ = _
      rw [Table.find?_of_mem hr]
      rfl
    obtain ⟨hres, hrel⟩ := hpost.holds r.pk
    rw [hhold] at hres hrel
    simp only [Option.isSome_some, if_true, Option.some.injEq] at hres hrel
    exact ⟨hres, hrel⟩
  · have hstatus : (book s).status d.pk = some d.status := by
      show (s.deliveries.find? d.pk).map _ = _
      rw [Table.find?_of_mem hd]
      rfl
    obtain ⟨hacc, hset, hdec⟩ := hpost.deliveries d.pk
    rw [hstatus] at hacc hset
    simp only [Option.isSome_some, if_true, Option.some.injEq] at hacc hset
    exact ⟨hacc, hset, le_trans (Nat.le_add_right _ _) hdec⟩
  · have hbal : Balanced s := Balanced.empty.run cs
    rw [hbal.spent c.pk c (Table.find?_of_mem hc), reckoned_run H cs c.pk]

end Afterglow.Core.Audit
