import Afterglow.Core.Run

/-! # One financial effect per reservation

Along a run a row keeps its identity: a reservation changes nothing but its state, and only out of
`held`; a delivery changes nothing but its status, reason and attempts, and `settled` and `duplicate` are
final (`Evolves`). On top of it, `ChargedOnce` counts: a reservation is settled exactly if one settled
delivery names it, and every settled or duplicate delivery matches a settled reservation. -/

namespace Afterglow.Core.Settlement

open Afterglow.Sql.Rows Afterglow.Sql.Txn Afterglow.Core.Model Afterglow.Core.Statements
open Afterglow.Core.Store Afterglow.Core.Outcome Afterglow.Core.Run

/-! ### What becomes of rows -/

/-- What becomes of a reservation. -/
def HoldStep (r r' : ReservationRow) : Prop :=
  r' = { r with state := r'.state } ∧ (r'.state = r.state ∨ r.state = .held)

/-- What becomes of a delivery. -/
def DeliveryStep (d d' : DeliveryRow) : Prop :=
  d' = { d with status := d'.status, reason := d'.reason, attempts := d'.attempts } ∧
    (d.status = .settled ∨ d.status = .duplicate → d'.status = d.status)

theorem HoldStep.refl (r : ReservationRow) : HoldStep r r := ⟨rfl, Or.inl rfl⟩

theorem HoldStep.trans (a b c : ReservationRow) (h : HoldStep a b) (h' : HoldStep b c) :
    HoldStep a c := by
  obtain ⟨hb, hab⟩ := h
  obtain ⟨hc, hbc⟩ := h'
  refine ⟨by rw [hc, hb], ?_⟩
  rcases hab with hab | hab
  · rcases hbc with hbc | hbc
    · exact Or.inl (hbc.trans hab)
    · exact Or.inr (hab ▸ hbc)
  · exact Or.inr hab

/-- A settled reservation is not touched again. -/
theorem HoldStep.eq_of_settled {r r' : ReservationRow} (h : HoldStep r r') (hs : r.state = .settled) :
    r' = r := by
  have hst : r'.state = r.state := h.2.resolve_right (by rw [hs]; simp)
  rw [h.1, hst]

theorem DeliveryStep.refl (d : DeliveryRow) : DeliveryStep d d := ⟨rfl, fun _ => rfl⟩

theorem DeliveryStep.trans (a b c : DeliveryRow) (h : DeliveryStep a b) (h' : DeliveryStep b c) :
    DeliveryStep a c := by
  obtain ⟨hb, hab⟩ := h
  obtain ⟨hc, hbc⟩ := h'
  refine ⟨by rw [hc, hb], fun ha => ?_⟩
  have hba := hab ha
  rw [hbc (by rw [hba]; exact ha), hba]

/-- A delivery that is not decided for good can take any status. -/
theorem deliveryStep_open {d : DeliveryRow} (h : d.status ≠ .settled ∧ d.status ≠ .duplicate)
    (status : Status) (reason : Reason) (attempts : ℕ) :
    DeliveryStep d { d with status, reason, attempts } :=
  ⟨rfl, fun hd => absurd hd (not_or.mpr h)⟩

theorem deliveryStep_dead (d : DeliveryRow) : DeliveryStep d (deadRow d) := by
  unfold deadRow
  split_ifs with h
  · exact deliveryStep_open (by rw [h]; simp) .failed .dispatchRetriesExhausted d.attempts
  · exact .refl d

/-- **What becomes of the rows of a store**: none is lost. -/
structure Evolves (s s' : Store) : Prop where
  reservations : s.reservations.Kept HoldStep s'.reservations
  deliveries : s.deliveries.Kept DeliveryStep s'.deliveries

theorem Evolves.refl (s : Store) : Evolves s s := ⟨.refl .refl _, .refl .refl _⟩

theorem Evolves.trans (a b c : Store) (h : Evolves a b) (h' : Evolves b c) : Evolves a c :=
  ⟨h.reservations.trans HoldStep.trans h'.reservations,
    h.deliveries.trans DeliveryStep.trans h'.deliveries⟩

theorem kept_hold {s : Store} {k : Key2} {r : ReservationRow} {hd : Hold}
    (hr : s.reservations.find? k = some r) (hh : r.state = .held) :
    s.reservations.Kept HoldStep (s.reservations.put { r with state := hd }) := by
  have hfind : s.reservations.find? (ReservationRow.pk { r with state := hd }) = some r := by
    have hk : r.pk = k := Table.find?_key hr
    rw [← hk] at hr; exact hr
  exact .put_old .refl hfind ⟨rfl, Or.inr hh⟩

theorem kept_delivery {s : Store} {k : Key2} {d d' : DeliveryRow}
    (hd : s.deliveries.find? k = some d) (h : DeliveryStep d d') :
    s.deliveries.Kept DeliveryStep (s.deliveries.put d') := by
  have hk : d'.pk = k := by
    rw [h.1]
    have hk : d.pk = k := Table.find?_key hd
    exact hk
  exact .put_old .refl (by rw [hk]; exact hd) h

/-- **One change keeps the rows.** -/
theorem evolves_change {H : Digest} {o : Op} {s s' : Store} (hc : Change H s o s') : Evolves s s' := by
  cases hc with
  | seeded h =>
    have hr : s'.reservations = s.reservations := by rw [h.rest]
    have hd : s'.deliveries = s.deliveries := by rw [h.rest]
    exact ⟨by rw [hr]; exact .refl .refl _, by rw [hd]; exact .refl .refl _⟩
  | held c hv hc hk hs hb hck hid ha => exact ⟨.put_new .refl hid, .refl .refl _⟩
  | accepted hv hk hf => exact ⟨.refl .refl _, .put_new .refl hf.delivery⟩
  | seen dl hd hs => exact ⟨.refl .refl _, kept_delivery hd ⟨rfl, fun _ => rfl⟩⟩
  | decided dl status reason hd hs =>
    exact ⟨.refl .refl _, kept_delivery hd (deliveryStep_open (by rw [hs]; simp) _ _ _)⟩
  | settled dl p r hd hs hp hv hr hh =>
    exact ⟨kept_hold hr hh, kept_delivery hd (deliveryStep_open (by rw [hs]; simp) _ _ _)⟩
  | released r hr hh => exact ⟨kept_hold hr hh, .refl .refl _⟩
  | died o ho hj =>
    refine ⟨.refl .refl _, .modify .refl (fun d => ?_) _ fun d _ => deliveryStep_dead d⟩
    rw [(deliveryStep_dead d).1]; rfl
  | reopened dl hd hs =>
    refine ⟨.refl .refl _, kept_delivery hd (deliveryStep_open ?_ _ _ dl.attempts)⟩
    rcases hs with hs | hs <;> rw [hs] <;> simp
  | _ => exact ⟨.refl .refl _, .refl .refl _⟩

theorem evolves_run {H : Digest} (cs : List Call) (s : Store) : Evolves s (run H cs s) :=
  run_rel (A := fun _ => True) .refl .trans (fun _ _ _ _ hc => evolves_change hc) cs s
    fun _ _ => trivial

/-! ### What a verdict says -/

/-- The receipt is valid evidence for the reservation. -/
structure Matches (p : Receipt) (r : ReservationRow) : Prop where
  version : p.version = 1
  duration : 1000 ≤ p.durationMS ∧ p.durationMS ≤ 120000
  screen : r.screen = p.screenID
  window : r.created ≤ p.playedAt ∧ p.playedAt ≤ r.expires

theorem receiptReason_none {now : Int} {p : Receipt} (h : receiptReason now p = .none) :
    p.version = 1 ∧ (1000 ≤ p.durationMS ∧ p.durationMS ≤ 120000) ∧ p.playedAt ≤ now + 60000 := by
  unfold receiptReason at h
  split_ifs at h with h₁ h₂ h₃
  refine ⟨by simpa using h₁, ?_, by omega⟩
  omega

theorem reservationReason_none {p : Receipt} {r : Reservation}
    (h : reservationReason p (some r) = .none) :
    r.screen = p.screenID ∧ (r.created ≤ p.playedAt ∧ p.playedAt ≤ r.expires) ∧ r.state ≠ .released := by
  simp only [reservationReason] at h
  split_ifs at h with h₁ h₂ h₃
  refine ⟨by simpa using h₁, by omega, h₃⟩

/-- **A receipt counts only if it matches**: on a held reservation it settles, on a settled one it is a
duplicate. -/
theorem verdict_matches {s : Store} {tenant : String} {now : Int} {body : Text Receipt}
    {status : Status} {reason : Reason} (hv : verdict s tenant now body = (status, reason))
    (hs : status ≠ .quarantined) :
    ∃ p r, body = .json p ∧ s.reservations.find? (tenant, p.reservationID) = some r ∧ Matches p r ∧
      (r.state = .held ∧ status = .settled ∨ r.state = .settled ∧ status = .duplicate) := by
  cases body with
  | other raw => cases hv; exact absurd rfl hs
  | json p =>
    by_cases hr : receiptReason now p = .none
    · rw [verdict_json s tenant hr] at hv
      cases hfr : s.reservations.find? (tenant, p.reservationID) with
      | none => rw [hfr] at hv; cases hv; exact absurd rfl hs
      | some r =>
        rw [hfr] at hv
        by_cases hrr : reservationReason p (some r.toReservation) = .none
        · obtain ⟨hver, hdur, -⟩ := receiptReason_none hr
          obtain ⟨hscr, hwin, hrel⟩ := reservationReason_none hrr
          refine ⟨p, r, rfl, hfr, ⟨hver, hdur, hscr, hwin⟩, ?_⟩
          simp only [hrr, ne_eq, not_true_eq_false, if_false] at hv
          split_ifs at hv with hh
          · cases hv; exact Or.inl ⟨hh, rfl⟩
          · cases hv
            right
            refine ⟨?_, rfl⟩
            cases hst : r.state with
            | held => exact absurd hst hh
            | settled => rfl
            | released => exact absurd hst hrel
        · simp only [ne_eq, hrr, not_false_eq_true, if_true] at hv
          cases hv; exact absurd rfl hs
    · simp only [verdict, Text.unmarshal, ne_eq, hr, not_false_eq_true, if_true] at hv
      cases hv; exact absurd rfl hs

theorem verdict_ne_accepted {s : Store} {tenant : String} {now : Int} {body : Text Receipt}
    {status : Status} {reason : Reason} (hv : verdict s tenant now body = (status, reason)) :
    status ≠ .accepted := by
  rintro rfl
  obtain ⟨p, r, -, -, -, ⟨-, h⟩ | ⟨-, h⟩⟩ := verdict_matches hv (by simp)
  · cases h
  · cases h

theorem verdict_ne_failed {s : Store} {tenant : String} {now : Int} {body : Text Receipt}
    {status : Status} {reason : Reason} (hv : verdict s tenant now body = (status, reason)) :
    status ≠ .failed := by
  rintro rfl
  obtain ⟨p, r, -, -, -, ⟨-, h⟩ | ⟨-, h⟩⟩ := verdict_matches hv (by simp)
  · cases h
  · cases h

/-! ### The invariant -/

/-- The delivery settled reservation `k`. -/
def settles (k : Key2) (d : DeliveryRow) : Bool := d.tenant = k.1 ∧ d.status = .settled ∧ d.names k.2

/-- Reservation `k` is settled. -/
def isSettled (s : Store) (k : Key2) : Bool := (s.reservations.find? k).any fun r => r.state = .settled

/-- The delivery is valid evidence for a settled reservation of its tenant. -/
def Backed (s : Store) (d : DeliveryRow) : Prop :=
  ∃ p r, d.payload = .json p ∧ s.reservations.find? (d.tenant, p.reservationID) = some r ∧
    Matches p r ∧ r.state = .settled

/-- **One settled delivery for each settled reservation**, and evidence for every final delivery. -/
structure ChargedOnce (s : Store) : Prop where
  once : ∀ k, s.deliveries.count (settles k) = if isSettled s k then 1 else 0
  backed : ∀ d ∈ s.deliveries, d.status = .settled ∨ d.status = .duplicate → Backed s d

/-! ### One change keeps it -/

section Step

variable {s s' : Store}

theorem settles_congr {d d' : DeliveryRow} (h : DeliveryStep d d')
    (hs : d'.status = .settled ↔ d.status = .settled) (k : Key2) : settles k d' = settles k d := by
  have ht : d'.tenant = d.tenant := by rw [h.1]
  have hn : d'.names k.2 = d.names k.2 := by unfold DeliveryRow.names; rw [h.1]
  unfold settles
  rw [ht, hn]
  simp only [hs]

theorem settles_open {d : DeliveryRow} (h : d.status ≠ .settled) (k : Key2) : settles k d = false := by
  unfold settles
  rw [decide_eq_false_iff_not]
  exact fun hd => h hd.2.1

theorem Backed.mono {d d' : DeliveryRow} (h : Backed s d)
    (hres : s.reservations.Kept HoldStep s'.reservations) (ht : d'.tenant = d.tenant)
    (hp : d'.payload = d.payload) : Backed s' d' := by
  obtain ⟨p, r, hpay, hr, hm, hst⟩ := h
  obtain ⟨r', hr', hstep⟩ := hres _ r hr
  have hrr : r' = r := hstep.eq_of_settled hst
  subst hrr
  exact ⟨p, r', by rw [hp]; exact hpay, by rw [ht]; exact hr', hm, hst⟩

theorem isSettled_of_find {k : Key2} {r : ReservationRow} (hr : s.reservations.find? k = some r) :
    isSettled s k = decide (r.state = .settled) := by unfold isSettled; rw [hr]; rfl

theorem isSettled_of_none {k : Key2} (hr : s.reservations.find? k = none) : isSettled s k = false := by
  unfold isSettled; rw [hr]; rfl

/-- Writing a reservation whose state is not `settled` leaves what is settled as it was, if the key
was not settled before. -/
theorem isSettled_put {r : ReservationRow} (hs : s'.reservations = s.reservations.put r)
    (hr : r.state ≠ .settled) (hbefore : isSettled s r.pk = false) (k : Key2) :
    isSettled s' k = isSettled s k := by
  by_cases hk : r.pk = k
  · subst hk
    have hfind : s'.reservations.find? r.pk = some r := by rw [hs]; exact Table.find?_put_self _ r
    rw [hbefore, isSettled_of_find hfind, decide_eq_false_iff_not]
    exact hr
  · unfold isSettled; rw [hs, Table.find?_put_ne hk]

namespace ChargedOnce

theorem empty : ChargedOnce Store.empty where
  once _ := rfl
  backed d hd := absurd hd (Table.not_mem_empty d)

/-- Reservations change as they may, none becomes settled, deliveries stay. -/
theorem reservations (h : ChargedOnce s) (hdel : s'.deliveries = s.deliveries)
    (hres : s.reservations.Kept HoldStep s'.reservations)
    (hset : ∀ k, isSettled s' k = isSettled s k) : ChargedOnce s' where
  once k := by rw [hdel, hset]; exact h.once k
  backed d hd hf := (h.backed d (hdel ▸ hd) hf).mono hres rfl rfl

/-- A delivery changes without becoming settled, reservations stay. -/
theorem delivery (h : ChargedOnce s) {k : Key2} {d d' : DeliveryRow}
    (hd : s.deliveries.find? k = some d) (hstep : DeliveryStep d d')
    (hdel : s'.deliveries = s.deliveries.put d') (hres : s'.reservations = s.reservations)
    (hs : d'.status = .settled ↔ d.status = .settled)
    (hdup : d'.status = .duplicate → d.status = .duplicate ∨ Backed s d') : ChargedOnce s' := by
  have hkeep : s.reservations.Kept HoldStep s'.reservations := by rw [hres]; exact .refl .refl _
  have hfind : s.deliveries.find? d'.pk = some d := by
    have hk : d.pk = k := Table.find?_key hd
    rw [hstep.1]
    rw [← hk] at hd; exact hd
  have hmem : d ∈ s.deliveries := Table.mem_of_find? hd
  have ht : d'.tenant = d.tenant := by rw [hstep.1]
  have hp : d'.payload = d.payload := by rw [hstep.1]
  refine ⟨fun k => ?_, fun x hx hf => ?_⟩
  · have hcount : s'.deliveries.count (settles k) = s.deliveries.count (settles k) := by
      rw [hdel]
      exact Table.sum_put_same _ hfind (by rw [settles_congr hstep hs])
    have hset : isSettled s' k = isSettled s k := by unfold isSettled; rw [hres]
    rw [hcount, hset]; exact h.once k
  · rw [hdel] at hx
    rcases Table.mem_put.mp hx with rfl | ⟨hx, -⟩
    · rcases hf with hf | hf
      · exact (h.backed d hmem (Or.inl (hs.mp hf))).mono hkeep ht hp
      · rcases hdup hf with hf | hb
        · exact (h.backed d hmem (Or.inr hf)).mono hkeep ht hp
        · exact hb.mono hkeep rfl rfl
    · exact (h.backed x hx hf).mono hkeep rfl rfl

/-- A new delivery that is not decided. -/
theorem accepted (h : ChargedOnce s) (d : DeliveryRow) (hd : s.deliveries.find? d.pk = none)
    (hdel : s'.deliveries = s.deliveries.put d) (hres : s'.reservations = s.reservations)
    (hs : d.status = .accepted) : ChargedOnce s' := by
  refine ⟨fun k => ?_, fun x hx hf => ?_⟩
  · have hcount : s'.deliveries.count (settles k) = s.deliveries.count (settles k) := by
      rw [hdel]
      refine (Table.sum_put_new _ hd).trans ?_
      rw [settles_open (by rw [hs]; simp)]; rfl
    have hset : isSettled s' k = isSettled s k := by unfold isSettled; rw [hres]
    rw [hcount, hset]; exact h.once k
  · rw [hdel] at hx
    rcases Table.mem_put.mp hx with rfl | ⟨hx, -⟩
    · rw [hs] at hf; simp at hf
    · exact (h.backed x hx hf).mono (by rw [hres]; exact .refl .refl _) rfl rfl

/-- The charge itself: the hold and the delivery become settled together. -/
theorem settled (h : ChargedOnce s) {tenant id : String} {dl : DeliveryRow} {p : Receipt}
    {r : ReservationRow} {d : ProcessDraw} (hd : s.deliveries.find? (tenant, id) = some dl)
    (hs : dl.status = .accepted) (hp : dl.payload = .json p)
    (hr : s.reservations.find? (tenant, p.reservationID) = some r) (hh : r.state = .held)
    (hm : Matches p r) : ChargedOnce (deciding (settling s r) dl .settled .matched d) := by
  have hpk : dl.pk = (tenant, id) := Table.find?_key hd
  have ht : dl.tenant = tenant := congrArg Prod.fst hpk
  have hrk : r.pk = (tenant, p.reservationID) := Table.find?_key hr
  have hfr : ∀ k, (deciding (settling s r) dl .settled .matched d).reservations.find? k =
      if (tenant, p.reservationID) = k then some { r with state := .settled }
      else s.reservations.find? k := fun k => by
    rw [← hrk]; exact Table.find?_put _ { r with state := .settled } k
  have hkeep : s.reservations.Kept HoldStep (settling s r).reservations := kept_hold hr hh
  have hfind : s.deliveries.find? (decidedRow dl .settled .matched).pk = some dl := by
    rw [← hpk] at hd; exact hd
  refine ⟨fun k => ?_, fun x hx hf => ?_⟩
  · have hold : settles k dl = false := settles_open (by rw [hs]; simp) k
    have hnew : settles k (decidedRow dl .settled .matched) = decide ((tenant, p.reservationID) = k) := by
      unfold settles DeliveryRow.names
      simp only [decidedRow, hp, ht, true_and, beq_iff_eq]
      exact decide_eq_decide.mpr (Prod.ext_iff (x := (tenant, p.reservationID)) (y := k)).symm
    have hsum : (s.deliveries.put (decidedRow dl .settled .matched)).count (settles k) =
        s.deliveries.count (settles k) + if (tenant, p.reservationID) = k then 1 else 0 := by
      have := Table.sum_put_old (fun x => if settles k x then 1 else 0) hfind
      simp only [hold, hnew, decide_eq_true_eq, Bool.false_eq_true, if_false, add_zero] at this
      exact this
    show (s.deliveries.put (decidedRow dl .settled .matched)).count (settles k) = _
    rw [hsum, h.once k]
    by_cases hk : (tenant, p.reservationID) = k
    · -- the one reservation that was held and is settled now
      have hafter : isSettled (deciding (settling s r) dl .settled .matched d) k = true := by
        rw [isSettled_of_find (r := { r with state := .settled }) (by rw [hfr, if_pos hk])]
        rfl
      have hbefore : isSettled s k = false := by
        rw [← hk, isSettled_of_find hr, hh]; rfl
      rw [hafter, hbefore, if_pos hk]; rfl
    · have hsame : isSettled (deciding (settling s r) dl .settled .matched d) k = isSettled s k := by
        unfold isSettled
        rw [hfr, if_neg hk]
      rw [hsame, if_neg hk, add_zero]
  · rcases Table.mem_put.mp hx with rfl | ⟨hx, -⟩
    · refine ⟨p, { r with state := .settled }, hp, ?_, ⟨hm.version, hm.duration, hm.screen, hm.window⟩,
        rfl⟩
      rw [hfr, if_pos]
      exact Prod.ext ht.symm rfl
    · exact (h.backed x hx hf).mono hkeep rfl rfl

/-- **One change keeps it.** -/
theorem change {H : Digest} {o : Op} (h : ChargedOnce s) (hc : Change H s o s') : ChargedOnce s' := by
  have hev := evolves_change hc
  cases hc with
  | seeded hs =>
    have hr : s'.reservations = s.reservations := by rw [hs.rest]
    exact h.reservations (by rw [hs.rest]) hev.reservations fun k => by unfold isSettled; rw [hr]
  | held c hv hc hk hs hb hck hid ha =>
    exact h.reservations rfl hev.reservations (isSettled_put rfl (by simp [newReservation])
      (isSettled_of_none hid))
  | accepted hv hk hf => exact h.accepted (newDelivery H _ _ _) hf.delivery rfl rfl rfl
  | seen dl hd hs =>
    have hstep : DeliveryStep dl { dl with attempts := dl.attempts + 1 } := ⟨rfl, fun _ => rfl⟩
    exact h.delivery hd hstep rfl rfl Iff.rfl Or.inl
  | @decided tenant id _ dl status reason hd hs hv hne =>
    refine h.delivery hd (deliveryStep_open (by rw [hs]; simp) _ _ _) rfl rfl ?_ fun hdup => Or.inr ?_
    · rw [hs]; exact ⟨fun hst => absurd hst hne, by simp⟩
    · have hstatus : status = .duplicate := hdup
      obtain ⟨p, r, hp, hr, hm, ⟨-, hst⟩ | ⟨hst, -⟩⟩ := verdict_matches hv (by rw [hstatus]; simp)
      · rw [hstatus] at hst; cases hst
      · have hpk : dl.pk = (tenant, id) := Table.find?_key hd
        have ht : dl.tenant = tenant := congrArg Prod.fst hpk
        rw [← ht] at hr
        exact ⟨p, r, hp, hr, hm, hst⟩
  | settled dl p r hd hs hp hv hr hh =>
    obtain ⟨p', r', hp', hr', hm, -⟩ := verdict_matches hv (by simp)
    cases hp.symm.trans hp'
    cases hr.symm.trans hr'
    exact h.settled hd hs hp hr hh hm
  | released r hr hh =>
    have hrk : r.pk = _ := Table.find?_key hr
    refine h.reservations rfl hev.reservations
      (isSettled_put (r := { r with state := .released }) rfl (by simp) ?_)
    show isSettled s r.pk = false
    rw [hrk, isSettled_of_find hr, hh]; rfl
  | @died j _ _ o ho hj =>
    cases hd : s.deliveries.find? (j.tenant, j.id) with
    | none => exact h.reservations (Table.modify_of_none _ hd) hev.reservations fun _ => rfl
    | some dl =>
      refine h.delivery hd (deliveryStep_dead dl) (Table.modify_of_find? _ hd) rfl ?_ ?_
      · unfold deadRow; split_ifs with hs <;> simp [hs]
      · unfold deadRow; split_ifs with hs
        · simp
        · exact Or.inl
  | reopened dl hd hs =>
    refine h.delivery hd (deliveryStep_open ?_ _ _ dl.attempts) rfl rfl ?_ ?_
    · rcases hs with hs | hs <;> rw [hs] <;> simp
    · rcases hs with hs | hs <;> rw [hs] <;> simp
    · simp
  | _ => exact h.reservations rfl hev.reservations fun _ => rfl

theorem run {H : Digest} (h : ChargedOnce s) (cs : List Call) : ChargedOnce (Run.run H cs s) :=
  run_invariant (A := fun _ => True) (fun _ _ _ _ h hc => h.change hc) cs s (fun _ _ => trivial) h

end ChargedOnce

end Step

/-! ### Runs -/

theorem names_iff {d : DeliveryRow} {id : String} :
    d.names id = true ↔ ∃ p, d.payload = .json p ∧ p.reservationID = id := by
  unfold DeliveryRow.names
  cases d.payload with
  | json p => simp
  | other raw => simp

/-- A delivery names one reservation. -/
theorem names_unique {d : DeliveryRow} {id id' : String} (h : d.names id = true) (h' : d.names id' = true) :
    id = id' := by
  obtain ⟨p, hp, rfl⟩ := names_iff.mp h
  obtain ⟨p', hp', rfl⟩ := names_iff.mp h'
  cases hp.symm.trans hp'
  rfl

/-- **One financial effect per reservation, backed by one valid receipt**: in the store `s` that a run
reaches, and from there to the store `s'` that any further run reaches. -/
theorem settled_exactly_once (H : Digest) (cs cs' : List Call) :
    let s := run H cs Store.empty
    let s' := run H cs' s
    (∀ r ∈ s.reservations, r.state = .settled →
      ∃! d, d ∈ s.deliveries ∧ d.tenant = r.tenant ∧ d.status = .settled ∧ d.names r.id) ∧
    (∀ d ∈ s.deliveries, d.status = .settled →
      ∃ r ∈ s.reservations, r.tenant = d.tenant ∧ d.names r.id ∧ r.state = .settled) ∧
    (∀ d ∈ s.deliveries, d.status = .settled ∨ d.status = .duplicate →
      ∃ p, d.payload = .json p ∧ ∃ r ∈ s.reservations, r.tenant = d.tenant ∧ r.id = p.reservationID ∧
        p.version = 1 ∧ 1000 ≤ p.durationMS ∧ p.durationMS ≤ 120000 ∧ r.screen = p.screenID ∧
        r.created ≤ p.playedAt ∧ p.playedAt ≤ r.expires ∧ r.state = .settled) ∧
    (∀ r ∈ s.reservations, ∃ r' ∈ s'.reservations, r'.tenant = r.tenant ∧ r'.id = r.id ∧
      r'.cost = r.cost ∧ r'.campaign = r.campaign ∧ r'.screen = r.screen ∧ r'.created = r.created ∧
      r'.expires = r.expires ∧
      (r'.state = r.state ∨ r.state = .held ∧ (r'.state = .settled ∨ r'.state = .released))) ∧
    (∀ d ∈ s.deliveries, ∃ d' ∈ s'.deliveries, d'.tenant = d.tenant ∧ d'.id = d.id ∧
      d'.eventID = d.eventID ∧ d'.fingerprint = d.fingerprint ∧ d'.payload = d.payload ∧
      (d.status = .settled ∨ d.status = .duplicate → d'.status = d.status)) := by
  intro s s'
  have h : ChargedOnce s := ChargedOnce.empty.run cs
  have hev : Evolves s s' := evolves_run cs' s
  refine ⟨fun r hr hst => ?_, fun d hd hst => ?_, fun d hd hst => ?_, fun r hr => ?_, fun d hd => ?_⟩
  · have hcount : s.deliveries.count (settles r.pk) = 1 := by
      rw [h.once, isSettled_of_find (Table.find?_of_mem hr), hst]; rfl
    obtain ⟨d, ⟨hd, hs⟩, huniq⟩ := Table.existsUnique_of_count hcount
    refine ⟨d, ⟨hd, of_decide_eq_true hs⟩, fun x hx => huniq x ⟨hx.1, decide_eq_true hx.2⟩⟩
  · obtain ⟨p, r, hp, hr, -, hrs⟩ := h.backed d hd (Or.inl hst)
    have hpk : r.pk = (d.tenant, p.reservationID) := Table.find?_key hr
    have hid : p.reservationID = r.id := (congrArg Prod.snd hpk).symm
    exact ⟨r, Table.mem_of_find? hr, congrArg Prod.fst hpk, names_iff.mpr ⟨p, hp, hid⟩, hrs⟩
  · obtain ⟨p, r, hp, hr, hm, hrs⟩ := h.backed d hd hst
    have hpk : r.pk = (d.tenant, p.reservationID) := Table.find?_key hr
    exact ⟨p, hp, r, Table.mem_of_find? hr, congrArg Prod.fst hpk, congrArg Prod.snd hpk, hm.version,
      hm.duration.1, hm.duration.2, hm.screen, hm.window.1, hm.window.2, hrs⟩
  · obtain ⟨r', hr', hstep, hst⟩ := hev.reservations r.pk r (Table.find?_of_mem hr)
    refine ⟨r', Table.mem_of_find? hr', ?_⟩
    refine ⟨by rw [hstep], by rw [hstep], by rw [hstep], by rw [hstep], by rw [hstep], by rw [hstep],
      by rw [hstep], ?_⟩
    rcases hst with hst | hst
    · exact Or.inl hst
    · cases hr's : r'.state with
      | held => exact Or.inl hst.symm
      | settled => exact Or.inr ⟨hst, Or.inl rfl⟩
      | released => exact Or.inr ⟨hst, Or.inr rfl⟩
  · obtain ⟨d', hd', hstep, hst⟩ := hev.deliveries d.pk d (Table.find?_of_mem hd)
    refine ⟨d', Table.mem_of_find? hd', ?_⟩
    exact ⟨by rw [hstep], by rw [hstep], by rw [hstep], by rw [hstep], by rw [hstep], hst⟩

end Afterglow.Core.Settlement
