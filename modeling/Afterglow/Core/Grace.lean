import Afterglow.Core.Receipts

/-! # Evidence and the expiry sweep

A hold is released by the clock alone: `ReleaseExpired` takes no notice of receipts that are accepted and
not yet processed. So a receipt that was in time can still find its hold released. What holds is that
nothing but such a release stands in its way: from the `Accept` on, the hold stays (`Standing`) until a call
of `release` ends it, at a clock past the grace period. -/

namespace Afterglow.Core.Grace

open Afterglow.Sql.Rows Afterglow.Sql.Txn Afterglow.Core.Model Afterglow.Core.Statements
open Afterglow.Core.Store Afterglow.Core.Outcome Afterglow.Core.Run Afterglow.Core.Settlement
open Afterglow.Core.Receipts (acceptCall acceptCall_cases)

/-- The clock a call reads. -/
def clock? (c : Call) : Option Int :=
  match c.op with
  | .reserve _ _ _ d => some d.created
  | .accept _ _ d => some d.created
  | .process _ _ d => some d.now
  | .release _ _ now _ => some now
  | .claim _ now _ => some now
  | .quarantineTransport _ _ _ _ now => some now
  | _ => none

/-- The call releases reservation `kr`, which expired more than the grace period before its clock. -/
def Releases (H : Digest) (kr : Key2) (expires : Int) (s : Store) (c : Call) : Prop :=
  (∃ now d, c.op = .release kr.1 kr.2 now d ∧ expires + 900000 < now) ∧
    ∃ r, (c.step H s).reservations.find? kr = some r ∧ r.state = .released

/-- **The receipt has its hold**: reservation `kr` is not released, and the delivery `k` with payload `p`
was not quarantined for that. -/
structure Standing (k kr : Key2) (expires : Int) (p : Receipt) (s : Store) : Prop where
  hold : ∃ r, s.reservations.find? kr = some r ∧ r.expires = expires ∧ r.state ≠ .released
  delivery : ∃ d, s.deliveries.find? k = some d ∧ d.payload = .json p ∧ d.reason ≠ .reservationReleased

/-- A receipt is refused for a release only if its hold is released. -/
theorem verdict_released {s : Store} {tenant : String} {now : Int} {p : Receipt} {status : Status}
    (h : verdict s tenant now (.json p) = (status, .reservationReleased)) :
    ∃ r, s.reservations.find? (tenant, p.reservationID) = some r ∧ r.state = .released := by
  by_cases hr : receiptReason now p = .none
  · rw [verdict_json s tenant hr] at h
    cases hfind : s.reservations.find? (tenant, p.reservationID) with
    | none => rw [hfind] at h; cases h
    | some r =>
      rw [hfind] at h
      refine ⟨r, rfl, ?_⟩
      by_contra hstate
      simp only [reservationReason] at h
      split_ifs at h <;> simp_all
  · simp only [verdict, Text.unmarshal, ne_eq, hr, not_false_eq_true, if_true, Prod.mk.injEq] at h
    have hreason := h.2
    unfold receiptReason at hreason
    split_ifs at hreason

section Step

variable {H : Digest} {k kr : Key2} {expires : Int} {p : Receipt} {s s' : Store}

/-- The hold after a change: it stands, or the change released it. -/
theorem hold_change {o : Op} (hc : Change H s o s') {r : ReservationRow}
    (hr : s.reservations.find? kr = some r) (hst : r.state ≠ .released) :
    (∃ r', s'.reservations.find? kr = some r' ∧ r'.expires = r.expires ∧ r'.state ≠ .released) ∨
      (∃ now d, o = .release kr.1 kr.2 now d ∧ r.expires + 900000 < now) ∧
        ∃ r', s'.reservations.find? kr = some r' ∧ r'.state = .released := by
  have hsame : s'.reservations.find? kr = some r →
      ∃ r', s'.reservations.find? kr = some r' ∧ r'.expires = r.expires ∧ r'.state ≠ .released :=
    fun h => ⟨r, h, rfl, hst⟩
  cases hc with
  | seeded h => exact Or.inl (hsame (by rw [h.rest]; exact hr))
  | @held tenant key inp d c _ _ _ _ _ _ hid =>
    left
    refine hsame ?_
    have hk : (newReservation H tenant key inp d).pk ≠ kr := by
      intro hk
      rw [← hk] at hr
      cases hid.symm.trans hr
    exact (Table.find?_put_ne hk).trans hr
  | @settled tenant id d dl q x hd hs hq hv hx hh =>
    left
    have hxk : x.pk = (tenant, q.reservationID) := Table.find?_key hx
    by_cases hk : x.pk = kr
    · rw [← hk, hxk, hx] at hr
      cases hr
      refine ⟨{ r with state := .settled }, ?_, rfl, by simp⟩
      rw [← hk]
      exact Table.find?_put_self s.reservations { r with state := .settled }
    · refine hsame ?_
      exact (Table.find?_put_ne (r := { x with state := .settled }) hk).trans hr
  | @released tenant id now d x hx hh he =>
    have hxk : x.pk = (tenant, id) := Table.find?_key hx
    by_cases hk : x.pk = kr
    · right
      rw [← hk, hxk, hx] at hr
      cases hr
      refine ⟨⟨now, d, by rw [← hk, hxk], by omega⟩, { r with state := .released }, ?_, rfl⟩
      rw [← hk]
      exact Table.find?_put_self s.reservations { r with state := .released }
    · left
      refine hsame ?_
      exact (Table.find?_put_ne (r := { x with state := .released }) hk).trans hr
  | _ => exact Or.inl (hsame hr)

/-- The delivery after a change: its reason is another one as long as the hold is not released. -/
theorem reason_change {o : Op} (hc : Change H s o s') {d : DeliveryRow}
    (hd : s.deliveries.find? k = some d) (hp : d.payload = .json p) (hreason : d.reason ≠ .reservationReleased)
    (hhold : ∀ r, s.reservations.find? (k.1, p.reservationID) = some r → r.state ≠ .released) :
    ∃ d', s'.deliveries.find? k = some d' ∧ d'.payload = .json p ∧ d'.reason ≠ .reservationReleased := by
  have hsame : s'.deliveries.find? k = some d →
      ∃ d', s'.deliveries.find? k = some d' ∧ d'.payload = .json p ∧ d'.reason ≠ .reservationReleased :=
    fun h => ⟨d, h, hp, hreason⟩
  -- a delivery is written: the one under `k`, with the reason `hnew` allows, or another one
  have hput : ∀ (x x' : DeliveryRow) (kx : Key2), s.deliveries.find? kx = some x → x'.pk = x.pk →
      x'.payload = x.payload → (kx = k → x = d → x'.reason ≠ .reservationReleased) →
      s'.deliveries = s.deliveries.put x' →
      ∃ d', s'.deliveries.find? k = some d' ∧ d'.payload = .json p ∧ d'.reason ≠ .reservationReleased := by
    intro x x' kx hx hpk hpay hnew hdel
    have hkx : x'.pk = kx := hpk.trans (Table.find?_key hx)
    by_cases hk : kx = k
    · have hxd : x = d := by
        rw [hk, hd] at hx
        exact (Option.some.inj hx).symm
      refine ⟨x', ?_, by rw [hpay, hxd]; exact hp, hnew hk hxd⟩
      rw [hdel, ← hk, ← hkx]
      exact Table.find?_put_self _ x'
    · refine hsame ?_
      rw [hdel]
      exact (Table.find?_put_ne fun h => hk (hkx.symm.trans h)).trans hd
  cases hc with
  | seeded h => exact hsame (by rw [h.rest]; exact hd)
  | @accepted tenant q dr hv hk hf =>
    refine hsame ?_
    have hne : (newDelivery H tenant q dr).pk ≠ k := by
      intro hk
      rw [← hk] at hd
      cases hf.delivery.symm.trans hd
    exact (Table.find?_put_ne hne).trans hd
  | seen x hx hs =>
    exact hput x { x with attempts := x.attempts + 1 } _ hx rfl rfl (fun _ hxd => hxd ▸ hreason) rfl
  | @decided tenant id dr x status reason hx hs hv hne =>
    refine hput x (decidedRow x status reason) _ hx rfl rfl (fun hk hxd hrel => ?_) rfl
    have hrel' : reason = .reservationReleased := hrel
    rw [hrel', hxd, hp] at hv
    obtain ⟨r, hr, hrs⟩ := verdict_released hv
    refine hhold r ?_ hrs
    rw [← hk]
    exact hr
  | settled x q r hx =>
    exact hput x (decidedRow x .settled .matched) _ hx rfl rfl (fun _ _ => by simp [decidedRow]) rfl
  | @died j next dr o ho hj =>
    cases hx : s.deliveries.find? (j.tenant, j.id) with
    | none => exact hsame (by rw [← hd]; exact congrArg (Table.find? · k) (Table.modify_of_none deadRow hx))
    | some x =>
      have hstep := deliveryStep_dead x
      refine hput x (deadRow x) _ hx (by rw [hstep.1]; rfl) (by rw [hstep.1]) (fun _ hxd => ?_)
        (Table.modify_of_find? deadRow hx)
      unfold deadRow
      split_ifs
      · simp
      · exact hxd ▸ hreason
  | reopened x hx hs => exact hput x (reopenedRow x) _ hx rfl rfl (fun _ _ => by simp [reopenedRow]) rfl
  | _ => exact hsame hd

/-- **One call leaves the receipt its hold, or releases it.** -/
theorem Standing.step {tenant : String} {expires : Int} {id : String}
    (h : Standing (tenant, id) (tenant, p.reservationID) expires p s) (c : Call) :
    Standing (tenant, id) (tenant, p.reservationID) expires p (c.step H s) ∨
      Releases H (tenant, p.reservationID) expires s c := by
  obtain ⟨⟨r, hr, hexp, hst⟩, d, hd, hp, hreason⟩ := h
  have hc := c.op.change H c.fault s
  have hdel := reason_change hc hd hp hreason fun x hx => by
    cases hr.symm.trans hx
    exact hst
  rcases hold_change hc hr hst with ⟨r', hr', hexp', hst'⟩ | ⟨⟨now, dr, hop, hlate⟩, hrel⟩
  · exact Or.inl ⟨⟨r', hr', hexp'.trans hexp, hst'⟩, hdel⟩
  · exact Or.inr ⟨⟨now, dr, hop, by omega⟩, hrel⟩

/-- **A run leaves the receipt its hold, or one of its calls releases it.** -/
theorem Standing.run {tenant : String} {expires : Int} {id : String} : ∀ (cs : List Call) (s : Store),
    Standing (tenant, id) (tenant, p.reservationID) expires p s →
    Standing (tenant, id) (tenant, p.reservationID) expires p (Run.run H cs s) ∨
      ∃ a c b, cs = a ++ c :: b ∧ Releases H (tenant, p.reservationID) expires (Run.run H a s) c
  | [], s, h => Or.inl h
  | c :: cs, s, h => by
    rcases h.step (H := H) c with h | h
    · rcases Standing.run cs (c.step H s) h with h | ⟨a, x, b, rfl, h⟩
      · exact Or.inl h
      · exact Or.inr ⟨c :: a, x, b, rfl, h⟩
    · exact Or.inr ⟨[], c, cs, rfl, h⟩

end Step

/-! ### Runs -/

/-- An `Accept` that makes a delivery for a hold that stands. -/
theorem standing_of_accept {H : Digest} {s : Store} {tenant : String} {p : Receipt} {d : AcceptDraw}
    {fault : Option ℕ} {r : ReservationRow}
    (hacc : (acceptCall H tenant p d fault s).1 = .ok (d.id, false))
    (hr : s.reservations.find? (tenant, p.reservationID) = some r) (hh : r.state = .held) :
    Standing (tenant, d.id) (tenant, p.reservationID) r.expires p
      (acceptCall H tenant p d fault s).2 := by
  have hmade : ∀ x : Except Err (String × Bool) × Store, AcceptOut H tenant p d s x →
      x.1 = .ok (d.id, false) → Standing (tenant, d.id) (tenant, p.reservationID) r.expires p x.2 := by
    intro x hx hok
    cases hx with
    | made hv hk hf =>
      refine ⟨⟨r, hr, rfl, by rw [hh]; simp⟩, newDelivery H tenant p d, ?_, rfl, by simp [newDelivery]⟩
      exact Table.find?_put_self _ (newDelivery H tenant p d)
    | replayed => simp at hok
    | _ => cases hok
  rcases acceptCall_cases H tenant p d fault s with hx | hx
  · exact hmade _ hx hacc
  · rw [hx] at hacc
    cases hacc

/-- **Only a release past the grace period costs a receipt its hold.** An `Accept` commits a receipt for a
hold, and the calls `mid` and then a `Process` of the delivery follow, the clock never going backwards. If
the delivery then is quarantined because its reservation was released, a call of `mid` released it, at a
clock past the grace period; so the `Process` itself came after the grace period. -/
theorem evidence_lost_only_to_release (H : Digest) (pre mid : List Call) (tenant : String) (p : Receipt)
    (d : AcceptDraw) (fault fault' : Option ℕ) (dp : ProcessDraw) (r : ReservationRow)
    (hacc : (acceptCall H tenant p d fault (run H pre .empty)).1 = .ok (d.id, false))
    (hr : (run H pre .empty).reservations.find? (tenant, p.reservationID) = some r) (hh : r.state = .held)
    (hclock : (mid.filterMap clock? ++ [dp.now]).Pairwise (· ≤ ·)) :
    let s := (acceptCall H tenant p d fault (run H pre .empty)).2
    let s' := Call.step H (run H mid s) ⟨.process tenant d.id dp, fault'⟩
    ∀ dl, s'.deliveries.find? (tenant, d.id) = some dl → dl.reason = .reservationReleased →
      (∃ a c b, mid = a ++ c :: b ∧ Releases H (tenant, p.reservationID) r.expires (run H a s) c) ∧
        r.expires + 900000 < dp.now := by
  intro s s' dl hdl hreason
  have hstart := standing_of_accept hacc hr hh
  rcases Standing.run (H := H) mid s hstart with hend | ⟨a, c, b, hsplit, hrel⟩
  · rcases hend.step (H := H) ⟨.process tenant d.id dp, fault'⟩ with hlast | ⟨⟨now, dr, hop, -⟩, -⟩
    · obtain ⟨d', hd', -, hne⟩ := hlast.delivery
      cases hdl.symm.trans hd'
      exact absurd hreason hne
    · cases hop
  · refine ⟨⟨a, c, b, hsplit, hrel⟩, ?_⟩
    obtain ⟨⟨now, dr, hop, hlate⟩, -⟩ := hrel
    have hnow : now ∈ mid.filterMap clock? := by
      rw [List.mem_filterMap]
      exact ⟨c, by rw [hsplit]; simp, by rw [clock?, hop]⟩
    have hle : now ≤ dp.now := (List.pairwise_append.mp hclock).2.2 now hnow dp.now (List.mem_singleton_self _)
    omega

/-- A hold of demo's on `sea-01` from 0 to 900000. -/
def held : List Call :=
  [⟨.seed "demo", none⟩,
    ⟨.reserve "demo" "key-0001" ⟨"cmp-cascade", "sea-01", 10000⟩ ⟨"r1", 0, 0, ⟨"a1", 0⟩⟩, none⟩]

/-- A play of five seconds within the hold. -/
def play : Receipt := ⟨1, "event-1", "r1", "sea-01", 450000, 5000⟩

/-- The sweep, just past the grace period. -/
def sweep : List Call := [⟨.release "demo" "r1" 1800001 ⟨"a3", 1800001⟩, none⟩]

/-- Digests that tell events apart by their names. -/
def byName : Digest := ⟨fun i => i.screenID, fun r => r.eventID⟩

theorem evidence_lost_only_to_release_sweep :
    let s := (acceptCall byName "demo" play ⟨"d1", 1800000, [], ⟨"a2", 1800000⟩⟩ none
      (run byName held .empty)).2
    (∃ a c b, sweep = a ++ c :: b ∧ Releases byName ("demo", "r1") 900000 (run byName a s) c) ∧
      (900000 : Int) + 900000 < 1800002 :=
  evidence_lost_only_to_release byName held sweep "demo" play ⟨"d1", 1800000, [], ⟨"a2", 1800000⟩⟩ none none
    ⟨1800002, ⟨"a4", 1800002⟩⟩
    (newReservation byName "demo" "key-0001" ⟨"cmp-cascade", "sea-01", 10000⟩ ⟨"r1", 0, 0, ⟨"a1", 0⟩⟩)
    (by decide +kernel) (by decide +kernel) rfl (by decide)
    ⟨"demo", "d1", "event-1", "event-1", .json play, .quarantined, .reservationReleased, 1800000, 1⟩
    (by decide +kernel) rfl

/-- **Evidence in time can be lost to the sweep**: the receipt is accepted for a hold, within its grace
period, with valid evidence, at clock 1800000; the sweep comes a millisecond later, and the `Process` that
follows quarantines the delivery because its reservation was released. -/
theorem evidence_lost_to_sweep :
    let s := run byName held .empty
    let x := acceptCall byName "demo" play ⟨"d1", 1800000, [], ⟨"a2", 1800000⟩⟩ none s
    let s' := Call.step byName (run byName sweep x.2) ⟨.process "demo" "d1" ⟨1800002, ⟨"a4", 1800002⟩⟩, none⟩
    x.1 = .ok ("d1", false) ∧
    (s.reservations.find? ("demo", "r1")).any (fun r => r.state = .held ∧ 1800000 ≤ r.expires + 900000 ∧
      r.screen = play.screenID ∧ r.created ≤ play.playedAt ∧ play.playedAt ≤ r.expires) = true ∧
    play.version = 1 ∧ (1000 ≤ play.durationMS ∧ play.durationMS ≤ 120000) ∧ play.playedAt ≤ 1800000 ∧
    s'.deliveries.find? ("demo", "d1") =
      some ⟨"demo", "d1", "event-1", "event-1", .json play, .quarantined, .reservationReleased, 1800000, 1⟩ := by
  decide +kernel

end Afterglow.Core.Grace
