import Afterglow.Core.Run

/-! # The ledger

Money is kept twice: as the running balances of a campaign and as the costs of its reservations.
`Balanced` says that the two agree, that every row passes the constraints the database checks, and that
every reservation has its campaign. One change keeps it (`Balanced.change`), so a run does, and under it
no constraint stops a `Process` or a release. -/

namespace Afterglow.Core.Ledger

open Afterglow.Sql.Rows Afterglow.Sql.Txn Afterglow.Core.Model Afterglow.Core.Statements
open Afterglow.Core.Store Afterglow.Core.Outcome Afterglow.Core.Run

/-- The cost of `r` if it is a reservation of campaign `k` in state `h`, else 0. -/
def share (k : Key2) (h : Hold) (r : ReservationRow) : Int :=
  if r.tenant = k.1 ∧ r.campaign = k.2 ∧ r.state = h then r.cost else 0

/-- The sum of the costs of the reservations of campaign `k` in state `h`. -/
def committed (s : Store) (k : Key2) (h : Hold) : Int := s.reservations.sum (share k h)

/-- **The ledger is exact.** -/
structure Balanced (s : Store) : Prop where
  campaign : ∀ r ∈ s.reservations, ∃ c, s.campaigns.find? (r.tenant, r.campaign) = some c
  cost : ∀ r ∈ s.reservations, 0 < r.cost
  reserved : ∀ k c, s.campaigns.find? k = some c → c.reserved = committed s k .held
  spent : ∀ k c, s.campaigns.find? k = some c → c.spent = committed s k .settled
  check : ∀ k c, s.campaigns.find? k = some c → c.check = .ok ()

/-! ### The constraints -/

/-- What it takes to pass the constraints of a campaign. -/
theorem check_ok_iff {c : CampaignRow} :
    c.check = .ok () ↔ (0 < c.budget ∧ c.budget < 2 ^ 63) ∧ 0 ≤ c.reserved ∧ 0 ≤ c.spent ∧
      c.reserved + c.spent ≤ c.budget := by
  unfold CampaignRow.check CampaignRow.ok int64
  constructor
  · intro h
    split_ifs at h with h₁ h₂
    simp only [Bool.not_eq_true', Bool.and_eq_true, decide_eq_true_eq, Bool.not_eq_false] at h₁ h₂
    omega
  · rintro ⟨⟨hb, hb'⟩, hr, hs, hle⟩
    have h₁ : (decide (-2 ^ 63 ≤ c.budget) && decide (c.budget < 2 ^ 63) &&
        (decide (-2 ^ 63 ≤ c.reserved) && decide (c.reserved < 2 ^ 63)) &&
        (decide (-2 ^ 63 ≤ c.spent) && decide (c.spent < 2 ^ 63)) &&
        (decide (-2 ^ 63 ≤ c.reserved + c.spent) && decide (c.reserved + c.spent < 2 ^ 63))) = true := by
      simp only [Bool.and_eq_true, decide_eq_true_eq]; omega
    have h₂ : (decide (0 < c.budget) && decide (0 ≤ c.reserved) && decide (0 ≤ c.spent) &&
        decide (c.reserved + c.spent ≤ c.budget)) = true := by
      simp only [Bool.and_eq_true, decide_eq_true_eq]; omega
    rw [h₁, h₂]; rfl

/-- A reservation with a positive cost passes the constraints. -/
theorem check_reservation {r : ReservationRow} (h : 0 < r.cost) : r.check = .ok () := by
  have hok : r.ok = true := decide_eq_true h
  unfold ReservationRow.check; rw [hok]; rfl

/-! ### The shares of one reservation -/

section Share

variable {k : Key2} {h : Hold} {r : ReservationRow}

theorem share_self : share (r.tenant, r.campaign) r.state r = r.cost := if_pos ⟨rfl, rfl, rfl⟩

theorem share_other (hk : (r.tenant, r.campaign) ≠ k) : share k h r = 0 :=
  if_neg fun hr => hk (Prod.ext hr.1 hr.2.1)

theorem share_state (hs : r.state ≠ h) : share k h r = 0 := if_neg fun hr => hs hr.2.2

theorem share_nonneg (hc : 0 < r.cost) : 0 ≤ share k h r := by
  unfold share; split_ifs <;> omega

end Share

/-- A reservation is part of what its campaign has committed in its state. -/
theorem cost_le_committed {s : Store} (hcost : ∀ r ∈ s.reservations, 0 < r.cost) {r : ReservationRow}
    (hr : r ∈ s.reservations) : r.cost ≤ committed s (r.tenant, r.campaign) r.state := by
  have hnonneg : ∀ x ∈ s.reservations.rows.map (share (r.tenant, r.campaign) r.state), 0 ≤ x := by
    intro x hx
    obtain ⟨y, hy, rfl⟩ := List.mem_map.mp hx
    exact share_nonneg (hcost y hy)
  have hmem : r.cost ∈ s.reservations.rows.map (share (r.tenant, r.campaign) r.state) :=
    List.mem_map.mpr ⟨r, hr, share_self⟩
  exact List.single_le_sum hnonneg _ hmem

/-- What a campaign has committed when a reservation `r` becomes `r'`. -/
theorem committed_put_old {s s' : Store} {r r' : ReservationRow}
    (hr : s.reservations.find? r'.pk = some r) (hs : s'.reservations = s.reservations.put r')
    (k : Key2) (h : Hold) : committed s' k h = committed s k h - share k h r + share k h r' := by
  have := Table.sum_put_old (share k h) hr
  unfold committed
  rw [hs]; omega

/-- What a campaign has committed when the reservation `r` is new. -/
theorem committed_put_new {s s' : Store} {r : ReservationRow}
    (hr : s.reservations.find? r.pk = none) (hs : s'.reservations = s.reservations.put r)
    (k : Key2) (h : Hold) : committed s' k h = committed s k h + share k h r := by
  unfold committed
  rw [hs]
  exact Table.sum_put_new (share k h) hr

/-! ### One change keeps the ledger -/

namespace Balanced

theorem empty : Balanced Store.empty where
  campaign r hr := absurd hr (Table.not_mem_empty r)
  cost r hr := absurd hr (Table.not_mem_empty r)
  reserved k c hc := by cases hc
  spent k c hc := by cases hc
  check k c hc := by cases hc

variable {s s' : Store}

/-- The ledger is about two tables. -/
theorem congr (h : Balanced s) (hc : s'.campaigns = s.campaigns)
    (hr : s'.reservations = s.reservations) : Balanced s' where
  campaign r hm := by rw [hc]; exact h.campaign r (hr ▸ hm)
  cost r hm := h.cost r (hr ▸ hm)
  reserved k c hk := by rw [hc] at hk; unfold committed; rw [hr]; exact h.reserved k c hk
  spent k c hk := by rw [hc] at hk; unfold committed; rw [hr]; exact h.spent k c hk
  check k c hk := h.check k c (hc ▸ hk)

/-- A campaign without a row has nothing committed. -/
theorem committed_none (h : Balanced s) {k : Key2} (hk : s.campaigns.find? k = none) (hd : Hold) :
    committed s k hd = 0 := by
  refine List.sum_eq_zero fun x hx => ?_
  obtain ⟨r, hr, rfl⟩ := List.mem_map.mp hx
  refine share_other fun hrk => ?_
  obtain ⟨c, hc⟩ := h.campaign r hr
  rw [hrk, hk] at hc; cases hc

theorem seeded {tenant : String} (h : Balanced s) (hs : Seeded tenant s s') : Balanced s' := by
  have hr : s'.reservations = s.reservations := by rw [hs.rest]
  have hsum : ∀ k hd, committed s' k hd = committed s k hd := fun k hd => by unfold committed; rw [hr]
  refine ⟨fun r hm => ?_, fun r hm => h.cost r (hr ▸ hm), fun k c hk => ?_, fun k c hk => ?_,
    fun k c hk => ?_⟩
  · obtain ⟨c, hc⟩ := h.campaign r (hr ▸ hm)
    exact ⟨c, hs.campaigns_kept _ c hc⟩
  · rcases hs.campaigns_new k c hk with hk | ⟨hnew, -, h0, -, -⟩
    · rw [hsum]; exact h.reserved k c hk
    · rw [hsum, h0, h.committed_none hnew]
  · rcases hs.campaigns_new k c hk with hk | ⟨hnew, -, -, h0, -⟩
    · rw [hsum]; exact h.spent k c hk
    · rw [hsum, h0, h.committed_none hnew]
  · rcases hs.campaigns_new k c hk with hk | ⟨-, -, -, -, hck⟩
    · exact h.check k c hk
    · exact hck

/-- A new hold: the campaign pays what the reservation adds. -/
theorem held {c : CampaignRow} {r : ReservationRow} {a : AuditRow} (h : Balanced s)
    (hc : s.campaigns.find? (r.tenant, r.campaign) = some c)
    (hck : CampaignRow.check { c with reserved := c.reserved + r.cost } = .ok ())
    (hid : s.reservations.find? r.pk = none) (hcost : 0 < r.cost) (hst : r.state = .held) :
    Balanced (holding s c r a) := by
  have hpk : CampaignRow.pk { c with reserved := c.reserved + r.cost } = (r.tenant, r.campaign) := by
    have hpk : c.pk = (r.tenant, r.campaign) := Table.find?_key hc
    exact hpk
  have hfind : ∀ k, (holding s c r a).campaigns.find? k =
      if (r.tenant, r.campaign) = k then some { c with reserved := c.reserved + r.cost }
      else s.campaigns.find? k := fun k => by
    rw [← hpk]; exact Table.find?_put _ _ k
  have hsum : ∀ k hd, committed (holding s c r a) k hd = committed s k hd + share k hd r :=
    committed_put_new hid rfl
  have hmem : ∀ x ∈ (holding s c r a).reservations, x = r ∨ x ∈ s.reservations := fun x hx =>
    (Table.mem_put.mp hx).imp_right (·.1)
  have hshare : share (r.tenant, r.campaign) .held r = r.cost := by rw [← hst]; exact share_self
  refine ⟨fun x hx => ?_, fun x hx => ?_, fun k c' hk => ?_, fun k c' hk => ?_, fun k c' hk => ?_⟩
  · rw [hfind]
    split_ifs
    · exact ⟨_, rfl⟩
    · rcases hmem x hx with rfl | hx
      · exact absurd rfl ‹_›
      · exact h.campaign x hx
  · rcases hmem x hx with rfl | hx
    · exact hcost
    · exact h.cost x hx
  · rw [hfind] at hk
    split_ifs at hk with hk'
    · cases hk
      rw [hsum, ← hk', hshare, ← h.reserved _ c hc]
    · rw [hsum, share_other hk', add_zero]; exact h.reserved k c' hk
  · rw [hfind] at hk
    split_ifs at hk with hk'
    · cases hk
      rw [hsum, share_state (by rw [hst]; decide), add_zero, ← hk']
      exact h.spent _ c hc
    · rw [hsum, share_other hk', add_zero]; exact h.spent k c' hk
  · rw [hfind] at hk
    split_ifs at hk
    · cases hk; exact hck
    · exact h.check k c' hk

/-- A hold that ends: its campaign is changed by `f`, which moves the reservation's share. -/
theorem ended {r : ReservationRow} {f : CampaignRow → CampaignRow} (h : Balanced s) (hd : Hold)
    (hr : s.reservations.find? r.pk = some r)
    (hres : s'.reservations = s.reservations.put { r with state := hd })
    (hcam : s'.campaigns = s.campaigns.modify (r.tenant, r.campaign) f)
    (hf : ∀ c, (f c).pk = c.pk)
    (hheld : ∀ c, (f c).reserved = c.reserved - share (r.tenant, r.campaign) .held r +
      share (r.tenant, r.campaign) .held { r with state := hd })
    (hsettled : ∀ c, (f c).spent = c.spent - share (r.tenant, r.campaign) .settled r +
      share (r.tenant, r.campaign) .settled { r with state := hd })
    (hck : ∀ c, s.campaigns.find? (r.tenant, r.campaign) = some c → (f c).check = .ok ()) :
    Balanced s' := by
  have hfind : ∀ k, s'.campaigns.find? k =
      if (r.tenant, r.campaign) = k then (s.campaigns.find? k).map f else s.campaigns.find? k :=
    fun k => by rw [hcam]; exact Table.find?_modify hf _ k
  have hsum : ∀ k h, committed s' k h = committed s k h - share k h r +
      share k h { r with state := hd } := committed_put_old hr hres
  have hmem : ∀ x ∈ s'.reservations, x = { r with state := hd } ∨ x ∈ s.reservations := fun x hx => by
    rw [hres] at hx; exact (Table.mem_put.mp hx).imp_right (·.1)
  have hrm : r ∈ s.reservations := Table.mem_of_find? hr
  have hkept : ∀ k c, s.campaigns.find? k = some c → ∃ c', s'.campaigns.find? k = some c' := by
    intro k c hc
    rw [hfind, hc]
    split_ifs
    · exact ⟨_, rfl⟩
    · exact ⟨_, rfl⟩
  refine ⟨fun x hx => ?_, fun x hx => ?_, fun k c' hk => ?_, fun k c' hk => ?_, fun k c' hk => ?_⟩
  · rcases hmem x hx with rfl | hx
    · obtain ⟨c, hc⟩ := h.campaign r hrm
      exact hkept _ c hc
    · obtain ⟨c, hc⟩ := h.campaign x hx
      exact hkept _ c hc
  · rcases hmem x hx with rfl | hx
    · exact h.cost r hrm
    · exact h.cost x hx
  · rw [hfind] at hk
    split_ifs at hk with hk'
    · subst hk'
      obtain ⟨c, hc, rfl⟩ := Option.map_eq_some_iff.mp hk
      rw [hsum, hheld, h.reserved _ c hc]
    · have hr' : share k .held { r with state := hd } = 0 := share_other hk'
      rw [hsum, share_other hk', hr', sub_zero, add_zero]
      exact h.reserved k c' hk
  · rw [hfind] at hk
    split_ifs at hk with hk'
    · subst hk'
      obtain ⟨c, hc, rfl⟩ := Option.map_eq_some_iff.mp hk
      rw [hsum, hsettled, h.spent _ c hc]
    · have hr' : share k .settled { r with state := hd } = 0 := share_other hk'
      rw [hsum, share_other hk', hr', sub_zero, add_zero]
      exact h.spent k c' hk
  · rw [hfind] at hk
    split_ifs at hk with hk'
    · subst hk'
      obtain ⟨c, hc, rfl⟩ := Option.map_eq_some_iff.mp hk
      exact hck c hc
    · exact h.check k c' hk

theorem settled {r : ReservationRow} (h : Balanced s) (hr : s.reservations.find? r.pk = some r)
    (hh : r.state = .held) (hck : ∀ c, s.campaigns.find? (r.tenant, r.campaign) = some c →
      (charge r.cost c).check = .ok ()) : Balanced (settling s r) := by
  have hheld : share (r.tenant, r.campaign) .held r = r.cost := by rw [← hh]; exact share_self
  have hsettled : share (r.tenant, r.campaign) .settled { r with state := .settled } = r.cost :=
    share_self (r := { r with state := .settled })
  refine h.ended .settled hr rfl rfl (fun _ => rfl) (fun c => ?_) (fun c => ?_) hck
  · rw [hheld, share_state (by simp)]
    simp only [charge]; omega
  · rw [hsettled, share_state (by rw [hh]; decide)]
    simp only [charge]; omega

theorem released {r : ReservationRow} {a : AuditRow} (h : Balanced s)
    (hr : s.reservations.find? r.pk = some r) (hh : r.state = .held)
    (hck : ∀ c, s.campaigns.find? (r.tenant, r.campaign) = some c →
      (refund r.cost c).check = .ok ()) : Balanced (releasing s r a) := by
  have hheld : share (r.tenant, r.campaign) .held r = r.cost := by rw [← hh]; exact share_self
  refine h.ended .released hr rfl rfl (fun _ => rfl) (fun c => ?_) (fun c => ?_) hck
  · rw [hheld, share_state (by simp)]
    simp only [refund]; omega
  · rw [share_state (by rw [hh]; decide), share_state (by simp)]
    simp only [refund]; omega

/-- **One change keeps the ledger.** -/
theorem change {H : Digest} {o : Op} (h : Balanced s) (hc : Change H s o s') : Balanced s' := by
  cases hc with
  | seeded hs => exact h.seeded hs
  | held c hv hc _ _ _ hck hid _ =>
    exact h.held hc hck hid (cost_of_valid hv) rfl
  | settled dl p r _ _ _ _ hr hh hck _ =>
    have hr' : s.reservations.find? r.pk = some r := by rw [Table.find?_key hr]; exact hr
    exact (h.settled hr' hh hck).congr rfl rfl
  | released r hr hh _ hck _ =>
    have hr' : s.reservations.find? r.pk = some r := by rw [Table.find?_key hr]; exact hr
    exact h.released hr' hh hck
  | _ => exact h.congr rfl rfl

/-- **Every run keeps the ledger.** -/
theorem run {H : Digest} (h : Balanced s) (cs : List Call) : Balanced (Run.run H cs s) :=
  run_invariant (A := fun _ => True) (fun _ _ _ _ h hc => h.change hc) cs s (fun _ _ => trivial) h

/-! ### No constraint fails -/

/-- Under the ledger the cost of a hold can be taken off `reserved`, whether it is spent or not. -/
theorem lift_check (h : Balanced s) {r : ReservationRow} {c c' : CampaignRow} (hr : r ∈ s.reservations)
    (hh : r.state = .held) (hc : s.campaigns.find? (r.tenant, r.campaign) = some c)
    (hbudget : c'.budget = c.budget) (hreserved : c'.reserved = c.reserved - r.cost)
    (hspent : c'.spent = c.spent ∨ c'.spent = c.spent + r.cost) : c'.check = .ok () := by
  have hle := cost_le_committed h.cost hr
  rw [hh, ← h.reserved _ c hc] at hle
  have hcost := h.cost r hr
  obtain ⟨hb, -, hs, hsum⟩ := check_ok_iff.mp (h.check _ c hc)
  exact check_ok_iff.mpr (by omega)

/-- Under the ledger a hold can be charged. -/
theorem charge_check (h : Balanced s) {r : ReservationRow} {c : CampaignRow} (hr : r ∈ s.reservations)
    (hh : r.state = .held) (hc : s.campaigns.find? (r.tenant, r.campaign) = some c) :
    (charge r.cost c).check = .ok () :=
  h.lift_check hr hh hc rfl rfl (Or.inr rfl)

/-- Under the ledger a hold can be refunded. -/
theorem refund_check (h : Balanced s) {r : ReservationRow} {c : CampaignRow} (hr : r ∈ s.reservations)
    (hh : r.state = .held) (hc : s.campaigns.find? (r.tenant, r.campaign) = some c) :
    (refund r.cost c).check = .ok () :=
  h.lift_check hr hh hc rfl rfl (Or.inl rfl)

/-- Under the ledger a budget that covers a cost can be debited. -/
theorem debit_check (h : Balanced s) {k : Key2} {c : CampaignRow} {cost : Int}
    (hc : s.campaigns.find? k = some c) (hcost : 0 < cost) (hb : cost ≤ c.budget - c.spent - c.reserved) :
    CampaignRow.check { c with reserved := c.reserved + cost } = .ok () := by
  obtain ⟨hbudget, hr, hs, -⟩ := check_ok_iff.mp (h.check _ c hc)
  refine check_ok_iff.mpr ⟨hbudget, ?_, hs, ?_⟩
  · show 0 ≤ c.reserved + cost
    omega
  · show c.reserved + cost + c.spent ≤ c.budget
    omega

/-- **No constraint stops a `Reserve`**: where the database refuses it, an identifier is taken. -/
theorem reserve_error (h : Balanced s) {H : Digest} {tenant key : String} {inp : ReservationInput}
    {d : ReserveDraw} {x : Except Err (Reservation × Bool) × Store}
    (hx : ReserveOut H tenant key inp d s x) {w : Storage} (he : x.1 = .error (.storage w)) :
    ∃ table, w = .unique table := by
  cases hx with
  | unlocked c hc e hck => rw [h.check _ c hc] at hck; cases hck
  | undebited c hc hv hk hb e hck =>
    rw [h.debit_check hc (cost_of_valid hv) hb] at hck; cases hck
  | clash table => cases he; exact ⟨table, rfl⟩
  | _ => cases he

/-- **No constraint stops a `Process`**: it fails on an unknown delivery or a taken identifier. -/
theorem process_error (h : Balanced s) {tenant id : String} {d : ProcessDraw}
    {x : Except Err Status × Store} (hx : ProcessOut tenant id d s x) {e : Err} (he : x.1 = .error e) :
    e = .notFound ∨ e = .storage (.unique "audit") := by
  cases hx with
  | missing => cases he; exact Or.inl rfl
  | unlocked r hr e' hck => rw [check_reservation (h.cost r hr)] at hck; cases hck
  | uncharged r c hr hh hc e' hck => rw [h.charge_check hr hh hc] at hck; cases hck
  | clash => cases he; exact Or.inr rfl
  | _ => cases he

/-- **No constraint stops a release.** -/
theorem release_error (h : Balanced s) {tenant id : String} {now : Int} {d : Stamp}
    {x : Except Err Unit × Store} (hx : ReleaseOut tenant id now d s x) {e : Err}
    (he : x.1 = .error e) : e = .storage (.unique "audit") := by
  cases hx with
  | unreleased r hr e' hck => rw [check_reservation (h.cost r hr)] at hck; cases hck
  | unrefunded r c hr hh hc e' hck => rw [h.refund_check hr hh hc] at hck; cases hck
  | clash => cases he; rfl
  | _ => cases he

end Balanced

end Afterglow.Core.Ledger
