import Afterglow.Localdemo.Reset

/-! # Admission of reservations

`Reserve` on a reachable store. A call with a new key is admitted exactly if the campaign's uncommitted
budget covers its cost (`admitted_or_refused`), so of several calls of one cost as many are admitted as
the budget covers (`won_eq`). Once a key is used it answers with its reservation for ever, and refuses
any other input (`answer_of_used`). A call that fails changes nothing. -/

namespace Afterglow.Core.Admission

open Afterglow.Sql.Rows Afterglow.Sql.Txn Afterglow.Core.Model Afterglow.Core.Statements
open Afterglow.Core.Store Afterglow.Core.Outcome Afterglow.Core.Run Afterglow.Core.Ledger
open Afterglow.Core.Settlement Afterglow.Core.Keys Afterglow.Localdemo.Reset

/-- A call of `Reserve`: its answer, and the store it leaves. -/
def reserveCall (H : Digest) (tenant key : String) (inp : ReservationInput) (d : ReserveDraw)
    (fault : Option ℕ) (s : Store) : Except Err (Reservation × Bool) × Store :=
  (Op.reserve tenant key inp d).exec H fault s

/-- The identifiers a `Reserve` draws are new to the store. -/
structure ReserveFresh (tenant : String) (d : ReserveDraw) (s : Store) : Prop where
  reservation : s.reservations.find? (tenant, d.id) = none
  audit : s.audit.find? d.stamp.id = none

/-- The budget of a campaign that is neither spent nor reserved. -/
def available (c : CampaignRow) : Int := c.budget - c.spent - c.reserved

theorem validReserve_iff {key : String} {inp : ReservationInput} :
    validReserve key inp = true ↔ validID key = true ∧ validID inp.campaignID = true ∧
      validID inp.screenID = true ∧ 1 ≤ inp.cost ∧ inp.cost ≤ 1000000000 := by
  simp only [validReserve, Bool.and_eq_true, Bool.not_eq_true', Bool.or_eq_false_iff,
    decide_eq_false_iff_not]
  constructor
  · rintro ⟨⟨⟨hk, hc⟩, hs⟩, h0, h1⟩
    exact ⟨hk, hc, hs, by omega, by omega⟩
  · rintro ⟨hk, hc, hs, h0, h1⟩
    exact ⟨⟨⟨hk, hc⟩, hs⟩, by omega, by omega⟩

section Call

variable {H : Digest} {s : Store} {tenant key : String} {inp : ReservationInput} {d : ReserveDraw}

theorem reserveCall_cases (fault : Option ℕ) :
    ReserveOut H tenant key inp d s (reserveCall H tenant key inp d fault s) ∨
      reserveCall H tenant key inp d fault s = (.error (.storage .fault), s) := by
  rcases (Op.reserve tenant key inp d).exec_cases H fault s with hx | hx
  · left
    unfold reserveCall
    rw [hx]
    exact reserve_out H tenant key inp d s
  · exact Or.inr hx

/-- **A call with a new key** is admitted exactly if the uncommitted budget covers its cost. -/
theorem admitted_or_refused {c : CampaignRow} (hb : Balanced s) (hv : validReserve key inp = true)
    (hk : byKey s tenant key = none) (hc : s.campaigns.find? (tenant, inp.campaignID) = some c)
    (hs : s.screens.find? inp.screenID ≠ none) (hf : ReserveFresh tenant d s) :
    inp.cost ≤ available c ∧ reserveCall H tenant key inp d none s =
        (.ok ((newReservation H tenant key inp d).toReservation, false),
          holding s c (newReservation H tenant key inp d) (reservedAudit tenant inp d)) ∨
      ¬ inp.cost ≤ available c ∧ reserveCall H tenant key inp d none s = (.error .budget, s) := by
  have hout : ReserveOut H tenant key inp d s (reserveCall H tenant key inp d none s) :=
    reserve_out H tenant key inp d s
  generalize reserveCall H tenant key inp d none s = x at hout
  cases hout with
  | invalid hv' => rw [hv] at hv'; cases hv'
  | noCampaign _ hc' => rw [hc] at hc'; cases hc'
  | unlocked c' hc' e he => rw [hb.check _ c' hc'] at he; cases he
  | conflict r hk' => rw [hk] at hk'; cases hk'
  | replayed c' r _ _ hk' => rw [hk] at hk'; cases hk'
  | noScreen _ hs' => exact absurd hs' hs
  | overBudget c' hc' _ hle =>
    cases hc.symm.trans hc'
    exact Or.inr ⟨hle, rfl⟩
  | undebited c' hc' _ _ hle e he =>
    rw [hb.debit_check hc' (cost_of_valid hv) hle] at he; cases he
  | clash table _ hid =>
    rcases hid with hid | hid
    · exact absurd hf.reservation hid
    · exact absurd hf.audit hid
  | made c' _ hc' _ _ hle hck hid ha =>
    cases hc.symm.trans hc'
    exact Or.inl ⟨hle, rfl⟩

/-- **A call that fails changes nothing.** -/
theorem same_of_error {fault : Option ℕ} {e : Err}
    (h : (reserveCall H tenant key inp d fault s).1 = .error e) :
    (reserveCall H tenant key inp d fault s).2 = s := by
  rcases reserveCall_cases (H := H) (s := s) (d := d) fault with hout | hx
  · generalize reserveCall H tenant key inp d fault s = x at h hout
    cases hout with
    | made => cases h
    | _ => rfl
  · rw [hx]

/-- **A call that succeeds leaves its key in use**, with its input. -/
theorem used_of_ok {fault : Option ℕ} {r : Reservation} {replay : Bool}
    (hkeyed : Keyed (reserveCall H tenant key inp d fault s).2)
    (h : (reserveCall H tenant key inp d fault s).1 = .ok (r, replay)) :
    validReserve key inp = true ∧ s.campaigns.find? (tenant, inp.campaignID) ≠ none ∧
      ∃ row, byKey (reserveCall H tenant key inp d fault s).2 tenant key = some row ∧ row.id = r.id ∧
        row.fingerprint = H.input inp := by
  rcases reserveCall_cases (H := H) (s := s) (d := d) fault with hout | hx
  · generalize reserveCall H tenant key inp d fault s = x at h hout hkeyed
    cases hout with
    | replayed c row hv hc hk hf =>
      cases h
      exact ⟨hv, by rw [hc]; simp, row, hk, rfl, hf⟩
    | made c hv hc hk hs hle hck hid ha =>
      cases h
      refine ⟨hv, by rw [hc]; simp, newReservation H tenant key inp d, ?_, rfl, rfl⟩
      have hmem : newReservation H tenant key inp d ∈
          s.reservations.put (newReservation H tenant key inp d) := Table.mem_put.mpr (Or.inl rfl)
      exact hkeyed.byKey_of_mem hmem
    | _ => cases h
  · rw [hx] at h; cases h

/-- **What a used key answers**: its reservation as it is now, or a conflict if the input is another one.
Neither changes anything. -/
theorem answer_of_used {row : ReservationRow} (hb : Balanced s) (hv : validReserve key inp = true)
    (hc : s.campaigns.find? (tenant, inp.campaignID) ≠ none) (hk : byKey s tenant key = some row) :
    reserveCall H tenant key inp d none s =
      if row.fingerprint = H.input inp then (.ok (row.toReservation, true), s)
      else (.error .conflict, s) := by
  have hout : ReserveOut H tenant key inp d s (reserveCall H tenant key inp d none s) :=
    reserve_out H tenant key inp d s
  generalize reserveCall H tenant key inp d none s = x at hout
  have hused : byKey s tenant key ≠ none := by rw [hk]; simp
  cases hout with
  | invalid hv' => rw [hv] at hv'; cases hv'
  | noCampaign _ hc' => exact absurd hc' hc
  | unlocked c' hc' e he => rw [hb.check _ c' hc'] at he; cases he
  | conflict r hk' hf =>
    cases hk.symm.trans hk'
    rw [if_neg hf]
  | replayed c' r _ _ hk' hf =>
    cases hk.symm.trans hk'
    rw [if_pos hf]
  | noScreen hk' => exact absurd hk' hused
  | overBudget _ _ hk' => exact absurd hk' hused
  | undebited _ _ _ hk' => exact absurd hk' hused
  | clash _ hk' => exact absurd hk' hused
  | made _ _ _ hk' => exact absurd hk' hused

end Call

/-! ### A used key stays used -/

/-- A campaign is not lost. -/
theorem campaign_change {H : Digest} {o : Op} {s s' : Store} (hc : Change H s o s') {k : Key2}
    (hk : s.campaigns.find? k ≠ none) : s'.campaigns.find? k ≠ none := by
  obtain ⟨c, hck⟩ := Option.ne_none_iff_exists'.mp hk
  have hput : ∀ x, (s.campaigns.put x).find? k ≠ none := by
    intro x
    rw [Table.find?_put]
    split_ifs
    · simp
    · exact hk
  have hmod : ∀ k₀ f, (∀ x : CampaignRow, (f x).pk = x.pk) → (s.campaigns.modify k₀ f).find? k ≠ none := by
    intro k₀ f hf
    rw [Table.find?_modify hf, hck]
    split_ifs <;> simp
  cases hc with
  | seeded hs => rw [hs.campaigns_kept k c hck]; simp
  | held => exact hput _
  | settled => exact hmod _ _ fun _ => rfl
  | released => exact hmod _ _ fun _ => rfl
  | _ => exact hk

theorem campaign_run {H : Digest} (cs : List Call) {s : Store} {k : Key2}
    (hk : s.campaigns.find? k ≠ none) : (run H cs s).campaigns.find? k ≠ none :=
  run_invariant (A := fun _ => True) (I := fun s => s.campaigns.find? k ≠ none)
    (fun _ _ _ _ h hc => campaign_change hc h) cs s (fun _ _ => trivial) hk

/-- **A success is repeated for ever**: after any further calls, the key answers with the same reservation
to the same input, and refuses another one. -/
theorem answer_after {H : Digest} {s : Store} {tenant key : String} {inp : ReservationInput}
    {d : ReserveDraw} {fault : Option ℕ} {r : Reservation} {replay : Bool} (hb : Balanced s)
    (hk : Keyed s) (h : (reserveCall H tenant key inp d fault s).1 = .ok (r, replay)) (cs : List Call) :
    ∃ row, (run H cs (reserveCall H tenant key inp d fault s).2).reservations.find? (tenant, r.id) =
        some row ∧ row.fingerprint = H.input inp ∧
      ∀ inp' d', validReserve key inp' = true →
        (run H cs (reserveCall H tenant key inp d fault s).2).campaigns.find?
          (tenant, inp'.campaignID) ≠ none →
        reserveCall H tenant key inp' d' none (run H cs (reserveCall H tenant key inp d fault s).2) =
          if row.fingerprint = H.input inp' then
            (.ok (row.toReservation, true), run H cs (reserveCall H tenant key inp d fault s).2)
          else (.error .conflict, run H cs (reserveCall H tenant key inp d fault s).2) := by
  have hchange := (Op.reserve tenant key inp d).change H fault s
  have hb₁ : Balanced (reserveCall H tenant key inp d fault s).2 := hb.change hchange
  have hk₁ : Keyed (reserveCall H tenant key inp d fault s).2 := hk.change hchange
  obtain ⟨-, -, row₁, hby, hid, hfp⟩ := used_of_ok hk₁ h
  obtain ⟨row, hrow, hstep⟩ := byKey_run (H := H) hk₁ cs hby
  obtain ⟨hmem, ht, -⟩ := byKey_some hrow
  have hrid : row.id = r.id := by rw [hstep.1]; exact hid
  have hrfp : row.fingerprint = H.input inp := by rw [hstep.1]; exact hfp
  have hpk : row.pk = (tenant, r.id) := Prod.ext ht hrid
  refine ⟨row, by rw [← hpk]; exact Table.find?_of_mem hmem, hrfp, fun inp' d' hv hc => ?_⟩
  exact answer_of_used (hb₁.run cs) hv hc hrow

/-! ### Several calls on one campaign -/

/-- The call is a `Reserve` on campaign `k`. -/
def bids (k : Key2) : Op → Bool
  | .reserve tenant _ inp _ => (tenant, inp.campaignID) = k
  | _ => false

/-- A `Reserve` of `cost` that only the budget can refuse: valid, with a new key, for a known screen. -/
def Entrant (cost : Int) (s : Store) : Call → Prop
  | ⟨.reserve tenant key inp d, fault⟩ => validReserve key inp = true ∧ inp.cost = cost ∧
    byKey s tenant key = none ∧ s.screens.find? inp.screenID ≠ none ∧ ReserveFresh tenant d s ∧
    fault = none
  | _ => False

/-- A run in which every `Reserve` on campaign `k` is an entrant, and no other call touches the
campaign. -/
def Contest (H : Digest) (k : Key2) (cost : Int) : List Call → Store → Prop
  | [], _ => True
  | c :: cs, s =>
    (if bids k c.op then Entrant cost s c else (c.step H s).campaigns.find? k = s.campaigns.find? k) ∧
      Contest H k cost cs (c.step H s)

instance (tenant : String) (d : ReserveDraw) (s : Store) : Decidable (ReserveFresh tenant d s) :=
  decidable_of_iff (s.reservations.find? (tenant, d.id) = none ∧ s.audit.find? d.stamp.id = none)
    ⟨fun h => ⟨h.1, h.2⟩, fun h => ⟨h.reservation, h.audit⟩⟩

instance (cost : Int) (s : Store) : DecidablePred (Entrant cost s)
  | ⟨.reserve tenant key inp d, fault⟩ => inferInstanceAs (Decidable (validReserve key inp = true ∧
      inp.cost = cost ∧ byKey s tenant key = none ∧ s.screens.find? inp.screenID ≠ none ∧
      ReserveFresh tenant d s ∧ fault = none))
  | ⟨.seed _, _⟩ | ⟨.accept .., _⟩ | ⟨.process .., _⟩ | ⟨.release .., _⟩ | ⟨.claim .., _⟩
  | ⟨.dispatched _, _⟩ | ⟨.complete .., _⟩ | ⟨.failJob .., _⟩ | ⟨.replay .., _⟩
  | ⟨.quarantineTransport .., _⟩ => isFalse not_false

instance decidableContest (H : Digest) (k : Key2) (cost : Int) :
    ∀ (cs : List Call) (s : Store), Decidable (Contest H k cost cs s)
  | [], _ => isTrue trivial
  | c :: cs, s =>
    have := decidableContest H k cost cs (c.step H s)
    inferInstanceAs (Decidable ((if bids k c.op then Entrant cost s c
      else (c.step H s).campaigns.find? k = s.campaigns.find? k) ∧ Contest H k cost cs (c.step H s)))

/-- The call is a `Reserve` on campaign `k` that succeeds. -/
def wins (H : Digest) (k : Key2) (s : Store) : Call → Bool
  | ⟨.reserve tenant key inp d, fault⟩ =>
    (tenant, inp.campaignID) = k && (reserveCall H tenant key inp d fault s).1.isOk
  | _ => false

/-- The number of calls on campaign `k` that succeed. -/
def won (H : Digest) (k : Key2) : List Call → Store → ℕ
  | [], _ => 0
  | c :: cs, s => (if wins H k s c then 1 else 0) + won H k cs (c.step H s)

theorem wins_of_not_bids {H : Digest} {k : Key2} {s : Store} {c : Call} (h : bids k c.op = false) :
    wins H k s c = false := by
  obtain ⟨op, fault⟩ := c
  cases op with
  | reserve tenant key inp d =>
    have h' : decide ((tenant, inp.campaignID) = k) = false := h
    simp only [wins, h', Bool.false_and]
  | _ => rfl

/-- **One entrant**: it wins and takes its cost, or the budget does not cover it. -/
theorem entrant_cases {H : Digest} {k : Key2} {cost : Int} {s : Store} {c : Call} {row : CampaignRow}
    (hb : Balanced s) (hrow : s.campaigns.find? k = some row) (hbid : bids k c.op = true)
    (hc : Entrant cost s c) :
    0 < cost ∧
    ((cost ≤ available row ∧ wins H k s c = true ∧ (c.step H s).campaigns.find? k =
        some { row with reserved := row.reserved + cost }) ∨
      (¬ cost ≤ available row ∧ wins H k s c = false ∧ (c.step H s).campaigns.find? k = some row)) := by
  obtain ⟨op, fault⟩ := c
  cases op with
  | reserve tenant key inp d =>
    obtain ⟨hv, rfl, hk, hs, hf, rfl⟩ := hc
    have hkey : (tenant, inp.campaignID) = k := of_decide_eq_true hbid
    subst hkey
    refine ⟨cost_of_valid hv, ?_⟩
    have hstep : Call.step H s ⟨.reserve tenant key inp d, none⟩ =
        (reserveCall H tenant key inp d none s).2 := rfl
    rcases admitted_or_refused (H := H) hb hv hk hrow hs hf with ⟨hle, hx⟩ | ⟨hle, hx⟩
    · have hpk : row.pk = (tenant, inp.campaignID) := Table.find?_key hrow
      refine Or.inl ⟨hle, ?_, ?_⟩
      · simp only [wins, hx, decide_true, Bool.true_and]; rfl
      · have hfind := Table.find?_put_self s.campaigns { row with reserved := row.reserved + inp.cost }
        rw [hstep, hx, ← hpk]
        exact hfind
    · refine Or.inr ⟨hle, ?_, ?_⟩
      · simp only [wins, hx]; simp [Except.isOk, Except.toBool]
      · rw [hstep, hx]; exact hrow
  | _ => exact hc.elim

/-- **As many calls succeed as the budget covers.** -/
theorem won_eq {H : Digest} {k : Key2} {cost : Int} : ∀ (cs : List Call) (s : Store) (row : CampaignRow),
    Balanced s → s.campaigns.find? k = some row → Contest H k cost cs s →
    won H k cs s = min (cs.countP fun c => bids k c.op) (available row / cost).toNat
  | [], _, _, _, _, _ => by simp [won]
  | c :: cs, s, row, hb, hrow, hc => by
    obtain ⟨hhead, htail⟩ := hc
    have hb' : Balanced (c.step H s) := hb.change (c.op.change H c.fault s)
    have ih := fun row' hrow' => won_eq cs (c.step H s) row' hb' hrow' htail
    rw [won, List.countP_cons]
    cases hbid : bids k c.op with
    | false =>
      rw [hbid] at hhead
      have hsame : (c.step H s).campaigns.find? k = some row := hhead.trans hrow
      rw [wins_of_not_bids hbid, ih row hsame]
      simp
    | true =>
      rw [hbid] at hhead
      obtain ⟨hpos, hcase⟩ := entrant_cases (H := H) hb hrow hbid hhead
      rcases hcase with ⟨hle, hwin, hnew⟩ | ⟨hle, hlose, hold⟩
      · rw [hwin, ih _ hnew]
        have havail : available { row with reserved := row.reserved + cost } = available row - cost := by
          simp only [available]; omega
        have hdiv : (available row - cost) / cost = available row / cost - 1 := by
          rw [show available row - cost = available row + -1 * cost by ring,
            Int.add_mul_ediv_right _ _ (by omega)]
          ring
        have hone : 1 ≤ available row / cost := (Int.le_ediv_iff_mul_le hpos).mpr (by omega)
        rw [havail, hdiv]
        simp only [if_true]
        omega
      · rw [hlose, ih row hold]
        have hzero : (available row / cost).toNat = 0 := by
          have hlt : available row / cost < 1 := (Int.ediv_lt_iff_lt_mul hpos).mpr (by omega)
          omega
        rw [hzero]
        simp

/-! ### The result -/

/-- **Admission is exact and idempotent** on every reachable store, for a digest without collisions.
With fresh identifiers, a call with a new key is admitted exactly if the uncommitted budget covers it, so
of several calls of one cost as many succeed as the budget covers, in every order. Once a call has
succeeded its key answers, after any further calls, with the same reservation as it then is, and with a
conflict to any other input. A call that fails changes nothing. -/
theorem admission_exact (H : Digest)
    (hH : ∀ key inp inp', validReserve key inp = true → validReserve key inp' = true →
      H.input inp = H.input inp' → inp = inp') (es : List Event) :
    let s := (runEvents H es Db.empty).core
    (∀ tenant key inp d c, validID key → validID inp.campaignID → validID inp.screenID →
      1 ≤ inp.cost → inp.cost ≤ 1000000000 → byKey s tenant key = none →
      s.campaigns.find? (tenant, inp.campaignID) = some c → s.screens.find? inp.screenID ≠ none →
      ReserveFresh tenant d s →
      ((reserveCall H tenant key inp d none s).1.isOk ↔ inp.cost ≤ c.budget - c.spent - c.reserved)) ∧
    (∀ k c cost cs, s.campaigns.find? k = some c → Contest H k cost cs s →
      won H k cs s =
        min (cs.countP fun x => bids k x.op) ((c.budget - c.spent - c.reserved) / cost).toNat) ∧
    (∀ tenant key inp d fault r replay,
      (reserveCall H tenant key inp d fault s).1 = .ok (r, replay) → ∀ cs,
      let s' := run H cs (reserveCall H tenant key inp d fault s).2
      (∃ row, s'.reservations.find? (tenant, r.id) = some row ∧
        ∀ d', reserveCall H tenant key inp d' none s' = (.ok (row.toReservation, true), s')) ∧
      ∀ inp' d', inp' ≠ inp → validReserve key inp' = true →
        s'.campaigns.find? (tenant, inp'.campaignID) ≠ none →
        reserveCall H tenant key inp' d' none s' = (.error .conflict, s')) ∧
    (∀ tenant key inp d fault e, (reserveCall H tenant key inp d fault s).1 = .error e →
      (reserveCall H tenant key inp d fault s).2 = s) := by
  intro s
  have hb : Balanced s := balanced_runEvents H es
  have hkeyed : Keyed s := keyed_runEvents H es
  refine ⟨?_, fun k c cost cs hc hcon => won_eq cs s c hb hc hcon, ?_, ?_⟩
  · intro tenant key inp d c hkey hcid hsid hlo hhi hk hc hs hf
    have hv := validReserve_iff.mpr ⟨hkey, hcid, hsid, hlo, hhi⟩
    rcases admitted_or_refused (H := H) hb hv hk hc hs hf with ⟨hle, hx⟩ | ⟨hle, hx⟩
    · rw [hx]
      exact ⟨fun _ => hle, fun _ => rfl⟩
    · rw [hx]
      exact ⟨fun h => (by cases h), fun h => absurd h hle⟩
  · intro tenant key inp d fault r replay h cs s'
    obtain ⟨row, hrow, hfp, hanswer⟩ := answer_after hb hkeyed h cs
    have hk₁ : Keyed (reserveCall H tenant key inp d fault s).2 :=
      hkeyed.change ((Op.reserve tenant key inp d).change H fault s)
    obtain ⟨hv, hc, -⟩ := used_of_ok hk₁ h
    have hc' : s'.campaigns.find? (tenant, inp.campaignID) ≠ none :=
      campaign_run cs (campaign_change ((Op.reserve tenant key inp d).change H fault s) hc)
    refine ⟨⟨row, hrow, fun d' => ?_⟩, fun inp' d' hne hv' hcam => ?_⟩
    · rw [hanswer inp d' hv hc', if_pos hfp]
    · have hfp' : row.fingerprint ≠ H.input inp' := fun heq =>
        hne (hH key inp inp' hv hv' (hfp.symm.trans heq)).symm
      rw [hanswer inp' d' hv' hcam, if_neg hfp']
  · intro tenant key inp d fault e h
    exact same_of_error h

/-- A spelling of a text that tells where it ends. -/
def spell (cs : List Char) : List Char := cs.flatMap (fun c => ['0', c]) ++ ['1']

theorem spell_injective : ∀ {a b x y : List Char}, spell a ++ x = spell b ++ y → a = b ∧ x = y
  | [], [], _, _, h => ⟨rfl, by simpa [spell] using h⟩
  | [], _ :: _, _, _, h => by simp [spell] at h
  | _ :: _, [], _, _, h => by simp [spell] at h
  | c :: a, c' :: b, x, y, h => by
    simp only [spell, List.flatMap_cons, List.cons_append, List.nil_append, List.cons.injEq,
      true_and] at h
    obtain ⟨hab, hxy⟩ := spell_injective (a := a) (b := b) (x := x) (y := y) h.2
    exact ⟨by rw [h.1, hab], hxy⟩

/-- A digest without collisions: the input spelled out, the cost as a tally. -/
def spelled : Digest where
  input inp := String.ofList (spell inp.campaignID.toList ++ (spell inp.screenID.toList ++
    List.replicate inp.cost.toNat '1'))
  receipt r := r.eventID

theorem spelled_injective {key : String} {inp inp' : ReservationInput}
    (hv : validReserve key inp = true) (hv' : validReserve key inp' = true)
    (h : spelled.input inp = spelled.input inp') : inp = inp' := by
  have hcost := cost_of_valid hv
  have hcost' := cost_of_valid hv'
  obtain ⟨hc, hrest⟩ := spell_injective (String.ofList_inj.mp h)
  obtain ⟨hs, htally⟩ := spell_injective hrest
  have hlen := congrArg List.length htally
  rw [List.length_replicate, List.length_replicate] at hlen
  cases inp
  cases inp'
  simp only [ReservationInput.mk.injEq]
  exact ⟨String.toList_inj.mp hc, String.toList_inj.mp hs, by simp only at hcost hcost' hlen; omega⟩

/-- Three calls of 50 units each on a campaign of 120. -/
def threeBids : List Call :=
  [⟨.reserve "demo" "k1" ⟨"cmp-solstice", "sea-01", 50000000⟩ ⟨"r1", 0, 0, ⟨"a1", 0⟩⟩, none⟩,
    ⟨.reserve "demo" "k2" ⟨"cmp-solstice", "sea-01", 50000000⟩ ⟨"r2", 0, 0, ⟨"a2", 0⟩⟩, none⟩,
    ⟨.reserve "demo" "k3" ⟨"cmp-solstice", "sea-01", 50000000⟩ ⟨"r3", 0, 0, ⟨"a3", 0⟩⟩, none⟩]

theorem admission_exact_threeBids :
    let s := (runEvents spelled [.call ⟨.seed "demo", none⟩] Db.empty).core
    won spelled ("demo", "cmp-solstice") threeBids s = 2 := by
  intro s
  have hc : s.campaigns.find? ("demo", "cmp-solstice") =
      some ⟨⟨"cmp-solstice", "Solstice / Find your outside", 120000000, 0, 0⟩, "demo"⟩ := by decide +kernel
  refine ((admission_exact spelled (fun _ _ _ => spelled_injective) [.call ⟨.seed "demo", none⟩]).2.1
    ("demo", "cmp-solstice") _ 50000000 threeBids hc ⟨?_, ?_, ?_, trivial⟩).trans (by decide)
  · exact ⟨by decide, rfl, by decide +kernel, by decide +kernel, ⟨by decide +kernel, by decide +kernel⟩, rfl⟩
  · exact ⟨by decide, rfl, by decide +kernel, by decide +kernel, ⟨by decide +kernel, by decide +kernel⟩, rfl⟩
  · exact ⟨by decide, rfl, by decide +kernel, by decide +kernel, ⟨by decide +kernel, by decide +kernel⟩, rfl⟩

end Afterglow.Core.Admission
