import Afterglow.Core.Reports
import Afterglow.Localdemo.Reset

/-! # The assurance report and the ledger

`Assurance` reads the reservations of a campaign joined to their screens and, in a second query, the
deliveries joined to the reservations their payloads name, and merges the two in Go. In a reachable store
every reservation's screen is there, every payload is JSON and every campaign's identifier is valid
(`Attributable`), so both joins lose nothing: the first splits the campaign's reservations by screen, the
second counts each delivery once, and the sums over the screens are the campaign's balances
(`assurance_agrees`). -/

namespace Afterglow.Core.Assurance

open Afterglow.Sql.Rows Afterglow.Sql.Txn Afterglow.Sql.Select Afterglow.Core.Model
open Afterglow.Core.Statements Afterglow.Core.Store Afterglow.Core.Outcome Afterglow.Core.Run
open Afterglow.Core.Ledger Afterglow.Core.Settlement Afterglow.Core.Reports Afterglow.Localdemo.Reset

/-! ### What a reachable store keeps -/

/-- The joins lose nothing: the screen of a reservation is there, and the payload of a delivery is
JSON. -/
structure Joined (s : Store) : Prop where
  screen : ∀ r ∈ s.reservations, s.screens.find? r.screen ≠ none
  payload : ∀ d ∈ s.deliveries, ∃ p, d.payload = .json p

/-- **Every row can be attributed**, and the identifiers of campaigns are valid. -/
structure Attributable (s : Store) : Prop extends Joined s where
  campaign : ∀ c ∈ s.campaigns, validID c.id = true

namespace Attributable

variable {s s' : Store}

theorem empty : Attributable Store.empty where
  campaign c hc := absurd hc (Table.not_mem_empty c)
  screen r hr := absurd hr (Table.not_mem_empty r)
  payload d hd := absurd hd (Table.not_mem_empty d)

/-- What `Seed` adds has valid identifiers. -/
theorem seeded {tenant : String} (h : Attributable s) (hs : Seeded tenant s s') : Attributable s' := by
  have hr : s'.reservations = s.reservations := by rw [hs.rest]
  have hd : s'.deliveries = s.deliveries := by rw [hs.rest]
  refine ⟨⟨fun r hm => ?_, fun d hm => h.payload d (hd ▸ hm)⟩, fun c hc => ?_⟩
  swap
  · rcases hs.campaigns_seeded c.pk c (Table.find?_of_mem hc) with hold | hnew
    · exact h.campaign c (Table.mem_of_find? hold)
    · have hall : ∀ x ∈ seedCampaigns, validID x.1 = true := by decide +kernel
      exact hall _ hnew
  · have hold := h.screen r (hr ▸ hm)
    obtain ⟨v, hv⟩ := Option.ne_none_iff_exists'.mp hold
    rw [hs.screens_kept _ v hv]
    exact nofun

theorem resetTo {db : Db} (h : Attributable db.core) (g : String) :
    Attributable (resetTo g db).core where
  campaign c hc := by
    obtain ⟨c₀, hc₀, rfl⟩ := List.mem_map.mp hc
    exact h.campaign c₀ hc₀
  screen r hr := absurd hr (Table.not_mem_empty r)
  payload d hd := absurd hd (Table.not_mem_empty d)

/-- **One change keeps it.** -/
theorem change {H : Digest} {o : Op} (h : Attributable s) (hc : Change H s o s') : Attributable s' := by
  have hkept {dl dl' : DeliveryRow} {k : Key2} (hd : s.deliveries.find? k = some dl)
      (heq : dl'.payload = dl.payload) : ∃ p, dl'.payload = .json p := by
    rw [heq]
    exact h.payload dl (Table.mem_of_find? hd)
  cases hc with
  | seeded hs => exact h.seeded hs
  | held c hv hc hk hs hb hck hid ha =>
    have hid : validID c.id = true := h.campaign c (Table.mem_of_find? hc)
    exact ⟨⟨Table.forall_put h.screen hs, h.payload⟩, Table.forall_put h.campaign hid⟩
  | accepted hv hk hf => exact ⟨⟨h.screen, Table.forall_put h.payload ⟨_, rfl⟩⟩, h.campaign⟩
  | seen dl hd hs => exact ⟨⟨h.screen, Table.forall_put h.payload (hkept hd rfl)⟩, h.campaign⟩
  | decided dl status reason hd hs hv hne ha =>
    exact ⟨⟨h.screen, Table.forall_put h.payload (hkept hd rfl)⟩, h.campaign⟩
  | settled dl p r hd hs hp hv hr hh hck ha =>
    have hscreen := h.screen r (Table.mem_of_find? hr)
    have hcampaign := Table.forall_modify (f := charge r.cost) h.campaign fun _ hx => hx
    exact ⟨⟨Table.forall_put h.screen hscreen, Table.forall_put h.payload (hkept hd rfl)⟩, hcampaign _⟩
  | released r hr hh he hck ha =>
    have hscreen := h.screen r (Table.mem_of_find? hr)
    have hcampaign := Table.forall_modify (f := refund r.cost) h.campaign fun _ hx => hx
    exact ⟨⟨Table.forall_put h.screen hscreen, h.payload⟩, hcampaign _⟩
  | died o ho hj hs ha =>
    refine ⟨⟨h.screen, Table.forall_modify h.payload (fun dl hdl => ?_) _⟩, h.campaign⟩
    rw [deadRow]
    split_ifs
    · exact hdl
    · exact hdl
  | reopened dl hd hs ha => exact ⟨⟨h.screen, Table.forall_put h.payload (hkept hd rfl)⟩, h.campaign⟩
  | _ => exact ⟨⟨h.screen, h.payload⟩, h.campaign⟩

/-- **Every reachable store keeps it.** -/
theorem runEvents (H : Digest) (es : List Event) :
    Attributable (Localdemo.Reset.runEvents H es Db.empty).core :=
  runEvents_invariant (fun _ _ _ h hc => h.change hc) (fun _ g h => h.resetTo g) es Db.empty
    Attributable.empty

end Attributable

/-! ### What a report should say -/

/-- The number of reservations of campaign `k` with `q`. -/
def plays (s : Store) (k : Key2) (q : ReservationRow → Bool) : ℕ :=
  s.reservations.count fun r => r.tenant = k.1 ∧ r.campaign = k.2 ∧ q r

/-- What the reservations of campaign `k` in state `h` on a screen cost. -/
def micros (s : Store) (k : Key2) (screen : String) (h : Hold) : Int :=
  s.reservations.sum fun r => if r.screen = screen then share k h r else 0

/-- The delivery is of the tenant, and its payload names a reservation of campaign `k` with `q`. -/
def evidences (s : Store) (k : Key2) (q : ReservationRow → Bool) (d : DeliveryRow) : Bool :=
  d.tenant = k.1 ∧ ∃ r ∈ s.reservations.rows, r.tenant = k.1 ∧ r.campaign = k.2 ∧ d.names r.id ∧ q r

/-- **The report agrees with the tables**, whatever the balances of the campaign. -/
structure Agrees (s : Store) (c : CampaignRow) (now : Int) (out : CampaignAssurance) : Prop where
  campaign : out.campaign = c.toCampaign
  observed : out.observedAt = now
  once : (out.screens.map (·.screenID)).Nodup
  used : ∀ screen, screen ∈ out.screens.map (·.screenID) ↔
    ∃ r ∈ s.reservations, r.tenant = c.tenant ∧ r.campaign = c.id ∧ r.screen = screen
  screenPlays : ∀ v ∈ out.screens,
    v.reservedPlays = plays s c.pk (fun r => r.screen = v.screenID ∧ r.state = .held) ∧
    v.settledPlays = plays s c.pk (fun r => r.screen = v.screenID ∧ r.state = .settled) ∧
    v.releasedPlays = plays s c.pk (fun r => r.screen = v.screenID ∧ r.state = .released)
  screenMicros : ∀ v ∈ out.screens, v.heldMicros = micros s c.pk v.screenID .held ∧
    v.settledMicros = micros s c.pk v.screenID .settled
  heldPlays : (out.screens.map (·.reservedPlays)).sum = out.heldPlays ∧
    out.heldPlays = plays s c.pk fun r => r.state = .held
  settledPlays : (out.screens.map (·.settledPlays)).sum = out.settledPlays ∧
    out.settledPlays = plays s c.pk fun r => r.state = .settled
  heldMicros : (out.screens.map (·.heldMicros)).sum = committed s c.pk .held
  settledMicros : (out.screens.map (·.settledMicros)).sum = committed s c.pk .settled
  awaiting : out.awaitingEvidence = plays s c.pk fun r => r.state = .held ∧ r.expires < now
  decisions : ∀ v ∈ out.screens, ∀ status, v.decisions status = s.deliveries.count fun d =>
    evidences s c.pk (fun r => r.screen = v.screenID) d ∧ d.status = status
  decided : ∀ status, (out.screens.map fun v => v.decisions status).sum = out.decisions status ∧
    out.decisions status = s.deliveries.count fun d => evidences s c.pk (fun _ => true) d ∧ d.status = status

/-! ### The first query -/

theorem mapM_ok {ε α β : Type} {f : α → Except ε β} {g : α → β} :
    ∀ {l : List α}, (∀ a ∈ l, f a = .ok (g a)) → l.mapM f = .ok (l.map g)
  | [], _ => rfl
  | a :: l, h => by
    rw [List.mapM_cons, h a List.mem_cons_self, mapM_ok fun x hx => h x (List.mem_cons_of_mem a hx)]
    rfl

section Rows

variable (s : Store) (c : CampaignRow) (now : Int)

/-- The reservations of the campaign, as the queries read them. -/
def rowsOf : List ReservationRow :=
  (reservationsOf s c.tenant).filter fun r => r.campaign = c.id

/-- The screens of the first query. -/
def screensUsed : List Screen :=
  orderBy (fun v => toLex (v.market, v.id))
    ((screensOf s).filter fun v => (rowsOf s c).any fun r => r.screen = v.id)

variable {s c}

theorem mem_rowsOf {r : ReservationRow} :
    r ∈ rowsOf s c ↔ r ∈ s.reservations ∧ r.tenant = c.tenant ∧ r.campaign = c.id := by
  rw [rowsOf, reservationsOf, List.mem_filter, mem_select]
  simp [and_assoc]

/-- The reservations of the campaign are rows of the table. -/
theorem perm_rowsOf : (rowsOf s c).Perm
    (s.reservations.filter fun r => r.tenant = c.tenant ∧ r.campaign = c.id).rows := by
  have hperm : (rowsOf s c).Perm
      ((s.reservations.rows.filter fun r => r.tenant = c.tenant).filter fun r => r.campaign = c.id) :=
    (orderBy_perm _ _).filter _
  rw [List.filter_filter] at hperm
  refine hperm.trans (List.Perm.of_eq (List.filter_congr fun r _ => ?_))
  rw [Bool.decide_and, Bool.and_comm]

/-- A sum over the reservations of the campaign. -/
theorem sum_rowsOf {M : Type} [AddCommMonoid M] (f : ReservationRow → M) :
    ((rowsOf s c).map f).sum =
      s.reservations.sum fun r => if r.tenant = c.tenant ∧ r.campaign = c.id then f r else 0 := by
  rw [(perm_rowsOf.map f).sum_eq]
  refine (Table.sum_filter s.reservations _ f).trans ?_
  simp only [decide_eq_true_eq]

theorem countP_rowsOf (q : ReservationRow → Bool) : (rowsOf s c).countP q = plays s c.pk q := by
  rw [countP_eq_sum, sum_rowsOf, plays, Table.count]
  refine congrArg List.sum (List.map_congr_left fun r _ => ?_)
  by_cases hr : r.tenant = c.tenant ∧ r.campaign = c.id
  · simp [hr, CampaignRow.pk]
  · have hno : ¬ (r.tenant = c.tenant ∧ r.campaign = c.id ∧ q r = true) := fun h => hr ⟨h.1, h.2.1⟩
    simp [hr, hno, CampaignRow.pk]

/-- A sum of costs over the reservations of the campaign with `q`. -/
theorem sumCost_filter (q : ReservationRow → Bool) (h : Hold) : sumCost ((rowsOf s c).filter q) h =
    s.reservations.sum fun r => if q r then share c.pk h r else 0 := by
  rw [sumCost, sum_map_filter, sum_map_filter, sum_rowsOf]
  refine congrArg List.sum (List.map_congr_left fun r _ => ?_)
  by_cases hr : r.tenant = c.tenant ∧ r.campaign = c.id
  · simp [share, hr, CampaignRow.pk]
  · have hother : share c.pk h r = 0 := share_other fun hk => hr (Prod.mk.inj hk)
    rw [if_neg hr, hother, ite_self]

theorem sumCost_rowsOf (h : Hold) : sumCost (rowsOf s c) h = committed s c.pk h := by
  have hall := sumCost_filter (s := s) (c := c) (fun _ => true) h
  rw [List.filter_true] at hall
  exact hall.trans (by simp [committed])

theorem nodup_screensUsed : ((screensUsed s c).map (·.id)).Nodup := by
  have hperm : ((screensUsed s c).map (·.id)).Perm
      (((screensOf s).filter fun v => (rowsOf s c).any fun r => r.screen = v.id).map (·.id)) :=
    (orderBy_perm _ _).map _
  rw [hperm.nodup_iff]
  have hscreens : ((screensOf s).map (·.id)).Perm ((s.screens.rows.filter fun _ => true).map (·.id)) :=
    (orderBy_perm _ _).map _
  rw [List.filter_true] at hscreens
  exact (hscreens.nodup_iff.mpr s.screens.nodup).sublist (List.filter_sublist.map _)

/-- The screens of the first query are those of the campaign's reservations: none is lost in the join. -/
theorem mem_screensUsed (h : Joined s) {screen : String} :
    screen ∈ (screensUsed s c).map (·.id) ↔ ∃ r ∈ rowsOf s c, r.screen = screen := by
  simp only [screensUsed, List.mem_map, mem_orderBy, List.mem_filter, List.any_eq_true,
    decide_eq_true_eq]
  constructor
  · rintro ⟨v, ⟨-, r, hr, hscreen⟩, rfl⟩
    exact ⟨r, hr, hscreen⟩
  · rintro ⟨r, hr, rfl⟩
    obtain ⟨v, hv⟩ := Option.ne_none_iff_exists'.mp (h.screen r (mem_rowsOf.mp hr).1)
    have hid : v.id = r.screen := Table.find?_key hv
    exact ⟨v, ⟨mem_select.mpr ⟨Table.mem_of_find? hv, rfl⟩, r, hr, hid.symm⟩, hid⟩

/-- The row of one screen. -/
def screenAnswer (s : Store) (c : CampaignRow) (now : Int) (v : Screen) : ScreenAssurance where
  screenID := v.id
  name := v.name
  market := v.market
  format := v.format
  reservedPlays := plays s c.pk fun r => r.screen = v.id ∧ r.state = .held
  settledPlays := plays s c.pk fun r => r.screen = v.id ∧ r.state = .settled
  releasedPlays := plays s c.pk fun r => r.screen = v.id ∧ r.state = .released
  heldMicros := micros s c.pk v.id .held
  settledMicros := micros s c.pk v.id .settled
  awaitingEvidence := plays s c.pk fun r => r.screen = v.id ∧ r.state = .held ∧ r.expires < now
  decisions := Counts.none

/-- A screen's reservations cost no more than the campaign has committed. -/
theorem micros_le (hcost : ∀ r ∈ s.reservations, 0 < r.cost) (screen : String) (h : Hold) :
    0 ≤ micros s c.pk screen h ∧ micros s c.pk screen h ≤ committed s c.pk h := by
  constructor
  · refine List.sum_nonneg fun x hx => ?_
    obtain ⟨r, hr, rfl⟩ := List.mem_map.mp hx
    split_ifs
    · exact share_nonneg (hcost r hr)
    · exact le_refl 0
  · refine List.sum_le_sum fun r hr => ?_
    split_ifs
    · exact le_refl _
    · exact share_nonneg (hcost r hr)

theorem countP_screen (screen : String) (q : ReservationRow → Bool) :
    ((rowsOf s c).filter fun r => r.screen = screen).countP q =
      plays s c.pk fun r => r.screen = screen ∧ q r := by
  rw [List.countP_filter, countP_rowsOf]
  congr 1
  funext r
  rw [Bool.decide_and, Bool.and_comm, Bool.decide_eq_true]

/-- The row of one screen is as it should be. -/
theorem screenRow_eq (hcost : ∀ r ∈ s.reservations, 0 < r.cost)
    (hfits : committed s c.pk .held + committed s c.pk .settled < 2 ^ 63) (now : Int) (v : Screen) :
    screenRow now (rowsOf s c) v = .ok (screenAnswer s c now v) := by
  have hsum (h : Hold) : sumCost ((rowsOf s c).filter fun r => r.screen = v.id) h =
      micros s c.pk v.id h := by
    rw [sumCost_filter, micros]
    simp only [decide_eq_true_eq]
  have hheld := micros_le (s := s) (c := c) hcost v.id .held
  have hsettled := micros_le (s := s) (c := c) hcost v.id .settled
  have hint₁ : int64 (micros s c.pk v.id .held) = true := by
    simp only [int64, Bool.and_eq_true, decide_eq_true_eq]
    omega
  have hint₂ : int64 (micros s c.pk v.id .settled) = true := by
    simp only [int64, Bool.and_eq_true, decide_eq_true_eq]
    omega
  simp only [screenRow, hsum, hint₁, hint₂, countP_screen, Bool.and_self, Bool.not_true, Bool.false_eq_true,
    if_false, screenAnswer, decide_eq_true_eq]

/-- **The groups of the first query** are the screens used, each with the numbers of its reservations. -/
theorem screenRows_eq (hcost : ∀ r ∈ s.reservations, 0 < r.cost)
    (hfits : committed s c.pk .held + committed s c.pk .settled < 2 ^ 63) (now : Int) :
    screenRows s (rowsOf s c) now = .ok ((screensUsed s c).map (screenAnswer s c now)) :=
  mapM_ok fun v _ => screenRow_eq hcost hfits now v

/-! ### The sums over the screens -/

/-- The plays of the screens add up. -/
theorem sum_plays (h : Joined s) (q : ReservationRow → Prop) [DecidablePred q] :
    ((screensUsed s c).map fun v => plays s c.pk fun r => r.screen = v.id ∧ q r).sum =
      plays s c.pk fun r => q r := by
  have hused : ∀ r ∈ rowsOf s c, r.screen ∈ (screensUsed s c).map (·.id) := fun r hr =>
    (mem_screensUsed h).mpr ⟨r, hr, rfl⟩
  have hgroups := countP_groups nodup_screensUsed (·.screen) (fun r => q r) (rowsOf s c) hused
  rw [List.map_map, countP_rowsOf] at hgroups
  rw [← hgroups]
  refine congrArg List.sum (List.map_congr_left fun v _ => ?_)
  rw [Function.comp_apply, countP_screen]
  simp only [decide_eq_true_eq]

/-- The money of the screens adds up. -/
theorem sum_micros (h : Joined s) (hd : Hold) :
    ((screensUsed s c).map fun v => micros s c.pk v.id hd).sum = committed s c.pk hd := by
  have hused : ∀ r ∈ rowsOf s c, r.screen ∈ (screensUsed s c).map (·.id) := fun r hr =>
    (mem_screensUsed h).mpr ⟨r, hr, rfl⟩
  have hcost (l : List ReservationRow) :
      (l.map fun r => if decide (r.state = hd) = true then r.cost else 0).sum = sumCost l hd :=
    (sum_map_filter _ _ l).symm
  have hgroups := sum_groups nodup_screensUsed (fun r : ReservationRow => r.screen)
    (fun r => if decide (r.state = hd) = true then r.cost else 0) (rowsOf s c) hused
  rw [List.map_map, hcost, sumCost_rowsOf] at hgroups
  rw [← hgroups]
  refine congrArg List.sum (List.map_congr_left fun v _ => ?_)
  rw [Function.comp_apply, hcost, sumCost_filter, micros]
  simp only [decide_eq_true_eq]

end Rows

/-! ### The loops -/

/-- The first loop. -/
theorem foldl_addScreen : ∀ (rows : List ScreenAssurance) (l : Loop), rows.foldl addScreen l =
    ⟨{ l.out with
      screens := l.out.screens ++ rows
      settledPlays := l.out.settledPlays + (rows.map (·.settledPlays)).sum
      heldPlays := l.out.heldPlays + (rows.map (·.reservedPlays)).sum
      awaitingEvidence := l.out.awaitingEvidence + (rows.map (·.awaitingEvidence)).sum },
    (rows.map (·.heldMicros)).foldl add64 l.held, (rows.map (·.settledMicros)).foldl add64 l.spent⟩
  | [], l => by simp
  | v :: rows, l => by
    rw [List.foldl_cons, foldl_addScreen rows]
    simp [addScreen, add_assoc]

/-- Additions of `int64` that stay in range do not wrap. -/
theorem foldl_add64 : ∀ (xs : List Int) (x : Int), (∀ y ∈ xs, 0 ≤ y) → 0 ≤ x → x + xs.sum < 2 ^ 63 →
    xs.foldl add64 x = x + xs.sum
  | [], x, _, _, _ => by simp
  | y :: xs, x, hnonneg, hx, hlt => by
    have hy : 0 ≤ y := hnonneg y List.mem_cons_self
    have hxs : ∀ z ∈ xs, 0 ≤ z := fun z hz => hnonneg z (List.mem_cons_of_mem y hz)
    have hsum : 0 ≤ xs.sum := List.sum_nonneg hxs
    rw [List.sum_cons] at hlt ⊢
    have hadd : add64 x y = x + y := by
      rw [add64]
      refine Int.bmod_eq_of_le ?_ ?_ <;> norm_num <;> omega
    rw [List.foldl_cons, hadd, foldl_add64 xs (x + y) hxs (by omega) (by omega), add_assoc]

/-- What the second loop writes for one screen. -/
def mark (screen : String) (m : Counts) (g : (String × Status) × ℕ) : Counts :=
  if screen = g.1.1 then Function.update m g.1.2 g.2 else m

/-- What the second loop adds to the campaign's counts. -/
def tally (m : Counts) (g : (String × Status) × ℕ) : Counts :=
  Function.update m g.1.2 (m g.1.2 + g.2)

/-- The second loop. -/
theorem foldl_addDecision : ∀ (gs : List ((String × Status) × ℕ)) (out : CampaignAssurance),
    gs.foldl addDecision out = { out with
      screens := out.screens.map fun v => { v with decisions := gs.foldl (mark v.screenID) v.decisions }
      decisions := gs.foldl tally out.decisions }
  | [], out => by simp
  | g :: gs, out => by
    have hmark (v : ScreenAssurance) : (if v.screenID = g.1.1 then
        { v with decisions := Function.update v.decisions g.1.2 g.2 } else v) =
        { v with decisions := mark v.screenID v.decisions g } := by
      rw [mark]
      split_ifs
      · rfl
      · rfl
    rw [List.foldl_cons, foldl_addDecision gs]
    simp only [addDecision, hmark, List.map_map, List.foldl_cons]
    rfl

/-- What the second loop writes for a screen, whatever the numbers of the groups. -/
theorem foldl_mark (n : String × Status → ℕ) (screen : String) (status : Status) :
    ∀ (l : List (String × Status)) (m : Counts),
      (l.map fun a => (a, n a)).foldl (mark screen) m status =
        if (screen, status) ∈ l then n (screen, status) else m status
  | [], m => by simp
  | a :: l, m => by
    have hmark : mark screen m (a, n a) status =
        if (screen, status) = a then n (screen, status) else m status := by
      obtain ⟨screen', status'⟩ := a
      by_cases hscreen : screen = screen'
      · by_cases hstatus : status = status'
        · simp [mark, hscreen, hstatus]
        · simp [mark, hscreen, hstatus]
      · simp [mark, hscreen]
    rw [List.map_cons, List.foldl_cons, foldl_mark n screen status l, hmark]
    by_cases hl : (screen, status) ∈ l
    · simp [hl]
    · simp [hl]

/-- **A group is written once**: a screen's count is the number of its links. -/
theorem marked (links : List (String × Status)) (screen : String) (status : Status) :
    (groupCount links).foldl (mark screen) Counts.none status =
      links.countP fun l => l = (screen, status) := by
  refine (foldl_mark _ screen status links.dedup Counts.none).trans ?_
  by_cases h : (screen, status) ∈ links
  · rw [if_pos (List.mem_dedup.mpr h)]
    rfl
  · rw [if_neg fun hd => h (List.mem_dedup.mp hd)]
    refine (List.countP_eq_zero.mpr fun l hl heq => ?_).symm
    rw [decide_eq_true_eq] at heq
    exact h (heq ▸ hl)

/-- What the second loop adds up, whatever the numbers of the groups. -/
theorem foldl_tally (status : Status) : ∀ (gs : List ((String × Status) × ℕ)) (m : Counts),
    gs.foldl tally m status = m status + ((gs.filter fun g => g.1.2 = status).map (·.2)).sum
  | [], m => by simp
  | g :: gs, m => by
    rw [List.foldl_cons, foldl_tally status gs]
    by_cases hg : g.1.2 = status
    · simp [tally, hg, add_assoc]
    · simp [tally, hg, Function.update_of_ne (Ne.symm hg)]

/-- **The groups of a status add up** to the number of links with it. -/
theorem tallied (links : List (String × Status)) (status : Status) :
    (groupCount links).foldl tally Counts.none status = links.countP fun l => l.2 = status := by
  rw [foldl_tally, ← List.sum_map_count_dedup_filter_eq_countP, groupCount, List.filter_map,
    List.map_map, Counts.none, zero_add]
  rfl

/-! ### The second query -/

section Links

variable {s : Store} {c : CampaignRow}

/-- What a delivery with a JSON payload is joined to. -/
def linkOf (s : Store) (c : CampaignRow) (d : DeliveryRow) : Option (String × Status) :=
  match d.payload with
  | .other _ => none
  | .json p => ((s.reservations.find? (d.tenant, p.reservationID)).filter fun r => r.campaign = c.id).map
      fun r => (r.screen, d.status)

/-- The rows of the second query. -/
def linksOf (s : Store) (c : CampaignRow) : List (String × Status) :=
  (deliveriesOf s c.tenant).filterMap (linkOf s c)

theorem linked_eq (h : Joined s) : linked s c.tenant c.id = .ok (linksOf s c) := by
  have hlink : ∀ d ∈ deliveriesOf s c.tenant, link s c.id d = .ok (linkOf s c d) := by
    intro d hd
    obtain ⟨p, hp⟩ := h.payload d (mem_select.mp hd).1
    simp only [link, linkOf, hp]
  have hlinks : ((deliveriesOf s c.tenant).map (linkOf s c)).reduceOption = linksOf s c := by
    show List.filterMap id _ = _
    rw [List.filterMap_map, linksOf]
    rfl
  rw [linked, mapM_ok hlink, ← hlinks]
  rfl

/-- **A link is evidence**: the delivery's payload names a reservation of the campaign. -/
theorem linkOf_eq_some {d : DeliveryRow} (hd : d.tenant = c.tenant) {screen : String} {status : Status} :
    linkOf s c d = some (screen, status) ↔
      evidences s c.pk (fun r => r.screen = screen) d = true ∧ d.status = status := by
  cases hp : d.payload with
  | other raw => simp [linkOf, hp, evidences, DeliveryRow.names]
  | json p =>
    simp only [linkOf, hp, evidences, DeliveryRow.names, Option.map_eq_some_iff, Option.filter_eq_some_iff,
      decide_eq_true_eq, Prod.mk.injEq, CampaignRow.pk, hd, true_and, beq_iff_eq, Table.find?_eq_some]
    constructor
    · rintro ⟨r, ⟨⟨hmem, hpk⟩, hcampaign⟩, hscreen, hstatus⟩
      obtain ⟨htenant, hid⟩ := Prod.mk.inj hpk
      exact ⟨⟨r, hmem, htenant, hcampaign, hid.symm, hscreen⟩, hstatus⟩
    · rintro ⟨⟨r, hmem, htenant, hcampaign, hid, hscreen⟩, hstatus⟩
      exact ⟨r, ⟨⟨hmem, Prod.ext htenant hid.symm⟩, hcampaign⟩, hscreen, hstatus⟩

/-- The links with `q` are the deliveries that are evidence. -/
theorem countP_linksOf (q : String × Status → Bool) {p : DeliveryRow → Bool}
    (hp : ∀ d, p d = true ↔ d.tenant = c.tenant ∧ ∃ l, linkOf s c d = some l ∧ q l = true) :
    (linksOf s c).countP q = s.deliveries.count p := by
  rw [linksOf, List.countP_filterMap, deliveriesOf, countP_select]
  congr 1
  funext d
  rw [Bool.eq_iff_iff, hp]
  cases hl : linkOf s c d with
  | none => simp
  | some l => simp

/-- The links of a screen with a status. -/
theorem count_linksOf (screen : String) (status : Status) :
    ((linksOf s c).countP fun l => l = (screen, status)) = s.deliveries.count fun d =>
      evidences s c.pk (fun r => r.screen = screen) d ∧ d.status = status := by
  refine countP_linksOf _ fun d => ?_
  simp only [decide_eq_true_eq, exists_eq_right]
  constructor
  · intro hev
    have hd : d.tenant = c.tenant := (of_decide_eq_true hev.1).1
    exact ⟨hd, (linkOf_eq_some hd).mpr hev⟩
  · rintro ⟨hd, hlink⟩
    exact (linkOf_eq_some hd).mp hlink

/-- The links with a status. -/
theorem count_status (status : Status) :
    ((linksOf s c).countP fun l => l.2 = status) = s.deliveries.count fun d =>
      evidences s c.pk (fun _ => true) d ∧ d.status = status := by
  refine countP_linksOf _ fun d => ?_
  simp only [decide_eq_true_eq, Prod.exists]
  constructor
  · rintro ⟨hev, hstatus⟩
    obtain ⟨hd, r, hr, htenant, hcampaign, hnames, -⟩ := of_decide_eq_true hev
    have hon : evidences s c.pk (fun x => x.screen = r.screen) d = true :=
      decide_eq_true ⟨hd, r, hr, htenant, hcampaign, hnames, by simp⟩
    exact ⟨hd, r.screen, status, (linkOf_eq_some hd).mpr ⟨hon, hstatus⟩, rfl⟩
  · rintro ⟨hd, screen, _, hlink, rfl⟩
    obtain ⟨hev, hstatus⟩ := (linkOf_eq_some hd).mp hlink
    obtain ⟨-, r, hr, htenant, hcampaign, hnames, -⟩ := of_decide_eq_true hev
    exact ⟨decide_eq_true ⟨hd, r, hr, htenant, hcampaign, hnames, rfl⟩, hstatus⟩

/-- The counts of the screens add up. -/
theorem sum_links (h : Joined s) (status : Status) :
    ((screensUsed s c).map fun v => (linksOf s c).countP fun l => l = (v.id, status)).sum =
      (linksOf s c).countP fun l => l.2 = status := by
  have hused : ∀ l ∈ linksOf s c, l.1 ∈ (screensUsed s c).map (·.id) := by
    rintro ⟨screen, st⟩ hl
    obtain ⟨d, hd, hlink⟩ := List.mem_filterMap.mp hl
    have htenant : d.tenant = c.tenant := of_decide_eq_true (mem_select.mp hd).2
    obtain ⟨hev, -⟩ := (linkOf_eq_some htenant).mp hlink
    obtain ⟨-, r, hr, hrt, hrc, -, hscreen⟩ := of_decide_eq_true hev
    exact (mem_screensUsed h).mpr ⟨r, mem_rowsOf.mpr ⟨hr, hrt, hrc⟩, of_decide_eq_true hscreen⟩
  have hgroups := countP_groups nodup_screensUsed (fun l : String × Status => l.1)
    (fun l => l.2 = status) (linksOf s c) hused
  rw [List.map_map] at hgroups
  rw [← hgroups]
  refine congrArg List.sum (List.map_congr_left fun v _ => ?_)
  rw [Function.comp_apply, List.countP_filter]
  congr 1
  funext l
  rw [← Bool.decide_and, decide_eq_decide, Prod.ext_iff, and_comm]

end Links

/-! ### The report -/

section Report

variable {s : Store} {c : CampaignRow}

/-- The row of one screen, with its decisions. -/
def screenReport (s : Store) (c : CampaignRow) (now : Int) (v : Screen) : ScreenAssurance :=
  { screenAnswer s c now v with
    decisions := fun status => (linksOf s c).countP fun l => l = (v.id, status) }

/-- **What `Assurance` answers** where the joins lose nothing and the money fits. -/
theorem assurance_eq (h : Joined s) (hcost : ∀ r ∈ s.reservations, 0 < r.cost)
    (hfits : committed s c.pk .held + committed s c.pk .settled < 2 ^ 63) (hid : validID c.id = true)
    (hc : s.campaigns.find? c.pk = some c) (now : Int) :
    assurance s c.tenant c.id now = .ok {
      campaign := c.toCampaign
      screens := (screensUsed s c).map (screenReport s c now)
      observedAt := now
      scope := scopeText
      budgetConsistent := committed s c.pk .held = c.reserved ∧ committed s c.pk .settled = c.spent ∧
        committed s c.pk .held + committed s c.pk .settled ≤ c.budget
      settledPlays := plays s c.pk fun r => r.state = .settled
      heldPlays := plays s c.pk fun r => r.state = .held
      awaitingEvidence := plays s c.pk fun r => r.state = .held ∧ r.expires < now
      decisions := fun status => (linksOf s c).countP fun l => l.2 = status } := by
  have hnonneg (screen : String) (hd : Hold) : 0 ≤ micros s c.pk screen hd :=
    (micros_le (s := s) (c := c) hcost screen hd).1
  have hheld₀ := (micros_le (s := s) (c := c) hcost "" .held).1.trans (micros_le hcost "" .held).2
  have hsettled₀ := (micros_le (s := s) (c := c) hcost "" .settled).1.trans (micros_le hcost "" .settled).2
  have hfold (hd : Hold) (hlt : committed s c.pk hd < 2 ^ 63) :
      ((screensUsed s c).map fun v => micros s c.pk v.id hd).foldl add64 0 = committed s c.pk hd := by
    have hsum := sum_micros (c := c) h hd
    rw [foldl_add64 _ 0 _ (le_refl 0), zero_add, hsum]
    · rw [zero_add, hsum]
      exact hlt
    · intro y hy
      obtain ⟨v, -, rfl⟩ := List.mem_map.mp hy
      exact hnonneg v.id hd
  have hsum : add64 (committed s c.pk .held) (committed s c.pk .settled) =
      committed s c.pk .held + committed s c.pk .settled := by
    rw [add64]
    refine Int.bmod_eq_of_le ?_ ?_ <;> norm_num <;> omega
  have hmarked (v : Screen) : (groupCount (linksOf s c)).foldl (mark v.id) Counts.none =
      fun status => (linksOf s c).countP fun l => l = (v.id, status) := funext (marked _ v.id)
  have htallied : (groupCount (linksOf s c)).foldl tally Counts.none =
      fun status => (linksOf s c).countP fun l => l.2 = status := funext (tallied _)
  rw [assurance, hid]
  simp only [Bool.not_true, Bool.false_eq_true, if_false]
  rw [show s.campaigns.find? (c.tenant, c.id) = some c from hc]
  show (screenRows s (rowsOf s c) now >>= _) = _
  rw [screenRows_eq hcost hfits, linked_eq h]
  simp only [bind, Except.bind, pure, Except.pure, foldl_addScreen, foldl_addDecision, List.map_map,
    Function.comp_def, List.nil_append, zero_add, screenAnswer, sum_plays h, hmarked, htallied,
    hfold .held (by omega), hfold .settled (by omega), hsum]
  rfl

/-- **The report agrees with the tables**, and says whether the balances do. -/
theorem assurance_ok (h : Joined s) (hcost : ∀ r ∈ s.reservations, 0 < r.cost)
    (hfits : committed s c.pk .held + committed s c.pk .settled < 2 ^ 63) (hid : validID c.id = true)
    (hc : s.campaigns.find? c.pk = some c) (now : Int) :
    ∃ out, assurance s c.tenant c.id now = .ok out ∧ Agrees s c now out ∧
      (out.budgetConsistent = true ↔ c.reserved = committed s c.pk .held ∧
        c.spent = committed s c.pk .settled ∧
        committed s c.pk .held + committed s c.pk .settled ≤ c.budget) := by
  have hmap {α : Type} (f : ScreenAssurance → α) :
      ((screensUsed s c).map (screenReport s c now)).map f =
        (screensUsed s c).map fun v => f (screenReport s c now v) := List.map_map
  refine ⟨_, assurance_eq h hcost hfits hid hc now, ⟨rfl, rfl, ?_, ?_, ?_, ?_, ?_, ?_, ?_, ?_, rfl, ?_, ?_⟩,
    ?_⟩
  · rw [hmap]
    exact nodup_screensUsed
  · intro screen
    rw [hmap]
    refine (mem_screensUsed h).trans ?_
    simp only [mem_rowsOf, and_assoc]
  · intro v hv
    obtain ⟨v, -, rfl⟩ := List.mem_map.mp hv
    exact ⟨rfl, rfl, rfl⟩
  · intro v hv
    obtain ⟨v, -, rfl⟩ := List.mem_map.mp hv
    exact ⟨rfl, rfl⟩
  · rw [hmap]
    exact ⟨sum_plays h fun r => r.state = .held, rfl⟩
  · rw [hmap]
    exact ⟨sum_plays h fun r => r.state = .settled, rfl⟩
  · rw [hmap]
    exact sum_micros h .held
  · rw [hmap]
    exact sum_micros h .settled
  · intro v hv status
    obtain ⟨v, -, rfl⟩ := List.mem_map.mp hv
    exact count_linksOf v.id status
  · intro status
    rw [hmap]
    exact ⟨sum_links h status, count_status status⟩
  · simp only [decide_eq_true_eq]
    rw [eq_comm, eq_comm (b := c.spent)]

end Report

/-- **Campaign assurance agrees with the ledger.** In every reachable store the report on a campaign is
consistent and says of each screen, of the campaign and of its decisions what the tables hold; and with
any balances in place of those of the campaigns it is consistent exactly when they are the sums of the
holds and of the settled plays and these stay within the budget. -/
theorem assurance_agrees (H : Digest) (es : List Event) (now : Int) :
    let s := (runEvents H es Db.empty).core
    (∀ c ∈ s.campaigns, ∃ out, assurance s c.tenant c.id now = .ok out ∧ Agrees s c now out ∧
      out.budgetConsistent = true ∧ (out.screens.map (·.heldMicros)).sum = c.reserved ∧
      (out.screens.map (·.settledMicros)).sum = c.spent) ∧
    ∀ (t : Table CampaignRow.pk), ∀ c ∈ t, validID c.id = true →
      ∃ out, assurance { s with campaigns := t } c.tenant c.id now = .ok out ∧
        (out.budgetConsistent = true ↔ c.reserved = committed s c.pk .held ∧
          c.spent = committed s c.pk .settled ∧
          committed s c.pk .held + committed s c.pk .settled ≤ c.budget) := by
  intro s
  have hatt : Attributable s := Attributable.runEvents H es
  have hbal : Balanced s := balanced_runEvents H es
  have hfits (k : Key2) : committed s k .held + committed s k .settled < 2 ^ 63 := by
    cases hk : s.campaigns.find? k with
    | none =>
      rw [hbal.committed_none hk, hbal.committed_none hk]
      norm_num
    | some c =>
      obtain ⟨⟨-, hb⟩, -, -, hle⟩ := check_ok_iff.mp (hbal.check k c hk)
      rw [← hbal.reserved k c hk, ← hbal.spent k c hk]
      omega
  constructor
  · intro c hc
    have hfind := Table.find?_of_mem hc
    obtain ⟨out, hout, hagrees, hiff⟩ :=
      assurance_ok hatt.toJoined hbal.cost (hfits c.pk) (hatt.campaign c hc) hfind now
    have hreserved := hbal.reserved _ c hfind
    have hspent := hbal.spent _ c hfind
    obtain ⟨-, -, -, hle⟩ := check_ok_iff.mp (hbal.check _ c hfind)
    refine ⟨out, hout, hagrees, hiff.mpr ⟨hreserved, hspent, ?_⟩, ?_, ?_⟩
    · rw [← hreserved, ← hspent]
      exact hle
    · rw [hagrees.heldMicros, hreserved]
    · rw [hagrees.settledMicros, hspent]
  · intro t c hc hid
    obtain ⟨out, hout, -, hiff⟩ := assurance_ok (s := { s with campaigns := t })
      ⟨hatt.screen, hatt.payload⟩ hbal.cost (hfits c.pk) hid (Table.find?_of_mem hc) now
    exact ⟨out, hout, hiff⟩

/-- Holds on two screens: the play of the first is settled, the second is released and a third is held. -/
def twoScreens : List Event :=
  [.call ⟨.seed "demo", none⟩,
    .call ⟨.reserve "demo" "key-0001" ⟨"cmp-cascade", "sea-01", 10000⟩ ⟨"r1", 0, 0, ⟨"a1", 0⟩⟩, none⟩,
    .call ⟨.reserve "demo" "key-0002" ⟨"cmp-cascade", "sea-02", 20000⟩ ⟨"r2", 0, 0, ⟨"a2", 0⟩⟩, none⟩,
    .call ⟨.accept "demo" ⟨1, "event-1", "r1", "sea-01", 0, 10000⟩ ⟨"d1", 0, [], ⟨"a3", 0⟩⟩, none⟩,
    .call ⟨.process "demo" "d1" ⟨0, ⟨"a4", 0⟩⟩, none⟩,
    .call ⟨.release "demo" "r2" 1800001 ⟨"a5", 1800001⟩, none⟩,
    .call ⟨.reserve "demo" "key-0003" ⟨"cmp-cascade", "sea-02", 30000⟩ ⟨"r3", 0, 0, ⟨"a6", 0⟩⟩, none⟩]

theorem assurance_agrees_twoScreens :
    let s := (runEvents ⟨fun i => i.screenID, fun r => r.eventID⟩ twoScreens Db.empty).core
    ∃ out, assurance s "demo" "cmp-cascade" 0 = .ok out ∧ out.budgetConsistent = true ∧
      (out.screens.map (·.heldMicros)).sum = 30000 ∧ (out.screens.map (·.settledMicros)).sum = 10000 := by
  intro s
  have hc : s.campaigns.find? ("demo", "cmp-cascade") =
      some ⟨⟨"cmp-cascade", "Cascade / A little further", 250000000, 30000, 10000⟩, "demo"⟩ := by
    decide +kernel
  obtain ⟨out, hout, -, hcons, hheld, hsettled⟩ :=
    (assurance_agrees _ twoScreens 0).1 _ (Table.mem_of_find? hc)
  exact ⟨out, hout, hcons, hheld, hsettled⟩

end Afterglow.Core.Assurance
