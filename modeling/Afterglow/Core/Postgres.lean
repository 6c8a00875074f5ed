import Afterglow.Core.Ledger
import Afterglow.Core.Settlement
import Afterglow.Sql.ReadCommitted

/-! # The store on PostgreSQL, statement by statement

`Reserve`, `Accept`, `Process` and the release of a hold as sequences of statements of any number of
sessions, under READ COMMITTED. `Process` takes the row lock of the reservation before it reads it, by an
`UPDATE` that sets the state to itself; where that `UPDATE` finds no row it locks nothing, and a
reservation committed before the read is then read without a lock. Two `Process`es that do so both see it
held and both charge it (`double_charge`). As long as every reservation is read under its lock, or is not
there to be read, the ledger stays exact and each reservation is charged at most once. -/

namespace Afterglow.Core.Postgres

open Afterglow.Sql.Rows Afterglow.Sql.Txn Afterglow.Sql.ReadCommitted Afterglow.Core.Model
open Afterglow.Core.Statements Afterglow.Core.Store Afterglow.Core.Outcome Afterglow.Core.Run
open Afterglow.Core.Ledger Afterglow.Core.Settlement

/-- A transaction a session can begin. -/
inductive Request
  | reserve (tenant key : String) (inp : ReservationInput) (d : ReserveDraw)
  | accept (tenant : String) (r : Receipt) (d : AcceptDraw)
  | process (tenant id : String) (d : ProcessDraw)
  | release (tenant id : String) (now : Int) (d : Stamp)

/-- A step of the database with `n` sessions. -/
inductive Event (n : ℕ)
  | start (i : Fin n) (q : Request)
  | exec (i : Fin n)
  | finish (i : Fin n)
  | abort (i : Fin n)

def Event.act (H : Digest) {n : ℕ} : Event n → Act Stmt Err n
  | .start i (.reserve tenant key inp d) => .start i (Store.reserve H tenant key inp d)
  | .start i (.accept tenant r d) => .start i (Store.accept H tenant r d)
  | .start i (.process tenant id d) => .start i (Store.process tenant id d)
  | .start i (.release tenant id now d) => .start i (Store.release tenant id now d)
  | .exec i => .exec i
  | .finish i => .finish i
  | .abort i => .abort i

/-- The database with `n` sessions. -/
abbrev Pg (n : ℕ) := Db Stmt Store Write Err n

def Pg.run (H : Digest) {n : ℕ} (x : Pg n) (es : List (Event n)) : Pg n :=
  Db.run core x (es.map (Event.act H))

/-- A committed transaction moved the cost of reservation `k` from reserved to spent: it wrote the
reservation as settled and a campaign. -/
def charges (k : Key2) (ws : List Write) : Bool :=
  (ws.any fun
    | .reservation r => r.pk = k ∧ r.state = .settled
    | _ => false) &&
  ws.any fun
    | .campaign _ => true
    | _ => false

/-- A reservation is read under its lock, or is not there. -/
def lockedRead (ws : List Write) (s : Store) : {β : Type} → Stmt β → Bool
  | _, .selectReservation tenant id =>
    ((core.writeAll ws s).reservations.find? (tenant, id)).isNone ||
      (keysOf core ws).contains (.reservation (tenant, id))
  | _, _ => true

/-- **What the rule is told**: the ledger is exact, what is not settled was not charged, and nothing was
charged twice. -/
def ledgerSpec : Spec Stmt Store Write Lock where
  Inv s log := Balanced s ∧ ∀ k, log.countP (charges k) ≤ if isSettled s k then 1 else 0
  Agree L s s' := ∀ k, (.campaign k ∈ L → s'.campaigns.find? k = s.campaigns.find? k) ∧
    (.reservation k ∈ L → s'.reservations.find? k = s.reservations.find? k)
  Cond st ws s := lockedRead ws s st = true

/-! ### Writes and keys -/

section Write

theorem mem_keysOf {ws : List Write} {w : Write} {key : Lock} (hw : w ∈ ws) (hk : key ∈ lockKeys w) :
    key ∈ keysOf core ws := List.mem_flatMap.mpr ⟨w, hw, hk⟩

/-- A write elsewhere leaves a row as it is. -/
theorem find_write (w : Write) (s : Store) (k : Key2) :
    (.campaign k ∉ lockKeys w → (writeRow w s).campaigns.find? k = s.campaigns.find? k) ∧
    (.reservation k ∉ lockKeys w → (writeRow w s).reservations.find? k = s.reservations.find? k) := by
  refine ⟨fun h => ?_, fun h => ?_⟩
  · cases w with
    | campaign c =>
      have hne : c.pk ≠ k := fun he => h (by rw [← he]; exact List.mem_cons_self)
      exact Table.find?_put_ne hne
    | _ => rfl
  · cases w with
    | reservation r =>
      have hne : r.pk ≠ k := fun he => h (by rw [← he]; exact List.mem_cons_self)
      exact Table.find?_put_ne hne
    | _ => rfl

theorem find_writeAll : ∀ (ws : List Write) (s : Store) (k : Key2),
    (.campaign k ∉ keysOf core ws →
      (core.writeAll ws s).campaigns.find? k = s.campaigns.find? k) ∧
    (.reservation k ∉ keysOf core ws →
      (core.writeAll ws s).reservations.find? k = s.reservations.find? k)
  | [], _, _ => ⟨fun _ => rfl, fun _ => rfl⟩
  | w :: ws, s, k => by
    obtain ⟨hc, hr⟩ := find_writeAll ws (writeRow w s) k
    obtain ⟨hc', hr'⟩ := find_write w s k
    have hmem : ∀ key, key ∉ keysOf core (w :: ws) → key ∉ lockKeys w ∧ key ∉ keysOf core ws := by
      intro key hkey
      refine ⟨fun h => hkey (mem_keysOf List.mem_cons_self h), fun h => hkey ?_⟩
      obtain ⟨v, hv, hk⟩ := List.mem_flatMap.mp h
      exact mem_keysOf (List.mem_cons_of_mem _ hv) hk
    refine ⟨fun h => ?_, fun h => ?_⟩
    · exact (hc (hmem _ h).2).trans (hc' (hmem _ h).1)
    · exact (hr (hmem _ h).2).trans (hr' (hmem _ h).1)

theorem ledgerSpec_lawful : ledgerSpec.Lawful core where
  refl _ _ _ := ⟨fun _ => rfl, fun _ => rfl⟩
  trans _ _ _ _ h h' k :=
    ⟨fun hk => ((h' k).1 hk).trans ((h k).1 hk), fun hk => ((h' k).2 hk).trans ((h k).2 hk)⟩
  mono _ _ _ _ hL h k := ⟨fun hk => (h k).1 (hL hk), fun hk => (h k).2 (hL hk)⟩
  write L ws s hno k := by
    obtain ⟨hc, hr⟩ := find_writeAll ws s k
    exact ⟨fun hk => hc fun h => hno _ h hk, fun hk => hr fun h => hno _ h hk⟩

/-- The write is to one of the two tables that hold money. -/
def money : Write → Bool
  | .campaign _ => true
  | .reservation _ => true
  | _ => false

/-- Only the writes of money change the two tables. -/
theorem tables_writeAll : ∀ (ws : List Write) (s t : Store), s.campaigns = t.campaigns →
    s.reservations = t.reservations →
    (core.writeAll ws s).campaigns = (core.writeAll (ws.filter money) t).campaigns ∧
      (core.writeAll ws s).reservations = (core.writeAll (ws.filter money) t).reservations
  | [], _, _, hc, hr => ⟨hc, hr⟩
  | w :: ws, s, t, hc, hr => by
    cases w with
    | campaign c => exact tables_writeAll ws _ _ (congrArg (·.put c) hc) hr
    | reservation r => exact tables_writeAll ws _ _ hc (congrArg (·.put r) hr)
    | _ => exact tables_writeAll ws _ t hc hr

theorem charges_filter (k : Key2) (ws : List Write) : charges k (ws.filter money) = charges k ws := by
  have hany : ∀ q : Write → Bool, (∀ w, q w = true → money w = true) →
      (ws.filter money).any q = ws.any q := by
    intro q hq
    rw [List.any_filter]
    congr 1
    funext w
    by_cases hw : q w = true
    · rw [hw, hq w hw]; rfl
    · rw [Bool.not_eq_true] at hw
      rw [hw, Bool.and_false]
  unfold charges
  rw [hany, hany]
  · intro w; cases w <;> simp [money]
  · intro w; cases w <;> simp [money]

end Write

/-- Committing the writes `m` on `s` keeps the invariant. -/
def Keeps (m : List Write) (s : Store) : Prop :=
  ∀ log, ledgerSpec.Inv s log → ledgerSpec.Inv (core.writeAll m s) (log ++ [m])

theorem keeps_of_money {ws : List Write} {s : Store} (h : Keeps (ws.filter money) s) : Keeps ws s := by
  intro log hinv
  obtain ⟨hc, hr⟩ := tables_writeAll ws s s rfl rfl
  obtain ⟨hb, hcount⟩ := h log hinv
  refine ⟨hb.congr hc hr, fun k => ?_⟩
  have := hcount k
  unfold isSettled at this ⊢
  rw [hr]
  rw [List.countP_append, List.countP_singleton, charges_filter] at this
  rw [List.countP_append, List.countP_singleton]
  exact this

/-! ### What a commit does to the ledger -/

section Keeps

variable {s : Store}

/-- Writes that are no charge. -/
theorem countP_no_charge {log : List (List Write)} {m : List Write} {k : Key2}
    (h : charges k m = false) : (log ++ [m]).countP (charges k) = log.countP (charges k) := by
  rw [List.countP_append, List.countP_singleton, h]; rfl

theorem keeps_nil : Keeps [] s := by
  rintro log ⟨hb, hcount⟩
  refine ⟨hb, fun k => ?_⟩
  rw [countP_no_charge rfl]
  exact hcount k

/-- A lock taken and nothing else. -/
theorem keeps_lock {r : ReservationRow} (hr : s.reservations.find? r.pk = some r) :
    Keeps [.reservation r] s := by
  rintro log ⟨hb, hcount⟩
  rw [write_reservation_self hr]
  refine ⟨hb, fun k => ?_⟩
  rw [countP_no_charge (by unfold charges; simp)]
  exact hcount k

theorem keeps_hold {c : CampaignRow} {r : ReservationRow} (hst : r.state = .held) (hcost : 0 < r.cost)
    (hc : s.campaigns.find? (r.tenant, r.campaign) = some c)
    (hck : CampaignRow.check { c with reserved := c.reserved + r.cost } = .ok ())
    (hr : s.reservations.find? r.pk = none) :
    Keeps [.campaign c, .campaign { c with reserved := c.reserved + r.cost }, .reservation r] s := by
  rintro log ⟨hb, hcount⟩
  have hcam : (s.campaigns.put c).put { c with reserved := c.reserved + r.cost } =
      s.campaigns.put { c with reserved := c.reserved + r.cost } := Table.put_put rfl
  refine ⟨(hb.held (a := ⟨"", "", .reserved, "", "", 0⟩) hc hck hr hcost hst).congr hcam rfl, fun k => ?_⟩
  rw [countP_no_charge (by unfold charges; simp [hst])]
  have hset : isSettled (core.writeAll [.campaign c, .campaign { c with reserved := c.reserved + r.cost },
      .reservation r] s) k = isSettled s k :=
    isSettled_put rfl (by rw [hst]; simp) (isSettled_of_none hr) k
  exact (hcount k).trans (le_of_eq (by rw [hset]))

theorem keeps_release {c : CampaignRow} {r : ReservationRow} (hh : r.state = .held)
    (hr : s.reservations.find? r.pk = some r)
    (hc : s.campaigns.find? (r.tenant, r.campaign) = some c) (hck : (refund r.cost c).check = .ok ()) :
    Keeps [.reservation { r with state := .released }, .campaign (refund r.cost c)] s := by
  rintro log ⟨hb, hcount⟩
  have hcam : s.campaigns.put (refund r.cost c) =
      s.campaigns.modify (r.tenant, r.campaign) (refund r.cost) :=
    (Table.modify_of_find? (refund r.cost) hc).symm
  have hbal := hb.released (a := ⟨"", "", .released, "", "", 0⟩) hr hh fun c' hc' => by
    cases hc.symm.trans hc'; exact hck
  refine ⟨hbal.congr hcam rfl, fun k => ?_⟩
  rw [countP_no_charge (by unfold charges; simp)]
  have hbefore : isSettled s r.pk = false := by rw [isSettled_of_find hr, hh]; rfl
  have hset : isSettled (core.writeAll [.reservation { r with state := .released },
      .campaign (refund r.cost c)] s) k = isSettled s k :=
    isSettled_put (r := { r with state := .released }) rfl (by simp) hbefore k
  exact (hcount k).trans (le_of_eq (by rw [hset]))

/-- **The charge**: it is the first for its reservation. -/
theorem keeps_settle {c : CampaignRow} {r : ReservationRow} (hh : r.state = .held)
    (hr : s.reservations.find? r.pk = some r)
    (hc : s.campaigns.find? (r.tenant, r.campaign) = some c) (hck : (charge r.cost c).check = .ok ()) :
    Keeps [.reservation r, .reservation { r with state := .settled }, .campaign (charge r.cost c)] s := by
  rintro log ⟨hb, hcount⟩
  have hcam : s.campaigns.put (charge r.cost c) =
      s.campaigns.modify (r.tenant, r.campaign) (charge r.cost) :=
    (Table.modify_of_find? (charge r.cost) hc).symm
  have hres : (s.reservations.put r).put { r with state := .settled } =
      s.reservations.put { r with state := .settled } := Table.put_put rfl
  have hbal := hb.settled hr hh fun c' hc' => by cases hc.symm.trans hc'; exact hck
  set m : List Write := [.reservation r, .reservation { r with state := .settled },
    .campaign (charge r.cost c)] with hm
  have hfind : ∀ k, (core.writeAll m s).reservations.find? k =
      if r.pk = k then some { r with state := .settled } else s.reservations.find? k := fun k => by
    rw [show (core.writeAll m s).reservations = s.reservations.put { r with state := .settled } from hres]
    exact Table.find?_put _ _ k
  have hcharge : ∀ k, charges k m = decide (r.pk = k) := by
    intro k
    unfold charges
    simp only [hm, List.any_cons, List.any_nil, hh, reduceCtorEq, and_false, decide_false,
      Bool.false_or, and_true, Bool.or_false, Bool.or_true, Bool.and_true]
    exact decide_eq_decide.mpr Iff.rfl
  refine ⟨hbal.congr hcam hres, fun k => ?_⟩
  rw [List.countP_append, List.countP_singleton, hcharge]
  have hk := hcount k
  by_cases he : r.pk = k
  · subst he
    have hafter : isSettled (core.writeAll m s) r.pk = true :=
      isSettled_of_find (r := { r with state := .settled }) (by rw [hfind, if_pos rfl])
    have hbefore : isSettled s r.pk = false := by rw [isSettled_of_find hr, hh]; rfl
    rw [hbefore] at hk
    rw [hafter]
    simp only [Bool.false_eq_true, if_false, decide_true, if_true] at hk ⊢
    omega
  · have hsame : isSettled (core.writeAll m s) k = isSettled s k := by
      unfold isSettled; rw [hfind, if_neg he]
    rw [hsame]
    simp only [he, decide_false, Bool.false_eq_true, if_false, add_zero]
    exact hk

end Keeps

/-! ### Statements that leave the money alone -/

/-- The statement writes neither a campaign nor a reservation. -/
def spare : {β : Type} → Stmt β → Prop
  | _, .insertCampaign .. => False
  | _, .lockCampaign .. => False
  | _, .debitCampaign .. => False
  | _, .insertReservation .. => False
  | _, .lockReservation .. => False
  | _, .settleReservation .. => False
  | _, .chargeCampaign .. => False
  | _, .releaseReservation .. => False
  | _, .refundCampaign .. => False
  | _, _ => True

theorem filter_updateRow {ρ : Type} {key : ρ → Key2} {t : Table key} {k : Key2} {p : ρ → Bool}
    {f : ρ → ρ} {check : ρ → Except Err Unit} {w : ρ → Write} {n : ℕ} {ws : List Write}
    (hw : ∀ r, money (w r) = false) (h : updateRow t k p f check w = .ok (n, ws)) :
    ws.filter money = [] := by
  rcases updateRow_cases h with ⟨-, rfl, -⟩ | ⟨r, -, -, -, -, rfl⟩
  · rfl
  · simp [hw]

theorem filter_insertRow {ρ κ : Type} [DecidableEq κ] {key : ρ → κ} {t : Table key} {skip : ρ → Bool}
    {r : ρ} {clash : Err} {check : Except Err Unit} {w : ρ → Write} {n : ℕ} {ws : List Write}
    (hw : ∀ r, money (w r) = false) (h : insertRow t skip r clash check w = .ok (n, ws)) :
    ws.filter money = [] := by
  rcases insertRow_cases h with ⟨-, rfl, -⟩ | ⟨-, -, -, -, rfl⟩
  · rfl
  · simp [hw]

theorem filter_spare {β : Type} (st : Stmt β) {locked : Lock → Bool} {s : Store} {b : β}
    {ws : List Write} (hst : spare st) (he : core.eval st locked s = .ok (b, ws)) :
    ws.filter money = [] := by
  rw [eval_core] at he
  cases st <;> rw [evalStmt] at he
  case selectDue postgres now =>
    cases he
    split_ifs
    · cases firstDue (claimable s postgres locked now) <;> rfl
    · rfl
  case insertQuarantine postgres q =>
    split_ifs at he
    exact filter_insertRow (fun _ => rfl) he
  -- the others read, write one row of another table, or are excluded
  all_goals first
    | exact hst.elim
    | exact filter_insertRow (fun _ => rfl) he
    | exact filter_updateRow (fun _ => rfl) he
    | (cases he; rfl)

/-- **The rest of a transaction that leaves the money alone** commits what is written so far. -/
theorem ok_spare {α : Type} : ∀ (p : Tx α) (ws : List Write) (s : Store), p.All spare →
    (∀ s', ledgerSpec.Agree (keysOf core ws) s s' → Balanced s' → Keeps (ws.filter money) s') →
    Ok core ledgerSpec p ws s
  | .commit _, ws, s, _, h => fun s' log hag hinv => keeps_of_money (h s' hag hinv.1) log hinv
  | .rollback _, _, _, _, _ => trivial
  | .exec st k, ws, s, hp, h => by
    intro s' log locked b ws' hag hinv hcond he
    refine ok_spare (k b) (ws ++ ws') s' (hp.2 b) fun t ht hb => ?_
    have hfil : (ws ++ ws').filter money = ws.filter money := by
      rw [List.filter_append, filter_spare _ hp.1 he, List.append_nil]
    rw [hfil]
    refine h t (ledgerSpec_lawful.trans _ _ _ _ hag ?_) hb
    refine ledgerSpec_lawful.mono _ _ _ _ ?_ ht
    rw [keysOf_append]
    exact List.subset_append_left _ _

/-- A transaction that leaves the money alone from its beginning. -/
theorem ok_of_spare {α : Type} {p : Tx α} {ws : List Write} {s : Store} (hp : p.All spare)
    (hws : ws.filter money = []) : Ok core ledgerSpec p ws s :=
  ok_spare p ws s hp fun s' _ _ => by rw [hws]; exact keeps_nil

theorem spare_audit {α : Type} {tenant resource detail : String} {kind : Kind} {d : Stamp} {k : Tx α}
    (hk : k.All spare) : (audit tenant kind resource detail d k).All spare := ⟨trivial, fun _ => hk⟩

theorem spare_decideAs (tenant id : String) (status : Status) (reason : Reason) (d : ProcessDraw) :
    (decideAs tenant id status reason d).All spare :=
  ⟨trivial, fun _ => spare_audit trivial⟩

theorem spare_accept (H : Digest) (tenant : String) (r : Receipt) (d : AcceptDraw) :
    (accept H tenant r d).All spare := by
  unfold accept
  split_ifs
  · trivial
  refine ⟨trivial, fun n => ?_⟩
  dsimp only
  split_ifs
  · refine ⟨trivial, fun x => ?_⟩
    dsimp only
    split
    · trivial
    · split_ifs <;> trivial
  · exact ⟨trivial, fun _ => ⟨trivial, fun _ => spare_audit trivial⟩⟩

/-! ### The transactions that move money -/

section Transactions

variable {s : Store} {ws : List Write}

/-- Without writes of money a transaction sees the committed tables and holds none of their rows. -/
theorem view_of_nil (hws : ws.filter money = []) (s : Store) :
    (core.writeAll ws s).campaigns = s.campaigns ∧ (core.writeAll ws s).reservations = s.reservations := by
  have h := tables_writeAll ws s s rfl rfl
  rw [hws] at h
  exact h

theorem not_held_of_nil (hws : ws.filter money = []) (k : Key2) :
    Lock.reservation k ∉ keysOf core ws := by
  intro hk
  obtain ⟨w, hw, hkey⟩ := List.mem_flatMap.mp hk
  have hno : money w = false := by simpa using List.filter_eq_nil_iff.mp hws w hw
  cases w with
  | reservation r => cases hno
  | _ => exact absurd hkey (by simp [core, lockKeys])

/-- What a session holds stays as it is. -/
theorem agree_reservation {s' : Store} (hag : ledgerSpec.Agree (keysOf core ws) s s')
    {r : ReservationRow} (hw : Write.reservation r ∈ ws) :
    s'.reservations.find? r.pk = s.reservations.find? r.pk :=
  (hag r.pk).2 (mem_keysOf hw List.mem_cons_self)

theorem agree_campaign {s' : Store} (hag : ledgerSpec.Agree (keysOf core ws) s s')
    {c : CampaignRow} (hw : Write.campaign c ∈ ws) :
    s'.campaigns.find? c.pk = s.campaigns.find? c.pk :=
  (hag c.pk).1 (mem_keysOf hw List.mem_cons_self)

theorem mem_of_filter {m : List Write} {w : Write} (hws : ws.filter money = m) (hw : w ∈ m) :
    w ∈ ws := (List.mem_filter.mp (hws ▸ hw)).1

/-- `Process` from the moment the hold `r` is read under its lock. -/
theorem ok_settle {tenant id : String} {p : Receipt} {d : ProcessDraw} {r : ReservationRow}
    (hws : ws.filter money = [.reservation r]) (hr : s.reservations.find? r.pk = some r)
    (ht : r.tenant = tenant) : Ok core ledgerSpec (settle tenant id p d (some r.toReservation)) ws s := by
  subst ht
  have hlock : ∀ status reason, Ok core ledgerSpec (decideAs r.tenant id status reason d) ws s := by
    intro status reason
    refine ok_spare _ ws s (spare_decideAs _ _ _ _ _) fun s' hag _ => ?_
    rw [hws]
    refine keeps_lock ?_
    rw [agree_reservation hag (mem_of_filter hws List.mem_cons_self)]
    exact hr
  unfold settle
  cases hreason : reservationReason p (some r.toReservation) with
  | none =>
    simp only
    split_ifs with hh
    · -- the row is still the one that was read
      intro s₁ log₁ locked₁ n₁ ws₁ hag₁ hinv₁ _ he₁
      have hr₁ : s₁.reservations.find? r.pk = some r := by
        rw [agree_reservation hag₁ (mem_of_filter hws List.mem_cons_self)]; exact hr
      have hview : (core.writeAll ws s₁).reservations = s₁.reservations := by
        have h := (tables_writeAll ws s₁ s₁ rfl rfl).2
        rw [hws, write_reservation_self hr₁] at h
        exact h
      rw [eval_core, evalStmt, hview] at he₁
      rcases updateRow_cases he₁ with ⟨-, -, hno⟩ | ⟨r', hr', -, -, -, rfl⟩
      · exact absurd (hno r hr₁) (by simp)
      cases hr₁.symm.trans hr'
      have hws₁ : (ws ++ [Write.reservation { r with state := .settled }]).filter money =
          [.reservation r, .reservation { r with state := .settled }] := by
        rw [List.filter_append, hws]; rfl
      intro s₂ log₂ locked₂ n₂ ws₂ hag₂ hinv₂ _ he₂
      have hr₂ : s₂.reservations.find? r.pk = some r := by
        rw [agree_reservation hag₂ (mem_of_filter hws₁ List.mem_cons_self)]; exact hr₁
      obtain ⟨c, hc⟩ := hinv₂.1.campaign r (Table.mem_of_find? hr₂)
      have hview₂ : (core.writeAll (ws ++ [Write.reservation { r with state := .settled }]) s₂).campaigns =
          s₂.campaigns := by
        have h := (tables_writeAll (ws ++ [Write.reservation { r with state := .settled }]) s₂ s₂ rfl rfl).1
        rw [hws₁] at h
        exact h
      rw [eval_core, evalStmt, hview₂] at he₂
      rcases updateRow_cases he₂ with ⟨-, -, hno⟩ | ⟨c', hc', -, hck, -, rfl⟩
      · exact absurd (hno c hc) (by simp)
      cases hc.symm.trans hc'
      have hck' : c.pk = (r.tenant, r.campaign) := Table.find?_key hc
      have hws₂ : (ws ++ [Write.reservation { r with state := .settled }] ++
          [Write.campaign (charge r.cost c)]).filter money =
          [.reservation r, .reservation { r with state := .settled }, .campaign (charge r.cost c)] := by
        rw [List.filter_append, hws₁]; rfl
      refine ok_spare _ _ _ (spare_decideAs _ _ _ _ _) fun s₃ hag₃ _ => ?_
      have hr₃ : s₃.reservations.find? r.pk = some r := by
        rw [agree_reservation hag₃ (mem_of_filter hws₂ List.mem_cons_self)]; exact hr₂
      have hc₃ : s₃.campaigns.find? (r.tenant, r.campaign) = some c := by
        have hag := agree_campaign (c := charge r.cost c) hag₃ (mem_of_filter hws₂ (by simp))
        rw [show (charge r.cost c).pk = (r.tenant, r.campaign) from hck'] at hag
        exact hag.trans hc
      have hkeeps := keeps_settle hh hr₃ hc₃ hck
      rw [← hws₂] at hkeeps
      exact hkeeps
    · exact hlock _ _
  | _ => exact hlock _ _

theorem ok_judge {tenant id : String} {body : Text Receipt} {d : ProcessDraw}
    (hws : ws.filter money = []) : Ok core ledgerSpec (judge tenant id body d) ws s := by
  unfold judge
  split
  · exact ok_of_spare (spare_decideAs _ _ _ _ _) hws
  next p _ =>
    split_ifs
    · exact ok_of_spare (spare_decideAs _ _ _ _ _) hws
    intro s₁ log₁ locked₁ n₁ ws₁ hag₁ hinv₁ _ he₁
    rw [eval_core, evalStmt, (view_of_nil hws s₁).2] at he₁
    rcases updateRow_cases he₁ with ⟨-, rfl, -⟩ | ⟨r, hr, -, -, -, rfl⟩
    · -- nothing is locked, so by the condition nothing is read
      intro s₂ log₂ locked₂ b ws₂ hag₂ hinv₂ hcond he₂
      rw [List.append_nil] at hcond he₂ ⊢
      have hnone : (core.writeAll ws s₂).reservations.find? (tenant, p.reservationID) = none := by
        have hread : lockedRead ws s₂ (.selectReservation tenant p.reservationID) = true := hcond
        unfold lockedRead at hread
        rcases Bool.or_eq_true_iff.mp hread with hread | hread
        · exact Option.isNone_iff_eq_none.mp hread
        · exact absurd (by simpa using hread) (not_held_of_nil hws (tenant, p.reservationID))
      rw [eval_core, evalStmt, hnone] at he₂
      cases he₂
      exact ok_of_spare (spare_decideAs _ _ _ _ _) (by rw [List.append_nil]; exact hws)
    · have hpk : r.pk = (tenant, p.reservationID) := Table.find?_key hr
      have hws₁ : (ws ++ [Write.reservation r]).filter money = [.reservation r] := by
        rw [List.filter_append, hws]; rfl
      intro s₂ log₂ locked₂ b ws₂ hag₂ hinv₂ _ he₂
      have hr₂ : s₂.reservations.find? r.pk = some r := by
        rw [agree_reservation hag₂ (mem_of_filter hws₁ List.mem_cons_self), hpk]; exact hr
      have hview : (core.writeAll (ws ++ [Write.reservation r]) s₂).reservations = s₂.reservations := by
        have h := (tables_writeAll (ws ++ [Write.reservation r]) s₂ s₂ rfl rfl).2
        rw [hws₁, write_reservation_self hr₂] at h
        exact h
      rw [eval_core, evalStmt, hview, ← hpk, hr₂] at he₂
      cases he₂
      rw [List.append_nil]
      exact ok_settle hws₁ hr₂ (congrArg Prod.fst hpk)

theorem ok_process (tenant id : String) (d : ProcessDraw) :
    Ok core ledgerSpec (process tenant id d) [] s := by
  unfold process
  intro s₁ log₁ locked₁ n ws₁ hag₁ hinv₁ _ he₁
  have hws₁ : ws₁.filter money = [] := filter_spare (.countAttempt tenant id) trivial he₁
  dsimp only
  split_ifs
  · trivial
  intro s₂ log₂ locked₂ b ws₂ hag₂ hinv₂ _ he₂
  have hws₂ : ([] ++ ws₁ ++ ws₂).filter money = [] := by
    rw [List.filter_append, List.nil_append, hws₁,
      filter_spare (.selectDelivery tenant id) trivial he₂]; rfl
  dsimp only
  split
  · trivial
  · split_ifs
    · exact ok_of_spare (show Prog.All _ (.commit _) from trivial) hws₂
    · exact ok_judge hws₂

theorem ok_release (tenant id : String) (now : Int) (d : Stamp) :
    Ok core ledgerSpec (release tenant id now d) [] s := by
  unfold release
  intro s₁ log₁ locked₁ n ws₁ hag₁ hinv₁ _ he₁
  rw [eval_core, evalStmt, core.writeAll_nil] at he₁
  rcases updateRow_cases he₁ with ⟨rfl, -, -⟩ | ⟨r, hr, hp, -, rfl, rfl⟩
  · trivial
  have hh : r.state = .held := (of_decide_eq_true hp).1
  have hpk : r.pk = (tenant, id) := Table.find?_key hr
  cases hpk
  simp only [Nat.one_ne_zero, if_false, List.nil_append]
  set r' : ReservationRow := { r with state := .released } with hr'
  intro s₂ log₂ locked₂ b ws₂ hag₂ hinv₂ _ he₂
  have hr₂ : s₂.reservations.find? r.pk = some r := by
    rw [show s₂.reservations.find? r.pk = _ from
      agree_reservation (r := r') hag₂ List.mem_cons_self]; exact hr
  have hfind : (core.writeAll [Write.reservation r'] s₂).reservations.find? (r.tenant, r.id) = some r' :=
    Table.find?_put_self _ r'
  rw [eval_core, evalStmt, hfind] at he₂
  cases he₂
  simp only [Option.map_some, List.append_nil]
  intro s₃ log₃ locked₃ n₃ ws₃ hag₃ hinv₃ _ he₃
  have hr₃ : s₃.reservations.find? r.pk = some r := by
    rw [show s₃.reservations.find? r.pk = _ from
      agree_reservation (r := r') hag₃ List.mem_cons_self]; exact hr₂
  obtain ⟨c, hc⟩ := hinv₃.1.campaign r (Table.mem_of_find? hr₃)
  rw [eval_core, evalStmt] at he₃
  rcases updateRow_cases he₃ with ⟨-, -, hno⟩ | ⟨c', hc', -, hck, -, rfl⟩
  · exact absurd (hno c hc) (by simp)
  cases hc.symm.trans hc'
  have hck' : c.pk = (r.tenant, r.campaign) := Table.find?_key hc
  refine ok_spare _ _ _ (spare_audit (show Prog.All _ (.commit ()) from trivial)) fun s₄ hag₄ _ => ?_
  have hr₄ : s₄.reservations.find? r.pk = some r := by
    rw [show s₄.reservations.find? r.pk = _ from
      agree_reservation (r := r') hag₄ List.mem_cons_self]; exact hr₃
  have hc₄ : s₄.campaigns.find? (r.tenant, r.campaign) = some c := by
    have hag := agree_campaign (c := refund r.cost c) hag₄ (by simp [refund, hr'])
    rw [show (refund r.cost c).pk = (r.tenant, r.campaign) from hck'] at hag
    exact hag.trans hc
  exact keeps_release hh hr₄ hc₄ hck

/-- `Reserve` from the moment the campaign `c` is locked and the key is new. -/
theorem ok_reserveNew {H : Digest} {tenant key : String} {inp : ReservationInput} {d : ReserveDraw}
    {c : CampaignRow} (hv : validReserve key inp = true)
    (hc : s.campaigns.find? (tenant, inp.campaignID) = some c) :
    Ok core ledgerSpec (reserveNew H tenant key inp d) [.campaign c] s := by
  have hpk : c.pk = (tenant, inp.campaignID) := Table.find?_key hc
  unfold reserveNew
  intro s₁ log₁ locked₁ b ws₁ hag₁ hinv₁ _ he₁
  cases he₁
  cases (core.writeAll [Write.campaign c] s₁).screens.find? inp.screenID with
  | none => trivial
  | some v =>
    have hc₁ : s₁.campaigns.find? (tenant, inp.campaignID) = some c := by
      rw [← hpk, agree_campaign hag₁ List.mem_cons_self, hpk]; exact hc
    simp only [Option.map_some, List.append_nil]
    intro s₂ log₂ locked₂ n₂ ws₂ hag₂ hinv₂ _ he₂
    have hc₂ : s₂.campaigns.find? (tenant, inp.campaignID) = some c := by
      rw [← hpk, agree_campaign hag₂ List.mem_cons_self, hpk]; exact hc₁
    rw [eval_core, evalStmt, write_campaign_self (by rw [hpk]; exact hc₂)] at he₂
    rcases updateRow_cases he₂ with ⟨rfl, -, -⟩ | ⟨c', hc', -, hck, rfl, rfl⟩
    · trivial
    cases hc₂.symm.trans hc'
    simp only [Nat.one_ne_zero, if_false]
    set r : ReservationRow := newReservation H tenant key inp d with hr
    intro s₃ log₃ locked₃ n₃ ws₃ hag₃ hinv₃ _ he₃
    have hc₃ : s₃.campaigns.find? (tenant, inp.campaignID) = some c := by
      rw [← hpk, agree_campaign hag₃ List.mem_cons_self, hpk]; exact hc₂
    rw [eval_core, evalStmt] at he₃
    rcases insertRow_cases he₃ with ⟨rfl, -, -⟩ | ⟨-, hid, -, rfl, rfl⟩
    · trivial
    have hid₃ : s₃.reservations.find? r.pk = none := hid
    simp only [Nat.one_ne_zero, if_false]
    refine ok_spare _ _ _ (spare_audit (show Prog.All _ (.commit _) from trivial)) fun s₄ hag₄ _ => ?_
    have hc₄ : s₄.campaigns.find? (r.tenant, r.campaign) = some c := by
      show s₄.campaigns.find? (tenant, inp.campaignID) = some c
      rw [← hpk, agree_campaign hag₄ List.mem_cons_self, hpk]; exact hc₃
    have hid₄ : s₄.reservations.find? r.pk = none := by
      rw [agree_reservation hag₄ (by simp)]; exact hid₃
    exact keeps_hold (r := r) rfl (cost_of_valid hv) hc₄ hck hid₄

theorem ok_reserve (H : Digest) (tenant key : String) (inp : ReservationInput) (d : ReserveDraw) :
    Ok core ledgerSpec (reserve H tenant key inp d) [] s := by
  unfold reserve
  split_ifs with hv
  · trivial
  have hv' : validReserve key inp = true := by simpa using hv
  intro s₁ log₁ locked₁ n ws₁ hag₁ hinv₁ _ he₁
  rw [eval_core, evalStmt, core.writeAll_nil] at he₁
  rcases updateRow_cases he₁ with ⟨rfl, -, -⟩ | ⟨c, hc, -, -, rfl, rfl⟩
  · trivial
  have hpk : c.pk = (tenant, inp.campaignID) := Table.find?_key hc
  simp only [Nat.one_ne_zero, if_false, List.nil_append]
  intro s₂ log₂ locked₂ b ws₂ hag₂ hinv₂ _ he₂
  have hc₂ : s₂.campaigns.find? (tenant, inp.campaignID) = some c := by
    rw [← hpk, agree_campaign hag₂ List.mem_cons_self, hpk]; exact hc
  cases he₂
  rw [List.append_nil]
  cases byKey (core.writeAll [Write.campaign c] s₂) tenant key with
  | none => exact ok_reserveNew hv' hc₂
  | some r =>
    simp only [Option.map_some]
    split_ifs
    · trivial
    intro s₃ log₃ locked₃ b ws₃ _ _ _ _
    dsimp only
    split <;> trivial

end Transactions

/-! ### Runs -/

/-- The next statement of the session reads no reservation, or reads it under its lock, or finds none. -/
def Pg.lockedRead {n : ℕ} (x : Pg n) : Event n → Bool
  | .exec i =>
    match x.session i with
    | .active (.exec st _) ws => Postgres.lockedRead ws x.committed st
    | _ => true
  | _ => true

/-- Every reservation the run reads is read under its lock. -/
def lockedReads (H : Digest) {n : ℕ} : List (Event n) → Pg n → Bool
  | [], _ => true
  | e :: es, x => x.lockedRead e && lockedReads H es (Db.step core x (e.act H))

/-- **The money is right**: the committed ledger is exact, and no reservation was charged twice. -/
def Exact {n : ℕ} (x : Pg n) : Prop :=
  (∀ c ∈ x.committed.campaigns, c.reserved = Ledger.committed x.committed c.pk .held ∧
    c.spent = Ledger.committed x.committed c.pk .settled) ∧
  ∀ k, x.log.countP (charges k) ≤ 1

theorem exact_of_sound {n : ℕ} {x : Pg n} (h : Sound core ledgerSpec x) : Exact x := by
  obtain ⟨hb, hcount⟩ := h.inv
  refine ⟨fun c hc => ?_, fun k => ?_⟩
  · have hfind := Table.find?_of_mem hc
    exact ⟨hb.reserved _ c hfind, hb.spent _ c hfind⟩
  · have := hcount k
    split_ifs at this
    · exact this
    · omega

theorem meets_of_locked {H : Digest} {n : ℕ} {x : Pg n} {e : Event n} (h : x.lockedRead e = true) :
    Meets core ledgerSpec x (e.act H) := by
  cases e with
  | start i q =>
    cases q with
    | reserve tenant key inp d => exact fun s => ok_reserve H tenant key inp d
    | accept tenant r d => exact fun s => ok_of_spare (spare_accept H tenant r d) rfl
    | process tenant id d => exact fun s => ok_process tenant id d
    | release tenant id now d => exact fun s => ok_release tenant id now d
  | exec i =>
    simp only [Event.act, Meets]
    unfold Pg.lockedRead at h
    split
    next st k ws hi => simp only [hi] at h; exact h
    next => trivial
  | finish i => trivial
  | abort i => trivial

theorem meetsAll_of_locked {H : Digest} {n : ℕ} : ∀ (es : List (Event n)) (x : Pg n),
    lockedReads H es x = true → MeetsAll core ledgerSpec (es.map (Event.act H)) x
  | [], _, _ => trivial
  | e :: es, x, h => by
    obtain ⟨he, hes⟩ := Bool.and_eq_true_iff.mp h
    exact ⟨meets_of_locked he, meetsAll_of_locked es _ hes⟩

theorem lockedReads_take {H : Digest} {n : ℕ} : ∀ (es : List (Event n)) (m : ℕ) (x : Pg n),
    lockedReads H es x = true → lockedReads H (es.take m) x = true
  | [], m, x, _ => by rw [List.take_nil]; rfl
  | e :: es, 0, x, _ => rfl
  | e :: es, m + 1, x, h => by
    obtain ⟨he, hes⟩ := Bool.and_eq_true_iff.mp h
    exact Bool.and_eq_true_iff.mpr ⟨he, lockedReads_take es m _ hes⟩

/-- **At-most-once charge under READ COMMITTED**, in every state of a run that reads reservations under
their locks, from every store the service can have been left in. -/
theorem charged_at_most_once (H : Digest) (cs : List Call) {n : ℕ} (es : List (Event n))
    (hlock : lockedReads H es (Db.init (Run.run H cs Store.empty)) = true) (m : ℕ) :
    Exact (Pg.run H (Db.init (Run.run H cs Store.empty)) (es.take m)) := by
  have hb : Balanced (Run.run H cs Store.empty) := Balanced.empty.run cs
  have hinit : Sound core ledgerSpec (Db.init (Run.run H cs Store.empty) : Pg n) :=
    sound_init ⟨hb, fun k => Nat.zero_le _⟩
  exact exact_of_sound (run_sound ledgerSpec_lawful _ _ hinit
    (meetsAll_of_locked _ _ (lockedReads_take es m _ hlock)))

/-! ### The double charge -/

/-- A digest for the runs below. -/
def plainDigest : Digest := ⟨fun i => i.campaignID, fun r => r.eventID⟩

/-- A seeded store with one hold, and two receipts that name a reservation that is not there yet. -/
def early : List Call :=
  [⟨.seed "demo", none⟩,
    ⟨.reserve "demo" "k2" ⟨"cmp-solstice", "sea-01", 1000⟩ ⟨"r2", 0, 0, ⟨"a1", 0⟩⟩, none⟩,
    ⟨.accept "demo" ⟨1, "e1", "r1", "sea-01", 0, 5000⟩ ⟨"d1", 0, [], ⟨"a2", 0⟩⟩, none⟩,
    ⟨.accept "demo" ⟨1, "e2", "r1", "sea-01", 0, 5000⟩ ⟨"d2", 0, [], ⟨"a3", 0⟩⟩, none⟩]

/-- `Reserve` of the reservation both receipts name, in session 2. -/
def reserveR1 : List (Event 3) :=
  [.start 2 (.reserve "demo" "k1" ⟨"cmp-solstice", "sea-01", 1000⟩ ⟨"r1", 0, 0, ⟨"a4", 0⟩⟩),
    .exec 2, .exec 2, .exec 2, .exec 2, .exec 2, .exec 2, .finish 2]

/-- `Process` of a delivery up to its lock statement. -/
def upToLock (i : Fin 3) (id stamp : String) : List (Event 3) :=
  [.start i (.process "demo" id ⟨0, ⟨stamp, 0⟩⟩), .exec i, .exec i, .exec i]

/-- The rest of a `Process` after it has read the reservation. -/
def toTheEnd (i : Fin 3) : List (Event 3) := [.exec i, .exec i, .exec i, .exec i, .finish i]

/-- Both `Process`es try to lock the reservation before it is there, and read it after `Reserve` has
committed it. -/
def lateReserve : List (Event 3) :=
  upToLock 0 "d1" "p1" ++ upToLock 1 "d2" "p2" ++ reserveR1 ++ [.exec 0, .exec 1] ++ toTheEnd 0 ++
    toTheEnd 1

/-- **The reservation is charged twice**, and the campaign's balances no longer add up. -/
theorem double_charge :
    let x := Pg.run plainDigest (Db.init (Run.run plainDigest early Store.empty)) lateReserve
    ¬ Exact x ∧ x.log.countP (charges ("demo", "r1")) = 2 ∧
      Ledger.committed x.committed ("demo", "cmp-solstice") .settled = 1000 ∧
      (x.committed.campaigns.find? ("demo", "cmp-solstice")).map (·.spent) = some 2000 := by
  intro x
  have hcount : x.log.countP (charges ("demo", "r1")) = 2 := by decide +kernel
  refine ⟨fun h => ?_, hcount, by decide +kernel, by decide +kernel⟩
  have := h.2 ("demo", "r1")
  omega

/-- The reservation is there first: the second `Process` waits for the lock and finds it settled. -/
def reserveFirst : List (Event 3) :=
  reserveR1 ++ upToLock 0 "d1" "p1" ++ upToLock 1 "d2" "p2" ++ [.exec 0] ++ toTheEnd 0 ++
    [.exec 1, .exec 1, .exec 1, .exec 1, .finish 1]

theorem charged_at_most_once_reserveFirst :
    let x := Db.init (Run.run plainDigest early Store.empty)
    lockedReads plainDigest reserveFirst x = true ∧
      (Pg.run plainDigest x reserveFirst).log.countP (charges ("demo", "r1")) = 1 ∧
      Exact (Pg.run plainDigest x (reserveFirst.take 40)) :=
  ⟨by decide +kernel, by decide +kernel,
    charged_at_most_once plainDigest early reserveFirst (by decide +kernel) 40⟩

end Afterglow.Core.Postgres
