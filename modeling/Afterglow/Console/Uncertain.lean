import Afterglow.Console.Intake

/-! # An uncertain reservation is kept, or lost to Send batch

A failure without a definitive status leaves the page with a plan that has no reservation, and the server
with one or none. From then on the page asks again under the same key, and a definitive status can only
mean that there is none (`reserve_rejected`), since `Reserve` would find what it made. So every key that
is open, and every reservation the page does not know of, is that of its plan (`Accounted`).

Send batch forgets the plan, whether its reservation is the one in the request body or not. A batch that
is sent while the reservation is uncertain abandons it, and the next Load example draws another key. -/

namespace Afterglow.Console.Uncertain

open Afterglow.Sql.Rows Afterglow.Core.Model Afterglow.Core.Statements Afterglow.Core.Store
open Afterglow.Core.Outcome Afterglow.Core.Run Afterglow.Core.Ledger Afterglow.Core.Settlement
open Afterglow.Core.Keys Afterglow.Core.Admission Afterglow.Console.Price Afterglow.Sync.Requests
open Afterglow.Console.Intake

/-! ### Reservations of the page -/

section Server

variable {S : Server} {s : Store} {key : String} {inp : ReservationInput} {d : ReserveDraw}
  {fault : Option ℕ}

/-- The row is a reservation of this input, which the server takes. -/
structure Holds (S : Server) (key : String) (inp : ReservationInput) (row : ReservationRow) : Prop where
  fingerprint : row.fingerprint = S.digest.input inp
  campaign : row.campaign = inp.campaignID
  valid : validReserve key inp = true
  taken : S.refusal inp = none

theorem Holds.step {row row' : ReservationRow} (h : Holds S key inp row) (hstep : HoldStep row row') :
    Holds S key inp row' := by
  refine ⟨?_, ?_, h.valid, h.taken⟩
  · rw [hstep.1]
    exact h.fingerprint
  · rw [hstep.1]
    exact h.campaign

theorem call_cases (S : Server) (key : String) (inp : ReservationInput) (d : ReserveDraw)
    (fault : Option ℕ) (s : Store) :
    ReserveOut S.digest S.tenant key inp d s (reserveCall S.digest S.tenant key inp d fault s) ∨
      reserveCall S.digest S.tenant key inp d fault s = (.error (.storage .fault), s) :=
  reserveCall_cases fault

/-- The store after a request: as it was, or as the call leaves it. -/
theorem reserve_store (S : Server) (key : String) (inp : ReservationInput) (d : ReserveDraw)
    (fault : Option ℕ) (s : Store) : (S.reserve key inp d fault s).2 = s ∨
    S.refusal inp = none ∧
      (S.reserve key inp d fault s).2 = (reserveCall S.digest S.tenant key inp d fault s).2 := by
  unfold Server.reserve
  split
  · exact Or.inl rfl
  · next href =>
    refine Or.inr ⟨href, ?_⟩
    split
    · next hx => rw [hx]
    · next hx => rw [hx]

/-- A request that is answered with a problem changes nothing. -/
theorem same_of_problem {status : ℕ} (h : (S.reserve key inp d fault s).1 = .error status) :
    (S.reserve key inp d fault s).2 = s := by
  have herror : ∀ e, (reserveCall S.digest S.tenant key inp d fault s).1 = .error e →
      (reserveCall S.digest S.tenant key inp d fault s).2 = s := fun _ => same_of_error
  unfold Server.reserve at h ⊢
  cases href : S.refusal inp with
  | some status' => rfl
  | none =>
    rw [href] at h
    generalize reserveCall S.digest S.tenant key inp d fault s = y at h herror
    obtain ⟨a, s'⟩ := y
    cases a with
    | ok a => cases h
    | error e => exact herror e rfl

theorem reserve_keeps (hkeyed : Keyed s) (hb : Balanced s) :
    Keyed (S.reserve key inp d fault s).2 ∧ Balanced (S.reserve key inp d fault s).2 := by
  rcases reserve_store S key inp d fault s with hs | ⟨-, hs⟩
  · rw [hs]
    exact ⟨hkeyed, hb⟩
  · rw [hs]
    have hchange := (Op.reserve S.tenant key inp d).change S.digest fault s
    exact ⟨hkeyed.change hchange, hb.change hchange⟩

/-- **Where a reservation comes from** that is there after a request. -/
theorem reserve_origin (hkeyed : Keyed s) {k : String} {row : ReservationRow}
    (hrow : byKey (S.reserve key inp d fault s).2 S.tenant k = some row) :
    (∃ row₀, byKey s S.tenant k = some row₀ ∧ HoldStep row₀ row) ∨ k = key ∧ Holds S key inp row := by
  rcases reserve_store S key inp d fault s with hs | ⟨href, hs⟩
  · rw [hs] at hrow
    exact Or.inl ⟨row, hrow, .refl row⟩
  · rw [hs] at hrow
    rcases call_cases S key inp d fault s with hout | hx
    · generalize reserveCall S.digest S.tenant key inp d fault s = y at hout hrow
      rcases hkeyed.byKey_origin (change_reserve hout) hrow with hold | ⟨inp', d', ho, hnew⟩
      · exact Or.inl hold
      · injection ho with _ hk hinp _
        subst hk hinp
        cases hout with
        | made c hv => exact Or.inr ⟨rfl, by rw [hnew]; rfl, by rw [hnew]; rfl, hv, href⟩
        | _ => exact Or.inl ⟨row, hrow, .refl row⟩
    · rw [hx] at hrow
      exact Or.inl ⟨row, hrow, .refl row⟩

/-- A request whose reservation is there finds it, or meets a fault. -/
theorem reserve_found (d : ReserveDraw) (fault : Option ℕ) (hb : Balanced s) {row : ReservationRow}
    (hrow : byKey s S.tenant key = some row) (h : Holds S key inp row) :
    S.reserve key inp d fault s = (.ok row.toReservation, s) ∨
      S.reserve key inp d fault s = (.error 503, s) := by
  have hcall : reserveCall S.digest S.tenant key inp d fault s = (.ok (row.toReservation, true), s) ∨
      reserveCall S.digest S.tenant key inp d fault s = (.error (.storage .fault), s) := by
    rcases call_cases S key inp d fault s with hout | hx
    · left
      generalize reserveCall S.digest S.tenant key inp d fault s = y at hout
      cases hout with
      | invalid hv =>
        rw [h.valid] at hv
        cases hv
      | noCampaign hv hc =>
        obtain ⟨hmem, ht, -⟩ := byKey_some hrow
        obtain ⟨c, hc'⟩ := hb.campaign row hmem
        rw [ht, h.campaign, hc] at hc'
        cases hc'
      | unlocked c hc e he =>
        rw [hb.check _ c hc] at he
        cases he
      | conflict r hk hf =>
        rw [hrow] at hk
        cases hk
        exact absurd h.fingerprint hf
      | replayed c r hv hc hk hf =>
        rw [hrow] at hk
        cases hk
        rfl
      | noScreen hk => rw [hrow] at hk; cases hk
      | overBudget c hc hk => rw [hrow] at hk; cases hk
      | undebited c hc hv hk => rw [hrow] at hk; cases hk
      | clash table hk => rw [hrow] at hk; cases hk
      | made c hv hc hk => rw [hrow] at hk; cases hk
    · exact Or.inr hx
  unfold Server.reserve
  rw [h.taken]
  rcases hcall with hx | hx
  · rw [hx]
    exact Or.inl rfl
  · rw [hx]
    exact Or.inr rfl

/-- **A definitive rejection is definitive**: there is no reservation under the key, from an earlier
request neither. -/
theorem reserve_rejected (hb : Balanced s)
    (hheld : ∀ row, byKey s S.tenant key = some row → Holds S key inp row) {status : ℕ}
    (h : (S.reserve key inp d fault s).1 = .error status) (hdef : definitive (some status) = true) :
    byKey (S.reserve key inp d fault s).2 S.tenant key = none := by
  have hbefore : byKey s S.tenant key = none := by
    by_contra hne
    obtain ⟨row, hrow⟩ := Option.ne_none_iff_exists'.mp hne
    rcases reserve_found d fault hb hrow (hheld row hrow) with hx | hx
    · rw [hx] at h
      cases h
    · rw [hx] at h
      cases h
      exact absurd hdef (by decide)
  rw [same_of_problem h]
  exact hbefore

end Server

/-! ### The page -/

theorem drew_iff {log : Log} {k : String} : drew log k = true ↔ ∃ inp, .sent k inp ∈ log := by
  unfold drew
  rw [List.any_eq_true]
  constructor
  · rintro ⟨e, he, hk⟩
    cases e with
    | sent k' inp =>
      obtain rfl := of_decide_eq_true hk
      exact ⟨inp, he⟩
    | _ => cases hk
  · rintro ⟨inp, hmem⟩
    exact ⟨_, hmem, decide_eq_true rfl⟩

theorem drew_append {log : Log} {e : Entry String ReservationInput} {k : String}
    (h : drew (log ++ [e]) k = true) : drew log k = true ∨ ∃ inp, e = .sent k inp := by
  obtain ⟨inp, hmem⟩ := drew_iff.mp h
  rcases List.mem_append.mp hmem with hmem | hmem
  · exact Or.inl (drew_iff.mpr ⟨inp, hmem⟩)
  · exact Or.inr ⟨inp, (List.mem_singleton.mp hmem).symm⟩

/-- The plan has key `k` and no reservation. -/
def Current (p : Page) (k : String) : Prop :=
  ∃ plan, p.examplePlan = some plan ∧ plan.hold = none ∧ plan.key = k

namespace Current

variable {p : Page} {k k' : String}

theorem unique (h : Current p k) (h' : Current p k') : k = k' := by
  obtain ⟨plan, hp, -, rfl⟩ := h
  obtain ⟨plan', hp', -, rfl⟩ := h'
  rw [hp] at hp'
  cases hp'
  rfl

theorem uncertain (h : Current p k) : p.uncertain = true := by
  obtain ⟨plan, hp, hhold, -⟩ := h
  unfold Page.uncertain
  rw [hp, Option.any_some, hhold]
  rfl

theorem of_uncertain {plan : Plan} (hp : p.examplePlan = some plan) (h : p.uncertain = true) :
    Current p plan.key := by
  unfold Page.uncertain at h
  rw [hp, Option.any_some, Option.isNone_iff_eq_none] at h
  exact ⟨plan, hp, h, rfl⟩

end Current

theorem caught_plan {p : Page} {status : Option ℕ} {plan : Plan}
    (h : (p.caught status).examplePlan = some plan) : p.examplePlan = some plan := by
  simp only [Page.caught] at h
  split_ifs at h
  exact h

/-- What is not definitive keeps the plan, and so does a plan with a reservation. -/
theorem caught_keeps {p : Page} {status : Option ℕ} (h : p.uncertain = false ∨ definitive status = false) :
    (p.caught status).examplePlan = p.examplePlan := by
  have hand : (p.uncertain && definitive status) = false := by
    rcases h with h | h
    · rw [h, Bool.false_and]
    · rw [h, Bool.and_false]
  simp only [Page.caught, hand]
  rfl

theorem prepare_place (p : Page) (r : Reservation) (now : Int) (events : ℕ → String) :
    (p.prepare r now events).place = .idle := by
  unfold Page.prepare
  split_ifs
  · rfl
  · rfl

theorem prepare_plan {p : Page} {r : Reservation} {now : Int} {events : ℕ → String} {plan : Plan}
    (h : (p.prepare r now events).examplePlan = some plan) : p.examplePlan = some plan := by
  unfold Page.prepare at h
  split_ifs at h
  · cases caught_plan h
  · exact h

/-- Only a plan without a reservation is waited for. -/
def Fits (p : Page) : Prop :=
  match p.place with
  | .idle => True
  | .snapshot _ _ => p.uncertain = false
  | .reserve _ => p.uncertain = true
  | .batch => p.uncertain = false

namespace Fits

variable {p : Page}

theorem idle (h : p.place = .idle) : Fits p := by
  unfold Fits
  rw [h]
  trivial

theorem snapshot (h : Fits p) {cost : Int} {a : Option (Except ℕ Core.Reports.Snapshot)}
    (hplace : p.place = .snapshot cost a) : p.uncertain = false := by
  unfold Fits at h
  rw [hplace] at h
  exact h

theorem reserve (h : Fits p) {a : Option Reply} (hplace : p.place = .reserve a) : p.uncertain = true := by
  unfold Fits at h
  rw [hplace] at h
  exact h

theorem batch (h : Fits p) (hplace : p.place = .batch) : p.uncertain = false := by
  unfold Fits at h
  rw [hplace] at h
  exact h

end Fits

/-! ### What a step can do -/

/-- Send batch while the reservation is uncertain. -/
def abandons (S : Server) (parse : String → Option ℕ) (x : System) : Event → Bool
  | .send => !x.page.pending && S.demo && x.sendable parse && x.page.uncertain
  | _ => false

/-- **What a step can do**, and whether it abandons a reservation. -/
inductive Move (S : Server) (x : System) : Bool → System → Prop
  | same : Move S x false x
  /-- another price, request body or example -/
  | edit (p : Page) (hplan : p.examplePlan = x.page.examplePlan) (hplace : p.place = x.page.place) :
      Move S x false { x with page := p }
  /-- the snapshot is asked for, or answered -/
  | look (p : Page) (hplan : p.examplePlan = x.page.examplePlan) (cost : Int)
      (answer : Option (Except ℕ Core.Reports.Snapshot)) (hplace : p.place = .snapshot cost answer)
      (hcertain : x.page.uncertain = false) : Move S x false { x with page := p }
  /-- no reservation is waited for: the page stops, with its plan or none -/
  | stop (p : Page) (hplan : ∀ plan, p.examplePlan = some plan → x.page.examplePlan = some plan)
      (hplace : p.place = .idle) (hcertain : x.page.uncertain = false) :
      Move S x false { x with page := p }
  | send : Move S x x.page.uncertain { x with page := { x.page with examplePlan := none, place := .batch } }
  | retry (plan : Plan) (hplan : x.page.examplePlan = some plan) (hhold : plan.hold = none) :
      Move S x false (x.request plan)
  | draw (plan : Plan) (hhold : plan.hold = none) (hcertain : x.page.uncertain = false)
      (hnew : drew x.log plan.key = false) (hfree : byKey x.store S.tenant plan.key = none) :
      Move S x false (x.request plan)
  | serve (plan : Plan) (hplan : x.page.examplePlan = some plan) (hplace : x.page.place = .reserve none)
      (d : ReserveDraw) (fault : Option ℕ) :
      Move S x false { x with
        store := (S.reserve plan.key plan.input d fault x.store).2
        page := { x.page with
          place := .reserve (some (S.reserve plan.key plan.input d fault x.store).1) } }
  | answer (plan : Plan) (hplan : x.page.examplePlan = some plan) (reply : Reply)
      (hplace : x.page.place = .reserve (some reply)) (now : Int) (events : ℕ → String) :
      Move S x false (x.answered plan now events reply)
  | lose (plan : Plan) (hplan : x.page.examplePlan = some plan) (a : Option Reply)
      (hplace : x.page.place = .reserve a) (status : Option ℕ) (hstatus : definitive status = false) :
      Move S x false
        { x with page := x.page.caught status, log := x.log ++ [.unclear plan.key] }
  | other (c : Call) (hforeign : ∀ k inp d, drew x.log k = true → c.op ≠ .reserve S.tenant k inp d) :
      Move S x false { x with store := c.step S.digest x.store }

section Step

variable {S : Server} {x : System}

theorem certain_of_stale {p : Page} {cost now : Int} (h : p.stale cost now = true) : p.uncertain = false := by
  unfold Page.stale at h
  unfold Page.uncertain
  cases hp : p.examplePlan with
  | none => rfl
  | some plan =>
    rw [hp] at h
    cases hhold : plan.hold with
    | none => simp [hhold] at h
    | some r => simp [hhold]

theorem load_move (micros : WithTop ℕ) (now later : Int) (events : ℕ → String) :
    Move S x false (x.load micros now later events) := by
  unfold System.load
  simp only
  split_ifs with hstale
  · exact .look _ rfl _ none rfl (certain_of_stale hstale)
  · split
    · next key input hp => exact .retry _ hp rfl
    · next key input r hp =>
      refine .stop _ (fun plan => prepare_plan) (prepare_place ..) ?_
      unfold Page.uncertain
      rw [hp]
      rfl
    · exact .same

theorem choose_move {cost : Int} {sn : Core.Reports.Snapshot} {key : String}
    (hcertain : x.page.uncertain = false) (hnew : drew x.log key = false)
    (hfree : byKey x.store S.tenant key = none) : Move S x false (x.choose cost sn key) := by
  unfold System.choose
  split
  · exact .draw _ rfl hcertain hnew hfree
  · exact .stop _ (fun plan => caught_plan) rfl hcertain

theorem failed_move (h : Fits x.page) {status : Option ℕ} (hstatus : definitive status = false) :
    Move S x false (x.failed status) := by
  unfold System.failed
  split
  · next hplace => exact .stop _ (fun plan => caught_plan) rfl (h.snapshot hplace)
  · next a plan hplace hplan => exact .lose plan hplan a hplace status hstatus
  · next hplace => exact .stop _ (fun plan hp => hp) rfl (h.batch hplace)
  · exact .same

theorem arrive_move (h : Fits x.page) (R : Numbers) (parse : String → Option ℕ) (now : Int) (key : String)
    (events : ℕ → String) : Move S x false (x.step S R parse (.arrive now key events)) := by
  simp only [System.step]
  split
  · next hplace => exact .stop _ (fun plan => caught_plan) rfl (h.snapshot hplace)
  · next hplace =>
    split_ifs with hused
    · exact .same
    · rw [Bool.or_eq_true, not_or, Bool.not_eq_true, Bool.not_eq_true, Option.isSome_eq_false_iff,
        Option.isNone_iff_eq_none] at hused
      exact choose_move (h.snapshot hplace) hused.1 hused.2
  · next reply plan hplace hplan => exact .answer plan hplan reply hplace now events
  · next hplace => exact .stop _ nofun rfl (h.batch hplace)
  · exact .same

/-- **One step is a move.** -/
theorem step_move (h : Fits x.page) (R : Numbers) (parse : String → Option ℕ) (e : Event) :
    Move S x (abandons S parse x e) (x.step S R parse e) := by
  cases e with
  | price | draft | scenario =>
    simp only [System.step]
    split_ifs
    · exact .same
    · exact .edit _ rfl rfl
  | load now later events =>
    simp only [System.step]
    split_ifs
    · exact .same
    · split
      · exact .same
      · exact load_move ..
  | send =>
    simp only [System.step]
    split_ifs with hoff
    · have hkept : abandons S parse x .send = false := by
        simp only [Bool.or_eq_true, Bool.not_eq_true'] at hoff
        rcases hoff with (hpending | hdemo) | hbody
        · simp [abandons, hpending]
        · simp [abandons, hdemo]
        · simp [abandons, hbody]
      rw [hkept]
      exact .same
    · have hsent : abandons S parse x .send = x.page.uncertain := by
        simp only [Bool.or_eq_true, Bool.not_eq_true', not_or, Bool.not_eq_true, Bool.not_eq_false] at hoff
        obtain ⟨⟨hpending, hdemo⟩, hbody⟩ := hoff
        simp [abandons, hpending, hdemo, hbody]
      rw [hsent]
      exact .send
  | serve now d fault =>
    simp only [System.step]
    split
    · next hplace => exact .look _ rfl _ _ rfl (h.snapshot hplace)
    · next plan hplace hplan => exact .serve plan hplan hplace d fault
    · exact .same
  | arrive now key events => exact arrive_move h R parse now key events
  | fail status =>
    simp only [System.step]
    split_ifs with hdef
    · exact .same
    · exact failed_move h (Bool.not_eq_true _ ▸ hdef)
  | other c =>
    simp only [System.step]
    split
    · next tenant key inp d hop =>
      split_ifs with hown
      · exact .same
      · refine .other c fun k inp' d' hk hop' => ?_
        rw [hop] at hop'
        injection hop' with ht hkey
        exact hown ⟨ht, by rw [hkey]; exact hk⟩
    · next hop => exact .other c fun k inp d _ hop' => hop _ _ _ _ hop'

end Step

/-! ### Keys and inputs -/

/-- **What always holds.** A plan was sent as it is, and the server's reservations under the page's keys
are those of what was sent. -/
structure Sound (S : Server) (x : System) : Prop where
  keyed : Keyed x.store
  balanced : Balanced x.store
  input : OneInput x.log
  plan : ∀ plan, x.page.examplePlan = some plan → .sent plan.key plan.input ∈ x.log
  fits : Fits x.page
  rows : ∀ k row, drew x.log k = true → byKey x.store S.tenant k = some row →
    ∃ inp, .sent k inp ∈ x.log ∧ Holds S k inp row

namespace Sound

variable {S : Server} {R : Numbers} {parse : String → Option ℕ} {x : System}

/-- The page goes on, with the plan it had or none. -/
theorem page (h : Sound S x) {p : Page} (hfits : Fits p)
    (hplan : ∀ plan, p.examplePlan = some plan → .sent plan.key plan.input ∈ x.log) :
    Sound S { x with page := p } :=
  ⟨h.keyed, h.balanced, h.input, hplan, hfits, h.rows⟩

/-- The page is told of a request. -/
theorem told (h : Sound S x) {e : Entry String ReservationInput} (he : ∀ k inp, e ≠ .sent k inp) :
    Sound S { x with log := x.log ++ [e] } := by
  refine ⟨h.keyed, h.balanced, oneInput_snoc h.input fun k i j hs => absurd hs (he k i), ?_, h.fits,
    fun k row hk hrow => ?_⟩
  · intro plan hp
    exact List.mem_append_left _ (h.plan plan hp)
  · rcases drew_append hk with hk | ⟨inp, hs⟩
    · obtain ⟨inp, hsent, hholds⟩ := h.rows k row hk hrow
      exact ⟨inp, List.mem_append_left _ hsent, hholds⟩
    · exact absurd hs (he k inp)

/-- **A request is sent**: that of the plan again, or one with a new key. -/
theorem request (h : Sound S x) {plan : Plan} (hhold : plan.hold = none)
    (hplan : .sent plan.key plan.input ∈ x.log ∨
      drew x.log plan.key = false ∧ byKey x.store S.tenant plan.key = none) :
    Sound S (x.request plan) := by
  have hlast : .sent plan.key plan.input ∈ x.log ++ [.sent plan.key plan.input] := by simp
  refine ⟨h.keyed, h.balanced, oneInput_snoc h.input ?_, ?_, ?_, fun k row hk hrow => ?_⟩
  · intro k i j hs hmem
    injection hs with hk hi
    subst hk hi
    rcases hplan with hsent | ⟨hnew, -⟩
    · exact h.input _ _ _ hsent hmem
    · rw [drew_iff.mpr ⟨j, hmem⟩] at hnew
      cases hnew
  · intro plan' hp
    cases hp
    exact hlast
  · exact Current.uncertain ⟨plan, rfl, hhold, rfl⟩
  · have hold : drew x.log k = true → ∃ inp, .sent k inp ∈ (x.request plan).log ∧ Holds S k inp row := by
      intro hk
      obtain ⟨inp, hsent, hholds⟩ := h.rows k row hk hrow
      exact ⟨inp, List.mem_append_left _ hsent, hholds⟩
    rcases drew_append hk with hk | ⟨inp, hs⟩
    · exact hold hk
    · injection hs with hkey hinp
      subst hkey hinp
      rcases hplan with hsent | ⟨-, hnone⟩
      · exact hold (drew_iff.mpr ⟨_, hsent⟩)
      · have hrow' : byKey x.store S.tenant plan.key = some row := hrow
        rw [hnone] at hrow'
        cases hrow'

/-- The store changes, and what is under the page's keys was there or is the plan's. -/
theorem store (h : Sound S x) {s : Store} (hkeyed : Keyed s) (hbalanced : Balanced s)
    (hrows : ∀ k row, drew x.log k = true → byKey s S.tenant k = some row →
      (∃ row₀, byKey x.store S.tenant k = some row₀ ∧ HoldStep row₀ row) ∨
        ∃ inp, .sent k inp ∈ x.log ∧ Holds S k inp row) :
    Sound S { x with store := s } := by
  refine ⟨hkeyed, hbalanced, h.input, h.plan, h.fits, fun k row hk hrow => ?_⟩
  rcases hrows k row hk hrow with ⟨row₀, hrow₀, hstep⟩ | hnew
  · obtain ⟨inp, hsent, hholds⟩ := h.rows k row₀ hk hrow₀
    exact ⟨inp, hsent, hholds.step hstep⟩
  · exact hnew

theorem answered (h : Sound S x) {plan : Plan} (hplan : x.page.examplePlan = some plan) (reply : Reply)
    (now : Int) (events : ℕ → String) : Sound S (x.answered plan now events reply) := by
  cases reply with
  | ok r =>
    have htold : Sound S { x with log := x.log ++ [.success plan.key] } := h.told nofun
    refine htold.page (Fits.idle (prepare_place ..)) fun plan' hp => ?_
    obtain rfl := Option.some.inj (prepare_plan hp)
    exact htold.plan plan hplan
  | error status =>
    have htold : Sound S { x with
        log := x.log ++ [if definitive (some status) then .rejected plan.key else .unclear plan.key] } := by
      refine h.told fun k inp => ?_
      split_ifs
      · nofun
      · nofun
    exact htold.page (Fits.idle rfl) fun plan' hp => htold.plan plan' (caught_plan hp)

/-- **One move.** -/
theorem move (h : Sound S x) {b : Bool} {x' : System} (hm : Move S x b x') : Sound S x' := by
  cases hm with
  | same => exact h
  | edit p hplan hplace =>
    refine h.page ?_ fun plan hp => h.plan plan (hplan ▸ hp)
    have hfits := h.fits
    unfold Fits Page.uncertain at hfits ⊢
    rw [hplan, hplace]
    exact hfits
  | look p hplan cost answer hplace hcertain =>
    refine h.page ?_ fun plan hp => h.plan plan (hplan ▸ hp)
    unfold Fits
    unfold Page.uncertain at hcertain ⊢
    rw [hplan, hplace]
    exact hcertain
  | stop p hplan hplace hcertain =>
    exact h.page (Fits.idle hplace) fun plan hp => h.plan plan (hplan plan hp)
  | send => exact h.page rfl nofun
  | retry plan hplan hhold => exact h.request hhold (Or.inl (h.plan plan hplan))
  | draw plan hhold hcertain hnew hfree => exact h.request hhold (Or.inr ⟨hnew, hfree⟩)
  | serve plan hplan hplace d fault =>
    have hserved : Sound S { x with store := (S.reserve plan.key plan.input d fault x.store).2 } := by
      obtain ⟨hkeyed, hbalanced⟩ := reserve_keeps (d := d) h.keyed h.balanced
      refine h.store hkeyed hbalanced fun k row hk hrow => ?_
      rcases reserve_origin h.keyed hrow with hold | ⟨rfl, hholds⟩
      · exact Or.inl hold
      · exact Or.inr ⟨plan.input, h.plan plan hplan, hholds⟩
    exact hserved.page (h.fits.reserve hplace) h.plan
  | answer plan hplan reply hplace now events => exact h.answered hplan reply now events
  | lose plan hplan a hplace status hstatus =>
    have htold : Sound S { x with log := x.log ++ [.unclear plan.key] } := h.told nofun
    exact htold.page (Fits.idle rfl) fun plan' hp => htold.plan plan' (caught_plan hp)
  | other c hforeign =>
    have hchange := c.op.change S.digest c.fault x.store
    refine h.store (h.keyed.change hchange) (h.balanced.change hchange) fun k row hk hrow => Or.inl ?_
    rcases h.keyed.byKey_origin hchange hrow with hold | ⟨inp, d, hop, -⟩
    · exact hold
    · exact absurd hop (hforeign k inp d hk)

end Sound

/-! ### Open keys and unknown reservations -/

/-- **What holds while nothing is abandoned.** A key that is open, and a reservation the page was not told
of, is that of its plan; a definitive answer on its way is true. -/
structure Accounted (S : Server) (x : System) : Prop where
  outstanding : ∀ k, Open x.log k → Current x.page k
  retried : Retried x.log
  unknown : ∀ k, drew x.log k = true → .success k ∉ x.log → byKey x.store S.tenant k ≠ none →
    Current x.page k
  refused : ∀ status plan, x.page.place = .reserve (some (.error status)) →
    x.page.examplePlan = some plan → definitive (some status) = true →
    byKey x.store S.tenant plan.key = none

namespace Accounted

variable {S : Server} {x : System}

/-- The page goes on without an answer to wait for. -/
theorem page (h : Accounted S x) {p : Page} (hcurrent : ∀ k, Current x.page k → Current p k)
    (hplace : ∀ reply, p.place ≠ .reserve (some reply)) : Accounted S { x with page := p } :=
  ⟨fun k hk => hcurrent k (h.outstanding k hk), h.retried,
    fun k hk hs hb => hcurrent k (h.unknown k hk hs hb), fun _ _ hp => absurd hp (hplace _)⟩

/-- A plan with a reservation, or none, leaves nothing open. -/
theorem certain (h : Accounted S x) (hcertain : x.page.uncertain = false) {p : Page}
    (hplace : ∀ reply, p.place ≠ .reserve (some reply)) : Accounted S { x with page := p } := by
  refine h.page (fun k hk => ?_) hplace
  rw [hk.uncertain] at hcertain
  cases hcertain

/-- The page is told what became of its plan. -/
theorem close (h : Accounted S x) {key : String} (hcurrent : Current x.page key)
    {e : Entry String ReservationInput} (he : e.closes key)
    (hknown : e = .success key ∨ byKey x.store S.tenant key = none) {p : Page} (hplace : p.place = .idle) :
    Accounted S ⟨x.store, p, x.log ++ [e]⟩ := by
  have hsent : ∀ k inp, e ≠ .sent k inp := by
    rintro k inp rfl
    rcases he with he | he
    · cases he
    · cases he
  refine ⟨fun k hk => ?_, retried_snoc.mpr ⟨h.retried, fun k i hs => absurd hs (hsent k i)⟩,
    fun k hk hs hb => ?_, fun _ _ hp => ?_⟩
  · rcases open_snoc.mp hk with ⟨hopen, hnot⟩ | rfl
    · have hkey := (h.outstanding k hopen).unique hcurrent
      subst hkey
      exact absurd he hnot
    · rcases he with he | he
      · cases he
      · cases he
  · rw [List.mem_append, List.mem_singleton, not_or] at hs
    rcases drew_append hk with hk | ⟨inp, hk⟩
    · have hkey := (h.unknown k hk hs.1 hb).unique hcurrent
      subst hkey
      rcases hknown with rfl | hnone
      · exact absurd rfl hs.2
      · exact absurd hnone hb
    · exact absurd hk (hsent k inp)
  · rw [hplace] at hp
    cases hp

/-- The outcome is unclear, and the plan stays. -/
theorem unclear (h : Accounted S x) {key : String} (hcurrent : Current x.page key) {p : Page}
    (hplan : p.examplePlan = x.page.examplePlan) (hplace : p.place = .idle) :
    Accounted S ⟨x.store, p, x.log ++ [.unclear key]⟩ := by
  have hcur : ∀ k, Current x.page k → Current p k := by
    intro k hk
    unfold Current
    rw [hplan]
    exact hk
  refine ⟨fun k hk => ?_, retried_snoc.mpr ⟨h.retried, nofun⟩, fun k hk hs hb => ?_, fun _ _ hp => ?_⟩
  · rcases open_snoc.mp hk with ⟨hopen, -⟩ | he
    · exact hcur k (h.outstanding k hopen)
    · cases he
      exact hcur key hcurrent
  · rw [List.mem_append, not_or] at hs
    rcases drew_append hk with hk | ⟨inp, hk⟩
    · exact hcur k (h.unknown k hk hs.1 hb)
    · cases hk
  · rw [hplace] at hp
    cases hp

/-- **A request is sent**, and no other key is the plan's. -/
theorem request (h : Accounted S x) {plan : Plan} (hhold : plan.hold = none)
    (hcurrent : ∀ k, Current x.page k → k = plan.key) : Accounted S (x.request plan) := by
  have hplan : Current (x.request plan).page plan.key := ⟨plan, rfl, hhold, rfl⟩
  refine ⟨fun k hk => ?_, retried_snoc.mpr ⟨h.retried, fun k i hs k' hk' => ?_⟩, fun k hk hs hb => ?_, nofun⟩
  · rcases open_snoc.mp hk with ⟨hopen, -⟩ | he
    · rw [hcurrent k (h.outstanding k hopen)]
      exact hplan
    · cases he
  · cases hs
    exact (hcurrent k' (h.outstanding k' hk')).symm
  · have hs' : .success k ∉ x.log := fun hmem => hs (List.mem_append_left _ hmem)
    rcases drew_append hk with hk | ⟨inp, hk⟩
    · rw [hcurrent k (h.unknown k hk hs' hb)]
      exact hplan
    · cases hk
      exact hplan

/-- The store changes, and only under the plan's key there is something new. -/
theorem store (h : Accounted S x) {s : Store}
    (hrows : ∀ k, drew x.log k = true → byKey s S.tenant k ≠ none →
      byKey x.store S.tenant k ≠ none ∨ Current x.page k)
    {p : Page} (hplan : p.examplePlan = x.page.examplePlan)
    (hrefused : ∀ status plan, p.place = .reserve (some (.error status)) → p.examplePlan = some plan →
      definitive (some status) = true → byKey s S.tenant plan.key = none) :
    Accounted S { x with store := s, page := p } := by
  have hcur : ∀ k, Current x.page k → Current p k := by
    intro k hk
    unfold Current
    rw [hplan]
    exact hk
  refine ⟨fun k hk => hcur k (h.outstanding k hk), h.retried, fun k hk hs hb => hcur k ?_, hrefused⟩
  rcases hrows k hk hb with hb | hk
  · exact h.unknown k hk hs hb
  · exact hk

/-- The request of the plan is executed. -/
theorem serve (h : Accounted S x) (hs : Sound S x) {plan : Plan} (hplan : x.page.examplePlan = some plan)
    (hcurrent : Current x.page plan.key) (d : ReserveDraw) (fault : Option ℕ) :
    Accounted S { x with
      store := (S.reserve plan.key plan.input d fault x.store).2
      page := { x.page with
        place := .reserve (some (S.reserve plan.key plan.input d fault x.store).1) } } := by
  refine h.store (fun k hk hb => ?_) rfl fun status plan' hp hplan' hdef => ?_
  · obtain ⟨row, hrow⟩ := Option.ne_none_iff_exists'.mp hb
    rcases reserve_origin hs.keyed hrow with ⟨row₀, hrow₀, -⟩ | ⟨rfl, -⟩
    · left
      rw [hrow₀]
      nofun
    · exact Or.inr hcurrent
  · rw [hplan] at hplan'
    cases hplan'
    injection hp with hp
    injection hp with hreply
    refine reserve_rejected hs.balanced (fun row hrow => ?_) hreply hdef
    have hsent := hs.plan plan hplan
    obtain ⟨inp, hsent', hholds⟩ := hs.rows plan.key row (drew_iff.mpr ⟨_, hsent⟩) hrow
    rw [hs.input _ _ _ hsent hsent']
    exact hholds

/-- The answer to the request of the plan arrives. -/
theorem answered (h : Accounted S x) {plan : Plan} (hplan : x.page.examplePlan = some plan)
    (hcurrent : Current x.page plan.key) {reply : Reply} (hplace : x.page.place = .reserve (some reply))
    (now : Int) (events : ℕ → String) : Accounted S (x.answered plan now events reply) := by
  cases reply with
  | ok r => exact h.close hcurrent (Or.inl rfl) (Or.inl rfl) (prepare_place ..)
  | error status =>
    simp only [System.answered]
    split_ifs with hdef
    · exact h.close hcurrent (Or.inr rfl) (Or.inr (h.refused status plan hplace hplan hdef)) rfl
    · exact h.unclear hcurrent (caught_keeps (Or.inr (Bool.not_eq_true _ ▸ hdef))) rfl

/-- **One move** that abandons nothing. -/
theorem move (h : Accounted S x) (hs : Sound S x) {x' : System} (hm : Move S x false x') :
    Accounted S x' := by
  have hwaits : ∀ {plan : Plan} {a : Option Reply}, x.page.examplePlan = some plan →
      x.page.place = .reserve a → Current x.page plan.key := by
    intro plan a hplan hplace
    exact Current.of_uncertain hplan (hs.fits.reserve hplace)
  generalize hb : false = b at hm
  cases hm with
  | same => exact h
  | edit p hplan hplace =>
    refine h.store (fun k _ hk => Or.inl hk) hplan fun status plan hp hp' => ?_
    rw [hplace] at hp
    rw [hplan] at hp'
    exact h.refused status plan hp hp'
  | look p hplan cost answer hplace hcertain =>
    refine h.certain hcertain fun reply hp => ?_
    rw [hplace] at hp
    cases hp
  | stop p hplan hplace hcertain =>
    refine h.certain hcertain fun reply hp => ?_
    rw [hplace] at hp
    cases hp
  | send => exact h.certain hb.symm nofun
  | retry plan hplan hhold => exact h.request hhold fun k hk => hk.unique ⟨plan, hplan, hhold, rfl⟩
  | draw plan hhold hcertain hnew hfree =>
    refine h.request hhold fun k hk => ?_
    rw [hk.uncertain] at hcertain
    cases hcertain
  | serve plan hplan hplace d fault => exact h.serve hs hplan (hwaits hplan hplace) d fault
  | answer plan hplan reply hplace now events =>
    exact h.answered hplan (hwaits hplan hplace) hplace now events
  | lose plan hplan a hplace status hstatus =>
    exact h.unclear (hwaits hplan hplace) (caught_keeps (Or.inr hstatus)) rfl
  | other c hforeign =>
    have hchange := c.op.change S.digest c.fault x.store
    have hrows : ∀ k, drew x.log k = true → byKey (c.step S.digest x.store) S.tenant k ≠ none →
        byKey x.store S.tenant k ≠ none := by
      intro k hk hb
      obtain ⟨row, hrow⟩ := Option.ne_none_iff_exists'.mp hb
      rcases hs.keyed.byKey_origin hchange hrow with ⟨row₀, hrow₀, -⟩ | ⟨inp, d, hop, -⟩
      · rw [hrow₀]
        nofun
      · exact absurd hop (hforeign k inp d hk)
    refine h.store (fun k hk hb => Or.inl (hrows k hk hb)) rfl fun status plan hp hp' hdef => ?_
    by_contra hne
    have hsent := drew_iff.mpr ⟨_, hs.plan plan hp'⟩
    exact hrows plan.key hsent hne (h.refused status plan hp hp' hdef)

end Accounted

/-! ### Runs -/

section Runs

variable (S : Server) (R : Numbers) (parse : String → Option ℕ)

/-- No step of the run abandons a reservation. -/
def Careful : System → List Event → Prop
  | _, [] => True
  | x, e :: es => abandons S parse x e = false ∧ Careful (x.step S R parse e) es

instance : ∀ x es, Decidable (Careful S R parse x es)
  | _, [] => .isTrue trivial
  | x, e :: es =>
    have := instDecidableCareful (x.step S R parse e) es
    inferInstanceAs (Decidable (_ ∧ _))

/-- The reservation is the page's, and the page was not told that its request succeeded. -/
def unknownHold (log : Log) (r : ReservationRow) : Bool :=
  r.tenant = S.tenant ∧ drew log r.idemKey = true ∧ .success r.idemKey ∉ log

variable {S R parse} {x : System}

theorem Sound.run (h : Sound S x) (es : List Event) : Sound S (x.run S R parse es) := by
  induction es generalizing x with
  | nil => exact h
  | cons e es ih => exact ih (h.move (step_move h.fits R parse e))

theorem Accounted.run (h : Accounted S x) (hs : Sound S x) {es : List Event}
    (hes : Careful S R parse x es) : Accounted S (x.run S R parse es) := by
  induction es generalizing x with
  | nil => exact h
  | cons e es ih =>
    obtain ⟨he, hes⟩ := hes
    have hm := step_move (S := S) hs.fits R parse e
    rw [he] at hm
    exact ih (h.move hs hm) (hs.move hm) hes

theorem Careful.append {es fs : List Event} (h : Careful S R parse x (es ++ fs)) :
    Careful S R parse x es := by
  induction es generalizing x with
  | nil => trivial
  | cons e es ih => exact ⟨h.1, ih h.2⟩

/-- **At most one reservation is unknown**: that of the plan. -/
theorem Accounted.unknown_le (h : Accounted S x) (hs : Sound S x) :
    x.store.reservations.count (unknownHold S x.log) ≤ 1 := by
  have hcurrent : ∀ r ∈ x.store.reservations, unknownHold S x.log r = true → Current x.page r.idemKey := by
    intro r hr hun
    obtain ⟨ht, hk, hsucc⟩ := of_decide_eq_true hun
    refine h.unknown r.idemKey hk hsucc ?_
    rw [← ht, hs.keyed.byKey_of_mem hr]
    nofun
  cases hp : x.page.examplePlan with
  | none =>
    refine le_trans (hs.keyed.reservations.count_le [] fun r hr hun => ?_) (Nat.zero_le 1)
    obtain ⟨plan, hplan, -⟩ := hcurrent r hr hun
    rw [hp] at hplan
    cases hplan
  | some plan =>
    refine hs.keyed.reservations.count_le [(S.tenant, plan.key)] fun r hr hun => ?_
    obtain ⟨plan', hplan, -, hkey⟩ := hcurrent r hr hun
    rw [hp] at hplan
    cases hplan
    obtain ⟨ht, -⟩ := of_decide_eq_true hun
    rw [idem, ht, hkey]
    exact List.mem_singleton_self _

theorem Sound.start {s : Store} (hkeyed : Keyed s) (hb : Balanced s) : Sound S (System.start s) :=
  ⟨hkeyed, hb, oneInput_nil, nofun, trivial, nofun⟩

theorem Accounted.start (s : Store) : Accounted S (System.start s) :=
  ⟨fun _ h => absurd h open_nil, retried_nil, nofun, nofun⟩

end Runs

/-- **No uncertain reservation is abandoned**, in a run that sends no batch while one is uncertain. In
every state it reaches, no key was sent with two inputs, every request after an unclear failure had the
same key until its outcome was known, and at most one reservation is unknown to the page. -/
theorem uncertain_kept (S : Server) (R : Numbers) (parse : String → Option ℕ) (pre : List Call)
    (es : List Event) (hes : Careful S R parse (.start (Core.Run.run S.digest pre Store.empty)) es) :
    ∀ fs, fs <+: es →
      let x := (System.start (Core.Run.run S.digest pre Store.empty)).run S R parse fs
      OneInput x.log ∧ Retried x.log ∧ x.store.reservations.count (unknownHold S x.log) ≤ 1 := by
  rintro fs ⟨gs, rfl⟩ x
  have hstart : Sound S (.start (Core.Run.run S.digest pre Store.empty)) :=
    .start (Keyed.empty.run pre) (Balanced.empty.run pre)
  have hsound : Sound S x := hstart.run fs
  have hx : Accounted S x := (Accounted.start _).run hstart hes.append
  exact ⟨hsound.input, hx.retried, hx.unknown_le hsound⟩

/-! ### A lost answer -/

/-- A digest that writes out the input. -/
def sampleDigest : Digest where
  input inp := inp.campaignID ++ "/" ++ inp.screenID ++ "/" ++ String.ofList (Wire.decimal inp.cost)
  receipt r := r.eventID

def sampleServer : Server := ⟨"demo", sampleDigest, true, true, fun _ => true⟩

def sampleStore : Store := Core.Run.run sampleDigest [⟨.seed "demo", none⟩] Store.empty

def sampleEvents (n : ℕ) : String := if n = 0 then "event-0" else "event-1"

def sampleDraw (id : String) : ReserveDraw := ⟨id, 0, 0, ⟨"audit-" ++ id, 0⟩⟩

/-- A body with one item. -/
def sampleBody : String := "\x7b\x22receipts\x22:[\x7b\x7d]\x7d"

def sampleParse (text : String) : Option ℕ := if text = sampleBody then some 1 else none

/-- Load example with a new key; the server makes reservation `id`, and the answer is lost. -/
def losesAnswer (key id : String) : List Event :=
  [.load 0 0 sampleEvents, .serve 0 (sampleDraw id) none, .arrive 0 key sampleEvents,
    .serve 0 (sampleDraw id) none, .fail none]

/-- Load example again asks again. -/
def sampleRetry : List Event :=
  losesAnswer "key-1" "r1" ++
    [.load 0 0 sampleEvents, .serve 0 (sampleDraw "r2") none, .arrive 0 "" sampleEvents]

def sampleEnd (es : List Event) : System :=
  (System.start sampleStore).run sampleServer overflowing sampleParse es

theorem uncertain_kept_retry :
    ((sampleEnd sampleRetry).log.length = 4 ∧
      (sampleEnd (losesAnswer "key-1" "r1")).store.reservations.count
        (unknownHold sampleServer (sampleEnd (losesAnswer "key-1" "r1")).log) = 1) ∧
      ∀ fs, fs <+: sampleRetry →
        OneInput (sampleEnd fs).log ∧ Retried (sampleEnd fs).log ∧
          (sampleEnd fs).store.reservations.count (unknownHold sampleServer (sampleEnd fs).log) ≤ 1 :=
  ⟨by decide +kernel,
    uncertain_kept sampleServer overflowing sampleParse [⟨.seed "demo", none⟩] sampleRetry (by decide +kernel)⟩

/-- A batch is sent while the answer is lost, and the next Load example draws another key. -/
def sampleAbandon : List Event :=
  losesAnswer "key-1" "r1" ++ [.draft sampleBody, .send, .arrive 0 "" sampleEvents] ++
    losesAnswer "key-2" "r2"

/-- **Send batch abandons an uncertain reservation.** -/
theorem uncertain_abandoned :
    ¬ Retried (sampleEnd sampleAbandon).log ∧
      (sampleEnd sampleAbandon).store.reservations.count
        (unknownHold sampleServer (sampleEnd sampleAbandon).log) = 2 := by
  refine ⟨fun h => ?_, by decide +kernel⟩
  have hlog : (sampleEnd sampleAbandon).log =
      [.sent "key-1" ⟨"cmp-cascade", "den-01", 10000⟩, .unclear "key-1"] ++
        .sent "key-2" ⟨"cmp-cascade", "den-01", 10000⟩ :: [.unclear "key-2"] := by
    decide +kernel
  have hopen : Open
      [.sent "key-1" (⟨"cmp-cascade", "den-01", 10000⟩ : ReservationInput), .unclear "key-1"] "key-1" :=
    ⟨[.sent "key-1" ⟨"cmp-cascade", "den-01", 10000⟩], [], rfl, nofun⟩
  exact absurd (h _ _ _ _ hlog "key-1" hopen) (by decide)

end Afterglow.Console.Uncertain
