import Afterglow.Core.Grace

/-! # The expiry sweep

`ReleaseExpired` reads the keys of at most a hundred lapsed holds, in any order, and releases them one
transaction after the other; the first error ends it. The budget an advertiser gets back waits for that. A
limit without an order could pass the same hold over again and again. It does not: whatever other
transactions come in between, a sweep that goes through and has not taken a hold has left behind a hundred
others (`Swept`), so in a stretch of half an hour, one sweep for every hundred holds that lapse in it
leaves none that had lapsed before (`sweeps_release`). A sweep that meets no fault and that nobody disturbs
goes through (`sweep_alone`). -/

namespace Afterglow.Core.Expiry

open Afterglow.Sql.Rows Afterglow.Sql.Txn Afterglow.Core.Model Afterglow.Core.Statements
open Afterglow.Core.Store Afterglow.Core.Outcome Afterglow.Core.Run Afterglow.Core.Ledger

/-! ### The sweep -/

/-- What the query asks for: `state='held' AND expires < now-900000`. -/
def lapsed (now : Int) (r : ReservationRow) : Bool := r.state == .held && decide (r.expires < now - 900000)

/-- An answer of the query, in any order: `LIMIT 100`. -/
def Answer (s : Store) (now : Int) (ids : List Key2) : Prop :=
  ids.Nodup ∧ (∀ k ∈ ids, (s.reservations.find? k).any (lapsed now) = true) ∧
    ids.length = min 100 (s.reservations.count (lapsed now))

instance (s : Store) (now : Int) (ids : List Key2) : Decidable (Answer s now ids) :=
  inferInstanceAs (Decidable (_ ∧ _ ∧ _))

/-- A call of `ReleaseExpired`: its clock, and the keys it has not come to. -/
structure Sweep where
  now : Int
  ids : List Key2
  deriving DecidableEq

/-- The store, and the call under way. -/
structure System where
  store : Store
  sweep : Option Sweep

inductive Event
  /-- a transaction of anyone else, other processes' sweeps included -/
  | other (c : Call)
  | query (now : Int) (ids : List Key2)
  | release (d : Stamp) (fault : Option ℕ)
  | done

namespace System

variable (H : Digest)

def step (x : System) : Event → System
  | .other c => { x with store := c.step H x.store }
  | .query now ids =>
    if x.sweep = none ∧ Answer x.store now ids then { x with sweep := some ⟨now, ids⟩ } else x
  | .release d fault => match x.sweep with
    | some ⟨now, (tenant, id) :: ids⟩ =>
      let r : Except Err Unit × Store := (Op.release tenant id now d).exec H fault x.store
      match r.1 with
      | .ok _ => ⟨r.2, some ⟨now, ids⟩⟩
      | .error _ => ⟨r.2, none⟩
    | _ => x
  | .done => match x.sweep with
    | some ⟨_, []⟩ => { x with sweep := none }
    | _ => x

def run (es : List Event) (x : System) : System := es.foldl (step H) x

/-- The step ends a sweep that went through. -/
def completes (x : System) : Event → ℕ
  | .done => match x.sweep with
    | some ⟨_, []⟩ => 1
    | _ => 0
  | _ => 0

/-- The sweeps of a run that went through. -/
def completed : List Event → System → ℕ
  | [], _ => 0
  | e :: es, x => x.completes e + completed es (x.step H e)

end System

/-- The stretch: sweeps read the clock between `t₀` and `t₁`, and holds that are made in it, for fifteen
minutes, do not lapse in it. -/
def within (t₀ t₁ : Int) : Event → Bool
  | .query now _ => t₀ ≤ now ∧ now ≤ t₁
  | .other ⟨.reserve _ _ _ d, _⟩ => t₁ ≤ d.later + 1800000
  | _ => true

/-! ### Counting by keys -/

section Keys

variable {κ ρ : Type} {key : ρ → κ} {t t' : Table key} {p q : ρ → Bool}

theorem length_le_count {ks : List κ} (hks : ks.Nodup) (h : ∀ k ∈ ks, ∃ r ∈ t, p r = true ∧ key r = k) :
    ks.length ≤ t.count p := by
  have hsub : ks ⊆ (t.rows.filter p).map key := by
    intro k hk
    obtain ⟨r, hr, hp, hkey⟩ := h k hk
    exact List.mem_map.mpr ⟨r, List.mem_filter.mpr ⟨hr, hp⟩, hkey⟩
  have hle := hks.length_le_of_subset hsub
  rwa [List.length_map, ← Table.count_eq_length] at hle

theorem nodup_keys (t : Table key) (p : ρ → Bool) : ((t.rows.filter p).map key).Nodup := (t.filter p).nodup

theorem length_keys (t : Table key) (p : ρ → Bool) : ((t.rows.filter p).map key).length = t.count p := by
  rw [List.length_map, ← Table.count_eq_length]

theorem count_le_count (h : ∀ r ∈ t', q r = true → ∃ r₀ ∈ t, p r₀ = true ∧ key r₀ = key r) :
    t'.count q ≤ t.count p := by
  rw [← length_keys t' q]
  refine length_le_count (nodup_keys t' q) fun k hk => ?_
  obtain ⟨r, hr, rfl⟩ := List.mem_map.mp hk
  exact h r (List.mem_filter.mp hr).1 (List.mem_filter.mp hr).2

end Keys

/-! ### What a transaction does to the holds -/

/-- Holds only end, and no hold is made that lapses by `t₁`. -/
structure Ebbs (t₁ : Int) (s s' : Store) : Prop where
  kept : ∀ k r, s.reservations.find? k = some r →
    ∃ r', s'.reservations.find? k = some r' ∧ r'.expires = r.expires ∧ (r'.state = .held → r.state = .held)
  old : ∀ r' ∈ s'.reservations, lapsed t₁ r' = true → ∃ r ∈ s.reservations, lapsed t₁ r = true ∧ r.pk = r'.pk

theorem lapsed_iff {now : Int} {r : ReservationRow} :
    lapsed now r = true ↔ r.state = .held ∧ r.expires < now - 900000 := by
  simp [lapsed]

section Step

variable {H : Digest} {t₁ : Int} {s s' : Store}

theorem Ebbs.of_eq (h : s'.reservations = s.reservations) : Ebbs t₁ s s' := by
  refine ⟨fun k r hr => ⟨r, by rw [h]; exact hr, rfl, id⟩, fun r' hr' hl => ⟨r', ?_, hl, rfl⟩⟩
  rwa [h] at hr'

/-- A hold ends. -/
theorem Ebbs.of_put {k : Key2} {r : ReservationRow} {state : Hold} (hr : s.reservations.find? k = some r)
    (hstate : state ≠ .held) (h : s'.reservations = s.reservations.put { r with state }) : Ebbs t₁ s s' := by
  have hk : r.pk = k := Table.find?_key hr
  refine ⟨fun k' r' hr' => ?_, fun r' hr' hl => ?_⟩
  · by_cases hkk : k = k'
    · subst hkk
      cases hr.symm.trans hr'
      refine ⟨{ r with state }, ?_, rfl, fun hheld => absurd hheld hstate⟩
      rw [h, ← hk]
      exact Table.find?_put_self s.reservations { r with state }
    · refine ⟨r', ?_, rfl, id⟩
      rw [h]
      exact (Table.find?_put_ne (r := { r with state }) (by rw [← hk] at hkk; exact hkk)).trans hr'
  · rw [h] at hr'
    rcases Table.mem_put.mp hr' with rfl | ⟨hmem, -⟩
    · exact absurd (lapsed_iff.mp hl).1 hstate
    · exact ⟨r', hmem, hl, rfl⟩

theorem ebbs_change {o : Op} (hc : Change H s o s')
    (ho : ∀ tenant key inp d, o = .reserve tenant key inp d → t₁ ≤ d.later + 1800000) : Ebbs t₁ s s' := by
  cases hc with
  | seeded h => exact .of_eq (by rw [h.rest])
  | @held tenant key inp d c _ _ _ _ _ _ hid =>
    have hlate := ho tenant key inp d rfl
    refine ⟨fun k r hr => ⟨r, ?_, rfl, id⟩, fun r' hr' hl => ?_⟩
    · refine (Table.find?_put_ne fun hk => ?_).trans hr
      rw [← hk] at hr
      cases hid.symm.trans hr
    · rcases Table.mem_put.mp hr' with rfl | ⟨hmem, -⟩
      · have hexp : d.later + 15 * 60 * 1000 < t₁ - 900000 := (lapsed_iff.mp hl).2
        omega
      · exact ⟨r', hmem, hl, rfl⟩
  | settled dl p r hd hs hp hv hr hh => exact .of_put hr (fun h => by cases h) rfl
  | released r hr hh he => exact .of_put hr (fun h => by cases h) rfl
  | _ => exact .of_eq rfl

/-- What an answer says of the hold `k`: a `release` that goes through leaves it, if at all, not lapsed. -/
def Clears (k : Key2) (now : Int) (x : Except Err Unit × Store) : Prop :=
  x.1 = .ok () → ∀ r, x.2.reservations.find? k = some r → lapsed now r = false

theorem Clears.error (k : Key2) (now : Int) (e : Err) (s : Store) : Clears k now (.error e, s) :=
  fun h => by cases h

theorem release_clears (tenant id : String) (now : Int) (d : Stamp) (s : Store) :
    Clears (tenant, id) now (core.atomic (release tenant id now d) s) := by
  unfold Engine.atomic release
  refine core.runFrom_exec (fun e _ => .error _ now e s) fun n ws he => ?_
  rw [eval_core, evalStmt] at he
  rcases updateRow_cases he with ⟨rfl, rfl, hno⟩ | ⟨r, hr, -, -, rfl, rfl⟩
  · intro _ r hr
    have hp := of_decide_eq_false (hno r hr)
    exact Bool.eq_false_iff.mpr fun hl => hp (lapsed_iff.mp hl)
  have hk : r.pk = (tenant, id) := Table.find?_key hr
  cases hk
  simp only [Nat.one_ne_zero, if_false]
  have hfind : (core.writeAll [Write.reservation { r with state := .released }] s).reservations.find?
      (r.tenant, r.id) = some { r with state := .released } := Table.find?_put_self _ _
  rw [core.runFrom_read rfl, hfind]
  simp only [Option.map_some]
  refine core.runFrom_exec (fun e _ => .error _ now e s) fun n ws he => ?_
  rw [eval_core, evalStmt] at he
  obtain ⟨hw, -⟩ := effect_campaign he
  rw [hw]
  refine runFrom_audit (fun _ => .error _ now _ s) fun _ _ r' hr' => ?_
  cases hfind.symm.trans hr'
  rfl

/-- The same of a call with a fault. -/
theorem exec_release_clears (H : Digest) (tenant id : String) (now : Int) (d : Stamp) (fault : Option ℕ)
    (s : Store) : Clears (tenant, id) now ((Op.release tenant id now d).exec H fault s) := by
  rcases (Op.release tenant id now d).exec_cases H fault s with h | h
  · rw [h]
    exact release_clears tenant id now d s
  · rw [h]
    exact .error _ now _ s

end Step

/-! ### What is left -/

/-- The holds that lapse by `t₁` and are not among `ids`. -/
def left (s : Store) (t₁ : Int) (ids : List Key2) : ℕ :=
  s.reservations.count fun r => lapsed t₁ r && decide (r.pk ∉ ids)

/-- The hold `h` has not ended. -/
def Holding (h : Key2) (s : Store) : Prop := ∃ r, s.reservations.find? h = some r ∧ r.state = .held

section Left

variable {t₁ now : Int} {s s' : Store} {ids : List Key2} {h : Key2}

theorem left_iff {r : ReservationRow} :
    (lapsed t₁ r && decide (r.pk ∉ ids)) = true ↔ lapsed t₁ r = true ∧ r.pk ∉ ids := by
  rw [Bool.and_eq_true, decide_eq_true_eq]

theorem Ebbs.left (hs : Ebbs t₁ s s') (ids : List Key2) : left s' t₁ ids ≤ left s t₁ ids := by
  refine count_le_count fun r' hr' hl => ?_
  obtain ⟨hlapsed, hids⟩ := left_iff.mp hl
  obtain ⟨r, hr, hold, hk⟩ := hs.old r' hr' hlapsed
  exact ⟨r, hr, left_iff.mpr ⟨hold, hk ▸ hids⟩, hk⟩

theorem Ebbs.holding (hs : Ebbs t₁ s s') {r : ReservationRow} (hr : s.reservations.find? h = some r)
    (hh : Holding h s') : Holding h s := by
  obtain ⟨r', hr', hheld⟩ := hh
  obtain ⟨x, hx, -, hback⟩ := hs.kept h r hr
  cases hx.symm.trans hr'
  exact ⟨r, hr, hback hheld⟩

theorem lapsed_mono (hnow : now ≤ t₁) {r : ReservationRow} (h : lapsed now r = true) : lapsed t₁ r = true := by
  obtain ⟨hheld, hexp⟩ := lapsed_iff.mp h
  exact lapsed_iff.mpr ⟨hheld, by omega⟩

/-- The keys of an answer are those of lapsed holds. -/
theorem Answer.lapsed (ha : Answer s now ids) {k : Key2} (hk : k ∈ ids) :
    ∃ r, s.reservations.find? k = some r ∧ lapsed now r = true := by
  have hany := ha.2.1 k hk
  cases hr : s.reservations.find? k with
  | none =>
    rw [hr] at hany
    cases hany
  | some r =>
    rw [hr] at hany
    exact ⟨r, rfl, hany⟩

/-- **A query that passes over a lapsed hold answers a hundred others.** -/
theorem Answer.full (ha : Answer s now ids) {r : ReservationRow} (hr : s.reservations.find? h = some r)
    (hl : Expiry.lapsed now r = true) (hno : h ∉ ids) : ids.length = 100 := by
  have hle : (h :: ids).length ≤ s.reservations.count (Expiry.lapsed now) := by
    refine length_le_count (List.nodup_cons.mpr ⟨hno, ha.1⟩) fun k hk => ?_
    rcases List.mem_cons.mp hk with rfl | hk
    · exact ⟨r, Table.mem_of_find? hr, hl, Table.find?_key hr⟩
    · obtain ⟨x, hx, hlx⟩ := ha.lapsed hk
      exact ⟨x, Table.mem_of_find? hx, hlx, Table.find?_key hx⟩
  have hlen := ha.2.2
  rw [List.length_cons] at hle
  omega

/-- What a query answers is no longer left. -/
theorem Answer.left (ha : Answer s now ids) (hnow : now ≤ t₁) :
    Expiry.left s t₁ ids + ids.length ≤ Expiry.left s t₁ [] := by
  have hrest := nodup_keys s.reservations fun r => Expiry.lapsed t₁ r && decide (r.pk ∉ ids)
  have hlen := length_keys s.reservations fun r => Expiry.lapsed t₁ r && decide (r.pk ∉ ids)
  rw [Expiry.left, ← hlen, ← List.length_append]
  refine length_le_count (List.nodup_append.mpr ⟨hrest, ha.1, ?_⟩) fun k hk => ?_
  · rintro k hk _ hid rfl
    obtain ⟨r, hr, rfl⟩ := List.mem_map.mp hk
    exact (left_iff.mp (List.mem_filter.mp hr).2).2 hid
  · rcases List.mem_append.mp hk with hk | hk
    · obtain ⟨r, hr, rfl⟩ := List.mem_map.mp hk
      obtain ⟨hmem, hl⟩ := List.mem_filter.mp hr
      exact ⟨r, hmem, left_iff.mpr ⟨(left_iff.mp hl).1, List.not_mem_nil⟩, rfl⟩
    · obtain ⟨r, hr, hl⟩ := ha.lapsed hk
      exact ⟨r, Table.mem_of_find? hr, left_iff.mpr ⟨lapsed_mono hnow hl, List.not_mem_nil⟩,
        Table.find?_key hr⟩

/-- The key a `release` has dealt with is not left either. -/
theorem Ebbs.left_cons (hs : Ebbs t₁ s s') {k : Key2}
    (hk : ∀ r, s'.reservations.find? k = some r → Expiry.lapsed t₁ r = false) :
    Expiry.left s' t₁ ids ≤ Expiry.left s t₁ (k :: ids) := by
  refine count_le_count fun r' hr' hl => ?_
  obtain ⟨hlapsed, hids⟩ := left_iff.mp hl
  obtain ⟨r, hr, hold, hpk⟩ := hs.old r' hr' hlapsed
  refine ⟨r, hr, left_iff.mpr ⟨hold, ?_⟩, hpk⟩
  rw [hpk]
  refine fun hmem => (List.mem_cons.mp hmem).elim (fun he => ?_) hids
  rw [hk r' (he ▸ Table.find?_of_mem hr')] at hlapsed
  cases hlapsed

end Left

/-! ### One step -/

/-- **The invariant**, after `n` sweeps that went through: the hold `h` lapsed before `t₀`, and while it
has not ended, these have left behind a hundred others each, as will the sweep under way unless it has `h`
before it. -/
structure Swept (h : Key2) (t₀ t₁ : Int) (N n : ℕ) (x : System) : Prop where
  row : ∃ r, x.store.reservations.find? h = some r ∧ r.expires < t₀ - 900000
  clock : ∀ w, x.sweep = some w → t₀ ≤ w.now ∧ w.now ≤ t₁
  ids : ∀ w, x.sweep = some w → ∀ k ∈ w.ids,
    ∃ r, x.store.reservations.find? k = some r ∧ r.expires < w.now - 900000
  behind : Holding h x.store → left x.store t₁ [] + 100 * n ≤ N
  taking : Holding h x.store → ∀ w, x.sweep = some w →
    h ∈ w.ids ∨ left x.store t₁ w.ids + 100 * (n + 1) ≤ N

section Swept

variable {H : Digest} {h : Key2} {t₀ t₁ : Int} {N n : ℕ} {x : System} {s : Store}

/-- No sweep is under way any more, or none has been. -/
theorem Swept.rest (hx : Swept h t₀ t₁ N n x) {n' : ℕ} (hs : Ebbs t₁ x.store s)
    (hn : Holding h s → left s t₁ [] + 100 * n' ≤ N) : Swept h t₀ t₁ N n' ⟨s, none⟩ := by
  obtain ⟨r, hr, hexp⟩ := hx.row
  obtain ⟨r', hr', he, -⟩ := hs.kept h r hr
  exact ⟨⟨r', hr', by omega⟩, fun _ hw => (by cases hw), fun _ hw => (by cases hw), hn,
    fun _ _ hw => (by cases hw)⟩

/-- A transaction, of this process or of another. -/
theorem Swept.store (hx : Swept h t₀ t₁ N n x) (hs : Ebbs t₁ x.store s) :
    Swept h t₀ t₁ N n { x with store := s } := by
  obtain ⟨r, hr, hexp⟩ := hx.row
  obtain ⟨r', hr', he, -⟩ := hs.kept h r hr
  refine ⟨⟨r', hr', by omega⟩, hx.clock, fun w hw k hk => ?_, fun hh => ?_, fun hh w hw => ?_⟩
  · obtain ⟨y, hy, hlate⟩ := hx.ids w hw k hk
    obtain ⟨y', hy', he', -⟩ := hs.kept k y hy
    exact ⟨y', hy', by omega⟩
  · have hless := hs.left []
    have hbefore := hx.behind (hs.holding hr hh)
    show left s t₁ [] + 100 * n ≤ N
    omega
  · refine (hx.taking (hs.holding hr hh) w hw).imp_right fun hbefore => ?_
    have hless := hs.left w.ids
    show left s t₁ w.ids + 100 * (n + 1) ≤ N
    omega

/-- **The query.** -/
theorem Swept.query (hx : Swept h t₀ t₁ N n x) {now : Int} {ids : List Key2} (ha : Answer x.store now ids)
    (h₀ : t₀ ≤ now) (h₁ : now ≤ t₁) : Swept h t₀ t₁ N n { x with sweep := some ⟨now, ids⟩ } := by
  refine ⟨hx.row, fun w hw => ?_, fun w hw k hk => ?_, hx.behind, fun hh w hw => ?_⟩
  · cases hw
    exact ⟨h₀, h₁⟩
  · cases hw
    obtain ⟨r, hr, hl⟩ := ha.lapsed hk
    exact ⟨r, hr, (lapsed_iff.mp hl).2⟩
  · cases hw
    by_cases hmem : h ∈ ids
    · exact Or.inl hmem
    · obtain ⟨r, hr, hheld⟩ := hh
      obtain ⟨r', hr', hexp⟩ := hx.row
      cases hr.symm.trans hr'
      have hfull : ids.length = 100 := ha.full hr (lapsed_iff.mpr ⟨hheld, by omega⟩) hmem
      have hleft := ha.left h₁
      have hbefore := hx.behind ⟨r, hr, hheld⟩
      refine Or.inr ?_
      show left x.store t₁ ids + 100 * (n + 1) ≤ N
      omega

/-- **A `release` that goes through.** -/
theorem Swept.release (hx : Swept h t₀ t₁ N n x) {now : Int} {k : Key2} {ids : List Key2}
    (hw : x.sweep = some ⟨now, k :: ids⟩) (hs : Ebbs t₁ x.store s)
    (hclear : ∀ r, s.reservations.find? k = some r → lapsed now r = false) :
    Swept h t₀ t₁ N n ⟨s, some ⟨now, ids⟩⟩ := by
  have hnext := hx.store hs
  obtain ⟨h₀, h₁⟩ := hx.clock _ hw
  have hended : ∀ r, s.reservations.find? k = some r → r.state ≠ .held := by
    intro r hr hheld
    obtain ⟨y, hy, hlate⟩ := hnext.ids _ hw k List.mem_cons_self
    cases hy.symm.trans hr
    exact Bool.eq_false_iff.mp (hclear r hr) (lapsed_iff.mpr ⟨hheld, hlate⟩)
  refine ⟨hnext.row, fun w hw' => ?_, fun w hw' => ?_, hnext.behind, fun hh w hw' => ?_⟩
  · cases hw'
    exact ⟨h₀, h₁⟩
  · cases hw'
    exact fun k' hk' => hnext.ids _ hw k' (List.mem_cons_of_mem _ hk')
  · cases hw'
    obtain ⟨r, hr, -⟩ := hx.row
    rcases hx.taking (hs.holding hr hh) _ hw with hmem | hbefore
    · rcases List.mem_cons.mp hmem with rfl | hmem
      · obtain ⟨r', hr', hheld⟩ := hh
        exact absurd hheld (hended r' hr')
      · exact Or.inl hmem
    · have hless : left s t₁ ids ≤ left x.store t₁ (k :: ids) :=
        hs.left_cons fun r' hr' => Bool.eq_false_iff.mpr fun hl => hended r' hr' (lapsed_iff.mp hl).1
      have hbefore' : left x.store t₁ (k :: ids) + 100 * (n + 1) ≤ N := hbefore
      refine Or.inr ?_
      show left s t₁ ids + 100 * (n + 1) ≤ N
      omega

/-- **One step.** -/
theorem Swept.step (hx : Swept h t₀ t₁ N n x) {e : Event} (he : within t₀ t₁ e = true) :
    Swept h t₀ t₁ N (n + x.completes e) (x.step H e) := by
  cases e with
  | other c =>
    refine hx.store (ebbs_change (c.op.change H c.fault x.store) fun tenant key inp d ho => ?_)
    rcases c with ⟨o, fault⟩
    cases ho
    simpa [within] using he
  | query now ids =>
    have hclock : t₀ ≤ now ∧ now ≤ t₁ := of_decide_eq_true he
    show Swept h t₀ t₁ N n (if x.sweep = none ∧ Answer x.store now ids then _ else x)
    split_ifs with ha
    · exact hx.query ha.2 hclock.1 hclock.2
    · exact hx
  | release d fault =>
    show Swept h t₀ t₁ N n (x.step H (.release d fault))
    unfold System.step
    simp only
    split
    · next now tenant id ids hw =>
      have hs : Ebbs t₁ x.store ((Op.release tenant id now d).exec H fault x.store).2 :=
        ebbs_change (Op.change H _ fault _) fun _ _ _ _ ho => by cases ho
      split
      · next hok => exact hx.release hw hs (exec_release_clears H tenant id now d fault x.store hok)
      · exact hx.rest hs (hx.store hs).behind
    · exact hx
  | done =>
    show Swept h t₀ t₁ N (n + x.completes .done) (x.step H .done)
    unfold System.step System.completes
    simp only
    split
    · next now hw =>
      refine hx.rest (Ebbs.of_eq rfl) fun hh => ?_
      rcases hx.taking hh _ hw with hmem | hbefore
      · cases hmem
      · exact hbefore
    · exact hx

end Swept

/-! ### All runs -/

theorem Swept.run {H : Digest} {h : Key2} {t₀ t₁ : Int} {N : ℕ} : ∀ (es : List Event) {n : ℕ} {x : System},
    Swept h t₀ t₁ N n x → (∀ e ∈ es, within t₀ t₁ e = true) →
      Swept h t₀ t₁ N (n + x.completed H es) (x.run H es)
  | [], _, _, hx, _ => hx
  | e :: es, n, x, hx, hes => by
    have hstep := hx.step (H := H) (hes e List.mem_cons_self)
    have hrest := Swept.run (H := H) es hstep fun e' he' => hes e' (List.mem_cons_of_mem _ he')
    rw [Nat.add_assoc] at hrest
    exact hrest

theorem left_nil (s : Store) (t₁ : Int) : left s t₁ [] = s.reservations.count (lapsed t₁) :=
  congrArg s.reservations.count (funext fun r => by simp)

theorem Swept.start {h : Key2} {t₀ t₁ : Int} {s : Store} {r : ReservationRow}
    (hr : s.reservations.find? h = some r) (hl : lapsed t₀ r = true) :
    Swept h t₀ t₁ (s.reservations.count (lapsed t₁)) 0 ⟨s, none⟩ :=
  ⟨⟨r, hr, (lapsed_iff.mp hl).2⟩, fun _ hw => (by cases hw), fun _ hw => (by cases hw),
    fun _ => (left_nil s t₁).le, fun _ _ hw => (by cases hw)⟩

/-- **No lapsed hold is passed over for ever.** Take a stretch in which no hold is made that lapses in it,
half an hour at most. Whatever transactions of others come in between, and in whatever order the queries
answer: one sweep that goes through for every hundred holds that lapse by its end leaves none that had
lapsed at its beginning. -/
theorem sweeps_release (H : Digest) (s : Store) (es : List Event) {t₀ t₁ : Int} (h₀ : t₀ ≤ t₁)
    (hes : ∀ e ∈ es, within t₀ t₁ e = true)
    (hn : s.reservations.count (lapsed t₁) ≤ 100 * System.completed H es ⟨s, none⟩) {h : Key2}
    {r : ReservationRow} (hr : s.reservations.find? h = some r) (hl : lapsed t₀ r = true) :
    ∃ r', (System.run H es ⟨s, none⟩).store.reservations.find? h = some r' ∧ r'.state ≠ .held := by
  have hend : Swept h t₀ t₁ _ _ (System.run H es ⟨s, none⟩) := (Swept.start hr hl).run es hes
  obtain ⟨r', hr', hexp⟩ := hend.row
  refine ⟨r', hr', fun hheld => ?_⟩
  have hbehind := hend.behind ⟨r', hr', hheld⟩
  have hzero : (System.run H es ⟨s, none⟩).store.reservations.count (lapsed t₁) = 0 := by
    rw [left_nil] at hbehind
    omega
  have hnot := Table.count_eq_zero.mp hzero r' (Table.mem_of_find? hr')
  exact Bool.eq_false_iff.mp hnot (lapsed_iff.mpr ⟨hheld, by omega⟩)

/-! ### A sweep by itself -/

/-- The steps of a sweep that takes `ids` and draws `ds`. -/
def sweeping (now : Int) (ids : List Key2) (ds : List Stamp) : List Event :=
  .query now ids :: (ds.map fun d => .release d none) ++ [.done]

section Alone

variable {H : Digest} {s : Store}

theorem run_append_events (es es' : List Event) (x : System) :
    x.run H (es ++ es') = (x.run H es).run H es' := List.foldl_append

theorem completed_append : ∀ (es es' : List Event) (x : System),
    x.completed H (es ++ es') = x.completed H es + (x.run H es).completed H es'
  | [], es', x => (Nat.zero_add _).symm
  | e :: es, es', x => by
    show x.completes e + System.completed H (es ++ es') (x.step H e) = _
    rw [completed_append es es', ← Nat.add_assoc]
    rfl

/-- A release that meets no fault goes through, and touches one hold and one audit row. -/
theorem release_alone (now : Int) (hb : Balanced s) (tenant id : String) {d : Stamp} (ha : s.audit.find? d.id = none) :
    let y : Except Err Unit × Store := (Op.release tenant id now d).exec H none s
    y.1 = .ok () ∧ (∀ a, a ≠ d.id → y.2.audit.find? a = s.audit.find? a) ∧
      ∀ k, k ≠ (tenant, id) → y.2.reservations.find? k = s.reservations.find? k := by
  intro y
  have hout : ReleaseOut tenant id now d s y := release_out tenant id now d s
  clear_value y
  cases hout with
  | unreleased r hr e he => cases (check_reservation (hb.cost r hr)).symm.trans he
  | unrefunded r c hr hh hc e he => cases (hb.refund_check hr hh hc).symm.trans he
  | clash hused => exact absurd ha hused
  | idle => exact ⟨rfl, fun _ _ => rfl, fun _ _ => rfl⟩
  | released r hr =>
    have hpk : r.pk = (tenant, id) := Table.find?_key hr
    refine ⟨rfl, fun a hne => ?_, fun k hne => ?_⟩
    · exact Table.find?_put_ne (r := releasedAudit tenant id d) fun h => hne h.symm
    · have hpk' : ReservationRow.pk { r with state := .released } ≠ k := fun h => hne (h.symm.trans hpk)
      exact Table.find?_put_ne hpk'

/-- **The releases of a sweep that meets no fault go through**, and leave its keys behind. -/
theorem releases_alone (now : Int) : ∀ (ids : List Key2) (ds : List Stamp) (s : Store), ids.length = ds.length →
    Balanced s → (∀ d ∈ ds, s.audit.find? d.id = none) → (ds.map Stamp.id).Nodup →
    ∃ s', System.run H (ds.map fun d => .release d none) ⟨s, some ⟨now, ids⟩⟩ = ⟨s', some ⟨now, []⟩⟩ ∧
      System.completed H (ds.map fun d => .release d none) ⟨s, some ⟨now, ids⟩⟩ = 0 ∧ Balanced s' ∧
      left s' now [] ≤ left s now ids ∧
      (∀ a, a ∉ ds.map Stamp.id → s'.audit.find? a = s.audit.find? a) ∧
      ∀ k, k ∉ ids → s'.reservations.find? k = s.reservations.find? k
  | [], [], s, _, hb, _, _ => ⟨s, rfl, rfl, hb, le_rfl, fun _ _ => rfl, fun _ _ => rfl⟩
  | [], d :: ds, s, hlen, _, _, _ => by cases hlen
  | k :: ids, [], s, hlen, _, _, _ => by cases hlen
  | (tenant, id) :: ids, d :: ds, s, hlen, hb, hfresh, hnodup => by
    obtain ⟨hd, hnodup⟩ := List.nodup_cons.mp hnodup
    obtain ⟨hok, haudit, hkept⟩ :=
      release_alone (H := H) now hb tenant id (hfresh d List.mem_cons_self)
    have hclears := exec_release_clears H tenant id now d none s
    have hc := (Op.release tenant id now d).change H none s
    have hebbs : Ebbs now s ((Op.release tenant id now d).exec H none s).2 := ebbs_change hc (by simp)
    have hstep : System.step H ⟨s, some ⟨now, (tenant, id) :: ids⟩⟩ (.release d none) =
        ⟨((Op.release tenant id now d).exec H none s).2, some ⟨now, ids⟩⟩ := by
      simp only [System.step, hok]
    generalize ((Op.release tenant id now d).exec H none s : Except Err Unit × Store) = y at *
    have hfresh' : ∀ d' ∈ ds, y.2.audit.find? d'.id = none := by
      intro d' hd'
      rw [haudit d'.id fun h => hd (h ▸ List.mem_map_of_mem hd')]
      exact hfresh d' (List.mem_cons_of_mem d hd')
    obtain ⟨s', hrun, hnone, hb', hleft, haudit', hkept'⟩ :=
      releases_alone now ids ds y.2 (Nat.succ.inj hlen) (hb.change hc) hfresh' hnodup
    refine ⟨s', ?_, ?_, hb', hleft.trans (hebbs.left_cons (hclears hok)), fun a ha => ?_, fun k hk => ?_⟩
    · show System.run H _ (System.step H _ _) = _
      rw [hstep]
      exact hrun
    · show 0 + System.completed H _ (System.step H _ _) = _
      rw [hstep, Nat.zero_add]
      exact hnone
    · obtain ⟨hne, ha⟩ := not_or.mp (List.mem_cons.not.mp ha)
      exact (haudit' a ha).trans (haudit a hne)
    · obtain ⟨hne, hk⟩ := not_or.mp (List.mem_cons.not.mp hk)
      exact (hkept' k hk).trans (hkept k hne)

/-- **A sweep by itself goes through.** It leaves the lapsed holds its query did not answer, and them only. -/
theorem sweep_alone {now : Int} (ids : List Key2) (ds : List Stamp) (ha : Answer s now ids)
    (hlen : ids.length = ds.length) (hb : Balanced s) (hfresh : ∀ d ∈ ds, s.audit.find? d.id = none)
    (hnodup : (ds.map Stamp.id).Nodup) :
    ∃ s', System.run H (sweeping now ids ds) ⟨s, none⟩ = ⟨s', none⟩ ∧
      System.completed H (sweeping now ids ds) ⟨s, none⟩ = 1 ∧ Balanced s' ∧
      s'.reservations.count (lapsed now) ≤ s.reservations.count (lapsed now) - ids.length ∧
      (∀ a, a ∉ ds.map Stamp.id → s'.audit.find? a = s.audit.find? a) ∧
      ∀ k, k ∉ ids → s'.reservations.find? k = s.reservations.find? k := by
  obtain ⟨s', hrun, hnone, hb', hleft, haudit, hkept⟩ :=
    releases_alone (H := H) now ids ds s hlen hb hfresh hnodup
  have hquery : System.step H ⟨s, none⟩ (.query now ids) = ⟨s, some ⟨now, ids⟩⟩ := if_pos ⟨rfl, ha⟩
  have hless := ha.left (le_refl now)
  rw [left_nil] at hleft hless
  refine ⟨s', ?_, ?_, hb', by omega, haudit, hkept⟩
  · show System.run H ((ds.map fun d => .release d none) ++ [.done]) (System.step H _ _) = _
    rw [hquery, run_append_events, hrun]
    rfl
  · show 0 + System.completed H ((ds.map fun d => .release d none) ++ [.done]) (System.step H _ _) = _
    rw [hquery, completed_append, hnone, hrun]
    rfl

end Alone

/-! ### A hundred and one holds -/

/-- A name for each number. -/
def numbered (i : ℕ) : String := String.ofList (List.replicate i 'i')

theorem numbered_injective : Function.Injective numbered := fun i j h => by
  have hl := congrArg List.length (String.ofList_injective h)
  simpa using hl

/-- Hold `i` of a crowd, which lapses after half an hour. -/
def crowdHold (i : ℕ) : ReservationRow :=
  newReservation Grace.byName "demo" (numbered i) ⟨"cmp-cascade", "sea-01", 10000⟩
    ⟨numbered i, 0, 0, ⟨numbered i, 0⟩⟩

def crowdKey (i : ℕ) : Key2 := ("demo", numbered i)

theorem crowdKey_injective : Function.Injective crowdKey := fun _ _ h =>
  numbered_injective (congrArg Prod.snd h)

/-- A hundred and one holds of one campaign. -/
def crowd : Store :=
  { Store.empty with
    campaigns := Table.empty.put ⟨⟨"cmp-cascade", "Cascade", 250000000, 1010000, 0⟩, "demo"⟩
    reservations := ⟨(List.range 101).map crowdHold, by
      rw [List.map_map]
      exact List.nodup_range.map crowdKey_injective⟩ }

theorem mem_crowd {r : ReservationRow} : r ∈ crowd.reservations ↔ ∃ i < 101, crowdHold i = r := by
  show r ∈ (List.range 101).map crowdHold ↔ _
  simp only [List.mem_map, List.mem_range]

theorem find_crowd {i : ℕ} (hi : i < 101) : crowd.reservations.find? (crowdKey i) = some (crowdHold i) :=
  Table.find?_of_mem (mem_crowd.mpr ⟨i, hi, rfl⟩)

theorem lapsed_crowdHold (i : ℕ) : lapsed 1800001 (crowdHold i) = true :=
  lapsed_iff.mpr ⟨rfl, show (0 : Int) + 15 * 60 * 1000 < 1800001 - 900000 by decide⟩

theorem count_crowd : crowd.reservations.count (lapsed 1800001) = 101 := by
  have hall : ((List.range 101).map crowdHold).filter (lapsed 1800001) = (List.range 101).map crowdHold := by
    refine List.filter_eq_self.mpr fun r hr => ?_
    obtain ⟨i, -, rfl⟩ := List.mem_map.mp hr
    exact lapsed_crowdHold i
  rw [Table.count_eq_length]
  show (((List.range 101).map crowdHold).filter (lapsed 1800001)).length = 101
  rw [hall, List.length_map, List.length_range]

theorem committed_crowd (state : Hold) :
    committed crowd ("demo", "cmp-cascade") state = if state = .held then 1010000 else 0 := by
  have hshare : ∀ i, share ("demo", "cmp-cascade") state (crowdHold i) =
      if state = .held then 10000 else 0 := by
    intro i
    by_cases hs : state = .held
    · rw [if_pos hs, hs]
      exact if_pos ⟨rfl, rfl, rfl⟩
    · rw [if_neg hs]
      exact if_neg fun h => hs h.2.2.symm
  show (((List.range 101).map crowdHold).map (share ("demo", "cmp-cascade") state)).sum = _
  have hcongr : (List.range 101).map (share ("demo", "cmp-cascade") state ∘ crowdHold) =
      (List.range 101).map fun _ => if state = .held then 10000 else 0 :=
    List.map_congr_left fun i _ => hshare i
  rw [List.map_map, hcongr, List.map_const', List.sum_replicate, List.length_range]
  split_ifs <;> rfl

theorem balanced_crowd : Balanced crowd := by
  have hfind : ∀ k c, crowd.campaigns.find? k = some c →
      k = ("demo", "cmp-cascade") ∧ c = ⟨⟨"cmp-cascade", "Cascade", 250000000, 1010000, 0⟩, "demo"⟩ := by
    intro k c hc
    have hmem : c ∈ crowd.campaigns := Table.mem_of_find? hc
    have hkey : c.pk = k := Table.find?_key hc
    rcases Table.mem_put.mp hmem with rfl | ⟨hmem, -⟩
    · exact ⟨hkey.symm, rfl⟩
    · exact absurd hmem (Table.not_mem_empty c)
  refine ⟨fun r hr => ?_, fun r hr => ?_, fun k c hc => ?_, fun k c hc => ?_, fun k c hc => ?_⟩
  · obtain ⟨i, -, rfl⟩ := mem_crowd.mp hr
    exact ⟨_, Table.find?_put_self Table.empty _⟩
  · obtain ⟨i, -, rfl⟩ := mem_crowd.mp hr
    show (0 : Int) < 10000
    decide
  · obtain ⟨rfl, rfl⟩ := hfind k c hc
    exact (committed_crowd .held).symm
  · obtain ⟨rfl, rfl⟩ := hfind k c hc
    exact (committed_crowd .settled).symm
  · obtain ⟨-, rfl⟩ := hfind k c hc
    decide

/-- A sweep of the first hundred, and one of the last. -/
def twoSweeps : List Event :=
  sweeping 1800001 ((List.range 100).map crowdKey) ((List.range 100).map fun i => ⟨numbered i, 1800001⟩) ++
    sweeping 1800001 [crowdKey 100] [⟨numbered 100, 1800001⟩]

theorem answer_crowd : Answer crowd 1800001 ((List.range 100).map crowdKey) := by
  refine ⟨List.nodup_range.map crowdKey_injective, fun k hk => ?_, ?_⟩
  · obtain ⟨i, hi, rfl⟩ := List.mem_map.mp hk
    have hi' : i < 101 := (List.mem_range.mp hi).trans (by decide)
    rw [find_crowd hi']
    exact lapsed_crowdHold i
  · rw [count_crowd, List.length_map, List.length_range]
    rfl

/-- The limit stops the first sweep; the second one takes what it left. -/
theorem completed_twoSweeps : System.completed Grace.byName twoSweeps ⟨crowd, none⟩ = 2 := by
  have hnew : ∀ i < 100, numbered 100 ≠ numbered i := fun i hi h => by
    have hi' := numbered_injective h
    omega
  obtain ⟨s, hrun, hone, hb, hcount, haudit, hkept⟩ := sweep_alone (H := Grace.byName) _
    ((List.range 100).map fun i => ⟨numbered i, 1800001⟩) answer_crowd (by simp) balanced_crowd
    (fun d _ => rfl) (by
      rw [List.map_map]
      exact List.nodup_range.map numbered_injective)
  have hlast : s.reservations.find? (crowdKey 100) = some (crowdHold 100) := by
    rw [hkept _ fun hmem => ?_, find_crowd (by decide)]
    obtain ⟨i, hi, hik⟩ := List.mem_map.mp hmem
    exact hnew i (List.mem_range.mp hi) (congrArg Prod.snd hik).symm
  rw [count_crowd, List.length_map, List.length_range] at hcount
  have hanswer : Answer s 1800001 [crowdKey 100] := by
    have hpos : [crowdKey 100].length ≤ s.reservations.count (lapsed 1800001) := by
      refine length_le_count (List.nodup_singleton _) fun k hk => ?_
      rw [List.mem_singleton.mp hk]
      exact ⟨_, Table.mem_of_find? hlast, lapsed_crowdHold 100, rfl⟩
    refine ⟨List.nodup_singleton _, fun k hk => ?_, ?_⟩
    · rw [List.mem_singleton.mp hk, hlast]
      exact lapsed_crowdHold 100
    · rw [List.length_singleton] at hpos ⊢
      omega
  have hfree : s.audit.find? (numbered 100) = none := by
    refine (haudit _ fun hmem => ?_).trans rfl
    obtain ⟨d, hd, hid⟩ := List.mem_map.mp hmem
    obtain ⟨i, hi, rfl⟩ := List.mem_map.mp hd
    exact hnew i (List.mem_range.mp hi) hid.symm
  obtain ⟨-, -, htwo, -⟩ := sweep_alone (H := Grace.byName) _ [⟨numbered 100, 1800001⟩] hanswer rfl hb
    (fun d hd => by rw [List.mem_singleton.mp hd]; exact hfree) (List.nodup_singleton _)
  rw [twoSweeps, completed_append, hone, hrun, htwo]

theorem within_twoSweeps : ∀ e ∈ twoSweeps, within 1800001 1800001 e = true := by
  intro e he
  simp only [twoSweeps, sweeping, List.mem_append, List.mem_cons, List.mem_map, List.not_mem_nil,
    or_false] at he
  rcases he with ((rfl | ⟨d, -, rfl⟩) | rfl) | ((rfl | ⟨d, -, rfl⟩) | rfl) <;> rfl

theorem sweeps_release_twoSweeps :
    crowd.reservations.count (lapsed 1800001) = 101 ∧
      System.completed Grace.byName twoSweeps ⟨crowd, none⟩ = 2 ∧
      ∃ r, (System.run Grace.byName twoSweeps ⟨crowd, none⟩).store.reservations.find? (crowdKey 100) = some r ∧
        r.state ≠ .held := by
  have henough : crowd.reservations.count (lapsed 1800001) ≤
      100 * System.completed Grace.byName twoSweeps ⟨crowd, none⟩ := by
    rw [count_crowd, completed_twoSweeps]
    decide
  have hlast : (100 : ℕ) < 101 := by decide
  exact ⟨count_crowd, completed_twoSweeps, sweeps_release Grace.byName crowd twoSweeps (le_refl 1800001)
    within_twoSweeps henough (find_crowd hlast) (lapsed_crowdHold 100)⟩

end Afterglow.Core.Expiry
