import Afterglow.Httpapi.Fence
import Afterglow.Pipeline.Redelivery
import Afterglow.Sync.Circuit

/-! # What an outage costs

While nothing can be dispatched, every intent a `Tick` claims comes one attempt nearer to the recovery queue.
The breaker is what slows this down. In any stretch of a run of the server process, with requests, resets
and sweeps in between, the failures are three for each time the breaker was reset, three more, and one for
every two seconds (`failures_le`, by the potential of `Sync.Circuit`).

An intent dies of its fifth attempt, and a dispatch that succeeds gives back what its claim took, so every
five failures bury one intent at most (`Charged`). Together these bound what an outage can bury
(`outage_bounded`). -/

namespace Afterglow.Httpapi.Outage

open Afterglow.Sql.Rows Afterglow.Sql.Txn Afterglow.Core.Model Afterglow.Core.Statements Afterglow.Core.Store
open Afterglow.Core.Outcome Afterglow.Core.Run Afterglow.Localdemo.Reset
open Afterglow.Sync.Holders Afterglow.Sync.Circuit Afterglow.Httpapi.Demo Afterglow.Httpapi.Fence
open Afterglow.Core.Settlement (verdict_ne_accepted)
open Afterglow.Pipeline.Redelivery (Decided decided_of_processed processed)

/-! ### Failures and resets of the breaker -/

section Count

variable {n m : ℕ}

/-- The breaker of the worker. -/
def circuit (c : Controls) : Breaker := ⟨c.failures, c.openUntil⟩

/-- The step is a `markFailure` of a failed dispatch. -/
def fails (x : Server n m) : Event n m → ℕ
  | .thread k (.markFailure _) => match x.threads k with
    | .failing _ => 1
    | _ => 0
  | _ => 0

/-- The step is a `markSuccess`, of a dispatch or of a reset of the demo. -/
def closes (x : Server n m) : Event n m → ℕ
  | .thread k .markSuccess => if x.threads k = .succeeded then 1 else 0
  | .visit i .clear => match x.visits i with
    | .clearing _ .breaker => 1
    | _ => 0
  | _ => 0

/-- What a run comes to. -/
def tally (H : Digest) (sha256 : String → String) (f : Server n m → Event n m → ℕ) :
    List (Event n m) → Server n m → ℕ
  | [], _ => 0
  | e :: es, x => f x e + tally H sha256 f es (x.step H sha256 e)

/-- The clock a step reads of the two the breaker is about. -/
def clock : Event n m → Option Int
  | .thread _ (.look now) => some now
  | .thread _ (.markFailure now) => some now
  | _ => none

/-- The clock does not go back, from `t₀` to `t₁`. -/
def Clocked (t₀ t₁ : Int) (es : List (Event n m)) : Prop := (t₀ :: (es.filterMap clock ++ [t₁])).Pairwise (· ≤ ·)

instance (t₀ t₁ : Int) (es : List (Event n m)) : Decidable (Clocked t₀ t₁ es) :=
  inferInstanceAs (Decidable (List.Pairwise _ _))

theorem Clocked.le {t₀ t₁ : Int} {es : List (Event n m)} (h : Clocked t₀ t₁ es) : t₀ ≤ t₁ :=
  (List.pairwise_cons.mp h).1 t₁ (List.mem_append_right _ List.mem_cons_self)

theorem Clocked.none {t₀ t₁ : Int} {e : Event n m} {es : List (Event n m)} (h : Clocked t₀ t₁ (e :: es))
    (he : clock e = none) : Clocked t₀ t₁ es := by
  unfold Clocked at h
  rw [List.filterMap_cons_none he] at h
  exact h

theorem Clocked.some {t₀ t₁ now : Int} {e : Event n m} {es : List (Event n m)} (h : Clocked t₀ t₁ (e :: es))
    (he : clock e = some now) : t₀ ≤ now ∧ Clocked now t₁ es := by
  unfold Clocked at h
  rw [List.filterMap_cons_some he] at h
  obtain ⟨hle, hrest⟩ := List.pairwise_cons.mp h
  exact ⟨hle now List.mem_cons_self, hrest⟩

end Count

/-! ### The breaker over a run -/

/-- The thread has found the breaker closed, and has not yet told how its dispatch went. -/
def passed : Thread → Bool
  | .idle => false
  | .ticking => false
  | .failed _ => false
  | .sweeping => false
  | _ => true

/-- What is known of the breaker when the clock was last read at `t`. -/
structure Timed {n m : ℕ} (t : Int) (x : Server n m) : Prop where
  timed : (circuit x.controls).Timed 2000 t
  closed : ∀ k, passed (x.threads k) = true → (circuit x.controls).Closed t

/-- The failures that fit between `t` and `t₁`. -/
def allowed {n m : ℕ} (t₁ t : Int) (x : Server n m) : Int := (circuit x.controls).allowance 3 2000 t₁ t

theorem circuit_markFailure (c : Controls) (now : Int) :
    circuit (c.markFailure now) = (circuit c).fail 3 2000 now := by
  unfold circuit Controls.markFailure Breaker.fail
  split_ifs <;> rfl

section Breaker

variable {n m : ℕ} {H : Digest} {sha256 : String → String} {t t₁ now : Int} {x y : Server n m} {e : Event n m}

/-- Who holds `operation` is alone at work. -/
theorem others_idle {k : Fin m} (hx : Fenced x) (hk : x.threads k ≠ .idle) :
    ∀ l, l ≠ k → x.threads l = .idle := by
  have hop : ∀ t : Thread, t.operation = none ↔ t = .idle := fun t => by cases t <;> simp [Thread.operation]
  have hwrite : (x.threads k).operation = some .write :=
    (Thread.operation_cases _).resolve_left fun hno => hk ((hop _).mp hno)
  intro l hlk
  exact (hop _).mp (hx.operation.alone (i := .inr k) (j := .inr l) hwrite fun he => hlk (Sum.inr.inj he))

/-- What a step that leaves the clock at `now` has to show. -/
def Pays (t₁ t now : Int) (x : Server n m) (e : Event n m) (y : Server n m) : Prop :=
  Timed now y ∧ (fails x e : Int) + allowed t₁ now y ≤ allowed t₁ t x + 3 * (closes x e : Int)

theorem Timed.mono (h : Timed t x) (ht : t ≤ now) : Timed now x :=
  ⟨h.timed.mono ht, fun k hk => (h.closed k hk).mono ht⟩

/-- A step that is not about the breaker. -/
theorem Timed.steady (h : Timed t x) (hnow : t ≤ now) (hc : circuit y.controls = circuit x.controls)
    (hp : ∀ k, passed (y.threads k) = true → passed (x.threads k) = true) (hf : fails x e = 0) :
    Pays t₁ t now x e y := by
  refine ⟨⟨?_, fun k hk => ?_⟩, ?_⟩
  · rw [hc]
    exact h.timed.mono hnow
  · rw [hc]
    exact (h.closed k (hp k hk)).mono hnow
  · have hanti := allowance_anti (circuit x.controls) 3 t₁ (show (0 : Int) < 2000 by decide) hnow
    unfold allowed
    rw [hc, hf]
    omega

theorem passed_thread {k : Fin m} {u : Thread} (hu : passed u = true → passed (x.threads k) = true) :
    ∀ l, passed ((x.thread k u).threads l) = true → passed (x.threads l) = true := by
  intro l hl
  by_cases hlk : l = k
  · subst hlk
    rw [Server.thread_self] at hl
    exact hu hl
  · rwa [Server.thread_of_ne _ hlk] at hl

/-- The breaker is closed again. -/
theorem Timed.reset (h : Timed t x) (hc : circuit y.controls = .reset) (hf : fails x e = 0)
    (hcl : closes x e = 1) : Pays t₁ t t x e y := by
  refine ⟨⟨hc ▸ timed_reset _ t, fun _ _ => hc ▸ closed_reset t⟩, ?_⟩
  have hback := allowance_reset t₁ (by decide) (show 0 < 3 by decide) h.timed
  unfold allowed
  rw [hc, hf, hcl]
  omega

theorem failing_of_fails {k : Fin m} {a : ThreadStep} (h : fails x (.thread k a) ≠ 0) :
    ∃ j now, x.threads k = .failing j ∧ a = .markFailure now := by
  cases a with
  | markFailure now =>
    have h' : (match x.threads k with | .failing _ => 1 | _ => 0) ≠ 0 := h
    split at h'
    · next j hj => exact ⟨j, now, hj, rfl⟩
    · exact absurd rfl h'
  | _ => exact absurd rfl h

theorem step_visit (h : Timed t x) (i : Fin n) (a : VisitStep) :
    Pays t₁ t t x (.visit i a) (x.stepVisit H sha256 i a) := by
  have hf : fails x (.visit i a) = 0 := rfl
  have hsteady : ∀ y : Server n m, circuit y.controls = circuit x.controls → y.threads = x.threads →
      Pays t₁ t t x (.visit i a) y :=
    fun y hc hth => h.steady le_rfl hc (fun k hk => hth ▸ hk) hf
  unfold Server.stepVisit
  split
  · exact hsteady _ rfl rfl
  · exact hsteady _ rfl rfl
  · split_ifs <;> exact hsteady _ rfl rfl
  · split_ifs <;> exact hsteady _ rfl rfl
  · next f _ => split_ifs <;> cases f <;> exact hsteady _ rfl rfl
  · split_ifs <;> exact hsteady _ rfl rfl
  · next r g fault _ =>
    split_ifs
    · exact hsteady _ rfl rfl
    · rcases execReset g fault x.db with ⟨_ | _, _⟩ <;> exact hsteady _ rfl rfl
  · exact hsteady _ rfl rfl
  · next g next hv =>
    cases next with
    | breaker =>
      refine h.reset rfl hf ?_
      show (match x.visits i with | .clearing _ .breaker => 1 | _ => 0) = 1
      rw [hv]
    | _ => exact hsteady _ rfl rfl
  all_goals exact hsteady _ rfl rfl

/-- **A step of the worker.** -/
theorem step_thread (hx : Fenced x) (h : Timed t x) (k : Fin m) (a : ThreadStep)
    (hnow : t ≤ (clock (.thread k a : Event n m)).getD t) :
    Pays t₁ t ((clock (.thread k a : Event n m)).getD t) x (.thread k a) (x.stepThread H k a) := by
  have hmove : ∀ (now : Int) (y : Server n m) (u : Thread), t ≤ now → fails x (.thread k a) = 0 →
      circuit y.controls = circuit x.controls → y.threads = x.threads →
      (passed u = true → passed (x.threads k) = true) → Pays t₁ t now x (.thread k a) (y.thread k u) :=
    fun now y u ht hf hc hth hu => h.steady ht hc
      (fun l hl => hth ▸ passed_thread (fun hu' => hth.symm ▸ hu hu') l hl) hf
  have hact : ∀ (j : Job) (o : Op) (fault : Option ℕ) (ok bad : Thread), fails x (.thread k a) = 0 →
      passed (x.threads k) = true ∨ passed ok = false ∧ passed bad = false →
      Pays t₁ t t x (.thread k a) (x.act H k j o fault ok bad) := by
    intro j o fault ok bad hf hp
    unfold Server.act
    have hboth : (passed ok = true → passed (x.threads k) = true) ∧
        (passed bad = true → passed (x.threads k) = true) := by
      rcases hp with hp | ⟨hok, hbad⟩
      · exact ⟨fun _ => hp, fun _ => hp⟩
      · exact ⟨fun hu => absurd (hok.symm.trans hu) Bool.false_ne_true,
          fun hu => absurd (hbad.symm.trans hu) Bool.false_ne_true⟩
    cases (o.exec H fault x.db.core).1 with
    | ok a => exact hmove t _ ok le_rfl hf rfl rfl hboth.1
    | error e => exact hmove t _ bad le_rfl hf rfl rfl hboth.2
  unfold Server.stepThread
  split
  · split_ifs
    · exact hmove t x _ le_rfl rfl rfl rfl (fun hu => absurd hu Bool.false_ne_true)
    · exact h.steady le_rfl rfl (fun _ hl => hl) rfl
  · split_ifs
    · exact hmove t x _ le_rfl rfl rfl rfl (fun hu => absurd hu Bool.false_ne_true)
    · exact h.steady le_rfl rfl (fun _ hl => hl) rfl
  · next now _ =>
    split_ifs with hoff
    · exact hmove now x _ hnow rfl rfl rfl (fun hu => absurd hu Bool.false_ne_true)
    · -- the breaker is closed at `now`, for this thread too
      have hsteady : Pays t₁ t now x (.thread k (.look now)) x := h.steady hnow rfl (fun _ hl => hl) rfl
      refine ⟨⟨h.timed.mono hnow, fun _ _ u hu => ?_⟩, hsteady.2⟩
      have hopen : x.controls.openUntil.any (fun u => decide (now < u)) = false :=
        (Bool.or_eq_false_iff.mp (Bool.eq_false_iff.mpr hoff)).2
      have hu' : x.controls.openUntil = some u := hu
      rw [hu'] at hopen
      have hle : u ≤ now := by simpa using hopen
      exact hle
  · next now owner fault ht =>
    have hp : passed (x.threads k) = true := by rw [ht]; rfl
    simp only
    split
    · exact hmove t _ _ le_rfl rfl rfl rfl (fun _ => hp)
    · exact hmove t _ _ le_rfl rfl rfl rfl (fun _ => hp)
  · next j ok ht =>
    have hp : passed (x.threads k) = true := by rw [ht]; rfl
    split_ifs
    · exact hmove t _ _ le_rfl rfl rfl rfl (fun _ => hp)
    · exact hmove t _ _ le_rfl rfl rfl rfl (fun _ => hp)
    · exact h.steady le_rfl rfl (fun _ hl => hl) rfl
  · next j fault ht => exact hact j _ fault _ _ rfl (Or.inl (by rw [ht]; rfl))
  · next j ht =>
    have hp : passed (x.threads k) = true := by rw [ht]; rfl
    split_ifs
    · exact h.steady le_rfl rfl (fun _ hl => hl) rfl
    · exact hmove t _ _ le_rfl rfl rfl rfl (fun _ => hp)
    · exact hmove t _ _ le_rfl rfl rfl rfl (fun _ => hp)
  · next j d fault ht => exact hact j _ fault _ _ rfl (Or.inl (by rw [ht]; rfl))
  · next j ht =>
    have hp : passed (x.threads k) = true := by rw [ht]; rfl
    split_ifs
    · exact hmove t _ _ le_rfl rfl rfl rfl (fun _ => hp)
    · exact hmove t _ _ le_rfl rfl rfl rfl (fun _ => hp)
  · next j fault ht => exact hact j _ fault _ _ rfl (Or.inl (by rw [ht]; rfl))
  · next ht =>
    refine h.reset rfl rfl ?_
    show (if x.threads k = .succeeded then 1 else 0) = 1
    rw [if_pos ht]
  · next j now ht =>
    -- who fails holds `operation`: no other thread has found the breaker closed
    have hp : passed (x.threads k) = true := by rw [ht]; rfl
    have hclosed : (circuit x.controls).Closed now := (h.closed k hp).mono hnow
    have hfail : circuit (x.controls.markFailure now) = (circuit x.controls).fail 3 2000 now :=
      circuit_markFailure x.controls now
    refine ⟨⟨hfail ▸ timed_fail (by decide) hclosed, fun l hl => ?_⟩, ?_⟩
    · exfalso
      by_cases hlk : l = k
      · subst hlk
        rw [Server.thread_self] at hl
        cases hl
      · rw [Server.thread_of_ne _ hlk, others_idle hx (by rw [ht]; simp) l hlk] at hl
        cases hl
    · have hone := allowance_fail 3 t₁ (show (0 : Int) < 2000 by decide) hclosed
      have hanti := allowance_anti (circuit x.controls) 3 t₁ (show (0 : Int) < 2000 by decide) hnow
      have hf : fails x (.thread k (.markFailure now)) = 1 := by
        show (match x.threads k with | .failing _ => 1 | _ => 0) = 1
        rw [ht]
      show (fails x (.thread k (.markFailure now)) : Int) +
        (circuit (x.controls.markFailure now)).allowance 3 2000 t₁ now ≤ _
      unfold allowed
      rw [hfail, hf]
      have hanti' : (circuit x.controls).allowance 3 2000 t₁ now ≤
          (circuit x.controls).allowance 3 2000 t₁ t := hanti
      push_cast
      omega
  · next j next d fault ht => exact hact j _ fault _ _ rfl (Or.inr ⟨rfl, rfl⟩)
  · exact h.steady le_rfl rfl (fun _ hl => hl) rfl
  · exact hmove t _ _ le_rfl rfl rfl rfl (fun hu => absurd hu Bool.false_ne_true)
  · next hno _ _ _ =>
    refine h.steady hnow rfl (fun _ hl => hl) ?_
    by_contra hne
    obtain ⟨j, now, hj, ha⟩ := failing_of_fails hne
    exact hno j now hj ha

theorem step_pays (hx : Fenced x) (h : Timed t x) (e : Event n m) (hnow : t ≤ (clock e).getD t) :
    Pays t₁ t ((clock e).getD t) x e (x.step H sha256 e) := by
  cases e with
  | visit i a => exact step_visit h i a
  | thread k a => exact step_thread hx h k a hnow

/-- **The failures of a run.** -/
theorem run_pays : ∀ (es : List (Event n m)) {t : Int} {x : Server n m}, Fenced x → Timed t x → Clocked t t₁ es →
    Timed t₁ (x.run H sha256 es) ∧ (tally H sha256 fails es x : Int) ≤
      allowed t₁ t x + 3 * (tally H sha256 closes es x : Int)
  | [], t, x, _, h, hc => by
    refine ⟨h.mono hc.le, ?_⟩
    have hlow := (allowance_bounds t₁ (by decide) (show 0 < 3 by decide) h.timed).1
    have hpos : 0 ≤ (t₁ - t) / 2000 := Int.ediv_nonneg (sub_nonneg.mpr hc.le) (by decide)
    show (0 : Int) ≤ (circuit x.controls).allowance 3 2000 t₁ t + 3 * 0
    omega
  | e :: es, t, x, hx, h, hc => by
    have hnow : t ≤ (clock e).getD t ∧ Clocked ((clock e).getD t) t₁ es := by
      cases he : clock e with
      | none => exact ⟨le_rfl, hc.none he⟩
      | some now => exact hc.some he
    have hpays : Pays t₁ t ((clock e).getD t) x e (x.step H sha256 e) := step_pays hx h e hnow.1
    obtain ⟨hstep, hpay⟩ := hpays
    obtain ⟨hend, hrest⟩ := run_pays es (hx.step e) hstep hnow.2
    refine ⟨hend, ?_⟩
    show ((fails x e + tally H sha256 fails es (x.step H sha256 e) : ℕ) : Int) ≤
      allowed t₁ t x + 3 * ((closes x e + tally H sha256 closes es (x.step H sha256 e) : ℕ) : Int)
    push_cast
    omega

end Breaker

/-! ### The attempts of the queue -/

/-- The attempts an intent has used up, five at most. -/
def toll (o : OutboxRow) : ℕ :=
  if o.state = .dead then 5 else if o.state = .pending ∨ o.state = .leased then min o.attempts 5 else 0

def used (s : Store) : ℕ := s.outbox.sum toll

/-- The job holds the lease of its intent, which is `o`. -/
def Held (s : Store) (j : Job) (o : OutboxRow) : Prop :=
  s.outbox.find? (j.tenant, j.id) = some o ∧ Job.holds j o

/-- What a transaction of a request leaves of a lease: the lease with what is decided, or an intent with no
attempt used up. -/
structure Spared (s s' : Store) : Prop where
  less : used s' ≤ used s
  held : ∀ j o, Held s' j o →
    Held s j o ∧ (Decided s (j.tenant, j.id) → Decided s' (j.tenant, j.id))
  lost : ∀ j o, 1 ≤ o.attempts → Held s j o → Held s' j o ∨ used s' + 1 ≤ used s

section Spared

variable {H : Digest} {s s' : Store}

/-- The queue stays as it is, and what is decided too. -/
theorem Spared.of_outbox (hout : s'.outbox = s.outbox)
    (hdec : ∀ k, s.outbox.find? k ≠ none → Decided s k → Decided s' k) : Spared s s' := by
  have hheld : ∀ j o, Held s' j o ↔ Held s j o := fun j o => by rw [Held, Held, hout]
  refine ⟨(congrArg (fun t => Table.sum t toll) hout).le, fun j o h => ?_,
    fun j o _ h => Or.inl ((hheld j o).mpr h)⟩
  have h' := (hheld j o).mp h
  exact ⟨h', hdec _ (by rw [h'.1]; exact Option.some_ne_none o)⟩

theorem Spared.refl (s : Store) : Spared s s := .of_outbox rfl fun _ _ h => h

/-- The intent `o` becomes `r`, which nobody holds and which has used up nothing. -/
theorem Spared.of_put {o r : OutboxRow} (hout : s'.outbox = s.outbox.put r) (hpk : r.pk = o.pk)
    (ho : s.outbox.find? o.pk = some o) (hfree : r.state ≠ .leased) (hzero : toll r = 0)
    (hdec : ∀ k, k ≠ o.pk → Decided s k → Decided s' k) : Spared s s' := by
  have hsum : used s' + toll o = used s := by
    have h := Table.sum_put_old (f := toll) (t := s.outbox) (r := r) (x := o) (by rw [hpk]; exact ho)
    rw [used, hout, h, hzero]
    rfl
  have hfind : ∀ k, k ≠ o.pk → s'.outbox.find? k = s.outbox.find? k := fun k hk => by
    rw [hout, Table.find?_put_ne (by rw [hpk]; exact hk.symm)]
  refine ⟨by omega, fun j x hx => ?_, fun j x hx hheld => ?_⟩
  · have hk : (j.tenant, j.id) ≠ o.pk := by
      intro hk
      have hself : s'.outbox.find? (j.tenant, j.id) = some r := by
        rw [hout, hk, ← hpk]
        exact Table.find?_put_self _ _
      have hxo : x = r := Option.some.inj (hx.1.symm.trans hself)
      exact hfree (hxo ▸ hx.2.2)
    exact ⟨⟨(hfind _ hk) ▸ hx.1, hx.2⟩, hdec _ hk⟩
  · by_cases hk : (j.tenant, j.id) = o.pk
    · have hxo : x = o := Option.some.inj (hheld.1.symm.trans (hk ▸ ho))
      have hpos : 1 ≤ toll o := by
        rw [← hxo, toll, if_neg (by rw [hheld.2.2]; exact fun h => by cases h), if_pos (Or.inr hheld.2.2)]
        omega
      exact Or.inr (by omega)
    · exact Or.inl ⟨(hfind _ hk).trans hheld.1, hheld.2⟩

theorem decided_put {k : Key2} (h : Decided s k) {dl : DeliveryRow} (hk : dl.pk ≠ k)
    (hs : s'.deliveries = s.deliveries.put dl) : Decided s' k := by
  obtain ⟨x, hx, hst⟩ := h
  exact ⟨x, by rw [hs, Table.find?_put_ne hk]; exact hx, hst⟩

/-- `Reserve`. -/
theorem spared_reserve {tenant key : String} {inp : ReservationInput} {d : ReserveDraw}
    (h : Change H s (.reserve tenant key inp d) s') : Spared s s' := by
  cases h with
  | same => exact Spared.refl s
  | held => exact .of_outbox rfl fun _ _ h => h

/-- `Accept`: a new intent has used up nothing. -/
theorem spared_accept {tenant : String} {r : Receipt} {d : AcceptDraw}
    (h : Change H s (.accept tenant r d) s') : Spared s s' := by
  cases h with
  | same => exact Spared.refl s
  | accepted hv hk hf =>
    set o' : OutboxRow := ⟨tenant, d.id, .pending, "", 0, 0, 0⟩ with ho'
    have hnone : s.outbox.find? o'.pk = none := hf.outbox
    have hfind : ∀ k, k ≠ o'.pk → (s.outbox.put o').find? k = s.outbox.find? k :=
      fun k hk => Table.find?_put_ne hk.symm
    refine ⟨?_, fun j x hx => ?_, fun j x _ hx => Or.inl ⟨?_, hx.2⟩⟩
    · exact (Table.sum_put_new (f := toll) hnone).le
    · have hkey : (j.tenant, j.id) ≠ o'.pk := by
        intro hkey
        have hself : (s.outbox.put o').find? (j.tenant, j.id) = some o' := by
          rw [hkey]
          exact Table.find?_put_self _ _
        have hxo : x = o' := Option.some.inj (hx.1.symm.trans hself)
        have hleased := hx.2.2
        rw [hxo] at hleased
        cases hleased
      refine ⟨⟨(hfind _ hkey) ▸ hx.1, hx.2⟩, fun hdec => decided_put hdec (fun he => ?_) rfl⟩
      exact hkey he.symm
    · have hkey : (j.tenant, j.id) ≠ o'.pk := by
        intro hkey
        have hx' := hx.1
        rw [hkey, hnone] at hx'
        cases hx'
      exact (hfind _ hkey).trans hx.1

/-- `Replay`: the intent starts again. -/
theorem spared_replay {tenant id : String} {d : Stamp} (h : Change H s (.replay tenant id d) s') :
    Spared s s' := by
  cases h with
  | same => exact Spared.refl s
  | reopened dl hd hs ha =>
    have hdlk : dl.pk = (tenant, id) := Table.find?_key hd
    cases ho : s.outbox.find? (tenant, id) with
    | none =>
      refine .of_outbox (Table.modify_of_none _ ho) fun k hk hdec => decided_put hdec (fun he => hk ?_) rfl
      exact (he.symm.trans hdlk) ▸ ho
    | some o =>
      have hpk : o.pk = (tenant, id) := Table.find?_key ho
      refine .of_put (o := o) (r := requeuedRow o) (Table.modify_of_find? _ ho) rfl (hpk.symm ▸ ho)
        (fun h => by cases h) ?_ fun k hk hdec => decided_put hdec (fun he => hk ?_) rfl
      · simp [toll, requeuedRow]
      · exact he.symm.trans (hdlk.trans hpk.symm)

/-- `Process`, and the release of a hold, which are not about the queue. -/
theorem spared_process {tenant id : String} {d : ProcessDraw} (h : Change H s (.process tenant id d) s') :
    Spared s s' := by
  cases h with
  | same => exact Spared.refl s
  | seen dl hd hs => exact .of_outbox rfl fun _ _ h => h.put { dl with attempts := dl.attempts + 1 } rfl hs
  | decided dl status reason hd hs hv =>
    exact .of_outbox rfl fun _ _ h => h.put (decidedRow dl status reason) rfl (verdict_ne_accepted hv)
  | settled dl p r hd hs hp hv =>
    exact .of_outbox rfl fun _ _ h => h.put (decidedRow dl .settled .matched) rfl (by simp [decidedRow])

theorem spared_release {tenant id : String} {now : Int} {d : Stamp}
    (h : Change H s (.release tenant id now d) s') : Spared s s' := by
  cases h with
  | same => exact Spared.refl s
  | released => exact .of_outbox rfl fun _ _ h => h

end Spared

/-! ### The worker at work -/

/-- The job of a dispatch of which the breaker has not heard. -/
def undecided : Thread → Option Job
  | .claimed j => some j
  | .published j => some j
  | .consuming j => some j
  | .processed j => some j
  | .acking j => some j
  | .failing j => some j
  | _ => none

theorem job_of_undecided {u : Thread} {j : Job} (h : undecided u = some j) : u.job = some j := by
  cases u <;> first | exact h | cases h

/-- The queue has used up `B` attempts, and one more where the worker is at `u` with a lease. -/
structure Local (B : ℕ) (s : Store) (u : Thread) : Prop where
  held : ∀ j o, u.job = some j → Held s j o → o.attempts = j.attempts ∧ 1 ≤ j.attempts
  decided : ∀ j o, u = .processed j ∨ u = .acking j → Held s j o → Decided s (j.tenant, j.id)
  bound : used s ≤ B ∨ used s ≤ B + 1 ∧ ∃ j o, undecided u = some j ∧ Held s j o

namespace Local

variable {B : ℕ} {s s' : Store} {u : Thread} {j : Job}

/-- The worker has no job. -/
theorem jobless (hu : u.job = none) (h : used s ≤ B) : Local B s u := by
  refine ⟨fun j o hj => ?_, fun j o hj => ?_, Or.inl h⟩
  · rw [hu] at hj
    cases hj
  · rcases hj with rfl | rfl <;> cases hu

theorem mono (h : Local B s u) {B' : ℕ} (hB : B ≤ B') : Local B' s u :=
  ⟨h.held, h.decided, h.bound.imp (fun hb => hb.trans hB) fun hb => ⟨hb.1.trans (by omega), hb.2⟩⟩

/-- Without a job in doubt the account is closed. -/
theorem closed (h : Local B s u) (hu : undecided u = none) : used s ≤ B := by
  rcases h.bound with hb | ⟨-, j, o, hj, -⟩
  · exact hb
  · rw [hu] at hj
    cases hj

theorem spared (h : Local B s u) (hs : Spared s s') : Local B s' u := by
  refine ⟨fun j o hj ho => h.held j o hj (hs.held j o ho).1, fun j o hu ho => ?_, ?_⟩
  · obtain ⟨ho', hdec⟩ := hs.held j o ho
    exact hdec (h.decided j o hu ho')
  · have hless := hs.less
    rcases h.bound with hb | ⟨hb, j, o, hj, ho⟩
    · exact Or.inl (hless.trans hb)
    · obtain ⟨hatt, hone⟩ := h.held j o (job_of_undecided hj) ho
      rcases hs.lost j o (by omega) ho with ho' | hlost
      · exact Or.inr ⟨hless.trans hb, j, o, hj, ho'⟩
      · exact Or.inl (by omega)

/-- The worker goes on with its job. -/
theorem go (h : Local B s u) {v : Thread} (hu : undecided u = some j) (hv : undecided v = some j)
    (hdec : ∀ j o, v = .processed j ∨ v = .acking j → Held s j o → Decided s (j.tenant, j.id)) :
    Local B s v := by
  have hju := job_of_undecided hu
  have hjv := job_of_undecided hv
  refine ⟨fun j' o hj' => h.held j' o (hju.trans (hjv.symm.trans hj')), hdec, h.bound.imp_right ?_⟩
  rintro ⟨hb, j', o, hj', ho⟩
  exact ⟨hb, j', o, hv.trans (hu.symm.trans hj'), ho⟩

/-- The worker gives back what its claim took, or has nothing to give back. -/
theorem settled (h : Local B s u) (hu : undecided u = some j) (hs : used s' ≤ used s)
    (hback : ∀ o, Held s j o → used s' + 1 ≤ used s) : used s' ≤ B := by
  rcases h.bound with hb | ⟨hb, j', o, hj', ho⟩
  · exact hs.trans hb
  · cases hu.symm.trans hj'
    have hless := hback o ho
    omega

end Local

/-- **The invariant**: at most one thread is at work, and the account is that of its place. -/
def Charged {n m : ℕ} (B : ℕ) (x : Server n m) : Prop :=
  ∃ u, Local B x.db.core u ∧ (∀ k, x.threads k = .idle ∨ x.threads k = u) ∧
    (u = .idle ∨ ∃ k, x.threads k = u)

section Charged

variable {n m : ℕ} {H : Digest} {sha256 : String → String} {B : ℕ} {x y : Server n m} {k : Fin m}

theorem Charged.at (h : Charged B x) (hk : x.threads k ≠ .idle) : Local B x.db.core (x.threads k) := by
  obtain ⟨u, hu, hall, -⟩ := h
  rw [(hall k).resolve_left hk]
  exact hu

theorem Charged.idle (h : Charged B x) (hall : ∀ k, x.threads k = .idle) : used x.db.core ≤ B := by
  obtain ⟨u, hu, -, rfl | ⟨k, hk⟩⟩ := h
  · exact hu.closed rfl
  · rw [hall k] at hk
    subst hk
    exact hu.closed rfl

/-- Only thread `k` is at work, and it is at `u`. -/
theorem Charged.of_thread (hall : ∀ l, l ≠ k → x.threads l = .idle) {u : Thread} (hu : Local B x.db.core u) :
    Charged B (x.thread k u) := by
  refine ⟨u, hu, fun l => ?_, Or.inr ⟨k, Server.thread_self x k u⟩⟩
  by_cases hlk : l = k
  · subst hlk
    exact Or.inr (Server.thread_self x l u)
  · rw [Server.thread_of_ne _ hlk]
    exact Or.inl (hall l hlk)

theorem Charged.mono (h : Charged B x) {B' : ℕ} (hB : B ≤ B') : Charged B' x := by
  obtain ⟨u, hu, hrest⟩ := h
  exact ⟨u, hu.mono hB, hrest⟩

/-- A transaction of a request. -/
theorem Charged.spared (h : Charged B x) (hs : Spared x.db.core y.db.core) (hth : y.threads = x.threads) :
    Charged B y := by
  obtain ⟨u, hu, hall, hone⟩ := h
  exact ⟨u, hu.spared hs, fun k => hth ▸ hall k, hone.imp_right fun ⟨k, hk⟩ => ⟨k, hth ▸ hk⟩⟩

/-! ### One transaction of a dispatch -/

/-- Where the thread goes on after a transaction. -/
def next {α : Type} (ok bad : Thread) (x : Except Err α × Store) : Thread :=
  match x.1 with
  | .ok _ => ok
  | .error _ => bad

section Transactions

variable {s : Store} {j : Job}

theorem used_put {o r : OutboxRow} (hpk : r.pk = o.pk) (ho : s.outbox.find? o.pk = some o) :
    used { s with outbox := s.outbox.put r } + toll o = used s + toll r :=
  Table.sum_put_old (f := toll) (by rw [hpk]; exact ho)

theorem Held.pk {o : OutboxRow} (h : Held s j o) : o.pk = (j.tenant, j.id) := Table.find?_key h.1

theorem toll_held {o : OutboxRow} (h : Job.holds j o) : toll o = min o.attempts 5 := by
  rw [toll, if_neg (by rw [h.2]; exact fun h => by cases h), if_pos (Or.inr h.2)]

theorem local_claim (h : used s ≤ B) (now : Int) (owner : String) (fault : Option ℕ) :
    let r : Except Err (Option Job) × Store := (Op.claim false now owner).exec H fault s
    (∀ j, r.1 = .ok (some j) → Local B r.2 (.claimed j)) ∧ ((∀ j, r.1 ≠ .ok (some j)) → used r.2 ≤ B) := by
  intro r
  rcases (Op.claim false now owner).exec_cases H fault s with hr | hr
  · have hout : ClaimOut false now owner s r := by
      show ClaimOut false now owner s ((Op.claim false now owner).exec H fault s)
      rw [hr]
      exact claim_out false now owner s
    clear_value r
    cases hout with
    | refused e => exact ⟨fun j hj => (by cases hj), fun _ => h⟩
    | idle => exact ⟨fun j hj => (by cases hj), fun _ => h⟩
    | claimed o trace ho =>
      obtain ⟨hfind, hdue⟩ := claimable_mem ho
      refine ⟨fun j hj => ?_, fun hno => absurd rfl (hno _)⟩
      cases hj
      have hsum := used_put (s := s) (o := o) (r := leasedRow o owner now) rfl hfind
      have hleased : Held { s with outbox := s.outbox.put (leasedRow o owner now) }
          ⟨o.tenant, o.id, owner, o.attempts + 1, trace⟩ (leasedRow o owner now) :=
        ⟨Table.find?_put_self _ _, rfl, rfl⟩
      refine ⟨fun j' o' hj' ho' => ?_, fun j' o' hj' => (by rcases hj' with hj' | hj' <;> cases hj'),
        Or.inr ⟨?_, ?_⟩⟩
      · cases hj'
        cases hleased.1.symm.trans ho'.1
        exact ⟨rfl, Nat.succ_pos _⟩
      · rw [toll_held hleased.2] at hsum
        have hopen : toll o = min o.attempts 5 := by
          simp only [OutboxRow.due, Bool.and_eq_true, Bool.or_eq_true, beq_iff_eq] at hdue
          have hst := hdue.1.1
          rw [toll, if_neg (by rcases hst with hst | hst <;> rw [hst] <;> exact fun h => by cases h), if_pos hst]
        have hatt : (leasedRow o owner now).attempts = o.attempts + 1 := rfl
        rw [hatt] at hsum
        dsimp only at hsum ⊢
        omega
      · exact ⟨_, _, rfl, hleased⟩
  · have hr' : r = (.error (.storage .fault), s) := hr
    rw [hr']
    exact ⟨fun j hj => (by cases hj), fun _ => h⟩

/-- A transaction that fails leaves the job to be reported. -/
theorem Local.failed {u : Thread} (h : Local B s u) (hu : undecided u = some j) : Local B s (.failing j) :=
  h.go hu rfl fun _ _ hv => by rcases hv with hv | hv <;> cases hv

theorem local_dispatched (h : Local B s (.published j)) (fault : Option ℕ) :
    let r : Except Err Unit × Store := (Op.dispatched j).exec H fault s
    Local B r.2 (next .succeeded (.failing j) r) := by
  intro r
  rcases (Op.dispatched j).exec_cases H fault s with hr | hr
  · have hout : DispatchedOut j s r := by
      show DispatchedOut j s ((Op.dispatched j).exec H fault s)
      rw [hr]
      exact dispatched_out j s
    clear_value r
    cases hout with
    | idle hno =>
      exact .jobless rfl (h.settled rfl le_rfl fun o ho => absurd ho.2 (hno o ho.1))
    | marked o ho hj =>
      have hheld : Held s j o := ⟨ho, hj⟩
      have hsum := used_put (s := s) (o := o) (r := freedRow o .dispatched) rfl (hheld.pk ▸ ho)
      have hzero : toll (freedRow o .dispatched) = 0 := rfl
      rw [toll_held hj, hzero] at hsum
      refine .jobless rfl (h.settled rfl (by dsimp only at hsum ⊢; omega) fun o' ho' => ?_)
      obtain ⟨hatt, hone⟩ := h.held j o rfl hheld
      dsimp only at hsum ⊢
      omega
  · have hr' : r = (.error (.storage .fault), s) := hr
    rw [hr']
    exact h.failed rfl

theorem local_process (h : Local B s (.consuming j)) (d : ProcessDraw) (fault : Option ℕ) :
    let r : Except Err Status × Store := (Op.process j.tenant j.id d).exec H fault s
    Local B r.2 (next (.processed j) (.failing j) r) := by
  intro r
  have hspared : Spared s r.2 := spared_process ((Op.process j.tenant j.id d).change H fault s)
  have hafter : Local B r.2 (.consuming j) := h.spared hspared
  have hdec : r.1.isOk = true → Decided r.2 (j.tenant, j.id) := by
    intro hok
    have hproc : processed H s (j.tenant, j.id) ⟨.process j.tenant j.id d, fault⟩ = true := by
      simp only [processed, decide_true, Bool.true_and]
      exact hok
    exact decided_of_processed hproc
  clear_value r
  rcases r with ⟨_ | status, s'⟩
  · exact hafter.failed rfl
  · refine hafter.go rfl rfl fun j' o hv _ => ?_
    rcases hv with hv | hv
    · cases hv
      exact hdec rfl
    · cases hv

theorem local_complete (h : Local B s (.acking j)) (fault : Option ℕ) :
    let r : Except Err Unit × Store := (Op.complete j.tenant j.id).exec H fault s
    Local B r.2 (next .succeeded (.failing j) r) := by
  intro r
  rcases (Op.complete j.tenant j.id).exec_cases H fault s with hr | hr
  · have hout : CompleteOut j.tenant j.id s r := by
      show CompleteOut j.tenant j.id s ((Op.complete j.tenant j.id).exec H fault s)
      rw [hr]
      exact complete_out j.tenant j.id s
    clear_value r
    cases hout with
    | refused => exact h.failed rfl
    | idle dl hd hs =>
      -- a job that holds its lease is decided: the delivery was replayed
      refine .jobless rfl (h.settled rfl le_rfl fun o ho => ?_)
      obtain ⟨dl', hd', hs'⟩ := h.decided j o (Or.inr rfl) ho
      cases hd.symm.trans hd'
      exact absurd hs hs'
    | finished dl hd hs =>
      cases ho : s.outbox.find? (j.tenant, j.id) with
      | none =>
        have hsame : s.outbox.modify (j.tenant, j.id) (freedRow · .done) = s.outbox := Table.modify_of_none _ ho
        rw [hsame]
        refine .jobless rfl (h.settled rfl le_rfl fun o ho' => ?_)
        cases ho.symm.trans ho'.1
      | some o =>
        have hsame : s.outbox.modify (j.tenant, j.id) (freedRow · .done) = s.outbox.put (freedRow o .done) :=
          Table.modify_of_find? _ ho
        rw [hsame]
        have hsum := used_put (s := s) (o := o) (r := freedRow o .done) rfl (Table.find?_key ho ▸ ho)
        have hzero : toll (freedRow o .done) = 0 := rfl
        rw [hzero] at hsum
        refine .jobless rfl (h.settled rfl (by dsimp only at hsum ⊢; omega) fun o' ho' => ?_)
        cases ho.symm.trans ho'.1
        obtain ⟨hatt, hone⟩ := h.held j o rfl ho'
        rw [toll_held ho'.2] at hsum
        dsimp only at hsum ⊢
        omega
  · have hr' : r = (.error (.storage .fault), s) := hr
    rw [hr']
    exact h.failed rfl

/-- The fifth attempt is the last. -/
theorem local_failJob (h : Local B s (.failed j)) (next' : Int) (d : Stamp) (fault : Option ℕ) :
    used ((Op.failJob j next' d).exec H fault s).2 ≤ B := by
  have hB := h.closed rfl
  have hput : ∀ o, Held s j o → used { s with outbox := s.outbox.put (failedRow o j next') } ≤ used s := by
    intro o ho
    have hsum := used_put (s := s) (o := o) (r := failedRow o j next') rfl (ho.pk ▸ ho.1)
    obtain ⟨hatt, -⟩ := h.held j o rfl ho
    have hle : toll (failedRow o j next') ≤ toll o := by
      rw [toll_held ho.2, toll]
      show (if failState j = .dead then 5 else if failState j = .pending ∨ failState j = .leased then
        min o.attempts 5 else 0) ≤ _
      unfold failState
      split_ifs <;> simp_all
    omega
  rcases (Op.failJob j next' d).exec_cases H fault s with hr | hr
  · rw [hr]
    have hout := failJob_out j next' d s
    show used (core.atomic (failJob j next' d) s).2 ≤ B
    generalize core.atomic (failJob j next' d) s = r at hout ⊢
    cases hout with
    | refused => exact hB
    | idle => exact hB
    | retried o ho hj => exact (hput o ⟨ho, hj⟩).trans hB
    | died o ho hj => exact (hput o ⟨ho, hj⟩).trans hB
  · rw [hr]
    exact hB

end Transactions

/-! ### All steps -/

theorem charged_act (hx : Fenced x) (hk : x.threads k ≠ .idle) {j : Job} {o : Op} {fault : Option ℕ}
    {ok bad : Thread}
    (hout : Local B (o.exec H fault x.db.core).2 (next ok bad (o.exec H fault x.db.core))) :
    Charged B (x.act H k j o fault ok bad) := by
  have hothers := others_idle hx hk
  have hgo : ∀ (y : Server n m) (u : Thread), y.threads = x.threads → Local B y.db.core u →
      Charged B (y.thread k u) :=
    fun y u hth hu => .of_thread (hth ▸ hothers) hu
  unfold Outage.next at hout
  unfold Server.act
  generalize (o.exec H fault x.db.core).1 = answer at hout
  cases answer with
  | ok a => exact hgo _ ok rfl hout
  | error e => exact hgo _ bad rfl hout

theorem charged_visit (hx : Fenced x) (h : Charged B x) (i : Fin n) (a : VisitStep) :
    Charged B (x.stepVisit H sha256 i a) := by
  have hsame : ∀ y : Server n m, y.db.core = x.db.core → y.threads = x.threads → Charged B y :=
    fun y hdb hth => h.spared (hdb ▸ Spared.refl _) hth
  unfold Server.stepVisit
  split
  · exact hsame _ rfl rfl
  · exact hsame _ rfl rfl
  · split_ifs <;> exact hsame _ rfl rfl
  · split_ifs <;> exact hsame _ rfl rfl
  · next f _ =>
    split_ifs
    · cases f with
      | reserve tenant key inp d fault => exact h.spared (spared_reserve (Op.change H _ fault _)) rfl
      | accept tenant r d fault => exact h.spared (spared_accept (Op.change H _ fault _)) rfl
      | replay tenant id d fault => exact h.spared (spared_replay (Op.change H _ fault _)) rfl
      | _ => exact hsame _ rfl rfl
    · exact h
  · split_ifs <;> exact hsame _ rfl rfl
  · next r g fault hv =>
    split_ifs
    · exact hsame _ rfl rfl
    · -- a reset leaves no intent, and no thread is at work
      have hidle : ∀ k, x.threads k = .idle := by
        intro k
        have hop : (x.visits i).operation = some .write := by rw [hv]; rfl
        have hnone : (x.threads k).operation = none :=
          hx.operation.alone (i := .inl i) (j := .inr k) hop Sum.inr_ne_inl
        cases ht : x.threads k <;> first | rfl | (rw [ht] at hnone; cases hnone)
      have hout := execReset_out g fault x.db
      generalize execReset g fault x.db = out at hout ⊢
      cases hout with
      | refused e => exact hsame _ rfl rfl
      | done => exact ⟨.idle, .jobless rfl (Nat.zero_le _), fun k => Or.inl (hidle k), Or.inl rfl⟩
  · exact hsame _ rfl rfl
  · next g next' _ => cases next' <;> exact hsame _ rfl rfl
  all_goals exact hsame _ rfl rfl

/-- A thread that holds `operation` goes on. -/
theorem charged_go (hx : Fenced x) (hk : x.threads k ≠ .idle) {u : Thread} (hdb : y.db.core = x.db.core)
    (hth : y.threads = x.threads) (hu : Local B x.db.core u) : Charged B (y.thread k u) :=
  Charged.of_thread (hth ▸ others_idle hx hk) (hdb ▸ hu)

/-- **A step of the worker.** -/
theorem charged_thread (hx : Fenced x) (h : Charged B x) (k : Fin m) (a : ThreadStep) :
    Charged (B + fails x (.thread k a)) (x.stepThread H k a) := by
  have hat : ∀ u, x.threads k = u → u ≠ .idle → x.threads k ≠ .idle ∧ Local B x.db.core u := by
    rintro u rfl hu
    exact ⟨hu, h.at hu⟩
  have hstart : Grants x.operation .write → used x.db.core ≤ B ∧ ∀ l, x.threads l = .idle := by
    intro hgrant
    have hidle : ∀ l, x.threads l = .idle := by
      intro l
      have hnone : (x.threads l).operation = none := hgrant (.inr l)
      cases ht : x.threads l <;> first | rfl | (rw [ht] at hnone; cases hnone)
    exact ⟨h.idle hidle, hidle⟩
  unfold Server.stepThread
  split
  · split_ifs with hgrant
    · obtain ⟨hused, hidle⟩ := hstart hgrant
      exact .of_thread (fun l _ => hidle l) (.jobless rfl hused)
    · exact h
  · split_ifs with hgrant
    · obtain ⟨hused, hidle⟩ := hstart hgrant
      exact .of_thread (fun l _ => hidle l) (.jobless rfl hused)
    · exact h
  · next now ht =>
    obtain ⟨hk, hloc⟩ := hat _ ht (by simp)
    split_ifs <;> exact charged_go hx hk rfl rfl (.jobless rfl (hloc.closed rfl))
  · next now owner fault ht =>
    obtain ⟨hk, hloc⟩ := hat _ ht (by simp)
    have hothers := others_idle hx hk
    have hclaim := local_claim (H := H) (hloc.closed rfl) now owner fault
    have hgo : ∀ (y : Server n m) (u : Thread), y.threads = x.threads → Local B y.db.core u →
        Charged B (y.thread k u) :=
      fun y u hth hu => .of_thread (hth ▸ hothers) hu
    simp only
    split
    · next j hj => exact hgo _ _ rfl (hclaim.1 j hj)
    · next hno => exact hgo _ _ rfl (.jobless rfl (hclaim.2 hno))
  · next j ok ht =>
    obtain ⟨hk, hloc⟩ := hat _ ht (by simp)
    split_ifs
    · exact charged_go hx hk rfl rfl (hloc.go rfl rfl (by simp))
    · exact charged_go hx hk rfl rfl (hloc.failed rfl)
    · exact h
  · next j fault ht =>
    obtain ⟨hk, hloc⟩ := hat _ ht (by simp)
    exact charged_act hx hk (local_dispatched hloc fault)
  · next j ht =>
    obtain ⟨hk, hloc⟩ := hat _ ht (by simp)
    split_ifs
    · exact h
    · exact charged_go hx hk rfl rfl (hloc.failed rfl)
    · exact charged_go hx hk rfl rfl (hloc.go rfl rfl (by simp))
  · next j d fault ht =>
    obtain ⟨hk, hloc⟩ := hat _ ht (by simp)
    exact charged_act hx hk (local_process hloc d fault)
  · next j ht =>
    obtain ⟨hk, hloc⟩ := hat _ ht (by simp)
    split_ifs
    · exact charged_go hx hk rfl rfl (hloc.failed rfl)
    · refine charged_go hx hk rfl rfl (hloc.go rfl rfl fun j' o hv ho => hloc.decided j' o ?_ ho)
      simpa using hv
  · next j fault ht =>
    obtain ⟨hk, hloc⟩ := hat _ ht (by simp)
    exact charged_act hx hk (local_complete hloc fault)
  · next ht =>
    obtain ⟨hk, hloc⟩ := hat _ ht (by simp)
    exact charged_go hx hk rfl rfl (.jobless rfl (hloc.closed rfl))
  · next j now ht =>
    -- the failure pays for the attempt
    obtain ⟨hk, hloc⟩ := hat _ ht (by simp)
    have hf : fails x (.thread k (.markFailure now)) = 1 := by
      show (match x.threads k with | .failing _ => 1 | _ => 0) = 1
      rw [ht]
    rw [hf]
    refine charged_go hx hk rfl rfl ⟨fun j' o hj' => hloc.held j' o hj', fun j' o hv => ?_, Or.inl ?_⟩
    · rcases hv with hv | hv <;> cases hv
    · rcases hloc.bound with hb | ⟨hb, -⟩
      · exact hb.trans (Nat.le_succ B)
      · exact hb
  · next j next d fault ht =>
    obtain ⟨hk, hloc⟩ := hat _ ht (by simp)
    refine charged_act hx hk ?_
    have hused := local_failJob (H := H) hloc next d fault
    unfold Outage.next
    split <;> exact .jobless rfl hused
  · exact h.spared (spared_release (Op.change H _ _ _)) rfl
  · next ht =>
    obtain ⟨hk, hloc⟩ := hat _ ht (by simp)
    exact charged_go hx hk rfl rfl (.jobless rfl (hloc.closed rfl))
  · exact h.mono (Nat.le_add_right B _)

theorem charged_run : ∀ (es : List (Event n m)) {B : ℕ} {x : Server n m}, Fenced x → Charged B x →
    Charged (B + tally H sha256 fails es x) (x.run H sha256 es)
  | [], _, _, _, h => h
  | e :: es, B, x, hx, h => by
    have hstep : Charged (B + fails x e) (x.step H sha256 e) := by
      cases e with
      | visit i a => exact charged_visit hx h i a
      | thread k a => exact charged_thread hx h k a
    have hrest := charged_run es (hx.step e) hstep
    rw [Nat.add_assoc] at hrest
    exact hrest

end Charged

/-! ### What an outage buries -/

/-- The intents in the recovery queue. -/
def dead (s : Store) : ℕ := s.outbox.count fun o => decide (o.state = .dead)

theorem five_dead_le (o : OutboxRow) : 5 * (if decide (o.state = .dead) then 1 else 0) ≤ toll o := by
  unfold toll
  split_ifs <;> simp_all

theorem dead_eq_sum (s : Store) :
    5 * dead s = (s.outbox.rows.map fun o => 5 * (if decide (o.state = .dead) then 1 else 0)).sum :=
  (List.sum_map_mul_left ..).symm

/-- Every intent in the recovery queue has used up five attempts. -/
theorem dead_le_used (s : Store) : 5 * dead s ≤ used s := by
  rw [dead_eq_sum]
  exact List.sum_le_sum fun o _ => five_dead_le o

/-- The attempt of a lease is not one of these. -/
theorem dead_lt_used {s : Store} {j : Job} {o : OutboxRow} (ho : Held s j o) (hone : 1 ≤ o.attempts) :
    5 * dead s < used s := by
  rw [dead_eq_sum]
  refine List.sum_lt_sum _ _ (fun o _ => five_dead_le o) ⟨o, List.mem_of_find?_eq_some ho.1, ?_⟩
  rw [toll_held ho.2, if_neg (by rw [ho.2.2]; decide)]
  omega

theorem Charged.dead_le {n m : ℕ} {B : ℕ} {x : Server n m} (h : Charged B x) : 5 * dead x.db.core ≤ B := by
  obtain ⟨u, hu, -⟩ := h
  rcases hu.bound with hb | ⟨hb, j, o, hj, ho⟩
  · exact (dead_le_used _).trans hb
  · obtain ⟨hatt, hone⟩ := hu.held j o (job_of_undecided hj) ho
    have hlt := dead_lt_used ho (by omega)
    omega

/-- The account opens with what the queue has used up. -/
theorem Charged.afresh {n m : ℕ} {B : ℕ} {x : Server n m} (h : Charged B x) : Charged (used x.db.core) x := by
  obtain ⟨u, hu, hrest⟩ := h
  exact ⟨u, ⟨hu.held, hu.decided, Or.inl le_rfl⟩, hrest⟩

section Outage

variable {n m : ℕ} (H : Digest) (sha256 : String → String) (publisher : Bool) (db : Db) {controls : Controls}
  (id : String) (es₀ es : List (Event n m)) {s t₀ t₁ : Int}

theorem timed_start (hopen : controls.openUntil = none) (t : Int) :
    Timed t (Server.start publisher db controls id : Server n m) := by
  refine ⟨fun u hu => ?_, fun k hk => (by cases hk)⟩
  cases hopen.symm.trans hu

theorem charged_start (controls : Controls) :
    Charged (used db.core) (Server.start publisher db controls id : Server n m) :=
  ⟨.idle, .jobless rfl le_rfl, fun _ => Or.inl rfl, Or.inl rfl⟩

/-- The failures of a stretch: three more than for each reset of the breaker, and one for two seconds. -/
theorem failures_le {x : Server n m} (hx : Fenced x) (ht : Timed t₀ x) (h : Clocked t₀ t₁ es) :
    (tally H sha256 fails es x : Int) ≤ 3 * (tally H sha256 closes es x + 1) + (t₁ - t₀) / 2000 := by
  have hpay : (tally H sha256 fails es x : Int) ≤ allowed t₁ t₀ x + 3 * (tally H sha256 closes es x : Int) :=
    (run_pays es hx ht h).2
  have hallow : allowed t₁ t₀ x ≤ 3 + (t₁ - t₀) / 2000 :=
    (allowance_bounds t₁ (by decide) (show 0 < 3 by decide) ht.timed).2
  omega

/-- **What an outage costs**: in any stretch of any run of the process, the failed dispatches are at most
three, three for each success or reset of the demo, and one for every two seconds. Every five of them, or
of the attempts used up before, bury one intent at most. -/
theorem outage_bounded (hopen : controls.openUntil = none) (h₀ : Clocked s t₀ es₀) (h : Clocked t₀ t₁ es) :
    let x := (Server.start publisher db controls id : Server n m).run H sha256 es₀
    let y := x.run H sha256 es
    (tally H sha256 fails es x : Int) ≤ 3 * (tally H sha256 closes es x + 1) + (t₁ - t₀) / 2000 ∧
      5 * dead y.db.core ≤ used x.db.core + tally H sha256 fails es x := by
  intro x y
  have hstart : Fenced (Server.start publisher db controls id : Server n m) := .start publisher db controls id
  have hx : Fenced x := hstart.run es₀
  have ht : Timed t₀ x := (run_pays es₀ hstart (timed_start publisher db id hopen s) h₀).1
  have hcharged : Charged _ x := charged_run es₀ hstart (charged_start publisher db id controls)
  exact ⟨failures_le H sha256 es hx ht h, (charged_run es hx hcharged.afresh).dead_le⟩

end Outage

/-! ### Five failures -/

/-- A tab posts a receipt to a process that publishes. -/
def posted : List (Event 2 2) :=
  [.visit 0 (.arrive tab), .visit 0 .enter, .visit 0 .check,
    .visit 0 (.effect (.accept "demo" ⟨1, "e1", "r1", "sea-01", 0, 5000⟩ ⟨"d1", 0, [], ⟨"a1", 0⟩⟩ none)),
    .visit 0 .leave]

/-- A `Tick` at `now` whose `Publish` fails. -/
def failedTick (now next : Int) (owner : String) : List (Event 2 2) :=
  [.thread 0 .tick, .thread 0 (.look now), .thread 0 (.claim now owner none), .thread 0 (.publish false),
    .thread 0 (.markFailure now), .thread 0 (.failJob next ⟨owner, now⟩ none)]

/-- The breaker opens at the third failure, and a `Tick` a second later does nothing. -/
def outage : List (Event 2 2) :=
  failedTick 0 250 "o1" ++ failedTick 250 750 "o2" ++ failedTick 750 1750 "o3" ++
    [.thread 0 .tick, .thread 0 (.look 1750)] ++ failedTick 2750 4750 "o4" ++ failedTick 4750 8750 "o5"

/-- Both bounds are reached. -/
theorem outage_bounded_outage :
    let x := (Server.start true Db.empty ⟨false, 0, false, 0, none⟩ "g0" : Server 2 2).run eventDigest id posted
    let y := x.run eventDigest id outage
    tally eventDigest id fails outage x = 5 ∧ tally eventDigest id closes outage x = 0 ∧
      used x.db.core = 0 ∧ dead y.db.core = 1 ∧ Clocked 0 4750 outage ∧
      (tally eventDigest id fails outage x : Int) ≤
        3 * (tally eventDigest id closes outage x + 1) + (4750 - 0) / 2000 ∧
      5 * dead y.db.core ≤ used x.db.core + tally eventDigest id fails outage x :=
  ⟨by decide +kernel, by decide +kernel, by decide +kernel, by decide +kernel, by decide +kernel,
    outage_bounded eventDigest id true Db.empty "g0" posted outage (s := 0) rfl (by decide +kernel)
      (by decide +kernel)⟩

end Afterglow.Httpapi.Outage
