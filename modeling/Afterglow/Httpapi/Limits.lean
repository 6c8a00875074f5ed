import Afterglow.Sync.Tokens
import Mathlib.Algebra.BigOperators.Group.List.Lemmas
import Mathlib.Algebra.Order.BigOperators.Group.List
import Mathlib.Algebra.Order.Field.Rat

/-! # The admission limit

`allowCost` of `internal/httpapi/server.go`, with the requests it is called for: the middleware charges
every mutation one token, `acceptBatch` charges a batch for the rest of its items before any of them is
handed to `Accept`. Between the two charges, and between the items, any other request may take its steps.
Times are in seconds, in exact arithmetic. Requests that are not charged (`GET` and `HEAD`) reach neither
endpoint. -/

namespace Afterglow.Httpapi.Limits

open Afterglow.Sync.Tokens

/-! ### Calls -/

/-- `allowCost`: 30 tokens a second, 60 at most. -/
def allowCost (b : Bucket ℚ) (now : ℚ) (cost : ℕ) : Bool × Bucket ℚ := b.take 30 60 now cost

/-- `allow`. -/
def allow (b : Bucket ℚ) (now : ℚ) : Bool × Bucket ℚ := allowCost b now 1

/-- `maxBatchReceipts`. -/
def maxBatchReceipts : ℕ := 50

/-! ### Requests -/

/-- Where a mutation is sent. -/
inductive Endpoint
  | receipts
  | batch
  | other
  deriving DecidableEq, Repr

/-- How far a request is: charged by the middleware, a batch with `n` items to come, refused with 429, or
answered. -/
inductive Phase
  | charged
  | items (n : ℕ)
  | refused
  | done
  deriving DecidableEq, Repr

/-- A request, with the charges that were granted for it and the receipts it handed to `Accept`. -/
structure Request where
  endpoint : Endpoint
  phase : Phase
  charges : List (ℚ × ℕ)
  handed : ℕ
  deriving DecidableEq

structure Server where
  bucket : Bucket ℚ
  requests : List Request
  deriving DecidableEq

/-- `Handler`: a full bucket. -/
def init (start : ℚ) : Server := ⟨⟨60, start⟩, []⟩

/-- What happens next. -/
inductive Act
  /-- A request reaches the middleware, which may turn it away before charging it (401, 403). -/
  | arrive (endpoint : Endpoint) (turned : Bool)
  /-- A request is answered without a further receipt: 503, 409, 413, 415, 400, or a panic. -/
  | turnAway (i : ℕ)
  /-- A receipt is decoded and handed to `Accept`. -/
  | accept (i : ℕ)
  /-- A batch of `n` items is decoded. -/
  | envelope (i n : ℕ)
  /-- The next item of a batch; one that is not an object of the right shape is not handed on. -/
  | item (i : ℕ) (decoded : Bool)
  deriving DecidableEq, Repr

structure Event where
  now : ℚ
  act : Act
  deriving DecidableEq

/-- `acceptBatch` up to its loop, for a batch of `n` items. -/
def admitBatch (b : Bucket ℚ) (now : ℚ) (r : Request) (n : ℕ) : Bucket ℚ × Request :=
  if n < 1 ∨ maxBatchReceipts < n then (b, { r with phase := .done })
  else
    match allowCost b now (n - 1) with
    | (false, b) => (b, { r with phase := .refused })
    | (true, b) => (b, { r with phase := .items n, charges := r.charges ++ [(now, n - 1)] })

/-- What an act does to the request it is about; it does nothing to a request at another point. -/
def advance (b : Bucket ℚ) (now : ℚ) (r : Request) : Act → Bucket ℚ × Request
  | .arrive _ _ => (b, r)
  | .turnAway _ =>
    match r.phase with
    | .charged | .items _ => (b, { r with phase := .done })
    | .refused | .done => (b, r)
  | .accept _ =>
    match r.endpoint, r.phase with
    | .receipts, .charged => (b, { r with phase := .done, handed := r.handed + 1 })
    | _, _ => (b, r)
  | .envelope _ n =>
    match r.endpoint, r.phase with
    | .batch, .charged => admitBatch b now r n
    | _, _ => (b, r)
  | .item _ decoded =>
    match r.phase with
    | .items (n + 1) => (b, { r with phase := .items n, handed := r.handed + if decoded then 1 else 0 })
    | _ => (b, r)

/-- The middleware, for a request that arrives. -/
def enter (b : Bucket ℚ) (now : ℚ) (endpoint : Endpoint) (turned : Bool) : Bucket ℚ × Request :=
  if turned then (b, ⟨endpoint, .done, [], 0⟩)
  else
    match allow b now with
    | (false, b) => (b, ⟨endpoint, .refused, [], 0⟩)
    | (true, b) => (b, ⟨endpoint, .charged, [(now, 1)], 0⟩)

/-- The request an act is about. -/
def Act.request : Act → ℕ
  | .arrive _ _ => 0
  | .turnAway i | .accept i | .envelope i _ | .item i _ => i

/-- One event. -/
def Event.step (s : Server) (e : Event) : Server :=
  match e.act with
  | .arrive endpoint turned =>
    let x := enter s.bucket e.now endpoint turned
    ⟨x.1, s.requests ++ [x.2]⟩
  | act =>
    match s.requests[act.request]? with
    | none => s
    | some r =>
      let x := advance s.bucket e.now r act
      ⟨x.1, s.requests.set act.request x.2⟩

def run (es : List Event) (s : Server) : Server := es.foldl Event.step s

/-! ### What a step charges -/

/-- **What a step can do to the bucket and to the charges of its request.** -/
inductive Charge (b : Bucket ℚ) (now : ℚ) (cs : List (ℚ × ℕ)) : Bucket ℚ → List (ℚ × ℕ) → Prop
  | nothing : Charge b now cs b cs
  | refused (cost : ℕ) (h : (allowCost b now cost).1 = false) : Charge b now cs (allowCost b now cost).2 cs
  | granted (cost : ℕ) (h : (allowCost b now cost).1 = true) :
      Charge b now cs (allowCost b now cost).2 (cs ++ [(now, cost)])

/-- The charges of an interval. -/
def spent (t₀ t₁ : ℚ) (cs : List (ℚ × ℕ)) : ℕ :=
  (cs.map fun c => if t₀ ≤ c.1 ∧ c.1 ≤ t₁ then c.2 else 0).sum

section Charge

variable {b b' : Bucket ℚ} {now : ℚ} {cs cs' : List (ℚ × ℕ)}

theorem spent_snoc (t₀ t₁ : ℚ) (cs : List (ℚ × ℕ)) (cost : ℕ) :
    spent t₀ t₁ (cs ++ [(now, cost)]) = spent t₀ t₁ cs + if t₀ ≤ now ∧ now ≤ t₁ then cost else 0 := by
  simp [spent]

theorem Charge.fair (h : Charge b now cs b' cs') (hb : b.Fair 60) (hnow : b.last ≤ now) : b'.Fair 60 := by
  cases h with
  | nothing => exact hb
  | refused cost _ => exact hb.take (by norm_num) hnow (Nat.cast_nonneg cost)
  | granted cost _ => exact hb.take (by norm_num) hnow (Nat.cast_nonneg cost)

theorem Charge.last (h : Charge b now cs b' cs') (hnow : b.last ≤ now) : b'.last ≤ now := by
  cases h with
  | nothing => exact hnow
  | refused cost _ => exact take_last.le
  | granted cost _ => exact take_last.le

/-- **The account of an interval** follows the charges. -/
theorem Charge.within (h : Charge b now cs b' cs') (hb : b.Fair 60) (hnow : b.last ≤ now) {t₀ t₁ : ℚ}
    (ht : t₀ ≤ t₁) {rest : ℕ} (hw : Within 30 60 t₀ t₁ b ((rest + spent t₀ t₁ cs : ℕ) : ℚ)) :
    Within 30 60 t₀ t₁ b' ((rest + spent t₀ t₁ cs' : ℕ) : ℚ) := by
  cases h with
  | nothing => exact hw
  | refused cost hrefused =>
    have htake := hw.take hb (by norm_num) ht hnow (cost : ℚ)
    have hfalse : (b.take 30 60 now (cost : ℚ)).1 = false := hrefused
    simpa [allowCost, hfalse] using htake
  | granted cost hgranted =>
    have htake := hw.take hb (by norm_num) ht hnow (cost : ℚ)
    have htrue : (b.take 30 60 now (cost : ℚ)).1 = true := hgranted
    rw [spent_snoc, ← add_assoc, Nat.cast_add]
    simpa [allowCost, htrue] using htake

end Charge

theorem admitBatch_charge (b : Bucket ℚ) (now : ℚ) (r : Request) (n : ℕ) :
    Charge b now r.charges (admitBatch b now r n).1 (admitBatch b now r n).2.charges := by
  unfold admitBatch
  split_ifs
  · exact .nothing
  · cases h : allowCost b now (n - 1) with
    | mk ok b' =>
      have hb' : (allowCost b now (n - 1)).2 = b' := by rw [h]
      cases ok with
      | false =>
        rw [← hb']
        exact .refused (n - 1) (by rw [h])
      | true =>
        rw [← hb']
        exact .granted (n - 1) (by rw [h])

theorem advance_charge (b : Bucket ℚ) (now : ℚ) (r : Request) (act : Act) :
    Charge b now r.charges (advance b now r act).1 (advance b now r act).2.charges := by
  unfold advance
  cases act with
  | arrive _ _ => exact .nothing
  | turnAway i => dsimp only; split <;> exact .nothing
  | accept i => dsimp only; split <;> exact .nothing
  | envelope i n =>
    dsimp only
    split
    · exact admitBatch_charge b now r n
    · exact .nothing
  | item i decoded => dsimp only; split <;> exact .nothing

theorem enter_charge (b : Bucket ℚ) (now : ℚ) (endpoint : Endpoint) (turned : Bool) :
    Charge b now [] (enter b now endpoint turned).1 (enter b now endpoint turned).2.charges := by
  unfold enter allow
  split_ifs
  · exact .nothing
  · cases h : allowCost b now 1 with
    | mk ok b' =>
      have hb' : (allowCost b now 1).2 = b' := by rw [h]
      cases ok with
      | false =>
        rw [← hb']
        exact .refused 1 (by rw [h])
      | true =>
        rw [← hb']
        exact .granted 1 (by rw [h])

/-! ### What a request may hand on -/

/-- The receipts a request may still hand to `Accept`. -/
def Phase.pending : Phase → ℕ
  | .charged => 1
  | .items n => n
  | .refused | .done => 0

/-- **Every receipt is paid for**, those to come as well; a request that is refused hands on none. -/
structure Paid (r : Request) : Prop where
  paid : r.handed + r.phase.pending ≤ (r.charges.map (·.2)).sum
  charged : r.phase = .charged → r.handed = 0 ∧ (r.charges.map (·.2)).sum = 1
  refused : r.phase = .refused → r.handed = 0

/-- A request past its admission. -/
theorem paid_of_le {r : Request} (hle : r.handed + r.phase.pending ≤ (r.charges.map (·.2)).sum)
    (hcharged : r.phase ≠ .charged) (hrefused : r.phase ≠ .refused) : Paid r :=
  ⟨hle, fun h => absurd h hcharged, fun h => absurd h hrefused⟩

theorem Paid.admitBatch {r : Request} (h : Paid r) (hr : r.phase = .charged) (b : Bucket ℚ) (now : ℚ)
    (n : ℕ) : Paid (admitBatch b now r n).2 := by
  obtain ⟨hzero, hone⟩ := h.charged hr
  have hpaid := h.paid
  unfold Limits.admitBatch
  split_ifs with hn
  · refine paid_of_le ?_ nofun nofun
    show r.handed + 0 ≤ _
    omega
  · cases allowCost b now (n - 1) with
    | mk ok b' =>
      cases ok with
      | false =>
        refine ⟨?_, nofun, fun _ => hzero⟩
        show r.handed + 0 ≤ _
        omega
      | true =>
        refine paid_of_le ?_ nofun nofun
        show r.handed + n ≤ ((r.charges ++ [(now, n - 1)]).map (·.2)).sum
        rw [List.map_append, List.sum_append, hone, hzero]
        simp only [List.map_cons, List.map_nil, List.sum_cons, List.sum_nil]
        omega

/-- **One step of a request.** -/
theorem Paid.advance {r : Request} (h : Paid r) (b : Bucket ℚ) (now : ℚ) (act : Act) :
    Paid (advance b now r act).2 := by
  have hpaid := h.paid
  unfold Limits.advance
  cases act with
  | arrive _ _ => exact h
  | turnAway i =>
    dsimp only
    have hdone : Paid { r with phase := .done } := by
      refine paid_of_le ?_ nofun nofun
      show r.handed + 0 ≤ (r.charges.map (·.2)).sum
      omega
    split
    · exact hdone
    · exact hdone
    · exact h
    · exact h
  | accept i =>
    dsimp only
    split
    next hphase =>
      rw [hphase] at hpaid
      exact paid_of_le hpaid nofun nofun
    · exact h
  | envelope i n =>
    dsimp only
    split
    next hphase => exact h.admitBatch hphase b now n
    · exact h
  | item i decoded =>
    dsimp only
    split
    next n hphase =>
      rw [hphase] at hpaid
      refine paid_of_le ?_ nofun nofun
      simp only [Phase.pending] at hpaid ⊢
      split_ifs <;> omega
    · exact h

theorem paid_enter (b : Bucket ℚ) (now : ℚ) (endpoint : Endpoint) (turned : Bool) :
    Paid (enter b now endpoint turned).2 := by
  unfold enter
  split_ifs
  · exact paid_of_le (Nat.le_refl 0) nofun nofun
  · cases allow b now with
    | mk ok b' =>
      cases ok with
      | false => exact ⟨Nat.le_refl 0, nofun, fun _ => rfl⟩
      | true => exact ⟨Nat.le_refl 1, fun _ => ⟨rfl, rfl⟩, nofun⟩

/-! ### The server -/

/-- The charges of an interval, over all requests. -/
def total (t₀ t₁ : ℚ) (rs : List Request) : ℕ := (rs.map fun r => spent t₀ t₁ r.charges).sum

/-- The receipts handed on for requests whose charges all fall in the interval. -/
def handedWithin (t₀ t₁ : ℚ) (rs : List Request) : ℕ :=
  ((rs.filter fun r => r.charges.all fun c => t₀ ≤ c.1 ∧ c.1 ≤ t₁).map (·.handed)).sum

/-- **The invariant.** -/
structure Sound (s : Server) : Prop where
  fair : s.bucket.Fair 60
  paid : ∀ r ∈ s.requests, Paid r
  within : ∀ t₀ t₁, t₀ ≤ t₁ → Within 30 60 t₀ t₁ s.bucket (total t₀ t₁ s.requests : ℚ)

theorem sound_init (start : ℚ) : Sound (init start) := by
  have hfair : (init start).bucket.Fair 60 := ⟨by show (0 : ℚ) ≤ 60; norm_num, le_refl (60 : ℚ)⟩
  refine ⟨hfair, fun r hr => absurd hr List.not_mem_nil, fun t₀ t₁ ht => ?_⟩
  have hstart : Within 30 60 t₀ t₁ (init start).bucket 0 := Within.start hfair (by norm_num) ht
  simpa [total, init] using hstart

/-- A request is replaced by another. -/
theorem sum_set {α : Type} (f : α → ℕ) {x y : α} : ∀ {l : List α} {i : ℕ}, l[i]? = some x →
    ∃ rest, (l.map f).sum = rest + f x ∧ ((l.set i y).map f).sum = rest + f y
  | [], i, h => by simp at h
  | z :: l, 0, h => by
    obtain rfl : z = x := by simpa using h
    exact ⟨(l.map f).sum, by simp [add_comm], by simp [add_comm]⟩
  | z :: l, i + 1, h => by
    obtain ⟨rest, h₁, h₂⟩ := sum_set f (y := y) (show l[i]? = some x by simpa using h)
    refine ⟨f z + rest, ?_, ?_⟩
    · rw [List.map_cons, List.sum_cons, h₁, add_assoc]
    · rw [List.set_cons_succ, List.map_cons, List.sum_cons, h₂, add_assoc]

/-- A request takes a step. -/
theorem Sound.set {s : Server} (h : Sound s) {i : ℕ} {r r' : Request} (hr : s.requests[i]? = some r)
    {b' : Bucket ℚ} {now : ℚ} (hnow : s.bucket.last ≤ now) (hpaid : Paid r')
    (hcharge : Charge s.bucket now r.charges b' r'.charges) : Sound ⟨b', s.requests.set i r'⟩ := by
  refine ⟨hcharge.fair h.fair hnow, fun q hq => ?_, fun t₀ t₁ ht => ?_⟩
  · rcases List.mem_or_eq_of_mem_set hq with hq | rfl
    · exact h.paid q hq
    · exact hpaid
  · obtain ⟨rest, hold, hnew⟩ := sum_set (fun r => spent t₀ t₁ r.charges) (y := r') hr
    have hw := h.within t₀ t₁ ht
    rw [total, hold] at hw
    show Within 30 60 t₀ t₁ b' (total t₀ t₁ (s.requests.set i r') : ℚ)
    rw [total, hnew]
    exact hcharge.within h.fair hnow ht hw

/-- A request arrives. -/
theorem Sound.append {s : Server} (h : Sound s) {r : Request} {b' : Bucket ℚ} {now : ℚ}
    (hnow : s.bucket.last ≤ now) (hpaid : Paid r) (hcharge : Charge s.bucket now [] b' r.charges) :
    Sound ⟨b', s.requests ++ [r]⟩ := by
  refine ⟨hcharge.fair h.fair hnow, fun q hq => ?_, fun t₀ t₁ ht => ?_⟩
  · rcases List.mem_append.mp hq with hq | hq
    · exact h.paid q hq
    · rw [List.mem_singleton.mp hq]
      exact hpaid
  · have hw : Within 30 60 t₀ t₁ s.bucket ((total t₀ t₁ s.requests + spent t₀ t₁ [] : ℕ) : ℚ) :=
      h.within t₀ t₁ ht
    have hw' := hcharge.within h.fair hnow ht hw
    have htotal : total t₀ t₁ (s.requests ++ [r]) = total t₀ t₁ s.requests + spent t₀ t₁ r.charges := by
      simp [total]
    show Within 30 60 t₀ t₁ b' (total t₀ t₁ (s.requests ++ [r]) : ℚ)
    rw [htotal]
    exact hw'

/-- **One event.** -/
theorem Sound.step {s : Server} (h : Sound s) {e : Event} (hnow : s.bucket.last ≤ e.now) :
    Sound (e.step s) ∧ (e.step s).bucket.last ≤ e.now := by
  unfold Event.step
  split
  next endpoint turned _ =>
    have hcharge := enter_charge s.bucket e.now endpoint turned
    exact ⟨h.append hnow (paid_enter _ _ _ _) hcharge, hcharge.last hnow⟩
  next act _ =>
    cases hr : s.requests[e.act.request]? with
    | none => exact ⟨h, hnow⟩
    | some r =>
      have hcharge := advance_charge s.bucket e.now r e.act
      have hpaid := h.paid r (List.mem_of_getElem? hr)
      exact ⟨h.set hr hnow (hpaid.advance _ _ _) hcharge, hcharge.last hnow⟩

/-- **A run**, with a clock that does not go back. -/
theorem Sound.run : ∀ {es : List Event} {s : Server}, Sound s → (es.map (·.now)).Pairwise (· ≤ ·) →
    (∀ e ∈ es, s.bucket.last ≤ e.now) → Sound (Limits.run es s)
  | [], s, h, _, _ => h
  | e :: es, s, h, hclock, hlast => by
    rw [List.map_cons, List.pairwise_cons] at hclock
    obtain ⟨hsound, hle⟩ := h.step (hlast e List.mem_cons_self)
    show Sound (Limits.run es (e.step s))
    refine Sound.run hsound hclock.2 fun e' he' => hle.trans ?_
    exact hclock.1 e'.now (List.mem_map_of_mem he')

/-- The receipts of an interval are paid for in the interval. -/
theorem handedWithin_le {rs : List Request} (h : ∀ r ∈ rs, Paid r) (t₀ t₁ : ℚ) :
    handedWithin t₀ t₁ rs ≤ total t₀ t₁ rs := by
  induction rs with
  | nil => exact Nat.le_refl 0
  | cons r rs ih =>
    have htail := ih fun q hq => h q (List.mem_cons_of_mem r hq)
    have htotal : total t₀ t₁ (r :: rs) = spent t₀ t₁ r.charges + total t₀ t₁ rs := rfl
    unfold handedWithin at htail ⊢
    rw [htotal, List.filter_cons]
    split_ifs with hall
    · have hspent : spent t₀ t₁ r.charges = (r.charges.map (·.2)).sum := by
        refine congrArg List.sum (List.map_congr_left fun c hc => if_pos ?_)
        exact of_decide_eq_true (List.all_eq_true.mp hall c hc)
      have hpaid := (h r List.mem_cons_self).paid
      rw [List.map_cons, List.sum_cons, hspent]
      omega
    · omega

/-- **The admission limit**, batches included. -/
theorem admission_limit (start : ℚ) (es : List Event)
    (hclock : (start :: es.map (·.now)).Pairwise (· ≤ ·)) :
    (∀ es', es' <+: es → 0 ≤ (run es' (init start)).bucket.tokens ∧
      (run es' (init start)).bucket.tokens ≤ 60) ∧
      (∀ t₀ t₁ : ℚ, t₀ ≤ t₁ →
        (handedWithin t₀ t₁ (run es (init start)).requests : ℚ) ≤ 60 + 30 * (t₁ - t₀)) ∧
      ∀ r ∈ (run es (init start)).requests, r.phase = .refused → r.handed = 0 := by
  have hsound (es' : List Event) (hes' : es' <+: es) : Sound (run es' (init start)) := by
    rw [List.pairwise_cons] at hclock
    have hsub : (es'.map (·.now)).Sublist (es.map (·.now)) := hes'.sublist.map _
    refine (sound_init start).run (hclock.2.sublist hsub) fun e he => ?_
    exact hclock.1 e.now (hsub.subset (List.mem_map_of_mem he))
  have hall := hsound es (List.prefix_refl es)
  refine ⟨fun es' hes' => ?_, fun t₀ t₁ ht => ?_, fun r hr => (hall.paid r hr).refused⟩
  · have hfair := (hsound es' hes').fair
    exact ⟨hfair.nonneg, hfair.le_cap⟩
  · have hle : (handedWithin t₀ t₁ (run es (init start)).requests : ℚ) ≤
        total t₀ t₁ (run es (init start)).requests :=
      Nat.cast_le.mpr (handedWithin_le hall.paid t₀ t₁)
    exact hle.trans ((hall.within t₀ t₁ ht).le hall.fair (by norm_num) ht)

/-- A batch of fifty, a receipt between its two charges, and a batch that is refused. -/
def threeRequests : List Event :=
  [⟨0, .arrive .batch false⟩, ⟨0, .arrive .receipts false⟩, ⟨0, .accept 1⟩, ⟨1 / 10, .envelope 0 50⟩,
    ⟨1 / 10, .item 0 true⟩, ⟨1 / 5, .arrive .batch false⟩, ⟨1 / 5, .envelope 2 50⟩]

theorem admission_limit_threeRequests :
    (handedWithin 0 1 (run threeRequests (init 0)).requests : ℚ) ≤ 60 + 30 * (1 - 0) ∧
      (run threeRequests (init 0)).requests.map (fun r => (r.phase, r.handed)) =
        [(.items 49, 1), (.done, 1), (.refused, 0)] :=
  ⟨(admission_limit 0 threeRequests (by decide +kernel)).2.1 0 1 (by norm_num), by decide +kernel⟩

end Afterglow.Httpapi.Limits
