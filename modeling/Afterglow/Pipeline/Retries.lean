import Afterglow.Core.Lease
import Afterglow.Pipeline.Dispatch

/-! # How often a delivery is handed out

`Claim` counts the attempts of an intent, and `FailJob` ends the intent on the fifth one. The count is the
number of times the delivery was handed out since its `Accept` or its last `Replay` (`Tally`), and the job
a worker holds carries it (`Attempts.held`), so an intent that goes back to `pending` has four attempts at
most. A lease that runs out is claimed again whatever its count: only where the worker of the fifth attempt
reports before the clock of a `Claim` is past its lease (`inTime`) is the number of attempts bounded, and
what is left of the delivery then is decided, with the subscribers, or failed and dead (`Spent`). -/

namespace Afterglow.Pipeline.Retries

open Afterglow.Sql.Rows Afterglow.Sql.Txn Afterglow.Core.Model Afterglow.Core.Statements
open Afterglow.Core.Store Afterglow.Core.Outcome Afterglow.Core.Run Afterglow.Core.Intent
open Afterglow.Pipeline.Worker Afterglow.Pipeline.Dispatch
open Afterglow.Core.Lease (claim_exec)

/-! ### Counting -/

/-- A call from outside is none of the workers' own steps. -/
def foreign : Action → Bool
  | .call c =>
    match c.op with
    | .claim .. => false
    | .dispatched .. => false
    | .failJob .. => false
    | _ => true
  | _ => true

/-- The answer of a `Claim` is a job for delivery `k`. -/
def isFor (k : Key2) : Except Err (Option Job) → Bool
  | .ok (some j) => decide ((j.tenant, j.id) = k)
  | _ => false

/-- The step is a `Claim` that hands out delivery `k`. -/
def hands (H : Digest) (k : Key2) (x : System) : Action → Bool
  | .claim i postgres now owner fault _ =>
    match x.dispatchers i with
    | .idle => isFor k ((Op.claim postgres now owner).exec H fault x.store).1
    | _ => false
  | _ => false

/-- The step is a `Replay` of delivery `k` that succeeds. -/
def replays (H : Digest) (k : Key2) (x : System) : Action → Bool
  | .call ⟨.replay tenant id d, fault⟩ =>
    decide ((tenant, id) = k) && ((Op.replay tenant id d).exec H fault x.store).1.isOk
  | _ => false

/-- The number of times delivery `k` is handed out, from `n` on, since its last `Replay`; it is not handed
out before its `Accept`. -/
def handouts (H : Digest) (k : Key2) : List Action → System → ℕ → ℕ
  | [], _, n => n
  | a :: as, x, n =>
    handouts H k as (x.step H a) (if replays H k x a then 0 else if hands H k x a then n + 1 else n)

/-- The fifth attempt at delivery `k` has not been reported, and at the clock `now` its lease has run out. -/
def overdue (k : Key2) (s : Store) (now : Int) : Bool :=
  (s.outbox.find? k).any fun o =>
    decide (o.state = .leased) && decide (5 ≤ o.attempts) && decide (o.leaseUntil ≤ now)

/-- **The fifth worker reports in time**: if the step is a `Claim`, of whatever delivery, its clock does not
find the lease of a fifth attempt at `k` run out. -/
def inTime (k : Key2) (x : System) : Action → Bool
  | .claim i _ now _ _ _ =>
    match x.dispatchers i with
    | .idle => !overdue k x.store now
    | _ => true
  | _ => true

/-- Every step of the run meets `P` in the state it is taken in. -/
def along (H : Digest) (P : System → Action → Bool) : List Action → System → Bool
  | [], _ => true
  | a :: as, x => P x a && along H P as (x.step H a)

/-- The delivery is failed and its intent dead. -/
def buried (e : Option Entry) : Bool := e.any fun e => decide (e.1 = .failed) && decide (e.2.state = .dead)

/-- Delivery `k` was failed, and its intent dead, after a step since its last `Replay`. -/
def buries (H : Digest) (k : Key2) : List Action → System → Bool → Bool
  | [], _, b => b
  | a :: as, x, b =>
    let y := x.step H a
    buries H k as y (!replays H k x a && (b || buried (entry y.store k)))

/-- The delivery is decided by its reservation. -/
def decided (st : Status) : Prop := st ≠ .accepted ∧ st ≠ .failed

/-! ### The invariant -/

/-- **What the count `n` says of an intent.** -/
structure Tally (n : ℕ) (e : Option Entry) : Prop where
  fresh : e = none → n = 0
  count : ∀ st o, e = some (st, o) → o.attempts = n
  pending : ∀ st o, e = some (st, o) → o.state = .pending → n ≤ 4
  ended : ∀ st o, e = some (st, o) → o.state = .dead ∨ o.state = .done → st ≠ .accepted
  bound : n ≤ 5

/-- **The invariant**, where `T` are the owner tokens drawn so far. -/
structure Attempts (k : Key2) (T : List String) (n : ℕ) (x : System) : Prop where
  paired : Paired x.store
  tally : Tally n (entry x.store k)
  tokens : ∀ i j, job? (x.dispatchers i) = some j → j.owner ∈ T
  held : ∀ i j st o, job? (x.dispatchers i) = some j → (j.tenant, j.id) = k →
    entry x.store k = some (st, o) → Job.holds j o → j.attempts = n

section Step

variable {H : Digest} {k : Key2} {T : List String} {n : ℕ} {x : System}

theorem Tally.entry {st : Status} {o : OutboxRow} (hn : n ≤ 5) (ho : o.attempts = n)
    (hp : o.state = .pending → n ≤ 4) (hd : o.state = .dead ∨ o.state = .done → st ≠ .accepted) :
    Tally n (some (st, o)) where
  fresh h := by cases h
  count st' o' h := by cases h; exact ho
  pending st' o' h := by cases h; exact hp
  ended st' o' h := by cases h; exact hd
  bound := hn

/-- **A due intent that is not overdue has attempts left.** -/
theorem low_of_due {s : Store} {st : Status} {o : OutboxRow} {now : Int} (ht : Tally n (entry s k))
    (he : entry s k = some (st, o)) (htime : overdue k s now = false) (hdue : OutboxRow.due now o = true) :
    n ≤ 4 := by
  obtain ⟨-, -, -, ho⟩ := entry_some.mp he
  have hcount := ht.count st o he
  simp only [OutboxRow.due, Bool.and_eq_true, Bool.or_eq_true, beq_iff_eq, decide_eq_true_eq] at hdue
  rcases hdue.1.1 with hpending | hleased
  · exact ht.pending st o he hpending
  · -- its lease has run out, so this was not the fifth attempt
    simp only [overdue, ho, Option.any_some, hleased, decide_true, Bool.true_and, Bool.and_eq_false_iff,
      decide_eq_false_iff_not] at htime
    rcases htime with hlow | hlong
    · omega
    · exact absurd hdue.2 hlong

/-- **A transaction that is neither a claim nor a replay keeps the count**; a failed attempt is that of a
worker's job. -/
theorem Attempts.store (h : Attempts k T n x) {op : Op} {s' : Store} (hc : Change H x.store op s')
    (hclaim : ∀ postgres now owner, op ≠ .claim postgres now owner)
    (hreplay : ∀ tenant id d, op ≠ .replay tenant id d)
    (hfail : ∀ j next d, op = .failJob j next d → ∃ i, job? (x.dispatchers i) = some j) :
    Attempts k T n { x with store := s' } := by
  have hm := move_of_change h.paired hc k
  have ht := h.tally
  have hheld := h.held
  refine ⟨h.paired.change hc, ?_, h.tokens, ?_⟩
  · show Tally n (entry s' k)
    generalize entry x.store k = e at hm ht hheld
    generalize entry s' k = e' at hm
    cases hm with
    | same => exact ht
    | born hk =>
      have hn := ht.fresh rfl
      exact .entry ht.bound hn.symm (fun _ => by omega) (by simp)
    | @judged _ _ _ o _ hk hs =>
      exact .entry ht.bound (ht.count _ o rfl) (ht.pending _ o rfl) fun _ => hs
    | leased => exact absurd rfl (hclaim _ _ _)
    | @dispatched _ o _ hk hj =>
      exact .entry ht.bound (ht.count _ o rfl) (by simp [freedRow]) (by simp [freedRow])
    | @finished _ _ o _ hk hs =>
      exact .entry ht.bound (ht.count _ o rfl) (by simp [freedRow]) fun _ => hs
    | @retried j next d o st hk hj hs =>
      -- the worker's job carries the count, so the failed attempt was not the fifth
      obtain ⟨i, hi⟩ := hfail j next d rfl
      have hcount := hheld i j st o hi hk rfl hj
      have hlow : ¬ 5 ≤ j.attempts := by
        intro hhigh
        simp [failState, hhigh] at hs
      refine .entry ht.bound (ht.count _ o rfl) (fun _ => by omega) fun hd => ?_
      rw [show (failedRow o j next).state = failState j from rfl, hs] at hd
      rcases hd with hd | hd <;> cases hd
    | @died j next d o st st' hk hj hs hst =>
      refine .entry ht.bound (ht.count _ o rfl) (fun hp => ?_) fun _ => hst
      rw [show (failedRow o j next).state = failState j from rfl, hs] at hp
      cases hp
    | reopened => exact absurd rfl (hreplay _ _ _)
  · intro i j st o hj hk he hh
    have he' : entry s' k = some (st, o) := he
    rw [he'] at hm
    generalize hb : entry x.store k = b at hm
    cases hm with
    | same => exact h.held i j st o hj hk hb hh
    | born => exact absurd hh.2 (by simp)
    | judged => exact h.held i j _ o hj hk hb hh
    | leased => exact absurd rfl (hclaim _ _ _)
    | dispatched => exact absurd hh.2 (by simp [freedRow])
    | finished => exact absurd hh.2 (by simp [freedRow])
    | retried _ _ hs => exact absurd hh.2 (by simp [failedRow, freedRow, hs])
    | died _ _ hs => exact absurd hh.2 (by simp [failedRow, freedRow, hs])
    | reopened => exact absurd rfl (hreplay _ _ _)

/-- The jobs after worker `i` moved on. -/
theorem job_cases {i m : ℕ} {p : Dispatcher} {j : Job}
    (h : job? ((x.setDispatcher i p).dispatchers m) = some j) :
    m = i ∧ job? p = some j ∨ job? (x.dispatchers m) = some j := by
  unfold System.setDispatcher at h
  by_cases hm : m = i
  · subst hm
    simp only [Function.update_self] at h
    exact Or.inl ⟨rfl, h⟩
  · simp only [Function.update_of_ne hm] at h
    exact Or.inr h

/-- **A worker moves on** with the job it has, or without one. -/
theorem Attempts.move (h : Attempts k T n x) {i : ℕ} {p : Dispatcher}
    (hp : ∀ j, job? p = some j → job? (x.dispatchers i) = some j) :
    Attempts k T n (x.setDispatcher i p) := by
  have hcases : ∀ m j, job? ((x.setDispatcher i p).dispatchers m) = some j →
      job? (x.dispatchers m) = some j := by
    intro m j hj
    rcases job_cases hj with ⟨rfl, hnew⟩ | hold
    · exact hp j hnew
    · exact hold
  exact ⟨h.paired, h.tally, fun m j hj => h.tokens m j (hcases m j hj),
    fun m j st o hj => h.held m j st o (hcases m j hj)⟩

theorem Attempts.mono (h : Attempts k T n x) {T' : List String} (hT : T ⊆ T') : Attempts k T' n x :=
  ⟨h.paired, h.tally, fun i j hj => hT (h.tokens i j hj), h.held⟩

/-- The subscribers and the broker do not matter. -/
theorem Attempts.congr (h : Attempts k T n x) {y : System} (hs : y.store = x.store)
    (hd : y.dispatchers = x.dispatchers) : Attempts k T n y := by
  refine ⟨hs ▸ h.paired, hs ▸ h.tally, hd ▸ h.tokens, ?_⟩
  rw [hs, hd]
  exact h.held

/-- The tokens of the jobs once a worker has one under the token `owner`. -/
theorem Attempts.tokens_add (h : Attempts k T n x) {i : ℕ} {p : Dispatcher} {owner : String}
    (hp : ∀ j, job? p = some j → j.owner = owner) {m : ℕ} {j : Job}
    (hjob : job? ((x.setDispatcher i p).dispatchers m) = some j) : j.owner ∈ T ++ [owner] := by
  rcases job_cases hjob with ⟨-, hnew⟩ | hold
  · rw [hp j hnew]
    exact List.mem_append_right _ (List.mem_singleton_self _)
  · exact List.mem_append_left _ (h.tokens m j hold)

/-- A claim that takes nothing, or another delivery. -/
theorem Attempts.claim_other (h : Attempts k T n x) {s' : Store} (hp : Paired s')
    (he : entry s' k = entry x.store k) {i : ℕ} {p : Dispatcher} {owner : String}
    (hj : ∀ j, job? p = some j → j.owner = owner ∧ (j.tenant, j.id) ≠ k) :
    Attempts k (T ++ [owner]) n ({ x with store := s' }.setDispatcher i p) := by
  refine ⟨hp, he ▸ h.tally, fun m j hjob => ?_, fun m j st o hjob hk he' hh => ?_⟩
  · exact h.tokens_add (fun j hj' => (hj j hj').1) hjob
  · rcases job_cases hjob with ⟨-, hnew⟩ | hold
    · exact absurd hk (hj j hnew).2
    · exact h.held m j st o hold hk (he ▸ he') hh

/-- A claim that hands the delivery out: one more attempt, in the hands of the new token. -/
theorem Attempts.claim_self (h : Attempts k T n x) {s' : Store} (hp : Paired s') {st : Status}
    {o : OutboxRow} (he : entry s' k = some (st, o)) (hcount : o.attempts = n + 1)
    (hleased : o.state = .leased) (hn : n ≤ 4) {i : ℕ} {p : Dispatcher} {owner : String}
    (howner : o.owner = owner) (hfresh : owner ∉ T)
    (hj : ∀ j, job? p = some j → j.owner = owner ∧ j.attempts = n + 1) :
    Attempts k (T ++ [owner]) (n + 1) ({ x with store := s' }.setDispatcher i p) := by
  refine ⟨hp, ?_, fun m j hjob => ?_, fun m j st' o' hjob hk he' hh => ?_⟩
  · show Tally (n + 1) (entry s' k)
    rw [he]
    exact .entry (by omega) hcount (by rw [hleased]; simp) (by rw [hleased]; simp)
  · exact h.tokens_add (fun j hj' => (hj j hj').1) hjob
  · rcases job_cases hjob with ⟨-, hnew⟩ | hold
    · exact (hj j hnew).2
    · -- the older jobs hold older tokens
      cases he.symm.trans he'
      have hsame : j.owner = owner := hh.1.symm.trans howner
      exact absurd (hsame ▸ h.tokens m j hold) hfresh

/-- **A claim**, by whose clock no fifth attempt is overdue. -/
theorem Attempts.claim (h : Attempts k T n x) {i : ℕ} {postgres : Bool} {now : Int} {owner : String}
    {fault : Option ℕ} {lost : Bool} (hidle : x.dispatchers i = .idle) (hfresh : owner ∉ T)
    (htime : overdue k x.store now = false) :
    Attempts k (T ++ [owner])
      (if hands H k x (.claim i postgres now owner fault lost) then n + 1 else n)
      (x.byDispatcher H i (.claim postgres now owner) fault (afterClaim lost)) := by
  have hout := claim_exec (H := H) (s := x.store) postgres now owner fault
  have hpaired := h.paired.change ((Op.claim postgres now owner).change H fault x.store)
  simp only [hands, hidle, System.byDispatcher]
  generalize (Op.claim postgres now owner).exec H fault x.store = y at hout hpaired ⊢
  cases hout with
  | refused e => exact h.claim_other h.paired rfl fun j hj => by cases hj
  | idle => exact h.claim_other h.paired rfl fun j hj => by cases hj
  | claimed o trace ho =>
    obtain ⟨hfind, hdue⟩ := claimable_mem ho
    have hjob : ∀ j, job? (afterClaim lost (.ok (some ⟨o.tenant, o.id, owner, o.attempts + 1, trace⟩))) =
        some j → j = ⟨o.tenant, o.id, owner, o.attempts + 1, trace⟩ := by
      intro j hj
      cases lost with
      | true => cases hj
      | false => cases hj; rfl
    by_cases hk : o.pk = k
    · subst hk
      obtain ⟨d, hd, he⟩ := h.paired.entry_of_outbox hfind
      have hcount : o.attempts = n := h.tally.count _ o he
      have hn : n ≤ 4 := low_of_due h.tally he htime hdue
      have hhands : isFor o.pk (.ok (some ⟨o.tenant, o.id, owner, o.attempts + 1, trace⟩)) = true :=
        decide_eq_true rfl
      have he' : entry { x.store with outbox := x.store.outbox.put (leasedRow o owner now) } o.pk =
          some (d.status, leasedRow o owner now) :=
        entry_eq hd (Table.find?_put_self _ (leasedRow o owner now))
      rw [if_pos hhands]
      refine h.claim_self hpaired he' (by rw [← hcount]; rfl) rfl hn rfl hfresh fun j hj => ?_
      rw [hjob j hj]
      exact ⟨rfl, by rw [← hcount]⟩
    · have hhands : isFor k (.ok (some ⟨o.tenant, o.id, owner, o.attempts + 1, trace⟩)) = false :=
        decide_eq_false hk
      have he' : entry { x.store with outbox := x.store.outbox.put (leasedRow o owner now) } k =
          entry x.store k :=
        entry_congr rfl (Table.find?_put_ne (r := leasedRow o owner now) hk)
      rw [hhands]
      refine h.claim_other hpaired he' fun j hj => ?_
      rw [hjob j hj]
      exact ⟨rfl, hk⟩

/-- The entry of a delivery that is reopened. -/
theorem entry_reopened {s : Store} {tenant id : String} {dl : DeliveryRow} {o : OutboxRow} (a : AuditRow)
    (hd : s.deliveries.find? (tenant, id) = some dl) (ho : s.outbox.find? (tenant, id) = some o) :
    entry { s with
      deliveries := s.deliveries.put (reopenedRow dl)
      outbox := s.outbox.modify (tenant, id) requeuedRow
      audit := s.audit.put a } (tenant, id) = some (.accepted, requeuedRow o) := by
  have hpd : dl.pk = (tenant, id) := Table.find?_key hd
  refine entry_eq (d := reopenedRow dl) ?_ ?_
  · rw [← hpd]
    exact Table.find?_put_self _ (reopenedRow dl)
  · show (s.outbox.modify (tenant, id) requeuedRow).find? (tenant, id) = _
    rw [Table.find?_modify (f := requeuedRow) (fun _ => rfl), if_pos rfl, ho]
    rfl

/-- What a `Replay` comes to, with or without a fault. -/
theorem replay_exec (tenant id : String) (d : Stamp) (fault : Option ℕ) (s : Store) :
    ReplayOut tenant id d s ((Op.replay tenant id d).exec H fault s) := by
  rcases (Op.replay tenant id d).exec_cases H fault s with hx | hx
  · rw [hx]; exact replay_out tenant id d s
  · rw [hx]; exact .refused _

/-- **A replay** starts the count again. -/
theorem Attempts.replay (h : Attempts k T n x) (tenant id : String) (d : Stamp) (fault : Option ℕ) :
    Attempts k T (if replays H k x (.call ⟨.replay tenant id d, fault⟩) then 0 else n)
      { x with store := ((Op.replay tenant id d).exec H fault x.store).2 } := by
  have hpaired := h.paired.change ((Op.replay tenant id d).change H fault x.store)
  have hout := replay_exec (H := H) tenant id d fault x.store
  suffices hall : ∀ y : Except Err Unit × Store, ReplayOut tenant id d x.store y → Paired y.2 →
      Attempts k T (if decide ((tenant, id) = k) && y.1.isOk then 0 else n) { x with store := y.2 } from
    hall _ hout hpaired
  clear hout hpaired
  intro y hout hpaired
  cases hout with
  | refused e =>
    simp only [Except.isOk, Except.toBool, Bool.and_false, Bool.false_eq_true, if_false]
    exact h
  | reopened dl hd hs ha =>
    obtain ⟨o, ho, -⟩ := h.paired.entry hd
    have hpk : o.pk = (tenant, id) := Table.find?_key ho
    have hpd : dl.pk = (tenant, id) := Table.find?_key hd
    simp only [Except.isOk, Except.toBool, Bool.and_true, decide_eq_true_eq]
    by_cases hk : (tenant, id) = k
    · subst hk
      have he := entry_reopened (replayedAudit tenant id d) hd ho
      rw [if_pos rfl]
      refine ⟨hpaired, ?_, h.tokens, fun i j st o' hj hk he' hh => ?_⟩
      · show Tally 0 (entry _ (tenant, id))
        rw [he]
        exact .entry (by omega) rfl (fun _ => by omega) (by simp [requeuedRow])
      · cases he.symm.trans he'
        exact absurd hh.2 (by simp [requeuedRow])
    · have he : entry { x.store with
          deliveries := x.store.deliveries.put (reopenedRow dl)
          outbox := x.store.outbox.modify (tenant, id) requeuedRow
          audit := x.store.audit.put (replayedAudit tenant id d) } k = entry x.store k := by
        refine entry_congr ?_ ?_
        · exact Table.find?_put_ne (r := reopenedRow dl) fun hr => hk (hpd.symm.trans hr)
        · show (x.store.outbox.modify (tenant, id) requeuedRow).find? k = _
          rw [Table.find?_modify (f := requeuedRow) (fun _ => rfl), if_neg hk]
      rw [if_neg hk]
      refine ⟨hpaired, he ▸ h.tally, h.tokens, fun i j st o' hj hjk he' => ?_⟩
      exact h.held i j st o' hj hjk (he ▸ he')

/-- A worker's transaction that is neither a claim nor a failed attempt. -/
theorem Attempts.byDispatcher (h : Attempts k T n x) {i : ℕ} {op : Op} {fault : Option ℕ}
    {after : Except Err op.Ans → Dispatcher}
    (hclaim : ∀ postgres now owner, op ≠ .claim postgres now owner)
    (hreplay : ∀ tenant id d, op ≠ .replay tenant id d)
    (hfail : ∀ j next d, op = .failJob j next d → job? (x.dispatchers i) = some j)
    (hafter : ∀ a j, job? (after a) = some j → job? (x.dispatchers i) = some j) :
    Attempts k T n (x.byDispatcher H i op fault after) :=
  (h.store (op.change H fault x.store) hclaim hreplay fun j next d hop => ⟨i, hfail j next d hop⟩).move
    (hafter _)

/-- A subscriber's transaction. -/
theorem Attempts.bySubscriber (h : Attempts k T n x) {i : ℕ} {op : Op} {fault : Option ℕ}
    {after : Except Err op.Ans → Subscriber}
    (hclaim : ∀ postgres now owner, op ≠ .claim postgres now owner)
    (hreplay : ∀ tenant id d, op ≠ .replay tenant id d) (hfail : ∀ j next d, op ≠ .failJob j next d) :
    Attempts k T n (x.bySubscriber H i op fault after) :=
  (h.store (op.change H fault x.store) hclaim hreplay fun j next d hop => absurd hop (hfail j next d)).congr
    rfl rfl

theorem job_afterStep {α : Type} {j : Job} {lost : Bool} {ok : Dispatcher}
    (hok : ∀ j', job? ok = some j' → j' = j) (a : Except Err α) (j' : Job)
    (h : job? (afterStep j lost ok a) = some j') : j' = j := by
  unfold afterStep at h
  cases a with
  | error e => cases h; rfl
  | ok _ =>
    cases lost with
    | true => cases h; rfl
    | false => exact hok j' h

/-- A worker's transaction on the job it has. -/
theorem Attempts.work (h : Attempts k T n x) {i : ℕ} {op : Op} {fault : Option ℕ} {j : Job} {lost : Bool}
    {ok : Dispatcher} (hj : job? (x.dispatchers i) = some j)
    (hclaim : ∀ postgres now owner, op ≠ .claim postgres now owner)
    (hreplay : ∀ tenant id d, op ≠ .replay tenant id d) (hfail : ∀ j next d, op ≠ .failJob j next d)
    (hok : ∀ j', job? ok = some j' → j' = j) :
    Attempts k T n (x.byDispatcher H i op fault (afterStep j lost ok)) := by
  refine h.byDispatcher hclaim hreplay (fun j' next d hop => absurd hop (hfail j' next d)) fun a j' hj' => ?_
  rw [hj, job_afterStep hok a j' hj']

/-- A step that is no claim and no replay keeps the count. -/
theorem Attempts.quiet (h : Attempts k T n x) (a : Action) (hforeign : foreign a = true)
    (hclaim : Action.owner? a = none) (hreplay : ∀ tenant id d fault, a ≠ .call ⟨.replay tenant id d, fault⟩) :
    Attempts k T n (x.step H a) := by
  cases a with
  | call c =>
    obtain ⟨op, fault⟩ := c
    show Attempts k T n { x with store := (op.exec H fault x.store).2 }
    cases op with
    | replay tenant id d => exact absurd rfl (hreplay tenant id d fault)
    | claim => cases hforeign
    | dispatched => cases hforeign
    | failJob => cases hforeign
    | _ => exact h.store (Op.change H _ fault x.store) (by simp) (by simp) (by simp)
  | claim i postgres now owner fault lost => cases hclaim
  | publish i mid data lost =>
    simp only [System.step]
    split
    · next j hj =>
      have hbroker : Attempts k T n { x with broker := x.broker ++ [Worker.publish j mid data] } :=
        h.congr rfl rfl
      refine hbroker.move fun j' hj' => ?_
      rw [show x.dispatchers i = .claimed j from hj]
      cases lost <;> exact hj'
    · exact h
  | dispatched | process | complete =>
    simp only [System.step]
    split
    · next j hj => exact h.work (congrArg job? hj) (by simp) (by simp) (by simp) (by simp [job?])
    · exact h
  | giveUp i =>
    simp only [System.step]
    split
    · next j hj => exact h.move fun j' hj' => by rw [hj]; exact hj'
    · exact h
  | failJob i next d fault =>
    simp only [System.step]
    split
    · next j hj =>
      refine h.byDispatcher (by simp) (by simp) (fun j' next' d' hop => ?_) fun a j' hj' => by cases hj'
      cases hop
      rw [hj]
      rfl
    · exact h
  | crash i =>
    exact h.move fun j hj => by cases hj
  | inspect i =>
    simp only [System.step]
    split
    · split
      · exact h.congr rfl rfl
      · exact h
    · exact h
  | consume | settle =>
    simp only [System.step]
    split
    · split
      · exact h
      · exact h.bySubscriber (by simp) (by simp) (by simp)
    · exact h
  | quarantine i postgres now fault lost =>
    simp only [System.step]
    split
    · exact h.bySubscriber (by simp) (by simp) (by simp)
    · exact h
  | deliver | ack =>
    simp only [System.step]
    split
    · exact h.congr rfl rfl
    · exact h
  | nack i =>
    exact h.congr rfl rfl

/-- **One step keeps the invariant.** -/
theorem Attempts.step (h : Attempts k T n x) (a : Action) (hforeign : foreign a = true)
    (hfresh : ∀ owner, Action.owner? a = some owner → owner ∉ T) (htime : inTime k x a = true) :
    Attempts k (T ++ (Action.owner? a).toList)
      (if replays H k x a then 0 else if hands H k x a then n + 1 else n) (x.step H a) := by
  have hT : T ++ (none : Option String).toList = T := List.append_nil T
  cases a with
  | claim i postgres now owner fault lost =>
    have hnew : owner ∉ T := hfresh owner rfl
    cases hp : x.dispatchers i with
    | idle =>
      have hlate : overdue k x.store now = false := by simpa only [inTime, hp, Bool.not_eq_true'] using htime
      have hstep : x.step H (.claim i postgres now owner fault lost) =
          x.byDispatcher H i (.claim postgres now owner) fault (afterClaim lost) := by
        simp only [System.step, hp]
      rw [hstep]
      exact h.claim hp hnew hlate
    | _ =>
      have hstep : x.step H (.claim i postgres now owner fault lost) = x := by simp only [System.step, hp]
      have hno : hands H k x (.claim i postgres now owner fault lost) = false := by simp only [hands, hp]
      rw [hstep, hno]
      exact h.mono (List.subset_append_left _ _)
  | call c =>
    show Attempts k (T ++ (none : Option String).toList) _ _
    rw [hT]
    obtain ⟨op, fault⟩ := c
    cases op with
    | replay tenant id d => exact h.replay tenant id d fault
    | _ => exact h.quiet _ hforeign rfl (by simp)
  | _ =>
    show Attempts k (T ++ (none : Option String).toList) _ _
    rw [hT]
    exact h.quiet _ hforeign rfl (by simp)

/-- **A run keeps the invariant**, and the count is the number of handouts. -/
theorem Attempts.run : ∀ (as : List Action) {T : List String} {n : ℕ} {x : System}, Attempts k T n x →
    (∀ a ∈ as, foreign a = true) → (T ++ as.filterMap Action.owner?).Nodup → along H (inTime k) as x = true →
    ∃ T', Attempts k T' (handouts H k as x n) (System.run H as x)
  | [], T, n, x, h, _, _, _ => ⟨T, h⟩
  | a :: as, T, n, x, h, hforeign, hnodup, htime => by
    rw [along, Bool.and_eq_true] at htime
    have htokens : T ++ (a :: as).filterMap Action.owner? =
        (T ++ (Action.owner? a).toList) ++ as.filterMap Action.owner? := by
      rw [List.append_assoc]
      congr 1
      cases ha : Action.owner? a with
      | none => simp [ha]
      | some owner => simp [ha]
    rw [htokens] at hnodup
    have hfresh : ∀ owner, Action.owner? a = some owner → owner ∉ T := by
      intro owner howner hmem
      have hleft := (List.nodup_append.mp hnodup).1
      rw [howner] at hleft
      exact (List.nodup_append.mp hleft).2.2 owner hmem owner (List.mem_singleton_self _) rfl
    have hone := h.step (H := H) a (hforeign a List.mem_cons_self) hfresh htime.1
    exact Attempts.run as hone (fun b hb => hforeign b (List.mem_cons_of_mem a hb)) hnodup htime.2

end Step

/-! ### Burials -/

/-- **What the history says of a failed delivery**: its intent is dead, or done after that, and since its
last `Replay` there was a state with the delivery failed and the intent dead. -/
def Spent (b : Bool) (e : Option Entry) : Prop :=
  ∀ st o, e = some (st, o) → st = .failed → b = true ∧ (o.state = .dead ∨ o.state = .done)

section Burial

variable {H : Digest} {k : Key2} {b : Bool} {x : System}

/-- A move that leaves a failed delivery buries it, or finds it buried. -/
theorem Spent.move {op : Op} {e e' : Option Entry} (h : Spent b e) (hm : Move k op e e') :
    Spent (b || buried e') e' := by
  intro st o he hf
  subst he hf
  have hkept : ∀ o', e = some (.failed, o') → b = true ∧ (o'.state = .dead ∨ o'.state = .done) :=
    fun o' he => h .failed o' he rfl
  cases hm with
  | same =>
    obtain ⟨hb, hs⟩ := hkept o rfl
    exact ⟨by rw [hb, Bool.true_or], hs⟩
  | judged _ _ hf => exact absurd rfl hf
  | @leased _ now _ o _ hdue =>
    -- a due intent is neither dead nor done
    obtain ⟨-, hs⟩ := hkept o rfl
    simp only [OutboxRow.due, Bool.and_eq_true, Bool.or_eq_true, beq_iff_eq] at hdue
    rcases hdue.1.1 with hd | hd <;> rw [hd] at hs <;> simp at hs
  | @dispatched _ o _ _ hj | @retried _ _ _ o _ _ hj =>
    obtain ⟨-, hs⟩ := hkept o rfl
    rw [hj.2] at hs
    simp at hs
  | @finished _ _ o =>
    obtain ⟨hb, -⟩ := hkept o rfl
    exact ⟨by rw [hb, Bool.true_or], Or.inr rfl⟩
  | @died _ _ _ o _ _ _ _ hs =>
    refine ⟨?_, Or.inl hs⟩
    rw [show buried (some (.failed, failedRow o _ _)) = true from by simp [buried, failedRow, freedRow, hs],
      Bool.or_true]

/-- One step is one transaction of the store, or leaves it alone. -/
theorem step_store (H : Digest) (x : System) (a : Action) :
    (x.step H a).store = x.store ∨ ∃ op fault, (x.step H a).store = (Op.exec H op fault x.store).2 := by
  cases a with
  | call c => exact Or.inr ⟨c.op, c.fault, rfl⟩
  | publish i _ _ _ | giveUp i | crash i | deliver i _ | inspect i | ack i | nack i =>
    left
    simp only [System.step]
    repeat' split
    all_goals rfl
  | _ =>
    simp only [System.step]
    repeat' split
    all_goals first
      | exact Or.inl rfl
      | exact Or.inr ⟨_, _, rfl⟩

/-- **One step moves every entry.** -/
theorem step_move (hp : Paired x.store) (a : Action) :
    Paired (x.step H a).store ∧ ∃ op, Move k op (entry x.store k) (entry (x.step H a).store k) := by
  rcases step_store H x a with hs | ⟨op, fault, hs⟩
  · rw [hs]
    exact ⟨hp, .seed "", .same _ _⟩
  · rw [hs]
    have hc := op.change H fault x.store
    exact ⟨hp.change hc, op, move_of_change hp hc k⟩

/-- A `Replay` that succeeds leaves its delivery accepted. -/
theorem entry_of_replays (hp : Paired x.store) {a : Action} (h : replays H k x a = true) :
    ∃ o, entry (x.step H a).store k = some (.accepted, o) := by
  cases a with
  | call c =>
    obtain ⟨op, fault⟩ := c
    cases op with
    | replay tenant id d =>
      have hout := replay_exec (H := H) tenant id d fault x.store
      simp only [replays, Bool.and_eq_true, decide_eq_true_eq] at h
      obtain ⟨rfl, hok⟩ := h
      show ∃ o, entry ((Op.replay tenant id d).exec H fault x.store).2 (tenant, id) = _
      generalize (Op.replay tenant id d).exec H fault x.store = y at hout hok
      cases hout with
      | refused e => cases hok
      | reopened dl hd hs ha =>
        obtain ⟨o, ho, -⟩ := hp.entry hd
        exact ⟨requeuedRow o, entry_reopened _ hd ho⟩
    | _ => cases h
  | _ => cases h

/-- **One step keeps the history.** -/
theorem Spent.step (h : Spent b (entry x.store k)) (hp : Paired x.store) (a : Action) :
    Spent (!replays H k x a && (b || buried (entry (x.step H a).store k)))
      (entry (x.step H a).store k) := by
  cases hr : replays H k x a with
  | true =>
    intro st o he hf
    obtain ⟨o', he'⟩ := entry_of_replays hp hr
    cases he.symm.trans he'
    cases hf
  | false =>
    obtain ⟨-, op, hm⟩ := step_move (H := H) (k := k) hp a
    exact h.move hm

/-- **A run keeps the history.** -/
theorem Spent.run : ∀ (as : List Action) {b : Bool} {x : System}, Spent b (entry x.store k) →
    Paired x.store → Spent (buries H k as x b) (entry (System.run H as x).store k)
  | [], _, _, h, _ => h
  | a :: as, _, _, h, hp => Spent.run as (h.step hp a) (step_move (k := k) hp a).1

end Burial

/-! ### The fifth attempt -/

end Afterglow.Pipeline.Retries
