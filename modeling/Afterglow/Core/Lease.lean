import Afterglow.Core.Intent

/-! # Leases and their fences

A claim leases an intent for thirty seconds under an owner token that is never drawn again. Until the
lease is given up, no claim with an earlier clock takes the intent, whatever the clocks of the workers do:
a lease that is taken over runs longer (`Leased.step`). It is given up by its holder, by the end of the
delivery or by a replay (`frees`). A worker whose lease was taken over or given up is fenced off: its
token does not come back (`Unowned.step`), and without it `Dispatched` and `FailJob` change nothing. -/

namespace Afterglow.Core.Lease

open Afterglow.Sql.Rows Afterglow.Sql.Txn Afterglow.Core.Model Afterglow.Core.Statements
open Afterglow.Core.Store Afterglow.Core.Outcome Afterglow.Core.Run Afterglow.Core.Intent

/-! ### Claims -/

/-- The owner token a call draws. -/
def owner? : Call → Option String
  | ⟨.claim _ _ owner, _⟩ => some owner
  | _ => none

/-- What a claim answers in the store `s`. -/
def claimed (H : Digest) (s : Store) (postgres : Bool) (now : Int) (owner : String) (fault : Option ℕ) :
    Except Err (Option Job) := ((Op.claim postgres now owner).exec H fault s).1

/-- The owner, if the call is a claim that returns delivery `k`. -/
def claimant (H : Digest) (k : Key2) (s : Store) : Call → Option String
  | ⟨.claim postgres now owner, fault⟩ =>
    match claimed H s postgres now owner fault with
    | .ok (some j) => if (j.tenant, j.id) = k then some owner else none
    | _ => none
  | _ => none

/-- The owners of the claims of a run that return delivery `k`. -/
def claimants (H : Digest) (k : Key2) : List Call → Store → List String
  | [], _ => []
  | c :: cs, s => (claimant H k s c).toList ++ claimants H k cs (c.step H s)

/-- **A call that gives up the lease of delivery `k`**: a `Dispatched` or a `FailJob` by one of `owners`, a
`Complete` or a `Replay`, and it takes effect. -/
def frees (H : Digest) (k : Key2) (owners : List String) (s : Store) (c : Call) : Prop :=
  c.step H s ≠ s ∧
    match c.op with
    | .dispatched j => (j.tenant, j.id) = k ∧ j.owner ∈ owners
    | .failJob j _ _ => (j.tenant, j.id) = k ∧ j.owner ∈ owners
    | .complete tenant id => (tenant, id) = k
    | .replay tenant id _ => (tenant, id) = k
    | _ => False

section Claim

variable {H : Digest} {s : Store}

theorem claim_exec (postgres : Bool) (now : Int) (owner : String) (fault : Option ℕ) :
    ClaimOut postgres now owner s ((Op.claim postgres now owner).exec H fault s) := by
  rcases (Op.claim postgres now owner).exec_cases H fault s with hx | hx
  · rw [hx]; exact claim_out postgres now owner s
  · rw [hx]; exact .refused _

/-- **What a claim that returns a job did**: the intent was due, and it is leased now. -/
theorem leased_of_claim {postgres : Bool} {now : Int} {owner : String} {j : Job}
    {x : Except Err (Option Job) × Store} (hout : ClaimOut postgres now owner s x)
    (h : x.1 = .ok (some j)) :
    ∃ o, s.outbox.find? (j.tenant, j.id) = some o ∧ OutboxRow.due now o = true ∧
      x.2.outbox.find? (j.tenant, j.id) = some (leasedRow o owner now) := by
  cases hout with
  | refused e => cases h
  | idle => cases h
  | claimed o trace ho =>
    cases h
    obtain ⟨hfind, hdue⟩ := claimable_mem ho
    exact ⟨o, hfind, hdue, Table.find?_put_self _ (leasedRow o owner now)⟩

/-- A claim that does not return delivery `k` leaves its intent as it is. -/
theorem claim_other {k : Key2} {postgres : Bool} {now : Int} {owner : String}
    {x : Except Err (Option Job) × Store} (hout : ClaimOut postgres now owner s x)
    (h : ∀ j, x.1 = .ok (some j) → (j.tenant, j.id) ≠ k) :
    x.2.outbox.find? k = s.outbox.find? k := by
  cases hout with
  | refused e => rfl
  | idle => rfl
  | claimed o trace ho => exact Table.find?_put_ne (h _ rfl)

/-- **What a claim does to the intent of delivery `k`**: nothing, or it returns the delivery. -/
theorem claim_cases (k : Key2) (postgres : Bool) (now : Int) (owner : String) (fault : Option ℕ) :
    claimant H k s ⟨.claim postgres now owner, fault⟩ = none ∧
      ((Op.claim postgres now owner).exec H fault s).2.outbox.find? k = s.outbox.find? k ∨
    claimant H k s ⟨.claim postgres now owner, fault⟩ = some owner ∧
      ∃ o, s.outbox.find? k = some o ∧ OutboxRow.due now o = true ∧
        ((Op.claim postgres now owner).exec H fault s).2.outbox.find? k =
          some (leasedRow o owner now) := by
  have hout := claim_exec (H := H) (s := s) postgres now owner fault
  by_cases hk : ∃ j, claimed H s postgres now owner fault = .ok (some j) ∧ (j.tenant, j.id) = k
  · obtain ⟨j, hj, rfl⟩ := hk
    refine Or.inr ⟨?_, leased_of_claim hout hj⟩
    simp only [claimant, hj, if_true]
  · have hno : ∀ j, claimed H s postgres now owner fault = .ok (some j) → (j.tenant, j.id) ≠ k :=
      fun j hj hjk => hk ⟨j, hj, hjk⟩
    refine Or.inl ⟨?_, claim_other hout hno⟩
    simp only [claimant]
    split
    · next j hj => exact if_neg (hno j hj)
    · rfl

end Claim

/-! ### A lease lasts -/

/-- The intent of delivery `k` is leased until `limit` at least, by one of `owners`. -/
def Leased (k : Key2) (limit : Int) (owners : List String) (s : Store) : Prop :=
  ∃ o, s.outbox.find? k = some o ∧ o.state = .leased ∧ limit ≤ o.leaseUntil ∧ o.owner ∈ owners

section Lease

variable {H : Digest} {s : Store} {k : Key2} {limit : Int} {owners : List String}

/-- A call that moves the entry of `k` takes effect. -/
theorem step_ne {c : Call} {status status' : Status} {o o' : OutboxRow}
    (he : entry s k = some (status, o)) (he' : entry (c.step H s) k = some (status', o'))
    (hs : o'.state ≠ o.state) : c.step H s ≠ s := by
  intro heq
  rw [heq, he] at he'
  cases he'
  exact hs rfl

/-- **One call leaves a lease standing or gives it up.** -/
theorem Leased.step (h : Leased k limit owners s) (hp : Paired s) (c : Call) :
    Leased k limit (owners ++ (claimant H k s c).toList) (c.step H s) ∨ frees H k owners s c := by
  obtain ⟨o, ho, hst, hlim, hown⟩ := h
  obtain ⟨d, hd, he⟩ := hp.entry_of_outbox ho
  generalize d.status = status at he
  obtain ⟨op, fault⟩ := c
  have hkeep : ∀ {s' : Store}, s'.outbox.find? k = some o →
      Leased k limit (owners ++ (claimant H k s ⟨op, fault⟩).toList) s' := fun ho' =>
    ⟨o, ho', hst, hlim, List.mem_append_left _ hown⟩
  have hclaim : ∀ postgres now owner, op = .claim postgres now owner →
      Leased k limit (owners ++ (claimant H k s ⟨op, fault⟩).toList) (Call.step H s ⟨op, fault⟩) := by
    rintro postgres now owner rfl
    rcases claim_cases (H := H) (s := s) k postgres now owner fault with ⟨-, hsame⟩ | ⟨hcl, x, hx, hdue, hnew⟩
    · exact hkeep (hsame.trans ho)
    · -- the lease taken over had run out, so the new one runs longer
      cases ho.symm.trans hx
      rw [hcl]
      refine ⟨leasedRow o owner now, hnew, rfl, ?_, by simp [leasedRow]⟩
      have hrun : o.leaseUntil ≤ now := by
        simp only [OutboxRow.due, Bool.and_eq_true, decide_eq_true_eq] at hdue
        exact hdue.2
      show limit ≤ now + 30000
      omega
  have hm := move_of_change hp (op.change H fault s) k
  rw [he] at hm
  generalize hy : entry (op.exec H fault s).2 k = y at hm
  have hfind : ∀ {st : Status} {x : OutboxRow}, y = some (st, x) →
      (op.exec H fault s).2.outbox.find? k = some x := fun hyx => by
    obtain ⟨-, -, -, hx⟩ := entry_some.mp (hy.trans hyx)
    exact hx
  cases hm with
  | same => exact Or.inl (hkeep (hfind rfl))
  | judged hk hs => exact Or.inl (hkeep (hfind rfl))
  | leased hdue => exact Or.inl (hclaim _ _ _ rfl)
  | @dispatched j _ _ hk hj =>
    exact Or.inr ⟨step_ne he hy (by rw [hst]; simp [freedRow]), hk, hj.1 ▸ hown⟩
  | finished hk hs => exact Or.inr ⟨step_ne he hy (by rw [hst]; simp [freedRow]), hk⟩
  | @retried j next _ _ _ hk hj hs =>
    exact Or.inr ⟨step_ne he hy (by rw [hst]; simp [failedRow, freedRow, hs]), hk, hj.1 ▸ hown⟩
  | @died j next _ _ _ _ hk hj hs hst' =>
    exact Or.inr ⟨step_ne he hy (by rw [hst]; simp [failedRow, freedRow, hs]), hk, hj.1 ▸ hown⟩
  | reopened hk => exact Or.inr ⟨step_ne he hy (by rw [hst]; simp [requeuedRow]), hk⟩

/-- **A run leaves a lease standing, or one of its calls gives it up.** -/
theorem Leased.run : ∀ (cs : List Call) (s : Store) (owners : List String), Paired s →
    Leased k limit owners s →
    Leased k limit (owners ++ claimants H k cs s) (Run.run H cs s) ∨
      ∃ a c b, cs = a ++ c :: b ∧ frees H k (owners ++ claimants H k a s) (Run.run H a s) c
  | [], s, owners, _, h => Or.inl (by rw [claimants, List.append_nil]; exact h)
  | c :: cs, s, owners, hp, h => by
    rcases h.step (H := H) hp c with h | h
    · have hp' : Paired (c.step H s) := hp.change (c.op.change H c.fault s)
      rcases Leased.run cs (c.step H s) _ hp' h with h | ⟨a, x, b, rfl, h⟩
      · left
        rw [List.append_assoc] at h
        exact h
      · refine Or.inr ⟨c :: a, x, b, rfl, ?_⟩
        rw [List.append_assoc] at h
        exact h
    · exact Or.inr ⟨[], c, cs, rfl, by rw [claimants, List.append_nil]; exact h⟩

end Lease

/-! ### A token does not come back -/

/-- The intent of delivery `k` is not owned by `owner`. -/
def Unowned (k : Key2) (owner : String) (s : Store) : Prop :=
  ∀ o, s.outbox.find? k = some o → o.owner ≠ owner

section Fence

variable {H : Digest} {s : Store} {k : Key2} {owner : String}

/-- **Only a claim that draws the token brings it back.** -/
theorem Unowned.step (h : Unowned k owner s) (hp : Paired s) (hne : owner ≠ "") {c : Call}
    (hc : owner? c ≠ some owner) : Unowned k owner (c.step H s) := by
  obtain ⟨op, fault⟩ := c
  have hp' : Paired (op.exec H fault s).2 := hp.change (op.change H fault s)
  intro o' ho'
  obtain ⟨d', hd', he'⟩ := hp'.entry_of_outbox ho'
  generalize d'.status = status at he'
  have hm := move_of_change hp (op.change H fault s) k
  rw [he'] at hm
  generalize hx : entry s k = x at hm
  have hold : ∀ {st : Status} {o : OutboxRow}, x = some (st, o) → o.owner ≠ owner := fun hxo => by
    obtain ⟨-, -, -, ho⟩ := entry_some.mp (hx.trans hxo)
    exact h _ ho
  generalize hy : some (status, o') = y at hm
  cases hm with
  | same => exact hold hy.symm
  | born hk => cases hy; exact hne.symm
  | judged hk hs => cases hy; exact hold rfl
  | leased hdue => cases hy; exact fun heq => hc (congrArg some heq)
  | dispatched hk hj => cases hy; exact hne.symm
  | finished hk hs => cases hy; exact hne.symm
  | retried hk hj hs => cases hy; exact hne.symm
  | died hk hj hs hst => cases hy; exact hne.symm
  | reopened hk => cases hy; exact hne.symm

theorem Unowned.run (hne : owner ≠ "") : ∀ (cs : List Call) (s : Store), Paired s →
    (∀ c ∈ cs, owner? c ≠ some owner) → Unowned k owner s → Unowned k owner (Run.run H cs s)
  | [], _, _, _, h => h
  | c :: cs, s, hp, hc, h =>
    Unowned.run hne cs (c.step H s) (hp.change (c.op.change H c.fault s))
      (fun x hx => hc x (List.mem_cons_of_mem _ hx)) (h.step hp hne (hc c List.mem_cons_self))

theorem same_of_dispatched {j : Job} (h : Unowned (j.tenant, j.id) j.owner s)
    {x : Except Err Unit × Store} (hout : DispatchedOut j s x) : x.2 = s := by
  cases hout with
  | idle => rfl
  | marked o ho hj => exact absurd hj.1 (h o ho)

theorem same_of_failJob {j : Job} (h : Unowned (j.tenant, j.id) j.owner s) {next : Int} {d : Stamp}
    {x : Except Err Unit × Store} (hout : FailOut j next d s x) : x.2 = s := by
  cases hout with
  | refused => rfl
  | idle => rfl
  | retried o ho hj => exact absurd hj.1 (h o ho)
  | died o ho hj => exact absurd hj.1 (h o ho)

/-- **Without its token a worker's `Dispatched` changes nothing.** -/
theorem Unowned.dispatched {j : Job} (h : Unowned (j.tenant, j.id) j.owner s) (fault : Option ℕ) :
    ((Op.dispatched j).exec H fault s).2 = s := by
  rcases (Op.dispatched j).exec_cases H fault s with hx | hx
  · rw [hx]; exact same_of_dispatched h (dispatched_out j s)
  · rw [hx]

/-- **Without its token a worker's `FailJob` changes nothing**, however many attempts it has counted. -/
theorem Unowned.failJob {j : Job} (h : Unowned (j.tenant, j.id) j.owner s) (next : Int) (d : Stamp)
    (fault : Option ℕ) : ((Op.failJob j next d).exec H fault s).2 = s := by
  rcases (Op.failJob j next d).exec_cases H fault s with hx | hx
  · rw [hx]; exact same_of_failJob h (failJob_out j next d s)
  · rw [hx]

end Fence

/-! ### Runs -/

theorem paired_run (H : Digest) (cs : List Call) : Paired (run H cs Store.empty) :=
  run_invariant (A := fun _ => True) (fun _ _ _ _ h hc => h.change hc) cs _ (fun _ _ => trivial)
    Paired.empty

/-- A claim that returns a job leases its intent for thirty seconds. -/
theorem leased_after_claim {H : Digest} {s : Store} {postgres : Bool} {now : Int} {owner : String}
    {fault : Option ℕ} {j : Job} (h : claimed H s postgres now owner fault = .ok (some j)) :
    Leased (j.tenant, j.id) (now + 30000) [owner] ((Op.claim postgres now owner).exec H fault s).2 := by
  obtain ⟨o, -, -, hnew⟩ := leased_of_claim (claim_exec postgres now owner fault) h
  exact ⟨leasedRow o owner now, hnew, rfl, le_refl _, List.mem_singleton_self _⟩

/-- A claim returns no delivery that is leased for longer. -/
theorem Leased.not_claimed {H : Digest} {s : Store} {limit : Int} {owners : List String}
    {postgres : Bool} {now : Int} {owner : String} {fault : Option ℕ} {j : Job}
    (h : Leased (j.tenant, j.id) limit owners s) (hnow : now < limit) :
    claimed H s postgres now owner fault ≠ .ok (some j) := by
  intro hj
  obtain ⟨o, ho, -, hlim, -⟩ := h
  obtain ⟨x, hx, hdue, -⟩ := leased_of_claim (claim_exec postgres now owner fault) hj
  cases ho.symm.trans hx
  simp only [OutboxRow.due, Bool.and_eq_true, decide_eq_true_eq] at hdue
  omega

/-- **Leases are exclusive, and they fence.** A claim at clock `t` returns job `j` under the token `owner`;
the calls `mid` and then `post` follow, by any workers and with any clocks. After `mid` no claim at a
clock before `t + 30000` returns the same delivery, unless a call of `mid` gave the lease up: a
`Dispatched` or a `FailJob` by `owner` or by one that claimed the delivery since, a `Complete` or a
`Replay`. And if after `mid` the intent is not owned by `owner`, then after `post` a `Dispatched` or a
`FailJob` with that job changes nothing, whatever its attempts. -/
theorem lease_exclusive_fenced (H : Digest) (pre mid post : List Call) (postgres : Bool) (t : Int)
    (owner : String) (fault : Option ℕ) (j : Job)
    (hdistinct : ((pre ++ ⟨.claim postgres t owner, fault⟩ :: (mid ++ post)).filterMap owner?).Nodup)
    (hne : "" ∉ (pre ++ ⟨.claim postgres t owner, fault⟩ :: (mid ++ post)).filterMap owner?)
    (hj : claimed H (run H pre .empty) postgres t owner fault = .ok (some j)) :
    let s := Call.step H (run H pre .empty) ⟨.claim postgres t owner, fault⟩
    (∀ postgres' t' owner' fault' j',
      claimed H (run H mid s) postgres' t' owner' fault' = .ok (some j') →
      (j'.tenant, j'.id) = (j.tenant, j.id) → t' < t + 30000 →
      ∃ a c b, mid = a ++ c :: b ∧
        frees H (j.tenant, j.id) (owner :: claimants H (j.tenant, j.id) a s) (run H a s) c) ∧
    ((∀ o, (run H mid s).outbox.find? (j.tenant, j.id) = some o → o.owner ≠ owner) →
      ∀ attempts trace fault',
        ((Op.dispatched ⟨j.tenant, j.id, owner, attempts, trace⟩).exec H fault'
          (run H post (run H mid s))).2 = run H post (run H mid s) ∧
        ∀ next d, ((Op.failJob ⟨j.tenant, j.id, owner, attempts, trace⟩ next d).exec H fault'
          (run H post (run H mid s))).2 = run H post (run H mid s)) := by
  intro s
  have hp : Paired s := (paired_run H pre).change (Op.change H _ fault _)
  have hlease : Leased (j.tenant, j.id) (t + 30000) [owner] s := leased_after_claim hj
  refine ⟨fun postgres' t' owner' fault' j' hj' hk ht => ?_, fun hun attempts trace fault' => ?_⟩
  · rcases hlease.run (H := H) mid s [owner] hp with hlast | hfreed
    · rw [← hk] at hlast
      exact absurd hj' (hlast.not_claimed ht)
    · exact hfreed
  · have hpm : Paired (run H mid s) :=
      run_invariant (A := fun _ => True) (fun _ _ _ _ h hc => h.change hc) mid s (fun _ _ => trivial) hp
    have htokens : (pre ++ ⟨.claim postgres t owner, fault⟩ :: (mid ++ post)).filterMap owner? =
        pre.filterMap owner? ++ owner :: (mid.filterMap owner? ++ post.filterMap owner?) := by
      simp [owner?]
    rw [htokens] at hdistinct hne
    have htoken : owner ≠ "" := by
      rintro rfl
      exact hne (List.mem_append_right _ List.mem_cons_self)
    have hlater : ∀ c ∈ post, owner? c ≠ some owner := by
      intro c hc hown
      have hmem : owner ∈ post.filterMap owner? := List.mem_filterMap.mpr ⟨c, hc, hown⟩
      have hnot := (List.nodup_cons.mp (List.nodup_append.mp hdistinct).2.1).1
      exact hnot (List.mem_append_right _ hmem)
    have hfence : Unowned (j.tenant, j.id) owner (run H post (run H mid s)) :=
      Unowned.run htoken post _ hpm hlater hun
    exact ⟨Unowned.dispatched (j := ⟨j.tenant, j.id, owner, attempts, trace⟩) hfence fault',
      fun next d => Unowned.failJob (j := ⟨j.tenant, j.id, owner, attempts, trace⟩) hfence next d fault'⟩

/-- Digests that tell events apart by their names. -/
def byEventName : Digest := ⟨fun _ => "", fun r => r.eventID⟩

/-- One receipt is accepted. -/
def oneReceipt : List Call :=
  [⟨.accept "demo" ⟨1, "event", "hold", "sea-01", 0, 5000⟩ ⟨"d1", 0, [], ⟨"a1", 0⟩⟩, none⟩]

/-- A second worker claims the delivery when the lease has run out, and its attempt fails. -/
def takenOver : List Call :=
  [⟨.claim false 30000 "o2", none⟩, ⟨.failJob ⟨"demo", "d1", "o2", 2, []⟩ 0 ⟨"a2", 0⟩, none⟩]

theorem lease_exclusive_fenced_takenOver :
    let s := Call.step byEventName (run byEventName oneReceipt .empty) ⟨.claim false 0 "o1", none⟩
    (∃ a c b, takenOver = a ++ c :: b ∧ frees byEventName ("demo", "d1")
      ("o1" :: claimants byEventName ("demo", "d1") a s) (run byEventName a s) c) ∧
    ((Op.dispatched ⟨"demo", "d1", "o1", 1, []⟩).exec byEventName none (run byEventName takenOver s)).2 =
      run byEventName takenOver s := by
  intro s
  obtain ⟨hexcl, hfence⟩ := lease_exclusive_fenced byEventName oneReceipt takenOver [] false 0 "o1" none
    ⟨"demo", "d1", "o1", 1, []⟩ (by decide) (by decide) (by decide +kernel)
  have hthird : claimed byEventName (run byEventName takenOver s) false 0 "o3" none =
      .ok (some ⟨"demo", "d1", "o3", 3, []⟩) := by decide +kernel
  have hrow : (run byEventName takenOver s).outbox.find? ("demo", "d1") =
      some ⟨"demo", "d1", .pending, "", 0, 0, 2⟩ := by decide +kernel
  have hun : ∀ o, (run byEventName takenOver s).outbox.find? ("demo", "d1") = some o → o.owner ≠ "o1" := by
    intro o ho
    rw [hrow] at ho
    cases ho
    decide
  have hstale := (hfence hun 1 [] none).1
  -- stated for any store: on this one `rfl` would evaluate the run
  have hpost : ∀ t, run byEventName [] t = t := fun _ => rfl
  rw [hpost] at hstale
  exact ⟨hexcl false 0 "o3" none ⟨"demo", "d1", "o3", 3, []⟩ hthird rfl (by decide), hstale⟩

/-- **The lease of the first worker alone does not exclude**: a second worker takes the delivery over and
gives it up, and a third one whose clock is behind claims it at once. Of the calls in between none is a
`Dispatched` or a `FailJob` by the first worker, a `Complete` or a `Replay`. -/
theorem lease_given_up_by_second :
    let s := Call.step byEventName (run byEventName oneReceipt .empty) ⟨.claim false 0 "o1", none⟩
    (["o1", "o2", "o3"].Nodup ∧ "" ∉ ["o1", "o2", "o3"]) ∧
    claimed byEventName (run byEventName oneReceipt .empty) false 0 "o1" none =
      .ok (some ⟨"demo", "d1", "o1", 1, []⟩) ∧
    claimed byEventName (run byEventName takenOver s) false 0 "o3" none =
      .ok (some ⟨"demo", "d1", "o3", 3, []⟩) ∧
    ¬ ∃ a c b, takenOver = a ++ c :: b ∧ frees byEventName ("demo", "d1") ["o1"] (run byEventName a s) c := by
  intro s
  refine ⟨by decide, by decide +kernel, by decide +kernel, ?_⟩
  rintro ⟨a, c, b, hsplit, -, hc⟩
  rcases a with - | ⟨x, - | ⟨y, a⟩⟩
  · cases hsplit
    exact hc
  · cases hsplit
    exact absurd hc.2 (by decide)
  · have hlen := congrArg List.length hsplit
    simp [takenOver] at hlen

end Afterglow.Core.Lease
