import Afterglow.Core.Receipts

/-! # Batches of receipts

`Server.acceptBatch` accepts up to fifty receipts, each in a transaction of its own. The JSON decoder of one
item is an argument: any function of the item's bytes. After a batch without storage failures the store
knows the fate of every item (`ItemFate`), so the same body submitted again finds every item known, at
whatever point of whatever run: it answers alike and writes nothing. -/

namespace Afterglow.Httpapi.Batch

open Afterglow.Sql.Rows Afterglow.Sql.Txn Afterglow.Core.Model Afterglow.Core.Statements
open Afterglow.Core.Store Afterglow.Core.Outcome Afterglow.Core.Run Afterglow.Core.Settlement
open Afterglow.Core.Keys Afterglow.Core.Intent Afterglow.Core.Receipts Afterglow.Localdemo.Reset

/-! ### The handler -/

def maxBatchReceipts : ℕ := 50

structure BatchResult where
  index : ℕ
  status : ℕ
  id : String
  replayed : Bool
  retryable : Bool
  detail : String
  deriving DecidableEq, Repr

structure BatchResponse where
  accepted : ℕ
  rejected : ℕ
  replayed : ℕ
  results : List BatchResult
  deriving DecidableEq, Repr

/-- What the handler writes. -/
inductive Reply
  | problem (code : ℕ) (detail : String)
  | respond (code : ℕ) (out : BatchResponse)
  deriving DecidableEq, Repr

/-- One item of the body, as its bytes. -/
abbrev Raw := List UInt8

/-- What `decode` can meet in a request. -/
inductive Body
  | notJson
  | malformed
  | trailing
  | receipts (items : List Raw)
  deriving DecidableEq, Repr

def decode : Body → Except Reply (List Raw)
  | .notJson => .error (.problem 415 "application_json_required")
  | .malformed => .error (.problem 400 "invalid_json")
  | .trailing => .error (.problem 400 "single_json_object_required")
  | .receipts items => .ok items

/-- `bytes.TrimSpace(raw)[0]`. -/
def firstByte (raw : Raw) : Option UInt8 := (raw.dropWhile fun b => b = 32 || (9 ≤ b && b ≤ 13)).head?

/-- The receipt of an item: a JSON object that the decoder `J` takes. -/
def receipt? (J : Raw → Option Receipt) (raw : Raw) : Option Receipt :=
  if 0 < raw.length ∧ firstByte raw = some 123 then J raw else none

/-- The result of an item that is not a receipt. -/
def invalidItem (i : ℕ) : BatchResult := ⟨i, 400, "", false, false, "invalid_receipt_object"⟩

/-- The result by the answer of `Accept`. -/
def acceptResult (i : ℕ) : Except Err (String × Bool) → BatchResult
  | .ok (id, replayed) => ⟨i, 202, id, replayed, false, "database_and_outbox_committed"⟩
  | .error (.invalid detail) => ⟨i, 422, "", false, false, (Err.invalid detail).text⟩
  | .error .conflict => ⟨i, 409, "", false, false, "event_id_conflicts_with_prior_content"⟩
  | .error _ => ⟨i, 503, "", false, true, "temporarily_unavailable"⟩

/-- What item `i` draws, and the statement at which the database fails, if it does. -/
abbrev Draws := ℕ → AcceptDraw × Option ℕ

section Handler

variable (J : Raw → Option Receipt) (H : Digest) (tenant : String) (draws : Draws)

/-- One item, in its own transaction. -/
def acceptItem (i : ℕ) (raw : Raw) (s : Store) : BatchResult × Store :=
  match receipt? J raw with
  | none => (invalidItem i, s)
  | some r =>
    let (answer, s') := acceptCall H tenant r (draws i).1 (draws i).2 s
    (acceptResult i answer, s')

/-- Count a result and append it: only an accepted item has status 202 or is replayed. -/
def BatchResponse.add (out : BatchResponse) (result : BatchResult) : BatchResponse where
  accepted := if result.status = 202 then out.accepted + 1 else out.accepted
  rejected := if result.status ≠ 202 then out.rejected + 1 else out.rejected
  replayed := if result.replayed then out.replayed + 1 else out.replayed
  results := out.results ++ [result]

/-- The loop over the items, from index `i` on. -/
def acceptAll : ℕ → List Raw → BatchResponse → Store → BatchResponse × Store
  | _, [], out, s => (out, s)
  | i, raw :: items, out, s =>
    let (result, s') := acceptItem J H tenant draws i raw s
    acceptAll (i + 1) items (out.add result) s'

/-- `Server.acceptBatch`; `allowed` is the answer of the rate limiter. -/
def acceptBatch (body : Body) (allowed : Bool) (s : Store) : Reply × Store :=
  match decode body with
  | .error reply => (reply, s)
  | .ok items =>
    if items.length < 1 ∨ maxBatchReceipts < items.length then
      (.problem 422 "receipts_must_contain_1_to_50_items", s)
    else if !allowed then (.problem 429 "batch_rate_limited", s)
    else
      let (out, s') := acceptAll J H tenant draws 0 items ⟨0, 0, 0, []⟩ s
      (.respond (if 0 < out.rejected then 207 else 202) out, s')

end Handler

/-! ### The response -/

section Response

variable {J : Raw → Option Receipt} {H : Digest} {tenant : String} {draws : Draws}

/-- Only an accepted item is replayed. -/
theorem status_of_replayed (i : ℕ) (raw : Raw) (s : Store)
    (h : (acceptItem J H tenant draws i raw s).1.replayed = true) :
    (acceptItem J H tenant draws i raw s).1.status = 202 := by
  revert h
  unfold acceptItem
  cases receipt? J raw with
  | none => intro h; cases h
  | some r =>
    dsimp only
    generalize (acceptCall H tenant r (draws i).1 (draws i).2 s).1 = answer
    rcases answer with (_ | _ | _ | _ | _) | ⟨id, replayed⟩
    all_goals first | (intro h; cases h; done) | (intro _; rfl)

theorem index_acceptItem (i : ℕ) (raw : Raw) (s : Store) :
    (acceptItem J H tenant draws i raw s).1.index = i := by
  unfold acceptItem
  cases receipt? J raw with
  | none => rfl
  | some r =>
    dsimp only
    generalize (acceptCall H tenant r (draws i).1 (draws i).2 s).1 = answer
    rcases answer with (_ | _ | _ | _ | _) | ⟨id, replayed⟩ <;> rfl

/-- **The counts agree with the results.** -/
structure Tallied (i : ℕ) (out : BatchResponse) : Prop where
  indices : out.results.map BatchResult.index = List.range i
  total : out.accepted + out.rejected = i
  replayed : out.replayed ≤ out.accepted
  rejected : out.rejected = 0 ↔ ∀ r ∈ out.results, r.status = 202

theorem Tallied.add {i : ℕ} {out : BatchResponse} (h : Tallied i out) {result : BatchResult}
    (hi : result.index = i) (hr : result.replayed = true → result.status = 202) :
    Tallied (i + 1) (out.add result) := by
  have htotal := h.total
  have hreplayed := h.replayed
  refine ⟨?_, ?_, ?_, ?_⟩
  · simp only [BatchResponse.add, List.map_append, List.map_cons, List.map_nil, h.indices, hi]
    exact List.range_succ.symm
  · simp only [BatchResponse.add]
    split_ifs <;> omega
  · simp only [BatchResponse.add]
    split_ifs with h₁ h₂ h₃
    · omega
    · exact absurd (hr h₁) h₂
    · omega
    · omega
  · simp only [BatchResponse.add, List.mem_append, List.mem_singleton]
    by_cases hs : result.status = 202
    · rw [if_neg (not_not.mpr hs), h.rejected]
      constructor
      · rintro hall r (hr | rfl)
        · exact hall r hr
        · exact hs
      · exact fun hall r hr => hall r (Or.inl hr)
    · rw [if_pos hs]
      constructor
      · intro h0; omega
      · exact fun hall => absurd (hall result (Or.inr rfl)) hs

theorem tallied_acceptAll : ∀ (items : List Raw) (i : ℕ) (out : BatchResponse) (s : Store), Tallied i out →
    Tallied (i + items.length) (acceptAll J H tenant draws i items out s).1
  | [], _, _, _, h => h
  | raw :: items, i, out, s, h => by
    have hadd : Tallied (i + 1) (out.add (acceptItem J H tenant draws i raw s).1) :=
      h.add (index_acceptItem i raw s) (status_of_replayed i raw s)
    have hrest := tallied_acceptAll items (i + 1) _ (acceptItem J H tenant draws i raw s).2 hadd
    rw [List.length_cons, ← Nat.add_assoc, Nat.add_right_comm]
    exact hrest

end Response

/-! ### The fate of an item -/

/-- The status and the identifier of an item whose receipt is answered `a`. -/
def statusOf : Except Err String → ℕ × String
  | .ok id => (202, id)
  | .error _ => (409, "")

/-- **What the store knows of an item**, and the status and identifier it is answered with. -/
def ItemFate (J : Raw → Option Receipt) (H : Digest) (tenant : String) (s : Store) (raw : Raw)
    (result : BatchResult) : Prop :=
  match receipt? J raw with
  | none => (result.status, result.id) = (400, "")
  | some r =>
    if validReceipt r then ∃ a, Fate H tenant s r a ∧ (result.status, result.id) = statusOf a
    else (result.status, result.id) = (422, "")

section Fate

variable {J : Raw → Option Receipt} {H : Digest} {tenant : String} {draws : Draws} {s : Store}

theorem ItemFate.run {raw : Raw} {result : BatchResult} (h : ItemFate J H tenant s raw result)
    (hk : Keyed s) (cs : List Call) : ItemFate J H tenant (Core.Run.run H cs s) raw result := by
  unfold ItemFate at h ⊢
  cases hr : receipt? J raw with
  | none => rw [hr] at h; exact h
  | some r =>
    rw [hr] at h
    dsimp only at h ⊢
    split_ifs at h ⊢
    · obtain ⟨a, hf, ha⟩ := h
      exact ⟨a, hf.run hk cs, ha⟩
    · exact h

theorem ItemFate.unique {raw : Raw} {result result' : BatchResult} (h : ItemFate J H tenant s raw result)
    (h' : ItemFate J H tenant s raw result') :
    (result'.status, result'.id) = (result.status, result.id) := by
  unfold ItemFate at h h'
  cases hr : receipt? J raw with
  | none =>
    rw [hr] at h h'
    exact h'.trans h.symm
  | some r =>
    rw [hr] at h h'
    dsimp only at h h'
    split_ifs at h h'
    · obtain ⟨a, hf, ha⟩ := h
      obtain ⟨a', hf', ha'⟩ := h'
      rw [ha, ha', hf.unique hf']
    · exact h'.trans h.symm

/-- The result of a receipt that is answered `a`, apart from the replay flag. -/
theorem acceptResult_of_fate {r : Receipt} {a : Except Err String} {answer : Except Err (String × Bool)}
    (hf : Fate H tenant s r a) (ha : answer.map Prod.fst = a) (i : ℕ) :
    ((acceptResult i answer).status, (acceptResult i answer).id) = statusOf a := by
  subst ha
  rcases answer with e | ⟨id, replayed⟩
  · rcases hf.cases with ⟨id, hid⟩ | he
    · cases hid
    · cases he; rfl
  · rfl

/-- **After an item without a storage failure the store knows its fate.** -/
theorem fate_of_item (hk : Keyed s) (i : ℕ) (raw : Raw)
    (hok : (acceptItem J H tenant draws i raw s).1.status ≠ 503) :
    ItemFate J H tenant (acceptItem J H tenant draws i raw s).2 raw
      (acceptItem J H tenant draws i raw s).1 := by
  revert hok
  unfold acceptItem ItemFate
  cases hr : receipt? J raw with
  | none => exact fun _ => rfl
  | some r =>
    dsimp only
    intro hok
    rcases fate_of_accept (draws i).2 hk with ⟨hv, hx⟩ | ⟨w, hx⟩ | ⟨hv, a, hf, ha⟩
    · rw [hx, hv]; rfl
    · rw [hx] at hok; exact absurd rfl hok
    · rw [if_pos hv]
      exact ⟨a, hf, acceptResult_of_fate hf ha i⟩

/-- **An item whose fate is known changes nothing**, and if it is accepted it is a replay. -/
theorem item_of_fate (hk : Keyed s) {raw : Raw} {result : BatchResult}
    (h : ItemFate J H tenant s raw result) (i : ℕ)
    (hok : (acceptItem J H tenant draws i raw s).1.status ≠ 503) :
    (acceptItem J H tenant draws i raw s).2 = s ∧
      ((acceptItem J H tenant draws i raw s).1.status = 202 →
        (acceptItem J H tenant draws i raw s).1.replayed = true) := by
  revert hok
  unfold ItemFate at h
  unfold acceptItem
  cases hr : receipt? J raw with
  | none => exact fun _ => ⟨rfl, fun h => (by cases h)⟩
  | some r =>
    rw [hr] at h
    dsimp only at h ⊢
    intro hok
    by_cases hv : validReceipt r = true
    · rw [if_pos hv] at h
      obtain ⟨a, hf, -⟩ := h
      rcases accept_known hf hv (draws i).2 with ⟨w, hx⟩ | hx
      · rw [hx] at hok; exact absurd rfl hok
      · rw [hx]
        refine ⟨rfl, ?_⟩
        rcases hf.cases with ⟨id, rfl⟩ | rfl
        · exact fun _ => rfl
        · intro hst; cases hst
    · rcases fate_of_accept (draws i).2 hk with ⟨-, hx⟩ | ⟨w, hx⟩ | ⟨hv', -⟩
      · rw [hx]
        exact ⟨rfl, fun hst => (by cases hst)⟩
      · rw [hx] at hok; exact absurd rfl hok
      · exact absurd hv' hv

end Fate

/-! ### The loop -/

section Loop

variable {J : Raw → Option Receipt} {H : Digest} {tenant : String} {draws : Draws}

theorem acceptAll_cons (i : ℕ) (raw : Raw) (items : List Raw) (out : BatchResponse) (s : Store) :
    acceptAll J H tenant draws i (raw :: items) out s =
      acceptAll J H tenant draws (i + 1) items (out.add (acceptItem J H tenant draws i raw s).1)
        (acceptItem J H tenant draws i raw s).2 := rfl

/-- An item is at most one call of the store. -/
theorem acceptItem_run (i : ℕ) (raw : Raw) (s : Store) :
    ∃ cs, (acceptItem J H tenant draws i raw s).2 = run H cs s := by
  unfold acceptItem
  cases receipt? J raw with
  | none => exact ⟨[], rfl⟩
  | some r => exact ⟨[⟨.accept tenant r (draws i).1, (draws i).2⟩], rfl⟩

/-- **A batch is a run of the store.** -/
theorem acceptAll_run : ∀ (items : List Raw) (i : ℕ) (out : BatchResponse) (s : Store),
    ∃ cs, (acceptAll J H tenant draws i items out s).2 = run H cs s
  | [], _, _, _ => ⟨[], rfl⟩
  | raw :: items, i, out, s => by
    obtain ⟨cs, hcs⟩ : ∃ cs, (acceptItem J H tenant draws i raw s).2 = run H cs s := acceptItem_run i raw s
    obtain ⟨cs', hcs'⟩ := acceptAll_run items (i + 1) (out.add (acceptItem J H tenant draws i raw s).1)
      (acceptItem J H tenant draws i raw s).2
    refine ⟨cs ++ cs', hcs'.trans ?_⟩
    rw [hcs]
    exact List.foldl_append.symm

theorem results_acceptAll : ∀ (items : List Raw) (i : ℕ) (out : BatchResponse) (s : Store),
    ∃ new, (acceptAll J H tenant draws i items out s).1.results = out.results ++ new
  | [], _, out, _ => ⟨[], (List.append_nil _).symm⟩
  | raw :: items, i, out, s => by
    obtain ⟨new, hnew⟩ := results_acceptAll items (i + 1) (out.add (acceptItem J H tenant draws i raw s).1)
      (acceptItem J H tenant draws i raw s).2
    exact ⟨(acceptItem J H tenant draws i raw s).1 :: new, hnew.trans (List.append_assoc _ _ _)⟩

/-- The result of the first item is among the results. -/
theorem mem_results (raw : Raw) (items : List Raw) (i : ℕ) (out : BatchResponse) (s : Store) :
    (acceptItem J H tenant draws i raw s).1 ∈
      (acceptAll J H tenant draws i (raw :: items) out s).1.results := by
  obtain ⟨new, hnew⟩ := results_acceptAll items (i + 1) (out.add (acceptItem J H tenant draws i raw s).1)
    (acceptItem J H tenant draws i raw s).2
  have hmem : (acceptItem J H tenant draws i raw s).1 ∈
      (out.add (acceptItem J H tenant draws i raw s).1).results ++ new :=
    List.mem_append_left _ (List.mem_append_right _ (List.mem_singleton_self _))
  rw [← hnew] at hmem
  exact hmem

/-- **After a batch without storage failures the store knows the fate of every item.** -/
theorem fates_of_acceptAll : ∀ (items : List Raw) (i : ℕ) (out : BatchResponse) (s : Store), Keyed s →
    (∀ r ∈ (acceptAll J H tenant draws i items out s).1.results, r.status ≠ 503) →
    ∃ new, (acceptAll J H tenant draws i items out s).1.results = out.results ++ new ∧
      List.Forall₂ (ItemFate J H tenant (acceptAll J H tenant draws i items out s).2) items new
  | [], _, out, _, _, _ => ⟨[], (List.append_nil _).symm, .nil⟩
  | raw :: items, i, out, s, hk, hok => by
    have hhead := fate_of_item hk i raw (hok _ (mem_results raw items i out s))
    obtain ⟨cs, hcs⟩ : ∃ cs, (acceptItem J H tenant draws i raw s).2 = run H cs s := acceptItem_run i raw s
    have hk' : Keyed (acceptItem J H tenant draws i raw s).2 := by rw [hcs]; exact hk.run cs
    obtain ⟨new, hnew, hrest⟩ := fates_of_acceptAll items (i + 1)
      (out.add (acceptItem J H tenant draws i raw s).1) (acceptItem J H tenant draws i raw s).2 hk' hok
    obtain ⟨cs', hcs'⟩ : ∃ cs', (acceptAll J H tenant draws (i + 1) items
        (out.add (acceptItem J H tenant draws i raw s).1) (acceptItem J H tenant draws i raw s).2).2 =
        run H cs' (acceptItem J H tenant draws i raw s).2 := acceptAll_run _ _ _ _
    refine ⟨(acceptItem J H tenant draws i raw s).1 :: new, hnew.trans (List.append_assoc _ _ _),
      .cons ?_ hrest⟩
    rw [acceptAll_cons, hcs']
    exact hhead.run hk' cs'

/-- **A batch whose items' fates are known changes nothing**, answers as before, and its accepted items
are replays. -/
theorem acceptAll_of_fates : ∀ (items : List Raw) (prev : List BatchResult) (i : ℕ) (out : BatchResponse)
    (s : Store), Keyed s → List.Forall₂ (ItemFate J H tenant s) items prev →
    (∀ r ∈ (acceptAll J H tenant draws i items out s).1.results, r.status ≠ 503) →
    (acceptAll J H tenant draws i items out s).2 = s ∧
      ∃ new, (acceptAll J H tenant draws i items out s).1.results = out.results ++ new ∧
        new.map (fun r => (r.status, r.id)) = prev.map (fun r => (r.status, r.id)) ∧
        ∀ r ∈ new, r.status = 202 → r.replayed = true
  | [], _, _, out, s, _, .nil, _ => ⟨rfl, [], (List.append_nil _).symm, rfl, fun _ h => by cases h⟩
  | raw :: items, result :: prev, i, out, s, hk, .cons hfate hfates, hok => by
    have hok' := hok _ (mem_results raw items i out s)
    obtain ⟨hsame, hreplay⟩ := item_of_fate hk hfate i hok'
    have hagree := hfate.unique (hsame ▸ fate_of_item hk i raw hok')
    have hrest : (acceptAll J H tenant draws i (raw :: items) out s) =
        acceptAll J H tenant draws (i + 1) items (out.add (acceptItem J H tenant draws i raw s).1) s := by
      rw [acceptAll_cons, hsame]
    rw [hrest] at hok ⊢
    obtain ⟨hs, new, hnew, hmap, hall⟩ := acceptAll_of_fates items prev (i + 1) _ s hk hfates hok
    refine ⟨hs, (acceptItem J H tenant draws i raw s).1 :: new, hnew.trans (List.append_assoc _ _ _), ?_, ?_⟩
    · rw [List.map_cons, List.map_cons, hagree, hmap]
    · intro r hr
      rcases List.mem_cons.mp hr with rfl | hr
      · exact hreplay
      · exact hall r hr

end Loop

/-! ### The result -/

/-- **The shape of a response** to `n` items. -/
structure WellFormed (n code : ℕ) (out : BatchResponse) : Prop where
  indices : out.results.map BatchResult.index = List.range n
  total : out.accepted + out.rejected = n
  replayed : out.replayed ≤ out.accepted
  code : code = 202 ↔ out.rejected = 0

section Reply

variable {J : Raw → Option Receipt} {H : Digest} {tenant : String} {draws : Draws}

/-- The handler answers an admitted batch with what its loop makes of the items. -/
theorem acceptBatch_admitted {items : List Raw} (hlo : 1 ≤ items.length) (hhi : items.length ≤ 50)
    (s : Store) :
    ∃ code out s', acceptBatch J H tenant draws (.receipts items) true s = (.respond code out, s') ∧
      (out, s') = acceptAll J H tenant draws 0 items ⟨0, 0, 0, []⟩ s ∧
      WellFormed items.length code out := by
  have hlen : ¬ (items.length < 1 ∨ maxBatchReceipts < items.length) := by
    unfold maxBatchReceipts; omega
  have hempty : Tallied 0 ⟨0, 0, 0, []⟩ := ⟨rfl, rfl, le_refl 0, by simp⟩
  have htally : Tallied (0 + items.length) (acceptAll J H tenant draws 0 items ⟨0, 0, 0, []⟩ s).1 :=
    tallied_acceptAll items 0 _ s hempty
  rw [Nat.zero_add] at htally
  refine ⟨_, _, _, by simp only [acceptBatch, decode, if_neg hlen]; rfl, rfl, htally.indices,
    htally.total, htally.replayed, ?_⟩
  split_ifs with h
  · exact ⟨fun h' => (by cases h'), fun h' => absurd h (by omega)⟩
  · exact ⟨fun _ => by omega, fun _ => rfl⟩

end Reply

/-- **Receipts have an identity, and a batch can be retried safely.** On a reachable store, an admitted
batch (one to fifty items of any bytes, not refused by the rate limiter) is answered by a well-formed
response; and the same body submitted again after any calls of the store is too. If no item of either
submission met a storage failure, every item gets the status and the delivery identifier it got before,
every accepted item is a replay, and the store is left as it was. In every reachable store an event has at
most one delivery, and a delivery has one intent, one context and one `accepted` audit row. -/
theorem batch_retry_safe (J : Raw → Option Receipt) (H : Digest) (es : List Event) :
    let s := (runEvents H es Db.empty).core
    (∀ tenant items draws, 1 ≤ items.length → items.length ≤ 50 →
      ∃ code out s₁, acceptBatch J H tenant draws (.receipts items) true s = (.respond code out, s₁) ∧
        WellFormed items.length code out ∧
        ∀ cs draws', ∃ code' out' s₂,
          acceptBatch J H tenant draws' (.receipts items) true (run H cs s₁) =
            (.respond code' out', s₂) ∧
          WellFormed items.length code' out' ∧
          ((∀ r ∈ out.results, r.status ≠ 503) → (∀ r ∈ out'.results, r.status ≠ 503) →
            out'.results.map (fun r => (r.status, r.id)) = out.results.map (fun r => (r.status, r.id)) ∧
            (∀ r ∈ out'.results, r.status = 202 → r.replayed = true) ∧ s₂ = run H cs s₁)) ∧
    (∀ d ∈ s.deliveries, ∀ d' ∈ s.deliveries, d.tenant = d'.tenant → d.eventID = d'.eventID → d = d') ∧
    (∀ d ∈ s.deliveries, (∃! o, o ∈ s.outbox ∧ o.pk = d.pk) ∧ (∃! x, x ∈ s.context ∧ x.pk = d.pk) ∧
      ∃! a, a ∈ s.audit ∧ a.kind = .accepted ∧ a.tenant = d.tenant ∧ a.resource = d.id) := by
  intro s
  have hkeyed : Keyed s := keyed_runEvents H es
  have hpaired : Paired s := paired_runEvents H es
  have hrec : Recorded s := recorded_runEvents H es
  refine ⟨fun tenant items draws hlo hhi => ?_, fun d hd d' hd' ht he => ?_, fun d hd => ⟨?_, ?_, ?_⟩⟩
  · obtain ⟨code, out, s₁, hfirst, hloop, hform⟩ := acceptBatch_admitted hlo hhi s
    refine ⟨code, out, s₁, hfirst, hform, fun cs draws' => ?_⟩
    obtain ⟨code', out', s₂, hsecond, hloop', hform'⟩ := acceptBatch_admitted hlo hhi (run H cs s₁)
    refine ⟨code', out', s₂, hsecond, hform', fun hok hok' => ?_⟩
    have hout : out = (acceptAll J H tenant draws 0 items ⟨0, 0, 0, []⟩ s).1 := congrArg Prod.fst hloop
    have hs₁ : s₁ = (acceptAll J H tenant draws 0 items ⟨0, 0, 0, []⟩ s).2 := congrArg Prod.snd hloop
    have hout' : out' = (acceptAll J H tenant draws' 0 items ⟨0, 0, 0, []⟩ (run H cs s₁)).1 :=
      congrArg Prod.fst hloop'
    have hs₂ : s₂ = (acceptAll J H tenant draws' 0 items ⟨0, 0, 0, []⟩ (run H cs s₁)).2 :=
      congrArg Prod.snd hloop'
    obtain ⟨calls, hcalls⟩ : ∃ calls, s₁ = run H calls s := by rw [hs₁]; exact acceptAll_run _ _ _ _
    have hk₁ : Keyed s₁ := by rw [hcalls]; exact hkeyed.run calls
    obtain ⟨prev, hprev, hfates⟩ := fates_of_acceptAll items 0 ⟨0, 0, 0, []⟩ s hkeyed (hout ▸ hok)
    rw [← hs₁] at hfates
    have hfates' : List.Forall₂ (ItemFate J H tenant (run H cs s₁)) items prev :=
      hfates.imp fun _ _ h => h.run hk₁ cs
    obtain ⟨hsame, new, hnew, hmap, hreplay⟩ :=
      acceptAll_of_fates items prev 0 ⟨0, 0, 0, []⟩ (run H cs s₁) (hk₁.run cs) hfates' (hout' ▸ hok')
    rw [List.nil_append] at hprev hnew
    refine ⟨?_, ?_, hs₂.trans hsame⟩
    · rw [hout', hout, hnew, hprev]; exact hmap
    · rw [hout', hnew]; exact hreplay
  · exact hkeyed.deliveries d hd d' hd' (Prod.ext ht he)
  · obtain ⟨o, ho, -⟩ := hpaired.entry (Table.find?_of_mem hd)
    exact ⟨o, Table.find?_eq_some.mp ho, fun x hx => Table.key_injOn hx.1 (Table.mem_of_find? ho)
      (hx.2.trans (Table.find?_key ho).symm)⟩
  · cases hx : s.context.find? d.pk with
    | none =>
      have hno := (hrec.context d.pk).mp hx
      rw [Table.find?_of_mem hd] at hno; cases hno
    | some x =>
      exact ⟨x, Table.find?_eq_some.mp hx, fun y hy => Table.key_injOn hy.1 (Table.mem_of_find? hx)
        (hy.2.trans (Table.find?_key hx).symm)⟩
  · have hone : s.audit.count (accepts d.pk) = 1 := by
      rw [hrec.audited, Table.find?_of_mem hd]; rfl
    obtain ⟨a, ⟨ha, hacc⟩, huniq⟩ := Table.existsUnique_of_count hone
    exact ⟨a, ⟨ha, of_decide_eq_true hacc⟩, fun x hx => huniq x ⟨hx.1, decide_eq_true hx.2⟩⟩

/-- A decoder that knows two receipts of one event, and a third that is not valid. -/
def threeItems : Raw → Option Receipt
  | [123, 49, 125] => some ⟨1, "e1", "hold", "sea-01", 1, 10000⟩
  | [123, 50, 125] => some ⟨1, "e1", "hold", "sea-01", 1, 9000⟩
  | [123, 51, 125] => some ⟨1, "bad id", "hold", "sea-01", 1, 10000⟩
  | _ => none

/-- A batch that repeats a receipt and conflicts with itself. -/
def partialBatch : List Raw := [[123, 49, 125], [110], [123, 51, 125], [123, 49, 125], [123, 50, 125]]

/-- Draws with the item's index in their identifiers. -/
def numbered (mark : String) : Draws := fun i =>
  (⟨"d" ++ mark ++ toString i, 0, [], ⟨"a" ++ mark ++ toString i, 0⟩⟩, none)

/-- A digest that tells the durations apart. -/
def byDuration : Digest := ⟨fun _ => "", fun r => toString r.durationMS⟩

/-- The statuses of a reply. -/
def statuses : Reply → List ℕ
  | .respond _ out => out.results.map BatchResult.status
  | .problem .. => []

theorem batch_retry_safe_partial :
    ∃ code out s₁ code' out' s₂,
      acceptBatch threeItems byDuration "demo" (numbered "x") (.receipts partialBatch) true .empty =
        (.respond code out, s₁) ∧
      acceptBatch threeItems byDuration "demo" (numbered "y") (.receipts partialBatch) true
        (run byDuration [⟨.process "demo" "dx0" ⟨5, ⟨"p", 5⟩⟩, none⟩] s₁) = (.respond code' out', s₂) ∧
      out.results.map BatchResult.status = [202, 400, 422, 202, 409] ∧
      out'.results.map (fun r => (r.status, r.id)) = out.results.map (fun r => (r.status, r.id)) ∧
      s₂ = run byDuration [⟨.process "demo" "dx0" ⟨5, ⟨"p", 5⟩⟩, none⟩] s₁ := by
  obtain ⟨code, out, s₁, hfirst, -, hagain⟩ := (batch_retry_safe threeItems byDuration []).1 "demo"
    partialBatch (numbered "x") (by decide) (by decide)
  obtain ⟨code', out', s₂, hsecond, -, hsame⟩ :=
    hagain [⟨.process "demo" "dx0" ⟨5, ⟨"p", 5⟩⟩, none⟩] (numbered "y")
  have hstat : out.results.map BatchResult.status = [202, 400, 422, 202, 409] := by
    have hval : statuses (acceptBatch threeItems byDuration "demo" (numbered "x")
      (.receipts partialBatch) true .empty).1 = [202, 400, 422, 202, 409] := by decide +kernel
    rw [show acceptBatch _ _ _ _ _ _ Store.empty = _ from hfirst] at hval
    exact hval
  have hs₁ : s₁ = (acceptBatch threeItems byDuration "demo" (numbered "x")
      (.receipts partialBatch) true .empty).2 := (congrArg Prod.snd hfirst).symm
  have hstat' : out'.results.map BatchResult.status = [202, 400, 422, 202, 409] := by
    have hval : statuses (acceptBatch threeItems byDuration "demo" (numbered "y") (.receipts partialBatch)
        true (run byDuration [⟨.process "demo" "dx0" ⟨5, ⟨"p", 5⟩⟩, none⟩] (acceptBatch threeItems byDuration
          "demo" (numbered "x") (.receipts partialBatch) true .empty).2)).1 =
        [202, 400, 422, 202, 409] := by decide +kernel
    rw [← hs₁, hsecond] at hval
    exact hval
  have hno : ∀ {o : BatchResponse}, o.results.map BatchResult.status = [202, 400, 422, 202, 409] →
      ∀ r ∈ o.results, r.status ≠ 503 := by
    intro o ho r hr h503
    have hmem : r.status ∈ [202, 400, 422, 202, 409] := ho ▸ List.mem_map_of_mem hr
    rw [h503] at hmem
    simp at hmem
  obtain ⟨hmap, -, hs₂⟩ := hsame (hno hstat) (hno hstat')
  exact ⟨code, out, s₁, code', out', s₂, hfirst, hsecond, hstat, hmap, hs₂⟩

end Afterglow.Httpapi.Batch
