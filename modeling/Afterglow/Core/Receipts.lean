import Afterglow.Core.Intent
import Afterglow.Localdemo.Reset

/-! # The identity of a receipt

An accepted receipt leaves four rows: the delivery, its dispatch intent, its trace context and one
`accepted` audit row, and nothing else makes or takes away one of them (`Recorded`). `Fate` is what the
store knows of a receipt: its event identifier has a delivery, with the receipt's content or with other
content. `Accept` answers by it (`accept_known`), leaves it known (`fate_of_accept`), and a run keeps it
(`Fate.run`). -/

namespace Afterglow.Core.Receipts

open Afterglow.Sql.Rows Afterglow.Sql.Txn Afterglow.Core.Model Afterglow.Core.Statements
open Afterglow.Core.Store Afterglow.Core.Outcome Afterglow.Core.Run Afterglow.Core.Settlement
open Afterglow.Core.Keys Afterglow.Core.Intent Afterglow.Localdemo.Reset

/-! ### One row of each kind -/

/-- The audit row says that delivery `k` was accepted. -/
def accepts (k : Key2) (a : AuditRow) : Bool := a.kind = .accepted ∧ a.tenant = k.1 ∧ a.resource = k.2

/-- **A context and one `accepted` audit row for each delivery**, and for no other key. -/
structure Recorded (s : Store) : Prop where
  context : ∀ k, s.context.find? k = none ↔ s.deliveries.find? k = none
  audited : ∀ k, s.audit.count (accepts k) = if (s.deliveries.find? k).isSome then 1 else 0

/-- What a change does to these rows: it accepts a delivery, or the deliveries keep their keys, the
contexts stay and a new audit row is of another kind. -/
theorem record_cases {H : Digest} {o : Op} {s s' : Store} (hc : Change H s o s') :
    (∃ tenant r d, AcceptFresh tenant d s ∧
      s' = accepting s (newDelivery H tenant r d) d.trace (acceptedAudit tenant d)) ∨
    ((∀ k, s'.deliveries.find? k = none ↔ s.deliveries.find? k = none) ∧ s'.context = s.context ∧
      (s'.audit = s.audit ∨ ∃ a : AuditRow, s.audit.find? a.id = none ∧ a.kind ≠ .accepted ∧
        s'.audit = s.audit.put a)) := by
  have hsame : ∀ k, s.deliveries.find? k = none ↔ s.deliveries.find? k = none := fun _ => Iff.rfl
  cases hc with
  | seeded hs => exact Or.inr ⟨fun k => by rw [hs.rest], by rw [hs.rest], Or.inl (by rw [hs.rest])⟩
  | @held tenant key inp d c _ _ _ _ _ _ _ ha =>
    exact Or.inr ⟨hsame, rfl, Or.inr ⟨reservedAudit tenant inp d, ha, by simp [reservedAudit], rfl⟩⟩
  | @accepted tenant r d hv hk hf => exact Or.inl ⟨tenant, r, d, hf, rfl⟩
  | seen dl hd hs =>
    exact Or.inr ⟨delivery_keys { dl with attempts := dl.attempts + 1 } hd rfl, rfl, Or.inl rfl⟩
  | @decided tenant id d dl status reason hd hs hv hne ha =>
    refine Or.inr ⟨delivery_keys (decidedRow dl status reason) hd rfl, rfl,
      Or.inr ⟨decidedAudit dl status reason d, ha, ?_, rfl⟩⟩
    have hst := verdict_ne_accepted hv
    cases status with
    | accepted => exact absurd rfl hst
    | _ => simp [decidedAudit, Status.kind]
  | @settled tenant id d dl p r hd hs hp hv hr hh hck ha =>
    exact Or.inr ⟨delivery_keys (decidedRow dl .settled .matched) hd rfl, rfl,
      Or.inr ⟨decidedAudit dl .settled .matched d, ha, by simp [decidedAudit, Status.kind], rfl⟩⟩
  | @released tenant id now d r hr hh he hck ha =>
    exact Or.inr ⟨hsame, rfl, Or.inr ⟨releasedAudit tenant id d, ha, by simp [releasedAudit], rfl⟩⟩
  | @retried j next d o ho hj hs ha =>
    exact Or.inr ⟨hsame, rfl, Or.inr ⟨retryAudit j d, ha, by simp [retryAudit], rfl⟩⟩
  | @died j next d o ho hj hs ha =>
    refine Or.inr ⟨fun k => ?_, rfl, Or.inr ⟨retryAudit j d, ha, by simp [retryAudit], rfl⟩⟩
    show (s.deliveries.modify _ _).find? k = none ↔ _
    rw [Table.find?_modify pk_deadRow]
    split_ifs <;> simp
  | @reopened tenant id d dl hd hs ha =>
    exact Or.inr ⟨delivery_keys (reopenedRow dl) hd rfl, rfl,
      Or.inr ⟨replayedAudit tenant id d, ha, by simp [replayedAudit], rfl⟩⟩
  | _ => exact Or.inr ⟨hsame, rfl, Or.inl rfl⟩

namespace Recorded

variable {s s' : Store}

theorem empty : Recorded Store.empty := ⟨fun _ => ⟨fun _ => rfl, fun _ => rfl⟩, fun _ => rfl⟩

/-- A new delivery comes with its context and its audit row. -/
theorem accepted {H : Digest} {tenant : String} {r : Receipt} {d : AcceptDraw} (h : Recorded s)
    (hf : AcceptFresh tenant d s) :
    Recorded (accepting s (newDelivery H tenant r d) d.trace (acceptedAudit tenant d)) := by
  have hdel : ∀ k, (s.deliveries.put (newDelivery H tenant r d)).find? k =
      if (tenant, d.id) = k then some (newDelivery H tenant r d) else s.deliveries.find? k :=
    fun k => Table.find?_put _ (newDelivery H tenant r d) k
  refine ⟨fun k => ?_, fun k => ?_⟩
  · have hctx : (s.context.put ⟨tenant, d.id, .json d.trace⟩).find? k =
        if (tenant, d.id) = k then some ⟨tenant, d.id, .json d.trace⟩ else s.context.find? k :=
      Table.find?_put _ (⟨tenant, d.id, .json d.trace⟩ : ContextRow) k
    show (s.context.put ⟨tenant, d.id, .json d.trace⟩).find? k = none ↔
      (s.deliveries.put (newDelivery H tenant r d)).find? k = none
    rw [hctx, hdel]
    split_ifs
    · simp
    · exact h.context k
  · have hacc : accepts k (acceptedAudit tenant d) = decide ((tenant, d.id) = k) := by
      unfold accepts acceptedAudit
      simp only [true_and]
      exact decide_eq_decide.mpr (Prod.ext_iff (x := (tenant, d.id)) (y := k)).symm
    have hsum : (s.audit.put (acceptedAudit tenant d)).count (accepts k) =
        s.audit.count (accepts k) + if (tenant, d.id) = k then 1 else 0 := by
      refine (Table.sum_put_new _ hf.audit).trans ?_
      simp only [hacc, decide_eq_true_eq]
      rfl
    show (s.audit.put (acceptedAudit tenant d)).count (accepts k) =
      if ((s.deliveries.put (newDelivery H tenant r d)).find? k).isSome then 1 else 0
    rw [hsum, hdel, h.audited k]
    by_cases hk : (tenant, d.id) = k
    · have hnone : s.deliveries.find? k = none := by rw [← hk]; exact hf.delivery
      simp [hk, hnone]
    · simp [hk]

theorem change {H : Digest} {o : Op} (h : Recorded s) (hc : Change H s o s') : Recorded s' := by
  rcases record_cases hc with ⟨tenant, r, d, hf, rfl⟩ | ⟨hkeys, hctx, haudit⟩
  · exact h.accepted hf
  · have hsome : ∀ k, (s'.deliveries.find? k).isSome = (s.deliveries.find? k).isSome := fun k => by
      rw [Bool.eq_iff_iff, Option.isSome_iff_ne_none, Option.isSome_iff_ne_none, ne_eq, hkeys k]
    refine ⟨fun k => by rw [hctx, hkeys k]; exact h.context k, fun k => ?_⟩
    rw [hsome, ← h.audited k]
    rcases haudit with heq | ⟨a, hnew, hkind, heq⟩
    · rw [heq]
    · have hno : accepts k a = false := by
        unfold accepts
        rw [decide_eq_false_iff_not]
        exact fun ha => hkind ha.1
      rw [heq]
      refine (Table.sum_put_new _ hnew).trans ?_
      rw [hno]; rfl

end Recorded

theorem recorded_runEvents (H : Digest) (es : List Event) : Recorded (runEvents H es Db.empty).core :=
  runEvents_invariant (fun _ _ _ h hc => h.change hc)
    (fun _ _ _ => ⟨fun _ => ⟨fun _ => rfl, fun _ => rfl⟩, fun _ => rfl⟩) es Db.empty Recorded.empty

theorem paired_runEvents (H : Digest) (es : List Event) : Paired (runEvents H es Db.empty).core :=
  runEvents_invariant (fun _ _ _ h hc => h.change hc)
    (fun _ _ _ _ => ⟨fun _ => rfl, fun _ => rfl⟩) es Db.empty Paired.empty

/-! ### What the store knows of a receipt -/

/-- A call of `Accept`: its answer, and the store it leaves. -/
def acceptCall (H : Digest) (tenant : String) (r : Receipt) (d : AcceptDraw) (fault : Option ℕ)
    (s : Store) : Except Err (String × Bool) × Store := (Op.accept tenant r d).exec H fault s

/-- The answer of `Accept` that the delivery `dl` of the receipt's event calls for. -/
def known (H : Digest) (r : Receipt) (dl : DeliveryRow) : Except Err String :=
  if dl.fingerprint = H.receipt r then .ok dl.id else .error .conflict

/-- **The store knows the receipt**, and `Accept` answers `a` to it, apart from the replay flag. -/
def Fate (H : Digest) (tenant : String) (s : Store) (r : Receipt) (a : Except Err String) : Prop :=
  ∃ dl, byEvent s tenant r.eventID = some dl ∧ known H r dl = a

section Fate

variable {H : Digest} {s : Store} {tenant : String} {r : Receipt} {d : AcceptDraw}

/-- **A run keeps what is known.** -/
theorem Fate.run {a : Except Err String} (h : Fate H tenant s r a) (hk : Keyed s) (cs : List Call) :
    Fate H tenant (Run.run H cs s) r a := by
  obtain ⟨dl, hdl, ha⟩ := h
  obtain ⟨dl', hdl', hstep⟩ := byEvent_run (H := H) hk cs hdl
  have hid : dl'.id = dl.id := by rw [hstep.1]
  have hfp : dl'.fingerprint = dl.fingerprint := by rw [hstep.1]
  exact ⟨dl', hdl', by rw [← ha]; unfold known; rw [hid, hfp]⟩

theorem Fate.unique {a b : Except Err String} (h : Fate H tenant s r a) (h' : Fate H tenant s r b) :
    a = b := by
  obtain ⟨dl, hdl, rfl⟩ := h
  obtain ⟨dl', hdl', rfl⟩ := h'
  cases hdl.symm.trans hdl'
  rfl

theorem Fate.cases {a : Except Err String} (h : Fate H tenant s r a) :
    (∃ id, a = .ok id) ∨ a = .error .conflict := by
  obtain ⟨dl, -, rfl⟩ := h
  unfold known
  split_ifs
  · exact Or.inl ⟨dl.id, rfl⟩
  · exact Or.inr rfl

theorem acceptCall_cases (H : Digest) (tenant : String) (r : Receipt) (d : AcceptDraw) (fault : Option ℕ)
    (s : Store) :
    AcceptOut H tenant r d s (acceptCall H tenant r d fault s) ∨
      acceptCall H tenant r d fault s = (.error (.storage .fault), s) := by
  rcases (Op.accept tenant r d).exec_cases H fault s with hx | hx
  · left
    unfold acceptCall
    rw [hx]
    exact accept_out H tenant r d s
  · exact Or.inr hx

/-- **The outcomes of `Accept`**: an invalid receipt, a failure of the database, or an answer by what the
store then knows. -/
theorem fate_of_accept (fault : Option ℕ) (hk : Keyed s) :
    let x := acceptCall H tenant r d fault s
    (validReceipt r = false ∧
      x = (.error (.invalid "event, reservation and screen IDs required"), s)) ∨
    (∃ w, x = (.error (.storage w), s)) ∨
    (validReceipt r = true ∧ ∃ a, Fate H tenant x.2 r a ∧ x.1.map Prod.fst = a) := by
  intro x
  have hkx : Keyed x.2 := hk.change ((Op.accept tenant r d).change H fault s)
  rcases acceptCall_cases H tenant r d fault s with hout | hx
  · generalize hxx : x = y at hkx
    have hout' : AcceptOut H tenant r d s y := hxx ▸ hout
    cases hout' with
    | invalid hv => exact Or.inl ⟨hv, rfl⟩
    | conflict dl hv hby hf =>
      exact Or.inr (Or.inr ⟨hv, _, ⟨dl, hby, rfl⟩, by unfold known; rw [if_neg hf]; rfl⟩)
    | replayed dl hv hby hf =>
      exact Or.inr (Or.inr ⟨hv, _, ⟨dl, hby, rfl⟩, by unfold known; rw [if_pos hf]; rfl⟩)
    | clash w => exact Or.inr (Or.inl ⟨w, rfl⟩)
    | made hv hby hf =>
      have hmem : newDelivery H tenant r d ∈ s.deliveries.put (newDelivery H tenant r d) :=
        Table.mem_put.mpr (Or.inl rfl)
      refine Or.inr (Or.inr ⟨hv, _, ⟨newDelivery H tenant r d, hkx.byEvent_of_mem hmem, rfl⟩, ?_⟩)
      have hfp : (newDelivery H tenant r d).fingerprint = H.receipt r := rfl
      unfold known; rw [if_pos hfp]; rfl
  · exact Or.inr (Or.inl ⟨_, hx⟩)

/-- **A known receipt changes nothing**: `Accept` answers what is known, as a replay, unless the database
fails. -/
theorem accept_known {a : Except Err String} (h : Fate H tenant s r a) (hv : validReceipt r = true)
    (fault : Option ℕ) :
    (∃ w, acceptCall H tenant r d fault s = (.error (.storage w), s)) ∨
      acceptCall H tenant r d fault s = (a.map fun id => (id, true), s) := by
  obtain ⟨dl, hdl, rfl⟩ := h
  have hused : byEvent s tenant r.eventID ≠ none := by rw [hdl]; simp
  rcases acceptCall_cases H tenant r d fault s with hout | hx
  · generalize acceptCall H tenant r d fault s = y at hout
    cases hout with
    | invalid hv' => rw [hv] at hv'; cases hv'
    | conflict dl' _ hby hf =>
      cases hdl.symm.trans hby
      right
      unfold known; rw [if_neg hf]; rfl
    | replayed dl' _ hby hf =>
      cases hdl.symm.trans hby
      right
      unfold known; rw [if_pos hf]; rfl
    | clash w => exact Or.inl ⟨w, rfl⟩
    | made _ hby => exact absurd hby hused
  · exact Or.inl ⟨_, hx⟩

end Fate

end Afterglow.Core.Receipts
