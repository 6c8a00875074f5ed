import Afterglow.Core.Settlement

/-! # The life of one delivery

A delivery and its dispatch intent share a key and are made together (`Paired`). `entry s k` is what the
store holds under the key: the status of the delivery, and the intent. `Move` is the state machine of one
entry, with the call that makes each move; every change of the store moves every entry by it
(`Change.entry`). -/

namespace Afterglow.Core.Intent

open Afterglow.Sql.Rows Afterglow.Sql.Txn Afterglow.Core.Model Afterglow.Core.Statements
open Afterglow.Core.Store Afterglow.Core.Outcome Afterglow.Core.Run Afterglow.Core.Settlement

/-- A delivery's status and its intent. -/
abbrev Entry := Status × OutboxRow

/-- What the store holds under key `k`. -/
def entry (s : Store) (k : Key2) : Option Entry :=
  match s.deliveries.find? k, s.outbox.find? k with
  | some d, some o => some (d.status, o)
  | _, _ => none

/-- **The moves of the entry under key `k`**, each with the call that makes it. -/
inductive Move (k : Key2) : Op → Option Entry → Option Entry → Prop
  | same (op : Op) (x : Option Entry) : Move k op x x
  | born {tenant : String} {r : Receipt} {d : AcceptDraw} (hk : (tenant, d.id) = k) :
      Move k (.accept tenant r d) none (some (.accepted, ⟨tenant, d.id, .pending, "", 0, 0, 0⟩))
  | judged {tenant id : String} {d : ProcessDraw} {o : OutboxRow} {status : Status}
      (hk : (tenant, id) = k) (hs : status ≠ .accepted) (hf : status ≠ .failed) :
      Move k (.process tenant id d) (some (.accepted, o)) (some (status, o))
  | leased {postgres : Bool} {now : Int} {owner : String} {o : OutboxRow} {status : Status}
      (hdue : OutboxRow.due now o = true) :
      Move k (.claim postgres now owner) (some (status, o)) (some (status, leasedRow o owner now))
  | dispatched {j : Job} {o : OutboxRow} {status : Status} (hk : (j.tenant, j.id) = k)
      (hj : Job.holds j o) :
      Move k (.dispatched j) (some (status, o)) (some (status, freedRow o .dispatched))
  | finished {tenant id : String} {o : OutboxRow} {status : Status} (hk : (tenant, id) = k)
      (hs : status ≠ .accepted) :
      Move k (.complete tenant id) (some (status, o)) (some (status, freedRow o .done))
  | retried {j : Job} {next : Int} {d : Stamp} {o : OutboxRow} {status : Status}
      (hk : (j.tenant, j.id) = k) (hj : Job.holds j o) (hs : failState j = .pending) :
      Move k (.failJob j next d) (some (status, o)) (some (status, failedRow o j next))
  | died {j : Job} {next : Int} {d : Stamp} {o : OutboxRow} {status status' : Status}
      (hk : (j.tenant, j.id) = k) (hj : Job.holds j o) (hs : failState j = .dead)
      (hst : status' ≠ .accepted) :
      Move k (.failJob j next d) (some (status, o)) (some (status', failedRow o j next))
  | reopened {tenant id : String} {d : Stamp} {o : OutboxRow} {status : Status}
      (hk : (tenant, id) = k) :
      Move k (.replay tenant id d) (some (status, o)) (some (.accepted, requeuedRow o))

/-! ### Deliveries and intents come in pairs -/

/-- **A delivery and an intent for each key, or neither.** -/
def Paired (s : Store) : Prop := ∀ k, s.deliveries.find? k = none ↔ s.outbox.find? k = none

section Entry

variable {s s' : Store} {k : Key2}

theorem entry_some {status : Status} {o : OutboxRow} :
    entry s k = some (status, o) ↔
      ∃ d, s.deliveries.find? k = some d ∧ d.status = status ∧ s.outbox.find? k = some o := by
  unfold entry
  cases s.deliveries.find? k with
  | none => simp
  | some d =>
    cases s.outbox.find? k with
    | none => simp
    | some o' => simp

theorem entry_eq {d : DeliveryRow} {o : OutboxRow} (hd : s.deliveries.find? k = some d)
    (ho : s.outbox.find? k = some o) : entry s k = some (d.status, o) :=
  entry_some.mpr ⟨d, hd, rfl, ho⟩

theorem entry_none (h : s.deliveries.find? k = none) : entry s k = none := by
  unfold entry; rw [h]

theorem entry_congr (hd : s'.deliveries.find? k = s.deliveries.find? k)
    (ho : s'.outbox.find? k = s.outbox.find? k) : entry s' k = entry s k := by
  unfold entry; rw [hd, ho]

/-- With pairs, a delivery has its entry. -/
theorem Paired.entry (h : Paired s) {d : DeliveryRow} (hd : s.deliveries.find? k = some d) :
    ∃ o, s.outbox.find? k = some o ∧ Intent.entry s k = some (d.status, o) := by
  cases ho : s.outbox.find? k with
  | none => rw [(h k).mpr ho] at hd; cases hd
  | some o => exact ⟨o, rfl, entry_eq hd ho⟩

/-- With pairs, an intent has its entry. -/
theorem Paired.entry_of_outbox (h : Paired s) {o : OutboxRow} (ho : s.outbox.find? k = some o) :
    ∃ d, s.deliveries.find? k = some d ∧ Intent.entry s k = some (d.status, o) := by
  cases hd : s.deliveries.find? k with
  | none => rw [(h k).mp hd] at ho; cases ho
  | some d => exact ⟨d, rfl, entry_eq hd ho⟩

end Entry

/-! ### Every change moves every entry -/

section Change

variable {s s' : Store}

/-- A lookup under `k` after a row of key `k₀` was written: the row, or as before. -/
theorem find_put_cases {ρ : Type} {key : ρ → Key2} {t : Table key} {r : ρ} {k₀ : Key2}
    (hr : key r = k₀) (k : Key2) :
    k₀ = k ∧ (t.put r).find? k = some r ∨ k₀ ≠ k ∧ (t.put r).find? k = t.find? k := by
  by_cases hk : k₀ = k
  · exact Or.inl ⟨hk, by rw [Table.find?_put, if_pos (hr.trans hk)]⟩
  · exact Or.inr ⟨hk, Table.find?_put_ne fun h => hk (hr.symm.trans h)⟩

/-- A delivery of key `k₀` is written and intents stay: its entry moves, the others stay. -/
theorem move_delivery {op : Op} {k : Key2} {d : DeliveryRow} {k₀ : Key2} (d' : DeliveryRow) (hp : Paired s)
    (hd : s.deliveries.find? k₀ = some d) (hpk : d'.pk = k₀)
    (hdel : s'.deliveries = s.deliveries.put d') (hout : s'.outbox = s.outbox)
    (hmove : ∀ o, Move k₀ op (some (d.status, o)) (some (d'.status, o))) :
    Move k op (entry s k) (entry s' k) := by
  rcases find_put_cases (t := s.deliveries) hpk k with ⟨hk, hfind⟩ | ⟨hk, hfind⟩
  · subst hk
    obtain ⟨o, ho, he⟩ := hp.entry hd
    have he' : entry s' k₀ = some (d'.status, o) :=
      entry_eq (by rw [hdel]; exact hfind) (by rw [hout]; exact ho)
    rw [he, he']
    exact hmove o
  · have he : entry s' k = entry s k := entry_congr (by rw [hdel]; exact hfind) (by rw [hout])
    rw [he]
    exact .same op _

/-- An intent of key `k₀` is written and deliveries stay: its entry moves, the others stay. -/
theorem move_outbox {op : Op} {k : Key2} {o : OutboxRow} {k₀ : Key2} (o' : OutboxRow) (hp : Paired s)
    (ho : s.outbox.find? k₀ = some o) (hpk : o'.pk = k₀) (hdel : s'.deliveries = s.deliveries)
    (hout : s'.outbox = s.outbox.put o')
    (hmove : ∀ d, s.deliveries.find? k₀ = some d →
      Move k₀ op (some (d.status, o)) (some (d.status, o'))) :
    Move k op (entry s k) (entry s' k) := by
  rcases find_put_cases (t := s.outbox) hpk k with ⟨hk, hfind⟩ | ⟨hk, hfind⟩
  · subst hk
    obtain ⟨d, hd, he⟩ := hp.entry_of_outbox ho
    have he' : entry s' k₀ = some (d.status, o') :=
      entry_eq (by rw [hdel]; exact hd) (by rw [hout]; exact hfind)
    rw [he, he']
    exact hmove d hd
  · have he : entry s' k = entry s k := entry_congr (by rw [hdel]) (by rw [hout]; exact hfind)
    rw [he]
    exact .same op _

/-- The delivery and the intent of key `k₀` are written. -/
theorem move_both {op : Op} {k k₀ : Key2} (d' : DeliveryRow) (o' : OutboxRow) (hpd : d'.pk = k₀)
    (hpo : o'.pk = k₀) (hdel : s'.deliveries = s.deliveries.put d')
    (hout : s'.outbox = s.outbox.put o')
    (hmove : Move k₀ op (entry s k₀) (some (d'.status, o'))) :
    Move k op (entry s k) (entry s' k) := by
  rcases find_put_cases (t := s.deliveries) hpd k with ⟨hk, hfd⟩ | ⟨hk, hfd⟩
  · rcases find_put_cases (t := s.outbox) hpo k with ⟨-, hfo⟩ | ⟨hk', -⟩
    · have he' : entry s' k = some (d'.status, o') :=
        entry_eq (by rw [hdel]; exact hfd) (by rw [hout]; exact hfo)
      rw [he', ← hk]
      exact hmove
    · exact absurd hk hk'
  · rcases find_put_cases (t := s.outbox) hpo k with ⟨hk', -⟩ | ⟨-, hfo⟩
    · exact absurd hk' hk
    · have he : entry s' k = entry s k :=
        entry_congr (by rw [hdel]; exact hfd) (by rw [hout]; exact hfo)
      rw [he]
      exact .same op _

theorem pk_deadRow (d : DeliveryRow) : (deadRow d).pk = d.pk := by
  unfold deadRow; split_ifs <;> rfl

theorem status_deadRow (d : DeliveryRow) : (deadRow d).status ≠ .accepted := by
  unfold deadRow
  split_ifs with h
  · simp
  · exact h

/-- **Every change moves every entry.** -/
theorem move_of_change {H : Digest} {op : Op} (hp : Paired s) (hc : Change H s op s') (k : Key2) :
    Move k op (entry s k) (entry s' k) := by
  cases hc with
  | seeded h =>
    have he : entry s' k = entry s k := entry_congr (by rw [h.rest]) (by rw [h.rest])
    rw [he]
    exact .same _ _
  | @accepted tenant r d hv hk hf =>
    refine move_both (newDelivery H tenant r d) ⟨tenant, d.id, .pending, "", 0, 0, 0⟩ rfl rfl rfl rfl ?_
    rw [entry_none (show s.deliveries.find? (newDelivery H tenant r d).pk = none from hf.delivery)]
    exact .born rfl
  | @seen tenant id d dl hd hs =>
    have hpk : dl.pk = (tenant, id) := Table.find?_key hd
    exact move_delivery { dl with attempts := dl.attempts + 1 } hp hd hpk rfl rfl
      fun o => .same _ _
  | @decided tenant id d dl status reason hd hs hv hne ha =>
    have hpk : dl.pk = (tenant, id) := Table.find?_key hd
    refine move_delivery (decidedRow dl status reason) hp hd hpk rfl rfl fun o => ?_
    rw [hs]
    exact .judged rfl (verdict_ne_accepted hv) (verdict_ne_failed hv)
  | @settled tenant id d dl p r hd hs =>
    have hpk : dl.pk = (tenant, id) := Table.find?_key hd
    refine move_delivery (decidedRow dl .settled .matched) hp hd hpk rfl rfl fun o => ?_
    rw [hs]
    exact .judged rfl (by simp [decidedRow]) (by simp [decidedRow])
  | @leased postgres now owner o h =>
    obtain ⟨ho, hdue⟩ := claimable_mem h
    exact move_outbox (leasedRow o owner now) hp ho rfl rfl rfl fun d _ => .leased hdue
  | @dispatched j o ho hj =>
    have hpk : o.pk = (j.tenant, j.id) := Table.find?_key ho
    exact move_outbox (freedRow o .dispatched) hp ho hpk rfl rfl fun d _ => .dispatched rfl hj
  | @finished tenant id dl hd hs =>
    obtain ⟨o, ho, -⟩ := hp.entry hd
    have hpk : o.pk = (tenant, id) := Table.find?_key ho
    refine move_outbox (freedRow o .done) hp ho hpk rfl (Table.modify_of_find? _ ho) fun d hd' => ?_
    cases hd.symm.trans hd'
    exact .finished rfl hs
  | @retried j next d o ho hj hs ha =>
    have hpk : o.pk = (j.tenant, j.id) := Table.find?_key ho
    exact move_outbox (failedRow o j next) hp ho hpk rfl rfl fun d _ => .retried rfl hj hs
  | @died j next d o ho hj hs ha =>
    have hpk : o.pk = (j.tenant, j.id) := Table.find?_key ho
    obtain ⟨dl, hd, he⟩ := hp.entry_of_outbox ho
    have hpd : dl.pk = (j.tenant, j.id) := Table.find?_key hd
    refine move_both (deadRow dl) (failedRow o j next) ((pk_deadRow dl).trans hpd) hpk
      (Table.modify_of_find? _ hd) rfl ?_
    rw [he]
    exact .died rfl hj hs (status_deadRow dl)
  | @reopened tenant id d dl hd hs ha =>
    obtain ⟨o, ho, he⟩ := hp.entry hd
    have hpk : o.pk = (tenant, id) := Table.find?_key ho
    have hpd : dl.pk = (tenant, id) := Table.find?_key hd
    refine move_both (reopenedRow dl) (requeuedRow o) hpd hpk rfl (Table.modify_of_find? _ ho) ?_
    rw [he]
    exact .reopened rfl
  | _ => exact .same _ _

/-- Keys come and go together. -/
theorem Paired.keys (hp : Paired s)
    (hdel : ∀ k, s'.deliveries.find? k = none ↔ s.deliveries.find? k = none)
    (hout : ∀ k, s'.outbox.find? k = none ↔ s.outbox.find? k = none) : Paired s' := fun k =>
  ((hdel k).trans (hp k)).trans (hout k).symm

theorem delivery_keys {k₀ : Key2} {d : DeliveryRow} (d' : DeliveryRow)
    (hd : s.deliveries.find? k₀ = some d) (hpk : d'.pk = d.pk) (k : Key2) :
    (s.deliveries.put d').find? k = none ↔ s.deliveries.find? k = none :=
  Table.find?_put_none d' (by rw [hpk, Table.find?_key hd]; exact hd) k

theorem outbox_keys {k₀ : Key2} {o : OutboxRow} (o' : OutboxRow)
    (ho : s.outbox.find? k₀ = some o) (hpk : o'.pk = o.pk) (k : Key2) :
    (s.outbox.put o').find? k = none ↔ s.outbox.find? k = none :=
  Table.find?_put_none o' (by rw [hpk, Table.find?_key ho]; exact ho) k

/-- **One change keeps the pairs.** -/
theorem Paired.change {H : Digest} {op : Op} (hp : Paired s) (hc : Change H s op s') : Paired s' := by
  have hsame : ∀ k, s.outbox.find? k = none ↔ s.outbox.find? k = none := fun _ => Iff.rfl
  have hsame' : ∀ k, s.deliveries.find? k = none ↔ s.deliveries.find? k = none := fun _ => Iff.rfl
  cases hc with
  | seeded h => exact hp.keys (fun k => by rw [h.rest]) fun k => by rw [h.rest]
  | @accepted tenant r d hv hk hf =>
    intro k
    have hpk : (newDelivery H tenant r d).pk = (tenant, d.id) := rfl
    have hpo : OutboxRow.pk ⟨tenant, d.id, .pending, "", 0, 0, 0⟩ = (tenant, d.id) := rfl
    show (s.deliveries.put _).find? k = none ↔ (s.outbox.put _).find? k = none
    rw [Table.find?_put, Table.find?_put, hpk]
    simp only [newDelivery, hpo]
    split_ifs
    · simp
    · exact hp k
  | seen dl hd hs => exact hp.keys (delivery_keys { dl with attempts := dl.attempts + 1 } hd rfl) hsame
  | decided dl status reason hd hs hv hne ha =>
    exact hp.keys (delivery_keys (decidedRow dl status reason) hd rfl) hsame
  | settled dl p r hd hs => exact hp.keys (delivery_keys (decidedRow dl .settled .matched) hd rfl) hsame
  | leased o h => exact hp.keys hsame' (outbox_keys (leasedRow o _ _) (claimable_mem h).1 rfl)
  | dispatched o ho hj => exact hp.keys hsame' (outbox_keys (freedRow o .dispatched) ho rfl)
  | finished dl hd hs =>
    obtain ⟨o, ho, -⟩ := hp.entry hd
    refine hp.keys hsame' ?_
    show ∀ k, (s.outbox.modify _ _).find? k = none ↔ _
    rw [Table.modify_of_find? _ ho]
    exact outbox_keys (freedRow o .done) ho rfl
  | retried o ho hj hs ha => exact hp.keys hsame' (outbox_keys (failedRow o _ _) ho rfl)
  | died o ho hj hs ha =>
    obtain ⟨dl, hd, -⟩ := hp.entry_of_outbox ho
    refine hp.keys ?_ (outbox_keys (failedRow o _ _) ho rfl)
    show ∀ k, (s.deliveries.modify _ _).find? k = none ↔ _
    rw [Table.modify_of_find? _ hd]
    exact delivery_keys (deadRow dl) hd (pk_deadRow dl)
  | reopened dl hd hs ha =>
    obtain ⟨o, ho, -⟩ := hp.entry hd
    refine hp.keys (delivery_keys (reopenedRow dl) hd rfl) ?_
    show ∀ k, (s.outbox.modify _ _).find? k = none ↔ _
    rw [Table.modify_of_find? _ ho]
    exact outbox_keys (requeuedRow o) ho rfl
  | _ => exact hp

theorem Paired.empty : Paired Store.empty := fun _ => ⟨fun _ => rfl, fun _ => rfl⟩

end Change

end Afterglow.Core.Intent
