import Afterglow.Core.Settlement

/-! # The second unique keys

A tenant's reservations have an idempotency key and its deliveries an event identifier, and neither is
used twice (`Keyed`). So the lookup by such a key finds a row and keeps finding it (`byKey_run`,
`byEvent_run`), whatever else a run does. -/

namespace Afterglow.Core.Keys

open Afterglow.Sql.Rows Afterglow.Sql.Txn Afterglow.Core.Model Afterglow.Core.Statements
open Afterglow.Core.Store Afterglow.Core.Outcome Afterglow.Core.Run Afterglow.Core.Settlement

/-- `UNIQUE (tenant, idem_key)`. -/
def idem (r : ReservationRow) : Key2 := (r.tenant, r.idemKey)

/-- `UNIQUE (tenant, event_id)`. -/
def event (d : DeliveryRow) : Key2 := (d.tenant, d.eventID)

/-- **No second unique key is used twice.** -/
structure Keyed (s : Store) : Prop where
  reservations : s.reservations.Unique idem
  deliveries : s.deliveries.Unique event

theorem Keyed.empty : Keyed Store.empty := ⟨Table.Unique.empty, Table.Unique.empty⟩

section Step

variable {s s' : Store}

theorem unique_hold (h : s.reservations.Unique idem) {k : Key2} {r : ReservationRow} {hd : Hold}
    (hr : s.reservations.find? k = some r) :
    (s.reservations.put { r with state := hd }).Unique idem := by
  have hk : r.pk = k := Table.find?_key hr
  have hfind : s.reservations.find? (ReservationRow.pk { r with state := hd }) = some r := by
    rw [← hk] at hr; exact hr
  exact h.put_old hfind rfl

theorem unique_delivery (h : s.deliveries.Unique event) {k : Key2} {d d' : DeliveryRow}
    (hd : s.deliveries.find? k = some d) (hstep : DeliveryStep d d') :
    (s.deliveries.put d').Unique event := by
  have hpk : d'.pk = k := by
    have hk : d.pk = k := Table.find?_key hd
    rw [hstep.1]; exact hk
  refine h.put_old (by rw [hpk]; exact hd) ?_
  rw [hstep.1]; rfl

/-- **One change keeps the keys.** -/
theorem Keyed.change {H : Digest} {o : Op} (h : Keyed s) (hc : Change H s o s') : Keyed s' := by
  cases hc with
  | seeded hs => exact ⟨by rw [hs.rest]; exact h.reservations, by rw [hs.rest]; exact h.deliveries⟩
  | held c hv hc hk hs hb hck hid ha =>
    refine ⟨h.reservations.put_new fun x hx heq => ?_, h.deliveries⟩
    have hno := byKey_none.mp hk x hx
    rw [decide_eq_false_iff_not] at hno
    exact hno ⟨congrArg Prod.fst heq, congrArg Prod.snd heq⟩
  | accepted hv hk hf =>
    refine ⟨h.reservations, h.deliveries.put_new fun x hx heq => ?_⟩
    have hno := byEvent_none.mp hk x hx
    rw [decide_eq_false_iff_not] at hno
    exact hno ⟨congrArg Prod.fst heq, congrArg Prod.snd heq⟩
  | seen dl hd hs => exact ⟨h.reservations, unique_delivery h.deliveries hd ⟨rfl, fun _ => rfl⟩⟩
  | decided dl status reason hd hs =>
    exact ⟨h.reservations, unique_delivery h.deliveries hd (deliveryStep_open (by rw [hs]; simp) _ _ _)⟩
  | settled dl p r hd hs hp hv hr hh =>
    exact ⟨unique_hold h.reservations hr,
      unique_delivery h.deliveries hd (deliveryStep_open (by rw [hs]; simp) _ _ _)⟩
  | released r hr hh => exact ⟨unique_hold h.reservations hr, h.deliveries⟩
  | died o ho hj =>
    refine ⟨h.reservations, h.deliveries.modify (fun d => ?_) (fun d => ?_) _⟩
    · rw [(deliveryStep_dead d).1]; rfl
    · rw [(deliveryStep_dead d).1]; rfl
  | reopened dl hd hs =>
    refine ⟨h.reservations, unique_delivery h.deliveries hd (deliveryStep_open ?_ _ _ dl.attempts)⟩
    rcases hs with hs | hs <;> rw [hs] <;> simp
  | _ => exact ⟨h.reservations, h.deliveries⟩

theorem Keyed.run {H : Digest} (h : Keyed s) (cs : List Call) : Keyed (Run.run H cs s) :=
  run_invariant (A := fun _ => True) (fun _ _ _ _ h hc => h.change hc) cs s (fun _ _ => trivial) h

/-! ### Lookups -/

theorem byKey_some {tenant key : String} {r : ReservationRow} (h : byKey s tenant key = some r) :
    r ∈ s.reservations ∧ r.tenant = tenant ∧ r.idemKey = key :=
  ⟨List.mem_of_find?_eq_some h, by simpa using List.find?_some h⟩

theorem byEvent_some {tenant eventID : String} {d : DeliveryRow} (h : byEvent s tenant eventID = some d) :
    d ∈ s.deliveries ∧ d.tenant = tenant ∧ d.eventID = eventID :=
  ⟨List.mem_of_find?_eq_some h, by simpa using List.find?_some h⟩

theorem Keyed.byKey_of_mem (h : Keyed s) {r : ReservationRow} (hr : r ∈ s.reservations) :
    byKey s r.tenant r.idemKey = some r :=
  h.reservations.find_of_mem hr fun x => by simp [idem]

theorem Keyed.byEvent_of_mem (h : Keyed s) {d : DeliveryRow} (hd : d ∈ s.deliveries) :
    byEvent s d.tenant d.eventID = some d :=
  h.deliveries.find_of_mem hd fun x => by simp [event]

/-- **A used idempotency key keeps its reservation**: the row is the same up to its state. -/
theorem byKey_run {H : Digest} (h : Keyed s) (cs : List Call) {tenant key : String} {r : ReservationRow}
    (hr : byKey s tenant key = some r) :
    ∃ r', byKey (Run.run H cs s) tenant key = some r' ∧ HoldStep r r' := by
  obtain ⟨hmem, rfl, rfl⟩ := byKey_some hr
  obtain ⟨r', hr', hstep⟩ := (evolves_run (H := H) cs s).reservations r.pk r (Table.find?_of_mem hmem)
  have hby := (h.run (H := H) cs).byKey_of_mem (Table.mem_of_find? hr')
  have ht : r'.tenant = r.tenant := by rw [hstep.1]
  have hk : r'.idemKey = r.idemKey := by rw [hstep.1]
  rw [ht, hk] at hby
  exact ⟨r', hby, hstep⟩

/-- **A used event identifier keeps its delivery.** -/
theorem byEvent_run {H : Digest} (h : Keyed s) (cs : List Call) {tenant eventID : String} {d : DeliveryRow}
    (hd : byEvent s tenant eventID = some d) :
    ∃ d', byEvent (Run.run H cs s) tenant eventID = some d' ∧ DeliveryStep d d' := by
  obtain ⟨hmem, rfl, rfl⟩ := byEvent_some hd
  obtain ⟨d', hd', hstep⟩ := (evolves_run (H := H) cs s).deliveries d.pk d (Table.find?_of_mem hmem)
  have hby := (h.run (H := H) cs).byEvent_of_mem (Table.mem_of_find? hd')
  have ht : d'.tenant = d.tenant := by rw [hstep.1]
  have hk : d'.eventID = d.eventID := by rw [hstep.1]
  rw [ht, hk] at hby
  exact ⟨d', hby, hstep⟩

/-! ### Where rows come from -/

/-- **Where a reservation comes from**: it was there, or the call made it. -/
theorem reservation_origin {H : Digest} {o : Op} (hc : Change H s o s') :
    ∀ r' ∈ s'.reservations, (∃ r ∈ s.reservations, HoldStep r r') ∨
      ∃ tenant key inp d, o = .reserve tenant key inp d ∧ r' = newReservation H tenant key inp d := by
  have hold : ∀ r ∈ s.reservations, (∃ r₀ ∈ s.reservations, HoldStep r₀ r) ∨
      ∃ tenant key inp d, o = .reserve tenant key inp d ∧ r = newReservation H tenant key inp d :=
    fun r hr => Or.inl ⟨r, hr, .refl r⟩
  cases hc with
  | seeded hs => rw [hs.rest]; exact hold
  | held c hv hc hk hs hb hck hid ha => exact Table.forall_put hold (Or.inr ⟨_, _, _, _, rfl, rfl⟩)
  | settled dl p r hd hs hp hv hr hh =>
    exact Table.forall_put hold (Or.inl ⟨r, Table.mem_of_find? hr, rfl, Or.inr hh⟩)
  | released r hr hh =>
    exact Table.forall_put hold (Or.inl ⟨r, Table.mem_of_find? hr, rfl, Or.inr hh⟩)
  | _ => exact hold

/-- **Where a delivery comes from**: it was there, or the call accepted it. -/
theorem delivery_origin {H : Digest} {o : Op} (hc : Change H s o s') :
    ∀ d' ∈ s'.deliveries, (∃ d ∈ s.deliveries, DeliveryStep d d') ∨
      ∃ tenant r d, o = .accept tenant r d ∧ d' = newDelivery H tenant r d := by
  have hold : ∀ d ∈ s.deliveries, (∃ d₀ ∈ s.deliveries, DeliveryStep d₀ d) ∨
      ∃ tenant r e, o = .accept tenant r e ∧ d = newDelivery H tenant r e :=
    fun d hd => Or.inl ⟨d, hd, .refl d⟩
  cases hc with
  | seeded hs => rw [hs.rest]; exact hold
  | accepted hv hk hf => exact Table.forall_put hold (Or.inr ⟨_, _, _, rfl, rfl⟩)
  | seen dl hd hs => exact Table.forall_put hold (Or.inl ⟨dl, Table.mem_of_find? hd, rfl, fun _ => rfl⟩)
  | decided dl status reason hd hs =>
    exact Table.forall_put hold
      (Or.inl ⟨dl, Table.mem_of_find? hd, deliveryStep_open (by rw [hs]; simp) _ _ _⟩)
  | settled dl p r hd hs =>
    exact Table.forall_put hold
      (Or.inl ⟨dl, Table.mem_of_find? hd, deliveryStep_open (by rw [hs]; simp) _ _ _⟩)
  | died o ho hj =>
    refine Table.forall_modify hold (fun d hd => ?_) _
    rcases hd with ⟨d₀, hd₀, hstep⟩ | ⟨_, _, _, ho, _⟩
    · exact Or.inl ⟨d₀, hd₀, hstep.trans _ _ _ (deliveryStep_dead d)⟩
    · cases ho
  | reopened dl hd hs =>
    refine Table.forall_put hold
      (Or.inl ⟨dl, Table.mem_of_find? hd, deliveryStep_open ?_ _ _ dl.attempts⟩)
    rcases hs with hs | hs <;> rw [hs] <;> simp
  | _ => exact hold

/-- What a key finds after a call, it found before, or the call used the key. -/
theorem Keyed.byKey_origin {H : Digest} {o : Op} (h : Keyed s) (hc : Change H s o s') {tenant key : String}
    {r' : ReservationRow} (hr' : byKey s' tenant key = some r') :
    (∃ r, byKey s tenant key = some r ∧ HoldStep r r') ∨
      ∃ inp d, o = .reserve tenant key inp d ∧ r' = newReservation H tenant key inp d := by
  obtain ⟨hmem, rfl, rfl⟩ := byKey_some hr'
  rcases reservation_origin hc r' hmem with ⟨r, hr, hstep⟩ | ⟨tenant, key, inp, d, rfl, rfl⟩
  · have hby := h.byKey_of_mem hr
    have ht : r'.tenant = r.tenant := by rw [hstep.1]
    have hk : r'.idemKey = r.idemKey := by rw [hstep.1]
    rw [← ht, ← hk] at hby
    exact Or.inl ⟨r, hby, hstep⟩
  · exact Or.inr ⟨inp, d, rfl, rfl⟩

/-- What an event identifier finds after a call, it found before, or the call used it. -/
theorem Keyed.byEvent_origin {H : Digest} {o : Op} (h : Keyed s) (hc : Change H s o s')
    {tenant eventID : String} {d' : DeliveryRow} (hd' : byEvent s' tenant eventID = some d') :
    (∃ d, byEvent s tenant eventID = some d ∧ DeliveryStep d d') ∨
      ∃ r d, r.eventID = eventID ∧ o = .accept tenant r d ∧ d' = newDelivery H tenant r d := by
  obtain ⟨hmem, rfl, rfl⟩ := byEvent_some hd'
  rcases delivery_origin hc d' hmem with ⟨d, hd, hstep⟩ | ⟨tenant, r, e, rfl, rfl⟩
  · have hby := h.byEvent_of_mem hd
    have ht : d'.tenant = d.tenant := by rw [hstep.1]
    have hk : d'.eventID = d.eventID := by rw [hstep.1]
    rw [← ht, ← hk] at hby
    exact Or.inl ⟨d, hby, hstep⟩
  · exact Or.inr ⟨r, e, rfl, rfl, rfl⟩

end Step

end Afterglow.Core.Keys
