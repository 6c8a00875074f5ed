import Afterglow.Core.Reports
import Afterglow.Core.Tenant

/-! # Tenants do not interfere

A run mixes the calls and reports of all tenants (`Event`). `replies T` is what tenant `T` is answered
along it. Two runs that start from stores in agreement for `T` and make the same requests for `T` answer
them alike and end in agreement for `T`, whatever else either of them does for other tenants
(`tenant_noninterference`). -/

namespace Afterglow.Core.Isolation

open Afterglow.Sql.Rows Afterglow.Sql.Txn Afterglow.Sql.Select Afterglow.Core.Model
open Afterglow.Core.Statements Afterglow.Core.Store Afterglow.Core.Outcome Afterglow.Core.Run
open Afterglow.Core.Keys Afterglow.Core.Reports Afterglow.Core.Tenant

/-! ### Reports -/

section Report

variable {tenant : String} {s t : Store}

theorem mapM_congr {ε α β : Type} {f g : α → Except ε β} : ∀ {l : List α}, (∀ a ∈ l, f a = g a) →
    l.mapM f = l.mapM g
  | [], _ => rfl
  | a :: l, h => by
    rw [List.mapM_cons, List.mapM_cons, h a List.mem_cons_self,
      mapM_congr fun x hx => h x (List.mem_cons_of_mem a hx)]

theorem campaignsOf_agree (h : Rows tenant s t) : campaignsOf s tenant = campaignsOf t tenant :=
  h.campaigns.select fun _ ha _ hb hta htb hid => Table.key_injOn ha hb
    (Prod.ext ((of_decide_eq_true hta).trans (of_decide_eq_true htb).symm) hid)

theorem reservationsOf_agree (h : Rows tenant s t) :
    reservationsOf s tenant = reservationsOf t tenant :=
  h.reservations.select fun _ ha _ hb hta htb hid => Table.key_injOn ha hb
    (Prod.ext ((of_decide_eq_true hta).trans (of_decide_eq_true htb).symm) hid)

theorem deliveriesOf_agree (h : Rows tenant s t) : deliveriesOf s tenant = deliveriesOf t tenant :=
  h.deliveries.select fun _ ha _ hb hta htb hid => Table.key_injOn ha hb
    (Prod.ext ((of_decide_eq_true hta).trans (of_decide_eq_true htb).symm) hid)

theorem auditOf_agree (h : Rows tenant s t) : auditOf s tenant = auditOf t tenant :=
  h.audit.select fun _ ha _ hb _ _ hid => Table.key_injOn ha hb hid

theorem screensOf_agree (h : Agree tenant s t) : screensOf s = screensOf t :=
  h.screens.select fun _ ha _ hb _ _ hid => Table.key_injOn ha hb hid

theorem linked_agree (h : Rows tenant s t) (campaignID : String) :
    linked s tenant campaignID = linked t tenant campaignID := by
  have hlink : ∀ d ∈ deliveriesOf t tenant, link s campaignID d = link t campaignID d := by
    intro d hd
    have htenant : d.tenant = tenant := of_decide_eq_true (mem_select.mp hd).2
    rw [link, link]
    cases d.payload with
    | other raw => rfl
    | json p => simp only [htenant, h.reservation]
  rw [linked, linked, deliveriesOf_agree h, mapM_congr hlink]

/-- **Reports depend on the tenant's rows and on the screens only.** -/
theorem report_agree (h : Agree tenant s t) (q : Query) (fault : Bool) :
    q.exec tenant fault s = q.exec tenant fault t := by
  unfold Query.exec
  cases fault with
  | true => rfl
  | false =>
    cases q with
    | snapshot now =>
      show snapshot s tenant now = snapshot t tenant now
      rw [snapshot, snapshot, deliveriesOf_agree h.toRows, campaignsOf_agree h.toRows,
        reservationsOf_agree h.toRows, auditOf_agree h.toRows, screensOf_agree h]
    | evidence id now =>
      show evidence s tenant id now = evidence t tenant id now
      simp only [evidence, h.delivery, h.intent, h.reservation]
    | assurance campaignID now =>
      show assurance s tenant campaignID now = assurance t tenant campaignID now
      simp only [assurance, screenRows, h.campaign, reservationsOf_agree h.toRows, screensOf_agree h,
        linked_agree h.toRows]

end Report

/-! ### Runs -/

/-- A call of a method that writes, or a report. -/
inductive Event
  | call (c : Call)
  | report (tenant : String) (q : Query) (fault : Bool)

/-- The tenant the event is for. -/
def Event.tenant : Event → Option String
  | .call c => opTenant c.op
  | .report tenant _ _ => some tenant

/-- What an event is answered. -/
inductive Reply
  | call (o : Op) (a : Except Err o.Ans)
  | report (q : Query) (a : Except Err q.Ans)

def Event.reply (H : Digest) (s : Store) : Event → Reply
  | .call c => .call c.op (c.op.exec H c.fault s).1
  | .report tenant q fault => .report q (q.exec tenant fault s)

def Event.step (H : Digest) (s : Store) : Event → Store
  | .call c => c.step H s
  | .report _ _ _ => s

/-- The store after a run. -/
def after (H : Digest) (es : List Event) (s : Store) : Store := es.foldl (Event.step H) s

/-- The event is one of the tenant's. -/
def Event.isFor (tenant : String) (e : Event) : Bool := e.tenant = some tenant

/-- What the tenant asks for along a run. -/
def requests (tenant : String) (es : List Event) : List Event := es.filter (Event.isFor tenant)

/-- **What the tenant is answered along a run.** -/
def replies (H : Digest) (tenant : String) : List Event → Store → List Reply
  | [], _ => []
  | e :: es, s =>
    if e.isFor tenant then e.reply H s :: replies H tenant es (e.step H s)
    else replies H tenant es (e.step H s)

/-- A call for `tenant` draws an audit identifier that no other tenant's row has. -/
def Event.fresh (tenant : String) (s : Store) : Event → Prop
  | .call c => Clear tenant (opStamp c.op) s
  | .report _ _ _ => True

/-- The intent a claim takes. -/
def taken (s : Store) : Op → Option OutboxRow
  | .claim postgres now _ => firstDue (claimable s postgres Engine.alone now)
  | _ => none

/-- An event of others: it is not for the tenant; if it seeds another tenant, the inventory is there
already; and if it is a claim, it takes another tenant's job. -/
def Event.foreign (tenant : String) (s : Store) (e : Event) : Prop :=
  e.tenant ≠ some tenant ∧
    match e with
    | .call c =>
      (∀ v ∈ opStock c.op, s.screens.find? v.id ≠ none) ∧ ∀ o ∈ taken s c.op, o.tenant ≠ tenant
    | .report _ _ _ => True

/-- Along the run the tenant's calls draw fresh identifiers, and all other events are of others. -/
def Interleaved (H : Digest) (tenant : String) : List Event → Store → Prop
  | [], _ => True
  | e :: es, s => (if e.isFor tenant then e.fresh tenant s else e.foreign tenant s) ∧
    Interleaved H tenant es (e.step H s)

instance (tenant : String) (s : Store) : (e : Event) → Decidable (e.fresh tenant s)
  | .call c => inferInstanceAs (Decidable (∀ a ∈ s.audit.rows, opStamp c.op = some a.id → a.tenant = tenant))
  | .report _ _ _ => inferInstanceAs (Decidable True)

instance (tenant : String) (s : Store) : (e : Event) → Decidable (e.foreign tenant s)
  | .call c => inferInstanceAs (Decidable (opTenant c.op ≠ some tenant ∧
      (∀ v ∈ opStock c.op, s.screens.find? v.id ≠ none) ∧ ∀ o ∈ taken s c.op, o.tenant ≠ tenant))
  | .report other _ _ => inferInstanceAs (Decidable (some other ≠ some tenant ∧ True))

instance decidableInterleaved (H : Digest) (tenant : String) :
    (es : List Event) → (s : Store) → Decidable (Interleaved H tenant es s)
  | [], _ => inferInstanceAs (Decidable True)
  | e :: es, s =>
    have := decidableInterleaved H tenant es (e.step H s)
    inferInstanceAs (Decidable ((if e.isFor tenant then e.fresh tenant s else e.foreign tenant s) ∧
      Interleaved H tenant es (e.step H s)))

section Step

variable {H : Digest} {tenant : String} {s t : Store} {e : Event}

theorem keyed_step (h : Keyed s) : Keyed (e.step H s) := by
  cases e with
  | call c => exact h.change (c.op.change H c.fault s)
  | report other q fault => exact h

/-- A call that is no tenant's: a claim of another tenant's job, or a poison message. -/
theorem agree_shared {c : Call} (ho : opTenant c.op = none) (htaken : ∀ o ∈ taken s c.op, o.tenant ≠ tenant) :
    Agree tenant s (c.step H s) := by
  obtain ⟨o, fault⟩ := c
  have hchange := o.change H fault s
  show Agree tenant s (o.exec H fault s).2
  generalize (o.exec H fault s).2 = s' at hchange
  cases hchange with
  | same => exact Agree.refl tenant s
  | @leased _ now owner x hx =>
    have hrows : Rows tenant s (writeRow (.outbox (leasedRow x owner now)) s) :=
      Rows.of_write (fun h => htaken x hx (Option.some.inj h)) fun a ha => by cases ha
    exact ⟨hrows, .refl _⟩
  | poisoned q => exact ⟨{ Rows.refl tenant s with }, .refl _⟩
  | _ => cases ho

/-- A call for another tenant. -/
theorem agree_call {c : Call} {other : String} (ho : opTenant c.op = some other) (hne : tenant ≠ other)
    (hstock : ∀ v ∈ opStock c.op, s.screens.find? v.id ≠ none) : Agree tenant s (c.step H s) := by
  have hapart := exec_apart H ho hne c.fault s
  have hscreens : (c.step H s).screens = s.screens := hapart.screens hstock
  refine ⟨hapart.rows, ?_⟩
  rw [hscreens]
  exact .refl _

/-- **An event of others keeps the tenant's rows.** -/
theorem agree_foreign (h : e.foreign tenant s) : Agree tenant s (e.step H s) := by
  obtain ⟨hne, h⟩ := h
  cases e with
  | report other q fault => exact Agree.refl tenant s
  | call c =>
    cases ho : opTenant c.op with
    | none => exact agree_shared ho h.2
    | some other => exact agree_call ho (fun heq => hne (heq ▸ ho)) h.1

/-- **An event of the tenant** is answered alike in stores in agreement, and keeps them so. -/
theorem agree_own (hown : e.tenant = some tenant) (h : Agree tenant s t) (hs : Keyed s) (ht : Keyed t)
    (hfs : e.fresh tenant s) (hft : e.fresh tenant t) :
    e.reply H s = e.reply H t ∧ Agree tenant (e.step H s) (e.step H t) := by
  cases e with
  | report other q fault =>
    obtain rfl : other = tenant := Option.some.inj hown
    exact ⟨congrArg (Reply.report q) (report_agree h q fault), h⟩
  | call c =>
    obtain ⟨hans, hag⟩ := exec_agree H hown c.fault ⟨h, hs, ht, hfs, hft⟩
    exact ⟨congrArg (Reply.call c.op) hans, hag⟩

end Step

/-! ### The theorem -/

section Run

variable {H : Digest} {tenant : String}

theorem Interleaved.right {es es' : List Event} {s : Store} (h : Interleaved H tenant (es ++ es') s) :
    Interleaved H tenant es' (after H es s) := by
  induction es generalizing s with
  | nil => exact h
  | cons e es ih => exact ih h.2

theorem Interleaved.left {es es' : List Event} {s : Store} (h : Interleaved H tenant (es ++ es') s) :
    Interleaved H tenant es s := by
  induction es generalizing s with
  | nil => trivial
  | cons e es ih => exact ⟨h.1, ih h.2⟩

/-- A stretch of events of others. -/
theorem agree_stretch {es es' : List Event} {s : Store} (hes : ∀ e ∈ es, ¬ e.isFor tenant = true)
    (h : Interleaved H tenant (es ++ es') s) (hs : Keyed s) :
    Agree tenant s (after H es s) ∧ Keyed (after H es s) ∧
      replies H tenant (es ++ es') s = replies H tenant es' (after H es s) := by
  induction es generalizing s with
  | nil => exact ⟨Agree.refl tenant s, hs, rfl⟩
  | cons e es ih =>
    have hno : ¬ e.isFor tenant = true := hes e List.mem_cons_self
    have hforeign : e.foreign tenant s := by
      have h1 := h.1
      rw [if_neg hno] at h1
      exact h1
    obtain ⟨hag, hk, hrep⟩ := ih (fun x hx => hes x (List.mem_cons_of_mem e hx)) h.2 (keyed_step hs)
    refine ⟨(agree_foreign hforeign).trans hag, hk, ?_⟩
    rw [List.cons_append, replies, if_neg hno]
    exact hrep

/-- Two runs with the same requests of the tenant. -/
theorem agree_runs {es es' : List Event} {s t : Store} (hs : Keyed s) (ht : Keyed t)
    (hst : Agree tenant s t) (hreq : requests tenant es = requests tenant es')
    (he : Interleaved H tenant es s) (he' : Interleaved H tenant es' t) :
    replies H tenant es s = replies H tenant es' t ∧ Agree tenant (after H es s) (after H es' t) := by
  -- by induction on the first run: the second catches up at each event of the tenant
  induction es generalizing es' s t with
  | nil =>
    have hnone : ∀ e ∈ es', ¬ e.isFor tenant = true := List.filter_eq_nil_iff.mp hreq.symm
    have he'' : Interleaved H tenant (es' ++ []) t := by rw [List.append_nil]; exact he'
    obtain ⟨hag, -, hrep⟩ := agree_stretch hnone he'' ht
    rw [List.append_nil] at hrep
    exact ⟨hrep.symm, hst.trans hag⟩
  | cons e es ih =>
    by_cases hown : e.isFor tenant = true
    · have hfilter : requests tenant es' = e :: requests tenant es := by
        rw [← hreq, requests, requests, List.filter_cons_of_pos hown]
      obtain ⟨fs, rest, rfl, hfs, -, hrest⟩ := List.filter_eq_cons_iff.mp hfilter
      obtain ⟨hag, hk, hrep⟩ := agree_stretch hfs he' ht
      have htail := he'.right
      have hfresh : e.fresh tenant s := by
        have h1 := he.1
        rw [if_pos hown] at h1
        exact h1
      have hfresh' : e.fresh tenant (after H fs t) := by
        have h1 := htail.1
        rw [if_pos hown] at h1
        exact h1
      obtain ⟨hreply, hag'⟩ := agree_own (H := H) (of_decide_eq_true hown) (hst.trans hag) hs hk hfresh hfresh'
      obtain ⟨hreplies, hend⟩ := ih (keyed_step hs) (keyed_step hk) hag' hrest.symm he.2 htail.2
      rw [hrep, replies, replies, if_pos hown, if_pos hown, hreply, hreplies]
      refine ⟨rfl, ?_⟩
      rw [show after H (fs ++ e :: rest) t = after H rest (e.step H (after H fs t)) from List.foldl_append]
      exact hend
    · have hfilter : requests tenant es = requests tenant es' := by
        rw [← hreq, requests, requests, List.filter_cons_of_neg hown]
      have hforeign : e.foreign tenant s := by
        have h1 := he.1
        rw [if_neg hown] at h1
        exact h1
      rw [replies, if_neg hown]
      exact ih (keyed_step hs) ht ((agree_foreign hforeign).symm.trans hst) hfilter he.2 he'

/-- **Tenants do not interfere.** Take two stores that hold the same screens and the same rows of a
tenant, and two runs with the same requests of that tenant (calls with the same arguments, clock readings
and drawn identifiers, and reports), each interleaved with anything for other tenants. The tenant is
answered the same in both, its rows are the same whenever both runs have got equally far with its
requests, and no event for the tenant changes a row of another. -/
theorem tenant_noninterference (H : Digest) (tenant : String) (s t : Store) (hs : Keyed s) (ht : Keyed t)
    (hst : Agree tenant s t) (es es' : List Event) (hreq : requests tenant es = requests tenant es')
    (he : Interleaved H tenant es s) (he' : Interleaved H tenant es' t) :
    replies H tenant es s = replies H tenant es' t ∧
    (∀ a b a' b', es = a ++ b → es' = a' ++ b' → requests tenant a = requests tenant a' →
      Agree tenant (after H a s) (after H a' t)) ∧
    ∀ e : Event, e.tenant = some tenant → ∀ (other : String) (u : Store), other ≠ tenant →
      Rows other u (e.step H u) ∧ (e.step H u).quarantine = u.quarantine := by
  refine ⟨(agree_runs hs ht hst hreq he he').1, ?_, ?_⟩
  · rintro a b a' b' rfl rfl hreq'
    exact (agree_runs hs ht hst hreq' he.left he'.left).2
  · intro e hown other u hne
    cases e with
    | report _ _ _ => exact ⟨Rows.refl other u, rfl⟩
    | call c =>
      have hapart := exec_apart H hown hne c.fault u
      exact ⟨hapart.rows, hapart.quarantine⟩

/-- A digest that spells out names. -/
def names : Digest := ⟨fun inp => inp.campaignID ++ "/" ++ inp.screenID, fun r => r.eventID⟩

/-- Two tenants use the same identifiers for their reservation, its key, the event and the delivery, and
the receipt of each names the other's reservation too. -/
def twoTenants : List Event :=
  [.call ⟨.reserve "rival" "key" ⟨"cmp-cascade", "sea-01", 7000000⟩ ⟨"hold", 10, 10, ⟨"b1", 10⟩⟩, none⟩,
    .call ⟨.reserve "acme" "key" ⟨"cmp-cascade", "sea-01", 5000000⟩ ⟨"hold", 20, 20, ⟨"a1", 20⟩⟩, none⟩,
    .call ⟨.accept "rival" ⟨1, "event", "hold", "sea-01", 30, 15000⟩ ⟨"play", 40, [], ⟨"b2", 40⟩⟩, none⟩,
    .call ⟨.process "rival" "play" ⟨50, ⟨"b3", 50⟩⟩, none⟩,
    .call ⟨.accept "acme" ⟨1, "event", "hold", "sea-01", 30, 15000⟩ ⟨"play", 60, [], ⟨"a2", 60⟩⟩, none⟩,
    .call ⟨.claim false 70 "worker", none⟩,
    .call ⟨.process "acme" "play" ⟨80, ⟨"a3", 80⟩⟩, none⟩,
    .call ⟨.complete "acme" "play", none⟩,
    .report "acme" (.assurance "cmp-cascade" 90) false]

theorem tenant_noninterference_twoTenants :
    let t := run names [⟨.seed "acme", none⟩] .empty
    let s := Call.step names t ⟨.seed "rival", none⟩
    replies names "acme" twoTenants s = replies names "acme" (requests "acme" twoTenants) t ∧
    Agree "acme" (after names twoTenants s) (after names (requests "acme" twoTenants) t) ∧
    ((after names twoTenants s).campaigns.rows.filter fun c => c.spent ≠ 0).map
      (fun c => (c.tenant, c.spent)) = [("acme", 5000000), ("rival", 7000000)] := by
  intro t s
  have ht : Keyed t := Keyed.empty.run _
  have hseed : Agree "acme" t s := agree_foreign (e := .call ⟨.seed "rival", none⟩) (by decide +kernel)
  have h := tenant_noninterference names "acme" s t (keyed_step (e := .call ⟨.seed "rival", none⟩) ht) ht
    hseed.symm twoTenants (requests "acme" twoTenants) (by simp [requests]) (by decide +kernel)
    (by decide +kernel)
  refine ⟨h.1, h.2.1 twoTenants [] (requests "acme" twoTenants) [] ?_ ?_ ?_, by decide +kernel⟩
  · rw [List.append_nil]
  · rw [List.append_nil]
  · simp [requests]

end Run

end Afterglow.Core.Isolation
