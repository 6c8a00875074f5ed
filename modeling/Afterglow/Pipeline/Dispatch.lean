import Afterglow.Core.Intent
import Afterglow.Pipeline.Worker

/-! # No accepted receipt is stranded

The only remaining intent to dispatch a delivery is never erased while the delivery is `accepted`. The
invariant (`Safe`) ties three things together: an intent marked `dispatched` has a message in flight that
no subscriber has processed yet (`Live`); a dispatcher that has published and still holds the lease has
such a message too; and a finished intent belongs to a decided delivery. -/

namespace Afterglow.Pipeline.Dispatch

open Afterglow.Sql.Rows Afterglow.Sql.Txn Afterglow.Core.Model Afterglow.Core.Statements
open Afterglow.Core.Store Afterglow.Core.Outcome Afterglow.Core.Run Afterglow.Core.Settlement
open Afterglow.Core.Intent Afterglow.Pipeline.Worker

/-! ### Assumptions on the steps -/

/-- The calls that come from outside the pipeline. Tenants and identifiers are not empty. -/
def outside : Op → Prop
  | .claim .. => False
  | .dispatched .. => False
  | .failJob .. => False
  | .accept tenant _ d => tenant ≠ "" ∧ d.id ≠ ""
  | _ => True

/-- A call is one from outside. -/
def Action.allowed : Action → Prop
  | .call c => outside c.op
  | _ => True

/-- The owner token a step draws. -/
def Action.owner? : Action → Option String
  | .claim _ _ _ owner _ _ => some owner
  | _ => none

/-- The message identifier a step draws from the broker. -/
def Action.mid? : Action → Option String
  | .publish _ mid _ _ => some mid
  | _ => none

/-! ### The invariant -/

/-- The job a dispatcher works on. -/
def job? : Dispatcher → Option Job
  | .idle => none
  | .claimed j => some j
  | .published j => some j
  | .processed j => some j
  | .failed j => some j

/-- The message a subscriber works on. -/
def message? : Subscriber → Option Message
  | .idle => none
  | .received m => some m
  | .processed m => some m
  | .poison m _ => some m
  | .finished m => some m

/-- The message a subscriber is through with, but for its last steps. -/
def past? : Subscriber → Option Message
  | .idle => none
  | .received _ => none
  | .processed m => some m
  | .poison m _ => some m
  | .finished m => some m

/-- A message in flight that will still dispatch delivery `k`: no subscriber is through with it. -/
def Live (x : System) (k : Key2) : Prop :=
  ∃ m ∈ x.broker, m.envelope = some k ∧ ∀ n, past? (x.subscribers n) ≠ some m

/-- The dispatcher's promise before `Dispatched`: if the job still holds the lease of an accepted
delivery, a message is in flight. -/
def Promise (x : System) (j : Job) : Prop :=
  ∀ o, entry x.store (j.tenant, j.id) = some (.accepted, o) → Job.holds j o → Live x (j.tenant, j.id)

/-- **The invariant**, where `T` are the owner tokens and `M` the message identifiers drawn so far. -/
structure Safe (T M : List String) (x : System) : Prop where
  paired : Paired x.store
  named : ∀ k e, entry x.store k = some e → k.1 ≠ "" ∧ k.2 ≠ ""
  done : ∀ k status o, entry x.store k = some (status, o) → o.state = .done ∨ o.state = .dead →
    status ≠ .accepted
  carried : ∀ k o, entry x.store k = some (.accepted, o) → o.state = .dispatched → Live x k
  promised : ∀ i j, x.dispatchers i = .published j → Promise x j
  tokens : ∀ i j, job? (x.dispatchers i) = some j → j.owner ∈ T
  inFlight : ∀ m ∈ x.broker, m.mid ∈ M
  inHand : ∀ n m, message? (x.subscribers n) = some m → m.mid ∈ M

theorem message_of_past {p : Subscriber} {m : Message} (h : past? p = some m) : message? p = some m := by
  cases p <;> first | exact h | cases h

/-! ### Moves of the store -/

/-- What a transaction needs for the invariant. -/
def Fits (x : System) : Op → Prop
  | .accept tenant _ d => tenant ≠ "" ∧ d.id ≠ ""
  | .claim _ _ owner => ∀ i j, x.dispatchers i = .published j → j.owner ≠ owner
  | .dispatched j => Promise x j
  | _ => True

theorem fits_of_outside {x : System} {o : Op} (h : outside o) : Fits x o := by
  cases o <;> first | exact h | trivial

theorem holds_leased {j : Job} {o : OutboxRow} (h : Job.holds j o) : o.state = .leased := h.2

namespace Safe

variable {T M : List String} {x : System}

/-- **A transaction keeps the invariant.** -/
theorem store (h : Safe T M x) {H : Digest} {op : Op} {s' : Store} (hc : Change H x.store op s')
    (hf : Fits x op) : Safe T M { x with store := s' } := by
  have hmove := move_of_change h.paired hc
  refine ⟨h.paired.change hc, ?_, ?_, ?_, ?_, h.tokens, h.inFlight, h.inHand⟩
  · intro k e he
    have hk := hmove k
    rw [show entry s' k = some e from he] at hk
    generalize hb : entry x.store k = b at hk
    cases hk with
    | same => exact h.named k e hb
    | born hk => rw [← hk]; exact hf
    | _ => exact h.named k _ hb
  · intro k status o he hst
    have hk := hmove k
    rw [show entry s' k = some (status, o) from he] at hk
    generalize hb : entry x.store k = b at hk
    cases hk with
    | same => exact h.done k status o hb hst
    | born => simp at hst
    | judged _ hs => exact hs
    | leased => simp [leasedRow] at hst
    | dispatched => simp [freedRow] at hst
    | finished _ hs => exact hs
    | retried _ _ hs => simp [failedRow, freedRow, hs] at hst
    | died _ _ _ hs => exact hs
    | reopened => simp [requeuedRow] at hst
  · intro k o he hst
    have hk := hmove k
    rw [show entry s' k = some (.accepted, o) from he] at hk
    generalize hb : entry x.store k = b at hk
    cases hk with
    | same => exact h.carried k o hb hst
    | born => simp at hst
    | judged _ hs => exact absurd rfl hs
    | leased => simp [leasedRow] at hst
    | dispatched hk hj =>
      subst hk
      exact hf _ hb hj
    | finished => simp [freedRow] at hst
    | retried _ _ hs => simp [failedRow, freedRow, hs] at hst
    | died _ _ _ hs => exact absurd rfl hs
    | reopened => simp [requeuedRow] at hst
  · intro i j hi o he hj
    have hk := hmove (j.tenant, j.id)
    rw [show entry s' (j.tenant, j.id) = some (.accepted, o) from he] at hk
    generalize hb : entry x.store (j.tenant, j.id) = b at hk
    have hst := holds_leased hj
    cases hk with
    | same => exact h.promised i j hi o hb hj
    | born => simp at hst
    | judged _ hs => exact absurd rfl hs
    | leased => exact absurd hj.1.symm (hf i j hi)
    | dispatched => simp [freedRow] at hst
    | finished _ hs => exact absurd rfl hs
    | retried _ _ hs => simp [failedRow, freedRow, hs] at hst
    | died _ _ _ hs => exact absurd rfl hs
    | reopened => simp [requeuedRow] at hst

/-- **A dispatcher's move keeps the invariant** if it keeps its promise. -/
theorem dispatcher (h : Safe T M x) {i : ℕ} {p : Dispatcher}
    (htok : ∀ j, job? p = some j → j.owner ∈ T) (hp : ∀ j, p = .published j → Promise x j) :
    Safe T M (x.setDispatcher i p) := by
  have hcases : ∀ n, (x.setDispatcher i p).dispatchers n = p ∨
      (x.setDispatcher i p).dispatchers n = x.dispatchers n := by
    intro n
    by_cases hn : n = i
    · exact Or.inl (by subst hn; exact Function.update_self ..)
    · exact Or.inr (Function.update_of_ne hn ..)
  refine ⟨h.paired, h.named, h.done, h.carried, ?_, ?_, h.inFlight, h.inHand⟩
  · intro n j hj
    rcases hcases n with hn | hn
    · exact hp j (hn.symm.trans hj)
    · exact h.promised n j (hn.symm.trans hj)
  · intro n j hj
    rcases hcases n with hn | hn
    · exact htok j (hn ▸ hj)
    · exact h.tokens n j (hn ▸ hj)

/-- **A subscriber's move keeps the invariant** if it gets through with a message only when the delivery
it names is decided. -/
theorem subscriber (h : Safe T M x) {n : ℕ} {p : Subscriber}
    (hmid : ∀ m, message? p = some m → m.mid ∈ M)
    (hp : ∀ m, past? p = some m → past? (x.subscribers n) = some m ∨
      ∀ k o, m.envelope = some k → entry x.store k ≠ some (.accepted, o)) :
    Safe T M (x.setSubscriber n p) := by
  have hcases : ∀ a, (x.setSubscriber n p).subscribers a = p ∧ a = n ∨
      (x.setSubscriber n p).subscribers a = x.subscribers a := by
    intro a
    by_cases ha : a = n
    · exact Or.inl ⟨by subst ha; exact Function.update_self .., ha⟩
    · exact Or.inr (Function.update_of_ne ha ..)
  have hlive : ∀ k o, entry x.store k = some (.accepted, o) → Live x k →
      Live (x.setSubscriber n p) k := by
    rintro k o he ⟨m, hm, henv, hpast⟩
    refine ⟨m, hm, henv, fun a ha => ?_⟩
    rcases hcases a with ⟨hap, rfl⟩ | hax
    · rw [hap] at ha
      rcases hp m ha with hold | hno
      · exact hpast a hold
      · exact hno k o henv he
    · exact hpast a (hax ▸ ha)
  refine ⟨h.paired, h.named, h.done, ?_, ?_, h.tokens, h.inFlight, ?_⟩
  · intro k o he hst
    exact hlive k o he (h.carried k o he hst)
  · intro i j hi o he hj
    exact hlive _ o he (h.promised i j hi o he hj)
  · intro a m hm
    rcases hcases a with ⟨hap, -⟩ | hax
    · exact hmid m (hap ▸ hm)
    · exact h.inHand a m (hax ▸ hm)

theorem mono (h : Safe T M x) {T' M' : List String} (hT : T ⊆ T') (hM : M ⊆ M') : Safe T' M' x :=
  ⟨h.paired, h.named, h.done, h.carried, h.promised, fun i j hj => hT (h.tokens i j hj),
    fun m hm => hM (h.inFlight m hm), fun n m hm => hM (h.inHand n m hm)⟩

end Safe

/-! ### What the answers of the transactions tell -/

section Answer

variable {H : Digest} {s : Store} {fault : Option ℕ}

/-- When `Process` answers a status, the delivery is decided. -/
theorem entry_of_process_ok {tenant id : String} {d : ProcessDraw} {status : Status}
    (h : ((Op.process tenant id d).exec H fault s).1 = .ok status) (o : OutboxRow) :
    entry ((Op.process tenant id d).exec H fault s).2 (tenant, id) ≠ some (.accepted, o) := by
  have hout : ∀ x : Except Err Status × Store, ProcessOut tenant id d s x → x.1 = .ok status →
      entry x.2 (tenant, id) ≠ some (.accepted, o) := by
    intro x hx hok he
    obtain ⟨d', hd', hst, -⟩ := entry_some.mp he
    have hput : ∀ (dl y : DeliveryRow), s.deliveries.find? (tenant, id) = some dl → y.pk = dl.pk →
        (s.deliveries.put y).find? (tenant, id) = some d' → y.status = .accepted := by
      intro dl y hd hy hf
      have hpk : y.pk = (tenant, id) := hy.trans (Table.find?_key hd)
      rw [Table.find?_put, if_pos hpk] at hf
      cases hf
      exact hst
    cases hx with
    | seen dl hd hs => exact hs (hput dl { dl with attempts := dl.attempts + 1 } hd rfl hd')
    | decided dl st reason hd _ hv =>
      exact verdict_ne_accepted hv (hput dl (decidedRow dl st reason) hd rfl hd')
    | settled dl p r hd => cases hput dl (decidedRow dl .settled .matched) hd rfl hd'
    | _ => cases hok
  rcases (Op.process tenant id d).exec_cases H fault s with hx | hx
  · rw [hx] at h ⊢
    exact hout _ (process_out tenant id d s) h
  · rw [hx] at h; cases h

theorem check_ne_notFound {c : CampaignRow} : c.check ≠ .error .notFound := by
  unfold CampaignRow.check; split_ifs <;> simp

theorem reservation_check_ne_notFound {r : ReservationRow} : r.check ≠ .error .notFound := by
  unfold ReservationRow.check; split_ifs <;> simp

/-- When `Process` answers that there is no delivery, there is none. -/
theorem entry_of_process_notFound {tenant id : String} {d : ProcessDraw}
    (h : ((Op.process tenant id d).exec H fault s).1 = .error .notFound) (o : OutboxRow) :
    entry ((Op.process tenant id d).exec H fault s).2 (tenant, id) ≠ some (.accepted, o) := by
  have hout : ∀ x : Except Err Status × Store, ProcessOut tenant id d s x → x.1 = .error .notFound →
      entry x.2 (tenant, id) ≠ some (.accepted, o) := by
    intro x hx herr
    cases hx with
    | missing hd => rw [entry_none hd]; simp
    | unlocked r hr e he => cases herr; exact absurd he reservation_check_ne_notFound
    | uncharged r c hr hh hc e he => cases herr; exact absurd he check_ne_notFound
    | _ => cases herr
  rcases (Op.process tenant id d).exec_cases H fault s with hx | hx
  · rw [hx] at h ⊢
    exact hout _ (process_out tenant id d s) h
  · rw [hx] at h; cases h

/-- A claimed job carries the token the claim drew. -/
theorem owner_of_claim {postgres : Bool} {now : Int} {owner : String} {j : Job}
    (h : ((Op.claim postgres now owner).exec H fault s).1 = .ok (some j)) : j.owner = owner := by
  have hout : ∀ x : Except Err (Option Job) × Store, ClaimOut postgres now owner s x →
      x.1 = .ok (some j) → j.owner = owner := by
    intro x hx hok
    cases hx <;> cases hok
    rfl
  rcases (Op.claim postgres now owner).exec_cases H fault s with hx | hx
  · rw [hx] at h
    exact hout _ (claim_out postgres now owner s) h
  · rw [hx] at h; cases h

end Answer

theorem afterClaim_cases (lost : Bool) (a : Except Err (Option Job)) :
    afterClaim lost a = .idle ∨ ∃ j, a = .ok (some j) ∧ afterClaim lost a = .claimed j := by
  unfold afterClaim
  split
  · split_ifs
    · exact Or.inl rfl
    · exact Or.inr ⟨_, rfl, rfl⟩
  · exact Or.inl rfl

/-! ### One step -/

namespace Safe

variable {T M : List String} {x : System} {H : Digest}

/-- A dispatcher's transaction that ends nowhere near `published`. -/
theorem byDispatcher (h : Safe T M x) {i : ℕ} {op : Op} {fault : Option ℕ}
    {after : Except Err op.Ans → Dispatcher} (hf : Fits x op)
    (htok : ∀ j, job? (after (op.exec H fault x.store).1) = some j → j.owner ∈ T)
    (hp : ∀ a j, after a ≠ .published j) : Safe T M (x.byDispatcher H i op fault after) :=
  (h.store (op.change H fault x.store) hf).dispatcher htok fun j hj => absurd hj (hp _ j)

theorem claim (h : Safe T M x) (i : ℕ) (postgres : Bool) (now : Int) {owner : String}
    (fault : Option ℕ) (lost : Bool) (how : owner ∉ T) :
    Safe (T ++ [owner]) M (x.byDispatcher H i (.claim postgres now owner) fault (afterClaim lost)) := by
  have h' : Safe (T ++ [owner]) M x := h.mono (List.subset_append_left _ _) (List.Subset.refl _)
  refine h'.byDispatcher ?_ ?_ ?_
  · intro n j hj he
    exact how (he ▸ h.tokens n j (by rw [hj]; rfl))
  · intro j hj
    rcases afterClaim_cases lost ((Op.claim postgres now owner).exec H fault x.store).1 with
      ha | ⟨j', ha, hc⟩
    · exact absurd ((congrArg job? ha).symm.trans hj) (by simp [job?])
    · cases (congrArg job? hc).symm.trans hj
      rw [owner_of_claim ha]
      exact List.mem_append_right _ List.mem_cons_self
  · intro a j hj
    rcases afterClaim_cases lost a with ha | ⟨j', -, hc⟩
    · cases ha.symm.trans hj
    · cases hc.symm.trans hj

/-- A step on a job the dispatcher already holds. -/
theorem work (h : Safe T M x) {i : ℕ} {op : Op} {fault : Option ℕ} {j : Job} {lost : Bool}
    {ok : Dispatcher} (hj : job? (x.dispatchers i) = some j) (hf : Fits x op)
    (hok : job? ok = none ∨ job? ok = some j) (hp : ∀ j', ok ≠ .published j') :
    Safe T M (x.byDispatcher H i op fault (afterStep j lost ok)) := by
  have hT : j.owner ∈ T := h.tokens i j hj
  refine h.byDispatcher hf ?_ ?_
  · intro j' hj'
    have hcases : ∀ a : Except Err op.Ans, afterStep j lost ok a = ok ∨
        afterStep j lost ok a = .failed j := by
      intro a
      unfold afterStep
      split
      · split_ifs
        · exact Or.inr rfl
        · exact Or.inl rfl
      · exact Or.inr rfl
    rcases hcases (op.exec H fault x.store).1 with ha | ha
    · rw [ha] at hj'
      rcases hok with hok | hok
      · rw [hok] at hj'; cases hj'
      · rw [hok] at hj'; cases hj'; exact hT
    · rw [ha] at hj'; cases hj'; exact hT
  · intro a j'
    unfold afterStep
    split
    · split_ifs
      · simp
      · exact hp j'
    · simp

/-- A published message promises its dispatch. -/
theorem publish (h : Safe T M x) {i : ℕ} {j : Job} (hj : x.dispatchers i = .claimed j) {mid : String}
    (data : List UInt8) (lost : Bool) (hmid : mid ∉ M) :
    Safe T (M ++ [mid]) ({ x with broker := x.broker ++ [Worker.publish j mid data] }.setDispatcher i
      (if lost then .failed j else .published j)) := by
  have hlive : ∀ k, Live x k → Live { x with broker := x.broker ++ [Worker.publish j mid data] } k := by
    rintro k ⟨m, hm, henv, hpast⟩
    exact ⟨m, List.mem_append_left _ hm, henv, hpast⟩
  have hbroker : Safe T (M ++ [mid]) { x with broker := x.broker ++ [Worker.publish j mid data] } := by
    refine ⟨h.paired, h.named, h.done, fun k o he hst => hlive k (h.carried k o he hst),
      fun n j' hj' o he hh => hlive _ (h.promised n j' hj' o he hh), h.tokens, fun m hm => ?_,
      fun n m hm => List.mem_append_left _ (h.inHand n m hm)⟩
    rcases List.mem_append.mp hm with hm | hm
    · exact List.mem_append_left _ (h.inFlight m hm)
    · rw [List.mem_singleton.mp hm]
      exact List.mem_append_right _ List.mem_cons_self
  have hT : j.owner ∈ T := h.tokens i j (by rw [hj]; rfl)
  refine hbroker.dispatcher (fun j' hj' => ?_) fun j' hj' o he _ => ?_
  · split_ifs at hj' <;> cases hj' <;> exact hT
  · split_ifs at hj'
    cases hj'
    obtain ⟨ht, hid⟩ := h.named _ _ he
    refine ⟨Worker.publish j mid data, List.mem_append_right _ List.mem_cons_self, ?_, fun n hn => ?_⟩
    · simp only [Message.envelope, Worker.publish, Text.unmarshal]
      simp only at ht hid
      simp [ht, hid]
    · exact hmid (h.inHand n _ (message_of_past hn))

/-- The callback after `Process`. -/
theorem consume (h : Safe T M x) {n : ℕ} {m : Message} (hm : x.subscribers n = .received m)
    {tenant id : String} (henv : m.envelope = some (tenant, id)) (d : ProcessDraw) (fault : Option ℕ)
    (lost : Bool) :
    Safe T M (x.bySubscriber H n (.process tenant id d) fault (afterConsume m lost)) := by
  have hin : m.mid ∈ M := h.inHand n m (by rw [hm]; rfl)
  have hstore := h.store ((Op.process tenant id d).change H fault x.store) (show Fits x _ from trivial)
  -- where the callback goes tells what `Process` answered
  have hcases : ∀ a : Except Err Status, message? (afterConsume m lost a) = none ∨
      message? (afterConsume m lost a) = some m ∧ past? (afterConsume m lost a) = some m ∧
        ((∃ st, a = .ok st) ∨ a = .error .notFound) := by
    intro a
    unfold afterConsume
    split
    · split_ifs
      · exact Or.inl rfl
      · exact Or.inr ⟨rfl, rfl, Or.inl ⟨_, rfl⟩⟩
    · split_ifs
      · exact Or.inl rfl
      · exact Or.inr ⟨rfl, rfl, Or.inr rfl⟩
    · exact Or.inl rfl
  have ha := hcases ((Op.process tenant id d).exec H fault x.store).1
  refine hstore.subscriber (fun m' hm' => ?_) fun m' hm' => Or.inr fun k o hk => ?_
  · rcases ha with ha | ⟨ha, -, -⟩
    · exact absurd (ha.symm.trans hm') (by simp)
    · cases ha.symm.trans hm'; exact hin
  · rcases ha with ha | ⟨-, ha, hans⟩
    · exact absurd (ha.symm.trans (message_of_past hm')) (by simp)
    · cases ha.symm.trans hm'
      cases henv.symm.trans hk
      rcases hans with ⟨st, hst⟩ | herr
      · exact entry_of_process_ok hst o
      · exact entry_of_process_notFound herr o

/-- The callback's last transaction, on a message it is through with. -/
theorem last (h : Safe T M x) {n : ℕ} {m : Message} (hm : past? (x.subscribers n) = some m) (op : Op)
    (hf : Fits x op) (fault : Option ℕ) (lost : Bool) :
    Safe T M (x.bySubscriber H n op fault (afterLast m lost)) := by
  have hin : m.mid ∈ M := h.inHand n m (message_of_past hm)
  have hcases : ∀ a : Except Err op.Ans, message? (afterLast m lost a) = none ∨
      message? (afterLast m lost a) = some m := by
    intro a
    unfold afterLast
    split
    · split_ifs
      · exact Or.inl rfl
      · exact Or.inr rfl
    · exact Or.inl rfl
  have ha := hcases (op.exec H fault x.store).1
  refine (h.store (op.change H fault x.store) hf).subscriber (fun m' hm' => ?_) fun m' hm' => Or.inl ?_
  · rcases ha with ha | ha
    · exact absurd (ha.symm.trans hm') (by simp)
    · cases ha.symm.trans hm'; exact hin
  · rcases ha with ha | ha
    · exact absurd (ha.symm.trans (message_of_past hm')) (by simp)
    · cases ha.symm.trans (message_of_past hm'); exact hm

/-- An acknowledged message was not the one that counts. -/
theorem ack (h : Safe T M x) {n : ℕ} {m : Message} (hm : x.subscribers n = .finished m) :
    Safe T M ({ x with broker := x.broker.filter fun y => y ≠ m }.setSubscriber n .idle) := by
  have hlive : ∀ k, Live x k → Live { x with broker := x.broker.filter fun y => y ≠ m } k := by
    rintro k ⟨y, hy, henv, hpast⟩
    have hne : y ≠ m := by
      rintro rfl
      exact hpast n (by rw [hm]; rfl)
    exact ⟨y, List.mem_filter.mpr ⟨hy, decide_eq_true hne⟩, henv, hpast⟩
  have hbroker : Safe T M { x with broker := x.broker.filter fun y => y ≠ m } :=
    ⟨h.paired, h.named, h.done, fun k o he hst => hlive k (h.carried k o he hst),
      fun i j hj o he hh => hlive _ (h.promised i j hj o he hh), h.tokens,
      fun y hy => h.inFlight y (List.mem_filter.mp hy).1, h.inHand⟩
  exact hbroker.subscriber (fun _ hm' => by cases hm') fun _ hm' => by cases hm'

/-- **One step keeps the invariant**, with what it draws added to what was drawn. -/
theorem step (h : Safe T M x) (a : Action) (hall : Action.allowed a)
    (how : ∀ owner, Action.owner? a = some owner → owner ∉ T)
    (hmid : ∀ mid, Action.mid? a = some mid → mid ∉ M) :
    Safe (T ++ (Action.owner? a).toList) (M ++ (Action.mid? a).toList) (x.step H a) := by
  have hsame : Safe (T ++ (Action.owner? a).toList) (M ++ (Action.mid? a).toList) x :=
    h.mono (List.subset_append_left _ _) (List.subset_append_left _ _)
  have hgrow : ∀ {y : System}, Safe T M y →
      Safe (T ++ (Action.owner? a).toList) (M ++ (Action.mid? a).toList) y := fun hy =>
    hy.mono (List.subset_append_left _ _) (List.subset_append_left _ _)
  cases a with
  | call c => exact hgrow (h.store (c.op.change H c.fault x.store) (fits_of_outside hall))
  | claim i postgres now owner fault lost =>
    simp only [System.step]
    cases x.dispatchers i with
    | idle =>
      refine (h.claim i postgres now fault lost (how owner rfl)).mono (List.Subset.refl _) ?_
      exact List.subset_append_left _ _
    | _ => exact hsame
  | publish i mid data lost =>
    simp only [System.step]
    cases hi : x.dispatchers i with
    | claimed j =>
      refine (h.publish hi data lost (hmid mid rfl)).mono ?_ (List.Subset.refl _)
      exact List.subset_append_left _ _
    | _ => exact hsame
  | dispatched i fault lost =>
    simp only [System.step]
    cases hi : x.dispatchers i with
    | published j =>
      exact hgrow (h.work (by rw [hi]; rfl) (h.promised i j hi) (Or.inl rfl) (by simp))
    | _ => exact hsame
  | process i d fault lost =>
    simp only [System.step]
    cases hi : x.dispatchers i with
    | claimed j => exact hgrow (h.work (by rw [hi]; rfl) trivial (Or.inr rfl) (by simp))
    | _ => exact hsame
  | complete i fault lost =>
    simp only [System.step]
    cases hi : x.dispatchers i with
    | processed j => exact hgrow (h.work (by rw [hi]; rfl) trivial (Or.inl rfl) (by simp))
    | _ => exact hsame
  | giveUp i =>
    simp only [System.step]
    cases hi : x.dispatchers i with
    | claimed j =>
      refine hgrow (h.dispatcher (fun j' hj' => ?_) fun j' hj' => by cases hj')
      cases hj'
      exact h.tokens i j (by rw [hi]; rfl)
    | _ => exact hsame
  | failJob i next d fault =>
    simp only [System.step]
    cases hi : x.dispatchers i with
    | failed j =>
      exact hgrow (h.byDispatcher trivial (fun j' hj' => by cases hj') fun _ _ => by simp)
    | _ => exact hsame
  | crash i => exact hgrow (h.dispatcher (fun j hj => by cases hj) fun j hj => by cases hj)
  | deliver k mid =>
    simp only [System.step]
    split
    · next m hk hm =>
      have hmem := List.mem_of_find?_eq_some hm
      refine hgrow (h.subscriber (fun m' hm' => ?_) fun m' hm' => by cases hm')
      cases hm'
      exact h.inFlight m hmem
    · exact hsame
  | inspect k =>
    simp only [System.step]
    cases hk : x.subscribers k with
    | received m =>
      cases henv : m.envelope with
      | none =>
        simp only [henv]
        refine hgrow (h.subscriber (fun m' hm' => ?_) fun m' hm' => Or.inr fun key o hkey => ?_)
        · cases hm'
          exact h.inHand k m (by rw [hk]; rfl)
        · cases hm'
          rw [henv] at hkey; cases hkey
      | some key => simp only [henv]; exact hsame
    | _ => exact hsame
  | consume k d fault lost =>
    simp only [System.step]
    cases hk : x.subscribers k with
    | received m =>
      cases henv : m.envelope with
      | none => simp only [henv]; exact hsame
      | some key => simp only [henv]; exact hgrow (h.consume hk henv d fault lost)
    | _ => exact hsame
  | settle k fault lost =>
    simp only [System.step]
    cases hk : x.subscribers k with
    | processed m =>
      cases henv : m.envelope with
      | none => simp only [henv]; exact hsame
      | some key =>
        simp only [henv]
        exact hgrow (h.last (by rw [hk]; rfl) (.complete key.1 key.2) trivial fault lost)
    | _ => exact hsame
  | quarantine k postgres now fault lost =>
    simp only [System.step]
    cases hk : x.subscribers k with
    | poison m reason =>
      exact hgrow (h.last (by rw [hk]; rfl) (.quarantineTransport postgres m.mid m.data reason now)
        trivial fault lost)
    | _ => exact hsame
  | ack k =>
    simp only [System.step]
    cases hk : x.subscribers k with
    | finished m => exact hgrow (h.ack hk)
    | _ => exact hsame
  | nack k => exact hgrow (h.subscriber (fun m hm => by cases hm) fun m hm => by cases hm)

/-- **A run keeps the invariant.** -/
theorem run : ∀ (as : List Action) (T M : List String) (x : System), Safe T M x →
    (∀ a ∈ as, Action.allowed a) → (T ++ as.filterMap Action.owner?).Nodup →
    (M ++ as.filterMap Action.mid?).Nodup → ∃ T' M', Safe T' M' (System.run H as x)
  | [], T, M, _, h, _, _, _ => ⟨T, M, h⟩
  | a :: as, T, M, x, h, hall, hT, hM => by
    have hcons : ∀ f : Action → Option String,
        (a :: as).filterMap f = (f a).toList ++ as.filterMap f := by
      intro f
      rw [List.filterMap_cons]
      cases f a <;> rfl
    rw [hcons, ← List.append_assoc] at hT hM
    have hfresh : ∀ (L : List String) (f : Action → Option String),
        ((L ++ (f a).toList) ++ as.filterMap f).Nodup → ∀ t, f a = some t → t ∉ L := by
      intro L f hn t ht hL
      have hn' := (List.nodup_append.mp hn).1
      rw [ht] at hn'
      exact (List.nodup_append.mp hn').2.2 t hL t (by simp) rfl
    have hstep := h.step (H := H) a (hall a List.mem_cons_self) (hfresh T _ hT) (hfresh M _ hM)
    exact run as _ _ _ hstep (fun b hb => hall b (List.mem_cons_of_mem _ hb)) hT hM

theorem start : Safe [] [] System.start where
  paired := Paired.empty
  named k e he := by cases he
  done k status o he := by cases he
  carried k o he := by cases he
  promised i j hi := by cases hi
  tokens i j hj := by cases hj
  inFlight m hm := by cases hm
  inHand n m hm := by cases hm

end Safe

/-- **No accepted receipt is ever stranded**: over every interleaving of dispatchers, subscribers and
calls from outside, with owner tokens and message identifiers that never repeat. -/
theorem accepted_never_stranded (H : Digest) (as : List Action) (hcalls : ∀ a ∈ as, Action.allowed a)
    (howners : (as.filterMap Action.owner?).Nodup) (hmids : (as.filterMap Action.mid?).Nodup) :
    let x := System.run H as System.start
    (∀ d ∈ x.store.deliveries, d.status = .accepted → ∃ o, x.store.outbox.find? d.pk = some o ∧
      (o.state = .pending ∨ o.state = .leased ∨
        o.state = .dispatched ∧ ∃ m ∈ x.broker, m.envelope = some d.pk)) ∧
    (∀ o ∈ x.store.outbox, o.state = .done ∨ o.state = .dead →
      ∃ d, x.store.deliveries.find? o.pk = some d ∧ d.status ≠ .accepted) := by
  intro x
  obtain ⟨T, M, h⟩ := Safe.run (H := H) as [] [] System.start Safe.start hcalls howners hmids
  refine ⟨fun d hd hst => ?_, fun o ho hst => ?_⟩
  · obtain ⟨o, ho, he⟩ := h.paired.entry (Table.find?_of_mem hd)
    rw [hst] at he
    refine ⟨o, ho, ?_⟩
    cases hs : o.state with
    | pending => exact Or.inl rfl
    | leased => exact Or.inr (Or.inl rfl)
    | dispatched =>
      obtain ⟨m, hm, henv, -⟩ := h.carried _ o he hs
      exact Or.inr (Or.inr ⟨rfl, m, hm, henv⟩)
    | done => exact absurd rfl (h.done _ _ o he (Or.inl hs))
    | dead => exact absurd rfl (h.done _ _ o he (Or.inr hs))
  · obtain ⟨d, hd, he⟩ := h.paired.entry_of_outbox (Table.find?_of_mem ho)
    exact ⟨d, hd, h.done _ _ o he hst⟩

/-- A receipt is accepted and claimed by a dispatcher that crashes; a second one claims it after the lease
has run out, publishes it and marks it. -/
def redispatch : List Action :=
  [.call ⟨.accept "demo" ⟨1, "event", "hold", "sea-01", 0, 5000⟩ ⟨"d1", 0, [], ⟨"a1", 0⟩⟩, none⟩,
    .claim 0 false 0 "o1" none false, .crash 0, .claim 1 false 30000 "o2" none false,
    .publish 1 "m1" [] false, .dispatched 1 none false]

theorem accepted_never_stranded_redispatch :
    let x := System.run ⟨fun _ => "", fun r => r.eventID⟩ redispatch System.start
    (∃ d ∈ x.store.deliveries.rows, d.status = .accepted) ∧
    ∀ d ∈ x.store.deliveries, d.status = .accepted → ∃ o, x.store.outbox.find? d.pk = some o ∧
      (o.state = .pending ∨ o.state = .leased ∨
        o.state = .dispatched ∧ ∃ m ∈ x.broker, m.envelope = some d.pk) :=
  ⟨by decide +kernel, (accepted_never_stranded _ redispatch
    (by simp [redispatch, Action.allowed, outside]) (by decide) (by decide)).1⟩

end Afterglow.Pipeline.Dispatch
