import Afterglow.Pipeline.Redelivery
import Afterglow.Pipeline.Worker

/-! # Poison messages

The callback of `PubSub.Receive` on one message, whatever its bytes. A message that names no delivery is
to be put into `transport_quarantine` and acknowledged. SQLite takes any bytes as a text; PostgreSQL
refuses the statement when one of its texts is not UTF-8 or holds a NUL, and `QuarantineTransport` cuts
the payload at a byte, not at a character. The callback then answers a nack, leaves the store as it is,
and meets the same message again. `absorbed_iff` says for which messages the quarantine works;
`receive_run` that the callback is a run of a subscriber of the system. -/

namespace Afterglow.Pipeline.Poison

open Afterglow.Sql.Rows Afterglow.Sql.Txn Afterglow.Core.Model Afterglow.Core.Statements
open Afterglow.Core.Store Afterglow.Core.Outcome Afterglow.Core.Run Afterglow.Pipeline.Worker
open Afterglow.Pipeline.Redelivery

/-! ### The callback -/

/-- What the callback answers the broker. -/
inductive Reply
  | ack
  | nack
  deriving DecidableEq, Repr

/-- `Consume` on its database: PostgreSQL refuses the parameters of the first statement of `Process` when
one of them holds a NUL. -/
def consumeOn (H : Digest) (postgres : Bool) (tenant id : String) (d : ProcessDraw) (f : Weather)
    (s : Store) : Except ConsumeErr Unit × Store :=
  if !f.injected && postgres && !(storableText tenant && storableText id) then
    (.error (.store (.storage .encoding)), s)
  else consume H tenant id d f s

/-- The answer after a last call: an error is a nack. -/
def replyOf {ε α : Type} : Except ε α × Store → Reply × Store
  | (.error _, s) => (.nack, s)
  | (.ok _, s) => (.ack, s)

/-- The end of the callback on a message that goes to the quarantine. -/
def quarantined (H : Digest) (postgres : Bool) (m : Message) (reason : String) (now : Int)
    (fault : Option ℕ) (s : Store) : Reply × Store :=
  replyOf ((Op.quarantineTransport postgres m.mid m.data reason now).exec H fault s)

/-- **The callback of `Receive`.** -/
def receive (H : Digest) (postgres : Bool) (m : Message) (d : ProcessDraw) (now : Int) (f : Weather)
    (fault : Option ℕ) (s : Store) : Reply × Store :=
  match m.envelope with
  | none => quarantined H postgres m "invalid_transport_envelope" now fault s
  | some (tenant, id) =>
    match consumeOn H postgres tenant id d f s with
    | (.ok _, s₁) => (.ack, s₁)
    | (.error (.store .notFound), s₁) => quarantined H postgres m "unknown_delivery" now fault s₁
    | (.error _, s₁) => (.nack, s₁)

/-! ### What it does to a message that names no delivery -/

/-- The message names no delivery: its envelope is refused, or nothing is stored under its key. -/
def Nameless (m : Message) (s : Store) : Prop := ∀ k, m.envelope = some k → s.deliveries.find? k = none

/-- The bytes of a message that are kept. -/
def kept (m : Message) : List UInt8 := m.data.take 32768

/-- The message is acknowledged, and the row under its identifier holds the first 32768 bytes of its
data. -/
def Absorbed (m : Message) (out : Reply × Store) : Prop :=
  out.1 = .ack ∧ ∃ row, out.2.quarantine.find? m.mid = some row ∧ row.payload = kept m

/-- The database takes the texts of the message's row. -/
def takes (postgres : Bool) (m : Message) : Bool :=
  !postgres || (storable (kept m) && storableText m.mid)

/-- The database takes the key the message's envelope names. -/
def asks (postgres : Bool) (m : Message) : Bool :=
  !postgres || match m.envelope with
    | none => true
    | some (tenant, id) => storableText tenant && storableText id

/-- What stands under the message's identifier is this message. -/
def Own (m : Message) (s : Store) : Prop :=
  ∀ row, s.quarantine.find? m.mid = some row → row.payload = kept m

/-- The row of a message. -/
def poisonRow (m : Message) (reason : String) (now : Int) : QuarantineRow :=
  ⟨m.mid, kept m, reason, now⟩

section Callback

variable {H : Digest} {postgres : Bool} {m : Message} {d : ProcessDraw} {now : Int} {f : Weather}
  {s : Store} {reason : String}

/-- The database refuses the row. -/
theorem quarantined_refused (h : takes postgres m = false) :
    quarantined H postgres m reason now none s = (.nack, s) := by
  have herr : core.eval (.insertQuarantine postgres (poisonRow m reason now)) Engine.alone s =
      .error (.storage .encoding) := by
    have hguard : (postgres && !(storable (kept m) && storableText m.mid)) = true := by
      rw [← Bool.not_eq_false', ← h, takes, Bool.not_and, Bool.not_not]
    rw [eval_core, evalStmt]
    simp only [poisonRow, hguard, if_true]
  have hexec : (Op.quarantineTransport postgres m.mid m.data reason now).exec H none s =
      (.error (.storage .encoding), s) := core.runFrom_exec_error herr
  rw [quarantined, hexec, replyOf]

/-- The database takes the row: it is new, or one stands under its identifier. -/
theorem quarantined_taken (h : takes postgres m = true) :
    quarantined H postgres m reason now none s = (.ack, { s with
      quarantine := if (s.quarantine.find? m.mid).isSome then s.quarantine
        else s.quarantine.put (poisonRow m reason now) }) := by
  have hguard : (postgres && !(storable (kept m) && storableText m.mid)) = false := by
    rw [← Bool.not_eq_true', ← h, takes, Bool.not_and, Bool.not_not]
  have heval : core.eval (.insertQuarantine postgres (poisonRow m reason now)) Engine.alone s =
      insertRow s.quarantine (fun x => x.id = m.mid) (poisonRow m reason now)
        (.storage (.unique "transport_quarantine")) unchecked .quarantine := by
    rw [eval_core, evalStmt]
    simp only [poisonRow, hguard, Bool.false_eq_true, if_false]
    rfl
  rw [quarantined]
  cases hrow : s.quarantine.find? m.mid with
  | none =>
    have hnew := heval.trans (insertRow_new (r := poisonRow m reason now) hrow rfl)
    have hexec : (Op.quarantineTransport postgres m.mid m.data reason now).exec H none s =
        (.ok (), { s with quarantine := s.quarantine.put (poisonRow m reason now) }) := by
      exact (core.runFrom_exec_ok hnew).trans rfl
    rw [hexec]
    rfl
  | some row =>
    have hold := heval.trans (insertRow_old (r := poisonRow m reason now) hrow)
    have hexec : (Op.quarantineTransport postgres m.mid m.data reason now).exec H none s = (.ok (), s) := by
      exact (core.runFrom_exec_ok hold).trans rfl
    rw [hexec]
    rfl

/-- **The quarantine keeps the message** exactly when the database takes its texts and no other message
stands under its identifier. -/
theorem quarantined_absorbs : Absorbed m (quarantined H postgres m reason now none s) ↔
    takes postgres m = true ∧ Own m s := by
  cases h : takes postgres m with
  | false =>
    rw [quarantined_refused h]
    simp [Absorbed]
  | true =>
    rw [quarantined_taken h]
    simp only [Absorbed, true_and]
    cases hrow : s.quarantine.find? m.mid with
    | none =>
      have hself := Table.find?_put_self s.quarantine (poisonRow m reason now)
      have hown : Own m s := fun row h => by rw [hrow] at h; cases h
      exact ⟨fun _ => hown, fun _ => ⟨_, hself, rfl⟩⟩
    | some row =>
      simp only [Option.isSome_some, if_true]
      constructor
      · rintro ⟨other, hother, hpayload⟩ row' hrow'
        rw [hother] at hrow'
        cases hrow'
        exact hpayload
      · intro hown
        exact ⟨row, hrow, hown row hrow⟩

/-- An unknown delivery, asked for on a database that takes its key. -/
theorem consumeOn_missing {tenant id : String} (hcalm : f.injected = false) (hup : f.process = none)
    (hkey : (postgres && !(storableText tenant && storableText id)) = false)
    (hno : s.deliveries.find? (tenant, id) = none) :
    consumeOn H postgres tenant id d f s = (.error (.store .notFound), s) := by
  have hexec : (Op.process tenant id d).exec H f.process s = (.error .notFound, s) := by
    have hcount : core.eval (.countAttempt tenant id) Engine.alone s = .ok (0, []) := by
      rw [eval_core, evalStmt, updateRow, hno]
    rw [hup]
    exact (core.runFrom_read hcount).trans rfl
  simp only [consumeOn, consume, hcalm, hkey, hexec, Bool.not_false, Bool.true_and, Bool.false_eq_true,
    if_false]

/-- **A message that names no delivery** ends in the quarantine, or PostgreSQL refuses the key its
envelope names. -/
theorem receive_nameless (hname : Nameless m s) (hcalm : f.injected = false) (hup : f.process = none) :
    (asks postgres m = true ∧ ∃ reason,
      receive H postgres m d now f none s = quarantined H postgres m reason now none s) ∨
    asks postgres m = false ∧ receive H postgres m d now f none s = (.nack, s) := by
  cases henv : m.envelope with
  | none =>
    left
    refine ⟨by simp [asks, henv], "invalid_transport_envelope", ?_⟩
    simp only [receive, henv]
  | some k =>
    obtain ⟨tenant, id⟩ := k
    have hask : asks postgres m = !(postgres && !(storableText tenant && storableText id)) := by
      simp [asks, henv]
    by_cases hkey : (postgres && !(storableText tenant && storableText id)) = false
    · left
      refine ⟨by rw [hask, hkey]; rfl, "unknown_delivery", ?_⟩
      simp only [receive, henv, consumeOn_missing hcalm hup hkey (hname _ henv)]
    · right
      rw [Bool.not_eq_false] at hkey
      refine ⟨by rw [hask, hkey]; rfl, ?_⟩
      simp only [receive, henv, consumeOn, hcalm, hkey, Bool.not_false, Bool.true_and, if_true]

/-- **Which poison messages are absorbed.** A message that names no delivery, received with no injected
fault and a database that answers, is kept and acknowledged if and only if the database takes its texts
and no other message stands under its identifier. -/
theorem absorbed_iff (H : Digest) (postgres : Bool) (m : Message) (d : ProcessDraw) (now : Int)
    (f : Weather) (s : Store) (hname : Nameless m s) (hcalm : f.injected = false)
    (hup : f.process = none) : Absorbed m (receive H postgres m d now f none s) ↔
      takes postgres m = true ∧ asks postgres m = true ∧ Own m s := by
  rcases receive_nameless hname hcalm hup with ⟨hask, reason, heq⟩ | ⟨hask, heq⟩
  · rw [heq, quarantined_absorbs, hask]
    simp
  · rw [heq, hask]
    simp [Absorbed]

end Callback

/-- A message that is not JSON: the byte `0xff`, no attributes. -/
def binary : Message := ⟨"m1", .other "", [0xff], ""⟩

/-- A clear day. -/
def calm : Weather := ⟨false, none, false, none⟩

/-- SQLite keeps it. -/
theorem absorbed_iff_binary : Nameless binary Store.empty ∧
    Absorbed binary (receive ⟨fun _ => "", fun r => r.eventID⟩ false binary ⟨1, ⟨"a1", 1⟩⟩ 1 calm none
      Store.empty) := by
  have hname : Nameless binary Store.empty := nofun
  refine ⟨hname, (absorbed_iff _ _ _ _ _ _ _ hname rfl rfl).mpr ⟨rfl, rfl, ?_⟩⟩
  exact fun row h => nomatch h

/-- **PostgreSQL refuses it**: the message is not acknowledged, and nothing is kept of it. -/
theorem binary_returned : Nameless binary Store.empty ∧
    ¬ Absorbed binary (receive ⟨fun _ => "", fun r => r.eventID⟩ true binary ⟨1, ⟨"a1", 1⟩⟩ 1 calm none
      Store.empty) := by
  have hname : Nameless binary Store.empty := nofun
  refine ⟨hname, fun h => ?_⟩
  have hnack : (receive ⟨fun _ => "", fun r => r.eventID⟩ true binary ⟨1, ⟨"a1", 1⟩⟩ 1 calm none
      Store.empty).1 = .nack := by decide +kernel
  rw [h.1] at hnack
  cases hnack

/-! ### The callback as a run of a subscriber -/

/-- The system once subscriber `k` has answered for `m`. -/
def answered (x : System) (k : ℕ) (m : Message) (out : Reply × Store) : System :=
  { x with
    store := out.2
    broker := if out.1 = .ack then x.broker.filter (fun y => y ≠ m) else x.broker
    subscribers := Function.update x.subscribers k .idle }

section Subscriber

variable {H : Digest} {k : ℕ} {m : Message} {x : System}

/-- The acknowledgement after a last call. -/
theorem ack_last (p : Subscriber) (o : Op) (fault : Option ℕ) (s : Store) :
    (({ x with store := s }.setSubscriber k p).bySubscriber H k o fault (afterLast m false)).step H
        (.ack k) =
      answered x k m (replyOf (o.exec H fault s)) := by
  have hall : ∀ r : Except Err o.Ans × Store,
      System.step H ({ x.setSubscriber k p with store := r.2 }.setSubscriber k (afterLast m false r.1))
        (.ack k) = answered x k m (replyOf r) := by
    rintro ⟨answer, s₁⟩
    cases answer with
    | error e => simp [afterLast, System.step, System.setSubscriber, answered, replyOf]
    | ok u => simp [afterLast, System.step, System.setSubscriber, answered, replyOf]
  exact hall _

/-- `Complete` never answers that a delivery is unknown. -/
theorem complete_known (tenant id : String) (fault : Option ℕ) (s : Store) :
    ((Op.complete tenant id).exec H fault s).1 ≠ .error .notFound := by
  rcases Op.exec_cases H (.complete tenant id) fault s with heq | heq
  · rw [heq]
    have hout := complete_out tenant id s
    show (core.atomic (complete tenant id) s).1 ≠ .error .notFound
    generalize core.atomic (complete tenant id) s = r at hout ⊢
    cases hout with
    | refused | idle | finished => exact nofun
  · rw [heq]
    exact nofun

/-- The end of the callback on a message that goes to the quarantine. -/
theorem run_poison (postgres : Bool) (reason : String) (now : Int) (fault : Option ℕ) (s : Store) :
    System.run H [.quarantine k postgres now fault false, .ack k]
        ({ x with store := s }.setSubscriber k (.poison m reason)) =
      answered x k m (quarantined H postgres m reason now fault s) := by
  rw [quarantined, ← ack_last (.poison m reason)]
  simp only [System.run, List.foldl, System.step, System.setSubscriber, Function.update_self,
    System.bySubscriber]

/-- The end of the callback on a delivery that is processed. -/
theorem run_settle {tenant id : String} (henv : m.envelope = some (tenant, id)) (fault : Option ℕ)
    (s : Store) :
    System.run H [.settle k fault false, .ack k] ({ x with store := s }.setSubscriber k (.processed m)) =
      answered x k m (replyOf ((Op.complete tenant id).exec H fault s)) := by
  rw [← ack_last (.processed m)]
  simp only [System.run, List.foldl, System.step, System.setSubscriber, Function.update_self,
    System.bySubscriber, henv]

/-- `Process` in the callback. -/
theorem step_consume {tenant id : String} {d : ProcessDraw} {fault : Option ℕ} {lost : Bool}
    {answer : Except Err Status} {s : Store} (henv : m.envelope = some (tenant, id))
    (h : (Op.process tenant id d).exec H fault x.store = (answer, s)) :
    (x.setSubscriber k (.received m)).step H (.consume k d fault lost) =
      { x with store := s }.setSubscriber k (afterConsume m lost answer) := by
  simp only [System.step, System.setSubscriber, Function.update_self, henv, System.bySubscriber, h,
    Function.update_idem]

/-- The rest of the callback once `Process` has answered. -/
def afterProcess (H : Digest) (postgres : Bool) (m : Message) (tenant id : String) (now : Int)
    (f : Weather) (fault : Option ℕ) (s : Store) : Except Err Status → Reply × Store
  | .error .notFound => quarantined H postgres m "unknown_delivery" now fault s
  | .error _ => (.nack, s)
  | .ok _ =>
    if f.dropAck then (.nack, s) else replyOf ((Op.complete tenant id).exec H f.complete s)

/-- The callback once `Process` has answered. -/
theorem receive_answered {tenant id : String} {postgres : Bool} {d : ProcessDraw} {now : Int}
    {f : Weather} {fault : Option ℕ} {answer : Except Err Status} {s s₁ : Store}
    (henv : m.envelope = some (tenant, id)) (hinj : ¬ f.injected = true)
    (hkey : ¬ (!f.injected && postgres && !(storableText tenant && storableText id)) = true)
    (h : (Op.process tenant id d).exec H f.process s = (answer, s₁)) :
    receive H postgres m d now f fault s = afterProcess H postgres m tenant id now f fault s₁ answer := by
  simp only [receive, henv, consumeOn, if_neg hkey, consume, if_neg hinj, h]
  cases answer with
  | error e => cases e <;> rfl
  | ok status =>
    by_cases hdrop : f.dropAck = true
    · simp only [afterProcess, if_pos hdrop]
    · simp only [afterProcess, if_neg hdrop]
      have hknown := complete_known (H := H) tenant id f.complete s₁
      rcases hdone : (Op.complete tenant id).exec H f.complete s₁ with ⟨done, s₂⟩
      rw [hdone] at hknown
      cases done with
      | ok u => rfl
      | error e =>
        cases e with
        | notFound => exact absurd rfl hknown
        | _ => rfl

/-- The callback on a message whose envelope is accepted. -/
theorem run_received {tenant id : String} (henv : m.envelope = some (tenant, id)) (postgres : Bool)
    (d : ProcessDraw) (now : Int) (f : Weather) (fault : Option ℕ) :
    ∃ as, System.run H as (x.setSubscriber k (.received m)) =
      answered x k m (receive H postgres m d now f fault x.store) := by
  have hnack : System.run H [.nack k] (x.setSubscriber k (.received m)) =
      answered x k m (.nack, x.store) := by
    simp [System.run, System.step, System.setSubscriber, answered]
  by_cases hkey : (!f.injected && postgres && !(storableText tenant && storableText id)) = true
  · refine ⟨[.nack k], hnack.trans ?_⟩
    simp only [receive, henv, consumeOn, if_pos hkey]
  by_cases hinj : f.injected = true
  · refine ⟨[.nack k], hnack.trans ?_⟩
    simp only [receive, henv, consumeOn, if_neg hkey, consume, if_pos hinj]
  obtain ⟨answer, s₁, hproc⟩ : ∃ (answer : Except Err Status) (s₁ : Store),
      (Op.process tenant id d).exec H f.process x.store = (answer, s₁) := ⟨_, _, rfl⟩
  have hstep (lost : Bool) : (x.setSubscriber k (.received m)).step H (.consume k d f.process lost) =
      { x with store := s₁ }.setSubscriber k (afterConsume m lost answer) := step_consume henv hproc
  have hidle : { x with store := s₁ }.setSubscriber k .idle = answered x k m (.nack, s₁) := rfl
  rw [receive_answered henv hinj hkey hproc]
  cases answer with
  | error e =>
    cases e with
    | notFound =>
      refine ⟨[.consume k d f.process false, .quarantine k postgres now fault false, .ack k], ?_⟩
      rw [System.run, List.foldl_cons, hstep]
      exact run_poison postgres "unknown_delivery" now fault s₁
    | _ =>
      refine ⟨[.consume k d f.process false], ?_⟩
      rw [System.run, List.foldl_cons, hstep]
      exact hidle
  | ok status =>
    by_cases hdrop : f.dropAck = true
    · refine ⟨[.consume k d f.process true], ?_⟩
      rw [System.run, List.foldl_cons, hstep]
      rw [afterProcess, if_pos hdrop]
      exact hidle
    · refine ⟨[.consume k d f.process false, .settle k f.complete false, .ack k], ?_⟩
      rw [System.run, List.foldl_cons, hstep]
      rw [afterProcess, if_neg hdrop]
      exact run_settle henv f.complete s₁

/-- **The callback is a run of a subscriber**: what it does to the store and answers the broker is what
the steps of an idle subscriber do that is handed the message. -/
theorem receive_run (postgres : Bool) (d : ProcessDraw) (now : Int) (f : Weather) (fault : Option ℕ)
    (hidle : x.subscribers k = .idle) (hmsg : (x.broker.find? fun y => y.mid = m.mid) = some m) :
    ∃ as, System.run H as x = answered x k m (receive H postgres m d now f fault x.store) := by
  have hdeliver : x.step H (.deliver k m.mid) = x.setSubscriber k (.received m) := by
    simp only [System.step, hidle, hmsg]
  suffices hrest : ∃ as, System.run H as (x.setSubscriber k (.received m)) =
      answered x k m (receive H postgres m d now f fault x.store) by
    obtain ⟨as, has⟩ := hrest
    exact ⟨.deliver k m.mid :: as, by rw [← has, ← hdeliver]; rfl⟩
  cases henv : m.envelope with
  | none =>
    refine ⟨[.inspect k, .quarantine k postgres now fault false, .ack k], ?_⟩
    have hinspect : (x.setSubscriber k (.received m)).step H (.inspect k) =
        x.setSubscriber k (.poison m "invalid_transport_envelope") := by
      simp [System.step, System.setSubscriber, henv]
    have hreceive : receive H postgres m d now f fault x.store =
        quarantined H postgres m "invalid_transport_envelope" now fault x.store := by
      simp only [receive, henv]
    rw [hreceive, ← run_poison, ← hinspect]
    rfl
  | some key => exact run_received henv postgres d now f fault

end Subscriber

end Afterglow.Pipeline.Poison
