import Afterglow.Core.Ledger
import Afterglow.Core.Keys
import Afterglow.Foottraffic.Model

/-! # Reset of the local demo

`internal/localdemo` empties the tables of both stores of the single-process SQLite sandbox in one
transaction, keeps the inventory and the campaigns, sets the balances to zero and draws a new
generation. `Db` is that database. A run of the demo is any list of calls of the settlement store,
initializations and resets. -/

namespace Afterglow.Localdemo.Reset

open Afterglow.Sql.Rows Afterglow.Sql.Txn Afterglow.Core.Model Afterglow.Core.Statements
open Afterglow.Core.Store Afterglow.Core.Outcome Afterglow.Core.Run Afterglow.Core.Ledger
open Afterglow.Core.Settlement Afterglow.Core.Keys Afterglow.Foottraffic.Model

/-- The database of the demo: both stores, and the row of `demo_reset_state`. -/
structure Db where
  core : Store
  traffic : Traffic
  generation : Option String

/-- The database after both migrations. -/
def Db.empty : Db := ⟨.empty, .empty, none⟩

/-- The errors of the package. -/
inductive ResetErr
  | unavailable
  | uninitialized
  | storage (why : Err)
  deriving DecidableEq, Repr

/-! ### The transaction -/

/-- The tables `Reset` empties. -/
inductive Emptied
  | dispatchContext
  | outbox
  | deliveries
  | reservations
  | audit
  | transportQuarantine
  | trafficWindows
  | trafficBatches
  | trafficScopes
  deriving DecidableEq, Repr

inductive ResetStmt : Type → Type
  /-- `DELETE FROM table` -/
  | delete (table : Emptied) : ResetStmt Unit
  /-- `UPDATE campaigns SET reserved=0, spent=0` -/
  | zeroCampaigns : ResetStmt Unit
  /-- `UPDATE demo_reset_state SET generation=$1 WHERE id=1` -/
  | setGeneration (generation : String) : ResetStmt ℕ

/-- A statement's effect. -/
inductive ResetWrite
  | clear (table : Emptied)
  | zero
  | generation (g : String)
  deriving DecidableEq, Repr

/-- A campaign with its balances at zero. -/
def zeroed (c : CampaignRow) : CampaignRow := { c with reserved := 0, spent := 0 }

def clear (db : Db) : Emptied → Db
  | .dispatchContext => { db with core := { db.core with context := .empty } }
  | .outbox => { db with core := { db.core with outbox := .empty } }
  | .deliveries => { db with core := { db.core with deliveries := .empty } }
  | .reservations => { db with core := { db.core with reservations := .empty } }
  | .audit => { db with core := { db.core with audit := .empty } }
  | .transportQuarantine => { db with core := { db.core with quarantine := .empty } }
  | .trafficWindows => { db with traffic := { db.traffic with windows := .empty } }
  | .trafficBatches => { db with traffic := { db.traffic with batches := .empty } }
  | .trafficScopes => { db with traffic := { db.traffic with scopes := .empty } }

/-- The balances at zero, the campaigns kept. -/
def zeroBalances (db : Db) : Db :=
  { db with core := { db.core with campaigns := db.core.campaigns.mapRows zeroed fun _ => rfl } }

/-- **The engine of `Reset`.** The campaigns are updated all or none, by their constraints. -/
def demo : Engine ResetStmt Db ResetWrite Unit ResetErr where
  eval
    | .delete table, _, _ => .ok ((), [.clear table])
    | .zeroCampaigns, _, db =>
      match db.core.campaigns.rows.mapM fun c => (zeroed c).check with
      | .error e => .error (.storage e)
      | .ok _ => .ok ((), [.zero])
    | .setGeneration g, _, db =>
      match db.generation with
      | none => .ok (0, [])
      | some _ => .ok (1, [.generation g])
  write
    | .clear table, db => clear db table
    | .zero, db => zeroBalances db
    | .generation g, db => { db with generation := some g }
  keys _ := []

/-- The order in which the tables are emptied: rows before the rows they refer to. -/
def emptied : List Emptied :=
  [.dispatchContext, .outbox, .deliveries, .reservations, .audit, .transportQuarantine,
    .trafficWindows, .trafficBatches, .trafficScopes]

/-- `Reset`, with the generation it draws. -/
def reset (postgres : Bool) (generation : String) : Prog ResetStmt ResetErr String :=
  if postgres then .rollback (.error .unavailable)
  else
    emptied.foldr (fun table k => .exec (.delete table) fun _ => k) <|
      .exec .zeroCampaigns fun _ =>
      .exec (.setGeneration generation) fun n =>
      if n ≠ 1 then .rollback (.error .uninitialized) else .commit generation

/-- `Initialize`: the generation is drawn once. -/
def initializeDemo (postgres : Bool) (id : String) (db : Db) : Except ResetErr String × Db :=
  if postgres then (.error .unavailable, db)
  else
    match db.generation with
    | some g => (.ok g, db)
    | none => (.ok id, { db with generation := some id })

/-! ### What it does -/

/-- The database after a reset. -/
def resetTo (generation : String) (db : Db) : Db where
  core := { Store.empty with
    campaigns := db.core.campaigns.mapRows zeroed fun _ => rfl
    screens := db.core.screens }
  traffic := .empty
  generation := some generation

inductive ResetOut (generation : String) (db : Db) : Except ResetErr String × Db → Prop
  | refused (e : ResetErr) : ResetOut generation db (.error e, db)
  | done : ResetOut generation db (.ok generation, resetTo generation db)

theorem runFrom_deletes {α : Type} (db₀ : Db) (k : Prog ResetStmt ResetErr α) :
    ∀ (tables : List Emptied) (db : Db),
      demo.runFrom db₀ (tables.foldr (fun table k => .exec (.delete table) fun _ => k) k) db =
        demo.runFrom db₀ k (tables.foldl clear db)
  | [], _ => rfl
  | table :: tables, db => runFrom_deletes db₀ k tables (clear db table)

theorem reset_out (postgres : Bool) (generation : String) (db : Db) :
    ResetOut generation db (demo.atomic (reset postgres generation) db) := by
  unfold Engine.atomic reset
  split_ifs
  · exact .refused _
  rw [runFrom_deletes]
  refine demo.runFrom_exec (fun e _ => .refused e) fun n ws he => ?_
  have hws : ws = [.zero] := by
    simp only [demo] at he
    split at he <;> cases he
    rfl
  subst hws
  refine demo.runFrom_exec (fun e _ => .refused e) fun n ws he => ?_
  change (match db.generation with
    | none => Except.ok (0, [])
    | some _ => Except.ok (1, [ResetWrite.generation generation])) = Except.ok (n, ws) at he
  split at he <;> cases he
  · exact .refused _
  · exact .done

/-! ### Runs of the demo -/

/-- A step of the demo. -/
inductive Event
  | call (c : Call)
  | initializeDemo (postgres : Bool) (id : String)
  | reset (postgres : Bool) (generation : String) (fault : Option ℕ)

def Event.step (H : Digest) (db : Db) : Event → Db
  | .call c => { db with core := c.step H db.core }
  | .initializeDemo postgres id => (Reset.initializeDemo postgres id db).2
  | .reset postgres generation none => (demo.atomic (Reset.reset postgres generation) db).2
  | .reset postgres generation (some n) =>
    (demo.faulty (.storage (.storage .fault)) db n (Reset.reset postgres generation) db).2

/-- The database after a run. -/
def runEvents (H : Digest) (es : List Event) (db : Db) : Db := es.foldl (Event.step H) db

/-- **What an event does to the settlement store**: a call's change, nothing, or a reset. -/
theorem Event.core_cases (H : Digest) (db : Db) (e : Event) :
    (∃ o, Change H db.core o (e.step H db).core) ∨
      ∃ g, (e.step H db).core = (resetTo g db).core := by
  have hsame : ∃ o, Change H db.core o db.core := ⟨.seed "", .same _⟩
  have hreset : ∀ (g : String) (x : Except ResetErr String × Db), ResetOut g db x →
      (∃ o, Change H db.core o x.2.core) ∨ ∃ g, x.2.core = (resetTo g db).core := by
    rintro g x (e | -)
    · exact Or.inl hsame
    · exact Or.inr ⟨g, rfl⟩
  cases e with
  | call c => exact Or.inl ⟨c.op, c.op.change H c.fault db.core⟩
  | initializeDemo postgres id =>
    left
    show ∃ o, Change H db.core o (Reset.initializeDemo postgres id db).2.core
    unfold Reset.initializeDemo
    split_ifs
    · exact hsame
    · split <;> exact hsame
  | reset postgres g fault =>
    cases fault with
    | none => exact hreset g _ (reset_out postgres g db)
    | some n =>
      rcases demo.faulty_cases (.storage (.storage .fault)) db n (Reset.reset postgres g) db with h | h
      · have := hreset g _ (reset_out postgres g db)
        rw [show demo.atomic _ db = _ from h.symm] at this
        exact this
      · refine hreset g _ ?_
        rw [h]; exact .refused _

/-- A reset leaves a balanced ledger: nothing is committed and every balance is zero. -/
theorem balanced_resetTo {db : Db} (h : Balanced db.core) (g : String) :
    Balanced (resetTo g db).core := by
  have hfind : ∀ k c, (resetTo g db).core.campaigns.find? k = some c →
      ∃ c₀, db.core.campaigns.find? k = some c₀ ∧ c = zeroed c₀ := by
    intro k c hk
    have hmap : (resetTo g db).core.campaigns.find? k = (db.core.campaigns.find? k).map zeroed :=
      Table.find?_mapRows (f := zeroed) _ (fun _ => rfl) k
    rw [hmap] at hk
    obtain ⟨c₀, hc₀, rfl⟩ := Option.map_eq_some_iff.mp hk
    exact ⟨c₀, hc₀, rfl⟩
  refine ⟨fun r hr => absurd hr (Table.not_mem_empty r), fun r hr => absurd hr (Table.not_mem_empty r),
    fun k c hk => ?_, fun k c hk => ?_, fun k c hk => ?_⟩
  · obtain ⟨c₀, -, rfl⟩ := hfind k c hk
    rfl
  · obtain ⟨c₀, -, rfl⟩ := hfind k c hk
    rfl
  · obtain ⟨c₀, hc₀, rfl⟩ := hfind k c hk
    obtain ⟨hb, -, -, -⟩ := check_ok_iff.mp (h.check k c₀ hc₀)
    refine check_ok_iff.mpr ⟨hb, le_refl 0, le_refl 0, ?_⟩
    show (0 : Int) + 0 ≤ c₀.budget
    omega

/-- What every change of the settlement store and a reset keep, the demo keeps. -/
theorem runEvents_invariant {H : Digest} {I : Store → Prop}
    (hchange : ∀ o s s', I s → Change H s o s' → I s')
    (hreset : ∀ db g, I db.core → I (resetTo g db).core) :
    ∀ (es : List Event) (db : Db), I db.core → I (runEvents H es db).core
  | [], _, h => h
  | e :: es, db, h => by
    refine runEvents_invariant hchange hreset es (e.step H db) ?_
    rcases e.core_cases H db with ⟨o, hc⟩ | ⟨g, hg⟩
    · exact hchange o _ _ h hc
    · rw [hg]; exact hreset db g h

theorem balanced_runEvents (H : Digest) (es : List Event) :
    Balanced (runEvents H es Db.empty).core :=
  runEvents_invariant (fun _ _ _ h hc => h.change hc) (fun _ g h => balanced_resetTo h g) es Db.empty
    Balanced.empty

/-- A reset leaves nothing charged. -/
theorem charged_resetTo (g : String) (db : Db) : ChargedOnce (resetTo g db).core :=
  ⟨fun _ => rfl, fun d hd => absurd hd (Table.not_mem_empty d)⟩

theorem charged_runEvents (H : Digest) (es : List Event) :
    ChargedOnce (runEvents H es Db.empty).core :=
  runEvents_invariant (fun _ _ _ h hc => h.change hc) (fun db g _ => charged_resetTo g db) es Db.empty
    ChargedOnce.empty

theorem keyed_runEvents (H : Digest) (es : List Event) : Keyed (runEvents H es Db.empty).core :=
  runEvents_invariant (fun _ _ _ h hc => h.change hc)
    (fun _ _ _ => ⟨Table.Unique.empty, Table.Unique.empty⟩) es Db.empty Keyed.empty

/-- **The ledger is exact in every reachable state**, and so no constraint of the database stops a
`Reserve`, a `Process` or a release. -/
theorem ledger_exact (H : Digest) (es : List Event) :
    let s := (runEvents H es Db.empty).core
    (∀ c ∈ s.campaigns,
      c.reserved = committed s c.pk .held ∧ c.spent = committed s c.pk .settled ∧
      0 ≤ c.reserved ∧ 0 ≤ c.spent ∧ c.reserved + c.spent ≤ c.budget ∧
      int64 c.budget ∧ int64 c.reserved ∧ int64 c.spent ∧ int64 (c.reserved + c.spent)) ∧
    (∀ tenant key inp d fault w, ((Op.reserve tenant key inp d).exec H fault s).1 = .error (.storage w) →
      w ≠ .overflow ∧ ∀ table, w ≠ .check table) ∧
    (∀ tenant id d fault w, ((Op.process tenant id d).exec H fault s).1 = .error (.storage w) →
      w ≠ .overflow ∧ ∀ table, w ≠ .check table) ∧
    (∀ tenant id now d fault w,
      ((Op.release tenant id now d).exec H fault s).1 = .error (.storage w) →
      w ≠ .overflow ∧ ∀ table, w ≠ .check table) := by
  intro s
  have h : Balanced s := balanced_runEvents H es
  -- a call fails as it does alone, or by the fault
  have hexec : ∀ (o : Op) (fault : Option ℕ) (w : Storage),
      (∀ e, (core.atomic (o.prog H) s).1 = .error e → ∀ w, e = .storage w → ∃ t, w = .unique t) →
      (o.exec H fault s).1 = .error (.storage w) → w ≠ .overflow ∧ ∀ table, w ≠ .check table := by
    intro o fault w halone he
    rcases o.exec_cases H fault s with hx | hx
    · rw [hx] at he
      obtain ⟨t, rfl⟩ := halone _ he w rfl
      exact ⟨by simp, by simp⟩
    · rw [hx] at he
      cases he
      exact ⟨by simp, by simp⟩
  refine ⟨fun c hc => ?_, fun tenant key inp d fault w => ?_, fun tenant id d fault w => ?_,
    fun tenant id now d fault w => ?_⟩
  · have hfind := Table.find?_of_mem hc
    obtain ⟨hb, hr, hs, hle⟩ := check_ok_iff.mp (h.check _ c hfind)
    refine ⟨h.reserved _ c hfind, h.spent _ c hfind, hr, hs, hle, ?_, ?_, ?_, ?_⟩ <;>
      simp only [int64, Bool.and_eq_true, decide_eq_true_eq] <;> omega
  · exact hexec (.reserve tenant key inp d) fault w fun e he v hv =>
      h.reserve_error (reserve_out H tenant key inp d s) (hv ▸ he)
  · refine hexec (.process tenant id d) fault w fun e he v hv => ?_
    rcases h.process_error (process_out tenant id d s) he with rfl | rfl
    · cases hv
    · cases hv; exact ⟨_, rfl⟩
  · refine hexec (.release tenant id now d) fault w fun e he v hv => ?_
    have := h.release_error (release_out tenant id now d s) he
    subst this; cases hv; exact ⟨_, rfl⟩

end Afterglow.Localdemo.Reset
