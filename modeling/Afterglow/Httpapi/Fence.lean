import Afterglow.Httpapi.Demo

/-! # The fence between generations of the demo

What holds in every state of the process, in any interleaving of requests, resets and the worker
(`Fenced`): each lock excludes, a generation that is committed and not yet saved belongs to the request
that writes, every admitted request names the generation of the server, and a job in the worker's hands
was claimed after the last reset. A reset that holds both locks is alone (`alone_run`), so it fails
without a trace or leaves the tables empty. -/

namespace Afterglow.Httpapi.Fence

open Afterglow.Sql.Rows Afterglow.Sql.Txn Afterglow.Core.Model Afterglow.Core.Store Afterglow.Core.Run
open Afterglow.Localdemo.Reset (Db ResetErr ResetOut demo resetTo reset_out)
open Afterglow.Sync.Holders Afterglow.Httpapi.Demo

/-! ### The history -/

/-- Thread `k` claimed job `j` after the last reset. -/
def Current (k : ℕ) (j : Job) (log : List Entry) : Prop :=
  ∃ newer older, log = newer ++ .claimed k j :: older ∧ ∀ b, Entry.reset b ∉ newer

/-- Every transaction on a job stands after the claim of that job, with no reset in between. -/
def Sound : List Entry → Prop
  | [] => True
  | .acted k j _ :: older => Current k j older ∧ Sound older
  | _ :: older => Sound older

theorem Current.claimed (k : ℕ) (j : Job) (log : List Entry) : Current k j (.claimed k j :: log) :=
  ⟨[], log, rfl, fun _ h => nomatch h⟩

theorem Current.cons {k : ℕ} {j : Job} {log : List Entry} (h : Current k j log) {e : Entry}
    (he : ∀ b, e ≠ .reset b) : Current k j (e :: log) := by
  obtain ⟨newer, older, rfl, hno⟩ := h
  refine ⟨e :: newer, older, rfl, fun b hb => ?_⟩
  rcases List.mem_cons.mp hb with hb | hb
  · exact he b hb.symm
  · exact hno b hb

theorem Sound.acted {older : List Entry} {k : ℕ} {j : Job} {o : Op} : ∀ newer : List Entry,
    Sound (newer ++ .acted k j o :: older) → Current k j older
  | [], h => h.1
  | .claimed _ _ :: newer, h => Sound.acted newer h
  | .acted _ _ _ :: newer, h => Sound.acted newer h.2
  | .reset _ :: newer, h => Sound.acted newer h

/-! ### The invariant -/

structure Fenced {n m : ℕ} (x : Server n m) : Prop where
  gate : Excl x.gate
  operation : Excl x.operation
  drawn : ∀ i g, (x.visits i).drawn = some g → x.db.generation = some g
  saved : (∀ i, (x.visits i).drawn = none) → x.db.generation = some x.demoGeneration
  admitted : ∀ i r, (x.visits i).admitted = some r → r.stale x.demoGeneration = false
  current : ∀ k j, (x.threads k).job = some j → Current k j x.log
  sound : Sound x.log

theorem Visit.gate_of_drawn {v : Visit} {g : String} (h : v.drawn = some g) : v.gate = some .write := by
  cases v <;> first | rfl | cases h

theorem Visit.gate_of_admitted {v : Visit} {r : Request} (h : v.admitted = some r) : v.gate ≠ none := by
  cases v <;> first | exact Option.some_ne_none _ | cases h

theorem Visit.drawn_of_admitted {v : Visit} {r : Request} (h : v.admitted = some r) : v.drawn = none := by
  cases v <;> first | rfl | cases h

theorem Thread.operation_of_job {t : Thread} {j : Job} (h : t.job = some j) : t.operation ≠ none := by
  cases t <;> first | exact Option.some_ne_none _ | cases h

section Moves

variable {n m : ℕ} {x : Server n m} {i : Fin n} {k : Fin m} {v : Visit} {t : Thread}

theorem gate_visit : (x.visit i v).gate = Function.update x.gate i v.gate :=
  Function.comp_update _ _ _ _

theorem operation_visit :
    (x.visit i v).operation = Function.update x.operation (.inl i) v.operation := by
  show Sum.elim (Visit.operation ∘ Function.update x.visits i v) _ = _
  rw [Function.comp_update, ← Sum.update_elim_inl]
  rfl

theorem operation_thread :
    (x.thread k t).operation = Function.update x.operation (.inr k) t.operation := by
  show Sum.elim _ (Thread.operation ∘ Function.update x.threads k t) = _
  rw [Function.comp_update, ← Sum.update_elim_inr]
  rfl

namespace Fenced

/-- The tables and the controls are not fenced. -/
theorem data (h : Fenced x) (core : Store) (traffic : Foottraffic.Model.Traffic) (controls : Controls) :
    Fenced { x with db := { x.db with core, traffic }, controls } :=
  ⟨h.gate, h.operation, h.drawn, h.saved, h.admitted, h.current, h.sound⟩

/-- A request moves. -/
theorem visit (h : Fenced x) (hgate : Moves x.gate i v.gate) (hop : Moves x.operation (.inl i) v.operation)
    (hdrawn : v.drawn = (x.visits i).drawn)
    (hadm : ∀ r, v.admitted = some r → r.stale x.demoGeneration = false) : Fenced (x.visit i v) := by
  have hall : ∀ j, ((x.visit i v).visits j).drawn = (x.visits j).drawn := by
    intro j
    by_cases hj : j = i
    · rw [hj, Server.visit_self, hdrawn]
    · rw [Server.visit_of_ne x hj]
  refine ⟨?_, ?_, fun j g hj => ?_, fun hnone => ?_, fun j r hj => ?_, h.current, h.sound⟩
  · rw [gate_visit]
    exact h.gate.update hgate
  · rw [operation_visit]
    exact h.operation.update hop
  · exact h.drawn j g ((hall j).symm.trans hj)
  · exact h.saved fun j => (hall j).symm.trans (hnone j)
  · by_cases hji : j = i
    · rw [hji, Server.visit_self] at hj
      exact hadm r hj
    · rw [Server.visit_of_ne x hji] at hj
      exact h.admitted j r hj

/-- A thread moves. -/
theorem thread (h : Fenced x) (hop : Moves x.operation (.inr k) t.operation)
    (hjob : ∀ j, t.job = some j → Current k j x.log) : Fenced (x.thread k t) := by
  refine ⟨h.gate, ?_, h.drawn, h.saved, h.admitted, fun l j hj => ?_, h.sound⟩
  · rw [operation_thread]
    exact h.operation.update hop
  · by_cases hl : l = k
    · rw [hl, Server.thread_self] at hj
      rw [hl]
      exact hjob j hj
    · rw [Server.thread_of_ne x hl] at hj
      exact h.current l j hj

/-- An entry of the worker. -/
theorem log (h : Fenced x) {e : Entry} (he : ∀ b, e ≠ .reset b) (hs : Sound (e :: x.log)) :
    Fenced { x with log := e :: x.log } :=
  ⟨h.gate, h.operation, h.drawn, h.saved, h.admitted, fun k j hj => (h.current k j hj).cons he, hs⟩

/-! ### A reset -/

/-- Who holds `operation` as a request leaves no job with the worker. -/
theorem no_job (h : Fenced x) (hop : (x.visits i).operation = some .write) (k : Fin m) :
    (x.threads k).job = none := by
  have hfree : (x.threads k).operation = none :=
    h.operation.alone (i := .inl i) (j := .inr k) hop Sum.inr_ne_inl
  by_contra hjob
  obtain ⟨j, hj⟩ := Option.ne_none_iff_exists'.mp hjob
  exact Thread.operation_of_job hj hfree

/-- Who writes at the gate is the only request in a handler. -/
theorem others_absent (h : Fenced x) (hgate : (x.visits i).gate = some .write) {j : Fin n} (hj : j ≠ i) :
    (x.visits j).drawn = none ∧ (x.visits j).admitted = none := by
  have hfree : (x.visits j).gate = none := h.gate.alone (i := i) hgate hj
  constructor
  · by_contra hne
    obtain ⟨g, hg⟩ := Option.ne_none_iff_exists'.mp hne
    rw [Visit.gate_of_drawn hg] at hfree
    cases hfree
  · by_contra hne
    obtain ⟨r, hr⟩ := Option.ne_none_iff_exists'.mp hne
    exact Visit.gate_of_admitted hr hfree

/-- The end of a reset's transaction, with no job in the worker's hands. -/
theorem logReset (h : Fenced x) (hno : ∀ k, (x.threads k).job = none) (b : Bool) :
    Fenced { x with log := .reset b :: x.log } := by
  refine ⟨h.gate, h.operation, h.drawn, h.saved, h.admitted, fun k j hj => ?_, h.sound⟩
  rw [hno k] at hj
  cases hj

theorem endReset (h : Fenced x) {r : Request} (hv : x.visits i = .resetting r) {g : String}
    {out : Except ResetErr String × Db} (hout : ResetOut g x.db out) : Fenced (x.endReset i r out) := by
  have hop : (x.visits i).operation = some .write := by rw [hv]; rfl
  have hgate : (x.visits i).gate = some .write := by rw [hv]; rfl
  cases hout with
  | refused e =>
    refine (h.logReset (h.no_job hop) false).visit (Or.inr (Or.inl hgate.symm)) (Or.inr (Or.inl hop.symm))
      (by rw [hv]; rfl) fun r' hr' => ?_
    exact h.admitted i r' (by rw [hv]; exact hr')
  | done =>
    have hlog := h.logReset (h.no_job hop) true
    refine ⟨?_, ?_, fun j g' hj => ?_, fun hnone => ?_, fun j r' hj => ?_, hlog.current, hlog.sound⟩
    · exact gate_visit ▸ h.gate.update (Or.inr (Or.inl hgate.symm))
    · exact operation_visit ▸ h.operation.update (Or.inr (Or.inl hop.symm))
    · by_cases hji : j = i
      · rw [hji] at hj
        exact (congrArg Visit.drawn (Server.visit_self _ i _)).symm.trans hj
      · have hother := (h.others_absent hgate hji).1
        rw [← Server.visit_of_ne x hji (.clearing g .failNext)] at hother
        exact absurd (hother.symm.trans hj) (by simp)
    · exact absurd (hnone i) (by simp [Server.endReset, Visit.drawn])
    · refine h.admitted j r' ?_
      by_cases hji : j = i
      · simp [Server.endReset, hji, Visit.admitted] at hj
      · exact (congrArg Visit.admitted (Server.visit_of_ne x hji (.clearing g .failNext))).symm.trans hj

/-- `DemoGeneration` is set to the generation that is committed. -/
theorem save (h : Fenced x) {g : String} (hv : x.visits i = .saving g) :
    Fenced ({ x with demoGeneration := g }.visit i (.returning .write)) := by
  have hgate : (x.visits i).gate = some .write := by rw [hv]; rfl
  have hop : (x.visits i).operation = none := by rw [hv]; rfl
  refine ⟨?_, ?_, fun j g' hj => ?_, fun _ => ?_, fun j r' hj => ?_, h.current, h.sound⟩
  · exact gate_visit ▸ h.gate.update (Or.inr (Or.inl hgate.symm))
  · exact operation_visit ▸ h.operation.update (Or.inr (Or.inl hop.symm))
  · by_cases hji : j = i
    · simp [hji, Visit.drawn] at hj
    · have hother := (h.others_absent hgate hji).1
      rw [Server.visit_of_ne _ hji] at hj
      exact absurd (hother.symm.trans hj) (by simp)
  · exact h.drawn i g (by rw [hv]; rfl)
  · by_cases hji : j = i
    · simp [hji, Visit.admitted] at hj
    · have hother := (h.others_absent hgate hji).2
      rw [Server.visit_of_ne _ hji] at hj
      exact absurd (hother.symm.trans hj) (by simp)

end Fenced

end Moves

/-! ### One step -/

theorem execReset_out (g : String) (fault : Option ℕ) (db : Db) : ResetOut g db (execReset g fault db) := by
  cases fault with
  | none => exact reset_out false g db
  | some n =>
    rcases demo.faulty_cases (.storage (.storage .fault)) db n (Localdemo.Reset.reset false g) db with h | h
    · show ResetOut g db (demo.faulty _ db n _ db)
      rw [h]
      exact reset_out false g db
    · show ResetOut g db (demo.faulty _ db n _ db)
      rw [h]
      exact .refused _

theorem Thread.operation_cases (t : Thread) : t.operation = none ∨ t.operation = some .write := by
  cases t with
  | idle => exact Or.inl rfl
  | _ => exact Or.inr rfl

namespace Fenced

variable {n m : ℕ} {x : Server n m} {H : Digest} {sha256 : String → String}

theorem call (h : Fenced x) (o : Op) (fault : Option ℕ) : Fenced (x.call H o fault) := h.data _ _ _

theorem effect (h : Fenced x) (f : Effect) : Fenced (x.effect H sha256 f) := by
  cases f with
  | reserve | accept | replay => exact h.call _ _
  | _ => exact h.data _ _ _

/-- A request in its handler, or on its way out. -/
theorem keep (h : Fenced x) {i : Fin n} {v w : Visit} (hv : x.visits i = v)
    (hgate : w.gate = none ∨ w.gate = v.gate) (hop : w.operation = none ∨ w.operation = v.operation)
    (hdrawn : w.drawn = v.drawn) (hadm : ∀ r, w.admitted = some r → v.admitted = some r) :
    Fenced (x.visit i w) := by
  subst hv
  refine h.visit ?_ ?_ hdrawn fun r hr => h.admitted i r (hadm r hr)
  · exact hgate.imp id Or.inl
  · exact hop.imp id Or.inl

/-- **A step of a request.** -/
theorem stepVisit (h : Fenced x) (i : Fin n) (a : VisitStep) : Fenced (x.stepVisit H sha256 i a) := by
  unfold Server.stepVisit
  split
  · next r hv => exact h.keep hv (Or.inl rfl) (Or.inl rfl) rfl fun _ hr => nomatch hr
  · next r hv => exact h.keep hv (Or.inl rfl) (Or.inl rfl) rfl fun _ hr => nomatch hr
  · next r hv =>
    split_ifs with hapi hgrant
    · exact h.keep hv (Or.inl rfl) (Or.inl rfl) rfl fun _ hr => nomatch hr
    · exact h.visit (Or.inr (Or.inr ⟨r.mode, rfl, hgrant⟩)) (Or.inl rfl) (by rw [hv]; rfl)
        fun _ hr => nomatch hr
    · exact h
  · next r hv =>
    split_ifs with hstale
    · exact h.keep hv (Or.inr rfl) (Or.inl rfl) rfl fun _ hr => nomatch hr
    · refine h.visit (Or.inr (Or.inl ?_)) (Or.inl rfl) (by rw [hv]; rfl) fun r' hr => ?_
      · show some r.mode = (x.visits i).gate
        rw [hv]
        rfl
      · cases hr
        exact Bool.eq_false_iff.mpr hstale
  · split_ifs
    · exact h.effect _
    · exact h
  · next r hv =>
    split_ifs with hreset
    · obtain ⟨hr, hgrant⟩ : r.isReset = true ∧ Grants x.operation .write := by
        simp only [Bool.and_eq_true, decide_eq_true_eq] at hreset
        exact ⟨hreset.1.1, hreset.2⟩
      refine h.visit (Or.inr (Or.inl ?_)) (Or.inr (Or.inr ⟨.write, rfl, hgrant⟩)) (by rw [hv]; rfl)
        fun r' hr' => h.admitted i r' (by rw [hv]; exact hr')
      show some Mode.write = (x.visits i).gate
      rw [hv]
      show _ = some r.mode
      rw [Request.mode, if_pos hr]
    · exact h
  · next r g fault hv =>
    split_ifs
    · exact h.keep hv (Or.inr rfl) (Or.inr rfl) rfl fun _ hr => hr
    · exact h.endReset hv (execReset_out g fault x.db)
  · next r hv => exact h.keep hv (Or.inr rfl) (Or.inl rfl) rfl fun _ hr => hr
  · next g next hv =>
    cases next with
    | unlock => exact h.keep hv (Or.inr rfl) (Or.inl rfl) rfl fun _ hr => nomatch hr
    | _ => exact (h.data _ _ _).keep hv (Or.inr rfl) (Or.inr rfl) rfl fun _ hr => nomatch hr
  · next g hv => exact h.save hv
  · next r hv => exact h.keep hv (Or.inl rfl) (Or.inl rfl) rfl fun _ hr => nomatch hr
  · next r hv => exact h.keep hv (Or.inl rfl) (Or.inl rfl) rfl fun _ hr => nomatch hr
  · next r hv => exact h.keep hv (Or.inl rfl) (Or.inl rfl) rfl fun _ hr => nomatch hr
  · next r hv => exact h.keep hv (Or.inl rfl) (Or.inl rfl) rfl fun _ hr => nomatch hr
  · exact h

/-- A thread that holds `operation` goes on with its job, or ends. -/
theorem hold (h : Fenced x) {k : Fin m} {t u : Thread} (ht : x.threads k = t)
    (hop : t.operation = some .write) (hjob : ∀ j, u.job = some j → t.job = some j) :
    Fenced (x.thread k u) := by
  subst ht
  refine h.thread ?_ fun j hj => h.current k j (hjob j hj)
  rcases Thread.operation_cases u with hu | hu
  · exact Or.inl hu
  · exact Or.inr (Or.inl (hu.trans hop.symm))

/-- A transaction on the job of a thread. -/
theorem act (h : Fenced x) {k : Fin m} {t : Thread} {j : Job} (ht : x.threads k = t) (hj : t.job = some j)
    (o : Op) (fault : Option ℕ) {ok bad : Thread} (hok : ∀ j', ok.job = some j' → j' = j)
    (hbad : ∀ j', bad.job = some j' → j' = j) : Fenced (x.act H k j o fault ok bad) := by
  have hop : t.operation = some .write :=
    (Thread.operation_cases t).resolve_left (Thread.operation_of_job hj)
  have hcur : Current k j x.log := h.current k j (by rw [ht]; exact hj)
  have hlog : Fenced { x.call H o fault with log := .acted k j o :: x.log } :=
    (h.call o fault).log (fun _ => nofun) ⟨hcur, h.sound⟩
  unfold Server.act
  cases (o.exec H fault x.db.core).1 with
  | ok a => exact hlog.hold ht hop fun j' hj' => hok j' hj' ▸ hj
  | error e => exact hlog.hold ht hop fun j' hj' => hbad j' hj' ▸ hj

/-- **A step of the worker.** -/
theorem stepThread (h : Fenced x) (k : Fin m) (a : ThreadStep) : Fenced (x.stepThread H k a) := by
  unfold Server.stepThread
  split
  · split_ifs with hgrant
    · exact h.thread (Or.inr (Or.inr ⟨.write, rfl, hgrant⟩)) fun _ hj => nomatch hj
    · exact h
  · split_ifs with hgrant
    · exact h.thread (Or.inr (Or.inr ⟨.write, rfl, hgrant⟩)) fun _ hj => nomatch hj
    · exact h
  · next now ht =>
    split_ifs
    · exact h.hold ht rfl fun _ hj => nomatch hj
    · exact h.hold ht rfl fun _ hj => nomatch hj
  · next now owner fault ht =>
    have hcall : Fenced (x.call H (.claim false now owner) fault) := h.call _ _
    simp only
    split
    · next j hclaim =>
      have hlog : Fenced { x.call H (.claim false now owner) fault with log := .claimed k j :: x.log } :=
        hcall.log (fun _ => nofun) h.sound
      refine hlog.thread (Or.inr (Or.inl ?_)) fun j' hj' => ?_
      · show some Mode.write = (x.threads k).operation
        rw [ht]
        rfl
      · cases hj'
        exact Current.claimed k j x.log
    · exact hcall.hold ht rfl fun _ hj => nomatch hj
  · next j ok ht =>
    split_ifs
    · exact h.hold ht rfl fun _ hj => hj
    · exact h.hold ht rfl fun _ hj => hj
    · exact h
  · next j fault ht => exact h.act ht rfl _ _ (fun _ hj => nomatch hj) fun _ hj => (Option.some.inj hj).symm
  · next j ht =>
    split_ifs
    · exact h
    · exact (h.data _ _ _).hold ht rfl fun _ hj => hj
    · exact h.hold ht rfl fun _ hj => hj
  · next j d fault ht =>
    exact h.act ht rfl _ _ (fun _ hj => (Option.some.inj hj).symm) fun _ hj => (Option.some.inj hj).symm
  · next j ht =>
    split_ifs
    · exact (h.data _ _ _).hold ht rfl fun _ hj => hj
    · exact h.hold ht rfl fun _ hj => hj
  · next j fault ht => exact h.act ht rfl _ _ (fun _ hj => nomatch hj) fun _ hj => (Option.some.inj hj).symm
  · next ht => exact (h.data _ _ _).hold ht rfl fun _ hj => nomatch hj
  · next j now ht => exact (h.data _ _ _).hold ht rfl fun _ hj => hj
  · next j next d fault ht => exact h.act ht rfl _ _ (fun _ hj => nomatch hj) fun _ hj => nomatch hj
  · exact h.call _ _
  · next ht => exact h.hold ht rfl fun _ hj => nomatch hj
  · exact h

theorem step (h : Fenced x) (e : Event n m) : Fenced (x.step H sha256 e) := by
  cases e with
  | visit i a => exact h.stepVisit i a
  | thread k a => exact h.stepThread k a

theorem run : ∀ (es : List (Event n m)) {x : Server n m}, Fenced x → Fenced (x.run H sha256 es)
  | [], _, h => h
  | e :: es, _, h => run es (h.step e)

/-- The process as it starts. -/
theorem start (publisher : Bool) (db : Db) (controls : Controls) (id : String) :
    Fenced (Server.start publisher db controls id : Server n m) := by
  refine ⟨fun i j hi => ?_, fun i j hi => ?_, fun i g hg => ?_, fun _ => rfl, fun i r hr => ?_,
    fun k j hj => ?_, trivial⟩
  · cases hi
  · cases i with
    | inl i => cases hi
    | inr k => cases hi
  · cases hg
  · cases hr
  · cases hj

/-- **An admitted request names the generation of the database.** -/
theorem admitted_generation (h : Fenced x) {i : Fin n} {r : Request} (hi : (x.visits i).admitted = some r)
    (hm : r.mutating = true) (hg : r.generation ≠ "") : x.db.generation = some r.generation := by
  have hdrawn : ∀ j, (x.visits j).drawn = none := by
    intro j
    by_contra hne
    obtain ⟨g, hg⟩ := Option.ne_none_iff_exists'.mp hne
    have hij : j = i := h.gate j i (Visit.gate_of_drawn hg) (Visit.gate_of_admitted hi)
    rw [hij] at hne
    exact hne (Visit.drawn_of_admitted hi)
  have hfresh := h.admitted i r hi
  have heq : r.generation = x.demoGeneration := by
    by_contra hne
    simp [Request.stale, hm, hg, hne] at hfresh
  rw [h.saved hdrawn, heq]

/-- **Nobody writes at the gate**: the server and the database agree. -/
theorem saved_of_unlocked (h : Fenced x) (hno : ∀ i, (x.visits i).gate ≠ some .write) :
    x.db.generation = some x.demoGeneration := by
  refine h.saved fun i => ?_
  by_contra hne
  obtain ⟨g, hg⟩ := Option.ne_none_iff_exists'.mp hne
  exact hno i (Visit.gate_of_drawn hg)

end Fenced

/-! ### A reset is alone -/

/-- What a failed reset leaves as it is: the tables, `DemoGeneration` and the controls of the worker. -/
def data {n m : ℕ} (x : Server n m) : Db × String × Controls := (x.db, x.demoGeneration, x.controls)

/-- The step is one of request `i`. -/
def Event.isOf {n m : ℕ} (i : Fin n) : Event n m → Bool
  | .visit j _ => j = i
  | .thread _ _ => false

section Alone

variable {n m : ℕ} {x : Server n m} {H : Digest} {sha256 : String → String} {i : Fin n}

/-- A request that does not hold the gate changes nothing. -/
theorem data_stepVisit {j : Fin n} (hj : (x.visits j).gate = none) (a : VisitStep) :
    data (x.stepVisit H sha256 j a) = data x := by
  unfold Server.stepVisit
  split
  · rfl
  · rfl
  · split_ifs <;> rfl
  all_goals first
    | rfl
    | next hv => rw [hv] at hj; cases hj

/-- A thread that does not hold `operation`, and does not get it, stays where it is. -/
theorem stepThread_idle {k : Fin m} (hk : (x.threads k).operation = none)
    (hno : ¬ Grants x.operation .write) (a : ThreadStep) : x.stepThread H k a = x := by
  unfold Server.stepThread
  split
  · rw [if_neg hno]
  · rw [if_neg hno]
  all_goals first
    | rfl
    | next ht => rw [ht] at hk; cases hk

theorem visits_effect (f : Effect) : (x.effect H sha256 f).visits = x.visits := by
  cases f <;> rfl

theorem visits_endReset {j : Fin n} (hj : i ≠ j) (r : Request) (out : Except ResetErr String × Db) :
    (x.endReset j r out).visits i = x.visits i := by
  rcases out with ⟨_ | _, _⟩ <;> exact Server.visit_of_ne _ hj _

theorem visits_clear {j : Fin n} (hj : i ≠ j) (g : String) (next : Clear) :
    (x.clear j g next).visits i = x.visits i := by
  cases next <;> exact Server.visit_of_ne _ hj _

/-- A request stays where it is while another moves. -/
theorem visits_stepVisit {j : Fin n} (hj : i ≠ j) (a : VisitStep) :
    (x.stepVisit H sha256 j a).visits i = x.visits i := by
  unfold Server.stepVisit
  split
  · exact Server.visit_of_ne _ hj _
  · exact Server.visit_of_ne _ hj _
  · split_ifs
    · exact Server.visit_of_ne _ hj _
    · exact Server.visit_of_ne _ hj _
    · rfl
  · split_ifs <;> exact Server.visit_of_ne _ hj _
  · split_ifs
    · rw [visits_effect]
    · rfl
  · split_ifs
    · exact Server.visit_of_ne _ hj _
    · rfl
  · split_ifs
    · exact Server.visit_of_ne _ hj _
    · exact visits_endReset hj _ _
  · exact Server.visit_of_ne _ hj _
  · exact visits_clear hj _ _
  all_goals first
    | exact Server.visit_of_ne _ hj _
    | rfl

/-- **While a reset holds both locks, nobody else changes anything.** -/
theorem alone_step (h : Fenced x) (hgate : (x.visits i).gate = some .write)
    (hop : (x.visits i).operation = some .write) {e : Event n m} (he : Event.isOf i e = false) :
    data (x.step H sha256 e) = data x ∧ (x.step H sha256 e).visits i = x.visits i := by
  cases e with
  | visit j a =>
    have hji : j ≠ i := by simpa [Event.isOf] using he
    exact ⟨data_stepVisit (h.gate.alone (i := i) hgate hji) a, visits_stepVisit (Ne.symm hji) a⟩
  | thread k a =>
    have hno : ¬ Grants x.operation .write := by
      intro hfree
      have hi : (x.visits i).operation = none := hfree (.inl i)
      rw [hop] at hi
      cases hi
    have hk : (x.threads k).operation = none :=
      h.operation.alone (i := .inl i) (j := .inr k) hop Sum.inr_ne_inl
    show data (x.stepThread H k a) = data x ∧ (x.stepThread H k a).visits i = x.visits i
    rw [stepThread_idle hk hno a]
    exact ⟨rfl, rfl⟩

theorem alone_run : ∀ (es : List (Event n m)) {x : Server n m}, Fenced x →
    (x.visits i).gate = some .write → (x.visits i).operation = some .write →
    (∀ e ∈ es, Event.isOf i e = false) →
    data (x.run H sha256 es) = data x ∧ (x.run H sha256 es).visits i = x.visits i
  | [], _, _, _, _, _ => ⟨rfl, rfl⟩
  | e :: es, x, h, hgate, hop, hes => by
    obtain ⟨hdata, hvisit⟩ : data (x.step H sha256 e) = data x ∧
        (x.step H sha256 e).visits i = x.visits i :=
      alone_step h hgate hop (hes e List.mem_cons_self)
    obtain ⟨hdata', hvisit'⟩ := alone_run es (h.step e) (by rw [hvisit]; exact hgate)
      (by rw [hvisit]; exact hop) fun e' he' => hes e' (List.mem_cons_of_mem e he')
    exact ⟨hdata'.trans hdata, hvisit'.trans hvisit⟩

end Alone

/-- The activity is gone: nine tables are empty, and no campaign has money reserved or spent. -/
structure Cleared (db : Db) : Prop where
  context : db.core.context.rows = []
  outbox : db.core.outbox.rows = []
  deliveries : db.core.deliveries.rows = []
  reservations : db.core.reservations.rows = []
  audit : db.core.audit.rows = []
  quarantine : db.core.quarantine.rows = []
  windows : db.traffic.windows.rows = []
  batches : db.traffic.batches.rows = []
  scopes : db.traffic.scopes.rows = []
  balances : ∀ c ∈ db.core.campaigns, c.reserved = 0 ∧ c.spent = 0

theorem cleared_resetTo (g : String) (db : Db) : Cleared (resetTo g db) := by
  refine ⟨rfl, rfl, rfl, rfl, rfl, rfl, rfl, rfl, rfl, fun c hc => ?_⟩
  obtain ⟨c₀, -, rfl⟩ := List.mem_map.mp hc
  exact ⟨rfl, rfl⟩

/-- What the transaction of a reset does. -/
theorem step_reset {n m : ℕ} {x : Server n m} {H : Digest} {sha256 : String → String} {i : Fin n}
    {r : Request} (hi : x.visits i = .resetting r) (g : String) (fault : Option ℕ) :
    let y := x.step H sha256 (.visit i (.reset g fault))
    (y.visits i = .refused r ∧ data y = data x) ∨
      (y.visits i = .clearing g .failNext ∧ data y = (resetTo g x.db, x.demoGeneration, x.controls)) := by
  intro y
  have hy : y = if x.publisher then x.visit i (.refused r) else x.endReset i r (execReset g fault x.db) := by
    simp only [y, Server.step, Server.stepVisit, hi]
  rw [hy]
  split_ifs
  · exact Or.inl ⟨Server.visit_self .., rfl⟩
  · have hout := execReset_out g fault x.db
    generalize execReset g fault x.db = out at hout ⊢
    cases hout with
    | refused e => exact Or.inl ⟨Server.visit_self .., rfl⟩
    | done => exact Or.inr ⟨Server.visit_self .., rfl⟩

/-- **A reset fails without a trace, or empties the tables**: from when it takes `operation`, through what
the others do before and after its transaction. -/
theorem reset_all_or_nothing {n m : ℕ} {x : Server n m} {H : Digest} {sha256 : String → String}
    (h : Fenced x) {i : Fin n} {r : Request} (hi : x.visits i = .resetting r) (g : String) (fault : Option ℕ)
    {before after : List (Event n m)} (hbefore : ∀ e ∈ before, Event.isOf i e = false)
    (hafter : ∀ e ∈ after, Event.isOf i e = false) :
    let z := ((x.run H sha256 before).step H sha256 (.visit i (.reset g fault))).run H sha256 after
    (z.visits i = .refused r ∧ data z = data x) ∨
      (z.visits i = .clearing g .failNext ∧ data z = (resetTo g x.db, x.demoGeneration, x.controls)) := by
  intro z
  obtain ⟨hdata, hvisit⟩ : data (x.run H sha256 before) = data x ∧
      (x.run H sha256 before).visits i = x.visits i :=
    alone_run before h (by rw [hi]; rfl) (by rw [hi]; rfl) hbefore
  have hnext : Fenced ((x.run H sha256 before).step H sha256 (.visit i (.reset g fault))) :=
    (h.run before).step _
  rcases step_reset (H := H) (hvisit.trans hi) g fault with ⟨hv, hd⟩ | ⟨hv, hd⟩
  · obtain ⟨hzdata, hzvisit⟩ := alone_run after hnext (by rw [hv]; rfl) (by rw [hv]; rfl) hafter
    exact Or.inl ⟨hzvisit.trans hv, hzdata.trans (hd.trans hdata)⟩
  · obtain ⟨hzdata, hzvisit⟩ := alone_run after hnext (by rw [hv]; rfl) (by rw [hv]; rfl) hafter
    refine Or.inr ⟨hzvisit.trans hv, hzdata.trans (hd.trans ?_)⟩
    have hdb : (x.run H sha256 before).db = x.db := congrArg Prod.fst hdata
    have hrest : ((x.run H sha256 before).demoGeneration, (x.run H sha256 before).controls) =
        (x.demoGeneration, x.controls) := congrArg Prod.snd hdata
    rw [hdb, hrest]

/-- **The fence.** In every state that a run of the process reaches: a mutating request in its handler
whose header names a generation names the one of the database, until its own reset commits; the server's
generation is that of the database unless somebody writes at the gate; a job was claimed after the last
reset before each transaction on it; and a reset that fails changes nothing, one that succeeds leaves
the activity tables empty and the balances at zero. -/
theorem generations_fenced (H : Digest) (sha256 : String → String) {n m : ℕ} (publisher : Bool) (db : Db)
    (controls : Controls) (id : String) (es : List (Event n m)) :
    let x := (Server.start publisher db controls id : Server n m).run H sha256 es
    (∀ i r, (x.visits i).admitted = some r → r.mutating = true → r.generation ≠ "" →
      x.db.generation = some r.generation) ∧
    ((∀ i, (x.visits i).gate ≠ some .write) → x.db.generation = some x.demoGeneration) ∧
    (∀ newer older k j o, x.log = newer ++ .acted k j o :: older →
      ∃ between before, older = between ++ .claimed k j :: before ∧ ∀ b, Entry.reset b ∉ between) ∧
    ∀ i r g fault before after, x.visits i = .resetting r →
      (∀ e ∈ before, Event.isOf i e = false) → (∀ e ∈ after, Event.isOf i e = false) →
      let z := ((x.run H sha256 before).step H sha256 (.visit i (.reset g fault))).run H sha256 after
      (z.visits i = .refused r ∧ data z = data x) ∨
        (z.visits i = .clearing g .failNext ∧ z.db = resetTo g x.db ∧ Cleared z.db) := by
  intro x
  have h : Fenced x := (Fenced.start publisher db controls id).run es
  refine ⟨fun i r hi hm hg => h.admitted_generation hi hm hg, h.saved_of_unlocked,
    fun newer older k j o hlog => ?_, fun i r g fault before after hi hbefore hafter => ?_⟩
  · have hsound := h.sound
    rw [hlog] at hsound
    exact Sound.acted newer hsound
  · intro z
    rcases reset_all_or_nothing h hi g fault hbefore hafter with ⟨hv, hd⟩ | ⟨hv, hd⟩
    · exact Or.inl ⟨hv, hd⟩
    · have hdb : z.db = resetTo g x.db := congrArg Prod.fst hd
      refine Or.inr ⟨hv, hdb, ?_⟩
      rw [hdb]
      exact cleared_resetTo g x.db

/-! ### A stale tab -/

/-- A digest for the run below. -/
def eventDigest : Digest := ⟨fun inp => inp.campaignID, fun r => r.eventID⟩

/-- A tab posts a receipt. -/
def tab : Request := ⟨.post, "/api/v1/receipts", "g0", none⟩

/-- The receipt is accepted and claimed by a `Tick`. A reset comes through the gate and has to wait for the
`Tick`, and the tab's next request has to wait for the reset. -/
def staleTab : List (Event 2 1) :=
  [.visit 0 (.arrive tab), .visit 0 .enter, .visit 0 .check,
    .visit 0 (.effect (.accept "demo" ⟨1, "e1", "r1", "sea-01", 0, 5000⟩ ⟨"d1", 0, [], ⟨"a1", 0⟩⟩ none)),
    .visit 0 .leave, .thread 0 .tick, .thread 0 (.look 0), .thread 0 (.claim 0 "o1" none),
    .visit 1 (.arrive ⟨.post, "/api/demo/reset", "g0", some true⟩), .visit 1 .enter, .visit 1 .check,
    .visit 1 .lockOperation, .visit 0 (.arrive tab), .visit 0 .enter, .thread 0 .consumeFault,
    .thread 0 (.process ⟨0, ⟨"a2", 0⟩⟩ none), .thread 0 .dropAck, .thread 0 (.complete none),
    .thread 0 .markSuccess, .visit 1 .lockOperation, .visit 1 (.reset "g1" none), .visit 1 .clear,
    .visit 1 .clear, .visit 1 .clear, .visit 1 .clear, .visit 1 .clear, .visit 1 .save, .visit 1 .leave,
    .visit 0 .enter, .visit 0 .check]

/-- The reset comes after the transactions on the job, the tab's second request is turned back, and the
server's generation is that of the database. -/
theorem generations_fenced_staleTab :
    let x := (Server.start false Db.empty ⟨false, 0, false, 0, none⟩ "g0" : Server 2 1).run eventDigest id
      staleTab
    x.visits 0 = .returning .read ∧ (∀ i, (x.visits i).gate ≠ some .write) ∧ x.demoGeneration = "g1" ∧
      x.log = [.reset true, .acted 0 ⟨"demo", "d1", "o1", 1, []⟩ (.complete "demo" "d1"),
        .acted 0 ⟨"demo", "d1", "o1", 1, []⟩ (.process "demo" "d1" ⟨0, ⟨"a2", 0⟩⟩),
        .claimed 0 ⟨"demo", "d1", "o1", 1, []⟩] ∧
      x.db.generation = some x.demoGeneration :=
  ⟨by decide +kernel, by decide +kernel, by decide +kernel, by decide +kernel,
    (generations_fenced eventDigest id false Db.empty ⟨false, 0, false, 0, none⟩ "g0" staleTab).2.1
      (by decide +kernel)⟩

end Afterglow.Httpapi.Fence
