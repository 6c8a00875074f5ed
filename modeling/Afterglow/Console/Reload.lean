import Afterglow.Console.Session

/-! # After the last reset

Once the resets have stopped, the header of every answer behind the gate is the generation `g` of the
server. A document that is loaded from then on is one of three: without a generation or of `g`, and then
nothing takes it away; of an older one that `sessionStorage` still had (`Stale`), and then the first answer
with a header, or the broadcast of another tab, gives it up; or given up, and then `g` is what the next one
finds. So a tab gives up at most one document (`reloads_once`). -/

namespace Afterglow.Console.Session

open Afterglow.Core.Store (Digest)
open Afterglow.Localdemo.Reset (Db)
open Afterglow.Httpapi.Demo (Request Visit VisitStep Controls Server)
open Afterglow.Httpapi.Fence

/-! ### The server at rest -/

/-- No reset is between its commit and its answer, and the generation is `g`. -/
structure AtRest {n m : ℕ} (g : String) (s : Server n m) : Prop where
  drawn : ∀ i, (s.visits i).drawn = none
  generation : s.demoGeneration = g

namespace AtRest

variable {n m : ℕ} {g : String} {s : Server n m} {H : Digest} {sha256 : String → String}

theorem visit (h : AtRest g s) {i : Fin n} {v : Visit} (hv : v.drawn = none) : AtRest g (s.visit i v) := by
  refine ⟨fun j => ?_, h.generation⟩
  by_cases hj : j = i
  · rw [hj, Server.visit_self]
    exact hv
  · rw [Server.visit_of_ne _ hj]
    exact h.drawn j

theorem effect (h : AtRest g s) (f : Httpapi.Demo.Effect) : AtRest g (s.effect H sha256 f) := by
  refine ⟨fun j => ?_, ?_⟩
  · rw [visits_effect]
    exact h.drawn j
  · have hgen : (s.effect H sha256 f).demoGeneration = s.demoGeneration := by cases f <;> rfl
    rw [hgen, h.generation]

/-- A step of a request, but for the transaction of a reset. -/
theorem stepVisit (h : AtRest g s) (i : Fin n) (a : VisitStep) (ha : ∀ g' fault, a ≠ .reset g' fault) :
    AtRest g (s.stepVisit H sha256 i a) := by
  unfold Server.stepVisit
  split
  · exact h.visit rfl
  · exact h.visit rfl
  · split_ifs
    · exact h.visit rfl
    · exact h.visit rfl
    · exact h
  · split_ifs <;> exact h.visit rfl
  · split_ifs
    · exact h.effect _
    · exact h
  · split_ifs
    · exact h.visit rfl
    · exact h
  · next g' fault _ => exact absurd rfl (ha g' fault)
  · exact h.visit rfl
  · next g' next hv => exact absurd (h.drawn i) (by rw [hv]; exact Option.some_ne_none g')
  · next g' hv => exact absurd (h.drawn i) (by rw [hv]; exact Option.some_ne_none g')
  all_goals first
    | exact h
    | exact h.visit rfl

theorem stepThread (h : AtRest g s) (k : Fin m) (a : Httpapi.Demo.ThreadStep) :
    AtRest g (s.stepThread H k a) := by
  refine ⟨fun i => ?_, ?_⟩
  · rw [visits_stepThread]
    exact h.drawn i
  · have hgen : (s.stepThread H k a).demoGeneration = s.demoGeneration := by
      unfold Server.stepThread
      split <;> (try split_ifs) <;> first | rfl | (dsimp only; split <;> rfl)
    rw [hgen, h.generation]

end AtRest

/-! ### One tab -/

/-- The document is of an older generation than `g`. -/
def Stale (g : String) (t : Tab) : Prop :=
  t.doc.invalidated = false ∧ t.doc.generation ≠ "" ∧ t.doc.generation ≠ g

instance (g : String) (t : Tab) : Decidable (Stale g t) := inferInstanceAs (Decidable (_ ∧ _ ∧ _))

/-- The documents the tab has still to give up. -/
def rank (g : String) (t : Tab) : ℕ := if Stale g t then 1 else 0

/-- The step gives up the document of the tab. -/
def lost (t u : Tab) : ℕ := if t.doc.invalidated = false ∧ u.doc.invalidated = true then 1 else 0

/-- What `Settling` says of the tab alone: it has no reset to end, and what it knows beside a stale document
is `g`. -/
structure Calm (g : String) (t : Tab) : Prop where
  safe : TabSafe t
  cleared : t.doc.cleared = []
  stored : t.doc.invalidated = true → t.generation = "" ∨ t.generation = g
  seen : ∀ g' ∈ t.doc.seen, g' = g

/-- The answer comes from a server of generation `g`, and is not that of a reset. -/
def Answer.From {p : ℕ} (g : String) (an : Answer p) : Prop :=
  (an.header = "" ∨ an.header = g) ∧ an.cleared = none

namespace Calm

variable {g : String} {t : Tab}

theorem load (h : TabSafe t) : Calm g t.load :=
  ⟨h.load, rfl, fun hv => absurd hv Bool.false_ne_true, fun _ hs => by cases hs⟩

theorem giveUp (h : Calm g t) : Calm g (t.giveUp g) := by
  refine ⟨h.safe.giveUp g, h.cleared, fun _ => ?_, h.seen⟩
  show (if t.storage then g else t.generation) = "" ∨ (if t.storage then g else t.generation) = g
  split_ifs with hst
  · exact Or.inr rfl
  · exact Or.inl (h.safe.unstored (Bool.eq_false_iff.mpr hst)).1

end Calm

section Rank

variable {g : String} {t u : Tab}

theorem lost_self (t : Tab) : lost t t = 0 := if_neg fun h => Bool.false_ne_true (h.1.symm.trans h.2)

theorem lost_of_active (h : u.doc.invalidated = false) : lost t u = 0 :=
  if_neg fun hu => Bool.false_ne_true (h.symm.trans hu.2)

theorem rank_of_invalidated (h : u.doc.invalidated = true) : rank g u = 0 :=
  if_neg fun hu => Bool.false_ne_true (hu.1.symm.trans h)

theorem rank_of_current (h : u.doc.generation = "" ∨ u.doc.generation = g) : rank g u = 0 :=
  if_neg fun hu => h.elim hu.2.1 hu.2.2

theorem rank_of_stale (h : Stale g u) : rank g u = 1 := if_pos h

/-- A stale document is given up. -/
theorem lost_giveUp (h : Stale g t) : lost t (t.giveUp g) + rank g (t.giveUp g) ≤ rank g t := by
  rw [rank_of_invalidated rfl, rank_of_stale h, lost, if_pos ⟨h.1, rfl⟩]

end Rank

/-- What a step makes of the tab. -/
def Gives (g : String) (t u : Tab) : Prop := Calm g u ∧ lost t u + rank g u ≤ rank g t

namespace Calm

variable {g : String} {t : Tab}

theorem stay (h : Calm g t) : Gives g t t := ⟨h, by rw [lost_self, zero_add]⟩

theorem receive {p : ℕ} (h : Calm g t) {an : Answer p} (han : an.From g) : Gives g t (t.receive an) := by
  unfold Tab.receive
  split_ifs with hv hhead hother
  · exact h.stay
  · have hg : an.header = g := han.1.resolve_left (by simpa using (Bool.and_eq_true_iff.mp hhead).1)
    rw [hg] at hother ⊢
    have hstale : Stale g t := ⟨Bool.eq_false_iff.mpr hv, by simpa using hother⟩
    exact ⟨h.giveUp, lost_giveUp hstale⟩
  · have hg : an.header = g := han.1.resolve_left (by simpa using (Bool.and_eq_true_iff.mp hhead).1)
    have hsafe := h.safe.receive an
    unfold Tab.receive at hsafe
    rw [if_neg hv, if_pos hhead, if_neg hother] at hsafe
    refine ⟨⟨hsafe, h.cleared, fun hv' => absurd hv' hv, fun g' hs => ?_⟩, ?_⟩
    · rcases List.mem_cons.mp hs with rfl | hs
      · exact hg
      · exact h.seen g' hs
    · have hv' : ((t.remember an.header).see an.header).doc.invalidated = false := Bool.eq_false_iff.mpr hv
      rw [lost_of_active hv', rank_of_current (Or.inr hg)]
      exact Nat.zero_le _
  · rw [han.2]
    exact h.stay

theorem notified (h : Calm g t) : Gives g t (t.notified g) := by
  unfold Tab.notified Tab.reload
  split_ifs with hother hv
  · exact h.stay
  · obtain ⟨⟨-, hne⟩, hdiff⟩ : (g ≠ "" ∧ t.doc.generation ≠ "") ∧ g ≠ t.doc.generation := by
      simpa using hother
    exact ⟨h.giveUp, lost_giveUp ⟨Bool.eq_false_iff.mpr hv, hne, hdiff.symm⟩⟩
  · exact h.stay

theorem save (h : Calm g t) : Gives g t t.save := by
  have hsafe := h.safe.save
  unfold Tab.save at hsafe ⊢
  split_ifs at hsafe ⊢
  · exact h.stay
  · refine ⟨⟨hsafe, h.cleared, h.stored, h.seen⟩, ?_⟩
    show lost t t + rank g t ≤ rank g t
    rw [lost_self, zero_add]

/-- The next document is stale only where the last one was. -/
theorem next (h : Calm g t) : Gives g t t.load := by
  refine ⟨load h.safe, ?_⟩
  rw [lost_of_active rfl, zero_add]
  by_cases hstale : Stale g t.load
  · have hne : t.generation ≠ "" := hstale.2.1
    have hdiff : t.generation ≠ g := hstale.2.2
    have hst : t.storage = true := by
      by_contra hst
      exact hne (h.safe.unstored (Bool.eq_false_iff.mpr hst)).1
    have hv : t.doc.invalidated = false := by
      by_contra hv
      exact (h.stored (Bool.not_eq_false _ ▸ hv)).elim hne hdiff
    have hdoc := h.safe.stored hst
    rw [rank_of_stale ⟨hv, hdoc.symm ▸ hne, hdoc.symm ▸ hdiff⟩, rank_of_stale hstale]
  · rw [rank, if_neg hstale]
    exact Nat.zero_le _

end Calm

/-! ### All parties -/

/-- **The invariant after the last reset**, for a tab that has loaded a document since. -/
structure Settling {p n m : ℕ} (g : String) (a : Fin p) (x : System p n m) : Prop where
  sound : Sound x
  rest : AtRest g x.server
  calm : Calm g (x.tabs a)
  calls : ∀ i k, (x.calls i).ticket = some k → k.tab = a → k.number = (x.tabs a).number →
    ((x.calls i).header = "" ∨ (x.calls i).header = g) ∧ (x.calls i).cleared = none
  answers : ∀ an ∈ x.answers, an.ticket.tab = a → an.ticket.number = (x.tabs a).number → an.From g

/-- The step is no transaction of a reset, brings the tab no broadcast but that of `g`, and makes it no copy
of another tab. -/
def quiet {p n m : ℕ} (g : String) (a : Fin p) (x : System p n m) : Event p n m → Bool
  | .visit _ (.reset _ _) _ => false
  | .storage b k => b != a || (x.broadcasts[k]?).all fun v => v.2 == g
  | .duplicate _ b => b != a
  | _ => true

theorem Call.next_from {p n m : ℕ} {g : String} {s : Server n m} (hs : AtRest g s) {c : Call p} {i : Fin n}
    {a : VisitStep} (h : (c.header = "" ∨ c.header = g) ∧ c.cleared = none) :
    ((c.next s.demoGeneration (s.visits i) a).header = "" ∨
      (c.next s.demoGeneration (s.visits i) a).header = g) ∧
      (c.next s.demoGeneration (s.visits i) a).cleared = none := by
  have hdrawn := hs.drawn i
  generalize s.visits i = v at hdrawn ⊢
  unfold Call.next
  split
  · exact ⟨Or.inl rfl, rfl⟩
  · exact ⟨Or.inr hs.generation, h.2⟩
  · cases hdrawn
  · exact h

theorem Call.answer_from {p : ℕ} {g : String} {c : Call p} {ok : Bool} {v : Visit} {a : VisitStep}
    {an : Answer p} (h : (c.header = "" ∨ c.header = g) ∧ c.cleared = none) (han : c.answer ok v a = some an) :
    an.From g := by
  unfold Call.answer at han
  split at han
  all_goals first
    | cases han
    | (obtain ⟨k, -, rfl⟩ := Option.map_eq_some_iff.mp han
       first | exact h | exact ⟨Or.inl rfl, rfl⟩ | exact ⟨h.1, rfl⟩)

namespace Settling

variable {p n m : ℕ} {H : Digest} {sha256 : String → String} {g : String} {a : Fin p} {x : System p n m}

/-- What a step has to leave: the invariant, and no more documents to be given up. -/
def After (g : String) (a : Fin p) (x y : System p n m) : Prop :=
  Settling g a y ∧ lost (x.tabs a) (y.tabs a) + rank g (y.tabs a) ≤ rank g (x.tabs a)

theorem After.same {y : System p n m} (hy : Settling g a y) (htabs : y.tabs a = x.tabs a) :
    After g a x y := ⟨hy, by rw [htabs, lost_self, zero_add]⟩

/-- A document does something. -/
theorem tab (h : Settling g a x) {b : Fin p} {t : Tab} (hs : Sound (x.tab b t)) (hk : Keeps (x.tabs b) t)
    (ht : b = a → Gives g (x.tabs a) t) : After g a x (x.tab b t) := by
  by_cases hb : b = a
  · subst hb
    have hself : (x.tab b t).tabs b = t := Function.update_self ..
    have hnum : ∀ k : Ticket p, k.tab = b → Issued x.tabs k → k.number = t.number →
        k.number = (x.tabs b).number := by
      rintro k rfl hi hk'
      have hle := hi.number
      rcases hk with hlt | ⟨heq, -⟩
      · omega
      · exact hk'.trans heq.symm
    refine ⟨⟨hs, h.rest, hself.symm ▸ (ht rfl).1, fun i k hc htab hk' => ?_, fun an han htab hk' => ?_⟩,
      hself.symm ▸ (ht rfl).2⟩
    · rw [hself] at hk'
      exact h.calls i k hc htab (hnum k htab (h.sound.calls i k hc) hk')
    · rw [hself] at hk'
      exact h.answers an han htab (hnum an.ticket htab (h.sound.answers an han) hk')
  · have hother : (x.tab b t).tabs a = x.tabs a := Function.update_of_ne (Ne.symm hb) ..
    refine .same ⟨hs, h.rest, hother.symm ▸ h.calm, fun i k hc htab hk' => ?_, fun an han htab hk' => ?_⟩ hother
    · exact h.calls i k hc htab (hother ▸ hk')
    · exact h.answers an han htab (hother ▸ hk')

/-- The server takes a step of request `i`. -/
theorem visit (h : Settling g a x) (i : Fin n) (s : VisitStep) (ok : Bool)
    (hs : ∀ g' fault, s ≠ .reset g' fault) : After g a x (x.visit H sha256 i s ok) := by
  refine .same ⟨h.sound.visit i s ok, h.rest.stepVisit i s hs, h.calm, fun j k hc htab hnum => ?_,
    fun an han htab hnum => ?_⟩ rfl
  · by_cases hj : j = i
    · have hcall : (x.visit H sha256 i s ok).calls j =
          (x.calls i).next x.server.demoGeneration (x.server.visits i) s := by
        rw [hj]
        exact Function.update_self ..
      rw [hcall] at hc ⊢
      exact Call.next_from h.rest (h.calls i k (Call.ticket_next hc).1 htab hnum)
    · have hcall : (x.visit H sha256 i s ok).calls j = x.calls j := Function.update_of_ne hj ..
      rw [hcall] at hc ⊢
      exact h.calls j k hc htab hnum
  · rcases List.mem_append.mp han with han | han
    · exact h.answers an han htab hnum
    · have han' := Option.mem_toList.mp han
      exact Call.answer_from (h.calls i an.ticket (Call.ticket_answer han') htab hnum) han'

theorem send (h : Settling g a x) (b : Fin p) (i : Fin n) (r : Request) :
    After g a x (x.send H sha256 b i r) := by
  have hsound : Sound (x.send H sha256 b i r) := h.sound.send b i r
  unfold System.send at hsound ⊢
  split_ifs at hsound ⊢
  · exact .same h rfl
  · refine .same ⟨hsound, h.rest.stepVisit i _ fun _ _ hr => (by cases hr), h.calm, fun j k hc htab hnum => ?_,
      h.answers⟩ rfl
    by_cases hj : j = i
    · subst hj
      simp only [Function.update_self, true_or, and_self]
    · simp only [Function.update_of_ne hj] at hc ⊢
      exact h.calls j k hc htab hnum

theorem worker (h : Settling g a x) (k : Fin m) (s : Httpapi.Demo.ThreadStep) :
    After g a x { x with server := x.server.step H sha256 (.thread k s) } :=
  .same ⟨h.sound.worker k s, h.rest.stepThread k s, h.calm, h.calls, h.answers⟩ rfl

/-- The generation is the one the database has kept. -/
theorem restart (h : Settling g a x) (controls : Controls) (id : String) :
    After g a x (x.restart controls id) := by
  refine .same ⟨h.sound.restart controls id, ⟨fun _ => rfl, ?_⟩, h.calm, fun _ _ hc => (by cases hc),
    h.answers⟩ rfl
  show x.server.db.generation.getD id = g
  rw [h.sound.fenced.saved h.rest.drawn, Option.getD_some, h.rest.generation]

theorem fewer (h : Settling g a x) {answers : List (Answer p)} (hsub : ∀ an ∈ answers, an ∈ x.answers)
    (broadcasts : List (Fin p × String)) : Settling g a { x with answers, broadcasts } :=
  ⟨h.sound.fewer hsub broadcasts, h.rest, h.calm, h.calls, fun an han => h.answers an (hsub an han)⟩

theorem deliver (h : Settling g a x) (k : ℕ) : After g a x (x.deliver k) := by
  unfold System.deliver
  split
  · exact .same h rfl
  · next an han =>
    have hless : Settling g a { x with answers := x.answers.eraseIdx k } :=
      h.fewer (fun _ => List.mem_of_mem_eraseIdx) x.broadcasts
    dsimp only
    split_ifs with hnum
    · refine hless.tab (hless.sound.tab ((h.sound.tabs _).receive an) (keeps_receive _ an))
        (keeps_receive _ an) fun htab => ?_
      have hfrom : an.From g := h.answers an (List.mem_of_getElem? han) htab (htab ▸ hnum)
      rw [htab]
      exact h.calm.receive hfrom
    · exact .same hless rfl

/-- The document of the tab has no reset to end. -/
theorem reset (h : Settling g a x) (b : Fin p) (k : ℕ) : After g a x (x.reset b k) := by
  have hsound : Sound (x.reset b k) := h.sound.reset b k
  unfold System.reset at hsound ⊢
  split
  · exact .same h rfl
  · next g' hg' =>
    have hb : b ≠ a := by
      rintro rfl
      rw [h.calm.cleared] at hg'
      cases hg'
    split_ifs
    · exact .same h rfl
    · have htab := h.tab (h.sound.tab ((h.sound.tabs b).giveUp g') (keeps_giveUp _ g')) (keeps_giveUp _ g')
        fun hba => absurd hba hb
      exact ⟨htab.1.fewer (fun _ => id) _, htab.2⟩

theorem storage (h : Settling g a x) (b : Fin p) (k : ℕ) (hq : quiet g a x (.storage b k) = true) :
    After g a x (x.storage b k) := by
  unfold System.storage
  split
  · exact .same h rfl
  · next c v hv =>
    split_ifs
    · exact .same h rfl
    · refine h.tab (h.sound.tab ((h.sound.tabs b).notified v) (keeps_notified _ v)) (keeps_notified _ v)
        fun hb => ?_
      have hvg : v = g := by simpa [quiet, hb, hv] using hq
      rw [hb, hvg]
      exact h.calm.notified

/-- **One step**: no more documents have to be given up than before. -/
theorem step (h : Settling g a x) (e : Event p n m) (hq : quiet g a x e = true) :
    After g a x (x.step H sha256 e) := by
  cases e with
  | visit i s ok =>
    refine h.visit i s ok ?_
    rintro g' fault rfl
    cases hq
  | worker k s => exact h.worker k s
  | restart controls id => exact h.restart controls id
  | send b i r => exact h.send b i r
  | deliver k => exact h.deliver k
  | lose k => exact .same (h.fewer (fun _ => List.mem_of_mem_eraseIdx) x.broadcasts) rfl
  | reset b k => exact h.reset b k
  | storage b k => exact h.storage b k hq
  | save b =>
    exact h.tab (h.sound.tab (h.sound.tabs b).save (keeps_save _)) (keeps_save _)
      fun hb => hb ▸ (hb ▸ h.calm : Calm g (x.tabs b)).save
  | load b =>
    exact h.tab (h.sound.tab (h.sound.tabs b).load (keeps_load _)) (keeps_load _)
      fun hb => hb ▸ (hb ▸ h.calm : Calm g (x.tabs b)).next
  | duplicate b c =>
    have hlt : Keeps (x.tabs c) { (x.tabs b) with number := (x.tabs c).number }.load :=
      Or.inl (Nat.lt_succ_self (x.tabs c).number)
    exact h.tab (h.sound.tab ((h.sound.tabs b).copy _).load hlt) hlt
      fun hc => absurd hc (by simpa [quiet] using hq)

end Settling

/-! ### Runs -/

section Runs

variable {p n m : ℕ} (H : Digest) (sha256 : String → String) (g : String) (a : Fin p)

/-- Every step of the run is quiet. -/
def quietly : List (Event p n m) → System p n m → Bool
  | [], _ => true
  | e :: es, x => quiet g a x e && quietly es (x.step H sha256 e)

/-- The documents of tab `a` that are given up in the run. -/
def givenUp : List (Event p n m) → System p n m → ℕ
  | [], _ => 0
  | e :: es, x => lost (x.tabs a) ((x.step H sha256 e).tabs a) + givenUp es (x.step H sha256 e)

variable {H sha256 g a}

theorem Settling.run : ∀ (es : List (Event p n m)) {x : System p n m}, Settling g a x →
    quietly H sha256 g a es x = true → Settling g a (x.run H sha256 es) ∧
      givenUp H sha256 a es x + rank g ((x.run H sha256 es).tabs a) ≤ rank g (x.tabs a)
  | [], x, h, _ => ⟨h, by rw [givenUp, zero_add]; exact le_rfl⟩
  | e :: es, x, h, hq => by
    obtain ⟨he, hes⟩ := Bool.and_eq_true_iff.mp hq
    obtain ⟨hstep, hrank⟩ := h.step (H := H) e he
    obtain ⟨hrun, hleft⟩ := Settling.run es hstep hes
    refine ⟨hrun, ?_⟩
    show lost _ _ + _ + rank g ((System.run H sha256 es _).tabs a) ≤ _
    omega

/-- A document that is loaded while the server is at rest. -/
theorem Settling.load {x : System p n m} (h : Sound x) (hrest : AtRest g x.server) :
    Settling g a (x.step H sha256 (.load a)) := by
  have hself : (x.step H sha256 (.load a)).tabs a = (x.tabs a).load := Function.update_self ..
  refine ⟨h.step (.load a), hrest, hself.symm ▸ Calm.load (h.tabs a), fun i k hc htab hnum => ?_,
    fun an han htab hnum => ?_⟩ <;> rw [hself] at hnum
  · have hle := (h.calls i k hc).number
    rw [htab, ← Nat.lt_succ_iff] at hle
    exact absurd hnum hle.ne
  · have hle := (h.answers an han).number
    rw [htab, ← Nat.lt_succ_iff] at hle
    exact absurd hnum hle.ne

end Runs

/-- **A tab gives up at most one document after the last reset.** Tab `a` loads a document in a state where no
reset is between its commit and its answer; from then on, with no further reset and no late broadcast of an
older one, at most one of its documents is given up, and none if `sessionStorage` had no generation or the
server's. A document that has read an answer with a generation is then of the server's generation. -/
theorem reloads_once (H : Digest) (sha256 : String → String) {p n m : ℕ} (publisher : Bool) (db : Db)
    (controls : Controls) (id : String) (storage : Fin p → Bool) (es later : List (Event p n m)) (a : Fin p)
    (hrest :
      let x := (System.start publisher db controls id storage : System p n m).run H sha256 es
      ∀ i, (x.server.visits i).drawn = none)
    (hquiet :
      let x := (System.start publisher db controls id storage : System p n m).run H sha256 es
      quietly H sha256 x.server.demoGeneration a later (x.step H sha256 (.load a)) = true) :
    let x := (System.start publisher db controls id storage : System p n m).run H sha256 es
    let y := x.step H sha256 (.load a)
    let t := (y.run H sha256 later).tabs a
    givenUp H sha256 a later y ≤ 1 ∧
      ((x.tabs a).generation = "" ∨ (x.tabs a).generation = x.server.demoGeneration →
        givenUp H sha256 a later y = 0) ∧
      (t.doc.invalidated = false → t.doc.seen ≠ [] → t.doc.generation = x.server.demoGeneration) := by
  intro x y t
  have hsound : Sound x := (Sound.start publisher db controls id storage).run es
  have hload : Settling x.server.demoGeneration a y := Settling.load hsound ⟨hrest, rfl⟩
  obtain ⟨hend, hcount⟩ := hload.run later hquiet
  have htab : y.tabs a = (x.tabs a).load := Function.update_self ..
  refine ⟨?_, fun hgen => ?_, fun hv hseen => ?_⟩
  · have hone : rank x.server.demoGeneration (y.tabs a) ≤ 1 := by
      unfold rank
      split_ifs <;> omega
    omega
  · have hzero : rank x.server.demoGeneration (y.tabs a) = 0 := by
      rw [htab]
      exact rank_of_current hgen
    omega
  · obtain ⟨g, hg⟩ := List.exists_mem_of_ne_nil _ hseen
    rw [(hend.calm.safe.seen hv g hg).2, hend.calm.seen g hg]

/-- A digest for the run below. -/
def eventName : Digest := ⟨fun inp => inp.campaignID, fun r => r.eventID⟩

def getSnapshot : Request := ⟨.get, "/api/v1/snapshot", "", none⟩

/-- Request `i` of tab `a` is answered, and the answer arrives. -/
def answered (a : Fin 2) (i : Fin 2) (r : Request) : List (Event 2 2 1) :=
  [.send a i r, .visit i .enter true, .visit i .check true, .visit i .leave true, .deliver 0]

/-- Tab 0 learns the generation and saves a run; tab 1 resets the demo. -/
def resetElsewhere : List (Event 2 2 1) :=
  answered 0 0 getSnapshot ++
    [.save 0, .send 1 1 ⟨.post, "/api/demo/reset", "", some true⟩, .visit 1 .enter true, .visit 1 .check true,
      .visit 1 .lockOperation true, .visit 1 (.reset "g1" none) true, .visit 1 .clear true,
      .visit 1 .clear true, .visit 1 .clear true, .visit 1 .clear true, .visit 1 .clear true,
      .visit 1 .save true, .visit 1 .leave true, .deliver 0]

/-- Tab 0 sends a receipt with the generation it has found, loads the page again and reads the snapshot. Then
it hears of the reset. -/
def refusedOnce : List (Event 2 2 1) :=
  answered 0 0 ⟨.post, "/api/v1/receipts", "", none⟩ ++ [.load 0] ++ answered 0 0 getSnapshot ++
    [.reset 1 0, .storage 0 0]

/-- The document with the saved run is given up, and the next one is of the new generation. -/
theorem reloads_once_refusedOnce :
    let x := (System.start false Db.empty ⟨false, 0, false, 0, none⟩ "g0" fun _ => true : System 2 2 1).run
      eventName id resetElsewhere
    let y := x.step eventName id (.load 0)
    let z := y.run eventName id refusedOnce
    (x.tabs 0).run = some "g0" ∧ (y.tabs 0).doc.resumed = some "g0" ∧ givenUp eventName id 0 refusedOnce y = 1 ∧
      (z.tabs 0).run = none ∧ (z.tabs 0).doc.generation = "g1" := by
  refine ⟨by decide +kernel, by decide +kernel, le_antisymm ?_ (by decide +kernel), by decide +kernel, ?_⟩
  · exact (reloads_once eventName id false Db.empty _ "g0" _ resetElsewhere refusedOnce 0 (by decide +kernel)
      (by decide +kernel)).1
  · exact (reloads_once eventName id false Db.empty ⟨false, 0, false, 0, none⟩ "g0" (fun _ => true)
      resetElsewhere refusedOnce 0 (by decide +kernel) (by decide +kernel)).2.2 (by decide +kernel)
      (by decide +kernel)

end Afterglow.Console.Session
