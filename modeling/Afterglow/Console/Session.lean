import Afterglow.Httpapi.Fence

/-! # The demo's session in the browser

`demo-reset.js` on every page of every tab, over the server process of `Httpapi.Demo`. A document keeps one
generation: that of `sessionStorage` when it was loaded or, where there was none, that of the first answer
that has one. It puts it on every request, it is given up (`reload`) when an answer or another tab names
another one, and what it saves of a run then goes from `sessionStorage` with it.

Documents, requests, resets and the worker move in any order, answers are lost or come late, the browser
reloads and duplicates tabs, and the server restarts. What always holds (`Safe`): a request of a document
that has a generation acts on the data of that generation only, the answers its page has read are of that
generation, and saved runs stand beside the generation they were made in. Once resets have stopped, a
document that is loaded is given up at most once more (`reloads_once`). -/

namespace Afterglow.Console.Session

open Afterglow.Core.Store (Digest)
open Afterglow.Localdemo.Reset (Db)
open Afterglow.Httpapi.Demo (Request Visit VisitStep Controls Server)
open Afterglow.Httpapi.Fence

/-! ### Documents and tabs -/

/-- `demoSession` of a document; an empty `generation` is `null`. `cleared` holds the generations of the
resets whose answer it has read. `resumed` is the generation of the run it found in `sessionStorage`,
`seen` are those of the answers `send` has returned. -/
structure Doc where
  generation : String
  invalidated : Bool
  cleared : List String
  resumed : Option String
  seen : List String
  deriving DecidableEq, Repr

/-- A tab: whether its `sessionStorage` can be used, the keys of `demo-reset.js` in there (of a saved run
only the generation its document had), and the document it shows, which is its `number`-th. -/
structure Tab where
  storage : Bool
  generation : String
  run : Option String
  number : ℕ
  doc : Doc
  deriving DecidableEq, Repr

/-- Whose a request is: the document, whether it is the reset of the dialog, and what the document knew. -/
structure Ticket (p : ℕ) where
  tab : Fin p
  number : ℕ
  resetting : Bool
  generation : String
  resumed : Option String
  deriving DecidableEq, Repr

/-- What `send` reads of an answer: `header` is `X-Demo-Generation`, empty if there is none, `ok` a status
of 200 to 299 and `cleared` the body of a reset. -/
structure Answer (p : ℕ) where
  ticket : Ticket p
  header : String
  ok : Bool
  cleared : Option String
  deriving DecidableEq, Repr

namespace Tab

/-- A document is loaded. -/
def load (t : Tab) : Tab :=
  { t with number := t.number + 1, doc := ⟨t.generation, false, [], t.run, []⟩ }

def remember (t : Tab) (next : String) : Tab :=
  { t with
    generation := if t.storage then next else t.generation
    doc := { t.doc with generation := next } }

/-- `clear`, and the document is given up. -/
def giveUp (t : Tab) (next : String) : Tab :=
  let u := t.remember next
  { u with run := if t.storage then none else t.run, doc := { u.doc with invalidated := true } }

def reload (t : Tab) (next : String) : Tab := if t.doc.invalidated then t else t.giveUp next

def see (t : Tab) (g : String) : Tab := { t with doc := { t.doc with seen := g :: t.doc.seen } }

/-- `send`, from the answer on, and the handler of the dialog up to `demoSession.reset`. -/
def receive (t : Tab) (a : Answer p) : Tab :=
  if t.doc.invalidated then t
  else if a.header != "" && (!a.ticket.resetting || !a.ok) then
    if t.doc.generation != "" && t.doc.generation != a.header then t.giveUp a.header
    else (t.remember a.header).see a.header
  else { t with doc := { t.doc with cleared := a.cleared.toList.filter (· != "") ++ t.doc.cleared } }

/-- The `storage` event: another tab has been reset to `v`. -/
def notified (t : Tab) (v : String) : Tab :=
  if v != "" && t.doc.generation != "" && v != t.doc.generation then t.reload v else t

/-- `save` and `remember` of the pages. -/
def save (t : Tab) : Tab :=
  if t.doc.invalidated || !t.storage then t else { t with run := some t.doc.generation }

end Tab

/-! ### The system -/

/-- What the middleware holds of a request: whose it is, the header written so far and the body of a reset. -/
structure Call (p : ℕ) where
  ticket : Option (Ticket p)
  header : String
  cleared : Option String
  deriving DecidableEq, Repr

namespace Call

/-- A step of a request that is at `v`, on a server of generation `g`. The header is set behind the gate,
and again when a reset has returned. -/
def next (c : Call p) (g : String) : Visit → VisitStep → Call p
  | .absent, .arrive _ => ⟨none, "", none⟩
  | .gated _, .check => { c with header := g }
  | .saving g', .save => { c with header := g', cleared := some g' }
  | _, _ => c

/-- The answer the step sends; a handler may answer any status, that of the reset before it is confirmed
only problems. -/
def answer (c : Call p) (ok : Bool) : Visit → VisitStep → Option (Answer p)
  | .arrived _, .turnAway => c.ticket.map (⟨·, "", false, none⟩)
  | .outside _, .leave => c.ticket.map (⟨·, "", ok, none⟩)
  | .handling r, .leave => c.ticket.map (⟨·, c.header, ok && !r.isReset, none⟩)
  | .replying _, .leave => c.ticket.map (⟨·, c.header, false, none⟩)
  | .returning _, .leave => c.ticket.map (⟨·, c.header, c.cleared.isSome, c.cleared⟩)
  | _, _ => none

end Call

/-- The server, its requests, the answers on their way, the tabs and what they wrote under the key of the
broadcast. -/
structure System (p n m : ℕ) where
  server : Server n m
  calls : Fin n → Call p
  answers : List (Answer p)
  tabs : Fin p → Tab
  broadcasts : List (Fin p × String)

/-- The steps. `visit` and `worker` are the server's, a `visit` that arrives is of a client without
`demo-reset.js`, and `ok` is the status of a handler's answer. -/
inductive Event (p n m : ℕ)
  | visit (i : Fin n) (a : VisitStep) (ok : Bool)
  | worker (k : Fin m) (a : Httpapi.Demo.ThreadStep)
  | restart (controls : Controls) (id : String)
  | send (a : Fin p) (i : Fin n) (r : Request)
  | deliver (k : ℕ)
  | lose (k : ℕ)
  | reset (a : Fin p) (k : ℕ)
  | storage (a : Fin p) (k : ℕ)
  | save (a : Fin p)
  | load (a : Fin p)
  | duplicate (a b : Fin p)

namespace System

variable {p n m : ℕ} (H : Digest) (sha256 : String → String)

/-- The document of a tab does something. -/
def tab (x : System p n m) (a : Fin p) (t : Tab) : System p n m :=
  { x with tabs := Function.update x.tabs a t }

/-- A step of request `i`. -/
def visit (x : System p n m) (i : Fin n) (a : VisitStep) (ok : Bool) : System p n m :=
  { x with
    server := x.server.step H sha256 (.visit i a)
    calls := Function.update x.calls i ((x.calls i).next x.server.demoGeneration (x.server.visits i) a)
    answers := x.answers ++ ((x.calls i).answer ok (x.server.visits i) a).toList }

/-- The ticket of a request the document of tab `a` sends. -/
def ticket (x : System p n m) (a : Fin p) (r : Request) : Ticket p :=
  ⟨a, (x.tabs a).number, r.isReset, (x.tabs a).doc.generation, (x.tabs a).doc.resumed⟩

/-- `send`, up to `fetch`: request `i` arrives with the header. -/
def send (x : System p n m) (a : Fin p) (i : Fin n) (r : Request) : System p n m :=
  if (x.tabs a).doc.invalidated || x.server.visits i != .absent then x
  else
    { x with
      server := x.server.step H sha256 (.visit i (.arrive { r with generation := (x.tabs a).doc.generation }))
      calls := Function.update x.calls i ⟨some (x.ticket a r), "", none⟩ }

/-- An answer arrives, if its document is still there. -/
def deliver (x : System p n m) (k : ℕ) : System p n m :=
  match x.answers[k]? with
  | none => x
  | some an =>
    let y := { x with answers := x.answers.eraseIdx k }
    if an.ticket.number = (x.tabs an.ticket.tab).number then
      y.tab an.ticket.tab ((x.tabs an.ticket.tab).receive an)
    else y

/-- `demoSession.reset`, which is heard in the other tabs. -/
def reset (x : System p n m) (a : Fin p) (k : ℕ) : System p n m :=
  match (x.tabs a).doc.cleared[k]? with
  | none => x
  | some g =>
    if (x.tabs a).doc.invalidated then x
    else { x.tab a ((x.tabs a).giveUp g) with broadcasts := x.broadcasts ++ [(a, g)] }

/-- A `storage` event comes to a document of another tab than the one that wrote. -/
def storage (x : System p n m) (a : Fin p) (k : ℕ) : System p n m :=
  match x.broadcasts[k]? with
  | none => x
  | some (b, v) => if b = a then x else x.tab a ((x.tabs a).notified v)

/-- The process ends, and `main` starts again on its database. -/
def restart (x : System p n m) (controls : Controls) (id : String) : System p n m :=
  { x with
    server := Server.start x.server.publisher x.server.db controls id
    calls := fun _ => ⟨none, "", none⟩ }

/-- **One step.** A step its party is not at does nothing. -/
def step (x : System p n m) : Event p n m → System p n m
  | .visit i a ok => x.visit H sha256 i a ok
  | .worker k a => { x with server := x.server.step H sha256 (.thread k a) }
  | .restart controls id => x.restart controls id
  | .send a i r => x.send H sha256 a i r
  | .deliver k => x.deliver k
  | .lose k => { x with answers := x.answers.eraseIdx k }
  | .reset a k => x.reset a k
  | .storage a k => x.storage a k
  | .save a => x.tab a (x.tabs a).save
  | .load a => x.tab a (x.tabs a).load
  | .duplicate a b => x.tab b { (x.tabs a) with number := (x.tabs b).number }.load

/-- The system after a list of steps. -/
def run (es : List (Event p n m)) (x : System p n m) : System p n m := es.foldl (step H sha256) x

/-- The server has started and every tab is new; `storage` says which can use `sessionStorage`. -/
def start (publisher : Bool) (db : Db) (controls : Controls) (id : String) (storage : Fin p → Bool) :
    System p n m :=
  { server := Server.start publisher db controls id
    calls := fun _ => ⟨none, "", none⟩
    answers := []
    tabs := fun a => Tab.load ⟨storage a, "", none, 0, ⟨"", false, [], none, []⟩⟩
    broadcasts := [] }

end System

/-! ### One tab -/

/-- What always holds of a tab. -/
structure TabSafe (t : Tab) : Prop where
  saved : ∀ g, t.run = some g → g ≠ "" → t.generation = g
  stored : t.storage = true → t.doc.generation = t.generation
  unstored : t.storage = false → t.generation = "" ∧ t.run = none
  resumed : t.doc.invalidated = false → ∀ g, t.doc.resumed = some g → g ≠ "" → t.doc.generation = g
  seen : t.doc.invalidated = false → ∀ g ∈ t.doc.seen, g ≠ "" ∧ t.doc.generation = g

/-- What a step may do to a tab: load the next document, or leave the one that is there its generation. -/
def Keeps (t u : Tab) : Prop :=
  t.number < u.number ∨ t.number = u.number ∧ (u.doc.invalidated = false →
    t.doc.invalidated = false ∧ (t.doc.generation ≠ "" → u.doc.generation = t.doc.generation))

theorem Keeps.refl (t : Tab) : Keeps t t := Or.inr ⟨rfl, fun h => ⟨h, fun _ => rfl⟩⟩

theorem Keeps.trans {t u v : Tab} : Keeps t u → Keeps u v → Keeps t v := by
  rintro (h | ⟨h, hd⟩) (h' | ⟨h', hd'⟩)
  · exact Or.inl (h.trans h')
  · exact Or.inl (h'.symm ▸ h)
  · exact Or.inl (h ▸ h')
  · refine Or.inr ⟨h.trans h', fun hv => ?_⟩
    obtain ⟨hu, hgu⟩ := hd' hv
    obtain ⟨ht, hgt⟩ := hd hu
    refine ⟨ht, fun hne => ?_⟩
    rw [hgu ((hgt hne).symm ▸ hne), hgt hne]

namespace TabSafe

variable {t : Tab}

theorem load (h : TabSafe t) : TabSafe t.load :=
  ⟨h.saved, fun _ => rfl, h.unstored, fun _ => h.saved, fun _ _ hg => by cases hg⟩

theorem unstored_remember (h : TabSafe t) (next : String) (hst : t.storage = false) :
    (t.remember next).generation = "" ∧ t.run = none := by
  obtain ⟨hgen, hrun⟩ := h.unstored hst
  exact ⟨(if_neg (Bool.eq_false_iff.mp hst)).trans hgen, hrun⟩

/-- The first answer, or one of the generation that is known. -/
theorem remember (h : TabSafe t) {next : String} (hnext : t.doc.generation = "" ∨ t.doc.generation = next) :
    TabSafe (t.remember next) := by
  have hsame : ∀ g, g ≠ "" → t.doc.generation = g → next = g := by
    rintro g hg rfl
    exact (hnext.resolve_left hg).symm
  refine ⟨fun g hrun hg => ?_, fun hst => ?_, h.unstored_remember next, fun hv g hr hg => ?_,
    fun hv g hs => ?_⟩
  · cases hst : t.storage with
    | false => exact absurd ((h.unstored hst).2.symm.trans hrun) (Option.some_ne_none g).symm
    | true =>
      show (if t.storage then next else t.generation) = g
      rw [if_pos hst]
      exact hsame g hg ((h.stored hst).trans (h.saved g hrun hg))
  · exact (if_pos hst).symm
  · exact hsame g hg (h.resumed hv g hr hg)
  · obtain ⟨hg, hgen⟩ := h.seen hv g hs
    exact ⟨hg, hsame g hg hgen⟩

theorem giveUp (h : TabSafe t) (next : String) : TabSafe (t.giveUp next) := by
  refine ⟨fun g hrun _ => ?_, fun hst => (if_pos hst).symm, fun hst => ?_,
    fun hv => absurd hv.symm Bool.false_ne_true, fun hv => absurd hv.symm Bool.false_ne_true⟩
  · have hrun' : (if t.storage then none else t.run) = some g := hrun
    split_ifs at hrun' with hst
    rw [(h.unstored (Bool.eq_false_iff.mpr hst)).2] at hrun'
    cases hrun'
  · obtain ⟨hgen, hrun⟩ := h.unstored_remember next hst
    exact ⟨hgen, (if_neg (Bool.eq_false_iff.mp hst)).trans hrun⟩

theorem reload (h : TabSafe t) (next : String) : TabSafe (t.reload next) := by
  unfold Tab.reload
  split_ifs
  · exact h
  · exact h.giveUp next

theorem receive {p : ℕ} (h : TabSafe t) (a : Answer p) : TabSafe (t.receive a) := by
  unfold Tab.receive
  split_ifs with hv hhead hother
  · exact h
  · exact h.giveUp _
  · obtain ⟨hne, -⟩ : a.header ≠ "" ∧ _ := by simpa using hhead
    have hnext : t.doc.generation = "" ∨ t.doc.generation = a.header := by
      by_contra hno
      rw [not_or] at hno
      exact hother (by simp [hno])
    have h' := h.remember hnext
    refine ⟨h'.saved, h'.stored, h'.unstored, h'.resumed, fun hv' g hs => ?_⟩
    rcases List.mem_cons.mp hs with rfl | hs
    · exact ⟨hne, rfl⟩
    · exact h'.seen hv' g hs
  · exact ⟨h.saved, h.stored, h.unstored, h.resumed, h.seen⟩

theorem notified (h : TabSafe t) (v : String) : TabSafe (t.notified v) := by
  unfold Tab.notified
  split_ifs
  · exact h.reload v
  · exact h

theorem save (h : TabSafe t) : TabSafe t.save := by
  unfold Tab.save
  split_ifs with hno
  · exact h
  · have hst : t.storage = true := by
      cases hst : t.storage with
      | true => rfl
      | false => exact absurd (by simp [hst]) hno
    refine ⟨fun g hrun _ => ?_, h.stored, fun hf => ?_, h.resumed, h.seen⟩
    · cases hrun
      exact (h.stored hst).symm
    · exact absurd (hst.symm.trans hf) Bool.false_ne_true.symm

/-- A copy of a tab's `sessionStorage`. -/
theorem copy (h : TabSafe t) (number : ℕ) : TabSafe { t with number } :=
  ⟨h.saved, h.stored, h.unstored, h.resumed, h.seen⟩

end TabSafe

section Keeps

variable (t : Tab)

theorem keeps_load : Keeps t t.load := Or.inl (Nat.lt_succ_self t.number)

theorem keeps_giveUp (next : String) : Keeps t (t.giveUp next) := Or.inr ⟨rfl, fun h => by cases h⟩

theorem keeps_receive {p : ℕ} (a : Answer p) : Keeps t (t.receive a) := by
  unfold Tab.receive
  split_ifs with hv hhead hother
  · exact Keeps.refl t
  · exact keeps_giveUp t _
  · refine Or.inr ⟨rfl, fun h => ⟨h, fun hne => ?_⟩⟩
    by_contra hdiff
    exact hother (by simpa [hne] using fun he => hdiff he.symm)
  · exact Or.inr ⟨rfl, fun h => ⟨h, fun _ => rfl⟩⟩

theorem keeps_notified (v : String) : Keeps t (t.notified v) := by
  unfold Tab.notified Tab.reload
  split_ifs
  · exact Keeps.refl t
  · exact keeps_giveUp t _
  · exact Keeps.refl t

theorem keeps_save : Keeps t t.save := by
  unfold Tab.save
  split_ifs
  · exact Keeps.refl t
  · exact Or.inr ⟨rfl, fun h => ⟨h, fun _ => rfl⟩⟩

end Keeps

/-! ### All parties -/

/-- What always holds of the ticket of a request. -/
structure Issued {p : ℕ} (tabs : Fin p → Tab) (k : Ticket p) : Prop where
  number : k.number ≤ (tabs k.tab).number
  resumed : ∀ g, k.resumed = some g → g ≠ "" → k.generation = g
  own : k.number = (tabs k.tab).number → (tabs k.tab).doc.invalidated = false → k.generation ≠ "" →
    (tabs k.tab).doc.generation = k.generation

theorem Issued.update {p : ℕ} {tabs : Fin p → Tab} {k : Ticket p} (h : Issued tabs k) {a : Fin p} {t : Tab}
    (hk : Keeps (tabs a) t) : Issued (Function.update tabs a t) k := by
  by_cases ha : k.tab = a
  · subst ha
    refine ⟨?_, h.resumed, ?_⟩
    · rw [Function.update_self]
      rcases hk with hlt | ⟨heq, -⟩
      · exact h.number.trans hlt.le
      · exact heq ▸ h.number
    · rw [Function.update_self]
      intro hnum hv hg
      rcases hk with hlt | ⟨heq, hdoc⟩
      · exact absurd h.number (by omega)
      · obtain ⟨hv₀, hkeep⟩ := hdoc hv
        have hown := h.own (hnum.trans heq.symm) hv₀ hg
        rw [hkeep (hown.symm ▸ hg), hown]
  · refine ⟨?_, h.resumed, ?_⟩ <;> rw [Function.update_of_ne ha]
    · exact h.number
    · exact h.own

/-- The request of a visit, up to its answer. -/
def requestOf : Visit → Option Request
  | .arrived r => some r
  | .outside r => some r
  | .gated r => some r
  | .handling r => some r
  | .resetting r => some r
  | .refused r => some r
  | .replying r => some r
  | _ => none

theorem requestOf_of_admitted {v : Visit} {r : Request} (h : v.admitted = some r) : requestOf v = some r := by
  cases v <;> first | exact h | cases h

section Server

variable {n m : ℕ} {H : Digest} {sha256 : String → String} (x : Server n m)

/-- The worker leaves the requests where they are. -/
theorem visits_stepThread (k : Fin m) (a : Httpapi.Demo.ThreadStep) :
    (x.stepThread H k a).visits = x.visits := by
  unfold Server.stepThread
  split <;> (try split_ifs) <;> first | rfl | (dsimp only; split <;> rfl)

theorem requestOf_endReset (i : Fin n) (r' : Request) {r : Request} :
    ∀ out, requestOf ((x.endReset i r' out).visits i) = some r → some r' = some r
  | (.error _, _), h => by
    have hback : ∀ y : Server n m, (y.visit i (.refused r')).visits i = .refused r' :=
      fun y => Server.visit_self y i _
    exact (congrArg requestOf (hback _)).symm.trans h
  | (.ok g, _), h => by
    have hgone : ∀ y : Server n m, (y.visit i (.clearing g .failNext)).visits i = .clearing g .failNext :=
      fun y => Server.visit_self y i _
    cases (congrArg requestOf (hgone _)).symm.trans h

/-- A visit is about one request. -/
theorem requestOf_stepVisit (i : Fin n) (a : VisitStep) {r : Request}
    (h : requestOf ((x.stepVisit H sha256 i a).visits i) = some r) :
    requestOf (x.visits i) = some r ∨ x.visits i = .absent ∧ a = .arrive r := by
  unfold Server.stepVisit at h
  split at h
  · next r' hv =>
    rw [Server.visit_self] at h
    cases h
    exact Or.inr ⟨hv, rfl⟩
  · rw [Server.visit_self] at h
    cases h
  · next r' hv =>
    rw [hv]
    split_ifs at h
    · rw [Server.visit_self] at h
      exact Or.inl h
    · rw [Server.visit_self] at h
      exact Or.inl h
    · rw [hv] at h
      exact Or.inl h
  · next r' hv =>
    rw [hv]
    split_ifs at h <;> rw [Server.visit_self] at h
    · cases h
    · exact Or.inl h
  · split_ifs at h
    · rw [visits_effect] at h
      exact Or.inl h
    · exact Or.inl h
  · next r' hv =>
    split_ifs at h
    · rw [Server.visit_self] at h
      rw [hv]
      exact Or.inl h
    · exact Or.inl h
  · next r' g fault hv =>
    rw [hv]
    split_ifs at h
    · rw [Server.visit_self] at h
      exact Or.inl h
    · exact Or.inl (requestOf_endReset x i r' _ h)
  · next r' hv =>
    rw [Server.visit_self] at h
    rw [hv]
    exact Or.inl h
  · next g next hv =>
    cases next <;>
    · have h' := h
      simp only [Server.clear, Server.visit_self] at h'
      cases h'
  all_goals first
    | exact Or.inl h
    | (rw [Server.visit_self] at h; cases h)

end Server

/-- **The invariant**: the server is fenced, and a request carries the generation of its ticket. -/
structure Sound {p n m : ℕ} (x : System p n m) : Prop where
  fenced : Fenced x.server
  tabs : ∀ a, TabSafe (x.tabs a)
  calls : ∀ i k, (x.calls i).ticket = some k → Issued x.tabs k
  header : ∀ i k r, (x.calls i).ticket = some k → requestOf (x.server.visits i) = some r →
    r.generation = k.generation
  answers : ∀ an ∈ x.answers, Issued x.tabs an.ticket

theorem Call.ticket_next {p : ℕ} {c : Call p} {g : String} {v : Visit} {a : VisitStep} {k : Ticket p}
    (h : (c.next g v a).ticket = some k) :
    c.ticket = some k ∧ ∀ r, ¬ (v = .absent ∧ a = .arrive r) := by
  unfold Call.next at h
  split at h
  · cases h
  · exact ⟨h, fun r hr => by cases hr.1⟩
  · exact ⟨h, fun r hr => by cases hr.1⟩
  · next hno _ _ => exact ⟨h, fun r hr => hno r hr.1 hr.2⟩

theorem Call.ticket_answer {p : ℕ} {c : Call p} {ok : Bool} {v : Visit} {a : VisitStep} {an : Answer p}
    (h : c.answer ok v a = some an) : c.ticket = some an.ticket := by
  unfold Call.answer at h
  split at h
  all_goals first
    | cases h
    | (obtain ⟨k, hk, rfl⟩ := Option.map_eq_some_iff.mp h; exact hk)

namespace Sound

variable {p n m : ℕ} {H : Digest} {sha256 : String → String} {x : System p n m}

/-- A document does something. -/
theorem tab (h : Sound x) {a : Fin p} {t : Tab} (ht : TabSafe t) (hk : Keeps (x.tabs a) t) :
    Sound (x.tab a t) := by
  refine ⟨h.fenced, fun b => ?_, fun i k hc => (h.calls i k hc).update hk, h.header,
    fun an ha => (h.answers an ha).update hk⟩
  show TabSafe (Function.update x.tabs a t b)
  by_cases hb : b = a
  · rw [hb, Function.update_self]
    exact ht
  · rw [Function.update_of_ne hb]
    exact h.tabs b

/-- Fewer answers, and other broadcasts. -/
theorem fewer (h : Sound x) {answers : List (Answer p)} (hsub : ∀ an ∈ answers, an ∈ x.answers)
    (broadcasts : List (Fin p × String)) : Sound { x with answers, broadcasts } :=
  ⟨h.fenced, h.tabs, h.calls, h.header, fun an ha => h.answers an (hsub an ha)⟩

/-- The server takes a step of request `i`, of which it then holds `c`. -/
theorem serve (h : Sound x) {i : Fin n} {a : VisitStep} {c : Call p} {answers : List (Answer p)}
    (hc : ∀ k, c.ticket = some k → Issued x.tabs k ∧
      ∀ r, requestOf ((x.server.step H sha256 (.visit i a)).visits i) = some r → r.generation = k.generation)
    (ha : ∀ an ∈ answers, Issued x.tabs an.ticket) :
    Sound { x with
      server := x.server.step H sha256 (.visit i a), calls := Function.update x.calls i c, answers } := by
  refine ⟨h.fenced.step (.visit i a), h.tabs, fun j k hj => ?_, fun j k r hj hr => ?_, ha⟩
  · by_cases hji : j = i
    · exact (hc k (by simpa only [hji, Function.update_self] using hj)).1
    · exact h.calls j k (by simpa only [Function.update_of_ne hji] using hj)
  · by_cases hji : j = i
    · exact (hc k (by simpa only [hji, Function.update_self] using hj)).2 r (hji ▸ hr)
    · have hsame : (x.server.step H sha256 (.visit i a)).visits j = x.server.visits j :=
        visits_stepVisit hji a
      exact h.header j k r (by simpa only [Function.update_of_ne hji] using hj) (hsame ▸ hr)

theorem visit (h : Sound x) (i : Fin n) (a : VisitStep) (ok : Bool) : Sound (x.visit H sha256 i a ok) := by
  refine h.serve (fun k hk => ?_) fun an ha => ?_
  · obtain ⟨hold, hno⟩ := Call.ticket_next hk
    exact ⟨h.calls i k hold, fun r hr =>
      h.header i k r hold ((requestOf_stepVisit x.server i a hr).resolve_right (hno r))⟩
  · rcases List.mem_append.mp ha with ha | ha
    · exact h.answers an ha
    · exact h.calls i an.ticket (Call.ticket_answer (Option.mem_toList.mp ha))

theorem worker (h : Sound x) (k : Fin m) (a : Httpapi.Demo.ThreadStep) :
    Sound { x with server := x.server.step H sha256 (.thread k a) } := by
  have hfenced : Fenced (x.server.step H sha256 (.thread k a)) := h.fenced.step _
  refine ⟨hfenced, h.tabs, h.calls, fun i k' r hc hr => h.header i k' r hc ?_, h.answers⟩
  have hsame : (x.server.step H sha256 (.thread k a)).visits = x.server.visits := visits_stepThread x.server k a
  exact hsame ▸ hr

theorem restart (h : Sound x) (controls : Controls) (id : String) : Sound (x.restart controls id) :=
  ⟨Fenced.start _ _ _ _, h.tabs, fun _ _ hc => (by cases hc), fun _ _ _ hc => (by cases hc), h.answers⟩

theorem send (h : Sound x) (a : Fin p) (i : Fin n) (r : Request) : Sound (x.send H sha256 a i r) := by
  unfold System.send
  split_ifs with hno
  · exact h
  obtain ⟨hv, habs⟩ : (x.tabs a).doc.invalidated = false ∧ x.server.visits i = .absent := by
    simpa using hno
  refine h.serve (fun k hk => ?_) h.answers
  cases hk
  refine ⟨⟨le_rfl, (h.tabs a).resumed hv, fun _ _ _ => rfl⟩, fun r' hr => ?_⟩
  rcases requestOf_stepVisit x.server i _ hr with hr | ⟨-, hr⟩
  · rw [habs] at hr
    cases hr
  · cases hr
    rfl

theorem deliver (h : Sound x) (k : ℕ) : Sound (x.deliver k) := by
  unfold System.deliver
  split
  · exact h
  · next an han =>
    have hless : Sound { x with answers := x.answers.eraseIdx k } :=
      h.fewer (fun _ => List.mem_of_mem_eraseIdx) x.broadcasts
    dsimp only
    split_ifs
    · exact hless.tab ((h.tabs _).receive an) (keeps_receive _ an)
    · exact hless

theorem reset (h : Sound x) (a : Fin p) (k : ℕ) : Sound (x.reset a k) := by
  unfold System.reset
  split
  · exact h
  · split_ifs
    · exact h
    · next g _ _ => exact (h.tab ((h.tabs a).giveUp g) (keeps_giveUp _ g)).fewer (fun _ => id) _

theorem storage (h : Sound x) (a : Fin p) (k : ℕ) : Sound (x.storage a k) := by
  unfold System.storage
  split
  · exact h
  · next b v _ =>
    split_ifs
    · exact h
    · exact h.tab ((h.tabs a).notified v) (keeps_notified _ v)

/-- **One step.** -/
theorem step (h : Sound x) (e : Event p n m) : Sound (x.step H sha256 e) := by
  cases e with
  | visit i a ok => exact h.visit i a ok
  | worker k a => exact h.worker k a
  | restart controls id => exact h.restart controls id
  | send a i r => exact h.send a i r
  | deliver k => exact h.deliver k
  | lose k => exact h.fewer (fun _ => List.mem_of_mem_eraseIdx) x.broadcasts
  | reset a k => exact h.reset a k
  | storage a k => exact h.storage a k
  | save a => exact h.tab (h.tabs a).save (keeps_save _)
  | load a => exact h.tab (h.tabs a).load (keeps_load _)
  | duplicate a b =>
    exact h.tab ((h.tabs a).copy _).load (Or.inl (Nat.lt_succ_self (x.tabs b).number))

theorem run : ∀ (es : List (Event p n m)) {x : System p n m}, Sound x → Sound (x.run H sha256 es)
  | [], _, h => h
  | e :: es, _, h => run es (h.step e)

theorem start (publisher : Bool) (db : Db) (controls : Controls) (id : String) (storage : Fin p → Bool) :
    Sound (System.start publisher db controls id storage : System p n m) :=
  ⟨Fenced.start _ _ _ _,
    fun _ => ⟨fun _ hr => (by cases hr), fun _ => rfl, fun _ => ⟨rfl, rfl⟩, fun _ _ hr => (by cases hr),
      fun _ _ hs => (by cases hs)⟩,
    fun _ _ hc => (by cases hc), fun _ _ _ hc => (by cases hc), fun _ ha => (by cases ha)⟩

end Sound

theorem keeps_step {p n m : ℕ} {H : Digest} {sha256 : String → String} (x : System p n m)
    (e : Event p n m) (b : Fin p) : Keeps (x.tabs b) ((x.step H sha256 e).tabs b) := by
  have htab : ∀ (y : System p n m) (a : Fin p) (t : Tab), Keeps (y.tabs a) t → y.tabs = x.tabs →
      Keeps (x.tabs b) ((y.tab a t).tabs b) := by
    intro y a t hk hy
    show Keeps _ (Function.update y.tabs a t b)
    by_cases hb : b = a
    · rw [hb, Function.update_self, ← hy]
      exact hk
    · rw [Function.update_of_ne hb, hy]
      exact Keeps.refl _
  cases e with
  | visit i a ok => exact Keeps.refl _
  | worker k a => exact Keeps.refl _
  | restart controls id => exact Keeps.refl _
  | send a i r =>
    show Keeps _ ((x.send H sha256 a i r).tabs b)
    unfold System.send
    split_ifs <;> exact Keeps.refl _
  | deliver k =>
    show Keeps _ ((x.deliver k).tabs b)
    unfold System.deliver
    split
    · exact Keeps.refl _
    · next an _ =>
      dsimp only
      split_ifs
      · exact htab _ _ _ (keeps_receive _ an) rfl
      · exact Keeps.refl _
  | lose k => exact Keeps.refl _
  | reset a k =>
    show Keeps _ ((x.reset a k).tabs b)
    unfold System.reset
    split
    · exact Keeps.refl _
    · next g _ =>
      split_ifs
      · exact Keeps.refl _
      · exact htab x a _ (keeps_giveUp _ g) rfl
  | storage a k =>
    show Keeps _ ((x.storage a k).tabs b)
    unfold System.storage
    split
    · exact Keeps.refl _
    · next v _ =>
      split_ifs
      · exact Keeps.refl _
      · exact htab x a _ (keeps_notified _ v) rfl
  | save a => exact htab x a _ (keeps_save _) rfl
  | load a => exact htab x a _ (keeps_load _) rfl
  | duplicate a c => exact htab x c _ (Or.inl (Nat.lt_succ_self (x.tabs c).number)) rfl

theorem keeps_run {p n m : ℕ} {H : Digest} {sha256 : String → String} (b : Fin p) :
    ∀ (es : List (Event p n m)) (x : System p n m), Keeps (x.tabs b) ((x.run H sha256 es).tabs b)
  | [], _ => Keeps.refl _
  | e :: es, x => (keeps_step x e b).trans (keeps_run b es (x.step H sha256 e))

/-- **What the session is for.** In its handler, a mutating request of a document that has a generation, or
that has found a saved run of one, is on the data of that generation; a page has read answers of one
generation only; and a saved run stands beside its own generation. -/
structure Safe {p n m : ℕ} (x : System p n m) : Prop where
  requests : ∀ i k r, (x.calls i).ticket = some k → (x.server.visits i).admitted = some r →
    r.mutating = true → ∀ g, g ≠ "" → (k.generation = g ∨ k.resumed = some g) →
    x.server.db.generation = some g
  answers : ∀ a, (x.tabs a).doc.invalidated = false → ∀ g ∈ (x.tabs a).doc.seen,
    (x.tabs a).doc.generation = g
  runs : ∀ a g, (x.tabs a).run = some g → g ≠ "" → (x.tabs a).generation = g

theorem Sound.safe {p n m : ℕ} {x : System p n m} (h : Sound x) : Safe x := by
  refine ⟨fun i k r hk hr hm g hg hknown => ?_, fun a hv g hs => ((h.tabs a).seen hv g hs).2,
    fun a => (h.tabs a).saved⟩
  have hgen : k.generation = g := hknown.elim id fun hres => (h.calls i k hk).resumed g hres hg
  have hhead : r.generation = g := (h.header i k r hk (requestOf_of_admitted hr)).trans hgen
  rw [← hhead]
  exact h.fenced.admitted_generation hr hm (hhead.symm ▸ hg)

/-- **No document writes into another generation's data**, in every state of every run; and a document that
has a generation keeps it until it is given up. -/
theorem sessions_safe (H : Digest) (sha256 : String → String) {p n m : ℕ} (publisher : Bool) (db : Db)
    (controls : Controls) (id : String) (storage : Fin p → Bool) (es later : List (Event p n m)) :
    let x := (System.start publisher db controls id storage : System p n m).run H sha256 es
    let y := x.run H sha256 later
    Safe x ∧ ∀ a, (y.tabs a).number = (x.tabs a).number → (y.tabs a).doc.invalidated = false →
      (x.tabs a).doc.generation ≠ "" → (y.tabs a).doc.generation = (x.tabs a).doc.generation := by
  intro x y
  refine ⟨((Sound.start publisher db controls id storage).run es).safe, fun a hnum hv hg => ?_⟩
  rcases keeps_run (H := H) a later x with hlt | ⟨-, hdoc⟩
  · exact absurd hlt (by rw [← hnum]; exact lt_irrefl _)
  · exact (hdoc hv).2 hg

end Afterglow.Console.Session
