import Mathlib.Data.Fintype.Basic
import Mathlib.Logic.Function.Basic
import Mathlib.Logic.Relation
import Afterglow.Sql.Txn

/-! # Transactions that wait for locks

`n` sessions run transactions, one statement at a time, and hold the locks their statements took until
they commit or roll back. Which lock a statement takes depends on the rows it sees (`Takes`): a statement
that finds no row takes none. A statement whose lock another session holds waits: it is not executed now.

The rule (`ordered_run`, `Ordered.acyclic`) is the one of ordered locks. `Ascends p held` says that the
rest `p` of a transaction that holds `held` only ever waits for a lock above all it holds, whatever the
other sessions commit in between. If every session ascends, the lock a session waits for lies below the
one its holder waits for, so no sessions wait for each other in a circle. -/

namespace Afterglow.Sql.Locking

open Afterglow.Sql.Txn

/-- The lock a statement takes, by the locks other sessions hold and the rows it sees. -/
structure Takes (S : Type → Type) (σ κ : Type) where
  lock : {β : Type} → S β → (κ → Bool) → σ → Option κ

/-- A session: no transaction, or the rest of one, the rows it has written and the locks it holds. -/
inductive Session (S : Type → Type) (W κ ε : Type) : Type 1
  | idle
  | active {α : Type} (p : Prog S ε α) (ws : List W) (held : List κ)

def Session.held {S : Type → Type} {W κ ε : Type} : Session S W κ ε → List κ
  | .idle => []
  | .active _ _ held => held

/-- The committed state and the sessions. -/
structure Db (S : Type → Type) (σ W κ ε : Type) (n : ℕ) : Type 1 where
  committed : σ
  session : Fin n → Session S W κ ε

inductive Act (S : Type → Type) (ε : Type) (n : ℕ) : Type 1
  | start {α : Type} (i : Fin n) (p : Prog S ε α)
  | exec (i : Fin n)
  | finish (i : Fin n)
  | abort (i : Fin n)

variable {S : Type → Type} {σ W κ ε : Type} [DecidableEq κ] {n : ℕ}
variable (E : Engine S σ W κ ε) (T : Takes S σ κ)

namespace Db

/-- The database before the first transaction. -/
def init (s : σ) : Db S σ W κ ε n := ⟨s, fun _ => .idle⟩

def set (x : Db S σ W κ ε n) (i : Fin n) (t : Session S W κ ε) : Db S σ W κ ε n :=
  { x with session := Function.update x.session i t }

/-- Another session than `i` holds the lock. -/
def locked (x : Db S σ W κ ε n) (i : Fin n) (r : κ) : Bool :=
  decide (∃ j, j ≠ i ∧ r ∈ (x.session j).held)

/-- The lock session `i` waits for: its next statement takes it, and another session holds it. -/
def awaited (x : Db S σ W κ ε n) (i : Fin n) : Option κ :=
  match x.session i with
  | .active (.exec st _) ws held =>
    (T.lock st (x.locked i) (E.writeAll ws x.committed)).filter fun r => r ∉ held ∧ x.locked i r
  | _ => none

/-- **One step.** A step its session is not at, and a statement that has to wait, do nothing. -/
def step (x : Db S σ W κ ε n) : Act S ε n → Db S σ W κ ε n
  | .start i p =>
    match x.session i with
    | .idle => x.set i (.active p [] [])
    | _ => x
  | .exec i =>
    match x.session i with
    | .active (.exec st k) ws held =>
      if (x.awaited E T i).isSome then x
      else
        let view := E.writeAll ws x.committed
        match E.eval st (x.locked i) view with
        | .error _ => x.set i .idle
        | .ok (b, ws') =>
          x.set i (.active (k b) (ws ++ ws') (held ++ (T.lock st (x.locked i) view).toList))
    | _ => x
  | .finish i =>
    match x.session i with
    | .active (.commit _) ws _ => { x with committed := E.writeAll ws x.committed }.set i .idle
    | .active (.rollback _) _ _ => x.set i .idle
    | _ => x
  | .abort i => x.set i .idle

/-- The database after a list of steps. -/
def run (x : Db S σ W κ ε n) (as : List (Act S ε n)) : Db S σ W κ ε n := as.foldl (step E T) x

/-- Session `i` waits for a lock session `j` holds. -/
def WaitsFor (x : Db S σ W κ ε n) (i j : Fin n) : Prop :=
  j ≠ i ∧ ∃ r, x.awaited E T i = some r ∧ r ∈ (x.session j).held

end Db

/-! ### Ordered locks -/

/-- What every write keeps. -/
def Stable (Q : σ → Prop) : Prop := ∀ w s, Q s → Q (E.write w s)

variable (rank : κ → ℕ)

/-- The rest `p` of a transaction that holds `held` waits only for locks above those, as long as the rows
it sees meet `Q`. -/
def Ascends (Q : σ → Prop) {α : Type} : Prog S ε α → List κ → Prop
  | .exec st k, held => ∀ locked s, Q s →
      (∀ r, T.lock st locked s = some r → r ∉ held → locked r = true → ∀ h ∈ held, rank h < rank r) ∧
      ∀ b ws, E.eval st locked s = .ok (b, ws) →
        Ascends Q (k b) (held ++ (T.lock st locked s).toList)
  | _, _ => True

/-- **Every session ascends.** -/
def Ordered (x : Db S σ W κ ε n) : Prop :=
  ∀ (i : Fin n) (α : Type) (p : Prog S ε α) (ws : List W) (held : List κ),
    x.session i = .active p ws held →
    ∃ Q : σ → Prop, Stable E Q ∧ Q x.committed ∧ Ascends E T rank Q p held

variable {E T rank}

omit [DecidableEq κ] in
theorem Stable.writeAll {Q : σ → Prop} (hQ : Stable E Q) :
    ∀ (ws : List W) (s : σ), Q s → Q (E.writeAll ws s)
  | [], _, h => h
  | w :: ws, s, h => hQ.writeAll ws (E.write w s) (hQ w s h)

/-- What a step is told of the transaction it starts: it ascends on the rows that are committed. -/
def Starts (E : Engine S σ W κ ε) (T : Takes S σ κ) (rank : κ → ℕ) (x : Db S σ W κ ε n) : Act S ε n → Prop
  | .start _ p => ∃ Q : σ → Prop, Stable E Q ∧ Q x.committed ∧ Ascends E T rank Q p []
  | _ => True

namespace Ordered

variable {x : Db S σ W κ ε n}

omit [DecidableEq κ] in
theorem init (s : σ) : Ordered E T rank (Db.init s : Db S σ W κ ε n) := by
  intro i α p ws held hi
  cases hi

omit [DecidableEq κ] in
/-- A session moves to a place from where it ascends, and the others see `s`. -/
theorem set (h : Ordered E T rank x) {i : Fin n} {t : Session S W κ ε} {s : σ}
    (hs : ∀ Q : σ → Prop, Stable E Q → Q x.committed → Q s)
    (ht : ∀ (α : Type) (p : Prog S ε α) ws held, t = .active p ws held →
      ∃ Q : σ → Prop, Stable E Q ∧ Q x.committed ∧ Ascends E T rank Q p held) :
    Ordered E T rank ({ x with committed := s }.set i t) := by
  have hall : ∀ (j : Fin n) (α : Type) (p : Prog S ε α) ws held,
      Function.update x.session i t j = .active p ws held →
      ∃ Q : σ → Prop, Stable E Q ∧ Q x.committed ∧ Ascends E T rank Q p held := by
    intro j α p ws held hj
    by_cases hji : j = i
    · rw [hji, Function.update_self] at hj
      exact ht α p ws held hj
    · rw [Function.update_of_ne hji] at hj
      exact h j α p ws held hj
  intro j α p ws held hj
  obtain ⟨Q, hQ, hc, hasc⟩ := hall j α p ws held hj
  exact ⟨Q, hQ, hs Q hQ hc, hasc⟩

omit [DecidableEq κ] in
theorem idle (h : Ordered E T rank x) (i : Fin n) : Ordered E T rank (x.set i .idle) :=
  h.set (s := x.committed) (fun _ _ hc => hc) fun _ _ _ _ ht => nomatch ht

/-- **One step keeps the order.** -/
theorem step (h : Ordered E T rank x) {a : Act S ε n} (ha : Starts E T rank x a) :
    Ordered E T rank (x.step E T a) := by
  cases a with
  | start i p =>
    simp only [Db.step]
    cases x.session i with
    | idle =>
      refine h.set (s := x.committed) (fun _ _ hc => hc) fun α q ws held ht => ?_
      cases ht
      exact ha
    | active q ws held => exact h
  | exec i =>
    simp only [Db.step]
    cases hi : x.session i with
    | idle => exact h
    | @active α p ws held =>
      cases p with
      | commit a => exact h
      | rollback r => exact h
      | exec st k =>
        obtain ⟨Q, hQ, hc, hasc⟩ := h i α _ ws held hi
        simp only
        split_ifs
        · exact h
        cases hev : E.eval st (x.locked i) (E.writeAll ws x.committed) with
        | error e => exact h.idle i
        | ok bw =>
          refine h.set (s := x.committed) (fun _ _ hc => hc) fun α' q ws' held' ht => ?_
          cases ht
          exact ⟨Q, hQ, hc, (hasc _ _ (hQ.writeAll ws _ hc)).2 bw.1 bw.2 hev⟩
  | finish i =>
    simp only [Db.step]
    cases x.session i with
    | idle => exact h
    | active p ws held =>
      cases p with
      | commit a => exact h.set (fun Q hQ hc => hQ.writeAll ws _ hc) fun _ _ _ _ ht => nomatch ht
      | rollback r => exact h.idle i
      | exec st k => exact h
  | abort i => exact h.idle i

/-- **A session waits above all it holds.** -/
theorem awaited_above (h : Ordered E T rank x) {i : Fin n} {r : κ} (hr : x.awaited E T i = some r) :
    ∀ l ∈ (x.session i).held, rank l < rank r := by
  unfold Db.awaited at hr
  cases hi : x.session i with
  | idle => rw [hi] at hr; cases hr
  | @active α p ws held =>
    rw [hi] at hr
    cases p with
    | commit a => cases hr
    | rollback a => cases hr
    | exec st k =>
      obtain ⟨Q, hQ, hc, hasc⟩ := h i α _ ws held hi
      obtain ⟨htakes, hwait⟩ := Option.filter_eq_some_iff.mp hr
      obtain ⟨hnew, hlocked⟩ := of_decide_eq_true hwait
      exact (hasc _ _ (hQ.writeAll ws _ hc)).1 r htakes hnew hlocked

/-- Along a chain of waiting sessions the locks rise. -/
theorem chain_rises (h : Ordered E T rank x) {i j : Fin n}
    (hij : Relation.TransGen (x.WaitsFor E T) i j) {r : κ} (hr : x.awaited E T j = some r) :
    ∃ r₀, x.awaited E T i = some r₀ ∧ rank r₀ < rank r := by
  induction hij using Relation.TransGen.head_induction_on with
  | single hwait =>
    obtain ⟨-, r₀, hr₀, hheld⟩ := hwait
    exact ⟨r₀, hr₀, h.awaited_above hr r₀ hheld⟩
  | head hwait _ ih =>
    obtain ⟨-, r₀, hr₀, hheld⟩ := hwait
    obtain ⟨r₁, hr₁, hlt⟩ := ih
    exact ⟨r₀, hr₀, (h.awaited_above hr₁ r₀ hheld).trans hlt⟩

/-- **No circle of waiting sessions.** -/
theorem acyclic (h : Ordered E T rank x) (i : Fin n) : ¬ Relation.TransGen (x.WaitsFor E T) i i := by
  intro hcycle
  obtain ⟨j, ⟨-, r, hr, -⟩, -⟩ := Relation.TransGen.head'_iff.mp hcycle
  obtain ⟨r₀, hr₀, hlt⟩ := h.chain_rises hcycle hr
  rw [hr] at hr₀
  cases hr₀
  exact lt_irrefl _ hlt

end Ordered

/-! ### Ascending programs -/

section Ascends

variable {Q : σ → Prop} {α β : Type} {st : S β} {k : β → Prog S ε α} {held : List κ} {l : κ}

omit [DecidableEq κ] in
/-- A statement that takes no lock. -/
theorem ascends_free (hT : ∀ locked s, T.lock st locked s = none)
    (hk : ∀ b locked s ws, E.eval st locked s = .ok (b, ws) → Ascends E T rank Q (k b) held) :
    Ascends E T rank Q (.exec st k) held := by
  intro locked s _
  rw [hT]
  refine ⟨fun r hr => (nomatch hr), fun b ws he => ?_⟩
  rw [Option.toList_none, List.append_nil]
  exact hk b locked s ws he

/-- A statement that takes the lock `l` where it changes a row, and then answers one. -/
def Locks (E : Engine S σ W κ ε) (T : Takes S σ κ) (st : S ℕ) (l : κ) : Prop :=
  ∀ locked s, (T.lock st locked s = none ∧ ∀ n ws, E.eval st locked s = .ok (n, ws) → n = 0) ∨
    T.lock st locked s = some l ∧ ∀ n ws, E.eval st locked s = .ok (n, ws) → n = 1

omit [DecidableEq κ] in
/-- **A statement that takes one lock**, which the transaction holds or which lies above all it holds. -/
theorem ascends_lock {st : S ℕ} {k : ℕ → Prog S ε α} (hl : Locks E T st l)
    (hup : l ∈ held ∨ ∀ h ∈ held, rank h < rank l) (hone : Ascends E T rank Q (k 1) (held ++ [l]))
    (hzero : (∃ locked s, Q s ∧ T.lock st locked s = none) → Ascends E T rank Q (k 0) held) :
    Ascends E T rank Q (.exec st k) held := by
  intro locked s hQ
  rcases hl locked s with ⟨hT, hn⟩ | ⟨hT, hn⟩
  · rw [hT]
    refine ⟨fun r hr => (nomatch hr), fun b ws he => ?_⟩
    rw [hn b ws he, Option.toList_none, List.append_nil]
    exact hzero ⟨locked, s, hQ, hT⟩
  · rw [hT]
    refine ⟨fun r hr hnew _ => ?_, fun b ws he => ?_⟩
    · cases hr
      exact hup.resolve_left hnew
    · rw [hn b ws he]
      exact hone

end Ascends

/-- Every transaction of the run ascends where it is started. -/
def StartsAll (E : Engine S σ W κ ε) (T : Takes S σ κ) (rank : κ → ℕ) :
    List (Act S ε n) → Db S σ W κ ε n → Prop
  | [], _ => True
  | a :: as, x => Starts E T rank x a ∧ StartsAll E T rank as (x.step E T a)

/-- **The rule**: a run of transactions that ascend stays ordered. -/
theorem ordered_run : ∀ (as : List (Act S ε n)) (x : Db S σ W κ ε n), Ordered E T rank x →
    StartsAll E T rank as x → Ordered E T rank (x.run E T as)
  | [], _, h, _ => h
  | a :: as, x, h, hs => ordered_run as (x.step E T a) (h.step hs.1) hs.2

/-! ### Two stores in one database -/

/-- The statements of two stores. -/
inductive Either (S₁ S₂ : Type → Type) : Type → Type
  | left {β : Type} (st : S₁ β) : Either S₁ S₂ β
  | right {β : Type} (st : S₂ β) : Either S₁ S₂ β

section Sum

variable {S₁ S₂ : Type → Type} {σ₁ σ₂ W₁ W₂ κ₁ κ₂ ε₁ ε₂ α : Type}

/-- What a statement of one store answers, in the types of both. -/
def widen {β ε ε' W W' : Type} (e : ε → ε') (w : W → W') : Except ε (β × List W) → Except ε' (β × List W')
  | .error x => .error (e x)
  | .ok (b, ws) => .ok (b, ws.map w)

/-- Two stores side by side: each statement sees and writes the tables of its own. -/
def Engine.sum (E₁ : Engine S₁ σ₁ W₁ κ₁ ε₁) (E₂ : Engine S₂ σ₂ W₂ κ₂ ε₂) :
    Engine (Either S₁ S₂) (σ₁ × σ₂) (W₁ ⊕ W₂) (κ₁ ⊕ κ₂) (ε₁ ⊕ ε₂) where
  eval
    | .left st, locked, s => widen Sum.inl Sum.inl (E₁.eval st (fun r => locked (.inl r)) s.1)
    | .right st, locked, s => widen Sum.inr Sum.inr (E₂.eval st (fun r => locked (.inr r)) s.2)
  write
    | .inl w, s => (E₁.write w s.1, s.2)
    | .inr w, s => (s.1, E₂.write w s.2)
  keys
    | .inl w => (E₁.keys w).map .inl
    | .inr w => (E₂.keys w).map .inr

def Takes.sum (T₁ : Takes S₁ σ₁ κ₁) (T₂ : Takes S₂ σ₂ κ₂) :
    Takes (Either S₁ S₂) (σ₁ × σ₂) (κ₁ ⊕ κ₂) where
  lock
    | .left st, locked, s => (T₁.lock st (fun r => locked (.inl r)) s.1).map .inl
    | .right st, locked, s => (T₂.lock st (fun r => locked (.inr r)) s.2).map .inr

/-- A transaction of the first store. -/
def Prog.left : Prog S₁ ε₁ α → Prog (Either S₁ S₂) (ε₁ ⊕ ε₂) α
  | .commit a => .commit a
  | .rollback r => .rollback (r.mapError .inl)
  | .exec st k => .exec (.left st) fun b => Prog.left (k b)

/-- A transaction of the second store. -/
def Prog.right : Prog S₂ ε₂ α → Prog (Either S₁ S₂) (ε₁ ⊕ ε₂) α
  | .commit a => .commit a
  | .rollback r => .rollback (r.mapError .inr)
  | .exec st k => .exec (.right st) fun b => Prog.right (k b)

theorem widen_ok {β ε ε' W W' : Type} {e : ε → ε'} {w : W → W'} {x : Except ε (β × List W)} {b : β}
    {ws : List W'} (h : widen e w x = .ok (b, ws)) : ∃ ws₀, x = .ok (b, ws₀) := by
  rcases x with _ | ⟨b', ws₀⟩
  · cases h
  · cases h
    exact ⟨ws₀, rfl⟩

theorem toList_map_append {β γ : Type} (f : β → γ) (l : List β) (o : Option β) :
    l.map f ++ (o.map f).toList = (l ++ o.toList).map f := by
  cases o <;> simp

variable {E₁ : Engine S₁ σ₁ W₁ κ₁ ε₁} {E₂ : Engine S₂ σ₂ W₂ κ₂ ε₂} {T₁ : Takes S₁ σ₁ κ₁}
variable {T₂ : Takes S₂ σ₂ κ₂} {rank₁ : κ₁ → ℕ} {rank₂ : κ₂ → ℕ} {Q₁ : σ₁ → Prop} {Q₂ : σ₂ → Prop}

/-- A transaction of one store ascends beside the other as it does alone. -/
theorem Ascends.left : ∀ {p : Prog S₁ ε₁ α} {held : List κ₁}, Ascends E₁ T₁ rank₁ Q₁ p held →
    Ascends (Engine.sum E₁ E₂) (Takes.sum T₁ T₂) (Sum.elim rank₁ rank₂) (fun s => Q₁ s.1) (Prog.left p)
      (held.map .inl)
  | .commit _, _, _ => trivial
  | .rollback _, _, _ => trivial
  | .exec st k, held, h => by
    intro locked s hQ
    obtain ⟨hwait, hnext⟩ := h (fun r => locked (.inl r)) s.1 hQ
    refine ⟨fun r hr hnew hlocked l hl => ?_, fun b ws he => ?_⟩
    · obtain ⟨r₁, hr₁, rfl⟩ := Option.map_eq_some_iff.mp hr
      obtain ⟨l₁, hl₁, rfl⟩ := List.mem_map.mp hl
      exact hwait r₁ hr₁ (fun hmem => hnew (List.mem_map_of_mem hmem)) hlocked l₁ hl₁
    · obtain ⟨ws₀, he₀⟩ := widen_ok he
      have hgo := Ascends.left (hnext b ws₀ he₀)
      rw [← toList_map_append] at hgo
      exact hgo

theorem Ascends.right : ∀ {p : Prog S₂ ε₂ α} {held : List κ₂}, Ascends E₂ T₂ rank₂ Q₂ p held →
    Ascends (Engine.sum E₁ E₂) (Takes.sum T₁ T₂) (Sum.elim rank₁ rank₂) (fun s => Q₂ s.2) (Prog.right p)
      (held.map .inr)
  | .commit _, _, _ => trivial
  | .rollback _, _, _ => trivial
  | .exec st k, held, h => by
    intro locked s hQ
    obtain ⟨hwait, hnext⟩ := h (fun r => locked (.inr r)) s.2 hQ
    refine ⟨fun r hr hnew hlocked l hl => ?_, fun b ws he => ?_⟩
    · obtain ⟨r₂, hr₂, rfl⟩ := Option.map_eq_some_iff.mp hr
      obtain ⟨l₂, hl₂, rfl⟩ := List.mem_map.mp hl
      exact hwait r₂ hr₂ (fun hmem => hnew (List.mem_map_of_mem hmem)) hlocked l₂ hl₂
    · obtain ⟨ws₀, he₀⟩ := widen_ok he
      have hgo := Ascends.right (hnext b ws₀ he₀)
      rw [← toList_map_append] at hgo
      exact hgo

theorem Stable.left (h : Stable E₁ Q₁) : Stable (Engine.sum E₁ E₂) fun s => Q₁ s.1 := by
  rintro (w | w) s hs
  · exact h w s.1 hs
  · exact hs

end Sum

end Afterglow.Sql.Locking
