import Mathlib.Data.Fintype.Basic
import Mathlib.Logic.Function.Basic
import Afterglow.Sql.Txn

/-! # Transactions interleaved under READ COMMITTED

`n` sessions run transactions over one database, one statement at a time. A statement sees the rows
committed before it and the rows its own transaction wrote. It takes the keys of the rows it writes and
holds them to the end of the transaction; where another session holds one of them it waits, that is, it is
not executed now, and when it is executed later it is evaluated on what is committed then. A statement that
writes no row takes nothing. A session can be aborted between any two statements.

The rule (`run_sound`) is a rely-guarantee one. What other sessions commit leaves the rows under a
session's keys as they are (`Agree`). `Ok p ws s` says that the program `p`, with the writes `ws` made so
far on top of the committed state `s`, will end in a commit that keeps the invariant, whatever the others
commit in between, as long as its statements meet a condition `Cond` when they are executed. -/

namespace Afterglow.Sql.ReadCommitted

open Afterglow.Sql.Txn

/-- A session: no transaction, or the rest of one and the rows it has written. -/
inductive Session (S : Type → Type) (W ε : Type) : Type 1
  | idle
  | active {α : Type} (p : Prog S ε α) (ws : List W)

def Session.writes {S : Type → Type} {W ε : Type} : Session S W ε → List W
  | .idle => []
  | .active _ ws => ws

/-- The committed state, the writes of the transactions committed so far, and the sessions. -/
structure Db (S : Type → Type) (σ W ε : Type) (n : ℕ) : Type 1 where
  committed : σ
  log : List (List W)
  session : Fin n → Session S W ε

inductive Act (S : Type → Type) (ε : Type) (n : ℕ) : Type 1
  | start {α : Type} (i : Fin n) (p : Prog S ε α)
  | exec (i : Fin n)
  | finish (i : Fin n)
  | abort (i : Fin n)

variable {S : Type → Type} {σ W κ ε : Type} {n : ℕ} (E : Engine S σ W κ ε)

/-- The keys of written rows. -/
def keysOf (ws : List W) : List κ := ws.flatMap E.keys

theorem keysOf_append (ws ws' : List W) : keysOf E (ws ++ ws') = keysOf E ws ++ keysOf E ws' :=
  List.flatMap_append

namespace Db

/-- The database before the first transaction. -/
def init (s : σ) : Db S σ W ε n := ⟨s, [], fun _ => .idle⟩

def set (x : Db S σ W ε n) (i : Fin n) (t : Session S W ε) : Db S σ W ε n :=
  { x with session := Function.update x.session i t }

/-- Another session than `i` holds the key. -/
def held [DecidableEq κ] (x : Db S σ W ε n) (i : Fin n) (key : κ) : Bool :=
  decide (∃ j, j ≠ i ∧ key ∈ keysOf E (x.session j).writes)

/-- **One step.** A step its session is not at, and a statement that has to wait, do nothing. -/
def step [DecidableEq κ] (x : Db S σ W ε n) : Act S ε n → Db S σ W ε n
  | .start i p =>
    match x.session i with
    | .idle => x.set i (.active p [])
    | _ => x
  | .exec i =>
    match x.session i with
    | .active (.exec st k) ws =>
      match E.eval st (x.held E i) (E.writeAll ws x.committed) with
      | .error _ => x.set i .idle
      | .ok (b, ws') =>
        if (keysOf E ws').any (x.held E i) then x else x.set i (.active (k b) (ws ++ ws'))
    | _ => x
  | .finish i =>
    match x.session i with
    | .active (.commit _) ws =>
      { x with committed := E.writeAll ws x.committed, log := x.log ++ [ws] }.set i .idle
    | .active (.rollback _) _ => x.set i .idle
    | _ => x
  | .abort i => x.set i .idle

/-- The database after a list of steps. -/
def run [DecidableEq κ] (x : Db S σ W ε n) (as : List (Act S ε n)) : Db S σ W ε n := as.foldl (step E) x

end Db

/-! ### The rule -/

/-- What the rule is told about the database: the invariant of the committed state and the log, when two
states agree under a set of keys, and the condition on the statements. -/
structure Spec (S : Type → Type) (σ W κ : Type) where
  Inv : σ → List (List W) → Prop
  Agree : List κ → σ → σ → Prop
  Cond : {β : Type} → S β → List W → σ → Prop

/-- Agreement is about rows: what is written elsewhere does not break it. -/
structure Spec.Lawful (X : Spec S σ W κ) : Prop where
  refl : ∀ L s, X.Agree L s s
  trans : ∀ L a b c, X.Agree L a b → X.Agree L b c → X.Agree L a c
  mono : ∀ L L' s s', L ⊆ L' → X.Agree L' s s' → X.Agree L s s'
  write : ∀ L ws s, (∀ key ∈ keysOf E ws, key ∉ L) → X.Agree L s (E.writeAll ws s)

/-- The rest `p` of a transaction that has written `ws` keeps the invariant when it commits. -/
def Ok (X : Spec S σ W κ) {α : Type} : Prog S ε α → List W → σ → Prop
  | .commit _, ws, s => ∀ s' log, X.Agree (keysOf E ws) s s' → X.Inv s' log →
      X.Inv (E.writeAll ws s') (log ++ [ws])
  | .rollback _, _, _ => True
  | .exec st k, ws, s => ∀ s' log locked b ws', X.Agree (keysOf E ws) s s' → X.Inv s' log →
      X.Cond st ws s' → E.eval st locked (E.writeAll ws s') = .ok (b, ws') → Ok X (k b) (ws ++ ws') s'

variable {E} {X : Spec S σ W κ}

/-- What others commit does not break it. -/
theorem Ok.stable {α : Type} (hX : X.Lawful E) {p : Prog S ε α} {ws : List W} {s s' : σ}
    (h : Ok E X p ws s) (ha : X.Agree (keysOf E ws) s s') : Ok E X p ws s' := by
  cases p with
  | commit a => exact fun t log hst => h t log (hX.trans _ _ _ _ ha hst)
  | rollback r => trivial
  | exec st k => exact fun t log locked b ws' hst => h t log locked b ws' (hX.trans _ _ _ _ ha hst)

/-- **The invariant of the database**: every session is on a good way, no key is held twice. -/
structure Sound (E : Engine S σ W κ ε) (X : Spec S σ W κ) (x : Db S σ W ε n) : Prop where
  inv : X.Inv x.committed x.log
  ok : ∀ (i : Fin n) (α : Type) (p : Prog S ε α) (ws : List W), x.session i = .active p ws →
    Ok E X p ws x.committed
  apart : ∀ i j, i ≠ j → ∀ key ∈ keysOf E (x.session i).writes, key ∉ keysOf E (x.session j).writes

/-- The statement session `i` is at meets the condition. -/
def Meets (E : Engine S σ W κ ε) (X : Spec S σ W κ) (x : Db S σ W ε n) : Act S ε n → Prop
  | .start _ p => ∀ s, Ok E X p [] s
  | .exec i =>
    match x.session i with
    | .active (.exec st _) ws => X.Cond st ws x.committed
    | _ => True
  | _ => True

namespace Sound

variable [DecidableEq κ] {x : Db S σ W ε n}

/-- A session moves to a good place with keys no other session holds. -/
theorem set (h : Sound E X x) {i : Fin n} {t : Session S W ε}
    (hok : ∀ (α : Type) (p : Prog S ε α) ws, t = .active p ws → Ok E X p ws x.committed)
    (hkeys : ∀ key ∈ keysOf E t.writes, x.held E i key = false ) : Sound E X (x.set i t) := by
  have hself : (x.set i t).session i = t := Function.update_self ..
  have hother : ∀ j, j ≠ i → (x.set i t).session j = x.session j := fun j hj =>
    Function.update_of_ne hj ..
  have hfree : ∀ j, j ≠ i → ∀ key ∈ keysOf E t.writes, key ∉ keysOf E (x.session j).writes := by
    intro j hj key hkey hmem
    exact absurd (hkeys key hkey) (by
      rw [Db.held, decide_eq_false_iff_not]
      exact fun hno => hno ⟨j, hj, hmem⟩)
  refine ⟨h.inv, ?_, ?_⟩
  · intro j α p ws hj
    by_cases hji : j = i
    · subst hji
      exact hok α p ws (hself.symm.trans hj)
    · rw [hother j hji] at hj
      exact h.ok j α p ws hj
  · intro a b hab key ha hb
    by_cases hai : a = i
    · have hbi : b ≠ i := fun hbi => hab (hai.trans hbi.symm)
      subst hai
      rw [hself] at ha
      rw [hother b hbi] at hb
      exact hfree b hbi key ha hb
    · rw [hother a hai] at ha
      by_cases hbi : b = i
      · subst hbi
        rw [hself] at hb
        exact hfree a hai key hb ha
      · rw [hother b hbi] at hb
        exact h.apart a b hab key ha hb

theorem idle (h : Sound E X x) (i : Fin n) : Sound E X (x.set i .idle) :=
  h.set (fun _ _ _ ht => by cases ht) fun key hkey => by cases hkey

/-- A key a session holds is not held by another. -/
theorem held_own (h : Sound E X x) {i : Fin n} {key : κ} (hkey : key ∈ keysOf E (x.session i).writes) :
    x.held E i key = false := by
  rw [Db.held, decide_eq_false_iff_not]
  rintro ⟨j, hj, hmem⟩
  exact h.apart j i hj key hmem hkey

/-- **A statement keeps the invariant.** -/
theorem exec (hX : X.Lawful E) (h : Sound E X x) {i : Fin n} (hm : Meets E X x (.exec i)) :
    Sound E X (x.step E (.exec i)) := by
  simp only [Db.step]
  cases hi : x.session i with
  | idle => exact h
  | @active α p ws =>
    cases p with
    | commit a => exact h
    | rollback r => exact h
    | exec st k =>
      have hcond : X.Cond st ws x.committed := by
        simp only [Meets, hi] at hm; exact hm
      cases hev : E.eval st (x.held E i) (E.writeAll ws x.committed) with
      | error e => simp only [hev]; exact h.idle i
      | ok bw =>
        obtain ⟨b, ws'⟩ := bw
        simp only [hev]
        split_ifs with hheld
        · exact h
        · refine h.set (fun α' p ws'' ht => ?_) fun key hkey => ?_
          · cases ht
            exact h.ok i α _ ws hi _ x.log _ b ws' (hX.refl _ _) h.inv hcond hev
          · have hkey' : key ∈ keysOf E ws ++ keysOf E ws' := by
              rw [← keysOf_append]; exact hkey
            rcases List.mem_append.mp hkey' with hkey' | hkey'
            · exact h.held_own (by rw [hi]; exact hkey')
            · by_contra hno
              exact hheld (List.any_eq_true.mpr ⟨key, hkey', by simpa using hno⟩)

/-- **A commit keeps the invariant**, and the rows under the other sessions' keys. -/
theorem commit (hX : X.Lawful E) (h : Sound E X x) {i : Fin n} {α : Type} {a : α} {ws : List W}
    (hi : x.session i = .active (.commit a) ws) :
    Sound E X ({ x with committed := E.writeAll ws x.committed, log := x.log ++ [ws] }.set i .idle) := by
  have hself : (x.set i .idle).session i = .idle := Function.update_self ..
  have hother : ∀ j, j ≠ i → (x.set i .idle).session j = x.session j := fun j hj =>
    Function.update_of_ne hj ..
  refine ⟨?_, ?_, ?_⟩
  · exact h.ok i α _ ws hi x.committed x.log (hX.refl _ _) h.inv
  · intro j β p vs hj
    have hj₁ : (x.set i .idle).session j = .active p vs := hj
    by_cases hji : j = i
    · subst hji
      cases hself.symm.trans hj₁
    · have hj' : x.session j = .active p vs := (hother j hji).symm.trans hj₁
      refine (h.ok j β p vs hj').stable hX (hX.write _ ws _ fun key hkey hmem => ?_)
      exact h.apart i j (Ne.symm hji) key (by rw [hi]; exact hkey) (by rw [hj']; exact hmem)
  · have hidle : Sound E X (x.set i .idle) := h.idle i
    exact hidle.apart

/-- **One step keeps the invariant.** -/
theorem step (hX : X.Lawful E) (h : Sound E X x) {a : Act S ε n} (hm : Meets E X x a) :
    Sound E X (x.step E a) := by
  cases a with
  | start i p =>
    simp only [Db.step]
    cases x.session i with
    | idle =>
      refine h.set (fun α p' ws ht => ?_) fun key hkey => by cases hkey
      cases ht
      exact hm x.committed
    | active q ws => exact h
  | exec i => exact h.exec hX hm
  | finish i =>
    simp only [Db.step]
    cases hi : x.session i with
    | idle => exact h
    | active p ws =>
      cases p with
      | commit a => exact h.commit hX hi
      | rollback r => exact h.idle i
      | exec st k => exact h
  | abort i => exact h.idle i

end Sound

theorem sound_init {s : σ} (hs : X.Inv s []) : Sound E X (Db.init s : Db S σ W ε n) :=
  ⟨hs, fun _ _ _ _ hi => (by cases hi), fun _ _ _ key hkey => (by cases hkey)⟩

/-- Every step of the run meets the condition where it is taken. -/
def MeetsAll [DecidableEq κ] (E : Engine S σ W κ ε) (X : Spec S σ W κ) : List (Act S ε n) → Db S σ W ε n → Prop
  | [], _ => True
  | a :: as, x => Meets E X x a ∧ MeetsAll E X as (x.step E a)

/-- **The rule**: along a run whose steps meet the condition the invariant holds. -/
theorem run_sound [DecidableEq κ] (hX : X.Lawful E) : ∀ (as : List (Act S ε n)) (x : Db S σ W ε n), Sound E X x →
    MeetsAll E X as x → Sound E X (x.run E as)
  | [], _, h, _ => h
  | a :: as, x, h, hm => run_sound hX as (x.step E a) (h.step hX hm.1) hm.2

end Afterglow.Sql.ReadCommitted
