import Afterglow.Sql.Rows

/-! # Transactions as programs over statements

A transaction is a program: it executes statements one after the other, decides by their answers how to
go on, and ends in a commit or a rollback. `S β` is the type of the statements that answer a `β`; an
`Engine` says what a statement answers and which rows it writes, seen from a state `σ`.

`Engine.atomic` runs a program alone, as on a single connection: a rollback or a failed statement gives
the state back as it was found. Two rules lift facts about statements to programs: a relation every
statement's writes keep (`atomic_rel`), and a relation between two states under which every statement
answers alike (`atomic_sim`).

`updateRow` and `insertRow` are the two statement shapes that write one row of a table. -/

namespace Afterglow.Sql.Txn

open Afterglow.Sql.Rows

/-- The statements of a database with states `σ`: the answer of a statement and the rows it writes
(`eval`, which also sees the keys that other transactions hold), how one row is written, and the keys a
written row holds until its transaction ends. -/
structure Engine (S : Type → Type) (σ W κ ε : Type) where
  eval : {β : Type} → S β → (κ → Bool) → σ → Except ε (β × List W)
  write : W → σ → σ
  keys : W → List κ

/-- A transaction. `rollback` answers `r` without a commit. -/
inductive Prog (S : Type → Type) (ε α : Type) : Type 1
  | commit (a : α)
  | rollback (r : Except ε α)
  | exec {β : Type} (st : S β) (k : β → Prog S ε α)

/-- Every statement the program can execute has `P`. -/
def Prog.All {S : Type → Type} {ε α : Type} (P : {β : Type} → S β → Prop) : Prog S ε α → Prop
  | .commit _ => True
  | .rollback _ => True
  | .exec st k => P st ∧ ∀ b, Prog.All P (k b)

theorem Prog.all_ite {S : Type → Type} {ε α : Type} {P : {β : Type} → S β → Prop} {c : Prop}
    [Decidable c] {p q : Prog S ε α} (hp : p.All P) (hq : q.All P) : (if c then p else q).All P := by
  split
  · exact hp
  · exact hq

namespace Engine

variable {S : Type → Type} {σ W κ ε α : Type} (E : Engine S σ W κ ε)

/-- Write rows in order. -/
def writeAll (ws : List W) (s : σ) : σ := ws.foldl (fun s w => E.write w s) s

@[simp] theorem writeAll_nil (s : σ) : E.writeAll [] s = s := rfl

@[simp] theorem writeAll_cons (w : W) (ws : List W) (s : σ) :
    E.writeAll (w :: ws) s = E.writeAll ws (E.write w s) := rfl

/-- No other transaction holds a key. -/
def alone : κ → Bool := fun _ => false

/-- Run on the working copy `s` of a transaction begun in `s₀`. -/
def runFrom (s₀ : σ) : Prog S ε α → σ → Except ε α × σ
  | .commit a, s => (.ok a, s)
  | .rollback r, _ => (r, s₀)
  | .exec st k, s =>
    match E.eval st alone s with
    | .error e => (.error e, s₀)
    | .ok (b, ws) => runFrom s₀ (k b) (E.writeAll ws s)

/-- **The transaction run alone**: its answer, and the state it leaves. -/
def atomic (p : Prog S ε α) (s : σ) : Except ε α × σ := E.runFrom s p s

/-- The transaction run alone with a storage failure `e` at its `n`-th statement (or at the commit, if
that comes first): everything is rolled back. -/
def faulty (e : ε) (s₀ : σ) : ℕ → Prog S ε α → σ → Except ε α × σ
  | _, .rollback r, _ => (r, s₀)
  | 0, _, _ => (.error e, s₀)
  | _ + 1, .commit a, s => (.ok a, s)
  | n + 1, .exec st k, s =>
    match E.eval st alone s with
    | .error e' => (.error e', s₀)
    | .ok (b, ws) => faulty e s₀ n (k b) (E.writeAll ws s)

@[simp] theorem runFrom_commit (s₀ s : σ) (a : α) :
    E.runFrom s₀ (.commit a : Prog S ε α) s = (.ok a, s) := rfl

@[simp] theorem runFrom_rollback (s₀ s : σ) (r : Except ε α) :
    E.runFrom s₀ (.rollback r : Prog S ε α) s = (r, s₀) := rfl

theorem runFrom_exec_ok {β : Type} {s₀ s : σ} {st : S β} {k : β → Prog S ε α} {b : β} {ws : List W}
    (h : E.eval st alone s = .ok (b, ws)) :
    E.runFrom s₀ (.exec st k) s = E.runFrom s₀ (k b) (E.writeAll ws s) := by
  rw [runFrom, h]

theorem runFrom_exec_error {β : Type} {s₀ s : σ} {st : S β} {k : β → Prog S ε α} {e : ε}
    (h : E.eval st alone s = .error e) : E.runFrom s₀ (.exec st k) s = (.error e, s₀) := by
  rw [runFrom, h]

theorem runFrom_read {β : Type} {s₀ s : σ} {st : S β} {k : β → Prog S ε α} {b : β}
    (h : E.eval st alone s = .ok (b, [])) :
    E.runFrom s₀ (.exec st k) s = E.runFrom s₀ (k b) s := E.runFrom_exec_ok h

/-- **The first statement of a run**: it fails and all is rolled back, or the run goes on with its
answer, on the state with its writes. -/
theorem runFrom_exec {C : Except ε α × σ → Prop} {β : Type} {s₀ s : σ} {st : S β}
    {k : β → Prog S ε α} (herr : ∀ e, E.eval st alone s = .error e → C (.error e, s₀))
    (hok : ∀ b ws, E.eval st alone s = .ok (b, ws) → C (E.runFrom s₀ (k b) (E.writeAll ws s))) :
    C (E.runFrom s₀ (.exec st k) s) := by
  cases h : E.eval st alone s with
  | error e => rw [runFrom_exec_error E h]; exact herr e h
  | ok bw => rw [runFrom_exec_ok E h]; exact hok bw.1 bw.2 h

/-- The first statement of a run, if it does not fail. -/
theorem runFrom_exec_total {C : Except ε α × σ → Prop} {β : Type} {s₀ s : σ} {st : S β}
    {k : β → Prog S ε α} (hst : ∃ b ws, E.eval st alone s = .ok (b, ws))
    (hok : ∀ b ws, E.eval st alone s = .ok (b, ws) → C (E.runFrom s₀ (k b) (E.writeAll ws s))) :
    C (E.runFrom s₀ (.exec st k) s) := by
  obtain ⟨b, ws, h⟩ := hst
  rw [runFrom_exec_ok E h]
  exact hok b ws h

/-- **All or nothing under a fault**: the run is the run without the fault, or it answers the fault
and leaves the state as it was found. -/
theorem faulty_cases (e : ε) (s₀ : σ) : ∀ (n : ℕ) (p : Prog S ε α) (s : σ),
    E.faulty e s₀ n p s = E.runFrom s₀ p s ∨ E.faulty e s₀ n p s = (.error e, s₀)
  | n, .rollback r, s => by cases n <;> exact Or.inl rfl
  | 0, .commit a, s => Or.inr rfl
  | 0, .exec st k, s => Or.inr rfl
  | n + 1, .commit a, s => Or.inl rfl
  | n + 1, .exec st k, s => by
    rw [faulty, runFrom]
    cases h : E.eval st alone s with
    | error e' => exact Or.inl rfl
    | ok bw => exact faulty_cases e s₀ n (k bw.1) (E.writeAll bw.2 s)

/-! ### Rules -/

section Rules

variable {P : {β : Type} → S β → Prop}

/-- A reflexive and transitive relation that the writes of every statement keep, the whole transaction
keeps. -/
theorem runFrom_rel {R : σ → σ → Prop} (hrefl : ∀ s, R s s)
    (htrans : ∀ a b c, R a b → R b c → R a c)
    (hstep : ∀ {β : Type} (st : S β) (s : σ) (b : β) (ws : List W), P st →
      E.eval st alone s = .ok (b, ws) → R s (E.writeAll ws s)) {s₀ : σ} :
    ∀ (p : Prog S ε α) (s : σ), p.All P → R s₀ s → R s₀ (E.runFrom s₀ p s).2
  | .commit _, _, _, h => h
  | .rollback _, _, _, _ => hrefl s₀
  | .exec st k, s, hp, h => by
    cases hev : E.eval st alone s with
    | error e => rw [runFrom_exec_error E hev]; exact hrefl s₀
    | ok bw =>
      rw [runFrom_exec_ok E hev]
      exact runFrom_rel hrefl htrans hstep (k bw.1) _ (hp.2 bw.1)
        (htrans _ _ _ h (hstep st s bw.1 bw.2 hp.1 hev))

theorem atomic_rel {R : σ → σ → Prop} (hrefl : ∀ s, R s s)
    (htrans : ∀ a b c, R a b → R b c → R a c)
    (hstep : ∀ {β : Type} (st : S β) (s : σ) (b : β) (ws : List W), P st →
      E.eval st alone s = .ok (b, ws) → R s (E.writeAll ws s)) (p : Prog S ε α) (hp : p.All P)
    (s : σ) : R s (E.atomic p s).2 :=
  E.runFrom_rel hrefl htrans hstep p s hp (hrefl s)

/-- Two states under which the statements answer alike and stay related: the transactions answer
alike and end related. -/
theorem runFrom_sim {R : σ → σ → Prop}
    (hstep : ∀ {β : Type} (st : S β) (s t : σ), P st → R s t →
      (∃ e, E.eval st alone s = .error e ∧ E.eval st alone t = .error e) ∨
      ∃ b ws ws', E.eval st alone s = .ok (b, ws) ∧ E.eval st alone t = .ok (b, ws') ∧
        R (E.writeAll ws s) (E.writeAll ws' t)) {s₀ t₀ : σ} (h₀ : R s₀ t₀) :
    ∀ (p : Prog S ε α) (s t : σ), p.All P → R s t →
      (E.runFrom s₀ p s).1 = (E.runFrom t₀ p t).1 ∧
        R (E.runFrom s₀ p s).2 (E.runFrom t₀ p t).2
  | .commit _, _, _, _, h => ⟨rfl, h⟩
  | .rollback _, _, _, _, _ => ⟨rfl, h₀⟩
  | .exec st k, s, t, hp, h => by
    rcases hstep st s t hp.1 h with ⟨e, hs, ht⟩ | ⟨b, ws, ws', hs, ht, hR⟩
    · rw [runFrom_exec_error E hs, runFrom_exec_error E ht]; exact ⟨rfl, h₀⟩
    · rw [runFrom_exec_ok E hs, runFrom_exec_ok E ht]
      exact runFrom_sim hstep h₀ (k b) _ _ (hp.2 b) hR

theorem atomic_sim {R : σ → σ → Prop}
    (hstep : ∀ {β : Type} (st : S β) (s t : σ), P st → R s t →
      (∃ e, E.eval st alone s = .error e ∧ E.eval st alone t = .error e) ∨
      ∃ b ws ws', E.eval st alone s = .ok (b, ws) ∧ E.eval st alone t = .ok (b, ws') ∧
        R (E.writeAll ws s) (E.writeAll ws' t)) (p : Prog S ε α) (hp : p.All P) {s t : σ}
    (h : R s t) : (E.atomic p s).1 = (E.atomic p t).1 ∧ R (E.atomic p s).2 (E.atomic p t).2 :=
  E.runFrom_sim hstep h p s t hp h

/-- The same with a fault at the same statement of both. -/
theorem faulty_sim {R : σ → σ → Prop}
    (hstep : ∀ {β : Type} (st : S β) (s t : σ), P st → R s t →
      (∃ e, E.eval st alone s = .error e ∧ E.eval st alone t = .error e) ∨
      ∃ b ws ws', E.eval st alone s = .ok (b, ws) ∧ E.eval st alone t = .ok (b, ws') ∧
        R (E.writeAll ws s) (E.writeAll ws' t)) {s₀ t₀ : σ} (h₀ : R s₀ t₀) (e : ε) :
    ∀ (n : ℕ) (p : Prog S ε α) (s t : σ), p.All P → R s t →
      (E.faulty e s₀ n p s).1 = (E.faulty e t₀ n p t).1 ∧
        R (E.faulty e s₀ n p s).2 (E.faulty e t₀ n p t).2
  | n, .rollback r, _, _, _, _ => by cases n <;> exact ⟨rfl, h₀⟩
  | 0, .commit _, _, _, _, _ => ⟨rfl, h₀⟩
  | 0, .exec _ _, _, _, _, _ => ⟨rfl, h₀⟩
  | _ + 1, .commit _, _, _, _, h => ⟨rfl, h⟩
  | n + 1, .exec st k, s, t, hp, h => by
    rw [faulty, faulty]
    rcases hstep st s t hp.1 h with ⟨e', hs, ht⟩ | ⟨b, ws, ws', hs, ht, hR⟩
    · rw [hs, ht]; exact ⟨rfl, h₀⟩
    · rw [hs, ht]
      exact faulty_sim hstep h₀ e n (k b) _ _ (hp.2 b) hR

end Rules

end Engine

/-! ### Statements that write one row -/

section Write

variable {ρ κ W ε : Type} [DecidableEq κ] {key : ρ → κ}

/-- `UPDATE t SET f WHERE key = k AND p`, answering the number of rows affected. -/
def updateRow (t : Table key) (k : κ) (p : ρ → Bool) (f : ρ → ρ) (check : ρ → Except ε Unit)
    (w : ρ → W) : Except ε (ℕ × List W) :=
  match t.find? k with
  | none => .ok (0, [])
  | some r =>
    if p r then
      match check (f r) with
      | .error e => .error e
      | .ok _ => .ok (1, [w (f r)])
    else .ok (0, [])

/-- `INSERT INTO t VALUES r ON CONFLICT (skip) DO NOTHING`, answering the number of rows affected; a
clash of primary keys that `skip` does not cover is the error `clash`. -/
def insertRow (t : Table key) (skip : ρ → Bool) (r : ρ) (clash : ε) (check : Except ε Unit)
    (w : ρ → W) : Except ε (ℕ × List W) :=
  if t.rows.any skip then .ok (0, [])
  else if (t.find? (key r)).isSome then .error clash
  else match check with
    | .error e => .error e
    | .ok _ => .ok (1, [w r])

/-- **What an `UPDATE` does**: it finds no row that matches, or writes the one it finds. -/
theorem updateRow_cases {t : Table key} {k : κ} {p : ρ → Bool} {f : ρ → ρ} {check : ρ → Except ε Unit}
    {w : ρ → W} {n : ℕ} {ws : List W} (h : updateRow t k p f check w = .ok (n, ws)) :
    (n = 0 ∧ ws = [] ∧ ∀ r, t.find? k = some r → p r = false) ∨
    ∃ r, t.find? k = some r ∧ p r = true ∧ check (f r) = .ok () ∧ n = 1 ∧ ws = [w (f r)] := by
  unfold updateRow at h
  split at h
  · next hk =>
    cases h
    exact Or.inl ⟨rfl, rfl, fun r hr => by rw [hk] at hr; cases hr⟩
  · next r hk =>
    split_ifs at h with hp
    · split at h
      · cases h
      · next u hc => cases h; exact Or.inr ⟨r, hk, hp, hc, rfl, rfl⟩
    · cases h
      refine Or.inl ⟨rfl, rfl, fun r' hr => ?_⟩
      rw [hk] at hr; cases hr
      simpa using hp

/-- An `UPDATE` fails only on a constraint of the row it would write. -/
theorem updateRow_error {t : Table key} {k : κ} {p : ρ → Bool} {f : ρ → ρ} {check : ρ → Except ε Unit}
    {w : ρ → W} {e : ε} (h : updateRow t k p f check w = .error e) :
    ∃ r, t.find? k = some r ∧ p r = true ∧ check (f r) = .error e := by
  unfold updateRow at h
  split at h
  · cases h
  · next r hk =>
    split_ifs at h with hp
    split at h
    · next e' hc => cases h; exact ⟨r, hk, hp, hc⟩
    · cases h

/-- **What an `INSERT` does**: a row it may not clash with is there, or it writes a new one. -/
theorem insertRow_cases {t : Table key} {skip : ρ → Bool} {r : ρ} {clash : ε} {check : Except ε Unit}
    {w : ρ → W} {n : ℕ} {ws : List W} (h : insertRow t skip r clash check w = .ok (n, ws)) :
    (n = 0 ∧ ws = [] ∧ ∃ x ∈ t, skip x = true) ∨
    ((∀ x ∈ t, skip x = false) ∧ t.find? (key r) = none ∧ check = .ok () ∧ n = 1 ∧ ws = [w r]) := by
  unfold insertRow at h
  split_ifs at h with hs hk
  · cases h
    obtain ⟨x, hx, hxs⟩ := List.any_eq_true.mp hs
    exact Or.inl ⟨rfl, rfl, x, hx, hxs⟩
  · right
    split at h
    · cases h
    · cases h
      refine ⟨fun x hx => ?_, by simpa using hk, rfl, rfl, rfl⟩
      by_contra hxs
      exact hs (List.any_eq_true.mpr ⟨x, hx, by simpa using hxs⟩)

/-- `INSERT ... ON CONFLICT DO NOTHING` of a row whose primary key is not there. -/
theorem insertRow_new {t : Table key} {r : ρ} {clash : ε} {check : Except ε Unit} {w : ρ → W}
    (h : t.find? (key r) = none) (hc : check = .ok ()) :
    insertRow t (fun x => key x = key r) r clash check w = .ok (1, [w r]) := by
  have hany : (t.rows.any fun x => key x = key r) = false := by
    rw [List.any_eq_false]
    intro x hx
    simpa using Table.find?_eq_none.mp h x hx
  unfold insertRow
  rw [hany, h, hc]
  rfl

/-- `INSERT ... ON CONFLICT DO NOTHING` of a row whose primary key is there. -/
theorem insertRow_old {t : Table key} {r x : ρ} {clash : ε} {check : Except ε Unit} {w : ρ → W}
    (h : t.find? (key r) = some x) :
    insertRow t (fun x => key x = key r) r clash check w = .ok (0, []) := by
  have hany : (t.rows.any fun x => key x = key r) = true :=
    List.any_eq_true.mpr ⟨x, Table.mem_of_find? h, decide_eq_true (Table.find?_key h)⟩
  unfold insertRow
  rw [hany]
  rfl

/-- An `UPDATE` of one row writes nothing, or that row. -/
theorem updateRow_writes {t : Table key} {k : κ} {p : ρ → Bool} {f : ρ → ρ}
    {check : ρ → Except ε Unit} {w : ρ → W} {n : ℕ} {ws : List W} {Q : W → Prop}
    (h : updateRow t k p f check w = .ok (n, ws)) (hq : ∀ r, t.find? k = some r → Q (w (f r))) :
    ws = [] ∨ ∃ x, ws = [x] ∧ Q x := by
  rcases updateRow_cases h with ⟨-, rfl, -⟩ | ⟨r, hr, -, -, -, rfl⟩
  · exact Or.inl rfl
  · exact Or.inr ⟨_, rfl, hq r hr⟩

/-- An `INSERT` of one row writes nothing, or that row. -/
theorem insertRow_writes {t : Table key} {skip : ρ → Bool} {r : ρ} {clash : ε}
    {check : Except ε Unit} {w : ρ → W} {n : ℕ} {ws : List W} {Q : W → Prop}
    (h : insertRow t skip r clash check w = .ok (n, ws))
    (hq : (∀ x ∈ t, skip x = false) → t.find? (key r) = none → Q (w r)) :
    ws = [] ∨ ∃ x, ws = [x] ∧ Q x := by
  rcases insertRow_cases h with ⟨-, rfl, -⟩ | ⟨hs, hr, -, -, rfl⟩
  · exact Or.inl rfl
  · exact Or.inr ⟨_, rfl, hq hs hr⟩

/-- An `UPDATE` depends on the row with its key only. -/
theorem updateRow_congr {t u : Table key} {k : κ} (h : t.find? k = u.find? k) (p : ρ → Bool)
    (f : ρ → ρ) (check : ρ → Except ε Unit) (w : ρ → W) :
    updateRow t k p f check w = updateRow u k p f check w := by
  unfold updateRow; rw [h]

/-- An `INSERT` depends on the rows it could clash with and on its constraints. -/
theorem insertRow_congr {t u : Table key} {skip : ρ → Bool} {r : ρ} {check check' : Except ε Unit}
    (hs : t.rows.any skip = u.rows.any skip) (h : t.find? (key r) = u.find? (key r))
    (hc : check = check') (clash : ε) (w : ρ → W) :
    insertRow t skip r clash check w = insertRow u skip r clash check' w := by
  unfold insertRow; rw [hs, h, hc]

/-- An `INSERT` fails on a clash of primary keys or on a constraint. -/
theorem insertRow_error {t : Table key} {skip : ρ → Bool} {r : ρ} {clash : ε} {check : Except ε Unit}
    {w : ρ → W} {e : ε} (h : insertRow t skip r clash check w = .error e) :
    (∀ x ∈ t, skip x = false) ∧ (t.find? (key r) ≠ none ∧ e = clash ∨
      t.find? (key r) = none ∧ check = .error e) := by
  unfold insertRow at h
  split_ifs at h with hs hk
  all_goals
    refine ⟨fun x hx => ?_, ?_⟩
    · by_contra hxs
      exact hs (List.any_eq_true.mpr ⟨x, hx, by simpa using hxs⟩)
  · cases h
    exact Or.inl ⟨by simpa [Option.isSome_iff_ne_none] using hk, rfl⟩
  · split at h
    · cases h; exact Or.inr ⟨by simpa using hk, rfl⟩
    · cases h

end Write

end Afterglow.Sql.Txn
