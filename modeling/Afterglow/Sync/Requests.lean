import Mathlib.Data.List.Basic

/-! # A client and its keys

What a client sees of the requests it sends under idempotency keys, in order: a request goes out, and it
succeeds, is rejected, or its outcome stays unclear. A key is open while the last it was told of it is
unclear. A client that retries sends nothing but the key that is open (`Retried`), and no key with two
inputs (`OneInput`). Both are kept, or broken, by the last entry (`retried_snoc`, `oneInput_snoc`). -/

namespace Afterglow.Sync.Requests

variable {K I : Type}

inductive Entry (K I : Type)
  | sent (k : K) (i : I)
  | success (k : K)
  | rejected (k : K)
  | unclear (k : K)
  deriving DecidableEq, Repr

/-- The entry tells what became of `k`. -/
def Entry.closes (e : Entry K I) (k : K) : Prop := e = .success k ∨ e = .rejected k

/-- A request with key `k` had an unclear outcome, and nothing has told of `k` since. -/
def Open (log : List (Entry K I)) (k : K) : Prop :=
  ∃ pre post, log = pre ++ .unclear k :: post ∧ ∀ e ∈ post, ¬ e.closes k

/-- Every request sent while a key is open has that key. -/
def Retried (log : List (Entry K I)) : Prop :=
  ∀ pre post k i, log = pre ++ .sent k i :: post → ∀ k', Open pre k' → k = k'

/-- No key is sent with two inputs. -/
def OneInput (log : List (Entry K I)) : Prop := ∀ k i j, .sent k i ∈ log → .sent k j ∈ log → i = j

variable {log : List (Entry K I)} {e : Entry K I} {k : K}

/-- An entry of a log with one more at its end is that one, or lies before it. -/
theorem snoc_eq {x : Entry K I} {pre post : List (Entry K I)} (h : log ++ [e] = pre ++ x :: post) :
    (log = pre ∧ e = x ∧ post = []) ∨ ∃ rest, post = rest ++ [e] ∧ log = pre ++ x :: rest := by
  rcases List.eq_nil_or_concat post with rfl | ⟨rest, last, rfl⟩
  · obtain ⟨hlog, he⟩ := List.append_inj' h rfl
    exact Or.inl ⟨hlog, (List.cons.inj he).1, rfl⟩
  · rw [List.concat_eq_append] at h ⊢
    rw [← List.cons_append, ← List.append_assoc] at h
    obtain ⟨hlog, he⟩ := List.append_inj' h rfl
    exact Or.inr ⟨rest, by rw [he], hlog⟩

theorem open_nil : ¬ Open ([] : List (Entry K I)) k := by
  rintro ⟨pre, post, h, -⟩
  simp at h

/-- The last entry keeps `k` open, or opens it. -/
theorem open_snoc : Open (log ++ [e]) k ↔ (Open log k ∧ ¬ e.closes k) ∨ e = .unclear k := by
  constructor
  · rintro ⟨pre, post, h, hpost⟩
    rcases snoc_eq h with ⟨-, he, -⟩ | ⟨rest, rfl, hlog⟩
    · exact Or.inr he
    · have hrest : ∀ x ∈ rest, ¬ x.closes k := fun x hx => hpost x (List.mem_append_left _ hx)
      exact Or.inl ⟨⟨pre, rest, hlog, hrest⟩, hpost e (by simp)⟩
  · rintro (⟨⟨pre, post, rfl, hpost⟩, he⟩ | rfl)
    · refine ⟨pre, post ++ [e], by simp, fun x hx => ?_⟩
      rcases List.mem_append.mp hx with hx | hx
      · exact hpost x hx
      · rw [List.mem_singleton.mp hx]
        exact he
    · exact ⟨log, [], rfl, fun x hx => (nomatch hx)⟩

theorem retried_nil : Retried ([] : List (Entry K I)) := by
  intro pre post k i h
  simp at h

/-- **One more entry.** A request has to be for the key that is open. -/
theorem retried_snoc :
    Retried (log ++ [e]) ↔ Retried log ∧ ∀ k i, e = .sent k i → ∀ k', Open log k' → k = k' := by
  constructor
  · intro h
    refine ⟨fun pre post k i hlog => ?_, fun k i he => h log [] k i (by rw [he])⟩
    exact h pre (post ++ [e]) k i (by rw [hlog]; simp)
  · rintro ⟨hlog, he⟩ pre post k i h
    rcases snoc_eq h with ⟨rfl, hsent, -⟩ | ⟨rest, -, hrest⟩
    · exact he k i hsent
    · exact hlog pre rest k i hrest

theorem oneInput_nil : OneInput ([] : List (Entry K I)) := by
  intro k i j h
  simp at h

/-- **One more entry.** A request has to have the input its key was sent with. -/
theorem oneInput_snoc (h : OneInput log) (he : ∀ k i j, e = .sent k i → .sent k j ∈ log → i = j) :
    OneInput (log ++ [e]) := by
  intro k i j hi hj
  rw [List.mem_append, List.mem_singleton] at hi hj
  rcases hi with hi | hi
  · rcases hj with hj | hj
    · exact h k i j hi hj
    · exact (he k j i hj.symm hi).symm
  · rcases hj with hj | hj
    · exact he k i j hi.symm hj
    · exact (Entry.sent.inj (hi.trans hj.symm)).2

end Afterglow.Sync.Requests
