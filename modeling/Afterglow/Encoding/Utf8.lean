import Mathlib.Algebra.GroupWithZero.Nat
import Mathlib.Data.Fin.Basic
import Mathlib.Tactic.Common

/-! # UTF-8 by the byte

Texts are bytes. A rune is its first byte and the bytes that belong to it; `rune` finds how many these
are, if the bytes at the front of a text are a rune at all. A text is valid when it is runes from front
to end, and `toValid` puts the replacement character for every byte that is not part of one. Both go
through the text a byte at a time; their first argument is the number of bytes that still belong to the
rune before. -/

namespace Afterglow.Encoding.Utf8

abbrev Bytes := List (Fin 256)

/-- What the literals of a byte are built from. -/
instance neZero_byte : NeZero 256 := ⟨by decide⟩

/-! ### Runes -/

/-- The bytes after a first byte, unless no rune begins with it. -/
def following (a : Fin 256) : Option ℕ :=
  if a.val < 0x80 then some 0
  else if 0xC2 ≤ a.val ∧ a.val ≤ 0xDF then some 1
  else if 0xE0 ≤ a.val ∧ a.val ≤ 0xEF then some 2
  else if 0xF0 ≤ a.val ∧ a.val ≤ 0xF4 then some 3
  else none

def continues (b : Fin 256) : Bool := 0x80 ≤ b.val ∧ b.val ≤ 0xBF

/-- The second byte is one that keeps the encoding shortest and no surrogate. -/
def second (a b : Fin 256) : Bool :=
  (if a.val = 0xE0 then 0xA0 else if a.val = 0xF0 then 0x90 else 0x80) ≤ b.val ∧
    b.val ≤ (if a.val = 0xED then 0x9F else if a.val = 0xF4 then 0x8F else 0xBF)

/-- The bytes after the first of the rune at the front. -/
def rune (a : Fin 256) (l : Bytes) : Option ℕ :=
  match following a with
  | none => none
  | some 0 => some 0
  | some (n + 1) =>
    match l.take (n + 1) with
    | [] => none
    | b :: cs => if second a b && cs.length == n && cs.all continues then some (n + 1) else none

/-! ### Texts -/

/-- The text is runes only. -/
def valid : ℕ → Bytes → Bool
  | _, [] => true
  | n + 1, _ :: l => valid n l
  | 0, a :: l =>
    match rune a l with
    | none => false
    | some n => valid n l

/-- The text with the replacement character for every byte of no rune. -/
def toValid : ℕ → Bytes → Bytes
  | _, [] => []
  | n + 1, a :: l => a :: toValid n l
  | 0, a :: l =>
    match rune a l with
    | none => 0xEF :: 0xBF :: 0xBD :: toValid 0 l
    | some n => a :: toValid n l

/-- **A valid text is left as it is.** -/
theorem toValid_of_valid : ∀ {n : ℕ} {l : Bytes}, valid n l = true → toValid n l = l
  | n, [], _ => by cases n <;> rfl
  | n + 1, a :: l, h => by
    rw [toValid, toValid_of_valid (show valid n l = true from h)]
  | 0, a :: l, h => by
    rw [valid] at h
    rw [toValid]
    cases hr : rune a l with
    | none => rw [hr] at h; cases h
    | some n =>
      rw [hr] at h
      show a :: toValid n l = a :: l
      rw [toValid_of_valid h]

/-- A text of the first half of the bytes is valid. -/
theorem valid_of_ascii {l : Bytes} (h : ∀ a ∈ l, a.val < 0x80) : valid 0 l = true := by
  induction l with
  | nil => rfl
  | cons a l ih =>
    have ha : rune a l = some 0 := by
      unfold rune following
      rw [if_pos (h a List.mem_cons_self)]
    rw [valid, ha]
    exact ih fun b hb => h b (List.mem_cons_of_mem a hb)

example : valid 0 [0xE2, 0x82, 0xAC] = true := by decide

example : toValid 0 [0x41, 0xFF, 0xED, 0xA0, 0x80] =
    [0x41, 0xEF, 0xBF, 0xBD, 0xEF, 0xBF, 0xBD, 0xEF, 0xBF, 0xBD, 0xEF, 0xBF, 0xBD] := by decide

end Afterglow.Encoding.Utf8
