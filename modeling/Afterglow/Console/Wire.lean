import Afterglow.Console.Proof

/-! # The JSON text of a receipt

What the page writes with `JSON.stringify`, for receipts whose strings have no control characters. Every
value tells where it ends, a string by its quote and a number by the first character that is no digit, so
the text determines the receipt (`text_injective`) and there is a decoder that reads it back. -/

namespace Afterglow.Console.Wire

open Afterglow.Core.Model Afterglow.Httpapi.Batch Afterglow.Console.Proof

def backslash : Char := '\x5c'

def quote : Char := '\x22'

/-- The characters of a JSON string, without control characters. -/
def escaped (cs : List Char) : List Char :=
  cs.flatMap fun c => if c = quote ∨ c = backslash then [backslash, c] else [c]

/-- A JSON string. -/
def quoted (s : String) : List Char := quote :: (escaped s.toList ++ [quote])

/-- A JSON integer. -/
def decimal (n : Int) : List Char :=
  if n < 0 then '-' :: Nat.toDigits 10 n.natAbs else Nat.toDigits 10 n.natAbs

/-- `JSON.stringify` of a receipt. -/
def text (r : Receipt) : List Char :=
  "\x7b\x22schema_version\x22:".toList ++ (decimal r.version ++ ',' ::
    ("\x22event_id\x22:".toList ++ (quoted r.eventID ++ ',' ::
    ("\x22reservation_id\x22:".toList ++ (quoted r.reservationID ++ ',' ::
    ("\x22screen_id\x22:".toList ++ (quoted r.screenID ++ ',' ::
    ("\x22played_at\x22:".toList ++ (decimal r.playedAt ++ ',' ::
    ("\x22duration_ms\x22:".toList ++ (decimal r.durationMS ++ ['\x7d'])))))))))))

/-- The bytes of a text. -/
def utf8 (cs : List Char) : Raw := cs.flatMap String.utf8EncodeChar

/-! ### Where a value ends -/

theorem escaped_injective : ∀ {a b x y : List Char},
    escaped a ++ quote :: x = escaped b ++ quote :: y → a = b ∧ x = y
  | [], [], _, _, h => ⟨rfl, (List.cons.inj h).2⟩
  | [], c :: b, _, _, h => by
    unfold escaped at h
    rw [List.flatMap_nil, List.flatMap_cons] at h
    split_ifs at h with hc
    · exact absurd (List.cons.inj h).1 (by decide)
    · exact absurd (Or.inl (List.cons.inj h).1.symm) hc
  | c :: a, [], _, _, h => by
    unfold escaped at h
    rw [List.flatMap_nil, List.flatMap_cons] at h
    split_ifs at h with hc
    · exact absurd (List.cons.inj h).1 (by decide)
    · exact absurd (Or.inl (List.cons.inj h).1) hc
  | c :: a, d :: b, x, y, h => by
    unfold escaped at h
    rw [List.flatMap_cons, List.flatMap_cons] at h
    split_ifs at h with hc hd hd
    · simp only [List.cons_append, List.nil_append, List.cons.injEq, true_and] at h
      obtain ⟨hab, hxy⟩ := escaped_injective h.2
      exact ⟨by rw [h.1, hab], hxy⟩
    · exact absurd (Or.inr (List.cons.inj h).1.symm) hd
    · exact absurd (Or.inr (List.cons.inj h).1) hc
    · simp only [List.cons_append, List.nil_append, List.cons.injEq] at h
      obtain ⟨hab, hxy⟩ := escaped_injective h.2
      exact ⟨by rw [h.1, hab], hxy⟩

theorem quoted_injective {s t : String} {x y : List Char} (h : quoted s ++ x = quoted t ++ y) :
    s = t ∧ x = y := by
  unfold quoted at h
  simp only [List.cons_append, List.append_assoc, List.nil_append, List.cons.injEq, true_and] at h
  obtain ⟨hst, hxy⟩ := escaped_injective h
  exact ⟨String.toList_inj.mp hst, hxy⟩

theorem notMem_decimal {c : Char} (hc : c.isDigit = false) (hm : c ≠ '-') (n : Int) : c ∉ decimal n := by
  have hdigits : c ∉ Nat.toDigits 10 n.natAbs := by
    intro hmem
    rw [Nat.isDigit_of_mem_toDigits (by decide) (by decide) hmem] at hc
    cases hc
  unfold decimal
  split_ifs
  · simp [hm, hdigits]
  · exact hdigits

theorem decimal_injective {m n : Int} (h : decimal m = decimal n) : m = n := by
  have hminus : ∀ k : ℕ, '-' ∉ Nat.toDigits 10 k := by
    intro k hmem
    exact absurd (Nat.isDigit_of_mem_toDigits (by decide) (by decide) hmem) (by decide)
  have habs : Nat.toDigits 10 m.natAbs = Nat.toDigits 10 n.natAbs → m.natAbs = n.natAbs := by
    intro heq
    have hof := congrArg (fun l => Nat.ofDigitChars 10 l 0) heq
    simpa only [Nat.ofDigitChars_ten_toDigits] using hof
  unfold decimal at h
  split_ifs at h with hm hn hn
  · have := habs (List.cons.inj h).2
    omega
  · exact absurd (h ▸ List.mem_cons_self) (hminus n.natAbs)
  · exact absurd (h.symm ▸ List.mem_cons_self) (hminus m.natAbs)
  · have := habs h
    omega

/-- A number ends where a character comes that no number has. -/
theorem decimal_append {m n : Int} {c : Char} {x y : List Char} (hc : c.isDigit = false) (hm : c ≠ '-')
    (h : decimal m ++ c :: x = decimal n ++ c :: y) : m = n ∧ x = y := by
  have htake : ∀ (k : Int) z, (decimal k ++ c :: z).takeWhile (· ≠ c) = decimal k := by
    intro k z
    rw [List.takeWhile_append_of_pos, List.takeWhile_cons_of_neg (by simp), List.append_nil]
    intro d hd
    exact decide_eq_true fun hdc => notMem_decimal hc hm k (hdc ▸ hd)
  have hmn : decimal m = decimal n := by rw [← htake m x, h, htake]
  rw [hmn] at h
  exact ⟨decimal_injective hmn, (List.cons.inj (List.append_cancel_left h)).2⟩

/-! ### The codec -/

/-- **A text determines its receipt.** -/
theorem text_injective : Function.Injective text := by
  intro r p h
  unfold text at h
  obtain ⟨hversion, h⟩ := decimal_append rfl (by decide) (List.append_cancel_left h)
  obtain ⟨hevent, h⟩ := quoted_injective (List.append_cancel_left h)
  obtain ⟨hreservation, h⟩ := quoted_injective (List.append_cancel_left (List.cons.inj h).2)
  obtain ⟨hscreen, h⟩ := quoted_injective (List.append_cancel_left (List.cons.inj h).2)
  obtain ⟨hplayed, h⟩ := decimal_append rfl (by decide) (List.append_cancel_left (List.cons.inj h).2)
  obtain ⟨hduration, -⟩ := decimal_append rfl (by decide) (List.append_cancel_left h)
  cases r
  cases p
  simp only [Receipt.mk.injEq]
  exact ⟨hversion, hevent, hreservation, hscreen, hplayed, hduration⟩

theorem utf8_injective : Function.Injective utf8 := by
  intro a b h
  have hbytes : (String.ofList a).toByteArray = (String.ofList b).toByteArray :=
    congrArg List.toByteArray h
  exact String.ofList_inj.mp (String.toByteArray_inj.mp hbytes)

/-- The codec of a server that reads the texts of the receipts `rs` and refuses every other. -/
def json (rs : List Receipt) : Codec where
  encode r := utf8 (text r)
  decode raw := rs.find? fun r => utf8 (text r) = raw
  neighbor := utf8 "\x7b\x22unexpected_field\x22:\x22malformed_neighbor\x22\x7d".toList
  reads r p h := by
    unfold receipt? at h
    split_ifs at h
    have hp := List.find?_some h
    exact text_injective (utf8_injective (of_decide_eq_true hp))
  refuses := by
    unfold receipt?
    rw [if_pos ⟨by decide +kernel, by decide +kernel⟩]
    refine List.find?_eq_none.mpr fun r _ hr => ?_
    have htext := utf8_injective (of_decide_eq_true hr)
    have hthird : (text r)[2]? = some 's' := rfl
    rw [htext] at hthird
    exact absurd hthird (by decide +kernel)

end Afterglow.Console.Wire
