import Afterglow.Airports.Parse
import Afterglow.Slices.Sorting
import Mathlib.Data.List.Induction

/-! # Parsing is exact and does not look at the order of the rows

A row of the source is its fields by name (`field`): the last column of a name counts. Once the required
columns are there, `get` finds each of them in every record (`get_eq`), so no index is out of range. What
the loop collects are the records of the qualifying rows (`readRows_eq`), what validation accepts is said
by `validate_iff`, and both look at a row at a time except for the identifiers, which are distinct; the
sort then has no choice. -/

namespace Afterglow.Airports.Exact

open Afterglow.Airports.Parse Afterglow.Slices.Sorting

/-! ### Fields by name -/

/-- The field of a row under a name: that of the last column of the name. -/
def field (header row : Record) (k : Text) : Text := ((header.zip row).reverse.lookup k).getD []

theorem columns_snoc (header : Record) (x : Text) :
    columns (header ++ [x]) = Function.update (columns header) x (some header.length) := by
  rw [columns, List.zipIdx_append, List.foldl_append]
  simp [columns]

theorem field_snoc {header row : Record} (x v k : Text) (h : row.length = header.length) :
    field (header ++ [x]) (row ++ [v]) k = if k = x then v else field header row k := by
  rw [field, List.zip_append h.symm, List.reverse_append]
  by_cases hk : k = x
  · simp [hk]
  · have hbeq : (k == x) = false := beq_eq_false_iff_ne.mpr hk
    simp [hk, List.lookup_cons, hbeq, field]

theorem columns_isSome {header : Record} {k : Text} : (columns header k).isSome ↔ k ∈ header := by
  induction header using List.reverseRecOn with
  | nil => simp [columns]
  | append_singleton header x ih =>
    rw [columns_snoc, List.mem_append, List.mem_singleton, ← ih]
    by_cases hk : k = x
    · simp [hk]
    · simp [hk]

theorem columns_lt {header : Record} {k : Text} {i : ℕ} (h : columns header k = some i) :
    i < header.length := by
  induction header using List.reverseRecOn with
  | nil => simp [columns] at h
  | append_singleton header x ih =>
    rw [columns_snoc] at h
    rw [List.length_append, List.length_singleton]
    by_cases hk : k = x
    · rw [hk, Function.update_self] at h
      have hi := Option.some.inj h
      omega
    · rw [Function.update_of_ne hk] at h
      have hi := ih h
      omega

/-- **A required field is found** in every record. -/
theorem get_eq {header row : Record} {k : Text} (hk : k ∈ header) (hrow : row.length = header.length) :
    get (columns header) row k = .ok (field header row k) := by
  induction header using List.reverseRecOn generalizing row with
  | nil => simp at hk
  | append_singleton header x ih =>
    rcases List.eq_nil_or_concat row with rfl | ⟨row, v, rfl⟩
    · simp at hrow
    · rw [List.concat_eq_append, List.length_append, List.length_append] at hrow
      have hlen : row.length = header.length := by simpa using hrow
      rw [List.concat_eq_append, field_snoc x v k hlen, Parse.get, columns_snoc]
      by_cases hkx : k = x
      · subst hkx
        simp [← hlen]
      · have hmem : k ∈ header := by
          rcases List.mem_append.mp hk with h | h
          · exact h
          · exact absurd (List.mem_singleton.mp h) hkx
        have hget := ih hmem hlen
        obtain ⟨i, hi⟩ := Option.isSome_iff_exists.mp (columns_isSome.mpr hmem)
        have hlt : i < row.length := hlen ▸ columns_lt hi
        rw [Parse.get, hi, Option.getD_some] at hget
        rw [Function.update_of_ne hkx, hi, Option.getD_some, List.getElem?_append_left hlt, if_neg hkx]
        exact hget

/-! ### Qualifying rows -/

/-- The row is of the United States or a territory, in scheduled service and not closed. -/
def qualifies (header row : Record) : Bool :=
  usCountry (field header row (text "iso_country")) &&
    field header row (text "scheduled_service") == text "yes" &&
    !(text "closed").isPrefixOf (field header row (text "type"))

/-- The record of a row, where its coordinates can be parsed. -/
def airportOf (parseFloat : Text → Option Float64) (header row : Record) : Option Airport := do
  let lat ← parseFloat (field header row (text "latitude_deg"))
  let lng ← parseFloat (field header row (text "longitude_deg"))
  return {
    ident := field header row (text "ident")
    iata := field header row (text "iata_code")
    name := field header row (text "name")
    city := field header row (text "municipality")
    region := field header row (text "iso_region")
    country := field header row (text "iso_country")
    type := field header row (text "type")
    lat := lat
    lng := lng }

/-- **One row**, in a source with the required columns. -/
theorem readRow_eq (parseFloat : Text → Option Float64) {header row : Record}
    (hcols : ∀ k ∈ required, k ∈ header) (hrow : row.length = header.length) :
    readRow parseFloat (columns header) row =
      if qualifies header row then
        match airportOf parseFloat header row with
        | none => .error .number
        | some a => .ok (some a)
      else .ok none := by
  have hget (k : Text) (hk : k ∈ required) : get (columns header) row k = .ok (field header row k) :=
    get_eq (hcols k hk) hrow
  unfold readRow
  simp only [hget _ (show text "iso_country" ∈ required by simp [required]),
    hget _ (show text "scheduled_service" ∈ required by simp [required]),
    hget _ (show text "type" ∈ required by simp [required]),
    hget _ (show text "latitude_deg" ∈ required by simp [required]),
    hget _ (show text "longitude_deg" ∈ required by simp [required]),
    hget _ (show text "ident" ∈ required by simp [required]),
    hget _ (show text "iata_code" ∈ required by simp [required]),
    hget _ (show text "name" ∈ required by simp [required]),
    hget _ (show text "municipality" ∈ required by simp [required]),
    hget _ (show text "iso_region" ∈ required by simp [required])]
  unfold qualifies
  cases hcountry : usCountry (field header row (text "iso_country")) with
  | false => simp [bind, Except.bind, pure, Except.pure, hcountry]
  | true =>
    by_cases hservice : field header row (text "scheduled_service") = text "yes"
    · cases hclosed : (text "closed").isPrefixOf (field header row (text "type")) with
      | true => simp [bind, Except.bind, pure, Except.pure, hcountry, hservice, hclosed]
      | false =>
        simp only [bind, Except.bind, pure, Except.pure, hcountry, hservice, hclosed, airportOf]
        cases parseFloat (field header row (text "latitude_deg")) with
        | none => simp [number]
        | some lat =>
          cases parseFloat (field header row (text "longitude_deg")) with
          | none => simp [number]
          | some lng => simp [number]
    · simp [bind, Except.bind, pure, Except.pure, hcountry, hservice]

/-! ### The loops -/

/-- The qualifying rows among what `Read` returns. -/
def qualifying (header : Record) (rows : List (Option Record)) : List Record :=
  rows.filterMap fun r => r.filter (qualifies header)

section Rows

variable {parseFloat : Text → Option Float64} {header : Record}

/-- **What the loop collects**: the records of the qualifying rows, where every row could be read. -/
theorem readRows_eq (hcols : ∀ k ∈ required, k ∈ header) {rows : List (Option Record)}
    (hwidth : ∀ row, some row ∈ rows → row.length = header.length) {out out' : List Airport} :
    readRows parseFloat (columns header) rows out = .ok out' ↔
      none ∉ rows ∧ ∃ as, (qualifying header rows).map (airportOf parseFloat header) = as.map some ∧
        out' = out ++ as := by
  induction rows generalizing out with
  | nil =>
    rw [readRows]
    constructor
    · intro h
      exact ⟨List.not_mem_nil, [], rfl, by rw [List.append_nil, Except.ok.inj h]⟩
    · rintro ⟨-, as, has, rfl⟩
      rw [List.map_eq_nil_iff.mp has.symm, List.append_nil]
  | cons r rows ih =>
    have htail : ∀ row, some row ∈ rows → row.length = header.length := fun row hrow =>
      hwidth row (List.mem_cons_of_mem r hrow)
    cases r with
    | none => simp [readRows]
    | some row =>
      have hnone : none ∉ some row :: rows ↔ none ∉ rows := by simp
      rw [readRows, readRow_eq parseFloat hcols (hwidth row List.mem_cons_self), hnone]
      cases hq : qualifies header row with
      | false =>
        have hrest : qualifying header (some row :: rows) = qualifying header rows := by
          simp [qualifying, Option.filter, hq]
        rw [hrest]
        exact ih htail
      | true =>
        have hrest : qualifying header (some row :: rows) = row :: qualifying header rows := by
          simp [qualifying, Option.filter, hq]
        rw [hrest, List.map_cons, if_pos rfl]
        cases airportOf parseFloat header row with
        | none =>
          refine iff_of_false (fun h => by cases h) ?_
          rintro ⟨-, as, has, -⟩
          cases as <;> simp at has
        | some a =>
          show readRows parseFloat (columns header) rows (out ++ [a]) = .ok out' ↔ _
          rw [ih htail]
          refine and_congr_right fun _ => ⟨?_, ?_⟩
          · rintro ⟨as, has, rfl⟩
            exact ⟨a :: as, by rw [has, List.map_cons], by rw [List.append_assoc]; rfl⟩
          · rintro ⟨as, has, rfl⟩
            cases as with
            | nil => simp at has
            | cons b as =>
              rw [List.map_cons, List.cons.injEq] at has
              obtain rfl := Option.some.inj has.1
              exact ⟨as, has.2, by rw [List.append_assoc]; rfl⟩

/-- The loop fails for the text or for a number. -/
theorem readRows_error (hcols : ∀ k ∈ required, k ∈ header) {rows : List (Option Record)}
    (hwidth : ∀ row, some row ∈ rows → row.length = header.length) {out : List Airport} {e : ParseErr}
    (h : readRows parseFloat (columns header) rows out = .error e) : e = .csv ∨ e = .number := by
  induction rows generalizing out with
  | nil => cases h
  | cons r rows ih =>
    have htail : ∀ row, some row ∈ rows → row.length = header.length := fun row hrow =>
      hwidth row (List.mem_cons_of_mem r hrow)
    cases r with
    | none =>
      cases h
      exact Or.inl rfl
    | some row =>
      rw [readRows, readRow_eq parseFloat hcols (hwidth row List.mem_cons_self)] at h
      cases hq : qualifies header row with
      | false =>
        rw [hq] at h
        exact ih htail h
      | true =>
        rw [hq, if_pos rfl] at h
        cases ha : airportOf parseFloat header row with
        | none =>
          rw [ha] at h
          cases h
          exact Or.inr rfl
        | some a =>
          rw [ha] at h
          exact ih htail h

end Rows

/-- What validation asks of one record. -/
structure Sound (a : Airport) : Prop where
  ident : a.ident ≠ []
  name : a.name ≠ []
  country : usCountry a.country = true
  lat : a.lat.outside 90 = false
  lng : a.lng.outside 180 = false

/-- **What validation accepts**: sound records with identifiers of their own. -/
theorem validate_iff {seen : List Text} {as : List Airport} : validate seen as = .ok () ↔
    (∀ a ∈ as, Sound a ∧ a.ident ∉ seen) ∧ (as.map (·.ident)).Nodup := by
  induction as generalizing seen with
  | nil => simp [validate]
  | cons a as ih =>
    rw [validate, List.map_cons, List.nodup_cons, List.forall_mem_cons]
    split_ifs with hbad
    · refine iff_of_false (fun h => by cases h) ?_
      rintro ⟨⟨⟨⟨h₁, h₂, h₃, h₄, h₅⟩, hseen⟩, -⟩, -⟩
      simp [h₁, h₂, h₃, h₄, h₅, hseen] at hbad
    · simp only [Bool.or_eq_true, decide_eq_true_eq, Bool.not_eq_true', not_or, Bool.not_eq_false,
        Bool.not_eq_true] at hbad
      obtain ⟨⟨⟨⟨⟨h₁, h₂⟩, hseen⟩, h₃⟩, h₄⟩, h₅⟩ := hbad
      rw [ih]
      constructor
      · rintro ⟨hall, hnodup⟩
        refine ⟨⟨⟨⟨h₁, h₂, h₃, h₄, h₅⟩, hseen⟩, fun b hb => ?_⟩, ?_, hnodup⟩
        · obtain ⟨hb', hnot⟩ := hall b hb
          exact ⟨hb', fun hmem => hnot (List.mem_cons_of_mem _ hmem)⟩
        · intro hmem
          obtain ⟨b, hb, hid⟩ := List.mem_map.mp hmem
          exact (hall b hb).2 (hid ▸ List.mem_cons_self)
      · rintro ⟨⟨-, hall⟩, hnot, hnodup⟩
        refine ⟨fun b hb => ⟨(hall b hb).1, ?_⟩, hnodup⟩
        intro hmem
        rcases List.mem_cons.mp hmem with hid | hmem
        · exact hnot (hid ▸ List.mem_map_of_mem hb)
        · exact (hall b hb).2 hmem

theorem validate_error {seen : List Text} {as : List Airport} {e : ParseErr}
    (h : validate seen as = .error e) : e = .record := by
  induction as generalizing seen with
  | nil => cases h
  | cons a as ih =>
    rw [validate] at h
    split_ifs at h with hbad
    · cases h
      rfl
    · exact ih h

/-! ### The source -/

section Parse

variable {parseFloat : Text → Option Float64} {sort : List Airport → List Airport} {csv : Csv}

theorem parse_missing (h : ¬ ∀ k ∈ required, k ∈ csv.header) :
    ∃ k, parse parseFloat sort (some csv) = .error (.missingColumn k) := by
  push Not at h
  obtain ⟨k, hk, hnot⟩ := h
  have hnone : (columns csv.header k).isNone = true := by
    rw [← Option.not_isSome, Bool.not_eq_true', ← Bool.not_eq_true, columns_isSome]
    exact hnot
  rw [parse]
  cases hfind : required.find? fun k => (columns csv.header k).isNone with
  | none => exact absurd hnone (List.find?_eq_none.mp hfind k hk)
  | some k' => exact ⟨k', rfl⟩

theorem parse_columns (h : ∀ k ∈ required, k ∈ csv.header) : parse parseFloat sort (some csv) =
    match readRows parseFloat (columns csv.header) csv.rows [] with
    | .error e => .error e
    | .ok as =>
      match validate [] as with
      | .error e => .error e
      | .ok () => .ok (sort as) := by
  have hfind : (required.find? fun k => (columns csv.header k).isNone) = none := by
    refine List.find?_eq_none.mpr fun k hk => ?_
    rw [← Option.not_isSome, columns_isSome.mpr (h k hk)]
    exact Bool.false_ne_true
  rw [parse]
  simp only [hfind, bind, Except.bind]
  cases readRows parseFloat (columns csv.header) csv.rows [] with
  | error e => rfl
  | ok as =>
    dsimp only
    cases validate [] as <;> rfl

/-- **When `parse` succeeds.** -/
theorem parse_iff {out : List Airport} : parse parseFloat sort (some csv) = .ok out ↔
    (∀ k ∈ required, k ∈ csv.header) ∧ none ∉ csv.rows ∧
      ∃ as, (qualifying csv.header csv.rows).map (airportOf parseFloat csv.header) = as.map some ∧
        (∀ a ∈ as, Sound a) ∧ (as.map (·.ident)).Nodup ∧ out = sort as := by
  by_cases hcols : ∀ k ∈ required, k ∈ csv.header
  · rw [parse_columns hcols]
    have hrows (as : List Airport) : readRows parseFloat (columns csv.header) csv.rows [] = .ok as ↔ _ :=
      readRows_eq hcols csv.width
    simp only [List.nil_append] at hrows
    constructor
    · intro h
      cases hread : readRows parseFloat (columns csv.header) csv.rows [] with
      | error e => rw [hread] at h; cases h
      | ok as =>
        obtain ⟨hnone, as', has, rfl⟩ := (hrows as).mp hread
        cases hvalid : validate [] as with
        | error e => rw [hread] at h; simp only [hvalid] at h; cases h
        | ok u =>
          rw [hread] at h
          simp only [hvalid] at h
          obtain ⟨hsound, hnodup⟩ := validate_iff.mp hvalid
          exact ⟨hcols, hnone, as, has, fun a ha => (hsound a ha).1, hnodup, (Except.ok.inj h).symm⟩
    · rintro ⟨-, hnone, as, has, hsound, hnodup, rfl⟩
      rw [(hrows as).mpr ⟨hnone, as, has, rfl⟩]
      have hvalid : validate [] as = .ok () :=
        validate_iff.mpr ⟨fun a ha => ⟨hsound a ha, List.not_mem_nil⟩, hnodup⟩
      simp only [hvalid]
  · obtain ⟨k, hk⟩ : ∃ k, parse parseFloat sort (some csv) = .error (.missingColumn k) :=
      parse_missing hcols
    rw [hk]
    exact iff_of_false (fun h => by cases h) fun h => hcols h.1

/-- **No index is out of range.** -/
theorem parse_in_range (input : Option Csv) : parse parseFloat sort input ≠ .error .outOfRange := by
  cases input with
  | none => exact fun h => by cases h
  | some csv =>
    by_cases hcols : ∀ k ∈ required, k ∈ csv.header
    · rw [parse_columns hcols]
      cases hread : readRows parseFloat (columns csv.header) csv.rows [] with
      | error e =>
        intro h
        obtain rfl := Except.error.inj h
        rcases readRows_error hcols csv.width hread with he | he <;> cases he
      | ok as =>
        cases hvalid : validate [] as with
        | error e =>
          simp only [hvalid]
          intro h
          obtain rfl := Except.error.inj h
          cases validate_error hvalid
        | ok u => simp [hvalid]
    · obtain ⟨k, hk⟩ := parse_missing hcols
      rw [hk]
      exact fun h => by cases h

/-! ### The contract -/

/-- A coordinate that is missing, not a number, infinite or out of its range. -/
def Misplaced (bound : ℚ) : Option Float64 → Prop
  | none => True
  | some .nan => True
  | some (.inf _) => True
  | some (.finite x) => x < -bound ∨ bound < x

/-- A row that cannot be taken. -/
def Faulty (parseFloat : Text → Option Float64) (header row : Record) : Prop :=
  Misplaced 90 (parseFloat (field header row (text "latitude_deg"))) ∨
    Misplaced 180 (parseFloat (field header row (text "longitude_deg"))) ∨
    field header row (text "ident") = [] ∨ field header row (text "name") = []

/-- **What `parse` has to refuse.** -/
def Rejected (parseFloat : Text → Option Float64) (csv : Csv) : Prop :=
  (∃ k ∈ required, k ∉ csv.header) ∨ none ∈ csv.rows ∨
    (∃ row ∈ qualifying csv.header csv.rows, Faulty parseFloat csv.header row) ∨
    ¬ ((qualifying csv.header csv.rows).map fun row => field csv.header row (text "ident")).Nodup

/-- `Read` failed, or the row qualifies. -/
def kept (header : Record) : Option Record → Bool
  | none => true
  | some row => qualifies header row

theorem misplaced_iff {bound : ℚ} {x : Float64} : Misplaced bound (some x) ↔ x.outside bound = true := by
  cases x with
  | nan => simp [Misplaced, Float64.outside]
  | inf _ => simp [Misplaced, Float64.outside]
  | finite x =>
    simp only [Misplaced, Float64.outside, decide_eq_true_eq, lt_abs]
    rw [or_comm, lt_neg]

theorem qualifies_of_mem {header : Record} {rows : List (Option Record)} {row : Record}
    (h : row ∈ qualifying header rows) : qualifies header row = true := by
  obtain ⟨r, -, hr⟩ := List.mem_filterMap.mp h
  exact (Option.filter_eq_some_iff.mp hr).2

/-- A qualifying row that is not faulty has a sound record, and the other way round. -/
theorem sound_iff {header row : Record} (hq : qualifies header row = true) :
    (∃ a, airportOf parseFloat header row = some a ∧ Sound a) ↔ ¬ Faulty parseFloat header row := by
  have hcountry : usCountry (field header row (text "iso_country")) = true := by
    simp only [qualifies, Bool.and_eq_true] at hq
    exact hq.1.1
  unfold airportOf Faulty
  cases parseFloat (field header row (text "latitude_deg")) with
  | none => simp [Misplaced]
  | some lat =>
    cases parseFloat (field header row (text "longitude_deg")) with
    | none => simp [Misplaced]
    | some lng =>
      simp only [misplaced_iff, not_or, Bool.not_eq_true]
      constructor
      · rintro ⟨a, ha, hs⟩
        obtain rfl := Option.some.inj ha
        exact ⟨hs.lat, hs.lng, hs.ident, hs.name⟩
      · rintro ⟨hlat, hlng, hident, hname⟩
        exact ⟨_, rfl, hident, hname, hcountry, hlat, hlng⟩

theorem airportOf_ident {header row : Record} {a : Airport} (h : airportOf parseFloat header row = some a) :
    a.ident = field header row (text "ident") := by
  unfold airportOf at h
  cases hlat : parseFloat (field header row (text "latitude_deg")) with
  | none => rw [hlat] at h; cases h
  | some lat =>
    cases hlng : parseFloat (field header row (text "longitude_deg")) with
    | none => rw [hlat, hlng] at h; cases h
    | some lng =>
      rw [hlat, hlng] at h
      rw [← Option.some.inj h]

/-- The records of rows that all have one. -/
theorem exists_map_some {α β : Type} {f : α → Option β} :
    ∀ {l : List α}, (∀ x ∈ l, ∃ y, f x = some y) → ∃ ys : List β, l.map f = ys.map some
  | [], _ => ⟨[], rfl⟩
  | x :: l, h => by
    obtain ⟨y, hy⟩ := h x List.mem_cons_self
    obtain ⟨ys, hys⟩ := exists_map_some fun x' hx' => h x' (List.mem_cons_of_mem x hx')
    exact ⟨y :: ys, by rw [List.map_cons, hy, hys, List.map_cons]⟩

theorem idents_eq {header : Record} {rows : List Record} {as : List Airport}
    (h : rows.map (airportOf parseFloat header) = as.map some) :
    as.map (·.ident) = rows.map fun row => field header row (text "ident") := by
  induction rows generalizing as with
  | nil => rw [List.map_eq_nil_iff.mp h.symm]; rfl
  | cons row rows ih =>
    cases as with
    | nil => cases h
    | cons a as =>
      rw [List.map_cons, List.map_cons, List.cons.injEq] at h
      rw [List.map_cons, List.map_cons, ih h.2, airportOf_ident h.1]

/-- **`parse` refuses what it has to refuse**, and nothing else. -/
theorem rejected_iff : (∃ e, parse parseFloat sort (some csv) = .error e) ↔ Rejected parseFloat csv := by
  have hok : (∃ out, parse parseFloat sort (some csv) = .ok out) ↔ ¬ Rejected parseFloat csv := by
    constructor
    · rintro ⟨out, hout⟩ hbad
      obtain ⟨hcols, hnone, as, has, hsound, hnodup, -⟩ := parse_iff.mp hout
      rcases hbad with ⟨k, hk, hnot⟩ | hmem | ⟨row, hrow, hfaulty⟩ | hdup
      · exact hnot (hcols k hk)
      · exact hnone hmem
      · have hmem : airportOf parseFloat csv.header row ∈ as.map some := has ▸ List.mem_map_of_mem hrow
        obtain ⟨a, ha, hrecord⟩ := List.mem_map.mp hmem
        exact (sound_iff (qualifies_of_mem hrow)).mp ⟨a, hrecord.symm, hsound a ha⟩ hfaulty
      · exact hdup (idents_eq has ▸ hnodup)
    · intro h
      unfold Rejected at h
      push Not at h
      obtain ⟨hcols, hnone, hfaulty, hnodup⟩ := h
      have hrecord : ∀ row ∈ qualifying csv.header csv.rows,
          ∃ a, airportOf parseFloat csv.header row = some a ∧ Sound a := fun row hrow =>
        (sound_iff (qualifies_of_mem hrow)).mpr (hfaulty row hrow)
      obtain ⟨as, has⟩ := exists_map_some fun row hrow => (hrecord row hrow).imp fun a ha => ha.1
      refine ⟨sort as, parse_iff.mpr ⟨hcols, hnone, as, has, fun a ha => ?_, ?_, rfl⟩⟩
      · have hmem : some a ∈ (qualifying csv.header csv.rows).map (airportOf parseFloat csv.header) :=
          has ▸ List.mem_map_of_mem ha
        obtain ⟨row, hrow, hra⟩ := List.mem_map.mp hmem
        obtain ⟨b, hb, hsound⟩ := hrecord row hrow
        rw [hra, Option.some.injEq] at hb
        exact hb ▸ hsound
      · rw [idents_eq has]
        exact hnodup
  rw [← not_iff_not, ← hok]
  cases parse parseFloat sort (some csv) with
  | error e => simp
  | ok out => simp

theorem qualifying_filter (header : Record) (rows : List (Option Record)) :
    qualifying header (rows.filter (kept header)) = qualifying header rows := by
  rw [qualifying, qualifying, List.filterMap_filter]
  refine List.filterMap_congr fun r _ => ?_
  cases r with
  | none => rfl
  | some row => cases hq : qualifies header row <;> simp [kept, Option.filter, hq]

theorem less_iff (a b : Airport) : less a b = true ↔ a.ident < b.ident := decide_eq_true_iff

/-- **Rows in another order**, and other rows that do not qualify, give the same list. -/
theorem parse_congr {csv' : Csv} (hsort : ∀ l, Sorted less l (sort l)) (hheader : csv.header = csv'.header)
    (hrows : (csv.rows.filter (kept csv.header)).Perm (csv'.rows.filter (kept csv'.header)))
    {out : List Airport} (h : parse parseFloat sort (some csv) = .ok out) :
    parse parseFloat sort (some csv') = .ok out := by
  obtain ⟨hcols, hnone, as, has, hsound, hnodup, rfl⟩ := parse_iff.mp h
  have hqs : (qualifying csv.header csv.rows).Perm (qualifying csv'.header csv'.rows) := by
    rw [← qualifying_filter csv.header, ← qualifying_filter csv'.header, ← hheader] at *
    exact hrows.filterMap _
  have hmap := hqs.map (airportOf parseFloat csv.header)
  rw [has, hheader] at hmap
  obtain ⟨as', has'⟩ : ∃ as' : List Airport,
      (qualifying csv'.header csv'.rows).map (airportOf parseFloat csv'.header) = as'.map some := by
    refine exists_map_some fun row hrow => ?_
    have hmem := hmap.mem_iff.mpr (List.mem_map_of_mem hrow)
    obtain ⟨a, -, ha⟩ := List.mem_map.mp hmem
    exact ⟨a, ha.symm⟩
  have hperm : as.Perm as' := by
    rw [has'] at hmap
    simpa [List.filterMap_map] using hmap.filterMap id
  refine parse_iff.mpr ⟨hheader ▸ hcols, ?_, as', has', fun a ha => ?_, ?_, ?_⟩
  · intro hmem
    have hkept : none ∈ csv'.rows.filter (kept csv'.header) := List.mem_filter.mpr ⟨hmem, rfl⟩
    exact hnone (List.mem_filter.mp (hrows.mem_iff.mpr hkept)).1
  · exact hsound a (hperm.mem_iff.mpr ha)
  · exact (hperm.map (·.ident)).nodup_iff.mp hnodup
  · exact Sorted.eq (hsort as) (hsort as') hperm less_iff hnodup

end Parse

/-- **Parsing is exact and independent of the order of the rows.** -/
theorem parse_exact (parseFloat : Text → Option Float64) (sort : List Airport → List Airport)
    (hsort : ∀ l, Sorted less l (sort l)) :
    (∀ input, parse parseFloat sort input ≠ .error .outOfRange) ∧
      (∃ e, parse parseFloat sort none = .error e) ∧
      (∀ csv, ((∃ e, parse parseFloat sort (some csv) = .error e) ↔ Rejected parseFloat csv) ∧
        ∀ out, parse parseFloat sort (some csv) = .ok out →
          (out.map some).Perm ((qualifying csv.header csv.rows).map (airportOf parseFloat csv.header)) ∧
            out.Pairwise fun a b => a.ident < b.ident) ∧
      ∀ csv csv' : Csv, csv.header = csv'.header →
        (csv.rows.filter (kept csv.header)).Perm (csv'.rows.filter (kept csv'.header)) →
        (∃ out, parse parseFloat sort (some csv) = .ok out ∧ parse parseFloat sort (some csv') = .ok out) ∨
          ∃ e e', parse parseFloat sort (some csv) = .error e ∧
            parse parseFloat sort (some csv') = .error e' := by
  refine ⟨parse_in_range, ⟨.csv, rfl⟩, fun csv => ⟨rejected_iff, fun out hout => ?_⟩, ?_⟩
  · obtain ⟨-, -, as, has, -, hnodup, rfl⟩ := parse_iff.mp hout
    refine ⟨has ▸ (hsort as).perm.map some, ?_⟩
    have hle := (hsort as).pairwise less_iff
    have hne : (sort as).Pairwise fun a b => a.ident ≠ b.ident := by
      rw [← List.pairwise_map (f := Airport.ident)]
      exact ((hsort as).perm.map _).nodup_iff.mpr hnodup
    exact (hle.and hne).imp fun hab => lt_of_le_of_ne hab.1 hab.2
  · intro csv csv' hheader hrows
    cases hp : parse parseFloat sort (some csv) with
    | ok out => exact Or.inl ⟨out, rfl, parse_congr hsort hheader hrows hp⟩
    | error e =>
      cases hp' : parse parseFloat sort (some csv') with
      | error e' => exact Or.inr ⟨e, e', rfl, rfl⟩
      | ok out' =>
        have hback := parse_congr hsort hheader.symm hrows.symm hp'
        rw [hp] at hback
        cases hback

/-- Insertion by identifier is a sort the source could use. -/
theorem sorted_insertionSort (l : List Airport) :
    Sorted less l (l.insertionSort fun a b => a.ident ≤ b.ident) := by
  have : Std.Total fun a b : Airport => a.ident ≤ b.ident := ⟨fun a b => le_total a.ident b.ident⟩
  have : IsTrans Airport fun a b => a.ident ≤ b.ident := ⟨fun _ _ _ => le_trans⟩
  refine ⟨List.perm_insertionSort _ l, (List.pairwise_insertionSort _ l).imp fun {a b} hab => ?_⟩
  rw [← Bool.not_eq_true, less_iff]
  exact not_lt.mpr hab

/-- Two airports that qualify and one that does not. -/
def seattle : Record :=
  [text "KSEA", text "SEA", text "Seattle Tacoma", text "Seattle", text "US-WA", text "US",
    text "large_airport", text "47.45", text "-122.31", text "yes"]

def sanJuan : Record :=
  [text "TJSJ", text "SJU", text "San Juan", text "San Juan", text "PR-U-A", text "PR",
    text "large_airport", text "18.4", text "-66.0", text "yes"]

def vancouver : Record :=
  [text "CYVR", text "YVR", text "Vancouver", text "Vancouver", text "CA-BC", text "CA",
    text "large_airport", text "49", text "-123", text "yes"]

def degrees (t : Text) : Option Float64 :=
  [(text "47.45", 949 / 20), (text "-122.31", -12231 / 100), (text "18.4", 92 / 5),
    (text "-66.0", -66)].lookup t |>.map .finite

def threeRows : Csv := ⟨required, [some seattle, some vancouver, some sanJuan], by simp; decide +kernel⟩

def twoRows : Csv := ⟨required, [some sanJuan, some seattle], by simp; decide +kernel⟩

theorem parse_exact_threeRows :
    let sort := List.insertionSort fun a b : Airport => a.ident ≤ b.ident
    ∃ out, parse degrees sort (some threeRows) = .ok out ∧ parse degrees sort (some twoRows) = .ok out ∧
      out.Pairwise fun a b => a.ident < b.ident := by
  intro sort
  obtain ⟨-, -, hrows, hsame⟩ := parse_exact degrees sort sorted_insertionSort
  have hkept : (threeRows.rows.filter (kept threeRows.header)).Perm
      (twoRows.rows.filter (kept twoRows.header)) := by
    decide +kernel
  rcases hsame threeRows twoRows rfl hkept with ⟨out, hthree, htwo⟩ | ⟨e, -, he, -⟩
  · exact ⟨out, hthree, htwo, ((hrows threeRows).2 out hthree).2⟩
  · have hok : (parse degrees sort (some threeRows)).isOk = true := by decide +kernel
    rw [he] at hok
    cases hok

end Afterglow.Airports.Exact
