import Mathlib
import Afterglow.Foottraffic.Store
import Afterglow.Slices.Sorting

/-! # The text of a batch determines the batch

`json.Marshal` writes the batch field by field. A field that holds no quotation mark ends at the next
one, a number ends where its digits do, so the text can be read back in one way (`marshal_inj`). A
batch that passed validation has such fields. -/

namespace Afterglow.Foottraffic.Fingerprint

open Afterglow.Sql.Select Afterglow.Slices.Sorting Afterglow.Foottraffic.Model Afterglow.Foottraffic.Store

/-! ### Delimited text -/

/-- A field that ends at the first `c`. -/
theorem field_inj {α : Type} {c : α} : ∀ {a b x y : List α}, c ∉ a → c ∉ b →
    a ++ c :: x = b ++ c :: y → a = b ∧ x = y
  | [], [], _, _, _, _, h => ⟨rfl, (List.cons.inj h).2⟩
  | [], d :: _, _, _, _, hb, h => by
    have hd : c = d := (List.cons.inj h).1
    exact absurd (hd ▸ List.mem_cons_self) hb
  | d :: _, [], _, _, ha, _, h => by
    have hd : d = c := (List.cons.inj h).1
    exact absurd (hd ▸ List.mem_cons_self) ha
  | d :: a, d' :: b, x, y, ha, hb, h => by
    obtain ⟨hd, htail⟩ := List.cons.inj h
    have hrest := field_inj (fun hc => ha (List.mem_cons_of_mem d hc))
      (fun hc => hb (List.mem_cons_of_mem d' hc)) htail
    exact ⟨by rw [hd, hrest.1], hrest.2⟩

/-- The characters of a number. -/
theorem mem_toString {n : Int} {c : Char} (h : c ∈ (toString n).toList) : c.isDigit = true ∨ c = '-' := by
  have hnat (m : ℕ) (h : c ∈ m.repr.toList) : c.isDigit = true := by
    rw [Nat.toList_repr] at h
    exact Nat.isDigit_of_mem_toDigits (by decide) (by decide) h
  cases n with
  | ofNat m => exact Or.inl (hnat m h)
  | negSucc m =>
    have h' : c ∈ ("-" ++ (m + 1).repr).toList := h
    rw [String.toList_append, List.mem_append] at h'
    rcases h' with h' | h'
    · exact Or.inr (by simpa using h')
    · exact Or.inl (hnat (m + 1) h')

theorem notMem_toString {n : Int} {c : Char} (hd : c.isDigit = false) (hc : c ≠ '-') :
    c ∉ (toString n).toList := by
  intro h
  rcases mem_toString h with h | h
  · rw [hd] at h; cases h
  · exact hc h

theorem field_append (text value : String) (stop : Char) (x : List Char) :
    (field text value stop).toList ++ x = text.toList ++ (value.toList ++ stop :: x) := by
  simp [field]

/-- **A field is read back from the front of a text.** -/
theorem read_field {text value value' : String} {stop : Char} {x y : List Char}
    (hv : stop ∉ value.toList) (hv' : stop ∉ value'.toList)
    (h : (field text value stop).toList ++ x = (field text value' stop).toList ++ y) :
    value = value' ∧ x = y := by
  rw [field_append, field_append, List.append_cancel_left_eq] at h
  obtain ⟨hvalue, hrest⟩ := field_inj hv hv' h
  exact ⟨String.toList_inj.mp hvalue, hrest⟩

/-! ### Windows -/

/-- The text holds no quotation mark. -/
def plain (s : String) : Prop := '"' ∉ s.toList

theorem read_window {w w' : Window} (hw : plain w.zone) (hw' : plain w'.zone) {x y : List Char}
    (h : (marshalWindow w).toList ++ x = (marshalWindow w').toList ++ y) : w = w' ∧ x = y := by
  simp only [marshalWindow, String.toList_append, List.append_assoc] at h
  obtain ⟨hzone, h⟩ := read_field hw hw' h
  obtain ⟨hstart, h⟩ := read_field (notMem_toString (by decide) (by decide))
    (notMem_toString (by decide) (by decide)) h
  obtain ⟨hcount, hrest⟩ := read_field (notMem_toString (by decide) (by decide))
    (notMem_toString (by decide) (by decide)) h
  refine ⟨?_, hrest⟩
  cases w
  cases w'
  simp only [Window.mk.injEq]
  exact ⟨hzone, Int.repr_injective hstart, Int.repr_injective hcount⟩

theorem read_more : ∀ {ws ws' : List Window} {x y : List Char}, (∀ w ∈ ws, plain w.zone) →
    (∀ w ∈ ws', plain w.zone) →
    (more (ws.map marshalWindow)).toList ++ ']' :: x = (more (ws'.map marshalWindow)).toList ++ ']' :: y →
    ws = ws'
  | [], [], _, _, _, _, _ => rfl
  | [], w :: ws, _, _, _, _, h => by simp [more] at h
  | w :: ws, [], _, _, _, _, h => by simp [more] at h
  | w :: ws, w' :: ws', x, y, hws, hws', h => by
    simp only [List.map_cons, more, String.toList_append, List.append_assoc,
      List.append_cancel_left_eq] at h
    obtain ⟨hw, hrest⟩ := read_window (hws w List.mem_cons_self) (hws' w' List.mem_cons_self) h
    have htail := read_more (fun u hu => hws u (List.mem_cons_of_mem w hu))
      (fun u hu => hws' u (List.mem_cons_of_mem w' hu)) hrest
    rw [hw, htail]

/-- A list of windows ends at its closing bracket. -/
theorem read_commas {w w' : Window} {ws ws' : List Window} {x y : List Char}
    (hws : ∀ u ∈ w :: ws, plain u.zone) (hws' : ∀ u ∈ w' :: ws', plain u.zone)
    (h : (commas ((w :: ws).map marshalWindow)).toList ++ ']' :: x =
      (commas ((w' :: ws').map marshalWindow)).toList ++ ']' :: y) : w :: ws = w' :: ws' := by
  simp only [List.map_cons, commas, String.toList_append, List.append_assoc] at h
  obtain ⟨hw, hrest⟩ := read_window (hws w List.mem_cons_self) (hws' w' List.mem_cons_self) h
  have htail := read_more (fun u hu => hws u (List.mem_cons_of_mem w hu))
    (fun u hu => hws' u (List.mem_cons_of_mem w' hu)) hrest
  rw [hw, htail]

/-! ### Batches -/

/-- The batch has windows, and its texts hold no quotation mark. -/
structure Plain (b : Batch) : Prop where
  id : plain b.id
  source : plain b.source
  zones : ∀ w ∈ b.windows, plain w.zone
  windows : b.windows ≠ []

/-- **The text of a batch determines it.** -/
theorem marshal_inj {b b' : Batch} (hb : Plain b) (hb' : Plain b') (h : marshal b = marshal b') :
    b = b' := by
  have h := congrArg String.toList h
  simp only [marshal, String.toList_append, List.append_assoc] at h
  obtain ⟨hid, h⟩ := read_field hb.id hb'.id h
  obtain ⟨hsource, h⟩ := read_field hb.source hb'.source h
  rw [field_append, field_append, List.append_cancel_left_eq] at h
  obtain ⟨w, ws, hws⟩ := List.exists_cons_of_ne_nil hb.windows
  obtain ⟨w', ws', hws'⟩ := List.exists_cons_of_ne_nil hb'.windows
  have hz := hb.zones
  have hz' := hb'.zones
  rw [hws] at hz h
  rw [hws'] at hz' h
  have hwindows := read_commas hz hz' h
  cases b
  cases b'
  simp only [Batch.mk.injEq]
  exact ⟨hid, hsource, hws.trans (hwindows.trans hws'.symm)⟩

/-! ### What validation gives -/

/-- The key of a window within a tenant's feed. -/
def slot (w : Window) : String × Int := (w.zone, w.start)

/-- **What every accepted batch is**, whenever it is accepted. -/
structure WellFormed (b : Batch) : Prop where
  id : identity b.id = true
  source : b.source = Model.source
  windows : b.windows ≠ []
  ok : ∀ w ∈ b.windows, windowOk w = true
  slots : (b.windows.map slot).Nodup

theorem canonical_perm (b : Batch) : (canonical b).windows.Perm b.windows := orderBy_perm _ _

theorem mem_canonical {b : Batch} {w : Window} : w ∈ (canonical b).windows ↔ w ∈ b.windows :=
  (canonical_perm b).mem_iff

/-- **What the loop accepts**: windows that are all in order, no two neighbours of one slot. -/
theorem validWindows_iff {stop : Int} : ∀ {ws : List Window} {last : Option Window},
    validWindows stop last ws = true ↔
      (∀ w ∈ ws, windowOk w = true ∧ within stop w = true) ∧
        (last.toList ++ ws).IsChain fun v w => slot v ≠ slot w
  | [], last => by cases last <;> simp [validWindows]
  | w :: ws, last => by
    have hslot : (last.any fun v => v.zone = w.zone ∧ v.start = w.start) = true ↔
        ∃ v, last = some v ∧ slot v = slot w := by
      cases last <;> simp [slot]
    have hchain : (last.toList ++ w :: ws).IsChain (fun v w => slot v ≠ slot w) ↔
        (¬ ∃ v, last = some v ∧ slot v = slot w) ∧ ((some w).toList ++ ws).IsChain
          fun v w => slot v ≠ slot w := by
      cases last with
      | none => simp
      | some v => simp [List.isChain_cons_cons]
    rw [validWindows, hchain, List.forall_mem_cons]
    split_ifs with hok hlast
    · simp only [Bool.not_eq_true', Bool.and_eq_false_iff] at hok
      simp only [false_iff]
      rintro ⟨⟨⟨h₁, h₂⟩, -⟩, -⟩
      rw [h₁, h₂] at hok
      simp at hok
    · simp only [false_iff]
      exact fun h => h.2.1 (hslot.mp hlast)
    · simp only [Bool.not_eq_true, Bool.not_eq_false', Bool.and_eq_true] at hok
      rw [validWindows_iff, and_iff_right hok, and_iff_right fun h => hlast (hslot.mpr h)]

/-- The sort key and the slot of a window say the same. -/
theorem nodup_slots {ws : List Window} :
    (ws.map slot).Nodup ↔ (ws.map fun w => toLex (w.start, w.zone)).Nodup := by
  simp only [List.nodup_iff_pairwise_ne, List.pairwise_map]
  refine List.Pairwise.iff fun {v w} => ?_
  simp only [ne_eq, slot, Prod.mk.injEq, toLex_inj]
  tauto

/-- **What the loop accepts of sorted windows**: no slot is used twice. -/
theorem validWindows_sorted {stop : Int} {ws : List Window}
    (hsort : ws.Pairwise fun v w => toLex (v.start, v.zone) ≤ toLex (w.start, w.zone)) :
    validWindows stop none ws = true ↔
      (∀ w ∈ ws, windowOk w = true ∧ within stop w = true) ∧ (ws.map slot).Nodup := by
  rw [validWindows_iff, nodup_slots]
  refine and_congr_right fun _ => ⟨fun hchain => ?_, fun hnodup => ?_⟩
  · refine nodup_of_neighbours hsort (hchain.imp fun {v w} hvw heq => hvw ?_)
    have hpair : (v.start, v.zone) = (w.start, w.zone) := heq
    exact Prod.ext (congrArg Prod.snd hpair) (congrArg Prod.fst hpair)
  · exact neighbours_of_nodup (nodup_slots.mpr hnodup)

theorem wellFormed_of_valid {tenant : String} {b : Batch} {now : Int} (h : valid tenant b now = true) :
    WellFormed b := by
  rw [valid, Bool.and_eq_true] at h
  obtain ⟨hhead, hwindows⟩ := h
  simp only [validHead, Bool.and_eq_true, beq_iff_eq, Bool.not_eq_true', Bool.or_eq_false_iff,
    decide_eq_false_iff_not] at hhead
  have hsort : (canonical b).windows.Pairwise fun v w =>
      toLex (v.start, v.zone) ≤ toLex (w.start, w.zone) := pairwise_orderBy _ b.windows
  obtain ⟨hok, hslots⟩ := (validWindows_sorted hsort).mp hwindows
  refine ⟨hhead.1.1.2, hhead.1.2, fun hnil => hhead.2.1 ?_, fun w hw => (hok w (mem_canonical.mpr hw)).1, ?_⟩
  · rw [hnil]; decide
  · exact ((canonical_perm b).map slot).nodup_iff.mp hslots

/-! ### Fingerprints -/

theorem plain_of_identity {s : String} (h : identity s = true) : plain s := by
  simp only [identity, Bool.and_eq_true, List.all_eq_true] at h
  intro hq
  have hall := h.2 _ hq
  revert hall
  decide

theorem plain_of_windowOk {w : Window} (h : windowOk w = true) : plain w.zone := by
  rw [windowOk, Bool.and_eq_true, List.any_eq_true] at h
  obtain ⟨z, hz, hzone⟩ := h.1
  rw [← of_decide_eq_true hzone]
  have hall : ∀ z ∈ zones, '"' ∉ z.id.toList := by decide
  exact hall z hz

theorem WellFormed.plain {b : Batch} (h : WellFormed b) : Plain (canonical b) where
  id := plain_of_identity h.id
  source := by
    have hs : (canonical b).source = Model.source := h.source
    rw [hs]
    exact plain_of_identity (by decide)
  zones w hw := plain_of_windowOk (h.ok w (mem_canonical.mp hw))
  windows hnil := h.windows (List.perm_nil.mp (hnil ▸ (canonical_perm b).symm))

/-- **Batches with one fingerprint** have the same identifier and the same windows. -/
theorem eq_of_fingerprint {sha256 : String → String} (hsha : ∀ x y, sha256 x = sha256 y → x = y)
    {b b' : Batch} (hb : WellFormed b) (hb' : WellFormed b')
    (h : fingerprint sha256 b = fingerprint sha256 b') : canonical b = canonical b' :=
  marshal_inj hb.plain hb'.plain (hsha _ _ h)

end Afterglow.Foottraffic.Fingerprint
