import Afterglow.Console.Wire

/-! # A live proof is resumed, not repeated

The page is interrupted between any request and the save that records it, and builds its payloads anew
from reservations it fetches again. That this comes to the same every time rests on both sides. The server
keeps the identity of a reservation, what `mark` reads of it, for as long as its key is known
(`identity_call`), and the page builds a receipt from nothing else (`receiptAt`). So every record of the
page, in memory or saved, every request it ever sent and every delivery of its events agree with the store
(`Agrees`), and a step keeps that. -/

namespace Afterglow.Console.Resume

open Afterglow.Sql.Rows Afterglow.Sql.Txn Afterglow.Core.Model Afterglow.Core.Statements
open Afterglow.Core.Store Afterglow.Core.Outcome Afterglow.Core.Run Afterglow.Core.Ledger
open Afterglow.Core.Settlement Afterglow.Core.Keys Afterglow.Core.Receipts Afterglow.Core.Admission
open Afterglow.Core.Reports Afterglow.Httpapi.Batch Afterglow.Console.Proof
open Afterglow.Console.Wire

/-! ### What a receipt is built from -/

/-- The part of a reservation that goes into a receipt. -/
def mark (r : Reservation) : String × String × Int := (r.id, r.screen, r.created)

/-- The reservation a receipt names, by its place in the plan. -/
def holdOf : Fin 4 → Fin 2
  | 0 => 0
  | 1 => 0
  | 2 => 1
  | 3 => 1

def versionOf : Fin 4 → Int
  | 2 => 99
  | _ => 1

/-- Receipt `i` of the plan. -/
def receiptAt (P : Plan) (i : Fin 4) (m : String × String × Int) : Receipt :=
  ⟨versionOf i, P.events i, m.1, m.2.1, m.2.2 + 1, 10000⟩

def payloadAt (P : Plan) (m₀ m₁ : String × String × Int) : List Receipt :=
  [receiptAt P 0 m₀, receiptAt P 1 m₀, receiptAt P 2 m₁]

section Store

variable (H : Digest) (tenant : String) (P : Plan)

/-- The identity of the reservation with key `i` of the plan. -/
def identity (s : Store) (i : Fin 2) : Option (String × String × Int) :=
  (byKey s tenant (P.keys i)).map fun row => mark row.toReservation

/-- **What the store has of the plan**: reservations of its input, and deliveries of its receipts. -/
structure Own (s : Store) : Prop where
  keyed : Keyed s
  balanced : Balanced s
  hold : ∀ i row, byKey s tenant (P.keys i) = some row →
    row.fingerprint = H.input P.input ∧ row.campaign = P.campaign ∧ row.cost = 10000
  receipt : ∀ i d, byEvent s tenant (P.events i) = some d →
    ∃ m, identity tenant P s (holdOf i) = some m ∧ d.fingerprint = H.receipt (receiptAt P i m)

/-- The identities of `s` are those of `s'`. -/
def Extends (s s' : Store) : Prop := ∀ i m, identity tenant P s i = some m → identity tenant P s' i = some m

variable {H tenant P} {s : Store}

/-- **A call keeps the identity of a reservation.** -/
theorem identity_call (h : Keyed s) (c : Call) : Extends tenant P s (c.step H s) := by
  intro i m hm
  obtain ⟨row, hrow, rfl⟩ := Option.map_eq_some_iff.mp hm
  obtain ⟨row', hrow', hstep⟩ := byKey_run (H := H) h [c] hrow
  refine Option.map_eq_some_iff.mpr ⟨row', hrow', ?_⟩
  have hid : row'.id = row.id := by rw [hstep.1]
  have hscreen : row'.screen = row.screen := by rw [hstep.1]
  have hcreated : row'.created = row.created := by rw [hstep.1]
  simp only [mark, hid, hscreen, hcreated]

/-- **A call keeps what the store has of the plan**, if it uses the keys and the events of the plan only
as the plan does. -/
theorem Own.call (h : Own H tenant P s) (c : Call)
    (hres : ∀ i inp d, c.op = .reserve tenant (P.keys i) inp d → inp = P.input)
    (hacc : ∀ i r d, c.op = .accept tenant r d → r.eventID = P.events i →
      ∃ m, identity tenant P s (holdOf i) = some m ∧ r = receiptAt P i m) :
    Own H tenant P (c.step H s) := by
  have hchange : Change H s c.op (c.step H s) := c.op.change H c.fault s
  have hext : Extends tenant P s (c.step H s) := identity_call h.keyed c
  refine ⟨h.keyed.change hchange, h.balanced.change hchange, fun i row hrow => ?_, fun i d hd => ?_⟩
  · rcases h.keyed.byKey_origin hchange hrow with ⟨row₀, hrow₀, hstep⟩ | ⟨inp, d, ho, rfl⟩
    · obtain ⟨hfp, hcamp, hcost⟩ := h.hold i row₀ hrow₀
      rw [hstep.1]
      exact ⟨hfp, hcamp, hcost⟩
    · rw [hres i inp d ho]
      exact ⟨rfl, rfl, rfl⟩
  · rcases h.keyed.byEvent_origin hchange hd with ⟨d₀, hd₀, hstep⟩ | ⟨r, e, hr, ho, rfl⟩
    · obtain ⟨m, hm, hfp⟩ := h.receipt i d₀ hd₀
      rw [hstep.1]
      exact ⟨m, hext _ m hm, hfp⟩
    · obtain ⟨m, hm, rfl⟩ := hacc i r e ho hr
      exact ⟨m, hext _ m hm, rfl⟩

theorem Own.foreign (h : Own H tenant P s) (c : Call) (hc : foreign tenant P c.op = true) :
    Own H tenant P (c.step H s) := by
  refine h.call c (fun i inp d ho => ?_) fun i r d ho hr => ?_
  · rw [ho] at hc
    simp [Proof.foreign] at hc
  · rw [ho] at hc
    simp only [Proof.foreign, true_and, Bool.not_eq_true', decide_eq_false_iff_not] at hc
    exact absurd ⟨i, hr⟩ hc

/-- **A reservation request of the plan** is no conflict, and its answer has the identity of the store. -/
theorem Own.reserve (h : Own H tenant P s) (i : Fin 2) (d : ReserveDraw) (fault : Option ℕ) :
    let x := reserveCall H tenant (P.keys i) P.input d fault s
    Own H tenant P x.2 ∧ x.1 ≠ .error .conflict ∧
      ∀ r replay, x.1 = .ok (r, replay) → identity tenant P x.2 i = some (mark r) := by
  intro x
  have hown : Own H tenant P x.2 := by
    refine h.call ⟨.reserve tenant (P.keys i) P.input d, fault⟩ (fun j inp e ho => ?_) fun j r e ho => ?_
    · simp only [Op.reserve.injEq] at ho
      exact ho.2.2.1.symm
    · cases ho
  refine ⟨hown, ?_⟩
  have hcases : ReserveOut H tenant (P.keys i) P.input d s x ∨ x = (.error (.storage .fault), s) :=
    reserveCall_cases fault
  rcases hcases with hout | hx
  · generalize x = y at hown hout ⊢
    cases hout with
    | unlocked c hc e he => rw [h.balanced.check _ c hc] at he; cases he
    | conflict r hk hf => exact absurd (h.hold i r hk).1 hf
    | replayed c r hv hc hk hf =>
      refine ⟨nofun, fun r' replay hr' => ?_⟩
      cases hr'
      exact Option.map_eq_some_iff.mpr ⟨r, hk, rfl⟩
    | undebited c hc hv hk hb e he =>
      rw [h.balanced.debit_check hc (cost_of_valid hv) hb] at he
      cases he
    | made c hv hc hk hs hb hck hid ha =>
      refine ⟨nofun, fun r' replay hr' => ?_⟩
      cases hr'
      have hmem : newReservation H tenant (P.keys i) P.input d ∈
          s.reservations.put (newReservation H tenant (P.keys i) P.input d) :=
        Table.mem_put.mpr (Or.inl rfl)
      exact Option.map_eq_some_iff.mpr ⟨_, hown.keyed.byKey_of_mem hmem, rfl⟩
    | _ => exact ⟨nofun, nofun⟩
  · rw [hx]
    exact ⟨nofun, nofun⟩

/-- **A receipt of the plan** is no conflict. -/
theorem Own.accept (h : Own H tenant P s) (hP : Function.Injective P.events) {i : Fin 4}
    {m : String × String × Int} (hm : identity tenant P s (holdOf i) = some m) (d : AcceptDraw)
    (fault : Option ℕ) :
    let x := acceptCall H tenant (receiptAt P i m) d fault s
    Own H tenant P x.2 ∧ x.1 ≠ .error .conflict := by
  intro x
  refine ⟨?_, ?_⟩
  · refine h.call ⟨.accept tenant (receiptAt P i m) d, fault⟩ (fun j inp e ho => ?_) fun j r e ho hr => ?_
    · cases ho
    · cases ho
      have hji : i = j := hP hr
      subst hji
      exact ⟨m, hm, rfl⟩
  · have hcases : AcceptOut H tenant (receiptAt P i m) d s x ∨ x = (.error (.storage .fault), s) :=
      acceptCall_cases H tenant (receiptAt P i m) d fault s
    rcases hcases with hout | hx
    · generalize x = y at hout ⊢
      cases hout with
      | conflict dl hv hk hf =>
        obtain ⟨m', hm', hfp⟩ := h.receipt i dl hk
        rw [hm] at hm'
        cases hm'
        exact absurd hfp hf
      | _ => nofun
    · rw [hx]
      nofun

end Store

/-! ### What the page has -/

section Page

variable (tenant : String) (P : Plan) (s : Store)

/-- The payload and the correction are those of the store. -/
def Built (ρ : Run) : Prop :=
  ∃ m₀ m₁, identity tenant P s 0 = some m₀ ∧ identity tenant P s 1 = some m₁ ∧
    ρ.payload = some (payloadAt P m₀ m₁) ∧ ρ.correction = some (receiptAt P 3 m₁)

/-- **A record of the run**: once step 0 is done, it has its payloads. -/
structure Faithful (ρ : Run) : Prop where
  plan : ρ.plan = P
  built : ρ.steps 0 = true → Built tenant P s ρ

/-- What the code relies on while it waits for an answer. -/
def Awaits (ρ : Run) : Await → Prop
  | .hold 0 => ρ.holds = []
  | .hold 1 => ∃ h, ρ.holds = [h] ∧ identity tenant P s 0 = some (mark h)
  | _ => ρ.steps 0 = true

/-- What the code relies on where it is. -/
def Placed (ρ : Run) : Place → Prop
  | .idle => True
  | .step i => 0 < i → ρ.steps 0 = true
  | .fetch w _ => Awaits tenant P s ρ w
  | .observe _ => ρ.steps 0 = true

/-- The request is the plan's. -/
def Proper : Request → Prop
  | .reserve key inp => (∃ i, key = P.keys i) ∧ inp = P.input
  | .batch receipts => ∃ m₀ m₁, identity tenant P s 0 = some m₀ ∧ identity tenant P s 1 = some m₁ ∧
      receipts = some (payloadAt P m₀ m₁)
  | .receipt r => ∃ m₁, identity tenant P s 1 = some m₁ ∧ r = some (receiptAt P 3 m₁)

/-- The answer is no conflict, and the one to a reservation request has the identity of the store. -/
structure Genuine (q : Request) (ans : Answer) : Prop where
  conflict : ans.conflict = false
  identity : ∀ i r replay, q = .reserve (P.keys i) P.input → ans = .reservation (.ok (r, replay)) →
    identity tenant P s i = some (mark r)

/-- What `execute` does next is sound. -/
def Sound : Next → Prop
  | .send w ρ => Faithful tenant P s ρ ∧ Awaits tenant P s ρ w ∧ Proper tenant P s (ρ.request w)
  | .look _ ρ => Faithful tenant P s ρ ∧ ρ.steps 0 = true
  | .done i ρ => Faithful tenant P s (ρ.finish i) ∧ (ρ.finish i).steps 0 = true
  | .throw ρ => Faithful tenant P s ρ

variable {tenant P s} {s' : Store} {ρ : Run}

theorem Built.mono (hext : Extends tenant P s s') (h : Built tenant P s ρ) : Built tenant P s' ρ := by
  obtain ⟨m₀, m₁, h₀, h₁, hp, hc⟩ := h
  exact ⟨m₀, m₁, hext 0 m₀ h₀, hext 1 m₁ h₁, hp, hc⟩

theorem Faithful.mono (hext : Extends tenant P s s') (h : Faithful tenant P s ρ) :
    Faithful tenant P s' ρ := ⟨h.plan, fun hs => (h.built hs).mono hext⟩

theorem Placed.mono (hext : Extends tenant P s s') {place : Place} (h : Placed tenant P s ρ place) :
    Placed tenant P s' ρ place := by
  match place, h with
  | .idle, _ => trivial
  | .step _, h => exact h
  | .fetch (.hold 0) _, h => exact h
  | .fetch (.hold 1) _, ⟨r, hr, hi⟩ => exact ⟨r, hr, hext 0 _ hi⟩
  | .fetch .batch _, h => exact h
  | .fetch .replay _, h => exact h
  | .fetch .correct _, h => exact h
  | .observe _, h => exact h

theorem Proper.mono (hext : Extends tenant P s s') {q : Request} (h : Proper tenant P s q) :
    Proper tenant P s' q := by
  cases q with
  | reserve key inp => exact h
  | batch receipts =>
    obtain ⟨m₀, m₁, h₀, h₁, hp⟩ := h
    exact ⟨m₀, m₁, hext 0 m₀ h₀, hext 1 m₁ h₁, hp⟩
  | receipt r =>
    obtain ⟨m₁, h₁, hr⟩ := h
    exact ⟨m₁, hext 1 m₁ h₁, hr⟩

/-- A step is done: the first one is, and the payloads are there. -/
theorem Faithful.finish (h : Faithful tenant P s ρ) (h₀ : ρ.steps 0 = true) (i : Fin 6) :
    Faithful tenant P s (ρ.finish i) ∧ (ρ.finish i).steps 0 = true := by
  refine ⟨⟨h.plan, fun _ => h.built h₀⟩, ?_⟩
  show Function.update ρ.steps i true 0 = true
  by_cases hi : i = 0
  · rw [hi, Function.update_self]
  · rw [Function.update_of_ne (Ne.symm hi), h₀]

/-- **The callback of a step.** -/
theorem sound_begin (h : Faithful tenant P s ρ) (i : Fin 6) (hi : 0 < i.val → ρ.steps 0 = true) :
    Sound tenant P s (begin ρ i) := by
  have hbatch : 0 < i.val → Proper tenant P s (.batch ρ.payload) := by
    intro h0
    obtain ⟨m₀, m₁, h₀, h₁, hp, -⟩ := h.built (hi h0)
    exact ⟨m₀, m₁, h₀, h₁, hp⟩
  match i, hi, hbatch with
  | 0, _, _ =>
    refine ⟨⟨h.plan, h.built⟩, rfl, ⟨0, ?_⟩, ?_⟩
    · rw [← h.plan]
    · rw [← h.plan]
  | 1, hi, hbatch => exact ⟨h, hi (by decide), hbatch (by decide)⟩
  | 2, hi, hbatch => exact ⟨h, hi (by decide), hbatch (by decide)⟩
  | 3, hi, _ => exact ⟨h, hi (by decide)⟩
  | 4, hi, _ =>
    obtain ⟨m₀, m₁, -, h₁, -, hc⟩ := h.built (hi (by decide))
    exact ⟨h, hi (by decide), m₁, h₁, hc⟩
  | 5, hi, _ => exact ⟨h, hi (by decide)⟩

/-- **An answer arrives.** -/
theorem sound_resume (h : Faithful tenant P s ρ) {w : Await} (hw : Awaits tenant P s ρ w) {ans : Answer}
    (hans : Genuine tenant P s (ρ.request w) ans) : Sound tenant P s (resume ρ w ans) := by
  have hreserve : ∀ i, ρ.request (.hold i) = .reserve (P.keys i) P.input := by
    intro i
    rw [← h.plan]
    rfl
  unfold resume
  split
  · next r replay =>
    refine ⟨⟨h.plan, h.built⟩, ⟨r, ?_, hans.identity 0 r replay (hreserve 0) rfl⟩, ⟨1, ?_⟩, ?_⟩
    · rw [show ρ.holds = [] from hw]
      rfl
    · rw [← h.plan]
    · rw [← h.plan]
  · next r replay =>
    obtain ⟨h₀, hholds, hi₀⟩ := hw
    have hi₁ := hans.identity 1 r replay (hreserve 1) rfl
    have hprep : Run.prepare { ρ with holds := ρ.holds ++ [r] } = { ρ with
        holds := [h₀, r]
        payload := some (payloadAt P (mark h₀) (mark r))
        correction := some (receiptAt P 3 (mark r)) } := by
      rw [hholds, ← h.plan]
      rfl
    show Faithful _ _ _ _ ∧ _
    rw [hprep]
    refine ⟨⟨h.plan, fun _ => ⟨mark h₀, mark r, hi₀, hi₁, rfl, rfl⟩⟩, ?_⟩
    show Function.update ρ.steps 0 true 0 = true
    rw [Function.update_self]
  · split
    · next out _ =>
      have hbatch : Faithful tenant P s { ρ with batch := some out } := ⟨h.plan, h.built⟩
      exact hbatch.finish hw 1
    · exact h
  · split
    · split_ifs
      · exact h.finish hw 2
      · exact h
    · exact h
  · next id _ =>
    have hcorrected : Faithful tenant P s { ρ with corrected := some id } := ⟨h.plan, h.built⟩
    exact hcorrected.finish hw 4
  · exact h

end Page

/-! ### What a handler has -/

section Handler

variable (C : Codec) (tenant : String) (P : Plan) (s : Store)

/-- An item of a batch of the plan: a receipt of the plan, or the malformed neighbor. -/
def Item (raw : Raw) : Prop :=
  raw = C.neighbor ∨
    ∃ i m, identity tenant P s (holdOf i) = some m ∧ raw = C.encode (receiptAt P i m)

/-- A batch of the plan in its handler. -/
structure Served (h : Handling) : Prop where
  items : ∀ raw ∈ h.items, Item C tenant P s raw
  results : ∀ r ∈ h.out.results, r.status ≠ 409

variable {C tenant P s} {H : Digest} {s' : Store}

theorem Item.mono (hext : Extends tenant P s s') {raw : Raw} (h : Item C tenant P s raw) :
    Item C tenant P s' raw := by
  rcases h with h | ⟨i, m, hm, hraw⟩
  · exact Or.inl h
  · exact Or.inr ⟨i, m, hext _ m hm, hraw⟩

theorem Served.mono (hext : Extends tenant P s s') {h : Handling} (hs : Served C tenant P s h) :
    Served C tenant P s' h := ⟨fun raw hr => (hs.items raw hr).mono hext, hs.results⟩

/-- The items of a batch request of the plan. -/
theorem served_open {a : ℕ} {receipts : Option (List Receipt)} {allowed : Bool} {h : Handling}
    (hq : Proper tenant P s (.batch receipts)) (hopen : openBatch C a receipts allowed = .ok h) :
    Served C tenant P s h := by
  obtain ⟨m₀, m₁, h₀, h₁, rfl⟩ := hq
  unfold openBatch at hopen
  simp only [body, decode] at hopen
  split_ifs at hopen
  cases hopen
  refine ⟨fun raw hraw => ?_, fun r hr => absurd hr List.not_mem_nil⟩
  rcases List.mem_append.mp hraw with hraw | hraw
  · obtain ⟨p, hp, rfl⟩ := List.mem_map.mp hraw
    simp only [payloadAt, List.mem_cons, List.not_mem_nil, or_false] at hp
    rcases hp with rfl | rfl | rfl
    · exact Or.inr ⟨0, m₀, h₀, rfl⟩
    · exact Or.inr ⟨1, m₀, h₀, rfl⟩
    · exact Or.inr ⟨2, m₁, h₁, rfl⟩
  · exact Or.inl (List.mem_singleton.mp hraw)

/-- A batch that is refused as a whole is refused for its form or by the rate limiter. -/
theorem openBatch_conflict {a : ℕ} {receipts : Option (List Receipt)} {allowed : Bool} {reply : Reply}
    (h : openBatch C a receipts allowed = .error reply) : (Answer.batch reply).conflict = false := by
  unfold openBatch at h
  cases receipts with
  | none =>
    cases h
    rfl
  | some receipts =>
    simp only [body, decode] at h
    split_ifs at h <;> cases h <;> rfl

theorem acceptResult_ne_conflict (i : ℕ) {answer : Except Err (String × Bool)}
    (h : answer ≠ .error .conflict) : (acceptResult i answer).status ≠ 409 := by
  rcases answer with (_ | _ | _ | _ | _) | ⟨id, replayed⟩
  case error.conflict => exact absurd rfl h
  all_goals simp [acceptResult]

/-- **An item is accepted without a conflict.** -/
theorem Own.item (h : Own H tenant P s) (hP : Function.Injective P.events) (draws : Draws) (i : ℕ)
    {raw : Raw} (hraw : Item C tenant P s raw) :
    let x := acceptItem C.decode H tenant draws i raw s
    Own H tenant P x.2 ∧ Extends tenant P s x.2 ∧ x.1.status ≠ 409 := by
  unfold acceptItem
  cases hread : receipt? C.decode raw with
  | none => exact ⟨h, fun _ _ h => h, by simp [invalidItem]⟩
  | some p =>
    rcases hraw with rfl | ⟨j, m, hm, rfl⟩
    · rw [C.refuses] at hread
      cases hread
    · rw [C.reads _ p hread]
      obtain ⟨hown, hne⟩ := h.accept hP hm (draws i).1 (draws i).2
      exact ⟨hown, identity_call h.keyed ⟨.accept tenant (receiptAt P j m) (draws i).1, (draws i).2⟩,
        acceptResult_ne_conflict i hne⟩

end Handler

/-! ### The invariant -/

/-- **Page, server and store agree.** -/
structure Agrees (C : Codec) (H : Digest) (tenant : String) (P : Plan) (x : System) : Prop where
  own : Own H tenant P x.store
  page : ∀ ρ, x.page = some ρ → Faithful tenant P x.store ρ ∧ Placed tenant P x.store ρ x.place
  saved : ∀ ρ, x.saved = some ρ → Faithful tenant P x.store ρ
  asked : ∀ w a ρ, x.place = .fetch w a → x.page = some ρ → x.sent[a]? = some (ρ.request w)
  sent : ∀ q ∈ x.sent, Proper tenant P x.store q
  handlers : ∀ b h, x.handlers b = some h → Served C tenant P x.store h
  answers : ∀ qa ∈ x.answers, qa.2.conflict = false

namespace Agrees

variable {C : Codec} {H : Digest} {tenant : String} {P : Plan} {x : System}

theorem start {s : Store} (hs : Own H tenant P s) (saves : Bool) :
    Agrees C H tenant P (System.start P s saves) := by
  have hfresh : Faithful tenant P s (.fresh P) := ⟨rfl, fun h => (nomatch h)⟩
  refine ⟨hs, fun ρ hρ => ?_, fun ρ hρ => ?_, fun w a ρ hp => (nomatch hp), fun q hq => (nomatch hq),
    fun b h hb => (nomatch hb), fun qa hqa => (nomatch hqa)⟩
  · cases hρ
    exact ⟨hfresh, fun h0 => absurd h0 (lt_irrefl 0)⟩
  · simp only [System.start] at hρ
    split_ifs at hρ
    cases hρ
    exact hfresh

/-- The store moves on, and keeps what it knows. -/
theorem store (h : Agrees C H tenant P x) {s : Store} (hs : Own H tenant P s)
    (hext : Extends tenant P x.store s) : Agrees C H tenant P { x with store := s } where
  own := hs
  page ρ hρ := ⟨(h.page ρ hρ).1.mono hext, (h.page ρ hρ).2.mono hext⟩
  saved ρ hρ := (h.saved ρ hρ).mono hext
  asked := h.asked
  sent q hq := (h.sent q hq).mono hext
  handlers b hd hb := (h.handlers b hd hb).mono hext
  answers := h.answers

/-- The page moves to a place where it does not wait. -/
theorem move (h : Agrees C H tenant P x) {ρ : Run} {saved : Option Run} {place : Place}
    (hρ : Faithful tenant P x.store ρ) (hp : Placed tenant P x.store ρ place)
    (hno : ∀ w a, place ≠ .fetch w a) (hsaved : ∀ ρ', saved = some ρ' → Faithful tenant P x.store ρ') :
    Agrees C H tenant P { x with page := some ρ, saved, place } where
  own := h.own
  page ρ' hρ' := by
    cases hρ'
    exact ⟨hρ, hp⟩
  saved := hsaved
  asked w a _ hw := absurd hw (hno w a)
  sent := h.sent
  handlers := h.handlers
  answers := h.answers

/-- What is in `sessionStorage` after a `save` that may fail. -/
theorem saving (h : Agrees C H tenant P x) {ρ : Run} (hρ : Faithful tenant P x.store ρ) (saves : Bool) :
    ∀ ρ', (if saves then some ρ else x.saved) = some ρ' → Faithful tenant P x.store ρ' := by
  intro ρ' hρ'
  split_ifs at hρ'
  · cases hρ'
    exact hρ
  · exact h.saved ρ' hρ'

/-- The same after a `save` of another run. -/
theorem forgetting (h : Agrees C H tenant P x) (saves : Bool) :
    ∀ ρ', (if saves then none else x.saved) = some ρ' → Faithful tenant P x.store ρ' := by
  intro ρ' hρ'
  split_ifs at hρ'
  exact h.saved ρ' hρ'

/-- **`execute` goes on.** -/
theorem next (h : Agrees C H tenant P x) {nx : Next} (hnx : Sound tenant P x.store nx) (saves : Bool) :
    Agrees C H tenant P (x.next saves nx) := by
  cases nx with
  | send w ρ =>
    obtain ⟨hρ, hw, hq⟩ := hnx
    refine ⟨h.own, fun ρ' hρ' => ?_, h.saved, fun w' a ρ' hw' hρ' => ?_, fun q hmem => ?_, h.handlers,
      h.answers⟩
    · cases hρ'
      exact ⟨hρ, hw⟩
    · cases hρ'
      cases hw'
      simp [System.next]
    · rcases List.mem_append.mp hmem with hmem | hmem
      · exact h.sent q hmem
      · rw [List.mem_singleton.mp hmem]
        exact hq
  | look i ρ => exact h.move hnx.1 hnx.2 nofun h.saved
  | done i ρ => exact h.move hnx.1 (fun _ => hnx.2) nofun (h.saving hnx.1 saves)
  | throw ρ => exact h.move hnx trivial nofun (h.saving hnx saves)

theorem throw (h : Agrees C H tenant P x) {ρ : Run} (hρ : Faithful tenant P x.store ρ) (saves : Bool) :
    Agrees C H tenant P (x.next saves (.throw ρ)) := by
  have hthrow : Sound tenant P x.store (.throw ρ) := hρ
  exact h.next hthrow saves

/-- **The server answers.** -/
theorem answer (h : Agrees C H tenant P x) {a : ℕ} {q : Request} {ans : Answer}
    (hq : x.sent[a]? = some q ∨ ∀ r replay, ans ≠ .reservation (.ok (r, replay)))
    (hans : Genuine tenant P x.store q ans) (delivered saves : Bool) :
    Agrees C H tenant P (x.answer a q ans delivered saves) := by
  have hlog : Agrees C H tenant P { x with answers := x.answers ++ [(q, ans)] } := by
    refine ⟨h.own, h.page, h.saved, h.asked, h.sent, h.handlers, fun qa hqa => ?_⟩
    rcases List.mem_append.mp hqa with hqa | hqa
    · exact h.answers qa hqa
    · rw [List.mem_singleton.mp hqa]
      exact hans.conflict
  unfold System.answer
  split
  · next w a' ρ hplace hpage =>
    split_ifs with hd
    · obtain ⟨hρ, hw⟩ := h.page ρ hpage
      rw [hplace] at hw
      refine hlog.next (sound_resume hρ hw ⟨hans.conflict, fun i r replay hr hok => ?_⟩) saves
      rcases hq with hq | hno
      · have ha : a' = a := of_decide_eq_true (Bool.and_eq_true_iff.mp hd).2
        have hsent := h.asked w a' ρ hplace hpage
        rw [ha, hq] at hsent
        exact hans.identity i r replay ((Option.some.inj hsent).trans hr) hok
      · exact absurd hok (hno r replay)
    · exact hlog
  · exact hlog

/-- An answer that is not a reservation. -/
theorem answer_plain (h : Agrees C H tenant P x) {a : ℕ} {q : Request} {ans : Answer}
    (hno : ∀ r replay, ans ≠ .reservation (.ok (r, replay))) (hc : ans.conflict = false)
    (delivered saves : Bool) : Agrees C H tenant P (x.answer a q ans delivered saves) :=
  h.answer (Or.inr hno) ⟨hc, fun _ r replay _ hr => absurd hr (hno r replay)⟩ delivered saves

/-- The handlers move on. -/
theorem handle (h : Agrees C H tenant P x) (b : ℕ) {hd : Option Handling}
    (hs : ∀ h', hd = some h' → Served C tenant P x.store h') :
    Agrees C H tenant P { x with handlers := Function.update x.handlers b hd } := by
  refine ⟨h.own, h.page, h.saved, h.asked, h.sent, fun b' h' hb' => ?_, h.answers⟩
  by_cases hb : b' = b
  · rw [hb] at hb'
    exact hs h' ((Function.update_self b hd x.handlers).symm.trans hb')
  · exact h.handlers b' h' ((Function.update_of_ne hb hd x.handlers).symm.trans hb')

/-- The server executes a reservation request or a receipt. -/
theorem serve (h : Agrees C H tenant P x) (hP : Function.Injective P.events) (a : ℕ) (d : ReserveDraw)
    (e : AcceptDraw) (fault : Option ℕ) (delivered saves : Bool) :
    Agrees C H tenant P (x.step C H tenant P (.serve a d e fault delivered saves)) := by
  unfold System.step
  simp only
  split
  · next key inp hsent =>
    obtain ⟨⟨i, rfl⟩, rfl⟩ := h.sent _ (List.mem_of_getElem? hsent)
    obtain ⟨hown, hne, hid⟩ := h.own.reserve i d fault
    have hext : Extends tenant P x.store (reserveCall H tenant (P.keys i) P.input d fault x.store).2 :=
      identity_call h.own.keyed ⟨.reserve tenant (P.keys i) P.input d, fault⟩
    refine (h.store hown hext).answer (Or.inl hsent) ⟨?_, fun j r replay hj hr => ?_⟩ delivered saves
    · cases hans : (reserveCall H tenant (P.keys i) P.input d fault x.store).1 with
      | ok r => rfl
      | error err =>
        cases err with
        | conflict => exact absurd hans hne
        | _ => rfl
    · have hkey : P.keys i = P.keys j := (Request.reserve.inj hj).1
      have hmark := hid r replay (Answer.reservation.inj hr)
      unfold identity at hmark ⊢
      rw [← hkey]
      exact hmark
  · refine h.answer_plain ?_ rfl delivered saves
    nofun
  · next p hsent =>
    obtain ⟨m₁, h₁, hp⟩ := h.sent _ (List.mem_of_getElem? hsent)
    cases hp
    split
    · refine h.answer_plain ?_ rfl delivered saves
      nofun
    · next p hread =>
      rw [C.reads _ p hread]
      obtain ⟨hown, hne⟩ := h.own.accept hP (i := 3) h₁ e fault
      have hext : Extends tenant P x.store (acceptCall H tenant (receiptAt P 3 m₁) e fault x.store).2 :=
        identity_call h.own.keyed ⟨.accept tenant (receiptAt P 3 m₁) e, fault⟩
      refine (h.store hown hext).answer_plain ?_ ?_ delivered saves
      · nofun
      · cases hans : (acceptCall H tenant (receiptAt P 3 m₁) e fault x.store).1 with
        | ok r => rfl
        | error err =>
          cases err with
          | conflict => exact absurd hans hne
          | _ => rfl
  · exact h

/-- The handlers of the batches. -/
theorem item (h : Agrees C H tenant P x) (hP : Function.Injective P.events) (b : ℕ) (e : AcceptDraw)
    (fault : Option ℕ) : Agrees C H tenant P (x.step C H tenant P (.item b e fault)) := by
  unfold System.step
  simp only
  split
  · next a receipts i raw items out hb =>
    have hserved := h.handlers b _ hb
    obtain ⟨hown, hext, hne⟩ :=
      h.own.item hP (fun _ => (e, fault)) i (hserved.items raw List.mem_cons_self)
    refine (h.store hown hext).handle b fun h' hh' => ?_
    cases hh'
    refine ⟨fun raw' hr => ?_, fun r hr => ?_⟩
    · exact (hserved.items raw' (List.mem_cons_of_mem raw hr)).mono hext
    · rcases List.mem_append.mp hr with hr | hr
      · exact hserved.results r hr
      · rw [List.mem_singleton.mp hr]
        exact hne
  · exact h

/-- `execute` is called. -/
theorem execute (h : Agrees C H tenant P x) (found saves : Bool) :
    Agrees C H tenant P (x.step C H tenant P (.execute found saves)) := by
  unfold System.step
  simp only
  split
  · next ρ hplace hpage =>
    by_cases hdone : ∀ i, ρ.steps i = true
    · rw [if_pos hdone]
      cases found with
      | true =>
        exact ⟨h.own, fun ρ' hρ' => (nomatch hρ'), h.forgetting saves,
          fun w a ρ' _ hρ' => (nomatch hρ'), h.sent, h.handlers, h.answers⟩
      | false =>
        exact ⟨h.own, h.page, h.saving (h.page ρ hpage).1 saves, h.asked, h.sent, h.handlers, h.answers⟩
    · rw [if_neg hdone]
      exact ⟨h.own, fun ρ' hρ' => ⟨(h.page ρ' hρ').1, fun h0 => absurd h0 (lt_irrefl 0)⟩, h.saved,
        fun w a ρ' hw => (nomatch hw), h.sent, h.handlers, h.answers⟩
  · exact ⟨h.own, h.page, h.forgetting (found && saves), h.asked, h.sent, h.handlers, h.answers⟩
  · exact h

/-- `execute` comes to its next step. -/
theorem go (h : Agrees C H tenant P x) : Agrees C H tenant P (x.step C H tenant P .go) := by
  unfold System.step
  simp only
  split
  · next i ρ hplace hpage =>
    obtain ⟨hρ, hp⟩ := h.page ρ hpage
    rw [hplace] at hp
    split_ifs with hi hdone
    · have hfirst : ρ.steps 0 = true := by
        by_cases h0 : i = 0
        · subst h0
          exact hdone
        · exact hp (Nat.pos_of_ne_zero h0)
      have hstep : Placed tenant P x.store ρ (.step (i + 1)) := fun _ => hfirst
      have hgo := h.move hρ hstep nofun h.saved
      rw [← hpage] at hgo
      exact hgo
    · exact h.next (sound_begin hρ ⟨i, hi⟩ hp) false
    · have hidle : Placed tenant P x.store ρ .idle := trivial
      have hend := h.move hρ hidle nofun h.saved
      rw [← hpage] at hend
      exact hend
  · exact h

/-- What `observe` read arrives. -/
theorem observed (h : Agrees C H tenant P x) (rows : List DeliveryEvidence) (saves : Bool) :
    Agrees C H tenant P (x.step C H tenant P (.observed rows saves)) := by
  unfold System.step
  simp only
  split
  · next i ρ hplace hpage =>
    obtain ⟨hρ, hp⟩ := h.page ρ hpage
    rw [hplace] at hp
    split_ifs
    · have hdone : Sound tenant P x.store (.done i ρ) := hρ.finish hp i
      exact h.next hdone saves
    · exact h.throw hρ saves
  · exact h

/-- The server takes a batch. -/
theorem openBatch (h : Agrees C H tenant P x) (b a : ℕ) (allowed delivered saves : Bool) :
    Agrees C H tenant P (x.step C H tenant P (.openBatch b a allowed delivered saves)) := by
  unfold System.step
  simp only
  split
  · next receipts hsent hfree =>
    have hq := h.sent _ (List.mem_of_getElem? hsent)
    split
    · next reply hopen =>
      refine h.answer_plain ?_ (openBatch_conflict hopen) delivered saves
      nofun
    · next hd hopen =>
      refine h.handle b fun h' hh' => ?_
      cases hh'
      exact served_open hq hopen
  · exact h

/-- The server answers a batch. -/
theorem closeBatch (h : Agrees C H tenant P x) (b : ℕ) (delivered saves : Bool) :
    Agrees C H tenant P (x.step C H tenant P (.closeBatch b delivered saves)) := by
  unfold System.step
  simp only
  split
  · next a receipts i out hb =>
    have hserved := h.handlers b _ hb
    have hdone : Agrees C H tenant P { x with handlers := Function.update x.handlers b none } :=
      h.handle b nofun
    refine hdone.answer_plain ?_ ?_ delivered saves
    · nofun
    show (out.results.any fun r => r.status = 409) = false
    rw [List.any_eq_false]
    intro r hr
    simpa using hserved.results r hr
  · exact h

/-- **One step.** -/
theorem step (h : Agrees C H tenant P x) (hP : Function.Injective P.events) (e : Event) :
    Agrees C H tenant P (x.step C H tenant P e) := by
  cases e with
  | execute found saves => exact h.execute found saves
  | go => exact h.go
  | serve a d e fault delivered saves => exact h.serve hP a d e fault delivered saves
  | openBatch b a allowed delivered saves => exact h.openBatch b a allowed delivered saves
  | item b e fault => exact h.item hP b e fault
  | closeBatch b delivered saves => exact h.closeBatch b delivered saves
  | fail saves =>
    unfold System.step
    simp only
    split
    · next w a ρ hplace hpage => exact h.throw (h.page ρ hpage).1 saves
    · next i ρ hplace hpage => exact h.throw (h.page ρ hpage).1 saves
    · exact h
  | observed rows saves => exact h.observed rows saves
  | reload =>
    exact ⟨h.own, fun ρ hρ => ⟨h.saved ρ hρ, trivial⟩, h.saved, fun w a ρ hw => (nomatch hw), h.sent,
      h.handlers, h.answers⟩
  | other c =>
    unfold System.step
    simp only
    split_ifs with hc
    · exact h.store (h.own.foreign c hc) (identity_call h.own.keyed c)
    · exact h

theorem run (h : Agrees C H tenant P x) (hP : Function.Injective P.events) (es : List Event) :
    Agrees C H tenant P (x.run C H tenant P es) := by
  induction es generalizing x with
  | nil => exact h
  | cons e es ih => exact ih (h.step hP e)

end Agrees

/-! ### What the run takes -/

section Budget

variable (tenant : String) (P : Plan)

/-- The reservation has a key of the plan. -/
def ownKey (r : ReservationRow) : Bool := r.tenant = tenant ∧ ∃ i, r.idemKey = P.keys i

/-- The delivery has an event identifier of the plan. -/
def ownEvent (d : DeliveryRow) : Bool := d.tenant = tenant ∧ ∃ i, d.eventID = P.events i

/-- The budget due to the run: the costs of its reservations that are not released. -/
def due (s : Store) : Int :=
  (s.reservations.filter (ownKey tenant P)).sum fun r => if r.state = .released then 0 else r.cost

/-- What the other reservations take of campaign `k`, reserved or spent. -/
def others (s : Store) (k : Key2) : Int :=
  (s.reservations.filter fun r => !ownKey tenant P r).sum fun r => share k .held r + share k .settled r

variable {tenant P} {H : Digest} {s : Store}

theorem ownKey_iff {r : ReservationRow} :
    ownKey tenant P r = true ↔ r.tenant = tenant ∧ ∃ i, r.idemKey = P.keys i := decide_eq_true_iff

theorem ownEvent_iff {d : DeliveryRow} :
    ownEvent tenant P d = true ↔ d.tenant = tenant ∧ ∃ i, d.eventID = P.events i := decide_eq_true_iff

/-- A reservation of the plan is one of its input. -/
theorem Own.row (h : Own H tenant P s) {r : ReservationRow} (hr : r ∈ s.reservations)
    (hown : ownKey tenant P r = true) : r.tenant = tenant ∧ r.campaign = P.campaign ∧ r.cost = 10000 := by
  obtain ⟨rfl, i, hi⟩ := ownKey_iff.mp hown
  have hby := h.keyed.byKey_of_mem hr
  rw [hi] at hby
  exact ⟨rfl, (h.hold i r hby).2⟩

/-- **At most two reservations.** -/
theorem Own.reservations_le (h : Own H tenant P s) : s.reservations.count (ownKey tenant P) ≤ 2 := by
  refine h.keyed.reservations.count_le [(tenant, P.keys 0), (tenant, P.keys 1)] fun r hr hown => ?_
  obtain ⟨rfl, i, hi⟩ := ownKey_iff.mp hown
  unfold idem
  rw [hi]
  fin_cases i <;> simp

/-- **At most four deliveries.** -/
theorem Own.deliveries_le (h : Own H tenant P s) : s.deliveries.count (ownEvent tenant P) ≤ 4 := by
  refine h.keyed.deliveries.count_le
    [(tenant, P.events 0), (tenant, P.events 1), (tenant, P.events 2), (tenant, P.events 3)]
    fun d hd hown => ?_
  obtain ⟨rfl, i, hi⟩ := ownEvent_iff.mp hown
  unfold event
  rw [hi]
  fin_cases i <;> simp

/-- **At most two cents.** -/
theorem Own.due_le (h : Own H tenant P s) : due tenant P s ≤ 20000 := by
  have hcost : ∀ x ∈ (s.reservations.filter (ownKey tenant P)).rows.map
      (fun r => if r.state = .released then 0 else r.cost), x ≤ 10000 := by
    intro x hx
    obtain ⟨r, hr, rfl⟩ := List.mem_map.mp hx
    obtain ⟨hmem, hown⟩ := Table.mem_filter.mp hr
    obtain ⟨-, -, hc⟩ := h.row hmem hown
    show (if r.state = .released then 0 else r.cost) ≤ 10000
    split_ifs
    · omega
    · omega
  have hsum := List.sum_le_card_nsmul _ _ hcost
  have hcount : (s.reservations.filter (ownKey tenant P)).rows.length ≤ 2 :=
    (Table.count_eq_length _ _).symm.trans_le h.reservations_le
  rw [List.length_map, nsmul_eq_mul] at hsum
  unfold due Table.sum
  omega

/-- **The run's part of a campaign**: what is reserved and spent is due to the run or to others. -/
theorem Own.budget (h : Own H tenant P s) {k : Key2} {c : CampaignRow} (hc : s.campaigns.find? k = some c) :
    c.reserved + c.spent =
      (if k = (tenant, P.campaign) then due tenant P s else 0) + others tenant P s k := by
  have hsum : c.reserved + c.spent = s.reservations.sum fun r => share k .held r + share k .settled r := by
    rw [h.balanced.reserved k c hc, h.balanced.spent k c hc]
    exact List.sum_map_add.symm
  rw [hsum, ← Table.sum_filter_add _ (ownKey tenant P)]
  refine congrArg (· + others tenant P s k) ?_
  split_ifs with hk
  · refine Table.sum_congr fun r hr => ?_
    obtain ⟨hmem, hown⟩ := Table.mem_filter.mp hr
    obtain ⟨ht, hcamp, -⟩ := h.row hmem hown
    unfold share
    rw [hk, ht, hcamp]
    cases r.state <;> simp
  · refine Table.sum_eq_zero fun r hr => ?_
    obtain ⟨hmem, hown⟩ := Table.mem_filter.mp hr
    obtain ⟨ht, hcamp, -⟩ := h.row hmem hown
    have hother : (r.tenant, r.campaign) ≠ k := by
      rw [ht, hcamp]
      exact Ne.symm hk
    rw [share_other hother, share_other hother, add_zero]

end Budget

/-- **A live proof is resumed exactly once.** From any store that knows neither the keys nor the events of
a new plan, and however the page, the server, the worker and the other clients go on: one payload is sent
for the batch and one correction, no answer is a conflict, and the run has at most two reservations, four
deliveries and 20000 micros of the budget of its campaign, reserved or spent. -/
theorem resumed_exactly_once (C : Codec) (H : Digest) (tenant : String) (P : Plan) (pre : List Call)
    (hkeys : ∀ i, byKey (Core.Run.run H pre Store.empty) tenant (P.keys i) = none)
    (hevents : ∀ i, byEvent (Core.Run.run H pre Store.empty) tenant (P.events i) = none)
    (hdistinct : Function.Injective P.events) (saves : Bool) (es : List Event) :
    let x := (System.start P (Core.Run.run H pre Store.empty) saves).run C H tenant P es
    (∃ payload, ∀ p, .batch p ∈ x.sent → p = some payload) ∧
      (∃ correction, ∀ p, .receipt p ∈ x.sent → p = some correction) ∧
      (∀ qa ∈ x.answers, qa.2.conflict = false) ∧
      x.store.reservations.count (ownKey tenant P) ≤ 2 ∧
      x.store.deliveries.count (ownEvent tenant P) ≤ 4 ∧
      due tenant P x.store ≤ 20000 ∧
      ∀ k c, x.store.campaigns.find? k = some c →
        c.reserved + c.spent =
          (if k = (tenant, P.campaign) then due tenant P x.store else 0) + others tenant P x.store k := by
  intro x
  have hown : Own H tenant P (Core.Run.run H pre Store.empty) := by
    refine ⟨Keyed.empty.run pre, Balanced.empty.run pre, fun i row hrow => ?_, fun i d hd => ?_⟩
    · rw [hkeys i] at hrow
      cases hrow
    · rw [hevents i] at hd
      cases hd
  have hx : Agrees C H tenant P x := (Agrees.start hown saves).run hdistinct es
  refine ⟨⟨payloadAt P ((identity tenant P x.store 0).getD ("", "", 0))
    ((identity tenant P x.store 1).getD ("", "", 0)), fun p hp => ?_⟩,
    ⟨receiptAt P 3 ((identity tenant P x.store 1).getD ("", "", 0)), fun p hp => ?_⟩, hx.answers,
    hx.own.reservations_le, hx.own.deliveries_le, hx.own.due_le, fun k c hc => hx.own.budget hc⟩
  · obtain ⟨m₀, m₁, h₀, h₁, rfl⟩ := hx.sent _ hp
    rw [h₀, h₁, Option.getD_some, Option.getD_some]
  · obtain ⟨m₁, h₁, rfl⟩ := hx.sent _ hp
    rw [h₁, Option.getD_some]

/-! ### Two lost answers -/

def samplePlan : Plan where
  campaign := "cmp-solstice"
  screen := "sea-01"
  keys
    | 0 => "key-1"
    | 1 => "key-2"
  events
    | 0 => "event-1"
    | 1 => "event-2"
    | 2 => "event-3"
    | 3 => "event-4"

def sampleReceipt (i : Fin 4) : Receipt :=
  receiptAt samplePlan i (if holdOf i = 0 then ("r0", "sea-01", 0) else ("r1", "sea-01", 0))

/-- The server executes request `a`: a reservation `r`, or a receipt as delivery `d`. -/
def served (a : ℕ) (r d : String) (delivered : Bool) : Event :=
  .serve a ⟨r, 0, 0, ⟨"audit-" ++ r, 0⟩⟩ ⟨d, 5, [], ⟨"audit-" ++ d, 5⟩⟩ none delivered true

/-- Handler 0 executes batch request `a`, and would name the deliveries after `d`. -/
def handled (a : ℕ) (d : String) (delivered : Bool) : List Event :=
  [.openBatch 0 a true true true] ++
    ["0", "1", "2", "3"].map (fun i => .item 0 ⟨d ++ i, 5, [], ⟨"audit-" ++ d ++ i, 5⟩⟩ none) ++
    [.closeBatch 0 delivered true]

def processed (id : String) : Event := .other ⟨.process "demo" id ⟨100, ⟨"decision-" ++ id, 100⟩⟩, none⟩

/-- The page is loaded again and executes its run, of which `n` steps are done. -/
def resumed (n : ℕ) : List Event := [.fail true, .reload, .execute true true] ++ List.replicate (n + 1) .go

/-- What `observe` reads in step 3. -/
def sampleRows : List DeliveryEvidence :=
  [⟨⟨"d0", sampleReceipt 0, .settled, .matched, 5, 1⟩,
      some ⟨"r0", "cmp-solstice", "sea-01", 10000, .settled, 0, 900000⟩, .pending, 0, 200⟩,
    ⟨⟨"d1", sampleReceipt 1, .duplicate, .reservationAlreadySettled, 5, 1⟩,
      some ⟨"r0", "cmp-solstice", "sea-01", 10000, .settled, 0, 900000⟩, .pending, 0, 200⟩,
    ⟨⟨"d2", sampleReceipt 2, .quarantined, .unsupportedSchema, 5, 1⟩,
      some ⟨"r1", "cmp-solstice", "sea-01", 10000, .held, 0, 900000⟩, .pending, 0, 200⟩]

/-- The answer to the batch is lost after the server has accepted it, and so is the answer to the
correction. -/
def sampleRun : List Event :=
  [.go, served 0 "r0" "" true, served 1 "r1" "" true, .go] ++ handled 2 "d" false ++ resumed 1 ++
    handled 3 "e" true ++ [.go] ++ handled 4 "f" true ++ [.go, processed "d0", processed "d1",
    processed "d2", .observed sampleRows true, .go, served 5 "" "d3" false] ++ resumed 4 ++
    [served 6 "" "e3" true]

def sampleCodec : Codec := json ((List.finRange 4).map sampleReceipt)

def sampleEnd : System :=
  (System.start samplePlan (Core.Run.run spelled [⟨.seed "demo", none⟩] Store.empty) true).run sampleCodec
    spelled "demo" samplePlan sampleRun

theorem resumed_exactly_once_twoLosses :
    (sampleEnd.sent.length = 7 ∧ sampleEnd.place = .step 5 ∧
      sampleEnd.store.reservations.count (ownKey "demo" samplePlan) = 2 ∧
      sampleEnd.store.deliveries.count (ownEvent "demo" samplePlan) = 4 ∧
      due "demo" samplePlan sampleEnd.store = 20000) ∧
    (∃ payload, ∀ p, .batch p ∈ sampleEnd.sent → p = some payload) ∧
      (∃ correction, ∀ p, .receipt p ∈ sampleEnd.sent → p = some correction) ∧
      ∀ qa ∈ sampleEnd.answers, qa.2.conflict = false := by
  obtain ⟨hbatch, hcorrection, hanswers, -⟩ :=
    resumed_exactly_once sampleCodec spelled "demo" samplePlan [⟨.seed "demo", none⟩] (by decide +kernel)
      (by decide +kernel) (by decide +kernel) true sampleRun
  exact ⟨by decide +kernel, hbatch, hcorrection, hanswers⟩

end Afterglow.Console.Resume
