import Afterglow.Airports.Exact
import Afterglow.Airports.Service

/-! # Refreshing is atomic across failures and restarts

A refresh either leaves the snapshot and the cache file as they were, or installs what it parsed in both
(`RefreshOut`). What is on disk is the snapshot as JSON gives it back: where all its strings are UTF-8
that is the snapshot itself (`replaced_eq`), and `New` accepts it, since `parse` validated the same
records. A byte that is not UTF-8 is another byte after a restart, and two identifiers that differ in
such bytes only are one. -/

namespace Afterglow.Airports.Recovery

open Afterglow.Airports.Parse Afterglow.Airports.Exact Afterglow.Airports.Service
open Afterglow.Encoding.Utf8 Afterglow.Slices.Sorting

variable {File : Type} {env : Env File} {files : Files File} {a : Attempt File}

/-! ### What is written -/

/-- Every step of `persist` succeeds. -/
structure Succeeds (disk : Disk File) : Prop where
  mkdirAll : disk.mkdirAll = true
  createTemp : disk.createTemp.isSome
  write : disk.write = true
  sync : disk.sync = true
  close : disk.close = true
  rename : disk.rename = true

theorem writeTemp_cache (json : Json File) (data : Snapshot) (disk : Disk File) {tmp : Name}
    (htmp : .cache ≠ tmp) (files : Files File) :
    ((writeTemp json data disk tmp files).1 = false ∧
        (writeTemp json data disk tmp files).2 .cache = files .cache) ∨
      (writeTemp json data disk tmp files).1 = true ∧
        (disk.write = true ∧ disk.sync = true ∧ disk.close = true ∧ disk.rename = true) ∧
        ∃ f, json.encode data = some f ∧ (writeTemp json data disk tmp files).2 .cache = some f := by
  unfold writeTemp
  cases hencode : json.encode data with
  | none => exact Or.inl ⟨rfl, rfl⟩
  | some f =>
    have hother : (Function.update files tmp (some f)) .cache = files .cache :=
      Function.update_of_ne htmp _ _
    cases hwrite : disk.write with
    | false => exact Or.inl ⟨rfl, rfl⟩
    | true =>
      cases hsync : disk.sync with
      | false => exact Or.inl ⟨rfl, hother⟩
      | true =>
        cases hclose : disk.close with
        | false => exact Or.inl ⟨rfl, hother⟩
        | true =>
          cases hrename : disk.rename with
          | false => exact Or.inl ⟨rfl, hother⟩
          | true =>
            refine Or.inr ⟨rfl, ⟨rfl, rfl, rfl, rfl⟩, f, rfl, ?_⟩
            show Function.update (Function.update (Function.update files tmp (some f)) Name.cache (some f))
              tmp none Name.cache = some f
            rw [Function.update_of_ne htmp, Function.update_self]

/-- **What `persist` does to the cache file.** -/
theorem persist_cache (json : Json File) (data : Snapshot) (disk : Disk File) (files : Files File) :
    ((persist json data disk files).1 = false ∧ (persist json data disk files).2 .cache = files .cache) ∨
      (persist json data disk files).1 = true ∧ Succeeds disk ∧
        ∃ f, json.encode data = some f ∧ (persist json data disk files).2 .cache = some f := by
  unfold persist
  cases hmkdir : disk.mkdirAll with
  | false => exact Or.inl ⟨rfl, rfl⟩
  | true =>
    cases htemp : disk.createTemp with
    | none => exact Or.inl ⟨rfl, rfl⟩
    | some random =>
      have htmp : Name.cache ≠ .temp random := fun h => by cases h
      have hfiles : Function.update files (.temp random) (some disk.unfinished) .cache = files .cache :=
        Function.update_of_ne htmp _ _
      have hremove (fs : Files File) :
          (if disk.remove then Function.update fs (.temp random) none else fs) .cache = fs .cache := by
        split_ifs
        · exact Function.update_of_ne htmp _ _
        · rfl
      simp only [Bool.not_true, Bool.false_eq_true, if_false]
      rw [hremove, ← hfiles]
      rcases writeTemp_cache json data disk htmp (Function.update files (.temp random) (some disk.unfinished))
        with h | ⟨hok, ⟨hwrite, hsync, hclose, hrename⟩, hf⟩
      · exact Or.inl h
      · refine Or.inr ⟨hok, ⟨hmkdir, ?_, hwrite, hsync, hclose, hrename⟩, hf⟩
        rw [htemp]
        rfl

/-! ### What a refresh does -/

/-- The response and the disk let a refresh succeed. -/
structure Usable (env : Env File) (a : Attempt File) (reply : Reply) (csv : Csv) : Prop where
  requested : a.request = true
  replied : a.reply = some reply
  status : reply.status = 200
  complete : reply.complete = true
  size : reply.body.length ≤ maxDownload
  read : env.csv reply.body = some csv
  accepted : ¬ Rejected env.parseFloat csv
  enough : 100 ≤ (qualifying csv.header csv.rows).length

/-- The snapshot of a response. -/
def snapshotOf (env : Env File) (now : Int) (reply : Reply) (airports : List Airport) : Snapshot :=
  ⟨airports, now, reply.lastModified, hexText (env.sum reply.body).toList⟩

/-- **What is fetched.** -/
theorem fetch_ok (hsort : ∀ l, Sorted less l (env.sort l)) {next : Snapshot} (h : fetch env a = .ok next) :
    ∃ reply csv airports, Usable env a reply csv ∧
      parse env.parseFloat env.sort (some csv) = .ok airports ∧ 100 ≤ airports.length ∧
      next = snapshotOf env a.now reply airports := by
  unfold fetch at h
  cases hrequest : a.request with
  | false => rw [hrequest] at h; cases h
  | true =>
    rw [hrequest] at h
    cases hreply : a.reply with
    | none => rw [hreply] at h; cases h
    | some reply =>
      rw [hreply] at h
      simp only [Bool.not_true, Bool.false_eq_true, if_false] at h
      split_ifs at h with hstatus hcomplete hsize
      have hbody : reply.body.take (maxDownload + 1) = reply.body := by
        rw [List.length_take] at hsize
        exact List.take_of_length_le (by omega)
      simp only [hbody] at h hsize
      cases hcsv : env.csv reply.body with
      | none => simp only [hcsv] at h; cases h
      | some csv =>
        simp only [hcsv] at h
        cases hparse : parse env.parseFloat env.sort (some csv) with
        | error e => simp only [hparse] at h; cases h
        | ok airports =>
          simp only [hparse] at h
          split_ifs at h with hfew
          obtain ⟨-, -, as, has, -, -, rfl⟩ := parse_iff.mp hparse
          have hlen : (qualifying csv.header csv.rows).length = (env.sort as).length := by
            have hmap := congrArg List.length has
            rw [List.length_map, List.length_map] at hmap
            rw [hmap, (hsort as).perm.length_eq]
          have haccepted : ¬ Rejected env.parseFloat csv := by
            intro hbad
            obtain ⟨e, he⟩ := rejected_iff.mpr hbad
            rw [hparse] at he
            cases he
          refine ⟨reply, csv, env.sort as, ⟨hrequest, hreply, ?_, ?_, ?_, hcsv, haccepted, ?_⟩, hparse, ?_, ?_⟩
          · exact not_not.mp hstatus
          · simpa using hcomplete
          · omega
          · omega
          · omega
          · exact (Except.ok.inj h).symm

/-- **What `Refresh` can do.** -/
inductive RefreshOut (env : Env File) (a : Attempt File) (c : Catalog) (files : Files File) :
    Except RefreshErr Unit × Catalog × Files File → Prop
  | failed (e : RefreshErr) (files' : Files File) (hcache : files' .cache = files .cache) :
      RefreshOut env a c files (.error e, { c with lastErr := warning }, files')
  | installed (next : Snapshot) (f : File) (files' : Files File) (hfetch : fetch env a = .ok next)
      (hdisk : Succeeds a.disk) (hencode : env.json.encode next = some f)
      (hcache : files' .cache = some f) :
      RefreshOut env a c files (.ok (), ⟨next, ""⟩, files')

theorem refresh_out (env : Env File) (a : Attempt File) (c : Catalog) (files : Files File) :
    RefreshOut env a c files (refresh env a c files) := by
  unfold refresh
  cases hfetch : fetch env a with
  | error e => exact .failed e files rfl
  | ok next =>
    dsimp only
    have hp := persist_cache env.json next a.disk files
    generalize persist env.json next a.disk files = x at hp
    obtain ⟨ok, files'⟩ := x
    rcases hp with ⟨rfl, hcache⟩ | ⟨rfl, hdisk, f, hencode, hcache⟩
    · exact .failed .persist files' hcache
    · exact .installed next f files' hfetch hdisk hencode hcache

/-! ### UTF-8 -/

/-- The columns whose texts are kept and not compared with a fixed list. -/
def keptColumns : List Text :=
  [text "ident", text "iata_code", text "name", text "municipality", text "iso_region", text "type"]

/-- **The strings a refresh would install are UTF-8.** -/
def WellEncoded (env : Env File) (a : Attempt File) : Prop :=
  ∀ reply csv, Usable env a reply csv → Succeeds a.disk →
    valid 0 reply.lastModified = true ∧
      ∀ row ∈ qualifying csv.header csv.rows, ∀ k ∈ keptColumns, valid 0 (field csv.header row k) = true

theorem valid_usCountry {s : Text} (h : usCountry s = true) : valid 0 s = true := by
  rw [usCountry, List.any_eq_true] at h
  obtain ⟨t, ht, hst⟩ := h
  have hall : ∀ t ∈ [text "US", text "PR", text "VI", text "GU", text "AS", text "MP", text "UM"],
      valid 0 t = true := by decide +kernel
  rw [of_decide_eq_true hst]
  exact hall t ht

theorem valid_hexText (bytes : List Byte) : valid 0 (hexText bytes) = true := by
  have hdigit : ∀ n < 16, (hexDigit n).val < 0x80 := by decide
  refine valid_of_ascii fun c hc => ?_
  obtain ⟨b, -, hb⟩ := List.mem_flatMap.mp hc
  simp only [List.mem_cons, List.not_mem_nil, or_false] at hb
  rcases hb with rfl | rfl
  · exact hdigit _ (by omega)
  · exact hdigit _ (by omega)

/-- A record whose texts are UTF-8 is given back as it is. -/
theorem replacedAirport_eq {parseFloat : Text → Option Float64} {header row : Record} {x : Airport}
    (hx : airportOf parseFloat header row = some x) (hq : qualifies header row = true)
    (hvalid : ∀ k ∈ keptColumns, valid 0 (field header row k) = true) : replacedAirport x = x := by
  have hcountry : usCountry (field header row (text "iso_country")) = true := by
    simp only [qualifies, Bool.and_eq_true] at hq
    exact hq.1.1
  have hkept : ∀ k ∈ keptColumns, toValid 0 (field header row k) = field header row k := fun k hk =>
    toValid_of_valid (hvalid k hk)
  unfold airportOf at hx
  cases hlat : parseFloat (field header row (text "latitude_deg")) with
  | none => rw [hlat] at hx; cases hx
  | some lat =>
    cases hlng : parseFloat (field header row (text "longitude_deg")) with
    | none => rw [hlat, hlng] at hx; cases hx
    | some lng =>
      rw [hlat, hlng] at hx
      obtain rfl := Option.some.inj hx
      simp only [replacedAirport, toValid_of_valid (valid_usCountry hcountry),
        hkept (text "ident") (by simp [keptColumns]), hkept (text "iata_code") (by simp [keptColumns]),
        hkept (text "name") (by simp [keptColumns]), hkept (text "municipality") (by simp [keptColumns]),
        hkept (text "iso_region") (by simp [keptColumns]), hkept (text "type") (by simp [keptColumns])]

/-- What is known of the records `parse` returns. -/
theorem parsed (hsort : ∀ l, Sorted less l (env.sort l)) {csv : Csv} {airports : List Airport}
    (h : parse env.parseFloat env.sort (some csv) = .ok airports) :
    (∀ x ∈ airports, Sound x ∧ ∃ row ∈ qualifying csv.header csv.rows,
      airportOf env.parseFloat csv.header row = some x) ∧ (airports.map (·.ident)).Nodup := by
  obtain ⟨-, -, as, has, hsound, hnodup, rfl⟩ := parse_iff.mp h
  refine ⟨fun x hx => ?_, ((hsort as).perm.map _).nodup_iff.mpr hnodup⟩
  have hx' : x ∈ as := (hsort as).perm.mem_iff.mp hx
  have hmem : some x ∈ (qualifying csv.header csv.rows).map (airportOf env.parseFloat csv.header) :=
    has ▸ List.mem_map_of_mem hx'
  obtain ⟨row, hrow, hrecord⟩ := List.mem_map.mp hmem
  exact ⟨hsound x hx', row, hrow, hrecord⟩

theorem isFinite_of_outside {bound : ℚ} {x : Float64} (h : x.outside bound = false) : isFinite x = true := by
  cases x with
  | finite x => rfl
  | nan => cases h
  | inf _ => cases h

/-- A snapshot that was fetched can be written. -/
theorem finite_of_fetch (hsort : ∀ l, Sorted less l (env.sort l)) {next : Snapshot}
    (h : fetch env a = .ok next) : next.finite = true := by
  obtain ⟨reply, csv, airports, -, hparse, -, rfl⟩ := fetch_ok hsort h
  refine List.all_eq_true.mpr fun x hx => ?_
  have hsound := ((parsed hsort hparse).1 x hx).1
  rw [isFinite_of_outside hsound.lat, isFinite_of_outside hsound.lng]
  rfl

/-- **A snapshot of UTF-8 strings is given back as it is.** -/
theorem replaced_eq (hsort : ∀ l, Sorted less l (env.sort l)) (hutf8 : WellEncoded env a)
    (hdisk : Succeeds a.disk) {next : Snapshot} (h : fetch env a = .ok next) : next.replaced = next := by
  obtain ⟨reply, csv, airports, husable, hparse, -, rfl⟩ := fetch_ok hsort h
  obtain ⟨hmodified, hfields⟩ := hutf8 reply csv husable hdisk
  have hairports : airports.map replacedAirport = airports := by
    refine (List.map_congr_left fun x hx => ?_).trans (List.map_id airports)
    obtain ⟨-, row, hrow, hrecord⟩ := (parsed hsort hparse).1 x hx
    exact replacedAirport_eq hrecord (qualifies_of_mem hrow) (hfields row hrow)
  simp only [snapshotOf, Snapshot.replaced, hairports, toValid_of_valid hmodified,
    toValid_of_valid (valid_hexText _)]

theorem validate_of_fetch (hsort : ∀ l, Sorted less l (env.sort l)) {next : Snapshot}
    (h : fetch env a = .ok next) : validate [] next.airports = .ok () := by
  obtain ⟨reply, csv, airports, -, hparse, -, rfl⟩ := fetch_ok hsort h
  obtain ⟨hall, hnodup⟩ := parsed hsort hparse
  exact validate_iff.mpr ⟨fun x hx => ⟨(hall x hx).1, List.not_mem_nil⟩, hnodup⟩

/-! ### Memory and disk -/

/-- The snapshot is the one on disk; without a cache file, that of an empty catalog. -/
def OnDisk (env : Env File) (snapshot : Snapshot) (files : Files File) : Prop :=
  match files .cache with
  | none => snapshot = .zero
  | some f => env.json.decode f = some snapshot

/-- **The invariant**: the process serves what is on disk, and `New` would accept it. -/
structure Served (env : Env File) (snapshot : Snapshot) (files : Files File) : Prop where
  onDisk : OnDisk env snapshot files
  accepted : validate [] snapshot.airports = .ok ()

theorem Served.of_new {c : Catalog} (h : new env files = .ok c) : Served env c.snapshot files := by
  unfold new at h
  cases hcache : files .cache with
  | none =>
    rw [hcache] at h
    obtain rfl := Except.ok.inj h
    exact ⟨by rw [OnDisk, hcache], rfl⟩
  | some f =>
    rw [hcache] at h
    cases hdecode : env.json.decode f with
    | none => simp only [hdecode] at h; cases h
    | some s =>
      cases hvalid : validate [] s.airports with
      | error e => simp only [hdecode, hvalid] at h; cases h
      | ok u =>
        simp only [hdecode, hvalid] at h
        obtain rfl := Except.ok.inj h
        refine ⟨?_, hvalid⟩
        rw [OnDisk, hcache]
        exact hdecode

/-- **A restart serves what was served.** -/
theorem Served.new {snapshot : Snapshot} (h : Served env snapshot files) :
    Service.new env files = .ok ⟨snapshot, ""⟩ := by
  have hdisk := h.onDisk
  unfold OnDisk at hdisk
  unfold Service.new
  cases hcache : files .cache with
  | none =>
    rw [hcache] at hdisk
    rw [hdisk]
  | some f =>
    rw [hcache] at hdisk
    simp only [hdisk, h.accepted]

theorem Served.congr {snapshot : Snapshot} {files' : Files File} (h : Served env snapshot files)
    (hcache : files' .cache = files .cache) : Served env snapshot files' := by
  refine ⟨?_, h.accepted⟩
  rw [OnDisk, hcache]
  exact h.onDisk

/-- **One refresh** keeps memory and disk in step. -/
theorem Served.refresh (hsort : ∀ l, Sorted less l (env.sort l)) (hutf8 : WellEncoded env a) {c : Catalog}
    (h : Served env c.snapshot files) :
    Served env (Service.refresh env a c files).2.1.snapshot (Service.refresh env a c files).2.2 := by
  have hout := refresh_out env a c files
  generalize Service.refresh env a c files = x at hout
  cases hout with
  | failed e files' hcache => exact h.congr hcache
  | installed next f files' hfetch hdisk hencode hcache =>
    refine ⟨?_, validate_of_fetch hsort hfetch⟩
    obtain ⟨f', hencode', hdecode⟩ := env.json.roundTrip next (finite_of_fetch hsort hfetch)
    rw [hencode, Option.some.injEq] at hencode'
    show OnDisk env next files'
    rw [OnDisk, hcache]
    show env.json.decode f = some next
    rw [hencode', hdecode, replaced_eq hsort hutf8 hdisk hfetch]

/-! ### Runs -/

/-- The snapshot an event installs: that of a refresh that succeeds. -/
def installs (env : Env File) (s : Sys File) : Event File → Option Snapshot
  | .refresh a =>
    match s.process with
    | .error _ => none
    | .ok c =>
      match Service.refresh env a c s.files with
      | (.ok (), c', _) => some c'.snapshot
      | (.error _, _, _) => none
  | .restart => none

/-- The snapshot of the last refresh that succeeded, `good` if none did. -/
def lastGood (env : Env File) : List (Event File) → Sys File → Snapshot → Snapshot
  | [], _, good => good
  | e :: es, s, good => lastGood env es (e.step env s) ((installs env s e).getD good)

/-- **One event.** -/
theorem Served.step (hsort : ∀ l, Sorted less l (env.sort l)) {c : Catalog} {e : Event File}
    (he : ∀ a, e = .refresh a → WellEncoded env a) (h : Served env c.snapshot files) :
    ∃ c' files', e.step env ⟨.ok c, files⟩ = ⟨.ok c', files'⟩ ∧ Served env c'.snapshot files' ∧
      c'.snapshot = (installs env ⟨.ok c, files⟩ e).getD c.snapshot := by
  cases e with
  | restart =>
    refine ⟨⟨c.snapshot, ""⟩, files, ?_, h, rfl⟩
    rw [Event.step, h.new]
  | refresh a =>
    refine ⟨_, _, rfl, h.refresh hsort (he a rfl), ?_⟩
    have hout := refresh_out env a c files
    show (Service.refresh env a c files).2.1.snapshot = Option.getD
      (match Service.refresh env a c files with
        | (.ok (), c', _) => some c'.snapshot
        | (.error _, _, _) => none) c.snapshot
    generalize Service.refresh env a c files = x at hout
    cases hout with
    | failed e files' hcache => rfl
    | installed next f files' hfetch hdisk hencode hcache => rfl

/-- **A run** keeps the process alive, serving what is on disk and was refreshed last. -/
theorem Served.run (hsort : ∀ l, Sorted less l (env.sort l)) : ∀ {es : List (Event File)} {c : Catalog}
    {files : Files File}, (∀ a, .refresh a ∈ es → WellEncoded env a) → Served env c.snapshot files →
    ∃ c' files', run env es ⟨.ok c, files⟩ = ⟨.ok c', files'⟩ ∧ Served env c'.snapshot files' ∧
      c'.snapshot = lastGood env es ⟨.ok c, files⟩ c.snapshot
  | [], c, files, _, h => ⟨c, files, rfl, h, rfl⟩
  | e :: es, c, files, hes, h => by
    obtain ⟨c₁, files₁, hstep, h₁, hgood⟩ := h.step hsort fun a ha => hes a (ha ▸ List.mem_cons_self)
    obtain ⟨c', files', hrun, h', hlast⟩ := Served.run hsort
      (fun a ha => hes a (List.mem_cons_of_mem e ha)) h₁
    refine ⟨c', files', ?_, h', ?_⟩
    · rw [← hrun, ← hstep]
      rfl
    · rw [hlast, lastGood, hstep, hgood]

/-- **Refreshing is atomic** across failures and restarts, where what is installed is UTF-8. -/
theorem refresh_atomic (env : Env File) (hsort : ∀ l, Sorted less l (env.sort l)) (files : Files File)
    (c₀ : Catalog) (hnew : new env files = .ok c₀) (es : List (Event File))
    (hes : ∀ a, .refresh a ∈ es → WellEncoded env a) :
    ∃ c files', run env es ⟨.ok c₀, files⟩ = ⟨.ok c, files'⟩ ∧ OnDisk env c.snapshot files' ∧
      (∃ c', new env files' = .ok c' ∧
        c'.snapshot = lastGood env es ⟨.ok c₀, files⟩ c₀.snapshot) ∧
      ∀ a, WellEncoded env a →
        match refresh env a c files' with
        | (.error _, c', files'') =>
          c'.snapshot = c.snapshot ∧ files'' .cache = files' .cache ∧ c'.lastErr = warning ∧
            OnDisk env c'.snapshot files''
        | (.ok (), c', files'') =>
          (∃ reply airports, a.reply = some reply ∧
            parse env.parseFloat env.sort (env.csv reply.body) = .ok airports ∧ 100 ≤ airports.length ∧
            c'.snapshot = snapshotOf env a.now reply airports) ∧
            c'.lastErr = "" ∧ OnDisk env c'.snapshot files'' := by
  obtain ⟨c, files', hrun, h, hlast⟩ := (Served.of_new hnew).run hsort hes
  refine ⟨c, files', hrun, h.onDisk, ⟨_, h.new, hlast⟩, fun a ha => ?_⟩
  have hdisk := (h.refresh hsort ha).onDisk
  have hout := refresh_out env a c files'
  generalize refresh env a c files' = x at hout hdisk
  cases hout with
  | failed e files'' hcache => exact ⟨rfl, hcache, rfl, hdisk⟩
  | installed next f files'' hfetch =>
    obtain ⟨reply, csv, airports, husable, hparse, hlen, rfl⟩ := fetch_ok hsort hfetch
    refine ⟨⟨reply, airports, husable.replied, ?_, hlen, rfl⟩, rfl, hdisk⟩
    rw [husable.read]
    exact hparse

/-! ### Two sources -/

/-- `encoding/json`, where a file is what it decodes to. -/
def plainJson : Json Snapshot where
  encode s := if s.finite then some s.replaced else none
  decode := some
  roundTrip s h := ⟨s.replaced, if_pos h, rfl⟩

/-- An airport in Seattle. -/
def seattleRow (ident : Text) : Record :=
  [ident, [], text "Airport", text "Seattle", text "US-WA", text "US", text "small_airport", text "47",
    text "-122", text "yes"]

/-- The airports from `K00` to `K97`, and two more. -/
def hundredIdents (x y : Text) : List Text :=
  ((List.range 98).map fun i => [75, Fin.ofNat 256 (48 + i / 10), Fin.ofNat 256 (48 + i % 10)]) ++ [x, y]

def hundredRows (x y : Text) : Csv where
  header := required
  rows := (hundredIdents x y).map fun ident => some (seattleRow ident)
  width row h := by
    obtain ⟨ident, -, hident⟩ := List.mem_map.mp h
    rw [← Option.some.inj hident]
    rfl

/-- The text of the source: the fields of a line with commas in between. -/
def hundredLines (x y : Text) : Text :=
  (required :: (hundredIdents x y).map seattleRow).flatMap fun row => (row.intersperse [44]).flatten ++ [10]

/-- The packages, on the one text that is read. -/
def hundredEnv (x y : Text) : Env Snapshot where
  json := plainJson
  csv _ := some (hundredRows x y)
  parseFloat t := [(text "47", 47), (text "-122", -122)].lookup t |>.map .finite
  sort := List.insertionSort fun a b => a.ident ≤ b.ident
  sum _ := Vector.replicate 32 0

def hundredAttempt (x y : Text) : Attempt Snapshot where
  request := true
  reply := some ⟨200, hundredLines x y, true, []⟩
  now := 0
  disk := ⟨true, some "1", .zero, true, true, true, true, true⟩

/-- A refresh of an empty directory. -/
def refreshed (x y : Text) : Sys Snapshot :=
  run (hundredEnv x y) [.refresh (hundredAttempt x y)] ⟨.ok ⟨.zero, ""⟩, fun _ => none⟩

theorem valid_field {header row : Record} (h : ∀ t ∈ row, valid 0 t = true) (k : Text) :
    valid 0 (field header row k) = true := by
  unfold field
  cases hk : (header.zip row).reverse.lookup k with
  | none => rfl
  | some t =>
    obtain ⟨l₁, l₂, hl, -⟩ := List.lookup_eq_some_iff.mp hk
    have hmem : (k, t) ∈ (header.zip row).reverse := hl ▸ by simp
    exact h t (List.of_mem_zip (List.mem_reverse.mp hmem)).2

theorem valid_seattleRow {ident : Text} (h : valid 0 ident = true) :
    ∀ t ∈ seattleRow ident, valid 0 t = true := by
  have hrest : ∀ t ∈ (seattleRow []).tail, valid 0 t = true := by decide +kernel
  intro t ht
  rcases List.mem_cons.mp ht with rfl | ht
  · exact h
  · exact hrest t ht

theorem refresh_atomic_hundred :
    let x := text "K98"
    let y := text "K99"
    (refresh (hundredEnv x y) (hundredAttempt x y) ⟨.zero, ""⟩ fun _ => none).1 = .ok () ∧
      ∃ c files', refreshed x y = ⟨.ok c, files'⟩ ∧ OnDisk (hundredEnv x y) c.snapshot files' ∧
        ∃ c', new (hundredEnv x y) files' = .ok c' := by
  intro x y
  refine ⟨by decide +kernel, ?_⟩
  have hidents : ∀ ident ∈ hundredIdents x y, valid 0 ident = true := by decide +kernel
  have hutf8 : ∀ row ∈ qualifying (hundredRows x y).header (hundredRows x y).rows, ∀ k ∈ keptColumns,
      valid 0 (field (hundredRows x y).header row k) = true := by
    intro row hrow k _
    obtain ⟨r, hr, hqualifies⟩ := List.mem_filterMap.mp hrow
    obtain ⟨ident, hident, rfl⟩ := List.mem_map.mp hr
    obtain ⟨hsome, -⟩ := Option.filter_eq_some_iff.mp hqualifies
    obtain rfl := Option.some.inj hsome
    exact valid_field (valid_seattleRow (hidents ident hident)) k
  have hes : WellEncoded (hundredEnv x y) (hundredAttempt x y) := by
    intro reply csv husable _
    obtain rfl : hundredRows x y = csv := Option.some.inj husable.read
    obtain rfl : (⟨200, hundredLines x y, true, []⟩ : Reply) = reply := Option.some.inj husable.replied
    exact ⟨rfl, hutf8⟩
  obtain ⟨c, files', hrun, hdisk, ⟨c', hnew, -⟩, -⟩ := refresh_atomic (hundredEnv x y) sorted_insertionSort
    (fun _ => none) ⟨.zero, ""⟩ rfl [.refresh (hundredAttempt x y)] (fun a ha => by
      obtain rfl := Event.refresh.inj (List.mem_singleton.mp ha)
      exact hes)
  exact ⟨c, files', hrun, hdisk, c', hnew⟩

/-- **A source that is not UTF-8**: two identifiers that are different bytes of no rune. The refresh
succeeds, memory and disk differ, and the file is rejected after a restart. -/
theorem refresh_not_atomic :
    let x : Text := [75, 0xFE]
    let y : Text := [75, 0xFF]
    new (hundredEnv x y) (fun _ => none) = .ok ⟨.zero, ""⟩ ∧
      (refresh (hundredEnv x y) (hundredAttempt x y) ⟨.zero, ""⟩ fun _ => none).1 = .ok () ∧
      (∃ c, (refreshed x y).process = .ok c ∧ ¬ OnDisk (hundredEnv x y) c.snapshot (refreshed x y).files) ∧
      new (hundredEnv x y) (refreshed x y).files = .error (.validate .record) := by
  intro x y
  have hrun : (refresh (hundredEnv x y) (hundredAttempt x y) ⟨.zero, ""⟩ fun _ => none).1 = .ok () ∧
      (match (refreshed x y).process, (refreshed x y).files .cache with
        | .ok c, some f => decide (plainJson.decode f ≠ some c.snapshot)
        | _, _ => false) = true ∧
      new (hundredEnv x y) (refreshed x y).files = .error (.validate .record) := by
    decide +kernel
  obtain ⟨hrefresh, hdiffer, hnew⟩ := hrun
  refine ⟨rfl, hrefresh, ?_, hnew⟩
  unfold OnDisk
  revert hdiffer
  cases (refreshed x y).process with
  | error e => exact fun h => by cases h
  | ok c =>
    cases (refreshed x y).files .cache with
    | none => exact fun h => by cases h
    | some f => exact fun h => ⟨c, rfl, of_decide_eq_true h⟩

end Afterglow.Airports.Recovery
