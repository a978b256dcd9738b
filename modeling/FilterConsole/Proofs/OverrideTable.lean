import FilterConsole.Proofs.ByteOrder
import FilterConsole.Proofs.HttpContract
import FilterConsole.Proofs.JsonReadBack
import FilterConsole.Proofs.JsonShapes

/-! The forced answers that a body holds. Each member has to be an array of octets, also where a later one has its name;
of those that stay, all have four octets, or the first one that has not, in the order of names, is reported. -/

namespace FilterConsole

variable {α : Type}

/-- In increasing order, what is found first has the least name of all that could be found. -/
theorem find?_eq_some_iff_of_sorted {l : List (String × α)} (hl : l.Pairwise fun x y => x.1 < y.1) {p : String × α → Bool}
    {e : String × α} :
    l.find? p = some e ↔ e ∈ l ∧ p e = true ∧ ∀ x ∈ l, p x = true → x.1 ≠ e.1 → e.1 < x.1 := by
  induction l with
  | nil => simp
  | cons d l ih =>
    obtain ⟨hd, hsorted⟩ := List.pairwise_cons.mp hl
    by_cases hp : p d = true
    · rw [List.find?_cons_of_pos hp, Option.some.injEq]
      constructor
      · rintro rfl
        refine ⟨List.mem_cons_self, hp, fun x hx _ hne => ?_⟩
        rcases List.mem_cons.mp hx with rfl | hx
        · exact absurd rfl hne
        · exact hd x hx
      · rintro ⟨he, _, hleast⟩
        rcases List.mem_cons.mp he with rfl | he
        · rfl
        · have hlt := hd e he
          have hgt := hleast d List.mem_cons_self hp (String.ne_of_lt hlt)
          exact absurd (String.lt_trans hlt hgt) (String.lt_irrefl _)
    · rw [List.find?_cons_of_neg hp, ih hsorted]
      constructor
      · rintro ⟨he, hpe, hleast⟩
        refine ⟨List.mem_cons_of_mem d he, hpe, fun x hx hpx => ?_⟩
        rcases List.mem_cons.mp hx with rfl | hx
        · exact absurd hpx hp
        · exact hleast x hx hpx
      · rintro ⟨he, hpe, hleast⟩
        rcases List.mem_cons.mp he with rfl | he
        · exact absurd hpe hp
        · exact ⟨he, hpe, fun x hx => hleast x (List.mem_cons_of_mem d hx)⟩

namespace Wire

open Json

def IsOctets (v : Json) (octets : List UInt8) : Prop := ListOf (fun w o => w = .integer o.toNat) v octets

def HoldsOctets (v : Json) (pairs : List (String × List UInt8)) : Prop :=
  ∃ members, v = .object members ∧
    List.Forall₂ (fun m p => readText? m.1 = some p.1 ∧ IsOctets m.2 p.2) members pairs

def lastOf (pairs : List (String × List UInt8)) (name : String) : Option (List UInt8) := pairs.reverse.lookup name

/-- The name that is reported, with its octets: of the names whose last octets are not four, the first one in the order of
bytes. -/
structure Reported (pairs : List (String × List UInt8)) (name : String) (octets : List UInt8) : Prop where
  last : lastOf pairs name = some octets
  malformed : octets.length ≠ 4
  least : ∀ other octets', lastOf pairs other = some octets' → octets'.length ≠ 4 → other ≠ name →
    utf8 name < utf8 other

variable {v : Json} {pairs : List (String × List UInt8)}

theorem octetPairs?_eq_some_iff : octetPairs? v = some pairs ↔ HoldsOctets v pairs := by
  cases v with
  | object members =>
    have hoctets : ∀ v octets, list? octet? v = some octets ↔ IsOctets v octets :=
      fun v octets => list?_eq_some_iff fun w o => octet?_eq_some_iff
    rw [octetPairs?, mapM_members_eq_some_iff hoctets]
    exact ⟨fun h => ⟨members, rfl, h⟩, fun ⟨_, hobject, h⟩ => Json.object.inj hobject ▸ h⟩
  | _ => exact ⟨nofun, nofun⟩

theorem override_error_iff {domain : String} {octets : List UInt8} {failure : TransportFailure} :
    override domain octets = .error failure ↔ octets.length ≠ 4 ∧ failure = .malformedOverride domain octets := by
  by_cases hfour : octets.length = 4
  · obtain ⟨x, hx, _⟩ := ofOctets_of_length hfour
    simp [override, hx, hfour]
  · have hnone : ∀ x, override domain octets ≠ .ok x := fun x h => hfour (override_ok_iff.mp h ▸ rfl)
    unfold override at hnone ⊢
    split at hnone
    · exact absurd rfl (hnone _)
    · simp [hfour, eq_comm]

def malformed (e : String × List UInt8) : Bool := e.2.length != 4

@[simp] theorem malformed_iff {e : String × List UInt8} : malformed e = true ↔ e.2.length ≠ 4 := bne_iff_ne

theorem mapM_override_error_iff {entries : List (String × List UInt8)} {failure : TransportFailure} :
    (entries.mapM fun e => do return (e.1, ← override e.1 e.2)) = .error failure ↔
      ∃ e, entries.find? malformed = some e ∧ failure = .malformedOverride e.1 e.2 := by
  induction entries with
  | nil => simp [pure, Except.pure]
  | cons e entries ih =>
    rw [List.mapM_cons]
    by_cases hbad : malformed e = true
    · have hx : override e.1 e.2 = .error (.malformedOverride e.1 e.2) :=
        override_error_iff.mpr ⟨malformed_iff.mp hbad, rfl⟩
      rw [List.find?_cons_of_pos hbad, hx]
      simp [bind, Except.bind, eq_comm]
    · obtain ⟨x, hx⟩ : ∃ x, override e.1 e.2 = .ok x := by
        cases hx : override e.1 e.2 with
        | ok x => exact ⟨x, rfl⟩
        | error failure => exact absurd (malformed_iff.mpr (override_error_iff.mp hx).1) hbad
      -- The rest fails as it would by itself.
      rw [List.find?_cons_of_neg hbad, ← ih, hx]
      cases entries.mapM fun e => do return (e.1, ← override e.1 e.2) <;> simp [bind, Except.bind, pure, Except.pure]

theorem overrides_error_iff {failure : TransportFailure} :
    overrides (.ofList pairs) = .error failure ↔
      ∃ name octets, Reported pairs name octets ∧ failure = .malformedOverride name octets := by
  have hmapM : overrides (.ofList pairs) = .error failure ↔
      ((Table.ofList pairs).entries.mapM fun e => do return (e.1, ← override e.1 e.2)) = .error failure := by
    rw [overrides]
    cases (Table.ofList pairs).entries.mapM fun e => do return (e.1, ← override e.1 e.2) <;>
      simp [bind, Except.bind, pure, Except.pure]
  have hreported : ∀ e : String × List UInt8,
      (Table.ofList pairs).entries.find? malformed = some e ↔ Reported pairs e.1 e.2 := by
    intro e
    rw [find?_eq_some_iff_of_sorted (Table.ofList pairs).sorted]
    simp only [Table.mem_entries_iff, Table.get?_ofList, malformed_iff, ← utf8_lt_iff]
    constructor
    · rintro ⟨hlast, hbad, hleast⟩
      exact ⟨hlast, hbad, fun other octets => hleast (other, octets)⟩
    · exact fun h => ⟨h.last, h.malformed, fun x => h.least x.1 x.2⟩
  rw [hmapM, mapM_override_error_iff]
  simp only [hreported, Prod.exists]

end Wire

namespace Http

open Json Wire

variable {body : Bytes} {pairs : List (String × List UInt8)}

def HoldsOverrides (body : Bytes) (pairs : List (String × List UInt8)) : Prop :=
  ∃ v, parse? body = some v ∧ HoldsOctets v pairs

theorem decode_overrides_of_holds (h : HoldsOverrides body pairs) :
    decode body .overrides = overrides (.ofList pairs) := by
  obtain ⟨v, hv, hpairs⟩ := h
  have htable : (parse? body >>= octetTable?) = some (.ofList pairs) := by
    rw [hv, Option.bind_eq_bind, Option.bind_some, octetTable?_eq, octetPairs?_eq_some_iff.mpr hpairs]
    rfl
  rw [decode, htable]
  rfl

theorem decode_overrides_of_not_holds (h : ¬ ∃ pairs, HoldsOverrides body pairs) :
    decode body .overrides = .error (.undecodable .overrides) := by
  have hnone : (parse? body >>= octetTable?) = none := by
    cases hparse : parse? body with
    | none => rfl
    | some v =>
      rw [Option.bind_eq_bind, Option.bind_some, octetTable?_eq, Option.map_eq_none_iff]
      exact Option.eq_none_iff_forall_ne_some.mpr fun pairs hp => h ⟨pairs, v, hparse, octetPairs?_eq_some_iff.mp hp⟩
  rw [decode, hnone]
  rfl

def ofOctets (octets : List UInt8) : Json := .array (octets.map fun o => .integer o.toNat)

/-- Any pairs are held by a body: their object as it is written. -/
theorem holdsOverrides_write (pairs : List (String × List UInt8)) :
    HoldsOverrides (ofFields (pairs.map fun p => (p.1, ofOctets p.2))).write pairs := by
  refine ⟨_, parse?_write (plain_ofFields ?_), _, rfl, ?_⟩
  · simp only [List.forall_mem_map]
    refine fun p _ => .array ?_
    simp only [List.forall_mem_map]
    exact fun o _ => .scalar (legible_integer _)
  · rw [List.map_map, List.forall₂_map_left_iff, List.forall₂_same]
    refine fun p _ => ⟨readText?_escape p.1, _, rfl, ?_⟩
    rw [List.forall₂_map_left_iff, List.forall₂_same]
    exact fun o _ => rfl

theorem mapError_eq_error_iff {α ε ε' : Type} {x : Except ε α} {f : ε → ε'} {e : ε'} :
    x.mapError f = .error e ↔ ∃ failure, x = .error failure ∧ e = f failure := by
  cases x <;> simp [Except.mapError, eq_comm]

theorem message_malformedOverride (name : String) (octets : List UInt8) :
    (ConsoleError.transport (.malformedOverride name octets)).message =
      "Transport error: malformed override address for " ++ name ++ ": " ++ octetList octets := by
  have hstart : "Transport error: malformed override address for " =
      "Transport error: " ++ "malformed override address for " := by decide +kernel
  change "Transport error: " ++ ("malformed override address for " ++ name ++ ": " ++ octetList octets) = _
  simp only [hstart, String.append_assoc]

section Answers

variable {status : Nat} (hstatus : 200 ≤ status ∧ status < 300) (h : HoldsOverrides body pairs)
include hstatus

theorem readReply_not_holds (hnone : ¬ ∃ pairs, HoldsOverrides body pairs) :
    readReply .overrides (.response status (some body)) = .error (.transport (.undecodable .overrides)) := by
  rw [readReply_body (statusFailure?_eq_none.mpr hstatus), decode_overrides_of_not_holds hnone]
  rfl

include h

theorem readReply_overrides :
    readReply .overrides (.response status (some body)) = (overrides (.ofList pairs)).mapError .transport := by
  rw [readReply_body (statusFailure?_eq_none.mpr hstatus), decode_overrides_of_holds h]

theorem readReply_overrides_ok_iff {a : Overrides} : readReply .overrides (.response status (some body)) = .ok a ↔
    ∀ name, (a.get? name).map Address.octets = lastOf pairs name := by
  rw [readReply_overrides hstatus h, mapError_eq_ok_iff, overrides_ok_iff]
  simp only [Table.get?_ofList, lastOf]

theorem readReply_overrides_error_iff {e : ConsoleError} :
    readReply .overrides (.response status (some body)) = .error e ↔
      ∃ name octets, Reported pairs name octets ∧ e = .transport (.malformedOverride name octets) := by
  rw [readReply_overrides hstatus h, mapError_eq_error_iff]
  simp only [overrides_error_iff]
  constructor
  · rintro ⟨_, ⟨name, octets, hreported, rfl⟩, rfl⟩
    exact ⟨name, octets, hreported, rfl⟩
  · rintro ⟨name, octets, hreported, rfl⟩
    exact ⟨_, ⟨name, octets, hreported, rfl⟩, rfl⟩

theorem exists_readReply_overrides_iff : (∃ a, readReply .overrides (.response status (some body)) = .ok a) ↔
    ∀ name octets, lastOf pairs name = some octets → octets.length = 4 := by
  constructor
  · rintro ⟨a, ha⟩ name octets hlast
    obtain ⟨x, _, rfl⟩ := Option.map_eq_some_iff.mp (((readReply_overrides_ok_iff hstatus h).mp ha name).trans hlast)
    rfl
  · intro hfour
    cases hresult : readReply .overrides (.response status (some body)) with
    | ok a => exact ⟨a, rfl⟩
    | error e =>
      obtain ⟨name, octets, hreported, _⟩ := (readReply_overrides_error_iff hstatus h).mp hresult
      exact absurd (hfour name octets hreported.last) hreported.malformed

end Answers

/-- The forced answers are read all or none. A body that is no object of arrays of octets is refused whole, also for the
sake of a member whose name comes again. Any other is read just when the last octets of each name are four, and then as
these; else, of the names whose last octets are not four, the first one in the order of bytes is reported. Bodies with the
same last octets are answered alike, in whatever order their members stand. -/
theorem overrides_all_or_nothing (body : Bytes) {status : Nat} (hstatus : 200 ≤ status ∧ status < 300) :
    let answer := fun body => readReply .overrides (.response status (some body))
    (∀ pairs, ∃ body', HoldsOverrides body' pairs) ∧
    (answer body = .error (.transport (.undecodable .overrides)) ↔ ¬ ∃ pairs, HoldsOverrides body pairs) ∧
    ∀ pairs, HoldsOverrides body pairs →
      ((∃ a, answer body = .ok a) ↔ ∀ name octets, lastOf pairs name = some octets → octets.length = 4) ∧
      (∀ a, answer body = .ok a ↔ ∀ name, (a.get? name).map Address.octets = lastOf pairs name) ∧
      (∀ e, answer body = .error e ↔
        ∃ name octets, Reported pairs name octets ∧ e = .transport (.malformedOverride name octets)) ∧
      (∀ e, answer body = .error e → ∃ name octets, Reported pairs name octets ∧
        e.message = "Transport error: malformed override address for " ++ name ++ ": " ++ octetList octets) ∧
      ∀ body' pairs', HoldsOverrides body' pairs' → (∀ name, lastOf pairs' name = lastOf pairs name) →
        answer body' = answer body := by
  refine ⟨fun pairs => ⟨_, holdsOverrides_write pairs⟩, ⟨?_, readReply_not_holds hstatus⟩, fun pairs h =>
    ⟨exists_readReply_overrides_iff hstatus h, fun a => readReply_overrides_ok_iff hstatus h,
      fun e => readReply_overrides_error_iff hstatus h, fun e he => ?_, fun body' pairs' h' hsame => ?_⟩⟩
  · rintro hundecodable ⟨pairs, h⟩
    obtain ⟨name, octets, _, heq⟩ := (readReply_overrides_error_iff hstatus h).mp hundecodable
    cases heq
  · obtain ⟨name, octets, hreported, rfl⟩ := (readReply_overrides_error_iff hstatus h).mp he
    exact ⟨name, octets, hreported, message_malformedOverride name octets⟩
  · have htable : Table.ofList pairs' = Table.ofList pairs := by
      refine Table.ext_get? fun name => ?_
      rw [Table.get?_ofList, Table.get?_ofList]
      exact hsame name
    dsimp only
    rw [readReply_overrides hstatus h, readReply_overrides hstatus h', htable]

/-- A second list for a name makes up for the first one; of two names whose last lists are too short, the one that comes
first in the order of bytes is reported, though it stands last. -/
theorem overrides_all_or_nothing_too_short :
    let mended := [("b", [1]), ("b", [1, 2, 3, 4])]
    let short := [("z", [9]), ("b", [1]), ("b", [1, 2, 3, 4]), ("m", [])]
    let answer := fun pairs : List (String × List UInt8) =>
      readReply .overrides (.response 200 (some (ofFields (pairs.map fun p => (p.1, ofOctets p.2))).write))
    answer mended = .ok (.ofList [("b", ⟨1, 2, 3, 4⟩)]) ∧
      answer short = .error (.transport (.malformedOverride "m" [])) := by
  intro mended short answer
  have hstatus : 200 ≤ 200 ∧ 200 < 300 := by decide
  have hmended := (overrides_all_or_nothing _ hstatus).2.2 mended (holdsOverrides_write mended)
  have hshort := (overrides_all_or_nothing _ hstatus).2.2 short (holdsOverrides_write short)
  refine ⟨(hmended.2.1 _).mpr fun name => ?_, (hshort.2.2.1 _).mpr ⟨"m", [], ⟨by decide, by decide, ?_⟩, rfl⟩⟩
  · by_cases hb : name = "b" <;> simp [mended, lastOf, Table.get?_ofList, Table.lookup_cons_eq_ite, hb, Address.octets]
  · intro other octets hlast hbad hne
    simp only [short, lastOf, List.reverse_cons, List.reverse_nil, List.nil_append, List.cons_append,
      Table.lookup_cons_eq_ite, hne, if_false] at hlast
    by_cases hb : other = "b"
    · simp only [hb, if_true, Option.some.injEq] at hlast
      exact absurd rfl (hlast ▸ hbad)
    · by_cases hz : other = "z"
      · simpa only [hz] using utf8_lt_iff.mpr (by decide : "m" < "z")
      · simp [hb, hz] at hlast

end Http

end FilterConsole
