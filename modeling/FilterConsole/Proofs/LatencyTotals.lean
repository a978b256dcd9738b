import FilterConsole.Proofs.TimeOrder
import Mathlib.Algebra.BigOperators.Group.List.Basic
import Mathlib.Algebra.Ring.Int.Defs

/-! What the latency of a resolver is made of: its own records, in any order. The totals are exact, as no number on the way
to them leaves the width that it is kept in. -/

namespace FilterConsole

variable {name : String} {records : List RoundTrip}

def recordsOf (name : String) (records : List RoundTrip) : List RoundTrip := records.filter (·.resolver = some name)

def Tally.ofRecords (own : List RoundTrip) : Option Tally :=
  if own = [] then none else some ⟨own.length, (own.map (·.latency)).sum⟩

theorem Tally.add_ofRecords (own : List RoundTrip) (latency : Int) :
    add (ofRecords own) latency = ⟨own.length + 1, (own.map (·.latency)).sum + latency⟩ := by
  by_cases h : own = [] <;> simp [ofRecords, add, h]

theorem Tally.ofRecords_concat (own : List RoundTrip) (r : RoundTrip) :
    ofRecords (own ++ [r]) = some (add (ofRecords own) r.latency) := by
  rw [ofRecords, if_neg (List.concat_ne_nil r own), add_ofRecords]
  simp

theorem Tally.ofRecords_perm {own own' : List RoundTrip} (h : own.Perm own') : ofRecords own = ofRecords own' := by
  have hnil : own = [] ↔ own' = [] := ⟨fun heq => (heq ▸ h).nil_eq.symm, fun heq => (heq ▸ h).eq_nil⟩
  simp only [ofRecords, hnil, h.length_eq, (h.map _).sum_eq]

theorem recordsOf_concat (name : String) (records : List RoundTrip) (r : RoundTrip) :
    recordsOf name (records ++ [r]) =
      if r.resolver = some name then recordsOf name records ++ [r] else recordsOf name records := by
  rw [recordsOf, List.filter_append]
  by_cases h : r.resolver = some name
  · simp [h, recordsOf]
  · simp [h, recordsOf]

theorem tally_concat (records : List RoundTrip) (r : RoundTrip) :
    tally (records ++ [r]) =
      match r.resolver with
      | none => tally records
      | some name => (tally records).insert name (Tally.add ((tally records).get? name) r.latency) := by
  rw [tally, List.foldl_append]
  rfl

/-- The tally of a resolver is that of its own records. -/
theorem get?_tally (records : List RoundTrip) (name : String) :
    (tally records).get? name = Tally.ofRecords (recordsOf name records) := by
  induction records using List.reverseRecOn with
  | nil => rfl
  | append_singleton records r ih =>
    rw [tally_concat, recordsOf_concat]
    cases r.resolver with
    | none => simpa using ih
    | some resolver =>
      simp only [Table.get?_insert, Option.some.injEq]
      by_cases hname : resolver = name
      · rw [if_pos hname.symm, if_pos hname, hname, ih, Tally.ofRecords_concat]
      · rw [if_neg (Ne.symm hname), if_neg hname, ih]

section Widths

def fit128 (i : Int) : Option Int := if -2 ^ 127 ≤ i ∧ i < 2 ^ 127 then some i else none

def fit64 (n : Nat) : Option Nat := if n < 2 ^ 64 then some n else none

/-- The distance between two timestamps, if all the numbers on the way to it fit. -/
def Timestamp.since? (t earlier : Timestamp) : Option Int := do
  let secs ← fit128 (t.secs.toInt - earlier.secs.toInt)
  let scaled ← fit128 (secs * 1000000000)
  let later ← fit128 (scaled + t.nanos.toNat)
  fit128 (later - earlier.nanos.toNat)

def Tally.add? (t : Option Tally) (r : RoundTrip) : Option Tally := do
  let samples ← fit64 ((t.elim 0 (·.samples)) + 1)
  let latency ← r.received.since? r.sent
  let total ← fit128 ((t.elim 0 (·.total)) + latency)
  return ⟨samples, total⟩

/-- The tallies, if every number on the way to them fits. -/
def tally? (records : List RoundTrip) : Option (Table Tally) :=
  records.foldlM (fun t r => match r.resolver with
    | none => some t
    | some name => do return t.insert name (← Tally.add? (t.get? name) r)) ∅

theorem fit128_eq_some {i : Int} (hlow : -2 ^ 127 ≤ i) (hhigh : i < 2 ^ 127) : fit128 i = some i := if_pos ⟨hlow, hhigh⟩

theorem Timestamp.since?_eq_some (t earlier : Timestamp) : t.since? earlier = some (t.since earlier) := by
  have hlow := t.secs.le_toInt
  have hhigh := t.secs.toInt_lt
  have hlow' := earlier.secs.le_toInt
  have hhigh' := earlier.secs.toInt_lt
  have hnanos := t.nanos.toNat_lt
  have hnanos' := earlier.nanos.toNat_lt
  rw [since?, fit128_eq_some (by omega) (by omega), Option.bind_eq_bind, Option.bind_some,
    fit128_eq_some (by omega) (by omega), Option.bind_some, fit128_eq_some (by omega) (by omega), Option.bind_some,
    fit128_eq_some (by omega) (by omega), since]

/-- No latency is longer than the seconds that 64 bits count and the nanoseconds that 32 bits count. -/
theorem RoundTrip.latency_bounds (r : RoundTrip) :
    -(2 ^ 64 * 1000000000 + 2 ^ 32) ≤ r.latency ∧ r.latency ≤ 2 ^ 64 * 1000000000 + 2 ^ 32 := by
  have hlow := r.received.secs.le_toInt
  have hhigh := r.received.secs.toInt_lt
  have hlow' := r.sent.secs.le_toInt
  have hhigh' := r.sent.secs.toInt_lt
  have hnanos := r.received.nanos.toNat_lt
  have hnanos' := r.sent.nanos.toNat_lt
  unfold latency Timestamp.since
  omega

theorem sum_latency_bounds (own : List RoundTrip) :
    -(own.length * (2 ^ 64 * 1000000000 + 2 ^ 32)) ≤ (own.map (·.latency)).sum ∧
      (own.map (·.latency)).sum ≤ own.length * (2 ^ 64 * 1000000000 + 2 ^ 32) := by
  induction own with
  | nil => simp
  | cons r own ih =>
    have hr := r.latency_bounds
    rw [List.map_cons, List.sum_cons, List.length_cons]
    omega

/-- A total of less than so many records has room for another one. -/
theorem Tally.add?_eq_some {own : List RoundTrip} {r : RoundTrip} (h : own.length < 2 ^ 33) :
    add? (ofRecords own) r = some (add (ofRecords own) r.latency) := by
  have hsum := sum_latency_bounds own
  have hr := r.latency_bounds
  have hsamples : (ofRecords own).elim 0 (·.samples) = own.length := by
    by_cases hown : own = [] <;> simp [ofRecords, hown]
  have htotal : (ofRecords own).elim 0 (·.total) = (own.map (·.latency)).sum := by
    by_cases hown : own = [] <;> simp [ofRecords, hown]
  have hcount : fit64 (own.length + 1) = some (own.length + 1) := if_pos (by omega)
  have hfits : fit128 ((own.map (·.latency)).sum + r.latency) = some ((own.map (·.latency)).sum + r.latency) :=
    fit128_eq_some (by omega) (by omega)
  have hlatency : r.received.since? r.sent = some r.latency := Timestamp.since?_eq_some _ _
  simp only [add?, add_ofRecords, hsamples, htotal, hcount, hlatency, hfits, Option.bind_eq_bind, Option.bind_some,
    Option.pure_def]

theorem tally?_eq_some (h : records.length ≤ 2 ^ 33) : tally? records = some (tally records) := by
  induction records using List.reverseRecOn with
  | nil => rfl
  | append_singleton records r ih =>
    rw [List.length_append, List.length_singleton] at h
    have hbefore : tally? records = some (tally records) := ih (by omega)
    rw [tally_concat, tally?, List.foldlM_append, ← tally?, hbefore, Option.bind_eq_bind, Option.bind_some,
      List.foldlM_cons]
    cases r.resolver with
    | none => rfl
    | some name =>
      have hown : (recordsOf name records).length < 2 ^ 33 := by
        have hle : (recordsOf name records).length ≤ records.length := List.length_filter_le _ _
        omega
      simp only [get?_tally, Tally.add?_eq_some hown, List.foldlM_nil]
      rfl

end Widths

theorem get?_latencies (records : List RoundTrip) (name : String) :
    (latencies records).get? name = (Tally.ofRecords (recordsOf name records)).map Tally.latency := by
  rw [latencies, Table.get?_map, get?_tally]

/-- With up to 2 ^ 33 records no number leaves its width. There is a latency for each resolver of a record, the mean of its
own records, from their exact sum. It is the same for all records that are the same for the resolver, in whatever order
they come and whatever other records are among them. -/
theorem latencies_exact (records : List RoundTrip) (hcount : records.length ≤ 2 ^ 33) :
    tally? records = some (tally records) ∧
    (∀ name, name ∈ (latencies records).keys ↔ ∃ r ∈ records, r.resolver = some name) ∧
    (∀ name latency, (latencies records).get? name = some latency →
      let own := recordsOf name records
      let total := (own.map fun r => r.received.instant - r.sent.instant).sum
      latency.samples = own.length ∧
        latency.average = ((Binary64.ofInt total).div (.ofInt own.length)).div (.ofInt 1000000)) ∧
    (∀ records', records'.Perm records → latencies records' = latencies records) ∧
    ∀ records' name, (recordsOf name records').Perm (recordsOf name records) →
      (latencies records').get? name = (latencies records).get? name := by
  have hown : ∀ records' name, (recordsOf name records').Perm (recordsOf name records) →
      (latencies records').get? name = (latencies records).get? name := by
    intro records' name hperm
    rw [get?_latencies, get?_latencies, Tally.ofRecords_perm hperm]
  refine ⟨tally?_eq_some hcount, mem_keys_latencies records, ?_, ?_, hown⟩
  · intro name latency h own total
    rw [get?_latencies, Option.map_eq_some_iff] at h
    obtain ⟨t, ht, rfl⟩ := h
    have htotal : total = (own.map (·.latency)).sum := by
      simp only [total, RoundTrip.latency, Timestamp.since_eq_sub]
    by_cases hnil : own = []
    · rw [Tally.ofRecords, if_pos hnil] at ht
      cases ht
    · rw [Tally.ofRecords, if_neg hnil] at ht
      cases ht
      rw [htotal]
      exact ⟨rfl, rfl⟩
  · exact fun records' hperm => Table.ext_get? fun name => hown records' name (hperm.filter _)

/-- The longest latency there is beside a negative one, with records between them that do not count. -/
theorem latencies_exact_longest :
    let longest : RoundTrip := ⟨some "a", ⟨Int64.minValue, 0⟩, ⟨Int64.maxValue, 0xFFFFFFFF⟩⟩
    let negative : RoundTrip := ⟨some "a", ⟨10, 5⟩, ⟨10, 0⟩⟩
    let records := [longest, ⟨none, ⟨0, 0⟩, ⟨1, 0⟩⟩, ⟨some "b", ⟨0, 0⟩, ⟨0, 7⟩⟩, negative]
    records.length ≤ 2 ^ 33 ∧ tally? records = some (tally records) ∧ "a" ∈ (latencies records).keys ∧
      (tally records).get? "a" = some ⟨2, 0xFFFFFFFFFFFFFFFF * 1000000000 + 0xFFFFFFFF - 5⟩ ∧
      (latencies [negative, longest]).get? "a" = (latencies records).get? "a" := by
  intro longest negative records
  have hcount : records.length ≤ 2 ^ 33 := by decide
  obtain ⟨hfits, hkeys, _, _, hown⟩ := latencies_exact records hcount
  have hperm : (recordsOf "a" [negative, longest]).Perm (recordsOf "a" records) := by decide
  exact ⟨hcount, hfits, (hkeys "a").mpr ⟨longest, List.mem_cons_self, rfl⟩, by decide, hown _ _ hperm⟩

end FilterConsole
