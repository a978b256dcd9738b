import FilterConsole.Json.Shape
import FilterConsole.Proofs.Lookup
import Mathlib.Data.List.Forall2

/-! Shapes of JSON values, as relations between a value and what it stands for. The readers of these shapes accept just
the values that stand for something, and answer what they stand for. -/

namespace FilterConsole.Json

variable {α β : Type}

def valuesOf (name : String) (members : List (Bytes × Json)) : List Json :=
  (members.filter fun m => readText? m.1 = some name).map (·.2)

/-- The fields of a record, `none` for one that is not there. Among the members of an object each stands under its name,
once at most, and members of other names do not matter. In an array the fields stand in their order, from the first on. -/
inductive Record (names : List String) (required : Nat) : Json → List (Option Json) → Prop
  | named {members : List (Bytes × Json)} {fields : List (Option Json)} :
      (∀ m ∈ members, (readText? m.1).isSome = true) →
      List.Forall₂ (fun name f => valuesOf name members = f.toList) names fields →
      Record names required (.object members) fields
  | placed {items : List Json} : required ≤ items.length → items.length ≤ names.length →
      Record names required (.array items) ((items.map some).rightpad names.length none)

def IsText (v : Json) (s : String) : Prop := ∃ raw, v = .text raw ∧ readText? raw = some s

def IsWord (v : Json) (n : UInt64) : Prop := v = .integer n.toNat

def ListOf (P : Json → α → Prop) (v : Json) (l : List α) : Prop := ∃ items, v = .array items ∧ List.Forall₂ P items l

/-- An object of such values under any names; the last one of a name counts. -/
def TableOf (P : Json → α → Prop) (v : Json) (t : Table α) : Prop :=
  ∃ members pairs, v = .object members ∧
    List.Forall₂ (fun m p => readText? m.1 = some p.1 ∧ P m.2 p.2) members pairs ∧
    ∀ name, t.get? name = pairs.reverse.lookup name

def NullOr (P : Json → α → Prop) (v : Json) (o : Option α) : Prop :=
  v = .null ∧ o = none ∨ v ≠ .null ∧ ∃ a, o = some a ∧ P v a

def IfThere (P : Json → α → Prop) (absent : α) (f : Option Json) (a : α) : Prop :=
  f = none ∧ a = absent ∨ ∃ v, f = some v ∧ P v a

def Once (name : String) (members : List (Bytes × Json)) : Prop := ∃ v, valuesOf name members = [v] ∧ v ≠ .null

def OnceOrLeftOut (name : String) (members : List (Bytes × Json)) : Prop := valuesOf name members = [] ∨ Once name members

theorem mapM_eq_some_iff {f : α → Option β} {l : List α} {l' : List β} :
    l.mapM f = some l' ↔ List.Forall₂ (fun a b => f a = some b) l l' := by
  induction l generalizing l' with
  | nil =>
    rw [List.mapM_nil, List.forall₂_nil_left_iff]
    exact ⟨fun h => (Option.some.inj h).symm, fun h => h ▸ rfl⟩
  | cons a l ih =>
    rw [List.mapM_cons, List.forall₂_cons_left_iff]
    constructor
    · intro h
      obtain ⟨b, hb, h⟩ := Option.bind_eq_some_iff.mp h
      obtain ⟨l'', hl, h⟩ := Option.bind_eq_some_iff.mp h
      exact ⟨b, l'', hb, ih.mp hl, (Option.some.inj h).symm⟩
    · rintro ⟨b, l'', hb, hl, rfl⟩
      rw [hb, ih.mpr hl]
      rfl

section Scalars

theorem integerIn?_eq_some_iff {low high i : Int} {v : Json} :
    v.integerIn? low high = some i ↔ v = .integer i ∧ low ≤ i ∧ i < high := by
  cases v with
  | integer j =>
    simp only [integerIn?, Bool.and_eq_true, decide_eq_true_eq, Json.integer.injEq]
    constructor
    · intro h
      split at h
      · obtain rfl := Option.some.inj h
        exact ⟨rfl, by assumption⟩
      · cases h
    · rintro ⟨rfl, hrange⟩
      rw [if_pos hrange]
  | _ => simp [integerIn?]

theorem word64?_eq_some_iff {v : Json} {n : UInt64} : v.word64? = some n ↔ IsWord v n := by
  rw [word64?, Option.map_eq_some_iff, IsWord]
  constructor
  · rintro ⟨i, hi, rfl⟩
    obtain ⟨rfl, hlow, hhigh⟩ := integerIn?_eq_some_iff.mp hi
    rw [UInt64.toNat_ofNat', Nat.mod_eq_of_lt (by omega), Int.toNat_of_nonneg hlow]
  · rintro rfl
    have hn := n.toNat_lt
    exact ⟨n.toNat, integerIn?_eq_some_iff.mpr ⟨rfl, by omega, by omega⟩, by simp⟩

theorem word32?_eq_some_iff {v : Json} {n : UInt32} : v.word32? = some n ↔ v = .integer n.toNat := by
  rw [word32?, Option.map_eq_some_iff]
  constructor
  · rintro ⟨i, hi, rfl⟩
    obtain ⟨rfl, hlow, hhigh⟩ := integerIn?_eq_some_iff.mp hi
    rw [UInt32.toNat_ofNat', Nat.mod_eq_of_lt (by omega), Int.toNat_of_nonneg hlow]
  · rintro rfl
    have hn := n.toNat_lt
    exact ⟨n.toNat, integerIn?_eq_some_iff.mpr ⟨rfl, by omega, by omega⟩, by simp⟩

theorem octet?_eq_some_iff {v : Json} {o : UInt8} : v.octet? = some o ↔ v = .integer o.toNat := by
  rw [octet?, Option.map_eq_some_iff]
  constructor
  · rintro ⟨i, hi, rfl⟩
    obtain ⟨rfl, hlow, hhigh⟩ := integerIn?_eq_some_iff.mp hi
    rw [UInt8.toNat_ofNat', Nat.mod_eq_of_lt (by omega), Int.toNat_of_nonneg hlow]
  · rintro rfl
    have ho := o.toNat_lt
    exact ⟨o.toNat, integerIn?_eq_some_iff.mpr ⟨rfl, by omega, by omega⟩, by simp⟩

theorem int64?_eq_some_iff {v : Json} {i : Int64} : v.int64? = some i ↔ v = .integer i.toInt := by
  rw [int64?, Option.map_eq_some_iff]
  constructor
  · rintro ⟨j, hj, rfl⟩
    obtain ⟨rfl, hlow, hhigh⟩ := integerIn?_eq_some_iff.mp hj
    rw [Int64.toInt_ofInt_of_le (by omega) (by omega)]
  · rintro rfl
    have hlow := i.le_toInt
    have hhigh := i.toInt_lt
    exact ⟨i.toInt, integerIn?_eq_some_iff.mpr ⟨rfl, by omega, by omega⟩, by simp⟩

theorem text?_eq_some_iff {v : Json} {s : String} : v.text? = some s ↔ IsText v s := by
  cases v with
  | text raw => exact ⟨fun h => ⟨raw, rfl, h⟩, fun ⟨_, hraw, h⟩ => Json.text.inj hraw ▸ h⟩
  | _ => exact ⟨nofun, nofun⟩

end Scalars

section Containers

variable {value? : Json → Option α} {P : Json → α → Prop} (hP : ∀ v a, value? v = some a ↔ P v a)
include hP

theorem list?_eq_some_iff {v : Json} {l : List α} : v.list? value? = some l ↔ ListOf P v l := by
  cases v with
  | array items =>
    rw [list?, mapM_eq_some_iff]
    simp only [hP]
    exact ⟨fun h => ⟨items, rfl, h⟩, fun ⟨_, hitems, h⟩ => Json.array.inj hitems ▸ h⟩
  | _ => exact ⟨nofun, nofun⟩

/-- The members of an object are read one by one. -/
theorem mapM_members_eq_some_iff {members : List (Bytes × Json)} {pairs : List (String × α)} :
    (members.mapM fun (name, v) => do return (← readText? name, ← value? v)) = some pairs ↔
      List.Forall₂ (fun m p => readText? m.1 = some p.1 ∧ P m.2 p.2) members pairs := by
  have hmember : ∀ (m : Bytes × Json) (p : String × α),
      (do return (← readText? m.1, ← value? m.2)) = some p ↔ readText? m.1 = some p.1 ∧ P m.2 p.2 := by
    intro m p
    simp only [Option.bind_eq_bind, Option.bind_eq_some_iff, hP]
    constructor
    · rintro ⟨name, hname, a, ha, h⟩
      cases h
      exact ⟨hname, ha⟩
    · exact fun ⟨hname, ha⟩ => ⟨p.1, hname, p.2, ha, rfl⟩
  rw [mapM_eq_some_iff]
  simp only [hmember]

theorem table?_eq_some_iff {v : Json} {t : Table α} : v.table? value? = some t ↔ TableOf P v t := by
  cases v with
  | object members =>
    have htable : ∀ pairs : List (String × α), Table.ofList pairs = t ↔
        ∀ name, t.get? name = pairs.reverse.lookup name := by
      intro pairs
      simp only [← Table.get?_ofList]
      exact ⟨fun h name => h ▸ rfl, fun h => Table.ext_get? fun name => (h name).symm⟩
    rw [table?, Option.bind_eq_bind, Option.bind_eq_some_iff]
    simp only [mapM_members_eq_some_iff hP]
    constructor
    · rintro ⟨pairs, hpairs, h⟩
      exact ⟨members, pairs, rfl, hpairs, (htable pairs).mp (Option.some.inj h)⟩
    · rintro ⟨_, pairs, hobject, hpairs, h⟩
      obtain rfl := Json.object.inj hobject
      exact ⟨pairs, hpairs, congrArg some ((htable pairs).mpr h)⟩
  | _ => exact ⟨nofun, nofun⟩

theorem nullable?_eq_some_iff {v : Json} {o : Option α} : v.nullable? value? = some o ↔ NullOr P v o := by
  have hvalue : (value? v).map some = some o ↔ ∃ a, o = some a ∧ P v a := by
    rw [Option.map_eq_some_iff]
    exact exists_congr fun a => by rw [hP, and_comm, eq_comm]
  cases v with
  | null => simp [nullable?, NullOr, eq_comm]
  | _ => simpa [nullable?, NullOr] using hvalue

theorem orElse?_eq_some_iff {absent : α} {f : Option Json} {a : α} :
    orElse? value? absent f = some a ↔ IfThere P absent f a := by
  cases f <;> simp [orElse?, IfThere, hP, eq_comm]

end Containers

theorem member?_eq_some_iff {members : List (String × Json)} {name : String} {f : Option Json} :
    member? members name = some f ↔ (members.filter (·.1 == name)).map (·.2) = f.toList := by
  rw [member?]
  cases members.filter (·.1 == name) with
  | nil => cases f <;> simp
  | cons m r =>
    obtain ⟨key, v⟩ := m
    cases r with
    | nil => cases f <;> simp
    | cons m' r => cases f <;> simp

/-- Members whose names are texts hold under a name what they hold under it once the names are read. -/
theorem filter_texts_eq {name : String} {members : List (Bytes × Json)} {texts : List (String × Json)}
    (h : List.Forall₂ (fun m t => (readText? m.1).map (·, m.2) = some t) members texts) :
    (texts.filter (·.1 == name)).map (·.2) = valuesOf name members := by
  induction h with
  | nil => rfl
  | @cons m t members texts hm _ ih =>
    obtain ⟨key, hkey, rfl⟩ := Option.map_eq_some_iff.mp hm
    rw [valuesOf] at ih ⊢
    by_cases hname : key = name
    · simp [hkey, hname, ih]
    · simp [hkey, hname, ih]

theorem exists_texts_iff {members : List (Bytes × Json)} :
    (∃ texts : List (String × Json),
      List.Forall₂ (fun m t => (readText? m.1).map (·, m.2) = some t) members texts) ↔
    ∀ m ∈ members, (readText? m.1).isSome = true := by
  induction members with
  | nil => exact ⟨fun _ => nofun, fun _ => ⟨[], .nil⟩⟩
  | cons m members ih =>
    rw [List.forall_mem_cons, ← ih]
    constructor
    · rintro ⟨_, h⟩
      obtain ⟨t, texts, hm, htexts, rfl⟩ := List.forall₂_cons_left_iff.mp h
      obtain ⟨name, hname, _⟩ := Option.map_eq_some_iff.mp hm
      exact ⟨Option.isSome_iff_exists.mpr ⟨name, hname⟩, texts, htexts⟩
    · rintro ⟨hm, texts, htexts⟩
      obtain ⟨name, hname⟩ := Option.isSome_iff_exists.mp hm
      exact ⟨(name, m.2) :: texts, .cons (by rw [hname]; rfl) htexts⟩

theorem fields?_eq_some_iff {names : List String} {required : Nat} {v : Json} {fields : List (Option Json)} :
    v.fields? names required = some fields ↔ Record names required v fields := by
  cases v with
  | object members =>
    rw [fields?, Option.bind_eq_bind, Option.bind_eq_some_iff]
    simp only [mapM_eq_some_iff, member?_eq_some_iff]
    constructor
    · rintro ⟨texts, htexts, hfields⟩
      simp only [filter_texts_eq htexts] at hfields
      exact .named (exists_texts_iff.mp ⟨texts, htexts⟩) hfields
    · intro h
      cases h with
      | named hnames hfields =>
        obtain ⟨texts, htexts⟩ := exists_texts_iff.mpr hnames
        simp only [← filter_texts_eq htexts] at hfields
        exact ⟨texts, htexts, hfields⟩
  | array items =>
    rw [fields?]
    split
    · next hrange =>
      simp only [Bool.and_eq_true, decide_eq_true_eq] at hrange
      constructor
      · intro h
        cases h
        exact .placed hrange.1 hrange.2
      · intro h
        cases h
        rfl
    · next hrange =>
      simp only [Bool.and_eq_true, decide_eq_true_eq] at hrange
      refine ⟨nofun, fun h => ?_⟩
      cases h with
      | placed hlow hhigh => exact absurd ⟨hlow, hhigh⟩ hrange
  | _ => exact ⟨nofun, nofun⟩

theorem fields?_bind_eq_some_iff {names : List String} {required : Nat} {v : Json}
    {read : List (Option Json) → Option α} {a : α} :
    (v.fields? names required).bind read = some a ↔ ∃ fields, Record names required v fields ∧ read fields = some a := by
  simp only [Option.bind_eq_some_iff, fields?_eq_some_iff]

section Members

variable {names : List String} {required : Nat} {name : String} {members : List (Bytes × Json)}
  {fields : List (Option Json)} {f : Option Json}

theorem not_record_null : ¬ Record names required .null fields := nofun

theorem Record.valuesOf_eq (h : Record names required (.object members) fields) :
    List.Forall₂ (fun name f => valuesOf name members = f.toList) names fields := by
  cases h
  assumption

theorem IfThere.onceOrLeftOut {P : Json → α → Prop} {absent a : α} (h : IfThere P absent f a) (hnull : ∀ a, ¬ P .null a)
    (hvalues : valuesOf name members = f.toList) : OnceOrLeftOut name members := by
  rcases h with ⟨rfl, _⟩ | ⟨v, rfl, hv⟩
  · exact .inl hvalues
  · exact .inr ⟨v, hvalues, fun he => hnull a (he ▸ hv)⟩

theorem onceOrLeftOut_of_field {P : Json → α → Prop} {absent a : α} (hnull : ∀ a, ¬ P .null a)
    (h : ∃ f, Record [name] required (.object members) [f] ∧ IfThere P absent f a) : OnceOrLeftOut name members := by
  obtain ⟨f, hfields, hf⟩ := h
  have hvalues := hfields.valuesOf_eq
  rw [List.forall₂_cons] at hvalues
  exact hf.onceOrLeftOut hnull hvalues.1

theorem once_of_onlyField {P : Json → α → Prop} {a : α} (hnull : ∀ a, ¬ P .null a)
    (h : ∃ v, Record [name] required (.object members) [some v] ∧ P v a) : Once name members := by
  obtain ⟨v, hfields, hv⟩ := h
  have hvalues := hfields.valuesOf_eq
  rw [List.forall₂_cons] at hvalues
  exact ⟨v, hvalues.1, fun he => hnull a (he ▸ hv)⟩

theorem length_valuesOf_le (hvalues : valuesOf name members = f.toList) : (valuesOf name members).length ≤ 1 := by
  rw [hvalues]
  cases f <;> simp

end Members

theorem forall₂_congr_mem {R S : α → β → Prop} {l : List α} {l' : List β} (h : ∀ a ∈ l, ∀ b, R a b ↔ S a b) :
    List.Forall₂ R l l' ↔ List.Forall₂ S l l' := by
  induction l generalizing l' with
  | nil => simp
  | cons a l ih =>
    have hl : ∀ l'', List.Forall₂ R l l'' ↔ List.Forall₂ S l l'' := fun l'' => ih fun b hb => h b (by simp [hb])
    simp only [List.forall₂_cons_left_iff, h a (by simp), hl]

theorem eq_toList_of_perm {l l' : List α} {o : Option α} (h : l.Perm l') : l = o.toList ↔ l' = o.toList := by
  cases o with
  | none =>
    rw [Option.toList_none]
    exact ⟨fun hl => (hl ▸ h).symm.eq_nil, fun hl => (hl ▸ h).eq_nil⟩
  | some a =>
    rw [Option.toList_some]
    exact ⟨fun hl => (hl ▸ h).symm.eq_singleton, fun hl => (hl ▸ h).eq_singleton⟩

/-- A record may have its members in any order, with members of other names between them. -/
theorem record_rearranged {names : List String} {required : Nat} {members members' others : List (Bytes × Json)}
    (hperm : members'.Perm (members ++ others)) (hothers : ∀ m ∈ others, ∃ name ∉ names, readText? m.1 = some name)
    (fields : List (Option Json)) :
    Record names required (.object members') fields ↔ Record names required (.object members) fields := by
  have hnames : (∀ m ∈ members', (readText? m.1).isSome = true) ↔ ∀ m ∈ members, (readText? m.1).isSome = true := by
    have hread : ∀ m ∈ others, (readText? m.1).isSome = true := by
      intro m hm
      obtain ⟨name, _, hname⟩ := hothers m hm
      rw [hname]
      rfl
    simp only [hperm.mem_iff, List.mem_append, or_imp, forall_and]
    exact and_iff_left hread
  have hvalues : ∀ name ∈ names, (valuesOf name members').Perm (valuesOf name members) := by
    intro name hname
    have hnone : others.filter (fun m => readText? m.1 = some name) = [] := by
      refine List.filter_eq_nil_iff.mpr fun m hm hread => ?_
      obtain ⟨other, hother, hm⟩ := hothers m hm
      rw [decide_eq_true_eq, hm] at hread
      exact hother (Option.some.inj hread ▸ hname)
    have hfilter := (hperm.filter fun m => readText? m.1 = some name).map (·.2)
    rwa [List.filter_append, hnone, List.append_nil] at hfilter
  have hfields : ∀ name ∈ names, ∀ f : Option Json, valuesOf name members' = f.toList ↔ valuesOf name members = f.toList :=
    fun name hname f => eq_toList_of_perm (hvalues name hname)
  constructor
  · intro h
    cases h with
    | named htexts h => exact .named (hnames.mp htexts) ((forall₂_congr_mem hfields).mp h)
  · intro h
    cases h with
    | named htexts h => exact .named (hnames.mpr htexts) ((forall₂_congr_mem hfields).mpr h)

end FilterConsole.Json
