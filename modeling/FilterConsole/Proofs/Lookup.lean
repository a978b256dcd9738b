import FilterConsole.Table
import Mathlib.Data.List.Nodup
import Mathlib.Data.List.Perm.Basic

/-! Look-ups in a table. They tell all about it: its entries are what it answers, and two tables that answer alike are the
same table. -/

namespace FilterConsole.Table

variable {α β : Type} {k name : String} {v : α}

theorem get?_empty (name : String) : (∅ : Table α).get? name = none := rfl

theorem lookup_cons_eq_ite (name : String) (e : String × α) (l : List (String × α)) :
    (e :: l).lookup name = if name = e.1 then some e.2 else l.lookup name := by
  rw [List.lookup_cons]
  by_cases h : name = e.1
  · have hbeq : (name == e.1) = true := beq_iff_eq.mpr h
    rw [hbeq, if_pos h]
  · have hbeq : (name == e.1) = false := beq_false_of_ne h
    rw [hbeq, if_neg h]

theorem lookup_put (k : String) (v : α) (name : String) (l : List (String × α)) :
    (put k v l).lookup name = if name = k then some v else l.lookup name := by
  induction l with
  | nil => rw [put, lookup_cons_eq_ite]
  | cons e r ih =>
    simp only [put]
    split
    · rw [lookup_cons_eq_ite]
    · split
      · next hdk =>
        rw [lookup_cons_eq_ite, lookup_cons_eq_ite, ih]
        by_cases hd : name = e.1
        · have hne : name ≠ k := fun hk => String.ne_of_lt hdk (hd ▸ hk)
          rw [if_pos hd, if_neg hne, if_pos hd]
        · rw [if_neg hd, if_neg hd]
      · next hkd hdk =>
        have hd : e.1 = k := eq_of_not_lt hdk hkd
        rw [lookup_cons_eq_ite, lookup_cons_eq_ite, hd]
        by_cases hk : name = k
        · rw [if_pos hk, if_pos hk]
        · rw [if_neg hk, if_neg hk, if_neg hk]

theorem get?_insert (t : Table α) (k : String) (v : α) (name : String) :
    (t.insert k v).get? name = if name = k then some v else t.get? name := lookup_put k v name t.entries

theorem get?_map (f : String → α → β) (t : Table α) (name : String) :
    (t.map f).get? name = (t.get? name).map (f name) := by
  obtain ⟨entries, sorted⟩ := t
  simp only [get?, map]
  clear sorted
  induction entries with
  | nil => rfl
  | cons e r ih =>
    rw [List.map_cons, lookup_cons_eq_ite, lookup_cons_eq_ite, ih]
    by_cases hd : name = e.1
    · rw [if_pos hd, if_pos hd, hd]
      rfl
    · rw [if_neg hd, if_neg hd]

/-- Of several entries with one name the last one is looked up. -/
theorem get?_ofList (l : List (String × α)) (name : String) : (ofList l).get? name = l.reverse.lookup name := by
  have hfold : ∀ t : Table α, (l.foldl (fun t e => t.insert e.1 e.2) t).get? name =
      (l.reverse.lookup name).or (t.get? name) := by
    induction l with
    | nil => exact fun t => rfl
    | cons e l ih =>
      intro t
      rw [List.foldl_cons, ih, get?_insert, List.reverse_cons, List.lookup_append, lookup_cons_eq_ite, List.lookup_nil,
        Option.or_assoc]
      by_cases he : name = e.1
      · rw [if_pos he, if_pos he, Option.some_or]
      · rw [if_neg he, if_neg he, Option.none_or]
  rw [ofList, hfold, get?_empty, Option.or_none]

/-- The entries of a table are what it answers. -/
theorem mem_entries_iff {t : Table α} {e : String × α} : e ∈ t.entries ↔ t.get? e.1 = some e.2 := by
  obtain ⟨entries, sorted⟩ := t
  simp only [get?]
  induction entries with
  | nil => simp
  | cons d r ih =>
    obtain ⟨hd, hr⟩ := List.pairwise_cons.mp sorted
    rw [List.mem_cons, lookup_cons_eq_ite, ih hr]
    by_cases he : e.1 = d.1
    · have hlater : ¬ r.lookup e.1 = some e.2 := by
        intro h
        have hmem : e ∈ r := (ih hr).mpr h
        exact String.ne_of_lt (hd e hmem) he.symm
      rw [if_pos he, or_iff_left hlater, Option.some.injEq]
      exact ⟨fun h => h ▸ rfl, fun h => Prod.ext he h.symm⟩
    · have hne : e ≠ d := fun h => he (h ▸ rfl)
      rw [if_neg he, or_iff_right hne]

/-- Two tables with the same look-ups are equal. -/
theorem ext_get? {s t : Table α} (h : ∀ name, s.get? name = t.get? name) : s = t := by
  have hnodup : ∀ t : Table α, t.entries.Nodup := fun t =>
    List.Pairwise.imp (fun hlt he => String.ne_of_lt hlt (congrArg Prod.fst he)) t.sorted
  have hperm : s.entries.Perm t.entries := by
    rw [List.perm_ext_iff_of_nodup (hnodup s) (hnodup t)]
    exact fun e => mem_entries_iff.trans ((h e.1).symm ▸ mem_entries_iff.symm)
  have hentries : s.entries = t.entries := by
    refine List.Perm.eq_of_pairwise (fun a b _ _ hab hba => ?_) s.sorted t.sorted hperm
    exact absurd hba (String.lt_asymm hab)
  cases s
  cases t
  simpa using hentries

theorem mem_keys_iff {t : Table α} : name ∈ t.keys ↔ (t.get? name).isSome = true := by
  rw [get?, List.lookup_isSome_iff, keys, List.mem_map]
  simp only [beq_iff_eq]
  exact exists_congr fun e => and_congr_right fun _ => eq_comm

theorem mem_keys_insert {t : Table α} : name ∈ (t.insert k v).keys ↔ name = k ∨ name ∈ t.keys := by
  rw [mem_keys_iff, mem_keys_iff, get?_insert]
  by_cases hk : name = k
  · simp [hk]
  · simp [hk]

/-- The names of a table made by steps that each add a name at most. -/
theorem mem_keys_foldl {step : Table α → β → Table α} {P : β → Prop}
    (hstep : ∀ t b, name ∈ (step t b).keys ↔ name ∈ t.keys ∨ P b) (l : List β) (t : Table α) :
    name ∈ (l.foldl step t).keys ↔ name ∈ t.keys ∨ ∃ b ∈ l, P b := by
  induction l generalizing t with
  | nil => simp
  | cons b l ih => simp only [List.foldl_cons, ih, hstep, or_assoc, List.mem_cons, exists_eq_or_imp]

end FilterConsole.Table
