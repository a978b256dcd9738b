import FilterConsole.Address
import FilterConsole.Binary64
import FilterConsole.Proofs.Numerals
import FilterConsole.Text.Column

/-! Texts as lines. Rows that are printed one after another, each with a line feed behind it, are the lines of the text
but for those with line feeds of their own. Numbers, times, addresses and columns bring none with them. -/

namespace FilterConsole

def lineFeeds (s : String) : Nat := s.toList.count '\n'

/-- The lines of a text, each up to the line feed that ends it. What may stand behind the last one is no line. -/
def linesOf (s : String) : List String := (s.toList.splitOn '\n').dropLast.map String.ofList

section LineFeeds

@[simp]
theorem lineFeeds_append (s t : String) : lineFeeds (s ++ t) = lineFeeds s + lineFeeds t := by
  rw [lineFeeds, String.toList_append, List.count_append, lineFeeds, lineFeeds]

theorem lineFeeds_eq_zero_iff {s : String} : lineFeeds s = 0 ↔ '\n' ∉ s.toList := List.count_eq_zero

theorem lineFeeds_join_eq_zero_iff {names : List String} :
    lineFeeds (String.join names) = 0 ↔ ∀ name ∈ names, '\n' ∉ name.toList := by
  rw [lineFeeds_eq_zero_iff, String.toList_join]
  simp

theorem lineFeeds_join_map {α : Type} {name row : α → String} (h : ∀ x, lineFeeds (row x) = lineFeeds (name x))
    (xs : List α) : lineFeeds (String.join (xs.map row)) = lineFeeds (String.join (xs.map name)) := by
  induction xs with
  | nil => rfl
  | cons x xs ih =>
    rw [List.map_cons, List.map_cons, String.join_cons, String.join_cons, lineFeeds_append, lineFeeds_append, h, ih]

@[simp]
theorem lineFeeds_paddedNumeral (width n : Nat) : lineFeeds (paddedNumeral width n) = 0 :=
  lineFeeds_eq_zero_iff.mpr (not_mem_paddedNumeral rfl width n)

@[simp]
theorem lineFeeds_numeral (n : Nat) : lineFeeds (numeral n) = 0 := by
  rw [numeral_eq_paddedNumeral, lineFeeds_paddedNumeral]

/-- A count between texts without line feeds. -/
theorem lineFeeds_counted {before after : String} (hbefore : lineFeeds before = 0) (hafter : lineFeeds after = 0)
    {n : Nat} : lineFeeds (before ++ numeral n ++ after) = 0 := by
  rw [lineFeeds_append, lineFeeds_append, hbefore, lineFeeds_numeral, hafter]

@[simp]
theorem lineFeeds_alignLeft (width : Nat) (s : String) : lineFeeds (alignLeft width s) = lineFeeds s := by
  rw [lineFeeds, alignLeft, String.toList_ofList, List.rightpad, List.count_append, List.count_replicate]
  rfl

@[simp]
theorem lineFeeds_alignRight (width : Nat) (s : String) : lineFeeds (alignRight width s) = lineFeeds s := by
  rw [lineFeeds, alignRight, String.toList_ofList, List.leftpad, List.count_append, List.count_replicate]
  exact Nat.zero_add _

theorem lineFeeds_yearText (year : Int) : lineFeeds (yearText year) = 0 :=
  lineFeeds_eq_zero_iff.mpr (not_mem_yearText rfl (by decide) (by decide) year)

theorem lineFeeds_signedNumeral (i : Int) : lineFeeds (signedNumeral i) = 0 :=
  lineFeeds_eq_zero_iff.mpr (not_mem_signedNumeral rfl (by decide) i)

@[simp]
theorem lineFeeds_timestamp (t : Timestamp) : lineFeeds t.text = 0 := by
  rw [Timestamp.text]
  split
  · simp only [Moment.text, lineFeeds_append, lineFeeds_yearText, lineFeeds_paddedNumeral]
    rfl
  · simp only [lineFeeds_append, lineFeeds_signedNumeral, lineFeeds_paddedNumeral]
    rfl

@[simp]
theorem lineFeeds_fixedText (places : Nat) (x : Binary64) : lineFeeds (x.fixedText places) = 0 := by
  have hsign : lineFeeds (if x.negative then "-" else "") = 0 := by split <;> rfl
  rw [Binary64.fixedText]
  by_cases hnan : x.isNaN
  · rw [if_pos hnan]
    rfl
  · rw [if_neg hnan]
    dsimp only
    by_cases hinfinite : x.isInfinite
    · rw [if_pos hinfinite, lineFeeds_append, hsign]
      rfl
    · rw [if_neg hinfinite]
      simp only [lineFeeds_append, hsign, lineFeeds_numeral, lineFeeds_paddedNumeral]
      rfl

@[simp]
theorem lineFeeds_address (a : Address) : lineFeeds a.text = 0 := by
  simp only [Address.text, Address.octets, List.map_cons, List.map_nil, String.intercalate_cons_cons,
    String.intercalate_singleton, lineFeeds_append, lineFeeds_numeral]
  rfl

end LineFeeds

section Lines

theorem length_splitOn (cs : List Char) : (cs.splitOn '\n').length = cs.count '\n' + 1 := by
  induction cs with
  | nil => rfl
  | cons c cs ih =>
    rw [List.splitOn_cons_eq_if_modifyHead, List.count_cons]
    by_cases hc : c = '\n' <;> simp [hc, ih]

def linesWithin (row : String) : List String := (row.toList.splitOn '\n').map String.ofList

theorem length_linesWithin (row : String) : (linesWithin row).length = lineFeeds row + 1 := by
  rw [linesWithin, List.length_map, length_splitOn, lineFeeds]

theorem linesWithin_eq_singleton {row : String} (h : lineFeeds row = 0) : linesWithin row = [row] := by
  rw [linesWithin, List.splitOn_eq_singleton (lineFeeds_eq_zero_iff.mp h), List.map_singleton, String.ofList_toList]

theorem splitOn_rows (rows : List String) :
    (String.join (rows.map (· ++ "\n"))).toList.splitOn '\n' = rows.flatMap (·.toList.splitOn '\n') ++ [[]] := by
  induction rows with
  | nil => rfl
  | cons row rows ih =>
    have htext : (String.join ((row :: rows).map (· ++ "\n"))).toList =
        row.toList ++ '\n' :: (String.join (rows.map (· ++ "\n"))).toList := by simp
    rw [htext, List.splitOn_append_cons_self, ih, List.flatMap_cons, List.append_assoc]

/-- The lines of rows that are printed one after another are the lines of each. -/
theorem linesOf_rows (rows : List String) :
    linesOf (String.join (rows.map (· ++ "\n"))) = rows.flatMap linesWithin := by
  rw [linesOf, splitOn_rows, List.dropLast_concat, List.map_flatMap]
  rfl

theorem exists_join_rows_eq {rows : List String} (h : rows ≠ []) :
    ∃ s, String.join (rows.map (· ++ "\n")) = s ++ "\n" := by
  rw [← List.dropLast_concat_getLast h, List.map_append, String.join_append, List.map_singleton, String.join_cons,
    String.join_nil, String.append_empty, ← String.append_assoc]
  exact ⟨_, rfl⟩

theorem length_linesOf_rows (rows : List String) :
    (linesOf (String.join (rows.map (· ++ "\n")))).length = rows.length + lineFeeds (String.join rows) := by
  rw [linesOf_rows]
  induction rows with
  | nil => rfl
  | cons row rows ih =>
    rw [List.flatMap_cons, List.length_append, length_linesWithin, ih, String.join_cons, lineFeeds_append,
      List.length_cons]
    omega

/-- The rows are the lines just if none of them has a line feed in it. -/
theorem linesOf_rows_eq_iff {rows : List String} :
    linesOf (String.join (rows.map (· ++ "\n"))) = rows ↔ lineFeeds (String.join rows) = 0 := by
  constructor
  · intro h
    have hlength := length_linesOf_rows rows
    rw [h] at hlength
    omega
  · intro h
    rw [linesOf_rows]
    induction rows with
    | nil => rfl
    | cons row rows ih =>
      rw [String.join_cons, lineFeeds_append, Nat.add_eq_zero_iff] at h
      rw [List.flatMap_cons, linesWithin_eq_singleton h.1, ih h.2, List.singleton_append]

end Lines

end FilterConsole
