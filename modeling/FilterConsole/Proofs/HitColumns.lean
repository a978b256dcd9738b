import FilterConsole.Page
import Mathlib.Algebra.Group.Nat.Defs
import Mathlib.Data.List.Forall2

/-! The columns of the hit table. The column of names is as wide as its longest cell, so that no name moves what stands
behind it. The column of counts has eight characters; a count with more digits moves the time behind it. -/

namespace FilterConsole

def spaces (n : Nat) : String := .ofList (.replicate n ' ')

/-- A row of the hit table: a name, spaces, a count that ends where `edge` characters are before it, and a time two
spaces later. -/
def Cells (row name count time : String) (edge : Nat) : Prop :=
  ∃ gap, row = name ++ spaces gap ++ count ++ "  " ++ time ∧ name.length + gap + count.length = edge

def HitRow.Printed (h : HitRow) (row : String) (edge : Nat) : Prop :=
  Cells row h.domain (numeral h.count.toNat) h.lastUpdated.text edge

def HitOrder.Headed (o : HitOrder) (row : String) (edge : Nat) : Prop :=
  Cells row "Domain" ("Count" ++ o.mark .count) ("Last updated" ++ o.mark .updatedAt) edge

/-- Lines that start with a hit table below another line: the heading's cell for the counts ends at `edge`, and the
count of a hit where `edgeOf` says. -/
def View.PrintsHits (v : View) (lines : List String) (edge : Nat) (edgeOf : HitRow → Nat) : Prop :=
  ∃ title heading rows rest, lines = title :: heading :: rows ++ rest ∧ v.order.Headed heading edge ∧
    List.Forall₂ (fun h row => h.Printed row (edgeOf h)) v.hits rows

section Columns

variable {row name count time heading : String} {cells : List String} {edge edge' width n : Nat}

@[simp]
theorem length_spaces (n : Nat) : (spaces n).length = n := by simp [spaces]

theorem alignLeft_eq (width : Nat) (s : String) : alignLeft width s = s ++ spaces (width - s.length) := by
  rw [← String.toList_inj]
  simp [alignLeft, spaces, List.rightpad, String.length_toList]

theorem alignRight_eq (width : Nat) (s : String) : alignRight width s = spaces (width - s.length) ++ s := by
  rw [← String.toList_inj]
  simp [alignRight, spaces, List.leftpad, String.length_toList]

/-- A column is no wider than its longest cell. -/
theorem columnWidth_le_iff :
    columnWidth heading cells ≤ width ↔ heading.length ≤ width ∧ ∀ s ∈ cells, s.length ≤ width := by
  have hfold : ∀ n, cells.foldl (fun w s => max w s.length) n ≤ width ↔ n ≤ width ∧ ∀ s ∈ cells, s.length ≤ width := by
    induction cells with
    | nil => simp
    | cons s cells ih =>
      intro n
      rw [List.foldl_cons, ih, Nat.max_le, List.forall_mem_cons, and_assoc]
  exact hfold heading.length

theorem Cells.length (h : Cells row name count time edge) : row.length = edge + 2 + time.length := by
  obtain ⟨gap, rfl, rfl⟩ := h
  have htwo : "  ".length = 2 := rfl
  simp only [String.length_append, length_spaces, htwo]

theorem Cells.edge_unique (h : Cells row name count time edge) (h' : Cells row name count time edge') :
    edge = edge' := by
  have hlength := h.length.symm.trans h'.length
  omega

theorem cells_hitLine (hname : name.length ≤ width) (count time : String) :
    Cells (hitLine width name count time) name count time (width + 10 + (count.length - 8)) := by
  refine ⟨width - name.length + 2 + (8 - count.length), ?_, by omega⟩
  have hgap : ∀ m n, spaces (m + 2 + n) = spaces m ++ "  " ++ spaces n := by
    intro m n
    rw [← String.toList_inj]
    simp [spaces, List.replicate_add]
  rw [hitLine, alignLeft_eq, alignRight_eq, hgap]
  simp only [String.append_assoc]

theorem length_numeral_le_iff (hwidth : 0 < width) : (numeral n).length ≤ width ↔ n < 10 ^ width := by
  rw [numeral, String.length_ofList]
  exact Nat.length_toDigits_le_iff (by decide) hwidth

theorem HitOrder.length_mark_le (o : HitOrder) (field : SortField) : (o.mark field).length ≤ 2 := by
  rw [mark]
  split
  · split <;> decide
  · decide

theorem HitOrder.headed_hitLine (o : HitOrder) (hwidth : 6 ≤ width) :
    o.Headed (hitLine width "Domain" ("Count" ++ o.mark .count) ("Last updated" ++ o.mark .updatedAt))
      (width + 10) := by
  have hcount : ("Count" ++ o.mark .count).length ≤ 8 := by
    have hmark := o.length_mark_le .count
    have hfive : "Count".length = 5 := rfl
    rw [String.length_append]
    omega
  have hcells := cells_hitLine (show "Domain".length ≤ width from hwidth) ("Count" ++ o.mark .count)
    ("Last updated" ++ o.mark .updatedAt)
  rwa [Nat.sub_eq_zero_of_le hcount] at hcells

end Columns

namespace View

variable {v : View} {lines : List String} {edge edge' : Nat} {edgeOf edgeOf' : HitRow → Nat}

theorem PrintsHits.unique (h : v.PrintsHits lines edge edgeOf) (h' : v.PrintsHits lines edge' edgeOf') :
    edge = edge' ∧ ∀ hit ∈ v.hits, edgeOf hit = edgeOf' hit := by
  obtain ⟨title, heading, rows, rest, rfl, hheading, hrows⟩ := h
  obtain ⟨title', heading', rows', rest', hlines, hheading', hrows'⟩ := h'
  simp only [List.cons_append, List.cons.injEq] at hlines
  obtain ⟨rfl, rfl, htable⟩ := hlines
  obtain ⟨rfl, -⟩ := List.append_inj htable (hrows.length_eq.symm.trans hrows'.length_eq)
  refine ⟨Cells.edge_unique hheading hheading', fun hit hmem => ?_⟩
  obtain ⟨k, hk, rfl⟩ := List.getElem_of_mem hmem
  have hrow := hrows.get hk (hrows.length_eq ▸ hk)
  have hrow' := hrows'.get hk (hrows.length_eq ▸ hk)
  exact Cells.edge_unique hrow hrow'

theorem PrintsHits.congr (h : v.PrintsHits lines edge edgeOf) (hedges : ∀ hit ∈ v.hits, edgeOf hit = edgeOf' hit) :
    v.PrintsHits lines edge edgeOf' := by
  obtain ⟨title, heading, rows, rest, hlines, hheading, hrows⟩ := h
  refine ⟨title, heading, rows, rest, hlines, hheading, ?_⟩
  exact ((List.forall₂_and_left _ _).mpr ⟨hedges, hrows⟩).imp fun hit row ⟨hedge, hrow⟩ => hedge ▸ hrow

/-- A count ends at the edge of its column, or as many characters behind it as it has digits more than eight. -/
theorem printsHits_lines (v : View) (asOf : Timestamp) :
    ∃ edge, v.PrintsHits (v.lines asOf) edge fun h => edge + ((numeral h.count.toNat).length - 8) := by
  obtain ⟨hheading, hnames⟩ := columnWidth_le_iff.mp (Nat.le_refl (columnWidth "Domain" (v.hits.map (·.domain))))
  rw [List.forall_mem_map] at hnames
  have hrest : v.filterLines <+: v.lines asOf := by simp [View.lines]
  obtain ⟨rest, hlines⟩ := hrest
  refine ⟨_, _, _, _, rest, hlines.symm, v.order.headed_hitLine hheading, ?_⟩
  rw [List.forall₂_map_right_iff, List.forall₂_same]
  exact fun h hh => cells_hitLine (hnames h hh) _ _

end View

/-- In the hit table the counts' right edge is in one place for the heading and all rows, whatever the names, the counts
and the mark, but for counts of more than eight digits: such a count ends, and the time behind it starts, as many
characters later as it has digits more than eight. So the table is aligned just if no count has nine digits. -/
theorem hit_table_edges (v : View) (asOf : Timestamp) :
    (∃ edge, v.PrintsHits (v.lines asOf) edge fun h => edge + ((numeral h.count.toNat).length - 8)) ∧
      ((∃ edge, v.PrintsHits (v.lines asOf) edge fun _ => edge) ↔ ∀ h ∈ v.hits, h.count < 100000000) := by
  obtain ⟨edge, hprints⟩ := v.printsHits_lines asOf
  have hdigits : ∀ h : HitRow, (numeral h.count.toNat).length ≤ 8 ↔ h.count < 100000000 :=
    fun h => length_numeral_le_iff (by decide)
  refine ⟨⟨edge, hprints⟩, ?_, fun hshort => ⟨edge, hprints.congr fun h hh => ?_⟩⟩
  · rintro ⟨edge', haligned⟩ h hh
    obtain ⟨hedge, hedges⟩ := hprints.unique haligned
    have hcount := hedges h hh
    rw [← hdigits]
    omega
  · have hcount := (hdigits h).mpr (hshort h hh)
    omega

/-- Of two hits the one with nine digits has its time one character further on. -/
theorem nine_digits_unaligned :
    let hits : List HitRow := [⟨"ads.example.com", 100000000, ⟨0, 0⟩⟩, ⟨"cdn.example.com", 5, ⟨0, 0⟩⟩]
    let v : View := ⟨⟨0, 0⟩, 0, hits, ⟨.count, .desc⟩, [], ∅, ∅, ∅, .disabled⟩
    ¬ ∃ edge, v.PrintsHits (v.lines ⟨0, 0⟩) edge fun _ => edge := by
  rintro hits v ⟨edge, haligned⟩
  obtain ⟨edge', hprints⟩ := v.printsHits_lines ⟨0, 0⟩
  obtain ⟨hedge, hedges⟩ := hprints.unique haligned
  have hlong := hedges ⟨"ads.example.com", 100000000, ⟨0, 0⟩⟩ (by simp [v, hits])
  have hnine : (numeral (100000000 : UInt64).toNat).length = 9 := by decide
  simp only [hnine] at hlong
  omega

end FilterConsole
