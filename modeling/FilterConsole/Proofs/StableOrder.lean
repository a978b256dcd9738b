import FilterConsole.Proofs.Faithful

/-! Rows in order. An order of keys, with ties left as they stand, has one outcome for every list; so a second sort by the
same key forgets the first, whichever way that went. -/

namespace FilterConsole

variable {α κ : Type} [LinearOrder κ]

def SortDirection.InOrder : SortDirection → κ → κ → Prop
  | asc, k, k' => k ≤ k'
  | desc, k, k' => k' ≤ k

namespace SortDirection

variable (d : SortDirection) {k k' k'' : κ}

theorem inOrder_refl (k : κ) : d.InOrder k k := by
  cases d <;> exact le_refl k

theorem inOrder_trans (h : d.InOrder k k') (h' : d.InOrder k' k'') : d.InOrder k k'' := by
  cases d with
  | asc => exact le_trans h h'
  | desc => exact le_trans h' h

theorem inOrder_antisymm (h : d.InOrder k k') (h' : d.InOrder k' k) : k = k' := by
  cases d with
  | asc => exact le_antisymm h h'
  | desc => exact le_antisymm h' h

theorem inOrder_total (k k' : κ) : d.InOrder k k' ∨ d.InOrder k' k := by
  cases d with
  | asc => exact le_total k k'
  | desc => exact le_total k' k

end SortDirection

/-- `out` is `l` in the order of the keys, and elements with one key stand in `out` as they do in `l`. -/
structure StablyOrdered (d : SortDirection) (key : α → κ) (l out : List α) : Prop where
  perm : out.Perm l
  ordered : out.Pairwise fun x y => d.InOrder (key x) (key y)
  stable : ∀ k, out.filter (fun x => key x = k) = l.filter fun x => key x = k

namespace StablyOrdered

variable {d d' : SortDirection} {key : α → κ} {l m out out' : List α}

/-- The keys in order, and the elements of each key in theirs, tell the list. -/
theorem eq_of_filter_eq (h : out.Pairwise fun x y => d.InOrder (key x) (key y))
    (h' : out'.Pairwise fun x y => d.InOrder (key x) (key y))
    (hkeys : ∀ k, out.filter (fun x => key x = k) = out'.filter fun x => key x = k) : out = out' := by
  -- Along both lists at once: their heads have one key, as each of them is somewhere in the other list.
  induction out generalizing out' with
  | nil =>
    refine (List.eq_nil_iff_forall_not_mem.mpr fun y hy => ?_).symm
    have hmem : y ∈ out'.filter fun x => key x = key y := by simp [hy]
    simp [← hkeys] at hmem
  | cons x out ih =>
    cases out' with
    | nil =>
      have hx := hkeys (key x)
      simp at hx
    | cons y out' =>
      obtain ⟨hx, hout⟩ := List.pairwise_cons.mp h
      obtain ⟨hy, hout'⟩ := List.pairwise_cons.mp h'
      have hxy : d.InOrder (key x) (key y) := by
        have hmem : y ∈ (x :: out).filter fun z => key z = key y := by simp [hkeys]
        obtain rfl | hmem := List.mem_cons.mp (List.mem_filter.mp hmem).1
        · exact d.inOrder_refl _
        · exact hx y hmem
      have hyx : d.InOrder (key y) (key x) := by
        have hmem : x ∈ (y :: out').filter fun z => key z = key x := by simp [← hkeys]
        obtain rfl | hmem := List.mem_cons.mp (List.mem_filter.mp hmem).1
        · exact d.inOrder_refl _
        · exact hy x hmem
      have hkey : key x = key y := d.inOrder_antisymm hxy hyx
      have hheads := hkeys (key x)
      simp only [List.filter_cons, hkey, decide_true, if_true, List.cons.injEq] at hheads
      obtain ⟨rfl, htails⟩ := hheads
      refine congrArg (x :: ·) (ih hout hout' fun k => ?_)
      have hk := hkeys k
      simp only [List.filter_cons] at hk
      split at hk
      · exact (List.cons.inj hk).2
      · exact hk

theorem unique (h : StablyOrdered d key l out) (h' : StablyOrdered d key l out') : out = out' :=
  eq_of_filter_eq h.ordered h'.ordered fun k => (h.stable k).trans (h'.stable k).symm

/-- What was in order by the key, in either direction, is put in order as it was before that. -/
theorem after (h : StablyOrdered d' key l m) (h' : StablyOrdered d key m out) : StablyOrdered d key l out where
  perm := h'.perm.trans h.perm
  ordered := h'.ordered
  stable k := (h'.stable k).trans (h.stable k)

theorem of_mergeSort {le : α → α → Bool} (hle : ∀ x y, le x y = true ↔ d.InOrder (key x) (key y)) (l : List α) :
    StablyOrdered d key l (l.mergeSort le) := by
  have htrans : ∀ x y z, le x y = true → le y z = true → le x z = true := by
    simp only [hle]
    exact fun x y z => d.inOrder_trans
  have htotal : ∀ x y, (le x y || le y x) = true := by
    simp only [Bool.or_eq_true, hle]
    exact fun x y => d.inOrder_total (key x) (key y)
  refine ⟨List.mergeSort_perm l le, ?_, fun k => filter_mergeSort htrans htotal (fun x y hx hy => ?_) l⟩
  · simpa only [hle] using List.pairwise_mergeSort htrans htotal l
  · simp only [decide_eq_true_eq] at hx hy
    rw [hle, hx, hy]
    exact d.inOrder_refl k

theorem iff_eq_mergeSort {le : α → α → Bool} (hle : ∀ x y, le x y = true ↔ d.InOrder (key x) (key y)) :
    StablyOrdered d key l out ↔ out = l.mergeSort le :=
  ⟨fun h => h.unique (of_mergeSort hle l), fun h => h ▸ of_mergeSort hle l⟩

end StablyOrdered

namespace HitOrder

theorem before_iff_inOrder (o : HitOrder) (x y : HitRow) :
    o.before x y = true ↔ o.direction.InOrder (o.field.key x) (o.field.key y) := by
  obtain ⟨field, direction⟩ := o
  cases direction <;> exact field.isLE_cmp

theorem stablyOrdered_arrange (o : HitOrder) (rows : List HitRow) :
    StablyOrdered o.direction o.field.key rows (o.arrange rows) := .of_mergeSort o.before_iff_inOrder rows

/-- Of two sorts by one field the second counts. -/
theorem arrange_arrange (o : HitOrder) (d : SortDirection) (rows : List HitRow) :
    o.arrange (arrange ⟨o.field, d⟩ rows) = o.arrange rows := by
  have hbefore := stablyOrdered_arrange ⟨o.field, d⟩ rows
  exact (hbefore.after (o.stablyOrdered_arrange _)).unique (o.stablyOrdered_arrange rows)

end HitOrder

/-- The arranged rows are the one list that has all the rows, in the order of the field, with ties as they stood. So rows
in order stay as they are, and turning the direction round twice brings them back, however many of them are tied. The cache
in the order of expiry is the one such list likewise. -/
theorem arrange_unique (o : HitOrder) (rows : List HitRow) :
    (∀ out, StablyOrdered o.direction o.field.key rows out ↔ out = o.arrange rows) ∧
    o.arrange (o.arrange rows) = o.arrange rows ∧
    o.arrange (HitOrder.arrange ⟨o.field, o.direction.flipped⟩ (o.arrange rows)) = o.arrange rows ∧
    ∀ entries out, StablyOrdered .asc (fun e : CacheEntry => e.validUntil.key) entries out ↔ out = byExpiry entries := by
  have hidem : o.arrange (o.arrange rows) = o.arrange rows := o.arrange_arrange o.direction rows
  refine ⟨fun out => StablyOrdered.iff_eq_mergeSort o.before_iff_inOrder, hidem, ?_, fun entries out => ?_⟩
  · rw [HitOrder.arrange_arrange, hidem]
  · exact StablyOrdered.iff_eq_mergeSort fun x y => Timestamp.isLE_cmp

/-- Ties stay as they stand in either direction. -/
example :
    let rows : List HitRow := [⟨"b", 2, ⟨1, 0⟩⟩, ⟨"a", 2, ⟨1, 0⟩⟩, ⟨"b", 3, ⟨1, 0⟩⟩]
    (HitOrder.arrange ⟨.count, .asc⟩ rows).map (·.domain) = ["b", "a", "b"] ∧
      (HitOrder.arrange ⟨.count, .desc⟩ rows).map (·.domain) = ["b", "b", "a"] := by
  cbv

end FilterConsole
