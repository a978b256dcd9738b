/-! Tables keyed by name, kept in strictly increasing order of their keys. Code points order names, and so do the
bytes of their UTF-8 form. Two tables with the same look-ups are equal. -/

namespace FilterConsole

/-- Entries by name, each name once, in increasing order. -/
structure Table (α : Type) where
  entries : List (String × α)
  sorted : entries.Pairwise fun a b => a.1 < b.1

namespace Table

variable {α β : Type}

instance [DecidableEq α] : DecidableEq (Table α) := fun s t =>
  if h : s.entries = t.entries then
    isTrue (by cases s; cases t; simp_all)
  else isFalse fun e => h (by rw [e])

instance [Repr α] : Repr (Table α) := ⟨fun t n => reprPrec t.entries n⟩

def put (k : String) (v : α) : List (String × α) → List (String × α)
  | [] => [(k, v)]
  | e :: r => if k < e.1 then (k, v) :: e :: r else if e.1 < k then e :: put k v r else (k, v) :: r

theorem mem_put {k : String} {v : α} {e : String × α} {l : List (String × α)} (h : e ∈ put k v l) :
    e = (k, v) ∨ e ∈ l := by
  induction l with
  | nil => exact .inl (List.mem_singleton.1 h)
  | cons d r ih =>
    simp only [put] at h
    split at h
    · exact (List.mem_cons.1 h).imp_right id
    · split at h
      · rcases List.mem_cons.1 h with rfl | h
        · exact .inr List.mem_cons_self
        · exact (ih h).imp_right (List.mem_cons_of_mem _)
      · exact (List.mem_cons.1 h).imp_right (List.mem_cons_of_mem _)

theorem eq_of_not_lt {a b : String} (h : ¬ a < b) (h' : ¬ b < a) : a = b :=
  String.le_antisymm (String.not_lt.1 h') (String.not_lt.1 h)

theorem sorted_put (k : String) (v : α) {l : List (String × α)} (h : l.Pairwise fun a b => a.1 < b.1) :
    (put k v l).Pairwise fun a b => a.1 < b.1 := by
  induction l with
  | nil => exact List.pairwise_singleton _ _
  | cons d r ih =>
    obtain ⟨hd, hr⟩ := List.pairwise_cons.1 h
    simp only [put]
    split
    · next hk =>
      refine List.pairwise_cons.2 ⟨fun e he => ?_, h⟩
      rcases List.mem_cons.1 he with rfl | he
      · exact hk
      · exact String.lt_trans hk (hd e he)
    · next hk =>
      split
      · next hk' =>
        refine List.pairwise_cons.2 ⟨fun e he => ?_, ih hr⟩
        rcases mem_put he with rfl | he
        · exact hk'
        · exact hd e he
      · next hk' =>
        have hdk : d.1 = k := eq_of_not_lt hk' hk
        exact List.pairwise_cons.2 ⟨fun e he => hdk ▸ hd e he, hr⟩

def empty : Table α := ⟨[], .nil⟩

instance : EmptyCollection (Table α) := ⟨empty⟩
instance : Inhabited (Table α) := ⟨empty⟩

def insert (t : Table α) (k : String) (v : α) : Table α := ⟨put k v t.entries, sorted_put k v t.sorted⟩

def erase (t : Table α) (k : String) : Table α :=
  ⟨t.entries.filter (·.1 != k), t.sorted.filter _⟩

def get? (t : Table α) (k : String) : Option α := t.entries.lookup k

def keys (t : Table α) : List String := t.entries.map (·.1)

def size (t : Table α) : Nat := t.entries.length

/-- The table of a list of entries; of two entries with one name the later one stays. -/
def ofList (l : List (String × α)) : Table α := l.foldl (fun t e => t.insert e.1 e.2) ∅

def map (f : String → α → β) (t : Table α) : Table β :=
  ⟨t.entries.map fun e => (e.1, f e.1 e.2), List.pairwise_map.2 t.sorted⟩

end Table

abbrev NameSet := Table Unit

def NameSet.ofNames (names : List String) : NameSet := Table.ofList (names.map (·, ()))

end FilterConsole
