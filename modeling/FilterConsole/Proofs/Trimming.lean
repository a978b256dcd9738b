import FilterConsole.Text.Blank
import Mathlib.Data.List.Basic
import Mathlib.Data.List.TakeWhile

/-! What is left of a text without the blanks around it. -/

namespace FilterConsole

variable {p : Char → Bool} {cs m u v : List Char}

/-- Neither end is one of those that `p` accepts. -/
def Trimmed (p : Char → Bool) (cs : List Char) : Prop :=
  (∀ c ∈ cs.head?, p c = false) ∧ ∀ c ∈ cs.getLast?, p c = false

theorem Trimmed.surround (h : Trimmed p cs) (hu : ∀ c ∈ u, p c = false) (hv : ∀ c ∈ v, p c = false) :
    Trimmed p (u ++ cs ++ v) := by
  constructor
  · intro c hc
    simp only [List.append_assoc, List.head?_append, Option.mem_def, Option.or_eq_some_iff] at hc
    rcases hc with hcu | ⟨-, hcs | ⟨-, hcv⟩⟩
    · exact hu c (List.mem_of_mem_head? hcu)
    · exact h.1 c hcs
    · exact hv c (List.mem_of_mem_head? hcv)
  · intro c hc
    simp only [List.getLast?_append, Option.mem_def, Option.or_eq_some_iff] at hc
    rcases hc with hcv | ⟨-, hcs | ⟨-, hcu⟩⟩
    · exact hv c (List.mem_of_mem_getLast? hcv)
    · exact h.2 c hcs
    · exact hu c (List.mem_of_mem_getLast? hcu)

theorem trimmed_of_forall (h : ∀ c ∈ cs, p c = false) : Trimmed p cs :=
  ⟨fun c hc => h c (List.mem_of_mem_head? hc), fun c hc => h c (List.mem_of_mem_getLast? hc)⟩

theorem dropWhile_of_head? (h : ∀ c ∈ cs.head?, p c = false) : cs.dropWhile p = cs := by
  cases cs with
  | nil => rfl
  | cons c cs => simp [h c (by simp)]

theorem stripEnd_eq_self (hm : ∀ c ∈ m.getLast?, p c = false) : stripEnd p m = m := by
  have hm' : m.reverse.dropWhile p = m.reverse := dropWhile_of_head? (by simpa using hm)
  rw [stripEnd, hm', List.reverse_reverse]

theorem strip_eq_self (hm : Trimmed p m) : strip p m = m := by
  rw [strip, dropWhile_of_head? hm.1, stripEnd_eq_self hm.2]

/-- What is dropped from the end may be longer by what `p` accepts. -/
theorem stripEnd_append_of_forall (hv : ∀ c ∈ v, p c = true) : stripEnd p (m ++ v) = stripEnd p m := by
  have hv' : ∀ c ∈ v.reverse, p c = true := by simpa using hv
  rw [stripEnd, List.reverse_append, List.dropWhile_append_of_pos hv', stripEnd]

theorem strip_append_of_forall (hu : ∀ c ∈ u, p c = true) (hv : ∀ c ∈ v, p c = true) :
    strip p (u ++ m ++ v) = strip p m := by
  rw [strip, List.append_assoc, List.dropWhile_append_of_pos hu, List.dropWhile_append, strip]
  by_cases hm : m.dropWhile p = []
  · have hend : v.dropWhile p = [] := List.dropWhile_eq_nil_iff.mpr hv
    simp [hm, hend]
  · rw [if_neg (by simpa using hm), stripEnd_append_of_forall hv]

theorem strip_append (hu : ∀ c ∈ u, p c = true) (hv : ∀ c ∈ v, p c = true) (hm : Trimmed p m) :
    strip p (u ++ m ++ v) = m :=
  (strip_append_of_forall hu hv).trans (strip_eq_self hm)

theorem exists_eq_stripEnd_append (p : Char → Bool) (cs : List Char) :
    ∃ v, (∀ c ∈ v, p c = true) ∧ cs = stripEnd p cs ++ v := by
  refine ⟨(cs.reverse.takeWhile p).reverse, fun c hc => ?_, ?_⟩
  · exact List.mem_takeWhile_imp (List.mem_reverse.mp hc)
  · rw [stripEnd, ← List.reverse_append, List.takeWhile_append_dropWhile, List.reverse_reverse]

theorem exists_eq_append_strip_append (p : Char → Bool) (cs : List Char) :
    ∃ u v, (∀ c ∈ u, p c = true) ∧ (∀ c ∈ v, p c = true) ∧ cs = u ++ strip p cs ++ v := by
  obtain ⟨v, hv, hend⟩ := exists_eq_stripEnd_append p (cs.dropWhile p)
  refine ⟨cs.takeWhile p, v, fun c hc => List.mem_takeWhile_imp hc, hv, ?_⟩
  rw [List.append_assoc, strip, ← hend, List.takeWhile_append_dropWhile]

theorem head?_dropWhile (p : Char → Bool) (cs : List Char) : ∀ c ∈ (cs.dropWhile p).head?, p c = false := by
  intro c hc
  have h := List.head?_dropWhile_not p cs
  rwa [Option.mem_def.mp hc] at h

theorem getLast?_stripEnd (p : Char → Bool) (cs : List Char) : ∀ c ∈ (stripEnd p cs).getLast?, p c = false := by
  rw [stripEnd, List.getLast?_reverse]
  exact head?_dropWhile p cs.reverse

/-- Nothing more can be dropped from either end of what is left. -/
theorem trimmed_strip (p : Char → Bool) (cs : List Char) : Trimmed p (strip p cs) := by
  constructor
  · intro c hc
    obtain ⟨v, -, hend⟩ := exists_eq_stripEnd_append p (cs.dropWhile p)
    refine head?_dropWhile p cs c ?_
    rw [hend]
    exact List.mem_head?_append_of_mem_head? hc
  · exact getLast?_stripEnd p (cs.dropWhile p)

def Blank (s : String) : Prop := ∀ c ∈ s.toList, isBlank c = true

theorem trimmed_trim (s : String) : Trimmed isBlank (trim s).toList := by
  rw [trim, String.toList_ofList]
  exact trimmed_strip isBlank s.toList

/-- A text without blanks at its ends is left of those that have blanks around it, and of no others. -/
theorem trim_eq_iff {s n : String} (hn : Trimmed isBlank n.toList) :
    trim s = n ↔ ∃ u v, Blank u ∧ Blank v ∧ s = u ++ n ++ v := by
  constructor
  · rintro rfl
    obtain ⟨u, v, hu, hv, hs⟩ := exists_eq_append_strip_append isBlank s.toList
    refine ⟨.ofList u, .ofList v, by simpa [Blank] using hu, by simpa [Blank] using hv, String.toList_inj.mp ?_⟩
    simpa [trim] using hs
  · rintro ⟨u, v, hu, hv, rfl⟩
    rw [trim, String.toList_append, String.toList_append, strip_append hu hv hn, String.ofList_toList]

/-- Nothing is left of a text just if it is blank. -/
theorem trim_eq_empty_iff {s : String} : trim s = "" ↔ Blank s := by
  rw [trim_eq_iff (trimmed_of_forall (by simp))]
  constructor
  · rintro ⟨u, v, hu, hv, rfl⟩ c hc
    rw [String.append_empty, String.toList_append] at hc
    exact (List.mem_append.mp hc).elim (hu c) (hv c)
  · exact fun hs => ⟨s, "", hs, nofun, by simp⟩

end FilterConsole
