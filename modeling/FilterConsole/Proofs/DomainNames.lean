import FilterConsole.Proofs.Command
import FilterConsole.Proofs.Trimming

/-! Which texts are read as domain names. A name stands between blanks and has none in it; a refusal repeats a blank text
as it was typed, and any other without the blanks around it. -/

namespace FilterConsole

variable {d n t : String}

/-- The text `d` is `t` with blanks around it. -/
def Padded (t d : String) : Prop := ∃ u v, Blank u ∧ Blank v ∧ d = u ++ t ++ v

structure IsName (n : String) : Prop where
  ne_empty : n ≠ ""
  unbroken : ∀ c ∈ n.toList, isBlank c = false

theorem IsName.trimmed (h : IsName n) : Trimmed isBlank n.toList := trimmed_of_forall h.unbroken

theorem Padded.refl (t : String) : Padded t t := ⟨"", "", nofun, nofun, by simp⟩

theorem padded_trim (d : String) : Padded (trim d) d := (trim_eq_iff (trimmed_trim d)).mp rfl

/-- Of the texts without blanks at their ends, one is left when the blanks around a text are dropped. -/
theorem Padded.trim_eq (h : Padded t d) (ht : Trimmed isBlank t.toList) : trim d = t := (trim_eq_iff ht).mpr h

/-- A text is blank, or what is left of it has a blank in it, or that is a name. -/
theorem domainName_cases (d : String) :
    (Blank d ∧ domainName d = .error (.invalidDomainName d)) ∨
    (trim d ≠ "" ∧ (∃ c ∈ (trim d).toList, isBlank c = true) ∧
      domainName d = .error (.invalidDomainName (trim d))) ∨
    (IsName (trim d) ∧ domainName d = .ok (trim d)) := by
  unfold domainName
  by_cases hempty : trim d = ""
  · exact .inl ⟨trim_eq_empty_iff.mp hempty, by simp [hempty]⟩
  · right
    by_cases hblank : (trim d).toList.any isBlank = true
    · exact .inl ⟨hempty, List.any_eq_true.mp hblank, by simp [hempty, hblank]⟩
    · refine .inr ⟨⟨hempty, fun c hc => ?_⟩, by simp [hempty, hblank]⟩
      exact Bool.eq_false_iff.mpr fun h => hblank (List.any_eq_true.mpr ⟨c, hc, h⟩)

theorem domainName_eq_ok_iff : domainName d = .ok n ↔ Padded n d ∧ IsName n := by
  constructor
  · intro h
    obtain ⟨rfl, hne, hunbroken⟩ := domainName_ok h
    exact ⟨padded_trim d, hne, hunbroken⟩
  · rintro ⟨hpadded, hname⟩
    obtain rfl := hpadded.trim_eq hname.trimmed
    obtain ⟨hblank, -⟩ | ⟨-, ⟨c, hc, hb⟩, -⟩ | ⟨-, hok⟩ := domainName_cases d
    · exact absurd (trim_eq_empty_iff.mpr hblank) hname.ne_empty
    · cases (hname.unbroken c hc).symm.trans hb
    · exact hok

theorem domainName_eq_error_iff {e : ConsoleError} :
    domainName d = .error e ↔
      (Blank d ∧ e = .invalidDomainName d) ∨
      ∃ t, Padded t d ∧ Trimmed isBlank t.toList ∧ (∃ c ∈ t.toList, isBlank c = true) ∧
        e = .invalidDomainName t := by
  constructor
  · intro h
    obtain ⟨hblank, herror⟩ | ⟨-, hbroken, herror⟩ | ⟨-, hok⟩ := domainName_cases d
    · exact .inl ⟨hblank, (Except.error.inj (herror.symm.trans h)).symm⟩
    · exact .inr ⟨trim d, padded_trim d, trimmed_trim d, hbroken, (Except.error.inj (herror.symm.trans h)).symm⟩
    · cases hok.symm.trans h
  · rintro (⟨hblank, rfl⟩ | ⟨t, hpadded, htrimmed, ⟨c, hc, hb⟩, rfl⟩)
    · obtain ⟨-, herror⟩ | ⟨hne, -⟩ | ⟨hname, -⟩ := domainName_cases d
      · exact herror
      · exact absurd (trim_eq_empty_iff.mpr hblank) hne
      · exact absurd (trim_eq_empty_iff.mpr hblank) hname.ne_empty
    · obtain rfl := hpadded.trim_eq htrimmed
      obtain ⟨hblank, -⟩ | ⟨-, -, herror⟩ | ⟨hname, -⟩ := domainName_cases d
      · rw [trim_eq_empty_iff.mpr hblank] at hc
        exact absurd hc (by simp)
      · exact herror
      · cases (hname.unbroken c hc).symm.trans hb

/-- A text is read as a name just if it is the name with blanks around it. It is so for one name at most, and the name
itself is read as it stands. Any other text is refused: a blank one as it was typed, and one with blanks inside without
those around it. -/
theorem domain_name_exact (d : String) :
    (∀ n, domainName d = .ok n ↔ Padded n d ∧ IsName n) ∧
    (∀ n m, Padded n d → IsName n → Padded m d → IsName m → n = m) ∧
    (∀ n, Padded n d → IsName n → domainName n = .ok n) ∧
    (∀ e, domainName d = .error e ↔
      (Blank d ∧ e = .invalidDomainName d) ∨
      ∃ t, Padded t d ∧ Trimmed isBlank t.toList ∧ (∃ c ∈ t.toList, isBlank c = true) ∧
        e = .invalidDomainName t) := by
  refine ⟨fun n => domainName_eq_ok_iff, fun n m hn hn' hm hm' => ?_, fun n _ hn => ?_, fun e => domainName_eq_error_iff⟩
  · exact (hn.trim_eq hn'.trimmed).symm.trans (hm.trim_eq hm'.trimmed)
  · exact domainName_eq_ok_iff.mpr ⟨Padded.refl n, hn⟩

/-- Blanks of more than one byte around a name. -/
theorem domain_name_exact_wide_blanks :
    let d := "\u3000\tads.example.com\u2028"
    let n := "ads.example.com"
    Padded n d ∧ IsName n ∧ domainName d = .ok n ∧ domainName n = .ok n ∧ ∀ m, Padded m d → IsName m → m = n := by
  intro d n
  have hpadded : Padded n d := ⟨"\u3000\t", "\u2028", by simp [Blank, isBlank], by simp [Blank, isBlank], by decide⟩
  have hname : IsName n := ⟨by decide, by simp [n, isBlank]⟩
  obtain ⟨hok, hunique, hagain, -⟩ := domain_name_exact d
  exact ⟨hpadded, hname, (hok n).mpr ⟨hpadded, hname⟩, hagain n hpadded hname,
    fun m hm hm' => hunique m n hm hm' hpadded hname⟩

end FilterConsole
