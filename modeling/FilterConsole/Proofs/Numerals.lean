import FilterConsole.Calendar
import FilterConsole.Text.Split

/-! Numerals as texts. A numeral has digits and perhaps a sign, so it comes out whole where a text is split at any other
character, and the number is read back from it. -/

namespace FilterConsole

variable {sep : Char} {cs : List Char} {n : Nat}

theorem digits_toDigits (n : Nat) : ∀ c ∈ Nat.toDigits 10 n, c.isDigit = true :=
  fun _ hc => Nat.isDigit_of_mem_toDigits (by decide) (by decide) hc

theorem numeral_eq_paddedNumeral (n : Nat) : numeral n = paddedNumeral 0 n := by
  simp [numeral, paddedNumeral, List.leftpad]

theorem digits_paddedNumeral (width n : Nat) : ∀ c ∈ (paddedNumeral width n).toList, c.isDigit = true := by
  intro c hc
  rw [paddedNumeral, String.toList_ofList, List.leftpad] at hc
  rcases List.mem_append.mp hc with hzero | hdigit
  · rw [List.eq_of_mem_replicate hzero]
    rfl
  · exact digits_toDigits n c hdigit

theorem not_mem_paddedNumeral (hsep : sep.isDigit = false) (width n : Nat) : sep ∉ (paddedNumeral width n).toList :=
  fun hmem => Bool.noConfusion (hsep.symm.trans (digits_paddedNumeral width n sep hmem))

section Signs

theorem signedNumeral_cases (i : Int) :
    ∃ n : Nat, i = -(n : Int) ∧ signedNumeral i = "-" ++ paddedNumeral 0 n ∨
      i = (n : Int) ∧ signedNumeral i = paddedNumeral 0 n := by
  refine ⟨i.natAbs, ?_⟩
  rw [signedNumeral, numeral_eq_paddedNumeral]
  split
  · exact .inl ⟨by omega, rfl⟩
  · exact .inr ⟨by omega, rfl⟩

theorem yearText_cases (year : Int) :
    ∃ n : Nat, year = -(n : Int) ∧ yearText year = "-" ++ paddedNumeral 4 n ∨
      year = (n : Int) ∧ (yearText year = "+" ++ paddedNumeral 0 n ∨ yearText year = paddedNumeral 4 n) := by
  refine ⟨year.natAbs, ?_⟩
  rw [yearText, numeral_eq_paddedNumeral]
  split
  · exact .inl ⟨by omega, rfl⟩
  · split
    · exact .inr ⟨by omega, .inl rfl⟩
    · exact .inr ⟨by omega, .inr rfl⟩

theorem not_mem_signedNumeral (hsep : sep.isDigit = false) (hminus : sep ≠ '-') (i : Int) :
    sep ∉ (signedNumeral i).toList := by
  obtain ⟨n, ⟨-, htext⟩ | ⟨-, htext⟩⟩ := signedNumeral_cases i <;> simp [htext, not_mem_paddedNumeral hsep, hminus]

theorem not_mem_yearText (hsep : sep.isDigit = false) (hminus : sep ≠ '-') (hplus : sep ≠ '+') (year : Int) :
    sep ∉ (yearText year).toList := by
  obtain ⟨n, ⟨-, htext⟩ | ⟨-, htext | htext⟩⟩ := yearText_cases year <;>
    simp [htext, not_mem_paddedNumeral hsep, hminus, hplus]

end Signs

section Reading

theorem readDigits?_eq_some_iff :
    readDigits? cs = some n ↔ cs ≠ [] ∧ (∀ c ∈ cs, c.isDigit = true) ∧ Nat.ofDigitChars 10 cs 0 = n := by
  have hvalue : cs.foldl (fun n c => n * 10 + (c.toNat - '0'.toNat)) 0 = Nat.ofDigitChars 10 cs 0 := by
    simp only [Nat.ofDigitChars, Nat.mul_comm]
  rw [readDigits?, hvalue]
  simp [and_assoc]

theorem readDigits?_paddedNumeral (width n : Nat) : readDigits? (paddedNumeral width n).toList = some n := by
  refine readDigits?_eq_some_iff.mpr ⟨?_, digits_paddedNumeral width n, ?_⟩
  · simp [paddedNumeral, List.leftpad, Nat.toDigits_ne_nil]
  · rw [paddedNumeral, String.toList_ofList, List.leftpad, Nat.ofDigitChars_append, Nat.ofDigitChars_replicate_zero,
      Nat.mul_zero, Nat.ofDigitChars_ten_toDigits]

end Reading

section Splitting

theorem splitOn_eq (sep : Char) (cs : List Char) : splitOn sep cs = List.splitOn sep cs := by
  induction cs with
  | nil => rfl
  | cons c cs ih =>
    obtain ⟨part, parts, hparts⟩ := List.exists_cons_of_ne_nil (List.splitOn_ne_nil sep cs)
    simp [splitOn, List.splitOn_cons_eq_if_modifyHead, ih, hparts]

theorem splitOn_append_cons (sep : Char) (cs rest : List Char) :
    splitOn sep (cs ++ sep :: rest) = splitOn sep cs ++ splitOn sep rest := by
  simp only [splitOn_eq, List.splitOn_append_cons_self]

theorem splitOn_cons_self (sep : Char) (cs : List Char) : splitOn sep (sep :: cs) = [] :: splitOn sep cs :=
  splitOn_append_cons sep [] cs

theorem splitOn_eq_singleton (h : sep ∉ cs) : splitOn sep cs = [cs] := by
  rw [splitOn_eq]
  exact List.splitOn_eq_singleton h

theorem splitOn_paddedNumeral (hsep : sep.isDigit = false) (width n : Nat) :
    splitOn sep (paddedNumeral width n).toList = [(paddedNumeral width n).toList] :=
  splitOn_eq_singleton (not_mem_paddedNumeral hsep width n)

end Splitting

end FilterConsole
