import FilterConsole.Address
import FilterConsole.CommandLine.Basic
import FilterConsole.Proofs.JsonScalars
import FilterConsole.Proofs.Numerals
import FilterConsole.Proofs.Trimming
import Mathlib.Data.List.Induction

/-! Addresses and their texts. Each number below 256 has one numeral, and each address one text; with blanks around it,
that text is read as the address, and no other text is read at all. -/

namespace FilterConsole

variable {cs : List Char} {n : Nat} {o : UInt8}

structure IsOctet (cs : List Char) : Prop where
  ne_nil : cs ≠ []
  digits : ∀ c ∈ cs, c.isDigit = true
  canonical : cs.head? = some '0' → cs = ['0']
  small : Nat.ofDigitChars 10 cs 0 < 256

def IsQuad (cs : List Char) : Prop :=
  ∃ parts : List (List Char), parts.length = 4 ∧ (∀ p ∈ parts, IsOctet p) ∧ cs = ['.'].intercalate parts

theorem canonical_toDigits (h : (Nat.toDigits 10 n).head? = some '0') : Nat.toDigits 10 n = ['0'] := by
  have hzero : n = 0 := by
    by_contra hn
    have hhead := head?_numeral hn
    simp [utf8_numeral, h] at hhead
  simp [hzero]

theorem toDigits_digit {c : Char} (h : c.isDigit = true) : Nat.toDigits 10 (c.toNat - '0'.toNat) = [c] := by
  have hrange := Char.isDigit_iff_toNat.mp h
  simp only [Char.reduceToNat] at hrange ⊢
  have hlt : c.toNat - 48 < 10 := by omega
  rw [Nat.toDigits_of_lt_base hlt, List.cons.injEq, ← Char.toNat_inj, Nat.toNat_digitChar_of_lt_ten hlt]
  exact ⟨by omega, rfl⟩

/-- Digits are the numeral of the number that they denote, if no zero stands in front of another digit. -/
theorem toDigits_ofDigitChars (hne : cs ≠ []) (hdigits : ∀ c ∈ cs, c.isDigit = true)
    (hzero : cs.head? = some '0' → cs = ['0']) : Nat.toDigits 10 (Nat.ofDigitChars 10 cs 0) = cs := by
  -- From the end: the last digit is the number modulo ten, and the digits before it have no zero in front either.
  induction cs using List.reverseRecOn with
  | nil => exact absurd rfl hne
  | append_singleton l c ih =>
    have hc : c.isDigit = true := hdigits c (by simp)
    by_cases hl : l = []
    · simpa [hl, Nat.ofDigitChars_cons] using toDigits_digit hc
    · have hhead : (l ++ [c]).head? = l.head? := List.head?_append_of_ne_nil l hl
      have hno : l.head? ≠ some '0' := by
        intro h
        have hlength := congrArg List.length (hzero (hhead.trans h))
        simp [hl] at hlength
      have hdigitsl := ih hl (fun d hd => hdigits d (by simp [hd])) fun h => absurd h hno
      have hpos : 0 < Nat.ofDigitChars 10 l 0 := by
        refine Nat.pos_of_ne_zero fun h => hno ?_
        rw [← hdigitsl, h]
        rfl
      have hlast : c.toNat - '0'.toNat < 10 := by
        have hrange := Char.isDigit_iff_toNat.mp hc
        simp only [Char.reduceToNat] at hrange ⊢
        omega
      have happend := Nat.toDigits_append_toDigits (b := 10) (by decide) hpos hlast
      rw [Nat.ofDigitChars_append, Nat.ofDigitChars_cons, Nat.ofDigitChars_nil, ← happend, hdigitsl, toDigits_digit hc]

theorem isOctet_toDigits (o : UInt8) : IsOctet (Nat.toDigits 10 o.toNat) where
  ne_nil := Nat.toDigits_ne_nil
  digits := digits_toDigits o.toNat
  canonical := canonical_toDigits
  small := by
    rw [Nat.ofDigitChars_toDigits (by decide) (by decide)]
    exact o.toNat_lt

theorem IsOctet.eq_toDigits (h : IsOctet cs) : cs = Nat.toDigits 10 (UInt8.ofNat (Nat.ofDigitChars 10 cs 0)).toNat := by
  rw [UInt8.toNat_ofNat_of_lt' h.small, toDigits_ofDigitChars h.ne_nil h.digits h.canonical]

/-- Octets are read from their numerals and from nothing else. -/
theorem readOctet?_eq_some_iff : readOctet? cs = some o ↔ cs = Nat.toDigits 10 o.toNat := by
  constructor
  · intro h
    unfold readOctet? at h
    split at h
    · cases h
    · next hshort =>
      obtain ⟨n, hn, h⟩ := Option.bind_eq_some_iff.mp h
      obtain ⟨hne, hdigits, rfl⟩ := readDigits?_eq_some_iff.mp hn
      split at h
      · next hsmall =>
        cases h
        refine IsOctet.eq_toDigits ⟨hne, hdigits, fun hzero => ?_, hsmall⟩
        obtain ⟨c, r, rfl⟩ := List.exists_cons_of_ne_nil hne
        simp_all
      · cases h
  · rintro rfl
    have hoctet := isOctet_toDigits o
    have hlength : (Nat.toDigits 10 o.toNat).length ≤ 3 :=
      (Nat.length_toDigits_le_iff (by decide) (by decide)).mpr (Nat.lt_trans o.toNat_lt (by decide))
    have hread : readDigits? (Nat.toDigits 10 o.toNat) = some o.toNat :=
      readDigits?_eq_some_iff.mpr ⟨hoctet.ne_nil, hoctet.digits, Nat.ofDigitChars_toDigits (by decide) (by decide)⟩
    have hzero : (Nat.toDigits 10 o.toNat).head? = some '0' → (Nat.toDigits 10 o.toNat).length ≤ 1 :=
      fun h => by simp [hoctet.canonical h]
    simpa [readOctet?, hread, o.toNat_lt, hlength] using hzero

theorem isOctet_iff : IsOctet cs ↔ ∃ o : UInt8, cs = Nat.toDigits 10 o.toNat := by
  constructor
  · exact fun h => ⟨_, h.eq_toDigits⟩
  · rintro ⟨o, rfl⟩
    exact isOctet_toDigits o

theorem not_isBlank_of_isDigit {c : Char} (h : c.isDigit = true) : isBlank c = false := by
  have hrange := Char.isDigit_iff_toNat.mp h
  simp only [Char.reduceToNat] at hrange
  simp [isBlank]
  omega

namespace Address

theorem toList_text (a : Address) :
    a.text.toList = ['.'].intercalate (a.octets.map fun o => Nat.toDigits 10 o.toNat) := by
  rw [text, String.toList_intercalate, List.map_map]
  simp [numeral, Function.comp_def]

theorem trimmed_text (a : Address) : Trimmed isBlank a.text.toList := by
  refine trimmed_of_forall ?_
  have hdigit : ∀ o : UInt8, ∀ c ∈ Nat.toDigits 10 o.toNat, isBlank c = false :=
    fun o c hc => not_isBlank_of_isDigit (digits_toDigits o.toNat c hc)
  have hdot : isBlank '.' = false := by decide
  simp only [toList_text, octets, List.map_cons, List.map_nil, List.intercalate_cons_cons, List.intercalate_singleton]
  simp only [List.mem_append, List.mem_singleton]
  grind

/-- Four numbers with dots between them are the text of an address. -/
theorem isQuad_iff : IsQuad cs ↔ ∃ a : Address, cs = a.text.toList := by
  constructor
  · rintro ⟨parts, hlength, hoctets, rfl⟩
    match parts, hlength with
    | [p, q, r, s], _ =>
      simp only [List.forall_mem_cons, isOctet_iff] at hoctets
      obtain ⟨⟨a, rfl⟩, ⟨b, rfl⟩, ⟨c, rfl⟩, ⟨d, rfl⟩, -⟩ := hoctets
      exact ⟨⟨a, b, c, d⟩, (toList_text ⟨a, b, c, d⟩).symm⟩
  · rintro ⟨a, rfl⟩
    refine ⟨a.octets.map fun o => Nat.toDigits 10 o.toNat, by simp [octets], ?_, a.toList_text⟩
    simp only [List.forall_mem_map]
    exact fun o _ => isOctet_toDigits o

theorem map_readOctet?_iff {parts : List (List Char)} {octets : List UInt8} :
    parts.map readOctet? = octets.map some ↔ parts = octets.map fun o => Nat.toDigits 10 o.toNat := by
  induction parts generalizing octets with
  | nil => cases octets <;> simp
  | cons p parts ih => cases octets <;> simp [ih, readOctet?_eq_some_iff]

theorem parse_eq_ok_iff {s : String} {a : Address} :
    parse s = .ok a ↔ (splitOn '.' (trim s).toList).map readOctet? = a.octets.map some := by
  obtain ⟨a, b, c, d⟩ := a
  unfold parse
  split
  · next h => simp [h, octets]
  · next h =>
    refine ⟨nofun, fun hparts => absurd hparts ?_⟩
    exact h a b c d

theorem parse_eq_error {s : String} {e : ConsoleError} (h : parse s = .error e) : e = .invalidAddress s := by
  unfold parse at h
  split at h <;> cases h
  rfl

/-- A text is read as an address just if it is the text of the address, but for blanks around it. -/
theorem parse_iff_trim {s : String} {a : Address} : parse s = .ok a ↔ trim s = a.text := by
  have hdots : ∀ p ∈ a.octets.map fun o => Nat.toDigits 10 o.toNat, '.' ∉ p := by
    simp only [List.forall_mem_map]
    exact fun o _ hdot => absurd (digits_toDigits o.toNat '.' hdot) (by decide)
  rw [parse_eq_ok_iff, map_readOctet?_iff, splitOn_eq, ← String.toList_inj, toList_text]
  constructor
  · intro h
    rw [← h, List.intercalate_splitOn]
  · intro h
    rw [h, List.splitOn_intercalate '.' hdots (by simp [octets])]

theorem parse_error_iff {s : String} {e : ConsoleError} :
    parse s = .error e ↔ e = .invalidAddress s ∧ ¬ IsQuad (trim s).toList := by
  have hquad : IsQuad (trim s).toList ↔ ∃ a, parse s = .ok a := by
    simp only [isQuad_iff, String.toList_inj, parse_iff_trim]
  rw [hquad]
  cases h : parse s with
  | ok a => simp
  | error e' => simp [parse_eq_error h, eq_comm]

end Address

/-- A text is read as an address just if, without the blanks around it, it is the text that the address is shown as; so
an address is read back from its text. The texts of addresses are the dotted quads of four numbers below 256 without
leading zeros, and any other text is refused as it was typed. The command line reads addresses in the same way. -/
theorem address_text_canonical (s : String) :
    (∀ a, Address.parse s = .ok a ↔ trim s = a.text) ∧
    (∀ a : Address, trim s = a.text ↔ ∃ u v, Blank u ∧ Blank v ∧ s = u ++ a.text ++ v) ∧
    (∀ a : Address, Address.parse a.text = .ok a) ∧
    (∀ cs, IsQuad cs ↔ ∃ a : Address, cs = a.text.toList) ∧
    (∀ e, Address.parse s = .error e ↔ e = .invalidAddress s ∧ ¬ IsQuad (trim s).toList) ∧
    (∀ a, CommandLine.readAddress s = .ok a ↔ trim s = a.text) ∧
    (∀ e, CommandLine.readAddress s = .error e ↔ e = .address s ∧ ¬ IsQuad (trim s).toList) ∧
    (UsageError.address s).reason = some (ConsoleError.invalidAddress s).message := by
  refine ⟨fun a => Address.parse_iff_trim, fun a => trim_eq_iff a.trimmed_text, fun a => ?_, fun cs => Address.isQuad_iff,
    fun e => Address.parse_error_iff, fun a => ?_, fun e => ?_, rfl⟩
  · have htrim : trim a.text = a.text :=
      (trim_eq_iff a.trimmed_text).mpr ⟨"", "", nofun, nofun, by simp⟩
    exact Address.parse_iff_trim.mpr htrim
  · rw [← Address.parse_iff_trim, CommandLine.readAddress]
    cases Address.parse s <;> simp [Except.mapError]
  · have hrefused : (∃ e', Address.parse s = .error e') ↔ ¬ IsQuad (trim s).toList := by
      simp [Address.parse_error_iff]
    rw [← hrefused, CommandLine.readAddress]
    cases Address.parse s <;> simp [Except.mapError, eq_comm]

/-- A zero in front makes another text, and the refusal keeps the blanks. -/
example : Address.parse " 10.0.0.2\t" = .ok ⟨10, 0, 0, 2⟩ ∧
    Address.parse " 10.0.0.02" = .error (.invalidAddress " 10.0.0.02") := by
  decide +kernel

end FilterConsole
