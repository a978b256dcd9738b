import FilterConsole.Json.Reader
import FilterConsole.Json.Writer
import FilterConsole.Proofs.ByteOrder

/-! Scalars of a JSON text. A text is escaped byte by byte and an integer is written by its digits; both are scanned as
they were written, if nothing follows or a mark does. -/

namespace FilterConsole

open Ascii

theorem ofUtf8?_utf8 (s : String) : ofUtf8? (utf8 s) = some s := by
  have hbytes : (⟨(utf8 s).toArray⟩ : ByteArray) = s.toByteArray := by
    rw [utf8, ByteArray.toList, toList_loop]
    rfl
  rw [ofUtf8?, hbytes, String.fromUTF8?, dif_pos s.isValidUTF8]
  rfl

theorem encode_ascii {c : Char} (h : c.toNat ≤ 127) : String.utf8EncodeChar c = [byte c] := by
  have hval : c.val.toNat ≤ 127 := h
  simp only [String.utf8EncodeChar, hval, if_true]
  rfl

theorem isDigit_byte {c : Char} (h : c.isDigit = true) :
    c.toNat ≤ 127 ∧ (byte c).toNat = c.toNat ∧ Ascii.isDigit (byte c) = true := by
  have hrange := Char.isDigit_iff_toNat.mp h
  have hle : c.toNat ≤ 127 := by
    have := hrange.2
    simp at this
    omega
  have hbyte : (byte c).toNat = c.toNat := by
    rw [byte, Nat.toUInt8_eq, UInt8.toNat_ofNat']
    omega
  refine ⟨hle, hbyte, ?_⟩
  simp only [Ascii.isDigit, UInt8.le_iff_toNat_le, hbyte, Bool.and_eq_true, decide_eq_true_eq]
  exact hrange

theorem utf8_ofList_ascii {cs : List Char} (h : ∀ c ∈ cs, c.toNat ≤ 127) : utf8 (String.ofList cs) = cs.map byte := by
  rw [utf8_eq, String.toList_ofList]
  induction cs with
  | nil => rfl
  | cons c cs ih =>
    rw [List.flatMap_cons, encode_ascii (h c (by simp)), ih fun d hd => h d (by simp [hd])]
    rfl

/-- The digits of a number as bytes. -/
theorem utf8_numeral (n : Nat) : utf8 (numeral n) = (Nat.toDigits 10 n).map byte :=
  utf8_ofList_ascii fun _ hc => (isDigit_byte (Nat.isDigit_of_mem_toDigits (by decide) (by decide) hc)).1

theorem decimalValue_numeral (n : Nat) : decimalValue (utf8 (numeral n)) = n := by
  have hdigits : ∀ c ∈ Nat.toDigits 10 n, c.isDigit = true := fun c hc =>
    Nat.isDigit_of_mem_toDigits (by decide) (by decide) hc
  have hfold : ∀ (cs : List Char) (m : Nat), (∀ c ∈ cs, c.isDigit = true) →
      (cs.map byte).foldl (fun n b => n * 10 + (b.toNat - 48)) m = Nat.ofDigitChars 10 cs m := by
    intro cs
    induction cs with
    | nil => exact fun m _ => rfl
    | cons c cs ih =>
      intro m h
      have hc := (isDigit_byte (h c (by simp))).2.1
      rw [List.map_cons, List.foldl_cons, hc, Nat.ofDigitChars_cons, ih _ fun d hd => h d (by simp [hd]), Nat.mul_comm]
      rfl
  rw [decimalValue, utf8_numeral, hfold _ _ hdigits, Nat.ofDigitChars_toDigits (by decide) (by decide)]

theorem isDigit_of_mem_numeral {n : Nat} {b : UInt8} (h : b ∈ utf8 (numeral n)) : Ascii.isDigit b = true := by
  rw [utf8_numeral] at h
  obtain ⟨c, hc, rfl⟩ := List.mem_map.mp h
  exact (isDigit_byte (Nat.isDigit_of_mem_toDigits (by decide) (by decide) hc)).2.2

theorem exists_digit_cons (n : Nat) : ∃ b r, utf8 (numeral n) = b :: r ∧ Ascii.isDigit b = true := by
  have hne : utf8 (numeral n) ≠ [] := by
    rw [utf8_numeral]
    exact fun h => Nat.toDigits_ne_nil (List.map_eq_nil_iff.mp h)
  obtain ⟨b, r, hb⟩ := List.exists_cons_of_ne_nil hne
  exact ⟨b, r, hb, isDigit_of_mem_numeral (hb ▸ List.mem_cons_self)⟩

theorem utf8_signedNumeral (i : Int) :
    utf8 (signedNumeral i) = if i < 0 then 0x2D :: utf8 (numeral i.natAbs) else utf8 (numeral i.natAbs) := by
  unfold signedNumeral
  split
  · simp only [utf8_eq, String.toList_append, List.flatMap_append]
    rfl
  · rfl

/-- Only zero is written with a zero in front. -/
theorem head?_numeral {n : Nat} (h : n ≠ 0) : (utf8 (numeral n)).head? ≠ some (byte '0') := by
  rw [utf8_numeral]
  induction n using Nat.strong_induction_on with
  | _ n ih =>
    by_cases hn : n < 10
    · rw [Nat.toDigits_of_lt_base hn]
      have hdigit : ∀ d < 10, d ≠ 0 → [byte d.digitChar].head? ≠ some (byte '0') := by decide
      exact hdigit n hn h
    · have htens : n / 10 ≠ 0 := by omega
      have hhead := ih (n / 10) (by omega) htens
      rw [Nat.toDigits_of_base_le (by decide) (by omega), List.map_append, List.head?_append_of_ne_nil]
      · exact hhead
      · exact fun h => Nat.toDigits_ne_nil (List.map_eq_nil_iff.mp h)

namespace Json

/-- A byte is written as an escape of one letter, as an escape of four digits, or as itself. -/
theorem escapeByte_cases (b : UInt8) :
    (∃ e, escaped? e = some b ∧ escapeByte b = [byte '\\', e]) ∨
    (b < 0x20 ∧ escapeByte b =
      [byte '\\', byte 'u', byte '0', byte '0', hexDigit (b.toNat / 16), hexDigit (b.toNat % 16)]) ∨
    (b ≠ byte '"' ∧ b ≠ byte '\\' ∧ ¬ b < 0x20 ∧ escapeByte b = [b]) := by
  by_cases hquote : b = byte '"'
  · subst hquote
    exact .inl ⟨byte '"', rfl, rfl⟩
  by_cases hslash : b = byte '\\'
  · subst hslash
    exact .inl ⟨byte '\\', rfl, rfl⟩
  unfold escapeByte
  simp only [hquote, hslash, decide_false, Bool.or_self, Bool.false_eq_true, if_false]
  split_ifs with h8 hC hA hD h9 h20
  · exact .inl ⟨byte 'b', h8 ▸ rfl, rfl⟩
  · exact .inl ⟨byte 'f', hC ▸ rfl, rfl⟩
  · exact .inl ⟨byte 'n', hA ▸ rfl, rfl⟩
  · exact .inl ⟨byte 'r', hD ▸ rfl, rfl⟩
  · exact .inl ⟨byte 't', h9 ▸ rfl, rfl⟩
  · exact .inr (.inl ⟨h20, rfl⟩)
  · exact .inr (.inr ⟨hquote, hslash, h20, rfl⟩)

theorem ne_u_of_escaped? {e b : UInt8} (h : escaped? e = some b) : e ≠ 0x75 := by
  rintro rfl
  cases h

theorem hexValue4?_control {n : Nat} (h : n < 32) :
    hexValue4? (byte '0') (byte '0') (hexDigit (n / 16)) (hexDigit (n % 16)) = some n := by
  revert n
  decide

theorem codePoint_control {n : Nat} (h : n < 32) : codePoint n = [n.toUInt8] := by
  have hascii : (Char.ofNat n).toNat = n := by
    revert n
    decide
  rw [codePoint, utf8_eq, String.toList_singleton, List.flatMap_singleton, encode_ascii (by omega), byte, hascii]

theorem scanText_escapeByte (b : UInt8) (rest : Bytes) :
    scanText (escapeByte b ++ rest) = (scanText rest).map fun (raw, r) => (escapeByte b ++ raw, r) := by
  rcases escapeByte_cases b with ⟨e, he, hb⟩ | ⟨hlt, hb⟩ | ⟨hquote, hslash, hlt, hb⟩
  · have hu := ne_u_of_escaped? he
    rw [hb, List.cons_append, List.singleton_append, scanText]
    · simp [he]
    · simp [hu]
  · have hhex := hexValue4?_control (UInt8.lt_iff_toNat_lt.mp hlt)
    rw [hb]
    change scanText (0x5C :: 0x75 :: byte '0' :: byte '0' :: _ :: _ :: rest) = _
    rw [scanText]
    simp only [hhex]
    rfl
  · rw [hb, List.singleton_append, scanText.eq_def]
    dsimp only
    rw [if_neg hquote, if_neg hslash, if_neg hlt]
    rfl

theorem unescape_escapeByte (b : UInt8) (rest : Bytes) :
    unescape (escapeByte b ++ rest) = (unescape rest).map (b :: ·) := by
  rcases escapeByte_cases b with ⟨e, he, hb⟩ | ⟨hlt, hb⟩ | ⟨_, hslash, _, hb⟩
  · have hu := ne_u_of_escaped? he
    rw [hb, List.cons_append, List.singleton_append, unescape]
    · rw [if_pos rfl, he]
      exact Option.map_eq_bind.symm
    · simp [hu]
  · have hn : b.toNat < 32 := UInt8.lt_iff_toNat_lt.mp hlt
    have hhigh : ¬ (decide (0xD800 ≤ b.toNat) && decide (b.toNat < 0xDC00)) = true := by simp; omega
    have hlow : ¬ (decide (0xDC00 ≤ b.toNat) && decide (b.toNat < 0xE000)) = true := by simp; omega
    rw [hb]
    change unescape (0x5C :: 0x75 :: byte '0' :: byte '0' :: _ :: _ :: rest) = _
    have hcode : codePoint b.toNat = [b] := by rw [codePoint_control hn, Nat.toUInt8_eq, UInt8.ofNat_toNat]
    have hmark : (0x5C : UInt8) = byte '\\' := rfl
    rw [unescape, if_pos hmark, hexValue4?_control hn]
    dsimp only [Option.bind_eq_bind, Option.bind_some]
    rw [if_neg hhigh, if_neg hlow, hcode]
    exact Option.map_eq_bind.symm
  · rw [hb, List.singleton_append, unescape.eq_def]
    dsimp only
    rw [if_neg hslash]

theorem scanText_escape (bs rest : Bytes) : scanText (escape bs ++ byte '"' :: rest) = some (escape bs, rest) := by
  induction bs with
  | nil =>
    change scanText (byte '"' :: rest) = some ([], rest)
    rw [scanText.eq_def]
    exact if_pos rfl
  | cons b bs ih =>
    have hcons : escape (b :: bs) = escapeByte b ++ escape bs := List.flatMap_cons
    rw [hcons, List.append_assoc, scanText_escapeByte, ih]
    rfl

theorem unescape_escape (bs : Bytes) : unescape (escape bs) = some bs := by
  induction bs with
  | nil => rfl
  | cons b bs ih =>
    have hcons : escape (b :: bs) = escapeByte b ++ escape bs := List.flatMap_cons
    rw [hcons, unescape_escapeByte, ih]
    rfl

/-- A text is read as it was written, character for character. -/
theorem readText?_escape (s : String) : readText? (escape (utf8 s)) = some s := by
  rw [readText?, unescape_escape]
  exact ofUtf8?_utf8 s

def Ends (rest : Bytes) : Prop := ∀ b ∈ rest.head?, (mark? b).isSome = true

theorem plain_of_isDigit {b : UInt8} (h : Ascii.isDigit b = true) : isSpace b = false ∧ mark? b = none ∧ b ≠ 0x22 ∧
    b ≠ 0x2D ∧ b ≠ byte 'n' ∧ b ≠ byte 't' ∧ b ≠ byte 'f' := by
  have hall : ∀ n < 58, 48 ≤ n → isSpace (.ofNat n) = false ∧ mark? (.ofNat n) = none ∧ UInt8.ofNat n ≠ 0x22 ∧
      UInt8.ofNat n ≠ 0x2D ∧ UInt8.ofNat n ≠ byte 'n' ∧ UInt8.ofNat n ≠ byte 't' ∧ UInt8.ofNat n ≠ byte 'f' := by decide
  simp only [Ascii.isDigit, UInt8.le_iff_toNat_le, Bool.and_eq_true, decide_eq_true_eq] at h
  have hlow : 48 ≤ b.toNat := h.1
  have hhigh : b.toNat ≤ 57 := h.2
  have hb := hall b.toNat (by omega) hlow
  rwa [UInt8.ofNat_toNat] at hb

section Ends

variable {b : UInt8} {r rest : Bytes}

theorem Ends.not_isDigit (h : Ends (b :: r)) : Ascii.isDigit b = false := by
  have hmark : (mark? b).isSome = true := h b rfl
  by_contra hdigit
  rw [(plain_of_isDigit (Bool.not_eq_false _ ▸ hdigit)).2.1] at hmark
  cases hmark

theorem Ends.ne {c : UInt8} (h : Ends (b :: r)) (hc : mark? c = none) : b ≠ c := by
  rintro rfl
  have hmark : (mark? b).isSome = true := h b rfl
  rw [hc] at hmark
  cases hmark

theorem scanPlaces_of_ends (h : Ends rest) : scanPlaces rest = some ([], rest) := by
  cases rest with
  | nil => rfl
  | cons b r =>
    rw [scanPlaces]
    exact fun r' he => h.ne rfl (List.cons.inj he).1

theorem scanExponent_of_ends (h : Ends rest) : scanExponent rest = some ([], rest) := by
  cases rest with
  | nil => rfl
  | cons b r =>
    rw [scanExponent, if_neg]
    simp only [Bool.or_eq_true, decide_eq_true_eq, not_or]
    exact ⟨h.ne rfl, h.ne rfl⟩

theorem scanDigits_numeral (n : Nat) (h : Ends rest) :
    scanDigits (utf8 (numeral n) ++ rest) = some (utf8 (numeral n), rest) := by
  have hdigits : ∀ b ∈ utf8 (numeral n), Ascii.isDigit b = true := fun _ hb => isDigit_of_mem_numeral hb
  have htake : rest.takeWhile Ascii.isDigit = [] := by
    cases rest with
    | nil => rfl
    | cons b r => rw [List.takeWhile_cons_of_neg (by simp [h.not_isDigit])]
  have hdrop : rest.dropWhile Ascii.isDigit = rest := by
    cases rest with
    | nil => rfl
    | cons b r => rw [List.dropWhile_cons_of_neg (by simp [h.not_isDigit])]
  obtain ⟨b, r, hb, hdigit⟩ := exists_digit_cons n
  have hhead : (((utf8 (numeral n) ++ rest).head?).map Ascii.isDigit).getD false = true := by
    rw [hb]
    exact hdigit
  rw [scanDigits, if_pos hhead, List.takeWhile_append_of_pos hdigits, List.dropWhile_append_of_pos hdigits, htake, hdrop,
    List.append_nil]

theorem scanWhole_numeral (n : Nat) (h : Ends rest) :
    scanWhole (utf8 (numeral n) ++ rest) = some (utf8 (numeral n), rest) := by
  by_cases hn : n = 0
  · subst hn
    rw [utf8_numeral]
    rfl
  · rw [scanWhole, scanDigits_numeral n h]
    intro r hr
    obtain ⟨b, r', hb, _⟩ := exists_digit_cons n
    have hhead := head?_numeral hn
    rw [hb] at hr hhead
    exact hhead (congrArg some (List.cons.inj hr).1)

theorem scanUnsigned_numeral (negative : Bool) (n : Nat) (hn : negative = true → n ≠ 0) (h : Ends rest) :
    scanUnsigned negative (utf8 (numeral n) ++ rest) = some (.integer (if negative then -n else n), rest) := by
  have hzero : (negative && n == 0) = false := by
    cases negative with
    | false => rfl
    | true => simpa using hn rfl
  simp only [scanUnsigned, scanWhole_numeral n h, Option.bind_eq_bind, Option.bind_some, scanPlaces_of_ends h,
    scanExponent_of_ends h, decimalValue_numeral, hzero]
  rfl

theorem scanNumber_integer (i : Int) (h : Ends rest) :
    scanNumber (utf8 (signedNumeral i) ++ rest) = some (.integer i, rest) := by
  rw [utf8_signedNumeral]
  split
  · next hneg =>
    have hvalue : -(i.natAbs : Int) = i := by omega
    rw [List.cons_append, scanNumber, scanUnsigned_numeral true _ (by omega) h, if_pos rfl, hvalue]
  · next hpos =>
    have hvalue : (i.natAbs : Int) = i := by omega
    obtain ⟨b, r, hb, hdigit⟩ := exists_digit_cons i.natAbs
    have hscan := scanUnsigned_numeral false i.natAbs (by simp) h
    rw [hb, List.cons_append] at hscan ⊢
    rw [scanNumber, hscan, if_neg Bool.false_ne_true, hvalue]
    exact fun r' hr => (plain_of_isDigit hdigit).2.2.2.1 (List.cons.inj hr).1

end Ends

theorem utf8_null : utf8 "null" = [byte 'n', byte 'u', byte 'l', byte 'l'] := by
  rw [utf8_eq]
  rfl

theorem utf8_true : utf8 "true" = [byte 't', byte 'r', byte 'u', byte 'e'] := by
  rw [utf8_eq]
  rfl

theorem utf8_false : utf8 "false" = [byte 'f', byte 'a', byte 'l', byte 's', byte 'e'] := by
  rw [utf8_eq]
  rfl

theorem scanScalar_null (rest : Bytes) : scanScalar (utf8 "null" ++ rest) = some (.null, rest) := by
  simp [scanScalar, utf8_null, utf8_true, utf8_false, after?]

theorem after?_of_ne {b c : UInt8} {word r : Bytes} (h : b ≠ c) : after? (c :: word) (b :: r) = none := by
  simp [after?, h.symm]

theorem scanScalar_number {b : UInt8} {r : Bytes} (hquote : b ≠ 0x22) (hn : b ≠ byte 'n') (ht : b ≠ byte 't')
    (hf : b ≠ byte 'f') : scanScalar (b :: r) = scanNumber (b :: r) := by
  rw [scanScalar]
  · rw [utf8_null, utf8_true, utf8_false, after?_of_ne hn, after?_of_ne ht, after?_of_ne hf]
  · exact fun r' hr => hquote (List.cons.inj hr).1

structure Legible (v : Json) : Prop where
  starts : ∃ b r, v.write = b :: r ∧ isSpace b = false ∧ mark? b = none
  scans : ∀ rest, Ends rest → scanScalar (v.write ++ rest) = some (v, rest)

theorem legible_null : Legible .null where
  starts := ⟨_, _, utf8_null, rfl, rfl⟩
  scans rest _ := scanScalar_null rest

theorem legible_integer (i : Int) : Legible (.integer i) := by
  have hwrite : write (.integer i) = utf8 (signedNumeral i) := by rw [write]
  have hstarts : ∃ b r, utf8 (signedNumeral i) = b :: r ∧ (Ascii.isDigit b = true ∨ b = 0x2D) := by
    rw [utf8_signedNumeral]
    obtain ⟨b, r, hb, hdigit⟩ := exists_digit_cons i.natAbs
    split
    · exact ⟨_, _, rfl, .inr rfl⟩
    · exact ⟨b, r, hb, .inl hdigit⟩
  obtain ⟨b, r, hb, hfirst⟩ := hstarts
  have hplain : isSpace b = false ∧ mark? b = none ∧ b ≠ 0x22 ∧ b ≠ byte 'n' ∧ b ≠ byte 't' ∧ b ≠ byte 'f' := by
    rcases hfirst with hdigit | rfl
    · obtain ⟨hspace, hmark, hquote, _, hletters⟩ := plain_of_isDigit hdigit
      exact ⟨hspace, hmark, hquote, hletters⟩
    · decide
  obtain ⟨hspace, hmark, hquote, hn, ht, hf⟩ := hplain
  refine ⟨⟨b, r, hwrite.trans hb, hspace, hmark⟩, fun rest hrest => ?_⟩
  have hscan := scanNumber_integer i hrest
  rw [hb, List.cons_append] at hscan
  rw [hwrite, hb, List.cons_append, scanScalar_number hquote hn ht hf, hscan]

theorem legible_text {raw : Bytes} (h : ∀ rest, scanText (raw ++ byte '"' :: rest) = some (raw, rest)) :
    Legible (.text raw) where
  starts := ⟨byte '"', raw ++ [byte '"'], rfl, rfl, rfl⟩
  scans rest _ := by
    have hwrite : write (.text raw) ++ rest = 0x22 :: (raw ++ byte '"' :: rest) := by simp [write, quoted]
    rw [hwrite, scanScalar, h]
    rfl

theorem legible_ofText (s : String) : Legible (ofText s) := legible_text (scanText_escape (utf8 s))

end Json

end FilterConsole
