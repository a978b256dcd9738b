import Mathlib.Data.String.Basic
import FilterConsole.Text.Ascii

/-! Texts stand in the order of their bytes: UTF-8 keeps the order of the code points. -/

namespace FilterConsole

theorem toList_loop (bytes : ByteArray) (i : Nat) (r : List UInt8) :
    ByteArray.toList.loop bytes i r = r.reverse ++ bytes.data.toList.drop i := by
  fun_induction ByteArray.toList.loop bytes i r with
  | case1 i r h ih =>
    have hi : i < bytes.data.toList.length := h
    have hget : bytes.get! i = bytes.data.toList[i] := getElem!_pos bytes.data i h
    rw [ih, List.drop_eq_getElem_cons hi, List.reverse_cons, List.append_assoc, hget]
    rfl
  | case2 i r h =>
    have hi : bytes.data.toList.length ≤ i := Nat.le_of_not_lt h
    rw [List.drop_eq_nil_of_le hi, List.append_nil]

/-- The bytes of a text are those of its characters. -/
theorem utf8_eq (s : String) : utf8 s = s.toList.flatMap String.utf8EncodeChar := by
  have hbytes : s.toUTF8 = (s.toList.flatMap String.utf8EncodeChar).toByteArray := by
    rw [String.toUTF8, ← String.ofList_toList (s := s), String.toByteArray_ofList, String.toList_ofList]
    rfl
  rw [utf8, hbytes, ByteArray.toList, toList_loop, List.toList_data_toByteArray]
  rfl

/-- Numbers of four digits to the base 64 stand in the order of their digits. -/
theorem digits_lt {v w : Nat} (h : v < w) :
    v / 262144 < w / 262144 ∨ v / 262144 = w / 262144 ∧
      (v / 4096 % 64 < w / 4096 % 64 ∨ v / 4096 % 64 = w / 4096 % 64 ∧
        (v / 64 % 64 < w / 64 % 64 ∨ v / 64 % 64 = w / 64 % 64 ∧ v % 64 < w % 64)) := by
  have h1 : ∀ n, n / 262144 = n / 4096 / 64 := by omega
  have h2 : ∀ n, n / 4096 = n / 64 / 64 := by omega
  omega

/-- A character comes before another one as its bytes do, whatever follows either. -/
theorem encode_lt {c d : Char} (h : c < d) (rest rest' : Bytes) :
    String.utf8EncodeChar c ++ rest < String.utf8EncodeChar d ++ rest' := by
  have hlt : c.val.toNat < d.val.toNat := h
  have hbound : d.val.toNat < 0x110000 := by
    rcases d.valid with hd | hd <;> omega
  have hdigits := digits_lt hlt
  unfold String.utf8EncodeChar
  generalize c.val.toNat = v at *
  generalize d.val.toNat = w at *
  dsimp only
  rcases Nat.lt_or_ge 65535 v with hv | hv
  · -- Of two characters of four bytes each the first bytes may agree, as many as three of them.
    have hhead : ∀ n, n < 0x110000 → (n / 262144 % 8 + 240) % 2 ^ 8 = n / 262144 + 240 := by omega
    have htail : ∀ n, (n % 64 + 128) % 2 ^ 8 = n % 64 + 128 := by omega
    have hlong : ∀ n, 65535 < n → ¬ n ≤ 127 ∧ ¬ n ≤ 2047 ∧ ¬ n ≤ 65535 := by omega
    simp only [hlong v hv, hlong w (hv.trans hlt), if_false, List.cons_append, List.nil_append,
      List.cons_lt_cons_iff, UInt8.lt_iff_toNat_lt, ← UInt8.toNat_inj, UInt8.toNat_ofNat', hhead v (hlt.trans hbound),
      hhead w hbound, htail, Nat.add_lt_add_iff_right, Nat.add_right_cancel_iff]
    grind only
  · split_ifs <;>
      simp only [List.cons_append, List.nil_append, List.cons_lt_cons_iff, UInt8.lt_iff_toNat_lt, ← UInt8.toNat_inj,
        UInt8.toNat_ofNat'] <;>
      omega

theorem flatMap_encode_lt {l l' : List Char} (h : l < l') :
    l.flatMap String.utf8EncodeChar < l'.flatMap String.utf8EncodeChar := by
  induction l generalizing l' with
  | nil =>
    cases l' with
    | nil => exact absurd h (List.lt_irrefl [])
    | cons d l' =>
      have hlength : 0 < (String.utf8EncodeChar d).length := by
        rw [String.length_utf8EncodeChar]
        exact d.utf8Size_pos
      obtain ⟨b, bs, hbs⟩ := List.exists_cons_of_length_pos hlength
      rw [List.flatMap_cons, hbs]
      exact List.nil_lt_cons _ _
  | cons c l ih =>
    cases l' with
    | nil => exact absurd h (List.not_lt_nil _)
    | cons d l' =>
      obtain hcd | ⟨rfl, hl⟩ := List.cons_lt_cons_iff.mp h
      · exact encode_lt hcd _ _
      · exact List.append_left_lt (ih hl)

/-- The order of texts is the order of their bytes. -/
theorem utf8_lt_iff {s t : String} : utf8 s < utf8 t ↔ s < t := by
  have hlt : ∀ {s t : String}, s < t → utf8 s < utf8 t := by
    intro s t h
    rw [utf8_eq, utf8_eq]
    exact flatMap_encode_lt (String.lt_iff_toList_lt.mp h)
  refine ⟨fun h => ?_, hlt⟩
  rcases lt_trichotomy s t with hst | rfl | hts
  · exact hst
  · exact absurd h (List.lt_irrefl _)
  · exact absurd h (List.lt_asymm (hlt hts))

end FilterConsole
