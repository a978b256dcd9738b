import FilterConsole.Proofs.JsonScalars

/-! A written value is read back as it was. Its text falls into the tokens that spell it, and a machine that expects a
value takes just these tokens. -/

namespace FilterConsole.Json

open Ascii

inductive Plain : Json → Prop
  | scalar {v : Json} : Legible v → Plain v
  | array {items : List Json} : (∀ v ∈ items, Plain v) → Plain (.array items)
  | object {members : List (Bytes × Json)} :
      (∀ m ∈ members, Legible (.text m.1)) → (∀ m ∈ members, Plain m.2) → Plain (.object members)

mutual

def spelling : Json → List Token
  | .array items => .openBracket :: (spellItems items ++ [.closeBracket])
  | .object members => .openBrace :: (spellMembers members ++ [.closeBrace])
  | v => [.scalar v]

def spellItems : List Json → List Token
  | [] => []
  | [v] => spelling v
  | v :: r => spelling v ++ .comma :: spellItems r

def spellMembers : List (Bytes × Json) → List Token
  | [] => []
  | [(name, v)] => .scalar (.text name) :: .colon :: spelling v
  | (name, v) :: r => .scalar (.text name) :: .colon :: (spelling v ++ .comma :: spellMembers r)

end

section Tokens

variable {b : UInt8} {bs r rest : Bytes} {v : Json} {ts : List Token}

/-- More steps than needed do no harm. -/
theorem tokensWithin_mono {n m : Nat} (h : tokensWithin n bs = some ts) (hle : n ≤ m) : tokensWithin m bs = some ts := by
  induction n generalizing m bs ts with
  | zero =>
    cases bs with
    | nil => simpa only [tokensWithin] using h
    | cons b r => simp [tokensWithin] at h
  | succ n ih =>
    obtain ⟨m, rfl⟩ : ∃ k, m = k + 1 := ⟨m - 1, by omega⟩
    have hle' : n ≤ m := by omega
    cases bs with
    | nil => simpa only [tokensWithin] using h
    | cons b r =>
      rw [tokensWithin] at h ⊢
      split at h
      · next hspace => rw [if_pos hspace, ih h hle']
      · next hspace =>
        rw [if_neg hspace]
        cases hmark : mark? b with
        | some t =>
          rw [hmark] at h
          obtain ⟨ts', hts, rfl⟩ := Option.map_eq_some_iff.mp h
          simp [ih hts hle']
        | none =>
          rw [hmark] at h
          simp only [Option.bind_eq_bind, Option.bind_eq_some_iff] at h ⊢
          obtain ⟨⟨v, rest⟩, hscan, ts', hts, hlast⟩ := h
          exact ⟨(v, rest), hscan, ts', ih hts hle', hlast⟩

theorem tokens_mark {t : Token} (hspace : isSpace b = false) (hmark : mark? b = some t) (h : tokens r = some ts) :
    tokens (b :: r) = some (t :: ts) := by
  have hr : tokensWithin r.length r = some ts := h
  simp [tokens, tokensWithin, hspace, hmark, hr]

theorem tokens_scalar (hv : Legible v) (hrest : Ends rest) (h : tokens rest = some ts) :
    tokens (v.write ++ rest) = some (.scalar v :: ts) := by
  obtain ⟨b, r, hwrite, hspace, hmark⟩ := hv.starts
  have hscan := hv.scans rest hrest
  have hts : tokensWithin (r.length + rest.length) rest = some ts := tokensWithin_mono h (by omega)
  rw [hwrite, List.cons_append] at hscan ⊢
  simp [tokens, tokensWithin, hspace, hmark, hscan, hts]

theorem ends_mark {b : UInt8} {r : Bytes} (h : (mark? b).isSome = true) : Ends (b :: r) := by
  rintro _ ⟨⟩
  exact h

theorem spelling_of_legible (h : Legible v) : v.spelling = [.scalar v] := by
  obtain ⟨b, r, hwrite, _, hmark⟩ := h.starts
  cases v with
  | array items =>
    obtain rfl : byte '[' = b := (List.cons.inj hwrite).1
    cases hmark
  | object members =>
    obtain rfl : byte '\x7b' = b := (List.cons.inj hwrite).1
    cases hmark
  | _ => rfl

/-- A value that is scanned into its tokens, whatever follows. -/
def Scans (v : Json) : Prop :=
  ∀ rest ts, Ends rest → tokens rest = some ts → tokens (v.write ++ rest) = some (v.spelling ++ ts)

theorem tokens_items {items : List Json} (hitems : ∀ v ∈ items, Scans v) (hrest : Ends rest) (h : tokens rest = some ts) :
    tokens (writeItems items ++ rest) = some (spellItems items ++ ts) := by
  induction items with
  | nil => exact h
  | cons v r ih =>
    have hv : Scans v := hitems v (by simp)
    have hr := ih fun w hw => hitems w (by simp [hw])
    cases r with
    | nil => exact hv rest ts hrest h
    | cons w r =>
      have hcomma := tokens_mark (b := byte ',') rfl rfl hr
      have hvalue := hv _ _ (ends_mark rfl) hcomma
      simpa only [writeItems, spellItems, List.append_assoc, List.cons_append] using hvalue

theorem tokens_member {name : Bytes} (hname : Legible (.text name)) (hv : Scans v) (hrest : Ends rest)
    (h : tokens rest = some ts) :
    tokens (quoted name ++ byte ':' :: (v.write ++ rest)) = some (.scalar (.text name) :: .colon :: (v.spelling ++ ts)) :=
  tokens_scalar hname (ends_mark rfl) (tokens_mark rfl rfl (hv rest ts hrest h))

theorem tokens_members {members : List (Bytes × Json)} (hnames : ∀ m ∈ members, Legible (.text m.1))
    (hmembers : ∀ m ∈ members, Scans m.2) (hrest : Ends rest) (h : tokens rest = some ts) :
    tokens (writeMembers members ++ rest) = some (spellMembers members ++ ts) := by
  induction members with
  | nil => exact h
  | cons m r ih =>
    obtain ⟨name, v⟩ := m
    have hname := hnames (name, v) (by simp)
    have hv := hmembers (name, v) (by simp)
    have hr := ih (fun w hw => hnames w (by simp [hw])) fun w hw => hmembers w (by simp [hw])
    cases r with
    | nil =>
      have hlast := tokens_member hname hv hrest h
      simpa only [writeMembers, spellMembers, List.append_assoc, List.cons_append] using hlast
    | cons w r =>
      have hcomma := tokens_mark (b := byte ',') rfl rfl hr
      have hvalue := tokens_member hname hv (ends_mark rfl) hcomma
      simpa only [writeMembers, spellMembers, List.append_assoc, List.cons_append] using hvalue

theorem Plain.scans (h : Plain v) : Scans v := by
  induction h with
  | scalar hv =>
    intro rest ts hrest hts
    rw [spelling_of_legible hv]
    exact tokens_scalar hv hrest hts
  | array _ ih =>
    intro rest ts hrest hts
    have hclose := tokens_mark (b := byte ']') rfl rfl hts
    have hitems := tokens_items ih (ends_mark rfl) hclose
    have hopen := tokens_mark (b := byte '[') rfl rfl hitems
    simpa only [write, spelling, List.append_assoc, List.cons_append, List.nil_append] using hopen
  | object hnames _ ih =>
    intro rest ts hrest hts
    have hclose := tokens_mark (b := byte '\x7d') rfl rfl hts
    have hmembers := tokens_members hnames ih (ends_mark rfl) hclose
    have hopen := tokens_mark (b := byte '\x7b') rfl rfl hmembers
    simpa only [write, spelling, List.append_assoc, List.cons_append, List.nil_append] using hopen

end Tokens

section Machine

variable {v : Json} {ts : List Token} {stack : List Frame}

theorem foldlM_step {m m' : Machine} {t : Token} (h : step m t = some m') :
    (t :: ts).foldlM step m = ts.foldlM step m' := by
  rw [List.foldlM_cons, h]
  rfl

/-- A machine that expects a value takes the tokens of this one. -/
def Taken (v : Json) : Prop := ∀ (stack : List Frame) (ts : List Token),
  (v.spelling ++ ts).foldlM step (.value, stack) = ts.foldlM step (.finished v, stack)

/-- Where an array may end, its first item begins as any value does. -/
theorem foldlM_firstItem {v : Json} {r : List Json} :
    (spellItems (v :: r) ++ ts).foldlM step (.firstItem, .array [] :: stack) =
      (spellItems (v :: r) ++ ts).foldlM step (.value, .array [] :: stack) := by
  have hfirst : ∃ t r', spellItems (v :: r) = t :: r' ∧
      step (.firstItem, .array [] :: stack) t = step (.value, .array [] :: stack) t := by
    cases r <;> cases v <;> exact ⟨_, _, rfl, rfl⟩
  obtain ⟨t, r', hspelling, hstep⟩ := hfirst
  rw [hspelling, List.cons_append, List.foldlM_cons, List.foldlM_cons, hstep]

theorem foldlM_firstName {m : Bytes × Json} {r : List (Bytes × Json)} :
    (spellMembers (m :: r) ++ ts).foldlM step (.firstName, stack) =
      (spellMembers (m :: r) ++ ts).foldlM step (.name [], stack) := by
  obtain ⟨name, v⟩ := m
  cases r <;> rfl

theorem foldlM_items {items : List Json} (done : List Json) (hitems : ∀ v ∈ items, Taken v) (hne : items ≠ []) :
    (spellItems items ++ .closeBracket :: ts).foldlM step (.value, .array done :: stack) =
      ts.foldlM step (.finished (.array (done.reverse ++ items)), stack) := by
  induction items generalizing done with
  | nil => exact absurd rfl hne
  | cons v r ih =>
    have hv : Taken v := hitems v (by simp)
    cases r with
    | nil =>
      rw [spellItems, hv, foldlM_step rfl, List.reverse_cons]
    | cons w r =>
      have hr := ih (v :: done) (fun u hu => hitems u (by simp [hu])) (by simp)
      rw [spellItems, List.append_assoc, hv, List.cons_append, foldlM_step rfl, hr, List.reverse_cons,
        List.append_assoc, List.singleton_append]
      simp

theorem foldlM_member {name : Bytes} {done : List (Bytes × Json)} (hv : Taken v) :
    (.scalar (.text name) :: .colon :: (v.spelling ++ ts)).foldlM step (.name done, stack) =
      ts.foldlM step (.finished v, .object done name :: stack) := by
  rw [foldlM_step rfl, foldlM_step rfl, hv]

theorem foldlM_members {members : List (Bytes × Json)} (done : List (Bytes × Json)) (hmembers : ∀ m ∈ members, Taken m.2)
    (hne : members ≠ []) :
    (spellMembers members ++ .closeBrace :: ts).foldlM step (.name done, stack) =
      ts.foldlM step (.finished (.object (done.reverse ++ members)), stack) := by
  induction members generalizing done with
  | nil => exact absurd rfl hne
  | cons m r ih =>
    obtain ⟨name, v⟩ := m
    have hv : Taken v := hmembers (name, v) (by simp)
    cases r with
    | nil =>
      rw [spellMembers, List.cons_append, List.cons_append, foldlM_member hv, foldlM_step rfl, List.reverse_cons]
    | cons w r =>
      have hr := ih ((name, v) :: done) (fun u hu => hmembers u (by simp [hu])) (by simp)
      rw [spellMembers, List.cons_append, List.cons_append, List.append_assoc, foldlM_member hv, List.cons_append,
        foldlM_step rfl, hr]
      · simp
      · simp

theorem Plain.taken (h : Plain v) : Taken v := by
  induction h with
  | scalar hv =>
    intro stack ts
    rw [spelling_of_legible hv]
    rfl
  | @array items _ ih =>
    intro stack ts
    rw [spelling, List.cons_append, List.append_assoc, foldlM_step rfl]
    cases items with
    | nil => rfl
    | cons v r => exact foldlM_firstItem.trans (foldlM_items [] ih (by simp))
  | @object members _ _ ih =>
    intro stack ts
    rw [spelling, List.cons_append, List.append_assoc, foldlM_step rfl]
    cases members with
    | nil => rfl
    | cons m r => exact foldlM_firstName.trans (foldlM_members [] ih (by simp))

end Machine

def ofFields (fields : List (String × Json)) : Json := .object (fields.map fun f => (escape (utf8 f.1), f.2))

theorem plain_ofFields {fields : List (String × Json)} (h : ∀ f ∈ fields, Plain f.2) : Plain (ofFields fields) := by
  refine .object ?_ ?_ <;> simp only [List.forall_mem_map]
  · exact fun f _ => legible_ofText f.1
  · exact h

/-- What is written is read back. -/
theorem parse?_write {v : Json} (h : Plain v) : parse? v.write = some v := by
  have htokens : tokens v.write = some v.spelling := by
    simpa using h.scans [] [] (by simp [Ends]) rfl
  have htaken : v.spelling.foldlM step (.value, []) = some (.finished v, []) := by
    simpa using h.taken [] []
  rw [parse?, htokens]
  simp only [Option.bind_eq_bind, Option.bind_some, htaken]

end FilterConsole.Json
