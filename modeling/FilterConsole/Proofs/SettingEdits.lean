import FilterConsole.Proofs.Settings
import FilterConsole.Toml.Reader
import Mathlib.Data.List.Nodup

/-! Changes to a document. A key that is written or dropped changes its own setting and no other; keys and sections that
are not known change nothing. -/

namespace FilterConsole

open Table (lookup_cons_eq_ite)

namespace Toml

variable {key k heading : String} {v : Toml} {members root : Members} {origin : Origin}

theorem lookup_setMember (key : String) (v : Toml) (members : Members) (k : String) :
    (setMember key v members).lookup k = if k = key then some v else members.lookup k := by
  induction members with
  | nil => rw [setMember, lookup_cons_eq_ite]
  | cons e r ih =>
    rw [setMember]
    by_cases he : e.1 = key
    · rw [if_pos (beq_iff_eq.mpr he), lookup_cons_eq_ite, lookup_cons_eq_ite, he]
      by_cases hk : k = key
      · rw [if_pos hk, if_pos hk]
      · rw [if_neg hk, if_neg hk, if_neg hk]
    · rw [if_neg (by simpa using he), lookup_cons_eq_ite, lookup_cons_eq_ite, ih]
      by_cases hk : k = e.1
      · rw [if_pos hk, if_pos hk, if_neg (by rwa [hk])]
      · rw [if_neg hk, if_neg hk]

theorem mem_setMember {e : String × Toml} (h : e ∈ setMember key v members) : e = (key, v) ∨ e ∈ members := by
  induction members with
  | nil => exact .inl (List.mem_singleton.mp h)
  | cons d r ih =>
    rw [setMember] at h
    split at h
    · exact (List.mem_cons.mp h).imp_right (List.mem_cons_of_mem d)
    · obtain rfl | h := List.mem_cons.mp h
      · exact .inr List.mem_cons_self
      · exact (ih h).imp_right (List.mem_cons_of_mem d)

theorem mem_setMember_self (key : String) (v : Toml) (members : Members) : (key, v) ∈ setMember key v members := by
  induction members with
  | nil => exact List.mem_singleton_self _
  | cons d r ih =>
    rw [setMember]
    split
    · exact List.mem_cons_self
    · exact List.mem_cons_of_mem d ih

theorem lookup_filter_ne (key : String) (members : Members) (k : String) :
    (members.filter (·.1 != key)).lookup k = if k = key then none else members.lookup k := by
  induction members with
  | nil => simp
  | cons e r ih =>
    by_cases he : e.1 = key
    · rw [List.filter_cons_of_neg (by simpa using he), ih, lookup_cons_eq_ite, he]
      by_cases hk : k = key
      · rw [if_pos hk, if_pos hk]
      · rw [if_neg hk, if_neg hk, if_neg hk]
    · rw [List.filter_cons_of_pos (by simpa using he), lookup_cons_eq_ite, lookup_cons_eq_ite, ih]
      by_cases hk : k = e.1
      · rw [if_pos hk, if_pos hk, if_neg (by rwa [hk])]
      · rw [if_neg hk, if_neg hk]

def TakesKeys (heading : String) (root : Members) : Prop :=
  ∀ v, root.lookup heading = some v → ∃ origin members, v = .table origin members

def tableOf (heading : String) (root : Members) : Origin × Members :=
  match root.lookup heading with
  | some (.table origin members) => (origin, members)
  | _ => (.header, [])

def changeSection (heading : String) (change : Members → Members) (root : Members) : Members :=
  setMember heading (.table (tableOf heading root).1 (change (tableOf heading root).2)) root

def setKey (heading key : String) (v : Toml) : Members → Members := changeSection heading (setMember key v)

def dropKey (heading key : String) : Members → Members := changeSection heading (List.filter (·.1 != key))

end Toml

open Toml

namespace Setting

variable {f : Setting} {heading : String} {root : Members}

theorem given?_of_ne (h : f.heading ≠ heading) (v : Toml) : f.given? (setMember heading v root) = f.given? root := by
  rw [given?, lookup_setMember, if_neg h, given?]

theorem given?_of_takesKeys (h : TakesKeys f.heading root) :
    f.given? root = (tableOf f.heading root).2.lookup f.key := by
  rw [given?, tableOf]
  cases hv : root.lookup f.heading with
  | none => rfl
  | some v =>
    obtain ⟨origin, members, rfl⟩ := h v hv
    rfl

theorem given?_changeSection (change : Members → Members) :
    f.given? (changeSection f.heading change root) = (change (tableOf f.heading root).2).lookup f.key := by
  rw [given?, changeSection, lookup_setMember, if_pos rfl]
  rfl

/-- Writing a key changes what is given for its setting and for no other. -/
theorem given?_setKey (h : TakesKeys heading root) (key : String) (v : Toml) :
    f.given? (setKey heading key v root) = if f.heading = heading ∧ f.key = key then some v else f.given? root := by
  by_cases hheading : f.heading = heading
  · subst hheading
    rw [setKey, given?_changeSection, lookup_setMember, given?_of_takesKeys h]
    simp
  · rw [if_neg (fun h => hheading h.1), setKey, changeSection, given?_of_ne hheading]

theorem given?_dropKey (h : TakesKeys heading root) (key : String) :
    f.given? (dropKey heading key root) = if f.heading = heading ∧ f.key = key then none else f.given? root := by
  by_cases hheading : f.heading = heading
  · subst hheading
    rw [dropKey, given?_changeSection, lookup_filter_ne, given?_of_takesKeys h]
    simp
  · rw [if_neg (fun h => hheading h.1), dropKey, changeSection, given?_of_ne hheading]

end Setting

namespace Config

variable {f g : Setting} {c c' : Config} {heading key : String} {v : Toml} {members root root' : Members}

theorem mem_headings (hf : f ∈ settings) : f.heading ∈ headings := by
  revert f
  simp [settings, headings]

theorem mem_keysUnder (hf : f ∈ settings) : f.key ∈ keysUnder f.heading :=
  List.mem_map.mpr ⟨f, List.mem_filter.mpr ⟨hf, beq_self_eq_true _⟩, rfl⟩

theorem setting_eq (hf : f ∈ settings) (hg : g ∈ settings) (hheading : g.heading = f.heading) (hkey : g.key = f.key) :
    g = f := by
  have hnodup : (settings.map fun f => (f.heading, f.key)).Nodup := by decide
  exact List.inj_on_of_nodup_map hnodup hg hf (Prod.ext hheading hkey)

section Legible

theorem Legible.table (h : Legible root) (hheading : heading ∈ headings) :
    ∀ e ∈ (tableOf heading root).2, e.1 ∉ keysUnder heading → e.2.isReadable = true := by
  rw [tableOf]
  split
  · next origin members hv => exact h.sections heading hheading _ hv
  · exact nofun

theorem Legible.changeSection (h : Legible root) (hheading : heading ∈ headings) {change : Members → Members}
    (hchange : ∀ e ∈ change (tableOf heading root).2, e.1 ∉ keysUnder heading → e.2.isReadable = true) :
    Legible (changeSection heading change root) where
  others e he hname := by
    obtain rfl | he := mem_setMember he
    · exact absurd hheading hname
    · exact h.others e he hname
  sections name hname v hv := by
    rw [Toml.changeSection, lookup_setMember] at hv
    split at hv
    · next heq =>
      cases hv
      rw [heq]
      exact hchange
    · exact h.sections name hname v hv

theorem Legible.setKey (h : Legible root) (hheading : heading ∈ headings)
    (hv : key ∉ keysUnder heading → v.isReadable = true) : Legible (setKey heading key v root) := by
  refine h.changeSection hheading fun e he hname => ?_
  obtain rfl | he := mem_setMember he
  · exact hv hname
  · exact h.table hheading e he hname

theorem Legible.dropKey (h : Legible root) (hheading : heading ∈ headings) : Legible (dropKey heading key root) :=
  h.changeSection hheading fun e he hname => h.table hheading e (List.mem_filter.mp he).1 hname

theorem Legible.readable_of_setKey (h : Legible (Toml.setKey heading key v root)) (hheading : heading ∈ headings)
    (hkey : key ∉ keysUnder heading) : v.isReadable = true := by
  have hsection := h.sections heading hheading _ (by rw [Toml.setKey, Toml.changeSection, lookup_setMember, if_pos rfl])
  exact hsection (key, v) (mem_setMember_self key v _) hkey

end Legible

section Edits

theorem given_unique (hf : f ∈ settings) {o : Option Toml} {x y : f.Value} (hx : Given f.Reads (f.value {}) o x)
    (hy : Given f.Reads (f.value {}) o y) : x = y := by
  cases o with
  | none => exact hx.trans hy.symm
  | some v => exact reads_unique hf hx hy

/-- If another document gives the same for all settings but one, it stands for a configuration that differs in this
field at most. -/
theorem exists_edited (h : ofToml? root = some c) (hlegible : Legible root') (hf : f ∈ settings)
    (hsame : ∀ g ∈ settings, g ≠ f → g.given? root' = g.given? root) {x : f.Value}
    (hx : Given f.Reads (f.value {}) (f.given? root') x) :
    ∃ c', ofToml? root' = some c' ∧ f.value c' = x ∧ ∀ g ∈ settings, g ≠ f → g.value c' = g.value c := by
  have htyped : ∀ g ∈ settings, ∀ v, g.given? root' = some v → ∃ x, g.Reads v x := by
    intro g hg
    by_cases hgf : g = f
    · subst hgf
      exact exists_given_iff.mp ⟨x, hx⟩
    · rw [hsame g hg hgf]
      exact (exists_ofToml?_iff.mp ⟨c, h⟩).2 g hg
  obtain ⟨c', hc'⟩ := exists_ofToml?_iff.mpr ⟨hlegible, htyped⟩
  have hholds := (ofToml?_eq_some_iff.mp h).2
  have hholds' := (ofToml?_eq_some_iff.mp hc').2
  refine ⟨c', hc', given_unique hf (hholds' f hf) hx, fun g hg hgf => ?_⟩
  have hgiven := hholds' g hg
  rw [Setting.Holds, hsame g hg hgf] at hgiven
  exact given_unique hg hgiven (hholds g hg)

/-- A document that gives the same for all settings stands for the same configuration. -/
theorem ofToml?_of_given?_eq (h : ofToml? root = some c) (hlegible : Legible root')
    (hsame : ∀ g ∈ settings, g.given? root' = g.given? root) : ofToml? root' = some c := by
  refine ofToml?_eq_some_iff.mpr ⟨hlegible, fun g hg => ?_⟩
  rw [Setting.Holds, hsame g hg]
  exact (ofToml?_eq_some_iff.mp h).2 g hg

theorem ofToml?_dropKey (h : ofToml? root = some c) (hf : f ∈ settings) (hkeys : TakesKeys f.heading root) :
    ∃ c', ofToml? (dropKey f.heading f.key root) = some c' ∧ f.value c' = f.value {} ∧
      ∀ g ∈ settings, g ≠ f → g.value c' = g.value c := by
  refine exists_edited h ((ofToml?_eq_some_iff.mp h).1.dropKey (mem_headings hf)) hf (fun g hg hgf => ?_) ?_
  · rw [Setting.given?_dropKey hkeys, if_neg fun heq => hgf (setting_eq hf hg heq.1 heq.2)]
  · rw [Setting.given?_dropKey hkeys, if_pos ⟨rfl, rfl⟩]
    rfl

theorem ofToml?_setKey (h : ofToml? root = some c) (hf : f ∈ settings) (hkeys : TakesKeys f.heading root) {x : f.Value}
    (hx : f.Reads v x) :
    ∃ c', ofToml? (setKey f.heading f.key v root) = some c' ∧ f.value c' = x ∧
      ∀ g ∈ settings, g ≠ f → g.value c' = g.value c := by
  have hlegible := (ofToml?_eq_some_iff.mp h).1.setKey (v := v) (mem_headings hf) fun hkey =>
    absurd (mem_keysUnder hf) hkey
  refine exists_edited h hlegible hf (fun g hg hgf => ?_) ?_
  · rw [Setting.given?_setKey hkeys, if_neg fun heq => hgf (setting_eq hf hg heq.1 heq.2)]
  · rw [Setting.given?_setKey hkeys, if_pos ⟨rfl, rfl⟩]
    exact hx

theorem ofToml?_setKey_illTyped (hf : f ∈ settings) (hkeys : TakesKeys f.heading root) (hv : ∀ x, ¬ f.Reads v x) :
    ofToml? (setKey f.heading f.key v root) = none := by
  refine Option.eq_none_iff_forall_ne_some.mpr fun c h => ?_
  have hgiven : f.given? (setKey f.heading f.key v root) = some v := by
    rw [Setting.given?_setKey hkeys, if_pos ⟨rfl, rfl⟩]
  obtain ⟨x, hx⟩ := (exists_ofToml?_iff.mp ⟨c, h⟩).2 f hf v hgiven
  exact hv x hx

theorem ofToml?_setKey_unknown (h : ofToml? root = some c) (hheading : heading ∈ headings)
    (hkeys : TakesKeys heading root) (hkey : key ∉ keysUnder heading) :
    ofToml? (setKey heading key v root) = if v.isReadable then some c else none := by
  split
  · next hv =>
    refine ofToml?_of_given?_eq h ((ofToml?_eq_some_iff.mp h).1.setKey hheading fun _ => hv) fun g hg => ?_
    rw [Setting.given?_setKey hkeys, if_neg]
    rintro ⟨rfl, rfl⟩
    exact hkey (mem_keysUnder hg)
  · next hv =>
    refine Option.eq_none_iff_forall_ne_some.mpr fun c h => ?_
    exact hv ((ofToml?_eq_some_iff.mp h).1.readable_of_setKey hheading hkey)

theorem ofToml?_setMember_unknown (h : ofToml? root = some c) (hheading : heading ∉ headings) :
    ofToml? (setMember heading v root) = if v.isReadable then some c else none := by
  obtain ⟨hothers, hsections⟩ := (ofToml?_eq_some_iff.mp h).1
  split
  · next hv =>
    refine ofToml?_of_given?_eq h ⟨fun e he hname => ?_, fun name hname w hw => ?_⟩ fun g hg => ?_
    · obtain rfl | he := mem_setMember he
      · exact hv
      · exact hothers e he hname
    · have hne : name ≠ heading := fun heq => hheading (heq ▸ hname)
      rw [lookup_setMember, if_neg hne] at hw
      exact hsections name hname w hw
    · have hne : g.heading ≠ heading := fun heq => hheading (heq ▸ mem_headings hg)
      exact Setting.given?_of_ne hne v
  · next hv =>
    refine Option.eq_none_iff_forall_ne_some.mpr fun c h => ?_
    exact hv ((ofToml?_eq_some_iff.mp h).1.others _ (mem_setMember_self heading v root) hheading)

end Edits

structure Independent (root : Members) (c : Config) : Prop where
  /-- Without its key a setting has its default. -/
  dropped : ∀ f ∈ settings, TakesKeys f.heading root → ∃ c', ofToml? (dropKey f.heading f.key root) = some c' ∧
    f.value c' = f.value {} ∧ ∀ g ∈ settings, g ≠ f → g.value c' = g.value c
  written : ∀ f ∈ settings, TakesKeys f.heading root → ∀ v x, f.Reads v x →
    ∃ c', ofToml? (setKey f.heading f.key v root) = some c' ∧ f.value c' = x ∧
      ∀ g ∈ settings, g ≠ f → g.value c' = g.value c
  /-- To write down what a setting is without its key makes no difference. -/
  writtenDefault : ∀ f ∈ settings, TakesKeys f.heading root → f.given? root = none → ∀ v, f.Reads v (f.value {}) →
    ofToml? (setKey f.heading f.key v root) = some c
  illTyped : ∀ f ∈ settings, TakesKeys f.heading root → ∀ v, (∀ x, ¬ f.Reads v x) →
    ofToml? (setKey f.heading f.key v root) = none
  unknownKey : ∀ heading ∈ headings, TakesKeys heading root → ∀ key ∉ keysUnder heading, ∀ v,
    ofToml? (setKey heading key v root) = if v.isReadable then some c else none
  unknownSection : ∀ heading ∉ headings, ∀ v,
    ofToml? (setMember heading v root) = if v.isReadable then some c else none

theorem independent_of_ofToml? (h : ofToml? root = some c) : Independent root c where
  dropped f hf hkeys := ofToml?_dropKey h hf hkeys
  written f hf hkeys v x hx := ofToml?_setKey h hf hkeys hx
  writtenDefault f hf hkeys hgiven v hv := by
    obtain ⟨c', hc', hvalue, hothers⟩ := ofToml?_setKey h hf hkeys hv
    have hdefault : f.value c = f.value {} := by
      have hholds := (ofToml?_eq_some_iff.mp h).2 f hf
      rwa [Setting.Holds, hgiven] at hholds
    have hsame : c' = c := by
      refine ext_settings fun g hg => ?_
      by_cases hgf : g = f
      · rw [hgf, hvalue, hdefault]
      · exact hothers g hg hgf
    rw [hc', hsame]
  illTyped f hf hkeys v hv := ofToml?_setKey_illTyped hf hkeys hv
  unknownKey heading hheading hkeys key hkey v := ofToml?_setKey_unknown h hheading hkeys hkey
  unknownSection heading hheading v := ofToml?_setMember_unknown h hheading

end Config

open Config

/-- A document is accepted just if its sections are tables, arrays or instants, what it holds beside its settings is
readable, and each setting that it gives has a value of its type. Each of the eleven fields of the configuration is then
what the document gives for it, under its key in a table and at its place in an array, and otherwise what it is by
default. A key that is written or dropped changes its own field only, and one that is not known changes none. -/
theorem settings_independent (root : Members) :
    settings.length = 11 ∧ (∀ c c', (∀ f ∈ settings, f.value c = f.value c') → c = c') ∧
    ((∃ c, ofToml? root = some c) ↔
      Legible root ∧ ∀ f ∈ settings, ∀ v, f.given? root = some v → ∃ x, f.Reads v x) ∧
    ∀ c, ofToml? root = some c → (∀ f ∈ settings, f.Holds root c) ∧ Independent root c :=
  ⟨rfl, fun _ _ => ext_settings, exists_ofToml?_iff,
    fun _ h => ⟨(ofToml?_eq_some_iff.mp h).2, independent_of_ofToml? h⟩⟩

/-- A document with a part of the keys of one section, an array for another, an empty table and a section that is not
known. -/
theorem settings_independent_partial :
    let root : Members := [("api", .table .header [("token", .text "t"), ("retries", .integer (some 3))]),
      ("watcher", .array [.integer (some 250)]), ("presentation", .table .header []), ("theme", .table .header [])]
    let c : Config := { api := { token := some "t" }, watcher := { intervalMs := 250 } }
    ofToml? root = some c ∧ Legible root ∧ (∀ f ∈ settings, f.Holds root c) ∧ Independent root c := by
  intro root c
  have hc : ofToml? root = some c := by decide +kernel
  obtain ⟨-, -, haccepted, hmeans⟩ := settings_independent root
  exact ⟨hc, (haccepted.mp ⟨c, hc⟩).1, hmeans c hc⟩

/-- An array gives a setting without its key. -/
theorem base_url_by_place :
    ∃ root c, parse? "api = [\"http://10.0.0.2\"]" = some root ∧ ofToml? root = some c ∧
      (∀ origin members, root.lookup "api" ≠ some (.table origin members)) ∧
      c.api.baseUrl = "http://10.0.0.2" ∧ c.api.baseUrl ≠ ({} : Config).api.baseUrl := by
  have hparsed : ((parse? "api = [\"http://10.0.0.2\"]").map fun root =>
      (ofToml? root, root.lookup "api" matches some (.table ..))) =
        some (some { api := { baseUrl := "http://10.0.0.2" } }, false) := by decide +kernel
  obtain ⟨root, hroot, hmeans⟩ := Option.map_eq_some_iff.mp hparsed
  obtain ⟨hc, htable⟩ := Prod.mk.inj hmeans
  refine ⟨root, _, hroot, hc, fun origin members h => ?_, rfl, by decide⟩
  rw [h] at htable
  cases htable

end FilterConsole
