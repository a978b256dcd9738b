import FilterConsole.Config.FromToml
import FilterConsole.Proofs.Lookup

/-! The settings of a configuration one by one: the section and the key under which a document gives each of them, the
values it takes, and the field it becomes. Fields that a document does not give are as they are without a document. -/

namespace FilterConsole

open Table (lookup_cons_eq_ite)

namespace Toml

variable {α : Type} {keys : List String}

theorem membersReadable_iff {members : Members} :
    membersReadable members = true ↔ ∀ e ∈ members, e.2.isReadable = true := by
  induction members with
  | nil => simp [membersReadable]
  | cons e r ih => simp [membersReadable, ih]

section Values

inductive Spells (name : String) : Toml → Prop
  | text : Spells name (.text name)
  | table {outer inner : Origin} : Spells name (.table outer [(name, .table inner [])])
  | array {outer : Origin} : Spells name (.table outer [(name, .array [])])

theorem text?_eq_some_iff (v : Toml) (s : String) : v.text? = some s ↔ v = .text s := by
  cases v <;> simp [text?]

theorem boolean?_eq_some_iff (v : Toml) (b : Bool) : v.boolean? = some b ↔ v = .boolean b := by
  cases v <;> simp [boolean?]

theorem natBelow?_eq_some_iff {v : Toml} {bound n : Nat} :
    v.natBelow? bound = some n ↔ v = .integer (some n) ∧ n < bound := by
  constructor
  · intro h
    unfold natBelow? at h
    split at h
    · split at h
      · next i hi =>
        rw [Bool.and_eq_true, decide_eq_true_eq, decide_eq_true_eq] at hi
        cases h
        rw [Int.toNat_of_nonneg hi.1]
        exact ⟨rfl, by omega⟩
      · cases h
    · cases h
  · rintro ⟨rfl, hn⟩
    simp [natBelow?, hn]

theorem word64?_eq_some_iff (v : Toml) (n : UInt64) : v.word64? = some n ↔ v = .integer (some n.toNat) := by
  rw [word64?, Option.map_eq_some_iff]
  constructor
  · rintro ⟨m, hm, rfl⟩
    obtain ⟨rfl, hlt⟩ := natBelow?_eq_some_iff.mp hm
    rw [UInt64.toNat_ofNat', Nat.mod_eq_of_lt hlt]
  · rintro rfl
    exact ⟨n.toNat, natBelow?_eq_some_iff.mpr ⟨rfl, n.toNat_lt⟩, by simp⟩

theorem word32?_eq_some_iff (v : Toml) (n : UInt32) : v.word32? = some n ↔ v = .integer (some n.toNat) := by
  rw [word32?, Option.map_eq_some_iff]
  constructor
  · rintro ⟨m, hm, rfl⟩
    obtain ⟨rfl, hlt⟩ := natBelow?_eq_some_iff.mp hm
    rw [UInt32.toNat_ofNat', Nat.mod_eq_of_lt hlt]
  · rintro rfl
    exact ⟨n.toNat, natBelow?_eq_some_iff.mpr ⟨rfl, n.toNat_lt⟩, by simp⟩

theorem choice?_eq_some_iff {v : Toml} {choices : List (String × α)} {a : α} :
    choice? choices v = some a ↔ ∃ name, choices.lookup name = some a ∧ Spells name v := by
  constructor
  · intro h
    unfold choice? at h
    split at h
    · exact ⟨_, h, .text⟩
    · exact ⟨_, h, .table⟩
    · exact ⟨_, h, .array⟩
    · cases h
  · rintro ⟨name, hname, hspells⟩
    cases hspells <;> exact hname

/-- Choices listed under their own names. -/
theorem choice?_named {name : α → String} (hname : ∀ a b, name a = name b → a = b) {all : List α}
    (hall : ∀ a, a ∈ all) (v : Toml) (a : α) :
    choice? (all.map fun b => (name b, b)) v = some a ↔ Spells (name a) v := by
  have hlookup : ∀ (l : List α) (s : String),
      (l.map fun b => (name b, b)).lookup s = some a ↔ a ∈ l ∧ s = name a := by
    intro l s
    induction l with
    | nil => simp
    | cons b l ih =>
      rw [List.map_cons, lookup_cons_eq_ite, List.mem_cons]
      by_cases hb : s = name b
      · rw [if_pos hb, Option.some.injEq]
        constructor
        · rintro rfl
          exact ⟨.inl rfl, hb⟩
        · exact fun h => hname b a (hb.symm.trans h.2)
      · rw [if_neg hb, ih]
        constructor
        · exact fun h => ⟨.inr h.1, h.2⟩
        · rintro ⟨rfl | h, rfl⟩
          · exact absurd rfl hb
          · exact ⟨h, rfl⟩
  rw [choice?_eq_some_iff]
  simp [hlookup, hall]

end Values

section Sections

/-- What a section gives for a key: what stands under it in a table, what stands at its place in an array. -/
def valueAt (keys : List String) (key : String) : Toml → Option Toml
  | .table _ members => members.lookup key
  | .array items | .elements items => items[keys.idxOf key]?
  | _ => none

/-- A table, what it holds under other keys being readable, or an array, or an instant. -/
def IsSection (keys : List String) : Toml → Prop
  | .table _ members => ∀ e ∈ members, e.1 ∉ keys → e.2.isReadable = true
  | .array _ | .elements _ | .instant _ => True
  | _ => False

theorem namedFields?_eq_some_iff {members : Members} {fields : List (Option Toml)} :
    namedFields? keys members = some fields ↔
      (∀ e ∈ members, e.1 ∉ keys → e.2.isReadable = true) ∧ fields = keys.map (List.lookup · members) := by
  have hreadable : membersReadable (members.filter fun e => !keys.contains e.1) = true ↔
      ∀ e ∈ members, e.1 ∉ keys → e.2.isReadable = true := by
    simp [membersReadable_iff]
  rw [namedFields?, ← hreadable]
  split
  · next h => rw [Option.some.injEq, and_iff_right h, eq_comm]
  · next h => exact ⟨nofun, fun hf => absurd hf.1 h⟩

/-- The values of an array at the places of some keys. -/
theorem rightpad_take_eq_map (hkeys : keys.Nodup) (items : List Toml) :
    ((items.take keys.length).map some).rightpad keys.length none =
      keys.map fun key => items[keys.idxOf key]? := by
  have hlength : (((items.take keys.length).map some).rightpad keys.length none).length = keys.length := by
    simp only [List.rightpad, List.length_append, List.length_map, List.length_take, List.length_replicate]
    omega
  refine List.ext_getElem (by rw [hlength, List.length_map]) fun i _ hi => ?_
  rw [List.length_map] at hi
  rw [List.getElem_map, hkeys.idxOf_getElem i hi]
  by_cases hitem : i < items.length
  · have htaken : i < min keys.length items.length := by omega
    simp [List.rightpad, htaken, hitem]
  · have htaken : ¬ i < min keys.length items.length := by omega
    simp [List.rightpad, List.getElem_append, htaken, hitem]

theorem fields?_eq_some_iff (hkeys : keys.Nodup) {v : Toml} {fields : List (Option Toml)} :
    v.fields? keys = some fields ↔ v.IsSection keys ∧ fields = keys.map fun key => v.valueAt keys key := by
  cases v with
  | table origin members => exact namedFields?_eq_some_iff
  | array items | elements items =>
    simp only [fields?, IsSection, valueAt, rightpad_take_eq_map hkeys, Option.some.injEq, true_and]
    exact eq_comm
  | instant written =>
    simp only [fields?, IsSection, valueAt, Option.some.injEq, true_and]
    exact eq_comm
  | _ => simp [fields?, IsSection]

end Sections

/-- What is there is read as `a`; where nothing is there, `a` is what stands for it. -/
def Given (Reads : Toml → α → Prop) (absent : α) : Option Toml → α → Prop
  | none, a => a = absent
  | some v, a => Reads v a

theorem orElse?_eq_some_iff {read? : Toml → Option α} {Reads : Toml → α → Prop}
    (hread : ∀ v a, read? v = some a ↔ Reads v a) {absent a : α} {o : Option Toml} :
    orElse? read? absent o = some a ↔ Given Reads absent o a := by
  cases o with
  | none =>
    change some absent = some a ↔ a = absent
    rw [Option.some.injEq, eq_comm]
  | some v => exact hread v a

theorem orElse?_bind_eq_some_iff {read? : Toml → Option α} {Reads : Toml → α → Prop}
    (hread : ∀ v a, read? v = some a ↔ Reads v a) {absent : α} {o : Option Toml} {β : Type} {k : α → Option β} {b : β} :
    orElse? read? absent o >>= k = some b ↔ ∃ a, Given Reads absent o a ∧ k a = some b := by
  rw [Option.bind_eq_bind, Option.bind_eq_some_iff]
  exact exists_congr fun a => and_congr_left fun _ => orElse?_eq_some_iff hread

/-- A section that is not there is read as one that gives nothing, if that is what stands for it. -/
theorem orElse?_fields_eq_some_iff (hkeys : keys.Nodup) (ofToml? : Toml → Option α) (absent : α)
    {read? : List (Option Toml) → Option α} (hread : ∀ v, ofToml? v = v.fields? keys >>= read?)
    (habsent : read? (keys.map fun _ => none) = some absent) {o : Option Toml} {a : α} :
    orElse? ofToml? absent o = some a ↔
      (∀ v, o = some v → v.IsSection keys) ∧ read? (keys.map fun key => o.bind (valueAt keys key)) = some a := by
  cases o with
  | none =>
    change some absent = some a ↔ _
    simp only [Option.bind_none, habsent]
    simp
  | some v =>
    change ofToml? v = some a ↔ _
    simp only [hread, Option.some.injEq, forall_eq', Option.bind_some]
    constructor
    · intro h
      obtain ⟨fields, hfields, h⟩ := Option.bind_eq_some_iff.mp h
      obtain ⟨hsection, rfl⟩ := (fields?_eq_some_iff hkeys).mp hfields
      exact ⟨hsection, h⟩
    · rintro ⟨hsection, h⟩
      exact Option.bind_eq_some_iff.mpr ⟨_, (fields?_eq_some_iff hkeys).mpr ⟨hsection, rfl⟩, h⟩

end Toml

open Toml

/-- A setting: the section and the key that give it, what they may hold, and the field that it becomes. -/
structure Setting where
  Value : Type
  heading : String
  key : String
  Reads : Toml → Value → Prop
  value : Config → Value

namespace Config

def settings : List Setting :=
  [⟨String, "api", "base_url", fun v s => v = .text s, fun c => c.api.baseUrl⟩,
   ⟨String, "api", "api_prefix", fun v s => v = .text s, fun c => c.api.pathPrefix⟩,
   ⟨UInt64, "api", "request_timeout_secs", fun v n => v = .integer (some n.toNat), fun c => c.api.timeoutSecs⟩,
   ⟨Option String, "api", "token", fun v t => ∃ s, v = .text s ∧ t = some s, fun c => c.api.token⟩,
   ⟨UInt64, "watcher", "poll_interval_ms", fun v n => v = .integer (some n.toNat), fun c => c.watcher.intervalMs⟩,
   ⟨UInt32, "watcher", "max_polls", fun v n => v = .integer (some n.toNat), fun c => c.watcher.maxPolls⟩,
   ⟨Bool, "presentation", "login_on_any_failure", fun v b => v = .boolean b,
    fun c => c.presentation.loginOnAnyFailure⟩,
   ⟨SortField, "presentation", "sort_field", fun v f => Spells f.name v, fun c => c.presentation.sortField⟩,
   ⟨SortDirection, "presentation", "sort_direction", fun v d => Spells d.name v,
    fun c => c.presentation.sortDirection⟩,
   ⟨String, "logging", "level", fun v s => v = .text s, fun c => c.logging.level⟩,
   ⟨LogFormat, "logging", "format", fun v f => Spells f.name v, fun c => c.logging.format⟩]

def headings : List String := ["api", "watcher", "presentation", "logging"]

def keysUnder (heading : String) : List String := (settings.filter (·.heading == heading)).map (·.key)

end Config

namespace Setting

def given? (f : Setting) (root : Members) : Option Toml :=
  (root.lookup f.heading).bind (valueAt (Config.keysUnder f.heading) f.key)

/-- The field of the configuration is what the document gives for it, or else what it is without a document. -/
def Holds (f : Setting) (root : Members) (c : Config) : Prop :=
  Given f.Reads (f.value {}) (f.given? root) (f.value c)

end Setting

namespace Config

/-- A document as far as it does not matter what it gives: its sections are sections, and all else is readable. -/
structure Legible (root : Members) : Prop where
  others : ∀ e ∈ root, e.1 ∉ headings → e.2.isReadable = true
  sections : ∀ heading ∈ headings, ∀ v, root.lookup heading = some v → v.IsSection (keysUnder heading)

variable {o : Option Toml} {root : Members}

theorem token_reads (v : Toml) (t : Option String) : v.text?.map some = some t ↔ ∃ s, v = .text s ∧ t = some s := by
  rw [Option.map_eq_some_iff]
  exact exists_congr fun s => and_congr (text?_eq_some_iff v s) eq_comm

theorem sortField_reads : ∀ v f, choice? sortFields v = some f ↔ Spells f.name v :=
  choice?_named (by rintro ⟨⟩ ⟨⟩ <;> simp [SortField.name]) (by rintro ⟨⟩ <;> simp)

theorem sortDirection_reads : ∀ v d, choice? sortDirections v = some d ↔ Spells d.name v :=
  choice?_named (by rintro ⟨⟩ ⟨⟩ <;> simp [SortDirection.name]) (by rintro ⟨⟩ <;> simp)

theorem logFormat_reads : ∀ v f, choice? logFormats v = some f ↔ Spells f.name v :=
  choice?_named (by rintro ⟨⟩ ⟨⟩ <;> simp [LogFormat.name]) (by rintro ⟨⟩ <;> simp)

/-- Whatever a setting takes is read by a function, and so in one way only. -/
theorem reads_unique {f : Setting} (hf : f ∈ settings) {v : Toml} {x y : f.Value} (hx : f.Reads v x)
    (hy : f.Reads v y) : x = y := by
  have hread : ∀ f ∈ settings, ∃ read? : Toml → Option f.Value, ∀ v x, read? v = some x ↔ f.Reads v x := by
    simp only [settings, List.forall_mem_cons]
    exact ⟨⟨_, text?_eq_some_iff⟩, ⟨_, text?_eq_some_iff⟩, ⟨_, word64?_eq_some_iff⟩, ⟨_, token_reads⟩,
      ⟨_, word64?_eq_some_iff⟩, ⟨_, word32?_eq_some_iff⟩, ⟨_, boolean?_eq_some_iff⟩, ⟨_, sortField_reads⟩,
      ⟨_, sortDirection_reads⟩, ⟨_, text?_eq_some_iff⟩, ⟨_, logFormat_reads⟩, nofun⟩
  obtain ⟨read?, hread?⟩ := hread f hf
  exact Option.some.inj (((hread? v x).mpr hx).symm.trans ((hread? v y).mpr hy))

theorem api_eq_some_iff {a : Api} :
    orElse? Api.ofToml? {} o = some a ↔
      (∀ v, o = some v → v.IsSection (keysUnder "api")) ∧
      Given (fun v s => v = .text s) "http://127.0.0.1:8080" (o.bind (valueAt (keysUnder "api") "base_url")) a.baseUrl ∧
      Given (fun v s => v = .text s) "/api/1" (o.bind (valueAt (keysUnder "api") "api_prefix")) a.pathPrefix ∧
      Given (fun v n => v = .integer (some n.toNat)) 10 (o.bind (valueAt (keysUnder "api") "request_timeout_secs"))
        a.timeoutSecs ∧
      Given (fun v t => ∃ s, v = .text s ∧ t = some s) none (o.bind (valueAt (keysUnder "api") "token")) a.token := by
  have hkeys : keysUnder "api" = ["base_url", "api_prefix", "request_timeout_secs", "token"] := by decide
  have hnodup : (keysUnder "api").Nodup := by decide
  refine (orElse?_fields_eq_some_iff hnodup Api.ofToml? {} (fun v => rfl) rfl).trans (and_congr_right fun _ => ?_)
  rw [hkeys]
  dsimp only [List.map]
  simp only [orElse?_bind_eq_some_iff text?_eq_some_iff, orElse?_bind_eq_some_iff word64?_eq_some_iff,
    orElse?_bind_eq_some_iff token_reads]
  constructor
  · rintro ⟨_, hurl, _, hprefix, _, htimeout, _, htoken, h⟩
    cases h
    exact ⟨hurl, hprefix, htimeout, htoken⟩
  · rintro ⟨hurl, hprefix, htimeout, htoken⟩
    exact ⟨_, hurl, _, hprefix, _, htimeout, _, htoken, rfl⟩

theorem watcher_eq_some_iff {w : Watcher} :
    orElse? Watcher.ofToml? {} o = some w ↔
      (∀ v, o = some v → v.IsSection (keysUnder "watcher")) ∧
      Given (fun v n => v = .integer (some n.toNat)) 1000 (o.bind (valueAt (keysUnder "watcher") "poll_interval_ms"))
        w.intervalMs ∧
      Given (fun v n => v = .integer (some n.toNat)) 600 (o.bind (valueAt (keysUnder "watcher") "max_polls"))
        w.maxPolls := by
  have hkeys : keysUnder "watcher" = ["poll_interval_ms", "max_polls"] := by decide
  have hnodup : (keysUnder "watcher").Nodup := by decide
  refine (orElse?_fields_eq_some_iff hnodup Watcher.ofToml? {} (fun v => rfl) rfl).trans (and_congr_right fun _ => ?_)
  rw [hkeys]
  dsimp only [List.map]
  simp only [orElse?_bind_eq_some_iff word64?_eq_some_iff, orElse?_bind_eq_some_iff word32?_eq_some_iff]
  constructor
  · rintro ⟨_, hinterval, _, hpolls, h⟩
    cases h
    exact ⟨hinterval, hpolls⟩
  · rintro ⟨hinterval, hpolls⟩
    exact ⟨_, hinterval, _, hpolls, rfl⟩

theorem presentation_eq_some_iff {p : Presentation} :
    orElse? Presentation.ofToml? {} o = some p ↔
      (∀ v, o = some v → v.IsSection (keysUnder "presentation")) ∧
      Given (fun v b => v = .boolean b) false (o.bind (valueAt (keysUnder "presentation") "login_on_any_failure"))
        p.loginOnAnyFailure ∧
      Given (fun v f => Spells f.name v) .updatedAt (o.bind (valueAt (keysUnder "presentation") "sort_field"))
        p.sortField ∧
      Given (fun v d => Spells d.name v) .desc (o.bind (valueAt (keysUnder "presentation") "sort_direction"))
        p.sortDirection := by
  have hkeys : keysUnder "presentation" = ["login_on_any_failure", "sort_field", "sort_direction"] := by decide
  have hnodup : (keysUnder "presentation").Nodup := by decide
  refine (orElse?_fields_eq_some_iff hnodup Presentation.ofToml? {} (fun v => rfl) rfl).trans
    (and_congr_right fun _ => ?_)
  rw [hkeys]
  dsimp only [List.map]
  simp only [orElse?_bind_eq_some_iff boolean?_eq_some_iff, orElse?_bind_eq_some_iff sortField_reads,
    orElse?_bind_eq_some_iff sortDirection_reads]
  constructor
  · rintro ⟨_, hlogin, _, hfield, _, hdirection, h⟩
    cases h
    exact ⟨hlogin, hfield, hdirection⟩
  · rintro ⟨hlogin, hfield, hdirection⟩
    exact ⟨_, hlogin, _, hfield, _, hdirection, rfl⟩

theorem logging_eq_some_iff {l : Logging} :
    orElse? Logging.ofToml? {} o = some l ↔
      (∀ v, o = some v → v.IsSection (keysUnder "logging")) ∧
      Given (fun v s => v = .text s) "info" (o.bind (valueAt (keysUnder "logging") "level")) l.level ∧
      Given (fun v f => Spells f.name v) .text (o.bind (valueAt (keysUnder "logging") "format")) l.format := by
  have hkeys : keysUnder "logging" = ["level", "format"] := by decide
  have hnodup : (keysUnder "logging").Nodup := by decide
  refine (orElse?_fields_eq_some_iff hnodup Logging.ofToml? {} (fun v => rfl) rfl).trans (and_congr_right fun _ => ?_)
  rw [hkeys]
  dsimp only [List.map]
  simp only [orElse?_bind_eq_some_iff text?_eq_some_iff, orElse?_bind_eq_some_iff logFormat_reads]
  constructor
  · rintro ⟨_, hlevel, _, hformat, h⟩
    cases h
    exact ⟨hlevel, hformat⟩
  · rintro ⟨hlevel, hformat⟩
    exact ⟨_, hlevel, _, hformat, rfl⟩

/-- A document stands for the configuration whose fields are each what it gives for them. -/
theorem ofToml?_eq_some_iff {c : Config} :
    ofToml? root = some c ↔ Legible root ∧ ∀ f ∈ settings, f.Holds root c := by
  constructor
  · intro h
    obtain ⟨fields, hfields, h⟩ := Option.bind_eq_some_iff.mp h
    obtain ⟨hothers, rfl⟩ := namedFields?_eq_some_iff.mp hfields
    dsimp only [List.map] at h
    simp only [Option.bind_eq_bind, Option.bind_eq_some_iff] at h
    obtain ⟨a, ha, w, hw, p, hp, l, hl, h⟩ := h
    cases h
    obtain ⟨hapi, hurl, hprefix, htimeout, htoken⟩ := api_eq_some_iff.mp ha
    obtain ⟨hwatcher, hinterval, hpolls⟩ := watcher_eq_some_iff.mp hw
    obtain ⟨hpresentation, hlogin, hfield, hdirection⟩ := presentation_eq_some_iff.mp hp
    obtain ⟨hlogging, hlevel, hformat⟩ := logging_eq_some_iff.mp hl
    refine ⟨⟨hothers, ?_⟩, ?_⟩
    · simp only [headings, List.forall_mem_cons]
      exact ⟨hapi, hwatcher, hpresentation, hlogging, nofun⟩
    · simp only [settings, List.forall_mem_cons]
      exact ⟨hurl, hprefix, htimeout, htoken, hinterval, hpolls, hlogin, hfield, hdirection, hlevel, hformat, nofun⟩
  · rintro ⟨⟨hothers, hsections⟩, hholds⟩
    simp only [headings, List.forall_mem_cons] at hsections
    simp only [settings, List.forall_mem_cons] at hholds
    obtain ⟨hapi, hwatcher, hpresentation, hlogging, -⟩ := hsections
    obtain ⟨hurl, hprefix, htimeout, htoken, hinterval, hpolls, hlogin, hfield, hdirection, hlevel, hformat, -⟩ := hholds
    have ha := api_eq_some_iff.mpr ⟨hapi, hurl, hprefix, htimeout, htoken⟩
    have hw := watcher_eq_some_iff.mpr ⟨hwatcher, hinterval, hpolls⟩
    have hp := presentation_eq_some_iff.mpr ⟨hpresentation, hlogin, hfield, hdirection⟩
    have hl := logging_eq_some_iff.mpr ⟨hlogging, hlevel, hformat⟩
    refine Option.bind_eq_some_iff.mpr ⟨_, namedFields?_eq_some_iff.mpr ⟨hothers, rfl⟩, ?_⟩
    dsimp only [List.map]
    simp only [Option.bind_eq_bind, Option.bind_eq_some_iff]
    exact ⟨_, ha, _, hw, _, hp, _, hl, rfl⟩

/-- The fields of a configuration have nothing to do with each other: whatever each of them may be alone, they may be
together. -/
theorem exists_forall_settings {P : (f : Setting) → f.Value → Prop} :
    (∃ c, ∀ f ∈ settings, P f (f.value c)) ↔ ∀ f ∈ settings, ∃ x, P f x := by
  constructor
  · rintro ⟨c, hc⟩ f hf
    exact ⟨f.value c, hc f hf⟩
  · intro h
    simp only [settings, List.forall_mem_cons] at h
    obtain ⟨⟨baseUrl, hurl⟩, ⟨pathPrefix, hprefix⟩, ⟨timeoutSecs, htimeout⟩, ⟨token, htoken⟩, ⟨intervalMs, hinterval⟩,
      ⟨maxPolls, hpolls⟩, ⟨loginOnAnyFailure, hlogin⟩, ⟨sortField, hfield⟩, ⟨sortDirection, hdirection⟩, ⟨level, hlevel⟩,
      ⟨format, hformat⟩, -⟩ := h
    refine ⟨⟨⟨baseUrl, pathPrefix, timeoutSecs, token⟩, ⟨intervalMs, maxPolls⟩,
      ⟨loginOnAnyFailure, sortField, sortDirection⟩, ⟨level, format⟩⟩, ?_⟩
    simp only [settings, List.forall_mem_cons]
    exact ⟨hurl, hprefix, htimeout, htoken, hinterval, hpolls, hlogin, hfield, hdirection, hlevel, hformat, nofun⟩

theorem exists_given_iff {α : Type} {Reads : Toml → α → Prop} {absent : α} :
    (∃ a, Given Reads absent o a) ↔ ∀ v, o = some v → ∃ a, Reads v a := by
  cases o with
  | none => simp [Given]
  | some v => simp [Given]

/-- A document is accepted unless something outside of its settings is amiss or a setting has a value of another type. -/
theorem exists_ofToml?_iff :
    (∃ c, ofToml? root = some c) ↔
      Legible root ∧ ∀ f ∈ settings, ∀ v, f.given? root = some v → ∃ x, f.Reads v x := by
  simp only [ofToml?_eq_some_iff, exists_and_left]
  refine and_congr_right fun _ => exists_forall_settings.trans ?_
  exact forall₂_congr fun f _ => exists_given_iff

/-- There is nothing in a configuration but its settings. -/
theorem ext_settings {c c' : Config} (h : ∀ f ∈ settings, f.value c = f.value c') : c = c' := by
  simp only [settings, List.forall_mem_cons] at h
  obtain ⟨hurl, hprefix, htimeout, htoken, hinterval, hpolls, hlogin, hfield, hdirection, hlevel, hformat, -⟩ := h
  obtain ⟨⟨_, _, _, _⟩, ⟨_, _⟩, ⟨_, _, _⟩, ⟨_, _⟩⟩ := c
  obtain ⟨⟨_, _, _, _⟩, ⟨_, _⟩, ⟨_, _, _⟩, ⟨_, _⟩⟩ := c'
  simp_all

end Config

end FilterConsole
