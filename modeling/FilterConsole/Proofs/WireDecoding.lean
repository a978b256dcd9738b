import FilterConsole.Proofs.HttpContract
import FilterConsole.Proofs.JsonShapes

/-! Which bodies of the service are read, and what they say. A body is read just when it has the documented shape, with
its members in any order and others between them. -/

namespace FilterConsole.Wire

open Json

variable {α : Type}

def IsTimestamp (v : Json) (t : Timestamp) : Prop :=
  Record ["secs_since_epoch", "nanos_since_epoch"] 2 v [some (.integer t.secs.toInt), some (.integer t.nanos.toNat)]

def IsHitCounter (v : Json) (c : HitCounter) : Prop :=
  ∃ time, v = .array [.integer c.count.toNat, time] ∧ IsTimestamp time c.lastUpdated

def IsHits (v : Json) (hits : Table HitCounter) : Prop :=
  ∃ data, Record ["data"] 0 v [data] ∧ IfThere (TableOf IsHitCounter) ∅ data hits

def IsStatistics (v : Json) (hits : Table HitCounter) : Prop :=
  ∃ data, Record ["data"] 0 v [data] ∧ IfThere IsHits ∅ data hits

def IsFilter (v : Json) (x : Snapshot) : Prop :=
  ∃ createdAt size statistics, Record ["created_at", "size", "statistics"] 1 v [some createdAt, size, statistics] ∧
    IsTimestamp createdAt x.createdAt ∧ IfThere IsWord 0 size x.size ∧ IfThere IsStatistics ∅ statistics x.hits

def IsMessage (v : Json) (name : String) : Prop :=
  ∃ text, Record ["name"] 1 v [some text] ∧ IsText text name

/-- The time is whole seconds, and the last second there is for a number beyond it. -/
def IsCacheEntry (v : Json) (e : CacheEntry) : Prop :=
  ∃ (n : UInt64) (message : Json),
    Record ["valid_until", "message"] 2 v [some (.integer n.toNat), some message] ∧ IsMessage message e.name ∧
      e.validUntil.secs.toInt = min (n.toNat : Int) 0x7FFFFFFFFFFFFFFF ∧ e.validUntil.nanos = 0

def HasList (name : String) (P : Json → α → Prop) (v : Json) (l : List α) : Prop :=
  ∃ items, Record [name] 0 v [items] ∧ IfThere (ListOf P) [] items l

def HoldsList (name : String) (P : Json → α → Prop) (v : Json) (l : List α) : Prop :=
  ∃ data, Record ["data"] 1 v [some data] ∧ HasList name P data l

def IsCache (v : Json) (l : List CacheEntry) : Prop := HoldsList "data" IsCacheEntry v l

def IsLogEntry (v : Json) (o : Option RoundTrip) : Prop :=
  ∃ (resolver sent received : Option Json) (name : Option String) (s r : Option Timestamp),
    Record ["resolver", "request_sent", "request_received"] 1 v [resolver, sent, received] ∧
      IfThere (NullOr IsText) none resolver name ∧ IfThere (NullOr IsTimestamp) none sent s ∧
      IfThere (NullOr IsTimestamp) none received r ∧
      ∀ x, o = some x ↔ x.resolver = name ∧ s = some x.sent ∧ r = some x.received

def IsQueryLog (v : Json) (l : List RoundTrip) : Prop :=
  ∃ entries, HoldsList "container" IsLogEntry v entries ∧ l = entries.filterMap id

def IsAllowList (v : Json) (names : NameSet) : Prop :=
  ∃ l, ListOf IsText v l ∧ ∀ name, name ∈ names.keys ↔ name ∈ l

theorem timestamp?_eq_some_iff (v : Json) (t : Timestamp) : timestamp? v = some t ↔ IsTimestamp v t := by
  rw [timestamp?, Option.bind_eq_bind, fields?_bind_eq_some_iff]
  constructor
  · rintro ⟨fields, hfields, h⟩
    split at h
    · simp only [Option.bind_eq_bind, Option.bind_eq_some_iff, int64?_eq_some_iff, word32?_eq_some_iff] at h
      obtain ⟨s, rfl, n, rfl, h⟩ := h
      cases h
      exact hfields
    · cases h
  · intro h
    have hsecs : (Json.integer t.secs.toInt).int64? = some t.secs := int64?_eq_some_iff.mpr rfl
    have hnanos : (Json.integer t.nanos.toNat).word32? = some t.nanos := word32?_eq_some_iff.mpr rfl
    exact ⟨_, h, by simp [hsecs, hnanos]⟩

theorem hitCounter?_eq_some_iff (v : Json) (c : HitCounter) : hitCounter? v = some c ↔ IsHitCounter v c := by
  constructor
  · intro h
    unfold hitCounter? at h
    split at h
    · simp only [Option.bind_eq_bind, Option.bind_eq_some_iff, word64?_eq_some_iff, timestamp?_eq_some_iff] at h
      obtain ⟨n, rfl, t, ht, h⟩ := h
      cases h
      exact ⟨_, rfl, ht⟩
    · cases h
  · rintro ⟨time, rfl, htime⟩
    have hcount : (Json.integer c.count.toNat).word64? = some c.count := word64?_eq_some_iff.mpr rfl
    simp [hitCounter?, hcount, (timestamp?_eq_some_iff time _).mpr htime]

/-- A record of one field is read as its field is. -/
theorem field?_eq_some_iff {name : String} {required : Nat} {v : Json} {read : Option Json → Option α}
    {P : Option Json → α → Prop} {a : α} (hP : ∀ f, read f = some a ↔ P f a) :
    ((v.fields? [name] required).bind fun
      | [f] => read f
      | _ => none) = some a ↔ ∃ f, Record [name] required v [f] ∧ P f a := by
  rw [fields?_bind_eq_some_iff]
  constructor
  · rintro ⟨fields, hfields, h⟩
    split at h
    · exact ⟨_, hfields, (hP _).mp h⟩
    · cases h
  · rintro ⟨f, hfields, h⟩
    exact ⟨[f], hfields, (hP f).mpr h⟩

theorem onlyField?_eq_some_iff {name : String} {required : Nat} {v : Json} {read : Json → Option α}
    {P : Json → α → Prop} {a : α} (hP : ∀ w, read w = some a ↔ P w a) :
    ((v.fields? [name] required).bind fun
      | [some w] => read w
      | _ => none) = some a ↔ ∃ w, Record [name] required v [some w] ∧ P w a := by
  rw [fields?_bind_eq_some_iff]
  constructor
  · rintro ⟨fields, hfields, h⟩
    split at h
    · exact ⟨_, hfields, (hP _).mp h⟩
    · cases h
  · rintro ⟨w, hfields, h⟩
    exact ⟨[some w], hfields, (hP w).mpr h⟩

theorem statistics?_eq_some_iff (v : Json) (hits : Table HitCounter) :
    statistics? v = some hits ↔ IsStatistics v hits := by
  have htable : ∀ f, orElse? (table? hitCounter?) ∅ f = some hits ↔ IfThere (TableOf IsHitCounter) ∅ f hits :=
    fun f => orElse?_eq_some_iff fun v t => table?_eq_some_iff hitCounter?_eq_some_iff
  refine field?_eq_some_iff fun f => ?_
  cases f with
  | none => simp [IfThere, eq_comm]
  | some data =>
    have hsome : IfThere IsHits ∅ (some data) hits ↔ IsHits data hits := by simp [IfThere]
    rw [hsome]
    exact field?_eq_some_iff htable

theorem filter?_eq_some_iff (v : Json) (x : Snapshot) : filter? v = some x ↔ IsFilter v x := by
  have hsize : ∀ f n, orElse? word64? 0 f = some n ↔ IfThere IsWord 0 f n :=
    fun f n => orElse?_eq_some_iff fun v n => word64?_eq_some_iff
  have hhits : ∀ f t, orElse? statistics? ∅ f = some t ↔ IfThere IsStatistics ∅ f t :=
    fun f t => orElse?_eq_some_iff statistics?_eq_some_iff
  rw [filter?, Option.bind_eq_bind, fields?_bind_eq_some_iff]
  constructor
  · rintro ⟨fields, hfields, h⟩
    split at h
    · simp only [Option.bind_eq_bind, Option.bind_eq_some_iff, timestamp?_eq_some_iff, hsize, hhits] at h
      obtain ⟨t, ht, n, hn, hits, hhits, h⟩ := h
      cases h
      exact ⟨_, _, _, hfields, ht, hn, hhits⟩
    · cases h
  · rintro ⟨createdAt, size, statistics, hfields, ht, hn, hstatistics⟩
    refine ⟨_, hfields, ?_⟩
    simp only [(timestamp?_eq_some_iff _ _).mpr ht, (hsize _ _).mpr hn, (hhits _ _).mpr hstatistics, Option.bind_eq_bind,
      Option.bind_some]
    rfl

theorem ofSecs_eq_iff {n : UInt64} {t : Timestamp} :
    Timestamp.ofSecs n = t ↔ t.secs.toInt = min (n.toNat : Int) 0x7FFFFFFFFFFFFFFF ∧ t.nanos = 0 := by
  have hsecs : (Timestamp.ofSecs n).secs.toInt = min (n.toNat : Int) 0x7FFFFFFFFFFFFFFF := by
    unfold Timestamp.ofSecs
    dsimp only
    split
    · next hlt =>
      rw [Int64.toInt_ofNat_of_lt hlt]
      omega
    · next hge =>
      have hmax : Int64.maxValue.toInt = 0x7FFFFFFFFFFFFFFF := rfl
      rw [hmax]
      omega
  constructor
  · rintro rfl
    exact ⟨hsecs, rfl⟩
  · rintro ⟨ht, hnanos⟩
    obtain ⟨secs, nanos⟩ := t
    exact congrArg₂ Timestamp.mk (Int64.toInt_inj.mp (hsecs.trans ht.symm)) hnanos.symm

theorem cacheEntry?_eq_some_iff (v : Json) (e : CacheEntry) : cacheEntry? v = some e ↔ IsCacheEntry v e := by
  rw [ cacheEntry?, Option.bind_eq_bind, fields?_bind_eq_some_iff]
  constructor
  · rintro ⟨fields, hfields, h⟩
    split at h
    · next validUntil message =>
      rw [Option.bind_eq_bind, fields?_bind_eq_some_iff] at h
      obtain ⟨inner, hinner, h⟩ := h
      split at h
      · simp only [Option.bind_eq_bind, Option.bind_eq_some_iff, text?_eq_some_iff, word64?_eq_some_iff] at h
        obtain ⟨name, hname, n, rfl, h⟩ := h
        cases h
        exact ⟨n, message, hfields, ⟨_, hinner, hname⟩, ofSecs_eq_iff.mp rfl⟩
      · cases h
    · cases h
  · rintro ⟨n, message, hfields, ⟨text, hmessage, hname⟩, htime⟩
    obtain ⟨name, validUntil⟩ := e
    obtain rfl := ofSecs_eq_iff.mpr htime
    have hword : (Json.integer n.toNat).word64? = some n := word64?_eq_some_iff.mpr rfl
    refine ⟨_, hfields, ?_⟩
    simp only [fields?_eq_some_iff.mpr hmessage, text?_eq_some_iff.mpr hname, hword, Option.bind_eq_bind,
      Option.bind_some]
    rfl

theorem listIn?_eq_some_iff {name : String} {item? : Json → Option α} {P : Json → α → Prop}
    (hP : ∀ v a, item? v = some a ↔ P v a) (v : Json) (l : List α) :
    listIn? name item? v = some l ↔ HoldsList name P v l := by
  have hlist : ∀ f, orElse? (list? item?) [] f = some l ↔ IfThere (ListOf P) [] f l :=
    fun f => orElse?_eq_some_iff fun v l => list?_eq_some_iff hP
  exact onlyField?_eq_some_iff fun data => field?_eq_some_iff hlist

theorem roundTrip?_eq_some_iff (v : Json) (o : Option RoundTrip) : roundTrip? v = some o ↔ IsLogEntry v o := by
  have hname : ∀ f name, orElse? (nullable? text?) none f = some name ↔ IfThere (NullOr IsText) none f name :=
    fun f name => orElse?_eq_some_iff fun v o => nullable?_eq_some_iff fun v s => text?_eq_some_iff
  have htime : ∀ f t, orElse? (nullable? timestamp?) none f = some t ↔ IfThere (NullOr IsTimestamp) none f t :=
    fun f t => orElse?_eq_some_iff fun v o => nullable?_eq_some_iff timestamp?_eq_some_iff
  have hboth : ∀ (name : Option String) (s r : Option Timestamp), (do return ⟨name, ← s, ← r⟩ : Option RoundTrip) = o ↔
      ∀ x, o = some x ↔ x.resolver = name ∧ s = some x.sent ∧ r = some x.received := by
    intro name s r
    have hrecord : ∀ x : RoundTrip, (do return ⟨name, ← s, ← r⟩ : Option RoundTrip) = some x ↔
        x.resolver = name ∧ s = some x.sent ∧ r = some x.received := by
      rintro ⟨resolver, sent, received⟩
      cases s <;> cases r <;> simp [eq_comm]
    simp only [← hrecord]
    exact ⟨fun h x => h ▸ Iff.rfl, fun h => (Option.ext h).symm⟩
  rw [roundTrip?, Option.bind_eq_bind, fields?_bind_eq_some_iff]
  constructor
  · rintro ⟨fields, hfields, h⟩
    split at h
    · simp only [Option.bind_eq_bind, Option.bind_eq_some_iff, hname, htime] at h
      obtain ⟨name, hn, s, hs, r, hr, h⟩ := h
      exact ⟨_, _, _, name, s, r, hfields, hn, hs, hr, (hboth name s r).mp (Option.some.inj h)⟩
    · cases h
  · rintro ⟨resolver, sent, received, name, s, r, hfields, hn, hs, hr, h⟩
    refine ⟨_, hfields, ?_⟩
    simp only [(hname _ _).mpr hn, (htime _ _).mpr hs, (htime _ _).mpr hr, Option.bind_eq_bind, Option.bind_some]
    exact congrArg some ((hboth name s r).mpr h)

theorem queryLog?_eq_some_iff {v : Json} {l : List RoundTrip} : queryLog? v = some l ↔ IsQueryLog v l := by
  rw [queryLog?, records?, Option.map_eq_some_iff, IsQueryLog]
  simp only [listIn?_eq_some_iff roundTrip?_eq_some_iff, eq_comm]

theorem mem_keys_ofNames {l : List String} {name : String} : name ∈ (NameSet.ofNames l).keys ↔ name ∈ l := by
  rw [NameSet.ofNames, Table.ofList, Table.mem_keys_foldl (P := fun e => name = e.1)]
  · simp [Table.keys, EmptyCollection.emptyCollection, Table.empty]
  · exact fun t e => Table.mem_keys_insert.trans or_comm

theorem ofNames_eq_iff {l : List String} {names : NameSet} :
    NameSet.ofNames l = names ↔ ∀ name, name ∈ names.keys ↔ name ∈ l := by
  constructor
  · rintro rfl name
    exact mem_keys_ofNames
  · intro h
    refine Table.ext_get? fun name => ?_
    have hkeys := mem_keys_ofNames.trans (h name).symm
    rw [Table.mem_keys_iff, Table.mem_keys_iff] at hkeys
    cases hs : (NameSet.ofNames l).get? name <;> cases ht : names.get? name <;> simp_all

theorem allowList?_eq_some_iff {v : Json} {names : NameSet} : allowList? v = some names ↔ IsAllowList v names := by
  rw [allowList?, Option.map_eq_some_iff, IsAllowList]
  simp only [list?_eq_some_iff fun v s => text?_eq_some_iff, ofNames_eq_iff]

/-- Only what may be left out as well may be null. -/
theorem not_isTimestamp_null (t : Timestamp) : ¬ IsTimestamp .null t := not_record_null

theorem not_isHits_null (hits : Table HitCounter) : ¬ IsHits .null hits := fun ⟨_, h, _⟩ => not_record_null h

theorem not_isStatistics_null (hits : Table HitCounter) : ¬ IsStatistics .null hits := fun ⟨_, h, _⟩ => not_record_null h

theorem not_isMessage_null (name : String) : ¬ IsMessage .null name := fun ⟨_, h, _⟩ => not_record_null h

theorem not_hasList_null {name : String} {P : Json → α → Prop} (l : List α) : ¬ HasList name P .null l :=
  fun ⟨_, h, _⟩ => not_record_null h

section Members

variable {members : List (Bytes × Json)}

theorem once_of_isTimestamp {t : Timestamp} (h : IsTimestamp (.object members) t) :
    Once "secs_since_epoch" members ∧ Once "nanos_since_epoch" members := by
  have hvalues := Record.valuesOf_eq h
  simp only [List.forall₂_cons, List.Forall₂.nil, and_true] at hvalues
  exact ⟨⟨_, hvalues.1, nofun⟩, _, hvalues.2, nofun⟩

theorem once_of_isFilter {x : Snapshot} (h : IsFilter (.object members) x) :
    Once "created_at" members ∧ OnceOrLeftOut "size" members ∧ OnceOrLeftOut "statistics" members := by
  obtain ⟨createdAt, size, statistics, hfields, ht, hsize, hstatistics⟩ := h
  have hvalues := hfields.valuesOf_eq
  simp only [List.forall₂_cons, List.Forall₂.nil, and_true] at hvalues
  obtain ⟨hcreated, hsizes, hstats⟩ := hvalues
  refine ⟨⟨createdAt, hcreated, ?_⟩, hsize.onceOrLeftOut nofun hsizes,
    hstatistics.onceOrLeftOut not_isStatistics_null hstats⟩
  rintro rfl
  exact not_isTimestamp_null _ ht

theorem once_of_isCacheEntry {e : CacheEntry} (h : IsCacheEntry (.object members) e) :
    Once "valid_until" members ∧ Once "message" members := by
  obtain ⟨n, message, hfields, hmessage, _⟩ := h
  have hvalues := hfields.valuesOf_eq
  simp only [List.forall₂_cons, List.Forall₂.nil, and_true] at hvalues
  refine ⟨⟨_, hvalues.1, nofun⟩, message, hvalues.2, ?_⟩
  rintro rfl
  exact not_isMessage_null _ hmessage

theorem length_le_of_isLogEntry {o : Option RoundTrip} (h : IsLogEntry (.object members) o) :
    ∀ name ∈ ["resolver", "request_sent", "request_received"], (valuesOf name members).length ≤ 1 := by
  obtain ⟨resolver, sent, received, _, _, _, hfields, _⟩ := h
  have hvalues := hfields.valuesOf_eq
  simp only [List.forall₂_cons, List.Forall₂.nil, and_true] at hvalues
  obtain ⟨hresolver, hsent, hreceived⟩ := hvalues
  simp only [List.forall_mem_cons]
  exact ⟨length_valuesOf_le hresolver, length_valuesOf_le hsent, length_valuesOf_le hreceived, nofun⟩

end Members

end FilterConsole.Wire

namespace FilterConsole.Http

open Json Wire

theorem eq_of_orUndecodable_error {α : Type} {endpoint : Endpoint} {x : Option α} {failure : TransportFailure}
    (h : decode.orUndecodable endpoint x = .error failure) : failure = .undecodable endpoint := by
  cases x with
  | none => exact (Except.error.inj h).symm
  | some a => cases h

/-- A body is read just when it holds a value of the documented shape, and then as what the value stands for; all other
bodies are refused whole. Members may stand in any order, with members of other names between them. A known member is
not repeated, and it is there and not null, unless it has a default, or stands for nothing when it is null. -/
theorem decode_iff_shape (body : Bytes) :
    (∀ x, decode body .filter = .ok x ↔ ∃ v, parse? body = some v ∧ IsFilter v x) ∧
    (∀ l, decode body .cache = .ok l ↔ ∃ v, parse? body = some v ∧ IsCache v l) ∧
    (∀ l, decode body .queryLog = .ok l ↔ ∃ v, parse? body = some v ∧ IsQueryLog v l) ∧
    (∀ names, decode body .allowList = .ok names ↔ ∃ v, parse? body = some v ∧ IsAllowList v names) ∧
    (∀ f ∈ [Fetch.filter, .cache, .queryLog, .allowList], ∀ e, decode body f = .error e → e = .undecodable f.endpoint) ∧
    (∀ names required members members' others, members'.Perm (members ++ others) →
      (∀ m ∈ others, ∃ name ∉ names, readText? m.1 = some name) →
      (Json.object members').fields? names required = (Json.object members).fields? names required) ∧
    ∀ members : List (Bytes × Json),
      (∀ t, IsTimestamp (.object members) t → Once "secs_since_epoch" members ∧ Once "nanos_since_epoch" members) ∧
      (∀ x, IsFilter (.object members) x →
        Once "created_at" members ∧ OnceOrLeftOut "size" members ∧ OnceOrLeftOut "statistics" members) ∧
      (∀ hits, IsStatistics (.object members) hits → OnceOrLeftOut "data" members) ∧
      (∀ hits, IsHits (.object members) hits → OnceOrLeftOut "data" members) ∧
      (∀ e, IsCacheEntry (.object members) e → Once "valid_until" members ∧ Once "message" members) ∧
      (∀ name, IsMessage (.object members) name → Once "name" members) ∧
      (∀ α name (P : Json → α → Prop) l, HoldsList name P (.object members) l → Once "data" members) ∧
      (∀ α name (P : Json → α → Prop) l, HasList name P (.object members) l → OnceOrLeftOut name members) ∧
      ∀ o, IsLogEntry (.object members) o →
        ∀ name ∈ ["resolver", "request_sent", "request_received"], (valuesOf name members).length ≤ 1 := by
  have hdecodes : ∀ {α : Type} {read : Json → Option α} {P : Json → α → Prop} (_ : ∀ v a, read v = some a ↔ P v a) (a : α),
      (parse? body >>= read) = some a ↔ ∃ v, parse? body = some v ∧ P v a := by
    intro α read P hP a
    rw [Option.bind_eq_bind, Option.bind_eq_some_iff]
    simp only [hP]
  refine ⟨fun x => decode_ok_iff.trans (hdecodes filter?_eq_some_iff x),
    fun l => decode_ok_iff.trans (hdecodes (listIn?_eq_some_iff cacheEntry?_eq_some_iff) l),
    fun l => decode_ok_iff.trans (hdecodes (fun v l => queryLog?_eq_some_iff) l),
    fun names => decode_ok_iff.trans (hdecodes (fun v names => allowList?_eq_some_iff) names), ?_, ?_, fun members => ?_⟩
  · simp only [List.forall_mem_cons]
    exact ⟨fun e => eq_of_orUndecodable_error, fun e => eq_of_orUndecodable_error, fun e => eq_of_orUndecodable_error,
      fun e => eq_of_orUndecodable_error, nofun⟩
  · intro names required members members' others hperm hothers
    refine Option.ext fun fields => ?_
    rw [fields?_eq_some_iff, fields?_eq_some_iff]
    exact record_rearranged hperm hothers fields
  · exact ⟨fun t => once_of_isTimestamp, fun x => once_of_isFilter,
      fun hits => onceOrLeftOut_of_field not_isHits_null, fun hits => onceOrLeftOut_of_field nofun,
      fun e => once_of_isCacheEntry, fun name => once_of_onlyField nofun,
      fun α name P l => once_of_onlyField not_hasList_null, fun α name P l => onceOrLeftOut_of_field nofun,
      fun o => length_le_of_isLogEntry⟩

/-- A record may be an array of its fields. -/
example : filter? (.object [(utf8 "etag", .null), (utf8 "created_at", .array [.integer 5, .integer 6])]) =
    some ⟨⟨5, 6⟩, 0, ∅⟩ := by
  decide +kernel

end FilterConsole.Http
