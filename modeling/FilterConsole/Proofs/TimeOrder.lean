import FilterConsole.Proofs.Faithful
import FilterConsole.Proofs.JsonReadBack
import FilterConsole.Proofs.WireDecoding

/-! The order of timestamps and the distance between them. The order goes by the seconds first, however many nanoseconds
there are; the distance adds the nanoseconds up. They agree unless one timestamp has nanoseconds enough to make up for
seconds. -/

namespace FilterConsole

namespace Timestamp

variable {a b : Timestamp}

def instant (t : Timestamp) : Int := t.secs.toInt * 1000000000 + t.nanos.toNat

theorem since_eq_sub (t earlier : Timestamp) : t.since earlier = t.instant - earlier.instant := by
  unfold since instant
  omega

theorem instant_lt (t : Timestamp) : t.instant < (t.secs.toInt + 5) * 1000000000 := by
  have hnanos := t.nanos.toNat_lt
  unfold instant
  omega

/-- The nanoseconds of `a` make up for the seconds that it has less than `b`. -/
structure Overruns (a b : Timestamp) : Prop where
  secs : a.secs.toInt < b.secs.toInt
  instant : b.instant ≤ a.instant

structure Agree (a b : Timestamp) : Prop where
  before : a.since b < 0 ↔ a.cmp b = .lt
  same : a.since b = 0 ↔ a = b
  after : 0 < a.since b ↔ a.cmp b = .gt

theorem cmp_eq_lt_iff :
    a.cmp b = .lt ↔ a.secs.toInt < b.secs.toInt ∨ a.secs.toInt = b.secs.toInt ∧ a.nanos.toNat < b.nanos.toNat := by
  rw [cmp, Ordering.then_eq_lt, compare_lt_iff_lt, compare_lt_iff_lt, compare_eq_iff_eq]

theorem cmp_eq_gt_iff : a.cmp b = .gt ↔ b.cmp a = .lt := by
  rw [cmp, Ordering.then_eq_gt, compare_gt_iff_gt, compare_gt_iff_gt, compare_eq_iff_eq, cmp_eq_lt_iff]
  omega

theorem eq_iff : a = b ↔ a.secs.toInt = b.secs.toInt ∧ a.nanos.toNat = b.nanos.toNat := by
  constructor
  · rintro rfl
    exact ⟨rfl, rfl⟩
  · intro ⟨hsecs, hnanos⟩
    refine key_inj ?_
    rw [key, key, hsecs, hnanos]

theorem agree_comm : Agree a b ↔ Agree b a := by
  have hswap : ∀ {a b : Timestamp}, Agree a b → Agree b a := by
    intro a b h
    have hneg : b.since a = -(a.since b) := by
      rw [since_eq_sub, since_eq_sub]
      omega
    refine ⟨?_, ?_, ?_⟩
    · rw [hneg, ← cmp_eq_gt_iff, ← h.after]
      omega
    · rw [hneg, Int.neg_eq_zero, h.same, eq_comm]
    · rw [hneg, cmp_eq_gt_iff, ← h.before]
      omega
  exact ⟨hswap, hswap⟩

theorem agree_of_secs_lt (h : a.secs.toInt < b.secs.toInt) : Agree a b ↔ a.instant < b.instant := by
  have hlt : a.cmp b = .lt := cmp_eq_lt_iff.mpr (.inl h)
  have hne : a ≠ b := fun heq => absurd (eq_iff.mp heq).1 (by omega)
  constructor
  · intro hagree
    have hneg := hagree.before.mpr hlt
    rw [since_eq_sub] at hneg
    omega
  · intro hinstant
    refine ⟨?_, ?_, ?_⟩ <;> rw [since_eq_sub]
    · exact iff_of_true (by omega) hlt
    · exact iff_of_false (by omega) hne
    · exact iff_of_false (by omega) (by rw [hlt]; nofun)

theorem agree_of_secs_eq (h : a.secs.toInt = b.secs.toInt) : Agree a b := by
  refine ⟨?_, ?_, ?_⟩
  · rw [cmp_eq_lt_iff, since]
    omega
  · rw [eq_iff, since]
    omega
  · rw [cmp_eq_gt_iff, cmp_eq_lt_iff, since]
    omega

theorem agree_iff (a b : Timestamp) : Agree a b ↔ ¬ a.Overruns b ∧ ¬ b.Overruns a := by
  have hlater : ∀ {a b : Timestamp}, a.secs.toInt < b.secs.toInt →
      (Agree a b ↔ ¬ a.Overruns b ∧ ¬ b.Overruns a) := by
    intro a b h
    have hback : ¬ b.Overruns a := fun hover => absurd hover.secs (by omega)
    rw [agree_of_secs_lt h, and_iff_left hback, ← not_le]
    exact not_congr ⟨fun hle => ⟨h, hle⟩, Overruns.instant⟩
  rcases lt_trichotomy a.secs.toInt b.secs.toInt with h | h | h
  · exact hlater h
  · have hforth : ¬ a.Overruns b := fun hover => absurd hover.secs (by omega)
    have hback : ¬ b.Overruns a := fun hover => absurd hover.secs (by omega)
    exact iff_of_true (agree_of_secs_eq h) ⟨hforth, hback⟩
  · rw [agree_comm, and_comm]
    exact hlater h

/-- Less than a second of nanoseconds makes up for nothing. -/
theorem Overruns.nanos (h : a.Overruns b) : 1000000000 ≤ a.nanos.toNat := by
  have hinstant := h.instant
  have hsecs := h.secs
  unfold Timestamp.instant at hinstant
  omega

theorem agree_of_nanos_lt (ha : a.nanos.toNat < 1000000000) (hb : b.nanos.toNat < 1000000000) : Agree a b :=
  (agree_iff a b).mpr ⟨fun h => absurd h.nanos (by omega), fun h => absurd h.nanos (by omega)⟩

theorem Overruns.secs_le (h : a.Overruns b) : b.secs.toInt ≤ a.secs.toInt + 4 := by
  have hinstant := h.instant
  have hlt := a.instant_lt
  unfold Timestamp.instant at hinstant
  unfold Timestamp.instant at hlt
  omega

/-- The timestamps that overrun another one, which is then the start of the next second. -/
theorem exists_overruns_iff : (∃ b, a.Overruns b) ↔ 1000000000 ≤ a.nanos.toNat ∧ a.secs ≠ Int64.maxValue := by
  have hmax : Int64.maxValue.toInt = 0x7FFFFFFFFFFFFFFF := rfl
  constructor
  · rintro ⟨b, h⟩
    refine ⟨h.nanos, fun hlast => ?_⟩
    have hsecs := h.secs
    have hb := b.secs.toInt_lt
    rw [hlast, hmax] at hsecs
    omega
  · rintro ⟨hnanos, hlast⟩
    have hlt := a.secs.toInt_lt
    have hge := a.secs.le_toInt
    have hne : a.secs.toInt ≠ 0x7FFFFFFFFFFFFFFF := fun h => hlast (Int64.toInt_inj.mp (h.trans hmax.symm))
    have hnext : (Int64.ofInt (a.secs.toInt + 1)).toInt = a.secs.toInt + 1 :=
      Int64.toInt_ofInt_of_le (by omega) (by omega)
    refine ⟨⟨.ofInt (a.secs.toInt + 1), 0⟩, ?_, ?_⟩
    · dsimp only
      omega
    · unfold Timestamp.instant
      simp only [hnext, UInt32.toNat_zero]
      omega

theorem instant_le_of_key_le (h : a.key ≤ b.key) : a.instant ≤ b.instant ∨ a.Overruns b := by
  rw [key, key, Prod.Lex.toLex_le_toLex] at h
  rcases h with hsecs | ⟨hsecs, hnanos⟩
  · exact (le_or_gt a.instant b.instant).imp_right fun hlt => ⟨hsecs, hlt.le⟩
  · refine .inl ?_
    unfold instant
    omega

end Timestamp

/-- Hits by the time of the last one. -/
theorem HitOrder.arrange_instants (rows : List HitRow) :
    ((arrange ⟨.updatedAt, .asc⟩ rows).Pairwise fun x y =>
      x.lastUpdated.instant ≤ y.lastUpdated.instant ∨ x.lastUpdated.Overruns y.lastUpdated) ∧
    (arrange ⟨.updatedAt, .desc⟩ rows).Pairwise fun x y =>
      y.lastUpdated.instant ≤ x.lastUpdated.instant ∨ y.lastUpdated.Overruns x.lastUpdated := by
  have hbefore : ∀ o : HitOrder, (o.arrange rows).Pairwise fun x y => o.before x y = true :=
    fun o => List.pairwise_mergeSort o.before_trans o.before_total rows
  refine ⟨(hbefore _).imp fun h => ?_, (hbefore _).imp fun h => ?_⟩
  · exact Timestamp.instant_le_of_key_le (Timestamp.isLE_cmp.mp h)
  · exact Timestamp.instant_le_of_key_le (Timestamp.isLE_cmp.mp h)

namespace Json

variable {fields : List (String × Json)}

theorem valuesOf_ofFields (name : String) (fields : List (String × Json)) :
    valuesOf name (fields.map fun f => (escape (utf8 f.1), f.2)) = (fields.filter (·.1 = name)).map (·.2) := by
  rw [valuesOf, List.filter_map, List.map_map]
  simp only [Function.comp_def, readText?_escape, Option.some.injEq]

theorem record_ofFields {names : List String} {required : Nat} {values : List (Option Json)}
    (h : List.Forall₂ (fun name f => (fields.filter (·.1 = name)).map (·.2) = f.toList) names values) :
    Record names required (ofFields fields) values := by
  refine .named ?_ (h.imp fun name f hname => (valuesOf_ofFields name fields).trans hname)
  simp only [List.forall_mem_map, readText?_escape, Option.isSome_some, implies_true]

end Json

namespace Wire

open Json

def ofTimestamp (t : Timestamp) : Json :=
  ofFields [("secs_since_epoch", .integer t.secs.toInt), ("nanos_since_epoch", .integer t.nanos.toNat)]

theorem isTimestamp_ofTimestamp (t : Timestamp) : IsTimestamp (ofTimestamp t) t := by
  refine record_ofFields ?_
  simp

theorem plain_ofTimestamp (t : Timestamp) : Plain (ofTimestamp t) := by
  refine plain_ofFields ?_
  simp only [List.forall_mem_cons]
  exact ⟨.scalar (legible_integer _), .scalar (legible_integer _), nofun⟩

theorem IsCacheEntry.nanos_eq_zero {v : Json} {e : CacheEntry} (h : IsCacheEntry v e) : e.validUntil.nanos = 0 := by
  obtain ⟨_, _, _, _, _, hnanos⟩ := h
  exact hnanos

def ofTimes (sent received : Timestamp) : Json :=
  ofFields [("request_sent", ofTimestamp sent), ("request_received", ofTimestamp received)]

theorem isLogEntry_ofTimes (sent received : Timestamp) :
    IsLogEntry (ofTimes sent received) (some ⟨none, sent, received⟩) := by
  have hthere : ∀ t, IfThere (NullOr IsTimestamp) none (some (ofTimestamp t)) (some t) :=
    fun t => .inr ⟨_, rfl, .inr ⟨nofun, t, rfl, isTimestamp_ofTimestamp t⟩⟩
  refine ⟨none, some (ofTimestamp sent), some (ofTimestamp received), none, some sent, some received,
    record_ofFields (by simp), .inl ⟨rfl, rfl⟩, hthere sent, hthere received, ?_⟩
  rintro ⟨resolver, s, r⟩
  simp [eq_comm]

theorem plain_ofTimes (sent received : Timestamp) : Plain (ofTimes sent received) := by
  refine plain_ofFields ?_
  simp only [List.forall_mem_cons]
  exact ⟨plain_ofTimestamp sent, plain_ofTimestamp received, nofun⟩

def ofEntry (entry : Json) : Json := ofFields [("data", ofFields [("container", .array [entry])])]

theorem isQueryLog_ofEntry {entry : Json} {o : Option RoundTrip} (h : IsLogEntry entry o) :
    IsQueryLog (ofEntry entry) ([o].filterMap id) := by
  have hitems : HasList "container" IsLogEntry (ofFields [("container", .array [entry])]) [o] :=
    ⟨some (.array [entry]), record_ofFields (by simp), .inr ⟨_, rfl, _, rfl, .cons h .nil⟩⟩
  exact ⟨[o], ⟨_, record_ofFields (by simp), hitems⟩, rfl⟩

theorem plain_ofEntry {entry : Json} (h : Plain entry) : Plain (ofEntry entry) := by
  have hlist : Plain (.array [entry]) := .array (List.forall_mem_singleton.mpr h)
  have hitems : Plain (ofFields [("container", .array [entry])]) := plain_ofFields (List.forall_mem_singleton.mpr hlist)
  exact plain_ofFields (List.forall_mem_singleton.mpr hitems)

end Wire

namespace Http

/-- Any two timestamps are the times of a record that the decoder reads. -/
theorem exists_decode_times (sent received : Timestamp) :
    ∃ body, decode body .queryLog = .ok [⟨none, sent, received⟩] := by
  have hparse := Json.parse?_write (Wire.plain_ofEntry (Wire.plain_ofTimes sent received))
  have hread := Wire.queryLog?_eq_some_iff.mpr (Wire.isQueryLog_ofEntry (Wire.isLogEntry_ofTimes sent received))
  refine ⟨(Wire.ofEntry (Wire.ofTimes sent received)).write, decode_ok_iff.mpr ?_⟩
  rw [Decodes, hparse]
  exact hread

/-- The cache is read with whole seconds. -/
theorem nanos_of_decode_cache {body : Bytes} {l : List CacheEntry} (h : decode body .cache = .ok l) :
    ∀ e ∈ l, e.validUntil.nanos = 0 := by
  obtain ⟨v, _, hv⟩ := Option.bind_eq_some_iff.mp (decode_ok_iff.mp h)
  obtain ⟨_, _, _, _, hitems⟩ := (Wire.listIn?_eq_some_iff Wire.cacheEntry?_eq_some_iff v l).mp hv
  rcases hitems with ⟨_, rfl⟩ | ⟨_, _, _, _, hall⟩
  · exact nofun
  · have hseconds := hall.flip.imp fun e w hentry => And.intro (hentry : Wire.IsCacheEntry w e).nanos_eq_zero hentry
    exact ((List.forall₂_and_left _ _).mp hseconds).1

theorem byExpiry_instants {body : Bytes} {l : List CacheEntry} (h : decode body .cache = .ok l) :
    (byExpiry l).Pairwise fun x y => x.validUntil.instant ≤ y.validUntil.instant := by
  refine (byExpiry_ordered l).1.imp_of_mem fun {x y} hx hy hkey => ?_
  have hnanos : x.validUntil.nanos = 0 := nanos_of_decode_cache h x ((List.mergeSort_perm _ _).mem_iff.mp hx)
  refine (Timestamp.instant_le_of_key_le hkey).resolve_right fun hover => ?_
  have hmany := hover.nanos
  rw [hnanos] at hmany
  exact absurd hmany (by decide)

end Http

/-- The decoder reads any two timestamps. The sign of their distance tells their order just if neither overruns the other,
and so it does where their nanoseconds are less than a second. Only a timestamp with more overruns others, and their seconds
are at most four ahead of its own. So the hits stand in the order of time except where one overruns another, and the cache
always does, as it is read in whole seconds. -/
theorem agree_unless_overrun (a b : Timestamp) :
    (∃ body, Http.decode body .queryLog = .ok [⟨none, b, a⟩]) ∧
    (a.Agree b ↔ ¬ a.Overruns b ∧ ¬ b.Overruns a) ∧
    (a.nanos.toNat < 1000000000 → b.nanos.toNat < 1000000000 → a.Agree b) ∧
    ((∃ later, a.Overruns later) ↔ 1000000000 ≤ a.nanos.toNat ∧ a.secs ≠ Int64.maxValue) ∧
    (a.Overruns b → b.secs.toInt ≤ a.secs.toInt + 4) ∧
    (∀ rows : List HitRow,
      ((HitOrder.arrange ⟨.updatedAt, .asc⟩ rows).Pairwise fun x y =>
        0 ≤ y.lastUpdated.since x.lastUpdated ∨ x.lastUpdated.Overruns y.lastUpdated) ∧
      (HitOrder.arrange ⟨.updatedAt, .desc⟩ rows).Pairwise fun x y =>
        0 ≤ x.lastUpdated.since y.lastUpdated ∨ y.lastUpdated.Overruns x.lastUpdated) ∧
    ∀ body l, Http.decode body .cache = .ok l →
      (byExpiry l).Pairwise fun x y => 0 ≤ y.validUntil.since x.validUntil := by
  refine ⟨Http.exists_decode_times b a, Timestamp.agree_iff a b, Timestamp.agree_of_nanos_lt,
    Timestamp.exists_overruns_iff, Timestamp.Overruns.secs_le, fun rows => ?_, fun body l h => ?_⟩
  · simpa only [Timestamp.since_eq_sub, Int.sub_nonneg] using HitOrder.arrange_instants rows
  · simpa only [Timestamp.since_eq_sub, Int.sub_nonneg] using Http.byExpiry_instants h

/-- Eleven seconds, written as nine, come before ten. -/
theorem precedes_though_later :
    let early : Timestamp := ⟨9, 2000000000⟩
    let late : Timestamp := ⟨10, 0⟩
    (∃ body, Http.decode body .queryLog = .ok [⟨none, late, early⟩]) ∧
      early.cmp late = .lt ∧ early.since late = 1000000000 ∧
      ∀ domain count, HitOrder.before ⟨.updatedAt, .asc⟩ ⟨domain, count, late⟩ ⟨domain, count, early⟩ = false := by
  intro early late
  have hcmp : late.cmp early = .gt := by decide
  refine ⟨Http.exists_decode_times late early, by decide, by decide, fun domain count => ?_⟩
  change (late.cmp early).isLE = false
  rw [hcmp]
  rfl

end FilterConsole
