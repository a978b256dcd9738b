import FilterConsole.Proofs.ByteOrder
import FilterConsole.Proofs.Interleaving
import FilterConsole.Proofs.Lookup
import FilterConsole.Proofs.Resort
import Mathlib.Data.List.Induction
import Mathlib.Data.List.Permutation
import Mathlib.Data.Prod.Lex

/-! A view shows what its refresh has read, all of it and nothing else: the hits in the order of the session, the cache in
the order of expiry, a latency for each resolver. Clicks on the headings rearrange the hits and keep the rest. -/

namespace FilterConsole

variable {α σ δ : Type}

/-- A stable sort leaves elements as they stand that may stand in any order. -/
theorem filter_mergeSort {le : α → α → Bool} (htrans : ∀ x y z, le x y = true → le y z = true → le x z = true)
    (htotal : ∀ x y, (le x y || le y x) = true) {p : α → Bool} (hp : ∀ x y, p x = true → p y = true → le x y = true)
    (l : List α) : (l.mergeSort le).filter p = l.filter p := by
  have hties : (l.filter p).Pairwise fun x y => le x y = true := by
    refine List.pairwise_of_forall_mem_list fun x hx y hy => ?_
    exact hp x y (List.mem_filter.mp hx).2 (List.mem_filter.mp hy).2
  have hsub : (l.filter p).Sublist (l.mergeSort le) := List.sublist_mergeSort htrans htotal hties List.filter_sublist
  have hkept : (l.filter p).Sublist ((l.mergeSort le).filter p) := by
    have hfilter := hsub.filter p
    rwa [List.filter_filter, funext fun x => Bool.and_self (p x)] at hfilter
  have hlength : ((l.mergeSort le).filter p).length = (l.filter p).length :=
    ((List.mergeSort_perm l le).filter p).length_eq
  exact (hkept.eq_of_length hlength.symm).symm

def Timestamp.key (t : Timestamp) : Int ×ₗ Nat := toLex (t.secs.toInt, t.nanos.toNat)

theorem Timestamp.key_inj {s t : Timestamp} (h : s.key = t.key) : s = t := by
  obtain ⟨hsecs, hnanos⟩ := Prod.mk.inj (toLex.injective h)
  cases s
  cases t
  exact congrArg₂ Timestamp.mk (Int64.toInt_inj.mp hsecs) (UInt32.toNat_inj.mp hnanos)

theorem Timestamp.isLE_cmp {s t : Timestamp} : (s.cmp t).isLE = true ↔ s.key ≤ t.key := by
  rw [cmp, key, key, Prod.Lex.toLex_le_toLex, Ordering.isLE_then_iff_or, Std.isLE_compare, compare_lt_iff_lt,
    compare_eq_iff_eq]

namespace SortField

def key : SortField → HitRow → Int ×ₗ Nat
  | count, x => toLex (x.count.toNat, 0)
  | updatedAt, x => x.lastUpdated.key

theorem isLE_cmp (f : SortField) {x y : HitRow} : (f.cmp x y).isLE = true ↔ f.key x ≤ f.key y := by
  cases f with
  | count =>
    rw [cmp, key, key, Prod.Lex.toLex_le_toLex, Std.isLE_compare]
    dsimp only
    omega
  | updatedAt => exact Timestamp.isLE_cmp

end SortField

namespace HitOrder

def Precedes (o : HitOrder) (x y : HitRow) : Prop :=
  match o.direction with
  | .asc => o.field.key x < o.field.key y
  | .desc => o.field.key y < o.field.key x

theorem before_iff (o : HitOrder) {x y : HitRow} :
    o.before x y = true ↔ o.Precedes x y ∨ o.field.key x = o.field.key y := by
  obtain ⟨field, direction⟩ := o
  cases direction with
  | asc => exact field.isLE_cmp.trans le_iff_lt_or_eq
  | desc => exact field.isLE_cmp.trans (le_iff_lt_or_eq.trans (or_congr_right eq_comm))

theorem before_trans (o : HitOrder) (x y z : HitRow) (hxy : o.before x y = true) (hyz : o.before y z = true) :
    o.before x z = true := by
  obtain ⟨field, direction⟩ := o
  cases direction with
  | asc => exact field.isLE_cmp.mpr ((field.isLE_cmp.mp hxy).trans (field.isLE_cmp.mp hyz))
  | desc => exact field.isLE_cmp.mpr ((field.isLE_cmp.mp hyz).trans (field.isLE_cmp.mp hxy))

theorem before_total (o : HitOrder) (x y : HitRow) : (o.before x y || o.before y x) = true := by
  rw [Bool.or_eq_true]
  obtain ⟨field, direction⟩ := o
  have htotal := le_total (field.key x) (field.key y)
  cases direction with
  | asc => exact htotal.imp field.isLE_cmp.mpr field.isLE_cmp.mpr
  | desc => exact htotal.symm.imp field.isLE_cmp.mpr field.isLE_cmp.mpr

/-- Rows in the order of their names stand in that order where the field does not tell them apart, in either direction. -/
theorem arrange_ordered {rows : List HitRow} (h : rows.Pairwise fun x y => x.domain < y.domain) (o : HitOrder) :
    (o.arrange rows).Pairwise fun x y =>
      o.Precedes x y ∨ o.field.key x = o.field.key y ∧ utf8 x.domain < utf8 y.domain := by
  have hbefore : (o.arrange rows).Pairwise fun x y => o.before x y = true :=
    List.pairwise_mergeSort o.before_trans o.before_total rows
  have hties : ∀ k, (o.arrange rows).Pairwise fun x y =>
      o.field.key x = k → o.field.key y = k → x.domain < y.domain := by
    intro k
    have hstable : (o.arrange rows).filter (fun x => o.field.key x = k) = rows.filter fun x => o.field.key x = k := by
      refine filter_mergeSort o.before_trans o.before_total (fun x y hx hy => ?_) rows
      exact o.before_iff.mpr (.inr ((of_decide_eq_true hx).trans (of_decide_eq_true hy).symm))
    have hfilter : ((o.arrange rows).filter fun x => o.field.key x = k).Pairwise fun x y => x.domain < y.domain := by
      rw [hstable]
      exact h.filter _
    simpa only [List.pairwise_filter, decide_eq_true_eq] using hfilter
  rw [List.pairwise_iff_forall_sublist] at hbefore ⊢
  intro x y hxy
  refine (o.before_iff.mp (hbefore hxy)).imp_right fun hkey => ⟨hkey, ?_⟩
  exact utf8_lt_iff.mpr (List.pairwise_iff_forall_sublist.mp (hties (o.field.key x)) hxy rfl hkey.symm)

end HitOrder

theorem byExpiry_ordered (entries : List CacheEntry) :
    (byExpiry entries).Pairwise (fun x y => x.validUntil.key ≤ y.validUntil.key) ∧
      ∀ t, (byExpiry entries).filter (·.validUntil = t) = entries.filter (·.validUntil = t) := by
  have htrans : ∀ x y z : CacheEntry, (x.validUntil.cmp y.validUntil).isLE = true →
      (y.validUntil.cmp z.validUntil).isLE = true → (x.validUntil.cmp z.validUntil).isLE = true :=
    fun x y z hxy hyz => Timestamp.isLE_cmp.mpr ((Timestamp.isLE_cmp.mp hxy).trans (Timestamp.isLE_cmp.mp hyz))
  have htotal : ∀ x y : CacheEntry,
      ((x.validUntil.cmp y.validUntil).isLE || (y.validUntil.cmp x.validUntil).isLE) = true := by
    intro x y
    rw [Bool.or_eq_true, Timestamp.isLE_cmp, Timestamp.isLE_cmp]
    exact le_total _ _
  refine ⟨(List.pairwise_mergeSort htrans htotal entries).imp Timestamp.isLE_cmp.mp, fun t => ?_⟩
  refine filter_mergeSort htrans htotal (fun x y hx hy => ?_) entries
  rw [of_decide_eq_true hx, of_decide_eq_true hy]
  exact Timestamp.isLE_cmp.mpr le_rfl

/-- The resolvers with a latency are those of the records. -/
theorem mem_keys_latencies (records : List RoundTrip) (name : String) :
    name ∈ (latencies records).keys ↔ ∃ r ∈ records, r.resolver = some name := by
  have hkeys : (latencies records).keys = (tally records).keys := by
    simp only [latencies, Table.keys, Table.map, List.map_map]
    rfl
  rw [hkeys, tally, Table.mem_keys_foldl (P := fun r => r.resolver = some name)]
  · exact or_iff_right List.not_mem_nil
  · intro t r
    cases r.resolver with
    | none => simp
    | some resolver => rw [Table.mem_keys_insert, or_comm, Option.some.injEq, eq_comm]

/-- The rows of a snapshot are the names that it has hits for, with their counts and times. -/
theorem Snapshot.mem_rows_iff {s : Snapshot} {r : HitRow} :
    r ∈ s.rows ↔ s.hits.get? r.domain = some ⟨r.count, r.lastUpdated⟩ := by
  have hentries : r ∈ s.rows ↔ (r.domain, ⟨r.count, r.lastUpdated⟩) ∈ s.hits.entries := by
    rw [rows, List.mem_map]
    constructor
    · rintro ⟨e, he, rfl⟩
      exact he
    · exact fun h => ⟨_, h, rfl⟩
  exact hentries.trans Table.mem_entries_iff

structure Faithful (x : Sections) (v : View) : Prop where
  hits : ∀ r : HitRow, r ∈ v.hits ↔ (x .filter).hits.get? r.domain = some ⟨r.count, r.lastUpdated⟩
  once : (v.hits.map (·.domain)).Nodup
  ordered : v.hits.Pairwise fun r s =>
    v.order.Precedes r s ∨ v.order.field.key r = v.order.field.key s ∧ utf8 r.domain < utf8 s.domain
  cache : v.cache.Perm (x .cache)
  expiry : v.cache.Pairwise fun e f => e.validUntil.key ≤ f.validUntil.key
  served : ∀ t, v.cache.filter (·.validUntil = t) = (x .cache).filter (·.validUntil = t)
  resolvers : ∀ name, name ∈ v.latencies.keys ↔ ∃ r ∈ x .queryLog, r.resolver = some name
  createdAt : v.filterCreatedAt = (x .filter).createdAt
  size : v.filterSize = (x .filter).size
  allowList : v.allowList = x .allowList
  overrides : v.overrides = x .overrides
  autoUpdate : v.autoUpdate = x .autoUpdate

namespace Sections

theorem faithful_view (x : Sections) (o : HitOrder) : Faithful x (x.view o) where
  hits r := (List.mergeSort_perm _ _).mem_iff.trans Snapshot.mem_rows_iff
  once := by
    have hperm : ((x.view o).hits.map (·.domain)).Perm ((x .filter).rows.map (·.domain)) :=
      (List.mergeSort_perm _ _).map _
    exact hperm.nodup_iff.mpr (List.pairwise_map.mpr ((x .filter).rows_sorted.imp String.ne_of_lt))
  ordered := o.arrange_ordered (x .filter).rows_sorted
  cache := List.mergeSort_perm _ _
  expiry := (byExpiry_ordered (x .cache)).1
  served := (byExpiry_ordered (x .cache)).2
  resolvers := mem_keys_latencies (x .queryLog)
  createdAt := rfl
  size := rfl
  allowList := rfl
  overrides := rfl
  autoUpdate := rfl

/-- Clicks on the headings of a view, each in the session that it finds, leave the order of the last of them. -/
theorem foldl_resort (x : Sections) (o : HitOrder) (clicks : List (SortField × Session)) :
    clicks.foldl (fun v click => (resort v click.1 click.2).1) (x.view o) =
      x.view ((clicks.getLast?.map fun click => (click.2.toggle click.1).order).getD o) := by
  induction clicks using List.reverseRecOn with
  | nil => rfl
  | append_singleton clicks click ih =>
    rw [List.foldl_append, ih, List.getLast?_concat]
    exact x.resorted_view _ _

end Sections

/-- Whatever happens between its effects, a deed that answers a view, other than by re-sorting one, has found a credential,
had the six sections read with it one after the other, and then found the order of the hits. The view shows what was read,
in that order, and so it does after any number of clicks on its headings, each in whatever session it finds; then the order
is that of the session after the last click. A click is one effect, and every move of a scene is such a deed. -/
theorem view_faithful (b : Backend σ) (holders left : List Holder) (d : Deed) (ws : List (World σ)) (u : Upshot)
    (v : View) (hd : ∀ view field, d ≠ .resort view field)
    (hrun : (d.program holders).through b ws = .done (u, left)) (hv : u.view? = some v) :
    (∃ c x start reads built, (start :: reads ++ [built]).Sublist ws ∧ start.session.credential = some c ∧
      List.Forall₂ (fun f w => (b.fetch c f w.service).1 = .ok (x f)) Fetch.inOrder reads ∧
      Faithful x v ∧ v.order = built.session.order ∧
      ∀ clicks : List (SortField × Session),
        let shown := clicks.foldl (fun v click => (resort v click.1 click.2).1) v
        Faithful x shown ∧
          shown.order = (clicks.getLast?.map fun click => (click.2.toggle click.1).order).getD v.order) ∧
    (∀ (view : View) (field : SortField) (w : World σ),
      ((Deed.resort view field).program holders).step b w =
        (.done (.view (resort view field w.session).1, holders), w.mapSession fun s => (resort view field s).2)) ∧
    ∀ (svc : Service σ δ) (s : Scene σ) (d : Deed),
      ∃ ws, ((d.program s.holders).through svc.toBackend ws) =
        .done ((s.move svc (.deed d)).1, (s.move svc (.deed d)).2.holders) := by
  refine ⟨?_, fun view field w => rfl, fun svc s d => ⟨_, Program.through_worlds (d.program s.holders) s.world⟩⟩
  obtain ⟨us, hus, hrefresh⟩ := d.shows b holders hd ws (u, left) v hrun hv
  obtain ⟨c, x, start, reads, built, hworlds, hc, hreads, rfl⟩ := refresh_through hrefresh
  refine ⟨c, x, start, reads, built, hworlds.trans hus, hc, hreads, x.faithful_view _, rfl, fun clicks => ?_⟩
  intro shown
  have hshown : shown = x.view _ := x.foldl_resort built.session.order clicks
  rw [hshown]
  exact ⟨x.faithful_view _, rfl⟩

/-- While a refresh reads, somebody else turns the order of the hits round; two names have equal counts. -/
theorem view_faithful_reordered :
    let c : Credential := ⟨"reader", by decide +kernel⟩
    let hits : Table HitCounter := .ofList [("b", ⟨2, ⟨10, 0⟩⟩), ("a", ⟨2, ⟨30, 0⟩⟩), ("c", ⟨5, ⟨20, 0⟩⟩)]
    let store : Store := { Store.initial with filters := [.ok ⟨⟨1000, 0⟩, 9, hits⟩] }
    let found : SortDirection → World Store := fun d => ⟨.start ⟨.count, d⟩ (some c), store, []⟩
    let ws := List.replicate 13 (found .asc) ++ List.replicate 2 (found .desc)
    ∃ x v, (Deed.refresh.program []).through Store.service.toBackend ws = .done (.view v, []) ∧
      (Upshot.view v).view? = some v ∧ (∀ view field, Deed.refresh ≠ .resort view field) ∧
      (x .filter).hits = hits ∧ Faithful x v ∧ v.order = ⟨.count, .desc⟩ ∧
      v.hits = [⟨"c", 5, ⟨20, 0⟩⟩, ⟨"a", 2, ⟨30, 0⟩⟩, ⟨"b", 2, ⟨10, 0⟩⟩] := by
  intro c hits store found ws
  have hd : ∀ view field, Deed.refresh ≠ .resort view field := nofun
  obtain ⟨v, hrun⟩ : ∃ v, (Deed.refresh.program []).through Store.service.toBackend ws = .done (.view v, []) :=
    ⟨_, rfl⟩
  obtain ⟨⟨c', x, start, reads, built, hworlds, _, hreads, hx, _⟩, _⟩ :=
    view_faithful (δ := StoreChange) Store.service.toBackend [] [] .refresh ws (.view v) v hd hrun rfl
  have hhits : (x .filter).hits = hits := by
    cases hreads with
    | @cons _ first _ reads hread _ =>
      have hfirst : first ∈ ws := hworlds.subset (by simp)
      have hstore : first.service = store := by
        rcases List.mem_append.mp hfirst with h | h <;> rw [List.eq_of_mem_replicate h]
      rw [hstore] at hread
      exact (congrArg Snapshot.hits (Except.ok.inj hread)).symm
  refine ⟨x, v, hrun, rfl, hd, hhits, hx, ?_, ?_⟩
  · cases hrun
    rfl
  · cases hrun
    cbv

end FilterConsole
