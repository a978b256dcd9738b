import FilterConsole.Proofs.Invocation
import FilterConsole.Proofs.Sections
import FilterConsole.Script
import FilterConsole.Store
import Mathlib.Data.List.Nodup
import Mathlib.Logic.Function.Iterate

/-! Re-sorting a view comes to what a refresh in the other order would show: the names of the rows are distinct, so
going back to the order of the names forgets every order before. -/

namespace FilterConsole

variable {σ δ : Type}

theorem HitOrder.foldl_toggle (o : HitOrder) {fields : List SortField} (h : fields ≠ []) :
    fields.foldl toggle o = ⟨fields.getLast h, SortDirection.flipped^[fields.length] o.direction⟩ := by
  induction fields generalizing o with
  | nil => exact absurd rfl h
  | cons f fields ih =>
    by_cases hlast : fields = []
    · subst hlast
      rfl
    · rw [List.foldl_cons, ih (o.toggle f) hlast, List.getLast_cons hlast, List.length_cons,
        Function.iterate_succ_apply]
      rfl

theorem Snapshot.rows_sorted (s : Snapshot) : s.rows.Pairwise fun x y => x.domain < y.domain :=
  List.pairwise_map.2 s.hits.sorted

theorem byDomain_sorted (rows : List HitRow) : (byDomain rows).Pairwise fun x y => x.domain ≤ y.domain := by
  have htrans : ∀ x y z : HitRow, decide (x.domain ≤ y.domain) = true → decide (y.domain ≤ z.domain) = true →
      decide (x.domain ≤ z.domain) = true := by
    intro x y z hxy hyz
    simp only [decide_eq_true_eq] at *
    exact String.le_trans hxy hyz
  have htotal : ∀ x y : HitRow, (decide (x.domain ≤ y.domain) || decide (y.domain ≤ x.domain)) = true := by
    intro x y
    simpa using String.le_total x.domain y.domain
  simpa [byDomain] using List.pairwise_mergeSort htrans htotal rows

/-- Rows with distinct names get the order of their names back, whatever order they stand in. -/
theorem byDomain_arrange {rows : List HitRow} (h : rows.Pairwise fun x y => x.domain < y.domain) (o : HitOrder) :
    byDomain (o.arrange rows) = rows := by
  have hperm : (byDomain (o.arrange rows)).Perm rows := (List.mergeSort_perm _ _).trans (List.mergeSort_perm _ _)
  have hnodup : (rows.map (·.domain)).Nodup := List.pairwise_map.2 (h.imp String.ne_of_lt)
  -- Among all rows the order of the names is not antisymmetric; among these it is, so sorting has one outcome.
  refine List.Perm.eq_of_pairwise ?_ (byDomain_sorted _) (h.imp fun hlt => String.not_lt.1 (String.lt_asymm hlt)) hperm
  intro x y hx hy hxy hyx
  exact List.inj_on_of_nodup_map hnodup (hperm.mem_iff.1 hx) hy (String.le_antisymm hxy hyx)

theorem Sections.resorted_view (x : Sections) (o o' : HitOrder) : (x.view o).resorted o' = x.view o' := by
  have hrows : byDomain (x.view o).hits = (x .filter).rows := byDomain_arrange (x .filter).rows_sorted o
  rw [View.resorted, hrows]
  rfl

/-- A refresh in another order shows the same view re-sorted, or fails in the same way. -/
theorem refresh_setOrder (b : Backend σ) (w : World σ) (o : HitOrder) :
    (refresh.run.run b (w.mapSession (·.setOrder o))).1 = (refresh.run.run b w).1.map (·.resorted o) := by
  cases hc : w.session.credential with
  | none =>
    have hc' : (w.mapSession (·.setOrder o)).session.credential = none := hc
    rw [refresh_without_credential b hc, refresh_without_credential b hc']
    rfl
  | some c =>
    have hc' : (w.mapSession (·.setOrder o)).session.credential = some c := hc
    cases hx : (b.read c Fetch.inOrder w.service).failure with
    | some e => rw [refresh_of_failure hc hx, refresh_of_failure hc' hx]; rfl
    | none =>
      obtain ⟨x, hserves⟩ := Backend.exists_serves (by decide) hx
      have hserves' : b.Serves c x Fetch.inOrder (w.mapSession (·.setOrder o)).service := hserves
      rw [refresh_of_serves hc hserves, refresh_of_serves hc' hserves']
      exact congrArg Except.ok (x.resorted_view _ _).symm

namespace Script.Stage

theorem act_refresh (svc : Service σ δ) {s : Stage σ} {c : Credential} {x : Sections}
    (hc : s.world.session.credential = some c) (hx : svc.Serves c x Fetch.inOrder s.world.service) :
    s.act svc .refresh = (.view (x.view s.world.session.order),
      { s with
        world := (FilterConsole.refresh.run.run svc.toBackend s.world).2
        view := some (x.view s.world.session.order) }) := by
  have hrun := refresh_of_serves hc hx
  rw [act, perform]
  rcases h : FilterConsole.refresh.run.run svc.toBackend s.world with ⟨r, w⟩
  rw [h] at hrun
  obtain rfl : r = .ok (x.view s.world.session.order) := hrun
  rfl

def clicks (svc : Service σ δ) (s : Stage σ) (fields : List SortField) : Stage σ :=
  fields.foldl (fun s f => (s.act svc (.resort f)).2) s

theorem act_resort (svc : Service σ δ) {s : Stage σ} {x : Sections} {o : HitOrder} (h : s.view = some (x.view o))
    (f : SortField) :
    s.act svc (.resort f) = (.view (x.view (s.world.session.order.toggle f)),
      { s with
        world := s.world.mapSession (·.toggle f)
        view := some (x.view (s.world.session.order.toggle f)) }) := by
  simp only [act, h, resort, Sections.resorted_view]
  rfl

theorem clicks_eq (svc : Service σ δ) {s : Stage σ} {x : Sections} (h : s.view = some (x.view s.world.session.order))
    (fields : List SortField) :
    s.clicks svc fields =
      { s with
        world := s.world.mapSession (·.setOrder (fields.foldl HitOrder.toggle s.world.session.order))
        view := some (x.view (fields.foldl HitOrder.toggle s.world.session.order)) } := by
  induction fields generalizing s with
  | nil =>
    obtain ⟨world, holding, view⟩ := s
    exact congrArg (Stage.mk world holding) h
  | cons f fields ih =>
    rw [clicks, List.foldl_cons, act_resort svc h f]
    exact ih rfl

end Script.Stage

/-- A field by itself is clicked after the refresh; that comes to the flipped direction chosen before it. -/
theorem showConsole_flipped (b : Backend σ) (w : World σ) (f : SortField) :
    ((showConsole (some f) none).run.run b w).1 =
      ((showConsole (some f) (some w.session.order.direction.flipped)).run.run b w).1 := by
  have hchosen : ((showConsole (some f) (some w.session.order.direction.flipped)).run.run b w).1 =
      (refresh.run.run b (w.mapSession (·.setOrder (w.session.order.toggle f)))).1 := rfl
  have horder := refresh_order b w
  rw [hchosen, refresh_setOrder, showConsole, Operation.run_bind]
  rcases hrun : refresh.run.run b w with ⟨e | v, w'⟩
  · rfl
  · rw [hrun] at horder
    change Except.ok (v.resorted (w'.session.order.toggle f)) = _
    rw [horder]
    rfl

namespace CommandLine

theorem readShow_sort {text : String} {f : SortField} (h : SortField.ofName? text = some f) :
    readTask "show" ["--sort", text] = .ok (.show (some f) none) ∧
      ∀ d : SortDirection,
        readTask "show" ["--sort", text, "--direction", d.name] = .ok (.show (some f) (some d)) := by
  unfold SortField.ofName? at h
  split at h
  · cases h
    exact ⟨rfl, fun d => by cases d <;> rfl⟩
  · cases h
    exact ⟨rfl, fun d => by cases d <;> rfl⟩
  · cases h
    exact ⟨rfl, fun d => by cases d <;> rfl⟩
  · cases h

end CommandLine

/-- On the command line, too, a field by itself shows what it shows with the opposite of the configured direction. -/
theorem Run.ending_sort {τ : Type} (network : Http.Network σ) (service : Config → σ) (wait : Watch.Surroundings τ σ)
    (t : τ) (env : Environment) {settings : List String} (hsettings : CommandLine.IsSettings settings) {text : String}
    {f : SortField} (hf : SortField.ofName? text = some f) {d : SortDirection}
    (hd : ∀ task c, prepare (settings ++ ["show", "--sort", text]) env = .ok (task, c) →
      d = c.presentation.sortDirection.flipped) (asOf : Timestamp) :
    (ofArguments network service wait t (settings ++ ["show", "--sort", text]) env).map (·.ending asOf) =
      (ofArguments network service wait t (settings ++ ["show", "--sort", text, "--direction", d.name]) env).map
        (·.ending asOf) := by
  obtain ⟨hclick, hchoose⟩ := CommandLine.readShow_sort hf
  obtain ⟨prepared, hprepare⟩ := prepare_settings hsettings env
  have hword : "show" ∈ CommandLine.top.branches := List.mem_cons_self
  rw [hprepare _ _ _ hword hclick] at hd
  unfold ofArguments
  rw [hprepare _ _ _ hword hclick, hprepare _ _ _ hword (hchoose d)]
  cases prepared with
  | error r => rfl
  | ok c =>
    obtain rfl := hd _ c rfl
    exact congrArg (fun r => some (Ending.ofResult c asOf r))
      (showConsole_flipped ((Http.Client.ofApi c.api).backend network.keeping) ⟨c.session, (service c, []), []⟩ f)

/-- Clicks on the headings of a view come to what a refresh of the same data would show in the order that they leave,
and call nothing. So does a field by itself on the command line. -/
theorem resort_eq_refresh {ρ τ : Type} (svc : Service σ δ) (s : Script.Stage σ) (c : Credential) (x : Sections)
    (hcredential : s.world.session.credential = some c) (hserves : svc.Serves c x Fetch.inOrder s.world.service)
    (fields : List SortField) (hfields : fields ≠ []) (settings : List String)
    (hsettings : CommandLine.IsSettings settings) (text : String) (f : SortField)
    (hf : SortField.ofName? text = some f) (network : Http.Network ρ) (service : Config → ρ)
    (wait : Watch.Surroundings τ ρ) (t : τ) (env : Environment) (asOf : Timestamp) :
    let refreshed := (s.act svc .refresh).2
    let clicked := refreshed.clicks svc fields
    let order : HitOrder :=
      ⟨fields.getLast hfields, SortDirection.flipped^[fields.length] s.world.session.order.direction⟩
    ((s.act svc .refresh).1 = .view (x.view s.world.session.order) ∧
      refreshed.view = some (x.view s.world.session.order)) ∧
    (∃ v, clicked.view = some v ∧ v.order = order ∧
      ∀ {υ : Type} (b : Backend υ) (w : World υ) (d : Credential), w.session.credential = some d →
        w.session.order = order → b.Serves d x Fetch.inOrder w.service → (refresh.run.run b w).1 = .ok v) ∧
    clicked.world = refreshed.world.mapSession (·.setOrder order) ∧
    ∀ d, (∀ task c, prepare (settings ++ ["show", "--sort", text]) env = .ok (task, c) →
        d = c.presentation.sortDirection.flipped) →
      (Run.ofArguments network service wait t (settings ++ ["show", "--sort", text]) env).map (·.ending asOf) =
        (Run.ofArguments network service wait t (settings ++ ["show", "--sort", text, "--direction", d.name]) env).map
          (·.ending asOf) := by
  intro refreshed clicked order
  have hact := s.act_refresh svc hcredential hserves
  have hrefreshed : refreshed.world.session.order = s.world.session.order := by
    simp only [refreshed, hact, refresh_order]
  have hview : refreshed.view = some (x.view refreshed.world.session.order) := by
    rw [hrefreshed]
    exact congrArg (fun r => r.2.view) hact
  have horder : fields.foldl HitOrder.toggle refreshed.world.session.order = order := by
    rw [hrefreshed, HitOrder.foldl_toggle _ hfields]
  have hclicked := Script.Stage.clicks_eq svc hview fields
  rw [horder] at hclicked
  refine ⟨⟨congrArg Prod.fst hact, by rw [hview, hrefreshed]⟩, ⟨x.view order, ?_, rfl, ?_⟩, ?_, ?_⟩
  · exact congrArg Script.Stage.view hclicked
  · intro υ b w d hd hw hx
    rw [refresh_of_serves hd hx, hw]
  · exact congrArg Script.Stage.world hclicked
  · exact fun d hd => Run.ending_sort network service wait t env hsettings hf hd asOf

/-- Two names with equal counts and a third; two clicks, the second on the counts, and a command line with a token. -/
theorem resort_eq_refresh_ties :
    let c : Credential := ⟨"word", by decide +kernel⟩
    let hits : Table HitCounter := .ofList [("b", ⟨2, ⟨10, 0⟩⟩), ("a", ⟨2, ⟨30, 0⟩⟩), ("c", ⟨5, ⟨20, 0⟩⟩)]
    let store : Store := { Store.initial with filters := [.ok ⟨⟨1000, 0⟩, 9, hits⟩] }
    let s : Script.Stage Store := .initial (some c) ⟨.updatedAt, .desc⟩ store
    let refreshed := (s.act Store.service .refresh).2
    let clicked := refreshed.clicks Store.service [.updatedAt, .count]
    let ordered : World Store := ⟨.start ⟨.count, .desc⟩ (some c), store, []⟩
    let run := fun args => (Run.ofArguments (fun _ s => (.unreachable, s)) (fun _ => ())
      (fun t w => (.elapsed, t, w)) () args ⟨fun _ => .error .notFound, none⟩).map (·.ending ⟨0, 0⟩)
    s.world.session.credential = some c ∧
      (∃ x, Store.service.Serves c x Fetch.inOrder s.world.service) ∧ [SortField.updatedAt, .count] ≠ [] ∧
      CommandLine.IsSettings ["--token", "t"] ∧ SortField.ofName? "count" = some .count ∧
      (∃ v, clicked.view = some v ∧ v.order = ⟨.count, .desc⟩ ∧
        (refresh.run.run Store.service.toBackend ordered).1 = .ok v) ∧
      clicked.world.log = refreshed.world.log ∧
      run ["--token", "t", "show", "--sort", "count"] =
        run ["--token", "t", "show", "--sort", "count", "--direction", "asc"] := by
  intro c hits store s refreshed clicked ordered run
  have hcredential : s.world.session.credential = some c := rfl
  have hserves : ∃ x, Store.service.Serves c x Fetch.inOrder s.world.service :=
    Backend.exists_serves (by decide) (by decide +kernel)
  obtain ⟨x, hx⟩ := hserves
  have hsettings : CommandLine.IsSettings ["--token", "t"] := ⟨_, rfl, rfl, rfl⟩
  have hprepared : prepare (["--token", "t"] ++ ["show", "--sort", "count"]) ⟨fun _ => .error .notFound, none⟩ =
      .ok (.show (some .count) none, { api := { token := some "t" } }) := by decide +kernel
  obtain ⟨_, ⟨v, hview, horder, hrefresh⟩, hworld, hshow⟩ := resort_eq_refresh Store.service s c x hcredential hx
    [.updatedAt, .count] (by simp) ["--token", "t"] hsettings "count" .count rfl (fun _ s => (.unreachable, s))
    (fun _ => ()) (fun t w => (.elapsed, t, w)) () ⟨fun _ => .error .notFound, none⟩ ⟨0, 0⟩
  refine ⟨hcredential, ⟨x, hx⟩, by simp, hsettings, rfl, ⟨v, hview, horder, ?_⟩, ?_, ?_⟩
  · exact hrefresh Store.service.toBackend ordered c rfl rfl hx
  · simp only [clicked, refreshed, hworld, World.mapSession]
  · refine hshow .asc fun task config h => ?_
    rw [hprepared] at h
    cases h
    rfl

end FilterConsole
