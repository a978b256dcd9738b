import FilterConsole.Console
import FilterConsole.Proofs.Deliveries
import FilterConsole.Proofs.Freshness

/-! A whole run that updates the filter, request by request: a refresh, the rebuild, and a refresh after each wait and
before the first. What it shows at last is not the filter that its first request has brought. -/

namespace FilterConsole

variable {σ τ : Type}

open Http (Accepted Carries Completes Delivery readReply sections)

def updateCalls (groups : Nat) : List Call :=
  sections ++ .write .rebuild :: (List.replicate groups sections).flatten

/-- A network with something beside it that it leaves alone. -/
def Http.Network.beside {ρ : Type} (network : Http.Network σ) : Http.Network (σ × ρ) := fun r (s, x) =>
  let (reply, s) := network r s
  (reply, s, x)

/-- Waits of a watch that has the session to itself. What passes meanwhile concerns the service alone, and beside the
service stands how many waits have elapsed. -/
def Watch.Surroundings.alone (pass : τ → σ → Watch.Wake × τ × σ) : Watch.Surroundings τ (σ × Nat) := fun t w =>
  let (wake, t, s) := pass t w.service.1
  (wake, t, ⟨w.session, (s, if wake = .elapsed then w.service.2 + 1 else w.service.2), w.log⟩)

structure UpdateRun (client : Http.Client) (c : Credential) (waits : Nat) (deliveries : List Delivery)
    (result : Except ConsoleError View) : Prop where
  /-- Everything is delivered in order, up to the first call that cannot be sent or is not accepted. -/
  carries : Carries client c (updateCalls (waits + 1)) deliveries
  /-- Nothing is waited for before the rebuild is accepted, and then a group of requests begins after each wait. -/
  begun : ∀ d, deliveries[6]? = some d → Accepted (.write .rebuild) d.2 → 7 + 6 * waits < deliveries.length
  idle : deliveries.length ≤ 7 → waits = 0
  /-- A view shows the filter of the last group, which is not that of the first request. -/
  shows : ∀ view, result = .ok view → deliveries.length = 13 + 6 * waits ∧ ∃ first last filter filter',
    deliveries[0]? = some first ∧ readReply .filter first.2 = .ok filter ∧
    deliveries[7 + 6 * waits]? = some last ∧ readReply .filter last.2 = .ok filter' ∧
    view.filterCreatedAt = filter'.createdAt ∧ filter'.createdAt ≠ filter.createdAt

namespace UpdateRun

variable {client : Http.Client} {c : Credential} {ds : List Delivery}

/-- An update that has not had the rebuild accepted. -/
theorem of_not_accepted (hcarries : Carries client c (sections ++ [.write .rebuild]) ds)
    (hnot : ∀ d, ds[6]? = some d → ¬ Accepted (.write .rebuild) d.2) (e : ConsoleError) :
    UpdateRun client c 0 ds (.error e) where
  carries := by
    have hcalls : updateCalls (0 + 1) = (sections ++ [.write .rebuild]) ++ sections := rfl
    rw [hcalls]
    refine hcarries.append_of_not_completes fun hcompletes => ?_
    obtain ⟨d, hd, haccepted⟩ := hcompletes.accepted_last
    exact hnot d hd haccepted
  begun d hd haccepted := absurd haccepted (hnot d hd)
  idle _ := rfl
  shows := nofun

/-- An update in whose last group `ds` is delivered. -/
theorem of_group {prior groups : List Delivery} {waits : Nat} {result : Except ConsoleError View} {first : Delivery}
    {filter : Snapshot} (hprior : Completes client c (sections ++ [.write .rebuild]) prior)
    (hfirst : prior[0]? = some first) (hfilter : readReply .filter first.2 = .ok filter)
    (hgroups : Completes client c (List.replicate waits sections).flatten groups)
    (hcarries : Carries client c sections ds)
    (hresult : ∀ view, result = .ok view → Completes client c sections ds ∧ ∃ last filter', ds.head? = some last ∧
      readReply .filter last.2 = .ok filter' ∧ view.filterCreatedAt = filter'.createdAt ∧
      filter'.createdAt ≠ filter.createdAt) :
    UpdateRun client c waits (prior ++ (groups ++ ds)) result := by
  have hseven : prior.length = 7 := hprior.length
  have hsix : groups.length = 6 * waits := by
    rw [hgroups.length]
    simp [sections, Fetch.inOrder, Nat.mul_comm]
  have hlength : (prior ++ (groups ++ ds)).length = 7 + 6 * waits + ds.length := by
    simp [hseven, hsix, Nat.add_assoc]
  have hbegun : 0 < ds.length := by
    -- The same request has been sent before.
    cases hcarries with
    | unsent h =>
      cases hprior with
      | cons hd _ =>
        rw [h] at hd
        cases hd.1
    | refused => exact Nat.succ_pos _
    | accepted => exact Nat.succ_pos _
  refine ⟨?_, fun _ _ _ => by omega, fun h => by omega, fun view hview => ?_⟩
  · have hcalls : updateCalls (waits + 1) =
        (sections ++ [.write .rebuild]) ++ ((List.replicate waits sections).flatten ++ sections) := by
      simp [updateCalls, List.replicate_succ']
    rw [hcalls]
    exact hprior.append_carries (hgroups.append_carries hcarries)
  · obtain ⟨hcompletes, last, filter', hlast, hfilter', hshown, hother⟩ := hresult view hview
    have hgroup : ds.length = 6 := hcompletes.length
    refine ⟨by omega, first, last, filter, filter', ?_, hfilter, ?_, hfilter', hshown, hother⟩
    · rw [List.getElem?_append_left (by omega)]
      exact hfirst
    · rw [List.getElem?_append_right (by omega), List.getElem?_append_right (by omega), hseven, hsix,
        Nat.add_sub_cancel_left, Nat.sub_self, ← List.head?_eq_getElem?]
      exact hlast

end UpdateRun

namespace Watch

/-- After a pause the session stands as the look has left it, and what is kept beside the service too. -/
theorem pause_alone {ρ : Type} (b : Backend ((σ × Nat) × ρ)) (pass : τ → σ → Wake × τ × σ) (t : τ)
    (w : World ((σ × Nat) × ρ)) (i : Nat) :
    let found := (look b (Surroundings.alone pass).beside t w i).2
    let paused := pause b (Surroundings.alone pass).beside t w i
    paused.2.2.session = found.session.setUpdate (.polling (.ofNat i)) ∧ paused.2.2.service.2 = found.service.2 ∧
      paused.2.2.service.1.2 = if paused.1 = .elapsed then found.service.1.2 + 1 else found.service.1.2 :=
  ⟨rfl, rfl, rfl⟩

variable {client : Http.Client} {network : Http.Network σ} {pass : τ → σ → Wake × τ × σ} {c : Credential}
  {prior : List Delivery} {i j : Nat}

/-- A watch comes to a look after so many waits: all the groups before it are delivered and accepted. -/
structure Arrives (client : Http.Client) (c : Credential) (prior : List Delivery) (i : Nat)
    (w : World ((σ × Nat) × List Delivery)) : Prop where
  credential : w.session.credential = some c
  waits : w.service.1.2 = i
  delivered : ∃ groups, Completes client c (List.replicate i sections).flatten groups ∧
    w.service.2 = (prior ++ groups).reverse

section Looks

variable {n : UInt32} {t : τ} {w : World ((σ × Nat) × List Delivery)} {seen : Timestamp}

theorem Arrives.look
    (h : Arrives client c prior i
      (Watch.before (client.backend network.beside.keeping) (Surroundings.alone pass).beside t w i).2) :
    let look := Watch.look (client.backend network.beside.keeping) (Surroundings.alone pass).beside t w i
    ∃ groups ds, Completes client c (List.replicate i sections).flatten groups ∧ Carries client c sections ds ∧
      look.2.service.2 = (prior ++ (groups ++ ds)).reverse ∧ look.2.service.1.2 = i ∧
      match look.1 with
      | .error _ => ¬ Completes client c sections ds
      | .ok view => Completes client c sections ds ∧ look.2.session.credential = some c ∧
          ∃ d filter, ds.head? = some d ∧ readReply .filter d.2 = .ok filter ∧
            view.filterCreatedAt = filter.createdAt := by
  intro look
  obtain ⟨groups, hgroups, hprior⟩ := h.delivered
  obtain ⟨ds, hkept, hcounted, hcarries, hlook⟩ :=
    Http.refresh_delivers network.beside Prod.snd (fun _ _ => rfl) client h.credential
  refine ⟨groups, ds, hgroups, hcarries, ?_, hcounted.trans h.waits, ?_⟩
  · refine hkept.trans ?_
    rw [hprior]
    simp
  · change match look.1 with | .error _ => _ | .ok view => _ at hlook
    cases hresult : look.1 with
    | error e =>
      rw [hresult] at hlook
      exact hlook
    | ok view =>
      rw [hresult] at hlook
      obtain ⟨hcompletes, hsession, hfilter⟩ := hlook
      refine ⟨hcompletes, ?_, hfilter⟩
      change look.2.session = _ at hsession
      rw [hsession]
      exact h.credential

theorem Arrives.before (h : Arrives client c prior 0 w)
    (hreaches : Reaches (client.backend network.beside.keeping) (some n) (Surroundings.alone pass).beside t w (some seen) j)
    (hi : i ≤ j) :
    Arrives client c prior i
      (Watch.before (client.backend network.beside.keeping) (Surroundings.alone pass).beside t w i).2 := by
  induction i with
  | zero => exact h
  | succ i ih =>
    obtain ⟨hgo, helapsed⟩ := hreaches i (by omega)
    obtain ⟨view, hview, -⟩ := eq_seen_of_not_decisive fun hd => hgo (.inl hd)
    obtain ⟨groups, ds, hgroups, -, hprior, hwaits, hlook⟩ := (ih (by omega)).look
    rw [hview] at hlook
    obtain ⟨hcompletes, hcredential, -⟩ := hlook
    obtain ⟨hsession, hkept, hcounted⟩ :=
      pause_alone (client.backend network.beside.keeping) pass t w i
    rw [helapsed, if_pos rfl, hwaits] at hcounted
    rw [before_succ]
    refine ⟨?_, hcounted, groups ++ ds, ?_, hkept.trans hprior⟩
    · rw [World.mapSession, hsession]
      exact hcredential
    · rw [List.replicate_succ', List.flatten_concat]
      exact hgroups.append hcompletes

/-- What comes of a watch that has come to its first look. -/
theorem Arrives.ends {first : Delivery} {filter : Snapshot} (h : Arrives client c prior 0 w)
    (hprior : Completes client c (sections ++ [.write .rebuild]) prior) (hfirst : prior[0]? = some first)
    (hfilter : readReply .filter first.2 = .ok filter) (network : Http.Network σ) (n : UInt32)
    (pass : τ → σ → Wake × τ × σ) (t : τ) :
    ∃ r t' v, onward (client.backend network.beside.keeping) (some n) (Surroundings.alone pass).beside t w
        (some filter.createdAt) looks 0 = some (r, t', v) ∧
      v.service.1.2 ≤ n.toNat ∧ UpdateRun client c v.service.1.2 v.service.2.reverse (r.map (·.view)) := by
  have hfuel : n.toNat ≤ 0 + looks := by
    have hn := n.toNat_lt
    unfold looks
    omega
  obtain ⟨x, hx⟩ := onward_ends (client.backend network.beside.keeping) (Surroundings.alone pass).beside t w
    (some filter.createdAt) (Nat.zero_le n.toNat) hfuel
  obtain ⟨j, hreaches, hend⟩ := exists_reaches (reaches_zero _ _ _ _ _ _) hx
  obtain ⟨groups, ds, hgroups, hcarries, hkept, hwaits, hlook⟩ := (h.before hreaches le_rfl).look
  refine ⟨x.1, x.2.1, x.2.2, hx, ?_⟩
  obtain ⟨_, rfl⟩ | ⟨hgo, hcancelled, rfl⟩ := hend
  · -- The look `j` has ended the watch.
    dsimp only [ending, World.mapSession]
    rw [hwaits, hkept, List.reverse_reverse]
    refine ⟨hreaches.le_limit, .of_group hprior hfirst hfilter hgroups hcarries fun view hview => ?_⟩
    cases hverdict : verdict (some filter.createdAt) (.ofNat j) (Watch.look
        (client.backend network.beside.keeping) (Surroundings.alone pass).beside t w j).1 with
    | error e =>
      rw [hverdict] at hview
      cases hview
    | ok o =>
      rw [hverdict] at hview
      obtain rfl : o.view = view := Except.ok.inj hview
      obtain ⟨hview, -, hother⟩ := verdict_ok hverdict
      rw [hview] at hlook
      obtain ⟨hcompletes, -, last, filter', hlast, hfilter', hshown⟩ := hlook
      exact ⟨hcompletes, last, filter', hlast, hfilter', hshown, fun h => hother (congrArg some (hshown.trans h))⟩
  · -- The wait after the look `j` is cancelled.
    obtain ⟨-, hkept', hcounted⟩ := pause_alone (client.backend network.beside.keeping) pass t w j
    rw [hcancelled, if_neg (by decide), hwaits] at hcounted
    dsimp only [abandoned, World.mapSession]
    rw [hcounted, hkept', hkept, List.reverse_reverse]
    exact ⟨hreaches.le_limit, .of_group hprior hfirst hfilter hgroups hcarries fun view hview => by cases hview⟩

/-- A watch whose session has seen the filter of the first of the requests before it. -/
theorem updateRun_of_watch {first : Delivery} {filter : Snapshot} {ds : List Delivery}
    (hcredential : w.session.credential = some c) (hfree : w.session.watching = false)
    (hseen : w.session.seen = some filter.createdAt) (hwaits : w.service.1.2 = 0) (hkept : w.service.2 = ds.reverse)
    (hds : Completes client c sections ds) (hfirst : ds[0]? = some first)
    (hfilter : readReply .filter first.2 = .ok filter) (network : Http.Network σ) (n : UInt32)
    (pass : τ → σ → Wake × τ × σ) (t : τ) :
    ∃ r t' v, run (client.backend network.beside.keeping) (some n) false (Surroundings.alone pass).beside looks t w =
        some (r, t', v) ∧
      v.service.1.2 ≤ n.toNat ∧ UpdateRun client c v.service.1.2 v.service.2.reverse (r.map (·.view)) := by
  have hlength : ds.length = 6 := hds.length
  obtain ⟨hrequest, e, hwrite⟩ | ⟨d, hrequest, hwrite⟩ :=
    Http.write_delivers network.beside client c .rebuild w.service
  · rw [run_command_error hcredential hfree hwrite]
    have hcarries : Carries client c (sections ++ [.write .rebuild]) (ds ++ []) :=
      hds.append_carries (.unsent hrequest)
    rw [List.append_nil] at hcarries
    refine ⟨_, _, _, rfl, ?_⟩
    dsimp only
    rw [hwaits, hkept, List.reverse_reverse]
    refine ⟨Nat.zero_le _, .of_not_accepted hcarries (fun d hd => ?_) e⟩
    rw [List.getElem?_eq_none (by omega)] at hd
    cases hd
  · cases hreply : Http.writeReply .rebuild d.2 with
    | error e =>
      have hnot : ¬ Accepted (.write .rebuild) d.2 := fun h => by
        rw [Accepted, hreply] at h
        cases h
      rw [hreply] at hwrite
      rw [run_command_error hcredential hfree hwrite]
      refine ⟨_, _, _, rfl, ?_⟩
      have hcounted : (network.beside d.1 w.service.1).2.2 = 0 := hwaits
      dsimp only
      rw [hcounted, hkept, List.reverse_cons, List.reverse_reverse]
      refine ⟨Nat.zero_le _, .of_not_accepted (hds.append_carries (.refused hrequest hnot)) (fun d' hd' => ?_) e⟩
      rw [List.getElem?_append_right (by omega), hlength] at hd'
      cases hd'
      exact hnot
    | ok u =>
      rw [hreply] at hwrite
      rw [run_accepted hcredential hfree hwrite, hseen]
      have hprior : Completes client c (sections ++ [.write .rebuild]) (ds ++ [d]) :=
        hds.append (.cons ⟨hrequest, hreply⟩ .nil)
      refine Arrives.ends ⟨?_, ?_, [], .nil, ?_⟩ hprior ?_ hfilter network n pass t
      · exact (Session.claim_credential _).trans hcredential
      · exact hwaits
      · simp [World.asked, hkept]
      · rw [List.getElem?_append_left (by omega)]
        exact hfirst

end Looks

end Watch

def updateRequests (groups : Nat) : List (Http.Method × String) :=
  let reads := ["filter", "cache", "instrumentation", "allowed-domains", "overrides", "auto-update-filter"].map (.get, ·)
  reads ++ (.post, "update-filter") :: (List.replicate groups reads).flatten

theorem updateCalls_requests (client : Http.Client) (groups : Nat) :
    ((updateCalls groups).map fun call =>
        (call.payload.1, Http.Url.parse? (Http.address client.baseUrl client.pathPrefix call.endpoint.name))) =
      (updateRequests groups).map fun r =>
        (r.1, Http.Url.parse? (Http.address client.baseUrl client.pathPrefix r.2)) := by
  simp [updateCalls, updateRequests, sections, Fetch.inOrder, List.map_flatten, Call.payload, Call.endpoint,
    Endpoint.name, Fetch.endpoint, Write.endpoint, Write.method]

/-- What a run that updates the filter comes to, with the credential that it starts with. -/
theorem update_of_credential (network : Http.Network σ) (pass : τ → σ → Watch.Wake × τ × σ) (t : τ) (n : UInt32)
    (client : Http.Client) {w : World ((σ × Nat) × List Delivery)} {c : Credential}
    (hcredential : w.session.credential = some c) (hfree : w.session.watching = false) (hwaits : w.service.1.2 = 0)
    (hkept : w.service.2 = []) :
    ∃ result v, Task.run (client.backend network.beside.keeping) (some n) (Watch.Surroundings.alone pass).beside
        Watch.looks .updateFilter t w = some (result, v) ∧
      v.service.1.2 ≤ n.toNat ∧ UpdateRun client c v.service.1.2 v.service.2.reverse result := by
  obtain ⟨ds, hkept', hcounted, hcarries, hlook⟩ :=
    Http.refresh_delivers network.beside Prod.snd (fun _ _ => rfl) client hcredential
  rw [hkept, List.append_nil] at hkept'
  rw [hwaits] at hcounted
  rw [Task.run]
  rcases hrun : refresh.run.run (client.backend network.beside.keeping) w with ⟨e | view, v⟩
  · rw [hrun] at hkept' hcounted hlook
    dsimp only at hkept' hcounted hlook ⊢
    refine ⟨_, _, rfl, ?_⟩
    rw [hcounted, hkept', List.reverse_reverse]
    have hlength : ds.length ≤ 6 := hcarries.length_le
    refine ⟨Nat.zero_le _, .of_not_accepted (hcarries.append_of_not_completes hlook) (fun d hd => ?_) e⟩
    rw [List.getElem?_eq_none hlength] at hd
    cases hd
  · rw [hrun] at hkept' hcounted hlook
    dsimp only at hkept' hcounted hlook ⊢
    obtain ⟨hcompletes, hsession, first, filter, hfirst, hfilter, hview⟩ := hlook
    rw [List.head?_eq_getElem?] at hfirst
    obtain ⟨r, t', u, hwatch, hlimit, hupdate⟩ := Watch.updateRun_of_watch (w := v) (c := c)
      (by rw [hsession]; exact hcredential) (by rw [hsession]; exact hfree) (by rw [hsession, hview]; rfl) hcounted hkept'
      hcompletes hfirst hfilter network n pass t
    rw [hwatch]
    exact ⟨_, _, rfl, hlimit, hupdate⟩

/-- A run that updates the filter over any network, while nobody else uses its session, comes to an end. It requests every
section, the rebuild if all of them have come, and every section again before each wait and after the last; the first
request that is not answered as it should be is the last one. If a page is printed, it shows a filter made at another time
than the one that the first request has brought. -/
theorem update_filter_run (network : Http.Network σ) (pass : τ → σ → Watch.Wake × τ × σ) (service : Config → σ) (t : τ)
    (args : List String) (env : Environment) (config : Config) (n : UInt32)
    (hprepare : prepare args env = .ok (.updateFilter, config)) (hlimit : config.watcher.limit = some n) :
    ∃ result world deliveries,
      let run := Run.finished config .updateFilter result world deliveries
      let waits := world.service.2
      let client := Http.Client.ofApi config.api
      Run.ofArguments network.beside (fun config => (service config, 0)) (.alone pass) t args env = some run ∧
      waits ≤ n.toNat ∧
      match config.session.credential with
      | none => result = .error .missingCredential ∧ deliveries = []
      | some c =>
        UpdateRun client c waits deliveries result ∧
        (6 < deliveries.length → Completes client c sections (deliveries.take 6)) ∧
        ((deliveries.map fun d => (d.1.method, some d.1.url)) <+: (updateRequests (waits + 1)).map fun r =>
          (r.1, Http.Url.parse? (Http.address client.baseUrl client.pathPrefix r.2))) ∧
        ∀ view, result = .ok view → ∀ asOf, run.ending asOf = ⟨0, view.page asOf, ""⟩ := by
  rw [Run.ofArguments, hprepare]
  dsimp only
  rw [Config.perform, hlimit]
  cases hcredential : config.session.credential with
  | none =>
    have hrefresh := refresh_without_credential ((Http.Client.ofApi config.api).backend network.beside.keeping)
      (w := ⟨config.session, ((service config, 0), []), []⟩) hcredential
    rw [Task.run, hrefresh]
    exact ⟨_, _, _, rfl, Nat.zero_le _, rfl, rfl⟩
  | some c =>
    obtain ⟨result, v, hrun, hwaits, hupdate⟩ := update_of_credential network pass t n (.ofApi config.api)
      (w := ⟨config.session, ((service config, 0), []), []⟩) hcredential rfl rfl rfl
    rw [hrun]
    refine ⟨result, _, v.service.2.reverse, rfl, hwaits, hupdate, ?_, ?_, ?_⟩
    · exact hupdate.carries.completes_take
    · have hrequests := hupdate.carries.requests_prefix
      rwa [updateCalls_requests] at hrequests
    · rintro view rfl asOf
      rfl

/-- Answers in their order, all of status 200. The filter is rebuilt only after the first look at it. -/
theorem update_filter_run_second_look :
    let c : Credential := ⟨"writer", by decide +kernel⟩
    let args := ["--token", "writer", "update-filter"]
    let env : Environment := ⟨fun _ => .error .notFound, none⟩
    let config : Config := { api := { token := some "writer" } }
    let group := fun created => ["\x7b\"created_at\":\x7b\"secs_since_epoch\":" ++ created ++
      ",\"nanos_since_epoch\":0\x7d\x7d", "\x7b\"data\":\x7b\x7d\x7d", "\x7b\"data\":\x7b\x7d\x7d", "[]", "\x7b\x7d", "null"]
    let answers := group "1000" ++ "" :: group "1000" ++ group "2000"
    let network : Http.Network (List String) := fun _ s => (.response 200 (some (utf8 (s.headD ""))), s.tail)
    let run := Run.ofArguments network.beside (fun _ => (answers, 0)) (.alone fun t s => (.elapsed, t, s)) () args env
    prepare args env = .ok (.updateFilter, config) ∧ config.watcher.limit = some 600 ∧
      ∃ view world deliveries, run = some (.finished config .updateFilter (.ok view) world deliveries) ∧
        world.service.2 = 1 ∧ deliveries.length = 19 ∧ view.filterCreatedAt = ⟨2000, 0⟩ ∧
        UpdateRun (.ofApi config.api) c 1 deliveries (.ok view) := by
  intro c args env config group answers network run
  have hprepare : prepare args env = .ok (.updateFilter, config) := by decide +kernel
  have hshown : (run.map fun
      | .finished _ _ result world deliveries =>
        (result.toOption.map View.filterCreatedAt, world.service.2, deliveries.length)
      | .refused _ => default) = some (some ⟨2000, 0⟩, 1, 19) := by decide +kernel
  obtain ⟨result, world, deliveries, hrun, -, hupdate⟩ := update_filter_run network (fun t s => (.elapsed, t, s))
    (fun _ => answers) () args env config 600 hprepare rfl
  have hcredential : config.session.credential = some c := by decide +kernel
  rw [hcredential] at hupdate
  rw [show run = _ from hrun] at hshown
  obtain ⟨hcreated, hcounts⟩ := Prod.mk.inj (Option.some.inj hshown)
  obtain ⟨hwaits, hlength⟩ := Prod.mk.inj hcounts
  cases result with
  | error e => cases hcreated
  | ok view =>
    refine ⟨hprepare, rfl, view, world, deliveries, hrun, hwaits, hlength, Option.some.inj hcreated, ?_⟩
    have hfirst := hupdate.1
    rwa [hwaits] at hfirst

end FilterConsole
