import FilterConsole.Proofs.Effects
import FilterConsole.Refresh

/-! A refresh reads the sections in order up to the first failure, and notes the age of the filter only after the last
of them. -/

namespace FilterConsole

variable {α σ : Type}

def Fetch.inOrder : List Fetch := [.filter, .cache, .queryLog, .allowList, .overrides, .autoUpdate]

structure Reading (σ : Type) where
  made : List Fetch
  failure : Option ConsoleError
  service : σ

namespace Backend

def read (b : Backend σ) (c : Credential) : List Fetch → σ → Reading σ
  | [], s => ⟨[], none, s⟩
  | f :: fs, s =>
    match b.fetch c f s with
    | (.error e, s) => ⟨[f], some e, s⟩
    | (.ok _, s) => { b.read c fs s with made := f :: (b.read c fs s).made }

variable {b : Backend σ} {c : Credential} {f : Fetch} {fs : List Fetch} {s s' : σ}

theorem read_cons_ok {a : f.Answer} (h : b.fetch c f s = (.ok a, s')) :
    b.read c (f :: fs) s = { b.read c fs s' with made := f :: (b.read c fs s').made } := by
  rw [read, h]

theorem read_cons_error {e : ConsoleError} (h : b.fetch c f s = (.error e, s')) :
    b.read c (f :: fs) s = ⟨[f], some e, s'⟩ := by
  rw [read, h]

/-- The reads made are the first ones, and all of them if none fails. -/
theorem made_prefix (b : Backend σ) (c : Credential) (fs : List Fetch) (s : σ) :
    (b.read c fs s).made <+: fs ∧ ((b.read c fs s).failure = none → (b.read c fs s).made = fs) := by
  induction fs generalizing s with
  | nil => exact ⟨List.nil_prefix, fun _ => rfl⟩
  | cons f fs ih =>
    rcases h : b.fetch c f s with ⟨e | a, s'⟩
    · rw [read_cons_error h]
      exact ⟨by simp, by simp⟩
    · rw [read_cons_ok h]
      obtain ⟨hp, hall⟩ := ih s'
      exact ⟨(List.prefix_cons_inj f).2 hp, fun hn => congrArg (f :: ·) (hall hn)⟩

theorem made_ne_nil (b : Backend σ) (c : Credential) (f : Fetch) (fs : List Fetch) (s : σ) :
    (b.read c (f :: fs) s).made ≠ [] := by
  rcases h : b.fetch c f s with ⟨e | a, s'⟩
  · rw [read_cons_error h]
    exact List.cons_ne_nil _ _
  · rw [read_cons_ok h]
    exact List.cons_ne_nil _ _

end Backend

def Reading.log (x : Reading σ) (c : Credential) : List (Credential × Call) :=
  (x.made.map fun f => (c, .fetch f)).reverse

namespace Operation

variable {b : Backend σ} {c : Credential} {f : Fetch} {fs : List Fetch} {s s' : σ}

theorem run_fetch_ok {k : f.Answer → Operation α} {a : f.Answer} (h : b.fetch c f s = (.ok a, s'))
    (session : Session) (log : List (Credential × Call)) :
    (fetch c f >>= k).run.run b ⟨session, s, log⟩ =
      (k a).run.run b ⟨session, s', (c, .fetch f) :: log⟩ := by
  rw [run_bind, run_fetch, h]
  rfl

theorem run_fetch_error {k : f.Answer → Operation α} {e : ConsoleError} (h : b.fetch c f s = (.error e, s'))
    (session : Session) (log : List (Credential × Call)) :
    (fetch c f >>= k).run.run b ⟨session, s, log⟩ =
      (.error e, ⟨session.observe (.error e : Except ConsoleError Unit), s', (c, .fetch f) :: log⟩) := by
  rw [run_bind, run_fetch, h]
  simp only [World.answered, Session.observe_error]

theorem seen_of_mem_worlds_fetch {w v : World σ} (h : v ∈ (fetch c f).run.worlds b w) :
    v.session.seen = w.session.seen := by
  change v ∈ [w, _, w.answered c (.fetch f) _ _] at h
  simp only [List.mem_cons, List.not_mem_nil, or_false] at h
  obtain rfl | rfl | rfl := h
  · rfl
  · rfl
  · exact Session.observe_seen _ _

theorem session_of_mem_worlds_credential {w v : World σ} (h : v ∈ credential.run.worlds b w) :
    v.session = w.session := by
  obtain h | ⟨x, hx, h⟩ := mem_worlds_bind h
  · change v ∈ [w, w] at h
    simp only [List.mem_cons, List.not_mem_nil, or_false, or_self] at h
    rw [h]
  · obtain rfl : w.session = x := Except.ok.inj hx
    revert h
    cases w.session.credential <;> intro h <;> rw [List.mem_singleton.mp h] <;> rfl

/-- `m` makes the reads `fs` and ends with the first of them that fails. If none fails it ends as `Q` says; until all are
made it leaves the age of the filter alone. -/
def Reads (b : Backend σ) (c : Credential) (fs : List Fetch) (m : Operation α)
    (Q : σ → Session → α → Session → Prop) : Prop :=
  ∀ session s log,
    let x := b.read c fs s
    (match x.failure with
      | some e => m.run.run b ⟨session, s, log⟩ =
          (.error e, ⟨session.observe (.error e : Except ConsoleError Unit), x.service, x.log c ++ log⟩)
      | none => ∃ a session', Q s session a session' ∧
          m.run.run b ⟨session, s, log⟩ = (.ok a, ⟨session', x.service, x.log c ++ log⟩)) ∧
    ∀ v ∈ m.run.worlds b ⟨session, s, log⟩,
      v.session.seen = session.seen ∨ x.failure = none ∧ v.log = x.log c ++ log

theorem Reads.fetch {k : f.Answer → Operation α} {Q : σ → Session → α → Session → Prop}
    {R : f.Answer → σ → Session → α → Session → Prop} (h : ∀ a, Reads b c fs (k a) (R a))
    (hQ : ∀ s a s', b.fetch c f s = (.ok a, s') → ∀ x y z, R a s' x y z → Q s x y z) :
    Reads b c (f :: fs) (fetch c f >>= k) Q := by
  intro session s log
  rcases hf : b.fetch c f s with ⟨e | a, s'⟩
  · rw [Backend.read_cons_error hf]
    refine ⟨run_fetch_error hf session log, fun v hv => .inl ?_⟩
    obtain hv | ⟨a, ha, _⟩ := mem_worlds_bind hv
    · exact seen_of_mem_worlds_fetch hv
    · rw [run_fetch, hf] at ha
      cases ha
  · obtain ⟨hrun, hworlds⟩ := h a session s' ((c, .fetch f) :: log)
    have hlog : ∀ x : Reading σ, (Reading.log { x with made := f :: x.made } c) ++ log =
        x.log c ++ (c, .fetch f) :: log := by
      intro x
      simp [Reading.log]
    rw [Backend.read_cons_ok hf]
    simp only [hlog, run_fetch_ok hf]
    refine ⟨?_, fun v hv => ?_⟩
    · cases hx : (b.read c fs s').failure with
      | some e => simpa only [hx] using hrun
      | none =>
        simp only [hx] at hrun
        obtain ⟨r, session', hR, hrun⟩ := hrun
        exact ⟨r, session', hQ s a s' hf _ _ _ hR, hrun⟩
    · obtain hv | ⟨a', ha, hv⟩ := mem_worlds_bind hv
      · exact .inl (seen_of_mem_worlds_fetch hv)
      · rw [run_fetch, hf] at ha hv
        cases ha
        exact hworlds v hv

theorem Reads.fetch_then {k : f.Answer → Operation α} {Q : Session → α → Session → Prop}
    (h : ∀ a, Reads b c fs (k a) fun _ => Q) : Reads b c (f :: fs) (Operation.fetch c f >>= k) fun _ => Q :=
  .fetch h fun _ _ _ _ _ _ _ hR => hR

end Operation

theorem refresh_without_credential (b : Backend σ) {w : World σ} (h : w.session.credential = none) :
    refresh.run.run b w = (.error .missingCredential, w) := by
  unfold refresh
  rw [Operation.run_bind, Operation.run_credential, h]

/-- A refresh makes its reads with the stored credential. -/
theorem refresh_eq : ∃ reads : Credential → Operation View, refresh = Operation.credential >>= reads ∧
    ∀ {σ : Type} (b : Backend σ) (c : Credential), Operation.Reads b c Fetch.inOrder (reads c)
      fun s session view session' => ∃ filter, (b.fetch c .filter s).1 = .ok filter ∧
        view.filterCreatedAt = filter.createdAt ∧ session' = session.see filter.createdAt := by
  refine ⟨_, rfl, fun b c => ?_⟩
  refine .fetch (fun filter => ?_) (fun s filter s' hf session view session' h => ⟨filter, by rw [hf], h⟩)
  refine .fetch_then fun cache => ?_
  refine .fetch_then fun queryLog => ?_
  refine .fetch_then fun allowList => ?_
  refine .fetch_then fun overrides => ?_
  refine .fetch_then fun autoUpdate => ?_
  -- All reads are made; what is left looks at the order of the hits and notes the age.
  intro session s log
  refine ⟨⟨_, _, ⟨rfl, rfl⟩, rfl⟩, fun v hv => .inr ⟨rfl, ?_⟩⟩
  change v ∈ [⟨session, s, log⟩, ⟨session, s, log⟩, (⟨session.see filter.createdAt, s, log⟩ : World _)] at hv
  simp only [List.mem_cons, List.not_mem_nil, or_false] at hv
  obtain rfl | rfl | rfl := hv <;> rfl

/-- The outcome of a refresh with a credential, and the worlds on the way to it. -/
theorem refresh_with_credential (b : Backend σ) {w : World σ} {c : Credential} (h : w.session.credential = some c) :
    let x := b.read c Fetch.inOrder w.service
    ((∃ e, x.failure = some e ∧ refresh.run.run b w =
        (.error e, ⟨w.session.observe (.error e : Except ConsoleError Unit), x.service, x.log c ++ w.log⟩)) ∨
      (x.failure = none ∧ ∃ filter view, (b.fetch c .filter w.service).1 = .ok filter ∧
        view.filterCreatedAt = filter.createdAt ∧
        refresh.run.run b w = (.ok view, ⟨w.session.see filter.createdAt, x.service, x.log c ++ w.log⟩))) ∧
    ∀ v ∈ refresh.run.worlds b w, v.session.seen = w.session.seen ∨ x.failure = none ∧ v.log = x.log c ++ w.log := by
  obtain ⟨reads, hrefresh, hreads⟩ := refresh_eq
  obtain ⟨hrun, hworlds⟩ := hreads b c w.session w.service w.log
  have hcredential : Operation.credential.run.run b w = (.ok c, w) := by
    rw [Operation.run_credential, h]
  have hrest : refresh.run.run b w = (reads c).run.run b w := by
    rw [hrefresh, Operation.run_bind, hcredential]
  refine ⟨?_, fun v hv => ?_⟩
  · rw [hrest]
    cases hx : (b.read c Fetch.inOrder w.service).failure with
    | some e =>
      simp only [hx] at hrun
      exact .inl ⟨e, rfl, hrun⟩
    | none =>
      simp only [hx] at hrun
      obtain ⟨view, session, ⟨filter, hfilter, hview, rfl⟩, hrun⟩ := hrun
      exact .inr ⟨rfl, filter, view, hfilter, hview, hrun⟩
  · rw [hrefresh] at hv
    obtain hv | ⟨c', hc, hv⟩ := Operation.mem_worlds_bind hv
    · exact .inl (congrArg Session.seen (Operation.session_of_mem_worlds_credential hv))
    · rw [hcredential] at hc hv
      cases hc
      exact hworlds v hv

theorem refresh_session (b : Backend σ) (w : World σ) :
    (∃ e, (refresh.run.run b w).1 = .error e ∧
      (refresh.run.run b w).2.session = w.session.observe (.error e : Except ConsoleError Unit)) ∨
    ∃ view, (refresh.run.run b w).1 = .ok view ∧
      (refresh.run.run b w).2.session = w.session.see view.filterCreatedAt := by
  cases h : w.session.credential with
  | none =>
    rw [refresh_without_credential b h]
    exact .inl ⟨_, rfl, rfl⟩
  | some c =>
    obtain ⟨e, _, hrun⟩ | ⟨_, filter, view, _, hview, hrun⟩ := (refresh_with_credential b h).1
    · rw [hrun]
      exact .inl ⟨e, rfl, rfl⟩
    · rw [hrun]
      exact .inr ⟨view, rfl, by rw [hview]⟩

theorem refresh_sameSlot (b : Backend σ) (w : World σ) : (refresh.run.run b w).2.session.SameSlot w.session := by
  obtain ⟨e, _, h⟩ | ⟨view, _, h⟩ := refresh_session b w
  · rw [h]
    exact Session.sameSlot_observe _ _
  · rw [h]
    exact ⟨rfl, rfl⟩

theorem refresh_order (b : Backend σ) (w : World σ) :
    (refresh.run.run b w).2.session.order = w.session.order := by
  obtain ⟨e, _, h⟩ | ⟨view, _, h⟩ := refresh_session b w
  · rw [h, Session.observe_eq]
  · rw [h]
    rfl

theorem refresh_made (b : Backend σ) {w : World σ} {c : Credential} (h : w.session.credential = some c) :
    (refresh.run.run b w).2.calls = w.calls ++ (b.read c Fetch.inOrder w.service).made.map fun f => (c, .fetch f) := by
  have hlog : (refresh.run.run b w).2.log = (b.read c Fetch.inOrder w.service).log c ++ w.log := by
    obtain ⟨_, _, hrun⟩ | ⟨_, _, _, _, _, hrun⟩ := (refresh_with_credential b h).1
    · rw [hrun]
    · rw [hrun]
  simp [World.calls, hlog, Reading.log]

theorem refresh_calls (b : Backend σ) (w : World σ) :
    ∃ reads : List (Credential × Fetch),
      (refresh.run.run b w).2.calls = w.calls ++ reads.map fun r => (r.1, .fetch r.2) := by
  cases h : w.session.credential with
  | none =>
    rw [refresh_without_credential b h]
    exact ⟨[], by simp⟩
  | some c =>
    refine ⟨(b.read c Fetch.inOrder w.service).made.map (c, ·), ?_⟩
    rw [refresh_made b h, List.map_map]
    rfl

/-- A refresh reads in order up to the first failure, with the credential it found at its start. The failure is its
result and costs at most the credential; only after the last of six successful reads is the age of the filter noted. -/
theorem refresh_all_or_nothing (b : Backend σ) (w : World σ) :
    match w.session.credential with
    | none => refresh.run.run b w = (.error .missingCredential, w)
    | some c =>
      let x := b.read c Fetch.inOrder w.service
      let (result, after) := refresh.run.run b w
      after.service = x.service ∧ x.made <+: Fetch.inOrder ∧
      after.calls = w.calls ++ x.made.map (fun f => (c, .fetch f)) ∧
      (match x.failure with
        | some e => result = .error e ∧ after.session =
            { w.session with credential := if e = .unauthorized then none else w.session.credential }
        | none => ∃ filter view, (b.fetch c .filter w.service).1 = .ok filter ∧ result = .ok view ∧
            view.filterCreatedAt = filter.createdAt ∧ after.session = { w.session with seen := some filter.createdAt }) ∧
      ∀ n, let v := ((fun y => y.1.step b y.2)^[n] (refresh.run, w)).2
        v.session.seen = w.session.seen ∨
          x.failure = none ∧ v.calls = w.calls ++ Fetch.inOrder.map fun f => (c, .fetch f) := by
  cases h : w.session.credential with
  | none => exact refresh_without_credential b h
  | some c =>
    obtain ⟨hrun, hworlds⟩ := refresh_with_credential b h
    obtain ⟨hmade, hall⟩ := b.made_prefix c Fetch.inOrder w.service
    have hcalls : ∀ v : World σ, v.log = (b.read c Fetch.inOrder w.service).log c ++ w.log →
        v.calls = w.calls ++ (b.read c Fetch.inOrder w.service).made.map fun f => (c, .fetch f) := by
      intro v hv
      simp [World.calls, hv, Reading.log]
    have hsteps : ∀ n, let v := ((fun y => y.1.step b y.2)^[n] (refresh.run, w)).2
        v.session.seen = w.session.seen ∨ (b.read c Fetch.inOrder w.service).failure = none ∧
          v.calls = w.calls ++ Fetch.inOrder.map fun f => (c, .fetch f) := by
      intro n
      refine (hworlds _ (Program.iterate_step_mem_worlds b n _ w)).imp_right fun ⟨hx, hlog⟩ => ⟨hx, ?_⟩
      rw [hcalls _ hlog, hall hx]
    obtain ⟨e, hx, hrun⟩ | ⟨hx, filter, view, hfilter, hview, hrun⟩ := hrun
    · simp only [hx] at hsteps ⊢
      rw [hrun]
      refine ⟨rfl, hmade, hcalls _ rfl, ⟨rfl, ?_⟩, hsteps⟩
      rw [Session.observe_error, h]
    · simp only [hx] at hsteps ⊢
      rw [hrun]
      exact ⟨rfl, hmade, hcalls _ rfl, ⟨filter, view, hfilter, rfl, hview, rfl⟩, hsteps⟩

end FilterConsole
