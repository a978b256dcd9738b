import FilterConsole.Proofs.Contents
import FilterConsole.Proofs.Scene

/-! Reading one's writes. What a service has stored is what the accepted commands of a run have made of it, one after
the other, whatever else has failed; and so are the views that the run answers. -/

namespace FilterConsole

variable {σ δ : Type}

namespace Watch

def Shows (contents : σ → Contents) (s : σ) : Phase → Prop
  | .finished (.ok o) => o.view.contents = contents s
  | _ => True

variable {b : Backend σ} {contents : σ → Contents}

theorem shows_look {limit : Option UInt32} {x : Waiting} {look : Except ConsoleError View × World σ}
    (hlook : ∀ v, look.1 = .ok v → v.contents = contents look.2.service) (w : World σ) :
    let (phase, v) :=
      if Decisive x.seen look.1 ∨ isExhausted limit x.polls then
        (.finished (verdict x.seen x.polls look.1), look.2.mapSession (·.release))
      else (.waiting x, w)
    Shows contents v.service phase := by
  by_cases hstop : Decisive x.seen look.1 ∨ isExhausted limit x.polls = true
  · rw [if_pos hstop]
    obtain ⟨e | view, v⟩ := look
    · trivial
    · dsimp only
      rw [verdict]
      split
      · exact hlook view rfl
      · trivial
  · rw [if_neg hstop]
    trivial

theorem shows_poll (hb : b.StoreLike contents) (limit : Option UInt32) (x : Waiting) (w : World σ) :
    let (phase, v) := (poll limit x).run b w
    Shows contents v.service phase := by
  rw [run_poll]
  exact shows_look (x := ⟨x.seen, x.polls + 1⟩) (fun _ => hb.refresh_view) _

theorem shows_start (hb : b.StoreLike contents) (limit : Option UInt32) (cancelled : Bool) (w : World σ) :
    let (phase, v) := (start limit cancelled).run b w
    Shows contents v.service phase := by
  obtain ⟨_, h⟩ | ⟨_, ⟨_, h⟩ | ⟨_, ⟨_, h⟩ | ⟨c, _, ⟨e, s, _, h⟩ | ⟨s, _, h⟩⟩⟩⟩ := start_cases limit b cancelled w
  · rw [h]
    trivial
  · rw [h]
    trivial
  · rw [h]
    trivial
  · rw [h]
    trivial
  · rw [h]
    exact shows_look (x := ⟨w.session.seen, 0⟩) (fun _ => hb.refresh_view) _

end Watch

namespace Upshot

def view? : Upshot → Option View
  | view v => some v
  | watched o => some o.view
  | _ => none

variable {contents : σ → Contents} {s : σ} {v : View}

theorem contents_of_view {r : Except ConsoleError View} (hr : ∀ v, r = .ok v → v.contents = contents s)
    (h : (ofView r).view? = some v) : v.contents = contents s := by
  cases r with
  | error e => cases h
  | ok view =>
    cases h
    exact hr v rfl

theorem contents_of_phase {limit : Option UInt32} {waits : Nat} {others : List Holder} {phase : Watch.Phase}
    (hp : Watch.Shows contents s phase) (h : (ofPhase limit waits others phase).1.view? = some v) :
    v.contents = contents s := by
  cases phase with
  | waiting x => cases h
  | finished r =>
    cases r with
    | error e => cases h
    | ok o =>
      cases h
      exact hp

end Upshot

namespace Scene

def accepted? (svc : Service σ δ) (s : Scene σ) : Move δ → Option Command
  | .deed (.command c) => if c.run.run.accepted svc.toBackend s.world = [] then none else some c
  | _ => none

def accepted (svc : Service σ δ) (s : Scene σ) : List (Move δ) → List Command
  | [] => []
  | m :: moves => (s.accepted? svc m).toList ++ (s.move svc m).2.accepted svc moves

theorem accepted_append (svc : Service σ δ) (s : Scene σ) (u v : List (Move δ)) :
    s.accepted svc (u ++ v) = s.accepted svc u ++ (s.after svc u).accepted svc v := by
  induction u generalizing s with
  | nil => rfl
  | cons m u ih => rw [List.cons_append, accepted, accepted, after_cons, ih, List.append_assoc]

theorem not_view_of_quiet {svc : Service σ δ} {s : Scene σ} {d : Deed} (hd : d.Quiet) {v : View} :
    (s.move svc (.deed d)).1.view? ≠ some v := by
  obtain ⟨_, h | ⟨o, h⟩ | h⟩ := s.move_quiet svc hd
  · rw [h]
    exact nofun
  · rw [h]
    exact nofun
  · rw [h]
    exact nofun

section Contents

variable {svc : Service σ δ} {contents : σ → Contents} (hstore : svc.toBackend.StoreLike contents)
include hstore

theorem move_contents (s : Scene σ) (d : Deed) :
    contents (s.move svc (.deed d)).2.world.service =
      (s.accepted? svc (.deed d)).toList.foldl Command.effect (contents s.world.service) := by
  by_cases h : ∃ c, d = .command c
  · obtain ⟨c, rfl⟩ := h
    rw [move_command, hstore.run_command, accepted?]
    split <;> rfl
  · have hnone : s.accepted? svc (.deed d) = none := by
      cases d with
      | command c => exact absurd ⟨c, rfl⟩ h
      | _ => rfl
    rw [hnone]
    exact hstore.run_rebuild (d.writes s.holders fun c hc => h ⟨c, hc⟩) s.world

/-- After a run the service has stored what the accepted commands have made of it. -/
theorem after_contents (s : Scene σ) (moves : List (Move δ))
    (hmoves : ∀ d, .change d ∈ moves → ∀ x, contents (svc.change d x) = contents x) :
    contents (s.after svc moves).world.service =
      (s.accepted svc moves).foldl Command.effect (contents s.world.service) := by
  induction moves generalizing s with
  | nil => rfl
  | cons m moves ih =>
    have hm : contents (s.move svc m).2.world.service =
        (s.accepted? svc m).toList.foldl Command.effect (contents s.world.service) := by
      cases m with
      | change d => exact hmoves d List.mem_cons_self s.world.service
      | deed d => exact move_contents hstore s d
    rw [after_cons, ih _ fun d hd => hmoves d (List.mem_cons_of_mem m hd), hm, accepted, List.foldl_append]

/-- Except by re-sorting a view, nothing answers a view that does not show what is stored. -/
theorem move_view {s : Scene σ} {d : Deed} (hd : ∀ view field, d ≠ .resort view field) {v : View}
    (h : (s.move svc (.deed d)).1.view? = some v) :
    v.contents = contents (s.move svc (.deed d)).2.world.service := by
  cases d with
  | refresh =>
    rw [move_refresh] at h ⊢
    exact Upshot.contents_of_view (fun _ => hstore.refresh_view) h
  | command c =>
    rw [move_command] at h ⊢
    exact Upshot.contents_of_view (fun _ => hstore.command_view) h
  | watch limit cancelled =>
    rw [move_watch] at h ⊢
    exact Upshot.contents_of_phase (Watch.shows_start hstore limit cancelled s.world) h
  | wake i how =>
    by_cases hi : ∃ limit x waits, s.holders[i]? = some (.watch limit x waits)
    · obtain ⟨limit, x, waits, hi⟩ := hi
      cases how with
      | elapsed =>
        rw [move_wake_elapsed svc hi] at h ⊢
        exact Upshot.contents_of_phase (Watch.shows_poll hstore limit x s.world) h
      | cancelled =>
        rw [move_wake_cancelled svc hi] at h
        cases h
    · rw [move_wake_of_not_watch svc fun limit x waits hw => hi ⟨limit, x, waits, hw⟩] at h
      cases h
  | observe r => cases r <;> cases h
  | resort view field => exact absurd rfl (hd view field)
  | _ => exact absurd h (not_view_of_quiet (by trivial))

end Contents

end Scene

/-- A service that stores has stored what the accepted commands of a run have made of its first contents, in order; a
command is accepted if its write is, whatever it answers, and one with bad arguments, without a credential or with a
failing write has no effect. Every view answered by a refresh, a command or a watch shows just that. A re-sorted view has
the contents of the view it is made of. An override replaces the entry of its name and touches no other. -/
theorem view_shows_accepted (svc : Service σ δ) (contents : σ → Contents) (hstore : svc.toBackend.StoreLike contents)
    (s : Scene σ) (moves : List (Move δ))
    (hmoves : ∀ d, .change d ∈ moves → ∀ x, contents (svc.change d x) = contents x) :
    let now := s.after svc moves
    let stored := fun moves => (s.accepted svc moves).foldl Command.effect (contents s.world.service)
    contents now.world.service = stored moves ∧
    (∀ d : Deed, (∀ view field, d ≠ .resort view field) → ∀ v, (now.move svc (.deed d)).1.view? = some v →
      v.contents = stored (moves ++ [.deed d])) ∧
    (∀ view field, ∃ v, (now.move svc (.deed (.resort view field))).1 = .view v ∧ v.contents = view.contents) ∧
    (∀ command, now.accepted? svc (.deed (.command command)) = some command ↔
      ∃ wr c, command.write = .ok wr ∧ now.world.session.credential = some c ∧
        (svc.write c wr now.world.service).1 = .ok ()) ∧
    ∀ (x : Contents) domain address,
      let y := Command.effect x (.setOverride domain address)
      y.overrides.entries.filter (·.1 == trim domain) = [(trim domain, address)] ∧
        y.overrides.erase (trim domain) = x.overrides.erase (trim domain) ∧
        y.allowList = x.allowList ∧ y.autoUpdate = x.autoUpdate := by
  intro now stored
  have hnow : contents now.world.service = stored moves := Scene.after_contents hstore s moves hmoves
  refine ⟨hnow, fun d hd v hv => ?_, fun view field => ⟨_, rfl, rfl⟩, fun command => ?_, fun x domain address => ?_⟩
  · -- The last deed counts as well: it may be a command that answers the view.
    rw [Scene.move_view hstore hd hv, Scene.move_contents hstore now d, hnow]
    simp only [stored, s.accepted_append, List.foldl_append, Scene.accepted, List.append_nil, now]
  · rw [← Command.accepted_ne_nil_iff, Scene.accepted?]
    split
    · next h => simp [h]
    · next h => simp [h]
  · obtain ⟨hone, hothers⟩ := x.overrides.insert_spec (trim domain) address
    exact ⟨hone, hothers, rfl, rfl⟩

/-- The refresh after the first command fails, and so does the second command; of two overrides of a name the later one
stays. -/
theorem view_shows_accepted_after_failures :
    let c : Credential := ⟨"secret", by decide +kernel⟩
    let down : StoreChange := { failures := [("fetch_filter", some (.transport (.reported "down")))] }
    let up : StoreChange := { failures := [("fetch_filter", none)] }
    let moves : List (Move StoreChange) := [.change down, .deed (.command (.allow " a.com ")), .change up,
      .deed (.command (.allow "b c")), .deed (.command (.setOverride "a.com" ⟨1, 2, 3, 4⟩)),
      .deed (.command (.setOverride "a.com" ⟨5, 6, 7, 8⟩))]
    let s : Scene Store := .start ⟨.updatedAt, .desc⟩ (some c) Store.initial
    Store.service.toBackend.StoreLike Store.contents ∧
      (∀ d, .change d ∈ moves → ∀ x : Store, (Store.service.change d x).contents = x.contents) ∧
      s.accepted Store.service moves = [.allow " a.com ", .setOverride "a.com" ⟨1, 2, 3, 4⟩,
        .setOverride "a.com" ⟨5, 6, 7, 8⟩] ∧
      ∃ v, ((s.after Store.service moves).move Store.service (.deed .refresh)).1.view? = some v ∧
        v.contents = ⟨.ofNames ["a.com"], .ofList [("a.com", ⟨5, 6, 7, 8⟩)], .disabled⟩ := by
  intro c down up moves s
  have hmoves : ∀ d, .change d ∈ moves → ∀ x : Store, (Store.service.change d x).contents = x.contents := by
    intro d hd x
    simp only [moves, List.mem_cons, Move.change.injEq, reduceCtorEq, List.not_mem_nil, or_false, false_or] at hd
    obtain rfl | rfl := hd <;> rfl
  obtain ⟨_, hview, _⟩ := view_shows_accepted Store.service Store.contents Store.storeLike s moves hmoves
  have haccepted : s.accepted Store.service moves = [.allow " a.com ", .setOverride "a.com" ⟨1, 2, 3, 4⟩,
      .setOverride "a.com" ⟨5, 6, 7, 8⟩] := by decide +kernel
  have hlast : s.accepted Store.service (moves ++ [.deed .refresh]) = s.accepted Store.service moves := by
    decide +kernel
  obtain ⟨v, hv⟩ := Option.isSome_iff_exists.mp (by decide +kernel :
    ((s.after Store.service moves).move Store.service (.deed .refresh)).1.view?.isSome = true)
  refine ⟨Store.storeLike, hmoves, haccepted, v, hv, ?_⟩
  rw [hview .refresh (by simp) v hv]
  dsimp only
  rw [hlast, haccepted]
  decide +kernel

/-- A view shown before a command whose refresh failed, re-sorted after it, does not show what the command has done. -/
theorem resorted_view_lacks_accepted :
    let c : Credential := ⟨"secret", by decide +kernel⟩
    let down : StoreChange := { failures := [("fetch_filter", some (.transport (.reported "down")))] }
    let moves : List (Move StoreChange) := [.deed .refresh, .change down, .deed (.command (.allow "a"))]
    let s : Scene Store := .start ⟨.updatedAt, .desc⟩ (some c) Store.initial
    ∃ v, (s.move Store.service (.deed .refresh)).1 = .view v ∧
      s.accepted Store.service moves = [.allow "a"] ∧
      ∃ v', ((s.after Store.service moves).move Store.service (.deed (.resort v .count))).1 = .view v' ∧
        v'.allowList = ∅ ∧
        ((s.accepted Store.service moves).foldl Command.effect s.world.service.contents).allowList ≠ ∅ := by
  intro c down moves s
  refine ⟨_, rfl, by decide +kernel, _, rfl, rfl, by decide +kernel⟩

end FilterConsole
