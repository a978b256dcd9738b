import FilterConsole.Proofs.Slot
import FilterConsole.Proofs.Verdict

/-! Scripts as runs of scenes: whatever a script does, also during the waits of a watch, moves of its scene do. -/

namespace FilterConsole

variable {σ δ τ : Type}

open Scene (Leads)

theorem Scene.Leads.single {svc : Service σ δ} {s s' : Scene σ} (h : Leads svc s s') (hs : s.Single) : s'.Single :=
  h.keeps (Scene.single_move svc) hs

namespace Watch

/-- What happens during the waits of a watch is a run of the scene, in which others may hold the slot beside the watch. -/
def WaitsLead (svc : Service σ δ) (held : τ → List Holder) (wait : Surroundings τ σ) : Prop :=
  ∀ t w holder, (⟨w, holder :: held t⟩ : Scene σ).Single →
    Leads svc ⟨w, holder :: held t⟩ ⟨(wait t w).2.2, holder :: held (wait t w).2.1⟩

section Leads

variable {svc : Service σ δ} {wait : Surroundings τ σ} {held : τ → List Holder} {limit : Option UInt32} {fuel : Nat}
  {t t' : τ} {w w' : World σ} {r : Except ConsoleError UpdateOutcome}

theorem follow_leads (hwait : WaitsLead svc held wait)
    {phase : Phase} (waits : Nat) (hs : (⟨w, (Upshot.ofPhase limit waits (held t) phase).2⟩ : Scene σ).Single)
    (h : follow svc.toBackend limit wait fuel phase t w = some (r, t', w')) :
    Leads svc ⟨w, (Upshot.ofPhase limit waits (held t) phase).2⟩ ⟨w', held t'⟩ := by
  -- By the looks left. The watch stays the first holder through each wait, so waking it is a move.
  induction fuel generalizing phase waits t w with
  | zero =>
    cases phase with
    | waiting x => cases h
    | finished r =>
      cases h
      cases r <;> exact .refl _
  | succ fuel ih =>
    cases phase with
    | finished r =>
      cases h
      cases r <;> exact .refl _
    | waiting x =>
      have hwaited := hwait t w (.watch limit x waits) hs
      have hs' := hwaited.single hs
      refine .trans hwaited ?_
      rcases hw : wait t w with ⟨wake, t₁, w₁⟩
      rw [follow, hw] at h
      rw [hw] at hs'
      cases wake with
      | elapsed =>
        have hmove := Scene.move_wake_elapsed svc (s := ⟨w₁, .watch limit x waits :: held t₁⟩) (i := 0) rfl
        have hpoll := Leads.of_move (.deed (.wake 0 .elapsed)) (congrArg Prod.snd hmove)
        exact hpoll.trans (ih (waits + 1) (hpoll.single hs') h)
      | cancelled =>
        have hmove := Scene.move_wake_cancelled svc (s := ⟨w₁, .watch limit x waits :: held t₁⟩) (i := 0) rfl
        have hcancel := Leads.of_move (.deed (.wake 0 .cancelled)) (congrArg Prod.snd hmove)
        exact hcancel.trans (ih waits (hcancel.single hs') h)

theorem run_leads (hwait : WaitsLead svc held wait)
    {cancelled : Bool} (hs : (⟨w, held t⟩ : Scene σ).Single)
    (h : run svc.toBackend limit cancelled wait fuel t w = some (r, t', w')) :
    Leads svc ⟨w, held t⟩ ⟨w', held t'⟩ := by
  have hmove := Scene.move_watch svc ⟨w, held t⟩ limit cancelled
  have hstart := Leads.of_move (.deed (.watch limit cancelled)) (congrArg Prod.snd hmove)
  exact hstart.trans (follow_leads hwait 0 (hstart.single hs) h)

end Leads

end Watch

namespace Script

def claims : Bool → List Holder
  | true => [.claimant]
  | false => []

def Stage.scene (others : List Holder) (s : Stage σ) : Scene σ := ⟨s.world, others ++ claims s.holding⟩

namespace Stage

variable {others : List Holder} {s : Stage σ}

theorem scene_of_holding (hs : (s.scene others).Single) (h : s.holding = true) :
    others = [] ∧ (s.scene others).holders = [.claimant] := by
  have hlen := hs.length_le
  rw [scene, h, List.length_append] at hlen
  have hothers : others = [] := List.length_eq_zero_iff.mp (by simpa [claims] using hlen)
  subst hothers
  exact ⟨rfl, by rw [scene, h]; rfl⟩

theorem scene_of_free (hs : (s.scene others).Single) (h : s.world.session.watching = false) :
    others = [] ∧ s.holding = false := by
  obtain ⟨hothers, hclaims⟩ := List.append_eq_nil_iff.mp (hs.eq_nil h)
  cases hh : s.holding with
  | true =>
    rw [hh] at hclaims
    cases hclaims
  | false => exact ⟨hothers, rfl⟩

theorem perform_scene (b : Backend σ) (operation : Operation View) :
    (s.perform b operation).2.scene others = ⟨(operation.run.run b s.world).2, (s.scene others).holders⟩ := by
  unfold perform
  obtain ⟨e | v, w⟩ := operation.run.run b s.world <;> rfl

/-- An action is a move, or nothing. -/
theorem act_leads (svc : Service σ δ) (hs : (s.scene others).Single) (a : Action δ) :
    Leads svc (s.scene others) ((s.act svc a).2.scene others) := by
  cases a with
  | change d => exact .of_move (.change d) rfl
  | login secret =>
    rw [act]
    cases Credential.ofSecret? secret with
    | none => exact .refl _
    | some c => exact .of_move (.deed (.login c)) rfl
  | logout => exact .of_move (.deed .logout) rfl
  | look => exact .refl _
  | refresh =>
    refine .of_move (.deed .refresh) ?_
    rw [Scene.move_refresh, act, perform_scene]
    rfl
  | resort field =>
    rw [act]
    cases s.view with
    | none => exact .refl _
    | some v => exact .of_move (.deed (.resort v field)) rfl
  | toggle field => exact .of_move (.deed (.toggle field)) rfl
  | setOrder order => exact .of_move (.deed (.setOrder order)) rfl
  | command c =>
    refine .of_move (.deed (.command c)) ?_
    rw [Scene.move_command, act, perform_scene]
    rfl
  | observe error =>
    cases error with
    | none => exact .refl _
    | some e => exact .of_move (.deed (.observe (.error e))) rfl
  | see createdAt => exact .of_move (.deed (.see createdAt)) rfl
  | claim =>
    rw [act]
    by_cases h : s.world.session.watching = true
    · rw [if_pos h]
      exact .refl _
    · have hw : s.world.session.watching = false := Bool.eq_false_iff.mpr h
      obtain ⟨rfl, hh⟩ := scene_of_free hs hw
      rw [if_neg h]
      refine .of_move (.deed .claim) ?_
      have hclaim := Scene.move_claim_free svc (s := s.scene []) hw
      rw [hclaim, scene, hh]
      rfl
  | setPolls polls =>
    rw [act]
    cases h : s.holding with
    | false => exact .refl _
    | true =>
      obtain ⟨_, hone⟩ := scene_of_holding hs h
      have hfirst : (s.scene others).holders[0]? = some .claimant := by rw [hone]; rfl
      exact .of_move _ (congrArg Prod.snd (Scene.move_setUpdate_claimant svc hfirst (.polling polls)))
  | release =>
    rw [act]
    cases h : s.holding with
    | false => exact .refl _
    | true =>
      obtain ⟨rfl, hone⟩ := scene_of_holding hs h
      have hfirst : (s.scene []).holders[0]? = some .claimant := by rw [hone]; rfl
      refine .of_move _ ((congrArg Prod.snd (Scene.move_release_claimant svc hfirst)).trans ?_)
      rw [hone]
      rfl

end Stage

namespace Clock

def scene (others : List Holder) (t : Clock δ) (w : World σ) : Scene σ := (Stage.mk w t.holding t.view).scene others

variable (others : List Holder) {t : Clock δ} {w : World σ}

theorem happen_leads (svc : Service σ δ) (hs : (t.scene others w).Single) (o : Occurrence δ) :
    Leads svc (t.scene others w) ((t.happen svc w o).1.scene others (t.happen svc w o).2) := by
  cases o with
  | cancel => exact .refl _
  | action a => exact Stage.act_leads svc hs a
  | watch policy cancelled =>
    rw [happen]
    cases h : Watch.run svc.toBackend policy.limit cancelled (undisturbed policy) Watch.looks t.now w with
    | none => exact .refl _
    | some result =>
      obtain ⟨r, now, w'⟩ := result
      have hwait : Watch.WaitsLead svc (fun _ => (t.scene others w).holders) (undisturbed policy) :=
        fun _ _ _ _ => .refl _
      have hwatched := Watch.run_leads hwait hs h
      exact hwatched

theorem await_leads (svc : Service σ δ) (hs : (t.scene others w).Single) (deadline : Nat) (cancelled : Bool)
    (events : List (Event δ)) :
    Leads svc (t.scene others w) ((await svc deadline cancelled events t w).2.1.scene others
      (await svc deadline cancelled events t w).2.2) := by
  induction events generalizing cancelled t w with
  | nil => cases cancelled <;> exact .refl _
  | cons e rest ih =>
    have hhappen := happen_leads others (t := { t with now := max t.now e.atMs }) svc hs e.occurrence
    rw [await]
    dsimp only
    split
    · exact .refl _
    · split
      · exact .refl _
      · exact hhappen.trans (ih (hhappen.single hs) _)

theorem foldl_happen_leads (svc : Service σ δ) {u : Clock δ × World σ} (hu : (u.1.scene others u.2).Single)
    (events : List (Event δ)) :
    let v := events.foldl (fun u e => { u.1 with now := max u.1.now e.atMs }.happen svc u.2 e.occurrence) u
    Leads svc (u.1.scene others u.2) (v.1.scene others v.2) := by
  induction events generalizing u with
  | nil => exact .refl _
  | cons e rest ih =>
    have hhappen := happen_leads others (t := { u.1 with now := max u.1.now e.atMs }) svc hu e.occurrence
    exact hhappen.trans (ih (hhappen.single hu))

theorem finish_leads (svc : Service σ δ) (hs : (t.scene others w).Single) :
    Leads svc (t.scene others w) ((t.finish svc w).1.scene others (t.finish svc w).2) :=
  foldl_happen_leads others svc (u := ({ t with ahead := [] }, w)) hs t.ahead

end Clock

theorem Stage.watch_leads (svc : Service σ δ) {s s' : Stage σ} {policy : WatchPolicy} {cancelled : Bool}
    {events : List (Event δ)} {report : WatchReport} (hs : (s.scene []).Single)
    (h : s.watch svc policy cancelled events = some (report, s')) : Leads svc (s.scene []) (s'.scene []) := by
  have hwait : Watch.WaitsLead svc (fun t : Clock δ => claims t.holding) (Clock.surroundings svc policy) :=
    fun _ _ holder ht => Clock.await_leads [holder] svc ht _ _ _
  rw [watch] at h
  cases hrun : Watch.run svc.toBackend policy.limit cancelled (Clock.surroundings svc policy) Watch.looks
      ⟨0, events, [], s.holding, s.view⟩ s.world with
  | none =>
    rw [hrun] at h
    cases h
  | some result =>
    obtain ⟨r, t, w⟩ := result
    rw [hrun] at h
    have hrun_leads := Watch.run_leads hwait hs hrun
    have hwatched : Leads svc (s.scene []) (t.scene [] w) := hrun_leads
    have hfinish (view : Option View) := Clock.finish_leads [] (t := { t with view }) svc (hwatched.single hs)
    cases r with
    | ok o =>
      cases h
      exact hwatched.trans (hfinish (some o.view))
    | error e =>
      cases h
      exact hwatched.trans (hfinish t.view)

def Stage.anew (s : Stage σ) : Stage σ := { s with world := { s.world with log := [] } }

theorem Stage.step_action (svc : Service σ δ) (s : Stage σ) (a : Action δ) :
    s.step svc (.action a) =
      some (⟨.outcome (s.anew.act svc a).1, (s.anew.act svc a).2.world.calls, (s.anew.act svc a).2.world.session⟩,
        (s.anew.act svc a).2) := rfl

theorem Stage.step_watch (svc : Service σ δ) (s : Stage σ) (policy : WatchPolicy) (cancelled : Bool)
    (events : List (Event δ)) :
    s.step svc (.watch policy cancelled events) = (s.anew.watch svc policy cancelled events).map fun x =>
      (⟨.watch x.1, x.2.world.calls, x.2.world.session⟩, x.2) := by
  unfold step
  simp only [Option.bind_eq_bind, Option.bind_map]
  rw [Option.map_eq_bind]
  rfl

/-- A step of a script is a run of its scene, and shows the session that comes of it. -/
theorem Stage.step_leads (svc : Service σ δ) {s s' : Stage σ} {step : Step δ} {entry : Entry}
    (hs : (s.scene []).Single) (h : s.step svc step = some (entry, s')) :
    Leads svc (s.anew.scene []) (s'.scene []) ∧ entry.session = s'.world.session := by
  have hanew : (s.anew.scene []).Single := hs
  cases step with
  | action a =>
    rw [step_action] at h
    cases h
    exact ⟨act_leads svc hanew a, rfl⟩
  | watch policy cancelled events =>
    rw [step_watch] at h
    obtain ⟨⟨report, v⟩, hwatch, hv⟩ := Option.map_eq_some_iff.mp h
    cases hv
    exact ⟨watch_leads svc hanew hwatch, rfl⟩

end Script

end FilterConsole
