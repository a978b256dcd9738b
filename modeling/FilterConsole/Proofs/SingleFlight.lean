import FilterConsole.Proofs.Scripted

/-! One slot for watching. Whoever acts and in whatever order, the slot has one holder at most, the session says
whether it has one, and a watch that ends for whatever reason leaves it free. -/

namespace FilterConsole

variable {σ δ : Type}

namespace Scene

theorem free_of_ended {limit : Option UInt32} {waits : Nat} {phase : Watch.Phase} {w : World σ}
    (h : Watch.SlotAfter limit waits w.session phase) (hended : (Upshot.ofPhase limit waits [] phase).1 ≠ .waits) :
    (Upshot.ofPhase limit waits [] phase).2 = [] ∧ w.session.Free := by
  cases phase with
  | waiting x => exact absurd rfl hended
  | finished r => cases r <;> exact ⟨rfl, h⟩

theorem move_taken (svc : Service σ δ) {s : Scene σ} (hs : s.Single) (h : s.holders ≠ []) :
    s.move svc (.deed .claim) = (.failed .updateInProgress, s) ∧
      ∀ limit cancelled, s.move svc (.deed (.watch limit cancelled)) = (.failed .updateInProgress, s) := by
  refine ⟨move_claim_taken svc (hs.of_ne_nil h), fun limit cancelled => ?_⟩
  rw [move_watch, Watch.run_start_rejected limit cancelled svc.toBackend (hs.of_ne_nil h)]
  rfl

/-- A watch that does not wait on has ended, and the slot is free. -/
theorem move_watch_ended (svc : Service σ δ) {s : Scene σ} (hs : s.Single) {d : Deed} (hd : d.IsWatch s.holders)
    (hended : (s.move svc (.deed d)).1 ≠ .waits) :
    (s.move svc (.deed d)).2.holders = [] ∧ (s.move svc (.deed d)).2.world.session.Free := by
  cases d with
  | watch limit cancelled =>
    have hnil : s.holders = [] := hd
    rw [move_watch, hnil] at hended ⊢
    exact free_of_ended (Watch.slotAfter_start limit cancelled svc.toBackend s.world (hs.of_nil hnil).1) hended
  | wake i how =>
    obtain ⟨limit, x, waits, hi⟩ := hd
    obtain ⟨_, _, hwatching, hshown⟩ := hs.of_getElem? hi
    cases how with
    | elapsed =>
      rw [move_wake_elapsed svc hi, hs.eraseIdx hi] at hended ⊢
      exact free_of_ended (Watch.slotAfter_poll limit x waits svc.toBackend s.world hwatching hshown) hended
    | cancelled =>
      rw [move_wake_cancelled svc hi, hs.eraseIdx hi]
      exact ⟨rfl, Session.free_release _⟩
  | _ => exact hd.elim

end Scene

namespace Script

/-- A step that leaves the slot free leaves no watch to be seen. -/
theorem Stage.play_idle (svc : Service σ δ) {s : Stage σ} {steps : List (Step δ)} {entries : List Entry}
    (hs : (s.scene []).Single) (h : s.play svc steps = some entries) :
    ∀ e ∈ entries, e.session.watching = false → e.session.update = .idle := by
  induction steps generalizing s entries with
  | nil =>
    cases h
    simp
  | cons step rest ih =>
    obtain ⟨⟨entry, s'⟩, hstep, hrest⟩ := Option.bind_eq_some_iff.mp h
    obtain ⟨others, hothers, hentries⟩ := Option.bind_eq_some_iff.mp hrest
    cases hentries
    obtain ⟨hleads, hsession⟩ := s.step_leads svc hs hstep
    have hs' : (s'.scene []).Single := hleads.single hs
    refine List.forall_mem_cons.mpr ⟨fun hfree => ?_, ih hs' hothers⟩
    rw [hsession] at hfree ⊢
    exact (hs'.of_nil (hs'.eq_nil hfree)).2

end Script

/-- At most one holder has the slot at any time. Without one the session is idle and the next claim succeeds; with one,
every claim and every watch is rejected and changes nothing. A watch with a limit shows how often it has waited, and one
that ends, for whatever reason, leaves the slot free. A script too is idle after each step that leaves it free. -/
theorem single_flight (svc : Service σ δ) (order : HitOrder) (credential : Option Credential) (service : σ)
    (moves : List (Move δ)) :
    let s := (Scene.start order credential service).after svc moves
    s.holders.length ≤ 1 ∧
    (s.holders = [] → s.world.session.update = .idle ∧
      s.move svc (.deed .claim) = (.done, ⟨s.world.mapSession (·.claim), [.claimant]⟩)) ∧
    (s.holders ≠ [] → s.move svc (.deed .claim) = (.failed .updateInProgress, s) ∧
      ∀ limit cancelled, s.move svc (.deed (.watch limit cancelled)) = (.failed .updateInProgress, s)) ∧
    (∀ n x waits, .watch (some n) x waits ∈ s.holders →
      ∃ polls, s.world.session.update = .polling polls ∧ polls.toNat = waits) ∧
    (∀ d : Deed, d.IsWatch s.holders → (s.move svc (.deed d)).1 ≠ .waits →
      (s.move svc (.deed d)).2.holders = [] ∧ (s.move svc (.deed d)).2.world.session.watching = false ∧
        (s.move svc (.deed d)).2.world.session.update = .idle) ∧
    ∀ (steps : List (Script.Step δ)) (entries : List Script.Entry),
      (Script.Stage.initial credential order service).play svc steps = some entries →
      ∀ e ∈ entries, e.session.watching = false → e.session.update = .idle := by
  intro s
  have hs : s.Single := Scene.after_keeps (Scene.single_move svc) (Scene.single_start order credential service) moves
  refine ⟨hs.length_le, fun h => ?_, Scene.move_taken svc hs, fun n x waits h => ?_,
    fun d hd => Scene.move_watch_ended svc hs hd,
    fun _ _ => Script.Stage.play_idle svc (Scene.single_start order credential service)⟩
  · obtain ⟨hwatching, hupdate⟩ := hs.of_nil h
    exact ⟨hupdate, by rw [Scene.move_claim_free svc hwatching, h]⟩
  · obtain ⟨i, hi⟩ := List.getElem?_of_mem h
    obtain ⟨_, _, _, hupdate, hpolls, hwaits⟩ := hs.of_getElem? hi
    refine ⟨x.polls, hupdate, ?_⟩
    rw [hpolls, UInt32.toNat_ofNat_of_lt' (Nat.lt_trans (hwaits n rfl) n.toNat_lt)]

end FilterConsole
