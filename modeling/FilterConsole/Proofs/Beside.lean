import FilterConsole.Console
import FilterConsole.Proofs.Effects

/-! What is kept beside a service makes no difference. A run over a service that has more to its states is a run over
the service without it, as soon as what was added is forgotten. -/

namespace FilterConsole

variable {α ρ σ τ υ : Type}

/-- The service `b'` is `b` with more to its states, which `π` forgets. -/
structure Backend.Refines (b' : Backend υ) (π : υ → σ) (b : Backend σ) : Prop where
  fetch : ∀ c f s, b.fetch c f (π s) = ((b'.fetch c f s).1, π (b'.fetch c f s).2)
  write : ∀ c wr s, b.write c wr (π s) = ((b'.write c wr s).1, π (b'.write c wr s).2)

def World.mapService (π : υ → σ) (w : World υ) : World σ := ⟨w.session, π w.service, w.log⟩

section Refines

variable {b' : Backend υ} {π : υ → σ} {b : Backend σ}

theorem Program.run_refines (h : b'.Refines π b) (p : Program α) (w : World υ) :
    p.run b (w.mapService π) = ((p.run b' w).1, (p.run b' w).2.mapService π) := by
  induction p generalizing w with
  | done a => rfl
  | access change next ih => exact ih w.session (w.mapSession change)
  | fetch c f next ih =>
    change (next (b.fetch c f (π w.service)).1).run b
      ⟨w.session, (b.fetch c f (π w.service)).2, (c, .fetch f) :: w.log⟩ = _
    rw [h.fetch]
    exact ih (b'.fetch c f w.service).1 ⟨w.session, (b'.fetch c f w.service).2, (c, .fetch f) :: w.log⟩
  | write c wr next ih =>
    change (next (b.write c wr (π w.service)).1).run b
      ⟨w.session, (b.write c wr (π w.service)).2, (c, .write wr) :: w.log⟩ = _
    rw [h.write]
    exact ih (b'.write c wr w.service).1 ⟨w.session, (b'.write c wr w.service).2, (c, .write wr) :: w.log⟩

namespace Watch

/-- Waits that leave alone what `π` forgets, but for what they do to it by themselves. -/
def Surroundings.Refines (wait' : Surroundings τ υ) (π : υ → σ) (wait : Surroundings τ σ) : Prop :=
  ∀ t w, wait t (w.mapService π) = ((wait' t w).1, (wait' t w).2.1, (wait' t w).2.2.mapService π)

variable {wait' : Surroundings τ υ} {wait : Surroundings τ σ}

theorem follow_refines (h : b'.Refines π b) (hwait : wait'.Refines π wait) (limit : Option UInt32) (looks : Nat)
    (phase : Phase) (t : τ) (w : World υ) :
    follow b limit wait looks phase t (w.mapService π) =
      (follow b' limit wait' looks phase t w).map fun x => (x.1, x.2.1, x.2.2.mapService π) := by
  induction looks generalizing phase t w with
  | zero => cases phase <;> rfl
  | succ looks ih =>
    cases phase with
    | finished result => rfl
    | waiting x =>
      rw [follow, follow, hwait]
      rcases wait' t w with ⟨wake, t, w⟩
      cases wake with
      | elapsed =>
        dsimp only
        rw [Program.run_refines h]
        exact ih _ _ _
      | cancelled =>
        dsimp only
        rw [Program.run_refines h]
        exact ih _ _ _

theorem run_refines (h : b'.Refines π b) (hwait : wait'.Refines π wait) (limit : Option UInt32) (cancelled : Bool)
    (looks : Nat) (t : τ) (w : World υ) :
    run b limit cancelled wait looks t (w.mapService π) =
      (run b' limit cancelled wait' looks t w).map fun x => (x.1, x.2.1, x.2.2.mapService π) := by
  rw [run, Program.run_refines h]
  exact follow_refines h hwait limit looks _ t _

end Watch

theorem Task.run_refines (h : b'.Refines π b) {wait' : Watch.Surroundings τ υ} {wait : Watch.Surroundings τ σ}
    (hwait : wait'.Refines π wait) (limit : Option UInt32) (looks : Nat) (task : Task) (t : τ) (w : World υ) :
    task.run b limit wait looks t (w.mapService π) =
      (task.run b' limit wait' looks t w).map fun x => (x.1, x.2.mapService π) := by
  cases task with
  | «show» sort direction => exact congrArg some (Program.run_refines h _ w)
  | change command => exact congrArg some (Program.run_refines h _ w)
  | updateFilter =>
    rw [run, run, Program.run_refines h]
    rcases refresh.run.run b' w with ⟨e | view, v⟩
    · rfl
    · dsimp only
      rw [Watch.run_refines h hwait, Option.map_map, Option.map_map]
      rfl

end Refines

/-- Keeping the deliveries beside the states of a network changes nothing about it. -/
theorem Http.Client.keeping_refines (client : Http.Client) (network : Http.Network σ) :
    (client.backend network.keeping).Refines Prod.fst (client.backend network) := by
  have hsend : ∀ request (s : σ × List Http.Delivery), Http.send network request s.1 =
      ((Http.send network.keeping request s).1, (Http.send network.keeping request s).2.1) := by
    rintro (_ | r) ⟨s, kept⟩ <;> rfl
  constructor
  · intro c f s
    simp only [Http.Client.backend, hsend]
  · intro c wr s
    simp only [Http.Client.backend, hsend]

theorem Watch.beside_refines (wait : Watch.Surroundings τ σ) :
    (wait.beside : Watch.Surroundings τ (σ × ρ)).Refines Prod.fst wait := fun _ _ => rfl

/-- A task comes to the same over a network whose deliveries are kept. -/
theorem Config.perform_keeping (c : Config) (network : Http.Network σ) (wait : Watch.Surroundings τ σ) (looks : Nat)
    (task : Task) (t : τ) (s : σ) (kept : List Http.Delivery) :
    c.perform network wait looks task t s =
      (c.perform network.keeping wait.beside looks task t (s, kept)).map fun x =>
        (x.1, x.2.mapService Prod.fst) :=
  Task.run_refines ((Http.Client.ofApi c.api).keeping_refines network) (Watch.beside_refines wait) c.watcher.limit
    looks task t ⟨c.session, (s, kept), []⟩

end FilterConsole
