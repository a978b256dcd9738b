import FilterConsole.Program
import Mathlib.Logic.Function.Iterate

/-! What a run of effects comes to: through `bind`, through each effect of an operation, and in the parts of the session
that it leaves alone. -/

namespace FilterConsole

variable {α β σ : Type}

namespace Session

theorem observe_error (s : Session) (e : ConsoleError) :
    s.observe (.error e : Except ConsoleError α) =
      { s with credential := if e = .unauthorized then none else s.credential } := by
  cases e <;> rfl

/-- An answer tells the session about its credential and nothing else. -/
theorem observe_eq (s : Session) (r : Except ConsoleError α) :
    s.observe r = { s with credential := (s.observe r).credential } := by
  cases r with
  | ok a => rfl
  | error e => rw [observe_error]

@[simp] theorem observe_seen (s : Session) (r : Except ConsoleError α) : (s.observe r).seen = s.seen := by
  rw [observe_eq]

def SameSlot (s t : Session) : Prop := s.watching = t.watching ∧ s.update = t.update

theorem sameSlot_observe (s : Session) (r : Except ConsoleError α) : (s.observe r).SameSlot s := by
  rw [observe_eq]
  exact ⟨rfl, rfl⟩

@[simp] theorem claim_credential (s : Session) : s.claim.credential = s.credential := by
  unfold claim
  split <;> rfl

theorem claim_seen (s : Session) : s.claim.seen = s.seen := by
  unfold claim
  split <;> rfl

theorem claim_of_watching {s : Session} (h : s.watching = true) : s.claim = s := if_pos h

theorem claim_of_free {s : Session} (h : s.watching = false) :
    s.claim = { s with watching := true, update := .requested } := if_neg (by simp [h])

end Session

def World.answered (w : World σ) (c : Credential) (call : Call) (r : Except ConsoleError α) (service : σ) : World σ :=
  ⟨w.session.observe r, service, (c, call) :: w.log⟩

namespace Program

theorem run_bind (p : Program α) (k : α → Program β) (b : Backend σ) (w : World σ) :
    (p.bind k).run b w = (k (p.run b w).1).run b (p.run b w).2 := by
  induction p generalizing w with
  | done a => rfl
  | access change next ih => exact ih _ _
  | fetch c f next ih => exact ih _ _
  | write c wr next ih => exact ih _ _

def worlds (b : Backend σ) : Program α → World σ → List (World σ)
  | done _, w => [w]
  | access change next, w => w :: (next w.session).worlds b (w.mapSession change)
  | fetch c f next, w =>
    let (r, service) := b.fetch c f w.service
    w :: (next r).worlds b { w with service, log := (c, .fetch f) :: w.log }
  | write c wr next, w =>
    let (r, service) := b.write c wr w.service
    w :: (next r).worlds b { w with service, log := (c, .write wr) :: w.log }

theorem first_mem_worlds (p : Program α) (b : Backend σ) (w : World σ) : w ∈ p.worlds b w := by
  cases p <;> exact List.mem_cons_self

theorem last_mem_worlds (p : Program α) (b : Backend σ) (w : World σ) : (p.run b w).2 ∈ p.worlds b w := by
  induction p generalizing w with
  | done a => exact List.mem_cons_self
  | access change next ih => exact List.mem_cons_of_mem _ (ih _ _)
  | fetch c f next ih => exact List.mem_cons_of_mem _ (ih _ _)
  | write c wr next ih => exact List.mem_cons_of_mem _ (ih _ _)

theorem iterate_step_mem_worlds (b : Backend σ) (n : Nat) (p : Program α) (w : World σ) :
    ((fun x => x.1.step b x.2)^[n] (p, w)).2 ∈ p.worlds b w := by
  induction n generalizing p w with
  | zero => exact first_mem_worlds p b w
  | succ n ih =>
    rw [Function.iterate_succ_apply]
    cases p with
    | done a => exact ih _ _
    | access change next => exact List.mem_cons_of_mem _ (ih _ _)
    | fetch c f next => exact List.mem_cons_of_mem _ (ih _ _)
    | write c wr next => exact List.mem_cons_of_mem _ (ih _ _)

theorem mem_worlds_bind {p : Program α} {k : α → Program β} {b : Backend σ} {w v : World σ}
    (h : v ∈ (p.bind k).worlds b w) :
    v ∈ p.worlds b w ∨ v ∈ (k (p.run b w).1).worlds b (p.run b w).2 := by
  induction p generalizing w with
  | done a => exact .inr h
  | access change next ih =>
    obtain rfl | h := List.mem_cons.mp h
    · exact .inl List.mem_cons_self
    · exact (ih _ h).imp_left (List.mem_cons_of_mem _)
  | fetch c f next ih =>
    obtain rfl | h := List.mem_cons.mp h
    · exact .inl List.mem_cons_self
    · exact (ih _ h).imp_left (List.mem_cons_of_mem _)
  | write c wr next ih =>
    obtain rfl | h := List.mem_cons.mp h
    · exact .inl List.mem_cons_self
    · exact (ih _ h).imp_left (List.mem_cons_of_mem _)

end Program

namespace Operation

theorem run_bind (m : Operation α) (k : α → Operation β) (b : Backend σ) (w : World σ) :
    (m >>= k).run.run b w =
      match m.run.run b w with
      | (.ok a, v) => (k a).run.run b v
      | (.error e, v) => (.error e, v) := by
  change (Program.bind m.run (ExceptT.bindCont k)).run b w = _
  rw [Program.run_bind]
  obtain ⟨a | e, v⟩ := m.run.run b w <;> rfl

theorem mem_worlds_bind {m : Operation α} {k : α → Operation β} {b : Backend σ} {w v : World σ}
    (h : v ∈ (m >>= k).run.worlds b w) :
    v ∈ m.run.worlds b w ∨
      ∃ a, (m.run.run b w).1 = .ok a ∧ v ∈ (k a).run.worlds b (m.run.run b w).2 := by
  obtain h | h := Program.mem_worlds_bind (p := m.run) (k := ExceptT.bindCont k) h
  · exact .inl h
  · have hlast := Program.last_mem_worlds m.run b w
    rcases hm : m.run.run b w with ⟨e | a, u⟩
    · rw [hm] at h hlast
      exact .inl (List.mem_singleton.mp h ▸ hlast)
    · rw [hm] at h
      exact .inr ⟨a, rfl, h⟩

theorem run_pure (a : α) (b : Backend σ) (w : World σ) : (pure a : Operation α).run.run b w = (.ok a, w) := rfl

theorem run_session (b : Backend σ) (w : World σ) : session.run.run b w = (.ok w.session, w) := rfl

theorem run_credential (b : Backend σ) (w : World σ) :
    credential.run.run b w =
      match w.session.credential with
      | some c => (.ok c, w)
      | none => (.error .missingCredential, w) := by
  unfold credential
  rw [run_bind, run_session]
  cases h : w.session.credential with
  | some c => simp only [h, run_pure]
  | none => simp only [h]; rfl

theorem run_fetch (c : Credential) (f : Fetch) (b : Backend σ) (w : World σ) :
    (fetch c f).run.run b w =
      ((b.fetch c f w.service).1,
        w.answered c (.fetch f) (b.fetch c f w.service).1 (b.fetch c f w.service).2) := rfl

theorem run_write (c : Credential) (wr : Write) (b : Backend σ) (w : World σ) :
    (write c wr).run.run b w =
      ((b.write c wr w.service).1,
        w.answered c (.write wr) (b.write c wr w.service).1 (b.write c wr w.service).2) := rfl

end Operation

end FilterConsole
