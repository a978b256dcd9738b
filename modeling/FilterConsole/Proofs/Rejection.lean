import FilterConsole.Proofs.Command
import FilterConsole.Proofs.Watch

/-! A failure that asks for credential entry leaves no credential behind, whichever operation meets it. -/

namespace FilterConsole

variable {α σ τ : Type}

def ConsoleError.OfCall (e : ConsoleError) : Prop := e = .unauthorized ∨ ∃ failure, e = .transport failure

structure Backend.Contract (b : Backend σ) : Prop where
  fetch : ∀ c f s e, (b.fetch c f s).1 = .error e → e.OfCall
  write : ∀ c wr s e, (b.write c wr s).1 = .error e → e.OfCall

/-- A failure that sends the operator to credential entry leaves no credential. -/
def LeavesNone (s : Session) (r : Except ConsoleError α) : Prop :=
  ∀ e, r = .error e → e.requiresLogin = true → s.credential = none

theorem leavesNone_observe {e : ConsoleError} (he : e.OfCall) (s : Session) :
    LeavesNone (α := α) (s.observe (.error e : Except ConsoleError Unit)) (.error e) := by
  intro e' heq hlogin
  cases heq
  obtain rfl | ⟨failure, rfl⟩ := he
  · rfl
  · cases hlogin

theorem leavesNone_of_not_login {e : ConsoleError} (he : e.requiresLogin = false) (s : Session) :
    LeavesNone (α := α) s (.error e) := by
  intro e' heq hlogin
  cases heq
  rw [he] at hlogin
  cases hlogin

theorem Backend.Contract.read {b : Backend σ} (hb : b.Contract) (c : Credential) (fs : List Fetch) (s : σ)
    {e : ConsoleError} (h : (b.read c fs s).failure = some e) : e.OfCall := by
  induction fs generalizing s with
  | nil => cases h
  | cons f fs ih =>
    rcases hf : b.fetch c f s with ⟨e' | a, s'⟩
    · rw [Backend.read_cons_error hf] at h
      cases h
      exact hb.fetch c f s e (by rw [hf])
    · rw [Backend.read_cons_ok hf] at h
      exact ih s' h

theorem refresh_leavesNone {b : Backend σ} (hb : b.Contract) (w : World σ) :
    LeavesNone (refresh.run.run b w).2.session (refresh.run.run b w).1 := by
  cases hc : w.session.credential with
  | none =>
    rw [refresh_without_credential b hc]
    exact fun _ _ _ => hc
  | some c =>
    obtain ⟨e, hx, hrun⟩ | ⟨_, _, _, _, _, hrun⟩ := (refresh_with_credential b hc).1
    · rw [hrun]
      exact leavesNone_observe (hb.read c _ _ hx) _
    · rw [hrun]
      intro e h
      cases h

theorem domainName_error {s : String} {e : ConsoleError} (h : domainName s = .error e) :
    ∃ name, e = .invalidDomainName name := by
  unfold domainName at h
  dsimp only at h
  split at h
  · cases h
    exact ⟨s, rfl⟩
  · split at h
    · cases h
      exact ⟨trim s, rfl⟩
    · cases h

theorem AutoUpdate.schedule_error {seconds : UInt64} {e : ConsoleError} (h : schedule seconds = .error e) :
    e = .invalidAutoUpdateInterval seconds := by
  unfold schedule at h
  split at h
  · cases h
    rfl
  · cases h

/-- What is wrong with arguments has nothing to do with the credential. -/
theorem Command.write_error {command : Command} {e : ConsoleError} (h : command.write = .error e) :
    e.requiresLogin = false := by
  have hname : ∀ domain, ((domainName domain).map fun _ => ()) = .error e → e.requiresLogin = false := by
    intro domain hcheck
    cases hd : domainName domain with
    | error e' =>
      rw [hd] at hcheck
      cases hcheck
      obtain ⟨name, rfl⟩ := domainName_error hd
      rfl
    | ok name =>
      rw [hd] at hcheck
      cases hcheck
  rw [write_error_iff] at h
  cases command with
  | allow domain => exact hname domain h
  | disallow domain => exact hname domain h
  | setOverride domain address => exact hname domain h
  | removeOverride domain => exact hname domain h
  | setAutoUpdate setting =>
    cases setting with
    | disabled => cases h
    | every seconds =>
      cases hs : AutoUpdate.schedule seconds with
      | error e' =>
        simp only [check, hs] at h
        cases h
        rw [AutoUpdate.schedule_error hs]
        rfl
      | ok setting =>
        simp only [check, hs] at h
        cases h

theorem command_leavesNone {b : Backend σ} (hb : b.Contract) (command : Command) (w : World σ) :
    LeavesNone (command.run.run.run b w).2.session (command.run.run.run b w).1 := by
  cases h : command.write with
  | error e =>
    rw [Command.run_rejected b h]
    exact leavesNone_of_not_login (Command.write_error h) _
  | ok wr =>
    cases hc : w.session.credential with
    | none =>
      rw [Command.run_without_credential b h hc]
      exact fun _ _ _ => hc
    | some c =>
      rw [Command.run_with_credential b h hc]
      rcases hwrite : b.write c wr w.service with ⟨e | u, s⟩
      · exact leavesNone_observe (hb.write c wr w.service e (by rw [hwrite])) _
      · exact refresh_leavesNone hb _

namespace Watch

def PhaseLeavesNone (s : Session) : Phase → Prop
  | .finished r => LeavesNone s r
  | .waiting _ => True

theorem leavesNone_look {limit : Option UInt32} {x : Waiting} {look : Except ConsoleError View × World σ}
    (hlook : LeavesNone look.2.session look.1) (w : World σ) :
    let (phase, v) :=
      if Decisive x.seen look.1 ∨ isExhausted limit x.polls then
        (.finished (verdict x.seen x.polls look.1), look.2.mapSession (·.release))
      else (.waiting x, w)
    PhaseLeavesNone v.session phase := by
  by_cases hstop : Decisive x.seen look.1 ∨ isExhausted limit x.polls = true
  · rw [if_pos hstop]
    obtain ⟨e | view, v⟩ := look
    · intro e' he hlogin
      cases he
      exact hlook e rfl hlogin
    · intro e he hlogin
      rw [verdict] at he
      split at he
      · cases he
      · cases he
        cases hlogin
  · rw [if_neg hstop]
    trivial

theorem leavesNone_poll {b : Backend σ} (hb : b.Contract) (limit : Option UInt32) (x : Waiting) (w : World σ) :
    let (phase, v) := (poll limit x).run b w
    PhaseLeavesNone v.session phase := by
  rw [run_poll]
  exact leavesNone_look (x := ⟨x.seen, x.polls + 1⟩) (refresh_leavesNone hb _) _

theorem leavesNone_start {b : Backend σ} (hb : b.Contract) (limit : Option UInt32) (cancelled : Bool) (w : World σ) :
    let (phase, v) := (start limit cancelled).run b w
    PhaseLeavesNone v.session phase := by
  obtain ⟨_, h⟩ | ⟨_, ⟨_, h⟩ | ⟨_, ⟨hc, h⟩ | ⟨c, _, ⟨e, s, hwrite, h⟩ | ⟨s, _, h⟩⟩⟩⟩ := start_cases limit b cancelled w
  · rw [h]
    exact leavesNone_of_not_login rfl _
  · rw [h]
    exact leavesNone_of_not_login rfl _
  · rw [h]
    exact fun _ _ _ => hc
  · rw [h]
    exact leavesNone_observe (hb.write c .rebuild w.service e (by rw [hwrite])) _
  · rw [h]
    exact leavesNone_look (x := ⟨w.session.seen, 0⟩) (refresh_leavesNone hb _) _

theorem leavesNone_follow {b : Backend σ} (hb : b.Contract) {limit : Option UInt32} {wait : Surroundings τ σ}
    {looks : Nat} {phase : Phase} {t t' : τ} {w w' : World σ} {r : Except ConsoleError UpdateOutcome}
    (hphase : PhaseLeavesNone w.session phase) (h : follow b limit wait looks phase t w = some (r, t', w')) :
    LeavesNone w'.session r := by
  induction looks generalizing phase t w with
  | zero =>
    cases phase with
    | finished r' =>
      cases h
      exact hphase
    | waiting x => cases h
  | succ looks ih =>
    cases phase with
    | finished r' =>
      cases h
      exact hphase
    | waiting x =>
      rcases hwait : wait t w with ⟨wake, t₁, w₁⟩
      rw [follow, hwait] at h
      cases wake with
      | elapsed => exact ih (leavesNone_poll hb limit x w₁) h
      | cancelled =>
        have hcancel : PhaseLeavesNone (cancel.run b w₁).2.session (cancel.run b w₁).1 :=
          leavesNone_of_not_login rfl _
        exact ih hcancel h

/-- A whole watch, whatever happens during its waits. -/
theorem leavesNone_run {b : Backend σ} (hb : b.Contract) {limit : Option UInt32} {cancelled : Bool}
    {wait : Surroundings τ σ} {looks : Nat} {t t' : τ} {w w' : World σ} {r : Except ConsoleError UpdateOutcome}
    (h : run b limit cancelled wait looks t w = some (r, t', w')) : LeavesNone w'.session r :=
  leavesNone_follow hb (leavesNone_start hb limit cancelled w) h

end Watch

end FilterConsole
