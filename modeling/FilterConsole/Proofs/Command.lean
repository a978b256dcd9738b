import FilterConsole.Command
import FilterConsole.Proofs.Refresh

/-! A command as a function of the world: the check of its arguments, the credential, one write, a refresh. -/

namespace FilterConsole

/-- A name that is accepted is what is left of the text without the blanks around it, and has none in it. -/
theorem domainName_ok {s name : String} (h : domainName s = .ok name) :
    name = trim s ∧ name ≠ "" ∧ ∀ c ∈ name.toList, isBlank c = false := by
  unfold domainName at h
  dsimp only at h
  split at h
  · cases h
  · next hempty =>
    split at h
    · cases h
    · next hblank =>
      cases h
      refine ⟨rfl, fun hnil => hempty (by rw [hnil]; rfl), fun c hc => ?_⟩
      rw [← Bool.not_eq_true]
      exact fun hb => hblank (List.any_eq_true.mpr ⟨c, hc, hb⟩)

namespace Command

def check : Command → Except ConsoleError Unit
  | allow domain | disallow domain | setOverride domain _ | removeOverride domain =>
    (domainName domain).map fun _ => ()
  | setAutoUpdate .disabled => .ok ()
  | setAutoUpdate (.every seconds) => (AutoUpdate.schedule seconds).map fun _ => ()

def intent : Command → Write
  | allow domain => .allow (trim domain)
  | disallow domain => .disallow (trim domain)
  | setOverride domain address => .setOverride (trim domain) address
  | removeOverride domain => .removeOverride (trim domain)
  | setAutoUpdate setting => .setAutoUpdate setting

/-- A command writes what it is there for, if its arguments are in order. -/
theorem write_eq (command : Command) : command.write = command.check.map fun _ => command.intent := by
  have hname : ∀ (domain : String) (k : String → Write),
      (domainName domain >>= fun name => pure (k name)) =
        ((domainName domain).map fun _ => ()).map fun _ => k (trim domain) := by
    intro domain k
    rcases hd : domainName domain with e | name
    · rfl
    · rw [(domainName_ok hd).1]
      rfl
  cases command with
  | allow domain => exact hname domain .allow
  | disallow domain => exact hname domain .disallow
  | setOverride domain address => exact hname domain (.setOverride · address)
  | removeOverride domain => exact hname domain .removeOverride
  | setAutoUpdate setting =>
    cases setting with
    | disabled => rfl
    | every seconds =>
      by_cases hs : seconds = 0
      · simp only [write, check, AutoUpdate.schedule, if_pos hs]
        rfl
      · simp only [write, check, AutoUpdate.schedule, if_neg hs]
        rfl

theorem write_ok_iff {command : Command} {wr : Write} :
    command.write = .ok wr ↔ command.check = .ok () ∧ wr = command.intent := by
  rw [write_eq]
  cases command.check with
  | error e => exact ⟨nofun, nofun⟩
  | ok u => exact ⟨fun h => ⟨rfl, (Except.ok.inj h).symm⟩, fun h => congrArg Except.ok h.2.symm⟩

theorem write_error_iff {command : Command} {e : ConsoleError} :
    command.write = .error e ↔ command.check = .error e := by
  rw [write_eq]
  cases command.check with
  | error e' =>
    constructor
    · intro h
      rw [Except.error.inj h]
    · intro h
      rw [Except.error.inj h]
      rfl
  | ok u => exact ⟨nofun, nofun⟩

section Run

variable {command : Command}

theorem run_of_error {e : ConsoleError} (h : command.write = .error e) : command.run.run = .done (.error e) := by
  unfold run
  rw [h]
  rfl

theorem run_of_ok {wr : Write} (h : command.write = .ok wr) :
    command.run.run = (Operation.credential >>= fun c => Operation.write c wr >>= fun _ => refresh).run := by
  unfold run
  rw [h]
  rfl

end Run

variable {σ : Type} (b : Backend σ) {w : World σ} {command : Command}

theorem run_rejected {e : ConsoleError} (h : command.write = .error e) :
    command.run.run.run b w = (.error e, w) := by
  rw [run_of_error h]
  rfl

theorem run_without_credential {wr : Write} (h : command.write = .ok wr) (hc : w.session.credential = none) :
    command.run.run.run b w = (.error .missingCredential, w) := by
  rw [run_of_ok h, Operation.run_bind, Operation.run_credential, hc]

theorem run_with_credential {wr : Write} {c : Credential} (h : command.write = .ok wr)
    (hc : w.session.credential = some c) :
    command.run.run.run b w =
      match b.write c wr w.service with
      | (.error e, s) => (.error e, w.answered c (.write wr) (.error e : Except ConsoleError Unit) s)
      | (.ok (), s) => refresh.run.run b ⟨w.session, s, (c, .write wr) :: w.log⟩ := by
  rw [run_of_ok h, Operation.run_bind, Operation.run_credential, hc]
  dsimp only
  rw [Operation.run_bind, Operation.run_write]
  obtain ⟨e | u, s⟩ := b.write c wr w.service <;> rfl

/-- What a command leaves in the session: what it was, or what an answer, a refresh or both have made of it. -/
theorem run_session (command : Command) (w : World σ) :
    (∃ r : Except ConsoleError Unit, (command.run.run.run b w).2.session = w.session.observe r) ∨
      ∃ createdAt, (command.run.run.run b w).2.session = w.session.see createdAt := by
  cases h : command.write with
  | error e =>
    rw [run_rejected b h]
    exact .inl ⟨.ok (), rfl⟩
  | ok wr =>
    cases hc : w.session.credential with
    | none =>
      rw [run_without_credential b h hc]
      exact .inl ⟨.ok (), rfl⟩
    | some c =>
      rw [run_with_credential b h hc]
      obtain ⟨e | u, s⟩ := b.write c wr w.service
      · exact .inl ⟨.error e, rfl⟩
      · obtain ⟨e, _, hs⟩ | ⟨view, _, hs⟩ := refresh_session b ⟨w.session, s, (c, .write wr) :: w.log⟩
        · exact .inl ⟨.error e, hs⟩
        · exact .inr ⟨_, hs⟩

end Command

end FilterConsole
