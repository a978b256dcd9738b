import FilterConsole.Proofs.Lifecycle
import FilterConsole.Proofs.Writes

/-! The protocol of a command: its arguments, then the credential, then one write, then a refresh if the write succeeds.
So whatever is written in a run has been checked. -/

namespace FilterConsole

variable {σ δ : Type}

def Write.Proper : Write → Prop
  | rebuild => True
  | allow name | disallow name | setOverride name _ | removeOverride name =>
    name ≠ "" ∧ ∀ c ∈ name.toList, isBlank c = false
  | setAutoUpdate setting => ∀ seconds, setting.toWire = some seconds → 1 ≤ seconds.toNat

theorem AutoUpdate.schedule_ok {seconds : UInt64} {setting : AutoUpdate} (h : schedule seconds = .ok setting) :
    1 ≤ seconds.toNat := by
  unfold schedule at h
  split at h
  · cases h
  · next hzero =>
    have hne : seconds.toNat ≠ 0 := fun hn => hzero (UInt64.toNat_inj.mp hn)
    omega

/-- Arguments that pass the check make a write that may be made. -/
theorem Command.proper_of_check {command : Command} (h : command.check = .ok ()) : command.intent.Proper := by
  have hname : ∀ domain, ((domainName domain).map fun _ => ()) = .ok () →
      trim domain ≠ "" ∧ ∀ c ∈ (trim domain).toList, isBlank c = false := by
    intro domain hcheck
    cases hd : domainName domain with
    | error e =>
      rw [hd] at hcheck
      cases hcheck
    | ok name =>
      obtain ⟨rfl, hproper⟩ := domainName_ok hd
      exact hproper
  cases command with
  | allow domain => exact hname domain h
  | disallow domain => exact hname domain h
  | setOverride domain address => exact hname domain h
  | removeOverride domain => exact hname domain h
  | setAutoUpdate setting =>
    cases setting with
    | disabled => exact fun seconds hs => by cases hs
    | every interval =>
      intro seconds hs
      obtain rfl : interval = seconds := Option.some.inj hs
      cases hschedule : AutoUpdate.schedule interval with
      | error e =>
        rw [check, hschedule] at h
        cases h
      | ok setting => exact AutoUpdate.schedule_ok hschedule

namespace Scene

variable (svc : Service σ δ)

theorem move_calls (s : Scene σ) (m : Move δ) :
    (s.move svc m).2.world.calls = s.world.calls ++ (s.replies svc m).map fun x => (x.credential, x.call) := by
  cases m with
  | change d => exact (List.append_nil _).symm
  | deed d => exact Program.run_calls svc.toBackend (d.program s.holders) s.world

/-- A move writes a rebuild, or what the command that it is says. -/
theorem write_of_mem_replies {s : Scene σ} {m : Move δ} {x : Reply} (hx : x ∈ s.replies svc m) {wr : Write}
    (h : x.call = .write wr) : wr = .rebuild ∨ ∃ command, m = .deed (.command command) ∧ command.write = .ok wr := by
  cases m with
  | change d => cases hx
  | deed d =>
    by_cases hd : ∃ command, d = .command command
    · obtain ⟨command, rfl⟩ := hd
      have hwrites : ((Deed.command command).program s.holders).Writes (command.write = .ok ·) :=
        command.writes.bind fun _ => .done _
      exact .inr ⟨command, rfl, hwrites.of_mem_replies hx h⟩
    · have hwrites := d.writes s.holders fun command hc => hd ⟨command, hc⟩
      exact .inl (hwrites.of_mem_replies hx h)

/-- The calls of a run; every write among them is a rebuild or that of a command of the run. -/
theorem after_calls (s : Scene σ) (moves : List (Move δ)) :
    ∃ made : List (Credential × Call), (s.after svc moves).world.calls = s.world.calls ++ made ∧
      ∀ c wr, (c, .write wr) ∈ made →
        wr = .rebuild ∨ ∃ command, .deed (.command command) ∈ moves ∧ command.write = .ok wr := by
  induction moves generalizing s with
  | nil => exact ⟨[], (List.append_nil _).symm, by simp⟩
  | cons m moves ih =>
    obtain ⟨made, hcalls, hmade⟩ := ih (s.move svc m).2
    refine ⟨(s.replies svc m).map (fun x => (x.credential, x.call)) ++ made, ?_, fun c wr h => ?_⟩
    · rw [after_cons, hcalls, move_calls, List.append_assoc]
    · obtain h | h := List.mem_append.mp h
      · obtain ⟨x, hx, hcall⟩ := List.mem_map.mp h
        have hwrite : x.call = .write wr := congrArg Prod.snd hcall
        refine (write_of_mem_replies svc hx hwrite).imp_right fun ⟨command, hm, hok⟩ => ⟨command, ?_, hok⟩
        rw [hm]
        exact List.mem_cons_self
      · refine (hmade c wr h).imp_right fun ⟨command, hmem, hok⟩ => ⟨command, ?_, hok⟩
        exact List.mem_cons_of_mem m hmem

end Scene

/-- A command with bad arguments fails by them, and one without a credential for want of it; neither calls or changes
anything. Otherwise the one write is made that the command is there for. If that fails, so does the command, and nothing is
read; if not, a refresh begins, and what comes of it comes of the command. In a whole run nothing but rebuilds and the
checked writes of its commands is written. -/
theorem command_protocol (svc : Service σ δ) (s : Scene σ) (moves : List (Move δ)) :
    (∀ (w : World σ) (command : Command),
      let (result, after) := command.run.run.run svc.toBackend w
      match command.check, w.session.credential with
      | .error e, _ => result = .error e ∧ after = w
      | .ok (), none => result = .error .missingCredential ∧ after = w
      | .ok (), some c =>
        match svc.write c command.intent w.service with
        | (.error e, x) => result = .error e ∧ after = ⟨{ w.session with
            credential := if e = .unauthorized then none else w.session.credential }, x,
            (c, .write command.intent) :: w.log⟩
        | (.ok (), x) =>
          (result, after) = refresh.run.run svc.toBackend ⟨w.session, x, (c, .write command.intent) :: w.log⟩ ∧
            ∃ reads, reads ≠ [] ∧ reads <+: Fetch.inOrder ∧
              after.calls = w.calls ++ (c, .write command.intent) :: reads.map fun f => (c, .fetch f)) ∧
    ∃ made : List (Credential × Call), (s.after svc moves).world.calls = s.world.calls ++ made ∧
      ∀ c wr, (c, .write wr) ∈ made → wr = .rebuild ∨
        wr.Proper ∧ ∃ command, .deed (.command command) ∈ moves ∧ command.check = .ok () ∧ wr = command.intent := by
  refine ⟨fun w command => ?_, ?_⟩
  · cases hcheck : command.check with
    | error e =>
      rw [Command.run_rejected svc.toBackend (Command.write_error_iff.mpr hcheck)]
      exact ⟨rfl, rfl⟩
    | ok u =>
      have hwrite : command.write = .ok command.intent := Command.write_ok_iff.mpr ⟨hcheck, rfl⟩
      cases hc : w.session.credential with
      | none =>
        rw [Command.run_without_credential svc.toBackend hwrite hc]
        exact ⟨rfl, rfl⟩
      | some c =>
        rw [Command.run_with_credential svc.toBackend hwrite hc]
        dsimp only
        rcases svc.write c command.intent w.service with ⟨e | u, x⟩
        · refine ⟨rfl, ?_⟩
          dsimp only
          rw [World.answered, Session.observe_error, hc]
        · -- The session has not changed, so the refresh finds the same credential.
          have hmade := refresh_made svc.toBackend (w := ⟨w.session, x, (c, .write command.intent) :: w.log⟩) hc
          have hprefix := (svc.made_prefix c Fetch.inOrder x).1
          refine ⟨rfl, (svc.read c Fetch.inOrder x).made, svc.made_ne_nil c _ _ x, hprefix, hmade.trans ?_⟩
          simp [World.calls]
  · obtain ⟨made, hcalls, hmade⟩ := s.after_calls svc moves
    refine ⟨made, hcalls, fun c wr h => (hmade c wr h).imp_right ?_⟩
    rintro ⟨command, hmem, hok⟩
    obtain ⟨hcheck, rfl⟩ := Command.write_ok_iff.mp hok
    exact ⟨Command.proper_of_check hcheck, command, hmem, hcheck, rfl⟩

end FilterConsole
