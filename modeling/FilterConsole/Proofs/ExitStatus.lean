import FilterConsole.Proofs.Beside
import FilterConsole.Proofs.HttpContract
import FilterConsole.Proofs.Invocation
import FilterConsole.Proofs.Looks
import FilterConsole.Proofs.Rejection

/-! The exit status of a run. A run is refused by its command line or by its configuration, or its task comes to a
result; the status tells which, but for a refused command line, which ends as a failure that asks for a credential. -/

namespace FilterConsole

variable {σ τ : Type}

theorem showConsole_leavesNone {b : Backend σ} (hb : b.Contract) (sort : Option SortField)
    (direction : Option SortDirection) (w : World σ) :
    LeavesNone ((showConsole sort direction).run.run b w).2.session ((showConsole sort direction).run.run b w).1 := by
  cases direction with
  | some d =>
    unfold showConsole
    rw [Operation.run_bind, Operation.run_session]
    exact refresh_leavesNone hb _
  | none =>
    have hrefresh := refresh_leavesNone hb w
    unfold showConsole
    rw [Operation.run_bind]
    rcases hx : refresh.run.run b w with ⟨e | view, v⟩
    · rw [hx] at hrefresh
      exact hrefresh
    · intro e he
      cases sort <;> cases he

namespace Task

/-- A task whose failure asks for a credential leaves none behind. -/
theorem run_leavesNone {b : Backend σ} (hb : b.Contract) {limit : Option UInt32} {wait : Watch.Surroundings τ σ}
    {looks : Nat} {task : Task} {t : τ} {w v : World σ} {result : Except ConsoleError View}
    (h : task.run b limit wait looks t w = some (result, v)) : LeavesNone v.session result := by
  cases task with
  | «show» sort direction =>
    have hrun : (showConsole sort direction).run.run b w = (result, v) := Option.some.inj h
    have hleaves := showConsole_leavesNone hb sort direction w
    rwa [hrun] at hleaves
  | change command =>
    have hrun : command.run.run.run b w = (result, v) := Option.some.inj h
    have hleaves := command_leavesNone hb command w
    rwa [hrun] at hleaves
  | updateFilter =>
    have hrefresh := refresh_leavesNone hb w
    rw [run] at h
    rcases hx : refresh.run.run b w with ⟨e | view, u⟩
    · rw [hx] at h hrefresh
      cases h
      exact hrefresh
    · rw [hx] at h
      obtain ⟨⟨r, t', u'⟩, hrun, heq⟩ := Option.map_eq_some_iff.mp h
      cases heq
      intro e he hlogin
      cases r with
      | ok o => cases he
      | error e' =>
        cases he
        exact Watch.leavesNone_run hb hrun e rfl hlogin

theorem run_ends (b : Backend σ) {limit : Option UInt32} (wait : Watch.Surroundings τ σ) {task : Task}
    (hlimit : task = .updateFilter → limit ≠ none) (t : τ) (w : World σ) :
    ∃ x, task.run b limit wait Watch.looks t w = some x := by
  cases task with
  | «show» sort direction => exact ⟨_, rfl⟩
  | change command => exact ⟨_, rfl⟩
  | updateFilter =>
    obtain ⟨n, rfl⟩ := Option.ne_none_iff_exists'.mp (hlimit rfl)
    rw [run]
    rcases refresh.run.run b w with ⟨e | view, v⟩
    · exact ⟨_, rfl⟩
    · obtain ⟨x, hx⟩ := Watch.run_ends b wait n false t v
      dsimp only
      rw [hx]
      exact ⟨_, rfl⟩

end Task

/-- Arguments are refused by the command line, or else by the configuration that they choose. -/
theorem prepare_error_iff {args : List String} {env : Environment} {r : Refusal} :
    prepare args env = .error r ↔
      (∃ e, CommandLine.parse args env.token = .error e ∧ r = .usage e) ∨
      ∃ x e, CommandLine.parse args env.token = .ok x ∧
        Config.loadValid env.files x.configPath x.overrides = .error e ∧ r = .config e := by
  rw [prepare]
  cases hparse : CommandLine.parse args env.token with
  | error e =>
    change Except.error (Refusal.usage e) = _ ↔ _
    simp [eq_comm]
  | ok x =>
    change (Except.mapError Refusal.config (Config.loadValid env.files x.configPath x.overrides) >>= _) = _ ↔ _
    cases hload : Config.loadValid env.files x.configPath x.overrides with
    | error e =>
      change Except.error (Refusal.config e) = _ ↔ _
      simp [hload, eq_comm]
    | ok c =>
      change Except.ok (x.task, c) = _ ↔ _
      simp [hload]

namespace Run

section Within

variable (network : Http.Network σ) (service : Config → σ) (wait : Watch.Surroundings τ σ) (looks : Nat) (t : τ)
  (args : List String) (env : Environment)

def within : Option (Run σ) :=
  match prepare args env with
  | .error r => some (.refused r)
  | .ok (task, c) =>
    (c.perform network.keeping wait.beside looks task t (service c, [])).map fun (result, w) =>
      .finished c task result ⟨w.session, w.service.1, w.log⟩ w.service.2.reverse

/-- The task that the arguments ask for comes to this result, with this configuration and in this world. -/
def Comes (c : Config) (result : Except ConsoleError View) (w : World σ) : Prop :=
  ∃ task, prepare args env = .ok (task, c) ∧ c.perform network wait looks task t (service c) = some (result, w)

end Within

variable {network : Http.Network σ} {service : Config → σ} {wait : Watch.Surroundings τ σ} {looks : Nat} {t : τ}
  {args : List String} {env : Environment}

theorem ofArguments_eq_within :
    ofArguments network service wait t args env = within network service wait Watch.looks t args env := rfl

theorem within_cases {run : Run σ} (h : within network service wait looks t args env = some run) :
    (∃ r, prepare args env = .error r ∧ run = .refused r) ∨
      ∃ c task result w deliveries, prepare args env = .ok (task, c) ∧
        c.perform network wait looks task t (service c) = some (result, w) ∧
        run = .finished c task result w deliveries := by
  rw [within] at h
  rcases hprepare : prepare args env with r | ⟨task, c⟩
  · rw [hprepare] at h
    exact .inl ⟨r, rfl, (Option.some.inj h).symm⟩
  · rw [hprepare] at h
    obtain ⟨⟨result, w⟩, hperform, hrun⟩ := Option.map_eq_some_iff.mp h
    refine .inr ⟨c, task, result, w.mapService Prod.fst, w.service.2.reverse, rfl, ?_, hrun.symm⟩
    rw [c.perform_keeping network wait looks task t (service c) [], hperform]
    rfl

end Run

namespace Ending

/-- What an ending tells. `Comes` says which results the task that was asked for comes to. -/
structure Tells (args : List String) (env : Environment) (asOf : Timestamp)
    (Comes : Config → Except ConsoleError View → World σ → Prop) (ending : Ending) : Prop where
  success : ending.status = 0 ↔ ∃ c view w, Comes c (.ok view) w
  page : ∀ c view w, Comes c (.ok view) w → ending = ⟨0, view.page asOf, ""⟩
  /-- The command line is refused, or a failure leads to credential entry. -/
  two : ending.status = 2 ↔ (∃ e, CommandLine.parse args env.token = .error e) ∨
    ∃ c e w, Comes c (.error e) w ∧ e.surface c.presentation.loginOnAnyFailure = .login
  /-- The configuration is refused, or a failure leads to a notice. -/
  one : ending.status = 1 ↔
    (∃ x e, CommandLine.parse args env.token = .ok x ∧
      Config.loadValid env.files x.configPath x.overrides = .error e) ∨
    ∃ c e w, Comes c (.error e) w ∧ e.surface c.presentation.loginOnAnyFailure = .notice
  total : ending.status = 0 ∨ ending.status = 1 ∨ ending.status = 2
  quiet : ending.status ≠ 0 → ending.output = ""
  /-- Credential entry comes with a hint. Unless every failure leads there, no credential is left. -/
  login : ∀ c e w, Comes c (.error e) w → e.surface c.presentation.loginOnAnyFailure = .login →
    ending.errors = e.message ++ "\nProvide a valid token with --token or DNS_CONSOLE_TOKEN.\n" ∧
      (c.presentation.loginOnAnyFailure = false → w.session.credential = none)

theorem ofResult_status (c : Config) (asOf : Timestamp) (result : Except ConsoleError View) :
    let leads (s : Surface) : Prop := ∃ e, result = .error e ∧ e.surface c.presentation.loginOnAnyFailure = s
    let ending := ofResult c asOf result
    (ending.status = 0 ↔ ∃ view, result = .ok view) ∧ (ending.status = 2 ↔ leads .login) ∧
      (ending.status = 1 ↔ leads .notice) ∧ (ending.status = 0 ∨ ending.status = 1 ∨ ending.status = 2) ∧
      (ending.status ≠ 0 → ending.output = "") := by
  cases result with
  | ok view => simp [ofResult]
  | error e => cases hs : e.surface c.presentation.loginOnAnyFailure <;> simp [ofResult, ofFailure, hs]

theorem requiresLogin_of_surface {e : ConsoleError} (h : e.surface false = .login) : e.requiresLogin = true := by
  cases e <;> first | rfl | cases h

section Tells

variable {args : List String} {env : Environment} {asOf : Timestamp}
  {Comes : Config → Except ConsoleError View → World σ → Prop}

theorem tells_of_refused {r : Refusal} (h : prepare args env = .error r) (hnone : ∀ c result w, ¬ Comes c result w) :
    (ofRefusal r).Tells args env asOf Comes := by
  obtain ⟨e, hparse, rfl⟩ | ⟨x, e, hparse, hload, rfl⟩ := prepare_error_iff.mp h
  · constructor <;> simp [ofRefusal, hparse, hnone]
  · constructor <;> simp [ofRefusal, hparse, hload, hnone]

theorem tells_of_finished {c : Config} {result : Except ConsoleError View} {w : World σ}
    (hprepare : ∀ r, prepare args env ≠ .error r)
    (honly : ∀ c' result' w', Comes c' result' w' ↔ c' = c ∧ result' = result ∧ w' = w)
    (hleaves : LeavesNone w.session result) : (ofResult c asOf result).Tells args env asOf Comes := by
  have hparse : ¬ ∃ e, CommandLine.parse args env.token = .error e := fun ⟨e, he⟩ =>
    hprepare (.usage e) (prepare_error_iff.mpr (.inl ⟨e, he, rfl⟩))
  have hload : ¬ ∃ x e, CommandLine.parse args env.token = .ok x ∧
      Config.loadValid env.files x.configPath x.overrides = .error e := fun ⟨x, e, hx, he⟩ =>
    hprepare (.config e) (prepare_error_iff.mpr (.inr ⟨x, e, hx, he, rfl⟩))
  -- There is one result, so what leads to a surface is this result or nothing.
  have hcomes : ∀ s : Surface,
      (∃ c e w, Comes c (.error e) w ∧ e.surface c.presentation.loginOnAnyFailure = s) ↔
        ∃ e, result = .error e ∧ e.surface c.presentation.loginOnAnyFailure = s := by
    intro s
    simp only [honly]
    constructor
    · rintro ⟨_, e, _, ⟨rfl, rfl, rfl⟩, hs⟩
      exact ⟨e, rfl, hs⟩
    · rintro ⟨e, rfl, hs⟩
      exact ⟨c, e, w, ⟨rfl, rfl, rfl⟩, hs⟩
  have hlogin : ∀ e, result = .error e → e.surface c.presentation.loginOnAnyFailure = .login →
      c.presentation.loginOnAnyFailure = false → w.session.credential = none := by
    intro e he hs hfalse
    rw [hfalse] at hs
    exact hleaves e he (requiresLogin_of_surface hs)
  obtain ⟨hzero, htwo, hone, htotal, hquiet⟩ := ofResult_status c asOf result
  refine ⟨hzero.trans ?_, ?_, ?_, ?_, htotal, hquiet, ?_⟩
  · simp [honly, eq_comm]
  · rintro c' view w' h
    obtain ⟨rfl, rfl, rfl⟩ := (honly _ _ _).mp h
    rfl
  · rw [hcomes, or_iff_right hparse]
    exact htwo
  · rw [hcomes, or_iff_right hload]
    exact hone
  · rintro c' e w' h hs
    obtain ⟨rfl, rfl, rfl⟩ := (honly _ _ _).mp h
    refine ⟨?_, hlogin e rfl hs⟩
    simp [ofResult, ofFailure, hs]

end Tells

end Ending

namespace CommandLine

def IsPlain (arg : String) : Prop := arg.toList.head? ≠ some '-'

theorem Level.step_plain {l : Level} {check : Check} {s : State} {arg : String} (harg : IsPlain arg)
    (hvalue : s.lacksValue = false) : l.step check s arg = s.operand check arg := by
  unfold IsPlain at harg
  unfold Level.step
  split
  · rfl
  · split
    · next h => simp [h] at harg
    · next h => simp [h] at harg
    · next h => simp [h] at harg
    · split
      · next h => simp [State.lacksValue, h] at hvalue
      · rfl

theorem last_invalid_address {domain text : String} (hdomain : IsPlain domain) (htext : IsPlain text)
    {e : ConsoleError} (h : Address.parse text = .error e) :
    last { operands := ["DOMAIN", "ADDRESS"] } [domain, text] = .error (.address text) := by
  have hcheck : check "ADDRESS" text = .error (.address text) := by
    change (readAddress text).map (fun _ => ()) = _
    rw [readAddress, h]
    rfl
  have hscan : Level.scan { operands := ["DOMAIN", "ADDRESS"] } check { operands := ["DOMAIN", "ADDRESS"] }
      [domain, text] = .ok (⟨[("DOMAIN", domain)], some ⟨"ADDRESS", some text⟩, [], false⟩, none) := by
    rw [Level.scan, if_neg (by simp), Level.step_plain hdomain rfl]
    change Level.scan _ check ⟨[], some ⟨"DOMAIN", some domain⟩, ["ADDRESS"], false⟩ [text] = _
    rw [Level.scan, if_neg (by simp), Level.step_plain htext rfl]
    rfl
  have hadd : Values.add [("DOMAIN", domain)] check "ADDRESS" text = .error (.address text) := by
    unfold Values.add
    rw [if_neg (by simp), hcheck]
    rfl
  rw [last, Level.parse_last hscan, State.settle]
  dsimp only
  rw [hadd]
  rfl

theorem readTask_invalid_address {domain text : String} (hdomain : IsPlain domain) (htext : IsPlain text)
    {e : ConsoleError} (h : Address.parse text = .error e) :
    readTask "override" ["set", domain, text] = .error (.address text) := by
  have hread : readOverride "set" [domain, text] = .error (.address text) := by
    rw [readOverride, if_pos (by decide), last_invalid_address hdomain htext h]
    rfl
  change branch ["set", "remove"] readOverride ["set", domain, text] = _
  rw [branch, Level.parse_word (Level.scan_word rfl rfl (by simp) _), hread]
  rfl

end CommandLine

/-- An address that is none is refused with the command line, and so ends as a failure that asks for a credential,
whatever the settings. -/
theorem ending_of_invalid_address (network : Http.Network σ) (service : Config → σ) (wait : Watch.Surroundings τ σ)
    (t : τ) (env : Environment) (asOf : Timestamp) {settings : List String}
    (hsettings : CommandLine.IsSettings settings) {domain text : String} (hdomain : CommandLine.IsPlain domain)
    (htext : CommandLine.IsPlain text) {e : ConsoleError} (h : Address.parse text = .error e) :
    (Run.ofArguments network service wait t (settings ++ ["override", "set", domain, text]) env).map (·.ending asOf) =
      some ⟨2, "", "error: Invalid IPv4 address: " ++ text ++ "\n"⟩ := by
  have hparse := CommandLine.parse_refused hsettings (by decide)
    (CommandLine.readTask_invalid_address hdomain htext h) env.token
  have hprepare := prepare_error_iff.mpr (.inl ⟨_, hparse, rfl⟩)
  rw [Run.ofArguments, hprepare]
  simp only [Option.map_some, Run.ending, Ending.ofRefusal, UsageError.reason, Option.getD_some, ← String.append_assoc]
  rfl

/-- The status of a run tells how it came out, over any network and with anything happening in its waits. It is 0 just
when the task succeeds, and then the page of its view is printed and nothing else. It is 2 just when the command line is
refused or a failure leads to credential entry, and 1 just when the configuration is refused or a failure leads to a
notice; nothing goes to the output then. There is an ending unless a filter update is waited for without a limit. Among
the refused command lines are those that force an answer which is no address, whatever their settings. -/
theorem exit_status (network : Http.Network σ) (service : Config → σ) (wait : Watch.Surroundings τ σ) (t : τ)
    (args : List String) (env : Environment) (asOf : Timestamp) :
    ((∀ task c, prepare args env = .ok (task, c) → task = .updateFilter → c.watcher.limit ≠ none) →
      ∃ run, Run.ofArguments network service wait t args env = some run) ∧
    (∀ looks run, Run.within network service wait looks t args env = some run →
      (run.ending asOf).Tells args env asOf (Run.Comes network service wait looks t args env)) ∧
    ∀ settings domain text e, CommandLine.IsSettings settings → CommandLine.IsPlain domain → CommandLine.IsPlain text →
      Address.parse text = .error e → args = settings ++ ["override", "set", domain, text] →
      (Run.ofArguments network service wait t args env).map (·.ending asOf) =
        some ⟨2, "", "error: Invalid IPv4 address: " ++ text ++ "\n"⟩ := by
  refine ⟨fun hlimit => ?_, fun looks run hrun => ?_, fun settings domain text e hsettings hdomain htext haddress h => ?_⟩
  · rw [Run.ofArguments]
    rcases hprepare : prepare args env with r | ⟨task, c⟩
    · exact ⟨_, rfl⟩
    · obtain ⟨x, hx⟩ := Task.run_ends ((Http.Client.ofApi c.api).backend network.keeping) wait.beside
        (hlimit task c hprepare) t ⟨c.session, (service c, []), []⟩
      dsimp only
      rw [Config.perform, hx]
      exact ⟨_, rfl⟩
  · obtain ⟨r, hprepare, rfl⟩ | ⟨c, task, result, w, deliveries, hprepare, hperform, rfl⟩ := Run.within_cases hrun
    · refine Ending.tells_of_refused hprepare fun c result w => ?_
      rintro ⟨task, hok, -⟩
      cases hprepare.symm.trans hok
    · refine Ending.tells_of_finished (w := w) (fun r hr => ?_) (fun c' result' w' => ⟨?_, ?_⟩) ?_
      · cases hprepare.symm.trans hr
      · rintro ⟨task', hok, hperform'⟩
        cases hprepare.symm.trans hok
        cases hperform.symm.trans hperform'
        exact ⟨rfl, rfl, rfl⟩
      · rintro ⟨rfl, rfl, rfl⟩
        exact ⟨task, hprepare, hperform⟩
      · exact Task.run_leavesNone (Http.Client.backend_contract (.ofApi c.api) network) hperform
  · rw [h]
    exact ending_of_invalid_address network service wait t env asOf hsettings hdomain htext haddress

/-- The service rejects the credential of a command line; another one forces an answer of three numbers. -/
theorem exit_status_rejected_credential :
    let network : Http.Network Unit := fun _ s => (.response 401 none, s)
    let service : Config → Unit := fun _ => ()
    let wait : Watch.Surroundings Unit Unit := fun t w => (.elapsed, t, w)
    let args := ["--token", "t", "show"]
    let env : Environment := ⟨fun _ => .error .notFound, none⟩
    ∃ run c w, Run.ofArguments network service wait () args env = some run ∧
      Run.Comes network service wait Watch.looks () args env c (.error .unauthorized) w ∧
      (run.ending ⟨0, 0⟩).status = 2 ∧ (run.ending ⟨0, 0⟩).output = "" ∧ w.session.credential = none ∧
      (Run.ofArguments network service wait () (["--token", "t"] ++ ["override", "set", "a", "1.2.3"]) env).map
        (·.ending ⟨0, 0⟩) = some ⟨2, "", "error: Invalid IPv4 address: " ++ "1.2.3" ++ "\n"⟩ := by
  intro network service wait args env
  let c : Config := { api := { token := some "t" } }
  have hprepare : prepare args env = .ok (.show none none, c) := by decide +kernel
  obtain ⟨hends, htells, -⟩ := exit_status network service wait () args env ⟨0, 0⟩
  obtain ⟨run, hrun⟩ := hends fun task c' h htask => by
    rw [hprepare] at h
    cases h
    cases htask
  have hresult : ((c.perform network wait Watch.looks (.show none none) () ()).map fun x => x.1.map fun _ => ()) =
      some (.error .unauthorized) := by decide +kernel
  obtain ⟨⟨result, w⟩, hperform, hfails⟩ := Option.map_eq_some_iff.mp hresult
  cases result with
  | ok view => cases hfails
  | error e =>
    cases hfails
    have hcomes : Run.Comes network service wait Watch.looks () args env c (.error .unauthorized) w :=
      ⟨.show none none, hprepare, hperform⟩
    have hending := htells Watch.looks run (Run.ofArguments_eq_within.symm.trans hrun)
    have htwo := hending.two.mpr (.inr ⟨c, .unauthorized, w, hcomes, rfl⟩)
    refine ⟨run, c, w, hrun, hcomes, htwo, hending.quiet (by rw [htwo]; decide), ?_, ?_⟩
    · exact (hending.login c .unauthorized w hcomes rfl).2 rfl
    · obtain ⟨-, -, haddress⟩ := exit_status network service wait ()
        (["--token", "t"] ++ ["override", "set", "a", "1.2.3"]) env ⟨0, 0⟩
      have hplain : CommandLine.IsPlain "a" ∧ CommandLine.IsPlain "1.2.3" := by simp [CommandLine.IsPlain]
      exact haddress ["--token", "t"] "a" "1.2.3" (.invalidAddress "1.2.3") ⟨_, rfl, rfl, rfl⟩ hplain.1 hplain.2
        (by decide +kernel) rfl

/-- An address of three numbers: nothing is carried out, and the status is that of a failure that asks for a
credential. -/
theorem rejected_address_status :
    let network : Http.Network Unit := fun _ s => (.unreachable, s)
    let wait : Watch.Surroundings Unit Unit := fun t w => (.elapsed, t, w)
    let args := ["--token", "t", "override", "set", "a", "1.2.3"]
    let env : Environment := ⟨fun _ => .error .notFound, none⟩
    CommandLine.parse args env.token = .error (.address "1.2.3") ∧
      (¬ ∃ c result w, Run.Comes network (fun _ => ()) wait Watch.looks () args env c result w) ∧
      (Run.ofArguments network (fun _ => ()) wait () args env).map (·.ending ⟨0, 0⟩) =
        some ⟨2, "", "error: Invalid IPv4 address: 1.2.3\n"⟩ := by
  intro network wait args env
  have hprepare : prepare args env = .error (.usage (.address "1.2.3")) := by decide +kernel
  refine ⟨by decide +kernel, ?_, by decide +kernel⟩
  rintro ⟨c, result, w, task, hok, -⟩
  cases hprepare.symm.trans hok

end FilterConsole
