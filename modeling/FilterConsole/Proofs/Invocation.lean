import FilterConsole.Console

/-! A command line is settings and then a task. The word of a task ends the settings; what follows it decides the task
and nothing else. -/

namespace FilterConsole

namespace CommandLine

namespace Level

variable {l : Level} {check : Check} {s s' : State} {args : List String}

theorem scan_append (h : l.scan check s args = .ok (s', none)) (rest : List String) :
    l.scan check s (args ++ rest) = l.scan check s' rest := by
  induction args generalizing s with
  | nil =>
    cases h
    rfl
  | cons arg args ih =>
    rw [scan] at h
    rw [List.cons_append, scan]
    split at h
    · cases h
    · next hword =>
      rw [if_neg hword]
      cases hstep : l.step check s arg with
      | error e =>
        rw [hstep] at h
        cases h
      | ok t =>
        rw [hstep] at h
        exact ih h

theorem scan_word {word : String} (hs : s.operandsOnly = false) (hs' : s.lacksValue = false) (h : word ∈ l.branches)
    (rest : List String) : l.scan check s (word :: rest) = .ok (s, some (word, rest)) := by
  rw [scan, if_pos (by simp [hs, hs', h])]

section Parse

variable {α : Type} {below : String → List String → Except UsageError α}

/-- A line that ends at this level. -/
theorem parse_last (h : l.scan check { operands := l.operands } args = .ok (s, none)) :
    l.parse check below args = (s.settle check).map fun s => (s.values, none) := by
  unfold parse
  rw [h]
  change (s.settle check >>= _) = _
  cases s.settle check <;> rfl

/-- What is wrong below comes before what waits to be checked here. -/
theorem parse_word {word : String} {rest : List String}
    (h : l.scan check { operands := l.operands } args = .ok (s, some (word, rest))) :
    l.parse check below args = (below word rest).bind fun a => (s.settle check).map fun s => (s.values, some a) := by
  unfold parse
  rw [h]
  change (below word rest >>= fun a => pure (some a)) >>= _ = _
  cases below word rest with
  | error e => rfl
  | ok a => cases s.settle check <;> rfl

end Parse

end Level

/-- Arguments before the word of a task: settings, the last of which does not lack its value. -/
def IsSettings (args : List String) : Prop :=
  ∃ s, top.scan check { operands := [] } args = .ok (s, none) ∧ s.operandsOnly = false ∧ s.lacksValue = false

theorem top_parse {settings : List String} (h : IsSettings settings) :
    ∃ s : State, ∀ word rest, word ∈ top.branches → top.parse check readTask (settings ++ word :: rest) =
      (readTask word rest).bind fun task => (s.settle check).map fun s => (s.values, some task) := by
  obtain ⟨s, hscan, hoperands, hvalue⟩ := h
  exact ⟨s, fun word rest hword =>
    Level.parse_word ((Level.scan_append hscan _).trans (Level.scan_word hoperands hvalue hword rest))⟩

/-- A task that is wrong refuses the command line, whatever the settings before it. -/
theorem parse_refused {settings : List String} (h : IsSettings settings) {word : String} {rest : List String}
    (hword : word ∈ top.branches) {e : UsageError} (htask : readTask word rest = .error e) (token : Option String) :
    parse (settings ++ word :: rest) token = .error e := by
  obtain ⟨s, hparse⟩ := top_parse h
  rw [parse, hparse word rest hword, htask]
  rfl

/-- Settings mean the same before every task. -/
theorem parse_settings {settings : List String} (h : IsSettings settings) (token : Option String) :
    ∃ r : Except UsageError (Option String × Config.Overrides), ∀ word rest task, word ∈ top.branches →
      readTask word rest = .ok task →
        parse (settings ++ word :: rest) token = r.map fun x => ⟨x.1, x.2, task⟩ := by
  obtain ⟨s, htop⟩ := top_parse h
  have hparse : ∀ word rest task, word ∈ top.branches → readTask word rest = .ok task →
      top.parse check readTask (settings ++ word :: rest) = (s.settle check).map fun s => (s.values, some task) := by
    intro word rest task hword htask
    rw [htop word rest hword, htask]
    rfl
  cases hsettled : s.settle check with
  | error e =>
    refine ⟨.error e, fun word rest task hword htask => ?_⟩
    rw [parse, hparse word rest task hword htask, hsettled]
    rfl
  | ok s' =>
    cases hformat : (s'.values.lookup "log-format").mapM readLogFormat with
    | error e =>
      refine ⟨.error e, fun word rest task hword htask => ?_⟩
      rw [parse, hparse word rest task hword htask, hsettled]
      change (Option.mapM readLogFormat (s'.values.lookup "log-format") >>= _) = _
      rw [hformat]
      rfl
    | ok format =>
      refine ⟨.ok (s'.values.lookup "config", ⟨s'.values.lookup "base-url", s'.values.lookup "token" <|> token,
        s'.values.lookup "log-level", format⟩), fun word rest task hword htask => ?_⟩
      rw [parse, hparse word rest task hword htask, hsettled]
      change (Option.mapM readLogFormat (s'.values.lookup "log-format") >>= _) = _
      rw [hformat]
      rfl

end CommandLine

/-- Settings mean the same configuration, or refusal, before every task. -/
theorem prepare_settings {settings : List String} (h : CommandLine.IsSettings settings) (env : Environment) :
    ∃ r : Except Refusal Config, ∀ word rest task, word ∈ CommandLine.top.branches →
      CommandLine.readTask word rest = .ok task → prepare (settings ++ word :: rest) env = r.map (task, ·) := by
  obtain ⟨r, hr⟩ := CommandLine.parse_settings h env.token
  cases r with
  | error e =>
    refine ⟨.error (.usage e), fun word rest task hword htask => ?_⟩
    rw [prepare, hr word rest task hword htask]
    rfl
  | ok x =>
    refine ⟨(Config.loadValid env.files x.1 x.2).mapError .config, fun word rest task hword htask => ?_⟩
    rw [prepare, hr word rest task hword htask]
    change (Except.mapError Refusal.config (Config.loadValid env.files x.1 x.2) >>= _) = _
    cases Config.loadValid env.files x.1 x.2 <;> rfl

end FilterConsole
