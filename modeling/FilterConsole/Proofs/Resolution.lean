import FilterConsole.Proofs.ExitStatus
import FilterConsole.Proofs.Settings
import FilterConsole.Proofs.Trimming

/-! How a run comes to its configuration. One source is chosen and read, the settings of the command line replace what
they name, and what comes of it is checked. A run that comes to none ends before it sends anything. -/

namespace FilterConsole

namespace Config

/-- The source of a configuration: a file or, if there is none, the defaults. A file that is asked for is never passed
over. -/
inductive Chosen (files : Files) : Option String → Option String → Prop where
  | asked (path : String) : Chosen files (some path) (some path)
  | here (h : files.has "dns-console.toml" = true) : Chosen files none (some "dns-console.toml")
  | system (hnot : files.has "dns-console.toml" = false) (h : files.has "/etc/dns-console/config.toml" = true) :
    Chosen files none (some "/etc/dns-console/config.toml")
  | defaults (hnot : files.has "dns-console.toml" = false) (hnot' : files.has "/etc/dns-console/config.toml" = false) :
    Chosen files none none

inductive Gives (files : Files) : Option String → Except ConfigError Config → Prop where
  | unreadable {path : String} {problem : FileProblem} (h : files.readText path = .error problem) :
    Gives files (some path) (.error (.unreadable path problem))
  | malformed {path s : String} (h : files.readText path = .ok s)
    (hnot : ∀ root c, Toml.parse? s = some root → ofToml? root ≠ some c) : Gives files (some path) (.error .malformed)
  | parsed {path s : String} {root : Toml.Members} {c : Config} (h : files.readText path = .ok s)
    (hroot : Toml.parse? s = some root) (hc : ofToml? root = some c) : Gives files (some path) (.ok c)
  | defaults : Gives files none (.ok {})

inductive Overrides.Names (o : Overrides) : String → Prop where
  | baseUrl {url : String} (h : o.baseUrl = some url) : o.Names "base_url"
  | token {token : String} (h : o.token = some token) : o.Names "token"
  | logLevel {level : String} (h : o.logLevel = some level) : o.Names "level"
  | logFormat {format : LogFormat} (h : o.logFormat = some format) : o.Names "format"

structure Merged (o : Overrides) (c m : Config) : Prop where
  baseUrl : ∀ url, o.baseUrl = some url → m.api.baseUrl = url
  token : ∀ token, o.token = some token → m.api.token = some token
  logLevel : ∀ level, o.logLevel = some level → m.logging.level = level
  logFormat : ∀ format, o.logFormat = some format → m.logging.format = format
  others : ∀ f ∈ settings, ¬ o.Names f.key → f.value m = f.value c

structure Usable (c : Config) : Prop where
  baseUrl : ¬ Blank c.api.baseUrl
  timeoutSecs : c.api.timeoutSecs ≠ 0
  intervalMs : c.watcher.intervalMs ≠ 0

variable {files : Files} {path source : Option String} {r : Except ConfigError Config} {o : Overrides} {c m : Config}
  {e : ConfigError}

theorem chosen_iff : Chosen files path source ↔ source = Config.source files path := by
  constructor
  · rintro (_ | h | ⟨hnot, h⟩ | ⟨hnot, hnot'⟩) <;> simp [Config.source, usualPaths, *]
  · rintro rfl
    cases path with
    | some path => exact .asked path
    | none =>
      cases hhere : files.has "dns-console.toml"
      · cases hsystem : files.has "/etc/dns-console/config.toml"
        · simpa [Config.source, usualPaths, *] using Chosen.defaults hhere hsystem
        · simpa [Config.source, usualPaths, *] using Chosen.system hhere hsystem
      · simpa [Config.source, usualPaths, *] using Chosen.here hhere

def ofSource (files : Files) : Option String → Except ConfigError Config
  | some path => readFile files path
  | none => .ok {}

theorem load_eq : load files path o = (ofSource files (Config.source files path)).map (override · o) := by
  rw [load]
  cases Config.source files path <;> rfl

theorem parse_cases (s : String) :
    (∃ root c, Toml.parse? s = some root ∧ ofToml? root = some c ∧ parse s = .ok c) ∨
      (∀ root c, Toml.parse? s = some root → ofToml? root ≠ some c) ∧ parse s = .error .malformed := by
  rw [parse]
  cases hread : Toml.parse? s >>= ofToml? with
  | some c =>
    obtain ⟨root, hroot, hc⟩ := Option.bind_eq_some_iff.mp hread
    exact .inl ⟨root, c, hroot, hc, rfl⟩
  | none =>
    refine .inr ⟨fun root c hroot hc => ?_, rfl⟩
    cases hread.symm.trans (Option.bind_eq_some_iff.mpr ⟨root, hroot, hc⟩)

theorem gives_ofSource (files : Files) (source : Option String) : Gives files source (ofSource files source) := by
  cases source with
  | none => exact .defaults
  | some path =>
    rw [ofSource, readFile]
    cases hs : files.readText path with
    | error problem => exact .unreadable hs
    | ok s =>
      obtain ⟨root, c, hroot, hc, hparse⟩ | ⟨hnot, hparse⟩ := parse_cases s
      · dsimp only
        rw [hparse]
        exact .parsed hs hroot hc
      · dsimp only
        rw [hparse]
        exact .malformed hs hnot

theorem Gives.unique {r' : Except ConfigError Config} (h : Gives files source r) (h' : Gives files source r') :
    r = r' := by
  cases h with
  | unreadable h =>
    cases h' <;> simp_all
  | malformed h hnot =>
    cases h' with
    | unreadable h' => simp_all
    | malformed => rfl
    | parsed h' hroot hc =>
      cases h.symm.trans h'
      exact absurd hc (hnot _ _ hroot)
  | parsed h hroot hc =>
    cases h' with
    | unreadable h' => simp_all
    | malformed h' hnot =>
      cases h.symm.trans h'
      exact absurd hc (hnot _ _ hroot)
    | parsed h' hroot' hc' => simp_all
  | defaults =>
    cases h'
    rfl

theorem gives_iff : Gives files source r ↔ r = ofSource files source :=
  ⟨fun h => h.unique (gives_ofSource files source), fun h => h ▸ gives_ofSource files source⟩

theorem Overrides.eq_none {α : Type} {given : Option α} {key : String} (hnot : ¬ o.Names key)
    (hnames : ∀ x, given = some x → o.Names key) : given = none :=
  Option.eq_none_iff_forall_ne_some.mpr fun x hx => hnot (hnames x hx)

theorem merged_override (o : Overrides) (c : Config) : Merged o c (c.override o) where
  baseUrl url h := by simp [override, h]
  token token h := by simp [override, h]
  logLevel level h := by simp [override, h]
  logFormat format h := by simp [override, h]
  others f hf hnot := by
    have hurl (hkey : f.key = "base_url") : o.baseUrl = none := Overrides.eq_none (hkey ▸ hnot) fun _ => .baseUrl
    have htoken (hkey : f.key = "token") : o.token = none := Overrides.eq_none (hkey ▸ hnot) fun _ => .token
    have hlevel (hkey : f.key = "level") : o.logLevel = none := Overrides.eq_none (hkey ▸ hnot) fun _ => .logLevel
    have hformat (hkey : f.key = "format") : o.logFormat = none := Overrides.eq_none (hkey ▸ hnot) fun _ => .logFormat
    clear hnot
    revert f
    simp +contextual [settings, override]

/-- What is named is set and all else is left, so there is one such configuration. -/
theorem Merged.unique {m' : Config} (h : Merged o c m) (h' : Merged o c m') : m = m' := by
  refine ext_settings fun f hf => ?_
  by_cases hnames : o.Names f.key
  · generalize hkey : f.key = key at hnames
    revert f
    cases hnames with
    | baseUrl hurl =>
      have hsame := (h.baseUrl _ hurl).trans (h'.baseUrl _ hurl).symm
      simp [settings, hsame]
    | token htoken =>
      have hsame := (h.token _ htoken).trans (h'.token _ htoken).symm
      simp [settings, hsame]
    | logLevel hlevel =>
      have hsame := (h.logLevel _ hlevel).trans (h'.logLevel _ hlevel).symm
      simp [settings, hsame]
    | logFormat hformat =>
      have hsame := (h.logFormat _ hformat).trans (h'.logFormat _ hformat).symm
      simp [settings, hsame]
  · exact (h.others f hf hnames).trans (h'.others f hf hnames).symm

theorem merged_iff : Merged o c m ↔ m = c.override o :=
  ⟨fun h => h.unique (merged_override o c), fun h => h ▸ merged_override o c⟩

theorem fault?_eq_none_iff : c.fault? = none ↔ Usable c := by
  rw [fault?]
  constructor
  · intro h
    split at h
    · cases h
    · next hurl =>
      split at h
      · cases h
      · next htimeout =>
        split at h
        · cases h
        · next hinterval => exact ⟨mt trim_eq_empty_iff.mpr hurl, htimeout, hinterval⟩
  · rintro ⟨hurl, htimeout, hinterval⟩
    rw [if_neg (mt trim_eq_empty_iff.mp hurl), if_neg htimeout, if_neg hinterval]

theorem loadValid_of_error (h : load files path o = .error e) : loadValid files path o = .error e := by
  rw [loadValid, h]
  rfl

theorem loadValid_of_fault {fault : Fault} (h : load files path o = .ok m) (hfault : m.fault? = some fault) :
    loadValid files path o = .error (.rejected fault) := by
  rw [loadValid, h]
  dsimp only [bind, Except.bind]
  rw [hfault]

theorem loadValid_of_usable (h : load files path o = .ok m) (husable : Usable m) : loadValid files path o = .ok m := by
  rw [loadValid, h]
  dsimp only [bind, Except.bind]
  rw [fault?_eq_none_iff.mpr husable]

/-- A configuration is accepted as it was loaded, if it is usable. -/
theorem loadValid_eq_ok_iff : loadValid files path o = .ok m ↔ load files path o = .ok m ∧ Usable m := by
  constructor
  · intro h
    cases hload : load files path o with
    | error e => cases h.symm.trans (loadValid_of_error hload)
    | ok m' =>
      cases hfault : m'.fault? with
      | some fault => cases h.symm.trans (loadValid_of_fault hload hfault)
      | none =>
        have husable := fault?_eq_none_iff.mp hfault
        cases h.symm.trans (loadValid_of_usable hload husable)
        exact ⟨rfl, husable⟩
  · exact fun ⟨hload, husable⟩ => loadValid_of_usable hload husable

theorem loadValid_eq_error_iff :
    loadValid files path o = .error e ↔
      load files path o = .error e ∨
        ∃ m fault, load files path o = .ok m ∧ m.fault? = some fault ∧ e = .rejected fault := by
  constructor
  · intro h
    cases hload : load files path o with
    | error e' =>
      cases h.symm.trans (loadValid_of_error hload)
      exact .inl rfl
    | ok m =>
      cases hfault : m.fault? with
      | some fault =>
        cases h.symm.trans (loadValid_of_fault hload hfault)
        exact .inr ⟨m, fault, rfl, hfault, rfl⟩
      | none => cases h.symm.trans (loadValid_of_usable hload (fault?_eq_none_iff.mp hfault))
  · rintro (hload | ⟨m, fault, hload, hfault, rfl⟩)
    · exact loadValid_of_error hload
    · exact loadValid_of_fault hload hfault

theorem load_eq_error_iff : load files path o = .error e ↔ ofSource files (Config.source files path) = .error e := by
  rw [load_eq]
  cases ofSource files (Config.source files path) <;> simp [Except.map]

theorem load_eq_ok_iff :
    load files path o = .ok m ↔ ∃ c, ofSource files (Config.source files path) = .ok c ∧ Merged o c m := by
  simp only [merged_iff, load_eq]
  cases ofSource files (Config.source files path) <;> simp [Except.map, eq_comm]

structure Resolves (files : Files) (path : Option String) (r : Except ConfigError Config) (o : Overrides) : Prop where
  /-- Whether there is a configuration at all has nothing to do with the command line. -/
  fails : ∀ e, load files path o = .error e ↔ r = .error e
  loads : ∀ m, load files path o = .ok m ↔ ∃ c, r = .ok c ∧ Merged o c m
  accepts : ∀ m, loadValid files path o = .ok m ↔ load files path o = .ok m ∧ Usable m
  /-- The base URL that counts is that of the command line, if it gives one. -/
  usable : (∃ m, loadValid files path o = .ok m) ↔ ∃ c, r = .ok c ∧ ¬ Blank (o.baseUrl.getD c.api.baseUrl) ∧
    c.api.timeoutSecs ≠ 0 ∧ c.watcher.intervalMs ≠ 0
  rejects : ∀ e, loadValid files path o = .error e ↔
    r = .error e ∨ ∃ c m fault, r = .ok c ∧ Merged o c m ∧ m.fault? = some fault ∧ e = .rejected fault

theorem resolves_ofSource (files : Files) (path : Option String) (o : Overrides) :
    Resolves files path (ofSource files (Config.source files path)) o where
  fails _ := load_eq_error_iff
  loads _ := load_eq_ok_iff
  accepts _ := loadValid_eq_ok_iff
  usable := by
    simp only [loadValid_eq_ok_iff, load_eq_ok_iff, merged_iff]
    constructor
    · rintro ⟨m, ⟨c, hc, rfl⟩, hurl, htimeout, hinterval⟩
      exact ⟨c, hc, hurl, htimeout, hinterval⟩
    · rintro ⟨c, hc, hurl, htimeout, hinterval⟩
      exact ⟨_, ⟨c, hc, rfl⟩, hurl, htimeout, hinterval⟩
  rejects e := by
    rw [loadValid_eq_error_iff, load_eq_error_iff]
    refine or_congr_right ?_
    simp only [load_eq_ok_iff]
    constructor
    · rintro ⟨m, fault, ⟨c, hc, hm⟩, hfault, he⟩
      exact ⟨c, m, fault, hc, hm, hfault, he⟩
    · rintro ⟨c, m, fault, hc, hm, hfault, he⟩
      exact ⟨m, fault, ⟨c, hc, hm⟩, hfault, he⟩

end Config

namespace Run

variable {σ τ : Type}

def requests : Run σ → List Http.Request
  | refused _ => []
  | finished _ _ _ _ deliveries => deliveries.map (·.1)

/-- A run whose configuration fails is over any network the same, and sends nothing. -/
theorem ofArguments_of_loadValid_error (network : Http.Network σ) (service : Config → σ)
    (wait : Watch.Surroundings τ σ) (t : τ) {args : List String} {env : Environment} {x : Invocation} {e : ConfigError}
    (hparse : CommandLine.parse args env.token = .ok x)
    (he : Config.loadValid env.files x.configPath x.overrides = .error e) :
    ofArguments network service wait t args env = some (.refused (.config e)) := by
  rw [ofArguments, prepare_error_iff.mpr (.inr ⟨x, e, hparse, he, rfl⟩)]

end Run

/-- A configuration comes from one source: the file that is asked for, whatever becomes of it, else the first of the
usual files that is there, else the defaults. Nothing on the command line changes whether it can be had from there; of
what is had, just the settings that the command line names are replaced, and the outcome is accepted just if its base URL
is not blank and neither its timeout nor its interval is zero. A run whose configuration fails for any reason sends
nothing, over any network, and ends with status 1. -/
theorem configuration_resolved (files : Files) (path : Option String) :
    ∃ source r, (∀ source', Config.Chosen files path source' ↔ source' = source) ∧
      (∀ r', Config.Gives files source r' ↔ r' = r) ∧ (∀ o, Config.Resolves files path r o) ∧
      ∀ args token o task, CommandLine.parse args token = .ok ⟨path, o, task⟩ →
        ∀ e, Config.loadValid files path o = .error e →
          ∀ {σ τ : Type} (network : Http.Network σ) (service : Config → σ) (wait : Watch.Surroundings τ σ) (t : τ)
            (asOf : Timestamp), ∃ run, Run.ofArguments network service wait t args ⟨files, token⟩ = some run ∧
              run.requests = [] ∧ (run.ending asOf).status = 1 ∧ (run.ending asOf).output = "" := by
  refine ⟨_, _, fun _ => Config.chosen_iff, fun _ => Config.gives_iff, Config.resolves_ofSource files path, ?_⟩
  intro args token o task hparse e he σ τ network service wait t asOf
  exact ⟨_, Run.ofArguments_of_loadValid_error network service wait t hparse he, rfl, rfl, rfl⟩

/-- The base URL of a file is blank; the command line puts another in its place or leaves it. -/
theorem configuration_resolved_blank_url :
    let files : Files := fun path =>
      if path = "dns-console.toml" then .ok (utf8 "[api]\nbase_url = \" \"") else .error .notFound
    let network : Http.Network Unit := fun _ s => (.unreachable, s)
    let wait : Watch.Surroundings Unit Unit := fun t w => (.elapsed, t, w)
    (∃ m, Config.loadValid files none { baseUrl := some "http://10.0.0.2" } = .ok m ∧
        m.api.baseUrl = "http://10.0.0.2") ∧
      Config.loadValid files none {} = .error (.rejected .blankBaseUrl) ∧
      ∃ run, Run.ofArguments network (fun _ => ()) wait () ["show"] ⟨files, none⟩ = some run ∧ run.requests = [] ∧
        (run.ending ⟨0, 0⟩).status = 1 := by
  intro files network wait
  obtain ⟨source, r, hchosen, hgives, hresolves, hstops⟩ := configuration_resolved files none
  have hsource : source = some "dns-console.toml" := ((hchosen _).mp (.here (by decide +kernel))).symm
  subst hsource
  have htext : files.readText "dns-console.toml" = .ok "[api]\nbase_url = \" \"" := by decide +kernel
  have hread : Toml.parse? "[api]\nbase_url = \" \"" >>= Config.ofToml? = some { api := { baseUrl := " " } } := by
    decide +kernel
  obtain ⟨root, hroot, hc⟩ := Option.bind_eq_some_iff.mp hread
  have hr : r = .ok { api := { baseUrl := " " } } := ((hgives _).mp (.parsed htext hroot hc)).symm
  have hrejected : Config.loadValid files none {} = .error (.rejected .blankBaseUrl) :=
    ((hresolves {}).rejects _).mpr (.inr ⟨_, _, _, hr, Config.merged_override _ _, by decide +kernel, rfl⟩)
  refine ⟨?_, hrejected, ?_⟩
  · have hreplaced := hresolves { baseUrl := some "http://10.0.0.2" }
    obtain ⟨m, hm⟩ := hreplaced.usable.mpr ⟨_, hr, by simp [Blank, isBlank], by decide, by decide⟩
    obtain ⟨c, -, hmerged⟩ := (hreplaced.loads m).mp ((hreplaced.accepts m).mp hm).1
    exact ⟨m, hm, hmerged.baseUrl _ rfl⟩
  · have hparse : CommandLine.parse ["show"] none = .ok ⟨none, {}, .show none none⟩ := by decide +kernel
    obtain ⟨run, hrun, hsilent, hstatus, -⟩ :=
      hstops ["show"] none {} (.show none none) hparse _ hrejected network (fun _ => ()) wait () ⟨0, 0⟩
    exact ⟨run, hrun, hsilent, hstatus⟩

end FilterConsole
