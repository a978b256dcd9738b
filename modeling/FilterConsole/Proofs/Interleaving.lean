import FilterConsole.Proofs.ReadYourWrites
import FilterConsole.Proofs.Sections
import Mathlib.Data.List.Forall2

/-! Operations among others. Between two effects of a program anything may happen to the world, so what the program comes
to is told by the worlds that its effects find, and by nothing else. -/

namespace FilterConsole

variable {α β σ : Type}

namespace Program

/-- What is left of a program whose effects have found these worlds, one after the other. -/
def through (b : Backend σ) : Program α → List (World σ) → Program α
  | p, [] => p
  | p, w :: ws => (p.step b w).1.through b ws

variable {b : Backend σ}

@[simp] theorem through_nil (p : Program α) : p.through b [] = p := by
  rw [through]

@[simp] theorem through_cons (p : Program α) (w : World σ) (ws : List (World σ)) :
    p.through b (w :: ws) = (p.step b w).1.through b ws := by
  rw [through]

theorem through_done (a : α) (ws : List (World σ)) : (done a).through b ws = .done a := by
  induction ws with
  | nil => exact through_nil _
  | cons w ws ih => exact (through_cons _ w ws).trans ih

theorem eq_of_through_done {a a' : α} {ws : List (World σ)} (h : (done a).through b ws = .done a') : a = a' := by
  rw [through_done] at h
  exact Program.done.inj h

/-- A run in which nobody interferes is one of them. -/
theorem through_worlds (p : Program α) (w : World σ) : p.through b (p.worlds b w) = .done (p.run b w).1 := by
  induction p generalizing w with
  | done a => exact through_done a [w]
  | access change next ih => exact (through_cons _ _ _).trans (ih _ _)
  | fetch c f next ih => exact (through_cons _ _ _).trans (ih _ _)
  | write c wr next ih => exact (through_cons _ _ _).trans (ih _ _)

theorem step_bind {p : Program α} (hp : ∀ a, p ≠ .done a) (k : α → Program β) (w : World σ) :
    ((p.bind k).step b w).1 = (p.step b w).1.bind k := by
  cases p with
  | done a => exact absurd rfl (hp a)
  | _ => rfl

/-- What is bound begins when the first program has ended. -/
theorem through_bind {p : Program α} {k : α → Program β} {ws : List (World σ)} {z : β}
    (h : (p.bind k).through b ws = .done z) :
    ∃ a us vs, ws = us ++ vs ∧ p.through b us = .done a ∧ (k a).through b vs = .done z := by
  induction ws generalizing p with
  | nil =>
    rw [through_nil] at h
    cases p with
    | done a => exact ⟨a, [], [], rfl, through_nil _, (through_nil _).trans h⟩
    | _ => cases h
  | cons w ws ih =>
    by_cases hp : ∃ a, p = .done a
    · obtain ⟨a, rfl⟩ := hp
      exact ⟨a, [], w :: ws, rfl, through_nil _, h⟩
    · rw [through_cons, step_bind fun a ha => hp ⟨a, ha⟩] at h
      obtain ⟨a, us, vs, rfl, hus, hvs⟩ := ih h
      exact ⟨a, w :: us, vs, rfl, (through_cons _ w us).trans hus, hvs⟩

inductive Yields (P : α → Prop) : Program α → Prop
  | done {a : α} (ha : P a) : Yields P (.done a)
  | access {change : Session → Session} {next : Session → Program α} (hnext : ∀ s, Yields P (next s)) :
      Yields P (.access change next)
  | fetch {c : Credential} {f : Fetch} {next : Except ConsoleError f.Answer → Program α}
      (hnext : ∀ r, Yields P (next r)) : Yields P (.fetch c f next)
  | write {c : Credential} {wr : Write} {next : Except ConsoleError Unit → Program α}
      (hnext : ∀ r, Yields P (next r)) : Yields P (.write c wr next)

theorem Yields.step {P : α → Prop} {p : Program α} (hp : p.Yields P) (w : World σ) : (p.step b w).1.Yields P := by
  cases hp with
  | done ha => exact .done ha
  | access hnext => exact hnext _
  | fetch hnext => exact hnext _
  | write hnext => exact hnext _

theorem Yields.of_through {P : α → Prop} {p : Program α} (hp : p.Yields P) {ws : List (World σ)} {a : α}
    (h : p.through b ws = .done a) : P a := by
  induction ws generalizing p with
  | nil =>
    rw [through_nil] at h
    subst h
    cases hp with
    | done ha => exact ha
  | cons w ws ih => exact ih (hp.step w) ((through_cons p w ws).symm.trans h)

end Program

namespace Operation

variable {b : Backend σ}

theorem through_bind {m : Operation α} {k : α → Operation β} {ws : List (World σ)} {z : β}
    (h : (m >>= k).run.through b ws = .done (.ok z)) :
    ∃ a us vs, ws = us ++ vs ∧ m.run.through b us = .done (.ok a) ∧ (k a).run.through b vs = .done (.ok z) := by
  obtain ⟨r, us, vs, hws, hus, hvs⟩ := Program.through_bind (p := m.run) (k := ExceptT.bindCont k) h
  cases r with
  | ok a => exact ⟨a, us, vs, hws, hus, hvs⟩
  | error e =>
    have hend : Except.error e = .ok z := Program.eq_of_through_done hvs
    cases hend

/-- A read that succeeds is answered in the first world that it finds. -/
theorem through_fetch {c : Credential} {f : Fetch} {ws : List (World σ)} {a : f.Answer}
    (h : (fetch c f).run.through b ws = .done (.ok a)) :
    ∃ w, [w].Sublist ws ∧ (b.fetch c f w.service).1 = .ok a := by
  cases ws with
  | nil => cases (Program.through_nil _).symm.trans h
  | cons w ws =>
    refine ⟨w, List.singleton_sublist.mpr List.mem_cons_self, ?_⟩
    have hyields : (observed (b.fetch c f w.service).1).run.Yields (· = (b.fetch c f w.service).1) :=
      .access fun _ => .done rfl
    exact (hyields.of_through ((Program.through_cons _ w ws).symm.trans h)).symm

theorem through_fetch_then {c : Credential} {f : Fetch} {k : f.Answer → Operation α} {ws : List (World σ)} {z : α}
    (h : (fetch c f >>= k).run.through b ws = .done (.ok z)) :
    ∃ a w us vs, ws = us ++ vs ∧ [w].Sublist us ∧ (b.fetch c f w.service).1 = .ok a ∧
      (k a).run.through b vs = .done (.ok z) := by
  obtain ⟨a, us, vs, hws, hus, hvs⟩ := through_bind h
  obtain ⟨w, hw, ha⟩ := through_fetch hus
  exact ⟨a, w, us, vs, hws, hw, ha, hvs⟩

theorem through_session {ws : List (World σ)} {s : Session} (h : session.run.through b ws = .done (.ok s)) :
    ∃ w, [w].Sublist ws ∧ s = w.session := by
  cases ws with
  | nil => cases (Program.through_nil _).symm.trans h
  | cons w ws =>
    refine ⟨w, List.singleton_sublist.mpr List.mem_cons_self, ?_⟩
    have hend : Except.ok w.session = .ok s := Program.eq_of_through_done ((Program.through_cons _ w ws).symm.trans h)
    exact (Except.ok.inj hend).symm

theorem through_credential {ws : List (World σ)} {c : Credential}
    (h : credential.run.through b ws = .done (.ok c)) :
    ∃ w, [w].Sublist ws ∧ w.session.credential = some c := by
  obtain ⟨s, us, vs, rfl, hs, hc⟩ := through_bind h
  obtain ⟨w, hw, rfl⟩ := through_session hs
  refine ⟨w, hw.trans (List.sublist_append_left us vs), ?_⟩
  cases hcredential : w.session.credential with
  | none =>
    rw [hcredential] at hc
    have hend : Except.error ConsoleError.missingCredential = .ok c := Program.eq_of_through_done hc
    cases hend
  | some d =>
    rw [hcredential] at hc
    have hend : Except.ok d = .ok c := Program.eq_of_through_done hc
    rw [Except.ok.inj hend]

end Operation

def Sections.ofAnswers (filter : Snapshot) (cache : Fetch.cache.Answer) (queryLog : Fetch.queryLog.Answer)
    (allowList : Fetch.allowList.Answer) (overrides : Fetch.overrides.Answer) (autoUpdate : Fetch.autoUpdate.Answer) :
    Sections
  | .filter => filter
  | .cache => cache
  | .queryLog => queryLog
  | .allowList => allowList
  | .overrides => overrides
  | .autoUpdate => autoUpdate

/-- A refresh that brings a view finds a credential, then six reads that are answered, then the order of the view. -/
theorem refresh_through {b : Backend σ} {ws : List (World σ)} {v : View}
    (h : refresh.run.through b ws = .done (.ok v)) :
    ∃ c x start reads built, (start :: reads ++ [built]).Sublist ws ∧ start.session.credential = some c ∧
      List.Forall₂ (fun f w => (b.fetch c f w.service).1 = .ok (x f)) Fetch.inOrder reads ∧
      v = Sections.view x built.session.order := by
  obtain ⟨c, us, _, rfl, hcredential, h⟩ := Operation.through_bind h
  obtain ⟨start, hstart, hc⟩ := Operation.through_credential hcredential
  obtain ⟨filter, w1, us1, _, rfl, hw1, hfilter, h⟩ := Operation.through_fetch_then h
  obtain ⟨cache, w2, us2, _, rfl, hw2, hcache, h⟩ := Operation.through_fetch_then h
  obtain ⟨queryLog, w3, us3, _, rfl, hw3, hqueryLog, h⟩ := Operation.through_fetch_then h
  obtain ⟨allowList, w4, us4, _, rfl, hw4, hallowList, h⟩ := Operation.through_fetch_then h
  obtain ⟨overrides, w5, us5, _, rfl, hw5, hoverrides, h⟩ := Operation.through_fetch_then h
  obtain ⟨autoUpdate, w6, us6, _, rfl, hw6, hautoUpdate, h⟩ := Operation.through_fetch_then h
  obtain ⟨session, us7, rest, rfl, hsession, h⟩ := Operation.through_bind h
  obtain ⟨built, hbuilt, rfl⟩ := Operation.through_session hsession
  let x := Sections.ofAnswers filter cache queryLog allowList overrides autoUpdate
  have hyields : Program.Yields (fun r => r = .ok (x.view built.session.order))
      (do Operation.modify (·.see filter.createdAt)
          return x.view built.session.order : Operation View).run := .access fun _ => .done rfl
  have hview : Except.ok v = .ok (x.view built.session.order) := hyields.of_through h
  have hworlds : ([start] ++ ([w1] ++ ([w2] ++ ([w3] ++ ([w4] ++ ([w5] ++ ([w6] ++ [built]))))))).Sublist _ :=
    hstart.append (hw1.append (hw2.append (hw3.append (hw4.append (hw5.append (hw6.append
      (hbuilt.trans (List.sublist_append_left us7 rest))))))))
  refine ⟨c, x, start, [w1, w2, w3, w4, w5, w6], built, hworlds, hc, ?_, Except.ok.inj hview⟩
  exact .cons hfilter (.cons hcache (.cons hqueryLog (.cons hallowList (.cons hoverrides (.cons hautoUpdate .nil)))))

namespace Program

/-- Where a program ends with something that has a view, a refresh within it has brought the view. -/
def Shows (b : Backend σ) (view? : α → Option View) (p : Program α) : Prop :=
  ∀ ws a v, p.through b ws = .done a → view? a = some v →
    ∃ us, us.Sublist ws ∧ refresh.run.through b us = .done (.ok v)

variable {b : Backend σ} {view? : α → Option View}

theorem Shows.of_yields {p : Program α} (hp : p.Yields fun a => view? a = none) : p.Shows b view? := by
  intro ws a v h hv
  rw [hp.of_through h] at hv
  cases hv

theorem Shows.access {change : Session → Session} {next : Session → Program α} (h : ∀ s, (next s).Shows b view?) :
    (Program.access change next).Shows b view? := by
  intro ws a v hrun hv
  cases ws with
  | nil => cases (through_nil _).symm.trans hrun
  | cons w ws =>
    obtain ⟨us, hus, hrefresh⟩ := h w.session ws a v ((through_cons _ w ws).symm.trans hrun) hv
    exact ⟨us, hus.cons w, hrefresh⟩

theorem Shows.bind {p : Program β} {k : β → Program α} (h : ∀ a, (k a).Shows b view?) :
    (p.bind k).Shows b view? := by
  intro ws z v hrun hv
  obtain ⟨a, us, vs, rfl, _, hvs⟩ := through_bind hrun
  obtain ⟨us', hus', hrefresh⟩ := h a vs z v hvs hv
  exact ⟨us', hus'.trans (List.sublist_append_right us vs), hrefresh⟩

theorem Shows.refresh {k : Except ConsoleError View → Program α}
    (hok : ∀ view, (k (.ok view)).Yields fun a => ∀ v, view? a = some v → v = view)
    (herror : ∀ e, (k (.error e)).Yields fun a => view? a = none) :
    (FilterConsole.refresh.run.bind k).Shows b view? := by
  intro ws z v hrun hv
  obtain ⟨r, us, vs, rfl, hus, hvs⟩ := through_bind hrun
  cases r with
  | error e =>
    rw [(herror e).of_through hvs] at hv
    cases hv
  | ok view =>
    rw [(hok view).of_through hvs v hv]
    exact ⟨us, List.sublist_append_left us vs, hus⟩

theorem Shows.map {p : Program β} {f : β → α} {phase? : β → Option View} (hp : p.Shows b phase?)
    (hf : ∀ a v, view? (f a) = some v → phase? a = some v) : (p.bind fun a => .done (f a)).Shows b view? := by
  intro ws z v hrun hv
  obtain ⟨a, us, vs, rfl, hus, hvs⟩ := through_bind hrun
  obtain rfl : f a = z := eq_of_through_done hvs
  obtain ⟨us', hus', hrefresh⟩ := hp us a v hus (hf a v hv)
  exact ⟨us', hus'.trans (List.sublist_append_left us vs), hrefresh⟩

end Program

namespace Watch

def Phase.view? : Phase → Option View
  | finished (.ok o) => some o.view
  | _ => none

theorem yields_close {P : Phase → Prop} {r : Except ConsoleError UpdateOutcome} (h : P (.finished r)) :
    (close r).Yields P := .access fun _ => .done h

theorem yields_settle (limit : Option UInt32) (x : Waiting) (view : View) :
    (settle limit x view).Yields fun phase => ∀ v, phase.view? = some v → v = view := by
  unfold settle
  split
  · exact yields_close fun v hv => (Option.some.inj hv).symm
  · split
    · exact yields_close fun v hv => by cases hv
    · exact .done fun v hv => by cases hv

variable {b : Backend σ}

theorem shows_orClose_refresh {next : View → Program Phase}
    (h : ∀ view, (next view).Yields fun phase => ∀ v, phase.view? = some v → v = view) :
    (orClose refresh next).Shows b Phase.view? :=
  .refresh h fun _ => yields_close rfl

theorem poll_shows (limit : Option UInt32) (x : Waiting) : (poll limit x).Shows b Phase.view? :=
  .access fun _ => shows_orClose_refresh (yields_settle limit _)

theorem start_shows (limit : Option UInt32) (cancelled : Bool) : (start limit cancelled).Shows b Phase.view? := by
  refine .access fun before => ?_
  split
  · exact .of_yields (.done rfl)
  · split
    · exact .of_yields (yields_close rfl)
    · refine .access fun s => .bind fun r => ?_
      cases r with
      | error e => exact .of_yields (yields_close rfl)
      | ok u => exact shows_orClose_refresh fun view => .access fun _ => yields_settle limit _ view

end Watch

theorem Operation.shows_bind {b : Backend σ} {m : Operation α} {k : α → Operation View}
    (h : ∀ a, (k a).run.Shows b Except.toOption) : (m >>= k).run.Shows b Except.toOption := by
  refine Program.Shows.bind (p := m.run) (k := ExceptT.bindCont k) fun r => ?_
  cases r with
  | ok a => exact h a
  | error e => exact .of_yields (.done rfl)

theorem Command.run_shows (b : Backend σ) (command : Command) : command.run.run.Shows b Except.toOption := by
  refine Operation.shows_bind fun wr => Operation.shows_bind fun c => Operation.shows_bind fun u => ?_
  intro ws r v h hv
  cases r with
  | error e => cases hv
  | ok view =>
    cases hv
    exact ⟨ws, List.Sublist.refl ws, h⟩

namespace Upshot

theorem view?_ofView (r : Except ConsoleError View) : (ofView r).view? = r.toOption := by
  cases r <;> rfl

theorem view?_ofPhase (limit : Option UInt32) (waits : Nat) (others : List Holder) (phase : Watch.Phase) :
    (ofPhase limit waits others phase).1.view? = phase.view? := by
  cases phase with
  | waiting x => rfl
  | finished r => cases r <;> rfl

end Upshot

/-- Except by re-sorting one, a deed answers no view that a refresh within it has not brought. -/
theorem Deed.shows (b : Backend σ) (holders : List Holder) {d : Deed} (hd : ∀ view field, d ≠ .resort view field) :
    (d.program holders).Shows b (·.1.view?) := by
  cases d with
  | refresh => exact .refresh (fun view => .done fun v hv => (Option.some.inj hv).symm) fun e => .done rfl
  | command command =>
    refine .map (command.run_shows b) fun r v hv => ?_
    rwa [Upshot.view?_ofView] at hv
  | resort view field => exact absurd rfl (hd view field)
  | watch limit cancelled =>
    refine .map (Watch.start_shows limit cancelled) fun phase v hv => ?_
    rwa [Upshot.view?_ofPhase] at hv
  | wake i how =>
    simp only [program]
    split
    · next limit x waits _ =>
      cases how with
      | elapsed =>
        refine .map (Watch.poll_shows limit x) fun phase v hv => ?_
        rwa [Upshot.view?_ofPhase] at hv
      | cancelled =>
        refine .map (.of_yields (Watch.yields_close (P := fun phase => phase.view? = none) rfl)) fun phase v hv => ?_
        rwa [Upshot.view?_ofPhase] at hv
    · exact .of_yields (.done rfl)
  | observe r => cases r <;> exact .of_yields (.access fun _ => .done rfl)
  | claim =>
    refine .access fun before => ?_
    split <;> exact .of_yields (.done rfl)
  | setUpdate i u =>
    simp only [program]
    split
    · exact .of_yields (.access fun _ => .done rfl)
    · exact .of_yields (.done rfl)
  | release i =>
    simp only [program]
    split
    · exact .of_yields (.access fun _ => .done rfl)
    · exact .of_yields (.done rfl)
  | _ => exact .of_yields (.access fun _ => .done rfl)

end FilterConsole
