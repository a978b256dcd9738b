import FilterConsole.Proofs.Mirror
import FilterConsole.Proofs.Scripted

/-! Scripts with one secret in place of another. Wherever the secret stands, with the logins, at the start or in the
store, nothing but the credentials themselves shows which one it is. -/

namespace FilterConsole

open Script

namespace StoreChange

def secrets (d : StoreChange) : List String := (d.accepted.bind id).toList

end StoreChange

namespace Script

def Action.secrets : Action StoreChange → List String
  | .change d => d.secrets
  | .login secret => [secret]
  | _ => []

def Occurrence.secrets : Occurrence StoreChange → List String
  | .action a => a.secrets
  | _ => []

def Step.secrets : Step StoreChange → List String
  | .action a => a.secrets
  | .watch _ _ events => events.flatMap fun e => e.occurrence.secrets

end Script

namespace Replacement

variable (r : Replacement)

def store (s : Store) : Store := { s with accepted := s.accepted.map r.text }

def storeChange (d : StoreChange) : StoreChange := { d with accepted := d.accepted.map (·.map r.text) }

def action : Action StoreChange → Action StoreChange
  | .change d => .change (r.storeChange d)
  | .login secret => .login (r.text secret)
  | a => a

def occurrence : Occurrence StoreChange → Occurrence StoreChange
  | .action a => .action (r.action a)
  | o => o

def event (e : Event StoreChange) : Event StoreChange := { e with occurrence := r.occurrence e.occurrence }

def step : Step StoreChange → Step StoreChange
  | .action a => .action (r.action a)
  | .watch policy cancelled events => .watch policy cancelled (events.map r.event)

def note (n : Note) : Note := { n with session := r.session n.session }

def answer : Answer → Answer
  | .outcome o => .outcome o
  | .watch report => .watch { report with events := report.events.map r.note }

def entry (e : Entry) : Entry := ⟨r.answer e.answer, e.calls.map r.call, r.session e.session⟩

end Replacement

structure Store.Mirrors (r : Replacement) (s s' : Store) : Prop where
  lacks : s.accepted ≠ some r.new.secret
  eq : s' = r.store s

namespace Store

variable {r : Replacement} {s s' : Store}

theorem Mirrors.refusal? (h : s.Mirrors r s') {c c' : Credential} (hc : c.Mirrors r c') (call : Call) :
    s'.refusal? c' call = s.refusal? c call := by
  obtain ⟨hlacks, rfl⟩ := h
  unfold Store.refusal? Replacement.store
  cases haccepted : s.accepted with
  | none => rfl
  | some secret =>
    have hsecret : r.Turns secret (r.text secret) := ⟨fun hs => hlacks (by rw [haccepted, hs]), rfl⟩
    have hsame : r.text secret ≠ c'.secret ↔ secret ≠ c.secret := not_congr (hsecret.eq_iff hc)
    simp only [Option.map_some, hsame]

theorem Mirrors.read (h : s.Mirrors r s') (f : Fetch) :
    (s'.read f).1 = (s.read f).1 ∧ (s.read f).2.Mirrors r (s'.read f).2 := by
  obtain ⟨hlacks, rfl⟩ := h
  cases f with
  | filter =>
    unfold Store.read nextFilter Replacement.store
    dsimp only
    split <;> exact ⟨rfl, hlacks, rfl⟩
  | _ => exact ⟨rfl, hlacks, rfl⟩

theorem Mirrors.apply (h : s.Mirrors r s') (w : Write) : (s.apply w).Mirrors r (s'.apply w) := by
  obtain ⟨hlacks, rfl⟩ := h
  cases w <;> exact ⟨hlacks, rfl⟩

theorem service_mirrors (r : Replacement) : service.toBackend.Mirrors r (Mirrors r) where
  fetch := by
    intro c c' s s' hc hs f
    simp only [service]
    rw [hs.refusal? hc]
    cases s.refusal? c (.fetch f) with
    | some e => exact ⟨rfl, hs⟩
    | none => exact hs.read f
  write := by
    intro c c' s s' hc hs w
    simp only [service]
    rw [hs.refusal? hc]
    cases s.refusal? c (.write w) with
    | some e => exact ⟨rfl, hs⟩
    | none => exact ⟨rfl, hs.apply w⟩

theorem Mirrors.change (h : s.Mirrors r s') {d : StoreChange} (hd : r.new.secret ∉ d.secrets) :
    (d.apply s).Mirrors r ((r.storeChange d).apply s') := by
  obtain ⟨hlacks, rfl⟩ := h
  unfold StoreChange.apply Replacement.storeChange Replacement.store
  cases haccepted : d.accepted with
  | none => exact ⟨hlacks, rfl⟩
  | some accepted =>
    refine ⟨fun hs => hd ?_, rfl⟩
    rw [StoreChange.secrets, haccepted]
    exact Option.mem_toList.mpr hs

end Store

namespace Script

variable {r : Replacement}

structure Stage.Mirrors (r : Replacement) (s s' : Stage Store) : Prop where
  world : s.world.Mirrors r (Store.Mirrors r) s'.world
  holding : s'.holding = s.holding
  view : s'.view = s.view

namespace Stage

variable {s s' : Stage Store}

theorem Mirrors.mapSession (h : s.Mirrors r s') {f f' : Session → Session}
    (hf : (f s.world.session).Mirrors r (f' s'.world.session)) : (s.mapSession f).Mirrors r (s'.mapSession f') :=
  ⟨⟨hf, h.world.service, h.world.log⟩, h.holding, h.view⟩

theorem Mirrors.perform (h : s.Mirrors r s') {operation : Operation View}
    (ho : operation.run.Mirrors r (Agree Eq) operation.run) :
    (s'.perform Store.service.toBackend operation).1 = (s.perform Store.service.toBackend operation).1 ∧
      (s.perform Store.service.toBackend operation).2.Mirrors r (s'.perform Store.service.toBackend operation).2 := by
  have hrun := ho.run (Store.service_mirrors r) h.world
  unfold Stage.perform
  rcases hx : operation.run.run Store.service.toBackend s.world with ⟨result, w⟩
  rcases hx' : operation.run.run Store.service.toBackend s'.world with ⟨result', w'⟩
  rw [hx, hx'] at hrun
  obtain ⟨hresult, hworld⟩ := hrun
  obtain rfl := agree_eq hresult
  cases result with
  | error e => exact ⟨rfl, hworld, h.holding, h.view⟩
  | ok v => exact ⟨rfl, hworld, h.holding, rfl⟩

theorem Mirrors.login (h : s.Mirrors r s') {secret : String} (hsecret : secret ≠ r.new.secret) :
    (s'.act Store.service (.login (r.text secret))).1 = (s.act Store.service (.login secret)).1 ∧
      (s.act Store.service (.login secret)).2.Mirrors r (s'.act Store.service (.login (r.text secret))).2 := by
  have hblank : trim (r.text secret) ≠ "" ↔ trim secret ≠ "" := by
    unfold Replacement.text
    split
    · next heq => rw [heq, iff_true_right r.old.not_blank]; exact r.new.not_blank
    · exact Iff.rfl
  by_cases hne : trim secret ≠ ""
  · have hc : Credential.ofSecret? secret = some ⟨secret, hne⟩ := dif_pos hne
    have hc' : Credential.ofSecret? (r.text secret) = some ⟨r.text secret, hblank.mpr hne⟩ := dif_pos _
    rw [act, act, hc, hc']
    exact ⟨rfl, h.mapSession (h.world.session.login ⟨hsecret, rfl⟩)⟩
  · have hc : Credential.ofSecret? secret = none := dif_neg hne
    have hc' : Credential.ofSecret? (r.text secret) = none := dif_neg (mt hblank.mp hne)
    rw [act, act, hc, hc']
    exact ⟨rfl, h⟩

theorem Mirrors.act (h : s.Mirrors r s') {a : Action StoreChange} (ha : r.new.secret ∉ a.secrets) :
    (s'.act Store.service (r.action a)).1 = (s.act Store.service a).1 ∧
      (s.act Store.service a).2.Mirrors r (s'.act Store.service (r.action a)).2 := by
  have hsession := h.world.session
  cases a with
  | change d => exact ⟨rfl, ⟨hsession, h.world.service.change ha, h.world.log⟩, h.holding, h.view⟩
  | login secret => exact h.login fun hs => ha (by rw [hs]; exact List.mem_singleton_self _)
  | logout => exact ⟨rfl, h.mapSession hsession.logout⟩
  | look => exact ⟨rfl, h⟩
  | refresh => exact h.perform (refresh_mirrors r)
  | resort field =>
    have htoggled := hsession.change (·.toggle field) (fun _ => rfl) fun _ _ => rfl
    simp only [Stage.act, Replacement.action, resort]
    rw [h.view]
    cases s.view with
    | none => exact ⟨rfl, h⟩
    | some v =>
      dsimp only
      rw [htoggled.order]
      exact ⟨rfl, ⟨htoggled, h.world.service, h.world.log⟩, h.holding, rfl⟩
  | toggle field =>
    have htoggled := hsession.change (·.toggle field) (fun _ => rfl) fun _ _ => rfl
    exact ⟨congrArg Outcome.order htoggled.order, h.mapSession htoggled⟩
  | setOrder order => exact ⟨rfl, h.mapSession (hsession.change (·.setOrder order) (fun _ => rfl) fun _ _ => rfl)⟩
  | command c => exact h.perform (c.mirrors r)
  | observe error =>
    cases error with
    | none => exact ⟨rfl, h⟩
    | some e => exact ⟨rfl, h.mapSession (hsession.observe _)⟩
  | see createdAt => exact ⟨rfl, h.mapSession (hsession.change (·.see createdAt) (fun _ => rfl) fun _ _ => rfl)⟩
  | claim =>
    simp only [Stage.act, Replacement.action]
    rw [hsession.watching]
    split
    · exact ⟨rfl, h⟩
    · exact ⟨rfl, (h.mapSession hsession.claim).world, rfl, h.view⟩
  | setPolls polls =>
    simp only [Stage.act, Replacement.action]
    rw [h.holding]
    refine ⟨rfl, ?_⟩
    split
    · exact h.mapSession (hsession.change (·.setUpdate (.polling polls)) (fun _ => rfl) fun _ _ => rfl)
    · exact h
  | release =>
    simp only [Stage.act, Replacement.action]
    rw [h.holding]
    refine ⟨rfl, ?_⟩
    split
    · have hreleased := hsession.change (·.release) (fun _ => rfl) fun _ _ => rfl
      exact ⟨(h.mapSession hreleased).world, rfl, h.view⟩
    · exact h

end Stage

theorem undisturbed_mirrors (r : Replacement) (S : Store → Store → Prop) (policy : WatchPolicy) :
    (undisturbed policy).Mirrors r Eq S := by
  rintro now _ w w' rfl hw
  exact ⟨rfl, rfl, hw⟩

namespace Clock

structure Mirrors (r : Replacement) (t t' : Clock StoreChange) : Prop where
  now : t'.now = t.now
  ahead : t'.ahead = t.ahead.map r.event
  lacks : ∀ e ∈ t.ahead, r.new.secret ∉ e.occurrence.secrets
  notes : t'.notes = t.notes.map r.note
  holding : t'.holding = t.holding
  view : t'.view = t.view

variable {t t' : Clock StoreChange} {w w' : World Store}

def Alike (r : Replacement) (x x' : Clock StoreChange × World Store) : Prop :=
  x.1.Mirrors r x'.1 ∧ x.2.Mirrors r (Store.Mirrors r) x'.2

theorem Mirrors.noted (h : t.Mirrors r t') (hw : w.Mirrors r (Store.Mirrors r) w') (outcome : Outcome) :
    (⟨outcome, w'.session⟩ :: t'.notes : List Note) = ((⟨outcome, w.session⟩ :: t.notes : List Note).map r.note) := by
  rw [h.notes, hw.session.eq]
  rfl

theorem Mirrors.happen (h : t.Mirrors r t') (hw : w.Mirrors r (Store.Mirrors r) w') {o : Occurrence StoreChange}
    (ho : r.new.secret ∉ o.secrets) :
    Alike r (t.happen Store.service w o) (t'.happen Store.service w' (r.occurrence o)) := by
  cases o with
  | cancel => exact ⟨{ h with notes := h.noted hw .done }, hw⟩
  | action a =>
    have hstage : (Stage.mk w t.holding t.view).Mirrors r ⟨w', t'.holding, t'.view⟩ := ⟨hw, h.holding, h.view⟩
    obtain ⟨houtcome, hafter⟩ := hstage.act ho
    simp only [Clock.happen, Replacement.occurrence]
    rw [houtcome]
    exact ⟨{ h with
      notes := h.noted hafter.world _
      holding := hafter.holding
      view := hafter.view }, hafter.world⟩
  | watch policy cancelled =>
    have hrun := Watch.run_mirrors (Store.service_mirrors r) (undisturbed_mirrors r _ policy) policy.limit cancelled
      Watch.looks h.now.symm hw
    simp only [Clock.happen, Replacement.occurrence]
    generalize Watch.run Store.service.toBackend policy.limit cancelled (undisturbed policy) Watch.looks t.now w = x
      at hrun ⊢
    generalize Watch.run Store.service.toBackend policy.limit cancelled (undisturbed policy) Watch.looks t'.now w' = x'
      at hrun ⊢
    cases hrun with
    | none => exact ⟨h, hw⟩
    | @some x x' hx =>
      obtain ⟨result, now, v⟩ := x
      obtain ⟨result', now', v'⟩ := x'
      obtain ⟨hresult, hnow, hv⟩ := hx
      dsimp only at hresult hnow hv
      subst hresult hnow
      refine ⟨{ h with now := rfl, notes := h.noted hv _, view := ?_ }, hv⟩
      cases result' with
      | ok o => rfl
      | error e => exact h.view

theorem Mirrors.await (h : t.Mirrors r t') (hw : w.Mirrors r (Store.Mirrors r) w') (deadline : Nat) (cancelled : Bool)
    {events : List (Event StoreChange)} (hevents : ∀ e ∈ events, r.new.secret ∉ e.occurrence.secrets) :
    (await Store.service deadline cancelled (events.map r.event) t' w').1 =
        (await Store.service deadline cancelled events t w).1 ∧
      Alike r (await Store.service deadline cancelled events t w).2
        (await Store.service deadline cancelled (events.map r.event) t' w').2 := by
  induction events generalizing cancelled t t' w w' with
  | nil =>
    cases cancelled
    · exact ⟨rfl, { h with now := rfl, ahead := rfl, lacks := List.forall_mem_nil _ }, hw⟩
    · exact ⟨rfl, { h with ahead := rfl, lacks := List.forall_mem_nil _ }, hw⟩
  | cons e rest ih =>
    obtain ⟨he, hrest⟩ := List.forall_mem_cons.mp hevents
    have hdue : ({ t with now := max t.now e.atMs } : Clock StoreChange).Mirrors r
        { t' with now := max t'.now e.atMs } := { h with now := by rw [h.now] }
    have hhappen := hdue.happen hw he
    simp only [List.map_cons, Clock.await, Replacement.event]
    simp only [h.now] at hhappen ⊢
    split
    · exact ⟨rfl, { h with now := rfl, ahead := rfl, lacks := hevents }, hw⟩
    · split
      · exact ⟨rfl, { h with now := rfl, ahead := rfl, lacks := hevents }, hw⟩
      · -- Whether an event cancels the watch does not depend on a secret.
        obtain ⟨atMs, o⟩ := e
        cases o <;> exact ih hhappen.1 hhappen.2 _ hrest

theorem surroundings_mirrors (r : Replacement) (policy : WatchPolicy) :
    (surroundings Store.service policy).Mirrors r (Mirrors r) (Store.Mirrors r) := by
  intro t t' w w' h hw
  obtain ⟨hwake, halike⟩ := h.await hw (t.now + policy.waitMs) false h.lacks
  rw [surroundings, surroundings, h.now, h.ahead]
  exact ⟨hwake, halike⟩

theorem Mirrors.finish (h : t.Mirrors r t') (hw : w.Mirrors r (Store.Mirrors r) w') :
    Alike r (t.finish Store.service w) (t'.finish Store.service w') := by
  have key : ∀ (events : List (Event StoreChange)) (x x' : Clock StoreChange × World Store), Alike r x x' →
      (∀ e ∈ events, r.new.secret ∉ e.occurrence.secrets) →
      Alike r
        (events.foldl (fun x e => { x.1 with now := max x.1.now e.atMs }.happen Store.service x.2 e.occurrence) x)
        ((events.map r.event).foldl
          (fun x e => { x.1 with now := max x.1.now e.atMs }.happen Store.service x.2 e.occurrence) x') := by
    intro events
    induction events with
    | nil => exact fun x x' hx _ => hx
    | cons e rest ih =>
      intro x x' hx hevents
      obtain ⟨he, hrest⟩ := List.forall_mem_cons.mp hevents
      have hdue : ({ x.1 with now := max x.1.now e.atMs } : Clock StoreChange).Mirrors r
          { x'.1 with now := max x'.1.now e.atMs } := { hx.1 with now := by rw [hx.1.now] }
      exact ih _ _ (hdue.happen hx.2 he) hrest
  unfold Clock.finish
  rw [h.ahead]
  exact key t.ahead _ _ ⟨{ h with ahead := rfl, lacks := by simp }, hw⟩ h.lacks

end Clock

namespace Stage

variable {s s' : Stage Store}

theorem mirrors_reported {x x' : Clock StoreChange × World Store} (h : Clock.Alike r x x')
    (result : Except ConsoleError UpdateOutcome) {now now' : Nat} (hnow : now' = now) :
    r.answer (.watch ⟨result, now, x.1.notes.reverse⟩) = .watch ⟨result, now', x'.1.notes.reverse⟩ ∧
      (⟨x.2, x.1.holding, x.1.view⟩ : Stage Store).Mirrors r ⟨x'.2, x'.1.holding, x'.1.view⟩ := by
  obtain ⟨hclock, hworld⟩ := h
  refine ⟨?_, hworld, hclock.holding, hclock.view⟩
  rw [hclock.notes, hnow, ← List.map_reverse]
  rfl

theorem Mirrors.watch (h : s.Mirrors r s') (policy : WatchPolicy) (cancelled : Bool) {events : List (Event StoreChange)}
    (hevents : ∀ e ∈ events, r.new.secret ∉ e.occurrence.secrets) :
    Option.Rel (fun x x' => r.answer (.watch x.1) = .watch x'.1 ∧ x.2.Mirrors r x'.2)
      (s.watch Store.service policy cancelled events)
      (s'.watch Store.service policy cancelled (events.map r.event)) := by
  have hclock : (⟨0, events, [], s.holding, s.view⟩ : Clock StoreChange).Mirrors r
      ⟨0, events.map r.event, [], s'.holding, s'.view⟩ := ⟨rfl, rfl, hevents, rfl, h.holding, h.view⟩
  have hrun := Watch.run_mirrors (Store.service_mirrors r) (Clock.surroundings_mirrors r policy) policy.limit cancelled
    Watch.looks hclock h.world
  unfold Stage.watch
  dsimp only
  generalize Watch.run Store.service.toBackend policy.limit cancelled (Clock.surroundings Store.service policy)
    Watch.looks ⟨0, events, [], s.holding, s.view⟩ s.world = x at hrun ⊢
  generalize Watch.run Store.service.toBackend policy.limit cancelled (Clock.surroundings Store.service policy)
    Watch.looks ⟨0, events.map r.event, [], s'.holding, s'.view⟩ s'.world = x' at hrun ⊢
  cases hrun with
  | none => exact .none
  | @some x x' hx =>
    obtain ⟨result, t, w⟩ := x
    obtain ⟨result', t', w'⟩ := x'
    obtain ⟨hresult, ht, hw⟩ := hx
    dsimp only at hresult ht hw
    subst hresult
    have hfinish : ∀ v v', v' = v → Clock.Alike r (Clock.finish Store.service { t with view := v } w)
        (Clock.finish Store.service { t' with view := v' } w') := fun v v' hv =>
      Clock.Mirrors.finish { ht with view := hv } hw
    cases result' with
    | ok o => exact .some (mirrors_reported (hfinish (some o.view) _ rfl) (.ok o) ht.now)
    | error e => exact .some (mirrors_reported (hfinish t.view _ ht.view) (.error e) ht.now)

theorem Mirrors.step (h : s.Mirrors r s') {step : Step StoreChange} (hstep : r.new.secret ∉ step.secrets) :
    Option.Rel (fun x x' => x'.1 = r.entry x.1 ∧ x.2.Mirrors r x'.2) (s.step Store.service step)
      (s'.step Store.service (r.step step)) := by
  have hanew : s.anew.Mirrors r s'.anew := ⟨⟨h.world.session, h.world.service, rfl⟩, h.holding, h.view⟩
  have hentry : ∀ {answer answer' : Answer} {v v' : Stage Store}, r.answer answer = answer' → v.Mirrors r v' →
      (⟨answer', v'.world.calls, v'.world.session⟩ : Entry) =
        r.entry ⟨answer, v.world.calls, v.world.session⟩ := by
    rintro answer _ v v' rfl hv
    rw [World.calls, hv.world.log, hv.world.session.eq, ← List.map_reverse]
    rfl
  cases step with
  | action a =>
    obtain ⟨houtcome, hafter⟩ := hanew.act hstep
    rw [Replacement.step, step_action, step_action]
    exact .some ⟨hentry (congrArg Answer.outcome houtcome.symm) hafter, hafter⟩
  | watch policy cancelled events =>
    have hevents : ∀ e ∈ events, r.new.secret ∉ e.occurrence.secrets :=
      fun e he hsecret => hstep (List.mem_flatMap.mpr ⟨e, he, hsecret⟩)
    have hwatch := hanew.watch policy cancelled hevents
    rw [Replacement.step, step_watch, step_watch]
    generalize s.anew.watch Store.service policy cancelled events = x at hwatch ⊢
    generalize s'.anew.watch Store.service policy cancelled (events.map r.event) = x' at hwatch ⊢
    cases hwatch with
    | none => exact .none
    | some hx => exact .some ⟨hentry hx.1 hx.2, hx.2⟩

theorem Mirrors.play (h : s.Mirrors r s') {steps : List (Step StoreChange)}
    (hsteps : ∀ step ∈ steps, r.new.secret ∉ step.secrets) :
    s'.play Store.service (steps.map r.step) = (s.play Store.service steps).map (List.map r.entry) := by
  induction steps generalizing s s' with
  | nil => rfl
  | cons step rest ih =>
    obtain ⟨hstep, hrest⟩ := List.forall_mem_cons.mp hsteps
    have hrel := h.step hstep
    simp only [List.map_cons, Stage.play]
    generalize s.step Store.service step = x at hrel ⊢
    generalize s'.step Store.service (r.step step) = x' at hrel ⊢
    cases hrel with
    | none => rfl
    | @some x x' hx =>
      obtain ⟨entry, v⟩ := x
      obtain ⟨entry', v'⟩ := x'
      obtain ⟨hentry, hv⟩ := hx
      dsimp only at hentry hv
      subst hentry
      change ((v'.play Store.service (rest.map r.step)).bind fun entries => some (r.entry entry :: entries)) =
        ((v.play Store.service rest).bind fun entries => some (entry :: entries)).map (List.map r.entry)
      rw [ih hv hrest]
      cases v.play Store.service rest <;> rfl

end Stage

end Script

/-- A secret serves to authenticate and for nothing else. Let another one that does not occur take its place wherever
it stands: every step comes to the same outcome in the same time, and makes the same calls with the same arguments.
Only the credentials presented and stored are others. -/
theorem secret_only_authenticates (r : Replacement) (credential : Option Credential) (order : HitOrder) (store : Store)
    (steps : List (Step StoreChange)) (hcredential : credential ≠ some r.new)
    (hstore : store.accepted ≠ some r.new.secret) (hsteps : ∀ step ∈ steps, r.new.secret ∉ step.secrets) :
    (Stage.initial (credential.map r.credential) order (r.store store)).play Store.service (steps.map r.step) =
      ((Stage.initial credential order store).play Store.service steps).map (List.map r.entry) := by
  have hsession : (Session.start order credential).Mirrors r (.start order (credential.map r.credential)) := by
    refine ⟨?_, rfl⟩
    cases credential with
    | none => exact .none
    | some c =>
      exact .some ⟨fun hc => hcredential (congrArg some (Credential.eq_iff.mpr hc)), Replacement.secret_credential c⟩
  have hinitial : (Stage.initial credential order store).Mirrors r
      (Stage.initial (credential.map r.credential) order (r.store store)) :=
    ⟨⟨hsession, ⟨hstore, rfl⟩, rfl⟩, rfl, rfl⟩
  exact hinitial.play hsteps

/-- Somebody logs in with a secret that the store does not accept, while a watch waits. -/
theorem secret_only_authenticates_during_watch :
    let r : Replacement := ⟨⟨"alpha", by decide +kernel⟩, ⟨"omega", by decide +kernel⟩⟩
    let store : Store := { Store.initial with accepted := some "alpha" }
    let steps : List (Step StoreChange) :=
      [.action (.login "alpha"), .action .refresh,
        .watch ⟨1000, some 1⟩ false [⟨500, .action (.login "other")⟩]]
    let replaced := (Stage.initial none ⟨.updatedAt, .desc⟩ (r.store store)).play Store.service (steps.map r.step)
    (∀ step ∈ steps, r.new.secret ∉ step.secrets) ∧
      replaced = ((Stage.initial none ⟨.updatedAt, .desc⟩ store).play Store.service steps).map (List.map r.entry) ∧
      replaced.map (List.map fun e => e.calls.map (·.1.secret)) =
        some [[], List.replicate 6 "omega", List.replicate 7 "omega" ++ ["other"]] := by
  intro r store steps replaced
  have hsteps : ∀ step ∈ steps, r.new.secret ∉ step.secrets := by
    simp [steps, r, Step.secrets, Action.secrets, Occurrence.secrets]
  have hreplaced := secret_only_authenticates r none ⟨.updatedAt, .desc⟩ store steps (by simp) (by simp [store, r])
    hsteps
  rw [Option.map_none] at hreplaced
  exact ⟨hsteps, hreplaced, by decide +kernel⟩

end FilterConsole
