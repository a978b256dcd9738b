import FilterConsole.Command
import FilterConsole.Proofs.Effects
import FilterConsole.Watch

/-! Two runs side by side, in one of which a secret is replaced by another. An operation takes the credential from the
session to present it and does nothing else with it, so both runs have the same effects and come to the same end. -/

namespace FilterConsole

variable {α β γ ε σ τ : Type}

theorem Credential.eq_iff {c d : Credential} : c = d ↔ c.secret = d.secret := by
  cases c
  cases d
  simp

/-- A credential, and another one to take its place. -/
structure Replacement where
  old : Credential
  new : Credential

namespace Replacement

variable (r : Replacement)

def text (s : String) : String := if s = r.old.secret then r.new.secret else s

def credential (c : Credential) : Credential := if c = r.old then r.new else c

def call (x : Credential × Call) : Credential × Call := (r.credential x.1, x.2)

def session (s : Session) : Session := { s with credential := s.credential.map r.credential }

/-- A text other than the new secret, and what stands in its place. -/
def Turns (s s' : String) : Prop := s ≠ r.new.secret ∧ s' = r.text s

variable {r}

theorem secret_credential (c : Credential) : (r.credential c).secret = r.text c.secret := by
  unfold credential text
  by_cases h : c = r.old
  · rw [if_pos h, if_pos (Credential.eq_iff.mp h)]
  · rw [if_neg h, if_neg fun hs => h (Credential.eq_iff.mpr hs)]

/-- Texts that differ go on to differ, because nothing but the old secret becomes the new one. -/
theorem Turns.eq_iff {s s' t t' : String} (hs : r.Turns s s') (ht : r.Turns t t') : s' = t' ↔ s = t := by
  obtain ⟨hs, rfl⟩ := hs
  obtain ⟨ht, rfl⟩ := ht
  unfold text
  split <;> split
  · simp_all
  · grind
  · grind
  · exact Iff.rfl

end Replacement

/-- A failure is the same on both sides, and values are as `V` says. -/
inductive Agree (V : α → β → Prop) : Except ε α → Except ε β → Prop
  | ok {a : α} {b : β} (h : V a b) : Agree V (.ok a) (.ok b)
  | error (e : ε) : Agree V (.error e) (.error e)

theorem agree_eq {x y : Except ε α} (h : Agree Eq x y) : x = y := by
  cases h with
  | ok h => rw [h]
  | error e => rfl

def Credential.Mirrors (r : Replacement) (c c' : Credential) : Prop := r.Turns c.secret c'.secret

theorem Credential.Mirrors.eq {r : Replacement} {c c' : Credential} (h : c.Mirrors r c') : c' = r.credential c := by
  rw [Credential.eq_iff, h.2, Replacement.secret_credential]

theorem Credential.Mirrors.map_eq {r : Replacement} {c c' : Option Credential}
    (h : Option.Rel (Credential.Mirrors r) c c') : c' = c.map r.credential := by
  cases h with
  | some h => rw [h.eq, Option.map_some]
  | none => rfl

structure Session.Mirrors (r : Replacement) (s s' : Session) : Prop where
  credential : Option.Rel (Credential.Mirrors r) s.credential s'.credential
  rest : s' = { s with credential := s'.credential }

namespace Session.Mirrors

variable {r : Replacement} {s s' : Session}

/-- A change that leaves the credential alone and does not look at it. -/
theorem change (h : s.Mirrors r s') (f : Session → Session) (hkeeps : ∀ s, (f s).credential = s.credential)
    (hblind : ∀ s c, f { s with credential := c } = { f s with credential := c }) : (f s).Mirrors r (f s') := by
  refine ⟨?_, ?_⟩
  · rw [hkeeps, hkeeps]
    exact h.credential
  · rw [h.rest, hblind]

theorem login {c c' : Credential} (h : s.Mirrors r s') (hc : c.Mirrors r c') : (s.login c).Mirrors r (s'.login c') := by
  refine ⟨.some hc, ?_⟩
  rw [h.rest]
  rfl

theorem logout (h : s.Mirrors r s') : s.logout.Mirrors r s'.logout := by
  refine ⟨.none, ?_⟩
  rw [h.rest]
  rfl

theorem observe (h : s.Mirrors r s') (x : Except ConsoleError α) : (s.observe x).Mirrors r (s'.observe x) := by
  unfold Session.observe
  split
  · exact h.logout
  · exact h

theorem claim (h : s.Mirrors r s') : s.claim.Mirrors r s'.claim := by
  refine h.change (·.claim) Session.claim_credential fun s c => ?_
  unfold Session.claim
  split <;> rfl

theorem eq (h : s.Mirrors r s') : s' = r.session s := by
  rw [h.rest, Replacement.session, Credential.Mirrors.map_eq h.credential]

theorem watching (h : s.Mirrors r s') : s'.watching = s.watching := by rw [h.rest]

theorem seen (h : s.Mirrors r s') : s'.seen = s.seen := by rw [h.rest]

theorem order (h : s.Mirrors r s') : s'.order = s.order := by rw [h.rest]

end Session.Mirrors

/-- A service whose answers do not tell one run from the other, as long as its states are as `S` says. -/
structure Backend.Mirrors (r : Replacement) (S : σ → σ → Prop) (b : Backend σ) : Prop where
  fetch : ∀ {c c' s s'}, c.Mirrors r c' → S s s' → ∀ f,
    (b.fetch c' f s').1 = (b.fetch c f s).1 ∧ S (b.fetch c f s).2 (b.fetch c' f s').2
  write : ∀ {c c' s s'}, c.Mirrors r c' → S s s' → ∀ w,
    (b.write c' w s').1 = (b.write c w s).1 ∧ S (b.write c w s).2 (b.write c' w s').2

structure World.Mirrors (r : Replacement) (S : σ → σ → Prop) (w w' : World σ) : Prop where
  session : w.session.Mirrors r w'.session
  service : S w.service w'.service
  log : w'.log = w.log.map r.call

theorem World.Mirrors.answered {r : Replacement} {S : σ → σ → Prop} {w w' : World σ} (h : w.Mirrors r S w')
    {c c' : Credential} (hc : c.Mirrors r c') {s s' : σ} (hs : S s s') (call : Call) :
    ({ w with service := s, log := (c, call) :: w.log } : World σ).Mirrors r S
      { w' with service := s', log := (c', call) :: w'.log } := by
  refine ⟨h.session, hs, ?_⟩
  rw [h.log, hc.eq]
  rfl

namespace Program

variable {r : Replacement} {V : α → β → Prop}

/-- Two programs with the same effects, whatever the credentials that they present, and with ends as `V` says. -/
inductive Mirrors (r : Replacement) (V : α → β → Prop) : Program α → Program β → Prop
  | done {a : α} {b : β} (h : V a b) : Mirrors r V (.done a) (.done b)
  | access {change : Session → Session} {next : Session → Program α} {next' : Session → Program β}
      (hchange : ∀ s s', s.Mirrors r s' → (change s).Mirrors r (change s'))
      (hnext : ∀ s s', s.Mirrors r s' → Mirrors r V (next s) (next' s')) :
      Mirrors r V (.access change next) (.access change next')
  | fetch {c c' : Credential} {f : Fetch} {next : Except ConsoleError f.Answer → Program α}
      {next' : Except ConsoleError f.Answer → Program β} (hc : c.Mirrors r c')
      (hnext : ∀ x, Mirrors r V (next x) (next' x)) : Mirrors r V (.fetch c f next) (.fetch c' f next')
  | write {c c' : Credential} {wr : Write} {next : Except ConsoleError Unit → Program α}
      {next' : Except ConsoleError Unit → Program β} (hc : c.Mirrors r c')
      (hnext : ∀ x, Mirrors r V (next x) (next' x)) : Mirrors r V (.write c wr next) (.write c' wr next')

theorem Mirrors.bind {δ : Type} {W : γ → δ → Prop} {p : Program α} {q : Program β} {k : α → Program γ}
    {l : β → Program δ} (h : p.Mirrors r V q) (hk : ∀ a b, V a b → (k a).Mirrors r W (l b)) :
    (p.bind k).Mirrors r W (q.bind l) := by
  induction h with
  | done h => exact hk _ _ h
  | access hchange _ ih => exact .access hchange ih
  | fetch hc _ ih => exact .fetch hc ih
  | write hc _ ih => exact .write hc ih

theorem Mirrors.run {S : σ → σ → Prop} {b : Backend σ} (hb : b.Mirrors r S) {p : Program α} {q : Program β}
    (h : p.Mirrors r V q) {w w' : World σ} (hw : w.Mirrors r S w') :
    V (p.run b w).1 (q.run b w').1 ∧ (p.run b w).2.Mirrors r S (q.run b w').2 := by
  -- Both programs make the same effect; where it is a call the answer is the same.
  induction h generalizing w w' with
  | done h => exact ⟨h, hw⟩
  | access hchange _ ih => exact ih _ _ hw.session ⟨hchange _ _ hw.session, hw.service, hw.log⟩
  | @fetch c c' f next next' hc _ ih =>
    obtain ⟨hanswer, hservice⟩ := hb.fetch hc hw.service f
    simp only [Program.run]
    rw [hanswer]
    exact ih _ (hw.answered hc hservice _)
  | @write c c' wr next next' hc _ ih =>
    obtain ⟨hanswer, hservice⟩ := hb.write hc hw.service wr
    simp only [Program.run]
    rw [hanswer]
    exact ih _ (hw.answered hc hservice _)

end Program

namespace Operation

open Program (Mirrors)

variable {r : Replacement}

theorem mirrors_bind {δ : Type} {V : α → β → Prop} {W : γ → δ → Prop} {m : Operation α} {n : Operation β}
    {k : α → Operation γ} {l : β → Operation δ} (h : m.run.Mirrors r (Agree V) n.run)
    (hk : ∀ a b, V a b → (k a).run.Mirrors r (Agree W) (l b).run) :
    (m >>= k).run.Mirrors r (Agree W) (n >>= l).run := by
  refine Mirrors.bind (p := m.run) (q := n.run) (k := ExceptT.bindCont k) (l := ExceptT.bindCont l) h fun x y hxy => ?_
  cases hxy with
  | ok h => exact hk _ _ h
  | error e => exact .done (.error e)

theorem mirrors_session : session.run.Mirrors r (Agree (Session.Mirrors r)) session.run :=
  .access (fun _ _ h => h) fun _ _ h => .done (.ok h)

theorem mirrors_credential : credential.run.Mirrors r (Agree (Credential.Mirrors r)) credential.run := by
  refine mirrors_bind mirrors_session fun s s' h => ?_
  obtain ⟨hcredential, -⟩ := h
  revert hcredential
  generalize s.credential = c
  generalize s'.credential = c'
  intro hcredential
  cases hcredential with
  | some h => exact .done (.ok h)
  | none => exact .done (.error _)

theorem mirrors_modify {change : Session → Session} (h : ∀ s s', s.Mirrors r s' → (change s).Mirrors r (change s')) :
    (modify change).run.Mirrors r (Agree Eq) (modify change).run :=
  .access h fun _ _ _ => .done (.ok rfl)

theorem mirrors_observed (x : Except ConsoleError α) : (observed x).run.Mirrors r (Agree Eq) (observed x).run := by
  refine .access (fun _ _ h => h.observe x) fun _ _ _ => .done ?_
  cases x with
  | ok a => exact .ok rfl
  | error e => exact .error e

theorem mirrors_fetch {c c' : Credential} (hc : c.Mirrors r c') (f : Fetch) :
    (fetch c f).run.Mirrors r (Agree Eq) (fetch c' f).run := .fetch hc mirrors_observed

theorem mirrors_write {c c' : Credential} (hc : c.Mirrors r c') (wr : Write) :
    (write c wr).run.Mirrors r (Agree Eq) (write c' wr).run := .write hc mirrors_observed

end Operation

open Operation in
theorem refresh_mirrors (r : Replacement) : refresh.run.Mirrors r (Agree Eq) refresh.run := by
  refine mirrors_bind mirrors_credential fun c c' hc => ?_
  refine mirrors_bind (mirrors_fetch hc .filter) ?_
  rintro filter _ rfl
  refine mirrors_bind (mirrors_fetch hc .cache) ?_
  rintro cache _ rfl
  refine mirrors_bind (mirrors_fetch hc .queryLog) ?_
  rintro queryLog _ rfl
  refine mirrors_bind (mirrors_fetch hc .allowList) ?_
  rintro allowList _ rfl
  refine mirrors_bind (mirrors_fetch hc .overrides) ?_
  rintro overrides _ rfl
  refine mirrors_bind (mirrors_fetch hc .autoUpdate) ?_
  rintro autoUpdate _ rfl
  refine mirrors_bind mirrors_session fun s s' hs => ?_
  rw [hs.order]
  refine mirrors_bind (mirrors_modify fun _ _ h => h.change (·.see _) (fun _ => rfl) fun _ _ => rfl) fun _ _ _ => ?_
  exact .done (.ok rfl)

open Operation in
theorem Command.mirrors (r : Replacement) (command : Command) :
    command.run.run.Mirrors r (Agree Eq) command.run.run := by
  have hwrite : (Command.run.liftExcept command.write).run.Mirrors r (Agree Eq)
      (Command.run.liftExcept command.write).run := by
    refine .done ?_
    cases command.write with
    | ok wr => exact .ok rfl
    | error e => exact .error e
  refine mirrors_bind hwrite ?_
  rintro wr _ rfl
  refine mirrors_bind mirrors_credential fun c c' hc => ?_
  exact mirrors_bind (mirrors_write hc wr) fun _ _ _ => refresh_mirrors r

namespace Watch

open Program (Mirrors)

variable {r : Replacement}

theorem mirrors_close (result : Except ConsoleError UpdateOutcome) : (close result).Mirrors r Eq (close result) :=
  .access (fun _ _ h => h.change (·.release) (fun _ => rfl) fun _ _ => rfl) fun _ _ _ => .done rfl

theorem mirrors_orClose {V : α → β → Prop} {m : Operation α} {n : Operation β} {k : α → Program Phase}
    {l : β → Program Phase} (h : m.run.Mirrors r (Agree V) n.run) (hk : ∀ a b, V a b → (k a).Mirrors r Eq (l b)) :
    (orClose m k).Mirrors r Eq (orClose n l) := by
  refine h.bind fun x y hxy => ?_
  cases hxy with
  | ok h => exact hk _ _ h
  | error e => exact mirrors_close _

theorem mirrors_settle (limit : Option UInt32) (x : Waiting) (view : View) :
    (settle limit x view).Mirrors r Eq (settle limit x view) := by
  unfold settle
  split
  · exact mirrors_close _
  · split
    · exact mirrors_close _
    · exact .done rfl

theorem mirrors_setUpdate {u : UpdateState} {p : Program Phase} (h : p.Mirrors r Eq p) :
    (Program.access (·.setUpdate u) fun _ => p).Mirrors r Eq (.access (·.setUpdate u) fun _ => p) :=
  .access (fun _ _ h => h.change (·.setUpdate u) (fun _ => rfl) fun _ _ => rfl) fun _ _ _ => h

theorem mirrors_poll (limit : Option UInt32) (x : Waiting) : (poll limit x).Mirrors r Eq (poll limit x) := by
  refine mirrors_setUpdate (mirrors_orClose (refresh_mirrors r) ?_)
  rintro view _ rfl
  exact mirrors_settle limit _ view

theorem mirrors_request (limit : Option UInt32) (seen : Option Timestamp) :
    (request limit seen).Mirrors r Eq (request limit seen) := by
  have hcommand : (do Operation.write (← Operation.credential) .rebuild : Operation Unit).run.Mirrors r (Agree Eq)
      (do Operation.write (← Operation.credential) .rebuild : Operation Unit).run :=
    Operation.mirrors_bind Operation.mirrors_credential fun c c' hc => Operation.mirrors_write hc .rebuild
  refine mirrors_orClose hcommand fun _ _ _ => mirrors_orClose (refresh_mirrors r) ?_
  rintro view _ rfl
  exact mirrors_setUpdate (mirrors_settle limit _ view)

theorem mirrors_start (limit : Option UInt32) (cancelled : Bool) :
    (start limit cancelled).Mirrors r Eq (start limit cancelled) := by
  refine .access (fun _ _ h => h.claim) fun s s' h => ?_
  rw [h.watching]
  split
  · exact .done rfl
  · split
    · exact mirrors_close _
    · refine .access (fun _ _ h => h) fun s s' h => ?_
      rw [h.seen]
      exact mirrors_request limit _

def Surroundings.Mirrors (r : Replacement) (T : τ → τ → Prop) (S : σ → σ → Prop) (wait : Surroundings τ σ) : Prop :=
  ∀ {t t' w w'}, T t t' → w.Mirrors r S w' →
    (wait t' w').1 = (wait t w).1 ∧ T (wait t w).2.1 (wait t' w').2.1 ∧ (wait t w).2.2.Mirrors r S (wait t' w').2.2

def EndMirrors (r : Replacement) (T : τ → τ → Prop) (S : σ → σ → Prop)
    (x x' : Except ConsoleError UpdateOutcome × τ × World σ) : Prop :=
  x'.1 = x.1 ∧ T x.2.1 x'.2.1 ∧ x.2.2.Mirrors r S x'.2.2

section Run

variable {T : τ → τ → Prop} {S : σ → σ → Prop} {b : Backend σ} {wait : Surroundings τ σ} {t t' : τ} {w w' : World σ}

theorem follow_mirrors (hb : b.Mirrors r S) (hwait : wait.Mirrors r T S) (limit : Option UInt32) (looks : Nat)
    (phase : Phase) (ht : T t t') (hw : w.Mirrors r S w') :
    Option.Rel (EndMirrors r T S) (follow b limit wait looks phase t w) (follow b limit wait looks phase t' w') := by
  induction looks generalizing phase t t' w w' with
  | zero =>
    cases phase with
    | finished result => exact .some ⟨rfl, ht, hw⟩
    | waiting x => exact .none
  | succ looks ih =>
    cases phase with
    | finished result => exact .some ⟨rfl, ht, hw⟩
    | waiting x =>
      obtain ⟨hwake, ht, hw⟩ := hwait ht hw
      rw [follow, follow]
      revert hwake ht hw
      rcases wait t w with ⟨wake, t, w⟩
      rcases wait t' w' with ⟨wake', t', w'⟩
      rintro rfl ht hw
      -- Both sides wake in the same way, and so do the same next.
      have hgoes : ∀ p : Program Phase, p.Mirrors r Eq p → Option.Rel (EndMirrors r T S)
          (follow b limit wait looks (p.run b w).1 t (p.run b w).2)
          (follow b limit wait looks (p.run b w').1 t' (p.run b w').2) := by
        intro p hp
        obtain ⟨hphase, hw⟩ := hp.run hb hw
        rw [← hphase]
        exact ih _ ht hw
      cases wake' with
      | elapsed => exact hgoes _ (mirrors_poll limit x)
      | cancelled => exact hgoes _ (mirrors_close _)

theorem run_mirrors (hb : b.Mirrors r S) (hwait : wait.Mirrors r T S) (limit : Option UInt32) (cancelled : Bool)
    (looks : Nat) (ht : T t t') (hw : w.Mirrors r S w') :
    Option.Rel (EndMirrors r T S) (run b limit cancelled wait looks t w) (run b limit cancelled wait looks t' w') := by
  obtain ⟨hphase, hw⟩ := (mirrors_start limit cancelled).run hb hw
  rw [run, run]
  simp only [← hphase]
  exact follow_mirrors hb hwait limit looks _ ht hw

end Run

end Watch

end FilterConsole
