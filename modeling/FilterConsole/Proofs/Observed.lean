import FilterConsole.Proofs.Composition

/-! Every operation lets the session observe each answer of the service at once. So the credential that a run finds is
the one it leaves, unless one of its calls was rejected. -/

namespace FilterConsole

variable {α β σ δ : Type}

structure Reply where
  credential : Credential
  call : Call
  failure : Option ConsoleError

def failure? : Except ConsoleError α → Option ConsoleError
  | .ok _ => none
  | .error e => some e

namespace Program

def replies (b : Backend σ) : Program α → World σ → List Reply
  | done _, _ => []
  | access change next, w => (next w.session).replies b (w.mapSession change)
  | fetch c f next, w =>
    let (r, service) := b.fetch c f w.service
    ⟨c, .fetch f, failure? r⟩ :: (next r).replies b { w with service, log := (c, .fetch f) :: w.log }
  | write c wr next, w =>
    let (r, service) := b.write c wr w.service
    ⟨c, .write wr, failure? r⟩ :: (next r).replies b { w with service, log := (c, .write wr) :: w.log }

theorem run_calls (b : Backend σ) (p : Program α) (w : World σ) :
    (p.run b w).2.calls = w.calls ++ (p.replies b w).map fun x => (x.credential, x.call) := by
  induction p generalizing w with
  | done a => simp [run, replies]
  | access change next ih => exact ih _ _
  | fetch c f next ih =>
    simp only [run, replies, List.map_cons]
    rw [ih]
    simp [World.calls]
  | write c wr next ih =>
    simp only [run, replies, List.map_cons]
    rw [ih]
    simp [World.calls]

/-- The session observes each answer at once, and the credential is touched in no other way. -/
inductive Observes : Program α → Prop
  | done (a : α) : Observes (.done a)
  | access {change : Session → Session} {next : Session → Program α}
      (hkeeps : ∀ s, (change s).credential = s.credential) (hnext : ∀ s, Observes (next s)) :
      Observes (.access change next)
  | fetch {c : Credential} {f : Fetch} {next : Except ConsoleError f.Answer → Session → Program α}
      (hnext : ∀ r s, Observes (next r s)) : Observes (.fetch c f fun r => .access (·.observe r) (next r))
  | write {c : Credential} {wr : Write} {next : Except ConsoleError Unit → Session → Program α}
      (hnext : ∀ r s, Observes (next r s)) : Observes (.write c wr fun r => .access (·.observe r) (next r))

theorem Observes.bind {p : Program α} {k : α → Program β} (hp : p.Observes) (hk : ∀ a, (k a).Observes) :
    (p.bind k).Observes := by
  induction hp with
  | done a => exact hk a
  | access hkeeps _ ih => exact .access hkeeps ih
  | fetch _ ih => exact .fetch ih
  | write _ ih => exact .write ih

theorem observe_credential (s : Session) (r : Except ConsoleError α) :
    (s.observe r).credential = s.credential ∨ (s.observe r).credential = none ∧ failure? r = some .unauthorized := by
  cases r with
  | ok a => exact .inl rfl
  | error e =>
    rw [Session.observe_error]
    by_cases he : e = .unauthorized
    · exact .inr ⟨if_pos he, congrArg some he⟩
    · exact .inl (if_neg he)

theorem credential_after_reply {s : Session} {r : Except ConsoleError α} {after : Option Credential} {x : Reply}
    {rest : List Reply} (hx : x.failure = failure? r)
    (h : after = (s.observe r).credential ∨ after = none ∧ ∃ y ∈ rest, y.failure = some .unauthorized) :
    after = s.credential ∨ after = none ∧ ∃ y ∈ x :: rest, y.failure = some .unauthorized := by
  obtain h | ⟨h, y, hy, hfailure⟩ := h
  · obtain ho | ⟨ho, hfailure⟩ := observe_credential s r
    · exact .inl (h.trans ho)
    · exact .inr ⟨h.trans ho, x, List.mem_cons_self, hx.trans hfailure⟩
  · exact .inr ⟨h, y, List.mem_cons_of_mem _ hy, hfailure⟩

/-- A run either keeps the credential or drops it because a call was rejected. -/
theorem Observes.credential {p : Program α} (hp : p.Observes) (b : Backend σ) (w : World σ) :
    (p.run b w).2.session.credential = w.session.credential ∨
      (p.run b w).2.session.credential = none ∧ ∃ x ∈ p.replies b w, x.failure = some .unauthorized := by
  -- Nothing but an answer changes the credential, and once it is gone no later answer brings it back.
  induction hp generalizing w with
  | done a => exact .inl rfl
  | access hkeeps _ ih =>
    obtain h | h := ih w.session (w.mapSession _)
    · exact .inl (h.trans (hkeeps _))
    · exact .inr h
  | fetch _ ih => exact credential_after_reply rfl (ih _ _ (World.mapSession _ _))
  | write _ ih => exact credential_after_reply rfl (ih _ _ (World.mapSession _ _))

theorem Observes.compositional : Compositional (fun _ => Observes) fun _ => True where
  done := .done
  bind := .bind
  access := fun hkeeps _ hnext => .access hkeeps hnext
  write := fun _ _ _ => .write fun _ _ => .done _

end Program

theorem refresh_observes : refresh.run.Observes :=
  Program.Observes.compositional.refresh (fun _ _ => .fetch fun _ _ => .done _) fun _ =>
    .access (fun _ => rfl) fun _ => .done _

end FilterConsole
