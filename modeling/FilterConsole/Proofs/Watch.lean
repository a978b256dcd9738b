import FilterConsole.Proofs.Refresh
import FilterConsole.Watch

/-! The parts of a watch as functions of the world: how it begins, what each look does, and when it is over. -/

namespace FilterConsole

variable {α σ : Type}

@[simp] theorem Session.release_setUpdate (s : Session) (u : UpdateState) : (s.setUpdate u).release = s.release := rfl

@[simp] theorem Session.release_claim (s : Session) : s.claim.release = s.release := by
  unfold claim
  split <;> rfl

theorem Session.setUpdate_eq_self {s : Session} {u : UpdateState} (h : s.update = u) : s.setUpdate u = s := by
  rw [← h]
  rfl

theorem World.mapSession_mapSession (w : World σ) (f g : Session → Session) :
    (w.mapSession f).mapSession g = w.mapSession fun s => g (f s) := rfl

def World.asked (w : World σ) (c : Credential) (s : σ) : World σ := ⟨w.session.claim, s, (c, .write .rebuild) :: w.log⟩

namespace Watch

/-- A look that ends a watch whatever its limit: it failed, or it shows another filter. -/
def Decisive (seen : Option Timestamp) : Except ConsoleError View → Prop
  | .error _ => True
  | .ok view => some view.filterCreatedAt ≠ seen

instance (seen : Option Timestamp) : DecidablePred (Decisive seen)
  | .error _ => isTrue trivial
  | .ok view => inferInstanceAs (Decidable (some view.filterCreatedAt ≠ seen))

def verdict (seen : Option Timestamp) (polls : UInt32) : Except ConsoleError View → Except ConsoleError UpdateOutcome
  | .error e => .error e
  | .ok view => if some view.filterCreatedAt ≠ seen then .ok ⟨view, polls⟩ else .error (.timeout polls)

theorem isExhausted_ofNat {n : UInt32} {i : Nat} (h : i ≤ n.toNat) :
    isExhausted (some n) (.ofNat i) = true ↔ i = n.toNat := by
  have hi : i < 2 ^ 32 := Nat.lt_of_le_of_lt h n.toNat_lt
  rw [isExhausted, decide_eq_true_iff, UInt32.le_iff_toNat_le, UInt32.toNat_ofNat_of_lt' hi]
  omega

theorem run_close (r : Except ConsoleError UpdateOutcome) (b : Backend σ) (w : World σ) :
    (close r).run b w = (.finished r, w.mapSession (·.release)) := rfl

theorem run_orClose (m : Operation α) (next : α → Program Phase) (b : Backend σ) (w : World σ) :
    (orClose m next).run b w =
      match m.run.run b w with
      | (.ok a, v) => (next a).run b v
      | (.error e, v) => (.finished (.error e), v.mapSession (·.release)) := by
  unfold orClose
  rw [Program.run_bind]
  obtain ⟨e | a, v⟩ := m.run.run b w <;> rfl

theorem run_settle (limit : Option UInt32) (x : Waiting) (view : View) (b : Backend σ) (w : World σ) :
    (settle limit x view).run b w =
      if Decisive x.seen (.ok view) ∨ isExhausted limit x.polls then
        (.finished (verdict x.seen x.polls (.ok view)), w.mapSession (·.release))
      else (.waiting x, w) := by
  unfold settle
  by_cases hd : some view.filterCreatedAt ≠ x.seen
  · rw [if_pos hd, if_pos (.inl hd), run_close, verdict, if_pos hd]
  · rw [if_neg hd]
    by_cases he : isExhausted limit x.polls = true
    · rw [if_pos he, if_pos (.inr he), run_close, verdict, if_neg hd]
    · have hwait : ¬(Decisive x.seen (.ok view) ∨ isExhausted limit x.polls = true) := not_or.mpr ⟨hd, he⟩
      rw [if_neg he, if_neg hwait]
      rfl

theorem run_poll (limit : Option UInt32) (x : Waiting) (b : Backend σ) (w : World σ) :
    (poll limit x).run b w =
      let look := refresh.run.run b (w.mapSession (·.setUpdate (.polling (x.polls + 1))))
      if Decisive x.seen look.1 ∨ isExhausted limit (x.polls + 1) then
        (.finished (verdict x.seen (x.polls + 1) look.1), look.2.mapSession (·.release))
      else (.waiting ⟨x.seen, x.polls + 1⟩, look.2) := by
  change (orClose refresh (settle limit ⟨x.seen, x.polls + 1⟩)).run b _ = _
  rw [run_orClose]
  obtain ⟨e | view, v⟩ := refresh.run.run b (w.mapSession (·.setUpdate (.polling (x.polls + 1))))
  · simp [Decisive, verdict]
  · exact run_settle ..

theorem run_poll_without_credential (limit : Option UInt32) (x : Waiting) (b : Backend σ) {w : World σ}
    (h : w.session.credential = none) :
    (poll limit x).run b w = (.finished (.error .missingCredential), w.mapSession (·.release)) := by
  have hlook : refresh.run.run b (w.mapSession (·.setUpdate (.polling (x.polls + 1)))) =
      (.error .missingCredential, w.mapSession (·.setUpdate (.polling (x.polls + 1)))) :=
    refresh_without_credential b h
  rw [run_poll, hlook]
  dsimp only
  rw [if_pos (.inl trivial), verdict, World.mapSession_mapSession]
  simp only [Session.release_setUpdate]

/-- The first look, which follows the command. -/
theorem run_first_look (limit : Option UInt32) (seen : Option Timestamp) (b : Backend σ) (w : World σ) :
    (orClose refresh fun view => .access (·.setUpdate (.polling 0)) fun _ => settle limit ⟨seen, 0⟩ view).run b w =
      let look := refresh.run.run b w
      if Decisive seen look.1 ∨ isExhausted limit 0 then
        (.finished (verdict seen 0 look.1), look.2.mapSession (·.release))
      else (.waiting ⟨seen, 0⟩, look.2.mapSession (·.setUpdate (.polling 0))) := by
  rw [run_orClose]
  obtain ⟨e | view, v⟩ := refresh.run.run b w
  · simp [Decisive, verdict]
  · change (settle limit ⟨seen, 0⟩ view).run b (v.mapSession (·.setUpdate (.polling 0))) = _
    rw [run_settle]
    rfl

theorem run_request (limit : Option UInt32) (seen : Option Timestamp) (b : Backend σ) {w : World σ} {c : Credential}
    (h : w.session.credential = some c) :
    (request limit seen).run b w =
      match b.write c .rebuild w.service with
      | (.error e, s) =>
        (.finished (.error e),
          (w.answered c (.write .rebuild) (.error e : Except ConsoleError Unit) s).mapSession (·.release))
      | (.ok (), s) =>
        (orClose refresh fun view => .access (·.setUpdate (.polling 0)) fun _ => settle limit ⟨seen, 0⟩ view).run b
          ⟨w.session, s, (c, .write .rebuild) :: w.log⟩ := by
  unfold request
  rw [run_orClose, Operation.run_bind, Operation.run_credential, h]
  dsimp only
  rw [Operation.run_write]
  obtain ⟨e | u, s⟩ := b.write c .rebuild w.service <;> rfl

theorem run_request_without_credential (limit : Option UInt32) (seen : Option Timestamp) (b : Backend σ)
    {w : World σ} (h : w.session.credential = none) :
    (request limit seen).run b w = (.finished (.error .missingCredential), w.mapSession (·.release)) := by
  unfold request
  rw [run_orClose, Operation.run_bind, Operation.run_credential, h]

theorem run_start_rejected (limit : Option UInt32) (cancelled : Bool) (b : Backend σ) {w : World σ}
    (h : w.session.watching = true) :
    (start limit cancelled).run b w = (.finished (.error .updateInProgress), w) := by
  unfold start
  simp only [Program.run, h, if_true, World.mapSession, Session.claim_of_watching h]

theorem run_start_cancelled (limit : Option UInt32) (b : Backend σ) {w : World σ} (h : w.session.watching = false) :
    (start limit true).run b w = (.finished (.error .cancelled), w.mapSession (·.release)) := by
  unfold start
  simp only [Program.run, h, Bool.false_eq_true, if_false, if_true, run_close, World.mapSession_mapSession,
    Session.release_claim]

theorem run_start (limit : Option UInt32) (b : Backend σ) {w : World σ} (h : w.session.watching = false) :
    (start limit false).run b w = (request limit w.session.seen).run b (w.mapSession (·.claim)) := by
  unfold start
  simp only [Program.run, h, Bool.false_eq_true, if_false]
  rw [World.mapSession, Session.claim_of_free h]
  rfl

section Start

variable (limit : Option UInt32) (b : Backend σ) {w : World σ} {c : Credential} {s : σ}

theorem run_start_without_credential (hcredential : w.session.credential = none) (hfree : w.session.watching = false) :
    (start limit false).run b w = (.finished (.error .missingCredential), w.mapSession (·.release)) := by
  have hclaimed : (w.mapSession (·.claim)).session.credential = none := (Session.claim_credential _).trans hcredential
  rw [run_start limit b hfree, run_request_without_credential limit _ b hclaimed, World.mapSession_mapSession]
  simp only [Session.release_claim]

theorem run_start_refused {e : ConsoleError} (hcredential : w.session.credential = some c)
    (hfree : w.session.watching = false) (hwrite : b.write c .rebuild w.service = (.error e, s)) :
    (start limit false).run b w = (.finished (.error e),
      (w.answered c (.write .rebuild) (.error e : Except ConsoleError Unit) s).mapSession (·.release)) := by
  have hclaimed : (w.mapSession (·.claim)).session.credential = some c :=
    (Session.claim_credential _).trans hcredential
  have hwrite' : b.write c .rebuild (w.mapSession (·.claim)).service = (.error e, s) := hwrite
  rw [run_start limit b hfree, run_request limit _ b hclaimed, hwrite']
  simp only [World.answered, World.mapSession, Session.claim_of_free hfree, Session.observe_error, Session.release]

theorem run_start_accepted (hcredential : w.session.credential = some c) (hfree : w.session.watching = false)
    (hwrite : b.write c .rebuild w.service = (.ok (), s)) :
    (start limit false).run b w =
      let look := refresh.run.run b (w.asked c s)
      if Decisive w.session.seen look.1 ∨ isExhausted limit 0 then
        (.finished (verdict w.session.seen 0 look.1), look.2.mapSession (·.release))
      else (.waiting ⟨w.session.seen, 0⟩, look.2.mapSession (·.setUpdate (.polling 0))) := by
  have hclaimed : (w.mapSession (·.claim)).session.credential = some c :=
    (Session.claim_credential _).trans hcredential
  have hwrite' : b.write c .rebuild (w.mapSession (·.claim)).service = (.ok (), s) := hwrite
  rw [run_start limit b hfree, run_request limit _ b hclaimed, hwrite']
  exact run_first_look limit _ b _

/-- All that can come of the start of a watch. -/
theorem start_cases (cancelled : Bool) (w : World σ) :
    (w.session.watching = true ∧ (start limit cancelled).run b w = (.finished (.error .updateInProgress), w)) ∨
    w.session.watching = false ∧
      ((cancelled = true ∧
        (start limit cancelled).run b w = (.finished (.error .cancelled), w.mapSession (·.release))) ∨
      cancelled = false ∧
        ((w.session.credential = none ∧
          (start limit cancelled).run b w = (.finished (.error .missingCredential), w.mapSession (·.release))) ∨
        ∃ c, w.session.credential = some c ∧
          ((∃ e s, b.write c .rebuild w.service = (.error e, s) ∧
            (start limit cancelled).run b w = (.finished (.error e),
              (w.answered c (.write .rebuild) (.error e : Except ConsoleError Unit) s).mapSession (·.release))) ∨
          ∃ s, b.write c .rebuild w.service = (.ok (), s) ∧
            (start limit cancelled).run b w =
              let look := refresh.run.run b (w.asked c s)
              if Decisive w.session.seen look.1 ∨ isExhausted limit 0 then
                (.finished (verdict w.session.seen 0 look.1), look.2.mapSession (·.release))
              else (.waiting ⟨w.session.seen, 0⟩, look.2.mapSession (·.setUpdate (.polling 0)))))) := by
  cases hw : w.session.watching with
  | true => exact .inl ⟨rfl, run_start_rejected limit cancelled b hw⟩
  | false =>
    refine .inr ⟨rfl, ?_⟩
    cases cancelled with
    | true => exact .inl ⟨rfl, run_start_cancelled limit b hw⟩
    | false =>
      refine .inr ⟨rfl, ?_⟩
      cases hc : w.session.credential with
      | none => exact .inl ⟨rfl, run_start_without_credential limit b hc hw⟩
      | some c =>
        refine .inr ⟨c, rfl, ?_⟩
        rcases hwrite : b.write c .rebuild w.service with ⟨e | u, s⟩
        · exact .inl ⟨e, s, rfl, run_start_refused limit b hc hw hwrite⟩
        · exact .inr ⟨s, rfl, run_start_accepted limit b hc hw hwrite⟩

end Start

end Watch

end FilterConsole
