import FilterConsole.Proofs.Observed
import FilterConsole.Proofs.Rejection
import FilterConsole.Proofs.Scene
import FilterConsole.Store

/-! The life of a stored credential over whole runs: what ends it, and what is left to do without one. -/

namespace FilterConsole

variable {σ δ : Type}

namespace Upshot

theorem leavesNone_of_view {s : Session} {r : Except ConsoleError View} (h : LeavesNone s r) {e : ConsoleError}
    (he : ofView r = .failed e) (hlogin : e.requiresLogin = true) : s.credential = none := by
  cases r with
  | ok view => cases he
  | error e' =>
    cases he
    exact h e rfl hlogin

theorem leavesNone_of_phase {s : Session} {limit : Option UInt32} {waits : Nat} {others : List Holder}
    {phase : Watch.Phase} (h : Watch.PhaseLeavesNone s phase) {e : ConsoleError}
    (he : (ofPhase limit waits others phase).1 = .failed e) (hlogin : e.requiresLogin = true) :
    s.credential = none := by
  cases phase with
  | waiting x => cases he
  | finished r =>
    cases r with
    | ok o => cases he
    | error e' =>
      cases he
      exact h e rfl hlogin

end Upshot

namespace Deed

open Program (Observes)

/-- Whoever neither logs in nor out touches the credential only by what the service answers. -/
theorem observes (holders : List Holder) (d : Deed) (hlogin : ∀ c, d ≠ .login c) (hlogout : d ≠ .logout)
    (hobserve : ∀ r, d ≠ .observe r) : (d.program holders).Observes := by
  cases d with
  | login c => exact absurd rfl (hlogin c)
  | logout => exact absurd rfl hlogout
  | observe r => exact absurd rfl (hobserve r)
  | see createdAt => exact .access (fun _ => rfl) fun _ => .done _
  | _ => exact Observes.compositional.deed refresh_observes trivial holders trivial fun _ _ _ _ => trivial

def lacking (s : Scene σ) : Deed → Option ConsoleError
  | refresh => some .missingCredential
  | command c => some ((failure? c.write).getD .missingCredential)
  | watch _ cancelled => some <|
    if s.world.session.watching then .updateInProgress else if cancelled then .cancelled else .missingCredential
  | wake i how =>
    match s.holders[i]?, how with
    | some (.watch ..), .elapsed => some .missingCredential
    | some (.watch ..), .cancelled => some .cancelled
    | _, _ => none
  | _ => none

end Deed

namespace Scene

def replies (svc : Service σ δ) (s : Scene σ) : Move δ → List Reply
  | .change _ => []
  | .deed d => (d.program s.holders).replies svc.toBackend s.world

theorem failed_of_quiet (svc : Service σ δ) {s : Scene σ} {d : Deed} (hd : d.Quiet) {e : ConsoleError}
    (he : (s.move svc (.deed d)).1 = .failed e) : e = .updateInProgress := by
  obtain ⟨_, h | ⟨o, h⟩ | h⟩ := s.move_quiet svc hd
  · cases h.symm.trans he
  · cases h.symm.trans he
  · cases h.symm.trans he
    rfl

theorem move_leavesNone (svc : Service σ δ) (hb : svc.toBackend.Contract) (s : Scene σ) (m : Move δ)
    (hm : ∀ r, m ≠ .deed (.observe r)) {e : ConsoleError} (he : (s.move svc m).1 = .failed e)
    (hlogin : e.requiresLogin = true) : (s.move svc m).2.world.session.credential = none := by
  cases m with
  | change d => cases he
  | deed d =>
    cases d with
    | refresh =>
      rw [move_refresh] at he ⊢
      exact Upshot.leavesNone_of_view (refresh_leavesNone hb _) he hlogin
    | command c =>
      rw [move_command] at he ⊢
      exact Upshot.leavesNone_of_view (command_leavesNone hb c _) he hlogin
    | watch limit cancelled =>
      rw [move_watch] at he ⊢
      exact Upshot.leavesNone_of_phase (Watch.leavesNone_start hb limit cancelled _) he hlogin
    | wake i how =>
      by_cases h : ∃ limit x waits, s.holders[i]? = some (.watch limit x waits)
      · obtain ⟨limit, x, waits, hi⟩ := h
        cases how with
        | elapsed =>
          rw [move_wake_elapsed svc hi] at he ⊢
          exact Upshot.leavesNone_of_phase (Watch.leavesNone_poll hb limit x _) he hlogin
        | cancelled =>
          rw [move_wake_cancelled svc hi] at he
          cases he
          cases hlogin
      · rw [move_wake_of_not_watch svc fun limit x waits hi => h ⟨limit, x, waits, hi⟩] at he
        cases he
    | observe r => exact absurd rfl (hm r)
    | resort view field => cases he
    | _ =>
      obtain rfl := failed_of_quiet svc (by trivial) he
      cases hlogin

theorem move_credential (svc : Service σ δ) (s : Scene σ) (m : Move δ) (hm : ∀ r, m ≠ .deed (.observe r)) :
    (s.move svc m).2.world.session.credential = s.world.session.credential ∨
      (∃ c, m = .deed (.login c) ∧ (s.move svc m).2.world.session.credential = some c) ∨
      (m = .deed .logout ∧ (s.move svc m).2.world.session.credential = none) ∨
      ((s.move svc m).2.world.session.credential = none ∧
        ∃ x ∈ s.replies svc m, x.failure = some .unauthorized) := by
  cases m with
  | change d => exact .inl rfl
  | deed d =>
    by_cases hlogin : ∃ c, d = .login c
    · obtain ⟨c, rfl⟩ := hlogin
      exact .inr (.inl ⟨c, rfl, rfl⟩)
    · by_cases hlogout : d = .logout
      · subst hlogout
        exact .inr (.inr (.inl ⟨rfl, rfl⟩))
      · have hd := d.observes s.holders (fun c hc => hlogin ⟨c, hc⟩) hlogout fun r hr => hm r (congrArg _ hr)
        obtain h | h := hd.credential svc.toBackend s.world
        · exact .inl h
        · exact .inr (.inr (.inr h))

theorem move_credential_none (svc : Service σ δ) {s : Scene σ} (hs : s.world.session.credential = none) (m : Move δ)
    (hm : ∀ c, m ≠ .deed (.login c)) : (s.move svc m).2.world.session.credential = none := by
  by_cases hobserve : ∃ r, m = .deed (.observe r)
  · obtain ⟨r, rfl⟩ := hobserve
    obtain h | h := Program.observe_credential s.world.session r
    · exact h.trans hs
    · exact h.1
  · obtain h | ⟨c, rfl, _⟩ | ⟨_, h⟩ | ⟨h, _⟩ := s.move_credential svc m fun r hr => hobserve ⟨r, hr⟩
    · exact h.trans hs
    · exact absurd rfl (hm c)
    · exact h
    · exact h

theorem after_credential_none (svc : Service σ δ) {s : Scene σ} (hs : s.world.session.credential = none)
    (moves : List (Move δ)) (hmoves : ∀ m ∈ moves, ∀ c, m ≠ .deed (.login c)) :
    (s.after svc moves).world.session.credential = none := by
  induction moves generalizing s with
  | nil => exact hs
  | cons m moves ih =>
    obtain ⟨hm, hrest⟩ := List.forall_mem_cons.mp hmoves
    exact ih (s.move_credential_none svc hs m hm) hrest

/-- Without a credential nothing is called, and whoever needs one fails. -/
theorem move_lacking (svc : Service σ δ) {s : Scene σ} (hs : s.world.session.credential = none) (d : Deed) :
    (s.move svc (.deed d)).2.world.log = s.world.log ∧
      ∀ e, d.lacking s = some e → (s.move svc (.deed d)).1 = .failed e := by
  cases d with
  | refresh =>
    rw [move_refresh, refresh_without_credential _ hs]
    exact ⟨rfl, fun e he => by cases he; rfl⟩
  | command c =>
    rw [move_command]
    cases hc : c.write with
    | error e' =>
      rw [Command.run_rejected _ hc]
      refine ⟨rfl, fun e he => ?_⟩
      rw [Deed.lacking, hc] at he
      cases he
      rfl
    | ok wr =>
      rw [Command.run_without_credential _ hc hs]
      refine ⟨rfl, fun e he => ?_⟩
      rw [Deed.lacking, hc] at he
      cases he
      rfl
  | watch limit cancelled =>
    rw [move_watch, Deed.lacking]
    cases hw : s.world.session.watching with
    | true =>
      rw [Watch.run_start_rejected limit cancelled _ hw]
      exact ⟨rfl, fun e he => by cases he; rfl⟩
    | false =>
      cases cancelled with
      | true =>
        rw [Watch.run_start_cancelled limit _ hw]
        exact ⟨rfl, fun e he => by cases he; rfl⟩
      | false =>
        rw [Watch.run_start_without_credential limit _ hs hw]
        exact ⟨rfl, fun e he => by cases he; rfl⟩
  | wake i how =>
    by_cases h : ∃ limit x waits, s.holders[i]? = some (.watch limit x waits)
    · obtain ⟨limit, x, waits, hi⟩ := h
      cases how with
      | elapsed =>
        rw [move_wake_elapsed svc hi, Watch.run_poll_without_credential limit x _ hs]
        refine ⟨rfl, fun e he => ?_⟩
        simp only [Deed.lacking, hi] at he
        cases he
        rfl
      | cancelled =>
        rw [move_wake_cancelled svc hi]
        refine ⟨rfl, fun e he => ?_⟩
        simp only [Deed.lacking, hi] at he
        cases he
        rfl
    · rw [move_wake_of_not_watch svc fun limit x waits hi => h ⟨limit, x, waits, hi⟩]
      refine ⟨rfl, fun e he => ?_⟩
      have hnone : Deed.lacking s (.wake i how) = none := by
        rw [Deed.lacking]
        · exact fun _ _ _ hi _ => h ⟨_, _, _, hi⟩
        · exact fun _ _ _ hi _ => h ⟨_, _, _, hi⟩
      rw [hnone] at he
      cases he
  | resort view field => exact ⟨rfl, fun e he => by cases he⟩
  | observe r => exact ⟨rfl, fun e he => by cases he⟩
  | _ => exact ⟨(s.move_quiet svc (by trivial)).1, fun e he => by cases he⟩

end Scene

/-- The life of a credential, at any time of any run. An operation whose failure asks for credential entry leaves none
stored. After a rejected one nothing is called until the next login, also by a watch that has begun before, and every
operation that needs a credential fails. What is stored changes only by login, by logout, or because a call of the
operation was rejected. -/
theorem credential_lifecycle (svc : Service σ δ) (hb : svc.toBackend.Contract) (order : HitOrder)
    (credential : Option Credential) (service : σ) (earlier : List (Move δ)) (m : Move δ)
    (hm : ∀ r, m ≠ .deed (.observe r)) :
    let before := (Scene.start order credential service).after svc earlier
    let upshot := (before.move svc m).1
    let after := (before.move svc m).2
    (∀ e, upshot = .failed e → e.requiresLogin = true → after.world.session.credential = none) ∧
    (upshot = .failed .unauthorized → ∀ quiet, (∀ x ∈ quiet, ∀ c, x ≠ .deed (.login c)) →
      let now := after.after svc quiet
      ∀ d : Deed, (now.move svc (.deed d)).2.world.log = now.world.log ∧
        ∀ e, d.lacking now = some e → (now.move svc (.deed d)).1 = .failed e) ∧
    (after.world.session.credential = before.world.session.credential ∨
      (∃ c, m = .deed (.login c) ∧ after.world.session.credential = some c) ∨
      (m = .deed .logout ∧ after.world.session.credential = none) ∨
      (after.world.session.credential = none ∧ ∃ x ∈ before.replies svc m, x.failure = some .unauthorized)) := by
  intro before upshot after
  have hleaves : ∀ e, upshot = .failed e → e.requiresLogin = true → after.world.session.credential = none :=
    fun e => before.move_leavesNone svc hb m hm
  refine ⟨hleaves, fun hrejected quiet hquiet => ?_, before.move_credential svc m hm⟩
  intro now
  have hnow : now.world.session.credential = none :=
    Scene.after_credential_none svc (hleaves _ hrejected rfl) quiet hquiet
  exact fun d => now.move_lacking svc hnow d

/-- The initial store, which rejects every call once the credential is revoked. -/
def Store.revocable : Service Bool Unit where
  fetch _ f revoked := (if revoked then .error .unauthorized else (initial.read f).1, revoked)
  write _ _ revoked := (if revoked then .error .unauthorized else .ok (), revoked)
  change _ _ := true

theorem Store.revocable_contract : Store.revocable.toBackend.Contract where
  fetch := by
    intro c f revoked e h
    cases revoked with
    | true =>
      cases h
      exact .inl rfl
    | false => cases f <;> cases h
  write := by
    intro c wr revoked e h
    cases revoked with
    | true =>
      cases h
      exact .inl rfl
    | false => cases h

/-- A watch waits when the credential is revoked. A refresh by somebody else finds out; the watch then fails without a
call. -/
theorem credential_lifecycle_revoked :
    let c : Credential := ⟨"old", by decide +kernel⟩
    let earlier : List (Move Unit) := [.deed (.see ⟨1000, 0⟩), .deed (.watch (some 3) false), .change ()]
    let before := (Scene.start ⟨.updatedAt, .desc⟩ (some c) false).after Store.revocable earlier
    let after := (before.move Store.revocable (.deed .refresh)).2
    let wake : Move Unit := .deed (.wake 0 .elapsed)
    Store.revocable.toBackend.Contract ∧ before.holders = [.watch (some 3) ⟨some ⟨1000, 0⟩, 0⟩ 0] ∧
      (before.move Store.revocable (.deed .refresh)).1 = .failed .unauthorized ∧
      after.world.session.credential = none ∧ (after.move Store.revocable wake).1 = .failed .missingCredential ∧
      (after.move Store.revocable wake).2.world.log = after.world.log := by
  intro c earlier before after wake
  obtain ⟨hnone, hquiet, _⟩ := credential_lifecycle Store.revocable Store.revocable_contract ⟨.updatedAt, .desc⟩
    (some c) false earlier (.deed .refresh) (by simp)
  have hwaits : before.holders = [.watch (some 3) ⟨some ⟨1000, 0⟩, 0⟩ 0] := rfl
  have hrejected : (before.move Store.revocable (.deed .refresh)).1 = .failed .unauthorized := rfl
  have hlacking : (Deed.wake 0 .elapsed).lacking after = some .missingCredential := rfl
  have hlogin : ConsoleError.unauthorized.requiresLogin = true := rfl
  have hwake := hquiet hrejected [] (by simp) (.wake 0 .elapsed)
  simp only [Scene.after_nil] at hwake
  obtain ⟨hlog, hfails⟩ := hwake
  refine ⟨Store.revocable_contract, hwaits, hrejected, ?_, ?_, ?_⟩
  · with_reducible exact hnone _ hrejected hlogin
  · with_reducible exact hfails _ hlacking
  · with_reducible exact hlog

end FilterConsole
