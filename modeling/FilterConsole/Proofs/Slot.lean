import FilterConsole.Proofs.Command
import FilterConsole.Proofs.Scene

/-! The slot for watching as every move keeps it: one holder at most, and a session that says whether there is one. -/

namespace FilterConsole

variable {σ δ : Type}

namespace Session

def Free (s : Session) : Prop := s.watching = false ∧ s.update = .idle

theorem free_release (s : Session) : s.release.Free := ⟨rfl, rfl⟩

end Session

theorem command_sameSlot (b : Backend σ) (command : Command) (w : World σ) :
    (command.run.run.run b w).2.session.SameSlot w.session := by
  obtain ⟨r, h⟩ | ⟨createdAt, h⟩ := Command.run_session b command w
  · rw [h]
    exact Session.sameSlot_observe _ _
  · rw [h]
    exact ⟨rfl, rfl⟩

def Holder.Shown (u : UpdateState) : Holder → Prop
  | .claimant => True
  | .watch limit x waits => u = .polling x.polls ∧ x.polls = .ofNat waits ∧ ∀ n, limit = some n → waits < n.toNat

namespace Watch

def SlotAfter (limit : Option UInt32) (waits : Nat) (s : Session) : Phase → Prop
  | .finished _ => s.Free
  | .waiting x => s.watching = true ∧ (Holder.watch limit x waits).Shown s.update

theorem slotAfter_look (limit : Option UInt32) (x : Waiting) (waits : Nat) (look : Except ConsoleError View × World σ)
    (hpolls : x.polls = .ofNat waits) (hwaits : ∀ n, limit = some n → waits ≤ n.toNat)
    (w : World σ) (hw : w.session.watching = true ∧ w.session.update = .polling x.polls) :
    let (phase, v) :=
      if Decisive x.seen look.1 ∨ isExhausted limit x.polls then
        (.finished (verdict x.seen x.polls look.1), look.2.mapSession (·.release))
      else (.waiting x, w)
    SlotAfter limit waits v.session phase := by
  by_cases hstop : Decisive x.seen look.1 ∨ isExhausted limit x.polls = true
  · rw [if_pos hstop]
    exact Session.free_release _
  · rw [if_neg hstop]
    refine ⟨hw.1, hw.2, hpolls, fun n hn => ?_⟩
    subst hn
    have hlast : ¬ isExhausted (some n) (.ofNat waits) = true := fun h => hstop (.inr (hpolls ▸ h))
    rw [isExhausted_ofNat (hwaits n rfl)] at hlast
    exact Nat.lt_of_le_of_ne (hwaits n rfl) hlast

theorem slotAfter_start (limit : Option UInt32) (cancelled : Bool) (b : Backend σ) (w : World σ)
    (hw : w.session.watching = false) :
    let (phase, v) := (start limit cancelled).run b w
    SlotAfter limit 0 v.session phase := by
  obtain ⟨hw', _⟩ | ⟨_, ⟨_, h⟩ | ⟨_, ⟨_, h⟩ | ⟨c, _, ⟨e, s, _, h⟩ | ⟨s, _, h⟩⟩⟩⟩ := start_cases limit b cancelled w
  · rw [hw] at hw'
    cases hw'
  · rw [h]
    exact Session.free_release _
  · rw [h]
    exact Session.free_release _
  · rw [h]
    exact Session.free_release _
  · have hclaimed : (w.asked c s).session.watching = true := by rw [World.asked, Session.claim_of_free hw]
    rw [h]
    exact slotAfter_look limit ⟨w.session.seen, 0⟩ 0 _ rfl (fun n _ => Nat.zero_le _) _
      ⟨(refresh_sameSlot b _).1.trans hclaimed, rfl⟩

theorem slotAfter_poll (limit : Option UInt32) (x : Waiting) (waits : Nat) (b : Backend σ) (w : World σ)
    (hw : w.session.watching = true) (hshown : (Holder.watch limit x waits).Shown w.session.update) :
    let (phase, v) := (poll limit x).run b w
    SlotAfter limit (waits + 1) v.session phase := by
  obtain ⟨_, hpolls, hwaits⟩ := hshown
  have hpolls' : x.polls + 1 = .ofNat (waits + 1) := by
    rw [hpolls, UInt32.ofNat_add]
    rfl
  obtain ⟨hwatching, hupdate⟩ := refresh_sameSlot b (w.mapSession (·.setUpdate (.polling (x.polls + 1))))
  rw [run_poll]
  exact slotAfter_look limit ⟨x.seen, x.polls + 1⟩ (waits + 1) _ hpolls' (fun n hn => hwaits n hn) _
    ⟨hwatching.trans hw, hupdate⟩

end Watch

namespace Scene

/-- The slot has one holder at most. The session says whether there is one, and shows a watch's waits. -/
def Single (s : Scene σ) : Prop :=
  match s.holders with
  | [] => s.world.session.Free
  | [h] => s.world.session.watching = true ∧ h.Shown s.world.session.update
  | _ => False

theorem single_start (order : HitOrder) (credential : Option Credential) (service : σ) :
    (start order credential service).Single := ⟨rfl, rfl⟩

theorem Single.of_nil {s : Scene σ} (hs : s.Single) (h : s.holders = []) : s.world.session.Free := by
  rw [Single, h] at hs
  exact hs

theorem Single.of_ne_nil {s : Scene σ} (hs : s.Single) (h : s.holders ≠ []) : s.world.session.watching = true := by
  unfold Single at hs
  split at hs
  · next hnil => exact absurd hnil h
  · exact hs.1
  · exact hs.elim

theorem Single.eq_nil {s : Scene σ} (hs : s.Single) (h : s.world.session.watching = false) : s.holders = [] := by
  by_contra hne
  rw [hs.of_ne_nil hne] at h
  cases h

theorem Single.length_le {s : Scene σ} (hs : s.Single) : s.holders.length ≤ 1 := by
  unfold Single at hs
  split at hs
  · next h => simp [h]
  · next h => simp [h]
  · exact hs.elim

theorem Single.of_getElem? {s : Scene σ} (hs : s.Single) {i : Nat} {h : Holder} (hi : s.holders[i]? = some h) :
    i = 0 ∧ s.holders = [h] ∧ s.world.session.watching = true ∧ h.Shown s.world.session.update := by
  have hlt : i < s.holders.length := (List.getElem?_eq_some_iff.mp hi).1
  have hzero : i = 0 := by
    have hlen := hs.length_le
    omega
  subst hzero
  unfold Single at hs
  split at hs
  · next hnil => simp [hnil] at hi
  · next h' hone =>
    rw [hone] at hi
    cases hi
    exact ⟨rfl, hone, hs⟩
  · exact hs.elim

theorem Single.eraseIdx {s : Scene σ} (hs : s.Single) {i : Nat} {h : Holder} (hi : s.holders[i]? = some h) :
    s.holders.eraseIdx i = [] := by
  obtain ⟨rfl, hone, _⟩ := hs.of_getElem? hi
  rw [hone]
  rfl

theorem Single.of_sameSlot {s : Scene σ} (hs : s.Single) {w : World σ} (h : w.session.SameSlot s.world.session) :
    (⟨w, s.holders⟩ : Scene σ).Single := by
  unfold Single Session.Free at *
  rw [h.1, h.2]
  exact hs

theorem single_ofPhase {limit : Option UInt32} {waits : Nat} {phase : Watch.Phase} {w : World σ}
    (h : Watch.SlotAfter limit waits w.session phase) :
    (⟨w, (Upshot.ofPhase limit waits [] phase).2⟩ : Scene σ).Single := by
  cases phase with
  | waiting x => exact h
  | finished r => cases r <;> exact h

theorem single_watch (svc : Service σ δ) {s : Scene σ} (hs : s.Single) (limit : Option UInt32) (cancelled : Bool) :
    (s.move svc (.deed (.watch limit cancelled))).2.Single := by
  rw [move_watch]
  by_cases h : s.holders = []
  · rw [h]
    exact single_ofPhase (Watch.slotAfter_start limit cancelled svc.toBackend s.world (hs.of_nil h).1)
  · rw [Watch.run_start_rejected limit cancelled svc.toBackend (hs.of_ne_nil h)]
    exact hs

theorem single_wake (svc : Service σ δ) {s : Scene σ} (hs : s.Single) (i : Nat) (how : Watch.Wake) :
    (s.move svc (.deed (.wake i how))).2.Single := by
  by_cases h : ∃ limit x waits, s.holders[i]? = some (.watch limit x waits)
  · obtain ⟨limit, x, waits, hi⟩ := h
    obtain ⟨_, _, hwatching, hshown⟩ := hs.of_getElem? hi
    cases how with
    | elapsed =>
      rw [move_wake_elapsed svc hi, hs.eraseIdx hi]
      exact single_ofPhase (Watch.slotAfter_poll limit x waits svc.toBackend s.world hwatching hshown)
    | cancelled =>
      rw [move_wake_cancelled svc hi, hs.eraseIdx hi]
      exact Session.free_release _
  · rw [move_wake_of_not_watch svc fun limit x waits hi => h ⟨limit, x, waits, hi⟩]
    exact hs

theorem single_claim (svc : Service σ δ) {s : Scene σ} (hs : s.Single) : (s.move svc (.deed .claim)).2.Single := by
  by_cases h : s.holders = []
  · rw [move_claim_free svc (hs.of_nil h).1, h]
    refine ⟨?_, trivial⟩
    rw [World.mapSession, Session.claim_of_free (hs.of_nil h).1]
  · rw [move_claim_taken svc (hs.of_ne_nil h)]
    exact hs

theorem single_setUpdate (svc : Service σ δ) {s : Scene σ} (hs : s.Single) (i : Nat) (u : UpdateState) :
    (s.move svc (.deed (.setUpdate i u))).2.Single := by
  by_cases h : s.holders[i]? = some .claimant
  · obtain ⟨_, hone, hwatching, _⟩ := hs.of_getElem? h
    rw [move_setUpdate_claimant svc h, hone]
    exact ⟨hwatching, trivial⟩
  · rw [move_setUpdate_of_ne svc h]
    exact hs

theorem single_release (svc : Service σ δ) {s : Scene σ} (hs : s.Single) (i : Nat) :
    (s.move svc (.deed (.release i))).2.Single := by
  by_cases h : s.holders[i]? = some .claimant
  · rw [move_release_claimant svc h, hs.eraseIdx h]
    exact Session.free_release _
  · rw [move_release_of_ne svc h]
    exact hs

theorem single_move (svc : Service σ δ) (s : Scene σ) (m : Move δ) (hs : s.Single) : (s.move svc m).2.Single := by
  cases m with
  | change d => exact hs.of_sameSlot ⟨rfl, rfl⟩
  | deed d =>
    cases d with
    | login c => exact hs.of_sameSlot ⟨rfl, rfl⟩
    | logout => exact hs.of_sameSlot ⟨rfl, rfl⟩
    | refresh => exact move_refresh svc s ▸ hs.of_sameSlot (refresh_sameSlot _ _)
    | command c => exact move_command svc s c ▸ hs.of_sameSlot (command_sameSlot _ c _)
    | resort view field => exact hs.of_sameSlot ⟨rfl, rfl⟩
    | toggle field => exact hs.of_sameSlot ⟨rfl, rfl⟩
    | setOrder order => exact hs.of_sameSlot ⟨rfl, rfl⟩
    | see createdAt => exact hs.of_sameSlot ⟨rfl, rfl⟩
    | observe r => exact hs.of_sameSlot (Session.sameSlot_observe _ r)
    | claim => exact single_claim svc hs
    | setUpdate i u => exact single_setUpdate svc hs i u
    | release i => exact single_release svc hs i
    | watch limit cancelled => exact single_watch svc hs limit cancelled
    | wake i how => exact single_wake svc hs i how

end Scene

end FilterConsole
