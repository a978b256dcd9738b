import FilterConsole.Proofs.Scripted

/-! Cancelling a watch. A watch heeds its token before its command and while it waits, and nowhere else: what is under
way when the token is cancelled is completed, and then no wait begins or goes on. -/

namespace FilterConsole

variable {σ δ τ : Type}

/-- Surroundings of a watch whose token may be cancelled while calls are made. A wait that begins with the token
cancelled ends at once, unless it has no length anyway. -/
def Watch.Surroundings.heeding (token : World σ → Bool) (policy : WatchPolicy) (wait : Surroundings τ σ) :
    Surroundings τ σ := fun t w =>
  if token w = true ∧ policy.intervalMs ≠ 0 then (.cancelled, t, w) else wait t w

namespace Script.Clock

def cancelDue (now : Nat) : List (Event δ) → Option Nat
  | [] => none
  | ⟨atMs, .cancel⟩ :: _ => some (max now atMs)
  | ⟨atMs, _⟩ :: rest => cancelDue (max now atMs) rest

theorem cancelDue_cons {e : Event δ} (h : e.occurrence ≠ .cancel) (now : Nat) (rest : List (Event δ)) :
    cancelDue now (e :: rest) = cancelDue (max now e.atMs) rest := by
  obtain ⟨atMs, occurrence⟩ := e
  cases occurrence with
  | cancel => exact absurd rfl h
  | watch policy cancelled => rfl
  | action a => rfl

theorem le_cancelDue {now m : Nat} {events : List (Event δ)} (h : cancelDue now events = some m) : now ≤ m := by
  induction events generalizing now with
  | nil => cases h
  | cons e rest ih =>
    obtain ⟨atMs, occurrence⟩ := e
    cases occurrence with
    | cancel =>
      cases h
      exact Nat.le_max_left _ _
    | watch policy cancelled => exact Nat.le_trans (Nat.le_max_left _ _) (ih h)
    | action a => exact Nat.le_trans (Nat.le_max_left _ _) (ih h)

def Busy (t : Clock δ) (w : World σ) : Prop := w.session.watching = true ∧ t.holding = false

section Await

variable (svc : Service σ δ) {t : Clock δ} {w : World σ}

/-- For those around it the watch is somebody who has claimed the slot. -/
theorem single_of_busy (h : t.Busy w) : (t.scene [.claimant] w).Single := by
  rw [scene, Stage.scene, h.2]
  exact ⟨h.1, trivial⟩

theorem busy_of_single (h : (t.scene [.claimant] w).Single) : t.Busy w := by
  refine ⟨h.of_ne_nil (List.cons_ne_nil _ _), ?_⟩
  cases hh : t.holding with
  | true =>
    have htwo : (t.scene [.claimant] w).holders = [.claimant, .claimant] := by
      rw [scene, Stage.scene, hh]
      rfl
    have hlen := h.length_le
    rw [htwo] at hlen
    exact absurd hlen (by simp)
  | false => rfl

theorem busy_happen (h : t.Busy w) (o : Occurrence δ) : (t.happen svc w o).1.Busy (t.happen svc w o).2 :=
  busy_of_single ((happen_leads [.claimant] svc (single_of_busy h) o).single (single_of_busy h))

theorem busy_await (h : t.Busy w) (deadline : Nat) (cancelled : Bool) (events : List (Event δ)) :
    (await svc deadline cancelled events t w).2.1.Busy (await svc deadline cancelled events t w).2.2 :=
  busy_of_single ((await_leads [.claimant] svc (single_of_busy h) deadline cancelled events).single (single_of_busy h))

/-- Nothing that happens while a watch has the slot takes time: another watch is rejected. -/
theorem happen_now (h : t.Busy w) (o : Occurrence δ) : (t.happen svc w o).1.now = t.now := by
  cases o with
  | cancel => rfl
  | action a => rfl
  | watch policy cancelled =>
    rw [happen, Watch.run_rejected h.1]

theorem await_cons_cancel (deadline atMs : Nat) (rest : List (Event δ)) (t : Clock δ) (w : World σ) :
    await svc deadline false (⟨atMs, .cancel⟩ :: rest) t w =
      if deadline ≤ max t.now atMs then (.elapsed, { t with now := deadline, ahead := ⟨atMs, .cancel⟩ :: rest }, w)
      else
        let (t, w) := { t with now := max t.now atMs }.happen svc w .cancel
        await svc deadline true rest t w := by
  rw [await]
  simp

/-- Cancellations alone do nothing to the world. -/
theorem await_world (deadline : Nat) (cancelled : Bool) {events : List (Event δ)}
    (h : ∀ e ∈ events, e.occurrence = .cancel) (t : Clock δ) (w : World σ) :
    (await svc deadline cancelled events t w).2.2 = w := by
  induction events generalizing cancelled t with
  | nil => cases cancelled <;> rfl
  | cons e rest ih =>
    obtain ⟨he, hrest⟩ := List.forall_mem_cons.mp h
    rw [await, he]
    dsimp only
    split
    · rfl
    · split
      · rfl
      · exact ih _ hrest _

/-- Once it is cancelled a wait lasts no longer. -/
theorem await_cancelled (h : t.Busy w) (deadline : Nat) (events : List (Event δ)) :
    (await svc deadline true events t w).1 = .cancelled ∧ (await svc deadline true events t w).2.1.now = t.now := by
  induction events generalizing t w with
  | nil => exact ⟨rfl, rfl⟩
  | cons e rest ih =>
    rw [await]
    by_cases hlater : t.now < max t.now e.atMs
    · simp only [hlater, decide_true, Bool.and_self, if_true]
      exact ⟨trivial, trivial⟩
    · have hsame : max t.now e.atMs = t.now := by omega
      simp only [hsame, lt_irrefl, decide_false, Bool.and_false, Bool.false_eq_true, if_false, Bool.not_true,
        Bool.false_and, Bool.true_or]
      obtain ⟨hwake, htime⟩ := ih (busy_happen svc h e.occurrence)
      exact ⟨hwake, htime.trans (happen_now svc h e.occurrence)⟩

/-- A wait ends when it is first cancelled, if that is before its deadline, and at its deadline otherwise. -/
theorem await_wake (h : t.Busy w) (deadline : Nat) (events : List (Event δ)) :
    let r := await svc deadline false events t w
    (∀ m, cancelDue t.now events = some m → m < deadline → r.1 = .cancelled ∧ r.2.1.now = m) ∧
      ((∀ m, cancelDue t.now events = some m → deadline ≤ m) → r.1 = .elapsed ∧ r.2.1.now = deadline) := by
  -- Along what lies ahead. The slot stays taken, so nothing before the cancellation takes time and delays it.
  induction events generalizing t w with
  | nil =>
    intro r
    refine ⟨fun m hm => ?_, fun _ => ⟨rfl, rfl⟩⟩
    cases hm
  | cons e rest ih =>
    have hbusy : { t with now := max t.now e.atMs }.Busy w := h
    by_cases hcancel : e.occurrence = .cancel
    · obtain ⟨atMs, occurrence⟩ := e
      obtain rfl : occurrence = .cancel := hcancel
      have hdue : cancelDue t.now (⟨atMs, .cancel⟩ :: rest) = some (max t.now atMs) := rfl
      rw [hdue, await_cons_cancel]
      by_cases hlate : deadline ≤ max t.now atMs
      · rw [if_pos hlate]
        refine ⟨fun m hm hlt => ?_, fun _ => ⟨rfl, rfl⟩⟩
        cases hm
        omega
      · rw [if_neg hlate]
        refine ⟨fun m hm _ => ?_, fun hm => absurd (hm _ rfl) hlate⟩
        cases hm
        exact await_cancelled svc (busy_happen svc hbusy .cancel) deadline rest
    · rw [cancelDue_cons hcancel, await_cons svc deadline rest t w hcancel]
      by_cases hlate : deadline ≤ max t.now e.atMs
      · rw [if_pos hlate]
        refine ⟨fun m hm hlt => ?_, fun _ => ⟨rfl, rfl⟩⟩
        have hle := le_cancelDue hm
        omega
      · rw [if_neg hlate]
        have hrest := ih (busy_happen svc hbusy e.occurrence)
        rw [happen_now svc hbusy e.occurrence] at hrest
        exact hrest

end Await

end Script.Clock

namespace Watch

open Script

section Busy

variable (svc : Service σ δ) (policy : WatchPolicy) (token : World σ → Bool) {t : Clock δ} {w : World σ}

theorem busy_heeding (h : t.Busy w) :
    let r := Surroundings.heeding token policy (Clock.surroundings svc policy) t w
    r.2.1.Busy r.2.2 := by
  dsimp only [Surroundings.heeding]
  split
  · exact h
  · exact Clock.busy_await svc h _ _ _

theorem busy_rest {wait : Surroundings (Clock δ) σ} {i : Nat}
    (h : (before svc.toBackend wait t w i).1.Busy (before svc.toBackend wait t w i).2) :
    (before svc.toBackend wait t w i).1.Busy (rest svc.toBackend wait t w i) :=
  ⟨(refresh_sameSlot svc.toBackend _).1.trans h.1, h.2⟩

/-- The watch keeps the slot from its first look on. -/
theorem busy_before (h : t.Busy w) (i : Nat) :
    let wait := Surroundings.heeding token policy (Clock.surroundings svc policy)
    (before svc.toBackend wait t w i).1.Busy (before svc.toBackend wait t w i).2 := by
  intro wait
  induction i with
  | zero => exact h
  | succ i ih => exact busy_heeding svc policy token (busy_rest svc ih)

end Busy

/-- However a watch ends that has taken the slot, it leaves the slot free. -/
theorem free_of_run {b : Backend σ} {limit : Option UInt32} {cancelled : Bool} {wait : Surroundings τ σ} {fuel : Nat}
    {t t' : τ} {w w' : World σ} {c : Credential} {r : Except ConsoleError UpdateOutcome}
    (hcredential : w.session.credential = some c) (hfree : w.session.watching = false)
    (h : run b limit cancelled wait fuel t w = some (r, t', w')) : w'.session.Free := by
  cases cancelled with
  | true =>
    rw [run_cancelled hfree] at h
    cases h
    exact Session.free_release _
  | false =>
    rcases hwrite : b.write c .rebuild w.service with ⟨e | u, s⟩
    · rw [run_command_error hcredential hfree hwrite] at h
      cases h
      exact ⟨rfl, rfl⟩
    · rw [run_accepted hcredential hfree hwrite] at h
      obtain ⟨j, _, ⟨_, hend⟩ | ⟨_, _, hend⟩⟩ := exists_reaches (reaches_zero b limit wait t _ _) h
      · cases hend
        exact Session.free_release _
      · cases hend
        exact Session.free_release _

/-- A wait that begins with the token cancelled is none. -/
theorem pause_heeding_cancelled {b : Backend σ} {policy : WatchPolicy} {token : World σ → Bool}
    {wait : Surroundings τ σ} {t : τ} {w : World σ} {j : Nat} (hinterval : policy.intervalMs ≠ 0)
    (h : token (rest b (wait.heeding token policy) t w j) = true) :
    pause b (wait.heeding token policy) t w j = (.cancelled, (before b (wait.heeding token policy) t w j).1,
      rest b (wait.heeding token policy) t w j) := if_pos ⟨h, hinterval⟩

theorem pause_heeding_of_not {b : Backend σ} {policy : WatchPolicy} {token : World σ → Bool}
    {wait : Surroundings τ σ} {t : τ} {w : World σ} {j : Nat}
    (h : token (rest b (wait.heeding token policy) t w j) = false) :
    pause b (wait.heeding token policy) t w j = wait (before b (wait.heeding token policy) t w j).1
      (rest b (wait.heeding token policy) t w j) :=
  if_neg fun hc => Bool.false_ne_true (h.symm.trans hc.1)

end Watch

open Script in
/-- A watch whose token is cancelled, at whatever moment. Before the watch: it fails without a call. While it gives its
command or looks: the command and the look after it, or the look, are completed; if they do not end the watch, it is
cancelled, and no time passes. During a wait: it is cancelled then and there, and the world is as the wait has left it,
which does nothing itself. Whatever the end, the session is as it was after what was completed last, the slot is free, and
another watch begins there as if this one had never been. -/
theorem watch_cancelled (svc : Service σ δ) (policy : WatchPolicy) (token : World σ → Bool) (fuel : Nat) (t : Clock δ)
    (w : World σ) (c : Credential) (hinterval : policy.intervalMs ≠ 0) (hcredential : w.session.credential = some c)
    (hfree : w.session.watching = false) (hholding : t.holding = false) :
    let wait := Watch.Surroundings.heeding token policy (Clock.surroundings svc policy)
    let result := Watch.run svc.toBackend policy.limit (token w) wait fuel t w
    (token w = true → result = some (.error .cancelled, t, w.mapSession (·.release))) ∧
    (token w = false → match svc.write c .rebuild w.service with
      | (.error e, s) =>
        result = some (.error e, t, ⟨{ w.session with
          credential := if e = .unauthorized then none else w.session.credential
          watching := false
          update := .idle }, s, (c, .write .rebuild) :: w.log⟩)
      | (.ok (), s) =>
        let before := Watch.before svc.toBackend wait t (w.asked c s)
        let look := Watch.look svc.toBackend wait t (w.asked c s)
        let rest := Watch.rest svc.toBackend wait t (w.asked c s)
        let Stops := Watch.Stops svc.toBackend policy.limit wait t (w.asked c s) w.session.seen
        let Reaches := Watch.Reaches svc.toBackend policy.limit wait t (w.asked c s) w.session.seen
        ∀ j < fuel, Reaches j →
          let cancellation := Clock.cancelDue (before j).1.now (before j).1.ahead
          let deadline := (before j).1.now + policy.waitMs
          (Stops j → result = some (Watch.verdict w.session.seen (.ofNat j) (look j).1, (before j).1,
            (look j).2.mapSession (·.release))) ∧
          (¬ Stops j → token (rest j) = true →
            result = some (.error .cancelled, (before j).1, (look j).2.mapSession (·.release))) ∧
          (¬ Stops j → token (rest j) = false → ∀ m, cancellation = some m → m < deadline →
            ∃ t' w', wait (before j).1 (rest j) = (.cancelled, t', w') ∧ t'.now = m ∧
              ((∀ e ∈ (before j).1.ahead, e.occurrence = .cancel) → w' = rest j) ∧
              result = some (.error .cancelled, t', w'.mapSession (·.release))) ∧
          (¬ Stops j → token (rest j) = false → (∀ m, cancellation = some m → deadline ≤ m) →
            Reaches (j + 1) ∧ (before (j + 1)).1.now = deadline)) ∧
    ∀ r t' w', result = some (r, t', w') → w'.session.watching = false ∧ w'.session.update = .idle ∧
      ∀ limit, (Watch.start limit false).run svc.toBackend w' =
        (Watch.request limit w'.session.seen).run svc.toBackend (w'.mapSession (·.claim)) := by
  intro wait result
  refine ⟨fun htoken => ?_, fun htoken => ?_, fun r t' w' hresult => ?_⟩
  · simp only [result, htoken]
    exact Watch.run_cancelled hfree _ _ _
  · have hstart : result = Watch.run svc.toBackend policy.limit false wait fuel t w := by simp only [result, htoken]
    rw [hstart]
    rcases hwrite : svc.write c .rebuild w.service with ⟨e | u, s⟩
    · exact Watch.run_command_error hcredential hfree hwrite _ _ _
    · intro j hj hreaches cancellation deadline
      have hrun : Watch.run svc.toBackend policy.limit false wait fuel t w =
          Watch.onward svc.toBackend policy.limit wait t (w.asked c s) w.session.seen (fuel - j - 1 + 1) j := by
        rw [Watch.run_accepted hcredential hfree hwrite, hreaches.onward (Nat.le_of_lt hj)]
        congr 1
        omega
      have hasked : t.Busy (w.asked c s) := ⟨by rw [World.asked, Session.claim_of_free hfree], hholding⟩
      have hbusy := Watch.busy_rest svc (Watch.busy_before svc policy token hasked j)
      have hwake := Clock.await_wake svc hbusy deadline (Watch.before svc.toBackend wait t (w.asked c s) j).1.ahead
      rw [hrun]
      -- The look ends the watch; or the token is cancelled by then, or in the wait, or not before the deadline.
      refine ⟨fun hstop => ?_, fun hstop hcancelled => ?_, fun hstop hgoes m hm hlt => ?_, fun hstop hgoes hm => ?_⟩
      · exact Watch.onward_stops hstop _
      · have hpause := Watch.pause_heeding_cancelled (b := svc.toBackend) hinterval hcancelled
        rw [Watch.onward_cancelled hstop (congrArg Prod.fst hpause), Watch.abandoned, hpause]
        rfl
      · have hpause := Watch.pause_heeding_of_not (b := svc.toBackend) hgoes
        obtain ⟨hwoken, hnow⟩ := hwake.1 m hm hlt
        refine ⟨_, _, Prod.ext ((congrArg Prod.fst hpause).trans hwoken) rfl, ?_, fun hcancels => ?_, ?_⟩
        · exact (congrArg (fun r => r.2.1.now) hpause).trans hnow
        · exact (congrArg (fun r => r.2.2) hpause).trans (Clock.await_world svc _ _ hcancels _ _)
        · exact Watch.onward_cancelled hstop ((congrArg Prod.fst hpause).trans hwoken) _
      · have hpause := Watch.pause_heeding_of_not (b := svc.toBackend) hgoes
        obtain ⟨hwoken, hnow⟩ := hwake.2 hm
        refine ⟨hreaches.succ hstop ((congrArg Prod.fst hpause).trans hwoken), ?_⟩
        exact (congrArg (fun r => r.2.1.now) hpause).trans hnow
  · obtain ⟨hwatching, hupdate⟩ := Watch.free_of_run hcredential hfree hresult
    exact ⟨hwatching, hupdate, fun limit => Watch.run_start limit svc.toBackend hwatching⟩

open Script in
/-- The fourth wait of a watch without a limit is cancelled half-way. -/
theorem watch_cancelled_fourth_wait :
    let c : Credential := ⟨"pass", by decide +kernel⟩
    let policy : WatchPolicy := ⟨1000, none⟩
    let w : World Store := ⟨⟨some c, ⟨.updatedAt, .desc⟩, some ⟨1000, 0⟩, false, .idle⟩, Store.initial, []⟩
    let t : Clock StoreChange := ⟨0, [⟨3500, .cancel⟩], [], false, none⟩
    let wait := Watch.Surroundings.heeding (fun _ => false) policy (Clock.surroundings Store.service policy)
    let result := Watch.run Store.service.toBackend policy.limit false wait Watch.looks t w
    policy.intervalMs ≠ 0 ∧ w.session.watching = false ∧ t.holding = false ∧
      Watch.Reaches Store.service.toBackend policy.limit wait t (w.asked c Store.initial) w.session.seen 3 ∧
      ∃ t' w', result = some (.error .cancelled, t', w') ∧ t'.now = 3500 ∧ w'.session.watching = false := by
  intro c policy w t wait result
  have hreaches : Watch.Reaches Store.service.toBackend policy.limit wait t (w.asked c Store.initial)
      w.session.seen 3 := by decide +kernel
  have hgoes : ¬ Watch.Stops Store.service.toBackend policy.limit wait t (w.asked c Store.initial)
      w.session.seen 3 := by decide +kernel
  have hlooks : 3 < Watch.looks := by
    unfold Watch.looks
    omega
  obtain ⟨_, hrun, hfree⟩ := watch_cancelled Store.service policy (fun _ => false) Watch.looks t w c (by decide) rfl
    rfl rfl
  obtain ⟨_, _, hcancelled, _⟩ := hrun rfl 3 hlooks hreaches
  obtain ⟨t', w', _, hnow, _, hresult⟩ := hcancelled hgoes rfl 3500 (by decide +kernel) (by decide +kernel)
  exact ⟨by decide, rfl, rfl, hreaches, t', _, hresult, hnow, (hfree _ _ _ hresult).1⟩

end FilterConsole
