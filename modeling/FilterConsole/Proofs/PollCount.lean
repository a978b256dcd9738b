import FilterConsole.Proofs.Scripted

/-! The count of waits in a watch without a limit. It is kept in 32 bits, and nothing stops it at their end: it is the
number of waits up to a multiple of 2 ^ 32. -/

namespace FilterConsole

variable {σ δ τ : Type}

namespace Script.Clock

variable {holder : Holder} {t : Clock δ} {w : World σ}

/-- Around a watch that has the slot nobody else holds it, and the session shows the watch. -/
theorem scene_single_iff : (t.scene [holder] w).Single ↔
    t.holding = false ∧ w.session.watching = true ∧ holder.Shown w.session.update := by
  rw [scene, Stage.scene]
  cases h : t.holding <;> simp [Scene.Single, claims]

/-- Whatever happens, it makes a note of the session at most, and that shows the watch. -/
theorem happen_notes (svc : Service σ δ) (hs : (t.scene [holder] w).Single) (o : Occurrence δ) :
    ∃ noted, (t.happen svc w o).1.notes = noted ++ t.notes ∧ ∀ note ∈ noted, holder.Shown note.session.update := by
  have hafter := (scene_single_iff.mp ((happen_leads [holder] svc hs o).single hs)).2.2
  cases o with
  | cancel => exact ⟨[_], rfl, List.forall_mem_singleton.mpr hafter⟩
  | action a => exact ⟨[_], rfl, List.forall_mem_singleton.mpr hafter⟩
  | watch policy cancelled =>
    rw [happen] at hafter ⊢
    -- Taken apart as a whole, as its fuel must not be unfolded.
    generalize Watch.run svc.toBackend policy.limit cancelled (undisturbed policy) Watch.looks t.now w = run at hafter ⊢
    cases run with
    | none => exact ⟨[], rfl, List.forall_mem_nil _⟩
    | some result => exact ⟨[_], rfl, List.forall_mem_singleton.mpr hafter⟩

/-- So do all the notes that are made during a wait. -/
theorem await_notes (svc : Service σ δ) (deadline : Nat) (events : List (Event δ)) :
    ∀ (cancelled : Bool) (t : Clock δ) (w : World σ), (t.scene [holder] w).Single →
      ∃ noted, (await svc deadline cancelled events t w).2.1.notes = noted ++ t.notes ∧
        ∀ note ∈ noted, holder.Shown note.session.update := by
  induction events with
  | nil =>
    intro cancelled t w _
    refine ⟨[], ?_, List.forall_mem_nil _⟩
    cases cancelled <;> simp [await]
  | cons e rest ih =>
    intro cancelled t w hs
    have hnone : ∃ noted, t.notes = noted ++ t.notes ∧ ∀ note ∈ noted, holder.Shown note.session.update :=
      ⟨[], rfl, List.forall_mem_nil _⟩
    have hdue : (({ t with now := max t.now e.atMs } : Clock δ).scene [holder] w).Single := hs
    obtain ⟨first, hfirst, hshown⟩ := happen_notes svc hdue e.occurrence
    have hmore : ∀ cancelled : Bool, ∃ noted,
        (await svc deadline cancelled rest ({ t with now := max t.now e.atMs }.happen svc w e.occurrence).1
          ({ t with now := max t.now e.atMs }.happen svc w e.occurrence).2).2.1.notes = noted ++ t.notes ∧
        ∀ note ∈ noted, holder.Shown note.session.update := by
      intro cancelled
      obtain ⟨later, hlater, hshown'⟩ := ih cancelled _ _ ((happen_leads [holder] svc hdue e.occurrence).single hdue)
      refine ⟨later ++ first, by rw [hlater, hfirst, List.append_assoc], fun note hnote => ?_⟩
      exact (List.mem_append.mp hnote).elim (hshown' note) (hshown note)
    rw [await]
    dsimp only
    split
    · exact hnone
    · split
      · exact hnone
      · exact hmore _

end Script.Clock

namespace Watch

open Script

/-- A watch without a limit goes on to the first decisive look. -/
theorem run_unlimited {b : Backend σ} {wait : Surroundings τ σ} {t : τ} {w : World σ} {c : Credential} {s : σ}
    {n fuel : Nat} {view : View} (hcredential : w.session.credential = some c) (hfree : w.session.watching = false)
    (hwrite : b.write c .rebuild w.service = (.ok (), s))
    (hsame : ∀ i < n, ¬ Decisive w.session.seen (look b wait t (w.asked c s) i).1)
    (hlook : (look b wait t (w.asked c s) n).1 = .ok view) (hother : some view.filterCreatedAt ≠ w.session.seen)
    (hwake : ∀ i < n, (pause b wait t (w.asked c s) i).1 = .elapsed) (hfuel : n ≤ fuel) :
    run b none false wait fuel t w = some (.ok ⟨view, .ofNat n⟩, (before b wait t (w.asked c s) n).1,
      (look b wait t (w.asked c s) n).2.mapSession (·.release)) := by
  have hreaches : Reaches b none wait t (w.asked c s) w.session.seen n :=
    fun i hi => ⟨not_or.mpr ⟨hsame i hi, Bool.false_ne_true⟩, hwake i hi⟩
  have hstop : Stops b none wait t (w.asked c s) w.session.seen n := by
    rw [Stops, hlook]
    exact .inl hother
  rw [run_reaches hcredential hfree hwrite hreaches hstop hfuel, ending, hlook, verdict, if_pos hother]

section Shown

variable (svc : Service σ δ) (policy : WatchPolicy) {t : Clock δ} {w : World σ} {i : Nat}

/-- The session shows so many waits when a wait begins, when it ends, and after all that happens in between. -/
structure ShowsPolls (polls : UInt32) (begun ended : Clock δ × World σ) : Prop where
  first : begun.2.session.update = .polling polls
  last : ended.2.session.update = .polling polls
  between : ∃ noted, ended.1.notes = noted ++ begun.1.notes ∧ ∀ note ∈ noted, note.session.update = .polling polls

/-- A watch that has the slot keeps it through a wait, and the session shows it all the time. -/
theorem wait_shows (hholding : t.holding = false) (hwatching : w.session.watching = true)
    (hupdate : w.session.update = .polling (.ofNat i)) :
    let ended := (Clock.surroundings svc policy t w).2
    ended.1.holding = false ∧ ended.2.session.watching = true ∧ ShowsPolls (.ofNat i) (t, w) ended := by
  intro ended
  have hshown : ∀ u, (Holder.watch none ⟨none, .ofNat i⟩ i).Shown u ↔ u = .polling (.ofNat i) := by
    simp [Holder.Shown]
  have hs : (t.scene [.watch none ⟨none, .ofNat i⟩ i] w).Single :=
    Clock.scene_single_iff.mpr ⟨hholding, hwatching, (hshown _).mpr hupdate⟩
  obtain ⟨hholding', hwatching', hlast⟩ := Clock.scene_single_iff.mp
    ((Clock.await_leads _ svc hs (t.now + policy.waitMs) false t.ahead).single hs)
  obtain ⟨noted, hnotes, hbetween⟩ := Clock.await_notes svc (t.now + policy.waitMs) t.ahead false t w hs
  exact ⟨hholding', hwatching', hupdate, (hshown _).mp hlast, noted, hnotes,
    fun note hnote => (hshown _).mp (hbetween note hnote)⟩

theorem pause_shows (hholding : t.holding = false) (hwatching : w.session.watching = true) (i : Nat) :
    let wait := Clock.surroundings svc policy
    ShowsPolls (.ofNat i) ((before svc.toBackend wait t w i).1, rest svc.toBackend wait t w i)
      (pause svc.toBackend wait t w i).2 := by
  intro wait
  have hrest : ∀ i, (before svc.toBackend wait t w i).2.session.watching = true →
      (rest svc.toBackend wait t w i).session.watching = true :=
    fun i h => (refresh_sameSlot svc.toBackend _).1.trans h
  -- By the waits: the watch has had the slot up to each of them.
  have hheld : ∀ i, (before svc.toBackend wait t w i).1.holding = false ∧
      (before svc.toBackend wait t w i).2.session.watching = true := by
    intro i
    induction i with
    | zero => exact ⟨hholding, hwatching⟩
    | succ i ih =>
      obtain ⟨hholding', hwatching', _⟩ := wait_shows svc policy ih.1 (hrest i ih.2) (i := i) rfl
      exact ⟨hholding', hwatching'⟩
  exact (wait_shows svc policy (hheld i).1 (hrest i (hheld i).2) rfl).2.2

end Shown

section LateRebuild

def rebuilt : Occurrence StoreChange := .action (.change { filters := some [.ok ⟨⟨2000, 0⟩, 0, ∅⟩] })

/-- It does so just before the end of the wait `n`, where each wait takes two milliseconds. -/
def lateRebuild (n now : Nat) : Clock StoreChange := ⟨now, [⟨n * 2 - 1, rebuilt⟩], [], false, none⟩

theorem rebuilt_ne_cancel : rebuilt ≠ .cancel := nofun

def patient : WatchPolicy := ⟨2, none⟩

def upToDate (c : Credential) : World Store :=
  ⟨⟨some c, ⟨.updatedAt, .desc⟩, some ⟨1000, 0⟩, false, .idle⟩, Store.initial, []⟩

def stale (c : Credential) (update : UpdateState) (log : List (Credential × Call)) : World Store :=
  ⟨⟨some c, ⟨.updatedAt, .desc⟩, some ⟨1000, 0⟩, true, update⟩, Store.initial, log⟩

def lateLook (c : Credential) (n : Nat) : Nat → Except ConsoleError View × World Store :=
  look Store.service.toBackend (Clock.surroundings Store.service patient) (lateRebuild n 0)
    ((upToDate c).asked c Store.initial)

variable {c : Credential} {i n : Nat}

theorem refresh_stale (c : Credential) (update : UpdateState) (log : List (Credential × Call)) :
    ∃ view log', refresh.run.run Store.service.toBackend (stale c update log) = (.ok view, stale c update log') ∧
      view.filterCreatedAt = ⟨1000, 0⟩ :=
  ⟨_, _, rfl, rfl⟩

theorem wait_late (h : i + 1 < n) (w : World Store) :
    Clock.surroundings Store.service patient (lateRebuild n (i * 2)) w =
      (.elapsed, lateRebuild n ((i + 1) * 2), w) := by
  have hdue : i * 2 + 2 ≤ max (i * 2) (n * 2 - 1) := by omega
  have hwait : patient.waitMs = 2 := by decide
  rw [Clock.surroundings, hwait, lateRebuild, Clock.await_cons _ _ _ _ _ rebuilt_ne_cancel, if_pos hdue, Nat.succ_mul]
  rfl

theorem wait_last (i : Nat) (w : World Store) :
    (Clock.surroundings Store.service patient (lateRebuild (i + 1) (i * 2)) w).2.2 =
      { w with service := { w.service with filters := [.ok ⟨⟨2000, 0⟩, 0, ∅⟩] } } := by
  have hdue : ¬ i * 2 + 2 ≤ max (i * 2) ((i + 1) * 2 - 1) := by omega
  have hwait : patient.waitMs = 2 := by decide
  rw [Clock.surroundings, hwait, lateRebuild, Clock.await_cons _ _ _ _ _ rebuilt_ne_cancel, if_neg hdue]
  rfl

theorem before_late (c : Credential) (hi : i < n) : ∃ update log,
    before Store.service.toBackend (Clock.surroundings Store.service patient) (lateRebuild n 0)
      ((upToDate c).asked c Store.initial) i = (lateRebuild n (i * 2), stale c update log) := by
  induction i with
  | zero => exact ⟨.requested, [(c, .write .rebuild)], by rw [before, Nat.zero_mul]; rfl⟩
  | succ i ih =>
    obtain ⟨update, log, hbefore⟩ := ih (by omega)
    obtain ⟨view, log', hlook, _⟩ := refresh_stale c update log
    refine ⟨.polling (.ofNat (i + 1)), log', ?_⟩
    rw [before_succ, pause, rest, look, hbefore, hlook, wait_late hi]
    rfl

theorem lateLook_same (hi : i < n) : ¬ Decisive (upToDate c).session.seen (lateLook c n i).1 := by
  obtain ⟨update, log, hbefore⟩ := before_late c hi
  obtain ⟨view, log', hlook, hview⟩ := refresh_stale c update log
  rw [lateLook, look, hbefore, hlook, Decisive, hview]
  exact not_not_intro rfl

theorem lateLook_other (c : Credential) (hn : 0 < n) :
    ∃ view, (lateLook c n n).1 = .ok view ∧ some view.filterCreatedAt ≠ (upToDate c).session.seen := by
  obtain ⟨m, rfl⟩ := Nat.exists_eq_add_one_of_ne_zero (Nat.ne_of_gt hn)
  obtain ⟨update, log, hbefore⟩ := before_late c (Nat.lt_succ_self m)
  obtain ⟨view, log', hlook, _⟩ := refresh_stale c update log
  have hnext : ∀ (u : UpdateState) (l : List (Credential × Call)), ∃ view,
      (refresh.run.run Store.service.toBackend ⟨(stale c u l).session,
        { Store.initial with filters := [.ok ⟨⟨2000, 0⟩, 0, ∅⟩] }, l⟩).1 = .ok view ∧
      view.filterCreatedAt = ⟨2000, 0⟩ := fun u l => ⟨_, rfl, rfl⟩
  obtain ⟨view', hlook', hview'⟩ := hnext (.polling (.ofNat (m + 1))) log'
  refine ⟨view', ?_, by simp [hview', upToDate]⟩
  rw [lateLook, look, before_succ, pause, rest, look, hbefore, hlook, wait_last]
  exact hlook'

theorem lateRebuild_never : ∀ e ∈ (lateRebuild n 0).ahead, e.occurrence ≠ .cancel :=
  List.forall_mem_singleton.mpr rebuilt_ne_cancel

end LateRebuild

end Watch

open Script in
/-- A watch without a limit that nobody cancels goes on until another filter shows, however late that is. It counts its
waits modulo 2 ^ 32, so the count is exact just where there are fewer, and in every wait the session shows the waits before
it in the same way. -/
theorem polls_modulo_word (svc : Service σ δ) (policy : WatchPolicy) (t : Clock δ) (w : World σ) (c : Credential) (s : σ)
    (n : Nat) (view : View) (hlimit : policy.limit = none) (hcredential : w.session.credential = some c)
    (hfree : w.session.watching = false) (hholding : t.holding = false)
    (hnever : ∀ e ∈ t.ahead, e.occurrence ≠ .cancel) (hwrite : svc.write c .rebuild w.service = (.ok (), s)) :
    let wait := Clock.surroundings svc policy
    let before := Watch.before svc.toBackend wait t (w.asked c s)
    let look := Watch.look svc.toBackend wait t (w.asked c s)
    let rest := Watch.rest svc.toBackend wait t (w.asked c s)
    let pause := Watch.pause svc.toBackend wait t (w.asked c s)
    (∀ i < n, ¬ Watch.Decisive w.session.seen (look i).1) → (look n).1 = .ok view →
    some view.filterCreatedAt ≠ w.session.seen →
    (∃ polls : UInt32, polls.toNat = n % UInt32.size ∧ (polls.toNat = n ↔ n < UInt32.size) ∧
      (before n).1.now = t.now + n * policy.waitMs ∧
      ∀ fuel ≥ n, Watch.run svc.toBackend policy.limit false wait fuel t w =
        some (.ok ⟨view, polls⟩, (before n).1, (look n).2.mapSession (·.release))) ∧
    ∀ i < n, ∃ polls : UInt32, polls.toNat = i % UInt32.size ∧
      Watch.ShowsPolls polls ((before i).1, rest i) (pause i).2 := by
  intro wait before look rest pause hsame hlook hother
  have hpause := Watch.pause_elapsed svc policy (w.asked c s) hnever
  have hwatching : (w.asked c s).session.watching = true := by rw [World.asked, Session.claim_of_free hfree]
  refine ⟨⟨.ofNat n, UInt32.toNat_ofNat', ?_, (hpause n).1, fun fuel hfuel => ?_⟩, fun i _ =>
    ⟨.ofNat i, UInt32.toNat_ofNat', Watch.pause_shows svc policy hholding hwatching i⟩⟩
  · rw [UInt32.toNat_ofNat', UInt32.size]
    omega
  · rw [hlimit]
    exact Watch.run_unlimited hcredential hfree hwrite hsame hlook hother (fun i _ => (hpause i).2) hfuel

open Script Watch in
/-- The third wait brings another filter. -/
theorem polls_modulo_word_three :
    let c : Credential := ⟨"patient", by decide +kernel⟩
    ∃ view t' w', some view.filterCreatedAt ≠ (upToDate c).session.seen ∧
      run Store.service.toBackend patient.limit false (Clock.surroundings Store.service patient) looks (lateRebuild 3 0)
        (upToDate c) = some (.ok ⟨view, 3⟩, t', w') := by
  intro c
  obtain ⟨view, hlook, hother⟩ := lateLook_other c (by decide : 0 < 3)
  obtain ⟨⟨polls, hpolls, _, _, hrun⟩, _⟩ := polls_modulo_word Store.service patient (lateRebuild 3 0) (upToDate c) c
    Store.initial 3 view rfl rfl rfl rfl lateRebuild_never rfl (fun i hi => lateLook_same hi) hlook hother
  obtain rfl : polls = 3 := UInt32.toNat_inj.mp hpolls
  exact ⟨view, _, _, hother, hrun looks (by decide)⟩

open Script Watch in
/-- After 2 ^ 32 waits the count is back at zero. -/
theorem polls_zero_after_word :
    let c : Credential := ⟨"patient", by decide +kernel⟩
    (∀ e ∈ (lateRebuild UInt32.size 0).ahead, e.occurrence ≠ .cancel) ∧
    (∀ i < UInt32.size, ¬ Decisive (upToDate c).session.seen (lateLook c UInt32.size i).1) ∧
    ∃ view t' w', (lateLook c UInt32.size UInt32.size).1 = .ok view ∧
      some view.filterCreatedAt ≠ (upToDate c).session.seen ∧
      run Store.service.toBackend patient.limit false (Clock.surroundings Store.service patient) looks
        (lateRebuild UInt32.size 0) (upToDate c) = some (.ok ⟨view, 0⟩, t', w') ∧
      t'.now = UInt32.size * patient.waitMs ∧ (0 : UInt32).toNat ≠ UInt32.size := by
  intro c
  have hzero : UInt32.ofNat UInt32.size = 0 := by decide
  have hfuel : UInt32.size ≤ looks := by
    unfold UInt32.size looks
    omega
  obtain ⟨view, hlook, hother⟩ := lateLook_other c (by decide : 0 < UInt32.size)
  have hpause := pause_elapsed Store.service patient ((upToDate c).asked c Store.initial)
    (lateRebuild_never (n := UInt32.size))
  have hwrite : Store.service.write c .rebuild (upToDate c).service = (.ok (), Store.initial) := rfl
  have hrun := run_unlimited rfl rfl hwrite (fun i hi => lateLook_same hi) hlook hother (fun i _ => (hpause i).2) hfuel
  rw [hzero] at hrun
  exact ⟨lateRebuild_never, fun i hi => lateLook_same hi, view, _, _, hlook, hother, hrun,
    (hpause UInt32.size).1.trans (Nat.zero_add _), by decide⟩

end FilterConsole
