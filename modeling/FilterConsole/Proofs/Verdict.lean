import FilterConsole.Proofs.Looks
import FilterConsole.Script
import FilterConsole.Store
import Mathlib.Data.Nat.Find

/-! The verdict of a watch that nobody cancels. The first decisive look, or the one at the limit, ends it. -/

namespace FilterConsole

variable {σ δ τ : Type}

namespace Watch

/-- There is a first look that decides or comes after the last wait. -/
theorem exists_last_look (decides : Nat → Prop) (n : UInt32) :
    ∃ k ≤ n, (∀ j < k.toNat, ¬ decides j) ∧ (decides k.toNat ∨ k = n) := by
  classical
  have hlast : ∃ i, decides i ∨ i = n.toNat := ⟨n.toNat, .inr rfl⟩
  have hfind : Nat.find hlast ≤ n.toNat := Nat.find_min' hlast (.inr rfl)
  have hk : (UInt32.ofNat (Nat.find hlast)).toNat = Nat.find hlast :=
    UInt32.toNat_ofNat_of_lt' (Nat.lt_of_le_of_lt hfind n.toNat_lt)
  refine ⟨.ofNat (Nat.find hlast), ?_, ?_, ?_⟩
  · rwa [UInt32.le_iff_toNat_le, hk]
  · rw [hk]
    exact fun j hj hd => Nat.find_min hlast hj (.inl hd)
  · rw [hk]
    exact (Nat.find_spec hlast).imp_right fun h => UInt32.toNat_inj.mp (hk.trans h)

theorem run_to_look {b : Backend σ} {wait : Surroundings τ σ} {w : World σ} {c : Credential} {s : σ} {n k : UInt32}
    {t : τ} (hcredential : w.session.credential = some c) (hfree : w.session.watching = false)
    (hwrite : b.write c .rebuild w.service = (.ok (), s)) (hk : k ≤ n)
    (hstop : Decisive w.session.seen (look b wait t (w.asked c s) k.toNat).1 ∨ k = n)
    (hgo : ∀ j < k.toNat, ¬ Decisive w.session.seen (look b wait t (w.asked c s) j).1)
    (hwake : ∀ j < k.toNat, (pause b wait t (w.asked c s) j).1 = .elapsed) :
    run b (some n) false wait looks t w =
      some (verdict w.session.seen k (look b wait t (w.asked c s) k.toNat).1, (before b wait t (w.asked c s) k.toNat).1,
        (look b wait t (w.asked c s) k.toNat).2.mapSession (·.release)) := by
  have hkn := UInt32.le_iff_toNat_le.mp hk
  have hreaches : Reaches b (some n) wait t (w.asked c s) w.session.seen k.toNat := by
    intro j hj
    refine ⟨?_, hwake j hj⟩
    rintro (hd | he)
    · exact hgo j hj hd
    · have hn := (isExhausted_ofNat (by omega)).mp he
      omega
  have hlast : Stops b (some n) wait t (w.asked c s) w.session.seen k.toNat :=
    hstop.imp_right fun h => (isExhausted_ofNat hkn).mpr (congrArg UInt32.toNat h)
  have hfuel : k.toNat ≤ looks := by
    have hlt := k.toNat_lt
    unfold looks
    omega
  rw [run_reaches hcredential hfree hwrite hreaches hlast hfuel, ending, UInt32.ofNat_toNat]

end Watch

namespace Script.Clock

theorem await_cons (svc : Service σ δ) (deadline : Nat) {e : Event δ} (rest : List (Event δ)) (t : Clock δ)
    (w : World σ) (h : e.occurrence ≠ .cancel) :
    await svc deadline false (e :: rest) t w =
      if deadline ≤ max t.now e.atMs then (.elapsed, { t with now := deadline, ahead := e :: rest }, w)
      else
        let (t, w) := { t with now := max t.now e.atMs }.happen svc w e.occurrence
        await svc deadline false rest t w := by
  obtain ⟨atMs, occurrence⟩ := e
  rw [await]
  cases occurrence with
  | cancel => exact absurd rfl h
  | watch policy cancelled => simp
  | action a => simp

/-- With no cancellation ahead a wait lasts to its deadline, and nothing is added to what is ahead. -/
theorem await_elapsed (svc : Service σ δ) (deadline : Nat) (events : List (Event δ)) (t : Clock δ) (w : World σ)
    (h : ∀ e ∈ events, e.occurrence ≠ .cancel) :
    let (wake, t', _) := await svc deadline false events t w
    wake = .elapsed ∧ t'.now = deadline ∧ t'.ahead <:+ events := by
  induction events generalizing t w with
  | nil => exact ⟨rfl, rfl, List.suffix_rfl⟩
  | cons e rest ih =>
    rw [await_cons svc deadline rest t w (h e List.mem_cons_self)]
    by_cases hdue : deadline ≤ max t.now e.atMs
    · rw [if_pos hdue]
      exact ⟨rfl, rfl, List.suffix_rfl⟩
    · rw [if_neg hdue]
      obtain ⟨hwake, hnow, hahead⟩ := ih ({ t with now := max t.now e.atMs }.happen svc w e.occurrence).1
        ({ t with now := max t.now e.atMs }.happen svc w e.occurrence).2 fun e' he' => h e' (List.mem_cons_of_mem _ he')
      exact ⟨hwake, hnow, hahead.trans (List.suffix_cons e rest)⟩

end Script.Clock

namespace Watch

open Script

variable (svc : Service σ δ) (policy : WatchPolicy) {t : Clock δ} (w : World σ)

theorem pause_elapsed (h : ∀ e ∈ t.ahead, e.occurrence ≠ .cancel) (i : Nat) :
    let wait := Clock.surroundings svc policy
    (before svc.toBackend wait t w i).1.now = t.now + i * policy.waitMs ∧
      (pause svc.toBackend wait t w i).1 = .elapsed := by
  intro wait
  have key : ∀ i, (before svc.toBackend wait t w i).1.now = t.now + i * policy.waitMs ∧
      (before svc.toBackend wait t w i).1.ahead <:+ t.ahead := by
    intro i
    induction i with
    | zero => exact ⟨by simp [before], List.suffix_rfl⟩
    | succ i ih =>
      obtain ⟨hnow, hahead⟩ := ih
      have hwait := Clock.await_elapsed svc ((before svc.toBackend wait t w i).1.now + policy.waitMs)
        (before svc.toBackend wait t w i).1.ahead (before svc.toBackend wait t w i).1
        ((look svc.toBackend wait t w i).2.mapSession (·.setUpdate (.polling (.ofNat i))))
        fun e he => h e (hahead.subset he)
      rw [before_succ]
      refine ⟨hwait.2.1.trans ?_, hwait.2.2.trans hahead⟩
      rw [hnow, Nat.succ_mul, Nat.add_assoc]
  obtain ⟨hnow, hahead⟩ := key i
  exact ⟨hnow, (Clock.await_elapsed svc _ _ _ _ fun e he => h e (hahead.subset he)).1⟩

end Watch

open Script in
/-- A watch with a credential and a free slot that nobody cancels gives its command once, before it looks. If the command
fails, so does the watch. Otherwise it looks until a look is decisive or no wait is left; that look is its verdict. The
waits between the looks are equally long, and what else happens to the session meanwhile counts only by what the looks
find. -/
theorem watch_verdict (svc : Service σ δ) (policy : WatchPolicy) (n : UInt32) (t : Clock δ) (w : World σ)
    (c : Credential) (hlimit : policy.limit = some n) (hcredential : w.session.credential = some c)
    (hfree : w.session.watching = false) (hnever : ∀ e ∈ t.ahead, e.occurrence ≠ .cancel) :
    let wait := Clock.surroundings svc policy
    let result := Watch.run svc.toBackend policy.limit false wait Watch.looks t w
    match svc.write c .rebuild w.service with
    | (.error e, s) =>
      result = some (.error e, t, ⟨{ w.session with
        credential := if e = .unauthorized then none else w.session.credential
        watching := false
        update := .idle }, s, (c, .write .rebuild) :: w.log⟩)
    | (.ok (), s) =>
      let before := Watch.before svc.toBackend wait t (w.asked c s)
      let look := Watch.look svc.toBackend wait t (w.asked c s)
      ∃ k ≤ n, (∀ j < k.toNat, ¬ Watch.Decisive w.session.seen (look j).1) ∧
        (Watch.Decisive w.session.seen (look k.toNat).1 ∨ k = n) ∧
        result = some (Watch.verdict w.session.seen k (look k.toNat).1, (before k.toNat).1,
          (look k.toNat).2.mapSession (·.release)) ∧
        (∀ i ≤ k.toNat, (before i).1.now = t.now + i * min policy.intervalMs.toNat longestWaitMs) ∧
        ∀ i, ∃ reads : List (Credential × Fetch),
          (look i).2.calls = (before i).2.calls ++ reads.map fun r => (r.1, .fetch r.2) := by
  intro wait result
  rcases hwrite : svc.write c .rebuild w.service with ⟨e | u, s⟩
  · exact Watch.run_command_error hcredential hfree hwrite _ _ _
  · have hpause := Watch.pause_elapsed svc policy (w.asked c s) hnever
    obtain ⟨k, hk, hgo, hstop⟩ := Watch.exists_last_look
      (fun i => Watch.Decisive w.session.seen (Watch.look svc.toBackend wait t (w.asked c s) i).1) n
    have hresult := Watch.run_to_look hcredential hfree hwrite hk hstop hgo fun j _ => (hpause j).2
    rw [← hlimit] at hresult
    exact ⟨k, hk, hgo, hstop, hresult, fun i _ => (hpause i).1, fun i => refresh_calls _ _⟩

open Script in
/-- Somebody refreshes during the first wait, while the service still shows the old filter, and another watch is
rejected. -/
theorem watch_verdict_second_poll :
    let c : Credential := ⟨"t", by decide +kernel⟩
    let policy : WatchPolicy := ⟨1000, some 3⟩
    let old : Snapshot := ⟨⟨1000, 0⟩, 0, ∅⟩
    let new : Snapshot := ⟨⟨2000, 0⟩, 0, ∅⟩
    let store : Store := { Store.initial with filters := [.ok old, .ok old, .ok old, .ok new] }
    let w : World Store := ⟨⟨some c, ⟨.updatedAt, .desc⟩, some ⟨1000, 0⟩, false, .idle⟩, store, []⟩
    let t : Clock StoreChange := ⟨0, [⟨500, .action .refresh⟩, ⟨700, .watch ⟨1, none⟩ false⟩], [], false, none⟩
    let wait := Clock.surroundings Store.service policy
    let result := Watch.run Store.service.toBackend policy.limit false wait Watch.looks t w
    (∀ e ∈ t.ahead, e.occurrence ≠ .cancel) ∧
      (result.map fun r => (r.1.map (·.polls), r.2.1.now)) = some (.ok 2, 2000) ∧
      ∀ j < 2, ¬ Watch.Decisive (some ⟨1000, 0⟩) (Watch.look Store.service.toBackend wait t (w.asked c store) j).1 := by
  intro c policy old new store w t wait result
  have hnever : ∀ e ∈ t.ahead, e.occurrence ≠ .cancel := by simp [t]
  have hrun : (result.map fun r => (r.1.map (·.polls), r.2.1.now)) = some (.ok 2, 2000) := by decide +kernel
  obtain ⟨k, _, hgo, _, hresult, htime, _⟩ := watch_verdict Store.service policy 3 t w c rfl rfl rfl hnever
  refine ⟨hnever, hrun, ?_⟩
  have hk : k.toNat = 2 := by
    have hnow := htime k.toNat le_rfl
    simp only [result, wait, hresult, Option.map_some, Option.some.injEq, Prod.mk.injEq] at hrun
    have hinterval : min policy.intervalMs.toNat longestWaitMs = 1000 := by decide
    have hstart : t.now = 0 := rfl
    rw [hrun.2, hinterval, hstart] at hnow
    omega
  rw [hk] at hgo
  exact hgo

open Script in
/-- An interval of more than thirty years is not waited for. -/
theorem wait_shorter_than_interval :
    let c : Credential := ⟨"t", by decide +kernel⟩
    let policy : WatchPolicy := ⟨1000000000000, some 1⟩
    let w : World Store := ⟨⟨some c, ⟨.updatedAt, .desc⟩, some ⟨1000, 0⟩, false, .idle⟩, Store.initial, []⟩
    let result := Watch.run Store.service.toBackend policy.limit false (Clock.surroundings Store.service policy)
      Watch.looks ⟨0, [], [], false, none⟩ w
    (result.map fun r => (r.1.map (·.polls), r.2.1.now)) = some (.error (.timeout 1), 946080000000) ∧
      946080000000 ≠ 1 * policy.intervalMs.toNat := by
  intro c policy w result
  exact ⟨by decide +kernel, by decide⟩

end FilterConsole
