import FilterConsole.Proofs.Watch

/-! The looks of a watch, numbered from the one after the command, whatever happens during the waits between them. The
watch goes from look to look until one of them or a cancelled wait ends it. -/

namespace FilterConsole

variable {σ τ : Type}

namespace Watch

section Looks

variable (b : Backend σ) (limit : Option UInt32) (wait : Surroundings τ σ) (t : τ) (w : World σ)

/-- Time and world before each look of a watch that never ends, from the time `t` and the world `w` of the first. -/
def before : Nat → τ × World σ
  | 0 => (t, w)
  | i + 1 =>
    let (t, w) := before i
    let (_, t, w) := wait t ((refresh.run.run b w).2.mapSession (·.setUpdate (.polling (.ofNat i))))
    (t, w.mapSession (·.setUpdate (.polling (.ofNat (i + 1)))))

def look (i : Nat) : Except ConsoleError View × World σ := refresh.run.run b (before b wait t w i).2

def rest (i : Nat) : World σ := (look b wait t w i).2.mapSession (·.setUpdate (.polling (.ofNat i)))

def pause (i : Nat) : Wake × τ × World σ := wait (before b wait t w i).1 (rest b wait t w i)

def Stops (seen : Option Timestamp) (i : Nat) : Prop :=
  Decisive seen (look b wait t w i).1 ∨ isExhausted limit (.ofNat i) = true

instance (seen : Option Timestamp) : DecidablePred (Stops b limit wait t w seen) := fun i =>
  inferInstanceAs (Decidable (Decisive seen (look b wait t w i).1 ∨ isExhausted limit (.ofNat i) = true))

def Reaches (seen : Option Timestamp) (j : Nat) : Prop :=
  ∀ i < j, ¬ Stops b limit wait t w seen i ∧ (pause b wait t w i).1 = .elapsed

instance (seen : Option Timestamp) : DecidablePred (Reaches b limit wait t w seen) := fun j =>
  inferInstanceAs (Decidable (∀ i < j, ¬ Stops b limit wait t w seen i ∧ (pause b wait t w i).1 = .elapsed))

def ending (seen : Option Timestamp) (i : Nat) : Except ConsoleError UpdateOutcome × τ × World σ :=
  (verdict seen (.ofNat i) (look b wait t w i).1, (before b wait t w i).1,
    (look b wait t w i).2.mapSession (·.release))

def abandoned (i : Nat) : Except ConsoleError UpdateOutcome × τ × World σ :=
  (.error .cancelled, (pause b wait t w i).2.1, (pause b wait t w i).2.2.mapSession (·.release))

def onward (seen : Option Timestamp) (fuel i : Nat) : Option (Except ConsoleError UpdateOutcome × τ × World σ) :=
  if Stops b limit wait t w seen i then some (ending b wait t w seen i)
  else follow b limit wait fuel (.waiting ⟨seen, .ofNat i⟩) (before b wait t w i).1 (rest b wait t w i)

end Looks

theorem before_succ (b : Backend σ) (wait : Surroundings τ σ) (t : τ) (w : World σ) (i : Nat) :
    before b wait t w (i + 1) = ((pause b wait t w i).2.1,
      (pause b wait t w i).2.2.mapSession (·.setUpdate (.polling (.ofNat (i + 1))))) := rfl

theorem follow_finished (b : Backend σ) (wait : Surroundings τ σ) (limit : Option UInt32) (fuel : Nat)
    (r : Except ConsoleError UpdateOutcome) (t : τ) (w : World σ) :
    follow b limit wait fuel (.finished r) t w = some (r, t, w) := by
  cases fuel <;> rfl

section Onward

variable {b : Backend σ} {limit : Option UInt32} {wait : Surroundings τ σ} {t : τ} {w : World σ}
  {seen : Option Timestamp} {fuel i j : Nat} {x : Except ConsoleError UpdateOutcome × τ × World σ}

/-- After a wait the session shows the waits already when the look is made. -/
theorem rest_succ (b : Backend σ) (wait : Surroundings τ σ) (t : τ) (w : World σ) (i : Nat) :
    rest b wait t w (i + 1) = (look b wait t w (i + 1)).2 := by
  have hupdate : (look b wait t w (i + 1)).2.session.update = .polling (.ofNat (i + 1)) := (refresh_sameSlot b _).2
  rw [rest, World.mapSession, Session.setUpdate_eq_self hupdate]

theorem onward_stops (h : Stops b limit wait t w seen i) (fuel : Nat) :
    onward b limit wait t w seen fuel i = some (ending b wait t w seen i) := if_pos h

theorem onward_elapsed (h : ¬ Stops b limit wait t w seen i) (hp : (pause b wait t w i).1 = .elapsed) (fuel : Nat) :
    onward b limit wait t w seen (fuel + 1) i = onward b limit wait t w seen fuel (i + 1) := by
  have hwait : wait (before b wait t w i).1 (rest b wait t w i) =
      (.elapsed, (before b wait t w (i + 1)).1, (pause b wait t w i).2.2) := Prod.ext hp rfl
  have hpolls : UInt32.ofNat i + 1 = .ofNat (i + 1) := (UInt32.ofNat_add i 1).symm
  have hlook : refresh.run.run b ((pause b wait t w i).2.2.mapSession (·.setUpdate (.polling (.ofNat (i + 1))))) =
      look b wait t w (i + 1) := rfl
  rw [onward, if_neg h, follow, hwait]
  dsimp only
  rw [run_poll]
  simp only [hpolls, hlook]
  by_cases hstop : Decisive seen (look b wait t w (i + 1)).1 ∨ isExhausted limit (.ofNat (i + 1)) = true
  · rw [onward_stops hstop, if_pos hstop, follow_finished]
    rfl
  · rw [onward, if_neg hstop, rest_succ]
    exact (if_neg hstop).symm

theorem onward_cancelled (h : ¬ Stops b limit wait t w seen i) (hp : (pause b wait t w i).1 = .cancelled) (fuel : Nat) :
    onward b limit wait t w seen (fuel + 1) i = some (abandoned b wait t w i) := by
  have hwait : wait (before b wait t w i).1 (rest b wait t w i) =
      (.cancelled, (pause b wait t w i).2.1, (pause b wait t w i).2.2) := Prod.ext hp rfl
  rw [onward, if_neg h, follow, hwait]
  exact follow_finished b wait limit fuel _ _ _

theorem reaches_zero (b : Backend σ) (limit : Option UInt32) (wait : Surroundings τ σ) (t : τ) (w : World σ)
    (seen : Option Timestamp) : Reaches b limit wait t w seen 0 := fun i hi => absurd hi (Nat.not_lt_zero i)

theorem Reaches.succ (h : Reaches b limit wait t w seen j) (hstop : ¬ Stops b limit wait t w seen j)
    (hp : (pause b wait t w j).1 = .elapsed) : Reaches b limit wait t w seen (j + 1) := by
  intro i hi
  obtain hlt | rfl := Nat.lt_succ_iff_lt_or_eq.mp hi
  · exact h i hlt
  · exact ⟨hstop, hp⟩

/-- A watch comes to every look that it reaches. -/
theorem Reaches.onward (h : Reaches b limit wait t w seen j) (hfuel : j ≤ fuel) :
    onward b limit wait t w seen fuel 0 = Watch.onward b limit wait t w seen (fuel - j) j := by
  induction j with
  | zero => rfl
  | succ j ih =>
    obtain ⟨hstop, hp⟩ := h j (Nat.lt_succ_self j)
    have hleft : fuel - j = (fuel - (j + 1)) + 1 := by omega
    rw [ih (fun i hi => h i (Nat.lt_succ_of_lt hi)) (by omega), hleft, onward_elapsed hstop hp]

/-- A watch that ends does so by a look that it reaches, or in the wait after it. -/
theorem exists_reaches (h : Reaches b limit wait t w seen i) (hx : onward b limit wait t w seen fuel i = some x) :
    ∃ j, Reaches b limit wait t w seen j ∧
      (Stops b limit wait t w seen j ∧ x = ending b wait t w seen j ∨
        ¬ Stops b limit wait t w seen j ∧ (pause b wait t w j).1 = .cancelled ∧ x = abandoned b wait t w j) := by
  -- By the looks left.
  induction fuel generalizing i with
  | zero =>
    by_cases hstop : Stops b limit wait t w seen i
    · rw [onward_stops hstop] at hx
      exact ⟨i, h, .inl ⟨hstop, (Option.some.inj hx).symm⟩⟩
    · rw [Watch.onward, if_neg hstop, follow] at hx
      cases hx
  | succ fuel ih =>
    by_cases hstop : Stops b limit wait t w seen i
    · rw [onward_stops hstop] at hx
      exact ⟨i, h, .inl ⟨hstop, (Option.some.inj hx).symm⟩⟩
    · cases hp : (pause b wait t w i).1 with
      | elapsed =>
        rw [onward_elapsed hstop hp] at hx
        exact ih (h.succ hstop hp) hx
      | cancelled =>
        rw [onward_cancelled hstop hp] at hx
        exact ⟨i, h, .inr ⟨hstop, hp, (Option.some.inj hx).symm⟩⟩

/-- A watch with a limit ends within as many looks as there are waits left. -/
theorem onward_ends (b : Backend σ) (wait : Surroundings τ σ) (t : τ) (w : World σ) (seen : Option Timestamp)
    {n : UInt32} (hi : i ≤ n.toNat) (hfuel : n.toNat ≤ i + fuel) :
    ∃ x, onward b (some n) wait t w seen fuel i = some x := by
  induction fuel generalizing i with
  | zero =>
    have hlast : Stops b (some n) wait t w seen i := .inr ((isExhausted_ofNat hi).mpr (by omega))
    exact ⟨_, onward_stops hlast 0⟩
  | succ fuel ih =>
    by_cases hstop : Stops b (some n) wait t w seen i
    · exact ⟨_, onward_stops hstop _⟩
    · have hne : i ≠ n.toNat := fun h => hstop (.inr ((isExhausted_ofNat hi).mpr h))
      cases hp : (pause b wait t w i).1 with
      | elapsed =>
        rw [onward_elapsed hstop hp]
        exact ih (by omega) (by omega)
      | cancelled => exact ⟨_, onward_cancelled hstop hp fuel⟩

theorem Reaches.le_limit {n : UInt32} (h : Reaches b (some n) wait t w seen j) : j ≤ n.toNat := by
  by_contra hj
  have hlast : isExhausted (some n) (.ofNat n.toNat) = true := (isExhausted_ofNat (Nat.le_refl _)).mpr rfl
  exact (h n.toNat (by omega)).1 (.inr hlast)

end Onward

section Run

variable {b : Backend σ} {wait : Surroundings τ σ} {w : World σ} {c : Credential} {s : σ}

theorem run_rejected (h : w.session.watching = true) (limit : Option UInt32) (cancelled : Bool) (fuel : Nat) (t : τ) :
    run b limit cancelled wait fuel t w = some (.error .updateInProgress, t, w) := by
  rw [run, run_start_rejected limit cancelled b h]
  exact follow_finished b wait limit fuel _ t w

theorem run_cancelled (h : w.session.watching = false) (limit : Option UInt32) (fuel : Nat) (t : τ) :
    run b limit true wait fuel t w = some (.error .cancelled, t, w.mapSession (·.release)) := by
  rw [run, run_start_cancelled limit b h]
  exact follow_finished b wait limit fuel _ t _

theorem run_without_credential (hcredential : w.session.credential = none) (hfree : w.session.watching = false)
    (limit : Option UInt32) (fuel : Nat) (t : τ) :
    run b limit false wait fuel t w = some (.error .missingCredential, t, w.mapSession (·.release)) := by
  rw [run, run_start_without_credential limit b hcredential hfree]
  exact follow_finished b wait limit fuel _ t _

theorem run_command_error {e : ConsoleError} (hcredential : w.session.credential = some c)
    (hfree : w.session.watching = false) (hwrite : b.write c .rebuild w.service = (.error e, s))
    (limit : Option UInt32) (fuel : Nat) (t : τ) :
    run b limit false wait fuel t w = some (.error e, t, ⟨{ w.session with
      credential := if e = .unauthorized then none else w.session.credential
      watching := false
      update := .idle }, s, (c, .write .rebuild) :: w.log⟩) := by
  rw [run, run_start_refused limit b hcredential hfree hwrite]
  dsimp only
  rw [follow_finished, World.answered, Session.observe_error]
  rfl

/-- A watch whose command is accepted comes to its first look. -/
theorem run_accepted (hcredential : w.session.credential = some c) (hfree : w.session.watching = false)
    (hwrite : b.write c .rebuild w.service = (.ok (), s)) (limit : Option UInt32) (fuel : Nat) (t : τ) :
    run b limit false wait fuel t w = onward b limit wait t (w.asked c s) w.session.seen fuel 0 := by
  have hlook : refresh.run.run b (w.asked c s) = look b wait t (w.asked c s) 0 := rfl
  rw [run, run_start_accepted limit b hcredential hfree hwrite, hlook]
  dsimp only
  by_cases hstop : Decisive w.session.seen (look b wait t (w.asked c s) 0).1 ∨ isExhausted limit 0 = true
  · rw [onward_stops hstop, if_pos hstop, follow_finished]
    rfl
  · rw [if_neg hstop]
    exact (if_neg hstop).symm

/-- It ends by the first look that it reaches and that ends it. -/
theorem run_reaches {limit : Option UInt32} {fuel j : Nat} {t : τ} (hcredential : w.session.credential = some c)
    (hfree : w.session.watching = false) (hwrite : b.write c .rebuild w.service = (.ok (), s))
    (hreaches : Reaches b limit wait t (w.asked c s) w.session.seen j)
    (hstop : Stops b limit wait t (w.asked c s) w.session.seen j) (hfuel : j ≤ fuel) :
    run b limit false wait fuel t w = some (ending b wait t (w.asked c s) w.session.seen j) := by
  rw [run_accepted hcredential hfree hwrite, hreaches.onward hfuel, onward_stops hstop]

/-- A watch with a limit comes to an end. -/
theorem run_ends (b : Backend σ) (wait : Surroundings τ σ) (n : UInt32) (cancelled : Bool) (t : τ) (w : World σ) :
    ∃ x, run b (some n) cancelled wait looks t w = some x := by
  cases hwatching : w.session.watching with
  | true => exact ⟨_, run_rejected hwatching _ _ _ _⟩
  | false =>
    cases cancelled with
    | true => exact ⟨_, run_cancelled hwatching _ _ _⟩
    | false =>
      cases hcredential : w.session.credential with
      | none => exact ⟨_, run_without_credential hcredential hwatching _ _ _⟩
      | some c =>
        rcases hwrite : b.write c .rebuild w.service with ⟨e | u, s⟩
        · exact ⟨_, run_command_error hcredential hwatching hwrite _ _ _⟩
        · have hlooks : n.toNat ≤ 0 + looks := by
            have hn := n.toNat_lt
            unfold looks
            omega
          rw [run_accepted hcredential hwatching hwrite]
          exact onward_ends b wait t _ _ (Nat.zero_le _) hlooks

end Run

end Watch

end FilterConsole
