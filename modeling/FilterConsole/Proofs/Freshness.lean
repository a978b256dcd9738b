import FilterConsole.Proofs.Verdict

/-! What a successful watch shows: the first filter other than the one that the session had seen when the watch began.
The session compares with what it has seen, not with what the service holds when it accepts the command. -/

namespace FilterConsole

namespace Watch

variable {τ σ : Type}

theorem verdict_ok {seen : Option Timestamp} {polls : UInt32} {r : Except ConsoleError View} {o : UpdateOutcome}
    (h : verdict seen polls r = .ok o) : r = .ok o.view ∧ o.polls = polls ∧ some o.view.filterCreatedAt ≠ seen := by
  cases r with
  | error e => cases h
  | ok view =>
    rw [verdict] at h
    split at h
    · next hother =>
      cases h
      exact ⟨rfl, rfl, hother⟩
    · cases h

theorem eq_seen_of_not_decisive {seen : Timestamp} {r : Except ConsoleError View} (h : ¬ Decisive (some seen) r) :
    ∃ v, r = .ok v ∧ v.filterCreatedAt = seen := by
  cases r with
  | error e => exact absurd trivial h
  | ok v => exact ⟨v, rfl, Option.some.inj (not_not.mp h)⟩

end Watch

end FilterConsole
