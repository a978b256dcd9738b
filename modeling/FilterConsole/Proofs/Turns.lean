import FilterConsole.Proofs.Observed
import FilterConsole.Proofs.Scene
import Mathlib.Order.Nat

/-! Operations that take turns. Each has its next effect whenever it is its turn, in any order, and meanwhile the others
have theirs; also the service may change by itself. -/

namespace FilterConsole

variable {ι σ δ α β : Type}

inductive Turn (ι δ : Type) where
  | effect (i : ι)
  | change (d : δ)

structure Crowd (ι σ α : Type) where
  world : World σ
  left : ι → Program α

structure Course (ι σ δ α : Type) where
  service : Service σ δ
  start : Crowd ι σ α
  turns : ℕ → Turn ι δ

def Course.ofDeeds (service : Service σ δ) (world : World σ) (deeds : ι → Deed) (holders : ι → List Holder)
    (turns : ℕ → Turn ι δ) : Course ι σ δ (Upshot × List Holder) :=
  ⟨service, ⟨world, fun i => (deeds i).program (holders i)⟩, turns⟩

namespace Course

variable (x : Course ι σ δ α)

def Rests (i : ι) (k n : ℕ) : Prop := ∀ j, k < j → j < n → x.turns j ≠ .effect i

structure Next (i : ι) (k n : ℕ) : Prop where
  lt : k < n
  rests : x.Rests i k n
  turn : x.turns n = .effect i

section Rests

variable {x} {i : ι} {k n : ℕ}

theorem Rests.refl : x.Rests i n (n + 1) := fun j hj hj' => absurd hj' (by omega)

theorem Rests.succ (h : x.Rests i k n) (hturn : x.turns n ≠ .effect i) : x.Rests i k (n + 1) := by
  intro j hkj hj
  obtain hj | rfl := Nat.lt_succ_iff_lt_or_eq.mp hj
  · exact h j hkj hj
  · exact hturn

end Rests

variable [DecidableEq ι]

def before : ℕ → Crowd ι σ α
  | 0 => x.start
  | n + 1 =>
    let crowd := before n
    match x.turns n with
    | .effect i =>
      let (left, world) := (crowd.left i).step x.service.toBackend crowd.world
      ⟨world, Function.update crowd.left i left⟩
    | .change d =>
      { crowd with world := { crowd.world with service := x.service.change d crowd.world.service } }

def world (n : ℕ) : World σ := (x.before n).world

def session (n : ℕ) : Session := (x.world n).session

def left (n : ℕ) (i : ι) : Program α := (x.before n).left i

def Found (i : ι) (n : ℕ) (s : Session) : Prop := ∃ k < n, x.turns k = .effect i ∧ x.session k = s

section Turns

variable {x} {i : ι} {d : δ} {k n : ℕ}

theorem world_succ (h : x.turns n = .effect i) :
    x.world (n + 1) = ((x.left n i).step x.service.toBackend (x.world n)).2 := by
  simp only [world, left, before, h]

theorem session_of_change (h : x.turns n = .change d) : x.session (n + 1) = x.session n := by
  simp only [session, world, before, h]

theorem left_succ (h : x.turns n = .effect i) :
    x.left (n + 1) i = ((x.left n i).step x.service.toBackend (x.world n)).1 := by
  simp only [world, left, before, h, Function.update_self]

theorem session_of_access (hturn : x.turns n = .effect i) {change : Session → Session} {next : Session → Program α}
    (hleft : x.left n i = .access change next) : x.session (n + 1) = change (x.session n) := by
  rw [session, world_succ hturn, hleft]
  rfl

theorem left_of_ne (h : x.turns n ≠ .effect i) : x.left (n + 1) i = x.left n i := by
  simp only [left, before]
  cases hturn : x.turns n with
  | change d => rfl
  | effect j => exact Function.update_of_ne (fun hij => h (by rw [hturn, hij])) _ _

theorem left_of_rests (h : x.Rests i k n) (hk : k < n) : x.left n i = x.left (k + 1) i := by
  induction n, hk using Nat.le_induction with
  | base => rfl
  | succ n hn ih => rw [left_of_ne (h n hn n.lt_succ_self), ih fun j hkj hj => h j hkj (Nat.lt_succ_of_lt hj)]

theorem Found.succ {s : Session} (h : x.Found i n s) : x.Found i (n + 1) s := by
  obtain ⟨k, hk, hturn, hs⟩ := h
  exact ⟨k, Nat.lt_succ_of_lt hk, hturn, hs⟩

/-- What holds of an operation as it begins, and stays so with each of its effects and while it rests, holds at every
turn. -/
theorem left_induction {P : ℕ → Program α → Prop} (hstart : P 0 (x.start.left i))
    (heffect : ∀ n p, x.turns n = .effect i → x.left n i = p → P n p →
      P (n + 1) (p.step x.service.toBackend (x.world n)).1)
    (hrests : ∀ n p, x.turns n ≠ .effect i → x.left n i = p → P n p → P (n + 1) p) (n : ℕ) : P n (x.left n i) := by
  induction n with
  | zero => exact hstart
  | succ n ih =>
    by_cases h : x.turns n = .effect i
    · rw [left_succ h]
      exact heffect n _ h rfl ih
    · rw [left_of_ne h]
      exact hrests n _ h rfl ih

end Turns

end Course

end FilterConsole
