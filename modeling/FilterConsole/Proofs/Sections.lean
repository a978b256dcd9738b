import FilterConsole.Proofs.Refresh
import Mathlib.Logic.Function.Basic

/-! What a refresh shows: the answers of the six reads, with the hits in the order of the session. -/

namespace FilterConsole

variable {σ : Type}

abbrev Sections := (f : Fetch) → f.Answer

def Sections.blank : Sections
  | .filter => ⟨default, 0, ∅⟩
  | .cache => []
  | .queryLog => []
  | .allowList => ∅
  | .overrides => ∅
  | .autoUpdate => .disabled

def Sections.view (x : Sections) (o : HitOrder) : View :=
  .ofSections o (x .filter) (x .cache) (x .queryLog) (x .allowList) (x .overrides) (x .autoUpdate)

namespace Backend

def Serves (b : Backend σ) (c : Credential) (x : Sections) : List Fetch → σ → Prop
  | [], _ => True
  | f :: fs, s => (b.fetch c f s).1 = .ok (x f) ∧ b.Serves c x fs (b.fetch c f s).2

variable {b : Backend σ} {c : Credential} {x y : Sections} {fs : List Fetch} {s : σ}

theorem serves_congr (h : ∀ f ∈ fs, x f = y f) (hx : b.Serves c x fs s) : b.Serves c y fs s := by
  induction fs generalizing s with
  | nil => trivial
  | cons f fs ih =>
    obtain ⟨hf, hfs⟩ := List.forall_mem_cons.mp h
    exact ⟨hf ▸ hx.1, ih hfs hx.2⟩

/-- Reads of different sections that all succeed bring sections. -/
theorem exists_serves (hnodup : fs.Nodup) (h : (b.read c fs s).failure = none) : ∃ x, b.Serves c x fs s := by
  induction fs generalizing s with
  | nil => exact ⟨.blank, trivial⟩
  | cons f fs ih =>
    obtain ⟨hf, hfs⟩ := List.nodup_cons.mp hnodup
    rcases hfetch : b.fetch c f s with ⟨e | a, s'⟩
    · rw [read_cons_error hfetch] at h
      cases h
    · rw [read_cons_ok hfetch] at h
      obtain ⟨x, hx⟩ := ih hfs h
      refine ⟨Function.update x f a, ?_, ?_⟩
      · rw [hfetch, Function.update_self]
      · rw [hfetch]
        exact serves_congr (fun g hg => (Function.update_of_ne (ne_of_mem_of_not_mem hg hf) a x).symm) hx

/-- What every read keeps, holds where each of them is answered. -/
theorem Serves.answer {P : σ → Prop} (hP : ∀ f s, P s → P (b.fetch c f s).2) (hx : b.Serves c x fs s) (hs : P s)
    {f : Fetch} (hf : f ∈ fs) : ∃ s', P s' ∧ (b.fetch c f s').1 = .ok (x f) := by
  induction fs generalizing s with
  | nil => cases hf
  | cons g fs ih =>
    obtain rfl | hf := List.mem_cons.mp hf
    · exact ⟨s, hs, hx.1⟩
    · exact ih hx.2 (hP g s hs) hf

end Backend

theorem refresh_of_serves {b : Backend σ} {c : Credential} {x : Sections} {w : World σ}
    (hc : w.session.credential = some c) (hx : b.Serves c x Fetch.inOrder w.service) :
    (refresh.run.run b w).1 = .ok (x.view w.session.order) := by
  obtain ⟨session, s, log⟩ := w
  obtain ⟨hfilter, hcache, hqueryLog, hallowList, hoverrides, hautoUpdate, -⟩ := hx
  unfold refresh
  rw [Operation.run_bind, Operation.run_credential, hc]
  dsimp only
  rw [Operation.run_fetch_ok (Prod.ext hfilter rfl), Operation.run_fetch_ok (Prod.ext hcache rfl),
    Operation.run_fetch_ok (Prod.ext hqueryLog rfl), Operation.run_fetch_ok (Prod.ext hallowList rfl),
    Operation.run_fetch_ok (Prod.ext hoverrides rfl), Operation.run_fetch_ok (Prod.ext hautoUpdate rfl)]
  rfl

theorem refresh_of_failure {b : Backend σ} {c : Credential} {w : World σ} {e : ConsoleError}
    (hc : w.session.credential = some c) (hx : (b.read c Fetch.inOrder w.service).failure = some e) :
    (refresh.run.run b w).1 = .error e := by
  obtain ⟨_, hx', hrun⟩ | ⟨hx', _⟩ := (refresh_with_credential b hc).1
  · cases hx.symm.trans hx'
    rw [hrun]
  · cases hx.symm.trans hx'

/-- A view comes of six reads with the stored credential. -/
theorem refresh_ok {b : Backend σ} {w : World σ} {v : View} (h : (refresh.run.run b w).1 = .ok v) :
    ∃ c x, w.session.credential = some c ∧ b.Serves c x Fetch.inOrder w.service ∧ v = x.view w.session.order := by
  cases hc : w.session.credential with
  | none =>
    rw [refresh_without_credential b hc] at h
    cases h
  | some c =>
    obtain ⟨e, _, hrun⟩ | ⟨hx, _⟩ := (refresh_with_credential b hc).1
    · rw [hrun] at h
      cases h
    · obtain ⟨x, hserves⟩ := Backend.exists_serves (by decide) hx
      refine ⟨c, x, rfl, hserves, ?_⟩
      rw [refresh_of_serves hc hserves] at h
      exact (Except.ok.inj h).symm

end FilterConsole
