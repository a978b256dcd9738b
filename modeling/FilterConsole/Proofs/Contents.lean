import FilterConsole.Proofs.Command
import FilterConsole.Proofs.Sections
import FilterConsole.Proofs.Writes
import FilterConsole.Store

/-! What commands change at a service that stores it: each accepted command has its effect, whatever it answers, and
every view that a refresh or a command answers shows what is stored. -/

namespace FilterConsole

variable {α σ δ : Type}

namespace Table

variable {k : String} {v : α}

theorem filter_put_ne (k : String) (v : α) (l : List (String × α)) :
    (put k v l).filter (·.1 != k) = l.filter (·.1 != k) := by
  induction l with
  | nil => simp [put]
  | cons d r ih =>
    simp only [put]
    split
    · simp
    · split
      · simp only [List.filter_cons, ih]
      · next h h' =>
        have hd : d.1 = k := eq_of_not_lt h' h
        simp [hd]

theorem filter_put_eq (k : String) (v : α) {l : List (String × α)} (hl : l.Pairwise fun a b => a.1 < b.1) :
    (put k v l).filter (·.1 == k) = [(k, v)] := by
  have hlater : ∀ r : List (String × α), (∀ e ∈ r, k < e.1) → r.filter (·.1 == k) = [] := by
    intro r hr
    rw [List.filter_eq_nil_iff]
    intro e he heq
    exact String.ne_of_lt (hr e he) (beq_iff_eq.mp heq).symm
  induction l with
  | nil => simp [put]
  | cons d r ih =>
    obtain ⟨hd, hr⟩ := List.pairwise_cons.1 hl
    simp only [put]
    split
    · next h =>
      rw [List.filter_cons_of_pos (by simp), hlater (d :: r)]
      exact List.forall_mem_cons.2 ⟨h, fun e he => String.lt_trans h (hd e he)⟩
    · split
      · next h =>
        rw [List.filter_cons_of_neg (by simpa using (String.ne_of_lt h)), ih hr]
      · next h h' =>
        have hdk : d.1 = k := eq_of_not_lt h' h
        rw [List.filter_cons_of_pos (by simp), hlater r fun e he => hdk ▸ hd e he]

/-- Setting a name replaces its entry, if it has one, and touches no other. -/
theorem insert_spec (t : Table α) (k : String) (v : α) :
    (t.insert k v).entries.filter (·.1 == k) = [(k, v)] ∧ (t.insert k v).erase k = t.erase k := by
  refine ⟨filter_put_eq k v t.sorted, ?_⟩
  have h : (put k v t.entries).filter (·.1 != k) = t.entries.filter (·.1 != k) := filter_put_ne k v t.entries
  simp only [erase, insert, h]

end Table

structure Contents where
  allowList : NameSet
  overrides : Overrides
  autoUpdate : AutoUpdate
  deriving DecidableEq, Repr

def View.contents (v : View) : Contents := ⟨v.allowList, v.overrides, v.autoUpdate⟩

def Store.contents (s : Store) : Contents := ⟨s.allowList, s.overrides, s.autoUpdate⟩

def Contents.apply (x : Contents) : Write → Contents
  | .rebuild => x
  | .allow domain => { x with allowList := x.allowList.insert domain () }
  | .disallow domain => { x with allowList := x.allowList.erase domain }
  | .setOverride domain address => { x with overrides := x.overrides.insert domain address }
  | .removeOverride domain => { x with overrides := x.overrides.erase domain }
  | .setAutoUpdate setting => { x with autoUpdate := setting }

/-- What a command is there for, as the operator means it: a name without the blanks around it goes into the allow-list
or out of it, an override is set or removed by such a name, the setting is replaced. -/
def Command.effect (x : Contents) : Command → Contents
  | allow domain => { x with allowList := x.allowList.insert (trim domain) () }
  | disallow domain => { x with allowList := x.allowList.erase (trim domain) }
  | setOverride domain address => { x with overrides := x.overrides.insert (trim domain) address }
  | removeOverride domain => { x with overrides := x.overrides.erase (trim domain) }
  | setAutoUpdate setting => { x with autoUpdate := setting }

theorem Contents.apply_intent (x : Contents) (command : Command) : x.apply command.intent = command.effect x := by
  cases command <;> rfl

/-- Reads answer what is stored and leave it; an accepted write changes it, a refused one does not. Beyond that any call
may fail at any time. -/
structure Backend.StoreLike (b : Backend σ) (contents : σ → Contents) : Prop where
  fetch : ∀ c f s, contents (b.fetch c f s).2 = contents s
  allowList : ∀ c s x, (b.fetch c .allowList s).1 = .ok x → x = (contents s).allowList
  overrides : ∀ c s x, (b.fetch c .overrides s).1 = .ok x → x = (contents s).overrides
  autoUpdate : ∀ c s x, (b.fetch c .autoUpdate s).1 = .ok x → x = (contents s).autoUpdate
  accepted : ∀ c wr s, (b.write c wr s).1 = .ok () → contents (b.write c wr s).2 = (contents s).apply wr
  refused : ∀ c wr s e, (b.write c wr s).1 = .error e → contents (b.write c wr s).2 = contents s

theorem Store.storeLike : Store.service.StoreLike Store.contents where
  fetch c f s := by
    simp only [service]
    split
    · rfl
    · cases f with
      | filter =>
        simp only [read, nextFilter]
        split <;> rfl
      | _ => rfl
  allowList c s x h := by
    simp only [service] at h
    split at h
    · cases h
    · exact (Except.ok.inj h).symm
  overrides c s x h := by
    simp only [service] at h
    split at h
    · cases h
    · exact (Except.ok.inj h).symm
  autoUpdate c s x h := by
    simp only [service] at h
    split at h
    · cases h
    · exact (Except.ok.inj h).symm
  accepted c wr s h := by
    simp only [service] at h ⊢
    split at h
    · cases h
    · cases wr <;> rfl
  refused c wr s e h := by
    simp only [service] at h ⊢
    split at h
    · rfl
    · cases h

namespace Backend.StoreLike

variable {b : Backend σ} {contents : σ → Contents} (hb : b.StoreLike contents)
include hb

/-- A run changes what is stored by its accepted writes and by nothing else. -/
theorem run (p : Program α) (w : World σ) :
    contents (p.run b w).2.service = (p.accepted b w).foldl Contents.apply (contents w.service) := by
  induction p generalizing w with
  | done a => rfl
  | access change next ih => exact ih _ _
  | fetch c f next ih =>
    have hread := hb.fetch c f w.service
    refine (ih _ _).trans ?_
    rw [hread]
    rfl
  | write c wr next ih =>
    -- Only the answer tells if the write counts, here and among the accepted ones alike.
    rcases hr : b.write c wr w.service with ⟨e | u, s⟩
    · have hkeeps : contents s = contents w.service := by simpa only [hr] using hb.refused c wr w.service e (by rw [hr])
      simp only [Program.run, Program.accepted, Program.replies, hr, failure?, List.filterMap_cons, Reply.accepted?]
      rw [ih, hkeeps]
      rfl
    · have happlied : contents s = (contents w.service).apply wr := by
        simpa only [hr] using hb.accepted c wr w.service (by rw [hr])
      simp only [Program.run, Program.accepted, Program.replies, hr, failure?, List.filterMap_cons, Reply.accepted?,
        List.foldl_cons]
      rw [ih, happlied]
      rfl

/-- What writes nothing but a rebuild leaves the contents as they are. -/
theorem run_rebuild {p : Program α} (hp : p.Writes (· = .rebuild)) (w : World σ) :
    contents (p.run b w).2.service = contents w.service := by
  have hnothing : ∀ (writes : List Write) (x : Contents), (∀ wr ∈ writes, wr = .rebuild) →
      writes.foldl Contents.apply x = x := by
    intro writes
    induction writes with
    | nil => exact fun _ _ => rfl
    | cons wr writes ih =>
      intro x h
      obtain ⟨rfl, hrest⟩ := List.forall_mem_cons.mp h
      exact ih x hrest
  rw [hb.run]
  exact hnothing _ _ fun wr h => hp.of_mem_accepted h

/-- A command has its effect if its write is accepted, whatever it answers, and none otherwise. -/
theorem run_command (command : Command) (w : World σ) :
    contents (command.run.run.run b w).2.service =
      if command.run.run.accepted b w = [] then contents w.service else command.effect (contents w.service) := by
  rw [hb.run]
  obtain h | ⟨wr, hwrite, h⟩ := command.accepted_cases b w
  · rw [h, if_pos rfl]
    rfl
  · rw [h, if_neg (List.cons_ne_nil _ _)]
    rw [(Command.write_ok_iff.mp hwrite).2]
    exact Contents.apply_intent _ command

/-- A view that a refresh answers shows what is stored then. -/
theorem refresh_view {w : World σ} {v : View} (h : (refresh.run.run b w).1 = .ok v) :
    v.contents = contents (refresh.run.run b w).2.service := by
  obtain ⟨c, x, _, hx, rfl⟩ := refresh_ok h
  rw [hb.run_rebuild refresh_writes]
  have hkeep : ∀ f s, contents s = contents w.service → contents (b.fetch c f s).2 = contents w.service :=
    fun f s hs => (hb.fetch c f s).trans hs
  obtain ⟨s, hs, hallow⟩ := hx.answer hkeep rfl (f := .allowList) (by decide)
  obtain ⟨s', hs', hoverrides⟩ := hx.answer hkeep rfl (f := .overrides) (by decide)
  obtain ⟨s'', hs'', hauto⟩ := hx.answer hkeep rfl (f := .autoUpdate) (by decide)
  change (⟨x .allowList, x .overrides, x .autoUpdate⟩ : Contents) = contents w.service
  rw [hb.allowList c s _ hallow, hb.overrides c s' _ hoverrides, hb.autoUpdate c s'' _ hauto, hs, hs', hs'']

theorem command_view {command : Command} {w : World σ} {v : View} (h : (command.run.run.run b w).1 = .ok v) :
    v.contents = contents (command.run.run.run b w).2.service := by
  cases hwrite : command.write with
  | error e =>
    rw [Command.run_rejected b hwrite] at h
    cases h
  | ok wr =>
    cases hc : w.session.credential with
    | none =>
      rw [Command.run_without_credential b hwrite hc] at h
      cases h
    | some c =>
      rw [Command.run_with_credential b hwrite hc] at h ⊢
      rcases hr : b.write c wr w.service with ⟨e | u, s⟩
      · rw [hr] at h
        cases h
      · rw [hr] at h
        exact hb.refresh_view h

end Backend.StoreLike

end FilterConsole
