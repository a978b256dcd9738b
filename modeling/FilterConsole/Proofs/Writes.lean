import FilterConsole.Proofs.Observed
import FilterConsole.Proofs.Scene

/-! What is written. Only a command and the start of a watch write anything; which of the writes of a run were accepted
can be told from its replies. -/

namespace FilterConsole

variable {α β σ δ : Type}

def Reply.accepted? (x : Reply) : Option Write :=
  match x.call, x.failure with
  | .write wr, none => some wr
  | _, _ => none

namespace Program

inductive Writes (P : Write → Prop) : Program α → Prop
  | done (a : α) : Writes P (.done a)
  | access {change : Session → Session} {next : Session → Program α} (hnext : ∀ s, Writes P (next s)) :
      Writes P (.access change next)
  | fetch {c : Credential} {f : Fetch} {next : Except ConsoleError f.Answer → Program α}
      (hnext : ∀ r, Writes P (next r)) : Writes P (.fetch c f next)
  | write {c : Credential} {wr : Write} {next : Except ConsoleError Unit → Program α} (hwrite : P wr)
      (hnext : ∀ r, Writes P (next r)) : Writes P (.write c wr next)

variable {P : Write → Prop}

theorem Writes.bind {p : Program α} {k : α → Program β} (hp : p.Writes P) (hk : ∀ a, (k a).Writes P) :
    (p.bind k).Writes P := by
  induction hp with
  | done a => exact hk a
  | access _ ih => exact .access ih
  | fetch _ ih => exact .fetch ih
  | write hwrite _ ih => exact .write hwrite ih

theorem Writes.compositional : Compositional (fun _ => Writes P) P where
  done := .done
  bind := .bind
  access := fun _ _ hnext => .access hnext
  write := fun _ _ hwrite => .write hwrite fun _ => .access fun _ => .done _

theorem Writes.of_mem_replies {p : Program α} (hp : p.Writes P) {b : Backend σ} {w : World σ} {x : Reply}
    (hx : x ∈ p.replies b w) {wr : Write} (h : x.call = .write wr) : P wr := by
  induction hp generalizing w with
  | done a => cases hx
  | access _ ih => exact ih _ hx
  | fetch _ ih =>
    obtain rfl | hx := List.mem_cons.mp hx
    · cases h
    · exact ih _ hx
  | write hwrite _ ih =>
    obtain rfl | hx := List.mem_cons.mp hx
    · cases h
      exact hwrite
    · exact ih _ hx

theorem replies_bind (p : Program α) (k : α → Program β) (b : Backend σ) (w : World σ) :
    (p.bind k).replies b w = p.replies b w ++ (k (p.run b w).1).replies b (p.run b w).2 := by
  induction p generalizing w with
  | done a => rfl
  | access change next ih => exact ih _ _
  | fetch c f next ih => exact congrArg (_ :: ·) (ih _ _)
  | write c wr next ih => exact congrArg (_ :: ·) (ih _ _)

def accepted (b : Backend σ) (p : Program α) (w : World σ) : List Write := (p.replies b w).filterMap (·.accepted?)

theorem Writes.of_mem_accepted {p : Program α} (hp : p.Writes P) {b : Backend σ} {w : World σ} {wr : Write}
    (h : wr ∈ p.accepted b w) : P wr := by
  obtain ⟨x, hx, hwr⟩ := List.mem_filterMap.mp h
  rw [Reply.accepted?] at hwr
  split at hwr
  · next hcall _ =>
    cases hwr
    exact hp.of_mem_replies hx hcall
  · cases hwr

theorem accepted_bind (p : Program α) (k : α → Program β) (b : Backend σ) (w : World σ) :
    (p.bind k).accepted b w = p.accepted b w ++ (k (p.run b w).1).accepted b (p.run b w).2 := by
  rw [accepted, replies_bind, List.filterMap_append]
  rfl

end Program

namespace Operation

theorem accepted_bind (m : Operation α) (k : α → Operation β) (b : Backend σ) (w : World σ) :
    (m >>= k).run.accepted b w = m.run.accepted b w ++
      match m.run.run b w with
      | (.ok a, v) => (k a).run.accepted b v
      | (.error _, _) => [] := by
  refine (Program.accepted_bind m.run (ExceptT.bindCont k) b w).trans ?_
  obtain ⟨e | a, v⟩ := m.run.run b w <;> rfl

theorem accepted_credential (b : Backend σ) (w : World σ) : credential.run.accepted b w = [] :=
  List.eq_nil_iff_forall_not_mem.mpr fun _ h =>
    (Program.Writes.compositional (P := fun _ => False)).credential.of_mem_accepted h

theorem accepted_write (c : Credential) (wr : Write) (b : Backend σ) (w : World σ) :
    (write c wr).run.accepted b w =
      match (b.write c wr w.service).1 with
      | .ok () => [wr]
      | .error _ => [] := by
  have hreplies : (write c wr).run.replies b w = [⟨c, .write wr, failure? (b.write c wr w.service).1⟩] := rfl
  rw [Program.accepted, hreplies]
  cases (b.write c wr w.service).1 <;> rfl

end Operation

/-- A refresh writes nothing. -/
theorem refresh_writes {P : Write → Prop} : refresh.run.Writes P :=
  Program.Writes.compositional.refresh (fun _ _ => .fetch fun _ => .access fun _ => .done _) fun _ =>
    .access fun _ => .done _

theorem refresh_accepted (b : Backend σ) (w : World σ) : refresh.run.accepted b w = [] :=
  List.eq_nil_iff_forall_not_mem.mpr fun _ h => refresh_writes (P := fun _ => False).of_mem_accepted h

namespace Command

variable {command : Command}

/-- A command writes what its arguments say, or nothing. -/
theorem writes (command : Command) : command.run.run.Writes (command.write = .ok ·) :=
  Program.Writes.compositional.command refresh_writes fun _ hwr => hwr

/-- The write of a command is accepted if its arguments are in order, there is a credential, and the service accepts the
call; whether the refresh after it succeeds does not matter. -/
theorem accepted_eq (b : Backend σ) (w : World σ) (command : Command) :
    command.run.run.accepted b w =
      match command.write, w.session.credential with
      | .ok wr, some c =>
        match (b.write c wr w.service).1 with
        | .ok () => [wr]
        | .error _ => []
      | _, _ => [] := by
  cases h : command.write with
  | error e =>
    rw [run_of_error h]
    rfl
  | ok wr =>
    rw [run_of_ok h, Operation.accepted_bind, Operation.accepted_credential, Operation.run_credential]
    cases w.session.credential with
    | none => rfl
    | some c =>
      dsimp only
      rw [List.nil_append, Operation.accepted_bind, Operation.accepted_write, Operation.run_write]
      rcases (b.write c wr w.service).1 with e | u
      · rfl
      · dsimp only
        rw [refresh_accepted, List.append_nil]

theorem accepted_ne_nil_iff (b : Backend σ) (w : World σ) (command : Command) :
    command.run.run.accepted b w ≠ [] ↔
      ∃ wr c, command.write = .ok wr ∧ w.session.credential = some c ∧ (b.write c wr w.service).1 = .ok () := by
  rw [accepted_eq]
  cases command.write with
  | error e => simp
  | ok wr =>
    cases w.session.credential with
    | none => simp
    | some c => rcases hr : (b.write c wr w.service).1 with e | u <;> simp [hr]

theorem accepted_cases (b : Backend σ) (w : World σ) (command : Command) :
    command.run.run.accepted b w = [] ∨ ∃ wr, command.write = .ok wr ∧ command.run.run.accepted b w = [wr] := by
  rw [accepted_eq]
  cases command.write with
  | error e => exact .inl rfl
  | ok wr =>
    cases w.session.credential with
    | none => exact .inl rfl
    | some c =>
      dsimp only
      cases (b.write c wr w.service).1 with
      | error e => exact .inl rfl
      | ok u => exact .inr ⟨wr, rfl, rfl⟩

end Command

/-- Whoever gives no command writes nothing but a rebuild. -/
theorem Deed.writes (holders : List Holder) (d : Deed) (h : ∀ command, d ≠ .command command) :
    (d.program holders).Writes (· = .rebuild) := by
  have hplain : d.Plain → (d.program holders).Writes (· = .rebuild) := fun hplain =>
    (Program.Writes.compositional (P := (· = .rebuild))).deed refresh_writes rfl holders hplain fun command hd =>
      absurd hd (h command)
  cases d with
  | command c => exact absurd rfl (h c)
  | login c => exact .access fun _ => .done _
  | logout => exact .access fun _ => .done _
  | see createdAt => exact .access fun _ => .done _
  | observe r => exact .access fun _ => .done _
  | _ => exact hplain trivial

end FilterConsole
