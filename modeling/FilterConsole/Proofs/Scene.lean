import FilterConsole.Command
import FilterConsole.Proofs.Watch

/-! A session among its users. They act in any order, also while a watch waits; a scene keeps count of those who have
got hold of the slot for watching, and leaves it open how many they are. -/

namespace FilterConsole

/-- Who has got hold of the slot: someone who claimed it, or a watch, after so many waits in another one. -/
inductive Holder where
  | claimant
  | watch (limit : Option UInt32) (waiting : Watch.Waiting) (waits : Nat)

/-- What somebody does with a session. A holder is named by its place among the holders. -/
inductive Deed where
  | login (c : Credential)
  | logout
  | refresh
  | command (command : Command)
  | resort (view : View) (field : SortField)
  | toggle (field : SortField)
  | setOrder (order : HitOrder)
  | see (createdAt : Timestamp)
  | observe (r : Except ConsoleError Unit)
  | claim
  | setUpdate (holder : Nat) (u : UpdateState)
  | release (holder : Nat)
  | watch (limit : Option UInt32) (cancelled : Bool)
  | wake (holder : Nat) (how : Watch.Wake)

inductive Upshot where
  | done
  | order (o : HitOrder)
  | view (v : View)
  | watched (o : UpdateOutcome)
  | waits
  | failed (e : ConsoleError)

namespace Upshot

def ofView : Except ConsoleError View → Upshot
  | .ok v => view v
  | .error e => failed e

def ofNote : Except ConsoleError Unit → Upshot
  | .ok () => done
  | .error e => failed e

/-- A watch that goes on waiting is a holder; one that is finished is none. -/
def ofPhase (limit : Option UInt32) (waits : Nat) (others : List Holder) : Watch.Phase → Upshot × List Holder
  | .waiting x => (.waits, .watch limit x waits :: others)
  | .finished (.ok o) => (watched o, others)
  | .finished (.error e) => (failed e, others)

end Upshot

namespace Deed

def program (holders : List Holder) : Deed → Program (Upshot × List Holder)
  | login c => .access (·.login c) fun _ => .done (.done, holders)
  | logout => .access (·.logout) fun _ => .done (.done, holders)
  | refresh => FilterConsole.refresh.run.bind fun r => .done (.ofView r, holders)
  | command c => c.run.run.bind fun r => .done (.ofView r, holders)
  | resort view field =>
    .access (·.toggle field) fun s => .done (.view (FilterConsole.resort view field s).1, holders)
  | toggle field => .access (·.toggle field) fun s => .done (.order (s.toggle field).order, holders)
  | setOrder order => .access (·.setOrder order) fun _ => .done (.done, holders)
  | see createdAt => .access (·.see createdAt) fun _ => .done (.done, holders)
  | observe r => .access (·.observe r) fun _ => .done (.ofNote r, holders)
  | claim => .access (·.claim) fun before => .done <|
    if before.watching then (.failed .updateInProgress, holders) else (.done, .claimant :: holders)
  | setUpdate i u =>
    match holders[i]? with
    | some .claimant => .access (·.setUpdate u) fun _ => .done (.done, holders)
    | _ => .done (.done, holders)
  | release i =>
    match holders[i]? with
    | some .claimant => .access (·.release) fun _ => .done (.done, holders.eraseIdx i)
    | _ => .done (.done, holders)
  | watch limit cancelled =>
    (Watch.start limit cancelled).bind fun phase => .done (Upshot.ofPhase limit 0 holders phase)
  | wake i how =>
    match holders[i]? with
    | some (.watch limit x waits) =>
      match how with
      | .elapsed =>
        (Watch.poll limit x).bind fun phase => .done (Upshot.ofPhase limit (waits + 1) (holders.eraseIdx i) phase)
      | .cancelled => Watch.cancel.bind fun phase => .done (Upshot.ofPhase limit waits (holders.eraseIdx i) phase)
    | _ => .done (.done, holders)

def Quiet : Deed → Prop
  | login _ | logout | toggle _ | setOrder _ | see _ | claim | setUpdate .. | release _ => True
  | _ => False

def IsWatch (holders : List Holder) : Deed → Prop
  | watch _ _ => holders = []
  | wake i _ => ∃ limit x waits, holders[i]? = some (.watch limit x waits)
  | _ => False

end Deed

inductive Move (δ : Type) where
  | change (d : δ)
  | deed (d : Deed)

structure Scene (σ : Type) where
  world : World σ
  holders : List Holder

namespace Scene

variable {σ δ : Type}

def start (order : HitOrder) (credential : Option Credential) (service : σ) : Scene σ :=
  ⟨⟨.start order credential, service, []⟩, []⟩

def move (svc : Service σ δ) (s : Scene σ) : Move δ → Upshot × Scene σ
  | .change d => (.done, { s with world := { s.world with service := svc.change d s.world.service } })
  | .deed d =>
    let ((upshot, holders), world) := (d.program s.holders).run svc.toBackend s.world
    (upshot, ⟨world, holders⟩)

section Moves

variable (svc : Service σ δ) (s : Scene σ)

theorem move_refresh : s.move svc (.deed .refresh) =
    (.ofView (FilterConsole.refresh.run.run svc.toBackend s.world).1,
      ⟨(FilterConsole.refresh.run.run svc.toBackend s.world).2, s.holders⟩) := by
  simp only [move, Deed.program, Program.run_bind]
  rfl

theorem move_command (command : Command) : s.move svc (.deed (.command command)) =
    (.ofView (command.run.run.run svc.toBackend s.world).1,
      ⟨(command.run.run.run svc.toBackend s.world).2, s.holders⟩) := by
  simp only [move, Deed.program, Program.run_bind]
  rfl

theorem move_watch (limit : Option UInt32) (cancelled : Bool) : s.move svc (.deed (.watch limit cancelled)) =
    let (phase, w) := (Watch.start limit cancelled).run svc.toBackend s.world
    ((Upshot.ofPhase limit 0 s.holders phase).1, ⟨w, (Upshot.ofPhase limit 0 s.holders phase).2⟩) := by
  simp only [move, Deed.program, Program.run_bind]
  rfl

variable {s} {i : Nat}

theorem move_wake_elapsed {limit : Option UInt32} {x : Watch.Waiting} {waits : Nat}
    (h : s.holders[i]? = some (.watch limit x waits)) : s.move svc (.deed (.wake i .elapsed)) =
      let (phase, w) := (Watch.poll limit x).run svc.toBackend s.world
      ((Upshot.ofPhase limit (waits + 1) (s.holders.eraseIdx i) phase).1,
        ⟨w, (Upshot.ofPhase limit (waits + 1) (s.holders.eraseIdx i) phase).2⟩) := by
  simp only [move, Deed.program, h, Program.run_bind]
  rfl

theorem move_wake_cancelled {limit : Option UInt32} {x : Watch.Waiting} {waits : Nat}
    (h : s.holders[i]? = some (.watch limit x waits)) : s.move svc (.deed (.wake i .cancelled)) =
      (.failed .cancelled, ⟨s.world.mapSession (·.release), s.holders.eraseIdx i⟩) := by
  simp only [move, Deed.program, h, Program.run_bind]
  rfl

theorem move_wake_of_not_watch (h : ∀ limit x waits, s.holders[i]? ≠ some (.watch limit x waits)) (how : Watch.Wake) :
    s.move svc (.deed (.wake i how)) = (.done, s) := by
  simp only [move, Deed.program]
  cases hi : s.holders[i]? with
  | none => rfl
  | some holder =>
    cases holder with
    | claimant => rfl
    | watch limit x waits => exact absurd hi (h limit x waits)

theorem move_claim_taken (h : s.world.session.watching = true) :
    s.move svc (.deed .claim) = (.failed .updateInProgress, s) := by
  simp only [move, Deed.program, Program.run, h, if_true, World.mapSession, Session.claim_of_watching h]

theorem move_claim_free (h : s.world.session.watching = false) :
    s.move svc (.deed .claim) = (.done, ⟨s.world.mapSession (·.claim), .claimant :: s.holders⟩) := by
  simp only [move, Deed.program, Program.run, h, Bool.false_eq_true, if_false]

theorem move_setUpdate_claimant (h : s.holders[i]? = some .claimant) (u : UpdateState) :
    s.move svc (.deed (.setUpdate i u)) = (.done, ⟨s.world.mapSession (·.setUpdate u), s.holders⟩) := by
  simp only [move, Deed.program, h, Program.run]

theorem move_setUpdate_of_ne (h : s.holders[i]? ≠ some .claimant) (u : UpdateState) :
    s.move svc (.deed (.setUpdate i u)) = (.done, s) := by
  simp only [move, Deed.program]
  cases hi : s.holders[i]? with
  | none => rfl
  | some holder =>
    cases holder with
    | claimant => exact absurd hi h
    | watch limit x waits => rfl

theorem move_release_claimant (h : s.holders[i]? = some .claimant) :
    s.move svc (.deed (.release i)) = (.done, ⟨s.world.mapSession (·.release), s.holders.eraseIdx i⟩) := by
  simp only [move, Deed.program, h, Program.run]

theorem move_release_of_ne (h : s.holders[i]? ≠ some .claimant) : s.move svc (.deed (.release i)) = (.done, s) := by
  simp only [move, Deed.program]
  cases hi : s.holders[i]? with
  | none => rfl
  | some holder =>
    cases holder with
    | claimant => exact absurd hi h
    | watch limit x waits => rfl

/-- A quiet deed calls nothing, and answers no more than whether the slot was taken. -/
theorem move_quiet (s : Scene σ) {d : Deed} (hd : d.Quiet) :
    (s.move svc (.deed d)).2.world.log = s.world.log ∧
      ((s.move svc (.deed d)).1 = .done ∨ (∃ o, (s.move svc (.deed d)).1 = .order o) ∨
        (s.move svc (.deed d)).1 = .failed .updateInProgress) := by
  cases d with
  | claim =>
    cases h : s.world.session.watching with
    | true =>
      rw [move_claim_taken svc h]
      exact ⟨rfl, .inr (.inr rfl)⟩
    | false =>
      rw [move_claim_free svc h]
      exact ⟨rfl, .inl rfl⟩
  | setUpdate i u =>
    by_cases h : s.holders[i]? = some .claimant
    · rw [move_setUpdate_claimant svc h]
      exact ⟨rfl, .inl rfl⟩
    · rw [move_setUpdate_of_ne svc h]
      exact ⟨rfl, .inl rfl⟩
  | release i =>
    by_cases h : s.holders[i]? = some .claimant
    · rw [move_release_claimant svc h]
      exact ⟨rfl, .inl rfl⟩
    · rw [move_release_of_ne svc h]
      exact ⟨rfl, .inl rfl⟩
  | toggle field => exact ⟨rfl, .inr (.inl ⟨_, rfl⟩)⟩
  | login c => exact ⟨rfl, .inl rfl⟩
  | logout => exact ⟨rfl, .inl rfl⟩
  | setOrder order => exact ⟨rfl, .inl rfl⟩
  | see createdAt => exact ⟨rfl, .inl rfl⟩
  | _ => exact hd.elim

end Moves

def after (svc : Service σ δ) (s : Scene σ) (moves : List (Move δ)) : Scene σ :=
  moves.foldl (fun s m => (s.move svc m).2) s

@[simp] theorem after_nil (svc : Service σ δ) (s : Scene σ) : s.after svc [] = s := rfl

@[simp] theorem after_cons (svc : Service σ δ) (s : Scene σ) (m : Move δ) (moves : List (Move δ)) :
    s.after svc (m :: moves) = (s.move svc m).2.after svc moves := rfl

theorem after_append (svc : Service σ δ) (s : Scene σ) (u v : List (Move δ)) :
    s.after svc (u ++ v) = (s.after svc u).after svc v := List.foldl_append

theorem after_keeps {svc : Service σ δ} {P : Scene σ → Prop} (h : ∀ s m, P s → P (s.move svc m).2) {s : Scene σ}
    (hs : P s) (moves : List (Move δ)) : P (s.after svc moves) := by
  induction moves generalizing s with
  | nil => exact hs
  | cons m moves ih => exact ih (h s m hs)

def Leads (svc : Service σ δ) (s s' : Scene σ) : Prop := ∃ moves : List (Move δ), s.after svc moves = s'

namespace Leads

variable {svc : Service σ δ} {s s' s'' : Scene σ}

theorem refl (s : Scene σ) : Leads svc s s := ⟨[], rfl⟩

theorem of_move (m : Move δ) (h : (s.move svc m).2 = s') : Leads svc s s' := ⟨[m], h⟩

theorem trans (h : Leads svc s s') (h' : Leads svc s' s'') : Leads svc s s'' := by
  obtain ⟨u, rfl⟩ := h
  obtain ⟨v, rfl⟩ := h'
  exact ⟨u ++ v, after_append svc s u v⟩

theorem keeps {P : Scene σ → Prop} (hmove : ∀ s (m : Move δ), P s → P (s.move svc m).2) (h : Leads svc s s')
    (hs : P s) : P s' := by
  obtain ⟨moves, rfl⟩ := h
  exact after_keeps hmove hs moves

end Leads

end Scene

end FilterConsole
