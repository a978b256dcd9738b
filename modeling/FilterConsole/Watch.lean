import FilterConsole.Refresh

/-! Watching a filter update. The watch takes the session's slot, asks for a rebuild and looks at the filter until
another one shows, with a wait between two looks. Whatever ends the watch frees the slot. -/

namespace FilterConsole

structure WatchPolicy where
  intervalMs : UInt64 := 1000
  limit : Option UInt32 := some 600
  deriving DecidableEq, Repr

def longestWaitMs : Nat := 30 * 365 * 86400 * 1000

def WatchPolicy.waitMs (p : WatchPolicy) : Nat := min p.intervalMs.toNat longestWaitMs

structure UpdateOutcome where
  view : View
  polls : UInt32
  deriving DecidableEq, Repr

namespace Watch

/-- Between two looks the watch keeps the age of the filter seen before the command, and the number of waits. -/
structure Waiting where
  seen : Option Timestamp
  polls : UInt32
  deriving DecidableEq, Repr

inductive Phase where
  | waiting (w : Waiting)
  | finished (result : Except ConsoleError UpdateOutcome)

def close (result : Except ConsoleError UpdateOutcome) : Program Phase :=
  .access (·.release) fun _ => .done (.finished result)

def orClose {α : Type} (operation : Operation α) (next : α → Program Phase) : Program Phase :=
  operation.run.bind fun
    | .ok a => next a
    | .error e => close (.error e)

def isExhausted (limit : Option UInt32) (polls : UInt32) : Bool :=
  match limit with
  | some n => n ≤ polls
  | none => false

def settle (limit : Option UInt32) (w : Waiting) (view : View) : Program Phase :=
  if some view.filterCreatedAt ≠ w.seen then close (.ok ⟨view, w.polls⟩)
  else if isExhausted limit w.polls then close (.error (.timeout w.polls))
  else .done (.waiting w)

def request (limit : Option UInt32) (seen : Option Timestamp) : Program Phase :=
  orClose (do Operation.write (← Operation.credential) .rebuild) fun _ =>
    orClose refresh fun view =>
      .access (·.setUpdate (.polling 0)) fun _ => settle limit ⟨seen, 0⟩ view

def start (limit : Option UInt32) (cancelled : Bool) : Program Phase :=
  .access (·.claim) fun before =>
    if before.watching then .done (.finished (.error .updateInProgress))
    else if cancelled then close (.error .cancelled)
    else .access id fun s => request limit s.seen

def poll (limit : Option UInt32) (w : Waiting) : Program Phase :=
  let w := { w with polls := w.polls + 1 }
  .access (·.setUpdate (.polling w.polls)) fun _ => orClose refresh (settle limit w)

def cancel : Program Phase := close (.error .cancelled)

inductive Wake where
  | elapsed
  | cancelled
  deriving DecidableEq, Repr

/-- What happens around the watch while it waits: how the wait ends, and the world after it. -/
abbrev Surroundings (τ σ : Type) := τ → World σ → Wake × τ × World σ

def Surroundings.beside {τ σ ρ : Type} (wait : Surroundings τ σ) : Surroundings τ (σ × ρ) := fun t w =>
  let (wake, t, v) := wait t ⟨w.session, w.service.1, w.log⟩
  (wake, t, ⟨v.session, (v.service, w.service.2), v.log⟩)

/-- Goes through waits and looks to the end, if it comes within so many looks. -/
def follow {τ σ : Type} (b : Backend σ) (limit : Option UInt32) (wait : Surroundings τ σ) :
    Nat → Phase → τ → World σ → Option (Except ConsoleError UpdateOutcome × τ × World σ)
  | _, .finished r, t, w => some (r, t, w)
  | 0, .waiting _, _, _ => none
  | n + 1, .waiting waiting, t, w =>
    match wait t w with
    | (.elapsed, t, w) =>
      let (phase, w) := (poll limit waiting).run b w
      follow b limit wait n phase t w
    | (.cancelled, t, w) =>
      let (phase, w) := cancel.run b w
      follow b limit wait n phase t w

def looks : Nat := 0x100000001

def run {τ σ : Type} (b : Backend σ) (limit : Option UInt32) (cancelled : Bool) (wait : Surroundings τ σ)
    (looks : Nat) (t : τ) (w : World σ) : Option (Except ConsoleError UpdateOutcome × τ × World σ) :=
  let (phase, w) := (start limit cancelled).run b w
  follow b limit wait looks phase t w

end Watch

end FilterConsole
