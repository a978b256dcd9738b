import FilterConsole.Command
import FilterConsole.Watch

/-! Scripts of session steps against a service. Time passes only while a watch waits; other steps may be timed to happen
during its waits. -/

namespace FilterConsole.Script

variable {σ δ : Type}

inductive Action (δ : Type) where
  | change (d : δ)
  | login (secret : String)
  | logout
  | look
  | refresh
  | resort (field : SortField)
  | toggle (field : SortField)
  | setOrder (order : HitOrder)
  | command (command : Command)
  | observe (error : Option ConsoleError)
  | see (createdAt : Timestamp)
  | claim
  | setPolls (polls : UInt32)
  | release

inductive Occurrence (δ : Type) where
  | cancel
  | watch (policy : WatchPolicy) (cancelled : Bool)
  | action (a : Action δ)

structure Event (δ : Type) where
  atMs : Nat
  occurrence : Occurrence δ

inductive Step (δ : Type) where
  | action (a : Action δ)
  | watch (policy : WatchPolicy) (cancelled : Bool) (events : List (Event δ))

inductive Outcome where
  | done
  | blankSecret
  | noView
  | held (b : Bool)
  | order (o : HitOrder)
  | view (v : View)
  | watched (o : UpdateOutcome)
  | failed (e : ConsoleError)

/-- The world, whether the script holds the slot for watching, and the latest view. -/
structure Stage (σ : Type) where
  world : World σ
  holding : Bool
  view : Option View

namespace Stage

def initial (credential : Option Credential) (order : HitOrder) (service : σ) : Stage σ :=
  ⟨⟨.start order credential, service, []⟩, false, none⟩

def mapSession (s : Stage σ) (change : Session → Session) : Stage σ := { s with world := s.world.mapSession change }

def perform (b : Backend σ) (s : Stage σ) (operation : Operation View) : Outcome × Stage σ :=
  match operation.run.run b s.world with
  | (.ok v, world) => (.view v, { s with world, view := some v })
  | (.error e, world) => (.failed e, { s with world })

def act (svc : Service σ δ) (s : Stage σ) : Action δ → Outcome × Stage σ
  | .change d => (.done, { s with world := { s.world with service := svc.change d s.world.service } })
  | .login secret =>
    match Credential.ofSecret? secret with
    | some c => (.done, s.mapSession (·.login c))
    | none => (.blankSecret, s)
  | .logout => (.done, s.mapSession (·.logout))
  | .look => (.done, s)
  | .refresh => s.perform svc.toBackend FilterConsole.refresh
  | .resort field =>
    match s.view with
    | none => (.noView, s)
    | some v =>
      let (v, session) := FilterConsole.resort v field s.world.session
      (.view v, { s with world := { s.world with session }, view := some v })
  | .toggle field =>
    let s := s.mapSession (·.toggle field)
    (.order s.world.session.order, s)
  | .setOrder order => (.done, s.mapSession (·.setOrder order))
  | .command c => s.perform svc.toBackend c.run
  | .observe none => (.done, s)
  | .observe (some e) => (.failed e, s.mapSession (·.observe (.error e : Except ConsoleError Unit)))
  | .see createdAt => (.done, s.mapSession (·.see createdAt))
  | .claim =>
    if s.world.session.watching then (.failed .updateInProgress, s)
    else (.done, { s.mapSession (·.claim) with holding := true })
  | .setPolls polls => (.held s.holding, if s.holding then s.mapSession (·.setUpdate (.polling polls)) else s)
  | .release => (.held s.holding, if s.holding then { s.mapSession (·.release) with holding := false } else s)

end Stage

structure Note where
  outcome : Outcome
  session : Session

/-- Time since the watch began, what is still to happen, and the notes on what has happened, latest first. The world of
the stage is the one that the watch runs in. -/
structure Clock (δ : Type) where
  now : Nat
  ahead : List (Event δ)
  notes : List Note
  holding : Bool
  view : Option View

def Outcome.ofWatch : Except ConsoleError UpdateOutcome → Outcome
  | .ok o => .watched o
  | .error e => .failed e

def undisturbed (policy : WatchPolicy) : Watch.Surroundings Nat σ := fun now w =>
  (.elapsed, now + policy.waitMs, w)

namespace Clock

/-- Lets an occurrence happen now. A watch among them is over before anything else happens. -/
def happen (svc : Service σ δ) (t : Clock δ) (w : World σ) : Occurrence δ → Clock δ × World σ
  | .cancel => ({ t with notes := ⟨.done, w.session⟩ :: t.notes }, w)
  | .action a =>
    let (outcome, s) := (Stage.mk w t.holding t.view).act svc a
    ({ t with notes := ⟨outcome, s.world.session⟩ :: t.notes, holding := s.holding, view := s.view }, s.world)
  | .watch policy cancelled =>
    match Watch.run svc.toBackend policy.limit cancelled (undisturbed policy) Watch.looks t.now w with
    | none => (t, w)
    | some (r, now, w) =>
      let view := match r with
        | .ok o => some o.view
        | .error _ => t.view
      ({ t with now, notes := ⟨.ofWatch r, w.session⟩ :: t.notes, view }, w)

/-- Lets happen what is due before the deadline. Once the watch is cancelled only what is due at that very time does. -/
def await (svc : Service σ δ) (deadline : Nat) :
    Bool → List (Event δ) → Clock δ → World σ → Watch.Wake × Clock δ × World σ
  | cancelled, [], t, w =>
    if cancelled then (.cancelled, { t with ahead := [] }, w)
    else (.elapsed, { t with now := deadline, ahead := [] }, w)
  | cancelled, e :: rest, t, w =>
    let due := max t.now e.atMs
    if cancelled && t.now < due then (.cancelled, { t with ahead := e :: rest }, w)
    else if !cancelled && deadline ≤ due then (.elapsed, { t with now := deadline, ahead := e :: rest }, w)
    else
      let (t, w) := { t with now := due }.happen svc w e.occurrence
      await svc deadline (cancelled || e.occurrence matches .cancel) rest t w

def surroundings (svc : Service σ δ) (policy : WatchPolicy) : Watch.Surroundings (Clock δ) σ := fun t w =>
  await svc (t.now + policy.waitMs) false t.ahead t w

def finish (svc : Service σ δ) (t : Clock δ) (w : World σ) : Clock δ × World σ :=
  t.ahead.foldl (fun (t, w) e => { t with now := max t.now e.atMs }.happen svc w e.occurrence)
    ({ t with ahead := [] }, w)

end Clock

structure WatchReport where
  result : Except ConsoleError UpdateOutcome
  elapsedMs : Nat
  events : List Note

inductive Answer where
  | outcome (o : Outcome)
  | watch (report : WatchReport)

structure Entry where
  answer : Answer
  calls : List (Credential × Call)
  session : Session

def Stage.watch (svc : Service σ δ) (s : Stage σ) (policy : WatchPolicy) (cancelled : Bool)
    (events : List (Event δ)) : Option (WatchReport × Stage σ) := do
  let t : Clock δ := ⟨0, events, [], s.holding, s.view⟩
  let (r, t, w) ← Watch.run svc.toBackend policy.limit cancelled (Clock.surroundings svc policy) Watch.looks t s.world
  let view := match r with
    | .ok o => some o.view
    | .error _ => t.view
  let (after, w) := { t with view }.finish svc w
  return (⟨r, t.now, after.notes.reverse⟩, ⟨w, after.holding, after.view⟩)

def Stage.step (svc : Service σ δ) (s : Stage σ) (step : Step δ) : Option (Entry × Stage σ) := do
  let s := { s with world := { s.world with log := [] } }
  let (answer, s) ← match step with
    | .action a =>
      let (o, s) := s.act svc a
      some (Answer.outcome o, s)
    | .watch policy cancelled events => (s.watch svc policy cancelled events).map fun (r, s) => (.watch r, s)
  return (⟨answer, s.world.calls, s.world.session⟩, s)

def Stage.play (svc : Service σ δ) (s : Stage σ) : List (Step δ) → Option (List Entry)
  | [] => some []
  | step :: rest => do
    let (entry, s) ← s.step svc step
    return entry :: (← s.play svc rest)

end FilterConsole.Script
