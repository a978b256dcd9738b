import FilterConsole.Proofs.Turns

/-! What an operation draws on. It presents no credential but one that it has found in the session, and a watch compares
with nothing but the age of a filter that it has found there. -/

namespace FilterConsole

variable {ι σ δ α β : Type}

def CredentialOf (F : Session → Prop) (c : Credential) : Prop := ∃ s, F s ∧ s.credential = some c

theorem CredentialOf.mono {F G : Session → Prop} {c : Credential} (h : CredentialOf F c) (hFG : ∀ s, F s → G s) :
    CredentialOf G c := by
  obtain ⟨s, hs, hc⟩ := h
  exact ⟨s, hFG s hs, hc⟩

namespace Program

/-- Where the sessions `F` have been found, a program presents only credentials of these and of those that it finds on
its way. It ends with what `V` says of all of them. -/
inductive Draws (V : (Session → Prop) → α → Prop) : (Session → Prop) → Program α → Prop
  | done {F : Session → Prop} {a : α} (ha : V F a) : Draws V F (.done a)
  | access {F : Session → Prop} {change : Session → Session} {next : Session → Program α}
      (hnext : ∀ s, Draws V (fun s' => F s' ∨ s' = s) (next s)) : Draws V F (.access change next)
  | fetch {F : Session → Prop} {c : Credential} {f : Fetch} {next : Except ConsoleError f.Answer → Program α}
      (hc : CredentialOf F c) (hnext : ∀ r, Draws V F (next r)) : Draws V F (.fetch c f next)
  | write {F : Session → Prop} {c : Credential} {wr : Write} {next : Except ConsoleError Unit → Program α}
      (hc : CredentialOf F c) (hnext : ∀ r, Draws V F (next r)) : Draws V F (.write c wr next)

theorem Draws.bind {V : (Session → Prop) → α → Prop} {W : (Session → Prop) → β → Prop} {F : Session → Prop}
    {p : Program α} {k : α → Program β} (hp : p.Draws V F)
    (hk : ∀ a G, (∀ s, F s → G s) → V G a → (k a).Draws W G) : (p.bind k).Draws W F := by
  induction hp with
  | done ha => exact hk _ _ (fun _ hs => hs) ha
  | access _ ih => exact .access fun s => ih s fun a G hG => hk a G fun s' hs' => hG s' (.inl hs')
  | fetch hc _ ih => exact .fetch hc fun r => ih r hk
  | write hc _ ih => exact .write hc fun r => ih r hk

theorem Draws.imp {V W : (Session → Prop) → α → Prop} {F : Session → Prop} {p : Program α} (hp : p.Draws V F)
    (h : ∀ G a, (∀ s, F s → G s) → V G a → W G a) : p.Draws W F := by
  induction hp with
  | done ha => exact .done (h _ _ (fun _ hs => hs) ha)
  | access _ ih => exact .access fun s => ih s fun G a hG => h G a fun s' hs' => hG s' (.inl hs')
  | fetch hc _ ih => exact .fetch hc fun r => ih r h
  | write hc _ ih => exact .write hc fun r => ih r h

/-- What is said of the sessions found stays true of more of them. -/
def Grows (V : (Session → Prop) → α → Prop) : Prop := ∀ F G a, (∀ s, F s → G s) → V F a → V G a

theorem Draws.mono {V : (Session → Prop) → α → Prop} (hV : Grows V) {F G : Session → Prop} {p : Program α}
    (hp : p.Draws V F) (hFG : ∀ s, F s → G s) : p.Draws V G := by
  induction hp generalizing G with
  | done ha => exact .done (hV _ _ _ hFG ha)
  | access _ ih => exact .access fun s => ih s fun s' hs' => hs'.imp_left (hFG s')
  | fetch hc _ ih => exact .fetch (hc.mono hFG) fun r => ih r hFG
  | write hc _ ih => exact .write (hc.mono hFG) fun r => ih r hFG

end Program

namespace Operation

open Program (Draws)

variable {F : Session → Prop}

def OfValue (V : (Session → Prop) → α → Prop) (F : Session → Prop) : Except ConsoleError α → Prop
  | .ok a => V F a
  | .error _ => True

def Anything (_ : Session → Prop) (_ : α) : Prop := True

theorem draws_bind {V : (Session → Prop) → α → Prop} {W : (Session → Prop) → β → Prop} {m : Operation α}
    {k : α → Operation β} (hm : m.run.Draws (OfValue V) F)
    (hk : ∀ a G, (∀ s, F s → G s) → V G a → (k a).run.Draws (OfValue W) G) : (m >>= k).run.Draws (OfValue W) F := by
  refine Draws.bind (p := m.run) (k := ExceptT.bindCont k) hm fun r G hG hr => ?_
  cases r with
  | ok a => exact hk a G hG hr
  | error e => exact .done trivial

theorem draws_session : session.run.Draws (OfValue fun F s => F s) F := .access fun _ => .done (.inr rfl)

theorem draws_credential : credential.run.Draws (OfValue CredentialOf) F := by
  refine draws_bind draws_session fun s G _ hs => ?_
  cases hc : s.credential with
  | some c => exact .done ⟨s, hs, hc⟩
  | none => exact .done trivial

theorem draws_modify (change : Session → Session) : (modify change).run.Draws (OfValue Anything) F :=
  .access fun _ => .done trivial

theorem draws_observed (r : Except ConsoleError α) : (observed r).run.Draws (OfValue Anything) F := by
  refine .access fun _ => .done ?_
  cases r <;> trivial

theorem draws_fetch {c : Credential} (hc : CredentialOf F c) (f : Fetch) :
    (fetch c f).run.Draws (OfValue Anything) F := .fetch hc draws_observed

theorem draws_write {c : Credential} (hc : CredentialOf F c) (wr : Write) :
    (write c wr).run.Draws (OfValue Anything) F := .write hc draws_observed

theorem draws_fetch_then {c : Credential} (hc : CredentialOf F c) (f : Fetch) {k : f.Answer → Operation β}
    {W : (Session → Prop) → β → Prop} (hk : ∀ a G, CredentialOf G c → (k a).run.Draws (OfValue W) G) :
    (fetch c f >>= k).run.Draws (OfValue W) F :=
  draws_bind (draws_fetch hc f) fun a G hG _ => hk a G (hc.mono hG)

end Operation

open Operation in
theorem refresh_draws (F : Session → Prop) : refresh.run.Draws (OfValue Anything) F :=
  draws_bind draws_credential fun _ _ _ hc =>
  draws_fetch_then hc .filter fun _ _ hc =>
  draws_fetch_then hc .cache fun _ _ hc =>
  draws_fetch_then hc .queryLog fun _ _ hc =>
  draws_fetch_then hc .allowList fun _ _ hc =>
  draws_fetch_then hc .overrides fun _ _ hc =>
  draws_fetch_then hc .autoUpdate fun _ _ _ =>
  draws_bind draws_session fun _ _ _ _ =>
  draws_bind (draws_modify _) fun _ _ _ _ => .done trivial

open Operation in
theorem Command.draws (command : Command) (F : Session → Prop) : command.run.run.Draws (OfValue Anything) F := by
  refine draws_bind (V := Anything) ?_ fun wr _ _ _ => draws_bind draws_credential fun c G _ hc =>
    draws_bind (draws_write hc wr) fun _ G _ _ => refresh_draws G
  refine .done ?_
  cases command.write <;> trivial

namespace Watch

open Program (Draws)
open Operation (OfValue Anything)

/-- A watch that goes on keeps `seen` to compare with; one that is successful has come to another filter. -/
def Phase.Compares (seen : Option Timestamp) : Phase → Prop
  | .waiting x => x.seen = seen
  | .finished (.ok o) => some o.view.filterCreatedAt ≠ seen
  | .finished (.error _) => True

variable {V : (Session → Prop) → Phase → Prop} {F : Session → Prop}

theorem draws_close {r : Except ConsoleError UpdateOutcome} (h : ∀ G, V G (.finished r)) : (close r).Draws V F :=
  .access fun _ => .done (h _)

theorem draws_orClose {U : (Session → Prop) → α → Prop} {m : Operation α} {next : α → Program Phase}
    (herror : ∀ G e, V G (.finished (.error e))) (hm : m.run.Draws (OfValue U) F)
    (hnext : ∀ a G, (∀ s, F s → G s) → U G a → (next a).Draws V G) : (orClose m next).Draws V F := by
  refine hm.bind fun r G hG hr => ?_
  cases r with
  | ok a => exact hnext a G hG hr
  | error e => exact draws_close fun G => herror G e

theorem draws_settle (limit : Option UInt32) (x : Waiting) (view : View) :
    (settle limit x view).Draws (fun _ => Phase.Compares x.seen) F := by
  unfold settle
  split
  · next h => exact draws_close fun _ => h
  · split
    · exact draws_close fun _ => trivial
    · exact .done rfl

theorem draws_poll (limit : Option UInt32) (x : Waiting) (F : Session → Prop) :
    (poll limit x).Draws (fun _ => Phase.Compares x.seen) F :=
  .access fun _ => draws_orClose (fun _ _ => trivial) (refresh_draws _) fun view _ _ _ =>
    draws_settle limit { x with polls := x.polls + 1 } view

theorem draws_request (limit : Option UInt32) (seen : Option Timestamp) (F : Session → Prop) :
    (request limit seen).Draws (fun _ => Phase.Compares seen) F := by
  have hcommand : (do Operation.write (← Operation.credential) .rebuild : Operation Unit).run.Draws
      (OfValue Anything) F :=
    Operation.draws_bind Operation.draws_credential fun c G _ hc => Operation.draws_write hc .rebuild
  exact draws_orClose (fun _ _ => trivial) hcommand fun _ G _ _ =>
    draws_orClose (fun _ _ => trivial) (refresh_draws G) fun view _ _ _ =>
      .access fun _ => draws_settle limit ⟨seen, 0⟩ view

/-- A watch compares with the age of a filter that it has found in the session. -/
theorem draws_start (limit : Option UInt32) (cancelled : Bool) (F : Session → Prop) :
    (start limit cancelled).Draws (fun G phase => ∃ s, G s ∧ phase.Compares s.seen) F := by
  refine .access fun before => ?_
  split
  · exact .done ⟨before, .inr rfl, trivial⟩
  · split
    · exact .access fun s => .done ⟨s, .inr rfl, trivial⟩
    · exact .access fun s => (draws_request limit s.seen _).imp fun G phase hG h => ⟨s, hG s (.inr rfl), h⟩

end Watch

def Upshot.Compares (seen : Option Timestamp) : Upshot × List Holder → Prop
  | (.waits, .watch _ x _ :: _) => x.seen = seen
  | (.watched o, _) => some o.view.filterCreatedAt ≠ seen
  | _ => True

namespace Deed

open Program (Draws)
open Operation (Anything)

theorem compares_ofPhase {limit : Option UInt32} {waits : Nat} {others : List Holder} {seen : Option Timestamp}
    {phase : Watch.Phase} (h : phase.Compares seen) :
    Upshot.Compares seen (Upshot.ofPhase limit waits others phase) := by
  cases phase with
  | waiting x => exact h
  | finished r =>
    cases r with
    | ok o => exact h
    | error e => trivial

def EndsWith (holders : List Holder) : Deed → (Session → Prop) → Upshot × List Holder → Prop
  | .watch _ _, F, a => ∃ s, F s ∧ Upshot.Compares s.seen a
  | .wake i _, _, a => ∀ limit x waits, holders[i]? = some (.watch limit x waits) → Upshot.Compares x.seen a
  | _, _, _ => True

theorem draws (holders : List Holder) (d : Deed) (F : Session → Prop) :
    (d.program holders).Draws (d.EndsWith holders) F := by
  cases d with
  | refresh => exact (refresh_draws F).bind fun r G _ _ => .done trivial
  | command c => exact (c.draws F).bind fun r G _ _ => .done trivial
  | watch limit cancelled =>
    refine (Watch.draws_start limit cancelled F).bind fun phase G _ h => .done ?_
    obtain ⟨s, hs, h⟩ := h
    exact ⟨s, hs, compares_ofPhase h⟩
  | wake i how =>
    rw [program]
    split
    · next limit x waits hi =>
      have hends : ∀ a G, Upshot.Compares x.seen a → (wake i how).EndsWith holders G a := by
        intro a G h _ _ _ hi'
        cases hi.symm.trans hi'
        exact h
      cases how with
      | elapsed =>
        exact (Watch.draws_poll limit x F).bind fun phase G _ h => .done (hends _ _ (compares_ofPhase h))
      | cancelled =>
        have hcancel : Watch.cancel.Draws (fun _ => Watch.Phase.Compares x.seen) F := Watch.draws_close fun _ => trivial
        exact hcancel.bind fun phase G _ h => .done (hends _ _ (compares_ofPhase h))
    · next hother => exact .done fun limit x waits hi => absurd hi (hother limit x waits)
  | setUpdate i u =>
    rw [program]
    split
    · exact .access fun _ => .done trivial
    · exact .done trivial
  | release i =>
    rw [program]
    split
    · exact .access fun _ => .done trivial
    · exact .done trivial
  | _ => exact .access fun _ => .done trivial

theorem grows_endsWith (holders : List Holder) (d : Deed) : Program.Grows (d.EndsWith holders) := by
  intro F G a hFG h
  cases d with
  | watch limit cancelled =>
    obtain ⟨s, hs, h⟩ := h
    exact ⟨s, hFG s hs, h⟩
  | _ => exact h

end Deed

namespace Course

variable [DecidableEq ι] {x : Course ι σ δ α} {i : ι}

/-- At every turn an operation draws on what it has found at its turns before. -/
theorem draws {V : (Session → Prop) → α → Prop} (hV : Program.Grows V)
    (h : (x.start.left i).Draws V fun _ => False) (n : ℕ) : (x.left n i).Draws V (x.Found i n) := by
  -- What has been found grows from turn to turn, and only an access adds to it.
  refine left_induction (P := fun n p => p.Draws V (x.Found i n)) (h.mono hV nofun) (fun n p hturn _ hp => ?_)
    (fun n p _ _ hp => ?_) n
  · cases hp with
    | done ha => exact .done (hV _ _ _ (fun _ => Found.succ) ha)
    | access hnext =>
      refine (hnext (x.session n)).mono hV fun s hs => ?_
      obtain hs | rfl := hs
      · exact hs.succ
      · exact ⟨n, n.lt_succ_self, hturn, rfl⟩
    | fetch hc hnext => exact (hnext _).mono hV fun _ => Found.succ
    | write hc hnext => exact (hnext _).mono hV fun _ => Found.succ
  · exact hp.mono hV fun _ => Found.succ

end Course

end FilterConsole
