import FilterConsole.Proofs.Command
import FilterConsole.Proofs.Scene

/-! What a program has by the way it is put together. Operations, watches and deeds are made of a few parts; a property
that these have, and that programs one after the other keep, holds of them all. -/

namespace FilterConsole

variable {α β : Type}

/-- A property that a program has if its parts have it. The parts are the changes of the session that leave alone the
credential and the age that was seen, and the writes that `W` allows. -/
structure Program.Compositional (P : ∀ α : Type, Program α → Prop) (W : Write → Prop) : Prop where
  done : ∀ {α : Type} (a : α), P α (.done a)
  bind : ∀ {α β : Type} {p : Program α} {k : α → Program β}, P α p → (∀ a, P β (k a)) → P β (p.bind k)
  access : ∀ {α : Type} {change : Session → Session} {next : Session → Program α},
    (∀ s, (change s).credential = s.credential) → (∀ s, (change s).seen = s.seen) → (∀ s, P α (next s)) →
      P α (.access change next)
  write : ∀ (c : Credential) {wr : Write}, W wr → P _ (Operation.write c wr).run

def Deed.Plain : Deed → Prop
  | login _ | logout | see _ | observe _ => False
  | _ => True

namespace Program.Compositional

variable {P : ∀ α : Type, Program α → Prop} {W : Write → Prop} (h : Compositional P W)

include h

theorem operation_bind {m : Operation α} {k : α → Operation β} (hm : P _ m.run) (hk : ∀ a, P _ (k a).run) :
    P _ (m >>= k).run := by
  refine h.bind (p := m.run) (k := ExceptT.bindCont k) hm fun r => ?_
  cases r with
  | ok a => exact hk a
  | error e => exact h.done _

theorem session : P _ Operation.session.run := h.access (fun _ => rfl) (fun _ => rfl) fun _ => h.done _

theorem credential : P _ Operation.credential.run := by
  refine h.operation_bind h.session fun s => ?_
  cases s.credential with
  | some c => exact h.done _
  | none => exact h.done _

theorem refresh (hfetch : ∀ c f, P _ (Operation.fetch c f).run)
    (hsee : ∀ createdAt, P _ (Operation.modify (·.see createdAt)).run) : P _ FilterConsole.refresh.run :=
  h.operation_bind h.credential fun c =>
  h.operation_bind (hfetch c .filter) fun _ =>
  h.operation_bind (hfetch c .cache) fun _ =>
  h.operation_bind (hfetch c .queryLog) fun _ =>
  h.operation_bind (hfetch c .allowList) fun _ =>
  h.operation_bind (hfetch c .overrides) fun _ =>
  h.operation_bind (hfetch c .autoUpdate) fun _ =>
  h.operation_bind h.session fun _ =>
  h.operation_bind (hsee _) fun _ => h.done _

theorem close (r : Except ConsoleError UpdateOutcome) : P _ (Watch.close r) :=
  h.access (fun _ => rfl) (fun _ => rfl) fun _ => h.done _

theorem orClose {m : Operation α} {next : α → Program Watch.Phase} (hm : P _ m.run) (hnext : ∀ a, P _ (next a)) :
    P _ (Watch.orClose m next) := by
  refine h.bind hm fun r => ?_
  cases r with
  | ok a => exact hnext a
  | error e => exact h.close _

theorem settle (limit : Option UInt32) (x : Watch.Waiting) (view : View) : P _ (Watch.settle limit x view) := by
  unfold Watch.settle
  split
  · exact h.close _
  · split
    · exact h.close _
    · exact h.done _

section Refresh

variable (hrefresh : P _ FilterConsole.refresh.run)

include hrefresh

theorem command {command : Command} (hwrite : ∀ wr, command.write = .ok wr → W wr) : P _ command.run.run := by
  cases hc : command.write with
  | error e =>
    rw [Command.run_of_error hc]
    exact h.done _
  | ok wr =>
    rw [Command.run_of_ok hc]
    exact h.operation_bind h.credential fun c => h.operation_bind (h.write c (hwrite wr hc)) fun _ => hrefresh

theorem poll (limit : Option UInt32) (x : Watch.Waiting) : P _ (Watch.poll limit x) :=
  h.access (fun _ => rfl) (fun _ => rfl) fun _ => h.orClose hrefresh (h.settle limit _)

theorem request (hrebuild : W .rebuild) (limit : Option UInt32) (seen : Option Timestamp) :
    P _ (Watch.request limit seen) := by
  refine h.orClose ?_ fun _ => h.orClose hrefresh fun view =>
    h.access (fun _ => rfl) (fun _ => rfl) fun _ => h.settle limit _ view
  exact h.operation_bind h.credential fun c => h.write c hrebuild

theorem start (hrebuild : W .rebuild) (limit : Option UInt32) (cancelled : Bool) :
    P _ (Watch.start limit cancelled) := by
  refine h.access Session.claim_credential Session.claim_seen fun before => ?_
  split
  · exact h.done _
  · split
    · exact h.close _
    · exact h.access (fun _ => rfl) (fun _ => rfl) fun s => h.request hrefresh hrebuild limit s.seen

theorem deed (hrebuild : W .rebuild) (holders : List Holder) {d : Deed} (hplain : d.Plain)
    (hcommand : ∀ command, d = .command command → ∀ wr, command.write = .ok wr → W wr) :
    P _ (d.program holders) := by
  have hdone : ∀ r : Upshot × List Holder, P _ (.done r) := h.done
  cases d with
  | login c => exact hplain.elim
  | logout => exact hplain.elim
  | see createdAt => exact hplain.elim
  | observe r => exact hplain.elim
  | refresh => exact h.bind hrefresh fun _ => hdone _
  | command c => exact h.bind (h.command hrefresh (hcommand c rfl)) fun _ => hdone _
  | resort view field => exact h.access (fun _ => rfl) (fun _ => rfl) fun _ => hdone _
  | toggle field => exact h.access (fun _ => rfl) (fun _ => rfl) fun _ => hdone _
  | setOrder order => exact h.access (fun _ => rfl) (fun _ => rfl) fun _ => hdone _
  | claim => exact h.access Session.claim_credential Session.claim_seen fun _ => hdone _
  | setUpdate i u =>
    rw [Deed.program]
    split
    · exact h.access (fun _ => rfl) (fun _ => rfl) fun _ => hdone _
    · exact hdone _
  | release i =>
    rw [Deed.program]
    split
    · exact h.access (fun _ => rfl) (fun _ => rfl) fun _ => hdone _
    · exact hdone _
  | watch limit cancelled => exact h.bind (h.start hrefresh hrebuild limit cancelled) fun _ => hdone _
  | wake i how =>
    rw [Deed.program]
    split
    · cases how with
      | elapsed => exact h.bind (h.poll hrefresh _ _) fun _ => hdone _
      | cancelled => exact h.bind (h.close _) fun _ => hdone _
    · exact hdone _

end Refresh

end Program.Compositional

end FilterConsole
