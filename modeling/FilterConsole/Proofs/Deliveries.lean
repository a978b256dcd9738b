import FilterConsole.Proofs.HttpContract
import FilterConsole.Proofs.Refresh
import Mathlib.Data.List.Forall2

/-! What is delivered for calls that are made one after the other until one of them fails. -/

namespace FilterConsole.Http

variable {σ : Type}

def Accepted : Call → Reply → Prop
  | .fetch f, reply => ∃ a, readReply f reply = .ok a
  | .write wr, reply => writeReply wr reply = .ok ()

def Completes (client : Client) (c : Credential) : List Call → List Delivery → Prop :=
  List.Forall₂ fun call d => client.request? c call = some d.1 ∧ Accepted call d.2

/-- The deliveries of calls in their order. Nothing is delivered from the first call on that cannot be sent, nor after the
first whose reply is not accepted. -/
inductive Carries (client : Client) (c : Credential) : List Call → List Delivery → Prop
  | nil : Carries client c [] []
  | unsent {call : Call} {calls : List Call} (h : client.request? c call = none) : Carries client c (call :: calls) []
  | refused {call : Call} {calls : List Call} {d : Delivery} (h : client.request? c call = some d.1)
      (hreply : ¬ Accepted call d.2) : Carries client c (call :: calls) [d]
  | accepted {call : Call} {calls : List Call} {d : Delivery} {ds : List Delivery}
      (h : client.request? c call = some d.1) (hreply : Accepted call d.2) (hrest : Carries client c calls ds) :
      Carries client c (call :: calls) (d :: ds)

section Carries

variable {client : Client} {c : Credential} {calls calls' : List Call} {ds ds' : List Delivery}

theorem Completes.append_carries (h : Completes client c calls ds) (h' : Carries client c calls' ds') :
    Carries client c (calls ++ calls') (ds ++ ds') := by
  induction h with
  | nil => exact h'
  | cons hd _ ih => exact .accepted hd.1 hd.2 ih

theorem Completes.append (h : Completes client c calls ds) (h' : Completes client c calls' ds') :
    Completes client c (calls ++ calls') (ds ++ ds') := List.rel_append h h'

theorem Completes.length (h : Completes client c calls ds) : ds.length = calls.length := (List.Forall₂.length_eq h).symm

theorem Completes.accepted_last {call : Call} (h : Completes client c (calls ++ [call]) ds) :
    ∃ d, ds[calls.length]? = some d ∧ Accepted call d.2 := by
  induction calls generalizing ds with
  | nil =>
    cases h with
    | cons hd _ => exact ⟨_, rfl, hd.2⟩
  | cons _ calls ih =>
    cases h with
    | cons _ hrest => exact ih hrest

theorem Carries.length_le (h : Carries client c calls ds) : ds.length ≤ calls.length := by
  induction h with
  | nil => exact Nat.le_refl _
  | unsent => exact Nat.zero_le _
  | refused => simp
  | accepted _ _ _ ih => exact Nat.succ_le_succ ih

/-- Where a call is not accepted, it does not matter what was to be called after it. -/
theorem Carries.append_of_not_completes (h : Carries client c calls ds) (hnot : ¬ Completes client c calls ds) :
    Carries client c (calls ++ calls') ds := by
  induction h with
  | nil => exact absurd .nil hnot
  | unsent h => exact .unsent h
  | refused h hreply => exact .refused h hreply
  | accepted h hreply _ ih => exact .accepted h hreply (ih fun hrest => hnot (.cons ⟨h, hreply⟩ hrest))

/-- Before a call is delivered all those before it have been accepted. -/
theorem Carries.completes_take (h : Carries client c (calls ++ calls') ds) (hlength : calls.length < ds.length) :
    Completes client c calls (ds.take calls.length) := by
  induction calls generalizing ds with
  | nil => exact .nil
  | cons call calls ih =>
    cases h with
    | unsent => exact absurd hlength (Nat.not_lt_zero _)
    | refused => simp at hlength
    | accepted h hreply hrest => exact .cons ⟨h, hreply⟩ (ih hrest (Nat.lt_of_succ_lt_succ hlength))

/-- The requests go with the methods of the first calls to their addresses. -/
theorem Carries.requests_prefix (h : Carries client c calls ds) :
    (ds.map fun d => (d.1.method, some d.1.url)) <+: calls.map fun call =>
      (call.payload.1, Url.parse? (address client.baseUrl client.pathPrefix call.endpoint.name)) := by
  induction h with
  | nil => exact List.prefix_rfl
  | unsent => exact List.nil_prefix
  | refused h =>
    have hrequest := request?_eq_some_iff.mp h
    simp [hrequest.url, hrequest.method]
  | accepted h _ _ ih =>
    have hrequest := request?_eq_some_iff.mp h
    rw [List.map_cons, List.map_cons, hrequest.url, hrequest.method]
    exact (List.prefix_cons_inj _).mpr ih

end Carries

section Deliver

variable (network : Network σ) (count : σ → Nat) {c : Credential}

/-- A read without a request fails; another one is delivered and answers what its reply does. -/
theorem fetch_delivers (client : Client) (c : Credential) (f : Fetch) (s : σ)
    (kept : List Delivery) :
    (client.request? c (.fetch f) = none ∧
      ∃ e, (client.backend network.keeping).fetch c f (s, kept) = (.error e, s, kept)) ∨
    ∃ d : Delivery, client.request? c (.fetch f) = some d.1 ∧
      (client.backend network.keeping).fetch c f (s, kept) = (readReply f d.2, (network d.1 s).2, d :: kept) := by
  rw [Client.fetch_eq]
  cases h : client.request? c (.fetch f) with
  | none => exact .inl ⟨rfl, _, rfl⟩
  | some r => exact .inr ⟨(r, (network r s).1), rfl, rfl⟩

/-- The same of a write. -/
theorem write_delivers (client : Client) (c : Credential) (wr : Write) (x : σ × List Delivery) :
    (client.request? c (.write wr) = none ∧ ∃ e, (client.backend network.keeping).write c wr x = (.error e, x)) ∨
    ∃ d : Delivery, client.request? c (.write wr) = some d.1 ∧
      (client.backend network.keeping).write c wr x = (writeReply wr d.2, (network d.1 x.1).2, d :: x.2) := by
  rw [Client.write_eq]
  cases h : client.request? c (.write wr) with
  | none => exact .inl ⟨rfl, _, rfl⟩
  | some r => exact .inr ⟨(r, (network r x.1).1), rfl, rfl⟩

/-- Reads one after the other deliver in their order, until one of them fails. What the network counts otherwise stays as
it is. -/
theorem read_delivers (hcount : ∀ r s, count (network r s).2 = count s) (client : Client) (c : Credential)
    (fs : List Fetch) (s : σ) (kept : List Delivery) :
    let x := (client.backend network.keeping).read c fs (s, kept)
    ∃ ds, x.service.2 = ds.reverse ++ kept ∧ count x.service.1 = count s ∧ Carries client c (fs.map .fetch) ds ∧
      (x.failure = none ↔ Completes client c (fs.map .fetch) ds) ∧
      ∀ f ∈ fs.head?, ∀ d ∈ ds.head?, ((client.backend network.keeping).fetch c f (s, kept)).1 = readReply f d.2 := by
  induction fs generalizing s kept with
  | nil => exact ⟨[], rfl, rfl, .nil, iff_of_true rfl .nil, nofun⟩
  | cons f fs ih =>
    obtain ⟨hrequest, e, hfetch⟩ | ⟨d, hrequest, hfetch⟩ := fetch_delivers network client c f s kept
    · rw [Backend.read_cons_error hfetch]
      refine ⟨[], rfl, rfl, .unsent hrequest, iff_of_false nofun nofun, fun g hg d hd => ?_⟩
      cases hd
    · have hhead : ∀ ds : List Delivery, ∀ g ∈ (f :: fs).head?, ∀ d' ∈ (d :: ds).head?,
          ((client.backend network.keeping).fetch c g (s, kept)).1 = readReply g d'.2 := by
        intro ds g hg d' hd'
        cases hg
        cases hd'
        rw [hfetch]
      cases hreply : readReply f d.2 with
      | error e =>
        rw [hreply] at hfetch
        have hnot : ¬ Accepted (.fetch f) d.2 := fun ⟨a, ha⟩ => by
          rw [hreply] at ha
          cases ha
        rw [Backend.read_cons_error hfetch]
        refine ⟨[d], rfl, hcount d.1 s, .refused hrequest hnot, iff_of_false nofun ?_, hhead []⟩
        rintro (_ | ⟨hd, _⟩)
        exact hnot hd.2
      | ok a =>
        rw [hreply] at hfetch
        have haccepted : Accepted (.fetch f) d.2 := ⟨a, hreply⟩
        obtain ⟨ds, hkept, hcounted, hcarries, hfailure, _⟩ := ih (network d.1 s).2 (d :: kept)
        rw [Backend.read_cons_ok hfetch]
        refine ⟨d :: ds, ?_, hcounted.trans (hcount d.1 s), .accepted hrequest haccepted hcarries, ?_, hhead ds⟩
        · rw [List.reverse_cons, List.append_assoc]
          exact hkept
        · refine hfailure.trans ⟨fun h => .cons ⟨hrequest, haccepted⟩ h, ?_⟩
          rintro (_ | ⟨_, h⟩)
          exact h

def sections : List Call := Fetch.inOrder.map .fetch

/-- A refresh that succeeds has all its reads delivered and accepted, and shows the age of the filter that the first of
them brings; one that fails has not. -/
theorem refresh_delivers (hcount : ∀ r s, count (network r s).2 = count s) (client : Client)
    {w : World (σ × List Delivery)} (hc : w.session.credential = some c) :
    let look := refresh.run.run (client.backend network.keeping) w
    ∃ ds, look.2.service.2 = ds.reverse ++ w.service.2 ∧ count look.2.service.1 = count w.service.1 ∧
      Carries client c sections ds ∧
      match look.1 with
      | .error _ => ¬ Completes client c sections ds
      | .ok view => Completes client c sections ds ∧ look.2.session = w.session.see view.filterCreatedAt ∧
          ∃ d filter, ds.head? = some d ∧ readReply .filter d.2 = .ok filter ∧
            view.filterCreatedAt = filter.createdAt := by
  obtain ⟨session, ⟨s, kept⟩, log⟩ := w
  obtain ⟨ds, hkept, hcounted, hcarries, hfailure, hhead⟩ := read_delivers network count hcount client c Fetch.inOrder s kept
  obtain ⟨e, hx, hrun⟩ | ⟨hx, filter, view, hfilter, hview, hrun⟩ :=
    (refresh_with_credential (client.backend network.keeping) hc).1
  · dsimp only at hx hrun ⊢
    rw [hrun]
    dsimp only
    refine ⟨ds, hkept, hcounted, hcarries, fun h => ?_⟩
    rw [hfailure.mpr h] at hx
    cases hx
  · dsimp only at hx hrun hfilter ⊢
    have hcompletes : Completes client c sections ds := hfailure.mp hx
    rw [hrun]
    dsimp only
    refine ⟨ds, hkept, hcounted, hcarries, hcompletes, ?_, ?_⟩
    · rw [hview]
    · cases ds with
      | nil => cases hcompletes
      | cons d ds =>
        have hreply := hhead .filter rfl d rfl
        rw [hfilter] at hreply
        exact ⟨d, filter, rfl, hreply.symm, hview⟩

end Deliver

end FilterConsole.Http
