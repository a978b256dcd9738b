import FilterConsole.Proofs.Lifecycle
import FilterConsole.Proofs.Provenance

/-! Rejections that come late. The session does not know which credential a call has presented, so a rejection drops
the one that is stored by then, also if somebody has logged in with another one meanwhile. -/

namespace FilterConsole

variable {ι σ δ α : Type}

def Program.reply? (b : Backend σ) (w : World σ) : Program α → Option Reply
  | fetch c f _ => some ⟨c, .fetch f, failure? (b.fetch c f w.service).1⟩
  | write c wr _ => some ⟨c, .write wr, failure? (b.write c wr w.service).1⟩
  | _ => none

theorem observe_of_failure {r : Except ConsoleError α} (h : failure? r = some .unauthorized) (s : Session) :
    s.observe r = s.logout := by
  cases r with
  | ok a => cases h
  | error e =>
    cases h
    rfl

namespace Course

variable [DecidableEq ι] (x : Course ι σ δ α)

def Calls (i : ι) (n : ℕ) (reply : Reply) : Prop :=
  x.turns n = .effect i ∧ (x.left n i).reply? x.service.toBackend (x.world n) = some reply

def Rejects (i : ι) (n : ℕ) (c : Credential) : Prop := ∃ call, x.Calls i n ⟨c, call, some .unauthorized⟩

/-- What an operation does next leaves the credential alone, or the session observes the answer to the operation's last
call. -/
inductive Hearing (i : ι) (n : ℕ) : Program α → Prop
  | observes {p : Program α} (h : p.Observes) : Hearing i n p
  | answered {β : Type} {r : Except ConsoleError β} {next : Session → Program α} {k : ℕ} {reply : Reply}
      (hlt : k < n) (hrests : x.Rests i k n) (hcalls : x.Calls i k reply) (hr : reply.failure = failure? r)
      (hnext : ∀ s, (next s).Observes) : Hearing i n (.access (·.observe r) next)

variable {x} {i : ι} {c : Credential} {k n m : ℕ}

theorem hearing (h : (x.start.left i).Observes) (n : ℕ) : x.Hearing i n (x.left n i) := by
  refine left_induction (P := fun n p => x.Hearing i n p) (.observes h) (fun n p hturn hleft hp => ?_)
    (fun n p hturn _ hp => ?_) n
  · cases hp with
    | answered _ _ _ _ hnext => exact .observes (hnext _)
    | observes h =>
      cases h with
      | done a => exact .observes (.done a)
      | access _ hnext => exact .observes (hnext _)
      | fetch hnext => exact .answered n.lt_succ_self .refl ⟨hturn, by rw [hleft]; rfl⟩ rfl (hnext _)
      | write hnext => exact .answered n.lt_succ_self .refl ⟨hturn, by rw [hleft]; rfl⟩ rfl (hnext _)
  · cases hp with
    | observes h => exact .observes h
    | answered hlt hrests hcalls hr hnext =>
      exact .answered (Nat.lt_succ_of_lt hlt) (hrests.succ hturn) hcalls hr hnext

/-- An operation whose answers are observed either keeps the credential, or it drops it as its last call was
rejected. -/
theorem credential_of_effect (h : (x.start.left i).Observes) (hturn : x.turns n = .effect i) :
    (x.session (n + 1)).credential = (x.session n).credential ∨
      (x.session (n + 1)).credential = none ∧ ∃ k c, x.Rejects i k c ∧ x.Next i k n := by
  have hhearing := hearing h n
  have hsession : x.session (n + 1) = ((x.left n i).step x.service.toBackend (x.world n)).2.session := by
    rw [session, world_succ hturn]
  rw [hsession]
  generalize x.left n i = p at hhearing
  cases hhearing with
  | observes h =>
    cases h with
    | access hkeeps _ => exact .inl (hkeeps _)
    | _ => exact .inl rfl
  | @answered β r next k reply hlt hrests hcalls hr hnext =>
    obtain hkept | ⟨hnone, hfailure⟩ := Program.observe_credential (x.session n) r
    · exact .inl hkept
    · obtain ⟨credential, call, failure⟩ := reply
      obtain rfl : failure = some .unauthorized := hr.trans hfailure
      exact .inr ⟨hnone, k, credential, ⟨call, hcalls⟩, hlt, hrests, hturn⟩

theorem session_of_rejects (h : (x.start.left i).Observes) (hrejects : x.Rejects i k c) (hnext : x.Next i k m) :
    x.session (m + 1) = (x.session m).logout := by
  obtain ⟨call, hturn, hreply⟩ := hrejects
  have hleft := left_succ hturn
  rw [← left_of_rests hnext.rests hnext.lt] at hleft
  have hhearing := hearing h k
  generalize x.left k i = p at hhearing hreply hleft
  -- Only a call is rejected, and after a call the operation has nothing but the observation before it.
  cases hhearing with
  | answered => cases hreply
  | observes h =>
    cases h with
    | done a => cases hreply
    | access => cases hreply
    | fetch hobserved =>
      rw [session_of_access hnext.turn hleft]
      exact observe_of_failure (congrArg Reply.failure (Option.some.inj hreply)) _
    | write hobserved =>
      rw [session_of_access hnext.turn hleft]
      exact observe_of_failure (congrArg Reply.failure (Option.some.inj hreply)) _

/-- An operation presents a credential that it has found stored at a turn before. -/
theorem found_of_calls {V : (Session → Prop) → α → Prop} (hV : Program.Grows V)
    (hdraws : (x.start.left i).Draws V fun _ => False) {reply : Reply} (h : x.Calls i n reply) :
    ∃ k < n, x.turns k = .effect i ∧ (x.session k).credential = some reply.credential := by
  obtain ⟨_, hreply⟩ := h
  have hleft := draws hV hdraws n
  generalize x.left n i = p at hreply hleft
  cases hleft with
  | done => cases hreply
  | access => cases hreply
  | fetch hc =>
    cases hreply
    obtain ⟨_, ⟨k, hk, hturn, rfl⟩, hc⟩ := hc
    exact ⟨k, hk, hturn, hc⟩
  | write hc =>
    cases hreply
    obtain ⟨_, ⟨k, hk, hturn, rfl⟩, hc⟩ := hc
    exact ⟨k, hk, hturn, hc⟩

/-- An operation of a single effect has it still before it, or is done. -/
theorem left_of_once {change : Session → Session} {f : Session → α}
    (h : x.start.left i = .access change fun s => .done (f s)) (n : ℕ) :
    x.left n i = .access change (fun s => .done (f s)) ∨ ∃ a, x.left n i = .done a := by
  refine left_induction (P := fun n p => p = .access change (fun s => .done (f s)) ∨ ∃ a, p = .done a) (.inl h)
    (fun n p _ _ hp => ?_) (fun n p _ _ hp => hp) n
  obtain rfl | ⟨a, rfl⟩ := hp
  · exact .inr ⟨_, rfl⟩
  · exact .inr ⟨a, rfl⟩

theorem session_of_once {change : Session → Session} {f : Session → α}
    (h : x.start.left i = .access change fun s => .done (f s)) (hturn : x.turns n = .effect i) :
    x.session (n + 1) = change (x.session n) ∨ x.session (n + 1) = x.session n := by
  obtain hleft | ⟨a, hleft⟩ := left_of_once h n
  · exact .inl (session_of_access hturn hleft)
  · rw [session, world_succ hturn, hleft]
    exact .inr rfl

theorem not_calls_of_once {change : Session → Session} {f : Session → α}
    (h : x.start.left i = .access change fun s => .done (f s)) (reply : Reply) : ¬ x.Calls i n reply := by
  rintro ⟨_, hreply⟩
  obtain hleft | ⟨a, hleft⟩ := left_of_once h n
  · rw [hleft] at hreply
    cases hreply
  · rw [hleft] at hreply
    cases hreply

end Course

/-- What is so at last, and was not so at first, has come about at some time between. -/
theorem exists_first {P : ℕ → Prop} {l m : ℕ} (hlm : l ≤ m) (hl : ¬ P l) (hm : P m) :
    ∃ j, l ≤ j ∧ j < m ∧ ¬ P j ∧ P (j + 1) := by
  induction m, hlm using Nat.le_induction with
  | base => exact absurd hm hl
  | succ m hlm ih =>
    by_cases h : P m
    · obtain ⟨j, hlj, hj, hj'⟩ := ih h
      exact ⟨j, hlj, Nat.lt_succ_of_lt hj, hj'⟩
    · exact ⟨m, hlm, m.lt_succ_self, h, hm⟩

namespace Course

variable [DecidableEq ι] (service : Service σ δ) (world : World σ) (deeds : ι → Deed) (holders : ι → List Holder)
  (turns : ℕ → Turn ι δ)

/-- Whoever makes a call lets the session observe the answer. -/
theorem observes_of_calls {i : ι} {n : ℕ} {reply : Reply}
    (h : (ofDeeds service world deeds holders turns).Calls i n reply) :
    (∀ c, deeds i ≠ .login c) ∧ ((deeds i).program (holders i)).Observes := by
  have honce : ∀ change : Session → Session, ∀ f : Session → Upshot × List Holder,
      (deeds i).program (holders i) ≠ .access change fun s => .done (f s) :=
    fun change f hi => not_calls_of_once (x := ofDeeds service world deeds holders turns) hi reply h
  have hlogin : ∀ c, deeds i ≠ .login c := fun c hi => honce _ _ (by rw [hi]; rfl)
  refine ⟨hlogin, (deeds i).observes (holders i) hlogin ?_ ?_⟩
  · exact fun hi => honce _ _ (by rw [hi]; rfl)
  · exact fun r hi => honce _ _ (by rw [hi]; rfl)

theorem credential_of_turn (n : ℕ) :
    let x := ofDeeds service world deeds holders turns
    (x.session (n + 1)).credential = (x.session n).credential ∨
      ∃ i, turns n = .effect i ∧
        ((∃ c, deeds i = .login c ∧ (x.session (n + 1)).credential = some c) ∨
          (x.session (n + 1)).credential = none ∧
            (deeds i = .logout ∨ deeds i = .observe (.error .unauthorized) ∨
              ∃ k c, x.Rejects i k c ∧ x.Next i k n)) := by
  intro x
  cases hturn : turns n with
  | change d => exact .inl (congrArg Session.credential (session_of_change (x := x) hturn))
  | effect i =>
    by_cases hlogin : ∃ c, deeds i = .login c
    · obtain ⟨c, hi⟩ := hlogin
      have hstart : x.start.left i = .access (·.login c) fun _ => .done (.done, holders i) :=
        congrArg (Deed.program (holders i)) hi
      obtain h | h := session_of_once hstart hturn
      · exact .inr ⟨i, rfl, .inl ⟨c, hi, by rw [h]; rfl⟩⟩
      · exact .inl (by rw [h])
    by_cases hlogout : deeds i = .logout
    · have hstart : x.start.left i = .access (·.logout) fun _ => .done (.done, holders i) :=
        congrArg (Deed.program (holders i)) hlogout
      obtain h | h := session_of_once hstart hturn
      · exact .inr ⟨i, rfl, .inr ⟨by rw [h]; rfl, .inl hlogout⟩⟩
      · exact .inl (by rw [h])
    by_cases hobserve : ∃ r, deeds i = .observe r
    · obtain ⟨r, hi⟩ := hobserve
      have hstart : x.start.left i = .access (·.observe r) fun _ => .done (.ofNote r, holders i) :=
        congrArg (Deed.program (holders i)) hi
      obtain h | h := session_of_once hstart hturn
      · obtain hkept | ⟨hnone, hfailure⟩ := Program.observe_credential (x.session n) r
        · exact .inl (by rw [h, hkept])
        · cases r with
          | ok u => cases hfailure
          | error e =>
            cases hfailure
            exact .inr ⟨i, rfl, .inr ⟨by rw [h, hnone], .inr (.inl hi)⟩⟩
      · exact .inl (by rw [h])
    have hobserves := (deeds i).observes (holders i) (fun c hi => hlogin ⟨c, hi⟩) hlogout fun r hi => hobserve ⟨r, hi⟩
    obtain h | ⟨hnone, hrejected⟩ := credential_of_effect (x := x) hobserves hturn
    · exact .inl h
    · exact .inr ⟨i, rfl, .inr ⟨hnone, .inr (.inr hrejected)⟩⟩

end Course

/-- What a rejected credential takes with it, in any order of the effects of any operations on one session. The
operation has found the credential stored at one of its turns. When it notices the rejection, at its next turn after the
call, the session is logged out, whatever is stored by then: that credential, or one that somebody has logged in with
since the operation found it. Nothing else changes what is stored but login, logout and what is reported to the
session. -/
theorem stale_rejection (service : Service σ δ) (world : World σ) [DecidableEq ι] (deeds : ι → Deed)
    (holders : ι → List Holder) (turns : ℕ → Turn ι δ) :
    let x := Course.ofDeeds service world deeds holders turns
    (∀ i k c m, x.Rejects i k c → x.Next i k m →
      x.session (m + 1) = (x.session m).logout ∧
      ∃ l < k, turns l = .effect i ∧ (x.session l).credential = some c ∧
        ∀ c', (x.session m).credential = some c' → c' ≠ c →
          ∃ j j', l < j ∧ j < m ∧ turns j = .effect j' ∧ deeds j' = .login c' ∧
            (x.session (j + 1)).credential = some c') ∧
    ∀ n, (x.session (n + 1)).credential = (x.session n).credential ∨
      ∃ i, turns n = .effect i ∧
        ((∃ c, deeds i = .login c ∧ (x.session (n + 1)).credential = some c) ∨
          (x.session (n + 1)).credential = none ∧
            (deeds i = .logout ∨ deeds i = .observe (.error .unauthorized) ∨
              ∃ k c, x.Rejects i k c ∧ x.Next i k n)) := by
  intro x
  have hcredential := Course.credential_of_turn service world deeds holders turns
  refine ⟨fun i k c m hrejects hnext => ?_, hcredential⟩
  obtain ⟨call, hcalls⟩ := hrejects
  obtain ⟨hlogin, hobserves⟩ := Course.observes_of_calls service world deeds holders turns hcalls
  have hgrows := Deed.grows_endsWith (holders i) (deeds i)
  have hdraws : (x.start.left i).Draws ((deeds i).EndsWith (holders i)) fun _ => False := (deeds i).draws (holders i) _
  obtain ⟨l, hlk, hturn, hc⟩ := Course.found_of_calls hgrows hdraws hcalls
  refine ⟨Course.session_of_rejects hobserves ⟨call, hcalls⟩ hnext, l, hlk, hturn, hc, fun c' hc' hne => ?_⟩
  -- Another credential has come to be stored since, and only a login stores one.
  have hnot : (x.session l).credential ≠ some c' := fun h => hne (Option.some.inj (h.symm.trans hc))
  obtain ⟨j, hlj, hj, hbefore, hafter⟩ := exists_first (P := fun n => (x.session n).credential = some c')
    (hlk.trans hnext.lt).le hnot hc'
  obtain hkept | ⟨j', hturn', ⟨c'', hdeed, hstored⟩ | ⟨hnone, _⟩⟩ := hcredential j
  · exact absurd (hkept.symm.trans hafter) hbefore
  · obtain rfl : c'' = c' := Option.some.inj (hstored.symm.trans hafter)
    refine ⟨j, j', lt_of_le_of_ne hlj ?_, hj, hturn', hdeed, hafter⟩
    rintro rfl
    cases hturn.symm.trans hturn'
    exact hlogin _ hdeed
  · cases hnone.symm.trans hafter

/-- The store accepts the new credential only. While the old one is being rejected to a refresh, somebody logs in with
the new one. -/
def Course.overtaken (old new : Credential) : Course Bool Store StoreChange (Upshot × List Holder) :=
  .ofDeeds Store.service ⟨.start ⟨.updatedAt, .desc⟩ (some old), { Store.initial with accepted := some new.secret }, []⟩
    (fun i => if i then .login new else .refresh) (fun _ => []) fun n => .effect (n == 2)

theorem stale_rejection_overtaken :
    let old : Credential := ⟨"stale", by decide +kernel⟩
    let new : Credential := ⟨"fresh", by decide +kernel⟩
    let x := Course.overtaken old new
    x.Rejects false 1 old ∧ x.Next false 1 3 ∧ x.session 4 = (x.session 3).logout ∧
      ∃ j j', j < 3 ∧ x.turns j = .effect j' ∧ (x.session (j + 1)).credential = some new := by
  intro old new x
  have hrejects : x.Rejects false 1 old := ⟨.fetch .filter, rfl, rfl⟩
  have hnext : x.Next false 1 3 := by
    refine ⟨by decide, fun j hj hj' => ?_, rfl⟩
    obtain rfl : j = 2 := by omega
    exact fun h => Bool.noConfusion (Turn.effect.inj h)
  obtain ⟨hdrops, _⟩ := stale_rejection Store.service
    ⟨.start ⟨.updatedAt, .desc⟩ (some old), { Store.initial with accepted := some new.secret }, []⟩
    (fun i => if i then .login new else .refresh) (fun _ => []) fun n => .effect (n == 2)
  obtain ⟨hlogout, l, _, _, _, hnewer⟩ := hdrops false 1 old 3 hrejects hnext
  obtain ⟨j, j', _, hj, hturn, _, hstored⟩ := hnewer new (by decide +kernel) (by decide +kernel)
  exact ⟨hrejects, hnext, hlogout, j, j', hj, hturn, hstored⟩

/-- The rejection of the old credential has logged out the new one. -/
theorem newer_login_dropped :
    let old : Credential := ⟨"stale", by decide +kernel⟩
    let new : Credential := ⟨"fresh", by decide +kernel⟩
    let x := Course.overtaken old new
    new ≠ old ∧ x.Rejects false 1 old ∧ (x.session 3).credential = some new ∧ (x.session 4).credential = none := by
  intro old new x
  exact ⟨by decide +kernel, ⟨.fetch .filter, rfl, rfl⟩, by decide +kernel, by decide +kernel⟩

end FilterConsole
