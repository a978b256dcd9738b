import FilterConsole.Proofs.Provenance
import FilterConsole.Store

/-! Where the age of the filter that a session has seen comes from. A refresh notes the age of a filter that it has read
itself some turns before, and what it notes stands until the next one does. -/

namespace FilterConsole

variable {ι σ δ α β : Type}

/-- The age of the filter that a read has brought, or else of the one read before. -/
def datedBy (t : Option Timestamp) : Except ConsoleError Snapshot → Option Timestamp
  | .ok filter => some filter.createdAt
  | .error _ => t

namespace Program

/-- After a read of a filter of the age `t`, if there was one, a program notes no age but that of the filter that it has
read last. -/
inductive Dates : Option Timestamp → Program α → Prop
  | done {t : Option Timestamp} (a : α) : Dates t (.done a)
  | access {t : Option Timestamp} {change : Session → Session} {next : Session → Program α}
      (hkeeps : ∀ s, (change s).seen = s.seen) (hnext : ∀ s, Dates t (next s)) : Dates t (.access change next)
  | see {createdAt : Timestamp} {next : Session → Program α} (hnext : ∀ s, Dates (some createdAt) (next s)) :
      Dates (some createdAt) (.access (·.see createdAt) next)
  | filter {t : Option Timestamp} {c : Credential} {next : Except ConsoleError Snapshot → Program α}
      (hnext : ∀ r, Dates (datedBy t r) (next r)) : Dates t (.fetch c .filter next)
  | fetch {t : Option Timestamp} {c : Credential} {f : Fetch} {next : Except ConsoleError f.Answer → Program α}
      (hf : f ≠ .filter) (hnext : ∀ r, Dates t (next r)) : Dates t (.fetch c f next)
  | write {t : Option Timestamp} {c : Credential} {wr : Write} {next : Except ConsoleError Unit → Program α}
      (hnext : ∀ r, Dates t (next r)) : Dates t (.write c wr next)

/-- What notes nothing before it has read a filter does so also after another program. -/
theorem Dates.weaken {p : Program α} (hp : p.Dates none) (t : Option Timestamp) : p.Dates t := by
  generalize hnone : none = t₀ at hp
  induction hp generalizing t with
  | done a => exact .done a
  | access hkeeps _ ih => exact .access hkeeps fun s => ih s t hnone
  | see => cases hnone
  | filter hnext ih =>
    subst hnone
    refine .filter fun r => ?_
    cases r with
    | ok filter => exact hnext (.ok filter)
    | error e => exact ih (.error e) t rfl
  | fetch hf _ ih => exact .fetch hf fun r => ih r t hnone
  | write _ ih => exact .write fun r => ih r t hnone

theorem Dates.bind {t : Option Timestamp} {p : Program α} {k : α → Program β} (hp : p.Dates t)
    (hk : ∀ a, (k a).Dates none) : (p.bind k).Dates t := by
  induction hp with
  | done a => exact (hk a).weaken _
  | access hkeeps _ ih => exact .access hkeeps ih
  | see _ ih => exact .see ih
  | filter _ ih => exact .filter ih
  | fetch hf _ ih => exact .fetch hf ih
  | write _ ih => exact .write ih

theorem Dates.compositional : Compositional (fun _ => Dates none) fun _ => True where
  done := .done
  bind := .bind
  access := fun _ hkeeps hnext => .access hkeeps hnext
  write := fun _ _ _ => .write fun r => .access (fun s => Session.observe_seen s r) fun _ => .done r

end Program

namespace Operation

open Program (Dates)

variable {t : Option Timestamp} {c : Credential}

theorem dates_filter_then {k : Snapshot → Operation β} (hk : ∀ filter, (k filter).run.Dates (some filter.createdAt)) :
    (fetch c .filter >>= k).run.Dates t := by
  refine .filter fun r => .access (fun s => Session.observe_seen s r) fun _ => ?_
  cases r with
  | ok filter => exact hk filter
  | error e => exact .done _

theorem dates_fetch_then {f : Fetch} (hf : f ≠ .filter) {k : f.Answer → Operation β} (hk : ∀ a, (k a).run.Dates t) :
    (fetch c f >>= k).run.Dates t := by
  refine .fetch hf fun r => .access (fun s => Session.observe_seen s r) fun _ => ?_
  cases r with
  | ok a => exact hk a
  | error e => exact .done _

end Operation

open Operation in
theorem refresh_dates : refresh.run.Dates none :=
  Program.Dates.compositional.operation_bind Program.Dates.compositional.credential fun _ =>
  dates_filter_then fun _ =>
  dates_fetch_then (by decide) fun _ =>
  dates_fetch_then (by decide) fun _ =>
  dates_fetch_then (by decide) fun _ =>
  dates_fetch_then (by decide) fun _ =>
  dates_fetch_then (by decide) fun _ =>
  .access (fun _ => rfl) fun _ => .see fun _ => .done _

/-- Whoever does not set the age himself notes only what he has read. -/
theorem Deed.dates (holders : List Holder) (d : Deed) (hd : ∀ t, d ≠ .see t) : (d.program holders).Dates none := by
  cases d with
  | see createdAt => exact absurd rfl (hd createdAt)
  | login c => exact .access (fun _ => rfl) fun _ => .done _
  | logout => exact .access (fun _ => rfl) fun _ => .done _
  | observe r => exact .access (fun s => Session.observe_seen s r) fun _ => .done _
  | _ => exact Program.Dates.compositional.deed refresh_dates trivial holders trivial fun _ _ _ _ => trivial

namespace Course

variable [DecidableEq ι] (x : Course ι σ δ α)

def Reads (i : ι) (n : ℕ) (filter : Snapshot) : Prop :=
  x.turns n = .effect i ∧ ∃ c next, x.left n i = .fetch c .filter next ∧
    (x.service.fetch c .filter (x.world n).service).1 = .ok filter

/-- At the turn `n` an operation notes the age of the filter that it has read last, which was at the turn `k`. -/
structure Notes (i : ι) (k n : ℕ) (filter : Snapshot) : Prop where
  lt : k < n
  reads : x.Reads i k filter
  last : ∀ j, k < j → j < n → ∀ other, ¬ x.Reads i j other
  turn : x.turns n = .effect i
  effect : ∃ next, x.left n i = .access (·.see filter.createdAt) next

def From (k n : ℕ) (filter : Snapshot) : Prop :=
  ∃ i, ∃ m < n, x.Notes i k m filter ∧ ∀ m', m < m' → m' < n → ∀ i' k' other, ¬ x.Notes i' k' m' other

def LastRead (i : ι) (n : ℕ) (t : Option Timestamp) : Prop :=
  ∀ createdAt, t = some createdAt → ∃ k < n, ∃ filter, x.Reads i k filter ∧ filter.createdAt = createdAt ∧
    ∀ j, k < j → j < n → ∀ other, ¬ x.Reads i j other

variable {x} {i i' : ι} {k k' m m' n n' : ℕ} {filter filter' : Snapshot}

theorem Reads.lastRead (h : x.Reads i n filter) : x.LastRead i (n + 1) (some filter.createdAt) := by
  intro createdAt hcreated
  exact ⟨n, n.lt_succ_self, filter, h, Option.some.inj hcreated, fun j hj hj' => absurd hj' (by omega)⟩

theorem LastRead.succ {t : Option Timestamp} (h : x.LastRead i n t) (hnone : ∀ other, ¬ x.Reads i n other) :
    x.LastRead i (n + 1) t := by
  intro createdAt hcreated
  obtain ⟨k, hk, filter, hreads, heq, hlast⟩ := h createdAt hcreated
  refine ⟨k, Nat.lt_succ_of_lt hk, filter, hreads, heq, fun j hkj hj => ?_⟩
  obtain hj | rfl := Nat.lt_succ_iff_lt_or_eq.mp hj
  · exact hlast j hkj hj
  · exact hnone

theorem dated (h : (x.start.left i).Dates none) (n : ℕ) : ∃ t, (x.left n i).Dates t ∧ x.LastRead i n t := by
  refine left_induction (P := fun n p => ∃ t, p.Dates t ∧ x.LastRead i n t) ⟨none, h, nofun⟩
    (fun n p hturn hleft hp => ?_) (fun n p hturn _ hp => ?_) n
  · obtain ⟨t, hp, ht⟩ := hp
    -- Only where a filter is read another age comes to be the last one.
    have hnone : (∀ c next, p ≠ .fetch c .filter next) → x.LastRead i (n + 1) t := by
      refine fun hne => ht.succ ?_
      rintro other ⟨_, c, next, hfetch, _⟩
      exact hne c next (hleft.symm.trans hfetch)
    cases hp with
    | done a => exact ⟨t, .done a, hnone nofun⟩
    | access hkeeps hnext => exact ⟨t, hnext _, hnone nofun⟩
    | see hnext => exact ⟨_, hnext _, hnone nofun⟩
    | write hnext => exact ⟨t, hnext _, hnone nofun⟩
    | fetch hf hnext => exact ⟨t, hnext _, hnone fun c next h => hf (by cases h; rfl)⟩
    | @filter _ c next hnext =>
      have hdates := hnext (x.service.fetch c .filter (x.world n).service).1
      refine ⟨_, hdates, ?_⟩
      cases hread : (x.service.fetch c .filter (x.world n).service).1 with
      | ok filter => exact Reads.lastRead ⟨hturn, c, next, hleft, hread⟩
      | error e =>
        refine ht.succ ?_
        rintro other ⟨_, c', next', hfetch, hok⟩
        cases hleft.symm.trans hfetch
        cases hread.symm.trans hok
  · obtain ⟨t, hp, ht⟩ := hp
    exact ⟨t, hp, ht.succ fun _ h => hturn h.1⟩

theorem Notes.session (h : x.Notes i k n filter) : x.session (n + 1) = (x.session n).see filter.createdAt := by
  obtain ⟨next, hleft⟩ := h.effect
  exact session_of_access h.turn hleft

/-- An operation leaves the age alone, or notes that of the filter that it has read last. -/
theorem seen_of_effect (h : (x.start.left i).Dates none) (hturn : x.turns n = .effect i) :
    (x.session (n + 1)).seen = (x.session n).seen ∨ ∃ k filter, x.Notes i k n filter := by
  obtain ⟨t, hdates, ht⟩ := dated h n
  have hsession : x.session (n + 1) = ((x.left n i).step x.service.toBackend (x.world n)).2.session := by
    rw [session, world_succ hturn]
  rw [hsession]
  generalize hleft : x.left n i = p at hdates
  cases hdates with
  | access hkeeps _ => exact .inl (hkeeps _)
  | see hnext =>
    obtain ⟨k, hk, filter, hreads, rfl, hlast⟩ := ht _ rfl
    exact .inr ⟨k, filter, hk, hreads, hlast, hturn, _, hleft⟩
  | _ => exact .inl rfl

theorem Notes.unique (h : x.Notes i k n filter) (h' : x.Notes i' k' n filter') : k = k' := by
  cases h.turn.symm.trans h'.turn
  obtain hlt | heq | hgt := lt_trichotomy k k'
  · exact absurd h'.reads (h.last k' hlt h'.lt filter')
  · exact heq
  · exact absurd h.reads (h'.last k hgt h.lt filter)

theorem Notes.from_succ (h : x.Notes i k n filter) : x.From k (n + 1) filter :=
  ⟨i, n, n.lt_succ_self, h, fun m' hm hm' => absurd hm' (by omega)⟩

theorem From.succ (h : x.From k n filter) (hnone : ∀ i k other, ¬ x.Notes i k n other) : x.From k (n + 1) filter := by
  obtain ⟨i, m, hm, hnotes, hlast⟩ := h
  refine ⟨i, m, Nat.lt_succ_of_lt hm, hnotes, fun m' hmm' hm' => ?_⟩
  obtain hm' | rfl := Nat.lt_succ_iff_lt_or_eq.mp hm'
  · exact hlast m' hmm' hm'
  · exact hnone

/-- The age stands that was noted last, or the one at first if none has been noted. -/
theorem seen_from (hseen : ∀ n, (x.session (n + 1)).seen = (x.session n).seen ∨ ∃ i k filter, x.Notes i k n filter)
    (n : ℕ) : ((∀ m < n, ∀ i k other, ¬ x.Notes i k m other) ∧ (x.session n).seen = (x.session 0).seen) ∨
      ∃ k filter, x.From k n filter ∧ (x.session n).seen = some filter.createdAt := by
  induction n with
  | zero => exact .inl ⟨fun m hm => absurd hm m.not_lt_zero, rfl⟩
  | succ n ih =>
    by_cases hnote : ∃ i k filter, x.Notes i k n filter
    · obtain ⟨i, k, filter, hnote⟩ := hnote
      exact .inr ⟨k, filter, hnote.from_succ, by rw [hnote.session]; rfl⟩
    · have hnone : ∀ i k other, ¬ x.Notes i k n other := fun i k other h => hnote ⟨i, k, other, h⟩
      have hkept := (hseen n).resolve_right hnote
      rw [hkept]
      obtain ⟨hbefore, hfirst⟩ | ⟨k, filter, hfrom, hlast⟩ := ih
      · refine .inl ⟨fun m hm => ?_, hfirst⟩
        obtain hm | rfl := Nat.lt_succ_iff_lt_or_eq.mp hm
        · exact hbefore m hm
        · exact hnone
      · exact .inr ⟨k, filter, hfrom.succ hnone, hlast⟩

/-- The session goes back to a filter read earlier only if one operation reads and notes while another one, which has
read before it, has yet to note. -/
theorem From.back (hn : n ≤ n') (h : x.From k n filter) (h' : x.From k' n' filter') (hk : k' < k) :
    ∃ i i' m m', i ≠ i' ∧ x.Notes i k m filter ∧ x.Notes i' k' m' filter' ∧ m < m' ∧ m' < n' := by
  obtain ⟨i, m, hm, hnotes, _⟩ := h
  obtain ⟨i', m', hm', hnotes', hlast⟩ := h'
  have hmm' : m < m' := by
    obtain hlt | rfl | hgt := lt_trichotomy m m'
    · exact hlt
    · exact absurd (hnotes.unique hnotes') (Nat.ne_of_gt hk)
    · exact absurd hnotes (hlast m hgt (hm.trans_le hn) i k filter)
  refine ⟨i, i', m, m', ?_, hnotes, hnotes', hmm', hm'⟩
  rintro rfl
  exact hnotes'.last k hk (hnotes.lt.trans hmm') filter hnotes.reads

end Course

/-- Where the age that a session has seen comes from, in any order of the effects of any operations on it. It is that of
the filter which the operation that has noted last has read, and each note stands until the next. So it goes back to
a filter that was read earlier just where an operation reads and notes while another one is between its read and its
note; where none does, never. A watch compares with the age that the session has had at one of the watch's turns, and
it does so to its end. -/
theorem seen_origin (service : Service σ δ) (world : World σ) [DecidableEq ι] (deeds : ι → Deed)
    (holders : ι → List Holder) (turns : ℕ → Turn ι δ) (hdeeds : ∀ i t, deeds i ≠ .see t) :
    let x := Course.ofDeeds service world deeds holders turns
    (∀ n, ((∀ m < n, ∀ i k other, ¬ x.Notes i k m other) ∧ (x.session n).seen = world.session.seen) ∨
      ∃ k filter, x.From k n filter ∧ (x.session n).seen = some filter.createdAt) ∧
    (∀ i k m filter, x.Notes i k m filter → x.From k (m + 1) filter) ∧
    (∀ n n' k k' filter filter', n ≤ n' → x.From k n filter → x.From k' n' filter' → k' < k →
      ∃ i i' m m', i ≠ i' ∧ x.Notes i k m filter ∧ x.Notes i' k' m' filter' ∧ m < m' ∧ m' < n') ∧
    ∀ i n ending, x.left n i = .done ending →
      (∀ limit cancelled, deeds i = .watch limit cancelled →
        ∃ k < n, turns k = .effect i ∧ Upshot.Compares (x.session k).seen ending) ∧
      ∀ j how limit waiting waits, deeds i = .wake j how → (holders i)[j]? = some (.watch limit waiting waits) →
        Upshot.Compares waiting.seen ending := by
  intro x
  have hseen : ∀ n, (x.session (n + 1)).seen = (x.session n).seen ∨ ∃ i k filter, x.Notes i k n filter := by
    intro n
    cases hturn : turns n with
    | change d => exact .inl (congrArg Session.seen (Course.session_of_change (x := x) hturn))
    | effect i =>
      have hdates : (x.start.left i).Dates none := (deeds i).dates (holders i) (hdeeds i)
      obtain h | ⟨k, filter, h⟩ := Course.seen_of_effect hdates hturn
      · exact .inl h
      · exact .inr ⟨i, k, filter, h⟩
  refine ⟨Course.seen_from hseen, fun i k m filter h => h.from_succ, ?_, fun i n ending hend => ?_⟩
  · exact fun n n' k k' filter filter' hn h h' hk => h.back hn h' hk
  · have hdraws : (x.start.left i).Draws ((deeds i).EndsWith (holders i)) fun _ => False :=
      (deeds i).draws (holders i) _
    have hfound := Course.draws (Deed.grows_endsWith (holders i) (deeds i)) hdraws n
    rw [hend] at hfound
    cases hfound with
    | done hends =>
      refine ⟨fun limit cancelled hi => ?_, fun j how limit waiting waits hi hholder => ?_⟩
      · rw [hi] at hends
        obtain ⟨_, ⟨k, hk, hturn, rfl⟩, hcompares⟩ := hends
        exact ⟨k, hk, hturn, hcompares⟩
      · rw [hi] at hends
        exact hends limit waiting waits hholder

/-- Two refreshes on one session. The one has read the filter when it is the other's turn, from beginning to end. -/
def Course.nested (c : Credential) : Course Bool Store StoreChange (Upshot × List Holder) :=
  .ofDeeds Store.service
    ⟨.start ⟨.updatedAt, .desc⟩ (some c),
      { Store.initial with filters := [.ok ⟨⟨1000, 0⟩, 0, ∅⟩, .ok ⟨⟨2000, 0⟩, 0, ∅⟩] }, []⟩
    (fun _ => .refresh) (fun _ => []) fun n => .effect (decide (2 ≤ n ∧ n < 17))

theorem seen_origin_nested :
    let x := Course.nested ⟨"shared", by decide +kernel⟩
    ∃ k filter, x.From k 30 filter ∧ filter.createdAt = ⟨1000, 0⟩ := by
  intro x
  have hseen : (x.session 30).seen = some ⟨1000, 0⟩ := by decide +kernel
  obtain ⟨horigin, _⟩ := seen_origin Store.service
    ⟨.start ⟨.updatedAt, .desc⟩ (some ⟨"shared", by decide +kernel⟩),
      { Store.initial with filters := [.ok ⟨⟨1000, 0⟩, 0, ∅⟩, .ok ⟨⟨2000, 0⟩, 0, ∅⟩] }, []⟩
    (fun _ : Bool => .refresh) (fun _ => []) (fun n => .effect (decide (2 ≤ n ∧ n < 17))) nofun
  obtain ⟨_, hnone⟩ | ⟨k, filter, hfrom, hlast⟩ := horigin 30
  · cases hseen.symm.trans hnone
  · exact ⟨k, filter, hfrom, Option.some.inj (hlast.symm.trans hseen)⟩

/-- The session has seen the later filter, and then the one that was read before it. -/
theorem seen_goes_back :
    let x := Course.nested ⟨"shared", by decide +kernel⟩
    x.Reads false 1 ⟨⟨1000, 0⟩, 0, ∅⟩ ∧ x.Reads true 3 ⟨⟨2000, 0⟩, 0, ∅⟩ ∧
      (x.session 17).seen = some ⟨2000, 0⟩ ∧ (x.session 30).seen = some ⟨1000, 0⟩ := by
  intro x
  exact ⟨⟨rfl, _, _, rfl, rfl⟩, ⟨rfl, _, _, rfl, rfl⟩, by decide +kernel, by decide +kernel⟩

end FilterConsole
