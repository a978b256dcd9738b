import FilterConsole.Http.Exchange
import FilterConsole.Proofs.Lookup
import FilterConsole.Proofs.Rejection

/-! What the calls of the console come to over HTTP: which replies are answers, which of them reject the credential, and
that all else is a failure of transport. -/

namespace FilterConsole

variable {σ : Type}

namespace Table

/-- A table is made of its own entries. -/
theorem ofList_entries {α : Type} (t : Table α) : ofList t.entries = t := by
  refine ext_get? fun name => ?_
  rw [get?_ofList]
  cases h : t.entries.reverse.lookup name with
  | none =>
    have hnone : t.entries.lookup name = none := by
      rw [List.lookup_eq_none_iff] at h ⊢
      exact fun e he => h e (List.mem_reverse.mpr he)
    exact hnone.symm
  | some v =>
    obtain ⟨l, l', hl, _⟩ := List.lookup_eq_some_iff.mp h
    have hmem : (name, v) ∈ t.entries := by
      rw [← List.mem_reverse, hl]
      simp
    exact (mem_entries_iff.mp hmem).symm

end Table

namespace Wire

theorem ofOctets_of_length {octets : List UInt8} (h : octets.length = 4) :
    ∃ x, Address.ofOctets octets = .ok x ∧ x.octets = octets := by
  match octets, h with
  | [a, b, c, d], _ => exact ⟨⟨a, b, c, d⟩, rfl, rfl⟩

theorem override_ok_iff {domain : String} {octets : List UInt8} {x : Address} :
    override domain octets = .ok x ↔ x.octets = octets := by
  constructor
  · intro h
    unfold override at h
    split at h
    · next y hy =>
      cases h
      unfold Address.ofOctets at hy
      split at hy
      · cases hy
        rfl
      · cases hy
    · cases h
  · rintro rfl
    rfl

theorem mapM_override (l : List (String × Address)) :
    ((l.map fun e => (e.1, e.2.octets)).mapM fun e => do return (e.1, ← override e.1 e.2)) = .ok l := by
  induction l with
  | nil => rfl
  | cons e l ih =>
    rw [List.map_cons, List.mapM_cons, ih]
    rfl

theorem octets_of_mapM_override {entries : List (String × List UInt8)} {l : List (String × Address)}
    (h : (entries.mapM fun e => do return (e.1, ← override e.1 e.2)) = .ok l) :
    (l.map fun e => (e.1, e.2.octets)) = entries := by
  induction entries generalizing l with
  | nil =>
    cases h
    rfl
  | cons e entries ih =>
    rw [List.mapM_cons] at h
    cases hx : override e.1 e.2 with
    | error failure =>
      rw [hx] at h
      cases h
    | ok x =>
      cases hl : entries.mapM fun e => do return (e.1, ← override e.1 e.2) with
      | error failure =>
        rw [hx, hl] at h
        cases h
      | ok l' =>
        rw [hx, hl] at h
        cases h
        rw [List.map_cons, ih hl, override_ok_iff.mp hx]

/-- Forced answers are those whose octets were served. -/
theorem overrides_ok_iff {t : Table (List UInt8)} {a : Overrides} :
    overrides t = .ok a ↔ ∀ name, (a.get? name).map Address.octets = t.get? name := by
  have hmap : (a.map fun _ x => x.octets) = t ↔ ∀ name, (a.get? name).map Address.octets = t.get? name := by
    refine ⟨fun h name => by rw [← h, Table.get?_map], fun h => Table.ext_get? fun name => ?_⟩
    rw [Table.get?_map, h]
  rw [← hmap, overrides]
  constructor
  · intro h
    cases hl : t.entries.mapM fun e => do return (e.1, ← override e.1 e.2) with
    | error failure =>
      rw [hl] at h
      cases h
    | ok l =>
      rw [hl] at h
      have hentries := octets_of_mapM_override hl
      have hsorted : l.Pairwise fun x y => x.1 < y.1 := by
        have hpairs := t.sorted
        rwa [← hentries, List.pairwise_map] at hpairs
      obtain rfl : a = ⟨l, hsorted⟩ := (Except.ok.inj h).symm.trans (Table.ofList_entries ⟨l, hsorted⟩)
      refine Table.ext_get? fun name => congrArg (List.lookup name) hentries
  · rintro rfl
    have hmapM := mapM_override a.entries
    have hentries : (a.map fun _ x => x.octets).entries = a.entries.map fun e => (e.1, e.2.octets) := rfl
    rw [hentries, hmapM]
    exact congrArg Except.ok a.ofList_entries

def octetPairs? : Json → Option (List (String × List UInt8))
  | .object members => members.mapM fun (name, v) => do return (← Json.readText? name, ← Json.list? Json.octet? v)
  | _ => none

theorem octetTable?_eq (v : Json) : octetTable? v = (octetPairs? v).map Table.ofList := by
  cases v with
  | object members => exact Option.map_eq_bind.symm
  | _ => rfl

end Wire

namespace Http

/-- A body holds the answer `a`. Of several forced answers for one name the last one counts, and has four octets. -/
def Decodes (body : Bytes) : (f : Fetch) → f.Answer → Prop
  | .filter, a => (Json.parse? body >>= Wire.filter?) = some a
  | .cache, a => (Json.parse? body >>= Wire.cache?) = some a
  | .queryLog, a => (Json.parse? body >>= Wire.queryLog?) = some a
  | .allowList, a => (Json.parse? body >>= Wire.allowList?) = some a
  | .overrides, a => ∃ pairs, (Json.parse? body >>= Wire.octetPairs?) = some pairs ∧
      (∀ name octets, pairs.reverse.lookup name = some octets → octets.length = 4) ∧
      ∀ name, (a.get? name).map Address.octets = pairs.reverse.lookup name
  | .autoUpdate, a => (Json.parse? body >>= Wire.autoUpdate?) = some a

variable {body : Bytes} {f : Fetch} {a : f.Answer} {status : Nat}

theorem orUndecodable_ok_iff {α : Type} {e : Endpoint} {x : Option α} {a : α} :
    decode.orUndecodable e x = .ok a ↔ x = some a := by
  cases x with
  | none => exact ⟨nofun, nofun⟩
  | some b => exact ⟨fun h => congrArg some (Except.ok.inj h), fun h => congrArg Except.ok (Option.some.inj h)⟩

theorem decode_overrides_ok_iff {a : Overrides} : decode body .overrides = .ok a ↔ Decodes body .overrides a := by
  have hpairs : (Json.parse? body >>= Wire.octetTable?) =
      (Json.parse? body >>= Wire.octetPairs?).map Table.ofList := by
    cases Json.parse? body with
    | none => rfl
    | some v => exact Wire.octetTable?_eq v
  rw [decode, hpairs]
  cases hp : Json.parse? body >>= Wire.octetPairs? with
  | none =>
    refine ⟨nofun, fun ⟨pairs, h, _⟩ => ?_⟩
    rw [hp] at h
    cases h
  | some pairs =>
    have hoverrides : Wire.overrides (.ofList pairs) = .ok a ↔
        ∀ name, (a.get? name).map Address.octets = pairs.reverse.lookup name := by
      simp only [Wire.overrides_ok_iff, Table.get?_ofList]
    refine hoverrides.trans ⟨fun h => ⟨pairs, hp, fun name octets hlookup => ?_, h⟩, fun ⟨pairs', hp', _, h⟩ => ?_⟩
    · obtain ⟨x, _, rfl⟩ := Option.map_eq_some_iff.mp ((h name).trans hlookup)
      rfl
    · rw [hp] at hp'
      cases hp'
      exact h

theorem decode_ok_iff : decode body f = .ok a ↔ Decodes body f a := by
  cases f with
  | overrides => exact decode_overrides_ok_iff
  | _ => exact orUndecodable_ok_iff

theorem statusFailure?_eq_none {e : Endpoint} : statusFailure? status e = none ↔ 200 ≤ status ∧ status < 300 := by
  unfold statusFailure?
  split
  · simp
    omega
  · simp

theorem statusFailure?_ofCall {e : Endpoint} {failure : ConsoleError} (h : statusFailure? status e = some failure) :
    failure.OfCall := by
  unfold statusFailure? at h
  split at h
  · exact .inl (Option.some.inj h).symm
  · split at h
    · cases h
    · exact .inr ⟨_, (Option.some.inj h).symm⟩

theorem readReply_failure {e : ConsoleError} (h : statusFailure? status f.endpoint = some e) (body : Option Bytes) :
    readReply f (.response status body) = .error e := by
  simp only [readReply, h]

theorem readReply_cut_short (h : statusFailure? status f.endpoint = none) :
    readReply f (.response status none) = .error (.transport (.notDelivered f.endpoint)) := by
  simp only [readReply, h]

theorem readReply_body (h : statusFailure? status f.endpoint = none) (body : Bytes) :
    readReply f (.response status (some body)) = (decode body f).mapError .transport := by
  simp only [readReply, h]

theorem mapError_eq_ok_iff {α ε ε' : Type} {x : Except ε α} {f : ε → ε'} {a : α} :
    x.mapError f = .ok a ↔ x = .ok a := by
  cases x <;> simp [Except.mapError]

theorem readReply_ofCall {reply : Reply} {e : ConsoleError} (h : readReply f reply = .error e) : e.OfCall := by
  cases reply with
  | unreachable => exact .inr ⟨_, (Except.error.inj h).symm⟩
  | nothing => exact .inr ⟨_, (Except.error.inj h).symm⟩
  | response status body =>
    cases hs : statusFailure? status f.endpoint with
    | some failure =>
      rw [readReply_failure hs] at h
      cases h
      exact statusFailure?_ofCall hs
    | none =>
      cases body with
      | none =>
        rw [readReply_cut_short hs] at h
        exact .inr ⟨_, (Except.error.inj h).symm⟩
      | some body =>
        rw [readReply_body hs] at h
        cases hd : decode body f with
        | ok a => simp [hd, Except.mapError] at h
        | error failure =>
          simp only [hd, Except.mapError] at h
          exact .inr ⟨_, (Except.error.inj h).symm⟩

variable {wr : Write}

theorem writeReply_ofCall {reply : Reply} {e : ConsoleError} (h : writeReply wr reply = .error e) : e.OfCall := by
  cases reply with
  | unreachable => exact .inr ⟨_, (Except.error.inj h).symm⟩
  | nothing => exact .inr ⟨_, (Except.error.inj h).symm⟩
  | response status body =>
    rw [writeReply] at h
    cases hs : statusFailure? status wr.endpoint with
    | some failure =>
      rw [hs] at h
      cases h
      exact statusFailure?_ofCall hs
    | none =>
      rw [hs] at h
      cases h

namespace Client

theorem fetch_eq (client : Client) (network : Network σ) (c : Credential) (f : Fetch) (s : σ) :
    (client.backend network).fetch c f s = (readReply f (send network (client.request? c (.fetch f)) s).1,
      (send network (client.request? c (.fetch f)) s).2) := by
  simp only [backend]

theorem write_eq (client : Client) (network : Network σ) (c : Credential) (wr : Write) (s : σ) :
    (client.backend network).write c wr s = (writeReply wr (send network (client.request? c (.write wr)) s).1,
      (send network (client.request? c (.write wr)) s).2) := by
  simp only [backend]

/-- No call over a network fails but for a rejected credential or by transport. -/
theorem backend_contract (client : Client) (network : Network σ) : (client.backend network).Contract where
  fetch c f s e h := by
    rw [fetch_eq] at h
    dsimp only at h
    exact readReply_ofCall h
  write c wr s e h := by
    rw [write_eq] at h
    dsimp only at h
    exact writeReply_ofCall h

end Client

/-- Nothing that a header value may not hold. -/
def FitsHeader (s : String) : Prop := ∀ b ∈ utf8 s, b = 0x09 ∨ 0x20 ≤ b ∧ b ≠ 0x7F

structure IsRequest (client : Client) (c : Credential) (call : Call) (r : Request) : Prop where
  url : Url.parse? (address client.baseUrl client.pathPrefix call.endpoint.name) = some r.url
  fits : FitsHeader c.secret
  authorization : r.authorization = "Bearer " ++ c.secret
  method : r.method = call.payload.1
  contentType : r.contentType = call.payload.2.1
  body : r.body = call.payload.2.2
  userAgent : r.userAgent = userAgent

section Requests

variable {client : Client} {c : Credential} {call : Call} {r : Request}

theorem isHeaderText_iff {s : String} : isHeaderText s = true ↔ FitsHeader s := by
  simp [isHeaderText, FitsHeader]

theorem request?_eq_some_iff : client.request? c call = some r ↔ IsRequest client c call r := by
  unfold Client.request?
  constructor
  · intro h
    obtain ⟨url, hurl, h⟩ := Option.bind_eq_some_iff.mp h
    by_cases hfits : isHeaderText c.secret = true
    · simp only [hfits, Bool.not_true, Bool.false_eq_true, if_false] at h
      obtain rfl := Option.some.inj h
      exact ⟨hurl, isHeaderText_iff.mp hfits, rfl, rfl, rfl, rfl, rfl⟩
    · simp [hfits] at h
  · rintro ⟨hurl, hfits, hauthorization, hmethod, hcontentType, hbody, huserAgent⟩
    obtain ⟨method, url, authorization, contentType, agent, body⟩ := r
    dsimp only at *
    subst hauthorization hmethod hcontentType hbody huserAgent
    simp [hurl, isHeaderText_iff.mpr hfits]

end Requests

end Http

end FilterConsole
