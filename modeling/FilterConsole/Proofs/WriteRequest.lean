import FilterConsole.Proofs.HttpContract
import FilterConsole.Proofs.JsonReadBack

/-! What a write is sent as. Its body is read back as what was asked for, and with the method and the address it tells
which write it was. -/

namespace FilterConsole

open Json

def NamesDomain (domain : String) (v : Json) : Prop :=
  ∃ name raw, v = .object [(name, .text raw)] ∧ readText? name = some "name" ∧ readText? raw = some domain

def Write.Says : Write → Json → Prop
  | rebuild, v => v = .object []
  | allow domain, v | disallow domain, v | removeOverride domain, v => NamesDomain domain v
  | setOverride domain ⟨a, b, c, d⟩, v =>
    ∃ name raw place, v = .object [(name, .text raw),
        (place, .array [.integer a.toNat, .integer b.toNat, .integer c.toNat, .integer d.toNat])] ∧
      readText? name = some "name" ∧ readText? raw = some domain ∧ readText? place = some "address"
  | setAutoUpdate .disabled, v => v = .null
  | setAutoUpdate (.every seconds), v => v = .integer seconds.toNat

/-- A name without characters that need an escape. -/
theorem legible_name {name : String} (h : escape (utf8 name) = utf8 name) : Legible (.text (utf8 name)) := by
  rw [← h]
  exact legible_ofText name

theorem readText?_name {name : String} (h : escape (utf8 name) = utf8 name) : readText? (utf8 name) = some name := by
  rw [← h]
  exact readText?_escape name

theorem escape_name : escape (utf8 "name") = utf8 "name" := by
  rw [utf8_eq]
  rfl

theorem escape_address : escape (utf8 "address") = utf8 "address" := by
  rw [utf8_eq]
  rfl

namespace Write

theorem plain_body (w : Write) : Plain w.body := by
  have hname : Legible (.text (utf8 "name")) := legible_name escape_name
  have hdomain : ∀ domain, Plain (.object [(utf8 "name", .ofText domain)]) := by
    intro domain
    refine .object ?_ ?_ <;> simp only [List.mem_singleton, forall_eq]
    · exact hname
    · exact .scalar (legible_ofText domain)
  cases w with
  | rebuild => exact .object nofun nofun
  | allow domain => exact hdomain domain
  | disallow domain => exact hdomain domain
  | removeOverride domain => exact hdomain domain
  | setOverride domain address =>
    refine .object ?_ ?_ <;> simp only [List.forall_mem_cons]
    · exact ⟨hname, legible_name escape_address, nofun⟩
    · refine ⟨.scalar (legible_ofText domain), .array fun v hv => ?_, nofun⟩
      obtain ⟨o, _, rfl⟩ := List.mem_map.mp hv
      exact .scalar (legible_integer _)
  | setAutoUpdate setting =>
    cases setting with
    | disabled => exact .scalar legible_null
    | every seconds => exact .scalar (legible_integer _)

theorem says_body (w : Write) : w.Says w.body := by
  have hname := readText?_name escape_name
  cases w with
  | rebuild => rfl
  | allow domain => exact ⟨_, _, rfl, hname, readText?_escape domain⟩
  | disallow domain => exact ⟨_, _, rfl, hname, readText?_escape domain⟩
  | removeOverride domain => exact ⟨_, _, rfl, hname, readText?_escape domain⟩
  | setOverride domain address => exact ⟨_, _, _, rfl, hname, readText?_escape domain, readText?_name escape_address⟩
  | setAutoUpdate setting => cases setting <;> rfl

theorem domain_eq {domain domain' : String} {v : Json} (h : NamesDomain domain v) (h' : NamesDomain domain' v) :
    domain = domain' := by
  obtain ⟨name, raw, rfl, _, hraw⟩ := h
  obtain ⟨name', raw', hv, _, hraw'⟩ := h'
  cases hv
  exact Option.some.inj (hraw.symm.trans hraw')

/-- One method and one resource stand for one kind of write, and its arguments stand in the body. -/
theorem eq_of_says {w w' : Write} {v : Json} (hmethod : w.method = w'.method) (hendpoint : w.endpoint = w'.endpoint)
    (h : w.Says v) (h' : w'.Says v) : w = w' := by
  cases w <;> cases w' <;> cases hmethod <;> cases hendpoint
  case rebuild.rebuild => rfl
  case allow.allow => exact congrArg _ (domain_eq h h')
  case disallow.disallow => exact congrArg _ (domain_eq h h')
  case removeOverride.removeOverride => exact congrArg _ (domain_eq h h')
  case setOverride.setOverride domain address domain' address' =>
    obtain ⟨a, b, c, d⟩ := address
    obtain ⟨a', b', c', d'⟩ := address'
    obtain ⟨name, raw, place, rfl, _, hraw, _⟩ := h
    obtain ⟨name', raw', place', hv, _, hraw', _⟩ := h'
    simp only [Json.object.injEq, List.cons.injEq, Prod.mk.injEq, Json.text.injEq, Json.array.injEq, Json.integer.injEq,
      Int.natCast_inj, UInt8.toNat_inj, and_true] at hv
    obtain ⟨⟨_, rfl⟩, _, rfl, rfl, rfl, rfl⟩ := hv
    rw [Option.some.inj (hraw.symm.trans hraw')]
  case setAutoUpdate.setAutoUpdate setting setting' =>
    cases setting <;> cases setting' <;> simp only [Says] at h h' <;> subst h
    case disabled.disabled => rfl
    case disabled.every => cases h'
    case every.disabled => cases h'
    case every.every =>
      rw [Json.integer.injEq, Int.natCast_inj, UInt64.toNat_inj] at h'
      rw [h']

end Write

theorem Endpoint.name_injective {e e' : Endpoint} (h : e.name = e'.name) : e = e' := by
  revert h
  cases e <;> cases e' <;> decide

namespace Http

structure Instruction where
  method : Method
  address : String
  body : Bytes

def Client.instruction (client : Client) (w : Write) : Instruction :=
  ⟨w.method, address client.baseUrl client.pathPrefix w.endpoint.name, (Call.write w).payload.2.2⟩

theorem address_injective {base pathPrefix name name' : String}
    (h : address base pathPrefix name = address base pathPrefix name') : name = name' := by
  have hlist := congrArg String.toList h
  simp only [address, String.toList_append, List.append_cancel_left_eq] at hlist
  exact String.toList_inj.mp hlist

theorem Client.parse?_instruction (client : Client) (w : Write) :
    Json.parse? (client.instruction w).body = some w.body := parse?_write w.plain_body

theorem Client.eq_of_instruction {client : Client} {w w' : Write} (h : client.instruction w = client.instruction w') :
    w = w' := by
  obtain ⟨hmethod, haddress, hbody⟩ := Instruction.mk.inj h
  have hendpoint : w.endpoint = w'.endpoint := Endpoint.name_injective (address_injective haddress)
  have hread : some w.body = some w'.body := by
    rw [← client.parse?_instruction w, ← client.parse?_instruction w', h]
  refine Write.eq_of_says hmethod hendpoint w.says_body ?_
  rw [Option.some.inj hread]
  exact w'.says_body

/-- The method, the address and the body of a request tell which write was asked for. Its body is read back as nothing but
the arguments, and a domain among them character for character. -/
theorem write_identified (client : Client) :
    (∀ w w' : Write, client.instruction w = client.instruction w' ↔ w = w') ∧
    (∀ w : Write, ∃ v, Json.parse? (client.instruction w).body = some v ∧ w.Says v) ∧
    ∀ (w : Write) (c : Credential) (r : Request), client.request? c (.write w) = some r →
      r.method = (client.instruction w).method ∧ Url.parse? (client.instruction w).address = some r.url ∧
        r.body = (client.instruction w).body := by
  refine ⟨fun w w' => ⟨Client.eq_of_instruction, fun h => h ▸ rfl⟩, fun w => ?_, fun w c r h => ?_⟩
  · exact ⟨w.body, client.parse?_instruction w, w.says_body⟩
  · have hrequest := request?_eq_some_iff.mp h
    exact ⟨hrequest.method, hrequest.url, hrequest.body⟩

/-- A domain with characters that are escaped and some that are not is allowed over a plain connection. -/
theorem write_identified_escaped :
    let client : Client := ⟨"http://127.0.0.1:8080/", "/api/1"⟩
    let c : Credential := ⟨"editor", by decide +kernel⟩
    let domain := "a\"\\\n\x01é"
    ∃ r, client.request? c (.write (.allow domain)) = some r ∧ r.method = .post ∧
      ∃ v, Json.parse? r.body = some v ∧ NamesDomain domain v := by
  intro client c domain
  obtain ⟨r, hr⟩ : ∃ r, client.request? c (.write (.allow domain)) = some r :=
    Option.isSome_iff_exists.mp (by decide +kernel)
  obtain ⟨_, hread, hsent⟩ := write_identified client
  obtain ⟨hmethod, _, hbody⟩ := hsent _ c r hr
  obtain ⟨v, hv, hsays⟩ := hread (.allow domain)
  exact ⟨r, hr, hmethod, v, hbody ▸ hv, hsays⟩

end Http

end FilterConsole
