import FilterConsole.Proofs.Trimming
import FilterConsole.Proofs.WriteRequest

/-! Addresses of resources. Blanks around the base address and the path below it make no difference, nor do slashes
where they are joined: one slash stands at each joint, however many there were. -/

namespace FilterConsole.Http

def slashes (n : Nat) : String := .ofList (.replicate n '/')

/-- The text `s` without the slashes at its end. -/
structure IsStem (stem s : String) : Prop where
  slashes : ∃ n, s = stem ++ slashes n
  bare : ∀ c ∈ stem.toList.getLast?, isSlash c = false

/-- The text `s` without the slashes at either end. -/
structure IsCore (core s : String) : Prop where
  slashes : ∃ m n, s = slashes m ++ core ++ slashes n
  bare : Trimmed isSlash core.toList

structure Joint (left right address : String) : Prop where
  joined : address = left ++ "/" ++ right
  left : ∀ c ∈ left.toList.getLast?, isSlash c = false
  right : ∀ c ∈ right.toList.head?, isSlash c = false

section Slashes

variable {cs : List Char} {n : Nat} {base path : String}

theorem mem_slashes : ∀ c ∈ (slashes n).toList, isSlash c = true := by
  intro c hc
  rw [slashes, String.toList_ofList] at hc
  rw [List.eq_of_mem_replicate hc]
  rfl

theorem not_isBlank_of_mem_slashes : ∀ c ∈ (slashes n).toList, isBlank c = false := by
  intro c hc
  obtain rfl : c = '/' := by simpa [isSlash] using mem_slashes c hc
  decide

theorem ofList_eq_slashes (h : ∀ c ∈ cs, isSlash c = true) : String.ofList cs = slashes cs.length := by
  have hcs : cs = .replicate cs.length '/' := List.eq_replicate_iff.mpr ⟨rfl, by simpa [isSlash] using h⟩
  rw [slashes, ← hcs]

theorem isStem_stripEnd (base : String) : IsStem (.ofList (stripEnd isSlash base.toList)) base := by
  obtain ⟨v, hv, hbase⟩ := exists_eq_stripEnd_append isSlash base.toList
  refine ⟨⟨v.length, String.toList_inj.mp ?_⟩, ?_⟩
  · rw [← ofList_eq_slashes hv, String.toList_append, String.toList_ofList, String.toList_ofList, ← hbase]
  · rw [String.toList_ofList]
    exact getLast?_stripEnd isSlash base.toList

theorem isCore_strip (path : String) : IsCore (.ofList (strip isSlash path.toList)) path := by
  obtain ⟨u, v, hu, hv, hpath⟩ := exists_eq_append_strip_append isSlash path.toList
  refine ⟨⟨u.length, v.length, String.toList_inj.mp ?_⟩, ?_⟩
  · rw [← ofList_eq_slashes hu, ← ofList_eq_slashes hv]
    simpa using hpath
  · rw [String.toList_ofList]
    exact trimmed_strip isSlash path.toList

theorem strip_padded {s u v : String} (hs : Trimmed isBlank s.toList) (hu : Blank u) (hv : Blank v) :
    strip isBlank (u ++ s ++ v).toList = s.toList := by
  rw [String.toList_append, String.toList_append]
  exact strip_append hu hv hs

theorem trimmed_base (h : Trimmed isBlank base.toList) (i : Nat) : Trimmed isBlank (base ++ slashes i).toList := by
  have hsurround := h.surround (u := []) nofun (not_isBlank_of_mem_slashes (n := i))
  rwa [List.nil_append, ← String.toList_append] at hsurround

theorem trimmed_path (h : Trimmed isBlank path.toList) (j k : Nat) :
    Trimmed isBlank (slashes j ++ path ++ slashes k).toList := by
  rw [String.toList_append, String.toList_append]
  exact h.surround not_isBlank_of_mem_slashes not_isBlank_of_mem_slashes

end Slashes

section Address

variable {base path : String} {u v w x : String}

theorem apiRoot_trimmed (hbase : Trimmed isBlank base.toList) (hpath : Trimmed isBlank path.toList) :
    apiRoot base path =
      let stem := String.ofList (stripEnd isSlash base.toList)
      let core := String.ofList (strip isSlash path.toList)
      if core = "" then stem else stem ++ "/" ++ core := by
  rw [apiRoot, strip_eq_self hbase, strip_eq_self hpath]
  dsimp only
  by_cases hcore : strip isSlash path.toList = []
  · simp [hcore]
  · rw [if_neg (by simpa using hcore), if_neg (by simpa using hcore), ← String.toList_inj]
    simp

/-- Blanks and slashes are dropped before the parts are joined. -/
theorem apiRoot_ragged (hbase : Trimmed isBlank base.toList) (hpath : Trimmed isBlank path.toList) (hu : Blank u)
    (hv : Blank v) (hw : Blank w) (hx : Blank x) (i j k : Nat) :
    apiRoot (u ++ base ++ slashes i ++ v) (w ++ slashes j ++ path ++ slashes k ++ x) = apiRoot base path := by
  have hstem : stripEnd isSlash (base ++ slashes i).toList = stripEnd isSlash base.toList := by
    rw [String.toList_append]
    exact stripEnd_append_of_forall mem_slashes
  have hcore : strip isSlash (slashes j ++ path ++ slashes k).toList = strip isSlash path.toList := by
    rw [String.toList_append, String.toList_append]
    exact strip_append_of_forall mem_slashes mem_slashes
  have hleft : u ++ base ++ slashes i ++ v = u ++ (base ++ slashes i) ++ v := by simp only [String.append_assoc]
  have hright : w ++ slashes j ++ path ++ slashes k ++ x = w ++ (slashes j ++ path ++ slashes k) ++ x := by
    simp only [String.append_assoc]
  rw [hleft, hright, apiRoot, strip_padded (trimmed_base hbase i) hu hv, strip_padded (trimmed_path hpath j k) hw hx,
    hstem, hcore, apiRoot, strip_eq_self hbase, strip_eq_self hpath]

theorem not_isSlash_of_mem_name (e : Endpoint) : ∀ c ∈ e.name.toList, isSlash c = false := by
  cases e <;> simp [Endpoint.name, isSlash]

theorem head?_name (e : Endpoint) : ∀ c ∈ e.name.toList.head?, isSlash c = false :=
  fun c hc => not_isSlash_of_mem_name e c (List.mem_of_mem_head? hc)

theorem IsCore.head?_append {core : String} (h : IsCore core path) (hne : core ≠ "") (s : String) :
    ∀ c ∈ (core ++ s).toList.head?, isSlash c = false := by
  rw [String.toList_append, List.head?_append_of_ne_nil _ (by simpa using hne)]
  exact h.bare.1

theorem IsCore.getLast?_append {core : String} (h : IsCore core path) (hne : core ≠ "") (s : String) :
    ∀ c ∈ (s ++ core).toList.getLast?, isSlash c = false := by
  rw [String.toList_append, List.getLast?_append_of_ne_nil _ (by simpa using hne)]
  exact h.bare.2

/-- With nothing between the stem and the name there is one joint. -/
theorem joint_stem {stem : String} (hstem : IsStem stem base) (e : Endpoint) :
    Joint stem e.name (stem ++ "/" ++ e.name) :=
  ⟨rfl, hstem.bare, head?_name e⟩

theorem joints_core {stem core : String} (hstem : IsStem stem base) (hcore : IsCore core path) (hne : core ≠ "")
    (e : Endpoint) :
    Joint stem (core ++ "/" ++ e.name) (stem ++ "/" ++ core ++ "/" ++ e.name) ∧
      Joint (stem ++ "/" ++ core) e.name (stem ++ "/" ++ core ++ "/" ++ e.name) := by
  refine ⟨⟨by simp only [String.append_assoc], hstem.bare, ?_⟩, ⟨rfl, hcore.getLast?_append hne _, head?_name e⟩⟩
  rw [String.append_assoc]
  exact hcore.head?_append hne _

end Address

/-- The address of a resource is made of the stem of the base address, the core of the path below it if it has one, and
the name, with a slash before each part but the first; the resources' own names have no slash, so each joint has one.
Blanks around the settings and more slashes at their ends change neither an address nor a request. Addresses with
different names differ. -/
theorem address_joins (base path : String) (hbase : Trimmed isBlank base.toList) (hpath : Trimmed isBlank path.toList) :
    (∀ u v w x : String, Blank u → Blank v → Blank w → Blank x → ∀ i j k : Nat,
      let base' := u ++ base ++ slashes i ++ v
      let path' := w ++ slashes j ++ path ++ slashes k ++ x
      (∀ name, address base' path' name = address base path name) ∧
        ∀ c call, Client.request? ⟨base', path'⟩ c call = Client.request? ⟨base, path⟩ c call) ∧
    (∃ stem core, IsStem stem base ∧ IsCore core path ∧
      (core = "" → (∀ name, address base path name = stem ++ "/" ++ name) ∧
        ∀ e : Endpoint, Joint stem e.name (address base path e.name)) ∧
      (core ≠ "" → (∀ name, address base path name = stem ++ "/" ++ core ++ "/" ++ name) ∧
        ∀ e : Endpoint, Joint stem (core ++ "/" ++ e.name) (address base path e.name) ∧
          Joint (stem ++ "/" ++ core) e.name (address base path e.name))) ∧
    (∀ name name', address base path name = address base path name' → name = name') ∧
    ∀ e e' : Endpoint, address base path e.name = address base path e'.name → e = e' := by
  have hroot := apiRoot_trimmed hbase hpath
  have hstem := isStem_stripEnd base
  have hcore := isCore_strip path
  refine ⟨fun u v w x hu hv hw hx i j k => ?_, ⟨_, _, hstem, hcore, fun hnil => ?_, fun hne => ?_⟩,
    fun name name' => address_injective, fun e e' h => Endpoint.name_injective (address_injective h)⟩
  · have hragged := apiRoot_ragged hbase hpath hu hv hw hx i j k
    constructor
    · intro name
      rw [address, hragged, address]
    · intro c call
      rw [Client.request?, address, hragged]
      rfl
  · have haddress : ∀ name, address base path name = .ofList (stripEnd isSlash base.toList) ++ "/" ++ name := by
      intro name
      rw [address, hroot]
      dsimp only
      rw [if_pos hnil]
    exact ⟨haddress, fun e => (haddress e.name).symm ▸ joint_stem hstem e⟩
  · have haddress : ∀ name, address base path name = .ofList (stripEnd isSlash base.toList) ++ "/" ++
        .ofList (strip isSlash path.toList) ++ "/" ++ name := by
      intro name
      rw [address, hroot]
      dsimp only
      rw [if_neg hne]
    exact ⟨haddress, fun e => (haddress e.name).symm ▸ joints_core hstem hcore hne e⟩

/-- Blanks of more than one byte, and slashes at every end. -/
theorem address_joins_ragged :
    let base := "http://dns.lan:8080/filter"
    let path := "/api/1"
    Trimmed isBlank base.toList ∧ Trimmed isBlank path.toList ∧ Blank "\u3000\t" ∧ Blank "\u2028" ∧
      address ("\u3000\t" ++ base ++ slashes 2 ++ "\u2028") ("\u2028" ++ slashes 1 ++ path ++ slashes 3 ++ "\u3000\t")
        "cache" = "http://dns.lan:8080/filter/api/1/cache" ∧
      address base path "cache" ≠ address base path "filter" := by
  intro base path
  have hbase : Trimmed isBlank base.toList := trimmed_of_forall (by simp [base, isBlank])
  have hpath : Trimmed isBlank path.toList := trimmed_of_forall (by simp [path, isBlank])
  have hwide : Blank "\u3000\t" := by simp [Blank, isBlank]
  have hline : Blank "\u2028" := by simp [Blank, isBlank]
  obtain ⟨hragged, -, hnames, -⟩ := address_joins base path hbase hpath
  have haddress := (hragged "\u3000\t" "\u2028" "\u2028" "\u3000\t" hwide hline hline hwide 2 1 3).1 "cache"
  refine ⟨hbase, hpath, hwide, hline, haddress.trans (by decide +kernel), fun h => ?_⟩
  exact absurd (hnames "cache" "filter" h) (by decide)

end FilterConsole.Http
