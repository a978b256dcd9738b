import FilterConsole.Page
import FilterConsole.Proofs.LineFeeds
import FilterConsole.Wire

/-! The rows of a page. Every heading and every entry of a section has a row of its own, in the order of the sections; each
row is one line unless the name in it has line feeds. -/

namespace FilterConsole

namespace View

def names (v : View) : List String :=
  v.hits.map (·.domain) ++ v.cache.map (·.name) ++ v.latencies.keys ++ v.allowList.keys ++ v.overrides.keys

def size (v : View) : Nat :=
  v.hits.length + v.cache.length + v.latencies.size + v.allowList.size + v.overrides.size

def Starts (indent name row : String) : Prop := ∃ rest, row = indent ++ name ++ rest

/-- From the row `start` on, there is one row for each name in order, which starts with it. -/
def Lists (rows : List String) (start : Nat) (indent : String) (names : List String) : Prop :=
  ∀ k name, names[k]? = some name → ∃ row, rows[start + k]? = some row ∧ Starts indent name row

structure LaidOut (v : View) (rows : List String) : Prop where
  length : rows.length = 14 + v.size
  filter : ∃ row, rows[0]? = some row ∧ Starts "" "Filter: " row
  hits : Lists rows 2 "" (v.hits.map (·.domain))
  cacheCount : rows[3 + v.hits.length]? = some ("Cache: " ++ numeral v.cache.length ++ " entries")
  cache : Lists rows (4 + v.hits.length) "" (v.cache.map (·.name))
  resolversHeading : rows[5 + v.hits.length + v.cache.length]? = some "Resolvers:"
  resolvers : Lists rows (7 + v.hits.length + v.cache.length) "" v.latencies.keys
  allowedCount : rows[8 + v.hits.length + v.cache.length + v.latencies.size]? =
    some ("Allowed domains (" ++ numeral v.allowList.size ++ "):")
  allowed : Lists rows (9 + v.hits.length + v.cache.length + v.latencies.size) "  " v.allowList.keys
  overridesCount : rows[10 + v.hits.length + v.cache.length + v.latencies.size + v.allowList.size]? =
    some ("Overrides (" ++ numeral v.overrides.size ++ "):")
  overrides : Lists rows (11 + v.hits.length + v.cache.length + v.latencies.size + v.allowList.size) "  "
    v.overrides.keys
  schedule : ∃ row, rows[12 + v.size]? = some row ∧ Starts "" "Auto update: " row
  asOf : ∃ row, rows[13 + v.size]? = some row ∧ Starts "" "As of " row

section Rows

variable {rows before part names : List String} {indent name row : String} {start k n : Nat}

theorem getElem?_of_part (hrows : before ++ part <+: rows) (h : part[k]? = some row) (hn : n = before.length + k) :
    rows[n]? = some row := by
  obtain ⟨after, rfl⟩ := hrows
  have hk : k < part.length := (List.getElem?_eq_some_iff.mp h).1
  rw [hn, List.append_assoc, List.getElem?_append_right (Nat.le_add_right ..), Nat.add_sub_cancel_left,
    List.getElem?_append_left hk, h]

theorem Lists.of_part (h : Lists part start indent names) (hrows : before ++ part <+: rows)
    (hn : n = before.length + start) : Lists rows n indent names := by
  intro k name hname
  obtain ⟨row, hrow, hstarts⟩ := h k name hname
  exact ⟨row, getElem?_of_part hrows hrow (by omega), hstarts⟩

theorem lists_map {α : Type} {name row : α → String} (h : ∀ x, Starts indent (name x) (row x)) (headings : List String)
    (xs : List α) : Lists (headings ++ xs.map row) headings.length indent (xs.map name) := by
  intro k n hn
  obtain ⟨x, hx, rfl⟩ := Option.map_eq_some_iff.mp (List.getElem?_map.symm.trans hn)
  refine ⟨row x, ?_, h x⟩
  rw [List.getElem?_append_right (Nat.le_add_right ..), Nat.add_sub_cancel_left, List.getElem?_map, hx, Option.map_some]

theorem Starts.append (h : Starts indent name row) (more : String) : Starts indent name (row ++ more) := by
  obtain ⟨rest, rfl⟩ := h
  exact ⟨rest ++ more, by rw [String.append_assoc]⟩

theorem starts_indented (indent name : String) : Starts indent name (indent ++ name) :=
  ⟨"", by rw [String.append_empty]⟩

theorem starts_self (name : String) : Starts "" name name := ⟨"", by simp⟩

theorem starts_alignLeft (width : Nat) (name : String) : Starts "" name (alignLeft width name) := by
  refine ⟨.ofList (.replicate (width - name.toList.length) ' '), String.toList_inj.mp ?_⟩
  simp [alignLeft, List.rightpad]

theorem starts_hitLine (width : Nat) (domain count updated : String) :
    Starts "" domain (hitLine width domain count updated) :=
  ((((starts_alignLeft width domain).append _).append _).append _).append _

theorem starts_resolverLine (width : Nat) (resolver average samples : String) :
    Starts "" resolver (resolverLine width resolver average samples) :=
  ((((starts_alignLeft width resolver).append _).append _).append _).append _

end Rows

section Parts

variable (v : View)

theorem lists_filterLines : Lists v.filterLines 2 "" (v.hits.map (·.domain)) := by
  refine lists_map (fun h => ?_) [_, _] v.hits
  exact starts_hitLine _ h.domain _ _

theorem lists_cacheLines : Lists v.cacheLines 1 "" (v.cache.map (·.name)) := by
  refine lists_map (fun e => ?_) [_] v.cache
  exact ((starts_alignLeft _ e.name).append _).append _

theorem lists_resolverLines : Lists v.resolverLines 2 "" v.latencies.keys := by
  refine lists_map (fun e => ?_) [_, _] v.latencies.entries
  exact starts_resolverLine _ e.1 _ _

theorem lists_allowListLines : Lists v.allowListLines 1 "  " v.allowList.keys := by
  have h := lists_map (starts_indented "  ") ["Allowed domains (" ++ numeral v.allowList.size ++ "):"] v.allowList.keys
  rwa [List.map_id'] at h

theorem lists_overrideLines : Lists v.overrideLines 1 "  " v.overrides.keys := by
  refine lists_map (fun e => ?_) [_] v.overrides.entries
  exact ((starts_indented "  " e.1).append _).append _

@[simp]
theorem length_filterLines : v.filterLines.length = v.hits.length + 2 := by simp [filterLines]

@[simp]
theorem length_cacheLines : v.cacheLines.length = v.cache.length + 1 := by simp [cacheLines]

@[simp]
theorem length_resolverLines : v.resolverLines.length = v.latencies.size + 2 := by simp [resolverLines, Table.size]

@[simp]
theorem length_allowListLines : v.allowListLines.length = v.allowList.size + 1 := by
  simp [allowListLines, Table.keys, Table.size]

@[simp]
theorem length_overrideLines : v.overrideLines.length = v.overrides.size + 1 := by simp [overrideLines, Table.size]

theorem length_lines (asOf : Timestamp) : (v.lines asOf).length = 14 + v.size := by
  simp [lines, size]
  omega

end Parts

section LineFeeds

variable (v : View)

@[simp]
theorem lineFeeds_mark (o : HitOrder) (field : SortField) : lineFeeds (o.mark field) = 0 := by
  rw [HitOrder.mark]
  split
  · split <;> rfl
  · rfl

@[simp]
theorem lineFeeds_hitLine (width : Nat) (domain count updated : String) :
    lineFeeds (hitLine width domain count updated) = lineFeeds domain + lineFeeds count + lineFeeds updated := by
  simp only [hitLine, lineFeeds_append, lineFeeds_alignLeft, lineFeeds_alignRight]
  rfl

@[simp]
theorem lineFeeds_resolverLine (width : Nat) (resolver average samples : String) :
    lineFeeds (resolverLine width resolver average samples) =
      lineFeeds resolver + lineFeeds average + lineFeeds samples := by
  simp only [resolverLine, lineFeeds_append, lineFeeds_alignLeft, lineFeeds_alignRight]
  rfl

theorem lineFeeds_autoUpdateLine : lineFeeds v.autoUpdateLine = 0 := by
  rw [autoUpdateLine, lineFeeds_append]
  split
  · cases v.autoUpdate with
    | disabled => rfl
    | every seconds =>
      simp only [AutoUpdate.text, lineFeeds_append, lineFeeds_numeral]
      rfl
  · rfl

theorem lineFeeds_filterLines :
    lineFeeds (String.join v.filterLines) = lineFeeds (String.join (v.hits.map (·.domain))) := by
  have hheading :
      lineFeeds ("Filter: " ++ numeral v.filterSize.toNat ++ " domains, built " ++ v.filterCreatedAt.text) = 0 := by
    rw [lineFeeds_append, lineFeeds_counted rfl rfl, lineFeeds_timestamp]
  have hcolumns (width : Nat) : lineFeeds (hitLine width "Domain" ("Count" ++ v.order.mark .count)
      ("Last updated" ++ v.order.mark .updatedAt)) = 0 := by
    simp only [lineFeeds_hitLine, lineFeeds_append, lineFeeds_mark]
    rfl
  rw [filterLines, String.join_cons, lineFeeds_append, hheading, String.join_cons, lineFeeds_append, hcolumns,
    Nat.zero_add, Nat.zero_add]
  exact lineFeeds_join_map (fun h => by simp) v.hits

theorem lineFeeds_cacheLines :
    lineFeeds (String.join v.cacheLines) = lineFeeds (String.join (v.cache.map (·.name))) := by
  rw [cacheLines, String.join_cons, lineFeeds_append, lineFeeds_counted rfl rfl, Nat.zero_add]
  refine lineFeeds_join_map (fun e => ?_) v.cache
  simp only [lineFeeds_append, lineFeeds_alignLeft, lineFeeds_timestamp]
  rfl

theorem lineFeeds_resolverLines : lineFeeds (String.join v.resolverLines) = lineFeeds (String.join v.latencies.keys) := by
  have hheading : lineFeeds "Resolvers:" = 0 := rfl
  have hcolumns (width : Nat) : lineFeeds (resolverLine width "Resolver" "Avg (ms)" "Samples") = 0 := by
    rw [lineFeeds_resolverLine]
    rfl
  rw [resolverLines, String.join_cons, String.join_cons, lineFeeds_append, lineFeeds_append, hheading, hcolumns,
    Nat.zero_add, Nat.zero_add]
  exact lineFeeds_join_map (fun e => by simp) v.latencies.entries

theorem lineFeeds_allowListLines :
    lineFeeds (String.join v.allowListLines) = lineFeeds (String.join v.allowList.keys) := by
  have hrows := lineFeeds_join_map (fun name => (lineFeeds_append "  " name).trans (Nat.zero_add _)) v.allowList.keys
  rw [allowListLines, String.join_cons, lineFeeds_append, lineFeeds_counted rfl rfl, Nat.zero_add, hrows, List.map_id']

theorem lineFeeds_overrideLines :
    lineFeeds (String.join v.overrideLines) = lineFeeds (String.join v.overrides.keys) := by
  rw [overrideLines, String.join_cons, lineFeeds_append, lineFeeds_counted rfl rfl, Nat.zero_add]
  refine lineFeeds_join_map (fun e => ?_) v.overrides.entries
  simp only [lineFeeds_append, lineFeeds_address]
  exact Nat.zero_add _

/-- The line feeds within the rows of a page are those of its names. -/
theorem lineFeeds_lines (asOf : Timestamp) : lineFeeds (String.join (v.lines asOf)) = lineFeeds (String.join v.names) := by
  have hasOf : lineFeeds "As of " = 0 := rfl
  simp [lines, names, lineFeeds_filterLines, lineFeeds_cacheLines, lineFeeds_resolverLines, lineFeeds_allowListLines,
    lineFeeds_overrideLines, lineFeeds_autoUpdateLine, hasOf]

theorem length_linesOf_page (asOf : Timestamp) :
    (linesOf (v.page asOf)).length = 14 + v.size + lineFeeds (String.join v.names) := by
  rw [page, length_linesOf_rows, length_lines, lineFeeds_lines]

end LineFeeds

theorem laidOut_lines (v : View) (asOf : Timestamp) : v.LaidOut (v.lines asOf) := by
  -- Where a part of the page begins is known from the parts above it, each with an empty row behind it.
  have hfilter : [] ++ v.filterLines <+: v.lines asOf := by simp [lines]
  have hcache : v.filterLines ++ [""] ++ v.cacheLines <+: v.lines asOf := by simp [lines]
  have hresolvers : v.filterLines ++ [""] ++ v.cacheLines ++ [""] ++ v.resolverLines <+: v.lines asOf := by simp [lines]
  have hallowed : v.filterLines ++ [""] ++ v.cacheLines ++ [""] ++ v.resolverLines ++ [""] ++ v.allowListLines <+:
      v.lines asOf := by
    simp [lines]
  have hoverrides : v.filterLines ++ [""] ++ v.cacheLines ++ [""] ++ v.resolverLines ++ [""] ++ v.allowListLines ++
      [""] ++ v.overrideLines <+: v.lines asOf := by
    simp [lines]
  have htail : v.filterLines ++ [""] ++ v.cacheLines ++ [""] ++ v.resolverLines ++ [""] ++ v.allowListLines ++
      [""] ++ v.overrideLines ++ [""] ++ [v.autoUpdateLine, "As of " ++ asOf.text] <+: v.lines asOf := by
    simp [lines]
  have hstarts : Starts "" "Filter: " ("Filter: " ++ numeral v.filterSize.toNat ++ " domains, built " ++
      v.filterCreatedAt.text) := (((starts_self "Filter: ").append _).append _).append _
  exact {
    length := length_lines v asOf
    filter := ⟨_, getElem?_of_part (k := 0) hfilter rfl rfl, hstarts⟩
    hits := (lists_filterLines v).of_part hfilter rfl
    cacheCount := getElem?_of_part (k := 0) hcache rfl (by simp; omega)
    cache := (lists_cacheLines v).of_part hcache (by simp; omega)
    resolversHeading := getElem?_of_part (k := 0) hresolvers rfl (by simp; omega)
    resolvers := (lists_resolverLines v).of_part hresolvers (by simp; omega)
    allowedCount := getElem?_of_part (k := 0) hallowed rfl (by simp; omega)
    allowed := (lists_allowListLines v).of_part hallowed (by simp; omega)
    overridesCount := getElem?_of_part (k := 0) hoverrides rfl (by simp; omega)
    overrides := (lists_overrideLines v).of_part hoverrides (by simp; omega)
    schedule := ⟨_, getElem?_of_part (k := 0) htail rfl (by simp [size]; omega), (starts_self _).append _⟩
    asOf := ⟨_, getElem?_of_part (k := 1) htail rfl (by simp [size]; omega), (starts_self _).append _⟩ }

end View

/-- A page is its rows, each with a line feed behind it: a row for each entry and fourteen others. It has as many lines
as rows and as the names on it have line feeds together, and so its rows are its lines just if no name has one. The rows
of a section stand below its headings in the order of the section, each starts with its name, and as many are counted as
there are. -/
theorem page_lines (v : View) (asOf : Timestamp) :
    (∃ s, v.page asOf = s ++ "\n") ∧
      (linesOf (v.page asOf)).length = 14 + v.size + lineFeeds (String.join v.names) ∧
      ∃ rows, v.LaidOut rows ∧ linesOf (v.page asOf) = rows.flatMap linesWithin ∧
        (linesOf (v.page asOf) = rows ↔ ∀ name ∈ v.names, '\n' ∉ name.toList) := by
  refine ⟨?_, v.length_linesOf_page asOf, v.lines asOf, v.laidOut_lines asOf, linesOf_rows _, ?_⟩
  · exact exists_join_rows_eq (List.ne_nil_of_length_pos (by rw [View.length_lines]; omega))
  · rw [View.page, linesOf_rows_eq_iff, View.lineFeeds_lines, lineFeeds_join_eq_zero_iff]

/-- The service may allow a name with a line feed in it, which takes two lines. -/
theorem page_lines_allowed_name :
    ∃ names, (Json.parse? (utf8 "[\"a\\nb\"]") >>= Wire.allowList?) = some names ∧
      let v : View := ⟨⟨0, 0⟩, 0, [], ⟨.count, .asc⟩, [], ∅, names, ∅, .disabled⟩
      v.size = 1 ∧ (linesOf (v.page ⟨0, 0⟩)).length = 16 := by
  have hread : (Json.parse? (utf8 "[\"a\\nb\"]") >>= Wire.allowList?).map (·.entries) = some [("a\nb", ())] := by
    decide +kernel
  obtain ⟨names, hnames, hentries⟩ := Option.map_eq_some_iff.mp hread
  refine ⟨names, hnames, ?_⟩
  intro v
  have hsize : v.size = 1 := by
    change 0 + 0 + 0 + names.entries.length + 0 = 1
    rw [hentries]
    rfl
  have hfeeds : lineFeeds (String.join v.names) = 1 := by
    change lineFeeds (String.join (names.entries.map Prod.fst ++ [])) = 1
    rw [hentries]
    rfl
  exact ⟨hsize, by rw [View.length_linesOf_page, hsize, hfeeds]⟩

end FilterConsole
