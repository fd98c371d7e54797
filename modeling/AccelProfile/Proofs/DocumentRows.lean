import Mathlib.Data.List.Induction
import AccelProfile.Proofs.RowNames
import AccelProfile.Report.Document

/-!
# The rows of a document

Putting rows into a document overwrites nothing and moves nothing. The rows of a report come
section by section, so the object of a section is always the last member of the document
while its rows come in; and no key comes twice in a section, so each row adds a member at
the end of that object. Read in its own order, the document gives back the rows.
-/

namespace AccelProfile

namespace FirstSeen

variable {κ α : Type} [DecidableEq κ]

/-- A key that is not there joins at the end. -/
theorem updateEntries_of_notMem {key : κ} (change : Option α → α) {entries : List (κ × α)}
    (fresh : key ∉ entries.map Prod.fst) :
    updateEntries key change entries = entries ++ [(key, change none)] := by
  induction entries with
  | nil => rfl
  | cons head tail ih =>
    obtain ⟨first, value⟩ := head
    rw [List.map_cons, List.mem_cons, not_or] at fresh
    obtain ⟨other, freshTail⟩ := fresh
    rw [updateEntries, if_neg (Ne.symm other), ih freshTail, List.cons_append]

/-- A change to the last entry leaves those in front of it alone. -/
theorem updateEntries_concat {key : κ} (change : Option α → α) {entries : List (κ × α)}
    (fresh : key ∉ entries.map Prod.fst) (value : α) :
    updateEntries key change (entries ++ [(key, value)]) =
      entries ++ [(key, change (some value))] := by
  induction entries with
  | nil => simp [updateEntries]
  | cons head tail ih =>
    obtain ⟨first, found⟩ := head
    rw [List.map_cons, List.mem_cons, not_or] at fresh
    obtain ⟨other, freshTail⟩ := fresh
    rw [List.cons_append, updateEntries, if_neg (Ne.symm other), ih freshTail, List.cons_append]

end FirstSeen

namespace Section

/-- The name of a row by its section and its key. -/
def nameOf (group : Section) (key : String) : String :=
  match group with
  | .pathByOpcode => Dataflow.opcodePrefix ++ key
  | .units => "fu_" ++ key
  | .cycles => "cycle_" ++ key
  | .stalls => if key ∈ StallCause.all.map StallCause.name then "stall_" ++ key else key
  | _ => key

/-- All rows belong to a section and are named after their keys. -/
def Owns (group : Section) (rows : List Row) : Prop :=
  ∀ row ∈ rows, row.group = group ∧ row.name = group.nameOf row.key

theorem Owns.append {group : Section} {left right : List Row} (ownsLeft : group.Owns left)
    (ownsRight : group.Owns right) : group.Owns (left ++ right) := by
  intro row member
  rcases List.mem_append.1 member with inLeft | inRight
  · exact ownsLeft row inLeft
  · exact ownsRight row inRight

/-- Rows of one section with distinct names have distinct keys. -/
theorem Owns.nodup_keys {group : Section} {rows : List Row} (owns : group.Owns rows)
    (distinct : (rows.map Row.name).Nodup) : (rows.map Row.key).Nodup := by
  have named : rows.map Row.name = (rows.map Row.key).map group.nameOf := by
    rw [List.map_map]
    apply List.map_congr_left
    intro row member
    exact (owns row member).2
  rw [named] at distinct
  exact distinct.of_map

end Section

theorem Dataflow.owns_opcodeRows (dataflow : Dataflow) :
    Section.pathByOpcode.Owns dataflow.opcodeRows := by
  intro row member
  obtain ⟨⟨opcode, count⟩, _, rfl⟩ := List.mem_map.1 member
  exact ⟨rfl, rfl⟩

theorem FuCounters.owns_rows (counters : FuCounters) (fu : FuClass) (totalCycles : Nat) :
    Section.units.Owns (counters.rows fu totalCycles) := by
  simp [Section.Owns, rows, Row.underPrefix, Section.nameOf]

theorem FuUsage.owns_rows (usage : FuUsage) (totalCycles : Nat) :
    Section.units.Owns (usage.rows totalCycles) := by
  apply Section.Owns.append
  · simp [Section.Owns, Row.underPrefix, Section.nameOf]
  · intro row member
    obtain ⟨⟨fu, counters⟩, _, inside⟩ := List.mem_flatMap.1 member
    exact counters.owns_rows fu totalCycles row inside

/-- The name of a cause is its key behind the prefix of the section, that of a streak is its
key as it is. -/
theorem StallBreakdown.owns_rows (stalls : StallBreakdown) : Section.stalls.Owns stalls.rows := by
  apply Section.Owns.append
  · intro row member
    obtain ⟨⟨cause, count⟩, _, rfl⟩ := List.mem_map.1 member
    have isCause : cause.name ∈ StallCause.all.map StallCause.name := by
      cases cause <;> decide
    exact ⟨rfl, (if_pos isCause).symm⟩
  · have noCause : ∀ key ∈ ["total_stall_cycles", "max_consecutive_stalls", "stall_events",
        "avg_stall_duration", "dominant_bottleneck"], Section.stalls.nameOf key = key := by
      decide
    simp only [List.forall_mem_cons] at noCause
    simp [Section.Owns, Row.plain, noCause]

namespace Summary

/-- Each section has its own rows. -/
theorem sections_owned (summary : Summary) {key : String} {rows : List Row}
    (isSection : (key, rows) ∈ summary.sections) :
    ∃ group : Section, group.key? = some key ∧ group.Owns rows := by
  simp only [sections, List.mem_cons, Prod.mk.injEq, List.not_mem_nil, or_false] at isSection
  rcases isSection with ⟨rfl, rfl⟩ | ⟨rfl, rfl⟩ | ⟨rfl, rfl⟩ | ⟨rfl, rfl⟩ | ⟨rfl, rfl⟩ |
    ⟨rfl, rfl⟩ | ⟨rfl, rfl⟩ | ⟨rfl, rfl⟩ | ⟨rfl, rfl⟩ | ⟨rfl, rfl⟩
  · exact ⟨.performance, rfl, by simp [Section.Owns, Performance.rows, Row.plain, Section.nameOf]⟩
  · exact ⟨.memoryAccess, rfl, by
      simp [Section.Owns, MemoryTraffic.rows, Row.plain, Section.nameOf]⟩
  · exact ⟨.bandwidth, rfl, by
      simp [Section.Owns, MemoryTraffic.bandwidthRows, Row.plain, Section.nameOf]⟩
  · exact ⟨.dataflow, rfl, by simp [Section.Owns, Dataflow.rows, Row.plain, Section.nameOf]⟩
  · exact ⟨.pathByOpcode, rfl, summary.dataflow.owns_opcodeRows⟩
  · exact ⟨.units, rfl, summary.units.owns_rows _⟩
  · exact ⟨.power, rfl, by simp [Section.Owns, Power.rows, Row.plain, Section.nameOf]⟩
  · exact ⟨.area, rfl, by simp [Section.Owns, Area.rows, Row.plain, Section.nameOf]⟩
  · exact ⟨.stalls, rfl, summary.stalls.owns_rows⟩
  · refine ⟨.cycles, rfl, ?_⟩
    cases summary.cycles with
    | none => simp [Section.Owns]
    | some cycles => simp [Section.Owns, CycleSummary.rows, Row.underPrefix, Section.nameOf]

end Summary

namespace Report

/-- Where the value of a row stands in a document, and the value. -/
def cell (row : Row) : Option String × String × Json :=
  (row.group.key?, row.key, row.value.toJson)

/-- The values of a document in its own order, each with the key of its section, if it
stands in one, and its key. -/
def flatten (members : List (String × Json)) : List (Option String × String × Json) :=
  members.flatMap fun (key, value) =>
    match value with
    | .obj inner => inner.map fun (innerKey, innerValue) => (some key, innerKey, innerValue)
    | value => [(none, key, value)]

/-- The member of a section: an object of its rows, and none if it has no rows. -/
def sectionMember (key : String) : List Row → List (String × Json)
  | [] => []
  | rows => [(key, .obj (rows.map fun row => (row.key, row.value.toJson)))]

/-- The rows of a section that has no object yet become one object at the end. -/
theorem entries_foldl_section {root : FirstSeen String Json} {key : String} {rows : List Row}
    (inSection : ∀ row ∈ rows, row.group.key? = some key) (fresh : key ∉ root.keys)
    (distinct : (rows.map Row.key).Nodup) :
    (rows.foldl insertRow root).entries = root.entries ++ sectionMember key rows := by
  induction rows using List.reverseRecOn with
  | nil => simp [sectionMember]
  | append_singleton front row ih =>
    have inFront : ∀ row ∈ front, row.group.key? = some key := fun row member =>
      inSection row (List.mem_append_left _ member)
    have ofRow : row.group.key? = some key := inSection row (by simp)
    rw [List.map_append, List.nodup_append] at distinct
    obtain ⟨distinctFront, _, apart⟩ := distinct
    have entries := ih inFront distinctFront
    rw [List.foldl_append, List.foldl_cons, List.foldl_nil, insertRow, ofRow]
    change FirstSeen.updateEntries key _ (front.foldl insertRow root).entries = _
    rw [entries]
    cases front with
    | nil =>
      rw [sectionMember, List.append_nil, FirstSeen.updateEntries_of_notMem _ fresh]
      rfl
    | cons first others =>
      have freshKey : row.key ∉ ((first :: others).map fun row =>
          (row.key, row.value.toJson)).map Prod.fst := by
        rw [List.map_map]
        intro member
        exact apart row.key member row.key (by simp) rfl
      rw [sectionMember, FirstSeen.updateEntries_concat _ fresh]
      · simp only [Option.getD_some, insertMember]
        rw [FirstSeen.updateEntries_of_notMem _ freshKey]
        simp [sectionMember]
      · simp

/-- Sections whose rows come one section after the other become one object each, in the
order of the sections. -/
theorem entries_foldl_sections (root : FirstSeen String Json) (sections : List (String × List Row))
    (inSection : ∀ key rows, (key, rows) ∈ sections → ∀ row ∈ rows, row.group.key? = some key)
    (distinctKeys : ∀ key rows, (key, rows) ∈ sections → (rows.map Row.key).Nodup)
    (distinct : (sections.map Prod.fst).Nodup)
    (fresh : ∀ key ∈ sections.map Prod.fst, key ∉ root.keys) :
    ((sections.flatMap Prod.snd).foldl insertRow root).entries =
      root.entries ++ sections.flatMap fun (key, rows) => sectionMember key rows := by
  induction sections generalizing root with
  | nil => simp
  | cons head tail ih =>
    obtain ⟨key, rows⟩ := head
    rw [List.map_cons, List.nodup_cons] at distinct
    have ofHead := entries_foldl_section (inSection key rows List.mem_cons_self)
      (fresh key (by simp)) (distinctKeys key rows List.mem_cons_self)
    rw [List.flatMap_cons, List.foldl_append, ih]
    · rw [ofHead, List.flatMap_cons, List.append_assoc]
    · intro key rows member
      exact inSection key rows (List.mem_cons_of_mem _ member)
    · intro key rows member
      exact distinctKeys key rows (List.mem_cons_of_mem _ member)
    · exact distinct.2
    · intro other inTail
      rw [FirstSeen.keys, ofHead, List.map_append, List.mem_append]
      rintro (old | new)
      · exact fresh other (List.mem_cons_of_mem _ inTail) old
      · cases rows with
        | nil => simp [sectionMember] at new
        | cons row rows =>
          have same : other = key := by simpa [sectionMember] using new
          exact distinct.1 (same ▸ inTail)

theorem flatten_append (front back : List (String × Json)) :
    flatten (front ++ back) = flatten front ++ flatten back :=
  List.flatMap_append

/-- The object of a section gives back its rows. -/
theorem flatten_sectionMember {key : String} {rows : List Row}
    (inSection : ∀ row ∈ rows, row.group.key? = some key) :
    flatten (sectionMember key rows) = rows.map cell := by
  cases rows with
  | nil => rfl
  | cons first others =>
    have cells : flatten (sectionMember key (first :: others)) =
        (first :: others).map fun row => (some key, row.key, row.value.toJson) := by
      simp [sectionMember, flatten]
    rw [cells]
    apply List.map_congr_left
    intro row member
    rw [cell, inSection row member]

/-- The objects of sections give back their rows, section after section. -/
theorem flatten_sections (sections : List (String × List Row))
    (inSection : ∀ key rows, (key, rows) ∈ sections →
      ∀ row ∈ rows, row.group.key? = some key) :
    flatten (sections.flatMap fun (key, rows) => sectionMember key rows) =
      (sections.flatMap Prod.snd).map cell := by
  induction sections with
  | nil => rfl
  | cons head tail ih =>
    obtain ⟨key, rows⟩ := head
    have ofHead := flatten_sectionMember (inSection key rows List.mem_cons_self)
    have ofTail := ih fun key rows member => inSection key rows (List.mem_cons_of_mem _ member)
    rw [List.flatMap_cons, flatten_append, ofHead, ofTail, List.flatMap_cons, List.map_append]

/-- A document that has the version and the title row only. -/
theorem entries_insertRow_titleRow (summary : Summary) :
    (insertRow heading summary.titleRow).entries =
      [(versionKey, .str version), ("accelerator_name", .str summary.acceleratorName)] :=
  FirstSeen.updateEntries_of_notMem _ (by
    change "accelerator_name" ∉ [versionKey]
    decide)

end Report

namespace Summary

open Report

/-- The rows of a section lead to that section. -/
theorem key?_of_mem_sections (summary : Summary) (key : String) (rows : List Row)
    (isSection : (key, rows) ∈ summary.sections) : ∀ row ∈ rows, row.group.key? = some key := by
  obtain ⟨group, isKey, owns⟩ := summary.sections_owned isSection
  intro row member
  rw [(owns row member).1]
  exact isKey

/-- No key comes twice in a section. -/
theorem nodup_keys_of_mem_sections (summary : Summary) (key : String) (rows : List Row)
    (isSection : (key, rows) ∈ summary.sections) : (rows.map Row.key).Nodup := by
  obtain ⟨group, _, owns⟩ := summary.sections_owned isSection
  apply owns.nodup_keys
  have inRows : rows.Sublist summary.rows := by
    rw [rows_eq_sections]
    apply List.Sublist.cons
    exact List.sublist_flatten_of_mem (List.mem_map_of_mem isSection)
  exact summary.nodup_names_rows.sublist (inRows.map Row.name)

theorem keys_sections (summary : Summary) : summary.sections.map Prod.fst =
    ["performance", "memory_access", "bandwidth", "dataflow", "critical_path_by_opcode",
      "fu_utilization", "power", "area", "stall_breakdown", "cycle_summary"] := rfl

/-- The document of a summary: the version, the name, and an object for each section with rows. -/
theorem document_eq (summary : Summary) :
    summary.document = .obj ((versionKey, .str version) ::
      ("accelerator_name", .str summary.acceleratorName) ::
      summary.sections.flatMap fun (key, rows) => sectionMember key rows) := by
  have entries := entries_foldl_sections (insertRow heading summary.titleRow) summary.sections
    summary.key?_of_mem_sections summary.nodup_keys_of_mem_sections
    (by rw [keys_sections]; decide)
    (by
      rw [keys_sections, FirstSeen.keys, entries_insertRow_titleRow]
      change ∀ key ∈ _, key ∉ [versionKey, "accelerator_name"]
      decide)
  rw [entries_insertRow_titleRow] at entries
  rw [Summary.document, Report.document, rows_eq_sections, List.foldl_cons, entries]
  rfl

/-- Behind its version, a document holds the value of each row under the section and the key
of the row, in the order of the rows, and nothing else. -/
theorem document_rows (summary : Summary) :
    ∃ members, summary.document = .obj ((versionKey, .str version) :: members) ∧
      flatten members = summary.rows.map cell := by
  refine ⟨_, summary.document_eq, ?_⟩
  have sections := flatten_sections summary.sections summary.key?_of_mem_sections
  rw [rows_eq_sections, List.map_cons, ← sections]
  rfl

end Summary

end AccelProfile
