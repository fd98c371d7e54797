import AccelProfile.Proofs.DocumentRows
import AccelProfile.Proofs.FiniteNumbers
import AccelProfile.Proofs.OneLineTexts
import AccelProfile.Proofs.PrettyTexts

/-!
# The texts of the document of a report

A document is an object of plain values and of objects of plain values, and no key comes twice in one
of them. So it is nothing that a reader would refuse or take for something else, and both of its texts
lay it out: read back, either is the document itself, with the order of its members and every character
of the name. The only values that would not come back are counts that do not fit the words of the
counters.
-/

namespace AccelProfile

namespace Json

mutual

/-- No key comes twice in an object of a value. -/
def DistinctKeys : Json → Prop
  | .arr items => DistinctKeysItems items
  | .obj members => (members.map Prod.fst).Nodup ∧ DistinctKeysMembers members
  | .null | .bool _ | .num _ | .str _ => True

/-- No key comes twice in an object of the items. -/
def DistinctKeysItems : List Json → Prop
  | [] => True
  | item :: others => DistinctKeys item ∧ DistinctKeysItems others

/-- No key comes twice in an object of the members. -/
def DistinctKeysMembers : List (String × Json) → Prop
  | [] => True
  | (_, value) :: others => DistinctKeys value ∧ DistinctKeysMembers others

end

theorem distinctKeysMembers_iff {members : List (String × Json)} :
    DistinctKeysMembers members ↔ ∀ member ∈ members, member.2.DistinctKeys := by
  induction members with
  | nil => simp [DistinctKeysMembers]
  | cons member others ih => simp [DistinctKeysMembers, ih]

/-- A value that is not too deep is read back from either of its texts, exactly if all its numbers read
back. -/
theorem parse_text_iff (isPretty : Bool) {json : Json} (shallow : json.depth ≤ nestingLimit) :
    Json.parse (json.text isPretty).toList = some json ↔ json.Readable := by
  constructor
  · exact readable_of_parse
  · intro readable
    have parsed := parse_laid (laid_text isPretty readable) blank_nil blank_nil shallow
    rwa [List.nil_append, List.append_nil] at parsed

end Json

namespace Metric

/-- A count within the words of the counters. Measures and texts have no bound. -/
def Fits : Metric → Prop
  | .int value => value ≤ maxWord
  | .float _ | .text _ => True

instance : DecidablePred Fits
  | .int value => inferInstanceAs (Decidable (value ≤ maxWord))
  | .float _ | .text _ => .isTrue trivial

theorem readable_toJson_iff (metric : Metric) : metric.toJson.Readable ↔ metric.Fits := by
  cases metric with
  | int value => exact Json.readable_ofNat_iff value
  | float value => exact iff_of_true (Json.readable_ofFloat value) trivial
  | text value => exact Iff.rfl

theorem depth_toJson (metric : Metric) : metric.toJson.depth = 0 := by
  cases metric with
  | int value => exact Json.depth_ofNat value
  | float value => exact Json.depth_ofFloat value
  | text value => rfl

theorem distinctKeys_toJson (metric : Metric) : metric.toJson.DistinctKeys := by
  cases metric with
  | int value => trivial
  | float value =>
    rw [toJson, Json.ofFloat]
    split <;> trivial
  | text value => trivial

end Metric

namespace Report

variable {key : String} {rows : List Row} {member : String × Json}

theorem mem_sectionMember_iff : member ∈ sectionMember key rows ↔
    rows ≠ [] ∧ member = (key, .obj (rows.map fun row => (row.key, row.value.toJson))) := by
  cases rows with
  | nil => simp [sectionMember]
  | cons first others => simp [sectionMember]

/-- The numbers of a section read back if its counts fit. -/
theorem readable_sectionMember_iff :
    (∀ member ∈ sectionMember key rows, member.2.Readable) ↔ ∀ row ∈ rows, row.value.Fits := by
  have ofRows : Json.ReadableMembers (rows.map fun row => (row.key, row.value.toJson)) ↔
      ∀ row ∈ rows, row.value.Fits := by
    simp only [Json.readableMembers_iff, List.forall_mem_map, Metric.readable_toJson_iff]
  rw [← ofRows]
  constructor
  · intro readable
    rcases List.eq_nil_or_concat rows with rfl | ⟨_, _, isConcat⟩
    · trivial
    · exact readable _ (mem_sectionMember_iff.2 ⟨by simp [isConcat], rfl⟩)
  · rintro readable member isMember
    obtain ⟨-, rfl⟩ := mem_sectionMember_iff.1 isMember
    exact readable

theorem depth_sectionMember_le (isMember : member ∈ sectionMember key rows) :
    member.2.depth ≤ 1 := by
  obtain ⟨-, rfl⟩ := mem_sectionMember_iff.1 isMember
  apply Nat.succ_le_succ
  rw [Json.depthMembers_le_iff, List.forall_mem_map]
  exact fun row _ => le_of_eq row.value.depth_toJson

theorem distinctKeys_sectionMember (distinct : (rows.map Row.key).Nodup)
    (isMember : member ∈ sectionMember key rows) : member.2.DistinctKeys := by
  obtain ⟨-, rfl⟩ := mem_sectionMember_iff.1 isMember
  constructor
  · rwa [List.map_map]
  · rw [Json.distinctKeysMembers_iff, List.forall_mem_map]
    exact fun row _ => row.value.distinctKeys_toJson

/-- Sections keep their order as members, and those without rows are left out. -/
theorem keys_sectionMember_sublist (sections : List (String × List Row)) :
    ((sections.flatMap fun (key, rows) => sectionMember key rows).map Prod.fst).Sublist
      (sections.map Prod.fst) := by
  induction sections with
  | nil => exact .slnil
  | cons head tail ih =>
    obtain ⟨key, rows⟩ := head
    cases rows with
    | nil => exact ih.cons key
    | cons first others => exact ih.cons_cons key

end Report

namespace Summary

open Report

/-- All numbers of a document read back exactly if all counts fit the words. -/
theorem readable_document_iff (summary : Summary) :
    summary.document.Readable ↔ ∀ row ∈ summary.rows, row.value.Fits := by
  have ofSections : Json.ReadableMembers
        (summary.sections.flatMap fun (key, rows) => sectionMember key rows) ↔
      ∀ row ∈ summary.sections.flatMap Prod.snd, row.value.Fits := by
    rw [Json.readableMembers_iff, List.forall_mem_flatMap, List.forall_mem_flatMap]
    exact forall₂_congr fun _ _ => readable_sectionMember_iff
  have titleFits : summary.titleRow.value.Fits := trivial
  rw [rows_eq_sections, List.forall_mem_cons, and_iff_right titleFits, ← ofSections, document_eq]
  -- the version and the name are texts, which read back in any case
  exact ⟨fun readable => readable.2.2, fun readable => ⟨trivial, trivial, readable⟩⟩

/-- The document is an object of plain values and of objects of these. -/
theorem depth_document_le (summary : Summary) : summary.document.depth ≤ 2 := by
  rw [document_eq]
  apply Nat.succ_le_succ
  rw [Json.depthMembers_le_iff, List.forall_mem_cons, List.forall_mem_cons,
    List.forall_mem_flatMap]
  exact ⟨Nat.zero_le 1, Nat.zero_le 1, fun _ _ _ inSection => depth_sectionMember_le inSection⟩

/-- No key comes twice in the document or in one of its sections. -/
theorem distinctKeys_document (summary : Summary) : summary.document.DistinctKeys := by
  rw [document_eq]
  constructor
  · have distinct : (versionKey :: "accelerator_name" :: summary.sections.map Prod.fst).Nodup := by
      rw [keys_sections]
      decide
    exact distinct.sublist ((keys_sectionMember_sublist _).cons_cons _ |>.cons_cons _)
  · rw [Json.distinctKeysMembers_iff, List.forall_mem_cons, List.forall_mem_cons,
      List.forall_mem_flatMap]
    refine ⟨trivial, trivial, fun ⟨key, rows⟩ isSection _ inSection => ?_⟩
    exact distinctKeys_sectionMember
      (summary.nodup_keys_of_mem_sections key rows isSection) inSection

/-- Either text of a document is read back as the document, exactly if all its counts fit the words of
the counters. The compact text is one line. In the document the name stands behind the version, and no
key comes twice in one object, so a reader that keeps one value for each key loses nothing. -/
theorem texts_denote_document (summary : Summary) :
    (∀ isPretty, Json.parse (summary.documentText isPretty).toList = some summary.document ↔
      ∀ row ∈ summary.rows, row.value.Fits) ∧
    '\n' ∉ (summary.documentText false).toList ∧
    (∃ members, summary.document = .obj ((versionKey, .str version) ::
      ("accelerator_name", .str summary.acceleratorName) :: members)) ∧
    summary.document.DistinctKeys := by
  refine ⟨fun isPretty => ?_, ?_, ⟨_, summary.document_eq⟩, summary.distinctKeys_document⟩
  · have shallow : summary.document.depth ≤ nestingLimit :=
      Nat.le_trans summary.depth_document_le (by decide)
    exact (Json.parse_text_iff isPretty shallow).trans summary.readable_document_iff
  · rw [documentText, Json.toList_text]
    exact Json.lineFeed_notMem_compact summary.document

example : ∀ row ∈ Summary.rows { empty with acceleratorName := "\"\\\n" }, row.value.Fits := by
  decide +kernel

end Summary

end AccelProfile
