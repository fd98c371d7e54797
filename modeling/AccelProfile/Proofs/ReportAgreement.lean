import AccelProfile.Proofs.DocumentRows
import AccelProfile.Proofs.LaidTexts
import AccelProfile.Proofs.TableRecords

/-!
# The document and the table of a report agree

A report is written in two forms, and a reader of either one finds the rows of the summary
there, each under its own name and in the order of the rows. What stands for a row in one
form is worth the same as what stands for it in the other: the digits of a count, the
characters of a text, and the very double of a measure, although the two forms spell doubles
differently. Only a measure that is not finite has no value in the document; it is null
there.
-/

namespace AccelProfile

/-- A value of a document and a column of a table stand for the same metric. -/
def Metric.Shared : Metric → Json → List Char → Prop
  | .int count, member, column =>
    member = .num (.int count) ∧ member.compact = column ∧ column = Nat.toDigits 10 count
  | .text value, member, column => member = .str value ∧ column = value.toList
  | .float value, member, column =>
    if value.isFinite then
      Json.parse member.compact = some (.num (.float value)) ∧ Decimal.read? column = some value
    else member = .null

/-- What a document and a table hold in the place of a metric stands for it. -/
theorem Metric.shared (metric : Metric) : metric.Shared metric.toJson metric.display := by
  cases metric with
  | int count =>
    refine ⟨rfl, ?_, rfl⟩
    simp [Metric.toJson, Json.ofNat, Json.compact, Number.text, Metric.display]
  | text value => exact ⟨rfl, rfl⟩
  | float value =>
    by_cases finite : value.isFinite = true
    · have member : (Metric.float value).toJson = .num (.float value) := by
        rw [Metric.toJson, Json.ofFloat, if_pos finite]
      have readable : (Json.num (.float value)).Readable := finite
      rw [Metric.Shared, if_pos finite, member]
      exact ⟨Json.parse_compact readable (Nat.zero_le _), Decimal.read?_reportText finite⟩
    · rw [Metric.Shared, if_neg finite, Metric.toJson, Json.ofFloat, if_neg finite]

open Report

/-- The names of the rows are distinct. Behind its version, the document holds one value for
each row, under the section and the key of the row and in the order of the rows; the table
holds one record for each row in the same order; and the two stand for the same metric. -/
theorem Summary.document_and_table_agree (summary : Summary) :
    (summary.rows.map Row.name).Nodup ∧
      (∃ members, summary.document = .obj ((versionKey, .str version) :: members) ∧
        flatten members = summary.rows.map fun row =>
          (row.group.key?, row.key, row.value.toJson)) ∧
      records (table summary.rows) =
        ["metric".toList, "value".toList] ::
          summary.rows.map (fun row => [row.name.toList, row.value.display]) ∧
      ∀ row ∈ summary.rows, row.value.Shared row.value.toJson row.value.display :=
  ⟨summary.nodup_names_rows, summary.document_rows, summary.records_table,
    fun row _ => row.value.shared⟩

end AccelProfile
