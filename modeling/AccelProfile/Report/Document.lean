import AccelProfile.FirstSeen
import AccelProfile.Json.Printer
import AccelProfile.Summary.Rows
/-!
# The JSON document of a report

The rows of a summary as one object: the version of the format, what the report is about,
and an object for each section that has rows. The document is put together row by row. A
section gets its object when its first row comes, and all its rows go into that object; a
row under a key that is taken replaces the value that was there.
-/

namespace AccelProfile.Report

/-- The version of the format. -/
def version : String := "2.0"

/-- The key of the version. -/
def versionKey : String := "version"

/-- Puts a member into an object: under its key if that is taken, and at the end if not. A
    value that is no object stays as it is. -/
def insertMember (key : String) (value : Json) : Json → Json
  | .obj members => .obj (FirstSeen.updateEntries key (fun _ => value) members)
  | other => other

/-- Puts a row into a document, at its top or into the object of its section. -/
def insertRow (root : FirstSeen String Json) (row : Row) : FirstSeen String Json :=
  match row.group.key? with
  | none => root.update row.key fun _ => row.value.toJson
  | some key =>
    root.update key fun known => insertMember row.key row.value.toJson (known.getD (.obj []))

/-- A document without rows. -/
def heading : FirstSeen String Json :=
  FirstSeen.empty.update versionKey fun _ => .str version

/-- The document of a list of rows. -/
def document (rows : List Row) : Json :=
  .obj (rows.foldl insertRow heading).entries

end AccelProfile.Report

namespace AccelProfile.Summary

/-- The JSON document of a summary. -/
def document (summary : Summary) : Json :=
  Report.document summary.rows

/-- The text of the document, in either form. -/
def documentText (isPretty : Bool) (summary : Summary) : String :=
  summary.document.text isPretty

/-- The document in its pretty form, with an end of line behind it. -/
def detailedText (summary : Summary) : String :=
  summary.documentText true ++ "\n"

end AccelProfile.Summary
