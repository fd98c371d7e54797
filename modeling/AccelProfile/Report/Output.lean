import AccelProfile.OutputPath
import AccelProfile.Report.Document
import AccelProfile.Report.Table
/-!
# Files of a report

A report is written to at most two files: the document under the path that was asked for,
and the table under the path that belongs to it. A file is a path with a text; whether the
text can be stored under the path is not known here.
-/

namespace AccelProfile

/-- A text and the path that it is to be stored under. -/
structure OutputFile where
  path : String
  text : String
  deriving DecidableEq

namespace Summary

/-- The document as a file: its text with an end of line behind it. -/
def documentFile (summary : Summary) (path : String) (isPretty : Bool) : OutputFile :=
  ⟨path, summary.documentText isPretty ++ "\n"⟩

/-- The table as a file beside the document of a path. -/
def tableFile (summary : Summary) (path : String) : OutputFile :=
  ⟨OutputPath.csvPath path, summary.tableText⟩

end Summary

end AccelProfile
