import AccelProfile.Summary.Rows
/-!
# The table of a report

The rows of a summary as lines of two comma separated columns under a header. A text that
holds a comma, a quote or a line feed is quoted, with quotes inside it doubled. A carriage
return alone does not make a text quoted.
-/

namespace AccelProfile.Report

/-- Whether a text cannot stand in a table as it is. -/
def needsQuotes (text : List Char) : Bool :=
  text.any fun c => c = ',' || c = '"' || c = '\n'

/-- A character inside a quoted text. -/
def doubled (c : Char) : List Char :=
  if c = '"' then ['"', '"'] else [c]

/-- A text as a column of a table. -/
def column (text : List Char) : List Char :=
  if needsQuotes text then '"' :: (text.flatMap doubled ++ ['"']) else text

/-- The value of a row as a column. Only texts can need quotes. -/
def valueColumn : Metric → List Char
  | .text value => column value.toList
  | value => value.display

/-- A line of the table. -/
def line (name value : List Char) : List Char :=
  name ++ ',' :: (value ++ ['\n'])

/-- The table of a list of rows. -/
def table (rows : List Row) : List Char :=
  line "metric".toList "value".toList ++
    rows.flatMap fun row => line row.name.toList (valueColumn row.value)

example : column "a,b".toList = "\"a,b\"".toList := by decide
example : column "say \"hi\", ok".toList = "\"say \"\"hi\"\", ok\"".toList := by decide
example : column "plain\r".toList = "plain\r".toList := by decide

end AccelProfile.Report

/-- The table of a summary. -/
def AccelProfile.Summary.tableText (summary : Summary) : String :=
  String.ofList (Report.table summary.rows)
