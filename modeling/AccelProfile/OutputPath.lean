/-!
# Output paths

The path of the table beside the path of the document. A path whose file name has the
extension `json` gets the extension `csv` instead; any other path gets `.csv` at its end.

The file name is the last name of a path: separators behind it, and dots that stand
alone behind a separator, are slack and do not count. Only a name has an extension, so
neither `.` nor `..` has one, and it starts behind the last dot of the name, which may not
be its first character. Slack is dropped with the extension that it follows.

One name is a case of its own. Without its extension, `..json` would leave `..` with a
new extension to follow, but that is no name any more, so the path stays without one.
-/

namespace AccelProfile.OutputPath

/-- A path from its end on, without the slack at its end. -/
def dropSlack : List Char → List Char
  | '/' :: rest => dropSlack rest
  | '.' :: '/' :: rest => dropSlack rest
  | path => path

/-- The name, from its end on, in front of the extension `json`. -/
def stem? : List Char → Option (List Char)
  | 'n' :: 'o' :: 's' :: 'j' :: '.' :: first :: rest => some (first :: rest)
  | _ => none

/-- The path of the table, in characters. -/
def csvCharacters (path : List Char) : List Char :=
  let body := dropSlack path.reverse
  match stem? (body.takeWhile (· ≠ '/')) with
  | none => path ++ ".csv".toList
  | some stem =>
    let start := (body.dropWhile (· ≠ '/')).reverse ++ stem.reverse
    if stem = ['.'] ∧ body.length = path.length then start ++ ['.']
    else start ++ ".csv".toList

/-- The path of the table that belongs to the path of a document. -/
def csvPath (path : String) : String :=
  String.ofList (csvCharacters path.toList)

example : csvPath "out/run1.json" = "out/run1.csv" := by decide +kernel
example : csvPath "run1.txt" = "run1.txt.csv" := by decide +kernel
example : csvPath ".json" = ".json.csv" := by decide +kernel
example : csvPath "a.json/./" = "a.csv" := by decide +kernel
example : csvPath "..json" = ".." := by decide +kernel

end AccelProfile.OutputPath
