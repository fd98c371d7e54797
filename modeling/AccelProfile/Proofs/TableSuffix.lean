import AccelProfile.Proofs.TablePath

/-!
# The suffix of the path of a table

Told by its text, the rule for the path of a table is that the suffix `.json` of the path of the
document becomes `.csv`, and that `.csv` comes behind any other path. What is done goes by names and
extensions instead, and an extension needs a name in front of it. So the rule holds for all paths that
end in a name but two kinds: the name `.json` is all name and gets `.csv` behind it, and the name
`..json` has one dot in front of its extension, which a new extension cannot follow.

Whatever the name is, the directory in front of it stays as it is, and the path becomes another one.
-/

namespace AccelProfile.OutputPath

/-! ## Names -/

/-- A name with the extension `json` gets the extension `csv`. -/
theorem tableName_json {stem : List Char} (nonempty : stem ≠ []) (noDot : stem ≠ ['.']) :
    tableName (stem ++ ".json".toList) = stem ++ ".csv".toList := by
  have found : stem? (stem ++ ".json".toList).reverse = some stem.reverse := by
    have fromEnd : (stem ++ ".json".toList).reverse = "nosj.".toList ++ stem.reverse := by simp
    obtain ⟨last, others, isCons⟩ :=
      List.exists_cons_of_ne_nil (mt List.reverse_eq_nil_iff.1 nonempty)
    rw [fromEnd, isCons]
    rfl
  have noDotFromEnd : stem.reverse ≠ ['.'] := by
    simpa [List.reverse_eq_iff] using noDot
  rw [tableName, found]
  simp only [if_neg noDotFromEnd, List.reverse_reverse]

/-- A name without the extension `json` gets four characters more. -/
theorem tableName_of_other {name : List Char} (other : ∀ stem, name ≠ stem ++ ".json".toList) :
    tableName name = name ++ ".csv".toList := by
  have none : stem? name.reverse = none := by
    rw [Option.eq_none_iff_forall_ne_some]
    intro stem found
    apply other stem.reverse
    have whole := congrArg List.reverse (stem?_eq_some found)
    simpa using whole
  rw [tableName, none]

theorem tableName_bare : tableName ".json".toList = ".json.csv".toList := by decide

theorem tableName_dotted : tableName "..json".toList = "..".toList := by decide

/-! ## Paths -/

theorem directory_append (front : List Char) {name : List Char} (noMark : '/' ∉ name) :
    directory (front ++ name) = directory front := by
  have whole := directory_append_lastName (front ++ name)
  rw [lastName_append front noMark, ← List.append_assoc] at whole
  have ofFront : directory (front ++ name) ++ lastName front = front :=
    List.append_cancel_right whole
  exact List.append_cancel_right (ofFront.trans (directory_append_lastName front).symm)

/-- The table beside a document whose path has the suffix `.json`, by what is in front of the suffix. -/
theorem csvCharacters_json (front : List Char) :
    csvCharacters (front ++ ".json".toList) =
      directory front ++ tableName (lastName front ++ ".json".toList) := by
  have noMark : '/' ∉ ".json".toList := by decide
  have last := lastName_append front noMark
  have named : lastName (front ++ ".json".toList) ≠ [] := by
    rw [last]
    exact List.append_ne_nil_of_right_ne_nil _ (by decide)
  have noDot : lastName (front ++ ".json".toList) ≠ ['.'] := fun isDot => by
    have lengths := congrArg List.length (last.symm.trans isDot)
    simp at lengths
  rw [csvCharacters_of_named named noDot, last, directory_append front noMark]

/-- The suffix `.json` becomes `.csv` exactly if it stands behind a name other than a single dot. -/
theorem csvCharacters_json_iff (front : List Char) :
    csvCharacters (front ++ ".json".toList) = front ++ ".csv".toList ↔
      lastName front ≠ [] ∧ lastName front ≠ ['.'] := by
  have whole : directory front ++ (lastName front ++ ".csv".toList) = front ++ ".csv".toList := by
    rw [← List.append_assoc, directory_append_lastName]
  rw [csvCharacters_json, ← whole, List.append_cancel_left_eq]
  constructor
  · rintro isTable
    constructor <;> intro isCase <;> rw [isCase] at isTable <;> revert isTable <;> decide
  · exact fun ⟨nonempty, noDot⟩ => tableName_json nonempty noDot

/-- A path that ends in a name: it does not end in a separator, and the name is no single dot. -/
structure EndsInName (path : String) : Prop where
  named : lastName path.toList ≠ []
  noDot : lastName path.toList ≠ ['.']

/-- The path of the table follows from the text of the path: the suffix `.json` becomes `.csv`, and
without it `.csv` comes behind. -/
structure FollowsSuffix (path : String) : Prop where
  json : ∀ stem, path = stem ++ ".json" → csvPath path = stem ++ ".csv"
  other : (∀ stem, path ≠ stem ++ ".json") → csvPath path = path ++ ".csv"

theorem EndsInName.toList_csvPath {path : String} (ends : EndsInName path) :
    (csvPath path).toList = directory path.toList ++ tableName (lastName path.toList) := by
  rw [csvPath, String.toList_ofList, csvCharacters_of_named ends.named ends.noDot]

theorem csvPath_json_iff (stem : String) :
    csvPath (stem ++ ".json") = stem ++ ".csv" ↔
      lastName stem.toList ≠ [] ∧ lastName stem.toList ≠ ['.'] := by
  rw [← csvCharacters_json_iff, csvPath, String.toList_append, ← String.toList_inj,
    String.toList_ofList, String.toList_append]

/-- A path whose last name has the suffix `.json` has it too. -/
theorem exists_stem {path : String} {stem : List Char}
    (isJson : lastName path.toList = stem ++ ".json".toList) : ∃ front, path = front ++ ".json" := by
  have whole := directory_append_lastName path.toList
  rw [isJson, ← List.append_assoc] at whole
  refine ⟨String.ofList (directory path.toList ++ stem), ?_⟩
  rw [← String.toList_inj, String.toList_append, String.toList_ofList, whole]

/-- If the table of a document has the name of the document with `.csv` behind it, the path of the
table is the path of the document with `.csv` behind it. -/
theorem EndsInName.csvPath_eq_append {path : String} (ends : EndsInName path)
    (behind : tableName (lastName path.toList) = lastName path.toList ++ ".csv".toList) :
    csvPath path = path ++ ".csv" := by
  rw [← String.toList_inj, ends.toList_csvPath, behind, ← List.append_assoc,
    directory_append_lastName, String.toList_append]

/-- Without the suffix `.json`, a path follows the rule. -/
theorem EndsInName.followsSuffix_of_other {path : String} (ends : EndsInName path)
    (other : ∀ stem, path ≠ stem ++ ".json") : FollowsSuffix path := by
  refine ⟨fun stem isJson => absurd isJson (other stem), fun _ => ?_⟩
  apply ends.csvPath_eq_append
  refine tableName_of_other fun stem isJson => ?_
  obtain ⟨front, suffix⟩ := exists_stem isJson
  exact other front suffix

/-- With the suffix `.json`, a path follows the rule exactly if the suffix stands behind a name other
than a single dot. -/
theorem followsSuffix_json_iff (stem : String) :
    FollowsSuffix (stem ++ ".json") ↔ lastName stem.toList ≠ [] ∧ lastName stem.toList ≠ ['.'] := by
  rw [← csvPath_json_iff]
  refine ⟨fun follows => follows.json stem rfl, fun isTable => ⟨fun other same => ?_, ?_⟩⟩
  · rw [isTable, (String.append_left_inj _).1 same]
  · exact fun other => absurd rfl (other stem)

/-- A path that ends in a name follows the rule unless all that the name has in front of the suffix
`.json` is nothing or a single dot. -/
theorem EndsInName.followsSuffix_iff {path : String} (ends : EndsInName path) :
    FollowsSuffix path ↔
      lastName path.toList ≠ ".json".toList ∧ lastName path.toList ≠ "..json".toList := by
  by_cases isJson : ∃ stem, path = stem ++ ".json"
  · obtain ⟨stem, rfl⟩ := isJson
    have last : lastName (stem ++ ".json").toList = lastName stem.toList ++ ".json".toList := by
      rw [String.toList_append, lastName_append _ (by decide)]
    have bare : lastName (stem ++ ".json").toList = ".json".toList ↔ lastName stem.toList = [] := by
      rw [last, List.append_left_eq_self]
    have dotted :
        lastName (stem ++ ".json").toList = "..json".toList ↔ lastName stem.toList = ['.'] := by
      have split : "..json".toList = ['.'] ++ ".json".toList := rfl
      rw [last, split, List.append_left_inj]
    rw [followsSuffix_json_iff, Ne, Ne, Ne, Ne, bare, dotted]
  · have noStem : ∀ stem, lastName path.toList ≠ stem ++ ".json".toList :=
      fun stem last => isJson (exists_stem last)
    have other : ∀ stem, path ≠ stem ++ ".json" := fun stem whole => isJson ⟨stem, whole⟩
    exact ⟨fun _ => ⟨noStem [], noStem ['.']⟩, fun _ => ends.followsSuffix_of_other other⟩

/-- The path of the table is never that of the document: the two have names of different lengths. -/
theorem EndsInName.csvPath_ne {path : String} (ends : EndsInName path) : csvPath path ≠ path := by
  intro same
  have names := ends.toList_csvPath
  rw [same] at names
  have sameName : lastName path.toList = tableName (lastName path.toList) :=
    List.append_cancel_left ((directory_append_lastName path.toList).trans names)
  exact length_tableName_ne _ (congrArg List.length sameName).symm

/-- The path of the table of a document whose path ends in a name follows from the suffix of that path
exactly if the name is neither `.json`, which gets `.csv` behind it, nor `..json`, which gives way to
two dots. In any case it is another path, with the same directory in front of its name. -/
theorem suffix_followed_iff {path : String} (ends : EndsInName path) :
    (FollowsSuffix path ↔
      lastName path.toList ≠ ".json".toList ∧ lastName path.toList ≠ "..json".toList) ∧
    (lastName path.toList = ".json".toList → csvPath path = path ++ ".csv") ∧
    (lastName path.toList = "..json".toList →
      (csvPath path).toList = directory path.toList ++ "..".toList) ∧
    (∃ name, (csvPath path).toList = directory path.toList ++ name ∧ '/' ∉ name) ∧
    csvPath path ≠ path := by
  refine ⟨ends.followsSuffix_iff, fun bare => ?_, fun dotted => ?_, ?_, ends.csvPath_ne⟩
  · apply ends.csvPath_eq_append
    rw [bare]
    exact tableName_bare
  · rw [ends.toList_csvPath, dotted, tableName_dotted]
  · exact ⟨_, ends.toList_csvPath,
      separator_notMem_tableName (separator_notMem_lastName path.toList)⟩

/-- Only the last extension of the name gives way, whatever dots stand in front of it. -/
theorem suffix_followed_in_directory :
    EndsInName "out.d/run.v2.json" ∧ csvPath "out.d/run.v2.json" = "out.d/run.v2.csv" := by
  have ends : EndsInName "out.d/run.v2.json" := ⟨by decide, by decide⟩
  have follows : FollowsSuffix "out.d/run.v2.json" :=
    (suffix_followed_iff ends).1.2 ⟨by decide, by decide⟩
  exact ⟨ends, follows.json "out.d/run.v2" rfl⟩

/-- The rule told by the text of a path is not what is done: `..json` has the suffix, but the
path of its table is that of the parent directory. -/
theorem suffix_lost_behind_dot : ¬ ∀ path, EndsInName path → FollowsSuffix path := by
  intro allFollow
  have ends : EndsInName "..json" := ⟨by decide, by decide⟩
  have isTable : csvPath "..json" = "." ++ ".csv" := (allFollow _ ends).json "." rfl
  have isParent : csvPath "..json" = ".." := by decide +kernel
  exact absurd (isParent.symm.trans isTable) (by decide)

end AccelProfile.OutputPath
