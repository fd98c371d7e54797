import AccelProfile.OutputPath
import AccelProfile.Proofs.PieceWeights

/-!
# The name of the table beside the name of the document

The last name of a path is what stands behind its last separator. Where the path of a
document ends in a name that can be that of a file, the path of its table has another last
name: the extension `json` is one character longer than `csv`, and anything else gets four
characters more. So the two are never stored in one place.
-/

namespace AccelProfile

namespace OutputPath

/-- The last name of a path. -/
def lastName (path : List Char) : List Char :=
  path.rtakeWhile (· ≠ '/')

/-- A path that ends in a name has no slack at its end. -/
theorem dropSlack_eq {path : List Char} (named : path.takeWhile (· ≠ '/') ≠ [])
    (noDot : path.takeWhile (· ≠ '/') ≠ ['.']) : dropSlack path = path := by
  cases path with
  | nil => rfl
  | cons first rest =>
    by_cases separator : first = '/'
    · simp [separator] at named
    · by_cases dot : first = '.'
      · cases rest with
        | nil => simp [dot, dropSlack]
        | cons second rest =>
          by_cases again : second = '/'
          · simp [dot, again] at noDot
          · simp [dot, dropSlack, again]
      · simp [dropSlack, separator, dot]

/-- A name with the extension `json` is its stem with five characters more. -/
theorem stem?_eq_some {name stem : List Char} (found : stem? name = some stem) :
    name = "nosj.".toList ++ stem := by
  rw [stem?.eq_def] at found
  split at found
  · cases found
    rfl
  · cases found

/-- What stands in front of the last name of a path. -/
def directory (path : List Char) : List Char :=
  path.rdropWhile (· ≠ '/')

theorem directory_append_lastName (path : List Char) : directory path ++ lastName path = path :=
  List.rdropWhile_append_rtakeWhile

theorem separator_notMem_lastName (path : List Char) : '/' ∉ lastName path :=
  Text.mark_notMem_rtakeWhile '/' path

/-- Characters behind a path that are no separators belong to its last name. -/
theorem lastName_append (front : List Char) {name : List Char} (noMark : '/' ∉ name) :
    lastName (front ++ name) = lastName front ++ name := by
  have passed : ∀ c ∈ name.reverse, decide (c ≠ '/') = true := by
    intro c inside
    rw [decide_eq_true_eq]
    rintro rfl
    exact noMark (List.mem_reverse.1 inside)
  simp only [lastName, List.rtakeWhile, List.reverse_append, List.takeWhile_append_of_pos passed,
    List.reverse_reverse]

/-- A name behind the directory of a path is the last name. -/
theorem lastName_directory_append (path : List Char) {name : List Char} (noMark : '/' ∉ name) :
    lastName (directory path ++ name) = name := by
  have closed : lastName (directory path) = [] := by
    rcases Text.rdropWhile_eq_nil_or_concat '/' path with none | ⟨front, cut⟩
    · rw [directory, none]
      rfl
    · rw [directory, cut]
      simp [lastName]
  rw [lastName_append _ noMark, closed, List.nil_append]

/-- The name of the table beside a document with a name. A stem that is a single dot leaves two dots
and no extension. -/
def tableName (name : List Char) : List Char :=
  match stem? name.reverse with
  | none => name ++ ".csv".toList
  | some stem => if stem = ['.'] then ['.', '.'] else stem.reverse ++ ".csv".toList

theorem separator_notMem_tableName {name : List Char} (noMark : '/' ∉ name) :
    '/' ∉ tableName name := by
  rw [tableName]
  split
  · simp [noMark]
  · next stem found =>
    rw [← List.mem_reverse, stem?_eq_some found] at noMark
    have noMarkInStem : '/' ∉ stem := by simpa using noMark
    split <;> simp [noMarkInStem]

/-- The extension `json` is one character longer than `csv`, and without it the name of the table is
the longer one. -/
theorem length_tableName_ne (name : List Char) : (tableName name).length ≠ name.length := by
  rw [tableName]
  split
  · simp
  · next stem found =>
    have lengths := congrArg List.length (stem?_eq_some found)
    have ofJson : "nosj.".toList.length = 5 := rfl
    have ofTable : ".csv".toList.length = 4 := rfl
    rw [List.length_reverse, List.length_append] at lengths
    split
    · next isDot =>
      rw [lengths, isDot]
      decide
    · rw [List.length_append, List.length_reverse]
      omega

/-- Where the path of a document ends in a name, the path of its table ends in the name of the table,
in the same directory. -/
theorem csvCharacters_of_named {path : List Char} (named : lastName path ≠ [])
    (noDot : lastName path ≠ ['.']) :
    csvCharacters path = directory path ++ tableName (lastName path) := by
  have fromEnd : path.reverse.takeWhile (· ≠ '/') = (lastName path).reverse := by
    simp [lastName, List.rtakeWhile]
  have slackless : dropSlack path.reverse = path.reverse := by
    apply dropSlack_eq
    · rw [fromEnd]
      simpa using named
    · rw [fromEnd]
      simpa [List.reverse_eq_iff] using noDot
  have start : (path.reverse.dropWhile (· ≠ '/')).reverse = directory path := rfl
  simp only [csvCharacters, slackless, fromEnd, start, tableName]
  cases stem? (lastName path).reverse with
  | none =>
    dsimp only
    rw [← List.append_assoc, directory_append_lastName]
  | some stem =>
    by_cases isDot : stem = ['.']
    · simp [isDot]
    · simp [isDot]

/-- The path of the table ends in another name than the path of the document, if that ends in
a name at all. -/
theorem lastName_csvCharacters_ne {path : List Char} (named : lastName path ≠ [])
    (noDot : lastName path ≠ ['.']) : lastName (csvCharacters path) ≠ lastName path := by
  rw [csvCharacters_of_named named noDot, lastName_directory_append path
    (separator_notMem_tableName (separator_notMem_lastName path))]
  exact fun same => length_tableName_ne _ (congrArg List.length same)

end OutputPath

end AccelProfile
