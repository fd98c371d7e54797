import Mathlib.Data.List.Induction
import AccelProfile.FileTree
import AccelProfile.Proofs.TablePath

/-!
# Files that are written

A file that is written stands at the place that its path leads to, and everything else in the
tree stays as it is. Writing makes no directory and removes none, and only directories decide
where a path leads. So the places of several files are known before the first one is written,
and afterwards each place holds the last file that was written to it.

The table and the document of a report never have the same place, so neither is written over
the other.
-/

namespace AccelProfile.FileTree

/-! ## Where paths lead -/

/-- Paths start at one place in both trees, and the same places are directories. -/
structure SameDirectories (tree other : FileTree) : Prop where
  current : tree.current = other.current
  isDirectory : ∀ place, tree.entry? place = some .directory ↔ other.entry? place = some .directory

theorem SameDirectories.refl (tree : FileTree) : SameDirectories tree tree :=
  ⟨rfl, fun _ => Iff.rfl⟩

theorem SameDirectories.symm {tree other : FileTree} (same : SameDirectories tree other) :
    SameDirectories other tree :=
  ⟨same.current.symm, fun place => (same.isDirectory place).symm⟩

theorem SameDirectories.trans {tree other third : FileTree} (same : SameDirectories tree other)
    (again : SameDirectories other third) : SameDirectories tree third :=
  ⟨same.current.trans again.current,
    fun place => (same.isDirectory place).trans (again.isDirectory place)⟩

/-- A name leads on from directories only. -/
theorem isDirectory_of_step {tree : FileTree} {place next : Place} {name : String}
    (leads : tree.step place name = .ok next) : tree.entry? place = some .directory := by
  simp only [step] at leads
  split at leads
  · cases leads
  · cases leads
  · assumption

variable {tree other : FileTree}

theorem SameDirectories.step (same : SameDirectories tree other) {place next : Place}
    {name : String} (leads : tree.step place name = .ok next) :
    other.step place name = .ok next := by
  have isDirectory := isDirectory_of_step leads
  simp only [FileTree.step, isDirectory] at leads
  simp only [FileTree.step, (same.isDirectory place).1 isDirectory]
  exact leads

theorem SameDirectories.foldlM_step (same : SameDirectories tree other) {names : List String}
    {start place : Place} (leads : names.foldlM tree.step start = .ok place) :
    names.foldlM other.step start = .ok place := by
  induction names generalizing start with
  | nil => exact leads
  | cons name names ih =>
    rw [List.foldlM_cons] at leads ⊢
    cases first : tree.step start name with
    | error fault =>
      rw [first] at leads
      cases leads
    | ok next =>
      rw [first] at leads
      rw [same.step first]
      exact ih leads

theorem SameDirectories.names (same : SameDirectories tree other) (path : String) :
    tree.names path = other.names path := by
  simp only [FileTree.names, same.current]

/-- The names on a path are the pieces between its separators. -/
theorem names_eq {path : String} {start : Place} {names : List String}
    (found : tree.names path = .ok (start, names)) :
    names = (Text.pieces '/' path.toList).map String.ofList := by
  simp only [FileTree.names] at found
  split at found
  · cases found
  · split at found
    · cases found
    · split at found
      · cases found
      · cases found
        rfl

/-- A path leads to the place of a file: it ends in a name that a file can have, the names
before it lead to a directory, and no directory has the name in there. -/
inductive Targets (tree : FileTree) (path : String) : Place → Prop
  | intro {start parent place : Place} {before : List String} {last : String}
      (names : tree.names path = .ok (start, before ++ [last]))
      (nonempty : last ≠ "") (noDot : last ≠ ".") (noDots : last ≠ "..")
      (leads : before.foldlM tree.step start = .ok parent)
      (step : tree.step parent last = .ok place)
      (free : tree.entry? place ≠ some .directory) : Targets tree path place

theorem step_dot {place : Place} (isDirectory : tree.entry? place = some .directory) :
    tree.step place "." = .ok place := by
  simp [FileTree.step, isDirectory]

/-- A file can be written exactly if its path leads to the place of a file. -/
theorem target_eq_ok_iff (path : String) (place : Place) :
    tree.target path = .ok place ↔ tree.Targets path place := by
  constructor
  · intro found
    obtain ⟨⟨start, names⟩, isNames, found⟩ := ok_of_bind found
    simp only at found
    split at found
    · cases found
    · next last before cut =>
      obtain ⟨parent, leads, found⟩ := ok_of_bind found
      obtain ⟨here, isHere, found⟩ := ok_of_bind found
      obtain rfl : parent = here := by
        rw [step_dot (isDirectory_of_step isHere)] at isHere
        exact Except.ok.inj isHere
      split at found
      · cases found
      · next plain =>
        rw [not_or, not_or, Nat.not_lt] at plain
        obtain ⟨noSlack, noDot, noDots⟩ := plain
        obtain ⟨place, step, found⟩ := ok_of_bind found
        split at found
        · cases found
        · next free =>
          cases found
          -- Nothing was dropped, since there is one name more than before the last one.
          have whole : last :: before = names.reverse := by
            rw [← cut]
            apply (List.dropWhile_suffix _).eq_of_length_le
            rw [cut, List.length_reverse, List.length_cons]
            exact noSlack
          have nonempty : last ≠ "" := by
            have stops := List.head?_dropWhile_not (· = "") names.reverse
            rw [cut] at stops
            simpa using stops
          have isLast : names = before.reverse ++ [last] := by
            rw [← List.reverse_cons, whole, List.reverse_reverse]
          exact ⟨isLast ▸ isNames, nonempty, noDot, noDots, leads, step, free⟩
  · rintro ⟨names, nonempty, noDot, noDots, leads, step, free⟩
    next start parent before last =>
    have dropped : (before ++ [last]).reverse.dropWhile (· = "") = last :: before.reverse := by
      simp [nonempty]
    have here := step_dot (isDirectory_of_step step)
    have plain : ¬ (before.reverse.length + 1 < (before ++ [last]).length ∨
        last = "." ∨ last = "..") := by
      simp [noDot, noDots]
    simp only [target, names, dropped, List.reverse_reverse, bind, Except.bind]
    simp only [leads, here, plain, if_false, step, free]

/-- Where only directories are alike, paths still lead to the same places. -/
theorem SameDirectories.targets (same : SameDirectories tree other) {path : String}
    {place : Place} (targets : tree.Targets path place) : other.Targets path place := by
  obtain ⟨names, nonempty, noDot, noDots, leads, step, free⟩ := targets
  constructor
  · exact same.names path ▸ names
  · exact nonempty
  · exact noDot
  · exact noDots
  · exact same.foldlM_step leads
  · exact same.step step
  · exact fun isDirectory => free ((same.isDirectory _).2 isDirectory)

theorem SameDirectories.target_iff (same : SameDirectories tree other) (path : String)
    (place : Place) : tree.target path = .ok place ↔ other.target path = .ok place := by
  rw [target_eq_ok_iff, target_eq_ok_iff]
  exact ⟨same.targets, same.symm.targets⟩

/-- The place of a file has the last name of its path, which names a file. -/
theorem Targets.eq_concat {path : String} {place : Place} (targets : tree.Targets path place) :
    ∃ parent last, place = parent ++ [last] ∧
      OutputPath.lastName path.toList = last.toList ∧ last ≠ "" ∧ last ≠ "." := by
  obtain ⟨names, nonempty, noDot, noDots, leads, step, free⟩ := targets
  next start parent before last =>
  refine ⟨parent, last, ?_, ?_, nonempty, noDot⟩
  · simp only [FileTree.step, isDirectory_of_step step, nonempty, noDot, noDots, or_self,
      if_false] at step
    split at step
    · cases step
    · exact (Except.ok.inj step).symm
  · have isLast := congrArg List.getLast? (names_eq names)
    rw [List.getLast?_concat, List.getLast?_map, Text.getLast?_pieces, Option.map_some,
      Option.some.injEq] at isLast
    rw [isLast, String.toList_ofList]
    rfl

/-- The table of a document is never written where the document is. -/
theorem target_csvPath_ne {path : String} {place : Place}
    (document : tree.target path = .ok place) :
    tree.target (OutputPath.csvPath path) ≠ .ok place := by
  intro table
  obtain ⟨parent, last, isPlace, isLast, nonempty, noDot⟩ :=
    ((target_eq_ok_iff path place).1 document).eq_concat
  obtain ⟨other, name, isOther, isName, -, -⟩ :=
    ((target_eq_ok_iff _ place).1 table).eq_concat
  obtain rfl : name = last := by
    have same := congrArg List.getLast? (isOther.symm.trans isPlace)
    simpa using same
  have named : OutputPath.lastName path.toList ≠ [] := by
    rw [isLast]
    simpa using nonempty
  have noDotName : OutputPath.lastName path.toList ≠ ['.'] := by
    rw [isLast]
    exact fun dot => noDot (String.toList_injective dot)
  apply OutputPath.lastName_csvCharacters_ne named noDotName
  rw [isLast, ← isName, OutputPath.csvPath, String.toList_ofList]

example : (within ["work"]).target "./..json" = .ok ["work", "..json"] := by decide +kernel
example : (within ["work"]).target (OutputPath.csvPath "./..json") = .error .isDirectory := by
  decide +kernel

/-! ## What stands where -/

/-- A file that can be written stands at its place; nothing else is changed. -/
theorem entry?_attempt (tree : FileTree) (file : OutputFile) (place : Place) :
    entry? (tree.attempt file) place =
      if tree.target file.path = .ok place then some (.file (bytesOf file.text))
      else tree.entry? place := by
  cases found : tree.target file.path with
  | error fault => simp [attempt, write, found, bind, Except.bind]
  | ok goal =>
    have below : goal ≠ [] := by
      obtain ⟨parent, last, isGoal, -⟩ := ((target_eq_ok_iff _ goal).1 found).eq_concat
      simp [isGoal]
    simp only [attempt, write, found, bind, Except.bind, pure, Except.pure, entry?,
      FirstSeen.get?_update, Except.ok.injEq]
    by_cases here : place = goal
    · subst here
      simp [below]
    · simp [here, Ne.symm here]

/-- Writing a file makes no directory and removes none. -/
theorem sameDirectories_attempt (tree : FileTree) (file : OutputFile) :
    SameDirectories tree (tree.attempt file) where
  current := by
    cases found : tree.target file.path <;>
      simp [attempt, write, found, bind, Except.bind, pure, Except.pure]
  isDirectory place := by
    rw [entry?_attempt]
    split
    · next found =>
      obtain ⟨-, -, -, -, -, -, free⟩ := (target_eq_ok_iff _ place).1 found
      simp [free]
    · rfl

theorem sameDirectories_attemptAll (tree : FileTree) (files : List OutputFile) :
    SameDirectories tree (tree.attemptAll files) := by
  induction files generalizing tree with
  | nil => exact .refl tree
  | cons file files ih => exact (tree.sameDirectories_attempt file).trans (ih (tree.attempt file))

/-- Afterwards the last file whose path leads to a place stands there, and what was there
before if there is none. -/
theorem entry?_attemptAll (tree : FileTree) (files : List OutputFile) (place : Place) :
    entry? (tree.attemptAll files) place =
      match files.reverse.find? fun file => tree.target file.path = .ok place with
      | some file => some (.file (bytesOf file.text))
      | none => tree.entry? place := by
  induction files using List.reverseRecOn with
  | nil => rfl
  | append_singleton files file ih =>
    have last : tree.attemptAll (files ++ [file]) = (tree.attemptAll files).attempt file := by
      simp [attemptAll]
    rw [last, entry?_attempt, ih, List.reverse_concat, List.find?_cons]
    -- The path of the last file leads where it led before the others were written.
    have leads := (tree.sameDirectories_attemptAll files).target_iff file.path place
    by_cases here : tree.target file.path = .ok place
    · simp [here, leads.1 here]
    · have there := mt leads.2 here
      simp [here, there]

end AccelProfile.FileTree
