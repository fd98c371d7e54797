import AccelProfile.Proofs.CommandInputs
import AccelProfile.Proofs.PieceWeights

/-!
# Lists of switches

A list sets what its entries set, one by one. Joining two lists with a comma puts the entries of
the second behind those of the first, so the joined list sets what either of the two sets. Which
entry comes first, whether it comes twice, and how much blank space stands around it make no
difference: a list sets a switch exactly if the name of the switch, and nothing longer or shorter,
is left of some entry without the blank space at its ends.

The switches of a run come from three places, its configuration, the environment and the command
line. They are those of the configuration and of one list, in which the list of the environment
and that of the command line stand side by side. A list that is missing counts as an empty one.
-/

namespace AccelProfile

namespace Text

/-- Only blank characters. -/
def Blank (gap : List Char) : Prop :=
  ∀ c ∈ gap, isBlank c = true

theorem trim_blank_append {before : List Char} (blank : Blank before) (text : List Char) :
    trim (before ++ text) = trim text := by
  rw [trim, List.dropWhile_append_of_pos blank]
  rfl

theorem trim_append_blank {behind : List Char} (blank : Blank behind) (text : List Char) :
    trim (text ++ behind) = trim text := by
  induction behind generalizing text with
  | nil => rw [List.append_nil]
  | cons c behind ih =>
    have blankBehind : Blank behind := fun other inside => blank other (List.mem_cons_of_mem c inside)
    rw [← List.singleton_append, ← List.append_assoc, ih blankBehind,
      trim_concat_of_isBlank (blank c List.mem_cons_self)]

/-- A text with blank space at its ends. -/
inductive Padded (core : List Char) : List Char → Prop
  | intro {before behind : List Char} (blankBefore : Blank before) (blankBehind : Blank behind) :
      Padded core (before ++ (core ++ behind))

/-- Blank space at the ends of a text is trimmed, however much there is. -/
theorem Padded.trim_eq {core text : List Char} (padded : Padded core text) :
    trim text = trim core := by
  cases padded with
  | intro blankBefore blankBehind =>
    rw [trim_blank_append blankBefore, trim_append_blank blankBehind]

end Text

namespace DebugFlags

theorem union_assoc (first second third : DebugFlags) :
    (first.union second).union third = first.union (second.union third) := by
  simp only [union, Bool.or_assoc]

/-! ## The entries of a list -/

/-- The entries of a list. -/
def entries (list : String) : List (List Char) :=
  Text.pieces ',' list.toList

/-- The switches that entries set together. -/
def ofEntries (entries : List (List Char)) : DebugFlags :=
  entries.foldr (fun entry flags => (ofEntry entry).union flags) none

theorem parse_eq_ofEntries (list : String) : parse list = ofEntries (entries list) := rfl

theorem ofEntries_append (front back : List (List Char)) :
    ofEntries (front ++ back) = (ofEntries front).union (ofEntries back) := by
  induction front with
  | nil => rfl
  | cons entry front ih =>
    change (ofEntry entry).union (ofEntries (front ++ back)) = _
    rw [ih, ← union_assoc]
    rfl

theorem entries_comma (front back : String) :
    entries (front ++ "," ++ back) = entries front ++ entries back := by
  have shape : (front ++ "," ++ back).toList = front.toList ++ ',' :: back.toList := by simp
  rw [entries, shape, Text.pieces_append_mark]
  rfl

/-- Two lists with a comma between them set what either of the two sets. -/
theorem parse_comma (front back : String) :
    parse (front ++ "," ++ back) = (parse front).union (parse back) := by
  rw [parse_eq_ofEntries, entries_comma, ofEntries_append]
  rfl

/-- A list has a name among its entries, blank space around it aside. -/
def Lists (list name : String) : Prop :=
  ∃ entry ∈ entries list, String.ofList (Text.trim entry) = name

/-- A switch that goes by a name is set by the entries that are the name, and by no others. -/
theorem switch_ofEntries_iff {switch : DebugFlags → Bool} {name : String}
    (off : switch none = false)
    (joins : ∀ flags other, switch (flags.union other) = (switch flags || switch other))
    (named : ∀ entry, switch (ofEntry entry) = decide (String.ofList (Text.trim entry) = name))
    (entries : List (List Char)) :
    switch (ofEntries entries) = true ↔
      ∃ entry ∈ entries, String.ofList (Text.trim entry) = name := by
  induction entries with
  | nil => simp [ofEntries, off]
  | cons entry entries ih =>
    change switch ((ofEntry entry).union (ofEntries entries)) = true ↔ _
    rw [joins, Bool.or_eq_true, ih, named, decide_eq_true_iff, List.exists_mem_cons_iff]

/-- A list sets the switches that it has the names of. -/
theorem parse_sets_iff (list : String) :
    ((parse list).detailed = true ↔ Lists list detailedName) ∧
      ((parse list).csv = true ↔ Lists list csvName) :=
  ⟨switch_ofEntries_iff rfl (fun _ _ => rfl) (fun _ => rfl) _,
    switch_ofEntries_iff rfl (fun _ _ => rfl) (fun _ => rfl) _⟩

/-- Each entry of a list is in another one too, maybe in another place, more or less often, or
with other blank space around it. -/
def Within (list other : String) : Prop :=
  ∀ entry ∈ entries list, ∃ core, Text.Padded core entry ∧
    ∃ same ∈ entries other, Text.Padded core same

theorem Within.lists {list other : String} (within : Within list other) {name : String}
    (listed : Lists list name) : Lists other name := by
  obtain ⟨entry, inList, isName⟩ := listed
  obtain ⟨core, padded, same, inOther, paddedSame⟩ := within entry inList
  refine ⟨same, inOther, ?_⟩
  rw [paddedSame.trim_eq, ← padded.trim_eq, isName]

/-- Lists that have the same entries set the same switches. -/
theorem parse_eq_of_within {list other : String} (within : Within list other)
    (back : Within other list) : parse list = parse other := by
  have same (name : String) : Lists list name ↔ Lists other name := ⟨within.lists, back.lists⟩
  have detailed : (parse list).detailed = (parse other).detailed := by
    rw [Bool.eq_iff_iff, (parse_sets_iff list).1, (parse_sets_iff other).1, same]
  have csv : (parse list).csv = (parse other).csv := by
    rw [Bool.eq_iff_iff, (parse_sets_iff list).2, (parse_sets_iff other).2, same]
  calc parse list = ⟨(parse list).detailed, (parse list).csv⟩ := rfl
    _ = ⟨(parse other).detailed, (parse other).csv⟩ := by rw [detailed, csv]
    _ = parse other := rfl

end DebugFlags

namespace CommandLine

/-- The configuration that a run starts from: that of its file, and the standard one where no file
is asked for. -/
def configured (options : ReplayOptions) (view : View) : Except RunError Config :=
  match options.config with
  | some path => readConfig view path
  | none => .ok .standard

/-- A run starts from a configuration that can be used. -/
theorem fault?_of_configured {options : ReplayOptions} {view : View} {file : Config}
    (found : configured options view = .ok file) : file.fault? = none := by
  rw [configured] at found
  split at found
  · obtain ⟨bytes, text, -, -, isConfig⟩ := readConfig_eq_ok found
    exact Config.fault?_of_ofText isConfig
  · cases found
    decide

/-- The switches of a run are those of its configuration and of one list, in which the lists of
the environment and of the command line stand side by side. -/
theorem unitedFlags_eq (configured : DebugFlags) (environment option : Option String) :
    unitedFlags configured environment option =
      configured.union (DebugFlags.parse (environment.getD "" ++ "," ++ option.getD "")) := by
  have missing (list : Option String) :
      list.elim .none DebugFlags.parse = DebugFlags.parse (list.getD "") := by
    cases list <;> rfl
  rw [unitedFlags, missing, missing, DebugFlags.union_assoc, DebugFlags.parse_comma]

/-- A run gets its configuration from its file. Only an empty path in the options keeps it from
being used. -/
theorem loadConfig_eq_ok_iff (options : ReplayOptions) (environment : Option String) (view : View)
    (config : Config) :
    loadConfig options environment view = .ok config ↔
      ∃ file, configured options view = .ok file ∧ options.output ≠ some "" ∧
        config = { file with
          outputFile := options.output <|> file.outputFile
          debugFlags := file.debugFlags.union
            (DebugFlags.parse (environment.getD "" ++ "," ++ options.debugFlags.getD "")) } := by
  have whole : loadConfig options environment view = (configured options view).bind fun file =>
      Config.validate { file with
        outputFile := options.output <|> file.outputFile
        debugFlags := unitedFlags file.debugFlags environment options.debugFlags } := by
    rw [loadConfig, configured]
    cases options.config <;> rfl
  rw [whole]
  cases found : configured options view with
  | error error => simp [Except.bind]
  | ok file =>
    obtain ⟨room, output⟩ := file.fault?_eq_none_iff.1 (fault?_of_configured found)
    have named : (options.output <|> file.outputFile) ≠ some "" ↔ options.output ≠ some "" := by
      cases options.output <;> simp [output]
    change Config.validate _ = .ok config ↔ _
    rw [Config.validate_eq_ok_iff, Config.fault?_eq_none_iff, unitedFlags_eq]
    constructor
    · rintro ⟨⟨-, given⟩, rfl⟩
      exact ⟨file, rfl, named.1 given, rfl⟩
    · rintro ⟨same, isFile, given, rfl⟩
      cases isFile
      exact ⟨⟨room, named.2 given⟩, rfl⟩

/-- Two lists joined by a comma set the union of what each of them sets. A list sets a switch
exactly if the name of the switch is one of its entries, blank space at the ends of the entry aside;
so lists with the same entries, in any order, any number of times and with any blank space around
them, set the same switches. A run that gets a configuration has the switches of its file united with
those of one list, in which the lists of the environment and of the command line stand side by side;
it gets one exactly if the file gives one and the options name no empty path for the document. -/
theorem flag_lists_unite :
    (∀ front back : String, DebugFlags.parse (front ++ "," ++ back) =
      (DebugFlags.parse front).union (DebugFlags.parse back)) ∧
    (∀ list : String,
      ((DebugFlags.parse list).detailed = true ↔ DebugFlags.Lists list DebugFlags.detailedName) ∧
      ((DebugFlags.parse list).csv = true ↔ DebugFlags.Lists list DebugFlags.csvName)) ∧
    (∀ list other : String, DebugFlags.Within list other → DebugFlags.Within other list →
      DebugFlags.parse list = DebugFlags.parse other) ∧
    ∀ (options : ReplayOptions) (environment : Option String) (view : View) (config : Config),
      loadConfig options environment view = .ok config ↔
        ∃ file, configured options view = .ok file ∧ options.output ≠ some "" ∧
          config = { file with
            outputFile := options.output <|> file.outputFile
            debugFlags := file.debugFlags.union
              (DebugFlags.parse (environment.getD "" ++ "," ++ options.debugFlags.getD "")) } :=
  ⟨DebugFlags.parse_comma, DebugFlags.parse_sets_iff,
    fun _ _ within back => DebugFlags.parse_eq_of_within within back, loadConfig_eq_ok_iff⟩

/-- Both names in one order, and the same names the other way round, one of them twice and with
other blank space around them, set the same. The second name starts like the first one. A run that
finds one of them in the environment and the other among its options sets both. -/
theorem scattered_flags_unite :
    let plain := "SALAMResults,SALAMResultsCSV"
    let scattered := " SALAMResultsCSV\t,SALAMResults,\u3000SALAMResults"
    let options : ReplayOptions :=
      ⟨"trace.jsonl", none, none, some "SALAMResults", "accelerator", 10, 0, false⟩
    (DebugFlags.Within plain scattered ∧ DebugFlags.Within scattered plain ∧
      DebugFlags.parse plain = DebugFlags.parse scattered) ∧
    ∀ view, loadConfig options (some "Exec,SALAMResultsCSV ") view =
      .ok { Config.standard with debugFlags := ⟨true, true⟩ } := by
  intro plain scattered options
  have blank (gap : List Char) (isBlank : gap.all Text.isBlank = true) : Text.Blank gap :=
    List.all_eq_true.1 isBlank
  have first : Text.Padded "SALAMResults".toList "SALAMResults".toList :=
    .intro (blank [] rfl) (blank [] rfl)
  have second : Text.Padded "SALAMResultsCSV".toList "SALAMResultsCSV".toList :=
    .intro (blank [] rfl) (blank [] rfl)
  have spacedFirst : Text.Padded "SALAMResults".toList "\u3000SALAMResults".toList :=
    .intro (blank ['\u3000'] rfl) (blank [] rfl)
  have spacedSecond : Text.Padded "SALAMResultsCSV".toList " SALAMResultsCSV\t".toList :=
    .intro (blank [' '] rfl) (blank ['\t'] rfl)
  have ofPlain : DebugFlags.entries plain =
      ["SALAMResults".toList, "SALAMResultsCSV".toList] := by decide +kernel
  have ofScattered : DebugFlags.entries scattered =
      [" SALAMResultsCSV\t".toList, "SALAMResults".toList, "\u3000SALAMResults".toList] := by
    decide +kernel
  have within : DebugFlags.Within plain scattered := by
    simp only [DebugFlags.Within, ofPlain, ofScattered, List.forall_mem_cons]
    exact ⟨⟨_, first, _, by simp, first⟩, ⟨_, second, _, by simp, spacedSecond⟩, nofun⟩
  have back : DebugFlags.Within scattered plain := by
    simp only [DebugFlags.Within, ofPlain, ofScattered, List.forall_mem_cons]
    exact ⟨⟨_, spacedSecond, _, by simp, second⟩, ⟨_, first, _, by simp, first⟩,
      ⟨_, spacedFirst, _, by simp, first⟩, nofun⟩
  refine ⟨⟨within, back, flag_lists_unite.2.2.1 plain scattered within back⟩, fun view => ?_⟩
  rw [flag_lists_unite.2.2.2]
  exact ⟨.standard, rfl, nofun, by decide +kernel⟩

end CommandLine

end AccelProfile
