import AccelProfile.CommandLine.Arguments

/-!
# Well-formed arguments

An option stands for itself among the arguments: the switch that takes no value is never
the value of another option. So it can be taken out of well-formed arguments, and what is
asked for stays the same but for the switch.
-/

namespace AccelProfile.CommandLine

/-! ## Options from values -/

/-- Where the options of a replay come from: each from the value of its key, and no key has
two values. -/
structure Reads (given : List (Key × String)) (options : ReplayOptions) : Prop where
  distinct : (given.map Prod.fst).Nodup
  trace : (given.lookup .trace).bind readPath? = some options.trace
  config : readOptional? readPath? (given.lookup .config) = some options.config
  output : readOptional? readPath? (given.lookup .output) = some options.output
  debugFlags : given.lookup .debugFlags = options.debugFlags
  name : (given.lookup .name).getD "accelerator" = options.name
  clockPeriod : (readOptional? readNumber? (given.lookup .clockPeriod)).map (·.getD 10) =
    some options.clockPeriod
  setupTime : (readOptional? (fun value => Decimal.read? value.toList)
    (given.lookup .setupTime)).map (·.getD 0) = some options.setupTime
  noStats : (given.lookup .noStats).isSome = options.noStats

theorem readOptions?_eq_some_iff (given : List (Key × String)) (options : ReplayOptions) :
    readOptions? given = some options ↔ Reads given options := by
  constructor
  · intro read
    by_cases distinct : (given.map Prod.fst).Nodup
    · simp only [readOptions?, distinct, not_true_eq_false, if_false, Option.bind_eq_bind,
        Option.bind_eq_some_iff] at read
      obtain ⟨value, isValue, trace, isTrace, config, isConfig, output, isOutput,
        clockPeriod, isClockPeriod, setupTime, isSetupTime, isOptions⟩ := read
      cases isOptions
      constructor
      · exact distinct
      · simp only [isValue, Option.bind_some, isTrace]
      · exact isConfig
      · exact isOutput
      · rfl
      · rfl
      · simp only [isClockPeriod, Option.map_some]
      · simp only [isSetupTime, Option.map_some]
      · rfl
    · simp [readOptions?, distinct] at read
  · intro reads
    obtain ⟨value, isValue, isTrace⟩ := Option.bind_eq_some_iff.1 reads.trace
    obtain ⟨clockPeriod, isClockPeriod, clockPeriodEq⟩ := Option.map_eq_some_iff.1 reads.clockPeriod
    obtain ⟨setupTime, isSetupTime, setupTimeEq⟩ := Option.map_eq_some_iff.1 reads.setupTime
    simp only [readOptions?, reads.distinct, not_true_eq_false, if_false, Option.bind_eq_bind,
      isValue, isTrace, reads.config, reads.output, isClockPeriod, isSetupTime, Option.bind_some,
      reads.debugFlags, reads.name, reads.noStats, clockPeriodEq, setupTimeEq]
    rfl

/-- A path that is given is not empty. -/
theorem Reads.output_ne_empty {given : List (Key × String)} {options : ReplayOptions}
    (reads : Reads given options) : options.output ≠ some "" := by
  intro empty
  have output := reads.output
  rw [empty] at output
  cases value : given.lookup .output with
  | none => simp [value, readOptional?] at output
  | some path => simp [value, readOptional?, readPath?] at output

/-- The value of a key does not depend on the values of the others. -/
theorem lookup_insert_of_ne {key inserted : Key} (other : key ≠ inserted) (value : String)
    (before after : List (Key × String)) :
    (before ++ (inserted, value) :: after).lookup key = (before ++ after).lookup key := by
  rw [List.lookup_append, List.lookup_append, List.lookup_cons, beq_false_of_ne other]

/-- Where nothing but the switch may differ among the values, nothing else differs in what is
asked for. -/
theorem Reads.of_lookup {given other : List (Key × String)} {options : ReplayOptions}
    (reads : Reads given options) (distinct : (other.map Prod.fst).Nodup)
    (elsewhere : ∀ key, key ≠ .noStats → other.lookup key = given.lookup key) :
    Reads other { options with noStats := (other.lookup .noStats).isSome } where
  distinct := distinct
  trace := by
    rw [elsewhere .trace (by decide)]
    exact reads.trace
  config := by
    rw [elsewhere .config (by decide)]
    exact reads.config
  output := by
    rw [elsewhere .output (by decide)]
    exact reads.output
  debugFlags := by
    rw [elsewhere .debugFlags (by decide)]
    exact reads.debugFlags
  name := by
    rw [elsewhere .name (by decide)]
    exact reads.name
  clockPeriod := by
    rw [elsewhere .clockPeriod (by decide)]
    exact reads.clockPeriod
  setupTime := by
    rw [elsewhere .setupTime (by decide)]
    exact reads.setupTime
  noStats := rfl

/-- A switch among the values can be left out. It comes only once, so it is gone then. -/
theorem Reads.of_insert_noStats {before after : List (Key × String)} {value : String}
    {options : ReplayOptions} (reads : Reads (before ++ (.noStats, value) :: after) options) :
    ∃ others, Reads (before ++ after) others ∧ others.noStats = false ∧
      options = { others with noStats := true } := by
  have fewer : (before ++ after).Sublist (before ++ (.noStats, value) :: after) :=
    (List.sublist_cons_self _ after).append_left before
  have switched : options.noStats = true := by
    rw [← reads.noStats, List.lookup_append, List.lookup_cons_self, Option.isSome_or]
    simp
  have once : (before ++ after).lookup .noStats = none := by
    have distinct := reads.distinct
    rw [List.map_append, List.map_cons, List.perm_middle.nodup_iff, List.nodup_cons,
      ← List.map_append] at distinct
    refine List.lookup_eq_none_iff.2 fun entry inside => bne_iff_ne.2 fun same => ?_
    exact distinct.1 (List.mem_map.2 ⟨entry, inside, same.symm⟩)
  refine ⟨_, reads.of_lookup ((fewer.map Prod.fst).nodup reads.distinct) ?_, ?_, ?_⟩
  · intro key other
    exact (lookup_insert_of_ne other value before after).symm
  · rw [once]
    rfl
  · rw [← switched]

/-- And it can be added to values without it. -/
theorem Reads.cons_noStats {given : List (Key × String)} {options : ReplayOptions}
    (reads : Reads given options) (unswitched : options.noStats = false) (value : String) :
    Reads ((.noStats, value) :: given) { options with noStats := true } := by
  have absent : given.lookup .noStats = none := by
    rw [← Option.not_isSome_iff_eq_none, reads.noStats, unswitched]
    decide
  have distinct : (((Key.noStats, value) :: given).map Prod.fst).Nodup := by
    refine List.nodup_cons.2 ⟨fun inside => ?_, reads.distinct⟩
    obtain ⟨entry, isEntry, isKey⟩ := List.mem_map.1 inside
    have differs := List.lookup_eq_none_iff.1 absent entry isEntry
    simp [isKey] at differs
  have elsewhere (key : Key) (other : key ≠ .noStats) :
      ((Key.noStats, value) :: given).lookup key = given.lookup key :=
    lookup_insert_of_ne other value [] given
  have added := reads.of_lookup distinct elsewhere
  rwa [List.lookup_cons_self, Option.isSome_some] at added

/-! ## Values from arguments -/

theorem readWord?_noStats : readWord? "--no-stats".toList = some (.whole .noStats "") := by
  rfl

/-- A switch that is one of the arguments is one of their options, and the others are those of
the other arguments. -/
theorem readWords?_insert_noStats {back : List String} :
    ∀ (front : List String) {given : List (Key × String)},
      readWords? (front ++ "--no-stats" :: back) = some given →
      ∃ before after, given = before ++ (.noStats, "") :: after ∧
        readWords? (front ++ back) = some (before ++ after)
  | [], given, read => by
    simp only [List.nil_append, readWords?, readWord?_noStats, Option.map_eq_some_iff] at read
    obtain ⟨after, isAfter, rfl⟩ := read
    exact ⟨[], after, rfl, isAfter⟩
  | argument :: front, given, read => by
    cases word : readWord? argument.toList with
    | none => simp [readWords?, word] at read
    | some found =>
      cases found with
      | whole key value =>
        simp only [List.cons_append, readWords?, word, Option.map_eq_some_iff] at read ⊢
        obtain ⟨others, isOthers, rfl⟩ := read
        obtain ⟨before, after, rfl, isRest⟩ := readWords?_insert_noStats front isOthers
        exact ⟨(key, value) :: before, after, rfl, _, isRest, rfl⟩
      | awaiting key =>
        cases front with
        | nil =>
          -- The switch looks like an option, so it is not taken as a value.
          have noValue : isValue "--no-stats" = false := by decide
          simp [readWords?, word, noValue] at read
        | cons value front =>
          simp only [List.cons_append, readWords?, word] at read ⊢
          split at read
          · next valued =>
            simp only [Option.map_eq_some_iff, if_pos valued] at read ⊢
            obtain ⟨others, isOthers, rfl⟩ := read
            obtain ⟨before, after, rfl, isRest⟩ := readWords?_insert_noStats front isOthers
            exact ⟨(key, value) :: before, after, rfl, _, isRest, rfl⟩
          · cases read
      | stop => simp [readWords?, word] at read

/-- The options that well-formed arguments ask for come from the values that are read off
them. -/
theorem parse?_cons_eq_some_iff (arguments : List String) (options : ReplayOptions) :
    parse? ("replay" :: arguments) = some options ↔
      ∃ given, readWords? arguments = some given ∧ Reads given options := by
  simp only [parse?, Option.bind_eq_bind, Option.bind_eq_some_iff, readOptions?_eq_some_iff]

/-- Well-formed arguments start with the name of the command. -/
theorem exists_of_parse? {arguments : List String} {options : ReplayOptions}
    (parsed : parse? arguments = some options) :
    ∃ others given, arguments = "replay" :: others ∧ readWords? others = some given ∧
      Reads given options := by
  simp only [parse?] at parsed
  split at parsed
  · next others =>
    obtain ⟨given, isGiven, reads⟩ := (parse?_cons_eq_some_iff others options).1 parsed
    exact ⟨others, given, rfl, isGiven, reads⟩
  · cases parsed

/-- A path for the document is not empty. -/
theorem output_ne_empty_of_parse? {arguments : List String} {options : ReplayOptions}
    (parsed : parse? arguments = some options) : options.output ≠ some "" := by
  obtain ⟨others, given, rfl, isGiven, reads⟩ := exists_of_parse? parsed
  exact reads.output_ne_empty

/-- Without the switch well-formed arguments are still well formed, and ask for the same but
for an engine. -/
theorem parse?_insert_noStats {front back : List String} {options : ReplayOptions}
    (parsed : parse? (front ++ "--no-stats" :: back) = some options) :
    ∃ others, parse? (front ++ back) = some others ∧ others.noStats = false ∧
      options = { others with noStats := true } := by
  obtain ⟨arguments, given, isArguments, isGiven, reads⟩ := exists_of_parse? parsed
  cases front with
  | nil =>
    have first := congrArg List.head? isArguments
    simp at first
  | cons command front =>
    obtain ⟨rfl, rfl⟩ := List.cons.inj isArguments
    obtain ⟨before, after, rfl, isRest⟩ := readWords?_insert_noStats front isGiven
    obtain ⟨others, readsOthers, unswitched, isOptions⟩ := reads.of_insert_noStats
    refine ⟨others, ?_, unswitched, isOptions⟩
    exact (parse?_cons_eq_some_iff _ others).2 ⟨_, isRest, readsOthers⟩

/-- Well-formed arguments without the switch take it right behind the name of the command. -/
theorem parse?_cons_noStats {arguments : List String} {options : ReplayOptions}
    (parsed : parse? ("replay" :: arguments) = some options)
    (unswitched : options.noStats = false) :
    parse? ("replay" :: "--no-stats" :: arguments) = some { options with noStats := true } := by
  obtain ⟨given, isGiven, reads⟩ := (parse?_cons_eq_some_iff arguments options).1 parsed
  refine (parse?_cons_eq_some_iff _ _).2 ⟨(.noStats, "") :: given, ?_, ?_⟩
  · simp only [readWords?, readWord?_noStats, isGiven, Option.map_some]
  · exact reads.cons_noStats unswitched ""

end AccelProfile.CommandLine
