import AccelProfile.Proofs.CommandInputs
import AccelProfile.Proofs.EventStreams
import AccelProfile.Proofs.TextBytes

/-!
# What the command leaves behind

As long as the input can still be rejected nothing is printed and no file is written. A run whose
input is accepted comes to its end and succeeds, unless something stands in its way: there is no
room for the samples of its engine, or its digest is refused. A file that cannot be written does
not stand in its way.

Whether there is an engine shows only after the input is read, and a run without one needs no room
and has no digest. So the switch that takes the engine away makes a difference to how the command
ends exactly where something stands in the way of the run with the engine. Something can: a
configuration may ask for any number of samples, and no machine has room for all of them.
-/

namespace AccelProfile.CommandLine

/-- How the command ends, what has come out of the console, and the files as it leaves them. -/
structure Ending where
  outcome : Outcome
  printed : List UInt8
  /-- The files, where those of the outcome were written. -/
  tree : FileTree

/-- Runs the command on what its paths lead to, with a console, and writes its files into a tree.
A file that cannot be written is passed over. -/
def execute (machine : Machine) (console : Console) (arguments : List String)
    (environment : Option String) (view : View) (tree : FileTree) : Ending :=
  let outcome := runOn machine console arguments environment view
  ⟨outcome, outcome.printed console, tree.attemptAll outcome.files⟩

/-- The input of a run can be read and used. -/
def InputAccepted (options : ReplayOptions) (view : View) : Prop :=
  ConfigAccepted options view ∧ TraceAccepted options view

/-- Nothing stands in the way of a run with an engine. -/
structure Unhindered (machine : Machine) (console : Console) (options : ReplayOptions)
    (environment : Option String) (view : View) : Prop where
  /-- If cycles are sampled, there is room for the samples. -/
  room : ∀ config, loadConfig options environment view = .ok config → config.cycleTracking = true →
    ∃ window, CycleWindow.reserve? machine config.bufferSize = .ok window
  /-- The digest is not refused. -/
  digest : ∀ report, prepare machine options environment view = .ok report →
    report.refusal? console = none

variable {arguments : List String} {options : ReplayOptions} {machine : Machine} {console : Console}
  {environment : Option String} {view : View}

/-! ## Runs whose input is accepted -/

/-- There is an accelerator exactly if there is no engine or room for the samples. -/
theorem exists_newAccelerator?_iff (config : Config) :
    (∃ accelerator, newAccelerator? machine options config = .ok accelerator) ↔
      options.noStats = true ∨ (config.cycleTracking = true →
        ∃ window, CycleWindow.reserve? machine config.bufferSize = .ok window) := by
  simp only [newAccelerator?, Accelerator.withEngine?, Engine.start?]
  cases options.noStats with
  | true => simp
  | false =>
    cases config.cycleTracking with
    | false => simp [Except.map]
    | true => cases CycleWindow.reserve? machine config.bufferSize <;> simp [Except.map]

/-- A run whose accelerator is there comes to its report. -/
theorem prepare_of_room {config : Config} {events : List Event} {accelerator : Accelerator}
    (configured : loadConfig options environment view = .ok config)
    (loaded : loadTrace view options.trace = .ok events)
    (room : newAccelerator? machine options config = .ok accelerator) :
    prepare machine options environment view =
      .ok (.ofClosing (close options accelerator events)) := by
  rw [prepare_of_loaded configured loaded, room]
  rfl

/-- Without an engine a run ends with its own counts, and asks for no file and no digest. -/
theorem ofClosing_close_of_noStats (switched : options.noStats = true) {config : Config}
    {accelerator : Accelerator} (room : newAccelerator? machine options config = .ok accelerator)
    (events : List Event) :
    (Report.ofClosing (close options accelerator events)).digest = none ∧
      (Report.ofClosing (close options accelerator events)).files = [] := by
  have missing : (accelerator.replay events).engine = none := by
    rw [newAccelerator?, if_pos switched] at room
    cases room
    rw [Accelerator.engine_replay]
    rfl
  simp only [close, Accelerator.finalize_of_none missing, Report.ofClosing, and_self]

/-- With its input a run succeeds exactly if it has no engine or nothing stands in its way. -/
theorem Ends.exitCode_eq_zero_iff {outcome : Outcome}
    (ends : Ends machine console options environment view outcome)
    (accepted : InputAccepted options view) :
    outcome.exitCode = 0 ↔
      options.noStats = true ∨ Unhindered machine console options environment view := by
  have notFailed := ends.ne_failed accepted
  cases ends with
  | configFailed => exact absurd rfl (notFailed _)
  | traceFailed => exact absurd rfl (notFailed _)
  | @stopped config _ fault _ configured _ noRoom =>
    have none : ¬ ∃ accelerator, newAccelerator? machine options config = .ok accelerator := by
      simp [noRoom]
    rw [exists_newAccelerator?_iff, not_or] at none
    refine iff_of_false (stopCode_ne fault).1 (not_or.2 ⟨none.1, fun unhindered => none.2 ?_⟩)
    exact unhindered.room config configured
  | @reported config events accelerator report _ configured loaded room isReport =>
    have prepared : prepare machine options environment view = .ok report :=
      isReport ▸ prepare_of_room configured loaded room
    have code : (report.conclude (report.refusal? console)).exitCode = 0 ↔
        report.refusal? console = none := by
      rw [exitCode_conclude]
      cases report.refusal? console <;> simp
    rw [code]
    constructor
    · intro unrefused
      refine ((exists_newAccelerator?_iff config).1 ⟨_, room⟩).imp_right fun hasRoom => ⟨?_, ?_⟩
      · intro other isOther
        rw [configured] at isOther
        exact Except.ok.inj isOther ▸ hasRoom
      · intro other isOther
        rw [prepared] at isOther
        exact Except.ok.inj isOther ▸ unrefused
    · rintro (switched | unhindered)
      · obtain ⟨noDigest, -⟩ := ofClosing_close_of_noStats switched room events
        rw [Report.refusal?, isReport, noDigest, Option.bind_none]
      · exact unhindered.digest report prepared

/-- What a run without an engine writes. -/
theorem Ends.files_of_noStats {outcome : Outcome}
    (ends : Ends machine console options environment view outcome)
    (switched : options.noStats = true) : outcome.files = [] := by
  cases ends with
  | configFailed => rfl
  | traceFailed => rfl
  | stopped => rfl
  | @reported _ events _ report _ _ _ room isReport =>
    obtain ⟨-, noFiles⟩ := ofClosing_close_of_noStats switched room events
    rw [← isReport] at noFiles
    cases report.refusal? console <;> exact noFiles

/-- With its input a run fails in one of two ways: it stops for want of room, or its digest is
refused. -/
theorem Ends.hindered {outcome : Outcome}
    (ends : Ends machine console options environment view outcome)
    (accepted : InputAccepted options view) (fails : outcome.exitCode ≠ 0) :
    (∃ fault, outcome = .stopped fault) ∨ ∃ report fault, outcome = .unprinted report fault := by
  have notFailed := ends.ne_failed accepted
  cases ends with
  | configFailed => exact absurd rfl (notFailed _)
  | traceFailed => exact absurd rfl (notFailed _)
  | stopped => exact .inl ⟨_, rfl⟩
  | @reported _ _ _ report =>
    cases refusal : report.refusal? console with
    | none =>
      rw [refusal] at fails
      exact absurd rfl fails
    | some fault => exact .inr ⟨report, fault, rfl⟩

/-- A run that succeeds tells no error. -/
theorem error?_eq_none_of_exitCode_eq_zero {outcome : Outcome} (succeeds : outcome.exitCode = 0) :
    outcome.error? = none := by
  cases outcome with
  | failed error => cases error <;> cases succeeds
  | unprinted => cases succeeds
  | _ => rfl

/-! ## The run without an engine -/

/-- The engine has no part in reading the input: where that fails, it fails without an engine too,
and for the same reason. -/
theorem Ends.runOn_noStats {outcome : Outcome} {error : RunError}
    (ends : Ends machine console options environment view outcome)
    (failed : outcome = .failed error)
    (switched : parse? arguments = some { options with noStats := true }) :
    runOn machine console arguments environment view = .failed error := by
  have sameConfig : loadConfig { options with noStats := true } environment view =
      loadConfig options environment view := rfl
  cases ends with
  | configFailed _ _ unconfigured =>
    cases failed
    simp only [runOn, plan, switched, prepare, sameConfig, unconfigured]
    rfl
  | traceFailed _ unread configured =>
    cases failed
    simp only [runOn, plan, switched, prepare, sameConfig, configured, unread]
    rfl
  | stopped => cases failed
  | reported => exact absurd failed (conclude_ne_failed _ _ error)

/-- With the switch and without it a run ends alike exactly if its input is rejected or nothing
stands in its way. -/
theorem runOn_alike_iff {others : List String}
    (switched : parse? arguments = some { options with noStats := true })
    (parsed : parse? others = some options) (unswitched : options.noStats = false) :
    ((runOn machine console arguments environment view).error? =
          (runOn machine console others environment view).error? ∧
        (runOn machine console arguments environment view).exitCode =
          (runOn machine console others environment view).exitCode) ↔
      (InputAccepted options view → Unhindered machine console options environment view) := by
  have ends := ends_runOn switched machine console environment view
  have endsFull := ends_runOn parsed machine console environment view
  by_cases accepted : InputAccepted options view
  · have succeeds := (ends.exitCode_eq_zero_iff accepted).2 (.inl rfl)
    have fullSucceeds := endsFull.exitCode_eq_zero_iff accepted
    rw [unswitched] at fullSucceeds
    constructor
    · rintro ⟨-, sameCode⟩ -
      exact (fullSucceeds.1 (sameCode.symm.trans succeeds)).resolve_left Bool.false_ne_true
    · intro unhindered
      have zero := fullSucceeds.2 (.inr (unhindered accepted))
      rw [error?_eq_none_of_exitCode_eq_zero succeeds, error?_eq_none_of_exitCode_eq_zero zero,
        succeeds, zero]
      exact ⟨rfl, rfl⟩
  · obtain ⟨error, failed⟩ := endsFull.fails accepted
    rw [failed, endsFull.runOn_noStats failed switched]
    exact iff_of_true ⟨rfl, rfl⟩ fun isAccepted => absurd isAccepted accepted

/-! ## Consoles -/

/-- With an engine a run has a digest. -/
theorem isSome_digest_of_engine (unswitched : options.noStats = false) {config : Config}
    {accelerator : Accelerator} (room : newAccelerator? machine options config = .ok accelerator)
    (events : List Event) :
    (Report.ofClosing (close options accelerator events)).digest.isSome := by
  rw [newAccelerator?, unswitched] at room
  obtain ⟨engine, -, rfl⟩ := ok_of_map room
  rw [close, Accelerator.finalize_of_some (Accelerator.engine_replay _ events)]
  rfl

/-- Where nothing is refused, a run needs no more than room for its samples. -/
theorem Unhindered.of_room {config : Config}
    (configured : loadConfig options environment view = .ok config)
    (room : ∃ window, CycleWindow.reserve? machine config.bufferSize = .ok window) :
    Unhindered machine .patient options environment view where
  room other isOther _ := by
    rw [configured] at isOther
    exact Except.ok.inj isOther ▸ room
  digest report _ := by
    cases digest : report.digest <;> simp [Report.refusal?, digest, Console.patient]

/-- Where everything is refused, the digest of a run with an engine is. -/
theorem not_unhindered_closed (unswitched : options.noStats = false) (fault : FileFault)
    (accepted : InputAccepted options view)
    (usable : ∃ config, loadConfig options environment view = .ok config) :
    ¬ Unhindered machine (.closed fault) options environment view := by
  intro unhindered
  obtain ⟨config, configured⟩ := usable
  obtain ⟨events, loaded⟩ := traceAccepted_iff.1 accepted.2
  obtain ⟨accelerator, room⟩ :=
    (exists_newAccelerator?_iff config).2 (.inr (unhindered.room config configured))
  have unrefused := unhindered.digest _ (prepare_of_room configured loaded room)
  obtain ⟨digest, isDigest⟩ :=
    Option.isSome_iff_exists.1 (isSome_digest_of_engine unswitched room events)
  rw [Report.refusal?, isDigest] at unrefused
  cases unrefused

/-! ## All or nothing -/

/-- A run with well-formed arguments does nothing where its input is not accepted, and fails. Where
it is accepted the run succeeds, whatever becomes of its files, exactly if it has no engine or
nothing stands in its way. If it fails all the same, it has done nothing and has no error to tell
of, or it tells that the console refused what was printed.

Wherever the switch that takes the engine away stands among well-formed arguments, the others are
well formed too, and with the switch no file is written. The runs with it and without it end with
the same error and the same exit code exactly if their input is not accepted or nothing stands in
the way of the run with the engine. Arguments without the switch can always take it. -/
theorem all_or_nothing_iff_unhindered (machine : Machine) (console : Console)
    (environment : Option String) (view : View) (tree : FileTree) :
    (∀ arguments options, parse? arguments = some options →
      let ending := execute machine console arguments environment view tree
      (¬ InputAccepted options view →
        ending.outcome.exitCode ≠ 0 ∧ ending.printed = [] ∧ ending.tree = tree) ∧
      (InputAccepted options view → (ending.outcome.exitCode = 0 ↔
        options.noStats = true ∨ Unhindered machine console options environment view)) ∧
      (InputAccepted options view → ending.outcome.exitCode ≠ 0 →
        (ending.printed = [] ∧ ending.tree = tree ∧ ending.outcome.error? = none) ∨
          ending.outcome.exitCode = 3 ∧
            ∃ fault, ending.outcome.error? = some (.file consolePath fault))) ∧
    (∀ front back options, parse? (front ++ "--no-stats" :: back) = some options →
      let reduced := execute machine console (front ++ "--no-stats" :: back) environment view tree
      let full := execute machine console (front ++ back) environment view tree
      reduced.outcome.files = [] ∧ reduced.tree = tree ∧
      ∃ others, parse? (front ++ back) = some others ∧ others.noStats = false ∧
        (reduced.outcome.error? = full.outcome.error? ∧
            reduced.outcome.exitCode = full.outcome.exitCode ↔
          (InputAccepted others view → Unhindered machine console others environment view))) ∧
    ∀ arguments options, parse? ("replay" :: arguments) = some options →
      options.noStats = false → (parse? ("replay" :: "--no-stats" :: arguments)).isSome := by
  refine ⟨?_, ?_, ?_⟩
  · intro arguments options parsed ending
    have ends : Ends machine console options environment view ending.outcome :=
      ends_runOn parsed machine console environment view
    have printed : ending.printed = ending.outcome.printed console := rfl
    have left : ending.tree = tree.attemptAll ending.outcome.files := rfl
    refine ⟨fun rejected => ?_, ends.exitCode_eq_zero_iff, fun accepted fails => ?_⟩
    · obtain ⟨error, failed⟩ := ends.fails rejected
      rw [printed, left, failed]
      refine ⟨?_, rfl, rfl⟩
      cases error <;> simp [Outcome.exitCode]
    · obtain ⟨fault, stopped⟩ | ⟨report, fault, refused⟩ := ends.hindered accepted fails
      · rw [printed, left, stopped]
        exact .inl ⟨rfl, rfl, rfl⟩
      · rw [refused]
        exact .inr ⟨rfl, fault, rfl⟩
  · intro front back options parsed reduced full
    obtain ⟨others, parsedOthers, unswitched, rfl⟩ := parse?_insert_noStats parsed
    have ends : Ends machine console { others with noStats := true } environment view
        reduced.outcome := ends_runOn parsed machine console environment view
    have noFiles : reduced.outcome.files = [] := ends.files_of_noStats rfl
    have left : reduced.tree = tree.attemptAll reduced.outcome.files := rfl
    refine ⟨noFiles, by rw [left, noFiles]; rfl, others, parsedOthers, unswitched, ?_⟩
    exact runOn_alike_iff parsed parsedOthers unswitched
  · intro arguments options parsed unswitched
    exact Option.isSome_of_eq_some (parse?_cons_noStats parsed unswitched)

/-! ## Runs on a file tree -/

section Files

variable {path text : String} {config : Config} (asked : options.config = some path)
  (isFile : view path = .ok (.file (FileTree.bytesOf text)))
  (isConfig : Config.ofText text = .ok config)

include isFile isConfig

theorem holdsConfig_of_text : HoldsConfig view path :=
  ⟨_, text, config, isFile, FileTree.fromUTF8?_bytesOf text, isConfig⟩

include asked

theorem loadConfig_of_text (environment : Option String) :
    loadConfig options environment view = Config.validate { config with
      outputFile := options.output <|> config.outputFile
      debugFlags := unitedFlags config.debugFlags environment options.debugFlags } := by
  have decoded : Trace.decode? (FileTree.bytesOf text) = some text :=
    FileTree.fromUTF8?_bytesOf text
  simp only [loadConfig, asked, readConfig, isFile, decoded, isConfig]
  rfl

theorem inputAccepted_of_text {bytes : List UInt8} {events : List Event}
    (isTrace : view options.trace = .ok (.file bytes)) (inOrder : Trace.parse bytes = .ok events) :
    InputAccepted options view := by
  refine ⟨fun other isOther => ?_, bytes, events, isTrace, inOrder⟩
  rw [asked] at isOther
  exact Option.some.inj isOther ▸ holdsConfig_of_text isFile isConfig

end Files

/-- A directory with the files of a run in it. -/
def workTree (trace config : String) : FileTree :=
  ((FileTree.within ["work"]).attempt ⟨"trace.jsonl", trace⟩).attempt ⟨"config.json", config⟩

/-- The options of a run on these files. -/
def workOptions (output : Option String) (noStats : Bool) : ReplayOptions :=
  ⟨"trace.jsonl", some "config.json", output, none, "accelerator", 10, 0, noStats⟩

/-- A trace without an event. -/
def emptyTrace : String := "\n# Nothing\n"

/-- A configuration that samples cycles. -/
def samplingText : String := "\x7b\"cycle_tracking\": true\x7d"

/-- A run that samples its cycles and cannot write its document, the same run without an engine and
with a console that nothing reads, and a run without its files. -/
theorem unwritten_document_passed_over :
    let tree := workTree emptyTrace samplingText
    let options := ["--trace=trace.jsonl", "--config=config.json", "--output=out/run.json"]
    let ending := execute .spacious .patient ("replay" :: options) none tree.find tree
    let reduced := execute .spacious .patient ("replay" :: "--no-stats" :: options) none
      tree.find tree
    let broken := Console.closed (.refused "Broken pipe (os error 32)")
    let unread := execute .spacious broken ("replay" :: options) none tree.find tree
    let empty := FileTree.within ["work"]
    let failed := execute .spacious .patient ("replay" :: options) none empty.find empty
    tree.target "out/run.json" = .error .notFound ∧ ending.outcome.exitCode = 0 ∧
    reduced.outcome.exitCode = ending.outcome.exitCode ∧ reduced.tree = tree ∧
    unread.outcome.exitCode ≠ 0 ∧
    failed.outcome.exitCode ≠ 0 ∧ failed.printed = [] ∧ failed.tree = empty := by
  have isFile : (workTree emptyTrace samplingText).find "config.json" =
      .ok (.file (FileTree.bytesOf samplingText)) := by rfl
  have isTrace : (workTree emptyTrace samplingText).find "trace.jsonl" =
      .ok (.file (FileTree.bytesOf emptyTrace)) := by rfl
  have isConfig : Config.ofText samplingText = .ok { Config.standard with cycleTracking := true } :=
    by cbv
  have inOrder : Trace.parse (FileTree.bytesOf emptyTrace) = .ok [] := by rfl
  have noTarget : (workTree emptyTrace samplingText).target "out/run.json" = .error .notFound := by
    rfl
  intro tree options ending reduced broken unread empty failed
  have parsed : parse? ("replay" :: options) = some (workOptions (some "out/run.json") false) := by
    rfl
  have switched : parse? (["replay"] ++ "--no-stats" :: options) =
      some (workOptions (some "out/run.json") true) := by rfl
  have missing : empty.find "trace.jsonl" = .error .notFound := by rfl
  have accepted : InputAccepted (workOptions (some "out/run.json") false) tree.find :=
    inputAccepted_of_text rfl isFile isConfig isTrace inOrder
  have configured : loadConfig (workOptions (some "out/run.json") false) none tree.find =
      .ok { Config.standard with cycleTracking := true, outputFile := some "out/run.json" } :=
    loadConfig_of_text rfl isFile isConfig none
  have room : ∃ window, CycleWindow.reserve? .spacious 1024 = .ok window :=
    ⟨_, CycleWindow.reserve?_eq_ok (by decide) rfl⟩
  have unhindered := Unhindered.of_room configured room
  obtain ⟨whole, engineless, -⟩ :=
    all_or_nothing_iff_unhindered .spacious .patient none tree.find tree
  obtain ⟨-, unchanged, others, isOthers, -, same⟩ := engineless ["replay"] options _ switched
  obtain rfl := Option.some.inj (parsed.symm.trans isOthers)
  have noTrace : ¬ InputAccepted (workOptions (some "out/run.json") false) empty.find := by
    rintro ⟨-, bytes, events, isTrace, -⟩
    exact absurd (missing.symm.trans isTrace) (by simp)
  have unreadFails := ((all_or_nothing_iff_unhindered .spacious broken none tree.find tree).1 _ _
    parsed).2.1 accepted
  refine ⟨noTarget, ((whole _ _ parsed).2.1 accepted).2 (.inr unhindered),
    (same.2 fun _ => unhindered).2, unchanged, ?_, ?_⟩
  · rw [Ne, unreadFails]
    rintro (isSwitched | reads)
    · cases isSwitched
    · exact not_unhindered_closed rfl _ accepted ⟨_, configured⟩ reads
  · exact ((all_or_nothing_iff_unhindered .spacious .patient none empty.find empty).1 _ _
      parsed).1 noTrace

/-- Without room for its samples a run stops, and has done nothing. -/
theorem execute_of_noRoom {config : Config} {events : List Event} {fault : ReservationFault}
    (parsed : parse? arguments = some options)
    (configured : loadConfig options environment view = .ok config)
    (loaded : loadTrace view options.trace = .ok events)
    (noRoom : newAccelerator? machine options config = .error fault) (tree : FileTree) :
    execute machine console arguments environment view tree = ⟨.stopped fault, [], tree⟩ := by
  have stopped : runOn machine console arguments environment view = .stopped fault := by
    simp only [runOn, plan, parsed, prepare_of_loaded configured loaded, noRoom]
    rfl
  rw [execute, stopped]
  rfl

/-- Without an engine a run succeeds as soon as its input is accepted. -/
theorem exitCode_execute_of_noStats (parsed : parse? arguments = some options)
    (switched : options.noStats = true) (accepted : InputAccepted options view)
    (machine : Machine) (console : Console) (environment : Option String) (tree : FileTree) :
    (execute machine console arguments environment view tree).outcome.exitCode = 0 :=
  ((ends_runOn parsed machine console environment view).exitCode_eq_zero_iff accepted).2
    (.inl switched)

/-- A configuration that asks for more samples than any machine has room for. -/
def crowdedText : String :=
  "\x7b\"cycle_tracking\":true,\"stat_buffer_size\":18446744073709551615\x7d"

/-- The configuration in this text. -/
def crowded : Config :=
  { Config.standard with cycleTracking := true, bufferSize := 18446744073709551615 }

/-- Its buffer cannot be reserved twice: the product is noticed, or what is left of it is too
large. -/
theorem exists_reserve?_crowded_eq_error (machine : Machine) :
    ∃ fault, CycleWindow.reserve? machine crowded.bufferSize = .error fault ∧
      stopCode fault = 101 := by
  cases noticed : machine.noticesOverflow with
  | true =>
    have stops : CycleWindow.capacity? machine crowded.bufferSize = .error .overflow := by
      rw [CycleWindow.capacity?, noticed]
      rfl
    refine ⟨.overflow, ?_, rfl⟩
    rw [CycleWindow.reserve?, stops]
    rfl
  | false =>
    have wraps : CycleWindow.capacity? machine crowded.bufferSize = .ok 18446744073709551614 := by
      rw [CycleWindow.capacity?, noticed]
      rfl
    refine ⟨.tooLarge, ?_, rfl⟩
    rw [CycleWindow.reserve?, wraps]
    rfl

/-- A run whose input is accepted need not succeed, and the engine can make the difference: where
the configuration asks for the largest number of samples, the run stops on every machine, and
succeeds without an engine. -/
theorem largest_buffer_stops_run :
    let tree := workTree "" crowdedText
    let arguments := ["--trace=trace.jsonl", "--config=config.json"]
    ∃ options, parse? ("replay" :: arguments) = some options ∧ InputAccepted options tree.find ∧
      ∀ machine console,
        let ending := execute machine console ("replay" :: arguments) none tree.find tree
        let reduced :=
          execute machine console ("replay" :: "--no-stats" :: arguments) none tree.find tree
        ending.outcome.exitCode = 101 ∧ ending.outcome.error? = none ∧ ending.printed = [] ∧
        ending.tree = tree ∧ reduced.outcome.exitCode = 0 := by
  have isFile : (workTree "" crowdedText).find "config.json" =
      .ok (.file (FileTree.bytesOf crowdedText)) := by rfl
  have isTrace : (workTree "" crowdedText).find "trace.jsonl" =
      .ok (.file (FileTree.bytesOf "")) := by rfl
  have isConfig : Config.ofText crowdedText = .ok crowded := by
    have read : (Config.ofText crowdedText).toOption = some crowded := by decide +kernel
    cases accepted : Config.ofText crowdedText with
    | error => simp [accepted, Except.toOption] at read
    | ok config => simpa [accepted, Except.toOption] using read
  have inOrder : Trace.parse (FileTree.bytesOf "") = .ok [] := by rfl
  intro tree arguments
  have accepted (noStats : Bool) : InputAccepted (workOptions none noStats) tree.find :=
    inputAccepted_of_text rfl isFile isConfig isTrace inOrder
  have parsed : parse? ("replay" :: arguments) = some (workOptions none false) := by rfl
  have switched : parse? ("replay" :: "--no-stats" :: arguments) =
      some (workOptions none true) := by rfl
  have configured : loadConfig (workOptions none false) none tree.find = .ok crowded :=
    loadConfig_of_text rfl isFile isConfig none
  have loaded : loadTrace tree.find "trace.jsonl" = .ok [] := by
    simp only [loadTrace, tree, isTrace, inOrder]
  refine ⟨workOptions none false, parsed, accepted false, ?_⟩
  intro machine console ending reduced
  obtain ⟨fault, full, code⟩ := exists_reserve?_crowded_eq_error machine
  have noRoom : newAccelerator? machine (workOptions none false) crowded = .error fault := by
    rw [newAccelerator?, Accelerator.withEngine?, Engine.start?, full]
    rfl
  have stopped : ending = ⟨.stopped fault, [], tree⟩ :=
    execute_of_noRoom parsed configured loaded noRoom tree
  have succeeds : reduced.outcome.exitCode = 0 :=
    exitCode_execute_of_noStats switched rfl (accepted true) machine console none tree
  rw [stopped]
  exact ⟨code, rfl, rfl, rfl, succeeds⟩

end AccelProfile.CommandLine
