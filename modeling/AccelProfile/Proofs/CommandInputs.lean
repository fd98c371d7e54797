import AccelProfile.CommandLine.Replay
import AccelProfile.FileTree
import AccelProfile.Proofs.CommandArguments
import AccelProfile.Proofs.ConfigTexts

/-!
# The input of the command

A run reads two files, the configuration and the trace. So a run with well-formed arguments ends
in one of four ways: with an error of the configuration, with an error of the trace where the
configuration is accepted, and where both are, for want of room for its samples or with a report.

What an error says about its file depends on which of the two it is. A configuration that
cannot be read is always told from one that is rejected. So is a trace, but for the path of a
directory, which is taken for a trace with a bad first line.
-/

namespace AccelProfile

namespace CommandLine

variable {options : ReplayOptions} {view : View}

/-! ## Files that are accepted -/

/-- A file with a configuration that can be used. -/
def HoldsConfig (view : View) (path : String) : Prop :=
  ∃ bytes text config, view path = .ok (.file bytes) ∧ Trace.decode? bytes = some text ∧
    Config.ofText text = .ok config

/-- The configuration that a run asks for, if it asks for one, can be read and used. -/
def ConfigAccepted (options : ReplayOptions) (view : View) : Prop :=
  ∀ path, options.config = some path → HoldsConfig view path

/-- The trace of a run can be read, and each of its lines is in order. -/
def TraceAccepted (options : ReplayOptions) (view : View) : Prop :=
  ∃ bytes events, view options.trace = .ok (.file bytes) ∧ Trace.parse bytes = .ok events

theorem readConfig_eq_ok {path : String} {config : Config}
    (read : readConfig view path = .ok config) :
    ∃ bytes text, view path = .ok (.file bytes) ∧ Trace.decode? bytes = some text ∧
      Config.ofText text = .ok config := by
  simp only [readConfig] at read
  split at read
  · cases read
  · cases read
  · next bytes isFile =>
    split at read
    · cases read
    · next text isText => exact ⟨bytes, text, isFile, isText, read⟩

/-- A configuration is read exactly if it is accepted. -/
theorem holdsConfig_iff {path : String} :
    HoldsConfig view path ↔ ∃ config, readConfig view path = .ok config := by
  constructor
  · rintro ⟨bytes, text, config, isFile, isText, accepted⟩
    exact ⟨config, by simp only [readConfig, isFile, isText, accepted]⟩
  · rintro ⟨config, read⟩
    obtain ⟨bytes, text, isFile, isText, accepted⟩ := readConfig_eq_ok read
    exact ⟨bytes, text, config, isFile, isText, accepted⟩

/-- A trace is read exactly if it is accepted. -/
theorem traceAccepted_iff :
    TraceAccepted options view ↔ ∃ events, loadTrace view options.trace = .ok events := by
  constructor
  · rintro ⟨bytes, events, isFile, parsed⟩
    exact ⟨events, by simp only [loadTrace, isFile, parsed]⟩
  · rintro ⟨events, loaded⟩
    simp only [loadTrace] at loaded
    split at loaded
    · cases loaded
    · cases loaded
    · next bytes isFile =>
      split at loaded
      · cases loaded
      · next parsed => exact ⟨bytes, _, isFile, parsed⟩

/-- The options keep a configuration usable: a path that they put in place of the configured
one is not empty. -/
theorem exists_validate_of_fault? (environment : Option String) {config : Config}
    (sound : config.fault? = none) (named : options.output ≠ some "") :
    ∃ result, Config.validate { config with
      outputFile := options.output <|> config.outputFile
      debugFlags := unitedFlags config.debugFlags environment options.debugFlags } = .ok result := by
  obtain ⟨room, output⟩ := config.fault?_eq_none_iff.1 sound
  refine ⟨_, (Config.validate_eq_ok_iff _ _).2 ⟨(Config.fault?_eq_none_iff _).2 ⟨room, ?_⟩, rfl⟩⟩
  cases given : options.output with
  | none => exact output
  | some path =>
    simp only [given] at named ⊢
    exact named

/-- An accepted configuration stays accepted under the options. -/
theorem exists_loadConfig_of_accepted (environment : Option String)
    (accepted : ConfigAccepted options view) (named : options.output ≠ some "") :
    ∃ config, loadConfig options environment view = .ok config := by
  cases asked : options.config with
  | none =>
    simp only [loadConfig, asked]
    have sound : Config.standard.fault? = none := by decide
    exact exists_validate_of_fault? environment sound named
  | some path =>
    obtain ⟨config, read⟩ := holdsConfig_iff.1 (accepted path asked)
    obtain ⟨bytes, text, -, -, isConfig⟩ := readConfig_eq_ok read
    simp only [loadConfig, asked, read]
    exact exists_validate_of_fault? environment (Config.fault?_of_ofText isConfig) named

theorem not_accepted_of_failed {path : String} {error : RunError}
    (asked : options.config = some path) (failed : readConfig view path = .error error) :
    ¬ ConfigAccepted options view := by
  intro accepted
  obtain ⟨config, read⟩ := holdsConfig_iff.1 (accepted path asked)
  rw [failed] at read
  cases read

/-- A configuration that cannot be read or used is the end of the run. -/
theorem exists_error_of_not_accepted (environment : Option String)
    (rejected : ¬ ConfigAccepted options view) :
    ∃ path error, options.config = some path ∧ readConfig view path = .error error ∧
      loadConfig options environment view = .error error := by
  simp only [ConfigAccepted, Classical.not_forall] at rejected
  obtain ⟨path, asked, rejected⟩ := rejected
  cases read : readConfig view path with
  | ok config => exact absurd (holdsConfig_iff.2 ⟨config, read⟩) rejected
  | error error =>
    refine ⟨path, error, asked, read, ?_⟩
    simp only [loadConfig, asked, read]
    rfl

/-! ## The ends of a run -/

/-- The ways in which a run ends, by what became of its input. -/
inductive Ends (machine : Machine) (console : Console) (options : ReplayOptions)
    (environment : Option String) (view : View) : Outcome → Prop
  | configFailed {path : String} {error : RunError} (asked : options.config = some path)
      (failed : readConfig view path = .error error)
      (unconfigured : loadConfig options environment view = .error error) :
      Ends machine console options environment view (.failed error)
  | traceFailed {config : Config} {error : RunError} (accepted : ConfigAccepted options view)
      (failed : loadTrace view options.trace = .error error)
      (configured : loadConfig options environment view = .ok config) :
      Ends machine console options environment view (.failed error)
  | stopped {config : Config} {events : List Event} {fault : ReservationFault}
      (accepted : ConfigAccepted options view)
      (configured : loadConfig options environment view = .ok config)
      (loaded : loadTrace view options.trace = .ok events)
      (noRoom : newAccelerator? machine options config = .error fault) :
      Ends machine console options environment view (.stopped fault)
  | reported {config : Config} {events : List Event} {accelerator : Accelerator} {report : Report}
      (accepted : ConfigAccepted options view)
      (configured : loadConfig options environment view = .ok config)
      (loaded : loadTrace view options.trace = .ok events)
      (room : newAccelerator? machine options config = .ok accelerator)
      (isReport : report = .ofClosing (close options accelerator events)) :
      Ends machine console options environment view (report.conclude (report.refusal? console))

variable {machine : Machine} {console : Console} {environment : Option String}

/-- Once the input is read, all hangs on the room for the samples. -/
theorem prepare_of_loaded {config : Config} {events : List Event}
    (configured : loadConfig options environment view = .ok config)
    (loaded : loadTrace view options.trace = .ok events) :
    prepare machine options environment view =
      ((newAccelerator? machine options config).mapError .stopped).map fun accelerator =>
        .ofClosing (close options accelerator events) := by
  rw [prepare, configured, loaded]
  rfl

/-- Each run with well-formed arguments ends in one of these ways. -/
theorem ends_runOn {arguments : List String} (parsed : parse? arguments = some options)
    (machine : Machine) (console : Console) (environment : Option String) (view : View) :
    Ends machine console options environment view
      (runOn machine console arguments environment view) := by
  have named : options.output ≠ some "" := output_ne_empty_of_parse? parsed
  simp only [runOn, plan, parsed]
  by_cases accepted : ConfigAccepted options view
  · obtain ⟨config, configured⟩ := exists_loadConfig_of_accepted environment accepted named
    cases loaded : loadTrace view options.trace with
    | error error =>
      simp only [prepare, configured, loaded]
      exact .traceFailed accepted loaded configured
    | ok events =>
      rw [prepare_of_loaded configured loaded]
      cases room : newAccelerator? machine options config with
      | error fault => exact .stopped accepted configured loaded room
      | ok accelerator => exact .reported accepted configured loaded room rfl
  · obtain ⟨path, error, asked, failed, unconfigured⟩ :=
      exists_error_of_not_accepted environment accepted
    simp only [prepare, unconfigured]
    exact .configFailed asked failed unconfigured

variable {outcome : Outcome}

/-- A run whose input is not accepted fails for that reason. -/
theorem Ends.fails (ends : Ends machine console options environment view outcome)
    (rejected : ¬ (ConfigAccepted options view ∧ TraceAccepted options view)) :
    ∃ error, outcome = .failed error := by
  cases ends with
  | configFailed => exact ⟨_, rfl⟩
  | traceFailed => exact ⟨_, rfl⟩
  | stopped accepted _ loaded =>
    exact absurd ⟨accepted, traceAccepted_iff.2 ⟨_, loaded⟩⟩ rejected
  | reported accepted _ loaded =>
    exact absurd ⟨accepted, traceAccepted_iff.2 ⟨_, loaded⟩⟩ rejected

theorem conclude_ne_failed (report : Report) (refusal : Option FileFault) (error : RunError) :
    report.conclude refusal ≠ .failed error := by
  cases refusal <;> simp [Report.conclude]

/-- A run whose input is accepted does not fail for that reason. -/
theorem Ends.ne_failed (ends : Ends machine console options environment view outcome)
    (accepted : ConfigAccepted options view ∧ TraceAccepted options view) (error : RunError) :
    outcome ≠ .failed error := by
  cases ends with
  | configFailed asked failed => exact absurd accepted.1 (not_accepted_of_failed asked failed)
  | traceFailed _ failed =>
    obtain ⟨events, loaded⟩ := traceAccepted_iff.1 accepted.2
    rw [failed] at loaded
    cases loaded
  | stopped => simp
  | reported => exact conclude_ne_failed _ _ error

/-- A run that stops is told from one that succeeds and from one whose input is rejected. -/
theorem stopCode_ne (fault : ReservationFault) : stopCode fault ≠ 0 ∧ stopCode fault ≠ 1 := by
  cases fault <;> simp [stopCode]

/-- Where there is a report, only a refused digest makes a run fail. -/
theorem exitCode_conclude (report : Report) (refusal : Option FileFault) :
    (report.conclude refusal).exitCode = if refusal.isSome then 3 else 0 := by
  cases refusal <;> rfl

end CommandLine

end AccelProfile
