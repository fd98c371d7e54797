import AccelProfile.Proofs.EventStreams
import AccelProfile.Proofs.StoredFiles

/-!
# What a run puts out

The end of a run gives a summary, prints texts and writes files. The summary belongs to the
events: no configuration shows in it, apart from the section of the cycle window. And the
texts belong to the summary: whatever is printed or stored is that summary as a document or as
a table, and the switches and the output path only choose among these.

No event looks at the configuration, and only the two ends of a cycle look at the window. So
two engines with the same graph and the same summary keep them the same along a run, whatever
they are asked to record and to write.
-/

namespace AccelProfile

/-- The summary apart from the section of the cycle window. -/
def Summary.withoutCycles (summary : Summary) : Summary :=
  { summary with cycles := none }

/-- The two parts make up the summary. -/
theorem Summary.eq_of_parts {left right : Summary}
    (rest : left.withoutCycles = right.withoutCycles) (cycles : left.cycles = right.cycles) :
    left = right := by
  cases left
  cases right
  simp only [withoutCycles, mk.injEq] at rest cycles ⊢
  simp only [rest, cycles, and_self]

namespace Engine

/-! ## Runs under different configurations -/

/-- What every engine keeps, whatever it is asked to record and to write. -/
def books (engine : Engine) : DependencyGraph × Summary :=
  (engine.graph, engine.summary)

/-- The books are moved by what they are and by the event, and by nothing else. -/
theorem books_apply {left right : Engine} (same : left.books = right.books) (event : Event) :
    (left.apply event).books = (right.apply event).books := by
  obtain ⟨config, graph, window, path, summary⟩ := left
  obtain ⟨config', graph', window', path', summary'⟩ := right
  obtain ⟨rfl, rfl⟩ := Prod.mk.inj same
  cases event with
  | cycleEnd cycle sample => cases sample <;> rfl
  | _ => rfl

theorem follows_books : Follows apply books EventKind.all where
  moves left right event inside same := books_apply same event
  rests engine event outside := by
    cases event <;> simp [EventKind.all, Event.kind] at outside

/-- No event starts or stops the sampling of cycles. -/
theorem follows_isSome_window : Follows apply (·.window.isSome) [] where
  moves left right event inside same := absurd inside List.not_mem_nil
  rests engine event outside := by
    cases event with
    | cycleEnd cycle sample => cases sample <;> simp [apply, endCycle, setSample]
    | cycleStart => simp [apply, startCycle]
    | _ => rfl

/-- The engine of a run after its events. -/
def told (name : String) (events : List Event) (config : Config) : Engine :=
  events.foldl apply ((start config).setName name)

variable (name : String) (events : List Event)

theorem books_told (config other : Config) :
    (told name events config).books = (told name events other).books :=
  follows_books.foldl_congr events rfl

theorem window_told {config other : Config} (tracking : config.cycleTracking = other.cycleTracking)
    (bufferSize : config.bufferSize = other.bufferSize) :
    (told name events config).window = (told name events other).window := by
  apply follows_window.foldl_congr
  simp only [setName, start, tracking, bufferSize]

theorem isSome_window_told (config : Config) :
    (told name events config).window.isSome = config.cycleTracking := by
  rw [told, follows_isSome_window.foldl_stream, Event.stream_nil]
  cases tracking : config.cycleTracking <;> simp [setName, start, tracking]

theorem config_told (config : Config) : (told name events config).config = config := by
  have settled := follows_settled.foldl_stream events ((start config).setName name)
  rw [Event.stream_nil] at settled
  exact congrArg Prod.fst settled

/-! ## Files of an engine -/

variable {engine : Engine} {path : String} {place : Place}

/-- An engine with an output path writes its table beside it if its switch is set, and then
its document. -/
theorem outputFiles_of_some (asked : engine.config.outputFile = some path) :
    engine.outputFiles =
      (if engine.config.debugFlags.csv then [engine.summary.tableFile path] else []) ++
        [engine.summary.documentFile path engine.config.prettyPrint] := by
  simp [outputFiles, tableFile?, documentFile?, asked]

theorem outputFiles_of_none (unasked : engine.config.outputFile = none) :
    engine.outputFiles = [] := by
  simp [outputFiles, tableFile?, documentFile?, unasked]

/-- The document is the last file to be written, so it stands where its path leads. -/
theorem entry?_document (tree : FileTree) (asked : engine.config.outputFile = some path)
    (leads : tree.target path = .ok place) :
    FileTree.entry? (tree.attemptAll engine.outputFiles) place =
      some (.file (FileTree.bytesOf (engine.documentText ++ "\n"))) := by
  have first : tree.target
      (engine.summary.documentFile path engine.config.prettyPrint).path = .ok place := leads
  rw [FileTree.entry?_attemptAll, outputFiles_of_some asked, List.reverse_concat,
    List.find?_cons_of_pos (by simpa using first)]
  rfl

/-- The table stands where its path leads: the document is stored elsewhere. -/
theorem entry?_table (tree : FileTree) (asked : engine.config.outputFile = some path)
    (csv : engine.config.debugFlags.csv = true)
    (leads : tree.target (OutputPath.csvPath path) = .ok place) :
    FileTree.entry? (tree.attemptAll engine.outputFiles) place =
      some (.file (FileTree.bytesOf engine.summary.tableText)) := by
  have elsewhere : tree.target
      (engine.summary.documentFile path engine.config.prettyPrint).path ≠ .ok place :=
    fun document => FileTree.target_csvPath_ne document leads
  have first : tree.target (engine.summary.tableFile path).path = .ok place := leads
  rw [FileTree.entry?_attemptAll, outputFiles_of_some asked, if_pos csv, List.reverse_concat,
    List.find?_cons_of_neg (by simpa using elsewhere), List.reverse_singleton,
    List.find?_cons_of_pos (by simpa using first)]
  rfl

/-- A place that neither path leads to is left as it was. -/
theorem entry?_elsewhere (tree : FileTree)
    (document : ∀ path, engine.config.outputFile = some path → tree.target path ≠ .ok place)
    (table : ∀ path, engine.config.outputFile = some path →
      engine.config.debugFlags.csv = true →
        tree.target (OutputPath.csvPath path) ≠ .ok place) :
    FileTree.entry? (tree.attemptAll engine.outputFiles) place = tree.entry? place := by
  have unwritten : ∀ file ∈ engine.outputFiles, tree.target file.path ≠ .ok place := by
    cases asked : engine.config.outputFile with
    | none => simp [outputFiles_of_none asked]
    | some path =>
      rw [outputFiles_of_some asked]
      intro file inside
      rcases List.mem_append.1 inside with inside | inside
      · split at inside
        · next csv =>
          obtain rfl := List.mem_singleton.1 inside
          exact table path asked csv
        · cases inside
      · obtain rfl := List.mem_singleton.1 inside
        exact document path asked
  have notFound : engine.outputFiles.reverse.find?
      (fun file => tree.target file.path = .ok place) = none := by
    simpa [List.find?_eq_none] using unwritten
  rw [FileTree.entry?_attemptAll, notFound]

end Engine

/-- The end of a run renders a summary under a configuration. It gives that summary. It prints
it as a document with line breaks and as a table, each if its switch is set, and nothing else.
It writes files only if an output path is given: the table beside that path if its switch is
set, and the document in the form that was asked for. In whatever tree the files are stored, as
far as that can be done, the document stands where its path leads, the table that is printed
stands where the path beside it leads, and everything else is as it was. -/
structure Closing.Renders (closing : Closing) (config : Config) (summary : Summary) : Prop where
  result : closing.result = .structured summary
  console : closing.console =
    (if config.debugFlags.detailed then summary.documentText true ++ "\n" else "") ++
      (if config.debugFlags.csv then summary.tableText else "")
  files : closing.files = config.outputFile.elim [] fun path =>
    (if config.debugFlags.csv then [⟨OutputPath.csvPath path, summary.tableText⟩] else []) ++
      [⟨path, summary.documentText config.prettyPrint ++ "\n"⟩]
  document : ∀ (tree : FileTree) (path : String) (place : Place),
    config.outputFile = some path → tree.target path = .ok place →
      FileTree.entry? (tree.attemptAll closing.files) place =
        some (.file (FileTree.bytesOf (summary.documentText config.prettyPrint ++ "\n")))
  table : ∀ (tree : FileTree) (path : String) (place : Place),
    config.outputFile = some path → config.debugFlags.csv = true →
      tree.target (OutputPath.csvPath path) = .ok place →
        FileTree.entry? (tree.attemptAll closing.files) place =
          some (.file (FileTree.bytesOf summary.tableText))
  elsewhere : ∀ (tree : FileTree) (place : Place),
    (∀ path, config.outputFile = some path → tree.target path ≠ .ok place) →
    (∀ path, config.outputFile = some path → config.debugFlags.csv = true →
      tree.target (OutputPath.csvPath path) ≠ .ok place) →
    FileTree.entry? (tree.attemptAll closing.files) place = tree.entry? place

/-- What an engine prints and writes is its summary under its configuration. -/
theorem Engine.renders (engine : Engine) (accelerator : Accelerator) :
    Closing.Renders ⟨.structured engine.summary, engine.consoleText, engine.outputFiles,
      accelerator⟩ engine.config engine.summary where
  result := rfl
  console := rfl
  files := by
    cases asked : engine.config.outputFile with
    | none => exact outputFiles_of_none asked
    | some path => exact outputFiles_of_some asked
  document tree path place asked leads := entry?_document tree asked leads
  table tree path place asked csv leads := entry?_table tree asked csv leads
  elsewhere tree place document table := entry?_elsewhere tree document table

namespace Accelerator

/-- An accelerator counts alike with its engine and without. -/
theorem detach_replay (accelerator : Accelerator) (events : List Event) :
    (accelerator.replay events).detach = accelerator.detach.replay events := by
  induction events generalizing accelerator with
  | nil => rfl
  | cons event events ih =>
    have step : (accelerator.apply event).detach = accelerator.detach.apply event := by
      cases event <;> rfl
    have next := ih (accelerator.apply event)
    rw [step] at next
    exact next

/-- The engine that a run closes at its end. The configuration is that of the engine alone:
the accelerator hands over the same counts in any case. -/
def closed (name : String) (events : List Event) (setupTime simTime : Float) (clockPeriod : Nat)
    (config : Config) : Engine :=
  ((withoutEngine name).replay events).closeEngine (Engine.told name events config) setupTime
    simTime clockPeriod

variable (name : String) (events : List Event) (setupTime simTime : Float) (clockPeriod : Nat)

/-- A run with an engine ends with what the closed engine says. -/
theorem finalize_withEngine (config : Config) :
    ((withEngine name config).replay events).finalize setupTime simTime clockPeriod =
      let engine := closed name events setupTime simTime clockPeriod config
      ⟨.structured engine.summary, engine.consoleText, engine.outputFiles,
        (withoutEngine name).replay events⟩ := by
  have counts := detach_replay (withEngine name config) events
  have detached : (withEngine name config).detach = withoutEngine name := rfl
  rw [detached] at counts
  rw [finalize_of_some (engine_replay_withEngine name config events), closed, ← counts]
  rfl

theorem config_closed (config : Config) :
    (closed name events setupTime simTime clockPeriod config).config = config :=
  Engine.config_told name events config

/-- The configuration has no part in the summary but for the cycle window. -/
theorem withoutCycles_closed (config other : Config) :
    (closed name events setupTime simTime clockPeriod config).summary.withoutCycles =
      (closed name events setupTime simTime clockPeriod other).summary.withoutCycles := by
  have books := Engine.books_told name events config other
  obtain ⟨graph, summary⟩ := Prod.mk.inj books
  simp only [closed, closeEngine, Engine.summarizeCycles, Engine.analyse, Engine.setPerformance,
    Engine.setName, Summary.withoutCycles, graph, summary]

theorem cycles_closed (config : Config) :
    (closed name events setupTime simTime clockPeriod config).summary.cycles =
      (Engine.told name events config).window.map CycleWindow.summarize :=
  rfl

/-- The end of a run on a fresh accelerator with an engine renders a summary of its events,
whatever the configuration. The summary is the same under all configurations apart from the
section of the cycle window. That section is there exactly if cycles are sampled, and depends
on nothing but that switch and the size of the buffer. -/
theorem outputs_render_summary :
    let closing (config : Config) :=
      ((withEngine name config).replay events).finalize setupTime simTime clockPeriod
    ∃ summary : Config → Summary,
      (∀ config, (closing config).Renders config (summary config)) ∧
      (∀ config other, (summary config).withoutCycles = (summary other).withoutCycles) ∧
      (∀ config other, config.cycleTracking = other.cycleTracking →
        config.bufferSize = other.bufferSize → summary config = summary other) ∧
      ∀ config, (summary config).cycles = none ↔ config.cycleTracking = false := by
  intro closing
  have alike := withoutCycles_closed name events setupTime simTime clockPeriod
  have cycles := cycles_closed name events setupTime simTime clockPeriod
  refine ⟨fun config => (closed name events setupTime simTime clockPeriod config).summary,
    ?_, alike, ?_, ?_⟩
  · intro config
    have renders := (closed name events setupTime simTime clockPeriod config).renders
      ((withoutEngine name).replay events)
    rw [config_closed] at renders
    simp only [closing, finalize_withEngine]
    exact renders
  · intro config other tracking bufferSize
    apply Summary.eq_of_parts (alike config other)
    rw [cycles, cycles, Engine.window_told name events tracking bufferSize]
  · intro config
    rw [cycles, Option.map_eq_none_iff, ← Engine.isSome_window_told name events config,
      Option.isSome_eq_false_iff, Option.isNone_iff_eq_none]

end Accelerator

end AccelProfile
