import AccelProfile.Error
import AccelProfile.Text.Blank
import AccelProfile.Text.Split
/-!
# Configuration

What one accelerator is asked to record and to write. A configuration is a JSON object of
optional fields; whoever reads one from a text gets only configurations that can be used:
a buffer holds at least one sample, and an output path that is given is not empty.

Output switches come from a comma separated list of names. Names that are not known are
passed over, and so is blank space around a name. Lists from several sources are united.
-/

namespace AccelProfile

/-- The switches for output on the console. -/
structure DebugFlags where
  /-- Print the whole document of the report. -/
  detailed : Bool
  /-- Print the table of the report, and write it to a file. -/
  csv : Bool
  deriving DecidableEq, Repr, Inhabited

namespace DebugFlags

/-- No switch is set. -/
def none : DebugFlags :=
  ⟨false, false⟩

/-- The switches that are set on either side. -/
def union (flags other : DebugFlags) : DebugFlags :=
  ⟨flags.detailed || other.detailed, flags.csv || other.csv⟩

/-- The name of the switch for the whole document. -/
def detailedName : String := "SALAMResults"

/-- The name of the switch for the table. -/
def csvName : String := "SALAMResultsCSV"

/-- The environment variable that holds a list of switches. -/
def variableName : String := "SALAM_DEBUG_FLAGS"

/-- The switch that one entry of a list sets, if any. -/
def ofEntry (entry : List Char) : DebugFlags :=
  let name := String.ofList (Text.trim entry)
  ⟨name = detailedName, name = csvName⟩

/-- The switches that a list sets. -/
def parse (list : String) : DebugFlags :=
  (Text.pieces ',' list.toList).foldr (fun entry flags => (ofEntry entry).union flags) none

/-- The switches as an object. -/
def toJson (flags : DebugFlags) : Json :=
  .obj [("detailed_results", .bool flags.detailed), ("csv_results", .bool flags.csv)]

/-- The switches as a record; one that is missing is off. -/
def fields : Fields DebugFlags :=
  DebugFlags.mk <$> .optional "detailed_results" Decoder.bool false
    <*> .optional "csv_results" Decoder.bool false

/-- Reads switches. -/
def decoder : Decoder DebugFlags :=
  fields.decoder

end DebugFlags

/-- What one accelerator is asked to record and to write. -/
structure Config where
  /-- The path of the JSON document, if it is to be written. -/
  outputFile : Option String
  /-- Whether the document is written with line breaks. -/
  prettyPrint : Bool
  /-- Whether cycles are sampled. -/
  cycleTracking : Bool
  /-- The samples of one buffer; two buffers are kept. -/
  bufferSize : UInt64
  /-- The switches for output on the console. -/
  debugFlags : DebugFlags
  deriving DecidableEq, Repr

namespace Config

/-- The configuration of a run that asks for nothing. -/
def standard : Config :=
  ⟨none, true, false, 1024, .none⟩

instance : Inhabited Config :=
  ⟨standard⟩

/-- A configuration as an object. -/
def toJson (config : Config) : Json :=
  .obj [("output_file", .ofOption .str config.outputFile),
    ("pretty_print", .bool config.prettyPrint),
    ("cycle_tracking", .bool config.cycleTracking),
    ("stat_buffer_size", .ofNat config.bufferSize.toNat),
    ("debug_flags", config.debugFlags.toJson)]

/-- A configuration as a record; what is missing is as in the standard one. -/
def fields : Fields Config :=
  Config.mk <$> .optional "output_file" (Decoder.optional Decoder.string) standard.outputFile
    <*> .optional "pretty_print" Decoder.bool standard.prettyPrint
    <*> .optional "cycle_tracking" Decoder.bool standard.cycleTracking
    <*> .optional "stat_buffer_size" Decoder.word standard.bufferSize
    <*> .optional "debug_flags" DebugFlags.decoder standard.debugFlags

/-- Reads a configuration, whether it can be used or not. -/
def decoder : Decoder Config :=
  fields.decoder

/-- What keeps a configuration from being used. The buffer is looked at first. -/
def fault? (config : Config) : Option ConfigFault :=
  if config.bufferSize = 0 then some .emptyBuffer
  else if config.outputFile = some "" then some .emptyOutput
  else none

/-- The configuration itself, if it can be used. -/
def validate (config : Config) : Except RunError Config :=
  match config.fault? with
  | some fault => .error (.config fault)
  | none => .ok config

/-- The configuration that a text writes, if it can be used. -/
def ofText (text : String) : Except RunError Config :=
  match decoder.readText text.toList with
  | .ok config => config.validate
  | .error error => .error (.serialization error)

end Config

end AccelProfile
