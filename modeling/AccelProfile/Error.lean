import AccelProfile.Json.Decoder
/-!
# Errors

Everything that can go wrong does so at the edges of a run: a file cannot be read or
written, a configuration or a line of a trace is rejected. Accounting itself never fails. A
run without room for its samples is no error here: it stops before it starts.

Each error is a cause with its data. The wording stands in functions of its own, one for
each frame around a reason, so that every error of one kind reads alike.
-/

namespace AccelProfile

/-- Why a file cannot be read or written. -/
inductive FileFault
  /-- There is no such file, or no such directory on the way to it. -/
  | notFound
  /-- The path leads through a file as if it were a directory. -/
  | notDirectory
  /-- The path leads to a directory where a file is wanted. -/
  | isDirectory
  /-- The path, or a name in it, is longer than a file system takes. -/
  | nameTooLong
  /-- The path holds a NUL character. -/
  | nulCharacter
  /-- The file is not text. -/
  | notText
  /-- Any other refusal, in the words of the system. -/
  | refused (reason : String)
  deriving DecidableEq

/-- The wording of a fault. -/
def FileFault.message : FileFault → String
  | .notFound => "No such file or directory (os error 2)"
  | .notDirectory => "Not a directory (os error 20)"
  | .isDirectory => "Is a directory (os error 21)"
  | .nameTooLong => "File name too long (os error 36)"
  | .nulCharacter => "file name contained an unexpected NUL byte"
  | .notText => "stream did not contain valid UTF-8"
  | .refused reason => reason

/-- Why a configuration that was read cannot be used. -/
inductive ConfigFault
  /-- A buffer without room for a sample. -/
  | emptyBuffer
  /-- An output path without a character. -/
  | emptyOutput
  deriving DecidableEq

/-- The wording of a fault. -/
def ConfigFault.message : ConfigFault → String
  | .emptyBuffer => "stat_buffer_size must be at least 1"
  | .emptyOutput => "output_file must not be empty"

/-- Why a line of a trace is rejected. -/
inductive LineFault
  /-- The line cannot be read at all. -/
  | file (fault : FileFault)
  /-- The line is text and no event. -/
  | event (error : ReadError)
  deriving DecidableEq

/-- The wording of a fault. -/
def LineFault.message : LineFault → String
  | .file fault => fault.message
  | .event error => error.message

/-- A rejected line of a trace. -/
structure TraceError where
  /-- The number of the line; the first line is number one. -/
  line : Nat
  /-- What is wrong with it. -/
  fault : LineFault
  deriving DecidableEq

/-- What makes a run fail. -/
inductive RunError
  /-- A file cannot be read or written. -/
  | file (path : String) (fault : FileFault)
  /-- The text of a configuration cannot be read. -/
  | serialization (error : ReadError)
  /-- A configuration cannot be used. -/
  | config (fault : ConfigFault)
  /-- A trace cannot be read. -/
  | trace (error : TraceError)
  deriving DecidableEq

namespace RunError

/-- The frame around what is wrong with a file. -/
def onFile (path reason : String) : String :=
  "I/O error on '" ++ path ++ "': " ++ reason

/-- The frame around what is wrong with the text of a configuration. -/
def inText (reason : String) : String :=
  "serialization error: " ++ reason

/-- The frame around what is wrong with a configuration. -/
def inConfig (reason : String) : String :=
  "invalid configuration: " ++ reason

/-- The frame around what is wrong with a line of a trace. -/
def onLine (line : Nat) (reason : String) : String :=
  "trace line " ++ toString line ++ ": " ++ reason

/-- The wording of an error. -/
def message : RunError → String
  | .file path fault => onFile path fault.message
  | .serialization error => inText error.message
  | .config fault => inConfig fault.message
  | .trace error => onLine error.line error.fault.message

end RunError

/-! ## Steps that can fail -/

section

variable {ε α β : Type} {first : Except ε α} {result : β}

/-- A result of two steps is a result of the second for what the first one gave. -/
theorem ok_of_bind {next : α → Except ε β} (bound : (first >>= next) = .ok result) :
    ∃ value, first = .ok value ∧ next value = .ok result := by
  cases first with
  | error fault => cases bound
  | ok value => exact ⟨value, rfl, bound⟩

theorem ok_of_map {function : α → β} (mapped : first.map function = .ok result) :
    ∃ value, first = .ok value ∧ function value = result := by
  cases first with
  | error fault => cases mapped
  | ok value =>
    cases mapped
    exact ⟨value, rfl, rfl⟩

end

end AccelProfile
