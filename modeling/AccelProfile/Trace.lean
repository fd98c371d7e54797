import AccelProfile.Error
import AccelProfile.Event.Codec
import AccelProfile.Text.Blank
import AccelProfile.Text.Split
/-!
# Traces

A trace is a file of events, one on each line. Blank lines are passed over, and so are
comments, which start with `#`. Lines end at line feeds; blank space at both ends of a
line does not count, so a carriage return in front of a line feed does no harm.

Every line has to be text, comments included. The first line that cannot be read ends the
reading, and its number is part of the error: all lines count, whatever is on them.
-/

namespace AccelProfile.Trace

/-- The byte that ends a line. -/
def lineFeed : UInt8 := 10

/-- The text that bytes stand for. -/
def decode? (bytes : List UInt8) : Option String :=
  String.fromUTF8? ⟨bytes.toArray⟩

/-- What a line holds: an event, or nothing when it is blank or a comment. -/
def readLine (bytes : List UInt8) : Except LineFault (Option Event) :=
  match decode? bytes with
  | none => .error (.file .notText)
  | some line =>
    match Text.trim line.toList with
    | [] | '#' :: _ => .ok none
    | text =>
      match Event.ofText text with
      | .ok event => .ok (some event)
      | .error error => .error (.event error)

/-- The events on lines that are numbered from `number` on. -/
def readLines (number : Nat) : List (List UInt8) → Except TraceError (List Event)
  | [] => .ok []
  | line :: lines =>
    match readLine line with
    | .error fault => .error ⟨number, fault⟩
    | .ok found => (readLines (number + 1) lines).map (found.toList ++ ·)

/-- The events of a trace in the order of its lines. -/
def parse (bytes : List UInt8) : Except TraceError (List Event) :=
  readLines 1 (Text.pieces lineFeed bytes)

end AccelProfile.Trace
