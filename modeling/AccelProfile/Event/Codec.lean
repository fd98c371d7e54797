import AccelProfile.Event.Basic
import AccelProfile.Json.Printer
import AccelProfile.Json.Tagged
/-!
# Events as JSON objects

An event is an object whose member `event` names the kind and whose other members are the
data of the event, side by side with the tag. Writing puts the tag first and leaves
nothing out; reading takes the tag anywhere and fills in what an event may leave out.
-/

namespace AccelProfile

namespace Event

/-- The member that names the kind of an event. -/
def tagName : String := "event"

/-- The members of an event other than its tag. -/
def members : Event → List (String × Json)
  | .dependency edge => edge.members
  | .commit uid opcode isLoad isStore =>
    [("uid", uid.toJson), ("opcode", opcode.toJson), ("is_load", .bool isLoad),
      ("is_store", .bool isStore)]
  | .stall cause => [("cause", cause.toJson)]
  | .noStall => []
  | .parallelism ready issued =>
    [("ready", .ofNat ready.toNat), ("issued", .ofNat issued.toNat)]
  | .cycleStart => []
  | .cycleEnd cycle sample =>
    [("cycle", .ofNat cycle.toNat), ("sample", .ofOption CycleSample.toJson sample)]
  | .memoryRead access => access.members
  | .memoryWrite access => access.members
  | .portContention isRead => [("is_read", .bool isRead)]
  | .busWidths read write => [("read", .ofNat read.toNat), ("write", .ofNat write.toNat)]
  | .fuBusy fu start stop =>
    [("fu", fu.toJson), ("start", .ofNat start.toNat), ("end", .ofNat stop.toNat)]
  | .fuContention fu => [("fu", fu.toJson)]
  | .fuInstances fu count => [("fu", fu.toJson), ("count", .ofNat count.toNat)]
  | .power inputs => inputs.members
  | .area inputs => inputs.members

/-- An event as an object. -/
def toJson (event : Event) : Json :=
  .obj ((tagName, .str event.kind.name) :: event.members)

/-- The text of an event on one line. -/
def text (event : Event) : String :=
  event.toJson.text false

end Event

/-- Reads the data of an event of a kind. -/
def EventKind.decoder : EventKind → Decoder Event
  | .dependency => Fields.decoder (Event.dependency <$> Edge.eventFields)
  | .commit => Fields.decoder <|
    Event.commit <$> .required "uid" Uid.decoder
      <*> .required "opcode" Opcode.decoder
      <*> .optional "is_load" Decoder.bool false
      <*> .optional "is_store" Decoder.bool false
  | .stall => Fields.decoder (Event.stall <$> .required "cause" StallCause.decoder)
  | .noStall => fun mode found => (Tagged.empty mode found).map fun _ => .noStall
  | .parallelism => Fields.decoder <|
    Event.parallelism <$> .required "ready" Decoder.word
      <*> .optional "issued" Decoder.word 0
  | .cycleStart => fun mode found => (Tagged.empty mode found).map fun _ => .cycleStart
  | .cycleEnd => Fields.decoder <|
    Event.cycleEnd <$> .required "cycle" Decoder.word
      <*> .optional "sample" (Decoder.optional CycleSample.decoder) none
  | .memoryRead => Fields.decoder (Event.memoryRead <$> MemoryAccess.fields)
  | .memoryWrite => Fields.decoder (Event.memoryWrite <$> MemoryAccess.fields)
  | .portContention => Fields.decoder <|
    Event.portContention <$> .required "is_read" Decoder.bool
  | .busWidths => Fields.decoder <|
    Event.busWidths <$> .required "read" Decoder.word
      <*> .required "write" Decoder.word
  | .fuBusy => Fields.decoder <|
    Event.fuBusy <$> .required "fu" FuClass.decoder
      <*> .required "start" Decoder.word
      <*> .required "end" Decoder.word
  | .fuContention => Fields.decoder (Event.fuContention <$> .required "fu" FuClass.decoder)
  | .fuInstances => Fields.decoder <|
    Event.fuInstances <$> .required "fu" FuClass.decoder
      <*> .required "count" Decoder.halfWord
  | .power => Fields.decoder (Event.power <$> PowerInputs.fields)
  | .area => Fields.decoder (Event.area <$> AreaInputs.fields)

namespace Event

/-- Reads an event. Its object is read as a whole before its data are looked at. -/
def decoder : Decoder Event := fun _ found => do
  let (kind, content) ←
    Tagged.split tagName (Decoder.named EventKind.all EventKind.name) found
  kind.decoder .buffered content

/-- The event that a text writes. -/
def ofText (text : List Char) : Except ReadError Event :=
  decoder.readText text

end Event

end AccelProfile
