import AccelProfile.Instruction
/-!
# Dependencies

A dependency says that one instruction, the consumer, had to wait for another one, the
producer. It is of any number of kinds at once, and of none as well: such an edge still
puts the two instructions in order.
-/

namespace AccelProfile

/-- The kinds of a dependency. -/
structure DepKinds where
  /-- The consumer reads what the producer wrote. -/
  raw : Bool
  /-- The consumer writes what the producer read. -/
  war : Bool
  /-- The consumer writes what the producer wrote. -/
  waw : Bool
  /-- The producer decides whether the consumer runs. -/
  control : Bool
  /-- Memory has to see the two in order. -/
  memory : Bool
  deriving DecidableEq, Repr, Inhabited

namespace DepKinds

/-- No kind at all. -/
def none : DepKinds :=
  ⟨false, false, false, false, false⟩

/-- A true dependency, the kind of an edge that names none. -/
def trueOnly : DepKinds :=
  { none with raw := true }

/-- Whether no kind is set. -/
def isEmpty (kinds : DepKinds) : Bool :=
  !(kinds.raw || kinds.war || kinds.waw || kinds.control || kinds.memory)

/-- The kinds as an object of flags. -/
def toJson (kinds : DepKinds) : Json :=
  .obj [("raw", .bool kinds.raw), ("war", .bool kinds.war), ("waw", .bool kinds.waw),
    ("control", .bool kinds.control), ("memory", .bool kinds.memory)]

/-- The kinds as a record of flags that default to false. -/
def fields : Fields DepKinds :=
  DepKinds.mk <$> .optional "raw" Decoder.bool false
    <*> .optional "war" Decoder.bool false
    <*> .optional "waw" Decoder.bool false
    <*> .optional "control" Decoder.bool false
    <*> .optional "memory" Decoder.bool false

/-- Reads the kinds of a dependency. -/
def decoder : Decoder DepKinds :=
  fields.decoder

end DepKinds

/-- One dependency. -/
structure Edge where
  /-- The instruction that is waited for. -/
  producer : Uid
  /-- The instruction that waits. -/
  consumer : Uid
  kinds : DepKinds
  deriving DecidableEq, Repr, Inhabited

namespace Edge

/-- The members of an edge. -/
def members (edge : Edge) : List (String × Json) :=
  [("producer", edge.producer.toJson), ("consumer", edge.consumer.toJson),
    ("kinds", edge.kinds.toJson)]

/-- An edge as an object. -/
def toJson (edge : Edge) : Json :=
  .obj edge.members

/-- Reads an edge that names its kinds. -/
def decoder : Decoder Edge :=
  Fields.decoder <|
    Edge.mk <$> .required "producer" Uid.decoder
      <*> .required "consumer" Uid.decoder
      <*> .required "kinds" DepKinds.decoder

/-- An edge that may leave its kinds out, and is a true dependency then. -/
def eventFields : Fields Edge :=
  Edge.mk <$> .required "producer" Uid.decoder
    <*> .required "consumer" Uid.decoder
    <*> .optional "kinds" DepKinds.decoder .trueOnly

end Edge

end AccelProfile
