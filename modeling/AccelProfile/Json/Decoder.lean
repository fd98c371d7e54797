import AccelProfile.Json.Scan
import AccelProfile.Text.Quoted
/-!
# Decoding JSON into types

Readers that turn a scanned value into a value of a type, or say what is wrong with it.
The first fault in the order of the text is the one reported. A text that is no JSON at
all is one kind of fault, `malformed`; every other fault names what was found.

A value can be met in two ways. In `direct` mode the reader stands in the text and reads
no further than it must; in `buffered` mode the whole surrounding object was read before,
and found to be free of marks. The modes differ in three faults, all of them on ill-typed
input, and in what may stand behind a name that is written as a key.

A record is read from an object or from an array. `Fields` describes it: the fields in
their order with the readers of their values, and how the record is put together. The
description is applicative, so it is written like the constructor applied to its fields.
-/

namespace AccelProfile

/-- What a reader met in the place of what it wanted. -/
inductive Unexpected
  | null
  | bool (value : Bool)
  | int (value : Int)
  | float (value : Float)
  | str (value : String)
  | sequence
  | map
  deriving DecidableEq

/-- How a diagnostic names what was met. -/
def Unexpected.text : Unexpected → String
  | .null => "null"
  | .bool value => "boolean `" ++ (if value then "true" else "false") ++ "`"
  | .int value => "integer `" ++ String.ofList (Number.int value).text ++ "`"
  | .float value => "floating point `" ++ String.ofList (Number.float value).text ++ "`"
  | .str value => "string " ++ Text.quoted value
  | .sequence => "sequence"
  | .map => "map"

/-- Why a text could not be read as a value of the wanted type. -/
inductive ReadError
  /-- The text is not JSON. -/
  | malformed
  | missingField (name : String)
  | duplicateField (name : String)
  /-- A name is none of those that are known. -/
  | unknownVariant (name : String) (known : List String)
  /-- A value is of the wrong type. -/
  | invalidType (found : Unexpected)
  /-- A value is of the right type and out of range. -/
  | invalidValue (found : Unexpected)
  /-- An array has the wrong number of items. -/
  | invalidLength (length : Nat)
  deriving DecidableEq

/-- The wording of a fault. -/
def ReadError.message : ReadError → String
  | .malformed => "malformed JSON"
  | .missingField name => "missing field `" ++ name ++ "`"
  | .duplicateField name => "duplicate field `" ++ name ++ "`"
  | .unknownVariant name known =>
    "unknown variant `" ++ name ++ "`, expected one of " ++
      ", ".intercalate (known.map fun name => "`" ++ name ++ "`")
  | .invalidType found => "invalid type: " ++ found.text
  | .invalidValue found => "invalid value: " ++ found.text
  | .invalidLength length => "invalid length " ++ toString length

/-- How a reader meets a value. -/
inductive Mode
  /-- In the text itself, reading on as it goes. -/
  | direct
  /-- After the whole surrounding object was read. -/
  | buffered
  deriving DecidableEq

/-- A reader of values of one type. -/
abbrev Decoder (α : Type) := Mode → Scan → Except ReadError α

namespace Decoder

/-- The fault of a value that is of none of the wanted types. -/
def wrongType : Scan → ReadError
  | .null => .invalidType .null
  | .bool value => .invalidType (.bool value)
  | .num (.int value) => .invalidType (.int value)
  | .num (.float value) => .invalidType (.float value)
  | .str value => .invalidType (.str value)
  | .arr _ _ => .invalidType .sequence
  | .obj _ _ => .invalidType .map
  | .unreadable | .broken => .malformed

/-- A truth value. -/
def bool : Decoder Bool
  | _, .bool value => .ok value
  | _, found => .error (wrongType found)

/-- A natural number up to a limit. A double is no natural number, whatever its value. -/
def upTo (limit : Nat) : Decoder Nat
  | _, .num (.int value) =>
    if 0 ≤ value ∧ value.toNat ≤ limit then .ok value.toNat
    else .error (.invalidValue (.int value))
  | _, found => .error (wrongType found)

/-- A 64-bit word. -/
def word : Decoder UInt64 := fun mode found =>
  (upTo maxWord mode found).map UInt64.ofNat

/-- A 32-bit word. -/
def halfWord : Decoder UInt32 := fun mode found =>
  (upTo maxHalfWord mode found).map UInt32.ofNat

/-- A double; a whole number stands for the nearest one. -/
def float : Decoder Float
  | _, .num value => .ok value.toFloat
  | _, found => .error (wrongType found)

/-- A string. -/
def string : Decoder String
  | _, .str value => .ok value
  | _, found => .error (wrongType found)

/-- A value that says nothing: the null literal, and in buffered mode an object without
    members as well. -/
def unit : Decoder Unit
  | _, .null | .buffered, .obj [] _ => .ok ()
  | _, found => .error (wrongType found)

/-- A value or the null literal for its absence. -/
def optional {α : Type} (decode : Decoder α) : Decoder (Option α)
  | _, .null => .ok none
  | mode, found => (decode mode found).map some

/-- The value with this name among all values of a closed class. -/
def named {α : Type} (all : List α) (name : α → String) (wanted : String) :
    Except ReadError α :=
  match all.find? (fun value => name value = wanted) with
  | some value => .ok value
  | none => .error (.unknownVariant wanted (all.map name))

/-- A value of a closed class by its name: a string, or an object with the name as its
    only key and a value that says nothing. In direct mode anything else is taken for a broken
    text, and the object may turn out to have more than one member only behind the first;
    in buffered mode the type and the number of members are looked at first. -/
def choice {α : Type} (all : List α) (name : α → String) : Decoder α
  | _, .str wanted => named all name wanted
  | .direct, .obj ((some key, inner) :: others) closed => do
    let value ← named all name key
    unit .direct inner
    if others.isEmpty && closed then .ok value else .error .malformed
  | .direct, _ => .error .malformed
  | .buffered, .obj [(some key, inner)] _ => do
    let value ← named all name key
    unit .buffered inner
    return value
  | .buffered, .obj _ _ => .error (.invalidValue .map)
  | .buffered, found => .error (wrongType found)

end Decoder

/-- A field of a record, as far as it can be looked at on its own. -/
structure Field where
  name : String
  /-- Whether the record cannot be without it. -/
  required : Bool
  /-- Whether a value can stand in the field. -/
  check : Mode → Scan → Except ReadError Unit

/-- A record: its fields in order and how it is put together from their values. -/
structure Fields (α : Type) where
  /-- The fields. -/
  known : List Field
  /-- The record with the values that a look-up gives. -/
  build : Mode → (String → Option Scan) → Except ReadError α

namespace Fields

instance : Applicative Fields where
  pure value := ⟨[], fun _ _ => .ok value⟩
  seq function argument :=
    ⟨function.known ++ (argument ()).known, fun mode find => do
      let function ← function.build mode find
      let argument ← (argument ()).build mode find
      return function argument⟩
  map function fields := ⟨fields.known, fun mode find => (fields.build mode find).map function⟩

/-- A field that has to be there. -/
def required {α : Type} (name : String) (decode : Decoder α) : Fields α where
  known := [⟨name, true, fun mode found => (decode mode found).map fun _ => ()⟩]
  build mode find :=
    match find name with
    | some found => decode mode found
    | none => .error (.missingField name)

/-- A field that has a value of its own when it is not there. -/
def optional {α : Type} (name : String) (decode : Decoder α) (absent : α) : Fields α where
  known := [⟨name, false, fun mode found => (decode mode found).map fun _ => ()⟩]
  build mode find :=
    match find name with
    | some found => decode mode found
    | none => .ok absent

/-- Looks at the members of an object in order: a known one must not come twice, and its
    value must fit. Unknown ones are passed over. -/
def checkMembers (mode : Mode) (known : List Field) (seen : List String) :
    List (Option String × Scan) → Except ReadError Unit
  | [] => .ok ()
  | (none, _) :: _ => .error .malformed
  | (some key, value) :: others =>
    match known.find? (·.name = key) with
    | none => checkMembers mode known seen others
    | some field =>
      if key ∈ seen then .error (.duplicateField key)
      else do
        field.check mode value
        checkMembers mode known (key :: seen) others

/-- Looks at the items of an array in order, each as the value of the field in its
    place. -/
def checkItems (mode : Mode) : List Field → List Scan → Except ReadError Unit
  | field :: known, item :: items => do
    field.check mode item
    checkItems mode known items
  | _, _ => .ok ()

/-- Reads a record from an object. -/
def readObject {α : Type} (fields : Fields α) (mode : Mode)
    (members : List (Option String × Scan)) (closed : Bool) : Except ReadError α := do
  checkMembers mode fields.known [] members
  if closed then fields.build mode fun name => members.lookup (some name)
  else .error .malformed

/-- Reads a record from an array. Fields at its end may be absent; items behind the last
    field may not be there, which in direct mode is a fault of the text. -/
def readArray {α : Type} (fields : Fields α) (mode : Mode) (items : List Scan)
    (closed : Bool) : Except ReadError α := do
  checkItems mode fields.known items
  if !closed then .error .malformed
  else if fields.known.length < items.length then
    match mode with
    | .direct => .error .malformed
    | .buffered => .error (.invalidLength items.length)
  else
    match (fields.known.drop items.length).findIdx? (·.required) with
    | some beyond => .error (.invalidLength (items.length + beyond))
    | none =>
      fields.build mode fun name => ((fields.known.map (·.name)).zip items).lookup name

/-- Reads a record. -/
def decoder {α : Type} (fields : Fields α) : Decoder α
  | mode, .obj members closed => fields.readObject mode members closed
  | mode, .arr items closed => fields.readArray mode items closed
  | _, found => .error (Decoder.wrongType found)

end Fields

/-- Reads a whole text as one value. Text behind the value is a fault, and the last one to
    be found. -/
def Decoder.readText {α : Type} (decode : Decoder α) (text : List Char) :
    Except ReadError α := do
  let document := Scan.ofText text
  let value ← decode .direct document.root
  if document.complete then .ok value else .error .malformed

end AccelProfile
