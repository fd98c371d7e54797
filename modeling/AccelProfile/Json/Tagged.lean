import AccelProfile.Json.Decoder
/-!
# Tagged objects

An object whose members are one of several records, and one member of which, the tag,
names the record. The tag can stand anywhere, so the whole object is read before the
record is: members other than the tag are set aside, and each of them has to be readable
on its own, whatever the record makes of it later. The tag is looked at where it stands;
a bad name in front of a broken spot is the fault that is reported.

An array is read the same way, with the tag as its first item.
-/

namespace AccelProfile.Tagged

/-- The value of a tag. Tags are strings, and nothing else will do. -/
def readTag {κ : Type} (kind : String → Except ReadError κ) : Scan → Except ReadError κ
  | .str name => kind name
  | found => .error (Decoder.wrongType found)

/-- Whether a value inside the object can be set aside: it is free of marks and stays
    within the nesting limit, the object around it included. -/
def isReadable (found : Scan) : Bool :=
  (found.toJson? (nestingLimit - 1)).isSome

/-- Separates the tag from the other members, in the order of the text. `tag` is the tag
    found so far. -/
def gather {κ : Type} (tagName : String) (kind : String → Except ReadError κ)
    (tag : Option κ) : List (Option String × Scan) →
      Except ReadError (Option κ × List (Option String × Scan))
  | [] => .ok (tag, [])
  | (none, _) :: _ => .error .malformed
  | (some key, value) :: others =>
    if key = tagName then
      match tag with
      | some _ => .error (.duplicateField tagName)
      | none => do
        let found ← readTag kind value
        gather tagName kind (some found) others
    else if isReadable value then do
      let (tag, content) ← gather tagName kind tag others
      return (tag, (some key, value) :: content)
    else .error .malformed

/-- The tag of an object or array and the rest of it, ready to be read as a record. -/
def split {κ : Type} (tagName : String) (kind : String → Except ReadError κ) :
    Scan → Except ReadError (κ × Scan)
  | .obj members closed => do
    let (tag, content) ← gather tagName kind none members
    if !closed then .error .malformed
    else match tag with
      | some tag => .ok (tag, .obj content true)
      | none => .error (.missingField tagName)
  | .arr [] true => .error (.missingField tagName)
  | .arr [] false => .error .malformed
  | .arr (first :: others) closed => do
    let tag ← readTag kind first
    if closed && others.all isReadable then .ok (tag, .arr others true) else .error .malformed
  | found => .error (Decoder.wrongType found)

/-- Reads a record without fields: members are passed over, items are not. -/
def empty : Decoder Unit
  | _, .arr (first :: others) _ => .error (.invalidLength (first :: others).length)
  | _, _ => .ok ()

end AccelProfile.Tagged
