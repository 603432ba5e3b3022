/-!
# Defects of schemas

A schema may be refused when it is read, for one of the reasons of `Refusal`. One that is accepted
may still have a `Defect` that shows only when a fact about it is needed: a default that is no
number, or a message field whose type is an enum.
-/

namespace Missive.Schema

/-- What a declaration does wrong. -/
inductive Complaint where
  | notPositive (number : Int)
  | reusedNumber (number : Int)
  | badRange (start stop : Int)
  | overlappingRange (start stop : Int)
  | numberInRange (number : Int)
  | unknownType (typeName : String)
  | noTypeName
  | badOneofIndex (index : Int)
  | emptyOneof (oneof : String)
  deriving DecidableEq, Repr

def Complaint.describe : Complaint → String
  | notPositive number => "field number " ++ toString number ++ " is not positive"
  | reusedNumber number => "field number " ++ toString number ++ " is used more than once"
  | badRange start stop =>
    "invalid extension range [" ++ toString start ++ ", " ++ toString stop ++ ")"
  | overlappingRange start stop =>
    "extension range [" ++ toString start ++ ", " ++ toString stop ++ ") overlaps another range"
  | numberInRange number => "field number " ++ toString number ++ " is inside an extension range"
  | unknownType typeName => "unknown type \"" ++ typeName ++ "\""
  | noTypeName => "field has no type name"
  | badOneofIndex index => "invalid oneof index " ++ toString index
  | emptyOneof oneof => "oneof " ++ oneof ++ " has no fields"

/-- Why a schema is refused. -/
inductive Refusal where
  /-- A file is written in a dialect that is not known. -/
  | unknownDialect (file dialect : String)
  /-- A message is not well formed; the field concerned, where there is one. -/
  | invalid (complaint : Complaint) (message : String) (field : Option String)
  /-- A field counts its oneof from the end, and beyond the first one. -/
  | oneofBeforeFirst
  deriving DecidableEq, Repr

/-- The wording of a refusal, if it has one. -/
def Refusal.describe : Refusal → Option String
  | unknownDialect file dialect =>
    some (file ++ ": unsupported syntax \"" ++ dialect ++ "\"")
  | invalid complaint message field =>
    some ("pw_msggen codegen error: " ++ complaint.describe ++ "\n    at " ++ message
      ++ (field.map fun name => "\n    in field " ++ name).getD "")
  | oneofBeforeFirst => none

/-- Why a fact about an accepted schema is not available. -/
inductive Defect where
  /-- A message is asked of a field whose type is none. -/
  | notMessage
  /-- A map entry lacks its key or its value. -/
  | noEntryField
  /-- A message never got a name. -/
  | unnamed
  /-- The largest number of fields that messages keep in themselves is not known. -/
  | noThreshold
  /-- The text of a default is no number. -/
  | badNumber
  /-- The text of a default has an escape that stands for nothing. -/
  | brokenEscape
  /-- An escape in the text of a default stands for more than a byte. -/
  | wideEscape
  deriving DecidableEq, Repr

end Missive.Schema
