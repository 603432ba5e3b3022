import Missive.Bytes

/-!
# Wire types and field types

A tag on the wire carries one of six wire types, which say how long the payload is. A field of a
schema has one of eighteen types, each of which travels under one wire type.
-/

namespace Missive

/-- How the payload after a tag is framed. -/
inductive WireType where
  | varint
  | fixed64
  | lengthDelimited
  | startGroup
  | endGroup
  | fixed32
  deriving DecidableEq, Repr

namespace WireType

/-- The number in the low three bits of a tag. -/
def number : WireType → Nat
  | varint => 0
  | fixed64 => 1
  | lengthDelimited => 2
  | startGroup => 3
  | endGroup => 4
  | fixed32 => 5

/-- The wire type of a number, if there is one. -/
def ofNumber? : Nat → Option WireType
  | 0 => some varint
  | 1 => some fixed64
  | 2 => some lengthDelimited
  | 3 => some startGroup
  | 4 => some endGroup
  | 5 => some fixed32
  | _ => none

/-- The name that messages to the user show. -/
def name : WireType → String
  | varint => "VARINT"
  | fixed64 => "FIXED64"
  | lengthDelimited => "LENGTH_DELIMITED"
  | startGroup => "START_GROUP"
  | endGroup => "END_GROUP"
  | fixed32 => "FIXED32"

def all : List WireType := [varint, fixed64, lengthDelimited, startGroup, endGroup, fixed32]

/-- The number of payload bytes of a fixed-width wire type. -/
def width? : WireType → Option Nat
  | fixed32 => some 4
  | fixed64 => some 8
  | _ => none

@[simp] theorem ofNumber?_number (w : WireType) : ofNumber? w.number = some w := by
  cases w <;> rfl

end WireType

/-- The type of a field. -/
inductive FieldType where
  | double
  | float
  | int64
  | uint64
  | int32
  | fixed64
  | fixed32
  | bool
  | string
  | group
  | message
  | bytes
  | uint32
  | enum
  | sfixed32
  | sfixed64
  | sint32
  | sint64
  deriving DecidableEq, Repr

namespace FieldType

def all : List FieldType :=
  [double, float, int64, uint64, int32, fixed64, fixed32, bool, string, group, message, bytes, uint32,
   enum, sfixed32, sfixed64, sint32, sint64]

def number : FieldType → Nat
  | double => 1
  | float => 2
  | int64 => 3
  | uint64 => 4
  | int32 => 5
  | fixed64 => 6
  | fixed32 => 7
  | bool => 8
  | string => 9
  | group => 10
  | message => 11
  | bytes => 12
  | uint32 => 13
  | enum => 14
  | sfixed32 => 15
  | sfixed64 => 16
  | sint32 => 17
  | sint64 => 18

/-- The name that generated code and messages to the user show. -/
def name : FieldType → String
  | double => "DOUBLE"
  | float => "FLOAT"
  | int64 => "INT64"
  | uint64 => "UINT64"
  | int32 => "INT32"
  | fixed64 => "FIXED64"
  | fixed32 => "FIXED32"
  | bool => "BOOL"
  | string => "STRING"
  | group => "GROUP"
  | message => "MESSAGE"
  | bytes => "BYTES"
  | uint32 => "UINT32"
  | enum => "ENUM"
  | sfixed32 => "SFIXED32"
  | sfixed64 => "SFIXED64"
  | sint32 => "SINT32"
  | sint64 => "SINT64"

def ofName? (text : String) : Option FieldType := all.find? fun t => t.name == text

def wire : FieldType → WireType
  | double | fixed64 | sfixed64 => .fixed64
  | float | fixed32 | sfixed32 => .fixed32
  | string | bytes | message => .lengthDelimited
  | group => .startGroup
  | _ => .varint

/-- Numeric types may be packed: several values under one length-delimited tag. -/
def isPackable (t : FieldType) : Bool :=
  match t.wire with
  | .varint | .fixed32 | .fixed64 => true
  | _ => false

/-- All types but messages and groups are scalar. -/
def isScalar : FieldType → Bool
  | group | message => false
  | _ => true

end FieldType

end Missive
