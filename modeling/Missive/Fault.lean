import Missive.Wire.Kind
import Missive.Text.Quoted

/-!
# Faults

Why an operation on a message fails. A fault is a cause with the facts that belong to it; `describe`
is the one place that words it. Faults of plain value conversion have no words of their own.
-/

namespace Missive

/-- What is wrong with serialized data. -/
inductive Malformed where
  /-- A varint runs into the end of the data. -/
  | truncatedVarint
  /-- A varint does not end within ten bytes. -/
  | overlongVarint
  /-- The payload of a scalar runs into the end of the data. -/
  | truncatedPayload (type : FieldType)
  /-- The payload of a string is not UTF-8. -/
  | invalidUtf8
  /-- The data ends inside a group. -/
  | openGroup
  /-- An end of group matches no open group. -/
  | unmatchedEnd
  /-- The field does not have the wire type its type asks for. -/
  | unexpectedWire (wire : WireType)
  /-- A tag has a wire type that does not exist. -/
  | invalidWire (number : Nat)
  /-- A tag has a field number out of range. -/
  | invalidNumber (number : Nat)
  /-- A length-delimited payload runs into the end of the data. -/
  | truncatedLength
  /-- A fixed-width payload runs into the end of the data. -/
  | truncatedFixed
  /-- Messages and groups nest more deeply than allowed. -/
  | tooDeep
  deriving DecidableEq, Repr

/-- The wording of a defect of serialized data. -/
def Malformed.describe : Malformed → String
  | truncatedVarint => "truncated varint"
  | overlongVarint => "varint is longer than 10 bytes"
  | truncatedPayload type => type.name ++ " payload is truncated"
  | invalidUtf8 => "invalid UTF-8 in string"
  | openGroup => "group is not terminated"
  | unmatchedEnd => "unmatched end of group"
  | unexpectedWire wire => "unexpected wire type " ++ wire.name
  | invalidWire number => "invalid wire type " ++ toString number
  | invalidNumber number => "invalid field number " ++ toString number
  | truncatedLength => "length-delimited field is truncated"
  | truncatedFixed => "fixed-width field is truncated"
  | tooDeep => "message nesting is too deep"

/-- Why an operation fails. -/
inductive Fault where
  /-- The serialized data is not an encoding; the field concerned, where it is known. -/
  | malformed (field : Option Nat) (cause : Malformed)
  /-- A second member of a oneof that is already set was decoded. -/
  | conflictingOneof (oneof current : String) (incoming : Int)
  /-- A complete encoding was asked of a message that lacks required fields. -/
  | incomplete (message : String)
  /-- The width of a wire type that has none was asked for. -/
  | notFixedWidth (wire : WireType)
  /-- There is no current field, or its payload was taken already. -/
  | nothingToDecode
  | nothingToSkip
  /-- Messages and groups are no scalars. -/
  | noScalarCodec
  /-- A value has the wrong type for an operation. -/
  | wrongType
  /-- A value does not fit a fixed-width field. -/
  | misfit
  /-- A number is too large for its format. -/
  | overflow
  /-- A value of the right type is not acceptable. -/
  | badValue
  /-- A value lacks the attribute asked for. -/
  | noAttribute
  /-- Nothing is stored under a name or key. -/
  | missingKey
  /-- A position lies outside a list. -/
  | badIndex
  /-- A message contains itself. -/
  | endless
  /-- The operation is left to concrete message classes. -/
  | abstract
  /-- A class is referred to by a name that stands for nothing. -/
  | unboundName
  /-- A class is referred to by the name of a variable that has no value yet. -/
  | unassigned
  /-- A constructor was given a field that does not exist. -/
  | unknownField (className field : String)
  /-- A oneof has no member with a number: when a case is made, and when one is decoded. -/
  | notMember (number oneof : String)
  | notDecodable (text : String)
  /-- A oneof was set to something that is no case of it. -/
  | expectedCase (className : String)
  /-- An extension is used on a message it does not extend. -/
  | foreignExtension (extension className : String)
  /-- A message extension was declared without a message type. -/
  | extensionNeedsClass (extension : String)
  /-- An extension lies outside the ranges of the message it extends. -/
  | extensionOutside (extension : String) (number : Int) (className : String)
  /-- Two different extensions share a number of one message. -/
  | extensionTaken (number : Int) (className existing : String)
  /-- A packed message is unpacked as another type. -/
  | otherContent (held wanted : String)
  /-- A pattern of field numbers is empty. -/
  | emptyPattern
  deriving DecidableEq, Repr

namespace Fault

def data (cause : Malformed) : Fault := malformed none cause

/-- The words that go with a fault. Plain conversion faults have none; an abstract operation has
empty ones. -/
def describe : Fault → Option String
  | malformed none cause => some ("Malformed protobuf data: " ++ cause.describe)
  | malformed (some field) cause =>
    some ("Malformed protobuf data in field " ++ toString field ++ ": " ++ cause.describe)
  | conflictingOneof oneof current incoming =>
    some ("oneof " ++ Text.quoted oneof ++ " already holds field " ++ current
      ++ "; cannot also set field " ++ toString incoming)
  | incomplete message => some (message ++ " is missing required fields")
  | notFixedWidth wire =>
    some ("<WireType." ++ wire.name ++ ": " ++ toString wire.number
      ++ "> is not a fixed-width wire type")
  | nothingToDecode => some "There is no field to decode"
  | nothingToSkip => some "There is no field to skip"
  | abstract => some ""
  | unknownField className field =>
    some (className ++ " has no field named " ++ Text.quoted field)
  | notMember number oneof =>
    some (number ++ " is not a member of oneof " ++ Text.quoted oneof)
  | notDecodable text => some text
  | expectedCase className => some ("Expected a " ++ className ++ " or None")
  | foreignExtension extension className => some (extension ++ " does not extend " ++ className)
  | extensionNeedsClass extension => some ("Extension " ++ extension ++ " needs a message class")
  | extensionOutside extension number className =>
    some ("Extension " ++ extension ++ " (" ++ toString number
      ++ ") is not in an extension range of " ++ className)
  | extensionTaken number className existing =>
    some ("Field " ++ toString number ++ " of " ++ className
      ++ " is already registered as extension " ++ existing)
  | otherContent held wanted =>
    some ("Any holds " ++ Text.quoted held ++ ", not " ++ Text.quoted wanted)
  | emptyPattern => some "A field number pattern needs at least 1 number"
  | _ => none

end Fault

end Missive
