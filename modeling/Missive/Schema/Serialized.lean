import Missive.Schema.Declaration
import Missive.Wire.Cursor

/-!
# Serialized declarations

A schema compiler hands over what it has read as serialized messages. A message is first split into
its fields, and each declaration is then put together from the fields it knows. Of a singular field
that occurs more than once the last occurrence counts.
-/

namespace Missive.Schema

/-- The payload of a field. Only numbers and byte strings occur in declarations. -/
inductive Payload where
  | number (n : Nat)
  | data (bytes : Bytes)
  | other

abbrev Fields := List (Nat × Payload)

/-- Takes the payload of the current field. -/
def readPayload : Reading Payload := do
  match (← get).wire with
  | .varint =>
    let _ ← Cursor.take [.varint]
    return .number (← Cursor.reading Reader.varint)
  | .lengthDelimited =>
    let _ ← Cursor.take [.lengthDelimited]
    return .data (← Cursor.payload)
  | _ =>
    Cursor.skipPayload
    return .other

/-- Reads fields until the data ends. Every turn reads a tag. -/
def readFields : (turns : Nat) → Reading Fields
  | 0 => return []
  | turns + 1 => do
    match ← Cursor.next with
    | none => return []
    | some number =>
      let payload ← readPayload
      return (number, payload) :: (← readFields turns)

namespace Fields

def ofBytes (data : Bytes) : Except Fault Fields :=
  match readFields (data.length + 1) (Cursor.ofBytes data) with
  | .ok fields _ => .ok fields
  | .error e _ => .error e

def data (fields : Fields) (number : Nat) : List Bytes :=
  fields.filterMap fun
    | (n, .data bytes) => if n == number then some bytes else none
    | _ => none

def toText (bytes : Bytes) : Except Fault String := do
  match ← FieldType.string.decodePayload (.bytes bytes) with
  | .text s => return s
  | _ => throw .wrongType

def texts (fields : Fields) (number : Nat) : Except Fault (List String) :=
  (fields.data number).mapM toText

def text? (fields : Fields) (number : Nat) : Except Fault (Option String) :=
  (fields.data number).getLast?.mapM toText

def text (fields : Fields) (number : Nat) : Except Fault String :=
  return (← fields.text? number).getD ""

def number? (fields : Fields) (number : Nat) : Option Int :=
  (fields.filterMap fun
    | (n, .number value) => if n == number then some (toSigned word32 value) else none
    | _ => none).getLast?

def flag? (fields : Fields) (number : Nat) : Option Bool :=
  (fields.number? number).map (· != 0)

def parts {α : Type} (fields : Fields) (number : Nat) (make : Fields → Except Fault α) :
    Except Fault (List α) :=
  (fields.data number).mapM fun bytes => do make (← ofBytes bytes)

def part (fields : Fields) (number : Nat) : Except Fault Fields :=
  ofBytes (fields.data number).flatten

end Fields

def Label.ofNumber : Option Int → Label
  | some 2 => .required
  | some 3 => .repeated
  | _ => .optional

def typeOfNumber : Option Int → FieldType
  | some n => (FieldType.all.find? fun t => (t.number : Int) == n).getD .double
  | none => .double

def readField (f : Fields) : Except Fault FieldDecl := do
  let options ← f.part 8
  return {
    name := ← f.text 1
    number := (f.number? 3).getD 0
    label := .ofNumber (f.number? 4)
    type := typeOfNumber (f.number? 5)
    typeName := ← f.text 6
    oneof := f.number? 9
    default := ← f.text? 7
    packed := options.flag? 2
    proto3Optional := (f.flag? 17).getD false }

def readEnum (f : Fields) : Except Fault EnumDecl := do
  let value (v : Fields) : Except Fault (String × Int) := do
    return (← v.text 1, (v.number? 2).getD 0)
  return { name := ← f.text 1, values := ← f.parts 2 value }

/-- The declaration of a message, with what is nested in it down to some levels. -/
def readMessage : (levels : Nat) → Fields → Except Fault MessageDecl
  | 0, _ => .error (.data .tooDeep)
  | levels + 1, f => do
    let options ← f.part 7
    let range (r : Fields) : Except Fault (Int × Int) :=
      .ok ((r.number? 1).getD 0, (r.number? 2).getD 0)
    return {
      name := ← f.text 1
      fields := ← f.parts 2 readField
      oneofs := ← f.parts 8 fun o => o.text 1
      extensionRanges := ← f.parts 5 range
      enums := ← f.parts 4 readEnum
      messages := ← f.parts 3 (readMessage levels)
      mapEntry := (options.flag? 7).getD false }

def readFile (f : Fields) : Except Fault FileDecl := do
  return {
    name := ← f.text 1
    package := ← f.text 2
    dialect := ← f.text 12
    dependencies := ← f.texts 3
    enums := ← f.parts 5 readEnum
    messages := ← f.parts 4 (readMessage maxDepth) }

end Missive.Schema
