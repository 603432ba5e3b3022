import Missive.Wire.Scalar

/-!
# Cursors

A cursor walks over the fields of one serialized message. It holds the bytes that are still to be
read, never a position, so whatever it has not read it cannot depend on. `next` reads a tag; the
payload is then taken as a scalar, as a nested message or group, or skipped. A payload that nobody
took is skipped by the following `next`.

Operations are `Reading` actions: an action that fails leaves the cursor where the failure happened.
-/

namespace Missive

def maxDepth : Nat := 100

def maxFieldNumber : Nat := 536870911

/-- The state of a walk over the fields of a message. `group` is the number of the group that the
message is, if it is one; `mark` is what was unread when the current tag began. -/
structure Cursor where
  rest : Bytes
  depth : Nat := 0
  group : Option Nat := none
  ended : Bool := false
  field : Option Nat := none
  wire : WireType := .varint
  mark : Bytes := rest
  consumed : Bool := true
  deriving DecidableEq

/-- Reading from some bytes, which may fail part of the way. -/
abbrev Reader := EStateM Fault Bytes

abbrev Reading := EStateM Fault Cursor

namespace Reader

def varint : Reader Nat := do
  match Varint.decode (← get) with
  | .ok (n, rest) =>
    set rest
    return n
  | .error e => throw (.data e)

def tag : Reader (Nat × WireType) := do
  let t ← varint
  match WireType.ofNumber? (t % 8) with
  | none => throw (.malformed (some (t / 8)) (.invalidWire (t % 8)))
  | some wire =>
    if t / 8 = 0 ∨ maxFieldNumber < t / 8 then throw (.data (.invalidNumber (t / 8)))
    return (t / 8, wire)

/-- Reads a payload with its length in front. Nothing is read if it is not all there. -/
def lengthDelimited (field : Option Nat) : Reader Bytes := do
  match Varint.decode (← get) with
  | .error e => throw (.data e)
  | .ok (size, rest) =>
    match Bytes.take? size rest with
    | none => throw (.malformed field .truncatedLength)
    | some (payload, rest) =>
      set rest
      return payload

/-- Skips the payload of a field that is no group. -/
def skipFlat (field : Option Nat) (number : Nat) (wire : WireType) : Reader Unit := do
  match wire with
  | .varint => let _ ← varint
  | .lengthDelimited => let _ ← lengthDelimited field
  | w =>
    match w.width? with
    | none => throw (.notFixedWidth w)
    | some width =>
      match Bytes.take? width (← get) with
      | none => throw (.malformed (some number) .truncatedFixed)
      | some (_, rest) => set rest

/-- Skips the fields of an open group and its end. Every turn reads a tag, so as many turns as there
are bytes are enough. -/
def skipGroup (field : Option Nat) : (turns : Nat) → (number depth : Nat) → Reader Unit
  | 0, number, _ => throw (.malformed (some number) .openGroup)
  | turns + 1, number, depth => do
    if maxDepth < depth then throw (.malformed (some number) .tooDeep)
    if (← get).isEmpty then throw (.malformed (some number) .openGroup)
    match ← tag with
    | (n, .endGroup) => if n ≠ number then throw (.malformed (some n) .unmatchedEnd)
    | (n, .startGroup) =>
      skipGroup field turns n (depth + 1)
      skipGroup field turns number depth
    | (n, wire) =>
      skipFlat field n wire
      skipGroup field turns number depth

def skip (field : Option Nat) (number : Nat) (wire : WireType) (depth : Nat) : Reader Unit := do
  if wire = .startGroup then skipGroup field ((← get).length + 1) number (depth + 1)
  else skipFlat field number wire

end Reader

namespace Cursor

def ofBytes (data : Bytes) : Cursor := { rest := data }

/-- Reads from the bytes of a cursor. -/
def reading {α : Type} (r : Reader α) : Reading α := fun c =>
  match r c.rest with
  | .ok a rest => .ok a { c with rest }
  | .error e rest => .error e { c with rest }

def skipPayload : Reading Unit := do
  let c ← get
  set { c with consumed := true }
  reading (Reader.skip c.field (c.field.getD 0) c.wire c.depth)

/-- Reads a tag where no payload is waiting, and gives its field number, or nothing at the end. -/
def nextTag : Reading (Option Nat) := do
  modify ({ · with field := none })
  let c ← get
  if c.ended then return none
  if c.rest.isEmpty then
    match c.group with
    | some number => throw (.malformed (some number) .openGroup)
    | none => return none
  set { c with mark := c.rest }
  match ← reading Reader.tag with
  | (number, .endGroup) =>
    if some number ≠ c.group then throw (.malformed (some number) .unmatchedEnd)
    modify ({ · with ended := true })
    return none
  | (number, wire) =>
    modify ({ · with field := some number, wire, consumed := false })
    return some number

/-- Reads the next tag and gives its field number, or nothing at the end. -/
def next : Reading (Option Nat) := do
  let c ← get
  if c.field.isSome && !c.consumed then skipPayload
  nextTag

/-- Claims the payload of the current field, which has to have one of the given wire types. -/
def take (wires : List WireType) : Reading WireType := do
  let c ← get
  if c.field.isNone || c.consumed then throw .nothingToDecode
  unless wires.contains c.wire do throw (.malformed c.field (.unexpectedWire c.wire))
  set { c with consumed := true }
  return c.wire

def scalar (t : FieldType) (wire : WireType) : Reading Scalar := do
  let c ← get
  match t.read wire c.rest with
  | .ok (value, rest) =>
    set { c with rest }
    return value
  | .error e => throw e

def singular (t : FieldType) : Reading Scalar := do
  scalar t (← take [t.wire])

def payload : Reading Bytes := do
  let c ← get
  reading (Reader.lengthDelimited c.field)

def enter (rest : Bytes) (group : Option Nat) : Reading Cursor := do
  let c ← get
  if maxDepth ≤ c.depth then throw (.malformed c.field .tooDeep)
  return { rest, depth := c.depth + 1, group }

end Cursor

/-- Scalars that were read, up to the fault that ended the reading, if one did. -/
structure Taken where
  values : List Scalar
  fault : Option Fault := none

/-- Reads the scalars of a packed payload. Every one has at least one byte. -/
def FieldType.readPacked (t : FieldType) : (turns : Nat) → Bytes → Taken
  | 0, _ => ⟨[], none⟩
  | _ + 1, [] => ⟨[], none⟩
  | turns + 1, packed =>
    match t.read t.wire packed with
    | .error e => ⟨[], some e⟩
    | .ok (value, rest) =>
      let tail := t.readPacked turns rest
      ⟨value :: tail.values, tail.fault⟩

namespace Cursor

/-- Takes the current field as scalars of a repeated field: one, or a packed run of them. A packed
run that breaks off still gives the scalars before the break. -/
def repeated (t : FieldType) : Reading Taken := do
  if !t.isPackable then return ⟨[← singular t], none⟩
  let wire ← take [t.wire, .lengthDelimited]
  if wire ≠ .lengthDelimited then return ⟨[← scalar t wire], none⟩
  let packed ← payload
  return t.readPacked packed.length packed

/-- Skips the current field and gives its bytes, the tag included. -/
def skipUnknown : Reading Bytes := do
  let c ← get
  if c.field.isNone || c.consumed then throw .nothingToSkip
  skipPayload
  return Bytes.consumed c.mark (← get).rest

end Cursor

end Missive
