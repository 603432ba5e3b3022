import Missive.Value
import Missive.Text.Numeral
import Missive.Wire.Varint

/-!
# Scalar codecs

Every scalar field type has a codec between values and payloads. The payload of a varint type is an
integer; that of a fixed-width or length-delimited type is a byte string. Encoding converts what it
can: an integer type takes any integer and leaves the reduction to the varint, a bytes field takes a
list of small integers, and so on.
-/

namespace Missive

/-! ## Conversions of values -/

namespace Value

/-- The integer that a value is; only bools and integers are. -/
def asInt : Value → Except Fault Int
  | scalar s => (s.int?.map Except.ok).getD (.error .wrongType)
  | _ => .error .wrongType

/-- The integer that a value stands for: the integer part of a number, or what a text spells. -/
def toInt : Value → Except Fault Int
  | scalar (.float x) =>
    if x.isNaN then .error .badValue
    else if x.isInfinite then .error .overflow
    else .ok x.truncate
  | scalar (.text s) => ((Text.readInt? s).map Except.ok).getD (.error .badValue)
  | scalar (.bytes data) =>
    let s := String.ofList (data.map fun b => Char.ofNat b.toNat)
    if data.any fun b => 128 ≤ b.toNat then .error .badValue
    else ((Text.readInt? s).map Except.ok).getD (.error .badValue)
  | v => v.asInt

def asByte (v : Value) : Except Fault UInt8 := do
  let i ← v.asInt
  if 0 ≤ i ∧ i < 256 then .ok (UInt8.ofNat i.toNat) else .error .badValue

/-- The byte string that a value stands for: itself, as many zeros as an integer says, or the bytes
that a collection lists. -/
def toBytes : Value → Except Fault Bytes
  | scalar (.bytes data) => .ok data
  | scalar (.text _) => .error .wrongType
  | scalar s =>
    match s.int? with
    | some i =>
      if 2 * i < -word64 ∨ (word64 : Int) ≤ 2 * i then .error .overflow
      else if i < 0 then .error .badValue
      else .ok (List.replicate i.toNat 0)
    | Option.none => .error .wrongType
  | v => ((v.elements?.map fun items => items.mapM asByte)).getD (.error .wrongType)

def toFloat : Value → Except Fault Binary64
  | scalar (.float x) => .ok x
  | scalar s => ((s.int?.bind Binary64.ofInt?).map Except.ok).getD (.error .misfit)
  | _ => .error .misfit

/-- An integer in a range given by its ends, the second one excluded. -/
def toFixed (low high : Int) : Value → Except Fault Int
  | scalar s =>
    match s.int? with
    | some i => if low ≤ i ∧ i < high then .ok i else .error .misfit
    | Option.none => .error .misfit
  | _ => .error .misfit

end Value

/-! ## Integers of a width -/

def toSigned (word : Nat) (n : Int) : Int :=
  let low := n % word
  if word ≤ 2 * low then low - word else low

def unsignedBytes (word width : Nat) (v : Value) : Except Fault Value := do
  return .bytes (Bytes.ofNat width (← v.toFixed 0 word).toNat)

def signedBytes (word width : Nat) (v : Value) : Except Fault Value := do
  let half : Int := word / 2
  return .bytes (Bytes.ofNat width ((← v.toFixed (-half) half) % word).toNat)

/-- Interleaves the integers `0, -1, 1, -2, …` with the natural numbers. -/
def zigZag (n : Int) : Int := if 0 ≤ n then 2 * n else -2 * n - 1

/-- Undoes the interleaving; odd numbers stand for negative ones. -/
def unZigZag (n : Int) : Int := if n % 2 = 0 then n / 2 else -(n / 2) - 1

def makeTag (number : Int) (wire : WireType) : Int := number * 8 + wire.number

/-! ## Payloads -/

namespace FieldType

/-- The payload of a value. Integer types leave the value as it is. -/
def encodePayload (t : FieldType) (v : Value) : Except Fault Value :=
  match t with
  | .double => do return .bytes (← v.toFloat).toBytes
  | .float => do
    let x ← v.toFloat
    match x.toSingle? with
    | some pattern => return .bytes (Bytes.ofNat 4 pattern)
    | none => .error .overflow
  | .int64 | .uint64 | .int32 | .enum => .ok v
  | .fixed64 => unsignedBytes word64 8 v
  | .fixed32 => unsignedBytes word32 4 v
  | .sfixed64 => signedBytes word64 8 v
  | .sfixed32 => signedBytes word32 4 v
  | .bool => do return .int (← v.toInt)
  | .string =>
    match v with
    | .scalar (.text s) => .ok (.bytes s.toUTF8.data.toList)
    | _ => .error .noAttribute
  | .bytes => do return .bytes (← v.toBytes)
  | .uint32 => do return .int ((← v.asInt) % word32)
  | .sint32 | .sint64 => do return .int (zigZag (← v.asInt))
  | .group | .message => .error .noScalarCodec

def fixedBytes (width : Nat) : Value → Except Fault Bytes
  | .scalar (.bytes data) => if data.length = width then .ok data else .error .misfit
  | _ => .error .wrongType

def decodePayload (t : FieldType) (payload : Value) : Except Fault Scalar :=
  match t with
  | .double => do return .float (Binary64.ofBytes (← fixedBytes 8 payload))
  | .float => do return .float (Binary64.ofSingle (← fixedBytes 4 payload).toNat)
  | .int64 => do return .int (toSigned word64 (← payload.asInt))
  | .uint64 => do return .int ((← payload.asInt) % word64)
  | .int32 | .enum => do return .int (toSigned word32 (← payload.asInt))
  | .fixed64 => do return .int ((← fixedBytes 8 payload).toNat : Int)
  | .fixed32 => do return .int ((← fixedBytes 4 payload).toNat : Int)
  | .bool => .ok (.bool payload.truthy)
  | .string =>
    match payload with
    | .scalar (.bytes data) =>
      match String.fromUTF8? ⟨data.toArray⟩ with
      | some s => .ok (.text s)
      | none => .error (.data .invalidUtf8)
    | _ => .error .noAttribute
  | .bytes => do return .bytes (← payload.toBytes)
  | .uint32 => do return .int ((← payload.asInt) % word32)
  | .sfixed32 => do return .int (toSigned word32 ((← fixedBytes 4 payload).toNat : Int))
  | .sfixed64 => do return .int (toSigned word64 ((← fixedBytes 8 payload).toNat : Int))
  | .sint32 => do return .int (toSigned word32 (unZigZag (← payload.asInt)))
  | .sint64 => do return .int (toSigned word64 (unZigZag (← payload.asInt)))
  | .group | .message => .error .noScalarCodec

def frame (t : FieldType) (payload : Value) : Except Fault Bytes :=
  match t.wire, payload with
  | .varint, v => do return Varint.encode (← v.asInt)
  | .lengthDelimited, .scalar (.bytes data) => .ok (Varint.encode data.length ++ data)
  | _, .scalar (.bytes data) => .ok data
  | _, _ => .error .wrongType

def encode (t : FieldType) (v : Value) : Except Fault Bytes := do
  t.frame (← t.encodePayload v)

/-- Reads one payload of a wire type as a scalar, and gives what follows it. -/
def read (t : FieldType) (wire : WireType) (bytes : Bytes) : Except Fault (Scalar × Bytes) :=
  let sized (size : Nat) (rest : Bytes) : Except Fault (Scalar × Bytes) :=
    match Bytes.take? size rest with
    | some (payload, rest) => do return (← t.decodePayload (.bytes payload), rest)
    | none => .error (.data (.truncatedPayload t))
  match wire, wire.width? with
  | .varint, _ =>
    match Varint.decode bytes with
    | .ok (n, rest) => do return (← t.decodePayload (.int n), rest)
    | .error e => .error (.data e)
  | .lengthDelimited, _ =>
    match Varint.decode bytes with
    | .ok (size, rest) => sized size rest
    | .error e => .error (.data e)
  | _, some width => sized width bytes
  | _, none => .error (.notFixedWidth wire)

end FieldType

end Missive
