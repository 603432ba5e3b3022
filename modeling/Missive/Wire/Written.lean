import Missive.Wire.Scalar

/-!
# Written bytes

Writing a message may fail part of the way, and what was written before the failure stays. `Written`
is the outcome of writing: some bytes and the fault that cut them off, if any. Outcomes are
concatenated; a fault hides all that would have come after it.
-/

namespace Missive

/-- Bytes that were written, and the fault that ended the writing, if one did. -/
structure Written where
  bytes : Bytes
  fault : Option Fault := none
  deriving DecidableEq

namespace Written

def nil : Written := ⟨[], none⟩

def failed (f : Fault) : Written := ⟨[], some f⟩

def append (a b : Written) : Written :=
  match a.fault with
  | some _ => a
  | none => ⟨a.bytes ++ b.bytes, b.fault⟩

instance : Append Written := ⟨append⟩

def ofExcept : Except Fault Bytes → Written
  | .ok bytes => ⟨bytes, none⟩
  | .error f => failed f

/-- The bytes, if nothing failed. -/
def toExcept (w : Written) : Except Fault Bytes :=
  match w.fault with
  | none => .ok w.bytes
  | some f => .error f

def concat (ws : List Written) : Written := ws.foldr (· ++ ·) nil

def tag (number : Int) (wire : WireType) : Written := ⟨Varint.encode (makeTag number wire), none⟩

/-- A scalar field: the tag stands even if its payload fails. -/
def scalar (number : Int) (t : FieldType) (v : Value) : Written :=
  tag number t.wire ++ ofExcept (t.encode v)

/-- A length-delimited field around a payload, all or nothing. -/
def delimited (number : Int) (payload : Written) : Written :=
  match payload.fault with
  | some f => failed f
  | none =>
    tag number .lengthDelimited ++ ⟨Varint.encode payload.bytes.length ++ payload.bytes, none⟩

/-- A repeated scalar field: one field for each value, or one packed field for all of them, which
is left out if it is empty. -/
def repeated (number : Int) (t : FieldType) (packed : Bool) (values : List Value) : Written :=
  if packed && t.isPackable then
    let payload := concat (values.map fun v => ofExcept (t.encode v))
    if payload.fault.isNone && payload.bytes.isEmpty then nil else delimited number payload
  else concat (values.map (scalar number t))

def group (number : Int) (inside : Written) : Written :=
  tag number .startGroup ++ (inside ++ tag number .endGroup)

/-- One entry of a map: the key as field 1 and what is written for the value as field 2. -/
def entry (number : Int) (keyType : FieldType) (key : Key) (value : Written) : Written :=
  delimited number (scalar 1 keyType key.value ++ value)

end Written

end Missive
