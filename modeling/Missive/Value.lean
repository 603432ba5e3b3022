import Missive.Binary64
import Missive.Fault

/-!
# Values

The values that message fields take. Setters do not check types, so a value is dynamic: a scalar, a
list or map of values, a message, or the active case of a oneof.

Messages and cases can be given attributes beyond those of their class. Such a loose attribute hides
what the class has under its name, also a method: no value can be called.

A message value is a tree that owns all it contains. Where such a tree was read out of a store, its
messages carry an `Origin`, which says which object and which storage they were read from; a message
that only ever was a value has none. What contains itself is no tree, and is cut off with `loop`
where it recurs.
-/

namespace Missive

/-- A value without parts. -/
inductive Scalar where
  | none
  | bool (b : Bool)
  | int (i : Int)
  | float (x : Binary64)
  | bytes (data : Bytes)
  | text (s : String)
  deriving DecidableEq

/-- A key of a map: a scalar, or a tuple of keys. -/
inductive Key where
  | scalar (s : Scalar)
  | tuple (items : List Key)

abbrev TypeId := Nat

/-- A field declared in an extension range of another message. -/
structure Extension where
  number : Int
  name : String
  extended : TypeId
  type : FieldType
  repeated : Bool := false
  packed : Bool := false
  messageType : Option TypeId := none
  deriving DecidableEq

/-- Which member of which oneof a case holds. The oneof is given by its slot in the message, the
member by its number, which nobody checks once the case is made. If the number was set to something
with parts, that is a loose attribute and the number is absent. A case that was read out of a store
says where. -/
structure CaseTag where
  owner : TypeId
  slot : Nat
  number : Scalar
  origin : Option Nat := none
  deriving DecidableEq

/-- Where a message value was read from: an object and, if it has one, its shared storage. Each
extension by its number has a mark, which only copies of one setting share. -/
structure Origin where
  object : Nat
  storage : Option Nat
  marks : List (Int × Nat) := []
  deriving DecidableEq

/-- What a message value is apart from its fields. `merged` tells that data was decoded into it, and
`bare` that it was copied without extensions, so that it does not even have an empty set of them. -/
structure Head where
  type : TypeId
  unknown : Bytes := []
  origin : Option Origin := none
  merged : Bool := false
  bare : Bool := false
  deriving DecidableEq

/-- A dynamic value. A message that was given something else for a storage has no slots. -/
inductive Value where
  | scalar (s : Scalar)
  | list (items : List Value)
  | tuple (items : List Value)
  | map (readOnly : Bool) (entries : List (Key × Value))
  | case (tag : CaseTag) (value : Value) (loose : List (String × Value))
  | message (head : Head) (slots : List Value) (extensions : List (Extension × Value)) (loose : List (String × Value))
  | loop

/-- What the attributes of all messages are called that hold data. -/
def unknownName : String := "unknown_fields"

def extensionsName : String := "extension_fields"

def storageName : String := "_storage"

/-- The extensions of a message, as far as it has them. -/
inductive Extended (α : Type) where
  | usual (values : List (Extension × α))
  /-- Something else that the message was given in their place. -/
  | replaced (given : α)
  | missing

def Extended.ofLoose {α : Type} (bare : Bool) (values : List (Extension × α))
    (loose : List (String × α)) : Extended α :=
  match loose.lookup extensionsName with
  | some given => .replaced given
  | none => if bare then .missing else .usual values

namespace Scalar

def int? : Scalar → Option Int
  | bool b => some (if b then 1 else 0)
  | int i => some i
  | _ => Option.none

/-- Equality of scalars. Numbers compare by value, whatever their types. -/
def equal : Scalar → Scalar → Bool
  | none, none => true
  | text a, text b => a == b
  | bytes a, bytes b => a == b
  | float a, float b => a.equal b
  | float a, b => (b.int?.map a.equalInt).getD false
  | a, float b => (a.int?.map b.equalInt).getD false
  | a, b =>
    match a.int?, b.int? with
    | some i, some j => i == j
    | _, _ => false

/-- Does a number lie between two integers, the second one excluded? -/
def between (start stop : Int) : Scalar → Except Fault Bool
  | float x => .ok (x.compareInt start != some .lt && x.compareInt stop == some .lt)
  | s =>
    match s.int? with
    | some i => .ok (start ≤ i && i < stop)
    | Option.none => .error .wrongType

/-- Is a scalar other than nothing, zero and the empty string? -/
def truthy : Scalar → Bool
  | none => false
  | bool b => b
  | int i => i != 0
  | float x => !x.isZero
  | bytes data => !data.isEmpty
  | text s => !s.isEmpty

end Scalar

namespace Key

mutual

def equal : Key → Key → Bool
  | scalar a, scalar b => a.equal b
  | tuple a, tuple b => equalAll a b
  | _, _ => false

def equalAll : List Key → List Key → Bool
  | [], [] => true
  | a :: as, b :: bs => equal a b && equalAll as bs
  | _, _ => false

end

mutual

def value : Key → Value
  | scalar s => .scalar s
  | tuple items => .tuple (values items)

def values : List Key → List Value
  | [] => []
  | k :: rest => value k :: values rest

end

end Key

/-- The position in a sequence that a key means. It may count from the end. -/
def Scalar.position (length : Nat) (key : Scalar) : Except Fault Nat :=
  match key.int? with
  | some i =>
    let index := if i < 0 then i + length else i
    if index < 0 || (length : Int) ≤ index then .error .badIndex else .ok index.toNat
  | Option.none => .error .wrongType

namespace Value

abbrev none : Value := scalar .none

instance : Inhabited Value := ⟨none⟩

abbrev bool (b : Bool) : Value := scalar (.bool b)

abbrev int (i : Int) : Value := scalar (.int i)

abbrev float (x : Binary64) : Value := scalar (.float x)

abbrev bytes (data : Bytes) : Value := scalar (.bytes data)

abbrev text (s : String) : Value := scalar (.text s)

def isPresent : Value → Bool
  | scalar .none => false
  | _ => true

def isCount : Value → Bool
  | scalar (.float _) => true
  | scalar s => s.int?.isSome
  | _ => false

/-- Is a value neither absent nor zero nor empty? -/
def truthy : Value → Bool
  | scalar s => s.truthy
  | list items => !items.isEmpty
  | tuple items => !items.isEmpty
  | map _ entries => !entries.isEmpty
  | case _ _ _ => true
  | message _ _ _ _ => true
  | loop => true

/-- The elements of a list or tuple, the keys of a map, the characters of a text or the bytes of a
byte string: what a loop over the value meets. -/
def elements? : Value → Option (List Value)
  | list items => some items
  | tuple items => some items
  | map _ entries => some (entries.map fun (key, _) => key.value)
  | scalar (.text s) => some (s.toList.map fun c => text c.toString)
  | scalar (.bytes data) => some (data.map fun b => int b.toNat)
  | _ => Option.none

/-- The loose attributes of a message or case. -/
def loose : Value → List (String × Value)
  | case _ _ given => given
  | message _ _ _ given => given
  | _ => []

mutual

def isKey : Value → Bool
  | scalar _ => true
  | tuple items => areKeys items
  | _ => false

def areKeys : List Value → Bool
  | [] => true
  | v :: rest => isKey v && areKeys rest

end

def replaces (v : Value) (name : String) : Bool := (v.loose.lookup name).isSome

/-- The fault of calling a method that a value does not have. What it may have been given under the
name cannot be called. -/
def uncallable (v : Value) (name : String) : Fault :=
  if v.replaces name then .wrongType else .noAttribute

end Value

def putEntry {α : Type} (key : Key) (value : α) : List (Key × α) → List (Key × α)
  | [] => [(key, value)]
  | (k, v) :: rest => if k.equal key then (k, value) :: rest else (k, v) :: putEntry key value rest

def atKey? {α : Type} (key : Key) (entries : List (Key × α)) : Option α :=
  (entries.find? fun (k, _) => k.equal key).map (·.2)

/-- What a map has under a key, or a sequence at a position. -/
def Value.item (key : Scalar) : Value → Except Fault Value
  | .map _ entries => ((atKey? (.scalar key) entries).map Except.ok).getD (.error .missingKey)
  | .list items | .tuple items => do return items.getD (← key.position items.length) .none
  | .scalar s =>
    match (Value.scalar s).elements? with
    | some items => do return items.getD (← key.position items.length) .none
    | Option.none => .error .wrongType
  | _ => .error .wrongType

def dropEntry? {α : Type} (key : Key) (entries : List (Key × α)) : Option (List (Key × α)) :=
  if entries.any fun (k, _) => k.equal key then
    some (entries.filter fun (k, _) => !k.equal key)
  else none

/-- The value a scalar field of a type has when it was never set. -/
def FieldType.default : FieldType → Scalar
  | .string => .text ""
  | .bytes => .bytes []
  | .bool => .bool false
  | .double | .float => .float Binary64.zero
  | .message | .group => .none
  | _ => .int 0

end Missive
