import Missive.Plan.Reference
import Missive.Schema.Layout
import Missive.Schema.Pattern

/-!
# Class plans

A class plan says all there is to say about the class of one message: what it is called, how its
fields are stored, which field number goes where when data is decoded, and in which order fields are
visited. A plan has two readers: generated code is a plan written out, and messages behave as their
plan says.

The values of a message are kept in slots: one for each field that is in no oneof, and one for each
oneof, in the order in which they are first declared.
-/

namespace Missive.Plan

open Schema

/-- How a field that is in no oneof is stored and coded. -/
inductive FieldKind where
  /-- One scalar; `presence` tells that "never set" differs from the default. -/
  | scalar (type : FieldType) (presence : Bool) (default : Scalar)
  | repeated (type : FieldType) (packed : Bool)
  | message (group : Bool) (ref : ClassRef)
  | repeatedMessage (group : Bool) (ref : ClassRef)
  /-- A map; its values are messages if there is a class for them. -/
  | map (key value : FieldType) (ref : Option ClassRef)
  deriving DecidableEq

/-- A field that is in no oneof. -/
structure FieldPlan where
  name : String
  storageName : String
  number : Int
  kind : FieldKind
  deriving DecidableEq

/-- How a member of a oneof is coded. A message is referred to from the code of the message's class
and, for decoding, from that of the oneof's class. -/
inductive MemberKind where
  | scalar (type : FieldType) (default : Scalar)
  | message (group : Bool) (ref decodeRef : ClassRef)
  /-- A map entry, which has a class as a message has, and no codec. -/
  | entry (ref : ClassRef)
  deriving DecidableEq

/-- A member of a oneof. -/
structure MemberPlan where
  name : String
  number : Int
  kind : MemberKind
  deriving DecidableEq

/-- A oneof; `declared` is its name in the schema. -/
structure OneofPlan where
  name : String
  declared : String
  className : String
  storageName : String
  members : List MemberPlan
  deriving DecidableEq

/-- What a slot holds. -/
inductive SlotPlan where
  | field (f : FieldPlan)
  | oneof (o : OneofPlan)
  deriving DecidableEq

/-- What a declared field is, in the order of declaration. -/
inductive Declared where
  | field (slot : Nat) (f : FieldPlan)
  /-- A member of a oneof; `first` marks the first one. -/
  | member (slot : Nat) (o : OneofPlan) (m : MemberPlan) (first : Bool)

/-- A step of the walk over the fields of a message. -/
inductive Visit where
  | field (slot : Nat)
  /-- The case of a oneof, if its number is within bounds, where there are any. -/
  | oneof (slot : Nat) (bounds : Option (Int × Int))
  | extensions (start stop : Int)
  deriving DecidableEq

/-- A condition that a complete message meets. -/
inductive Check where
  /-- The slot is set. -/
  | set (slot : Nat)
  /-- The message in the slot, if there is one, is complete. -/
  | nested (slot : Nat)
  /-- All messages of the list in the slot are complete. -/
  | each (slot : Nat)
  /-- All values of the map in the slot are complete. -/
  | eachValue (slot : Nat)
  /-- If the case in the slot has one of some numbers, its message is complete. -/
  | active (slot : Nat) (numbers : List Int)
  deriving DecidableEq

/-- All about the class of a message. `own` is how its code refers to itself, and `neighbours` are
the names of the classes of its module. -/
structure ClassPlan where
  id : TypeId
  name : String
  qualifiedName : String
  fullName : String
  own : ClassRef
  neighbours : List String
  proto3 : Bool
  isAny : Bool
  layout : Layout
  ranges : Ranges
  fieldNames : List String
  oneofs : List OneofPlan
  slots : List SlotPlan
  declared : List Declared
  cases : List (Pattern × Nat)
  visits : List Visit
  checks : List Check
  nested : List ClassPlan

/-- The module of a file: its name, where it is written, the modules it imports under an alias, and
its classes. -/
structure ModulePlan where
  file : String
  name : String
  path : String
  imports : List (String × String)
  classes : List ClassPlan

namespace FieldKind

def handsOut : FieldKind → Bool
  | scalar _ _ _ => false
  | _ => true

/-- What the slot of an unset field holds. -/
def initial : FieldKind → Value
  | scalar _ presence default => if presence then .none else .scalar default
  | repeated _ _ | repeatedMessage _ _ => .list []
  | message _ _ => .none
  | map _ _ _ => .map false []

end FieldKind

namespace SlotPlan

def storageName : SlotPlan → String
  | field f => f.storageName
  | oneof o => o.storageName

def initial : SlotPlan → Value
  | field f => f.kind.initial
  | oneof _ => .none

end SlotPlan

namespace OneofPlan

def sorted (o : OneofPlan) : List MemberPlan :=
  sortBy (fun a b => decide (a.number ≤ b.number)) o.members

def member? (o : OneofPlan) (number : Int) : Option MemberPlan :=
  o.members.find? fun m => m.number == number

def memberOf? (o : OneofPlan) (number : Scalar) : Option MemberPlan :=
  o.members.find? fun m => number.equal (.int m.number)

def memberNames (o : OneofPlan) : List (Key × Value) :=
  o.sorted.map fun m => (.scalar (.int m.number), .text m.name)

def hasMessage (o : OneofPlan) : Bool :=
  o.members.any fun m => match m.kind with
    | .scalar _ _ => false
    | _ => true

end OneofPlan

namespace MemberKind

def ref? : MemberKind → Option ClassRef
  | scalar _ _ => none
  | message _ ref _ => some ref
  | entry ref => some ref

end MemberKind

namespace ClassPlan

def isExtensible (p : ClassPlan) : Bool := !p.ranges.isEmpty

def isIndirected (p : ClassPlan) : Bool := p.layout == .indirected

def handsOut (p : ClassPlan) : Bool :=
  p.slots.any fun
    | .field f => f.kind.handsOut
    | .oneof _ => false

def hasCheck (p : ClassPlan) : Bool := p.isExtensible || !p.checks.isEmpty

/-- Does decoding write to the fields? A class with neither fields nor extensions has nothing to
write to. -/
def writesFields (p : ClassPlan) : Bool := !p.fieldNames.isEmpty || p.isExtensible

def hides (p : ClassPlan) (name : String) : Bool := p.neighbours.contains name

end ClassPlan

/-! ## Places

A message that holds any other one keeps the name of the type, the bytes of the content and the
content itself, whatever its fields are; a field is found by the name it is stored under. The number
of the owners of a storage and the mark that a reference into it was given out have such names too,
so a field may turn out to be one of them. -/

/-- Where the value of a slot is kept. -/
inductive Place where
  /-- Among the values of the message. -/
  | slot (index : Nat)
  /-- In the bytes of the content of a message that holds any other one. -/
  | packed
  /-- Nowhere. -/
  | missing
  deriving DecidableEq, Repr

def ownersName : String := "_owners"

def escapedName : String := "_escaped"

namespace ClassPlan

/-- The names under which a message that holds any other one stores its values. Of the number of its
owners and the mark only those count that a field is found under. -/
def anyNames (p : ClassPlan) : List String :=
  ["_type_url", "_value_data", "_message"]
    ++ [ownersName, escapedName].filter fun name => p.slots.any (·.storageName == name)

/-- Where the value of a slot is kept. -/
def place (p : ClassPlan) (index : Nat) : Place :=
  if !p.isAny then .slot index
  else
    match p.slots[index]? with
    | none => .missing
    | some s =>
      if s.storageName == "_value" then .packed
      else ((p.anyNames.findIdx? (· == s.storageName)).map Place.slot).getD .missing

def storedUnder? (p : ClassPlan) (name : String) : Option Nat :=
  if !p.isIndirected then none
  else if p.isAny then p.anyNames.findIdx? (· == name)
  else p.slots.findIdx? (·.storageName == name)

def ownersSlot? (p : ClassPlan) : Option Nat := p.storedUnder? ownersName

def escapedSlot? (p : ClassPlan) : Option Nat := p.storedUnder? escapedName

/-- The values that the slots of a new message hold. -/
def freshSlots (p : ClassPlan) : List Value :=
  if p.isAny then
    p.anyNames.map fun name =>
      if name == "_type_url" then .text ""
      else if name == "_value_data" then .bytes []
      else if name == ownersName then .int 1
      else if name == escapedName then .bool false
      else .none
  else p.slots.map (·.initial)

end ClassPlan

/-- Where a field number leads when data is decoded. -/
inductive Route where
  | slot (index : Nat)
  | extension
  | unknown
  deriving DecidableEq, Repr

/-- The route of a field number: the first case that matches, then the extension ranges. -/
def ClassPlan.route (p : ClassPlan) (number : Int) : Route :=
  match p.cases.find? fun (pattern, _) => pattern.contains number with
  | some (_, slot) => .slot slot
  | none => if p.ranges.contains number then .extension else .unknown

mutual

def ClassPlan.flatten : ClassPlan → List ClassPlan
  | ⟨id, name, qualified, full, own, neighbours, proto3, isAny, layout, ranges, names, oneofs, slots,
     declared, cases, visits, checks, nested⟩ =>
    ⟨id, name, qualified, full, own, neighbours, proto3, isAny, layout, ranges, names, oneofs, slots,
     declared, cases, visits, checks, nested⟩ :: flattenList nested

def flattenList : List ClassPlan → List ClassPlan
  | [] => []
  | p :: rest => p.flatten ++ flattenList rest

end

end Missive.Plan
