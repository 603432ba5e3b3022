import Missive.Literal
import Missive.Naming.Private
import Missive.Plan.Basic

/-!
# Attributes of message classes

What names stand for in a message class and in its code, in three groups.

**Properties and accessors.** Fields and oneofs are properties under their names, private names
written out. Some of them have accessors as well, whose names begin with what they do.

**Taken names.** All messages share some methods. A field, a oneof or a nested class may have the
name of one, which then cannot be used any more; what is left of an operation that needs it is a
fault.

**Local variables.** The variables of a method hide classes of the same name.
-/

namespace Missive.Plan

open Naming

/-! ## Properties and accessors -/

/-- A property of a message class. -/
inductive Attribute where
  | field (slot : Nat) (f : FieldPlan)
  | member (slot : Nat) (o : OneofPlan) (m : MemberPlan)
  | oneof (slot : Nat) (o : OneofPlan)

/-- What an accessor does. -/
inductive Accessor where
  | has
  | clear
  | mutable
  deriving DecidableEq, Repr

def Accessor.nameOf (a : Accessor) (name : String) : String :=
  match a with
  | has => "has_" ++ name
  | clear => "clear_" ++ name
  | mutable => "mutable_" ++ name

def FieldKind.hasAccessor (kind : FieldKind) : Accessor → Bool
  | .has =>
    match kind with
    | scalar _ presence _ => presence
    | message _ _ => true
    | _ => false
  | .clear =>
    match kind with
    | scalar _ presence _ => presence
    | _ => true
  | .mutable => kind.handsOut

namespace ClassPlan

/-- The property of a class with a name. A private name, written out, may be that of another field;
the one that is declared last has it. A oneof comes right before its first member. -/
def attribute? (c : ClassPlan) (name : String) : Option Attribute :=
  c.declared.reverse.findSome? fun
    | .field slot f => if privateName c.name f.name == name then some (.field slot f) else none
    | .member slot o m first =>
      if privateName c.name m.name == name then some (.member slot o m)
      else if first && privateName c.name o.name == name then some (.oneof slot o)
      else none

/-- What the accessor of a field or oneof works on. Members of oneofs only tell whether they are
set, and oneofs can only be cleared. -/
def accessor? (c : ClassPlan) (a : Accessor) (name : String) : Option Attribute :=
  c.declared.findSome? fun
    | .field slot f =>
      if f.name == name && f.kind.hasAccessor a then some (.field slot f) else none
    | .member slot o m _ =>
      if m.name == name && a == .has then some (.member slot o m)
      else if o.name == name && a == .clear then some (.oneof slot o)
      else none

/-- What a class says about itself under a name. -/
def constant? (c : ClassPlan) (name : String) : Option Value :=
  let texts := fun (names : List String) => Value.tuple (names.map .text)
  match name with
  | "PROTO_MESSAGE_NAME" => some (.text c.fullName)
  | "IS_PROTO3" => some (.bool c.proto3)
  | "IS_EXTENSIBLE" => some (.bool c.isExtensible)
  | "EXTENSION_RANGES" =>
    some (.tuple (c.ranges.list.map fun (start, stop) => .tuple [.int start, .int stop]))
  | "FIELD_NAMES" => some (texts c.fieldNames)
  | "ONEOF_NAMES" => some (texts (c.oneofs.map (·.name)))
  | "_storage" => if c.isIndirected then none else some .none
  | _ => none

end ClassPlan

/-- What the base of all classes says about itself under a name. -/
def baseConstant? : String → Option Value
  | "PROTO_MESSAGE_NAME" => some (.text "")
  | "IS_PROTO3" | "IS_EXTENSIBLE" => some (.bool false)
  | "EXTENSION_RANGES" | "FIELD_NAMES" | "ONEOF_NAMES" => some (.tuple [])
  | "_storage" => some .none
  | _ => none

def fullNameName : String := "PROTO_MESSAGE_NAME"

def membersName : String := "MEMBERS"

def numberName : String := "field_number"

def oneofName : String := "ONEOF_NAME"

/-! ## Taken names -/

/-- What has taken a name. -/
inductive Taken where
  | property
  | nested
  /-- A field that the message keeps in itself, under the name it is stored under. -/
  | stored
  deriving DecidableEq, Repr

def SlotPlan.isConverted (s : SlotPlan) : Bool :=
  match s.initial with
  | .scalar x => x.isConverted
  | _ => false

namespace ClassPlan

/-- What has taken a name of which all messages have a method. A nested class does not replace the
constructor, which comes after it. -/
def taken? (c : ClassPlan) (name : String) : Option Taken :=
  if (c.attribute? name).isSome then some .property
  else if name != "__init__" && c.nested.any fun n => privateName c.name n.name == name then
    some .nested
  else if !c.isIndirected && c.slots.any fun s => s.storageName == name then some .stored
  else none

def takes (c : ClassPlan) (name : String) : Bool := (c.taken? name).isSome

/-- Why there can be no message of a class, if that is so. A new message is allocated and then
initialised, for which its attributes are read and set. -/
def birthFault? (c : ClassPlan) : Option Fault :=
  if c.takes "__new__" then some .wrongType
  else if c.takes "__init__" then some .noAttribute
  else
    match c.taken? "__getattribute__", c.taken? "__setattr__" with
    | some .property, _ => some .endless
    | some _, _ => some .wrongType
    | none, some .property => some .noAttribute
    | none, some _ => some .wrongType
    | none, none =>
      if c.hides "super" then some .endless
      else if c.hides "float" && !c.isAny && c.slots.any SlotPlan.isConverted then some .wrongType
      else none

/-- The fault of asking for an attribute that is not there. -/
def missing (c : ClassPlan) : Fault :=
  if c.takes "__getattr__" then .wrongType else .noAttribute

end ClassPlan

/-! ## Local variables -/

/-- The variables of the getter of a message field, where it is not set. -/
def getterLocals : Locals := [("self", .self), ("value", .nothing)]

def mutableLocals : Locals := [("self", .self), ("storage", .hashable)]

/-- The variables of the getter of a member of a oneof, where it is not active. -/
def memberLocals : Locals := [("self", .self), ("case", .nothing)]

def ClassPlan.decoderLocals (c : ClassPlan) (current value : Local) : Locals :=
  [("self", .self), ("decoder", .hashable), ("field_number", .hashable)]
    ++ (if c.isIndirected then [("storage", .hashable)] else [])
    ++ (if c.oneofs.isEmpty then [] else [("current", current), ("value", value)])

def OneofPlan.decoderLocals (o : OneofPlan) (current : Local) : Locals :=
  [("cls", .hashable), ("decoder", .hashable), ("field_number", .hashable), ("current", current)]
    ++ (if o.hasMessage then [("existing", .nothing)] else [])

end Missive.Plan
