import Missive.Schema.Declaration
import Missive.Schema.Defect
import Missive.Schema.Ranges
import Missive.Text.Split

/-!
# The arena

All messages and enums of a set of files, in the order in which they are declared, outer ones before
what they contain. Nodes refer to each other by position, so recursive types need no cycles.

What a message node holds is a parameter: its declaration, while the nodes are collected, and its
resolved content afterwards. Finding a node does not depend on it.
-/

namespace Missive.Schema

/-- What a node is. -/
inductive Body (μ : Type) where
  | enum (values : List (String × Int))
  | message (content : μ)

/-- A message or enum. `scope` holds the positions of the enclosing nodes, from the outermost one to
the node itself, and `path` is the full name without a leading dot. -/
structure Node (μ : Type) where
  name : String
  package : String
  file : String
  parent : Option Nat
  scope : List Nat
  path : String
  body : Body μ

namespace Node

variable {μ : Type}

def message? (n : Node μ) : Option μ :=
  match n.body with
  | .message content => some content
  | .enum _ => none

def values? (n : Node μ) : Option (List (String × Int)) :=
  match n.body with
  | .message _ => none
  | .enum values => some values

def isMessage (n : Node μ) : Bool := n.message?.isSome

end Node

/-- A resolved field. `typeNode` is the position of its named type, and `oneof` the position of its
oneof among those of the message. -/
structure Field where
  name : String
  number : Int
  label : Label
  type : FieldType
  typeNode : Option Nat
  oneof : Option Nat
  default : Option String
  packed : Option Bool
  proto3Optional : Bool

/-- The resolved content of a message. -/
structure Message where
  proto3 : Bool
  mapEntry : Bool
  ranges : Ranges
  fields : List Field
  oneofNames : List String

/-- A oneof of a message with its members in order of declaration. -/
structure Oneof where
  name : String
  index : Nat
  members : List Field

def sortFields (fields : List Field) : List Field :=
  sortBy (fun a b => decide (a.number ≤ b.number)) fields

/-- Nodes by position. -/
structure Forest (μ : Type) where
  nodes : List (Node μ)

abbrev Arena := Forest Message

namespace Forest

variable {μ : Type}

def node? (a : Forest μ) (id : Nat) : Option (Node μ) := a.nodes[id]?

def ids (a : Forest μ) : List Nat := List.range a.nodes.length

def messageIds (a : Forest μ) : List Nat :=
  a.ids.filter fun id => ((a.node? id).map Node.isMessage).getD false

def messageIndex (a : Forest μ) (id : Nat) : Nat :=
  ((a.nodes.take id).filter Node.isMessage).length

def path (a : Forest μ) (id : Nat) : String := ((a.node? id).map (·.path)).getD ""

def withoutDots (name : String) : String := String.ofList (name.toList.dropWhile (· == '.'))

def find? (a : Forest μ) (name : String) : Option Nat :=
  let wanted := withoutDots name
  a.ids.reverse.find? fun id => a.path id == wanted

def resolveIn (a : Forest μ) (scope : List String) (typeName : String) : Option Nat :=
  (List.range (scope.length + 1)).reverse.findSome? fun depth =>
    a.find? (".".intercalate (scope.take depth ++ [typeName]))

/-- The node that a type name stands for inside a message: the innermost one, unless the name starts
with a dot and is therefore complete. -/
def resolve (a : Forest μ) (message typeName : String) : Option Nat :=
  if typeName.startsWith "." then a.find? typeName
  else a.resolveIn (Text.split '.' message) typeName

def topLevel (a : Forest μ) (file : String) : List Nat :=
  a.ids.filter fun id =>
    ((a.node? id).map fun n => n.parent.isNone && n.file == file).getD false

/-- Puts a node into a list of nodes with distinct names. It takes the place of one of its name. -/
def putNamed (a : Forest μ) (id : Nat) : List Nat → List Nat
  | [] => [id]
  | other :: rest =>
    if (a.node? other).map (·.name) == (a.node? id).map (·.name) then id :: rest
    else other :: a.putNamed id rest

def children (a : Forest μ) (id : Nat) : List Nat :=
  (a.ids.filter fun c => (a.node? c).bind (·.parent) == some id).foldl (fun found c => a.putNamed c found) []

def subtreeWithin (a : Forest μ) : (turns : Nat) → Nat → List Nat
  | 0, _ => []
  | turns + 1, id => id :: (a.children id).flatMap (a.subtreeWithin turns)

def subtree (a : Forest μ) (id : Nat) : List Nat := a.subtreeWithin a.nodes.length id

end Forest

namespace Forest

def message? (a : Arena) (id : Nat) : Option Message := (a.node? id).bind Node.message?

def topLevelMessages (a : Arena) (file : String) : List Nat :=
  (a.topLevel file).filter fun id => (a.message? id).isSome

/-- The messages directly inside a message that get classes of their own; map entries do not. -/
def nestedMessages (a : Arena) (id : Nat) : List Nat :=
  (a.children id).filter fun c => ((a.message? c).map fun m => !m.mapEntry).getD false

/-- Is a node the well-known message that holds any other message? -/
def isAny (a : Arena) (id : Nat) : Bool :=
  match a.node? id, a.message? id with
  | some n, some m =>
    m.proto3 && n.path == "google.protobuf.Any" && n.file == "google/protobuf/any.proto"
  | _, _ => false

end Forest

namespace Message

def allOneofs (m : Message) : List Oneof :=
  m.oneofNames.mapIdx fun index name =>
    { name, index, members := m.fields.filter fun f => f.oneof == some index }

def sorted (m : Message) : List Field := sortFields m.fields

def isExtensible (m : Message) : Bool := !m.ranges.isEmpty

end Message

namespace Oneof

/-- A oneof that only marks an optional field of the newer dialect is not a real one. -/
def isSynthetic (o : Oneof) : Bool := !o.members.isEmpty && o.members.all (·.proto3Optional)

def numbers (o : Oneof) : List Int := (sortFields o.members).map (·.number)

end Oneof

namespace Message

/-- The oneofs that are not synthetic. -/
def oneofs (m : Message) : List Oneof := m.allOneofs.filter fun o => !o.isSynthetic

/-- The oneof of a field, if it is a member of one that is not synthetic. -/
def oneofOf (m : Message) (f : Field) : Option Oneof :=
  f.oneof.bind fun index => m.oneofs.find? fun o => o.index == index

def isContinuous (m : Message) (o : Oneof) : Bool :=
  let flags := m.sorted.map fun f => ((m.oneofOf f).map (·.index)) == some o.index
  let run := (flags.dropWhile (!·)).reverse.dropWhile (!·)
  run.all id

end Message

namespace Field

def isRepeated (f : Field) : Bool := f.label == .repeated

def isRequired (f : Field) : Bool := f.label == .required

def isMessage (f : Field) : Bool := !f.type.isScalar

/-- Does the field tell "never set" from "set to the default"? Members of synthetic oneofs do. -/
def hasPresence (m : Message) (f : Field) : Bool :=
  if f.isRepeated then false
  else if f.isMessage || f.oneof.isSome then true
  else !m.proto3

def isPacked (m : Message) (f : Field) : Bool :=
  f.isRepeated && f.type.isPackable && f.packed.getD m.proto3

end Field

/-- How a field is stored and coded. -/
inductive FieldClass where
  | scalar
  | message
  | group
  | map
  deriving DecidableEq, Repr

namespace Forest

/-- The position and content of the message that is the type of a field. -/
def messageType (a : Arena) (f : Field) : Except Defect (Nat × Message) :=
  match f.typeNode with
  | none => .error .notMessage
  | some id =>
    match a.message? id with
    | none => .error .notMessage
    | some m => .ok (id, m)

def typeMessage? (a : Arena) (f : Field) : Option Nat :=
  f.typeNode.filter fun id => (a.message? id).isSome

def typeEnum? (a : Arena) (f : Field) : Option (List (String × Int)) :=
  (f.typeNode.bind a.node?).bind Node.values?

def isMap (a : Arena) (f : Field) : Except Defect Bool :=
  if f.isRepeated && f.type == .message then do return (← a.messageType f).2.mapEntry
  else .ok false

def classify (a : Arena) (f : Field) : Except Defect FieldClass := do
  if ← a.isMap f then return .map
  else if f.type == .group then return .group
  else if f.type == .message then return .message
  else return .scalar

def entryField (a : Arena) (f : Field) (position : Nat) : Except Defect Field := do
  match (← a.messageType f).2.fields[position]? with
  | some field => return field
  | none => .error .noEntryField

def keyField (a : Arena) (f : Field) : Except Defect Field := a.entryField f 0

def valueField (a : Arena) (f : Field) : Except Defect Field := a.entryField f 1

end Forest

end Missive.Schema
