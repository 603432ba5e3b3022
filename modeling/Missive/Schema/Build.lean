import Missive.Schema.Arena

/-!
# Building an arena

Two passes are made over the files: one collects every message and enum, the other checks each
message and resolves the types of its fields, which may be declared anywhere in the files.
-/

namespace Missive.Schema

/-! ## Collecting the nodes -/

/-- A message that was collected but not resolved. -/
structure Draft where
  proto3 : Bool
  decl : MessageDecl

/-- Where a declaration stands: its file, and the positions and names of what encloses it. -/
structure Place where
  file : FileDecl
  proto3 : Bool
  scope : List Nat := []
  names : List String := []

namespace Place

def pathOf (p : Place) (name : String) : String :=
  let names := p.names ++ [name]
  ".".intercalate (if p.file.package.isEmpty then names else p.file.package :: names)

def node (p : Place) (id : Nat) (name : String) (body : Body Draft) : Node Draft :=
  { name, package := p.file.package, file := p.file.name, parent := p.scope.getLast?,
    scope := p.scope ++ [id], path := p.pathOf name, body }

def within (p : Place) (id : Nat) (name : String) : Place :=
  { p with scope := p.scope ++ [id], names := p.names ++ [name] }

/-- The nodes of some enums, the first of which gets the position `id`. -/
def enumNodes (p : Place) (id : Nat) (enums : List EnumDecl) : List (Node Draft) :=
  enums.mapIdx fun i e => p.node (id + i) e.name (.enum e.values)

mutual

def messageNodes (p : Place) (id : Nat) : MessageDecl → List (Node Draft)
  | ⟨name, fields, oneofs, ranges, enums, messages, mapEntry⟩ =>
    let decl : MessageDecl := ⟨name, fields, oneofs, ranges, enums, messages, mapEntry⟩
    let inside := p.within id name
    let enumNodes := inside.enumNodes (id + 1) enums
    p.node id name (.message ⟨p.proto3, decl⟩)
      :: (enumNodes ++ inside.messageListNodes (id + 1 + enums.length) messages)

def messageListNodes (p : Place) (id : Nat) : List MessageDecl → List (Node Draft)
  | [] => []
  | m :: rest =>
    let nodes := p.messageNodes id m
    nodes ++ p.messageListNodes (id + nodes.length) rest

end

end Place

def FileDecl.isProto3 (f : FileDecl) : Except Refusal Bool :=
  if f.dialect.isEmpty || f.dialect == "proto2" then .ok false
  else if f.dialect == "proto3" then .ok true
  else .error (.unknownDialect f.name f.dialect)

def FileDecl.nodes (f : FileDecl) (id : Nat) : Except Refusal (List (Node Draft)) := do
  let place : Place := { file := f, proto3 := ← f.isProto3 }
  return place.enumNodes id f.enums ++ place.messageListNodes (id + f.enums.length) f.messages

def collect (files : List FileDecl) : Except Refusal (Forest Draft) := do
  let nodes ← files.foldlM (fun nodes f => do return nodes ++ (← f.nodes nodes.length)) []
  return ⟨nodes⟩

/-! ## Checking numbers -/

/-- The fields of a message have positive numbers of their own. -/
def checkNumbers (path : String) : (seen : List Int) → List FieldDecl → Except Refusal Unit
  | _, [] => .ok ()
  | seen, f :: rest =>
    if f.number ≤ 0 then .error (.invalid (.notPositive f.number) path (some f.name))
    else if seen.contains f.number then
      .error (.invalid (.reusedNumber f.number) path (some f.name))
    else checkNumbers path (f.number :: seen) rest

/-- Ranges in ascending order are not empty, hold positive numbers and do not overlap. -/
def checkRanges (path : String) : (previous : Int) → List (Int × Int) → Except Refusal Unit
  | _, [] => .ok ()
  | previous, (start, stop) :: rest =>
    if stop ≤ start ∨ start ≤ 0 then .error (.invalid (.badRange start stop) path none)
    else if start < previous then .error (.invalid (.overlappingRange start stop) path none)
    else checkRanges path stop rest

/-- No field has a number inside a range; the smallest one that does is named. -/
def checkOutside (path : String) (ranges : Ranges) (numbers : List Int) : Except Refusal Unit :=
  match (sortBy (fun a b => decide (a ≤ b)) numbers).find? ranges.contains with
  | some number => .error (.invalid (.numberInRange number) path none)
  | none => .ok ()

/-! ## Resolving messages -/

/-- The position of a field's oneof; a negative one counts from the end. -/
def resolveOneof (path : String) (count : Nat) (f : FieldDecl) : Except Refusal (Option Nat) :=
  match f.oneof with
  | none => .ok none
  | some index =>
    if (count : Int) ≤ index then .error (.invalid (.badOneofIndex index) path (some f.name))
    else if 0 ≤ index then .ok (some index.toNat)
    else if 0 ≤ index + count then .ok (some (index + count).toNat)
    else .error .oneofBeforeFirst

def resolveType (a : Forest Draft) (path : String) (f : FieldDecl) : Except Refusal (Option Nat) :=
  if f.typeName.isEmpty then
    if f.type.isScalar && f.type != .enum then .ok none
    else .error (.invalid .noTypeName path (some f.name))
  else
    match a.resolve path f.typeName with
    | some id => .ok (some id)
    | none => .error (.invalid (.unknownType f.typeName) path (some f.name))

def resolveField (a : Forest Draft) (path : String) (oneofs : Nat) (f : FieldDecl) :
    Except Refusal Field := do
  let typeNode ← resolveType a path f
  let oneof ← resolveOneof path oneofs f
  return { name := f.name, number := f.number, label := f.label, type := f.type, typeNode, oneof,
           default := f.default, packed := f.packed, proto3Optional := f.proto3Optional }

def checkOneofs (path : String) (m : Message) : Except Refusal Unit :=
  match m.allOneofs.find? (·.members.isEmpty) with
  | some o => .error (.invalid (.emptyOneof o.name) path none)
  | none => .ok ()

def resolveMessage (a : Forest Draft) (path : String) (d : Draft) : Except Refusal Message := do
  let ranges := Ranges.ofList d.decl.extensionRanges
  checkNumbers path [] d.decl.fields
  checkRanges path 0 ranges.list
  checkOutside path ranges (d.decl.fields.map (·.number))
  let fields ← d.decl.fields.mapM (resolveField a path d.decl.oneofs.length)
  let message : Message :=
    { proto3 := d.proto3, mapEntry := d.decl.mapEntry, ranges, fields,
      oneofNames := d.decl.oneofs }
  checkOneofs path message
  return message

def resolveNode (a : Forest Draft) (n : Node Draft) : Except Refusal (Node Message) := do
  let body ← match n.body with
    | .enum values => pure (.enum values)
    | .message d => do pure (.message (← resolveMessage a n.path d))
  return { name := n.name, package := n.package, file := n.file, parent := n.parent,
           scope := n.scope, path := n.path, body }

def Arena.build (files : List FileDecl) : Except Refusal Arena := do
  let drafts ← collect files
  return ⟨← drafts.nodes.mapM (resolveNode drafts)⟩

end Missive.Schema
