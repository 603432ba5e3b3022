import Missive.Message.Decode
import Missive.Store.Ownership

/-!
# The store

Messages are objects: they can be copied, shared and changed in place, and references to lists,
maps, cases and messages inside them can be given out. The store holds all objects, the storages
that indirected messages keep their slots in, and all lists, maps and cases. A cell is what a slot,
a list or a register holds: a value, or a reference into the store.

`view` reads the value of a cell, and `place` puts a value into the store.
-/

namespace Missive

open Plan

/-- What a slot, a list, a map or a register holds. -/
inductive Cell where
  | scalar (s : Scalar)
  | tuple (items : List Cell)
  /-- A map that cannot be written to. -/
  | frozen (entries : List (Key × Cell))
  | case (ref : Nat)
  | list (ref : Nat)
  | map (ref : Nat)
  | message (ref : Nat)

namespace Cell

abbrev none : Cell := scalar .none

instance : Inhabited Cell := ⟨none⟩

def isPresent : Cell → Bool
  | scalar .none => false
  | _ => true

def isSameContainer : Cell → Cell → Bool
  | list a, list b => a == b
  | map a, map b => a == b
  | _, _ => false

/-- Do two cells hold one object, as far as can be told? There is only one absent value, and one of
each bool and small number. -/
def isIdentical : Cell → Cell → Bool
  | scalar .none, scalar .none => true
  | scalar (.bool a), scalar (.bool b) => a == b
  | scalar (.int a), scalar (.int b) => a == b && -5 ≤ a && a ≤ 256
  | case a, case b => a == b
  | message a, message b => a == b
  | a, b => a.isSameContainer b

end Cell

/-- A reference into the store. -/
inductive Ref where
  | object (index : Nat)
  | list (index : Nat)
  | map (index : Nat)
  | case (index : Nat)
  deriving DecidableEq, Repr

/-- Where an object keeps its slots. -/
inductive Body where
  | inline (slots : List Cell)
  | shared (storage : Nat)

def Body.mapSlots (f : List Cell → List Cell) : Body → Body
  | .inline slots => .inline (f slots)
  | .shared storage => .shared storage

/-- A message object. `loose` holds attributes that were set and that no field declares; they are no
part of the message, and hide what its class has under their names. Each extension has the mark of
its setting; an object that is `bare` has no extensions at all. -/
structure Object where
  type : TypeId
  body : Body
  unknown : Bytes := []
  extensions : List (Extension × Cell) := []
  marks : List (Int × Nat) := []
  bare : Bool := false
  loose : List (String × Cell) := []

/-- A case of a oneof. Its number and its value can be set to anything, and so can attributes that
no case has. -/
structure CaseObject where
  owner : TypeId
  slot : Nat
  number : Scalar
  value : Cell
  loose : List (String × Cell) := []

/-- Slots that several objects may share. -/
structure Storage where
  ownership : Ownership := {}
  slots : List Cell

/-- How the slots of an object are copied: shared until one of the owners is changed, or at once. -/
inductive CopyPolicy where
  | share
  | eager
  deriving DecidableEq, Repr

/-- All objects, storages, lists, maps and cases, and the number of marks given so far. `members`
says which maps hold the names of the members of which oneofs. -/
structure Store where
  objects : List Object := []
  storages : List Storage := []
  lists : List (List Cell) := []
  maps : List (List (Key × Cell)) := []
  cases : List CaseObject := []
  members : List ((TypeId × Nat) × Nat) := []
  marks : Nat := 0
  policy : CopyPolicy := .share

def Object.replaces (o : Object) (name : String) : Bool := (o.loose.lookup name).isSome

def CaseObject.replaces (c : CaseObject) (name : String) : Bool := (c.loose.lookup name).isSome

def setLoose (name : String) (c : Cell) (loose : List (String × Cell)) : List (String × Cell) :=
  (loose.filter fun (n, _) => n != name) ++ [(name, c)]

abbrev Storing := EStateM Fault Store

def CaseObject.tag (c : CaseObject) (ref : Nat) : CaseTag :=
  { owner := c.owner, slot := c.slot, number := c.number, origin := some ref }

namespace Store

/-! ## Reading and writing parts -/

def list (s : Store) (ref : Nat) : List Cell := s.lists.getD ref []

def map (s : Store) (ref : Nat) : List (Key × Cell) := s.maps.getD ref []

/-- The storage of an object that shares it, and was not given something else for it. -/
def storageOf? (o : Object) : Option Nat :=
  match o.body with
  | .inline _ => none
  | .shared storage => if o.replaces storageName then none else some storage

/-- The slots of an object. One that was given something else for a storage has none. -/
def slots (s : Store) (o : Object) : List Cell :=
  match o.body with
  | .inline slots => slots
  | .shared storage =>
    if o.replaces storageName then [] else ((s.storages[storage]?).map (·.slots)).getD []

def setList (s : Store) (ref : Nat) (items : List Cell) : Store :=
  { s with lists := s.lists.set ref items }

def setMap (s : Store) (ref : Nat) (entries : List (Key × Cell)) : Store :=
  { s with maps := s.maps.set ref entries }

def updateObject (s : Store) (ref : Nat) (f : Object → Object) : Store :=
  { s with objects := s.objects.modify ref f }

def setCase (s : Store) (ref : Nat) (c : CaseObject) : Store :=
  { s with cases := s.cases.set ref c }

def updateStorage (s : Store) (ref : Nat) (f : Storage → Storage) : Store :=
  { s with storages := s.storages.modify ref f }

/-- Is a cell neither absent nor zero nor empty? -/
def truthy (s : Store) : Cell → Bool
  | .scalar x => x.truthy
  | .tuple items => !items.isEmpty
  | .frozen entries => !entries.isEmpty
  | .list ref => !(s.list ref).isEmpty
  | .map ref => !(s.map ref).isEmpty
  | .case _ | .message _ => true

end Store

namespace Storing

def ofExcept {α : Type} : Except Fault α → Storing α
  | .ok a => pure a
  | .error e => throw e

def object (ref : Nat) : Storing Object := do
  match (← get).objects[ref]? with
  | some o => return o
  | none => throw .missingKey

def caseObject (ref : Nat) : Storing CaseObject := do
  match (← get).cases[ref]? with
  | some c => return c
  | none => throw .missingKey

def newList (items : List Cell) : Storing Cell := do
  let s ← get
  set { s with lists := s.lists ++ [items] }
  return .list s.lists.length

def newMap (entries : List (Key × Cell)) : Storing Cell := do
  let s ← get
  set { s with maps := s.maps ++ [entries] }
  return .map s.maps.length

def addCase (c : CaseObject) : Storing Cell := do
  let s ← get
  set { s with cases := s.cases ++ [c] }
  return .case s.cases.length

def newStorage (slots : List Cell) : Storing Nat := do
  let s ← get
  set { s with storages := s.storages ++ [({ slots := slots } : Storage)] }
  return s.storages.length

/-- A mark that was not given before. -/
def newMark : Storing Nat := do
  let s ← get
  set { s with marks := s.marks + 1 }
  return s.marks

def newObject (o : Object) : Storing Nat := do
  let s ← get
  set { s with objects := s.objects ++ [o] }
  return s.objects.length

def newBody (p : Program) (t : TypeId) (slots : List Cell) : Storing Body := do
  if ((p.plan? t).map (·.isIndirected)).getD false then return .shared (← newStorage slots)
  return .inline slots

/-- Adds a message whose extensions are all set anew. -/
def newMessage (p : Program) (head : Head) (slots : List Cell)
    (extensions : List (Extension × Cell)) : Storing Cell := do
  let body ← newBody p head.type slots
  let mark ← newMark
  let marks := extensions.map fun (e, _) => (e.number, mark)
  return .message (← newObject
    { type := head.type, body, unknown := head.unknown, extensions, marks, bare := head.bare })

end Storing

/-! ## Values in the store -/

def maxNesting : Nat := 1000

/-- The value of a cell, read down to as many levels as given, below some references that it is part
of. Messages and cases remember where they were read, and what contains itself is cut off. -/
def Store.viewWithin (s : Store) : (levels : Nat) → (above : List Ref) → Cell → Except Fault Value
  | 0, _, _ => .error .endless
  | _ + 1, _, .scalar x => .ok (.scalar x)
  | levels + 1, above, .tuple items => do
    return .tuple (← items.mapM (s.viewWithin levels above))
  | levels + 1, above, .frozen entries => do
    return .map true (← entries.mapM fun (key, c) => do
      return (key, ← s.viewWithin levels above c))
  | levels + 1, above, .case ref =>
    if above.contains (.case ref) then .ok .loop
    else
      match s.cases[ref]? with
      | none => .error .missingKey
      | some c => do
        let inner := .case ref :: above
        let value ← s.viewWithin levels inner c.value
        let loose ← c.loose.mapM fun (name, l) => do return (name, ← s.viewWithin levels inner l)
        return .case (c.tag ref) value loose
  | levels + 1, above, .list ref =>
    if above.contains (.list ref) then .ok .loop
    else do return .list (← (s.list ref).mapM (s.viewWithin levels (.list ref :: above)))
  | levels + 1, above, .map ref =>
    if above.contains (.map ref) then .ok .loop
    else do
      return .map false (← (s.map ref).mapM fun (key, c) => do
        return (key, ← s.viewWithin levels (.map ref :: above) c))
  | levels + 1, above, .message ref =>
    if above.contains (.object ref) then .ok .loop
    else
      match s.objects[ref]? with
      | none => .error .missingKey
      | some o => do
        let inner := .object ref :: above
        let slots ← (s.slots o).mapM (s.viewWithin levels inner)
        let extensions ← o.extensions.mapM fun (e, c) => do
          return (e, ← s.viewWithin levels inner c)
        let loose ← o.loose.mapM fun (name, l) => do return (name, ← s.viewWithin levels inner l)
        let origin : Origin := { object := ref, storage := Store.storageOf? o, marks := o.marks }
        let head : Head :=
          { type := o.type, unknown := o.unknown, origin := some origin, bare := o.bare }
        return .message head slots extensions loose

def Store.view (s : Store) (c : Cell) : Except Fault Value := s.viewWithin maxNesting [] c

/-- The names of the members of the oneofs whose maps were given out. -/
def Store.memberNames (s : Store) : List ((TypeId × Nat) × List (Key × Value)) :=
  s.members.map fun (oneof, names) =>
    match s.view (.map names) with
    | .ok (.map _ entries) => (oneof, entries)
    | _ => (oneof, [])

def Storing.view (c : Cell) : Storing Value := do
  Storing.ofExcept ((← get).view c)

mutual

def Storing.place (p : Program) : Value → Storing Cell
  | .scalar s => return .scalar s
  | .list items => do newList (← placeList p items)
  | .tuple items => do return .tuple (← placeList p items)
  | .map true entries => do return .frozen (← placeEntries p entries)
  | .map false entries => do newMap (← placeEntries p entries)
  | .case tag v loose => do
    let value ← Storing.place p v
    let loose ← placeLoose p loose
    addCase { owner := tag.owner, slot := tag.slot, number := tag.number, value, loose }
  | .message head slots extensions _ => do
    let slots ← placeList p slots
    newMessage p head slots (← placeExtensions p extensions)
  | .loop => throw .endless

def Storing.placeList (p : Program) : List Value → Storing (List Cell)
  | [] => return []
  | v :: rest => do
    let c ← Storing.place p v
    return c :: (← placeList p rest)

def Storing.placeEntries (p : Program) : List (Key × Value) → Storing (List (Key × Cell))
  | [] => return []
  | (key, v) :: rest => do
    let c ← Storing.place p v
    return (key, c) :: (← placeEntries p rest)

def Storing.placeExtensions (p : Program) :
    List (Extension × Value) → Storing (List (Extension × Cell))
  | [] => return []
  | (e, v) :: rest => do
    let c ← Storing.place p v
    return (e, c) :: (← placeExtensions p rest)

def Storing.placeLoose (p : Program) : List (String × Value) → Storing (List (String × Cell))
  | [] => return []
  | (name, v) :: rest => do
    let c ← Storing.place p v
    return (name, c) :: (← placeLoose p rest)

end

namespace Storing

/-- What an object was given under the name of a method cannot be called. -/
def checkMethod (o : Object) (name : String) : Storing Unit := do
  if o.replaces name then throw .wrongType

def fresh (p : Program) (t : TypeId) : Storing Cell := do place p (← ofExcept (p.fresh t))

/-! ## Conversions -/

mutual

def keyCell : Key → Cell
  | .scalar s => .scalar s
  | .tuple items => .tuple (keyCells items)

def keyCells : List Key → List Cell
  | [] => []
  | k :: rest => keyCell k :: keyCells rest

end

mutual

/-- The key that a cell is; lists, maps, cases and messages are none. -/
def toKey : Cell → Except Fault Key
  | .scalar s => return .scalar s
  | .tuple items => do return .tuple (← toKeys items)
  | _ => throw .wrongType

def toKeys : List Cell → Except Fault (List Key)
  | [] => return []
  | c :: rest => do
    let key ← toKey c
    return key :: (← toKeys rest)

end

def asKey (c : Cell) : Storing Key := ofExcept (toKey c)

/-- The items that a loop over a cell meets. -/
def elements (c : Cell) : Storing (List Cell) := do
  match c with
  | .list ref => return (← get).list ref
  | .tuple items => return items
  | .map ref => return ((← get).map ref).map fun (key, _) => keyCell key
  | .frozen entries => return entries.map fun (key, _) => keyCell key
  | .scalar s =>
    match (Value.scalar s).elements? with
    | some items =>
      return items.map fun
        | .scalar x => .scalar x
        | _ => .none
    | none => throw .wrongType
  | _ => throw .wrongType

end Storing

end Missive
