import Missive.Store.Owners

/-!
# Copies

A copy of a message is a message of its own. An indirected message shares its storage with its
copies; the first change to one of them copies the storage. A storage that a reference was given out
of is not shared any more, because it may be written to through the reference at any time.

Copying a value the shallow way keeps the items of a list or map; copying a stored value copies them
too. A case is copied by making it again, so the copy of one whose number was changed may fail.

Loose attributes are not copied, except for what has taken the place of the unknown fields or of the
extensions.
-/

namespace Missive

open Plan

/-- How a slot is copied. -/
inductive SlotCopy where
  /-- The cell itself. -/
  | same
  /-- A new list with the same items. -/
  | items
  /-- A copy of the stored value. -/
  | deep
  /-- Not at all: the copy starts anew. -/
  | anew (s : Scalar)

def Plan.ClassPlan.slotCopies (c : ClassPlan) : List SlotCopy :=
  if c.isAny then
    c.anyNames.map fun name =>
      if name == "_message" then .deep
      else if name == ownersName then .anew (.int 1)
      else if name == escapedName then .anew (.bool false)
      else .same
  else
    c.slots.map fun
      | .field f =>
        match f.kind with
        | .scalar _ _ _ => .same
        | .repeated _ _ => .items
        | _ => .deep
      | .oneof _ => .deep

namespace Storing

/-- A copy of a slot, given how a stored value is copied. -/
def copySlot (copyStored : Cell → Storing Cell) (c : ClassPlan) : SlotCopy → Cell → Storing Cell
  | .same, cell => return cell
  | .items, cell => do
    if c.hides "list" then throw .wrongType
    newList (← elements cell)
  | .deep, cell => copyStored cell
  | .anew s, _ => return .scalar s

/-- Copies of slots, given how a stored value is copied. -/
def copySlots (copyStored : Cell → Storing Cell) (c : ClassPlan) :
    List SlotCopy → List Cell → Storing (List Cell)
  | how :: hows, cell :: cells => do
    let copied ← copySlot copyStored c how cell
    return copied :: (← copySlots copyStored c hows cells)
  | _, _ => return []

def copyStorage (copyStored : Cell → Storing Cell) (c : ClassPlan) (ref : Nat) : Storing (List Cell) := do
  let source ← storage ref
  if c.hides "type" && !c.isAny then throw .wrongType
  copySlots copyStored c c.slotCopies source.slots

def copyBody (copyStored : Cell → Storing Cell) (c : ClassPlan) : Body → Storing Body
  | .inline slots => do return .inline (← copySlots copyStored c c.slotCopies slots)
  | .shared ref => do
    let shared ← storage ref
    let s ← get
    if s.truthy (shared.escaped c) || s.policy == .eager then
      return .shared (← newStorage (← copyStorage copyStored c ref))
    changeStorage ref (·.retain c)
    return .shared ref

def newCase (p : Program) (owner : TypeId) (slot : Nat) (number : Scalar) (value : Cell) :
    Storing Cell := do
  ofExcept (p.checkMember { owner, slot, number })
  addCase { owner, slot, number, value }

def isExtensible (p : Program) (o : Object) : Bool :=
  ((p.plan? o.type).map (·.isExtensible)).getD false

/-- Are the extensions of an object copied? Its class says so, or a loose attribute. -/
def copiesExtensions (p : Program) (o : Object) : Storing Bool := do
  match o.loose.lookup "IS_EXTENSIBLE" with
  | some given => return (← get).truthy given
  | none => return isExtensible p o

def extendedOf (p : Program) (o : Object) : Extended Cell :=
  .ofLoose (o.bare || !isExtensible p o) o.extensions o.loose

/-- A copy without slots of an object, given how a cell and how a stored one is copied. -/
def copyShell (p : Program) (copy copyStored : Cell → Storing Cell) (o : Object) :
    Storing Object := do
  let shell : Object := { type := o.type, body := .inline [], bare := isExtensible p o }
  let shell ← match o.loose.lookup unknownName with
    | some given => do pure { shell with loose := setLoose unknownName (← copy given) shell.loose }
    | none => pure { shell with unknown := o.unknown }
  if !(← copiesExtensions p o) then return shell
  match extendedOf p o with
  | .usual extensions =>
    let extensions ← extensions.mapM fun (e, c) => do return (e, ← copyStored c)
    return { shell with bare := false, extensions, marks := o.marks }
  | .replaced given =>
    return { shell with loose := setLoose extensionsName (← copy given) shell.loose }
  | .missing => throw .noAttribute

/-- Copies a cell. A shallow copy of a list or map keeps its items, a copy of a stored one copies
them too. -/
def copyWithin (p : Program) : (levels : Nat) → (stored : Bool) → Cell → Storing Cell
  | 0, _, _ => throw .endless
  | _ + 1, _, .scalar s => return .scalar s
  | _ + 1, _, .tuple items => return .tuple items
  | _ + 1, _, .frozen _ => throw .wrongType
  | levels + 1, _, .case ref => do
    let c ← caseObject ref
    let value ← copyWithin p levels true c.value
    if let some number := c.loose.lookup numberName then let _ ← asKey number
    newCase p c.owner c.slot c.number value
  | _ + 1, false, .list ref => do newList ((← get).list ref)
  | _ + 1, false, .map ref => do newMap ((← get).map ref)
  | levels + 1, true, .list ref => do
    newList (← ((← get).list ref).mapM (copyWithin p levels true))
  | levels + 1, true, .map ref => do
    newMap (← ((← get).map ref).mapM fun (key, c) => do
      return (key, ← copyWithin p levels true c))
  | levels + 1, _, .message ref => do
    let o ← object ref
    if p.takes o.type "__copy__" then throw .wrongType
    let shell ← copyShell p (copyWithin p levels false) (copyWithin p levels true) o
    checkMethod o "_protobuf_copy_fields"
    match p.plan? o.type with
    | none => throw .abstract
    | some c =>
      if c.isIndirected && o.replaces storageName then throw .noAttribute
      let body ← copyBody (copyWithin p levels true) c o.body
      return .message (← newObject { shell with body })

def copy (p : Program) (c : Cell) : Storing Cell := copyWithin p maxNesting false c

def copyStored (p : Program) (c : Cell) : Storing Cell := copyWithin p maxNesting true c

/-! ## Deep copies -/

abbrev Copying := StateT (List (Ref × Cell)) Storing

def copyOnce (ref : Ref) (make : Copying Cell) : Copying Cell := do
  match (← get).lookup ref with
  | some c => return c
  | none => make

def remember (ref : Ref) (c : Cell) : Copying Unit := modify ((ref, c) :: ·)

/-- Adds a copy of the body of an object, given how its cells are copied. A copy of a storage has as
many owners as the storage. -/
def duplicateBody (copy : Cell → Copying Cell) : Body → Copying Body
  | .inline slots => do return .inline (← slots.mapM copy)
  | .shared ref => do
    let source ← storage ref
    let slots ← source.slots.mapM copy
    let duplicate ← newStorage slots
    modifyThe Store (·.updateStorage duplicate fun s => { s with ownership := source.ownership })
    return .shared duplicate

/-- What a message is copied with: its own method, unless a loose attribute hides it. The absent
value stands for having none. -/
inductive CopyMethod where
  | own
  | none

/-- How a message is copied with all that it contains. -/
def copyMethod (p : Program) (o : Object) : Storing CopyMethod := do
  match o.loose.lookup "__deepcopy__" with
  | some (.scalar .none) =>
    if ["__reduce_ex__", "__getstate__"].any o.replaces then throw .wrongType
    return .none
  | some _ => throw .wrongType
  | none =>
    if p.takes o.type "__deepcopy__" then throw .wrongType
    checkMethod o "__copy__"
    return .own

/-- A copy of a cell and all that it contains. Messages are copied as values, whatever they share;
a case is copied with all its attributes, as they are, and so is a message without a method of its
own. -/
def deepCopyWithin (p : Program) : (levels : Nat) → Cell → Copying Cell
  | 0, _ => throw .endless
  | _ + 1, .scalar s => return .scalar s
  | levels + 1, .tuple items => do return .tuple (← items.mapM (deepCopyWithin p levels))
  | _ + 1, .frozen _ => throw .wrongType
  | levels + 1, .case ref => copyOnce (.case ref) do
    let s ← getThe Store
    let c ← caseObject ref
    if ["__reduce_ex__", "__getstate__"].any c.replaces then throw .wrongType
    match c.loose.lookup "__deepcopy__" with
    | none | some (.scalar .none) => pure ()
    | some _ => throw .wrongType
    let copied ← addCase c
    remember (.case ref) copied
    let loose ← c.loose.mapM fun (name, l) => do return (name, ← deepCopyWithin p levels l)
    let value ← deepCopyWithin p levels c.value
    modifyThe Store (·.setCase s.cases.length { c with value, loose })
    return copied
  | levels + 1, .list ref => copyOnce (.list ref) do
    let s ← getThe Store
    let copied ← newList []
    remember (.list ref) copied
    let items ← (s.list ref).mapM (deepCopyWithin p levels)
    modifyThe Store (·.setList s.lists.length items)
    return copied
  | levels + 1, .map ref => copyOnce (.map ref) do
    let s ← getThe Store
    let copied ← newMap []
    remember (.map ref) copied
    let entries ← (s.map ref).mapM fun (key, c) => do return (key, ← deepCopyWithin p levels c)
    modifyThe Store (·.setMap s.maps.length entries)
    return copied
  | levels + 1, .message ref => copyOnce (.object ref) do
    let o ← object ref
    match ← copyMethod p o with
    | .own =>
      let copied ← copy p (.message ref)
      remember (.object ref) copied
      return copied
    | .none =>
      let index ← newObject { type := o.type, body := .inline [] }
      remember (.object ref) (.message index)
      let deep := deepCopyWithin p levels
      let body ← duplicateBody deep o.body
      let extensions ← o.extensions.mapM fun (e, c) => do return (e, ← deep c)
      let mark ← newMark
      let marks := extensions.map fun (e, _) => (e.number, mark)
      let loose ← o.loose.mapM fun (name, c) => do return (name, ← deep c)
      modifyThe Store (·.updateObject index fun _ => { o with body, extensions, marks, loose })
      return .message index

def deepCopy (p : Program) (c : Cell) : Storing Cell := (deepCopyWithin p maxNesting c).run' []

/-! ## Before a change -/

/-- Gives an object a storage of its own, and gives up its share in the one it had. -/
def rebind (c : ClassPlan) (ref : Nat) (slots : List Cell) : Storing Unit := do
  let o ← object ref
  let storage ← newStorage slots
  modify (·.updateObject ref fun o => { o with body := .shared storage })
  if let .shared old := o.body then changeStorage old (·.release c)

/-- Makes sure that no other object owns the storage of an object. -/
def unique (p : Program) (ref : Nat) : Storing Unit := do
  let o ← object ref
  match o.body, p.plan? o.type with
  | .shared shared, some c =>
    checkMethod o "_unique_storage"
    if o.replaces storageName then throw .noAttribute
    if !(← storage shared).isUnique c then
      rebind c ref (← copyStorage (copyStored p) c shared)
  | _, _ => return

/-- Makes sure that a reference into an object can be given out. -/
def escape (p : Program) (ref : Nat) : Storing Unit := do
  if let .shared _ := (← object ref).body then checkMethod (← object ref) "_escaped_storage"
  unique p ref
  let o ← object ref
  match o.body, p.plan? o.type with
  | .shared shared, some c => changeStorage shared fun s => .ok (s.markEscaped c)
  | _, _ => return

def slot (ref index : Nat) : Storing Cell := do
  match ((← get).slots (← object ref))[index]? with
  | some c => return c
  | none => throw .noAttribute

/-- Changes the slots of an object, whose storage has to be its own. -/
def changeSlots (ref : Nat) (f : List Cell → List Cell) : Storing Unit := do
  let o ← object ref
  modify (·.updateObject ref fun o => { o with body := o.body.mapSlots f })
  if let .shared storage := o.body then
    modify (·.updateStorage storage fun s => { s with slots := f s.slots })

def setSlot (ref index : Nat) (c : Cell) : Storing Unit := changeSlots ref (·.set index c)

end Storing

end Missive
