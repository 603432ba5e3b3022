import Missive.Store.Seal

/-!
# Accessors

Reading, setting and clearing the fields of a message object by name. Getters never give out what is
stored: lists become tuples, maps become read-only ones, and messages are copied. Setters convert
and copy what they are given before they touch the object, so a setter that fails changes nothing.

A class of the module may hide a built-in function that an accessor needs; the accessor then fails.
So does one that needs a method which a loose attribute hides.
-/

namespace Missive

open Plan

namespace Storing

/-! ## Conversions -/

def asEntry (c : Cell) : Storing (Key × Cell) := do
  match ← elements c with
  | [key, value] => return (← asKey key, value)
  | _ => throw .badValue

/-- The entries of a map, or those that a list of pairs spells. -/
def asEntries (c : Cell) : Storing (List (Key × Cell)) := do
  match c with
  | .map ref => return (← get).map ref
  | .frozen entries => return entries
  | c =>
    (← elements c).foldlM (fun entries pair => do
        let (key, value) ← asEntry pair
        return putEntry key value entries) []

def asBytes (c : Cell) : Storing Cell := do
  return .scalar (.bytes (← ofExcept (← view c).toBytes))

/-- Goes on unless a class of the module hides a built-in function. -/
def needs (c : ClassPlan) (name : String) : Storing Unit := do
  if c.hides name then throw .wrongType

/-- What a scalar field of a type stores when it is set. Only byte strings are converted. -/
def converted (plan : ClassPlan) (type : FieldType) (c : Cell) : Storing Cell := do
  if type == .bytes then
    needs plan "bytes"
    asBytes c
  else return c

def defaultCell (plan : ClassPlan) (default : Scalar) : Storing Cell := do
  if default.isConverted then needs plan "float"
  return .scalar default

def freshOf (p : Program) (ref : ClassRef) (locals : Locals) : Storing Cell := do
  fresh p (← ofExcept (ref.meaning locals).toClass)

/-! ## Places -/

def readSlot (p : Program) (c : ClassPlan) (ref index : Nat) : Storing Cell :=
  match c.place index with
  | .slot i => slot ref i
  | .packed => anyBytes p ref
  | .missing => throw .noAttribute

/-- Stores a cell for a slot of a class, after making sure that the storage is the object's own. New
bytes of the content of a message that holds any other one replace the content. -/
def assign (p : Program) (c : ClassPlan) (ref index : Nat) (stored : Cell) : Storing Unit := do
  unique p ref
  match c.place index with
  | .slot i => setSlot ref i stored
  | .packed =>
    setSlot ref Any.dataSlot (← asBytes stored)
    setSlot ref Any.contentSlot .none
  | .missing => throw .noAttribute

/-! ## Getters -/

/-- The value of a field that is in no oneof, given what is stored. -/
def getField (p : Program) (plan : ClassPlan) (f : FieldPlan) (c : Cell) : Storing Cell := do
  match f.kind with
  | .scalar _ presence default =>
    if presence && !c.isPresent then defaultCell plan default else return c
  | .repeated _ _ =>
    needs plan "tuple"
    return .tuple (← elements c)
  | .message _ ref => if c.isPresent then copy p c else freshOf p ref getterLocals
  | .repeatedMessage _ _ =>
    needs plan "tuple"
    return .tuple (← (← elements c).mapM (copy p))
  | .map _ _ _ =>
    match ← copyStored p c with
    | .map copied => return .frozen ((← get).map copied)
    | _ => throw .wrongType

def activeCase? (m : MemberPlan) (c : Cell) : Storing (Option CaseObject) := do
  match c with
  | .case ref =>
    let found ← caseObject ref
    return if found.number.equal (.int m.number) then some found else none
  | .scalar .none => return none
  | _ => throw .noAttribute

/-- The value of a member of a oneof, given its case; its default, if it is not active. -/
def getMember (p : Program) (plan : ClassPlan) (m : MemberPlan) (c : Cell) : Storing Cell := do
  match ← activeCase? m c, m.kind with
  | some found, .scalar _ _ => return found.value
  | some found, _ => copy p found.value
  | none, .scalar _ default => defaultCell plan default
  | none, .message _ ref _ => freshOf p ref memberLocals
  | none, .entry ref => freshOf p ref memberLocals

def getProperty (p : Program) (c : ClassPlan) (ref : Nat) : Attribute → Storing Cell
  | .field index f => do getField p c f (← readSlot p c ref index)
  | .member index _ m => do getMember p c m (← readSlot p c ref index)
  | .oneof index _ => do copyStored p (← readSlot p c ref index)

/-- What every object says about itself under a special name, given the module of its class and the
fault of having no such attribute. -/
def specialAttribute (moduleName name : String) (missing : Fault) : Storing Cell :=
  match name with
  | "__module__" => return .scalar (.text moduleName)
  | "__doc__" | "__hash__" | "__weakref__" => return .none
  | _ => throw missing

def ownSlot? (c : ClassPlan) (name : String) : Option Nat :=
  if c.isIndirected then none else c.slots.findIdx? (·.storageName == name)

/-- Reads an attribute: a property, what the object itself has under the name, or what its class
says about itself. -/
def getAttribute (p : Program) (ref : Nat) (name : String) : Storing Cell := do
  let o ← object ref
  match p.plan? o.type with
  | none =>
    match o.loose.lookup name, baseConstant? name with
    | some cell, _ => return cell
    | none, some v => place p v
    | none, none => specialAttribute p.baseModule name .noAttribute
  | some c =>
    match c.attribute? name, ownSlot? c name, o.loose.lookup name, c.constant? name with
    | some a, _, _, _ => getProperty p c ref a
    | none, some index, _, _ => slot ref index
    | none, none, some cell, _ => return cell
    | none, none, none, some v => place p v
    | none, none, none, none =>
      specialAttribute (((p.moduleOf? o.type).map (·.name)).getD "") name c.missing

/-! ## Setters -/

/-- What a field that is in no oneof stores when it is set to a value. -/
def storedField (p : Program) (plan : ClassPlan) (f : FieldPlan) (c : Cell) : Storing Cell := do
  match f.kind with
  | .scalar type _ _ => converted plan type c
  | .repeated _ _ =>
    needs plan "list"
    newList (← elements c)
  | .message _ _ => copy p c
  | .repeatedMessage _ _ => newList (← (← elements c).mapM (copy p))
  | .map _ _ _ =>
    needs plan "dict"
    copyStored p (← newMap (← asEntries c))

def givenClass? (plan : ClassPlan) (o : OneofPlan) (receiver : Object) : Option Cell :=
  receiver.loose.lookup (Naming.privateName plan.name o.className)

def storedMember (p : Program) (plan : ClassPlan) (index : Nat) (o : OneofPlan) (m : MemberPlan)
    (receiver : Object) (c : Cell) : Storing Cell := do
  let value ← match m.kind with
    | .scalar type _ => converted plan type c
    | _ => copy p c
  if (givenClass? plan o receiver).isSome then throw .wrongType
  newCase p plan.id index (.int m.number) value

mutual

def isHollow : Cell → Bool
  | .tuple items => areHollow items
  | _ => false

def areHollow : List Cell → Bool
  | [] => true
  | c :: rest => isHollow c && areHollow rest

end

/-- Is a cell a case of a oneof? What an object was given in place of the class of the oneof is no
class; only without any classes at all there is an answer. -/
def isCaseOf (plan : ClassPlan) (index : Nat) (o : OneofPlan) (receiver : Object) (c : Cell) :
    Storing Bool := do
  match givenClass? plan o receiver, c with
  | some given, _ => if isHollow given then return false else throw .wrongType
  | none, .case ref =>
    let found ← caseObject ref
    return found.owner == plan.id && found.slot == index
  | none, _ => return false

/-- What a oneof stores when it is set as a whole: nothing, or a copy of one of its cases. -/
def storedCase (p : Program) (plan : ClassPlan) (index : Nat) (o : OneofPlan) (receiver : Object)
    (c : Cell) : Storing Cell := do
  if !c.isPresent then return .none
  needs plan "isinstance"
  if ← isCaseOf plan index o receiver c then return ← copyStored p c
  needs plan "TypeError"
  throw (.expectedCase o.className)

/-- What all objects have under some special names can only be set to something of its kind. -/
def checkSettable (name : String) (c : Cell) : Storing Unit := do
  match name, c with
  | "__class__", _ => throw .wrongType
  | "__dict__", .map _ => return
  | "__dict__", _ => throw .wrongType
  | "__weakref__", _ => throw .noAttribute
  | _, _ => return

/-- Sets an attribute. A name that the class does not know becomes a loose attribute. -/
def setAttribute (p : Program) (ref : Nat) (name : String) (c : Cell) : Storing Unit := do
  let o ← object ref
  let known := (p.plan? o.type).bind fun plan => (plan.attribute? name).map (plan, ·)
  let own := (p.plan? o.type).bind (ownSlot? · name)
  match known, own with
  | some (plan, .field index f), _ => assign p plan ref index (← storedField p plan f c)
  | some (plan, .member index oneof m), _ =>
    assign p plan ref index (← storedMember p plan index oneof m o c)
  | some (plan, .oneof index oneof), _ =>
    assign p plan ref index (← storedCase p plan index oneof o c)
  | none, some index => setSlot ref index c
  | none, none =>
    checkSettable name c
    modify (·.updateObject ref fun o => { o with loose := setLoose name c o.loose })

/-! ## The other accessors -/

/-- What an accessor works on. A name that is no accessor may stand for something that cannot be
called, or for a method of all messages that needs more than it is given. -/
def accessorOf (p : Program) (ref : Nat) (a : Accessor) (name : String) :
    Storing (ClassPlan × Attribute) := do
  let o ← object ref
  let full := a.nameOf name
  checkMethod o full
  match p.plan? o.type with
  | none => throw (if full == "has_extension" || full == "clear_extension" then .wrongType
      else .noAttribute)
  | some c =>
    match c.accessor? a name with
    | some found => return (c, found)
    | none =>
      if full == "has_extension" || full == "clear_extension" then throw .wrongType
      let _ ← getAttribute p ref full
      throw .wrongType

/-- Tells whether a field is set; only fields with presence and members of oneofs can tell. -/
def hasAttribute (p : Program) (ref : Nat) (name : String) : Storing Bool := do
  match ← accessorOf p ref .has name with
  | (c, .field index _) => return (← readSlot p c ref index).isPresent
  | (c, .member index _ m) => return (← activeCase? m (← readSlot p c ref index)).isSome
  | _ => throw .noAttribute

/-- Clears a field or oneof; members of oneofs and scalars without presence cannot be cleared. -/
def clearAttribute (p : Program) (ref : Nat) (name : String) : Storing Unit := do
  match ← accessorOf p ref .clear name with
  | (c, .field index f) =>
    match f.kind with
    | .scalar _ _ _ | .message _ _ => assign p c ref index .none
    | .repeated _ _ | .repeatedMessage _ _ => assign p c ref index (← newList [])
    | .map _ _ _ => assign p c ref index (← newMap [])
  | (c, .oneof index _) => assign p c ref index .none
  | _ => throw .noAttribute

/-- Gives out a reference to what a field stores. An unset message field is set to a new message. -/
def mutableAttribute (p : Program) (ref : Nat) (name : String) : Storing Cell := do
  match ← accessorOf p ref .mutable name with
  | (c, .field index f) =>
    escape p ref
    let stored ← readSlot p c ref index
    match f.kind with
    | .message _ target =>
      if stored.isPresent then return stored
      let created ← freshOf p target mutableLocals
      match c.place index with
      | .slot i =>
        setSlot ref i created
        return created
      | _ => throw .noAttribute
    | _ => return stored
  | _ => throw .noAttribute

/-- Sets the fields of a new message in order. -/
def setFields (p : Program) (t : TypeId) (ref : Nat) : List (String × Cell) → Storing Unit
  | [] => return
  | (name, c) :: rest => do
    let known := ((p.plan? t).map fun plan =>
      plan.fieldNames.contains name || plan.oneofs.any (·.name == name)).getD false
    if !known then throw (.unknownField (p.className t) name)
    setAttribute p ref name c
    setFields p t ref rest

/-- A new message with some of its fields set. What a constructor calls the new message itself
cannot be given. -/
def construct (p : Program) (t : TypeId) (fields : List (String × Cell)) : Storing Cell := do
  if fields.any fun (name, _) => name == "self" then throw .wrongType
  match ← fresh p t with
  | .message ref =>
    setFields p t ref fields
    return .message ref
  | other => return other

/-! ## Extensions -/

def checkExtension (p : Program) (o : Object) (e : Extension) : Storing Unit := do
  if p.takes o.type "_check_extension" then throw .wrongType
  checkMethod o "_check_extension"
  if o.type != e.extended then throw (.foreignExtension e.name (p.className o.type))

/-- An accessor of a field called `extension` replaces the method of that name, and so may a loose
attribute. -/
def checkAccessor (p : Program) (o : Object) (a : Accessor) : Storing Unit := do
  if ((p.plan? o.type).bind fun c => c.accessor? a "extension").isSome then throw .wrongType
  checkMethod o (a.nameOf "extension")

/-- The fault of calling a method that what a cell holds does not have. What it may have under the
name cannot be called. -/
def uncallable (c : Cell) (name : String) : Storing Fault := do
  match c with
  | .case ref => return if (← caseObject ref).replaces name then .wrongType else .noAttribute
  | .message ref => return if (← object ref).replaces name then .wrongType else .noAttribute
  | _ => return .noAttribute

/-- The extensions that an object has. Nothing that it was given in their place has the methods of a
set of extensions. -/
def extensionsOf (p : Program) (o : Object) (method : String) :
    Storing (List (Extension × Cell)) := do
  match extendedOf p o with
  | .usual extensions => return extensions
  | .replaced given => throw (← uncallable given method)
  | .missing => throw .noAttribute

/-- The value of an extension that is not set. -/
def extensionDefault (p : Program) (e : Extension) : Storing Cell :=
  if e.repeated then newList []
  else
    match e.messageType with
    | some t => fresh p t
    | none => return .scalar e.type.default

/-- The value of an extension. A map in place of the extensions has none under an extension. -/
def getExtension (p : Program) (ref : Nat) (e : Extension) : Storing Cell := do
  let o ← object ref
  checkMethod o "get_extension"
  checkExtension p o e
  match extendedOf p o with
  | .replaced (.map _) | .replaced (.frozen _) => return .none
  | _ =>
    let extensions ← extensionsOf p o "get"
    let stored := ((extensions.find? fun (e', _) => e'.number == e.number).map (·.2)).getD .none
    if stored.isPresent then copyStored p stored else extensionDefault p e

/-- Is a number of an extension set? -/
def hasExtension (p : Program) (ref : Nat) (e : Extension) : Storing Bool := do
  let o ← object ref
  checkAccessor p o .has
  checkExtension p o e
  return (← extensionsOf p o "has").any fun (e', _) => e'.number == e.number

/-- Stores the value of an extension. A number that is there keeps its place. -/
def putExtension (e : Extension) (c : Cell) :
    List (Extension × Cell) → List (Extension × Cell)
  | [] => [(e, c)]
  | (e', c') :: rest =>
    if e'.number == e.number then (e, c) :: rest else (e', c') :: putExtension e c rest

def setExtension (p : Program) (ref : Nat) (e : Extension) (c : Cell) : Storing Unit := do
  let o ← object ref
  checkMethod o "set_extension"
  checkExtension p o e
  let _ ← extensionsOf p o "set"
  let value ← if e.repeated then newList (← elements c) else pure c
  let copied ← copyStored p value
  let mark ← newMark
  modify (·.updateObject ref fun o =>
    { o with
      extensions := putExtension e copied o.extensions
      marks := (e.number, mark) :: o.marks.filter fun (number, _) => number != e.number })

/-- Clears an extension. A list or map in place of the extensions can only be cleared as a whole. -/
def clearExtension (p : Program) (ref : Nat) (e : Extension) : Storing Unit := do
  let o ← object ref
  checkAccessor p o .clear
  checkExtension p o e
  match extendedOf p o with
  | .replaced (.list _) | .replaced (.map _) => throw .wrongType
  | _ =>
    let extensions := (← extensionsOf p o "clear").filter fun (e', _) => e'.number != e.number
    modify (·.updateObject ref fun o => { o with extensions })

end Storing

end Missive
