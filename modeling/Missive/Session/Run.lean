import Missive.Session.Step
import Missive.Store.Case
import Missive.Store.Collect

/-!
# Sessions

A session holds a store and names for what is in it: registers for values, and separate names for
extensions and tables of extensions. A step that fails leaves the registers as they were, but what
it did to the store before the fault stays.

Objects that no register leads to die before the answer to a step is given, also those that the step
itself made as an argument.
-/

namespace Missive

open Plan

/-- A store, and names for what is in it. -/
structure Session where
  store : Store := {}
  registers : List (String × Cell) := []
  extensions : List (String × Extension) := []
  tables : List (String × ExtensionTable) := []
  log : List Log.Record := []

namespace Session

abbrev Acting := EStateM Fault Session

def storing {α : Type} (action : Storing α) : Acting α := fun s =>
  match action s.store with
  | .ok a store => .ok a { s with store }
  | .error e store => .error e { s with store }

/-! ## Names -/

def named {α : Type} (entries : List (String × α)) (name : String) : Acting α :=
  match entries.lookup name with
  | some a => return a
  | none => throw .missingKey

def rename {α : Type} (name : String) (a : α) (entries : List (String × α)) : List (String × α) :=
  (entries.filter fun (n, _) => n != name) ++ [(name, a)]

def cell (register : String) : Acting Cell := do named (← get).registers register

def bindRegister (register : String) (c : Cell) : Acting Unit :=
  modify fun s => { s with registers := rename register c s.registers }

def receiver (register method : String) : Acting Nat := do
  match ← cell register with
  | .message ref => return ref
  | c => throw (← storing (Storing.uncallable c method))

def typeOf (p : Program) (type : String) : Acting TypeId :=
  storing (Storing.ofExcept (p.typeOf type))

def oneofOf (p : Program) (t : TypeId) (declared : String) : Acting (Nat × OneofPlan) :=
  match (p.plan? t).bind fun c => (c.oneofsNamed declared).head? with
  | some o => return o
  | none => throw .missingKey

def extension (name : String) : Acting Extension := do named (← get).extensions name

def table (name : Option String) : Acting (Option ExtensionTable) := do
  match name with
  | none => return none
  | some n => return some (← named (← get).tables n)

/-! ## Expressions -/

mutual

def eval (p : Program) : Expr → Acting Cell
  | .scalar s => return .scalar s
  | .list items => do storing (Storing.newList (← evalList p items))
  | .map entries => do storing (Storing.newMap (← evalEntries p [] entries))
  | .register name => cell name
  | .new type fields => do
    let t ← typeOf p type
    let cells ← evalFields p [] fields
    storing (Storing.construct p t cells)
  | .case type oneof number value => do
    let t ← typeOf p type
    let (slot, _) ← oneofOf p t oneof
    let c ← eval p value
    storing (Storing.newCase p t slot (.int number) c)

def evalList (p : Program) : List Expr → Acting (List Cell)
  | [] => return []
  | e :: rest => do
    let c ← eval p e
    return c :: (← evalList p rest)

/-- Adds the entries of a map. -/
def evalEntries (p : Program) (entries : List (Key × Cell)) :
    List (Expr × Expr) → Acting (List (Key × Cell))
  | [] => return entries
  | (key, value) :: rest => do
    let k ← eval p key
    let c ← eval p value
    evalEntries p (putEntry (← storing (Storing.asKey k)) c entries) rest

/-- Adds the fields of a new message. A field that is given again keeps its place. -/
def evalFields (p : Program) (fields : List (String × Cell)) :
    List (String × Expr) → Acting (List (String × Cell))
  | [] => return fields
  | (name, value) :: rest => do
    let c ← eval p value
    let fields :=
      if fields.any fun (n, _) => n == name then
        fields.map fun (n, old) => if n == name then (n, c) else (n, old)
      else fields ++ [(name, c)]
    evalFields p fields rest

end

/-! ## Answers -/

def settle (p : Program) (temporaries : List Cell) : Acting Unit :=
  modify fun s =>
    { s with store := s.store.collect p (s.registers.map (·.2) ++ temporaries) }

/-- The value of an argument. What was only needed to make it is gone. -/
def argument (p : Program) (e : Expr) : Acting Cell := do
  let c ← eval p e
  settle p [c]
  return c

def shownOf (p : Program) (c : Cell) : Acting Shown := do
  let v ← storing (Storing.written p c)
  storing (Storing.ofExcept (p.show v))

/-- What a message has for a storage. -/
inductive Held where
  | storage (ref : Nat)
  /-- Something that it was given, or the absent value. -/
  | given (c : Cell)

/-- What a message has for a storage. -/
def heldBy (ref : Nat) : Acting Held := do
  let o ← storing (Storing.object ref)
  match o.loose.lookup storageName, Store.storageOf? o with
  | some c, _ => return .given c
  | none, some storage => return .storage storage
  | none, none => return .given .none

def stateOf (p : Program) (c : Cell) : Acting State := do
  let value ← shownOf p c
  match c with
  | .message ref =>
    let o ← storing (Storing.object ref)
    match ← heldBy ref, p.plan? o.type with
    | .storage ref, some plan =>
      let storage ← storing (Storing.storage ref)
      return { value, owners := some (← shownOf p (storage.owners plan))
               escaped := some (← shownOf p (storage.escaped plan)) }
    | .given (.scalar .none), _ => return { value }
    | .given c, _ => throw (← storing (Storing.uncallable c "owners"))
    | _, none => return { value }
  | _ => return { value }

def storageIn (register : String) : Acting Held := do
  match ← cell register with
  | .message ref => heldBy ref
  | .case ref =>
    match (← storing (Storing.caseObject ref)).loose.lookup storageName with
    | some c => return .given c
    | none => throw .noAttribute
  | _ => throw .noAttribute

def answerState (p : Program) (c : Cell) : Acting Answer := do
  settle p []
  return .state (← stateOf p c)

def answerValue (p : Program) (c : Cell) : Acting Answer := do
  settle p [c]
  return .value (← shownOf p c)

def answerBound (p : Program) (target : String) (c : Cell) : Acting Answer := do
  bindRegister target c
  answerState p c

def dump (p : Program) : Acting (List (String × State)) := do
  let registers := (← get).registers.mergeSort fun a b => decide (a.1 ≤ b.1)
  registers.mapM fun (name, c) => do return (name, ← stateOf p c)

def answerTable (t : ExtensionTable) : Answer := .table (t.map (·.name))

/-! ## Attributes -/

/-- An attribute of a message or of a case. -/
def attributeOf (p : Program) (c : Cell) (name : String) : Acting Cell :=
  match c with
  | .message ref => storing (Storing.getAttribute p ref name)
  | .case ref => storing (Storing.getCaseAttribute p ref name)
  | _ => throw .noAttribute

def setAttributeOf (p : Program) (c : Cell) (name : String) (value : Cell) : Acting Unit :=
  match c with
  | .message ref => storing (Storing.setAttribute p ref name value)
  | .case ref => storing (Storing.setCaseAttribute ref name value)
  | _ => throw .noAttribute

def classFacts (p : Program) (t : TypeId) : ClassFacts :=
  match p.plan? t with
  | none =>
    { className := p.className t, fullName := p.fullName t, proto3 := false, extensible := false
      ranges := [], fields := [], oneofs := [], indirected := false, checks := true
      moduleName := p.baseModule }
  | some c =>
    { className := c.name, fullName := c.fullName, proto3 := c.proto3, extensible := c.isExtensible
      ranges := c.ranges.list, fields := c.fieldNames, oneofs := c.oneofs.map (·.name)
      indirected := c.isIndirected, checks := c.hasCheck
      moduleName := ((p.moduleOf? t).map (·.name)).getD "" }

/-! ## Extensions -/

/-- Declares an extension. A message extension needs a class, and the number has to lie in an
extension range of the extended class. -/
def declare (p : Program) (d : ExtensionDecl) : Acting Extension := do
  let extended ← typeOf p d.extended
  let messageType ← d.messageType.mapM (typeOf p)
  if (d.type == .message || d.type == .group) && messageType.isNone then
    throw (.extensionNeedsClass d.fieldName)
  if !((p.plan? extended).map (·.ranges.contains d.number)).getD false then
    throw (.extensionOutside d.fieldName d.number (p.className extended))
  return { number := d.number, name := d.fieldName, extended, type := d.type
           repeated := d.repeated, packed := d.packed, messageType }

/-- Adds an extension to a table. Two different extensions cannot share a number of a class. -/
def addToTable (p : Program) (t : ExtensionTable) (e : Extension) : Acting ExtensionTable := do
  match t.find? e.extended e.number with
  | some existing =>
    if existing != e then
      throw (.extensionTaken e.number (p.className e.extended) existing.name)
  | none => pure ()
  let text := "Registered extension " ++ e.name ++ " (" ++ toString e.number ++ ") of "
    ++ p.className e.extended
  modify fun s => { s with log := s.log ++ [⟨.debug, text⟩] }
  return if (t.find? e.extended e.number).isSome then t else t ++ [e]

/-- The extensions of what a register holds, or what stands in their place. -/
def extendedOf (p : Program) (register : String) : Acting (Extended Cell) := do
  match ← cell register with
  | .message ref =>
    let o ← storing (Storing.object ref)
    match Storing.extendedOf p o with
    | .missing => throw (((p.plan? o.type).map (·.missing)).getD .noAttribute)
    | extended => return extended
  | .case ref =>
    match (← storing (Storing.caseObject ref)).loose.lookup extensionsName with
    | some given => return .replaced given
    | none => throw .noAttribute
  | _ => throw .noAttribute

/-! ## Unknown fields -/

/-- What stands in place of the unknown fields of what a register holds, if something does. -/
def givenUnknown? (c : Cell) : Acting (Option Cell) := do
  match c with
  | .message ref => return (← storing (Storing.object ref)).loose.lookup unknownName
  | .case ref =>
    match (← storing (Storing.caseObject ref)).loose.lookup unknownName with
    | some given => return some given
    | none => throw .noAttribute
  | _ => throw .noAttribute

/-- The unknown fields of a cell that may be a message. -/
def unknownOf (p : Program) (c : Cell) : Acting Bytes := do
  match ← givenUnknown? c, c with
  | some given, _ =>
    match ← attributeOf p given "data" with
    | .scalar (.bytes data) => return data
    | _ => throw .noAttribute
  | none, .message ref => return (← storing (Storing.object ref)).unknown
  | none, _ => throw .noAttribute

/-- Changes the unknown fields of a cell, or does something to what stands in their place. -/
def updateUnknown (p : Program) (register : String) (f : Bytes → Bytes)
    (replaced : Cell → Storing Unit) : Acting Answer := do
  let c ← cell register
  match ← givenUnknown? c, c with
  | some given, _ => storing (replaced given)
  | none, .message ref =>
    storing (modify fun s =>
      { s with objects := s.objects.modify ref fun o => { o with unknown := f o.unknown } })
  | none, _ => throw .noAttribute
  answerState p c

/-- Decodes a case for each of some oneofs in turn, into the case that the one before left. The
first oneof starts with what the target holds. -/
def decodeInto (p : Program) (plan : ClassPlan) (target : String) (number : Int) (data : Bytes) :
    List (Nat × OneofPlan) → Acting Unit
  | [] => return
  | (slot, o) :: rest => do
    let current := ((← get).registers.lookup target).getD .none
    bindRegister target (← storing (Storing.decodeCase p plan slot o number current data))
    decodeInto p plan target number data rest

/-! ## Steps -/

def perform (p : Program) : Step → Acting Answer
  | .new target type fields => do
    let t ← typeOf p type
    let cells ← evalFields p [] fields
    settle p (cells.map (·.2))
    answerBound p target (← storing (Storing.construct p t cells))
  | .parse target type data tableName allowIncomplete => do
    let t ← typeOf p type
    let extensions ← table tableName
    answerBound p target (← storing (Storing.parse p extensions t data allowIncomplete))
  | .merge register data tableName => do
    let ref ← receiver register "merge_from_bytes"
    let extensions ← table tableName
    storing (Storing.merge p extensions (.message ref) data)
    answerState p (.message ref)
  | .serialize register allowIncomplete => do
    let ref ← receiver register "serialize"
    let o ← storing (Storing.object ref)
    storing (Storing.checkMethod o "serialize")
    if !allowIncomplete then
      let v ← storing (Storing.view (.message ref))
      if !(← storing (Storing.ofExcept (p.isComplete v))) then
        let name ← storing (Storing.getAttribute p ref fullNameName)
        throw (.incomplete (← storing (Storing.display p name)))
    return .data (← storing (Storing.serialize p (.message ref)))
  | .bind target value => do answerBound p target (← argument p value)
  | .copy target register => do
    answerBound p target (← storing (Storing.copy p (← cell register)))
  | .deepCopy target register => do
    answerBound p target (← storing (Storing.deepCopy p (← cell register)))
  | .drop register => do
    let _ ← cell register
    modify fun s => { s with registers := s.registers.filter fun (n, _) => n != register }
    settle p []
    return .nothing
  | .state register => do answerState p (← cell register)
  | .dump => do return .states (← dump p)
  | .get register field => do answerValue p (← attributeOf p (← cell register) field)
  | .getInto target register field => do
    answerBound p target (← attributeOf p (← cell register) field)
  | .set register field value => do
    let target ← cell register
    setAttributeOf p target field (← argument p value)
    answerState p target
  | .has register field => do
    let ref ← receiver register (Accessor.nameOf .has field)
    return .flag (← storing (Storing.hasAttribute p ref field))
  | .clear register field => do
    let ref ← receiver register (Accessor.nameOf .clear field)
    storing (Storing.clearAttribute p ref field)
    answerState p (.message ref)
  | .mutable target register field => do
    let ref ← receiver register (Accessor.nameOf .mutable field)
    answerBound p target (← storing (Storing.mutableAttribute p ref field))
  | .append register value => do
    let container ← cell register
    storing (Storing.checkList container)
    storing (Storing.append container (← argument p value))
    answerValue p container
  | .setItem register key value => do
    let c ← argument p value
    let container ← cell register
    let k ← eval p key
    settle p [c, k]
    storing (Storing.setItem container k c)
    answerValue p container
  | .deleteItem register key => do
    let container ← cell register
    storing (Storing.deleteItem container (← argument p key))
    answerValue p container
  | .item target register key => do
    let container ← cell register
    answerBound p target (← storing (Storing.getItem container (← argument p key)))
  | .equal left right => do
    let (same, different) ← storing (Storing.compare p (← cell left) (← cell right))
    return .comparison same different
  | .sameStorage left right => do
    match ← storageIn left, ← storageIn right with
    | .given (.scalar .none), _ | _, .given (.scalar .none) => return .sharing none
    | .storage a, .storage b => return .sharing (some (a == b))
    | .given a, .given b => return .sharing (some (a.isIdentical b))
    | _, _ => return .sharing (some false)
  | .isComplete register => do
    let v ← storing (Storing.view (.message (← receiver register "is_initialized")))
    return .flag (← storing (Storing.ofExcept (p.isComplete v)))
  | .literal register => do return .text (← storing (Storing.literal p (← cell register)))
  | .trace register => do
    let v ← storing (Storing.written p (← cell register))
    return .events (← storing (Storing.ofExcept (p.eventsOf (p.items v))))
  | .unknown register => do
    return .data (← unknownOf p (← cell register))
  | .appendUnknown register data =>
    updateUnknown p register (· ++ data) fun given => do
      match given with
      | .list _ => Storing.append given (.scalar (.bytes data))
      | _ => throw (← Storing.uncallable given "append")
  | .clearUnknown register =>
    updateUnknown p register (fun _ => []) fun given => do
      match given with
      | .list ref => modify (·.setList ref [])
      | .map ref => modify (·.setMap ref [])
      | _ => throw (← Storing.uncallable given "clear")
  | .hash register => do
    let _ ← cell register
    throw .wrongType
  | .describe type => do return .facts (classFacts p (← typeOf p type))
  | .newCase target type oneof number value => do
    let t ← typeOf p type
    let (slot, _) ← oneofOf p t oneof
    let c ← argument p value
    let made ← storing (Storing.newCase p t slot (.int number) c)
    bindRegister target made
    answerValue p made
  | .decodeCase target type oneof number data => do
    let t ← typeOf p type
    match p.plan? t with
    | some plan => decodeInto p plan target number data (plan.oneofsNamed oneof)
    | none => pure ()
    answerValue p (← cell target)
  | .writeCase register start stop => do
    return .data (← storing (Storing.writeCase p (← cell register) start stop))
  | .declareExtension name d => do
    let e ← declare p d
    modify fun s => { s with extensions := rename name e s.extensions }
    answerValue p (← storing (Storing.extensionDefault p e))
  | .newTable name extensions => do
    let members ← extensions.mapM extension
    let t ← members.foldlM (addToTable p) []
    modify fun s => { s with tables := rename name t s.tables }
    return answerTable t
  | .register name extensionName => do
    let t ← named (← get).tables name
    let t ← addToTable p t (← extension extensionName)
    modify fun s => { s with tables := rename name t s.tables }
    return answerTable t
  | .lookup name type number => do
    let t ← named (← get).tables name
    return .found ((t.find? (← typeOf p type) number).map (·.name))
  | .getExtension register name => do
    let ref ← receiver register "get_extension"
    answerValue p (← storing (Storing.getExtension p ref (← extension name)))
  | .getExtensionInto target register name => do
    let ref ← receiver register "get_extension"
    answerBound p target (← storing (Storing.getExtension p ref (← extension name)))
  | .hasExtension register name => do
    let ref ← receiver register "has_extension"
    return .flag (← storing (Storing.hasExtension p ref (← extension name)))
  | .setExtension register name value => do
    let ref ← receiver register "set_extension"
    let e ← extension name
    storing (Storing.setExtension p ref e (← argument p value))
    answerState p (.message ref)
  | .clearExtension register name => do
    let ref ← receiver register "clear_extension"
    storing (Storing.clearExtension p ref (← extension name))
    answerState p (.message ref)
  | .countExtensions register => do
    match ← extendedOf p register with
    | .usual extensions => return .count extensions.length
    | .replaced given => return .count (← storing (Storing.elements given)).length
    | .missing => throw .noAttribute
  | .equalExtensions register value => do
    let extended ← extendedOf p register
    let c ← argument p value
    match extended with
    | .replaced given => return .flag (← storing (Storing.compare p given c)).1
    | _ => return .flag false
  | .pack register value host => do
    let ref ← receiver register "pack"
    storing (Storing.checkAny p (← storing (Storing.object ref)) "pack")
    storing (Storing.pack p ref (← argument p value) host)
    answerState p (.message ref)
  | .unpack target register type tableName => do
    let ref ← receiver register "unpack"
    storing (Storing.checkAny p (← storing (Storing.object ref)) "unpack")
    let t ← typeOf p type
    let extensions ← table tableName
    answerBound p target (← storing (Storing.unpack p extensions ref t))
  | .holds register type => do
    let ref ← receiver register "is_a"
    storing (Storing.checkAny p (← storing (Storing.object ref)) "is_a")
    return .flag (← storing (Storing.holds p ref (← typeOf p type)))

/-- Does what a step says and keeps the session, whatever comes of it. -/
def step (p : Program) (s : Session) (what : Step) : Except Fault Answer × Session :=
  let p := { p with members := s.store.memberNames }
  match (do settle p []; perform p what : Acting Answer) s with
  | .ok a s => (.ok a, s)
  | .error e s => (.error e, s)

/-- Does steps one after another. -/
def run (p : Program) : Session → List Step → List (Except Fault Answer) × Session
  | s, [] => ([], s)
  | s, what :: rest =>
    let (answer, s) := s.step p what
    let (answers, s) := run p s rest
    (answer :: answers, s)

end Session

end Missive
