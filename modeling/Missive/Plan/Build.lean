import Missive.Naming.Names
import Missive.Naming.Private
import Missive.Plan.Traversal
import Missive.Schema.Default
import Missive.Schema.Required

/-!
# Planning classes

Makes the plans of the classes of a file. An accepted schema may still have defects, such as a
default that is no number; the first one met ends the planning. The order in which facts are asked
for is therefore part of the behaviour, and `planClass` asks for all of them before it puts the plan
together: what the shells of all classes of a file need, then for each class its oneofs, its nested
classes, its initial values, its accessors, its completeness check and its decoder.
-/

namespace Missive.Plan

open Schema Naming

/-- How code is generated. A threshold that is unset is a defect of any schema that needs it. -/
structure Options where
  threshold : Option Int := some Layout.defaultThreshold
  style : ModuleStyle := {}
  runtimePackage : String := "pw_msggen.runtime"

/-- What planning knows: the arena, its names, the options, all files, and the file being planned
with the files it depends on. -/
structure Scene where
  arena : Arena
  names : Names
  options : Options
  files : List String
  file : String
  dependencies : List String

/-- The code that a reference stands in: that of a message's class, or of the class of one of its
oneofs. -/
structure Standpoint where
  owner : TypeId
  className : String

/-- What planning changes: the notes it logs and the answers about required fields. -/
structure Progress where
  notes : List String := []
  memo : RequiredMemo := []

abbrev Planning := EStateM Defect Progress

def ask {α : Type} (fact : Except Defect α) : Planning α :=
  match fact with
  | .ok a => pure a
  | .error d => throw d

def note (text : String) : Planning Unit :=
  modify fun p => { p with notes := p.notes ++ [text] }

namespace Scene

/-! ## References to classes -/

def topClass? (s : Scene) (file name : String) : Option TypeId :=
  (s.arena.topLevelMessages file).find? fun id => (s.names.className id).toOption == some name

def nestedClass? (s : Scene) (id : TypeId) (name : String) : Option TypeId :=
  let outer := (s.names.className id).toOption.getD ""
  (s.arena.nestedMessages id).find? fun c =>
    (s.names.className c).toOption.map (privateName outer) == some name

/-- Has a class a property with a name, where private names are written out? -/
def hasProperty (s : Scene) (id : TypeId) (name : String) : Bool :=
  let outer := (s.names.className id).toOption.getD ""
  match s.names.scope id with
  | .ok scope => (scope.fields ++ scope.oneofs).any fun n => privateName outer n == name
  | .error _ => false

/-- What names inside a class lead to. The constructor of a class and its properties replace nested
classes of their names. -/
def classMeaning (s : Scene) : TypeId → List String → Meaning
  | id, [] => .type id
  | id, name :: rest =>
    if name == "__init__" || s.hasProperty id name then
      if rest.isEmpty then .other .hashable else .fault .noAttribute
    else
      match s.nestedClass? id name with
      | some c => s.classMeaning c rest
      | none => .fault .noAttribute

/-- The file whose module is found where that of a file is written: of several the last one. -/
def moduleFile (s : Scene) (file : String) : String :=
  let name := s.options.style.moduleName file
  ((s.files.filter fun f => s.options.style.moduleName f == name).getLast?).getD file

def moduleMeaning (s : Scene) (file : String) : List String → Meaning
  | [] => .other .hashable
  | name :: rest =>
    match s.topClass? file name with
    | some id => s.classMeaning id rest
    | none => .fault .noAttribute

/-- What names in the file being planned lead to: one of its own classes, or else the last module
imported under the first name. -/
def outsideMeaning (s : Scene) : List String → Meaning
  | [] => .fault .unboundName
  | first :: rest =>
    match s.topClass? s.file first with
    | some id => s.classMeaning id rest
    | none =>
      let bound := s.dependencies.filter fun d => s.options.style.moduleAlias d == first
      match bound.getLast? with
      | some d => s.moduleMeaning (s.moduleFile d) rest
      | none => .fault .unboundName

def classRef (s : Scene) (here : Standpoint) (id : TypeId) : Except Defect ClassRef := do
  let text ← s.names.reference s.arena s.options.style id s.file
  let path := (Text.split '.' text).map (privateName here.className)
  return { target := id, text, path, outside := s.outsideMeaning path
           inside := s.classMeaning here.owner path.tail }

def fieldRef (s : Scene) (here : Standpoint) (f : Field) : Except Defect ClassRef := do
  s.classRef here (← s.arena.messageType f).1

def valueRef (s : Scene) (here : Standpoint) (f : Field) : Except Defect (Option ClassRef) := do
  let value ← s.arena.valueField f
  if (← s.arena.classify value) == .message then return some (← s.fieldRef here value)
  return none

/-! ## Kinds of fields -/

def fieldKind (s : Scene) (here : Standpoint) (m : Message) (f : Field) :
    Except Defect FieldKind := do
  match ← s.arena.classify f with
  | .map =>
    return .map (← s.arena.keyField f).type (← s.arena.valueField f).type (← s.valueRef here f)
  | .group =>
    if f.isRepeated then return .repeatedMessage true (← s.fieldRef here f)
    else return .message true (← s.fieldRef here f)
  | .message =>
    if f.isRepeated then return .repeatedMessage false (← s.fieldRef here f)
    else return .message false (← s.fieldRef here f)
  | .scalar =>
    if f.isRepeated then return .repeated f.type (f.isPacked m)
    else return .scalar f.type (f.hasPresence m) (← s.arena.defaultOf f)

def memberKind (s : Scene) (here : Standpoint) (oneofClass : String) (f : Field) :
    Except Defect MemberKind := do
  let inside : Standpoint := { here with className := oneofClass }
  match ← s.arena.classify f with
  | .map => return .entry (← s.fieldRef here f)
  | .group => return .message true (← s.fieldRef here f) (← s.fieldRef inside f)
  | .message => return .message false (← s.fieldRef here f) (← s.fieldRef inside f)
  | .scalar => return .scalar f.type (← s.arena.defaultOf f)

end Scene

/-! ## The shells of classes -/

/-- A class before its plan is made: the message, its layout and its nested classes. -/
inductive Shell where
  | mk (id : Nat) (message : Message) (layout : Layout) (nested : List Shell)

/-- The shell of a message and of what is nested in it, for as many levels as there are turns. The
classes of the fields that are in no oneof have to be known for it. -/
def shell (s : Scene) : (turns : Nat) → Nat → Planning Shell
  | 0, _ => throw .unnamed
  | turns + 1, id => do
    match s.arena.message? id with
    | none => throw .notMessage
    | some m =>
      let layout ← ask (Layout.choose? m.fields (s.arena.isAny id) s.options.threshold)
      for f in m.fields do
        if (m.oneofOf f).isNone then let _ ← ask (s.arena.classify f)
      let nested ← (s.arena.nestedMessages id).mapM (shell s turns)
      note ("Message " ++ s.arena.path id ++ " uses " ++ layout.name ++ " storage")
      return .mk id m layout nested

/-! ## What a plan is asked for -/

def plainFields (m : Message) : List Field := m.fields.filter fun f => (m.oneofOf f).isNone

def leadsToRequired (s : Scene) (f : Field) : Planning Bool := do
  match s.arena.typeMessage? f with
  | none => return false
  | some id =>
    let p ← get
    let (answer, memo) := hasRequired s.arena id p.memo
    set { p with memo }
    return answer

/-- The classes of oneofs: members in order of their numbers. -/
def askOneofs (s : Scene) (here : Standpoint) (m : Message) : Planning Unit := do
  for o in m.oneofs do
    for f in sortFields o.members do
      match ← ask (s.arena.classify f) with
      | .message | .group => let _ ← ask (s.fieldRef here f)
      | _ => pure ()

def askInitials (s : Scene) (id : Nat) (m : Message) : Planning Unit := do
  if !s.arena.isAny id then
    for f in plainFields m do
      if !f.isMessage && !f.isRepeated && !f.hasPresence m then let _ ← ask (s.arena.defaultOf f)

def askAccessors (s : Scene) (here : Standpoint) (m : Message) : Planning Unit := do
  for f in m.fields do
    if (m.oneofOf f).isSome then
      if f.isMessage then let _ ← ask (s.fieldRef here f)
      else let _ ← ask (s.arena.defaultOf f)
    else
      match ← ask (s.arena.classify f) with
      | .map => pure ()
      | .scalar => if f.hasPresence m then let _ ← ask (s.arena.defaultOf f)
      | _ => let _ ← ask (s.fieldRef here f)

/-- The check that belongs to a message field that leads to required fields. -/
def nestedCheck (s : Scene) (slot : Int → Nat) (f : Field) :
    Planning (Option Check) := do
  if !f.isMessage then return none
  if !(← leadsToRequired s f) then return none
  match ← ask (s.arena.classify f) with
  | .map =>
    if (← ask (s.arena.valueField f)).isMessage then return some (.eachValue (slot f.number))
    else return none
  | _ =>
    if f.isRepeated then return some (.each (slot f.number))
    else return some (.nested (slot f.number))

def oneofCheck (s : Scene) (slot : Nat → Nat) (o : Oneof) : Planning (Option Check) := do
  let members ← o.members.filterM fun f => do
    if f.isMessage then leadsToRequired s f else return false
  if members.isEmpty then return none
  return some (.active (slot o.index) (members.map (·.number)))

/-- The completeness check: required fields, then message fields, then oneofs. -/
def planChecks (s : Scene) (m : Message) (fieldSlot : Int → Nat) (oneofSlot : Nat → Nat) :
    Planning (List Check) := do
  let plain := plainFields m
  let required := if m.proto3 then [] else plain.filter (·.isRequired)
  let nested ← plain.filterMapM (nestedCheck s fieldSlot)
  let active ← m.oneofs.filterMapM (oneofCheck s oneofSlot)
  return required.map (fun f => .set (fieldSlot f.number)) ++ nested ++ active

/-- The decoder: the values and keys of maps, in order of the numbers of the fields. -/
def askDecoder (s : Scene) (here : Standpoint) (m : Message) : Planning Unit := do
  for f in sortFields (plainFields m) do
    if (← ask (s.arena.classify f)) == .map then
      let _ ← ask (s.valueRef here f)
      let _ ← ask (s.arena.keyField f)

/-! ## Slots -/

/-- What a slot is for: a field by its number, or a oneof by its position. -/
inductive SlotKey where
  | field (number : Int)
  | oneof (index : Nat)
  deriving DecidableEq

def slotKey (m : Message) (f : Field) : SlotKey :=
  match m.oneofOf f with
  | none => .field f.number
  | some o => .oneof o.index

def slotKeys (m : Message) : List SlotKey :=
  m.fields.foldl (fun keys f => let key := slotKey m f; if keys.contains key then keys else keys ++ [key]) []

def slotIndex (m : Message) (key : SlotKey) : Nat := (slotKeys m).idxOf key

/-- The cases of the decoder by number; a oneof stands at its smallest number. -/
def dispatchCases (m : Message) : List (Pattern × Nat) :=
  let keys := m.sorted.foldl
    (fun keys f => let key := slotKey m f; if keys.contains key then keys else keys ++ [key]) []
  keys.filterMap fun key =>
    let numbers :=
      match key with
      | .field number => [number]
      | .oneof index => ((m.oneofs.find? (·.index == index)).map (·.numbers)).getD []
    (Pattern.ofNumbers? numbers).map fun pattern => (pattern, slotIndex m key)

/-! ## Plans -/

def nameAt (names : List String) (index : Nat) : String := names.getD index ""

def planOneof (s : Scene) (here : Standpoint) (m : Message) (names : ScopeNames) (position : Nat)
    (o : Oneof) : Except Defect OneofPlan := do
  let className := nameAt names.oneofClasses position
  let members ← (m.fields.zip names.fields).filterMapM fun (f, name) => do
    if f.oneof == some o.index then
      return some { name, number := f.number, kind := ← s.memberKind here className f : MemberPlan }
    else return none
  return { name := nameAt names.oneofs position, declared := o.name,
           className, storageName := nameAt names.oneofStorage position, members }

def planField (s : Scene) (here : Standpoint) (m : Message) (names : ScopeNames) (position : Nat)
    (f : Field) : Except Defect FieldPlan := do
  return { name := nameAt names.fields position, storageName := nameAt names.fieldStorage position,
           number := f.number, kind := ← s.fieldKind here m f }

/-- How a class presents a declared field, given the plans of its oneofs. -/
def planDeclaredField (s : Scene) (here : Standpoint) (m : Message) (names : ScopeNames)
    (oneofs : List (Nat × OneofPlan)) (f : Field) (position : Nat) :
    Except Defect (Option Declared) := do
  match m.oneofOf f with
  | none =>
    return some (.field (slotIndex m (.field f.number)) (← planField s here m names position f))
  | some o =>
    match oneofs.lookup o.index with
    | none => return none
    | some plan =>
      let first := (o.members.head?.map (·.number)) == some f.number
      return (plan.member? f.number).map fun member =>
        .member (slotIndex m (.oneof o.index)) plan member first

def planDeclared (s : Scene) (here : Standpoint) (m : Message) (names : ScopeNames)
    (oneofs : List (Nat × OneofPlan)) : Except Defect (List Declared) :=
  m.fields.zipIdx.filterMapM fun (f, position) =>
    planDeclaredField s here m names oneofs f position

def slotsOf (declared : List Declared) : List SlotPlan :=
  declared.filterMap fun
    | .field _ f => some (.field f)
    | .member _ o _ first => if first then some (.oneof o) else none

mutual

def planClass (s : Scene) : Shell → Planning ClassPlan
  | .mk id m layout nestedShells => do
    let name ← ask (s.names.className id)
    let names ← ask (s.names.scope id)
    let here : Standpoint := { owner := id, className := name }
    askOneofs s here m
    let nested ← planClasses s nestedShells
    askInitials s id m
    askAccessors s here m
    let fieldSlot := fun number => slotIndex m (.field number)
    let oneofSlot := fun index => slotIndex m (.oneof index)
    let checks ← planChecks s m fieldSlot oneofSlot
    askDecoder s here m
    let oneofs ← ask <| m.oneofs.zipIdx.mapM fun (o, position) => do
      return (o.index, ← planOneof s here m names position o)
    let declared ← ask (planDeclared s here m names oneofs)
    return { id, name, qualifiedName := ← ask (s.names.qualifiedName s.arena id),
             fullName := s.arena.path id, own := ← ask (s.classRef here id),
             neighbours := (s.arena.topLevelMessages s.file).filterMap fun c =>
               (s.names.className c).toOption,
             proto3 := m.proto3, isAny := s.arena.isAny id, layout,
             ranges := m.ranges, fieldNames := names.fields, oneofs := oneofs.map (·.2),
             slots := slotsOf declared, declared, cases := dispatchCases m,
             visits := visits m fieldSlot oneofSlot, checks, nested }

def planClasses (s : Scene) : List Shell → Planning (List ClassPlan)
  | [] => return []
  | shell :: rest => do
    let plan ← planClass s shell
    return plan :: (← planClasses s rest)

end

/-- The plan of a file's module, among the modules of some files. Each class of the file is planned
before the next one's shell is made. -/
def planModule (a : Arena) (names : Names) (options : Options) (files : List String)
    (file : FileDecl) : Planning ModulePlan := do
  let s : Scene :=
    { arena := a, names, options, files, file := file.name, dependencies := file.dependencies }
  let classes ← (a.topLevelMessages file.name).mapM fun id => do
    planClass s (← shell s (a.nodes.length + 1) id)
  let style := options.style
  return { file := file.name, name := style.moduleName file.name,
           path := style.modulePath file.name,
           imports := file.dependencies.map fun d => (style.moduleName d, style.moduleAlias d),
           classes }

end Missive.Plan
