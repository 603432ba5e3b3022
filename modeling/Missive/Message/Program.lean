import Missive.Compile
import Missive.Plan.Attribute

/-!
# Programs

A program is what the generated classes of a set of files amount to: the plan of every class, found
by the position of its message in the arena. One more class, without a plan, is the abstract one
that all message classes extend.

The class of a oneof keeps a map with the names of its members, which can be changed while the
program runs; `members` holds the maps that were given out, as they are.
-/

namespace Missive

open Schema Plan

/-- The classes of a set of files. -/
structure Program where
  arena : Arena
  modules : List ModulePlan
  classes : List (TypeId × ClassPlan)
  options : Plan.Options := {}
  members : List ((TypeId × Nat) × List (Key × Value)) := []

/-- Why there is no program for some files. -/
inductive ProgramFault where
  | refused (r : Refusal)
  | defect (d : Defect)

namespace Program

def ofModules (arena : Arena) (modules : List ModulePlan) (options : Plan.Options) : Program :=
  let classes := modules.flatMap fun m => flattenList m.classes
  { arena, modules, classes := classes.map fun c => (c.id, c), options }

def planAll : Compilation → List FileDecl → Except Defect (List ModulePlan)
  | _, [] => .ok []
  | c, file :: rest => do
    let (planned, _, c) := c.plan file
    let m ← planned
    return m :: (← planAll c rest)

def build (files : List FileDecl) (options : Plan.Options) : Except ProgramFault Program :=
  match Arena.build files with
  | .error r => .error (.refused r)
  | .ok arena =>
    match planAll (Compilation.start arena options (files.map (·.name))) files with
    | .error d => .error (.defect d)
    | .ok modules => .ok (ofModules arena modules options)

def empty : Program := { arena := ⟨[]⟩, modules := [], classes := [] }

def baseType (p : Program) : TypeId := p.arena.nodes.length

/-- The plan of a class; the abstract class has none. -/
def plan? (p : Program) (t : TypeId) : Option ClassPlan := p.classes.lookup t

def className (p : Program) (t : TypeId) : String := ((p.plan? t).map (·.name)).getD "Message"

def moduleOf? (p : Program) (t : TypeId) : Option ModulePlan :=
  p.modules.find? fun m => (flattenList m.classes).any (·.id == t)

def baseModule (p : Program) : String := p.options.runtimePackage ++ ".message"

def fullName (p : Program) (t : TypeId) : String := ((p.plan? t).map (·.fullName)).getD ""

/-- The class at a path of names inside a class. -/
def classAt? : ClassPlan → List String → Option ClassPlan
  | c, [] => some c
  | c, name :: rest =>
    match c.nested.find? fun n => Naming.privateName c.name n.name == name with
    | some n => classAt? n rest
    | none => none

def ModulePlan.classAt? (m : ModulePlan) : List String → Option ClassPlan
  | [] => none
  | name :: rest =>
    match m.classes.find? fun c => c.name == name with
    | some c => Program.classAt? c rest
    | none => none

/-- The class of a full name, looked up by its path in the module of its file. Of several messages
with one name the last one counts, and so does the last of several modules. -/
def typeOf (p : Program) (name : String) : Except Fault TypeId :=
  if name == "<Message>" then .ok p.baseType
  else
    match p.classes.reverse.find? fun (_, c) => c.fullName == name with
    | none => .error .missingKey
    | some (t, c) =>
      let written := ((p.moduleOf? t).map (·.name)).getD ""
      let found := (p.modules.reverse.find? (·.name == written)).bind fun m =>
        ModulePlan.classAt? m (Text.split '.' c.qualifiedName)
      match found with
      | some c => .ok c.id
      | none => .error .noAttribute

def oneof? (p : Program) (tag : CaseTag) : Option OneofPlan :=
  match (p.plan? tag.owner).bind fun c => c.slots[tag.slot]? with
  | some (.oneof o) => some o
  | _ => none

def memberNames (p : Program) (tag : CaseTag) : List (Key × Value) :=
  match p.members.lookup (tag.owner, tag.slot) with
  | some names => names
  | none => ((p.oneof? tag).map (·.memberNames)).getD []

/-- The name of the member that a case holds, according to its class or to a loose attribute.
Nothing with parts is the number of a member. -/
def memberName (p : Program) (tag : CaseTag) (loose : List (String × Value)) :
    Except Fault Value :=
  match loose.lookup numberName with
  | some number => .error (if number.isKey then .missingKey else .wrongType)
  | none => ((loose.lookup membersName).getD (.map false (p.memberNames tag))).item tag.number

/-- A case can be made only for a member of its oneof. -/
def checkMember (p : Program) (tag : CaseTag) : Except Fault Unit :=
  if (atKey? (.scalar tag.number) (p.memberNames tag)).isSome then .ok ()
  else .error (.notMember tag.number.display (((p.oneof? tag).map (·.declared)).getD ""))

def freshSlots (p : Program) (t : TypeId) : List Value :=
  ((p.plan? t).map (·.freshSlots)).getD []

def takes (p : Program) (t : TypeId) (name : String) : Bool :=
  ((p.plan? t).map (·.takes name)).getD false

def fresh (p : Program) (t : TypeId) : Except Fault Value :=
  match (p.plan? t).bind (·.birthFault?) with
  | some f => .error f
  | none => .ok (.message { type := t } (p.freshSlots t) [] [])

end Program

end Missive
