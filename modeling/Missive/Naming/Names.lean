import Missive.Naming.Module
import Missive.Naming.Scope
import Missive.Schema.Arena

/-!
# The names of an arena

Every message that can be reached from the top level of its file gets the name of its class and the
names inside its class body. Map entries have no class, and neither has a message that another one
of the same name replaced.
-/

namespace Missive.Naming

open Schema

/-- The names given to the messages of an arena, by position. -/
structure Names where
  classes : List (Nat × String) := []
  scopes : List (Nat × ScopeNames) := []

/-- What is declared in the body of a message class. -/
def scopeDecl (a : Arena) (id : Nat) : ScopeDecl :=
  match a.message? id with
  | none => ⟨[], [], []⟩
  | some m =>
    { fields := m.fields.map (·.name)
      oneofs := m.oneofs.map (·.name)
      nested := (a.nestedMessages id).map fun c => ((a.node? c).map (·.name)).getD "" }

def messageNames (a : Arena) (id : Nat) : Names :=
  let scope := nameScope (scopeDecl a id)
  ⟨(a.nestedMessages id).zip scope.nested, [(id, scope)]⟩

def fileNames (a : Arena) (file : String) : Names :=
  let top := a.topLevelMessages file
  let names := top.map fun id => ((a.node? id).map (·.name)).getD ""
  let (given, _) := assignAll reservedModuleNames [] names
  let inner := (top.flatMap a.subtree).filter fun id => (a.message? id).isSome
  let scopes := inner.map (messageNames a)
  ⟨top.zip given ++ scopes.flatMap (·.classes), scopes.flatMap (·.scopes)⟩

def names (a : Arena) : Names :=
  let files := (a.nodes.map (·.file)).eraseDups
  let all := files.map (fileNames a)
  ⟨all.flatMap (·.classes), all.flatMap (·.scopes)⟩

namespace Names

def className (n : Names) (id : Nat) : Except Defect String :=
  match n.classes.lookup id with
  | some name => .ok name
  | none => .error .unnamed

def qualifiedName (n : Names) (a : Arena) (id : Nat) : Except Defect String := do
  let scope := ((a.node? id).map (·.scope)).getD []
  return ".".intercalate (← scope.mapM n.className)

def scope (n : Names) (id : Nat) : Except Defect ScopeNames :=
  match n.scopes.lookup id with
  | some names => .ok names
  | none => .error .unnamed

/-- The expression for a message's class in the module of a file. -/
def reference (n : Names) (a : Arena) (style : ModuleStyle) (id : Nat) (fromFile : String) :
    Except Defect String := do
  let name ← n.qualifiedName a id
  let file := ((a.node? id).map (·.file)).getD ""
  return if file == fromFile then name else style.moduleAlias file ++ "." ++ name

end Names

end Missive.Naming
