import Missive.Code.ModuleCode
import Missive.Log
import Missive.Schema.Build

/-!
# Compiling files

Compiling a file plans its classes and writes them out.
-/

namespace Missive

open Schema Plan

/-- A generated file. -/
structure Output where
  path : String
  content : String

/-- A compilation: the arena of all files with its names, how code is generated, the files that are
compiled, and what planning has found out so far. -/
structure Compilation where
  arena : Arena
  names : Naming.Names
  options : Plan.Options
  files : List String := []
  memo : RequiredMemo := []

namespace Compilation

def start (arena : Arena) (options : Plan.Options) (files : List String := []) : Compilation :=
  { arena, names := Naming.names arena, options, files }

/-- The plan of a file's module, with the notes that planning made. -/
def plan (c : Compilation) (file : FileDecl) :
    Except Defect ModulePlan × List String × Compilation :=
  match planModule c.arena c.names c.options c.files file { memo := c.memo } with
  | .ok m p => (.ok m, p.notes, { c with memo := p.memo })
  | .error d p => (.error d, p.notes, { c with memo := p.memo })

/-- Compiles a file. The log tells the layout of every class, and in the end what was written. -/
def compile (c : Compilation) (file : FileDecl) :
    Except Defect Output × List Log.Record × Compilation :=
  let (planned, notes, c) := c.plan file
  let records := notes.map (⟨.debug, ·⟩)
  match planned with
  | .error d => (.error d, records, c)
  | .ok m =>
    let content := Code.render (Code.moduleCode m c.options.runtimePackage)
    (.ok ⟨m.path, content⟩,
     records ++ [⟨.debug, "Generated " ++ m.path ++ " from " ++ file.name⟩], c)

end Compilation

end Missive
