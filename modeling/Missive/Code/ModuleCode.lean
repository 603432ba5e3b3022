import Missive.Code.ClassCode
import Missive.Plan.Build

/-!
# Code for modules

The module of a schema file: a header with its imports, then its classes.
-/

namespace Missive.Code

open Plan

def generatorName : String := "pw_msggen 0.1.0"

def moduleHeader (m : ModulePlan) (runtimePackage : String) : List Code :=
  [line ("# " ++ Naming.baseName m.path ++ " automatically generated by " ++ generatorName),
   line ("# source: " ++ m.file),
   line ("\"\"\"Message classes for " ++ m.file ++ ".\"\"\""),
   blank,
   line "import copy",
   line "import types",
   blank,
   line ("import " ++ runtimePackage ++ " as _pw")]
    ++ m.imports.map fun (name, short) => line ("import " ++ name ++ " as " ++ short)

def moduleCode (m : ModulePlan) (runtimePackage : String) : List Code :=
  moduleHeader m runtimePackage ++ m.classes.flatMap fun p => [blank, blank, ClassCode.classCode p]

end Missive.Code
