import Missive.Naming.Identifier

/-!
# Names of modules

Every schema file gives one generated module. The module's name follows the path of the file: the
directories and the stem with a suffix become identifiers. Empty components of a path and single
dots do not count; a root is a component of its own.
-/

namespace Missive.Naming

/-- A path: its root, if it has one, and its components. -/
structure Path where
  root : Option String
  components : List String
  deriving DecidableEq

namespace Path

/-- Reads a path. Two slashes at the start are a root of their own, one or more than two are one. -/
def ofString (text : String) : Path :=
  let root :=
    if text.startsWith "//" && !text.startsWith "///" then some "//"
    else if text.startsWith "/" then some "/"
    else none
  ⟨root, (Text.split '/' text).filter fun c => !c.isEmpty && c != "."⟩

def parentParts (p : Path) : List String := p.root.toList ++ p.components.dropLast

/-- The part of a name before its last dot, unless that dot is the first or last character. -/
def stemOf (name : List Char) : List Char :=
  match name.reverse.span (· != '.') with
  | (after, _ :: before) => if after.isEmpty || before.isEmpty then name else before.reverse
  | (_, []) => name

def stem (p : Path) : String := String.ofList (stemOf (p.components.getLastD "").toList)

end Path

def baseName (path : String) : String :=
  String.ofList (path.toList.reverse.takeWhile (· != '/')).reverse

/-- How modules are named: what is appended to the stem of a file, and the package that all modules
are placed under. -/
structure ModuleStyle where
  suffix : String := "_msg"
  package : String := ""

namespace ModuleStyle

def packageName (s : ModuleStyle) : String :=
  let front := s.package.toList.dropWhile (· == '.')
  String.ofList (front.reverse.dropWhile (· == '.')).reverse

def parts (s : ModuleStyle) (file : String) : List String :=
  let path := Path.ofString file
  let parts := path.parentParts.map identifier ++ [identifier (path.stem ++ s.suffix)]
  parts.map fun part => if keywords.contains part then part ++ "_" else part

def moduleName (s : ModuleStyle) (file : String) : String :=
  let parts := s.parts file
  ".".intercalate (if s.packageName.isEmpty then parts else s.packageName :: parts)

def modulePath (s : ModuleStyle) (file : String) : String :=
  String.ofList ((s.moduleName file).toList.map fun c => if c = '.' then '/' else c) ++ ".py"

def moduleAlias (s : ModuleStyle) (file : String) : String :=
  "_" ++ "_".intercalate (s.parts file)

end ModuleStyle

end Missive.Naming
