import Missive.Text.Character
import Missive.Text.Split

/-!
# Identifiers

How names of a schema become identifiers of generated code. Characters that no identifier has become
underscores, and a name that is taken gets underscores at its end until it is free.
-/

namespace Missive.Naming

/-- The words of the generated language that are no identifiers. -/
def keywords : List String :=
  ["False", "None", "True", "and", "as", "assert", "async", "await", "break", "class", "continue",
   "def", "del", "elif", "else", "except", "finally", "for", "from", "global", "if", "import", "in",
   "is", "lambda", "nonlocal", "not", "or", "pass", "raise", "return", "try", "while", "with",
   "yield"]

/-- Attributes of message classes that nothing declared in a schema may take. -/
def reservedAttributes : List String :=
  ["EXTENSION_RANGES", "FIELD_NAMES", "IS_EXTENSIBLE", "IS_PROTO3", "ONEOF_NAMES",
   "PROTO_MESSAGE_NAME", "are_all_initialized", "clear_extension", "decode_message",
   "extension_fields", "get_extension", "has_extension", "is_a", "is_initialized",
   "merge_from_bytes", "pack", "parse", "serialize", "set_extension", "traverse", "unknown_fields",
   "unpack", "_StorageClass", "_protobuf_copy_fields", "_protobuf_generated_is_equal_to", "_storage",
   "_escaped_storage", "_unique_storage"]

def reservedModuleNames : List String := ["_pw", "copy", "types"]

/-- Joins the parts of a name, each with its first character in upper case. -/
def upperCamelCase (name : String) : String :=
  String.join <| (Text.split '_' name).map fun part =>
    match part.toList with
    | [] => ""
    | c :: rest => String.ofList (Text.upper c ++ rest)

def identifier (name : String) : String :=
  let chars := name.toList.map fun c => if Text.isWord c then c else '_'
  match chars with
  | [] => "_"
  | c :: _ => String.ofList (if Text.isDigit c then '_' :: chars else chars)

/-- The attribute that stores what is called `name`. It never starts with two underscores. -/
def storageName (name : String) : String :=
  if name.startsWith "_" then "_f" ++ name else "_" ++ name

def freshWithin (taken : List String) : (turns : Nat) → String → String
  | 0, name => name
  | turns + 1, name =>
    if taken.contains name then freshWithin taken turns (name ++ "_") else name

/-- The first of `name`, `name_`, `name__`, … that is not taken. No more names can be taken than the
list of taken names has entries. -/
def fresh (taken : List String) (name : String) : String := freshWithin taken taken.length name

/-- A new identifier for a name: no keyword, and neither reserved nor used. -/
def assign (reserved used : List String) (name : String) : String :=
  fresh (keywords ++ reserved ++ used) (identifier name)

/-- New identifiers for several names, in order and different from each other. The second result
lists all that are used then. -/
def assignAll (reserved : List String) : (used : List String) → List String → List String × List String
  | used, [] => ([], used)
  | used, name :: rest =>
    let given := assign reserved used name
    let (others, used) := assignAll reserved (given :: used) rest
    (given :: others, used)

end Missive.Naming
