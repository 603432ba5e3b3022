import Missive.Wire.Kind

/-!
# Declarations

What a schema file declares, as it was written: nothing is checked or resolved yet.
-/

namespace Missive.Schema

/-- How often a field may occur. -/
inductive Label where
  | optional
  | required
  | repeated
  deriving DecidableEq, Repr

/-- A declared field. `typeName` is empty for a field without a named type. -/
structure FieldDecl where
  name : String
  number : Int := 0
  label : Label := .optional
  type : FieldType := .double
  typeName : String := ""
  oneof : Option Int := none
  default : Option String := none
  packed : Option Bool := none
  proto3Optional : Bool := false

/-- A declared enum with its values in order. -/
structure EnumDecl where
  name : String
  values : List (String × Int) := []

/-- A declared message with what is declared inside it. An extension range holds the numbers from
its start up to its end, which is not in it. -/
structure MessageDecl where
  name : String
  fields : List FieldDecl := []
  oneofs : List String := []
  extensionRanges : List (Int × Int) := []
  enums : List EnumDecl := []
  messages : List MessageDecl := []
  mapEntry : Bool := false
  deriving Inhabited

/-- A declared file. `dialect` is empty where the file does not name its dialect. -/
structure FileDecl where
  name : String
  package : String := ""
  dialect : String := ""
  dependencies : List String := []
  enums : List EnumDecl := []
  messages : List MessageDecl := []

end Missive.Schema
