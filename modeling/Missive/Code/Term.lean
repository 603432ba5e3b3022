import Missive.Code.Basic
import Missive.Literal
import Missive.Plan.Basic

/-!
# Terms of generated code

The expressions from which generated classes are made up.
-/

namespace Missive.Code

open Schema Plan

def typeTerm (t : FieldType) : String := "_pw.FieldType." ++ t.name

def valueType : FieldType → String
  | .double | .float => "float"
  | .bool => "bool"
  | .string => "str"
  | .bytes => "bytes"
  | _ => "int"

def readOwner : Layout → String
  | .indirected => "self._storage"
  | .inline => "self"

def writeOwner : Layout → String
  | .indirected => "self._unique_storage()"
  | .inline => "self"

def mutableOwner : Layout → String
  | .indirected => "self._escaped_storage()"
  | .inline => "self"

/-- The local name for what holds the fields of `self` or another message. -/
def localOwner (layout : Layout) (message : String) : String :=
  match layout with
  | .inline => message
  | .indirected => if message == "self" then "storage" else message ++ "_storage"

def bindOwners (layout : Layout) (messages : List String) : List Code :=
  match layout with
  | .inline => []
  | .indirected => messages.map fun m => line (localOwner layout m ++ " = " ++ m ++ "._storage")

def tupleItems (items : List String) : String := " ".intercalate (items.map (· ++ ","))

def failIf (condition : String) : Code := block ("if " ++ condition ++ ":") [line "return False"]

def visitMessage (group many : Bool) (value : String) (number : Int) : String :=
  "visitor.visit_" ++ (if many then "repeated" else "singular")
    ++ (if group then "_group(" else "_message(") ++ value ++ ", " ++ toString number ++ ")"

def decodeMethod (group many : Bool) : String :=
  "decoder.decode_" ++ (if many then "repeated" else "singular")
    ++ (if group then "_group" else "_message")

def visitScalar (value : String) (t : FieldType) (number : Int) : String :=
  "visitor.visit_singular(" ++ value ++ ", " ++ typeTerm t ++ ", " ++ toString number ++ ")"

end Missive.Code
