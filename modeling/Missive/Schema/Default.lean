import Missive.Schema.Arena
import Missive.Text.Escape
import Missive.Text.Numeral
import Missive.Value

/-!
# Defaults

The value of a field that was never set: the declared one, read by the rules of the field's type, or
the zero of that type. An enum field defaults to its first value.
-/

namespace Missive.Schema

def enumDefault (values : Option (List (String × Int))) (text : Option String) : Int :=
  match values with
  | none => 0
  | some values =>
    match text.bind (fun name => values.lookup name) with
    | some number => number
    | none => (values.head?.map (·.2)).getD 0

def readDefault (t : FieldType) (text : String) : Except Defect Scalar :=
  match t with
  | .string => .ok (.text text)
  | .bytes =>
    match Text.unescape text with
    | .ok data => .ok (.bytes data)
    | .error .malformed => .error .brokenEscape
    | .error (.tooLarge _) => .error .wideEscape
  | .bool => .ok (.bool (text == "true"))
  | .float | .double =>
    match Text.readFloat? text with
    | some x => .ok (.float x)
    | none => .error .badNumber
  | _ =>
    match Text.readInt? text with
    | some i => .ok (.int i)
    | none => .error .badNumber

/-- The value of a field that was never set. -/
def Forest.defaultOf (a : Arena) (f : Field) : Except Defect Scalar :=
  if f.type == .enum then .ok (.int (enumDefault (a.typeEnum? f) f.default))
  else
    match f.default with
    | none => .ok f.type.default
    | some text => readDefault f.type text

end Missive.Schema
