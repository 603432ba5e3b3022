import Missive.Code.Term

/-!
# Code for fields

Storage, decoding, traversal and accessors of a field that is in no oneof.
-/

namespace Missive.Code

open Schema Plan

namespace FieldCode

def stored (f : FieldPlan) (owner : String) : String := owner ++ "." ++ f.storageName

/-- The value that an unset field is stored as. -/
def initial (f : FieldPlan) : String :=
  match f.kind with
  | .scalar _ presence default => if presence then "None" else default.expression
  | .repeated _ _ | .repeatedMessage _ _ => "[]"
  | .message _ _ => "None"
  | .map _ _ _ => "\x7b\x7d"

/-- An expression that copies a stored value. -/
def copied (f : FieldPlan) (source : String) : String :=
  match f.kind with
  | .scalar _ _ _ => source
  | .repeated _ _ => "list(" ++ source ++ ")"
  | _ => "_pw.copy_value(" ++ source ++ ")"

def decode (f : FieldPlan) (owner : String) : List Code :=
  let s := stored f owner
  match f.kind with
  | .scalar t _ _ => [line (s ++ " = decoder.decode_singular(" ++ typeTerm t ++ ")")]
  | .repeated t _ => [line ("decoder.decode_repeated(" ++ typeTerm t ++ ", " ++ s ++ ")")]
  | .message group ref =>
    [wrapped (s ++ " = " ++ decodeMethod group false ++ "(") [s ++ ", " ++ ref.text] ")"]
  | .repeatedMessage group ref =>
    [line (decodeMethod group true ++ "(" ++ s ++ ", " ++ ref.text ++ ")")]
  | .map key value ref =>
    let extra := (ref.map fun r => ", " ++ r.text).getD ""
    [wrapped "decoder.decode_map(" [s ++ ", " ++ typeTerm key ++ ", " ++ typeTerm value ++ extra]
      ")"]

def present (f : FieldPlan) (owner : String) : String :=
  match f.kind with
  | .scalar _ true _ | .message _ _ => stored f owner ++ " is not None"
  | _ => stored f owner

def visit (f : FieldPlan) (value : String) : String :=
  match f.kind with
  | .scalar t _ _ => visitScalar value t f.number
  | .repeated t packed =>
    "visitor.visit_repeated(" ++ value ++ ", " ++ typeTerm t ++ ", " ++ toString f.number
      ++ (if packed then ", packed=True)" else ")")
  | .message group _ => visitMessage group false value f.number
  | .repeatedMessage group _ => visitMessage group true value f.number
  | .map key value' _ =>
    "visitor.visit_map(" ++ value ++ ", " ++ typeTerm key ++ ", " ++ typeTerm value' ++ ", "
      ++ toString f.number ++ ")"

def traverse (f : FieldPlan) (owner : String) : Code :=
  block ("if " ++ present f owner ++ ":") [line (visit f (stored f owner))]

/-! ## Accessors -/

def getter (name type : String) (body : List Code) : List Code :=
  [line "@property", block ("def " ++ name ++ "(self) -> " ++ type ++ ":") body]

def setter (name argument : String) (body : List Code) : List Code :=
  [line ("@" ++ name ++ ".setter"),
   block ("def " ++ name ++ "(self, " ++ argument ++ ") -> None:") body]

def method (name type : String) (body : List Code) : List Code :=
  [block ("def " ++ name ++ "(self) -> " ++ type ++ ":") body]

def clearing (f : FieldPlan) (layout : Layout) (value : String) : List Code :=
  method ("clear_" ++ f.name) "None" [line (stored f (writeOwner layout) ++ " = " ++ value)]

def hasMethod (f : FieldPlan) (layout : Layout) : List Code :=
  method ("has_" ++ f.name) "bool"
    [line ("return " ++ stored f (readOwner layout) ++ " is not None")]

def storing (f : FieldPlan) (layout : Layout) (argument converted : String) : List Code :=
  setter f.name argument [line (stored f (writeOwner layout) ++ " = " ++ converted)]

def scalarAccessors (f : FieldPlan) (layout : Layout) (t : FieldType) (presence : Bool)
    (default : Scalar) : List (List Code) :=
  let read := stored f (readOwner layout)
  let converted := if t == .bytes then "bytes(value)" else "value"
  let set := storing f layout ("value: " ++ valueType t) converted
  if presence then
    [getter f.name (valueType t)
      [line ("value = " ++ read),
       line ("return " ++ default.expression ++ " if value is None else value")],
     set, hasMethod f layout, clearing f layout "None"]
  else [getter f.name (valueType t) [line ("return " ++ read)], set]

def repeatedAccessors (f : FieldPlan) (layout : Layout) (t : FieldType) : List (List Code) :=
  [getter f.name ("tuple[" ++ valueType t ++ ", ...]")
    [line ("return tuple(" ++ stored f (readOwner layout) ++ ")")],
   storing f layout "values" "list(values)",
   method ("mutable_" ++ f.name) ("list[" ++ valueType t ++ "]")
    [line ("return " ++ stored f (mutableOwner layout))],
   clearing f layout "[]"]

def messageAccessors (f : FieldPlan) (layout : Layout) (cls : String) : List (List Code) :=
  [getter f.name ("'" ++ cls ++ "'")
    [line ("value = " ++ stored f (readOwner layout)),
     line ("return " ++ cls ++ "() if value is None else copy.copy(value)")],
   storing f layout ("value: '" ++ cls ++ "'") "copy.copy(value)",
   hasMethod f layout,
   clearing f layout "None",
   method ("mutable_" ++ f.name) ("'" ++ cls ++ "'")
    [line ("storage = " ++ mutableOwner layout),
     block ("if " ++ stored f "storage" ++ " is None:")
      [line (stored f "storage" ++ " = " ++ cls ++ "()")],
     line ("return " ++ stored f "storage")]]

def repeatedMessageAccessors (f : FieldPlan) (layout : Layout) (cls : String) :
    List (List Code) :=
  [getter f.name ("'tuple[" ++ cls ++ ", ...]'")
    [line ("return tuple(copy.copy(v) for v in " ++ stored f (readOwner layout) ++ ")")],
   storing f layout "values" "[copy.copy(v) for v in values]",
   method ("mutable_" ++ f.name) ("'list[" ++ cls ++ "]'")
    [line ("return " ++ stored f (mutableOwner layout))],
   clearing f layout "[]"]

def mapAccessors (f : FieldPlan) (layout : Layout) : List (List Code) :=
  [getter f.name "types.MappingProxyType"
    [line ("return types.MappingProxyType(_pw.copy_value(" ++ stored f (readOwner layout) ++ "))")],
   storing f layout "values" "_pw.copy_value(dict(values))",
   method ("mutable_" ++ f.name) "dict" [line ("return " ++ stored f (mutableOwner layout))],
   clearing f layout "\x7b\x7d"]

def accessors (f : FieldPlan) (layout : Layout) : List Code :=
  separated <| match f.kind with
    | .scalar t presence default => scalarAccessors f layout t presence default
    | .repeated t _ => repeatedAccessors f layout t
    | .message _ ref => messageAccessors f layout ref.text
    | .repeatedMessage _ ref => repeatedMessageAccessors f layout ref.text
    | .map _ _ _ => mapAccessors f layout

end FieldCode

end Missive.Code
