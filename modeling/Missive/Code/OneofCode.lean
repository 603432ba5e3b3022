import Missive.Code.FieldCode

/-!
# Code for oneofs

The class of a oneof's cases, and the accessors of the oneof and its members.
-/

namespace Missive.Code

open Schema Plan

namespace OneofCode

/-- The attribute of an owner that stores the case of a oneof. -/
def stored (o : OneofPlan) (owner : String) : String := owner ++ "." ++ o.storageName

def decodeTerm (m : MemberPlan) (existing : String) : String :=
  match m.kind with
  | .scalar t _ => "decoder.decode_singular(" ++ typeTerm t ++ ")"
  | .message group _ ref =>
    decodeMethod group false ++ "(" ++ existing ++ ", " ++ ref.text ++ ")"
  | .entry _ => "decoder.decode_singular(" ++ typeTerm .message ++ ")"

/-- The case of the decoder for a member. Messages are merged into what is there. -/
def decodeCase (m : MemberPlan) : Code :=
  let number := toString m.number
  let existing :=
    [line "existing = None",
     block ("if current is not None and current.field_number == " ++ number ++ ":")
      [line "existing = current.value"]]
  let result := fun term => line ("return cls(" ++ number ++ ", " ++ term ++ ")")
  block ("case " ++ number ++ ":") <|
    if m.kind.ref?.isSome then existing ++ [result (decodeTerm m "existing")]
    else [result (decodeTerm m "None")]

def visit (m : MemberPlan) (value : String) : String :=
  match m.kind with
  | .scalar t _ => visitScalar value t m.number
  | .message group _ _ => visitMessage group false value m.number
  | .entry _ => visitScalar value .message m.number

def caseClass (o : OneofPlan) : Code :=
  let members := ", ".intercalate <| o.sorted.map fun m =>
    toString m.number ++ ": " ++ Text.quoted m.name
  block ("class " ++ o.className ++ "(_pw.OneofCase):")
    [line ("ONEOF_NAME = " ++ Text.quoted o.declared),
     line ("MEMBERS = \x7b" ++ members ++ "\x7d"),
     blank,
     line "@classmethod",
     block "def by_decoding_from(cls, decoder, field_number, current):"
      [block "match field_number:" (o.sorted.map decodeCase),
       wrapped "raise ValueError("
        ["f'\x7bfield_number\x7d is not a member of oneof " ++ o.declared ++ "'"] ")"],
     blank,
     block "def traverse(self, visitor, start=None, end=None) -> None:"
      [block "if start is not None and not start <= self.field_number < end:" [line "return"],
       block "match self.field_number:" <| o.sorted.map fun m =>
        block ("case " ++ toString m.number ++ ":") [line (visit m "self.value")]]]

/-- The accessors of a oneof as a whole. -/
def accessors (o : OneofPlan) (layout : Layout) : List Code :=
  let read := stored o (readOwner layout)
  let write := stored o (writeOwner layout)
  let type := "'" ++ o.className ++ " | None'"
  separated
    [FieldCode.getter o.name type [line ("return _pw.copy_value(" ++ read ++ ")")],
     FieldCode.setter o.name ("value: " ++ type)
      [block ("if value is not None and not isinstance(value, self." ++ o.className ++ "):")
        [line ("raise TypeError('Expected a " ++ o.className ++ " or None')")],
       line (write ++ " = _pw.copy_value(value)")],
     FieldCode.method ("clear_" ++ o.name) "None" [line (write ++ " = None")]]

def memberAccessors (o : OneofPlan) (m : MemberPlan) (layout : Layout) : List Code :=
  let read := stored o (readOwner layout)
  let write := stored o (writeOwner layout)
  let number := toString m.number
  let (type, default) :=
    match m.kind with
    | .scalar t default => (valueType t, default.expression)
    | .message _ ref _ => ("'" ++ ref.text ++ "'", ref.text ++ "()")
    | .entry ref => ("'" ++ ref.text ++ "'", ref.text ++ "()")
  let (value, assigned) :=
    match m.kind with
    | .scalar .bytes _ => ("case.value", "bytes(value)")
    | .scalar _ _ => ("case.value", "value")
    | _ => ("copy.copy(case.value)", "copy.copy(value)")
  let active := "case is not None and case.field_number == " ++ number
  separated [FieldCode.getter m.name type
      [line ("case = " ++ read),
       block ("if " ++ active ++ ":") [line ("return " ++ value)],
       line ("return " ++ default)],
     FieldCode.setter m.name ("value: " ++ type)
      [line (write ++ " = self." ++ o.className ++ "(" ++ number ++ ", " ++ assigned ++ ")")],
     FieldCode.method ("has_" ++ m.name) "bool"
      [line ("case = " ++ read), line ("return " ++ active)]]

end OneofCode

end Missive.Code
