import Missive.Message.Program
import Missive.Text.Format
import Missive.Text.Template

/-!
# Missing members

A oneof that is to decode a number of none of its members says so. What it says is a template, in
which the name of the oneof stands as it was declared; so a name with braces has holes, which are
filled with what they name: the number, what the class of the oneof says about itself, a class of
the module, or one of the variables of the decoder.
-/

namespace Missive

open Plan

/-- What a hole names: a scalar, or something else of which only the text counts. -/
inductive Named where
  | scalar (s : Scalar)
  | written (text : String)

namespace Named

def inForm : Text.Form → Named → String
  | .plain, scalar s => s.display
  | .written, scalar s => s.literal
  | .ascii, scalar s => Text.asciiOnly s.literal
  | .plain, written text | .written, written text => text
  | .ascii, written text => Text.asciiOnly text

def layText (format text : String) : Except Fault String :=
  (((Text.Format.read? false format).bind (·.layText? text)).map .ok).getD (.error .badValue)

def layInt (format : String) (i : Int) : Except Fault String :=
  (((Text.Format.read? true format).bind (·.layInt? i)).map .ok).getD (.error .badValue)

/-- What a hole is filled with, once it is known what it names. Only texts and numbers can be laid
out. -/
def fill (h : Text.Hole) (v : Named) : Except Fault String := do
  let text ← match h.form, v with
    | some form, v => layText h.format (v.inForm form)
    | none, v =>
      if h.format.isEmpty then .ok (v.inForm .plain)
      else
        match v with
        | scalar (.text s) => layText h.format s
        | scalar (.int i) => layInt h.format i
        | scalar (.bool b) => layInt h.format (if b then 1 else 0)
        | scalar (.float _) => .error .badValue
        | _ => .error .wrongType
  return h.label ++ text

end Named

/-- A number that a oneof has no member for, and what the class of the oneof says about itself. -/
structure Missing where
  oneof : OneofPlan
  moduleName : String
  qualifiedName : String
  neighbours : List String
  names : List (Key × Value)
  number : Int

namespace Missing

/-- The number of a tag as one that the oneof of the tag has no member for. -/
def of (p : Program) (tag : CaseTag) (o : OneofPlan) (number : Int) : Missing :=
  let owner := p.plan? tag.owner
  { oneof := o,
    moduleName := ((p.moduleOf? tag.owner).map (·.name)).getD "",
    qualifiedName := ((owner.map (·.qualifiedName)).getD "") ++ "." ++ o.className,
    neighbours := (owner.map (·.neighbours)).getD [],
    names := p.memberNames tag,
    number }

def classText (m : Missing) (name : String) : Named :=
  .written ("<class '" ++ m.moduleName ++ "." ++ name ++ "'>")

/-- Scalars by scalar keys, as a map is written. -/
def entriesText (entries : List (Key × Value)) : String :=
  let entry := fun
    | (Key.scalar k, Value.scalar v) => k.literal ++ ": " ++ v.literal
    | _ => ""
  "\x7b" ++ ", ".intercalate (entries.map entry) ++ "\x7d"

/-- What the class of the oneof says about itself. -/
def ofClass (m : Missing) : List String → Except Fault Named
  | [] => .ok (m.classText m.qualifiedName)
  | ["ONEOF_NAME"] => .ok (.scalar (.text m.oneof.declared))
  | ["MEMBERS"] => .ok (.written (entriesText m.names))
  | ["__name__"] => .ok (.scalar (.text m.oneof.className))
  | ["__qualname__"] => .ok (.scalar (.text m.qualifiedName))
  | ["__module__"] => .ok (.scalar (.text m.moduleName))
  | ["__doc__"] => .ok (.scalar .none)
  | _ => .error .noAttribute

def constant? : String → Option Scalar
  | "None" => some .none
  | "True" => some (.bool true)
  | "False" => some (.bool false)
  | text => text.toInt?.map .int

/-- What a name means that is no variable of the decoder. -/
def ofModule (m : Missing) : List String → Except Fault Named
  | [name] =>
    match constant? name with
    | some s => .ok (.scalar s)
    | none => if m.neighbours.contains name then .ok (m.classText name) else .error .unboundName
  | name :: _ => .error (if m.neighbours.contains name then .noAttribute else .unboundName)
  | [] => .error .unboundName

/-- What names lead to, given what they lead to from the current case. -/
def named (m : Missing) {μ : Type → Type} [Monad μ] [MonadExceptOf Fault μ]
    (current : List String → μ Named) : List String → μ Named
  | ["field_number"] => return .scalar (.int m.number)
  | "field_number" :: _ | "decoder" :: _ => throw .noAttribute
  | "current" :: path => current path
  | "cls" :: path => MonadExcept.ofExcept (m.ofClass path)
  | "existing" :: path =>
    if m.oneof.hasMessage then throw .unassigned
    else MonadExcept.ofExcept (m.ofModule ("existing" :: path))
  | path => MonadExcept.ofExcept (m.ofModule path)

/-- What the oneof says, given what names lead to from the current case. -/
def text (m : Missing) {μ : Type → Type} [Monad μ] [MonadExceptOf Fault μ]
    (current : List String → μ Named) : μ String := do
  let texts ← (Text.pieces m.oneof.declared).mapM fun
    | .text s => pure s
    | .hole h => do MonadExcept.ofExcept ((← m.named current h.path).fill h)
  return toString m.number ++ " is not a member of oneof " ++ String.join texts

/-- The fault of decoding the number, once what the oneof says is put together. A class of the
module may hide the fault's own. -/
def fault (m : Missing) {μ : Type → Type} [Monad μ] [MonadExceptOf Fault μ]
    (current : List String → μ Named) : μ Fault := do
  let text ← m.text current
  return if m.neighbours.contains "ValueError" then .wrongType else .notDecodable text

end Missing

end Missive
