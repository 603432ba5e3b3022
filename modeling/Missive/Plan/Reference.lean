import Missive.Value

/-!
# References to classes

Generated code refers to the class of a message by names: its path in its own module, with the alias
of that module in front if it is another one. What such a reference means depends on where it
stands. A local variable of a method hides what has its name outside, and a variable that holds the
message itself leads to the classes nested in its class. So a reference may turn out to be no class,
which is a fault only once a class is needed.
-/

namespace Missive.Plan

/-- What a local variable holds, as far as a reference to it can tell. -/
inductive Local where
  /-- The message that the code works on. -/
  | self
  /-- No value yet. -/
  | unassigned
  /-- The absent value. -/
  | nothing
  /-- Something that can be a key. -/
  | hashable
  /-- Something that cannot be a key. -/
  | unhashable
  deriving DecidableEq, Repr

abbrev Locals := List (String × Local)

/-- What a reference turns out to be. -/
inductive Meaning where
  | type (t : TypeId)
  /-- Something else than a class. -/
  | other (l : Local)
  /-- Evaluating the reference fails. -/
  | fault (f : Fault)
  deriving DecidableEq, Repr

def Meaning.toClass : Meaning → Except Fault TypeId
  | type t => .ok t
  | other _ => .error .wrongType
  | fault f => .error f

def Meaning.evaluated : Meaning → Except Fault Meaning
  | fault f => .error f
  | m => .ok m

/-- A reference to the class of a message: the message, the expression that generated code uses for
its class, the names it consists of, what they mean where no local variable hides them, and what all
but the first of them mean inside the class that the code belongs to. -/
structure ClassRef where
  target : TypeId
  text : String
  path : List String
  outside : Meaning
  inside : Meaning
  deriving DecidableEq

/-- What a local variable means, followed by further names. -/
def Local.meaning (l : Local) (rest : List String) (inside : Meaning) : Meaning :=
  match l, rest with
  | unassigned, _ => .fault .unassigned
  | l, [] => .other l
  | self, _ :: _ => inside
  | _, _ :: _ => .fault .noAttribute

def ClassRef.meaning (r : ClassRef) (locals : Locals) : Meaning :=
  match r.path with
  | [] => r.outside
  | first :: rest =>
    match locals.lookup first with
    | some l => l.meaning rest r.inside
    | none => r.outside

end Missive.Plan
