import Missive.Naming.Identifier

/-!
# Names in the body of a message class

The body of a message class holds the fields and oneofs, the methods generated for them, the classes
of oneofs and nested messages, and the attributes that store values. All of them need different
names.

A field or oneof must not take the name of a method that is generated for another one. Renaming a
field renames its methods, so names are given again until the methods of the given names are all
among those that were kept free. Underscores at the end aside, the name of a method is longer than
the name it belongs to, so each round settles the names one level further, and there are no more
levels than names.
-/

namespace Missive.Naming

/-- What a message class declares, by the names of the schema. -/
structure ScopeDecl where
  fields : List String
  oneofs : List String
  nested : List String

/-- The names given in a message class, each list in the order of the declarations. -/
structure ScopeNames where
  fields : List String
  oneofs : List String
  oneofClasses : List String
  nested : List String
  fieldStorage : List String
  oneofStorage : List String
  deriving DecidableEq

def fieldAccessors (name : String) : List String :=
  ["has_" ++ name, "clear_" ++ name, "mutable_" ++ name]

def oneofAccessors (name : String) : List String := ["clear_" ++ name]

def accessors (fields oneofs : List String) : List String :=
  fields.flatMap fieldAccessors ++ oneofs.flatMap oneofAccessors

/-- The outcome of a round: names of fields and oneofs, all names in use, and the names of methods
that were kept free. -/
structure Round where
  fields : List String
  oneofs : List String
  used : List String
  free : List String

/-- Names fields and oneofs while some names are kept free. -/
def nameRound (d : ScopeDecl) (free : List String) : Round :=
  let reserved := reservedAttributes ++ free
  let (fields, used) := assignAll reserved [] d.fields
  let (oneofs, used) := assignAll reserved used d.oneofs
  { fields, oneofs, used, free }

def Round.missing (r : Round) : List String :=
  (accessors r.fields r.oneofs).filter fun name => !r.free.contains name

def Round.isSettled (r : Round) : Bool := r.missing.isEmpty

/-- Names fields and oneofs again and again until the round is settled. -/
def settle (d : ScopeDecl) : (turns : Nat) → (free : List String) → Round
  | 0, free => nameRound d free
  | turns + 1, free =>
    let r := nameRound d free
    if r.isSettled then r else settle d turns (free ++ r.missing)

/-- The names of a message class. Attributes that store values come last, so that they never change
a public name. -/
def nameScope (d : ScopeDecl) : ScopeNames :=
  let start := accessors (d.fields.map identifier) (d.oneofs.map identifier)
  let r := settle d (d.fields.length + d.oneofs.length) start
  let used := r.used ++ r.free
  let (oneofClasses, used) :=
    assignAll reservedAttributes used (d.oneofs.map fun name => "Oneof" ++ upperCamelCase name)
  let (nested, used) := assignAll reservedAttributes used d.nested
  let (fieldStorage, used) := assignAll reservedAttributes used (r.fields.map storageName)
  let (oneofStorage, _) := assignAll reservedAttributes used (r.oneofs.map storageName)
  { fields := r.fields, oneofs := r.oneofs, oneofClasses, nested, fieldStorage, oneofStorage }

end Missive.Naming
