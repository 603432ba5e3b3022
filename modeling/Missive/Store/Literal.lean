import Missive.Store.Item

/-!
# Literals of values

The text of what a cell holds. A message shows its class and its fields that are set, in order of
declaration; the fields are read as anyone would read them, so showing a message copies what it
contains. Which fields there are a loose attribute may say. A list or map that contains itself shows
dots where it recurs.
-/

namespace Missive

open Plan

def tupleText : List String → String
  | [item] => "(" ++ item ++ ",)"
  | items => "(" ++ ", ".intercalate items ++ ")"

def listText (items : List String) : String := "[" ++ ", ".intercalate items ++ "]"

mutual

def Key.literal : Key → String
  | .scalar s => s.literal
  | .tuple items => tupleText (Key.literals items)

def Key.literals : List Key → List String
  | [] => []
  | k :: rest => k.literal :: Key.literals rest

end

/-- Entries between braces; a map that cannot be written to says so. -/
def mapText (readOnly : Bool) (entries : List (Key × String)) : String :=
  let body := ", ".intercalate (entries.map fun (key, value) => key.literal ++ ": " ++ value)
  if readOnly then "mappingproxy(\x7b" ++ body ++ "\x7d)" else "\x7b" ++ body ++ "\x7d"

namespace Storing

/-- Reads an attribute that may not be there; one that is absent counts as not there. -/
def attribute? (p : Program) (ref : Nat) (name : String) : Storing (Option Cell) := do
  let s ← get
  match getAttribute p ref name s with
  | .ok c s =>
    set s
    return if c.isPresent then some c else none
  | .error .noAttribute s =>
    set s
    return none
  | .error f _ => throw f

/-- Does an object have a method that tells whether a field is set? What else it may have under the
name of the method cannot be called. -/
def canTell (p : Program) (ref : Nat) (name : String) : Storing Bool := do
  let o ← object ref
  let full := Accessor.nameOf .has name
  if let some given := o.loose.lookup full then
    if given.isPresent then throw .wrongType else return false
  if ((p.plan? o.type).bind fun c => c.accessor? .has name).isSome then return true
  if full == "has_extension" || (← attribute? p ref full).isSome then throw .wrongType
  return false

/-- Is a field set, as far as its message can tell? Fields that cannot tell are set if they are
neither zero nor empty. -/
def showsField (p : Program) (ref : Nat) (name : String) : Storing Bool := do
  if ← canTell p ref name then hasAttribute p ref name
  else return (← get).truthy (← getAttribute p ref name)

def shownNames (p : Program) (o : Object) : Storing (List Cell) := do
  match o.loose.lookup "FIELD_NAMES" with
  | some given => elements given
  | none => return (((p.plan? o.type).map (·.fieldNames)).getD []).map fun n => .scalar (.text n)

/-- The text of a cell, down to as many levels as given, below some lists and maps that it is part
of. -/
def literalWithin (p : Program) : (levels : Nat) → (above : List Ref) → Cell → Storing String
  | 0, _, _ => throw .endless
  | _ + 1, _, .scalar s => return s.literal
  | levels + 1, above, .tuple items => do
    return tupleText (← items.mapM (literalWithin p levels above))
  | levels + 1, above, .frozen entries => do
    return mapText true (← entries.mapM fun (key, c) => do
      return (key, ← literalWithin p levels above c))
  | levels + 1, above, .list ref => do
    if above.contains (.list ref) then return "[...]"
    return listText (← ((← get).list ref).mapM (literalWithin p levels (.list ref :: above)))
  | levels + 1, above, .map ref => do
    if above.contains (.map ref) then return "\x7b...\x7d"
    return mapText false (← ((← get).map ref).mapM fun (key, c) => do
      return (key, ← literalWithin p levels (.map ref :: above) c))
  | levels + 1, above, .case ref => do
    let c ← caseObject ref
    let member ← caseMember p ref
    let shown ← match member with
      | .scalar s => pure s.display
      | other => literalWithin p levels above other
    let className := ((p.oneof? (c.tag ref)).map (·.className)).getD ""
    return className ++ "(" ++ shown ++ "=" ++ (← literalWithin p levels above c.value) ++ ")"
  | levels + 1, above, .message ref => do
    let o ← object ref
    if p.takes o.type "__repr__" then throw .wrongType
    let names ← shownNames p o
    let told := !p.takes o.type "_field_is_set" && !o.replaces "_field_is_set"
    if !told && !names.isEmpty then throw .wrongType
    let fields ← names.filterMapM fun
      | .scalar (.text name) => do
        if ← showsField p ref name then
          let value ← getAttribute p ref name
          return some (name ++ "=" ++ (← literalWithin p levels above value))
        else return none
      | other => do
        let _ ← literalWithin p levels above other
        throw .wrongType
    return p.className o.type ++ "(" ++ ", ".intercalate fields ++ ")"

def literal (p : Program) (c : Cell) : Storing String := literalWithin p maxNesting [] c

end Storing

/-- The text of a cell inside other text: a text stands for itself. -/
def Storing.display (p : Program) : Cell → Storing String
  | .scalar s => return s.display
  | c => literal p c

def Value.literal (v : Value) : Except Fault String :=
  match (do Storing.literal .empty (← Storing.place .empty v) : Storing String) {} with
  | .ok text _ => .ok text
  | .error f _ => .error f

end Missive
