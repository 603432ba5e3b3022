import Missive.Store.Merge

/-!
# Cases of oneofs

A case of a oneof can be made, changed, decoded and written without a message around it.
-/

namespace Missive

open Plan

/-- The oneofs of a class with a declared name, with their slots, in order. -/
def Plan.ClassPlan.oneofsNamed (c : ClassPlan) (declared : String) : List (Nat × OneofPlan) :=
  c.oneofs.filterMap fun o =>
    if o.declared == declared then
      c.declared.findSome? fun
        | .member slot o' _ _ => if o'.className == o.className then some (slot, o) else none
        | .field _ _ => none
    else none

namespace Storing

/-! ## Attributes -/

/-- The map with the names of the members of a oneof, which is one and the same for all its cases.
-/
def memberMap (o : OneofPlan) (owner : TypeId) (slot : Nat) : Storing Cell := do
  match (← get).members.lookup (owner, slot) with
  | some names => return .map names
  | none =>
    let s ← get
    let names := s.maps.length
    set { s with members := ((owner, slot), names) :: s.members }
    newMap (o.sorted.map fun m => (.scalar (.int m.number), .scalar (.text m.name)))

def getCaseAttribute (p : Program) (ref : Nat) (name : String) : Storing Cell := do
  let c ← caseObject ref
  match name, p.oneof? (c.tag ref), c.loose.lookup name with
  | "field_number", _, none => return .scalar c.number
  | "value", _, _ => return c.value
  | "name", _, _ => caseMember p ref
  | _, _, some given => return given
  | "ONEOF_NAME", some o, none => return .scalar (.text o.declared)
  | "MEMBERS", some o, none => memberMap o c.owner c.slot
  | "__slots__", _, none =>
    return .tuple [.scalar (.text "field_number"), .scalar (.text "value")]
  | _, _, none =>
    specialAttribute (((p.moduleOf? c.owner).map (·.name)).getD "") name .noAttribute

/-- Sets an attribute of a case. The name of its member cannot be set. -/
def setCaseAttribute (ref : Nat) (name : String) (v : Cell) : Storing Unit := do
  let c ← caseObject ref
  match name, v with
  | "field_number", .scalar number =>
    let loose := c.loose.filter fun (n, _) => n != numberName
    modify (·.setCase ref { c with number, loose })
  | "field_number", _ =>
    modify (·.setCase ref { c with number := .none, loose := setLoose numberName v c.loose })
  | "value", _ => modify (·.setCase ref { c with value := v })
  | "name", _ => throw .noAttribute
  | _, _ =>
    checkSettable name v
    modify (·.setCase ref { c with loose := setLoose name v c.loose })

def named (p : Program) (c : Cell) : List String → Storing Named
  | [] =>
    match c with
    | .scalar s => return .scalar s
    | _ => return .written (← literal p c)
  | name :: path => do
    match c with
    | .case ref => named p (← getCaseAttribute p ref name) path
    | .message ref => named p (← getAttribute p ref name) path
    | _ => throw .noAttribute

/-! ## Decoding -/

def currentContent (m : MemberPlan) (current : Cell) : Storing Cell := do
  if m.kind.ref?.isNone then return .none
  return ((← activeCase? m current).map (·.value)).getD .none

/-- Reads one field as a member of a oneof of a class. A message is merged into the one that the
current case holds, also if a fault ends the decoding. -/
def decodeCase (p : Program) (plan : ClassPlan) (slot : Nat) (o : OneofPlan) (number : Int)
    (current : Cell) (data : Bytes) : Storing Cell := do
  match Cursor.next (Cursor.ofBytes data) with
  | .error e _ => throw e
  | .ok _ cursor =>
    match o.member? number with
    | none =>
      let tag : CaseTag := { owner := plan.id, slot, number := .int number }
      throw (← (Missing.of p tag o number).fault (named p current))
    | some m =>
      let content ← currentContent m current
      let locals := o.decoderLocals (if current.isPresent then .unhashable else .nothing)
      match decodeMember p (decodeWith p none) locals m (← view content) cursor with
      | .error e _ => throw e
      | .ok placed _ =>
        let written ← writeBack p content placed.value
        match placed.fault with
        | some f => throw f
        | none => newCase p plan.id slot (.int number) written

/-! ## Writing -/

/-- The bounds that a case is written between. Without a lower bound there is no upper one, and with
a lower bound alone only numbers below it can be told to be outside. -/
def caseBounds (number : Scalar) (start stop : Option Int) :
    Except Fault (Option (Int × Int)) :=
  match start, stop with
  | none, _ => .ok none
  | some first, some last => .ok (some (first, last))
  | some first, none => do
    match number.int? with
    | some n => if first ≤ n then .error .wrongType else return some (first, first)
    | none => .error .wrongType

/-- Writes a case to the wire, if it lies between the bounds. -/
def writeCase (p : Program) (c : Cell) (start stop : Option Int) : Storing Bytes := do
  match ← written p c with
  | .case tag v loose =>
    let walked := p.walk (.case tag v loose)
    if (loose.lookup "traverse").isSome then throw .wrongType
    let bounds ← ofExcept (caseBounds tag.number start stop)
    match p.oneof? tag with
    | none => throw .noAttribute
    | some o => ofExcept (Item.writeAll (caseItems p o bounds walked)).toExcept
  | _ => throw .noAttribute

end Storing

end Missive
