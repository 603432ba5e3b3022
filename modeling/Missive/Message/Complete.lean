import Missive.Message.Traverse

/-!
# Completeness

A message is complete if its required fields are set and the messages it contains are complete. The
plan of a class lists only the checks that can fail; a class without any is always complete.
-/

namespace Missive

open Plan

abbrev Checked := Part (Except Fault Bool)

def Checked.isComplete : Checked → Except Fault Bool
  | .message _ answer => answer
  | .plain .loop => .error .endless
  | other => .error (other.source.uncallable "is_initialized")

def allHold : List (Except Fault Bool) → Except Fault Bool
  | [] => .ok true
  | first :: rest => do if ← first then allHold rest else return false

def allComplete (c : Checked) : Except Fault Bool :=
  match c.elements? with
  | some items => allHold (items.map Checked.isComplete)
  | none => .error .wrongType

/-- The value of a slot, where it is kept. -/
def checkedAt (p : Program) (c : ClassPlan) (slots : List Checked) (index : Nat) :
    Except Fault Checked :=
  match c.place index with
  | .slot i => ((slots[i]?).map Except.ok).getD (.error .noAttribute)
  | .packed => do return .plain (← Any.valueBytes p (slots.map fun s => p.walk s.source))
  | .missing => .error .noAttribute

/-- Does a condition of completeness hold? `together` tells that several messages can be asked at
once, which a loose attribute may prevent. -/
def Plan.Check.holds (p : Program) (c : ClassPlan) (together : Bool) (slots : List Checked) :
    Check → Except Fault Bool
  | .set i => do return (← checkedAt p c slots i).source.isPresent
  | .nested i => do
    let v ← checkedAt p c slots i
    if v.source.isPresent then v.isComplete else return true
  | .each i => do
    let v ← checkedAt p c slots i
    if together then allComplete v else .error .wrongType
  | .eachValue i => do
    match ← checkedAt p c slots i with
    | .map _ _ entries =>
      if together then allHold (entries.map fun (_, v) => Checked.isComplete v)
      else .error .wrongType
    | _ => .error .noAttribute
  | .active i numbers => do
    match ← checkedAt p c slots i with
    | .case _ tag v =>
      if numbers.any fun n => tag.number.equal (.int n) then Checked.isComplete v else return true
    | .plain (.scalar .none) => return true
    | _ => .error .noAttribute

def extensionComplete (e : Extension) (c : Checked) : Except Fault Bool :=
  if e.messageType.isNone then .ok true
  else if e.repeated then allComplete c
  else c.isComplete

def extendedComplete : Extended Checked → List (Except Fault Bool)
  | .usual extensions => extensions.map fun (e, v) => extensionComplete e v
  | .replaced given => [given.isComplete]
  | .missing => [.error .noAttribute]

/-- Is a message complete, given the answers for its parts? -/
def Program.summarizeComplete (p : Program) : Summarize (Except Fault Bool) :=
  fun head slots extensions loose =>
    if (loose.lookup "is_initialized").isSome then .error .wrongType
    else
      match p.plan? head.type with
      | none => .ok true
      | some c =>
        let own :=
          if c.isExtensible then extendedComplete (.ofLoose head.bare extensions loose) else []
        let together := (loose.lookup "are_all_initialized").isNone
        allHold (own ++ c.checks.map (·.holds p c together slots))

def Program.isComplete (p : Program) (v : Value) : Except Fault Bool :=
  Checked.isComplete (v.part p.summarizeComplete)

end Missive
