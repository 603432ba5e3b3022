import Missive.Message.Equality
import Missive.Store.Copy

/-!
# Writing objects

Writing an object leaves a trace: a message that holds any other one keeps the bytes of its content
once they were needed, and from then on changes to the content do not show. A comparison may need
them too.

`seals` lists the storages below a value that are written for the first time, with their bytes, and
`comparedSeals` those whose bytes a comparison asks for.
-/

namespace Missive

open Plan

namespace Any

def urlSlot : Nat := 0

def dataSlot : Nat := 1

def contentSlot : Nat := 2

/-- The bytes that a message that holds any other one keeps from now on, if it did not know them. -/
def sealing? (p : Program) (head : Head) (slots : List Value) : Option (Nat × Bytes) :=
  if !((p.plan? head.type).map (·.isAny)).getD false then none
  else if (slots.getD dataSlot .none).isPresent then none
  else
    match head.origin.bind (·.storage), contentBytes p (p.walk (slots.getD contentSlot .none)) with
    | some storage, .ok data => some (storage, data)
    | _, _ => none

end Any

mutual

/-- The storages below a value that are written for the first time, with their bytes. -/
def seals (p : Program) : Value → List (Nat × Bytes)
  | .scalar _ => []
  | .list items => sealsOfList p items
  | .tuple items => sealsOfList p items
  | .map _ entries => sealsOfEntries p entries
  | .case _ v _ => seals p v
  | .message head slots extensions loose =>
    sealsOfList p slots ++ sealsOfExtensions p extensions ++ sealsOfLoose p loose ++ (Any.sealing? p head slots).toList
  | .loop => []

def sealsOfList (p : Program) : List Value → List (Nat × Bytes)
  | [] => []
  | v :: rest => seals p v ++ sealsOfList p rest

def sealsOfEntries (p : Program) : List (Key × Value) → List (Nat × Bytes)
  | [] => []
  | (_, v) :: rest => seals p v ++ sealsOfEntries p rest

def sealsOfExtensions (p : Program) : List (Extension × Value) → List (Nat × Bytes)
  | [] => []
  | (_, v) :: rest => seals p v ++ sealsOfExtensions p rest

/-- The storages below the loose attributes that are written. -/
def sealsOfLoose (p : Program) : List (String × Value) → List (Nat × Bytes)
  | [] => []
  | (name, v) :: rest =>
    (if name == unknownName || name == extensionsName then seals p v else []) ++ sealsOfLoose p rest

end

/-- The storages whose bytes a comparison of two messages that hold any other one asks for, given
those that a comparison of their contents does. Contents of one type are compared without bytes. -/
def Any.comparedSeals (p : Program) (a b : Head) (slots slots' : List Value)
    (contents : List (Nat × Bytes)) : List (Nat × Bytes) :=
  let content := slots.getD contentSlot .none
  if !((equal p (slots.getD urlSlot .none) (slots'.getD urlSlot .none)).toOption.getD false) then []
  else if content.isPresent && content.sameType (slots'.getD contentSlot .none) then contents
  else (sealing? p a slots).toList ++ (sealing? p b slots').toList

def goesOn (p : Program) (a b : Value) : Bool := (equal p a b).toOption.getD false

mutual

/-- The storages whose bytes a comparison asks for, with the bytes. -/
def comparedSeals (p : Program) : Value → Value → List (Nat × Bytes)
  | .list a, .list b => comparedItems p a b
  | .tuple a, .tuple b => comparedItems p a b
  | .map _ a, .map _ b => comparedEntries p a b
  | .case _ a _, .case _ b _ => comparedSeals p a b
  | .message a slots extensions _, .message b slots' extensions' _ =>
    if a.type != b.type || a.sameObject b || a.sameStorage b then []
    else
      let inner := comparedItems p slots slots'
      let fields :=
        if ((p.plan? a.type).map (·.isAny)).getD false then
          Any.comparedSeals p a b slots slots' inner
        else inner
      fields ++ comparedExtensions p extensions extensions'
  | _, _ => []
termination_by structural v => v

/-- Those of a comparison pair by pair, up to the first difference. -/
def comparedItems (p : Program) : List Value → List Value → List (Nat × Bytes)
  | a :: as, b :: bs =>
    comparedSeals p a b ++ (if goesOn p a b then comparedItems p as bs else [])
  | _, _ => []
termination_by structural v => v

/-- Those of a comparison of maps. -/
def comparedEntries (p : Program) :
    List (Key × Value) → List (Key × Value) → List (Nat × Bytes)
  | (key, a) :: rest, other =>
    match atKey? key other with
    | some b => comparedSeals p a b ++ (if goesOn p a b then comparedEntries p rest other else [])
    | none => []
  | [], _ => []
termination_by structural v => v

def comparedExtensions (p : Program) :
    List (Extension × Value) → List (Extension × Value) → List (Nat × Bytes)
  | (e, a) :: rest, other =>
    match other.find? fun (e', _) => e' = e with
    | some (_, b) =>
      comparedSeals p a b ++ (if goesOn p a b then comparedExtensions p rest other else [])
    | none => []
  | [], _ => []
termination_by structural v => v

end

namespace Storing

def keepSeals (found : List (Nat × Bytes)) : Storing Unit :=
  modify fun s =>
    found.foldl (fun s (storage, data) =>
        s.updateStorage storage (·.setSlot Any.dataSlot (.scalar (.bytes data)))) s

def written (p : Program) (c : Cell) : Storing Value := do
  let v ← view c
  keepSeals (seals p v)
  return v

/-- Are two cells equal, and do they differ? A list or map is equal to itself. -/
def compare (p : Program) (a b : Cell) : Storing (Bool × Bool) := do
  if a.isSameContainer b then return (true, false)
  let v ← view a
  let w ← view b
  keepSeals (comparedSeals p v w)
  return (← ofExcept (equal p v w), ← ofExcept (differ p v w))

def serialize (p : Program) (c : Cell) : Storing Bytes := do
  ofExcept (p.serialize (← written p c))

/-- The bytes of the content of a message that holds any other one. -/
def anyBytes (p : Program) (ref : Nat) : Storing Cell := do
  let data ← slot ref Any.dataSlot
  if data.isPresent then return data
  let bytes ← serialize p (← slot ref Any.contentSlot)
  setSlot ref Any.dataSlot (.scalar (.bytes bytes))
  return .scalar (.bytes bytes)

end Storing

end Missive
