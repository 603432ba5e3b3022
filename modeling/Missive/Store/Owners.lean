import Missive.Store.Cell

/-!
# Owners of storages

A storage counts its owners and remembers that a reference into it was given out. Where a field of
the class is stored under the name of the count or of the mark, the field and the count are one: it
is whatever the field was set to, and counting fails if that is no number.
-/

namespace Missive

open Plan

def Scalar.add? (s : Scalar) (i : Int) : Option Scalar :=
  match s with
  | .float x => some (.float (x.addInt i))
  | s => s.int?.map fun n => .int (n + i)

def Scalar.isPositive? (s : Scalar) : Option Bool :=
  match s with
  | .float x => some (x.compareInt 0 == some .gt)
  | s => s.int?.map fun n => decide (0 < n)

namespace Storage

def slot (s : Storage) (index : Nat) : Cell := s.slots.getD index .none

def setSlot (s : Storage) (index : Nat) (c : Cell) : Storage :=
  { s with slots := s.slots.set index c }

def owners (c : ClassPlan) (s : Storage) : Cell :=
  match c.ownersSlot? with
  | some i => s.slot i
  | none => .scalar (.int s.ownership.owners)

def escaped (c : ClassPlan) (s : Storage) : Cell :=
  match c.escapedSlot? with
  | some i => s.slot i
  | none => .scalar (.bool s.ownership.escaped)

/-- One more message owns the storage. -/
def retain (c : ClassPlan) (s : Storage) : Except Fault Storage :=
  match c.ownersSlot? with
  | none => .ok { s with ownership := s.ownership.retain }
  | some i =>
    match s.slot i with
    | .scalar n => ((n.add? 1).map fun m => .ok (s.setSlot i (.scalar m))).getD (.error .wrongType)
    | _ => .error .wrongType

/-- One message less owns the storage, unless none does. -/
def release (c : ClassPlan) (s : Storage) : Except Fault Storage :=
  match c.ownersSlot? with
  | none => .ok { s with ownership := s.ownership.release }
  | some i =>
    match s.slot i with
    | .scalar n =>
      match n.isPositive?, n.add? (-1) with
      | some true, some m => .ok (s.setSlot i (.scalar m))
      | some false, _ => .ok s
      | _, _ => .error .wrongType
    | _ => .error .wrongType

/-- Does exactly one message own the storage? -/
def isUnique (c : ClassPlan) (s : Storage) : Bool :=
  match c.ownersSlot? with
  | none => s.ownership.isUnique
  | some i =>
    match s.slot i with
    | .scalar n => n.equal (.int 1)
    | _ => false

def markEscaped (c : ClassPlan) (s : Storage) : Storage :=
  match c.escapedSlot? with
  | none => { s with ownership := s.ownership.markEscaped }
  | some i => s.setSlot i (.scalar (.bool true))

end Storage

namespace Storing

def storage (ref : Nat) : Storing Storage := do
  match (← get).storages[ref]? with
  | some s => return s
  | none => throw .missingKey

def changeStorage (ref : Nat) (f : Storage → Except Fault Storage) : Storing Unit := do
  let changed ← ofExcept (f (← storage ref))
  modify (·.updateStorage ref fun _ => changed)

end Storing

end Missive
