import Missive.Store.Access

/-!
# Items of containers

Lists and maps that were given out are read and changed item by item. A position in a list may count
from its end. Tuples and read-only maps can be read, and nothing else.
-/

namespace Missive.Storing

def position (key : Cell) (length : Nat) : Storing Nat := do
  match key with
  | .scalar s => ofExcept (s.position length)
  | _ => throw .wrongType

def itemAt (items : List Cell) (key : Cell) : Storing Cell := do
  return items.getD (← position key items.length) .none

def entryAt (entries : List (Key × Cell)) (key : Cell) : Storing Cell := do
  match atKey? (← asKey key) entries with
  | some c => return c
  | none => throw .missingKey

/-- An item of a container; the item itself, not a copy. -/
def getItem (c key : Cell) : Storing Cell := do
  match c with
  | .list ref => itemAt ((← get).list ref) key
  | .tuple items => itemAt items key
  | .map ref => entryAt ((← get).map ref) key
  | .frozen entries => entryAt entries key
  | .scalar (.text _) | .scalar (.bytes _) => itemAt (← elements c) key
  | _ => throw .wrongType

/-- Replaces an item of a list, or stores a value under a key of a map. -/
def setItem (c key value : Cell) : Storing Unit := do
  match c with
  | .list ref =>
    let items := (← get).list ref
    let index ← position key items.length
    modify (·.setList ref (items.set index value))
  | .map ref =>
    let key ← asKey key
    modify fun s => s.setMap ref (putEntry key value (s.map ref))
  | _ => throw .wrongType

/-- Removes an item of a list, or a key of a map. -/
def deleteItem (c key : Cell) : Storing Unit := do
  match c with
  | .list ref =>
    let items := (← get).list ref
    let index ← position key items.length
    modify (·.setList ref (items.eraseIdx index))
  | .map ref =>
    match dropEntry? (← asKey key) ((← get).map ref) with
    | some entries => modify (·.setMap ref entries)
    | none => throw .missingKey
  | _ => throw .wrongType

/-- The name of the member that a case holds: what the map of the names of the members has under its
number. A loose attribute may have taken the place of the map. -/
def caseMember (p : Program) (ref : Nat) : Storing Cell := do
  let c ← caseObject ref
  if let some number := c.loose.lookup Plan.numberName then
    let _ ← asKey number
    throw .missingKey
  match c.loose.lookup Plan.membersName, (← get).members.lookup (c.owner, c.slot) with
  | some given, _ => getItem given (.scalar c.number)
  | none, some names => getItem (.map names) (.scalar c.number)
  | none, none => place p (← ofExcept (p.memberName (c.tag ref) []))

def checkList : Cell → Storing Unit
  | .list _ => return
  | _ => throw .noAttribute

def append (c value : Cell) : Storing Unit := do
  match c with
  | .list ref => modify fun s => s.setList ref (s.list ref ++ [value])
  | _ => throw .noAttribute

end Missive.Storing
