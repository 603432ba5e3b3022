import Missive.Message.Complete
import Missive.Message.TypeUrl
import Missive.Store.Literal

/-!
# Merging into objects

Serialized data is merged into an object in three steps: the value of the object is read, the data
is decoded into the value, and the outcome is written back. Writing back follows the value and the
object side by side. Where data was decoded into a message, its storage is first made its own; what
was there keeps its identity, lists grow in place, and new messages become new objects.
-/

namespace Missive

open Plan

def Cell.sameScalar : Cell → Cell → Bool
  | .scalar a, .scalar b => a == b
  | _, _ => false

/-- The marks of extensions after some of them were set anew: only scalars that stayed what they
were keep theirs. -/
def keptMarks (mark : Nat) (old : Object) (extensions : List (Extension × Cell)) :
    List (Int × Nat) :=
  extensions.map fun (e, c) =>
    match old.extensions.find? fun (e', _) => e'.number == e.number with
    | some (_, before) =>
      (e.number, if before.sameScalar c then (old.marks.lookup e.number).getD mark else mark)
    | none => (e.number, mark)

namespace Storing

mutual

def writeBack (p : Program) : Cell → Value → Storing Cell
  | _, .scalar s => return .scalar s
  | .list ref, .list items => do
    let old := (← get).list ref
    let added ← addedItems p old items
    modify (·.setList ref (old ++ added))
    return .list ref
  | .map ref, .map _ entries => do
    let merged ← writeEntries p ((← get).map ref) entries
    modify (·.setMap ref merged)
    return .map ref
  | .case ref, .case tag v _ => do
    let c ← caseObject ref
    let value ← writeBack p c.value v
    if tag.origin == some ref then
      modify (·.setCase ref { c with value })
      return .case ref
    addCase { owner := tag.owner, slot := tag.slot, number := tag.number, value }
  | .message ref, .message head slots extensions loose => do
    if head.origin.isNone then
      let slots ← placeList p slots
      return ← newMessage p head slots (← placeExtensions p extensions)
    if !head.merged then return .message ref
    if ((p.plan? head.type).map (·.writesFields)).getD false then unique p ref
    let o ← object ref
    let given ← writeLoose p o.loose loose
    modify (·.updateObject ref fun o =>
      { o with unknown := head.unknown, loose := List.zipWith (fun l c => (l.1, c)) o.loose given })
    let cells ← writeSlots p ((← get).slots o) slots
    let stored ← writeExtensions p o.extensions extensions
    let mark ← newMark
    modify (·.updateObject ref fun now =>
      { now with extensions := stored, marks := keptMarks mark o stored })
    changeSlots ref fun _ => cells
    return .message ref
  | .tuple items, .tuple _ => return .tuple items
  | .frozen entries, .map _ _ => return .frozen entries
  | c, .loop => return c
  | _, v => place p v

def addedItems (p : Program) : List Cell → List Value → Storing (List Cell)
  | _ :: old, _ :: items => addedItems p old items
  | [], v :: items => do
    let c ← place p v
    return c :: (← addedItems p [] items)
  | _, [] => return []

def writeSlots (p : Program) : List Cell → List Value → Storing (List Cell)
  | c :: cells, v :: values => do
    let written ← writeBack p c v
    return written :: (← writeSlots p cells values)
  | _, _ => return []

/-- Writes the entries of a map back. Only new messages and scalars replace what was there. -/
def writeEntries (p : Program) :
    List (Key × Cell) → List (Key × Value) → Storing (List (Key × Cell))
  | old, (key, v) :: entries => do
    let c ← match atKey? key old with
      | some c => writeBack p c v
      | none => place p v
    return (key, c) :: (← writeEntries p old entries)
  | _, [] => return []

def writeExtensions (p : Program) :
    List (Extension × Cell) → List (Extension × Value) → Storing (List (Extension × Cell))
  | old, (e, v) :: extensions => do
    let c ← match old.find? fun (e', _) => e'.number == e.number with
      | some (_, c) => writeBack p c v
      | none => place p v
    return (e, c) :: (← writeExtensions p old extensions)
  | _, [] => return []

def writeLoose (p : Program) :
    List (String × Cell) → List (String × Value) → Storing (List Cell)
  | (_, c) :: old, (_, v) :: values => do
    let written ← writeBack p c v
    return written :: (← writeLoose p old values)
  | _, _ => return []

end

def contentOf (c : Cell) : Storing Content := do
  match Content.ofValue? (← view c) with
  | some m => return m
  | none => throw .noAttribute

/-- Merges serialized data into a message. What was decoded before a fault stays. -/
def merge (p : Program) (table : Option ExtensionTable) (c : Cell) (data : Bytes) :
    Storing Unit := do
  let m ← contentOf c
  if m.replaces "merge_from_bytes" then throw .wrongType
  let (merged, fault) := mergeBytes p table m data
  let _ ← writeBack p c merged.value
  match fault with
  | some f => throw f
  | none => return

/-- A new message of a class, read from serialized data. Unless it may be incomplete, it has to have
its required fields. -/
def parse (p : Program) (table : Option ExtensionTable) (t : TypeId) (data : Bytes)
    (allowIncomplete : Bool) : Storing Cell := do
  let m ← ofExcept (Missive.parse p table t data)
  if !allowIncomplete then
    if !(← ofExcept (p.isComplete m.value)) then throw (.incomplete (p.fullName t))
  place p m.value

/-! ## Messages that hold any other one -/

/-- Only messages that hold any other one can pack and unpack. -/
def checkAny (p : Program) (o : Object) (method : String) : Storing Unit := do
  checkMethod o method
  match p.plan? o.type with
  | none => throw .noAttribute
  | some c => if !c.isAny then throw c.missing

/-- Packs a copy of a message. The bytes of the content are not known until they are needed. -/
def pack (p : Program) (ref : Nat) (c : Cell) (host : String) : Storing Unit := do
  unique p ref
  let name ← match c with
    | .message packed => getAttribute p packed fullNameName
    | .case packed =>
      match (← caseObject packed).loose.lookup fullNameName with
      | some given => pure given
      | none => throw .noAttribute
    | _ => throw .noAttribute
  let url := TypeUrl.ofName host (← display p name)
  setSlot ref Any.urlSlot (.scalar (.text url))
  setSlot ref Any.dataSlot .none
  setSlot ref Any.contentSlot (← copy p c)

/-- The full name of the type of the content. -/
def packedName (ref : Nat) : Storing String := do
  match ← slot ref Any.urlSlot with
  | .scalar (.text url) => return TypeUrl.typeName url
  | .scalar (.bytes _) => throw .wrongType
  | _ => throw .noAttribute

def holds (p : Program) (ref : Nat) (t : TypeId) : Storing Bool := do
  return (← packedName ref) == p.fullName t

/-- The content as a message of a class: a copy of the message that was packed, or a new one that is
read from the bytes. -/
def unpack (p : Program) (table : Option ExtensionTable) (ref : Nat) (t : TypeId) :
    Storing Cell := do
  let held ← packedName ref
  if held != p.fullName t then throw (.otherContent held (p.fullName t))
  let content ← slot ref Any.contentSlot
  let isInstance ← match content with
    | .message packed => do pure (t == p.baseType || (← object packed).type == t)
    | _ => pure false
  if isInstance then return ← copy p content
  match ← anyBytes p ref with
  | .scalar (.bytes data) => parse p table t data true
  | _ => throw .wrongType

end Storing

end Missive
