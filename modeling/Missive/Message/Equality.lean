import Missive.Message.Traverse

/-!
# Equality

Two messages are equal if they have the same class and equal slots, unknown fields and extensions.
Lists compare in order and maps without regard to it; numbers compare by value. Messages that were
read from the same object, or from objects that share their storage, need no comparison of slots. A
float that is no number is not even equal to itself, unless both come from one setting of an
extension.

A message that holds any other one compares its content as a message where both sides have one of
the same class, and otherwise by its bytes. Getting at the bytes may fail, so a comparison may. It
also fails where a class has the name of the comparison for something else, or where a loose
attribute hides what is compared. Other loose attributes are not compared.
-/

namespace Missive

open Plan

def Head.sameObject (a b : Head) : Bool :=
  match a.origin, b.origin with
  | some x, some y => x.object == y.object
  | _, _ => false

def Head.sameStorage (a b : Head) : Bool :=
  match a.origin.bind (·.storage), b.origin.bind (·.storage) with
  | some x, some y => x == y
  | _, _ => false

def Head.sameSetting (a b : Head) (number : Int) : Bool :=
  match a.origin.bind (·.marks.lookup number), b.origin.bind (·.marks.lookup number) with
  | some x, some y => x == y
  | _, _ => false

/-- Do all comparisons hold? The first that does not ends the comparison. -/
def allEqual : List (Except Fault Bool) → Except Fault Bool
  | [] => .ok true
  | first :: rest => do if ← first then allEqual rest else return false

def Value.type? : Value → Option TypeId
  | .message head _ _ _ => some head.type
  | _ => Option.none

def Value.takes (p : Program) (name : String) (v : Value) : Bool :=
  (v.type?.map fun t => p.takes t name).getD false

/-- Is a scalar a float that is no number? -/
def Scalar.isNaN : Scalar → Bool
  | .float x => x.isNaN
  | _ => false

def Value.isNaN : Value → Bool
  | .scalar s => s.isNaN
  | _ => false

/-- Are two values one object, which a comparison inside a container does not look into? -/
def Value.isSame : Value → Value → Bool
  | .message a _ _ _, .message b _ _ _ => a.sameObject b
  | .case a _ _, .case b _ _ => a.origin.isSome && a.origin == b.origin
  | _, _ => false

def Scalar.sameType : Scalar → Scalar → Bool
  | .none, .none => true
  | .bool _, .bool _ => true
  | .int _, .int _ => true
  | .float _, .float _ => true
  | .bytes _, .bytes _ => true
  | .text _, .text _ => true
  | _, _ => false

def Value.sameType : Value → Value → Bool
  | .scalar a, .scalar b => a.sameType b
  | .list _, .list _ => true
  | .tuple _, .tuple _ => true
  | .map readOnly _, .map readOnly' _ => readOnly == readOnly'
  | .case a _ _, .case b _ _ => a.owner == b.owner && a.slot == b.slot
  | .message a _ _ _, .message b _ _ _ => a.type == b.type
  | _, _ => false

/-- Are two values one object, as far as can be told? There is only one absent value, and one of
each bool and small number. -/
def Value.isIdentical : Value → Value → Bool
  | .scalar .none, .scalar .none => true
  | .scalar (.bool a), .scalar (.bool b) => a == b
  | .scalar (.int a), .scalar (.int b) => a == b && -5 ≤ a && a ≤ 256
  | a, b => a.isSame b

/-- Compares the slots of messages that hold any other one, given the comparison of each slot. -/
def Any.slotsEqual (p : Program) (a b : List Value) (slots : List (Except Fault Bool)) :
    Except Fault Bool :=
  match a, b, slots with
  | _ :: _ :: contentA :: _, _ :: _ :: contentB :: _, url :: _ :: content :: _ => do
    if !(← url) then return false
    if contentA.isPresent && contentA.sameType contentB then content
    else
      let x ← Any.valueBytes p (a.map p.walk)
      let y ← Any.valueBytes p (b.map p.walk)
      match x, y with
      | .scalar x, .scalar y => return x.equal y
      | _, _ => return false
  | _, _, _ => .ok false

/-- Compares what two slots hold, given whether the values are equal. Slots are compared by asking
whether they differ, and a class may have that name for something else. -/
def slotEqual (p : Program) (a b : Value) (same : Except Fault Bool) : Except Fault Bool :=
  if a.takes p "__ne__" || b.takes p "__ne__" then .error .wrongType else same

/-- Something that a message was given is never equal to the data whose place it has taken. -/
def givenEqual (p : Program) (given : Value) : Except Fault Bool :=
  if given.takes p "__ne__" || given.takes p "__eq__" then .error .wrongType else .ok false

/-- What is compared of a message apart from its slots. -/
structure Compared where
  head : Head
  slots : List Value
  extensions : List (Extension × Value)
  loose : List (String × Value)

namespace Compared

/-- Compares what two messages have under a name for the data of all messages, given the comparison
of the data and those of the loose attributes that both have. -/
def dataEqual (p : Program) (name : String) (a b : Compared) (data : Except Fault Bool)
    (given : List (String × Except Fault Bool)) : Except Fault Bool :=
  match given.lookup name, a.loose.lookup name, b.loose.lookup name with
  | some same, _, _ => same
  | none, some v, _ => givenEqual p v
  | none, none, some v => givenEqual p v
  | none, none, none => data

/-- Have two messages one storage? -/
def sameStorage (a b : Compared) : Bool :=
  match a.loose.lookup storageName, b.loose.lookup storageName with
  | none, none => a.head.sameStorage b.head
  | some v, some w => v.isIdentical w
  | _, _ => false

/-- Compares the fields of two messages of a class, given the comparisons of their slots. Without
its storage a message has none. -/
def fieldsEqual (p : Program) (c : ClassPlan) (a b : Compared) (slots : List (Except Fault Bool)) :
    Except Fault Bool :=
  if !c.isIndirected then allEqual slots
  else if a.sameStorage b then .ok true
  else if a.loose.any (·.1 == storageName) || b.loose.any (·.1 == storageName) then
    if c.isAny || !c.slots.isEmpty then .error .noAttribute else .ok true
  else if c.isAny then Any.slotsEqual p a.slots b.slots slots
  else allEqual slots

/-- Compares two messages of one class, given the comparisons of their slots, of their extensions
and of their loose attributes. -/
def messagesEqual (p : Program) (a b : Compared) (slots : List (Except Fault Bool))
    (extensions : Except Fault Bool) (given : List (String × Except Fault Bool)) :
    Except Fault Bool :=
  if a.loose.any (·.1 == "_protobuf_generated_is_equal_to") then .error .wrongType
  else
    match p.plan? a.head.type with
    | none => .error .abstract
    | some c => do
      if !(← fieldsEqual p c a b slots) then return false
      let sameUnknown := .ok (a.head.unknown == b.head.unknown)
      if !(← dataEqual p unknownName a b sameUnknown given) then return false
      if !c.isExtensible then return true
      let missing (x : Compared) := x.head.bare && !x.loose.any (·.1 == extensionsName)
      if missing a || missing b then throw .noAttribute
      dataEqual p extensionsName a b extensions given

end Compared

mutual

def equal (p : Program) : Value → Value → Except Fault Bool
  | .scalar a, .scalar b => .ok (a.equal b)
  | .list a, .list b => if a.length = b.length then equalItems p a b else .ok false
  | .tuple a, .tuple b => if a.length = b.length then equalItems p a b else .ok false
  | .map _ a, .map _ b => if a.length = b.length then equalEntries p a b else .ok false
  | .case s a _, .case t b _ =>
    if s.owner == t.owner && s.slot == t.slot && s.number.equal t.number then equal p a b
    else .ok false
  | .message a slots extensions loose, .message b slots' extensions' loose' =>
    if p.takes a.type "__eq__" || p.takes b.type "__eq__" then .error .wrongType
    else if a.type != b.type then .ok false
    else if a.sameObject b then .ok true
    else
      Compared.messagesEqual p ⟨a, slots, extensions, loose⟩ ⟨b, slots', extensions', loose'⟩
        (equalSlots p slots slots')
        (if extensions.length = extensions'.length then equalExtensions p a b extensions extensions'
         else .ok false)
        (equalLoose p loose loose')
  | .loop, _ => .error .endless
  | _, .loop => .error .endless
  | .message a _ _ _, _ => if p.takes a.type "__eq__" then .error .wrongType else .ok false
  | _, .message b _ _ _ => if p.takes b.type "__eq__" then .error .wrongType else .ok false
  | _, _ => .ok false
termination_by structural v => v

def equalSlots (p : Program) : List Value → List Value → List (Except Fault Bool)
  | a :: as, b :: bs => slotEqual p a b (equal p a b) :: equalSlots p as bs
  | _, _ => []
termination_by structural v => v

/-- Compares the items of containers. -/
def equalItems (p : Program) : List Value → List Value → Except Fault Bool
  | a :: as, b :: bs => do
    if a.isSame b then equalItems p as bs
    else if ← equal p a b then equalItems p as bs
    else return false
  | _, _ => .ok true
termination_by structural v => v

/-- Does another map have every entry of a map? -/
def equalEntries (p : Program) : List (Key × Value) → List (Key × Value) → Except Fault Bool
  | [], _ => .ok true
  | (key, a) :: rest, other =>
    match atKey? key other with
    | none => .ok false
    | some b => do
      if a.isSame b then equalEntries p rest other
      else if ← equal p a b then equalEntries p rest other
      else return false
termination_by structural v => v

/-- Are the extensions of a message set to equal values in another one? -/
def equalExtensions (p : Program) (head head' : Head) :
    List (Extension × Value) → List (Extension × Value) → Except Fault Bool
  | [], _ => .ok true
  | (e, a) :: rest, other =>
    match other.find? fun (e', _) => e'.number == e.number with
    | none => .ok false
    | some (e', b) =>
      if e = e' then do
        if (head.sameSetting head' e.number && a.isNaN) || a.isSame b then
          equalExtensions p head head' rest other
        else if ← equal p a b then equalExtensions p head head' rest other
        else return false
      else .ok false
termination_by structural v => v

/-- Compares the loose attributes that two messages or cases both have. -/
def equalLoose (p : Program) :
    List (String × Value) → List (String × Value) → List (String × Except Fault Bool)
  | [], _ => []
  | (name, a) :: rest, other =>
    match other.lookup name with
    | none => equalLoose p rest other
    | some b => (name, slotEqual p a b (equal p a b)) :: equalLoose p rest other
termination_by structural v => v

end

def differ (p : Program) (a b : Value) : Except Fault Bool := do
  return !(← slotEqual p a b (equal p a b))

end Missive
