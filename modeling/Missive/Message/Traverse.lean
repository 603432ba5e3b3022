import Missive.Message.Part
import Missive.Message.Program
import Missive.Message.Unknown

/-!
# Walking over messages

The items of a message follow from its plan: each visit of the plan gives the items of a slot or of
the extensions in a range.

A message that holds any other one keeps its content as a message until the bytes are needed; they
are then those that the content is written as.

Setters do not check types, so a case of a oneof may stand where a message is expected. It can be
walked over as a message can, but it cannot be written as one. Neither can a message whose method to
do so is hidden by a loose attribute.
-/

namespace Missive

open Plan

abbrev Walked := Part (List Item)

/-! ## Cases -/

def withinBounds (bounds : Option (Int × Int)) (number : Scalar) : Except Fault Bool :=
  match bounds with
  | none => .ok true
  | some (start, stop) => number.between start stop

/-- The items of the active member of a oneof, given its value and what a walk over it meets. -/
def memberItems (m : MemberPlan) (value : Value) (content wire : List Item) : List Item :=
  match m.kind with
  | .scalar type _ => [.scalar m.number type value]
  | .message true _ _ => [.group m.number content]
  | .message false _ _ => [.message m.number wire]
  | .entry _ => [.scalar m.number .message value]

/-- The items of a case within bounds. A number without a member has none. -/
def boundedItems (o : OneofPlan) (bounds : Option (Int × Int)) (number : Scalar) (value : Value)
    (content wire : List Item) : List Item :=
  match withinBounds bounds number with
  | .error f => [.fault f]
  | .ok false => []
  | .ok true => ((o.memberOf? number).map fun m => memberItems m value content wire).getD []

def wireMarks : Walked → List Item
  | .case source _ _ => [.unwritable (source.uncallable "serialize")]
  | .message source _ => if source.replaces "serialize" then [.unwritable .wrongType] else []
  | _ => []

/-- The items of a value that is walked over as a message. -/
def Program.content (p : Program) : Walked → List Item
  | .message _ items => items
  | .case source tag w =>
    let inner := p.content w
    match p.oneof? tag with
    | some o =>
      if source.replaces "traverse" then [.fault .wrongType]
      else boundedItems o none tag.number w.source inner (wireMarks w ++ inner)
    | none => []
  | .plain .loop => [.fault .endless]
  | _ => [.fault .noAttribute]

def Program.wireContent (p : Program) (w : Walked) : List Item := wireMarks w ++ p.content w

/-! ## Messages that hold any other one -/

namespace Any

def contentBytes (p : Program) (w : Walked) : Except Fault Bytes :=
  (Item.writeAll (p.wireContent w)).toExcept

/-- The bytes of the content: the ones that are known, or the ones that it is written as. -/
def valueBytes (p : Program) (slots : List Walked) : Except Fault Value :=
  match slots with
  | _ :: data :: content :: _ =>
    if data.source.isPresent then .ok data.source else do return .bytes (← contentBytes p content)
  | _ => .error .noAttribute

end Any

/-- The value of a slot, where it is kept. -/
def walkedAt (p : Program) (c : ClassPlan) (slots : List Walked) (index : Nat) :
    Except Fault Walked :=
  match c.place index with
  | .slot i => ((slots[i]?).map Except.ok).getD (.error .noAttribute)
  | .packed => do return .plain (← Any.valueBytes p slots)
  | .missing => .error .noAttribute

/-! ## Fields -/

def messageItem (p : Program) (group : Bool) (number : Int) (w : Walked) : Item :=
  if group then .group number (p.content w) else .message number (p.wireContent w)

def repeatedItem (number : Int) (type : FieldType) (packed : Bool) (w : Walked) : Item :=
  match w.source.elements? with
  | some values => .repeated number type packed values
  | none => .fault .wrongType

def repeatedMessageItems (p : Program) (group : Bool) (number : Int) (w : Walked) : List Item :=
  match w.elements? with
  | some items => items.map (messageItem p group number)
  | none => [.fault .wrongType]

def mapItem (p : Program) (number : Int) (key value : FieldType) (w : Walked) : Item :=
  match w with
  | .map (.map _ source) _ entries =>
    .map number key value source (entries.map fun (_, v) => p.wireContent v)
  | _ => .fault .noAttribute

def fieldItems (p : Program) (f : FieldPlan) (w : Walked) : List Item :=
  match f.kind with
  | .scalar type presence _ =>
    if if presence then w.source.isPresent else w.source.truthy then
      [.scalar f.number type w.source]
    else []
  | .repeated type packed =>
    if w.source.truthy then [repeatedItem f.number type packed w] else []
  | .message group _ => if w.source.isPresent then [messageItem p group f.number w] else []
  | .repeatedMessage group _ =>
    if w.source.truthy then repeatedMessageItems p group f.number w else []
  | .map key value _ => if w.source.truthy then [mapItem p f.number key value w] else []

/-- The items of a oneof, if its case is within bounds. What is no case at all has to be a message,
which knows no bounds. -/
def caseItems (p : Program) (o : OneofPlan) (bounds : Option (Int × Int)) : Walked → List Item
  | .case source tag w =>
    if source.replaces "traverse" then [.fault .wrongType]
    else boundedItems o bounds tag.number w.source (p.content w) (p.wireContent w)
  | .plain (.scalar .none) => []
  | .message _ items => if bounds.isNone then items else [.fault .wrongType]
  | w => p.content w

def extensionItems (p : Program) (e : Extension) (w : Walked) : List Item :=
  match e.type, e.repeated with
  | .message, true => repeatedMessageItems p false e.number w
  | .message, false => [messageItem p false e.number w]
  | .group, true => repeatedMessageItems p true e.number w
  | .group, false => [messageItem p true e.number w]
  | type, true => [repeatedItem e.number type e.packed w]
  | type, false => [.scalar e.number type w.source]

/-- The items of the extensions in a range, by number, after the mark of the range. -/
def rangeItems (p : Program) (start stop : Int) (extensions : List (Extension × Walked)) :
    List Item :=
  let inside := extensions.filter fun (e, _) => start ≤ e.number && e.number < stop
  let sorted := sortBy (fun a b => decide (a.1.number ≤ b.1.number)) inside
  .extensions start stop :: sorted.flatMap fun (e, w) => extensionItems p e w

/-- The items of something that a message was given in place of its extensions, in a range. -/
def replacedItems (p : Program) (start stop : Int) : Walked → List Item
  | .case source tag w =>
    match p.oneof? tag with
    | some o => caseItems p o (some (start, stop)) (.case source tag w)
    | none => []
  | .message _ _ => [.fault .wrongType]
  | _ => [.fault .noAttribute]

def extendedItems (p : Program) (start stop : Int) : Extended Walked → List Item
  | .usual extensions => rangeItems p start stop extensions
  | .replaced given => .extensions start stop :: replacedItems p start stop given
  | .missing => [.fault .noAttribute]

def slotItems (p : Program) (c : ClassPlan) (slots : List Walked) (index : Nat)
    (bounds : Option (Int × Int)) : List Item :=
  match walkedAt p c slots index, c.slots[index]? with
  | .error f, _ => [.fault f]
  | .ok w, some (.oneof o) => caseItems p o bounds w
  | .ok w, some (.field f) => fieldItems p f w
  | .ok _, none => []

def visitItems (p : Program) (c : ClassPlan) (slots : List Walked) (extensions : Extended Walked) :
    Visit → List Item
  | .field index => slotItems p c slots index none
  | .oneof index bounds => slotItems p c slots index bounds
  | .extensions start stop => extendedItems p start stop extensions

/-- The slots of a message after a visit. The bytes of the content of a message that holds any other
one are known once they were needed. -/
def slotsAfter (p : Program) (c : ClassPlan) (slots : List Walked) : Visit → List Walked
  | .extensions _ _ => slots
  | .field index | .oneof index _ =>
    match c.place index with
    | .packed =>
      match Any.valueBytes p slots with
      | .ok data => slots.set 1 (.plain data)
      | .error _ => slots
    | _ => slots

/-- The items of visits in a row. -/
def visitAll (p : Program) (c : ClassPlan) (extensions : Extended Walked) :
    List Walked → List Visit → List Item
  | _, [] => []
  | slots, v :: rest =>
    visitItems p c slots extensions v ++ visitAll p c extensions (slotsAfter p c slots v) rest

/-! ## Messages -/

def unknownItems (p : Program) (head : Head) (loose : List (String × Walked)) : List Item :=
  match loose.lookup unknownName with
  | some given => p.content given
  | none => (Unknown.mk head.unknown).items

/-- The items of a message, up to the first fault of the walk over its fields. -/
def Program.summarizeItems (p : Program) : Summarize (List Item) :=
  fun head slots extensions loose =>
    if (loose.lookup "traverse").isSome then [.fault .wrongType]
    else
      match p.plan? head.type with
      | none => [.fault .abstract]
      | some c =>
        visitAll p c (.ofLoose head.bare extensions loose) slots c.visits ++ unknownItems p head loose

def Program.walk (p : Program) (v : Value) : Walked := v.part p.summarizeItems

def Program.items (p : Program) (v : Value) : List Item := p.content (p.walk v)

def Program.serialize (p : Program) (v : Value) : Except Fault Bytes :=
  (Item.writeAll (p.wireContent (p.walk v))).toExcept

end Missive
