import Missive.Message.Traverse

/-!
# Shown values

What an answer shows of a value. Of a message it shows the full name of its type and what the
message is written as, or the fault that writing it meets. Of a case it shows the oneof and the
member, so a case whose number has no member cannot be shown. Names are shown as loose attributes
give them, if they do.
-/

namespace Missive

open Plan

/-- What is shown of a value. -/
inductive Shown where
  | scalar (s : Scalar)
  | list (items : List Shown)
  | map (entries : List (Shown × Shown))
  | case (oneof : Shown) (number : Scalar) (member : Shown) (value : Shown)
  | message (fullName : Shown) (data : Except Fault Bytes)

instance : Inhabited Shown := ⟨.scalar .none⟩

mutual

def Key.shown : Key → Shown
  | .scalar s => .scalar s
  | .tuple items => .list (Key.shownAll items)

def Key.shownAll : List Key → List Shown
  | [] => []
  | k :: rest => k.shown :: Key.shownAll rest

end

def Value.shownName : Value → Except Fault Shown
  | .scalar s => .ok (.scalar s)
  | _ => .error .wrongType

mutual

def Program.show (p : Program) : Value → Except Fault Shown
  | .scalar s => .ok (.scalar s)
  | .list items => do return .list (← p.showAll items)
  | .tuple items => do return .list (← p.showAll items)
  | .map _ entries => do return .map (← p.showEntries entries)
  | .case tag v loose => do
    let declared := ((p.oneof? tag).map (·.declared)).getD ""
    let oneof ← p.showLoose oneofName declared loose
    let member ← (← p.memberName tag loose).shownName
    return .case oneof tag.number member (← p.show v)
  | .message head slots extensions loose => do
    let name ← p.showLoose fullNameName (p.fullName head.type) loose
    return .message name (p.serialize (.message head slots extensions loose))
  | .loop => .error .endless

def Program.showAll (p : Program) : List Value → Except Fault (List Shown)
  | [] => .ok []
  | v :: rest => do
    let first ← p.show v
    return first :: (← p.showAll rest)

def Program.showEntries (p : Program) : List (Key × Value) → Except Fault (List (Shown × Shown))
  | [] => .ok []
  | (key, v) :: rest => do
    let value ← p.show v
    return (key.shown, value) :: (← p.showEntries rest)

/-- What is shown of a loose attribute, or else of a text. -/
def Program.showLoose (p : Program) (name usual : String) :
    List (String × Value) → Except Fault Shown
  | [] => .ok (.scalar (.text usual))
  | (n, v) :: rest => if n == name then p.show v else p.showLoose name usual rest

end

/-! ## Traces -/

/-- What a trace shows of a walk over a message. -/
inductive Event where
  | scalar (number : Int) (type : FieldType) (value : Shown)
  | message (number : Int) (content : List Event)
  | group (number : Int) (content : List Event)
  | map (number : Int) (key value : FieldType) (entries : Shown)
  | extensions (start stop : Int)
  | unknown (data : Bytes)

instance : Inhabited Event := ⟨.unknown []⟩

mutual

def Program.events (p : Program) : Item → Except Fault (List Event)
  | .scalar number type v => do return [.scalar number type (← p.show v)]
  | .repeated number type _ values => do
    return (← p.showAll values).map (.scalar number type)
  | .message number content => do return [.message number (← p.eventsOf content)]
  | .group number content => do return [.group number (← p.eventsOf content)]
  | .map number key value entries _ => do
    return [.map number key value (.map (← p.showEntries entries))]
  | .extensions start stop => .ok [.extensions start stop]
  | .unknown data => .ok [.unknown data]
  | .unwritable _ => .ok []
  | .fault f => .error f

/-- The events of a walk, unless it meets a fault. -/
def Program.eventsOf (p : Program) : List Item → Except Fault (List Event)
  | [] => .ok []
  | item :: rest => do
    let first ← p.events item
    return first ++ (← p.eventsOf rest)

end

end Missive
