import Missive.Message.Missing
import Missive.Message.Traverse
import Missive.Wire.Cursor

/-!
# Decoding messages

Decoding reads the fields of serialized data one by one and puts each where the plan of the class
routes its number. It works on the message and the cursor together, and a fault leaves both as they
were when it happened: what was decoded before stays.

A nested message is decoded into the one that is there, or into a new one, which is kept only if
decoding it succeeds. The class of a new one is what the reference to it means among the variables
of the decoder; the reference is evaluated before the field is read, and its meaning is used only if
a new message is needed. Nesting is limited by the cursor, so a bound on the number of levels bounds
the recursion.
-/

namespace Missive

open Plan

abbrev ExtensionTable := List Extension

def ExtensionTable.find? (t : ExtensionTable) (extended : TypeId) (number : Int) :
    Option Extension :=
  List.find? (fun e => e.extended == extended && e.number == number) t

/-- The content of a message. -/
structure Content where
  head : Head
  slots : List Value
  extensions : List (Extension × Value)
  loose : List (String × Value) := []

namespace Content

def value (c : Content) : Value := .message c.head c.slots c.extensions c.loose

def ofValue? : Value → Option Content
  | .message head slots extensions loose => some ⟨head, slots, extensions, loose⟩
  | _ => none

def replaces (c : Content) (name : String) : Bool := (c.loose.lookup name).isSome

/-- Changes a loose attribute. -/
def setLoose (name : String) (v : Value) (c : Content) : Content :=
  { c with loose := c.loose.map fun (n, old) => if n == name then (n, v) else (n, old) }

def slot (c : Content) (index : Nat) : Value := c.slots.getD index .none

def setSlot (c : Content) (index : Nat) (v : Value) : Content :=
  { c with slots := c.slots.set index v }

/-- What a slot of a class holds, where it is kept. -/
def read (p : Program) (plan : ClassPlan) (index : Nat) (c : Content) : Except Fault Value :=
  match plan.place index with
  | .slot i => .ok (c.slot i)
  | .packed => Any.valueBytes p (c.slots.map p.walk)
  | .missing => .error .noAttribute

/-- Stores a value in a slot of a class, where it is kept. New bytes of the content of a message
that holds any other one replace the content. -/
def write (plan : ClassPlan) (index : Nat) (v : Value) (c : Content) : Except Fault Content :=
  match plan.place index with
  | .slot i => .ok (c.setSlot i v)
  | .packed => do return (c.setSlot 1 (.bytes (← v.toBytes))).setSlot 2 .none
  | .missing => .error .noAttribute

def extension? (c : Content) (number : Int) : Option Value :=
  (c.extensions.find? fun (e, _) => e.number == number).map (·.2)

/-- Stores the value of an extension. A number that is there keeps its place. -/
def putExtension (e : Extension) (v : Value) :
    List (Extension × Value) → List (Extension × Value)
  | [] => [(e, v)]
  | (e', v') :: rest =>
    if e'.number == e.number then (e, v) :: rest else (e', v') :: putExtension e v rest

/-- Changes the stored value of a number, and nothing else. -/
def updateExtension (number : Int) (v : Value) (c : Content) : Content :=
  { c with extensions := c.extensions.map fun (e, v') =>
      if e.number == number then (e, v) else (e, v') }

end Content

abbrev Decoding := EStateM Fault (Content × Cursor)

def Cursor.ofExcept {α : Type} : Except Fault α → Reading α
  | .ok a => pure a
  | .error e => throw e

namespace Decoding

def reading {α : Type} (r : Reading α) : Decoding α := fun (m, c) =>
  match r c with
  | .ok a c => .ok a (m, c)
  | .error e c => .error e (m, c)

def content : Decoding Content := do return (← get).1

def update (f : Content → Content) : Decoding Unit := modify fun (m, c) => (f m, c)

def current (p : Program) (plan : ClassPlan) (index : Nat) : Decoding Value := do
  reading (Cursor.ofExcept ((← content).read p plan index))

def store (plan : ClassPlan) (index : Nat) (v : Value) : Decoding Unit := do
  let stored ← reading (Cursor.ofExcept ((← content).write plan index v))
  update fun _ => stored

end Decoding

/-- What a place holds after something was decoded into it, and the fault that ended the decoding,
if one did. -/
structure Placed where
  value : Value
  fault : Option Fault := none

def faultOf? {α : Type} : Except Fault α → Option Fault
  | .ok _ => none
  | .error f => some f

/-- Goes on unless there was a fault. -/
def Decoding.raise : Option Fault → Decoding Unit
  | none => pure ()
  | some f => throw f

def Content.ofValue (v : Value) : Except Fault Content :=
  ((Content.ofValue? v).map Except.ok).getD (.error (v.uncallable "decode_message"))

def Content.fresh (p : Program) (t : TypeId) : Except Fault Content := do
  Content.ofValue (← p.fresh t)

/-- The message that nested data is decoded into: the one that is there, or a new one. -/
def nestedTarget (p : Program) (target : Meaning) (existing : Value) : Except Fault Content := do
  if existing.isPresent then Content.ofValue existing else Content.fresh p (← target.toClass)

/-- Decodes nested data with a cursor of its own. A message that was there keeps what was decoded
before a fault. -/
def runNested (decode : Decoding Unit) (existing : Value) (start : Content) (c : Cursor) :
    Placed × Cursor :=
  match decode (start, c) with
  | .ok _ (m, c) => (⟨m.value, none⟩, c)
  | .error e (m, c) =>
    (⟨if existing.isPresent then m.value else existing, some e⟩, c)

/-- Takes the current field as a message that is merged into what is there. -/
def decodeMessageField (p : Program) (decode : Decoding Unit) (target : Meaning)
    (existing : Value) : Reading Placed := do
  let _ ← Cursor.take [.lengthDelimited]
  let payload ← Cursor.payload
  let start ← Cursor.ofExcept (nestedTarget p target existing)
  let inner ← Cursor.enter payload none
  return (runNested decode existing start inner).1

/-- Takes the current field as a group that is merged into what is there. The cursor moves on only
if the group could be decoded. -/
def decodeGroupField (p : Program) (decode : Decoding Unit) (target : Meaning) (existing : Value) : Reading Placed := do
  let _ ← Cursor.take [.startGroup]
  let c ← get
  let inner ← Cursor.enter c.rest c.field
  let start ← Cursor.ofExcept (nestedTarget p target existing)
  let (placed, inner) := runNested decode existing start inner
  if placed.fault.isNone then set { c with rest := inner.rest }
  return placed

/-- Takes the current field as a message or group. -/
def decodeNested (p : Program) (decode : Decoding Unit) (group : Bool) (target : Meaning)
    (existing : Value) : Reading Placed := do
  let target ← Cursor.ofExcept target.evaluated
  if group then decodeGroupField p decode target existing
  else decodeMessageField p decode target existing

/-! ## Maps -/

/-- The key and value of a map entry that were met so far. -/
structure EntryState where
  key : Scalar
  value : Value := .none

/-- How the values of a map are decoded. -/
inductive MapValue where
  | scalar (type : FieldType)
  | message (target : Meaning)

/-- How the values of a map with a reference to their class are decoded: as scalars, if there is no
reference or it means the absent value. -/
def MapValue.ofMeaning (type : FieldType) : Meaning → MapValue
  | .other .nothing => scalar type
  | target => message target

/-- Reads the fields of a map entry. Other fields than the key and the value are skipped. -/
def decodeEntry (p : Program) (decode : Decoding Unit) (key : FieldType) (value : MapValue) :
    (turns : Nat) → EntryState → Reading EntryState
  | 0, s => return s
  | turns + 1, s => do
    match ← Cursor.next with
    | none => return s
    | some 1 => decodeEntry p decode key value turns { s with key := ← Cursor.singular key }
    | some 2 =>
      match value with
      | .scalar type =>
        let v ← Cursor.singular type
        decodeEntry p decode key value turns { s with value := .scalar v }
      | .message target =>
        let placed ← decodeMessageField p decode target s.value
        match placed.fault with
        | some f => throw f
        | none => decodeEntry p decode key value turns { s with value := placed.value }
    | some _ => decodeEntry p decode key value turns s

/-- Takes the current field as an entry of a map. -/
def decodeMapField (p : Program) (decode : Decoding Unit) (key : FieldType) (value : MapValue) :
    Reading (Key × Value) := do
  let _ ← Cursor.take [.lengthDelimited]
  let payload ← Cursor.payload
  let inner ← Cursor.enter payload none
  match decodeEntry p decode key value (payload.length + 1) { key := key.default } inner with
  | .error e _ => throw e
  | .ok s _ =>
    if s.value.isPresent then return (.scalar s.key, s.value)
    match value with
    | .scalar type => return (.scalar s.key, .scalar type.default)
    | .message target =>
      return (.scalar s.key, ← Cursor.ofExcept do p.fresh (← target.toClass))

def Value.putKey (m : Value) (key : Key) (v : Value) : Except Fault Value :=
  match m with
  | .map readOnly entries => .ok (.map readOnly (putEntry key v entries))
  | _ => .error .wrongType

/-! ## Oneofs -/

/-- Takes the current field as a member of a oneof, among the variables of the oneof's decoder. A
message is merged into the one that is there. The result is the value of the new case. -/
def decodeMember (p : Program) (decode : Decoding Unit) (locals : Locals) (m : MemberPlan)
    (existing : Value) : Reading Placed := do
  match m.kind with
  | .scalar type _ => return ⟨.scalar (← Cursor.singular type), none⟩
  | .message group _ ref => decodeNested p decode group (ref.meaning locals) existing
  | .entry _ => return ⟨.scalar (← Cursor.singular .message), none⟩

def Value.caseNumber? : Value → Except Fault (Option Scalar)
  | .case tag _ _ => .ok (some tag.number)
  | .scalar .none => .ok Option.none
  | _ => .error .noAttribute

def Value.caseValue (number : Int) : Value → Except Fault Value
  | .case tag v _ => .ok (if tag.number.equal (.int number) then v else .none)
  | .scalar .none => .ok .none
  | _ => .error .noAttribute

def Value.caseLocal (v : Value) : Local := if v.isPresent then .unhashable else .nothing

/-- What the path behind the current case leads to, as far as it is a scalar. -/
def Value.named (v : Value) : List String → Except Fault Named
  | [] =>
    match v with
    | .scalar s => .ok (.scalar s)
    | _ => .error .wrongType
  | ["field_number"] => do
    match ← v.caseNumber? with
    | some number => return .scalar number
    | .none => .error .noAttribute
  | ["value"] =>
    match v with
    | .case _ (.scalar s) _ => .ok (.scalar s)
    | _ => .error .noAttribute
  | _ => .error .noAttribute

/-- The tag of a new case of a oneof of a message, and the oneof that decodes it. It is the oneof
itself, unless the message was given something under the name of its class: a case then decodes as
its own class does, and nothing else can. -/
def caseDecoder (p : Program) (plan : ClassPlan) (o : OneofPlan) (index : Nat) (number : Int)
    (m : Content) : Except Fault (CaseTag × OneofPlan) :=
  match m.loose.lookup (Naming.privateName plan.name o.className) with
  | none => .ok ({ owner := m.head.type, slot := index, number := .int number }, o)
  | some (.case tag v loose) =>
    match p.oneof? tag with
    | some other =>
      if (loose.lookup "by_decoding_from").isSome then .error .wrongType
      else .ok ({ owner := tag.owner, slot := tag.slot, number := .int number }, other)
    | none => .error ((Value.case tag v loose).uncallable "by_decoding_from")
  | some v => .error (v.uncallable "by_decoding_from")

/-- What a member of a oneof is decoded into: for a message, the one that is there under its number. -/
def Plan.MemberPlan.existing (m : MemberPlan) (current : Value) : Except Fault Value :=
  if m.kind.ref?.isSome then current.caseValue m.number else .ok .none

/-- Stores what was decoded as the case of a oneof. After a fault the case that was there keeps its
message, which may be partly decoded; another member that is set is a conflict. -/
def placeCase (p : Program) (plan : ClassPlan) (o : OneofPlan) (index : Nat) (made : CaseTag)
    (number : Int) (current existing : Value) (placed : Placed) : Decoding Unit :=
  match placed.fault <|> faultOf? (p.checkMember made) with
  | some f => do
    if let .case tag _ loose := current then
      if existing.isPresent then Decoding.store plan index (.case tag placed.value loose)
    throw f
  | none => do
    if let some active ← Decoding.reading (Cursor.ofExcept current.caseNumber?) then
      if !active.equal (.int number) then
        throw (.conflictingOneof o.declared active.display number)
    Decoding.store plan index (.case made placed.value [])

/-- Decodes a member of a oneof into its slot. A conflict is raised after the payload was read. -/
def decodeOneof (p : Program) (decode : Decoding Unit) (plan : ClassPlan) (o : OneofPlan)
    (index : Nat) (number : Int) : Decoding Unit := do
  let content ← Decoding.content
  let current ← Decoding.current p plan index
  let (made, decoder) ← Decoding.reading (Cursor.ofExcept (caseDecoder p plan o index number content))
  match decoder.member? number with
  | none =>
    let missing := Missing.of p made decoder number
    throw (← Decoding.reading (Cursor.ofExcept (missing.fault current.named)))
  | some m =>
    let existing ← Decoding.reading (Cursor.ofExcept (m.existing current))
    let locals := decoder.decoderLocals current.caseLocal
    let placed ← Decoding.reading (decodeMember p decode locals m existing)
    placeCase p plan o index made number current existing placed

/-! ## Fields -/

def Value.extend (more : List Value) : Value → Value
  | .list items => .list (items ++ more)
  | other => other

def Value.isList : Value → Bool
  | .list _ => true
  | _ => false

/-- Goes on only with a list, to which something can be added. -/
def Decoding.needList (v : Value) : Decoding Unit := do
  if !v.isList then throw .noAttribute

/-- Takes the current field as scalars, to be added to a list. What can be added to is asked for
before the field is read where it has one value, and else only if there is something to add. -/
def decodeScalars (type : FieldType) (items : Value) : Decoding Taken := do
  if !type.isPackable then Decoding.needList items
  let taken ← Decoding.reading (Cursor.repeated type)
  if !taken.values.isEmpty then Decoding.needList items
  return taken

/-- Decodes into the slot of a field that is in no oneof, among the variables of the decoder. -/
def decodeField (p : Program) (decode : Decoding Unit) (locals : Locals) (plan : ClassPlan)
    (f : FieldPlan) (index : Nat) : Decoding Unit := do
  let current := Decoding.current p plan index
  let store := Decoding.store plan index
  match f.kind with
  | .scalar type _ _ => store (.scalar (← Decoding.reading (Cursor.singular type)))
  | .repeated type _ =>
    let items ← current
    let taken ← decodeScalars type items
    if items.isList then store (items.extend (taken.values.map .scalar))
    Decoding.raise taken.fault
  | .message group ref =>
    let existing ← current
    let placed ← Decoding.reading (decodeNested p decode group (ref.meaning locals) existing)
    if placed.fault.isNone || existing.isPresent then store placed.value
    Decoding.raise placed.fault
  | .repeatedMessage group ref =>
    let items ← current
    let target ← Decoding.reading (Cursor.ofExcept (ref.meaning locals).evaluated)
    Decoding.needList items
    let placed ← Decoding.reading (decodeNested p decode group target .none)
    Decoding.raise placed.fault
    store (items.extend [placed.value])
  | .map key value ref =>
    let entries ← current
    let kind ← match ref with
      | none => pure (MapValue.scalar value)
      | some r => do
        let target ← Decoding.reading (Cursor.ofExcept (r.meaning locals).evaluated)
        pure (MapValue.ofMeaning value target)
    let (k, v) ← Decoding.reading (decodeMapField p decode key kind)
    store (← Decoding.reading (Cursor.ofExcept (entries.putKey k v)))

/-! ## Extensions -/

def Decoding.storeExtension (e : Extension) (v : Value) : Decoding Unit :=
  update fun m => { m with extensions := Content.putExtension e v m.extensions }

def decodeExtensionMessage (p : Program) (decode : Decoding Unit) (e : Extension)
    (existing : Value) : Decoding Placed :=
  Decoding.reading <| decodeNested p decode (e.type == .group) (.type (e.messageType.getD p.baseType)) existing

/-- Decodes a repeated extension into the list that is there, or into a new one. -/
def decodeRepeatedExtension (p : Program) (decode : Decoding Unit) (e : Extension)
    (current : Value) : Decoding Unit := do
  let items := if current.isPresent then current else .list []
  if e.type.isScalar then
    let taken ← decodeScalars e.type items
    let extended := items.extend (taken.values.map .scalar)
    if taken.fault.isSome && current.isPresent then
      Decoding.update (·.updateExtension e.number extended)
    Decoding.raise taken.fault
    Decoding.storeExtension e extended
  else
    Decoding.needList items
    let placed ← decodeExtensionMessage p decode e .none
    Decoding.raise placed.fault
    Decoding.storeExtension e (items.extend [placed.value])

def decodeSingularExtension (p : Program) (decode : Decoding Unit) (e : Extension)
    (current : Value) : Decoding Unit := do
  if e.type.isScalar then
    Decoding.storeExtension e (.scalar (← Decoding.reading (Cursor.singular e.type)))
  else
    let placed ← decodeExtensionMessage p decode e current
    if placed.fault.isSome then Decoding.update (·.updateExtension e.number placed.value)
    Decoding.raise placed.fault
    Decoding.storeExtension e placed.value

def decodeExtension (p : Program) (decode : Decoding Unit) (e : Extension) : Decoding Unit := do
  let current := ((← Decoding.content).extension? e.number).getD .none
  if e.repeated then decodeRepeatedExtension p decode e current
  else decodeSingularExtension p decode e current

/-! ## Messages -/

/-- Keeps the current field as an unknown one. What the message was given in place of its unknown
fields has to be a list, which the bytes are then added to. -/
def keepUnknown : Decoding Unit := do
  let data ← Decoding.reading Cursor.skipUnknown
  match (← Decoding.content).loose.lookup unknownName with
  | none =>
    Decoding.update fun m => { m with head := { m.head with unknown := m.head.unknown ++ data } }
  | some (.list items) =>
    Decoding.update (·.setLoose unknownName (.list (items ++ [.bytes data])))
  | some given => throw (given.uncallable "append")

/-- The variables that decoding a oneof assigns: the case that was there, and the new one. -/
structure OneofLocals where
  current : Local := .unassigned
  value : Local := .unassigned

/-- Decodes the current field, which lies in an extension range. Its extension is looked up by the
class as the code refers to it; what is no class has none, and may not even be a key. -/
def decodeRanged (p : Program) (table : Option ExtensionTable) (decode : Decoding Unit)
    (own : Meaning) (number : Nat) : Decoding Unit := do
  let m ← Decoding.content
  let extended := Extended.ofLoose m.head.bare m.extensions m.loose
  if let .missing := extended then throw .noAttribute
  match ← Decoding.reading (Cursor.ofExcept own.evaluated), table with
  | .type t, some known =>
    match known.find? t number, extended with
    | none, _ => keepUnknown
    | some _, .replaced given => throw (given.uncallable "stored_value")
    | some e, _ => decodeExtension p decode e
  | .other .self, some _ | .other .unhashable, some _ => throw .wrongType
  | _, _ => keepUnknown

/-- Decodes the current field, which has a certain number. The result is what the variables for
oneofs hold afterwards. -/
def decodeNumber (p : Program) (table : Option ExtensionTable) (decode : Decoding Unit)
    (c : ClassPlan) (assigned : OneofLocals) (number : Nat) : Decoding OneofLocals := do
  let locals := c.decoderLocals assigned.current assigned.value
  match c.route number with
  | .slot index =>
    match c.slots[index]? with
    | none =>
      keepUnknown
      return assigned
    | some (.oneof o) =>
      let current ← Decoding.current p c index
      decodeOneof p decode c o index number
      return { current := current.caseLocal, value := .unhashable }
    | some (.field f) =>
      decodeField p decode locals c f index
      return assigned
  | .extension =>
    decodeRanged p table decode (c.own.meaning locals) number
    return assigned
  | .unknown =>
    keepUnknown
    return assigned

/-- Decodes fields until the data ends. Every turn reads a tag, so as many turns as there are bytes
are enough. -/
def decodeFields (p : Program) (table : Option ExtensionTable) (decode : Decoding Unit)
    (c : ClassPlan) : (turns : Nat) → OneofLocals → Decoding Unit
  | 0, _ => return
  | turns + 1, assigned => do
    match ← Decoding.reading Cursor.next with
    | none => return
    | some number =>
      let assigned ← decodeNumber p table decode c assigned number
      decodeFields p table decode c turns assigned

/-- A message makes its storage its own before data is decoded into it. For that its owners have to
be counted; they are, unless a field is stored in place of their number. A loose attribute may have
taken the place of the storage, or hide the method that makes it its own. -/
def checkOwners (c : ClassPlan) (m : Content) : Except Fault Unit :=
  if !(c.writesFields && c.isIndirected) then .ok ()
  else if m.replaces "_unique_storage" then .error .wrongType
  else if m.replaces storageName then .error .noAttribute
  else
    match c.ownersSlot? with
    | none => .ok ()
    | some i => if (m.slot i).isCount then .ok () else .error .wrongType

/-- Decodes the data of a cursor into a message, by the plan of the message's own class, given how
nested data is decoded. -/
def decodeInto (p : Program) (table : Option ExtensionTable) (decode : Decoding Unit) :
    Decoding Unit := do
  let (m, c) ← get
  if m.replaces "decode_message" then throw .wrongType
  match p.plan? m.head.type with
  | none => throw .abstract
  | some plan =>
    Decoding.reading (Cursor.ofExcept (checkOwners plan m))
    Decoding.update fun m => { m with head := { m.head with merged := true } }
    decodeFields p table decode plan (c.rest.length + 1) {}

def decodeMessage (p : Program) (table : Option ExtensionTable) : (levels : Nat) → Decoding Unit
  | 0 => throw (.data .tooDeep)
  | levels + 1 => decodeInto p table (decodeMessage p table levels)

def decodingLevels : Nat := maxDepth + 2

def decodeWith (p : Program) (table : Option ExtensionTable) : Decoding Unit :=
  decodeMessage p table decodingLevels

/-- Merges serialized data into a message. The message keeps what was decoded before a fault. -/
def mergeBytes (p : Program) (table : Option ExtensionTable) (m : Content) (data : Bytes) :
    Content × Option Fault :=
  match decodeWith p table (m, Cursor.ofBytes data) with
  | .ok _ (m, _) => (m, none)
  | .error e (m, _) => (m, some e)

/-- Reads a message of a class from serialized data. -/
def parse (p : Program) (table : Option ExtensionTable) (t : TypeId) (data : Bytes) :
    Except Fault Content :=
  match Content.fresh p t with
  | .error f => .error f
  | .ok start =>
    match mergeBytes p table start data with
    | (m, none) => .ok m
    | (_, some f) => .error f

end Missive
