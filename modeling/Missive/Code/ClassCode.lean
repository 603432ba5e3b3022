import Missive.Code.OneofCode

/-!
# Code for message classes

A plan of a class, written out: its attributes, the classes inside it, its storage, its accessors
and the methods that check, decode, traverse, compare and copy it.
-/

namespace Missive.Code

open Schema Plan

namespace ClassCode

def stored (s : SlotPlan) (owner : String) : String := owner ++ "." ++ s.storageName

/-- The attribute of an owner that holds the slot at a place. -/
def storedAt (p : ClassPlan) (owner : String) (slot : Nat) : String :=
  match p.slots[slot]? with
  | some s => stored s owner
  | none => owner

def initial : SlotPlan → String
  | .field f => FieldCode.initial f
  | .oneof _ => "None"

def copied (s : SlotPlan) (source : String) : String :=
  match s with
  | .field f => FieldCode.copied f source
  | .oneof _ => "_pw.copy_value(" ++ source ++ ")"

def truth (b : Bool) : String := if b then "True" else "False"

def attributes (p : ClassPlan) : List Code :=
  let ranges := p.ranges.list.map fun (start, stop) =>
    "(" ++ toString start ++ ", " ++ toString stop ++ ")"
  [line ("PROTO_MESSAGE_NAME = " ++ Text.quoted p.fullName),
   line ("IS_PROTO3 = " ++ truth p.proto3),
   line ("IS_EXTENSIBLE = " ++ truth p.isExtensible),
   line ("EXTENSION_RANGES = (" ++ tupleItems ranges ++ ")"),
   line ("FIELD_NAMES = (" ++ tupleItems (p.fieldNames.map Text.quoted) ++ ")"),
   line ("ONEOF_NAMES = (" ++ tupleItems (p.oneofs.map fun o => Text.quoted o.name) ++ ")")]

def initials (p : ClassPlan) : List Code :=
  p.slots.map fun s => line (stored s "self" ++ " = " ++ initial s)

def copies (p : ClassPlan) : List Code :=
  p.slots.map fun s => line (stored s "clone" ++ " = " ++ copied s (stored s "self"))

def storageClass (p : ClassPlan) : Code :=
  if p.isAny then line "_StorageClass = _pw.AnyMessageStorage"
  else
    block "class _StorageClass(_pw.MessageStorage):"
      [line ("__slots__ = (" ++ tupleItems (p.slots.map fun s => Text.quoted s.storageName) ++ ")"),
       blank,
       block "def __init__(self) -> None:" (line "super().__init__()" :: initials p),
       blank,
       block "def copy(self):"
        (line "clone = type(self)()" :: copies p ++ [line "return clone"])]

def constructor (p : ClassPlan) : Code :=
  let start := if p.isIndirected then [line "self._storage = self._StorageClass()"] else initials p
  block "def __init__(self, **fields) -> None:" (start ++ [line "super().__init__(**fields)"])

/-- The method that makes sure nobody else owns the storage. -/
def uniqueStorage : Code :=
  block "def _unique_storage(self):"
    [block "if not self._storage.is_uniquely_referenced():"
      [line "shared = self._storage",
       line "self._storage = shared.copy()",
       line "shared.release()"],
     line "return self._storage"]

def escapedStorage : Code :=
  block "def _escaped_storage(self):"
    [line "storage = self._unique_storage()", line "storage.mark_escaped()", line "return storage"]

def storageMethods (p : ClassPlan) : List Code :=
  if !p.isIndirected then []
  else blank :: uniqueStorage :: (if p.handsOut then [blank, escapedStorage] else [])

/-- The accessors of all fields; those of a oneof come before those of its first member. -/
def accessors (p : ClassPlan) : List Code :=
  p.declared.flatMap fun d =>
    blank :: match d with
      | .field _ f => FieldCode.accessors f p.layout
      | .member _ o m first =>
        (if first then OneofCode.accessors o p.layout ++ [blank] else []) ++ OneofCode.memberAccessors o m p.layout

/-- The methods of a message that holds any other message. -/
def anyMethods (p : ClassPlan) : List Code :=
  if !p.isAny then []
  else
    [blank,
     wrappedBlock "def pack("
      ["self,", "message,", "type_url_prefix=_pw.DEFAULT_TYPE_URL_PREFIX,"] ") -> None:"
      [line "self._unique_storage().pack(message, type_url_prefix)"],
     blank,
     block "def unpack(self, message_class, extensions=None):"
      [line "return self._storage.unpack(message_class, extensions)"],
     blank,
     block "def is_a(self, message_class) -> bool:"
      [line "return self._storage.is_a(message_class)"]]

/-! ## Completeness -/

/-- A condition of completeness, written as a check that fails. -/
def check (p : ClassPlan) (owner : String) : Check → Code
  | .set slot => failIf (storedAt p owner slot ++ " is None")
  | .nested slot =>
    let s := storedAt p owner slot
    failIf (s ++ " is not None and not " ++ s ++ ".is_initialized()")
  | .each slot => failIf ("not self.are_all_initialized(" ++ storedAt p owner slot ++ ")")
  | .eachValue slot =>
    failIf ("not self.are_all_initialized(" ++ storedAt p owner slot ++ ".values())")
  | .active slot numbers =>
    let case := storedAt p owner slot
    let sorted := sortBy (fun a b => decide (a ≤ b)) numbers
    let active :=
      match sorted with
      | [number] => case ++ ".field_number == " ++ toString number
      | _ => case ++ ".field_number in (" ++ ", ".intercalate (sorted.map toString) ++ ")"
    failIf ("(" ++ case ++ " is not None and " ++ active ++ " and not " ++ case
      ++ ".value.is_initialized())")

/-- The completeness check of the class, if it has one of its own. -/
def completeness (p : ClassPlan) : List Code :=
  if !p.hasCheck then []
  else
    let extensions :=
      if p.isExtensible then [failIf "not self.extension_fields.is_initialized()"] else []
    let fields :=
      if p.checks.isEmpty then []
      else bindOwners p.layout ["self"] ++ p.checks.map (check p (localOwner p.layout "self"))
    [blank,
     block "def is_initialized(self) -> bool:" (extensions ++ fields ++ [line "return True"])]

/-! ## Decoding -/

def decodeExtension (p : ClassPlan) : Code :=
  line ("decoder.decode_extension_field(self.extension_fields, " ++ p.qualifiedName
    ++ ", field_number, self.unknown_fields)")

def skipUnknown : Code := line "decoder.skip_unknown_field(self.unknown_fields)"

def decodeSlot (owner : String) : SlotPlan → List Code
  | .field f => FieldCode.decode f owner
  | .oneof o =>
    [line ("current = " ++ OneofCode.stored o owner),
     wrapped ("value = self." ++ o.className ++ ".by_decoding_from(")
      ["decoder, field_number, current"] ")",
     block "if (current is not None and current.field_number != field_number):"
      [wrapped "decoder.handle_conflicting_oneof("
        [Text.quoted o.declared ++ ", current.field_number, field_number"] ")"],
     line (OneofCode.stored o owner ++ " = value")]

def decodeCases (p : ClassPlan) : List Code :=
  let owner := localOwner p.layout "self"
  let fields := p.cases.map fun (pattern, slot) =>
    block ("case " ++ pattern.caseClause "field_number" ++ ":")
      ((p.slots[slot]?.map (decodeSlot owner)).getD [])
  let extensions :=
    if p.isExtensible then
      [block ("case _ if " ++ p.ranges.condition "field_number" ++ ":") [decodeExtension p]]
    else []
  fields ++ extensions ++ [block "case _:" [skipUnknown]]

def decoder (p : ClassPlan) : Code :=
  block "def decode_message(self, decoder) -> None:" <|
    if !p.writesFields then
      [block "while decoder.next_field_number() is not None:" [skipUnknown]]
    else
      let bind := if p.isIndirected then [line "storage = self._unique_storage()"] else []
      let dispatch :=
        if p.fieldNames.isEmpty then
          [block ("if " ++ p.ranges.condition "field_number" ++ ":") [decodeExtension p],
           block "else:" [skipUnknown]]
        else [block "match field_number:" (decodeCases p)]
      bind
        ++ [block "while (field_number := decoder.next_field_number()) is not None:" dispatch]

/-! ## Traversal, comparison and copies -/

/-- One step of the traversal. -/
def visit (p : ClassPlan) (owner : String) : Visit → List Code
  | .field slot =>
    match p.slots[slot]? with
    | some (.field f) => [FieldCode.traverse f owner]
    | _ => []
  | .oneof slot bounds =>
    let s := storedAt p owner slot
    let limits := (bounds.map fun (start, stop) =>
      ", " ++ toString start ++ ", " ++ toString stop).getD ""
    [block ("if " ++ s ++ " is not None:") [line (s ++ ".traverse(visitor" ++ limits ++ ")")]]
  | .extensions start stop =>
    [line ("visitor.visit_extension_fields(self.extension_fields, " ++ toString start ++ ", "
      ++ toString stop ++ ")")]

def traversal (p : ClassPlan) : Code :=
  block "def traverse(self, visitor) -> None:"
    (bindOwners p.layout ["self"] ++ p.visits.flatMap (visit p (localOwner p.layout "self"))
      ++ [line "self.unknown_fields.traverse(visitor)"])

def comparisons (p : ClassPlan) : List Code :=
  p.slots.map fun s =>
    failIf (stored s (localOwner p.layout "self") ++ " != "
      ++ stored s (localOwner p.layout "other"))

/-- The comparison of two messages. A storage that both share is equal to itself. -/
def equality (p : ClassPlan) : Code :=
  let fields :=
    if p.isAny then
      [failIf ("(self._storage is not other._storage and "
        ++ "not self._storage.is_equal_to(other._storage))")]
    else if p.isIndirected then
      let body := if p.slots.isEmpty then [line "pass"] else comparisons p
      [block "if self._storage is not other._storage:"
        (bindOwners p.layout ["self", "other"] ++ body)]
    else comparisons p
  let extensions :=
    if p.isExtensible then [failIf "self.extension_fields != other.extension_fields"] else []
  block "def _protobuf_generated_is_equal_to(self, other):"
    (fields ++ failIf "self.unknown_fields != other.unknown_fields" :: extensions
      ++ [line "return True"])

/-- The copy of the fields. A storage with references to it outside is never shared. -/
def copying (p : ClassPlan) : Code :=
  block "def _protobuf_copy_fields(self, clone) -> None:" <|
    if p.isIndirected then
      [block "if self._storage.has_escaped_references():"
        [line "clone._storage = self._storage.copy()"],
       block "else:" [line "clone._storage = self._storage.retain()"]]
    else if p.slots.isEmpty then [line "pass"]
    else copies p

mutual

def classCode : ClassPlan → Code
  | ⟨id, name, qualified, full, own, neighbours, proto3, isAny, layout, ranges, names, oneofs, slots,
     declared, cases, visits, checks, nested⟩ =>
    let p : ClassPlan :=
      ⟨id, name, qualified, full, own, neighbours, proto3, isAny, layout, ranges, names, oneofs,
       slots, declared, cases, visits, checks, nested⟩
    block ("class " ++ name ++ "(_pw.Message):")
      (attributes p ++ oneofs.flatMap (fun o => [blank, OneofCode.caseClass o]) ++ nestedCode nested
        ++ (if p.isIndirected then [blank, storageClass p] else [])
        ++ [blank, constructor p]
        ++ storageMethods p
        ++ accessors p
        ++ anyMethods p
        ++ completeness p
        ++ [blank, decoder p, blank, traversal p, blank, equality p, blank, copying p])

def nestedCode : List ClassPlan → List Code
  | [] => []
  | p :: rest => blank :: classCode p :: nestedCode rest

end

end ClassCode

end Missive.Code
