import Missive.Proofs.Message.Typed

/-!
# Encodings of fields

What the wire format has to say about a field, apart from the walk over a message that writes it: a
scalar is written behind its tag, a message behind its tag and its length, a group between its two
tags, and a map as one small message for each entry.  Messages inside are written by `serialize`.

Each encoding is what the items of the field spell, if the field holds what its kind asks for.
-/

namespace Missive

open Plan List Program

variable {type : FieldType} {v : Value} {bytes : Bytes} {items : List Value} {f : FieldPlan}
variable {α : Type} {encode : α → Except Fault Bytes}

/-! ## Encodings -/

namespace Encoding

/-- The tag of a field. -/
def tag (number : Int) (wire : WireType) : Bytes := Varint.encode (makeTag number wire)

def scalar (number : Int) (type : FieldType) (v : Value) : Except Fault Bytes := do
  return tag number type.wire ++ (← type.encode v)

/-- A payload behind its tag and its length. -/
def delimited (number : Int) (payload : Bytes) : Bytes :=
  tag number .lengthDelimited ++ (Varint.encode payload.length ++ payload)

/-- The encodings of several things in a row. -/
def all {α : Type} (encode : α → Except Fault Bytes) (items : List α) : Except Fault Bytes := do
  return (← items.mapM encode).flatten

/-- A repeated scalar field: one packed payload, or a field for each item. -/
def repeated (number : Int) (type : FieldType) (packed : Bool) (items : List Value) :
    Except Fault Bytes :=
  if packed && type.isPackable && !items.isEmpty then do
    return delimited number (← all type.encode items)
  else all (scalar number type) items

def message (p : Program) (group : Bool) (number : Int) (v : Value) : Except Fault Bytes := do
  let inside ← p.serialize v
  return if group then tag number .startGroup ++ (inside ++ tag number .endGroup)
    else delimited number inside

/-- The key and the value of an entry of a map, whose values are messages or scalars. -/
def keyValue (p : Program) (key value : FieldType) (messages : Bool) (e : Key × Value) :
    Except Fault Bytes := do
  let keyField ← scalar 1 key e.1.value
  let valueField ← if messages then message p false 2 e.2 else scalar 2 value e.2
  return keyField ++ valueField

/-- An entry of a map. -/
def entry (p : Program) (number : Int) (key value : FieldType) (messages : Bool)
    (e : Key × Value) : Except Fault Bytes := do
  return delimited number (← keyValue p key value messages e)

end Encoding

/-- The encoding of a field that is in no oneof. -/
def Plan.FieldKind.encoding (p : Program) (number : Int) : FieldKind → Value → Except Fault Bytes
  | .scalar type _ _, v => Encoding.scalar number type v
  | .repeated type packed, .list items => Encoding.repeated number type packed items
  | .message group _, v => Encoding.message p group number v
  | .repeatedMessage group _, .list items => Encoding.all (Encoding.message p group number) items
  | .map key value ref, .map _ entries =>
    Encoding.all (Encoding.entry p number key value ref.isSome) entries
  | _, _ => .error .wrongType

def Plan.MemberKind.encoding (p : Program) (number : Int) : MemberKind → Value → Except Fault Bytes
  | .scalar type _, v => Encoding.scalar number type v
  | .message group _ _, v => Encoding.message p group number v
  | .entry _, _ => .error .noScalarCodec

def Extension.encoding (p : Program) (e : Extension) (v : Value) : Except Fault Bytes :=
  match e.type.isScalar, e.repeated, v with
  | true, false, v => Encoding.scalar e.number e.type v
  | true, true, .list items => Encoding.repeated e.number e.type e.packed items
  | false, false, v => Encoding.message p (e.type == .group) e.number v
  | false, true, .list items => Encoding.all (Encoding.message p (e.type == .group) e.number) items
  | _, true, _ => .error .wrongType

lemma Extension.encoding_eq (p : Program) (e : Extension) (v : Value) :
    e.encoding p v = (e.kind p).encoding p e.number v := by
  unfold Extension.encoding Extension.kind
  cases e.type.isScalar <;> cases e.repeated <;> cases v <;> cases packable : e.type.isPackable
    <;> simp [FieldKind.encoding, Encoding.repeated, packable]

/-- Is a field there, as its kind tells it: set, if that differs from the default, and else neither
zero nor empty? -/
def Plan.FieldKind.isPresent : FieldKind → Value → Bool
  | .scalar _ presence _, v => if presence then v.isPresent else v.truthy
  | .message _ _, v => v.isPresent
  | .repeated _ _, v | .repeatedMessage _ _, v | .map _ _ _, v => v.truthy

/-! ## Written bytes -/

namespace Written

@[simp] lemma append_ok (a b : Bytes) : (⟨a, none⟩ : Written) ++ ⟨b, none⟩ = ⟨a ++ b, none⟩ := rfl

lemma append_assoc (a b c : Written) : a ++ b ++ c = a ++ (b ++ c) := by
  obtain ⟨a, fault⟩ := a
  obtain ⟨b, fault'⟩ := b
  cases fault with
  | some => rfl
  | none =>
    cases fault' with
    | some => rfl
    | none =>
      show (⟨a ++ b ++ c.bytes, c.fault⟩ : Written) = ⟨a ++ (b ++ c.bytes), c.fault⟩
      rw [List.append_assoc]

lemma scalar_ok {number : Int} (encoded : type.encode v = .ok bytes) :
    scalar number type v = ⟨Encoding.tag number type.wire ++ bytes, none⟩ := by
  rw [scalar, encoded]
  rfl

lemma delimited_ok (number : Int) (payload : Bytes) :
    delimited number ⟨payload, none⟩ = ⟨Encoding.delimited number payload, none⟩ := rfl

end Written

namespace Item

lemma writeAll_eq_concat (items : List Item) : writeAll items = Written.concat (items.map write) := by
  induction items with
  | nil => rfl
  | cons item rest ih =>
    rw [writeAll, ih]
    rfl

lemma writeEach_eq_map (contents : List (List Item)) : writeEach contents = contents.map writeAll := by
  induction contents with
  | nil => rfl
  | cons items rest ih => rw [writeEach, ih, map_cons]

lemma writeAll_append (a b : List Item) : writeAll (a ++ b) = writeAll a ++ writeAll b := by
  induction a with
  | nil => rfl
  | cons item rest ih => rw [cons_append, writeAll, writeAll, ih, Written.append_assoc]

/-- Items spell some bytes if writing them succeeds with those. -/
def Spells (items : List Item) (bytes : Bytes) : Prop := writeAll items = ⟨bytes, none⟩

lemma Spells.append {a b : List Item} {x y : Bytes} (first : Spells a x) (second : Spells b y) :
    Spells (a ++ b) (x ++ y) := by
  unfold Spells at *
  rw [writeAll_append, first, second, Written.append_ok]

lemma spells_singleton {item : Item} :
    Spells [item] bytes ↔ write item = ⟨bytes, none⟩ := by
  unfold Spells
  rw [writeAll, writeAll]
  obtain ⟨x, fault⟩ := write item
  cases fault with
  | some => simp [HAppend.hAppend, Append.append, Written.append]
  | none => simp [Written.nil]

end Item

lemma Encoding.exists_of_scalar {number : Int} (encoded : scalar number type v = .ok bytes) :
    ∃ payload, type.encode v = .ok payload ∧ bytes = tag number type.wire ++ payload := by
  obtain ⟨payload, found, joined⟩ := bind_ok encoded
  exact ⟨payload, found, (Except.ok.inj joined).symm⟩

lemma Encoding.exists_of_keyValue {p : Program} {key value : FieldType} {messages : Bool} {e : Key × Value}
    (encoded : keyValue p key value messages e = .ok bytes) :
    ∃ keyField valueField, scalar 1 key e.1.value = .ok keyField
      ∧ (if messages then message p false 2 e.2 else scalar 2 value e.2) = .ok valueField
      ∧ bytes = keyField ++ valueField := by
  obtain ⟨keyField, keyIs, found⟩ := bind_ok encoded
  cases messages <;> obtain ⟨valueField, valueIs, joined⟩ := bind_ok found <;>
    exact ⟨keyField, valueField, keyIs, valueIs, (Except.ok.inj joined).symm⟩

lemma Encoding.all_cons {x : α} {items : List α} {first others : Bytes} (encoded : encode x = .ok first)
    (rest : all encode items = .ok others) : all encode (x :: items) = .ok (first ++ others) := by
  unfold all at rest ⊢
  obtain ⟨parts, found, joined⟩ := bind_ok rest
  cases joined
  rw [mapM_cons, encoded, found]
  rfl

lemma Encoding.all_cons_ok {x : α} {items : List α} (encoded : all encode (x :: items) = .ok bytes) :
    ∃ first others, encode x = .ok first ∧ all encode items = .ok others ∧ bytes = first ++ others := by
  unfold all at encoded ⊢
  obtain ⟨parts, found, joined⟩ := bind_ok encoded
  rw [mapM_cons] at found
  obtain ⟨first, encodedFirst, found⟩ := bind_ok found
  obtain ⟨others, encodedOthers, found⟩ := bind_ok found
  cases found
  cases joined
  exact ⟨first, others.flatten, encodedFirst, by rw [encodedOthers]; rfl, rfl⟩

/-- Several things that are encoded as they are written are so in a row. -/
lemma exists_all {write : α → Written} {items : List α}
    (each : ∀ x ∈ items, ∃ bytes, encode x = .ok bytes ∧ write x = ⟨bytes, none⟩) :
    ∃ bytes, Encoding.all encode items = .ok bytes ∧ Written.concat (items.map write) = ⟨bytes, none⟩ := by
  induction items with
  | nil => exact ⟨[], rfl, rfl⟩
  | cons x rest ih =>
    obtain ⟨first, encoded, written⟩ := each x (.head _)
    obtain ⟨others, encoded', written'⟩ := ih fun y member => each y (.tail _ member)
    refine ⟨first ++ others, Encoding.all_cons encoded encoded', ?_⟩
    rw [map_cons, Written.concat, foldr_cons, ← Written.concat, written, written', Written.append_ok]

/-! ## Walking over values -/

section walk

variable (f : Summarize α)

lemma partList_eq_map (items : List Value) : partList f items = items.map (·.part f) := by
  induction items with
  | nil => rfl
  | cons v rest ih => rw [partList, ih, map_cons]

lemma partEntries_eq_map (entries : List (Key × Value)) :
    partEntries f entries = entries.map fun e => (e.1, e.2.part f) := by
  induction entries with
  | nil => rfl
  | cons e rest ih => rw [partEntries, ih, map_cons]

lemma partExtensions_eq_map (extensions : List (Extension × Value)) :
    partExtensions f extensions = extensions.map fun e => (e.1, e.2.part f) := by
  induction extensions with
  | nil => rfl
  | cons e rest ih => rw [partExtensions, ih, map_cons]

end walk

namespace Program

variable (p : Program)

@[simp] lemma walk_scalar (s : Scalar) : p.walk (.scalar s) = .plain (.scalar s) := rfl

@[simp] lemma walk_list (items : List Value) :
    p.walk (.list items) = .list (.list items) (items.map p.walk) := by
  rw [walk, Value.part, partList_eq_map]
  rfl

@[simp] lemma walk_map (readOnly : Bool) (entries : List (Key × Value)) :
    p.walk (.map readOnly entries)
      = .map (.map readOnly entries) readOnly (entries.map fun e => (e.1, p.walk e.2)) := by
  rw [walk, Value.part, partEntries_eq_map]
  rfl

@[simp] lemma walk_case (tag : CaseTag) (v : Value) (loose : List (String × Value)) :
    p.walk (.case tag v loose) = .case (.case tag v loose) tag (p.walk v) := rfl

@[simp] lemma source_walk (v : Value) : (p.walk v).source = v := by
  cases v <;> rfl

/-- A message value spells some bytes if its content does and nothing hides the method that writes
it. -/
structure Spells (v : Value) (bytes : Bytes) : Prop where
  content : Item.Spells (p.content (p.walk v)) bytes
  marks : wireMarks (p.walk v) = []
  present : v.isPresent = true

variable {p}

lemma Spells.wireContent (spells : p.Spells v bytes) :
    p.wireContent (p.walk v) = p.content (p.walk v) := by
  rw [Program.wireContent, spells.marks, nil_append]

lemma Spells.serialize (spells : p.Spells v bytes) : p.serialize v = .ok bytes := by
  rw [Program.serialize, spells.wireContent, spells.content]
  rfl

lemma Spells.encoding (spells : p.Spells v bytes) (group : Bool) (number : Int) :
    ∃ bytes, Encoding.message p group number v = .ok bytes
      ∧ (messageItem p group number (p.walk v)).write = ⟨bytes, none⟩ := by
  rw [Encoding.message, spells.serialize, messageItem, spells.wireContent]
  cases group with
  | true =>
    refine ⟨_, rfl, ?_⟩
    simp only [if_true, Item.write, Written.group]
    rw [spells.content]
    rfl
  | false =>
    refine ⟨_, rfl, ?_⟩
    simp only [Bool.false_eq_true, if_false, Item.write]
    rw [spells.content]
    rfl

end Program

/-! ## Fields -/

/-- Every scalar that the rules allow has an encoding. -/
def Rules.Encodable (R : Rules) : Prop :=
  ∀ type s, R.scalar type s → ∃ bytes, type.encode (.scalar s) = .ok bytes ∧ bytes ≠ []

/-- Every message inside spells something, and a content something that bytes may be. -/
structure Inside.Spelled (p : Program) (R : Rules) (I : Inside) : Prop where
  nested : ∀ t v, I.nested t v → ∃ bytes, p.Spells v bytes
  entry : ∀ t v, I.entry t v → ∃ bytes, p.Spells v bytes
  content : ∀ v, I.content v → ∃ bytes, p.Spells v bytes ∧ R.scalar .bytes (.bytes bytes)

section fields

variable {p : Program} {R : Rules} {I : Inside}

lemma encode_none (type : FieldType) : ∃ f, type.encode .none = .error f := by
  cases type <;> exact ⟨_, rfl⟩

section

variable (encodable : R.Encodable)

include encodable

lemma Rules.Encodable.isPresent (h : R.Holds type v) : v.isPresent = true := by
  obtain ⟨s, rfl, scalar⟩ := h
  obtain ⟨bytes, encoded, -⟩ := encodable type s scalar
  cases s with
  | none =>
    obtain ⟨f, failed⟩ := encode_none type
    rw [failed] at encoded
    cases encoded
  | _ => rfl

lemma Rules.Encodable.exists_scalar (h : R.Holds type v) (number : Int) :
    ∃ bytes, Encoding.scalar number type v = .ok bytes ∧ Written.scalar number type v = ⟨bytes, none⟩ := by
  obtain ⟨s, rfl, scalar⟩ := h
  obtain ⟨bytes, encoded, -⟩ := encodable type s scalar
  exact ⟨_, by rw [Encoding.scalar, encoded]; rfl, Written.scalar_ok encoded⟩

/-- The payload of a packed field. -/
lemma Rules.Encodable.exists_packed (all : ∀ x ∈ items, R.Holds type x) :
    ∃ bytes, Encoding.all type.encode items = .ok bytes
      ∧ Written.concat (items.map fun v => .ofExcept (type.encode v)) = ⟨bytes, none⟩
      ∧ (items ≠ [] → bytes ≠ []) := by
  induction items with
  | nil => exact ⟨[], rfl, rfl, by simp⟩
  | cons x rest ih =>
    obtain ⟨s, rfl, scalar⟩ := all x (.head _)
    obtain ⟨first, encoded, some⟩ := encodable type s scalar
    have each : ∀ v ∈ Value.scalar s :: rest, ∃ bytes, type.encode v = .ok bytes
        ∧ Written.ofExcept (type.encode v) = ⟨bytes, none⟩ := by
      intro v member
      obtain ⟨s', rfl, scalar'⟩ := all v member
      obtain ⟨bytes, encoded', -⟩ := encodable type s' scalar'
      exact ⟨bytes, encoded', by rw [encoded']; rfl⟩
    obtain ⟨bytes, encodedAll, written⟩ := exists_all each
    refine ⟨bytes, encodedAll, written, fun _ => ?_⟩
    obtain ⟨others, -, writtenRest, -⟩ := ih fun v member => all v (.tail _ member)
    rw [map_cons, Written.concat, foldr_cons, ← Written.concat, writtenRest, encoded] at written
    have : first ++ others = bytes := congrArg Written.bytes written
    rw [← this]
    simp [some]

lemma Rules.Encodable.exists_repeated (all : ∀ x ∈ items, R.Holds type x) (number : Int) (packed : Bool) :
    ∃ bytes, Encoding.repeated number type packed items = .ok bytes
      ∧ Written.repeated number type packed items = ⟨bytes, none⟩ := by
  rw [Encoding.repeated, Written.repeated]
  obtain ⟨payload, encoded, written, some⟩ := encodable.exists_packed all
  cases packs : packed && type.isPackable with
  | false =>
    simp only [Bool.false_and, Bool.false_eq_true, if_false]
    exact exists_all fun x member => encodable.exists_scalar (all x member) number
  | true =>
    simp only [Bool.true_and, if_true, written, Option.isNone_none, List.isEmpty_iff, Bool.not_eq_true']
    cases items with
    | nil =>
      obtain rfl : [] = payload := congrArg Written.bytes written
      exact ⟨[], rfl, rfl⟩
    | cons =>
      have some := some (by simp)
      rw [if_pos (by simp), if_neg some, encoded]
      exact ⟨_, rfl, rfl⟩

end

def writtenEntry (p : Program) (number : Int) (key value : FieldType) (e : Key × Value) : Written :=
  Written.entry number key e.1 <| if value = .message then .delimited 2 (Item.writeAll (p.wireContent (p.walk e.2)))
    else .scalar 2 value e.2

lemma writeEntries_eq_concat (p : Program) (number : Int) (key value : FieldType) (entries : List (Key × Value)) :
    Item.writeEntries number key value entries (Item.writeEach (entries.map fun e => p.wireContent (p.walk e.2)))
      = Written.concat (entries.map (writtenEntry p number key value)) := by
  rw [Item.writeEach_eq_map, map_map]
  induction entries with
  | nil => rfl
  | cons e rest ih =>
    obtain ⟨k, v⟩ := e
    rw [map_cons, Item.writeEntries, ih]
    rfl

lemma exists_entry (encodable : R.Encodable) (spelled : I.Spelled p R) {key value : FieldType}
    {ref : Option ClassRef} (coded : (FieldKind.map key value ref).IsCoded) {e : Key × Value}
    (fits : EntryFits R I key value ref e) (number : Int) :
    ∃ bytes, Encoding.entry p number key value ref.isSome e = .ok bytes
      ∧ writtenEntry p number key value e = ⟨bytes, none⟩ := by
  obtain ⟨⟨s, keyIs, keyFits⟩, valueFits, -⟩ := fits
  have keyHolds : R.Holds key e.1.value := ⟨s, by rw [keyIs, Key.value], keyFits⟩
  obtain ⟨keyField, keyEncoded, keyWritten⟩ := encodable.exists_scalar keyHolds 1
  rw [Encoding.entry, Encoding.keyValue, writtenEntry, Written.entry, keyEncoded, keyWritten]
  cases ref with
  | none =>
    have notMessage : value ≠ .message := by
      rintro rfl
      simp [FieldKind.IsCoded, FieldType.isScalar] at coded
    obtain ⟨valueField, valueEncoded, valueWritten⟩ := encodable.exists_scalar valueFits 2
    rw [if_neg notMessage, valueWritten, Written.append_ok, Written.delimited_ok]
    simp only [Option.isSome_none, Bool.false_eq_true, if_false, valueEncoded]
    exact ⟨_, rfl, rfl⟩
  | some =>
    obtain ⟨bytes, spells⟩ := spelled.entry _ _ valueFits.1
    obtain ⟨valueField, valueEncoded, -⟩ := spells.encoding false 2
    rw [if_pos coded.2, spells.wireContent, spells.content, Written.delimited_ok, Written.append_ok,
      Written.delimited_ok]
    have : valueField = Encoding.delimited 2 bytes := by
      rw [Encoding.message, spells.serialize] at valueEncoded
      exact (Except.ok.inj valueEncoded).symm
    simp only [Option.isSome_some, if_true, valueEncoded, this]
    exact ⟨_, rfl, rfl⟩

lemma exists_messages (spelled : I.Spelled p R) {t : TypeId} {group : Bool}
    (all : ∀ x ∈ items, MessageFits R I group t x) (number : Int) :
    ∃ bytes, Encoding.all (Encoding.message p group number) items = .ok bytes
      ∧ Item.Spells ((items.map p.walk).map (messageItem p group number)) bytes := by
  have each : ∀ x ∈ items, ∃ bytes, Encoding.message p group number x = .ok bytes
      ∧ (messageItem p group number (p.walk x)).write = ⟨bytes, none⟩ := by
    intro x member
    obtain ⟨inner, spells⟩ := spelled.nested t x (all x member).1
    exact spells.encoding group number
  obtain ⟨bytes, encoded, written⟩ := exists_all each
  refine ⟨bytes, encoded, ?_⟩
  rw [Item.Spells, Item.writeAll_eq_concat, map_map, map_map]
  exact written

/-- **A present field spells its encoding.** -/
lemma exists_field (encodable : R.Encodable) (spelled : I.Spelled p R) (coded : f.kind.IsCoded)
    (fits : f.kind.Fits R I v) (present : f.kind.isPresent v = true) :
    ∃ bytes, f.kind.encoding p f.number v = .ok bytes ∧ Item.Spells (fieldItems p f (p.walk v)) bytes := by
  unfold fieldItems
  cases kind : f.kind with
  | scalar type =>
    rw [kind] at fits present
    have holds : R.Holds type v := by
      rcases fits with ⟨rfl, rfl⟩ | holds
      · simp [FieldKind.isPresent, Value.isPresent] at present
      · exact holds
    obtain ⟨bytes, encoded, written⟩ := encodable.exists_scalar holds f.number
    refine ⟨bytes, encoded, ?_⟩
    simp only [source_walk, FieldKind.isPresent] at present ⊢
    rw [if_pos present]
    exact Item.spells_singleton.2 written
  | repeated type packed =>
    rw [kind] at fits present
    obtain ⟨items, rfl, all, -⟩ := fits
    obtain ⟨bytes, encoded, written⟩ := encodable.exists_repeated all f.number packed
    refine ⟨bytes, encoded, ?_⟩
    simp only [source_walk, FieldKind.isPresent] at present ⊢
    rw [if_pos present]
    exact Item.spells_singleton.2 written
  | message group ref =>
    rw [kind] at fits present
    have nested : I.nested ref.target v := by
      rcases fits with rfl | nested
      · simp [FieldKind.isPresent, Value.isPresent] at present
      · exact nested.1
    obtain ⟨inner, spells⟩ := spelled.nested _ _ nested
    obtain ⟨bytes, encoded, written⟩ := spells.encoding group f.number
    refine ⟨bytes, encoded, ?_⟩
    simp only [source_walk]
    rw [if_pos spells.present]
    exact Item.spells_singleton.2 written
  | repeatedMessage =>
    rw [kind] at fits present
    obtain ⟨items, rfl, all⟩ := fits
    obtain ⟨bytes, encoded, spells⟩ := exists_messages spelled all f.number
    refine ⟨bytes, encoded, ?_⟩
    simp only [source_walk, FieldKind.isPresent] at present ⊢
    rw [if_pos present]
    simpa [repeatedMessageItems, Part.elements?] using spells
  | map key value =>
    rw [kind] at fits present coded
    obtain ⟨entries, rfl, -, -, all⟩ := fits
    obtain ⟨bytes, encoded, written⟩ := exists_all fun e member =>
      exists_entry encodable spelled coded (all e member) f.number
    refine ⟨bytes, encoded, ?_⟩
    simp only [source_walk, FieldKind.isPresent] at present ⊢
    rw [if_pos present, Item.spells_singleton, walk_map, mapItem, Item.write, map_map]
    exact (writeEntries_eq_concat p f.number key value entries).trans written

/-- A field that is not there has no items. -/
lemma fieldItems_absent (absent : f.kind.isPresent v = false) :
    fieldItems p f (p.walk v) = [] := by
  unfold fieldItems
  cases kind : f.kind <;> simp_all [FieldKind.isPresent]

lemma fieldItems_present (fits : f.kind.Fits R I v) (present : f.kind.isPresent v = true) :
    fieldItems p f (p.walk v) ≠ [] := by
  unfold fieldItems
  cases kind : f.kind with
  | repeatedMessage =>
    rw [kind] at fits present
    obtain ⟨items, rfl, -⟩ := fits
    have some : items ≠ [] := by
      rintro rfl
      simp [FieldKind.isPresent, Value.truthy] at present
    simp only [FieldKind.isPresent] at present
    simp only [source_walk]
    rw [if_pos present]
    simp [repeatedMessageItems, Part.elements?, some]
  | _ => simp_all [FieldKind.isPresent]

/-- **The active member of a oneof spells its encoding.** -/
lemma exists_member (encodable : R.Encodable) (spelled : I.Spelled p R) {m : MemberPlan} (fits : m.kind.Fits R I v) :
    ∃ bytes, m.kind.encoding p m.number v = .ok bytes
      ∧ Item.Spells (memberItems m v (p.content (p.walk v)) (p.wireContent (p.walk v))) bytes := by
  unfold memberItems
  cases kind : m.kind with
  | scalar =>
    rw [kind] at fits
    obtain ⟨bytes, encoded, written⟩ := encodable.exists_scalar fits m.number
    exact ⟨bytes, encoded, Item.spells_singleton.2 written⟩
  | message group =>
    rw [kind] at fits
    obtain ⟨inner, spells⟩ := spelled.nested _ _ fits.1
    obtain ⟨bytes, encoded, written⟩ := spells.encoding group m.number
    refine ⟨bytes, encoded, ?_⟩
    cases group with
    | true => exact Item.spells_singleton.2 written
    | false => exact Item.spells_singleton.2 written
  | entry =>
    rw [kind] at fits
    exact fits.elim

lemma extensionItems_eq (e : Extension) (w : Walked) :
    extensionItems p e w = match e.type.isScalar, e.repeated with
      | true, true => [repeatedItem e.number e.type e.packed w]
      | true, false => [.scalar e.number e.type w.source]
      | false, true => repeatedMessageItems p (e.type == .group) e.number w
      | false, false => [messageItem p (e.type == .group) e.number w] := by
  unfold extensionItems
  cases e.type <;> cases e.repeated <;> rfl

/-- **An extension spells its encoding.** -/
lemma exists_extension (encodable : R.Encodable) (spelled : I.Spelled p R) {e : Extension} (fits : e.Fits R I v) :
    ∃ bytes, e.encoding p v = .ok bytes ∧ Item.Spells (extensionItems p e (p.walk v)) bytes := by
  unfold Extension.Fits at fits
  unfold Extension.encoding
  cases scalar : e.type.isScalar with
  | true =>
    rw [if_pos scalar] at fits
    cases many : e.repeated with
    | true =>
      rw [if_pos many] at fits
      obtain ⟨items, rfl, all, -⟩ := fits
      obtain ⟨bytes, encoded, written⟩ := encodable.exists_repeated all e.number e.packed
      refine ⟨bytes, encoded, ?_⟩
      rw [extensionItems_eq, scalar, many]
      exact Item.spells_singleton.2 written
    | false =>
      rw [if_neg (by simp [many])] at fits
      obtain ⟨bytes, encoded, written⟩ := encodable.exists_scalar fits e.number
      refine ⟨bytes, encoded, ?_⟩
      rw [extensionItems_eq, scalar, many, source_walk]
      exact Item.spells_singleton.2 written
  | false =>
    rw [if_neg (by simp [scalar])] at fits
    obtain ⟨t, -, fits⟩ := fits
    cases many : e.repeated with
    | true =>
      rw [if_pos many] at fits
      obtain ⟨items, rfl, all⟩ := fits
      obtain ⟨bytes, encoded, spells⟩ := exists_messages spelled all e.number
      refine ⟨bytes, encoded, ?_⟩
      rw [extensionItems_eq, scalar, many]
      simpa [repeatedMessageItems, Part.elements?] using spells
    | false =>
      rw [if_neg (by simp [many])] at fits
      obtain ⟨inner, spells⟩ := spelled.nested _ _ fits.1
      obtain ⟨bytes, encoded, written⟩ := spells.encoding (e.type == .group) e.number
      refine ⟨bytes, encoded, ?_⟩
      rw [extensionItems_eq, scalar, many]
      exact Item.spells_singleton.2 written

end fields

end Missive
