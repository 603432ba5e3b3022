import Missive.Proofs.Plan.Traversal

/-!
# Regular schemas

Building an arena does not check all that a schema compiler does.  A schema is regular if the members
of its oneofs are singular, its map entries have a scalar key and a scalar or message value, and the
message that holds any other one has its two standard fields.  The condition can be decided.

For a class of a regular schema everything that its plan lists has a codec (`FieldKind.IsCoded`,
`MemberKind.IsCoded`), and the values of the message that holds any other one are kept where its own
code looks for them (`place_any`).
-/

namespace Missive.Schema

open List

variable {a : Arena} {m : Message} {f : Field} {o : Oneof} {plan : OneofPlan} {member : MemberPlan} {slot : Nat}

namespace Message

/-- A map entry: a scalar key first, a scalar or message value second. -/
def IsEntry (m : Message) : Prop :=
  (∃ key ∈ m.fields[0]?, key.type.isScalar = true)
    ∧ ∃ value ∈ m.fields[1]?, value.type ≠ .group ∧ value.isRepeated = false

instance (m : Message) : Decidable m.IsEntry := inferInstanceAs (Decidable (_ ∧ _))

end Message

namespace Forest

/-- The message that holds any other one, with its two standard fields and nothing else. -/
def IsStandardAny (a : Arena) (id : Nat) (m : Message) : Prop :=
  m.fields.map (fun f => (f.name, f.number, f.type)) = [("type_url", 1, .string), ("value", 2, .bytes)]
    ∧ (∀ f ∈ m.fields, f.isRepeated = false ∧ f.oneof = none ∧ f.default = none)
    ∧ m.oneofNames = [] ∧ m.ranges.list = [] ∧ a.nestedMessages id = []

instance (a : Arena) (id : Nat) (m : Message) : Decidable (a.IsStandardAny id m) :=
  inferInstanceAs (Decidable (_ ∧ _ ∧ _ ∧ _ ∧ _))

lemma proto3_of_isAny {id : Nat} (found : a.message? id = some m) (isAny : a.isAny id = true) :
    m.proto3 = true := by
  unfold Forest.isAny at isAny
  rw [found] at isAny
  split at isAny
  · rename_i same
    cases same
    simp_all
  · cases isAny

/-- Is every message of a schema what a schema compiler lets through? -/
def Regular (a : Arena) : Prop :=
  ∀ id ∈ a.ids, ∀ m ∈ a.message? id, (∀ f ∈ m.fields, (m.oneofOf f).isSome = true → f.isRepeated = false)
      ∧ (m.mapEntry = true → m.IsEntry) ∧ (a.isAny id = true → a.IsStandardAny id m)

instance (a : Arena) : Decidable a.Regular :=
  inferInstanceAs (Decidable (∀ id ∈ a.ids, ∀ m ∈ a.message? id, _))

namespace Regular

variable {id : Nat}

lemma mem_ids (found : a.message? id = some m) : id ∈ a.ids := by
  obtain ⟨node, there, -⟩ := Option.bind_eq_some_iff.1 found
  exact mem_range.2 (List.getElem?_eq_some_iff.1 there).1

section

variable (regular : a.Regular) (found : a.message? id = some m)

include regular found

lemma singular (declared : f ∈ m.fields) (inside : (m.oneofOf f).isSome = true) : f.isRepeated = false :=
  (regular id (mem_ids found) m found).1 f declared inside

lemma entry (isEntry : m.mapEntry = true) :
    m.IsEntry :=
  (regular id (mem_ids found) m found).2.1 isEntry

lemma any (isAny : a.isAny id = true) :
    a.IsStandardAny id m :=
  (regular id (mem_ids found) m found).2.2 isAny

end

end Regular

end Forest

end Missive.Schema

namespace Missive.Plan

open Schema List

/-! ## Kinds with a codec -/

/-- Is there a codec for the values of a field? -/
def FieldKind.IsCoded : FieldKind → Prop
  | scalar type _ _ | repeated type _ => type.isScalar = true
  | message _ _ | repeatedMessage _ _ => True
  | map key value none => key.isScalar = true ∧ value.isScalar = true
  | map key value (some _) => key.isScalar = true ∧ value = .message

/-- Is there a codec for the values of a member? -/
def MemberKind.IsCoded : MemberKind → Prop
  | scalar type _ => type.isScalar = true
  | message _ ref decodeRef => ref.target = decodeRef.target
  | entry _ => False

section coded

lemma KindOf.isCoded (regular : a.Regular) {kind : FieldKind} (h : KindOf a m f kind) :
    kind.IsCoded := by
  cases h with
  | scalar singular type => exact type
  | repeated many type => exact type
  | message | repeatedMessage => trivial
  | @map id entry key value ref many type isEntry first second valueClass =>
    have found : a.message? id = some entry := (messageType_ok type).2
    obtain ⟨⟨key', keyIs, keyType⟩, ⟨value', valueIs, notGroup, single⟩⟩ :=
      regular.entry found isEntry
    obtain rfl : key' = key := Option.some.inj ((Option.mem_def.1 keyIs).symm.trans first)
    obtain rfl : value' = value := Option.some.inj ((Option.mem_def.1 valueIs).symm.trans second)
    have classIs : a.classify value' = .ok .message ↔ value'.type = .message := by
      unfold Forest.classify Forest.isMap
      rw [single]
      cases value'.type <;> simp_all [pure, Except.pure, bind, Except.bind]
    cases ref with
    | none =>
      refine ⟨keyType, ?_⟩
      have notMessage : value'.type ≠ .message := fun same => by
        simpa using valueClass.1 (classIs.2 same)
      cases type : value'.type <;> simp_all [FieldType.isScalar]
    | some => exact ⟨keyType, classIs.1 (valueClass.2 rfl)⟩

lemma MemberKindOf.isCoded (singular : f.isRepeated = false) {kind : MemberKind}
    (h : MemberKindOf a f kind) : kind.IsCoded := by
  cases h with
  | scalar type => exact type
  | message type same => exact same
  | entry many => simp [singular] at many

lemma OneofFor.exists_field (oneof : OneofFor a o plan) (inside : member ∈ plan.members) :
    ∃ f ∈ o.members, member.number = f.number ∧ MemberKindOf a f member.kind :=
  exists_left_of_mem oneof.members inside

end coded

lemma member?_eq_some {o : OneofPlan} {number : Int} (found : o.member? number = some member) :
    member ∈ o.members ∧ member.number = number :=
  ⟨mem_of_find?_eq_some found, by simpa using find?_some found⟩

@[simp] lemma memberOf?_int (o : OneofPlan) (number : Int) :
    o.memberOf? (.int number) = o.member? number := by
  unfold OneofPlan.memberOf? OneofPlan.member?
  congr 1
  funext m
  simp [Scalar.equal, Scalar.int?, Bool.beq_comm]

namespace Planned

variable {c : ClassPlan}

section

variable (planned : Planned a m c)

include planned

/-- A declared field that is in no oneof presents such a field of the message. -/
lemma exists_plain {f : FieldPlan} (member : Declared.field slot f ∈ c.declared) :
    ∃ g ∈ m.fields, m.oneofOf g = none ∧ slot = slotIndex m (.field g.number)
      ∧ f.number = g.number ∧ KindOf a m g f.kind := by
  obtain ⟨oneofs, g, inside, presents⟩ := planned.exists_presents member
  cases presents with
  | field plain number kind => exact ⟨g, inside, plain, rfl, number, kind⟩

/-- A declared field that is in no oneof has the kind of a field of the message. -/
lemma exists_kindOf {f : FieldPlan} (member : Declared.field slot f ∈ c.declared) :
    ∃ g ∈ m.fields, f.number = g.number ∧ KindOf a m g f.kind := by
  obtain ⟨g, inside, -, -, number, kind⟩ := planned.exists_plain member
  exact ⟨g, inside, number, kind⟩

lemma field_isCoded (regular : a.Regular) {f : FieldPlan} (member : Declared.field slot f ∈ c.declared) :
    f.kind.IsCoded := by
  obtain ⟨g, -, -, kind⟩ := planned.exists_kindOf member
  exact kind.isCoded regular

/-- A field that is in no oneof is declared in a slot of its own, by its kind. -/
lemma exists_field_kind (inside : f ∈ m.fields) (plain : m.oneofOf f = none) :
    ∃ plan : FieldPlan, Declared.field (slotIndex m (.field f.number)) plan ∈ c.declared
      ∧ plan.number = f.number ∧ KindOf a m f plan.kind := by
  obtain ⟨oneofs, d, there, presents⟩ := planned.exists_presented inside
  cases presents with
  | field _ number kind => exact ⟨_, there, number, kind⟩
  | member member => cases plain.symm.trans member

/-- A field that is in no oneof is declared in a slot of its own. -/
lemma exists_field (inside : f ∈ m.fields) (plain : m.oneofOf f = none) :
    ∃ plan : FieldPlan, Declared.field (slotIndex m (.field f.number)) plan ∈ c.declared ∧ plan.number = f.number := by
  obtain ⟨plan, declared, number, -⟩ := planned.exists_field_kind inside plain
  exact ⟨plan, declared, number⟩

/-- A oneof of the message has a plan, which declares all its members in one slot. -/
lemma exists_oneof (resolved : m.Resolved) (isOneof : o ∈ m.oneofs) :
    ∃ plan, OneofFor a o plan ∧ c.slots[slotIndex m (.oneof o.index)]? = some (.oneof plan)
      ∧ ∀ f ∈ o.members, ∃ member first, Declared.member (slotIndex m (.oneof o.index)) plan member first ∈ c.declared
            ∧ plan.member? f.number = some member := by
  obtain ⟨oneofs, entries⟩ := planned.presents
  -- Each member is presented by the plan that is known for the position of the oneof.
  have each : ∀ f ∈ o.members, ∃ plan member first, oneofs.lookup o.index = some plan ∧ OneofFor a o plan
      ∧ Declared.member (slotIndex m (.oneof o.index)) plan member first ∈ c.declared
      ∧ plan.member? f.number = some member := by
    intro f inside
    obtain ⟨inMessage, of⟩ := (mem_members_iff isOneof).1 inside
    obtain ⟨d, there, presents⟩ := exists_right_of_mem entries inMessage
    cases presents with
    | field plain => simp [plain] at of
    | member of' known oneof found =>
      cases Option.some.inj (of'.symm.trans of)
      exact ⟨_, _, _, known, oneof, there, found⟩
  obtain ⟨g, inside⟩ := exists_mem_of_ne_nil _ (resolved.inhabited o (mem_oneofs isOneof).1)
  obtain ⟨plan, member, first, known, oneof, there, -⟩ := each g inside
  refine ⟨plan, oneof, planned.slot_of_declared resolved there, fun f inside => ?_⟩
  obtain ⟨plan', member, first, known', -, there, found⟩ := each f inside
  cases known.symm.trans known'
  exact ⟨member, first, there, found⟩

/-- A declared member belongs to a oneof of the message. -/
lemma oneof_of_member {first : Bool} (there : Declared.member slot plan member first ∈ c.declared) :
    ∃ o ∈ m.oneofs, slot = slotIndex m (.oneof o.index) ∧ OneofFor a o plan
      ∧ plan.member? member.number = some member := by
  obtain ⟨oneofs, g, -, presents⟩ := planned.exists_presents there
  cases presents with
  | member inside known oneof found =>
    exact ⟨_, (oneofOf_some inside).1, rfl, oneof, (member?_eq_some found).2 ▸ found⟩

lemma declared_of_oneof (resolved : m.Resolved) {i : Nat} (slot : c.slots[i]? = some (.oneof plan)) {number : Int}
    (found : plan.member? number = some member) :
    ∃ first, Declared.member i plan member first ∈ c.declared := by
  obtain ⟨d, there, rfl, content⟩ := planned.exists_declared resolved slot
  cases d with
  | field => cases content
  | member i other =>
    obtain ⟨o, isOneof, slotIs, oneof, -⟩ := planned.oneof_of_member there
    obtain ⟨plan', -, slot', members⟩ := planned.exists_oneof resolved isOneof
    rw [← slotIs] at slot' members
    obtain rfl : plan' = plan := SlotPlan.oneof.inj (Option.some.inj (slot'.symm.trans slot))
    obtain rfl : other = plan' := SlotPlan.oneof.inj content
    obtain ⟨inside, isNumber⟩ := member?_eq_some found
    obtain ⟨f, isField, number', -⟩ := oneof.exists_field inside
    obtain ⟨member'', first', there', found'⟩ := members f isField
    rw [← number', isNumber, found] at found'
    cases found'
    exact ⟨first', there'⟩

lemma member_isCoded (regular : a.Regular) (isOneof : o ∈ m.oneofs) (oneof : OneofFor a o plan)
    (inside : member ∈ plan.members) : member.kind.IsCoded := by
  obtain ⟨f, there, -, kind⟩ := oneof.exists_field inside
  obtain ⟨declared, of⟩ := (mem_members_iff isOneof).1 there
  exact kind.isCoded (regular.singular planned.found declared (by simp [of]))

end

/-! ## The message that holds any other one -/

lemma standardNames :
    (Naming.nameScope ⟨["type_url", "value"], [], []⟩).fieldStorage = ["_type_url", "_value"] := by
  decide +kernel

/-- A singular scalar field of the newer dialect that is in no oneof and declares no default. -/
lemma kind_of_plain (proto3 : m.proto3 = true) (singular : f.isRepeated = false) (outside : f.oneof = none)
    (zero : f.default = none) (type : f.type.isScalar = true) (notEnum : f.type ≠ .enum) {kind : FieldKind}
    (h : KindOf a m f kind) :
    kind = .scalar f.type false f.type.default := by
  cases h with
  | @scalar default _ _ value =>
    have presence : f.hasPresence m = false := by
      simp [Field.hasPresence, singular, Field.isMessage, type, outside, proto3]
    have : f.type.default = default := by
      simpa [Forest.defaultOf, notEnum, zero] using value
    rw [presence, this]
  | repeated many | repeatedMessage many | map many => simp [singular] at many
  | message _ nested => simp [type] at nested

section

variable (planned : Planned a m c) (regular : a.Regular) (isAny : c.isAny = true)

include planned regular isAny

/-- The class of the message that holds any other one. -/
lemma any_declared :
    ∃ url value : FieldPlan, c.declared = [.field 0 url, .field 1 value] ∧ c.ranges.list = []
      ∧ url.storageName = "_type_url" ∧ url.number = 1
      ∧ url.kind = .scalar .string false (.text "")
      ∧ value.storageName = "_value" ∧ value.number = 2
      ∧ value.kind = .scalar .bytes false (.bytes []) := by
  rw [planned.isAny] at isAny
  obtain ⟨fields, plain, oneofs, ranges, nested⟩ := regular.any planned.found isAny
  have proto3 : m.proto3 = true := Forest.proto3_of_isAny planned.found isAny
  obtain ⟨f, g, whole⟩ : ∃ f g, m.fields = [f, g] :=
    length_eq_two.1 (by simpa using congrArg List.length fields)
  rw [whole] at fields plain
  simp only [map_cons, map_nil, List.cons.injEq, Prod.mk.injEq, and_true] at fields
  obtain ⟨⟨fName, fNumber, fType⟩, gName, gNumber, gType⟩ := fields
  obtain ⟨fSingle, fOutside, fZero⟩ := plain f (by simp)
  obtain ⟨gSingle, gOutside, gZero⟩ := plain g (by simp)
  have names : Naming.scopeDecl a c.id = ⟨["type_url", "value"], [], []⟩ := by
    simp [Naming.scopeDecl, planned.found, whole, fName, gName, nested, Message.oneofs, Message.allOneofs, oneofs]
  have keys : slotKeys m = [.field 1, .field 2] := by
    simp [slotKeys, whole, slotKey, Message.oneofOf, fOutside, gOutside, fNumber, gNumber]
  obtain ⟨plans, entries⟩ := planned.declared
  rw [whole, names] at entries
  simp only [zipIdx_cons, zipIdx_nil, Nat.zero_add] at entries
  have plainField : ∀ {h : Field} {d : Declared} {position : Nat}, h.oneof = none →
      h.isRepeated = false → h.default = none → h.type.isScalar = true → h.type ≠ .enum →
      Presents a m plans h d →
      d.StoredAs (Naming.nameScope ⟨["type_url", "value"], [], []⟩) position →
      ∃ plan : FieldPlan, d = .field (slotIndex m (.field h.number)) plan
        ∧ plan.storageName = nameAt ["_type_url", "_value"] position ∧ plan.number = h.number
        ∧ plan.kind = .scalar h.type false h.type.default := by
    intro h d position outside single zero scalar notEnum presents stored
    cases presents with
    | field plain number kind =>
      exact ⟨_, rfl, standardNames ▸ stored, number, kind_of_plain proto3 single outside zero scalar notEnum kind⟩
    | member inside => simp [Message.oneofOf, outside] at inside
  generalize c.declared = declared at entries ⊢
  cases entries with
  | cons first rest =>
    cases rest with
    | cons second rest =>
      cases rest
      obtain ⟨url, rfl, urlName, urlNumber, urlKind⟩ := plainField fOutside fSingle fZero
        (by simp [fType, FieldType.isScalar]) (by simp [fType]) first.1 first.2
      obtain ⟨value, rfl, valueName, valueNumber, valueKind⟩ := plainField gOutside gSingle gZero
        (by simp [gType, FieldType.isScalar]) (by simp [gType]) second.1 second.2
      refine ⟨url, value, ?_, by rw [planned.ranges, ranges], urlName, urlNumber.trans fNumber, ?_,
        valueName, valueNumber.trans gNumber, ?_⟩
      · simp [slotIndex, keys, fNumber, gNumber]
      · rw [urlKind, fType]
        rfl
      · rw [valueKind, gType]
        rfl

/-- Where the values of a class are kept: in the slots themselves, or, if it holds any other message,
the type in the first one and the content behind it. -/
lemma anyNames_eq :
    c.anyNames = ["_type_url", "_value_data", "_message"] := by
  obtain ⟨url, value, declared, -, urlName, -, -, valueName, -, -⟩ :=
    planned.any_declared regular isAny
  have slots : c.slots = [.field url, .field value] := by
    rw [planned.slots, declared]
    rfl
  simp [ClassPlan.anyNames, slots, SlotPlan.storageName, urlName, valueName, ownersName, escapedName]

lemma place_any :
    c.place 0 = .slot 0 ∧ c.place 1 = .packed ∧ ∀ i, 1 < i → c.place i = .missing := by
  obtain ⟨url, value, declared, -, urlName, -, -, valueName, -, -⟩ :=
    planned.any_declared regular isAny
  have slots : c.slots = [.field url, .field value] := by
    rw [planned.slots, declared]
    rfl
  have names := planned.anyNames_eq regular isAny
  refine ⟨?_, ?_, ?_⟩
  · simp [ClassPlan.place, isAny, slots, SlotPlan.storageName, urlName, names, findIdx?_cons]
  · simp [ClassPlan.place, isAny, slots, SlotPlan.storageName, valueName]
  · intro i far
    have : c.slots[i]? = none := by
      rw [slots]
      exact getElem?_eq_none far
    simp [ClassPlan.place, isAny, this]

end

end Planned

lemma place_plain {c : ClassPlan} (plain : c.isAny = false) (i : Nat) : c.place i = .slot i := by
  simp [ClassPlan.place, plain]

end Missive.Plan
