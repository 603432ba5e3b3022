import Missive.Message.Program
import Missive.Proofs.Schema.Resolved

/-!
# What a plan says about its message

A program is built by planning every class of every file.  `Planned` collects what that leaves in a
class plan, in terms of the message the class is for: the declared fields with their kinds, the slots
they need, the dispatch and the traversal.  `planned_of_build` is the one place where planning is
opened.

The steps follow planning itself: names are given in the order of declarations, each declared field is
presented by its kind, and slots are what is declared first.
-/

namespace Missive.Plan

open Schema Naming List

variable {a : Arena} {id position : Nat} {f g : Field} {s : Scene} {here : Standpoint} {m : Message}
  {o : Oneof} {oneofs : List (Nat × OneofPlan)} {pairs : List (Field × Declared)} {c : ClassPlan}
  {p p' : Progress} {t : TypeId}

variable {ref : ClassRef} {oneofClass : String} {plan : OneofPlan}

/-! ## Names -/

lemma length_assignAll (reserved used names : List String) :
    (assignAll reserved used names).1.length = names.length := by
  induction names generalizing used with
  | nil => rfl
  | cons name rest ih => simp [assignAll, ih]

lemma length_nameRound (d : ScopeDecl) (free : List String) :
    (nameRound d free).fields.length = d.fields.length :=
  length_assignAll _ _ _

lemma length_settle (d : ScopeDecl) (turns : Nat) (free : List String) :
    (settle d turns free).fields.length = d.fields.length := by
  induction turns generalizing free with
  | zero => exact length_nameRound d free
  | succ turns ih =>
    rw [settle]
    split
    · exact length_nameRound d free
    · exact ih _

lemma length_nameScope (d : ScopeDecl) : (nameScope d).fields.length = d.fields.length :=
  length_settle _ _ _

/-- The names inside a class are those of its scope, and there is one for every field. -/
lemma scope_names (found : a.message? id = some m) {scope : ScopeNames} (h : (names a).scope id = .ok scope) :
    scope = nameScope (scopeDecl a id) ∧ scope.fields.length = m.fields.length := by
  have known : ∀ entry ∈ (names a).scopes, entry.2 = nameScope (scopeDecl a entry.1) := by
    intro entry member
    simp only [names, fileNames, mem_flatMap, mem_map, exists_exists_and_eq_and] at member
    obtain ⟨file, -, id', -, member⟩ := member
    obtain rfl : entry = (id', nameScope (scopeDecl a id')) := by simpa [messageNames] using member
    rfl
  unfold Names.scope at h
  split at h
  · rename_i there
    obtain ⟨front, back, whole, -⟩ := lookup_eq_some_iff.1 there
    obtain rfl : scope = _ := (Except.ok.inj h).symm.trans (known (id, _) (by rw [whole]; simp))
    exact ⟨rfl, by rw [length_nameScope, scopeDecl, found, length_map]⟩
  · cases h

/-! ## Kinds -/

/-- The kind of a field that is in no oneof, read off the schema. -/
inductive KindOf (a : Arena) (m : Message) (f : Field) : FieldKind → Prop
  | scalar {default : Scalar} (singular : f.isRepeated = false) (type : f.type.isScalar = true)
      (value : a.defaultOf f = .ok default) : KindOf a m f (.scalar f.type (f.hasPresence m) default)
  | repeated (many : f.isRepeated = true) (type : f.type.isScalar = true) :
      KindOf a m f (.repeated f.type (f.isPacked m))
  | message {ref : ClassRef} (singular : f.isRepeated = false) (type : f.type.isScalar = false)
      (target : a.typeMessage? f = some ref.target) : KindOf a m f (.message (f.type == .group) ref)
  | repeatedMessage {ref : ClassRef} (many : f.isRepeated = true) (type : f.type.isScalar = false)
      (target : a.typeMessage? f = some ref.target) (plain : a.classify f ≠ .ok .map) :
      KindOf a m f (.repeatedMessage (f.type == .group) ref)
  | map {id : Nat} {entry : Message} {key value : Field} {ref : Option ClassRef}
      (many : f.isRepeated = true) (type : a.messageType f = .ok (id, entry)) (isEntry : entry.mapEntry = true)
      (first : entry.fields[0]? = some key) (second : entry.fields[1]? = some value)
      (valueClass : a.classify value = .ok .message ↔ ref.isSome = true)
      (target : ∀ r ∈ ref, a.typeMessage? value = some r.target) (isMap : a.classify f = .ok .map) :
      KindOf a m f (.map key.type value.type ref)

/-- The kind of a member of a oneof, read off the schema. -/
inductive MemberKindOf (a : Arena) (f : Field) : MemberKind → Prop
  | scalar {default : Scalar} (type : f.type.isScalar = true) :
      MemberKindOf a f (.scalar f.type default)
  | message {ref decodeRef : ClassRef} (type : f.type.isScalar = false) (same : ref.target = decodeRef.target)
      (target : a.typeMessage? f = some ref.target) :
      MemberKindOf a f (.message (f.type == .group) ref decodeRef)
  | entry {ref : ClassRef} (many : f.isRepeated = true) : MemberKindOf a f (.entry ref)

lemma classify_ok {kind : FieldClass} (h : a.classify f = .ok kind) :
    match kind with
    | .map => f.isRepeated = true ∧ f.type = .message
        ∧ ∃ id entry, a.messageType f = .ok (id, entry) ∧ entry.mapEntry = true
    | .group => f.type = .group
    | .message => f.type = .message
    | .scalar => f.type.isScalar = true := by
  unfold Forest.classify at h
  obtain ⟨isMap, found, h⟩ := bind_ok h
  cases isMap with
  | true =>
    obtain rfl : FieldClass.map = kind := by simpa [pure, Except.pure] using h
    unfold Forest.isMap at found
    split at found
    · rename_i nested
      obtain ⟨⟨id, entry⟩, type, isEntry⟩ := bind_ok found
      have nested : f.isRepeated = true ∧ f.type = .message := by simpa using nested
      exact ⟨nested.1, nested.2, id, entry, type, by simpa [pure, Except.pure] using isEntry⟩
    · cases found
  | false =>
    simp only [Bool.false_eq_true, if_false] at h
    cases type : f.type <;> simp [type, pure, Except.pure] at h <;> subst h <;>
      simp [FieldType.isScalar]

lemma classRef_target {id : TypeId} (h : s.classRef here id = .ok ref) :
    ref.target = id := by
  unfold Scene.classRef at h
  obtain ⟨text, -, h⟩ := bind_ok h
  cases h
  rfl

lemma messageType_ok (h : a.messageType f = .ok (id, m)) :
    a.typeMessage? f = some id ∧ a.message? id = some m := by
  unfold Forest.messageType at h
  split at h
  · cases h
  · rename_i node
    split at h
    · cases h
    · rename_i found
      obtain ⟨rfl, rfl⟩ := Prod.mk.inj (Except.ok.inj h)
      exact ⟨by simp [Forest.typeMessage?, node, found], found⟩

lemma fieldRef_target (h : s.fieldRef here f = .ok ref) :
    s.arena.typeMessage? f = some ref.target := by
  unfold Scene.fieldRef at h
  obtain ⟨⟨id, m⟩, type, h⟩ := bind_ok h
  rw [classRef_target h]
  exact (messageType_ok type).1

lemma entryField_ok (h : a.entryField f position = .ok g) {entry : Message}
    (type : a.messageType f = .ok (id, entry)) : entry.fields[position]? = some g := by
  unfold Forest.entryField at h
  obtain ⟨_, same, h⟩ := bind_ok h
  cases type.symm.trans same
  dsimp only at h
  split at h
  · rename_i found
    rw [found, Except.ok.inj h]
  · cases h

/-- There is a reference to the class of a map's values where they are messages. -/
lemma valueRef_ok {ref : Option ClassRef} (h : s.valueRef here f = .ok ref) {value : Field}
    (found : s.arena.valueField f = .ok value) :
    (s.arena.classify value = .ok .message ↔ ref.isSome = true)
      ∧ ∀ r ∈ ref, s.arena.typeMessage? value = some r.target := by
  unfold Scene.valueRef at h
  obtain ⟨value', same, h⟩ := bind_ok h
  cases same.symm.trans found
  obtain ⟨kind, class_, h⟩ := bind_ok h
  rw [class_]
  by_cases message : kind = .message
  · subst message
    simp only [beq_self_eq_true, if_true] at h
    obtain ⟨r, refIs, h⟩ := bind_ok h
    cases h
    exact ⟨by simp, by simpa using fieldRef_target refIs⟩
  · simp only [beq_iff_eq, message, if_false] at h
    cases h
    exact ⟨by simpa using message, by simp⟩

lemma fieldKind_ok {kind : FieldKind} (h : s.fieldKind here m f = .ok kind) : KindOf s.arena m f kind := by
  unfold Scene.fieldKind at h
  obtain ⟨class_, classified, h⟩ := bind_ok h
  have facts := classify_ok classified
  cases class_ with
  | map =>
    obtain ⟨many, -, id, entry, type, isEntry⟩ := facts
    obtain ⟨key, keyIs, h⟩ := bind_ok h
    obtain ⟨value, valueIs, h⟩ := bind_ok h
    obtain ⟨ref, refIs, h⟩ := bind_ok h
    cases h
    obtain ⟨valueClass, target⟩ := valueRef_ok refIs valueIs
    exact .map many type isEntry (entryField_ok keyIs type) (entryField_ok valueIs type) valueClass target classified
  | group | message =>
    have type : f.type = _ := facts
    have nested : f.type.isScalar = false := by simp [type, FieldType.isScalar]
    by_cases many : f.isRepeated = true
    · simp only [many, if_true] at h
      obtain ⟨ref, refIs, h⟩ := bind_ok h
      cases h
      have kind : KindOf s.arena m f _ :=
        .repeatedMessage many nested (fieldRef_target refIs) (by simp [classified])
      rwa [type] at kind
    · simp only [many, Bool.false_eq_true, if_false] at h
      obtain ⟨ref, refIs, h⟩ := bind_ok h
      cases h
      have kind : KindOf s.arena m f _ := .message (by simpa using many) nested (fieldRef_target refIs)
      rwa [type] at kind
  | scalar =>
    by_cases many : f.isRepeated = true
    · simp only [many, if_true] at h
      cases h
      exact .repeated many facts
    · simp only [many, Bool.false_eq_true, if_false] at h
      obtain ⟨default, value, h⟩ := bind_ok h
      cases h
      exact .scalar (by simpa using many) facts value

lemma memberKind_ok {kind : MemberKind} (h : s.memberKind here oneofClass f = .ok kind) :
    MemberKindOf s.arena f kind := by
  unfold Scene.memberKind at h
  obtain ⟨class_, classified, h⟩ := bind_ok h
  have facts := classify_ok classified
  cases class_ with
  | map =>
    obtain ⟨ref, -, h⟩ := bind_ok h
    cases h
    exact .entry facts.1
  | group | message =>
    have type : f.type = _ := facts
    obtain ⟨ref, refIs, h⟩ := bind_ok h
    obtain ⟨decodeRef, decodeRefIs, h⟩ := bind_ok h
    cases h
    have kind : MemberKindOf s.arena f _ := .message (by simp [type, FieldType.isScalar])
      (Option.some.inj ((fieldRef_target refIs).symm.trans (fieldRef_target decodeRefIs)))
      (fieldRef_target refIs)
    rwa [type] at kind
  | scalar =>
    obtain ⟨default, -, h⟩ := bind_ok h
    cases h
    exact .scalar facts

/-! ## Oneofs -/

lemma mem_allOneofs (h : o ∈ m.allOneofs) :
    m.oneofNames[o.index]? = some o.name ∧ o.members = m.fields.filter fun f => f.oneof == some o.index := by
  obtain ⟨i, inside, rfl⟩ := mem_mapIdx.1 h
  exact ⟨getElem?_eq_getElem inside, rfl⟩

lemma mem_oneofs (h : o ∈ m.oneofs) :
    o ∈ m.allOneofs ∧ o.isSynthetic = false := by
  simpa [Message.oneofs] using h

lemma oneof_ext {o' : Oneof} (h : o ∈ m.allOneofs) (h' : o' ∈ m.allOneofs) (same : o.index = o'.index) :
    o = o' := by
  obtain ⟨name, members⟩ := mem_allOneofs h
  obtain ⟨name', members'⟩ := mem_allOneofs h'
  cases o
  cases o'
  simp_all

lemma oneofOf_some (h : m.oneofOf f = some o) :
    o ∈ m.oneofs ∧ f.oneof = some o.index := by
  obtain ⟨index, position, found⟩ := Option.bind_eq_some_iff.1 h
  have same : o.index = index := by simpa using find?_some found
  exact ⟨mem_of_find?_eq_some found, same ▸ position⟩

lemma oneofOf_of_mem (member : o ∈ m.oneofs) (inside : f.oneof = some o.index) :
    m.oneofOf f = some o := by
  cases found : m.oneofs.find? fun o' => o'.index == o.index with
  | none => exact absurd (find?_eq_none.1 found o member) (by simp)
  | some o' =>
    have same : o'.index = o.index := by simpa using find?_some found
    obtain rfl := oneof_ext (mem_oneofs (mem_of_find?_eq_some found)).1 (mem_oneofs member).1 same
    simp [Message.oneofOf, inside, found]

lemma oneofOf_eq (h : m.oneofOf f = some o) (same : g.oneof = some o.index) : m.oneofOf g = some o :=
  oneofOf_of_mem (oneofOf_some h).1 same

lemma mem_members_iff (isOneof : o ∈ m.oneofs) : f ∈ o.members ↔ f ∈ m.fields ∧ m.oneofOf f = some o := by
  rw [(mem_allOneofs (mem_oneofs isOneof).1).2, mem_filter, beq_iff_eq]
  exact and_congr_right fun _ => ⟨oneofOf_of_mem isOneof, fun of => (oneofOf_some of).2⟩

lemma mem_members (declared : f ∈ m.fields) (h : m.oneofOf f = some o) : f ∈ o.members :=
  (mem_members_iff (oneofOf_some h).1).2 ⟨declared, h⟩

/-- A plan of a oneof presents its members in order. -/
structure OneofFor (a : Arena) (o : Oneof) (plan : OneofPlan) : Prop where
  declared : plan.declared = o.name
  members : Forall₂ (fun f member => member.number = f.number ∧ MemberKindOf a f member.kind) o.members plan.members

lemma OneofFor.exists_member (oneof : OneofFor a o plan) (inside : f ∈ o.members) :
    ∃ member, plan.member? f.number = some member := by
  rw [← Option.isSome_iff_exists, OneofPlan.member?, find?_isSome]
  have members := oneof.members
  generalize o.members = fields at members inside
  generalize plan.members = plans at members
  induction members with
  | nil => cases inside
  | cons same _ ih =>
    rcases mem_cons.1 inside with rfl | later
    · exact ⟨_, .head _, by simp [same.1]⟩
    · obtain ⟨member, found, number⟩ := ih later
      exact ⟨member, .tail _ found, number⟩

section declared

variable {names : ScopeNames}

/-- What the plan of a oneof calls it, and its members in order: the fields in its position with their
names and kinds. -/
lemma planOneof_inv (h : planOneof s here m names position o = .ok plan) :
    plan.name = nameAt names.oneofs position ∧ plan.className = nameAt names.oneofClasses position
      ∧ plan.storageName = nameAt names.oneofStorage position ∧ plan.declared = o.name
      ∧ Forall₂ (fun pair member => member.name = pair.2 ∧ member.number = pair.1.number
          ∧ s.memberKind here plan.className pair.1 = .ok member.kind)
        ((m.fields.zip names.fields).filter fun pair => pair.1.oneof == some o.index) plan.members := by
  unfold planOneof at h
  obtain ⟨members, found, h⟩ := bind_ok h
  cases h
  refine ⟨rfl, rfl, rfl, rfl, ?_⟩
  obtain ⟨options, entries, rfl⟩ := filterMapM_ok found
  clear * - entries
  generalize m.fields.zip names.fields = pairs at entries
  induction entries with
  | nil => exact .nil
  | @cons pair option _ _ first _ ih =>
    by_cases inside : (pair.1.oneof == some o.index) = true
    · simp only [inside, if_true] at first
      obtain ⟨kind, kindIs, first⟩ := bind_ok first
      cases first
      rw [filter_cons, if_pos inside]
      exact .cons ⟨rfl, rfl, kindIs⟩ ih
    · simp only [inside, Bool.false_eq_true, if_false] at first
      cases first
      rw [filter_cons, if_neg inside]
      exact ih

lemma planOneof_ok (length : names.fields.length = m.fields.length) (member : o ∈ m.oneofs)
    (h : planOneof s here m names position o = .ok plan) :
    OneofFor s.arena o plan := by
  obtain ⟨-, -, -, declared, members⟩ := planOneof_inv h
  refine ⟨declared, ?_⟩
  have fields : ((m.fields.zip names.fields).filter fun pair => pair.1.oneof == some o.index).map (·.1)
      = o.members := by
    rw [(mem_allOneofs (mem_oneofs member).1).2, ← map_fst_zip (Nat.le_of_eq length.symm), filter_map,
      map_fst_zip (Nat.le_of_eq length.symm)]
    rfl
  rw [← fields, forall₂_map_left_iff]
  exact members.imp fun _ _ found => ⟨found.2.1, memberKind_ok found.2.2⟩

/-- The plans of the oneofs of a message, each with its index. -/
abbrev planOneofs (s : Scene) (here : Standpoint) (m : Message) (names : ScopeNames) :
    Except Defect (List (Nat × OneofPlan)) :=
  m.oneofs.zipIdx.mapM fun (o, position) => do return (o.index, ← planOneof s here m names position o)

lemma planOneofs_inv (h : planOneofs s here m names = .ok oneofs) :
    Forall₂ (fun pair e => e.1 = pair.1.index ∧ planOneof s here m names pair.2 pair.1 = .ok e.2)
      m.oneofs.zipIdx oneofs := by
  refine (mapM_ok h).imp fun pair e made => ?_
  obtain ⟨plan, planned, made⟩ := bind_ok made
  cases made
  exact ⟨rfl, planned⟩

/-- The plan of a oneof, which stands at a position, is found by its index. -/
lemma exists_planOneof (h : planOneofs s here m names = .ok oneofs) (member : o ∈ m.oneofs) :
    ∃ plan, oneofs.lookup o.index = some plan
      ∧ ∃ position : Nat, m.oneofs[position]? = some o ∧ planOneof s here m names position o = .ok plan := by
  have known : (oneofs.lookup o.index).isSome = true := by
    obtain ⟨position, inside, there⟩ := getElem_of_mem member
    have paired : (o, position) ∈ m.oneofs.zipIdx := by
      simp [mk_mem_zipIdx_iff_getElem?, inside, there]
    obtain ⟨e, found, index, -⟩ := exists_right_of_mem (planOneofs_inv h) paired
    exact lookup_isSome_iff.2 ⟨e, found, by simp [index]⟩
  obtain ⟨plan, found⟩ := Option.isSome_iff_exists.1 known
  obtain ⟨front, back, whole, -⟩ := lookup_eq_some_iff.1 found
  obtain ⟨⟨o', position⟩, paired, same, planned⟩ :=
    exists_left_of_mem (planOneofs_inv h) (show (o.index, plan) ∈ oneofs by simp [whole])
  have there : m.oneofs[position]? = some o' := mk_mem_zipIdx_iff_getElem?.1 paired
  obtain rfl := oneof_ext (mem_oneofs (mem_of_getElem? there)).1 (mem_oneofs member).1 same.symm
  exact ⟨plan, found, position, there, planned⟩

lemma planOneofs_ok (length : names.fields.length = m.fields.length) (h : planOneofs s here m names = .ok oneofs)
    (member : o ∈ m.oneofs) :
    ∃ plan, oneofs.lookup o.index = some plan ∧ OneofFor s.arena o plan := by
  obtain ⟨plan, found, position, -, planned⟩ := exists_planOneof h member
  exact ⟨plan, found, planOneof_ok length member planned⟩

/-! ## Declared fields and their slots -/

def Declared.slot : Declared → Nat
  | field slot _ => slot
  | member slot _ _ _ => slot

def Declared.content : Declared → SlotPlan
  | field _ f => .field f
  | member _ o _ _ => .oneof o

def Declared.number : Declared → Int
  | field _ f => f.number
  | member _ _ m _ => m.number

/-- How a class presents a declared field of its message, given the plans of its oneofs. -/
inductive Presents (a : Arena) (m : Message) (oneofs : List (Nat × OneofPlan)) (f : Field) :
    Declared → Prop
  | field {plan : FieldPlan} (plain : m.oneofOf f = none) (number : plan.number = f.number)
      (kind : KindOf a m f plan.kind) :
      Presents a m oneofs f (.field (slotIndex m (.field f.number)) plan)
  | member {o : Oneof} {plan : OneofPlan} {member : MemberPlan} (inside : m.oneofOf f = some o)
      (known : oneofs.lookup o.index = some plan) (oneof : OneofFor a o plan)
      (found : plan.member? f.number = some member) :
      Presents a m oneofs f (.member (slotIndex m (.oneof o.index)) plan member
        (o.members.head?.map (·.number) == some f.number))

namespace Presents

variable {d : Declared}

lemma slot_eq (h : Presents a m oneofs f d) : d.slot = slotIndex m (slotKey m f) := by
  cases h with
  | field plain => simp [Declared.slot, slotKey, plain]
  | member inside => simp [Declared.slot, slotKey, inside]

lemma number_eq (h : Presents a m oneofs f d) : d.number = f.number := by
  cases h with
  | field _ number => exact number
  | member _ _ _ found => simpa [Declared.number] using find?_some found

end Presents

/-- A field that is in no oneof is stored under the name of its position. -/
def Declared.StoredAs (names : ScopeNames) (position : Nat) : Declared → Prop
  | field _ plan => plan.storageName = nameAt names.fieldStorage position
  | member _ _ _ _ => True

/-- A declared field is planned by itself, or is a member of the plan of its oneof. -/
lemma planDeclaredField_inv {found : Option Declared}
    (h : planDeclaredField s here m names oneofs f position = .ok found) :
    match m.oneofOf f with
    | none => ∃ kind, s.fieldKind here m f = .ok kind ∧ found = some (.field (slotIndex m (.field f.number))
            ⟨nameAt names.fields position, nameAt names.fieldStorage position, f.number, kind⟩)
    | some o => found = (oneofs.lookup o.index).bind fun plan => (plan.member? f.number).map fun member =>
        .member (slotIndex m (.oneof o.index)) plan member (o.members.head?.map (·.number) == some f.number) := by
  unfold planDeclaredField at h
  cases of : m.oneofOf f with
  | none =>
    simp only [of] at h
    obtain ⟨plan, planned, h⟩ := bind_ok h
    cases h
    unfold planField at planned
    obtain ⟨kind, kindIs, planned⟩ := bind_ok planned
    cases planned
    exact ⟨kind, kindIs, rfl⟩
  | some o =>
    simp only [of] at h
    cases known : oneofs.lookup o.index <;> simpa [known, pure, Except.pure, eq_comm] using h

section

variable (plans : ∀ o ∈ m.oneofs, ∃ plan, oneofs.lookup o.index = some plan ∧ OneofFor s.arena o plan)

include plans

lemma planDeclaredField_ok {found : Option Declared} (declared : f ∈ m.fields)
    (h : planDeclaredField s here m names oneofs f position = .ok found) :
    ∃ d, found = some d ∧ Presents s.arena m oneofs f d ∧ d.StoredAs names position := by
  have parts := planDeclaredField_inv h
  cases of : m.oneofOf f with
  | none =>
    rw [of] at parts
    obtain ⟨kind, kindIs, rfl⟩ := parts
    exact ⟨_, rfl, .field of rfl (fieldKind_ok kindIs), rfl⟩
  | some o =>
    obtain ⟨plan, known, oneof⟩ := plans o (oneofOf_some of).1
    obtain ⟨member, memberIs⟩ := oneof.exists_member (mem_members declared of)
    simp only [of, known, memberIs, Option.bind_some, Option.map_some] at parts
    exact ⟨_, parts, .member of known oneof memberIs, trivial⟩

/-- Every declared field is planned and presented, in order. -/
lemma planDeclared_ok {declared : List Declared} (h : planDeclared s here m names oneofs = .ok declared) :
    Forall₂ (fun pair d => (m.fields[pair.2]? = some pair.1
        ∧ planDeclaredField s here m names oneofs pair.1 pair.2 = .ok (some d))
      ∧ Presents s.arena m oneofs pair.1 d ∧ d.StoredAs names pair.2) m.fields.zipIdx declared := by
  unfold planDeclared at h
  obtain ⟨os, entries, rfl⟩ := filterMapM_ok h
  clear h
  have inside : ∀ pair ∈ m.fields.zipIdx, m.fields[pair.2]? = some pair.1 := fun _ => mem_zipIdx_iff_getElem?.1
  generalize m.fields.zipIdx = pairs at entries inside
  induction entries with
  | nil => exact .nil
  | @cons pair found pairs os first later ih =>
    obtain ⟨f, position⟩ := pair
    have there := inside _ (.head _)
    obtain ⟨d, rfl, presented⟩ := planDeclaredField_ok plans (mem_of_getElem? there) first
    exact .cons ⟨⟨there, first⟩, presented⟩ (ih fun pair member => inside pair (.tail _ member))

end

end declared

/-- Adds a slot unless it is there. -/
def addKey (keys : List SlotKey) (key : SlotKey) : List SlotKey :=
  if keys.contains key then keys else keys ++ [key]

lemma slotKeys_eq (m : Message) : slotKeys m = (m.fields.map (slotKey m)).foldl addKey [] := by
  rw [foldl_map]
  rfl

lemma mem_foldl_addKey {keys more : List SlotKey} {key : SlotKey} :
    key ∈ more.foldl addKey keys ↔ key ∈ keys ∨ key ∈ more := by
  induction more generalizing keys with
  | nil => simp
  | cons k rest ih =>
    rw [foldl_cons, ih, addKey]
    grind

lemma nodup_foldl_addKey {keys more : List SlotKey} (distinct : keys.Nodup) :
    (more.foldl addKey keys).Nodup := by
  induction more generalizing keys with
  | nil => exact distinct
  | cons k rest ih =>
    rw [foldl_cons]
    apply ih
    rw [addKey]
    split
    · exact distinct
    · rename_i new
      simpa using distinct.concat (by simpa using new)

lemma nodup_slotKeys (m : Message) : (slotKeys m).Nodup := by
  rw [slotKeys_eq]
  exact nodup_foldl_addKey nodup_nil

/-- What a slot is for: the content that one of the declared fields of its key asks for. -/
def SlotFor (m : Message) (pairs : List (Field × Declared)) (key : SlotKey) (slot : SlotPlan) : Prop :=
  ∃ pair ∈ pairs, slotKey m pair.1 = key ∧ pair.2.content = slot

lemma slotKey_field {number : Int} :
    slotKey m f = .field number ↔ m.oneofOf f = none ∧ f.number = number := by
  unfold slotKey
  split <;> simp_all

lemma slotKey_oneof (inside : m.oneofOf f = some o) :
    slotKey m g = .oneof o.index ↔ g.oneof = some o.index := by
  constructor
  · intro same
    unfold slotKey at same
    split at same
    · cases same
    · rename_i o' of
      have index : o'.index = o.index := by simpa using same
      exact index ▸ (oneofOf_some of).2
  · intro same
    simp [slotKey, oneofOf_eq inside same]

/-- A member of a oneof is the first one where the slot of the oneof is new. -/
lemma first_iff {done later : List Field} (distinct : (m.fields.map (·.number)).Nodup)
    (whole : m.fields = done ++ f :: later) (inside : m.oneofOf f = some o) :
    (o.members.head?.map (·.number) == some f.number) = true ↔ SlotKey.oneof o.index ∉ done.map (slotKey m) := by
  obtain ⟨member, position⟩ := oneofOf_some inside
  have members := (mem_allOneofs (mem_oneofs member).1).2
  have here : (f.oneof == some o.index) = true := by simp [position]
  rw [whole, filter_append, filter_cons, if_pos here] at members
  rw [members]
  cases earlier : done.filter fun g => g.oneof == some o.index with
  | nil =>
    simp only [nil_append, head?_cons, Option.map_some, beq_self_eq_true, true_iff, mem_map, not_exists, not_and]
    intro g before same
    have := filter_eq_nil_iff.1 earlier g before
    exact this (by simp [(slotKey_oneof inside).1 same])
  | cons g =>
    have before : g ∈ done ∧ (g.oneof == some o.index) = true :=
      mem_filter.1 (earlier ▸ mem_cons_self)
    have other : g.number ≠ f.number := by
      intro same
      rw [whole, map_append, map_cons, nodup_append] at distinct
      exact distinct.2.2 g.number (mem_map_of_mem before.1) f.number (.head _) same
    simp only [cons_append, head?_cons, Option.map_some, beq_iff_eq, Option.some.injEq, other, false_iff, not_not]
    exact mem_map.2 ⟨g, before.1, (slotKey_oneof inside).2 (by simpa using before.2)⟩

/-- The slots of a class, one for each key. -/
lemma slots_forall₂ (distinct : (m.fields.map (·.number)).Nodup)
    (presented : ∀ pair ∈ pairs, Presents a m oneofs pair.1 pair.2) (whole : pairs.map (·.1) = m.fields) :
    Forall₂ (SlotFor m pairs) (slotKeys m) (slotsOf (pairs.map (·.2))) := by
  -- The pairs that were looked at so far have their slots, and the others follow one by one.
  have step : ∀ later done, pairs = done ++ later →
      Forall₂ (SlotFor m pairs) ((done.map fun pair => slotKey m pair.1).foldl addKey []) (slotsOf (done.map (·.2))) →
      Forall₂ (SlotFor m pairs) (((done ++ later).map fun pair => slotKey m pair.1).foldl addKey [])
        (slotsOf ((done ++ later).map (·.2))) := by
    intro later
    induction later with
    | nil => intro done _ h; simpa using h
    | cons pair later ih =>
      obtain ⟨f, d⟩ := pair
      intro done split h
      have next := ih (done ++ [(f, d)]) (by simp [split])
      rw [append_assoc] at next
      refine next ?_
      have inside : (f, d) ∈ pairs := by simp [split]
      have fields : m.fields = done.map (·.1) ++ f :: later.map (·.1) := by
        rw [← whole, split]; simp
      have presentedHere : Presents a m oneofs f d := presented _ inside
      simp only [map_append, map_cons, map_nil, foldl_append, foldl_cons,
        foldl_nil, slotsOf, filterMap_append, filterMap_cons, filterMap_nil] at h ⊢
      cases presentedHere with
      | field plain number =>
        have new : slotKey m f ∉ (done.map fun pair => slotKey m pair.1).foldl addKey [] := by
          rw [mem_foldl_addKey]
          rintro (old | old)
          · simp at old
          · obtain ⟨⟨g, e⟩, before, same⟩ := mem_map.1 old
            have same : g.number = f.number :=
              (slotKey_field.1 (same.trans (slotKey_field.2 ⟨plain, rfl⟩))).2
            rw [fields, map_append, map_cons, nodup_append] at distinct
            exact distinct.2.2 g.number (mem_map_of_mem (mem_map_of_mem before)) f.number (.head _) same
        rw [addKey, if_neg (by simpa using new)]
        exact rel_append h (.cons ⟨_, inside, rfl, rfl⟩ .nil)
      | @member o plan member of known oneof found =>
        have key : slotKey m f = .oneof o.index := by simp [slotKey, of]
        have keys : SlotKey.oneof o.index ∈ (done.map fun pair => slotKey m pair.1).foldl addKey []
            ↔ SlotKey.oneof o.index ∈ (done.map (·.1)).map (slotKey m) := by
          rw [mem_foldl_addKey, map_map]
          simp
        have first := first_iff distinct fields of
        rw [key, addKey]
        dsimp only
        by_cases old : SlotKey.oneof o.index ∈ (done.map (·.1)).map (slotKey m)
        · rw [if_pos (contains_iff_mem.2 (keys.2 old)), if_neg fun h => first.1 h old]
          simpa using h
        · rw [if_neg fun h => old (keys.1 (contains_iff_mem.1 h)), if_pos (first.2 old)]
          exact rel_append h (.cons ⟨_, inside, key, rfl⟩ .nil)
  have all := step pairs [] rfl .nil
  rw [slotKeys_eq, ← whole, map_map]
  exact all

/-! ## Classes -/

/-- What the plan of a class says about its message. -/
structure Planned (a : Arena) (m : Message) (c : ClassPlan) : Prop where
  found : a.message? c.id = some m
  own : c.own.target = c.id
  isAny : c.isAny = a.isAny c.id
  shared : c.isAny = true → c.isIndirected = true
  ranges : c.ranges = m.ranges
  cases : c.cases = dispatchCases m
  visits : c.visits = visits m (fun number => slotIndex m (.field number)) (fun index => slotIndex m (.oneof index))
  slots : c.slots = slotsOf c.declared
  named : c.fieldNames.length = m.fields.length
  declared : ∃ oneofs, Forall₂ (fun pair d => Presents a m oneofs pair.1 d
      ∧ d.StoredAs (nameScope (scopeDecl a c.id)) pair.2)
    m.fields.zipIdx c.declared

namespace Planned

lemma presents (planned : Planned a m c) :
    ∃ oneofs, Forall₂ (Presents a m oneofs) m.fields c.declared := by
  obtain ⟨oneofs, entries⟩ := planned.declared
  have := forall₂_map_left_iff.2 (entries.imp fun _ _ h => h.1)
  exact ⟨oneofs, by rwa [zipIdx_map_fst] at this⟩

lemma exists_presents (planned : Planned a m c) {d : Declared} (declared : d ∈ c.declared) :
    ∃ oneofs, ∃ f ∈ m.fields, Presents a m oneofs f d :=
  planned.presents.imp fun _ entries => exists_left_of_mem entries declared

lemma exists_presented (planned : Planned a m c) (inside : f ∈ m.fields) :
    ∃ oneofs, ∃ d ∈ c.declared, Presents a m oneofs f d :=
  planned.presents.imp fun _ entries => exists_right_of_mem entries inside

lemma exists_pairs (planned : Planned a m c) :
    ∃ oneofs, ∃ pairs : List (Field × Declared), pairs.map (·.1) = m.fields ∧ pairs.map (·.2) = c.declared
      ∧ ∀ pair ∈ pairs, Presents a m oneofs pair.1 pair.2 := by
  obtain ⟨oneofs, entries⟩ := planned.presents
  refine ⟨oneofs, m.fields.zip c.declared, ?_, ?_, ?_⟩
  · exact map_fst_zip (Nat.le_of_eq entries.length_eq)
  · exact map_snd_zip (Nat.le_of_eq entries.length_eq.symm)
  · exact fun pair => (forall₂_iff_zip.1 entries).2

lemma pairs_ext (resolved : m.Resolved) (fields : pairs.map (·.1) = m.fields) {x y : Field × Declared}
    (hx : x ∈ pairs) (hy : y ∈ pairs) (same : x.1.number = y.1.number) : x = y := by
  have distinct : (pairs.map fun pair => pair.1.number).Nodup := by
    have := resolved.distinct
    rwa [← fields, map_map] at this
  exact inj_on_of_nodup_map distinct hx hy same

/-- What presents fields of one slot asks for the same content. -/
lemma content_eq (resolved : m.Resolved) (fields : pairs.map (·.1) = m.fields)
    (presented : ∀ pair ∈ pairs, Presents a m oneofs pair.1 pair.2) {x y : Field × Declared} (hx : x ∈ pairs)
    (hy : y ∈ pairs) (same : slotKey m x.1 = slotKey m y.1) :
    x.2.content = y.2.content := by
  obtain ⟨f, d⟩ := x
  obtain ⟨g, e⟩ := y
  have presentsX : Presents a m oneofs f d := presented _ hx
  have presentsY : Presents a m oneofs g e := presented _ hy
  cases presentsX with
  | field plain number =>
    have number : g.number = f.number :=
      (slotKey_field.1 (same.symm.trans (slotKey_field.2 ⟨plain, rfl⟩))).2
    rw [pairs_ext resolved fields hx hy number.symm]
  | @member o plan member inside known oneof found =>
    cases presentsY with
    | field plain => simp [slotKey, inside, plain] at same
    | @member o' plan' member' inside' known' oneof' found' =>
      have index : o.index = o'.index := by simpa [slotKey, inside, inside'] using same
      cases known.symm.trans (index ▸ known')
      rfl

/-- **Slots are where the declared fields say.** -/
lemma slot_of_declared (planned : Planned a m c) (resolved : m.Resolved) {d : Declared}
    (member : d ∈ c.declared) : c.slots[d.slot]? = some d.content := by
  obtain ⟨oneofs, pairs, fields, declared, presented⟩ := planned.exists_pairs
  rw [← declared] at member
  obtain ⟨⟨f, d⟩, inside, rfl⟩ := mem_map.1 member
  have slots := slots_forall₂ resolved.distinct presented fields
  rw [declared, ← planned.slots] at slots
  have key : slotKey m f ∈ slotKeys m := by
    rw [slotKeys_eq, mem_foldl_addKey]
    exact .inr (mem_map_of_mem (fields ▸ mem_map_of_mem inside))
  have index := idxOf_lt_length_iff.2 key
  have there : slotIndex m (slotKey m f) < c.slots.length := slots.length_eq ▸ index
  have found := slots.get index there
  obtain ⟨pair, other, same, content⟩ := found
  have same : slotKey m pair.1 = slotKey m f := by simpa using same
  rw [(presented _ inside).slot_eq, getElem?_eq_getElem there]
  congr 1
  exact content.symm.trans (content_eq resolved fields presented other inside same)

/-- Every slot belongs to a declared field. -/
lemma exists_declared (planned : Planned a m c) (resolved : m.Resolved) {i : Nat} {slot : SlotPlan}
    (found : c.slots[i]? = some slot) : ∃ d ∈ c.declared, d.slot = i ∧ d.content = slot := by
  obtain ⟨oneofs, pairs, fields, declared, presented⟩ := planned.exists_pairs
  have slots := slots_forall₂ resolved.distinct presented fields
  rw [declared, ← planned.slots] at slots
  obtain ⟨there, rfl⟩ := List.getElem?_eq_some_iff.1 found
  have index : i < (slotKeys m).length := slots.length_eq ▸ there
  obtain ⟨pair, inside, key, content⟩ := slots.get index there
  refine ⟨pair.2, declared ▸ mem_map_of_mem inside, ?_, content⟩
  rw [(presented _ inside).slot_eq, key, slotIndex]
  exact Nodup.idxOf_getElem (nodup_slotKeys m) i index

end Planned

lemma ask_ok {α : Type} {fact : Except Defect α} {x : α} (h : ask fact p = .ok x p') : fact = .ok x := by
  cases fact with
  | ok y =>
    obtain ⟨rfl, -⟩ : y = x ∧ p = p' := by simpa [ask, pure, EStateM.pure] using h
    rfl
  | error => exact absurd h (by simp [ask, throw, throwThe, MonadExceptOf.throw, EStateM.throw])

/-- A shell holds the message at its position, and so do those inside it.  What holds any other message
shares its storage. -/
inductive Shell.Fits (a : Arena) : Shell → Prop
  | mk {id : Nat} {m : Message} {layout : Layout} {nested : List Shell}
      (found : a.message? id = some m) (shared : a.isAny id = true → layout = .indirected)
      (inside : ∀ sh ∈ nested, Shell.Fits a sh) : Shell.Fits a (.mk id m layout nested)

lemma indirected_of_choose? {fields : List Field} {threshold : Option Int} {layout : Layout}
    (h : Layout.choose? fields true threshold = .ok layout) : layout = .indirected := by
  cases threshold with
  | none => exact (Except.ok.inj h).symm
  | some => simpa [Layout.choose?, Layout.choose, eq_comm] using h

/-- What a shell is made of. -/
lemma shell_ok {turns : Nat} {sh : Shell} (h : shell s turns id p = .ok sh p') :
    ∃ below m layout nested q q', turns = below + 1 ∧ s.arena.message? id = some m
      ∧ Layout.choose? m.fields (s.arena.isAny id) s.options.threshold = .ok layout
      ∧ (s.arena.nestedMessages id).mapM (shell s below) q = .ok nested q' ∧ sh = .mk id m layout nested := by
  cases turns with
  | zero => cases h
  | succ turns =>
    rw [shell] at h
    cases found : s.arena.message? id with
    | none =>
      simp only [found] at h
      cases h
    | some m =>
      simp only [found] at h
      obtain ⟨layout, _, layoutIs, h⟩ := run_bind_ok h
      obtain ⟨_, _, -, h⟩ := run_bind_ok h
      obtain ⟨nested, _, nestedIs, h⟩ := run_bind_ok h
      obtain ⟨_, _, -, h⟩ := run_bind_ok h
      obtain ⟨rfl, -⟩ := EStateM.Result.ok.inj h
      exact ⟨turns, m, layout, nested, _, _, rfl, rfl, ask_ok layoutIs, nestedIs, rfl⟩

lemma shell_fits {turns : Nat} {sh : Shell} (h : shell s turns id p = .ok sh p') : sh.Fits s.arena := by
  induction turns generalizing id p p' sh with
  | zero => cases h
  | succ turns ih =>
    obtain ⟨_, m, layout, nested, _, _, ⟨rfl⟩, found, chosen, nestedIs, rfl⟩ := shell_ok h
    refine .mk found (fun isAny => indirected_of_choose? (isAny ▸ chosen)) fun sh inside => ?_
    obtain ⟨id', -, t, t', made⟩ := run_mapM_mem nestedIs inside
    exact ih made

/-- What planning a class asks for and puts together. -/
lemma planClass_ok {layout : Layout} {shells : List Shell} (h : planClass s (.mk id m layout shells) p = .ok c p') :
    ∃ here scope oneofs t t', s.names.scope id = .ok scope ∧ planClasses s shells t = .ok c.nested t'
      ∧ planOneofs s here m scope = .ok oneofs ∧ planDeclared s here m scope oneofs = .ok c.declared
      ∧ c.id = id ∧ c.own.target = id ∧ c.isAny = s.arena.isAny id ∧ c.layout = layout
      ∧ c.ranges = m.ranges ∧ c.cases = dispatchCases m
      ∧ c.visits = visits m (fun number => slotIndex m (.field number)) (fun index => slotIndex m (.oneof index))
      ∧ c.slots = slotsOf c.declared ∧ c.fieldNames = scope.fields ∧ c.oneofs = oneofs.map (·.2)
      ∧ s.names.className id = .ok c.name ∧ s.names.qualifiedName s.arena id = .ok c.qualifiedName := by
  rw [planClass] at h
  obtain ⟨name, _, nameIs, h⟩ := run_bind_ok h
  obtain ⟨scope, _, scopeIs, h⟩ := run_bind_ok h
  obtain ⟨_, t, -, h⟩ := run_bind_ok h
  obtain ⟨nested, t', nestedIs, h⟩ := run_bind_ok h
  obtain ⟨_, _, -, h⟩ := run_bind_ok h
  obtain ⟨_, _, -, h⟩ := run_bind_ok h
  obtain ⟨checks, _, -, h⟩ := run_bind_ok h
  obtain ⟨_, _, -, h⟩ := run_bind_ok h
  obtain ⟨oneofs, _, oneofsAre, h⟩ := run_bind_ok h
  obtain ⟨declared, _, declaredAre, h⟩ := run_bind_ok h
  obtain ⟨qualified, _, qualifiedIs, h⟩ := run_bind_ok h
  obtain ⟨own, last, ownIs, h⟩ := run_bind_ok h
  obtain ⟨rfl, -⟩ := EStateM.Result.ok.inj h
  exact ⟨_, scope, oneofs, t, t', ask_ok scopeIs, nestedIs, ask_ok oneofsAre, ask_ok declaredAre, rfl,
    classRef_target (ask_ok ownIs), rfl, rfl, rfl, rfl, rfl, rfl, rfl, rfl, ask_ok nameIs, ask_ok qualifiedIs⟩

lemma mem_flatten {d : ClassPlan} (h : d ∈ c.flatten) : d = c ∨ d ∈ flattenList c.nested := by
  cases c
  simpa [ClassPlan.flatten] using h

mutual

/-- Every class inside a class was planned by itself. -/
lemma planClass_flatten :
    ∀ {sh : Shell}, sh.Fits s.arena → ∀ {p p' : Progress} {c : ClassPlan},
      planClass s sh p = .ok c p' → ∀ d ∈ c.flatten, ∃ sh q q', sh.Fits s.arena ∧ planClass s sh q = .ok d q'
  | .mk id m layout shells, fits, p, p', c, h => by
    intro d member
    rcases mem_flatten member with rfl | deeper
    · exact ⟨_, p, p', fits, h⟩
    · obtain ⟨_, _, inside⟩ := fits
      obtain ⟨_, _, _, t, t', -, nestedIs, -⟩ := planClass_ok h
      exact planClasses_flatten inside nestedIs d deeper

lemma planClasses_flatten :
    ∀ {shells : List Shell}, (∀ sh ∈ shells, sh.Fits s.arena) →
      ∀ {p p' : Progress} {cs : List ClassPlan}, planClasses s shells p = .ok cs p' →
      ∀ d ∈ flattenList cs, ∃ sh q q', sh.Fits s.arena ∧ planClass s sh q = .ok d q'
  | [], _, p, p', cs, h => by
    obtain ⟨rfl, -⟩ : [] = cs ∧ p = p' := by simpa [planClasses, pure, EStateM.pure] using h
    intro d member
    exact absurd member (by simp [flattenList])
  | sh :: rest, fits, p, p', cs, h => by
    rw [planClasses] at h
    obtain ⟨c, t, first, h⟩ := run_bind_ok h
    obtain ⟨others, t', more, h⟩ := run_bind_ok h
    obtain ⟨rfl, -⟩ : c :: others = cs ∧ t' = p' := by simpa [pure, EStateM.pure] using h
    intro d member
    rw [flattenList, mem_append] at member
    rcases member with here | there
    · exact planClass_flatten (fits sh (.head _)) first d here
    · exact planClasses_flatten (fun sh inside => fits sh (.tail _ inside)) more d there

end

/-- The plan of a class is one for its message. -/
lemma planClass_planned (same : s.names = names s.arena) {sh : Shell} (fits : sh.Fits s.arena)
    (planned : planClass s sh p = .ok c p') : ∃ m, Planned s.arena m c := by
  obtain @⟨_, m, _, _, found, shared, -⟩ := fits
  obtain ⟨here, scope, oneofs, -, -, scopeIs, -, oneofsAre, declaredAre, rfl, own, isAny, rfl, ranges,
    cases, visits, slots, fieldNames, -⟩ := planClass_ok planned
  obtain ⟨namesAre, length⟩ := scope_names found (same ▸ scopeIs)
  refine ⟨m, found, own, isAny, fun any => ?_, ranges, cases, visits, slots, fieldNames ▸ length, oneofs, ?_⟩
  · rw [ClassPlan.isIndirected, shared (isAny ▸ any)]
    rfl
  · rw [← namesAre]
    exact (planDeclared_ok (fun o => planOneofs_ok length oneofsAre) declaredAre).imp fun _ _ => And.right

end Missive.Plan

namespace Missive.Program

open Schema Plan Naming List

variable {options : Plan.Options} {file : FileDecl} {files : List FileDecl}

lemma mem_flattenList {classes : List ClassPlan} {d : ClassPlan} :
    d ∈ flattenList classes ↔ ∃ c ∈ classes, d ∈ c.flatten := by
  induction classes with
  | nil => simp [flattenList]
  | cons c rest ih => simp [flattenList, ih]

lemma plan_ok {k : Compilation} {module : ModulePlan} (h : (k.plan file).1 = .ok module) :
    ∃ p, planModule k.arena k.names k.options k.files file { memo := k.memo } = .ok module p
      ∧ (k.plan file).2.2 = { k with memo := p.memo } := by
  unfold Compilation.plan at h ⊢
  cases run : planModule k.arena k.names k.options k.files file { memo := k.memo } with
  | error => simp [run] at h
  | ok module' p =>
    obtain rfl : module' = module := by simpa [run] using h
    exact ⟨p, rfl, rfl⟩

/-- Modules are planned in order, each with what was found out before. -/
lemma planAll_cons {k : Compilation} {rest : List FileDecl} {modules : List ModulePlan}
    (h : planAll k (file :: rest) = .ok modules) :
    ∃ m others p, modules = m :: others ∧ planModule k.arena k.names k.options k.files file { memo := k.memo } = .ok m p
      ∧ planAll { k with memo := p.memo } rest = .ok others := by
  rw [planAll] at h
  obtain ⟨m, first, h⟩ := bind_ok h
  obtain ⟨others, more, h⟩ := bind_ok h
  cases h
  obtain ⟨p, run, next⟩ := plan_ok first
  exact ⟨m, others, p, rfl, run, next ▸ more⟩

/-- A program that was built has the classes of the modules that were planned. -/
lemma build_ok {p : Program} (h : build files options = .ok p) :
    ∃ modules, Arena.build files = .ok p.arena
      ∧ planAll (Compilation.start p.arena options (files.map (·.name))) files = .ok modules
      ∧ p = ofModules p.arena modules options := by
  unfold build at h
  split at h
  · cases h
  rename_i arena built
  split at h
  · cases h
  rename_i modules planned
  cases h
  exact ⟨modules, built, planned, rfl⟩

/-- Every class in a module was planned by itself. -/
lemma planModule_flatten {known : Names} {files : List String} {m : ModulePlan}
    (h : planModule a known options files file p = .ok m p') {d : ClassPlan} (member : d ∈ flattenList m.classes) :
    ∃ sh q q', sh.Fits a ∧ planClass ⟨a, known, options, files, file.name, file.dependencies⟩ sh q = .ok d q' := by
  unfold planModule at h
  obtain ⟨classes, t, made, h⟩ := run_bind_ok h
  obtain ⟨rfl, -⟩ := EStateM.Result.ok.inj h
  obtain ⟨c, inside, deep⟩ := mem_flattenList.1 member
  obtain ⟨id, -, s, s', planned⟩ := run_mapM_mem made inside
  obtain ⟨sh, t, shellIs, planned⟩ := run_bind_ok planned
  exact planClass_flatten (shell_fits shellIs) planned d deep

lemma planModule_planned {known : Names} {files : List String} {m : ModulePlan} (same : known = names a)
    (h : planModule a known options files file p = .ok m p') :
    ∀ d ∈ flattenList m.classes, ∃ message, Planned a message d := by
  intro d member
  obtain ⟨sh, q, q', fits, planned⟩ := planModule_flatten h member
  exact planClass_planned same fits planned

lemma planAll_planned {c : Compilation} {modules : List ModulePlan} (same : c.names = names c.arena)
    (h : planAll c files = .ok modules) :
    ∀ m ∈ modules, ∀ d ∈ flattenList m.classes, ∃ message, Planned c.arena message d := by
  induction files generalizing c modules with
  | nil =>
    obtain rfl : [] = modules := by simpa [planAll] using h
    simp
  | cons file rest ih =>
    obtain ⟨first, others, p, rfl, run, more⟩ := planAll_cons h
    intro m member
    rcases mem_cons.1 member with rfl | later
    · exact planModule_planned same run
    · exact ih (c := { c with memo := p.memo }) same more m later

lemma planned_of_plan {k : Compilation} {module : ModulePlan} (built : Arena.build files = .ok k.arena)
    (given : k.names = names k.arena) (planned : (k.plan file).1 = .ok module)
    (inside : c ∈ flattenList module.classes) :
    ∃ m, m.Resolved ∧ Planned k.arena m c := by
  obtain ⟨p, run, -⟩ := plan_ok planned
  obtain ⟨m, facts⟩ := planModule_planned given run c inside
  exact ⟨m, resolved_of_build built facts.found, facts⟩

/-- A class of a program that was built comes from one of the modules that were planned. -/
lemma exists_module_of_mem {p : Program} (h : build files options = .ok p) (member : (t, c) ∈ p.classes) :
    c.id = t ∧ ∃ modules, Arena.build files = .ok p.arena
      ∧ planAll (Compilation.start p.arena options (files.map (·.name))) files = .ok modules
      ∧ ∃ m ∈ modules, c ∈ flattenList m.classes := by
  obtain ⟨modules, built, planned, same⟩ := build_ok h
  rw [same] at member
  simp only [ofModules, mem_map, mem_flatMap] at member
  obtain ⟨c', ⟨m, inside, deep⟩, same⟩ := member
  obtain ⟨rfl, rfl⟩ := Prod.mk.inj same
  exact ⟨rfl, modules, built, planned, m, inside, deep⟩

lemma mem_classes_of_plan? {p : Program} (found : p.plan? t = some c) :
    (t, c) ∈ p.classes := by
  obtain ⟨front, back, whole, -⟩ := lookup_eq_some_iff.1 found
  simp [whole]

/-- **A plan for every class.**  Every class of a program that was built is planned for a message of the
arena, which has passed the checks. -/
lemma planned_of_mem {p : Program} (h : build files options = .ok p) (member : (t, c) ∈ p.classes) :
    c.id = t ∧ ∃ m, m.Resolved ∧ Planned p.arena m c := by
  obtain ⟨same, modules, built, planned, m, inside, deep⟩ := exists_module_of_mem h member
  obtain ⟨message, facts⟩ := planAll_planned rfl planned m inside c deep
  exact ⟨same, message, resolved_of_build built facts.found, facts⟩

lemma planned_of_build {p : Program} (h : build files options = .ok p) (found : p.plan? t = some c) :
    c.id = t ∧ ∃ m, m.Resolved ∧ Planned p.arena m c :=
  planned_of_mem h (mem_classes_of_plan? found)

end Missive.Program
