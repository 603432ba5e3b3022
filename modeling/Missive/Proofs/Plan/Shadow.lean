import Missive.Proofs.Naming.Claim
import Missive.Proofs.Naming.Names

/-!
# Members that shadow what all messages have

All messages and all storages share some attributes and methods.  For the fields and oneofs of a
message a class brings methods of its own, and attributes that store their values.  Names that are
declared are kept apart from a list of reserved ones, but the names derived from them are not, so
some of them shadow what is shared.

`ClassPlan.Generates` says which names a class brings, by what its methods are found under and what
its slots are called.  The other side is read off the schema: `Message.called?` is the declaration
that gets a name, and `Message.Spares` says of the few names that matter what this declaration must
not have.  `spares_iff` shows that these are all.
-/

namespace Missive.Plan

open Schema Naming List

/-! ## What is shared -/

/-- The attributes and methods of the base of all message classes. -/
def messageAttributes : List String :=
  ["PROTO_MESSAGE_NAME", "IS_PROTO3", "IS_EXTENSIBLE", "EXTENSION_RANGES", "FIELD_NAMES",
   "ONEOF_NAMES", "_storage", "unknown_fields", "extension_fields", "__init__", "parse",
   "merge_from_bytes", "serialize", "decode_message", "traverse", "is_initialized",
   "are_all_initialized", "_check_extension", "get_extension", "has_extension", "set_extension",
   "clear_extension", "_protobuf_generated_is_equal_to", "_protobuf_copy_fields", "__eq__",
   "__hash__", "__copy__", "__deepcopy__", "__del__", "_field_is_set", "__repr__"]

/-- The attributes and methods of the base of all storages. -/
def storageAttributes : List String :=
  ["__slots__", ownersName, escapedName, "__init__", "owners", "retain", "release",
   "is_uniquely_referenced", "mark_escaped", "has_escaped_references", "copy"]

def sharedAttributes : List String := messageAttributes ++ storageAttributes

/-- Does a class bring a method or an attribute of this name for one of its fields or oneofs? -/
def ClassPlan.Generates (c : ClassPlan) (name : String) : Prop :=
  (∃ a x, (c.accessor? a x).isSome = true ∧ a.nameOf x = name) ∨ ∃ s ∈ c.slots, s.storageName = name

end Missive.Plan

namespace Missive.Schema

open Plan Naming List

/-! ## What is declared -/

/-- A field or a oneof of a message. -/
inductive Declaration where
  | field (f : Field)
  | oneof (o : Oneof)

namespace Declaration

def name : Declaration → String
  | field f => f.name
  | oneof o => o.name

/-- Has what is declared a method of its own? A member of a oneof can only be asked for, and a oneof
only be cleared. -/
def hasAccessor (m : Message) : Declaration → Accessor → Bool
  | field f, a =>
    if (m.oneofOf f).isSome then a == .has
    else
      match a with
      | .has => f.hasPresence m
      | .clear => f.isRepeated || f.hasPresence m
      | .mutable => f.isRepeated || f.isMessage
  | oneof _, a => a == .clear

/-- Has what is declared an attribute for its value? A member of a oneof is stored with the oneof. -/
def isStored (m : Message) : Declaration → Bool
  | field f => (m.oneofOf f).isNone
  | oneof _ => true

end Declaration

namespace Message

def declarations (m : Message) : List Declaration := m.fields.map .field ++ m.oneofs.map .oneof

/-- The declaration that gets a name: the first one whose identifier it is. -/
def called? (m : Message) (x : String) : Option Declaration :=
  m.declarations.find? fun d => identifier d.name == x

/-- Is something in the body of a message called like this? `nested` holds the names of nested
messages. -/
def Declares (m : Message) (nested : List String) (x : String) : Prop :=
  ∃ name ∈ m.declarations.map (·.name) ++ nested, identifier name = x

/-- Do the members of a message spare what is shared?  A method that asks for or clears an
`extension` would shadow one that all messages have, and `has_escaped_references` is one of storages.
Four attributes are in danger, unless a field, a oneof or a nested message already is called like
them. -/
structure Spares (m : Message) (nested : List String) : Prop where
  extension : ∀ d ∈ m.called? "extension", d.hasAccessor m .has = false ∧ d.hasAccessor m .clear = false
  references : ∀ d ∈ m.called? "escaped_references", d.hasAccessor m .has = false
  stored : ∀ x ∈ ["check_extension", "field_is_set", "owners", "escaped"], ∀ d ∈ m.called? x,
    d.isStored m = true → m.Declares nested ("_" ++ x)

instance (m : Message) (nested : List String) (x : String) : Decidable (m.Declares nested x) :=
  inferInstanceAs (Decidable (∃ name ∈ _, _))

instance (m : Message) (nested : List String) : Decidable (m.Spares nested) :=
  decidable_of_iff ((∀ d ∈ m.called? "extension", d.hasAccessor m .has = false ∧ d.hasAccessor m .clear = false)
      ∧ (∀ d ∈ m.called? "escaped_references", d.hasAccessor m .has = false)
      ∧ ∀ x ∈ ["check_extension", "field_is_set", "owners", "escaped"], ∀ d ∈ m.called? x,
        d.isStored m = true → m.Declares nested ("_" ++ x))
    ⟨fun h => ⟨h.1, h.2.1, h.2.2⟩, fun h => ⟨h.extension, h.references, h.stored⟩⟩

end Message

end Missive.Schema

namespace Missive.Plan

open Schema Naming List

variable {s : Scene} {here : Standpoint} {o : Oneof} {plan : OneofPlan} {oneofs : List (Nat × OneofPlan)}
  {i : Nat} {p p' : Progress}
variable {m : Message} {x : String} {f : Field} {c : ClassPlan} {a : Arena} {acc : Accessor}

/-! ## The names in a plan -/

/-- What a plan calls a declared field, which stands at a position, and its oneof. -/
inductive NamedAs (m : Message) (s : ScopeNames) (f : Field) (i : Nat) : Declared → Prop
  | field {slot : Nat} {plan : FieldPlan} (plain : m.oneofOf f = none)
      (name : plan.name = nameAt s.fields i) (stored : plan.storageName = nameAt s.fieldStorage i) :
      NamedAs m s f i (.field slot plan)
  | member {slot position : Nat} {o : Oneof} {plan : OneofPlan} {member : MemberPlan} {first : Bool}
      (inside : m.oneofOf f = some o) (place : m.oneofs[position]? = some o)
      (name : member.name = nameAt s.fields i) (oneofName : plan.name = nameAt s.oneofs position)
      (stored : plan.storageName = nameAt s.oneofStorage position) :
      NamedAs m s f i (.member slot plan member first)

/-- What the plan of a oneof calls it, and its members. -/
lemma planOneof_named {names : ScopeNames} {position : Nat} (h : planOneof s here m names position o = .ok plan) :
    plan.name = nameAt names.oneofs position ∧ plan.storageName = nameAt names.oneofStorage position
      ∧ ∀ member ∈ plan.members, ∃ (i : Nat) (f : Field), m.fields[i]? = some f
        ∧ names.fields[i]? = some member.name ∧ member.number = f.number := by
  obtain ⟨name, -, stored, -, members⟩ := planOneof_inv h
  refine ⟨name, stored, fun member inside => ?_⟩
  obtain ⟨⟨f, given⟩, paired, rfl, number, -⟩ := exists_left_of_mem members inside
  obtain ⟨i, there⟩ := mem_iff_getElem?.1 (mem_filter.1 paired).1
  obtain ⟨field, named⟩ := getElem?_zip_eq_some.1 there
  exact ⟨i, f, field, named, number⟩

lemma nameAt_of_getElem? {names : List String} (there : names[i]? = some x) : nameAt names i = x := by
  simp [nameAt, List.getD, there]

lemma planDeclaredField_named {names : ScopeNames} {d : Declared} (distinct : (m.fields.map (·.number)).Nodup)
    (oneofsAre : planOneofs s here m names = .ok oneofs) (there : m.fields[i]? = some f)
    (h : planDeclaredField s here m names oneofs f i = .ok (some d)) : NamedAs m names f i d := by
  have parts := planDeclaredField_inv h
  cases of : m.oneofOf f with
  | none =>
    rw [of] at parts
    obtain ⟨kind, -, same⟩ := parts
    cases same
    exact .field of rfl rfl
  | some =>
    rw [of] at parts
    obtain ⟨plan, known, presented⟩ := Option.bind_eq_some_iff.1 parts.symm
    obtain ⟨member, found, rfl⟩ := Option.map_eq_some_iff.1 presented
    obtain ⟨plan', known', position, place, planned⟩ := exists_planOneof oneofsAre (oneofOf_some of).1
    cases known'.symm.trans known
    obtain ⟨oneofName, stored, members⟩ := planOneof_named planned
    refine .member of place ?_ oneofName stored
    -- The numbers of fields are different, so the member is named like the field of its number.
    obtain ⟨j, g, field, named, number⟩ := members member (mem_of_find?_eq_some found)
    have own : member.number = f.number := by simpa using find?_some found
    have same : i = j := by
      have left : (m.fields.map (·.number))[i]? = some f.number := by simp [there]
      have right : (m.fields.map (·.number))[j]? = some f.number := by simp [field, ← own, number]
      exact (List.getElem?_inj (List.getElem?_eq_some_iff.1 left).1 distinct).1 (left.trans right.symm)
    subst same
    exact (nameAt_of_getElem? named).symm

/-- What a plan says about the declared fields of a message: what they are, and what they are called. -/
lemma planDeclared_named {names : ScopeNames} {declared : List Declared} (resolved : m.Resolved)
    (length : names.fields.length = m.fields.length) (oneofsAre : planOneofs s here m names = .ok oneofs)
    (h : planDeclared s here m names oneofs = .ok declared) :
    Forall₂ (fun pair d => Presents s.arena m oneofs pair.1 d ∧ NamedAs m names pair.1 pair.2 d)
      m.fields.zipIdx declared := by
  refine (planDeclared_ok (fun o => planOneofs_ok length oneofsAre) h).imp ?_
  rintro _ _ ⟨⟨there, planned⟩, presented, -⟩
  exact ⟨presented, planDeclaredField_named resolved.distinct oneofsAre there planned⟩

/-- What a class is called after: its message, which has passed the checks, and the names of its
scope. -/
structure Named (a : Arena) (m : Message) (c : ClassPlan) : Prop where
  found : a.message? c.id = some m
  resolved : m.Resolved
  slots : c.slots = slotsOf c.declared
  declared : ∃ oneofs, Forall₂
    (fun pair d => Presents a m oneofs pair.1 d ∧ NamedAs m (nameScope (scopeDecl a c.id)) pair.1 pair.2 d)
    m.fields.zipIdx c.declared

lemma planClass_named (same : s.names = names s.arena) {sh : Shell} (fits : sh.Fits s.arena)
    (h : planClass s sh p = .ok c p')
    (resolved : ∀ {id : Nat} {m : Message}, s.arena.message? id = some m → m.Resolved) : ∃ m, Named s.arena m c := by
  obtain ⟨found, -, -⟩ := fits
  rename_i id m layout shells
  obtain ⟨here, scope, oneofs, t, t', scopeIs, -, oneofsAre, declaredAre, rfl, -, -, -, -, -, -, slots,
    -⟩ := planClass_ok h
  obtain ⟨namesAre, length⟩ := scope_names found (same ▸ scopeIs)
  refine ⟨m, found, resolved found, slots, oneofs, ?_⟩
  rw [← namesAre]
  exact planDeclared_named (resolved found) length oneofsAre declaredAre

/-- **Every class of a file is named after its message.** -/
lemma planModule_named {files : List FileDecl} (built : Arena.build files = .ok a) {options : Plan.Options}
    {others : List String} {file : FileDecl} {module : ModulePlan}
    (h : planModule a (names a) options others file p = .ok module p') :
    ∀ c ∈ flattenList module.classes, ∃ m, Named a m c := by
  intro c member
  obtain ⟨sh, q, q', fits, planned⟩ := Program.planModule_flatten h member
  exact planClass_named rfl fits planned fun found => resolved_of_build built found

/-! ## Who has a method or an attribute of a name -/

/-- The names inside a class. -/
abbrev ClassPlan.scope (a : Arena) (c : ClassPlan) : ScopeNames := nameScope (scopeDecl a c.id)

namespace Named

section

variable (named : Named a m c)

include named

lemma declarations_eq :
    m.declarations.map (·.name) = (scopeDecl a c.id).fields ++ (scopeDecl a c.id).oneofs := by
  simp [Message.declarations, scopeDecl, named.found, Function.comp_def, Declaration.name]

/-- The declaration that gets a name stands where the name is given. -/
lemma called?_eq_some_iff (claimable : Claimable x) {d : Declaration} :
    m.called? x = some d ↔ ∃ i : Nat, m.declarations[i]? = some d
      ∧ ((c.scope a).fields ++ (c.scope a).oneofs)[i]? = some x := by
  simp only [claimable.nameScope_eq_iff, ← named.declarations_eq, findIdx?_map, Message.called?]
  rw [find?_eq_some_iff_getElem]
  simp only [findIdx?_eq_some_iff_getElem, getElem?_eq_some_iff, Function.comp_apply]
  constructor
  · rintro ⟨own, i, bound, rfl, before⟩
    exact ⟨i, ⟨bound, rfl⟩, bound, own, fun j less => by simpa using before j less⟩
  · rintro ⟨i, ⟨bound, rfl⟩, _, own, before⟩
    exact ⟨own, i, bound, rfl, fun j less => by simpa using before j less⟩

/-- A name is given to every declaration, and an attribute. -/
lemma length_names :
    (c.scope a).fields.length = m.fields.length
      ∧ (c.scope a).oneofs.length = m.oneofs.length
      ∧ (c.scope a).fieldStorage.length = m.fields.length
      ∧ (c.scope a).oneofStorage.length = m.oneofs.length := by
  have lengths := Naming.length_names (scopeDecl a c.id)
  have fields : (scopeDecl a c.id).fields.length = m.fields.length := by simp [scopeDecl, named.found]
  have oneofs : (scopeDecl a c.id).oneofs.length = m.oneofs.length := by simp [scopeDecl, named.found]
  rw [fields, oneofs] at lengths
  exact ⟨lengths.1, lengths.2.1, lengths.2.2.2.2.1, lengths.2.2.2.2.2⟩

/-- A field gets a name where it stands among the fields. -/
lemma called?_field_iff (claimable : Claimable x) :
    m.called? x = some (.field f) ↔ ∃ i : Nat, m.fields[i]? = some f
      ∧ (c.scope a).fields[i]? = some x := by
  rw [named.called?_eq_some_iff claimable]
  refine exists_congr fun i => ?_
  by_cases inside : i < m.fields.length
  · rw [Message.declarations, getElem?_append_left (by simpa using inside),
      getElem?_append_left (by rwa [named.length_names.1])]
    simp
  · rw [Message.declarations, getElem?_append_right (by simpa using inside)]
    simp [getElem?_eq_none (Nat.le_of_not_lt inside)]

/-- A oneof gets a name where it stands among the oneofs. -/
lemma called?_oneof_iff (claimable : Claimable x) :
    m.called? x = some (.oneof o) ↔ ∃ position : Nat, m.oneofs[position]? = some o
      ∧ (c.scope a).oneofs[position]? = some x := by
  rw [named.called?_eq_some_iff claimable]
  constructor
  · rintro ⟨i, there, name⟩
    by_cases inside : i < m.fields.length
    · rw [Message.declarations, getElem?_append_left (by simpa using inside)] at there
      simp at there
    · rw [Message.declarations, getElem?_append_right (by simpa using inside)] at there
      rw [getElem?_append_right (by simpa [named.length_names.1] using inside)] at name
      exact ⟨i - m.fields.length, by simpa using there, by rwa [named.length_names.1] at name⟩
  · rintro ⟨position, there, name⟩
    refine ⟨m.fields.length + position, ?_, ?_⟩
    · rw [Message.declarations, getElem?_append_right (by simp)]
      simp [there]
    · rw [getElem?_append_right (by simp [named.length_names.1]), named.length_names.1]
      simpa using name

lemma exists_declared (there : m.fields[i]? = some f) :
    ∃ d ∈ c.declared, (∃ oneofs, Presents a m oneofs f d) ∧ NamedAs m (c.scope a) f i d := by
  obtain ⟨oneofs, entries⟩ := named.declared
  obtain ⟨d, member, presented, naming⟩ :=
    exists_right_of_mem entries (mk_mem_zipIdx_iff_getElem?.2 there)
  exact ⟨d, member, ⟨oneofs, presented⟩, naming⟩

lemma exists_field {d : Declared} (member : d ∈ c.declared) :
    ∃ (f : Field) (i : Nat), m.fields[i]? = some f ∧ (∃ oneofs, Presents a m oneofs f d)
      ∧ NamedAs m (c.scope a) f i d := by
  obtain ⟨oneofs, entries⟩ := named.declared
  obtain ⟨⟨f, i⟩, inside, presented, naming⟩ := exists_left_of_mem entries member
  exact ⟨f, i, mem_zipIdx_iff_getElem?.1 inside, ⟨oneofs, presented⟩, naming⟩

end

end Named

/-- What a declared field says about a method of a name. -/
def Declared.Answers (acc : Accessor) (x : String) : Declared → Prop
  | .field _ f => f.name = x ∧ f.kind.hasAccessor acc = true
  | .member _ o m _ => m.name = x ∧ acc = .has ∨ o.name = x ∧ acc = .clear

lemma isSome_accessor?_iff : (c.accessor? acc x).isSome = true ↔ ∃ d ∈ c.declared, d.Answers acc x := by
  rw [ClassPlan.accessor?, findSome?_isSome_iff]
  refine exists_congr fun d => and_congr_right fun _ => ?_
  cases d with
  | field =>
    simp only [Declared.Answers]
    split <;> simp_all
  | member =>
    simp only [Declared.Answers]
    split
    · simp_all
    · split <;> simp_all

/-- A field that is in no oneof has the methods that its declaration tells. -/
lemma KindOf.hasAccessor_eq {kind : FieldKind} (h : KindOf a m f kind) (plain : m.oneofOf f = none) (acc : Accessor) :
    kind.hasAccessor acc = (Declaration.field f).hasAccessor m acc := by
  cases h <;> cases acc <;>
    simp_all [FieldKind.hasAccessor, FieldKind.handsOut, Declaration.hasAccessor, Field.hasPresence, Field.isMessage]

lemma nameAt_eq_iff {names : List String} (bound : i < names.length) : nameAt names i = x ↔ names[i]? = some x := by
  simp [nameAt, bound]

lemma lt_of_getElem? {α : Type} {l : List α} {x : α} (there : l[i]? = some x) : i < l.length :=
  (List.getElem?_eq_some_iff.1 there).1

lemma oneofs_position {j : Nat} (there : m.oneofs[i]? = some o) (there' : m.oneofs[j]? = some o) : i = j := by
  have distinct : m.oneofs.Nodup := by
    refine Nodup.filter _ (Nodup.of_map (·.index) ?_)
    have range : m.allOneofs.map (·.index) = List.range m.oneofNames.length := by
      refine ext_getElem (by simp [Message.allOneofs]) fun i _ _ => ?_
      simp [Message.allOneofs]
    rw [range]
    exact nodup_range
  exact (getElem?_inj (lt_of_getElem? there) distinct).1 (there.trans there'.symm)

/-- Every oneof has a first member, which is declared. -/
lemma exists_first_member (resolved : m.Resolved) (inside : o ∈ m.oneofs) :
    ∃ (f : Field) (i : Nat), m.fields[i]? = some f ∧ m.oneofOf f = some o ∧ o.members.head? = some f := by
  obtain ⟨all, real⟩ := mem_oneofs inside
  obtain ⟨-, members⟩ := mem_allOneofs all
  cases given : o.members with
  | nil => exact absurd given (resolved.inhabited o all)
  | cons f =>
    have member : f ∈ m.fields.filter fun f => f.oneof == some o.index := by
      rw [← members, given]
      exact .head _
    obtain ⟨declared, own⟩ := mem_filter.1 member
    obtain ⟨i, there⟩ := mem_iff_getElem?.1 declared
    exact ⟨f, i, there, oneofOf_of_mem inside (by simpa using own), rfl⟩

namespace Named

/-- **Who has a method.**  A method of a name belongs to the declaration that gets the name. -/
lemma accessor?_iff (named : Named a m c) (claimable : Claimable x) :
    (c.accessor? acc x).isSome = true ↔ ∃ d ∈ m.called? x, d.hasAccessor m acc = true := by
  obtain ⟨fields, oneofs, -, -⟩ := named.length_names
  rw [isSome_accessor?_iff]
  constructor
  · rintro ⟨d, member, answers⟩
    obtain ⟨f, i, there, ⟨_, presented⟩, naming⟩ := named.exists_field member
    have bound := lt_of_getElem? there
    cases naming with
    | field plain name =>
      obtain ⟨own, able⟩ := answers
      obtain _ | _ := presented
      rename_i kind
      refine ⟨.field f, (named.called?_field_iff claimable).2 ⟨i, there, ?_⟩, ?_⟩
      · exact (nameAt_eq_iff (by omega)).1 (name.symm.trans own)
      · rwa [kind.hasAccessor_eq plain] at able
    | member inside place name oneofName =>
      rcases answers with ⟨own, rfl⟩ | ⟨own, rfl⟩
      · refine ⟨.field f, (named.called?_field_iff claimable).2 ⟨i, there, ?_⟩, ?_⟩
        · exact (nameAt_eq_iff (by omega)).1 (name.symm.trans own)
        · simp [Declaration.hasAccessor, inside]
      · refine ⟨.oneof _, (named.called?_oneof_iff claimable).2 ⟨_, place, ?_⟩, rfl⟩
        exact (nameAt_eq_iff (by rw [oneofs]; exact lt_of_getElem? place)).1 (oneofName.symm.trans own)
  · rintro ⟨d, called, able⟩
    cases d with
    | field =>
      obtain ⟨i, there, given⟩ := (named.called?_field_iff claimable).1 called
      obtain ⟨d, member, ⟨_, presented⟩, naming⟩ := named.exists_declared there
      refine ⟨d, member, ?_⟩
      cases naming with
      | field plain name =>
        obtain _ | _ := presented
        rename_i kind
        exact ⟨name.trans (nameAt_of_getElem? given), by rwa [kind.hasAccessor_eq plain]⟩
      | member inside place name =>
        refine .inl ⟨name.trans (nameAt_of_getElem? given), ?_⟩
        simpa [Declaration.hasAccessor, inside] using able
    | oneof =>
      obtain ⟨position, there, given⟩ := (named.called?_oneof_iff claimable).1 called
      obtain ⟨f, i, field, of, -⟩ := exists_first_member named.resolved (mem_of_getElem? there)
      obtain ⟨d, member, -, naming⟩ := named.exists_declared field
      refine ⟨d, member, ?_⟩
      cases naming with
      | field plain => cases plain.symm.trans of
      | member inside place name oneofName =>
        cases inside.symm.trans of
        obtain rfl := oneofs_position place there
        exact .inr ⟨oneofName.trans (nameAt_of_getElem? given), by simpa [Declaration.hasAccessor] using able⟩

section

variable (named : Named a m c) (storable : Storable x)

include named storable

/-- A value is stored under an attribute at the position where the name is given, unless something is
called like the attribute. -/
lemma stored_iff :
    ((c.scope a).fieldStorage ++ (c.scope a).oneofStorage)[i]? = some ("_" ++ x)
      ↔ ¬ m.Declares (scopeDecl a c.id).nested ("_" ++ x)
        ∧ ((c.scope a).fields ++ (c.scope a).oneofs)[i]? = some x := by
  rw [storable.stored_eq_iff, storable.public_.nameScope_eq_iff, Message.Declares, named.declarations_eq]

lemma fieldStorage_iff (bound : i < m.fields.length) :
    nameAt (c.scope a).fieldStorage i = "_" ++ x ↔ ¬ m.Declares (scopeDecl a c.id).nested ("_" ++ x)
        ∧ (c.scope a).fields[i]? = some x := by
  obtain ⟨fields, -, fieldStorage, -⟩ := named.length_names
  have stored := named.stored_iff storable (i := i)
  rw [getElem?_append_left (by omega), getElem?_append_left (by omega)] at stored
  rw [nameAt_eq_iff (by omega), stored]

lemma oneofStorage_iff {position : Nat} (bound : position < m.oneofs.length) :
    nameAt (c.scope a).oneofStorage position = "_" ++ x
      ↔ ¬ m.Declares (scopeDecl a c.id).nested ("_" ++ x)
        ∧ (c.scope a).oneofs[position]? = some x := by
  obtain ⟨fields, -, fieldStorage, oneofStorage⟩ := named.length_names
  have stored := named.stored_iff storable (i := m.fields.length + position)
  rw [getElem?_append_right (by omega), getElem?_append_right (by omega), fields,
    fieldStorage, Nat.add_sub_cancel_left] at stored
  rw [nameAt_eq_iff (by omega), stored]

/-- **Who has an attribute.**  The declaration that gets the name without the underscore, if it is
stored and nothing is called like the attribute. -/
lemma slots_iff :
    (∃ s ∈ c.slots, s.storageName = "_" ++ x) ↔ (∃ d ∈ m.called? x, d.isStored m = true)
        ∧ ¬ m.Declares (scopeDecl a c.id).nested ("_" ++ x) := by
  rw [named.slots, slotsOf]
  simp only [mem_filterMap]
  constructor
  · rintro ⟨s, ⟨d, member, isSlot⟩, name⟩
    obtain ⟨f, i, there, -, naming⟩ := named.exists_field member
    cases naming with
    | field plain _ stored =>
      obtain rfl : _ = s := by simpa using isSlot
      obtain ⟨free, given⟩ := (named.fieldStorage_iff storable (lt_of_getElem? there)).1 (stored.symm.trans name)
      refine ⟨⟨.field f, (named.called?_field_iff storable.public_).2 ⟨i, there, given⟩, ?_⟩, free⟩
      simp [Declaration.isStored, plain]
    | member inside place _ _ stored =>
      obtain ⟨-, rfl⟩ : _ ∧ _ = s := by simpa using isSlot
      obtain ⟨free, given⟩ := (named.oneofStorage_iff storable (lt_of_getElem? place)).1 (stored.symm.trans name)
      exact ⟨⟨.oneof _, (named.called?_oneof_iff storable.public_).2 ⟨_, place, given⟩, rfl⟩, free⟩
  · rintro ⟨⟨d, called, isStored⟩, free⟩
    cases d with
    | field =>
      obtain ⟨i, there, given⟩ := (named.called?_field_iff storable.public_).1 called
      obtain ⟨d, member, -, naming⟩ := named.exists_declared there
      cases naming with
      | field plain _ stored =>
        exact ⟨_, ⟨_, member, rfl⟩, stored.trans ((named.fieldStorage_iff storable (lt_of_getElem? there)).2 ⟨free, given⟩)⟩
      | member inside => simp [Declaration.isStored, inside] at isStored
    | oneof o =>
      obtain ⟨position, there, given⟩ := (named.called?_oneof_iff storable.public_).1 called
      obtain ⟨f, i, field, of, first⟩ := exists_first_member named.resolved (mem_of_getElem? there)
      obtain ⟨d, member, ⟨_, presented⟩, naming⟩ := named.exists_declared field
      cases naming with
      | field plain => cases plain.symm.trans of
      | @member slot position o plan _ _ inside place _ _ stored =>
        cases inside.symm.trans of
        obtain rfl := oneofs_position place there
        obtain _ | ⟨inside', _, _, _⟩ := presented
        cases inside'.symm.trans of
        refine ⟨.oneof plan, ⟨_, member, by simp [first]⟩, ?_⟩
        exact stored.trans ((named.oneofStorage_iff storable (lt_of_getElem? there)).2 ⟨free, given⟩)

end

/-- What a slot is stored under is an attribute of the scope. -/
lemma mem_stored (named : Named a m c) {s : SlotPlan} (member : s ∈ c.slots) :
    s.storageName ∈ (c.scope a).stored := by
  obtain ⟨-, -, fieldStorage, oneofStorage⟩ := named.length_names
  rw [named.slots, slotsOf] at member
  obtain ⟨d, declared, isSlot⟩ := mem_filterMap.1 member
  obtain ⟨f, i, there, -, naming⟩ := named.exists_field declared
  rw [ScopeNames.stored, mem_append]
  cases naming with
  | field _ _ stored =>
    obtain rfl : _ = s := by simpa using isSlot
    have bound : i < (c.scope a).fieldStorage.length :=
      fieldStorage ▸ lt_of_getElem? there
    exact .inl (mem_of_getElem? ((nameAt_eq_iff bound).1 stored.symm))
  | @member _ position _ _ _ _ _ place _ _ stored =>
    obtain ⟨-, rfl⟩ : _ ∧ _ = s := by simpa using isSlot
    have bound : position < (c.scope a).oneofStorage.length :=
      oneofStorage ▸ lt_of_getElem? place
    exact .inr (mem_of_getElem? ((nameAt_eq_iff bound).1 stored.symm))

end Named

/-! ## The names that matter -/

/-- A name that is neither reserved nor that of a method, and not one that was made different. -/
def IsPlain (x : String) : Prop :=
  x ∉ keywords ∧ x ∉ reservedAttributes ∧ x.toList.getLast? ≠ some '_'
    ∧ ∀ method ∈ ["has_", "clear_", "mutable_"], ¬ method.toList <+: x.toList

instance : Decidable (IsPlain x) := inferInstanceAs (Decidable (_ ∧ _))

lemma claimable_of (h : IsPlain x) : Claimable x := by
  obtain ⟨keyword, reserved, bare, methods⟩ := h
  refine ⟨⟨keyword, reserved, bare⟩, fun name own => ?_⟩
  simp only [fieldAccessors, mem_cons, not_mem_nil, or_false] at own
  rcases own with rfl | rfl | rfl
  · exact methods "has_" (by simp) (by simp)
  · exact methods "clear_" (by simp) (by simp)
  · exact methods "mutable_" (by simp) (by simp)

/-- The names that matter without their underscore, for attributes. -/
abbrev storedNames : List String := ["check_extension", "field_is_set", "owners", "escaped"]

/-- What is shared, name by name.  Methods of two names shadow something, and so do the attributes that have
one underscore in front and are not reserved. -/
lemma shared_names :
    (∀ acc ∈ [Accessor.has, .clear, .mutable], ∀ name ∈ sharedAttributes, (acc.nameOf "").toList <+: name.toList →
      name.toList.drop (acc.nameOf "").toList.length = "extension".toList ∧ acc ≠ .mutable
        ∨ name.toList.drop (acc.nameOf "").toList.length = "escaped_references".toList ∧ acc = .has)
    ∧ (IsPlain "extension" ∧ ∀ acc ∈ [Accessor.has, .clear], acc.nameOf "extension" ∈ sharedAttributes)
    ∧ (IsPlain "escaped_references" ∧ Accessor.has.nameOf "escaped_references" ∈ sharedAttributes)
    ∧ (∀ name ∈ sharedAttributes, name.toList.head? = some '_' → name.toList[1]? ≠ some '_' →
      name ∉ reservedAttributes → ∃ x ∈ storedNames, name = "_" ++ x)
    ∧ ∀ x ∈ storedNames, "_" ++ x ∈ sharedAttributes ∧ IsPlain x ∧ IsPlain ("_" ++ x) ∧ x.toList.head? ≠ some '_'
      ∧ x.toList.take 2 ≠ ['f', '_'] := by
  decide +kernel

lemma nameOf_mem_shared_iff :
    acc.nameOf x ∈ sharedAttributes ↔ x = "extension" ∧ acc ≠ .mutable ∨ x = "escaped_references" ∧ acc = .has := by
  obtain ⟨methods, ⟨-, extension⟩, ⟨-, references⟩, -⟩ := shared_names
  constructor
  · intro shared
    have spelled : (acc.nameOf x).toList = (acc.nameOf "").toList ++ x.toList := by
      cases acc <;> simp [Accessor.nameOf]
    have rest := methods acc (by cases acc <;> simp) _ shared (by simp [spelled])
    simpa only [spelled, drop_left, String.toList_inj] using rest
  · rintro (⟨rfl, other⟩ | ⟨rfl, rfl⟩)
    · exact extension acc (by cases acc <;> simp_all)
    · exact references

lemma storable_of_mem (member : x ∈ storedNames) : "_" ++ x ∈ sharedAttributes ∧ Storable x := by
  obtain ⟨-, -, -, -, stored⟩ := shared_names
  obtain ⟨shared, public_, private_, front, single⟩ := stored x member
  exact ⟨shared, claimable_of public_, claimable_of private_, front, single⟩

/-- What is shared is spared exactly where the few declarations that matter have no method or
attribute of their own. -/
lemma Named.spares_iff (named : Named a m c) :
    (∀ name ∈ sharedAttributes, ¬ c.Generates name) ↔ m.Spares (scopeDecl a c.id).nested := by
  obtain ⟨-, ⟨extension, -⟩, ⟨references, -⟩, attributes, -⟩ := shared_names
  replace extension := claimable_of extension
  replace references := claimable_of references
  constructor
  · intro none
    have noMethod : ∀ {x : String}, Claimable x → ∀ {acc : Accessor}, acc.nameOf x ∈ sharedAttributes →
        ∀ d ∈ m.called? x, d.hasAccessor m acc = false := by
      intro x claimable acc shared d called
      by_contra able
      refine none _ shared (.inl ⟨acc, x, ?_, rfl⟩)
      exact (named.accessor?_iff claimable).2 ⟨d, called, by simpa using able⟩
    refine ⟨fun d called => ⟨?_, ?_⟩, fun d called => ?_, fun x member d called isStored => ?_⟩
    · exact noMethod extension (nameOf_mem_shared_iff.2 (.inl ⟨rfl, by simp⟩)) d called
    · exact noMethod extension (nameOf_mem_shared_iff.2 (.inl ⟨rfl, by simp⟩)) d called
    · exact noMethod references (nameOf_mem_shared_iff.2 (.inr ⟨rfl, rfl⟩)) d called
    · by_contra free
      obtain ⟨shared, storable⟩ := storable_of_mem member
      exact none _ shared (.inr ((named.slots_iff storable).2 ⟨⟨d, called, isStored⟩, free⟩))
  · rintro spares name shared (⟨acc, x, isSome, rfl⟩ | ⟨s, slot, rfl⟩)
    · rcases nameOf_mem_shared_iff.1 shared with ⟨rfl, other⟩ | ⟨rfl, rfl⟩
      · obtain ⟨d, called, able⟩ := (named.accessor?_iff extension).1 isSome
        obtain ⟨noHas, noClear⟩ := spares.extension d called
        cases acc <;> simp_all
      · obtain ⟨d, called, able⟩ := (named.accessor?_iff references).1 isSome
        exact absurd (able.symm.trans (spares.references d called)) (by simp)
    · have stored := named.mem_stored slot
      obtain ⟨front, second⟩ := stored_front stored
      have unreserved : s.storageName ∉ reservedAttributes := by
        refine ((nameScope_spec (scopeDecl a c.id)).2.1 _ ?_).2
        simp only [ScopeNames.stored, ScopeNames.own, mem_append] at stored ⊢
        exact stored.elim (fun field => .inl (.inr field)) .inr
      obtain ⟨x, member, name⟩ := attributes _ shared front second unreserved
      obtain ⟨⟨d, called, isStored⟩, free⟩ := (named.slots_iff (storable_of_mem member).2).1 ⟨s, slot, name⟩
      exact free (spares.stored x member d called isStored)

/-! ## The result -/

/-- **When members shadow what all messages have.**  Of every class that is planned for a file of an
accepted schema, whatever its fields and oneofs are called: no method and no attribute that it brings
for them has the name of something that all messages or storages have, exactly if what gets one of a
few names in its message has no such method or attribute.  The names are `extension` and
`escaped_references` for methods, and `check_extension`, `field_is_set`, `owners` and `escaped` for
attributes. -/
theorem shadows_nothing_iff {files : List FileDecl} {k : Compilation} {file : FileDecl}
    {module : ModulePlan} (built : Arena.build files = .ok k.arena) (given : k.names = names k.arena)
    (planned : (k.plan file).1 = .ok module) {c : ClassPlan} (inside : c ∈ flattenList module.classes) :
    ∃ m, k.arena.message? c.id = some m
      ∧ ((∀ name ∈ sharedAttributes, ¬ c.Generates name) ↔ m.Spares (scopeDecl k.arena c.id).nested) := by
  have made : ∃ p, planModule k.arena (names k.arena) k.options k.files file { memo := k.memo } = .ok module p := by
    rw [Compilation.plan, given] at planned
    cases run : planModule k.arena (names k.arena) k.options k.files file { memo := k.memo } with
    | error => simp [run] at planned
    | ok module' p => exact ⟨p, by simpa [run] using planned⟩
  obtain ⟨p, made⟩ := made
  obtain ⟨m, named⟩ := planModule_named built made c inside
  exact ⟨m, named.found, named.spares_iff⟩

/-- A field `owners` beside a message that has taken the name of its attribute. -/
def guardedFile : FileDecl :=
  { name := "a.proto"
    messages :=
      [{ name := "M"
         fields := [{ name := "owners", number := 1, type := .message, typeName := ".M" }]
         messages := [{ name := "_owners" }] }] }

theorem shadows_nothing_guarded :
    ∃ a module c m, Arena.build [guardedFile] = .ok a
      ∧ ((Compilation.start a {}).plan guardedFile).1 = .ok module ∧ c ∈ flattenList module.classes
      ∧ c.slots.map (·.storageName) = ["_owners_"] ∧ a.message? c.id = some m
      ∧ m.Spares (scopeDecl a c.id).nested ∧ ∀ name ∈ sharedAttributes, ¬ c.Generates name := by
  obtain ⟨a, built⟩ := exists_of_isOk (show (Arena.build [guardedFile]).isOk = true by decide +kernel)
  have facts : ((Arena.build [guardedFile]).toOption.bind fun a =>
      ((Compilation.start a {}).plan guardedFile).1.toOption.map fun module =>
        (flattenList module.classes).head?.map fun c =>
          (c.slots.map (·.storageName), (a.message? c.id).map fun m => decide (m.Spares (scopeDecl a c.id).nested)))
      = some (some (["_owners_"], some true)) := by
    decide +kernel
  simp only [built, Except.toOption, Option.bind_some] at facts
  cases planned : ((Compilation.start a {}).plan guardedFile).1 with
  | error => simp [planned] at facts
  | ok module =>
    simp only [planned, Option.map_some, Option.some.injEq, Option.map_eq_some_iff, Prod.mk.injEq,
      decide_eq_true_eq] at facts
    obtain ⟨c, first, stored, m, found, spares⟩ := facts
    have inside := mem_of_head? first
    obtain ⟨m', found', iff⟩ := shadows_nothing_iff (k := Compilation.start a {}) built rfl planned inside
    cases found.symm.trans found'
    exact ⟨a, module, c, m, built, planned, inside, stored, found, spares, iff.2 spares⟩

/-- A field `extension` that can be asked for. -/
def shadowingFile : FileDecl :=
  { name := "a.proto"
    messages :=
      [{ name := "M"
         fields := [{ name := "extension", number := 1, type := .int32 }]
         extensionRanges := [(10, 11)] }] }

/-- The method that tells whether the field is set has the name of the one that tells whether an
extension is. -/
theorem generates_has_extension :
    ∃ a module c, Arena.build [shadowingFile] = .ok a
      ∧ ((Compilation.start a {}).plan shadowingFile).1 = .ok module ∧ c ∈ flattenList module.classes
      ∧ "has_extension" ∈ messageAttributes ∧ c.Generates "has_extension" := by
  obtain ⟨a, built⟩ := exists_of_isOk (show (Arena.build [shadowingFile]).isOk = true by decide +kernel)
  have facts : ((Arena.build [shadowingFile]).toOption.bind fun a =>
      ((Compilation.start a {}).plan shadowingFile).1.toOption.map fun module =>
        (flattenList module.classes).head?.map fun c => (c.accessor? .has "extension").isSome)
      = some (some true) := by
    decide +kernel
  simp only [built, Except.toOption, Option.bind_some] at facts
  cases planned : ((Compilation.start a {}).plan shadowingFile).1 with
  | error => simp [planned] at facts
  | ok module =>
    simp only [planned, Option.map_some, Option.some.injEq, Option.map_eq_some_iff] at facts
    obtain ⟨c, first, isSome⟩ := facts
    exact ⟨a, module, c, built, planned, mem_of_head? first, by decide, .inl ⟨.has, _, isSome, rfl⟩⟩

end Missive.Plan
