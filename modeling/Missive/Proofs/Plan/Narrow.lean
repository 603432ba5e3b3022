import Missive.Proofs.Plan.Clear
import Missive.Proofs.Schema.Narrow

/-!
# Plans with fewer fields

A class is narrowed if some of its fields are taken away.  The fields that are left keep their numbers and
are coded as before, though their slots, the names of the classes they refer to and the oneofs around them
may be others.

If fields are taken away from the messages of a schema, the classes of its program are narrowed
(`narrowed_of_build`).
-/

namespace Missive

open List

namespace Plan

/-- Two kinds of fields are coded alike: messages are of the same class, whatever it is called, and defaults
are the same where they are stored. -/
inductive FieldKind.Alike : FieldKind → FieldKind → Prop
  | scalar {type : FieldType} {presence : Bool} {default default' : Scalar}
      (stored : presence = false → default' = default) :
      Alike (.scalar type presence default) (.scalar type presence default')
  | repeated {type : FieldType} {packed : Bool} : Alike (.repeated type packed) (.repeated type packed)
  | message {group : Bool} {ref ref' : ClassRef} (target : ref'.target = ref.target) :
      Alike (.message group ref) (.message group ref')
  | repeatedMessage {group : Bool} {ref ref' : ClassRef} (target : ref'.target = ref.target) :
      Alike (.repeatedMessage group ref) (.repeatedMessage group ref')
  | map {key value : FieldType} {ref ref' : Option ClassRef}
      (target : ref'.map (·.target) = ref.map (·.target)) : Alike (.map key value ref) (.map key value ref')

/-- Two kinds of members are coded alike. -/
inductive MemberKind.Alike : MemberKind → MemberKind → Prop
  | scalar {type : FieldType} {default default' : Scalar} : Alike (.scalar type default) (.scalar type default')
  | message {group : Bool} {ref decodeRef ref' decodeRef' : ClassRef} (target : ref'.target = ref.target)
      (decoded : decodeRef'.target = decodeRef.target) :
      Alike (.message group ref decodeRef) (.message group ref' decodeRef')

/-- Two declared fields have the same number and are coded alike. -/
inductive Declared.Alike : Declared → Declared → Prop
  | field {slot slot' : Nat} {f f' : FieldPlan} (number : f'.number = f.number) (kind : f.kind.Alike f'.kind) :
      Alike (.field slot f) (.field slot' f')
  | member {slot slot' : Nat} {o o' : OneofPlan} {m m' : MemberPlan} {first first' : Bool}
      (number : m'.number = m.number) (kind : m.kind.Alike m'.kind) :
      Alike (.member slot o m first) (.member slot' o' m' first')

lemma Declared.Alike.number_eq {d d' : Declared} (alike : d.Alike d') : d'.number = d.number := by
  cases alike with
  | field number => exact number
  | member number => exact number

/-- Of a class some fields are left.  Two of them share a slot if they did before. -/
structure ClassPlan.Fewer (c c' : ClassPlan) : Prop where
  isAny : c'.isAny = c.isAny
  kept : ∀ d' ∈ c'.declared, ∃ d ∈ c.declared, d.Alike d'
  slots : ∀ d ∈ c.declared, ∀ e ∈ c.declared, ∀ d' ∈ c'.declared, ∀ e' ∈ c'.declared, d.Alike d' →
    e.Alike e' → (d'.slot = e'.slot ↔ d.slot = e.slot)

/-- The same, and the class can be extended as before. -/
structure ClassPlan.Narrowed (c c' : ClassPlan) : Prop extends c.Fewer c' where
  ranges : c'.ranges = c.ranges

end Plan

open Plan

/-- The classes of a program are narrowed, and none is missing. -/
def Program.Narrowed (p p' : Program) : Prop :=
  ∀ t c, p.plan? t = some c → ∃ c', p'.plan? t = some c' ∧ c.Narrowed c'

namespace Schema

/-- The members of a oneof are all optional fields of the newer dialect or none of them is. -/
def Message.Uniform (m : Message) : Prop :=
  ∀ f ∈ m.fields, ∀ g ∈ m.fields, f.oneof.isSome = true → f.oneof = g.oneof → f.proto3Optional = g.proto3Optional

instance (m : Message) : Decidable m.Uniform :=
  inferInstanceAs (Decidable (∀ f ∈ m.fields, ∀ g ∈ m.fields, _ → _ → _))

def Forest.Uniform (a : Arena) : Prop := ∀ id ∈ a.ids, ∀ m ∈ a.message? id, m.Uniform

instance (a : Arena) : Decidable a.Uniform :=
  inferInstanceAs (Decidable (∀ id ∈ a.ids, ∀ m ∈ a.message? id, _))

lemma Forest.Uniform.message {a : Arena} (uniform : a.Uniform) {id : Nat} {m : Message}
    (found : a.message? id = some m) : m.Uniform :=
  uniform id (Forest.Regular.mem_ids found) m found

end Schema

namespace Plan

open Schema

/-! ## Oneofs -/

/-- The position of the oneof that a field is in, unless that only marks an optional field. -/
def realOneof (f : Field) : Option Nat := if f.proto3Optional then none else f.oneof

section oneofs

variable {s : Message} {f : Field} (resolved : s.Resolved) (uniform : s.Uniform) (declared : f ∈ s.fields)

include resolved uniform declared

lemma oneofOf_index : (s.oneofOf f).map (·.index) = realOneof f := by
  unfold realOneof
  cases position : f.oneof with
  | none => simp [Message.oneofOf, position]
  | some i =>
    have bound := resolved.indexed f declared i position
    -- The oneof is synthetic if this member is optional, since then all of them are.
    obtain ⟨o, isOneof, index, members⟩ : ∃ o ∈ s.allOneofs, o.index = i
        ∧ o.members = s.fields.filter fun g => g.oneof == some i :=
      ⟨_, mem_mapIdx.2 ⟨i, bound, rfl⟩, rfl, rfl⟩
    have inside : f ∈ o.members := by simp [members, declared, position]
    have synthetic : o.isSynthetic = f.proto3Optional := by
      have all : o.members.all (·.proto3Optional) = f.proto3Optional := by
        cases isOptional : f.proto3Optional with
        | true =>
          refine all_eq_true.2 fun g member => ?_
          rw [members, mem_filter] at member
          rw [← uniform f declared g member.1 (by simp [position])
            (position.trans (beq_iff_eq.1 member.2).symm), isOptional]
        | false => exact all_eq_false.2 ⟨f, inside, by simp [isOptional]⟩
      simp [Oneof.isSynthetic, all, ne_nil_of_mem inside]
    cases isOptional : f.proto3Optional with
    | true =>
      simp only [if_true, Option.map_eq_none_iff]
      by_contra some
      obtain ⟨o', of⟩ := Option.ne_none_iff_exists'.1 some
      obtain ⟨real, index'⟩ := oneofOf_some of
      obtain ⟨isOneof', notSynthetic⟩ := mem_oneofs real
      obtain rfl := oneof_ext isOneof' isOneof (by
        rw [index]
        exact Option.some.inj (index'.symm.trans position))
      rw [synthetic, isOptional] at notSynthetic
      cases notSynthetic
    | false =>
      have real : o ∈ s.oneofs := by simp [Message.oneofs, isOneof, synthetic, isOptional]
      have found : (s.oneofOf f).isSome = true := by
        simp only [Message.oneofOf, position, Option.bind_some, find?_isSome]
        exact ⟨o, real, by simp [index]⟩
      obtain ⟨o', of⟩ := Option.isSome_iff_exists.1 found
      simpa [of, position] using (oneofOf_some of).2.symm

lemma slotKey_eq : slotKey s f = ((realOneof f).map SlotKey.oneof).getD (.field f.number) := by
  rw [← oneofOf_index resolved uniform declared]
  unfold slotKey
  cases s.oneofOf f <;> rfl

end oneofs

/-! ## Kinds -/

section kinds

variable {a a' : Arena} (fewer : a.Fewer a') {s s' : Message} {f : Field} {move : Nat → Nat}

include fewer

/-- A field that is left is coded as before. -/
lemma KindOf.alike (proto3 : s'.proto3 = s.proto3) {kind kind' : FieldKind} (isKind : KindOf a s f kind)
    (isKind' : KindOf a' s' (f.moved move) kind') : kind.Alike kind' := by
  have presence : (f.moved move).hasPresence s' = f.hasPresence s := by
    simp [Field.hasPresence, Field.isRepeated, Field.isMessage, Field.moved, proto3]
  have packed : (f.moved move).isPacked s' = f.isPacked s := by
    simp [Field.isPacked, Field.isRepeated, Field.moved, proto3]
  have targets := fewer.shaped.typeMessage?_eq f move
  have classes := fewer.shaped.classify_eq f move
  cases isKind with
  | scalar singular isScalar value =>
    cases isKind' with
    | scalar _ _ value' =>
      rw [fewer.shaped.defaultOf_eq] at value'
      cases value.symm.trans value'
      rw [presence]
      exact .scalar fun _ => rfl
    | repeated many | repeatedMessage many | map many => cases singular.symm.trans many
    | message _ nested => cases isScalar.symm.trans nested
  | repeated many isScalar =>
    cases isKind' with
    | scalar singular | message singular => cases many.symm.trans singular
    | repeated =>
      rw [packed]
      exact .repeated
    | repeatedMessage _ nested => cases isScalar.symm.trans nested
    | map _ _ _ _ _ _ _ isMap =>
      have isMessage : f.type = .message := (classify_ok isMap).2.1
      rw [isMessage] at isScalar
      cases isScalar
  | message singular nested target =>
    cases isKind' with
    | scalar _ isScalar => cases nested.symm.trans isScalar
    | repeated many | repeatedMessage many | map many => cases singular.symm.trans many
    | message _ _ target' => exact .message (Option.some.inj (target'.symm.trans (targets.trans target)))
  | repeatedMessage many nested target plain =>
    cases isKind' with
    | scalar singular | message singular => cases many.symm.trans singular
    | repeated _ isScalar => cases nested.symm.trans isScalar
    | repeatedMessage _ _ target' =>
      exact .repeatedMessage (Option.some.inj (target'.symm.trans (targets.trans target)))
    | map _ _ _ _ _ _ _ isMap => exact absurd (classes.symm.trans isMap) plain
  | @map id entry key value ref many type isEntry first second valueClass target isMap =>
    cases isKind' with
    | scalar singular | message singular => cases many.symm.trans singular
    | repeated _ isScalar =>
      have isMessage : f.type = .message := (classify_ok isMap).2.1
      have isScalar : f.type.isScalar = true := isScalar
      rw [isMessage] at isScalar
      cases isScalar
    | repeatedMessage _ _ _ plain => exact absurd (classes.trans isMap) plain
    | @map id' entry' key' value' ref' _ type' _ first' second' valueClass' target' =>
      obtain ⟨isType, found⟩ := messageType_ok type
      obtain ⟨isType', found'⟩ := messageType_ok type'
      obtain rfl : id = id' := Option.some.inj ((targets.trans isType).symm.trans isType')
      obtain ⟨n, _, -, found₁, keep, move', left, spared⟩ := fewer.exists_message found'
      cases found.symm.trans found₁
      -- Nothing is taken away from an entry.
      have fields := left.fields_of_all (spared (by simp [isEntry]))
      rw [fields, getElem?_map, first] at first'
      rw [fields, getElem?_map, second] at second'
      cases first'
      cases second'
      refine .map ?_
      have same : ref'.isSome = ref.isSome := by
        rw [Bool.eq_iff_iff, ← valueClass, ← valueClass', fewer.shaped.classify_eq]
      cases ref with
      | none =>
        cases ref' with
        | none => rfl
        | some => cases same
      | some r =>
        cases ref' with
        | none => cases same
        | some r' =>
          have here := target r rfl
          have there := target' r' rfl
          rw [fewer.shaped.typeMessage?_eq, here] at there
          exact congrArg some (Option.some.inj there).symm

/-- A member of a oneof that is left is coded as before. -/
lemma MemberKindOf.alike (singular : f.isRepeated = false) {kind kind' : MemberKind}
    (isKind : MemberKindOf a f kind) (isKind' : MemberKindOf a' (f.moved move) kind') : kind.Alike kind' := by
  have targets := fewer.shaped.typeMessage?_eq f move
  cases isKind with
  | scalar isScalar =>
    cases isKind' with
    | scalar => exact .scalar
    | message nested => cases isScalar.symm.trans nested
    | entry many => cases singular.symm.trans many
  | message nested same target =>
    cases isKind' with
    | scalar isScalar => cases nested.symm.trans isScalar
    | message _ same' target' =>
      have sameTarget := Option.some.inj (target'.symm.trans (targets.trans target))
      exact .message sameTarget (by rw [← same, ← same', sameTarget])
    | entry many => cases singular.symm.trans many
  | entry many => cases singular.symm.trans many

end kinds

/-! ## Classes -/

section classes

variable {a a' : Arena} (fewer : a.Fewer a') (regular : a.Regular) {s s' : Message} {c c' : ClassPlan}
  (resolved : s.Resolved) (resolved' : s'.Resolved) (uniform : s.Uniform) {keep : Int → Bool} {move : Nat → Nat}
  (left : s.Fewer keep move s')

include left in
/-- What is left of a uniform message is uniform. -/
lemma uniform_of_fewer (uniform : s.Uniform) : s'.Uniform := by
  intro f declared g other isMember same
  obtain ⟨f, inside, kept, rfl⟩ := left.exists_field declared
  obtain ⟨g, inside', kept', rfl⟩ := left.exists_field other
  have isMember : f.oneof.isSome = true := by simpa [Field.moved] using isMember
  obtain ⟨i, position⟩ := Option.isSome_iff_exists.1 isMember
  have same : f.oneof.map move = g.oneof.map move := same
  rw [position, Option.map_some] at same
  obtain ⟨j, position', moved⟩ := Option.map_eq_some_iff.1 same.symm
  have equal := left.apart g inside' f inside kept' kept j i position' position moved
  exact uniform f inside g inside' isMember (by rw [position, position', equal])

lemma realOneof_moved (f : Field) (move : Nat → Nat) : realOneof (f.moved move) = (realOneof f).map move := by
  cases optional : f.proto3Optional <;> simp [realOneof, Field.moved, optional]

include resolved uniform in
/-- Two declared fields share a slot if they are the same or in one oneof. -/
lemma slot_eq_iff {oneofs oneofs' : List (Nat × OneofPlan)} {f g : Field} {d e : Declared} (inside : f ∈ s.fields)
    (inside' : g ∈ s.fields) (presents : Presents a s oneofs f d) (presents' : Presents a s oneofs' g e) :
    d.slot = e.slot ↔ f.number = g.number ∨ ∃ i, realOneof f = some i ∧ realOneof g = some i := by
  have key : slotKey s f ∈ slotKeys s := by
    rw [slotKeys_eq, mem_foldl_addKey]
    exact .inr (mem_map_of_mem inside)
  rw [presents.slot_eq, presents'.slot_eq, slotIndex, slotIndex, idxOf_inj key,
    slotKey_eq resolved uniform inside, slotKey_eq resolved uniform inside']
  constructor
  · intro same
    cases real : realOneof f <;> cases real' : realOneof g <;> simp [real, real'] at same
    · exact .inl same
    · exact .inr ⟨_, rfl, by rw [same]⟩
  · rintro (same | ⟨i, real, real'⟩)
    · rw [inj_on_of_nodup_map resolved.distinct inside inside' same]
    · rw [real, real']
      rfl

include fewer regular resolved resolved' uniform left in
/-- A field that is left is presented as before. -/
lemma presents_alike {f : Field} (inside : f ∈ s.fields) (kept : f.moved move ∈ s'.fields)
    (found : ∃ id, a.message? id = some s) {oneofs oneofs' : List (Nat × OneofPlan)} {d d' : Declared}
    (presents : Presents a s oneofs f d) (presents' : Presents a' s' oneofs' (f.moved move) d') : d.Alike d' := by
  have real := oneofOf_index resolved uniform inside
  have real' := oneofOf_index resolved' (uniform_of_fewer left uniform) kept
  rw [realOneof_moved] at real'
  cases presents with
  | field plain number kind =>
    cases presents' with
    | field _ number' kind' =>
      exact .field (number'.trans number.symm) (kind.alike fewer left.proto3 kind')
    | member of => simp [plain, of, ← real] at real'
  | @member o plan member of known oneof isMember =>
    cases presents' with
    | field plain => simp [plain, of, ← real] at real'
    | @member o' plan' member' of' known' oneof' isMember' =>
      obtain ⟨id, found⟩ := found
      have singular := regular.singular found inside (by simp [of])
      obtain ⟨there, number⟩ := member?_eq_some isMember
      obtain ⟨there', number'⟩ := member?_eq_some isMember'
      -- Each plan of a member is that of the field with its number.
      obtain ⟨g, isField, named, kind⟩ := oneof.exists_field there
      obtain ⟨g', isField', named', kind'⟩ := oneof'.exists_field there'
      have inside₁ : g ∈ s.fields := ((mem_members_iff (oneofOf_some of).1).1 isField).1
      have inside₁' : g' ∈ s'.fields := ((mem_members_iff (oneofOf_some of').1).1 isField').1
      obtain rfl := inj_on_of_nodup_map resolved.distinct inside₁ inside (named.symm.trans number)
      obtain rfl := inj_on_of_nodup_map resolved'.distinct inside₁' kept (named'.symm.trans number')
      exact .member (number'.trans number.symm) (kind.alike fewer singular kind')

include fewer regular resolved resolved' uniform in
/-- **One class.**  If fields are taken away from a message, some of its class is left. -/
lemma Planned.class_fewer (planned : Planned a s c) (planned' : Planned a' s' c') (same : c'.id = c.id) :
    c.Fewer c' := by
  obtain ⟨n, _, -, found, keep, move, left, -⟩ := fewer.exists_message planned'.found
  rw [same] at found
  cases planned.found.symm.trans found
  have uniform' := uniform_of_fewer left uniform
  -- A declared field that is left and what it was before present the same field.
  have pairs : ∀ d ∈ c.declared, ∀ d' ∈ c'.declared, d.Alike d' → ∃ oneofs oneofs' f, f ∈ s.fields
      ∧ keep f.number = true ∧ f.moved move ∈ s'.fields ∧ Presents a s oneofs f d
      ∧ Presents a' s' oneofs' (f.moved move) d' := by
    intro d declared d' declared' alike
    obtain ⟨oneofs, f, inside, presents⟩ := planned.exists_presents declared
    obtain ⟨oneofs', g', inside', presents'⟩ := planned'.exists_presents declared'
    obtain ⟨g, there, kept, rfl⟩ := left.exists_field inside'
    have number : g.number = f.number :=
      presents'.number_eq.symm.trans (alike.number_eq.trans presents.number_eq)
    obtain rfl := inj_on_of_nodup_map resolved.distinct there inside number
    exact ⟨oneofs, oneofs', g, inside, kept, inside', presents, presents'⟩
  refine ⟨?_, ?_, ?_⟩
  · rw [planned'.isAny, planned.isAny, same, fewer.shaped.isAny_eq]
  · intro d' declared'
    obtain ⟨oneofs', g', inside', presents'⟩ := planned'.exists_presents declared'
    obtain ⟨f, inside, kept, rfl⟩ := left.exists_field inside'
    obtain ⟨oneofs, d, declared, presents⟩ := planned.exists_presented inside
    exact ⟨d, declared, presents_alike fewer regular resolved resolved' uniform left inside inside' ⟨_, found⟩
      presents presents'⟩
  · intro d declared e other d' declared' e' other' alike alike'
    obtain ⟨_, _, f, inside, kept, inside', presents, presents'⟩ := pairs d declared d' declared' alike
    obtain ⟨_, _, g, other, kept', other', shown, shown'⟩ := pairs e other e' other' alike'
    rw [slot_eq_iff resolved' uniform' inside' other' presents' shown',
      slot_eq_iff resolved uniform inside other presents shown, realOneof_moved, realOneof_moved]
    refine or_congr Iff.rfl ⟨?_, ?_⟩
    · rintro ⟨i, real, real'⟩
      obtain ⟨j, isReal, rfl⟩ := Option.map_eq_some_iff.1 real
      obtain ⟨k, isReal', moved⟩ := Option.map_eq_some_iff.1 real'
      have position : ∀ {h : Field} {i}, realOneof h = some i → h.oneof = some i := by
        intro h i real
        unfold realOneof at real
        split at real
        · cases real
        · exact real
      have equal := left.apart g other f inside kept' kept k j (position isReal') (position isReal) moved
      exact ⟨j, isReal, equal ▸ isReal'⟩
    · rintro ⟨i, real, real'⟩
      exact ⟨move i, by rw [real]; rfl, by rw [real']; rfl⟩

end classes

/-! ## All classes -/

/-- The messages that have classes inside that of a message, and the message itself. -/
def classTree (a : Arena) : (turns : Nat) → Nat → List Nat
  | 0, _ => []
  | turns + 1, id => id :: (a.nestedMessages id).flatMap (classTree a turns)

lemma classTree_eq {a a' : Arena} (shaped : a.Shaped a') (turns id : Nat) :
    classTree a' turns id = classTree a turns id := by
  induction turns generalizing id with
  | zero => rfl
  | succ turns ih => rw [classTree, classTree, shaped.nestedMessages_eq, funext ih]

lemma flatten_ids {c : ClassPlan} : c.flatten.map (·.id) = c.id :: (flattenList c.nested).map (·.id) := by
  cases c
  rfl

lemma flattenList_ids {tree : Nat → List Nat} {ids : List Nat} {cs : List ClassPlan}
    (each : Forall₂ (fun id (c : ClassPlan) => c.flatten.map (·.id) = tree id) ids cs) :
    (flattenList cs).map (·.id) = ids.flatMap tree := by
  induction each with
  | nil => rfl
  | cons first _ ih => rw [flattenList, map_append, flatMap_cons, first, ih]

/-- Classes in a row are planned for the messages that each of them is planned for. -/
lemma planClasses_ids {s : Scene} {tree : Nat → List Nat} {ids : List Nat} {shells : List Shell}
    (each : Forall₂ (fun id sh => ∀ {q q' c}, planClass s sh q = .ok c q' → c.flatten.map (·.id) = tree id)
      ids shells) {p p' : Progress} {cs : List ClassPlan} (h : planClasses s shells p = .ok cs p') :
    (flattenList cs).map (·.id) = ids.flatMap tree := by
  induction each generalizing p cs with
  | nil =>
    obtain ⟨rfl, -⟩ := EStateM.Result.ok.inj h
    rfl
  | cons first _ ih =>
    rw [planClasses] at h
    obtain ⟨c, t, firstIs, h⟩ := run_bind_ok h
    obtain ⟨others, t', more, h⟩ := run_bind_ok h
    obtain ⟨rfl, rfl⟩ := EStateM.Result.ok.inj h
    rw [flattenList, map_append, flatMap_cons, first firstIs, ih more]

/-- Classes are planned for the messages that their shells were made for. -/
lemma shell_ids {s : Scene} {turns id : Nat} {p p' q q' : Progress} {sh : Shell} {c : ClassPlan}
    (h : shell s turns id p = .ok sh p') (made : planClass s sh q = .ok c q') :
    c.flatten.map (·.id) = classTree s.arena turns id := by
  induction turns generalizing id p p' q q' sh c with
  | zero => cases h
  | succ turns ih =>
    obtain ⟨_, m, layout, shells, _, _, ⟨rfl⟩, -, -, nestedIs, rfl⟩ := shell_ok h
    obtain ⟨-, -, -, t, t', -, planned, -, -, isId, -⟩ := planClass_ok made
    have each : Keeps (fun _ => True) ((s.arena.nestedMessages id).mapM (shell s turns))
        (Forall₂ (fun id sh => ∀ {q q' c}, planClass s sh q = .ok c q' →
          c.flatten.map (·.id) = classTree s.arena turns id) (s.arena.nestedMessages id)) :=
      runs_mapM fun id _ p _ => yields_iff.2 fun sh p' run => ⟨trivial, fun made => ih run made⟩
    rw [flatten_ids, isId, classTree, planClasses_ids (each.run trivial nestedIs).2 planned]

end Plan

namespace Program

open Schema

/-- The messages that have classes in a module. -/
lemma planModule_ids {a : Arena} {known : Naming.Names} {options : Plan.Options} {files : List String}
    {file : FileDecl} {p p' : Progress} {m : ModulePlan}
    (h : planModule a known options files file p = .ok m p') :
    (flattenList m.classes).map (·.id) = (a.topLevelMessages file.name).flatMap (classTree a (a.nodes.length + 1)) := by
  unfold planModule at h
  obtain ⟨classes, t, made, h⟩ := run_bind_ok h
  obtain ⟨rfl, -⟩ := EStateM.Result.ok.inj h
  refine flattenList_ids (Keeps.run (I := fun _ => True) (runs_mapM fun id _ p _ => ?_) trivial made).2
  refine yields_iff.2 fun c p' run => ?_
  obtain ⟨sh, t, shellIs, planned⟩ := run_bind_ok run
  exact ⟨trivial, shell_ids shellIs planned⟩

/-- The messages that have classes in some modules. -/
lemma planAll_ids {c : Compilation} {files : List FileDecl} {modules : List ModulePlan}
    (h : planAll c files = .ok modules) :
    (modules.flatMap fun m => flattenList m.classes).map (·.id) = files.flatMap fun file =>
      (c.arena.topLevelMessages file.name).flatMap (classTree c.arena (c.arena.nodes.length + 1)) := by
  induction files generalizing c modules with
  | nil =>
    obtain rfl : [] = modules := by simpa [planAll] using h
    rfl
  | cons file rest ih =>
    obtain ⟨first, others, p, rfl, run, more⟩ := planAll_cons h
    rw [flatMap_cons, flatMap_cons, map_append, planModule_ids run, ih more]

lemma classes_ids {files : List FileDecl} {options : Plan.Options} {p : Program} (h : build files options = .ok p) :
    p.classes.map (·.1) = files.flatMap fun file =>
      (p.arena.topLevelMessages file.name).flatMap (classTree p.arena (p.arena.nodes.length + 1)) := by
  obtain ⟨modules, -, planned, same⟩ := build_ok h
  rw [same, ofModules, map_map]
  exact planAll_ids planned

lemma arena_of_build {files : List FileDecl} {options : Plan.Options} {p : Program}
    (h : build files options = .ok p) : Arena.build files = .ok p.arena := by
  obtain ⟨-, built, -⟩ := build_ok h
  exact built

section shaped

variable {files files' : List FileDecl} {options options' : Plan.Options} {p p' : Program}
  (built : build files options = .ok p) (built' : build files' options' = .ok p')
  (names : files'.map (·.name) = files.map (·.name)) (shaped : p.arena.Shaped p'.arena)

include built built' names shaped

lemma classes_ids_eq : p'.classes.map (·.1) = p.classes.map (·.1) := by
  have byName : ∀ files : List FileDecl, files.flatMap (fun file => (p.arena.topLevelMessages file.name).flatMap
      (classTree p.arena (p.arena.nodes.length + 1))) = (files.map (·.name)).flatMap fun name =>
        (p.arena.topLevelMessages name).flatMap (classTree p.arena (p.arena.nodes.length + 1)) := by
    intro files
    rw [flatMap_map]
  rw [classes_ids built, classes_ids built']
  simp only [shaped.topLevelMessages_eq, shaped.length_eq, funext (classTree_eq shaped _)]
  rw [byName, byName, names]

lemma exists_plan {t : TypeId} {c : ClassPlan} (found : p.plan? t = some c) : ∃ c', p'.plan? t = some c' := by
  have there : t ∈ p'.classes.map (·.1) := by
    rw [classes_ids_eq built built' names shaped]
    exact mem_map_of_mem (mem_classes_of_plan? found)
  obtain ⟨⟨t, c₁⟩, inside, rfl⟩ := mem_map.1 there
  have known : (p'.classes.lookup t).isSome = true := lookup_isSome_iff.2 ⟨_, inside, by simp⟩
  exact Option.isSome_iff_exists.1 known

end shaped

section narrowed

variable {files : List FileDecl} {options options' : Plan.Options} {p p' : Program}
  {drop : String → Int → Bool} (built : build files options = .ok p)
  (built' : build (files.map (·.without drop)) options' = .ok p')

omit built built' in
lemma names_without (files : List FileDecl) : (files.map (·.without drop)).map (·.name) = files.map (·.name) :=
  map_map

include built built'

section

variable (regular : p.arena.Regular) (uniform : p.arena.Uniform)

include regular uniform

lemma exists_narrowed {t : TypeId} {c c' : ClassPlan} (member : (t, c) ∈ p.classes) (member' : (t, c') ∈ p'.classes) :
    c.Narrowed c' := by
  have narrow := Schema.narrowed_of_build drop (arena_of_build built) (arena_of_build built')
  obtain ⟨rfl, s, resolved, planned⟩ := planned_of_mem built member
  obtain ⟨same, s', resolved', planned'⟩ := planned_of_mem built' member'
  refine ⟨planned.class_fewer narrow.fewer regular resolved resolved' (uniform.message planned.found) planned' same, ?_⟩
  obtain ⟨n, _, -, there, keep, move, narrowed, -⟩ := narrow.exists_message planned'.found
  rw [same] at there
  cases planned.found.symm.trans there
  rw [planned'.ranges, planned.ranges, narrowed.ranges]

/-- **Fewer fields.**  If fields are taken away from the messages of some files, the classes of their program
are narrowed. -/
lemma narrowed_of_build : p.Narrowed p' := by
  intro t c found
  have narrow := Schema.narrowed_of_build drop (arena_of_build built) (arena_of_build built')
  obtain ⟨c', found'⟩ := exists_plan built built' (names_without files) narrow.fewer.shaped found
  exact ⟨c', found', exists_narrowed built built' regular uniform (mem_classes_of_plan? found)
    (mem_classes_of_plan? found')⟩

/-- What is left of a regular schema is regular. -/
lemma regular_of_build : p'.arena.Regular := by
  have arena := arena_of_build built
  have arena' := arena_of_build built'
  have narrow := Schema.narrowed_of_build drop arena arena'
  intro id _ s' found'
  obtain ⟨n, s, node, found, keep, move, narrowed, spared⟩ := narrow.exists_message found'
  refine ⟨fun g declared isMember => ?_, fun isEntry => ?_, fun isAny => ?_⟩
  · obtain ⟨f, inside, -, rfl⟩ := narrowed.exists_field declared
    have uniform := uniform.message found
    have real := oneofOf_index (resolved_of_build arena found) uniform inside
    have real' := oneofOf_index (resolved_of_build arena' found') (uniform_of_fewer narrowed.toFewer uniform) declared
    rw [realOneof_moved, ← real] at real'
    have singular : f.isRepeated = false := by
      refine regular.singular found inside ?_
      simpa using (congrArg Option.isSome real').symm.trans (by simpa using isMember)
    exact singular
  · rw [narrowed.mapEntry] at isEntry
    obtain ⟨⟨key, first, keyType⟩, value, second, notGroup, singular⟩ := regular.entry found isEntry
    have fields := narrowed.fields_of_all (spared (by simp [isEntry]))
    refine ⟨⟨key.moved move, ?_, keyType⟩, value.moved move, ?_, notGroup, singular⟩
    · rw [fields, getElem?_map, Option.mem_def.1 first]
      rfl
    · rw [fields, getElem?_map, Option.mem_def.1 second]
      rfl
  · rw [narrow.fewer.shaped.isAny_eq] at isAny
    obtain ⟨standard, plain, noOneofs, noRanges, noClasses⟩ := regular.any found isAny
    have isAny' := isAnyAt_of_isAny node found isAny
    have fields := narrowed.fields_of_all (spared (by simp [isAny']))
    refine ⟨?_, ?_, narrowed.oneofs noOneofs, by rw [narrowed.ranges, noRanges], ?_⟩
    · rw [fields, map_map]
      exact standard
    · intro g declared
      obtain ⟨f, inside, -, rfl⟩ := narrowed.exists_field declared
      obtain ⟨singular, noOneof, noDefault⟩ := plain f inside
      exact ⟨singular, by simp [Field.moved, noOneof], noDefault⟩
    · rw [narrow.fewer.shaped.nestedMessages_eq, noClasses]

end

end narrowed

end Program

end Missive
