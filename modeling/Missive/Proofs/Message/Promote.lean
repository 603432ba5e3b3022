import Missive.Proofs.Message.Mirror
import Missive.Proofs.Plan.Declare

/-!
# Extensions and declared fields

A number in an extension range of a message may stand for an extension that is known, or may be declared as a
field of the same type.  Decoding, keeping and writing the two has nothing in common, and yet they have the same
role: the programs of the two schemas mirror each other (`mirror_of_build`), so that they read the same data and
write it in the same way, which is the main result, `parse_declaring`.
-/

namespace Missive

open Plan Schema Program

/-- A field declares an extension of the message at a position: a message of the older dialect whose full name no
other class has, and which can be extended by the number. -/
structure Extension.DeclaredBy (p : Program) (x : TypeId) (e : Extension) (f : FieldDecl) : Prop where
  message : ∃ s ∈ p.arena.message? x, s.proto3 = false ∧ s.mapEntry = false ∧ s.ranges.contains e.number = true
  unique : ∀ known ∈ p.classes, p.arena.path known.1 = p.arena.path x → known.1 = x
  number : f.number = e.number
  label : f.label = if e.repeated then .repeated else .optional
  type : f.type = e.type
  packed : e.repeated = true → e.packed = (e.type.isPackable && f.packed.getD false)
  alone : f.oneof = none
  resolves : e.type.isScalar = false → p.arena.resolve (p.arena.path x) f.typeName = e.messageType
  plain : ∀ t ∈ e.messageType, ∀ s ∈ p.arena.message? t, s.mapEntry = false

section kinds

variable {p p' : Program} {x : TypeId} {e : Extension} {f : FieldDecl}

/-- An extension is coded alike in two programs, where the message that it is of is given. -/
lemma Extension.alike_kind (e : Extension) (p p' : Program) (given : e.type.isScalar = false → ∃ t, t ∈ e.messageType) :
    (e.kind p).Alike (e.kind p') := by
  unfold Extension.kind
  cases scalar : e.type.isScalar with
  | true => cases e.repeated with
    | true => exact .repeated
    | false => exact .scalar fun _ => rfl
  | false =>
    obtain ⟨t, isType⟩ := given scalar
    rw [Option.mem_def.1 isType]
    cases e.repeated with
    | true => exact .repeatedMessage rfl
    | false => exact .message rfl

lemma Extension.DeclaredBy.target (declared : e.DeclaredBy p x f) {t : TypeId} (message : e.type.isScalar = false)
    (isType : p'.arena.typeMessage? (f.resolved p.arena (p.arena.path x)) = some t) : e.messageType = some t := by
  have node : (f.resolved p.arena (p.arena.path x)).typeNode = some t := (Option.filter_eq_some_iff.1 isType).1
  simp only [FieldDecl.resolved] at node
  split at node
  · cases node
  · rw [← declared.resolves message, node]

/-- The field is coded as the extension is. -/
lemma Extension.DeclaredBy.alike (declared : e.DeclaredBy p x f) (shaped : p.arena.Shaped p'.arena)
    {kind : FieldKind} (isKind : Program.NewKind p'.arena (f.resolved p.arena (p.arena.path x)) kind) :
    (e.kind p).Alike kind := by
  obtain ⟨s, proto2, isKind⟩ := isKind
  have isType : (f.resolved p.arena (p.arena.path x)).type = e.type := declared.type
  have isMany : (f.resolved p.arena (p.arena.path x)).isRepeated = e.repeated := by
    simp only [Field.isRepeated, FieldDecl.resolved, declared.label]
    cases e.repeated <;> rfl
  unfold Extension.kind
  cases isKind with
  | scalar singular scalar =>
    rw [isMany] at singular
    rw [isType] at scalar
    have presence : (f.resolved p.arena (p.arena.path x)).hasPresence s = true := by
      rw [Field.hasPresence, isMany, singular, proto2]
      simp
    rw [if_pos scalar, singular, isType, presence]
    exact .scalar fun unset => Bool.noConfusion unset
  | repeated many scalar =>
    rw [isMany] at many
    rw [isType] at scalar
    have packed : (f.resolved p.arena (p.arena.path x)).isPacked s = (e.packed && e.type.isPackable) := by
      rw [declared.packed many, Field.isPacked, isMany, many, isType, proto2]
      cases e.type.isPackable <;> simp [FieldDecl.resolved]
    rw [if_pos scalar, if_pos many, isType, packed]
    exact .repeated
  | message singular message target =>
    rw [isMany] at singular
    rw [isType] at message
    rw [message, singular, isType, declared.target message target]
    exact .message rfl
  | repeatedMessage many message target =>
    rw [isMany] at many
    rw [isType] at message
    rw [message, if_neg Bool.false_ne_true, if_pos many, isType, declared.target message target]
    exact .repeatedMessage rfl
  | @map id entry key value ref many type isEntry first second valueClass target isMap =>
    -- The messages of an extension are no entries of a map.
    obtain ⟨isNode, found⟩ := messageType_ok type
    have message : e.type.isScalar = false := by
      rw [← isType, (classify_ok isMap).2.1]
      rfl
    have same := shaped.map_mapEntry id
    rw [found, Option.map_some] at same
    obtain ⟨s', found', isEntry'⟩ := Option.map_eq_some_iff.1 same.symm
    have plain := declared.plain id (declared.target message isNode) s' found'
    rw [isEntry', isEntry] at plain
    cases plain

end kinds

lemma Plan.Declared.Alike.role {d d' : Declared} (alike : d.Alike d') : d.role.Alike d'.role := by
  cases alike with
  | field _ kind => exact .alone kind
  | member _ kind => exact .member kind

/-- **The two programs mirror each other.** -/
lemma mirror_of_build {files : List FileDecl} {options options' : Plan.Options} {p p' : Program} {x : TypeId}
    {e : Extension} {position : Nat} {f : FieldDecl} (built : Program.build files options = .ok p)
    (built' : Program.build (files.map (·.declaring (p.arena.path x) position f)) options' = .ok p')
    (declared : e.DeclaredBy p x f) (uniform' : p'.arena.Uniform) {table : ExtensionTable}
    {table' : Option ExtensionTable} (ready : p.Ready (some table)) (ready' : p'.Ready table') (valid : p.Valid)
    (valid' : p'.Valid) (known : table.find? x e.number = some e)
    (others : ∀ t number, ¬(t = x ∧ number = e.number) → table'.bind (·.find? t number) = table.find? t number) :
    Mirror p (some table) p' table' := by
  obtain ⟨s, message, proto2, plain, ranged⟩ := declared.message
  have gains := gains_of_build declared.alone (arena_of_build built) (arena_of_build built')
  have fewer := fewer_of_gains gains
  have shaped : p.arena.Shaped p'.arena := fewer.shaped.flip fun ⟨dialect, entry⟩ => ⟨dialect.symm, entry.symm⟩
  have names : (files.map (·.declaring (p.arena.path x) position f)).map (·.name) = files.map (·.name) := List.map_map
  have isPlain : ∀ s ∈ p.arena.message? x, s.proto3 = false ∧ s.mapEntry = false := by
    intro s' there
    cases message.symm.trans there
    exact ⟨proto2, plain⟩
  have unique : ∀ t, (p.plan? t).isSome = true → p.arena.path t = p.arena.path x → t = x := by
    intro t isClass
    obtain ⟨c, found⟩ := Option.isSome_iff_exists.1 isClass
    exact declared.unique (t, c) (mem_classes_of_plan? found)
  refine ⟨ready, ready', valid, valid', fun t => ?_, fun {t c c'} found found' => ?_,
    fun typed => typed.exists_spells built ready.regular Rules.encodable_ranged nofun,
    fun typed => typed.exists_spells built' ready'.regular Rules.encodable_ranged nofun⟩
  · rw [Bool.eq_iff_iff, Option.isSome_iff_exists, Option.isSome_iff_exists]
    constructor
    · rintro ⟨c', found'⟩
      exact exists_plan built' built names.symm fewer.shaped found'
    · rintro ⟨c, found⟩
      exact exists_plan built built' names shaped found
  · obtain ⟨_, found₁, left, pairs⟩ := Program.exists_pairs built built' ready'.regular uniform' declared.alone isPlain
      unique found
    cases found'.symm.trans found₁
    obtain ⟨isId, s₁, resolved, planned⟩ := ready.planned found
    obtain ⟨isId', s₂, resolved', planned'⟩ := ready'.planned found'
    refine ⟨fun number => ?_, fun d here e next d' there e' other named named' => ?_⟩
    · rcases pairs number with ⟨here, there, alike, named⟩ | ⟨new, kind, free, there, named⟩ |
        ⟨old, free, free', ranges⟩
      · rw [roleOf_declared planned resolved here named,
          roleOf_declared planned' resolved' there (alike.number_eq.symm.trans named)]
        exact alike.role.symm
      · -- The number is that of the extension.
        obtain ⟨rfl, isNumber⟩ := new
        have inside : c.ranges.contains number = true := by
          rw [planned.ranges, ← isNumber, declared.number]
          cases message.symm.trans (isId ▸ planned.found)
          exact ranged
        have isKnown : table.find? c.id number = some e := by
          rw [isId, ← isNumber, declared.number]
          exact known
        rw [roleOf_undeclared free, spotOf_undeclared planned resolved free, inside, Option.bind_some, isKnown,
          roleOf_declared planned' resolved' there named]
        exact .alone (declared.alike shaped kind)
      · -- The number is free in both classes, and the same extensions are known for it.
        have same := others t number fun equal => old ⟨equal.1, declared.number.trans equal.2.symm⟩
        rw [roleOf_undeclared free, roleOf_undeclared free', spotOf_undeclared planned resolved free,
          spotOf_undeclared planned' resolved' free', ranges, isId, isId', Option.bind_some, same]
        cases c.ranges.contains number with
        | false => exact .unknown
        | true =>
          cases isKnown : table.find? t number with
          | none => exact .unknown
          | some e' =>
            exact .alone (e'.alike_kind p p' fun message =>
              (ready.extensions table rfl e' (List.mem_of_find?_eq_some isKnown) message).imp fun _ => And.left)
    · have alike : ∀ {d d' : Declared}, d ∈ c.declared → d' ∈ c'.declared → d'.number = d.number → d'.Alike d := by
        intro d d' here there named
        obtain ⟨d₁, there₁, alike⟩ := left.kept d here
        obtain rfl := planned'.declared_ext resolved' there₁ there (alike.number_eq.symm.trans named.symm)
        exact alike
      exact left.slots d' there e' other d here e next (alike here there named) (alike next other named')

def treeFiles : List FileDecl := [{ name := "a.proto", messages := [{ name := "M", extensionRanges := [(10, 20)] }] }]

def treeProgram : Program := .ofFiles treeFiles

/-- An extension that is a message of the class which it extends. -/
def childExtension : Extension :=
  { number := 10, name := "child", extended := 0, type := .message, messageType := some 0 }

def childField : FieldDecl := { name := "child", number := 10, type := .message, typeName := ".M" }

def childFiles : List FileDecl := treeFiles.map (·.declaring (treeProgram.arena.path 0) 0 childField)

def childProgram : Program := .ofFiles childFiles

lemma declaredBy_child : childExtension.DeclaredBy treeProgram 0 childField := by
  obtain ⟨message, unique, resolves, plain⟩ :
      (∃ s ∈ treeProgram.arena.message? 0,
        s.proto3 = false ∧ s.mapEntry = false ∧ s.ranges.contains childExtension.number = true)
      ∧ (∀ known ∈ treeProgram.classes, treeProgram.arena.path known.1 = treeProgram.arena.path 0 → known.1 = 0)
      ∧ treeProgram.arena.resolve (treeProgram.arena.path 0) childField.typeName = childExtension.messageType
      ∧ (∀ t ∈ childExtension.messageType, ∀ s ∈ treeProgram.arena.message? t, s.mapEntry = false) := by
    decide +kernel
  exact ⟨message, unique, rfl, rfl, rfl, Bool.noConfusion, rfl, fun _ => resolves, plain⟩

/-- A message that is called like an argument of the functions which decode fields. -/
def decoderFiles : List FileDecl :=
  [{ name := "a.proto"
     messages := [{ name := "decoder" }, { name := "M", extensionRanges := [(10, 11)] }] }]

def decoderExtension : Extension :=
  { number := 10, name := "f", extended := 1, type := .message, messageType := some 0 }

def decoderField : FieldDecl := { name := "f", number := 10, type := .message, typeName := ".decoder" }

end Missive
