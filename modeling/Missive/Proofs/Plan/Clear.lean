import Missive.Message.Decode
import Missive.Proofs.Plan.Regular

/-!
# Clear names

Generated code refers to classes by names, and names can be hidden: a message may be called like a
variable of the code that refers to it, or a field like something that all messages have.  Nothing
keeps a schema from such names, and the code of its classes then fails where the name is used.

A program is clear if that does not happen: there can be messages of every class, their owners can be
counted, and from the decoders every reference leads to the class it was made for.  The condition can
be decided.
-/

namespace Missive

open Plan Schema

namespace Plan

/-! ## References -/

/-- From code with some variables, a reference leads to the class it was made for. -/
def ClassRef.Leads (p : Program) (names : List String) (ref : ClassRef) : Prop :=
  ref.outside = .type ref.target ∧ (∀ name ∈ ref.path.head?, name ∉ names) ∧ (p.plan? ref.target).isSome = true

instance (p : Program) (names : List String) (ref : ClassRef) :
    Decidable (ref.Leads p names) :=
  inferInstanceAs (Decidable (_ ∧ _ ∧ _))

lemma ClassRef.Leads.meaning {p : Program} {locals : Locals} {ref : ClassRef}
    (leads : ref.Leads p (locals.map (·.1))) : ref.meaning locals = .type ref.target := by
  obtain ⟨outside, free, -⟩ := leads
  unfold ClassRef.meaning
  split
  · exact outside
  · rename_i first rest path
    have hidden : first ∉ locals.map (·.1) := free first (by simp [path])
    have : locals.lookup first = none := by
      rw [List.lookup_eq_none_iff]
      intro pair inside
      have other : first ≠ pair.1 := fun same => hidden (same ▸ List.mem_map_of_mem inside)
      simpa using other
    rw [this]
    exact outside

def ClassPlan.decoderVariables (c : ClassPlan) : List String :=
  (c.decoderLocals .nothing .nothing).map (·.1)

def OneofPlan.decoderVariables (o : OneofPlan) : List String :=
  (o.decoderLocals .nothing).map (·.1)

lemma ClassPlan.map_decoderLocals (c : ClassPlan) (current value : Local) :
    (c.decoderLocals current value).map (·.1) = c.decoderVariables := by
  unfold decoderVariables decoderLocals
  split <;> split <;> rfl

lemma OneofPlan.map_decoderLocals (o : OneofPlan) (current : Local) :
    (o.decoderLocals current).map (·.1) = o.decoderVariables := by
  unfold decoderVariables decoderLocals
  split <;> rfl

/-! ## Classes -/

/-- The references of a field lead to their classes. -/
def FieldKind.Leads (p : Program) (names : List String) : FieldKind → Prop
  | scalar _ _ _ | repeated _ _ => True
  | message _ ref | repeatedMessage _ ref => ref.Leads p names
  | map _ _ ref => ∀ r ∈ ref, r.Leads p names

instance (p : Program) (names : List String) : (kind : FieldKind) → Decidable (kind.Leads p names)
  | .scalar _ _ _ | .repeated _ _ => inferInstanceAs (Decidable True)
  | .message _ ref | .repeatedMessage _ ref => inferInstanceAs (Decidable (ref.Leads p names))
  | .map _ _ ref => inferInstanceAs (Decidable (∀ r ∈ ref, r.Leads p names))

/-- The reference by which the decoder of a oneof refers to the class of a member leads there. -/
def MemberKind.Leads (p : Program) (names : List String) : MemberKind → Prop
  | scalar _ _ | entry _ => True
  | message _ _ ref => ref.Leads p names

instance (p : Program) (names : List String) : (kind : MemberKind) → Decidable (kind.Leads p names)
  | .scalar _ _ | .entry _ => inferInstanceAs (Decidable True)
  | .message _ _ ref => inferInstanceAs (Decidable (ref.Leads p names))

/-- The references that decoding a field uses lead to their classes. -/
def Declared.Leads (p : Program) (c : ClassPlan) : Declared → Prop
  | field _ f => f.kind.Leads p c.decoderVariables
  | member _ o m _ => m.kind.Leads p o.decoderVariables

instance (p : Program) (c : ClassPlan) : (d : Declared) → Decidable (d.Leads p c)
  | .field _ f => inferInstanceAs (Decidable (f.kind.Leads p c.decoderVariables))
  | .member _ o m _ => inferInstanceAs (Decidable (m.kind.Leads p o.decoderVariables))

/-- No name of a class stands in the way of making and decoding messages. -/
structure ClassPlan.Clear (p : Program) (c : ClassPlan) : Prop where
  born : c.birthFault? = none
  owners : c.ownersSlot? = none
  own : c.isExtensible = true → c.own.Leads p c.decoderVariables
  declared : ∀ d ∈ c.declared, d.Leads p c

instance (p : Program) (c : ClassPlan) : Decidable (c.Clear p) :=
  decidable_of_iff (c.birthFault? = none ∧ c.ownersSlot? = none
      ∧ (c.isExtensible = true → c.own.Leads p c.decoderVariables) ∧ ∀ d ∈ c.declared, d.Leads p c)
    ⟨fun ⟨born, owners, own, declared⟩ => ⟨born, owners, own, declared⟩,
      fun ⟨born, owners, own, declared⟩ => ⟨born, owners, own, declared⟩⟩

lemma ClassPlan.Clear.own_meaning {p : Program} {c : ClassPlan} (clear : c.Clear p) {number : Int}
    (ranged : c.ranges.contains number = true) {locals : Locals}
    (names : locals.map (·.1) = c.decoderVariables) : c.own.meaning locals = .type c.own.target := by
  have extensible : c.isExtensible = true := by
    simp only [ClassPlan.isExtensible, Ranges.isEmpty, Bool.not_eq_true', List.isEmpty_eq_false_iff]
    intro none
    simp [Ranges.contains, none] at ranged
  exact ClassRef.Leads.meaning (names ▸ clear.own extensible)

end Plan

variable {p : Program} {files : List FileDecl} {options : Plan.Options}

/-! ## Programs -/

/-- No name of a program stands in the way of making and decoding messages. -/
def Program.Clear (p : Program) : Prop := ∀ entry ∈ p.classes, entry.2.Clear p

instance (p : Program) : Decidable p.Clear :=
  inferInstanceAs (Decidable (∀ entry ∈ p.classes, entry.2.Clear p))

lemma Program.Clear.of_plan (clear : p.Clear) {t : TypeId} {c : ClassPlan} (found : p.plan? t = some c) :
    c.Clear p := by
  obtain ⟨front, back, whole, -⟩ := List.lookup_eq_some_iff.1 found
  exact clear (t, c) (by simp [whole])

/-- The messages and groups among some extensions are of classes of a program. -/
def ExtensionTable.Clear (p : Program) (table : ExtensionTable) : Prop :=
  ∀ e ∈ table, e.type.isScalar = false → ∃ t ∈ e.messageType, (p.plan? t).isSome = true

instance (p : Program) (table : ExtensionTable) : Decidable (table.Clear p) :=
  inferInstanceAs (Decidable (∀ e ∈ (table : List Extension), _ → _))

/-- What decoding relies on: a program that was built, of a regular schema with clear names, and clear
extensions. -/
structure Program.Ready (p : Program) (table : Option ExtensionTable) : Prop where
  planned : ∀ {t c}, p.plan? t = some c → c.id = t ∧ ∃ s, s.Resolved ∧ Planned p.arena s c
  members : p.members = []
  regular : p.arena.Regular
  clear : p.Clear
  extensions : ∀ known ∈ table, known.Clear p

lemma Program.members_of_build (built : build files options = .ok p) : p.members = [] := by
  obtain ⟨modules, -, -, same⟩ := build_ok built
  rw [same, ofModules]

lemma Program.ready_of_build {table : Option ExtensionTable} (built : build files options = .ok p)
    (regular : p.arena.Regular) (clear : p.Clear) (extensions : ∀ known ∈ table, known.Clear p) : p.Ready table where
  planned := planned_of_build built
  members := members_of_build built
  regular := regular
  clear := clear
  extensions := extensions

end Missive
