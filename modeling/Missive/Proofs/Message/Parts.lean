import Missive.Message.Program
import Missive.Proofs.Ends

/-!
# Parts of values

What a value consists of, at any depth, and values that all parts of are as a predicate says.

Values that are read from data are new: nothing tells which objects they were read from, and of the messages
that hold any other one none has a content yet (`Value.IsNew`).
-/

namespace Missive

open Plan

/-- What a value directly consists of. -/
def Value.parts : Value → List Value
  | .scalar _ => []
  | .list items => items
  | .tuple items => items
  | .map _ entries => entries.map (·.2)
  | .case _ v loose => v :: loose.map (·.2)
  | .message _ slots extensions loose => slots ++ extensions.map (·.2) ++ loose.map (·.2)
  | .loop => []

/-- A value stands at some depth in another one, or is it. -/
inductive Value.Within : Value → Value → Prop
  | self (v : Value) : Within v v
  | part {x y v : Value} (member : y ∈ v.parts) (within : x.Within y) : Within x v

/-- All that stands in a value is as a predicate says. -/
def Value.Every (P : Value → Prop) (v : Value) : Prop := ∀ x : Value, x.Within v → P x

section every

variable {P Q : Value → Prop} {v w : Value}

lemma Value.every_iff : v.Every P ↔ P v ∧ ∀ x ∈ v.parts, x.Every P := by
  constructor
  · intro every
    exact ⟨every v (.self v), fun y member x within => every x (.part member within)⟩
  · rintro ⟨here, below⟩ x within
    cases within with
    | self => exact here
    | part member within => exact below _ member x within

lemma Value.Every.here (every : v.Every P) : P v := every v (.self v)

lemma Value.Every.part (every : v.Every P) (member : w ∈ v.parts) : w.Every P :=
  (every_iff.1 every).2 w member

lemma Value.Every.imp (every : v.Every P) (weaker : ∀ x, P x → Q x) : v.Every Q :=
  fun x within => weaker x (every x within)

lemma Value.every_scalar {s : Scalar} : Value.Every P (.scalar s) ↔ P (.scalar s) := by
  rw [every_iff]
  simp [parts]

lemma Value.every_list {items : List Value} :
    Value.Every P (.list items) ↔ P (.list items) ∧ ∀ x ∈ items, x.Every P := every_iff

lemma Value.every_map {readOnly : Bool} {entries : List (Key × Value)} :
    Value.Every P (.map readOnly entries) ↔ P (.map readOnly entries) ∧ ∀ e ∈ entries, e.2.Every P := by
  rw [every_iff, parts, List.forall_mem_map]

lemma Value.every_case {tag : CaseTag} {x : Value} :
    Value.Every P (.case tag x []) ↔ P (.case tag x []) ∧ x.Every P := by
  rw [every_iff]
  simp [parts]

lemma Value.every_message {head : Head} {slots : List Value} {extensions : List (Extension × Value)} :
    Value.Every P (.message head slots extensions []) ↔ P (.message head slots extensions [])
      ∧ (∀ x ∈ slots, x.Every P) ∧ ∀ x ∈ extensions, x.2.Every P := by
  rw [every_iff]
  simp only [parts, List.map_nil, List.append_nil, List.mem_append, List.mem_map]
  constructor
  · rintro ⟨here, below⟩
    exact ⟨here, fun x member => below x (.inl member), fun x member => below x.2 (.inr ⟨x, member, rfl⟩)⟩
  · rintro ⟨here, slots, extensions⟩
    refine ⟨here, ?_⟩
    rintro x (member | ⟨y, member, rfl⟩)
    · exact slots x member
    · exact extensions y member

end every

/-- A value that was just read from data. -/
def Value.IsNew (p : Program) : Value → Prop
  | .message head slots _ _ =>
    head.origin = Option.none ∧ ∀ c ∈ p.plan? head.type, c.isAny = true → slots[2]? = some .none
  | .case tag _ _ => tag.origin = Option.none
  | _ => True

lemma Value.isNew_scalar {p : Program} (s : Scalar) : Value.Every (IsNew p) (.scalar s) := every_scalar.2 trivial

end Missive
