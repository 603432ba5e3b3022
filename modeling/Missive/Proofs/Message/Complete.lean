import Missive.Message.Complete
import Missive.Proofs.Message.Serialize
import Missive.Proofs.Plan.Checks

/-!
# What completeness means

The completeness check of a class looks only at what its plan lists: classes that cannot lack anything
are not asked, of a oneof only some members are, and many classes have nothing to check at all.

`Content.IsFull` is the check without any of that.  It follows every message inside a message
(`Content.Contains`) and asks of each one that its required fields are there.

**Completeness.**  For well-typed messages the two agree.  What is left out by a plan leads to free
messages only, and a message of a free class is full whatever it holds; so the induction over the levels
of a message carries both: the answer of the check, and fullness where the class is free
(`Program.Checkable`).
-/

namespace Missive

open Plan Schema List Program

variable {p : Program} {m : Content} {v : Value} {t : TypeId} {f : Field} {kind : FieldKind} {R : Rules}
  {o : Oneof} {content : Value → Prop}

/-! ## The check without a plan -/

/-- What a value in a field or an extension holds: the items of a list, the values of a map, what a case
holds, or else itself. -/
def Value.held : Value → List Value
  | .list items => items
  | .map _ entries => entries.map (·.2)
  | .case _ v _ => [v]
  | v => [v]

namespace Content

/-- A message holds another one directly: in a field, as the active member of a oneof, or in an
extension.  The content of a message that holds any other one is in no field. -/
inductive Contains (p : Program) : Content → Content → Prop
  | declared {m n : Content} {c : ClassPlan} {d : Declared} {v : Value}
      (found : p.plan? m.head.type = some c) (declared : d ∈ c.declared)
      (value : m.read p c d.slot = .ok v) (held : n.value ∈ v.held) : Contains p m n
  | extension {m n : Content} {e : Extension} {v : Value} (set : (e, v) ∈ m.extensions)
      (held : n.value ∈ v.held) : Contains p m n

/-- The required fields of a message of the older dialect that are in no oneof are there. -/
def HasRequired (p : Program) (m : Content) : Prop :=
  ∀ s ∈ p.arena.message? m.head.type, ∀ c ∈ p.plan? m.head.type, s.proto3 = false →
    ∀ f ∈ s.fields, s.oneofOf f = none → f.isRequired = true →
      ∃ slot plan v, Declared.field slot plan ∈ c.declared ∧ plan.number = f.number
        ∧ m.read p c slot = .ok v ∧ v.isPresent = true

/-- Nothing is missing in a message, nor in any message that can be reached from it. -/
def IsFull (p : Program) (m : Content) : Prop :=
  ∀ n, Relation.ReflTransGen (Contains p) m n → n.HasRequired p

lemma isFull_iff : m.IsFull p ↔ m.HasRequired p ∧ ∀ n, Contains p m n → n.IsFull p := by
  constructor
  · intro full
    exact ⟨full m .refl, fun n contains k reached => full k (.head contains reached)⟩
  · rintro ⟨own, inner⟩ k reached
    rcases Relation.ReflTransGen.cases_head reached with rfl | ⟨n, contains, rest⟩
    · exact own
    · exact inner n contains k rest

end Content

/-- All messages that a value holds are full. -/
def Value.Full (p : Program) (v : Value) : Prop := ∀ n : Content, n.value ∈ v.held → n.IsFull p

section full

@[simp] lemma full_value : m.value.Full p ↔ m.IsFull p := by
  constructor
  · intro full
    exact full m (mem_singleton.2 rfl)
  · intro full n held
    obtain rfl : n = m := Content.value_injective (mem_singleton.1 held)
    exact full

/-- What is no message, and holds none, is full. -/
lemma full_of_scalars (scalars : ∀ x ∈ v.held, ∃ s, x = .scalar s) : v.Full p := by
  intro n held
  obtain ⟨s, same⟩ := scalars _ held
  cases same

lemma full_scalar (s : Scalar) : (Value.scalar s).Full p :=
  full_of_scalars fun _ held => ⟨s, mem_singleton.1 held⟩

lemma full_iff (messages : ∀ x ∈ v.held, ∃ m : Content, x = m.value) :
    v.Full p ↔ ∀ x ∈ v.held, x.Full p := by
  constructor
  · intro full x held
    obtain ⟨m, rfl⟩ := messages x held
    exact full_value.2 (full m held)
  · exact fun full n held => full_value.1 (full _ held)

end full

/-! ## Answers -/

/-- A check ends with an answer, which is that to a question. -/
def Answers (x : Except Fault Bool) (P : Prop) : Prop := ∃ b, x = .ok b ∧ (b = true ↔ P)

section answers

variable {x : Except Fault Bool} {P Q : Prop}

lemma answers_ok (b : Bool) : Answers (.ok b) (b = true) := ⟨b, rfl, Iff.rfl⟩

lemma Answers.congr (h : Answers x P) (same : P ↔ Q) : Answers x Q := by
  obtain ⟨b, ends, answer⟩ := h
  exact ⟨b, ends, answer.trans same⟩

lemma answers_true (h : P) : Answers (.ok true) P := (answers_ok true).congr (iff_of_true rfl h)

/-- Conditions in a row ask for all of them. -/
lemma answers_allHold {α : Type} {l : List α} {f : α → Except Fault Bool} {P : α → Prop}
    (each : ∀ a ∈ l, Answers (f a) (P a)) : Answers (allHold (l.map f)) (∀ a ∈ l, P a) := by
  induction l with
  | nil => exact answers_true (by simp)
  | cons a rest ih =>
    obtain ⟨b, ends, answer⟩ := each a (.head _)
    have rest := ih fun a' inside => each a' (.tail _ inside)
    rw [map_cons, allHold, ends]
    cases b with
    | true => exact rest.congr (by simp [← answer])
    | false => exact (answers_ok false).congr (by simp [← answer])

lemma Answers.append {xs ys : List (Except Fault Bool)} (h : Answers (allHold xs) P)
    (h' : Answers (allHold ys) Q) : Answers (allHold (xs ++ ys)) (P ∧ Q) := by
  have split : ∀ xs, allHold (xs ++ ys) = do if ← allHold xs then allHold ys else return false := by
    intro xs
    induction xs with
    | nil => rfl
    | cons x rest ih =>
      rw [cons_append, allHold, allHold, ih]
      rcases x with _ | _ | _ <;> rfl
  obtain ⟨b, ends, answer⟩ := h
  rw [split, ends]
  cases b with
  | true => exact h'.congr (by simp [← answer])
  | false => exact (answers_ok false).congr (by simp [← answer])

/-- The checks that stand for some questions, where those that answer themselves are left out. -/
lemma answers_checks {α : Type} {R : α → Option Check → Prop} {l : List α} {os : List (Option Check)}
    {f : Check → Except Fault Bool} {P : α → Prop} (entries : Forall₂ R l os)
    (plain : ∀ a ∈ l, R a none → P a) (asked : ∀ a ∈ l, ∀ k, R a (some k) → Answers (f k) (P a)) :
    Answers (allHold ((os.filterMap id).map f)) (∀ a ∈ l, P a) := by
  induction entries with
  | nil => exact answers_true (by simp)
  | @cons a o l os first _ ih =>
    have rest := ih (fun a' inside => plain a' (.tail _ inside)) fun a' inside => asked a' (.tail _ inside)
    cases o with
    | none => exact rest.congr (by simp [plain a (.head _) first])
    | some k =>
      have here := answers_allHold (l := [a]) (f := fun _ => f k) (P := P) (by simpa using asked a (.head _) k first)
      exact (here.append rest).congr (by simp)

end answers

/-! ## Parts -/

/-- A value whose messages come with the answer whether they are complete. -/
def Program.checked (p : Program) (v : Value) : Checked := v.part p.summarizeComplete

section checked

@[simp] lemma source_checked (v : Value) : (p.checked v).source = v := by
  cases v <;> rfl

lemma isComplete_checked (v : Value) : (p.checked v).isComplete = p.isComplete v := rfl

lemma checked_list (items : List Value) :
    p.checked (.list items) = .list (.list items) (items.map p.checked) := by
  rw [Program.checked, Value.part, partList_eq_map]
  rfl

lemma checked_map (readOnly : Bool) (entries : List (Key × Value)) :
    p.checked (.map readOnly entries)
      = .map (.map readOnly entries) readOnly (entries.map fun e => (e.1, p.checked e.2)) := by
  rw [Program.checked, Value.part, partEntries_eq_map]
  rfl

end checked

/-- A message of a class that can be checked: the check answers whether it is full, and it is if its
class is free. -/
structure Program.Checkable (p : Program) (t : TypeId) (v : Value) : Prop where
  message : ∃ m : Content, v = m.value
  answers : Answers (p.isComplete v) (v.Full p)
  free : p.arena.Free t → v.Full p

/-- The messages inside a message can be checked. -/
structure Inside.Checkable (p : Program) (I : Inside) : Prop where
  nested : ∀ t v, I.nested t v → p.Checkable t v
  entry : ∀ t v, I.entry t v → p.Checkable t v

section values

lemma Program.Checkable.held (h : p.Checkable t v) : v.held = [v] := by
  obtain ⟨m, rfl⟩ := h.message
  rfl

lemma Program.Checkable.isPresent (h : p.Checkable t v) :
    v.isPresent = true := by
  obtain ⟨m, rfl⟩ := h.message
  rfl

lemma answers_list {items : List Value} (each : ∀ x ∈ items, p.Checkable t x) :
    Answers (allComplete (p.checked (.list items))) ((Value.list items).Full p) := by
  have eq : allComplete (p.checked (.list items)) = allHold (items.map p.isComplete) := by
    rw [checked_list]
    simp only [allComplete, Part.elements?, map_map]
    rfl
  rw [eq]
  refine (answers_allHold fun x inside => (each x inside).answers).congr ?_
  exact (full_iff (v := .list items) fun x inside => (each x inside).message).symm

lemma answers_values {readOnly : Bool} {entries : List (Key × Value)} (each : ∀ e ∈ entries, p.Checkable t e.2) :
    Answers (allHold (entries.map fun e => p.isComplete e.2)) ((Value.map readOnly entries).Full p) := by
  refine (answers_allHold fun e inside => (each e inside).answers).congr ?_
  have messages : ∀ x ∈ (Value.map readOnly entries).held, ∃ m : Content, x = m.value :=
    forall_mem_map.2 fun e inside => (each e inside).message
  rw [full_iff messages]
  exact forall_mem_map.symm

end values

/-! ## Fields -/

namespace Plan

/-- The class of the messages in a field. -/
def FieldKind.target? : FieldKind → Option TypeId
  | scalar _ _ _ | repeated _ _ => none
  | message _ ref | repeatedMessage _ ref => some ref.target
  | map _ _ ref => ref.map (·.target)

/-- The messages that a field can hold are free, if it leads to free messages only. -/
lemma KindOf.free {a : Arena} {m : Message} (h : KindOf a m f kind) (leads : LeadsFree a f)
    (target : kind.target? = some t) : a.Free t := by
  cases h with
  | scalar | repeated => exact absurd target (by simp [FieldKind.target?])
  | message _ _ type | repeatedMessage _ _ type =>
    cases target
    exact leads _ type
  | @map id entry _ value ref _ type _ _ second _ valueType =>
    obtain ⟨r, isRef, rfl⟩ := Option.map_eq_some_iff.1 target
    obtain ⟨entryType, found⟩ := messageType_ok type
    exact (leads id entryType).next found (mem_of_getElem? second) (valueType r isRef)

end Plan

section fields

variable {I : Inside} (checkable : I.Checkable p)

include checkable

/-- The messages that a field holds can be checked as those of its class. -/
lemma checkable_of_field (fits : kind.Fits R I v) {n : Content} (held : n.value ∈ v.held) :
    ∃ t, kind.target? = some t ∧ p.Checkable t n.value := by
  cases kind with
  | scalar =>
    rcases fits with ⟨-, rfl⟩ | ⟨s, rfl, -⟩ <;> cases mem_singleton.1 held
  | repeated =>
    obtain ⟨items, rfl, all, -⟩ := fits
    obtain ⟨s, same, -⟩ := all _ held
    cases same
  | message =>
    rcases fits with rfl | fits
    · cases mem_singleton.1 held
    · have able := checkable.nested _ _ fits.1
      rw [able.held] at held
      exact ⟨_, rfl, mem_singleton.1 held ▸ able⟩
  | repeatedMessage =>
    obtain ⟨items, rfl, all⟩ := fits
    exact ⟨_, rfl, checkable.nested _ _ (all _ held).1⟩
  | map key value ref =>
    obtain ⟨entries, rfl, -, -, all⟩ := fits
    obtain ⟨e, inside, same⟩ := mem_map.1 held
    obtain ⟨-, valueFits, -⟩ := all e inside
    cases ref with
    | none =>
      obtain ⟨s, scalar, -⟩ := valueFits
      cases scalar.symm.trans same
    | some => exact ⟨_, rfl, same ▸ checkable.entry _ _ valueFits.1⟩

lemma full_of_free (fits : kind.Fits R I v) (free : ∀ t, kind.target? = some t → p.arena.Free t) :
    v.Full p := by
  intro n held
  obtain ⟨t, target, able⟩ := checkable_of_field checkable fits held
  exact full_value.1 (able.free (free t target))

end fields

/-! ## Slots -/

section slots

variable {I : Inside} {c : ClassPlan} {s : Message} (fits : m.Fits R I t c) (checkable : I.Checkable p)
  (planned : Planned p.arena s c) (resolved : s.Resolved) (plain : c.isAny = false) (found : p.plan? t = some c)

include plain in
lemma read_plain (i : Nat) : m.read p c i = .ok (m.slot i) := by
  rw [Content.read, place_plain plain]

include fits plain in
lemma Content.Fits.checkedAt_eq {i : Nat} {plan : SlotPlan} (found : c.slots[i]? = some plan) :
    checkedAt p c (m.slots.map p.checked) i = .ok (p.checked (m.slot i)) := by
  have inside : i < m.slots.length := by
    rw [fits.length plain]
    exact (List.getElem?_eq_some_iff.1 found).1
  simp [checkedAt, place_plain plain, Content.slot, getElem?_eq_getElem inside]

/-- What stands in the slot of a field that is in no oneof. -/
def Content.fieldValue (m : Content) (s : Message) (f : Field) : Value :=
  m.slot (slotIndex s (.field f.number))

/-- What stands in the slot of a oneof. -/
def Content.oneofValue (m : Content) (s : Message) (o : Oneof) : Value :=
  m.slot (slotIndex s (.oneof o.index))

include fits planned resolved plain in
lemma Content.Fits.exists_kind (inside : f ∈ plainFields s) :
    ∃ kind, KindOf p.arena s f kind ∧ kind.Fits R I (m.fieldValue s f)
      ∧ checkedAt p c (m.slots.map p.checked) (slotIndex s (.field f.number)) = .ok (p.checked (m.fieldValue s f)) := by
  obtain ⟨declared, outside⟩ := mem_plainFields.1 inside
  obtain ⟨plan, there, -, kind⟩ := planned.exists_field_kind declared outside
  have slot := planned.slot_of_declared resolved there
  exact ⟨plan.kind, kind, fits.slots plain _ _ slot, fits.checkedAt_eq plain slot⟩

/-- A field that is classified as a map has the kind of one. -/
lemma Plan.KindOf.eq_map {value : Field} (kindOf : KindOf p.arena s f kind) (isMap : p.arena.classify f = .ok .map)
    (second : p.arena.valueField f = .ok value) : ∃ key ref, kind = .map key value.type ref := by
  cases kindOf with
  | scalar _ scalar | repeated _ scalar => simp [(classify_ok isMap).2.1, FieldType.isScalar] at scalar
  | message single => exact absurd (classify_ok isMap).1 (by simp [single])
  | repeatedMessage _ _ _ other => exact absurd isMap other
  | map _ isType _ _ second' =>
    rw [Option.some.inj (second'.symm.trans (entryField_ok second isType))]
    exact ⟨_, _, rfl⟩

include checkable in
/-- What stands in a field that no check looks at is full. -/
lemma full_of_unasked (regular : p.arena.Regular) (kindOf : KindOf p.arena s f kind) (fits : kind.Fits R I v)
    (unasked : NestedFor p.arena s f none) :
    v.Full p := by
  refine full_of_free checkable fits fun t target => ?_
  cases unasked with
  | free leads => exact kindOf.free leads target
  | scalar type =>
    cases kindOf with
    | scalar | repeated => exact absurd target (by simp [FieldKind.target?])
    | message _ nested | repeatedMessage _ nested => simp [Field.isMessage, nested] at type
    | map _ _ _ _ _ _ _ isMap => simp [Field.isMessage, (classify_ok isMap).2.1, FieldType.isScalar] at type
  | @scalars value isMap second type =>
    have coded := kindOf.isCoded regular
    obtain ⟨key, ref, rfl⟩ := kindOf.eq_map isMap second
    cases ref with
    | none => exact absurd target (by simp [FieldKind.target?])
    | some => simp [Field.isMessage, coded.2, FieldType.isScalar] at type

include fits checkable planned resolved plain in
/-- The check for a field answers whether what stands in it is full. -/
lemma Content.Fits.answers_field (regular : p.arena.Regular) (inside : f ∈ plainFields s) {k : Check}
    (asked : NestedFor p.arena s f (some k)) :
    Answers (k.holds p c true (m.slots.map p.checked)) ((m.fieldValue s f).Full p) := by
  obtain ⟨kind, kindOf, valueFits, there⟩ := fits.exists_kind planned resolved plain inside
  have coded := kindOf.isCoded regular
  cases asked with
  | eachValue isMap second type =>
    obtain ⟨key, ref, rfl⟩ := kindOf.eq_map isMap second
    cases ref with
    | none => simp [Field.isMessage, coded.2] at type
    | some =>
      obtain ⟨entries, whole, -, -, all⟩ := valueFits
      have eq : (Check.eachValue (slotIndex s (.field f.number))).holds p c true
          (m.slots.map p.checked) = allHold (entries.map fun e => p.isComplete e.2) := by
        simp only [Check.holds, there, whole, checked_map, bind, Except.bind, if_true, map_map]
        rfl
      rw [eq, whole]
      exact answers_values fun e member => checkable.entry _ _ (all e member).2.1.1
  | each type other many =>
    cases kindOf with
    | scalar single | message single => simp [single] at many
    | repeated _ scalar => simp [Field.isMessage, scalar] at type
    | map _ _ _ _ _ _ _ isMap => exact absurd isMap other
    | repeatedMessage =>
      obtain ⟨items, whole, all⟩ := valueFits
      simp only [Check.holds, there, whole, bind, Except.bind, if_true]
      exact answers_list fun x member => checkable.nested _ _ (all x member).1
  | nested type single =>
    cases kindOf with
    | scalar _ scalar => simp [Field.isMessage, scalar] at type
    | repeated many | repeatedMessage many | map many => simp [single] at many
    | message =>
      simp only [Check.holds, there, bind, Except.bind, source_checked]
      rcases valueFits with unset | valueFits
      · rw [unset]
        exact answers_true (full_scalar _)
      · have able := checkable.nested _ _ valueFits.1
        rw [if_pos able.isPresent]
        exact able.answers

lemma full_case {tag : CaseTag} {x : Value} {loose : List (String × Value)} (able : p.Checkable t x) :
    (Value.case tag x loose).Full p ↔ x.Full p :=
  (full_iff (by simpa [Value.held] using able.message)).trans (by simp [Value.held])

include fits planned resolved plain in
/-- What the slot of a oneof holds: nothing, or the value of one of its members. -/
lemma Content.Fits.exists_case (isOneof : o ∈ s.oneofs) :
    checkedAt p c (m.slots.map p.checked) (slotIndex s (.oneof o.index)) = .ok (p.checked (m.oneofValue s o))
      ∧ (m.oneofValue s o = .none ∨ ∃ f ∈ o.members, ∃ tag x kind, m.oneofValue s o = .case tag x []
        ∧ tag.number = .int f.number ∧ MemberKindOf p.arena f kind ∧ kind.Fits R I x) := by
  obtain ⟨plan, oneof, slot, -⟩ := planned.exists_oneof resolved isOneof
  refine ⟨fits.checkedAt_eq plain slot, ?_⟩
  have slotFits := fits.slots plain _ _ slot
  rcases slotFits with unset | ⟨number, member, origin, x, value, found, memberFits⟩
  · exact .inl unset
  · obtain ⟨inside, same⟩ := member?_eq_some found
    obtain ⟨f, isMember, fieldNumber, kind⟩ := oneof.exists_field inside
    exact .inr ⟨f, isMember, _, x, member.kind, value, by rw [← fieldNumber, same], kind, memberFits⟩

include checkable in
/-- What a oneof holds is full if the member it holds leads to free messages only. -/
lemma full_member {kind : MemberKind} (kindOf : MemberKindOf p.arena f kind) {x : Value}
    (fits : kind.Fits R I x) (free : f.isMessage = true → LeadsFree p.arena f) {tag : CaseTag} :
    (Value.case tag x []).Full p := by
  cases kindOf with
  | scalar =>
    obtain ⟨v, rfl, -⟩ := fits
    exact full_of_scalars fun y held => ⟨v, mem_singleton.1 held⟩
  | message type _ target =>
    have able := checkable.nested _ _ fits.1
    exact (full_case able).2 (able.free (free (by simp [Field.isMessage, type]) _ target))
  | entry => exact fits.elim

section

variable (isOneof : o ∈ s.oneofs)

include fits checkable planned resolved plain isOneof

lemma Content.Fits.full_oneof (free : ∀ f ∈ o.members, f.isMessage = true → LeadsFree p.arena f) :
    (m.oneofValue s o).Full p := by
  obtain ⟨-, unset | ⟨f, isMember, tag, x, kind, value, -, kindOf, memberFits⟩⟩ :=
    fits.exists_case planned resolved plain isOneof
  · rw [unset]
    exact full_scalar _
  · rw [value]
    exact full_member checkable kindOf memberFits (free f isMember)

/-- The check for a oneof answers whether what it holds is full. -/
lemma Content.Fits.answers_oneof {k : Check} (asked : ActiveFor p.arena s o (some k)) :
    Answers (k.holds p c true (m.slots.map p.checked)) ((m.oneofValue s o).Full p) := by
  obtain ⟨there, holds⟩ := fits.exists_case planned resolved plain isOneof
  cases asked with
  | @active numbers asked others =>
    simp only [Check.holds, there, bind, Except.bind]
    rcases holds with unset | ⟨f, isMember, tag, x, kind, value, number, kindOf, memberFits⟩
    · rw [unset]
      exact answers_true (full_scalar _)
    · rw [value]
      have any : (numbers.any fun n => tag.number.equal (.int n)) = decide (f.number ∈ numbers) := by
        rw [number, Bool.eq_iff_iff]
        simp [Scalar.equal, Scalar.int?]
      show Answers (if numbers.any (fun n => tag.number.equal (.int n)) then p.isComplete x
        else .ok true) _
      rw [any]
      by_cases listed : f.number ∈ numbers
      · -- A listed member is a message, so there is an answer for it.
        obtain ⟨g, isMember', same, type⟩ := asked f.number listed
        obtain rfl : g = f := by
          have declared := ((mem_members_iff isOneof).1 isMember').1
          have declared' := ((mem_members_iff isOneof).1 isMember).1
          exact inj_on_of_nodup_map resolved.distinct declared declared' same
        rw [if_pos (by simpa using listed)]
        cases kindOf with
        | scalar scalar => simp [Field.isMessage, scalar] at type
        | message =>
          have able := checkable.nested _ _ memberFits.1
          exact able.answers.congr (full_case able).symm
        | entry => exact memberFits.elim
      · rw [if_neg (by simpa using listed)]
        exact answers_true (full_member checkable kindOf memberFits fun type =>
          (others f isMember type).resolve_left listed)

end

/-! ## Messages -/

include checkable in
/-- The check for an extension answers whether what it is set to is full. -/
lemma answers_extension {e : Extension} (fits : e.Fits R I v) (named : e.type.isScalar = true → e.messageType = none) :
    Answers (extensionComplete e (p.checked v)) (v.Full p) := by
  unfold Extension.Fits at fits
  unfold extensionComplete
  by_cases scalar : e.type.isScalar = true
  · rw [if_pos scalar] at fits
    simp only [named scalar, Option.isNone_none, if_true]
    refine answers_true (full_of_scalars ?_)
    split at fits
    · obtain ⟨items, rfl, all, -⟩ := fits
      exact fun x member => (all x member).imp fun _ holds => holds.1
    · obtain ⟨s, rfl, -⟩ := fits
      exact fun x member => ⟨s, mem_singleton.1 member⟩
  · rw [if_neg scalar] at fits
    obtain ⟨t, target, fits⟩ := fits
    simp only [target, Option.isNone_some, Bool.false_eq_true, if_false]
    split at fits
    · rename_i many
      rw [if_pos many]
      obtain ⟨items, rfl, all⟩ := fits
      exact answers_list fun x member => checkable.nested _ _ (all x member).1
    · rename_i single
      rw [if_neg single]
      exact (checkable.nested _ _ fits.1).answers

section

include fits

include found in
/-- The check of a well-typed message: its extensions, then what its plan lists. -/
lemma Content.Fits.isComplete_eq :
    p.isComplete m.value = allHold ((if c.isExtensible then
          m.extensions.map fun x => extensionComplete x.1 (p.checked x.2) else [])
        ++ c.checks.map fun k => k.holds p c true (m.slots.map p.checked)) := by
  rw [Content.value, fits.plain]
  show p.summarizeComplete m.head (partList _ _) (partExtensions _ _) (partLoose _ []) = _
  rw [partList_eq_map, partExtensions_eq_map]
  simp only [Program.summarizeComplete, partLoose, List.lookup, Option.isSome_none, Bool.false_eq_true,
    if_false, fits.type, found, Extended.ofLoose, fits.whole, extendedComplete, map_map]
  rfl

lemma Content.Fits.extensions_eq_nil (closed : c.isExtensible = false) :
    m.extensions = [] := by
  rw [eq_nil_iff_forall_not_mem]
  intro x set
  obtain ⟨-, range, -⟩ := fits.extensions x set
  simp only [ClassPlan.isExtensible, Ranges.isEmpty, Bool.not_eq_false', List.isEmpty_iff] at closed
  simp [Ranges.contains, closed] at range

include planned plain found in
/-- The required fields of a message are in its slots. -/
lemma Content.Fits.hasRequired_iff (same : c.id = t) :
    m.HasRequired p ↔ ∀ f ∈ requiredFields s, (m.fieldValue s f).isPresent = true := by
  constructor
  · intro all f member
    obtain ⟨older, declared, outside, required⟩ := mem_requiredFields.1 member
    obtain ⟨slot, plan, v, there, number, read, present⟩ :=
      all s (by rw [fits.type, ← same]; exact planned.found) c (by rw [fits.type]; exact found) older f
        declared outside required
    obtain ⟨g, -, -, rfl, number', -⟩ := planned.exists_plain there
    rw [read_plain plain, ← number', number] at read
    rw [fieldValue, Except.ok.inj read]
    exact present
  · intro all s' foundSchema c' foundPlan older f declared outside required
    rw [fits.type] at foundSchema foundPlan
    cases found.symm.trans foundPlan
    cases planned.found.symm.trans (same ▸ foundSchema)
    obtain ⟨plan, there, number⟩ := planned.exists_field declared outside
    exact ⟨_, plan, _, there, number, read_plain plain _,
      all f (mem_requiredFields.2 ⟨older, declared, outside, required⟩)⟩

include planned resolved plain found in
/-- The messages inside a message are in its slots and its extensions. -/
lemma Content.Fits.forall_contains_iff :
    (∀ n, Contains p m n → n.IsFull p)
      ↔ (∀ x ∈ m.extensions, x.2.Full p) ∧ (∀ f ∈ plainFields s, (m.fieldValue s f).Full p)
        ∧ ∀ o ∈ s.oneofs, (m.oneofValue s o).Full p := by
  have foundHere : p.plan? m.head.type = some c := by rw [fits.type, found]
  constructor
  · intro all
    refine ⟨fun x set n held => all n (.extension set held), fun f member n held => ?_, fun o isOneof n held => ?_⟩
    · obtain ⟨declared, outside⟩ := mem_plainFields.1 member
      obtain ⟨plan, there, -⟩ := planned.exists_field declared outside
      exact all n (.declared foundHere there (read_plain plain _) held)
    · obtain ⟨plan, -, -, members⟩ := planned.exists_oneof resolved isOneof
      obtain ⟨g, inside⟩ := exists_mem_of_ne_nil _ (resolved.inhabited o (mem_oneofs isOneof).1)
      obtain ⟨member, first, there, -⟩ := members g inside
      exact all n (.declared foundHere there (read_plain plain _) held)
  · rintro ⟨extensions, fields, oneofs⟩ n contains
    cases contains with
    | @declared c' d v foundPlan there value held =>
      cases foundHere.symm.trans foundPlan
      obtain rfl := Except.ok.inj ((read_plain plain _).symm.trans value)
      cases d with
      | field =>
        obtain ⟨g, declared, outside, rfl, -⟩ := planned.exists_plain there
        exact fields g (mem_plainFields.2 ⟨declared, outside⟩) n held
      | member =>
        obtain ⟨o, isOneof, rfl, -⟩ := planned.oneof_of_member there
        exact oneofs o isOneof n held
    | extension set held => exact extensions _ set n held

end

section

variable (same : c.id = t)

include fits checkable planned resolved plain found same

/-- **One message**, of a class with slots of its own: its check answers whether it is full, if the
checks of the messages inside it do. -/
lemma Content.Fits.answers (regular : p.arena.Regular) (checks : ChecksFor p.arena s c.checks)
    (named : ∀ e v, R.extension t e v → e.type.isScalar = true → e.messageType = none) :
    Answers (p.isComplete m.value) (m.IsFull p) := by
  have own : Answers (allHold (if c.isExtensible then
      m.extensions.map fun x => extensionComplete x.1 (p.checked x.2) else []))
      (∀ x ∈ m.extensions, x.2.Full p) := by
    split
    · refine answers_allHold fun x set => ?_
      obtain ⟨-, -, rule, extensionFits⟩ := fits.extensions x set
      exact answers_extension checkable extensionFits (named _ _ rule)
    · rename_i closed
      exact answers_true (by simp [fits.extensions_eq_nil (by simpa using closed)])
  obtain ⟨nested, active, nestedFor, activeFor, list⟩ := checks
  have required : Answers (allHold ((requiredFields s).map fun f =>
      (Check.set (slotIndex s (.field f.number))).holds p c true (m.slots.map p.checked)))
      (∀ f ∈ requiredFields s, (m.fieldValue s f).isPresent = true) := by
    refine answers_allHold fun f member => ?_
    obtain ⟨-, declared, outside, -⟩ := mem_requiredFields.1 member
    obtain ⟨-, -, -, there⟩ :=
      fits.exists_kind planned resolved plain (mem_plainFields.2 ⟨declared, outside⟩)
    simp only [Check.holds, there, bind, Except.bind, source_checked]
    exact answers_ok _
  have fields := answers_checks (f := fun k => k.holds p c true (m.slots.map p.checked))
    (P := fun f => (m.fieldValue s f).Full p) nestedFor
    (fun f member unasked => by
      obtain ⟨kind, kindOf, valueFits, -⟩ := fits.exists_kind planned resolved plain member
      exact full_of_unasked checkable regular kindOf valueFits unasked)
    (fun f member k asked => fits.answers_field checkable planned resolved plain regular member asked)
  have oneofs := answers_checks (f := fun k => k.holds p c true (m.slots.map p.checked))
    (P := fun o => (m.oneofValue s o).Full p) activeFor
    (fun o isOneof unasked => by
      cases unasked with
      | free free => exact fits.full_oneof checkable planned resolved plain isOneof free)
    (fun o isOneof k asked => fits.answers_oneof checkable planned resolved plain isOneof asked)
  rw [fits.isComplete_eq found, list, map_append, map_append, map_map, Content.isFull_iff,
    fits.hasRequired_iff planned plain found same,
    fits.forall_contains_iff planned resolved plain found]
  exact (own.append ((required.append fields).append oneofs)).congr (by tauto)

/-- A message of a free class is full. -/
lemma Content.Fits.isFull_of_free (free : p.arena.Free t) : m.IsFull p := by
  subst same
  have leads : ∀ f ∈ s.fields, LeadsFree p.arena f := fun f declared next target =>
    free.next planned.found declared target
  have closed : c.isExtensible = false := by
    rw [ClassPlan.isExtensible, planned.ranges]
    exact free.isExtensible planned.found
  rw [Content.isFull_iff, fits.hasRequired_iff planned plain found rfl,
    fits.forall_contains_iff planned resolved plain found]
  refine ⟨fun f member => ?_, by simp [fits.extensions_eq_nil closed], fun f member => ?_, fun o isOneof => ?_⟩
  · obtain ⟨-, declared, -, required⟩ := mem_requiredFields.1 member
    simp [free.isRequired planned.found declared] at required
  · obtain ⟨kind, kindOf, valueFits, -⟩ := fits.exists_kind planned resolved plain member
    exact full_of_free checkable valueFits fun t target =>
      kindOf.free (leads f (mem_plainFields.1 member).1) target
  · exact fits.full_oneof checkable planned resolved plain isOneof fun f isMember _ =>
      leads f ((mem_members_iff isOneof).1 isMember).1

end

/-! ## The message that holds any other one -/

/-- There is nothing to check in the message that holds any other one. -/
lemma checks_any (planned : Planned p.arena s c) (regular : p.arena.Regular) (isAny : c.isAny = true)
    (checks : ChecksFor p.arena s c.checks) : s.proto3 = true ∧ c.checks = [] := by
  rw [planned.isAny] at isAny
  obtain ⟨fields, -, oneofNames, -⟩ := regular.any planned.found isAny
  have proto3 : s.proto3 = true := Forest.proto3_of_isAny planned.found isAny
  have scalar : ∀ f ∈ s.fields, f.isMessage = false := by
    intro f declared
    have listed : (f.name, f.number, f.type) ∈ s.fields.map (fun f => (f.name, f.number, f.type)) :=
      mem_map_of_mem declared
    rw [fields] at listed
    simp only [mem_cons, Prod.mk.injEq, not_mem_nil, or_false] at listed
    rcases listed with ⟨-, -, type⟩ | ⟨-, -, type⟩ <;> simp [Field.isMessage, type, FieldType.isScalar]
  obtain ⟨nested, active, nestedFor, activeFor, list⟩ := checks
  have none : nested.filterMap id = [] := by
    refine filterMap_eq_nil_iff.2 fun o inside => ?_
    obtain ⟨f, member, nestedIs⟩ := exists_left_of_mem nestedFor inside
    have type := scalar f (mem_plainFields.1 member).1
    cases nestedIs with
    | scalar | free | scalars => rfl
    | each isMessage | nested isMessage => simp [type] at isMessage
    | eachValue isMap => simp [Field.isMessage, (classify_ok isMap).2.1, FieldType.isScalar] at type
  have noOneofs : s.oneofs = [] := by simp [Message.oneofs, Message.allOneofs, oneofNames]
  rw [noOneofs, forall₂_nil_left_iff] at activeFor
  refine ⟨proto3, ?_⟩
  rw [list, activeFor, none]
  simp [requiredFields, proto3]

/-- The message that holds any other one is full: its content is not looked at. -/
lemma Content.Fits.isFull_any (fits : m.Fits R I t c) (found : p.plan? t = some c)
    (planned : Planned p.arena s c) (same : c.id = t) (regular : p.arena.Regular)
    (isAny : c.isAny = true) (proto3 : s.proto3 = true) : m.IsFull p := by
  obtain ⟨url, value, declared, ranges, -⟩ := planned.any_declared regular isAny
  obtain ⟨first, second, -⟩ := planned.place_any regular isAny
  rw [Content.isFull_iff]
  constructor
  · intro s' foundSchema c' _ older
    rw [fits.type, ← same, planned.found] at foundSchema
    cases foundSchema
    simp [proto3] at older
  · intro n contains
    cases contains with
    | extension set =>
      obtain ⟨-, range, -⟩ := fits.extensions _ set
      simp [Ranges.contains, ranges] at range
    | @declared c' d v foundPlan there read held =>
      rw [fits.type, found] at foundPlan
      cases foundPlan
      -- Neither the type nor the bytes are a message.
      have scalar : ∃ x, v = .scalar x := by
        obtain ⟨text, data, content, slots, -, rest⟩ := fits.any isAny
        rw [declared] at there
        simp only [mem_cons, not_mem_nil, or_false] at there
        rcases there with rfl | rfl
        · simp only [Declared.slot, Content.read, first, Content.slot, slots] at read
          exact ⟨_, (Except.ok.inj read).symm⟩
        · simp only [Declared.slot, Content.read, second, slots, map_cons, map_nil, Any.valueBytes] at read
          split at read
          · rename_i present
            rcases rest with ⟨b, rfl, -⟩ | ⟨rfl, -⟩
            · exact ⟨_, (Except.ok.inj read).symm⟩
            · exact absurd present Bool.false_ne_true
          · obtain ⟨bytes, -, made⟩ := bind_ok read
            exact ⟨_, (Except.ok.inj made).symm⟩
      obtain ⟨x, rfl⟩ := scalar
      exact full_scalar x n held

end slots

/-! ## Well-typed messages -/

/-- What checking asks for: an extension of a scalar type names no class. -/
def Rules.checkable : Rules where
  scalar := FieldType.Takes
  extension := fun _ e _ => e.type.isScalar = true → e.messageType = none

section typed

variable {files : List FileDecl} {options : Plan.Options}

/-- Well-typed messages can be checked, whatever the messages are that they hold as any other one. -/
lemma Typed.checkable (built : Program.build files options = .ok p) (regular : p.arena.Regular)
    (named : ∀ t e v, R.extension t e v → e.type.isScalar = true → e.messageType = none) {n : Nat}
    (typed : Typed p R content n t v) :
    p.Checkable t v := by
  induction n using Nat.strong_induction_on generalizing t v with
  | _ n ih =>
    rw [typed_eq] at typed
    obtain ⟨c, m, found, rfl, fits⟩ := typed
    obtain ⟨same, s, resolved, planned⟩ := planned_of_build built found
    have checks : ChecksFor p.arena s c.checks := checked_of_build built found s planned.found
    have inner : (inside p R content n).Checkable p := by
      constructor <;>
      · rintro t v ⟨k, rfl, below⟩
        exact ih k (by omega) below
    cases isAny : c.isAny with
    | false =>
      refine ⟨⟨m, rfl⟩, ?_, fun free => ?_⟩
      · exact (fits.answers inner planned resolved isAny found same regular checks (named t)).congr full_value.symm
      · exact full_value.2 (fits.isFull_of_free inner planned resolved isAny found same free)
    | true =>
      obtain ⟨proto3, none⟩ := checks_any planned regular isAny checks
      have full := full_value.2 (fits.isFull_any found planned same regular isAny proto3)
      refine ⟨⟨m, rfl⟩, ?_, fun _ => full⟩
      have closed : c.isExtensible = false := by
        obtain ⟨-, -, -, ranges, -⟩ := planned.any_declared regular isAny
        simp [ClassPlan.isExtensible, Ranges.isEmpty, ranges]
      rw [fits.isComplete_eq found, none, closed]
      exact answers_true full

/-- **Completeness.**  The check of a well-typed message ends, and its answer is whether every required
field is there in it and in every message that can be reached from it. -/
theorem isComplete_iff_isFull (built : Program.build files options = .ok p) (regular : p.arena.Regular)
    {content : Value → Prop} {levels : Nat} {t : TypeId} {m : Content}
    (typed : Typed p .checkable content levels t m.value) :
    ∃ complete, p.isComplete m.value = .ok complete ∧ (complete = true
        ↔ ∀ n, Relation.ReflTransGen (Content.Contains p) m n → n.HasRequired p) :=
  (typed.checkable built regular fun _ _ _ rule => rule).answers.congr full_value

end typed

/-! ## Samples -/

/-- A list of messages, each with a required field. -/
def crewFiles : List FileDecl :=
  [{ name := "a.proto"
     messages :=
      [{ name := "Crew"
         fields := [{ name := "members", number := 1, label := .repeated, type := .message
                      typeName := ".Person" }] },
       { name := "Person"
         fields := [{ name := "id", number := 1, label := .required, type := .int32 }] }] }]

def crewProgram : Program := .ofFiles crewFiles

lemma evaluated_crew :
    (Program.build crewFiles {}).isOk = true
      ∧ (crewProgram.plan? 1).map (fun c => (c.isAny, c.slots))
        = some (false, [.field ⟨"id", "_id", 1, .scalar .int32 true (.int 0)⟩])
      ∧ (crewProgram.plan? 0).map (fun c => (c.isAny, c.slots)) = some (false, [.field ⟨"members", "_members", 1,
          .repeatedMessage false ⟨1, "Person", ["Person"], .type 1, .type 0⟩⟩]) := by
  decide +kernel

lemma build_crew : Program.build crewFiles {} = .ok crewProgram := build_ofFiles evaluated_crew.1

/-- A person, who may lack a number. -/
def crewPerson (id : Value) : Content where
  head := { type := 1 }
  slots := [id]
  extensions := []

def crewMessage (ids : List Value) : Content where
  head := { type := 0 }
  slots := [.list (ids.map fun id => (crewPerson id).value)]
  extensions := []

lemma typed_crewPerson {id : Value} (fits : id = .none ∨ Rules.checkable.Holds .int32 id) :
    Typed crewProgram .checkable content 0 1 (crewPerson id).value :=
  typed_headed rfl rfl trivial evaluated_crew.2.1 (fits.imp_left fun unset => ⟨rfl, unset⟩)

lemma typed_crew {ids : List Value} (fits : ∀ id ∈ ids, id = .none ∨ Rules.checkable.Holds .int32 id) :
    Typed crewProgram .checkable content 1 0 (crewMessage ids).value := by
  refine typed_headed rfl rfl trivial evaluated_crew.2.2 ⟨_, rfl, fun x member => ?_⟩
  obtain ⟨id, inside, rfl⟩ := mem_map.1 member
  exact ⟨⟨0, rfl, typed_crewPerson (fits id inside)⟩, fun _ => trivial⟩

/-- A crew of which one has a number and one has none is not complete. -/
theorem isComplete_iff_isFull_crew :
    crewProgram.isComplete (crewMessage [.int 7, .none]).value = .ok false
      ∧ ¬ ∀ n, Relation.ReflTransGen (Content.Contains crewProgram) (crewMessage [.int 7, .none]) n →
        n.HasRequired crewProgram := by
  have holds : FieldType.int32.Holds (.int 7) := ⟨_, _, rfl, by decide, by decide⟩
  have typed : Typed crewProgram .checkable (fun _ => False) 1 0 (crewMessage [.int 7, .none]).value :=
    typed_crew (by simp [Rules.Holds, Rules.checkable, FieldType.Takes, holds])
  have incomplete : crewProgram.isComplete (crewMessage [.int 7, .none]).value = .ok false := by
    decide +kernel
  obtain ⟨complete, ends, answer⟩ := isComplete_iff_isFull build_crew (by decide +kernel) typed
  cases ends.symm.trans incomplete
  exact ⟨incomplete, fun full => Bool.false_ne_true (answer.2 full)⟩

/-- A message that holds any other one, but has a field for a message with a required field instead of its
two standard fields. -/
def leadingAnyFiles : List FileDecl :=
  [{ name := "a.proto"
     messages :=
      [{ name := "Person"
         fields := [{ name := "id", number := 1, label := .required, type := .int32 }] }] },
   { name := "google/protobuf/any.proto"
     package := "google.protobuf"
     dialect := "proto3"
     dependencies := ["a.proto"]
     messages := [{ name := "Any", fields := [{ name := "foo", number := 1, type := .message
                                                typeName := ".Person" }] }] }]

/-- Without its two standard fields, a message that holds any other one may have no answer to whether it
is complete, not even a new one.  Nor has a message with an extension of a scalar type that names a
class. -/
theorem isComplete_unanswered :
    (∃ p v, Program.build leadingAnyFiles {} = .ok p ∧ p.fresh 1 = .ok v ∧ p.isComplete v = .error .noAttribute)
    ∧ sampleProgram.isComplete (Content.value
        { head := { type := 0 }, slots := [.none],
          extensions := [({ sampleExtension with messageType := some 0 }, .int 5)] })
      = .error .noAttribute := by
  have noFault : ((Program.ofFiles leadingAnyFiles).plan? 1).bind (·.birthFault?) = none := by
    decide +kernel
  exact ⟨⟨.ofFiles leadingAnyFiles, _, build_ofFiles (by decide +kernel),
    by rw [Program.fresh, noFault], by decide +kernel⟩, by decide +kernel⟩

end Missive
